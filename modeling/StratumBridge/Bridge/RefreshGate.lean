import StratumBridge.Bridge.Frames
import StratumBridge.Bridge.Provenance
import StratumBridge.Bridge.RefreshProtocol
import StratumBridge.Interaction.Balance
import StratumBridge.Interaction.Clock
import StratumBridge.Interaction.Lock

/-! # The gate of parent refreshes

The refreshes of a connection take turns at its gate. The one that has the permit is the only
one to send a parent-only job and to note its time, so the time it looked at is the time of
the last job when it sends its own.
-/

namespace StratumBridge

open Interaction

section Model

variable [Platform] {deployment : Deployment}

/-! ## Turns -/

/-- How an operation turns the gate of a connection. -/
def refreshTurn (uid : Nat) : (op : BridgeOp) → op.Answer → Option Bool
  | .context other .acquireParentRefresh, true => if other = uid then some true else none
  | .context other .releaseParentRefresh, _ => if other = uid then some false else none
  | _, _ => none

/-- The task has the permit of the connection. -/
def Refreshing (uid thread : Nat) (log : Record deployment) : Prop :=
  @System.Holds (bridge deployment) (refreshTurn uid) thread log

/-- The gate of a connection after a section on it. -/
def ContextOp.gateAfter : ContextOp → Bool → Bool
  | .acquireParentRefresh, _ => true
  | .releaseParentRefresh, _ => false
  | _, held => held

/-- The time of the last parent-only job after a section on a connection. -/
def ContextOp.parentJobAfter : ContextOp → Option Nat → Option Nat
  | .markParentJobSent now, _ => some now
  | _, last => last

theorem performOp_parentRefreshHeld {state after : BridgeState} {env : Env} {op : BridgeOp}
    {answer : op.Answer} {uid : Nat} (performed : performOp state env op = some (answer, after)) :
    (after.contexts uid).parentRefreshHeld =
      match op with
      | .context other op => if other = uid then op.gateAfter (state.contexts uid).parentRefreshHeld
          else (state.contexts uid).parentRefreshHeld
      | _ => (state.contexts uid).parentRefreshHeld := by
  refine performOp_field Context.parentRefreshHeld ContextOp.gateAfter ?_ performed
  intro op context next answer acted
  cases op with
  | lockJobBuild =>
      obtain ⟨-, same⟩ := Option.ite_none_left_eq_some.mp acted
      cases same
      rfl
  | ensureDefaultWorkerName =>
      cases acted
      exact apply_ite Context.parentRefreshHeld _ _ _ |>.trans (ite_self _)
  | _ =>
      cases acted
      rfl

theorem performOp_lastParentJobAt {state after : BridgeState} {env : Env} {op : BridgeOp}
    {answer : op.Answer} {uid : Nat} (performed : performOp state env op = some (answer, after)) :
    (after.contexts uid).lastParentJobAt =
      match op with
      | .context other op => if other = uid then op.parentJobAfter (state.contexts uid).lastParentJobAt
          else (state.contexts uid).lastParentJobAt
      | _ => (state.contexts uid).lastParentJobAt := by
  refine performOp_field Context.lastParentJobAt ContextOp.parentJobAfter ?_ performed
  intro op context next answer acted
  cases op with
  | lockJobBuild =>
      obtain ⟨-, same⟩ := Option.ite_none_left_eq_some.mp acted
      cases same
      rfl
  | ensureDefaultWorkerName =>
      cases acted
      exact apply_ite Context.lastParentJobAt _ _ _ |>.trans (ite_self _)
  | _ =>
      cases acted
      rfl

theorem refreshLock (uid : Nat) : @System.Lock (bridge deployment)
    (fun state : BridgeState => (state.contexts uid).parentRefreshHeld) (refreshTurn uid) where
  taken := by
    intro op state env answer after performed chosen
    change performOp state env op = some (answer, after) at performed
    have moved := @performOp_parentRefreshHeld _ _ _ _ _ _ uid performed
    cases op with
    | context other op =>
        have acted := performOp_context_act performed
        cases op with
        | acquireParentRefresh =>
            cases answer with
            | false => exact nomatch chosen
            | true =>
                obtain ⟨rfl, -⟩ := Option.ite_none_right_eq_some.mp chosen
                have free := (Prod.ext_iff.mp (Option.some.inj acted)).1
                exact ⟨(Bool.not_eq_true' _).mp free, moved.trans (if_pos rfl)⟩
        | releaseParentRefresh => exact nomatch (Option.ite_none_right_eq_some.mp chosen).2
        | _ => exact nomatch chosen
    | _ => exact nomatch chosen
  kept := by
    intro op state env answer after performed chosen
    change performOp state env op = some (answer, after) at performed
    refine (performOp_parentRefreshHeld performed).trans ?_
    cases op with
    | context other op =>
        by_cases same : other = uid
        · subst same
          refine (if_pos rfl).trans ?_
          cases op with
          | releaseParentRefresh => simp only [refreshTurn, if_true, reduceCtorEq] at chosen
          | acquireParentRefresh =>
              cases answer with
              | true => simp only [refreshTurn, if_true, reduceCtorEq] at chosen
              | false =>
                  -- The permit was taken, and stays so.
                  have busy := (Prod.ext_iff.mp (Option.some.inj (performOp_context_act performed))).1
                  exact ((Bool.not_eq_false' _).mp busy).symm
          | _ => rfl
        · exact if_neg same
    | _ => rfl

/-! ## The stage of a task -/

def GateStep.turn : GateStep → Option Bool
  | .acquired => some true
  | .released => some false
  | _ => none

/-- The turn a call makes at the gate of this connection. -/
def GateCall.turn (uid : Nat) (call : GateCall) : Option Bool := (call.at uid).bind GateStep.turn

/-- What an operation does at the gate of a connection. -/
inductive Gates (uid : Nat) : (op : BridgeOp) → op.Answer → Option GateStep → Prop where
  | read (context : Context) : Gates uid (.context uid .read) context (some (.read context))
  | clock (now : Nat) : Gates uid .now now (some (.clock now))
  | acquired : Gates uid (.context uid .acquireParentRefresh) true (some .acquired)
  | released (answer : Unit) :
      Gates uid (.context uid .releaseParentRefresh) answer (some .released)
  | marked (now : Nat) (answer : Unit) :
      Gates uid (.context uid (.markParentJobSent now)) answer (some (.marked now))
  | sent (jobId : Nat) (params : JobParams) (minimal delivered : Bool) :
      Gates uid (.send uid (.notify jobId params minimal)) delivered (some (.sent delivered))
  | other (op : BridgeOp) (answer : op.Answer)
      (silent : (gateCall op answer).bind (GateCall.at uid) = none) : Gates uid op answer none

theorem gates (uid : Nat) (op : BridgeOp) (answer : op.Answer) :
    Gates uid op answer ((gateCall op answer).bind (GateCall.at uid)) := by
  by_cases silent : (gateCall op answer).bind (GateCall.at uid) = none
  · rw [silent]
    exact .other op answer silent
  have own : ∀ {other : Nat} {step : GateStep}, GateCall.at uid ⟨some other, step⟩ ≠ none →
      other = uid := by
    intro other step here
    by_contra different
    exact here (if_neg fun same => different (of_decide_eq_true same))
  have here : ∀ {step : GateStep}, GateCall.at uid ⟨some uid, step⟩ = some step :=
    if_pos (decide_eq_true rfl)
  revert silent
  unfold gateCall
  split
  · intro silent
    obtain rfl := own silent
    rw [Option.bind_some, here]
    exact .read _
  · exact fun _ => .clock _
  · intro silent
    obtain rfl := own silent
    rw [Option.bind_some, here]
    exact .acquired
  · intro silent
    obtain rfl := own silent
    rw [Option.bind_some, here]
    exact .released _
  · intro silent
    obtain rfl := own silent
    rw [Option.bind_some, here]
    exact .marked _ _
  · intro silent
    obtain rfl := own silent
    rw [Option.bind_some, here]
    exact .sent _ _ _ _
  · exact fun silent => absurd rfl silent

/-- A call moves the stage by its step at the own gate. -/
theorem refreshStage_call {settings : Settings} {uid : Nat} (calls : List GateCall) (op : BridgeOp)
    (answer : op.Answer) :
    refreshStage settings uid (calls ++ (gateCall op answer).toList) =
      match (gateCall op answer).bind (GateCall.at uid) with
      | some step => (refreshStage settings uid calls).next settings step
      | none => refreshStage settings uid calls := by
  rw [refreshStage_append]
  cases gateCall op answer with
  | none => rfl
  | some call =>
      rw [Option.toList_some, Option.bind_some]
      cases own : call.at uid with
      | none =>
          rw [List.filterMap_cons_none own]
          rfl
      | some step =>
          rw [List.filterMap_cons_some own]
          rfl

/-- The stage the task has reached at the gate of the connection. -/
def stageOf (uid thread : Nat) (log : Record deployment) : RefreshStage :=
  refreshStage deployment.settings uid (System.ownCalls gateCall thread log)

theorem refreshTurn_eq (uid : Nat) (op : BridgeOp) (answer : op.Answer) :
    refreshTurn uid op answer = ((gateCall op answer).bind (GateCall.at uid)).bind GateStep.turn := by
  have gate := gates uid op answer
  generalize moved : (gateCall op answer).bind (GateCall.at uid) = step at gate
  cases gate with
  | acquired | released => exact if_pos rfl
  | read | clock | marked | sent => rfl
  | other =>
      have here : ∀ {own : Nat} {step : GateStep}, own = uid →
          (some (⟨some own, step⟩ : GateCall)).bind (GateCall.at uid) ≠ none := by
        rintro own step rfl
        exact (if_pos (decide_eq_true rfl)).trans_ne nofun
      cases op with
      | context own op =>
          cases op with
          | acquireParentRefresh =>
              cases (answer : Bool) with
              | true => exact if_neg fun same => here same moved
              | false => rfl
          | releaseParentRefresh => exact if_neg fun same => here same moved
          | _ => rfl
      | _ => rfl

theorem ownCalls_refreshTurn (uid thread : Nat) (log : Record deployment) :
    System.ownCalls (refreshTurn uid) thread log =
      (System.ownCalls gateCall thread log).filterMap (GateCall.turn uid) := by
  rw [← System.ownCalls_bind]
  have same : refreshTurn uid = fun op answer => (gateCall op answer).bind (GateCall.turn uid) := by
    funext op answer
    rw [refreshTurn_eq, Option.bind_assoc]
    rfl
  rw [same]

theorem refreshes_execute (events : List (bridge deployment).Event) :
    @System.Explained (bridge deployment) _ (refreshes deployment.settings)
      (System.execute events).log :=
  @System.explained_execute (bridge deployment) _ (refreshes deployment.settings)
    (bridgeProgram_gate deployment.settings) events fun _ _ _ _ => trivial

/-- Only the turns of the gate move a refresh into it or out of it. -/
theorem RefreshStage.held_next {settings : Settings} {stage : RefreshStage} {step : GateStep}
    (silent : step.turn = none) : (stage.next settings step).Held ↔ stage.Held := by
  unfold RefreshStage.next
  split
  · exact Iff.rfl
  · exact nomatch silent
  · exact Iff.rfl
  · split <;> exact Iff.rfl
  · split <;> exact Iff.rfl
  · exact Iff.rfl
  · exact Iff.rfl
  · exact nomatch silent
  · exact nomatch silent
  · exact nomatch silent
  · exact Iff.rfl

/-- **The permit and the stage.** -/
theorem refreshing_iff {events : List (bridge deployment).Event} {front back : Record deployment}
    (split : (System.execute events).log = front ++ back) (uid thread : Nat) :
    Refreshing uid thread front ↔ (stageOf uid thread front).Held := by
  rw [Refreshing, System.Holds, ownCalls_refreshTurn]
  refine @System.Explained.ownCalls_induction (bridge deployment) _ (refreshes deployment.settings)
    _ front back (refreshes_execute events) thread
    (fun calls => (calls.filterMap (GateCall.turn uid)).getLast? = some true ↔
      (refreshStage deployment.settings uid calls).Held) ?_ ?_ split
  · refine iff_of_false ?_ not_false
    exact Ne.symm (Option.some_ne_none true)
  · intro request calls op answer before permitted
    change RefreshPermits deployment.settings request calls op at permitted
    have turns : ((gateCall op answer).toList).filterMap (GateCall.turn uid) =
        (((gateCall op answer).bind (GateCall.at uid)).bind GateStep.turn).toList := by
      cases gateCall op answer with
      | none => rfl
      | some call =>
          rw [Option.toList_some, Option.bind_some]
          change List.filterMap _ [call] = (GateCall.turn uid call).toList
          cases turned : GateCall.turn uid call with
          | none => exact List.filterMap_cons_none turned
          | some turn => exact List.filterMap_cons_some turned
    rw [List.filterMap_append, turns, refreshStage_call]
    have gate := gates uid op answer
    generalize (gateCall op answer).bind (GateCall.at uid) = moved at gate
    cases gate with
    | acquired =>
        obtain ⟨-, interval, asked⟩ := permitted
        dsimp only
        rw [asked]
        exact iff_of_true List.getLast?_concat trivial
    | released =>
        have settled := permitted.2
        dsimp only
        refine iff_of_false ?_ ?_
        · change (List.filterMap _ calls ++ [false]).getLast? ≠ some true
          rw [List.getLast?_concat]
          exact fun same => Bool.false_ne_true (Option.some.inj same)
        · revert settled
          cases refreshStage deployment.settings uid calls with
          | refused | cleared | settled => exact fun _ => not_false
          | _ => exact False.elim
    | read | clock | marked | sent =>
        refine Iff.trans ?_ (before.trans (RefreshStage.held_next rfl).symm)
        change (List.filterMap _ calls ++ []).getLast? = _ ↔ _
        rw [List.append_nil]
    | other =>
        change (List.filterMap _ calls ++ []).getLast? = _ ↔ _
        rw [List.append_nil]
        exact before

theorem refreshLock_disciplined (uid : Nat) (events : List (bridge deployment).Event) :
    @System.Disciplined (bridge deployment) (refreshTurn uid) (System.execute events).log := by
  intro front thread op answer back split released
  obtain ⟨request, -, permitted⟩ := (refreshes_execute events).calls front thread op answer
    back split
  refine (refreshing_iff split uid thread).mpr ?_
  change RefreshPermits deployment.settings request _ op at permitted
  cases op with
  | context other op =>
      cases op with
      | releaseParentRefresh =>
          obtain ⟨rfl, -⟩ := Option.ite_none_right_eq_some.mp released
          have settled := permitted.2
          rw [stageOf]
          revert settled
          cases refreshStage deployment.settings other (System.ownCalls gateCall thread front) with
          | refused | cleared | settled => exact fun _ => trivial
          | _ => exact False.elim
      | acquireParentRefresh =>
          cases (answer : Bool) with
          | false => exact nomatch released
          | true => exact nomatch (Option.ite_none_right_eq_some.mp released).2
      | _ => exact nomatch released
  | _ => exact nomatch released

/-- **One refresh.** While a refresh of a connection has the permit, no other has. -/
theorem refreshing_unique {events : List (bridge deployment).Event} {front back : Record deployment}
    (split : (System.execute events).log = front ++ back) {uid thread other : Nat}
    (first : Refreshing uid thread front) (second : Refreshing uid other front) : thread = other :=
  (refreshLock uid).holder_unique (refreshLock_disciplined uid events) split first second

end Model

end StratumBridge
