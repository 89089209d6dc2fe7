import StratumBridge.Bridge.Footprint
import StratumBridge.Interaction.Recording

/-! # The course of a parent refresh

A callback reads the connection, asks for the permit, looks again at the time of the last
parent job, and clears or gives the permit back. A cleared refresh sends at most one job,
notes the time when it was delivered, and gives the permit back in the end.
-/

namespace StratumBridge

open Interaction

variable [Platform]

/-! ## Stages -/

/-- What a refresh does at the gate of its connection. -/
inductive GateStep where
  | read (context : Context)
  | clock (now : Nat)
  | acquired
  | released
  | marked (now : Nat)
  | sent (delivered : Bool)

/-- A step at the gate of a connection; readings of the clock belong to no connection. -/
structure GateCall where
  uid : Option Nat
  step : GateStep

/-- The step a call makes at the gate of this connection. -/
def GateCall.at (uid : Nat) (call : GateCall) : Option GateStep :=
  if call.uid.all fun other => decide (other = uid) then some call.step else none

def gateCall : (op : BridgeOp) → op.Answer → Option GateCall
  | .context uid .read, context => some ⟨some uid, .read context⟩
  | .now, now => some ⟨none, .clock now⟩
  | .context uid .acquireParentRefresh, true => some ⟨some uid, .acquired⟩
  | .context uid .releaseParentRefresh, _ => some ⟨some uid, .released⟩
  | .context uid (.markParentJobSent now), _ => some ⟨some uid, .marked now⟩
  | .send uid (.notify _ _ _), delivered => some ⟨some uid, .sent delivered⟩
  | _, _ => none

/-- How far a refresh has come. -/
inductive RefreshStage where
  | fresh
  /-- The callback knows the interval in force. -/
  | asked (interval : Nat)
  | entered (interval : Nat)
  /-- With the permit, it knows when the last parent job was sent. -/
  | looked (interval : Nat) (sentAt : Option Nat)
  | refused
  | cleared (interval now : Nat)
  /-- A job was delivered; its time is not noted yet. -/
  | sent
  | timed (now : Nat)
  | settled
  | left

namespace RefreshStage

def next (settings : Settings) : RefreshStage → GateStep → RefreshStage
  | .fresh, .read context => .asked (parentJobInterval settings context.remoteApp)
  | .asked interval, .acquired => .entered interval
  | .entered interval, .read context => .looked interval context.lastParentJobAt
  | .looked interval sentAt, .clock now =>
      if sentAt.any fun sentAt => decide (now - sentAt < interval) then .refused
      else .cleared interval now
  | .cleared _ _, .sent delivered => if delivered then .sent else .settled
  | .sent, .clock now => .timed now
  | .timed _, .marked _ => .settled
  | .refused, .released | .cleared _ _, .released | .settled, .released => .left
  | stage, _ => stage

/-- The refresh has the permit. -/
def Held : RefreshStage → Prop
  | .fresh | .asked _ | .left => False
  | _ => True

/-- The permit can be given back. -/
def Settled : RefreshStage → Prop
  | .refused | .cleared _ _ | .settled => True
  | _ => False

/-- Readings do not move the stage. -/
def Steady : RefreshStage → Prop
  | .asked _ | .refused | .cleared _ _ | .settled | .left => True
  | _ => False

end RefreshStage

/-- The stage of a refresh of this connection after these calls. -/
def refreshStage (settings : Settings) (uid : Nat) (calls : List GateCall) : RefreshStage :=
  (calls.filterMap (GateCall.at uid)).foldl (RefreshStage.next settings) .fresh

/-- Only the refresh of a connection turns its gate, and it sends once it is cleared. -/
def RefreshPermits (settings : Settings) (request : BridgeRequest) (calls : List GateCall) :
    BridgeOp → Prop
  | .context uid .acquireParentRefresh =>
      request = .newParent uid ∧ ∃ interval, refreshStage settings uid calls = .asked interval
  | .context uid .releaseParentRefresh =>
      request = .newParent uid ∧ (refreshStage settings uid calls).Settled
  | .context uid (.markParentJobSent now) =>
      request = .newParent uid ∧ refreshStage settings uid calls = .timed now
  | .send uid (.notify _ _ _) => ∀ own, request = .newParent own →
      own = uid ∧ ∃ interval now, refreshStage settings uid calls = .cleared interval now
  | _ => True

@[reducible] def refreshes (settings : Settings) :
    Protocol bridgeSignature BridgeRequest GateCall BridgeResult where
  select := gateCall
  permits := RefreshPermits settings
  answers := fun _ _ => True
  completes := fun request calls _ => ∀ uid, request = .newParent uid →
    ¬(refreshStage settings uid calls).Held

/-! ## Readings -/

section Readings

variable {settings : Settings} {uid : Nat} {calls : List GateCall}

/-- The call only reads the connection or the clock. -/
def GateCall.IsReading (call : GateCall) : Prop :=
  (∃ context, call.step = .read context) ∨ ∃ now, call.step = .clock now

theorem refreshStage_append (added : List GateCall) :
    refreshStage settings uid (calls ++ added) =
      (added.filterMap (GateCall.at uid)).foldl (RefreshStage.next settings)
        (refreshStage settings uid calls) := by
  rw [refreshStage, List.filterMap_append, List.foldl_append]
  rfl

/-- A step at the own gate moves the stage. -/
theorem refreshStage_step (step : GateStep) :
    refreshStage settings uid (calls ++ [⟨some uid, step⟩]) =
      (refreshStage settings uid calls).next settings step := by
  have own : GateCall.at uid ⟨some uid, step⟩ = some step := if_pos (decide_eq_true rfl)
  rw [refreshStage_append, List.filterMap_cons_some own]
  rfl

theorem refreshStage_clock (now : Nat) :
    refreshStage settings uid (calls ++ [⟨none, .clock now⟩]) =
      (refreshStage settings uid calls).next settings (.clock now) := by
  rw [refreshStage_append]
  rfl

theorem RefreshStage.Steady.next {stage : RefreshStage} (steady : stage.Steady) {call : GateCall}
    (reading : call.IsReading) : stage.next settings call.step = stage := by
  rcases reading with ⟨context, same⟩ | ⟨now, same⟩
  all_goals
    rw [same]
    cases stage with
    | fresh | entered | looked | sent | timed => exact steady.elim
    | asked | refused | cleared | settled | left => rfl

/-- Readings leave a steady stage. -/
theorem refreshStage_readings (steady : (refreshStage settings uid calls).Steady)
    {added : List GateCall} (readings : ∀ call ∈ added, call.IsReading) :
    refreshStage settings uid (calls ++ added) = refreshStage settings uid calls := by
  rw [refreshStage_append]
  induction added with
  | nil => rfl
  | cons call added ih =>
      have rest := ih fun later member => readings later (List.mem_cons_of_mem _ member)
      cases own : call.at uid with
      | none =>
          rw [List.filterMap_cons_none own]
          exact rest
      | some step =>
          have same : call.step = step := (Option.ite_none_right_eq_some.mp own).2 |> Option.some.inj
          rw [List.filterMap_cons_some own, List.foldl_cons, ← same,
            steady.next (readings call List.mem_cons_self)]
          exact rest

end Readings

/-! ## Tasks obey the protocol -/

/-- The kinds of operations that leave the gates alone. -/
def gatelessKinds : List Kind := Kind.except [.refreshGate]

/-- The kinds of operations that only read at the gates. -/
def readingKinds : List Kind := Kind.except [.refreshGate, .sendNotify]

section Tasks

variable {settings : Settings} {request : BridgeRequest} {calls : List GateCall} {uid : Nat}
  {α β : Type}

theorem refreshPermits_of_reading {op : BridgeOp} (other : op.kind ∈ readingKinds) :
    RefreshPermits settings request calls op := by
  have noGate : Kind.refreshGate ∉ readingKinds := by decide
  have noSend : Kind.sendNotify ∉ readingKinds := by decide
  unfold RefreshPermits
  split
  · exact absurd other noGate
  · exact absurd other noGate
  · exact absurd other noGate
  · exact absurd other noSend
  · trivial

theorem gateCall_of_reading {op : BridgeOp} (other : op.kind ∈ readingKinds) {answer : op.Answer}
    {call : GateCall} (chosen : gateCall op answer = some call) : call.IsReading := by
  have noGate : Kind.refreshGate ∉ readingKinds := by decide
  have noSend : Kind.sendNotify ∉ readingKinds := by decide
  unfold gateCall at chosen
  split at chosen
  · cases chosen
    exact Or.inl ⟨_, rfl⟩
  · cases chosen
    exact Or.inr ⟨_, rfl⟩
  · exact absurd other noGate
  · exact absurd other noGate
  · exact absurd other noGate
  · exact absurd other noSend
  · exact nomatch chosen

/-- A task other than a refresh that leaves the gates alone obeys the protocol. -/
theorem Uses.gateless {kinds : List Kind} {task : Task α} (uses : Uses kinds task)
    (subset : kinds ⊆ gatelessKinds) (ordinary : ∀ uid, request ≠ .newParent uid) :
    (refreshes settings).Obeys request calls task fun _ _ => True := by
  have noGate : Kind.refreshGate ∉ gatelessKinds := by decide
  refine Protocol.obeys_of_permitted (Program.Within.mono uses ?_)
  intro op used calls
  change RefreshPermits settings request calls op
  unfold RefreshPermits
  split
  · exact absurd (subset used) noGate
  · exact absurd (subset used) noGate
  · exact absurd (subset used) noGate
  · exact fun own same => absurd same (ordinary own)
  · trivial

/-- Readings can be skipped in a steady stage. -/
theorem gate_skip {first : Task α} {rest : α → Task β} {post : List GateCall → β → Prop}
    {stage : RefreshStage} (uses : Uses readingKinds first)
    (here : refreshStage settings uid calls = stage) (steady : stage.Steady)
    (tail : ∀ after result, refreshStage settings uid after = stage →
      (refreshes settings).Obeys request after (rest result) post) :
    (refreshes settings).Obeys request calls (first >>= rest) post := by
  have passes : Program.Within ((refreshes settings).Passes GateCall.IsReading) first := by
    refine Program.Within.mono uses ?_
    intro op used
    exact ⟨fun _ _ => refreshPermits_of_reading used, fun answer call => gateCall_of_reading used⟩
  refine (Protocol.obeys_of_passes passes).bind ?_
  rintro after result ⟨added, rfl, readings⟩
  exact tail _ result ((refreshStage_readings (here ▸ steady) readings).trans here)

/-- One call, then the rest. -/
theorem gate_call {post : List GateCall → β → Prop} (op : BridgeOp) {rest : op.Answer → Task β}
    (permitted : RefreshPermits settings request calls op)
    (tail : ∀ answer, (refreshes settings).Obeys request (calls ++ (gateCall op answer).toList)
      (rest answer) post) :
    (refreshes settings).Obeys request calls (call op >>= rest) post :=
  ⟨permitted, fun answer _ => tail answer⟩

/-- The second look, with the permit. -/
theorem refreshedRecently_gate {interval : Nat}
    (entered : refreshStage settings uid calls = .entered interval) :
    (refreshes settings).Obeys request calls (refreshedRecently uid interval)
      fun after recent => if recent then refreshStage settings uid after = .refused
        else ∃ now, refreshStage settings uid after = .cleared interval now := by
  refine gate_call (.context uid .read) trivial fun (context : Context) => ?_
  have looked : refreshStage settings uid (calls ++ [⟨some uid, .read context⟩]) =
      .looked interval context.lastParentJobAt := by
    rw [refreshStage_step, entered]
    rfl
  refine gate_call .now trivial fun (now : Nat) => ?_
  have decided : refreshStage settings uid
      (calls ++ [⟨some uid, .read context⟩] ++ [⟨none, .clock now⟩]) =
        if context.lastParentJobAt.any fun sentAt => decide (now - sentAt < interval) then .refused
        else .cleared interval now := by
    rw [refreshStage_clock, looked]
    rfl
  refine Protocol.obeys_done ?_
  split
  · next recent => exact decided.trans (if_pos recent)
  · next free => exact ⟨now, decided.trans (if_neg free)⟩

/-- The permit is given only to a cleared refresh. -/
theorem tryParentRefresh_gate {interval : Nat}
    (asked : refreshStage settings uid calls = .asked interval) :
    (refreshes settings).Obeys (.newParent uid) calls (tryParentRefresh uid interval)
      fun after permitted =>
        if permitted then ∃ now, refreshStage settings uid after = .cleared interval now
        else ¬(refreshStage settings uid after).Held := by
  have quiet : Kind.quiet ∈ readingKinds := by decide
  refine gate_skip (refreshedRecently_uses uid quiet interval) asked trivial
    fun after recent still => ?_
  cases recent with
  | true =>
      refine Protocol.obeys_done ?_
      rw [if_neg Bool.false_ne_true, still]
      exact not_false
  | false =>
      refine gate_call (.context uid .acquireParentRefresh) ⟨rfl, interval, still⟩
        fun acquired => ?_
      cases (acquired : Bool) with
      | false =>
          refine Protocol.obeys_done ?_
          rw [if_neg Bool.false_ne_true]
          change ¬(refreshStage settings uid (after ++ [])).Held
          rw [List.append_nil, still]
          exact not_false
      | true =>
          have entered : refreshStage settings uid (after ++ [⟨some uid, .acquired⟩]) =
              .entered interval := by
            rw [refreshStage_step, still]
            rfl
          refine (refreshedRecently_gate entered).bind ?_
          intro looked recent outcome
          cases recent with
          | true =>
              have refused : refreshStage settings uid looked = .refused := outcome
              have settled : (refreshStage settings uid looked).Settled := by
                rw [refused]
                exact trivial
              refine gate_call (.context uid .releaseParentRefresh) ⟨rfl, settled⟩ fun _ => ?_
              refine Protocol.obeys_done ?_
              rw [if_neg Bool.false_ne_true]
              change ¬(refreshStage settings uid (looked ++ [⟨some uid, .released⟩])).Held
              rw [refreshStage_step, refused]
              exact not_false
          | false => exact Protocol.obeys_done outcome

/-- A cleared refresh sends its job and notes the time if it was delivered. -/
theorem announceParent_gate (instanceId : Nat) {interval cleared : Nat}
    (stage : refreshStage settings uid calls = .cleared interval cleared) (parent : Block)
    (prePowHash : Hash) (jobId : Nat) :
    (refreshes settings).Obeys (.newParent uid) calls
      (announceParent instanceId uid parent prePowHash jobId)
      fun after _ => refreshStage settings uid after = .settled := by
  have quiet : Kind.quiet ∈ readingKinds := by decide
  refine gate_skip (remoteApp_uses quiet uid) stage trivial fun _ app same => ?_
  refine gate_skip (uses_quiet quiet (.ring uid .useBigJob) rfl) same trivial
    fun named useBigJob still => ?_
  refine gate_call (.send uid (.notify jobId _ _)) ?_ fun sent => ?_
  · rintro own same
    cases same
    exact ⟨rfl, interval, cleared, still⟩
  have moved : refreshStage settings uid (named ++ [⟨some uid, .sent sent⟩]) =
      if sent then .sent else .settled := by
    rw [refreshStage_step, still]
    rfl
  cases (sent : Bool) with
  | true =>
      refine gate_call .now trivial fun (now : Nat) => ?_
      have timed : refreshStage settings uid
          (named ++ [⟨some uid, .sent true⟩] ++ [⟨none, .clock now⟩]) = .timed now := by
        rw [refreshStage_clock, moved]
        rfl
      refine gate_call (.context uid (.markParentJobSent now)) ⟨rfl, timed⟩ fun _ => ?_
      have settled : refreshStage settings uid (named ++ [⟨some uid, .sent true⟩] ++
          [⟨none, .clock now⟩] ++ [⟨some uid, .marked now⟩]) = .settled := by
        rw [refreshStage_step, timed]
        rfl
      refine gate_skip (workerContext_uses quiet instanceId uid app) settled trivial
        fun after labels same => ?_
      exact gate_skip (uses_quiet quiet (.record (.newJob labels)) rfl) same trivial
        fun _ _ still => still
  | false =>
      have settled : refreshStage settings uid (named ++ [⟨some uid, .sent false⟩]) = .settled :=
        moved
      refine gate_skip (walletAddr_uses quiet uid) settled trivial fun after wallet same => ?_
      exact gate_skip (uses_quiet quiet (.record (.workerError _ wallet .failedSendWork)) rfl)
        same trivial fun _ _ still => still

theorem publishParent_gate (instanceId : Nat) {interval cleared : Nat}
    (stage : refreshStage settings uid calls = .cleared interval cleared)
    (expectedHFc : Option Hash) (parent : Block) :
    (refreshes settings).Obeys (.newParent uid) calls
      (publishParent instanceId uid expectedHFc parent)
      fun after _ => (refreshStage settings uid after).Settled := by
  have cleared_settled : ∀ {after : List GateCall},
      refreshStage settings uid after = .cleared interval cleared →
        (refreshStage settings uid after).Settled := by
    intro after still
    rw [still]
    exact trivial
  refine gate_skip (latestJob_uses uid (by decide)) stage trivial fun after latest still => ?_
  cases latest with
  | none => exact Protocol.obeys_done (cleared_settled still)
  | some latest =>
      dsimp only
      split
      case isFalse => exact Protocol.obeys_done (cleared_settled still)
      case isTrue =>
        split
        case h_1 => exact Protocol.obeys_done (cleared_settled still)
        case h_2 prePowHash _ =>
          have adds : Kind.addJob ∈ readingKinds := by decide
          refine gate_skip (uses_perform (.ring uid (.addJob ⟨parent, prePowHash⟩)) adds) still
            trivial fun added jobId same => ?_
          refine (announceParent_gate instanceId same parent prePowHash jobId).mono ?_
          intro final _ settled
          rw [settled]
          exact trivial

theorem refreshParent_gate (instanceId : Nat) {interval cleared : Nat}
    (stage : refreshStage settings uid calls = .cleared interval cleared) (job : Job) :
    (refreshes settings).Obeys (.newParent uid) calls (refreshParent settings instanceId uid job)
      fun after _ => (refreshStage settings uid after).Settled := by
  have quiet : Kind.quiet ∈ readingKinds := by decide
  have locks : Kind.buildLock ∈ readingKinds := by decide
  have reads : Kind.payoutRead ∈ readingKinds := by decide
  have cleared_settled : ∀ {after : List GateCall},
      refreshStage settings uid after = .cleared interval cleared →
        (refreshStage settings uid after).Settled := by
    intro after still
    rw [still]
    exact trivial
  refine gate_skip (uses_perform (.context uid .kasPayout) reads) stage trivial
    fun paid payee same => ?_
  refine gate_skip (refreshMergedParent_uses settings quiet (by decide) (by decide) (by decide) (by decide) _ _)
    same trivial fun fetched refreshed still => ?_
  split
  · next parent =>
    refine gate_skip (uses_perform (.context uid .tryLockJobBuild) locks) still trivial
      fun built locked again => ?_
    cases (locked : Bool) with
    | false => exact Protocol.obeys_done (cleared_settled again)
    | true =>
        refine (publishParent_gate instanceId again (committedHFc job.block) parent).bind ?_
        intro published _ settled
        have steady : (refreshStage settings uid published).Steady := by
          revert settled
          cases refreshStage settings uid published with
          | refused | cleared | settled => exact fun _ => trivial
          | _ => exact False.elim
        refine gate_skip (uses_perform (.context uid .unlockJobBuild) locks) rfl steady
          fun final _ same => ?_
        exact Protocol.obeys_done (same ▸ settled)
  · exact Protocol.obeys_done (cleared_settled still)

/-- **A refresh ends without the permit.** -/
theorem newParentAvailable_gate (uid : Nat) :
    (refreshes settings).Obeys (.newParent uid) [] (newParentAvailable settings uid)
      fun after _ => ¬(refreshStage settings uid after).Held := by
  have release : ∀ {calls : List GateCall}, (refreshStage settings uid calls).Settled →
      (refreshes settings).Obeys (.newParent uid) calls (call (.context uid .releaseParentRefresh))
        fun after _ => ¬(refreshStage settings uid after).Held := by
    intro calls settled
    refine ⟨⟨rfl, settled⟩, fun _ _ => ?_⟩
    change ¬(refreshStage settings uid (calls ++ [⟨some uid, .released⟩])).Held
    rw [refreshStage_step]
    revert settled
    cases refreshStage settings uid calls with
    | refused | cleared | settled => exact fun _ => not_false
    | _ => exact False.elim
  refine gate_call (.context uid .read) trivial fun (context : Context) => ?_
  have asked : refreshStage settings uid [⟨some uid, .read context⟩] =
      .asked (parentJobInterval settings context.remoteApp) := by
    rw [← List.nil_append [_], refreshStage_step]
    rfl
  split
  · refine Protocol.obeys_done ?_
    change ¬(refreshStage settings uid [⟨some uid, .read context⟩]).Held
    rw [asked]
    exact not_false
  · refine (tryParentRefresh_gate asked).bind ?_
    intro after permitted outcome
    cases permitted with
    | false => exact Protocol.obeys_done outcome
    | true =>
        obtain ⟨now, cleared⟩ := outcome
        refine gate_skip (latestJob_uses uid (by decide)) cleared trivial
          fun found latest still => ?_
        cases latest with
        | none =>
            refine release ?_
            rw [still]
            exact trivial
        | some latest =>
            exact (refreshParent_gate context.instanceId still latest.2).bind
              fun final _ settled => release settled

/-- **Every task keeps to the course of a refresh.** -/
theorem bridgeProgram_gate (settings : Settings) (request : BridgeRequest) :
    (refreshes settings).Obeys request [] (bridgeProgram settings request)
      ((refreshes settings).completes request) := by
  have uses := bridgeProgram_uses settings request
  have ordinary : (∀ uid, request ≠ .newParent uid) → request.kinds ⊆ gatelessKinds →
      (refreshes settings).Obeys request [] (bridgeProgram settings request)
        ((refreshes settings).completes request) := by
    intro other gateless
    exact (uses.gateless gateless other).mono fun _ _ _ uid same => absurd same (other uid)
  cases request with
  | newParent uid =>
      refine (newParentAvailable_gate uid).bind ?_
      intro after _ free own same
      cases same
      exact free
  | submit => exact ordinary nofun (by decide : submissionKinds ⊆ gatelessKinds)
  | confirmBlock => exact ordinary nofun (by decide : confirmationKinds ⊆ gatelessKinds)
  | authorize => exact ordinary nofun (by decide : authorizationKinds ⊆ gatelessKinds)
  | connect => exact ordinary nofun (by decide : connectionKinds ⊆ gatelessKinds)
  | disconnect => exact ordinary nofun (by decide : disconnectionKinds ⊆ gatelessKinds)
  | subscribe => exact ordinary nofun (by decide : subscriptionKinds ⊆ gatelessKinds)
  | _ => exact ordinary nofun (by decide : publicationKinds ⊆ gatelessKinds)

end Tasks

end StratumBridge
