import StratumBridge.Bridge.Provenance
import StratumBridge.Merged.PendingRun

/-! # Residency of lanes

The pending store is the replay of the insertions and claims in the log, so facts about
runs of the store are facts about stretches of the log.
-/

namespace StratumBridge

open Interaction

variable [Platform] {deployment : Deployment}

/-- The call an operation makes on the pending store. -/
def pendingCall : (op : BridgeOp) → op.Answer → Option MergedPending.Call
  | .pending (.insertWithPayee hFc fcBlock paidPool), _ =>
      some (.insertWithPayee hFc fcBlock paidPool)
  | .pending (.claimSolution hFc), _ => some (.claimSolution hFc)
  | _, _ => none

/-- The pending store a log leaves. -/
def pendingOf (log : Record deployment) : MergedPending :=
  MergedPending.run pendingCapacity (System.callsOf pendingCall log)

def Resident (log : Record deployment) (hFc : Hash) : Prop := hFc ∈ (pendingOf log).map

instance (log : Record deployment) (hFc : Hash) : Decidable (Resident log hFc) :=
  inferInstanceAs (Decidable (_ ∈ _))

/-- The lane leaves the pending store within a stretch of the log. -/
def LeavesWithin (front middle : Record deployment) (hFc : Hash) : Prop :=
  ∃ before entry after, middle = before ++ entry :: after ∧ Resident (front ++ before) hFc ∧
    ¬ Resident (front ++ before ++ [entry]) hFc

theorem execute_pending (events : List (bridge deployment).Event) :
    (System.execute events).state.pending = pendingOf (System.execute events).log := by
  refine System.view_eq_replay (fun state : BridgeState => state.pending)
    MergedPending.Call.apply ?_ events
  intro op state env answer after performed
  rw [performOp_pending performed]
  cases op with
  | pending op => cases op <;> rfl
  | _ => rfl

variable {events : List (bridge deployment).Event} {front middle back : Record deployment}
  {thread : Nat} {hFc : Hash}

/-- The answer of a recorded call on the pending store. -/
theorem pending_answer {op : PendingOp} {answer : op.Answer}
    (split : (System.execute events).log = front ++ .did thread (.pending op) answer :: back) :
    answer = (op.act (pendingOf front)).1 := by
  obtain ⟨before, event, rest, -, same, -, env, after, performed⟩ := System.exists_calls_of_did split
  rw [← same, ← execute_pending]
  cases performed
  rfl

theorem claim_succeeds
    (split : (System.execute events).log =
      front ++ .did thread (.pending (.claimSolution hFc)) true :: back) :
    MergedPending.ClaimSucceeds pendingCapacity (System.callsOf pendingCall front) hFc :=
  (pending_answer split).symm

theorem resident_of_claimed
    (split : (System.execute events).log =
      front ++ .did thread (.pending (.claimSolution hFc)) true :: back) : Resident front hFc :=
  (MergedPending.claimSolution_eq_true.mp (claim_succeeds split)).1

theorem not_resident_of_missing
    (split : (System.execute events).log =
      front ++ .did thread (.pending (.get hFc)) none :: back) : ¬ Resident front hFc := by
  intro resident
  have missing : (pendingOf front).get hFc = none := (pending_answer split).symm
  exact absurd resident (AList.lookup_eq_none.mp missing)

/-- An eviction among the calls of a stretch happens within the stretch. -/
theorem leavesWithin_of_evicts {before after : List MergedPending.Call} {call : MergedPending.Call}
    (split : System.callsOf pendingCall middle = before ++ call :: after)
    (evicts : MergedPending.Evicts pendingCapacity
      (System.callsOf pendingCall front ++ before) call hFc) :
    LeavesWithin front middle hFc := by
  obtain ⟨early, entry, late, rfl, calls, last⟩ := System.exists_split_of_callsOf split
  refine ⟨early, entry, late, rfl, ?_, ?_⟩
  · unfold Resident pendingOf
    rw [System.callsOf_append, calls]
    exact evicts.1
  · unfold Resident pendingOf
    rw [System.callsOf_append, System.callsOf_append, calls, last]
    exact evicts.2

/-- Between two successful claims of a lane it leaves the store. -/
theorem leaves_between_claims {other : Nat}
    (split : (System.execute events).log =
      front ++ .did thread (.pending (.claimSolution hFc)) true ::
        (middle ++ .did other (.pending (.claimSolution hFc)) true :: back)) :
    LeavesWithin (front ++ [.did thread (.pending (.claimSolution hFc)) true]) middle hFc := by
  have later : (System.execute events).log =
      (front ++ [.did thread (.pending (.claimSolution hFc)) true] ++ middle) ++
        .did other (.pending (.claimSolution hFc)) true :: back := by
    rw [split, List.append_assoc, List.append_assoc, List.singleton_append]
  have second := claim_succeeds later
  rw [System.callsOf_append, System.callsOf_append] at second
  obtain ⟨before, call, after, calls, evicts⟩ :=
    MergedPending.claim_once_between_evictions pendingCapacity _ _ hFc (claim_succeeds split) second
  refine leavesWithin_of_evicts calls ?_
  rw [System.callsOf_append]
  exact evicts

/-- How one more entry moves the store. -/
inductive Moves (log : Record deployment) : (bridge deployment).Entry → MergedPending → Prop where
  | silent (entry : (bridge deployment).Entry) : Moves log entry (pendingOf log)
  | inserted (thread : Nat) (hFc : Hash) (fcBlock : Block) (paidPool : Bool) :
      Moves log (.did thread (.pending (.insertWithPayee hFc fcBlock paidPool)) ())
        ((pendingOf log).insertWithPayee hFc fcBlock paidPool)
  | claimed (thread : Nat) (hFc : Hash) (won : Bool) :
      Moves log (.did thread (.pending (.claimSolution hFc)) won)
        ((pendingOf log).claimSolution hFc).2

theorem pendingOf_snoc (log : Record deployment) (entry : (bridge deployment).Entry) :
    Moves log entry (pendingOf (log ++ [entry])) := by
  have silent : System.callsOf pendingCall [entry] = [] →
      Moves log entry (pendingOf (log ++ [entry])) := by
    intro nothing
    have same : pendingOf (log ++ [entry]) = pendingOf log := by
      rw [pendingOf, System.callsOf_append, nothing, List.append_nil]
      rfl
    rw [same]
    exact .silent entry
  have moved : ∀ call, System.callsOf pendingCall [entry] = [call] →
      pendingOf (log ++ [entry]) = call.apply (pendingOf log) := by
    intro call one
    rw [pendingOf, System.callsOf_append, one, MergedPending.run_snoc]
    rfl
  cases entry with
  | started thread request => exact silent rfl
  | finished thread result => exact silent rfl
  | did thread op answer =>
      cases op with
      | pending op =>
          cases op with
          | insertWithPayee hFc fcBlock paidPool =>
              rw [moved (.insertWithPayee hFc fcBlock paidPool) rfl]
              exact .inserted thread hFc fcBlock paidPool
          | claimSolution hFc =>
              rw [moved (.claimSolution hFc) rfl]
              exact .claimed thread hFc answer
          | get hFc | isUnsolved hFc => exact silent rfl
      | _ => exact silent rfl

/-- A lane that becomes resident within a stretch is inserted there. -/
theorem exists_insert_of_resident (absent : ¬ Resident front hFc)
    (resident : Resident (front ++ middle) hFc) :
    ∃ before inserter fcBlock paidPool after, middle =
      before ++ .did inserter (.pending (.insertWithPayee hFc fcBlock paidPool)) () :: after := by
  induction middle using List.reverseRecOn with
  | nil => exact absurd (List.append_nil front ▸ resident) absent
  | append_singleton middle entry ih =>
      by_cases earlier : Resident (front ++ middle) hFc
      · obtain ⟨before, inserter, fcBlock, paidPool, after, rfl⟩ := ih earlier
        refine ⟨before, inserter, fcBlock, paidPool, after ++ [entry], ?_⟩
        rw [List.append_assoc, List.cons_append]
      · rw [← List.append_assoc] at resident
        have moves := pendingOf_snoc (front ++ middle) entry
        unfold Resident at resident earlier
        generalize pendingOf (front ++ middle ++ [entry]) = after at moves resident
        cases moves with
        | silent => exact absurd resident earlier
        | claimed claimer lane won =>
            rw [MergedPending.claimSolution_map] at resident
            exact absurd resident earlier
        | inserted inserter lane fcBlock paidPool =>
            obtain ⟨block, found⟩ := Option.isSome_iff_exists.mp (AList.lookup_isSome.mpr resident)
            rcases MergedPending.get_insertWithPayee found with ⟨rfl, -⟩ | old
            · exact ⟨middle, inserter, fcBlock, paidPool, [], rfl⟩
            · exact absurd (AList.lookup_isSome.mp (Option.isSome_of_eq_some old)) earlier

/-- A resident lane was inserted with the flag the store has for it. -/
theorem exists_insert_with_flag {log : Record deployment} (resident : Resident log hFc) :
    ∃ inserter fcBlock, .did inserter
      (.pending (.insertWithPayee hFc fcBlock ((pendingOf log).paidPool hFc))) () ∈ log := by
  obtain ⟨call, member, inserted⟩ :=
    MergedPending.exists_inserted_of_resident pendingCapacity _ resident
  have flag : (pendingOf log).paidPool hFc =
      MergedPending.latestFlag (System.callsOf pendingCall log) hFc :=
    (MergedPending.run_paidPool pendingCapacity _ hFc).trans (if_pos resident)
  obtain ⟨inserter, op, answer, inLog, chosen⟩ := System.mem_callsOf.mp member
  unfold pendingCall at chosen
  split at chosen
  · cases chosen
    cases inserted
    rw [flag]
    exact ⟨inserter, _, inLog⟩
  · cases chosen
    exact nomatch inserted
  · exact nomatch chosen

/-- A lane leaves the store only when another one is inserted. -/
theorem LeavesWithin.exists_insert (leaves : LeavesWithin front middle hFc) :
    ∃ inserter lane fcBlock paidPool,
      .did inserter (.pending (.insertWithPayee lane fcBlock paidPool)) () ∈ middle := by
  obtain ⟨before, entry, after, rfl, resident, gone⟩ := leaves
  have moves := pendingOf_snoc (front ++ before) entry
  unfold Resident at resident gone
  generalize pendingOf (front ++ before ++ [entry]) = later at moves gone
  cases moves with
  | silent => exact absurd resident gone
  | claimed claimer lane won =>
      rw [MergedPending.claimSolution_map] at gone
      exact absurd resident gone
  | inserted inserter lane fcBlock paidPool =>
      exact ⟨inserter, lane, fcBlock, paidPool, List.mem_append_right _ List.mem_cons_self⟩

theorem LeavesWithin.extend (leaves : LeavesWithin front middle hFc) (back : Record deployment) :
    LeavesWithin front (middle ++ back) hFc := by
  obtain ⟨before, entry, after, rfl, resident, gone⟩ := leaves
  exact ⟨before, entry, after ++ back, by rw [List.append_assoc, List.cons_append], resident, gone⟩

end StratumBridge
