import StratumBridge.Bridge.LaneProtocol
import StratumBridge.Bridge.Residency

/-! # One lane per template

Every connection and generation asks the ZKas node with its own coinbase tag, so the
node issues every template under a hash of its own. A lane is then built by one task and
kept once.
-/

namespace StratumBridge

open Interaction

variable [Platform] {deployment : Deployment}

/-- The hash of a block the ZKas node issued. -/
def issuedHash : (op : BridgeOp) → op.Answer → Option Hash
  | .zkasTemplate _ _, .block fcBlock => some fcBlock.header.hash
  | _, _ => none

/-- The ZKas node issues no two templates under one hash. -/
def FreshTemplates (log : Record deployment) : Prop :=
  (System.callsOf issuedHash log).Nodup

theorem FreshTemplates.of_prefix {front log : Record deployment} (fresh : FreshTemplates log)
    (shorter : front <+: log) : FreshTemplates front := by
  obtain ⟨rest, rfl⟩ := shorter
  unfold FreshTemplates at fresh ⊢
  rw [System.callsOf_append] at fresh
  exact (List.nodup_append.mp fresh).1

/-- The template behind an issued block. -/
theorem exists_did_of_issued {log : Record deployment} {thread : Nat} {fcBlock : Block}
    (member : LaneCall.issued fcBlock ∈ System.ownCalls laneCall thread log) :
    ∃ recipient tag, @System.Entry.did (bridge deployment) thread (.zkasTemplate recipient tag)
      (.block fcBlock) ∈ log := by
  obtain ⟨op, answer, inLog, builds⟩ := exists_did_of_built member
  cases builds
  exact ⟨_, _, inLog⟩

/-- A task the ZKas node issued a block to is the only one with a block of that hash. -/
theorem FreshTemplates.same_task {log : Record deployment} (fresh : FreshTemplates log)
    {thread other : Nat} {fcBlock otherBlock : Block}
    (issued : LaneCall.issued fcBlock ∈ System.ownCalls laneCall thread log)
    (otherIssued : LaneCall.issued otherBlock ∈ System.ownCalls laneCall other log)
    (sameHash : fcBlock.header.hash = otherBlock.header.hash) :
    thread = other ∧ fcBlock = otherBlock := by
  obtain ⟨recipient, tag, here⟩ := exists_did_of_issued issued
  obtain ⟨otherRecipient, otherTag, there⟩ := exists_did_of_issued otherIssued
  cases System.entry_eq_of_nodup fresh here there rfl (congrArg some sameHash.symm)
  exact ⟨rfl, rfl⟩

/-- What a task that keeps a lane did before. -/
theorem mayKeep_of_split {events : List (bridge deployment).Event} {front back : Record deployment}
    {thread : Nat} {hFc : Hash} {fcBlock : Block} {paidPool : Bool}
    (split : (System.execute events).log =
      front ++ .did thread (.pending (.insertWithPayee hFc fcBlock paidPool)) () :: back) :
    MayKeep deployment.settings (System.ownCalls laneCall thread front) hFc fcBlock paidPool := by
  obtain ⟨request, -, may⟩ := (lanes_execute events).calls front thread
    (.pending (.insertWithPayee hFc fcBlock paidPool)) () back split
  exact may

theorem MayKeep.issued {settings : Settings} {calls : List LaneCall} {hFc : Hash} {fcBlock : Block}
    {paidPool : Bool} (may : MayKeep settings calls hFc fcBlock paidPool) :
    LaneCall.issued fcBlock ∈ calls ∧ hFc = fcBlock.header.hash := by
  obtain ⟨pre, asks, payee, rfl, -, -, lane, -⟩ := may
  exact ⟨List.mem_append_left _ (List.mem_append_right _ List.mem_cons_self), lane⟩

/-- A task keeps a lane before any other. -/
theorem MayKeep.kept_none {settings : Settings} {calls : List LaneCall} {hFc other : Hash}
    {fcBlock : Block} {paidPool : Bool} (may : MayKeep settings calls hFc fcBlock paidPool) :
    LaneCall.kept other ∉ calls := by
  obtain ⟨pre, asks, payee, rfl, unbuilt, -, -, -, asksFor⟩ := may
  intro member
  simp only [List.mem_append, List.mem_singleton, reduceCtorEq, or_false] at member
  rcases member with early | late
  · rcases unbuilt _ early with ⟨job, absurdity⟩ | ⟨uid, payee, absurdity⟩
    · exact nomatch absurdity
    · exact nomatch absurdity
  · rcases asksFor with rfl | ⟨pay, -, rfl⟩
    · exact nomatch late
    · exact nomatch List.mem_singleton.mp late

/-- **A lane is kept once.** -/
theorem kept_once {events : List (bridge deployment).Event}
    (fresh : FreshTemplates (System.execute events).log) {front middle back : Record deployment}
    {thread other : Nat} {hFc : Hash} {fcBlock otherBlock : Block} {paidPool otherPool : Bool}
    (split : (System.execute events).log =
      front ++ .did thread (.pending (.insertWithPayee hFc fcBlock paidPool)) () ::
        (middle ++ .did other (.pending (.insertWithPayee hFc otherBlock otherPool)) () :: back)) :
    False := by
  have later : (System.execute events).log =
      (front ++ .did thread (.pending (.insertWithPayee hFc fcBlock paidPool)) () :: middle) ++
        .did other (.pending (.insertWithPayee hFc otherBlock otherPool)) () :: back := by
    rw [split, List.append_assoc, List.cons_append]
  have first := mayKeep_of_split split
  have second := mayKeep_of_split later
  obtain ⟨issued, lane⟩ := first.issued
  obtain ⟨otherIssued, otherLane⟩ := second.issued
  have whole : ∀ {item : LaneCall} {task : Nat} {part rest : Record deployment},
      (System.execute events).log = part ++ rest → item ∈ System.ownCalls laneCall task part →
        item ∈ System.ownCalls laneCall task (System.execute events).log := by
    intro item task part rest parts member
    rw [parts, System.ownCalls_append]
    exact List.mem_append_left _ member
  obtain ⟨rfl, -⟩ := fresh.same_task (whole split issued) (whole later otherIssued)
    (lane.symm.trans otherLane)
  apply @MayKeep.kept_none _ _ _ _ hFc _ _ second
  refine System.mem_ownCalls.mpr ⟨_, _, List.mem_append_right _ List.mem_cons_self, rfl⟩

section Since

variable {events : List (bridge deployment).Event} {front middle back : Record deployment}
  {hFc : Hash} (fresh : FreshTemplates (System.execute events).log) (kept : Kept front hFc)
include fresh kept

/-- A lane that is resident some time after it was kept has been resident since. -/
theorem resident_of_later (split : (System.execute events).log = front ++ (middle ++ back))
    (later : Resident (front ++ middle) hFc) : Resident front hFc := by
  by_contra absent
  obtain ⟨fcBlock, paidPool, keeper, member⟩ := kept
  obtain ⟨early, rest, rfl⟩ := List.append_of_mem member
  obtain ⟨before, inserter, again, againPool, after, rfl⟩ :=
    exists_insert_of_resident absent later
  have twice : (System.execute events).log =
      early ++ .did keeper (.pending (.insertWithPayee hFc fcBlock paidPool)) () ::
        ((rest ++ before) ++ .did inserter (.pending (.insertWithPayee hFc again againPool)) () ::
          (after ++ back)) := by
    rw [split]
    simp only [List.append_assoc, List.cons_append]
  exact kept_once fresh twice

/-- A lane that is unsolved some time after it was kept has been unsolved since. -/
theorem unsolved_of_later {thread : Nat}
    (split : (System.execute events).log =
      front ++ middle ++ .did thread (.pending (.isUnsolved hFc)) true :: back) :
    (pendingOf front).isUnsolved hFc = true := by
  have unsolved : (pendingOf (front ++ middle)).isUnsolved hFc = true :=
    (pending_answer split).symm
  simp only [MergedPending.isUnsolved, Bool.and_eq_true, decide_eq_true_eq, Bool.not_eq_true',
    decide_eq_false_iff_not] at unsolved ⊢
  have regrouped : (System.execute events).log =
      front ++ (middle ++ .did thread (.pending (.isUnsolved hFc)) true :: back) := by
    rw [split, List.append_assoc]
  refine ⟨resident_of_later fresh kept regrouped unsolved.1, fun solved => ?_⟩
  rcases MergedPending.run_solved_or_evicted pendingCapacity (System.callsOf pendingCall front)
      (System.callsOf pendingCall middle) solved with ⟨before, call, after, calls, evicts⟩ | still
  · obtain ⟨early, entry, late, rfl, -, gone⟩ := leavesWithin_of_evicts calls evicts
    obtain ⟨fcBlock, paidPool, keeper, member⟩ := kept
    have keptThen : Kept (front ++ early ++ [entry]) hFc :=
      ⟨fcBlock, paidPool, keeper, List.mem_append_left _ (List.mem_append_left _ member)⟩
    have whole : front ++ early ++ [entry] ++ late = front ++ (early ++ entry :: late) := by
      simp only [List.append_assoc, List.cons_append, List.nil_append]
    have again : Resident (front ++ early ++ [entry] ++ late) hFc := whole ▸ unsolved.1
    rw [← whole, List.append_assoc] at split
    exact gone (resident_of_later fresh keptThen split again)
  · have solvedThen : hFc ∈ (pendingOf (front ++ middle)).solved := by
      rw [pendingOf, System.callsOf_append]
      exact still
    exact unsolved.2 solvedThen

end Since

end StratumBridge
