import StratumBridge.Bridge.MergedSettlement

/-! # A failed submission keeps its claim

When the submission of a ZKas block fails in transport, its mark in the block guard is
taken back so that the block can be submitted again. The claim on the lane is not, and
every later solution of the lane is lost to it.
-/

namespace StratumBridge

open Interaction

section Model

variable [Platform] {deployment : Deployment}

/-- The task sent a block of the lane to the ZKas node. -/
def Submitted (log : Record deployment) (hFc : Hash) (thread : Nat) : Prop :=
  ∃ block reply, .did thread (.zkasSubmit block) reply ∈ log ∧ block.header.hash = hFc

/-- The claimed solution of a lane failed in transport, and afterwards, with the lane still
in the pending store, a task evaluated a solution of the lane's target and ended. What
followed the evaluation is given apart. -/
def SolvedAfterFailure (log later : Record deployment) (hFc : Hash) (thread : Nat) : Prop :=
  ∃ front claimer middle block error waiting solution nonce answer fcBlock result,
    log = front ++ .did claimer (.pending (.claimSolution hFc)) true ::
      (middle ++ .did claimer (.zkasSubmit block) (.failed error) ::
        (waiting ++ .did thread (.checkPow solution nonce) answer :: later)) ∧
    block.header.hash = hFc ∧
    ¬ LeavesWithin (front ++ [.did claimer (.pending (.claimSolution hFc)) true])
      (middle ++ .did claimer (.zkasSubmit block) (.failed error) ::
        (waiting ++ .did thread (.checkPow solution nonce) answer :: later)) hFc ∧
    committedHFc solution = some hFc ∧ Issued log fcBlock ∧ fcBlock.header.hash = hFc ∧
    Platform.powValue solution.header nonce ≤ calculateTarget fcBlock.header.bits ∧
    .finished thread result ∈ log

/-- A task that evaluates within a stretch and then sends a block claims within it. -/
theorem claim_within_of_sent (merged : deployment.settings.mergedMining = true)
    {events : List (bridge deployment).Event} {front middle back : Record deployment}
    {thread : Nat} {block solution : Block} {nonce : Nat} {reply : SubmitReply}
    {answer : Bool × Nat} (evaluated : .did thread (.checkPow solution nonce) answer ∈ middle)
    (split : (System.execute events).log =
      front ++ middle ++ .did thread (.zkasSubmit block) reply :: back) :
    .did thread (.pending (.claimSolution block.header.hash)) true ∈ middle := by
  obtain ⟨pre, fcBlock, calls, -⟩ := calls_of_sent merged split
  rw [System.ownCalls_append] at calls
  have checked : SettlementCall.checked solution nonce ∈
      System.ownCalls settlementCall thread middle :=
    System.mem_ownCalls.mpr ⟨_, _, evaluated, rfl⟩
  apply did_claim_of_claimed
  rcases List.append_eq_append_iff.mp calls with ⟨extra, -, within⟩ | ⟨extra, -, within⟩
  · rw [within]
    exact List.mem_append_right _ List.mem_cons_self
  · have last : SettlementCall.checked solution nonce ∈ extra ++
        System.ownCalls settlementCall thread middle := List.mem_append_right _ checked
    rw [← within] at last
    simp only [List.mem_cons, reduceCtorEq, List.not_mem_nil, or_self] at last

/-- **A failed lane is not retried.** No solution found after the failure is submitted. -/
theorem failed_lane_not_retried (merged : deployment.settings.mergedMining = true)
    (events : List (bridge deployment).Event) (later : Record deployment) (hFc : Hash)
    (thread : Nat) (solved : SolvedAfterFailure (System.execute events).log later hFc thread) :
    ¬ Submitted later hFc thread := by
  obtain ⟨front, claimer, middle, block, error, waiting, solution, nonce, answer, fcBlock, result,
    split, lane, stays, -⟩ := solved
  rintro ⟨other, reply, sent, rfl⟩
  obtain ⟨early, late, rfl⟩ := List.append_of_mem sent
  have sentAt : (System.execute events).log =
      (front ++ .did claimer (.pending (.claimSolution other.header.hash)) true ::
        (middle ++ .did claimer (.zkasSubmit block) (.failed error) :: waiting)) ++
        (.did thread (.checkPow solution nonce) answer :: early) ++
        .did thread (.zkasSubmit other) reply :: late := by
    rw [split]
    simp only [List.append_assoc, List.cons_append]
  have claimed := claim_within_of_sent merged List.mem_cons_self sentAt
  rcases List.mem_cons.mp claimed with absurdity | within
  · exact nomatch absurdity
  obtain ⟨before, after, rfl⟩ := List.append_of_mem within
  -- The task's claim is the second one of the lane, so the lane left in between.
  have claims : (System.execute events).log =
      front ++ .did claimer (.pending (.claimSolution other.header.hash)) true ::
        ((middle ++ .did claimer (.zkasSubmit block) (.failed error) :: (waiting ++
          .did thread (.checkPow solution nonce) answer :: before)) ++
          .did thread (.pending (.claimSolution other.header.hash)) true ::
            (after ++ .did thread (.zkasSubmit other) reply :: late)) := by
    rw [split]
    simp only [List.append_assoc, List.cons_append]
  have leaves := (leaves_between_claims claims).extend
    (.did thread (.pending (.claimSolution other.header.hash)) true ::
      (after ++ .did thread (.zkasSubmit other) reply :: late))
  simp only [List.append_assoc, List.cons_append] at leaves stays
  exact stays leaves

end Model

section Sample

attribute [local instance] Sample.platform

/-- The node of the sample run does not take the first solution, and the miner finds
another one. -/
private def retriedEvents : List (bridge (Sample.deployment none)).Event :=
  [.start (.immediateJob 1)] ++ Sample.steps none 0 18 { template := .block Sample.easyBlock }
    ++ Sample.steps none 0 40 { template := .block Sample.easyParent }
    ++ [.start (.submit 1 ⟨none, [.string [], .string ['1'], .string ['5']]⟩)]
    ++ Sample.steps none 1 18 {} ++ Sample.steps none 1 72 { submitted := .failed [] }
    ++ [.start (.submit 1 ⟨none, [.string [], .string ['1'], .string ['6']]⟩)]
    ++ Sample.steps none 2 90 {}

private def retriedLog : Record (Sample.deployment none) := (System.execute retriedEvents).log

private theorem retried_calls :
    System.callsBy settlementCall retriedLog =
      [(1, .checked Sample.easyParent 5), (1, .looked 7 (some Sample.easyBlock)),
        (1, .paid (Sample.easyParent.withNonce 5) .success), (1, .claimed 7 true),
        (1, .looked 7 (some Sample.easyBlock)),
        (1, .sent (assembleAuxBlock (Sample.easyParent.withNonce 5) Sample.easyBlock) (.failed [])),
        (2, .checked Sample.easyParent 6), (2, .looked 7 (some Sample.easyBlock)),
        (2, .paid (Sample.easyParent.withNonce 6) .success), (2, .claimed 7 false)] := by
  decide +kernel

/-- The lane of the sample run is inserted before it is claimed, and nothing is after. -/
private theorem retried_stays {front stretch : Record (Sample.deployment none)} {thread : Nat}
    (split : retriedLog = front ++ .did thread (.pending (.claimSolution 7)) true :: stretch) :
    ¬ LeavesWithin (front ++ [.did thread (.pending (.claimSolution 7)) true]) stretch 7 := by
  have calls : System.callsOf pendingCall retriedLog =
      [.insertWithPayee 7 Sample.easyBlock true, .claimSolution 7, .claimSolution 7] := by
    decide +kernel
  intro leaves
  obtain ⟨inserter, lane, fcBlock, paidPool, member⟩ := leaves.exists_insert
  have inserted : MergedPending.Call.insertWithPayee lane fcBlock paidPool ∈
      System.callsOf pendingCall stretch := System.mem_callsOf.mpr ⟨_, _, _, member, rfl⟩
  have parts : System.callsOf pendingCall front ++
      .claimSolution 7 :: System.callsOf pendingCall stretch =
        [.insertWithPayee 7 Sample.easyBlock true, .claimSolution 7, .claimSolution 7] := by
    rw [← calls, split, System.callsOf_append]
    rfl
  cases known : System.callsOf pendingCall front with
  | nil =>
      rw [known] at parts
      exact nomatch (List.cons.inj parts).1
  | cons first rest =>
      rw [known, List.cons_append] at parts
      have later : MergedPending.Call.insertWithPayee lane fcBlock paidPool ∈
          rest ++ .claimSolution 7 :: System.callsOf pendingCall stretch :=
        List.mem_append_right _ (List.mem_cons_of_mem _ inserted)
      rw [(List.cons.inj parts).2] at later
      simp only [List.mem_cons, reduceCtorEq, List.not_mem_nil, or_self] at later

private theorem retried_solved : ∃ later, SolvedAfterFailure retriedLog later 7 2 := by
  obtain ⟨front, op, won, stretch, split, -, claims, rest⟩ :=
    @System.exists_split_of_callsBy _ _ _ _ [_, _, _] _ _ _ retried_calls
  obtain ⟨middle, sending, reply, after, rfl, -, sends, rest⟩ :=
    @System.exists_split_of_callsBy _ _ _ _ [_] _ _ _ rest
  obtain ⟨waiting, check, answer, later, rfl, -, checks, -⟩ :=
    @System.exists_split_of_callsBy _ _ _ _ [] _ _ _ rest
  cases settlementCall_cases claims
  cases settlementCall_cases sends
  cases settlementCall_cases checks
  have template : LaneCall.issued Sample.easyBlock ∈ System.ownCalls laneCall 0 retriedLog := by
    decide +kernel
  obtain ⟨recipient, tag, issued⟩ := exists_did_of_issued template
  have ended : retriedLog.any (System.Entry.ends 2) = true := by decide +kernel
  obtain ⟨result, finished⟩ := System.exists_finished ended
  have commits : committedHFc Sample.easyParent = some 7 := by decide +kernel
  have meets : Platform.powValue Sample.easyParent.header 6 ≤
      calculateTarget Sample.easyBlock.header.bits := by decide +kernel
  exact ⟨later, front, 1, middle, _, [], waiting, Sample.easyParent, 6, _, Sample.easyBlock,
    result, split, rfl, retried_stays split, commits, ⟨recipient, tag, 0, issued⟩, rfl, meets,
    finished⟩

theorem failed_lane_not_retried_sample :
    ∃ later, SolvedAfterFailure (System.execute retriedEvents).log later 7 2 ∧
      ¬ Submitted later 7 2 := by
  obtain ⟨later, solved⟩ := retried_solved
  exact ⟨later, solved, failed_lane_not_retried rfl retriedEvents later 7 2 solved⟩

theorem failed_lane_retried_fails :
    ¬ ∀ (events : List (bridge (Sample.deployment none)).Event)
        (later : Record (Sample.deployment none)) (hFc : Hash) (thread : Nat),
      SolvedAfterFailure (System.execute events).log later hFc thread →
        Submitted later hFc thread := by
  intro claim
  obtain ⟨later, solved⟩ := retried_solved
  obtain ⟨block, reply, sent, -⟩ := claim retriedEvents later 7 2 solved
  have inLog : .did 2 (.zkasSubmit block) reply ∈ retriedLog := by
    obtain ⟨front, claimer, middle, first, error, waiting, solution, nonce, answer, fcBlock, result,
      split, -⟩ := solved
    rw [split]
    simp only [List.mem_append, List.mem_cons, sent, or_true]
  have own : SettlementCall.sent block reply ∈ System.ownCalls settlementCall 2 retriedLog :=
    System.mem_ownCalls.mpr ⟨_, _, inLog, rfl⟩
  have calls : System.ownCalls settlementCall 2 retriedLog =
      [.checked Sample.easyParent 6, .looked 7 (some Sample.easyBlock),
        .paid (Sample.easyParent.withNonce 6) .success, .claimed 7 false] := by
    decide +kernel
  rw [calls] at own
  simp only [List.mem_cons, reduceCtorEq, List.not_mem_nil, or_self] at own

end Sample

end StratumBridge
