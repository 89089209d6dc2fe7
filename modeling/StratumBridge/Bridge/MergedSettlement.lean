import StratumBridge.Bridge.Lanes
import StratumBridge.Bridge.Residency
import StratumBridge.Bridge.SettlementProtocol

/-! # Merged-mining settlement

However submissions interleave, an evaluation that passes the Kaspa check of its parent
goes to the Kaspa node before its task touches the lane, only a solution of the lane's
own target wins its claim, and a lane reaches the ZKas node at most once per residency.
-/

namespace StratumBridge

open Interaction

section Model

variable [Platform] {deployment : Deployment}

/-- What ends an evaluation: the claim of its task, or the end of the task. -/
inductive Closes (thread : Nat) : (bridge deployment).Entry → Prop where
  | claim (hFc : Hash) (won : Bool) :
      Closes thread (.did thread (.pending (.claimSolution hFc)) won)
  | finish (result : BridgeResult) : Closes thread (.finished thread result)

/-- An evaluation that passes the Kaspa check is sent to the Kaspa node before its task
claims or ends. -/
def PaysBeforeClaim (log : Record deployment) : Prop :=
  ∀ front thread block nonce answer middle entry back,
    log = front ++ .did thread (.checkPow block nonce) answer :: (middle ++ entry :: back) →
    deployment.settings.kaspaClient = true →
    calculateTarget block.header.bits = Platform.compactTarget block.header.bits →
    (checkPow block.header nonce).1 = true → Closes thread entry →
    ∃ reply, .did thread (.kaspaSubmit (block.withNonce nonce)) reply ∈ middle

/-- The latest proof of work the task evaluated. -/
def LatestEvaluation (log : Record deployment) (thread : Nat) (block : Block) (nonce : Nat) :
    Prop :=
  ∃ front answer back, log = front ++ .did thread (.checkPow block nonce) answer :: back ∧
    ∀ other otherNonce otherAnswer,
      .did thread (.checkPow other otherNonce) otherAnswer ∉ back

/-- A claim is won only by a solution that meets the target of the lane's ZKas block. -/
def ClaimsMeetTarget (log : Record deployment) : Prop :=
  ∀ front thread hFc back,
    log = front ++ .did thread (.pending (.claimSolution hFc)) true :: back →
    ∃ block nonce fcBlock, LatestEvaluation front thread block nonce ∧
      committedHFc block = some hFc ∧ Issued log fcBlock ∧ fcBlock.header.hash = hFc ∧
      Platform.powValue block.header nonce ≤ calculateTarget fcBlock.header.bits

/-- Two submissions of one lane to the ZKas node belong to claims of different tasks,
and the lane left the pending store between the claims. -/
def SubmitsOncePerResidency (log : Record deployment) : Prop :=
  ∀ front thread block reply middle other otherBlock otherReply back,
    log = front ++ .did thread (.zkasSubmit block) reply ::
      (middle ++ .did other (.zkasSubmit otherBlock) otherReply :: back) →
    block.header.hash = otherBlock.header.hash →
    ∃ early first between second late,
      log = early ++ .did first (.pending (.claimSolution block.header.hash)) true ::
        (between ++ .did second (.pending (.claimSolution block.header.hash)) true :: late) ∧
      (first = thread ∧ second = other ∨ first = other ∧ second = thread) ∧
      LeavesWithin (early ++ [.did first (.pending (.claimSolution block.header.hash)) true])
        between block.header.hash

/-! ## Evaluations and the Kaspa leg -/

/-- An evaluation that passes the check of its own parent solves, whatever became of its
lane. -/
theorem Evaluation.solves_of_passes {evaluation : Evaluation}
    (agrees : calculateTarget evaluation.block.header.bits =
      Platform.compactTarget evaluation.block.header.bits)
    (passes : (checkPow evaluation.block.header evaluation.nonce).1 = true) :
    evaluation.Solves := by
  cases known : evaluation.found with
  | some fcBlock => exact Or.inr ⟨by rw [known]; rfl, passes⟩
  | none =>
      left
      unfold Evaluation.MeetsNetwork Evaluation.networkTarget
      rw [known, Option.map_none, Option.getD_none, agrees]
      exact of_decide_eq_true passes

theorem Evaluation.eq_of_checked_mem {settings : Settings} {evaluation : Evaluation} {block : Block}
    {nonce : Nat} (member : SettlementCall.checked block nonce ∈ evaluation.calls settings) :
    block = evaluation.block ∧ nonce = evaluation.nonce := by
  rcases List.mem_cons.mp member with same | looked
  · exact SettlementCall.checked.inj same
  · obtain ⟨hFc, -, absurdity⟩ := Option.map_eq_some_iff.mp (Option.mem_toList.mp looked)
    exact nomatch absurdity

theorem Evaluation.KaspaLeg.noChecks {evaluation : Evaluation} {leg : List SettlementCall}
    (paid : evaluation.KaspaLeg deployment.settings leg) : NoChecks leg := by
  intro block nonce member
  cases paid with
  | paid _ _ _ reply => exact nomatch List.mem_singleton.mp member
  | skipped idle => exact nomatch member

section Passing

variable {block : Block} {nonce : Nat}
  (agrees : calculateTarget block.header.bits = Platform.compactTarget block.header.bits)
  (passes : (checkPow block.header nonce).1 = true)
include agrees passes

/-- A passing evaluation is not among those that missed. -/
theorem not_mem_of_missed {rounds : List Evaluation} (missed : ∀ round ∈ rounds, ¬ round.Solves) :
    SettlementCall.checked block nonce ∉
      rounds.flatMap (Evaluation.calls deployment.settings) := by
  intro member
  obtain ⟨round, inRounds, checked⟩ := List.mem_flatMap.mp member
  obtain ⟨rfl, rfl⟩ := Evaluation.eq_of_checked_mem checked
  exact missed round inRounds (Evaluation.solves_of_passes agrees passes)

/-- A passing evaluation on a trail is the one the trail ends with. -/
theorem Trail.eq_of_passes {log : Record deployment} {trail : List SettlementCall}
    {evaluation : Evaluation} (followed : Trail log trail evaluation)
    (checked : SettlementCall.checked block nonce ∈ trail) :
    block = evaluation.block ∧ nonce = evaluation.nonce := by
  obtain ⟨rounds, missed, rfl⟩ := followed.missed
  rcases List.mem_append.mp checked with early | late
  · exact absurd early (not_mem_of_missed agrees passes missed)
  · exact Evaluation.eq_of_checked_mem late

variable (merged : deployment.settings.mergedMining = true)
  (client : deployment.settings.kaspaClient = true)
  (ignoresNonce : ∀ (header : Header) (nonce other : Nat),
    Platform.powValue { header with nonce := other } nonce = Platform.powValue header nonce)
include merged client ignoresNonce

/-- After a passing evaluation its trail goes on to the Kaspa node. -/
theorem paid_of_trail {log : Record deployment} {trail leg before after : List SettlementCall}
    {evaluation : Evaluation} (followed : Trail log trail evaluation)
    (paid : evaluation.KaspaLeg deployment.settings leg)
    (calls : before ++ .checked block nonce :: after = trail ++ leg) :
    ∃ reply, SettlementCall.paid (block.withNonce nonce) reply ∈ after := by
  have member : SettlementCall.checked block nonce ∈ trail ++ leg :=
    calls ▸ List.mem_append_right _ List.mem_cons_self
  have onTrail : SettlementCall.checked block nonce ∈ trail :=
    (List.mem_append.mp member).resolve_right (paid.noChecks block nonce)
  obtain ⟨rfl, rfl⟩ := followed.eq_of_passes agrees passes onTrail
  have clears : evaluation.ClearsKaspa := by
    change decide (Platform.powValue { evaluation.block.header with nonce := evaluation.nonce }
      evaluation.nonce ≤ Platform.compactTarget evaluation.block.header.bits) = true
    rw [ignoresNonce]
    exact passes
  cases paid with
  | skipped idle => exact absurd ⟨merged, client, clears⟩ idle
  | paid _ _ _ reply =>
      refine ⟨reply, ?_⟩
      -- The leg is the last of the calls, and it is not the evaluation.
      rcases List.eq_nil_or_concat after with rfl | ⟨body, last, rfl⟩
      · obtain ⟨-, absurdity⟩ := List.append_inj' calls rfl
        exact nomatch (List.cons.inj absurdity).1
      · rw [List.concat_eq_append, ← List.cons_append, ← List.append_assoc] at calls
        obtain ⟨-, same⟩ := List.append_inj' calls rfl
        rw [List.concat_eq_append, (List.cons.inj same).1]
        exact List.mem_append_right _ List.mem_cons_self

/-- A task with a passing evaluation does not end before it went to the Kaspa node. -/
theorem paid_of_settled {log : Record deployment} {before after : List SettlementCall}
    (settled : Settled log (before ++ .checked block nonce :: after)) :
    ∃ reply, SettlementCall.paid (block.withNonce nonce) reply ∈ after := by
  have member : SettlementCall.checked block nonce ∈ before ++ .checked block nonce :: after :=
    List.mem_append_right _ List.mem_cons_self
  rcases settled with ⟨rounds, missed, all⟩ | ⟨trail, leg, evaluation, rest, all, followed, paid,
      silent⟩
  · exact absurd (all ▸ member) (not_mem_of_missed agrees passes missed)
  · rcases List.append_eq_append_iff.mp all with ⟨extra, whole, tail⟩ | ⟨extra, whole, tail⟩
    · cases extra with
      | nil =>
          rw [List.nil_append] at tail
          exact absurd (tail ▸ List.mem_cons_self) (silent block nonce)
      | cons first extra =>
          obtain ⟨rfl, rfl⟩ := List.cons.inj tail
          obtain ⟨reply, found⟩ := paid_of_trail agrees passes merged client ignoresNonce followed
            paid whole.symm
          exact ⟨reply, List.mem_append_left _ found⟩
    · have late : SettlementCall.checked block nonce ∈ rest := by
        rw [tail]
        exact List.mem_append_right _ List.mem_cons_self
      exact absurd late (silent block nonce)

end Passing

theorem paysBeforeClaim_execute (merged : deployment.settings.mergedMining = true)
    (ignoresNonce : ∀ (header : Header) (nonce other : Nat),
      Platform.powValue { header with nonce := other } nonce = Platform.powValue header nonce)
    (events : List (bridge deployment).Event) : PaysBeforeClaim (System.execute events).log := by
  intro front thread block nonce answer middle entry back split client agrees passes closes
  have later : (System.execute events).log =
      (front ++ .did thread (.checkPow block nonce) answer :: middle) ++ entry :: back := by
    rw [split, List.append_assoc, List.cons_append]
  have calls : System.ownCalls settlementCall thread
      (front ++ .did thread (.checkPow block nonce) answer :: middle) =
        System.ownCalls settlementCall thread front ++
          .checked block nonce :: System.ownCalls settlementCall thread middle := by
    rw [System.ownCalls_append, @System.ownCalls_cons (bridge deployment)]
    rfl
  have found : ∃ reply, SettlementCall.paid (block.withNonce nonce) reply ∈
      System.ownCalls settlementCall thread middle := by
    cases closes with
    | claim hFc won =>
        obtain ⟨request, -, trail, leg, evaluation, whole, followed, paid, -⟩ :=
          (settlement_execute events).calls _ thread (.pending (.claimSolution hFc)) won back later
        exact paid_of_trail agrees passes merged client ignoresNonce followed paid
          (calls.symm.trans whole)
    | finish result =>
        obtain ⟨request, -, settled⟩ :=
          (settlement_execute events).finishes _ thread result back later
        have ended : Settled (System.execute events).log
            (System.ownCalls settlementCall thread front ++
              .checked block nonce :: System.ownCalls settlementCall thread middle) :=
          calls ▸ settled
        exact paid_of_settled agrees passes merged client ignoresNonce ended
  obtain ⟨reply, paid⟩ := found
  obtain ⟨op, made, member, settles⟩ := exists_did_of_settled paid
  cases settles
  exact ⟨reply, member⟩

/-! ## Claims -/

section Claims

variable {events : List (bridge deployment).Event} {front middle back : Record deployment}
  {thread other : Nat} {hFc : Hash}

/-- A pending block was issued by the ZKas node under the hash of its lane. -/
theorem issued_of_looked {fcBlock : Block}
    (split : (System.execute events).log =
      front ++ .did thread (.pending (.get hFc)) (some fcBlock) :: back) :
    fcBlock.header.hash = hFc ∧ Issued (System.execute events).log fcBlock := by
  obtain ⟨writer, wrote, reply, earlier, paidPool, rfl⟩ :=
    pendingStorage.written_before events (hFc, fcBlock) split ⟨rfl, rfl⟩
  obtain ⟨lane, issued⟩ := (provenance_execute events).required writer
    (.pending (.insertWithPayee hFc fcBlock paidPool)) reply
    (split ▸ List.mem_append_left _ earlier)
  exact ⟨lane.symm, issued⟩

/-- A lane is looked up only after it was kept. -/
theorem kept_of_looked (faithful : Faithful (System.execute events).log) {found : Option Block}
    (split : (System.execute events).log =
      front ++ .did thread (.pending (.get hFc)) found :: back) : Kept front hFc := by
  have regrouped : (System.execute events).log =
      (front ++ [.did thread (.pending (.get hFc)) found]) ++ back := by
    rw [split, List.append_assoc, List.singleton_append]
  obtain ⟨before, ⟨rest, rfl⟩, reached⟩ := System.exists_execute_log_eq regrouped
  obtain ⟨request, -, block, nonce, -, origin, commits⟩ :=
    (settlement_execute before).calls front thread (.pending (.get hFc)) found [] reached
  obtain ⟨fcBlock, paidPool, keeper, member⟩ :=
    origin.kept (faithful.of_prefix (System.log_grows before rest)) commits
  rw [reached] at member
  rcases List.mem_append.mp member with earlier | last
  · exact ⟨fcBlock, paidPool, keeper, earlier⟩
  · exact nomatch List.mem_singleton.mp last

/-- A lane that was missing when it was looked up is not claimed any more. -/
theorem not_claimed_after_missing (faithful : Faithful (System.execute events).log)
    (fresh : FreshTemplates (System.execute events).log)
    (split : (System.execute events).log =
      front ++ .did thread (.pending (.get hFc)) none ::
        (middle ++ .did other (.pending (.claimSolution hFc)) true :: back)) : False := by
  have later : (System.execute events).log =
      (front ++ .did thread (.pending (.get hFc)) none :: middle) ++
        .did other (.pending (.claimSolution hFc)) true :: back := by
    rw [split, List.append_assoc, List.cons_append]
  have whole : (System.execute events).log =
      front ++ ((.did thread (.pending (.get hFc)) none :: middle) ++
        .did other (.pending (.claimSolution hFc)) true :: back) := by
    rw [split, List.cons_append]
  exact not_resident_of_missing split
    (resident_of_later fresh (kept_of_looked faithful split) whole (resident_of_claimed later))

end Claims

theorem claimsMeetTarget_execute (merged : deployment.settings.mergedMining = true)
    (events : List (bridge deployment).Event) (faithful : Faithful (System.execute events).log)
    (fresh : FreshTemplates (System.execute events).log) :
    ClaimsMeetTarget (System.execute events).log := by
  intro front thread hFc back split
  obtain ⟨request, -, trail, leg, evaluation, whole, followed, paid, meets, commits⟩ :=
    (settlement_execute events).calls front thread (.pending (.claimSolution hFc)) true back split
  obtain ⟨rounds, -, rfl⟩ := followed.missed
  have calls : System.ownCalls settlementCall thread front =
      rounds.flatMap (Evaluation.calls deployment.settings) ++
        .checked evaluation.block evaluation.nonce :: (.looked hFc evaluation.found :: leg) := by
    rw [whole, List.append_assoc]
    unfold Evaluation.calls Evaluation.lane
    rw [if_pos merged, commits]
    rfl
  obtain ⟨before, op, answer, after, rfl, -, chosen, rest⟩ := System.exists_split_of_ownCalls calls
  have settles := settlementCall_cases chosen
  have latest : LatestEvaluation (before ++ .did thread op answer :: after) thread evaluation.block
      evaluation.nonce := by
    cases settles
    refine ⟨before, _, after, rfl, ?_⟩
    intro block nonce reply member
    have checked : SettlementCall.checked block nonce ∈ .looked hFc evaluation.found :: leg :=
      rest ▸ System.mem_ownCalls.mpr ⟨_, _, member, rfl⟩
    rcases List.mem_cons.mp checked with absurdity | late
    · exact nomatch absurdity
    · exact paid.noChecks block nonce late
  have looked : SettlementCall.looked hFc evaluation.found ∈
      System.ownCalls settlementCall thread after := rest ▸ List.mem_cons_self
  obtain ⟨lookup, found, member, looks⟩ := exists_did_of_settled looked
  obtain ⟨early, late, rfl⟩ := List.append_of_mem member
  have lookedAt : (System.execute events).log =
      (before ++ .did thread op answer :: early) ++ .did thread lookup found ::
        (late ++ .did thread (.pending (.claimSolution hFc)) true :: back) := by
    rw [split]
    simp only [List.append_assoc, List.cons_append]
  unfold Evaluation.MeetsNetwork Evaluation.networkTarget at meets
  cases looks
  cases known : evaluation.found with
  | none =>
      rw [known] at lookedAt
      exact (not_claimed_after_missing faithful fresh lookedAt).elim
  | some fcBlock =>
      rw [known] at lookedAt meets latest
      obtain ⟨lane, issued⟩ := issued_of_looked lookedAt
      exact ⟨_, _, fcBlock, latest, commits, issued, lane, meets⟩

/-! ## Submissions to the ZKas node -/

/-- The own calls of a task that sends a block to the ZKas node: it never sent one before,
and it just won the claim of the block's lane. -/
theorem calls_of_sent (merged : deployment.settings.mergedMining = true)
    {events : List (bridge deployment).Event} {front back : Record deployment} {thread : Nat}
    {block : Block} {reply : SubmitReply}
    (split : (System.execute events).log =
      front ++ .did thread (.zkasSubmit block) reply :: back) :
    ∃ pre fcBlock, System.ownCalls settlementCall thread front =
        pre ++ [.claimed block.header.hash true, .looked block.header.hash (some fcBlock)] ∧
      ∀ other otherReply, SettlementCall.sent other otherReply ∉ pre := by
  obtain ⟨request, -, permitted⟩ :=
    (settlement_execute events).calls front thread (.zkasSubmit block) reply back split
  obtain ⟨trail, leg, evaluation, hFc, fcBlock, calls, followed, paid, -, -, rfl⟩ := permitted merged
  have looked : SettlementCall.looked hFc (some fcBlock) ∈
      System.ownCalls settlementCall thread front := by
    rw [calls]
    exact List.mem_append_right _ (List.mem_cons_of_mem _ List.mem_cons_self)
  obtain ⟨lookup, found, member, looks⟩ := exists_did_of_settled looked
  have lane : fcBlock.header.hash = hFc := by
    cases looks
    obtain ⟨early, late, rfl⟩ := List.append_of_mem member
    rw [List.append_assoc, List.cons_append] at split
    exact (issued_of_looked split).1
  refine ⟨trail ++ leg, fcBlock, ?_, ?_⟩
  · rw [assembleAuxBlock_header, lane]
    exact calls
  · intro other otherReply sent
    rcases List.mem_append.mp sent with onTrail | onLeg
    · exact followed.not_sent onTrail
    · cases paid with
      | paid _ _ _ reply => exact nomatch List.mem_singleton.mp onLeg
      | skipped idle => exact nomatch onLeg

/-- The claim recorded among a task's own calls. -/
theorem did_claim_of_claimed {log : Record deployment} {thread : Nat} {hFc : Hash} {won : Bool}
    (claimed : SettlementCall.claimed hFc won ∈ System.ownCalls settlementCall thread log) :
    .did thread (.pending (.claimSolution hFc)) won ∈ log := by
  obtain ⟨op, answer, claims, settles⟩ := exists_did_of_settled claimed
  cases settles
  exact claims

theorem submitsOncePerResidency_execute (merged : deployment.settings.mergedMining = true)
    (events : List (bridge deployment).Event) :
    SubmitsOncePerResidency (System.execute events).log := by
  intro front thread block reply middle other otherBlock otherReply back split same
  have later : (System.execute events).log =
      (front ++ .did thread (.zkasSubmit block) reply :: middle) ++
        .did other (.zkasSubmit otherBlock) otherReply :: back := by
    rw [split, List.append_assoc, List.cons_append]
  obtain ⟨pre, fcBlock, calls, -⟩ := calls_of_sent merged split
  obtain ⟨otherPre, otherFc, otherCalls, first⟩ := calls_of_sent merged later
  rw [← same] at otherCalls
  have claim : .did thread (.pending (.claimSolution block.header.hash)) true ∈ front :=
    did_claim_of_claimed (calls ▸ List.mem_append_right _ List.mem_cons_self)
  have otherClaim : .did other (.pending (.claimSolution block.header.hash)) true ∈
      front ++ .did thread (.zkasSubmit block) reply :: middle :=
    did_claim_of_claimed (otherCalls ▸ List.mem_append_right _ List.mem_cons_self)
  have apart : thread ≠ other := by
    rintro rfl
    have sent : SettlementCall.sent block reply ∈ System.ownCalls settlementCall thread
        (front ++ .did thread (.zkasSubmit block) reply :: middle) :=
      System.mem_ownCalls.mpr ⟨_, _, List.mem_append_right _ List.mem_cons_self, rfl⟩
    rw [otherCalls, List.mem_append] at sent
    rcases sent with before | last
    · exact first block reply before
    · simp only [List.mem_cons, reduceCtorEq, List.not_mem_nil, or_self] at last
  have inLog : .did thread (.pending (.claimSolution block.header.hash)) true ∈
      (System.execute events).log := split ▸ List.mem_append_left _ claim
  have otherInLog : .did other (.pending (.claimSolution block.header.hash)) true ∈
      (System.execute events).log := later ▸ List.mem_append_left _ otherClaim
  obtain ⟨early, rest, whole⟩ := List.append_of_mem inLog
  rw [whole, List.mem_append, List.mem_cons] at otherInLog
  rcases otherInLog with before | here | after
  · obtain ⟨start, between, rfl⟩ := List.append_of_mem before
    rw [List.append_assoc, List.cons_append] at whole
    exact ⟨start, other, between, thread, rest, whole, Or.inr ⟨rfl, rfl⟩,
      leaves_between_claims whole⟩
  · cases here
    exact absurd rfl apart
  · obtain ⟨between, late, rfl⟩ := List.append_of_mem after
    exact ⟨early, thread, between, other, late, whole, Or.inl ⟨rfl, rfl⟩,
      leaves_between_claims whole⟩

/-- **Merged-mining settlement.** In every run, passing evaluations go to the Kaspa node
before their task claims, claims are won by solutions of the lane's own target only, and
a lane reaches the ZKas node at most once per residency. -/
theorem merged_settlement (merged : deployment.settings.mergedMining = true)
    (ignoresNonce : ∀ (header : Header) (nonce other : Nat),
      Platform.powValue { header with nonce := other } nonce = Platform.powValue header nonce)
    (events : List (bridge deployment).Event) (faithful : Faithful (System.execute events).log)
    (fresh : FreshTemplates (System.execute events).log) :
    PaysBeforeClaim (System.execute events).log ∧ ClaimsMeetTarget (System.execute events).log ∧
      SubmitsOncePerResidency (System.execute events).log :=
  ⟨paysBeforeClaim_execute merged ignoresNonce events,
    claimsMeetTarget_execute merged events faithful fresh,
    submitsOncePerResidency_execute merged events⟩

end Model

section Sample

attribute [local instance] Sample.platform

theorem merged_settlement_sample :
    (PaysBeforeClaim (System.execute (Sample.solvedEvents none (.block Sample.easyParent))).log ∧
      ClaimsMeetTarget (System.execute (Sample.solvedEvents none (.block Sample.easyParent))).log ∧
      SubmitsOncePerResidency
        (System.execute (Sample.solvedEvents none (.block Sample.easyParent))).log) ∧
    System.callsOf settlementCall
        (System.execute (Sample.solvedEvents none (.block Sample.easyParent))).log =
      [.checked Sample.easyParent 5, .looked 7 (some Sample.easyBlock),
        .paid (Sample.easyParent.withNonce 5) .success, .claimed 7 true,
        .looked 7 (some Sample.easyBlock),
        .sent (assembleAuxBlock (Sample.easyParent.withNonce 5) Sample.easyBlock) .success] := by
  have faithful : Faithful (System.execute (Sample.solvedEvents none (.block Sample.easyParent))).log :=
    Sample.faithful (by decide +kernel)
  have fresh : FreshTemplates
      (System.execute (Sample.solvedEvents none (.block Sample.easyParent))).log := by
    unfold FreshTemplates
    decide +kernel
  refine ⟨merged_settlement rfl (fun _ _ _ => rfl) _ faithful fresh, ?_⟩
  decide +kernel

end Sample

end StratumBridge
