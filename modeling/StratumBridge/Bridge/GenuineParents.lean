import StratumBridge.Bridge.SettlementProtocol

/-! # Parents sent to the Kaspa node

The parent of a job may be a template of the Kaspa node or a synthetic fallback, and the
job does not say which. A submission that solves its parent's own bits sends the parent
to the Kaspa node either way, so only genuine parents are sent exactly as long as no
fallback is solved.
-/

namespace StratumBridge

open Interaction

section Model

variable [Platform] {deployment : Deployment}

/-- The parent is a template of the Kaspa node with only the header nonce changed. -/
def GenuineParent (log : Record deployment) (parent : Block) : Prop :=
  ∃ pay hFc template nonce, Obtained log pay hFc template ∧ parent = template.withNonce nonce

/-- The step evaluates no proof of work that solves a synthetic fallback parent. -/
def FallbackUnsolved (config : (bridge deployment).Config) (event : (bridge deployment).Event) :
    Prop :=
  ∀ thread block nonce, System.Calls config event thread (BridgeOp.checkPow block nonce) →
    (checkPow (block.withNonce nonce).header nonce).1 = true →
      ∀ fcBlock, block ≠ (buildParentBlock fcBlock).1

/-- An evaluation a task recorded was called for by an event of the run. -/
theorem exists_calls_of_checked {events : List (bridge deployment).Event}
    {front : Record deployment} {thread : Nat} {block : Block} {nonce : Nat}
    (reached : front <+: (System.execute events).log)
    (checked : SettlementCall.checked block nonce ∈ System.ownCalls settlementCall thread front) :
    ∃ before event rest, events = before ++ event :: rest ∧
      System.Calls (System.execute before) event thread (BridgeOp.checkPow block nonce) := by
  obtain ⟨op, answer, member, settles⟩ := exists_did_of_settled checked
  obtain ⟨early, late, split⟩ := List.append_of_mem (reached.subset member)
  obtain ⟨before, event, rest, whole, -, calls, -⟩ := System.exists_calls_of_did split
  cases settles
  exact ⟨before, event, rest, whole, calls⟩

/-- **Only genuine parents reach the Kaspa node** in a run that solves no fallback. -/
theorem submitted_parents_genuine (events : List (bridge deployment).Event)
    (along : System.Along FallbackUnsolved events) {thread : Nat} {parent : Block}
    {reply : SubmitReply}
    (sent : .did thread (.kaspaSubmit parent) reply ∈ (System.execute events).log) :
    GenuineParent (System.execute events).log parent := by
  obtain ⟨front, back, split⟩ := List.append_of_mem sent
  obtain ⟨request, -, evaluation, trail, rfl, clears, merged, -⟩ :=
    (settlement_execute events).calls front thread (BridgeOp.kaspaSubmit parent) reply back split
  obtain ⟨before, event, rest, whole, calls⟩ :=
    exists_calls_of_checked (split ▸ List.prefix_append _ _) trail.checked
  have unsolved := along before event rest whole thread _ _ calls clears
  rcases (trail.origin merged).obtained_or_synthetic with ⟨pay, hFc, obtained⟩ | ⟨fcBlock, same⟩
  · exact ⟨pay, hFc, evaluation.block, evaluation.nonce, obtained, rfl⟩
  · exact absurd same (unsolved fcBlock)

end Model

section Sample

attribute [local instance] Sample.platform

private def kaspaSubmission : (op : BridgeOp) → op.Answer → Option Block
  | .kaspaSubmit parent, _ => some parent
  | _, _ => none

private def evaluatedBlock : (op : BridgeOp) → op.Answer → Option (Block × Nat)
  | .checkPow block nonce, _ => some (block, nonce)
  | _, _ => none

private def obtainedParent : (op : BridgeOp) → op.Answer → Option Block
  | .kaspaTemplate _ _, .block parent => some parent
  | _, _ => none

theorem submitted_parents_genuine_sample :
    GenuineParent (System.execute (Sample.solvedEvents none (.block Sample.easyParent))).log
      (Sample.easyParent.withNonce 5) := by
  have evaluated : System.callsOf evaluatedBlock
      (System.execute (Sample.solvedEvents none (.block Sample.easyParent))).log = [(Sample.easyParent, 5)] := by
    decide +kernel
  have submitted : System.callsOf kaspaSubmission
      (System.execute (Sample.solvedEvents none (.block Sample.easyParent))).log = [Sample.easyParent.withNonce 5] := by
    decide +kernel
  have along : System.Along FallbackUnsolved (Sample.solvedEvents none (.block Sample.easyParent)) := by
    intro before event rest split thread block nonce calls _ fcBlock same
    obtain ⟨answer, member, -⟩ :=
      System.exists_did_of_calls calls (fun _ _ absurdity => nomatch absurdity)
    rw [← split] at member
    have listed : (block, nonce) ∈ System.callsOf evaluatedBlock
        (System.execute (Sample.solvedEvents none (.block Sample.easyParent))).log :=
      System.mem_callsOf.mpr ⟨thread, _, answer, member, rfl⟩
    rw [evaluated] at listed
    cases List.mem_singleton.mp listed
    have shorter : 2 = 1 := congrArg (fun block => block.transactions.length) same
    exact absurd shorter (by decide)
  obtain ⟨thread, op, reply, member, chosen⟩ :=
    System.mem_callsOf.mp (submitted ▸ List.mem_cons_self)
  unfold kaspaSubmission at chosen
  split at chosen
  case h_2 => exact nomatch chosen
  case h_1 parent reply =>
    cases chosen
    exact submitted_parents_genuine _ along member

theorem submitted_parents_genuine_fails :
    ¬ ∀ (events : List (bridge (Sample.deployment none)).Event) (thread : Nat) (parent : Block)
        (reply : SubmitReply),
      .did thread (.kaspaSubmit parent) reply ∈ (System.execute events).log →
        GenuineParent (System.execute events).log parent := by
  intro claim
  have unanswered : System.callsOf obtainedParent (System.execute (Sample.solvedEvents none (.failed []))).log = [] := by
    decide +kernel
  have one : System.callsOf kaspaSubmission (System.execute (Sample.solvedEvents none (.failed []))).log =
      [(buildParentBlock Sample.easyBlock).1.withNonce 5] := by
    decide +kernel
  obtain ⟨thread, op, reply, member, chosen⟩ := System.mem_callsOf.mp (one ▸ List.mem_cons_self)
  unfold kaspaSubmission at chosen
  split at chosen
  case h_2 => exact nomatch chosen
  case h_1 parent reply =>
    obtain ⟨pay, hFc, template, nonce, ⟨requester, obtained⟩, -⟩ :=
      claim (Sample.solvedEvents none (.failed [])) thread parent reply member
    have found : template ∈ System.callsOf obtainedParent (System.execute (Sample.solvedEvents none (.failed []))).log :=
      System.mem_callsOf.mpr ⟨requester, _, _, obtained, rfl⟩
    rw [unanswered] at found
    exact nomatch found

end Sample

end StratumBridge
