import StratumBridge.Bridge.SettlementProtocol

/-! # Whom an accepted parent is credited to

The recipient of a parent is chosen when the parent is requested: the miner's payout
address, or the operator when the miner gave none and in the fee minute of a lane. An
accepted parent is credited to the operator's address whoever was paid.
-/

namespace StratumBridge

open Interaction

section Model

variable [Platform] {deployment : Deployment}

/-- The wallet an operation credits with a Kaspa block. -/
def creditedWallet : BridgeOp → Option Text
  | .record (.kasBlock _ payoutWallet) => some payoutWallet
  | .record (.kasBlockRecord _ payoutWallet _ _ _ _) => some payoutWallet
  | _ => none

/-- The Kaspa node accepted the one parent the task sent to it. -/
structure AcceptedParent (log : Record deployment) (thread : Nat) (block : Block) (nonce : Nat) :
    Prop where
  accepted : .did thread (.kaspaSubmit (block.withNonce nonce)) .success ∈ log
  only : ∀ parent reply, .did thread (.kaspaSubmit parent) reply ∈ log →
    parent = block.withNonce nonce

/-- What a task that credits a wallet did before. -/
theorem paid_of_credited {log : Record deployment} {calls : List SettlementCall} {op : BridgeOp}
    {wallet : Text} (credits : creditedWallet op = some wallet)
    (permitted : SettlementPermits log calls op) :
    ∃ trail evaluation, trail ++ [.paid evaluation.solved .success] <+: calls ∧
      Trail log trail evaluation ∧ wallet = operatorText deployment.settings := by
  unfold creditedWallet at credits
  split at credits
  · obtain ⟨trail, evaluation, reached, followed, same⟩ := permitted
    exact ⟨trail, evaluation, reached, followed, (Option.some.inj credits).symm.trans same⟩
  · obtain ⟨trail, evaluation, reached, followed, same, -⟩ := permitted
    exact ⟨trail, evaluation, reached, followed, (Option.some.inj credits).symm.trans same⟩
  · exact nomatch credits

/-- Two ways to reach the first submission of a list reach the same one. -/
theorem first_paid_unique {before after front back : List SettlementCall} {first other : Block}
    {reply otherReply : SubmitReply}
    (same : before ++ .paid first reply :: after = front ++ .paid other otherReply :: back)
    (silent : ∀ parent answer, SettlementCall.paid parent answer ∉ before)
    (otherSilent : ∀ parent answer, SettlementCall.paid parent answer ∉ front) :
    first = other := by
  rcases List.append_eq_append_iff.mp same with ⟨extra, grown, tail⟩ | ⟨extra, grown, tail⟩
  · cases extra with
    | nil => exact (SettlementCall.paid.inj (List.cons.inj tail).1).1
    | cons call extra =>
        rw [grown, ← (List.cons.inj tail).1] at otherSilent
        exact absurd (List.mem_append_right _ List.mem_cons_self) (otherSilent first reply)
  · cases extra with
    | nil => exact (SettlementCall.paid.inj (List.cons.inj tail).1).1.symm
    | cons call extra =>
        rw [grown, ← (List.cons.inj tail).1] at silent
        exact absurd (List.mem_append_right _ List.mem_cons_self) (silent other otherReply)

/-- A task sends one parent at most: the one its trail ends with. -/
theorem acceptedParent_of_paid {events : List (bridge deployment).Event}
    {front : Record deployment} (reached : front <+: (System.execute events).log) {thread : Nat}
    {trail : List SettlementCall} {evaluation : Evaluation}
    (paid : trail ++ [.paid evaluation.solved .success] <+:
      System.ownCalls settlementCall thread front)
    (followed : Trail (System.execute events).log trail evaluation) :
    AcceptedParent front thread evaluation.block evaluation.nonce := by
  obtain ⟨rest, calls⟩ := paid
  constructor
  · have listed : SettlementCall.paid evaluation.solved .success ∈
        System.ownCalls settlementCall thread front := by
      rw [← calls]
      exact List.mem_append_left _ (List.mem_append_right _ List.mem_cons_self)
    obtain ⟨op, answer, member, settles⟩ := exists_did_of_settled listed
    cases settles
    exact member
  · intro parent reply member
    obtain ⟨early, late, rfl⟩ := List.append_of_mem member
    obtain ⟨back, whole⟩ := reached
    rw [List.append_assoc, List.cons_append] at whole
    obtain ⟨request, -, other, otherTrail, rfl, -⟩ :=
      (settlement_execute events).calls early thread (.kaspaSubmit parent) reply _ whole.symm
    rw [System.ownCalls_append, List.append_assoc, @System.ownCalls_cons (bridge deployment)] at calls
    exact (first_paid_unique calls (fun _ _ => followed.not_paid)
      fun _ _ => otherTrail.not_paid).symm

/-- **Credited wallets.** An accepted parent is credited to the recipient it was requested
for exactly when the request had no payee or its payee was the operator. -/
theorem credited_wallet_iff (injective : Function.Injective Platform.addressText)
    (events : List (bridge deployment).Event) {front back : Record deployment} {thread : Nat}
    {op : BridgeOp} {answer : op.Answer} {wallet : Text}
    (split : (System.execute events).log = front ++ .did thread op answer :: back)
    (credits : creditedWallet op = some wallet) :
    ∃ block nonce, AcceptedParent front thread block nonce ∧
      ∀ payee pay hFc, parentRecipient deployment.settings payee = some pay →
        Obtained (System.execute events).log pay hFc block →
        (wallet = Platform.addressText pay ↔
          payee = none ∨ payee = deployment.settings.kaspaPay) := by
  obtain ⟨request, -, permitted⟩ :=
    (settlement_execute events).calls front thread op answer back split
  obtain ⟨trail, evaluation, paid, followed, rfl⟩ := paid_of_credited credits permitted
  have reached : front <+: (System.execute events).log := split ▸ List.prefix_append _ _
  have accepted := acceptedParent_of_paid reached paid followed
  refine ⟨evaluation.block, evaluation.nonce, accepted, ?_⟩
  intro payee pay hFc recipient _
  -- A parent is sent through a client, and a client comes with the operator's address.
  obtain ⟨early, late, rfl⟩ := List.append_of_mem accepted.accepted
  rw [List.append_assoc, List.cons_append] at split
  obtain ⟨sender, -, other, -, -, -, -, client⟩ := (settlement_execute events).calls early thread
    (.kaspaSubmit (evaluation.block.withNonce evaluation.nonce)) .success _ split
  have paired := deployment.settings.paired
  rw [client] at paired
  obtain ⟨operator, known⟩ := Option.isSome_iff_exists.mp paired.symm
  unfold operatorText
  rw [known, Option.map_some, Option.getD_some, injective.eq_iff]
  unfold parentRecipient at recipient
  rw [known] at recipient
  cases payee with
  | none =>
      rw [Option.none_or] at recipient
      simp only [Option.some.inj recipient, true_or]
  | some address =>
      rw [Option.some_or] at recipient
      rw [Option.some.inj recipient]
      simp only [reduceCtorEq, false_or, Option.some.injEq]
      exact eq_comm

end Model

section Sample

attribute [local instance] Sample.platform

private def credit (op : BridgeOp) (_ : op.Answer) : Option Text := creditedWallet op

/-- A parent of the Kaspa node with the recipient it was requested for. -/
private def paidParent : (op : BridgeOp) → op.Answer → Option (Text × Block)
  | .kaspaTemplate pay _, .block parent => some (pay, parent)
  | _, _ => none

private theorem sample_credits (payout : Option Text) (wallet : Text)
    (credits : wallet ∈ System.callsOf credit
      (System.execute (Sample.solvedEvents payout (.block Sample.easyParent))).log) :
    ∃ front thread op answer back,
      (System.execute (Sample.solvedEvents payout (.block Sample.easyParent))).log =
        front ++ .did thread op answer :: back ∧ creditedWallet op = some wallet := by
  obtain ⟨thread, op, answer, member, chosen⟩ := System.mem_callsOf.mp credits
  obtain ⟨front, back, split⟩ := List.append_of_mem member
  exact ⟨front, thread, op, answer, back, split, chosen⟩

/-- The sample miner has no payout address: the operator is paid and credited. -/
theorem credited_wallet_iff_sample :
    ∃ front thread block nonce,
      @AcceptedParent _ (Sample.deployment none) front thread block nonce ∧
      ∀ payee pay hFc, parentRecipient Sample.settings payee = some pay →
        Obtained (System.execute (Sample.solvedEvents none (.block Sample.easyParent))).log pay hFc
          block →
        (['o', 'p'] = pay ↔ payee = none ∨ payee = some ['o', 'p']) := by
  obtain ⟨front, thread, op, answer, back, split, credits⟩ :=
    sample_credits none ['o', 'p'] (by decide +kernel)
  obtain ⟨block, nonce, accepted, credited⟩ :=
    credited_wallet_iff Function.injective_id _ split credits
  exact ⟨front, thread, block, nonce, accepted, credited⟩

/-- A miner with the payout address `m` is paid, and the operator is credited. -/
theorem credited_wallet_fails :
    ¬ ∀ (events : List (bridge (Sample.deployment (some ['m']))).Event)
        (front back : Record (Sample.deployment (some ['m']))) (thread : Nat) (op : BridgeOp)
        (answer : op.Answer) (wallet : Text),
      (System.execute events).log = front ++ .did thread op answer :: back →
      creditedWallet op = some wallet →
      ∃ block nonce pay hFc, AcceptedParent front thread block nonce ∧
        Obtained (System.execute events).log pay hFc block ∧ wallet = Platform.addressText pay := by
  intro claim
  obtain ⟨front, thread, op, answer, back, split, credits⟩ :=
    sample_credits (some ['m']) ['o', 'p'] (by decide +kernel)
  obtain ⟨block, nonce, pay, hFc, -, ⟨requester, obtained⟩, same⟩ :=
    claim _ front back thread op answer _ split credits
  have paid : System.callsOf paidParent
      (System.execute (Sample.solvedEvents (some ['m']) (.block Sample.easyParent))).log =
        [(['m'], Sample.easyParent)] := by
    decide +kernel
  have listed : (pay, block) ∈ System.callsOf paidParent
      (System.execute (Sample.solvedEvents (some ['m']) (.block Sample.easyParent))).log :=
    System.mem_callsOf.mpr ⟨requester, _, _, obtained, rfl⟩
  rw [paid] at listed
  cases List.mem_singleton.mp listed
  exact absurd same (by decide)

end Sample

end StratumBridge
