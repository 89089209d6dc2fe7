import StratumBridge.Bridge.Provenance
import StratumBridge.Interaction.Recording

/-! # The protocol of a submission

A submission evaluates one or more jobs. The first evaluation that clears a chain target
goes through settlement: the Kaspa leg, then the claim, then the ZKas block; nothing of
these happens in any other order or for any other evaluation.
-/

namespace StratumBridge

open Interaction

variable [Platform] {deployment : Deployment}

/-- The calls settlement consists of. -/
inductive SettlementCall where
  /-- A proof of work was evaluated. -/
  | checked (block : Block) (nonce : Nat)
  /-- A lane was looked up in the pending store. -/
  | looked (hFc : Hash) (found : Option Block)
  /-- A parent was sent to the Kaspa node. -/
  | paid (parent : Block) (reply : SubmitReply)
  | claimed (hFc : Hash) (won : Bool)
  /-- A block was sent to the ZKas node. -/
  | sent (block : Block) (reply : SubmitReply)
deriving DecidableEq

def settlementCall : (op : BridgeOp) → op.Answer → Option SettlementCall
  | .checkPow block nonce, _ => some (.checked block nonce)
  | .pending (.get hFc), found => some (.looked hFc found)
  | .kaspaSubmit parent, reply => some (.paid parent reply)
  | .pending (.claimSolution hFc), won => some (.claimed hFc won)
  | .zkasSubmit block, reply => some (.sent block reply)
  | _, _ => none

/-- The operation behind a call of settlement. -/
inductive Settles : (op : BridgeOp) → op.Answer → SettlementCall → Prop where
  | checked (block : Block) (nonce : Nat) (answer : Bool × Nat) :
      Settles (.checkPow block nonce) answer (.checked block nonce)
  | looked (hFc : Hash) (found : Option Block) :
      Settles (.pending (.get hFc)) found (.looked hFc found)
  | paid (parent : Block) (reply : SubmitReply) :
      Settles (.kaspaSubmit parent) reply (.paid parent reply)
  | claimed (hFc : Hash) (won : Bool) :
      Settles (.pending (.claimSolution hFc)) won (.claimed hFc won)
  | sent (block : Block) (reply : SubmitReply) :
      Settles (.zkasSubmit block) reply (.sent block reply)

/-- **Inversion of a recorded call.** -/
theorem settlementCall_cases {op : BridgeOp} {answer : op.Answer} {item : SettlementCall}
    (chosen : settlementCall op answer = some item) : Settles op answer item := by
  unfold settlementCall at chosen
  split at chosen
  case h_6 => exact nomatch chosen
  all_goals
    cases chosen
    constructor

theorem exists_did_of_settled {log : Record deployment} {thread : Nat} {item : SettlementCall}
    (member : item ∈ System.ownCalls settlementCall thread log) :
    ∃ op answer, .did thread op answer ∈ log ∧ Settles op answer item := by
  obtain ⟨op, answer, inLog, chosen⟩ := System.mem_ownCalls.mp member
  exact ⟨op, answer, inLog, settlementCall_cases chosen⟩

/-- One evaluation of a proof of work: the job's block, the nonce, and the pending block
of its lane as it was looked up. -/
structure Evaluation where
  block : Block
  nonce : Nat
  found : Option Block

namespace Evaluation

/-- The lane looked up for a block, if any. -/
def lane (settings : Settings) (block : Block) : Option Hash :=
  if settings.mergedMining then committedHFc block else none

def calls (settings : Settings) (evaluation : Evaluation) : List SettlementCall :=
  .checked evaluation.block evaluation.nonce ::
    ((lane settings evaluation.block).map fun hFc => .looked hFc evaluation.found).toList

def powValue (evaluation : Evaluation) : Nat :=
  (checkPow evaluation.block.header evaluation.nonce).2

/-- The network target of an evaluation: the lane's while it is pending, else that of the
job's own bits. -/
def networkTarget (evaluation : Evaluation) : Nat :=
  (evaluation.found.map fun fcBlock => calculateTarget fcBlock.header.bits).getD
    (calculateTarget evaluation.block.header.bits)

def MeetsNetwork (evaluation : Evaluation) : Prop :=
  evaluation.powValue ≤ evaluation.networkTarget

instance (evaluation : Evaluation) : Decidable evaluation.MeetsNetwork :=
  inferInstanceAs (Decidable (_ ≤ _))

/-- The evaluation clears a chain target and goes through settlement. -/
def Solves (evaluation : Evaluation) : Prop :=
  evaluation.MeetsNetwork ∨
    (evaluation.found.isSome = true ∧ (checkPow evaluation.block.header evaluation.nonce).1 = true)

/-- How the handler decides whether an evaluation solves. -/
theorem solves_iff (evaluation : Evaluation) :
    (decide (Platform.powValue evaluation.block.header evaluation.nonce ≤
        (evaluation.found.map fun fcBlock => calculateTarget fcBlock.header.bits).getD
          (calculateTarget evaluation.block.header.bits)) ||
      (evaluation.found.map fun fcBlock => calculateTarget fcBlock.header.bits).isSome &&
        decide (Platform.powValue evaluation.block.header evaluation.nonce ≤
          Platform.compactTarget evaluation.block.header.bits)) = true ↔ evaluation.Solves := by
  rw [Bool.or_eq_true, Bool.and_eq_true, Option.isSome_map, decide_eq_true_eq]
  rfl

/-- The block a solution submits. -/
def solved (evaluation : Evaluation) : Block := evaluation.block.withNonce evaluation.nonce

/-- The solved block passes the Kaspa check of its own header. -/
def ClearsKaspa (evaluation : Evaluation) : Prop :=
  (checkPow evaluation.solved.header evaluation.solved.header.nonce).1 = true

/-- The calls of the Kaspa leg: one submission when the solved block clears Kaspa. -/
inductive KaspaLeg (settings : Settings) (evaluation : Evaluation) : List SettlementCall → Prop where
  | paid (merged : settings.mergedMining = true) (client : settings.kaspaClient = true)
      (clears : evaluation.ClearsKaspa) (reply : SubmitReply) :
      KaspaLeg settings evaluation [.paid evaluation.solved reply]
  | skipped
      (idle : ¬ (settings.mergedMining = true ∧ settings.kaspaClient = true ∧
        evaluation.ClearsKaspa)) :
      KaspaLeg settings evaluation []

end Evaluation

/-- The calls of evaluations that missed, followed by one that did not. -/
structure Trail (log : Record deployment) (calls : List SettlementCall) (evaluation : Evaluation) :
    Prop where
  solves : evaluation.Solves
  origin : deployment.settings.mergedMining = true → ParentOrigin log evaluation.block
  missed : ∃ rounds : List Evaluation, (∀ round ∈ rounds, ¬ round.Solves) ∧
    calls = rounds.flatMap (Evaluation.calls deployment.settings) ++
      evaluation.calls deployment.settings

theorem Trail.checked {log : Record deployment} {calls : List SettlementCall}
    {evaluation : Evaluation} (trail : Trail log calls evaluation) :
    SettlementCall.checked evaluation.block evaluation.nonce ∈ calls := by
  obtain ⟨rounds, -, rfl⟩ := trail.missed
  exact List.mem_append_right _ List.mem_cons_self

/-- A trail only evaluates and looks up. -/
theorem Trail.reads {log : Record deployment} {trail : List SettlementCall}
    {evaluation : Evaluation} (followed : Trail log trail evaluation) :
    ∀ call ∈ trail, (∃ block nonce, call = .checked block nonce) ∨
      ∃ hFc found, call = .looked hFc found := by
  have reads : ∀ (round : Evaluation), ∀ call ∈ round.calls deployment.settings,
      (∃ block nonce, call = .checked block nonce) ∨ ∃ hFc found, call = .looked hFc found := by
    intro round call member
    rcases List.mem_cons.mp member with rfl | looked
    · exact Or.inl ⟨_, _, rfl⟩
    · obtain ⟨hFc, -, rfl⟩ := Option.map_eq_some_iff.mp (Option.mem_toList.mp looked)
      exact Or.inr ⟨_, _, rfl⟩
  obtain ⟨rounds, -, rfl⟩ := followed.missed
  intro call member
  rcases List.mem_append.mp member with early | late
  · obtain ⟨round, -, inRound⟩ := List.mem_flatMap.mp early
    exact reads round call inRound
  · exact reads evaluation call late

theorem Trail.not_paid {log : Record deployment} {trail : List SettlementCall}
    {evaluation : Evaluation} (followed : Trail log trail evaluation) {parent : Block}
    {reply : SubmitReply} : SettlementCall.paid parent reply ∉ trail := by
  intro member
  rcases followed.reads _ member with ⟨block, nonce, absurdity⟩ | ⟨hFc, found, absurdity⟩
  · exact nomatch absurdity
  · exact nomatch absurdity

theorem Trail.not_sent {log : Record deployment} {trail : List SettlementCall}
    {evaluation : Evaluation} (followed : Trail log trail evaluation) {block : Block}
    {reply : SubmitReply} : SettlementCall.sent block reply ∉ trail := by
  intro member
  rcases followed.reads _ member with ⟨block, nonce, absurdity⟩ | ⟨hFc, found, absurdity⟩
  · exact nomatch absurdity
  · exact nomatch absurdity

/-- The wallet the bridge reports for an accepted parent. -/
def operatorText (settings : Settings) : Text := (settings.kaspaPay.map Platform.addressText).getD []

/-- What each call of settlement presupposes among the calls before it. -/
def SettlementPermits (log : Record deployment) (calls : List SettlementCall) : BridgeOp → Prop
  | .kaspaSubmit parent => ∃ evaluation, Trail log calls evaluation ∧
      parent = evaluation.solved ∧ evaluation.ClearsKaspa ∧
      deployment.settings.mergedMining = true ∧ deployment.settings.kaspaClient = true
  | .pending (.get hFc) => ∃ block nonce, .checked block nonce ∈ calls ∧
      ParentOrigin log block ∧ committedHFc block = some hFc
  | .pending (.claimSolution hFc) => ∃ trail leg evaluation, calls = trail ++ leg ∧
      Trail log trail evaluation ∧ evaluation.KaspaLeg deployment.settings leg ∧
      evaluation.MeetsNetwork ∧ committedHFc evaluation.block = some hFc
  | .zkasSubmit block => deployment.settings.mergedMining = true →
      ∃ trail leg evaluation hFc fcBlock,
        calls = trail ++ leg ++ [.claimed hFc true, .looked hFc (some fcBlock)] ∧
        Trail log trail evaluation ∧ evaluation.KaspaLeg deployment.settings leg ∧
        evaluation.MeetsNetwork ∧ committedHFc evaluation.block = some hFc ∧
        block = assembleAuxBlock evaluation.solved fcBlock
  | .record (.kasBlock _ payoutWallet) => ∃ trail evaluation,
      trail ++ [.paid evaluation.solved .success] <+: calls ∧ Trail log trail evaluation ∧
      payoutWallet = operatorText deployment.settings
  | .record (.kasBlockRecord _ payoutWallet _ _ _ hash) => ∃ trail evaluation,
      trail ++ [.paid evaluation.solved .success] <+: calls ∧ Trail log trail evaluation ∧
      payoutWallet = operatorText deployment.settings ∧
      hash = Text.ofHash (Platform.headerHash evaluation.solved.header)
  | _ => True

/-- No evaluation is among the calls. -/
def NoChecks (calls : List SettlementCall) : Prop :=
  ∀ block nonce, SettlementCall.checked block nonce ∉ calls

/-- A finished task left no solution unsettled. -/
def Settled (log : Record deployment) (calls : List SettlementCall) : Prop :=
  (∃ rounds : List Evaluation, (∀ round ∈ rounds, ¬ round.Solves) ∧
      calls = rounds.flatMap (Evaluation.calls deployment.settings)) ∨
    ∃ trail leg evaluation rest, calls = trail ++ leg ++ rest ∧ Trail log trail evaluation ∧
      evaluation.KaspaLeg deployment.settings leg ∧ NoChecks rest

/-- Tasks settle solutions in order. -/
@[reducible] def settlement (log : Record deployment) :
    Protocol bridgeSignature BridgeRequest SettlementCall BridgeResult where
  select := settlementCall
  permits := fun _ => SettlementPermits log
  answers := (provenance log).ensures
  completes := fun _ calls _ => Settled log calls

/-! ## Tasks obey the protocol -/

/-- The kinds of operations the protocol does not speak of. -/
def unsettlingKinds : List Kind :=
  Kind.except [.kaspaSubmit, .claim, .zkasSubmit, .kasBlock, .checkPow, .pendingRead]

variable {log : Record deployment} {request : BridgeRequest} {calls : List SettlementCall}
  {α : Type}

theorem settlement_ignores {op : BridgeOp} (unsettling : op.kind ∈ unsettlingKinds) :
    (settlement log).Ignores op := by
  have noSubmit : Kind.kaspaSubmit ∉ unsettlingKinds := by decide
  have noClaim : Kind.claim ∉ unsettlingKinds := by decide
  have noSent : Kind.zkasSubmit ∉ unsettlingKinds := by decide
  have noCredit : Kind.kasBlock ∉ unsettlingKinds := by decide
  have noCheck : Kind.checkPow ∉ unsettlingKinds := by decide
  have noLook : Kind.pendingRead ∉ unsettlingKinds := by decide
  constructor
  · intro request calls
    change SettlementPermits log calls op
    unfold SettlementPermits
    split
    · exact absurd unsettling noSubmit
    · exact absurd unsettling noLook
    · exact absurd unsettling noClaim
    · exact absurd unsettling noSent
    · exact absurd unsettling noCredit
    · exact absurd unsettling noCredit
    · trivial
  · intro answer
    change settlementCall op answer = none
    unfold settlementCall
    split
    · exact absurd unsettling noCheck
    · exact absurd unsettling noLook
    · exact absurd unsettling noSubmit
    · exact absurd unsettling noClaim
    · exact absurd unsettling noSent
    · rfl

/-- A task of other kinds records nothing. -/
theorem Uses.unsettling {kinds : List Kind} {task : Task α} (uses : Uses kinds task)
    (subset : kinds ⊆ unsettlingKinds) :
    Program.Within (settlement log).Ignores task := by
  induction task with
  | done result => trivial
  | call op next ih =>
      exact ⟨settlement_ignores (subset uses.1), fun answer => ih answer (uses.2 answer)⟩

theorem Uses.skips {kinds : List Kind} {task : Task α} (uses : Uses kinds task)
    (subset : kinds ⊆ unsettlingKinds) :
    (settlement log).Obeys request calls task fun after _ => after = calls :=
  Protocol.obeys_of_within (uses.unsettling subset)

/-- One call, then the rest. -/
theorem settles_call (op : BridgeOp) {rest : op.Answer → Task α}
    {post : List SettlementCall → α → Prop} (permitted : SettlementPermits log calls op)
    (tail : ∀ answer, (provenance log).ensures op answer →
      (settlement log).Obeys request (calls ++ (settlementCall op answer).toList) (rest answer)
        post) :
    (settlement log).Obeys request calls (call op >>= rest) post := ⟨permitted, tail⟩

theorem mergedFcTarget_obeys {block : Block} {nonce : Nat}
    (checked : SettlementCall.checked block nonce ∈ calls)
    (origin : deployment.settings.mergedMining = true → ParentOrigin log block) :
    (settlement log).Obeys request calls (mergedFcTarget deployment.settings block)
      fun after target => ∃ found,
        after = calls ++ ((Evaluation.lane deployment.settings block).map fun hFc =>
          SettlementCall.looked hFc found).toList ∧
        target = found.map fun fcBlock => calculateTarget fcBlock.header.bits := by
  unfold mergedFcTarget Evaluation.lane
  split
  case isTrue merged =>
    split
    case h_1 unmerged =>
      refine Protocol.obeys_done ⟨none, ?_, rfl⟩
      rw [unmerged, Option.map_none, Option.toList_none, List.append_nil]
    case h_2 hFc commits =>
      refine ⟨⟨block, nonce, checked, origin merged, commits⟩, fun found _ => ?_⟩
      refine Protocol.obeys_done ⟨found, ?_, rfl⟩
      rw [commits]
      rfl
  case isFalse =>
    refine Protocol.obeys_done ⟨none, ?_, rfl⟩
    rw [Option.map_none, Option.toList_none, List.append_nil]

/-- What the Kaspa leg reports about a submission. -/
def ReportsLeg (settings : Settings) (evaluation : Evaluation) (leg : List SettlementCall)
    (outcome : MergedParentSubmitOutcome) : Prop :=
  ∀ hash payoutWallet, outcome = .accepted hash payoutWallet →
    leg = [.paid evaluation.solved .success] ∧ payoutWallet = operatorText settings ∧
      hash = Text.ofHash (Platform.headerHash evaluation.solved.header)

theorem submitMergedParentIfSolved_obeys {evaluation : Evaluation}
    (trail : Trail log calls evaluation) :
    (settlement log).Obeys request calls
      (submitMergedParentIfSolved deployment.settings evaluation.solved) fun after outcome =>
        ∃ leg, after = calls ++ leg ∧ evaluation.KaspaLeg deployment.settings leg ∧
          ReportsLeg deployment.settings evaluation leg outcome := by
  have skip : ∀ outcome, (∀ hash wallet, outcome ≠ .accepted hash wallet) →
      ¬ (deployment.settings.mergedMining = true ∧ deployment.settings.kaspaClient = true ∧
        evaluation.ClearsKaspa) →
      (settlement log).Obeys request calls (.done outcome : Task MergedParentSubmitOutcome)
        fun after outcome => ∃ leg, after = calls ++ leg ∧
          evaluation.KaspaLeg deployment.settings leg ∧
            ReportsLeg deployment.settings evaluation leg outcome := by
    intro outcome silent idle
    refine Protocol.obeys_done ⟨[], (List.append_nil _).symm, .skipped idle, ?_⟩
    exact fun hash wallet reported => absurd reported (silent hash wallet)
  unfold submitMergedParentIfSolved
  split
  case isFalse plain => exact skip _ (fun _ _ absurdity => nomatch absurdity) fun all => plain all.1
  case isTrue merged =>
    split
    case isFalse misses =>
      exact skip _ (fun _ _ absurdity => nomatch absurdity) fun all => misses all.2.2
    case isTrue clears =>
      split
      case isFalse alone =>
        exact skip _ (fun _ _ absurdity => nomatch absurdity) fun all => alone all.2.1
      case isTrue client =>
        refine ⟨⟨evaluation, trail, rfl, clears, merged, client⟩, fun (reply : SubmitReply) _ => ?_⟩
        refine Protocol.obeys_done ⟨[.paid evaluation.solved reply], rfl,
          .paid merged client clears reply, ?_⟩
        intro hash wallet reported
        cases reply with
        | success =>
            cases reported
            exact ⟨rfl, rfl, rfl⟩
        | reject reason => exact nomatch reported
        | failed error => exact nomatch reported

/-- The calls of a claim on the lane of a block. -/
def claimCalls (settings : Settings) (block : Block) (won : Bool) : List SettlementCall :=
  ((Evaluation.lane settings block).map fun hFc => .claimed hFc won).toList

theorem claimNetworkSolution_obeys {evaluation : Evaluation} {leg : List SettlementCall}
    (trail : Trail log calls evaluation)
    (paid : evaluation.KaspaLeg deployment.settings leg) (meets : evaluation.MeetsNetwork) :
    (settlement log).Obeys request (calls ++ leg)
      (claimNetworkSolution deployment.settings evaluation.block) fun after won =>
        after = calls ++ leg ++ claimCalls deployment.settings evaluation.block won := by
  unfold claimNetworkSolution claimCalls Evaluation.lane
  split
  · split
    case h_1 unmerged =>
      apply Protocol.obeys_done
      rw [unmerged, Option.map_none, Option.toList_none, List.append_nil]
    case h_2 hFc commits =>
      refine ⟨⟨calls, leg, evaluation, rfl, trail, paid, meets, commits⟩, fun won _ => ?_⟩
      apply Protocol.obeys_done
      rw [commits]
      rfl
  · apply Protocol.obeys_done
    rw [Option.map_none, Option.toList_none, List.append_nil]

theorem noChecks_nil : NoChecks [] := fun _ _ member => nomatch member

theorem noChecks_claimCalls (settings : Settings) (block : Block) (won : Bool) :
    NoChecks (claimCalls settings block won) := by
  intro other nonce member
  obtain ⟨hFc, -, same⟩ := Option.map_eq_some_iff.mp (Option.mem_toList.mp member)
  exact nomatch same

theorem NoChecks.append {front back : List SettlementCall} (first : NoChecks front)
    (second : NoChecks back) : NoChecks (front ++ back) := by
  intro block nonce member
  rcases List.mem_append.mp member with early | late
  · exact first block nonce early
  · exact second block nonce late

theorem submitParentThenClaimZkas_obeys {evaluation : Evaluation} (trail : Trail log calls evaluation)
    {clearsZkas : Bool} (meets : clearsZkas = true → evaluation.MeetsNetwork) :
    (settlement log).Obeys request calls
      (submitParentThenClaimZkas deployment.settings evaluation.solved evaluation.block clearsZkas)
      fun after legs => ∃ leg, evaluation.KaspaLeg deployment.settings leg ∧
        ReportsLeg deployment.settings evaluation leg legs.1 ∧
        ((clearsZkas = true ∧
            after = calls ++ leg ++ claimCalls deployment.settings evaluation.block legs.2) ∨
          (legs.2 = false ∧ after = calls ++ leg)) := by
  refine (submitMergedParentIfSolved_obeys trail).bind ?_
  rintro after outcome ⟨leg, rfl, paid, reports⟩
  cases clearsZkas with
  | false => exact Protocol.obeys_done ⟨leg, paid, reports, Or.inr ⟨rfl, rfl⟩⟩
  | true =>
      refine (claimNetworkSolution_obeys trail paid (meets rfl)).bind ?_
      rintro after claimed rfl
      exact Protocol.obeys_done ⟨leg, paid, reports, Or.inl ⟨rfl, rfl⟩⟩

theorem recordAll_obeys (metrics : List Metric)
    (permitted : ∀ metric ∈ metrics, SettlementPermits log calls (.record metric)) :
    (settlement log).Obeys request calls (recordAll metrics) fun after _ => after = calls := by
  induction metrics with
  | nil => exact Protocol.obeys_done rfl
  | cons metric rest ih =>
      refine ⟨permitted metric List.mem_cons_self, fun _ _ => ?_⟩
      change (settlement log).Obeys request (calls ++ []) _ _
      rw [List.append_nil]
      exact ih fun later member => permitted later (List.mem_cons_of_mem _ member)

/-- The metrics of a settled parent credit the wallet the bridge reports. -/
theorem mergedParentMetrics_permitted {trail leg : List SettlementCall} {evaluation : Evaluation}
    (followed : Trail log trail evaluation) (reached : trail ++ leg <+: calls)
    {outcome : MergedParentSubmitOutcome}
    (reports : ReportsLeg deployment.settings evaluation leg outcome) (labels : WorkerContext)
    (claimed : Bool) (nonce daaScore timestamp : Nat) :
    ∀ metric ∈ mergedParentMetrics labels outcome claimed nonce daaScore timestamp,
      SettlementPermits log calls (.record metric) := by
  intro metric member
  cases outcome with
  | notMerged | doesNotClearKaspa => exact absurd member List.not_mem_nil
  | noKaspaClient | rejected hash reason | transportError hash error =>
      obtain rfl := List.mem_singleton.mp member
      trivial
  | accepted hash payoutWallet =>
      obtain ⟨rfl, wallet, text⟩ := reports hash payoutWallet rfl
      simp only [mergedParentMetrics, List.mem_cons, List.not_mem_nil, or_false] at member
      rcases member with rfl | rfl | rfl
      · trivial
      · exact ⟨trail, evaluation, reached, followed, wallet⟩
      · exact ⟨trail, evaluation, reached, followed, wallet, text⟩

theorem submitAssembled_obeys {block : Block} (permitted : SettlementPermits log calls (.zkasSubmit block)) :
    (settlement log).Obeys request calls (submitAssembled block) fun after _ =>
      ∃ rest, after = calls ++ rest ∧ NoChecks rest := by
  have quiet : Kind.quiet ∈ unsettlingKinds := by decide
  have self : unsettlingKinds ⊆ unsettlingKinds := List.Subset.refl _
  refine Protocol.obeys_bind_of_within ((uses_quiet quiet .now rfl).unsettling self) fun now => ?_
  refine Protocol.obeys_bind_of_within
    ((uses_quiet quiet (.tryMarkBlock _ now) rfl).unsettling self) fun marked => ?_
  cases (marked : Bool) with
  | false => exact Protocol.obeys_done ⟨[], (List.append_nil _).symm, noChecks_nil⟩
  | true =>
      refine settles_call (.zkasSubmit block) permitted
        fun (reply : SubmitReply) _ => ?_
      have sent : NoChecks [.sent block reply] := by
        intro other nonce member
        exact nomatch List.mem_singleton.mp member
      cases reply with
      | success => exact Protocol.obeys_done ⟨_, rfl, sent⟩
      | reject reason => exact Protocol.obeys_done ⟨_, rfl, sent⟩
      | failed error =>
          dsimp only
          split
          · exact Protocol.obeys_done ⟨_, rfl, sent⟩
          · refine Protocol.obeys_bind_of_within ((uses_quiet quiet .now rfl).unsettling self)
              fun later => ?_
            refine Protocol.obeys_bind_of_within
              ((uses_quiet quiet (.unmarkBlock _ later) rfl).unsettling self) fun _ => ?_
            exact Protocol.obeys_done ⟨_, rfl, sent⟩

theorem submitBlock_obeys {trail leg : List SettlementCall} {evaluation : Evaluation}
    (followed : Trail log trail evaluation)
    (paid : evaluation.KaspaLeg deployment.settings leg) (meets : evaluation.MeetsNetwork)
    (reached : calls = trail ++ leg ++ claimCalls deployment.settings evaluation.block true) :
    (settlement log).Obeys request calls (submitBlock deployment.settings evaluation.solved)
      fun after _ => ∃ rest, after = calls ++ rest ∧ NoChecks rest := by
  unfold submitBlock
  split
  case isFalse plain => exact submitAssembled_obeys fun merged => absurd merged plain
  case isTrue merged =>
    split
    · exact Protocol.obeys_done ⟨[], (List.append_nil _).symm, noChecks_nil⟩
    case h_2 hFc commits =>
      rw [Evaluation.solved, committedHFc_withNonce] at commits
      have checked : SettlementCall.checked evaluation.block evaluation.nonce ∈ calls := by
        rw [reached, List.append_assoc]
        exact List.mem_append_left _ followed.checked
      refine ⟨⟨_, _, checked, followed.origin merged, commits⟩, fun (found : Option Block) _ => ?_⟩
      have looked : NoChecks [.looked hFc found] := by
        intro other nonce member
        exact nomatch List.mem_singleton.mp member
      cases found with
      | none => exact Protocol.obeys_done ⟨_, rfl, looked⟩
      | some fcBlock =>
          have claimed : claimCalls deployment.settings evaluation.block true =
              [.claimed hFc true] := by
            rw [claimCalls, Evaluation.lane, if_pos merged, commits]
            rfl
          have permitted : SettlementPermits log (calls ++ [.looked hFc (some fcBlock)])
              (.zkasSubmit (assembleAuxBlock evaluation.solved fcBlock)) := by
            intro _
            refine ⟨trail, leg, evaluation, hFc, fcBlock, ?_, followed, paid, meets, commits, rfl⟩
            rw [reached, claimed, List.append_assoc]
            rfl
          refine (submitAssembled_obeys permitted).mono ?_
          rintro after _ ⟨rest, rfl, silent⟩
          exact ⟨[.looked hFc (some fcBlock)] ++ rest, List.append_assoc .., looked.append silent⟩

section Submission

variable {submission : Submission} {job : Job} {found : Option Block}

theorem submitClaimed_obeys {trail leg : List SettlementCall}
    (followed : Trail log trail ⟨job.block, submission.nonce, found⟩)
    (paid : Evaluation.KaspaLeg deployment.settings ⟨job.block, submission.nonce, found⟩ leg)
    (meets : Evaluation.MeetsNetwork ⟨job.block, submission.nonce, found⟩)
    (reached : calls = trail ++ leg ++ claimCalls deployment.settings job.block true)
    (jobId : Nat) (wallet worker : Text) :
    (settlement log).Obeys request calls
      (submitClaimed deployment.settings submission jobId job wallet worker) fun after _ =>
        ∃ rest, after = calls ++ rest ∧ NoChecks rest := by
  have quiet : Kind.quiet ∈ unsettlingKinds := by decide
  have sets : Kind.setOutcome ∈ unsettlingKinds := by decide
  have counts : Kind.countWrite ∈ unsettlingKinds := by decide
  have reports : Kind.blockEvent ∈ unsettlingKinds := by decide
  have self : unsettlingKinds ⊆ unsettlingKinds := List.Subset.refl _
  refine Protocol.obeys_bind_of_within
    ((uses_quiet quiet (.jobRefresh submission.uid) rfl).unsettling self) fun _ => ?_
  refine Protocol.obeys_bind_of_within ((uses_quiet quiet .systemTime rfl).unsettling self)
    fun systemTime => ?_
  refine Protocol.obeys_bind_of_within ((disconnectStale_uses quiet _ _ _).unsettling self)
    fun _ => ?_
  refine Protocol.obeys_bind_of_within
    ((emitFound_uses reports ..).unsettling self) fun _ => ?_
  refine (submitBlock_obeys followed paid meets reached).bind fun after result sent => ?_
  have rest : ∀ {task : Task Verdict}, Uses unsettlingKinds task →
      (settlement log).Obeys request after task fun final _ =>
        ∃ rest, final = calls ++ rest ∧ NoChecks rest := by
    intro task uses
    refine (uses.skips self).mono ?_
    rintro final _ rfl
    exact sent
  cases result with
  | error error =>
      dsimp only
      split
      · exact rest (settleStale_uses quiet (by decide) sets counts submission wallet worker)
      · exact rest (settleBad_uses quiet (by decide) sets counts submission wallet worker)
  | ok outcome =>
      cases outcome with
      | accepted => exact rest ((settleAccepted_uses quiet reports submission _ _).bind fun _ => uses_done _)
      | rejectedByNode reason =>
          exact rest ((readContext_uses quiet submission.uid).bind fun context =>
            (uses_quiet quiet (.record (.blockNotConfirmedBlue _)) rfl).bind fun _ => uses_done _)

theorem settleSolution_obeys (followed : Trail log calls ⟨job.block, submission.nonce, found⟩)
    {meetsNetworkTarget : Bool}
    (meets : meetsNetworkTarget = true →
      Evaluation.MeetsNetwork ⟨job.block, submission.nonce, found⟩) (jobId : Nat) :
    (settlement log).Obeys request calls
      (settleSolution deployment.settings submission jobId job meetsNetworkTarget)
      fun after _ => Settled log after := by
  have quiet : Kind.quiet ∈ unsettlingKinds := by decide
  have self : unsettlingKinds ⊆ unsettlingKinds := List.Subset.refl _
  refine Protocol.obeys_bind_of_within ((walletAddr_uses quiet _).unsettling self) fun wallet => ?_
  refine Protocol.obeys_bind_of_within ((effectiveWorkerName_uses quiet _).unsettling self)
    fun worker => ?_
  refine (submitParentThenClaimZkas_obeys followed meets).bind ?_
  rintro after ⟨outcome, claimed⟩ ⟨leg, paid, reports, claims⟩
  refine Protocol.obeys_bind_of_within ((workerContext_uses quiet _ _ _).unsettling self)
    fun labels => ?_
  refine Protocol.obeys_bind_of_within ((uses_quiet quiet .systemTime rfl).unsettling self)
    fun systemTime => ?_
  have reached : calls ++ leg <+: after := by
    rcases claims with ⟨-, rfl⟩ | ⟨-, rfl⟩
    · exact List.prefix_append _ _
    · exact List.prefix_refl _
  refine (recordAll_obeys _ (mergedParentMetrics_permitted followed reached reports _ _ _ _ _)).bind
    ?_
  rintro after _ rfl
  have settled : ∀ rest, NoChecks rest → Settled log (calls ++ leg ++ rest) :=
    fun rest silent => Or.inr ⟨calls, leg, _, rest, rfl, followed, paid, silent⟩
  rcases claims with ⟨meant, rfl⟩ | ⟨lost, rfl⟩
  · have claiming := noChecks_claimCalls deployment.settings job.block claimed
    cases claimed with
    | false =>
        rw [meant, Bool.and_false]
        exact Protocol.obeys_done (settled _ claiming)
    | true =>
        rw [meant, Bool.and_true]
        refine (submitClaimed_obeys followed paid (meets meant) rfl jobId wallet worker).mono ?_
        rintro final _ ⟨rest, rfl, silent⟩
        rw [List.append_assoc (calls ++ leg)]
        exact settled _ (claiming.append silent)
  · dsimp only at lost
    rw [lost, Bool.and_false]
    refine Protocol.obeys_done ?_
    have nothing := settled [] noChecks_nil
    rwa [List.append_nil] at nothing

end Submission

/-- The calls of evaluations that all missed. -/
def Missed (settings : Settings) (calls : List SettlementCall) : Prop :=
  ∃ rounds : List Evaluation, (∀ round ∈ rounds, ¬ round.Solves) ∧
    calls = rounds.flatMap (Evaluation.calls settings)

theorem Missed.snoc {evaluation : Evaluation} (missed : Missed deployment.settings calls)
    (misses : ¬ evaluation.Solves) :
    Missed deployment.settings (calls ++ evaluation.calls deployment.settings) := by
  obtain ⟨rounds, all, rfl⟩ := missed
  refine ⟨rounds ++ [evaluation], ?_, ?_⟩
  · intro round member
    rcases List.mem_append.mp member with earlier | last
    · exact all round earlier
    · exact List.mem_singleton.mp last ▸ misses
  · rw [List.flatMap_append, List.flatMap_singleton]

theorem evaluate_obeys (submission : Submission) (attempts jobId : Nat) {job : Job}
    (sound : JobSound log job) (invalid : Bool) (missed : Missed deployment.settings calls) :
    (settlement log).Obeys request calls
      (evaluate deployment.settings submission attempts jobId job invalid)
      fun after _ => Settled log after := by
  have self : unsettlingKinds ⊆ unsettlingKinds := List.Subset.refl _
  induction attempts generalizing jobId job invalid calls with
  | zero => exact Protocol.obeys_done (Or.inl missed)
  | succ attempts ih =>
      refine settles_call (.checkPow job.block submission.nonce) trivial fun checked ensured => ?_
      obtain rfl : checked = checkPow job.block.header submission.nonce := ensured.2
      have here : SettlementCall.checked job.block submission.nonce ∈ calls ++
          (settlementCall (.checkPow job.block submission.nonce)
            (checkPow job.block.header submission.nonce)).toList :=
        List.mem_append_right _ List.mem_cons_self
      refine (mergedFcTarget_obeys here sound).bind ?_
      rintro after fcTarget ⟨found, rfl, rfl⟩
      have extended : calls ++ (settlementCall (.checkPow job.block submission.nonce)
            (checkPow job.block.header submission.nonce)).toList ++
          ((Evaluation.lane deployment.settings job.block).map fun hFc =>
            SettlementCall.looked hFc found).toList =
          calls ++ Evaluation.calls deployment.settings ⟨job.block, submission.nonce, found⟩ := by
        rw [List.append_assoc]
        rfl
      rw [extended]
      dsimp only
      split
      case isTrue solves =>
        have followed : Trail log
            (calls ++ Evaluation.calls deployment.settings ⟨job.block, submission.nonce, found⟩)
            ⟨job.block, submission.nonce, found⟩ := by
          refine ⟨(Evaluation.solves_iff _).mp solves, sound, ?_⟩
          obtain ⟨rounds, all, rfl⟩ := missed
          exact ⟨rounds, all, rfl⟩
        exact settleSolution_obeys followed (fun meets => of_decide_eq_true meets) jobId
      case isFalse misses =>
        have unsolved : ¬ Evaluation.Solves ⟨job.block, submission.nonce, found⟩ :=
          fun solves => misses ((Evaluation.solves_iff _).mpr solves)
        have further := missed.snoc unsolved
        have proceeds : ∀ verdict : Verdict, (settlement log).Obeys request
            (calls ++ Evaluation.calls deployment.settings ⟨job.block, submission.nonce, found⟩)
            (.done verdict) fun after _ => Settled log after :=
          fun verdict => Protocol.obeys_done (Or.inl further)
        refine Protocol.obeys_bind_of_within ((shareDiff_uses _ (by decide) _).unsettling self)
          fun diff => ?_
        split
        · split
          · exact proceeds _
          · split
            · exact proceeds _
            · refine settles_call (.ring submission.uid (.getJob (jobId - 1))) trivial
                fun (previous : Option Job) ensured => ?_
              change (settlement log).Obeys request (_ ++ []) _ _
              rw [List.append_nil]
              cases previous with
              | some previous => exact ih _ (ensured.2 previous rfl) _ further
              | none => exact proceeds _
        · exact proceeds _

/-! ## The handler -/

section Handler

variable (missed : Missed deployment.settings calls)
include missed

theorem handleDecoded_obeys (submission : Submission) {job : Job} (sound : JobSound log job) :
    (settlement log).Obeys request calls (handleDecoded deployment.settings submission job)
      fun after _ => Settled log after := by
  have quiet : Kind.quiet ∈ unsettlingKinds := by decide
  have checks : Kind.checkSubmission ∈ unsettlingKinds := by decide
  have self : unsettlingKinds ⊆ unsettlingKinds := List.Subset.refl _
  refine Protocol.obeys_bind_of_within ((uses_quiet quiet .now rfl).unsettling self) fun now => ?_
  refine Protocol.obeys_bind_of_within
    ((uses_perform (.checkSubmission _ _ now) checks).unsettling self) fun seen => ?_
  cases (seen : Option DuplicateSubmitOutcome) with
  | some outcome =>
      refine ((replyDuplicate_uses (by decide) _ _ outcome).skips self).mono ?_
      rintro after _ rfl
      exact Or.inl missed
  | none =>
      refine (evaluate_obeys submission _ _ sound _ missed).bind fun after verdict settled => ?_
      refine ((finishSubmission_uses submission quiet (by decide) (by decide) (by decide) (by decide) (by decide)
        (by decide) (by decide) verdict).skips self).mono ?_
      rintro final _ rfl
      exact settled

theorem decodeAndHandle_obeys (instanceId uid correlationId : Nat) (event : SubmitEvent)
    (jobId : Nat) {job : Job} (sound : JobSound log job) :
    (settlement log).Obeys request calls
      (decodeAndHandle deployment.settings instanceId uid correlationId event jobId job)
      fun after _ => Settled log after := by
  have quiet : Kind.quiet ∈ unsettlingKinds := by decide
  have self : unsettlingKinds ⊆ unsettlingKinds := List.Subset.refl _
  unfold decodeAndHandle
  split
  · exact Protocol.obeys_done (Or.inl missed)
  · refine Protocol.obeys_bind_of_within ((readContext_uses quiet uid).unsettling self)
      fun context => ?_
    dsimp only
    split
    · exact Protocol.obeys_done (Or.inl missed)
    · refine Protocol.obeys_bind_of_within ((effectiveWorkerName_uses quiet uid).unsettling self)
        fun workerId => ?_
      exact handleDecoded_obeys missed _ sound

end Handler

theorem handleSubmit_obeys (uid : Nat) (event : SubmitEvent) :
    (settlement log).Obeys request [] (handleSubmit deployment.settings uid event)
      fun after _ => Settled log after := by
  have quiet : Kind.quiet ∈ unsettlingKinds := by decide
  have correlates : Kind.correlation ∈ unsettlingKinds := by decide
  have self : unsettlingKinds ⊆ unsettlingKinds := List.Subset.refl _
  have missed : Missed deployment.settings [] := ⟨[], fun _ member => (nomatch member), rfl⟩
  have rejected : ∀ {task : Task (Except Text Unit)}, Uses unsettlingKinds task →
      (settlement log).Obeys request [] task fun after _ => Settled log after := by
    intro task uses
    refine (uses.skips self).mono ?_
    rintro after _ rfl
    exact Or.inl missed
  refine Protocol.obeys_bind_of_within ((uses_perform .newCorrelationId correlates).unsettling self)
    fun correlationId => ?_
  refine Protocol.obeys_bind_of_within ((readContext_uses quiet uid).unsettling self)
    fun context => ?_
  split
  · split
    · exact Protocol.obeys_done (Or.inl missed)
    case h_2 jobId _ =>
      have searches : Uses unsettlingKinds (findJob uid jobId) := findJob_uses (by decide) uid jobId
      refine (Protocol.obeys_of_keeps (searches.unsettling self) (fun _ _ ensured => ensured)
        (findJob_keeps uid jobId)).bind ?_
      rintro after found ⟨rfl, sound⟩
      cases found with
      | none => exact rejected (rejectSubmission_uses quiet ..)
      | some found => exact decodeAndHandle_obeys missed _ _ _ _ _ (sound found.1 found.2 rfl)
  · exact rejected (rejectSubmission_uses quiet ..)

/-- **Every task obeys the settlement protocol.** -/
theorem bridgeProgram_obeys (request : BridgeRequest) :
    (settlement log).Obeys request [] (bridgeProgram deployment.settings request)
      fun after _ => Settled log after := by
  by_cases submits : ∃ uid event, request = .submit uid event
  · obtain ⟨uid, event, rfl⟩ := submits
    exact (handleSubmit_obeys uid event).bind fun after result settled =>
      Protocol.obeys_done settled
  · have uses := bridgeProgram_uses deployment.settings request
    have other : request.kinds ⊆ unsettlingKinds := by
      cases request with
      | submit uid event => exact absurd ⟨uid, event, rfl⟩ submits
      | confirmBlock => exact (by decide : confirmationKinds ⊆ unsettlingKinds)
      | _ =>
          have silent : ordinaryKinds ⊆ unsettlingKinds := by decide
          exact BridgeRequest.kinds_subset trivial silent
    refine (uses.skips other).mono ?_
    rintro after _ rfl
    exact Or.inl ⟨[], fun _ member => (nomatch member), rfl⟩

/-- **Settlement protocol.** Every run is explained by it. -/
theorem settlement_execute (events : List (bridge deployment).Event) :
    @System.Explained (bridge deployment) SettlementCall
      (settlement (System.execute events).log) (System.execute events).log :=
  System.explained_execute bridgeProgram_obeys events (provenance_execute events).ensured

end StratumBridge
