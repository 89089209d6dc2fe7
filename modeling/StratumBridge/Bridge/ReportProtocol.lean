import StratumBridge.Bridge.Provenance
import StratumBridge.Interaction.Recording

/-! # How blocks are reported

A submission that wins a ZKas block reads the wallet and the worker of its connection,
announces the block, sends it to the ZKas node, and reports its acceptance. The
announcement is left out when the accounting layer refuses one of the names.
-/

namespace StratumBridge

open Interaction

variable [Platform] {deployment : Deployment}

/-- The calls of a submission that its reports depend on. -/
inductive ReportCall where
  | correlated (id : Nat)
  | read (context : Context)
  | checked (block : Block) (nonce : Nat)
  | found (hash : Hash) (correlationId : Nat)
  | sent (block : Block) (reply : SubmitReply)
  | accepted (hash : Hash) (correlationId : Nat)

def reportCall : (op : BridgeOp) → op.Answer → Option ReportCall
  | .newCorrelationId, id => some (.correlated id)
  | .context _ .read, context => some (.read context)
  | .checkPow block nonce, _ => some (.checked block nonce)
  | .emit (.blockFound _ _ hash _ correlationId), _ => some (.found hash correlationId)
  | .zkasSubmit block, reply => some (.sent block reply)
  | .emit (.blockAccepted hash correlationId), _ => some (.accepted hash correlationId)
  | _, _ => none

/-- Reads of the connection happen anywhere. -/
def ReportCall.IsRead : ReportCall → Prop
  | .read _ => True
  | _ => False

/-- Before a solution there are only reads and evaluations. -/
def ReportCall.Silent : ReportCall → Prop
  | .read _ | .checked _ _ => True
  | _ => False

theorem ReportCall.IsRead.silent {call : ReportCall} (reads : call.IsRead) : call.Silent := by
  cases call with
  | read context => trivial
  | _ => exact reads.elim

/-- A solved job with the names read for it. -/
structure Solution where
  block : Block
  nonce : Nat
  wallet : Text
  worker : Text
  correlationId : Nat

namespace Solution

variable (settings : Settings) (solution : Solution)

def solved : Block := solution.block.withNonce solution.nonce

/-- The hash a solution is reported under. -/
def chainHash : Hash :=
  (mergedChainHash settings solution.block).getD (Platform.headerHash solution.solved.header)

/-- The accounting layer accepts the names. -/
def Named : Prop := validWallet solution.wallet = true ∧ validWorker solution.worker = true

instance : Decidable solution.Named := inferInstanceAs (Decidable (_ ∧ _))

/-- The announcement of a solution, if there is one. -/
def announced : List ReportCall :=
  if solution.Named then [.found (solution.chainHash settings) solution.correlationId] else []

/-- The block submitted for a solution. -/
inductive Sends (log : Record deployment) (solution : Solution) : Block → Prop where
  | plain (unmerged : deployment.settings.mergedMining = false) : Sends log solution solution.solved
  | merged (merged : deployment.settings.mergedMining = true) (hFc : Hash) (fcBlock : Block)
      (commits : committedHFc solution.block = some hFc)
      (pending : System.Recorded log (.pending (.get hFc)) (some fcBlock)) :
      Sends log solution (assembleAuxBlock solution.solved fcBlock)

end Solution

/-- A task evaluated this solution last, and read its names right after. -/
def Solving (calls : List ReportCall) (solution : Solution) : Prop :=
  ∃ early first second reads,
    calls = .correlated solution.correlationId :: early ++
      .checked solution.block solution.nonce :: .read first :: .read second :: reads ∧
    (∀ call ∈ early, call.Silent) ∧ (∀ call ∈ reads, call.IsRead) ∧
    first.walletAddr = solution.wallet ∧ second.workerName = solution.worker

/-- The block of a solution was sent, and the node took it. -/
def Delivered (log : Record deployment) (calls : List ReportCall) (solution : Solution)
    (block : Block) : Prop :=
  ∃ before reads, Solving before solution ∧ Solution.Sends log solution block ∧
    calls = before ++ solution.announced deployment.settings ++ .sent block .success :: reads ∧
    ∀ call ∈ reads, call.IsRead

/-- What each report presupposes among the calls before it. -/
def ReportPermits (log : Record deployment) (request : BridgeRequest) (calls : List ReportCall) :
    BridgeOp → Prop
  | .emit (.blockFound _ _ hash _ correlationId) => ∃ solution, Solving calls solution ∧
      solution.Named ∧ hash = solution.chainHash deployment.settings ∧
      correlationId = solution.correlationId
  | .zkasSubmit block => ∃ solution before, Solving before solution ∧
      calls = before ++ solution.announced deployment.settings ∧ Solution.Sends log solution block
  | .emit (.blockAccepted hash correlationId) => ∃ solution block,
      Delivered log calls solution block ∧ hash = solution.chainHash deployment.settings ∧
      correlationId = solution.correlationId
  | .spawnConfirm _ _ _ hash _ _ => ∃ solution block before, Delivered log before solution block ∧
      calls = before ++
        [.accepted (solution.chainHash deployment.settings) solution.correlationId] ∧
      hash = Text.ofHash (solution.chainHash deployment.settings)
  | .blockColor hash => ∃ instanceId handle worker nonce blueScore,
      request = .confirmBlock instanceId handle worker hash nonce blueScore
  | _ => True

/-- Tasks report blocks in order. -/
@[reducible] def reports (log : Record deployment) :
    Protocol bridgeSignature BridgeRequest ReportCall BridgeResult where
  select := reportCall
  permits := ReportPermits log
  answers := (provenance log).ensures
  completes := fun _ _ _ => True

/-! ## Tasks obey the protocol -/

/-- The kinds of operations no report needs to order. -/
def unreportedKinds : List Kind := Kind.except [.blockEvent, .zkasSubmit, .blockColor]

/-- The kinds of which the protocol records only reads. -/
def reportNoiseKinds : List Kind :=
  Kind.except [.blockEvent, .zkasSubmit, .blockColor, .checkPow, .correlation]

/-- The kinds of which the protocol records nothing. -/
def unreadKinds : List Kind :=
  Kind.except [.quiet, .blockEvent, .zkasSubmit, .blockColor, .checkPow, .correlation]

variable {log : Record deployment} {request : BridgeRequest} {calls : List ReportCall} {α β : Type}

theorem reportPermits_of_unreported {op : BridgeOp} (other : op.kind ∈ unreportedKinds) :
    ReportPermits log request calls op := by
  have noEvent : Kind.blockEvent ∉ unreportedKinds := by decide
  have noSend : Kind.zkasSubmit ∉ unreportedKinds := by decide
  have noPoll : Kind.blockColor ∉ unreportedKinds := by decide
  unfold ReportPermits
  split
  · exact absurd other noEvent
  · exact absurd other noSend
  · exact absurd other noEvent
  · exact absurd other noEvent
  · exact absurd other noPoll
  · trivial

theorem reads_of_noise {op : BridgeOp} (other : op.kind ∈ reportNoiseKinds) (answer : op.Answer)
    (item : ReportCall) (chosen : reportCall op answer = some item) : item.IsRead := by
  have noEvent : Kind.blockEvent ∉ reportNoiseKinds := by decide
  have noSend : Kind.zkasSubmit ∉ reportNoiseKinds := by decide
  have noCheck : Kind.checkPow ∉ reportNoiseKinds := by decide
  have noDraw : Kind.correlation ∉ reportNoiseKinds := by decide
  unfold reportCall at chosen
  split at chosen
  · exact absurd other noDraw
  · cases chosen
    trivial
  · exact absurd other noCheck
  · exact absurd other noEvent
  · exact absurd other noSend
  · exact absurd other noEvent
  · exact nomatch chosen

/-- A task that reports nothing obeys the protocol. -/
theorem Uses.reportsNothing {kinds : List Kind} {task : Task α} (uses : Uses kinds task)
    (subset : kinds ⊆ unreportedKinds) :
    (reports log).Obeys request calls task fun _ _ => True := by
  apply Protocol.obeys_of_permitted
  induction task with
  | done result => trivial
  | call op next ih =>
      exact ⟨fun _ => reportPermits_of_unreported (subset uses.1),
        fun answer => ih answer (uses.2 answer)⟩

/-- A task of noise adds reads. -/
theorem Uses.addsReads {kinds : List Kind} {task : Task α} (uses : Uses kinds task)
    (subset : kinds ⊆ reportNoiseKinds) :
    (reports log).Obeys request calls task fun after _ =>
      ∃ added, after = calls ++ added ∧ ∀ item ∈ added, item.IsRead := by
  have weaker : reportNoiseKinds ⊆ unreportedKinds := by decide
  apply Protocol.obeys_of_passes
  induction task with
  | done result => trivial
  | call op next ih =>
      exact ⟨⟨fun _ _ => reportPermits_of_unreported (weaker (subset uses.1)),
        reads_of_noise (subset uses.1)⟩, fun answer => ih answer (uses.2 answer)⟩

/-- A task of unrecorded kinds adds nothing. -/
theorem Uses.unread {kinds : List Kind} {task : Task α} (uses : Uses kinds task)
    (subset : kinds ⊆ unreadKinds) : Program.Within (reports log).Ignores task := by
  have weaker : unreadKinds ⊆ reportNoiseKinds := by decide
  have permitted : unreadKinds ⊆ unreportedKinds := by decide
  have noReads : Kind.quiet ∉ unreadKinds := by decide
  induction task with
  | done result => trivial
  | call op next ih =>
      refine ⟨⟨fun _ _ => reportPermits_of_unreported (permitted (subset uses.1)), fun answer => ?_⟩,
        fun answer => ih answer (uses.2 answer)⟩
      refine Option.eq_none_iff_forall_ne_some.mpr fun item chosen => ?_
      have read := reads_of_noise (weaker (subset uses.1)) answer item chosen
      change reportCall op answer = some item at chosen
      unfold reportCall at chosen
      split at chosen
      · cases chosen
        exact read
      · exact noReads (subset uses.1)
      · cases chosen
        exact read
      · cases chosen
        exact read
      · cases chosen
        exact read
      · cases chosen
        exact read
      · exact nomatch chosen

/-- One call, then the rest. -/
theorem report_call (op : BridgeOp) {rest : op.Answer → Task α}
    {post : List ReportCall → α → Prop} (permitted : ReportPermits log request calls op)
    (tail : ∀ answer, (provenance log).ensures op answer →
      (reports log).Obeys request (calls ++ (reportCall op answer).toList) (rest answer) post) :
    (reports log).Obeys request calls (call op >>= rest) post :=
  ⟨permitted, tail⟩

section Solving

variable {solution : Solution}

theorem Solving.append {reads : List ReportCall} (solving : Solving calls solution)
    (noise : ∀ call ∈ reads, call.IsRead) : Solving (calls ++ reads) solution := by
  obtain ⟨early, first, second, later, rfl, silent, laterReads, wallet, worker⟩ := solving
  refine ⟨early, first, second, later ++ reads, ?_, silent, ?_, wallet, worker⟩
  · simp only [List.append_assoc, List.cons_append]
  · intro call member
    rcases List.mem_append.mp member with earlier | last
    · exact laterReads call earlier
    · exact noise call last

/-- A solving task stays so through noise. -/
theorem solving_skip {kinds : List Kind} {first : Task α} {rest : α → Task β}
    {post : List ReportCall → β → Prop} (uses : Uses kinds first)
    (subset : kinds ⊆ reportNoiseKinds) (solving : Solving calls solution)
    (tail : ∀ after result, Solving after solution →
      (reports log).Obeys request after (rest result) post) :
    (reports log).Obeys request calls (first >>= rest) post := by
  refine (uses.addsReads subset).bind fun after result added => ?_
  obtain ⟨reads, rfl, noise⟩ := added
  exact tail _ result (solving.append noise)

theorem Delivered.append {block : Block} {reads : List ReportCall}
    (delivered : Delivered log calls solution block) (noise : ∀ call ∈ reads, call.IsRead) :
    Delivered log (calls ++ reads) solution block := by
  obtain ⟨before, later, solving, sends, rfl, laterReads⟩ := delivered
  refine ⟨before, later ++ reads, solving, sends, ?_, ?_⟩
  · simp only [List.append_assoc, List.cons_append]
  · intro call member
    rcases List.mem_append.mp member with earlier | last
    · exact laterReads call earlier
    · exact noise call last

theorem delivered_skip {kinds : List Kind} {block : Block} {first : Task α} {rest : α → Task β}
    {post : List ReportCall → β → Prop} (uses : Uses kinds first)
    (subset : kinds ⊆ reportNoiseKinds) (delivered : Delivered log calls solution block)
    (tail : ∀ after result, Delivered log after solution block →
      (reports log).Obeys request after (rest result) post) :
    (reports log).Obeys request calls (first >>= rest) post := by
  refine (uses.addsReads subset).bind fun after result added => ?_
  obtain ⟨reads, rfl, noise⟩ := added
  exact tail _ result (delivered.append noise)

end Solving

/-! ## Announcing and sending -/

theorem announce_report {solution : Solution} (solving : Solving calls solution) (daaScore : Nat) :
    (reports log).Obeys request calls
      (emitSome (buildBlockFound solution.wallet solution.worker
        (solution.chainHash deployment.settings) daaScore solution.correlationId))
      fun after _ => after = calls ++ solution.announced deployment.settings := by
  by_cases named : solution.Named
  · have built : buildBlockFound solution.wallet solution.worker
        (solution.chainHash deployment.settings) daaScore solution.correlationId =
          some (.blockFound ⟨solution.wallet, named.1⟩ ⟨solution.worker, named.2⟩
            (solution.chainHash deployment.settings) daaScore solution.correlationId) := by
      simp only [buildBlockFound, WalletAddress.new, dif_pos named.1, WorkerName.new,
        dif_pos named.2, Option.bind_eq_bind, Option.bind_some, Option.pure_def]
    rw [built, Solution.announced, if_pos named]
    exact ⟨⟨solution, solving, named, rfl, rfl⟩, fun _ _ => rfl⟩
  · have built : buildBlockFound solution.wallet solution.worker
        (solution.chainHash deployment.settings) daaScore solution.correlationId = none := by
      by_cases wallet : validWallet solution.wallet = true
      · have worker : ¬ validWorker solution.worker = true := fun valid => named ⟨wallet, valid⟩
        simp only [buildBlockFound, WorkerName.new, dif_neg worker, Option.bind_eq_bind,
          Option.bind_none, Option.bind_fun_none]
      · simp only [buildBlockFound, WalletAddress.new, dif_neg wallet, Option.bind_eq_bind,
          Option.bind_none]
    rw [built, Solution.announced, if_neg named, List.append_nil]
    exact Protocol.obeys_done rfl

/-- What the answer of a submission says about its calls. -/
def SubmittedAs (log : Record deployment) (before : List ReportCall) (solution : Solution)
    (after : List ReportCall) (result : Except Text BlockSubmitOutcome) : Prop :=
  result = .ok .accepted → ∃ block, Solution.Sends log solution block ∧
    after = before ++ solution.announced deployment.settings ++ [.sent block .success]

theorem submitAssembled_report {solution : Solution} {before : List ReportCall} {block : Block}
    (solving : Solving before solution) (sends : Solution.Sends log solution block) :
    (reports log).Obeys request (before ++ solution.announced deployment.settings)
      (submitAssembled block) (SubmittedAs log before solution) := by
  have quiet : Kind.quiet ∈ reportNoiseKinds := by decide
  refine report_call .now trivial fun (now : Nat) _ => ?_
  refine report_call (.tryMarkBlock _ now) trivial fun (marked : Bool) _ => ?_
  change (reports log).Obeys request (_ ++ [] ++ []) _ _
  rw [List.append_nil, List.append_nil]
  cases marked with
  | false => exact Protocol.obeys_done fun absurdity => nomatch absurdity
  | true =>
      refine report_call (.zkasSubmit block) ⟨solution, before, solving, rfl, sends⟩
        fun (reply : SubmitReply) _ => ?_
      cases reply with
      | success => exact Protocol.obeys_done fun _ => ⟨block, sends, rfl⟩
      | reject reason => exact Protocol.obeys_done fun absurdity => nomatch absurdity
      | failed error =>
          dsimp only
          split
          · exact Protocol.obeys_done fun absurdity => nomatch absurdity
          · refine report_call .now trivial fun (later : Nat) _ => ?_
            refine report_call (.unmarkBlock _ later) trivial fun _ _ => ?_
            exact Protocol.obeys_done fun absurdity => nomatch absurdity

theorem submitBlock_report {solution : Solution} {before : List ReportCall}
    (solving : Solving before solution) :
    (reports log).Obeys request (before ++ solution.announced deployment.settings)
      (submitBlock deployment.settings solution.solved) (SubmittedAs log before solution) := by
  unfold submitBlock
  split
  case isFalse plain =>
    exact submitAssembled_report solving (.plain (Bool.eq_false_of_not_eq_true plain))
  case isTrue merged =>
    split
    · exact Protocol.obeys_done fun absurdity => nomatch absurdity
    case h_2 hFc commits =>
      refine report_call (.pending (.get hFc)) trivial fun (found : Option Block) ensured => ?_
      change (reports log).Obeys request (_ ++ []) _ _
      rw [List.append_nil]
      cases found with
      | none => exact Protocol.obeys_done fun absurdity => nomatch absurdity
      | some fcBlock =>
          exact submitAssembled_report solving (.merged merged hFc fcBlock commits ensured.1)

theorem settleAccepted_report {submission : Submission} {solution : Solution} {block : Block}
    (same : submission.correlationId = solution.correlationId)
    (delivered : Delivered log calls solution block) (solved : Block) :
    (reports log).Obeys request calls
      (settleAccepted submission solved (solution.chainHash deployment.settings))
      fun _ _ => True := by
  have quiet : Kind.quiet ∈ reportNoiseKinds := by decide
  have self : reportNoiseKinds ⊆ reportNoiseKinds := List.Subset.refl _
  refine delivered_skip (getCreateStats_uses quiet _ _) self delivered fun counted handle delivered => ?_
  refine delivered_skip (workerContext_uses quiet _ _ _) self delivered
    fun labelled labels delivered => ?_
  refine delivered_skip (uses_quiet quiet (.record (.blockAcceptedByNode labels)) rfl) self delivered
    fun recorded _ delivered => ?_
  rw [same]
  refine report_call (.emit (.blockAccepted _ _)) ⟨solution, block, delivered, rfl, rfl⟩
    fun _ _ => ?_
  exact ⟨⟨solution, block, recorded, delivered, rfl, rfl⟩, fun _ _ => trivial⟩

theorem submitClaimed_report {submission : Submission} {job : Job} {solution : Solution}
    (solving : Solving calls solution) (sameBlock : solution.block = job.block)
    (sameNonce : solution.nonce = submission.nonce)
    (sameId : solution.correlationId = submission.correlationId) (jobId : Nat) :
    (reports log).Obeys request calls
      (submitClaimed deployment.settings submission jobId job solution.wallet solution.worker)
      fun _ _ => True := by
  have quiet : Kind.quiet ∈ reportNoiseKinds := by decide
  have self : reportNoiseKinds ⊆ reportNoiseKinds := List.Subset.refl _
  have rest : ∀ {task : Task Verdict} {after : List ReportCall}, Uses unreportedKinds task →
      (reports log).Obeys request after task fun _ _ => True :=
    fun uses => uses.reportsNothing (List.Subset.refl _)
  have solved : solution.solved = job.block.withNonce submission.nonce := by
    rw [Solution.solved, sameBlock, sameNonce]
  have hash : solution.chainHash deployment.settings =
      (mergedChainHash deployment.settings job.block).getD
        (Platform.headerHash (job.block.withNonce submission.nonce).header) := by
    rw [Solution.chainHash, solved, sameBlock]
  refine solving_skip (uses_quiet quiet (.jobRefresh submission.uid) rfl) self solving
    fun refreshed _ solving => ?_
  refine solving_skip (uses_quiet quiet .systemTime rfl) self solving
    fun timed systemTime solving => ?_
  refine solving_skip (disconnectStale_uses quiet _ _ _) self solving fun before _ solving => ?_
  rw [← hash, ← sameId]
  refine (announce_report solving _).bind ?_
  rintro after _ rfl
  rw [← solved]
  refine (submitBlock_report solving).bind fun submitted result answered => ?_
  cases result with
  | error error =>
      dsimp only
      split
      · exact rest (settleStale_uses (by decide) (by decide) (by decide) (by decide) submission _ _)
      · exact rest (settleBad_uses (by decide) (by decide) (by decide) (by decide) submission _ _)
  | ok outcome =>
      cases outcome with
      | rejectedByNode reason =>
          exact rest ((readContext_uses (by decide) submission.uid).bind fun context =>
            (uses_quiet (by decide) (.record (.blockNotConfirmedBlue _)) rfl).bind fun _ =>
              uses_done _)
      | accepted =>
          obtain ⟨block, sends, rfl⟩ := answered rfl
          have delivered : Delivered log (before ++ solution.announced deployment.settings ++
              [.sent block .success]) solution block :=
            ⟨before, [], solving, sends, rfl, fun _ member => absurd member List.not_mem_nil⟩
          exact (settleAccepted_report sameId.symm delivered _).bind fun _ _ _ =>
            Protocol.obeys_done trivial

/-! ## Evaluating -/

/-- So far a submission only read and evaluated. -/
def Evaluating (correlationId : Nat) (calls : List ReportCall) : Prop :=
  ∃ early, calls = .correlated correlationId :: early ∧ ∀ call ∈ early, call.Silent

theorem Evaluating.append {correlationId : Nat} {more : List ReportCall}
    (evaluating : Evaluating correlationId calls) (silent : ∀ call ∈ more, call.Silent) :
    Evaluating correlationId (calls ++ more) := by
  obtain ⟨early, rfl, quiet⟩ := evaluating
  refine ⟨early ++ more, rfl, ?_⟩
  intro call member
  rcases List.mem_append.mp member with earlier | last
  · exact quiet call earlier
  · exact silent call last

theorem evaluating_skip {kinds : List Kind} {correlationId : Nat} {first : Task α}
    {rest : α → Task β} {post : List ReportCall → β → Prop} (uses : Uses kinds first)
    (subset : kinds ⊆ reportNoiseKinds) (evaluating : Evaluating correlationId calls)
    (tail : ∀ after result, Evaluating correlationId after →
      (reports log).Obeys request after (rest result) post) :
    (reports log).Obeys request calls (first >>= rest) post := by
  refine (uses.addsReads subset).bind fun after result added => ?_
  obtain ⟨reads, rfl, noise⟩ := added
  exact tail _ result (evaluating.append fun call member => (noise call member).silent)

theorem settleSolution_report {submission : Submission} {job : Job}
    (evaluating : Evaluating submission.correlationId calls) (jobId : Nat) (meets : Bool) :
    (reports log).Obeys request (calls ++ [.checked job.block submission.nonce])
      (settleSolution deployment.settings submission jobId job meets) fun _ _ => True := by
  have quiet : Kind.quiet ∈ reportNoiseKinds := by decide
  have self : reportNoiseKinds ⊆ reportNoiseKinds := List.Subset.refl _
  refine report_call (.context submission.uid .read) trivial fun (first : Context) _ => ?_
  refine report_call (.context submission.uid .ensureDefaultWorkerName) trivial fun _ _ => ?_
  refine report_call (.context submission.uid .read) trivial fun (second : Context) _ => ?_
  have solving : Solving (calls ++ [.checked job.block submission.nonce] ++ [.read first] ++ [] ++
      [.read second]) ⟨job.block, submission.nonce, first.walletAddr, second.workerName,
        submission.correlationId⟩ := by
    obtain ⟨early, rfl, silent⟩ := evaluating
    refine ⟨early, first, second, [], ?_, silent, fun _ member => absurd member List.not_mem_nil,
      rfl, rfl⟩
    simp only [List.append_assoc, List.cons_append, List.nil_append]
  have legs : Uses reportNoiseKinds (submitParentThenClaimZkas deployment.settings
      (job.block.withNonce submission.nonce) job.block meets) :=
    submitParentThenClaimZkas_uses deployment.settings (by decide) (by decide) _ _ _
  refine solving_skip legs self solving fun settled legs solving => ?_
  refine solving_skip (workerContext_uses quiet _ _ _) self solving fun labelled labels solving => ?_
  refine solving_skip (uses_quiet quiet .systemTime rfl) self solving
    fun timed systemTime solving => ?_
  refine solving_skip (recordAll_uses _ (mergedParentMetrics_kind quiet (by decide))) self solving
    fun recorded _ solving => ?_
  split
  · exact submitClaimed_report solving rfl rfl rfl jobId
  · exact Protocol.obeys_done trivial

theorem evaluate_report (submission : Submission) (attempts jobId : Nat) (job : Job)
    (invalid : Bool) (evaluating : Evaluating submission.correlationId calls) :
    (reports log).Obeys request calls
      (evaluate deployment.settings submission attempts jobId job invalid) fun _ _ => True := by
  have self : reportNoiseKinds ⊆ reportNoiseKinds := List.Subset.refl _
  induction attempts generalizing jobId job invalid calls with
  | zero => exact Protocol.obeys_done trivial
  | succ attempts ih =>
      refine report_call (.checkPow job.block submission.nonce) trivial fun checked _ => ?_
      obtain ⟨passed, powValue⟩ : Bool × Nat := checked
      have further : Evaluating submission.correlationId
          (calls ++ [.checked job.block submission.nonce]) :=
        evaluating.append fun call member => List.mem_singleton.mp member ▸ trivial
      have target : Uses unreadKinds (mergedFcTarget deployment.settings job.block) :=
        mergedFcTarget_uses deployment.settings (by decide) job.block
      refine Protocol.obeys_bind_of_within (target.unread (List.Subset.refl _))
        fun fcTarget => ?_
      dsimp only
      split
      · exact settleSolution_report evaluating jobId _
      · have done : ∀ {after : List ReportCall} (verdict : Verdict),
            (reports log).Obeys request after (.done verdict) fun _ _ => True :=
          fun _ => Protocol.obeys_done trivial
        refine evaluating_skip (shareDiff_uses submission.uid (by decide) jobId) self further
          fun measured diff further => ?_
        split
        · split
          · exact done _
          · split
            · exact done _
            · refine report_call (.ring submission.uid (.getJob (jobId - 1))) trivial
                fun (previous : Option Job) _ => ?_
              change (reports log).Obeys request (_ ++ []) _ _
              rw [List.append_nil]
              cases previous with
              | some previous => exact ih _ _ _ further
              | none => exact done _
        · exact done _

/-! ## The handler -/

theorem handleDecoded_report (submission : Submission) (job : Job)
    (evaluating : Evaluating submission.correlationId calls) :
    (reports log).Obeys request calls (handleDecoded deployment.settings submission job)
      fun _ _ => True := by
  have quiet : Kind.quiet ∈ reportNoiseKinds := by decide
  have self : reportNoiseKinds ⊆ reportNoiseKinds := List.Subset.refl _
  have checks : Kind.checkSubmission ∈ reportNoiseKinds := by decide
  refine evaluating_skip (uses_quiet quiet .now rfl) self evaluating fun timed now evaluating => ?_
  refine evaluating_skip (uses_perform (.checkSubmission _ _ now) checks) self evaluating
    fun admitted seen evaluating => ?_
  cases (seen : Option DuplicateSubmitOutcome) with
  | some outcome =>
      have replies : Uses unreportedKinds (replyDuplicate submission.uid submission.eventId outcome) :=
        replyDuplicate_uses (by decide) _ _ outcome
      exact replies.reportsNothing (List.Subset.refl _)
  | none =>
      refine (evaluate_report submission _ _ job _ evaluating).bind fun after verdict _ => ?_
      have finishes : Uses unreportedKinds (finishSubmission submission verdict) :=
        finishSubmission_uses submission (by decide) (by decide) (by decide) (by decide) (by decide)
          (by decide) (by decide) (by decide) verdict
      exact finishes.reportsNothing (List.Subset.refl _)

theorem handleSubmit_report (uid : Nat) (event : SubmitEvent) :
    (reports log).Obeys request [] (handleSubmit deployment.settings uid event)
      fun _ _ => True := by
  have quiet : Kind.quiet ∈ reportNoiseKinds := by decide
  have self : reportNoiseKinds ⊆ reportNoiseKinds := List.Subset.refl _
  have rejects : ∀ {after : List ReportCall} (instanceId correlationId : Nat)
      (code : ErrorShortCode) (reason : ShareRejectReason) (error : Text),
      (reports log).Obeys request after
        (rejectSubmission instanceId uid correlationId code reason error) fun _ _ => True := by
    intro after instanceId correlationId code reason error
    have silent : Uses unreportedKinds
        (rejectSubmission instanceId uid correlationId code reason error) :=
      rejectSubmission_uses (by decide) ..
    exact silent.reportsNothing (List.Subset.refl _)
  refine report_call .newCorrelationId trivial fun (correlationId : Nat) _ => ?_
  have started : Evaluating correlationId ([] ++ [.correlated correlationId]) :=
    ⟨[], rfl, fun _ member => absurd member List.not_mem_nil⟩
  refine evaluating_skip (readContext_uses quiet uid) self started
    fun after context evaluating => ?_
  split
  · split
    · exact Protocol.obeys_done trivial
    case h_2 jobId _ =>
      refine evaluating_skip (findJob_uses (by decide) uid jobId) self evaluating
        fun searched found evaluating => ?_
      cases found with
      | none => exact rejects ..
      | some found =>
          dsimp only
          unfold decodeAndHandle
          split
          · exact Protocol.obeys_done trivial
          · refine evaluating_skip (readContext_uses quiet uid) self evaluating
              fun read context evaluating => ?_
            dsimp only
            split
            · exact Protocol.obeys_done trivial
            · refine evaluating_skip (effectiveWorkerName_uses quiet uid) self evaluating
                fun named workerId evaluating => ?_
              exact handleDecoded_report _ _ evaluating
  · exact rejects ..

theorem confirmBlock_report (instanceId handle : Nat) (worker : WorkerContext) (hash : Text)
    (nonce blueScore attempts : Nat) :
    (reports log).Obeys (.confirmBlock instanceId handle worker hash nonce blueScore) calls
      (confirmBlock instanceId handle worker hash nonce blueScore attempts) fun _ _ => True := by
  induction attempts generalizing calls with
  | zero => exact ⟨trivial, fun _ _ => trivial⟩
  | succ attempts ih =>
      refine report_call (.blockColor hash) ⟨instanceId, handle, worker, nonce, blueScore, rfl⟩
        fun blue _ => ?_
      split
      · exact ⟨trivial, fun _ _ => ⟨trivial, fun _ _ => ⟨trivial, fun _ _ => trivial⟩⟩⟩
      · exact ih

/-- **Every task obeys the report protocol.** -/
theorem bridgeProgram_report (request : BridgeRequest) :
    (reports log).Obeys request [] (bridgeProgram deployment.settings request)
      fun _ _ => True := by
  have uses := bridgeProgram_uses deployment.settings request
  have silent : ordinaryKinds ⊆ unreportedKinds := by decide
  cases request with
  | submit uid event =>
      exact (handleSubmit_report uid event).bind fun _ _ _ => Protocol.obeys_done trivial
  | confirmBlock instanceId handle worker hash nonce blueScore =>
      exact (confirmBlock_report ..).bind fun _ _ _ => Protocol.obeys_done trivial
  | _ => exact uses.reportsNothing (BridgeRequest.kinds_subset trivial silent)

/-- **Report protocol.** Every run is explained by it. -/
theorem reports_execute (events : List (bridge deployment).Event) :
    @System.Explained (bridge deployment) ReportCall
      (reports (System.execute events).log) (System.execute events).log :=
  System.explained_execute bridgeProgram_report events (provenance_execute events).ensured

end StratumBridge
