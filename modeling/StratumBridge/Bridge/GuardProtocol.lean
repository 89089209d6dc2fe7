import StratumBridge.Bridge.Provenance
import StratumBridge.Interaction.Recording

/-! # How submissions use the duplicate guard

A submission is decoded, then checked against the guard. Either it is answered with the
outcome it finds there, or it is admitted, evaluated, and records the outcome it is
answered with.
-/

namespace StratumBridge

open Interaction

variable [Platform] {deployment : Deployment}

inductive GuardCall where
  | read (uid : Nat) (context : Context)
  | looked (uid id : Nat) (job : Job)
  | admitted (instanceId : Nat) (key : Text)
  | seen (instanceId : Nat) (key : Text) (outcome : DuplicateSubmitOutcome)
  | checked (block : Block) (nonce : Nat)
  | recorded (instanceId : Nat) (key : Text) (outcome : DuplicateSubmitOutcome)
  /-- A share is counted. -/
  | credited
  /-- The miner is sent the answer to a request. -/
  | told (uid : Nat) (message : Message)

def guardCall : (op : BridgeOp) → op.Answer → Option GuardCall
  | .context uid .read, context => some (.read uid context)
  | .ring uid (.getJob id), some job => some (.looked uid id job)
  | .checkSubmission instanceId key _, none => some (.admitted instanceId key)
  | .checkSubmission instanceId key _, some outcome => some (.seen instanceId key outcome)
  | .checkPow block nonce, _ => some (.checked block nonce)
  | .setOutcome instanceId key _ outcome, _ => some (.recorded instanceId key outcome)
  | .stats _ (.write _ .shareFound), _ => some .credited
  | .send uid (.reply id result), _ => some (.told uid (.reply id result))
  | .send uid (.error id code message), _ => some (.told uid (.error id code message))
  | _, _ => none

/-- Reads decide nothing. -/
def GuardCall.Idle : GuardCall → Prop
  | .read _ _ | .looked _ _ _ => True
  | _ => False

def GuardCall.record : GuardCall → Option (Nat × Text × DuplicateSubmitOutcome)
  | .recorded instanceId key outcome => some (instanceId, key, outcome)
  | _ => none

def GuardCall.tell : GuardCall → Option (Nat × Message)
  | .told uid message => some (uid, message)
  | _ => none

/-- What a miner is told of an outcome. -/
def outcomeReplies (uid : Nat) (eventId : Option Value) :
    DuplicateSubmitOutcome → List (Nat × Message)
  | .accepted | .inFlight => [(uid, .reply eventId true)]
  | .stale => [(uid, .staleShare eventId)]
  | .lowDiff => (eventId.map fun id => (uid, Message.lowDiffShare (some id))).toList
  | .bad => [(uid, .badShare eventId)]

/-- The calls decode the request to this submission, with this text of the nonce. -/
structure Decoded (deployment : Deployment) (request : BridgeRequest) (calls : List GuardCall)
    (submission : Submission) (text : Text) : Prop where
  handler : submission.instanceId = (deployment.contexts submission.uid).instanceId
  key : submission.key = submitKey submission.workerId submission.jobId text
  nonce : Text.parseU64 16 text = some submission.nonce
  worker : ∃ context, .read submission.uid context ∈ calls ∧
    context.workerName = submission.workerId
  job : ∃ job, .looked submission.uid submission.jobId job ∈ calls
  event : ∃ event context nonceText, request = .submit submission.uid event ∧
    submission.eventId = event.id ∧ nonceParam event.params = .ok nonceText ∧
    .read submission.uid context ∈ calls ∧ text = finalNonceText context.extranonce nonceText

theorem Decoded.mono {request : BridgeRequest} {calls more : List GuardCall}
    {submission : Submission} {text : Text}
    (decoded : Decoded deployment request calls submission text) (subset : calls ⊆ more) :
    Decoded deployment request more submission text := by
  obtain ⟨handler, key, nonce, ⟨worker, read, named⟩, ⟨job, looked⟩, event, context, nonceText,
    same, replied, param, alsoRead, spelled⟩ := decoded
  exact ⟨handler, key, nonce, ⟨worker, subset read, named⟩, ⟨job, subset looked⟩, event, context,
    nonceText, same, replied, param, subset alsoRead, spelled⟩

/-- The task evaluates this submission: it was decoded and admitted. -/
def Admitted (deployment : Deployment) (request : BridgeRequest) (calls : List GuardCall)
    (submission : Submission) : Prop :=
  .admitted submission.instanceId submission.key ∈ calls ∧
    ∃ text, Decoded deployment request calls submission text

/-- Submissions are decoded before they are checked, admitted before they are evaluated, and
evaluated before they are credited or recorded. -/
def GuardPermits (deployment : Deployment) (request : BridgeRequest) (calls : List GuardCall) :
    BridgeOp → Prop
  | .checkSubmission instanceId key _ => (∀ call ∈ calls, call.Idle) ∧
      ∃ submission text, Decoded deployment request calls submission text ∧
        submission.instanceId = instanceId ∧ submission.key = key
  | .checkPow _ nonce =>
      ∃ submission, Admitted deployment request calls submission ∧ submission.nonce = nonce
  | .setOutcome instanceId key _ outcome => outcome ≠ .inFlight ∧
      ∃ submission block, Admitted deployment request calls submission ∧
        submission.instanceId = instanceId ∧ submission.key = key ∧
          .checked block submission.nonce ∈ calls
  | .stats _ (.write _ .shareFound) =>
      ∃ submission block, Admitted deployment request calls submission ∧
        .checked block submission.nonce ∈ calls
  | _ => True

/-- The handler of a connection never changes. -/
def GuardAnswers (deployment : Deployment) : (op : BridgeOp) → op.Answer → Prop
  | .context uid .read, context => context.instanceId = (deployment.contexts uid).instanceId
  | _, _ => True

/-- How a submission that finished used the guard. -/
inductive Handled (deployment : Deployment) (request : BridgeRequest) (uid : Nat)
    (eventId : Option Value) (calls : List GuardCall) : Prop where
  | unchecked (idle : ∀ call ∈ calls, call.Idle)
  | duplicate (instanceId : Nat) (key : Text) (outcome : DuplicateSubmitOutcome)
      (before : List GuardCall) (idle : ∀ call ∈ before, call.Idle)
      (same : calls = before ++ .seen instanceId key outcome ::
        (outcomeReplies uid eventId outcome).map fun reply => .told reply.1 reply.2)
  | judged (submission : Submission) (outcome : DuplicateSubmitOutcome)
      (admitted : Admitted deployment request calls submission)
      (evaluated : ∃ block, .checked block submission.nonce ∈ calls)
      (unseen : ∀ instanceId key seen, .seen instanceId key seen ∉ calls)
      (records : calls.filterMap GuardCall.record =
        [(submission.instanceId, submission.key, outcome)])
      (tells : calls.filterMap GuardCall.tell = outcomeReplies uid eventId outcome)

def GuardCompletes (deployment : Deployment) : BridgeRequest → List GuardCall → Prop
  | .submit uid event, calls => Handled deployment (.submit uid event) uid event.id calls
  | _, _ => True

/-- The guard is used in order. -/
@[reducible] def guards (deployment : Deployment) :
    Protocol bridgeSignature BridgeRequest GuardCall BridgeResult where
  select := guardCall
  permits := GuardPermits deployment
  answers := GuardAnswers deployment
  completes := fun request calls _ => GuardCompletes deployment request calls

/-! ## Tasks obey the protocol -/

/-- The kinds of operations that neither use the guard nor evaluate nor credit. -/
def ungatedKinds : List Kind := Kind.except [.checkSubmission, .setOutcome, .checkPow, .creditWrite]

/-- Those of them that answer nothing either. -/
def unguardedKinds : List Kind :=
  Kind.except [.checkSubmission, .setOutcome, .checkPow, .creditWrite, .verdict]

variable {request : BridgeRequest} {calls : List GuardCall} {α β : Type}

theorem idle_of_unguarded {op : BridgeOp} (other : op.kind ∈ unguardedKinds) (answer : op.Answer)
    (item : GuardCall) (chosen : guardCall op answer = some item) : item.Idle := by
  have noGuard : Kind.checkSubmission ∉ unguardedKinds := by decide
  have noOutcome : Kind.setOutcome ∉ unguardedKinds := by decide
  have noCheck : Kind.checkPow ∉ unguardedKinds := by decide
  have noCredit : Kind.creditWrite ∉ unguardedKinds := by decide
  have noVerdict : Kind.verdict ∉ unguardedKinds := by decide
  unfold guardCall at chosen
  split at chosen
  case h_1 | h_2 =>
    cases chosen
    trivial
  case h_3 | h_4 => exact absurd other noGuard
  case h_5 => exact absurd other noCheck
  case h_6 => exact absurd other noOutcome
  case h_7 => exact absurd other noCredit
  case h_8 | h_9 => exact absurd other noVerdict
  case h_10 => exact nomatch chosen

theorem guardPermits_of_ungated {op : BridgeOp} (other : op.kind ∈ ungatedKinds) :
    GuardPermits deployment request calls op := by
  have noGuard : Kind.checkSubmission ∉ ungatedKinds := by decide
  have noOutcome : Kind.setOutcome ∉ ungatedKinds := by decide
  have noCheck : Kind.checkPow ∉ ungatedKinds := by decide
  have noCredit : Kind.creditWrite ∉ ungatedKinds := by decide
  unfold GuardPermits
  split
  · exact absurd other noGuard
  · exact absurd other noCheck
  · exact absurd other noOutcome
  · exact absurd other noCredit
  · trivial

/-- A task of other kinds only adds reads. -/
theorem Uses.staysIdle {kinds : List Kind} {task : Task α} (uses : Uses kinds task)
    (subset : kinds ⊆ unguardedKinds) :
    (guards deployment).Obeys request calls task fun after _ =>
      ∃ added, after = calls ++ added ∧ ∀ call ∈ added, call.Idle := by
  have free : unguardedKinds ⊆ ungatedKinds := by decide
  apply Protocol.obeys_of_passes
  induction task with
  | done result => trivial
  | call op next ih =>
      exact ⟨⟨fun _ _ => guardPermits_of_ungated (free (subset uses.1)),
        idle_of_unguarded (subset uses.1)⟩, fun answer => ih answer (uses.2 answer)⟩

/-- A task that may answer is free to. -/
theorem Uses.ungated {kinds : List Kind} {task : Task α} (uses : Uses kinds task)
    (subset : kinds ⊆ ungatedKinds) :
    (guards deployment).Obeys request calls task fun _ _ => True := by
  apply Protocol.obeys_of_permitted
  induction task with
  | done result => trivial
  | call op next ih =>
      exact ⟨fun _ => guardPermits_of_ungated (subset uses.1),
        fun answer => ih answer (uses.2 answer)⟩

theorem guard_skip {kinds : List Kind} {first : Task α} {rest : α → Task β}
    {post : List GuardCall → β → Prop} (uses : Uses kinds first) (subset : kinds ⊆ unguardedKinds)
    (tail : ∀ added result, (∀ call ∈ added, call.Idle) →
      (guards deployment).Obeys request (calls ++ added) (rest result) post) :
    (guards deployment).Obeys request calls (first >>= rest) post := by
  refine (uses.staysIdle subset).bind fun after result skipped => ?_
  obtain ⟨added, rfl, idle⟩ := skipped
  exact tail added result idle

/-- One call, then the rest. -/
theorem guard_call (op : BridgeOp) {rest : op.Answer → Task α}
    {post : List GuardCall → α → Prop} (permitted : GuardPermits deployment request calls op)
    (tail : ∀ answer, (guards deployment).Obeys request
      (calls ++ (guardCall op answer).toList) (rest answer) post) :
    (guards deployment).Obeys request calls (call op >>= rest) post :=
  ⟨permitted, fun answer _ => tail answer⟩

theorem records_of_idle (idle : ∀ call ∈ calls, call.Idle) :
    calls.filterMap GuardCall.record = [] := by
  refine List.filterMap_eq_nil_iff.mpr fun call member => ?_
  cases call with
  | recorded => exact absurd (idle _ member) id
  | _ => rfl

theorem tells_of_idle (idle : ∀ call ∈ calls, call.Idle) :
    calls.filterMap GuardCall.tell = [] := by
  refine List.filterMap_eq_nil_iff.mpr fun call member => ?_
  cases call with
  | told => exact absurd (idle _ member) id
  | _ => rfl

/-- The calls of an admitted submission, what it recorded and what it told the miner. -/
structure Progress (deployment : Deployment) (request : BridgeRequest) (submission : Submission)
    (calls : List GuardCall) (recorded : List DuplicateSubmitOutcome)
    (told : List (Nat × Message)) : Prop where
  admitted : Admitted deployment request calls submission
  unseen : ∀ instanceId key seen, .seen instanceId key seen ∉ calls
  records : calls.filterMap GuardCall.record =
    recorded.map fun outcome => (submission.instanceId, submission.key, outcome)
  tells : calls.filterMap GuardCall.tell = told

section Progress

variable {submission : Submission} {recorded : List DuplicateSubmitOutcome}
  {told : List (Nat × Message)}

/-- Calls other than duplicates extend what was recorded and told. -/
theorem Progress.append {more : List GuardCall} {added : List DuplicateSubmitOutcome}
    (progress : Progress deployment request submission calls recorded told)
    (unseen : ∀ instanceId key seen, .seen instanceId key seen ∉ more)
    (records : more.filterMap GuardCall.record =
      added.map fun outcome => (submission.instanceId, submission.key, outcome)) :
    Progress deployment request submission (calls ++ more) (recorded ++ added)
      (told ++ more.filterMap GuardCall.tell) := by
  obtain ⟨member, text, decoded⟩ := progress.admitted
  refine ⟨⟨List.mem_append_left _ member, text, decoded.mono (List.subset_append_left _ _)⟩, ?_,
    ?_, ?_⟩
  · intro instanceId key seen inCalls
    rcases List.mem_append.mp inCalls with earlier | later
    · exact progress.unseen instanceId key seen earlier
    · exact unseen instanceId key seen later
  · rw [List.filterMap_append, progress.records, records, List.map_append]
  · rw [List.filterMap_append, progress.tells]

theorem Progress.idle {more : List GuardCall}
    (progress : Progress deployment request submission calls recorded told)
    (idle : ∀ call ∈ more, call.Idle) :
    Progress deployment request submission (calls ++ more) recorded told := by
  have extended : Progress deployment request submission (calls ++ more) (recorded ++ [])
      (told ++ more.filterMap GuardCall.tell) :=
    progress.append (fun _ _ _ member => idle _ member) (records_of_idle idle)
  rwa [tells_of_idle idle, List.append_nil, List.append_nil] at extended

/-- An admitted submission that evaluated a proof of work. -/
structure Judging (deployment : Deployment) (request : BridgeRequest) (submission : Submission)
    (calls : List GuardCall) (recorded : List DuplicateSubmitOutcome)
    (told : List (Nat × Message)) : Prop where
  progress : Progress deployment request submission calls recorded told
  evaluated : ∃ block, .checked block submission.nonce ∈ calls

theorem Judging.idle {more : List GuardCall}
    (judging : Judging deployment request submission calls recorded told)
    (idle : ∀ call ∈ more, call.Idle) :
    Judging deployment request submission (calls ++ more) recorded told := by
  obtain ⟨block, member⟩ := judging.evaluated
  exact ⟨judging.progress.idle idle, block, List.mem_append_left _ member⟩

theorem Judging.record {outcome : DuplicateSubmitOutcome}
    (judging : Judging deployment request submission calls [] told) :
    Judging deployment request submission
      (calls ++ [.recorded submission.instanceId submission.key outcome]) [outcome] told := by
  obtain ⟨block, member⟩ := judging.evaluated
  have extended : Progress deployment request submission
      (calls ++ [.recorded submission.instanceId submission.key outcome]) ([] ++ [outcome])
      (told ++ []) :=
    judging.progress.append (fun _ _ _ member => nomatch List.mem_singleton.mp member) rfl
  rw [List.append_nil] at extended
  exact ⟨extended, block, List.mem_append_left _ member⟩

theorem Judging.tell {message : Message}
    (judging : Judging deployment request submission calls recorded []) :
    Judging deployment request submission (calls ++ [.told submission.uid message]) recorded
      [(submission.uid, message)] := by
  obtain ⟨block, member⟩ := judging.evaluated
  have extended : Progress deployment request submission
      (calls ++ [.told submission.uid message]) (recorded ++ [])
      ([] ++ [(submission.uid, message)]) :=
    judging.progress.append (fun _ _ _ member => nomatch List.mem_singleton.mp member) rfl
  rw [List.append_nil] at extended
  exact ⟨extended, block, List.mem_append_left _ member⟩

theorem Judging.tellLowDiff
    (judging : Judging deployment request submission calls recorded []) :
    Judging deployment request submission
      (calls ++ (outcomeReplies submission.uid submission.eventId .lowDiff).map fun reply =>
        .told reply.1 reply.2) recorded
      (outcomeReplies submission.uid submission.eventId .lowDiff) := by
  cases submission.eventId with
  | none => exact (List.append_nil calls).symm ▸ judging
  | some id => exact judging.tell

theorem Judging.credit (judging : Judging deployment request submission calls recorded told) :
    Judging deployment request submission (calls ++ [.credited]) recorded told := by
  obtain ⟨block, member⟩ := judging.evaluated
  have extended : Progress deployment request submission (calls ++ [.credited]) (recorded ++ [])
      (told ++ []) :=
    judging.progress.append (fun _ _ _ member => nomatch List.mem_singleton.mp member) rfl
  rw [List.append_nil, List.append_nil] at extended
  exact ⟨extended, block, List.mem_append_left _ member⟩

/-- What a submission that was judged leaves behind. -/
theorem Judging.handled {uid : Nat} {eventId : Option Value} {outcome : DuplicateSubmitOutcome}
    (judging : Judging deployment request submission calls [outcome]
      (outcomeReplies uid eventId outcome)) :
    Handled deployment request uid eventId calls :=
  .judged submission outcome judging.progress.admitted judging.evaluated judging.progress.unseen
    judging.progress.records judging.progress.tells

end Progress

section Submission

variable {submission : Submission} {told : List (Nat × Message)}

/-- Recording an outcome, then the rest. -/
theorem setOutcome_guard {outcome : DuplicateSubmitOutcome} {rest : Task α}
    {post : List GuardCall → α → Prop} (actual : outcome ≠ .inFlight)
    (judging : Judging deployment request submission calls [] told)
    (tail : ∀ after, Judging deployment request submission after [outcome] told →
      (guards deployment).Obeys request after rest post) :
    (guards deployment).Obeys request calls (do
      setOutcome submission outcome
      rest) post := by
  refine guard_call .now trivial fun (now : Nat) => ?_
  refine guard_call (.setOutcome submission.instanceId submission.key now outcome) ?_ fun _ => ?_
  · have judging := judging.idle fun _ member => absurd member List.not_mem_nil
    obtain ⟨block, checked⟩ := judging.evaluated
    exact ⟨actual, submission, block, judging.progress.admitted, rfl, rfl, checked⟩
  · refine tail _ ?_
    change Judging deployment request submission (calls ++ [] ++ [.recorded _ _ _]) _ _
    rw [List.append_nil]
    exact judging.record

/-- Telling the miner. -/
theorem answer_guard {uid : Nat} {message : Message}
    (isTold : ∀ delivered, guardCall (.send uid message) delivered = some (.told uid message)) :
    (guards deployment).Obeys request calls (reply uid message) fun after _ =>
      after = calls ++ [.told uid message] := by
  refine guard_call (.send uid message) trivial fun (delivered : Bool) => ?_
  rw [isTold]
  cases delivered <;> exact Protocol.obeys_done rfl

/-- How the evaluation of a submission left its calls. -/
def Evaluated (deployment : Deployment) (request : BridgeRequest) (submission : Submission)
    (calls : List GuardCall) : Verdict → Prop
  | .answered _ => ∃ outcome, Judging deployment request submission calls [outcome]
      (outcomeReplies submission.uid submission.eventId outcome)
  | .weak | .credit _ _ => Judging deployment request submission calls [] []

theorem settleStale_guard (judging : Judging deployment request submission calls [] [])
    (wallet worker : Text) :
    (guards deployment).Obeys request calls (settleStale submission wallet worker)
      (Evaluated deployment request submission) := by
  have quiet : Kind.quiet ∈ unguardedKinds := by decide
  have counts : Kind.countWrite ∈ unguardedKinds := by decide
  have self : unguardedKinds ⊆ unguardedKinds := List.Subset.refl _
  refine setOutcome_guard (by decide) judging fun after judging => ?_
  refine guard_skip (getCreateStats_uses quiet _ _) self fun found handle foundIdle => ?_
  refine guard_skip (writeCount_uses counts _ handle rfl) self fun counted _ countedIdle => ?_
  refine guard_skip (writeOverall_uses counts _ rfl) self fun overall _ overallIdle => ?_
  refine guard_skip (workerContext_uses quiet _ _ _) self fun labelled labels labelledIdle => ?_
  refine guard_skip (uses_quiet quiet _ rfl) self fun recorded _ recordedIdle => ?_
  refine guard_skip (emitRejected_uses quiet _ _ _ _) self fun emitted _ emittedIdle => ?_
  refine (answer_guard fun _ => rfl).bind ?_
  rintro _ _ rfl
  exact Protocol.obeys_done ⟨.stale, ((((((judging.idle foundIdle).idle countedIdle).idle
    overallIdle).idle labelledIdle).idle recordedIdle).idle emittedIdle).tell⟩

theorem settleBad_guard (judging : Judging deployment request submission calls [] [])
    (wallet worker : Text) :
    (guards deployment).Obeys request calls (settleBad submission wallet worker)
      (Evaluated deployment request submission) := by
  have quiet : Kind.quiet ∈ unguardedKinds := by decide
  have counts : Kind.countWrite ∈ unguardedKinds := by decide
  have self : unguardedKinds ⊆ unguardedKinds := List.Subset.refl _
  refine guard_skip (getCreateStats_uses quiet _ _) self fun found handle foundIdle => ?_
  refine guard_skip (writeCount_uses counts _ handle rfl) self fun counted _ countedIdle => ?_
  refine guard_skip (writeOverall_uses counts _ rfl) self fun overall _ overallIdle => ?_
  refine guard_skip (workerContext_uses quiet _ _ _) self fun labelled labels labelledIdle => ?_
  refine guard_skip (uses_quiet quiet _ rfl) self fun recorded _ recordedIdle => ?_
  refine guard_skip (emitRejected_uses quiet _ _ _ _) self fun emitted _ emittedIdle => ?_
  refine setOutcome_guard (by decide) ((((((judging.idle foundIdle).idle countedIdle).idle
    overallIdle).idle labelledIdle).idle recordedIdle).idle emittedIdle) fun after judging => ?_
  refine (answer_guard fun _ => rfl).bind ?_
  rintro _ _ rfl
  exact Protocol.obeys_done ⟨.bad, judging.tell⟩

theorem submitClaimed_guard (judging : Judging deployment request submission calls [] [])
    (jobId : Nat) (job : Job) (wallet worker : Text) :
    (guards deployment).Obeys request calls
      (submitClaimed deployment.settings submission jobId job wallet worker)
      (Evaluated deployment request submission) := by
  have quiet : Kind.quiet ∈ unguardedKinds := by decide
  have reports : Kind.blockEvent ∈ unguardedKinds := by decide
  have self : unguardedKinds ⊆ unguardedKinds := List.Subset.refl _
  refine guard_skip (uses_quiet quiet (.jobRefresh submission.uid) rfl) self
    fun refreshed _ refreshedIdle => ?_
  refine guard_skip (uses_quiet quiet .systemTime rfl) self fun timed systemTime timedIdle => ?_
  refine guard_skip (disconnectStale_uses quiet _ _ _) self fun dropped _ droppedIdle => ?_
  refine guard_skip (emitFound_uses reports ..) self fun announced _ announcedIdle => ?_
  have submits : Uses unguardedKinds
      (submitBlock deployment.settings (job.block.withNonce submission.nonce)) :=
    submitBlock_uses deployment.settings quiet (by decide) (by decide) _
  refine guard_skip submits self fun sent result sentIdle => ?_
  have judging := ((((judging.idle refreshedIdle).idle timedIdle).idle droppedIdle).idle
    announcedIdle).idle sentIdle
  cases result with
  | error error =>
      dsimp only
      split
      · exact settleStale_guard judging wallet worker
      · exact settleBad_guard judging wallet worker
  | ok outcome =>
      cases outcome with
      | rejectedByNode reason =>
          refine guard_skip (readContext_uses quiet _) self fun read context readIdle => ?_
          refine guard_skip (uses_quiet quiet (.record (.blockNotConfirmedBlue _)) rfl) self
            fun recorded _ recordedIdle => ?_
          exact Protocol.obeys_done ((judging.idle readIdle).idle recordedIdle)
      | accepted =>
          refine guard_skip (settleAccepted_uses quiet reports _ _ _) self
            fun settled _ settledIdle => ?_
          exact Protocol.obeys_done (judging.idle settledIdle)

theorem settleSolution_guard (judging : Judging deployment request submission calls [] [])
    (jobId : Nat) (job : Job) (meets : Bool) :
    (guards deployment).Obeys request calls
      (settleSolution deployment.settings submission jobId job meets)
      (Evaluated deployment request submission) := by
  have quiet : Kind.quiet ∈ unguardedKinds := by decide
  have self : unguardedKinds ⊆ unguardedKinds := List.Subset.refl _
  have legs : Uses unguardedKinds (submitParentThenClaimZkas deployment.settings
      (job.block.withNonce submission.nonce) job.block meets) :=
    submitParentThenClaimZkas_uses deployment.settings (by decide) (by decide) _ _ _
  refine guard_skip (walletAddr_uses quiet _) self fun first wallet firstIdle => ?_
  refine guard_skip (effectiveWorkerName_uses quiet _) self fun second worker secondIdle => ?_
  refine guard_skip legs self fun settled legs settledIdle => ?_
  refine guard_skip (workerContext_uses quiet _ _ _) self fun labelled labels labelledIdle => ?_
  refine guard_skip (uses_quiet quiet .systemTime rfl) self fun timed systemTime timedIdle => ?_
  refine guard_skip (recordAll_uses _ (mergedParentMetrics_kind quiet (by decide))) self
    fun recorded _ recordedIdle => ?_
  have judging := (((((judging.idle firstIdle).idle secondIdle).idle settledIdle).idle
    labelledIdle).idle timedIdle).idle recordedIdle
  split
  · exact submitClaimed_guard judging jobId job wallet worker
  · exact Protocol.obeys_done judging

/-- Evaluating a proof of work, then the rest. -/
theorem checkPow_guard {block : Block} {rest : Bool × Nat → Task α}
    {post : List GuardCall → α → Prop}
    (progress : Progress deployment request submission calls [] [])
    (tail : ∀ after answer, Judging deployment request submission after [] [] →
      (guards deployment).Obeys request after (rest answer) post) :
    (guards deployment).Obeys request calls (call (.checkPow block submission.nonce) >>= rest)
      post := by
  refine guard_call (.checkPow block submission.nonce) ⟨submission, progress.admitted, rfl⟩
    fun answer => tail _ answer ?_
  have extended : Progress deployment request submission
      (calls ++ [.checked block submission.nonce]) ([] ++ []) ([] ++ []) :=
    progress.append (fun _ _ _ member => nomatch List.mem_singleton.mp member) rfl
  exact ⟨extended, block, List.mem_append_right _ List.mem_cons_self⟩

theorem evaluate_guard (attempts jobId : Nat) (job : Job) (invalid : Bool)
    (progress : Progress deployment request submission calls [] [])
    (evaluated : attempts = 0 → ∃ block, .checked block submission.nonce ∈ calls) :
    (guards deployment).Obeys request calls
      (evaluate deployment.settings submission attempts jobId job invalid)
      (Evaluated deployment request submission) := by
  have self : unguardedKinds ⊆ unguardedKinds := List.Subset.refl _
  induction attempts generalizing jobId job invalid calls with
  | zero => exact Protocol.obeys_done ⟨progress, evaluated rfl⟩
  | succ attempts ih =>
      refine checkPow_guard progress fun after checked judging => ?_
      obtain ⟨passed, powValue⟩ : Bool × Nat := checked
      refine guard_skip (mergedFcTarget_uses deployment.settings (by decide) job.block) self
        fun targeted fcTarget targetedIdle => ?_
      dsimp only
      split
      · exact settleSolution_guard (judging.idle targetedIdle) jobId job _
      · refine guard_skip (shareDiff_uses submission.uid (by decide) jobId) self
          fun measured diff measuredIdle => ?_
        have judging := (judging.idle targetedIdle).idle measuredIdle
        have missed : ∀ invalid : Bool, Evaluated deployment request submission
            (after ++ targeted ++ measured)
            (if invalid then Verdict.weak else .credit jobId job) := by
          intro invalid
          cases invalid <;> exact judging
        split
        · split
          · exact Protocol.obeys_done (missed _)
          · split
            · exact Protocol.obeys_done (missed _)
            · have reads : Kind.jobRead ∈ unguardedKinds := by decide
              refine guard_skip (uses_perform (.ring submission.uid (.getJob (jobId - 1))) reads)
                self fun searched previous searchedIdle => ?_
              have judging := judging.idle searchedIdle
              cases (previous : Option Job) with
              | some previous => exact ih _ _ _ judging.progress fun _ => judging.evaluated
              | none =>
                  refine Protocol.obeys_done ?_
                  split <;> exact judging
        · exact Protocol.obeys_done judging

theorem replyLowDiff_guard (uid : Nat) (eventId : Option Value) :
    (guards deployment).Obeys request calls (replyLowDiff uid eventId) fun after _ =>
      after = calls ++ (outcomeReplies uid eventId .lowDiff).map fun reply =>
        .told reply.1 reply.2 := by
  cases eventId with
  | none => exact Protocol.obeys_done (List.append_nil _).symm
  | some id =>
      refine (answer_guard fun _ => rfl).bind ?_
      rintro _ _ rfl
      exact Protocol.obeys_done rfl

theorem creditWeak_guard (judging : Judging deployment request submission calls [] [])
    (handle : Nat) :
    (guards deployment).Obeys request calls (creditWeak submission handle) fun after _ =>
      Handled deployment request submission.uid submission.eventId after := by
  have quiet : Kind.quiet ∈ unguardedKinds := by decide
  have counts : Kind.countWrite ∈ unguardedKinds := by decide
  have self : unguardedKinds ⊆ unguardedKinds := List.Subset.refl _
  refine guard_skip (writeCount_uses counts _ handle rfl) self fun counted _ countedIdle => ?_
  refine guard_skip (writeOverall_uses counts _ rfl) self fun overall _ overallIdle => ?_
  refine guard_skip (walletAddr_uses quiet _) self fun first wallet firstIdle => ?_
  refine guard_skip (workerName_uses quiet _) self fun second worker secondIdle => ?_
  refine guard_skip (workerContext_uses quiet _ _ _) self fun labelled labels labelledIdle => ?_
  refine guard_skip (uses_quiet quiet (.record (.weakShare labels)) rfl) self
    fun recorded _ recordedIdle => ?_
  refine guard_skip (emitRejected_uses quiet _ _ _ _) self fun emitted _ emittedIdle => ?_
  have judging := ((((((judging.idle countedIdle).idle overallIdle).idle firstIdle).idle
    secondIdle).idle labelledIdle).idle recordedIdle).idle emittedIdle
  refine (replyLowDiff_guard submission.uid submission.eventId).bind ?_
  rintro _ _ rfl
  exact setOutcome_guard (by decide) judging.tellLowDiff fun after judging =>
    Protocol.obeys_done judging.handled

theorem creditShare_guard (judging : Judging deployment request submission calls [] [])
    (jobId : Nat) (job : Job) :
    (guards deployment).Obeys request calls (creditShare submission jobId job) fun after _ =>
      Handled deployment request submission.uid submission.eventId after := by
  have quiet : Kind.quiet ∈ unguardedKinds := by decide
  have counts : Kind.countWrite ∈ unguardedKinds := by decide
  have reads : Kind.diffRead ∈ unguardedKinds := by decide
  have weighs : Kind.diffWrite ∈ unguardedKinds := by decide
  have reports : Kind.shareEvent ∈ unguardedKinds := by decide
  have self : unguardedKinds ⊆ unguardedKinds := List.Subset.refl _
  refine guard_skip (getCreateStats_uses quiet _ _) self fun found handle foundIdle => ?_
  have judging := judging.idle foundIdle
  obtain ⟨block, checked⟩ := judging.evaluated
  refine guard_call (.stats submission.instanceId (.write handle .shareFound))
    ⟨submission, block, judging.progress.admitted, checked⟩ fun _ => ?_
  refine guard_skip (writeStats_uses quiet _ handle rfl) self fun first _ firstIdle => ?_
  refine guard_skip (shareDiff_uses _ reads _) self fun measured diff measuredIdle => ?_
  refine guard_skip (uses_perform (.stats _ (.write handle (.addSharesDiff _))) weighs) self
    fun second _ secondIdle => ?_
  refine guard_skip (uses_quiet quiet .now rfl) self fun timed now timedIdle => ?_
  refine guard_skip (writeStats_uses quiet _ handle rfl) self fun third _ thirdIdle => ?_
  refine guard_skip (writeOverall_uses counts _ rfl) self fun overall _ overallIdle => ?_
  refine guard_skip (walletAddr_uses quiet _) self fun named wallet namedIdle => ?_
  refine guard_skip (workerName_uses quiet _) self fun known worker knownIdle => ?_
  refine guard_skip (workerContext_uses quiet _ _ _) self fun labelled labels labelledIdle => ?_
  refine guard_skip (uses_quiet quiet (.record (.shareFound labels _)) rfl) self
    fun recorded _ recordedIdle => ?_
  refine guard_skip (emitCredited_uses reports ..) self fun emitted _ emittedIdle => ?_
  have judging := ((((((((((judging.credit.idle firstIdle).idle measuredIdle).idle secondIdle).idle
    timedIdle).idle thirdIdle).idle overallIdle).idle namedIdle).idle knownIdle).idle
      labelledIdle).idle recordedIdle).idle emittedIdle
  refine setOutcome_guard (by decide) judging fun after judging => ?_
  refine (answer_guard fun _ => rfl).mono ?_
  rintro _ _ rfl
  exact judging.tell.handled

theorem finishSubmission_guard {verdict : Verdict}
    (evaluated : Evaluated deployment request submission calls verdict) :
    (guards deployment).Obeys request calls (finishSubmission submission verdict) fun after _ =>
      Handled deployment request submission.uid submission.eventId after := by
  have quiet : Kind.quiet ∈ unguardedKinds := by decide
  have self : unguardedKinds ⊆ unguardedKinds := List.Subset.refl _
  cases verdict with
  | answered result =>
      obtain ⟨outcome, judging⟩ := evaluated
      exact Protocol.obeys_done judging.handled
  | weak =>
      refine guard_skip (getCreateStats_uses quiet _ _) self fun found handle foundIdle => ?_
      have judging : Judging deployment request submission calls [] [] := evaluated
      exact creditWeak_guard (judging.idle foundIdle) handle
  | credit jobId job =>
      refine guard_skip (getCreateStats_uses quiet _ _) self fun found handle foundIdle => ?_
      have judging : Judging deployment request submission calls [] [] := evaluated
      exact creditShare_guard (judging.idle foundIdle) jobId job

theorem replyDuplicate_guard (uid : Nat) (eventId : Option Value)
    (outcome : DuplicateSubmitOutcome) :
    (guards deployment).Obeys request calls (replyDuplicate uid eventId outcome) fun after _ =>
      after = calls ++ (outcomeReplies uid eventId outcome).map fun reply =>
        .told reply.1 reply.2 := by
  cases outcome with
  | lowDiff =>
      refine (replyLowDiff_guard uid eventId).bind ?_
      rintro _ _ rfl
      exact Protocol.obeys_done rfl
  | accepted | inFlight | stale | bad => exact answer_guard fun _ => rfl

theorem handleDecoded_guard {text : Text} (job : Job)
    (decoded : Decoded deployment request calls submission text)
    (idle : ∀ call ∈ calls, call.Idle) :
    (guards deployment).Obeys request calls (handleDecoded deployment.settings submission job)
      fun after _ => Handled deployment request submission.uid submission.eventId after := by
  refine guard_call .now trivial fun (now : Nat) => ?_
  change (guards deployment).Obeys request (calls ++ []) _ _
  rw [List.append_nil]
  refine guard_call (.checkSubmission submission.instanceId submission.key now)
    ⟨idle, submission, text, decoded, rfl, rfl⟩ fun seen => ?_
  cases (seen : Option DuplicateSubmitOutcome) with
  | some outcome =>
      refine (replyDuplicate_guard submission.uid submission.eventId outcome).mono ?_
      rintro _ _ rfl
      exact .duplicate submission.instanceId submission.key outcome calls idle
        (List.append_assoc ..)
  | none =>
      have progress : Progress deployment request submission
          (calls ++ [.admitted submission.instanceId submission.key]) [] [] := by
        refine ⟨⟨List.mem_append_right _ List.mem_cons_self, text,
          decoded.mono (List.subset_append_left _ _)⟩, ?_, ?_, ?_⟩
        · intro instanceId key outcome member
          rcases List.mem_append.mp member with earlier | last
          · exact idle _ earlier
          · exact nomatch List.mem_singleton.mp last
        · rw [List.filterMap_append, records_of_idle idle]
          rfl
        · rw [List.filterMap_append, tells_of_idle idle]
          rfl
      refine (evaluate_guard maxCompatJobAttempts submission.jobId job false progress
        fun none => (nomatch none)).bind fun after verdict evaluated => ?_
      exact finishSubmission_guard evaluated

end Submission

theorem effectiveWorkerName_guard (uid : Nat) :
    (guards deployment).Obeys request calls (effectiveWorkerName uid) fun after worker =>
      ∃ named, after = calls ++ [.read uid named] ∧ named.workerName = worker := by
  refine guard_call (.context uid .ensureDefaultWorkerName) trivial fun _ => ?_
  refine guard_call (.context uid .read) trivial fun (named : Context) => ?_
  exact Protocol.obeys_done ⟨named, by simp [guardCall], rfl⟩

/-- The job a submission is found to name was looked up. -/
theorem findJob_guard (uid jobId : Nat) :
    (guards deployment).Obeys request calls (findJob uid jobId) fun after found =>
      ∃ added, after = calls ++ added ∧ (∀ call ∈ added, call.Idle) ∧
        ∀ id job, found = some (id, job) → .looked uid id job ∈ added := by
  refine guard_call (.ring uid (.getJob jobId)) trivial fun (job : Option Job) => ?_
  cases job with
  | some job =>
      refine Protocol.obeys_done ⟨[.looked uid jobId job], rfl, ?_, ?_⟩
      · intro call member
        obtain rfl := List.mem_singleton.mp member
        trivial
      · intro id other same
        cases same
        exact List.mem_cons_self
  | none =>
      refine guard_call (.ring uid .storedJobIds) trivial fun (ids : List Nat) => ?_
      cases ids.max? with
      | none =>
          refine Protocol.obeys_done ⟨[], by simp [guardCall], ?_, ?_⟩
          · exact fun _ member => absurd member List.not_mem_nil
          · exact fun _ _ absurdity => nomatch absurdity
      | some newest =>
          refine guard_call (.ring uid (.getJob newest)) trivial fun (latest : Option Job) => ?_
          cases latest with
          | some job =>
              refine Protocol.obeys_done ⟨[.looked uid newest job], by simp [guardCall], ?_, ?_⟩
              · intro call member
                obtain rfl := List.mem_singleton.mp member
                trivial
              · intro id other same
                cases same
                exact List.mem_cons_self
          | none =>
              refine Protocol.obeys_done ⟨[], by simp [guardCall], ?_, ?_⟩
              · exact fun _ member => absurd member List.not_mem_nil
              · exact fun _ _ absurdity => nomatch absurdity

theorem idle_append {more : List GuardCall} (first : ∀ call ∈ calls, call.Idle)
    (second : ∀ call ∈ more, call.Idle) : ∀ call ∈ calls ++ more, call.Idle := by
  intro call member
  rcases List.mem_append.mp member with earlier | later
  · exact first call earlier
  · exact second call later

theorem decodeAndHandle_guard {uid : Nat} {event : SubmitEvent} {instanceId correlationId jobId : Nat}
    {job : Job} (idle : ∀ call ∈ calls, call.Idle)
    (handler : instanceId = (deployment.contexts uid).instanceId)
    (looked : .looked uid jobId job ∈ calls) :
    (guards deployment).Obeys (.submit uid event) calls
      (decodeAndHandle deployment.settings instanceId uid correlationId event jobId job)
      fun after _ => Handled deployment (.submit uid event) uid event.id after := by
  have quiet : Kind.quiet ∈ unguardedKinds := by decide
  have self : unguardedKinds ⊆ unguardedKinds := List.Subset.refl _
  unfold decodeAndHandle
  split
  · exact Protocol.obeys_done (.unchecked idle)
  case h_2 nonceText param =>
    refine guard_call (.context uid .read) trivial fun (context : Context) => ?_
    have readIdle : ∀ call ∈ calls ++ [.read uid context], call.Idle :=
      idle_append idle fun call member => List.mem_singleton.mp member ▸ trivial
    dsimp only
    split
    · exact Protocol.obeys_done (.unchecked readIdle)
    case h_2 nonce parsed =>
      refine (effectiveWorkerName_guard uid).bind ?_
      rintro _ _ ⟨named, rfl, rfl⟩
      have silent : ∀ call ∈ calls ++ [.read uid context] ++ [.read uid named], call.Idle :=
        idle_append readIdle fun call member => List.mem_singleton.mp member ▸ trivial
      refine handleDecoded_guard job ⟨handler, rfl, parsed, ⟨named, ?_, rfl⟩, ⟨job, ?_⟩, event, context,
        nonceText, rfl, rfl, param, ?_, rfl⟩ silent
      · exact List.mem_append_right _ List.mem_cons_self
      · exact List.mem_append_left _ (List.mem_append_left _ looked)
      · exact List.mem_append_left _ (List.mem_append_right _ List.mem_cons_self)

theorem handleSubmit_guard (uid : Nat) (event : SubmitEvent) :
    (guards deployment).Obeys (.submit uid event) [] (handleSubmit deployment.settings uid event)
      fun after _ => Handled deployment (.submit uid event) uid event.id after := by
  have quiet : Kind.quiet ∈ unguardedKinds := by decide
  have correlates : Kind.correlation ∈ unguardedKinds := by decide
  have self : unguardedKinds ⊆ unguardedKinds := List.Subset.refl _
  have stop : ∀ {calls : List GuardCall} {task : Task (Except Text Unit)},
      (∀ call ∈ calls, call.Idle) → Uses unguardedKinds task →
        (guards deployment).Obeys (.submit uid event) calls task fun after _ =>
          Handled deployment (.submit uid event) uid event.id after := by
    intro calls task idle uses
    refine (uses.staysIdle self).mono ?_
    rintro after _ ⟨added, rfl, addedIdle⟩
    exact .unchecked (idle_append idle addedIdle)
  refine guard_skip (uses_perform .newCorrelationId correlates) self
    fun drawn correlationId drawnIdle => ?_
  refine ⟨trivial, fun (context : Context) handler => ?_⟩
  have readIdle : ∀ call ∈ [] ++ drawn ++ [.read uid context], call.Idle :=
    idle_append drawnIdle fun call member => List.mem_singleton.mp member ▸ trivial
  dsimp only
  split
  · split
    · exact stop readIdle (uses_done _)
    case h_2 jobId _ =>
      refine (findJob_guard uid jobId).bind ?_
      rintro _ found ⟨searched, rfl, searchedIdle, looked⟩
      have searching := idle_append readIdle searchedIdle
      cases found with
      | none => exact stop searching (rejectSubmission_uses quiet ..)
      | some found =>
          exact decodeAndHandle_guard searching handler
            (List.mem_append_right _ (looked _ _ rfl))
  · exact stop readIdle (rejectSubmission_uses quiet ..)

/-- **Every task uses the guard in order.** -/
theorem bridgeProgram_guard (request : BridgeRequest) :
    (guards deployment).Obeys request [] (bridgeProgram deployment.settings request)
      fun after _ => GuardCompletes deployment request after := by
  have uses := bridgeProgram_uses deployment.settings request
  cases request with
  | submit uid event =>
      exact (handleSubmit_guard uid event).bind fun _ _ handled => Protocol.obeys_done handled
  | confirmBlock instanceId handle worker hash nonce blueScore =>
      have confirms : confirmationKinds ⊆ ungatedKinds := by decide
      exact uses.ungated confirms
  | _ =>
      have silent : ordinaryKinds ⊆ ungatedKinds := by decide
      exact uses.ungated (BridgeRequest.kinds_subset trivial silent)

/-- The handler of a connection never changes. -/
theorem instanceId_execute (events : List (bridge deployment).Event) (uid : Nat) :
    ((System.execute events).state.contexts uid).instanceId =
      (deployment.contexts uid).instanceId := by
  refine System.execute_induction (fun config : (bridge deployment).Config =>
    (config.state.contexts uid).instanceId = (deployment.contexts uid).instanceId) rfl ?_
    (System.along_true : System.Along (fun _ _ => True) events)
  intro config event after ih _ step
  cases step with
  | stutter | start | finish => exact ih
  | call thread env op next answer state running performed =>
      refine Eq.trans ?_ ih
      refine (performOp_field Context.instanceId (fun _ instanceId => instanceId) ?_ performed).trans ?_
      · intro op context next answer acted
        cases op with
        | lockJobBuild =>
            obtain ⟨-, same⟩ := Option.ite_none_left_eq_some.mp acted
            cases same
            rfl
        | ensureDefaultWorkerName =>
            cases acted
            exact apply_ite Context.instanceId _ _ _ |>.trans (ite_self _)
        | _ =>
            cases acted
            rfl
      · cases op with
        | context other op => exact ite_self _
        | _ => rfl

/-- Reads of a connection answer with its handler. -/
theorem guardAnswers_of_did {events : List (bridge deployment).Event} {thread : Nat}
    {op : BridgeOp} {answer : op.Answer}
    (member : .did thread op answer ∈ (System.execute events).log) :
    GuardAnswers deployment op answer := by
  cases op with
  | context uid op =>
      cases op with
      | read =>
          obtain ⟨front, back, split⟩ := List.append_of_mem member
          obtain ⟨before, event, rest, -, rfl, -, env, after, performed⟩ :=
            System.exists_calls_of_did split
          cases performed
          exact instanceId_execute before uid
      | _ => trivial
  | _ => trivial

/-- **Guard protocol.** Every run is explained by it. -/
theorem guards_execute (events : List (bridge deployment).Event) :
    @System.Explained (bridge deployment) GuardCall (guards deployment)
      (System.execute events).log :=
  System.explained_execute bridgeProgram_guard events fun _ _ _ member => guardAnswers_of_did member

/-! ## What a run says of one task -/

/-- Which operation a recorded call is. -/
inductive Guarded : (op : BridgeOp) → op.Answer → GuardCall → Prop where
  | read (uid : Nat) (context : Context) : Guarded (.context uid .read) context (.read uid context)
  | looked (uid id : Nat) (job : Job) : Guarded (.ring uid (.getJob id)) (some job) (.looked uid id job)
  | admitted (instanceId : Nat) (key : Text) (now : Nat) :
      Guarded (.checkSubmission instanceId key now) none (.admitted instanceId key)
  | seen (instanceId : Nat) (key : Text) (now : Nat) (outcome : DuplicateSubmitOutcome) :
      Guarded (.checkSubmission instanceId key now) (some outcome) (.seen instanceId key outcome)
  | checked (block : Block) (nonce : Nat) (answer : Bool × Nat) :
      Guarded (.checkPow block nonce) answer (.checked block nonce)
  | recorded (instanceId : Nat) (key : Text) (now : Nat) (outcome : DuplicateSubmitOutcome)
      (answer : Unit) :
      Guarded (.setOutcome instanceId key now outcome) answer (.recorded instanceId key outcome)
  | credited (instanceId handle : Nat) (answer : Unit) :
      Guarded (.stats instanceId (.write handle .shareFound)) answer .credited
  | replied (uid : Nat) (id : Option Value) (result : Bool) (answer : Bool) :
      Guarded (.send uid (.reply id result)) answer (.told uid (.reply id result))
  | refused (uid : Nat) (id : Option Value) (code : Nat) (message : Text) (answer : Bool) :
      Guarded (.send uid (.error id code message)) answer (.told uid (.error id code message))

theorem guardCall_cases {op : BridgeOp} {answer : op.Answer} {item : GuardCall}
    (chosen : guardCall op answer = some item) : Guarded op answer item := by
  unfold guardCall at chosen
  split at chosen
  case h_10 => exact nomatch chosen
  all_goals
    cases chosen
    constructor

theorem exists_did_of_guarded {log : Record deployment} {thread : Nat} {item : GuardCall}
    (member : item ∈ System.ownCalls guardCall thread log) :
    ∃ op answer, .did thread op answer ∈ log ∧ Guarded op answer item := by
  obtain ⟨op, answer, inLog, chosen⟩ := System.mem_ownCalls.mp member
  exact ⟨op, answer, inLog, guardCall_cases chosen⟩

/-- The check against the guard. -/
def GuardCall.check : GuardCall → Option (Nat × Text)
  | .admitted instanceId key | .seen instanceId key _ => some (instanceId, key)
  | _ => none

theorem checks_of_idle {calls : List GuardCall} (idle : ∀ call ∈ calls, call.Idle) :
    calls.filterMap GuardCall.check = [] := by
  refine List.filterMap_eq_nil_iff.mpr fun call member => ?_
  cases call with
  | admitted | seen => exact absurd (idle _ member) id
  | _ => rfl

section Run

variable {events : List (bridge deployment).Event} {front back : Record deployment} {thread : Nat}

/-- A task checks against the guard once. -/
theorem checks_execute (thread : Nat) (split : (System.execute events).log = front ++ back) :
    ((System.ownCalls guardCall thread front).filterMap GuardCall.check).length ≤ 1 := by
  refine (guards_execute events).ownCalls_induction thread
    (motive := fun calls => (calls.filterMap GuardCall.check).length ≤ 1) (Nat.zero_le 1) ?_ split
  intro request calls op answer once permitted
  rw [List.filterMap_append, List.length_append]
  change _ + ((guardCall op answer).toList.filterMap GuardCall.check).length ≤ 1
  cases chosen : guardCall op answer with
  | none => exact once
  | some item =>
      cases guardCall_cases chosen with
      | admitted | seen =>
          rw [checks_of_idle permitted.1]
          exact Nat.le_refl 1
      | _ => exact once

/-- A task is admitted under one key only. -/
theorem admitted_unique {instanceId other : Nat} {key otherKey : Text}
    (split : (System.execute events).log = front ++ back)
    (first : .admitted instanceId key ∈ System.ownCalls guardCall thread front)
    (second : .admitted other otherKey ∈ System.ownCalls guardCall thread front) :
    instanceId = other ∧ key = otherKey := by
  have once := checks_execute thread split
  have checks : ∀ {instanceId key}, .admitted instanceId key ∈
      System.ownCalls guardCall thread front → (instanceId, key) ∈
        (System.ownCalls guardCall thread front).filterMap GuardCall.check :=
    fun member => List.mem_filterMap.mpr ⟨_, member, rfl⟩
  obtain ⟨check, whole⟩ := List.length_eq_one_iff.mp
    (Nat.le_antisymm once (List.length_pos_of_mem (checks first)))
  have firstCheck := checks first
  have secondCheck := checks second
  rw [whole] at firstCheck secondCheck
  exact Prod.mk.inj ((List.mem_singleton.mp firstCheck).trans (List.mem_singleton.mp secondCheck).symm)

/-- A task that is answered from the guard is not admitted. -/
theorem not_admitted_of_seen {instanceId other : Nat} {key otherKey : Text}
    {outcome : DuplicateSubmitOutcome} (split : (System.execute events).log = front ++ back)
    (seen : .seen instanceId key outcome ∈ System.ownCalls guardCall thread front) :
    .admitted other otherKey ∉ System.ownCalls guardCall thread front := by
  intro admitted
  obtain ⟨early, late, whole⟩ := List.append_of_mem seen
  have once := checks_execute thread split
  have elsewhere : .admitted other otherKey ∈ early ++ late := by
    rw [whole] at admitted
    simpa only [List.mem_append, List.mem_cons, reduceCtorEq, false_or] using admitted
  have checked : (other, otherKey) ∈ (early ++ late).filterMap GuardCall.check :=
    List.mem_filterMap.mpr ⟨_, elsewhere, rfl⟩
  have longer := List.length_pos_of_mem checked
  rw [whole] at once
  simp only [List.filterMap_append, List.filterMap_cons, GuardCall.check, List.length_append,
    List.length_cons] at once longer
  omega

/-- Evaluations are of admitted submissions. -/
theorem admitted_of_checked {block : Block} {nonce : Nat} {answer : Bool × Nat}
    (member : .did thread (.checkPow block nonce) answer ∈ (System.execute events).log) :
    ∃ instanceId key, .admitted instanceId key ∈
      System.ownCalls guardCall thread (System.execute events).log := by
  obtain ⟨front, back, split⟩ := List.append_of_mem member
  obtain ⟨request, -, submission, ⟨admitted, -⟩, -⟩ :=
    (guards_execute events).calls front thread (.checkPow block nonce) answer back split
  refine ⟨submission.instanceId, submission.key, ?_⟩
  rw [split, System.ownCalls_append]
  exact List.mem_append_left _ admitted

end Run

end StratumBridge
