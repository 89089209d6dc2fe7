import StratumBridge.Bridge.Kinds

/-! # Footprint of a submission -/

namespace StratumBridge

open Interaction

variable [Platform]

section Settlement

variable {kinds : List Kind} (settings : Settings)

theorem mergedFcTarget_uses (reads : Kind.pendingRead ∈ kinds) (parentBlock : Block) :
    Uses kinds (mergedFcTarget settings parentBlock) := by
  unfold mergedFcTarget
  split
  · split
    · exact uses_done _
    · exact (uses_perform (.pending (.get _)) reads).bind fun _ => uses_done _
  · exact uses_done _

theorem claimNetworkSolution_uses (claims : Kind.claim ∈ kinds) (jobBlock : Block) :
    Uses kinds (claimNetworkSolution settings jobBlock) := by
  unfold claimNetworkSolution
  split
  · split
    · exact uses_done _
    · exact uses_perform (.pending (.claimSolution _)) claims
  · exact uses_done _

theorem submitMergedParentIfSolved_uses (submits : Kind.kaspaSubmit ∈ kinds) (parent : Block) :
    Uses kinds (submitMergedParentIfSolved settings parent) := by
  unfold submitMergedParentIfSolved
  split
  · split
    · split
      · exact (uses_perform (.kaspaSubmit parent) submits).bind fun _ => uses_done _
      · exact uses_done _
    · exact uses_done _
  · exact uses_done _

theorem submitParentThenClaimZkas_uses (submits : Kind.kaspaSubmit ∈ kinds)
    (claims : Kind.claim ∈ kinds) (solvedParent jobParent : Block) (clearsZkas : Bool) :
    Uses kinds (submitParentThenClaimZkas settings solvedParent jobParent clearsZkas) := by
  refine (submitMergedParentIfSolved_uses settings submits solvedParent).bind fun outcome => ?_
  cases clearsZkas with
  | true => exact (claimNetworkSolution_uses settings claims jobParent).bind fun _ => uses_done _
  | false => exact uses_done _

theorem submitAssembled_uses (quiet : Kind.quiet ∈ kinds) (submits : Kind.zkasSubmit ∈ kinds)
    (block : Block) : Uses kinds (submitAssembled block) := by
  refine (uses_quiet quiet (.now) rfl).bind fun now => ?_
  refine (uses_quiet quiet (.tryMarkBlock _ now) rfl).bind fun marked => ?_
  cases (marked : Bool) with
  | false => exact uses_done _
  | true =>
      refine (uses_perform (.zkasSubmit block) submits).bind fun reply => ?_
      cases (reply : SubmitReply) with
      | success => exact uses_done _
      | reject reason => exact uses_done _
      | failed error =>
          by_cases duplicate : isDuplicateError submitFailed = true
          · simp only [duplicate]
            exact uses_done _
          · simp only [duplicate]
            refine (uses_quiet quiet (.now) rfl).bind fun later => ?_
            exact (uses_quiet quiet (.unmarkBlock _ later) rfl).bind fun _ => uses_done _

theorem submitBlock_uses (quiet : Kind.quiet ∈ kinds) (reads : Kind.pendingRead ∈ kinds)
    (submits : Kind.zkasSubmit ∈ kinds) (block : Block) :
    Uses kinds (submitBlock settings block) := by
  unfold submitBlock
  split
  · split
    · exact uses_done _
    · refine (uses_perform (.pending (.get _)) reads).bind fun fcBlock => ?_
      cases (fcBlock : Option Block) with
      | none => exact uses_done _
      | some fcBlock => exact submitAssembled_uses quiet submits _
  · exact submitAssembled_uses quiet submits block

end Settlement

section Submit

variable {kinds : List Kind} (quiet : Kind.quiet ∈ kinds)

theorem findJob_uses (reads : Kind.jobRead ∈ kinds) (uid jobId : Nat) :
    Uses kinds (findJob uid jobId) := by
  refine (uses_perform (.ring uid (.getJob jobId)) reads).bind fun job => ?_
  cases (job : Option Job) with
  | some job => exact uses_done _
  | none => exact latestJob_uses uid reads

include quiet

theorem setOutcome_uses (sets : Kind.setOutcome ∈ kinds) (submission : Submission)
    (outcome : DuplicateSubmitOutcome) : Uses kinds (setOutcome submission outcome) :=
  (uses_quiet quiet (.now) rfl).bind fun now =>
    uses_perform (.setOutcome submission.instanceId submission.key now outcome) sets

theorem settleStale_uses (answers : Kind.verdict ∈ kinds) (sets : Kind.setOutcome ∈ kinds)
    (counts : Kind.countWrite ∈ kinds) (submission : Submission) (wallet worker : Text) :
    Uses kinds (settleStale submission wallet worker) := by
  refine (setOutcome_uses quiet sets submission .stale).bind fun _ => ?_
  refine (getCreateStats_uses quiet _ _).bind fun handle => ?_
  refine (writeCount_uses counts _ handle rfl).bind fun _ => ?_
  refine (writeOverall_uses counts _ rfl).bind fun _ => ?_
  refine (workerContext_uses quiet _ _ _).bind fun labels => ?_
  refine (uses_quiet quiet _ rfl).bind fun _ => ?_
  refine (emitRejected_uses quiet _ _ _ _).bind fun _ => ?_
  exact (answer_uses answers _ rfl).bind fun _ => uses_done _

theorem settleBad_uses (answers : Kind.verdict ∈ kinds) (sets : Kind.setOutcome ∈ kinds)
    (counts : Kind.countWrite ∈ kinds) (submission : Submission) (wallet worker : Text) :
    Uses kinds (settleBad submission wallet worker) := by
  refine (getCreateStats_uses quiet _ _).bind fun handle => ?_
  refine (writeCount_uses counts _ handle rfl).bind fun _ => ?_
  refine (writeOverall_uses counts _ rfl).bind fun _ => ?_
  refine (workerContext_uses quiet _ _ _).bind fun labels => ?_
  refine (uses_quiet quiet _ rfl).bind fun _ => ?_
  refine (emitRejected_uses quiet _ _ _ _).bind fun _ => ?_
  refine (setOutcome_uses quiet sets submission .bad).bind fun _ => ?_
  exact (answer_uses answers _ rfl).bind fun _ => uses_done _

theorem settleAccepted_uses (reports : Kind.blockEvent ∈ kinds) (submission : Submission)
    (block : Block) (chainHash : Hash) :
    Uses kinds (settleAccepted submission block chainHash) := by
  refine (getCreateStats_uses quiet _ _).bind fun handle => ?_
  refine (workerContext_uses quiet _ _ _).bind fun labels => ?_
  refine (uses_quiet quiet _ rfl).bind fun _ => ?_
  refine (uses_perform (.emit (.blockAccepted chainHash _)) reports).bind fun _ => ?_
  exact uses_perform (.spawnConfirm _ handle labels _ _ _) reports

theorem disconnectStale_uses (uid systemTime timestamp : Nat) :
    Uses kinds (disconnectStale uid systemTime timestamp) := by
  by_cases stale : 10 < (systemTime - timestamp) / 1000
  · rw [disconnectStale, if_pos stale]
    exact uses_quiet quiet _ rfl
  · rw [disconnectStale, if_neg stale]
    exact uses_done _

theorem submitClaimed_uses (answers : Kind.verdict ∈ kinds) (sets : Kind.setOutcome ∈ kinds)
    (counts : Kind.countWrite ∈ kinds)
    (reports : Kind.blockEvent ∈ kinds) (reads : Kind.pendingRead ∈ kinds)
    (submits : Kind.zkasSubmit ∈ kinds) (settings : Settings) (submission : Submission)
    (jobId : Nat) (job : Job) (wallet worker : Text) :
    Uses kinds (submitClaimed settings submission jobId job wallet worker) := by
  refine (uses_quiet quiet _ rfl).bind fun _ => ?_
  refine (uses_quiet quiet (.systemTime) rfl).bind fun systemTime => ?_
  refine (disconnectStale_uses quiet _ _ _).bind fun _ => ?_
  refine (emitFound_uses reports ..).bind fun _ => ?_
  refine (submitBlock_uses settings quiet reads submits _).bind fun result => ?_
  cases result with
  | error error =>
      by_cases duplicate : Text.contains errDuplicateBlock error = true
      · simp only [duplicate]
        exact settleStale_uses quiet answers sets counts submission wallet worker
      · simp only [duplicate]
        exact settleBad_uses quiet answers sets counts submission wallet worker
  | ok outcome =>
      cases outcome with
      | accepted => exact (settleAccepted_uses quiet reports _ _ _).bind fun _ => uses_done _
      | rejectedByNode reason =>
          refine (readContext_uses quiet _).bind fun context => ?_
          exact (uses_quiet quiet _ rfl).bind fun _ => uses_done _

end Submit

/-- The kinds of operations a submission uses. -/
def submissionKinds : List Kind :=
  [.quiet, .correlation, .jobRead, .diffRead, .pendingRead, .claim, .creditWrite, .diffWrite,
    .countWrite, .shareEvent, .blockEvent, .checkSubmission, .setOutcome, .checkPow, .zkasSubmit,
    .kaspaSubmit, .kasBlock, .verdict]

section Whole

variable (settings : Settings) (submission : Submission)

omit [Platform] in
private theorem quiet_mem : Kind.quiet ∈ submissionKinds := List.mem_cons_self

omit [Platform] in
theorem mergedParentMetrics_kind {kinds : List Kind} (quiet : Kind.quiet ∈ kinds)
    (credits : Kind.kasBlock ∈ kinds) {worker : WorkerContext}
    {outcome : MergedParentSubmitOutcome} {claimed : Bool} {nonce daaScore timestamp : Nat} :
    ∀ metric ∈ mergedParentMetrics worker outcome claimed nonce daaScore timestamp,
      metric.kind ∈ kinds := by
  intro metric member
  cases outcome with
  | notMerged | doesNotClearKaspa => exact absurd member List.not_mem_nil
  | noKaspaClient | rejected hash reason | transportError hash error =>
      obtain rfl := List.mem_singleton.mp member
      exact quiet
  | accepted hash payoutWallet =>
      simp only [mergedParentMetrics, List.mem_cons, List.not_mem_nil, or_false] at member
      rcases member with rfl | rfl | rfl
      · exact quiet
      · exact credits
      · exact credits

theorem settleSolution_uses (jobId : Nat) (job : Job) (meetsNetworkTarget : Bool) :
    Uses submissionKinds (settleSolution settings submission jobId job meetsNetworkTarget) := by
  refine (walletAddr_uses quiet_mem _).bind fun wallet => ?_
  refine (effectiveWorkerName_uses quiet_mem _).bind fun worker => ?_
  refine (submitParentThenClaimZkas_uses settings (by decide) (by decide) _ _ _).bind fun legs => ?_
  refine (workerContext_uses quiet_mem _ _ _).bind fun labels => ?_
  refine (uses_quiet quiet_mem (.systemTime) rfl).bind fun systemTime => ?_
  refine (recordAll_uses _ (mergedParentMetrics_kind quiet_mem (by decide))).bind fun _ => ?_
  split
  · exact submitClaimed_uses quiet_mem (by decide) (by decide) (by decide) (by decide) (by decide)
      (by decide) ..
  · exact uses_done _

theorem evaluate_uses (attempts jobId : Nat) (job : Job) (invalid : Bool) :
    Uses submissionKinds (evaluate settings submission attempts jobId job invalid) := by
  induction attempts generalizing jobId job invalid with
  | zero => exact uses_done _
  | succ attempts ih =>
      have checks : Kind.checkPow ∈ submissionKinds := by decide
      refine (uses_perform (.checkPow job.block submission.nonce) checks).bind
        fun checked => ?_
      obtain ⟨passed, powValue⟩ : Bool × Nat := checked
      refine (mergedFcTarget_uses settings (by decide) _).bind fun fcTarget => ?_
      dsimp only
      split
      · exact settleSolution_uses settings submission _ _ _
      · refine (shareDiff_uses _ (by decide) _).bind fun diff => ?_
        split
        · split
          · exact uses_done _
          · split
            · exact uses_done _
            · have reads : Kind.jobRead ∈ submissionKinds := by decide
              refine (uses_perform (.ring _ (.getJob (jobId - 1))) reads).bind
                fun previous => ?_
              cases (previous : Option Job) with
              | some previous => exact ih _ _ _
              | none => exact uses_done _
        · exact uses_done _

theorem replyLowDiff_uses {kinds : List Kind} (answers : Kind.verdict ∈ kinds) (uid : Nat)
    (eventId : Option Value) : Uses kinds (replyLowDiff uid eventId) := by
  cases eventId with
  | some id => exact (answer_uses answers _ rfl).bind fun _ => uses_done _
  | none => exact uses_done _

theorem creditWeak_uses {kinds : List Kind} (quiet : Kind.quiet ∈ kinds)
    (answers : Kind.verdict ∈ kinds)
    (sets : Kind.setOutcome ∈ kinds) (counts : Kind.countWrite ∈ kinds) (handle : Nat) :
    Uses kinds (creditWeak submission handle) := by
  refine (writeCount_uses counts _ handle rfl).bind fun _ => ?_
  refine (writeOverall_uses counts _ rfl).bind fun _ => ?_
  refine (walletAddr_uses quiet _).bind fun wallet => ?_
  refine (workerName_uses quiet _).bind fun worker => ?_
  refine (workerContext_uses quiet _ _ _).bind fun labels => ?_
  refine (uses_quiet quiet _ rfl).bind fun _ => ?_
  refine (emitRejected_uses quiet _ _ _ _).bind fun _ => ?_
  refine (replyLowDiff_uses answers _ _).bind fun _ => ?_
  exact (setOutcome_uses quiet sets submission .lowDiff).bind fun _ => uses_done _

theorem creditShare_uses {kinds : List Kind} (quiet : Kind.quiet ∈ kinds)
    (answers : Kind.verdict ∈ kinds)
    (sets : Kind.setOutcome ∈ kinds) (reads : Kind.diffRead ∈ kinds)
    (credits : Kind.creditWrite ∈ kinds) (weighs : Kind.diffWrite ∈ kinds)
    (counts : Kind.countWrite ∈ kinds)
    (reports : Kind.shareEvent ∈ kinds) (jobId : Nat) (job : Job) :
    Uses kinds (creditShare submission jobId job) := by
  refine (getCreateStats_uses quiet _ _).bind fun handle => ?_
  refine (uses_perform (.stats _ (.write handle .shareFound)) credits).bind fun _ => ?_
  refine (writeStats_uses quiet _ handle rfl).bind fun _ => ?_
  refine (shareDiff_uses _ reads _).bind fun diff => ?_
  refine (uses_perform (.stats _ (.write handle (.addSharesDiff _))) weighs).bind fun _ => ?_
  refine (uses_quiet quiet (.now) rfl).bind fun now => ?_
  refine (writeStats_uses quiet _ handle rfl).bind fun _ => ?_
  refine (writeOverall_uses counts _ rfl).bind fun _ => ?_
  refine (walletAddr_uses quiet _).bind fun wallet => ?_
  refine (workerName_uses quiet _).bind fun worker => ?_
  refine (workerContext_uses quiet _ _ _).bind fun labels => ?_
  refine (uses_quiet quiet _ rfl).bind fun _ => ?_
  refine (emitCredited_uses reports ..).bind fun _ => ?_
  refine (setOutcome_uses quiet sets submission .accepted).bind fun _ => ?_
  exact answer_uses answers _ rfl

theorem finishSubmission_uses {kinds : List Kind} (quiet : Kind.quiet ∈ kinds)
    (answers : Kind.verdict ∈ kinds)
    (sets : Kind.setOutcome ∈ kinds) (reads : Kind.diffRead ∈ kinds)
    (credits : Kind.creditWrite ∈ kinds) (weighs : Kind.diffWrite ∈ kinds)
    (counts : Kind.countWrite ∈ kinds)
    (reports : Kind.shareEvent ∈ kinds) (verdict : Verdict) :
    Uses kinds (finishSubmission submission verdict) := by
  cases verdict with
  | answered result => exact uses_done _
  | weak =>
      exact (getCreateStats_uses quiet _ _).bind fun handle =>
        creditWeak_uses submission quiet answers sets counts handle
  | credit jobId job =>
      exact (getCreateStats_uses quiet _ _).bind fun _ =>
        creditShare_uses submission quiet answers sets reads credits weighs counts reports jobId job

theorem replyDuplicate_uses {kinds : List Kind} (answers : Kind.verdict ∈ kinds) (uid : Nat)
    (eventId : Option Value) (outcome : DuplicateSubmitOutcome) :
    Uses kinds (replyDuplicate uid eventId outcome) := by
  cases outcome with
  | lowDiff => exact (replyLowDiff_uses answers _ _).bind fun _ => uses_done _
  | accepted | inFlight | stale | bad => exact answer_uses answers _ rfl

theorem handleDecoded_uses (job : Job) :
    Uses submissionKinds (handleDecoded settings submission job) := by
  refine (uses_quiet quiet_mem (.now) rfl).bind fun now => ?_
  have checks : Kind.checkSubmission ∈ submissionKinds := by decide
  refine (uses_perform (.checkSubmission _ _ now) checks).bind fun seen => ?_
  cases (seen : Option DuplicateSubmitOutcome) with
  | some outcome => exact replyDuplicate_uses (by decide) _ _ outcome
  | none =>
      exact (evaluate_uses settings submission _ _ _ _).bind fun verdict =>
        finishSubmission_uses submission quiet_mem (by decide) (by decide) (by decide) (by decide) (by decide)
          (by decide) (by decide) verdict

theorem rejectSubmission_uses {kinds : List Kind} (quiet : Kind.quiet ∈ kinds)
    (instanceId uid correlationId : Nat) (code : ErrorShortCode) (reason : ShareRejectReason)
    (error : Text) :
    Uses kinds (rejectSubmission instanceId uid correlationId code reason error) := by
  refine (walletAddr_uses quiet _).bind fun wallet => ?_
  refine (workerName_uses quiet _).bind fun worker => ?_
  refine (uses_quiet quiet _ rfl).bind fun _ => ?_
  exact (emitRejected_uses quiet _ _ _ _).bind fun _ => uses_done _

theorem decodeAndHandle_uses (instanceId uid correlationId : Nat) (event : SubmitEvent)
    (jobId : Nat) (job : Job) :
    Uses submissionKinds
      (decodeAndHandle settings instanceId uid correlationId event jobId job) := by
  unfold decodeAndHandle
  split
  · exact uses_done _
  · refine (readContext_uses quiet_mem _).bind fun context => ?_
    dsimp only
    split
    · exact uses_done _
    · exact (effectiveWorkerName_uses quiet_mem _).bind fun _ => handleDecoded_uses settings _ job

theorem handleSubmit_uses (uid : Nat) (event : SubmitEvent) :
    Uses submissionKinds (handleSubmit settings uid event) := by
  have correlates : Kind.correlation ∈ submissionKinds := by decide
  refine (uses_perform .newCorrelationId correlates).bind fun correlationId => ?_
  refine (readContext_uses quiet_mem _).bind fun context => ?_
  split
  · split
    · exact uses_done _
    · refine (findJob_uses (by decide) _ _).bind fun found => ?_
      cases found with
      | none => exact rejectSubmission_uses quiet_mem ..
      | some found => exact decodeAndHandle_uses settings ..
  · exact rejectSubmission_uses quiet_mem ..

end Whole

end StratumBridge
