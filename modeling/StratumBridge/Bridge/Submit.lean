import StratumBridge.Bridge.Connection
import StratumBridge.Bridge.Settlement

/-! # Handling a submission

A `mining.submit` request is decoded, checked against recent submissions, and
evaluated against the job it names. A proof of work that clears a chain target goes
through settlement; otherwise it is measured against the pool target, and when it
misses, earlier jobs are tried in turn. What is left is either credited or answered
as a weak share.
-/

namespace StratumBridge

open Interaction

variable [Platform]

/-! ## Decoding -/

def parseJobId : Value → Except Text Nat
  | .string text =>
      match Text.parseU64 10 text with
      | some id => .ok id
      | none => .error (Text.ofString "job id is not parsable as a number")
  | .number (some id) => .ok id
  | .number none => .error (Text.ofString "job id number is out of range")
  | _ => .error (Text.ofString "job id must be a string or number")

/-- The nonce parameter: the fifth with five or more parameters, else the third. -/
def nonceParam (params : List Value) : Except Text Text :=
  match (params[if 5 ≤ params.length then 4 else 2]? : Option Value) with
  | some (.string text) => .ok text
  | _ => .error (Text.ofString "nonce must be a string")

/-- The full nonce text: `0x` removed and, when the miner sent only its part, the
extranonce put in front. -/
def finalNonceText (extranonce nonce : Text) : Text :=
  let nonce := Text.remove0x nonce
  if extranonce = [] then nonce
  else
    let extranonce2Len := 16 - extranonce.length
    if nonce.length ≤ extranonce2Len then extranonce ++ Text.padZeros extranonce2Len nonce
    else nonce

/-- The key under which a submission is remembered. -/
def submitKey (worker : Text) (jobId : Nat) (finalNonce : Text) : Text :=
  worker ++ ['|'] ++ Text.decimal jobId ++ ['|'] ++ finalNonce

/-- What is fixed about a submission once it is decoded. -/
structure Submission where
  uid : Nat
  instanceId : Nat
  eventId : Option Value
  correlationId : Nat
  workerId : Text
  jobId : Nat
  nonce : Nat
  key : Text

/-- The job a submission names, or the newest retained one when the name does not
resolve. -/
def findJob (uid jobId : Nat) : Task (Option (Nat × Job)) := do
  let job : Option Job ← call (.ring uid (.getJob jobId))
  match job with
  | some job => return some (jobId, job)
  | none => latestJob uid

/-- Record a submission's outcome under its key. -/
def setOutcome (submission : Submission) (outcome : DuplicateSubmitOutcome) : Task Unit := do
  let now : Nat ← call .now
  call (.setOutcome submission.instanceId submission.key now outcome)

def emitRejected (wallet worker : Text) (reason : ShareRejectReason) (correlationId : Nat) :
    Task Unit :=
  emitSome (buildShareRejected wallet worker reason correlationId)

/-! ## Settlement of a solution -/

/-- How the evaluation of a submission ends. -/
inductive Verdict where
  /-- Credit the share on this job. -/
  | credit (jobId : Nat) (job : Job)
  | weak
  /-- The miner was already answered. -/
  | answered (result : Except Text Unit)

/-- `kaspaapi` refused the block as already submitted: a stale share. -/
def settleStale (submission : Submission) (wallet worker : Text) : Task Verdict := do
  setOutcome submission .stale
  let handle ← getCreateStats submission.instanceId submission.uid
  writeStats submission.instanceId handle .staleShare
  writeOverall submission.instanceId .staleShare
  let labels ← workerContext submission.instanceId submission.uid []
  call (.record (.staleShare labels))
  emitRejected wallet worker .stale submission.correlationId
  let result ← reply submission.uid (.staleShare submission.eventId)
  return .answered result

/-- The submission failed otherwise: a bad share. The claim of the lane stays. -/
def settleBad (submission : Submission) (wallet worker : Text) : Task Verdict := do
  let handle ← getCreateStats submission.instanceId submission.uid
  writeStats submission.instanceId handle .invalidShare
  writeOverall submission.instanceId .invalidShare
  let labels ← workerContext submission.instanceId submission.uid []
  call (.record (.invalidShare labels))
  emitRejected wallet worker .badPow submission.correlationId
  setOutcome submission .bad
  let result ← reply submission.uid (.badShare submission.eventId)
  return .answered result

/-- The node has the block: record it and start polling for its confirmation. -/
def settleAccepted (submission : Submission) (block : Block) (chainHash : Hash) : Task Unit := do
  let handle ← getCreateStats submission.instanceId submission.uid
  let labels ← workerContext submission.instanceId submission.uid []
  call (.record (.blockAcceptedByNode labels))
  call (.emit (.blockAccepted chainHash submission.correlationId))
  call (.spawnConfirm submission.instanceId handle labels (Text.ofHash chainHash)
    submission.nonce block.header.blueScore)

/-- Work on a template older than ten seconds comes from a rig that lost the job
feed: drop the connection. -/
def disconnectStale (uid systemTime timestamp : Nat) : Task Unit :=
  if 10 < (systemTime - timestamp) / 1000 then call (.context uid .disconnect) else pure ()

/-- Submit the claimed solution to the ZKas node and act on its answer. -/
def submitClaimed (settings : Settings) (submission : Submission) (jobId : Nat) (job : Job)
    (wallet worker : Text) : Task Verdict := do
  let block := job.block.withNonce submission.nonce
  call (.jobRefresh submission.uid)
  let systemTime : Nat ← call .systemTime
  disconnectStale submission.uid systemTime job.block.header.timestamp
  let chainHash := (mergedChainHash settings job.block).getD (Platform.headerHash block.header)
  emitSome (buildBlockFound wallet worker chainHash block.header.daaScore submission.correlationId)
  let result ← submitBlock settings block
  match result with
  | .ok (.rejectedByNode _) => do
      let context ← readContext submission.uid
      call (.record (.blockNotConfirmedBlue
        { instanceId := submission.instanceId, workerName := worker, miner := [], wallet
          ip := context.remoteAddr ++ [':'] ++ Text.decimal context.remotePort }))
      return .credit jobId job
  | .ok .accepted => do
      settleAccepted submission block chainHash
      return .credit jobId job
  | .error error =>
      if Text.contains errDuplicateBlock error then settleStale submission wallet worker
      else settleBad submission wallet worker

/-- A proof of work that clears a chain target: hand the parent to Kaspa, then claim
the ZKas block if its target is met. -/
def settleSolution (settings : Settings) (submission : Submission) (jobId : Nat) (job : Job)
    (meetsNetworkTarget : Bool) : Task Verdict := do
  let wallet ← walletAddr submission.uid
  let worker ← effectiveWorkerName submission.uid
  let block := job.block.withNonce submission.nonce
  let (outcome, claimed) ←
    submitParentThenClaimZkas settings block job.block meetsNetworkTarget
  let labels ← workerContext submission.instanceId submission.uid []
  let systemTime : Nat ← call .systemTime
  recordAll (mergedParentMetrics labels outcome claimed block.header.nonce block.header.daaScore
    (systemTime / 1000))
  if meetsNetworkTarget && claimed then
    submitClaimed settings submission jobId job wallet worker
  else return .credit jobId job

/-! ## Evaluation against jobs -/

/-- `MAX_COMPAT_JOB_ATTEMPTS`. -/
def maxCompatJobAttempts : Nat := 8

/-- Evaluate a submission against a job and, while it misses the pool target, against
the job before it, for as many attempts as are left. -/
def evaluate (settings : Settings) (submission : Submission) :
    Nat → Nat → Job → Bool → Task Verdict
  | 0, _, _, _ => pure .weak
  | attempts + 1, jobId, job, invalid => do
      let (passed, powValue) : Bool × Nat ← call (.checkPow job.block submission.nonce)
      let fcTarget ← mergedFcTarget settings job.block
      let networkTarget := fcTarget.getD (calculateTarget job.block.header.bits)
      if decide (powValue ≤ networkTarget) || (fcTarget.isSome && passed) then
        settleSolution settings submission jobId job (decide (powValue ≤ networkTarget))
      else do
        let diff ← shareDiff submission.uid jobId
        let poolTarget := (diff.map KaspaDiff.targetValue).getD 0
        if poolTarget < powValue then
          let invalid := invalid || decide (jobId = submission.jobId)
          let verdict := if invalid then Verdict.weak else .credit jobId job
          if jobId = 1 ∨ jobId % maxJobs = (submission.jobId % maxJobs + 1) % maxJobs then
            return verdict
          else if attempts = 0 then return verdict
          else do
            let previous : Option Job ← call (.ring submission.uid (.getJob (jobId - 1)))
            match previous with
            | some previous => evaluate settings submission attempts (jobId - 1) previous invalid
            | none => return verdict
        else return .credit jobId job

/-! ## Crediting -/

/-- Tell the miner about a weak share, if the request can be answered. -/
def replyLowDiff (uid : Nat) : Option Value → Task Unit
  | some id => do
      let _ ← reply uid (.lowDiffShare (some id))
      return ()
  | none => pure ()

/-- Answer a share that met no pool target. -/
def creditWeak (submission : Submission) (handle : Nat) : Task (Except Text Unit) := do
  writeStats submission.instanceId handle .invalidShare
  writeOverall submission.instanceId .invalidShare
  let wallet ← walletAddr submission.uid
  let worker ← workerName submission.uid
  let labels ← workerContext submission.instanceId submission.uid []
  call (.record (.weakShare labels))
  emitRejected wallet worker .lowDifficulty submission.correlationId
  replyLowDiff submission.uid submission.eventId
  setOutcome submission .lowDiff
  return .ok ()

/-- Credit a share on the job it was found for. -/
def creditShare (submission : Submission) (jobId : Nat) (job : Job) :
    Task (Except Text Unit) := do
  let handle ← getCreateStats submission.instanceId submission.uid
  writeStats submission.instanceId handle .shareFound
  writeStats submission.instanceId handle .varDiffShareFound
  let diff ← shareDiff submission.uid jobId
  let hashValue := (diff.map KaspaDiff.hashValue).getD 0
  writeStats submission.instanceId handle (.addSharesDiff hashValue)
  let now : Nat ← call .now
  writeStats submission.instanceId handle (.lastShare now)
  writeOverall submission.instanceId .shareFound
  let wallet ← walletAddr submission.uid
  let worker ← workerName submission.uid
  let labels ← workerContext submission.instanceId submission.uid []
  call (.record (.shareFound labels hashValue))
  let assigned := (diff.map KaspaDiff.diffValue).getD hashValue
  emitSome (buildShareCredited wallet worker assigned job.block.header.daaScore
    submission.correlationId)
  setOutcome submission .accepted
  reply submission.uid (.reply submission.eventId true)

def finishSubmission (submission : Submission) : Verdict → Task (Except Text Unit)
  | .answered result => pure result
  | .weak => do
      let handle ← getCreateStats submission.instanceId submission.uid
      creditWeak submission handle
  | .credit jobId job => do
      let _ ← getCreateStats submission.instanceId submission.uid
      creditShare submission jobId job

/-! ## The handler -/

/-- Answer a submission whose key was seen before, by the outcome recorded for it. -/
def replyDuplicate (uid : Nat) (eventId : Option Value) :
    DuplicateSubmitOutcome → Task (Except Text Unit)
  | .accepted | .inFlight => reply uid (.reply eventId true)
  | .stale => reply uid (.staleShare eventId)
  | .lowDiff => do
      replyLowDiff uid eventId
      return .ok ()
  | .bad => reply uid (.badShare eventId)

/-- Handle a submission whose job and nonce are decoded. -/
def handleDecoded (settings : Settings) (submission : Submission) (job : Job) :
    Task (Except Text Unit) := do
  let now : Nat ← call .now
  let seen : Option DuplicateSubmitOutcome ←
    call (.checkSubmission submission.instanceId submission.key now)
  match seen with
  | some outcome => replyDuplicate submission.uid submission.eventId outcome
  | none => do
      let verdict ← evaluate settings submission maxCompatJobAttempts submission.jobId job false
      finishSubmission submission verdict

/-- Report a submission that names no retained job, or is malformed. -/
def rejectSubmission (instanceId uid correlationId : Nat) (code : ErrorShortCode)
    (reason : ShareRejectReason) (error : Text) : Task (Except Text Unit) := do
  let wallet ← walletAddr uid
  let worker ← workerName uid
  call (.record (.workerError instanceId wallet code))
  emitRejected wallet worker reason correlationId
  return .error error

/-- Decode the nonce of a submission on a found job and handle it. -/
def decodeAndHandle (settings : Settings) (instanceId uid correlationId : Nat)
    (event : SubmitEvent) (jobId : Nat) (job : Job) : Task (Except Text Unit) :=
  match nonceParam event.params with
  | .error error => pure (.error error)
  | .ok nonceText => do
      let context ← readContext uid
      let finalNonce := finalNonceText context.extranonce nonceText
      match Text.parseU64 16 finalNonce with
      | none => return .error (Text.ofString "failed parsing noncestr")
      | some nonce => do
          let workerId ← effectiveWorkerName uid
          handleDecoded settings
            { uid, instanceId, eventId := event.id, correlationId, workerId, jobId, nonce
              key := submitKey workerId jobId finalNonce } job

/-- `mining.submit`. -/
def handleSubmit (settings : Settings) (uid : Nat) (event : SubmitEvent) :
    Task (Except Text Unit) := do
  let correlationId : Nat ← call .newCorrelationId
  let context ← readContext uid
  match event.params with
  | _ :: jobParam :: _ :: _ =>
      match parseJobId jobParam with
      | .error error => return .error error
      | .ok jobId => do
          let found ← findJob uid jobId
          match found with
          | none =>
              rejectSubmission context.instanceId uid correlationId .missingJob .missingJob
                (Text.ofString "job does not exist. stale?")
          | some (jobId, job) =>
              decodeAndHandle settings context.instanceId uid correlationId event jobId job
  | _ =>
      rejectSubmission context.instanceId uid correlationId .badDataFromMiner .malformedFrame
        (Text.ofString "malformed event, expected at least 3 params")

end StratumBridge
