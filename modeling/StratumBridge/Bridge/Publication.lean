import StratumBridge.Bridge.Connection
import StratumBridge.Bridge.Parent

/-! # Publishing jobs

Jobs reach a miner on three paths: an immediate job after authorization or after a
solved block, a job for every new block template, and a parent-only refresh. Each
path adds the job to the ring, which stores the difficulty then current with it, and
announces it with `mining.notify`; difficulty changes are announced with
`mining.set_difficulty`.
-/

namespace StratumBridge

open Interaction

variable [Platform]

/-! ## Worker difficulty -/

/-- Restore the difficulty of a worker, or start it at the configured seed. -/
def registerClientVardiff (instanceId uid : Nat) (seed : ℚ) : Task ℚ := do
  let handle ← getCreateStats instanceId uid
  let restored : ℚ ← call (.stats instanceId (.restoreMinDiff handle seed))
  let now : Nat ← call .now
  writeStats instanceId handle (.startVarDiffIfUnset now)
  writeStats instanceId handle (.touchSession now)
  return restored

/-- The difficulty value on record for a connection; zero before any. -/
def currentStratumDiff (uid : Nat) : Task ℚ := do
  let diff : Option KaspaDiff ← call (.ring uid .stratumDiff)
  return (diff.map KaspaDiff.diffValue).getD 0

def getClientVardiff (instanceId uid : Nat) : Task ℚ := do
  let found ← getStatsIfExists instanceId uid
  match found with
  | some handle => call (.stats instanceId (.minDiff handle))
  | none => currentStratumDiff uid

def setClientVardiff (instanceId uid : Nat) (minDiff : ℚ) : Task Unit := do
  let found ← getStatsIfExists instanceId uid
  match found with
  | some handle => do
      writeStats instanceId handle (.setMinDiff minDiff)
      let now : Nat ← call .now
      writeStats instanceId handle (.setVarDiffStart now)
      writeStats instanceId handle .resetVarDiffShares
      writeStats instanceId handle .resetVarDiffWindow
  | none => pure ()

def startClientVardiff (instanceId uid : Nat) : Task Unit := do
  let found ← getStatsIfExists instanceId uid
  match found with
  | some handle => do
      let now : Nat ← call .now
      writeStats instanceId handle (.beginVarDiff now)
  | none => pure ()

/-! ## Messages -/

def isIceriver (app : Text) : Bool :=
  let app := Text.toLowercase app
  Text.contains (Text.ofString "iceriver") app || Text.contains (Text.ofString "icemining") app
    || Text.contains (Text.ofString "icm") app

def isBitmain (app : Text) : Bool :=
  let app := Text.toLowercase app
  Text.contains (Text.ofString "godminer") app || Text.contains (Text.ofString "bitmain") app
    || Text.contains (Text.ofString "antminer") app

/-- `BIG_JOB_REGEX`. -/
def isBigJobMiner (app : Text) : Bool :=
  Text.contains (Text.ofString "BzMiner") app || Text.contains (Text.ofString "IceRiverMiner") app

/-- Job data in the format of the miner. -/
def jobParams (app : Text) (useBigJob : Bool) (prePowHash : Hash) (timestamp : Nat) : JobParams :=
  if isIceriver app then .iceriver (generateIceriverJobParams prePowHash timestamp)
  else if useBigJob then .large (generateLargeJobParams prePowHash timestamp)
  else .legacy (generateJobHeader prePowHash) timestamp

/-- Send `mining.set_difficulty`; false when it did not reach the miner. -/
def sendClientDiff (instanceId uid : Nat) (diff : ℚ) : Task Bool := do
  let delivered : Bool ← call (.send uid (.setDifficulty diff))
  if delivered then return true
  else do
    let wallet ← walletAddr uid
    call (.record (.workerError instanceId wallet .failedSetDiff))
    return false

/-- Send `mining.notify`; false when it did not reach the miner. -/
def sendNotify (uid jobId : Nat) (params : JobParams) (minimal : Bool) : Task Bool :=
  call (.send uid (.notify jobId params minimal))

/-- Record the outcome of a notification; the error code tells a gone client. -/
def recordNotified (instanceId uid : Nat) (wallet : Text) (sent : Bool) : Task Unit :=
  if sent then do
    let labels ← workerContext instanceId uid []
    call (.record (.newJob labels))
  else do
    let context ← readContext uid
    let code := if context.disconnecting then ErrorShortCode.disconnected else .failedSendWork
    call (.record (.workerError instanceId wallet code))

/-- A template could not be had: record why, and drop a miner whose address cannot
be decoded. -/
def templateFailed (instanceId uid : Nat) (wallet error : Text) : Task Unit :=
  if Text.contains (Text.ofString "Could not decode address") error then do
    call (.record (.workerError instanceId wallet .invalidAddressFmt))
    call (.context uid .disconnect)
  else call (.record (.workerError instanceId wallet .failedBlockFetch))

/-- Set the difficulty of a connection from a value. -/
def setStratumDiff (settings : Settings) (uid : Nat) (diff : ℚ) : Task Unit :=
  call (.ring uid (.setStratumDiff (.ofDiffValue settings.targetCalculation diff)))

def updateWorkerDifficulty (instanceId uid : Nat) (app : Text) (diff : ℚ) : Task Unit := do
  let labels ← workerContext instanceId uid app
  call (.record (.workerDifficulty labels diff))

/-- First use of a connection's mining state. -/
def initializeState (settings : Settings) (instanceId uid : Nat) (app : Text)
    (initialDiff : ℚ) : Task Unit := do
  call (.ring uid .setInitialized)
  call (.ring uid (.setUseBigJob (isBigJobMiner app)))
  setStratumDiff settings uid initialDiff
  updateWorkerDifficulty instanceId uid app initialDiff

/-- Request a template for a connection with its current wallet and payout address. -/
def requestTemplate (settings : Settings) (uid : Nat) (wallet : Text) :
    Task (Except Text Block) := do
  let generation : Nat ← call (.context uid .nextTemplateGeneration)
  let kasPayout : Option Address ← call (.context uid .kasPayout)
  getBlockTemplate settings wallet uid generation kasPayout uid

/-! ## Immediate jobs -/

/-- Send the current difficulty and, when it reached the miner, an immediate job. -/
def sendImmediate (instanceId uid : Nat) (wallet app : Text) (initialDiff : ℚ) (block : Block)
    (prePowHash : Hash) (jobId : Nat) : Task Unit := do
  let stored : Option KaspaDiff ← call (.ring uid .stratumDiff)
  let currentDiff := (stored.map KaspaDiff.diffValue).getD initialDiff
  updateWorkerDifficulty instanceId uid app currentDiff
  let sent ← sendClientDiff instanceId uid currentDiff
  if sent then do
    let useBigJob : Bool ← call (.ring uid .useBigJob)
    let notified ← sendNotify uid jobId
      (jobParams app useBigJob prePowHash block.header.timestamp) (isIceriver app)
    recordNotified instanceId uid wallet notified
  else pure ()

/-- Announce the job of an immediate publication: initialize on first use, then send
the current difficulty and the job. -/
def announceImmediate (settings : Settings) (instanceId uid : Nat) (wallet app : Text)
    (initialDiff : ℚ) (block : Block) (prePowHash : Hash) (jobId : Nat) : Task Unit := do
  let initialized : Bool ← call (.ring uid .isInitialized)
  if initialized then pure () else initializeState settings instanceId uid app initialDiff
  sendImmediate instanceId uid wallet app initialDiff block prePowHash jobId

def publishImmediate (settings : Settings) (instanceId uid : Nat) (wallet app : Text)
    (initialDiff : ℚ) (block : Block) (prePowHash : Hash) : Task Unit := do
  let jobId : Nat ← call (.ring uid (.addJob ⟨block, prePowHash⟩))
  announceImmediate settings instanceId uid wallet app initialDiff block prePowHash jobId

/-- Build and announce an immediate job under the job-build lock. -/
def buildImmediate (settings : Settings) (instanceId uid : Nat) (initialDiff : ℚ) :
    Task Unit := do
  let wallet ← walletAddr uid
  let app ← remoteApp uid
  let template ← requestTemplate settings uid wallet
  match template with
  | .error error => templateFailed instanceId uid wallet error
  | .ok block => do
      call (.ring uid (.setBigDiff (calculateTarget block.header.bits)))
      match serializeBlockHeader block with
      | .error _ => call (.record (.workerError instanceId wallet .badDataFromMiner))
      | .ok prePowHash =>
          publishImmediate settings instanceId uid wallet app initialDiff block prePowHash

/-- `send_immediate_job_to_client`. The restored difficulty is stored before the
job-build lock is taken. -/
def sendImmediateJobToClient (settings : Settings) (uid : Nat) : Task Unit := do
  let context ← readContext uid
  let initialDiff ← registerClientVardiff context.instanceId uid context.seed
  setStratumDiff settings uid initialDiff
  call (.context uid .lockJobBuild)
  buildImmediate settings context.instanceId uid initialDiff
  call (.context uid .unlockJobBuild)

/-! ## Jobs for new templates -/

/-- Apply a pending difficulty change and announce it; false when the announcement
failed. The job was added before, under the difficulty it replaces. -/
def applyVardiff (settings : Settings) (instanceId uid : Nat) : Task Bool := do
  let stored : Option KaspaDiff ← call (.ring uid .stratumDiff)
  match stored with
  | none => return true
  | some stratumDiff => do
      let currentDiff := stratumDiff.diffValue
      let found ← getClientVardiff instanceId uid
      let varDiff := if found ≤ 0 ∧ 0 < currentDiff then currentDiff else found
      if found ≤ 0 ∧ 0 < currentDiff then do
        setClientVardiff instanceId uid currentDiff
        startClientVardiff instanceId uid
      if varDiff = currentDiff then return true
      else do
        let app ← remoteApp uid
        setStratumDiff settings uid varDiff
        updateWorkerDifficulty instanceId uid app varDiff
        let sent ← sendClientDiff instanceId uid varDiff
        if sent then do
          startClientVardiff instanceId uid
          return true
        else return false

/-- The difficulty part of a new-template publication: initialize and announce on
first use, else apply a pending change. -/
def announceDifficulty (settings : Settings) (instanceId uid : Nat) (app : Text)
    (initialDiff : ℚ) : Task Bool := do
  let initialized : Bool ← call (.ring uid .isInitialized)
  if initialized then applyVardiff settings instanceId uid
  else do
    initializeState settings instanceId uid app initialDiff
    sendClientDiff instanceId uid initialDiff

/-- Announce the job of a new template: the difficulty first, then the job. -/
def announceNewBlock (settings : Settings) (instanceId uid : Nat) (wallet app : Text) (seed : ℚ)
    (block : Block) (prePowHash : Hash) (jobId : Nat) : Task Unit := do
  let initialDiff ← registerClientVardiff instanceId uid seed
  let announced ← announceDifficulty settings instanceId uid app initialDiff
  if announced then do
    let app ← remoteApp uid
    let useBigJob : Bool ← call (.ring uid .useBigJob)
    let current ← remoteApp uid
    let notified ← sendNotify uid jobId
      (jobParams app useBigJob prePowHash block.header.timestamp)
      (Text.contains (Text.ofString "IceRiver") current)
    recordNotified instanceId uid wallet notified
  else pure ()

def publishNewBlock (settings : Settings) (instanceId uid : Nat) (wallet app : Text) (seed : ℚ)
    (block : Block) (prePowHash : Hash) : Task Unit := do
  let jobId : Nat ← call (.ring uid (.addJob ⟨block, prePowHash⟩))
  announceNewBlock settings instanceId uid wallet app seed block prePowHash jobId

def buildNewBlock (settings : Settings) (instanceId uid : Nat) (seed : ℚ) : Task Unit := do
  let wallet ← walletAddr uid
  let app ← remoteApp uid
  let template ← requestTemplate settings uid wallet
  match template with
  | .error error => templateFailed instanceId uid wallet error
  | .ok block => do
      call (.ring uid (.setBigDiff (calculateTarget block.header.bits)))
      match serializeBlockHeader block with
      | .error _ => call (.record (.workerError instanceId wallet .badDataFromMiner))
      | .ok prePowHash =>
          publishNewBlock settings instanceId uid wallet app seed block prePowHash

/-- `CLIENT_TIMEOUT`, in milliseconds. -/
def clientTimeout : Nat := 20000

/-- A connection without a wallet gets no work, and is dropped after a while. -/
def skipWithoutWallet (instanceId uid connectTime : Nat) : Task Unit := do
  let systemTime : Nat ← call .systemTime
  if clientTimeout < systemTime - connectTime then do
    call (.record (.workerError instanceId [] .noMinerAddress))
    call (.context uid .disconnect)
  else pure ()

/-- `new_block_available`, for one connection. A build already under way is not
queued behind. -/
def newBlockAvailable (settings : Settings) (uid : Nat) : Task Unit := do
  let locked : Bool ← call (.context uid .tryLockJobBuild)
  if locked then do
    let context ← readContext uid
    if context.walletAddr = [] then
      skipWithoutWallet context.instanceId uid context.connectTime
    else buildNewBlock settings context.instanceId uid context.seed
    call (.context uid .unlockJobBuild)
  else pure ()

/-! ## Parent-only refreshes -/

/-- Whether a parent-only job was sent too recently. -/
def refreshedRecently (uid interval : Nat) : Task Bool := do
  let context ← readContext uid
  let now : Nat ← call .now
  return context.lastParentJobAt.any fun sentAt => decide (now - sentAt < interval)

/-- Take the refresh permit of a connection, unless a refresh is running or too recent. -/
def tryParentRefresh (uid interval : Nat) : Task Bool := do
  let recent ← refreshedRecently uid interval
  if recent then return false
  else do
    let acquired : Bool ← call (.context uid .acquireParentRefresh)
    if acquired then do
      let recent ← refreshedRecently uid interval
      if recent then do
        call (.context uid .releaseParentRefresh)
        return false
      else return true
    else return false

def parentJobInterval (settings : Settings) (app : Text) : Nat :=
  if isBitmain app || Text.contains (Text.ofString "goldshell") (Text.toLowercase app) then
    settings.legacyParentJobInterval
  else settings.commonParentJobInterval

/-- Whether the lane of a parent paid the pool, as a refresh asks it. The node client
keeps the default answer of the interface; the flag stored with the lane is not read. -/
def mergedLanePaidPool (_parentBlock : Block) : Bool := false

/-- Who a refreshed parent pays: the current payout address of the connection. -/
def refreshPayee (uid : Nat) (jobBlock : Block) : Task (Option Address) :=
  if mergedLanePaidPool jobBlock then pure none
  else call (.context uid .kasPayout)

/-- Record the outcome of a parent-only notification. -/
def recordRefreshed (instanceId uid : Nat) (app : Text) (sent : Bool) : Task Unit :=
  if sent then do
    let now : Nat ← call .now
    call (.context uid (.markParentJobSent now))
    let labels ← workerContext instanceId uid app
    call (.record (.newJob labels))
  else do
    let wallet ← walletAddr uid
    call (.record (.workerError instanceId wallet .failedSendWork))

/-- Announce a refreshed parent; the difficulty is not sent again. -/
def announceParent (instanceId uid : Nat) (parent : Block) (prePowHash : Hash) (jobId : Nat) :
    Task Unit := do
  let app ← remoteApp uid
  let useBigJob : Bool ← call (.ring uid .useBigJob)
  let sent ← sendNotify uid jobId
    (jobParams app useBigJob prePowHash parent.header.timestamp) (isIceriver app)
  recordRefreshed instanceId uid app sent

/-- Announce a refreshed parent, if the lane is still the newest one. -/
def publishParent (instanceId uid : Nat) (expectedHFc : Option Hash) (parent : Block) :
    Task Unit := do
  let latest ← latestJob uid
  match latest with
  | none => pure ()
  | some (_, latest) =>
      if committedHFc latest.block = expectedHFc then
        match serializeBlockHeader parent with
        | .error _ => pure ()
        | .ok prePowHash => do
            let jobId : Nat ← call (.ring uid (.addJob ⟨parent, prePowHash⟩))
            announceParent instanceId uid parent prePowHash jobId
      else pure ()

/-- Refresh the parent of a connection's newest job. -/
def refreshParent (settings : Settings) (instanceId uid : Nat) (job : Job) : Task Unit := do
  let payee ← refreshPayee uid job.block
  let refreshed ← refreshMergedParent settings job.block payee
  match refreshed with
  | .ok (some parent) => do
      let locked : Bool ← call (.context uid .tryLockJobBuild)
      if locked then do
        publishParent instanceId uid (committedHFc job.block) parent
        call (.context uid .unlockJobBuild)
      else pure ()
  | _ => pure ()

/-- `new_parent_available`, for one connection. -/
def newParentAvailable (settings : Settings) (uid : Nat) : Task Unit := do
  let context ← readContext uid
  if context.disconnecting then pure ()
  else do
    let permitted ← tryParentRefresh uid (parentJobInterval settings context.remoteApp)
    if permitted then do
      let latest ← latestJob uid
      match latest with
      | none => pure ()
      | some (_, job) => refreshParent settings context.instanceId uid job
      call (.context uid .releaseParentRefresh)
    else pure ()

end StratumBridge
