import StratumBridge.Bridge.Text
import StratumBridge.Job.Difficulty

/-! # What the bridge tells the outside

Three kinds of output leave the bridge: messages to a miner, events for the
accounting layer, and metrics. Event payloads are validated values: a wallet
address, a worker name or a difficulty exists only if the domain accepts it.
-/

namespace StratumBridge

/-! ## Validated values -/

/-- Prefixes of accepted wallet addresses. -/
def acceptedPrefixes : List Text :=
  ["zkastest:", "zkassim:", "zkasdev:", "zkas:", "firecashtest:", "firecashsim:", "firecashdev:",
    "firecash:", "kaspatest:", "kaspa:"].map String.toList

/-- The text after the first accepted prefix. -/
def addressBody (text : Text) : Option Text :=
  (acceptedPrefixes.find? fun accepted => accepted.isPrefixOf text).map fun accepted =>
    text.drop accepted.length

def isBech32Char (char : Char) : Bool := char.isLower || char.isDigit

def validWallet (text : Text) : Bool :=
  match addressBody text with
  | some body => decide (13 ≤ text.length) && decide (text.length ≤ 110) && body.all isBech32Char
  | none => false

/-- A wallet address the accounting layer accepts. -/
structure WalletAddress where
  text : Text
  valid : validWallet text = true
deriving DecidableEq

def WalletAddress.new (text : Text) : Option WalletAddress :=
  if valid : validWallet text = true then some ⟨text, valid⟩ else none

def isSafeWorkerChar (char : Char) : Bool :=
  char.isAlphanum || ['_', '-', '.', '#', '@', ':', '+', '/', '\\'].contains char

def validWorker (text : Text) : Bool :=
  !text.isEmpty && decide (text.length ≤ 64) && text.all isSafeWorkerChar

/-- A worker name the accounting layer accepts. -/
structure WorkerName where
  text : Text
  valid : validWorker text = true
deriving DecidableEq

def WorkerName.new (text : Text) : Option WorkerName :=
  if valid : validWorker text = true then some ⟨text, valid⟩ else none

/-- A positive difficulty. -/
structure ShareDifficulty where
  value : ℚ
  positive : 0 < value
deriving DecidableEq

def ShareDifficulty.new (value : ℚ) : Option ShareDifficulty :=
  if positive : 0 < value then some ⟨value, positive⟩ else none

/-! ## Events -/

inductive ShareRejectReason where
  | stale
  | lowDifficulty
  | badPow
  | missingJob
  | malformedFrame
  | duplicateSubmit
  | badAddress
deriving DecidableEq

/-- Events for the accounting layer. All events of one submission carry its
correlation id. -/
inductive PoolEvent where
  | shareCredited (wallet : WalletAddress) (worker : WorkerName) (difficulty : ShareDifficulty)
      (daaScore correlationId : Nat)
  | shareRejected (wallet : WalletAddress) (worker : WorkerName) (reason : ShareRejectReason)
      (correlationId : Nat)
  | blockFound (wallet : WalletAddress) (worker : WorkerName) (hash : Hash)
      (daaScore correlationId : Nat)
  | blockAccepted (hash : Hash) (correlationId : Nat)
  /-- A connection authorized for the first time. -/
  | sessionOpened (connId : Nat) (wallet : Option WalletAddress) (worker : Option WorkerName)
      (remoteIp : Text) (remoteApp : Option Text) (connectedAt correlationId : Nat)
  | sessionClosed (connId : Nat) (wallet : Option WalletAddress) (worker : Option WorkerName)
      (remoteIp : Text) (remoteApp : Option Text) (connectedAt correlationId : Nat)
deriving DecidableEq

/-- `build_share_rejected`: no event for values the domain refuses. -/
def buildShareRejected (wallet worker : Text) (reason : ShareRejectReason) (correlationId : Nat) :
    Option PoolEvent := do
  let wallet ← WalletAddress.new wallet
  let worker ← WorkerName.new worker
  return .shareRejected wallet worker reason correlationId

def buildBlockFound (wallet worker : Text) (hash : Hash) (daaScore correlationId : Nat) :
    Option PoolEvent := do
  let wallet ← WalletAddress.new wallet
  let worker ← WorkerName.new worker
  return .blockFound wallet worker hash daaScore correlationId

def buildShareCredited (wallet worker : Text) (difficulty : ℚ) (daaScore correlationId : Nat) :
    Option PoolEvent := do
  let wallet ← WalletAddress.new wallet
  let worker ← WorkerName.new worker
  let difficulty ← ShareDifficulty.new difficulty
  return .shareCredited wallet worker difficulty daaScore correlationId

/-! ## Outcomes of the merged parent leg -/

inductive MergedParentSubmitOutcome where
  | notMerged
  | doesNotClearKaspa
  | noKaspaClient
  | accepted (hash payoutWallet : Text)
  | rejected (hash reason : Text)
  | transportError (hash error : Text)
deriving DecidableEq

def MergedParentSubmitOutcome.metricLabel : MergedParentSubmitOutcome → Text
  | .notMerged => Text.ofString "not_merged"
  | .doesNotClearKaspa => Text.ofString "does_not_clear"
  | .noKaspaClient => Text.ofString "no_client"
  | .accepted _ _ => Text.ofString "accepted"
  | .rejected _ _ => Text.ofString "rejected"
  | .transportError _ _ => Text.ofString "transport_error"

/-! ## Metrics -/

/-- The labels of a worker's metrics. -/
structure WorkerContext where
  instanceId : Nat
  workerName : Text
  miner : Text
  wallet : Text
  ip : Text
deriving DecidableEq

inductive ErrorShortCode where
  | noMinerAddress
  | failedBlockFetch
  | invalidAddressFmt
  | missingJob
  | badDataFromMiner
  | failedSendWork
  | failedSetDiff
  | disconnected
deriving DecidableEq

inductive Metric where
  | workerError (instanceId : Nat) (wallet : Text) (code : ErrorShortCode)
  | mergedParentSubmit (instanceId : Nat) (workerName wallet outcome zkasClaim : Text)
  /-- Blocks credited to a payout wallet. -/
  | kasBlock (worker : WorkerContext) (payoutWallet : Text)
  /-- The record of one Kaspa block with the wallet it is credited to. -/
  | kasBlockRecord (worker : WorkerContext) (payoutWallet : Text) (nonce daaScore timestamp : Nat)
      (hash : Text)
  | blockAcceptedByNode (worker : WorkerContext)
  | blockNotConfirmedBlue (worker : WorkerContext)
  | staleShare (worker : WorkerContext)
  | invalidShare (worker : WorkerContext)
  | weakShare (worker : WorkerContext)
  | shareFound (worker : WorkerContext) (hashValue : ℚ)
  | workerDifficulty (worker : WorkerContext) (diff : ℚ)
  | newJob (worker : WorkerContext)
  | badAddress (instanceId : Nat) (ip : Text)
  | blockFound (worker : WorkerContext) (nonce blueScore : Nat) (hash : Text)
  | disconnect (worker : WorkerContext)
deriving DecidableEq

/-- What `record_merged_parent_submit` records: nothing for a parent that was not
a candidate, the outcome otherwise, and for an accepted parent the credited wallet. -/
def mergedParentMetrics (worker : WorkerContext) (outcome : MergedParentSubmitOutcome)
    (claimedZkas : Bool) (nonce daaScore timestamp : Nat) : List Metric :=
  let submitted := Metric.mergedParentSubmit worker.instanceId worker.workerName worker.wallet
    outcome.metricLabel (Text.ofString (if claimedZkas then "first" else "duplicate"))
  match outcome with
  | .notMerged | .doesNotClearKaspa => []
  | .accepted hash payoutWallet =>
      [submitted, .kasBlock worker payoutWallet,
        .kasBlockRecord worker payoutWallet nonce daaScore timestamp hash]
  | _ => [submitted]

/-! ## Messages to a miner -/

/-- A JSON value in a request or a reply. -/
inductive Value where
  | string (text : Text)
  /-- A number, with its value when it is an unsigned 64-bit integer. -/
  | number (asU64 : Option Nat)
  | bool (value : Bool)
  | other
deriving DecidableEq

/-- A `mining.submit` request. -/
structure SubmitEvent where
  id : Option Value
  params : List Value
deriving DecidableEq

/-- Job data in one of the formats miners understand. -/
inductive JobParams where
  | iceriver (data : Text)
  | large (data : Text)
  | legacy (words : List Nat) (timestamp : Nat)
deriving DecidableEq

inductive Message where
  | reply (id : Option Value) (result : Bool)
  | error (id : Option Value) (code : Nat) (message : Text)
  | setDifficulty (diff : ℚ)
  /-- A job; `minimal` is the notification form without request id. -/
  | notify (jobId : Nat) (params : JobParams) (minimal : Bool)
  /-- An extranonce, for Bitmain miners with the bytes left to them; `minimal` is the
  notification form without request id. -/
  | setExtranonce (extranonce : Text) (extranonce2Size : Option Nat) (minimal : Bool)
  /-- The subscription answer; Bitmain miners get their extranonce with it. -/
  | subscribed (id : Option Value) (embedded : Option (Text × Nat))
  /-- Extranonce and difficulty in the notification form of the common protocol. -/
  | setExtranonceCommon (extranonce : Text) (extranonce2Size : Nat)
  | setDifficultyCommon (diff : ℚ)
deriving DecidableEq

def Message.staleShare (id : Option Value) : Message :=
  .error id 21 (Text.ofString "Job not found")

def Message.badShare (id : Option Value) : Message :=
  .error id 20 (Text.ofString "Unknown problem")

def Message.lowDiffShare (id : Option Value) : Message :=
  .error id 23 (Text.ofString "Invalid difficulty")

/-! ## Job formats -/

/-- The eight-byte words of a hash, first bytes first. -/
def hashWords (hash : Hash) : List (BitVec 64) :=
  [(hash >>> 192).setWidth 64, (hash >>> 128).setWidth 64, (hash >>> 64).setWidth 64,
    hash.setWidth 64]

/-- The word with its bytes reversed. -/
def swapBytes (word : BitVec 64) : BitVec 64 :=
  (List.range 8).foldl
    (fun swapped index => swapped <<< 8 ||| ((word >>> (8 * index)) &&& 0xFF)) 0

def generateJobHeader (prePowHash : Hash) : List Nat :=
  (hashWords prePowHash).map fun word => (swapBytes word).toNat

def generateIceriverJobParams (prePowHash : Hash) (timestamp : Nat) : Text :=
  Text.ofHash prePowHash ++ Text.hex16 (swapBytes (BitVec.ofNat 64 timestamp)).toNat

def generateLargeJobParams (prePowHash : Hash) (timestamp : Nat) : Text :=
  ((hashWords prePowHash).map BitVec.toNat
    ++ [(swapBytes (BitVec.ofNat 64 timestamp)).toNat]).flatMap Text.hex16

end StratumBridge
