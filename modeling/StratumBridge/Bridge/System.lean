import StratumBridge.Bridge.Session
import StratumBridge.Bridge.Submit

/-! # The bridge as a system of tasks

Any number of requests run at once: connections coming and going, submissions,
publications, parent fetches, and the background tasks. They interleave at their
operations only.
-/

namespace StratumBridge

open Interaction

section Model

variable [Platform]

/-- The retarget of one worker by the vardiff tick, to a difficulty computed from
its share rate. Workers without a live connection or a window are left alone. -/
def retarget (instanceId : Nat) (key : Text) (next : ℚ) : Task Unit := do
  let found : Option Nat ← call (.stats instanceId (.find key))
  match found with
  | none => pure ()
  | some handle => do
      let now : Nat ← call .now
      writeStats instanceId handle (.setMinDiff next)
      writeStats instanceId handle (.setVarDiffStart now)
      writeStats instanceId handle .resetVarDiffShares
      writeStats instanceId handle .resetVarDiffWindow

/-- Drop the statistics of idle workers. -/
def pruneStats (instanceId : Nat) : Task Unit := do
  let now : Nat ← call .now
  call (.stats instanceId (.prune now))

/-- `BLOCK_CONFIRM_MAX_ATTEMPTS`. -/
def blockConfirmMaxAttempts : Nat := 30

/-- Poll the color of an accepted block until it is blue, and count it then. -/
def confirmBlock (instanceId handle : Nat) (worker : WorkerContext) (hash : Text)
    (nonce blueScore : Nat) : Nat → Task Unit
  | 0 => call (.record (.blockNotConfirmedBlue worker))
  | attempts + 1 => do
      let blue : Option Bool ← call (.blockColor hash)
      if blue = some true then do
        writeStats instanceId handle .blockFound
        writeOverall instanceId .blockFound
        call (.record (.blockFound worker nonce blueScore hash))
      else confirmBlock instanceId handle worker hash nonce blueScore attempts

inductive BridgeRequest where
  | fetchKaspaParent (hFc : Hash) (payee : Option Address) (force : Bool)
  | submit (uid : Nat) (event : SubmitEvent)
  | authorize (uid : Nat) (event : SubmitEvent)
  | immediateJob (uid : Nat)
  | newBlock (uid : Nat)
  | newParent (uid : Nat)
  | retarget (instanceId : Nat) (key : Text) (next : ℚ)
  | connect
  | createStats (uid : Nat)
  | subscribe (uid : Nat) (event : SubmitEvent)
  | disconnect (uid : Nat)
  | pruneStats (instanceId : Nat)
  | confirmBlock (instanceId handle : Nat) (worker : WorkerContext) (hash : Text)
      (nonce blueScore : Nat)

inductive BridgeResult where
  | parent (result : Except Text Block)
  | handled (result : Except Text Unit)
  | done

/-- The task of a request. -/
def bridgeProgram (settings : Settings) : BridgeRequest → Task BridgeResult
  | .fetchKaspaParent hFc payee force => do
      let result ← fetchKaspaParent settings hFc payee force
      return .parent result
  | .submit uid event => do
      let result ← handleSubmit settings uid event
      return .handled result
  | .authorize uid event => do
      let result ← handleAuthorize settings uid event
      return .handled result
  | .immediateJob uid => do
      sendImmediateJobToClient settings uid
      return .done
  | .newBlock uid => do
      newBlockAvailable settings uid
      return .done
  | .newParent uid => do
      newParentAvailable settings uid
      return .done
  | .retarget instanceId key next => do
      retarget instanceId key next
      return .done
  | .connect => do
      acceptConnection
      return .done
  | .createStats uid => do
      createStatsLater uid
      return .done
  | .subscribe uid event => do
      let result ← handleSubscribe settings uid event
      return .handled result
  | .disconnect uid => do
      onDisconnect uid
      return .done
  | .pruneStats instanceId => do
      pruneStats instanceId
      return .done
  | .confirmBlock instanceId handle worker hash nonce blueScore => do
      confirmBlock instanceId handle worker hash nonce blueScore blockConfirmMaxAttempts
      return .done

/-- A bridge as deployed: its configuration and the connections it will serve, each
as it is when the bridge starts. -/
structure Deployment where
  settings : Settings
  contexts : Nat → Context

/-- Capacity of the pending store. -/
def pendingCapacity : Nat := 4096

/-- Permits of the parent request gate. -/
def parentPermits : Nat := 4

def initialState (deployment : Deployment) : BridgeState where
  contexts := deployment.contexts
  rings := fun _ => .new
  pending := .new pendingCapacity
  parents := ⟨none, parentPermits⟩
  stats := fun _ => ⟨∅, fun _ => .new 0, 0, .new 0⟩
  blockGuard := .new 600000 50000
  duplicates := fun _ => .new 180000 50000
  registries := fun _ => ⟨∅, 0⟩
  nextSessionUid := 1
  nextExtranonce := 0

/-- The bridge with all its tasks. -/
@[reducible] def bridge (deployment : Deployment) : System where
  sig := bridgeSignature
  State := BridgeState
  Env := Env
  initial := initialState deployment
  perform := fun op state env => performOp state env op
  Request := BridgeRequest
  Result := BridgeResult
  program := bridgeProgram deployment.settings

end Model

/-! ## A sample deployment -/

section Sample

attribute [local instance] Sample.platform

namespace Sample

/-- Merged mining for the operator `op`. -/
@[reducible] def settings : Settings where
  mergedMining := true
  kaspaPay := some ['o', 'p']
  kaspaClient := true
  paired := rfl
  coinbaseTag := []
  coinbaseAddressOverride := none
  poolFallbackAddress := ['p']
  kaspaCommonProtocol := false
  bitmainExtranonce := true
  targetCalculation := .standard
  legacyParentJobInterval := 0
  commonParentJobInterval := 0

/-- An authorized connection with a Kaspa payout address and no extranonce. -/
@[reducible] def context (payout : Option Text) : Context where
  remoteAddr := ['a']
  remotePort := 1
  instanceId := 0
  seed := 64
  connectTime := 0
  walletAddr := ['w']
  workerName := ['r']
  workerNameSupplied := true
  canxiumAddr := []
  kasPayout := payout
  remoteApp := []
  id := 1
  extranonce := []
  templateGeneration := 0
  jobBuildLocked := false
  parentRefreshHeld := false
  lastParentJobAt := none
  disconnecting := false
  sessionOpened := false
  vardiffRegistered := false

@[reducible] def deployment (payout : Option Text) : Deployment where
  settings := settings
  contexts := fun _ => context payout

/-- A task makes the given number of calls in one environment. -/
def steps (payout : Option Text) (thread count : Nat) (env : Env) :
    List (bridge (deployment payout)).Event :=
  List.replicate count (.step thread env)

/-- A ZKas block easy enough for the nonce 5, and a parent for it of the Kaspa node. -/
def easyBlock : Block := block 7 0x03000064 []

def easyParent : Block := block 1 0x03000064 [commitment 7, []]

/-- A job is published, with the given answer of the Kaspa node, and a miner solves it. -/
def solvedEvents (payout : Option Text) (template : TemplateReply) :
    List (bridge (deployment payout)).Event :=
  [.start (.immediateJob 1)] ++ steps payout 0 18 { template := .block easyBlock }
    ++ steps payout 0 40 { template }
    ++ [.start (.submit 1 ⟨none, [.string [], .string ['1'], .string ['5']]⟩)]
    ++ steps payout 1 90 {}

end Sample

end Sample

end StratumBridge
