import StratumBridge.Bridge.Components
import StratumBridge.Interaction.Observation

/-! # The operations of the bridge

All tasks of the bridge share one state, touched only through these operations:
sections of the components, calls to the two nodes, clock readings, and output.
The environment supplies clock readings and replies.
-/

namespace StratumBridge

open Interaction

variable [Platform]

/-- Fixed configuration of a running bridge. -/
structure Settings where
  mergedMining : Bool
  /-- The operator's Kaspa payout address, when a Kaspa node is configured. -/
  kaspaPay : Option Address
  /-- Whether there is a client of a Kaspa node. -/
  kaspaClient : Bool
  /-- The constructor sets both or none. -/
  paired : kaspaClient = kaspaPay.isSome
  coinbaseTag : List Byte
  coinbaseAddressOverride : Option Address
  poolFallbackAddress : Text
  kaspaCommonProtocol : Bool
  /-- Whether Bitmain miners are assigned an extranonce. -/
  bitmainExtranonce : Bool
  targetCalculation : TargetCalculation
  /-- Minimum milliseconds between parent-only jobs, for legacy miners and others. -/
  legacyParentJobInterval : Nat
  commonParentJobInterval : Nat

inductive RejectReason where
  | blockInvalid
  | isInIBD
  | routeIsFull
deriving DecidableEq

/-- The reply of a node to a template request, after conversion of the block. -/
inductive TemplateReply where
  | block (template : Block)
  | malformed (error : Text)
  | failed (error : Text)
deriving DecidableEq

/-- The reply of a node to a submitted block. -/
inductive SubmitReply where
  | success
  | reject (reason : RejectReason)
  | failed (error : Text)
deriving DecidableEq

/-- What the environment supplies to one step. -/
structure Env where
  now : Nat := 0
  systemTime : Nat := 0
  correlationId : Nat := 0
  template : TemplateReply := .failed []
  submitted : SubmitReply := .success
  /-- Whether the node calls a block blue; none when it does not answer. -/
  blue : Option Bool := none
  /-- Whether a message reaches the miner. -/
  delivered : Bool := true

inductive BridgeOp where
  | context (uid : Nat) (op : ContextOp)
  | ring (uid : Nat) (op : RingOp)
  | pending (op : PendingOp)
  | parent (op : ParentOp)
  | stats (instanceId : Nat) (op : StatsOp)
  | registry (instanceId : Nat) (op : RegistryOp)
  /-- `fetch_add` on the process-wide session counter. -/
  | newSessionUid
  /-- The next value of the process-wide extranonce counter. -/
  | nextExtranonce
  /-- The statistics handle of a connection's worker. -/
  | getCreateStats (instanceId uid : Nat) (key : Text) (now : Nat)
  | tryMarkBlock (hash : Text) (now : Nat)
  | unmarkBlock (hash : Text) (now : Nat)
  | checkSubmission (instanceId : Nat) (key : Text) (now : Nat)
  | setOutcome (instanceId : Nat) (key : Text) (now : Nat) (outcome : DuplicateSubmitOutcome)
  /-- The monotonic clock, in milliseconds. -/
  | now
  /-- The wall clock, in milliseconds since the epoch. -/
  | systemTime
  | newCorrelationId
  /-- Evaluate the proof of work of a block's header at a nonce. -/
  | checkPow (block : Block) (nonce : Nat)
  | zkasTemplate (recipient : Address) (extraData : List Byte)
  | zkasSubmit (block : Block)
  | kaspaTemplate (recipient : Address) (extraData : List Byte)
  | kaspaSubmit (block : Block)
  | blockColor (hash : Text)
  | emit (event : PoolEvent)
  | record (metric : Metric)
  | send (uid : Nat) (message : Message)
  /-- Ask for replacement work on a connection. -/
  | jobRefresh (uid : Nat)
  /-- Start polling whether an accepted block is confirmed blue. -/
  | spawnConfirm (instanceId handle : Nat) (worker : WorkerContext) (hash : Text)
      (nonce blueScore : Nat)

@[reducible] def BridgeOp.Answer : BridgeOp → Type
  | .context _ op => op.Answer
  | .ring _ op => op.Answer
  | .pending op => op.Answer
  | .parent op => op.Answer
  | .stats _ op => op.Answer
  | .registry _ op => op.Answer
  | .newSessionUid | .nextExtranonce => Nat
  | .getCreateStats _ _ _ _ => Nat
  | .tryMarkBlock _ _ => Bool
  | .unmarkBlock _ _ => Unit
  | .checkSubmission _ _ _ => Option DuplicateSubmitOutcome
  | .setOutcome _ _ _ _ => Unit
  | .now | .systemTime | .newCorrelationId => Nat
  | .checkPow _ _ => Bool × Nat
  | .zkasTemplate _ _ | .kaspaTemplate _ _ => TemplateReply
  | .zkasSubmit _ | .kaspaSubmit _ => SubmitReply
  | .blockColor _ => Option Bool
  | .send _ _ => Bool
  | .emit _ | .record _ | .jobRefresh _ | .spawnConfirm _ _ _ _ _ _ => Unit

/-- The operations of the bridge with their answers. -/
@[reducible] def bridgeSignature : Signature where
  Op := BridgeOp
  Answer := BridgeOp.Answer

/-- Everything the tasks of the bridge share. -/
structure BridgeState where
  contexts : Nat → Context
  rings : Nat → MiningState
  pending : MergedPending
  parents : ParentGate
  stats : Nat → StatsStore
  blockGuard : BlockSubmitGuard
  duplicates : Nat → DuplicateSubmitGuard
  registries : Nat → ClientRegistry
  nextSessionUid : Nat
  nextExtranonce : Nat

/-- `assign_extranonce_for_miner`: two bytes, after the largest comes zero. -/
def maxExtranonce : Nat := 65535

/-- Perform one operation; `none` while it has to wait. -/
def performOp (state : BridgeState) (env : Env) :
    (op : BridgeOp) → Option (op.Answer × BridgeState)
  | .context uid op =>
      (op.act (state.contexts uid)).map fun (answer, after) =>
        (answer, { state with contexts := Function.update state.contexts uid after })
  | .ring uid op =>
      let (answer, after) := op.act (state.rings uid)
      some (answer, { state with rings := Function.update state.rings uid after })
  | .pending op =>
      let (answer, after) := op.act state.pending
      some (answer, { state with pending := after })
  | .parent op =>
      (op.act state.parents).map fun (answer, after) => (answer, { state with parents := after })
  | .stats instanceId op =>
      let (answer, after) := op.act (state.stats instanceId)
      some (answer, { state with stats := Function.update state.stats instanceId after })
  | .registry instanceId op =>
      let (answer, after) := op.act (state.registries instanceId)
      some (answer, { state with registries := Function.update state.registries instanceId after })
  | .newSessionUid =>
      some (state.nextSessionUid,
        { state with nextSessionUid := (state.nextSessionUid + 1) % 2 ^ 64 })
  | .nextExtranonce =>
      some (state.nextExtranonce, { state with
        nextExtranonce := if state.nextExtranonce < maxExtranonce then state.nextExtranonce + 1
          else 0 })
  | .getCreateStats instanceId uid key now =>
      let seeded := ((state.rings uid).stratumDiff.map KaspaDiff.diffValue).getD 0
      let (answer, after) := (state.stats instanceId).getOrCreate key now seeded
      some (answer, { state with stats := Function.update state.stats instanceId after })
  | .tryMarkBlock hash now =>
      let (answer, after) := state.blockGuard.tryMark hash now
      some (answer, { state with blockGuard := after })
  | .unmarkBlock hash now =>
      some ((), { state with blockGuard := state.blockGuard.remove hash now })
  | .checkSubmission instanceId key now =>
      let (answer, after) := (state.duplicates instanceId).check key now
      some (answer, { state with duplicates := Function.update state.duplicates instanceId after })
  | .setOutcome instanceId key now outcome =>
      let after := (state.duplicates instanceId).setOutcome key now outcome
      some ((), { state with duplicates := Function.update state.duplicates instanceId after })
  | .now => some (env.now, state)
  | .systemTime => some (env.systemTime, state)
  | .newCorrelationId => some (env.correlationId, state)
  | .checkPow block nonce => some (checkPow block.header nonce, state)
  | .zkasTemplate _ _ | .kaspaTemplate _ _ => some (env.template, state)
  | .zkasSubmit _ | .kaspaSubmit _ => some (env.submitted, state)
  | .blockColor _ => some (env.blue, state)
  | .send uid _ => some (env.delivered && !(state.contexts uid).disconnecting, state)
  | .emit _ | .record _ | .jobRefresh _ | .spawnConfirm _ _ _ _ _ _ => some ((), state)

/-- A task of the bridge. -/
abbrev Task (α : Type) := Program bridgeSignature α

/-- Make one call. -/
def call (op : BridgeOp) : Task op.Answer := @Program.perform bridgeSignature op

@[simp] theorem call_eq (op : BridgeOp) :
    call op = @Program.call bridgeSignature op.Answer op Program.done := rfl

end StratumBridge
