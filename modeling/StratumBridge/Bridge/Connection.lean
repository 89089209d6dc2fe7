import StratumBridge.Bridge.Operations

/-! # Reading a connection

The small readers shared by the handlers: fields of the connection, labels for
metrics, worker statistics, and the difficulty of a job.
-/

namespace StratumBridge

open Interaction

variable [Platform]

def readContext (uid : Nat) : Task Context := call (.context uid .read)

def walletAddr (uid : Nat) : Task Text := do
  let context ← readContext uid
  return context.walletAddr

def workerName (uid : Nat) : Task Text := do
  let context ← readContext uid
  return context.workerName

def remoteApp (uid : Nat) : Task Text := do
  let context ← readContext uid
  return context.remoteApp

/-- The worker label, filled in from the connection id when the miner gave none. -/
def effectiveWorkerName (uid : Nat) : Task Text := do
  call (.context uid .ensureDefaultWorkerName)
  workerName uid

/-- Metric labels of a connection. -/
def workerContext (instanceId uid : Nat) (miner : Text) : Task WorkerContext := do
  let worker ← effectiveWorkerName uid
  let context ← readContext uid
  return { instanceId, workerName := worker, miner, wallet := context.walletAddr
           ip := context.remoteAddr ++ [':'] ++ Text.decimal context.remotePort }

/-- The key of a connection's worker statistics: wallet and supplied worker name. -/
def statsKey (uid : Nat) : Task Text := do
  let wallet ← walletAddr uid
  let context ← readContext uid
  let identity := if context.workerNameSupplied then context.workerName else []
  return Text.toLowercase (Text.trim wallet) ++ [Char.ofNat 0] ++ identity

def getCreateStats (instanceId uid : Nat) : Task Nat := do
  let _ ← effectiveWorkerName uid
  let key ← statsKey uid
  let now : Nat ← call .now
  call (.getCreateStats instanceId uid key now)

def getStatsIfExists (instanceId uid : Nat) : Task (Option Nat) := do
  let key ← statsKey uid
  call (.stats instanceId (.find key))

def writeStats (instanceId handle : Nat) (change : StatsWrite) : Task Unit :=
  call (.stats instanceId (.write handle change))

def writeOverall (instanceId : Nat) (change : StatsWrite) : Task Unit :=
  call (.stats instanceId (.writeOverall change))

def recordAll : List Metric → Task Unit
  | [] => pure ()
  | metric :: rest => do
      call (.record metric)
      recordAll rest

def emitSome (event : Option PoolEvent) : Task Unit :=
  match event with
  | some event => call (.emit event)
  | none => pure ()

/-- Send a message; an error when the connection is gone. -/
def reply (uid : Nat) (message : Message) : Task (Except Text Unit) := do
  let delivered : Bool ← call (.send uid message)
  if delivered then return .ok ()
  else return .error (Text.ofString "disconnected")

/-- The newest retained job of a connection with its number. -/
def latestJob (uid : Nat) : Task (Option (Nat × Job)) := do
  let ids : List Nat ← call (.ring uid .storedJobIds)
  match ids.max? with
  | none => return none
  | some id => do
      let job : Option Job ← call (.ring uid (.getJob id))
      return job.map fun job => (id, job)

/-- The difficulty stored with a job; two separate sections. -/
def getJobDiff (uid id : Nat) : Task (Option KaspaDiff) := do
  let resolved : Bool ← call (.ring uid (.resolves id))
  if resolved then call (.ring uid (.slotDiff id)) else return none

/-- The difficulty a share on a job is measured by: the job's own, or the current
one when the job carries none. -/
def shareDiff (uid id : Nat) : Task (Option KaspaDiff) := do
  let stored ← getJobDiff uid id
  match stored with
  | some diff => return some diff
  | none => call (.ring uid .stratumDiff)

end StratumBridge
