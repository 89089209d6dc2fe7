import StratumBridge.Bridge.Events
import StratumBridge.Bridge.Guards
import StratumBridge.Job.Ring
import StratumBridge.Merged.Pending

/-! # Lock-protected components

Every piece of shared state of the bridge sits behind its own lock, and every call
takes the lock for one short section. A component is its state together with those
sections: each section says what it answers and how the state moves.
-/

namespace StratumBridge

variable [Platform]

/-! ## The connection -/

/-- What the bridge knows about one connection. -/
structure Context where
  remoteAddr : Text
  remotePort : Nat
  /-- The share handler serving the connection's port. -/
  instanceId : Nat
  /-- The configured starting difficulty of the connection's port. -/
  seed : ℚ
  connectTime : Nat
  walletAddr : Text
  workerName : Text
  workerNameSupplied : Bool
  canxiumAddr : Text
  /-- The miner's own Kaspa payout address; none pays the pool. -/
  kasPayout : Option Address
  remoteApp : Text
  /-- The client id; a signed 32-bit integer, not positive before it is assigned. -/
  id : Int
  extranonce : Text
  templateGeneration : Nat
  jobBuildLocked : Bool
  parentRefreshHeld : Bool
  lastParentJobAt : Option Nat
  disconnecting : Bool
  /-- One-shot guard of the session-opened event. -/
  sessionOpened : Bool
  vardiffRegistered : Bool

inductive ContextOp where
  /-- Read the record; callers use one field of it. -/
  | read
  | setWalletAddr (wallet : Text)
  | setWorkerName (worker : Text) (supplied : Bool)
  | setCanxiumAddr (canxium : Text)
  | kasPayout
  | setKasPayout (payout : Option Address)
  | setRemoteApp (app : Text)
  | setId (id : Int)
  | setExtranonce (extranonce : Text)
  | ensureDefaultWorkerName
  | nextTemplateGeneration
  /-- Take the job-build lock, waiting for it. -/
  | lockJobBuild
  | tryLockJobBuild
  | unlockJobBuild
  | acquireParentRefresh
  | releaseParentRefresh
  | markParentJobSent (now : Nat)
  | disconnect
  | claimSessionOpen
  | claimVardiffRegistration
  | releaseVardiffRegistration

/-- The answer of a section on a connection. -/
@[reducible] def ContextOp.Answer : ContextOp → Type
  | .read => Context
  | .kasPayout => Option Address
  | .nextTemplateGeneration => Nat
  | .tryLockJobBuild | .acquireParentRefresh => Bool
  | .claimSessionOpen | .claimVardiffRegistration | .releaseVardiffRegistration => Bool
  | _ => Unit

/-- `id`: ids that are not positive read as absent. -/
def Context.clientId (context : Context) : Option Int :=
  if 0 < context.id then some context.id else none

/-- `ensure_default_worker_name`: a label derived from the connection id. -/
def Context.ensureDefaultWorkerName (context : Context) : Context :=
  if Text.trim context.workerName ≠ [] then context
  else
    { context with
      workerName := Text.ofString "asic-" ++
        Text.decimal ((context.clientId.map Int.toNat).getD context.remotePort) }

def ContextOp.act (context : Context) : (op : ContextOp) → Option (op.Answer × Context)
  | .read => some (context, context)
  | .setWalletAddr wallet => some ((), { context with walletAddr := wallet })
  | .setWorkerName worker supplied =>
      some ((), { context with workerName := worker, workerNameSupplied := supplied })
  | .setCanxiumAddr canxium => some ((), { context with canxiumAddr := canxium })
  | .kasPayout => some (context.kasPayout, context)
  | .setKasPayout payout => some ((), { context with kasPayout := payout })
  | .setRemoteApp app => some ((), { context with remoteApp := app })
  | .setId id => some ((), { context with id })
  | .setExtranonce extranonce => some ((), { context with extranonce })
  | .ensureDefaultWorkerName => some ((), context.ensureDefaultWorkerName)
  | .nextTemplateGeneration =>
      let generation := (context.templateGeneration + 1) % 2 ^ 64
      some (generation, { context with templateGeneration := generation })
  | .lockJobBuild =>
      if context.jobBuildLocked then none else some ((), { context with jobBuildLocked := true })
  | .tryLockJobBuild => some (!context.jobBuildLocked, { context with jobBuildLocked := true })
  | .unlockJobBuild => some ((), { context with jobBuildLocked := false })
  | .acquireParentRefresh =>
      some (!context.parentRefreshHeld, { context with parentRefreshHeld := true })
  | .releaseParentRefresh => some ((), { context with parentRefreshHeld := false })
  | .markParentJobSent now => some ((), { context with lastParentJobAt := some now })
  | .disconnect => some ((), { context with disconnecting := true })
  | .claimSessionOpen => some (!context.sessionOpened, { context with sessionOpened := true })
  | .claimVardiffRegistration =>
      some (!context.vardiffRegistered, { context with vardiffRegistered := true })
  | .releaseVardiffRegistration =>
      some (context.vardiffRegistered, { context with vardiffRegistered := false })

/-! ## The job ring -/

inductive RingOp where
  | addJob (job : Job)
  | getJob (id : Nat)
  | storedJobIds
  /-- First section of a difficulty lookup: does the slot hold this number? -/
  | resolves (id : Nat)
  /-- Second section of a difficulty lookup: the difficulty in the slot. -/
  | slotDiff (id : Nat)
  | stratumDiff
  | setStratumDiff (diff : KaspaDiff)
  | setBigDiff (target : Nat)
  | isInitialized
  | setInitialized
  | useBigJob
  | setUseBigJob (useBig : Bool)

@[reducible] def RingOp.Answer : RingOp → Type
  | .addJob _ => Nat
  | .getJob _ => Option Job
  | .storedJobIds => List Nat
  | .resolves _ | .isInitialized | .useBigJob => Bool
  | .slotDiff _ | .stratumDiff => Option KaspaDiff
  | _ => Unit

def RingOp.act (state : MiningState) : (op : RingOp) → op.Answer × MiningState
  | .addJob job => state.addJob job
  | .getJob id => (state.getJob id, state)
  | .storedJobIds => (state.getStoredJobIds, state)
  | .resolves id => (decide (state.jobIds.lookup (id % maxJobs) = some id), state)
  | .slotDiff id => (state.jobDiffs.lookup (id % maxJobs), state)
  | .stratumDiff => (state.stratumDiff, state)
  | .setStratumDiff diff => ((), state.setStratumDiff diff)
  | .setBigDiff target => ((), { state with bigDiff := target })
  | .isInitialized => (state.initialized, state)
  | .setInitialized => ((), { state with initialized := true })
  | .useBigJob => (state.useBigJob, state)
  | .setUseBigJob useBig => ((), { state with useBigJob := useBig })

/-! ## The pending store -/

inductive PendingOp where
  | insertWithPayee (hFc : Hash) (fcBlock : Block) (paidPool : Bool)
  | get (hFc : Hash)
  | isUnsolved (hFc : Hash)
  | claimSolution (hFc : Hash)

@[reducible] def PendingOp.Answer : PendingOp → Type
  | .insertWithPayee _ _ _ => Unit
  | .get _ => Option Block
  | .isUnsolved _ | .claimSolution _ => Bool

def PendingOp.act (pending : MergedPending) : (op : PendingOp) → op.Answer × MergedPending
  | .insertWithPayee hFc fcBlock paidPool => ((), pending.insertWithPayee hFc fcBlock paidPool)
  | .get hFc => (pending.get hFc, pending)
  | .isUnsolved hFc => (pending.isUnsolved hFc, pending)
  | .claimSolution hFc => pending.claimSolution hFc

/-! ## The Kaspa parent cache and its request gate -/

/-- The last parent fetched: for which lane and payee, and when. -/
structure CachedParent where
  hFc : Hash
  payKey : Text
  parent : Block
  fetchedAt : Nat

inductive ParentOp where
  | readCache
  | writeCache (entry : CachedParent)
  /-- Take a request permit, waiting for one. -/
  | acquirePermit
  | releasePermit

structure ParentGate where
  cache : Option CachedParent
  permits : Nat

@[reducible] def ParentOp.Answer : ParentOp → Type
  | .readCache => Option CachedParent
  | _ => Unit

def ParentOp.act (gate : ParentGate) : (op : ParentOp) → Option (op.Answer × ParentGate)
  | .readCache => some (gate.cache, gate)
  | .writeCache entry => some ((), { gate with cache := some entry })
  | .acquirePermit =>
      if gate.permits = 0 then none else some ((), { gate with permits := gate.permits - 1 })
  | .releasePermit => some ((), { gate with permits := gate.permits + 1 })

/-! ## Worker statistics -/

/-- Statistics of one worker. -/
structure WorkStats where
  blocksFound : Nat
  sharesFound : Nat
  sharesDiff : ℚ
  staleShares : Nat
  invalidShares : Nat
  lastShare : Nat
  varDiffStartTime : Option Nat
  varDiffSharesFound : Nat
  varDiffWindow : Nat
  minDiff : ℚ
  activeConnections : Nat
  lastSessionActivity : Nat

def WorkStats.new (now : Nat) : WorkStats where
  blocksFound := 0
  sharesFound := 0
  sharesDiff := 0
  staleShares := 0
  invalidShares := 0
  lastShare := now
  varDiffStartTime := none
  varDiffSharesFound := 0
  varDiffWindow := 0
  minDiff := 0
  activeConnections := 0
  lastSessionActivity := now

/-- Statistics live behind handles: a handle stays usable after the worker's key
was pruned. -/
structure StatsStore where
  index : AList fun _ : Text => Nat
  cells : Nat → WorkStats
  next : Nat
  overall : WorkStats

/-- `VARDIFF_MIN_DIFF`. -/
def vardiffMinDiff : ℚ := 64

/-- A change of one counter. -/
inductive StatsWrite where
  | staleShare
  | invalidShare
  | blockFound
  | shareFound
  | varDiffShareFound
  | addSharesDiff (hashValue : ℚ)
  | lastShare (now : Nat)
  | setMinDiff (diff : ℚ)
  | setVarDiffStart (now : Nat)
  | startVarDiffIfUnset (now : Nat)
  /-- Start an observation window with no shares, unless one is running. -/
  | beginVarDiff (now : Nat)
  | resetVarDiffShares
  | resetVarDiffWindow
  | touchSession (now : Nat)
  | connectionOpened
  | connectionClosed

def StatsWrite.apply (stats : WorkStats) : StatsWrite → WorkStats
  | .staleShare => { stats with staleShares := stats.staleShares + 1 }
  | .invalidShare => { stats with invalidShares := stats.invalidShares + 1 }
  | .blockFound => { stats with blocksFound := stats.blocksFound + 1 }
  | .shareFound => { stats with sharesFound := stats.sharesFound + 1 }
  | .varDiffShareFound => { stats with varDiffSharesFound := stats.varDiffSharesFound + 1 }
  | .addSharesDiff hashValue => { stats with sharesDiff := stats.sharesDiff + hashValue }
  | .lastShare now => { stats with lastShare := now }
  | .setMinDiff diff => { stats with minDiff := diff }
  | .setVarDiffStart now => { stats with varDiffStartTime := some now }
  | .startVarDiffIfUnset now =>
      { stats with varDiffStartTime := some (stats.varDiffStartTime.getD now) }
  | .beginVarDiff now =>
      if stats.varDiffStartTime.isNone then
        { stats with varDiffStartTime := some now, varDiffSharesFound := 0 }
      else stats
  | .resetVarDiffShares => { stats with varDiffSharesFound := 0 }
  | .resetVarDiffWindow => { stats with varDiffWindow := 0 }
  | .touchSession now => { stats with lastSessionActivity := now }
  | .connectionOpened => { stats with activeConnections := stats.activeConnections + 1 }
  | .connectionClosed => { stats with activeConnections := stats.activeConnections - 1 }

inductive StatsOp where
  | find (key : Text)
  | minDiff (handle : Nat)
  /-- Raise an unset minimum to the seed and read it, in one section. -/
  | restoreMinDiff (handle : Nat) (seed : ℚ)
  | write (handle : Nat) (change : StatsWrite)
  | writeOverall (change : StatsWrite)
  /-- Drop the entries not worth keeping. -/
  | prune (now : Nat)

@[reducible] def StatsOp.Answer : StatsOp → Type
  | .find _ => Option Nat
  | .minDiff _ | .restoreMinDiff _ _ => ℚ
  | _ => Unit

def StatsStore.setCell (store : StatsStore) (handle : Nat) (stats : WorkStats) : StatsStore :=
  { store with cells := Function.update store.cells handle stats }

/-- The handle of a key, created with the current difficulty on display if missing. -/
def StatsStore.getOrCreate (store : StatsStore) (key : Text) (now : Nat) (seeded : ℚ) :
    Nat × StatsStore :=
  match store.index.lookup key with
  | some handle => (handle, store)
  | none =>
      let fresh := WorkStats.new now
      let stats := if 0 < seeded then { fresh with minDiff := seeded } else fresh
      (store.next,
        { (store.setCell store.next stats) with
          index := store.index.insert key store.next
          next := store.next + 1 })

/-- `INACTIVE_VARDIFF_TTL`, in milliseconds. -/
def inactiveVardiffTtl : Nat := 3600000

/-- `should_retain_vardiff_stats`. -/
def WorkStats.shouldRetain (stats : WorkStats) (now : Nat) : Bool :=
  decide (0 < stats.activeConnections) ||
    decide (now - stats.lastSessionActivity < inactiveVardiffTtl)

/-- Keep the entries of live or recently active workers. -/
def StatsStore.prune (store : StatsStore) (now : Nat) : StatsStore :=
  { store with
    index :=
      ⟨store.index.entries.filter fun entry => (store.cells entry.2).shouldRetain now,
        store.index.nodupKeys.sublist List.filter_sublist⟩ }

def StatsOp.act (store : StatsStore) : (op : StatsOp) → op.Answer × StatsStore
  | .find key => (store.index.lookup key, store)
  | .minDiff handle => ((store.cells handle).minDiff, store)
  | .restoreMinDiff handle seed =>
      let stats := store.cells handle
      let restored := if stats.minDiff < vardiffMinDiff then max seed vardiffMinDiff else stats.minDiff
      (restored, store.setCell handle { stats with minDiff := restored })
  | .write handle change => ((), store.setCell handle (change.apply (store.cells handle)))
  | .writeOverall change => ((), { store with overall := change.apply store.overall })
  | .prune now => ((), store.prune now)

/-! ## The client registry -/

/-- The clients of a share handler by client id, and the counter ids are drawn from. -/
structure ClientRegistry where
  clients : AList fun _ : Int => Nat
  counter : Int

inductive RegistryOp where
  /-- `fetch_add` on the signed 32-bit counter. -/
  | nextId
  | insert (id : Int) (uid : Nat)
  | remove (id : Int)

@[reducible] def RegistryOp.Answer : RegistryOp → Type
  | .nextId => Int
  | _ => Unit

def RegistryOp.act (registry : ClientRegistry) : (op : RegistryOp) → op.Answer × ClientRegistry
  | .nextId =>
      (registry.counter, { registry with counter := (registry.counter + 1).bmod (2 ^ 32) })
  | .insert id uid => ((), { registry with clients := registry.clients.insert id uid })
  | .remove id => ((), { registry with clients := registry.clients.erase id })

end StratumBridge
