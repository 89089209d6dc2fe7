import StratumBridge.Bridge.System

/-! # Kinds of operations

Every task stays within a few kinds of operations. Knowing the kinds a task uses is
enough to see that an observer of other kinds can ignore it.
-/

namespace StratumBridge

open Interaction

variable [Platform]

/-- The kinds of operations a property can depend on; everything else is `quiet`. -/
inductive Kind where
  | quiet
  | payoutRead
  | payoutWrite
  | buildLock
  | generation
  /-- The permit of a parent refresh is taken or returned, or its time is noted. -/
  | refreshGate
  | identity
  /-- The user agent or the extranonce of a connection is set. -/
  | handshake
  | registration
  | session
  /-- A client id is assigned, or the registry is used. -/
  | registry
  | accept
  | correlation
  | jobRead
  | diffRead
  | addJob
  | setDiff
  | pendingRead
  | unsolvedRead
  | pendingInsert
  | claim
  | cache
  /-- A permit to request a parent is taken or given back. -/
  | permit
  | creditWrite
  /-- The difficulty of a credited share is added up. -/
  | diffWrite
  | countWrite
  | shareEvent
  | blockEvent
  | blockColor
  | checkSubmission
  | setOutcome
  | checkPow
  | zkasTemplate
  | zkasSubmit
  | kaspaTemplate
  | kaspaSubmit
  | kasBlock
  | sendDiff
  | sendNotify
  | sendExtranonce
  /-- The answer to a submission or an authorization. -/
  | verdict
deriving DecidableEq

def Kind.all : List Kind :=
  [.quiet, .payoutRead, .payoutWrite, .buildLock, .generation, .refreshGate, .identity,
    .handshake, .registration, .session, .registry, .accept, .correlation, .jobRead, .diffRead,
    .addJob, .setDiff, .pendingRead, .unsolvedRead, .pendingInsert, .claim, .cache, .permit,
    .creditWrite, .diffWrite, .countWrite, .shareEvent, .blockEvent, .blockColor, .checkSubmission, .setOutcome, .checkPow,
    .zkasTemplate, .zkasSubmit, .kaspaTemplate, .kaspaSubmit, .kasBlock, .sendDiff, .sendNotify,
    .sendExtranonce, .verdict]

/-- All kinds but these. -/
def Kind.except (kinds : List Kind) : List Kind := Kind.all.filter fun kind => kind ∉ kinds

omit [Platform] in
theorem Kind.mem_except {kind : Kind} {kinds : List Kind} :
    kind ∈ Kind.except kinds ↔ kind ∉ kinds := by
  have listed : kind ∈ Kind.all := by cases kind <;> decide
  rw [Kind.except, List.mem_filter, decide_eq_true_iff, and_iff_right listed]

def ContextOp.kind : ContextOp → Kind
  | .kasPayout => .payoutRead
  | .setKasPayout _ => .payoutWrite
  | .lockJobBuild | .tryLockJobBuild | .unlockJobBuild => .buildLock
  | .nextTemplateGeneration => .generation
  | .acquireParentRefresh | .releaseParentRefresh | .markParentJobSent _ => .refreshGate
  | .setWalletAddr _ | .setWorkerName _ _ => .identity
  | .setRemoteApp _ | .setExtranonce _ => .handshake
  | .setId _ => .registry
  | .claimVardiffRegistration | .releaseVardiffRegistration => .registration
  | .claimSessionOpen => .session
  | _ => .quiet

def RingOp.kind : RingOp → Kind
  | .getJob _ | .storedJobIds => .jobRead
  | .resolves _ | .slotDiff _ | .stratumDiff => .diffRead
  | .addJob _ => .addJob
  | .setStratumDiff _ => .setDiff
  | _ => .quiet

def PendingOp.kind : PendingOp → Kind
  | .insertWithPayee _ _ _ => .pendingInsert
  | .get _ => .pendingRead
  | .isUnsolved _ => .unsolvedRead
  | .claimSolution _ => .claim

def ParentOp.kind : ParentOp → Kind
  | .readCache | .writeCache _ => .cache
  | .acquirePermit | .releasePermit => .permit

/-- A share or block counter changes. -/
def StatsWrite.counts : StatsWrite → Bool
  | .staleShare | .invalidShare | .blockFound | .shareFound => true
  | _ => false

def StatsOp.kind : StatsOp → Kind
  | .write _ .shareFound => .creditWrite
  | .write _ (.addSharesDiff _) => .diffWrite
  | .write _ .connectionOpened | .write _ .connectionClosed | .prune _ => .registration
  | .write _ change | .writeOverall change => if change.counts then .countWrite else .quiet
  | _ => .quiet

def PoolEvent.kind : PoolEvent → Kind
  | .shareCredited _ _ _ _ _ => .shareEvent
  | .blockFound _ _ _ _ _ | .blockAccepted _ _ => .blockEvent
  | .sessionOpened _ _ _ _ _ _ _ | .sessionClosed _ _ _ _ _ _ _ => .session
  | .shareRejected _ _ _ _ => .quiet

def Metric.kind : Metric → Kind
  | .kasBlock _ _ | .kasBlockRecord _ _ _ _ _ _ => .kasBlock
  | _ => .quiet

def Message.kind : Message → Kind
  | .setDifficulty _ | .setDifficultyCommon _ => .sendDiff
  | .notify _ _ _ => .sendNotify
  | .subscribed _ _ | .setExtranonce _ _ _ | .setExtranonceCommon _ _ => .sendExtranonce
  | .reply _ _ | .error _ _ _ => .verdict

def BridgeOp.kind : BridgeOp → Kind
  | .context _ op => op.kind
  | .ring _ op => op.kind
  | .pending op => op.kind
  | .parent op => op.kind
  | .stats _ op => op.kind
  | .registry _ _ => .registry
  | .newSessionUid => .accept
  | .newCorrelationId => .correlation
  | .emit event => event.kind
  | .spawnConfirm _ _ _ _ _ _ => .blockEvent
  | .blockColor _ => .blockColor
  | .record metric => metric.kind
  | .send _ message => message.kind
  | .checkSubmission _ _ _ => .checkSubmission
  | .setOutcome _ _ _ _ => .setOutcome
  | .checkPow _ _ => .checkPow
  | .zkasTemplate _ _ => .zkasTemplate
  | .zkasSubmit _ => .zkasSubmit
  | .kaspaTemplate _ _ => .kaspaTemplate
  | .kaspaSubmit _ => .kaspaSubmit
  | _ => .quiet

/-- The task only uses operations of these kinds. -/
def Uses {α : Type} (kinds : List Kind) (task : Task α) : Prop :=
  Program.Within (fun op : BridgeOp => op.kind ∈ kinds) task

section Rules

variable {α β : Type} {kinds larger : List Kind}

theorem uses_done (result : α) : Uses kinds (.done result) := trivial

theorem uses_perform (op : BridgeOp) (member : op.kind ∈ kinds) : Uses kinds (call op) :=
  ⟨member, fun _ => trivial⟩

theorem Uses.bind {first : Task α} {rest : α → Task β} (head : Uses kinds first)
    (tail : ∀ result, Uses kinds (rest result)) : Uses kinds (first >>= rest) :=
  Program.Within.bind head tail

theorem Uses.mono {task : Task α} (uses : Uses kinds task) (subset : kinds ⊆ larger) :
    Uses larger task := by
  induction task with
  | done result => trivial
  | call op next ih => exact ⟨subset uses.1, fun answer => ih answer (uses.2 answer)⟩

end Rules

/-! ## Readers and records -/

section Connection

variable {kinds : List Kind} (quiet : Kind.quiet ∈ kinds) (instanceId uid handle : Nat)
include quiet

theorem uses_quiet (op : BridgeOp) (isQuiet : op.kind = .quiet) : Uses kinds (call op) :=
  uses_perform op (isQuiet ▸ quiet)

theorem readContext_uses : Uses kinds (readContext uid) := uses_quiet quiet _ rfl

theorem walletAddr_uses : Uses kinds (walletAddr uid) :=
  (readContext_uses quiet uid).bind fun _ => uses_done _

theorem workerName_uses : Uses kinds (workerName uid) :=
  (readContext_uses quiet uid).bind fun _ => uses_done _

theorem remoteApp_uses : Uses kinds (remoteApp uid) :=
  (readContext_uses quiet uid).bind fun _ => uses_done _

theorem effectiveWorkerName_uses : Uses kinds (effectiveWorkerName uid) :=
  (uses_quiet quiet _ rfl).bind fun _ => workerName_uses quiet uid

theorem workerContext_uses (miner : Text) : Uses kinds (workerContext instanceId uid miner) :=
  (effectiveWorkerName_uses quiet uid).bind fun _ =>
    (readContext_uses quiet uid).bind fun _ => uses_done _

theorem statsKey_uses : Uses kinds (statsKey uid) :=
  (walletAddr_uses quiet uid).bind fun _ => (readContext_uses quiet uid).bind fun _ => uses_done _

theorem getCreateStats_uses : Uses kinds (getCreateStats instanceId uid) :=
  (effectiveWorkerName_uses quiet uid).bind fun _ => (statsKey_uses quiet uid).bind fun _ =>
    (uses_quiet quiet _ rfl).bind fun _ => uses_quiet quiet _ rfl

theorem getStatsIfExists_uses : Uses kinds (getStatsIfExists instanceId uid) :=
  (statsKey_uses quiet uid).bind fun _ => uses_quiet quiet _ rfl

theorem writeStats_uses {change : StatsWrite}
    (notCredit : (StatsOp.write handle change).kind = .quiet) :
    Uses kinds (writeStats instanceId handle change) :=
  uses_quiet quiet _ notCredit

theorem emitRejected_uses (wallet worker : Text) (reason : ShareRejectReason)
    (correlationId : Nat) : Uses kinds (emitRejected wallet worker reason correlationId) := by
  unfold emitRejected buildShareRejected
  cases WalletAddress.new wallet with
  | none => exact uses_done _
  | some wallet =>
      cases WorkerName.new worker with
      | none => exact uses_done _
      | some worker => exact uses_quiet quiet _ rfl

end Connection

theorem reply_uses {kinds : List Kind} (uid : Nat) {message : Message}
    (member : message.kind ∈ kinds) : Uses kinds (reply uid message) := by
  refine (uses_perform (.send uid message) member).bind fun delivered => ?_
  cases (delivered : Bool) <;> exact uses_done _

/-- An answer uses one message. -/
theorem answer_uses {kinds : List Kind} (answers : Kind.verdict ∈ kinds) (uid : Nat)
    {message : Message} (isVerdict : message.kind = .verdict) : Uses kinds (reply uid message) :=
  reply_uses uid (isVerdict ▸ answers)

section Events

variable {kinds : List Kind}

theorem emitSome_uses (event : Option PoolEvent) (member : ∀ emitted ∈ event, emitted.kind ∈ kinds) :
    Uses kinds (emitSome event) := by
  cases event with
  | none => exact uses_done _
  | some event => exact uses_perform (.emit event) (member event rfl)

omit [Platform] in
theorem buildBlockFound_kind {wallet worker : Text} {hash : Hash} {daaScore correlationId : Nat} :
    ∀ event ∈ buildBlockFound wallet worker hash daaScore correlationId,
      event.kind = .blockEvent := by
  intro event built
  simp only [buildBlockFound, Option.mem_def, Option.bind_eq_bind, Option.bind_eq_some_iff] at built
  obtain ⟨wallet, -, worker, -, same⟩ := built
  cases same
  rfl

theorem emitFound_uses (reports : Kind.blockEvent ∈ kinds) (wallet worker : Text) (hash : Hash)
    (daaScore correlationId : Nat) :
    Uses kinds (emitSome (buildBlockFound wallet worker hash daaScore correlationId)) := by
  refine emitSome_uses _ fun event built => ?_
  rw [buildBlockFound_kind event built]
  exact reports

omit [Platform] in
theorem buildShareCredited_kind {wallet worker : Text} {difficulty : ℚ}
    {daaScore correlationId : Nat} :
    ∀ event ∈ buildShareCredited wallet worker difficulty daaScore correlationId,
      event.kind = .shareEvent := by
  intro event built
  simp only [buildShareCredited, Option.mem_def, Option.bind_eq_bind, Option.bind_eq_some_iff]
    at built
  obtain ⟨wallet, -, worker, -, difficulty, -, same⟩ := built
  cases same
  rfl

theorem emitCredited_uses (reports : Kind.shareEvent ∈ kinds) (wallet worker : Text)
    (difficulty : ℚ) (daaScore correlationId : Nat) :
    Uses kinds
      (emitSome (buildShareCredited wallet worker difficulty daaScore correlationId)) := by
  refine emitSome_uses _ fun event built => ?_
  rw [buildShareCredited_kind event built]
  exact reports

theorem writeCount_uses (counts : Kind.countWrite ∈ kinds) (instanceId handle : Nat)
    {change : StatsWrite}
    (counting : (BridgeOp.stats instanceId (.write handle change)).kind = .countWrite) :
    Uses kinds (writeStats instanceId handle change) :=
  uses_perform (.stats instanceId (.write handle change)) (counting ▸ counts)

theorem writeOverall_uses (counts : Kind.countWrite ∈ kinds) (instanceId : Nat)
    {change : StatsWrite} (counting : change.counts = true) :
    Uses kinds (writeOverall instanceId change) := by
  have isCount : (BridgeOp.stats instanceId (.writeOverall change)).kind = .countWrite := by
    change (if change.counts then Kind.countWrite else .quiet) = .countWrite
    rw [if_pos counting]
  exact uses_perform _ (isCount ▸ counts)

end Events

section Lookups

variable {kinds : List Kind} (uid : Nat)

theorem recordAll_uses (metrics : List Metric)
    (member : ∀ metric ∈ metrics, metric.kind ∈ kinds) : Uses kinds (recordAll metrics) := by
  induction metrics with
  | nil => exact uses_done _
  | cons metric rest ih =>
      refine (uses_perform (.record metric) (member metric List.mem_cons_self)).bind fun _ => ?_
      exact ih fun later laterMem => member later (List.mem_cons_of_mem _ laterMem)

theorem latestJob_uses (reads : Kind.jobRead ∈ kinds) : Uses kinds (latestJob uid) := by
  refine (uses_perform (.ring uid .storedJobIds) reads).bind fun ids => ?_
  cases (ids : List Nat).max? with
  | none => exact uses_done _
  | some id => exact (uses_perform (.ring uid (.getJob id)) reads).bind fun _ => uses_done _

theorem getJobDiff_uses (reads : Kind.diffRead ∈ kinds) (id : Nat) :
    Uses kinds (getJobDiff uid id) := by
  refine (uses_perform (.ring uid (.resolves id)) reads).bind fun resolved => ?_
  cases (resolved : Bool) with
  | true => exact uses_perform (.ring uid (.slotDiff id)) reads
  | false => exact uses_done _

theorem shareDiff_uses (reads : Kind.diffRead ∈ kinds) (id : Nat) :
    Uses kinds (shareDiff uid id) := by
  refine (getJobDiff_uses uid reads id).bind fun stored => ?_
  cases stored with
  | some diff => exact uses_done _
  | none => exact uses_perform (.ring uid .stratumDiff) reads

end Lookups

end StratumBridge
