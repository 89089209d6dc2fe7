import StratumBridge.Interaction.LockOrder

/-! # Mutexes

Short critical sections of the bridge are guarded by mutexes that are not reentrant. Some sections
take a second mutex while they hold one, by a guard that is still alive or by a temporary that
lives to the end of its statement. All of them agree on one order, so no thread waits for ever.
-/

namespace StratumBridge

open Interaction LockOrder

/-- The mutexes of one `WorkStats`. -/
inductive StatsCell where
  | blocksFound
  | sharesFound
  | sharesDiff
  | staleShares
  | invalidShares
  | workerName
  | lastShare
  | varDiffStartTime
  | varDiffSharesFound
  | varDiffWindow
  | minDiff
  | activeConnections
  | lastSessionActivity
deriving DecidableEq

/-- The mutexes of one `StratumContext` and its `MiningState`. -/
inductive ContextField where
  | walletAddr
  | workerName
  | remoteApp
  | canxiumAddr
  | kasPayout
  | extranonce
  | id
  | readHalf
  | writeHalf
  | lastParentJobAt
  | authorizedAt
  | lastJobSentAt
  | jobCounter
  | jobs
  | jobIds
  | jobDiffs
  | stratumDiff
  | bigDiff
  | initialized
  | useBigJob
  | lastHeader
deriving DecidableEq

inductive Mutex where
  /-- `ClientHandler::clients` of an instance. -/
  | clients (handler : Nat)
  | lastTemplateTime (handler : Nat)
  | lastBalanceCheck (handler : Nat)
  /-- `ShareHandler::stats` of an instance. -/
  | stats (handler : Nat)
  | duplicateSubmitGuard (handler : Nat)
  | cell (entry : Nat) (cell : StatsCell)
  | context (uid : Nat) (field : ContextField)
  | pendingFc
  | connected
  | notificationRx
  | kaspaNotificationRx
  | listenerStats
  | blockSubmitGuard
  | nodeStatus
  | antiAbuseState
  | workerLastActivity
  | internalCpuRecentBlocks
  | statsPrinterRegistry
  | cpuMinerMetrics
  | webConfigWriteLock
  /-- `INSTANCE_REGISTRY`, which a log line that names an instance looks into. -/
  | instanceRegistry
deriving DecidableEq

/-- The place of a mutex in the order; those that are never held around another share one. -/
@[simp] def Mutex.rank : Mutex → Nat
  | .clients _ => 1
  | .stats _ => 2
  | .context _ .jobCounter => 3
  | .context _ .jobs => 4
  | .context _ .jobIds => 5
  | .context _ .jobDiffs => 6
  | .context _ .walletAddr => 7
  | .context _ .workerName => 8
  | .cell _ .activeConnections => 9
  | .instanceRegistry => 11
  | _ => 10

/-- What a section does with mutexes. -/
abbrev Section := List (LockAction Mutex)

/-- A section that holds one mutex only. -/
abbrev touch (mutex : Mutex) : Section := alone mutex

abbrev touchField (uid : Nat) (field : ContextField) : Section := alone (.context uid field)

abbrev touchCell (entry : Nat) (cell : StatsCell) : Section := alone (.cell entry cell)

/-- A log line; `named` tells whether it names an instance. -/
def logLine (named : Bool) : Section := if named then touch .instanceRegistry else []

/-! ## The mining state -/

section MiningState

variable (uid : Nat)

/-- `add_job`; the guards live to its end. -/
def addJobSection (overwrites named : Bool) : Section :=
  guarded (.context uid .jobCounter) <|
    guarded (.context uid .jobs) <|
      guarded (.context uid .jobIds) <|
        guarded (.context uid .jobDiffs) <|
          (if overwrites then logLine named else []) ++
            (touchField uid .stratumDiff ++ logLine named)

def getJobSection : Section :=
  guarded (.context uid .jobs) (touchField uid .jobIds)

/-- `get_job_diff`: the guard of the condition is gone before the second one. -/
def getJobDiffSection (found : Bool) : Section :=
  touchField uid .jobIds ++ if found then touchField uid .jobDiffs else []

def latestJobSection (any : Bool) : Section :=
  touchField uid .jobIds ++ if any then getJobSection uid else []

end MiningState

/-! ## The connection -/

section Context

variable (uid : Nat)

def ensureDefaultWorkerNameSection (unnamed : Bool) : Section :=
  guarded (.context uid .workerName) (if unnamed then touchField uid .id else [])

def setAuthorizedWorkerNameSection (unnamed : Bool) : Section :=
  touchField uid .workerName ++ ensureDefaultWorkerNameSection uid unnamed

def effectiveWorkerNameSection (unnamed : Bool) : Section :=
  ensureDefaultWorkerNameSection uid unnamed ++ touchField uid .workerName

/-- `summary`: the temporaries of the fields live to the end of the expression. -/
def summarySection : Section :=
  guarded (.context uid .walletAddr) <|
    guarded (.context uid .workerName) <|
      touchField uid .remoteApp

/-- `disconnect`; only the first call does something. -/
def disconnectSection (first named : Bool) : Section :=
  if first then
    touchField uid .workerName ++
      (touchField uid .remoteApp ++
        (touchField uid .walletAddr ++
          (logLine named ++ (touchField uid .writeHalf ++ touchField uid .readHalf))))
  else []

def markAuthorizedSection : Section :=
  touchField uid .authorizedAt ++ touchField uid .lastJobSentAt

/-- `worker_context`. -/
def workerContextSection (unnamed : Bool) : Section :=
  effectiveWorkerNameSection uid unnamed ++ touchField uid .walletAddr

end Context

/-! ## Worker statistics -/

section Stats

variable (handler uid entry : Nat)

/-- `stats_key`. -/
def statsKeySection (supplied : Bool) : Section :=
  touchField uid .walletAddr ++
    if supplied then touchField uid .workerName else []

/-- `get_stats_if_exists`: the map stays locked while the key is made. -/
def getStatsIfExistsSection (supplied : Bool) : Section :=
  guarded (.stats handler) (statsKeySection uid supplied)

/-- `sync_worker_prom_session`. -/
def syncWorkerPromSection (authorized unnamed : Bool) : Section :=
  touchField uid .walletAddr ++
    if authorized then workerContextSection uid unnamed ++ touch .workerLastActivity else []

/-- `get_create_stats`: a new entry is seeded while the map is locked. -/
def getCreateStatsSection (supplied unnamed fresh seeded authorized : Bool) : Section :=
  effectiveWorkerNameSection uid unnamed ++
    (statsKeySection uid supplied ++
      (guarded (.stats handler)
          (if fresh then
            touchField uid .stratumDiff ++
              if seeded then touchCell entry .minDiff else []
          else []) ++
        syncWorkerPromSection uid authorized unnamed))

def activateVardiffSection (supplied unnamed fresh seeded authorized : Bool) : Section :=
  getCreateStatsSection handler uid entry supplied unnamed fresh seeded authorized ++
    (touchCell entry .activeConnections ++
      (touchCell entry .varDiffStartTime ++
        (touchCell entry .varDiffSharesFound ++
          (touchCell entry .varDiffWindow ++ touchCell entry .lastSessionActivity))))

def deactivateVardiffSection (supplied found : Bool) : Section :=
  getStatsIfExistsSection handler uid supplied ++
    if found then touchCell entry .activeConnections ++ touchCell entry .lastSessionActivity
    else []

/-- `register_client_vardiff`. -/
def registerVardiffSection (supplied unnamed fresh seeded authorized starts : Bool) : Section :=
  getCreateStatsSection handler uid entry supplied unnamed fresh seeded authorized ++
    (touchCell entry .minDiff ++
      (touchCell entry .varDiffStartTime ++
        ((if starts then touchCell entry .varDiffStartTime else []) ++
          touchCell entry .lastSessionActivity)))

/-- `should_retain_vardiff_stats`: the first guard lives to the end of the expression. -/
def shouldRetainSection (active : Bool) : Section :=
  guarded (.cell entry .activeConnections)
    (if active then [] else touchCell entry .lastSessionActivity)

/-- A round of the prune thread. -/
def pruneSection (entries : List (Nat × Bool)) : Section :=
  guarded (.stats handler) (entries.flatMap fun (entry, active) => shouldRetainSection entry active)

/-- One entry of a vardiff round. -/
def vardiffEntrySection (active started moves named : Bool) : Section :=
  touchCell entry .activeConnections ++
    if active then
      touchCell entry .varDiffStartTime ++
        if started then
          touchCell entry .varDiffSharesFound ++
            (touchCell entry .minDiff ++
              if moves then
                touchCell entry .minDiff ++
                  (touchCell entry .varDiffStartTime ++
                    (touchCell entry .varDiffSharesFound ++
                      (touchCell entry .varDiffWindow ++ logLine named)))
              else [])
        else []
    else []

/-- A round of the vardiff thread. -/
def vardiffRoundSection (entries : List (Nat × Bool × Bool × Bool × Bool)) : Section :=
  guarded (.stats handler) (entries.flatMap fun (entry, active, started, moves, named) =>
    vardiffEntrySection entry active started moves named)

/-- One entry of the table that is printed. -/
def printEntrySection (timed : Bool) : Section :=
  (if timed then touchCell entry .sharesDiff else []) ++
    [StatsCell.sharesFound, .staleShares, .invalidShares, .blocksFound, .minDiff,
      .workerName].flatMap fun cell => touchCell entry cell

/-- One instance in a round of the print thread. -/
def printInstanceSection (overall : Nat) (entries : List (Nat × Bool)) : Section :=
  ([StatsCell.sharesFound, .staleShares, .invalidShares, .blocksFound].flatMap fun cell =>
      touchCell overall cell) ++
    guarded (.stats handler) (entries.flatMap fun (entry, timed) => printEntrySection entry timed)

end Stats

/-! ## The client handler -/

section Clients

variable (handler uid entry : Nat)

def onConnectSection (named : Bool) : Section :=
  touchField uid .extranonce ++
    (touchField uid .id ++ (touch (.clients handler) ++ logLine named))

/-- `on_disconnect`: the clients stay locked to its end. -/
def onDisconnectSection (registered supplied found first known authed unnamed named : Bool) :
    Section :=
  (if registered then deactivateVardiffSection handler uid entry supplied found else []) ++
    (disconnectSection uid first named ++
      guarded (.clients handler)
        (touchField uid .id ++
          ((if known then logLine named ++ logLine named else []) ++
            (touchField uid .walletAddr ++
              (touchField uid .workerName ++
                (touchField uid .remoteApp ++
                  if authed then
                    workerContextSection uid unnamed ++ touch .workerLastActivity
                  else []))))))

/-- `disconnect_all`. -/
def disconnectAllSection (clients : List (Nat × Bool × Bool)) : Section :=
  touch (.clients handler) ++
    ((clients.flatMap fun (uid, first, named) => disconnectSection uid first named) ++
      touch (.clients handler))

/-- The address check of a publication: the guard is dropped before the disconnect, which locks
the address again. -/
def addressCheckSection (missing expired first named : Bool) : Section :=
  guarded (.context uid .walletAddr) (if missing then logLine named else []) ++
    if missing && expired then disconnectSection uid first named ++ logLine named else []

/-- The extranonce of a submitted nonce. -/
def submitExtranonceSection (named : Bool) : Section :=
  guarded (.context uid .extranonce) (logLine named)

end Clients

/-! ## Routines -/

/-- The sections of the bridge; `touch` stands for each section that holds one mutex only. -/
inductive Routine where
  | touch (mutex : Mutex)
  | log (named : Bool)
  | addJob (uid : Nat) (overwrites named : Bool)
  | getJob (uid : Nat)
  | getJobDiff (uid : Nat) (found : Bool)
  | latestJob (uid : Nat) (any : Bool)
  | setAuthorizedWorkerName (uid : Nat) (unnamed : Bool)
  | effectiveWorkerName (uid : Nat) (unnamed : Bool)
  | summary (uid : Nat)
  | disconnect (uid : Nat) (first named : Bool)
  | markAuthorized (uid : Nat)
  | workerContext (uid : Nat) (unnamed : Bool)
  | getStatsIfExists (handler uid : Nat) (supplied : Bool)
  | getCreateStats (handler uid entry : Nat) (supplied unnamed fresh seeded authorized : Bool)
  | activateVardiff (handler uid entry : Nat) (supplied unnamed fresh seeded authorized : Bool)
  | deactivateVardiff (handler uid entry : Nat) (supplied found : Bool)
  | registerVardiff (handler uid entry : Nat)
      (supplied unnamed fresh seeded authorized starts : Bool)
  | prune (handler : Nat) (entries : List (Nat × Bool))
  | vardiffRound (handler : Nat) (entries : List (Nat × Bool × Bool × Bool × Bool))
  | printInstance (handler overall : Nat) (entries : List (Nat × Bool))
  | onConnect (handler uid : Nat) (named : Bool)
  | onDisconnect (handler uid entry : Nat)
      (registered supplied found first known authed unnamed named : Bool)
  | disconnectAll (handler : Nat) (clients : List (Nat × Bool × Bool))
  | addressCheck (uid : Nat) (missing expired first named : Bool)
  | submitExtranonce (uid : Nat) (named : Bool)

def Routine.script : Routine → Section
  | .touch mutex => alone mutex
  | .log named => logLine named
  | .addJob uid overwrites named => addJobSection uid overwrites named
  | .getJob uid => getJobSection uid
  | .getJobDiff uid found => getJobDiffSection uid found
  | .latestJob uid any => latestJobSection uid any
  | .setAuthorizedWorkerName uid unnamed => setAuthorizedWorkerNameSection uid unnamed
  | .effectiveWorkerName uid unnamed => effectiveWorkerNameSection uid unnamed
  | .summary uid => summarySection uid
  | .disconnect uid first named => disconnectSection uid first named
  | .markAuthorized uid => markAuthorizedSection uid
  | .workerContext uid unnamed => workerContextSection uid unnamed
  | .getStatsIfExists handler uid supplied => getStatsIfExistsSection handler uid supplied
  | .getCreateStats handler uid entry supplied unnamed fresh seeded authorized =>
      getCreateStatsSection handler uid entry supplied unnamed fresh seeded authorized
  | .activateVardiff handler uid entry supplied unnamed fresh seeded authorized =>
      activateVardiffSection handler uid entry supplied unnamed fresh seeded authorized
  | .deactivateVardiff handler uid entry supplied found =>
      deactivateVardiffSection handler uid entry supplied found
  | .registerVardiff handler uid entry supplied unnamed fresh seeded authorized starts =>
      registerVardiffSection handler uid entry supplied unnamed fresh seeded authorized starts
  | .prune handler entries => pruneSection handler entries
  | .vardiffRound handler entries => vardiffRoundSection handler entries
  | .printInstance handler overall entries => printInstanceSection handler overall entries
  | .onConnect handler uid named => onConnectSection handler uid named
  | .onDisconnect handler uid entry registered supplied found first known authed unnamed named =>
      onDisconnectSection handler uid entry registered supplied found first known authed unnamed
        named
  | .disconnectAll handler clients => disconnectAllSection handler clients
  | .addressCheck uid missing expired first named =>
      addressCheckSection uid missing expired first named
  | .submitExtranonce uid named => submitExtranonceSection uid named

/-! ## The order is kept -/

section Order

variable {floor : Nat} (handler uid entry : Nat)

theorem climbs_logLine (named : Bool) (below : floor < 11) :
    Climbs Mutex.rank floor (logLine named) :=
  .ite (.alone (by simpa using below))

/-- A mutex of the last places is held alone. -/
theorem climbs_last {mutex : Mutex} (last : 9 < mutex.rank) (below : floor < 10) :
    Climbs Mutex.rank floor (alone mutex) :=
  .alone (by omega)

theorem climbs_field (field : ContextField) (below : floor < 3) :
    Climbs Mutex.rank floor (alone (.context uid field)) := by
  apply Climbs.alone
  cases field <;> simp <;> omega

theorem climbs_addJob (overwrites named : Bool) :
    Climbs Mutex.rank 0 (addJobSection uid overwrites named) := by
  have log := @climbs_logLine 6 named (by simp)
  have diff : Climbs Mutex.rank 6 (alone (.context uid .stratumDiff)) :=
    .alone (by simp)
  apply Climbs.guarded (by simp)
  apply Climbs.guarded (by simp)
  apply Climbs.guarded (by simp)
  apply Climbs.guarded (by simp)
  exact (Climbs.ite log).append (diff.append log)

theorem climbs_getJob : Climbs Mutex.rank 0 (getJobSection uid) :=
  .guarded (by simp) (.alone (by simp))

theorem climbs_ensureDefaultWorkerName (unnamed : Bool) (below : floor < 8) :
    Climbs Mutex.rank floor (ensureDefaultWorkerNameSection uid unnamed) :=
  .guarded below (.ite (.alone (by simp)))

theorem climbs_effectiveWorkerName (unnamed : Bool) (below : floor < 8) :
    Climbs Mutex.rank floor (effectiveWorkerNameSection uid unnamed) :=
  (climbs_ensureDefaultWorkerName uid unnamed below).append (.alone below)

theorem climbs_workerContext (unnamed : Bool) (below : floor < 7) :
    Climbs Mutex.rank floor (workerContextSection uid unnamed) :=
  (climbs_effectiveWorkerName uid unnamed (by omega)).append (.alone below)

theorem climbs_disconnect (first named : Bool) (below : floor < 3) :
    Climbs Mutex.rank floor (disconnectSection uid first named) := by
  have field := fun field => @climbs_field floor uid field below
  have log := @climbs_logLine floor named (by omega)
  exact .ite ((field _).append ((field _).append ((field _).append
    (log.append ((field _).append (field _))))))

theorem climbs_statsKey (supplied : Bool) (below : floor < 3) :
    Climbs Mutex.rank floor (statsKeySection uid supplied) :=
  (climbs_field uid _ below).append (.ite (climbs_field uid _ below))

theorem climbs_getStatsIfExists (supplied : Bool) :
    Climbs Mutex.rank 0 (getStatsIfExistsSection handler uid supplied) :=
  .guarded (by simp) (climbs_statsKey uid supplied (by simp))

theorem climbs_syncWorkerProm (authorized unnamed : Bool) :
    Climbs Mutex.rank 0 (syncWorkerPromSection uid authorized unnamed) :=
  (climbs_field uid _ (by simp)).append
    (.ite ((climbs_workerContext uid unnamed (by simp)).append (.alone (by simp))))

theorem climbs_getCreateStats (supplied unnamed fresh seeded authorized : Bool) :
    Climbs Mutex.rank 0
      (getCreateStatsSection handler uid entry supplied unnamed fresh seeded authorized) := by
  have seeding : Climbs Mutex.rank 2 (touchField uid .stratumDiff ++
      if seeded then touchCell entry .minDiff else []) :=
    (Climbs.alone (by simp)).append (.ite (.alone (by simp)))
  have map : Climbs Mutex.rank 0 (guarded (.stats handler) (if fresh then
      touchField uid .stratumDiff ++ if seeded then touchCell entry .minDiff else []
      else [])) := .guarded (by simp) (.ite seeding)
  exact (climbs_effectiveWorkerName uid unnamed (by simp)).append
    ((climbs_statsKey uid supplied (by simp)).append
      (map.append (climbs_syncWorkerProm uid authorized unnamed)))

theorem climbs_cell (cell : StatsCell) (below : floor < 9) :
    Climbs Mutex.rank floor (alone (.cell entry cell)) := by
  apply Climbs.alone
  cases cell <;> simp <;> omega

theorem climbs_deactivateVardiff (supplied found : Bool) :
    Climbs Mutex.rank 0 (deactivateVardiffSection handler uid entry supplied found) :=
  (climbs_getStatsIfExists handler uid supplied).append
    (.ite ((climbs_cell entry _ (by simp)).append (climbs_cell entry _ (by simp))))

theorem climbs_shouldRetain (active : Bool) :
    Climbs Mutex.rank 2 (shouldRetainSection entry active) := by
  apply Climbs.guarded (by simp)
  cases active with
  | true => exact .nil
  | false => exact .alone (by simp)

theorem climbs_vardiffEntry (active started moves named : Bool) :
    Climbs Mutex.rank 2 (vardiffEntrySection entry active started moves named) := by
  have cell := fun cell => @climbs_cell 2 entry cell (by simp)
  have log := @climbs_logLine 2 named (by simp)
  have moved := (cell .minDiff).append ((cell .varDiffStartTime).append
    ((cell .varDiffSharesFound).append ((cell .varDiffWindow).append log)))
  exact (cell _).append (.ite ((cell _).append (.ite ((cell _).append
    ((cell _).append (.ite moved))))))

theorem climbs_printEntry (timed : Bool) :
    Climbs Mutex.rank 2 (printEntrySection entry timed) :=
  (Climbs.ite (climbs_cell entry _ (by simp))).append
    (.flatMap fun cell => climbs_cell entry cell (by simp))

theorem climbs_onDisconnect
    (registered supplied found first known authed unnamed named : Bool) :
    Climbs Mutex.rank 0 (onDisconnectSection handler uid entry registered supplied found first known
      authed unnamed named) := by
  have field := fun field => @climbs_field 1 uid field (by simp)
  have log := @climbs_logLine 1 named (by simp)
  have context := @climbs_workerContext 1 uid unnamed (by simp)
  have activity : Climbs Mutex.rank 1 (alone .workerLastActivity) := .alone (by simp)
  have logs := @Climbs.ite _ _ _ _ known (log.append log)
  have recorded := @Climbs.ite _ _ _ _ authed (context.append activity)
  have inside := (field .id).append (logs.append ((field .walletAddr).append
    ((field .workerName).append ((field .remoteApp).append recorded))))
  exact (Climbs.ite (climbs_deactivateVardiff handler uid entry supplied found)).append
    ((climbs_disconnect uid first named (by simp)).append
      (.guarded (by simp) inside))

theorem rank_pos (mutex : Mutex) : 0 < mutex.rank := by
  unfold Mutex.rank
  split <;> simp

/-- Every section takes its mutexes in the order. -/
theorem climbs_script (routine : Routine) : Climbs Mutex.rank 0 routine.script := by
  have field := fun uid field => @climbs_field 0 uid field (by simp)
  have cell := fun entry cell => @climbs_cell 0 entry cell (by simp)
  have log := fun named => @climbs_logLine 0 named (by simp)
  cases routine with
  | touch mutex => exact .alone (rank_pos mutex)
  | log named => exact log named
  | addJob uid overwrites named => exact climbs_addJob uid overwrites named
  | getJob uid => exact climbs_getJob uid
  | getJobDiff uid found => exact (field _ _).append (.ite (field _ _))
  | latestJob uid any => exact (field _ _).append (.ite (climbs_getJob uid))
  | setAuthorizedWorkerName uid unnamed =>
      exact (field _ _).append (climbs_ensureDefaultWorkerName uid unnamed (by simp))
  | effectiveWorkerName uid unnamed => exact climbs_effectiveWorkerName uid unnamed (by simp)
  | summary uid =>
      exact .guarded (by simp) (.guarded (by simp)
        (.alone (by simp)))
  | disconnect uid first named => exact climbs_disconnect uid first named (by simp)
  | markAuthorized uid => exact (field _ _).append (field _ _)
  | workerContext uid unnamed => exact climbs_workerContext uid unnamed (by simp)
  | getStatsIfExists handler uid supplied => exact climbs_getStatsIfExists handler uid supplied
  | getCreateStats handler uid entry supplied unnamed fresh seeded authorized =>
      exact climbs_getCreateStats handler uid entry supplied unnamed fresh seeded authorized
  | activateVardiff handler uid entry supplied unnamed fresh seeded authorized =>
      exact (climbs_getCreateStats ..).append ((cell _ _).append ((cell _ _).append
        ((cell _ _).append ((cell _ _).append (cell _ _)))))
  | deactivateVardiff handler uid entry supplied found =>
      exact climbs_deactivateVardiff handler uid entry supplied found
  | registerVardiff handler uid entry supplied unnamed fresh seeded authorized starts =>
      exact (climbs_getCreateStats ..).append ((cell _ _).append ((cell _ _).append
        ((Climbs.ite (cell _ _)).append (cell _ _))))
  | prune handler entries =>
      exact .guarded (by simp) (.flatMap fun item => climbs_shouldRetain _ _)
  | vardiffRound handler entries =>
      exact .guarded (by simp) (.flatMap fun item => climbs_vardiffEntry _ _ _ _ _)
  | printInstance handler overall entries =>
      exact (Climbs.flatMap fun item => cell _ _).append
        (.guarded (by simp) (.flatMap fun item => climbs_printEntry _ _))
  | onConnect handler uid named =>
      exact (field _ _).append ((field _ _).append
        ((Climbs.alone (by simp)).append (log named)))
  | onDisconnect handler uid entry registered supplied found first known authed unnamed named =>
      exact climbs_onDisconnect handler uid entry registered supplied found first known authed
        unnamed named
  | disconnectAll handler clients =>
      have all : Climbs Mutex.rank 0 (alone (.clients handler)) := .alone (by simp)
      exact all.append ((Climbs.flatMap fun item => climbs_disconnect _ _ _ (by simp)).append all)
  | addressCheck uid missing expired first named =>
      have inside := @climbs_logLine 7 named (by simp)
      exact (Climbs.guarded (by simp) (.ite inside)).append
        (.ite ((climbs_disconnect uid first named (by simp)).append (log named)))
  | submitExtranonce uid named =>
      exact .guarded (by simp) (climbs_logLine named (by simp))

end Order

/-! ## No thread waits for ever -/

/-- Threads that run routines, one after the other. -/
def working {Id : Type} (work : Id → List Routine) (thread : Id) : Thread Mutex :=
  ⟨[], (work thread).flatMap Routine.script⟩

/-- **Mutexes do not jam.** However many threads run sections of the bridge, in whatever order and
however their steps interleave: no mutex is held by two threads; while a thread has something to
do, some thread can act; and after as many steps as there are actions, every thread is done and
holds nothing. -/
theorem mutexes_never_jam {Id : Type} [DecidableEq Id] [Fintype Id] (work : Id → List Routine)
    {count : Nat} {threads : Id → Thread Mutex} (stepped : Steps (working work) count threads) :
    (∀ first second mutex, mutex ∈ (threads first).held → mutex ∈ (threads second).held →
      first = second) ∧
    ((∃ thread, (threads thread).todo ≠ []) → ∃ next, Step threads next) ∧
    count ≤ remaining (working work) ∧
    (count = remaining (working work) →
      ∀ thread, (threads thread).todo = [] ∧ (threads thread).held = []) := by
  have climbs : ∀ thread, Climbs Mutex.rank 0 ((work thread).flatMap Routine.script) :=
    fun thread => .flatMap climbs_script
  have sound : Sound Mutex.rank (working work) := sound_of_climbs climbs
  have reached := sound.steps stepped
  obtain ⟨-, bounded, done⟩ := sound.completes stepped
  exact ⟨reached.exclusive, reached.progress, bounded, done⟩

namespace Sample

/-- One thread adds a job while another one reads the ring of the same connection. -/
def ringWork : Bool → List Routine
  | true => [.addJob 1 false false]
  | false => [.getJob 1]

/-- The job counter and the jobs are taken; the reader waits, and the writer goes on. -/
theorem mutexes_never_jam_sample :
    ∃ threads, Steps (working ringWork) 2 threads ∧
      (∀ first second mutex, mutex ∈ (threads first).held → mutex ∈ (threads second).held →
        first = second) ∧
      ∃ next, Step threads next := by
  have first := Steps.snoc .refl (@Step.acquire _ _ _ (working ringWork) true
    (.context 1 .jobCounter) _ _ rfl (by decide))
  have second := Steps.snoc first (@Step.acquire _ _ _ _ true (.context 1 .jobs) _ _ rfl
    (by decide))
  obtain ⟨exclusive, progress, -⟩ := mutexes_never_jam ringWork second
  exact ⟨_, second, exclusive, progress ⟨false, by decide⟩⟩

end Sample

end StratumBridge
