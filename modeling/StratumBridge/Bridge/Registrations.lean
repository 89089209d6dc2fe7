import StratumBridge.Bridge.VardiffCalls

/-! # The connections a worker's statistics count

The statistics of a worker count the connections that are registered under its wallet and name.
An entry nobody is counted in may be dropped once it was idle for long, also between the step in
which a connection finds it and the step in which it counts itself there.
-/

namespace StratumBridge

open Interaction

section Model

variable [Platform] {deployment : Deployment}

/-! ## The registered connections -/

/-- Which connection each task registers, and the connections that are registered: from the step
that counts them to the step that counts them off. -/
structure Roster where
  owner : Nat → Option Nat
  registered : Finset Nat

def Roster.note (roster : Roster) : (bridge deployment).Entry → Roster
  | .started thread request =>
      { roster with owner := Function.update roster.owner thread request.registers }
  | .did thread op _ =>
      { roster with registered := registeredAfter (roster.owner thread) roster.registered op }
  | .finished _ _ => roster

def rosterOf (log : Record deployment) : Roster := log.foldl Roster.note ⟨fun _ => none, ∅⟩

@[simp] theorem rosterOf_snoc (log : Record deployment) (entry : (bridge deployment).Entry) :
    rosterOf (log ++ [entry]) = (rosterOf log).note entry := by
  rw [rosterOf, List.foldl_append]
  rfl

/-- What a task has in hand. -/
def handOf (thread : Nat) (log : Record deployment) : Option (Option Nat × Hand) :=
  @System.ghostOf (bridge deployment) (hands deployment) (fun request => (request.registers, .settled))
    thread log

/-- A registered connection has an entry, an entry counts the registered connections with its key,
and no step takes a connection off an entry that counts none. -/
structure RegistrationsCounted (config : (bridge deployment).Config) : Prop where
  present : ∀ uid ∈ (rosterOf config.log).registered,
    ∃ handle, entryOf config.state (handlerOf deployment uid) (keyIn config.state uid) = some handle
  counted : ∀ instanceId key handle, entryOf config.state instanceId key = some handle →
    activeIn config.state instanceId handle =
      ((rosterOf config.log).registered.filter fun uid =>
        handlerOf deployment uid = instanceId ∧ keyIn config.state uid = key).card
  positive : ∀ thread instanceId handle next, config.running thread =
      some (.call (.stats instanceId (.write handle .connectionClosed)) next) →
    0 < activeIn config.state instanceId handle

/-- The entry of a registered connection counts someone. -/
theorem RegistrationsCounted.active_ne {config : (bridge deployment).Config}
    (holds : RegistrationsCounted config) {uid handle : Nat}
    (inside : uid ∈ (rosterOf config.log).registered)
    (found : entryOf config.state (handlerOf deployment uid) (keyIn config.state uid) = some handle) :
    activeIn config.state (handlerOf deployment uid) handle ≠ 0 := by
  rw [holds.counted _ _ handle found]
  exact Finset.card_ne_zero_of_mem (Finset.mem_filter.mpr ⟨inside, rfl, rfl⟩)

/-! ## Conditions on a run -/

/-- Not registered yet. -/
def Context.Unregistered (context : Context) : Prop :=
  context.vardiffRegistered = false ∧ context.Named

/-- The tasks that register or unregister one connection follow one another. -/
def InTurn (config : (bridge deployment).Config) : (bridge deployment).Event → Prop
  | .start request => ∀ uid thread, request.registers = some uid →
      (rosterOf config.log).owner thread = some uid → config.running thread = none
  | .step _ _ => True

/-- No entry is dropped in which a task is about to count its connection. -/
def KeepsInHand (config : (bridge deployment).Config) (event : (bridge deployment).Event) : Prop :=
  ∀ pruner instanceId now, System.Calls config event pruner (.stats instanceId (.prune now)) →
    ∀ thread uid handle, handOf thread config.log = some (some uid, .holding handle) →
      handlerOf deployment uid = instanceId →
        ((config.state.stats instanceId).cells handle).shouldRetain now = true

/-! ## Every run -/

/-- The connection a running task works on, and what the task has in hand. -/
def heldBy (config : (bridge deployment).Config) (thread : Nat) : Option (Nat × Hand) :=
  if config.running thread = none then none
  else (handOf thread config.log).bind fun ghost => ghost.1.map fun uid => (uid, ghost.2)

section HeldBy

variable {config : (bridge deployment).Config} {thread : Nat}

theorem heldBy_start {request : BridgeRequest}
    (unknown : handOf config.count config.log = none) :
    heldBy (config.start request) = Function.update (heldBy config) config.count
      (request.registers.map fun uid => (uid, .settled)) := by
  funext other
  simp only [heldBy, System.Config.start, handOf, System.ghostOf_snoc, System.ghostStep]
  by_cases here : other = config.count
  · subst here
    rw [handOf] at unknown
    simp [unknown]
  · simp [here, Ne.symm here, heldBy, handOf]

theorem heldBy_finish {result : BridgeResult} :
    heldBy { config with
      running := Function.update config.running thread none
      log := config.log ++ [.finished thread result] } =
        Function.update (heldBy config) thread none := by
  funext other
  simp only [heldBy, handOf, System.ghostOf_snoc, System.ghostStep]
  by_cases here : other = thread
  · subst here
    simp
  · simp [here, heldBy, handOf]

theorem heldBy_call {op : BridgeOp} {answer : op.Answer} {after : BridgeState}
    {rest : Task BridgeResult} {owner : Option Nat} {hand : Hand}
    (known : handOf thread config.log = some (owner, hand)) :
    heldBy { config with
      state := after
      running := Function.update config.running thread (some rest)
      log := config.log ++ [.did thread op answer] } =
        Function.update (heldBy config) thread
          (owner.map fun uid => (uid, hand.next owner op answer)) := by
  funext other
  simp only [heldBy, handOf, System.ghostOf_snoc, System.ghostStep]
  by_cases here : other = thread
  · subst here
    rw [handOf] at known
    simp [known]
  · simp [here, Ne.symm here, heldBy, handOf]

theorem heldBy_of_running {owner : Option Nat} {hand : Hand} (running : config.running thread ≠ none)
    (known : handOf thread config.log = some (owner, hand)) :
    heldBy config thread = owner.map fun uid => (uid, hand) := by
  rw [heldBy, if_neg running, known, Option.bind_some]

theorem running_of_heldBy {uid : Nat} {hand : Hand} (holds : heldBy config thread = some (uid, hand)) :
    config.running thread ≠ none ∧ handOf thread config.log = some (some uid, hand) := by
  unfold heldBy at holds
  split at holds
  · cases holds
  · next running =>
      obtain ⟨⟨owner, held⟩, known, owned⟩ := Option.bind_eq_some_iff.mp holds
      obtain ⟨conn, rfl, same⟩ := Option.map_eq_some_iff.mp owned
      cases same
      exact ⟨running, known⟩

end HeldBy

section Run

variable {events : List (bridge deployment).Event}

/-- The tasks that register a connection are known to be its. -/
theorem owners_execute (events : List (bridge deployment).Event) (thread : Nat) :
    (rosterOf (System.execute events).log).owner thread =
      (handOf thread (System.execute events).log).bind Prod.fst := by
  induction events using List.reverseRecOn with
  | nil => rfl
  | append_singleton events event ih =>
      have observed := hands_execute events
      rw [System.execute_snoc]
      have step := System.advance_cases (System.execute events) event
      revert ih observed step
      generalize (System.execute events).advance event = after
      generalize System.execute events = config
      intro ih observed step
      cases step with
      | stutter => exact ih
      | start request =>
          have unknown := (observed.fresh config.count (Nat.le_refl _)).2
          simp only [System.Config.start, rosterOf_snoc, Roster.note, handOf, System.ghostOf_snoc,
            System.ghostStep]
          by_cases here : config.count = thread
          · subst here
            rw [Function.update_self, if_pos rfl, unknown]
            rfl
          · rw [Function.update_of_ne (Ne.symm here), if_neg here]
            exact ih
      | finish other env result running =>
          rw [rosterOf_snoc, handOf, System.ghostOf_snoc]
          exact ih
      | call other env op next answer state running performed =>
          rw [rosterOf_snoc, handOf, System.ghostOf_snoc, System.ghostStep]
          split
          · rw [Roster.note, ih, handOf]
            cases System.ghostOf (hands deployment) _ thread config.log <;> rfl
          · exact ih

/-- Who works on a connection was started to. -/
theorem started_of_owner {log : Record deployment} {thread uid : Nat}
    (owned : (rosterOf log).owner thread = some uid) :
    ∃ request, .started thread request ∈ log ∧ request.registers = some uid := by
  induction log using List.reverseRecOn with
  | nil => cases owned
  | append_singleton log entry ih =>
      rw [rosterOf_snoc] at owned
      have earlier : (rosterOf log).owner thread = some uid →
          ∃ request, .started thread request ∈ log ++ [entry] ∧ request.registers = some uid := by
        intro owned
        obtain ⟨request, member, registers⟩ := ih owned
        exact ⟨request, List.mem_append_left _ member, registers⟩
      cases entry with
      | did other op answer => exact earlier owned
      | finished other result => exact earlier owned
      | started other request =>
          simp only [Roster.note] at owned
          by_cases here : thread = other
          · subst here
            rw [Function.update_self] at owned
            exact ⟨request, List.mem_append_right _ List.mem_cons_self, owned⟩
          · rw [Function.update_of_ne here] at owned
            exact earlier owned

/-- Before any task starts, no connection is registered. -/
theorem orderly_idle (unregistered : ∀ uid, (deployment.contexts uid).Unregistered) :
    Orderly deployment (System.idle (bridge deployment)).state ∅
      (heldBy (System.idle (bridge deployment))) := by
  refine ⟨fun _ _ _ found => (nomatch found), fun uid => (unregistered uid).2,
    fun instanceId => ⟨fun uid inside => ?_, fun _ _ found => (nomatch found),
      fun _ _ _ found _ => (nomatch found)⟩, fun _ _ _ _ _ holds _ => (nomatch holds),
    fun _ _ _ holds => (nomatch holds), fun uid _ => ?_⟩
  · exact absurd (Finset.mem_filter.mp inside).1 (Finset.notMem_empty uid)
  · have unmarked : (deployment.contexts uid).vardiffRegistered = false := (unregistered uid).1
    simp [Hand.Fits, System.idle, initialState, unmarked]

/-- **Invariant.** It holds in every run whose connections start unregistered, in which the tasks
that register a connection follow one another and pruning keeps the entries in hand. -/
theorem orderly_execute (unregistered : ∀ uid, (deployment.contexts uid).Unregistered)
    (inTurn : System.Along InTurn events) (keeps : System.Along KeepsInHand events) :
    Orderly deployment (System.execute events).state
      (rosterOf (System.execute events).log).registered (heldBy (System.execute events)) := by
  induction events using List.reverseRecOn with
  | nil => exact orderly_idle unregistered
  | append_singleton events event ih =>
      obtain ⟨turns, turn⟩ := System.along_snoc.mp inTurn
      obtain ⟨kept, keep⟩ := System.along_snoc.mp keeps
      have orderly := ih turns kept
      have observed := hands_execute events
      have owners := owners_execute events
      rw [System.execute_snoc]
      have step := System.advance_cases (System.execute events) event
      clear ih inTurn keeps turns kept
      revert orderly observed owners step turn keep
      generalize (System.execute events).advance event = after
      generalize System.execute events = config
      intro turn keep orderly observed owners step
      cases step with
      | stutter => exact orderly
      | start request =>
          have unknown := (observed.fresh config.count (Nat.le_refl _)).2
          have idle : heldBy config config.count = none := by
            rw [heldBy, if_pos (observed.fresh config.count (Nat.le_refl _)).1]
          rw [heldBy_start unknown]
          simp only [System.Config.start, rosterOf_snoc, Roster.note]
          cases registers : request.registers with
          | none =>
              rw [Option.map_none, ← idle, Function.update_eq_self]
              exact orderly
          | some uid =>
              refine orderly.take (fun other hand holds => ?_) idle
              obtain ⟨running, known⟩ := running_of_heldBy holds
              refine running (turn uid other registers ?_)
              rw [owners, known]
              rfl
      | finish thread env result running =>
          obtain ⟨⟨owner, hand⟩, known, rest⟩ := observed.running thread _ running
          have holds := heldBy_of_running (running ▸ Option.some_ne_none _) known
          rw [heldBy_finish, rosterOf_snoc]
          cases owner with
          | none =>
              rw [Option.map_none] at holds
              rw [← holds, Function.update_eq_self]
              exact orderly
          | some uid => exact orderly.leave holds rest
      | call thread env op next answer state running performed =>
          obtain ⟨⟨owner, hand⟩, known, permitted, -⟩ := observed.running thread _ running
          change handOf thread config.log = some (owner, hand) at known
          have holds := heldBy_of_running (running ▸ Option.some_ne_none _) known
          rw [heldBy_call known, rosterOf_snoc]
          simp only [Roster.note]
          rw [owners, known, Option.bind_some]
          refine orderly.call holds performed permitted ?_
          rintro instanceId now rfl task uid handle inHand own
          exact keep thread instanceId now ⟨env, next, rfl, running⟩ task uid handle
            (running_of_heldBy inHand).2 own

/-- **Registrations.** In every such run the entries count the registered connections. -/
theorem registrations_counted (unregistered : ∀ uid, (deployment.contexts uid).Unregistered)
    (inTurn : System.Along InTurn events) (keeps : System.Along KeepsInHand events) :
    RegistrationsCounted (System.execute events) := by
  have orderly := orderly_execute unregistered inTurn keeps
  refine ⟨fun uid inside => orderly.present inside, fun instanceId key handle found => ?_, ?_⟩
  · rw [(orderly.counts instanceId).counted key handle found, Headcount.count, enrolled,
      Finset.filter_filter]
  · intro thread instanceId handle next running
    obtain ⟨⟨owner, hand⟩, known, permitted, -⟩ :=
      (hands_execute events).running thread _ running
    obtain ⟨uid, rfl, rfl, rfl⟩ := permitted
    have holds := heldBy_of_running (running ▸ Option.some_ne_none _) known
    obtain ⟨-, inside, found⟩ := orderly.fits thread uid _ holds
    exact orderly.pos inside found

end Run

end Model

section Sample

attribute [local instance] Sample.platform

namespace Sample

/-- A miner authorizes. -/
def joinsAs (uid thread made now : Nat) : List (bridge (deployment none)).Event :=
  .start (.authorize uid ⟨none, [.string (Text.ofString "w.r")]⟩) ::
    steps none thread made { now }

/-- A miner authorizes and leaves. An hour later it comes back, and idle workers are dropped when
its authorization has made so many calls. -/
def comesBack (made : Nat) : List (bridge (deployment none)).Event :=
  joinsAs 1 0 60 0 ++ .start (.disconnect 1) :: steps none 1 24 {} ++
    joinsAs 2 2 made inactiveVardiffTtl ++
      .start (.pruneStats 0) :: steps none 3 3 { now := inactiveVardiffTtl } ++
        steps none 2 40 { now := inactiveVardiffTtl }

theorem deployment_unregistered (uid : Nat) : ((deployment none).contexts uid).Unregistered :=
  have named : Text.trim (context none).workerName ≠ [] := by decide
  ⟨rfl, fun _ => named⟩

/-- No running task registers the connection that a new task registers. -/
def turnFree (config : (bridge (deployment none)).Config) :
    (bridge (deployment none)).Event → Bool
  | .start request => config.log.all fun entry =>
      match entry with
      | .started thread earlier =>
          earlier.registers != request.registers || (config.running thread).isNone ||
            request.registers.isNone
      | .did _ _ _ => true
      | .finished _ _ => true
  | .step _ _ => true

theorem inTurn_of_turnFree {events : List (bridge (deployment none)).Event}
    (passes : System.checkAlong turnFree (System.idle _) events = true) :
    System.Along InTurn events := by
  refine System.along_of_check ?_ passes
  intro config event passed
  cases event with
  | step thread env => trivial
  | start request =>
      intro uid thread registers owned
      obtain ⟨earlier, started, same⟩ := started_of_owner owned
      have free := List.all_eq_true.mp passed _ started
      simpa [same, registers] using free

/-- Pruning keeps the entries in hand. -/
def handsKept (config : (bridge (deployment none)).Config) :
    (bridge (deployment none)).Event → Bool
  | .start _ => true
  | .step thread _ =>
      match config.running thread with
      | some (.call (.stats instanceId (.prune now)) _) => config.log.all fun entry =>
          match entry with
          | .started task _ =>
              match handOf task config.log with
              | some (some _, .holding handle) =>
                  ((config.state.stats instanceId).cells handle).shouldRetain now
              | _ => true
          | .did _ _ _ => true
          | .finished _ _ => true
      | _ => true

theorem keepsInHand_of_handsKept {events : List (bridge (deployment none)).Event}
    (passes : System.checkAlong handsKept (System.idle _) events = true) :
    System.Along KeepsInHand events := by
  refine System.along_of_check ?_ passes
  rintro config event passed pruner instanceId now ⟨env, next, rfl, running⟩ task uid handle inHand -
  simp only [handsKept, running] at passed
  obtain ⟨request, started⟩ := System.started_of_ghostOf inHand
  have kept := List.all_eq_true.mp passed _ started
  simpa only [inHand] using kept

/-- Idle workers are dropped before the miner that comes back looks for its entry. -/
theorem registrations_counted_sample : RegistrationsCounted (System.execute (comesBack 13)) :=
  registrations_counted deployment_unregistered (inTurn_of_turnFree (by decide +kernel))
    (keepsInHand_of_handsKept (by decide +kernel))

/-- Idle workers are dropped when the miner that comes back has found its entry: the entry that is
made then counts no one. -/
theorem dropped_in_hand :
    System.Along InTurn (comesBack 14) ∧ ¬RegistrationsCounted (System.execute (comesBack 14)) := by
  refine ⟨inTurn_of_turnFree (by decide +kernel), fun counted => ?_⟩
  refine @RegistrationsCounted.active_ne _ _ _ counted 2 1 ?_ ?_ ?_
  · decide +kernel
  · decide +kernel
  · decide +kernel

end Sample

end Sample

end StratumBridge
