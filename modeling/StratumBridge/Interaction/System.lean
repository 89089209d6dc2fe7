import Mathlib.Data.List.Induction
import Mathlib.Logic.Function.Basic
import StratumBridge.Interaction.Program

/-! # Interleaved execution

A system runs any number of tasks over one shared state. An event starts a task
or lets one running task make its next call; the environment supplies what the
call cannot know (clock readings, replies of remote services). Any list of events
is a run: an event that cannot happen changes nothing, so a run needs no side
condition. Every start, call and finish is recorded in a log.
-/

namespace Interaction

/-- A shared state with its operations and the tasks that may run over it. -/
structure System where
  sig : Signature
  State : Type
  Env : Type
  initial : State
  /-- Perform an operation; `none` while it has to wait. -/
  perform : (op : sig.Op) → State → Env → Option (sig.Answer op × State)
  Request : Type
  Result : Type
  program : Request → Program sig Result

namespace System

variable (sys : System)

/-- A scheduling decision. -/
inductive Event where
  | start (request : sys.Request)
  | step (thread : Nat) (env : sys.Env)

/-- What the log records. -/
inductive Entry where
  | started (thread : Nat) (request : sys.Request)
  | did (thread : Nat) (op : sys.sig.Op) (answer : sys.sig.Answer op)
  | finished (thread : Nat) (result : sys.Result)

/-- The shared state, the running tasks and the log so far. Tasks are numbered in
the order in which they start. -/
structure Config where
  state : sys.State
  count : Nat
  running : Nat → Option (Program sys.sig sys.Result)
  log : List sys.Entry

variable {sys}

def Config.start (config : sys.Config) (request : sys.Request) : sys.Config :=
  { config with
    count := config.count + 1
    running := Function.update config.running config.count (some (sys.program request))
    log := config.log ++ [.started config.count request] }

/-- One call of a running task, or its finish. -/
def Config.step (config : sys.Config) (thread : Nat) (env : sys.Env) : sys.Config :=
  match config.running thread with
  | none => config
  | some (.done result) =>
      { config with
        running := Function.update config.running thread none
        log := config.log ++ [.finished thread result] }
  | some (.call op next) =>
      match sys.perform op config.state env with
      | none => config
      | some (answer, after) =>
          { config with
            state := after
            running := Function.update config.running thread (some (next answer))
            log := config.log ++ [.did thread op answer] }

def Config.advance (config : sys.Config) : sys.Event → sys.Config
  | .start request => config.start request
  | .step thread env => config.step thread env

variable (sys) in
/-- The configuration before any task starts. -/
def idle : sys.Config := ⟨sys.initial, 0, fun _ => none, []⟩

/-- The configuration a run reaches. -/
def execute (events : List sys.Event) : sys.Config := events.foldl Config.advance sys.idle

@[simp] theorem execute_nil : execute ([] : List sys.Event) = sys.idle := rfl

@[simp] theorem execute_snoc (events : List sys.Event) (event : sys.Event) :
    execute (events ++ [event]) = (execute events).advance event := by
  rw [execute, List.foldl_append]
  rfl

/-- What one event does: nothing, a start, a finish, or a performed call. -/
inductive Step (config : sys.Config) : sys.Event → sys.Config → Prop where
  | stutter (event : sys.Event) : Step config event config
  | start (request : sys.Request) : Step config (.start request) (config.start request)
  | finish (thread : Nat) (env : sys.Env) (result : sys.Result)
      (running : config.running thread = some (.done result)) :
      Step config (.step thread env)
        { config with
          running := Function.update config.running thread none
          log := config.log ++ [.finished thread result] }
  | call (thread : Nat) (env : sys.Env) (op : sys.sig.Op)
      (next : sys.sig.Answer op → Program sys.sig sys.Result)
      (answer : sys.sig.Answer op) (after : sys.State)
      (running : config.running thread = some (.call op next))
      (performed : sys.perform op config.state env = some (answer, after)) :
      Step config (.step thread env)
        { config with
          state := after
          running := Function.update config.running thread (some (next answer))
          log := config.log ++ [.did thread op answer] }

/-- **Inversion of an event.** -/
theorem advance_cases (config : sys.Config) (event : sys.Event) :
    Step config event (config.advance event) := by
  cases event with
  | start request => exact .start request
  | step thread env =>
      simp only [Config.advance, Config.step]
      cases running : config.running thread with
      | none => exact .stutter _
      | some program =>
          cases program with
          | done result => exact .finish thread env result running
          | call op next =>
              simp only
              cases performed : sys.perform op config.state env with
              | none => exact .stutter _
              | some outcome => exact .call thread env op next outcome.1 outcome.2 running performed

/-- The condition holds before every event of the run. -/
def Along (condition : sys.Config → sys.Event → Prop) (events : List sys.Event) : Prop :=
  ∀ front event back, events = front ++ event :: back → condition (execute front) event

section Along

variable {condition : sys.Config → sys.Event → Prop} {events : List sys.Event} {event : sys.Event}

theorem along_snoc :
    Along condition (events ++ [event]) ↔
      Along condition events ∧ condition (execute events) event := by
  constructor
  · intro along
    refine ⟨?_, along events event [] rfl⟩
    rintro front earlier back rfl
    exact along front earlier (back ++ [event]) (by rw [List.append_assoc, List.cons_append])
  · rintro ⟨along, last⟩ front earlier back split
    rcases List.eq_nil_or_concat back with rfl | ⟨body, final, rfl⟩
    · obtain ⟨rfl, same⟩ := List.append_inj' split rfl
      obtain rfl := (List.cons.inj same).1
      exact last
    · have regrouped : events ++ [event] = (front ++ earlier :: body) ++ [final] := by
        rw [split, List.concat_eq_append, List.append_assoc, List.cons_append]
      obtain ⟨rfl, -⟩ := List.append_inj' regrouped rfl
      exact along front earlier body rfl

/-- **Run rule.** What every event meeting the condition preserves holds after
every run along which the condition holds. -/
theorem execute_induction (Invariant : sys.Config → Prop) (initially : Invariant sys.idle)
    (preserved : ∀ config event after, Invariant config → condition config event →
      Step config event after → Invariant after)
    (along : Along condition events) : Invariant (execute events) := by
  induction events using List.reverseRecOn with
  | nil => exact initially
  | append_singleton events event ih =>
      obtain ⟨before, last⟩ := along_snoc.mp along
      rw [execute_snoc]
      exact preserved _ event _ (ih before) last (advance_cases _ event)

theorem Along.of_append {front back : List sys.Event} (along : Along condition (front ++ back)) :
    Along condition front := by
  rintro before event after rfl
  exact along before event (after ++ back) (by rw [List.append_assoc, List.cons_append])

/-- The unconditional run is along the trivial condition. -/
theorem along_true : Along (fun _ _ => True) events := fun _ _ _ _ => trivial

/-- A check made before every event. -/
def checkAlong (check : sys.Config → sys.Event → Bool) : sys.Config → List sys.Event → Bool
  | _, [] => true
  | config, event :: rest => check config event && checkAlong check (config.advance event) rest

theorem check_of_checkAlong {check : sys.Config → sys.Event → Bool} {front back : List sys.Event}
    {config : sys.Config} (passes : checkAlong check config (front ++ event :: back) = true) :
    check (front.foldl Config.advance config) event = true := by
  induction front generalizing config with
  | nil => exact ((Bool.and_eq_true _ _).mp passes).1
  | cons first front ih => exact ih ((Bool.and_eq_true _ _).mp passes).2

/-- A run that passes a check meets the condition it decides. -/
theorem along_of_check {check : sys.Config → sys.Event → Bool}
    (sound : ∀ config event, check config event = true → condition config event)
    (passes : checkAlong check sys.idle events = true) : Along condition events := by
  rintro front event back rfl
  exact sound _ _ (check_of_checkAlong passes)

end Along

end System

end Interaction
