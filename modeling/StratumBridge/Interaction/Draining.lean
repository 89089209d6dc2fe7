import Mathlib.Data.DFinsupp.WellFounded
import StratumBridge.Interaction.Progress

/-! # Draining

When no task starts any more, the running tasks only go down their programs, which are
well-founded trees. So if some task can go on whenever one is running, then a schedule that lets
every running task run again and again finishes all of them.
-/

namespace Interaction.System

variable {sys : System} {schedule : Nat → sys.Event} {events : List sys.Event}

/-- The task can make its next call, whatever the environment, or finish. -/
def Unblocked (state : sys.State) : Program sys.sig sys.Result → Prop
  | .done _ => True
  | .call op _ => ∀ env, sys.perform op state env ≠ none

variable (sys) in
/-- After every run, if a task is running then some running task can go on. -/
def Live : Prop :=
  ∀ events : List sys.Event, (∃ thread, (execute events).running thread ≠ none) →
    ∃ thread program, (execute events).running thread = some program ∧
      Unblocked (execute events).state program

/-- The schedule starts no task. -/
def Closing (schedule : Nat → sys.Event) : Prop :=
  ∀ moment request, schedule moment ≠ .start request

/-! ## Going down the programs -/

/-- One turn of a task that goes on: it ends, or its program goes down one branch. -/
inductive Descends {sig : Signature} {α : Type} :
    Option (Program sig α) → Option (Program sig α) → Prop where
  | ended (result : α) : Descends none (some (.done result))
  | called (op : sig.Op) (next : sig.Answer op → Program sig α) (answer : sig.Answer op) :
      Descends (some (next answer)) (some (.call op next))

theorem descends_wellFounded {sig : Signature} {α : Type} :
    WellFounded (@Descends sig α) := by
  have ended : Acc (@Descends sig α) none := ⟨none, fun _ descends => nomatch descends⟩
  refine ⟨fun program => ?_⟩
  cases program with
  | none => exact ended
  | some program =>
      induction program with
      | done result =>
          refine ⟨_, fun lower descends => ?_⟩
          cases descends
          exact ended
      | call op next ih =>
          refine ⟨_, fun lower descends => ?_⟩
          cases descends with
          | called _ _ answer => exact ih answer

/-- What the tasks with numbers below the bound have left to do. -/
def tasksBelow (bound : Nat) (config : sys.Config) :
    Fin bound → Option (Program sys.sig sys.Result) :=
  fun thread => config.running thread

/-- One of finitely many tasks went on, and no other changed. -/
def LessToDo {bound : Nat} (after before : Fin bound → Option (Program sys.sig sys.Result)) :
    Prop :=
  Pi.Lex (· < ·) Descends after before

theorem lessToDo_wellFounded (bound : Nat) :
    WellFounded (@LessToDo sys bound) :=
  Pi.Lex.wellFounded (· < ·) fun _ => descends_wellFounded

theorem lessToDo_update {bound thread : Nat} {config after : sys.Config}
    {rest : Option (Program sys.sig sys.Result)} (below : thread < bound)
    (runs : after.running = Function.update config.running thread rest)
    (descends : Descends rest (config.running thread)) :
    LessToDo (tasksBelow bound after) (tasksBelow bound config) := by
  refine ⟨⟨thread, below⟩, fun other earlier => ?_, ?_⟩
  · rw [tasksBelow, tasksBelow, runs]
    exact Function.update_of_ne (Nat.ne_of_lt earlier) _ _
  · rw [tasksBelow, tasksBelow, runs, Function.update_self]
    exact descends

/-- **Descent.** A turn changes nothing, or leaves less to do. -/
theorem step_descends (config : sys.Config) {bound thread : Nat} {env : sys.Env}
    (below : ∀ program, config.running thread = some program → thread < bound) :
    config.step thread env = config ∨
      (config.step thread env).count = config.count ∧
        LessToDo (tasksBelow bound (config.step thread env)) (tasksBelow bound config) := by
  have step := advance_cases config (.step thread env)
  change Step config _ (config.step thread env) at step
  generalize config.step thread env = after at step ⊢
  cases step with
  | stutter => exact Or.inl rfl
  | finish _ _ result running =>
      refine Or.inr ⟨rfl, lessToDo_update (below _ running) rfl ?_⟩
      rw [running]
      exact .ended result
  | call _ _ op next answer state running performed =>
      refine Or.inr ⟨rfl, lessToDo_update (below _ running) rfl ?_⟩
      rw [running]
      exact .called op next answer

/-- A task that can go on does so when it has its turn. -/
theorem step_ne_of_unblocked {config : sys.Config} {thread : Nat} {env : sys.Env}
    {program : Program sys.sig sys.Result} (running : config.running thread = some program)
    (unblocked : Unblocked config.state program) : config.step thread env ≠ config := by
  have longer : ∀ entry : sys.Entry, config.log ++ [entry] ≠ config.log := by
    intro entry same
    have lengths := congrArg List.length same
    rw [List.length_append, List.length_singleton] at lengths
    exact absurd lengths (Nat.succ_ne_self _)
  intro same
  cases program with
  | done result =>
      refine longer (.finished thread result) ?_
      have logs := congrArg Config.log same
      simpa only [Config.step, running] using logs
  | call op next =>
      obtain ⟨⟨answer, after⟩, performed⟩ := Option.ne_none_iff_exists'.mp (unblocked env)
      refine longer (.did thread op answer) ?_
      have logs := congrArg Config.log same
      simpa only [Config.step, running, performed] using logs

/-! ## Closing schedules -/

theorem Closing.exists_step (closing : Closing schedule) (moment : Nat) :
    ∃ thread env, schedule moment = .step thread env := by
  cases chosen : schedule moment with
  | start request => exact absurd chosen (closing moment request)
  | step thread env => exact ⟨thread, env, rfl⟩

/-- Every event of a closing schedule changes nothing, or leaves less to do. -/
theorem Closing.descends (closing : Closing schedule) (events : List sys.Event) (moment : Nat) :
    scheduled events schedule (moment + 1) = scheduled events schedule moment ∨
      (scheduled events schedule (moment + 1)).count = (scheduled events schedule moment).count ∧
        LessToDo (tasksBelow (scheduled events schedule moment).count
            (scheduled events schedule (moment + 1)))
          (tasksBelow (scheduled events schedule moment).count
            (scheduled events schedule moment)) := by
  obtain ⟨thread, env, chosen⟩ := closing.exists_step moment
  rw [scheduled_succ, chosen]
  exact step_descends _ fun program running => (tasks_execute _).2.1 thread program running

theorem Closing.count_eq (closing : Closing schedule) (events : List sys.Event) (moment : Nat) :
    (scheduled events schedule moment).count = (execute events).count := by
  induction moment with
  | zero => rw [scheduled, List.range_zero, List.map_nil, List.append_nil]
  | succ moment ih =>
      rcases closing.descends events moment with same | ⟨count, -⟩
      · rw [same, ih]
      · rw [count, ih]

/-- A task that runs later ran when the schedule began. -/
theorem Closing.running_before (closing : Closing schedule) {moment thread : Nat}
    (running : (scheduled events schedule moment).running thread ≠ none) :
    (execute events).running thread ≠ none := by
  induction moment with
  | zero => rwa [scheduled, List.range_zero, List.map_nil, List.append_nil] at running
  | succ moment ih =>
      apply ih
      obtain ⟨caller, env, chosen⟩ := closing.exists_step moment
      have step := advance_cases (scheduled events schedule moment) (.step caller env)
      rw [scheduled_succ, chosen] at running
      generalize (scheduled events schedule moment).advance (.step caller env) = after
        at running step
      cases step with
      | stutter => exact running
      | finish _ _ result ends =>
          by_cases same : thread = caller
          · subst same
            exact absurd (Function.update_self ..) running
          · exact fun idle => running ((Function.update_of_ne same _ _).trans idle)
      | call _ _ op next answer state calls performed =>
          by_cases same : thread = caller
          · subst same
            exact calls ▸ Option.some_ne_none _
          · exact fun idle => running ((Function.update_of_ne same _ _).trans idle)

/-- While a task can go on and will have its turn, some event leaves less to do. -/
theorem Closing.exists_descent (closing : Closing schedule) {moment thread : Nat}
    {program : Program sys.sig sys.Result} (fair : Fair thread schedule)
    (running : (scheduled events schedule moment).running thread = some program)
    (unblocked : Unblocked (scheduled events schedule moment).state program) :
    ∃ later, moment < later ∧
      LessToDo (tasksBelow (execute events).count (scheduled events schedule later))
        (tasksBelow (execute events).count (scheduled events schedule moment)) := by
  obtain ⟨turn, late, env, here⟩ := fair moment
  obtain ⟨gap, rfl⟩ := Nat.exists_eq_add_of_le late
  -- The first event that changes anything, by induction on the distance to the task's turn.
  induction gap generalizing moment with
  | zero =>
      rcases closing.descends events moment with same | ⟨-, less⟩
      · refine absurd same ?_
        rw [scheduled_succ, show schedule moment = _ from here]
        exact step_ne_of_unblocked running unblocked
      · exact ⟨moment + 1, Nat.lt_succ_self _, closing.count_eq events moment ▸ less⟩
  | succ gap ih =>
      rcases closing.descends events moment with same | ⟨-, less⟩
      · obtain ⟨later, after, less⟩ := @ih (moment + 1) (same ▸ running) (same ▸ unblocked)
          (Nat.le_add_right _ _) (by rw [← here, Nat.add_right_comm, Nat.add_assoc])
        exact ⟨later, Nat.lt_of_succ_lt after, same ▸ less⟩
      · exact ⟨moment + 1, Nat.lt_succ_self _, closing.count_eq events moment ▸ less⟩

/-- Nothing happens while no task is running. -/
theorem Closing.stays (closing : Closing schedule) {moment : Nat}
    (idle : ∀ thread, (scheduled events schedule moment).running thread = none) (extra : Nat) :
    scheduled events schedule (moment + extra) = scheduled events schedule moment := by
  induction extra with
  | zero => rfl
  | succ extra ih =>
      obtain ⟨thread, env, chosen⟩ := closing.exists_step (moment + extra)
      rw [← Nat.add_assoc, scheduled_succ, chosen, ih]
      simp only [Config.advance, Config.step, idle thread]

/-- **Draining.** In a live system, a schedule that starts nothing and is fair to the running
tasks finishes them all. -/
theorem Closing.drains (live : Live sys) (closing : Closing schedule)
    (fair : ∀ thread, (execute events).running thread ≠ none → Fair thread schedule) :
    ∃ moment, ∀ later, moment ≤ later →
      scheduled events schedule later = scheduled events schedule moment ∧
        ∀ thread, (scheduled events schedule later).running thread = none := by
  have drained : ∀ (todo : Fin (execute events).count → Option (Program sys.sig sys.Result))
      (moment : Nat),
      tasksBelow (execute events).count (scheduled events schedule moment) = todo →
        ∃ later, ∀ thread, (scheduled events schedule later).running thread = none := by
    intro todo
    induction todo using (@lessToDo_wellFounded sys (execute events).count).induction with
    | h todo ih =>
        rintro moment rfl
        by_cases busy : ∃ thread, (scheduled events schedule moment).running thread ≠ none
        · obtain ⟨thread, program, running, unblocked⟩ := live _ busy
          have began := closing.running_before (running ▸ Option.some_ne_none program)
          obtain ⟨later, -, less⟩ := closing.exists_descent (fair thread began) running unblocked
          exact ih _ less later rfl
        · exact ⟨moment, fun thread => not_not.mp fun runs => busy ⟨thread, runs⟩⟩
  obtain ⟨moment, idle⟩ := drained _ 0 rfl
  refine ⟨moment, fun later after => ?_⟩
  obtain ⟨extra, rfl⟩ := Nat.exists_eq_add_of_le after
  rw [closing.stays idle extra]
  exact ⟨rfl, idle⟩

end Interaction.System
