import StratumBridge.Interaction.Balance

/-! # Tasks that never wait

A task whose operations can be performed in every state is finished by any schedule that
lets it run again and again, whatever the other tasks do in between: its program is a
well-founded tree, and each of its own steps goes down one branch.
-/

namespace Interaction.System

variable {sys : System} {thread : Nat} {schedule : Nat → sys.Event}

/-- The operation can be performed in every state. -/
def Ready (op : sys.sig.Op) : Prop :=
  ∀ state env, ∃ answer after, sys.perform op state env = some (answer, after)

/-- The schedule lets the task run again and again. -/
def Fair (thread : Nat) (schedule : Nat → sys.Event) : Prop :=
  ∀ earliest, ∃ moment, earliest ≤ moment ∧ ∃ env, schedule moment = .step thread env

/-- The configuration after a run and so many events of a schedule. -/
def scheduled (events : List sys.Event) (schedule : Nat → sys.Event) (count : Nat) : sys.Config :=
  execute (events ++ (List.range count).map schedule)

theorem scheduled_succ (events : List sys.Event) (count : Nat) :
    scheduled events schedule (count + 1) =
      (scheduled events schedule count).advance (schedule count) := by
  rw [scheduled, List.range_succ, List.map_append, List.map_singleton, ← List.append_assoc,
    execute_snoc, scheduled]

/-- Events that are no step of a running task leave it where it is. -/
theorem running_kept {events : List sys.Event} {event : sys.Event}
    {program : Program sys.sig sys.Result} (running : (execute events).running thread = some program)
    (other : ∀ env, event ≠ .step thread env) :
    ((execute events).advance event).running thread = some program := by
  have below := (tasks_execute events).2.1 thread program running
  have step := advance_cases (execute events) event
  generalize (execute events).advance event = after at step ⊢
  cases step with
  | stutter => exact running
  | start request => exact (Function.update_of_ne (Nat.ne_of_lt below) _ _).trans running
  | finish caller env result ended =>
      have different : thread ≠ caller := by
        rintro rfl
        exact other env rfl
      exact (Function.update_of_ne different _ _).trans running
  | call caller env op next answer state calling performed =>
      have different : thread ≠ caller := by
        rintro rfl
        exact other env rfl
      exact (Function.update_of_ne different _ _).trans running

/-- A running task is still where it was when its next turn comes. -/
theorem Fair.exists_turn (fair : Fair thread schedule) {events : List sys.Event} {moment : Nat}
    {program : Program sys.sig sys.Result}
    (running : (scheduled events schedule moment).running thread = some program) :
    ∃ turn env, schedule turn = .step thread env ∧
      (scheduled events schedule turn).running thread = some program := by
  obtain ⟨turn, late, env, here⟩ := fair moment
  obtain ⟨gap, rfl⟩ := Nat.exists_eq_add_of_le late
  -- The first turn from this moment on, by induction on the distance to some turn.
  induction gap generalizing moment with
  | zero => exact ⟨moment, env, here, running⟩
  | succ gap ih =>
      by_cases now : ∃ env, schedule moment = .step thread env
      · obtain ⟨first, turnsNow⟩ := now
        exact ⟨moment, first, turnsNow, running⟩
      · refine @ih (moment + 1) ?_ (Nat.le_add_right _ _) ?_
        · rw [scheduled_succ]
          exact running_kept running fun env same => now ⟨env, same⟩
        · rw [← here, Nat.add_right_comm, Nat.add_assoc]

/-- **A task that never waits is finished by every fair schedule.** -/
theorem Fair.finishes (fair : Fair thread schedule) {events : List sys.Event} {moment : Nat}
    {program : Program sys.sig sys.Result} (never : program.Within Ready)
    (running : (scheduled events schedule moment).running thread = some program) :
    ∃ later result, .finished thread result ∈ (scheduled events schedule later).log := by
  induction program generalizing moment with
  | done result =>
      obtain ⟨turn, env, here, running⟩ := fair.exists_turn running
      refine ⟨turn + 1, result, ?_⟩
      rw [scheduled_succ, here]
      simp only [Config.advance, Config.step, running, List.mem_append, List.mem_singleton, or_true]
  | call op next ih =>
      obtain ⟨turn, env, here, running⟩ := fair.exists_turn running
      obtain ⟨answer, after, performed⟩ := never.1 (scheduled events schedule turn).state env
      have advanced : (scheduled events schedule (turn + 1)).running thread =
          some (next answer) := by
        rw [scheduled_succ, here]
        simp only [Config.advance, Config.step, running, performed, Function.update_self]
      exact ih answer (never.2 answer) advanced

/-- The rest of a task stays within what its program stays within. -/
theorem running_within {allowed : sys.Request → sys.sig.Op → Prop}
    (programs : ∀ request, (sys.program request).Within (allowed request))
    (events : List sys.Event) {program : Program sys.sig sys.Result}
    (running : (execute events).running thread = some program) :
    ∃ request, .started thread request ∈ (execute events).log ∧
      program.Within (allowed request) := by
  refine execute_induction (fun config => ∀ thread program,
    config.running thread = some program → ∃ request, .started thread request ∈ config.log ∧
      program.Within (allowed request)) ?_ ?_ along_true thread program running
  · exact fun _ _ running => nomatch running
  · intro config event after known _ step
    have earlier : ∀ {other : Nat} {rest : Program sys.sig sys.Result} (entry : sys.Entry),
        config.running other = some rest → ∃ request,
          .started other request ∈ config.log ++ [entry] ∧ rest.Within (allowed request) := by
      intro other rest entry running
      obtain ⟨request, started, within⟩ := known other rest running
      exact ⟨request, List.mem_append_left _ started, within⟩
    cases step with
    | stutter => exact known
    | start request =>
        intro other rest running
        by_cases fresh : other = config.count
        · subst fresh
          simp only [Config.start, Function.update_self, Option.some.injEq] at running
          exact ⟨request, List.mem_append_right _ List.mem_cons_self, running ▸ programs request⟩
        · simp only [Config.start, Function.update_of_ne fresh] at running
          exact earlier _ running
    | finish caller env result ended =>
        intro other rest running
        by_cases same : other = caller
        · subst same
          simp only [Function.update_self, reduceCtorEq] at running
        · simp only [Function.update_of_ne same] at running
          exact earlier _ running
    | call caller env op next answer state calling performed =>
        intro other rest running
        by_cases same : other = caller
        · subst same
          simp only [Function.update_self, Option.some.injEq] at running
          obtain ⟨request, started, within⟩ := earlier (.did other op answer) calling
          exact ⟨request, started, running ▸ within.2 answer⟩
        · simp only [Function.update_of_ne same] at running
          exact earlier _ running

end Interaction.System
