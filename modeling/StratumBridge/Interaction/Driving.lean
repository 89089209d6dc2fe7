import StratumBridge.Interaction.System

/-! # A task that runs alone

Where a run gets when one task makes its next calls, each in a given environment. The calls are
followed one by one, whatever the state they start from.
-/

namespace Interaction.System

variable {sys : System}

/-- The task makes a call in each environment, none of which waits, and what it reaches and records
is as stated. -/
def Driven (thread : Nat) : List sys.Env → Program sys.sig sys.Result → sys.State →
    (sys.State → List sys.Entry → Prop) → Prop
  | [], _, state, post => post state []
  | _ :: _, .done _, _, _ => False
  | env :: envs, .call op next, state, post =>
      ∃ answer after, sys.perform op state env = some (answer, after) ∧
        Driven thread envs (next answer) after fun reached entries =>
          post reached (.did thread op answer :: entries)

section Rules

variable {thread : Nat} {program : Program sys.sig sys.Result} {envs : List sys.Env}
  {post : sys.State → List sys.Entry → Prop}

/-- A running task that is driven gets there. -/
theorem execute_driven {events : List sys.Event}
    (running : (execute events).running thread = some program)
    (driven : Driven thread envs program (execute events).state post) :
    ∃ entries, post (execute (events ++ envs.map (.step thread))).state entries ∧
      (execute (events ++ envs.map (.step thread))).log = (execute events).log ++ entries ∧
      (execute (events ++ envs.map (.step thread))).count = (execute events).count := by
  induction envs generalizing events program post with
  | nil =>
      simp only [List.map_nil, List.append_nil, List.self_eq_append_right, and_true]
      exact ⟨[], driven, rfl⟩
  | cons env envs ih =>
      cases program with
      | done result => exact driven.elim
      | call op next =>
          obtain ⟨answer, after, performed, rest⟩ := driven
          have advanced : execute (events ++ [.step thread env]) =
              { execute events with
                state := after
                running := Function.update (execute events).running thread (some (next answer))
                log := (execute events).log ++ [.did thread op answer] } := by
            rw [execute_snoc]
            simp only [Config.advance, Config.step, running, performed]
          have continues : (execute (events ++ [.step thread env])).running thread =
              some (next answer) := by
            rw [advanced]
            exact Function.update_self ..
          have reached : (execute (events ++ [.step thread env])).state = after := by
            rw [advanced]
          rw [← reached] at rest
          obtain ⟨entries, holds, log, count⟩ := ih continues rest
          rw [List.map_cons, ← List.singleton_append, ← List.append_assoc]
          refine ⟨.did thread op answer :: entries, holds, ?_, ?_⟩
          · rw [log, advanced, List.append_assoc, List.singleton_append]
          · rw [count, advanced]

/-- A task that is driven from its start. -/
theorem execute_start_driven {events : List sys.Event} {request : sys.Request}
    (counted : (execute events).count = thread)
    (driven : Driven thread envs (sys.program request) (execute events).state post) :
    ∃ entries, post (execute (events ++ .start request :: envs.map (.step thread))).state entries ∧
      (execute (events ++ .start request :: envs.map (.step thread))).log =
        (execute events).log ++ .started thread request :: entries ∧
      (execute (events ++ .start request :: envs.map (.step thread))).count = thread + 1 := by
  have starts : execute (events ++ [.start request]) = (execute events).start request :=
    execute_snoc events (.start request)
  have running : (execute (events ++ [.start request])).running thread =
      some (sys.program request) := by
    rw [starts, Config.start, counted]
    exact Function.update_self ..
  have same : (execute (events ++ [.start request])).state = (execute events).state := by
    rw [starts, Config.start]
  rw [← same] at driven
  obtain ⟨entries, holds, log, count⟩ := execute_driven running driven
  rw [← List.singleton_append, ← List.append_assoc]
  refine ⟨entries, holds, ?_, ?_⟩
  · rw [log, starts, Config.start, counted, List.append_assoc, List.singleton_append]
  · rw [count, starts, Config.start, counted]

end Rules

end Interaction.System
