import StratumBridge.Interaction.Observation

/-! # The clock of a run

Each step of a run happens at a time its environment gives. When the times do not go back, a
reading of the clock is no later than the steps after it and no earlier than those before it.
-/

namespace Interaction.System

variable {sys : System} {time : sys.Env → Nat} {front back rest : List sys.Event}
  {added : List sys.Entry} {thread caller : Nat} {env : sys.Env} {op : sys.sig.Op}
  {answer : sys.sig.Answer op}

/-- The times of the steps, in order. -/
def times (time : sys.Env → Nat) (events : List sys.Event) : List Nat :=
  events.filterMap fun event =>
    match event with
    | .start _ => none
    | .step _ env => some (time env)

/-- The times of the steps do not go back. -/
def Onward (time : sys.Env → Nat) (events : List sys.Event) : Prop :=
  (times time events).Pairwise fun first second => first ≤ second

theorem times_append (front back : List sys.Event) :
    times time (front ++ back) = times time front ++ times time back := List.filterMap_append

theorem mem_times (member : .step thread env ∈ front) : time env ∈ times time front :=
  List.mem_filterMap.mpr ⟨_, member, rfl⟩

theorem Onward.of_append (onward : Onward time (front ++ back)) : Onward time front := by
  rw [Onward, times_append] at onward
  exact (List.pairwise_append.mp onward).1

/-- The steps of a part of the run are no later than those of the part after it. -/
theorem Onward.le (onward : Onward time (front ++ back)) {first second : sys.Env}
    (early : .step caller first ∈ front) (late : .step thread second ∈ back) :
    time first ≤ time second := by
  rw [Onward, times_append] at onward
  exact (List.pairwise_append.mp onward).2.2 _ (mem_times early) _ (mem_times late)

/-- A call recorded after a point of the run was made by a step after it. -/
theorem exists_step_of_added
    (grown : (execute (front ++ back)).log = (execute front).log ++ added)
    (member : .did thread op answer ∈ added) :
    ∃ mid env rest after, back = mid ++ .step thread env :: rest ∧
      sys.perform op (execute (front ++ mid)).state env = some (answer, after) := by
  induction back using List.reverseRecOn generalizing added with
  | nil =>
      rw [List.append_nil] at grown
      rw [List.append_right_eq_self.mp grown.symm] at member
      exact absurd member List.not_mem_nil
  | append_singleton back event ih =>
      have earlier : ∀ {added : List sys.Entry},
          (execute (front ++ back)).log = (execute front).log ++ added →
          .did thread op answer ∈ added →
          ∃ mid env rest after, back ++ [event] = mid ++ .step thread env :: rest ∧
            sys.perform op (execute (front ++ mid)).state env = some (answer, after) := by
        intro added grown member
        obtain ⟨mid, env, rest, after, rfl, performed⟩ := ih grown member
        exact ⟨mid, env, rest ++ [event], after, by rw [List.append_assoc, List.cons_append],
          performed⟩
      obtain ⟨before, whole⟩ := log_grows front back
      have last : ∀ entry, (execute (front ++ back)).log ++ [entry] = (execute front).log ++ added →
          .did thread op answer ∈ before ∨ entry = .did thread op answer := by
        intro entry grown
        rw [← whole, List.append_assoc] at grown
        rw [← List.append_cancel_left grown] at member
        rcases List.mem_append.mp member with old | here
        · exact Or.inl old
        · exact Or.inr (List.mem_singleton.mp here).symm
      rw [← List.append_assoc, execute_snoc] at grown
      have step := advance_cases (execute (front ++ back)) event
      generalize (execute (front ++ back)).advance event = config at grown step
      cases step with
      | stutter => exact earlier grown member
      | start request =>
          rcases last _ grown with old | here
          · exact earlier whole.symm old
          · exact nomatch here
      | finish ended env result running =>
          rcases last _ grown with old | here
          · exact earlier whole.symm old
          · exact nomatch here
      | call maker env called next reply state running performed =>
          rcases last _ grown with old | here
          · exact earlier whole.symm old
          · cases here
            exact ⟨back, env, [], state, rfl, performed⟩

section Readings

variable {clock : (op : sys.sig.Op) → sys.sig.Answer op → Option Nat}
  (reads : ∀ op state env answer after now, sys.perform op state env = some (answer, after) →
    clock op answer = some now → time env = now)
include reads

/-- A reading of the clock is no later than the steps after it. -/
theorem reading_le (onward : Onward time (front ++ .step caller env :: rest)) {now : Nat}
    (made : .did thread op answer ∈ (execute front).log) (reading : clock op answer = some now) :
    now ≤ time env := by
  have grown : (execute ([] ++ front)).log = (execute []).log ++ (execute front).log := rfl
  obtain ⟨mid, earlier, after, state, rfl, performed⟩ := exists_step_of_added grown made
  rw [← reads op _ earlier answer state now performed reading]
  exact onward.le (List.mem_append_right mid List.mem_cons_self) List.mem_cons_self

/-- A reading of the clock is no earlier than the steps before it. -/
theorem le_reading (onward : Onward time (front ++ back)) (early : .step caller env ∈ front)
    (grown : (execute (front ++ back)).log = (execute front).log ++ added)
    (made : .did thread op answer ∈ added) {now : Nat} (reading : clock op answer = some now) :
    time env ≤ now := by
  obtain ⟨mid, later, after, state, rfl, performed⟩ := exists_step_of_added grown made
  rw [← reads op _ later answer state now performed reading]
  exact onward.le early (List.mem_append_right mid List.mem_cons_self)

end Readings

end Interaction.System
