import StratumBridge.Interaction.Program

/-! # What a task can do

Given what the operations may answer, a task can finish with some results and can make
some calls on the way.
-/

namespace Interaction.Program

variable {sig : Signature} {α β : Type} {answers : (op : sig.Op) → sig.Answer op → Prop}

/-- The task can finish with the value. -/
def Returns (answers : (op : sig.Op) → sig.Answer op → Prop) (value : α) : Program sig α → Prop
  | done result => result = value
  | call op next => ∃ answer, answers op answer ∧ Returns answers value (next answer)

/-- The task can make the call. -/
def Makes (answers : (op : sig.Op) → sig.Answer op → Prop) (wanted : sig.Op) :
    Program sig α → Prop
  | done _ => False
  | call op next => op = wanted ∨ ∃ answer, answers op answer ∧ Makes answers wanted (next answer)

@[simp] theorem returns_done (value result : α) :
    Returns answers value (done result : Program sig α) ↔ result = value := Iff.rfl

@[simp] theorem returns_call (value : α) (op : sig.Op) (next : sig.Answer op → Program sig α) :
    Returns answers value (call op next) ↔
      ∃ answer, answers op answer ∧ Returns answers value (next answer) := Iff.rfl

@[simp] theorem makes_done (wanted : sig.Op) (result : α) :
    ¬ Makes answers wanted (done result : Program sig α) := id

@[simp] theorem makes_call (wanted op : sig.Op) (next : sig.Answer op → Program sig α) :
    Makes answers wanted (call op next) ↔
      op = wanted ∨ ∃ answer, answers op answer ∧ Makes answers wanted (next answer) := Iff.rfl

theorem returns_bind {first : Program sig α} {rest : α → Program sig β} {value : β} :
    Returns answers value (first >>= rest) ↔
      ∃ middle, Returns answers middle first ∧ Returns answers value (rest middle) := by
  induction first with
  | done result =>
      constructor
      · exact fun returns => ⟨result, rfl, returns⟩
      · rintro ⟨_, rfl, returns⟩
        exact returns
  | call op next ih =>
      rw [call_bind, returns_call]
      constructor
      · rintro ⟨answer, reliable, returns⟩
        obtain ⟨middle, first, second⟩ := (ih answer).mp returns
        exact ⟨middle, ⟨answer, reliable, first⟩, second⟩
      · rintro ⟨middle, ⟨answer, reliable, first⟩, second⟩
        exact ⟨answer, reliable, (ih answer).mpr ⟨middle, first, second⟩⟩

/-- A composition makes the calls of its first part, and those of its second part after any
result of the first. -/
theorem makes_bind {first : Program sig α} {rest : α → Program sig β} {wanted : sig.Op} :
    Makes answers wanted (first >>= rest) ↔
      Makes answers wanted first ∨
        ∃ middle, Returns answers middle first ∧ Makes answers wanted (rest middle) := by
  induction first with
  | done result =>
      constructor
      · exact fun makes => .inr ⟨result, rfl, makes⟩
      · rintro (never | ⟨_, rfl, makes⟩)
        · exact never.elim
        · exact makes
  | call op next ih =>
      rw [call_bind, makes_call, makes_call]
      constructor
      · rintro (here | ⟨answer, reliable, makes⟩)
        · exact .inl (.inl here)
        · rcases (ih answer).mp makes with inFirst | ⟨middle, first, second⟩
          · exact .inl (.inr ⟨answer, reliable, inFirst⟩)
          · exact .inr ⟨middle, ⟨answer, reliable, first⟩, second⟩
      · rintro ((here | ⟨answer, reliable, inFirst⟩) | ⟨middle, ⟨answer, reliable, first⟩, second⟩)
        · exact .inl here
        · exact .inr ⟨answer, reliable, (ih answer).mpr (.inl inFirst)⟩
        · exact .inr ⟨answer, reliable, (ih answer).mpr (.inr ⟨middle, first, second⟩)⟩

/-- A task makes only the calls it stays within. -/
theorem Makes.allowed {allowed : sig.Op → Prop} {task : Program sig α} {wanted : sig.Op}
    (makes : Makes answers wanted task) (within : Within allowed task) : allowed wanted := by
  induction task with
  | done result => exact makes.elim
  | call op next ih =>
      rcases makes with rfl | ⟨answer, -, makes⟩
      · exact within.1
      · exact ih answer makes (within.2 answer)

/-- Where every operation may answer something, every task can finish. -/
theorem exists_returns (answered : ∀ op, ∃ answer, answers op answer) (task : Program sig α) :
    ∃ value, Returns answers value task := by
  induction task with
  | done result => exact ⟨result, rfl⟩
  | call op next ih =>
      obtain ⟨answer, reliable⟩ := answered op
      obtain ⟨value, returns⟩ := ih answer
      exact ⟨value, answer, reliable, returns⟩

end Interaction.Program
