import Mathlib.Logic.Basic

/-! # Programs over shared operations

A task of a concurrent system is a tree of calls to shared operations. Between
two calls the task computes on its own data, so the calls are the only points at
which tasks interleave. A monitor follows the calls of one task: it keeps a ghost
value, says which call is allowed next, and says how a call moves the ghost.
-/

namespace Interaction

/-- The shared operations of a system and the answer each returns. -/
structure Signature where
  Op : Type
  Answer : Op → Type

/-- A task: finished, or about to call an operation. -/
inductive Program (sig : Signature) (α : Type) where
  | done (result : α)
  | call (op : sig.Op) (next : sig.Answer op → Program sig α)

namespace Program

variable {sig : Signature} {α β : Type}

/-- Sequential composition. -/
def bind : Program sig α → (α → Program sig β) → Program sig β
  | done result, rest => rest result
  | call op next, rest => call op fun answer => bind (next answer) rest

instance : Monad (Program sig) where
  pure := done
  bind := bind

/-- The task that makes one call and returns its answer. -/
def perform (op : sig.Op) : Program sig (sig.Answer op) := call op done

@[simp] theorem pure_eq (result : α) : (pure result : Program sig α) = done result := rfl

@[simp] theorem done_bind (result : α) (rest : α → Program sig β) :
    (done result >>= rest) = rest result := rfl

@[simp] theorem call_bind (op : sig.Op) (next : sig.Answer op → Program sig α)
    (rest : α → Program sig β) :
    (call op next >>= rest) = call op fun answer => next answer >>= rest := rfl

@[simp] theorem perform_bind (op : sig.Op) (rest : sig.Answer op → Program sig β) :
    (perform op >>= rest) = call op rest := rfl

/-- Every call the task can make satisfies the predicate. -/
def Within (allowed : sig.Op → Prop) : Program sig α → Prop
  | done _ => True
  | call op next => allowed op ∧ ∀ answer, Within allowed (next answer)

section Within

variable {allowed : sig.Op → Prop}

@[simp] theorem within_done (result : α) : Within allowed (done result : Program sig α) := trivial

@[simp] theorem within_call (op : sig.Op) (next : sig.Answer op → Program sig α) :
    Within allowed (call op next) ↔ allowed op ∧ ∀ answer, Within allowed (next answer) := Iff.rfl

@[simp] theorem within_perform (op : sig.Op) : Within allowed (perform op) ↔ allowed op :=
  ⟨fun within => within.1, fun isAllowed => ⟨isAllowed, fun _ => trivial⟩⟩

theorem Within.mono {weaker : sig.Op → Prop} {program : Program sig α}
    (within : Within allowed program) (weaken : ∀ op, allowed op → weaker op) :
    Within weaker program := by
  induction program with
  | done result => trivial
  | call op next ih => exact ⟨weaken op within.1, fun answer => ih answer (within.2 answer)⟩

/-- A composition stays within what both parts stay within. -/
theorem Within.bind {first : Program sig α} {rest : α → Program sig β}
    (head : Within allowed first) (tail : ∀ result, Within allowed (rest result)) :
    Within allowed (first >>= rest) := by
  induction first with
  | done result => exact tail result
  | call op next ih => exact ⟨head.1, fun answer => ih answer (head.2 answer)⟩

end Within

end Program

/-- An observer of one task. `answers` is what the observer may rely on about the
answers of the operations. -/
structure Monitor (sig : Signature) where
  Ghost : Type
  allowed : Ghost → sig.Op → Prop
  answers : (op : sig.Op) → sig.Answer op → Prop
  next : Ghost → (op : sig.Op) → sig.Answer op → Ghost

namespace Monitor

variable {sig : Signature} {α β : Type} (monitor : Monitor sig)

/-- From this ghost value the task only makes allowed calls, and it finishes with
the postcondition. -/
def Follows (ghost : monitor.Ghost) : Program sig α → (monitor.Ghost → α → Prop) → Prop
  | .done result, post => post ghost result
  | .call op rest, post =>
      monitor.allowed ghost op ∧
        ∀ answer, monitor.answers op answer →
          Follows (monitor.next ghost op answer) (rest answer) post

variable {monitor} {ghost : monitor.Ghost}

@[simp] theorem follows_done (result : α) (post : monitor.Ghost → α → Prop) :
    monitor.Follows ghost (.done result) post ↔ post ghost result := Iff.rfl

theorem follows_call (op : sig.Op) (rest : sig.Answer op → Program sig α)
    (post : monitor.Ghost → α → Prop) :
    monitor.Follows ghost (.call op rest) post ↔
      monitor.allowed ghost op ∧ ∀ answer, monitor.answers op answer →
        monitor.Follows (monitor.next ghost op answer) (rest answer) post := Iff.rfl

/-- **Sequencing rule.** -/
theorem follows_bind (first : Program sig α) (rest : α → Program sig β)
    (post : monitor.Ghost → β → Prop) :
    monitor.Follows ghost (first >>= rest) post ↔
      monitor.Follows ghost first fun middle result => monitor.Follows middle (rest result) post := by
  induction first generalizing ghost with
  | done result => exact Iff.rfl
  | call op next ih =>
      rw [Program.call_bind, follows_call, follows_call]
      exact and_congr_right fun _ => forall_congr' fun answer => imp_congr_right fun _ => ih answer

/-- **Consequence rule.** -/
theorem Follows.mono {program : Program sig α} {post weaker : monitor.Ghost → α → Prop}
    (follows : monitor.Follows ghost program post)
    (weaken : ∀ after result, post after result → weaker after result) :
    monitor.Follows ghost program weaker := by
  induction program generalizing ghost with
  | done result => exact weaken ghost result follows
  | call op next ih =>
      exact ⟨follows.1, fun answer isAnswer => ih answer (follows.2 answer isAnswer)⟩

/-- Sequencing with a postcondition of the first part already proved. -/
theorem Follows.bind {first : Program sig α} {rest : α → Program sig β}
    {middle : monitor.Ghost → α → Prop} {post : monitor.Ghost → β → Prop}
    (head : monitor.Follows ghost first middle)
    (tail : ∀ after result, middle after result → monitor.Follows after (rest result) post) :
    monitor.Follows ghost (first >>= rest) post :=
  (follows_bind first rest post).mpr (head.mono tail)

/-- The monitor ignores the operation: always allowed, and the ghost stays. -/
def Ignores (monitor : Monitor sig) (op : sig.Op) : Prop :=
  ∀ ghost, monitor.allowed ghost op ∧ ∀ answer, monitor.next ghost op answer = ghost

/-- A task within ignored operations leaves the ghost alone. -/
theorem follows_of_within {program : Program sig α}
    (within : Program.Within monitor.Ignores program) :
    monitor.Follows ghost program fun after _ => after = ghost := by
  induction program with
  | done result => rfl
  | call op next ih =>
      obtain ⟨ignored, tail⟩ := within
      refine ⟨(ignored ghost).1, ?_⟩
      intro answer _
      rw [(ignored ghost).2 answer]
      exact ih answer (tail answer)

end Monitor

end Interaction
