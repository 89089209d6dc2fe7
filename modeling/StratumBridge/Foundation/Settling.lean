import Mathlib.Algebra.Order.Archimedean.Basic
import Mathlib.Algebra.Order.Archimedean.Real.Basic

/-! # Iterations that settle

A partial step is applied over and over; where it computes nothing, the state stays. An
iteration settles when some step computes nothing. It does where every step that computes
multiplies a bounded quantity, and it never does where every step computes.
-/

namespace Settling

variable {α : Type*} {next : ℕ → α → Option α}

/-- The state after a number of steps. -/
def run (next : ℕ → α → Option α) (start : α) : ℕ → α
  | 0 => start
  | time + 1 => (next time (run next start time)).getD (run next start time)

def Settles (next : ℕ → α → Option α) (start : α) : Prop :=
  ∃ time, next time (run next start time) = none

/-- What every step that computes preserves. -/
theorem run_preserves {invariant : α → Prop} {start : α} (initial : invariant start)
    (step : ∀ time state after, invariant state → next time state = some after →
      invariant after) (time : ℕ) : invariant (run next start time) := by
  induction time with
  | zero => exact initial
  | succ time ih =>
      rw [run]
      cases computed : next time (run next start time) with
      | none => exact ih
      | some after => exact step time _ after ih computed

/-- **Growth.** If every step that computes multiplies a positive bounded quantity by more than
one, the iteration settles. -/
theorem settles_of_growth {invariant : α → Prop} {value : α → ℝ} {factor bound : ℝ} {start : α}
    (expands : 1 < factor) (initial : invariant start)
    (bounded : ∀ state, invariant state → 0 < value state ∧ value state ≤ bound)
    (grows : ∀ time state after, invariant state → next time state = some after →
      invariant after ∧ factor * value state ≤ value after) : Settles next start := by
  by_contra never
  have inside := run_preserves initial fun time state after held computed =>
    (grows time state after held computed).1
  have powers : ∀ time, factor ^ time * value start ≤ value (run next start time) := by
    intro time
    induction time with
    | zero => rw [pow_zero, one_mul]; exact le_rfl
    | succ time ih =>
        obtain ⟨after, computed⟩ := Option.ne_none_iff_exists'.mp (not_exists.mp never time)
        have step := (grows time _ after (inside time) computed).2
        have reached : run next start (time + 1) = after := by rw [run, computed, Option.getD_some]
        calc factor ^ (time + 1) * value start = factor * (factor ^ time * value start) := by ring
          _ ≤ factor * value (run next start time) :=
            mul_le_mul_of_nonneg_left ih (by linarith)
          _ ≤ value after := step
          _ = value (run next start (time + 1)) := by rw [reached]
  have positive := (bounded start initial).1
  obtain ⟨time, large⟩ := pow_unbounded_of_one_lt (bound / value start) expands
  rw [div_lt_iff₀ positive] at large
  exact absurd ((powers time).trans (bounded _ (inside time)).2) (not_le.mpr large)

/-- An iteration whose every step computes never settles. -/
theorem not_settles {invariant : α → Prop} {start : α} (initial : invariant start)
    (moves : ∀ time state, invariant state →
      ∃ after, next time state = some after ∧ invariant after) : ¬Settles next start := by
  rintro ⟨time, nothing⟩
  have inside : invariant (run next start time) := by
    apply run_preserves initial
    intro time state after held computed
    obtain ⟨other, found, kept⟩ := moves time state held
    cases computed.symm.trans found
    exact kept
  obtain ⟨after, computed, -⟩ := moves time _ inside
  cases nothing.symm.trans computed

end Settling
