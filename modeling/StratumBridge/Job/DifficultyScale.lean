import Mathlib.Algebra.Order.Floor.Ring
import Mathlib.Algebra.Order.Field.Rat
import Mathlib.Tactic.Linarith
import Mathlib.Tactic.NormNum
import Mathlib.Tactic.Positivity
import StratumBridge.Job.Difficulty

/-! # Difficulty as an inverse scale of targets

The divisor of the standard calculation grows with the difficulty and, below
2^68, is never above the scaled difficulty. The quotient then shrinks with the
difficulty and is never below the exact one.
-/

namespace StratumBridge

theorem asUnsigned_mono (width : Nat) : Monotone (asUnsigned width) := by
  intro low high le
  exact min_le_min_right _ (Int.toNat_le_toNat (Int.floor_le_floor le))

/-- A natural number of the width is cast to itself. -/
theorem asUnsigned_natCast {width number : Nat} (fits : number < 2 ^ width) :
    asUnsigned width (number : ℚ) = number := by
  unfold asUnsigned
  rw [Int.floor_natCast, Int.toNat_natCast]
  apply min_eq_left
  omega

/-- The cast never exceeds a value that is not negative. -/
theorem asUnsigned_le {width : Nat} {value : ℚ} (nonneg : 0 ≤ value) :
    (asUnsigned width value : ℚ) ≤ value := by
  have truncated : ((⌊value⌋.toNat : Nat) : ℚ) = (⌊value⌋ : ℚ) := by
    exact_mod_cast Int.toNat_of_nonneg (Int.floor_nonneg.mpr nonneg)
  calc (asUnsigned width value : ℚ) ≤ (⌊value⌋.toNat : Nat) := by
        exact_mod_cast min_le_left ⌊value⌋.toNat (2 ^ width - 1)
    _ ≤ value := by
        rw [truncated]
        exact Int.floor_le value

theorem diffScaled_mono : Monotone diffScaled := by
  intro low high le
  apply asUnsigned_mono
  exact mul_le_mul_of_nonneg_right le (by positivity)

/-- The divisor of a power of two. -/
theorem diffScaled_two_pow {exponent : Nat} (small : exponent ≤ 68) :
    diffScaled (2 ^ exponent) = 2 ^ exponent * 10 ^ 18 := by
  have bounded : 2 ^ exponent ≤ 2 ^ 68 := Nat.pow_le_pow_right (by omega) small
  have fits : 2 ^ exponent * 10 ^ 18 < 2 ^ 128 := by omega
  have cast : (2 ^ exponent * 10 ^ 18 : ℚ) = ((2 ^ exponent * 10 ^ 18 : Nat) : ℚ) := by
    norm_num
  unfold diffScaled
  rw [cast, asUnsigned_natCast fits]

theorem diffScaled_pos {diff : ℚ} (least : 1 ≤ diff) : 0 < diffScaled diff := by
  have one : diffScaled 1 = 10 ^ 18 := by
    simpa only [pow_zero, one_mul] using diffScaled_two_pow (Nat.zero_le 68)
  have grows : diffScaled 1 ≤ diffScaled diff := diffScaled_mono least
  omega

theorem diffToTargetStandard_of_pos {diff : ℚ} (positive : 0 < diff) :
    diffToTargetStandard diff = maxTarget * 10 ^ 18 / diffScaled diff := by
  unfold diffToTargetStandard
  rw [if_neg (not_le.mpr positive)]

theorem diffToTargetStandard_antitone : AntitoneOn diffToTargetStandard (Set.Ici 1) := by
  intro low inLow high inHigh le
  have lowPos : 0 < low := lt_of_lt_of_le one_pos inLow
  rw [diffToTargetStandard_of_pos lowPos, diffToTargetStandard_of_pos (lowPos.trans_le le)]
  exact Nat.div_le_div_left (diffScaled_mono le) (diffScaled_pos inLow)

/-- The quotient of the exact division is never above the target. -/
theorem floor_le_diffToTargetStandard {diff : ℚ} (least : 1 ≤ diff) :
    ⌊(2 ^ 224 - 1) / diff⌋ ≤ (diffToTargetStandard diff : Int) := by
  have positive : 0 < diff := lt_of_lt_of_le one_pos least
  have divisor : (0 : ℚ) < diffScaled diff := by exact_mod_cast diffScaled_pos least
  have scaled : (diffScaled diff : ℚ) ≤ diff * 10 ^ 18 :=
    asUnsigned_le (by positivity)
  have whole : (maxTarget : ℚ) = 2 ^ 224 - 1 := by norm_num [maxTarget]
  have quotient : (2 ^ 224 - 1) / diff ≤
      ((maxTarget * 10 ^ 18 : Nat) : ℚ) / (diffScaled diff : ℚ) := by
    push_cast
    rw [whole, div_le_div_iff₀ positive divisor]
    calc (2 ^ 224 - 1 : ℚ) * diffScaled diff ≤ (2 ^ 224 - 1) * (diff * 10 ^ 18) :=
          mul_le_mul_of_nonneg_left scaled (by norm_num)
      _ = (2 ^ 224 - 1) * 10 ^ 18 * diff := by ring
  rw [diffToTargetStandard_of_pos positive]
  calc ⌊(2 ^ 224 - 1) / diff⌋ ≤ ⌊((maxTarget * 10 ^ 18 : Nat) : ℚ) / (diffScaled diff : ℚ)⌋ :=
        Int.floor_le_floor quotient
    _ = ((maxTarget * 10 ^ 18 / diffScaled diff : Nat) : Int) := by
        rw [Rat.floor_natCast_div_natCast, Int.natCast_ediv]

theorem diffToTargetStandard_two_pow {exponent : Nat} (small : exponent ≤ 68) :
    diffToTargetStandard (2 ^ exponent) = 2 ^ (224 - exponent) - 1 := by
  have whole : maxTarget = 2 ^ exponent * 2 ^ (224 - exponent) - (0 + 1) := by
    rw [← pow_add, Nat.add_sub_cancel' (by omega)]
    rfl
  rw [diffToTargetStandard_of_pos (by positivity), diffScaled_two_pow small,
    Nat.mul_div_mul_right _ _ (by norm_num), whole, Nat.mul_sub_div _ _ _ (by positivity),
    Nat.zero_div]

/-- The standard calculation is a sound inverse scale from difficulty one on: it divides
by a positive number, never grows with the difficulty, never falls below the exact
quotient, and halves the accepted hashes with each doubling of a power of two. -/
theorem diff_to_target_scales :
    (∀ diff : ℚ, 1 ≤ diff → diffScaled diff ≠ 0) ∧
    AntitoneOn diffToTargetStandard (Set.Ici 1) ∧
    (∀ diff : ℚ, 1 ≤ diff →
      ⌊(2 ^ 224 - 1) / diff⌋ ≤ (diffToTargetStandard diff : Int)) ∧
    (∀ exponent ≤ 68, diffToTargetStandard (2 ^ exponent) = 2 ^ (224 - exponent) - 1) ∧
    (∀ exponent < 68, diffToTargetStandard (2 ^ exponent) + 1 =
      2 * (diffToTargetStandard (2 ^ (exponent + 1)) + 1)) := by
  refine ⟨?_, diffToTargetStandard_antitone, ?_, ?_, ?_⟩
  · intro diff least
    exact (diffScaled_pos least).ne'
  · intro diff least
    exact floor_le_diffToTargetStandard least
  · intro exponent small
    exact diffToTargetStandard_two_pow small
  · intro exponent small
    have next : 224 - exponent = 224 - (exponent + 1) + 1 := by omega
    have here : 0 < 2 ^ (224 - exponent) := by positivity
    have there : 0 < 2 ^ (224 - (exponent + 1)) := by positivity
    rw [diffToTargetStandard_two_pow small.le, diffToTargetStandard_two_pow small,
      Nat.sub_add_cancel here, Nat.sub_add_cancel there, next, pow_succ']

end StratumBridge
