import Mathlib.Analysis.SpecialFunctions.Log.Base
import Mathlib.Analysis.Real.Sqrt

/-! # Variable difficulty

Every tick compares the share rate of a worker with the target rate and moves the
difficulty by the square root of their ratio, within step limits, above a floor and, if the
operator wishes, onto powers of two. The computation is carried out in exact reals here.
-/

noncomputable section

namespace StratumBridge

/-! ## Tunables -/

namespace Vardiff

def minElapsedSecs : ℝ := 30
def maxElapsedSecsNoShares : ℝ := 15
def maxElapsedSecsSparseShares : ℝ := 90
def minDiff : ℝ := 64
def minShares : ℝ := 3
/-- Below this share of the target rate the difficulty goes down. -/
def lowerRatio : ℝ := 0.75
/-- Above this share of the target rate the difficulty goes up. -/
def upperRatio : ℝ := 1.25
def maxStepUp : ℝ := 128
def maxStepDown : ℝ := 0.5

/-- `f64::EPSILON`. -/
def epsilon : ℝ := 2⁻¹ ^ 52

end Vardiff

open Vardiff

/-! ## The computation -/

/-- The power of two next to `next`, away from `current`. -/
def vardiffPow2ClampTowards (current next : ℝ) : ℝ :=
  if next ≤ 0 then 1
  else
    let exp := if current ≤ next then ⌈Real.logb 2 next⌉ else ⌊Real.logb 2 next⌋
    let clamped : ℝ := 2 ^ exp
    if clamped < 1 then 1 else clamped

/-- The floor and the clamp, which both branches apply to their candidate. -/
def vardiffBounded (clampPow2 : Bool) (current next : ℝ) : ℝ :=
  let next := if next < minDiff then minDiff else next
  if clampPow2 then vardiffPow2ClampTowards current next else next

/-- A candidate, if it differs from the difficulty. -/
def vardiffChanged (current next : ℝ) : Option ℝ :=
  if epsilon < |next - current| then some next else none

/-- The square root of the ratio, within the step limits. -/
def vardiffStep (ratio : ℝ) : ℝ := max maxStepDown (min (√ratio) maxStepUp)

def vardiffComputeNextDiff (current shares elapsedSecs expectedSpm : ℝ) (clampPow2 : Bool) :
    Option ℝ :=
  if current ≤ 0 then none
  else if elapsedSecs ≤ 0 then none
  else if shares = 0 ∧ maxElapsedSecsNoShares ≤ elapsedSecs then
    vardiffChanged current (vardiffBounded clampPow2 current (current * maxStepDown))
  else if elapsedSecs < minElapsedSecs ∨
      (shares < minShares ∧ elapsedSecs < maxElapsedSecsSparseShares) then none
  else
    let observedSpm := shares / elapsedSecs * 60
    let ratio := observedSpm / max expectedSpm 1
    if ratio ≤ 0 then none
    else if lowerRatio < ratio ∧ ratio < upperRatio then none
    else
      let next := vardiffBounded clampPow2 current (current * vardiffStep ratio)
      let relChange := |next - current| / max current 1
      if relChange < 0.10 then none else vardiffChanged current next

/-- One tick of the vardiff thread: the difficulty stays where nothing is computed. -/
def vardiffTick (expectedSpm : ℝ) (clampPow2 : Bool) (current : ℝ) (window : ℝ × ℝ) : ℝ :=
  (vardiffComputeNextDiff current window.1 window.2 expectedSpm clampPow2).getD current

/-- The starting difficulty of a port: its configured seed, on a power of two if wished. -/
def clampSeed (pow2Clamp : Bool) (raw : ℝ) : ℝ :=
  let seed := if pow2Clamp = true ∧ 0 < raw then 2 ^ ⌊Real.logb 2 raw⌋ else raw
  if seed = 0 then 4 else seed

/-- The difficulty a worker without history is registered at. -/
def registeredDiff (seed : ℝ) : ℝ := max seed minDiff

/-! ## Powers of two -/

/-- A power of two from the floor on. -/
def IsLevel (diff : ℝ) : Prop := ∃ exponent : ℕ, 6 ≤ exponent ∧ diff = 2 ^ exponent

/-- The difficulty at which a miner of constant hash rate meets the target rate. -/
def idealDiff (hashRate expectedSpm : ℝ) : ℝ := hashRate * 60 / max expectedSpm 1

/-- Some power of two from the floor on is five quarters to three halves below the ideal. -/
def Oscillates (ideal : ℝ) : Prop :=
  ∃ exponent : ℕ, 6 ≤ exponent ∧ 1.25 ≤ ideal / 2 ^ exponent ∧ ideal / 2 ^ exponent ≤ 1.5

theorem IsLevel.floor_le {diff : ℝ} (level : IsLevel diff) : 64 ≤ diff := by
  obtain ⟨exponent, large, rfl⟩ := level
  calc (64 : ℝ) = 2 ^ 6 := by norm_num
    _ ≤ 2 ^ exponent := pow_le_pow_right₀ one_le_two large

/-- No power of two lies between a power of two and its double. -/
theorem two_pow_le_of_lt {low high : ℕ} (below : (2 : ℝ) ^ low < 2 * 2 ^ high) :
    (2 : ℝ) ^ low ≤ 2 ^ high := by
  rw [← pow_succ'] at below
  have less := (pow_lt_pow_iff_right₀ one_lt_two).mp below
  exact pow_le_pow_right₀ one_le_two (by omega)

/-- An exponent whose power is at least the floor is a natural number. -/
theorem exists_exponent {exponent : ℤ} (large : (64 : ℝ) ≤ 2 ^ exponent) :
    ∃ natural : ℕ, 6 ≤ natural ∧ exponent = natural := by
  have six : (2 : ℝ) ^ (6 : ℤ) ≤ 2 ^ exponent := by
    calc (2 : ℝ) ^ (6 : ℤ) = 64 := by norm_num
      _ ≤ 2 ^ exponent := large
  have least : 6 ≤ exponent := (zpow_le_zpow_iff_right₀ one_lt_two).mp six
  obtain ⟨natural, same⟩ := Int.eq_ofNat_of_zero_le (show 0 ≤ exponent by omega)
  exact ⟨natural, by omega, same⟩

/-- The power above a value from the floor on. -/
theorem exists_level_above {next : ℝ} (large : 64 ≤ next) :
    ∃ exponent : ℕ, 6 ≤ exponent ∧ (2 : ℝ) ^ ⌈Real.logb 2 next⌉ = 2 ^ exponent ∧
      next ≤ 2 ^ exponent ∧ (2 : ℝ) ^ exponent < 2 * next := by
  have positive : 0 < next := by linarith
  have ceil : ⌈Real.logb 2 next⌉ = Int.clog 2 next := by
    exact_mod_cast Real.ceil_logb_natCast (b := 2) positive.le
  have upper : next ≤ (2 : ℝ) ^ Int.clog 2 next := by
    exact_mod_cast Int.self_le_zpow_clog (b := 2) one_lt_two next
  have lower : (2 : ℝ) ^ (Int.clog 2 next - 1) < next := by
    exact_mod_cast Int.zpow_pred_clog_lt_self (b := 2) one_lt_two positive
  obtain ⟨exponent, least, same⟩ := exists_exponent (large.trans upper)
  rw [same, zpow_natCast] at upper
  rw [same, zpow_sub_one₀ two_ne_zero, zpow_natCast] at lower
  refine ⟨exponent, least, ?_, upper, by linarith⟩
  rw [ceil, same, zpow_natCast]

/-- The power below a value from the floor on. -/
theorem exists_level_below {next : ℝ} (large : 64 ≤ next) :
    ∃ exponent : ℕ, 6 ≤ exponent ∧ (2 : ℝ) ^ ⌊Real.logb 2 next⌋ = 2 ^ exponent ∧
      (2 : ℝ) ^ exponent ≤ next ∧ next < 2 * 2 ^ exponent := by
  have positive : 0 < next := by linarith
  have floor : ⌊Real.logb 2 next⌋ = Int.log 2 next := by
    exact_mod_cast Real.floor_logb_natCast (b := 2) positive.le
  have lower : (2 : ℝ) ^ Int.log 2 next ≤ next := by
    exact_mod_cast Int.zpow_log_le_self (b := 2) one_lt_two positive
  have upper : next < (2 : ℝ) ^ (Int.log 2 next + 1) := by
    exact_mod_cast Int.lt_zpow_succ_log_self (b := 2) one_lt_two next
  have six : 6 ≤ Int.log 2 next := by
    have reach : (2 : ℝ) ^ (6 : ℤ) < 2 ^ (Int.log 2 next + 1) := by
      calc (2 : ℝ) ^ (6 : ℤ) = 64 := by norm_num
        _ ≤ next := large
        _ < 2 ^ (Int.log 2 next + 1) := upper
    have beyond := (zpow_lt_zpow_iff_right₀ one_lt_two).mp reach
    omega
  obtain ⟨exponent, same⟩ := Int.eq_ofNat_of_zero_le (show 0 ≤ Int.log 2 next by omega)
  rw [same, zpow_natCast] at lower
  rw [same, zpow_add_one₀ two_ne_zero, zpow_natCast] at upper
  refine ⟨exponent, by omega, ?_, lower, by linarith⟩
  rw [floor, same, zpow_natCast]

/-- The clamp, from the floor on: up to the power above, or down to the power below. -/
theorem vardiffPow2ClampTowards_eq {current next : ℝ} (large : 64 ≤ next) :
    ∃ exponent : ℕ, 6 ≤ exponent ∧ vardiffPow2ClampTowards current next = 2 ^ exponent ∧
      (current ≤ next → next ≤ 2 ^ exponent ∧ (2 : ℝ) ^ exponent < 2 * next) ∧
      (next < current → (2 : ℝ) ^ exponent ≤ next ∧ next < 2 * 2 ^ exponent) := by
  have positive : ¬next ≤ 0 := by linarith
  have whole : ∀ exponent : ℕ, ¬(2 : ℝ) ^ exponent < 1 :=
    fun exponent => not_lt.mpr (one_le_pow₀ one_le_two)
  unfold vardiffPow2ClampTowards
  by_cases up : current ≤ next
  · obtain ⟨exponent, least, same, bounds⟩ := exists_level_above large
    refine ⟨exponent, least, ?_, fun _ => bounds, fun down => absurd up (not_le.mpr down)⟩
    simp only [if_neg positive, if_pos up, same, if_neg (whole exponent)]
  · obtain ⟨exponent, least, same, bounds⟩ := exists_level_below large
    refine ⟨exponent, least, ?_, fun le => absurd le up, fun _ => bounds⟩
    simp only [if_neg positive, if_neg up, same, if_neg (whole exponent)]

/-! ## Candidates -/

/-- What floor and clamp make of a candidate within the step limits. -/
structure VardiffBounds (clampPow2 : Bool) (current next result : ℝ) : Prop where
  floor : 64 ≤ result
  lower : current / 2 ≤ result
  upper : result ≤ 128 * current
  down : next ≤ current → result ≤ current
  falls : max 64 next < current → result ≤ max 64 next
  up : current ≤ next → next ≤ result
  level : clampPow2 = true → IsLevel result

theorem vardiffBounded_bounds {clampPow2 : Bool} {current next : ℝ} (large : 64 ≤ current)
    (level : clampPow2 = true → IsLevel current) (low : current / 2 ≤ next)
    (high : next ≤ 128 * current) :
    VardiffBounds clampPow2 current next (vardiffBounded clampPow2 current next) := by
  have floored : ∃ raised : ℝ, (if next < minDiff then minDiff else next) = raised ∧ 64 ≤ raised ∧
      next ≤ raised ∧ (next ≤ 64 ∧ raised = 64 ∨ raised = next) := by
    by_cases below : next < minDiff
    · exact ⟨64, if_pos below, le_rfl, below.le, Or.inl ⟨below.le, rfl⟩⟩
    · exact ⟨next, if_neg below, not_lt.mp below, le_rfl, Or.inr rfl⟩
  obtain ⟨raised, same, floor, above, cases⟩ := floored
  unfold vardiffBounded
  rw [same]
  cases clampPow2 with
  | false =>
      change VardiffBounds false current next raised
      rcases cases with ⟨below, rfl⟩ | rfl
      · exact ⟨floor, by linarith, by linarith, fun _ => large, fun _ => le_max_left _ _,
          fun _ => above, nofun⟩
      · exact ⟨floor, low, high, id, fun _ => le_max_right _ _, fun _ => le_rfl, nofun⟩
  | true =>
      obtain ⟨start, least, rfl⟩ := level rfl
      obtain ⟨exponent, six, clamped, up, down⟩ :=
        @vardiffPow2ClampTowards_eq (2 ^ start) raised floor
      change VardiffBounds true _ next (vardiffPow2ClampTowards _ raised)
      rw [clamped]
      have within : raised ≤ 128 * 2 ^ start := by
        rcases cases with ⟨-, rfl⟩ | rfl
        · linarith
        · exact high
      have halved : (2 : ℝ) ^ start / 2 ≤ raised := low.trans above
      have bounded : raised ≤ max 64 next := by
        rcases cases with ⟨-, rfl⟩ | rfl
        · exact le_max_left _ _
        · exact le_max_right _ _
      refine ⟨(IsLevel.floor_le ⟨exponent, six, rfl⟩), ?_, ?_, ?_, ?_, ?_,
        fun _ => ⟨exponent, six, rfl⟩⟩
      · by_cases rises : 2 ^ start ≤ raised
        · exact halved.trans (up rises).1
        · have double : (2 : ℝ) ^ start < 2 * 2 ^ (exponent + 1) := by
            have below := (down (not_le.mp rises)).2
            rw [pow_succ]
            linarith
          have doubled := two_pow_le_of_lt double
          rw [pow_succ] at doubled
          linarith
      · by_cases rises : 2 ^ start ≤ raised
        · have steps : (2 : ℝ) ^ (start + 7) = 128 * 2 ^ start := by ring
          have bound : (2 : ℝ) ^ exponent < 2 * 2 ^ (start + 7) := by
            rw [steps]
            linarith [(up rises).2]
          exact (two_pow_le_of_lt bound).trans steps.le
        · exact (down (not_le.mp rises)).1.trans within
      · intro falls
        have kept : raised ≤ 2 ^ start := by
          rcases cases with ⟨-, rfl⟩ | rfl
          · exact large
          · exact falls
        by_cases rises : 2 ^ start ≤ raised
        · apply two_pow_le_of_lt
          linarith [(up rises).2]
        · exact (down (not_le.mp rises)).1.trans kept
      · intro room
        exact (down (bounded.trans_lt room)).1.trans bounded
      · intro grows
        exact above.trans (up (grows.trans above)).1

/-! ## What a tick can do -/

theorem half_le_vardiffStep (ratio : ℝ) : 0.5 ≤ vardiffStep ratio := le_max_left _ _

theorem vardiffStep_le (ratio : ℝ) : vardiffStep ratio ≤ 128 :=
  max_le (by norm_num [maxStepDown]) (min_le_right _ _)

theorem vardiffStep_of_low {ratio : ℝ} (low : ratio ≤ 0.75) : vardiffStep ratio ≤ 0.9 := by
  have root : √ratio ≤ 0.9 := Real.sqrt_le_iff.mpr ⟨by norm_num, by norm_num; linarith⟩
  exact max_le (by norm_num [maxStepDown]) ((min_le_left _ _).trans root)

theorem le_vardiffStep_of_high {ratio : ℝ} (high : 1.25 ≤ ratio) : 1.11 ≤ vardiffStep ratio := by
  have root : 1.11 ≤ √ratio := Real.le_sqrt_of_sq_le (by norm_num; linarith)
  exact le_max_of_le_right (le_min root (by norm_num [maxStepUp]))

theorem step_lowers {current ratio : ℝ} (large : 64 ≤ current) (low : ratio ≤ 0.75) :
    current * vardiffStep ratio ≤ 0.9 * current := by
  rw [mul_comm]
  exact mul_le_mul_of_nonneg_right (vardiffStep_of_low low) (by linarith)

theorem step_raises {current ratio : ℝ} (large : 64 ≤ current) (high : 1.25 ≤ ratio) :
    1.1 * current ≤ current * vardiffStep ratio := by
  rw [mul_comm current]
  exact mul_le_mul_of_nonneg_right (by linarith [le_vardiffStep_of_high high]) (by linarith)

/-- The ratio of the observed share rate to the target rate. -/
def rateRatio (shares elapsedSecs expectedSpm : ℝ) : ℝ :=
  shares / elapsedSecs * 60 / max expectedSpm 1

/-- The candidate of a window with shares. -/
def rateCandidate (clampPow2 : Bool) (current ratio : ℝ) : ℝ :=
  vardiffBounded clampPow2 current (current * vardiffStep ratio)

/-- **What a tick can do.** It halves the difficulty of a window without shares, or it follows
the rate of a window that is long enough, outside of the dead band and by a tenth at least. -/
theorem vardiffComputeNextDiff_cases {current shares elapsedSecs expectedSpm next : ℝ}
    {clampPow2 : Bool}
    (computed : vardiffComputeNextDiff current shares elapsedSecs expectedSpm clampPow2 =
      some next) :
    epsilon < |next - current| ∧
      ((shares = 0 ∧ 15 ≤ elapsedSecs ∧
          next = vardiffBounded clampPow2 current (current * maxStepDown)) ∨
        ((rateRatio shares elapsedSecs expectedSpm ≤ 0.75 ∨
            1.25 ≤ rateRatio shares elapsedSecs expectedSpm) ∧
          next = rateCandidate clampPow2 current (rateRatio shares elapsedSecs expectedSpm) ∧
          0.10 ≤ |next - current| / max current 1)) := by
  have changed : ∀ {candidate : ℝ}, vardiffChanged current candidate = some next →
      candidate = next ∧ epsilon < |next - current| := by
    intro candidate same
    unfold vardiffChanged at same
    split at same
    case isTrue moved =>
      cases same
      exact ⟨rfl, moved⟩
    case isFalse => cases same
  unfold vardiffComputeNextDiff at computed
  split at computed
  · cases computed
  split at computed
  · cases computed
  split at computed
  case isTrue idle =>
    obtain ⟨rfl, moved⟩ := changed computed
    exact ⟨moved, Or.inl ⟨idle.1, idle.2, rfl⟩⟩
  case isFalse =>
    split at computed
    · cases computed
    dsimp only at computed
    split at computed
    · cases computed
    split at computed
    · cases computed
    case isFalse outside =>
      split at computed
      · cases computed
      case isFalse large =>
        obtain ⟨rfl, moved⟩ := changed computed
        refine ⟨moved, Or.inr ⟨?_, rfl, not_lt.mp large⟩⟩
        by_cases low : rateRatio shares elapsedSecs expectedSpm ≤ 0.75
        · exact Or.inl low
        · refine Or.inr (not_lt.mp fun below => outside ⟨not_le.mp low, below⟩)

/-- A candidate that is a tenth away moves the difficulty by a tenth, if the floor has the
room. -/
theorem VardiffBounds.moves {clampPow2 : Bool} {current next result : ℝ}
    (bounds : VardiffBounds clampPow2 current next result) (large : 64 ≤ current)
    (away : next ≤ 0.9 * current ∧ 0.10 ≤ (current - 64) / current ∨ 1.1 * current ≤ next) :
    0.10 * current ≤ |result - current| := by
  rcases away with ⟨low, room⟩ | high
  · have free : 64 ≤ 0.9 * current := by
      rw [le_div_iff₀ (by linarith)] at room
      linarith
    have bounded : max 64 next ≤ 0.9 * current := max_le free low
    have falls := bounds.falls (by linarith)
    rw [abs_sub_comm]
    exact le_trans (by linarith) (le_abs_self _)
  · have rises := bounds.up (by linarith)
    exact le_trans (by linarith) (le_abs_self _)

section Tick

variable {current shares elapsedSecs expectedSpm : ℝ} {clampPow2 : Bool}

theorem rateCandidate_bounds (large : 64 ≤ current) (level : clampPow2 = true → IsLevel current)
    (ratio : ℝ) :
    VardiffBounds clampPow2 current (current * vardiffStep ratio)
      (rateCandidate clampPow2 current ratio) := by
  have low := half_le_vardiffStep ratio
  have high := vardiffStep_le ratio
  apply vardiffBounded_bounds large level
  · nlinarith
  · nlinarith

theorem idleCandidate_bounds (large : 64 ≤ current)
    (level : clampPow2 = true → IsLevel current) :
    VardiffBounds clampPow2 current (current * maxStepDown)
      (vardiffBounded clampPow2 current (current * maxStepDown)) := by
  apply vardiffBounded_bounds large level
  · rw [maxStepDown]
    linarith
  · rw [maxStepDown]
    linarith

theorem epsilon_lt_of_moves {distance : ℝ} (large : 64 ≤ current)
    (moves : 0.10 * current ≤ distance) : epsilon < distance := by
  have small : epsilon < 1 := by norm_num [epsilon]
  linarith

/-- A window with shares, long enough and outside of the dead band, that moves the candidate
by a tenth. -/
theorem compute_of_rate (large : 64 ≤ current) (counted : 0 < shares)
    (enough : 30 ≤ elapsedSecs ∧ 3 ≤ shares ∨ 90 ≤ elapsedSecs)
    (outside : rateRatio shares elapsedSecs expectedSpm ≤ 0.75 ∨
      1.25 ≤ rateRatio shares elapsedSecs expectedSpm)
    (moves : 0.10 * current ≤
      |rateCandidate clampPow2 current (rateRatio shares elapsedSecs expectedSpm) - current|) :
    vardiffComputeNextDiff current shares elapsedSecs expectedSpm clampPow2 =
      some (rateCandidate clampPow2 current (rateRatio shares elapsedSecs expectedSpm)) := by
  have positive : 0 < elapsedSecs := by
    rcases enough with ⟨long, -⟩ | long
    · linarith
    · linarith
  have ratioPositive : ¬rateRatio shares elapsedSecs expectedSpm ≤ 0 := by
    rw [not_le, rateRatio]
    positivity
  have measured : ¬(elapsedSecs < minElapsedSecs ∨
      (shares < minShares ∧ elapsedSecs < maxElapsedSecsSparseShares)) := by
    rw [minElapsedSecs, minShares, maxElapsedSecsSparseShares]
    rintro (short | ⟨few, sparse⟩)
    · rcases enough with ⟨long, -⟩ | long
      · linarith
      · linarith
    · rcases enough with ⟨-, many⟩ | long
      · linarith
      · linarith
  have band : ¬(lowerRatio < rateRatio shares elapsedSecs expectedSpm ∧
      rateRatio shares elapsedSecs expectedSpm < upperRatio) := by
    rintro ⟨above, below⟩
    exact outside.elim (not_le.mpr above) (not_le.mpr below)
  have relative : ¬|rateCandidate clampPow2 current (rateRatio shares elapsedSecs expectedSpm) -
      current| / max current 1 < 0.10 := by
    rw [max_eq_left (by linarith), not_lt, le_div_iff₀ (by linarith)]
    exact moves
  unfold vardiffComputeNextDiff
  rw [if_neg (by linarith), if_neg (not_le.mpr positive), if_neg (fun idle => counted.ne' idle.1),
    if_neg measured]
  dsimp only
  change (if rateRatio shares elapsedSecs expectedSpm ≤ 0 then none
    else if lowerRatio < rateRatio shares elapsedSecs expectedSpm ∧
      rateRatio shares elapsedSecs expectedSpm < upperRatio then none else _) = _
  rw [if_neg ratioPositive, if_neg band]
  change (if |rateCandidate clampPow2 current (rateRatio shares elapsedSecs expectedSpm) -
      current| / max current 1 < 0.10 then none
    else vardiffChanged current
      (rateCandidate clampPow2 current (rateRatio shares elapsedSecs expectedSpm))) = _
  rw [if_neg relative, vardiffChanged, if_pos (epsilon_lt_of_moves large moves)]

/-- A window without shares moves the difficulty to its candidate. -/
theorem compute_of_idle (large : 64 ≤ current) (long : 15 ≤ elapsedSecs)
    (moves : 0.10 * current ≤
      |vardiffBounded clampPow2 current (current * maxStepDown) - current|) :
    vardiffComputeNextDiff current 0 elapsedSecs expectedSpm clampPow2 =
      some (vardiffBounded clampPow2 current (current * maxStepDown)) := by
  unfold vardiffComputeNextDiff
  rw [if_neg (by linarith), if_neg (by linarith), if_pos ⟨rfl, long⟩, vardiffChanged,
    if_pos (epsilon_lt_of_moves large moves)]

/-- The ratio against the rate, for a target of at least one share a minute. -/
theorem rateRatio_eq (target : 1 ≤ expectedSpm) :
    rateRatio shares elapsedSecs expectedSpm = shares / elapsedSecs * 60 / expectedSpm := by
  rw [rateRatio, max_eq_left target]

/-- What is computed stays within the bounds of some candidate, on the side of the rate. -/
theorem computed_bounds (large : 64 ≤ current) (level : clampPow2 = true → IsLevel current)
    {next : ℝ} (computed : vardiffComputeNextDiff current shares elapsedSecs expectedSpm clampPow2 =
      some next) :
    ∃ candidate, VardiffBounds clampPow2 current candidate next ∧
      (candidate ≤ current ∧
          (shares = 0 ∧ 15 ≤ elapsedSecs ∨ rateRatio shares elapsedSecs expectedSpm ≤ 0.75) ∨
        current ≤ candidate ∧ 1.25 ≤ rateRatio shares elapsedSecs expectedSpm) := by
  obtain ⟨-, ⟨idle, long, rfl⟩ | ⟨outside, rfl, -⟩⟩ := vardiffComputeNextDiff_cases computed
  · refine ⟨_, idleCandidate_bounds large level, Or.inl ⟨?_, Or.inl ⟨idle, long⟩⟩⟩
    rw [maxStepDown]
    linarith
  · refine ⟨_, rateCandidate_bounds large level _, ?_⟩
    rcases outside with low | high
    · have lowers := step_lowers large low
      exact Or.inl ⟨by linarith, Or.inr low⟩
    · have raises := step_raises large high
      exact Or.inr ⟨by linarith, high⟩

/-- A tick keeps a power of two a power of two. -/
theorem IsLevel.tick (level : IsLevel current) (window : ℝ × ℝ) :
    IsLevel (vardiffTick expectedSpm true current window) := by
  unfold vardiffTick
  cases computed : vardiffComputeNextDiff current window.1 window.2 expectedSpm true with
  | none => exact level
  | some next =>
      obtain ⟨candidate, bounds, -⟩ := computed_bounds level.floor_le (fun _ => level) computed
      exact bounds.level rfl

/-- Any number of ticks keep a power of two a power of two. -/
theorem IsLevel.ticks (level : IsLevel current) (windows : List (ℝ × ℝ)) :
    IsLevel (windows.foldl (vardiffTick expectedSpm true) current) := by
  induction windows generalizing current with
  | nil => exact level
  | cons window rest ih => exact ih (level.tick window)

/-- **Vardiff moves within bounds and in the right direction.** A tick leaves the difficulty at
the floor or above and within its step limits. It lowers it only for want of shares or at three
quarters of the target rate, and raises it only at five quarters. Such a rate in a window long
enough changes it, unless the floor leaves less than a tenth to go down. Powers of two stay
powers of two. -/
theorem vardiff_moves_soundly (large : 64 ≤ current)
    (level : clampPow2 = true → IsLevel current) (counted : 0 ≤ shares)
    (target : 1 ≤ expectedSpm) :
    let result := vardiffTick expectedSpm clampPow2 current (shares, elapsedSecs)
    let rate := shares / elapsedSecs * 60
    (64 ≤ result ∧ current / 2 ≤ result ∧ result ≤ 128 * current) ∧
    (result < current → shares = 0 ∧ 15 ≤ elapsedSecs ∨ rate ≤ 0.75 * expectedSpm) ∧
    (current < result → 1.25 * expectedSpm ≤ rate) ∧
    ((30 ≤ elapsedSecs ∧ 3 ≤ shares ∨ 90 ≤ elapsedSecs) →
      (rate ≤ 0.75 * expectedSpm → ¬(current - 64) / current < 0.10 → result ≠ current) ∧
      (1.25 * expectedSpm ≤ rate → result ≠ current)) ∧
    (clampPow2 = true → ∀ windows : List (ℝ × ℝ),
      IsLevel (windows.foldl (vardiffTick expectedSpm clampPow2) current)) := by
  intro result rate
  have positive : 0 < expectedSpm := by linarith
  have ratio : rateRatio shares elapsedSecs expectedSpm = rate / expectedSpm := rateRatio_eq target
  have low : rateRatio shares elapsedSecs expectedSpm ≤ 0.75 ↔ rate ≤ 0.75 * expectedSpm := by
    rw [ratio, div_le_iff₀ positive]
  have high : 1.25 ≤ rateRatio shares elapsedSecs expectedSpm ↔ 1.25 * expectedSpm ≤ rate := by
    rw [ratio, le_div_iff₀ positive]
  have moved : ∀ {next : ℝ}, vardiffComputeNextDiff current shares elapsedSecs expectedSpm
      clampPow2 = some next → 0.10 * current ≤ |next - current| → result ≠ current := by
    intro next computed away same
    have reached : result = next := by
      change (vardiffComputeNextDiff current shares elapsedSecs expectedSpm clampPow2).getD
        current = next
      rw [computed, Option.getD_some]
    rw [← reached, same, sub_self, abs_zero] at away
    linarith
  have reached : result = current ∨ ∃ candidate, VardiffBounds clampPow2 current candidate result ∧
      (candidate ≤ current ∧ (shares = 0 ∧ 15 ≤ elapsedSecs ∨ rate ≤ 0.75 * expectedSpm) ∨
        current ≤ candidate ∧ 1.25 * expectedSpm ≤ rate) := by
    rw [← low, ← high]
    change (vardiffComputeNextDiff current shares elapsedSecs expectedSpm clampPow2).getD
      current = current ∨ ∃ candidate, VardiffBounds clampPow2 current candidate
        ((vardiffComputeNextDiff current shares elapsedSecs expectedSpm clampPow2).getD current) ∧ _
    cases computed : vardiffComputeNextDiff current shares elapsedSecs expectedSpm clampPow2 with
    | none => exact Or.inl rfl
    | some next => exact Or.inr (computed_bounds large level computed)
  refine ⟨?_, ?_, ?_, ?_, ?_⟩
  · rcases reached with same | ⟨candidate, bounds, -⟩
    · exact ⟨by linarith, by linarith, by linarith⟩
    · exact ⟨bounds.floor, bounds.lower, bounds.upper⟩
  · intro falls
    rcases reached with same | ⟨candidate, bounds, ⟨-, side⟩ | ⟨up, -⟩⟩
    · exact absurd same falls.ne
    · exact side
    · exact absurd (up.trans (bounds.up up)) (not_le.mpr falls)
  · intro rises
    rcases reached with same | ⟨candidate, bounds, ⟨down, -⟩ | ⟨-, side⟩⟩
    · exact absurd same rises.ne'
    · exact absurd (bounds.down down) (not_le.mpr rises)
    · exact side
  · intro enough
    constructor
    · intro slow room
      rcases counted.eq_or_lt with rfl | some
      · have long : 15 ≤ elapsedSecs := by
          rcases enough with ⟨long, -⟩ | long
          · linarith
          · linarith
        have away := (idleCandidate_bounds large level).moves large
          (Or.inl ⟨by rw [maxStepDown]; linarith, not_lt.mp room⟩)
        exact moved (compute_of_idle large long away) away
      · have away := (rateCandidate_bounds large level _).moves large
          (Or.inl ⟨step_lowers large (low.mpr slow), not_lt.mp room⟩)
        exact moved (compute_of_rate large some enough (Or.inl (low.mpr slow)) away) away
    · intro fast
      have some : 0 < shares := by
        rcases counted.eq_or_lt with rfl | some
        · have none : rate = 0 := by
            change 0 / elapsedSecs * 60 = 0
            rw [zero_div, zero_mul]
          linarith
        · exact some
      have away := (rateCandidate_bounds large level _).moves large
        (Or.inr (step_raises large (high.mpr fast)))
      exact moved (compute_of_rate large some enough (Or.inr (high.mpr fast)) away) away
  · intro clamps windows
    subst clamps
    exact (level rfl).ticks windows

end Tick

/-- A worker at the floor that finds three shares a second for a minute goes up. -/
theorem vardiff_moves_soundly_sample : 64 < vardiffTick 20 true 64 (180, 60) := by
  have level : IsLevel 64 := ⟨6, le_rfl, by norm_num⟩
  obtain ⟨⟨floor, -, -⟩, -, -, changes, -⟩ := @vardiff_moves_soundly 64 180 60 20 true le_rfl
    (fun _ => level) (by norm_num) (by norm_num)
  have moved := (changes (Or.inl ⟨by norm_num, by norm_num⟩)).2 (by norm_num)
  exact lt_of_le_of_ne floor moved.symm

/-- Workers start at a power of two where the operator wishes powers of two. -/
theorem registeredDiff_level (raw : ℝ) : IsLevel (registeredDiff (clampSeed true raw)) := by
  have floor : IsLevel 64 := ⟨6, le_rfl, by norm_num⟩
  by_cases large : 64 ≤ clampSeed true raw
  · have kept : registeredDiff (clampSeed true raw) = clampSeed true raw := max_eq_left large
    rw [kept]
    unfold clampSeed at large ⊢
    by_cases positive : 0 < raw
    · have nonzero : ¬(2 : ℝ) ^ ⌊Real.logb 2 raw⌋ = 0 := (zpow_pos two_pos _).ne'
      simp only [true_and, if_pos positive, if_neg nonzero] at large ⊢
      obtain ⟨exponent, six, same⟩ := exists_exponent large
      exact ⟨exponent, six, by rw [same, zpow_natCast]⟩
    · simp only [true_and, if_neg positive] at large
      split at large
      · norm_num at large
      · linarith
  · have raised : registeredDiff (clampSeed true raw) = 64 := max_eq_right (not_le.mp large).le
    rw [raised]
    exact floor

end StratumBridge

end
