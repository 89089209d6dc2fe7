import StratumBridge.Foundation.Settling
import StratumBridge.Job.Vardiff

/-! # Does the difficulty settle?

A miner of constant hash rate finds shares at a rate inverse to its difficulty, so the ratio of
a window is one fixed difficulty over the current one. Without the clamp the difficulty moves
towards it and stops in the dead band. On powers of two it may find no power inside of the
band, and then it moves between two of them for ever.
-/

noncomputable section

namespace StratumBridge

open Vardiff

/-- What a tick computes for a miner that finds `hashRate / current` shares a second. -/
def steadyNext (hashRate expectedSpm : ℝ) (clampPow2 : Bool) (windows : ℕ → ℝ) (time : ℕ)
    (current : ℝ) : Option ℝ :=
  vardiffComputeNextDiff current (hashRate / current * windows time) (windows time) expectedSpm
    clampPow2

section Steady

variable {hashRate expectedSpm : ℝ} {clampPow2 : Bool} {windows : ℕ → ℝ} {current next : ℝ}
  {time : ℕ}

/-- The ratio of a window does not depend on its length. -/
theorem rateRatio_steady (long : 90 ≤ windows time) :
    rateRatio (hashRate / current * windows time) (windows time) expectedSpm =
      idealDiff hashRate expectedSpm / current := by
  have window : windows time ≠ 0 := by linarith
  rw [rateRatio, idealDiff, mul_div_cancel_right₀ _ window]
  ring

/-- What a tick can do for a steady miner. -/
theorem steadyNext_cases (hashes : 0 < hashRate) (large : 64 ≤ current)
    (long : 90 ≤ windows time)
    (computed : steadyNext hashRate expectedSpm clampPow2 windows time current = some next) :
    (idealDiff hashRate expectedSpm / current ≤ 0.75 ∨
      1.25 ≤ idealDiff hashRate expectedSpm / current) ∧
    next = rateCandidate clampPow2 current (idealDiff hashRate expectedSpm / current) ∧
    0.10 * current ≤ |next - current| := by
  have positive : 0 < current := by linarith
  have window : 0 < windows time := by linarith
  have shares : hashRate / current * windows time ≠ 0 := by positivity
  obtain ⟨-, ⟨idle, -⟩ | ⟨outside, same, relative⟩⟩ := vardiffComputeNextDiff_cases computed
  · exact absurd idle shares
  · rw [rateRatio_steady long] at outside same
    rw [max_eq_left (by linarith), le_div_iff₀ positive] at relative
    exact ⟨outside, same, relative⟩

/-- What makes a tick move for a steady miner. -/
theorem steadyNext_of_moves (hashes : 0 < hashRate) (large : 64 ≤ current)
    (long : 90 ≤ windows time)
    (outside : idealDiff hashRate expectedSpm / current ≤ 0.75 ∨
      1.25 ≤ idealDiff hashRate expectedSpm / current)
    (moves : 0.10 * current ≤
      |rateCandidate clampPow2 current (idealDiff hashRate expectedSpm / current) - current|) :
    steadyNext hashRate expectedSpm clampPow2 windows time current =
      some (rateCandidate clampPow2 current (idealDiff hashRate expectedSpm / current)) := by
  have positive : 0 < current := by linarith
  have window : 0 < windows time := by linarith
  have shares : 0 < hashRate / current * windows time := by positivity
  have ratio := @rateRatio_steady hashRate expectedSpm windows current time long
  rw [← ratio] at outside moves ⊢
  exact compute_of_rate large shares (Or.inr long) outside moves

/-- Below five quarters of the target rate a tick that moves lowers the difficulty by a
tenth. -/
theorem steady_falls (hashes : 0 < hashRate) (large : 64 ≤ current)
    (level : clampPow2 = true → IsLevel current) (long : 90 ≤ windows time)
    (slow : idealDiff hashRate expectedSpm / current < 1.25)
    (computed : steadyNext hashRate expectedSpm clampPow2 windows time current = some next) :
    idealDiff hashRate expectedSpm / current ≤ 0.75 ∧ next ≤ 0.9 * current := by
  obtain ⟨outside, same, away⟩ := steadyNext_cases hashes large long computed
  have low := outside.resolve_right (not_le.mpr slow)
  have bounds := rateCandidate_bounds large level (idealDiff hashRate expectedSpm / current)
  rw [← same] at bounds
  have lowers := step_lowers large low
  have falls := bounds.down (by linarith)
  rw [abs_sub_comm, abs_of_nonneg (by linarith)] at away
  exact ⟨low, by linarith⟩

/-- Above three quarters of it a tick that moves raises the difficulty by a tenth. -/
theorem steady_rises (hashes : 0 < hashRate) (large : 64 ≤ current)
    (level : clampPow2 = true → IsLevel current) (long : 90 ≤ windows time)
    (fast : 0.75 < idealDiff hashRate expectedSpm / current)
    (computed : steadyNext hashRate expectedSpm clampPow2 windows time current = some next) :
    1.25 ≤ idealDiff hashRate expectedSpm / current ∧ 1.1 * current ≤ next := by
  obtain ⟨outside, same, -⟩ := steadyNext_cases hashes large long computed
  have high := outside.resolve_left (not_le.mpr fast)
  have bounds := rateCandidate_bounds large level (idealDiff hashRate expectedSpm / current)
  rw [← same] at bounds
  have raises := step_raises large high
  exact ⟨high, raises.trans (bounds.up (by linarith))⟩

/-! ## Settling from either side -/

variable {start : ℝ} {invariant : ℝ → Prop}

/-- From above the ideal: the difficulty falls until it settles. -/
theorem settles_falling (hashes : 0 < hashRate) (long : ∀ time, 90 ≤ windows time)
    (initial : invariant start)
    (fits : ∀ diff, invariant diff → 64 ≤ diff ∧ (clampPow2 = true → IsLevel diff) ∧
      idealDiff hashRate expectedSpm / diff < 1.25)
    (keeps : ∀ diff, invariant diff → idealDiff hashRate expectedSpm / diff ≤ 0.75 →
      rateCandidate clampPow2 diff (idealDiff hashRate expectedSpm / diff) ≤ 0.9 * diff →
      invariant (rateCandidate clampPow2 diff (idealDiff hashRate expectedSpm / diff))) :
    Settling.Settles (steadyNext hashRate expectedSpm clampPow2 windows) start := by
  refine @Settling.settles_of_growth _ _ invariant (fun diff => 1 / diff) (10 / 9) (1 / 64) start
    (by norm_num) initial ?_ ?_
  · intro diff held
    have large := (fits diff held).1
    exact ⟨one_div_pos.mpr (by linarith), one_div_le_one_div_of_le (by norm_num) large⟩
  · intro time diff after held computed
    obtain ⟨large, level, slow⟩ := fits diff held
    obtain ⟨low, falls⟩ := steady_falls hashes large level (long time) slow computed
    obtain rfl := (steadyNext_cases hashes large (long time) computed).2.1
    have kept := keeps diff held low falls
    refine ⟨kept, ?_⟩
    have positive : 0 < rateCandidate clampPow2 diff (idealDiff hashRate expectedSpm / diff) := by
      linarith [(fits _ kept).1]
    rw [← mul_div_assoc, mul_one, div_le_div_iff₀ (by linarith) positive]
    linarith

/-- From below the ideal: the difficulty rises until it settles. -/
theorem settles_rising (hashes : 0 < hashRate) (long : ∀ time, 90 ≤ windows time)
    (initial : invariant start)
    (fits : ∀ diff, invariant diff → 64 ≤ diff ∧ (clampPow2 = true → IsLevel diff) ∧
      0.75 < idealDiff hashRate expectedSpm / diff)
    (keeps : ∀ diff, invariant diff → 1.25 ≤ idealDiff hashRate expectedSpm / diff →
      invariant (rateCandidate clampPow2 diff (idealDiff hashRate expectedSpm / diff))) :
    Settling.Settles (steadyNext hashRate expectedSpm clampPow2 windows) start := by
  refine @Settling.settles_of_growth _ _ invariant (fun diff => diff) 1.1
    (idealDiff hashRate expectedSpm / 0.75) start (by norm_num) initial ?_ ?_
  · intro diff held
    obtain ⟨large, -, fast⟩ := fits diff held
    have positive : 0 < diff := by linarith
    rw [lt_div_iff₀ positive] at fast
    exact ⟨positive, (le_div_iff₀ (by norm_num)).mpr (by linarith)⟩
  · intro time diff after held computed
    obtain ⟨large, level, fast⟩ := fits diff held
    obtain ⟨high, rises⟩ := steady_rises hashes large level (long time) fast computed
    obtain rfl := (steadyNext_cases hashes large (long time) computed).2.1
    exact ⟨keeps diff held high, rises⟩

end Steady

/-! ## Without the clamp -/

section Free

variable {ideal current next : ℝ}

theorem rateCandidate_free (ratio : ℝ) :
    rateCandidate false current ratio = max 64 (current * vardiffStep ratio) := by
  change (if current * vardiffStep ratio < 64 then 64 else current * vardiffStep ratio) = _
  split
  case isTrue below => rw [max_eq_left below.le]
  case isFalse above => rw [max_eq_right (not_lt.mp above)]

/-- The step never passes the ideal: it lies between one and the ratio. -/
theorem vardiffStep_le_self {ratio : ℝ} (high : 1 ≤ ratio) : vardiffStep ratio ≤ ratio := by
  have root : √ratio ≤ ratio := Real.sqrt_le_self_iff.mpr (Or.inr high)
  exact max_le (by rw [maxStepDown]; linarith) ((min_le_left _ _).trans root)

theorem le_vardiffStep_self {ratio : ℝ} (nonneg : 0 ≤ ratio) (low : ratio ≤ 1) :
    ratio ≤ vardiffStep ratio := by
  have root : ratio ≤ √ratio := Real.le_sqrt_of_sq_le (by nlinarith)
  exact le_max_of_le_right (le_min root (by rw [maxStepUp]; linarith))

variable {hashRate expectedSpm start : ℝ} {windows : ℕ → ℝ}

/-- Without the clamp the difficulty always settles. -/
theorem settles_free (hashes : 0 < hashRate) (long : ∀ time, 90 ≤ windows time)
    (large : 64 ≤ start) :
    Settling.Settles (steadyNext hashRate expectedSpm false windows) start := by
  have target : 0 < max expectedSpm 1 := lt_max_of_lt_right one_pos
  have positive : 0 < idealDiff hashRate expectedSpm := by
    rw [idealDiff]
    positivity
  generalize shown : idealDiff hashRate expectedSpm = ideal at positive
  by_cases below : start ≤ ideal
  · apply @settles_rising hashRate expectedSpm false windows start
      (fun diff => 64 ≤ diff ∧ diff ≤ ideal) hashes long ⟨large, below⟩
    · rintro diff ⟨floor, within⟩
      have one : 1 ≤ ideal / diff := (one_le_div₀ (by linarith)).mpr within
      rw [shown]
      exact ⟨floor, nofun, by linarith⟩
    · rintro diff ⟨floor, within⟩ high
      rw [shown] at high ⊢
      have step := vardiffStep_le_self (by linarith : 1 ≤ ideal / diff)
      rw [rateCandidate_free]
      refine ⟨le_max_left _ _, max_le (floor.trans within) ?_⟩
      calc diff * vardiffStep (ideal / diff) ≤ diff * (ideal / diff) :=
            mul_le_mul_of_nonneg_left step (by linarith)
        _ = ideal := mul_div_cancel₀ ideal (by linarith)
  · apply @settles_falling hashRate expectedSpm false windows start
      (fun diff => 64 ≤ diff ∧ ideal ≤ diff) hashes long ⟨large, (not_le.mp below).le⟩
    · rintro diff ⟨floor, past⟩
      have one : ideal / diff ≤ 1 := (div_le_one₀ (by linarith)).mpr past
      rw [shown]
      exact ⟨floor, nofun, by linarith⟩
    · rintro diff ⟨floor, past⟩ low falls
      rw [shown] at low ⊢
      have step := le_vardiffStep_self (by positivity : 0 ≤ ideal / diff) (by linarith)
      rw [rateCandidate_free]
      refine ⟨le_max_left _ _, le_max_of_le_right ?_⟩
      calc ideal = diff * (ideal / diff) := (mul_div_cancel₀ ideal (by linarith)).symm
        _ ≤ diff * vardiffStep (ideal / diff) := mul_le_mul_of_nonneg_left step (by linarith)

end Free

/-! ## On powers of two -/

section Clamped

variable {hashRate expectedSpm start ratio current : ℝ} {windows : ℕ → ℝ}

theorem IsLevel.bounds (level : IsLevel current) (ratio : ℝ) :
    VardiffBounds true current (current * vardiffStep ratio) (rateCandidate true current ratio) :=
  rateCandidate_bounds level.floor_le (fun _ => level) ratio

/-- A raised power of two is less than twice the candidate. -/
theorem rateCandidate_rises (large : 64 ≤ current) (high : 1.25 ≤ ratio) :
    ∃ exponent : ℕ, rateCandidate true current ratio = 2 ^ exponent ∧
      (2 : ℝ) ^ exponent < 2 * (current * vardiffStep ratio) := by
  have raises := step_raises large high
  have floor : 64 ≤ current * vardiffStep ratio := by linarith
  obtain ⟨exponent, -, clamped, up, -⟩ :=
    @vardiffPow2ClampTowards_eq current (current * vardiffStep ratio) floor
  refine ⟨exponent, ?_, (up (by linarith)).2⟩
  have kept : ¬current * vardiffStep ratio < minDiff := not_lt.mpr floor
  rw [rateCandidate, vardiffBounded, if_neg kept]
  exact clamped

/-- From three halves of the target rate on, the clamp does not raise past three quarters. -/
theorem rateCandidate_stays_below (level : IsLevel current) (fast : 1.5 < ratio) :
    0.75 * rateCandidate true current ratio < ratio * current := by
  have large := level.floor_le
  obtain ⟨exponent, same, below⟩ := rateCandidate_rises large (by linarith : 1.25 ≤ ratio)
  rw [same]
  by_cases near : ratio ≤ 4
  · have root : √ratio ≤ 2 := Real.sqrt_le_iff.mpr ⟨by norm_num, by linarith⟩
    have step : vardiffStep ratio ≤ 2 :=
      max_le (by norm_num [maxStepDown]) ((min_le_left _ _).trans root)
    obtain ⟨start, -, rfl⟩ := level
    have double : (2 : ℝ) ^ exponent < 2 * 2 ^ (start + 1) := by
      have scaled := mul_le_mul_of_nonneg_left step (by positivity : (0 : ℝ) ≤ 2 ^ start)
      rw [pow_succ]
      linarith
    have doubled := two_pow_le_of_lt double
    rw [pow_succ] at doubled
    nlinarith
  · have root : √ratio ≤ ratio / 2 := Real.sqrt_le_iff.mpr ⟨by linarith, by nlinarith⟩
    have step : vardiffStep ratio ≤ ratio / 2 :=
      max_le (by rw [maxStepDown]; linarith) ((min_le_left _ _).trans root)
    have scaled := mul_le_mul_of_nonneg_left step (by linarith : 0 ≤ current)
    have positive : (0 : ℝ) < 2 ^ exponent := by positivity
    linarith

/-- On powers of two the difficulty settles, unless the ideal lies where it oscillates. -/
theorem settles_clamped (hashes : 0 < hashRate) (long : ∀ time, 90 ≤ windows time)
    (level : IsLevel start) (steady : ¬Oscillates (idealDiff hashRate expectedSpm)) :
    Settling.Settles (steadyNext hashRate expectedSpm true windows) start := by
  have outside : ∀ diff, IsLevel diff → 1.25 ≤ idealDiff hashRate expectedSpm / diff →
      1.5 < idealDiff hashRate expectedSpm / diff := by
    rintro diff ⟨exponent, least, rfl⟩ high
    by_contra near
    exact steady ⟨exponent, least, high, not_lt.mp near⟩
  by_cases slow : idealDiff hashRate expectedSpm / start < 1.25
  · apply @settles_falling hashRate expectedSpm true windows start
      (fun diff => IsLevel diff ∧ idealDiff hashRate expectedSpm / diff < 1.25) hashes long
      ⟨level, slow⟩
    · rintro diff ⟨level, slow⟩
      exact ⟨level.floor_le, fun _ => level, slow⟩
    · rintro diff ⟨level, -⟩ low falls
      have bounds := level.bounds (idealDiff hashRate expectedSpm / diff)
      refine ⟨bounds.level rfl, ?_⟩
      by_contra high
      have fast := outside _ (bounds.level rfl) (not_lt.mp high)
      have positive : 0 < diff := by linarith [level.floor_le]
      rw [lt_div_iff₀ (by linarith [bounds.floor])] at fast
      rw [div_le_iff₀ positive] at low
      linarith [bounds.lower]
  · apply @settles_rising hashRate expectedSpm true windows start
      (fun diff => IsLevel diff ∧ 0.75 < idealDiff hashRate expectedSpm / diff) hashes long
      ⟨level, by linarith⟩
    · rintro diff ⟨level, fast⟩
      exact ⟨level.floor_le, fun _ => level, fast⟩
    · rintro diff ⟨level, -⟩ high
      have bounds := level.bounds (idealDiff hashRate expectedSpm / diff)
      have positive : 0 < diff := by linarith [level.floor_le]
      have below := rateCandidate_stays_below level (outside diff level high)
      rw [div_mul_cancel₀ _ positive.ne'] at below
      exact ⟨bounds.level rfl, (lt_div_iff₀ (by linarith [bounds.floor])).mpr below⟩

/-- Where it oscillates, every tick moves the difficulty. -/
theorem not_settles_clamped (hashes : 0 < hashRate) (long : ∀ time, 90 ≤ windows time)
    (level : IsLevel start) (oscillates : Oscillates (idealDiff hashRate expectedSpm)) :
    ¬Settling.Settles (steadyNext hashRate expectedSpm true windows) start := by
  obtain ⟨turn, least, high, low⟩ := oscillates
  apply @Settling.not_settles _ _ IsLevel start level
  intro time diff level
  have large := level.floor_le
  have bounds := level.bounds (idealDiff hashRate expectedSpm / diff)
  obtain ⟨exponent, six, rfl⟩ := level
  have positive : (0 : ℝ) < 2 ^ exponent := by positivity
  have turning : (0 : ℝ) < 2 ^ turn := by positivity
  rw [le_div_iff₀ turning] at high
  rw [div_le_iff₀ turning] at low
  by_cases within : exponent ≤ turn
  · have power : (2 : ℝ) ^ exponent ≤ 2 ^ turn := pow_le_pow_right₀ one_le_two within
    have fast : 1.25 ≤ idealDiff hashRate expectedSpm / 2 ^ exponent := by
      rw [le_div_iff₀ positive]
      linarith
    exact ⟨_, steadyNext_of_moves hashes large (long time) (Or.inr fast)
      (bounds.moves large (Or.inr (step_raises large fast))), bounds.level rfl⟩
  · have power : (2 : ℝ) ^ (turn + 1) ≤ 2 ^ exponent :=
      pow_le_pow_right₀ one_le_two (by omega)
    have seven : (2 : ℝ) ^ 7 ≤ 2 ^ exponent := pow_le_pow_right₀ one_le_two (by omega)
    rw [pow_succ] at power
    have slow : idealDiff hashRate expectedSpm / 2 ^ exponent ≤ 0.75 := by
      rw [div_le_iff₀ positive]
      linarith
    have room : 0.10 ≤ ((2 : ℝ) ^ exponent - 64) / 2 ^ exponent := by
      rw [le_div_iff₀ positive]
      norm_num at seven
      linarith
    exact ⟨_, steadyNext_of_moves hashes large (long time) (Or.inl slow)
      (bounds.moves large (Or.inl ⟨step_lowers large slow, room⟩)), bounds.level rfl⟩

end Clamped

/-- **Does vardiff settle?** For a constant hash rate and windows of ninety seconds and more it
reaches a difficulty that it keeps, from every start, exactly when it does not clamp or the
ideal difficulty does not lie five quarters to three halves above a power of two from the
floor on. -/
theorem vardiff_settles_iff {hashRate expectedSpm start : ℝ} {clampPow2 : Bool}
    {windows : ℕ → ℝ} (hashes : 0 < hashRate) (large : 64 ≤ start)
    (level : clampPow2 = true → IsLevel start) (long : ∀ time, 90 ≤ windows time) :
    Settling.Settles (steadyNext hashRate expectedSpm clampPow2 windows) start ↔
      ¬(clampPow2 = true ∧ Oscillates (idealDiff hashRate expectedSpm)) := by
  cases clampPow2 with
  | false => exact iff_of_true (settles_free hashes long large) nofun
  | true =>
      constructor
      · rintro settles ⟨-, oscillates⟩
        exact not_settles_clamped hashes long (level rfl) oscillates settles
      · intro steady
        exact settles_clamped hashes long (level rfl) fun oscillates => steady ⟨rfl, oscillates⟩

theorem vardiff_settles_iff_sample :
    Settling.Settles (steadyNext 1 1 false fun _ => 90) 64 :=
  (@vardiff_settles_iff 1 1 64 false (fun _ => 90) one_pos le_rfl (fun clamps => by cases clamps)
    fun _ => le_rfl).mpr fun clamps => by cases clamps.1

/-- A miner whose ideal difficulty is 80 moves between 64 and 128 for ever. -/
theorem vardiff_oscillates :
    ¬Settling.Settles (steadyNext (80 / 3) 20 true fun _ => 90) 64 := by
  apply not_settles_clamped (by norm_num) (fun _ => le_rfl) ⟨6, le_rfl, by norm_num⟩
  exact ⟨6, le_rfl, by norm_num [idealDiff], by norm_num [idealDiff]⟩

end StratumBridge

end
