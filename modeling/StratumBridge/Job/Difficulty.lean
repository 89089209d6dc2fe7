import Mathlib.Data.Rat.Floor

/-! # Difficulties and targets

A share meets a target when its proof-of-work value is at most the target. The
chain states its target in compact bits, the stratum layer as a difficulty.
Difficulties are rational numbers here.
-/

namespace StratumBridge

/-- The target of compact bits: one exponent byte and three mantissa bytes. -/
def calculateTarget (bits : Nat) : Nat :=
  let exponent := bits >>> 24
  let mantissa := bits &&& 0xFFFFFF
  if exponent ≤ 3 then mantissa >>> (8 * (3 - exponent))
  else mantissa <<< (8 * (exponent - 3))

/-- `MAX_TARGET`, 2^224 - 1. -/
def maxTarget : Nat := 2 ^ 224 - 1

/-- The calculation chosen by the process environment
(`USE_STRATUM_TARGET_CALC`, `USE_ALTERNATIVE_TARGET_CALC`). -/
inductive TargetCalculation where
  | standard
  | stratum
  | alternative
deriving DecidableEq

/-- `value as u{width}`: truncated towards zero and saturated at both ends. -/
def asUnsigned (width : Nat) (value : ℚ) : Nat := min ⌊value⌋.toNat (2 ^ width - 1)

/-- The divisor of the standard calculation, keeping eighteen decimal places. -/
def diffScaled (diff : ℚ) : Nat := asUnsigned 128 (diff * 10 ^ 18)

/-- `maxTarget / diff`, both scaled by 10^18. -/
def diffToTargetStandard (diff : ℚ) : Nat :=
  if diff ≤ 0 then maxTarget else maxTarget * 10 ^ 18 / diffScaled diff

def stratumDifficultyToTargetKaspa (stratumDiff : Nat) : Nat :=
  if stratumDiff = 0 then (2 ^ 64 - 1) * 1000
  else (2 ^ 64 - 1) * 1000 / (stratumDiff * 1000)

def diffToTargetAlternative (diff : ℚ) : Nat :=
  if diff ≤ 0 then maxTarget
  else (2 ^ 64 - 1) * 1000000 / asUnsigned 64 (diff * 1000000)

def diffToTarget (calculation : TargetCalculation) (diff : ℚ) : Nat :=
  match calculation with
  | .standard => diffToTargetStandard diff
  | .stratum => stratumDifficultyToTargetKaspa (asUnsigned 64 diff)
  | .alternative => diffToTargetAlternative diff

/-- The hash value of a difficulty, in units of 10^9 hashes. -/
def diffToHash (diff : ℚ) : ℚ := 2 ^ 32 * diff / 1000000000

/-- A stratum difficulty with the target and the hash value derived from it. -/
structure KaspaDiff where
  hashValue : ℚ
  diffValue : ℚ
  targetValue : Nat
deriving DecidableEq

/-- The difficulty record `set_diff_value_for_miner` fills in. -/
def KaspaDiff.ofDiffValue (calculation : TargetCalculation) (diff : ℚ) : KaspaDiff where
  hashValue := diffToHash diff
  diffValue := diff
  targetValue := diffToTarget calculation diff

end StratumBridge
