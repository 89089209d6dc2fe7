import Mathlib.Algebra.Order.Field.Basic
import Mathlib.Tactic.Linarith
import Mathlib.Tactic.Ring

/-! # Token buckets

A bucket holds at most `burst` tokens and gains them at a fixed rate. It is refilled only
when a token is asked for. Over any window it lets through at most a burst and what it
gained in the window.
-/

/-- A bucket, as it was when it was last refilled. -/
structure TokenBucket (K : Type*) where
  tokens : K
  lastRefill : K
deriving DecidableEq

namespace TokenBucket

variable {K : Type*} [Field K] [LinearOrder K] [IsStrictOrderedRing K]

/-- A bucket that is full. -/
def full (burst now : K) : TokenBucket K := ⟨burst, now⟩

/-- What a bucket holds at some time; readings of the clock that go back gain nothing. -/
def level (rate burst : K) (bucket : TokenBucket K) (now : K) : K :=
  min (bucket.tokens + max (now - bucket.lastRefill) 0 * rate) burst

/-- Refill the bucket and take a token, if there is one. -/
def tryConsume (rate burst : K) (bucket : TokenBucket K) (now : K) : Bool × TokenBucket K :=
  let tokens := level rate burst bucket now
  if 1 ≤ tokens then (true, ⟨tokens - 1, now⟩) else (false, ⟨tokens, now⟩)

section Window

variable {rate burst start stop now : K} {bucket : TokenBucket K} {count : ℕ}

omit [IsStrictOrderedRing K] in
theorem level_le_burst : level rate burst bucket now ≤ burst := min_le_right _ _

theorem level_le (onward : bucket.lastRefill ≤ now) :
    level rate burst bucket now ≤ bucket.tokens + (now - bucket.lastRefill) * rate := by
  have elapsed : max (now - bucket.lastRefill) 0 = now - bucket.lastRefill :=
    max_eq_left (sub_nonneg.mpr onward)
  rw [level, elapsed]
  exact min_le_left _ _

theorem level_nonneg (positive : 0 ≤ rate) (large : 0 ≤ burst) (stocked : 0 ≤ bucket.tokens) :
    0 ≤ level rate burst bucket now :=
  le_min (add_nonneg stocked (mul_nonneg (le_max_right _ _) positive)) large

/-- The bucket holds no fewer than no tokens and no more than a burst. -/
structure Holds (burst : K) (bucket : TokenBucket K) : Prop where
  stocked : 0 ≤ bucket.tokens
  capped : bucket.tokens ≤ burst

omit [IsStrictOrderedRing K] in
theorem holds_full (large : 0 ≤ burst) : Holds burst (full burst now) := ⟨large, le_refl burst⟩

/-- A request leaves what a bucket may hold, whatever time it gives. -/
theorem Holds.consume (holds : Holds burst bucket) (positive : 0 ≤ rate) (large : 0 ≤ burst)
    (now : K) : Holds burst (tryConsume rate burst bucket now).2 := by
  have held : level rate burst bucket now ≤ burst := level_le_burst
  unfold tryConsume
  dsimp only
  split
  · next granted => exact ⟨sub_nonneg.mpr granted, (sub_le_self _ zero_le_one).trans held⟩
  · exact ⟨level_nonneg positive large holds.stocked, held⟩

/-- So many tokens were taken from a bucket in a window, and what is left fits the bound. -/
structure Accounts (rate burst start stop : K) (bucket : TokenBucket K) (count : ℕ) : Prop where
  stocked : 0 ≤ bucket.tokens
  capped : bucket.tokens ≤ burst
  before : bucket.lastRefill < start → count = 0
  after : start ≤ bucket.lastRefill →
    count + bucket.tokens ≤ burst + (bucket.lastRefill - start) * rate
  bound : count ≤ burst + (stop - start) * rate

/-- A window in which nothing was taken yet. -/
theorem Holds.accounts (holds : Holds burst bucket) (positive : 0 ≤ rate) (large : 0 ≤ burst)
    (ordered : start ≤ stop) : Accounts rate burst start stop bucket 0 where
  stocked := holds.stocked
  capped := holds.capped
  before := fun _ => rfl
  after := by
    intro late
    have gained : 0 ≤ (bucket.lastRefill - start) * rate :=
      mul_nonneg (sub_nonneg.mpr late) positive
    have capped := holds.capped
    rw [Nat.cast_zero]
    linarith
  bound := by
    have gained : 0 ≤ (stop - start) * rate := mul_nonneg (sub_nonneg.mpr ordered) positive
    rw [Nat.cast_zero]
    linarith

/-- Nothing was taken from a bucket that was just filled. -/
theorem accounts_full (positive : 0 ≤ rate) (large : 0 ≤ burst) (ordered : start ≤ stop) :
    Accounts rate burst start stop (full burst now) 0 :=
  (holds_full large).accounts positive large ordered

/-- Replacing a bucket that would be full by a full one changes nothing. -/
theorem Accounts.refresh (accounts : Accounts rate burst start stop bucket count)
    (positive : 0 ≤ rate) (large : 0 ≤ burst) (onward : bucket.lastRefill ≤ now)
    (filled : burst ≤ level rate burst bucket now) :
    Accounts rate burst start stop (full burst now) count where
  stocked := large
  capped := le_refl burst
  before := fun early => accounts.before (lt_of_le_of_lt onward early)
  after := by
    intro late
    have reached : burst ≤ bucket.tokens + (now - bucket.lastRefill) * rate :=
      le_trans filled (level_le onward)
    rcases le_or_gt start bucket.lastRefill with inside | outside
    · have held := accounts.after inside
      have stretch : (now - start) * rate =
          (now - bucket.lastRefill) * rate + (bucket.lastRefill - start) * rate := by ring
      simp only [full]
      linarith
    · have gained : 0 ≤ (now - start) * rate := mul_nonneg (sub_nonneg.mpr late) positive
      rw [accounts.before outside]
      simpa [full] using gained
  bound := accounts.bound

/-- A request for a token at the given time, counted if it is granted within the window. -/
def counted (rate burst start stop : K) (bucket : TokenBucket K) (now : K) : ℕ :=
  if (tryConsume rate burst bucket now).1 = true ∧ start ≤ now ∧ now ≤ stop then 1 else 0

/-- **Step of a bucket.** -/
theorem Accounts.consume (accounts : Accounts rate burst start stop bucket count)
    (positive : 0 ≤ rate) (onward : bucket.lastRefill ≤ now) :
    Accounts rate burst start stop (tryConsume rate burst bucket now).2
      (count + counted rate burst start stop bucket now) := by
  have large : 0 ≤ burst := le_trans accounts.stocked accounts.capped
  have held : level rate burst bucket now ≤ burst := level_le_burst
  have rest : 0 ≤ level rate burst bucket now := level_nonneg positive large accounts.stocked
  have reached : level rate burst bucket now ≤
      bucket.tokens + (now - bucket.lastRefill) * rate := level_le onward
  -- What is held at the request still fits the bound.
  have fits : start ≤ now →
      count + level rate burst bucket now ≤ burst + (now - start) * rate := by
    intro late
    rcases le_or_gt start bucket.lastRefill with inside | outside
    · have earlier := accounts.after inside
      have stretch : (now - start) * rate =
          (now - bucket.lastRefill) * rate + (bucket.lastRefill - start) * rate := by ring
      linarith
    · have gained : 0 ≤ (now - start) * rate := mul_nonneg (sub_nonneg.mpr late) positive
      rw [accounts.before outside, Nat.cast_zero]
      linarith
  unfold counted tryConsume
  dsimp only
  split
  · next granted =>
      by_cases within : start ≤ now ∧ now ≤ stop
      · have counts : (true = true ∧ start ≤ now ∧ now ≤ stop) := ⟨rfl, within⟩
        rw [if_pos counts]
        have total := fits within.1
        refine ⟨sub_nonneg.mpr granted, le_trans (sub_le_self _ zero_le_one) held,
          fun early => absurd within.1 (not_le.mpr early), fun _ => ?_, ?_⟩
        · push_cast
          linarith
        · have gained : (now - start) * rate ≤ (stop - start) * rate :=
            mul_le_mul_of_nonneg_right (sub_le_sub_right within.2 start) positive
          push_cast
          linarith
      · rw [if_neg fun counts => within counts.2, Nat.add_zero]
        refine ⟨sub_nonneg.mpr granted, le_trans (sub_le_self _ zero_le_one) held,
          fun early => accounts.before (lt_of_le_of_lt onward early), fun late => ?_,
          accounts.bound⟩
        have total := fits late
        linarith
  · rw [if_neg fun counts => Bool.noConfusion counts.1, Nat.add_zero]
    exact ⟨rest, held, fun early => accounts.before (lt_of_le_of_lt onward early), fits,
      accounts.bound⟩

end Window

end TokenBucket
