import StratumBridge.AntiAbuse.Frames

/-! # Frames of a tracked address

The time of a frame is read before the guard is locked, so the tasks of one address may
present their times in another order. As long as a bucket is never asked for a time before
its last refill it bounds the frames of any window. A time that goes back sets the last
refill back with it, and what was gained since then is gained again.
-/

namespace StratumBridge.AntiAbuseState

variable {Ip : Type} [DecidableEq Ip]

/-- The address is tracked from the first state of the steps to the last. -/
def Tracked (config : AntiAbuseConfig) (ip : Ip) :
    AntiAbuseState Ip → List (AntiAbuseStep Ip) → Prop
  | state, [] => ip ∈ state.guard.entries
  | state, step :: rest => ip ∈ state.guard.entries ∧ Tracked config ip (state.step config step) rest

/-- The step does not ask the bucket of the address for a time before its last refill. -/
def OnwardStep (ip : Ip) (state : AntiAbuseState Ip) : AntiAbuseStep Ip → Prop
  | .consume other now => other = ip → ∀ entry ∈ state.guard.entries.lookup ip,
      entry.bucket.lastRefill ≤ now
  | .accept _ _ | .drop _ => True

/-- No step asks the bucket of the address for a time before its last refill. -/
def Onward (config : AntiAbuseConfig) (ip : Ip) :
    AntiAbuseState Ip → List (AntiAbuseStep Ip) → Prop
  | _, [] => True
  | state, step :: rest => OnwardStep ip state step ∧ Onward config ip (state.step config step) rest

/-- The bucket of the address accounts for so many frames of a window. -/
def Counts (config : AntiAbuseConfig) (ip : Ip) (start stop : ℚ) (state : AntiAbuseState Ip)
    (count : Nat) : Prop :=
  ∀ entry, state.guard.entries.lookup ip = some entry → TokenBucket.Accounts
    config.frameRatePerSec config.frameBurst start stop entry.bucket count

variable {config : AntiAbuseConfig} {ip : Ip} {start stop : ℚ} {state : AntiAbuseState Ip}
  {count : Nat}

theorem Counts.step (counts : Counts config ip start stop state count) (valid : config.Valid)
    (tracked : ip ∈ state.guard.entries) {step : AntiAbuseStep Ip}
    (onward : OnwardStep ip state step) :
    Counts config ip start stop (state.step config step)
      (count + admits config ip start stop state step) := by
  intro entry after
  cases step_refilled valid step after with
  | kept earlier found same silent =>
      rw [admits_of_not_consume silent, ← same]
      exact counts earlier found
  | tracked now untracked _ _ => exact absurd tracked untracked
  | asked now earlier found spent =>
      rw [admits_tracked found, spent]
      exact (counts earlier found).consume valid.rate.le (onward rfl earlier found)

/-- **The bucket accounts for the frames of a run.** -/
theorem Counts.run (counts : Counts config ip start stop state count) (valid : config.Valid)
    (steps : List (AntiAbuseStep Ip)) (tracked : Tracked config ip state steps)
    (onward : Onward config ip state steps) :
    ∃ entry : IpEntry, TokenBucket.Accounts config.frameRatePerSec config.frameBurst start stop
      entry.bucket (count + admitted config ip start stop state steps) := by
  induction steps generalizing state count with
  | nil =>
      obtain ⟨entry, found⟩ := Option.isSome_iff_exists.mp (AList.lookup_isSome.mpr tracked)
      exact ⟨entry, counts entry found⟩
  | cons step rest ih =>
      rw [admitted, ← Nat.add_assoc]
      exact ih (counts.step valid tracked.1 onward.1) tracked.2 onward.2

/-- **Tokens and windows.** In every run, whatever times the frames come with, every bucket
holds between no tokens and a burst. While an address is tracked and its bucket is not asked
for a time before its last refill, every window admits at most a burst of its frames and
what the rate gives in the window. -/
theorem requests_bounded {maxConnPerIp maxTrackedIps : Nat} {frameRatePerSec frameBurst : Float64}
    {config : AntiAbuseConfig}
    (built : AntiAbuseConfig.new maxConnPerIp maxTrackedIps frameRatePerSec frameBurst = .ok config)
    (earlier steps : List (AntiAbuseStep Ip)) (ip : Ip) :
    (∀ entry, (run config earlier).guard.entries.lookup ip = some entry →
      0 ≤ entry.bucket.tokens ∧ entry.bucket.tokens ≤ config.frameBurst) ∧
    (Tracked config ip (run config earlier) steps → Onward config ip (run config earlier) steps →
      ∀ start stop, start ≤ stop →
        (admitted config ip start stop (run config earlier) steps : ℚ) ≤
          config.frameBurst + config.frameRatePerSec * (stop - start)) := by
  have valid := AntiAbuseConfig.valid_of_new built
  have stocked := stocked_run valid earlier ip
  constructor
  · intro entry found
    exact ⟨(stocked entry found).stocked, (stocked entry found).capped⟩
  · intro tracked onward start stop ordered
    have counts : Counts config ip start stop (run config earlier) 0 := fun entry found =>
      (stocked entry found).accounts valid.rate.le valid.burst.le ordered
    obtain ⟨entry, accounts⟩ := counts.run valid steps tracked onward
    have bound := accounts.bound
    rw [Nat.zero_add] at bound
    rw [mul_comm]
    exact bound

section Sample

/-- Two connections of an address, whose frames come a second apart. -/
theorem requests_bounded_sample :
    (admitted ⟨2, 1, 1, 2⟩ 7 0 1 (run ⟨2, 1, 1, 2⟩ [.accept 7 0, .accept 7 0])
      [.consume 7 0, .consume 7 0, .consume 7 1] : ℚ) ≤ 2 + 1 * (1 - 0) := by
  have bounded := @requests_bounded Nat _ 2 1 (.finite 1) (.finite 2) ⟨2, 1, 1, 2⟩
    (by decide +kernel) [.accept 7 0, .accept 7 0] [.consume 7 0, .consume 7 0, .consume 7 1] 7
  refine bounded.2 ⟨?_, ?_, ?_, ?_⟩ ⟨?_, ?_, ?_, trivial⟩ 0 1 (by decide +kernel)
  · decide +kernel
  · decide +kernel
  · decide +kernel
  · change (7 : Nat) ∈ _
    decide +kernel
  all_goals
    intro _ entry found
    cases found
    decide +kernel

/-- The second of three frames was timed first, and waited for the lock. -/
def overtaken : List (AntiAbuseStep Nat) := [.consume 7 10, .consume 7 9, .consume 7 10]

/-- Without the order of the times no such bound holds: a bucket of one token admits two
frames at one time. -/
theorem requests_unbounded :
    ¬ ∀ (config : AntiAbuseConfig) (earlier steps : List (AntiAbuseStep Nat)) (ip : Nat)
      (start stop : ℚ),
      AntiAbuseConfig.new config.maxConnPerIp config.maxTrackedIps
          (.finite config.frameRatePerSec) (.finite config.frameBurst) = .ok config →
      Tracked config ip (run config earlier) steps → start ≤ stop →
        (admitted config ip start stop (run config earlier) steps : ℚ) ≤
          config.frameBurst + config.frameRatePerSec * (stop - start) := by
  intro bounded
  have two := bounded ⟨2, 1, 1, 1⟩ [.accept 7 0] overtaken 7 10 10 (by decide +kernel)
    (by
      refine ⟨?_, ?_, ?_, ?_⟩
      · decide +kernel
      · decide +kernel
      · decide +kernel
      · change (7 : Nat) ∈ _
        decide +kernel)
    (by decide +kernel)
  exact absurd two (by decide +kernel)

end Sample

end StratumBridge.AntiAbuseState
