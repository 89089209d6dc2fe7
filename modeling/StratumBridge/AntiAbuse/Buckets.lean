import StratumBridge.AntiAbuse.Tickets

/-! # The buckets of the tracked addresses

An entry found after a step was there before with the same bucket, is new with a full one,
or had its bucket asked for a token. Every bucket of every run therefore holds between no
tokens and a burst, whatever times the callers give.
-/

namespace StratumBridge

variable {Ip : Type} [DecidableEq Ip]

namespace AntiAbuseState

variable {config : AntiAbuseConfig} {state : AntiAbuseState Ip} {ip : Ip} {entry : IpEntry}

/-- Where the bucket of an entry found after a step comes from. -/
inductive Refilled (config : AntiAbuseConfig) (state : AntiAbuseState Ip) (ip : Ip)
    (entry : IpEntry) : AntiAbuseStep Ip → Prop where
  | kept {step : AntiAbuseStep Ip} (earlier : IpEntry)
      (found : state.guard.entries.lookup ip = some earlier)
      (same : earlier.bucket = entry.bucket) (silent : ∀ now, step ≠ .consume ip now) :
      Refilled config state ip entry step
  | tracked (now : ℚ) (untracked : ip ∉ state.guard.entries)
      (room : state.guard.trackedIpCount < config.maxTrackedIps)
      (filled : entry.bucket = .full config.frameBurst now) :
      Refilled config state ip entry (.accept ip now)
  | asked (now : ℚ) (earlier : IpEntry) (found : state.guard.entries.lookup ip = some earlier)
      (spent : entry.bucket = (earlier.bucket.tryConsume config.frameRatePerSec config.frameBurst
        now).2) :
      Refilled config state ip entry (.consume ip now)

theorem refilled_accept (valid : config.Valid) (other : Ip) (now : ℚ)
    (after : (state.step config (.accept other now)).guard.entries.lookup ip = some entry) :
    Refilled config state ip entry (.accept other now) := by
  have silent : ∀ time, AntiAbuseStep.accept other now ≠ .consume ip time :=
    fun _ same => nomatch same
  have accepts := @AntiAbuseGuard.tryAcceptConnection_cases _ _ state.guard other now config valid
  rw [step] at after
  revert accepts after
  generalize state.guard.tryAcceptConnection config other now = outcome
  intro after accepts
  cases accepts with
  | refused rejection => exact .kept entry after rfl silent
  | known held found free =>
      by_cases same : ip = other
      · subst same
        rw [AList.lookup_insert] at after
        cases after
        exact .kept held found rfl silent
      · rw [AList.lookup_insert_ne same] at after
        exact .kept entry after rfl silent
  | fresh untracked room =>
      by_cases same : ip = other
      · subst same
        rw [AList.lookup_insert] at after
        cases after
        exact .tracked now untracked room rfl
      · rw [AList.lookup_insert_ne same] at after
        exact .kept entry after rfl silent

theorem refilled_drop (other : Ip)
    (after : (state.step config (.drop other)).guard.entries.lookup ip = some entry) :
    Refilled config state ip entry (.drop other) := by
  have silent : ∀ time, AntiAbuseStep.drop other ≠ .consume ip time :=
    fun _ same => by cases same
  rw [step] at after
  split at after
  case isFalse => exact .kept entry after rfl silent
  case isTrue =>
    simp only [AntiAbuseGuard.release] at after
    cases known : state.guard.entries.lookup other with
    | none =>
        rw [known] at after
        exact .kept entry after rfl silent
    | some held =>
        rw [known] at after
        dsimp only at after
        by_cases same : ip = other
        · subst same
          split at after
          · rw [AList.lookup_erase] at after
            cases after
          · rw [AList.lookup_insert] at after
            cases after
            exact .kept held known rfl silent
        · split at after
          · rw [AList.lookup_erase_ne same] at after
            exact .kept entry after rfl silent
          · rw [AList.lookup_insert_ne same] at after
            exact .kept entry after rfl silent

theorem refilled_consume (other : Ip) (now : ℚ)
    (after : (state.step config (.consume other now)).guard.entries.lookup ip = some entry) :
    Refilled config state ip entry (.consume other now) := by
  rw [step, AntiAbuseGuard.tryConsumeFrame] at after
  by_cases same : ip = other
  · subst same
    cases known : state.guard.entries.lookup ip with
    | none =>
        rw [known] at after
        cases known.symm.trans after
    | some held =>
        rw [known] at after
        dsimp only at after
        rw [AList.lookup_insert] at after
        cases after
        exact .asked now held known rfl
  · have silent : ∀ time, AntiAbuseStep.consume other now ≠ .consume ip time := by
      intro time equal
      cases equal
      exact same rfl
    cases known : state.guard.entries.lookup other with
    | none =>
        rw [known] at after
        exact .kept entry after rfl silent
    | some held =>
        rw [known] at after
        dsimp only at after
        rw [AList.lookup_insert_ne same] at after
        exact .kept entry after rfl silent

/-- **What a step can do to a bucket.** -/
theorem step_refilled (valid : config.Valid) (step : AntiAbuseStep Ip)
    (after : (state.step config step).guard.entries.lookup ip = some entry) :
    Refilled config state ip entry step := by
  cases step with
  | accept other now => exact refilled_accept valid other now after
  | drop other => exact refilled_drop other after
  | consume other now => exact refilled_consume other now after

/-- A request of an address is the only step that a run of its bucket sees. -/
theorem consume_tracked {now : ℚ} (found : state.guard.entries.lookup ip = some entry) :
    ((state.step config (.consume ip now)).guard.entries.lookup ip).map IpEntry.bucket =
      some (entry.bucket.tryConsume config.frameRatePerSec config.frameBurst now).2 := by
  rw [step, AntiAbuseGuard.tryConsumeFrame, found]
  dsimp only
  rw [AList.lookup_insert]
  rfl

/-! ## Tokens -/

/-- Every bucket holds between no tokens and a burst. -/
def Stocked (config : AntiAbuseConfig) (state : AntiAbuseState Ip) : Prop :=
  ∀ ip entry, state.guard.entries.lookup ip = some entry → entry.bucket.Holds config.frameBurst

theorem Stocked.step (stocked : Stocked config state) (valid : config.Valid)
    (step : AntiAbuseStep Ip) : Stocked config (state.step config step) := by
  intro ip entry after
  cases step_refilled valid step after with
  | kept earlier found same _ => exact same ▸ stocked ip earlier found
  | tracked now _ _ filled => exact filled ▸ TokenBucket.holds_full valid.burst.le
  | asked now earlier found spent =>
      exact spent ▸ (stocked ip earlier found).consume valid.rate.le valid.burst.le now

/-- **Every bucket of every run holds between no tokens and a burst.** -/
theorem stocked_run (valid : config.Valid) (steps : List (AntiAbuseStep Ip)) :
    Stocked config (run config steps) := by
  induction steps using List.reverseRecOn with
  | nil => exact fun ip entry found => nomatch found
  | append_singleton steps last ih =>
      rw [run_snoc]
      exact ih.step valid last

end AntiAbuseState

end StratumBridge
