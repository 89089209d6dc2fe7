import StratumBridge.AntiAbuse.Buckets

/-! # Frames over a window

A bucket lives as long as its address has a live connection. While it lives it bounds the
frames of any window; the bound carries over a reconnection if the bucket that was given up
would have been full again.
-/

namespace StratumBridge

variable {Ip : Type} [DecidableEq Ip]

namespace AntiAbuseState

/-- The bucket an address has, or had when it was last tracked. -/
def lastBucket (config : AntiAbuseConfig) (ip : Ip) :
    AntiAbuseState Ip → Option (TokenBucket ℚ) → List (AntiAbuseStep Ip) → Option (TokenBucket ℚ)
  | _, bucket, [] => bucket
  | state, bucket, step :: rest =>
      let after := state.step config step
      lastBucket config ip after (((after.guard.entries.lookup ip).map IpEntry.bucket).or bucket) rest

/-- Whether a step admits a frame of the address within the window. -/
def admits (config : AntiAbuseConfig) (ip : Ip) (start stop : ℚ) (state : AntiAbuseState Ip) :
    AntiAbuseStep Ip → Nat
  | .consume other now =>
      if other = ip ∧ (state.guard.tryConsumeFrame config ip now).1 = true ∧ start ≤ now ∧ now ≤ stop
      then 1 else 0
  | _ => 0

/-- The frames of an address admitted within a window. -/
def admitted (config : AntiAbuseConfig) (ip : Ip) (start stop : ℚ) :
    AntiAbuseState Ip → List (AntiAbuseStep Ip) → Nat
  | _, [] => 0
  | state, step :: rest =>
      admits config ip start stop state step +
        admitted config ip start stop (state.step config step) rest

/-- The clock of an address does not go back, and an address is only tracked again once the
bucket it gave up would be full. -/
def Steady (config : AntiAbuseConfig) (ip : Ip) (state : AntiAbuseState Ip)
    (bucket : Option (TokenBucket ℚ)) : AntiAbuseStep Ip → Prop
  | .accept other now => other = ip → ip ∉ state.guard.entries →
      state.guard.trackedIpCount < config.maxTrackedIps → ∀ kept, bucket = some kept →
        kept.lastRefill ≤ now ∧
          config.frameBurst ≤ kept.level config.frameRatePerSec config.frameBurst now
  | .drop _ => True
  | .consume other now => other = ip → ∀ entry, state.guard.entries.lookup ip = some entry →
      entry.bucket.lastRefill ≤ now

/-- Every step of the run is steady for the address. -/
def SteadyRun (config : AntiAbuseConfig) (ip : Ip) (steps : List (AntiAbuseStep Ip)) : Prop :=
  ∀ front step back, steps = front ++ step :: back →
    Steady config ip (run config front) (lastBucket config ip initial none front) step

section Snoc

variable {config : AntiAbuseConfig} {ip : Ip} {start stop : ℚ}

theorem lastBucket_snoc (steps : List (AntiAbuseStep Ip)) (last : AntiAbuseStep Ip)
    (state : AntiAbuseState Ip) (bucket : Option (TokenBucket ℚ)) :
    lastBucket config ip state bucket (steps ++ [last]) =
      ((((steps.foldl (step config) state).step config last).guard.entries.lookup ip).map
        IpEntry.bucket).or (lastBucket config ip state bucket steps) := by
  induction steps generalizing state bucket with
  | nil => rfl
  | cons first rest ih => exact ih _ _

theorem admitted_snoc (steps : List (AntiAbuseStep Ip)) (last : AntiAbuseStep Ip)
    (state : AntiAbuseState Ip) :
    admitted config ip start stop state (steps ++ [last]) =
      admitted config ip start stop state steps +
        admits config ip start stop (steps.foldl (step config) state) last := by
  induction steps generalizing state with
  | nil => exact Nat.add_comm _ _
  | cons first rest ih =>
      simp only [List.cons_append, admitted, ih, List.foldl_cons, Nat.add_assoc]

end Snoc

/-- What a run says of the frames of an address: its bucket, or the one it had last, accounts
for them. -/
structure Accounted (config : AntiAbuseConfig) (ip : Ip) (start stop : ℚ)
    (state : AntiAbuseState Ip) (bucket : Option (TokenBucket ℚ)) (count : Nat) : Prop where
  current : ∀ entry, state.guard.entries.lookup ip = some entry → bucket = some entry.bucket
  accounts : ∀ kept, bucket = some kept → TokenBucket.Accounts config.frameRatePerSec
    config.frameBurst start stop kept count
  nothing : bucket = none → count = 0

section Steps

variable {config : AntiAbuseConfig} {ip : Ip} {start stop : ℚ} {state : AntiAbuseState Ip}
  {bucket : Option (TokenBucket ℚ)} {count : Nat}

/-- A step that admits no frame leaves the bucket of the address as it was. -/
theorem Accounted.keep (accounted : Accounted config ip start stop state bucket count)
    {after : AntiAbuseState Ip}
    (same : ∀ entry, after.guard.entries.lookup ip = some entry →
      ∃ earlier, state.guard.entries.lookup ip = some earlier ∧ earlier.bucket = entry.bucket) :
    Accounted config ip start stop after
      (((after.guard.entries.lookup ip).map IpEntry.bucket).or bucket) count := by
  have unchanged : ((after.guard.entries.lookup ip).map IpEntry.bucket).or bucket = bucket := by
    cases found : after.guard.entries.lookup ip with
    | none => rfl
    | some entry =>
        obtain ⟨earlier, before, equal⟩ := same entry found
        rw [accounted.current earlier before, equal]
        rfl
  rw [unchanged]
  refine ⟨?_, accounted.accounts, accounted.nothing⟩
  intro entry found
  obtain ⟨earlier, before, equal⟩ := same entry found
  rw [accounted.current earlier before, equal]

/-- A new bucket counts what the last one counted. -/
theorem Accounted.replace {after : AntiAbuseState Ip} {entry : IpEntry}
    (found : after.guard.entries.lookup ip = some entry)
    (accounts : TokenBucket.Accounts config.frameRatePerSec config.frameBurst start stop
      entry.bucket count) :
    Accounted config ip start stop after
      (((after.guard.entries.lookup ip).map IpEntry.bucket).or bucket) count := by
  rw [found]
  refine ⟨?_, ?_, fun none => nomatch none⟩
  · intro other known
    cases found.symm.trans known
    rfl
  · intro kept same
    cases same
    exact accounts

theorem admits_of_not_consume {step : AntiAbuseStep Ip} (silent : ∀ now, step ≠ .consume ip now) :
    admits config ip start stop state step = 0 := by
  cases step with
  | accept other now => rfl
  | drop other => rfl
  | consume other now =>
      have different : other ≠ ip := by
        rintro rfl
        exact silent now rfl
      exact if_neg fun both => different both.1

theorem admits_untracked {step : AntiAbuseStep Ip}
    (untracked : state.guard.entries.lookup ip = none) :
    admits config ip start stop state step = 0 := by
  cases step with
  | accept other now => rfl
  | drop other => rfl
  | consume other now =>
      simp only [admits, AntiAbuseGuard.tryConsumeFrame, untracked, Bool.false_eq_true, false_and,
        and_false, if_false]

theorem admits_tracked {entry : IpEntry} {now : ℚ}
    (found : state.guard.entries.lookup ip = some entry) :
    admits config ip start stop state (.consume ip now) =
      TokenBucket.counted config.frameRatePerSec config.frameBurst start stop entry.bucket now := by
  simp only [admits, AntiAbuseGuard.tryConsumeFrame, found, IpEntry.tryConsume, true_and,
    TokenBucket.counted]

/-- **A steady step keeps the account.** -/
theorem Accounted.step (valid : config.Valid) (ordered : start ≤ stop)
    (accounted : Accounted config ip start stop state bucket count) (step : AntiAbuseStep Ip)
    (steady : Steady config ip state bucket step) :
    Accounted config ip start stop (state.step config step)
      ((((state.step config step).guard.entries.lookup ip).map IpEntry.bucket).or bucket)
      (count + admits config ip start stop state step) := by
  cases found : (state.step config step).guard.entries.lookup ip with
  | none =>
      have untouched : admits config ip start stop state step = 0 := by
        by_cases asks : ∃ now, step = .consume ip now
        · obtain ⟨now, rfl⟩ := asks
          cases known : state.guard.entries.lookup ip with
          | none => exact admits_untracked known
          | some earlier =>
              have stays := @consume_tracked _ _ config _ _ _ now known
              rw [found] at stays
              exact nomatch stays
        · exact admits_of_not_consume fun now same => asks ⟨now, same⟩
      have kept := accounted.keep fun entry after => absurd (found.symm.trans after) nofun
      rw [found] at kept
      rw [untouched]
      exact kept
  | some entry =>
      rw [← found]
      cases step_refilled valid step found with
      | kept earlier known same silent =>
          rw [admits_of_not_consume silent]
          refine accounted.keep fun other after => ⟨earlier, known, ?_⟩
          cases found.symm.trans after
          exact same
      | tracked now untracked room filled =>
          refine Accounted.replace found (filled ▸ ?_)
          cases known : bucket with
          | none =>
              rw [accounted.nothing known]
              exact TokenBucket.accounts_full valid.rate.le valid.burst.le ordered
          | some kept =>
              obtain ⟨onward, refilled⟩ := steady rfl untracked room kept known
              exact (accounted.accounts kept known).refresh valid.rate.le valid.burst.le onward
                refilled
      | asked now earlier known spent =>
          rw [admits_tracked known]
          refine Accounted.replace found (spent ▸ ?_)
          exact (accounted.accounts earlier.bucket (accounted.current earlier known)).consume
            valid.rate.le (steady rfl earlier known)

end Steps

theorem accounted_run {config : AntiAbuseConfig} {ip : Ip} {start stop : ℚ}
    (valid : config.Valid) (ordered : start ≤ stop) (steps : List (AntiAbuseStep Ip))
    (steady : SteadyRun config ip steps) :
    Accounted config ip start stop (run config steps) (lastBucket config ip initial none steps)
      (admitted config ip start stop initial steps) := by
  induction steps using List.reverseRecOn with
  | nil =>
      exact ⟨fun entry found => (nomatch found), fun kept same => (nomatch same), fun _ => rfl⟩
  | append_singleton steps last ih =>
      have earlier : SteadyRun config ip steps := by
        rintro front step back rfl
        exact steady front step (back ++ [last]) (by rw [List.append_assoc, List.cons_append])
      have now := steady steps last [] rfl
      rw [run_snoc, lastBucket_snoc, admitted_snoc]
      exact (ih earlier).step valid ordered last now

/-- **Frames.** In a run that is steady for an address, a window admits at most a burst of its
frames and what the rate gives in the window. -/
theorem frames_bounded {maxConnPerIp maxTrackedIps : Nat} {frameRatePerSec frameBurst : Float64}
    {config : AntiAbuseConfig}
    (built : AntiAbuseConfig.new maxConnPerIp maxTrackedIps frameRatePerSec frameBurst = .ok config)
    (steps : List (AntiAbuseStep Ip)) (ip : Ip) (steady : SteadyRun config ip steps)
    (start stop : ℚ) (ordered : start ≤ stop) :
    (admitted config ip start stop initial steps : ℚ) ≤
      config.frameBurst + (stop - start) * config.frameRatePerSec := by
  have valid := AntiAbuseConfig.valid_of_new built
  have accounted := accounted_run valid ordered steps steady
  cases known : lastBucket config ip initial none steps with
  | some kept => exact (accounted.accounts kept known).bound
  | none =>
      rw [accounted.nothing known, Nat.cast_zero]
      exact add_nonneg valid.burst.le
        (mul_nonneg (sub_nonneg.mpr ordered) valid.rate.le)

section Sample

/-- An address spends a frame, leaves, and comes back once its bucket would be full. -/
def patientSteps : List (AntiAbuseStep Nat) := [.accept 7 0, .consume 7 0, .drop 7, .accept 7 1]

theorem frames_bounded_sample :
    (admitted ⟨2, 1, 1, 2⟩ 7 0 1 initial patientSteps : ℚ) ≤ 2 + (1 - 0) * 1 := by
  refine @frames_bounded Nat _ 2 1 (.finite 1) (.finite 2) ⟨2, 1, 1, 2⟩ (by decide +kernel)
    patientSteps 7 ?_ 0 1 (by decide +kernel)
  intro front step back same
  unfold patientSteps at same
  rcases front with _ | ⟨_, _ | ⟨_, _ | ⟨_, _ | ⟨_, rest⟩⟩⟩⟩
  · cases same
    exact fun _ _ _ kept known => nomatch known
  · cases same
    intro _ entry found
    have held : entry = ⟨1, .full 2 0⟩ := Option.some.inj (found.symm.trans (by decide +kernel))
    subst held
    decide +kernel
  · cases same
    exact trivial
  · cases same
    intro _ _ _ kept known
    have held : kept = ⟨1, 0⟩ := Option.some.inj (known.symm.trans (by decide +kernel))
    subst held
    decide +kernel
  · have long := congrArg List.length same
    simp at long

/-- The same address spends its burst, leaves, and comes back at once. -/
def restlessSteps : List (AntiAbuseStep Nat) :=
  [.accept 7 0, .consume 7 0, .consume 7 0, .drop 7, .accept 7 0, .consume 7 0, .consume 7 0]

/-- No bound of a burst and the rate holds for every run: reconnecting gives a full bucket. -/
theorem frames_unbounded :
    ¬ ∀ (config : AntiAbuseConfig) (steps : List (AntiAbuseStep Nat)) (ip : Nat) (start stop : ℚ),
      AntiAbuseConfig.new config.maxConnPerIp config.maxTrackedIps
          (.finite config.frameRatePerSec) (.finite config.frameBurst) = .ok config →
      start ≤ stop →
      (admitted config ip start stop initial steps : ℚ) ≤
        config.frameBurst + (stop - start) * config.frameRatePerSec := by
  intro bounded
  have four := bounded ⟨2, 1, 1, 2⟩ restlessSteps 7 0 0 (by decide +kernel) (by decide +kernel)
  exact absurd four (by decide +kernel)

end Sample

end AntiAbuseState

end StratumBridge
