import StratumBridge.Listener.Departures

/-! # The rate of an address

All connections of an address draw on one bucket. While one of them is open, the frames that
reach a handler in a window stay within a burst and what the rate gives, whatever the miners
send, however it is cut into reads and however many connections share it.
-/

namespace StratumBridge

open AntiAbuseState

variable {Ip : Type}

/-- The time that a step presents to the guard. -/
def ListenerStep.time : ListenerStep Ip → Option ℚ
  | .accept (some _) now => some now
  | .line _ now => some now
  | _ => none

/-- The times are presented in order. -/
def Timely (steps : List (ListenerStep Ip)) : Prop :=
  (steps.filterMap ListenerStep.time).Pairwise (· ≤ ·)

variable [DecidableEq Ip]

/-- A frame of the address that got its token within the window. -/
def inWindow (ip : Ip) (start stop : ℚ) (frame : Ip × ℚ) : Bool :=
  decide (frame.1 = ip ∧ start ≤ frame.2 ∧ frame.2 ≤ stop)

namespace Listener

variable {config : AntiAbuseConfig} {serde : SerdeJson} {listener : Listener Ip} {ip : Ip}
  {start stop : ℚ}

/-- Some connection of the address has a running task. -/
def Serves (listener : Listener Ip) (ip : Ip) : Prop :=
  ∃ peer ∈ listener.peers, peer.ip = ip ∧ peer.phase ≠ .over

omit [DecidableEq Ip] in
/-- A call of the guard presents the time of its step. -/
theorem time_of_call {step : ListenerStep Ip} {call : AntiAbuseStep Ip}
    (made : step.call listener = some call) : match call with
      | .accept _ now | .consume _ now => step.time = some now
      | .drop _ => True := by
  cases step with
  | accept source now =>
      cases source with
      | none => exact nomatch made
      | some ip =>
          obtain ⟨-, same⟩ := Option.ite_none_right_eq_some.mp made
          cases same
          rfl
  | line conn now =>
      obtain ⟨peer, -, called⟩ := Option.bind_eq_some_iff.mp made
      obtain ⟨line, -, rfl⟩ := Option.map_eq_some_iff.mp called
      rfl
  | finish conn =>
      obtain ⟨peer, -, called⟩ := Option.bind_eq_some_iff.mp made
      obtain ⟨-, same⟩ := Option.ite_none_right_eq_some.mp called
      cases same
      trivial
  | stopAccepting | begin | receive | hangUp | timeOut | resume | disconnect | report | collect
    | stopCollecting => exact nomatch made

/-- Every bucket was last refilled at a time that some step presented. -/
theorem lastRefill_mem (valid : config.Valid) (steps : List (ListenerStep Ip)) {entry : IpEntry}
    (found : (run config serde steps).guard.entries.lookup ip = some entry) :
    entry.bucket.lastRefill ∈ steps.filterMap ListenerStep.time := by
  induction steps using List.reverseRecOn generalizing entry with
  | nil => exact nomatch found
  | append_singleton steps last ih =>
      rw [List.filterMap_append, List.mem_append]
      rw [run_snoc, (called_step last).guard] at found
      cases made : last.call (run config serde steps) with
      | none =>
          rw [made] at found
          exact .inl (ih found)
      | some call =>
          rw [made] at found
          have timed := time_of_call made
          cases step_refilled valid call found with
          | kept earlier known same => exact .inl (same ▸ ih known)
          | tracked now _ _ filled =>
              right
              rw [filled]
              simp only [] at timed
              simp [timed, TokenBucket.full]
          | asked now earlier _ spent =>
              right
              simp only [] at timed
              rw [spent, TokenBucket.tryConsume]
              split <;> simp [timed]

theorem stocked_run (valid : config.Valid) (steps : List (ListenerStep Ip)) :
    Stocked config (run config serde steps).abuse := by
  induction steps using List.reverseRecOn with
  | nil => exact fun ip entry found => nomatch found
  | append_singleton steps last ih =>
      intro ip entry found
      rw [run_snoc, abuse, (called_step last).guard] at found
      cases made : last.call (run config serde steps) with
      | none => exact ih ip entry (by simpa [made] using found)
      | some call => exact ih.step valid call ip entry (by simpa [made] using found)

/-- The frames of a step are those its call of the guard admits. -/
theorem frames_step (step : ListenerStep Ip) :
    (listener.step config serde step).frames.countP (inWindow ip start stop) =
      listener.frames.countP (inWindow ip start stop) +
        (step.call listener).elim 0 (admits config ip start stop listener.abuse) := by
  cases step with
  | line conn now =>
      simp only [Listener.step, line, ListenerStep.call]
      cases listener.peers[conn]? with
      | none => rfl
      | some peer =>
          simp only [Option.bind_some]
          cases peer.metered with
          | none => rfl
          | some line =>
              simp only [Option.map_some, Option.elim_some, admits, abuse]
              by_cases own : peer.ip = ip
              · subst own
                cases (listener.guard.tryConsumeFrame config peer.ip now).1 with
                | true => simp [inWindow, List.countP_append]
                | false => simp
              · split <;> simp [inWindow, own, List.countP_append]
  | accept source now =>
      cases source with
      | none => rfl
      | some other =>
          simp only [Listener.step, ListenerStep.call]
          split
          · simp only [accept, Option.elim_some, admits]
            split <;> rfl
          · rfl
  | finish conn =>
      simp only [Listener.step, finish, ListenerStep.call]
      cases listener.peers[conn]? with
      | none => rfl
      | some peer =>
          simp only [Option.bind_some]
          split <;> rfl
  | report conn =>
      simp only [Listener.step, report]
      split
      · rfl
      · split <;> rfl
  | collect =>
      simp only [Listener.step, collect]
      split <;> rfl
  | stopAccepting | begin | receive | hangUp | timeOut | resume | disconnect | stopCollecting =>
      rfl

theorem tracked_of_serves (valid : config.Valid) {steps : List (ListenerStep Ip)}
    (serves : (run config serde steps).Serves ip) :
    ip ∈ (run config serde steps).guard.entries := by
  have consistent := @consistent_run _ _ config serde valid steps
  obtain ⟨peer, member, own, running⟩ := serves
  refine (consistent.tracked ip).mpr ?_
  rw [consistent.counted ip]
  refine List.count_pos_iff.mpr (List.mem_filterMap.mpr ⟨peer, member, ?_⟩)
  rw [Peer.ticket, if_neg running, own]

/-- **The bucket of a served address accounts for its frames.** -/
theorem counts_run (valid : config.Valid) (ordered : start ≤ stop)
    (earlier steps : List (ListenerStep Ip)) (timely : Timely (earlier ++ steps))
    (served : ∀ front, front <+: steps → (run config serde (earlier ++ front)).Serves ip) :
    ∃ count, (run config serde (earlier ++ steps)).frames.countP (inWindow ip start stop) =
        (run config serde earlier).frames.countP (inWindow ip start stop) + count ∧
      Counts config ip start stop (run config serde (earlier ++ steps)).abuse count := by
  induction steps using List.reverseRecOn with
  | nil =>
      rw [List.append_nil]
      refine ⟨0, rfl, fun entry found => ?_⟩
      exact (@stocked_run _ _ config serde valid earlier ip entry found).accounts valid.rate.le
        valid.burst.le ordered
  | append_singleton steps last ih =>
      rw [← List.append_assoc] at timely ⊢
      have times := timely
      rw [Timely, List.filterMap_append] at times
      obtain ⟨before, -, onward⟩ := List.pairwise_append.mp times
      obtain ⟨count, same, counts⟩ := ih before fun front isPrefix =>
        served front (isPrefix.trans (List.prefix_append _ _))
      have tracked := tracked_of_serves valid (served steps (List.prefix_append _ _))
      have called := @called_step _ _ config serde (run config serde (earlier ++ steps)) last
      rw [run_snoc, frames_step, same, Nat.add_assoc]
      refine ⟨_, rfl, ?_⟩
      rw [abuse, called.guard]
      cases made : last.call (run config serde (earlier ++ steps)) with
      | none => exact counts
      | some call =>
          have fits : OnwardStep ip (run config serde (earlier ++ steps)).abuse call := by
            have timed := time_of_call made
            cases call with
            | accept | drop => trivial
            | consume other now =>
                intro _ entry found
                have last : ListenerStep.time last = some now := timed
                exact onward _ (lastRefill_mem valid _ found) now (by simp [last])
          exact counts.step valid tracked fits

/-- **Rate.** From any state on, as long as an address has a running connection and the tasks
present their times in order: a window lets through at most a burst of frames of the address and
what the rate gives, over all of its connections. -/
theorem frames_limited {maxConnPerIp maxTrackedIps : Nat} {frameRatePerSec frameBurst : Float64}
    {config : AntiAbuseConfig}
    (built : AntiAbuseConfig.new maxConnPerIp maxTrackedIps frameRatePerSec frameBurst = .ok config)
    (serde : SerdeJson) (earlier steps : List (ListenerStep Ip)) (ip : Ip)
    (timely : Timely (earlier ++ steps))
    (served : ∀ front, front <+: steps → (run config serde (earlier ++ front)).Serves ip)
    (start stop : ℚ) (ordered : start ≤ stop) :
    ((run config serde (earlier ++ steps)).frames.countP (inWindow ip start stop) : ℚ) ≤
      (run config serde earlier).frames.countP (inWindow ip start stop) +
        (config.frameBurst + config.frameRatePerSec * (stop - start)) := by
  have valid := AntiAbuseConfig.valid_of_new built
  obtain ⟨count, same, counts⟩ := counts_run valid ordered earlier steps timely served
  have tracked := tracked_of_serves valid (served steps (List.prefix_refl _))
  obtain ⟨entry, found⟩ := Option.isSome_iff_exists.mp (AList.lookup_isSome.mpr tracked)
  have bound := (counts entry found).bound
  rw [same, Nat.cast_add, mul_comm config.frameRatePerSec]
  exact (add_le_add_iff_left _).mpr bound

end Listener

namespace Sample

/-- Two connections of an address, and three lines that arrive at once. -/
def greetings : List (ListenerStep Nat) :=
  [.begin 0, .receive 0 [97, 10, 98, 10] 1, .line 0 1, .begin 1, .receive 1 [97, 10] 1, .line 1 1,
    .line 0 1]

theorem serves_greetings : ∀ front ∈ greetings.inits, (Listener.run ⟨2, 1, 1, 2⟩ deaf
    ([.accept (some 7) 0, .accept (some 7) 0] ++ front)).peers.any
      (fun peer => decide (peer.ip = 7 ∧ peer.phase ≠ .over)) = true := by
  decide +kernel

theorem frames_limited_sample :
    ((Listener.run ⟨2, 1, 1, 2⟩ deaf
      ([.accept (some 7) 0, .accept (some 7) 0] ++ greetings)).frames.countP
        (inWindow 7 1 1) : ℚ) ≤ 0 + (2 + 1 * (1 - 1)) := by
  refine @Listener.frames_limited Nat _ 2 1 (.finite 1) (.finite 2) ⟨2, 1, 1, 2⟩
    (by decide +kernel) deaf [.accept (some 7) 0, .accept (some 7) 0] greetings 7 ?_ ?_ 1 1 le_rfl
  · change ([0, 0, 1, 1, 1] : List ℚ).Pairwise (· ≤ ·)
    decide +kernel
  · intro front isPrefix
    have found := serves_greetings front ((List.mem_inits front greetings).mpr isPrefix)
    obtain ⟨peer, member, serves⟩ := List.any_eq_true.mp found
    exact ⟨peer, member, of_decide_eq_true serves⟩

end Sample

end StratumBridge
