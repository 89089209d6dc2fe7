import StratumBridge.Bridge.Drafts

/-! # The difficulty a miner was told

A share on a job is measured by the difficulty the job carries. In a run in which nothing changes
the difficulty on record between the addition of a job and the message that sends it, that is the
difficulty the miner was told last before the job. A pending change on the new-block path is such a
change: the job is added first.
-/

namespace StratumBridge

open Interaction Announcement

section Model

variable [Platform] {deployment : Deployment} {uid : Nat}

/-- Every share on a job that was sent to the miner is measured by the difficulty the miner was
told last before the job. -/
def MeasuredAsTold (uid : Nat) (log : Record deployment) : Prop :=
  ∀ front sender id params minimal back,
    log = front ++ .did sender (.send uid (.notify id params minimal)) true :: back →
      ∃ value, lastTold uid front = some value ∧
        ∀ thread before reads after diff,
          System.ownCalls accountCall thread log = before ++ reads ++ after →
            DiffReads uid id reads diff → diff = some (difficultyOf deployment value)

/-! ## Every run -/

section Run

variable {events : List (bridge deployment).Event}

/-- A start or a finish keeps the publications in order. -/
theorem Posted.quiet {state : BridgeState} {log : Record deployment} (posted : Posted uid state log)
    {entry : (bridge deployment).Entry} (quiet : ∀ thread op answer, entry ≠ .did thread op answer)
    (postings : ∀ thread posting, postingOf thread (log ++ [entry]) = some posting →
      postingOf thread log = some posting ∨
        (∃ owner, posting = .idle owner) ∧ unsent uid thread log = none) :
    Posted uid state (log ++ [entry]) := by
  have silent : ∀ {κ : Type} {select : (op : BridgeOp) → op.Answer → Option κ},
      @System.callsOf (bridge deployment) κ select [entry] = [] := by
    intro κ select
    cases entry with
    | did thread op answer => exact absurd rfl (quiet thread op answer)
    | _ => rfl
  have own : ∀ {κ : Type} {select : (op : BridgeOp) → op.Answer → Option κ} {thread : Nat},
      @System.ownCalls (bridge deployment) κ select thread [entry] = [] := by
    intro κ select thread
    cases entry with
    | did thread op answer => exact absurd rfl (quiet thread op answer)
    | _ => rfl
  have same : ∀ thread, unsent uid thread (log ++ [entry]) = unsent uid thread log := by
    intro thread
    rw [unsent, System.ownCalls_append, own, List.append_nil]
    rfl
  have board : boardOf uid state (log ++ [entry]) = boardOf uid state log := by
    simp only [boardOf, lastTold_snoc, silent, storedDiff, ringLog_snoc_of_none silent]
    rfl
  refine ⟨posted.genuine, fun thread path posting known owned => ?_, ?_⟩
  · rcases postings thread posting known with earlier | ⟨⟨owner, rfl⟩, none⟩
    · have order := posted.tasks thread path posting earlier owned
      refine ⟨order.primed, (same thread).trans order.named, ?_, fun drafted => ?_⟩
      · rw [board]
        exact order.sound
      · exact (System.holds_snoc_iff own).mpr (order.holds drafted)
    · exact ⟨fun primed => absurd primed Bool.false_ne_true, (same thread).trans none,
        fun _ drafted => absurd drafted (Option.not_mem_none _), fun drafted => absurd rfl drafted⟩
  · intro front sender id params minimal back split
    rcases System.split_snoc split with ⟨-, absurdity⟩ | ⟨body, earlier⟩
    · exact absurd absurdity (quiet _ _ _)
    · obtain ⟨value, last, carried⟩ := posted.sent front sender id params minimal body earlier
      exact ⟨value, last, storedDiff_append carried _⟩

/-- A task that starts has not published. -/
theorem Posted.start {config : (bridge deployment).Config} (request : BridgeRequest)
    (posted : Posted uid config.state config.log)
    (observed : @System.Observed (bridge deployment) (postings deployment.settings)
      (fun request => .idle request.publishes) (fun _ _ => True) config) :
    Posted uid (config.start request).state (config.start request).log := by
  have fresh : postingOf config.count config.log = none :=
    (observed.fresh config.count (Nat.le_refl _)).2
  have quiet : ∀ thread op answer,
      (.started config.count request : (bridge deployment).Entry) ≠ .did thread op answer := nofun
  refine posted.quiet quiet fun thread posting known => ?_
  rw [postingOf, System.ghostOf_snoc, System.ghostStep] at known
  split at known
  · next same =>
      subst same
      rw [postingOf] at fresh
      rw [fresh] at known
      cases known
      refine .inr ⟨⟨_, rfl⟩, ?_⟩
      have nothing : System.ownCalls (draftMove uid) config.count config.log = [] := by
        refine List.eq_nil_iff_forall_not_mem.mpr fun item member => ?_
        obtain ⟨op, answer, inLog, -⟩ := System.mem_ownCalls.mp member
        obtain ⟨front, back, split⟩ := List.append_of_mem inLog
        obtain ⟨ghost, known, -⟩ := observed.calls front config.count op answer back split
        rw [split] at fresh
        exact System.ghostOf_append_ne_none known _ fresh
      rw [unsent, nothing]
      rfl
  · exact .inl known

theorem Posted.finish {state : BridgeState} {log : Record deployment}
    (posted : Posted uid state log) (thread : Nat) (result : BridgeResult) :
    Posted uid state (log ++ [.finished thread result]) := by
  have quiet : ∀ other op answer,
      (.finished thread result : (bridge deployment).Entry) ≠ .did other op answer := nofun
  refine posted.quiet quiet fun other posting known => ?_
  rw [postingOf, System.ghostOf_snoc] at known
  exact .inl known

/-- A job is added under the job-build lock. -/
theorem holds_of_addJob {front back : Record deployment} {thread id : Nat} {job : Job}
    (split : (System.execute events).log = front ++ .did thread (.ring uid (.addJob job)) id :: back) :
    @System.Holds (bridge deployment) (buildTurn uid) thread front := by
  obtain ⟨request, -, may⟩ := mayAdd_of_split split
  exact holds_iff_building.mpr may.building

theorem addedJobs_le_snoc (event : (bridge deployment).Event) :
    (addedJobs uid (System.execute events).log).length ≤
      (addedJobs uid (System.execute (events ++ [event])).log).length := by
  obtain ⟨rest, whole⟩ := System.log_grows events [event]
  rw [← whole, addedJobs, addedJobs, System.callsOf_append, List.length_append]
  exact Nat.le_add_right _ _

/-- **Invariant.** -/
theorem posted_execute (room : (addedJobs uid (System.execute events).log).length < 2 ^ 64)
    (keeps : System.Along (TellsInTime uid) events) :
    Posted uid (System.execute events).state (System.execute events).log := by
  induction events using List.reverseRecOn with
  | nil =>
      refine ⟨fun _ absurdity => (nomatch absurdity), fun _ _ _ absurdity => (nomatch absurdity), ?_⟩
      intro front _ _ _ _ back split
      exact absurd split.symm (List.append_ne_nil_of_right_ne_nil front (List.cons_ne_nil _ back))
  | append_singleton events event ih =>
      obtain ⟨before, keep⟩ := System.along_snoc.mp keeps
      have earlier := Nat.lt_of_le_of_lt (addedJobs_le_snoc event) room
      have posted := ih earlier before
      have observed := postings_execute events
      have refines := ring_refines uid events earlier
      have unique := ((buildLock uid).exclusive events (buildLock_disciplined uid events)).1
      have building := fun thread id job back =>
        @holds_of_addJob _ _ uid (events ++ [event]) (System.execute events).log back thread id job
      rw [System.execute_snoc] at room building ⊢
      have step := System.advance_cases (System.execute events) event
      clear ih keeps before
      revert posted observed refines unique building room earlier keep step
      generalize (System.execute events).advance event = after
      generalize System.execute events = config
      intro room keep earlier posted observed refines unique building step
      cases step with
      | stutter => exact posted
      | start request => exact posted.start request observed
      | finish thread env result running => exact posted.finish thread result
      | call thread env op next answer state running performed =>
          obtain ⟨posting, known, permitted, -⟩ := observed.running thread _ running
          refine posted.call
            ⟨running, performed, known, permitted, keep, refines, fun job adds => ?_, fun job adds => ?_,
              unique⟩
          · subst adds
            rw [addedJobs, System.callsOf_append, List.length_append, System.callsOf_did, addedJob,
              if_pos rfl] at room
            rw [ringLog_length]
            exact room
          · subst adds
            exact building thread answer job [] rfl

/-! ## Measuring a share -/

section Measured

variable (room : (addedJobs uid (System.execute events).log).length < 2 ^ 64)
  (keeps : System.Along (TellsInTime uid) events)
include keeps

/-- A job that is looked up is found. -/
theorem resolved_of_along {front back : Record deployment} {thread id : Nat} {held : Bool}
    (split : (System.execute events).log =
      front ++ .did thread (.ring uid (.resolves id)) held :: back) : held = true := by
  obtain ⟨before, event, rest, rfl, -, calls, env, after, performed⟩ :=
    System.exists_calls_of_did split
  have found := (keeps before event rest rfl).retained thread id (.inl calls)
  cases performed
  exact decide_eq_true found

include room

/-- What is read for a job is what the job carries. -/
theorem slot_of_along {front back : Record deployment} {thread id : Nat} {diff : Option KaspaDiff}
    (split : (System.execute events).log =
      front ++ .did thread (.ring uid (.slotDiff id)) diff :: back) :
    diff = storedDiff uid id (System.execute events).log := by
  have shorter : (addedJobs uid front).length < 2 ^ 64 := by
    rw [split, addedJobs, System.callsOf_append, List.length_append] at room
    exact Nat.lt_of_le_of_lt (Nat.le_add_right _ _) room
  obtain ⟨before, event, rest, rfl, rfl, calls, -⟩ := System.exists_calls_of_did split
  have found := (keeps before event rest rfl).retained thread id (.inr calls)
  have retained := ((ring_refines uid before shorter).jobIds_lookup id).mp found
  have added : id - 1 < (ringLog uid (System.execute before).log).entries.length := by
    have positive := retained.1
    have bound := retained.2.1
    omega
  rw [slotDiff_stored split shorter retained, split, storedDiff_append_of_lt added]

end Measured

end Run

/-- Who has a job in hand has added one. -/
theorem addedJobs_ne_nil {thread : Nat} {log : Record deployment}
    (inHand : unsent uid thread log ≠ none) : addedJobs uid log ≠ [] := by
  obtain ⟨id, has⟩ := Option.ne_none_iff_exists'.mp inHand
  have last := Option.join_eq_some_iff.mp has
  obtain ⟨op, answer, made, moved⟩ := System.mem_ownCalls.mp (List.mem_of_getLast? last)
  unfold draftMove at moved
  split at moved
  · obtain ⟨rfl, -⟩ := Option.ite_none_right_eq_some.mp moved
    apply List.ne_nil_of_mem
    exact System.mem_callsOf.mpr ⟨_, _, _, made, if_pos rfl⟩
  · cases (Option.ite_none_right_eq_some.mp moved).2
  · cases (Option.ite_none_right_eq_some.mp moved).2
  · cases moved

end Model

section Sample

attribute [local instance] Sample.platform

namespace Sample

/-- A miner gets a job, its worker is retargeted, it gets a job for a new block, and solves that. -/
def retargetedTo (next : ℚ) : List (bridge (deployment none)).Event :=
  [.start (.immediateJob 1)] ++ steps none 0 18 { template := .block easyBlock }
    ++ steps none 0 40 { template := .block easyParent }
    ++ [.start (.retarget 0 ['w', Char.ofNat 0, 'r'] next)] ++ steps none 1 10 {}
    ++ [.start (.newBlock 1)] ++ steps none 2 9 { template := .block easyBlock }
    ++ steps none 2 60 { template := .block easyParent }
    ++ [.start (.submit 1 ⟨none, [.string [], .string ['2'], .string ['5']]⟩)] ++ steps none 3 90 {}

/-- A started task is no refresh of connection 1. -/
def noRefresh : (bridge (deployment none)).Entry → Bool
  | .started _ request => decide (request.publishes ≠ some (1, .parent))
  | .finished _ _ => true
  | .did _ _ _ => true

/-- The conditions on connection 1, checked. -/
def tellsNow (config : (bridge (deployment none)).Config) : BridgeOp → Bool
  | .ring conn (.addJob _) =>
      decide ((config.state.rings 1).stratumDiff ≠ none) && config.log.all noRefresh || conn != 1
  | .ring conn .isInitialized => !(config.state.rings 1).initialized ||
      decide ((lastTold 1 config.log).isSome ∧ (config.state.rings 1).stratumDiff =
        (lastTold 1 config.log).map (difficultyOf (deployment none))) || conn != 1
  | .ring conn (.setStratumDiff diff) => (addedJobs 1 config.log).isEmpty ||
      decide ((config.state.rings 1).stratumDiff = some diff) || conn != 1
  | .ring conn (.resolves id) | .ring conn (.slotDiff id) =>
      decide ((config.state.rings 1).jobIds.lookup (id % maxJobs) = some id) || conn != 1
  | .send conn (.setDifficultyCommon _) => conn != 1
  | _ => true

def tellsStep (config : (bridge (deployment none)).Config) :
    (bridge (deployment none)).Event → Bool
  | .start _ => true
  | .step thread _ =>
      match config.running thread with
      | some (.call op _) => tellsNow config op
      | some (.done _) => true
      | none => true

theorem asTold_of_check {config : (bridge (deployment none)).Config}
    (told : (lastTold 1 config.log).isSome ∧ (config.state.rings 1).stratumDiff =
      (lastTold 1 config.log).map (difficultyOf (deployment none))) : AsTold 1 config := by
  obtain ⟨some, same⟩ := told
  obtain ⟨value, last⟩ := Option.isSome_iff_exists.mp some
  rw [last] at same
  exact ⟨value, last, same⟩

theorem tellsInTime_of_check {events : List (bridge (deployment none)).Event}
    (passes : System.checkAlong tellsStep (System.idle _) events = true) :
    System.Along (TellsInTime 1) events := by
  refine System.along_of_check ?_ passes
  intro config event passed
  have now : ∀ {thread op}, System.Calls config event thread op → tellsNow config op = true := by
    rintro thread op ⟨env, next, rfl, running⟩
    simpa only [tellsStep, running] using passed
  refine ⟨?_, ?_, ?_, ?_, ?_, ?_⟩
  · intro thread job calls _
    have := now calls
    simp [tellsNow] at this
    exact this.1
  · rintro thread job calls ⟨request, started, publishes⟩
    have := now calls
    simp [tellsNow] at this
    have := this.2 _ started
    simp [noRefresh, publishes] at this
  · intro thread calls _ found
    have := now calls
    simp [tellsNow, found] at this
    exact asTold_of_check this
  · intro thread diff calls builder path _ _ inHand
    have := now calls
    simp [tellsNow, addedJobs_ne_nil inHand] at this
    exact this
  · intro thread env value next stepped running
    have := now ⟨env, next, stepped, running⟩
    simp [tellsNow] at this
  · rintro thread id (calls | calls)
    · simpa [tellsNow] using now calls
    · simpa [tellsNow] using now calls

/-- The message that sends job 2 to connection 1, delivered. -/
def sendsSecond : (bridge (deployment none)).Entry → Bool
  | .did _ (.send conn (.notify id _ _)) delivered => decide (conn = 1 ∧ id = 2) && delivered
  | _ => false

theorem split_of_sendsSecond {log : Record (deployment none)} (sends : log.any sendsSecond = true) :
    ∃ sender params minimal back,
      log = log.takeWhile (fun entry => !sendsSecond entry) ++
        .did sender (.send 1 (.notify 2 params minimal)) true :: back := by
  cases left : log.dropWhile (fun entry => !sendsSecond entry) with
  | nil =>
      obtain ⟨entry, member, holds⟩ := List.any_eq_true.mp sends
      have silent := List.dropWhile_eq_nil_iff.mp left entry member
      rw [holds] at silent
      cases silent
  | cons entry back =>
      have first := List.head?_dropWhile_not (fun entry => !sendsSecond entry) log
      simp only [left, List.head?_cons, Bool.not_eq_false'] at first
      have whole : log.takeWhile (fun entry => !sendsSecond entry) ++
          log.dropWhile (fun entry => !sendsSecond entry) = log :=
        List.takeWhile_append_dropWhile
      rw [left] at whole
      unfold sendsSecond at first
      split at first
      · obtain ⟨named, rfl⟩ := (Bool.and_eq_true _ _).mp first
        obtain ⟨rfl, rfl⟩ := of_decide_eq_true named
        exact ⟨_, _, _, back, whole.symm⟩
      · cases first

/-- The reads that measure a share on job 2 of connection 1 by the difficulty stored with it. -/
def measuresSecond (diff : KaspaDiff) : List AccountCall → Bool
  | .resolved uid id true :: .slot other found (some stored) :: _ =>
      decide (uid = 1 ∧ id = 2 ∧ other = 1 ∧ found = 2 ∧ stored = diff)
  | _ => false

theorem diffReads_of_measuresSecond {diff : KaspaDiff} {calls : List AccountCall}
    (measures : measuresSecond diff calls = true) :
    ∃ reads after, calls = reads ++ after ∧ DiffReads 1 2 reads (some diff) := by
  unfold measuresSecond at measures
  split at measures
  · obtain ⟨rfl, rfl, rfl, rfl, rfl⟩ := of_decide_eq_true measures
    exact ⟨_, _, rfl, .stored _⟩
  · cases measures

/-- Job 2 is added under the difficulty before the change and sent after the miner was told the new
one: the share on it is measured by the old one. -/
theorem told_after_added :
    (addedJobs 1 (System.execute (retargetedTo 128)).log).length < 2 ^ 64 ∧
      ¬MeasuredAsTold 1 (System.execute (retargetedTo 128)).log := by
  refine ⟨by decide +kernel, fun measured => ?_⟩
  obtain ⟨sender, params, minimal, back, split⟩ :=
    split_of_sendsSecond (by decide +kernel :
      (System.execute (retargetedTo 128)).log.any sendsSecond = true)
  obtain ⟨value, last, same⟩ := measured _ sender 2 params minimal back split
  have told : lastTold 1 ((System.execute (retargetedTo 128)).log.takeWhile
      fun entry => !sendsSecond entry) = some 128 := by decide +kernel
  cases told.symm.trans last
  obtain ⟨reads, after, found, measures⟩ := diffReads_of_measuresSecond (by decide +kernel :
    measuresSecond (difficultyOf (deployment none) 64)
      ((System.ownCalls accountCall 3 (System.execute (retargetedTo 128)).log).drop 23) = true)
  have split : System.ownCalls accountCall 3 (System.execute (retargetedTo 128)).log =
      (System.ownCalls accountCall 3 (System.execute (retargetedTo 128)).log).take 23 ++ reads ++
        after := by
    rw [List.append_assoc, ← found, List.take_append_drop]
  have old := congrArg (Option.map KaspaDiff.diffValue) (same 3 _ reads after _ split measures)
  exact absurd old (by decide +kernel)

end Sample

end Sample

end StratumBridge
