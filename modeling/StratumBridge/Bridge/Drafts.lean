import StratumBridge.Bridge.Accounting
import StratumBridge.Bridge.DifficultyProtocol
import StratumBridge.Bridge.LaneOrder

/-! # Jobs that are added and not sent

Between adding a job and sending it a publication counts on three things: the difficulty kept with
the job, the difficulty on record, and the difficulty the miner was told last. Nobody else tells the
miner a difficulty in between but a subscription, because the publication holds the job-build lock.
-/

namespace StratumBridge

open Interaction Announcement

variable [Platform] {deployment : Deployment}

/-! ## What the log says -/

/-- The difficulties that reach a miner. -/
def toldTo (uid : Nat) : (op : BridgeOp) → op.Answer → Option ℚ
  | .send other (.setDifficulty value), delivered
  | .send other (.setDifficultyCommon value), delivered =>
      if other = uid ∧ delivered = true then some value else none
  | _, _ => none

/-- The difficulty a miner was told last. -/
def lastTold (uid : Nat) (log : Record deployment) : Option ℚ :=
  (System.callsOf (toldTo uid) log).getLast?

/-- How an operation changes which job of a connection a task has added and not sent. -/
def draftMove (uid : Nat) : (op : BridgeOp) → op.Answer → Option (Option Nat)
  | .ring other (.addJob _), id => if other = uid then some (some id) else none
  | .send other (.notify _ _ _), _ => if other = uid then some none else none
  | .context other .unlockJobBuild, _ => if other = uid then some none else none
  | _, _ => none

/-- The job a task has added to the ring of a connection and not sent. -/
def unsent (uid thread : Nat) (log : Record deployment) : Option Nat :=
  (System.ownCalls (draftMove uid) thread log).getLast?.join

/-- The task publishes on the connection. -/
def PublishesOn (log : Record deployment) (thread uid : Nat) (path : PublicationPath) : Prop :=
  ∃ request, .started thread request ∈ log ∧ request.publishes = some (uid, path)

/-- How far a task is with its publication. -/
def postingOf (thread : Nat) (log : Record deployment) : Option Posting :=
  @System.ghostOf (bridge deployment) (postings deployment.settings)
    (fun request => .idle request.publishes) thread log

/-- The difficulty of a value, as the bridge computes it. -/
def difficultyOf (deployment : Deployment) (value : ℚ) : KaspaDiff :=
  .ofDiffValue deployment.settings.targetCalculation value

/-- The difficulty on record, the one told last, and the ones the jobs carry. -/
def boardOf (uid : Nat) (state : BridgeState) (log : Record deployment) : Board KaspaDiff where
  current := (state.rings uid).stratumDiff
  told := (lastTold uid log).map (difficultyOf deployment)
  carried := fun id => storedDiff uid id log

/-- The difficulty on record is the one the miner was told last. -/
def AsTold (uid : Nat) (config : (bridge deployment).Config) : Prop :=
  ∃ value, lastTold uid config.log = some value ∧
    (config.state.rings uid).stratumDiff = some (difficultyOf deployment value)

/-- **Conditions on a step.** Nothing changes the difficulty on record between the addition of a job
and the message that sends it, the paths that do not tell it find it told, and shares are measured
while their job is retained. -/
structure TellsInTime (uid : Nat) (config : (bridge deployment).Config)
    (event : (bridge deployment).Event) : Prop where
  /-- A new-block publication adds its job while some difficulty is on record. -/
  recorded : ∀ thread job, System.Calls config event thread (.ring uid (.addJob job)) →
    PublishesOn config.log thread uid .newBlock → (config.state.rings uid).stratumDiff ≠ none
  /-- A refresh adds its job while the difficulty on record is the one told last. -/
  refreshed : ∀ thread job, System.Calls config event thread (.ring uid (.addJob job)) →
    PublishesOn config.log thread uid .parent → AsTold uid config
  /-- So it is when a new-block publication finds the connection initialized. -/
  initialized : ∀ thread, System.Calls config event thread (.ring uid .isInitialized) →
    PublishesOn config.log thread uid .newBlock → (config.state.rings uid).initialized = true →
      AsTold uid config
  /-- While a task is to send a job it added, other than a refresh, no other difficulty is stored. -/
  stored : ∀ thread diff, System.Calls config event thread (.ring uid (.setStratumDiff diff)) →
    ∀ builder path, PublishesOn config.log builder uid path → path ≠ .parent →
      unsent uid builder config.log ≠ none → (config.state.rings uid).stratumDiff = some diff
  /-- While a task is to send a job it added, a subscription tells the difficulty of that job. -/
  common : ∀ thread env value next, event = .step thread env →
    config.running thread = some (.call (.send uid (.setDifficultyCommon value)) next) →
      env.delivered = true → (config.state.contexts uid).disconnecting = false →
        ∀ builder id, unsent uid builder config.log = some id →
          (config.state.rings uid).getJobDiff id = some (difficultyOf deployment value)
  /-- The difficulty of a job is looked up while the job is retained. -/
  retained : ∀ thread id, System.Calls config event thread (.ring uid (.resolves id)) ∨
      System.Calls config event thread (.ring uid (.slotDiff id)) →
    (config.state.rings uid).jobIds.lookup (id % maxJobs) = some id

/-! ## The log grows -/

theorem lastTold_snoc (uid : Nat) (log : Record deployment) (entry : (bridge deployment).Entry) :
    lastTold uid (log ++ [entry]) =
      (System.callsOf (toldTo uid) [entry]).getLast?.or (lastTold uid log) := by
  rw [lastTold, System.callsOf_append, List.getLast?_append]
  rfl

/-- What the miner was told is one of the two messages, delivered. -/
theorem toldTo_eq_some {uid : Nat} {op : BridgeOp} {answer : op.Answer} {value : ℚ}
    (told : toldTo uid op answer = some value) :
    op = .send uid (.setDifficulty value) ∨ op = .send uid (.setDifficultyCommon value) := by
  unfold toldTo at told
  split at told
  · obtain ⟨⟨rfl, -⟩, same⟩ := Option.ite_none_right_eq_some.mp told
    cases same
    exact .inl rfl
  · obtain ⟨⟨rfl, -⟩, same⟩ := Option.ite_none_right_eq_some.mp told
    cases same
    exact .inr rfl
  · cases told

namespace MiningState

theorem logOf_prefix (calls more : List Call) :
    (logOf calls).entries <+: (logOf (calls ++ more)).entries := by
  induction more using List.reverseRecOn with
  | nil => rw [List.append_nil]
  | append_singleton more call ih =>
      rw [← List.append_assoc, logOf_snoc]
      apply ih.trans
      cases call with
      | addJob job => exact List.prefix_append _ _
      | setStratumDiff diff => exact List.prefix_refl _

end MiningState

/-- What a job carries is settled when it is added. -/
theorem storedDiff_append_of_lt {uid id : Nat} {log : Record deployment}
    (added : id - 1 < (ringLog uid log).entries.length) (more : Record deployment) :
    storedDiff uid id (log ++ more) = storedDiff uid id log := by
  have longer : (ringLog uid log).entries <+: (ringLog uid (log ++ more)).entries := by
    rw [ringLog, ringLog, System.callsOf_append]
    exact MiningState.logOf_prefix _ _
  obtain ⟨rest, same⟩ := longer
  rw [storedDiff, ← same, List.getElem?_append_left added]
  rfl

/-- A job keeps the difficulty it carries. -/
theorem storedDiff_append {uid id : Nat} {log : Record deployment} {diff : KaspaDiff}
    (carried : storedDiff uid id log = some diff) (more : Record deployment) :
    storedDiff uid id (log ++ more) = some diff := by
  obtain ⟨entry, found, -⟩ := Option.bind_eq_some_iff.mp carried
  rw [storedDiff_append_of_lt (List.getElem?_eq_some_iff.mp found).1 more, carried]

/-- A new job carries the difficulty on record. -/
theorem storedDiff_addJob {uid thread id : Nat} {job : Job} {log : Record deployment}
    {state : MiningState} (refines : state.Refines (ringLog uid log))
    (room : (ringLog uid log).entries.length + 1 < 2 ^ 64) (drawn : id = (state.addJob job).1) :
    storedDiff uid id (log ++ [.did thread (.ring uid (.addJob job)) id]) = state.stratumDiff := by
  have extended : ringLog uid (log ++ [.did thread (.ring uid (.addJob job)) id]) =
      (ringLog uid log).append (.addJob job) := by
    rw [ringLog, System.callsOf_append, System.callsOf_did, ringCall, if_pos rfl,
      Option.toList_some, MiningState.logOf_snoc]
    rfl
  have last : id - 1 = (ringLog uid log).entries.length := by
    rw [drawn, refines.addJob_answer job room, Nat.add_sub_cancel]
  rw [storedDiff, extended, last, MiningState.Log.append, List.getElem?_concat_length,
    refines.current]
  rfl

section Call

variable {state after : BridgeState} {env : Env} {op : BridgeOp} {answer : op.Answer}
  (performed : performOp state env op = some (answer, after)) (uid : Nat)
include performed

/-- The difficulty on record changes when one is stored. -/
theorem stratumDiff_call :
    (after.rings uid).stratumDiff = (state.rings uid).stratumDiff ∨
      ∃ diff, op = .ring uid (.setStratumDiff diff) ∧ (after.rings uid).stratumDiff = some diff := by
  have moved := congrFun (performOp_rings performed) uid
  cases op with
  | ring other op =>
      by_cases same : uid = other
      · subst same
        simp only [BridgeOp.ringsAfter, Function.update_self] at moved
        cases op with
        | setStratumDiff diff => exact .inr ⟨diff, rfl, by rw [moved]; rfl⟩
        | _ => exact .inl (by rw [moved]; rfl)
      · simp only [BridgeOp.ringsAfter, Function.update_of_ne same] at moved
        exact .inl (by rw [moved])
  | _ => exact .inl (by rw [moved]; rfl)

theorem stratumDiff_ne_none (some : (state.rings uid).stratumDiff ≠ none) :
    (after.rings uid).stratumDiff ≠ none := by
  rcases stratumDiff_call performed uid with same | ⟨diff, -, stored⟩
  · rw [same]
    exact some
  · rw [stored]
    exact Option.some_ne_none _

end Call

/-- The job-build lock is kept until it is given back. -/
theorem holds_call {uid thread : Nat} {log : Record deployment} {op : BridgeOp}
    {answer : op.Answer} (locked : op ≠ .context uid .unlockJobBuild)
    (holds : @System.Holds (bridge deployment) (buildTurn uid) thread log) :
    @System.Holds (bridge deployment) (buildTurn uid) thread (log ++ [.did thread op answer]) := by
  cases chosen : buildTurn uid op answer with
  | none =>
      apply (System.holds_snoc_iff ?_).mpr holds
      rw [System.ownCalls_did, chosen, Option.toList_none]
  | some turn =>
      apply (System.holds_snoc_did chosen).mpr
      cases turn with
      | true => rfl
      | false =>
          unfold buildTurn at chosen
          split at chosen
          · cases (Option.ite_none_right_eq_some.mp chosen).2
          · cases (Option.ite_none_right_eq_some.mp chosen).2
          · obtain ⟨rfl, -⟩ := Option.ite_none_right_eq_some.mp chosen
            exact absurd rfl locked
          · cases chosen

/-! ## The invariant -/

/-- A task whose publication is in order: the difficulty it stored is not lost, and the job it has
not sent carries what it counts on. -/
structure InOrder (uid thread : Nat) (path : PublicationPath) (posting : Posting)
    (state : BridgeState) (log : Record deployment) : Prop where
  primed : posting.primed = true → (state.rings uid).stratumDiff ≠ none
  named : unsent uid thread log = posting.draft.map Draft.label
  sound : ∀ draft ∈ posting.draft, draft.Sound (path ≠ .parent) (boardOf uid state log)
  holds : posting.draft ≠ none → @System.Holds (bridge deployment) (buildTurn uid) thread log

/-- All publications on a connection are in order, and every job that was sent carries the
difficulty told last before it. -/
structure Posted (uid : Nat) (state : BridgeState) (log : Record deployment) : Prop where
  genuine : ∀ diff, (state.rings uid).stratumDiff = some diff →
    diff = difficultyOf deployment diff.diffValue
  tasks : ∀ thread path posting, postingOf thread log = some posting →
    posting.owner = some (uid, path) → InOrder uid thread path posting state log
  sent : ∀ front thread id params minimal back,
    log = front ++ .did thread (.send uid (.notify id params minimal)) true :: back →
      ∃ value, lastTold uid front = some value ∧
        storedDiff uid id log = some (difficultyOf deployment value)

/-- A task publishes where it was started to. -/
theorem publishesOn_of_owner {log : Record deployment} {thread uid : Nat} {path : PublicationPath}
    {posting : Posting} (known : postingOf thread log = some posting)
    (own : posting.owner = some (uid, path)) : PublishesOn log thread uid path := by
  induction log using List.reverseRecOn generalizing posting with
  | nil => cases known
  | append_singleton log entry ih =>
      have earlier : ∀ {before : Posting}, postingOf thread log = some before →
          before.owner = some (uid, path) → PublishesOn (log ++ [entry]) thread uid path := by
        intro before was owned
        obtain ⟨request, member, publishes⟩ := ih was owned
        exact ⟨request, List.mem_append_left _ member, publishes⟩
      rw [postingOf, System.ghostOf_snoc] at known
      cases entry with
      | finished other result => exact earlier known own
      | did other op answer =>
          simp only [System.ghostStep] at known
          split at known
          · obtain ⟨before, was, rfl⟩ := Option.map_eq_some_iff.mp known
            exact earlier was ((Posting.next_owner before op answer).symm.trans own)
          · exact earlier known own
      | started other request =>
          simp only [System.ghostStep] at known
          split at known
          · next same =>
              subst same
              cases was : postingOf other log with
              | some before =>
                  rw [postingOf] at was
                  rw [was] at known
                  cases known
                  exact earlier was own
              | none =>
                  rw [postingOf] at was
                  rw [was] at known
                  cases known
                  exact ⟨request, List.mem_append_right _ List.mem_cons_self, own⟩
          · exact earlier known own

/-- A job whose draft has seen the difficulty of a value carries it. -/
theorem Posted.carried_of_seen {uid : Nat} {state : BridgeState} {log : Record deployment}
    (posted : Posted uid state log) {draft : Draft KaspaDiff} {follows : Prop}
    (sound : draft.Sound follows (boardOf uid state log)) (following : follows)
    {seen : Option KaspaDiff} (shown : draft.seen = some seen) {value : ℚ}
    (same : ∀ diff ∈ seen, diff.diffValue = value) :
    storedDiff uid draft.label log = some (difficultyOf deployment value) := by
  obtain ⟨carried, some⟩ := sound.seen_eq following shown
  obtain ⟨setting, rfl⟩ := Option.ne_none_iff_exists'.mp some
  have current := (sound.current_eq following).trans carried.symm
  have genuine := posted.genuine setting current
  rw [same setting rfl] at genuine
  rw [← genuine]
  exact carried.symm

/-- A call of a running task, in a run that meets the conditions. -/
structure PostingStep (uid : Nat) (config : (bridge deployment).Config) (thread : Nat) (env : Env)
    (op : BridgeOp) (next : op.Answer → Task BridgeResult) (answer : op.Answer)
    (after : BridgeState) (posting : Posting) : Prop where
  running : config.running thread = some (.call op next)
  performed : performOp config.state env op = some (answer, after)
  known : postingOf thread config.log = some posting
  permitted : PostingPermits deployment.settings posting op
  keeps : TellsInTime uid config (.step thread env)
  refines : (config.state.rings uid).Refines (ringLog uid config.log)
  room : ∀ job, op = .ring uid (.addJob job) →
    (ringLog uid config.log).entries.length + 1 < 2 ^ 64
  building : ∀ job, op = .ring uid (.addJob job) →
    @System.Holds (bridge deployment) (buildTurn uid) thread config.log
  unique : ∀ first second, @System.Holds (bridge deployment) (buildTurn uid) first config.log →
    @System.Holds (bridge deployment) (buildTurn uid) second config.log → first = second

section Step

variable {config : (bridge deployment).Config} {uid thread : Nat} {env : Env} {op : BridgeOp}
  {next : op.Answer → Task BridgeResult} {answer : op.Answer} {after : BridgeState}
  {posting : Posting} (posted : Posted uid config.state config.log)

theorem PostingStep.calls (step : PostingStep uid config thread env op next answer after posting) :
    System.Calls config (.step thread env) thread op := ⟨env, next, rfl, step.running⟩

section Frame

variable (step : PostingStep uid config thread env op next answer after posting)
include posted step

/-- **Frame.** A job that is not sent yet still carries what its task counts on. -/
theorem sound_call {builder : Nat} {path : PublicationPath} {built : Posting}
    {draft : Draft KaspaDiff} (was : postingOf builder config.log = some built)
    (own : built.owner = some (uid, path)) (held : built.draft = some draft) :
    draft.Sound (path ≠ .parent)
      (boardOf uid after (config.log ++ [.did thread op answer])) := by
  have order := posted.tasks builder path built was own
  have sound := order.sound draft held
  have named : unsent uid builder config.log = some draft.label := by
    rw [order.named, held]
    rfl
  apply sound.keep
  · intro setting carried
    exact storedDiff_append carried _
  · intro follows
    rcases stratumDiff_call step.performed uid with same | ⟨diff, rfl, stored⟩
    · exact same
    · have current := step.keeps.stored thread diff step.calls builder path (publishesOn_of_owner was own)
        follows (by rw [named]; exact Option.some_ne_none _)
      exact stored.trans current.symm
  · simp only [boardOf, lastTold_snoc, System.callsOf_did]
    cases told : toldTo uid op answer with
    | none => exact .inl rfl
    | some value =>
        right
        change some (difficultyOf deployment value) = _
        symm
        apply storedDiff_append
        rcases toldTo_eq_some told with rfl | rfl
        · -- Only the holder of the job-build lock tells a difficulty, so it is this task.
          obtain ⟨other, mine, seen, owns, following, drafted, shown, same⟩ := step.permitted
          have holds := (posted.tasks thread other posting step.known owns).holds
            (by rw [drafted]; exact Option.some_ne_none _)
          obtain rfl := step.unique _ _ holds
            (order.holds (by rw [held]; exact Option.some_ne_none _))
          obtain rfl := Option.some.inj (step.known.symm.trans was)
          obtain rfl := Option.some.inj (drafted.symm.trans held)
          cases owns.symm.trans own
          exact posted.carried_of_seen sound following shown same
        · have delivered : env.delivered = true ∧
              (config.state.contexts uid).disconnecting = false := by
            obtain ⟨⟨-, reached⟩, -⟩ := Option.ite_none_right_eq_some.mp told
            cases step.performed
            simpa using reached
          have agreed := step.keeps.common thread env value next rfl step.running delivered.1
            delivered.2 builder _ named
          rw [step.refines.getJobDiff] at agreed
          exact (Option.ite_none_right_eq_some.mp agreed).2

/-- The publications of other tasks stay in order. -/
theorem inOrder_other {builder : Nat} {path : PublicationPath} {built : Posting}
    (different : builder ≠ thread) (was : postingOf builder config.log = some built)
    (own : built.owner = some (uid, path)) :
    InOrder uid builder path built after (config.log ++ [.did thread op answer]) := by
  have order := posted.tasks builder path built was own
  refine ⟨fun primed => ?_, ?_, fun draft held => ?_, fun drafted => ?_⟩
  · exact stratumDiff_ne_none step.performed uid (order.primed primed)
  · rw [unsent, System.ownCalls_append, System.ownCalls_did_other (Ne.symm different),
      List.append_nil]
    exact order.named
  · exact sound_call posted step was own held
  · exact (System.holds_snoc_iff (System.ownCalls_did_other (Ne.symm different) op answer)).mpr
      (order.holds drafted)

end Frame

/-- A call that neither adds nor sends a job leaves the publication of its task in order. -/
theorem PostingStep.inOrder_still {path : PublicationPath} {moved : Posting}
    (step : PostingStep uid config thread env op next answer after posting)
    (order : InOrder uid thread path posting config.state config.log)
    (stays : draftMove uid op answer = none) (locked : op ≠ .context uid .unlockJobBuild)
    (labels : moved.draft.map Draft.label = posting.draft.map Draft.label)
    (primed : moved.primed = true → posting.primed = true ∨ (after.rings uid).stratumDiff ≠ none)
    (sound : ∀ draft ∈ moved.draft, draft.Sound (path ≠ .parent)
      (boardOf uid after (config.log ++ [.did thread op answer]))) :
    InOrder uid thread path moved after (config.log ++ [.did thread op answer]) := by
  refine ⟨fun isPrimed => ?_, ?_, sound, fun drafted => ?_⟩
  · rcases primed isPrimed with earlier | now
    · exact stratumDiff_ne_none step.performed uid (order.primed earlier)
    · exact now
  · rw [unsent, System.ownCalls_append, System.ownCalls_did, stays, Option.toList_none,
      List.append_nil, labels]
    exact order.named
  · apply holds_call locked
    apply order.holds
    intro none
    rw [none, Option.map_none, Option.map_eq_none_iff] at labels
    exact drafted labels

section Own

variable {path : PublicationPath} (own : posting.owner = some (uid, path))
include posted own

/-- A call that the publication does not notice. -/
theorem inOrder_same (step : PostingStep uid config thread env op next answer after posting)
    (stays : draftMove uid op answer = none) (locked : op ≠ .context uid .unlockJobBuild) :
    InOrder uid thread path posting after (config.log ++ [.did thread op answer]) :=
  step.inOrder_still (posted.tasks thread path posting step.known own) stays locked rfl .inl
    fun _ held => sound_call posted step step.known own held

/-- A publication that sees a difficulty stays in order when it is the one on record. -/
theorem inOrder_see (step : PostingStep uid config thread env op next answer after posting)
    (stays : draftMove uid op answer = none) (locked : op ≠ .context uid .unlockJobBuild)
    {diff : Option KaspaDiff} {primed : Bool} (same : diff = (after.rings uid).stratumDiff)
    (stored : primed = true → posting.primed = true ∨ (after.rings uid).stratumDiff ≠ none) :
    InOrder uid thread path { posting.see diff with primed := primed } after
      (config.log ++ [.did thread op answer]) := by
  refine step.inOrder_still (posted.tasks thread path posting step.known own) stays locked ?_
    stored ?_
  · simp [Posting.see, Function.comp_def]
  · intro draft held
    obtain ⟨before, was, rfl⟩ := Option.map_eq_some_iff.mp held
    exact (sound_call posted step step.known own was).see fun _ => same

/-- A publication that counts on a difficulty as told stays in order when it is the one its job
carries. -/
theorem inOrder_tell (step : PostingStep uid config thread env op next answer after posting)
    (stays : draftMove uid op answer = none) (locked : op ≠ .context uid .unlockJobBuild)
    {announced : Bool} (told : announced = true → ∀ draft ∈ posting.draft,
      (boardOf uid after (config.log ++ [.did thread op answer])).told =
        storedDiff uid draft.label (config.log ++ [.did thread op answer])) :
    InOrder uid thread path (posting.tell announced) after
      (config.log ++ [.did thread op answer]) := by
  refine step.inOrder_still (posted.tasks thread path posting step.known own) stays locked ?_
    .inl ?_
  · simp [Posting.tell, Function.comp_def]
  · intro draft held
    obtain ⟨before, was, rfl⟩ := Option.map_eq_some_iff.mp held
    exact (sound_call posted step step.known own was).tell fun isAnnounced =>
      told isAnnounced before was

/-- The job that is added carries the difficulty on record, and there is one. -/
theorem inOrder_add {conn : Nat} {job : Job} {id : Nat} {next : Nat → Task BridgeResult}
    (step : PostingStep uid config thread env (.ring conn (.addJob job)) next id after posting) :
    InOrder uid thread path (posting.next (.ring conn (.addJob job)) id) after
      (config.log ++ [.did thread (.ring conn (.addJob job)) id]) := by
  have order := posted.tasks thread path posting step.known own
  have publishes := publishesOn_of_owner step.known own
  obtain ⟨_, owns, primed⟩ := step.permitted
  cases owns.symm.trans own
  have same : (after.rings uid).stratumDiff = (config.state.rings uid).stratumDiff := by
    rcases stratumDiff_call step.performed uid with same | ⟨diff, absurdity, -⟩
    · exact same
    · cases absurdity
  have carried : storedDiff uid id (config.log ++ [.did thread (.ring uid (.addJob job)) id]) =
      (config.state.rings uid).stratumDiff := by
    apply storedDiff_addJob step.refines (step.room job rfl)
    cases step.performed
    rfl
  have asTold : path = .parent → AsTold uid config := by
    rintro rfl
    exact step.keeps.refreshed thread job step.calls publishes
  have some : (config.state.rings uid).stratumDiff ≠ none := by
    cases path with
    | immediate => exact order.primed (primed rfl)
    | newBlock => exact step.keeps.recorded thread job step.calls publishes
    | parent =>
        obtain ⟨value, -, current⟩ := asTold rfl
        rw [current]
        exact Option.some_ne_none _
  obtain ⟨setting, current⟩ := Option.ne_none_iff_exists'.mp some
  refine ⟨fun isPrimed => ?_, ?_, fun draft held => ?_, fun _ => ?_⟩
  · rw [same]
    exact some
  · rw [unsent, System.ownCalls_append, System.ownCalls_did, draftMove, if_pos rfl,
      Option.toList_some, List.getLast?_concat]
    rfl
  · obtain rfl := Option.some.inj held
    refine Draft.sound_fresh (carried.trans current) (fun _ => same.trans current) fun told => ?_
    rw [own] at told
    obtain ⟨value, last, recorded⟩ := asTold (of_decide_eq_true told)
    rw [boardOf, lastTold_snoc, ← current, recorded]
    exact congrArg (Option.map (difficultyOf deployment)) last
  · exact holds_call (fun absurdity => nomatch absurdity) (step.building job rfl)

/-- Calls on a ring. -/
theorem inOrder_ring {conn : Nat} {ringOp : RingOp} {next : ringOp.Answer → Task BridgeResult}
    {answer : ringOp.Answer}
    (step : PostingStep uid config thread env (.ring conn ringOp) next answer after posting) :
    InOrder uid thread path (posting.next (.ring conn ringOp) answer) after
      (config.log ++ [.did thread (.ring conn ringOp) answer]) := by
  have locked : BridgeOp.ring conn ringOp ≠ .context uid .unlockJobBuild := nofun
  cases ringOp with
  | addJob job => exact inOrder_add posted own step
  | setStratumDiff diff =>
      obtain ⟨⟨_, owns⟩, -⟩ := step.permitted
      cases owns.symm.trans own
      have moved := congrFun (performOp_rings step.performed) uid
      simp only [BridgeOp.ringsAfter, Function.update_self] at moved
      have stored : (after.rings uid).stratumDiff = some diff := by
        rw [moved]
        rfl
      refine inOrder_see posted own step rfl locked stored.symm fun _ => .inr ?_
      rw [stored]
      exact Option.some_ne_none _
  | stratumDiff =>
      cases step.permitted (uid, path) own
      have moved := congrFun (performOp_rings step.performed) uid
      simp only [BridgeOp.ringsAfter, Function.update_self] at moved
      refine inOrder_see posted own step rfl locked ?_ .inl
      rw [moved]
      cases step.performed
      rfl
  | isInitialized =>
      refine inOrder_tell posted own step rfl locked fun counts draft held => ?_
      obtain ⟨isInitialized, owned⟩ := (Bool.and_eq_true _ _).mp counts
      cases (of_decide_eq_true owned).symm.trans own
      have current := (sound_call posted step step.known own held).current_eq (by decide)
      have found : (config.state.rings uid).initialized = true := by
        rw [← isInitialized]
        cases step.performed
        rfl
      obtain ⟨value, last, recorded⟩ := step.keeps.initialized thread step.calls
        (publishesOn_of_owner step.known own) found
      refine Eq.trans ?_ current
      rcases stratumDiff_call step.performed uid with same | ⟨_, absurdity, -⟩
      · rw [boardOf, lastTold_snoc, same, recorded]
        exact congrArg (Option.map (difficultyOf deployment)) last
      · cases absurdity
  | _ => exact inOrder_same posted own step rfl locked

/-- Sections on a connection. -/
theorem inOrder_context {conn : Nat} {contextOp : ContextOp}
    {next : contextOp.Answer → Task BridgeResult} {answer : contextOp.Answer}
    (step : PostingStep uid config thread env (.context conn contextOp) next answer after posting) :
    InOrder uid thread path (posting.next (.context conn contextOp) answer) after
      (config.log ++ [.did thread (.context conn contextOp) answer]) := by
  cases contextOp with
  | unlockJobBuild =>
      have order := posted.tasks thread path posting step.known own
      cases step.permitted (uid, path) own
      refine ⟨fun primed => ?_, ?_, fun _ absurdity => (nomatch absurdity),
        fun absurdity => absurd rfl absurdity⟩
      · exact stratumDiff_ne_none step.performed uid (order.primed primed)
      · rw [unsent, System.ownCalls_append, System.ownCalls_did, draftMove, if_pos rfl,
          Option.toList_some, List.getLast?_concat]
        rfl
  | _ => exact inOrder_same posted own step rfl (fun absurdity => nomatch absurdity)

/-- Messages to the miner. -/
theorem inOrder_send {conn : Nat} {message : Message} {next : Bool → Task BridgeResult}
    {answer : Bool}
    (step : PostingStep uid config thread env (.send conn message) next answer after posting) :
    InOrder uid thread path (posting.next (.send conn message) answer) after
      (config.log ++ [.did thread (.send conn message) answer]) := by
  have locked : BridgeOp.send conn message ≠ .context uid .unlockJobBuild := nofun
  cases message with
  | setDifficulty value =>
      refine inOrder_tell posted own step rfl locked fun delivered draft held => ?_
      obtain ⟨_, mine, seen, owns, following, drafted, shown, same⟩ := step.permitted
      cases owns.symm.trans own
      obtain rfl := Option.some.inj (drafted.symm.trans held)
      have sound := (posted.tasks thread path posting step.known own).sound mine held
      rw [storedDiff_append (posted.carried_of_seen sound following shown same), boardOf,
        lastTold_snoc, System.callsOf_did, toldTo, if_pos ⟨rfl, delivered⟩]
      rfl
  | notify id params minimal =>
      have order := posted.tasks thread path posting step.known own
      obtain ⟨_, mine, owns, -⟩ := step.permitted
      cases owns.symm.trans own
      refine ⟨fun primed => ?_, ?_, fun _ absurdity => (nomatch absurdity),
        fun absurdity => absurd rfl absurdity⟩
      · exact stratumDiff_ne_none step.performed uid (order.primed primed)
      · rw [unsent, System.ownCalls_append, System.ownCalls_did, draftMove, if_pos rfl,
          Option.toList_some, List.getLast?_concat]
        rfl
  | _ => exact inOrder_same posted own step rfl locked

/-- **Own publication.** -/
theorem inOrder_own (step : PostingStep uid config thread env op next answer after posting) :
    InOrder uid thread path (posting.next op answer) after
      (config.log ++ [.did thread op answer]) := by
  cases op with
  | ring conn ringOp => exact inOrder_ring posted own step
  | context conn contextOp => exact inOrder_context posted own step
  | send conn message => exact inOrder_send posted own step
  | _ => exact inOrder_same posted own step rfl (fun absurdity => nomatch absurdity)

end Own

/-! ## One step -/

theorem postingOf_call {builder : Nat} {log : Record deployment} (known : postingOf thread log = some posting) :
    postingOf builder (log ++ [.did thread op answer]) =
      if builder = thread then some (posting.next op answer) else postingOf builder log := by
  rw [postingOf, System.ghostOf_snoc, System.ghostStep]
  by_cases same : builder = thread
  · subst same
    rw [postingOf] at known
    rw [if_pos rfl, if_pos rfl, known]
    rfl
  · rw [if_neg (Ne.symm same), if_neg same]
    rfl

include posted in
/-- **Step.** A call of a task keeps the publications in order. -/
theorem Posted.call (step : PostingStep uid config thread env op next answer after posting) :
    Posted uid after (config.log ++ [.did thread op answer]) := by
  refine ⟨fun diff current => ?_, fun builder path built known own => ?_, ?_⟩
  · rcases stratumDiff_call step.performed uid with same | ⟨stored, rfl, now⟩
    · exact posted.genuine diff (same ▸ current)
    · cases now.symm.trans current
      exact step.permitted.2
  · rw [postingOf_call step.known] at known
    split at known
    · next same =>
        subst same
        cases known
        exact inOrder_own posted ((posting.next_owner op answer).symm.trans own) step
    · next different => exact inOrder_other posted step different known own
  · intro front sender id params minimal back split
    rcases System.split_snoc split with ⟨rfl, last⟩ | ⟨body, earlier⟩
    · cases last
      obtain ⟨path, draft, owns, drafted, rfl, told⟩ := step.permitted
      have order := posted.tasks thread path posting step.known owns
      obtain ⟨setting, announced, carried⟩ := (order.sound draft drafted).carried_eq_told told
      obtain ⟨value, last, rfl⟩ := Option.map_eq_some_iff.mp announced
      exact ⟨value, last, storedDiff_append carried _⟩
    · obtain ⟨value, last, carried⟩ := posted.sent front sender id params minimal body earlier
      exact ⟨value, last, storedDiff_append carried _⟩

end Step

end StratumBridge
