import StratumBridge.Bridge.LaneTags
import StratumBridge.Bridge.Lanes
import StratumBridge.Bridge.Rings

/-! # Jobs follow their lanes

On one connection the job-build lock is held from the draw of a generation until the job
of its lane is added, and from the last look at the newest job until a refreshed parent of
its lane is added. So lanes are published in the order of their generations, and no
publication brings an older lane back.
-/

namespace StratumBridge

open Interaction

section Model

variable [Platform] {deployment : Deployment}

/-! ## The job-build lock -/

/-- How an operation turns the job-build lock of a connection. -/
def buildTurn (uid : Nat) : (op : BridgeOp) → op.Answer → Option Bool
  | .context other .lockJobBuild, _ => if other = uid then some true else none
  | .context other .tryLockJobBuild, true => if other = uid then some true else none
  | .context other .unlockJobBuild, _ => if other = uid then some false else none
  | _, _ => none

/-- The lock of a connection after a section on it. -/
def ContextOp.lockedAfter : ContextOp → Bool → Bool
  | .lockJobBuild, _ | .tryLockJobBuild, _ => true
  | .unlockJobBuild, _ => false
  | _, locked => locked

theorem performOp_jobBuildLocked {state after : BridgeState} {env : Env} {op : BridgeOp}
    {answer : op.Answer} {uid : Nat} (performed : performOp state env op = some (answer, after)) :
    (after.contexts uid).jobBuildLocked =
      match op with
      | .context other op => if other = uid then op.lockedAfter (state.contexts uid).jobBuildLocked
          else (state.contexts uid).jobBuildLocked
      | _ => (state.contexts uid).jobBuildLocked := by
  refine performOp_field Context.jobBuildLocked ContextOp.lockedAfter ?_ performed
  intro op context next answer acted
  cases op with
  | lockJobBuild =>
      obtain ⟨-, same⟩ := Option.ite_none_left_eq_some.mp acted
      cases same
      rfl
  | ensureDefaultWorkerName =>
      cases acted
      exact apply_ite Context.jobBuildLocked _ _ _ |>.trans (ite_self _)
  | _ =>
      cases acted
      rfl

theorem buildLock (uid : Nat) : @System.Lock (bridge deployment)
    (fun state : BridgeState => (state.contexts uid).jobBuildLocked) (buildTurn uid) where
  taken := by
    intro op state env answer after performed chosen
    change performOp state env op = some (answer, after) at performed
    have moved := @performOp_jobBuildLocked _ _ _ _ _ _ uid performed
    cases op with
    | context other op =>
        have acted := performOp_context_act performed
        cases op with
        | lockJobBuild =>
            obtain ⟨rfl, -⟩ := Option.ite_none_right_eq_some.mp chosen
            obtain ⟨free, -⟩ := Option.ite_none_left_eq_some.mp acted
            exact ⟨Bool.eq_false_of_not_eq_true free, moved.trans (if_pos rfl)⟩
        | tryLockJobBuild =>
            cases answer with
            | false => exact nomatch chosen
            | true =>
                obtain ⟨rfl, -⟩ := Option.ite_none_right_eq_some.mp chosen
                have free := (Prod.ext_iff.mp (Option.some.inj acted)).1
                exact ⟨(Bool.not_eq_true' _).mp free, moved.trans (if_pos rfl)⟩
        | unlockJobBuild => exact nomatch (Option.ite_none_right_eq_some.mp chosen).2
        | _ => exact nomatch chosen
    | _ => exact nomatch chosen
  kept := by
    intro op state env answer after performed chosen
    change performOp state env op = some (answer, after) at performed
    refine (performOp_jobBuildLocked performed).trans ?_
    cases op with
    | context other op =>
        by_cases same : other = uid
        · subst same
          refine (if_pos rfl).trans ?_
          cases op with
          | lockJobBuild | unlockJobBuild =>
              simp only [buildTurn, if_true, reduceCtorEq] at chosen
          | tryLockJobBuild =>
              cases answer with
              | true => simp only [buildTurn, if_true, reduceCtorEq] at chosen
              | false =>
                  -- The lock was busy, and stays so.
                  have busy := (Prod.ext_iff.mp (Option.some.inj (performOp_context_act performed))).1
                  exact ((Bool.not_eq_false' _).mp busy).symm
          | _ => rfl
        · exact if_neg same
    | _ => rfl

/-- A task's turns with the lock are among its recorded calls. -/
theorem ownCalls_buildTurn (uid thread : Nat) (log : Record deployment) :
    System.ownCalls (buildTurn uid) thread log =
      (System.ownCalls publishCall thread log).filterMap (PublishCall.turn uid) := by
  rw [System.ownCalls, System.ownCalls, List.filterMap_filterMap]
  refine congrArg (List.filterMap · log) (funext fun entry => ?_)
  cases entry with
  | did other op answer =>
      by_cases same : other = thread
      · simp only [if_pos same]
        cases op with
        | context session op =>
            cases op with
            | tryLockJobBuild => cases (answer : Bool) <;> rfl
            | _ => rfl
        | ring session op =>
            cases op with
            | getJob id => cases (answer : Option Job) <;> rfl
            | _ => rfl
        | zkasTemplate recipient tag => cases (answer : TemplateReply) <;> rfl
        | _ => rfl
      · simp only [if_neg same, Option.bind_none]
  | _ => rfl

theorem holds_iff_building {uid thread : Nat} {log : Record deployment} :
    @System.Holds (bridge deployment) (buildTurn uid) thread log ↔
      Building uid (System.ownCalls publishCall thread log) := by
  rw [System.Holds, ownCalls_buildTurn, Building]

/-- The lock of a connection is released by its holder only. -/
theorem buildLock_disciplined (uid : Nat) (events : List (bridge deployment).Event) :
    @System.Disciplined (bridge deployment) (buildTurn uid) (System.execute events).log := by
  intro front thread op answer back split released
  obtain ⟨request, -, permitted⟩ := (publications_execute events).calls front thread op answer
    back split
  refine holds_iff_building.mpr ?_
  cases op with
  | context other op =>
      cases op with
      | unlockJobBuild =>
          obtain ⟨rfl, -⟩ := Option.ite_none_right_eq_some.mp released
          exact permitted
      | lockJobBuild => exact nomatch (Option.ite_none_right_eq_some.mp released).2
      | tryLockJobBuild =>
          cases (answer : Bool) with
          | false => exact nomatch released
          | true => exact nomatch (Option.ite_none_right_eq_some.mp released).2
      | _ => exact nomatch released
  | _ => exact nomatch released

/-- **One builder.** While a task builds on a connection, no other task does. -/
theorem building_unique {events : List (bridge deployment).Event} {front back : Record deployment}
    {uid thread other : Nat} (split : (System.execute events).log = front ++ back)
    (first : Building uid (System.ownCalls publishCall thread front))
    (second : Building uid (System.ownCalls publishCall other front)) : thread = other :=
  (buildLock uid).holder_unique (buildLock_disciplined uid events) split
    (holds_iff_building.mpr first) (holds_iff_building.mpr second)

/-! ## What happens under the lock -/

theorem building_throughout {uid thread : Nat} {front middle : Record deployment}
    (building : Building uid (System.ownCalls publishCall thread front))
    (silent : (System.ownCalls publishCall thread middle).filterMap (PublishCall.turn uid) = []) :
    Building uid (System.ownCalls publishCall thread (front ++ middle)) := by
  rw [System.ownCalls_append]
  exact building_append building silent

/-- While a task builds, what another builder does it does itself. -/
theorem builder_of_call {events : List (bridge deployment).Event}
    {front before after rest : Record deployment} {uid thread other : Nat} {op : BridgeOp}
    {answer : op.Answer}
    (split : (System.execute events).log =
      front ++ ((before ++ .did other op answer :: after) ++ rest))
    (building : Building uid (System.ownCalls publishCall thread front))
    (silent : (System.ownCalls publishCall thread
      (before ++ .did other op answer :: after)).filterMap (PublishCall.turn uid) = [])
    (built : Building uid (System.ownCalls publishCall other (front ++ before))) :
    other = thread := by
  rw [System.ownCalls_append, List.filterMap_append] at silent
  have still := building_throughout building (List.append_eq_nil_iff.mp silent).1
  rw [List.append_assoc, ← List.append_assoc] at split
  exact building_unique split built still

/-- A job is added only while its task builds. -/
theorem MayAdd.building {log : Record deployment} {request : BridgeRequest}
    {calls : List PublishCall} {uid : Nat} {job : Job} (may : MayAdd log request calls uid job) :
    Building uid calls := by
  cases may with
  | full generation fcBlock serves before commits =>
      rw [before]
      exact building_cons uid [.drew uid generation, .issued fcBlock] rfl
  | refresh pre ids id latest hFc serves before newest current commits =>
      rw [before, Building, List.filterMap_append]
      have turns : [PublishCall.locked uid, .stored uid ids, .found uid id latest].filterMap
          (PublishCall.turn uid) = [true] := List.filterMap_cons_some (if_pos rfl)
      rw [turns, List.getLast?_concat]

/-- What permitted a recorded addition. -/
theorem mayAdd_of_split {events : List (bridge deployment).Event} {front back : Record deployment}
    {thread uid id : Nat} {job : Job}
    (split : (System.execute events).log =
      front ++ .did thread (.ring uid (.addJob job)) id :: back) :
    ∃ request, .started thread request ∈ front ∧ MayAdd (System.execute events).log request
      (System.ownCalls publishCall thread front) uid job :=
  (publications_execute events).calls front thread (.ring uid (.addJob job)) id back split

theorem drew_after_locked {events : List (bridge deployment).Event}
    {front back : Record deployment} {thread uid generation : Nat}
    (split : (System.execute events).log =
      front ++ .did thread (.context uid .nextTemplateGeneration) generation :: back) :
    System.ownCalls publishCall thread front = [.locked uid] := by
  obtain ⟨request, -, permitted⟩ := (publications_execute events).calls front thread
    (.context uid .nextTemplateGeneration) generation back split
  exact permitted

section UnderLock

variable {events : List (bridge deployment).Event} {front middle rest : Record deployment}
  {uid thread : Nat} (split : (System.execute events).log = front ++ (middle ++ rest))
  (building : Building uid (System.ownCalls publishCall thread front))
  (silent : (System.ownCalls publishCall thread middle).filterMap (PublishCall.turn uid) = [])
include split building silent

/-- A builder that draws nothing sees nothing drawn. -/
theorem no_draws_while_building
    (idle : ∀ generation, .drew uid generation ∉ System.ownCalls publishCall thread middle) :
    System.callsOf (generationDraw uid) middle = [] := by
  refine List.eq_nil_iff_forall_not_mem.mpr fun generation member => ?_
  obtain ⟨other, op, answer, inMiddle, chosen⟩ := System.mem_callsOf.mp member
  obtain rfl := generationDraw_eq_some chosen
  obtain ⟨before, after, rfl⟩ := List.append_of_mem inMiddle
  have calls := drew_after_locked (by
    rw [split, List.append_assoc, List.cons_append, ← List.append_assoc])
  have built : Building uid (System.ownCalls publishCall other (front ++ before)) := by
    rw [calls]
    exact building_cons uid [] rfl
  obtain rfl := builder_of_call split building silent built
  exact idle answer (System.mem_ownCalls.mpr ⟨_, _, inMiddle, rfl⟩)

/-- A builder that adds nothing sees nothing added. -/
theorem no_adds_while_building
    (idle : .added uid ∉ System.ownCalls publishCall thread middle) :
    addedJobs uid middle = [] := by
  refine List.eq_nil_iff_forall_not_mem.mpr fun job member => ?_
  obtain ⟨other, op, answer, inMiddle, chosen⟩ := System.mem_callsOf.mp member
  obtain rfl := addedJob_eq_some chosen
  obtain ⟨before, after, rfl⟩ := List.append_of_mem inMiddle
  obtain ⟨request, -, may⟩ := mayAdd_of_split (by
    rw [split, List.append_assoc, List.cons_append, ← List.append_assoc])
  obtain rfl := builder_of_call split building silent may.building
  exact idle (System.mem_ownCalls.mpr ⟨_, _, inMiddle, rfl⟩)

end UnderLock

/-! ## Generations -/

/-- The generation counter of a connection does not wrap in this run. -/
def GenerationsFit (uid : Nat) (log : Record deployment) : Prop :=
  (deployment.contexts uid).templateGeneration +
    (System.callsOf (generationDraw uid) log).length < 2 ^ 64

theorem GenerationsFit.of_append {uid : Nat} {front back : Record deployment}
    (fit : GenerationsFit uid (front ++ back)) : GenerationsFit uid front := by
  rw [GenerationsFit, System.callsOf_append, List.length_append] at fit
  rw [GenerationsFit]
  omega

/-- A generation counts the draws before it. -/
theorem generation_eq {events : List (bridge deployment).Event} {front back : Record deployment}
    {thread uid generation : Nat}
    (split : (System.execute events).log =
      front ++ .did thread (.context uid .nextTemplateGeneration) generation :: back)
    (fit : GenerationsFit uid (System.execute events).log) :
    generation = (deployment.contexts uid).templateGeneration + 1 +
      (System.callsOf (generationDraw uid) front).length := by
  have drawn := (generationCounter uid).drawn_eq events split (if_pos rfl)
  have more : (System.callsOf (generationDraw uid) (System.execute events).log).length =
      (System.callsOf (generationDraw uid) front).length + 1 +
        (System.callsOf (generationDraw uid) back).length := by
    have one : @System.callsOf (bridge deployment) _ (generationDraw uid)
        [.did thread (.context uid .nextTemplateGeneration) generation] = [generation] := by
      rw [System.callsOf_did, generationDraw, if_pos rfl, Option.toList_some]
    rw [split, ← List.singleton_append, System.callsOf_append, System.callsOf_append, one,
      List.length_append, List.length_append, List.length_singleton, Nat.add_assoc]
  rw [GenerationsFit, more] at fit
  rw [System.iterate_succ_mod (show nextGeneration uid _ < 2 ^ 64 from
    Nat.mod_lt _ (by decide))] at drawn
  have start : nextGeneration uid (bridge deployment).initial =
      (deployment.contexts uid).templateGeneration + 1 :=
    Nat.mod_eq_of_lt (show (deployment.contexts uid).templateGeneration + 1 < 2 ^ 64 by omega)
  rw [start, Nat.mod_eq_of_lt (by omega)] at drawn
  exact drawn

/-- The lane was issued to the template request of this generation. -/
def LaneGeneration (log : Record deployment) (uid : Nat) (hFc : Hash) (generation : Nat) : Prop :=
  ∃ thread recipient tag fcBlock, RequestedAs log thread uid generation ∧
    .did thread (.zkasTemplate recipient tag) (.block fcBlock) ∈ log ∧ fcBlock.header.hash = hFc

theorem LaneGeneration.mono {front log : Record deployment} {uid generation : Nat} {hFc : Hash}
    (lane : LaneGeneration front uid hFc generation) (shorter : front <+: log) :
    LaneGeneration log uid hFc generation := by
  obtain ⟨thread, recipient, tag, fcBlock, requested, issued, same⟩ := lane
  exact ⟨thread, recipient, tag, fcBlock, shorter.subset requested, shorter.subset issued, same⟩

theorem LaneGeneration.unique {events : List (bridge deployment).Event}
    (fresh : FreshTemplates (System.execute events).log) {uid generation other : Nat} {hFc : Hash}
    (lane : LaneGeneration (System.execute events).log uid hFc generation)
    (again : LaneGeneration (System.execute events).log uid hFc other) : generation = other := by
  obtain ⟨thread, recipient, tag, fcBlock, requested, issued, same⟩ := lane
  obtain ⟨otherThread, otherRecipient, otherTag, otherBlock, otherRequested, otherIssued,
    otherSame⟩ := again
  have sameEntry := System.entry_eq_of_nodup fresh issued otherIssued (congrArg some same)
    (congrArg some otherSame)
  obtain rfl := (System.Entry.did.inj sameEntry).1
  exact (requested.unique otherRequested).2

/-- No draw before the addition of a full job is newer than its own. -/
theorem newest_of_full {events : List (bridge deployment).Event} {front back : Record deployment}
    {thread uid id generation : Nat} {job : Job} {fcBlock : Block}
    (split : (System.execute events).log =
      front ++ .did thread (.ring uid (.addJob job)) id :: back)
    (fit : GenerationsFit uid (System.execute events).log)
    (calls : System.ownCalls publishCall thread front =
      [.locked uid, .drew uid generation, .issued fcBlock])
    {other later : Nat} (requested : RequestedAs front other uid later) : later ≤ generation := by
  obtain ⟨before, op, answer, after, rfl, locked, chosen, issued⟩ :=
    System.exists_split_of_ownCalls (show System.ownCalls publishCall thread front =
      [.locked uid] ++ .drew uid generation :: [.issued fcBlock] from calls)
  cases publishCall_cases chosen
  have whole : (System.execute events).log =
      before ++ (.did thread (.context uid .nextTemplateGeneration) generation :: after ++
        .did thread (.ring uid (.addJob job)) id :: back) := by
    rw [split, List.append_assoc]
  have own := generation_eq (whole.trans (by rw [List.cons_append])) fit
  have quiet : System.callsOf (generationDraw uid) after = [] := by
    have regrouped : (System.execute events).log =
        (before ++ [.did thread (.context uid .nextTemplateGeneration) generation]) ++
          (after ++ .did thread (.ring uid (.addJob job)) id :: back) := by
      rw [whole, List.append_assoc, List.singleton_append, List.cons_append]
    refine @no_draws_while_building _ _ events _ after _ uid thread regrouped ?_ ?_ ?_
    · rw [System.ownCalls_append, locked, System.ownCalls_did]
      exact building_cons uid [.drew uid generation] rfl
    · rw [issued]
      rfl
    · intro drawn member
      rw [issued] at member
      exact nomatch List.mem_singleton.mp member
  obtain ⟨early, late, place⟩ := List.append_of_mem requested
  have placed : (System.execute events).log =
      early ++ .did other (.context uid .nextTemplateGeneration) later ::
        (late ++ .did thread (.ring uid (.addJob job)) id :: back) := by
    rw [split, place, List.append_assoc, List.cons_append]
  have number := generation_eq placed fit
  have counted : (System.callsOf (generationDraw uid) early).length <
      (System.callsOf (generationDraw uid)
        (before ++ .did thread (.context uid .nextTemplateGeneration) generation :: after)).length := by
    rw [place, ← List.singleton_append, System.callsOf_append, System.callsOf_append,
      List.length_append, List.length_append, System.callsOf_did, generationDraw, if_pos rfl,
      Option.toList_some, List.length_singleton]
    omega
  have total : (System.callsOf (generationDraw uid)
      (before ++ .did thread (.context uid .nextTemplateGeneration) generation :: after)).length =
        (System.callsOf (generationDraw uid) before).length + 1 := by
    rw [← List.singleton_append, System.callsOf_append, System.callsOf_append, quiet,
      System.callsOf_did, generationDraw, if_pos rfl, Option.toList_some, List.append_nil,
      List.length_append, List.length_singleton]
  omega

/-! ## The newest job -/

theorem addedJobs_append (uid : Nat) (front back : Record deployment) :
    addedJobs uid (front ++ back) = addedJobs uid front ++ addedJobs uid back :=
  System.callsOf_append front back

/-- The job a refresh found is still the last one added when the refreshed parent is. -/
theorem latest_of_refresh {events : List (bridge deployment).Event} {front back : Record deployment}
    {thread uid id newest : Nat} {job latest : Job} {pre : List PublishCall} {ids : List Nat}
    (split : (System.execute events).log =
      front ++ .did thread (.ring uid (.addJob job)) id :: back)
    (room : (addedJobs uid front).length < 2 ^ 64)
    (calls : System.ownCalls publishCall thread front =
      pre ++ [.locked uid, .stored uid ids, .found uid newest latest])
    (maximal : ids.max? = some newest) : (addedJobs uid front).getLast? = some latest := by
  obtain ⟨before, lockOp, lockAnswer, held, rfl, unlocked, locking, reads⟩ :=
    System.exists_split_of_ownCalls calls
  obtain ⟨early, readOp, readAnswer, later, rfl, -, reading, finding⟩ :=
    System.exists_split_of_ownCalls (show System.ownCalls publishCall thread held =
      [] ++ .stored uid ids :: [.found uid newest latest] from reads)
  obtain ⟨middle, findOp, findAnswer, last, rfl, -, found, -⟩ :=
    System.exists_split_of_ownCalls (show System.ownCalls publishCall thread later =
      [] ++ .found uid newest latest :: [] from finding)
  cases publishCall_cases reading
  cases publishCall_cases found
  -- Nothing is added from the moment the lock is taken.
  have regrouped : (System.execute events).log =
      (before ++ [.did thread lockOp lockAnswer]) ++
        ((early ++ .did thread (.ring uid .storedJobIds) ids ::
          (middle ++ .did thread (.ring uid (.getJob newest)) (some latest) :: last)) ++
            .did thread (.ring uid (.addJob job)) id :: back) := by
    rw [split]
    simp only [List.append_assoc, List.cons_append, List.nil_append]
  have unchanged : ∀ part, part <+: early ++ .did thread (.ring uid .storedJobIds) ids ::
      (middle ++ .did thread (.ring uid (.getJob newest)) (some latest) :: last) →
        addedJobs uid ((before ++ [.did thread lockOp lockAnswer]) ++ part) =
          addedJobs uid (before ++ [.did thread lockOp lockAnswer]) := by
    rintro part ⟨remaining, whole⟩
    have nothing : addedJobs uid (part ++ remaining) = [] := by
      rw [whole]
      refine @no_adds_while_building _ _ events _ _ _ uid thread regrouped ?_ ?_ ?_
      · rw [System.ownCalls_append, unlocked, System.ownCalls_did, locking, Option.toList_some,
          Building, List.filterMap_append]
        have turns : [PublishCall.locked uid].filterMap (PublishCall.turn uid) = [true] :=
          List.filterMap_cons_some (if_pos rfl)
        rw [turns, List.getLast?_concat]
      · rw [reads]
        rfl
      · rw [reads]
        simp
    rw [addedJobs_append] at nothing ⊢
    rw [(List.append_eq_nil_iff.mp nothing).1, List.append_nil]
  have atEnd := unchanged _ (List.prefix_refl _)
  have atRead := unchanged early (List.prefix_append _ _)
  have atFind := unchanged (early ++ .did thread (.ring uid .storedJobIds) ids :: middle)
    ⟨.did thread (.ring uid (.getJob newest)) (some latest) :: last, by
      rw [List.append_assoc, List.cons_append]⟩
  rw [List.append_assoc, List.singleton_append] at atEnd
  have readSplit : (System.execute events).log =
      (before ++ [.did thread lockOp lockAnswer] ++ early) ++
        .did thread (.ring uid .storedJobIds) ids ::
          (middle ++ .did thread (.ring uid (.getJob newest)) (some latest) ::
            (last ++ .did thread (.ring uid (.addJob job)) id :: back)) := by
    rw [split]
    simp only [List.append_assoc, List.cons_append, List.nil_append]
  have findSplit : (System.execute events).log =
      (before ++ [.did thread lockOp lockAnswer] ++
        (early ++ .did thread (.ring uid .storedJobIds) ids :: middle)) ++
          .did thread (.ring uid (.getJob newest)) (some latest) ::
            (last ++ .did thread (.ring uid (.addJob job)) id :: back) := by
    rw [split]
    simp only [List.append_assoc, List.cons_append, List.nil_append]
  rw [atEnd] at room ⊢
  have counted := storedJobIds_answer readSplit (by rw [atRead]; exact room) maximal
  obtain ⟨-, shown⟩ := getJob_answer findSplit (by rw [atFind]; exact room)
  rw [atRead] at counted
  rw [atFind, counted] at shown
  rw [List.getLast?_eq_getElem?]
  exact shown

/-! ## Lanes in the order of their jobs -/

/-- The generation of the lane a job commits to. -/
def JobGeneration (log : Record deployment) (uid : Nat) (job : Job) (generation : Nat) : Prop :=
  ∃ hFc, committedHFc job.block = some hFc ∧ LaneGeneration log uid hFc generation

theorem JobGeneration.mono {front log : Record deployment} {uid generation : Nat} {job : Job}
    (lane : JobGeneration front uid job generation) (shorter : front <+: log) :
    JobGeneration log uid job generation := by
  obtain ⟨hFc, commits, lane⟩ := lane
  exact ⟨hFc, commits, lane.mono shorter⟩

theorem JobGeneration.unique {events : List (bridge deployment).Event}
    (fresh : FreshTemplates (System.execute events).log) {uid generation other : Nat} {job : Job}
    (lane : JobGeneration (System.execute events).log uid job generation)
    (again : JobGeneration (System.execute events).log uid job other) : generation = other := by
  obtain ⟨hFc, commits, lane⟩ := lane
  obtain ⟨otherHFc, otherCommits, again⟩ := again
  obtain rfl := Option.some.inj (commits.symm.trans otherCommits)
  exact lane.unique fresh again

/-- A job added earlier was added by an earlier call. -/
theorem exists_split_of_addedJobs {log : Record deployment} {uid : Nat} {early late : List Job}
    {job : Job} (added : addedJobs uid log = early ++ job :: late) :
    ∃ front thread id back, log = front ++ .did thread (.ring uid (.addJob job)) id :: back ∧
      addedJobs uid front = early := by
  obtain ⟨front, entry, back, split, before, single⟩ := System.exists_split_of_callsOf added
  have member : job ∈ @System.callsOf (bridge deployment) _ (addedJob uid) [entry] := by
    rw [single]
    exact List.mem_singleton_self job
  obtain ⟨thread, op, answer, only, chosen⟩ := System.mem_callsOf.mp member
  obtain rfl := List.mem_singleton.mp only
  obtain rfl := addedJob_eq_some chosen
  exact ⟨front, thread, answer, back, split, before⟩

section Order

variable {events : List (bridge deployment).Event}
  (merged : deployment.settings.mergedMining = true)
  (faithful : Faithful (System.execute events).log) {uid : Nat}
  (room : (addedJobs uid (System.execute events).log).length < 2 ^ 64)
  (fit : GenerationsFit uid (System.execute events).log)
include merged faithful room fit

/-- **Step.** An added job has a lane, and no earlier job has a newer one. -/
theorem jobGeneration_of_add {front back : Record deployment} {thread id : Nat} {job : Job}
    (split : (System.execute events).log =
      front ++ .did thread (.ring uid (.addJob job)) id :: back) :
    ∃ generation, JobGeneration front uid job generation ∧
      ∀ earlier ∈ addedJobs uid front, ∃ older ≤ generation,
        JobGeneration front uid earlier older := by
  induction length : front.length using Nat.strong_induction_on generalizing front back thread id
    job with
  | _ length ih =>
    subst length
    -- What is known of an earlier addition.
    have before : ∀ {early late : List Job} {other : Job},
        addedJobs uid front = early ++ other :: late → ∃ generation,
          JobGeneration front uid other generation ∧ ∀ earlier ∈ early, ∃ older ≤ generation,
            JobGeneration front uid earlier older := by
      intro early late other added
      obtain ⟨start, adder, otherId, rest, rfl, same⟩ := exists_split_of_addedJobs added
      have shorter : start <+: start ++ .did adder (.ring uid (.addJob other)) otherId :: rest :=
        List.prefix_append _ _
      obtain ⟨generation, lane, newest⟩ := ih start.length
        (by rw [List.length_append, List.length_cons]; omega)
        (split.trans (by rw [List.append_assoc, List.cons_append])) rfl
      refine ⟨generation, lane.mono shorter, fun earlier member => ?_⟩
      obtain ⟨older, below, its⟩ := newest earlier (same ▸ member)
      exact ⟨older, below, its.mono shorter⟩
    obtain ⟨request, -, may⟩ := mayAdd_of_split split
    cases may with
    | full generation fcBlock serves calls commits =>
        have issued : PublishCall.issued fcBlock ∈ System.ownCalls publishCall thread front := by
          rw [calls]
          simp
        have drew : PublishCall.drew uid generation ∈ System.ownCalls publishCall thread front := by
          rw [calls]
          simp
        obtain ⟨op, answer, inFront, chosen⟩ := System.mem_ownCalls.mp issued
        cases publishCall_cases chosen
        refine ⟨generation, ⟨_, commits merged faithful, thread, _, _, fcBlock,
          requestedAs_of_drew drew, inFront, rfl⟩, fun earlier member => ?_⟩
        obtain ⟨early, late, place⟩ := List.append_of_mem member
        obtain ⟨older, lane, -⟩ := before place
        have requested := lane
        obtain ⟨hFc, -, other, recipient, tag, otherBlock, requested, -⟩ := requested
        exact ⟨older, newest_of_full split fit calls requested, lane⟩
    | refresh pre ids newest latest hFc serves calls maximal current commits =>
        have fewer : (addedJobs uid front).length < 2 ^ 64 := by
          rw [split, addedJobs_append, List.length_append] at room
          omega
        have last := latest_of_refresh split fewer calls maximal
        obtain ⟨early, place⟩ := List.getLast?_eq_some_iff.mp last
        obtain ⟨generation, lane, bound⟩ := before place
        have same := lane
        obtain ⟨otherHFc, otherCommits, laneOf⟩ := same
        obtain rfl := Option.some.inj (current.symm.trans otherCommits)
        refine ⟨generation, ⟨hFc, commits faithful, laneOf⟩, fun earlier member => ?_⟩
        rw [place] at member
        rcases List.mem_append.mp member with old | same
        · exact bound earlier old
        · obtain rfl := List.mem_singleton.mp same
          exact ⟨generation, le_refl _, lane⟩

end Order

/-- The number of an added job counts the jobs added before it. -/
theorem addJob_answer {events : List (bridge deployment).Event} {front back : Record deployment}
    {thread uid id : Nat} {job : Job}
    (split : (System.execute events).log =
      front ++ .did thread (.ring uid (.addJob job)) id :: back)
    (room : (addedJobs uid (System.execute events).log).length < 2 ^ 64) :
    id = (addedJobs uid front).length + 1 := by
  have one : addedJobs uid ([.did thread (.ring uid (.addJob job)) id] : Record deployment) =
      [job] := by
    rw [addedJobs, System.callsOf_did, addedJob, if_pos rfl, Option.toList_some]
  have more : (addedJobs uid front).length + 1 < 2 ^ 64 := by
    rw [split, ← List.singleton_append, addedJobs_append, addedJobs_append, one,
      List.length_append, List.length_append, List.length_singleton] at room
    omega
  obtain ⟨state, refines, rfl⟩ := ring_answer split (by omega)
  rw [← ringLog_length] at more ⊢
  exact refines.addJob_answer job more

/-- A parent-only refresh adds for the lane of the job added last. -/
theorem latest_of_newParent {events : List (bridge deployment).Event}
    (faithful : Faithful (System.execute events).log) {front back : Record deployment}
    {thread uid other id : Nat} {job : Job}
    (room : (addedJobs uid (System.execute events).log).length < 2 ^ 64)
    (split : (System.execute events).log =
      front ++ .did thread (.ring uid (.addJob job)) id :: back)
    (refreshes : .started thread (.newParent other) ∈ (System.execute events).log) :
    ∃ latest hFc, (addedJobs uid front).getLast? = some latest ∧
      committedHFc latest.block = some hFc ∧ committedHFc job.block = some hFc := by
  obtain ⟨request, started, may⟩ := mayAdd_of_split split
  have inLog : .started thread request ∈ (System.execute events).log := by
    rw [split]
    exact List.mem_append_left _ started
  obtain rfl := System.started_unique inLog refreshes
  cases may with
  | full generation fcBlock serves => exact absurd rfl (serves other)
  | refresh pre ids newest latest hFc serves calls maximal current commits =>
      have fewer : (addedJobs uid front).length < 2 ^ 64 := by
        rw [split, addedJobs_append, List.length_append] at room
        omega
      exact ⟨latest, hFc, latest_of_refresh split fewer calls maximal, current, commits faithful⟩

/-- **Obsolete work is never published.** In merged mode every job of a connection commits
to a lane issued to a template request of the connection; a job with a larger number never
commits to a lane of an older generation; and a parent-only refresh adds a job only for the
lane of the job that is then the latest. -/
theorem jobs_follow_lanes (merged : deployment.settings.mergedMining = true)
    (events : List (bridge deployment).Event) (faithful : Faithful (System.execute events).log)
    (fresh : FreshTemplates (System.execute events).log) (uid : Nat)
    (room : (addedJobs uid (System.execute events).log).length < 2 ^ 64)
    (fit : GenerationsFit uid (System.execute events).log) :
    (∀ job ∈ addedJobs uid (System.execute events).log, ∃ generation,
      JobGeneration (System.execute events).log uid job generation) ∧
    (∀ thread other id later job next generation newer,
      .did thread (.ring uid (.addJob job)) id ∈ (System.execute events).log →
      .did other (.ring uid (.addJob next)) later ∈ (System.execute events).log → id ≤ later →
      JobGeneration (System.execute events).log uid job generation →
      JobGeneration (System.execute events).log uid next newer → generation ≤ newer) ∧
    ∀ front thread other job id back,
      (System.execute events).log = front ++ .did thread (.ring uid (.addJob job)) id :: back →
      .started thread (.newParent other) ∈ (System.execute events).log →
        ∃ latest hFc, (addedJobs uid front).getLast? = some latest ∧
          committedHFc latest.block = some hFc ∧ committedHFc job.block = some hFc := by
  refine ⟨fun job member => ?_, ?_, fun front thread other job id back split refreshes =>
    latest_of_newParent faithful room split refreshes⟩
  · obtain ⟨early, late, place⟩ := List.append_of_mem member
    obtain ⟨front, thread, id, back, split, -⟩ := exists_split_of_addedJobs place
    obtain ⟨generation, lane, -⟩ := jobGeneration_of_add merged faithful room fit split
    exact ⟨generation, lane.mono ⟨_, split.symm⟩⟩
  · intro thread other id later job next generation newer member otherMember ordered lane newerLane
    obtain ⟨front, back, split⟩ := List.append_of_mem member
    obtain ⟨before, after, otherSplit⟩ := List.append_of_mem otherMember
    rcases System.split_cases split otherSplit with ⟨-, same, -⟩ | ⟨between, longer, -⟩ |
        ⟨between, longer, -⟩
    · cases same
      exact Nat.le_of_eq (lane.unique fresh newerLane)
    · obtain ⟨found, itsLane, bound⟩ := jobGeneration_of_add merged faithful room fit otherSplit
      have earlier : job ∈ addedJobs uid before := by
        rw [longer]
        exact System.mem_callsOf.mpr
          ⟨thread, _, _, List.mem_append_right _ List.mem_cons_self, if_pos rfl⟩
      obtain ⟨older, below, oldLane⟩ := bound job earlier
      rw [lane.unique fresh (oldLane.mono ⟨_, otherSplit.symm⟩),
        newerLane.unique fresh (itsLane.mono ⟨_, otherSplit.symm⟩)]
      exact below
    · -- The second addition came first, so its number is smaller.
      have first := addJob_answer otherSplit room
      have second := addJob_answer split room
      have one : addedJobs uid ([.did other (.ring uid (.addJob next)) later] : Record deployment) =
          [next] := by
        rw [addedJobs, System.callsOf_did, addedJob, if_pos rfl, Option.toList_some]
      rw [longer, ← List.singleton_append, addedJobs_append, addedJobs_append, one,
        List.length_append, List.length_append, List.length_singleton] at second
      omega

end Model

section Sample

attribute [local instance] Sample.platform

namespace Sample

/-- A job is published, and its parent refreshed. -/
def refreshedRun : List (bridge (deployment none)).Event :=
  [.start (.immediateJob 1)]
    ++ steps none 0 18 { template := .block easyBlock, systemTime := 300000 }
    ++ steps none 0 40 { template := .block easyParent, systemTime := 300000 }
    ++ [.start (.newParent 1)]
    ++ steps none 1 40 { template := .block easyParent, systemTime := 360000 }

/-- The connection and the task of an added job. -/
def adder : (op : BridgeOp) → op.Answer → Option (Nat × Nat)
  | .ring uid (.addJob _), id => some (uid, id)
  | _, _ => none

theorem jobs_follow_lanes_sample :
    System.callsBy adder (System.execute refreshedRun).log = [(0, 1, 1), (1, 1, 2)] ∧
      ∀ job ∈ addedJobs 1 (System.execute refreshedRun).log, ∃ generation,
        JobGeneration (System.execute refreshedRun).log 1 job generation := by
  have fresh : FreshTemplates (System.execute refreshedRun).log := by
    unfold FreshTemplates
    decide +kernel
  have fit : GenerationsFit 1 (System.execute refreshedRun).log := by
    unfold GenerationsFit
    decide +kernel
  have follows := jobs_follow_lanes rfl refreshedRun (Sample.faithful (by decide +kernel)) fresh 1
    (by decide +kernel) fit
  exact ⟨by decide +kernel, follows.1⟩

end Sample

end Sample

end StratumBridge
