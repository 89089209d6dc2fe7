import StratumBridge.Bridge.AccountProtocol
import StratumBridge.Bridge.BlockPairs
import StratumBridge.Bridge.Rings
import StratumBridge.Interaction.Balance

/-! # Conservation of the counters

The counters of a handler equal the sums of its workers' counters, up to the pairs of
updates that running tasks have not completed. A share is credited with the difficulty of
its job exactly when the accounting layer accepts the names then stored and the difficulty
on record is still the job's.
-/

namespace StratumBridge

open Interaction

section Model

/-! ## The statistics of a handler -/

/-- The sum of a counter over all statistics ever created. -/
def StatsStore.total (store : StatsStore) (tally : Tally) : Nat :=
  ∑ handle ∈ Finset.range store.next, tally.of (store.cells handle)

/-- Keys stand for statistics that were created. -/
def StatsStore.Closed (store : StatsStore) : Prop :=
  ∀ key handle, store.index.lookup key = some handle → handle < store.next

namespace StatsStore

variable {store : StatsStore} {tally : Tally}

theorem total_setCell {handle : Nat} (created : handle < store.next) (stats : WorkStats) :
    (store.setCell handle stats).total tally + tally.of (store.cells handle) =
      store.total tally + tally.of stats := by
  have inRange : handle ∈ Finset.range store.next := Finset.mem_range.mpr created
  have others : ∀ other ∈ Finset.range store.next \ {handle},
      tally.of (Function.update store.cells handle stats other) = tally.of (store.cells other) := by
    intro other member
    have different : other ≠ handle := fun same =>
      (Finset.mem_sdiff.mp member).2 (Finset.mem_singleton.mpr same)
    rw [Function.update_of_ne different]
  change (∑ other ∈ Finset.range store.next,
    tally.of (Function.update store.cells handle stats other)) + _ = _
  rw [total, ← Finset.sum_sdiff (Finset.singleton_subset_iff.mpr inRange),
    ← Finset.sum_sdiff (Finset.singleton_subset_iff.mpr inRange), Finset.sum_congr rfl others,
    Finset.sum_singleton, Finset.sum_singleton, Function.update_self]
  omega

/-- Setting a cell to statistics with the same counter keeps the sum. -/
theorem total_setCell_of_eq {handle : Nat} {stats : WorkStats}
    (same : tally.of stats = tally.of (store.cells handle)) :
    (store.setCell handle stats).total tally = store.total tally := by
  refine Finset.sum_congr rfl fun other _ => ?_
  by_cases here : other = handle
  · subst here
    exact (congrArg tally.of (Function.update_self ..)).trans same
  · exact congrArg tally.of (Function.update_of_ne here ..)

section GetOrCreate

variable (key : Text) (now : Nat) (seeded : ℚ)

theorem next_le_getOrCreate : store.next ≤ (store.getOrCreate key now seeded).2.next := by
  unfold getOrCreate
  split
  · exact Nat.le_refl _
  · exact Nat.le_succ _

theorem getOrCreate_created (closed : store.Closed) :
    (store.getOrCreate key now seeded).1 < (store.getOrCreate key now seeded).2.next := by
  unfold getOrCreate
  split
  · next handle found => exact closed key handle found
  · exact Nat.lt_succ_self _

theorem getOrCreate_closed (closed : store.Closed) :
    (store.getOrCreate key now seeded).2.Closed := by
  unfold getOrCreate
  split
  · exact closed
  · intro other handle found
    simp only at found
    by_cases same : other = key
    · subst same
      rw [AList.lookup_insert] at found
      exact Option.some.inj found ▸ Nat.lt_succ_self _
    · rw [AList.lookup_insert_ne same] at found
      exact Nat.lt_succ_of_lt (closed other handle found)

theorem getOrCreate_overall : (store.getOrCreate key now seeded).2.overall = store.overall := by
  unfold getOrCreate
  split <;> rfl

/-- New statistics count nothing. -/
theorem getOrCreate_total : (store.getOrCreate key now seeded).2.total tally = store.total tally := by
  unfold getOrCreate
  split
  · rfl
  · have fresh : tally.of (if 0 < seeded then { WorkStats.new now with minDiff := seeded }
        else WorkStats.new now) = 0 := by
      split <;> cases tally <;> rfl
    change (∑ handle ∈ Finset.range (store.next + 1),
      tally.of (Function.update store.cells store.next _ handle)) = _
    rw [Finset.sum_range_succ, Function.update_self, fresh, Nat.add_zero]
    refine Finset.sum_congr rfl fun handle member => ?_
    rw [Function.update_of_ne (Nat.ne_of_lt (Finset.mem_range.mp member))]

end GetOrCreate

theorem act_next (op : StatsOp) : (op.act store).2.next = store.next := by
  cases op <;> rfl

theorem act_closed (closed : store.Closed) (op : StatsOp) : (op.act store).2.Closed := by
  cases op with
  | prune now =>
      intro key handle found
      refine closed key handle ?_
      have member := AList.mem_lookup_iff.mp found
      exact AList.mem_lookup_iff.mpr (List.mem_of_mem_filter member)
  | _ => exact closed

end StatsStore

variable [Platform] {deployment : Deployment}

/-! ## Families of counter updates -/

/-- The operation behind a recorded call. -/
inductive AccountedFor : (op : BridgeOp) → op.Answer → AccountCall → Prop where
  | answered (instanceId uid : Nat) (key : Text) (now handle : Nat) :
      AccountedFor (.getCreateStats instanceId uid key now) handle (.answered instanceId handle)
  | read (uid : Nat) (context : Context) : AccountedFor (.context uid .read) context (.read context)
  | checked (block : Block) (nonce : Nat) (answer : Bool × Nat) :
      AccountedFor (.checkPow block nonce) answer .checked
  | cell (instanceId handle : Nat) (change : StatsWrite) (tally : Tally) (answer : Unit)
      (counts : change.tally = some tally) :
      AccountedFor (.stats instanceId (.write handle change)) answer (.cell instanceId handle tally)
  | overall (instanceId : Nat) (change : StatsWrite) (tally : Tally) (answer : Unit)
      (counts : change.tally = some tally) :
      AccountedFor (.stats instanceId (.writeOverall change)) answer (.overall instanceId tally)
  | resolved (uid id : Nat) (held : Bool) :
      AccountedFor (.ring uid (.resolves id)) held (.resolved uid id held)
  | slot (uid id : Nat) (diff : Option KaspaDiff) :
      AccountedFor (.ring uid (.slotDiff id)) diff (.slot uid id diff)
  | current (uid : Nat) (diff : Option KaspaDiff) :
      AccountedFor (.ring uid .stratumDiff) diff (.current uid diff)
  | credited (wallet : WalletAddress) (worker : WorkerName) (difficulty : ShareDifficulty)
      (daaScore id : Nat) (answer : Unit) :
      AccountedFor (.emit (.shareCredited wallet worker difficulty daaScore id)) answer
        (.credited difficulty.value)

/-- **Inversion of a recorded call.** -/
theorem accountCall_cases {op : BridgeOp} {answer : op.Answer} {item : AccountCall}
    (chosen : accountCall op answer = some item) : AccountedFor op answer item := by
  unfold accountCall at chosen
  split at chosen
  case h_4 =>
    obtain ⟨tally, counts, rfl⟩ := Option.map_eq_some_iff.mp chosen
    exact .cell _ _ _ tally _ counts
  case h_5 =>
    obtain ⟨tally, counts, rfl⟩ := Option.map_eq_some_iff.mp chosen
    exact .overall _ _ tally _ counts
  case h_10 => exact nomatch chosen
  all_goals
    cases chosen
    constructor

/-- The update of a worker's counter, with the worker's handle. -/
def AccountCall.workerCount (instanceId : Nat) (tally : Tally) : AccountCall → Option Nat
  | .cell other handle counted => if other = instanceId ∧ counted = tally then some handle else none
  | _ => none

/-- The update of the handler's counter. -/
def AccountCall.overallCount (instanceId : Nat) (tally : Tally) : AccountCall → Option Unit
  | .overall other counted => if other = instanceId ∧ counted = tally then some () else none
  | _ => none

def workerCounts (instanceId : Nat) (tally : Tally) : (op : BridgeOp) → op.Answer → Option Nat
  | .stats other (.write handle change), _ =>
      if other = instanceId ∧ change.tally = some tally then some handle else none
  | _, _ => none

def overallCounts (instanceId : Nat) (tally : Tally) : (op : BridgeOp) → op.Answer → Option Unit
  | .stats other (.writeOverall change), _ =>
      if other = instanceId ∧ change.tally = some tally then some () else none
  | _, _ => none

theorem workerCounts_eq (instanceId : Nat) (tally : Tally) (op : BridgeOp) (answer : op.Answer) :
    workerCounts instanceId tally op answer =
      (accountCall op answer).bind (AccountCall.workerCount instanceId tally) := by
  cases op with
  | stats other op =>
      cases op with
      | write handle change =>
          change (if other = instanceId ∧ change.tally = some tally then some handle else none) =
            (change.tally.map (.cell other handle)).bind (AccountCall.workerCount instanceId tally)
          cases change.tally <;> simp [AccountCall.workerCount]
      | writeOverall change =>
          change none = (change.tally.map (AccountCall.overall other)).bind _
          cases change.tally <;> rfl
      | _ => rfl
  | context uid op => cases op <;> rfl
  | ring uid op => cases op <;> rfl
  | emit event => cases event <;> rfl
  | _ => rfl

theorem overallCounts_eq (instanceId : Nat) (tally : Tally) (op : BridgeOp) (answer : op.Answer) :
    overallCounts instanceId tally op answer =
      (accountCall op answer).bind (AccountCall.overallCount instanceId tally) := by
  cases op with
  | stats other op =>
      cases op with
      | write handle change =>
          change none = (change.tally.map (AccountCall.cell other handle)).bind _
          cases change.tally <;> rfl
      | writeOverall change =>
          change (if other = instanceId ∧ change.tally = some tally then some () else none) =
            (change.tally.map (.overall other)).bind (AccountCall.overallCount instanceId tally)
          cases change.tally <;> simp [AccountCall.overallCount]
      | _ => rfl
  | context uid op => cases op <;> rfl
  | ring uid op => cases op <;> rfl
  | emit event => cases event <;> rfl
  | _ => rfl

/-- Calls that count nothing. -/
def Uncounting (calls : List AccountCall) : Prop :=
  ∀ call ∈ calls, ∀ instanceId tally,
    call.workerCount instanceId tally = none ∧ call.overallCount instanceId tally = none

theorem uncounting_of_noise {calls : List AccountCall} (noise : ∀ call ∈ calls, call.Noise) :
    Uncounting calls := by
  intro call member instanceId tally
  cases call with
  | cell | overall => exact absurd (noise _ member) id
  | _ => exact ⟨rfl, rfl⟩

theorem Uncounting.append {calls more : List AccountCall} (first : Uncounting calls)
    (second : Uncounting more) : Uncounting (calls ++ more) := by
  intro call member
  rcases List.mem_append.mp member with earlier | later
  · exact first call earlier
  · exact second call later

section Picks

variable {calls : List AccountCall} (uncounting : Uncounting calls) (instanceId : Nat)
  (tally : Tally)
include uncounting

theorem Uncounting.workerCount :
    calls.filterMap (AccountCall.workerCount instanceId tally) = [] :=
  List.filterMap_eq_nil_iff.mpr fun call member => (uncounting call member instanceId tally).1

theorem Uncounting.overallCount :
    calls.filterMap (AccountCall.overallCount instanceId tally) = [] :=
  List.filterMap_eq_nil_iff.mpr fun call member => (uncounting call member instanceId tally).2

end Picks

/-- How far a task has counted. -/
inductive Counting : List AccountCall → Prop where
  | nothing {calls : List AccountCall} (uncounting : Uncounting calls) : Counting calls
  | half {before after : List AccountCall} (instanceId handle : Nat) (tally : Tally)
      (first : Uncounting before) (second : Uncounting after) :
      Counting (before ++ .cell instanceId handle tally :: after)
  | whole {before between after : List AccountCall} (instanceId handle : Nat) (tally : Tally)
      (first : Uncounting before) (second : Uncounting between) (third : Uncounting after) :
      Counting (before ++ .cell instanceId handle tally ::
        (between ++ .overall instanceId tally :: after))

/-- Both updates of a pair count alike. -/
theorem balanced_whole {before between after : List AccountCall} (first : Uncounting before)
    (second : Uncounting between) (third : Uncounting after) (counter handle : Nat)
    (counted : Tally) (instanceId : Nat) (tally : Tally) :
    ((before ++ .cell counter handle counted :: (between ++ .overall counter counted ::
        after)).filterMap (AccountCall.workerCount instanceId tally)).length =
      ((before ++ .cell counter handle counted :: (between ++ .overall counter counted ::
        after)).filterMap (AccountCall.overallCount instanceId tally)).length := by
  simp only [List.filterMap_append, List.filterMap_cons, first.workerCount, second.workerCount,
    third.workerCount, first.overallCount, second.overallCount, third.overallCount,
    AccountCall.workerCount, AccountCall.overallCount]
  by_cases same : counter = instanceId ∧ counted = tally
  · simp only [if_pos same]
    rfl
  · simp only [if_neg same]
    rfl

/-- A task is at most one update of a worker's counter ahead. -/
theorem Counting.ahead {calls : List AccountCall} (counting : Counting calls) (instanceId : Nat)
    (tally : Tally) :
    (calls.filterMap (AccountCall.workerCount instanceId tally)).length =
        (calls.filterMap (AccountCall.overallCount instanceId tally)).length ∨
      (calls.filterMap (AccountCall.workerCount instanceId tally)).length =
        (calls.filterMap (AccountCall.overallCount instanceId tally)).length + 1 := by
  cases counting with
  | nothing uncounting =>
      left
      rw [uncounting.workerCount, uncounting.overallCount]
      rfl
  | half counter handle counted first second =>
      simp only [List.filterMap_append, List.filterMap_cons, first.workerCount,
        second.workerCount, first.overallCount, second.overallCount, AccountCall.workerCount,
        AccountCall.overallCount]
      by_cases same : counter = instanceId ∧ counted = tally
      · simp only [if_pos same]
        exact Or.inr rfl
      · simp only [if_neg same]
        exact Or.inl rfl
  | whole counter handle counted first second third =>
      exact Or.inl (balanced_whole first second third counter handle counted instanceId tally)

/-- A call that counts nothing does not change how far a task has counted. -/
theorem Counting.skip {calls added : List AccountCall} (counting : Counting calls)
    (uncounting : Uncounting added) : Counting (calls ++ added) := by
  cases counting with
  | nothing earlier => exact .nothing (earlier.append uncounting)
  | half counter handle counted first second =>
      rw [List.append_assoc, List.cons_append]
      exact .half counter handle counted first (second.append uncounting)
  | whole counter handle counted first second third =>
      rw [List.append_assoc, List.cons_append, List.append_assoc, List.cons_append]
      exact .whole counter handle counted first second (third.append uncounting)

/-- A permitted call keeps a task counting in order. -/
theorem Counting.step {request : BridgeRequest} {calls : List AccountCall} {op : BridgeOp}
    (answer : op.Answer) (counting : Counting calls)
    (permitted : AccountPermits request calls op) :
    Counting (calls ++ (accountCall op answer).toList) := by
  cases chosen : accountCall op answer with
  | none =>
      rw [Option.toList_none, List.append_nil]
      exact counting
  | some item =>
      have nothing : Uncounting [] := fun _ member => absurd member List.not_mem_nil
      cases accountCall_cases chosen with
      | cell instanceId handle change tally _ counts =>
          have noise := (permitted (counts ▸ rfl)).1
          exact .half instanceId handle tally (uncounting_of_noise noise) nothing
      | overall instanceId change tally _ counts =>
          obtain ⟨handle, before, after, rfl, noise, idle⟩ := permitted tally counts
          rw [Option.toList_some, List.append_assoc, List.cons_append]
          exact .whole instanceId handle tally (uncounting_of_noise noise)
            (uncounting_of_noise fun call member => (idle call member).noise) nothing
      | _ =>
          refine counting.skip fun other member instanceId tally => ?_
          obtain rfl := List.mem_singleton.mp member
          exact ⟨rfl, rfl⟩

theorem uncounting_creditReport (wallet worker : Text) (difficulty : ℚ) :
    Uncounting (creditReport wallet worker difficulty) := by
  intro call member instanceId tally
  unfold creditReport at member
  split at member
  · obtain rfl := List.mem_singleton.mp member
    exact ⟨rfl, rfl⟩
  · exact absurd member List.not_mem_nil

/-- A finished task has counted in pairs. -/
theorem balanced_of_completes {request : BridgeRequest} {calls : List AccountCall}
    (completes : AccountCompletes request calls) (instanceId : Nat) (tally : Tally) :
    (calls.filterMap (AccountCall.workerCount instanceId tally)).length =
      (calls.filterMap (AccountCall.overallCount instanceId tally)).length := by
  have silent : ∀ {calls : List AccountCall}, (∀ call ∈ calls, call.Idle) → Uncounting calls :=
    fun idle => uncounting_of_noise fun call member => (idle call member).noise
  have nothing : Uncounting [] := fun _ member => absurd member List.not_mem_nil
  have unpaired : Uncounting calls →
      (calls.filterMap (AccountCall.workerCount instanceId tally)).length =
        (calls.filterMap (AccountCall.overallCount instanceId tally)).length := by
    intro uncounting
    rw [uncounting.workerCount, uncounting.overallCount]
    rfl
  cases request with
  | submit uid event =>
      rcases completes with idle | rejects | ⟨id, diff, wallet, worker, credits⟩
      · exact unpaired (silent idle)
      · obtain ⟨counter, handle, counted, before, after, rfl, -, noise, idle⟩ := rejects
        exact balanced_whole (uncounting_of_noise noise) nothing (silent idle) counter handle counted
          instanceId tally
      · obtain ⟨counter, handle, before, measured, first, second, reads, rfl, noise, measures, idle,
          -, -⟩ := credits.shape
        have rest : Uncounting (.read first :: .read second :: reads ++
            creditReport wallet worker (assignedDiff diff)) := by
          refine (silent ?_).append (uncounting_creditReport wallet worker (assignedDiff diff))
          intro call member
          rcases List.mem_cons.mp member with rfl | later
          · trivial
          · rcases List.mem_cons.mp later with rfl | read
            · trivial
            · exact idle call read
        have whole := balanced_whole (uncounting_of_noise noise) (silent measures.idle) rest counter
          handle .shares instanceId tally
        simpa only [List.append_assoc, List.cons_append] using whole
  | confirmBlock counter handle worker hash nonce blueScore =>
      rcases completes with rfl | rfl
      · rfl
      · exact balanced_whole nothing nothing nothing counter handle .blocks instanceId tally
  | _ => exact unpaired (silent completes)

/-! ## Conservation -/

section Moves

variable {state after : BridgeState} {env : Env} {op : BridgeOp} {answer : op.Answer}
  (performed : performOp state env op = some (answer, after)) (instanceId : Nat) (tally : Tally)
include performed

/-- The handler's counter moves with its updates. -/
theorem overall_moves :
    tally.of (after.stats instanceId).overall =
      (overallCounts instanceId tally op answer).toList.foldl (fun count _ => count + 1)
        (tally.of (state.stats instanceId).overall) := by
  have moved := congrFun (performOp_stats performed) instanceId
  cases op with
  | stats other op =>
      by_cases same : other = instanceId
      · subst same
        simp only [BridgeOp.statsAfter, Function.update_self] at moved
        rw [moved]
        cases op with
        | writeOverall change =>
            change tally.of (change.apply _) =
              (if other = other ∧ change.tally = some tally then some () else none).toList.foldl _ _
            rw [StatsWrite.tally_apply]
            by_cases counts : change.tally = some tally
            · simp only [counts, and_self, if_true]
              rfl
            · simp only [counts, and_false, if_false]
              rfl
        | _ => rfl
      · simp only [BridgeOp.statsAfter, Function.update_of_ne (Ne.symm same)] at moved
        rw [moved]
        cases op with
        | writeOverall change =>
            change _ = (if other = instanceId ∧ change.tally = some tally then some ()
              else none).toList.foldl _ _
            rw [if_neg fun both => same both.1]
            rfl
        | _ => rfl
  | getCreateStats other uid key now =>
      rw [moved]
      by_cases same : other = instanceId
      · subst same
        simp only [BridgeOp.statsAfter, Function.update_self]
        exact congrArg tally.of (StatsStore.getOrCreate_overall ..)
      · simp only [BridgeOp.statsAfter, Function.update_of_ne (Ne.symm same)]
        rfl
  | _ =>
      rw [moved]
      rfl

/-- The sum of the workers' counters moves with their updates. -/
theorem total_moves
    (created : ∀ handle change, op = .stats instanceId (.write handle change) →
      change.tally.isSome = true → handle < (state.stats instanceId).next) :
    (after.stats instanceId).total tally =
      (state.stats instanceId).total tally + (workerCounts instanceId tally op answer).toList.length := by
  have moved := congrFun (performOp_stats performed) instanceId
  cases op with
  | stats other op =>
      by_cases same : other = instanceId
      · subst same
        simp only [BridgeOp.statsAfter, Function.update_self] at moved
        rw [moved]
        cases op with
        | write handle change =>
            change ((state.stats other).setCell handle _).total tally = _ +
              (if other = other ∧ change.tally = some tally then some handle
                else none).toList.length
            have applied := StatsWrite.tally_apply ((state.stats other).cells handle) change tally
            by_cases counts : change.tally = some tally
            · have known := created handle change rfl (counts ▸ rfl)
              have set : ((state.stats other).setCell handle
                  (change.apply ((state.stats other).cells handle))).total tally +
                    tally.of ((state.stats other).cells handle) =
                  (state.stats other).total tally +
                    tally.of (change.apply ((state.stats other).cells handle)) :=
                StatsStore.total_setCell known _
              rw [if_pos counts] at applied
              simp only [counts, and_self, if_true, Option.toList_some, List.length_singleton]
              omega
            · rw [if_neg counts, Nat.add_zero] at applied
              simp only [counts, and_false, if_false, Option.toList_none, List.length_nil,
                Nat.add_zero]
              exact StatsStore.total_setCell_of_eq applied
        | restoreMinDiff handle seed =>
            exact StatsStore.total_setCell_of_eq (by cases tally <;> rfl)
        | _ => rfl
      · simp only [BridgeOp.statsAfter, Function.update_of_ne (Ne.symm same)] at moved
        rw [moved]
        cases op with
        | write handle change =>
            change _ = _ + (if other = instanceId ∧ change.tally = some tally then some handle
              else none).toList.length
            rw [if_neg fun both => same both.1]
            rfl
        | _ => rfl
  | getCreateStats other uid key now =>
      rw [moved]
      by_cases same : other = instanceId
      · subst same
        simp only [BridgeOp.statsAfter, Function.update_self]
        exact StatsStore.getOrCreate_total ..
      · simp only [BridgeOp.statsAfter, Function.update_of_ne (Ne.symm same)]
        rfl
  | _ =>
      rw [moved]
      rfl

end Moves

section Run

variable {events : List (bridge deployment).Event}

/-- Every task counts in order. -/
theorem counting_execute (thread : Nat) {front back : Record deployment}
    (split : (System.execute events).log = front ++ back) :
    Counting (System.ownCalls accountCall thread front) :=
  (accounts_execute events).ownCalls_induction thread
    (.nothing fun _ member => absurd member List.not_mem_nil)
    (fun _ _ _ answer counting permitted => counting.step answer permitted) split

theorem ownCalls_workerCounts (thread instanceId : Nat) (tally : Tally) (log : Record deployment) :
    System.ownCalls (workerCounts instanceId tally) thread log =
      (System.ownCalls accountCall thread log).filterMap
        (AccountCall.workerCount instanceId tally) := by
  rw [← System.ownCalls_bind]
  exact congrArg (System.ownCalls · thread log)
    (funext fun op => funext fun answer => workerCounts_eq instanceId tally op answer)

theorem ownCalls_overallCounts (thread instanceId : Nat) (tally : Tally) (log : Record deployment) :
    System.ownCalls (overallCounts instanceId tally) thread log =
      (System.ownCalls accountCall thread log).filterMap
        (AccountCall.overallCount instanceId tally) := by
  rw [← System.ownCalls_bind]
  exact congrArg (System.ownCalls · thread log)
    (funext fun op => funext fun answer => overallCounts_eq instanceId tally op answer)

/-- Updates of workers' counters are ahead of the handler's by those of running tasks. -/
theorem counts_balance (events : List (bridge deployment).Event) (instanceId : Nat)
    (tally : Tally) :
    ∃ pending : Finset Nat, (∀ thread ∈ pending, (System.execute events).running thread ≠ none) ∧
      (System.callsOf (workerCounts instanceId tally) (System.execute events).log).length =
        (System.callsOf (overallCounts instanceId tally) (System.execute events).log).length +
          pending.card := by
  refine System.callsOf_balance ?_ ?_
  · intro thread
    rw [ownCalls_workerCounts, ownCalls_overallCounts]
    exact (counting_execute thread (List.append_nil _).symm).ahead instanceId tally
  · intro thread result member
    obtain ⟨front, back, split⟩ := List.append_of_mem member
    obtain ⟨request, -, completes⟩ :=
      (accounts_execute events).finishes front thread result back split
    rw [ownCalls_workerCounts, ownCalls_overallCounts, System.ownCalls_of_finished split]
    exact balanced_of_completes completes instanceId tally

/-- A worker's counter is only updated through a handle that was given out. -/
theorem handle_given (spawned : ConfirmsSpawned (System.execute events).log)
    {front back : Record deployment} {thread instanceId handle : Nat} {change : StatsWrite}
    {answer : Unit}
    (split : (System.execute events).log =
      front ++ .did thread (.stats instanceId (.write handle change)) answer :: back)
    (counts : change.tally.isSome = true) :
    ∃ other uid key now, .did other (.getCreateStats instanceId uid key now) handle ∈ front := by
  have given : ∀ {log : Record deployment} {other : Nat},
      AccountCall.answered instanceId handle ∈ System.ownCalls accountCall other log →
        ∃ uid key now, .did other (.getCreateStats instanceId uid key now) handle ∈ log := by
    intro log other member
    obtain ⟨op, answer, inLog, chosen⟩ := System.mem_ownCalls.mp member
    cases accountCall_cases chosen
    exact ⟨_, _, _, inLog⟩
  obtain ⟨request, started, permitted⟩ := (accounts_execute events).calls front thread
    (.stats instanceId (.write handle change)) answer back split
  rcases (permitted counts).2 with answered | ⟨worker, hash, nonce, blueScore, rfl⟩
  · exact ⟨thread, given answered⟩
  · obtain ⟨before, after, rfl⟩ := List.append_of_mem started
    rw [List.append_assoc, List.cons_append] at split
    obtain ⟨spawner, member⟩ := spawned _ _ _ _ _ _ _ _ _ split
    obtain ⟨early, late, rfl⟩ := List.append_of_mem member
    rw [List.append_assoc, List.cons_append] at split
    obtain ⟨_, -, answered⟩ := (accounts_execute events).calls early spawner
      (.spawnConfirm instanceId handle worker hash nonce blueScore) () _ split
    obtain ⟨uid, key, now, inEarly⟩ := given answered
    exact ⟨spawner, uid, key, now,
      List.mem_append_left _ (List.mem_append_left _ inEarly)⟩

/-- What the log of a run says about a handler's statistics. -/
structure StatsInvariant (instanceId : Nat) (tally : Tally) (store : StatsStore)
    (log : Record deployment) : Prop where
  closed : store.Closed
  given : ∀ thread uid key now handle,
    .did thread (.getCreateStats instanceId uid key now) handle ∈ log → handle < store.next
  workers : store.total tally = (System.callsOf (workerCounts instanceId tally) log).length

/-- Starts and finishes touch no statistics. -/
theorem StatsInvariant.quiet {instanceId : Nat} {tally : Tally} {store : StatsStore}
    {log : Record deployment} (invariant : StatsInvariant instanceId tally store log)
    {entry : (bridge deployment).Entry} (quiet : ∀ thread op answer, entry ≠ .did thread op answer) :
    StatsInvariant instanceId tally store (log ++ [entry]) := by
  refine ⟨invariant.closed, fun thread uid key now handle member => ?_, ?_⟩
  · rcases List.mem_append.mp member with earlier | last
    · exact invariant.given thread uid key now handle earlier
    · exact absurd (List.mem_singleton.mp last).symm (quiet _ _ _)
  · rw [invariant.workers, System.callsOf_append, List.length_append]
    cases entry with
    | started | finished => rfl
    | did thread op answer => exact absurd rfl (quiet thread op answer)

/-- A call keeps what the log says, if it writes through handles given out only. -/
theorem StatsInvariant.call {instanceId : Nat} {tally : Tally} {log : Record deployment}
    {state after : BridgeState} {env : Env} {op : BridgeOp} {answer : op.Answer} (thread : Nat)
    (invariant : StatsInvariant instanceId tally (state.stats instanceId) log)
    (performed : performOp state env op = some (answer, after))
    (given : ∀ handle change, op = .stats instanceId (.write handle change) →
      change.tally.isSome = true → ∃ other uid key now,
        .did other (.getCreateStats instanceId uid key now) handle ∈ log) :
    StatsInvariant instanceId tally (after.stats instanceId) (log ++ [.did thread op answer]) := by
  have moved := congrFun (performOp_stats performed) instanceId
  have kept : (after.stats instanceId).Closed ∧
      (state.stats instanceId).next ≤ (after.stats instanceId).next := by
    rw [moved]
    cases op with
    | stats other op =>
        by_cases same : other = instanceId
        · subst same
          simp only [BridgeOp.statsAfter, Function.update_self]
          exact ⟨StatsStore.act_closed invariant.closed op, (StatsStore.act_next op).ge⟩
        · simp only [BridgeOp.statsAfter, Function.update_of_ne (Ne.symm same)]
          exact ⟨invariant.closed, Nat.le_refl _⟩
    | getCreateStats other uid key now =>
        by_cases same : other = instanceId
        · subst same
          simp only [BridgeOp.statsAfter, Function.update_self]
          exact ⟨StatsStore.getOrCreate_closed _ _ _ invariant.closed,
            StatsStore.next_le_getOrCreate ..⟩
        · simp only [BridgeOp.statsAfter, Function.update_of_ne (Ne.symm same)]
          exact ⟨invariant.closed, Nat.le_refl _⟩
    | _ => exact ⟨invariant.closed, Nat.le_refl _⟩
  refine ⟨kept.1, fun other uid key now handle member => ?_, ?_⟩
  · rcases List.mem_append.mp member with earlier | last
    · exact Nat.lt_of_lt_of_le (invariant.given other uid key now handle earlier) kept.2
    · cases List.mem_singleton.mp last
      cases performed
      simp only [Function.update_self]
      exact StatsStore.getOrCreate_created _ _ _ invariant.closed
  · rw [total_moves performed instanceId tally ?_, invariant.workers, System.callsOf_append,
      List.length_append, System.callsOf_did]
    intro handle change same counts
    obtain ⟨other, uid, key, now, member⟩ := given handle change same counts
    exact invariant.given other uid key now handle member

theorem statsInvariant_execute (spawned : ConfirmsSpawned (System.execute events).log)
    (instanceId : Nat) (tally : Tally) :
    StatsInvariant instanceId tally ((System.execute events).state.stats instanceId)
      (System.execute events).log := by
  -- The invariant needs the calls of the whole run so far to be permitted.
  refine System.execute_induction (fun config : (bridge deployment).Config =>
    ∀ rest, (System.execute events).log = config.log ++ rest →
      StatsInvariant instanceId tally (config.state.stats instanceId) config.log) ?_ ?_
    (System.along_true : System.Along (fun _ _ => True) events) [] (List.append_nil _).symm
  · intro rest _
    exact ⟨fun key handle found => (nomatch found),
      fun _ _ _ _ _ absurdity => absurd absurdity List.not_mem_nil, rfl⟩
  · intro config event after ih _ step rest split
    have before : ∀ {entry : (bridge deployment).Entry},
        (System.execute events).log = config.log ++ [entry] ++ rest →
          StatsInvariant instanceId tally (config.state.stats instanceId) config.log := by
      intro entry whole
      exact ih (entry :: rest) (by rw [whole, List.append_assoc, List.singleton_append])
    cases step with
    | stutter => exact ih rest split
    | start request => exact (before split).quiet fun _ _ _ absurdity => nomatch absurdity
    | finish thread env result running =>
        exact (before split).quiet fun _ _ _ absurdity => nomatch absurdity
    | call thread env op next answer state running performed =>
        refine (before split).call thread performed ?_
        rintro handle change rfl counts
        rw [List.append_assoc, List.singleton_append] at split
        exact handle_given spawned split counts

/-- The handler's counter counts its updates. -/
theorem overall_execute (instanceId : Nat) (tally : Tally) :
    tally.of ((System.execute events).state.stats instanceId).overall =
      (System.callsOf (overallCounts instanceId tally) (System.execute events).log).length := by
  have replayed := @System.view_eq_replay (bridge deployment) _ _ (overallCounts instanceId tally)
    (fun state => tally.of (state.stats instanceId).overall) (fun count _ => count + 1)
    (fun _ _ _ _ _ performed => overall_moves performed instanceId tally) events
  rw [replayed, List.foldl_add_const]
  have initial : tally.of ((bridge deployment).initial.stats instanceId).overall = 0 := by
    cases tally <;> rfl
  rw [initial, Nat.zero_add, Nat.one_mul]

/-- Between updates the handler's counters are the sums of its workers' counters. -/
theorem total_execute (spawned : ConfirmsSpawned (System.execute events).log) (instanceId : Nat)
    (tally : Tally) :
    ∃ pending : Finset Nat, (∀ thread ∈ pending, (System.execute events).running thread ≠ none) ∧
      ((System.execute events).state.stats instanceId).total tally =
        tally.of ((System.execute events).state.stats instanceId).overall + pending.card := by
  obtain ⟨pending, running, balance⟩ := counts_balance events instanceId tally
  refine ⟨pending, running, ?_⟩
  rw [(statsInvariant_execute spawned instanceId tally).workers, overall_execute, balance]

end Run

/-! ## Submissions -/

/-- An update of a counter: the handler, the worker's statistics unless it is the handler's
own counter, and which counter. -/
def counterUpdate : (op : BridgeOp) → op.Answer → Option (Nat × Option Nat × Tally)
  | .stats instanceId (.write handle change), _ =>
      change.tally.map fun tally => (instanceId, some handle, tally)
  | .stats instanceId (.writeOverall change), _ =>
      change.tally.map fun tally => (instanceId, none, tally)
  | _, _ => none

/-- The difficulty a share is reported with. -/
def shareCredit : (op : BridgeOp) → op.Answer → Option ℚ
  | .emit (.shareCredited _ _ difficulty _ _), _ => some difficulty.value
  | _, _ => none

def AccountCall.update : AccountCall → Option (Nat × Option Nat × Tally)
  | .cell instanceId handle tally => some (instanceId, some handle, tally)
  | .overall instanceId tally => some (instanceId, none, tally)
  | _ => none

def AccountCall.credit : AccountCall → Option ℚ
  | .credited difficulty => some difficulty
  | _ => none

theorem counterUpdate_eq (op : BridgeOp) (answer : op.Answer) :
    counterUpdate op answer = (accountCall op answer).bind AccountCall.update := by
  cases op with
  | stats other op =>
      cases op with
      | write handle change =>
          change change.tally.map _ = (change.tally.map (AccountCall.cell other handle)).bind _
          cases change.tally <;> rfl
      | writeOverall change =>
          change change.tally.map _ = (change.tally.map (AccountCall.overall other)).bind _
          cases change.tally <;> rfl
      | _ => rfl
  | context uid op => cases op <;> rfl
  | ring uid op => cases op <;> rfl
  | emit event => cases event <;> rfl
  | _ => rfl

theorem shareCredit_eq (op : BridgeOp) (answer : op.Answer) :
    shareCredit op answer = (accountCall op answer).bind AccountCall.credit := by
  cases op with
  | stats other op =>
      cases op with
      | write handle change =>
          change none = (change.tally.map (AccountCall.cell other handle)).bind _
          cases change.tally <;> rfl
      | writeOverall change =>
          change none = (change.tally.map (AccountCall.overall other)).bind _
          cases change.tally <;> rfl
      | _ => rfl
  | context uid op => cases op <;> rfl
  | ring uid op => cases op <;> rfl
  | emit event => cases event <;> rfl
  | _ => rfl

theorem ownCalls_counterUpdate (thread : Nat) (log : Record deployment) :
    System.ownCalls counterUpdate thread log =
      (System.ownCalls accountCall thread log).filterMap AccountCall.update := by
  rw [← System.ownCalls_bind]
  exact congrArg (System.ownCalls · thread log)
    (funext fun op => funext fun answer => counterUpdate_eq op answer)

theorem ownCalls_shareCredit (thread : Nat) (log : Record deployment) :
    System.ownCalls shareCredit thread log =
      (System.ownCalls accountCall thread log).filterMap AccountCall.credit := by
  rw [← System.ownCalls_bind]
  exact congrArg (System.ownCalls · thread log)
    (funext fun op => funext fun answer => shareCredit_eq op answer)

section Picks

variable {calls : List AccountCall}

theorem filterMap_update_of_noise (noise : ∀ call ∈ calls, call.Noise) :
    calls.filterMap AccountCall.update = [] := by
  refine List.filterMap_eq_nil_iff.mpr fun call member => ?_
  cases call with
  | cell | overall => exact absurd (noise _ member) id
  | _ => rfl

theorem filterMap_credit_of_noise (noise : ∀ call ∈ calls, call.Noise) :
    calls.filterMap AccountCall.credit = [] := by
  refine List.filterMap_eq_nil_iff.mpr fun call member => ?_
  cases call with
  | credited => exact absurd (noise _ member) id
  | _ => rfl

theorem noise_of_idle (idle : ∀ call ∈ calls, call.Idle) : ∀ call ∈ calls, call.Noise :=
  fun call member => (idle call member).noise

theorem creditReport_update (wallet worker : Text) (difficulty : ℚ) :
    (creditReport wallet worker difficulty).filterMap AccountCall.update = [] := by
  unfold creditReport
  split <;> rfl

theorem creditReport_credit (wallet worker : Text) (difficulty : ℚ) :
    (creditReport wallet worker difficulty).filterMap AccountCall.credit =
      if validWallet wallet = true ∧ validWorker worker = true ∧ 0 < difficulty then [difficulty]
      else [] := by
  unfold creditReport
  split <;> rfl

theorem Rejects.update (rejects : Rejects calls) :
    ∃ instanceId handle tally, (tally = .stale ∨ tally = .invalid) ∧
      calls.filterMap AccountCall.update =
        [(instanceId, some handle, tally), (instanceId, none, tally)] := by
  obtain ⟨instanceId, handle, tally, before, after, rfl, which, noise, idle⟩ := rejects
  refine ⟨instanceId, handle, tally, which, ?_⟩
  simp only [List.filterMap_append, List.filterMap_cons, filterMap_update_of_noise noise,
    filterMap_update_of_noise (noise_of_idle idle), AccountCall.update, List.nil_append]

variable {uid id : Nat} {diff : Option KaspaDiff} {wallet worker : Text}

theorem Credits.update (credits : Credits calls uid id diff wallet worker) :
    ∃ instanceId handle, calls.filterMap AccountCall.update =
      [(instanceId, some handle, .shares), (instanceId, none, .shares)] := by
  obtain ⟨instanceId, handle, before, measured, first, second, reads, rfl, noise, measures, idle, -,
    -⟩ := credits.shape
  refine ⟨instanceId, handle, ?_⟩
  simp only [List.filterMap_append, List.filterMap_cons, filterMap_update_of_noise noise,
    filterMap_update_of_noise (noise_of_idle measures.idle), List.cons_append,
    filterMap_update_of_noise (noise_of_idle idle), AccountCall.update, creditReport_update,
    List.nil_append]

/-- The difficulty of the share was looked up by the number of its job. -/
theorem Credits.resolved (credits : Credits calls uid id diff wallet worker) :
    ∃ held, .resolved uid id held ∈ calls := by
  obtain ⟨instanceId, handle, before, measured, first, second, reads, rfl, -, measures, -⟩ :=
    credits.shape
  have member : ∃ held, .resolved uid id held ∈ measured := by
    cases measures <;> exact ⟨_, List.mem_cons_self⟩
  obtain ⟨held, inReads⟩ := member
  refine ⟨held, ?_⟩
  simp only [List.append_assoc, List.cons_append, List.mem_append, List.mem_cons, inReads, true_or,
    or_true]

/-- What a task reports of the share it counted. -/
theorem Credits.credit (credits : Credits calls uid id diff wallet worker) :
    calls.filterMap AccountCall.credit =
      if validWallet wallet = true ∧ validWorker worker = true ∧ 0 < assignedDiff diff then
        [assignedDiff diff]
      else [] := by
  obtain ⟨instanceId, handle, before, measured, first, second, reads, rfl, noise, measures, idle, -,
    -⟩ := credits.shape
  simp only [List.filterMap_append, List.filterMap_cons, filterMap_credit_of_noise noise,
    filterMap_credit_of_noise (noise_of_idle measures.idle),
    filterMap_credit_of_noise (noise_of_idle idle), AccountCall.credit, creditReport_credit,
    List.nil_append]

end Picks

/-- The difficulty stored with a job of a connection. -/
def storedDiff (uid id : Nat) (log : Record deployment) : Option KaspaDiff :=
  ((ringLog uid log).entries[id - 1]?).bind Prod.snd

/-- **Accounting.** The sums of the workers' counters are ahead of the handler's counters by
at most the updates that running tasks have not completed. A submission that evaluated a
proof of work counts once by the time it finishes. A credited share is reported once, with
the difficulty stored with its job, if and only if the names then read are acceptable, the
difficulty is positive, and the difficulty then on record is the one stored. -/
theorem accounting_conserved (events : List (bridge deployment).Event)
    (spawned : ConfirmsSpawned (System.execute events).log) :
    (∀ instanceId tally, ∃ pending : Finset Nat,
      (∀ thread ∈ pending, (System.execute events).running thread ≠ none) ∧
        ((System.execute events).state.stats instanceId).total tally =
          tally.of ((System.execute events).state.stats instanceId).overall + pending.card) ∧
    ∀ thread uid event result, .started thread (.submit uid event) ∈ (System.execute events).log →
      .finished thread result ∈ (System.execute events).log →
      ((∃ block nonce answer,
          .did thread (.checkPow block nonce) answer ∈ (System.execute events).log) →
        ∃ instanceId handle tally, (tally = .shares ∨ tally = .stale ∨ tally = .invalid) ∧
          System.ownCalls counterUpdate thread (System.execute events).log =
            [(instanceId, some handle, tally), (instanceId, none, tally)]) ∧
      ((∃ instanceId, (instanceId, none, .shares) ∈
          System.ownCalls counterUpdate thread (System.execute events).log) →
        ∃ id diff wallet worker,
          Credits (System.ownCalls accountCall thread (System.execute events).log) uid id diff wallet
            worker ∧
          ((∃ stored, storedDiff uid id (System.execute events).log = some stored ∧
              System.ownCalls shareCredit thread (System.execute events).log = [stored.diffValue]) ↔
            validWallet wallet = true ∧ validWorker worker = true ∧
              ∃ stored, storedDiff uid id (System.execute events).log = some stored ∧
                0 < stored.diffValue ∧ assignedDiff diff = stored.diffValue)) := by
  refine ⟨fun instanceId tally => total_execute spawned instanceId tally, ?_⟩
  intro thread uid event result started finished
  obtain ⟨front, back, split⟩ := List.append_of_mem finished
  obtain ⟨request, alsoStarted, completes⟩ :=
    (accounts_execute events).finishes front thread result back split
  obtain rfl := System.started_unique started (split ▸ List.mem_append_left _ alsoStarted)
  rw [← System.ownCalls_of_finished split] at completes
  have evaluated : (∃ block nonce answer, .did thread (.checkPow block nonce) answer ∈
      (System.execute events).log) →
        AccountCall.checked ∈ System.ownCalls accountCall thread (System.execute events).log := by
    rintro ⟨block, nonce, answer, member⟩
    exact System.mem_ownCalls.mpr ⟨_, _, member, rfl⟩
  rw [ownCalls_counterUpdate, ownCalls_shareCredit]
  generalize System.ownCalls accountCall thread (System.execute events).log = calls
    at completes evaluated
  rcases completes with idle | rejects | ⟨id, diff, wallet, worker, credits⟩
  · refine ⟨fun checks => False.elim (idle _ (evaluated checks)), ?_⟩
    rintro ⟨instanceId, member⟩
    rw [filterMap_update_of_noise (noise_of_idle idle)] at member
    exact absurd member List.not_mem_nil
  · obtain ⟨instanceId, handle, tally, which, updates⟩ := rejects.update
    refine ⟨fun _ => ⟨instanceId, handle, tally, Or.inr which, updates⟩, ?_⟩
    rintro ⟨counter, member⟩
    rw [updates] at member
    rcases which with rfl | rfl <;> simp at member
  · obtain ⟨instanceId, handle, updates⟩ := credits.update
    refine ⟨fun _ => ⟨instanceId, handle, .shares, Or.inl rfl, updates⟩,
      fun _ => ⟨id, diff, wallet, worker, credits, ?_⟩⟩
    rw [credits.credit]
    constructor
    · rintro ⟨stored, found, reported⟩
      obtain ⟨⟨named, labelled, positive⟩, same⟩ :=
        (ite_eq_iff.mp reported).resolve_right fun none => nomatch none.2
      have equal : assignedDiff diff = stored.diffValue := (List.cons.inj same).1
      exact ⟨named, labelled, stored, found, equal ▸ positive, equal⟩
    · rintro ⟨named, labelled, stored, found, positive, equal⟩
      refine ⟨stored, found, ?_⟩
      rw [if_pos ⟨named, labelled, equal ▸ positive⟩, equal]

/-- A share measured while its job is retained is measured by the difficulty stored with
the job. -/
theorem slotDiff_stored {events : List (bridge deployment).Event} {front back : Record deployment}
    {thread uid id : Nat} {diff : Option KaspaDiff}
    (split : (System.execute events).log = front ++ .did thread (.ring uid (.slotDiff id)) diff :: back)
    (room : (addedJobs uid front).length < 2 ^ 64)
    (retained : MiningState.Retained (ringLog uid front) id) : diff = storedDiff uid id front := by
  obtain ⟨state, refines, rfl⟩ := ring_answer split room
  have found := refines.getJobDiff id
  rw [if_pos retained, MiningState.getJobDiff, if_pos ((refines.jobIds_lookup id).mpr retained)]
    at found
  exact found

end Model

section Sample

attribute [local instance] Sample.platform

namespace Sample

/-- The start of a confirmation task. -/
def confirms {payout : Option Text} : (bridge (deployment payout)).Entry → Bool
  | .started _ (.confirmBlock _ _ _ _ _ _) => true
  | _ => false

theorem confirmsSpawned_of_none {payout : Option Text} {log : Record (deployment payout)}
    (none : log.any confirms = false) : ConfirmsSpawned log := by
  rintro front thread instanceId handle worker hash nonce blueScore back rfl
  have found : (front ++ .started thread (.confirmBlock instanceId handle worker hash nonce
      blueScore) :: back).any confirms = true :=
    List.any_eq_true.mpr ⟨_, List.mem_append_right _ List.mem_cons_self, rfl⟩
  exact nomatch none.symm.trans found

/-- The task finished without an error. -/
def succeeds {payout : Option Text} (thread : Nat) : (bridge (deployment payout)).Entry → Bool
  | .finished other (.handled (.ok ())) => decide (other = thread)
  | _ => false

theorem finished_of_succeeds {payout : Option Text} {log : Record (deployment payout)}
    {thread : Nat} (ended : log.any (succeeds thread) = true) :
    .finished thread (.handled (.ok ())) ∈ log := by
  obtain ⟨entry, member, ends⟩ := List.any_eq_true.mp ended
  unfold succeeds at ends
  split at ends
  · obtain rfl := of_decide_eq_true ends
    exact member
  · exact nomatch ends

/-- The authorization under a worker name. -/
def authorization (worker : Text) : SubmitEvent :=
  ⟨none, [.string ("kaspa:qqqqqqq.".toList ++ worker)]⟩

/-- A miner authorizes and gets a job. -/
def authorizedRun (worker : Text) : List (bridge (deployment none)).Event :=
  [.start (.authorize 1 (authorization worker))]
    ++ steps none 0 48 { template := .block easyBlock, correlationId := 1 }
    ++ steps none 0 36 { template := .block easyParent, correlationId := 1 }

/-- The miner's submission. -/
def solution : SubmitEvent := ⟨none, [.string [], .string ['1'], .string ['5']]⟩

theorem namedRun_eq (worker : Text) :
    namedRun worker = authorizedRun worker ++ .start (.submit 1 solution) ::
      steps none 1 90 { correlationId := 2 } := by
  rw [namedRun, authorizedRun, List.append_assoc _ [_] _]
  rfl

theorem authorization_started (worker : Text) :
    .started 0 (.authorize 1 (authorization worker)) ∈
      (System.execute (authorizedRun worker)).log := by
  obtain ⟨back, split⟩ := @System.log_of_start (bridge (deployment none)) []
    (steps none 0 48 { template := .block easyBlock, correlationId := 1 }
      ++ steps none 0 36 { template := .block easyParent, correlationId := 1 })
    (.authorize 1 (authorization worker))
  rw [authorizedRun, List.append_assoc]
  refine split.symm ▸ List.mem_append_right _ List.mem_cons_self

/-- The log of the run around the start of the submission. -/
theorem namedRun_log (worker : Text) (one : (System.execute (authorizedRun worker)).count = 1) :
    ∃ back, (System.execute (namedRun worker)).log =
      (System.execute (authorizedRun worker)).log ++ .started 1 (.submit 1 solution) :: back := by
  obtain ⟨back, split⟩ := System.log_of_start (authorizedRun worker)
    (steps none 1 90 { correlationId := 2 }) (.submit 1 solution)
  rw [one] at split
  exact ⟨back, (congrArg (fun run => (System.execute run).log) (namedRun_eq worker)).trans split⟩

/-- The jobs whose difficulty is looked up. -/
def lookedUpJob : (op : BridgeOp) → op.Answer → Option Nat
  | .ring _ (.resolves id), _ => some id
  | _, _ => none

/-- Under the worker name `r` the share on job 1 is reported with the difficulty stored with
the job, under names that are acceptable. -/
theorem accounting_conserved_sample : ∃ diff wallet worker,
    Credits (System.ownCalls accountCall 1 (System.execute (namedRun ['r'])).log) 1 1 diff wallet
      worker ∧ validWallet wallet = true ∧ validWorker worker = true := by
  have spawned : ConfirmsSpawned (System.execute (namedRun ['r'])).log :=
    confirmsSpawned_of_none (by decide +kernel)
  obtain ⟨back, split⟩ := namedRun_log ['r'] (by decide +kernel)
  have started : .started 1 (.submit 1 solution) ∈ (System.execute (namedRun ['r'])).log := by
    rw [split]
    exact List.mem_append_right _ List.mem_cons_self
  obtain ⟨-, counted⟩ := (accounting_conserved (namedRun ['r']) spawned).2 1 1 solution _ started
    (finished_of_succeeds (by decide +kernel))
  have updates : System.ownCalls counterUpdate 1 (System.execute (namedRun ['r'])).log =
      [(0, some 0, .shares), (0, none, .shares)] := by
    decide +kernel
  obtain ⟨id, diff, wallet, worker, credits, reported⟩ :=
    counted ⟨0, by rw [updates]; exact List.mem_cons_of_mem _ List.mem_cons_self⟩
  have looked : System.ownCalls lookedUpJob 1 (System.execute (namedRun ['r'])).log = [1] := by
    decide +kernel
  obtain rfl : id = 1 := by
    obtain ⟨held, member⟩ := credits.resolved
    obtain ⟨op, answer, inLog, chosen⟩ := System.mem_ownCalls.mp member
    cases accountCall_cases chosen
    have listed : id ∈ System.ownCalls lookedUpJob 1 (System.execute (namedRun ['r'])).log :=
      System.mem_ownCalls.mpr ⟨_, _, inLog, rfl⟩
    rw [looked] at listed
    exact List.mem_singleton.mp listed
  have credit : ∃ stored, storedDiff 1 1 (System.execute (namedRun ['r'])).log = some stored ∧
      System.ownCalls shareCredit 1 (System.execute (namedRun ['r'])).log = [stored.diffValue] :=
    ⟨.ofDiffValue .standard 64, by decide +kernel, by decide +kernel⟩
  obtain ⟨named, labelled, -⟩ := reported.mp credit
  exact ⟨diff, wallet, worker, credits, named, labelled⟩

/-- Under the worker name `r g`, stored by a successful authorize, the share is counted and
not reported. -/
theorem accounting_unreported :
    ¬ ∀ events : List (bridge (deployment none)).Event,
      ConfirmsSpawned (System.execute events).log →
      ∀ front authorizer request thread uid event result back, (System.execute events).log =
          front ++ .started thread (.submit uid event) :: back →
        .started authorizer (.authorize uid request) ∈ front →
        .finished authorizer (.handled (.ok ())) ∈ front →
        .finished thread result ∈ (System.execute events).log →
        (∃ instanceId, (instanceId, none, .shares) ∈
          System.ownCalls counterUpdate thread (System.execute events).log) →
        ∃ difficulty, System.ownCalls shareCredit thread (System.execute events).log =
          [difficulty] := by
  intro claim
  have spawned : ConfirmsSpawned (System.execute (namedRun ['r', ' ', 'g'])).log :=
    confirmsSpawned_of_none (by decide +kernel)
  obtain ⟨back, split⟩ := namedRun_log ['r', ' ', 'g'] (by decide +kernel)
  have updates : System.ownCalls counterUpdate 1 (System.execute (namedRun ['r', ' ', 'g'])).log =
      [(0, some 0, .shares), (0, none, .shares)] := by
    decide +kernel
  have silent : System.ownCalls shareCredit 1 (System.execute (namedRun ['r', ' ', 'g'])).log =
      [] := by
    decide +kernel
  obtain ⟨difficulty, reported⟩ := claim (namedRun ['r', ' ', 'g']) spawned _ 0
    (authorization ['r', ' ', 'g']) 1 1 solution _ back split (authorization_started _)
    (finished_of_succeeds (by decide +kernel)) (finished_of_succeeds (by decide +kernel))
    ⟨0, by rw [updates]; exact List.mem_cons_of_mem _ List.mem_cons_self⟩
  rw [silent] at reported
  exact nomatch reported

end Sample

end Sample

end StratumBridge
