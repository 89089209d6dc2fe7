import StratumBridge.Bridge.Accounting
import StratumBridge.Bridge.VardiffProtocol
import StratumBridge.Foundation.Headcount

/-! # Entries and hands

The statistics of a handler have an entry for each worker, which counts the connections registered
under its wallet and name. What a task has in hand says how far it has come with its connection,
and how the count of the entry relates to it.
-/

namespace StratumBridge

open Interaction

section Model

/-! ## The entries of a handler -/

namespace StatsStore

variable {store : StatsStore} {key : Text} {handle now : Nat} {seeded : ℚ}

/-- Pruning keeps the entries that are worth keeping. -/
theorem lookup_prune : (store.prune now).index.lookup key = some handle ↔
    store.index.lookup key = some handle ∧ (store.cells handle).shouldRetain now = true := by
  change handle ∈ (store.prune now).index.lookup key ↔ handle ∈ store.index.lookup key ∧ _
  rw [AList.mem_lookup_iff, AList.mem_lookup_iff]
  exact List.mem_filter

/-- Setting the statistics of an entry sets its count. -/
theorem active_setCell (store : StatsStore) (handle : Nat) (stats : WorkStats) :
    (fun other => ((store.setCell handle stats).cells other).activeConnections) =
      Function.update (fun other => (store.cells other).activeConnections) handle
        stats.activeConnections :=
  Function.comp_update (fun stats : WorkStats => stats.activeConnections) store.cells handle stats

/-- An entry is found, or made where there was none. -/
theorem getOrCreate_lookup (store : StatsStore) (key : Text) (now : Nat) (seeded : ℚ) :
    (store.getOrCreate key now seeded).2.index.lookup key =
      some (store.getOrCreate key now seeded).1 := by
  unfold getOrCreate
  split
  · next found => exact found
  · exact AList.lookup_insert _

/-- The entries there are stay. -/
theorem getOrCreate_lookup_of_some (found : store.index.lookup key = some handle) (other : Text) :
    (store.getOrCreate other now seeded).2.index.lookup key = some handle := by
  unfold getOrCreate
  split
  · exact found
  · next missing =>
      have different : key ≠ other := by
        rintro rfl
        cases missing.symm.trans found
      exact (AList.lookup_insert_ne different).trans found

/-- A new entry counts no one. -/
theorem getOrCreate_counts {keys : Nat → Text} {members : Finset Nat} (closed : store.Closed)
    (counts : Headcount.Exact (fun key => store.index.lookup key)
      (fun handle => (store.cells handle).activeConnections) keys members)
    (key : Text) (now : Nat) (seeded : ℚ) :
    Headcount.Exact (fun other => (store.getOrCreate key now seeded).2.index.lookup other)
      (fun handle => ((store.getOrCreate key now seeded).2.cells handle).activeConnections) keys
      members := by
  unfold getOrCreate
  split
  · exact counts
  · next missing =>
      have inserted : (fun other => (store.index.insert key store.next).lookup other) =
          Function.update (fun other => store.index.lookup other) key (some store.next) := by
        funext other
        by_cases same : other = key
        · subst same
          rw [AList.lookup_insert, Function.update_self]
        · rw [AList.lookup_insert_ne same, Function.update_of_ne same]
      have fresh : ∀ other, store.index.lookup other ≠ some store.next :=
        fun other found => Nat.lt_irrefl _ (closed other store.next found)
      simp only [inserted, active_setCell]
      have uncounted : (if 0 < seeded then { WorkStats.new now with minDiff := seeded }
          else WorkStats.new now).activeConnections = 0 := by
        split <;> rfl
      rw [uncounted]
      exact counts.create missing fresh

end StatsStore

variable [Platform] {deployment : Deployment}

/-- The entry of a key. -/
def entryOf (state : BridgeState) (instanceId : Nat) (key : Text) : Option Nat :=
  (state.stats instanceId).index.lookup key

/-- How many connections an entry counts. -/
def activeIn (state : BridgeState) (instanceId handle : Nat) : Nat :=
  ((state.stats instanceId).cells handle).activeConnections

/-- The key of a connection. -/
def keyIn (state : BridgeState) (uid : Nat) : Text := keyOf (state.contexts uid).identity

section Update

variable {state : BridgeState} {instanceId other : Nat} {store : StatsStore}

theorem entryOf_update :
    entryOf { state with stats := Function.update state.stats instanceId store } instanceId =
      fun key => store.index.lookup key := by
  funext key
  simp only [entryOf, Function.update_self]

theorem entryOf_update_of_ne (different : other ≠ instanceId) :
    entryOf { state with stats := Function.update state.stats instanceId store } other =
      entryOf state other := by
  funext key
  simp only [entryOf, Function.update_of_ne different]

theorem activeIn_update :
    activeIn { state with stats := Function.update state.stats instanceId store } instanceId =
      fun handle => (store.cells handle).activeConnections := by
  funext handle
  simp only [activeIn, Function.update_self]

theorem activeIn_update_of_ne (different : other ≠ instanceId) :
    activeIn { state with stats := Function.update state.stats instanceId store } other =
      activeIn state other := by
  funext handle
  simp only [activeIn, Function.update_of_ne different]

end Update

/-- A supplied worker name is not blank. -/
def Context.Named (context : Context) : Prop :=
  context.workerNameSupplied = true → Text.trim context.workerName ≠ []

/-! ## What a hand says -/

variable (deployment) in
/-- The entry of a connection. -/
def entryAt (state : BridgeState) (uid : Nat) : Option Nat :=
  entryOf state (handlerOf deployment uid) (keyIn state uid)

variable (deployment) in
/-- What the hand of a task says about the connection the task registers. -/
def Hand.Fits (state : BridgeState) (registered : Finset Nat) (uid : Nat) : Hand → Prop
  | .settled => (state.contexts uid).vardiffRegistered = true ↔ uid ∈ registered
  | .leaving seen => (state.contexts uid).vardiffRegistered = false ∧ uid ∈ registered ∧
      ∀ identity ∈ seen, identity = (state.contexts uid).identity
  | .closing handle => (state.contexts uid).vardiffRegistered = false ∧ uid ∈ registered ∧
      entryAt deployment state uid = some handle
  | .detached => (state.contexts uid).vardiffRegistered = false ∧ uid ∉ registered
  | .joining seen => (state.contexts uid).vardiffRegistered = true ∧ uid ∉ registered ∧
      ∀ identity ∈ seen, identity = (state.contexts uid).identity
  | .holding handle => (state.contexts uid).vardiffRegistered = true ∧ uid ∉ registered ∧
      entryAt deployment state uid = some handle

section Fits

variable {state after : BridgeState} {registered later : Finset Nat} {uid : Nat} {hand : Hand}

/-- A hand fits as long as the connection and the entry in hand stay. -/
theorem Hand.Fits.keep (fits : hand.Fits deployment state registered uid)
    (marked : (after.contexts uid).vardiffRegistered = (state.contexts uid).vardiffRegistered)
    (named : (after.contexts uid).identity = (state.contexts uid).identity)
    (member : uid ∈ later ↔ uid ∈ registered)
    (entry : ∀ handle, hand = .closing handle ∨ hand = .holding handle →
      entryAt deployment state uid = some handle → entryAt deployment after uid = some handle) :
    hand.Fits deployment after later uid := by
  cases hand with
  | settled | detached => simpa only [Hand.Fits, marked, member] using fits
  | leaving seen | joining seen => simpa only [Hand.Fits, marked, named, member] using fits
  | closing handle =>
      obtain ⟨released, inside, found⟩ := fits
      exact ⟨marked.trans released, member.mpr inside, entry handle (.inl rfl) found⟩
  | holding handle =>
      obtain ⟨claimed, outside, found⟩ := fits
      exact ⟨marked.trans claimed, mt member.mp outside, entry handle (.inr rfl) found⟩

/-- A hand at rest says that the mark is right. -/
theorem Hand.Fits.settle (fits : hand.Fits deployment state registered uid) (rest : hand.AtRest) :
    Hand.settled.Fits deployment state registered uid := by
  rcases rest with rfl | rfl
  · exact fits
  · obtain ⟨unmarked, outside⟩ := fits
    simp [Hand.Fits, unmarked, outside]

/-- Identities that were read spell the key of the connection. -/
theorem Spells.eq {seen : List (Text × Text)} {key : Text} (spells : Spells seen key)
    (current : ∀ identity ∈ seen, identity = (state.contexts uid).identity) :
    key = keyIn state uid := by
  obtain ⟨first, one, second, two, rfl⟩ := spells
  rw [current first one, current second two]
  rfl

end Fits

/-- A default label does not change the name of a connection. -/
theorem Context.ensureDefaultWorkerName_identity {context : Context} (named : context.Named) :
    context.ensureDefaultWorkerName.vardiffRegistered = context.vardiffRegistered ∧
      context.ensureDefaultWorkerName.identity = context.identity ∧
        context.ensureDefaultWorkerName.Named := by
  unfold Context.ensureDefaultWorkerName
  split
  · exact ⟨rfl, rfl, named⟩
  · next blank =>
      have unsupplied : context.workerNameSupplied ≠ true := fun supplied => blank (named supplied)
      refine ⟨rfl, ?_, fun supplied => absurd supplied unsupplied⟩
      simp [Context.identity, unsupplied]

/-! ## The invariant -/

variable (deployment) in
/-- The registered connections of a share handler. -/
def enrolled (registered : Finset Nat) (instanceId : Nat) : Finset Nat :=
  registered.filter fun uid => handlerOf deployment uid = instanceId

variable (deployment) in
/-- The entries are right about the registered connections, and the hands that running tasks hold
about theirs; no two tasks work on one connection. -/
structure Orderly (state : BridgeState) (registered : Finset Nat)
    (held : Nat → Option (Nat × Hand)) : Prop where
  closed : ∀ instanceId, (state.stats instanceId).Closed
  named : ∀ uid, (state.contexts uid).Named
  counts : ∀ instanceId, Headcount.Exact (entryOf state instanceId) (activeIn state instanceId)
    (keyIn state) (enrolled deployment registered instanceId)
  alone : ∀ thread other uid hand otherHand, held thread = some (uid, hand) →
    held other = some (uid, otherHand) → thread = other
  fits : ∀ thread uid hand, held thread = some (uid, hand) →
    hand.Fits deployment state registered uid
  idle : ∀ uid, (∀ thread hand, held thread ≠ some (uid, hand)) →
    Hand.settled.Fits deployment state registered uid

omit [Platform] in
theorem update_eq_some_iff {σ : Type} {held : Nat → Option σ} {thread other : Nat}
    {value : Option σ} {entry : σ} :
    Function.update held thread value other = some entry ↔
      (other = thread ∧ value = some entry) ∨ (other ≠ thread ∧ held other = some entry) := by
  rw [Function.update_apply]
  split <;> simp [*]

namespace Orderly

variable {state after : BridgeState} {registered later : Finset Nat}
  {held : Nat → Option (Nat × Hand)} {thread uid : Nat} {hand next : Hand}
  (orderly : Orderly deployment state registered held)
include orderly

/-- A registered connection has an entry. -/
theorem present (inside : uid ∈ registered) : ∃ handle, entryAt deployment state uid = some handle :=
  (orderly.counts _).present uid (Finset.mem_filter.mpr ⟨inside, rfl⟩)

/-- The entry of a registered connection counts it. -/
theorem pos {handle : Nat} (inside : uid ∈ registered)
    (found : entryAt deployment state uid = some handle) :
    0 < activeIn state (handlerOf deployment uid) handle :=
  (orderly.counts _).pos (Finset.mem_filter.mpr ⟨inside, rfl⟩) found

/-- A step between which all hands stay as they are. -/
theorem keep (closed : ∀ instanceId, (after.stats instanceId).Closed)
    (contexts : ∀ uid,
      (after.contexts uid).vardiffRegistered = (state.contexts uid).vardiffRegistered ∧
      (after.contexts uid).identity = (state.contexts uid).identity ∧ (after.contexts uid).Named)
    (counts : ∀ instanceId, Headcount.Exact (entryOf after instanceId) (activeIn after instanceId)
      (keyIn state) (enrolled deployment registered instanceId))
    (entry : ∀ thread uid hand handle, held thread = some (uid, hand) →
      hand = .closing handle ∨ hand = .holding handle →
        entryOf state (handlerOf deployment uid) (keyIn state uid) = some handle →
          entryOf after (handlerOf deployment uid) (keyIn state uid) = some handle) :
    Orderly deployment after registered held := by
  have keys : ∀ uid, keyIn after uid = keyIn state uid :=
    fun uid => congrArg keyOf (contexts uid).2.1
  refine ⟨closed, fun uid => (contexts uid).2.2, fun instanceId =>
    (counts instanceId).rekey fun uid _ => keys uid, orderly.alone, ?_, ?_⟩
  · intro thread uid hand holds
    refine (orderly.fits thread uid hand holds).keep (contexts uid).1 (contexts uid).2.1 Iff.rfl ?_
    intro handle inHand found
    rw [entryAt, keys uid]
    exact entry thread uid hand handle holds inHand found
  · intro uid free
    refine (orderly.idle uid free).keep (contexts uid).1 (contexts uid).2.1 Iff.rfl ?_
    rintro handle (absurdity | absurdity) <;> cases absurdity

/-- A step of a task on the connection it works on. -/
theorem turn (known : held thread = some (uid, hand))
    (closed : ∀ instanceId, (after.stats instanceId).Closed)
    (named : ∀ uid, (after.contexts uid).Named)
    (counts : ∀ instanceId, Headcount.Exact (entryOf after instanceId) (activeIn after instanceId)
      (keyIn after) (enrolled deployment later instanceId))
    (elsewhere : ∀ other, other ≠ uid → after.contexts other = state.contexts other ∧
      (other ∈ later ↔ other ∈ registered))
    (entry : ∀ instanceId key, entryOf after instanceId key = entryOf state instanceId key)
    (fits : next.Fits deployment after later uid) :
    Orderly deployment after later (Function.update held thread (some (uid, next))) := by
  have stays : ∀ other (hand : Hand), other ≠ uid → hand.Fits deployment state registered other →
      hand.Fits deployment after later other := by
    intro other hand different fits
    obtain ⟨same, member⟩ := elsewhere other different
    refine fits.keep (by rw [same]) (by rw [same]) member fun handle _ found => ?_
    rw [entryAt, entry, keyIn, same]
    exact found
  refine ⟨closed, named, counts, ?_, ?_, ?_⟩
  · intro first second conn hand other one two
    rcases update_eq_some_iff.mp one with ⟨rfl, same⟩ | ⟨here, early⟩ <;>
      rcases update_eq_some_iff.mp two with ⟨rfl, again⟩ | ⟨there, late⟩
    · rfl
    · cases same
      exact orderly.alone _ _ _ _ _ known late
    · cases again
      exact orderly.alone _ _ _ _ _ early known
    · exact orderly.alone _ _ _ _ _ early late
  · intro other conn hand isHeld
    rcases update_eq_some_iff.mp isHeld with ⟨rfl, same⟩ | ⟨here, early⟩
    · cases same
      exact fits
    · refine stays conn hand ?_ (orderly.fits other conn hand early)
      rintro rfl
      exact here (orderly.alone _ _ _ _ _ early known)
  · intro other free
    have different : other ≠ uid := by
      rintro rfl
      exact free thread next (Function.update_self ..)
    refine stays other _ different (orderly.idle other fun task hand isHeld => ?_)
    by_cases here : task = thread
    · subst here
      rw [known] at isHeld
      cases isHeld
      exact different rfl
    · exact free task hand (update_eq_some_iff.mpr (.inr ⟨here, isHeld⟩))

/-- A task takes a connection that no task works on. -/
theorem take (free : ∀ other hand, held other ≠ some (uid, hand)) (idle : held thread = none) :
    Orderly deployment state registered (Function.update held thread (some (uid, .settled))) := by
  refine ⟨orderly.closed, orderly.named, orderly.counts, ?_, ?_, ?_⟩
  · intro first second conn hand other one two
    rcases update_eq_some_iff.mp one with ⟨rfl, same⟩ | ⟨-, early⟩ <;>
      rcases update_eq_some_iff.mp two with ⟨rfl, again⟩ | ⟨-, late⟩
    · rfl
    · cases same
      exact absurd late (free _ _)
    · cases again
      exact absurd early (free _ _)
    · exact orderly.alone _ _ _ _ _ early late
  · intro other conn hand isHeld
    rcases update_eq_some_iff.mp isHeld with ⟨-, same⟩ | ⟨-, early⟩
    · cases same
      exact orderly.idle uid free
    · exact orderly.fits other conn hand early
  · intro other unheld
    refine orderly.idle other fun task hand isHeld => ?_
    by_cases here : task = thread
    · rw [here, idle] at isHeld
      cases isHeld
    · exact unheld task hand (update_eq_some_iff.mpr (.inr ⟨here, isHeld⟩))

/-- A task whose hand is at rest leaves its connection. -/
theorem leave (known : held thread = some (uid, hand)) (rest : hand.AtRest) :
    Orderly deployment state registered (Function.update held thread none) := by
  have holds : ∀ {other : Nat} {entry : Nat × Hand},
      Function.update held thread none other = some entry → held other = some entry := by
    intro other entry isHeld
    rcases update_eq_some_iff.mp isHeld with ⟨-, absurdity⟩ | ⟨-, early⟩
    · cases absurdity
    · exact early
  refine ⟨orderly.closed, orderly.named, orderly.counts,
    fun first second conn hand other one two => orderly.alone _ _ _ _ _ (holds one) (holds two),
    fun other conn hand isHeld => orderly.fits other conn hand (holds isHeld), fun other free => ?_⟩
  by_cases own : other = uid
  · subst own
    exact (orderly.fits thread _ hand known).settle rest
  · refine orderly.idle other fun task hand isHeld => ?_
    by_cases here : task = thread
    · subst here
      rw [known] at isHeld
      cases isHeld
      exact own rfl
    · exact free task hand (update_eq_some_iff.mpr (.inr ⟨here, isHeld⟩))

/-! ## What a call does to it -/

section Contexts

/-- A step of a task on the record of its connection. -/
theorem turn_context {context : Context} (known : held thread = some (uid, hand))
    (named : context.Named)
    (identity : uid ∈ registered → context.identity = (state.contexts uid).identity)
    (fits : next.Fits deployment
      { state with contexts := Function.update state.contexts uid context } registered uid) :
    Orderly deployment { state with contexts := Function.update state.contexts uid context }
      registered (Function.update held thread (some (uid, next))) := by
  refine orderly.turn known orderly.closed ?_ (fun instanceId => ?_) ?_ (fun _ _ => rfl) fits
  · intro other
    by_cases same : other = uid
    · subst same
      simpa only [Function.update_self] using named
    · simpa only [Function.update_of_ne same] using orderly.named other
  · refine (orderly.counts instanceId).rekey fun other inside => ?_
    by_cases same : other = uid
    · subst same
      simp only [keyIn, Function.update_self, identity (Finset.mem_filter.mp inside).1]
    · simp only [keyIn, Function.update_of_ne same]
  · exact fun other different => ⟨Function.update_of_ne different .., Iff.rfl⟩

/-- A call on a connection that neither registers nor names it. -/
theorem keep_context {conn : Nat} {context : Context}
    (same : context.vardiffRegistered = (state.contexts conn).vardiffRegistered ∧
      context.identity = (state.contexts conn).identity ∧ context.Named) :
    Orderly deployment { state with contexts := Function.update state.contexts conn context }
      registered held := by
  refine orderly.keep orderly.closed (fun other => ?_) orderly.counts fun _ _ _ _ _ _ found => found
  by_cases here : other = conn
  · subst here
    simpa only [Function.update_self] using same
  · simpa only [Function.update_of_ne here, true_and] using orderly.named other

end Contexts

section Stores

variable {instanceId : Nat} {store : StatsStore}

/-- A call on the statistics of a handler that leaves all hands as they are. -/
theorem keep_store (closed : store.Closed)
    (counts : Headcount.Exact (fun key => store.index.lookup key)
      (fun handle => (store.cells handle).activeConnections) (keyIn state)
      (enrolled deployment registered instanceId))
    (entry : ∀ thread uid hand handle, held thread = some (uid, hand) →
      hand = .closing handle ∨ hand = .holding handle → handlerOf deployment uid = instanceId →
        entryOf state instanceId (keyIn state uid) = some handle →
          store.index.lookup (keyIn state uid) = some handle) :
    Orderly deployment { state with stats := Function.update state.stats instanceId store }
      registered held := by
  refine orderly.keep (fun other => ?_)
    (fun other => ⟨rfl, rfl, orderly.named other⟩) (fun other => ?_) ?_
  · by_cases same : other = instanceId
    · subst same
      simpa only [Function.update_self] using closed
    · simpa only [Function.update_of_ne same] using orderly.closed other
  · by_cases same : other = instanceId
    · subst same
      rw [entryOf_update, activeIn_update]
      exact counts
    · rw [entryOf_update_of_ne same, activeIn_update_of_ne same]
      exact orderly.counts other
  · intro thread uid hand handle holds inHand found
    by_cases own : handlerOf deployment uid = instanceId
    · rw [own] at found ⊢
      rw [entryOf_update]
      exact entry thread uid hand handle holds inHand own found
    · rw [entryOf_update_of_ne own]
      exact found

/-- A change of the statistics of an entry that leaves its count as it is. -/
theorem keep_cell {handle : Nat} {stats : WorkStats}
    (same : stats.activeConnections = activeIn state instanceId handle) :
    Orderly deployment
      { state with
        stats := Function.update state.stats instanceId
          ((state.stats instanceId).setCell handle stats) }
      registered held := by
  refine orderly.keep_store (orderly.closed instanceId) ?_ fun _ _ _ _ _ _ _ found => found
  rw [StatsStore.active_setCell, same]
  change Headcount.Exact _ (Function.update (activeIn state instanceId) handle _) _ _
  rw [Function.update_eq_self]
  exact orderly.counts instanceId

/-- A task counts its connection, or counts it off. -/
theorem turn_store (known : held thread = some (uid, hand)) (closed : store.Closed)
    (own : instanceId = handlerOf deployment uid)
    (index : store.index = (state.stats instanceId).index)
    (counts : Headcount.Exact (entryOf state instanceId)
      (fun handle => (store.cells handle).activeConnections) (keyIn state)
      (enrolled deployment later instanceId))
    (elsewhere : ∀ other, other ≠ uid → (other ∈ later ↔ other ∈ registered))
    (fits : next.Fits deployment state later uid)
    (rest : next.AtRest) :
    Orderly deployment { state with stats := Function.update state.stats instanceId store }
      later (Function.update held thread (some (uid, next))) := by
  refine orderly.turn known (fun other => ?_) orderly.named (fun other => ?_)
    (fun other different => ⟨rfl, elsewhere other different⟩) (fun other key => ?_) ?_
  · by_cases same : other = instanceId
    · subst same
      simpa only [Function.update_self] using closed
    · simpa only [Function.update_of_ne same] using orderly.closed other
  · by_cases same : other = instanceId
    · subst same
      rw [entryOf_update, activeIn_update, index]
      exact counts
    · have outsiders : enrolled deployment later other = enrolled deployment registered other := by
        ext conn
        simp only [enrolled, Finset.mem_filter, and_congr_left_iff]
        rintro rfl
        refine elsewhere conn ?_
        rintro rfl
        exact same own.symm
      rw [entryOf_update_of_ne same, activeIn_update_of_ne same, outsiders]
      exact orderly.counts other
  · by_cases same : other = instanceId
    · subst same
      rw [entryOf_update, index]
      rfl
    · rw [entryOf_update_of_ne same]
  · refine fits.keep rfl rfl Iff.rfl fun handle inHand => ?_
    rcases rest with rfl | rfl <;> rcases inHand with absurdity | absurdity <;> cases absurdity

end Stores

/-- A task looks, and only its hand changes. -/
theorem swap (known : held thread = some (uid, hand))
    (fits : next.Fits deployment state registered uid) :
    Orderly deployment state registered (Function.update held thread (some (uid, next))) :=
  orderly.turn known orderly.closed orderly.named orderly.counts (fun _ _ => ⟨rfl, Iff.rfl⟩)
    (fun _ _ => rfl) fits

/-- A task goes on with the same hand. -/
theorem rest {owner : Option Nat} (known : held thread = owner.map fun uid => (uid, hand))
    (same : next = hand) :
    Orderly deployment state registered
      (Function.update held thread (owner.map fun uid => (uid, next))) := by
  rw [same, ← known, Function.update_eq_self]
  exact orderly

/-- A call that touches neither the connections nor the statistics. -/
theorem frame (stats : after.stats = state.stats) (contexts : after.contexts = state.contexts) :
    Orderly deployment after registered held := by
  obtain ⟨_, _, _, _, _, _, _, _, _, _⟩ := after
  cases stats
  cases contexts
  exact orderly.keep orderly.closed (fun uid => ⟨rfl, rfl, orderly.named uid⟩) orderly.counts
    fun _ _ _ _ _ _ found => found

end Orderly

end Model

end StratumBridge
