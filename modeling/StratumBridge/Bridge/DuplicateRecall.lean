import StratumBridge.Bridge.GuardExpiry

/-! # What the duplicate guard recalls

The guard of handled submissions forgets a key when it is past its time, and the oldest
keys beyond its capacity. Recording an outcome renews a key's time but not its place in
the queue, so a renewed key can stand in front of keys that are past their time: those stay
until it goes. Apart from them a lookup finds exactly what should be remembered.
-/

namespace StratumBridge

open SubmitGuard

/-! ## Calls and what they should leave -/

/-- A section of the guard, with its time. -/
inductive DuplicateCall where
  | get (key : Text) (now : Nat)
  | insertInflight (key : Text) (now : Nat)
  | setOutcome (key : Text) (now : Nat) (outcome : DuplicateSubmitOutcome)

namespace DuplicateCall

def now : DuplicateCall → Nat
  | .get _ now | .insertInflight _ now | .setOutcome _ now _ => now

/-- The guard after the call. -/
def act (guard : DuplicateSubmitGuard) : DuplicateCall → DuplicateSubmitGuard
  | .get key now => (guard.get key now).2
  | .insertInflight key now => guard.insertInflight key now
  | .setOutcome key now outcome => guard.setOutcome key now outcome

/-- The key whose time the call sets: a new key, or one whose outcome is recorded. -/
def updates (guard : DuplicateSubmitGuard) : DuplicateCall → Option Text
  | .get _ _ => none
  | .insertInflight key now =>
      if key ∈ (guard.prune DuplicateSubmitEntry.ts now).entries then none else some key
  | .setOutcome key now _ =>
      if key ∈ (guard.prune DuplicateSubmitEntry.ts now).entries then some key else none

end DuplicateCall

/-- The guard and, for every key inserted and not evicted for capacity since, the time of
its last update. -/
structure Recall where
  guard : DuplicateSubmitGuard
  updated : Text → Option Nat

namespace Recall

def new (ttl maxEntries : Nat) : Recall := ⟨.new ttl maxEntries, fun _ => none⟩

/-- The update times after a call at this time has evicted keys for capacity. -/
def kept (memory : Recall) (now : Nat) (key : Text) : Option Nat :=
  if memory.guard.evicts DuplicateSubmitEntry.ts now key then none else memory.updated key

def step (memory : Recall) (call : DuplicateCall) : Recall where
  guard := call.act memory.guard
  updated :=
    match call.updates memory.guard with
    | some key => Function.update (memory.kept call.now) key (some call.now)
    | none => memory.kept call.now

def run (ttl maxEntries : Nat) (calls : List DuplicateCall) : Recall :=
  calls.foldl step (new ttl maxEntries)

/-- The memory after the pruning with which every call begins. -/
def pruned (memory : Recall) (now : Nat) : Recall :=
  ⟨memory.guard.prune DuplicateSubmitEntry.ts now, memory.kept now⟩

/-! ## The invariant -/

/-- The entries carry the update times, and a key without an entry is past its time. -/
structure Sound (memory : Recall) (last : Nat) : Prop where
  lists : memory.guard.Lists
  size : memory.guard.order.length ≤ memory.guard.maxEntries + 1
  updated : ∀ key entry, memory.guard.entries.lookup key = some entry →
    memory.updated key = some entry.ts
  expired : ∀ key ts, key ∉ memory.guard.entries → memory.updated key = some ts →
    memory.guard.ttl < last - ts

variable {memory : Recall} {last now : Nat}

theorem kept_eq_some {key : Text} {ts : Nat} (held : memory.kept now key = some ts) :
    memory.guard.evicts DuplicateSubmitEntry.ts now key = false ∧
      memory.updated key = some ts := by
  unfold kept at held
  split at held
  · exact nomatch held
  · next stays => exact ⟨Bool.eq_false_iff.mpr stays, held⟩

/-- Pruning keeps the invariant and restores the capacity. -/
theorem Sound.pruned (sound : memory.Sound last) (later : last ≤ now) :
    (memory.pruned now).Sound now ∧
      (memory.pruned now).guard.order.length ≤ memory.guard.maxEntries := by
  obtain ⟨popped, dropped, cut⟩ := exists_cut sound.lists DuplicateSubmitEntry.ts now
  refine ⟨⟨cut.lists, Nat.le_succ_of_le cut.length_le, ?_, ?_⟩, cut.length_le⟩
  · intro key entry found
    have stays : key ∈ (memory.guard.prune DuplicateSubmitEntry.ts now).entries :=
      AList.lookup_isSome.mp (Option.isSome_iff_exists.mpr ⟨entry, found⟩)
    have held := sound.updated key entry ((cut.lookup_of_mem stays).symm.trans found)
    have notEvicted : ¬memory.guard.evicts DuplicateSubmitEntry.ts now key = true := by
      intro evicted
      have gone := cut.entries key
      rw [if_pos (List.mem_append_right popped ((cut.evicts key).mp evicted))] at gone
      exact absurd (gone.symm.trans found) (by simp)
    exact (if_neg notEvicted).trans held
  · intro key ts missing held
    obtain ⟨notEvicted, updated⟩ := kept_eq_some held
    by_cases had : key ∈ memory.guard.entries
    · rcases cut.gone had missing with pop | drop
      · obtain ⟨entry, found⟩ := Option.isSome_iff_exists.mp (AList.lookup_isSome.mpr had)
        have past := cut.expired key pop
        rw [SubmitGuard.expired, found] at past
        have same := Option.some.inj ((sound.updated key entry found).symm.trans updated)
        exact same ▸ of_decide_eq_true past
      · rw [(cut.evicts key).mpr drop] at notEvicted
        exact nomatch notEvicted
    · exact lt_of_lt_of_le (sound.expired key ts had updated) (Nat.sub_le_sub_right later ts)

/-- An entry of the present time goes with an update of the present time. -/
theorem Sound.stamped (sound : memory.Sound now) (key : Text) (outcome : DuplicateSubmitOutcome) :
    (∀ other entry, (memory.guard.entries.insert key ⟨now, outcome⟩).lookup other = some entry →
      Function.update memory.updated key (some now) other = some entry.ts) ∧
    ∀ other ts, other ∉ memory.guard.entries.insert key ⟨now, outcome⟩ →
      Function.update memory.updated key (some now) other = some ts →
        memory.guard.ttl < now - ts := by
  constructor
  · intro other entry found
    by_cases same : other = key
    · subst same
      rw [AList.lookup_insert] at found
      rw [Function.update_self, ← Option.some.inj found]
    · rw [AList.lookup_insert_ne same] at found
      rw [Function.update_of_ne same]
      exact sound.updated other entry found
  · intro other ts missing held
    obtain ⟨different, notHeld⟩ := not_or.mp (mt (AList.mem_insert _).mpr missing)
    rw [Function.update_of_ne different] at held
    exact sound.expired other ts notHeld held

/-- A new key joins the end of the queue. -/
theorem Sound.insert (sound : memory.Sound now)
    (fits : memory.guard.order.length ≤ memory.guard.maxEntries) {key : Text}
    (fresh : key ∉ memory.guard.entries) (outcome : DuplicateSubmitOutcome) :
    Sound ⟨{ memory.guard with
        entries := memory.guard.entries.insert key ⟨now, outcome⟩
        order := memory.guard.order ++ [key] },
      Function.update memory.updated key (some now)⟩ now where
  lists := (sound.lists.push fresh).congr fun _ => AList.mem_insert _
  size := by
    rw [List.length_append]
    exact Nat.succ_le_succ fits
  updated := (sound.stamped key outcome).1
  expired := (sound.stamped key outcome).2

/-- A key with an entry keeps its place when its outcome is recorded. -/
theorem Sound.renew (sound : memory.Sound now) {key : Text} (present : key ∈ memory.guard.entries)
    (outcome : DuplicateSubmitOutcome) :
    Sound ⟨{ memory.guard with entries := memory.guard.entries.insert key ⟨now, outcome⟩ },
      Function.update memory.updated key (some now)⟩ now where
  lists := by
    refine sound.lists.congr fun other => (AList.mem_insert _).trans (or_iff_right_of_imp ?_)
    rintro rfl
    exact present
  size := sound.size
  updated := (sound.stamped key outcome).1
  expired := (sound.stamped key outcome).2

/-- **Every call keeps the invariant.** -/
theorem Sound.step (sound : memory.Sound last) {call : DuplicateCall} (later : last ≤ call.now) :
    (memory.step call).Sound call.now := by
  obtain ⟨pruned, fits⟩ := sound.pruned later
  cases call with
  | get key now => exact pruned
  | insertInflight key now =>
      by_cases present : key ∈ (memory.guard.prune DuplicateSubmitEntry.ts now).entries
      · have same : memory.step (.insertInflight key now) = memory.pruned now := by
          simp only [Recall.step, DuplicateCall.act, DuplicateCall.updates,
            DuplicateSubmitGuard.insertInflight, if_pos present]
          rfl
        exact same ▸ pruned
      · have inserted := pruned.insert fits present .inFlight
        simp only [Recall.step, DuplicateCall.act, DuplicateCall.updates,
          DuplicateSubmitGuard.insertInflight, if_neg present]
        exact inserted
  | setOutcome key now outcome =>
      by_cases present : key ∈ (memory.guard.prune DuplicateSubmitEntry.ts now).entries
      · have renewed := pruned.renew present outcome
        simp only [Recall.step, DuplicateCall.act, DuplicateCall.updates,
          DuplicateSubmitGuard.setOutcome, if_pos present]
        exact renewed
      · have same : memory.step (.setOutcome key now outcome) = memory.pruned now := by
          simp only [Recall.step, DuplicateCall.act, DuplicateCall.updates,
            DuplicateSubmitGuard.setOutcome, if_neg present]
          rfl
        exact same ▸ pruned

/-! ## Runs -/

theorem new_sound (ttl maxEntries : Nat) : (new ttl maxEntries).Sound 0 where
  lists := Fifo.Enumerates.nil.congr fun key => iff_of_false (AList.notMem_empty key) not_false
  size := Nat.zero_le _
  updated := fun key _ found => by
    rw [new, SubmitGuard.new, AList.lookup_empty] at found
    exact nomatch found
  expired := fun _ _ _ held => nomatch held

/-- **The invariant holds after every run whose times do not go back.** -/
theorem run_sound (ttl maxEntries : Nat) {calls : List DuplicateCall}
    (ordered : calls.Pairwise fun first second => first.now ≤ second.now) :
    (run ttl maxEntries calls).Sound (lastTime DuplicateCall.now calls) := by
  induction calls using List.reverseRecOn with
  | nil => exact new_sound ttl maxEntries
  | append_singleton calls call ih =>
      obtain ⟨earlier, -, later⟩ := List.pairwise_append.mp ordered
      have before : lastTime DuplicateCall.now calls ≤ call.now :=
        lastTime_le fun first member => later first member call List.mem_cons_self
      rw [run, List.foldl_append, lastTime_concat]
      exact (ih earlier).step before

/-- No call changes the limits. -/
theorem step_limits (memory : Recall) (call : DuplicateCall) :
    (memory.step call).guard.ttl = memory.guard.ttl ∧
      (memory.step call).guard.maxEntries = memory.guard.maxEntries := by
  cases call with
  | get key now => exact ⟨rfl, rfl⟩
  | insertInflight key now =>
      simp only [step, DuplicateCall.act, DuplicateSubmitGuard.insertInflight]
      split <;> exact ⟨rfl, rfl⟩
  | setOutcome key now outcome =>
      simp only [step, DuplicateCall.act, DuplicateSubmitGuard.setOutcome]
      split <;> exact ⟨rfl, rfl⟩

theorem run_limits (ttl maxEntries : Nat) (calls : List DuplicateCall) :
    (run ttl maxEntries calls).guard.ttl = ttl ∧
      (run ttl maxEntries calls).guard.maxEntries = maxEntries := by
  induction calls using List.reverseRecOn with
  | nil => exact ⟨rfl, rfl⟩
  | append_singleton calls call ih =>
      rw [run, List.foldl_append]
      obtain ⟨sameTtl, sameMax⟩ := step_limits (run ttl maxEntries calls) call
      exact ⟨sameTtl.trans ih.1, sameMax.trans ih.2⟩

end Recall

/-! ## Lookups -/

/-- The key is past its time, and behind a key that is not. -/
def DuplicateSubmitGuard.Overdue (guard : DuplicateSubmitGuard) (key : Text) (now : Nat) : Prop :=
  guard.expired DuplicateSubmitEntry.ts now key = true ∧
    ∃ front back, guard.order = front ++ key :: back ∧
      ∃ other ∈ front, guard.expired DuplicateSubmitEntry.ts now other = false

/-- The overdue keys are the ones past their time that pruning leaves. -/
theorem DuplicateSubmitGuard.overdue_iff {guard : DuplicateSubmitGuard} (listed : guard.Lists)
    (size : guard.order.length ≤ guard.maxEntries + 1) {key : Text} {now : Nat} :
    guard.Overdue key now ↔ key ∈ (guard.prune DuplicateSubmitEntry.ts now).entries ∧
      guard.expired DuplicateSubmitEntry.ts now key = true := by
  obtain ⟨popped, dropped, cut⟩ := exists_cut listed DuplicateSubmitEntry.ts now
  constructor
  · rintro ⟨past, front, back, split, other, before, current⟩
    refine ⟨(cut.lists.mem_iff key).mp ?_, past⟩
    have atMostOne : dropped.length ≤ 1 := by
      have total := congrArg List.length cut.order
      have excess := cut.excess
      rw [List.length_append] at total
      omega
    -- The expired piece ends before `other`, and at most one key is dropped behind it.
    rcases List.append_eq_append_iff.mp (split.symm.trans cut.order) with
      ⟨inner, wider, -⟩ | ⟨inner, wider, behind⟩
    · have popped : other ∈ popped := wider ▸ List.mem_append_left inner before
      rw [cut.expired other popped] at current
      exact nomatch current
    · have inInner : other ∈ inner := by
        rcases List.mem_append.mp (wider ▸ before) with gone | here
        · rw [cut.expired other gone] at current
          exact nomatch current
        · exact here
      have some := List.length_pos_of_mem inInner
      rcases List.append_eq_append_iff.mp behind with ⟨between, -, kept⟩ | ⟨between, longer, kept⟩
      · rw [kept]
        exact List.mem_append_right between List.mem_cons_self
      · have lengths := congrArg List.length longer
        rw [List.length_append] at lengths
        obtain rfl := List.length_eq_zero_iff.mp (show between.length = 0 by omega)
        rw [List.nil_append] at kept
        exact kept ▸ List.mem_cons_self
  · rintro ⟨stays, past⟩
    refine ⟨past, ?_⟩
    have inRest : key ∈ dropped ++ (guard.prune DuplicateSubmitEntry.ts now).order :=
      List.mem_append_right dropped ((cut.lists.mem_iff key).mpr stays)
    obtain ⟨first, rest, whole⟩ := List.exists_cons_of_ne_nil (List.ne_nil_of_mem inRest)
    have current := cut.stops first (whole ▸ rfl)
    have later : key ∈ rest := by
      rcases List.mem_cons.mp (whole ▸ inRest) with rfl | later
      · rw [past] at current
        exact nomatch current
      · exact later
    obtain ⟨between, back, split⟩ := List.append_of_mem later
    refine ⟨popped ++ first :: between, back, ?_, first, ?_, current⟩
    · rw [cut.order, whole, split, List.append_assoc, List.cons_append]
    · exact List.mem_append_right popped List.mem_cons_self

/-- **Recall.** After every run whose times do not go back, the queue lists the entries,
each once, and there is at most one more than the capacity, none more once a lookup has
pruned. A lookup finds a key exactly when it was inserted, not evicted for capacity since,
and last updated within the time to live, except for the overdue keys and for them alone. -/
theorem recall_exact_iff (ttl maxEntries : Nat) {calls : List DuplicateCall}
    (ordered : calls.Pairwise fun first second => first.now ≤ second.now) :
    Fifo.Enumerates (Recall.run ttl maxEntries calls).guard.order
        (· ∈ (Recall.run ttl maxEntries calls).guard.entries) ∧
      (Recall.run ttl maxEntries calls).guard.entries.keys.length ≤ maxEntries + 1 ∧
      ∀ key now, (∀ call ∈ calls, call.now ≤ now) →
        ((Recall.run ttl maxEntries calls).guard.get key now).2.entries.keys.length ≤ maxEntries ∧
        ((((Recall.run ttl maxEntries calls).guard.get key now).1.isSome = true ↔
            ∃ ts, (Recall.run ttl maxEntries calls).kept now key = some ts ∧ now - ts ≤ ttl) ↔
          ¬(Recall.run ttl maxEntries calls).guard.Overdue key now) := by
  have sound := Recall.run_sound ttl maxEntries ordered
  obtain ⟨sameTtl, sameMax⟩ := Recall.run_limits ttl maxEntries calls
  generalize Recall.run ttl maxEntries calls = memory at sound sameTtl sameMax ⊢
  refine ⟨sound.lists, ?_, ?_⟩
  · rw [sound.lists.length_keys, ← sameMax]
    exact sound.size
  intro key now later
  obtain ⟨pruned, fits⟩ := sound.pruned (lastTime_le later)
  constructor
  · rw [← sameMax]
    exact pruned.lists.length_keys.trans_le fits
  rw [DuplicateSubmitGuard.overdue_iff sound.lists sound.size]
  obtain ⟨popped, dropped, cut⟩ := exists_cut sound.lists DuplicateSubmitEntry.ts now
  by_cases stays : key ∈ (memory.guard.prune DuplicateSubmitEntry.ts now).entries
  · obtain ⟨entry, held⟩ := Option.isSome_iff_exists.mp (AList.lookup_isSome.mpr stays)
    have updated := pruned.updated key entry held
    have found : (memory.guard.get key now).1.isSome = true := by
      change (((memory.guard.prune DuplicateSubmitEntry.ts now).entries.lookup key).map _).isSome = _
      rw [held]
      rfl
    have past : memory.guard.expired DuplicateSubmitEntry.ts now key =
        decide (ttl < now - entry.ts) := by
      rw [SubmitGuard.expired, (cut.lookup_of_mem stays).symm.trans held, sameTtl]
    have current : (∃ ts, memory.kept now key = some ts ∧ now - ts ≤ ttl) ↔ now - entry.ts ≤ ttl := by
      constructor
      · rintro ⟨ts, other, within⟩
        exact Option.some.inj (other.symm.trans updated) ▸ within
      · exact fun within => ⟨entry.ts, updated, within⟩
    rw [iff_true_left found, current, past, decide_eq_true_iff, and_iff_right stays, not_lt]
  · have missed : ¬(memory.guard.get key now).1.isSome = true := by
      change ¬(((memory.guard.prune DuplicateSubmitEntry.ts now).entries.lookup key).map _).isSome = _
      rw [Option.isSome_map, AList.lookup_isSome]
      exact stays
    have forgotten : ¬∃ ts, memory.kept now key = some ts ∧ now - ts ≤ ttl := by
      rintro ⟨ts, held, within⟩
      have past := pruned.expired key ts stays held
      exact absurd within (not_le.mpr (sameTtl ▸ past))
    exact iff_of_true (iff_of_false missed forgotten) fun overdue => stays overdue.1

/-- Two submissions a millisecond apart; the node takes ten seconds to settle the first. -/
def slowSettlement : List DuplicateCall :=
  [.insertInflight ['a'] 0, .insertInflight ['b'] 1, .setOutcome ['b'] 2 .accepted,
    .setOutcome ['a'] 10000 .accepted]

theorem recall_exact_iff_sample :
    (((Recall.run 180000 50000 slowSettlement).guard.get ['b'] 100000).1.isSome = true ↔
      ∃ ts, (Recall.run 180000 50000 slowSettlement).kept 100000 ['b'] = some ts ∧
        100000 - ts ≤ 180000) ↔
      ¬(Recall.run 180000 50000 slowSettlement).guard.Overdue ['b'] 100000 :=
  ((recall_exact_iff 180000 50000 (by decide)).2.2 ['b'] 100000 (by decide)).2

/-- Three minutes and five seconds later the second submission is still found, behind the
first. -/
theorem expired_recalled :
    ¬ ∀ (calls : List DuplicateCall) (key : Text) (now : Nat),
      (calls.Pairwise fun first second => first.now ≤ second.now) →
      (∀ call ∈ calls, call.now ≤ now) →
        (((Recall.run 180000 50000 calls).guard.get key now).1.isSome = true ↔
          ∃ ts, (Recall.run 180000 50000 calls).kept now key = some ts ∧ now - ts ≤ 180000) := by
  intro exactly
  have found : ((Recall.run 180000 50000 slowSettlement).guard.get ['b'] 185000).1.isSome = true := by
    decide +kernel
  have updated : (Recall.run 180000 50000 slowSettlement).kept 185000 ['b'] = some 2 := by
    decide +kernel
  obtain ⟨ts, held, within⟩ :=
    (exactly slowSettlement ['b'] 185000 (by decide) (by decide)).mp found
  rw [Option.some.inj (held.symm.trans updated)] at within
  exact absurd within (by decide)

end StratumBridge
