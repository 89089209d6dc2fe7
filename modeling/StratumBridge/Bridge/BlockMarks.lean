import StratumBridge.Bridge.GuardExpiry

/-! # Which marks the block guard keeps

The guard of submitted blocks marks a hash and forgets the mark when the node could not be
reached. Forgetting takes the entry but leaves the key in the queue. As long as no mark is
forgotten the queue lists the newest marks in order, and a recent one is always refused. A
key left behind breaks this: marked again, it is evicted with its older place in the queue.
-/

namespace StratumBridge

open SubmitGuard

/-! ## Calls and marks -/

/-- A section of the guard, with its time. -/
inductive BlockGuardCall where
  | tryMark (hash : Text) (now : Nat)
  | remove (hash : Text) (now : Nat)

namespace BlockGuardCall

def now : BlockGuardCall → Nat
  | .tryMark _ now | .remove _ now => now

end BlockGuardCall

/-- A hash taken by the guard, and whether it was removed since. -/
structure Mark where
  hash : Text
  time : Nat
  removed : Bool

/-- The mark after its hash, if it is this one, was removed. -/
def Mark.remove (hash : Text) (mark : Mark) : Mark :=
  if mark.hash = hash then { mark with removed := true } else mark

/-- The guard and every mark it ever took, oldest first. -/
structure Marking where
  guard : BlockSubmitGuard
  marks : List Mark

namespace Marking

def new (ttl maxEntries : Nat) : Marking := ⟨.new ttl maxEntries, []⟩

def step (marking : Marking) : BlockGuardCall → Marking
  | .tryMark hash now =>
      let answer := marking.guard.tryMark hash now
      ⟨answer.2, if answer.1 then marking.marks ++ [⟨hash, now, false⟩] else marking.marks⟩
  | .remove hash now => ⟨marking.guard.remove hash now, marking.marks.map (Mark.remove hash)⟩

def run (ttl maxEntries : Nat) (calls : List BlockGuardCall) : Marking :=
  calls.foldl step (new ttl maxEntries)

/-- The newest marks, as many as the capacity. -/
def newest (marking : Marking) : List Mark :=
  marking.marks.drop (marking.marks.length - marking.guard.maxEntries)

/-- The guard keeps its marks: the queue lists the entries within the capacity, capacity
takes the older of two marks, and a recent mark that was not removed is refused. -/
structure Keeps (marking : Marking) (last : Nat) : Prop where
  lists : Fifo.Enumerates marking.guard.order (· ∈ marking.guard.entries)
  order_length : marking.guard.order.length ≤ marking.guard.maxEntries + 1
  entries_length : marking.guard.entries.keys.length ≤ marking.guard.maxEntries + 1
  oldest : ∀ now, last ≤ now → ∀ hash, marking.guard.evicts id now hash = true →
    ∀ other ∈ (marking.guard.prune id now).entries, ∃ mark later,
      [mark, later].Sublist marking.marks ∧
      (mark.hash = hash ∧ marking.guard.entries.lookup hash = some mark.time) ∧
      later.hash = other ∧ marking.guard.entries.lookup other = some later.time
  refused : ∀ now, last ≤ now → ∀ mark ∈ marking.newest, mark.removed = false →
    now - mark.time ≤ marking.guard.ttl → (marking.guard.tryMark mark.hash now).1 = false

/-! ## The invariant -/

/-- The queue holds the marks from some point on; those before it are past their time or
older than the newest ones. -/
structure Tracks (marking : Marking) (last : Nat) (old fresh : List Mark) : Prop where
  marks : marking.marks = old ++ fresh
  order : marking.guard.order = fresh.map Mark.hash
  lists : marking.guard.Lists
  size : fresh.length ≤ marking.guard.maxEntries + 1
  found : ∀ mark ∈ fresh, marking.guard.entries.lookup mark.hash = some mark.time
  gone : ∀ index mark, old[index]? = some mark → marking.guard.ttl < last - mark.time ∨
    index + marking.guard.maxEntries < marking.marks.length

/-- The marking after the pruning with which every call begins. -/
def pruned (marking : Marking) (now : Nat) : Marking :=
  ⟨marking.guard.prune id now, marking.marks⟩

variable {marking : Marking} {last now : Nat} {old fresh : List Mark}

/-- The three pieces of the queue are those of the marks. -/
theorem Tracks.exists_pieces (tracks : marking.Tracks last old fresh) (now : Nat) :
    ∃ expired dropped rest : List Mark, fresh = expired ++ (dropped ++ rest) ∧
      (marking.guard.prune id now).order = rest.map Mark.hash ∧
      marking.guard.Cut id now (expired.map Mark.hash) (dropped.map Mark.hash) := by
  obtain ⟨popped, beyond, cut⟩ := exists_cut tracks.lists id now
  obtain ⟨expired, others, whole, rfl, split⟩ :=
    List.map_eq_append_iff.mp (tracks.order.symm.trans cut.order)
  obtain ⟨dropped, rest, rfl, rfl, kept⟩ := List.map_eq_append_iff.mp split
  exact ⟨expired, dropped, rest, whole, kept.symm, cut⟩

/-- Pruning moves marks from the queue to the ones left behind. -/
theorem Tracks.pruned (tracks : marking.Tracks last old fresh) (later : last ≤ now) :
    ∃ behind rest, (marking.pruned now).Tracks now behind rest ∧
      rest.length ≤ marking.guard.maxEntries := by
  obtain ⟨expired, dropped, rest, whole, kept, cut⟩ := tracks.exists_pieces now
  have fits : rest.length ≤ marking.guard.maxEntries := by
    have bounded := cut.length_le
    rw [kept, List.length_map] at bounded
    exact bounded
  have marks : marking.marks = (old ++ (expired ++ dropped)) ++ rest := by
    rw [tracks.marks, whole]
    simp only [List.append_assoc]
  refine ⟨old ++ (expired ++ dropped), rest,
    ⟨marks, kept, cut.lists, Nat.le_succ_of_le fits, ?_, ?_⟩, fits⟩
  · intro mark member
    have inOrder : mark.hash ∈ (marking.guard.prune id now).order :=
      kept ▸ List.mem_map_of_mem member
    have stays := (cut.lists.mem_iff mark.hash).mp inOrder
    have inFresh : mark ∈ fresh :=
      whole ▸ List.mem_append_right expired (List.mem_append_right dropped member)
    exact (cut.lookup_of_mem stays).trans (tracks.found mark inFresh)
  · intro index mark at_index
    change marking.guard.ttl < now - mark.time ∨
      index + marking.guard.maxEntries < marking.marks.length
    have bound := (List.getElem?_eq_some_iff.mp at_index).1
    rcases Nat.lt_or_ge index old.length with early | late
    · rw [List.getElem?_append_left early] at at_index
      rcases tracks.gone index mark at_index with past | older
      · exact Or.inl (past.trans_le (Nat.sub_le_sub_right later mark.time))
      · exact Or.inr older
    · rw [List.getElem?_append_right late] at at_index
      rcases List.mem_append.mp (List.mem_of_getElem? at_index) with isExpired | isDropped
      · have past := cut.expired mark.hash (List.mem_map_of_mem isExpired)
        have inFresh : mark ∈ fresh := whole ▸ List.mem_append_left _ isExpired
        rw [SubmitGuard.expired, tracks.found mark inFresh] at past
        exact Or.inl (of_decide_eq_true past)
      · have excess := cut.excess
        have some := List.length_pos_of_mem isDropped
        rw [kept, List.length_append, List.length_map, List.length_map] at excess
        have total := congrArg List.length marks
        rw [List.length_append] at total
        exact Or.inr (by omega)

/-! ## Calls -/

/-- A new mark joins the end of the queue. -/
theorem Tracks.mark (tracks : marking.Tracks now old fresh)
    (fits : fresh.length ≤ marking.guard.maxEntries) {hash : Text}
    (unmarked : hash ∉ marking.guard.entries) :
    Tracks ⟨{ marking.guard with
        entries := marking.guard.entries.insert hash now
        order := marking.guard.order ++ [hash] },
      marking.marks ++ [⟨hash, now, false⟩]⟩ now old (fresh ++ [⟨hash, now, false⟩]) where
  marks := by
    rw [tracks.marks, List.append_assoc]
  order := by
    rw [tracks.order, List.map_append]
    rfl
  lists := (tracks.lists.push unmarked).congr fun _ => AList.mem_insert _
  size := by
    rw [List.length_append]
    exact Nat.succ_le_succ fits
  found := fun mark member => by
    rcases List.mem_append.mp member with before | isNew
    · have different : mark.hash ≠ hash := by
        intro same
        have present := AList.lookup_isSome.mp
          (Option.isSome_iff_exists.mpr ⟨_, tracks.found mark before⟩)
        exact unmarked (same ▸ present)
      exact (AList.lookup_insert_ne different).trans (tracks.found mark before)
    · rw [List.mem_singleton.mp isNew]
      exact AList.lookup_insert _
  gone := fun index mark at_index => by
    rcases tracks.gone index mark at_index with past | older
    · exact Or.inl past
    · refine Or.inr (older.trans_le ?_)
      rw [List.length_append]
      exact Nat.le_add_right _ _

/-- Flagging marks changes neither their hashes nor their times. -/
theorem Tracks.flag (tracks : marking.Tracks last old fresh) (hash : Text) :
    Tracks ⟨marking.guard, marking.marks.map (Mark.remove hash)⟩ last
      (old.map (Mark.remove hash)) (fresh.map (Mark.remove hash)) := by
  have sameHash : ∀ mark, (Mark.remove hash mark).hash = mark.hash := by
    intro mark
    unfold Mark.remove
    split <;> rfl
  have sameTime : ∀ mark, (Mark.remove hash mark).time = mark.time := by
    intro mark
    unfold Mark.remove
    split <;> rfl
  refine ⟨?_, ?_, tracks.lists, ?_, ?_, ?_⟩
  · rw [tracks.marks, List.map_append]
  · rw [tracks.order, List.map_map]
    exact List.map_congr_left fun mark _ => (sameHash mark).symm
  · rw [List.length_map]
    exact tracks.size
  · intro flagged member
    obtain ⟨mark, inFresh, rfl⟩ := List.mem_map.mp member
    rw [sameHash, sameTime]
    exact tracks.found mark inFresh
  · intro index flagged at_index
    rw [List.getElem?_map, Option.map_eq_some_iff] at at_index
    obtain ⟨mark, at_index, rfl⟩ := at_index
    rw [sameTime, List.length_map]
    exact tracks.gone index mark at_index

/-- The call removes no entry. -/
def Harmless (marking : Marking) : BlockGuardCall → Prop
  | .tryMark _ _ => True
  | .remove hash now => hash ∉ (marking.guard.prune id now).entries

/-- **Every call that removes no entry keeps the invariant.** -/
theorem Tracks.step (tracks : marking.Tracks last old fresh) {call : BlockGuardCall}
    (later : last ≤ call.now) (harmless : marking.Harmless call) :
    ∃ behind rest, (marking.step call).Tracks call.now behind rest := by
  obtain ⟨behind, rest, pruned, fits⟩ := tracks.pruned later
  cases call with
  | tryMark hash now =>
      by_cases marked : hash ∈ (marking.guard.prune id now).entries
      · have same : marking.step (.tryMark hash now) = marking.pruned now := by
          simp only [Marking.step, BlockSubmitGuard.tryMark, if_pos marked]
          rfl
        exact ⟨behind, rest, same ▸ pruned⟩
      · have added := pruned.mark fits marked
        refine ⟨behind, rest ++ [⟨hash, now, false⟩], ?_⟩
        simp only [Marking.step, BlockSubmitGuard.tryMark, if_neg marked]
        exact added
  | remove hash now =>
      have same : marking.guard.remove hash now = marking.guard.prune id now := by
        have unchanged : (marking.guard.prune id now).entries.erase hash =
            (marking.guard.prune id now).entries := by
          apply AList.ext
          exact List.kerase_of_notMem_keys harmless
        rw [BlockSubmitGuard.remove, unchanged]
      refine ⟨behind.map (Mark.remove hash), rest.map (Mark.remove hash), ?_⟩
      rw [Marking.step, same]
      exact pruned.flag hash

/-- **What the invariant says about marks.** -/
theorem Tracks.keeps (tracks : marking.Tracks last old fresh) : marking.Keeps last := by
  have short : marking.guard.order.length ≤ marking.guard.maxEntries + 1 := by
    rw [tracks.order, List.length_map]
    exact tracks.size
  refine ⟨tracks.lists, short, tracks.lists.length_keys.trans_le short, ?_, ?_⟩
  · intro now later hash evicted other stays
    obtain ⟨expired, dropped, rest, whole, kept, cut⟩ := tracks.exists_pieces now
    obtain ⟨mark, isDropped, named⟩ := List.mem_map.mp ((cut.evicts hash).mp evicted)
    obtain ⟨survivor, isKept, otherNamed⟩ :=
      List.mem_map.mp (kept ▸ (cut.lists.mem_iff other).mpr stays)
    refine ⟨mark, survivor, ?_, ⟨named, ?_⟩, otherNamed, ?_⟩
    · have pair : [mark, survivor].Sublist (dropped ++ rest) :=
        (List.singleton_sublist.mpr isDropped).append (List.singleton_sublist.mpr isKept)
      rw [tracks.marks, whole]
      exact pair.trans ((List.sublist_append_right _ _).trans (List.sublist_append_right _ _))
    · exact named ▸ tracks.found mark (whole ▸ List.mem_append_right _
        (List.mem_append_left _ isDropped))
    · exact otherNamed ▸ tracks.found survivor (whole ▸ List.mem_append_right _
        (List.mem_append_right _ isKept))
  · intro now later mark recent _ current
    obtain ⟨behind, rest, pruned, -⟩ := tracks.pruned later
    have marks : marking.marks = behind ++ rest := pruned.marks
    obtain ⟨index, isRecent, at_index⟩ : ∃ index,
        marking.marks.length ≤ index + marking.guard.maxEntries ∧
          (behind ++ rest)[index]? = some mark := by
      obtain ⟨offset, at_offset⟩ := List.mem_iff_getElem?.mp recent
      rw [newest, List.getElem?_drop] at at_offset
      refine ⟨marking.marks.length - marking.guard.maxEntries + offset, ?_, marks ▸ at_offset⟩
      omega
    have stays : mark ∈ rest := by
      rcases Nat.lt_or_ge index behind.length with early | late
      · rw [List.getElem?_append_left early] at at_index
        rcases pruned.gone index mark at_index with past | older
        · exact absurd current (not_le.mpr past)
        · exact absurd isRecent (not_le.mpr older)
      · rw [List.getElem?_append_right late] at at_index
        exact List.mem_of_getElem? at_index
    have marked : mark.hash ∈ (marking.guard.prune id now).entries :=
      AList.lookup_isSome.mp (Option.isSome_iff_exists.mpr ⟨_, pruned.found mark stays⟩)
    rw [BlockSubmitGuard.tryMark, if_pos marked]

/-! ## Runs -/

theorem new_tracks (ttl maxEntries : Nat) : (new ttl maxEntries).Tracks 0 [] [] where
  marks := rfl
  order := rfl
  lists := Fifo.Enumerates.nil.congr fun hash => iff_of_false (AList.notMem_empty hash) not_false
  size := Nat.zero_le _
  found := fun _ member => nomatch member
  gone := fun _ _ none => nomatch none

/-- **The invariant holds after every run that removes no entry.** -/
theorem run_tracks (ttl maxEntries : Nat) {calls : List BlockGuardCall}
    (ordered : calls.Pairwise fun first second => first.now ≤ second.now)
    (harmless : ∀ front call back, calls = front ++ call :: back →
      (run ttl maxEntries front).Harmless call) :
    ∃ old fresh, (run ttl maxEntries calls).Tracks (lastTime BlockGuardCall.now calls) old fresh := by
  induction calls using List.reverseRecOn with
  | nil => exact ⟨[], [], new_tracks ttl maxEntries⟩
  | append_singleton calls call ih =>
      obtain ⟨earlier, -, later⟩ := List.pairwise_append.mp ordered
      obtain ⟨old, fresh, tracks⟩ := ih earlier fun front first back split =>
        harmless front first (back ++ [call]) (by rw [split, List.append_assoc, List.cons_append])
      have before : lastTime BlockGuardCall.now calls ≤ call.now :=
        lastTime_le fun first member => later first member call List.mem_cons_self
      rw [run, List.foldl_append, lastTime_concat]
      exact tracks.step before (harmless calls call [] rfl)

end Marking

/-- **Marks.** In a run whose times do not go back the guard keeps its marks in every state
reached, if and only if no `remove` finds its hash among the entries. -/
theorem marks_kept_iff (ttl maxEntries : Nat) {calls : List BlockGuardCall}
    (ordered : calls.Pairwise fun first second => first.now ≤ second.now) :
    (∀ front back, calls = front ++ back →
        (Marking.run ttl maxEntries front).Keeps (lastTime BlockGuardCall.now front)) ↔
      ∀ front hash now back, calls = front ++ .remove hash now :: back →
        hash ∉ ((Marking.run ttl maxEntries front).guard.prune id now).entries := by
  constructor
  · intro keeps front hash now back split marked
    obtain ⟨popped, dropped, cut⟩ := exists_cut (keeps front _ split).lists id now
    have after := keeps (front ++ [.remove hash now]) back
      (by rw [split, List.append_assoc, List.singleton_append])
    rw [Marking.run, List.foldl_append] at after
    -- The queue still holds the hash, but the entry is gone.
    have queued := (cut.lists.mem_iff hash).mpr marked
    exact AList.mem_erase.mp ((after.lists.mem_iff hash).mp queued) |>.1 rfl
  · intro harmless front back split
    have earlier : front.Pairwise fun first second => first.now ≤ second.now :=
      (List.pairwise_append.mp (split ▸ ordered)).1
    obtain ⟨old, fresh, tracks⟩ := Marking.run_tracks ttl maxEntries earlier (by
      intro before call after inner
      cases call with
      | tryMark hash now => trivial
      | remove hash now =>
          exact harmless before hash now (after ++ back)
            (by rw [split, inner, List.append_assoc, List.cons_append]))
    exact tracks.keeps

/-- A block is marked, refused, and marked again once its mark is past its time. -/
def severalBlocks : List BlockGuardCall :=
  [.tryMark ['a'] 0, .tryMark ['b'] 5, .tryMark ['a'] 10, .remove ['c'] 20,
    .tryMark ['a'] 700000]

theorem marks_kept_iff_sample :
    (∀ front back, severalBlocks = front ++ back →
        (Marking.run 600000 50000 front).Keeps (lastTime BlockGuardCall.now front)) ↔
      ∀ front hash now back, severalBlocks = front ++ .remove hash now :: back →
        hash ∉ ((Marking.run 600000 50000 front).guard.prune id now).entries :=
  marks_kept_iff 600000 50000 (by decide)

/-- A transport failure leaves the hash in the queue without an entry. -/
theorem mark_left_behind :
    ¬ ∀ calls : List BlockGuardCall,
      (calls.Pairwise fun first second => first.now ≤ second.now) →
        (Marking.run 600000 50000 calls).Keeps (lastTime BlockGuardCall.now calls) := by
  intro keeps
  have kept := keeps [.tryMark ['h'] 0, .remove ['h'] 1] (by decide)
  have queued : ['h'] ∈ (Marking.run 600000 50000
      [.tryMark ['h'] 0, .remove ['h'] 1]).guard.order := by decide +kernel
  have forgotten : ['h'] ∉ (Marking.run 600000 50000
      [.tryMark ['h'] 0, .remove ['h'] 1]).guard.entries := by decide +kernel
  exact forgotten ((kept.lists.mem_iff ['h']).mp queued)

/-- The hash is submitted again: with two entries allowed, the next block but one takes its
new mark with the old place in the queue, and the block is submitted a third time. -/
example : ∃ mark ∈ (Marking.run 600000 2 [.tryMark ['x'] 0, .tryMark ['h'] 1, .remove ['h'] 2,
      .tryMark ['a'] 3, .tryMark ['h'] 4, .tryMark ['b'] 5]).newest,
    mark.hash = ['h'] ∧ mark.time = 4 ∧ mark.removed = false ∧
      ((Marking.run 600000 2 [.tryMark ['x'] 0, .tryMark ['h'] 1, .remove ['h'] 2,
        .tryMark ['a'] 3, .tryMark ['h'] 4, .tryMark ['b'] 5]).guard.tryMark ['h'] 6).1 = true := by
  decide +kernel

end StratumBridge
