import StratumBridge.Bridge.Guards

/-! # How a guard prunes

Every section of a submission guard first prunes it: the expired keys at the front of the
queue go, then the oldest ones beyond the capacity. As long as the queue lists the entries,
pruning cuts it into three pieces, and only keys of the first two lose their entries.
-/

namespace StratumBridge.SubmitGuard

variable {ν : Type}

/-! ## The two loops -/

/-- The key is past its time; a key without an entry counts as such. -/
def expired (stamp : ν → Nat) (guard : SubmitGuard ν) (now : Nat) (key : Text) : Bool :=
  match guard.entries.lookup key with
  | some entry => decide (guard.ttl < now - stamp entry)
  | none => true

/-- The front of the queue is past its time. -/
def frontExpired (stamp : ν → Nat) (ttl now : Nat) (order : List Text)
    (entries : AList fun _ : Text => ν) : Bool :=
  match order.head?.bind entries.lookup with
  | some entry => decide (ttl < now - stamp entry)
  | none => true

def forget (entries : AList fun _ : Text => ν) (key : Text) : AList fun _ : Text => ν :=
  entries.erase key

/-- Remove the entries of expired keys at the front. -/
def expire (stamp : ν → Nat) (guard : SubmitGuard ν) (now : Nat) : SubmitGuard ν :=
  let drained := Fifo.drain (frontExpired stamp guard.ttl now) forget guard.order guard.entries
  { guard with entries := drained.2, order := drained.1 }

/-- There are more entries than the capacity. -/
def tooMany (maxEntries : Nat) (_ : List Text) (entries : AList fun _ : Text => ν) : Bool :=
  decide (maxEntries < entries.keys.length)

/-- Remove the oldest entries beyond the capacity. -/
def bound (guard : SubmitGuard ν) : SubmitGuard ν :=
  let drained := Fifo.drain (tooMany guard.maxEntries) forget guard.order guard.entries
  { guard with entries := drained.2, order := drained.1 }

/-- Pruning at this time evicts the key for capacity. -/
def evicts (stamp : ν → Nat) (guard : SubmitGuard ν) (now : Nat) (key : Text) : Bool :=
  decide (key ∈ (guard.expire stamp now).entries) && decide (key ∉ (guard.prune stamp now).entries)

/-- The queue lists the keys that have an entry, each once. -/
def Lists (guard : SubmitGuard ν) : Prop := Fifo.Enumerates guard.order (· ∈ guard.entries)

variable {stamp : ν → Nat} {guard : SubmitGuard ν} {now : Nat}

theorem lookup_foldl_forget (popped : List Text) (entries : AList fun _ : Text => ν) (key : Text) :
    (popped.foldl forget entries).lookup key = if key ∈ popped then none else entries.lookup key := by
  refine (Fifo.lookup_foldl_erase popped entries key).trans ?_
  by_cases gone : key ∈ popped
  · rw [if_pos gone, if_pos gone]
  · rw [if_neg gone, if_neg gone]

theorem mem_foldl_forget {popped : List Text} {entries : AList fun _ : Text => ν} {key : Text} :
    key ∈ popped.foldl forget entries ↔ key ∉ popped ∧ key ∈ entries := Fifo.mem_foldl_erase

theorem prune_eq_bound : guard.prune stamp now = (guard.expire stamp now).bound := rfl

@[simp] theorem prune_ttl : (guard.prune stamp now).ttl = guard.ttl := rfl

@[simp] theorem prune_maxEntries : (guard.prune stamp now).maxEntries = guard.maxEntries := rfl

theorem Lists.length_keys (listed : guard.Lists) :
    guard.entries.keys.length = guard.order.length :=
  (Fifo.enumerates_keys guard.entries).length_eq listed

/-- What is left of the queue lists what is left of the entries. -/
theorem Lists.cut (listed : guard.Lists) {popped rest : List Text}
    (whole : guard.order = popped ++ rest) :
    Fifo.Enumerates rest
      (· ∈ popped.foldl forget guard.entries) := by
  have enumerates : Fifo.Enumerates (popped ++ rest) (· ∈ guard.entries) := whole ▸ listed
  exact enumerates.drop.congr fun key => Fifo.mem_foldl_erase

/-- The expiry loop pops keys that are past their time and stops at one that is not. -/
theorem exists_expire_cut (listed : guard.Lists) (stamp : ν → Nat) (now : Nat) :
    ∃ popped, guard.order = popped ++ (guard.expire stamp now).order ∧
      (guard.expire stamp now).entries =
        popped.foldl forget guard.entries ∧
      (∀ key ∈ popped, guard.expired stamp now key = true) ∧
      ∀ key ∈ (guard.expire stamp now).order.head?, guard.expired stamp now key = false := by
  obtain ⟨popped, whole, left, wereDue⟩ :=
    @Fifo.exists_drain_popped _ _ (frontExpired stamp guard.ttl now) forget guard.order guard.entries
  have nodup := whole ▸ listed.nodup
  obtain ⟨poppedNodup, -, disjoint⟩ := List.nodup_append.mp nodup
  refine ⟨popped, whole, left, ?_, ?_⟩
  · intro key member
    obtain ⟨front, back, split⟩ := List.append_of_mem member
    have due := wereDue front key back split
    have notEarlier : key ∉ front := fun early =>
      (List.nodup_append.mp (split ▸ poppedNodup)).2.2 key early key List.mem_cons_self rfl
    rw [frontExpired, List.head?_cons, Option.bind_some, lookup_foldl_forget,
      if_neg notEarlier] at due
    exact due
  · intro key isFirst
    have notPopped : key ∉ popped := fun early =>
      disjoint key early key (List.mem_of_mem_head? isFirst) rfl
    have first : (guard.expire stamp now).order.head? = some key := isFirst
    rcases @Fifo.drain_settled _ _ (frontExpired stamp guard.ttl now) forget guard.order
      guard.entries with empty | settled
    · have none : (guard.expire stamp now).order = [] := empty
      rw [none] at first
      exact nomatch first
    · change frontExpired stamp guard.ttl now (guard.expire stamp now).order _ = false at settled
      rw [frontExpired, first, left, Option.bind_some, lookup_foldl_forget,
        if_neg notPopped] at settled
      exact settled

/-- The capacity loop pops as many keys as there are too many. -/
theorem exists_bound_cut (listed : guard.Lists) :
    ∃ dropped, guard.order = dropped ++ guard.bound.order ∧
      guard.bound.entries =
        dropped.foldl forget guard.entries ∧
      dropped.length = guard.order.length - guard.maxEntries := by
  obtain ⟨dropped, whole, left, wereDue⟩ :=
    @Fifo.exists_drain_popped _ _ (tooMany guard.maxEntries) forget guard.order guard.entries
  have remains : ∀ front rest, guard.order = front ++ rest →
      (front.foldl forget guard.entries).keys.length =
        rest.length := by
    intro front rest split
    exact (Fifo.enumerates_keys _).length_eq (listed.cut split)
  have enough : guard.order.length - guard.maxEntries ≤ dropped.length := by
    have total := congrArg List.length whole
    rw [List.length_append] at total
    rcases @Fifo.drain_settled _ _ (tooMany guard.maxEntries) forget guard.order
      guard.entries with empty | settled
    · rw [empty, List.length_nil] at total
      omega
    · have fits := of_decide_eq_false settled
      rw [left, remains dropped _ whole] at fits
      omega
  refine ⟨dropped, whole, left, le_antisymm ?_ enough⟩
  rcases List.eq_nil_or_concat dropped with rfl | ⟨front, key, rfl⟩
  · exact Nat.zero_le _
  · have due := of_decide_eq_true (wereDue front key [] List.concat_eq_append)
    have split := whole
    rw [List.concat_eq_append, List.append_assoc, List.singleton_append] at split
    have total := congrArg List.length split
    rw [remains front _ split] at due
    rw [List.length_append, List.length_cons] at total
    rw [List.length_cons] at due
    rw [List.length_concat]
    omega

/-! ## The cut -/

/-- Pruning cuts the queue into expired keys, keys beyond the capacity, and the rest. -/
structure Cut (stamp : ν → Nat) (guard : SubmitGuard ν) (now : Nat)
    (popped dropped : List Text) : Prop where
  order : guard.order = popped ++ (dropped ++ (guard.prune stamp now).order)
  entries : ∀ key, (guard.prune stamp now).entries.lookup key =
    if key ∈ popped ++ dropped then none else guard.entries.lookup key
  expired : ∀ key ∈ popped, guard.expired stamp now key = true
  stops : ∀ key ∈ (dropped ++ (guard.prune stamp now).order).head?,
    guard.expired stamp now key = false
  excess : dropped.length =
    (dropped ++ (guard.prune stamp now).order).length - guard.maxEntries
  lists : (guard.prune stamp now).Lists
  evicts : ∀ key, guard.evicts stamp now key = true ↔ key ∈ dropped

theorem exists_cut (listed : guard.Lists) (stamp : ν → Nat) (now : Nat) :
    ∃ popped dropped, guard.Cut stamp now popped dropped := by
  obtain ⟨popped, whole, left, isExpired, stops⟩ := exists_expire_cut listed stamp now
  have expiredLists : (guard.expire stamp now).Lists := by
    rw [Lists, left]
    exact listed.cut whole
  obtain ⟨dropped, cut, rest, excess⟩ := exists_bound_cut expiredLists
  rw [← prune_eq_bound] at cut rest
  have pruned : (guard.prune stamp now).Lists := by
    rw [Lists, rest]
    exact expiredLists.cut cut
  refine ⟨popped, dropped, ?_, ?_, isExpired, cut ▸ stops, cut ▸ excess, pruned, ?_⟩
  · rw [← cut]
    exact whole
  · intro key
    rw [rest, left, ← List.foldl_append, lookup_foldl_forget]
  · intro key
    rw [SubmitGuard.evicts, Bool.and_eq_true, decide_eq_true_iff, decide_eq_true_iff, rest,
      mem_foldl_forget, ← expiredLists.mem_iff key]
    constructor
    · rintro ⟨inQueue, gone⟩
      by_contra kept
      exact gone ⟨kept, inQueue⟩
    · intro member
      exact ⟨cut ▸ List.mem_append_left _ member, fun kept => kept.1 member⟩

namespace Cut

variable {popped dropped : List Text} {key : Text}

theorem length_le (cut : guard.Cut stamp now popped dropped) :
    (guard.prune stamp now).order.length ≤ guard.maxEntries := by
  have excess := cut.excess
  rw [List.length_append] at excess
  omega

/-- A key that stays keeps its entry. -/
theorem lookup_of_mem (cut : guard.Cut stamp now popped dropped)
    (kept : key ∈ (guard.prune stamp now).entries) :
    (guard.prune stamp now).entries.lookup key = guard.entries.lookup key := by
  have found := AList.lookup_isSome.mpr kept
  rw [cut.entries key] at found ⊢
  split at found
  · exact nomatch found
  · next stays => rw [if_neg stays]

/-- A key that goes was past its time, or goes for capacity. -/
theorem gone (cut : guard.Cut stamp now popped dropped) (held : key ∈ guard.entries)
    (lost : key ∉ (guard.prune stamp now).entries) : key ∈ popped ∨ key ∈ dropped := by
  by_contra stays
  refine lost (AList.lookup_isSome.mp ?_)
  rw [cut.entries key, if_neg (fun member => stays (List.mem_append.mp member))]
  exact AList.lookup_isSome.mpr held

end Cut

/-! ## Calls in time order -/

/-- The time of the last call. -/
def lastTime {γ : Type} (time : γ → Nat) (calls : List γ) : Nat := (calls.getLast?.map time).getD 0

theorem lastTime_concat {γ : Type} (time : γ → Nat) (calls : List γ) (call : γ) :
    lastTime time (calls ++ [call]) = time call := by
  rw [lastTime, List.getLast?_concat]
  rfl

theorem lastTime_le {γ : Type} {time : γ → Nat} {calls : List γ}
    (later : ∀ call ∈ calls, time call ≤ now) : lastTime time calls ≤ now := by
  unfold lastTime
  cases isLast : calls.getLast? with
  | none => exact Nat.zero_le _
  | some call => exact later call (List.mem_of_getLast? isLast)

end StratumBridge.SubmitGuard
