import Mathlib.Data.List.AList
import Mathlib.Data.List.DropRight
import Mathlib.Data.List.Nodup

/-! # First-in first-out eviction

A bounded store keeps its keys in a queue, oldest first, and evicts from the
front of the queue. This file fixes the eviction loop and the two facts every
such store needs: what a drained queue can still violate, and how the queue
keeps listing the resident keys exactly once.
-/

namespace Fifo

variable {κ σ : Type*}

/-- Pop keys from the front of the queue while they are due, discarding each
popped key from the store. The loop stops at the first key that is not due. -/
def drain (due : List κ → σ → Bool) (discard : σ → κ → σ) : List κ → σ → List κ × σ
  | [], store => ([], store)
  | front :: rest, store =>
      if due (front :: rest) store then drain due discard rest (discard store front)
      else (front :: rest, store)

section Drain

variable {due : List κ → σ → Bool} {discard : σ → κ → σ}

@[simp] theorem drain_nil (store : σ) : drain due discard [] store = ([], store) := rfl

theorem drain_cons_of_due {front : κ} {rest : List κ} {store : σ}
    (isDue : due (front :: rest) store = true) :
    drain due discard (front :: rest) store = drain due discard rest (discard store front) := by
  rw [drain, if_pos isDue]

theorem drain_cons_of_not_due {front : κ} {rest : List κ} {store : σ}
    (notDue : due (front :: rest) store = false) :
    drain due discard (front :: rest) store = (front :: rest, store) := by
  rw [drain, if_neg (by rw [notDue]; exact Bool.false_ne_true)]

/-- **Invariant rule.** What every due pop preserves, the whole loop preserves. -/
theorem drain_preserves (Invariant : List κ → σ → Prop)
    (pop : ∀ front rest store, Invariant (front :: rest) store →
      due (front :: rest) store = true → Invariant rest (discard store front))
    (order : List κ) (store : σ) (initially : Invariant order store) :
    Invariant (drain due discard order store).1 (drain due discard order store).2 := by
  induction order generalizing store with
  | nil => exact initially
  | cons front rest ih =>
      cases isDue : due (front :: rest) store with
      | true =>
          rw [drain_cons_of_due isDue]
          exact ih _ (pop front rest store initially isDue)
      | false =>
          rw [drain_cons_of_not_due isDue]
          exact initially

/-- The loop exits on an empty queue or on a front that is not due. -/
theorem drain_settled (order : List κ) (store : σ) :
    (drain due discard order store).1 = [] ∨
      due (drain due discard order store).1 (drain due discard order store).2 = false := by
  induction order generalizing store with
  | nil => exact Or.inl rfl
  | cons front rest ih =>
      cases isDue : due (front :: rest) store with
      | true =>
          rw [drain_cons_of_due isDue]
          exact ih _
      | false =>
          rw [drain_cons_of_not_due isDue]
          exact Or.inr isDue

/-- What the loop popped: a piece of the front of the queue, each key of it due after the
ones before it were discarded. -/
theorem exists_drain_popped (order : List κ) (store : σ) :
    ∃ popped, order = popped ++ (drain due discard order store).1 ∧
      (drain due discard order store).2 = popped.foldl discard store ∧
      ∀ front key back, popped = front ++ key :: back →
        due (key :: (back ++ (drain due discard order store).1)) (front.foldl discard store) =
          true := by
  induction order generalizing store with
  | nil => exact ⟨[], rfl, rfl, fun front key back split => absurd split (by simp)⟩
  | cons first rest ih =>
      cases isDue : due (first :: rest) store with
      | false =>
          rw [drain_cons_of_not_due isDue]
          exact ⟨[], rfl, rfl, fun front key back split => absurd split (by simp)⟩
      | true =>
          rw [drain_cons_of_due isDue]
          obtain ⟨popped, whole, left, wereDue⟩ := ih (discard store first)
          refine ⟨first :: popped, congrArg (first :: ·) whole, left, ?_⟩
          intro front key back split
          cases front with
          | nil =>
              obtain ⟨rfl, rfl⟩ := List.cons.inj split
              rwa [← whole]
          | cons other front =>
              obtain ⟨rfl, same⟩ := List.cons.inj split
              exact wereDue front key back same

/-- A queue whose front is not due is left alone. -/
theorem drain_eq_self {order : List κ} {store : σ}
    (notDue : order ≠ [] → due order store = false) :
    drain due discard order store = (order, store) := by
  cases order with
  | nil => rfl
  | cons front rest => exact drain_cons_of_not_due (notDue (List.cons_ne_nil front rest))

end Drain

/-- The queue lists the resident keys, each exactly once. -/
structure Enumerates (order : List κ) (resident : κ → Prop) : Prop where
  nodup : order.Nodup
  mem_iff : ∀ key, key ∈ order ↔ resident key

namespace Enumerates

variable {order rest : List κ} {resident after : κ → Prop} {key front : κ}

theorem nil : Enumerates [] fun _ : κ => False :=
  ⟨List.nodup_nil, fun _ => ⟨List.not_mem_nil, False.elim⟩⟩

/-- Enumeration depends on residency only up to equivalence. -/
theorem congr (listed : Enumerates order resident) (same : ∀ key, after key ↔ resident key) :
    Enumerates order after :=
  ⟨listed.nodup, fun key => (listed.mem_iff key).trans (same key).symm⟩

/-- Appending a key that is not resident enumerates one more key. -/
theorem push (listed : Enumerates order resident) (fresh : ¬ resident key) :
    Enumerates (order ++ [key]) fun other => other = key ∨ resident other := by
  refine ⟨?_, ?_⟩
  · rw [List.nodup_append]
    refine ⟨listed.nodup, List.nodup_singleton key, ?_⟩
    intro left leftMem right rightMem same
    rw [List.mem_singleton] at rightMem
    exact fresh ((listed.mem_iff key).mp (by rwa [← rightMem, ← same]))
  · intro other
    rw [List.mem_append, List.mem_singleton, listed.mem_iff]
    exact Or.comm

/-- Popping the front leaves every other resident key enumerated. -/
theorem pop (listed : Enumerates (front :: rest) resident) :
    Enumerates rest fun other => other ≠ front ∧ resident other := by
  obtain ⟨notMem, nodup⟩ := List.nodup_cons.mp listed.nodup
  refine ⟨nodup, ?_⟩
  intro other
  constructor
  · intro member
    refine ⟨?_, (listed.mem_iff other).mp (List.mem_cons_of_mem front member)⟩
    rintro rfl
    exact notMem member
  · rintro ⟨different, isResident⟩
    exact (List.mem_cons.mp ((listed.mem_iff other).mpr isResident)).resolve_left different

/-- Two lists of the resident keys are equally long. -/
theorem length_eq (listed : Enumerates order resident) (other : Enumerates rest resident) :
    order.length = rest.length :=
  ((List.perm_ext_iff_of_nodup listed.nodup other.nodup).mpr fun key =>
    (listed.mem_iff key).trans (other.mem_iff key).symm).length_eq

/-- Popping a piece of the front leaves every other resident key enumerated. -/
theorem drop {popped : List κ} (listed : Enumerates (popped ++ rest) resident) :
    Enumerates rest fun other => other ∉ popped ∧ resident other := by
  obtain ⟨-, nodup, disjoint⟩ := List.nodup_append.mp listed.nodup
  refine ⟨nodup, ?_⟩
  intro other
  constructor
  · intro member
    exact ⟨fun early => disjoint other early other member rfl,
      (listed.mem_iff other).mp (List.mem_append_right popped member)⟩
  · rintro ⟨late, isResident⟩
    exact (List.mem_append.mp ((listed.mem_iff other).mpr isResident)).resolve_left late

end Enumerates

/-! ## Stores that are maps -/

section Map

variable {ν : Type*} [DecidableEq κ]

/-- The keys of a map, each once. -/
theorem enumerates_keys (entries : AList fun _ : κ => ν) :
    Enumerates entries.keys (· ∈ entries) := ⟨entries.keys_nodup, fun _ => AList.mem_keys⟩

theorem lookup_foldl_erase (popped : List κ) (entries : AList fun _ : κ => ν) (key : κ) :
    (popped.foldl (fun entries key => entries.erase key) entries).lookup key =
      if key ∈ popped then none else entries.lookup key := by
  induction popped generalizing entries with
  | nil => simp only [List.foldl_nil, List.not_mem_nil, if_false]
  | cons first popped ih =>
      rw [List.foldl_cons, ih]
      by_cases here : key = first
      · subst here
        simp only [AList.lookup_erase, ite_self, List.mem_cons_self, if_true]
      · simp only [AList.lookup_erase_ne here, List.mem_cons, here, false_or]

theorem mem_foldl_erase {popped : List κ} {entries : AList fun _ : κ => ν} {key : κ} :
    key ∈ popped.foldl (fun entries key => entries.erase key) entries ↔
      key ∉ popped ∧ key ∈ entries := by
  rw [← AList.lookup_isSome, ← AList.lookup_isSome, lookup_foldl_erase]
  by_cases gone : key ∈ popped <;>
    simp only [gone, if_true, if_false, not_true, not_false_eq_true, Option.isSome_none,
      Bool.false_eq_true, false_and, true_and]

end Map

/-! ## The window of a queue -/

section Window

variable {arrived rest : List κ} {key oldest : κ} {size : Nat}

/-- In a window with room one more key arrives behind the others. -/
theorem rtake_snoc_of_lt (room : (arrived.rtake size).length < size) :
    (arrived ++ [key]).rtake size = arrived.rtake size ++ [key] := by
  have short : arrived.length < size := by
    rw [List.rtake, List.length_drop] at room
    omega
  have all : ∀ keys : List κ, keys.length ≤ size → keys.rtake size = keys := by
    intro keys fits
    rw [List.rtake, Nat.sub_eq_zero_of_le fits, List.drop_zero]
  have fits : (arrived ++ [key]).length ≤ size := by
    simp only [List.length_append, List.length_singleton]
    omega
  rw [all _ fits, all _ short.le]

/-- From a full window the oldest key leaves. -/
theorem rtake_snoc_of_full (full : arrived.rtake size = oldest :: rest)
    (exact : (oldest :: rest).length = size) :
    (arrived ++ [key]).rtake size = rest ++ [key] := by
  obtain ⟨size, rfl⟩ : ∃ smaller, size = smaller + 1 := ⟨rest.length, exact.symm⟩
  have long : size + 1 ≤ arrived.length := by
    have length := congrArg List.length full
    rw [exact, List.rtake, List.length_drop] at length
    omega
  have tail : arrived.rtake size = rest := by
    have dropped : arrived.drop (arrived.length - (size + 1) + 1) = rest := by
      rw [← List.drop_drop, ← List.rtake, full]
      rfl
    rw [List.rtake, ← dropped]
    congr 1
    omega
  rw [List.rtake_concat_succ, tail]

/-- A key is in the window if fewer keys than its size came behind it. -/
theorem mem_rtake_iff :
    key ∈ arrived.rtake size ↔
      ∃ front back, arrived = front ++ key :: back ∧ back.length < size := by
  constructor
  · intro member
    obtain ⟨front, back, split⟩ := List.append_of_mem member
    refine ⟨arrived.take (arrived.length - size) ++ front, back, ?_, ?_⟩
    · rw [List.append_assoc, ← split]
      exact (List.take_append_drop _ _).symm
    · have length := congrArg List.length split
      simp only [List.rtake, List.length_drop, List.length_append, List.length_cons] at length
      omega
  · rintro ⟨front, back, rfl, short⟩
    rw [List.rtake, List.drop_append]
    apply List.mem_append_right
    have start : (front ++ key :: back).length - size - front.length = 0 := by
      simp only [List.length_append, List.length_cons]
      omega
    rw [start, List.drop_zero]
    exact List.mem_cons_self

end Window

end Fifo
