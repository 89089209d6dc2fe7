import Mathlib.Data.Nat.ModEq

/-! # Rings of numbered slots

A ring of `capacity` slots stores the entry numbered `id` in slot
`id % capacity`; entries are numbered from one in the order of writing. After
`count` writes a slot holds the last entry with its remainder. This file says
which entry that is and how one more write changes it.
-/

namespace Slots

variable {capacity count slot id other : Nat}

/-- The entry `id` is the one held by `slot` after `count` writes. -/
structure Occupies (capacity count slot id : Nat) : Prop where
  positive : 1 ≤ id
  written : id ≤ count
  recent : count < id + capacity
  slot_eq : id % capacity = slot

theorem not_occupies_zero : ¬ Occupies capacity 0 slot id := by
  intro held
  have := held.positive
  have := held.written
  omega

private theorem eq_of_mod_eq_of_le (le : id ≤ other) (close : other < id + capacity)
    (same : id % capacity = other % capacity) : id = other := by
  have remainder : (other - id) % capacity = 0 := Nat.sub_mod_eq_zero_of_mod_eq same.symm
  rw [Nat.mod_eq_of_lt (by omega)] at remainder
  omega

/-- A slot holds one entry. -/
theorem Occupies.unique (held : Occupies capacity count slot id)
    (alsoHeld : Occupies capacity count slot other) : id = other := by
  have same : id % capacity = other % capacity := held.slot_eq.trans alsoHeld.slot_eq.symm
  have := held.written
  have := held.recent
  have := alsoHeld.written
  have := alsoHeld.recent
  rcases Nat.le_total id other with le | le
  · exact eq_of_mod_eq_of_le le (by omega) same
  · exact (eq_of_mod_eq_of_le le (by omega) same.symm).symm

/-- A retained entry occupies its own slot. -/
theorem occupies_self :
    Occupies capacity count (id % capacity) id ↔ 1 ≤ id ∧ id ≤ count ∧ count < id + capacity :=
  ⟨fun held => ⟨held.positive, held.written, held.recent⟩,
    fun ⟨positive, written, recent⟩ => ⟨positive, written, recent, rfl⟩⟩

/-- One more write takes over its slot and leaves the other slots alone. -/
theorem occupies_succ (nonempty : 0 < capacity) :
    Occupies capacity (count + 1) slot id ↔
      if slot = (count + 1) % capacity then id = count + 1 else Occupies capacity count slot id := by
  split
  · next taken =>
      constructor
      · intro held
        have := held.written
        have := held.recent
        exact eq_of_mod_eq_of_le held.written (by omega) (held.slot_eq.trans taken)
      · rintro rfl
        exact ⟨by omega, le_refl _, by omega, taken.symm⟩
  · next free =>
      constructor
      · intro held
        have := held.written
        have := held.recent
        have notNew : id ≠ count + 1 := by
          rintro rfl
          exact free held.slot_eq.symm
        exact ⟨held.positive, by omega, by omega, held.slot_eq⟩
      · intro held
        have := held.written
        have := held.recent
        have notOldest : count + 1 ≠ id + capacity := by
          intro wraps
          apply free
          rw [wraps, Nat.add_mod_right]
          exact held.slot_eq.symm
        exact ⟨held.positive, by omega, by omega, held.slot_eq⟩

section Tables

variable {ρ : Type*} {numbers later : Nat → Option Nat} {values laterValues : Nat → ρ}
  {log : List ρ} {entry : ρ}

/-- The table of entry numbers: each slot records the entry it holds. -/
def Numbered (capacity count : Nat) (numbers : Nat → Option Nat) : Prop :=
  ∀ slot id, numbers slot = some id ↔ Occupies capacity count slot id

/-- The table of values: an occupied slot shows the logged value of its entry. -/
def Shows (capacity : Nat) (values : Nat → ρ) (log : List ρ) : Prop :=
  ∀ slot id, Occupies capacity log.length slot id → log[id - 1]? = some (values slot)

theorem numbered_zero (empty : ∀ slot, numbers slot = none) : Numbered capacity 0 numbers := by
  intro slot id
  constructor
  · intro stored
    exact absurd ((empty slot).symm.trans stored) (Option.some_ne_none id).symm
  · intro held
    exact absurd held not_occupies_zero

theorem shows_nil : Shows capacity values [] := fun _ _ held => absurd held not_occupies_zero

/-- Writing the next number keeps the table of numbers. -/
theorem Numbered.write (numbered : Numbered capacity count numbers) (nonempty : 0 < capacity)
    (written : later ((count + 1) % capacity) = some (count + 1))
    (kept : ∀ slot, slot ≠ (count + 1) % capacity → later slot = numbers slot) :
    Numbered capacity (count + 1) later := by
  intro slot id
  rw [occupies_succ nonempty]
  by_cases taken : slot = (count + 1) % capacity
  · rw [if_pos taken, taken, written, Option.some.injEq]
    exact eq_comm
  · rw [if_neg taken, kept slot taken]
    exact numbered slot id

/-- Writing the next value keeps the table of values. -/
theorem Shows.write (shown : Shows capacity values log) (nonempty : 0 < capacity)
    (written : laterValues ((log.length + 1) % capacity) = entry)
    (kept : ∀ slot, slot ≠ (log.length + 1) % capacity → laterValues slot = values slot) :
    Shows capacity laterValues (log ++ [entry]) := by
  intro slot id held
  rw [List.length_append, List.length_singleton, occupies_succ nonempty] at held
  by_cases taken : slot = (log.length + 1) % capacity
  · rw [if_pos taken] at held
    rw [held, Nat.add_sub_cancel, List.getElem?_concat_length, taken, written]
  · rw [if_neg taken] at held
    have := held.positive
    have := held.written
    rw [List.getElem?_append_left (by omega), kept slot taken]
    exact shown slot id held

end Tables

end Slots
