import Mathlib.Data.Finset.Card
import Mathlib.Data.Finset.Filter
import Mathlib.Logic.Function.Basic

/-! # Headcounts

Members count themselves in the entry a table has for their key. The counts are exact when every
member finds an entry and every entry counts the members with its key.
-/

namespace Headcount

variable {ι κ η : Type} [DecidableEq κ]

/-- How many members have a key. -/
def count (key : ι → κ) (members : Finset ι) (place : κ) : Nat :=
  (members.filter fun member => key member = place).card

/-- Every member finds an entry, every entry counts the members with its key, and no two keys
share an entry. -/
structure Exact (index : κ → Option η) (tally : η → Nat) (key : ι → κ) (members : Finset ι) :
    Prop where
  present : ∀ member ∈ members, ∃ entry, index (key member) = some entry
  counted : ∀ place entry, index place = some entry → tally entry = count key members place
  apart : ∀ place other entry, index place = some entry → index other = some entry → place = other

section Count

variable {key : ι → κ} {members : Finset ι} {member : ι} {place : κ}

theorem count_insert [DecidableEq ι] (absent : member ∉ members) :
    count key (insert member members) place =
      count key members place + if key member = place then 1 else 0 := by
  unfold count
  rw [Finset.filter_insert]
  split
  · rw [Finset.card_insert_of_notMem fun inside => absent (Finset.mem_filter.mp inside).1]
  · rfl

theorem count_erase [DecidableEq ι] (present : member ∈ members) :
    count key members place =
      count key (members.erase member) place + if key member = place then 1 else 0 := by
  rw [← count_insert (Finset.notMem_erase member members), Finset.insert_erase present]

theorem count_pos (present : member ∈ members) : 0 < count key members (key member) :=
  Finset.card_pos.mpr ⟨member, Finset.mem_filter.mpr ⟨present, rfl⟩⟩

theorem count_congr {other : ι → κ} (same : ∀ member ∈ members, other member = key member) :
    count other members place = count key members place := by
  unfold count
  rw [Finset.filter_congr fun member present => by rw [same member present]]

/-- A key that no member has counts none. -/
theorem count_eq_zero (absent : ∀ member ∈ members, key member ≠ place) :
    count key members place = 0 :=
  Finset.card_eq_zero.mpr (Finset.filter_eq_empty_iff.mpr absent)

end Count

namespace Exact

variable {index : κ → Option η} {tally : η → Nat} {key : ι → κ} {members : Finset ι}
  {member : ι} {entry : η} (sound : Exact index tally key members)
include sound

/-- The entry of a member counts it. -/
theorem pos (inside : member ∈ members) (found : index (key member) = some entry) :
    0 < tally entry := by
  rw [sound.counted _ _ found]
  exact count_pos inside

/-- A new member counts itself in its entry. -/
theorem enroll [DecidableEq ι] [DecidableEq η] (outside : member ∉ members)
    (found : index (key member) = some entry) :
    Exact index (Function.update tally entry (tally entry + 1)) key (insert member members) := by
  refine ⟨fun other inside => ?_, fun place other held => ?_, sound.apart⟩
  · rcases Finset.mem_insert.mp inside with rfl | earlier
    · exact ⟨entry, found⟩
    · exact sound.present other earlier
  · rw [count_insert outside]
    by_cases same : other = entry
    · subst same
      rw [Function.update_self, if_pos (sound.apart _ _ _ found held), sound.counted _ _ held]
    · have elsewhere : key member ≠ place := by
        rintro rfl
        exact same (Option.some.inj (held.symm.trans found))
      rw [Function.update_of_ne same, if_neg elsewhere, Nat.add_zero, sound.counted _ _ held]

/-- A member that leaves takes itself off its entry. -/
theorem dismiss [DecidableEq ι] [DecidableEq η] (inside : member ∈ members)
    (found : index (key member) = some entry) :
    Exact index (Function.update tally entry (tally entry - 1)) key (members.erase member) := by
  refine ⟨fun other stays => sound.present other (Finset.mem_of_mem_erase stays),
    fun place other held => ?_, sound.apart⟩
  have counted := sound.counted _ _ held
  rw [count_erase inside] at counted
  by_cases same : other = entry
  · subst same
    rw [if_pos (sound.apart _ _ _ found held)] at counted
    rw [Function.update_self, counted, Nat.add_sub_cancel]
  · have elsewhere : key member ≠ place := by
      rintro rfl
      exact same (Option.some.inj (held.symm.trans found))
    rw [if_neg elsewhere, Nat.add_zero] at counted
    rw [Function.update_of_ne same, counted]

/-- Only the keys of members matter. -/
theorem rekey {other : ι → κ} (same : ∀ member ∈ members, other member = key member) :
    Exact index tally other members := by
  refine ⟨fun member inside => ?_, fun place entry held => ?_, sound.apart⟩
  · rw [same member inside]
    exact sound.present member inside
  · rw [count_congr same]
    exact sound.counted place entry held

/-- Only the counts of entries matter. -/
theorem recount {other : η → Nat}
    (same : ∀ place entry, index place = some entry → other entry = tally entry) :
    Exact index other key members := by
  refine ⟨sound.present, fun place entry held => ?_, sound.apart⟩
  rw [same place entry held]
  exact sound.counted place entry held

/-- An entry for a key that has none counts no one. -/
theorem create [DecidableEq η] {place : κ} (missing : index place = none)
    (fresh : ∀ other, index other ≠ some entry) :
    Exact (Function.update index place (some entry)) (Function.update tally entry 0) key
      members := by
  have held : ∀ {other found}, Function.update index place (some entry) other = some found →
      (other = place ∧ found = entry) ∨ (found ≠ entry ∧ index other = some found) := by
    intro other found isHeld
    by_cases same : other = place
    · subst same
      rw [Function.update_self] at isHeld
      exact .inl ⟨rfl, (Option.some.inj isHeld).symm⟩
    · rw [Function.update_of_ne same] at isHeld
      refine .inr ⟨?_, isHeld⟩
      rintro rfl
      exact fresh other isHeld
  have elsewhere : ∀ member ∈ members, key member ≠ place := by
    rintro member inside rfl
    obtain ⟨found, isHeld⟩ := sound.present member inside
    cases missing.symm.trans isHeld
  refine ⟨fun member inside => ?_, fun other found isHeld => ?_, fun first second found one two => ?_⟩
  · rw [Function.update_of_ne (elsewhere member inside)]
    exact sound.present member inside
  · rcases held isHeld with ⟨rfl, rfl⟩ | ⟨different, earlier⟩
    · rw [Function.update_self, count_eq_zero elsewhere]
    · rw [Function.update_of_ne different, sound.counted _ _ earlier]
  · rcases held one with ⟨rfl, rfl⟩ | ⟨different, earlier⟩
    · rcases held two with ⟨rfl, -⟩ | ⟨absurdity, -⟩
      · rfl
      · exact absurd rfl absurdity
    · rcases held two with ⟨-, rfl⟩ | ⟨-, later⟩
      · exact absurd rfl different
      · exact sound.apart _ _ _ earlier later

/-- Entries that count someone stay, the others may be dropped. -/
theorem drop {fewer : κ → Option η}
    (held : ∀ place entry, fewer place = some entry → index place = some entry)
    (stays : ∀ place entry, index place = some entry → 0 < tally entry →
      fewer place = some entry) :
    Exact fewer tally key members := by
  refine ⟨fun member inside => ?_, fun place entry found => ?_, fun place other entry one two => ?_⟩
  · obtain ⟨entry, found⟩ := sound.present member inside
    exact ⟨entry, stays _ _ found (sound.pos inside found)⟩
  · exact sound.counted place entry (held place entry found)
  · exact sound.apart place other entry (held _ _ one) (held _ _ two)

end Exact

end Headcount
