import Mathlib

/-! # Slices of UTF-8 text

Text is a list of characters, but its offsets count bytes. A slice from an offset exists
when the offset lies within the text and between two characters; otherwise the program
panics.
-/

namespace Slices

def byteLength (text : List Char) : Nat := (text.map Char.utf8Size).sum

/-- `&text[offset..]`; nothing is a panic. -/
def sliceFrom : List Char → Nat → Option (List Char)
  | text, 0 => some text
  | [], _ + 1 => none
  | char :: rest, offset + 1 =>
      if char.utf8Size ≤ offset + 1 then sliceFrom rest (offset + 1 - char.utf8Size) else none

/-- `text.find(pattern)`: the offset of the first occurrence. -/
def find (pattern : List Char) : List Char → Option Nat
  | [] => if pattern = [] then some 0 else none
  | char :: rest =>
      if pattern.isPrefixOf (char :: rest) then some 0
      else (find pattern rest).map (· + char.utf8Size)

@[simp] theorem byteLength_nil : byteLength [] = 0 := rfl

@[simp] theorem byteLength_cons (char : Char) (rest : List Char) :
    byteLength (char :: rest) = char.utf8Size + byteLength rest := by
  rw [byteLength, List.map_cons, List.sum_cons, byteLength]

@[simp] theorem byteLength_append (front back : List Char) :
    byteLength (front ++ back) = byteLength front + byteLength back := by
  induction front with
  | nil => simp
  | cons char rest ih => simp [ih, Nat.add_assoc]

/-- Characters of one byte are counted by their number. -/
theorem byteLength_of_ascii {text : List Char} (ascii : ∀ char ∈ text, char.val ≤ 127) :
    byteLength text = text.length := by
  induction text with
  | nil => rfl
  | cons char rest ih =>
      obtain ⟨first, others⟩ := List.forall_mem_cons.mp ascii
      rw [byteLength_cons, Char.utf8Size_eq_one_iff.mpr first, ih others, List.length_cons,
        Nat.add_comm]

/-- A slice from the end of a front part is the rest. -/
theorem sliceFrom_append (front back : List Char) :
    sliceFrom (front ++ back) (byteLength front) = some back := by
  induction front with
  | nil => cases back <;> rfl
  | cons char rest ih =>
      have positive := char.utf8Size_pos
      obtain ⟨offset, whole⟩ : ∃ offset, byteLength (char :: rest) = offset + 1 :=
        Nat.exists_eq_succ_of_ne_zero (by rw [byteLength_cons]; omega)
      have size := byteLength_cons char rest
      have left : offset + 1 - char.utf8Size = byteLength rest := by omega
      rw [whole, List.cons_append, sliceFrom, if_pos (by omega), left, ih]

/-- Past the end there is no slice. -/
theorem sliceFrom_past {text : List Char} {offset : Nat} (past : byteLength text < offset) :
    sliceFrom text offset = none := by
  induction text generalizing offset with
  | nil =>
      obtain ⟨offset, rfl⟩ := Nat.exists_eq_succ_of_ne_zero (Nat.ne_of_gt past)
      rfl
  | cons char rest ih =>
      rw [byteLength_cons] at past
      obtain ⟨offset, rfl⟩ := Nat.exists_eq_succ_of_ne_zero (show offset ≠ 0 by omega)
      rw [sliceFrom, if_pos (by omega)]
      exact ih (by omega)

/-- Where a pattern is found, the text splits around it. -/
theorem exists_of_find {pattern text : List Char} {offset : Nat}
    (found : find pattern text = some offset) :
    ∃ front back, text = front ++ (pattern ++ back) ∧ offset = byteLength front := by
  induction text generalizing offset with
  | nil =>
      rw [find] at found
      split at found
      case isTrue empty =>
        cases found
        exact ⟨[], [], by rw [empty]; rfl, rfl⟩
      case isFalse => cases found
  | cons char rest ih =>
      rw [find] at found
      split at found
      case isTrue starts =>
        obtain ⟨back, whole⟩ := List.isPrefixOf_iff_prefix.mp starts
        cases found
        exact ⟨[], back, whole.symm, rfl⟩
      case isFalse =>
        obtain ⟨later, inRest, rfl⟩ := Option.map_eq_some_iff.mp found
        obtain ⟨front, back, rfl, rfl⟩ := ih inRest
        exact ⟨char :: front, back, rfl, by rw [byteLength_cons, Nat.add_comm]⟩

theorem isSome_find_iff {pattern text : List Char} :
    (find pattern text).isSome ↔ pattern <:+: text := by
  constructor
  · intro found
    obtain ⟨offset, found⟩ := Option.isSome_iff_exists.mp found
    obtain ⟨front, back, whole, -⟩ := exists_of_find found
    exact ⟨front, back, by rw [List.append_assoc, whole]⟩
  · rintro ⟨front, back, rfl⟩
    induction front with
    | nil =>
        cases shape : pattern ++ back with
        | nil =>
            rw [List.nil_append, shape, find, if_pos (List.append_eq_nil_iff.mp shape).1]
            rfl
        | cons char rest =>
            have starts : pattern.isPrefixOf (char :: rest) = true :=
              List.isPrefixOf_iff_prefix.mpr (shape ▸ List.prefix_append pattern back)
            rw [List.nil_append, shape, find, if_pos starts]
            rfl
    | cons char front ih =>
        rw [List.cons_append, List.cons_append, find]
        split
        · rfl
        · rw [Option.isSome_map]
          exact ih

end Slices
