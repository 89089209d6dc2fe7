import Mathlib.Data.List.Basic

/-! # Encodings that can be read off a stream

An encoding is prefix-free on a domain when the front of a stream determines the encoded
value and the rest. Such encodings can be put one after the other, and a counted list of
them is such an encoding again.
-/

namespace PrefixCode

variable {α δ : Type*}

/-- Encodings of the domain never run into what follows them. -/
def PrefixFree (domain : α → Prop) (encode : α → List δ) : Prop :=
  ∀ ⦃first second⦄, domain first → domain second → ∀ ⦃front back⦄,
    encode first ++ front = encode second ++ back → first = second ∧ front = back

variable {domain : α → Prop} {encode : α → List δ}

theorem PrefixFree.injOn (free : PrefixFree domain encode) {first second : α}
    (inFirst : domain first) (inSecond : domain second)
    (same : encode first = encode second) : first = second := by
  have extended : encode first ++ [] = encode second ++ [] := by rw [same]
  exact (free inFirst inSecond extended).1

/-- An injective encoding of one length. -/
theorem prefixFree_of_length (length : Nat)
    (sized : ∀ value, domain value → (encode value).length = length)
    (injective : ∀ first second, domain first → domain second →
      encode first = encode second → first = second) :
    PrefixFree domain encode := by
  intro first second inFirst inSecond front back same
  have lengths : (encode first).length = (encode second).length :=
    (sized first inFirst).trans (sized second inSecond).symm
  obtain ⟨whole, rest⟩ := List.append_inj same lengths
  exact ⟨injective first second inFirst inSecond whole, rest⟩

/-- Two lists of one length, encoded item by item. -/
theorem PrefixFree.items (free : PrefixFree domain encode) {first second : List α}
    (inFirst : ∀ item ∈ first, domain item) (inSecond : ∀ item ∈ second, domain item)
    (lengths : first.length = second.length) {front back : List δ}
    (same : first.flatMap encode ++ front = second.flatMap encode ++ back) :
    first = second ∧ front = back := by
  induction first generalizing second with
  | nil =>
      obtain rfl := List.length_eq_zero_iff.mp lengths.symm
      exact ⟨rfl, same⟩
  | cons item rest ih =>
      cases second with
      | nil => exact absurd lengths (Nat.succ_ne_zero _)
      | cons other others =>
          rw [List.flatMap_cons, List.flatMap_cons, List.append_assoc, List.append_assoc] at same
          rw [List.forall_mem_cons] at inFirst inSecond
          obtain ⟨rfl, tails⟩ := free inFirst.1 inSecond.1 same
          obtain ⟨rfl, ends⟩ := ih inFirst.2 inSecond.2 (Nat.succ.inj lengths) tails
          exact ⟨rfl, ends⟩

/-- A list behind its own count. -/
theorem PrefixFree.counted {bound : Nat} {count : Nat → List δ}
    (counts : PrefixFree (· < bound) count) (free : PrefixFree domain encode) :
    PrefixFree (fun items : List α => items.length < bound ∧ ∀ item ∈ items, domain item)
      fun items => count items.length ++ items.flatMap encode := by
  intro first second inFirst inSecond front back same
  rw [List.append_assoc, List.append_assoc] at same
  obtain ⟨lengths, items⟩ := counts inFirst.1 inSecond.1 same
  exact free.items inFirst.2 inSecond.2 lengths items

end PrefixCode
