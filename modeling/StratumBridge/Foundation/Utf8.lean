import Mathlib.Data.List.Basic

/-! # Lossy decoding of UTF-8

A decoder that replaces what is not UTF-8: each longest start of a character that is not
continued, and each byte that can start none, becomes one replacement character. The decoder
keeps the character it is inside of, so it can be fed one byte at a time.
-/

namespace Utf8

/-- A character of several bytes, as far as it was read: its value so far, how many bytes it
still needs, and the bounds of the next one. -/
structure Partial where
  value : Nat
  needed : Nat
  low : Nat
  high : Nat
deriving DecidableEq

def replacement : Char := '\uFFFD'

/-- Read a byte outside of a character. -/
def start (byte : Nat) : List Char × Option Partial :=
  if byte < 0x80 then ([Char.ofNat byte], none)
  else if 0xC2 ≤ byte ∧ byte ≤ 0xDF then ([], some ⟨byte - 0xC0, 1, 0x80, 0xBF⟩)
  else if byte = 0xE0 then ([], some ⟨0, 2, 0xA0, 0xBF⟩)
  else if byte = 0xED then ([], some ⟨0xD, 2, 0x80, 0x9F⟩)
  else if 0xE1 ≤ byte ∧ byte ≤ 0xEF then ([], some ⟨byte - 0xE0, 2, 0x80, 0xBF⟩)
  else if byte = 0xF0 then ([], some ⟨0, 3, 0x90, 0xBF⟩)
  else if 0xF1 ≤ byte ∧ byte ≤ 0xF3 then ([], some ⟨byte - 0xF0, 3, 0x80, 0xBF⟩)
  else if byte = 0xF4 then ([], some ⟨4, 3, 0x80, 0x8F⟩)
  else ([replacement], none)

/-- Read a byte. One that does not continue the character ends it, and is read again. -/
def step : Option Partial → Nat → List Char × Option Partial
  | none, byte => start byte
  | some inside, byte =>
      if inside.low ≤ byte ∧ byte ≤ inside.high then
        let value := inside.value * 64 + (byte - 0x80)
        if inside.needed = 1 then ([Char.ofNat value], none)
        else ([], some ⟨value, inside.needed - 1, 0x80, 0xBF⟩)
      else (replacement :: (start byte).1, (start byte).2)

/-- Read bytes: the characters completed, and the one that is left incomplete. -/
def feed (inside : Option Partial) : List UInt8 → List Char × Option Partial
  | [] => ([], inside)
  | byte :: rest =>
      let (text, next) := step inside byte.toNat
      let (more, left) := feed next rest
      (text ++ more, left)

/-- At the end of the input an incomplete character is replaced. -/
def finish : Option Partial → List Char
  | none => []
  | some _ => [replacement]

/-- `String::from_utf8_lossy`. -/
def fromUtf8Lossy (bytes : List UInt8) : List Char :=
  let (text, left) := feed none bytes
  text ++ finish left

/-- The bytes do not end inside of a character. -/
def Whole (bytes : List UInt8) : Prop := (feed none bytes).2 = none

instance (bytes : List UInt8) : Decidable (Whole bytes) := inferInstanceAs (Decidable (_ = _))

theorem feed_append (inside : Option Partial) (front back : List UInt8) :
    feed inside (front ++ back) =
      ((feed inside front).1 ++ (feed (feed inside front).2 back).1,
        (feed (feed inside front).2 back).2) := by
  induction front generalizing inside with
  | nil => rfl
  | cons byte rest ih =>
      simp only [List.cons_append, feed, ih, List.append_assoc]

/-- **Decoding in parts.** What does not end inside of a character can be decoded on its own. -/
theorem fromUtf8Lossy_append {front : List UInt8} (whole : Whole front) (back : List UInt8) :
    fromUtf8Lossy (front ++ back) = fromUtf8Lossy front ++ fromUtf8Lossy back := by
  have left : (feed none front).2 = none := whole
  simp only [fromUtf8Lossy, feed_append, left, finish, List.append_nil, List.append_assoc]

end Utf8
