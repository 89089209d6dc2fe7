import Mathlib.Data.List.DropRight
import StratumBridge.Chain.Block

/-! # Miner-supplied text

Numbers arrive as text. This file holds the parsing and formatting the submission
path uses: radix parsing of 64-bit integers, removal of `0x`, zero padding, and
the text of a hash.
-/

namespace StratumBridge.Text

/-- The value of a digit character, if it is below the radix. -/
def digitValue (radix : Nat) (char : Char) : Option Nat :=
  let value :=
    if '0' ≤ char ∧ char ≤ '9' then some (char.toNat - '0'.toNat)
    else if 'a' ≤ char ∧ char ≤ 'z' then some (char.toNat - 'a'.toNat + 10)
    else if 'A' ≤ char ∧ char ≤ 'Z' then some (char.toNat - 'A'.toNat + 10)
    else none
  value.filter (· < radix)

/-- Digits read most significant first onto an accumulator. -/
def readDigits (radix : Nat) : List Char → Nat → Option Nat
  | [], value => some value
  | char :: rest, value =>
      match digitValue radix char with
      | some digit => readDigits radix rest (value * radix + digit)
      | none => none

/-- `u64::from_str_radix`: one leading plus sign, at least one digit, no overflow. -/
def parseU64 (radix : Nat) (text : List Char) : Option Nat :=
  let digits :=
    match text with
    | '+' :: rest => rest
    | digits => digits
  if digits = [] then none
  else (readDigits radix digits 0).filter (· < 2 ^ 64)

/-- `str::replace("0x", "")`. -/
def remove0x : List Char → List Char
  | '0' :: 'x' :: rest => remove0x rest
  | char :: rest => char :: remove0x rest
  | [] => []

/-- Pad on the left with zeros up to a width. -/
def padZeros (width : Nat) (text : List Char) : List Char :=
  List.replicate (width - text.length) '0' ++ text

def decimal (value : Nat) : List Char := Nat.toDigits 10 value

/-- Sixteen lowercase hex digits of a 64-bit word. -/
def hex16 (word : Nat) : List Char := padZeros 16 (Nat.toDigits 16 (word % 2 ^ 64))

/-- The 64 lowercase hex digits of a hash. -/
def ofHash (hash : Hash) : List Char := padZeros 64 (Nat.toDigits 16 hash.toNat)

/-- `str::contains`. -/
def contains (needle : List Char) : List Char → Bool
  | [] => needle.isEmpty
  | char :: rest => needle.isPrefixOf (char :: rest) || contains needle rest

def toLowercase (text : List Char) : List Char := text.map Char.toLower

/-- The characters with the Unicode property `White_Space`. -/
def isWhiteSpace (char : Char) : Bool :=
  let code := char.toNat
  (9 ≤ code ∧ code ≤ 13) ∨ (0x2000 ≤ code ∧ code ≤ 0x200A) ∨
    code ∈ [0x20, 0x85, 0xA0, 0x1680, 0x2028, 0x2029, 0x202F, 0x205F, 0x3000]

/-- `str::trim`. -/
def trim (text : List Char) : List Char :=
  ((text.dropWhile isWhiteSpace).reverse.dropWhile isWhiteSpace).reverse

/-- The first of `str::lines`. -/
def firstLine (text : List Char) : List Char :=
  let line := text.takeWhile (· ≠ '\n')
  if text.contains '\n' ∧ line.getLast? = some '\r' then line.dropLast else line

def ofString (string : String) : List Char := string.toList

/-! ## Trimmed text -/

theorem dropWhile_trim (text : List Char) :
    (trim text).dropWhile isWhiteSpace = trim text := by
  have front : trim text <+: text.dropWhile isWhiteSpace :=
    List.rdropWhile_prefix isWhiteSpace _
  cases trimmed : trim text with
  | nil => rfl
  | cons char rest =>
      obtain ⟨back, whole⟩ := trimmed ▸ front
      have first := List.head?_dropWhile_not isWhiteSpace text
      rw [← whole] at first
      exact List.dropWhile_cons_of_neg (Bool.eq_false_iff.mp (by simpa using first))

theorem rdropWhile_trim (text : List Char) :
    (trim text).rdropWhile isWhiteSpace = trim text :=
  List.rdropWhile_idempotent isWhiteSpace (text.dropWhile isWhiteSpace)

@[simp] theorem trim_idem (text : List Char) :
    trim (trim text) = trim text := by
  calc trim (trim text)
      = ((trim text).dropWhile isWhiteSpace).rdropWhile isWhiteSpace := rfl
    _ = trim text := by rw [dropWhile_trim, rdropWhile_trim]

/-- A trimmed text stays trimmed behind a character that is no white space. -/
theorem trim_cons {char : Char} {text : List Char} (black : isWhiteSpace char = false)
    (nonempty : text ≠ []) (trimmed : trim text = text) :
    trim (char :: text) = char :: text := by
  have ends : text.rdropWhile isWhiteSpace = text := trimmed ▸ rdropWhile_trim text
  have last := List.rdropWhile_eq_self_iff.mp ends nonempty
  have kept : (char :: text).rdropWhile isWhiteSpace = char :: text := by
    refine List.rdropWhile_eq_self_iff.mpr fun _ => ?_
    rwa [List.getLast_cons nonempty]
  calc trim (char :: text)
      = ((char :: text).dropWhile isWhiteSpace).rdropWhile isWhiteSpace := rfl
    _ = char :: text := by rw [List.dropWhile_cons_of_neg (by simp [black]), kept]

/-- Something is left of a text that does not begin with white space. -/
theorem trim_ne_nil {char : Char} {rest : List Char} (black : isWhiteSpace char = false) :
    trim (char :: rest) ≠ [] := by
  have first : (char :: rest).dropWhile isWhiteSpace = char :: rest :=
    List.dropWhile_cons_of_neg (by simp [black])
  have ends : trim (char :: rest) = (char :: rest).rdropWhile isWhiteSpace := by
    rw [trim, first]
    rfl
  rw [ends]
  intro nothing
  have white := List.rdropWhile_eq_nil_iff.mp nothing char List.mem_cons_self
  exact Bool.false_ne_true (black.symm.trans white)

/-! ## Reading back what was written -/

section Digits

variable {radix : Nat}

theorem readDigits_append (front back : List Char) (value : Nat) :
    readDigits radix (front ++ back) value =
      (readDigits radix front value).bind (readDigits radix back) := by
  induction front generalizing value with
  | nil => rfl
  | cons char rest ih =>
      simp only [List.cons_append, readDigits]
      cases digitValue radix char with
      | none => rfl
      | some digit => exact ih _

theorem digitValue_digitChar (small : radix ≤ 16) {digit : Nat} (below : digit < radix) :
    digitValue radix digit.digitChar = some digit := by
  have written : ∀ digit : Fin 16, ((if '0' ≤ digit.val.digitChar ∧ digit.val.digitChar ≤ '9' then
      some (digit.val.digitChar.toNat - '0'.toNat)
    else if 'a' ≤ digit.val.digitChar ∧ digit.val.digitChar ≤ 'z' then
      some (digit.val.digitChar.toNat - 'a'.toNat + 10)
    else if 'A' ≤ digit.val.digitChar ∧ digit.val.digitChar ≤ 'Z' then
      some (digit.val.digitChar.toNat - 'A'.toNat + 10)
    else none) : Option Nat) = some digit.val := by decide
  have read := written ⟨digit, by omega⟩
  unfold digitValue
  rw [read]
  exact Option.filter_some_pos (decide_eq_true below)

theorem readDigits_replicate_zero (positive : 0 < radix) (small : radix ≤ 16) (count : Nat) :
    readDigits radix (List.replicate count '0') 0 = some 0 := by
  have zero : digitValue radix '0' = some 0 := digitValue_digitChar small positive
  induction count with
  | zero => rfl
  | succ count ih => simpa only [List.replicate_succ, readDigits, zero, Nat.zero_mul] using ih

theorem readDigits_toDigits (large : 1 < radix) (small : radix ≤ 16) (value : Nat) :
    readDigits radix (Nat.toDigits radix value) 0 = some value := by
  induction value using Nat.strongRecOn with
  | ind value ih =>
      by_cases below : value < radix
      · simp only [Nat.toDigits_of_lt_base below, readDigits, digitValue_digitChar small below,
          Nat.zero_mul, Nat.zero_add]
      · have quotient : value / radix < value := Nat.div_lt_self (by omega) large
        have digit : value % radix < radix := Nat.mod_lt _ (by omega)
        rw [Nat.toDigits_of_base_le large (by omega), readDigits_append, ih _ quotient]
        simp only [Option.bind_some, readDigits, digitValue_digitChar small digit]
        rw [Nat.mul_comm, Nat.div_add_mod]

/-- Padding does not change the number read. -/
theorem readDigits_padZeros (large : 1 < radix) (small : radix ≤ 16) (width value : Nat) :
    readDigits radix (padZeros width (Nat.toDigits radix value)) 0 = some value := by
  rw [padZeros, readDigits_append, readDigits_replicate_zero (by omega) small, Option.bind_some,
    readDigits_toDigits large small]

/-- What reads as a number is ASCII. -/
theorem ascii_of_readDigits {text : List Char} {start value : Nat}
    (read : readDigits radix text start = some value) : ∀ char ∈ text, char.toNat < 128 := by
  induction text generalizing start with
  | nil => exact fun char member => nomatch member
  | cons first rest ih =>
      unfold readDigits at read
      split at read
      case h_2 => exact nomatch read
      case h_1 digit isDigit =>
        intro char member
        rcases List.mem_cons.mp member with rfl | later
        · unfold digitValue at isDigit
          have bound : ∀ last : Char, last.toNat < 128 → char ≤ last → char.toNat < 128 :=
            fun last below le => Nat.lt_of_le_of_lt (by exact le) below
          split at isDigit
          · next range => exact bound '9' (by decide) range.2
          · split at isDigit
            · next range => exact bound 'z' (by decide) range.2
            · split at isDigit
              · next range => exact bound 'Z' (by decide) range.2
              · exact nomatch isDigit
        · exact ih read char later

end Digits

theorem decimal_injective : Function.Injective decimal := by
  intro first second same
  have read := @readDigits_toDigits 10 (by decide) (by decide) first
  rw [show Nat.toDigits 10 first = Nat.toDigits 10 second from same,
    readDigits_toDigits (by decide) (by decide)] at read
  exact (Option.some.inj read).symm

theorem readDigits_hex16 {word : Nat} (small : word < 2 ^ 64) :
    readDigits 16 (hex16 word) 0 = some word := by
  rw [hex16, Nat.mod_eq_of_lt small]
  exact readDigits_padZeros (by decide) (by decide) 16 word

theorem length_hex16 (word : Nat) : (hex16 word).length = 16 := by
  have digits : (Nat.toDigits 16 (word % 2 ^ 64)).length ≤ 16 :=
    (Nat.length_toDigits_le_iff (by decide) (by decide)).mpr (Nat.mod_lt _ (by decide))
  rw [hex16, padZeros, List.length_append, List.length_replicate]
  omega

end StratumBridge.Text
