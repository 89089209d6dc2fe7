import Mathlib.Data.BitVec
import Mathlib.Data.Nat.Digits.Defs

/-! # Numbers as bytes

A number of a fixed count of bytes, in both byte orders, and the hexadecimal text of
bytes, two digits each.
-/

namespace Bytes

/-- The low bytes of a number, least significant first. -/
def ofNatLE : Nat → Nat → List (BitVec 8)
  | 0, _ => []
  | count + 1, value => BitVec.ofNat 8 value :: ofNatLE count (value / 256)

/-- The number that bytes stand for, least significant first. -/
def toNatLE : List (BitVec 8) → Nat
  | [] => 0
  | byte :: rest => byte.toNat + 256 * toNatLE rest

/-- The low bytes of a number, most significant first. -/
def ofNatBE (count value : Nat) : List (BitVec 8) := (ofNatLE count value).reverse

/-- The number that bytes stand for, most significant first. -/
def toNatBE (bytes : List (BitVec 8)) : Nat := toNatLE bytes.reverse

/-! ## Numbers -/

@[simp] theorem length_ofNatLE (count value : Nat) : (ofNatLE count value).length = count := by
  induction count generalizing value with
  | zero => rfl
  | succ count ih => simp only [ofNatLE, List.length_cons, ih]

@[simp] theorem length_ofNatBE (count value : Nat) : (ofNatBE count value).length = count := by
  simp only [ofNatBE, List.length_reverse, length_ofNatLE]

theorem toNatLE_ofNatLE (count value : Nat) :
    toNatLE (ofNatLE count value) = value % 256 ^ count := by
  induction count generalizing value with
  | zero => simp only [ofNatLE, toNatLE, pow_zero, Nat.mod_one]
  | succ count ih =>
      have places : value % 256 ^ (count + 1) =
          value % 256 + 256 * (value / 256 % 256 ^ count) := by
        rw [pow_succ', Nat.mod_mul]
      rw [ofNatLE, toNatLE, ih, BitVec.toNat_ofNat, places]

theorem toNatBE_ofNatBE (count value : Nat) :
    toNatBE (ofNatBE count value) = value % 256 ^ count := by
  rw [toNatBE, ofNatBE, List.reverse_reverse, toNatLE_ofNatLE]

theorem toNatLE_lt (bytes : List (BitVec 8)) : toNatLE bytes < 256 ^ bytes.length := by
  induction bytes with
  | nil => simp only [toNatLE, List.length_nil, pow_zero, Nat.zero_lt_one]
  | cons byte rest ih =>
      have small : byte.toNat < 256 := byte.isLt
      rw [toNatLE, List.length_cons, pow_succ']
      omega

theorem ofNatLE_toNatLE (bytes : List (BitVec 8)) :
    ofNatLE bytes.length (toNatLE bytes) = bytes := by
  induction bytes with
  | nil => rfl
  | cons byte rest ih =>
      have small : byte.toNat < 256 := byte.isLt
      have low : BitVec.ofNat 8 (byte.toNat + 256 * toNatLE rest) = byte := by
        apply BitVec.eq_of_toNat_eq
        rw [BitVec.toNat_ofNat]
        omega
      have high : (byte.toNat + 256 * toNatLE rest) / 256 = toNatLE rest := by omega
      rw [List.length_cons, toNatLE, ofNatLE, low, high, ih]

theorem ofNatBE_toNatBE (bytes : List (BitVec 8)) :
    ofNatBE bytes.length (toNatBE bytes) = bytes := by
  have same := ofNatLE_toNatLE bytes.reverse
  rw [List.length_reverse] at same
  rw [ofNatBE, toNatBE, same, List.reverse_reverse]

/-- The bytes of a count only see the number modulo their range. -/
theorem ofNatLE_mod (count value : Nat) :
    ofNatLE count (value % 256 ^ count) = ofNatLE count value := by
  have same := ofNatLE_toNatLE (ofNatLE count value)
  rwa [length_ofNatLE, toNatLE_ofNatLE] at same

theorem ofNatBE_mod (count value : Nat) :
    ofNatBE count (value % 256 ^ count) = ofNatBE count value := by
  rw [ofNatBE, ofNatLE_mod, ofNatBE]

/-- A number of the size is determined by its bytes. -/
theorem eq_of_ofNatLE_eq {count first second : Nat} (small : first < 256 ^ count)
    (fits : second < 256 ^ count) (same : ofNatLE count first = ofNatLE count second) :
    first = second := by
  have read := congrArg toNatLE same
  rwa [toNatLE_ofNatLE, toNatLE_ofNatLE, Nat.mod_eq_of_lt small, Nat.mod_eq_of_lt fits] at read

/-- The bytes of a number, by their places. -/
theorem ofNatLE_eq_map (count value : Nat) :
    ofNatLE count value =
      (List.range count).map fun index => BitVec.ofNat 8 (value >>> (8 * index)) := by
  induction count generalizing value with
  | zero => rfl
  | succ count ih =>
      rw [ofNatLE, ih, List.range_succ_eq_map, List.map_cons, List.map_map]
      congr 1
      apply List.map_congr_left
      intro index _
      have regrouped : 8 * (index + 1) = 8 + 8 * index := by omega
      simp only [Function.comp_apply, Nat.succ_eq_add_one, regrouped, Nat.shiftRight_add]
      rw [Nat.shiftRight_eq_div_pow value 8]

theorem ofNatLE_add (low high value : Nat) :
    ofNatLE (low + high) value = ofNatLE low value ++ ofNatLE high (value / 256 ^ low) := by
  induction low generalizing value with
  | zero => simp only [Nat.zero_add, pow_zero, Nat.div_one, ofNatLE, List.nil_append]
  | succ low ih =>
      rw [Nat.succ_add, ofNatLE, ih, ofNatLE, List.cons_append, Nat.div_div_eq_div_mul, pow_succ']

theorem ofNatBE_add (low high value : Nat) :
    ofNatBE (low + high) value = ofNatBE high (value / 256 ^ low) ++ ofNatBE low value := by
  rw [ofNatBE, ofNatLE_add, List.reverse_append, ofNatBE, ofNatBE]

theorem ofNatBE_succ (count value : Nat) :
    ofNatBE (count + 1) value = ofNatBE count (value / 256) ++ [BitVec.ofNat 8 value] := by
  rw [ofNatBE, ofNatLE, List.reverse_cons, ofNatBE]

theorem toNatLE_append (front back : List (BitVec 8)) :
    toNatLE (front ++ back) = toNatLE front + 256 ^ front.length * toNatLE back := by
  induction front with
  | nil => simp only [List.nil_append, toNatLE, List.length_nil, pow_zero, Nat.one_mul, Nat.zero_add]
  | cons byte rest ih =>
      rw [List.cons_append, toNatLE, toNatLE, ih, List.length_cons, pow_succ', Nat.mul_add,
        Nat.add_assoc, Nat.mul_assoc]

/-- Leading zeros do not count. -/
theorem toNatBE_dropWhile (bytes : List (BitVec 8)) :
    toNatBE (bytes.dropWhile fun byte => byte = 0) = toNatBE bytes := by
  induction bytes with
  | nil => rfl
  | cons byte rest ih =>
      rw [List.dropWhile_cons]
      split
      case isTrue zero =>
        have nothing : byte = 0 := of_decide_eq_true zero
        have tail : toNatLE [(0 : BitVec 8)] = 0 := rfl
        rw [ih, nothing]
        simp only [toNatBE, List.reverse_cons, toNatLE_append, tail, Nat.mul_zero, Nat.add_zero]
      case isFalse => rfl

/-! ## Hexadecimal text -/

def hexByte (byte : BitVec 8) : List Char :=
  [(byte.toNat / 16).digitChar, (byte.toNat % 16).digitChar]

def hexEncode (bytes : List (BitVec 8)) : List Char := bytes.flatMap hexByte

/-- The value of a hexadecimal digit of either case. -/
def hexValue (char : Char) : Option Nat :=
  if '0' ≤ char ∧ char ≤ '9' then some (char.toNat - '0'.toNat)
  else if 'a' ≤ char ∧ char ≤ 'f' then some (char.toNat - 'a'.toNat + 10)
  else if 'A' ≤ char ∧ char ≤ 'F' then some (char.toNat - 'A'.toNat + 10)
  else none

def hexDecode : List Char → Option (List (BitVec 8))
  | [] => some []
  | [_] => none
  | high :: low :: rest => do
      let high ← hexValue high
      let low ← hexValue low
      let bytes ← hexDecode rest
      return BitVec.ofNat 8 (16 * high + low) :: bytes

/-- The lowest hexadecimal digits of a number, most significant first. -/
def fixedDigits : Nat → Nat → List Char
  | 0, _ => []
  | count + 1, value => fixedDigits count (value / 16) ++ [(value % 16).digitChar]

@[simp] theorem hexEncode_append (front back : List (BitVec 8)) :
    hexEncode (front ++ back) = hexEncode front ++ hexEncode back :=
  List.flatMap_append

theorem length_hexEncode (bytes : List (BitVec 8)) :
    (hexEncode bytes).length = 2 * bytes.length := by
  induction bytes with
  | nil => rfl
  | cons byte rest ih =>
      change (hexEncode rest).length + 1 + 1 = 2 * (rest.length + 1)
      omega

theorem hexValue_digitChar {digit : Nat} (below : digit < 16) :
    hexValue digit.digitChar = some digit := by
  have read : ∀ digit : Fin 16, hexValue digit.val.digitChar = some digit.val := by decide
  exact read ⟨digit, below⟩

/-- Hexadecimal text reads back as its bytes. -/
theorem hexDecode_hexEncode (bytes : List (BitVec 8)) :
    hexDecode (hexEncode bytes) = some bytes := by
  induction bytes with
  | nil => rfl
  | cons byte rest ih =>
      have small : byte.toNat < 256 := byte.isLt
      have whole : BitVec.ofNat 8 (16 * (byte.toNat / 16) + byte.toNat % 16) = byte := by
        apply BitVec.eq_of_toNat_eq
        rw [BitVec.toNat_ofNat]
        omega
      change hexDecode (_ :: _ :: hexEncode rest) = _
      simp only [hexDecode, hexValue_digitChar (show byte.toNat / 16 < 16 by omega),
        hexValue_digitChar (show byte.toNat % 16 < 16 by omega), ih, Option.bind_eq_bind,
        Option.bind_some, Option.pure_def, whole]

theorem hexEncode_ofNatBE (count value : Nat) :
    hexEncode (ofNatBE count value) = fixedDigits (2 * count) value := by
  induction count generalizing value with
  | zero => rfl
  | succ count ih =>
      have digits : 2 * (count + 1) = 2 * count + 1 + 1 := by omega
      have high : value % 256 / 16 = value / 16 % 16 := by omega
      have low : value % 256 % 16 = value % 16 := by omega
      rw [ofNatBE_succ, hexEncode_append, ih, digits, fixedDigits, fixedDigits,
        Nat.div_div_eq_div_mul, List.append_assoc]
      change _ ++ [(BitVec.toNat _ / 16).digitChar, (BitVec.toNat _ % 16).digitChar] = _
      rw [BitVec.toNat_ofNat]
      change _ ++ [(value % 256 / 16).digitChar, (value % 256 % 16).digitChar] = _
      rw [high, low]
      rfl

theorem fixedDigits_zero (count : Nat) : fixedDigits count 0 = List.replicate count '0' := by
  induction count with
  | zero => rfl
  | succ count ih => rw [fixedDigits, Nat.zero_div, ih, List.replicate_succ']; rfl

/-- Digits padded with zeros to a width are the fixed digits of that width. -/
theorem pad_toDigits {count value : Nat} (positive : 0 < count) (small : value < 16 ^ count) :
    List.replicate (count - (Nat.toDigits 16 value).length) '0' ++ Nat.toDigits 16 value =
      fixedDigits count value := by
  induction count generalizing value with
  | zero => omega
  | succ count ih =>
      by_cases below : value < 16
      · rw [Nat.toDigits_of_lt_base below, List.length_singleton, Nat.add_sub_cancel, fixedDigits,
          Nat.div_eq_of_lt below, fixedDigits_zero, Nat.mod_eq_of_lt below]
      · have quotient : value / 16 < 16 ^ count := by
          rw [pow_succ] at small
          omega
        have wide : 0 < count := by
          by_contra none
          have zero : count = 0 := by omega
          rw [zero, pow_zero] at quotient
          omega
        rw [Nat.toDigits_of_base_le (by decide) (by omega), List.length_append,
          List.length_singleton, Nat.add_sub_add_right, ← List.append_assoc, ih wide quotient,
          fixedDigits]

end Bytes
