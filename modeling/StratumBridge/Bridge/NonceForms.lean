import Mathlib.Data.Nat.Digits.Defs
import Mathlib.Data.List.Forall2
import StratumBridge.Bridge.System

/-! # The forms of a nonce

A miner writes its nonce in hexadecimal, in either case and with or without `0x`: whole,
or, when an extranonce was assigned, only the part behind it. Whatever the form, the
submission is handled for the number meant.
-/

namespace StratumBridge

open Interaction

/-! ## Hexadecimal numerals -/

namespace Text

/-- The character is the hexadecimal digit of this value, in either case. -/
def IsHexDigit (char : Char) (digit : Nat) : Prop :=
  digit < 16 ∧ (char = digit.digitChar ∨ char = digit.digitChar.toUpper)

/-- The text writes the value in hexadecimal, behind any number of zeros. -/
def Spells (text : List Char) (value : Nat) : Prop :=
  ∃ digits, List.Forall₂ IsHexDigit text digits ∧ Nat.ofDigits 16 digits.reverse = value

theorem IsHexDigit.digitValue {char : Char} {digit : Nat} (isDigit : IsHexDigit char digit) :
    digitValue 16 char = some digit := by
  have upper : ∀ digit : Fin 16,
      Text.digitValue 16 digit.val.digitChar.toUpper = some digit.val := by decide
  obtain ⟨small, rfl | rfl⟩ := isDigit
  · exact digitValue_digitChar le_rfl small
  · exact upper ⟨digit, small⟩

theorem IsHexDigit.ne {char other : Char} {digit : Nat} (isDigit : IsHexDigit char digit)
    (noDigit : Text.digitValue 16 other = none) : char ≠ other := by
  intro same
  rw [← same, isDigit.digitValue] at noDigit
  exact nomatch noDigit

theorem readDigits_of_isHexDigit {text : List Char} {digits : List Nat}
    (written : List.Forall₂ IsHexDigit text digits) (start : Nat) :
    readDigits 16 text start =
      some (start * 16 ^ text.length + Nat.ofDigits 16 digits.reverse) := by
  induction written generalizing start with
  | nil => simp only [readDigits, List.length_nil, pow_zero, Nat.mul_one, List.reverse_nil,
      Nat.ofDigits_nil, Nat.add_zero]
  | @cons char digit rest digits isDigit written ih =>
      simp only [readDigits, isDigit.digitValue, ih, List.reverse_cons, Nat.ofDigits_append,
        List.length_reverse, Nat.ofDigits_singleton, ← written.length_eq, List.length_cons]
      congr 1
      ring

namespace Spells

variable {text front back : List Char} {value high low : Nat}

theorem nil : Spells [] 0 := ⟨[], .nil, rfl⟩

/-- Leading zeros do not count. -/
theorem zeros (spelled : Spells text value) (count : Nat) :
    Spells (List.replicate count '0' ++ text) value := by
  obtain ⟨digits, written, rfl⟩ := spelled
  have zeros : List.Forall₂ IsHexDigit (List.replicate count '0') (List.replicate count 0) := by
    induction count with
    | zero => exact .nil
    | succ count ih => exact .cons ⟨by decide, Or.inl rfl⟩ ih
  refine ⟨List.replicate count 0 ++ digits, List.rel_append zeros written, ?_⟩
  rw [List.reverse_append, List.reverse_replicate, Nat.ofDigits_append_replicate_zero]

theorem append (spelledFront : Spells front high) (spelledBack : Spells back low) :
    Spells (front ++ back) (high * 16 ^ back.length + low) := by
  obtain ⟨highDigits, writtenFront, rfl⟩ := spelledFront
  obtain ⟨lowDigits, writtenBack, rfl⟩ := spelledBack
  refine ⟨highDigits ++ lowDigits, List.rel_append writtenFront writtenBack, ?_⟩
  rw [List.reverse_append, Nat.ofDigits_append, List.length_reverse, writtenBack.length_eq]
  ring

theorem lt (spelled : Spells text value) : value < 16 ^ text.length := by
  obtain ⟨digits, written, rfl⟩ := spelled
  have small : ∀ digit ∈ digits.reverse, digit < 16 := by
    intro digit member
    obtain ⟨index, bound, rfl⟩ := List.getElem_of_mem (List.mem_reverse.mp member)
    exact (written.get (by rw [written.length_eq]; exact bound) bound).1
  have below := Nat.ofDigits_lt_base_pow_length (by decide) small
  rwa [List.length_reverse, ← written.length_eq] at below

theorem notMem (spelled : Spells text value) {char : Char}
    (noDigit : digitValue 16 char = none) : char ∉ text := by
  obtain ⟨digits, written, rfl⟩ := spelled
  intro member
  obtain ⟨index, bound, rfl⟩ := List.getElem_of_mem member
  exact (written.get bound (by rw [← written.length_eq]; exact bound)).ne noDigit rfl

/-- A numeral of a 64-bit word is read as that word. -/
theorem parseU64 (spelled : Spells text value) (nonempty : text ≠ []) (small : value < 2 ^ 64) :
    Text.parseU64 16 text = some value := by
  have unsigned : '+' ∉ text := spelled.notMem (by decide)
  obtain ⟨digits, written, rfl⟩ := spelled
  have read := readDigits_of_isHexDigit written 0
  rw [Nat.zero_mul, Nat.zero_add] at read
  rw [Text.parseU64, if_neg nonempty, read]
  · exact Option.filter_some_pos (decide_eq_true small)
  · rintro rest rfl
    exact unsigned List.mem_cons_self

end Spells

theorem remove0x_of_notMem {text : List Char} (plain : 'x' ∉ text) : remove0x text = text := by
  induction text using remove0x.induct with
  | case1 rest ih => exact absurd (List.mem_cons_of_mem _ List.mem_cons_self) plain
  | case2 char rest notMarked ih =>
      rw [remove0x, ih fun member => plain (List.mem_cons_of_mem _ member)]
      exact notMarked
  | case3 => rfl

end Text

/-! ## Forms -/

/-- The texts that mean a nonce to a connection with this extranonce: all sixteen digits
or the digits behind the extranonce; without an extranonce, one to sixteen digits. -/
inductive NonceForm (nonce : Nat) : (extranonce body : Text) → Prop where
  | whole {extranonce body : Text} (fourDigits : extranonce.length = 4)
      (assigned : Text.Spells extranonce (nonce / 2 ^ 48)) (sixteenDigits : body.length = 16)
      (spelled : Text.Spells body nonce) : NonceForm nonce extranonce body
  | extranonce2 {extranonce body : Text} (fourDigits : extranonce.length = 4)
      (assigned : Text.Spells extranonce (nonce / 2 ^ 48)) (twelveDigits : body.length ≤ 12)
      (spelled : Text.Spells body (nonce % 2 ^ 48)) : NonceForm nonce extranonce body
  | free {body : Text} (someDigits : 1 ≤ body.length) (sixteenDigits : body.length ≤ 16)
      (spelled : Text.Spells body nonce) : NonceForm nonce [] body

/-- The body as sent: bare or behind `0x`. -/
def SentAs (text body : Text) : Prop := text = body ∨ text = '0' :: 'x' :: body

namespace NonceForm

variable {nonce : Nat} {extranonce body text : Text}

theorem plain (form : NonceForm nonce extranonce body) : 'x' ∉ body := by
  cases form with
  | whole _ _ _ spelled => exact spelled.notMem (by decide)
  | extranonce2 _ _ _ spelled => exact spelled.notMem (by decide)
  | free _ _ spelled => exact spelled.notMem (by decide)

theorem remove0x (form : NonceForm nonce extranonce body) (sent : SentAs text body) :
    Text.remove0x text = body := by
  rcases sent with rfl | rfl
  · exact Text.remove0x_of_notMem form.plain
  · rw [Text.remove0x]
    exact Text.remove0x_of_notMem form.plain

/-- The text that is parsed is a numeral of the nonce, of at most sixteen digits. -/
theorem finalNonceText (form : NonceForm nonce extranonce body) (sent : SentAs text body) :
    Text.Spells (finalNonceText extranonce text) nonce ∧
      1 ≤ (StratumBridge.finalNonceText extranonce text).length ∧
      (StratumBridge.finalNonceText extranonce text).length ≤ 16 := by
  have bare := form.remove0x sent
  rw [StratumBridge.finalNonceText, bare]
  cases form with
  | whole fourDigits assigned sixteenDigits spelled =>
      have some : extranonce ≠ [] := List.ne_nil_of_length_pos (by omega)
      simp only [if_neg some]
      rw [if_neg (by omega)]
      exact ⟨spelled, by omega, by omega⟩
  | extranonce2 fourDigits assigned twelveDigits spelled =>
      have some : extranonce ≠ [] := List.ne_nil_of_length_pos (by omega)
      have padded : (Text.padZeros 12 body).length = 12 := by
        rw [Text.padZeros, List.length_append, List.length_replicate]
        omega
      have joined := assigned.append (spelled.zeros (12 - body.length))
      rw [← Text.padZeros, padded] at joined
      simp only [if_neg some, fourDigits, Nat.reduceSub]
      rw [if_pos (by omega)]
      refine ⟨?_, by rw [List.length_append]; omega, by rw [List.length_append]; omega⟩
      have whole : nonce / 2 ^ 48 * 16 ^ 12 + nonce % 2 ^ 48 = nonce := by omega
      rwa [whole] at joined
  | free someDigits sixteenDigits spelled =>
      exact ⟨spelled, someDigits, sixteenDigits⟩

theorem parsed (form : NonceForm nonce extranonce body) (sent : SentAs text body) :
    Text.parseU64 16 (StratumBridge.finalNonceText extranonce text) = some nonce := by
  obtain ⟨spelled, some, short⟩ := form.finalNonceText sent
  refine spelled.parseU64 (List.ne_nil_of_length_pos some) ?_
  calc nonce < 16 ^ (StratumBridge.finalNonceText extranonce text).length := spelled.lt
    _ ≤ 16 ^ 16 := Nat.pow_le_pow_right (by decide) short
    _ = 2 ^ 64 := by decide

end NonceForm

/-! ## Decoding -/

/-- **Every form of a nonce is decoded to it.** A submission on a found job reads its
connection. When its nonce parameter means a nonce under the extranonce read, the
submission is handled for that nonce. -/
theorem nonce_decoded [Platform] (settings : Settings) (instanceId uid correlationId : Nat)
    {event : SubmitEvent} (jobId : Nat) (job : Job) {text body : Text} {context : Context}
    {nonce : Nat} (param : nonceParam event.params = .ok text) (sent : SentAs text body)
    (form : NonceForm nonce context.extranonce body) :
    ∃ next, decodeAndHandle settings instanceId uid correlationId event jobId job =
        .call (.context uid .read) next ∧
      next context = (do
        let workerId ← effectiveWorkerName uid
        handleDecoded settings
          { uid, instanceId, eventId := event.id, correlationId, workerId, jobId, nonce
            key := submitKey workerId jobId (finalNonceText context.extranonce text) } job) := by
  refine ⟨_, by rw [decodeAndHandle, param]; rfl, ?_⟩
  simp only [Program.bind, form.parsed sent]

section Sample

attribute [local instance] Sample.platform

/-- Behind the extranonce `00aB`, `0xFf` means `00ab0000000000ff`. -/
theorem nonce_decoded_sample :
    ∃ next, decodeAndHandle Sample.settings 0 1 0
        ⟨none, [.string [], .string ['1'], .string ['0', 'x', 'F', 'f']]⟩ 1
        ⟨Sample.easyBlock, 0⟩ = .call (.context 1 .read) next ∧
      next { Sample.context none with extranonce := ['0', '0', 'a', 'B'] } = (do
        let workerId ← effectiveWorkerName 1
        handleDecoded Sample.settings
          { uid := 1, instanceId := 0, eventId := none, correlationId := 0, workerId, jobId := 1
            nonce := 0x00ab0000000000ff
            key := submitKey workerId 1
              (finalNonceText ['0', '0', 'a', 'B'] ['0', 'x', 'F', 'f']) }
          ⟨Sample.easyBlock, 0⟩) := by
  have extranonce : Text.Spells ['0', '0', 'a', 'B'] (0x00ab0000000000ff / 2 ^ 48) :=
    ⟨[0, 0, 10, 11], by simp [Text.IsHexDigit]; decide, by decide⟩
  have body : Text.Spells ['F', 'f'] (0x00ab0000000000ff % 2 ^ 48) :=
    ⟨[15, 15], by simp [Text.IsHexDigit]; decide, by decide⟩
  exact nonce_decoded Sample.settings 0 1 0 1 _ rfl (Or.inr rfl)
    (.extranonce2 rfl extranonce (by decide) body)

end Sample

end StratumBridge
