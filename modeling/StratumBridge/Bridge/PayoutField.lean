import Mathlib.Data.List.Infix
import StratumBridge.Bridge.System

/-! # The payout field

The password of an authorization may name a Kaspa address, followed by options or by a
worker name. An address followed by options is read; behind a `.` or a `:`, where a worker
name would stand, the whole field is refused. Nothing but the field's leading token is ever
read as an address.
-/

namespace StratumBridge

open Interaction

/-! ## Text around an address -/

namespace Text

variable {front back : List Char}

/-- Trimming stops at text without white space. -/
theorem rdropWhile_append (nonempty : front ≠ [])
    (black : ∀ char ∈ front, isWhiteSpace char = false) :
    (front ++ back).rdropWhile isWhiteSpace = front ++ back.rdropWhile isWhiteSpace := by
  have kept : front.reverse.dropWhile isWhiteSpace = front.reverse := by
    obtain ⟨char, rest, same⟩ := List.exists_cons_of_ne_nil (List.reverse_ne_nil_iff.mpr nonempty)
    have member : char ∈ front := List.mem_reverse.mp (same ▸ List.mem_cons_self)
    rw [same, List.dropWhile_cons_of_neg (Bool.eq_false_iff.mp (black char member))]
  rw [List.rdropWhile, List.reverse_append, List.dropWhile_append]
  split
  · next blank =>
      rw [kept, List.reverse_reverse, List.rdropWhile, List.isEmpty_iff.mp blank,
        List.reverse_nil, List.append_nil]
  · rw [List.reverse_append, List.reverse_reverse]
    rfl

theorem trim_append (nonempty : front ≠ [])
    (black : ∀ char ∈ front, isWhiteSpace char = false) :
    trim (front ++ back) = front ++ back.rdropWhile isWhiteSpace := by
  obtain ⟨char, rest, rfl⟩ := List.exists_cons_of_ne_nil nonempty
  have first := Bool.eq_false_iff.mp (black char List.mem_cons_self)
  calc trim (char :: rest ++ back)
      = ((char :: (rest ++ back)).dropWhile isWhiteSpace).rdropWhile isWhiteSpace := rfl
    _ = (char :: rest ++ back).rdropWhile isWhiteSpace := by
        rw [List.dropWhile_cons_of_neg first, List.cons_append]
    _ = char :: rest ++ back.rdropWhile isWhiteSpace := rdropWhile_append nonempty black

/-- What trimming at the end removes is white space. -/
theorem exists_blank (text : List Char) :
    ∃ blank, text = text.rdropWhile isWhiteSpace ++ blank ∧
      ∀ char ∈ blank, isWhiteSpace char = true := by
  refine ⟨text.rtakeWhile isWhiteSpace, List.rdropWhile_append_rtakeWhile.symm, ?_⟩
  intro char member
  exact List.mem_rtakeWhile_imp member

end Text

/-! ## Prefixes -/

section Prefixes

variable {text more : Text}

theorem startsWith_iff {expected : String} :
    startsWith text expected = true ↔ expected.toList <+: text := List.isPrefixOf_iff_prefix

theorem startsWith_append {expected : String} (starts : startsWith text expected = true) :
    startsWith (text ++ more) expected = true :=
  startsWith_iff.mpr ((startsWith_iff.mp starts).trans (List.prefix_append _ _))

theorem startsWith_toLowercase {expected : String}
    (lower : Text.toLowercase expected.toList = expected.toList)
    (starts : startsWith text expected = true) :
    startsWith (Text.toLowercase text) expected = true := by
  have mapped := (startsWith_iff.mp starts).map Char.toLower
  exact startsWith_iff.mpr (lower ▸ mapped)

theorem hasKaspaPrefix_append (explicit : hasKaspaPrefix text = true) :
    hasKaspaPrefix (text ++ more) = true := by
  simp only [hasKaspaPrefix, Bool.or_eq_true] at explicit ⊢
  rcases explicit with (main | test) | dev
  · exact Or.inl (Or.inl (startsWith_append main))
  · exact Or.inl (Or.inr (startsWith_append test))
  · exact Or.inr (startsWith_append dev)

theorem hasKaspaPrefix_toLowercase (explicit : hasKaspaPrefix text = true) :
    hasKaspaPrefix (Text.toLowercase text) = true := by
  simp only [hasKaspaPrefix, Bool.or_eq_true] at explicit ⊢
  rcases explicit with (main | test) | dev
  · exact Or.inl (Or.inl (startsWith_toLowercase (by decide) main))
  · exact Or.inl (Or.inr (startsWith_toLowercase (by decide) test))
  · exact Or.inr (startsWith_toLowercase (by decide) dev)

theorem ne_nil_of_hasKaspaPrefix (explicit : hasKaspaPrefix text = true) : text ≠ [] := by
  rintro rfl
  exact nomatch explicit

end Prefixes

/-! ## The part that is decoded -/

/-- The token a field starts with, up to a comma or white space. -/
def leadingToken (field : Text) : Text :=
  (field.dropWhile Text.isWhiteSpace).takeWhile fun char =>
    char ≠ ',' ∧ Text.isWhiteSpace char = false

/-- What may follow the address in a payout field. -/
def payoutSeparators : List Char := ['.', ':', ',', ' ']

/-- The part of a payout field that is offered to the decoder. -/
def payoutCandidate (field : Text) : Text :=
  Text.trim ((Text.trim field).takeWhile fun char => char ≠ ',' ∧ char ≠ ' ')

section Candidate

variable {text suffix more : Text}

/-- The candidate of a field that starts with an address: the address with what follows up
to a comma or a blank. -/
theorem payoutCandidate_append (nonempty : text ≠ [])
    (black : ∀ char ∈ text, char ≠ ',' ∧ Text.isWhiteSpace char = false) :
    payoutCandidate (text ++ suffix) = text ++
      (((suffix.rdropWhile Text.isWhiteSpace).takeWhile fun char =>
        char ≠ ',' ∧ char ≠ ' ').rdropWhile Text.isWhiteSpace) := by
  have blackOnly : ∀ char ∈ text, Text.isWhiteSpace char = false :=
    fun char member => (black char member).2
  have taken : ∀ char ∈ text, decide (char ≠ ',' ∧ char ≠ ' ') = true := by
    intro char member
    refine decide_eq_true ⟨(black char member).1, ?_⟩
    rintro rfl
    exact nomatch blackOnly _ member
  rw [payoutCandidate, Text.trim_append nonempty blackOnly, List.takeWhile_append_of_pos taken,
    Text.trim_append nonempty blackOnly]

/-- Options behind an address are cut off. -/
theorem payoutCandidate_ends (nonempty : text ≠ [])
    (black : ∀ char ∈ text, char ≠ ',' ∧ Text.isWhiteSpace char = false) {char : Char}
    (ends : char = ',' ∨ char = ' ') : payoutCandidate (text ++ char :: more) = text := by
  have stops : ¬decide (char ≠ ',' ∧ char ≠ ' ') = true := by
    intro passes
    exact not_or.mpr (of_decide_eq_true passes) ends
  have front : (char :: more).rdropWhile Text.isWhiteSpace <+: char :: more :=
    List.rdropWhile_prefix Text.isWhiteSpace _
  rw [payoutCandidate_append nonempty black]
  cases left : (char :: more).rdropWhile Text.isWhiteSpace with
  | nil => exact List.append_nil _
  | cons first rest =>
      obtain ⟨rfl, -⟩ := List.cons_prefix_cons.mp (left ▸ front)
      rw [List.takeWhile_cons_of_neg (p := fun char => decide (char ≠ ',' ∧ char ≠ ' ')) stops]
      exact List.append_nil _

/-- Any other separator stays with the address. -/
theorem payoutCandidate_continues (nonempty : text ≠ [])
    (black : ∀ char ∈ text, char ≠ ',' ∧ Text.isWhiteSpace char = false) {char : Char}
    (continues : ¬(char = ',' ∨ char = ' ')) (visible : Text.isWhiteSpace char = false) :
    ∃ rest, payoutCandidate (text ++ char :: more) = text ++ char :: rest := by
  have single : ∀ other ∈ [char], Text.isWhiteSpace other = false := by
    intro other member
    rwa [List.mem_singleton.mp member]
  have passes : decide (char ≠ ',' ∧ char ≠ ' ') = true := decide_eq_true (not_or.mp continues)
  rw [payoutCandidate_append nonempty black, ← List.singleton_append,
    Text.rdropWhile_append (List.cons_ne_nil _ _) single, List.singleton_append,
    List.takeWhile_cons_of_pos (p := fun char => decide (char ≠ ',' ∧ char ≠ ' ')) passes,
    ← List.singleton_append, Text.rdropWhile_append (List.cons_ne_nil _ _) single]
  exact ⟨_, rfl⟩

/-- A field that starts with an explicit address is a payout attempt. -/
theorem looksLikePayoutAttempt_append (nonempty : text ≠ [])
    (black : ∀ char ∈ text, char ≠ ',' ∧ Text.isWhiteSpace char = false)
    (explicit : hasKaspaPrefix text = true) :
    looksLikePayoutAttempt (Text.trim (text ++ suffix)) = true := by
  rw [looksLikePayoutAttempt, Text.trim_idem,
    Text.trim_append nonempty fun char member => (black char member).2]
  exact hasKaspaPrefix_toLowercase (hasKaspaPrefix_append explicit)

/-- A field is its candidate between white space and whatever a comma or white space
begins. -/
theorem exists_payoutCandidate_split (field : Text) :
    ∃ rest, field.dropWhile Text.isWhiteSpace = payoutCandidate field ++ rest ∧
      ∀ char ∈ rest.head?, char = ',' ∨ Text.isWhiteSpace char = true := by
  obtain ⟨blank, whole, isBlank⟩ := Text.exists_blank (field.dropWhile Text.isWhiteSpace)
  have cut := (List.takeWhile_append_dropWhile
    (p := fun char => decide (char ≠ ',' ∧ char ≠ ' ')) (l := Text.trim field)).symm
  generalize found : (Text.trim field).takeWhile
    (fun char => decide (char ≠ ',' ∧ char ≠ ' ')) = token at cut
  obtain ⟨space, tokenWhole, isSpace⟩ := Text.exists_blank token
  have front : token <+: field.dropWhile Text.isWhiteSpace := by
    refine List.IsPrefix.trans ⟨_, cut.symm⟩ ?_
    exact List.rdropWhile_prefix Text.isWhiteSpace _
  have untrimmed : token.dropWhile Text.isWhiteSpace = token := by
    cases token with
    | nil => rfl
    | cons char rest =>
        obtain ⟨back, same⟩ := front
        have first := List.head?_dropWhile_not Text.isWhiteSpace field
        rw [← same] at first
        exact List.dropWhile_cons_of_neg (Bool.eq_false_iff.mp (by simpa using first))
  have candidate : payoutCandidate field = token.rdropWhile Text.isWhiteSpace := by
    rw [payoutCandidate, found]
    change (token.dropWhile Text.isWhiteSpace).rdropWhile Text.isWhiteSpace = _
    rw [untrimmed]
  refine ⟨space ++ ((Text.trim field).dropWhile
    (fun char => decide (char ≠ ',' ∧ char ≠ ' ')) ++ blank), ?_, ?_⟩
  · rw [candidate, ← List.append_assoc, ← tokenWhole, ← List.append_assoc, ← cut]
    exact whole
  · intro char isHead
    rw [List.head?_append, List.head?_append] at isHead
    rcases Option.or_eq_some_iff.mp isHead with inSpace | ⟨-, behind⟩
    · exact Or.inr (isSpace char (List.mem_of_mem_head? inSpace))
    · rcases Option.or_eq_some_iff.mp behind with atCut | ⟨-, inBlank⟩
      · have stops := List.head?_dropWhile_not
          (fun char => decide (char ≠ ',' ∧ char ≠ ' ')) (Text.trim field)
        rw [atCut] at stops
        have separates := of_decide_eq_false stops
        rcases not_and_or.mp separates with comma | space
        · exact Or.inl (not_not.mp comma)
        · rw [not_not.mp space]
          exact Or.inr (by decide)
      · exact Or.inr (isBlank char (List.mem_of_mem_head? inBlank))

end Candidate

/-! ## Decoding -/

/-- The decoder accepts a network and a payload around one colon, with no other separator
and no white space. -/
def DecodesPlainly [Platform] : Prop :=
  ∀ text address, Platform.parseAddress text = some address →
    ∃ network payload, text = network ++ ':' :: payload ∧
      ∀ char ∈ network ++ payload, char ∉ payoutSeparators ∧ Text.isWhiteSpace char = false

section Decoding

variable [Platform] {text field suffix more : Text} {address : Address}

theorem DecodesPlainly.black (decoder : DecodesPlainly)
    (decoded : Platform.parseAddress text = some address) :
    ∀ char ∈ text, char ≠ ',' ∧ Text.isWhiteSpace char = false := by
  obtain ⟨network, payload, rfl, plain⟩ := decoder text address decoded
  intro char member
  rcases List.mem_append.mp member with inNetwork | behind
  · have ⟨separates, black⟩ := plain char (List.mem_append_left payload inNetwork)
    exact ⟨fun same => separates (same ▸ by decide), black⟩
  · rcases List.mem_cons.mp behind with rfl | inPayload
    · exact ⟨by decide, by decide⟩
    · have ⟨separates, black⟩ := plain char (List.mem_append_right network inPayload)
      exact ⟨fun same => separates (same ▸ by decide), black⟩

/-- An accepted text holds one separator. -/
theorem DecodesPlainly.separators (decoder : DecodesPlainly)
    (decoded : Platform.parseAddress text = some address) :
    text.countP (· ∈ payoutSeparators) = 1 := by
  obtain ⟨network, payload, rfl, plain⟩ := decoder text address decoded
  have none : ∀ part : Text, (∀ char ∈ part, char ∈ network ++ payload) →
      part.countP (· ∈ payoutSeparators) = 0 := by
    intro part within
    refine List.countP_eq_zero.mpr ?_
    intro char member
    simpa using (plain char (within char member)).1
  rw [List.countP_append, List.countP_cons_of_pos (by decide),
    none network fun char member => List.mem_append_left _ member,
    none payload fun char member => List.mem_append_right _ member]

/-- No address goes on behind another separator. -/
theorem DecodesPlainly.refuses (decoder : DecodesPlainly)
    (decoded : Platform.parseAddress text = some address) {char : Char}
    (separates : char ∈ payoutSeparators) :
    Platform.parseAddress (text ++ char :: more) = none := by
  cases accepted : Platform.parseAddress (text ++ char :: more) with
  | none => rfl
  | some other =>
      have one := decoder.separators decoded
      have whole := decoder.separators accepted
      rw [List.countP_append, List.countP_cons_of_pos (by simpa using separates)] at whole
      omega

theorem parseKasPayout_some : parseKasPayout (some field) =
    if looksLikePayoutAttempt (Text.trim field) && hasKaspaPrefix (payoutCandidate field) then
      Platform.parseAddress (payoutCandidate field) else none := by
  cases attempt : looksLikePayoutAttempt (Text.trim field) with
  | false => simp only [parseKasPayout, attempt, Bool.false_and, Bool.false_eq_true, if_false]
  | true => simp only [parseKasPayout, attempt, payoutCandidate, Bool.true_and, if_true]

/-- A field that starts with an explicit address is read as its candidate decodes. -/
theorem parseKasPayout_append (nonempty : text ≠ [])
    (black : ∀ char ∈ text, char ≠ ',' ∧ Text.isWhiteSpace char = false)
    (explicit : hasKaspaPrefix text = true) :
    parseKasPayout (some (text ++ suffix)) =
      Platform.parseAddress (payoutCandidate (text ++ suffix)) := by
  have prefixed : hasKaspaPrefix (payoutCandidate (text ++ suffix)) = true := by
    rw [payoutCandidate_append nonempty black]
    exact hasKaspaPrefix_append explicit
  rw [parseKasPayout_some, looksLikePayoutAttempt_append nonempty black explicit, prefixed]
  rfl

/-- An accepted candidate is the field's leading token. -/
theorem leadingToken_of_decoded (decoder : DecodesPlainly)
    (decoded : Platform.parseAddress (payoutCandidate field) = some address) :
    leadingToken field = payoutCandidate field := by
  obtain ⟨rest, whole, separated⟩ := exists_payoutCandidate_split field
  have black : ∀ char ∈ payoutCandidate field,
      decide (char ≠ ',' ∧ Text.isWhiteSpace char = false) = true :=
    fun char member => decide_eq_true (decoder.black decoded char member)
  have stops : rest.takeWhile (fun char =>
      decide (char ≠ ',' ∧ Text.isWhiteSpace char = false)) = [] := by
    cases rest with
    | nil => rfl
    | cons char more =>
        refine List.takeWhile_cons_of_neg fun passes => ?_
        have ⟨noComma, visible⟩ := of_decide_eq_true passes
        rcases separated char rfl with comma | blank
        · exact noComma comma
        · rw [blank] at visible
          exact nomatch visible
  rw [leadingToken, whole, List.takeWhile_append_of_pos black, stops, List.append_nil]

/-! ## The grammar -/

/-- The suffixes a payout field may carry behind its address. -/
def PayoutSuffix (suffix : Text) : Prop := ∀ char ∈ suffix.head?, char ∈ payoutSeparators

instance (suffix : Text) : Decidable (PayoutSuffix suffix) :=
  Option.decidableForallMem suffix.head?

/-- **Payout fields.** Behind an explicitly prefixed address, options are cut off and a
worker name makes the field unreadable: the address is read exactly when nothing, a comma
or a blank follows it. Whatever is read is the field's leading token, explicitly prefixed
and decoded as it stands. -/
theorem payout_read_iff (decoder : DecodesPlainly) :
    (∀ (text suffix : Text) (address : Address), hasKaspaPrefix text = true →
      Platform.parseAddress text = some address → PayoutSuffix suffix →
        (parseKasPayout (some (text ++ suffix)) = some address ↔
          ∀ char ∈ suffix.head?, char = ',' ∨ char = ' ')) ∧
    ∀ (raw : Option Text) (address : Address), parseKasPayout raw = some address →
      ∃ field, raw = some field ∧ hasKaspaPrefix (leadingToken field) = true ∧
        Platform.parseAddress (leadingToken field) = some address := by
  refine ⟨?_, ?_⟩
  · intro text suffix address explicit decoded separated
    have nonempty := ne_nil_of_hasKaspaPrefix explicit
    have black := decoder.black decoded
    rw [parseKasPayout_append nonempty black explicit]
    cases suffix with
    | nil =>
        rw [payoutCandidate_append nonempty black]
        simpa using decoded
    | cons char more =>
        have separates : char ∈ payoutSeparators := separated char rfl
        by_cases ends : char = ',' ∨ char = ' '
        · rw [payoutCandidate_ends nonempty black ends]
          exact iff_of_true decoded fun other same => Option.some.inj same ▸ ends
        · have visible : Text.isWhiteSpace char = false := by
            simp only [payoutSeparators, List.mem_cons, List.not_mem_nil, or_false] at separates
            rcases separates with rfl | rfl | rfl | rfl
            · decide
            · decide
            · decide
            · exact absurd (Or.inr rfl) ends
          obtain ⟨rest, same⟩ : ∃ rest, payoutCandidate _ = _ ++ char :: rest :=
            payoutCandidate_continues nonempty black ends visible
          rw [same, decoder.refuses decoded separates]
          refine iff_of_false (fun read => nomatch read) fun follows => ends (follows char rfl)
  · intro raw address read
    cases raw with
    | none => exact nomatch read
    | some field =>
        rw [parseKasPayout_some] at read
        split at read
        case isFalse => exact nomatch read
        case isTrue attempt =>
          have explicit := (Bool.and_eq_true_iff.mp attempt).2
          have token := leadingToken_of_decoded decoder read
          exact ⟨field, rfl, token ▸ explicit, token ▸ read⟩

end Decoding

section Sample

attribute [local instance] Sample.minerPlatform

private theorem miner_decodesPlainly : DecodesPlainly := by
  intro text address decoded
  have same : text = Sample.minerAddress := by
    by_contra other
    have refused : Platform.parseAddress text = none := if_neg other
    rw [refused] at decoded
    exact nomatch decoded
  have plain : ("kaspa".toList ++ (List.replicate 53 'q' ++ "kx9awp4e".toList)).all (fun char =>
      decide (char ∉ payoutSeparators) && !Text.isWhiteSpace char) = true := by decide +kernel
  refine ⟨"kaspa".toList, List.replicate 53 'q' ++ "kx9awp4e".toList, ?_, ?_⟩
  · rw [same]
    decide +kernel
  · intro char member
    have both := List.all_eq_true.mp plain char member
    rw [Bool.and_eq_true, decide_eq_true_eq, Bool.not_eq_true'] at both
    exact both

/-- The address is read in front of a difficulty option. -/
theorem payout_read_iff_sample :
    parseKasPayout (some (Sample.minerAddress ++ ",d=8192".toList)) =
      some Sample.minerAddress := by
  have prefixed : hasKaspaPrefix Sample.minerAddress = true := by decide +kernel
  refine ((payout_read_iff miner_decodesPlainly).1 _ _ _ prefixed (if_pos rfl) ?_).mpr ?_
  · decide +kernel
  · rintro char ⟨⟩
    exact Or.inl rfl

/-- A worker name behind the address makes the field unreadable. -/
theorem payout_lost :
    ¬ ∀ (text suffix : Text) (address : Address), hasKaspaPrefix text = true →
      Platform.parseAddress text = some address → PayoutSuffix suffix →
        parseKasPayout (some (text ++ suffix)) = some address := by
  intro allRead
  have read := allRead Sample.minerAddress ".rig".toList Sample.minerAddress (by decide +kernel)
    (if_pos rfl) (by decide +kernel)
  exact absurd read (by decide +kernel)

end Sample

end StratumBridge
