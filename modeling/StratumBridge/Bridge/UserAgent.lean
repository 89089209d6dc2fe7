import StratumBridge.Bridge.Publication

/-! # User agents

A miner is recognized by lowercase words in its user agent. The paths lower the user agent by
full case mapping in some places and on ASCII only in others; the tests cannot tell.
-/

namespace StratumBridge

namespace Text

/-- What full case mapping makes of a text. Outside ASCII, only the Kelvin sign and the dotted
capital I become text with ASCII letters. -/
inductive Lowered : List Char → List Char → Prop where
  | nil : Lowered [] []
  | ascii {char : Char} {rest lowered : List Char} (small : char.toNat < 128) :
      Lowered rest lowered → Lowered (char :: rest) (char.toLower :: lowered)
  | kelvin {rest lowered : List Char} :
      Lowered rest lowered → Lowered ('\u212A' :: rest) ('k' :: lowered)
  | dotted {rest lowered : List Char} :
      Lowered rest lowered → Lowered ('\u0130' :: rest) ('i' :: '\u0307' :: lowered)
  | other {char : Char} {mapped rest lowered : List Char} (large : 128 ≤ char.toNat)
      (some : mapped ≠ []) (foreign : ∀ letter ∈ mapped, 128 ≤ letter.toNat) :
      Lowered rest lowered → Lowered (char :: rest) (mapped ++ lowered)

/-- An ASCII word without the letter k that does not end in an i. -/
def Plain : List Char → Prop
  | [] => True
  | char :: rest => char.toNat < 128 ∧ char ≠ 'k' ∧ (char = 'i' → rest ≠ []) ∧ Plain rest

instance decidablePlain : (word : List Char) → Decidable (Plain word)
  | [] => inferInstanceAs (Decidable True)
  | char :: rest =>
      have := decidablePlain rest
      inferInstanceAs
        (Decidable (char.toNat < 128 ∧ char ≠ 'k' ∧ (char = 'i' → rest ≠ []) ∧ Plain rest))

theorem toLower_of_large {char : Char} (large : 128 ≤ char.toNat) : char.toLower = char := by
  refine dif_neg fun upper => ?_
  have small : char.toNat ≤ 90 := upper.2
  omega

section Words

variable {word text lowered : List Char} {char : Char}

theorem contains_iff_within : contains word text = true ↔ word <:+: text := by
  induction text with
  | nil => rw [contains, List.isEmpty_iff, List.infix_nil]
  | cons char rest ih =>
      rw [contains, Bool.or_eq_true, List.isPrefixOf_iff_prefix, ih, List.infix_cons_iff]

theorem contains_map (map : Char → Char) (found : contains word text = true) :
    contains (word.map map) (text.map map) = true :=
  contains_iff_within.mpr ((contains_iff_within.mp found).map map)

/-- No plain word starts at a character outside ASCII. -/
theorem Plain.not_isPrefixOf (plain : Plain word) (some : word ≠ []) (large : 128 ≤ char.toNat) :
    ¬ word <+: char :: text := by
  intro starts
  cases word with
  | nil => exact some rfl
  | cons first rest =>
      obtain rfl := (List.cons_prefix_cons.mp starts).1
      exact absurd plain.1 (Nat.not_lt.mpr large)

/-- Nor does one reach into characters outside ASCII. -/
theorem Plain.infix_append (plain : Plain word) (some : word ≠ []) {foreign : List Char}
    (large : ∀ letter ∈ foreign, 128 ≤ letter.toNat) :
    word <:+: foreign ++ text ↔ word <:+: text := by
  induction foreign with
  | nil => exact Iff.rfl
  | cons char rest ih =>
      have rest := ih fun letter member => large letter (List.mem_cons_of_mem _ member)
      rw [List.cons_append, List.infix_cons_iff, rest]
      exact or_iff_right (plain.not_isPrefixOf some (large char List.mem_cons_self))

theorem Lowered.prefix_iff (lowers : Lowered text lowered) (plain : Plain word) :
    word <+: lowered ↔ word <+: toLowercase text := by
  induction lowers generalizing word with
  | nil => exact Iff.rfl
  | @ascii char rest lowered small _ ih =>
      cases word with
      | nil => exact iff_of_true List.nil_prefix List.nil_prefix
      | cons first after =>
          change _ ↔ first :: after <+: char.toLower :: toLowercase rest
          rw [List.cons_prefix_cons, List.cons_prefix_cons, ih plain.2.2.2]
  | @kelvin rest lowered _ _ =>
      cases word with
      | nil => exact iff_of_true List.nil_prefix List.nil_prefix
      | cons first after =>
          refine iff_of_false (fun starts => ?_)
            (plain.not_isPrefixOf (List.cons_ne_nil _ _) (by decide))
          exact plain.2.1 (List.cons_prefix_cons.mp starts).1
  | @dotted rest lowered _ _ =>
      cases word with
      | nil => exact iff_of_true List.nil_prefix List.nil_prefix
      | cons first after =>
          refine iff_of_false (fun starts => ?_)
            (plain.not_isPrefixOf (List.cons_ne_nil _ _) (by decide))
          obtain ⟨dotted, onward⟩ := List.cons_prefix_cons.mp starts
          exact plain.2.2.2.not_isPrefixOf (plain.2.2.1 dotted) (by decide) onward
  | @other char mapped rest lowered large nonempty foreign _ _ =>
      cases word with
      | nil => exact iff_of_true List.nil_prefix List.nil_prefix
      | cons first after =>
          obtain ⟨head, tail, rfl⟩ := List.exists_cons_of_ne_nil nonempty
          refine iff_of_false
            (plain.not_isPrefixOf (List.cons_ne_nil _ _) (foreign head List.mem_cons_self)) ?_
          change ¬ first :: after <+: char.toLower :: toLowercase rest
          rw [toLower_of_large large]
          exact plain.not_isPrefixOf (List.cons_ne_nil _ _) large

/-- **Case mapping.** Full case mapping and lowering ASCII letters show the same plain words. -/
theorem Lowered.contains_eq (lowers : Lowered text lowered) (plain : Plain word)
    (some : word ≠ []) : contains word lowered = contains word (toLowercase text) := by
  rw [Bool.eq_iff_iff, contains_iff_within, contains_iff_within]
  induction lowers with
  | nil => exact Iff.rfl
  | @ascii char rest lowered small lowers ih =>
      have starts := (Lowered.ascii small lowers).prefix_iff plain
      rw [List.infix_cons_iff, starts, ih]
      exact List.infix_cons_iff.symm
  | @kelvin rest lowered lowers ih =>
      have starts := (Lowered.kelvin lowers).prefix_iff plain
      rw [List.infix_cons_iff, starts, ih]
      exact List.infix_cons_iff.symm
  | @dotted rest lowered lowers ih =>
      have starts := (Lowered.dotted lowers).prefix_iff plain
      rw [List.infix_cons_iff, starts, List.infix_cons_iff,
        or_iff_right (plain.not_isPrefixOf some (by decide)), ih]
      exact List.infix_cons_iff.symm
  | @other char mapped rest lowered large nonempty foreign lowers ih =>
      have starts : ¬ word <+: char.toLower :: toLowercase rest := by
        rw [toLower_of_large large]
        exact plain.not_isPrefixOf some large
      rw [plain.infix_append some foreign, ih]
      exact (List.infix_cons_iff.trans (or_iff_right starts)).symm

end Words

end Text

/-! ## The tests of the paths -/

section Tests

variable {app lowered : Text}

/-- The IceRiver test, on any case mapping of the user agent. -/
theorem isIceriver_of_lowered (lowers : Text.Lowered app lowered) :
    isIceriver app = (Text.contains (Text.ofString "iceriver") lowered ||
      Text.contains (Text.ofString "icemining") lowered ||
      Text.contains (Text.ofString "icm") lowered) := by
  rw [lowers.contains_eq (by decide) (by decide), lowers.contains_eq (by decide) (by decide),
    lowers.contains_eq (by decide) (by decide)]
  rfl

/-- The Bitmain test, on any case mapping of the user agent. -/
theorem isBitmain_of_lowered (lowers : Text.Lowered app lowered) :
    isBitmain app = (Text.contains (Text.ofString "godminer") lowered ||
      Text.contains (Text.ofString "bitmain") lowered ||
      Text.contains (Text.ofString "antminer") lowered) := by
  rw [lowers.contains_eq (by decide) (by decide), lowers.contains_eq (by decide) (by decide),
    lowers.contains_eq (by decide) (by decide)]
  rfl

/-- A miner that spells its name `IceRiver` is one. -/
theorem isIceriver_of_spelled (spelled : Text.contains (Text.ofString "IceRiver") app = true) :
    isIceriver app = true := by
  have lowered := Text.contains_map Char.toLower spelled
  rw [isIceriver]
  simp only [Bool.or_eq_true]
  exact .inl (.inl lowered)

end Tests

end StratumBridge
