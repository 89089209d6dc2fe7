import StratumBridge.Foundation.JsonParser

/-! # Writing JSON

A document is written without blanks, token behind token. Only a mark stands between a number
and what follows it, so the tokens can be told apart, and the parser reads the document back.
-/

namespace JsonText

/-- The tokens one behind the other. -/
def compact (tokens : List Token) : List Char := tokens.flatMap Token.text

/-- The text of a document. -/
def write (tree : Tree) : List Char := compact tree.tokens

/-- Every token of the document is well formed. -/
def Tree.isValid (allowed : Char → Bool) (tree : Tree) : Bool :=
  tree.tokens.all (Token.isValid allowed)

def Token.isMark : Token → Bool
  | .mark _ => true
  | _ => false

/-- What follows begins with a mark, if it begins at all. -/
def Marked (tokens : List Token) : Prop := tokens.head?.all Token.isMark = true

/-- Tokens that are not marks are followed by marks. -/
def Parted : List Token → Prop
  | [] => True
  | token :: rest => (token.isMark = true ∨ Marked rest) ∧ Parted rest

theorem Marked.append {front back : List Token} (marked : Marked front) (rest : Marked back) :
    Marked (front ++ back) := by
  cases front with
  | nil => exact rest
  | cons token front => exact marked

/-! ## Tokens of a document -/

mutual

theorem parted_tokens (tree : Tree) {rest : List Token} (marked : Marked rest)
    (parted : Parted rest) : Parted (tree.tokens ++ rest) := by
  cases tree with
  | word letters => exact ⟨Or.inr marked, parted⟩
  | number digits => exact ⟨Or.inr marked, parted⟩
  | string units => exact ⟨Or.inr marked, parted⟩
  | array items =>
      rw [Tree.tokens, List.cons_append, List.append_assoc]
      exact ⟨Or.inl rfl, parted_itemsTokens items rfl ⟨Or.inl rfl, parted⟩⟩
  | object members =>
      rw [Tree.tokens, List.cons_append, List.append_assoc]
      exact ⟨Or.inl rfl, parted_membersTokens members rfl ⟨Or.inl rfl, parted⟩⟩

theorem parted_itemsTokens (items : List Tree) {rest : List Token} (marked : Marked rest)
    (parted : Parted rest) : Parted (itemsTokens items ++ rest) := by
  match items with
  | [] => exact parted
  | [item] => exact parted_tokens item marked parted
  | item :: second :: others =>
      rw [itemsTokens_cons (List.cons_ne_nil _ _), List.append_assoc]
      exact parted_tokens item rfl ⟨Or.inl rfl, parted_itemsTokens (second :: others) marked parted⟩

theorem parted_membersTokens (members : List (List StringUnit × Tree)) {rest : List Token}
    (marked : Marked rest) (parted : Parted rest) : Parted (membersTokens members ++ rest) := by
  match members with
  | [] => exact parted
  | [(name, value)] =>
      exact ⟨Or.inr rfl, Or.inl rfl, parted_tokens value marked parted⟩
  | (name, value) :: second :: others =>
      rw [membersTokens_cons (List.cons_ne_nil _ _), List.cons_append, List.cons_append,
        List.append_assoc]
      refine ⟨Or.inr rfl, Or.inl rfl, ?_⟩
      exact parted_tokens value rfl
        ⟨Or.inl rfl, parted_membersTokens (second :: others) marked parted⟩

end

/-! ## Spelling -/

variable {allowed : Char → Bool}

theorem not_isNumberChar_mark (kind : Mark) : isNumberChar kind.char = false := by
  cases kind <;> decide

theorem ends_compact {token : Token} {rest : List Token} (parted : token.isMark = true ∨ Marked rest) :
    token.Ends (compact rest) := by
  cases token with
  | mark kind => trivial
  | word letters => trivial
  | string units => trivial
  | number digits =>
      have marked : Marked rest := parted.resolve_left Bool.false_ne_true
      cases rest with
      | nil => rfl
      | cons next rest =>
          cases next with
          | mark kind =>
              change (!isNumberChar kind.char) = true
              rw [not_isNumberChar_mark, Bool.not_false]
          | word | number | string => exact absurd marked Bool.false_ne_true

/-- Parted tokens are spelled by their texts. -/
theorem spells_compact {tokens : List Token} (valid : tokens.all (Token.isValid allowed) = true)
    (parted : Parted tokens) : Spells allowed (compact tokens) tokens := by
  induction tokens with
  | nil => exact .done rfl
  | cons token rest ih =>
      obtain ⟨here, later⟩ := (Bool.and_eq_true _ _).mp valid
      exact @Spells.next allowed [] _ _ _ rfl here (ends_compact parted.1) (ih later parted.2)

theorem denotes_write {tree : Tree} (valid : tree.isValid allowed = true) :
    Denotes allowed (write tree) tree := by
  have parted := @parted_tokens tree [] rfl trivial
  rw [List.append_nil] at parted
  exact spells_compact valid parted

/-- **Round trip.** The parser reads a written document back. -/
theorem parse_write {tree : Tree} (valid : tree.isValid allowed = true) :
    parse allowed (write tree) = some tree :=
  parse_eq_some_iff.mpr (denotes_write valid)

/-! ## Characters -/

theorem isVisible_of_mem_literals {letters : List Char} (known : literals.contains letters = true) :
    ∀ char ∈ letters, isVisible char = true := by
  have visible : literals.all (List.all · isVisible) = true := by decide
  exact List.all_eq_true.mp (List.all_eq_true.mp visible letters (List.contains_iff_mem.mp known))

theorem mem_unit_text {unit : StringUnit} (valid : unit.isValid allowed = true) {char : Char}
    (member : char ∈ unit.text) : isVisible char = true ∨ allowed char = true := by
  cases unit with
  | raw raw =>
      obtain rfl := List.mem_singleton.mp member
      simp only [StringUnit.isValid, isRaw, Bool.and_eq_true] at valid
      exact Or.inr valid.1.1
  | escape letter =>
      have listed : letter ∈ escapeLetters := of_decide_eq_true valid
      have letters : escapeLetters.all isVisible = true := by decide
      simp only [StringUnit.text, List.mem_cons, List.not_mem_nil, or_false] at member
      rcases member with rfl | rfl
      · exact Or.inl rfl
      · exact Or.inl (List.all_eq_true.mp letters char listed)
  | unicode first second third fourth =>
      simp only [StringUnit.isValid, Bool.and_eq_true] at valid
      obtain ⟨⟨⟨one, two⟩, three⟩, four⟩ := valid
      simp only [StringUnit.text, List.mem_cons, List.not_mem_nil, or_false] at member
      rcases member with rfl | rfl | rfl | rfl | rfl | rfl
      · exact Or.inl rfl
      · exact Or.inl rfl
      · exact Or.inl (isVisible_of_isHexDigit one)
      · exact Or.inl (isVisible_of_isHexDigit two)
      · exact Or.inl (isVisible_of_isHexDigit three)
      · exact Or.inl (isVisible_of_isHexDigit four)

theorem mem_token_text {token : Token} (valid : token.isValid allowed = true) {char : Char}
    (member : char ∈ token.text) : isVisible char = true ∨ allowed char = true := by
  cases token with
  | mark kind =>
      obtain rfl := List.mem_singleton.mp member
      cases kind <;> exact Or.inl rfl
  | word letters => exact Or.inl (isVisible_of_mem_literals valid char member)
  | number digits =>
      have made := (Bool.and_eq_true_iff.mp (show isNumber digits = true from valid)).1
      exact Or.inl (isVisible_of_isNumberChar (List.all_eq_true.mp made char member))
  | string units =>
      rcases List.mem_cons.mp member with rfl | inside
      · exact Or.inl rfl
      · rcases List.mem_append.mp inside with unit | last
        · obtain ⟨unit, listed, inUnit⟩ := List.mem_flatMap.mp unit
          exact mem_unit_text (List.all_eq_true.mp valid unit listed) inUnit
        · obtain rfl := List.mem_singleton.mp last
          exact Or.inl rfl

/-- A written document holds visible characters and the ones strings may hold. -/
theorem mem_write {tree : Tree} (valid : tree.isValid allowed = true) {char : Char}
    (member : char ∈ write tree) : isVisible char = true ∨ allowed char = true := by
  obtain ⟨token, listed, inToken⟩ := List.mem_flatMap.mp member
  exact mem_token_text (List.all_eq_true.mp valid token listed) inToken

/-- A written document is one line. -/
theorem newline_not_mem_write {tree : Tree} (valid : tree.isValid standard = true) :
    '\n' ∉ write tree := by
  intro member
  rcases mem_write valid member with visible | raw
  · exact absurd visible (by decide)
  · exact absurd raw (by decide)

/-! ## Validity of documents -/

section Valid

theorem itemsTokens_isValid {items : List Tree} :
    (itemsTokens items).all (Token.isValid allowed) = items.all (Tree.isValid allowed) := by
  induction items with
  | nil => rfl
  | cons item rest ih =>
      cases rest with
      | nil => simp only [itemsTokens, List.all_cons, List.all_nil, Tree.isValid, Bool.and_true]
      | cons second others =>
          rw [itemsTokens_cons (List.cons_ne_nil _ _), List.all_append, List.all_cons, ih]
          rfl

theorem membersTokens_isValid {members : List (List StringUnit × Tree)} :
    (membersTokens members).all (Token.isValid allowed) =
      members.all fun member => member.1.all (StringUnit.isValid allowed) &&
        member.2.isValid allowed := by
  induction members with
  | nil => rfl
  | cons member rest ih =>
      obtain ⟨name, value⟩ := member
      cases rest with
      | nil =>
          simp only [membersTokens, List.all_cons, List.all_nil, Tree.isValid, Token.isValid,
            Bool.true_and, Bool.and_true]
      | cons second others =>
          rw [membersTokens_cons (List.cons_ne_nil _ _), List.all_cons, List.all_cons,
            List.all_append, List.all_cons, ih]
          exact (Bool.and_assoc (name.all (StringUnit.isValid allowed)) (value.isValid allowed) _).symm

theorem array_isValid (items : List Tree) :
    (Tree.array items).isValid allowed = items.all (Tree.isValid allowed) := by
  rw [Tree.isValid, Tree.tokens, List.all_cons, List.all_append, itemsTokens_isValid]
  simp only [Token.isValid, List.all_cons, List.all_nil, Bool.true_and, Bool.and_true]

theorem object_isValid (members : List (List StringUnit × Tree)) :
    (Tree.object members).isValid allowed =
      members.all fun member => member.1.all (StringUnit.isValid allowed) &&
        member.2.isValid allowed := by
  rw [Tree.isValid, Tree.tokens, List.all_cons, List.all_append, membersTokens_isValid]
  simp only [Token.isValid, List.all_cons, List.all_nil, Bool.true_and, Bool.and_true]

end Valid

end JsonText
