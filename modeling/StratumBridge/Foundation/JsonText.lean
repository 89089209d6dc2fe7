import Mathlib.Data.List.Basic
import Mathlib.Data.Bool.Basic

/-! # The grammar of JSON

A JSON text is a tree spelled as tokens with blanks between them. Which characters may stand in a
string as they are is a parameter, so that texts that hold more than the standard allows have a
grammar too. A replacement of characters that respects the tokens takes texts to texts.
-/

namespace JsonText

/-! ## Trees -/

/-- One character of a string, as it is spelled. -/
inductive StringUnit where
  | raw (char : Char)
  | escape (letter : Char)
  | unicode (first second third fourth : Char)
deriving DecidableEq

/-- A document. Literals, numbers and strings are kept as they are spelled. -/
inductive Tree where
  | word (letters : List Char)
  | number (digits : List Char)
  | string (units : List StringUnit)
  | array (items : List Tree)
  | object (members : List (List StringUnit × Tree))

inductive Mark where
  | openArray
  | closeArray
  | openObject
  | closeObject
  | comma
  | colon
deriving DecidableEq

inductive Token where
  | mark (kind : Mark)
  | word (letters : List Char)
  | number (digits : List Char)
  | string (units : List StringUnit)
deriving DecidableEq

mutual

def Tree.tokens : Tree → List Token
  | .word letters => [.word letters]
  | .number digits => [.number digits]
  | .string units => [.string units]
  | .array items => .mark .openArray :: (itemsTokens items ++ [.mark .closeArray])
  | .object members => .mark .openObject :: (membersTokens members ++ [.mark .closeObject])

def itemsTokens : List Tree → List Token
  | [] => []
  | [item] => item.tokens
  | item :: rest => item.tokens ++ .mark .comma :: itemsTokens rest

def membersTokens : List (List StringUnit × Tree) → List Token
  | [] => []
  | [(name, value)] => .string name :: .mark .colon :: value.tokens
  | (name, value) :: rest =>
      .string name :: .mark .colon :: (value.tokens ++ .mark .comma :: membersTokens rest)

end

/-! ## Spelling -/

def isBlank (char : Char) : Bool := char = ' ' || char = '\t' || char = '\n' || char = '\r'

def isNumberChar (char : Char) : Bool :=
  char.isDigit || char = '-' || char = '+' || char = '.' || char = 'e' || char = 'E'

def isHexDigit (char : Char) : Bool :=
  char.isDigit || ('a' ≤ char && char ≤ 'f') || ('A' ≤ char && char ≤ 'F')

/-- The letters that may follow a backslash, other than `u`. -/
def escapeLetters : List Char := ['"', '\\', '/', 'b', 'f', 'n', 'r', 't']

def literals : List (List Char) :=
  ["true".toList, "false".toList, "null".toList]

def Mark.char : Mark → Char
  | .openArray => '['
  | .closeArray => ']'
  | .openObject => '\x7b'
  | .closeObject => '\x7d'
  | .comma => ','
  | .colon => ':'

def StringUnit.text : StringUnit → List Char
  | .raw char => [char]
  | .escape letter => ['\\', letter]
  | .unicode first second third fourth => ['\\', 'u', first, second, third, fourth]

def unitsText (units : List StringUnit) : List Char := units.flatMap StringUnit.text

def Token.text : Token → List Char
  | .mark kind => [kind.char]
  | .word letters => letters
  | .number digits => digits
  | .string units => '"' :: (unitsText units ++ ['"'])

/-- A sign and at least one digit, behind the letter of an exponent. -/
def isExponent : List Char → Bool
  | [] => true
  | letter :: text =>
      let digits := if text.head? = some '-' ∨ text.head? = some '+' then text.tail else text
      (letter = 'e' || letter = 'E') && digits ≠ [] && digits.all Char.isDigit

/-- What may follow the whole part of a number. -/
def isFraction (text : List Char) : Bool :=
  match text with
  | '.' :: rest =>
      rest.takeWhile Char.isDigit ≠ [] && isExponent (rest.dropWhile Char.isDigit)
  | _ => isExponent text

def isUnsigned : List Char → Bool
  | [] => false
  | '0' :: rest => isFraction rest
  | digit :: rest => digit.isDigit && isFraction (rest.dropWhile Char.isDigit)

/-- A number is made of the characters of numbers, in their order. -/
def isNumber (text : List Char) : Bool :=
  text.all isNumberChar && isUnsigned (if text.head? = some '-' then text.tail else text)

variable {allowed : Char → Bool}

/-- A character that may stand for itself. -/
def isRaw (allowed : Char → Bool) (char : Char) : Bool :=
  allowed char && char ≠ '"' && char ≠ '\\'

def StringUnit.isValid (allowed : Char → Bool) : StringUnit → Bool
  | .raw char => isRaw allowed char
  | .escape letter => letter ∈ escapeLetters
  | .unicode first second third fourth =>
      isHexDigit first && isHexDigit second && isHexDigit third && isHexDigit fourth

def Token.isValid (allowed : Char → Bool) : Token → Bool
  | .mark _ => true
  | .word letters => literals.contains letters
  | .number digits => isNumber digits
  | .string units => units.all (StringUnit.isValid allowed)

/-- A number is not followed by more of its characters. -/
def Token.Ends : Token → List Char → Prop
  | .number _, rest => rest.head?.all (fun char => !isNumberChar char) = true
  | _, _ => True

/-- The text spells the tokens. -/
inductive Spells (allowed : Char → Bool) : List Char → List Token → Prop where
  | done {blanks : List Char} (blank : blanks.all isBlank = true) : Spells allowed blanks []
  | next {blanks rest : List Char} {token : Token} {tokens : List Token}
      (blank : blanks.all isBlank = true) (valid : token.isValid allowed = true)
      (ends : token.Ends rest) (spelled : Spells allowed rest tokens) :
      Spells allowed (blanks ++ (token.text ++ rest)) (token :: tokens)

/-- The text is a JSON text with this tree. -/
def Denotes (allowed : Char → Bool) (text : List Char) (tree : Tree) : Prop :=
  Spells allowed text tree.tokens

/-- Strings hold no control characters below the space. -/
def standard (char : Char) : Bool := ' ' ≤ char

/-! ## Replacing characters -/

/-- A visible character of ASCII. Tokens are made of these, up to what strings hold. -/
def isVisible (char : Char) : Bool := '!' ≤ char && char ≤ '~'

theorem isVisible_of_between {first last char : Char} (low : '!' ≤ first) (high : last ≤ '~')
    (after : first ≤ char) (before : char ≤ last) : isVisible char = true := by
  rw [isVisible, Bool.and_eq_true]
  exact ⟨decide_eq_true (Char.le_trans low after), decide_eq_true (Char.le_trans before high)⟩

theorem isVisible_of_isDigit {char : Char} (digit : char.isDigit = true) :
    isVisible char = true := by
  simp only [Char.isDigit, Bool.and_eq_true, decide_eq_true_eq] at digit
  exact @isVisible_of_between '0' '9' char (by decide) (by decide) digit.1 digit.2

theorem isVisible_of_isNumberChar {char : Char} (number : isNumberChar char = true) :
    isVisible char = true := by
  simp only [isNumberChar, Bool.or_eq_true, decide_eq_true_eq] at number
  rcases number with ((((digit | rfl) | rfl) | rfl) | rfl) | rfl
  · exact isVisible_of_isDigit digit
  all_goals decide

theorem isVisible_of_isHexDigit {char : Char} (digit : isHexDigit char = true) :
    isVisible char = true := by
  simp only [isHexDigit, Bool.or_eq_true, Bool.and_eq_true, decide_eq_true_eq] at digit
  rcases digit with (decimal | lower) | upper
  · exact isVisible_of_isDigit decimal
  · exact @isVisible_of_between 'a' 'f' char (by decide) (by decide) lower.1 lower.2
  · exact @isVisible_of_between 'A' 'F' char (by decide) (by decide) upper.1 upper.2

section Map

variable {replace : Char → Char}

def StringUnit.map (replace : Char → Char) : StringUnit → StringUnit
  | .raw char => .raw (replace char)
  | unit => unit

def Token.map (replace : Char → Char) : Token → Token
  | .string units => .string (units.map (StringUnit.map replace))
  | token => token

mutual

/-- The characters that stand in strings as they are, replaced. -/
def Tree.map (replace : Char → Char) : Tree → Tree
  | .array items => .array (mapItems replace items)
  | .object members => .object (mapMembers replace members)
  | .string units => .string (units.map (StringUnit.map replace))
  | .word letters => .word letters
  | .number digits => .number digits

def mapItems (replace : Char → Char) : List Tree → List Tree
  | [] => []
  | item :: rest => item.map replace :: mapItems replace rest

def mapMembers (replace : Char → Char) :
    List (List StringUnit × Tree) → List (List StringUnit × Tree)
  | [] => []
  | (name, value) :: rest =>
      (name.map (StringUnit.map replace), value.map replace) :: mapMembers replace rest

end

mutual

theorem tokens_map (tree : Tree) :
    (tree.map replace).tokens = tree.tokens.map (Token.map replace) := by
  cases tree with
  | word letters => rfl
  | number digits => rfl
  | string units => rfl
  | array items =>
      simp only [Tree.map, Tree.tokens, tokens_mapItems items, List.map_cons, List.map_append,
        List.map_nil, Token.map]
  | object members =>
      simp only [Tree.map, Tree.tokens, tokens_mapMembers members, List.map_cons,
        List.map_append, List.map_nil, Token.map]

theorem tokens_mapItems (items : List Tree) :
    itemsTokens (mapItems replace items) = (itemsTokens items).map (Token.map replace) := by
  cases items with
  | nil => rfl
  | cons item rest =>
      have behind := tokens_mapItems rest
      cases rest with
      | nil => simpa only [mapItems, itemsTokens] using tokens_map item
      | cons second rest =>
          simp only [mapItems, itemsTokens, List.map_append, List.map_cons, Token.map] at behind ⊢
          rw [tokens_map item, behind]

theorem tokens_mapMembers (members : List (List StringUnit × Tree)) :
    membersTokens (mapMembers replace members) =
      (membersTokens members).map (Token.map replace) := by
  cases members with
  | nil => rfl
  | cons member rest =>
      obtain ⟨name, value⟩ := member
      have behind := tokens_mapMembers rest
      cases rest with
      | nil =>
          simp only [mapMembers, membersTokens, List.map_cons, Token.map]
          rw [tokens_map value]
      | cons second rest =>
          obtain ⟨secondName, secondValue⟩ := second
          simp only [mapMembers, membersTokens, List.map_append, List.map_cons, Token.map]
            at behind ⊢
          rw [tokens_map value, behind]

end

/-- Characters of tokens stay as they are, blanks stay blanks, and what may stand in a string is
replaced by what may stand there then. -/
structure Respects (allowed permitted : Char → Bool) (replace : Char → Char) : Prop where
  visible : ∀ char, isVisible char = true → replace char = char
  blank : ∀ char, isBlank char = true → isBlank (replace char) = true
  raw : ∀ char, isRaw allowed char = true → isRaw permitted (replace char) = true
  number : ∀ char, isNumberChar (replace char) = true → isNumberChar char = true

variable {permitted : Char → Bool}

theorem map_eq_self_of_visible (respects : Respects allowed permitted replace) {text : List Char}
    (visible : text.all isVisible = true) : text.map replace = text := by
  induction text with
  | nil => rfl
  | cons char rest ih =>
      rw [List.all_cons, Bool.and_eq_true] at visible
      rw [List.map_cons, respects.visible char visible.1, ih visible.2]

theorem StringUnit.map_spec (respects : Respects allowed permitted replace) {unit : StringUnit}
    (valid : unit.isValid allowed = true) :
    unit.text.map replace = (unit.map replace).text ∧
      (unit.map replace).isValid permitted = true := by
  cases unit with
  | raw char => exact ⟨rfl, respects.raw char valid⟩
  | escape letter =>
      refine ⟨map_eq_self_of_visible respects ?_, valid⟩
      have letters : escapeLetters.all isVisible = true := by decide
      have known : letter ∈ escapeLetters := of_decide_eq_true valid
      have visible := List.all_eq_true.mp letters letter known
      simp only [StringUnit.text, List.all_cons, visible, List.all_nil]
      decide
  | unicode first second third fourth =>
      refine ⟨map_eq_self_of_visible respects ?_, valid⟩
      simp only [StringUnit.isValid, Bool.and_eq_true] at valid
      obtain ⟨⟨⟨one, two⟩, three⟩, four⟩ := valid
      simp only [StringUnit.text, List.all_cons, isVisible_of_isHexDigit one,
        isVisible_of_isHexDigit two, isVisible_of_isHexDigit three,
        isVisible_of_isHexDigit four, List.all_nil]
      decide

theorem unitsText_map (respects : Respects allowed permitted replace) {units : List StringUnit}
    (valid : units.all (StringUnit.isValid allowed) = true) :
    (unitsText units).map replace = unitsText (units.map (StringUnit.map replace)) ∧
      (units.map (StringUnit.map replace)).all (StringUnit.isValid permitted) = true := by
  induction units with
  | nil => exact ⟨rfl, rfl⟩
  | cons unit rest ih =>
      rw [List.all_cons, Bool.and_eq_true] at valid
      obtain ⟨text, kept⟩ := StringUnit.map_spec respects valid.1
      obtain ⟨texts, allKept⟩ := ih valid.2
      simp only [unitsText, List.flatMap_cons, List.map_append, List.map_cons, List.all_cons,
        kept, allKept, Bool.and_self, and_true] at texts ⊢
      rw [text, texts]

theorem Token.map_spec (respects : Respects allowed permitted replace) {token : Token}
    (valid : token.isValid allowed = true) :
    token.text.map replace = (token.map replace).text ∧
      (token.map replace).isValid permitted = true := by
  cases token with
  | mark kind =>
      refine ⟨map_eq_self_of_visible respects ?_, rfl⟩
      cases kind <;> decide
  | word letters =>
      refine ⟨map_eq_self_of_visible respects ?_, valid⟩
      have words : literals.all (fun word => word.all isVisible) = true := by decide
      exact List.all_eq_true.mp words letters (List.contains_iff_mem.mp valid)
  | number digits =>
      refine ⟨map_eq_self_of_visible respects ?_, valid⟩
      have made := List.all_eq_true.mp (Bool.and_eq_true_iff.mp valid).1
      exact List.all_eq_true.mpr fun char member => isVisible_of_isNumberChar (made char member)
  | string units =>
      obtain ⟨text, kept⟩ := unitsText_map respects valid
      have quote := respects.visible '"' (by decide)
      simp only [Token.text, Token.map, List.map_cons, List.map_append, List.map_nil, quote, text]
      exact ⟨trivial, kept⟩

theorem Token.ends_map (respects : Respects allowed permitted replace) {token : Token}
    {rest : List Char} (ends : token.Ends rest) : (token.map replace).Ends (rest.map replace) := by
  cases token with
  | number digits =>
      cases rest with
      | nil => rfl
      | cons char rest =>
          have different : isNumberChar char ≠ true := by simpa [Token.Ends] using ends
          have kept : isNumberChar (replace char) ≠ true :=
            fun isNumber => different (respects.number char isNumber)
          simpa [Token.Ends, Token.map] using kept
  | mark kind => trivial
  | word letters => trivial
  | string units => trivial

/-- A replacement that respects the tokens takes a spelling to a spelling. -/
theorem Spells.map (respects : Respects allowed permitted replace) {text : List Char}
    {tokens : List Token} (spelled : Spells allowed text tokens) :
    Spells permitted (text.map replace) (tokens.map (Token.map replace)) := by
  have blanks : ∀ {text : List Char}, text.all isBlank = true →
      (text.map replace).all isBlank = true := by
    intro text blank
    rw [List.all_map, List.all_eq_true]
    exact fun char member => respects.blank char (List.all_eq_true.mp blank char member)
  induction spelled with
  | done blank => exact .done (blanks blank)
  | next blank valid ends spelled ih =>
      obtain ⟨text, kept⟩ := Token.map_spec respects valid
      rw [List.map_append, List.map_append, List.map_cons, text]
      exact .next (blanks blank) kept (Token.ends_map respects ends) ih

/-- **Replacement.** The replaced text denotes the tree with its strings replaced. -/
theorem Denotes.map (respects : Respects allowed permitted replace) {text : List Char}
    {tree : Tree} (denotes : Denotes allowed text tree) :
    Denotes permitted (text.map replace) (tree.map replace) := by
  rw [Denotes, tokens_map]
  exact Spells.map respects denotes

end Map

end JsonText
