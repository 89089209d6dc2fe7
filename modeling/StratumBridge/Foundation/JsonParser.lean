import Mathlib.Data.List.TakeWhile
import StratumBridge.Foundation.JsonText

/-! # A parser for the grammar of JSON

A text is split into tokens, and the tokens are read as a tree. The parser finds the tree of every
text that has one, so a text has at most one.
-/

namespace JsonText

variable {allowed : Char → Bool}

/-! ## Tokens of a text -/

/-- The digits of a character given by its number. -/
def readUnicode : List Char → Option (StringUnit × List Char)
  | first :: second :: third :: fourth :: rest =>
      if isHexDigit first && isHexDigit second && isHexDigit third && isHexDigit fourth then
        some (.unicode first second third fourth, rest)
      else none
  | _ => none

/-- One character of a string. -/
def readUnit (allowed : Char → Bool) : List Char → Option (StringUnit × List Char)
  | [] => none
  | char :: rest =>
      if char = '\\' then
        match rest with
        | [] => none
        | letter :: rest =>
            if letter = 'u' then readUnicode rest
            else if letter ∈ escapeLetters then some (.escape letter, rest)
            else none
      else if isRaw allowed char then some (.raw char, rest)
      else none

/-- The rest of a string behind its opening quote. -/
def readUnits (allowed : Char → Bool) : Nat → List Char → Option (List StringUnit × List Char)
  | 0, _ => none
  | fuel + 1, text =>
      if text.head? = some '"' then some ([], text.tail)
      else do
        let (unit, behind) ← readUnit allowed text
        let (units, rest) ← readUnits allowed fuel behind
        return (unit :: units, rest)

def markOf (char : Char) : Option Mark :=
  [Mark.openArray, .closeArray, .openObject, .closeObject, .comma, .colon].find? fun mark =>
    mark.char = char

def readToken (allowed : Char → Bool) (text : List Char) : Option (Token × List Char) :=
  match text with
  | [] => none
  | char :: rest =>
      if char = '"' then
        (readUnits allowed (rest.length + 1) rest).map fun found => (.string found.1, found.2)
      else if isNumberChar char then
        let digits := text.takeWhile isNumberChar
        if isNumber digits then some (.number digits, text.dropWhile isNumberChar) else none
      else
        match markOf char with
        | some mark => some (.mark mark, rest)
        | none =>
            (literals.find? fun letters => letters.isPrefixOf text).map fun letters =>
              (.word letters, text.drop letters.length)

def readTokens (allowed : Char → Bool) : Nat → List Char → Option (List Token)
  | 0, _ => none
  | fuel + 1, text =>
      let text := text.dropWhile isBlank
      if text = [] then some []
      else do
        let (token, behind) ← readToken allowed text
        let tokens ← readTokens allowed fuel behind
        return token :: tokens

/-! ## Strings -/

theorem readUnit_text {unit : StringUnit} (valid : unit.isValid allowed = true)
    (rest : List Char) : readUnit allowed (unit.text ++ rest) = some (unit, rest) := by
  cases unit with
  | raw char =>
      have raw : isRaw allowed char = true := valid
      have plain : char ≠ '\\' := by
        simp only [isRaw, Bool.and_eq_true, decide_eq_true_eq] at raw
        exact raw.2
      simp only [StringUnit.text, List.cons_append, List.nil_append, readUnit, if_neg plain,
        if_pos raw]
  | escape letter =>
      have known : letter ∈ escapeLetters := of_decide_eq_true valid
      have other : letter ≠ 'u' := by
        rintro rfl
        exact absurd known (by decide)
      simp only [StringUnit.text, List.cons_append, List.nil_append, readUnit, if_true,
        if_neg other, if_pos known]
  | unicode first second third fourth =>
      have digits : (isHexDigit first && isHexDigit second && isHexDigit third &&
        isHexDigit fourth) = true := valid
      simp only [StringUnit.text, List.cons_append, List.nil_append, readUnit, if_true,
        readUnicode, digits]

theorem readUnit_sound {text rest : List Char} {unit : StringUnit}
    (read : readUnit allowed text = some (unit, rest)) :
    text = unit.text ++ rest ∧ unit.isValid allowed = true := by
  cases text with
  | nil => cases read
  | cons char behind =>
      simp only [readUnit] at read
      split at read
      next escaped =>
        subst escaped
        cases behind with
        | nil => cases read
        | cons letter behind =>
            simp only at read
            split at read
            next byNumber =>
              subst byNumber
              unfold readUnicode at read
              split at read
              next first second third fourth others =>
                split at read
                next digits =>
                  obtain ⟨rfl, rfl⟩ := Prod.mk.inj (Option.some.inj read)
                  exact ⟨rfl, digits⟩
                next => cases read
              next => cases read
            next =>
              split at read
              next known =>
                obtain ⟨rfl, rfl⟩ := Prod.mk.inj (Option.some.inj read)
                exact ⟨rfl, decide_eq_true known⟩
              next => cases read
      next =>
        split at read
        next raw =>
          obtain ⟨rfl, rfl⟩ := Prod.mk.inj (Option.some.inj read)
          exact ⟨rfl, raw⟩
        next => cases read

/-- The spelling of a character of a string does not begin with a quote. -/
theorem head?_unit_text {unit : StringUnit} (valid : unit.isValid allowed = true)
    (rest : List Char) : (unit.text ++ rest).head? ≠ some '"' := by
  cases unit with
  | raw char =>
      simp only [StringUnit.isValid, isRaw, Bool.and_eq_true, decide_eq_true_eq] at valid
      intro same
      exact valid.1.2 (Option.some.inj same)
  | escape letter =>
      intro same
      exact absurd (Option.some.inj same) (by decide)
  | unicode first second third fourth =>
      intro same
      exact absurd (Option.some.inj same) (by decide)

theorem readUnits_text {units : List StringUnit} (valid : units.all (StringUnit.isValid allowed))
    {fuel : Nat} (enough : units.length < fuel) (rest : List Char) :
    readUnits allowed fuel (unitsText units ++ '"' :: rest) = some (units, rest) := by
  induction units generalizing fuel with
  | nil =>
      obtain ⟨fuel, rfl⟩ := Nat.exists_eq_succ_of_ne_zero (Nat.ne_of_gt enough)
      rfl
  | cons unit units ih =>
      obtain ⟨fuel, rfl⟩ := Nat.exists_eq_succ_of_ne_zero (Nat.ne_of_gt (Nat.zero_lt_of_lt enough))
      rw [List.all_cons, Bool.and_eq_true] at valid
      rw [unitsText, List.flatMap_cons, List.append_assoc, ← unitsText, Nat.succ_eq_add_one,
        readUnits, if_neg (head?_unit_text valid.1 _), readUnit_text valid.1]
      have behind := ih valid.2 (Nat.lt_of_succ_lt_succ enough)
      simp only [Option.bind_eq_bind, Option.bind_some, behind]
      rfl

theorem readUnits_sound {fuel : Nat} {text rest : List Char} {units : List StringUnit}
    (read : readUnits allowed fuel text = some (units, rest)) :
    text = unitsText units ++ '"' :: rest ∧ units.all (StringUnit.isValid allowed) = true := by
  induction fuel generalizing text units with
  | zero => cases read
  | succ fuel ih =>
      rw [readUnits] at read
      split at read
      next closed =>
        obtain ⟨rfl, rfl⟩ := Prod.mk.inj (Option.some.inj read)
        exact ⟨(List.cons_head?_tail closed).symm, rfl⟩
      next =>
        obtain ⟨⟨unit, behind⟩, first, read⟩ := Option.bind_eq_some_iff.mp read
        obtain ⟨⟨others, last⟩, following, read⟩ := Option.bind_eq_some_iff.mp read
        obtain ⟨rfl, rfl⟩ := Prod.mk.inj (Option.some.inj read)
        obtain ⟨rfl, valid⟩ := readUnit_sound first
        obtain ⟨rfl, allValid⟩ := ih following
        refine ⟨?_, ?_⟩
        · rw [unitsText, unitsText, List.flatMap_cons, List.append_assoc]
        · rw [List.all_cons, valid, allValid, Bool.and_self]

theorem length_le_unitsText (units : List StringUnit) :
    units.length ≤ (unitsText units).length := by
  induction units with
  | nil => exact Nat.le_refl _
  | cons unit rest ih =>
      have positive : 0 < unit.text.length := by cases unit <;> exact Nat.succ_pos _
      rw [unitsText, List.flatMap_cons, List.length_append, ← unitsText, List.length_cons]
      omega

/-! ## Single tokens -/

theorem isNumber_ne_nil {digits : List Char} (number : isNumber digits = true) : digits ≠ [] := by
  rintro rfl
  cases number

theorem takeWhile_number {digits rest : List Char} (made : digits.all isNumberChar = true)
    (ends : rest.head?.all (fun char => !isNumberChar char) = true) :
    (digits ++ rest).takeWhile isNumberChar = digits ∧
      (digits ++ rest).dropWhile isNumberChar = rest := by
  have all : ∀ char ∈ digits, isNumberChar char = true := List.all_eq_true.mp made
  rw [List.takeWhile_append_of_pos all, List.dropWhile_append_of_pos all]
  cases rest with
  | nil => exact ⟨List.append_nil _, rfl⟩
  | cons char rest =>
      have stops : ¬isNumberChar char = true := by simpa using ends
      rw [List.takeWhile_cons_of_neg stops, List.dropWhile_cons_of_neg stops, List.append_nil]
      exact ⟨rfl, rfl⟩

theorem readToken_text {token : Token} {rest : List Char} (valid : token.isValid allowed = true)
    (ends : token.Ends rest) : readToken allowed (token.text ++ rest) = some (token, rest) := by
  cases token with
  | mark kind => cases kind <;> rfl
  | word letters =>
      have known : letters ∈ literals := List.contains_iff_mem.mp valid
      simp only [literals, List.mem_cons, List.not_mem_nil, or_false] at known
      rcases known with rfl | rfl | rfl <;> rfl
  | number digits =>
      have number : isNumber digits = true := valid
      have made := (Bool.and_eq_true_iff.mp number).1
      obtain ⟨taken, dropped⟩ := takeWhile_number made ends
      obtain ⟨char, behind, rfl⟩ := List.exists_cons_of_ne_nil (isNumber_ne_nil number)
      have first : isNumberChar char = true :=
        List.all_eq_true.mp made char List.mem_cons_self
      have plain : char ≠ '"' := by
        rintro rfl
        exact absurd first (by decide)
      rw [List.cons_append] at taken dropped
      simp only [Token.text, List.cons_append, readToken, if_neg plain, if_pos first, taken,
        dropped, if_pos number]
  | string units =>
      have enough : units.length < (unitsText units ++ '"' :: rest).length + 1 := by
        have size := length_le_unitsText units
        rw [List.length_append]
        omega
      have read := @readUnits_text allowed units valid _ enough rest
      simp only [Token.text, List.cons_append, List.append_assoc, List.nil_append, readToken,
        if_true, read, Option.map_some]

theorem readToken_sound {text rest : List Char} {token : Token}
    (read : readToken allowed text = some (token, rest)) :
    text = token.text ++ rest ∧ token.isValid allowed = true ∧ token.Ends rest := by
  cases text with
  | nil => cases read
  | cons char behind =>
      simp only [readToken] at read
      split at read
      next quote =>
        obtain ⟨⟨units, last⟩, found, same⟩ := Option.map_eq_some_iff.mp read
        obtain ⟨rfl, rfl⟩ := Prod.mk.inj same
        obtain ⟨rfl, valid⟩ := readUnits_sound found
        rw [quote, Token.text, List.cons_append, List.append_assoc]
        exact ⟨rfl, valid, trivial⟩
      next =>
        split at read
        next =>
          split at read
          next number =>
            obtain ⟨rfl, rfl⟩ := Prod.mk.inj (Option.some.inj read)
            refine ⟨List.takeWhile_append_dropWhile.symm, number, ?_⟩
            have stops := List.head?_dropWhile_not isNumberChar (char :: behind)
            cases left : (char :: behind).dropWhile isNumberChar with
            | nil => rfl
            | cons next others =>
                rw [left] at stops
                simpa [Token.Ends] using stops
          next => cases read
        next =>
          split at read
          next mark known =>
            obtain ⟨rfl, rfl⟩ := Prod.mk.inj (Option.some.inj read)
            have spelled : mark.char = char := by
              simpa using List.find?_some known
            rw [Token.text, spelled]
            exact ⟨rfl, rfl, trivial⟩
          next =>
            obtain ⟨letters, found, same⟩ := Option.map_eq_some_iff.mp read
            obtain ⟨rfl, rfl⟩ := Prod.mk.inj same
            have begins : letters.isPrefixOf (char :: behind) = true := by
              simpa using List.find?_some found
            obtain ⟨others, whole⟩ := List.isPrefixOf_iff_prefix.mp begins
            rw [← whole, List.drop_left]
            exact ⟨rfl, List.contains_iff_mem.mpr (List.mem_of_find?_eq_some found), trivial⟩

/-! ## All tokens -/

/-- The spelling of a token begins with something other than a blank. -/
theorem exists_cons_text {token : Token} (valid : token.isValid allowed = true) :
    ∃ char rest, token.text = char :: rest ∧ isBlank char = false := by
  cases token with
  | mark kind => cases kind <;> exact ⟨_, _, rfl, rfl⟩
  | word letters =>
      have known : letters ∈ literals := List.contains_iff_mem.mp valid
      simp only [literals, List.mem_cons, List.not_mem_nil, or_false] at known
      rcases known with rfl | rfl | rfl <;> exact ⟨_, _, rfl, rfl⟩
  | number digits =>
      have number : isNumber digits = true := valid
      obtain ⟨char, behind, rfl⟩ := List.exists_cons_of_ne_nil (isNumber_ne_nil number)
      have first : isNumberChar char = true :=
        List.all_eq_true.mp (Bool.and_eq_true_iff.mp number).1 char List.mem_cons_self
      refine ⟨char, behind, rfl, ?_⟩
      by_contra blank
      simp only [isBlank, Bool.not_eq_false, Bool.or_eq_true, decide_eq_true_eq] at blank
      rcases blank with ((rfl | rfl) | rfl) | rfl <;> exact absurd first (by decide)
  | string units => exact ⟨_, _, rfl, rfl⟩

theorem readTokens_of_spells {text : List Char} {tokens : List Token}
    (spelled : Spells allowed text tokens) {fuel : Nat} (enough : tokens.length < fuel) :
    readTokens allowed fuel text = some tokens := by
  induction spelled generalizing fuel with
  | done blank =>
      obtain ⟨fuel, rfl⟩ := Nat.exists_eq_succ_of_ne_zero (Nat.ne_of_gt enough)
      have nothing := List.dropWhile_eq_nil_iff.mpr (List.all_eq_true.mp blank)
      simp only [readTokens, nothing, if_true]
  | next blank valid ends spelled ih =>
      obtain ⟨fuel, rfl⟩ := Nat.exists_eq_succ_of_ne_zero (Nat.ne_of_gt (Nat.zero_lt_of_lt enough))
      obtain ⟨char, rest, begins, black⟩ := exists_cons_text valid
      have read := readToken_text valid ends
      rw [begins, List.cons_append] at read
      rw [begins, readTokens, List.dropWhile_append_of_pos (List.all_eq_true.mp blank),
        List.cons_append, List.dropWhile_cons_of_neg (by simp [black])]
      simp only [if_neg (List.cons_ne_nil _ _), read, Option.bind_eq_bind, Option.bind_some,
        ih (Nat.lt_of_succ_lt_succ enough)]
      rfl

theorem spells_of_readTokens {text : List Char} {tokens : List Token} {fuel : Nat}
    (read : readTokens allowed fuel text = some tokens) : Spells allowed text tokens := by
  induction fuel generalizing text tokens with
  | zero => cases read
  | succ fuel ih =>
      have blank : (text.takeWhile isBlank).all isBlank = true := List.all_takeWhile
      simp only [readTokens] at read
      split at read
      next nothing =>
        obtain rfl := Option.some.inj read
        have whole : text.takeWhile isBlank = text := by
          have joined := @List.takeWhile_append_dropWhile _ isBlank text
          rwa [nothing, List.append_nil] at joined
        exact .done (whole ▸ blank)
      next =>
        obtain ⟨⟨token, behind⟩, first, read⟩ := Option.bind_eq_some_iff.mp read
        obtain ⟨others, following, read⟩ := Option.bind_eq_some_iff.mp read
        obtain rfl := Option.some.inj read
        obtain ⟨whole, valid, ends⟩ := readToken_sound first
        rw [← @List.takeWhile_append_dropWhile _ isBlank text, whole]
        exact .next blank valid ends (ih following)

/-! ## Trees of tokens -/

mutual

def readTree : Nat → List Token → Option (Tree × List Token)
  | fuel + 1, .mark .openArray :: tokens =>
      if tokens.head? = some (.mark .closeArray) then some (.array [], tokens.tail)
      else (readItems fuel tokens).map fun found => (.array found.1, found.2)
  | fuel + 1, .mark .openObject :: tokens =>
      if tokens.head? = some (.mark .closeObject) then some (.object [], tokens.tail)
      else (readMembers fuel tokens).map fun found => (.object found.1, found.2)
  | _ + 1, .word letters :: rest => some (.word letters, rest)
  | _ + 1, .number digits :: rest => some (.number digits, rest)
  | _ + 1, .string units :: rest => some (.string units, rest)
  | _, _ => none

/-- The items of an array up to its end; there is at least one. -/
def readItems : Nat → List Token → Option (List Tree × List Token)
  | 0, _ => none
  | fuel + 1, tokens => do
      let (item, behind) ← readTree fuel tokens
      match behind with
      | .mark .closeArray :: rest => some ([item], rest)
      | .mark .comma :: more => do
          let (items, rest) ← readItems fuel more
          return (item :: items, rest)
      | _ => none

/-- The members of an object up to its end; there is at least one. -/
def readMembers : Nat → List Token → Option (List (List StringUnit × Tree) × List Token)
  | fuel + 1, .string name :: .mark .colon :: tokens => do
      let (value, behind) ← readTree fuel tokens
      match behind with
      | .mark .closeObject :: rest => some ([(name, value)], rest)
      | .mark .comma :: more => do
          let (members, rest) ← readMembers fuel more
          return ((name, value) :: members, rest)
      | _ => none
  | _, _ => none

end

/-- The tree of a text. -/
def parse (allowed : Char → Bool) (text : List Char) : Option Tree := do
  let tokens ← readTokens allowed (text.length + 1) text
  match readTree tokens.length tokens with
  | some (tree, []) => some tree
  | _ => none

theorem length_tokens_pos (tree : Tree) : 0 < tree.tokens.length := by
  cases tree <;> exact Nat.succ_pos _

/-- A tree does not begin with the end of an array. -/
theorem head?_tokens (tree : Tree) (rest : List Token) :
    (tree.tokens ++ rest).head? ≠ some (.mark .closeArray) := by
  cases tree <;> simp [Tree.tokens]

theorem head?_itemsTokens (item : Tree) (items : List Tree) (rest : List Token) :
    (itemsTokens (item :: items) ++ rest).head? ≠ some (.mark .closeArray) := by
  cases items with
  | nil => exact head?_tokens item rest
  | cons second others =>
      rw [itemsTokens, List.append_assoc]
      · exact head?_tokens item _
      · exact List.cons_ne_nil _ _

/-- A member does not begin with the end of an object. -/
theorem head?_membersTokens (member : List StringUnit × Tree)
    (members : List (List StringUnit × Tree)) (rest : List Token) :
    (membersTokens (member :: members) ++ rest).head? ≠ some (.mark .closeObject) := by
  obtain ⟨name, value⟩ := member
  cases members <;> simp [membersTokens]

mutual

/-- A tree is read back from its tokens, whatever follows. -/
theorem readTree_tokens (tree : Tree) {fuel : Nat} (enough : tree.tokens.length ≤ fuel)
    (rest : List Token) : readTree fuel (tree.tokens ++ rest) = some (tree, rest) := by
  have positive := length_tokens_pos tree
  obtain ⟨less, rfl⟩ : ∃ less, fuel = less + 1 := ⟨fuel - 1, by omega⟩
  cases tree with
  | word letters => rfl
  | number digits => rfl
  | string units => rfl
  | array items =>
      by_cases empty : items = []
      · subst empty
        rfl
      · obtain ⟨item, others, named⟩ := List.exists_cons_of_ne_nil empty
        have begins := head?_itemsTokens item others (.mark .closeArray :: rest)
        rw [← named] at begins
        have less : (itemsTokens items).length + 1 ≤ less := by
          simpa [Tree.tokens] using enough
        have read := readItems_tokens items empty less rest
        simp only [Tree.tokens, List.cons_append, List.append_assoc, List.nil_append, readTree,
          if_neg begins, read, Option.map_some]
  | object members =>
      by_cases empty : members = []
      · subst empty
        rfl
      · obtain ⟨member, others, named⟩ := List.exists_cons_of_ne_nil empty
        have begins := head?_membersTokens member others (.mark .closeObject :: rest)
        rw [← named] at begins
        have less : (membersTokens members).length + 1 ≤ less := by
          simpa [Tree.tokens] using enough
        have read := readMembers_tokens members empty less rest
        simp only [Tree.tokens, List.cons_append, List.append_assoc, List.nil_append, readTree,
          if_neg begins, read, Option.map_some]

theorem readItems_tokens (items : List Tree) (nonempty : items ≠ []) {fuel : Nat}
    (enough : (itemsTokens items).length + 1 ≤ fuel) (rest : List Token) :
    readItems fuel (itemsTokens items ++ .mark .closeArray :: rest) = some (items, rest) := by
  obtain ⟨less, rfl⟩ : ∃ less, fuel = less + 1 := ⟨fuel - 1, by omega⟩
  cases items with
  | nil => exact absurd rfl nonempty
  | cons item others =>
      have first := @readTree_tokens item less
      have following := @readItems_tokens others
      cases others with
      | nil =>
          rw [itemsTokens] at enough ⊢
          simp only [readItems, first (by omega), Option.bind_eq_bind, Option.bind_some]
      | cons second others =>
          have positive := length_tokens_pos item
          simp only [itemsTokens, List.length_append, List.length_cons] at enough
          have shorter : (itemsTokens (second :: others)).length + 1 ≤ less := by omega
          have behind := following (List.cons_ne_nil _ _) shorter rest
          simp only [itemsTokens, List.append_assoc, List.cons_append, readItems,
            first (Nat.le_of_succ_le_succ (by omega)), Option.bind_eq_bind, Option.bind_some]
            at behind ⊢
          rw [behind]
          rfl

theorem readMembers_tokens (members : List (List StringUnit × Tree)) (nonempty : members ≠ [])
    {fuel : Nat} (enough : (membersTokens members).length + 1 ≤ fuel) (rest : List Token) :
    readMembers fuel (membersTokens members ++ .mark .closeObject :: rest) =
      some (members, rest) := by
  obtain ⟨less, rfl⟩ : ∃ less, fuel = less + 1 := ⟨fuel - 1, by omega⟩
  cases members with
  | nil => exact absurd rfl nonempty
  | cons member others =>
      obtain ⟨name, value⟩ := member
      have first := @readTree_tokens value less
      have following := @readMembers_tokens others
      cases others with
      | nil =>
          simp only [membersTokens, List.length_cons] at enough
          simp only [membersTokens, List.cons_append, readMembers, first (by omega),
            Option.bind_eq_bind, Option.bind_some]
      | cons second others =>
          have positive := length_tokens_pos value
          simp only [membersTokens, List.length_append, List.length_cons] at enough
          have shorter : (membersTokens (second :: others)).length + 1 ≤ less := by omega
          have behind := following (List.cons_ne_nil _ _) shorter rest
          simp only [membersTokens, List.append_assoc, List.cons_append, readMembers,
            first (Nat.le_of_succ_le_succ (by omega)), Option.bind_eq_bind, Option.bind_some]
            at behind ⊢
          rw [behind]
          rfl

end

theorem itemsTokens_cons {item : Tree} {items : List Tree} (more : items ≠ []) :
    itemsTokens (item :: items) = item.tokens ++ .mark .comma :: itemsTokens items := by
  obtain ⟨second, others, rfl⟩ := List.exists_cons_of_ne_nil more
  rfl

theorem membersTokens_cons {name : List StringUnit} {value : Tree}
    {members : List (List StringUnit × Tree)} (more : members ≠ []) :
    membersTokens ((name, value) :: members) =
      .string name :: .mark .colon :: (value.tokens ++ .mark .comma :: membersTokens members) := by
  obtain ⟨second, others, rfl⟩ := List.exists_cons_of_ne_nil more
  rfl

/-- What has been read so far spells what was read. -/
structure ReadsSoundly (fuel : Nat) : Prop where
  tree : ∀ {tokens rest : List Token} {tree : Tree},
    readTree fuel tokens = some (tree, rest) → tokens = tree.tokens ++ rest
  items : ∀ {tokens rest : List Token} {items : List Tree},
    readItems fuel tokens = some (items, rest) →
      tokens = itemsTokens items ++ .mark .closeArray :: rest ∧ items ≠ []
  members : ∀ {tokens rest : List Token} {members : List (List StringUnit × Tree)},
    readMembers fuel tokens = some (members, rest) →
      tokens = membersTokens members ++ .mark .closeObject :: rest ∧ members ≠ []

theorem readItems_sound {fuel : Nat} (sound : ReadsSoundly fuel) {tokens rest : List Token}
    {items : List Tree} (read : readItems (fuel + 1) tokens = some (items, rest)) :
    tokens = itemsTokens items ++ .mark .closeArray :: rest ∧ items ≠ [] := by
  rw [readItems] at read
  obtain ⟨⟨item, behind⟩, first, read⟩ := Option.bind_eq_some_iff.mp read
  have whole := sound.tree first
  simp only at read
  split at read
  next last =>
    obtain ⟨rfl, rfl⟩ := Prod.mk.inj (Option.some.inj read)
    exact ⟨whole, List.cons_ne_nil _ _⟩
  next more =>
    obtain ⟨⟨others, last⟩, following, read⟩ := Option.bind_eq_some_iff.mp read
    obtain ⟨rfl, rfl⟩ := Prod.mk.inj (Option.some.inj read)
    obtain ⟨behind, several⟩ := sound.items following
    refine ⟨?_, List.cons_ne_nil _ _⟩
    rw [whole, behind, itemsTokens_cons several, List.append_assoc, List.cons_append]
  next => cases read

theorem readMembers_sound {fuel : Nat} (sound : ReadsSoundly fuel) {tokens rest : List Token}
    {members : List (List StringUnit × Tree)}
    (read : readMembers (fuel + 1) tokens = some (members, rest)) :
    tokens = membersTokens members ++ .mark .closeObject :: rest ∧ members ≠ [] := by
  unfold readMembers at read
  split at read
  next less name named same =>
    obtain rfl : fuel = less := Nat.succ.inj same
    obtain ⟨⟨value, behind⟩, first, read⟩ := Option.bind_eq_some_iff.mp read
    have whole := sound.tree first
    simp only at read
    split at read
    next last =>
      obtain ⟨rfl, rfl⟩ := Prod.mk.inj (Option.some.inj read)
      exact ⟨by rw [whole]; rfl, List.cons_ne_nil _ _⟩
    next more =>
      obtain ⟨⟨others, last⟩, following, read⟩ := Option.bind_eq_some_iff.mp read
      obtain ⟨rfl, rfl⟩ := Prod.mk.inj (Option.some.inj read)
      obtain ⟨behind, several⟩ := sound.members following
      refine ⟨?_, List.cons_ne_nil _ _⟩
      rw [whole, behind, membersTokens_cons several]
      simp only [List.cons_append, List.append_assoc]
    next => cases read
  next => cases read

theorem readTree_sound {fuel : Nat} (sound : ReadsSoundly fuel) {tokens rest : List Token}
    {tree : Tree} (read : readTree (fuel + 1) tokens = some (tree, rest)) :
    tokens = tree.tokens ++ rest := by
  unfold readTree at read
  split at read
  next less behind same =>
    obtain rfl : fuel = less := Nat.succ.inj same
    split at read
    next closed =>
      obtain ⟨rfl, rfl⟩ := Prod.mk.inj (Option.some.inj read)
      rw [← List.cons_head?_tail closed]
      rfl
    next =>
      obtain ⟨⟨items, last⟩, found, same⟩ := Option.map_eq_some_iff.mp read
      obtain ⟨rfl, rfl⟩ := Prod.mk.inj same
      rw [(sound.items found).1, Tree.tokens, List.cons_append, List.append_assoc]
      rfl
  next less behind same =>
    obtain rfl : fuel = less := Nat.succ.inj same
    split at read
    next closed =>
      obtain ⟨rfl, rfl⟩ := Prod.mk.inj (Option.some.inj read)
      rw [← List.cons_head?_tail closed]
      rfl
    next =>
      obtain ⟨⟨members, last⟩, found, same⟩ := Option.map_eq_some_iff.mp read
      obtain ⟨rfl, rfl⟩ := Prod.mk.inj same
      rw [(sound.members found).1, Tree.tokens, List.cons_append, List.append_assoc]
      rfl
  next =>
    obtain ⟨rfl, rfl⟩ := Prod.mk.inj (Option.some.inj read)
    rfl
  next =>
    obtain ⟨rfl, rfl⟩ := Prod.mk.inj (Option.some.inj read)
    rfl
  next =>
    obtain ⟨rfl, rfl⟩ := Prod.mk.inj (Option.some.inj read)
    rfl
  next => cases read

theorem readsSoundly (fuel : Nat) : ReadsSoundly fuel := by
  induction fuel with
  | zero =>
      constructor
      · intro tokens rest tree read
        unfold readTree at read
        cases read
      · intro tokens rest items read
        cases read
      · intro tokens rest members read
        unfold readMembers at read
        cases read
  | succ fuel ih =>
      exact ⟨readTree_sound ih, readItems_sound ih, readMembers_sound ih⟩

/-! ## The parser -/

theorem Spells.length_le {text : List Char} {tokens : List Token}
    (spelled : Spells allowed text tokens) : tokens.length ≤ text.length := by
  induction spelled with
  | done blank => exact Nat.zero_le _
  | next blank valid ends spelled ih =>
      obtain ⟨char, rest, begins, -⟩ := exists_cons_text valid
      rw [begins]
      simp only [List.length_append, List.length_cons]
      omega

/-- **Parsing.** The parser finds exactly the tree that the grammar gives the text. -/
theorem parse_eq_some_iff {text : List Char} {tree : Tree} :
    parse allowed text = some tree ↔ Denotes allowed text tree := by
  constructor
  · intro parsed
    obtain ⟨tokens, found, read⟩ := Option.bind_eq_some_iff.mp parsed
    have spelled := spells_of_readTokens found
    split at read
    next found whole =>
      obtain rfl := Option.some.inj read
      rwa [(readsSoundly _).tree whole, List.append_nil] at spelled
    next => cases read
  · intro denotes
    have found := readTokens_of_spells denotes (Nat.lt_succ_of_le (Spells.length_le denotes))
    have read := readTree_tokens tree (Nat.le_refl _) []
    rw [List.append_nil] at read
    simp only [parse, found, Option.bind_eq_bind, Option.bind_some, read]

/-! ## Unambiguity -/

/-- A tree is determined by its tokens. -/
theorem tokens_injective : Function.Injective Tree.tokens := by
  intro first second same
  have one := readTree_tokens first (Nat.le_refl _) []
  have other := readTree_tokens second (Nat.le_refl _) []
  rw [same, other] at one
  exact (congrArg Prod.fst (Option.some.inj one)).symm

instance : DecidableEq Tree :=
  fun _ _ => decidable_of_iff _ tokens_injective.eq_iff

theorem Tree.map_id (tree : Tree) : tree.map id = tree := by
  apply tokens_injective
  have units : ∀ units : List StringUnit, units.map (StringUnit.map id) = units := by
    intro units
    have each : StringUnit.map id = id := by
      funext unit
      cases unit <;> rfl
    rw [each, List.map_id]
  have each : Token.map id = id := by
    funext token
    cases token with
    | string spelled => exact congrArg Token.string (units spelled)
    | _ => rfl
  rw [tokens_map, each, List.map_id]

section Agreement

variable {first second : Char → Char}

theorem unitsMap_congr {units : List StringUnit}
    (valid : units.all (StringUnit.isValid allowed) = true)
    (agree : ∀ char ∈ unitsText units, isRaw allowed char = true → first char = second char) :
    units.map (StringUnit.map first) = units.map (StringUnit.map second) := by
  induction units with
  | nil => rfl
  | cons unit rest ih =>
      rw [List.all_cons, Bool.and_eq_true] at valid
      rw [unitsText, List.flatMap_cons] at agree
      have behind := ih valid.2 fun char member => agree char (List.mem_append_right _ member)
      rw [List.map_cons, List.map_cons, behind]
      cases unit with
      | raw char =>
          have same := agree char (List.mem_append_left _ (List.mem_singleton.mpr rfl)) valid.1
          simp only [StringUnit.map, same]
      | _ => rfl

theorem Token.map_congr {token : Token} (valid : token.isValid allowed = true)
    (agree : ∀ char ∈ token.text, isRaw allowed char = true → first char = second char) :
    token.map first = token.map second := by
  cases token with
  | string units =>
      apply congrArg Token.string
      apply unitsMap_congr valid
      intro char member
      exact agree char (List.mem_cons_of_mem _ (List.mem_append_left _ member))
  | _ => rfl

theorem Spells.map_congr {text : List Char} {tokens : List Token}
    (spelled : Spells allowed text tokens)
    (agree : ∀ char ∈ text, isRaw allowed char = true → first char = second char) :
    tokens.map (Token.map first) = tokens.map (Token.map second) := by
  induction spelled with
  | done blank => rfl
  | next blank valid ends spelled ih =>
      simp only [List.mem_append] at agree
      have head := Token.map_congr valid fun char member => agree char (.inr (.inl member))
      have behind := ih fun char member => agree char (.inr (.inr member))
      rw [List.map_cons, List.map_cons, head, behind]

/-- Replacements that agree on the text make the same of its tree. -/
theorem Denotes.map_congr {text : List Char} {tree : Tree} (denotes : Denotes allowed text tree)
    (agree : ∀ char ∈ text, isRaw allowed char = true → first char = second char) :
    tree.map first = tree.map second := by
  apply tokens_injective
  rw [tokens_map, tokens_map]
  exact Spells.map_congr denotes agree

end Agreement

end JsonText
