import StratumBridge.Foundation.JsonParser
import StratumBridge.Web.Config

/-! # Reading a miner's request

Some miners send control characters inside strings, which JSON forbids. The bridge replaces
control characters by spaces before it parses a line.
-/

namespace StratumBridge

open JsonText (Tree StringUnit)

/-! ## Events -/

/-- A request of a miner. -/
structure JsonRpcEvent where
  id : Option Json
  jsonrpc : Text
  method : Text
  params : List Json

def defaultVersion : Text := Text.ofString "2.0"

/-- The character that a letter behind a backslash stands for. -/
def unescape : Char → Char
  | 'b' => '\x08'
  | 'f' => '\x0c'
  | 'n' => '\n'
  | 'r' => '\r'
  | 't' => '\t'
  | letter => letter

/-- The text of a string. A character beyond sixteen bits is given by a pair of surrogates. -/
def decodeUnits : List StringUnit → Option Text
  | [] => some []
  | .raw char :: rest => (decodeUnits rest).map (char :: ·)
  | .escape letter :: rest => (decodeUnits rest).map (unescape letter :: ·)
  | .unicode first second third fourth :: rest => do
      let code ← Text.readDigits 16 [first, second, third, fourth] 0
      if 0xD800 ≤ code ∧ code < 0xDC00 then
        match rest with
        | .unicode first second third fourth :: rest => do
            let low ← Text.readDigits 16 [first, second, third, fourth] 0
            if 0xDC00 ≤ low ∧ low < 0xE000 then
              (decodeUnits rest).map
                (Char.ofNat (0x10000 + (code - 0xD800) * 0x400 + (low - 0xDC00)) :: ·)
            else none
        | _ => none
      else if 0xDC00 ≤ code ∧ code < 0xE000 then none
      else (decodeUnits rest).map (Char.ofNat code :: ·)

/-- Entries are kept in the order of their names; the last of a name counts. -/
def insertEntry (name : Text) (value : Json) : List (Text × Json) → List (Text × Json)
  | [] => [(name, value)]
  | (other, held) :: rest =>
      if name < other then (name, value) :: (other, held) :: rest
      else if name = other then (name, value) :: rest
      else (other, held) :: insertEntry name value rest

mutual

/-- The value of a tree, given what numbers stand for. -/
def toJson (number : Text → Option Number) : Tree → Option Json
  | .word letters =>
      if letters = Text.ofString "true" then some (.bool true)
      else if letters = Text.ofString "false" then some (.bool false)
      else some .null
  | .number digits => (number digits).map .number
  | .string units => (decodeUnits units).map .string
  | .array items => (itemsToJson number items).map .array
  | .object members => (membersToJson number members []).map .object

def itemsToJson (number : Text → Option Number) : List Tree → Option (List Json)
  | [] => some []
  | item :: rest => do
      let value ← toJson number item
      let values ← itemsToJson number rest
      return value :: values

def membersToJson (number : Text → Option Number) :
    List (List StringUnit × Tree) → List (Text × Json) → Option (List (Text × Json))
  | [], entries => some entries
  | (name, value) :: rest, entries => do
      let name ← decodeUnits name
      let value ← toJson number value
      membersToJson number rest (insertEntry name value entries)

end

/-- `Option<Value>`: null is none. -/
def toOptional (number : Text → Option Number) (tree : Tree) : Option (Option Json) :=
  (toJson number tree).map fun value => if value.isNull then none else some value

def toText : Tree → Option Text
  | .string units => decodeUnits units
  | _ => none

def toValues (number : Text → Option Number) : Tree → Option (List Json)
  | .array items => itemsToJson number items
  | _ => none

/-- The fields of an event that were found so far. -/
structure EventFields where
  id : Option (Option Json) := none
  jsonrpc : Option Text := none
  method : Option Text := none
  params : Option (List Json) := none

/-- A field may be given once. -/
def setOnce {α : Type} (held value : Option α) : Option (Option α) :=
  if held.isSome then none else value.map some

def EventFields.read (number : Text → Option Number) (fields : EventFields)
    (member : List StringUnit × Tree) : Option EventFields := do
  let name ← decodeUnits member.1
  if name = Text.ofString "id" then
    let id ← setOnce fields.id (toOptional number member.2)
    return { fields with id }
  else if name = Text.ofString "jsonrpc" then
    let jsonrpc ← setOnce fields.jsonrpc (toText member.2)
    return { fields with jsonrpc }
  else if name = Text.ofString "method" then
    let method ← setOnce fields.method (toText member.2)
    return { fields with method }
  else if name = Text.ofString "params" then
    let params ← setOnce fields.params (toValues number member.2)
    return { fields with params }
  else return fields

/-- The derived `JsonRpcEvent::deserialize`. The fields may also stand in an array, in their
order. -/
def JsonRpcEvent.ofTree (number : Text → Option Number) : Tree → Option JsonRpcEvent
  | .object members => do
      let fields ← members.foldlM (EventFields.read number) {}
      let method ← fields.method
      let params ← fields.params
      return { id := fields.id.join, jsonrpc := fields.jsonrpc.getD defaultVersion, method, params }
  | .array [id, jsonrpc, method, params] => do
      let id ← toOptional number id
      let jsonrpc ← toText jsonrpc
      let method ← toText method
      let params ← toValues number params
      return { id, jsonrpc, method, params }
  | _ => none

/-! ## Sanitizing -/

/-- `char::is_control`. -/
def isControl (char : Char) : Bool :=
  char.toNat < 0x20 || (0x7F ≤ char.toNat && char.toNat < 0xA0)

def needsSanitization (char : Char) : Bool := isControl char && char ≠ '\n' && char ≠ '\r'

def sanitizeChar (char : Char) : Char := if needsSanitization char then ' ' else char

def sanitizeJsonInput (input : Text) : Text := input.map sanitizeChar

/-- The `serde_json` library: what its numbers stand for, and `from_str` for an event; an error is
its message. -/
structure SerdeJson where
  number : Text → Option Number
  fromStr : Text → Except Text JsonRpcEvent

/-- The library parses the texts of the grammar. -/
def SerdeJson.FollowsGrammar (serde : SerdeJson) : Prop :=
  ∀ text event, serde.fromStr text = .ok event ↔
    ∃ tree, JsonText.Denotes JsonText.standard text tree ∧
      JsonRpcEvent.ofTree serde.number tree = some event

def unmarshalEvent (serde : SerdeJson) (input : Text) : Except Text JsonRpcEvent :=
  if input.any needsSanitization then
    match serde.fromStr (sanitizeJsonInput input) with
    | .ok result => .ok result
    | .error message => .error message
  else serde.fromStr input

theorem unmarshalEvent_eq (serde : SerdeJson) (input : Text) :
    unmarshalEvent serde input = serde.fromStr (sanitizeJsonInput input) := by
  unfold unmarshalEvent
  split
  next =>
    cases serde.fromStr (sanitizeJsonInput input) with
    | ok event => rfl
    | error message => rfl
  next clean =>
    have same : ∀ char ∈ input, sanitizeChar char = id char := by
      intro char member
      apply if_neg
      exact fun control => clean (List.any_eq_true.mpr ⟨char, member, control⟩)
    rw [sanitizeJsonInput, List.map_congr_left same, List.map_id]

/-! ## Conservativity -/

/-- A string may hold any control characters but the two that end lines. -/
def lenient (char : Char) : Bool := char ≠ '\n' && char ≠ '\r'

/-- The control characters of a string that JSON forbids, as spaces. -/
def spaceControl (char : Char) : Char := if char.toNat < 0x20 then ' ' else char

theorem isControl_of_isVisible {char : Char} (visible : JsonText.isVisible char = true) :
    isControl char = false := by
  simp only [JsonText.isVisible, Bool.and_eq_true, decide_eq_true_eq] at visible
  have low : ('!').toNat ≤ char.toNat := visible.1
  have high : char.toNat ≤ ('~').toNat := visible.2
  have first : ('!').toNat = 0x21 := rfl
  have last : ('~').toNat = 0x7E := rfl
  simp only [isControl, Bool.or_eq_false_iff, decide_eq_false_iff_not, Bool.and_eq_false_iff]
  omega

theorem sanitizeChar_eq (char : Char) :
    sanitizeChar char = char ∨ sanitizeChar char = ' ' := by
  unfold sanitizeChar
  split
  · exact .inr rfl
  · exact .inl rfl

/-- A character that stands in a string stays, unless it is a control character. -/
theorem standard_sanitizeChar {char : Char} (held : lenient char = true) :
    JsonText.standard (sanitizeChar char) = true := by
  unfold sanitizeChar
  split
  · rfl
  next kept =>
    simp only [needsSanitization, isControl, lenient, Bool.and_eq_true] at kept held
    have high : ¬char.toNat < 0x20 := by
      intro low
      exact kept ⟨⟨by simp [low], held.1⟩, held.2⟩
    have space : (' ').toNat ≤ char.toNat := Nat.le_of_not_lt high
    exact decide_eq_true space

/-- Sanitizing takes what may stand in a lenient string to what may stand in a string. -/
theorem respects_sanitizeChar {allowed : Char → Bool}
    (within : ∀ char, allowed char = true → lenient char = true) :
    JsonText.Respects allowed JsonText.standard sanitizeChar := by
  constructor
  case visible =>
    intro char visible
    have plain : needsSanitization char = false := by
      simp only [needsSanitization, isControl_of_isVisible visible, Bool.false_and]
    simp only [sanitizeChar, plain, Bool.false_eq_true, if_false]
  case blank =>
    intro char blank
    rcases sanitizeChar_eq char with same | same
    · rwa [same]
    · rw [same]
      rfl
  case raw =>
    intro char raw
    simp only [JsonText.isRaw, Bool.and_eq_true] at raw ⊢
    have standard := standard_sanitizeChar (within char raw.1.1)
    rcases sanitizeChar_eq char with same | same
    · rw [same] at standard ⊢
      exact ⟨⟨standard, raw.1.2⟩, raw.2⟩
    · rw [same]
      decide
  case number =>
    intro char number
    rcases sanitizeChar_eq char with same | same
    · rwa [same] at number
    · rw [same] at number
      exact absurd number (by decide)

variable {serde : SerdeJson} {line : Text} {tree : Tree} {event : JsonRpcEvent}

/-- The event of the sanitized tree is returned. -/
theorem unmarshalEvent_of_denotes {allowed : Char → Bool} (follows : serde.FollowsGrammar)
    (within : ∀ char, allowed char = true → lenient char = true)
    (denotes : JsonText.Denotes allowed line tree)
    (read : JsonRpcEvent.ofTree serde.number (tree.map sanitizeChar) = some event) :
    unmarshalEvent serde line = .ok event := by
  rw [unmarshalEvent_eq]
  exact (follows _ event).mpr
    ⟨tree.map sanitizeChar, JsonText.Denotes.map (respects_sanitizeChar within) denotes, read⟩

theorem lenient_of_standard (char : Char) (standard : JsonText.standard char = true) :
    lenient char = true := by
  have high : ' ' ≤ char := of_decide_eq_true standard
  simp only [lenient, Bool.and_eq_true, decide_eq_true_eq]
  constructor
  · rintro rfl
    exact absurd high (by decide)
  · rintro rfl
    exact absurd high (by decide)

/-- The control characters above ASCII's visible ones, which JSON allows. -/
def isHighControl (char : Char) : Bool := 0x7F ≤ char.toNat && char.toNat < 0xA0

theorem sanitizeChar_of_standard {char : Char} (plain : isHighControl char = false)
    (standard : JsonText.standard char = true) : sanitizeChar char = char := by
  have high : (' ').toNat ≤ char.toNat := of_decide_eq_true standard
  have kept : needsSanitization char = false := by
    have above : ¬char.toNat < 0x20 := Nat.not_lt.mpr high
    rw [isHighControl] at plain
    simp only [needsSanitization, isControl, above, plain, decide_false, Bool.false_or,
      Bool.false_and]
  simp only [sanitizeChar, kept, Bool.false_eq_true, if_false]

theorem sanitizeChar_of_lenient {char : Char} (plain : isHighControl char = false)
    (held : lenient char = true) : sanitizeChar char = spaceControl char := by
  rw [isHighControl] at plain
  simp only [lenient, Bool.and_eq_true] at held
  simp only [sanitizeChar, spaceControl, needsSanitization, isControl, plain, Bool.or_false,
    held.1, held.2, Bool.and_true, decide_eq_true_eq]

/-- **Conservativity.** Without the control characters from DEL on, what the library accepts is
read as it is, and control characters that it refuses inside strings are read as spaces, up to
the two that end lines. -/
theorem unmarshal_event_conservative (follows : serde.FollowsGrammar)
    (plain : ∀ char ∈ line, isHighControl char = false) :
    (∀ event, serde.fromStr line = .ok event → unmarshalEvent serde line = .ok event) ∧
      ∀ tree event, JsonText.Denotes lenient line tree →
        JsonRpcEvent.ofTree serde.number (tree.map spaceControl) = some event →
          unmarshalEvent serde line = .ok event := by
  constructor
  · intro event accepted
    obtain ⟨tree, denotes, read⟩ := (follows line event).mp accepted
    have same : tree.map sanitizeChar = tree.map id := by
      apply JsonText.Denotes.map_congr denotes
      intro char member raw
      simp only [JsonText.isRaw, Bool.and_eq_true] at raw
      exact sanitizeChar_of_standard (plain char member) raw.1.1
    apply unmarshalEvent_of_denotes follows lenient_of_standard denotes
    rwa [same, JsonText.Tree.map_id]
  · intro tree event denotes read
    have same : tree.map sanitizeChar = tree.map spaceControl := by
      apply JsonText.Denotes.map_congr denotes
      intro char member raw
      simp only [JsonText.isRaw, Bool.and_eq_true] at raw
      exact sanitizeChar_of_lenient (plain char member) raw.1.1
    apply unmarshalEvent_of_denotes follows (fun _ held => held) denotes
    rwa [same]

namespace Sample

/-- The whole numbers of the library. -/
def wholeNumber (digits : Text) : Option Number :=
  (Text.parseU64 10 digits).map fun value => .posInt (UInt64.ofNat value)

/-- A library that parses whole numbers only. -/
def serdeJson : SerdeJson where
  number := wholeNumber
  fromStr text :=
    match (JsonText.parse JsonText.standard text).bind (JsonRpcEvent.ofTree wholeNumber) with
    | some event => .ok event
    | none => .error (Text.ofString "expected value")

theorem serdeJson_followsGrammar : serdeJson.FollowsGrammar := by
  intro text event
  simp only [serdeJson]
  have found : (JsonText.parse JsonText.standard text).bind (JsonRpcEvent.ofTree wholeNumber) =
      some event ↔ ∃ tree, JsonText.Denotes JsonText.standard text tree ∧
        JsonRpcEvent.ofTree wholeNumber tree = some event := by
    simp only [Option.bind_eq_some_iff, JsonText.parse_eq_some_iff]
  rw [← found]
  cases (JsonText.parse JsonText.standard text).bind (JsonRpcEvent.ofTree wholeNumber) with
  | none =>
      apply iff_of_false
      · intro same
        cases same
      · intro same
        cases same
  | some other => simp only [Except.ok.injEq, Option.some.injEq]

/-- A request to authorize under this name. -/
def authorizeLine (name : Text) : Text :=
  Text.ofString "\x7b\"id\":1,\"method\":\"mining.authorize\",\"params\":[\"" ++ name ++
    Text.ofString "\"]\x7d"

/-- A text of a string without escapes. -/
def rawUnits (text : Text) : List StringUnit := text.map .raw

theorem decodeUnits_rawUnits (text : Text) : decodeUnits (rawUnits text) = some text := by
  induction text with
  | nil => rfl
  | cons char rest ih =>
      change (decodeUnits (rawUnits rest)).map (char :: ·) = _
      rw [ih, Option.map_some]

/-- The event of such a request. -/
def authorizeEvent (name : Text) : JsonRpcEvent where
  id := some (.number (.posInt 1))
  jsonrpc := defaultVersion
  method := Text.ofString "mining.authorize"
  params := [.string name]

def authorizeTree (name : Text) : Tree :=
  .object [(rawUnits (Text.ofString "id"), .number ['1']),
    (rawUnits (Text.ofString "method"), .string (rawUnits (Text.ofString "mining.authorize"))),
    (rawUnits (Text.ofString "params"), .array [.string (rawUnits name)])]

theorem ofTree_authorizeTree (name : Text) :
    JsonRpcEvent.ofTree wholeNumber (authorizeTree name) = some (authorizeEvent name) := by
  have one : toOptional wholeNumber (.number ['1']) = some (some (.number (.posInt 1))) := rfl
  have id : EventFields.read wholeNumber {} (rawUnits (Text.ofString "id"), .number ['1']) =
      some { id := some (some (.number (.posInt 1))) } := by
    simp only [EventFields.read, decodeUnits_rawUnits, Option.bind_eq_bind, Option.bind_some,
      if_true, one, setOnce]
    rfl
  have method (fields : EventFields) (fresh : fields.method = none) :
      EventFields.read wholeNumber fields (rawUnits (Text.ofString "method"),
        .string (rawUnits (Text.ofString "mining.authorize"))) =
      some { fields with method := some (Text.ofString "mining.authorize") } := by
    have first : Text.ofString "method" ≠ Text.ofString "id" := by decide
    have second : Text.ofString "method" ≠ Text.ofString "jsonrpc" := by decide
    simp only [EventFields.read, decodeUnits_rawUnits, Option.bind_eq_bind, Option.bind_some,
      if_neg first, if_neg second, if_true, toText, setOnce, fresh]
    rfl
  have params (fields : EventFields) (fresh : fields.params = none) :
      EventFields.read wholeNumber fields (rawUnits (Text.ofString "params"),
        .array [.string (rawUnits name)]) = some { fields with params := some [.string name] } := by
    have first : Text.ofString "params" ≠ Text.ofString "id" := by decide
    have second : Text.ofString "params" ≠ Text.ofString "jsonrpc" := by decide
    have third : Text.ofString "params" ≠ Text.ofString "method" := by decide
    simp only [EventFields.read, decodeUnits_rawUnits, Option.bind_eq_bind, Option.bind_some,
      if_neg first, if_neg second, if_neg third, if_true, toValues, itemsToJson, toJson,
      Option.map_some, setOnce, fresh]
    rfl
  simp only [JsonRpcEvent.ofTree, authorizeTree, List.foldlM_cons, List.foldlM_nil, id,
    method { id := some (some (.number (.posInt 1))) } rfl, Option.bind_eq_bind, Option.bind_some]
  rw [params _ rfl]
  rfl

theorem fromStr_authorizeLine {name : Text}
    (parsed : JsonText.parse JsonText.standard (authorizeLine name) = some (authorizeTree name)) :
    serdeJson.fromStr (authorizeLine name) = .ok (authorizeEvent name) :=
  (serdeJson_followsGrammar _ _).mpr
    ⟨authorizeTree name, JsonText.parse_eq_some_iff.mp parsed, ofTree_authorizeTree name⟩

theorem plain_of_check {line : Text} (check : line.any isHighControl = false) :
    ∀ char ∈ line, isHighControl char = false := by
  intro char member
  exact Bool.eq_false_iff.mpr (List.any_eq_false.mp check char member)

/-- A tab in a name is read as a space. -/
theorem unmarshal_event_conservative_sample :
    unmarshalEvent serdeJson (authorizeLine ['r', '1']) = .ok (authorizeEvent ['r', '1']) ∧
      unmarshalEvent serdeJson (authorizeLine ['r', '\t', '1']) =
        .ok (authorizeEvent ['r', ' ', '1']) := by
  constructor
  · have plain := @plain_of_check (authorizeLine ['r', '1']) (by decide +kernel)
    exact (unmarshal_event_conservative serdeJson_followsGrammar plain).1 _
      (fromStr_authorizeLine (by decide +kernel))
  · have denotes : JsonText.Denotes lenient (authorizeLine ['r', '\t', '1'])
        (authorizeTree ['r', '\t', '1']) :=
      JsonText.parse_eq_some_iff.mp (by decide +kernel)
    have spaced : (authorizeTree ['r', '\t', '1']).map spaceControl =
        authorizeTree ['r', ' ', '1'] := by decide +kernel
    have plain := @plain_of_check (authorizeLine ['r', '\t', '1']) (by decide +kernel)
    apply (unmarshal_event_conservative serdeJson_followsGrammar plain).2 _ _ denotes
    rw [spaced]
    exact ofTree_authorizeTree _

/-- The name with DEL is read as another name, and the name with a carriage return is refused. -/
theorem sanitizing_changes_and_refuses :
    (serdeJson.fromStr (authorizeLine ['r', '\x7f']) = .ok (authorizeEvent ['r', '\x7f']) ∧
        unmarshalEvent serdeJson (authorizeLine ['r', '\x7f']) ≠
          .ok (authorizeEvent ['r', '\x7f'])) ∧
      ∃ tree, JsonText.Denotes (fun _ => true) (authorizeLine ['r', '\r', '1']) tree ∧
        JsonRpcEvent.ofTree wholeNumber (tree.map spaceControl) =
          some (authorizeEvent ['r', ' ', '1']) ∧
        unmarshalEvent serdeJson (authorizeLine ['r', '\r', '1']) ≠
          .ok (authorizeEvent ['r', ' ', '1']) := by
  have sanitized : sanitizeJsonInput (authorizeLine ['r', '\x7f']) = authorizeLine ['r', ' '] := by
    decide +kernel
  have kept : sanitizeJsonInput (authorizeLine ['r', '\r', '1']) =
      authorizeLine ['r', '\r', '1'] := by decide +kernel
  have unparsed : JsonText.parse JsonText.standard (authorizeLine ['r', '\r', '1']) = none := by
    decide +kernel
  constructor
  · refine ⟨fromStr_authorizeLine (by decide +kernel), fun same => ?_⟩
    rw [unmarshalEvent_eq, sanitized, fromStr_authorizeLine (by decide +kernel)] at same
    cases same
  · have spaced : (authorizeTree ['r', '\r', '1']).map spaceControl =
        authorizeTree ['r', ' ', '1'] := by decide +kernel
    refine ⟨authorizeTree ['r', '\r', '1'], JsonText.parse_eq_some_iff.mp (by decide +kernel), ?_,
      fun same => ?_⟩
    · rw [spaced]
      exact ofTree_authorizeTree _
    · rw [unmarshalEvent_eq, kept] at same
      simp only [serdeJson, unparsed, Option.bind_none, reduceCtorEq] at same

end Sample

end StratumBridge
