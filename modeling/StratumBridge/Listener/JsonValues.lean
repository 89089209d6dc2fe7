import StratumBridge.Foundation.JsonWriter
import StratumBridge.Listener.UnmarshalEvent

/-! # Values as text

Values are written as documents without blanks, and strings with escapes where JSON asks for
them. A value whose objects are in order is read back as it was; every value that was read has
its objects in order.
-/

namespace StratumBridge

open JsonText (Tree StringUnit)

/-! ## Strings -/

/-- A lowercase hex digit. -/
def lowerHexDigit (value : Nat) : Char := Nat.digitChar value

/-- How a character of a string is written. -/
def escapeChar (char : Char) : StringUnit :=
  if char = '"' then .escape '"'
  else if char = '\\' then .escape '\\'
  else if char = '\x08' then .escape 'b'
  else if char = '\t' then .escape 't'
  else if char = '\n' then .escape 'n'
  else if char = '\x0c' then .escape 'f'
  else if char = '\r' then .escape 'r'
  else if char.toNat < 0x20 then
    .unicode '0' '0' (lowerHexDigit (char.toNat / 16)) (lowerHexDigit (char.toNat % 16))
  else .raw char

def escapeText (text : Text) : List StringUnit := text.map escapeChar

theorem readDigits_control : ∀ code < 32, Text.readDigits 16
    ['0', '0', lowerHexDigit (code / 16), lowerHexDigit (code % 16)] 0 = some code := by
  decide

theorem isHexDigit_control : ∀ code < 32, JsonText.isHexDigit (lowerHexDigit (code / 16)) = true ∧
    JsonText.isHexDigit (lowerHexDigit (code % 16)) = true := by
  decide

/-- A written character is read back. -/
theorem decodeUnits_escapeChar (char : Char) (rest : List StringUnit) :
    decodeUnits (escapeChar char :: rest) = (decodeUnits rest).map (char :: ·) := by
  unfold escapeChar
  split_ifs with quote backslash backspace tab newline formFeed return_ control
  · subst quote; rfl
  · subst backslash; rfl
  · subst backspace; rfl
  · subst tab; rfl
  · subst newline; rfl
  · subst formFeed; rfl
  · subst return_; rfl
  · have low : ¬(0xD800 ≤ char.toNat ∧ char.toNat < 0xDC00) := by omega
    have high : ¬(0xDC00 ≤ char.toNat ∧ char.toNat < 0xE000) := by omega
    simp only [decodeUnits, readDigits_control char.toNat control, Option.bind_eq_bind,
      Option.bind_some, if_neg low, if_neg high, Char.ofNat_toNat]
  · rfl

theorem decodeUnits_escapeText (text : Text) : decodeUnits (escapeText text) = some text := by
  induction text with
  | nil => rfl
  | cons char rest ih =>
      rw [escapeText, List.map_cons, decodeUnits_escapeChar]
      exact congrArg (Option.map (char :: ·)) ih

theorem escapeText_isValid (text : Text) :
    (escapeText text).all (StringUnit.isValid JsonText.standard) = true := by
  rw [escapeText, List.all_map, List.all_eq_true]
  intro char _
  change (escapeChar char).isValid JsonText.standard = true
  unfold escapeChar
  split_ifs with quote backslash backspace tab newline formFeed return_ control
  · rfl
  · rfl
  · rfl
  · rfl
  · rfl
  · rfl
  · rfl
  · obtain ⟨first, second⟩ := isHexDigit_control char.toNat control
    simp only [StringUnit.isValid, first, second, Bool.and_true]
    rfl
  · have standard : JsonText.standard char = true := by
      rw [JsonText.standard, decide_eq_true_eq, Char.le_def]
      change (32 : UInt32) ≤ char.val
      have := control
      rw [UInt32.le_iff_toNat_le]
      change 32 ≤ char.toNat
      omega
    simp only [StringUnit.isValid, JsonText.isRaw, standard, Bool.true_and, Bool.and_eq_true,
      decide_eq_true_eq]
    exact ⟨quote, backslash⟩

/-! ## Values -/

/-- How the library writes and reads numbers. -/
structure NumberFormat where
  spell : Number → Text
  read : Text → Option Number
  wellFormed : ∀ number, JsonText.isNumber (spell number) = true

variable {format : NumberFormat}

mutual

def Json.toTree (format : NumberFormat) : Json → Tree
  | .null => .word (Text.ofString "null")
  | .bool true => .word (Text.ofString "true")
  | .bool false => .word (Text.ofString "false")
  | .number value => .number (format.spell value)
  | .string text => .string (escapeText text)
  | .array values => .array (valuesToTrees format values)
  | .object entries => .object (entriesToMembers format entries)

def valuesToTrees (format : NumberFormat) : List Json → List Tree
  | [] => []
  | value :: rest => value.toTree format :: valuesToTrees format rest

def entriesToMembers (format : NumberFormat) : List (Text × Json) → List (List StringUnit × Tree)
  | [] => []
  | (name, value) :: rest => (escapeText name, value.toTree format) :: entriesToMembers format rest

end

mutual

/-- Every value is written as well-formed tokens. -/
theorem Json.toTree_isValid (value : Json) : (value.toTree format).isValid JsonText.standard = true := by
  match value with
  | .null => rfl
  | .bool true => rfl
  | .bool false => rfl
  | .number number => exact (Bool.and_true _).trans (format.wellFormed number)
  | .string text => exact (Bool.and_true _).trans (escapeText_isValid text)
  | .array values => exact (JsonText.array_isValid _).trans (valuesToTrees_isValid values)
  | .object entries => exact (JsonText.object_isValid _).trans (entriesToMembers_isValid entries)

theorem valuesToTrees_isValid (values : List Json) :
    (valuesToTrees format values).all (Tree.isValid JsonText.standard) = true := by
  match values with
  | [] => rfl
  | value :: rest =>
      exact (Bool.and_eq_true _ _).mpr ⟨value.toTree_isValid, valuesToTrees_isValid rest⟩

theorem entriesToMembers_isValid (entries : List (Text × Json)) :
    ((entriesToMembers format entries).all fun member =>
      member.1.all (StringUnit.isValid JsonText.standard) &&
        member.2.isValid JsonText.standard) = true := by
  match entries with
  | [] => rfl
  | (name, value) :: rest =>
      exact (Bool.and_eq_true _ _).mpr ⟨(Bool.and_eq_true _ _).mpr
        ⟨escapeText_isValid name, value.toTree_isValid⟩, entriesToMembers_isValid rest⟩

end

/-- The names of the entries ascend. -/
def Ascending (entries : List (Text × Json)) : Prop :=
  (entries.map Prod.fst).Pairwise (· < ·)

mutual

/-- The value is read back as it was written: its numbers are, and its objects are in order. -/
def Json.Kept (format : NumberFormat) : Json → Prop
  | .number value => format.read (format.spell value) = some value
  | .array values => ValuesKept format values
  | .object entries => Ascending entries ∧ EntriesKept format entries
  | _ => True

def ValuesKept (format : NumberFormat) : List Json → Prop
  | [] => True
  | value :: rest => value.Kept format ∧ ValuesKept format rest

def EntriesKept (format : NumberFormat) : List (Text × Json) → Prop
  | [] => True
  | (_, value) :: rest => value.Kept format ∧ EntriesKept format rest

end

/-- A name above all others comes last. -/
theorem insertEntry_last (name : Text) (value : Json) {held : List (Text × Json)}
    (above : ∀ entry ∈ held, entry.1 < name) :
    insertEntry name value held = held ++ [(name, value)] := by
  induction held with
  | nil => rfl
  | cons entry rest ih =>
      obtain ⟨other, kept⟩ := entry
      have below : other < name := above (other, kept) List.mem_cons_self
      rw [insertEntry, if_neg (List.lt_asymm below),
        if_neg fun same => List.lt_irrefl _ (same ▸ below),
        ih fun later member => above later (List.mem_cons_of_mem _ member), List.cons_append]

mutual

/-- A kept value is read back. -/
theorem Json.toJson_toTree (value : Json) (kept : value.Kept format) :
    toJson format.read (value.toTree format) = some value := by
  match value with
  | .null => rfl
  | .bool true => rfl
  | .bool false => rfl
  | .number number => exact congrArg (Option.map Json.number) kept
  | .string text => exact congrArg (Option.map Json.string) (decodeUnits_escapeText text)
  | .array values => exact congrArg (Option.map Json.array) (itemsToJson_valuesToTrees values kept)
  | .object entries =>
      exact congrArg (Option.map Json.object)
        (membersToJson_entriesToMembers entries [] kept.1 kept.2)

theorem itemsToJson_valuesToTrees (values : List Json) (kept : ValuesKept format values) :
    itemsToJson format.read (valuesToTrees format values) = some values := by
  match values with
  | [] => rfl
  | value :: rest =>
      simp only [valuesToTrees, itemsToJson, value.toJson_toTree kept.1,
        itemsToJson_valuesToTrees rest kept.2, Option.bind_eq_bind, Option.bind_some]
      rfl

theorem membersToJson_entriesToMembers (entries held : List (Text × Json))
    (ascending : Ascending (held ++ entries)) (kept : EntriesKept format entries) :
    membersToJson format.read (entriesToMembers format entries) held = some (held ++ entries) := by
  match entries with
  | [] => rw [List.append_nil]; rfl
  | (name, value) :: rest =>
      have above : ∀ entry ∈ held, entry.1 < name := by
        intro entry member
        rw [Ascending, List.map_append, List.pairwise_append] at ascending
        exact ascending.2.2 entry.1 (List.mem_map_of_mem member) name List.mem_cons_self
      have grouped : held ++ [(name, value)] ++ rest = held ++ (name, value) :: rest := by
        rw [List.append_assoc, List.singleton_append]
      have later := membersToJson_entriesToMembers rest (held ++ [(name, value)])
        (grouped ▸ ascending) kept.2
      simp only [entriesToMembers, membersToJson, decodeUnits_escapeText,
        value.toJson_toTree kept.1, Option.bind_eq_bind, Option.bind_some,
        insertEntry_last name value above, later, grouped]

end

/-! ## Values that were read -/

theorem insertEntry_names (name : Text) (value : Json) (held : List (Text × Json)) (bound : Text)
    (above : ∀ entry ∈ held, bound < entry.1) (first : bound < name) :
    ∀ entry ∈ insertEntry name value held, bound < entry.1 := by
  induction held with
  | nil =>
      intro entry member
      obtain rfl := List.mem_singleton.mp member
      exact first
  | cons entry rest ih =>
      obtain ⟨other, kept⟩ := entry
      have later := ih fun entry member => above entry (List.mem_cons_of_mem _ member)
      rw [insertEntry]
      split_ifs with before same
      · intro entry member
        rcases List.mem_cons.mp member with rfl | member
        · exact first
        · exact above entry member
      · intro entry member
        rcases List.mem_cons.mp member with rfl | member
        · exact first
        · exact above entry (List.mem_cons_of_mem _ member)
      · intro entry member
        rcases List.mem_cons.mp member with rfl | member
        · exact above _ List.mem_cons_self
        · exact later entry member

theorem ascending_cons {entry : Text × Json} {rest : List (Text × Json)} :
    Ascending (entry :: rest) ↔ (∀ later ∈ rest, entry.1 < later.1) ∧ Ascending rest := by
  rw [Ascending, List.map_cons, List.pairwise_cons, Ascending]
  refine and_congr_left fun _ => ⟨fun above later member => ?_, fun above name member => ?_⟩
  · exact above later.1 (List.mem_map_of_mem member)
  · obtain ⟨later, inRest, rfl⟩ := List.mem_map.mp member
    exact above later inRest

/-- Entries stay in order when one is added. -/
theorem insertEntry_ascending (name : Text) (value : Json) {held : List (Text × Json)}
    (ascending : Ascending held) : Ascending (insertEntry name value held) := by
  induction held with
  | nil => exact List.pairwise_singleton ..
  | cons entry rest ih =>
      obtain ⟨other, kept⟩ := entry
      obtain ⟨above, later⟩ := ascending_cons.mp ascending
      rw [insertEntry]
      split_ifs with before same
      · refine ascending_cons.mpr ⟨fun entry member => ?_, ascending⟩
        rcases List.mem_cons.mp member with rfl | member
        · exact before
        · exact List.lt_trans before (above entry member)
      · subst same
        exact ascending_cons.mpr ⟨above, later⟩
      · refine ascending_cons.mpr ⟨?_, ih later⟩
        have after : other < name := by
          rcases List.le_iff_lt_or_eq.mp (List.not_lt.mp before) with less | equal
          · exact less
          · exact absurd equal.symm same
        exact insertEntry_names name value rest other above after

theorem insertEntry_kept {name : Text} {value : Json} {held : List (Text × Json)}
    (keeps : value.Kept format) (kept : EntriesKept format held) :
    EntriesKept format (insertEntry name value held) := by
  induction held with
  | nil => exact ⟨keeps, trivial⟩
  | cons entry rest ih =>
      obtain ⟨other, old⟩ := entry
      rw [insertEntry]
      split_ifs
      · exact ⟨keeps, kept⟩
      · exact ⟨keeps, kept.2⟩
      · exact ⟨kept.1, ih kept.2⟩

/-- What the library reads as a number, it reads back after writing it. -/
def NumberFormat.Stable (format : NumberFormat) : Prop :=
  ∀ digits number, format.read digits = some number →
    format.read (format.spell number) = some number

mutual

/-- **What was read is written and read back unchanged.** -/
theorem kept_of_toJson (stable : format.Stable) (tree : Tree) {value : Json} (read : toJson format.read tree = some value) :
    value.Kept format := by
  match tree with
  | .word letters =>
      unfold toJson at read
      split_ifs at read
      all_goals
        cases read
        trivial
  | .number digits =>
      obtain ⟨number, found, rfl⟩ := Option.map_eq_some_iff.mp read
      exact stable digits number found
  | .string units =>
      obtain ⟨text, -, rfl⟩ := Option.map_eq_some_iff.mp read
      trivial
  | .array items =>
      obtain ⟨values, found, rfl⟩ := Option.map_eq_some_iff.mp read
      exact valuesKept_of_itemsToJson stable items found
  | .object members =>
      obtain ⟨entries, found, rfl⟩ := Option.map_eq_some_iff.mp read
      have nothing : Ascending [] := List.Pairwise.nil
      exact entriesKept_of_membersToJson stable members nothing trivial found

theorem valuesKept_of_itemsToJson (stable : format.Stable) (items : List Tree) {values : List Json}
    (read : itemsToJson format.read items = some values) : ValuesKept format values := by
  match items with
  | [] =>
      cases read
      trivial
  | item :: rest =>
      obtain ⟨value, first, others⟩ := Option.bind_eq_some_iff.mp read
      obtain ⟨values, following, same⟩ := Option.bind_eq_some_iff.mp others
      cases same
      exact ⟨kept_of_toJson stable item first, valuesKept_of_itemsToJson stable rest following⟩

theorem entriesKept_of_membersToJson (stable : format.Stable)
    (members : List (List StringUnit × Tree)) {held entries : List (Text × Json)} (ascending : Ascending held)
    (kept : EntriesKept format held)
    (read : membersToJson format.read members held = some entries) :
    Ascending entries ∧ EntriesKept format entries := by
  match members with
  | [] =>
      cases read
      exact ⟨ascending, kept⟩
  | (name, item) :: rest =>
      obtain ⟨name, -, named⟩ := Option.bind_eq_some_iff.mp read
      obtain ⟨value, found, following⟩ := Option.bind_eq_some_iff.mp named
      exact entriesKept_of_membersToJson stable rest (insertEntry_ascending name value ascending)
        (insertEntry_kept (kept_of_toJson stable item found) kept) following

end

end StratumBridge
