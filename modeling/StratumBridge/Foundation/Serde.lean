import StratumBridge.Foundation.Binary64

/-! # Values behind a constructor that checks

A document, as its format hands it to a visitor, and the readers of texts and numbers. A newtype
whose constructor checks its field may still be read from a document by the derived reader, which
only wraps what the reader of the field returns.
-/

namespace Serde

/-- What a format finds in a document. Narrower integers are handed over as the widest ones. -/
inductive Content where
  | bool (value : Bool)
  | unsigned (value : UInt64)
  | signed (value : Int64)
  | single (bits : BitVec 32)
  | double (value : Binary64)
  | char (value : Char)
  | string (text : List Char)
  | bytes (bytes : List UInt8)
  | none
  | some (inner : Content)
  | unit
  | newtype (inner : Content)
  | seq (items : List Content)
  | map (entries : List (Content × Content))

inductive ReadError where
  | invalidType
  | invalidValue
deriving DecidableEq

/-- `String::deserialize`: a text, a character or bytes of UTF-8. -/
def readString : Content → Except ReadError (List Char)
  | .string text => .ok text
  | .char value => .ok [value]
  | .bytes bytes =>
      match String.fromUTF8? ⟨bytes.toArray⟩ with
      | Option.some text => .ok text.toList
      | Option.none => .error .invalidValue
  | _ => .error .invalidType

/-- `f64::deserialize`: any number, cast. -/
def readDouble : Content → Except ReadError Binary64
  | .double value => .ok value
  | .single bits => .ok (.ofSingle bits)
  | .unsigned value => .ok (.ofUnsigned value)
  | .signed value => .ok (.ofSigned value)
  | _ => .error .invalidType

/-! ## Newtypes -/

variable {Raw Value Failure : Type}

/-- A type with one field, its public constructor, and how its field is written and read. -/
structure Newtype (Raw Value Failure : Type) where
  /-- The value around a field, which only the module of the type can build. -/
  wrap : Raw → Value
  raw : Value → Raw
  /-- The public constructor. -/
  new : Raw → Except Failure Value
  read : Content → Except ReadError Raw
  write : Raw → Content
  raw_wrap : ∀ field, raw (wrap field) = field
  new_wraps : ∀ field value, new field = .ok value → value = wrap field
  read_write : ∀ field, read (write field) = .ok field

namespace Newtype

variable (type : Newtype Raw Value Failure)

/-- The derived `deserialize` of a transparent newtype. -/
def deserialize (document : Content) : Except ReadError Value :=
  (type.read document).map type.wrap

/-- The derived `serialize`. -/
def serialize (value : Value) : Content := type.write (type.raw value)

/-- The constructor accepts the field. -/
def Accepts (field : Raw) : Prop := ∃ value, type.new field = .ok value

/-- Values can be had from the constructor, or out of a document. -/
inductive Obtainable : Value → Prop where
  | constructed (field : Raw) (value : Value) (new : type.new field = .ok value) : Obtainable value
  | deserialized (document : Content) (value : Value)
      (read : type.deserialize document = .ok value) : Obtainable value

/-- As far as a document can tell, values are valid: the constructor builds only valid ones, the
document holds only a valid one, and it is read back as itself if the constructor accepts its field,
and refused otherwise. -/
structure Guards (Valid : Value → Prop) (document : Content) : Prop where
  built : ∀ field value, type.new field = .ok value → Valid value
  held : ∀ value, type.deserialize document = .ok value → Valid value
  identity : ∀ field, document = type.write field → type.Accepts field →
    (type.deserialize document).map type.serialize = .ok document
  refused : ∀ field, document = type.write field → ¬type.Accepts field →
    ∃ error, type.deserialize document = .error error

variable {type}

theorem deserialize_write (field : Raw) :
    type.deserialize (type.write field) = .ok (type.wrap field) := by
  rw [deserialize, type.read_write]
  rfl

/-- Writing back what was read of a written field gives the same document. -/
theorem serialize_deserialize_write (field : Raw) :
    (type.deserialize (type.write field)).map type.serialize = .ok (type.write field) := by
  rw [deserialize_write]
  exact congrArg (fun raw => Except.ok (type.write raw)) (type.raw_wrap field)

theorem deserialize_eq_ok_iff {document : Content} {value : Value} :
    type.deserialize document = .ok value ↔
      ∃ field, type.read document = .ok field ∧ type.wrap field = value := by
  unfold deserialize
  cases type.read document with
  | error error => simp [Except.map]
  | ok field => simp [Except.map]

/-- **Guarded documents.** When the constructor accepts exactly the valid fields, a document keeps
values valid if and only if the field it holds, if any, is one the constructor accepts. -/
theorem guards_iff {Valid : Value → Prop}
    (accepts_iff : ∀ field, type.Accepts field ↔ Valid (type.wrap field)) (document : Content) :
    type.Guards Valid document ↔
      ∀ field, type.read document = .ok field → type.Accepts field := by
  constructor
  · intro guards field read
    rw [accepts_iff]
    exact guards.held _ (deserialize_eq_ok_iff.mpr ⟨field, read, rfl⟩)
  · intro accepted
    constructor
    · intro field value new
      rw [type.new_wraps field value new, ← accepts_iff]
      exact ⟨value, new⟩
    · intro value read
      obtain ⟨field, holds, rfl⟩ := deserialize_eq_ok_iff.mp read
      exact (accepts_iff field).mp (accepted field holds)
    · rintro field rfl -
      exact serialize_deserialize_write field
    · rintro field rfl refused
      exact absurd (accepted field (type.read_write field)) refused

/-- All values are valid exactly if all documents keep them so. -/
theorem forall_guards_iff {Valid : Value → Prop}
    (accepts_iff : ∀ field, type.Accepts field ↔ Valid (type.wrap field)) :
    (∀ document, type.Guards Valid document) ↔ ∀ value, type.Obtainable value → Valid value := by
  constructor
  · intro guards value obtained
    cases obtained with
    | constructed field _ new => exact (guards (type.write field)).built field value new
    | deserialized document _ read => exact (guards document).held value read
  · intro valid document
    rw [guards_iff accepts_iff]
    intro field read
    rw [accepts_iff]
    exact valid _ (.deserialized document _ (deserialize_eq_ok_iff.mpr ⟨field, read, rfl⟩))

end Newtype

end Serde
