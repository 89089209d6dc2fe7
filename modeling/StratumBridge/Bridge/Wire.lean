import StratumBridge.Bridge.JobFormats
import StratumBridge.Bridge.Publication
import StratumBridge.Listener.Outgoing

/-! # Jobs on the wire

A miner knows a job by the line of its notification. Whatever else is sent in between, in
whatever format the job is published, and wherever the bytes are cut, the miner finds the job ids,
the hashes and the timestamps of the jobs that were sent.
-/

namespace StratumBridge

open JsonText (Tree StringUnit)

/-! ## Messages as lines -/

/-- How the values that a message quotes or computes are written. -/
structure Spelling where
  /-- An id of a request. -/
  id : Value → Json
  /-- `difficulty_to_json`. -/
  difficulty : ℚ → Json
  /-- `Number::from_f64`. -/
  float : ℚ → Json

def Json.ofNat (value : Nat) : Json := .number (.posInt (UInt64.ofNat value))

/-- The parameters behind the job id. -/
def JobParams.values : JobParams → List Json
  | .iceriver data | .large data => [.string data]
  | .legacy words timestamp => [.array (words.map Json.ofNat), Json.ofNat timestamp]

namespace Message

def notifyMethod : Text := Text.ofString "mining.notify"

/-- A request of the bridge; `minimal` is the form of `send_notification`. -/
def request (id : Option Json) (method : Text) (params : List Json) (minimal : Bool) : Outgoing :=
  if minimal then .notification method params else .event ⟨id, defaultVersion, method, params⟩

variable (spelling : Spelling)

/-- The line of a message. -/
def outgoing : Message → Outgoing
  | .reply id result => .response (.success (id.map spelling.id) (.bool result))
  | .error id code message => .response (.ofError (id.map spelling.id) code message none)
  | .setDifficulty diff =>
      request none (Text.ofString "mining.set_difficulty") [spelling.difficulty diff] false
  | .notify jobId params minimal =>
      request (some (Json.ofNat jobId)) notifyMethod
        (.string (Text.decimal jobId) :: params.values) minimal
  | .setExtranonce extranonce size minimal =>
      request none (Text.ofString "mining.set_extranonce")
        (.string extranonce :: (size.map Json.ofNat).toList) minimal
  | .subscribed id none =>
      .response (.success (id.map spelling.id)
        (.array [.bool true, .string (Text.ofString "EthereumStratum/1.0.0")]))
  | .subscribed id (some (extranonce, size)) =>
      .response (.success (id.map spelling.id)
        (.array [.null, .string extranonce, Json.ofNat size]))
  | .setExtranonceCommon extranonce size =>
      .v1Notification (Text.ofString "set_extranonce") [.string extranonce, Json.ofNat size]
  | .setDifficultyCommon diff =>
      .v1Notification (Text.ofString "mining.set_difficulty") [spelling.float diff]

end Message

/-! ## What a miner makes of a line -/

/-- The hash whose bytes are those of the words, each one little-endian. -/
def hashOfWords (words : List Nat) : Hash :=
  BitVec.ofNat 256 (Bytes.toNatBE (words.flatMap fun word =>
    JobFormat.toLeBytes (BitVec.ofNat 64 word)))

/-- The header that the data of a job describe. -/
def JobParams.header : JobParams → Option (Hash × BitVec 64)
  | .iceriver data | .large data => JobFormat.decodeJobParams data
  | .legacy words timestamp => some (hashOfWords words, BitVec.ofNat 64 timestamp)

/-- The id and the header of a job, for a message that announces one. -/
def Message.job : Message → Option (Text × Hash × BitVec 64)
  | .notify jobId params _ => params.header.map (Text.decimal jobId, ·)
  | _ => none

def readWord : Json → Option Nat
  | .number (.posInt word) => some word.toNat
  | _ => none

/-- Data as text are one string; else they are the words and the timestamp. -/
def readJobParams : List Json → Option (Text × Hash × BitVec 64)
  | [.string jobId, .string data] => (JobFormat.decodeJobParams data).map (jobId, ·)
  | [.string jobId, .array words, .number (.posInt timestamp)] => do
      let words ← words.mapM readWord
      return (jobId, hashOfWords words, BitVec.ofNat 64 timestamp.toNat)
  | _ => none

/-- The job that a line announces. -/
def readJob (format : NumberFormat) (line : Text) : Option (Text × Hash × BitVec 64) := do
  let tree ← JsonText.parse JsonText.standard line
  let event ← JsonRpcEvent.ofTree format.read tree
  if event.method = Message.notifyMethod then readJobParams event.params else none

/-! ## Messages can be read -/

section Readable

variable {format : NumberFormat} {spelling : Spelling}

/-- Whole numbers and the values of the spelling are read as they are written, and an id is not
null. -/
structure Spelling.Faithful (format : NumberFormat) (spelling : Spelling) : Prop where
  whole : ∀ value, format.read (format.spell (.posInt value)) = some (.posInt value)
  id : ∀ value, (spelling.id value).isNull = false ∧ (spelling.id value).Kept format
  difficulty : ∀ diff, (spelling.difficulty diff).Kept format
  float : ∀ diff, (spelling.float diff).Kept format

variable (faithful : spelling.Faithful format)

include faithful

theorem kept_ofNat (value : Nat) : (Json.ofNat value).Kept format := faithful.whole _

theorem kept_code (code : Nat) : (Json.number (.ofInt code)).Kept format := by
  rw [Number.ofInt, if_pos (Int.natCast_nonneg code)]
  exact faithful.whole _

theorem valuesKept_words (words : List Nat) : ValuesKept format (words.map Json.ofNat) := by
  induction words with
  | nil => trivial
  | cons word rest ih => exact ⟨kept_ofNat faithful word, ih⟩

theorem valuesKept_jobParams (params : JobParams) : ValuesKept format params.values := by
  cases params with
  | iceriver data => exact ⟨trivial, trivial⟩
  | large data => exact ⟨trivial, trivial⟩
  | legacy words timestamp =>
      exact ⟨valuesKept_words faithful words, kept_ofNat faithful timestamp, trivial⟩

theorem readable_id (id : Option Value) :
    ∀ value ∈ id.map spelling.id, value.isNull = false ∧ value.Kept format := by
  rintro value found
  obtain ⟨quoted, -, rfl⟩ := Option.map_eq_some_iff.mp found
  exact faithful.id quoted

omit faithful in
theorem readable_request {id : Option Json} (method : Text) {params : List Json} (minimal : Bool)
    (present : ∀ value ∈ id, value.isNull = false ∧ value.Kept format)
    (kept : ValuesKept format params) :
    (Message.request id method params minimal).Readable format := by
  cases minimal with
  | true => exact kept
  | false => exact ⟨present, kept⟩

theorem readable_success (id : Option Value) {result : Json} (present : result.isNull = false)
    (kept : result.Kept format) :
    (Outgoing.response (.success (id.map spelling.id) result)).Readable format := by
  refine ⟨readable_id faithful id, ?_, fun values found => nomatch found⟩
  rintro value ⟨⟩
  exact ⟨present, kept⟩

/-- Every message of the bridge can be read. -/
theorem readable_outgoing (message : Message) : (message.outgoing spelling).Readable format := by
  have noId : ∀ value ∈ (none : Option Json), value.isNull = false ∧ value.Kept format :=
    fun value found => nomatch found
  cases message with
  | reply id result => exact readable_success faithful id rfl trivial
  | error id code text =>
      refine ⟨readable_id faithful id, (fun value found => nomatch found), ?_⟩
      rintro values ⟨⟩
      exact ⟨kept_code faithful code, trivial, trivial, trivial⟩
  | setDifficulty diff =>
      exact readable_request _ _ noId ⟨faithful.difficulty diff, trivial⟩
  | notify jobId params minimal =>
      refine readable_request _ _ ?_ ⟨trivial, valuesKept_jobParams faithful params⟩
      rintro value ⟨⟩
      exact ⟨rfl, kept_ofNat faithful jobId⟩
  | setExtranonce extranonce size minimal =>
      cases size with
      | none => exact readable_request _ _ noId ⟨trivial, trivial⟩
      | some size => exact readable_request _ _ noId ⟨trivial, kept_ofNat faithful size, trivial⟩
  | subscribed id embedded =>
      cases embedded with
      | none => exact readable_success faithful id rfl ⟨trivial, trivial, trivial⟩
      | some embedded =>
          exact readable_success faithful id rfl
            ⟨trivial, trivial, kept_ofNat faithful embedded.2, trivial⟩
  | setExtranonceCommon extranonce size =>
      exact ⟨trivial, kept_ofNat faithful size, trivial⟩
  | setDifficultyCommon diff => exact ⟨faithful.float diff, trivial⟩

end Readable

/-! ## Jobs are read -/

section Jobs

variable {format : NumberFormat} {spelling : Spelling}

/-- Members of other names leave the method unset. -/
theorem method_of_foldlM {entries : List (Text × Json)} {fields after : EventFields}
    (others : ∀ entry ∈ entries, entry.1 ≠ Text.ofString "method")
    (done : (entriesToMembers format entries).foldlM (EventFields.read format.read) fields =
      some after) : after.method = fields.method := by
  induction entries generalizing fields with
  | nil =>
      obtain rfl := Option.some.inj done
      rfl
  | cons entry rest ih =>
      obtain ⟨next, first, later⟩ := Option.bind_eq_some_iff.mp done
      rw [ih (fun entry member => others entry (List.mem_cons_of_mem _ member)) later]
      unfold EventFields.read at first
      simp only [decodeUnits_escapeText, Option.bind_eq_bind, Option.bind_some,
        if_neg (others entry List.mem_cons_self)] at first
      split_ifs at first
      · obtain ⟨id, -, same⟩ := Option.bind_eq_some_iff.mp first
        obtain rfl := Option.some.inj same
        rfl
      · obtain ⟨version, -, same⟩ := Option.bind_eq_some_iff.mp first
        obtain rfl := Option.some.inj same
        rfl
      · obtain ⟨params, -, same⟩ := Option.bind_eq_some_iff.mp first
        obtain rfl := Option.some.inj same
        rfl
      · obtain rfl := Option.some.inj first
        rfl

/-- An answer is not a request. -/
theorem event_of_response (answer : JsonRpcResponse) :
    JsonRpcEvent.ofTree format.read ((Outgoing.response answer).tree format) = none := by
  have others : ∀ entry ∈ answer.members, entry.1 ≠ Text.ofString "method" := by
    have names : ∀ entry ∈ answer.members,
        entry.1 ∈ [Text.ofString "id", Text.ofString "result", Text.ofString "error"] := by
      obtain ⟨id, result, error⟩ := answer
      cases id <;> cases result <;> cases error <;> simp [JsonRpcResponse.members]
    intro entry member same
    exact absurd (same ▸ names entry member) (by decide)
  simp only [Outgoing.tree, Outgoing.members, JsonRpcEvent.ofTree, Option.bind_eq_bind,
    Option.bind_eq_none_iff]
  intro fields found method given
  rw [method_of_foldlM others found] at given
  exact (Option.some_ne_none _ given.symm).elim

/-- The event of a message that is read. -/
theorem readJob_text {message : Outgoing} (readable : message.Readable format) :
    readJob format (message.text format) = message.asEvent.bind fun event =>
      if event.method = Message.notifyMethod then readJobParams event.params else none := by
  have parsed := JsonText.parse_write (@Outgoing.tree_isValid format message)
  rw [readJob, Outgoing.text, parsed, Option.bind_eq_bind, Option.bind_some]
  cases message with
  | response answer => rw [event_of_response]; rfl
  | event request => rw [event_ofTree readable]; rfl
  | notification method params => rw [(notification_ofTree method readable).1]; rfl
  | v1Notification method params => rw [(notification_ofTree method readable).2]; rfl

theorem mapM_readWord (words : List Nat) :
    (words.map Json.ofNat).mapM readWord = some (words.map fun word => word % 2 ^ 64) := by
  induction words with
  | nil => rfl
  | cons word rest ih =>
      rw [List.map_cons, List.mapM_cons, ih]
      rfl

theorem hashOfWords_mod (words : List Nat) :
    hashOfWords (words.map fun word => word % 2 ^ 64) = hashOfWords words := by
  rw [hashOfWords, List.flatMap_map, hashOfWords]
  have same : ∀ word : Nat, BitVec.ofNat 64 (word % 2 ^ 64) = BitVec.ofNat 64 word := by
    intro word
    apply BitVec.eq_of_toNat_eq
    rw [BitVec.toNat_ofNat, BitVec.toNat_ofNat, Nat.mod_mod]
  simp only [same]

theorem readJobParams_values (jobId : Text) (params : JobParams) :
    readJobParams (.string jobId :: params.values) = params.header.map (jobId, ·) := by
  cases params with
  | iceriver data => rfl
  | large data => rfl
  | legacy words timestamp =>
      have stamp : BitVec.ofNat 64 (UInt64.ofNat timestamp).toNat = BitVec.ofNat 64 timestamp := by
        apply BitVec.eq_of_toNat_eq
        rw [BitVec.toNat_ofNat, BitVec.toNat_ofNat, UInt64.toNat_ofNat', Nat.mod_mod]
      simp only [JobParams.values, Json.ofNat, readJobParams]
      rw [mapM_readWord, Option.bind_eq_bind, Option.bind_some, hashOfWords_mod, stamp]
      rfl

theorem asEvent_request (id : Option Json) (method : Text) (params : List Json) (minimal : Bool) :
    ∃ shown, (Message.request id method params minimal).asEvent =
      some ⟨shown, defaultVersion, method, params⟩ := by
  cases minimal with
  | true => exact ⟨none, rfl⟩
  | false => exact ⟨id, rfl⟩

/-- The line of a message announces the job of the message. -/
theorem readJob_outgoing (faithful : spelling.Faithful format) (message : Message) :
    readJob format ((message.outgoing spelling).text format) = message.job := by
  rw [readJob_text (readable_outgoing faithful message)]
  have silent : ∀ id method params minimal, method ≠ Message.notifyMethod →
      ((Message.request id method params minimal).asEvent.bind fun event =>
        if event.method = Message.notifyMethod then readJobParams event.params else none) =
        none := by
    intro id method params minimal other
    obtain ⟨shown, event⟩ := asEvent_request id method params minimal
    rw [event, Option.bind_some, if_neg other]
  cases message with
  | reply id result => rfl
  | error id code text => rfl
  | setDifficulty diff => exact silent _ _ _ _ (by decide)
  | notify jobId params minimal =>
      obtain ⟨shown, event⟩ := asEvent_request (some (Json.ofNat jobId)) Message.notifyMethod
        (.string (Text.decimal jobId) :: params.values) minimal
      rw [Message.outgoing, event, Option.bind_some, if_pos rfl, readJobParams_values]
      rfl
  | setExtranonce extranonce size minimal => exact silent _ _ _ _ (by decide)
  | subscribed id embedded =>
      cases embedded with
      | none => rfl
      | some embedded => rfl
  | setExtranonceCommon extranonce size =>
      have other : Text.ofString "set_extranonce" ≠ Message.notifyMethod := by decide
      simp only [Message.outgoing, Outgoing.asEvent, Option.bind_some, if_neg other, Message.job]
  | setDifficultyCommon diff =>
      have other : Text.ofString "mining.set_difficulty" ≠ Message.notifyMethod := by decide
      simp only [Message.outgoing, Outgoing.asEvent, Option.bind_some, if_neg other, Message.job]

/-! ## What the formats hold -/

/-- The text of hash and timestamp is read back. -/
theorem decode_text (prePowHash : Hash) (timestamp : BitVec 64) :
    JobFormat.decodeJobParams
        (Bytes.hexEncode (hashBytes prePowHash ++ JobFormat.toLeBytes timestamp)) =
      some (prePowHash, timestamp) := by
  have sized := JobFormat.length_hashBytes prePowHash
  have small : prePowHash.toNat < 256 ^ 32 := prePowHash.isLt
  have hash : BitVec.ofNat 256 (Bytes.toNatBE (hashBytes prePowHash)) = prePowHash := by
    rw [JobFormat.hashBytes_eq, Bytes.toNatBE_ofNatBE, Nat.mod_eq_of_lt small,
      BitVec.ofNat_toNat, BitVec.setWidth_eq]
  rw [JobFormat.decodeJobParams, Bytes.hexDecode_hexEncode, Option.bind_eq_bind, Option.bind_some,
    if_pos (by rw [List.length_append, sized, JobFormat.length_toLeBytes])]
  rw [← sized, List.take_left, List.drop_left, hash, JobFormat.fromLeBytes_toLeBytes]
  rfl

/-- The two texts of a job are those of its hash and its timestamp. -/
theorem large_eq_iceriver (prePowHash : Hash) (timestamp : BitVec 64) :
    generateLargeJobParams prePowHash timestamp.toNat =
      generateIceriverJobParams prePowHash timestamp.toNat := by
  rw [generateLargeJobParams, JobFormat.ofNat_toNat, JobFormat.swapBytes_eq,
    List.flatMap_append, List.flatMap_map, generateIceriverJobParams, JobFormat.ofHash_eq,
    JobFormat.hashBytes_eq_flatMap, JobFormat.ofNat_toNat, JobFormat.swapBytes_eq]
  simp only [JobFormat.hex16_eq, hashWords, List.flatMap_cons, List.flatMap_nil,
    List.append_nil, Bytes.hexEncode_append, List.append_assoc]

/-- Whatever the format is, the job data describe the hash and the timestamp. -/
theorem header_jobParams (app : Text) (useBigJob : Bool) (prePowHash : Hash)
    (timestamp : BitVec 64) :
    (jobParams app useBigJob prePowHash timestamp.toNat).header =
      some (prePowHash, timestamp) := by
  have text : JobFormat.decodeJobParams
      (generateIceriverJobParams prePowHash timestamp.toNat) = some (prePowHash, timestamp) := by
    rw [JobFormat.published_iceriver, JobFormat.ofNat_toNat, JobFormat.generateIceriverJobParams,
      ← Bytes.hexEncode_append, decode_text]
  unfold jobParams
  split_ifs
  · exact text
  · exact (congrArg JobFormat.decodeJobParams (large_eq_iceriver prePowHash timestamp)).trans text
  · have small : prePowHash.toNat < 256 ^ 32 := prePowHash.isLt
    have bytes : (generateJobHeader prePowHash).flatMap
        (fun word => JobFormat.toLeBytes (BitVec.ofNat 64 word)) = hashBytes prePowHash := by
      rw [JobFormat.published_legacy, List.flatMap_map]
      simp only [JobFormat.ofNat_toNat]
      exact JobFormat.flatMap_readWords (fun bytes eight => JobFormat.toLeBytes_fromLeBytes eight)
        (JobFormat.length_hashBytes prePowHash)
    rw [JobParams.header, hashOfWords, bytes, JobFormat.hashBytes_eq, Bytes.toNatBE_ofNatBE,
      Nat.mod_eq_of_lt small, BitVec.ofNat_toNat, BitVec.setWidth_eq, JobFormat.ofNat_toNat]

end Jobs

namespace Sample

/-- Ids that are texts, whole numbers or truth values, and whole difficulties. -/
def wholeSpelling : Spelling where
  id
    | .string text => .string text
    | .number (some value) => Json.ofNat value
    | .bool value => .bool value
    | _ => .bool false
  difficulty diff := Json.ofNat diff.floor.toNat
  float diff := Json.ofNat diff.floor.toNat

theorem wholeSpelling_faithful : wholeSpelling.Faithful wholeNumbers where
  whole := wholeNumber_decimal
  id value := by
    rcases value with text | value | value | _
    · exact ⟨rfl, trivial⟩
    · cases value with
      | none => exact ⟨rfl, trivial⟩
      | some value => exact ⟨rfl, wholeNumber_decimal _⟩
    · exact ⟨rfl, trivial⟩
    · exact ⟨rfl, trivial⟩
  difficulty _ := wholeNumber_decimal _
  float _ := wholeNumber_decimal _

/-- An answer, a difficulty and a job. -/
def sentMessages : List Message :=
  [.reply (some (.number (some 2))) true, .setDifficulty 8192,
    .notify 7 (jobParams [] false 5 1700000000000) false]

end Sample

end StratumBridge
