import StratumBridge.Listener.Framing
import StratumBridge.Listener.JsonValues

/-! # Messages to a miner

Answers, requests and notifications are written as one line of JSON each. A miner that splits
what has arrived into lines reads exactly the messages that arrived whole, and an answer carries
the id of the request it answers.
-/

namespace StratumBridge

open JsonText (Tree StringUnit)

/-! ## Answers -/

/-- An answer to a request. -/
structure JsonRpcResponse where
  id : Option Json
  result : Option Json
  error : Option (List Json)

/-- An integer as a number of JSON. -/
def Number.ofInt (value : Int) : Number :=
  if 0 ≤ value then .posInt (UInt64.ofNat value.toNat) else .negInt (Int64.ofInt value)

namespace JsonRpcResponse

def new (event : JsonRpcEvent) (result : Option Json) (error : Option (List Json)) :
    JsonRpcResponse :=
  ⟨event.id, result, error⟩

def success (id : Option Json) (result : Json) : JsonRpcResponse := ⟨id, some result, none⟩

/-- `JsonRpcResponse::error`: the code, the message, and the data or null. -/
def ofError (id : Option Json) (code : Int) (message : Text) (data : Option Json) :
    JsonRpcResponse :=
  ⟨id, none, some [.number (.ofInt code), .string message, data.getD .null]⟩

/-- `reply_stale_share`. -/
def staleShare (id : Option Json) : JsonRpcResponse :=
  ofError id 21 (Text.ofString "Job not found") none

/-- `reply_dupe_share`. -/
def dupeShare (id : Option Json) : JsonRpcResponse :=
  ofError id 22 (Text.ofString "Duplicate share submitted") none

/-- `reply_bad_share`. -/
def badShare (id : Option Json) : JsonRpcResponse :=
  ofError id 20 (Text.ofString "Unknown problem") none

/-- `reply_low_diff_share`. -/
def lowDiffShare (id : Json) : JsonRpcResponse :=
  ofError (some id) 23 (Text.ofString "Invalid difficulty") none

/-- The members that are written; what is none is left out. -/
def members (response : JsonRpcResponse) : List (Text × Json) :=
  (response.id.map fun id => (Text.ofString "id", id)).toList ++
    ((response.result.map fun result => (Text.ofString "result", result)).toList ++
      (response.error.map fun error => (Text.ofString "error", .array error)).toList)

end JsonRpcResponse

/-- The fields of an answer that were found so far. -/
structure ResponseFields where
  id : Option (Option Json) := none
  result : Option (Option Json) := none
  error : Option (Option (List Json)) := none

/-- `Option<Vec<Value>>`: null is none. -/
def toOptionalValues (number : Text → Option Number) : Tree → Option (Option (List Json))
  | .word letters => if letters = Text.ofString "null" then some none else none
  | tree => (toValues number tree).map some

def ResponseFields.read (number : Text → Option Number) (fields : ResponseFields)
    (member : List StringUnit × Tree) : Option ResponseFields := do
  let name ← decodeUnits member.1
  if name = Text.ofString "id" then
    let id ← setOnce fields.id (toOptional number member.2)
    return { fields with id }
  else if name = Text.ofString "result" then
    let result ← setOnce fields.result (toOptional number member.2)
    return { fields with result }
  else if name = Text.ofString "error" then
    let error ← setOnce fields.error (toOptionalValues number member.2)
    return { fields with error }
  else return fields

/-- The derived `JsonRpcResponse::deserialize`. -/
def JsonRpcResponse.ofTree (number : Text → Option Number) : Tree → Option JsonRpcResponse
  | .object members => do
      let fields ← members.foldlM (ResponseFields.read number) {}
      return ⟨fields.id.join, fields.result.join, fields.error.join⟩
  | .array [id, result, error] => do
      let id ← toOptional number id
      let result ← toOptional number result
      let error ← toOptionalValues number error
      return ⟨id, result, error⟩
  | _ => none

/-! ## Messages -/

/-- What is written to a miner. -/
inductive Outgoing where
  | response (response : JsonRpcResponse)
  | event (event : JsonRpcEvent)
  /-- `send_notification`: neither id nor version. -/
  | notification (method : Text) (params : List Json)
  /-- `send_v1_notification`: the id is null, and there is no version. -/
  | v1Notification (method : Text) (params : List Json)

namespace Outgoing

/-- `send_reconnect_hint`. -/
def reconnectHint (host : Text) (port waitSecs : UInt64) : Outgoing :=
  .event
    { id := none
      jsonrpc := defaultVersion
      method := Text.ofString "client.reconnect"
      params := [.string host, .number (.posInt port), .number (.posInt waitSecs)] }

/-- Method and parameters as members. -/
def callMembers (method : Text) (params : List Json) : List (Text × Json) :=
  [(Text.ofString "method", .string method), (Text.ofString "params", .array params)]

def members : Outgoing → List (Text × Json)
  | .response answer => answer.members
  | .event request =>
      (request.id.map fun id => (Text.ofString "id", id)).toList ++
        (Text.ofString "jsonrpc", .string request.jsonrpc) ::
          callMembers request.method request.params
  | .notification method params => callMembers method params
  | .v1Notification method params => (Text.ofString "id", .null) :: callMembers method params

/-- The request or notification that a message carries. -/
def asEvent : Outgoing → Option JsonRpcEvent
  | .response _ => none
  | .event request => some request
  | .notification method params | .v1Notification method params =>
      some ⟨none, defaultVersion, method, params⟩

section Format

variable (format : NumberFormat)

def tree (message : Outgoing) : Tree := .object (entriesToMembers format message.members)

/-- The line of a message. -/
def text (message : Outgoing) : Text := JsonText.write (message.tree format)

/-- The line with its end, as it is written to the socket. -/
def data (message : Outgoing) : Text := message.text format ++ ['\n']

/-- Members are kept, and an id or a result that is there is not null. -/
def Readable : Outgoing → Prop
  | .response answer =>
      (∀ id ∈ answer.id, id.isNull = false ∧ id.Kept format) ∧
        (∀ result ∈ answer.result, result.isNull = false ∧ result.Kept format) ∧
        ∀ error ∈ answer.error, ValuesKept format error
  | .event request =>
      (∀ id ∈ request.id, id.isNull = false ∧ id.Kept format) ∧ ValuesKept format request.params
  | .notification _ params | .v1Notification _ params => ValuesKept format params

/-- What a line says: an answer, or a request. -/
def Says (line : Text) : Outgoing → Prop
  | .response answer =>
      (JsonText.parse JsonText.standard line).bind (JsonRpcResponse.ofTree format.read) =
        some answer
  | message =>
      (JsonText.parse JsonText.standard line).bind (JsonRpcEvent.ofTree format.read) =
        message.asEvent

end Format

end Outgoing

/-! ## Reading a line -/

section Line

variable {format : NumberFormat}

theorem toOptional_toTree {value : Json} (present : value.isNull = false)
    (kept : value.Kept format) :
    toOptional format.read (value.toTree format) = some (some value) := by
  rw [toOptional, value.toJson_toTree kept, Option.map_some,
    if_neg (Bool.eq_false_iff.mp present)]

theorem toValues_toTree {values : List Json} (kept : ValuesKept format values) :
    toValues format.read ((Json.array values).toTree format) = some values :=
  itemsToJson_valuesToTrees values kept

theorem entriesToMembers_append (front back : List (Text × Json)) :
    entriesToMembers format (front ++ back) =
      entriesToMembers format front ++ entriesToMembers format back := by
  induction front with
  | nil => rfl
  | cons entry rest ih =>
      rw [List.cons_append, entriesToMembers, entriesToMembers, ih, List.cons_append]

theorem Option.join_map_some {α : Type} (value : Option α) : (value.map some).join = value := by
  cases value with
  | none => rfl
  | some value => rfl

/-! ### Members of an answer -/

section Response

variable {fields : ResponseFields}

theorem readResponse_id (fresh : fields.id = none) {id : Option Json}
    (readable : ∀ value ∈ id, value.isNull = false ∧ value.Kept format) :
    (entriesToMembers format (id.map fun id => (Text.ofString "id", id)).toList).foldlM
        (ResponseFields.read format.read) fields =
      some { fields with id := id.map some } := by
  cases id with
  | none =>
      cases fields
      cases fresh
      rfl
  | some id =>
      obtain ⟨present, kept⟩ := readable id rfl
      simp only [Option.map_some, Option.toList_some, entriesToMembers, List.foldlM_cons,
        List.foldlM_nil, ResponseFields.read, decodeUnits_escapeText, Option.bind_eq_bind,
        Option.bind_some, if_true, toOptional_toTree present kept, setOnce, fresh]
      rfl

theorem readResponse_result (fresh : fields.result = none) {result : Option Json}
    (readable : ∀ value ∈ result, value.isNull = false ∧ value.Kept format) :
    (entriesToMembers format
        (result.map fun result => (Text.ofString "result", result)).toList).foldlM
        (ResponseFields.read format.read) fields =
      some { fields with result := result.map some } := by
  have other : Text.ofString "result" ≠ Text.ofString "id" := by decide
  cases result with
  | none =>
      cases fields
      cases fresh
      rfl
  | some result =>
      obtain ⟨present, kept⟩ := readable result rfl
      simp only [Option.map_some, Option.toList_some, entriesToMembers, List.foldlM_cons,
        List.foldlM_nil, ResponseFields.read, decodeUnits_escapeText, Option.bind_eq_bind,
        Option.bind_some, if_neg other, if_true, toOptional_toTree present kept, setOnce, fresh]
      rfl

theorem readResponse_error (fresh : fields.error = none) {error : Option (List Json)}
    (readable : ∀ values ∈ error, ValuesKept format values) :
    (entriesToMembers format
        (error.map fun error => (Text.ofString "error", Json.array error)).toList).foldlM
        (ResponseFields.read format.read) fields =
      some { fields with error := error.map some } := by
  have first : Text.ofString "error" ≠ Text.ofString "id" := by decide
  have second : Text.ofString "error" ≠ Text.ofString "result" := by decide
  cases error with
  | none =>
      cases fields
      cases fresh
      rfl
  | some error =>
      have values : toOptionalValues format.read ((Json.array error).toTree format) =
          some (some error) := congrArg (Option.map some) (toValues_toTree (readable error rfl))
      simp only [Option.map_some, Option.toList_some, entriesToMembers, List.foldlM_cons,
        List.foldlM_nil, ResponseFields.read, decodeUnits_escapeText, Option.bind_eq_bind,
        Option.bind_some, if_neg first, if_neg second, if_true, values, setOnce, fresh]
      rfl

end Response

/-- An answer is read back. -/
theorem response_ofTree {answer : JsonRpcResponse}
    (readable : (Outgoing.response answer).Readable format) :
    JsonRpcResponse.ofTree format.read ((Outgoing.response answer).tree format) =
      some answer := by
  obtain ⟨ids, results, errors⟩ := readable
  -- One member after the other, each read into a field that is still empty.
  have read : (entriesToMembers format answer.members).foldlM (ResponseFields.read format.read)
      {} = some ⟨answer.id.map some, answer.result.map some, answer.error.map some⟩ := by
    have first := @readResponse_id format {} rfl answer.id ids
    have second := @readResponse_result format { id := answer.id.map some } rfl answer.result results
    have third := @readResponse_error format
      { id := answer.id.map some, result := answer.result.map some } rfl answer.error errors
    simp only [JsonRpcResponse.members, entriesToMembers_append, List.foldlM_append, first, second,
      third, Option.bind_eq_bind, Option.bind_some]
  simp only [Outgoing.tree, Outgoing.members, JsonRpcResponse.ofTree, read, Option.bind_eq_bind,
    Option.bind_some, Option.join_map_some]
  rfl

/-! ### Members of a request -/

section Event

variable {fields : EventFields}

theorem readEvent_id (fresh : fields.id = none) {id : Option Json}
    (readable : ∀ value ∈ id, value.isNull = false ∧ value.Kept format) :
    (entriesToMembers format (id.map fun id => (Text.ofString "id", id)).toList).foldlM
        (EventFields.read format.read) fields =
      some { fields with id := id.map some } := by
  cases id with
  | none =>
      cases fields
      cases fresh
      rfl
  | some id =>
      obtain ⟨present, kept⟩ := readable id rfl
      simp only [Option.map_some, Option.toList_some, entriesToMembers, List.foldlM_cons,
        List.foldlM_nil, EventFields.read, decodeUnits_escapeText, Option.bind_eq_bind,
        Option.bind_some, if_true, toOptional_toTree present kept, setOnce, fresh]
      rfl

theorem readEvent_nullId (fresh : fields.id = none) :
    fields.read format.read (escapeText (Text.ofString "id"), Json.null.toTree format) =
      some { fields with id := some none } := by
  have null : toOptional format.read (Json.null.toTree format) = some none := rfl
  simp only [EventFields.read, decodeUnits_escapeText, Option.bind_eq_bind, Option.bind_some,
    if_true, null, setOnce, fresh]
  rfl

theorem readEvent_jsonrpc (fresh : fields.jsonrpc = none) (version : Text) :
    fields.read format.read
        (escapeText (Text.ofString "jsonrpc"), (Json.string version).toTree format) =
      some { fields with jsonrpc := some version } := by
  have other : Text.ofString "jsonrpc" ≠ Text.ofString "id" := by decide
  have read : toText ((Json.string version).toTree format) = some version :=
    decodeUnits_escapeText version
  simp only [EventFields.read, decodeUnits_escapeText, Option.bind_eq_bind, Option.bind_some,
    if_neg other, if_true, read, setOnce, fresh]
  rfl

theorem readEvent_method (fresh : fields.method = none) (method : Text) :
    fields.read format.read
        (escapeText (Text.ofString "method"), (Json.string method).toTree format) =
      some { fields with method := some method } := by
  have first : Text.ofString "method" ≠ Text.ofString "id" := by decide
  have second : Text.ofString "method" ≠ Text.ofString "jsonrpc" := by decide
  have read : toText ((Json.string method).toTree format) = some method :=
    decodeUnits_escapeText method
  simp only [EventFields.read, decodeUnits_escapeText, Option.bind_eq_bind, Option.bind_some,
    if_neg first, if_neg second, if_true, read, setOnce, fresh]
  rfl

theorem readEvent_params (fresh : fields.params = none) {params : List Json}
    (kept : ValuesKept format params) :
    fields.read format.read
        (escapeText (Text.ofString "params"), (Json.array params).toTree format) =
      some { fields with params := some params } := by
  have first : Text.ofString "params" ≠ Text.ofString "id" := by decide
  have second : Text.ofString "params" ≠ Text.ofString "jsonrpc" := by decide
  have third : Text.ofString "params" ≠ Text.ofString "method" := by decide
  simp only [EventFields.read, decodeUnits_escapeText, Option.bind_eq_bind, Option.bind_some,
    if_neg first, if_neg second, if_neg third, if_true, toValues_toTree kept, setOnce, fresh]
  rfl

/-- Method and parameters are read into fields that are still empty. -/
theorem readEvent_call (noMethod : fields.method = none) (noParams : fields.params = none)
    (method : Text) {params : List Json} (kept : ValuesKept format params) :
    (entriesToMembers format (Outgoing.callMembers method params)).foldlM
        (EventFields.read format.read) fields =
      some { fields with method := some method, params := some params } := by
  simp only [Outgoing.callMembers, entriesToMembers, List.foldlM_cons, List.foldlM_nil,
    readEvent_method noMethod, Option.bind_eq_bind, Option.bind_some]
  rw [@readEvent_params format { fields with method := some method } noParams params kept]
  rfl

end Event

/-- A request is read back. -/
theorem event_ofTree {request : JsonRpcEvent} (readable : (Outgoing.event request).Readable format) :
    JsonRpcEvent.ofTree format.read ((Outgoing.event request).tree format) = some request := by
  obtain ⟨ids, params⟩ := readable
  have read : (entriesToMembers format (Outgoing.event request).members).foldlM
      (EventFields.read format.read) {} =
        some ⟨request.id.map some, some request.jsonrpc, some request.method,
          some request.params⟩ := by
    have first := @readEvent_id format {} rfl request.id ids
    have second := @readEvent_jsonrpc format { id := request.id.map some } rfl request.jsonrpc
    have third := @readEvent_call format
      { id := request.id.map some, jsonrpc := some request.jsonrpc } rfl rfl request.method _ params
    simp only [Outgoing.members, entriesToMembers_append, entriesToMembers, List.foldlM_append,
      List.foldlM_cons, first, second, third, Option.bind_eq_bind, Option.bind_some]
  simp only [Outgoing.tree, JsonRpcEvent.ofTree, read, Option.bind_eq_bind, Option.bind_some,
    Option.join_map_some]
  rfl

/-- A notification is read as a request without an id, whether the id is null or left out. -/
theorem notification_ofTree (method : Text) {params : List Json} (kept : ValuesKept format params) :
    JsonRpcEvent.ofTree format.read ((Outgoing.notification method params).tree format) =
        some ⟨none, defaultVersion, method, params⟩ ∧
      JsonRpcEvent.ofTree format.read ((Outgoing.v1Notification method params).tree format) =
        some ⟨none, defaultVersion, method, params⟩ := by
  constructor
  · have call := @readEvent_call format {} rfl rfl method params kept
    simp only [Outgoing.tree, Outgoing.members, JsonRpcEvent.ofTree, call, Option.bind_eq_bind,
      Option.bind_some]
    rfl
  · have first := @readEvent_nullId format {} rfl
    have call := @readEvent_call format { id := some none } rfl rfl method params kept
    simp only [Outgoing.tree, Outgoing.members, entriesToMembers, JsonRpcEvent.ofTree,
      List.foldlM_cons, first, call, Option.bind_eq_bind, Option.bind_some]
    rfl

theorem Outgoing.tree_isValid (message : Outgoing) :
    (message.tree format).isValid JsonText.standard = true :=
  (JsonText.object_isValid _).trans (entriesToMembers_isValid message.members)

/-- The line of a message says what the message is. -/
theorem says_text {message : Outgoing} (readable : message.Readable format) :
    message.Says format (message.text format) := by
  have parsed := JsonText.parse_write (@Outgoing.tree_isValid format message)
  cases message with
  | response answer =>
      rw [Outgoing.Says, Outgoing.text, parsed, Option.bind_some]
      exact response_ofTree readable
  | event request =>
      simp only [Outgoing.Says, Outgoing.text, parsed, Option.bind_some]
      exact event_ofTree readable
  | notification method params =>
      simp only [Outgoing.Says, Outgoing.text, parsed, Option.bind_some]
      exact (notification_ofTree method readable).1
  | v1Notification method params =>
      simp only [Outgoing.Says, Outgoing.text, parsed, Option.bind_some]
      exact (notification_ofTree method readable).2

/-- A message is one line. -/
theorem newline_not_mem_text (message : Outgoing) : '\n' ∉ message.text format :=
  JsonText.newline_not_mem_write message.tree_isValid

/-! ## Reading a stream -/

/-- What has arrived of some lines splits into the first of them and a part of the next one. -/
theorem splitLines_of_prefix {lines : List Text} (whole : ∀ line ∈ lines, '\n' ∉ line)
    {arrived : Text} (partly : arrived <+: lines.flatMap (· ++ ['\n'])) :
    ∃ waiting, lines = (splitLines arrived).1 ++ waiting ∧
      (splitLines arrived).2 <+: waiting.head?.getD [] := by
  induction lines generalizing arrived with
  | nil =>
      obtain rfl := List.prefix_nil.mp partly
      exact ⟨[], rfl, List.prefix_refl _⟩
  | cons line rest ih =>
      have complete := whole line List.mem_cons_self
      rw [List.flatMap_cons, List.append_assoc, List.singleton_append] at partly
      by_cases short : arrived.length ≤ line.length
      · have inside : arrived <+: line :=
          List.prefix_of_prefix_length_le partly (List.prefix_append line _) short
        have incomplete : '\n' ∉ arrived := fun member => complete (inside.subset member)
        rw [splitLines_of_not_mem incomplete]
        exact ⟨line :: rest, rfl, inside⟩
      · -- The first line and its end have arrived.
        have first : line ++ ['\n'] <+: arrived := by
          refine List.prefix_of_prefix_length_le ⟨rest.flatMap (· ++ ['\n']), ?_⟩ partly ?_
          · rw [List.append_assoc, List.singleton_append]
          · rw [List.length_append, List.length_singleton]
            omega
        obtain ⟨later, rfl⟩ := first
        rw [List.append_assoc, List.singleton_append] at partly ⊢
        have following := (List.prefix_append_right_inj line).mp partly
        obtain ⟨waiting, split, tail⟩ :=
          ih (fun line member => whole line (List.mem_cons_of_mem _ member))
            (List.cons_prefix_cons.mp following).2
        rw [splitLines_append complete]
        exact ⟨waiting, congrArg (line :: ·) split, tail⟩

/-- What has arrived of some messages splits into the lines of the first of them and a part of the
next one. -/
theorem lines_of_messages {messages : List Outgoing} {arrived : Text}
    (partly : arrived <+: messages.flatMap (Outgoing.data format)) :
    ∃ whole waiting, messages = whole ++ waiting ∧
      (splitLines arrived).1 = whole.map (Outgoing.text format) ∧
      (splitLines arrived).2 <+: (waiting.head?.map (Outgoing.text format)).getD [] := by
  have lines : messages.flatMap (Outgoing.data format) =
      (messages.map (Outgoing.text format)).flatMap (· ++ ['\n']) := by
    rw [List.flatMap_map]
    rfl
  have single : ∀ line ∈ messages.map (Outgoing.text format), '\n' ∉ line := by
    intro line member
    obtain ⟨message, -, rfl⟩ := List.mem_map.mp member
    exact newline_not_mem_text message
  obtain ⟨waiting, split, tail⟩ := splitLines_of_prefix single (lines ▸ partly)
  obtain ⟨whole, rest, rfl, read, rfl⟩ := List.map_eq_append_iff.mp split
  rw [List.head?_map] at tail
  exact ⟨whole, rest, rfl, read.symm, tail⟩

theorem present_of_toOptional (stable : format.Stable) {tree : Tree} {id : Option Json}
    (read : toOptional format.read tree = some id) :
    ∀ value ∈ id, value.isNull = false ∧ value.Kept format := by
  rintro value rfl
  obtain ⟨found, parsed, same⟩ := Option.map_eq_some_iff.mp read
  split_ifs at same with null
  obtain rfl := Option.some.inj same
  exact ⟨Bool.eq_false_iff.mpr null, kept_of_toJson stable tree parsed⟩

theorem valuesKept_of_toValues (stable : format.Stable) {tree : Tree} {values : List Json}
    (read : toValues format.read tree = some values) : ValuesKept format values := by
  cases tree with
  | array items => exact valuesKept_of_itemsToJson stable items read
  | word | number | string | object => exact nomatch read

variable (format) in
/-- What was found so far can be written and read back. -/
def EventFields.Readable (fields : EventFields) : Prop :=
  (∀ id ∈ fields.id.join, id.isNull = false ∧ id.Kept format) ∧
    ∀ params ∈ fields.params, ValuesKept format params

theorem eq_some_of_setOnce {α : Type} {held value : Option α} {set : Option α}
    (done : setOnce held value = some set) : set = value := by
  unfold setOnce at done
  split_ifs at done
  obtain ⟨value, rfl, rfl⟩ := Option.map_eq_some_iff.mp done
  rfl

/-- A member keeps what was found readable. -/
theorem EventFields.Readable.read (stable : format.Stable) {fields after : EventFields}
    (readable : fields.Readable format) {member : List StringUnit × Tree}
    (done : fields.read format.read member = some after) : after.Readable format := by
  unfold EventFields.read at done
  obtain ⟨name, -, done⟩ := Option.bind_eq_some_iff.mp done
  split_ifs at done
  · obtain ⟨id, set, same⟩ := Option.bind_eq_some_iff.mp done
    obtain rfl := Option.some.inj same
    obtain rfl := eq_some_of_setOnce set
    refine ⟨fun value found => ?_, readable.2⟩
    exact present_of_toOptional stable (Option.join_eq_some_iff.mp found) value rfl
  · obtain ⟨version, set, same⟩ := Option.bind_eq_some_iff.mp done
    obtain rfl := Option.some.inj same
    exact readable
  · obtain ⟨method, set, same⟩ := Option.bind_eq_some_iff.mp done
    obtain rfl := Option.some.inj same
    exact readable
  · obtain ⟨params, set, same⟩ := Option.bind_eq_some_iff.mp done
    obtain rfl := Option.some.inj same
    obtain rfl := eq_some_of_setOnce set
    exact ⟨readable.1, fun params found => valuesKept_of_toValues stable found⟩
  · obtain rfl := Option.some.inj done
    exact readable

theorem readable_of_foldlM (stable : format.Stable) (members : List (List StringUnit × Tree))
    {fields after : EventFields} (readable : fields.Readable format)
    (done : members.foldlM (EventFields.read format.read) fields = some after) :
    after.Readable format := by
  induction members generalizing fields with
  | nil =>
      obtain rfl := Option.some.inj done
      exact readable
  | cons member rest ih =>
      obtain ⟨next, first, later⟩ := Option.bind_eq_some_iff.mp done
      exact ih (readable.read stable first) later

/-- A request that was read can be written and read back. -/
theorem readable_of_ofTree (stable : format.Stable) {tree : Tree} {event : JsonRpcEvent}
    (read : JsonRpcEvent.ofTree format.read tree = some event) :
    (Outgoing.event event).Readable format := by
  unfold JsonRpcEvent.ofTree at read
  split at read
  case h_1 members =>
    obtain ⟨fields, found, read⟩ := Option.bind_eq_some_iff.mp read
    obtain ⟨method, -, read⟩ := Option.bind_eq_some_iff.mp read
    obtain ⟨params, given, same⟩ := Option.bind_eq_some_iff.mp read
    obtain rfl := Option.some.inj same
    have fresh : EventFields.Readable format {} :=
      ⟨fun _ found => absurd found (by simp), fun _ found => absurd found (by simp)⟩
    have readable := readable_of_foldlM stable members fresh found
    exact ⟨readable.1, readable.2 params given⟩
  case h_2 id version method params =>
    obtain ⟨id, first, read⟩ := Option.bind_eq_some_iff.mp read
    obtain ⟨version, -, read⟩ := Option.bind_eq_some_iff.mp read
    obtain ⟨method, -, read⟩ := Option.bind_eq_some_iff.mp read
    obtain ⟨params, given, same⟩ := Option.bind_eq_some_iff.mp read
    obtain rfl := Option.some.inj same
    exact ⟨present_of_toOptional stable first, valuesKept_of_toValues stable given⟩
  case h_3 => exact nomatch read

end Line

namespace Sample

theorem toDigits_form (value : Nat) : ∃ first rest, Nat.toDigits 10 value = first :: rest ∧
    first.isDigit = true ∧ rest.all Char.isDigit = true ∧
      (value = 0 ∧ first :: rest = ['0'] ∨ first ≠ '0') := by
  have digits : ∀ digit < 10, (Nat.digitChar digit).isDigit = true ∧
      (digit = 0 ∨ Nat.digitChar digit ≠ '0') := by decide
  induction value using Nat.strongRecOn with
  | ind value ih =>
      by_cases below : value < 10
      · obtain ⟨digit, form⟩ := digits value below
        refine ⟨_, [], Nat.toDigits_of_lt_base below, digit, rfl, ?_⟩
        rcases form with rfl | other
        · exact .inl ⟨rfl, rfl⟩
        · exact .inr other
      · obtain ⟨first, rest, same, digit, others, form⟩ := ih (value / 10) (by omega)
        refine ⟨first, rest ++ [Nat.digitChar (value % 10)], ?_, digit, ?_, ?_⟩
        · rw [Nat.toDigits_of_base_le (by decide) (by omega), same, List.cons_append]
        · rw [List.all_append, others, List.all_cons, (digits _ (Nat.mod_lt _ (by decide))).1]
          rfl
        · rcases form with ⟨zero, -⟩ | other
          · omega
          · exact .inr other

theorem isNumber_toDigits (value : Nat) : JsonText.isNumber (Nat.toDigits 10 value) = true := by
  obtain ⟨first, rest, same, digit, others, form⟩ := toDigits_form value
  have plain : first ≠ '-' := by
    rintro rfl
    exact absurd digit (by decide)
  have chars : (first :: rest).all JsonText.isNumberChar = true := by
    rw [List.all_eq_true]
    intro char member
    have isDigit : char.isDigit = true := by
      rcases List.mem_cons.mp member with rfl | later
      · exact digit
      · exact List.all_eq_true.mp others char later
    simp only [JsonText.isNumberChar, isDigit, Bool.true_or]
  have dropped : rest.dropWhile Char.isDigit = [] :=
    List.dropWhile_eq_nil_iff.mpr (List.all_eq_true.mp others)
  have minus : ¬(first :: rest).head? = some '-' := fun found => plain (Option.some.inj found)
  rw [same, JsonText.isNumber, chars, if_neg minus, Bool.true_and]
  rcases form with ⟨-, zero⟩ | other
  · rw [zero]
    rfl
  · unfold JsonText.isUnsigned
    split
    next none => exact absurd none (List.cons_ne_nil _ _)
    next whole => exact absurd (List.cons.inj whole).1 other
    next whole =>
      obtain ⟨rfl, rfl⟩ := List.cons.inj whole
      rw [digit, dropped]
      rfl

/-- Whole numbers in decimal. -/
def wholeNumbers : NumberFormat where
  spell
    | .posInt value => Text.decimal value.toNat
    | _ => ['0']
  read := wholeNumber
  wellFormed
    | .posInt value => isNumber_toDigits value.toNat
    | .negInt _ => rfl
    | .float _ => rfl

theorem wholeNumber_decimal (value : UInt64) :
    wholeNumber (Text.decimal value.toNat) = some (.posInt value) := by
  obtain ⟨first, rest, same, digit, -, -⟩ := toDigits_form value.toNat
  have plain : first ≠ '+' := by
    rintro rfl
    exact absurd digit (by decide)
  have parsed : Text.parseU64 10 (Nat.toDigits 10 value.toNat) = some value.toNat := by
    have read := @Text.readDigits_toDigits 10 (by decide) (by decide) value.toNat
    rw [same] at read ⊢
    rw [Text.parseU64, if_neg (List.cons_ne_nil _ _), read]
    · exact Option.filter_some_pos (decide_eq_true value.toNat_lt)
    · intro rest signed
      exact plain (List.cons.inj signed).1
  rw [wholeNumber, Text.decimal, parsed, Option.map_some, UInt64.ofNat_toNat]

theorem wholeNumbers_stable : wholeNumbers.Stable := by
  intro digits number read
  obtain ⟨value, -, rfl⟩ := Option.map_eq_some_iff.mp read
  exact wholeNumber_decimal _

/-- An answer and a hint where to connect. -/
def sentLines : List Outgoing :=
  [.response (.success (some (.number (.posInt 1))) (.bool true)),
    .reconnectHint (Text.ofString "pool") 5555 3]

theorem sentLines_readable : ∀ message ∈ sentLines, message.Readable wholeNumbers := by
  intro message member
  rcases List.mem_cons.mp member with rfl | member
  · refine ⟨?_, ?_, fun values found => nomatch found⟩
    · rintro value ⟨⟩
      exact ⟨rfl, wholeNumber_decimal 1⟩
    · rintro value ⟨⟩
      exact ⟨rfl, trivial⟩
  · obtain rfl := List.mem_singleton.mp member
    exact ⟨(fun value found => nomatch found), trivial, wholeNumber_decimal 5555,
      wholeNumber_decimal 3, trivial⟩

end Sample

end StratumBridge
