import StratumBridge.Foundation.Slices
import StratumBridge.Foundation.Utf8
import StratumBridge.Web.StaticFiles

/-! # The body of a request

A request that changes the configuration carries its body behind an empty line. The handler
searches for the empty line and slices behind it; every other route slices nothing.
-/

namespace StratumBridge

/-! ## The handler with its slices -/

/-- The empty line that ends the headers. -/
def headerEnd : Text := Text.ofString "\r\n\r\n"

/-- Where the handler expects the body: four bytes behind the empty line, or behind the end of
the request. -/
def bodyOffset (request : Text) : Nat :=
  (Slices.find headerEnd request).getD (Slices.byteLength request) + 4

def requestBody (request : Text) : Option Text := Slices.sliceFrom request (bodyOffset request)

inductive HttpReply where
  | page (response : HttpResponse)
  | writeDisabled
  | updated (succeeded : Bool)

/-- `handle_http_request`; nothing is a panic. `update` is the outcome of an update with a
body. -/
def handleRequest (assets : Assets) (mode : HttpMode) (configWriteAllowed : Bool)
    (update : Text → Bool) (request : Text) : Option HttpReply :=
  match routeOf mode request with
  | .writeConfig =>
      if configWriteAllowed then
        (requestBody request).map fun body => .updated (update body)
      else some .writeDisabled
  | _ => some (.page (handleHttpRequest assets mode request))

/-! ## Slicing -/

/-- The slice of the body stays in range exactly when the empty line is there. -/
theorem isSome_requestBody_iff (request : Text) :
    (requestBody request).isSome ↔ headerEnd <:+: request := by
  cases found : Slices.find headerEnd request with
  | none =>
      have past : Slices.byteLength request < bodyOffset request := by
        rw [bodyOffset, found]
        exact Nat.lt_add_of_pos_right (by decide)
      have absent : ¬headerEnd <:+: request := by
        rw [← Slices.isSome_find_iff, found]
        exact Bool.false_ne_true
      rw [requestBody, Slices.sliceFrom_past past]
      exact iff_of_false Bool.false_ne_true absent
  | some offset =>
      obtain ⟨front, back, rfl, rfl⟩ := Slices.exists_of_find found
      have behind : bodyOffset (front ++ (headerEnd ++ back)) =
          Slices.byteLength (front ++ headerEnd) := by
        rw [bodyOffset, found, Option.getD_some, Slices.byteLength_append front headerEnd]
        rfl
      rw [requestBody, behind, ← List.append_assoc, Slices.sliceFrom_append]
      exact iff_of_true rfl ⟨front, back, rfl⟩

/-- **No panic.** A request is answered, unless it asks to change the configuration where that
is allowed and has no empty line behind its headers. -/
theorem handle_request_answers_iff (assets : Assets) (mode : HttpMode)
    (configWriteAllowed : Bool) (update : Text → Bool) (request : Text) :
    (handleRequest assets mode configWriteAllowed update request).isSome ↔
      ¬(routeOf mode request = .writeConfig ∧ configWriteAllowed = true ∧
        ¬headerEnd <:+: request) := by
  unfold handleRequest
  cases routed : routeOf mode request with
  | writeConfig =>
      cases configWriteAllowed with
      | false => simp
      | true => simp [isSome_requestBody_iff]
  | _ => simp

/-- A request cut off before its empty line, as it is read from the socket. -/
theorem cut_off_request_panics :
    let bytes := "POST /api/config HTTP/1.1\r\n".toList.map fun char => UInt8.ofNat char.toNat
    handleRequest ⟨fun _ => none, [], fun _ => none⟩ .single true (fun _ => true)
      (Utf8.fromUtf8Lossy bytes) = none := by
  decide

end StratumBridge
