import StratumBridge.Foundation.Utf8
import StratumBridge.Bridge.Authorize

/-! # Framing

The read loop of a connection decodes every read on its own, appends the text to a line buffer,
and hands complete lines to the JSON-RPC handler. A read that looks like HTTP, or a buffer that
would outgrow its cap, ends the connection.
-/

namespace StratumBridge

/-! ## The loop -/

/-- `MAX_STRATUM_LINE_BYTES`. -/
def maxStratumLineBytes : Nat := 64 * 1024

/-- `str::len`: the bytes of a text in UTF-8. -/
def Text.byteLength (text : List Char) : Nat := (text.map Char.utf8Size).sum

/-- `append_line_data`; none when the append would exceed the cap. -/
def appendLineData (lineBuffer data : List Char) : Option (List Char) :=
  if maxStratumLineBytes < Text.byteLength lineBuffer + Text.byteLength data then none
  else some (lineBuffer ++ data)

/-- The start of a connection that speaks another protocol. -/
def isHttpLine (line : List Char) : Bool :=
  startsWith line "PRI * HTTP/2.0" || startsWith line "PRI * HTTP/2" || line = ['S', 'M']
    || startsWith line "GET " || startsWith line "POST " || startsWith line "PUT "
    || startsWith line "DELETE " || startsWith line "HEAD " || startsWith line "OPTIONS "

/-- What the loop asks of the rest of the bridge: whether the rate limiter admits another line,
and whether the connection is still open when its handler returns. -/
structure Dispatch where
  admits : List (List Char) → List Char → Bool
  keeps : List (List Char) → List Char → Bool

/-- The loop between two reads. -/
structure ReadLoop where
  lineBuffer : List Char
  firstMessage : Bool
  connected : Bool
  /-- The lines handed to the JSON-RPC handler so far. -/
  dispatched : List (List Char)

def ReadLoop.initial : ReadLoop := ⟨[], true, true, []⟩

/-- The first complete line of the buffer and what follows it. -/
def popLine (lineBuffer : List Char) : Option (List Char × List Char) :=
  if '\n' ∈ lineBuffer then
    some (lineBuffer.takeWhile (· ≠ '\n'), (lineBuffer.dropWhile (· ≠ '\n')).tail)
  else none

/-- Handle one line; the flag tells whether the inner loop is left. -/
def handleLine (env : Dispatch) (loop : ReadLoop) (line : List Char) : ReadLoop × Bool :=
  if line = [] then (loop, false)
  else if isHttpLine line then ({ loop with connected := false }, true)
  else if env.admits loop.dispatched line = false then ({ loop with connected := false }, true)
  else
    ({ loop with
      connected := loop.connected && env.keeps loop.dispatched line
      dispatched := loop.dispatched ++ [line] }, false)

/-- Handle complete lines while there are any. Each takes at least its newline off the buffer,
whose length bounds the iterations. -/
def drainLines (env : Dispatch) : Nat → ReadLoop → ReadLoop
  | 0, loop => loop
  | fuel + 1, loop =>
      match popLine loop.lineBuffer with
      | none => loop
      | some (line, rest) =>
          let (next, broke) :=
            handleLine env { loop with lineBuffer := rest } (Text.trim line)
          if broke then next else drainLines env fuel next

/-- The text of a read: null bytes are removed, and the rest is decoded on its own. -/
def decodeChunk (chunk : List UInt8) : List Char := Utf8.fromUtf8Lossy (chunk.filter (· ≠ 0))

/-- One read of the loop that returned bytes. -/
def readChunk (env : Dispatch) (loop : ReadLoop) (chunk : List UInt8) : ReadLoop :=
  if loop.connected then
    let text := decodeChunk chunk
    if loop.firstMessage && isHttpLine (Text.trim (Text.firstLine text)) then
      { loop with connected := false }
    else
      match appendLineData loop.lineBuffer text with
      | none => { loop with firstMessage := false, connected := false }
      | some lineBuffer =>
          drainLines env lineBuffer.length { loop with lineBuffer, firstMessage := false }
  else loop

/-- The loop after some reads. -/
def readChunks (env : Dispatch) (chunks : List (List UInt8)) : ReadLoop :=
  chunks.foldl (readChunk env) .initial

/-! ## Lines -/

section Lines

variable {line rest text : List Char}

theorem popLine_append (complete : '\n' ∉ line) (rest : List Char) :
    popLine (line ++ '\n' :: rest) = some (line, rest) := by
  have passes : ∀ char ∈ line, (decide (char ≠ '\n')) = true := by
    rintro char member
    exact decide_eq_true fun same => complete (same ▸ member)
  have found : '\n' ∈ line ++ '\n' :: rest := List.mem_append_right _ List.mem_cons_self
  rw [popLine, if_pos found, List.takeWhile_append_of_pos passes,
    List.dropWhile_append_of_pos passes]
  simp

theorem popLine_eq_none : popLine text = none ↔ '\n' ∉ text := by
  unfold popLine
  split <;> simp_all

theorem popLine_eq_some :
    popLine text = some (line, rest) ↔ '\n' ∉ line ∧ text = line ++ '\n' :: rest := by
  constructor
  · intro popped
    have found : '\n' ∈ text := by
      by_contra missing
      exact nomatch (popLine_eq_none.mpr missing).symm.trans popped
    obtain ⟨front, back, rfl, complete⟩ := List.eq_append_cons_of_mem found
    cases (popLine_append complete back).symm.trans popped
    exact ⟨complete, rfl⟩
  · rintro ⟨complete, rfl⟩
    exact popLine_append complete rest

/-- The complete lines of a text, and what follows them. -/
def splitLines : List Char → List (List Char) × List Char
  | [] => ([], [])
  | char :: rest =>
      if char = '\n' then ([] :: (splitLines rest).1, (splitLines rest).2)
      else
        match splitLines rest with
        | ([], tail) => ([], char :: tail)
        | (line :: lines, tail) => ((char :: line) :: lines, tail)

/-- The complete lines as they are handled. -/
def completeLines (text : List Char) : List (List Char) :=
  (splitLines text).1.map Text.trim

theorem splitLines_of_not_mem (incomplete : '\n' ∉ text) : splitLines text = ([], text) := by
  induction text with
  | nil => rfl
  | cons char rest ih =>
      have other : char ≠ '\n' := fun same => incomplete (same ▸ List.mem_cons_self)
      rw [splitLines, if_neg other, ih fun member => incomplete (List.mem_cons_of_mem _ member)]

theorem splitLines_append (complete : '\n' ∉ line) (rest : List Char) :
    splitLines (line ++ '\n' :: rest) = (line :: (splitLines rest).1, (splitLines rest).2) := by
  induction line with
  | nil => exact if_pos rfl
  | cons char line ih =>
      have other : char ≠ '\n' := fun same => complete (same ▸ List.mem_cons_self)
      rw [List.cons_append, splitLines, if_neg other,
        ih fun member => complete (List.mem_cons_of_mem _ member)]

theorem completeLines_of_not_mem (incomplete : '\n' ∉ text) : completeLines text = [] := by
  rw [completeLines, splitLines_of_not_mem incomplete]
  rfl

theorem completeLines_append (complete : '\n' ∉ line) (rest : List Char) :
    completeLines (line ++ '\n' :: rest) = Text.trim line :: completeLines rest := by
  rw [completeLines, splitLines_append complete]
  rfl

end Lines

/-! ## The cap -/

section Cap

variable {env : Dispatch} {loop : ReadLoop}

theorem Text.byteLength_append (front back : List Char) :
    Text.byteLength (front ++ back) = Text.byteLength front + Text.byteLength back := by
  rw [byteLength, List.map_append, List.sum_append]
  rfl

theorem Text.byteLength_le_of_suffix {text whole : List Char} (ends : text <:+ whole) :
    Text.byteLength text ≤ Text.byteLength whole := by
  obtain ⟨front, rfl⟩ := ends
  rw [byteLength_append]
  exact Nat.le_add_left _ _

@[simp] theorem handleLine_lineBuffer (line : List Char) :
    (handleLine env loop line).1.lineBuffer = loop.lineBuffer := by
  unfold handleLine
  split_ifs <;> rfl

/-- What is left of the buffer is its end. -/
theorem drainLines_suffix (fuel : Nat) (loop : ReadLoop) :
    (drainLines env fuel loop).lineBuffer <:+ loop.lineBuffer := by
  induction fuel generalizing loop with
  | zero => exact List.suffix_refl _
  | succ fuel ih =>
      rw [drainLines]
      split
      case h_1 => exact List.suffix_refl _
      case h_2 line rest popped =>
        obtain ⟨-, whole⟩ := popLine_eq_some.mp popped
        have ends : rest <:+ loop.lineBuffer := ⟨line ++ ['\n'], by simp [whole]⟩
        dsimp only
        split
        · exact (handleLine_lineBuffer _).symm ▸ ends
        · exact (ih _).trans ((handleLine_lineBuffer _).symm ▸ ends)

/-- **Step.** A read keeps the buffer within the cap. -/
theorem readChunk_capped (capped : Text.byteLength loop.lineBuffer ≤ maxStratumLineBytes)
    (chunk : List UInt8) :
    Text.byteLength (readChunk env loop chunk).lineBuffer ≤ maxStratumLineBytes := by
  unfold readChunk
  split
  · dsimp only
    split
    · exact capped
    · unfold appendLineData
      split
      case h_1 => exact capped
      case h_2 lineBuffer appended =>
        obtain ⟨fits, same⟩ := Option.ite_none_left_eq_some.mp appended
        obtain rfl := Option.some.inj same
        refine (Text.byteLength_le_of_suffix (drainLines_suffix _ _)).trans ?_
        rw [Text.byteLength_append]
        exact Nat.le_of_not_lt fits
  · exact capped

/-- **Run.** The line buffer never exceeds its cap. -/
theorem readChunks_capped (env : Dispatch) (chunks : List (List UInt8)) :
    Text.byteLength (readChunks env chunks).lineBuffer ≤ maxStratumLineBytes := by
  induction chunks using List.reverseRecOn with
  | nil => exact Nat.zero_le _
  | append_singleton chunks chunk ih =>
      rw [readChunks, List.foldl_append]
      exact readChunk_capped ih chunk

end Cap

end StratumBridge
