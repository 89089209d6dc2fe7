import StratumBridge.Listener.Framing

/-! # Framing and the reads of a stream

Which lines a stream dispatches should not depend on how the network cuts it into reads. It does
where a cut goes through a character, where the first read looks like HTTP but its line does not,
where a read fills the buffer past its cap, and where lines follow one whose handler closed the
connection.
-/

namespace StratumBridge

variable {env : Dispatch} {loop : ReadLoop} {dispatched : List (List Char)}

/-! ## The lines of a stream -/

/-- The line closes the connection instead of being dispatched. -/
def Dispatch.refuses (env : Dispatch) (dispatched : List (List Char)) (line : List Char) : Bool :=
  isHttpLine line || !env.admits dispatched line

/-- The lines dispatched when complete lines are handled in order, until one is refused or a
handler closes the connection. -/
def frame (env : Dispatch) (dispatched : List (List Char)) :
    List (List Char) → List (List Char)
  | [] => dispatched
  | line :: lines =>
      if line = [] then frame env dispatched lines
      else if env.refuses dispatched line then dispatched
      else if env.keeps dispatched line then frame env (dispatched ++ [line]) lines
      else dispatched ++ [line]

/-- No line is dispatched behind one whose handler closed the connection. -/
def Patient (env : Dispatch) (dispatched : List (List Char)) : List (List Char) → Prop
  | [] => True
  | line :: lines =>
      if line = [] then Patient env dispatched lines
      else if env.refuses dispatched line then True
      else if env.keeps dispatched line then Patient env (dispatched ++ [line]) lines
      else ∀ next ∈ (lines.dropWhile fun line => line = []).head?,
        env.refuses (dispatched ++ [line]) next = true

instance decidablePatient : (dispatched lines : List (List Char)) →
    Decidable (Patient env dispatched lines)
  | _, [] => inferInstanceAs (Decidable True)
  | dispatched, line :: lines =>
      have := decidablePatient dispatched lines
      have := decidablePatient (dispatched ++ [line]) lines
      inferInstanceAs (Decidable (if line = [] then Patient env dispatched lines
        else if env.refuses dispatched line then True
        else if env.keeps dispatched line then Patient env (dispatched ++ [line]) lines
        else ∀ next ∈ (lines.dropWhile fun line => line = []).head?,
          env.refuses (dispatched ++ [line]) next = true))

/-- The loop has framed the stream so far, whose rest is still to be read. -/
structure Framed (env : Dispatch) (loop : ReadLoop) (rest : List Char)
    (whole : List (List Char)) : Prop where
  opened : loop.firstMessage = true → loop.lineBuffer = [] ∧ loop.dispatched = []
  reading : loop.connected = true → '\n' ∉ loop.lineBuffer ∧
    frame env loop.dispatched (completeLines (loop.lineBuffer ++ rest)) = whole
  closed : loop.connected = false → loop.dispatched = whole

/-- A read that is cut where it does no harm. -/
structure ReadClean (env : Dispatch) (loop : ReadLoop) (chunk rest : List UInt8) : Prop where
  /-- The cut goes through no character. -/
  decodes : decodeChunk (chunk ++ rest) = decodeChunk chunk ++ decodeChunk rest
  /-- The check on the first read fires only if the one on its completed line does. -/
  first : loop.firstMessage = true →
    isHttpLine (Text.trim (Text.firstLine (decodeChunk chunk))) = true →
      '\n' ∈ decodeChunk (chunk ++ rest) →
        isHttpLine (Text.trim ((decodeChunk (chunk ++ rest)).takeWhile (· ≠ '\n'))) = true
  fits : Text.byteLength loop.lineBuffer + Text.byteLength (decodeChunk chunk) ≤
    maxStratumLineBytes
  patient : Patient env loop.dispatched (completeLines (loop.lineBuffer ++ decodeChunk chunk))

/-- Every read of the run is clean. -/
def CleanReads (env : Dispatch) : ReadLoop → List (List UInt8) → Prop
  | _, [] => True
  | loop, chunk :: rest =>
      (loop.connected = true → ReadClean env loop chunk rest.flatten) ∧
        CleanReads env (readChunk env loop chunk) rest

theorem decodeChunk_append {chunk : List UInt8} (whole : Utf8.Whole (chunk.filter (· ≠ 0)))
    (rest : List UInt8) : decodeChunk (chunk ++ rest) = decodeChunk chunk ++ decodeChunk rest := by
  rw [decodeChunk, List.filter_append]
  exact Utf8.fromUtf8Lossy_append whole _

/-! ## Handling lines -/

section Steps

variable {fuel : Nat} {line rest : List Char}

theorem drainLines_done (popped : popLine loop.lineBuffer = none) :
    drainLines env (fuel + 1) loop = loop := by
  rw [drainLines, popped]

variable (popped : popLine loop.lineBuffer = some (line, rest))
include popped

theorem drainLines_skip (blank : Text.trim line = []) :
    drainLines env (fuel + 1) loop = drainLines env fuel { loop with lineBuffer := rest } := by
  simp only [drainLines, popped, handleLine, if_pos blank, Bool.false_eq_true, if_false]

theorem drainLines_refuse (named : Text.trim line ≠ [])
    (refused : env.refuses loop.dispatched (Text.trim line) = true) :
    drainLines env (fuel + 1) loop = { loop with lineBuffer := rest, connected := false } := by
  simp only [drainLines, popped, handleLine, if_neg named]
  by_cases http : isHttpLine (Text.trim line) = true
  · simp only [if_pos http, if_true]
  · have limited : env.admits loop.dispatched (Text.trim line) = false := by
      simpa [Dispatch.refuses, http] using refused
    simp only [if_neg http, if_pos limited, if_true]

theorem drainLines_dispatch (named : Text.trim line ≠ [])
    (admitted : env.refuses loop.dispatched (Text.trim line) = false) :
    drainLines env (fuel + 1) loop =
      drainLines env fuel
        { loop with
          lineBuffer := rest
          connected := loop.connected && env.keeps loop.dispatched (Text.trim line)
          dispatched := loop.dispatched ++ [Text.trim line] } := by
  obtain ⟨plain, open'⟩ := Bool.or_eq_false_iff.mp admitted
  have passes : ¬env.admits loop.dispatched (Text.trim line) = false := by
    simpa using open'
  simp only [drainLines, popped, handleLine, if_neg named, if_neg (Bool.eq_false_iff.mp plain),
    if_neg passes, Bool.false_eq_true, if_false]

end Steps

theorem framed_closed (opened : loop.firstMessage = false) (closed : loop.connected = false)
    (rest : List Char) : Framed env loop rest loop.dispatched :=
  ⟨fun first => absurd (first.symm.trans opened) nofun,
    fun connected => absurd (connected.symm.trans closed) nofun, fun _ => rfl⟩

theorem framed_unfinished (opened : loop.firstMessage = false) (connected : loop.connected = true)
    (incomplete : '\n' ∉ loop.lineBuffer) (rest : List Char) :
    Framed env loop rest
      (frame env loop.dispatched (completeLines (loop.lineBuffer ++ rest))) :=
  ⟨fun first => absurd (first.symm.trans opened) nofun, fun _ => ⟨incomplete, rfl⟩,
    fun closed => absurd (connected.symm.trans closed) nofun⟩

/-- Once the connection is closed, a refused line ends the handling. -/
theorem drainLines_closed (fuel : Nat) (opened : loop.firstMessage = false)
    (closed : loop.connected = false)
    (refused : ∀ next ∈ ((completeLines loop.lineBuffer).dropWhile fun line => line = []).head?,
      env.refuses loop.dispatched next = true) (rest : List Char) :
    Framed env (drainLines env fuel loop) rest loop.dispatched := by
  induction fuel generalizing loop with
  | zero => exact framed_closed opened closed rest
  | succ fuel ih =>
      cases popped : popLine loop.lineBuffer with
      | none => exact (drainLines_done popped).symm ▸ framed_closed opened closed rest
      | some found =>
          obtain ⟨line, more⟩ := found
          obtain ⟨complete, whole⟩ := popLine_eq_some.mp popped
          rw [whole, completeLines_append complete] at refused
          by_cases blank : Text.trim line = []
          · rw [drainLines_skip popped blank]
            exact ih opened closed (by simpa [blank] using refused)
          · have refusal := refused (Text.trim line) (by simp [blank])
            rw [drainLines_refuse popped blank refusal]
            refine framed_closed ?_ ?_ rest
            · exact opened
            · rfl

/-- **Handling lines.** Handling the complete lines of the buffer frames them. -/
theorem drainLines_framed (fuel : Nat) (enough : loop.lineBuffer.length ≤ fuel)
    (opened : loop.firstMessage = false) (connected : loop.connected = true)
    (patient : Patient env loop.dispatched (completeLines loop.lineBuffer)) (rest : List Char) :
    Framed env (drainLines env fuel loop) rest
      (frame env loop.dispatched (completeLines (loop.lineBuffer ++ rest))) := by
  induction fuel generalizing loop with
  | zero =>
      refine framed_unfinished opened connected (fun member => ?_) rest
      rw [List.length_eq_zero_iff.mp (Nat.le_zero.mp enough)] at member
      exact nomatch member
  | succ fuel ih =>
      cases popped : popLine loop.lineBuffer with
      | none =>
          rw [drainLines_done popped]
          exact framed_unfinished opened connected (popLine_eq_none.mp popped) rest
      | some found =>
          obtain ⟨line, more⟩ := found
          obtain ⟨complete, whole⟩ := popLine_eq_some.mp popped
          have shorter : more.length ≤ fuel := by
            rw [whole, List.length_append, List.length_cons] at enough
            omega
          rw [whole, completeLines_append complete, Patient] at patient
          rw [whole, List.append_assoc, List.cons_append, completeLines_append complete, frame]
          by_cases blank : Text.trim line = []
          · rw [if_pos blank] at patient
            rw [drainLines_skip popped blank, if_pos blank]
            exact ih shorter opened connected patient
          rw [if_neg blank] at patient
          rw [if_neg blank]
          cases verdict : env.refuses loop.dispatched (Text.trim line) with
          | true =>
              rw [drainLines_refuse popped blank verdict]
              refine framed_closed ?_ ?_ rest
              · exact opened
              · rfl
          | false =>
              rw [verdict, if_neg Bool.false_ne_true] at patient
              rw [drainLines_dispatch popped blank verdict, connected, Bool.true_and,
                if_neg Bool.false_ne_true]
              cases kept : env.keeps loop.dispatched (Text.trim line) with
              | true =>
                  rw [kept, if_pos rfl] at patient
                  exact ih shorter opened rfl patient
              | false =>
                  rw [kept, if_neg Bool.false_ne_true] at patient
                  refine drainLines_closed fuel ?_ ?_ ?_ rest
                  · exact opened
                  · rfl
                  · exact patient

/-! ## Reading -/

/-- A first read that looks like HTTP dispatches nothing, and nothing would be dispatched. -/
theorem frame_of_http {text : List Char}
    (http : '\n' ∈ text →
      isHttpLine (Text.trim (text.takeWhile (· ≠ '\n'))) = true) :
    frame env [] (completeLines text) = [] := by
  by_cases found : '\n' ∈ text
  · replace http := http found
    obtain ⟨line, rest, rfl, complete⟩ := List.eq_append_cons_of_mem found
    have first : (line ++ '\n' :: rest).takeWhile (· ≠ '\n') = line := by
      have popped := popLine_append complete rest
      rw [popLine, if_pos found] at popped
      exact (Prod.mk.inj (Option.some.inj popped)).1
    rw [first] at http
    have named : Text.trim line ≠ [] := by
      intro blank
      rw [blank] at http
      exact absurd http (by decide)
    have refused : env.refuses [] (Text.trim line) = true :=
      (Bool.or_eq_true _ _).mpr (.inl http)
    rw [completeLines_append complete, frame, if_neg named, if_pos refused]
  · rw [completeLines_of_not_mem found]
    rfl

/-- **Step.** A clean read keeps the stream framed. -/
theorem readChunk_framed {chunk rest : List UInt8} {whole : List (List Char)}
    (framed : Framed env loop (decodeChunk (chunk ++ rest)) whole)
    (clean : loop.connected = true → ReadClean env loop chunk rest) :
    Framed env (readChunk env loop chunk) (decodeChunk rest) whole := by
  unfold readChunk
  split
  case isFalse closed =>
    have closed := Bool.eq_false_iff.mpr closed
    exact ⟨framed.opened, fun connected => absurd (connected.symm.trans closed) nofun,
      framed.closed⟩
  case isTrue connected =>
    obtain ⟨decodes, first, fits, patient⟩ := clean connected
    obtain ⟨incomplete, reads⟩ := framed.reading connected
    dsimp only
    split
    case isTrue looks =>
      obtain ⟨opening, http⟩ := (Bool.and_eq_true _ _).mp looks
      obtain ⟨empty, nothing⟩ := framed.opened opening
      refine ⟨framed.opened, nofun, fun _ => ?_⟩
      rw [empty, nothing, List.nil_append, frame_of_http (first opening http)] at reads
      exact nothing.trans reads
    case isFalse =>
      have appended : appendLineData loop.lineBuffer (decodeChunk chunk) =
          some (loop.lineBuffer ++ decodeChunk chunk) := if_neg (Nat.not_lt.mpr fits)
      rw [appended, ← reads, decodes, ← List.append_assoc]
      have handled := @drainLines_framed env
        { loop with lineBuffer := loop.lineBuffer ++ decodeChunk chunk, firstMessage := false }
        _ (Nat.le_refl _) rfl connected patient (decodeChunk rest)
      exact handled

/-- **Run.** Clean reads dispatch the lines of the stream. -/
theorem foldl_readChunk_framed {chunks : List (List UInt8)} {whole : List (List Char)}
    (framed : Framed env loop (decodeChunk chunks.flatten) whole)
    (clean : CleanReads env loop chunks) :
    Framed env (chunks.foldl (readChunk env) loop) [] whole := by
  induction chunks generalizing loop with
  | nil => exact framed
  | cons chunk chunks ih => exact ih (readChunk_framed framed clean.1) clean.2

theorem dispatched_readChunks {chunks : List (List UInt8)}
    (clean : CleanReads env .initial chunks) :
    (readChunks env chunks).dispatched =
      frame env [] (completeLines (decodeChunk chunks.flatten)) := by
  have opens : Framed env .initial (decodeChunk chunks.flatten)
      (frame env [] (completeLines (decodeChunk chunks.flatten))) := by
    refine ⟨fun _ => ⟨rfl, rfl⟩, fun _ => ⟨List.not_mem_nil, rfl⟩, fun closed => ?_⟩
    exact nomatch closed
  have framed := foldl_readChunk_framed opens clean
  cases connected : (readChunks env chunks).connected with
  | false => exact framed.closed connected
  | true =>
      obtain ⟨incomplete, reads⟩ := framed.reading connected
      rw [List.append_nil, completeLines_of_not_mem incomplete] at reads
      exact reads

/-- **Framing.** The line buffer never exceeds its cap, and any two ways of cutting a stream into
clean reads dispatch the same lines. -/
theorem framing_independent (env : Dispatch) :
    (∀ chunks, Text.byteLength (readChunks env chunks).lineBuffer ≤ maxStratumLineBytes) ∧
      ∀ chunks others, chunks.flatten = others.flatten →
        CleanReads env .initial chunks → CleanReads env .initial others →
          (readChunks env chunks).dispatched = (readChunks env others).dispatched := by
  refine ⟨readChunks_capped env, fun chunks others same clean alsoClean => ?_⟩
  rw [dispatched_readChunks clean, dispatched_readChunks alsoClean, same]

/-! ## Sample streams -/

namespace Sample

/-- A bridge that admits every line and keeps every connection. -/
def tolerant : Dispatch := ⟨fun _ _ => true, fun _ _ => true⟩

def bytes (text : String) : List UInt8 := text.toList.map fun char => UInt8.ofNat char.toNat

theorem framing_independent_sample :
    (readChunks tolerant [bytes "{}\r", bytes "\n[", bytes "]\n"]).dispatched =
      (readChunks tolerant [bytes "{}\r\n[]\n"]).dispatched := by
  refine (framing_independent tolerant).2 _ _ (by decide) ?_ ?_
  · refine ⟨fun _ => ?_, fun _ => ?_, fun _ => ?_, trivial⟩
    iterate 3 exact ⟨decodeChunk_append (by decide) _, by decide, by decide, by decide⟩
  · exact ⟨fun _ => ⟨decodeChunk_append (by decide) _, by decide, by decide, by decide⟩, trivial⟩

/-- Cut inside of a character, a line is dispatched as another one. -/
theorem framing_dependent :
    [bytes "[\"" ++ [0xC3], [0xA9] ++ bytes "\"]\n"].flatten =
        bytes "[\"" ++ [0xC3, 0xA9] ++ bytes "\"]\n" ∧
      (readChunks tolerant [bytes "[\"" ++ [0xC3, 0xA9] ++ bytes "\"]\n"]).dispatched =
        [['[', '"', 'é', '"', ']']] ∧
      (readChunks tolerant [bytes "[\"" ++ [0xC3], [0xA9] ++ bytes "\"]\n"]).dispatched =
        [['[', '"', '\uFFFD', '\uFFFD', '"', ']']] := by
  decide

end Sample

end StratumBridge
