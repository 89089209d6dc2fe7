import StratumBridge.Listener.Chunking
import StratumBridge.Listener.Departures

/-! # The stream of a connection

The task of a connection shares the limiter with others and is interrupted between any two lines.
What it hands to the JSON-RPC handler is still what one uninterrupted read loop hands on from the
same bytes: their lines in order, up to the first of another protocol or the first that got no
token.
-/

namespace StratumBridge

variable {Ip : Type}

/-! ## A limiter that refuses once -/

/-- A bridge that refuses one line, after some were dispatched, and keeps every connection. -/
def cutAt (limit : Option Nat) : Dispatch :=
  ⟨fun dispatched _ => decide (limit ≠ some dispatched.length), fun _ _ => true⟩

/-- The limiter has not refused yet. -/
def Within (limit : Option Nat) (dispatched : List (List Char)) : Prop :=
  ∀ bound ∈ limit, dispatched.length ≤ bound

theorem Within.shorter {limit : Option Nat} {dispatched : List (List Char)} {line : List Char}
    (within : Within limit (dispatched ++ [line])) : Within limit dispatched := by
  intro bound same
  have longer := within bound same
  rw [List.length_append, List.length_singleton] at longer
  omega

/-- The lines that are handed on when nothing else ends the connection. -/
def wantedLines (lines : List (List Char)) : List (List Char) :=
  (lines.filter fun line => line ≠ []).takeWhile fun line => !isHttpLine line

theorem frame_cutAt_none (lines dispatched : List (List Char)) :
    frame (cutAt none) dispatched lines = dispatched ++ wantedLines lines := by
  induction lines generalizing dispatched with
  | nil => simp [frame, wantedLines]
  | cons line lines ih =>
      by_cases blank : line = []
      · simp [frame, wantedLines, blank, ih]
      · cases http : isHttpLine line with
        | true => simp [frame, wantedLines, blank, http, Dispatch.refuses]
        | false =>
            have next := ih (dispatched ++ [line])
            simpa [frame, wantedLines, blank, http, Dispatch.refuses, cutAt] using next

theorem frame_cutAt_some (lines dispatched : List (List Char)) (more : Nat) :
    frame (cutAt (some (dispatched.length + more))) dispatched lines =
      dispatched ++ (wantedLines lines).take more := by
  induction lines generalizing dispatched more with
  | nil => simp [frame, wantedLines]
  | cons line lines ih =>
      by_cases blank : line = []
      · simpa [frame, wantedLines, blank] using ih dispatched more
      · cases http : isHttpLine line with
        | true => simp [frame, wantedLines, blank, http, Dispatch.refuses]
        | false =>
            cases more with
            | zero => simp [frame, blank, http, Dispatch.refuses, cutAt]
            | succ more =>
                have next := ih (dispatched ++ [line]) more
                have index : (dispatched ++ [line]).length + more =
                    dispatched.length + (more + 1) := by simp; omega
                rw [index] at next
                simpa [frame, wantedLines, blank, http, Dispatch.refuses, cutAt] using next

/-- The loop, were the connection open. -/
def ReadLoop.opened (loop : ReadLoop) : ReadLoop := { loop with connected := true }

/-! ## The moves of a task -/

namespace Peer

/-- Whether lines that were read are still to be handled. -/
def busy (peer : Peer Ip) : Bool := decide (peer.phase = .lines ∨ peer.phase = .handling)

/-- How the loop of a task stands to one uninterrupted loop over the bytes it read. -/
inductive Streams (peer : Peer Ip) : Prop where
  | idle (quiet : peer.busy = false)
      (same : ∀ limit, Within limit peer.loop.dispatched →
        readChunks (cutAt limit) peer.reads = peer.loop.opened)
  | draining (busy : peer.busy = true)
      (same : ∀ limit, Within limit peer.loop.dispatched → ∃ fuel,
        peer.loop.lineBuffer.length ≤ fuel ∧
          drainLines (cutAt limit) fuel peer.loop.opened =
            readChunks (cutAt limit) peer.reads)
  /-- A line or a read closed the connection. -/
  | shut (closed : peer.loop.connected = false) (quiet : peer.busy = false)
      (left : peer.phase ≠ .reading) (limit : Option Nat)
      (same : readChunks (cutAt limit) peer.reads = { peer.loop with connected := false })

variable {peer : Peer Ip}

theorem streams_new (ip : Ip) (now : ℚ) : (Peer.new ip now).Streams :=
  .idle rfl fun _ _ => rfl

theorem Streams.disconnect (streams : peer.Streams) : peer.disconnect.Streams := by
  cases streams with
  | idle quiet same => exact .idle quiet same
  | draining busy same => exact .draining busy same
  | shut closed quiet left limit same => exact .shut rfl quiet left limit same

/-- A move between phases in which no lines are handled. -/
theorem Streams.rephase (streams : peer.Streams) {phase : Phase} (quiet : peer.busy = false)
    (still : ({ peer with phase } : Peer Ip).busy = false)
    (left : phase = .reading → peer.loop.connected = true) :
    ({ peer with phase } : Peer Ip).Streams := by
  cases streams with
  | idle _ same => exact .idle still same
  | draining busy _ => exact absurd (quiet.symm.trans busy) nofun
  | shut closed _ _ limit same =>
      exact .shut closed still (fun reading => absurd (closed.symm.trans (left reading)) nofun)
        limit same

theorem Streams.begin (streams : peer.Streams) : peer.begin.Streams := by
  unfold Peer.begin
  split
  next looping =>
    refine streams.rephase (by simp [busy, looping]) ?_ ?_
    · cases connected : peer.loop.connected <;> simp [busy]
    · cases connected : peer.loop.connected <;> simp
  next => exact streams

theorem Streams.hangUp (streams : peer.Streams) : peer.hangUp.Streams := by
  unfold Peer.hangUp
  split
  next reading => exact streams.rephase (by simp [busy, reading]) (by simp [busy]) nofun
  next => exact streams

theorem Streams.timeOut (streams : peer.Streams) (authorized : Bool) (now : ℚ) :
    (peer.timeOut authorized now).Streams := by
  unfold Peer.timeOut
  split
  next reading =>
    refine streams.rephase (by simp [busy, reading]) ?_ ?_
    · cases shouldDropForIdle authorized (now - peer.lastActivity) <;> simp [busy]
    · cases shouldDropForIdle authorized (now - peer.lastActivity) <;> simp
  next => exact streams

theorem Streams.report (streams : peer.Streams) : peer.report.Streams := by
  unfold Peer.report
  split
  next leaving =>
    exact streams.disconnect.rephase (by simp [busy, Peer.disconnect, leaving]) (by simp [busy])
      nofun
  next => exact streams

theorem Streams.finish (streams : peer.Streams) : peer.finish.Streams := by
  unfold Peer.finish
  split
  next reported => exact streams.rephase (by simp [busy, reported]) (by simp [busy]) nofun
  next => exact streams

theorem Streams.resume (streams : peer.Streams) : peer.resume.Streams := by
  unfold Peer.resume
  split
  next handling =>
    have busy : peer.busy = true := by simp [Peer.busy, handling]
    cases streams with
    | idle quiet _ => exact absurd (quiet.symm.trans busy) nofun
    | draining _ same => exact .draining (by simp [Peer.busy]) same
    | shut _ quiet _ _ _ => exact absurd (quiet.symm.trans busy) nofun
  next => exact streams

theorem readChunks_snoc (env : Dispatch) (chunks : List (List UInt8)) (chunk : List UInt8) :
    readChunks env (chunks ++ [chunk]) = readChunk env (readChunks env chunks) chunk := by
  rw [readChunks, List.foldl_append]
  rfl

/-- A read goes on where the uninterrupted loop stands. -/
theorem Streams.receive (streams : peer.Streams) (chunk : List UInt8) (now : ℚ) :
    (peer.receive chunk now).Streams := by
  unfold Peer.receive
  split
  case isFalse => exact streams
  case isTrue reading =>
    have same : ∀ limit, Within limit peer.loop.dispatched →
        readChunks (cutAt limit) (peer.reads ++ [chunk]) =
          readChunk (cutAt limit) peer.loop.opened chunk := by
      cases streams with
      | idle _ same =>
          intro limit within
          rw [readChunks_snoc, same limit within]
      | draining busy _ => simp [Peer.busy, reading] at busy
      | shut _ _ left _ _ => exact absurd reading left
    dsimp only
    split
    next looks =>
      refine .shut rfl (by simp [busy]) (by simp) none ?_
      exact (same none nofun).trans (by simp [readChunk, looks, ReadLoop.opened, Peer.disconnect])
    next plain =>
      cases appended : appendLineData peer.loop.lineBuffer (decodeChunk chunk) with
      | none =>
          refine .shut rfl (by simp [busy]) (by simp) none ?_
          exact (same none nofun).trans (by simp [readChunk, plain, appended, ReadLoop.opened])
      | some lineBuffer =>
          refine .draining (by simp [busy]) fun limit within => ⟨_, le_rfl, ?_⟩
          exact ((same limit within).trans (by simp [readChunk, plain, appended, ReadLoop.opened])).symm

/-- What a task in the middle of its lines still has to do. -/
theorem Streams.remaining (streams : peer.Streams) (lines : peer.phase = .lines) :
    ∀ limit, Within limit peer.loop.dispatched → ∃ fuel, peer.loop.lineBuffer.length ≤ fuel ∧
      drainLines (cutAt limit) fuel peer.loop.opened =
        readChunks (cutAt limit) peer.reads := by
  have busy : peer.busy = true := by simp [Peer.busy, lines]
  cases streams with
  | idle quiet _ => exact absurd (quiet.symm.trans busy) nofun
  | draining _ same => exact same
  | shut _ quiet _ _ _ => exact absurd (quiet.symm.trans busy) nofun

/-- With a complete line there is fuel for it. -/
theorem Streams.next (streams : peer.Streams) (lines : peer.phase = .lines)
    {line rest : List Char} (popped : popLine peer.loop.opened.lineBuffer = some (line, rest)) :
    ∀ limit, Within limit peer.loop.dispatched → ∃ fuel, rest.length ≤ fuel ∧
      drainLines (cutAt limit) (fuel + 1) peer.loop.opened =
        readChunks (cutAt limit) peer.reads := by
  intro limit within
  obtain ⟨fuel, enough, same⟩ := streams.remaining lines limit within
  obtain ⟨-, whole⟩ := popLine_eq_some.mp popped
  change peer.loop.lineBuffer = _ at whole
  rw [whole, List.length_append, List.length_cons] at enough
  obtain ⟨fuel, rfl⟩ := Nat.exists_eq_add_of_lt (Nat.lt_of_lt_of_le (Nat.succ_pos _)
    (Nat.le_trans (Nat.le_add_left _ line.length) enough))
  exact ⟨fuel, by omega, by simpa using same⟩

theorem Streams.skim (streams : peer.Streams) (unmetered : peer.metered = none) :
    peer.skim.Streams := by
  unfold Peer.skim
  split
  case isFalse => exact streams
  case isTrue lines =>
    rw [Peer.metered, if_pos lines] at unmetered
    cases popped : popLine peer.loop.lineBuffer with
    | none =>
        refine .idle (by simp [busy]) fun limit within => ?_
        obtain ⟨fuel, -, same⟩ := streams.remaining lines limit within
        rw [← same]
        cases fuel with
        | zero => rfl
        | succ fuel => exact @drainLines_done _ peer.loop.opened _ popped
    | some found =>
        obtain ⟨line, rest⟩ := found
        replace popped : popLine peer.loop.opened.lineBuffer = some (line, rest) := popped
        have next := streams.next lines popped
        dsimp only
        split
        next blank =>
          refine .draining (by simp [busy, lines]) fun limit within => ?_
          obtain ⟨fuel, enough, same⟩ := next limit within
          exact ⟨fuel, enough, (drainLines_skip popped blank).symm.trans same⟩
        next named =>
          have http : isHttpLine (Text.trim line) = true := by
            rw [show popLine peer.loop.lineBuffer = some (line, rest) from popped] at unmetered
            simpa [named] using unmetered
          refine .shut rfl (by simp [busy]) (by simp) none ?_
          obtain ⟨fuel, -, same⟩ := next none fun _ bounded =>
            (Option.some_ne_none _ bounded.symm).elim
          exact same.symm.trans (drainLines_refuse popped named (by simp [Dispatch.refuses, http]))

theorem Streams.dispatch (streams : peer.Streams) {line rest : List Char}
    (metered : peer.metered = some (line, rest)) (serde : SerdeJson) (granted : Bool) :
    (peer.dispatch serde line rest granted).Streams := by
  have lines := metered_phase metered
  rw [Peer.metered, if_pos lines] at metered
  obtain ⟨⟨raw, after⟩, popped, checked⟩ := Option.bind_eq_some_iff.mp metered
  obtain ⟨passes, same⟩ := Option.ite_none_left_eq_some.mp checked
  obtain ⟨rfl, rfl⟩ := Prod.mk.inj (Option.some.inj same)
  obtain ⟨named, plain⟩ := not_or.mp passes
  replace popped : popLine peer.loop.opened.lineBuffer = some (raw, after) := popped
  have next := streams.next lines popped
  cases granted with
  | false =>
      refine .shut rfl (by simp [Peer.dispatch, busy, Peer.disconnect]) (by simp [Peer.dispatch])
        (some peer.loop.dispatched.length) ?_
      obtain ⟨fuel, -, same⟩ := next (some peer.loop.dispatched.length) (by simp [Within])
      exact same.symm.trans
        (drainLines_refuse popped named (by simp [Dispatch.refuses, cutAt, ReadLoop.opened]))
  | true =>
      refine .draining ?_ fun limit within => ?_
      · simp only [Peer.dispatch, if_true, busy]
        split <;> simp
      · have longer : Within limit (peer.loop.dispatched ++ [Text.trim raw]) := within
        obtain ⟨fuel, enough, same⟩ := next limit longer.shorter
        have admitted :
            (cutAt limit).refuses peer.loop.opened.dispatched (Text.trim raw) = false := by
          have further : limit ≠ some peer.loop.dispatched.length := by
            intro stopped
            simpa using longer _ stopped
          simp [Dispatch.refuses, cutAt, plain, further, ReadLoop.opened]
        exact ⟨fuel, enough, (drainLines_dispatch popped named admitted).symm.trans same⟩

end Peer

/-! ## The listener -/

namespace Listener

variable [DecidableEq Ip] {config : AntiAbuseConfig} {serde : SerdeJson} {listener : Listener Ip}

/-- Every task stands to its bytes as an uninterrupted loop would. -/
def AllStream (listener : Listener Ip) : Prop :=
  ∀ (conn : Nat) (peer : Peer Ip), listener.peers[conn]? = some peer → peer.Streams

omit [DecidableEq Ip] in
theorem AllStream.modify (streams : listener.AllStream) {conn : Nat} {move : Peer Ip → Peer Ip}
    (keeps : ∀ peer, listener.peers[conn]? = some peer → peer.Streams → (move peer).Streams) :
    (listener.modify conn move).AllStream := by
  intro other peer found
  simp only [Listener.modify, List.getElem?_modify] at found
  split at found
  next same =>
    subst same
    obtain ⟨earlier, known, rfl⟩ := Option.map_eq_some_iff.mp found
    exact keeps earlier known (streams conn earlier known)
  next => exact streams other peer (by simpa using found)

theorem AllStream.step (streams : listener.AllStream) (step : ListenerStep Ip) :
    (listener.step config serde step).AllStream := by
  cases step with
  | accept source now =>
      cases source with
      | none => exact streams
      | some ip =>
          simp only [Listener.step]
          split
          · unfold Listener.accept
            split
            · intro conn peer found
              simp only [List.getElem?_append] at found
              split at found
              · exact streams conn peer found
              · obtain rfl := List.mem_singleton.mp (List.mem_of_getElem? found)
                exact Peer.streams_new ip now
            · exact streams
          · exact streams
  | begin conn => exact streams.modify fun peer _ held => held.begin
  | receive conn chunk now => exact streams.modify fun peer _ held => held.receive chunk now
  | hangUp conn => exact streams.modify fun peer _ held => held.hangUp
  | timeOut conn authorized now =>
      exact streams.modify fun peer _ held => held.timeOut authorized now
  | resume conn => exact streams.modify fun peer _ held => held.resume
  | disconnect conn => exact streams.modify fun peer _ held => held.disconnect
  | line conn now =>
      simp only [Listener.step, line]
      cases found : listener.peers[conn]? with
      | none => exact streams
      | some peer =>
          dsimp only
          cases metered : peer.metered with
          | none =>
              refine streams.modify fun other same held => held.skim ?_
              obtain rfl : peer = other := Option.some.inj (found.symm.trans same)
              exact metered
          | some line =>
              refine streams.modify fun other same held => ?_
              obtain rfl : peer = other := Option.some.inj (found.symm.trans same)
              exact held.dispatch metered serde _
  | report conn =>
      simp only [Listener.step, report]
      split
      · exact streams
      · split
        · exact streams.modify fun peer _ held => held.report
        · exact streams
  | finish conn =>
      simp only [Listener.step, finish]
      split
      · exact streams
      · split
        · exact streams.modify fun peer _ held => held.finish
        · exact streams
  | collect =>
      simp only [Listener.step, collect]
      split <;> exact streams
  | stopAccepting | stopCollecting => exact streams

theorem allStream_run (steps : List (ListenerStep Ip)) :
    (run config serde steps).AllStream := by
  induction steps using List.reverseRecOn with
  | nil => exact fun conn peer found => by simp [run, initial] at found
  | append_singleton steps last ih =>
      rw [run_snoc]
      exact ih.step last

/-- **Streams.** In every run, between two reads, a task has handed on what one uninterrupted loop
over the bytes it read hands on, with at most one line refused by the limiter and none while the
connection is open; when no read was cut badly, these are the lines of the bytes, without blank
ones, up to the first of another protocol or the refused one. -/
theorem lines_of_stream (config : AntiAbuseConfig) (serde : SerdeJson)
    (steps : List (ListenerStep Ip)) {conn : Nat} {peer : Peer Ip}
    (found : (run config serde steps).peers[conn]? = some peer) (idle : peer.busy = false) :
    ∃ limit : Option Nat, (peer.loop.connected = true → limit = none) ∧
      (readChunks (cutAt limit) peer.reads).dispatched = peer.loop.dispatched ∧
      (CleanReads (cutAt limit) .initial peer.reads →
        let wanted := wantedLines (completeLines (decodeChunk peer.reads.flatten))
        peer.loop.dispatched = limit.elim wanted fun bound => wanted.take bound) := by
  have explicit : ∀ limit, (readChunks (cutAt limit) peer.reads).dispatched =
      peer.loop.dispatched → CleanReads (cutAt limit) .initial peer.reads →
        peer.loop.dispatched = limit.elim
          (wantedLines (completeLines (decodeChunk peer.reads.flatten)))
          fun bound => (wantedLines (completeLines (decodeChunk peer.reads.flatten))).take bound := by
    intro limit same clean
    rw [← same, dispatched_readChunks clean]
    cases limit with
    | none => exact frame_cutAt_none _ []
    | some bound =>
        simpa using frame_cutAt_some (completeLines (decodeChunk peer.reads.flatten)) [] bound
  cases allStream_run steps conn peer found with
  | idle _ same =>
      have reads := congrArg ReadLoop.dispatched (same none nofun)
      exact ⟨none, fun _ => rfl, reads, explicit none reads⟩
  | draining busy _ => exact absurd (idle.symm.trans busy) nofun
  | shut closed _ _ limit same =>
      have reads := congrArg ReadLoop.dispatched same
      exact ⟨limit, fun connected => absurd (closed.symm.trans connected) nofun, reads,
        explicit limit reads⟩

end Listener

namespace Sample

/-- A line of a connection whose bytes come in two reads, between steps of another one. -/
def chatter : List (ListenerStep Nat) :=
  [.accept (some 7) 0, .accept (some 7) 0, .begin 0, .receive 0 [97] 1, .begin 1, .line 0 1,
    .receive 1 [98, 10] 1, .begin 0, .receive 0 [98, 10] 1, .line 1 1, .line 0 1, .line 0 1]

theorem lines_of_stream_sample :
    ∃ peer : Peer Nat, (Listener.run ⟨2, 1, 1, 2⟩ deaf chatter).peers[0]? = some peer ∧
      peer.loop.dispatched = [['a', 'b']] ∧ ∃ limit : Option Nat,
        (readChunks (cutAt limit) peer.reads).dispatched = peer.loop.dispatched := by
  obtain ⟨peer, found⟩ := Option.isSome_iff_exists.mp (show (Listener.run ⟨2, 1, 1, 2⟩ deaf
    chatter).peers[0]?.isSome = true by decide +kernel)
  have handed : (Listener.run ⟨2, 1, 1, 2⟩ deaf chatter).peers[0]?.map
      (fun peer => (peer.busy, peer.loop.dispatched)) = some (false, [['a', 'b']]) := by
    decide +kernel
  rw [found, Option.map_some] at handed
  obtain ⟨idle, lines⟩ := Prod.mk.inj (Option.some.inj handed)
  obtain ⟨limit, -, same, -⟩ := Listener.lines_of_stream _ _ chatter found idle
  exact ⟨peer, found, lines, limit, same⟩

end Sample

end StratumBridge
