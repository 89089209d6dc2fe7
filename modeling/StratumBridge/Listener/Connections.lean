import StratumBridge.AntiAbuse.Requests
import StratumBridge.Listener.Framing
import StratumBridge.Listener.UnmarshalEvent

/-! # The listener and its connections

The accept loop hands every connection to a task of its own, which reads lines and runs their
handlers until the loop is left, and then reports its end. The tasks share the anti-abuse guard,
and one task of the listener takes the reports and runs the disconnect handler.
-/

namespace StratumBridge

/-- `PRE_AUTH_IDLE_TIMEOUT`, in seconds. -/
def preAuthIdleTimeout : ℚ := 60

/-- `should_drop_for_idle`. -/
def shouldDropForIdle (authorized : Bool) (elapsed : ℚ) : Bool :=
  !authorized && decide (preAuthIdleTimeout ≤ elapsed)

/-- The methods in the handler map. -/
def handledMethods : List Text :=
  [Text.ofString "mining.subscribe", Text.ofString "mining.extranonce.subscribe",
    Text.ofString "mining.authorize", Text.ofString "mining.submit"]

/-- Whether a line is an event with a handler; a malformed line and an unknown method have none. -/
def hasHandler (serde : SerdeJson) (line : Text) : Bool :=
  match unmarshalEvent serde line with
  | .ok event => handledMethods.contains event.method
  | .error _ => false

/-! ## The task of a connection -/

/-- Where the task of a connection stands. -/
inductive Phase where
  /-- At the head of the read loop. -/
  | looping
  /-- A read of the socket is under way. -/
  | reading
  /-- The complete lines of the buffer are being handled. -/
  | lines
  /-- The handler of a line runs. -/
  | handling
  /-- The read loop was left. -/
  | leaving
  /-- The end was reported, and the ticket is still held. -/
  | reported
  | over
deriving DecidableEq

/-- The connection has told the listener of its end. -/
def Phase.ended : Phase → Bool
  | .reported | .over => true
  | _ => false

structure Peer (Ip : Type) where
  ip : Ip
  phase : Phase
  /-- The buffer, and whether the context is connected. -/
  loop : ReadLoop
  lastActivity : ℚ
  /-- What was read so far. -/
  reads : List (List UInt8)

namespace Peer

variable {Ip : Type}

/-- A connection that was just accepted. -/
def new (ip : Ip) (now : ℚ) : Peer Ip := ⟨ip, .looping, .initial, now, []⟩

/-- `disconnect`. -/
def disconnect (peer : Peer Ip) : Peer Ip :=
  { peer with loop := { peer.loop with connected := false } }

/-- The head of the read loop. -/
def begin (peer : Peer Ip) : Peer Ip :=
  if peer.phase = .looping then
    { peer with phase := if peer.loop.connected then .reading else .leaving }
  else peer

/-- A read that returned bytes, which may come after the context was disconnected. -/
def receive (peer : Peer Ip) (chunk : List UInt8) (now : ℚ) : Peer Ip :=
  if peer.phase = .reading then
    let text := decodeChunk chunk
    let peer := { peer with lastActivity := now, reads := peer.reads ++ [chunk] }
    if peer.loop.firstMessage && isHttpLine (Text.trim (Text.firstLine text)) then
      { peer.disconnect with phase := .leaving }
    else
      match appendLineData peer.loop.lineBuffer text with
      | none =>
          { peer with
            loop := { peer.loop with firstMessage := false, connected := false }
            phase := .leaving }
      | some lineBuffer =>
          { peer with loop := { peer.loop with lineBuffer, firstMessage := false }, phase := .lines }
  else peer

/-- The end of the stream, or an error. -/
def hangUp (peer : Peer Ip) : Peer Ip :=
  if peer.phase = .reading then { peer with phase := .leaving } else peer

/-- A read that timed out. -/
def timeOut (peer : Peer Ip) (authorized : Bool) (now : ℚ) : Peer Ip :=
  if peer.phase = .reading then
    { peer with
      phase := if shouldDropForIdle authorized (now - peer.lastActivity) then .leaving else .looping }
  else peer

/-- The line for which the bucket of the address is asked next, and what follows it. -/
def metered (peer : Peer Ip) : Option (List Char × List Char) :=
  if peer.phase = .lines then
    (popLine peer.loop.lineBuffer).bind fun (line, rest) =>
      if Text.trim line = [] ∨ isHttpLine (Text.trim line) = true then none
      else some (Text.trim line, rest)
  else none

/-- A line that needs no token: blank, or of another protocol; or there is no complete line. -/
def skim (peer : Peer Ip) : Peer Ip :=
  if peer.phase = .lines then
    match popLine peer.loop.lineBuffer with
    | none => { peer with phase := .looping }
    | some (line, rest) =>
        let peer := { peer with loop := { peer.loop with lineBuffer := rest } }
        if Text.trim line = [] then peer else { peer.disconnect with phase := .looping }
  else peer

/-- A line whose token was granted or not. -/
def dispatch (serde : SerdeJson) (peer : Peer Ip) (line rest : List Char) (granted : Bool) : Peer Ip :=
  let peer := { peer with loop := { peer.loop with lineBuffer := rest } }
  if granted then
    { peer with
      loop := { peer.loop with dispatched := peer.loop.dispatched ++ [line] }
      phase := if hasHandler serde line then .handling else .lines }
  else { peer.disconnect with phase := .looping }

/-- The handler of a line returns. -/
def resume (peer : Peer Ip) : Peer Ip :=
  if peer.phase = .handling then { peer with phase := .lines } else peer

/-- The task disconnects its context and reports its end. -/
def report (peer : Peer Ip) : Peer Ip :=
  if peer.phase = .leaving then { peer.disconnect with phase := .reported } else peer

/-- The task drops its ticket. -/
def finish (peer : Peer Ip) : Peer Ip :=
  if peer.phase = .reported then { peer with phase := .over } else peer

end Peer

/-! ## The listener -/

inductive ListenerStep (Ip : Type) where
  /-- A connection is accepted; none for a health check and for a bad proxy header. -/
  | accept (source : Option Ip) (now : ℚ)
  | stopAccepting
  | begin (conn : Nat)
  | receive (conn : Nat) (chunk : List UInt8) (now : ℚ)
  | hangUp (conn : Nat)
  | timeOut (conn : Nat) (authorized : Bool) (now : ℚ)
  /-- The next line of the buffer is handled. -/
  | line (conn : Nat) (now : ℚ)
  | resume (conn : Nat)
  /-- Some task of the bridge disconnects the context. -/
  | disconnect (conn : Nat)
  /-- The task disconnects its context and reports its end. -/
  | report (conn : Nat)
  | finish (conn : Nat)
  /-- The disconnect loop takes a report. -/
  | collect
  /-- The disconnect loop ends; reports are dropped from then on. -/
  | stopCollecting

/-- The listener and its tasks. Connections are numbered in the order they were accepted. -/
structure Listener (Ip : Type) where
  guard : AntiAbuseGuard Ip
  accepting : Bool
  collecting : Bool
  peers : List (Peer Ip)
  /-- The reports under way. -/
  reports : List Nat
  /-- The connections whose disconnect handler has run. -/
  closed : List Nat
  disconnects : Nat
  /-- The frames that got a token: the address, and the time they presented. -/
  frames : List (Ip × ℚ)

namespace Listener

variable {Ip : Type} [DecidableEq Ip]

def initial : Listener Ip := ⟨.empty, true, true, [], [], [], 0, []⟩

/-- Move the task of a connection. -/
def modify (listener : Listener Ip) (conn : Nat) (move : Peer Ip → Peer Ip) : Listener Ip :=
  { listener with peers := listener.peers.modify conn move }

def accept (config : AntiAbuseConfig) (listener : Listener Ip) (ip : Ip) (now : ℚ) : Listener Ip :=
  match listener.guard.tryAcceptConnection config ip now with
  | (.ok (), guard) => { listener with guard, peers := listener.peers ++ [.new ip now] }
  | (.error _, guard) => { listener with guard }

/-- Handle the next line of a connection. -/
def line (config : AntiAbuseConfig) (serde : SerdeJson) (listener : Listener Ip) (conn : Nat)
    (now : ℚ) : Listener Ip :=
  match listener.peers[conn]? with
  | none => listener
  | some peer =>
      match peer.metered with
      | none => listener.modify conn Peer.skim
      | some (line, rest) =>
          let (granted, guard) := listener.guard.tryConsumeFrame config peer.ip now
          { listener.modify conn fun peer => peer.dispatch serde line rest granted with
            guard
            frames := if granted then listener.frames ++ [(peer.ip, now)] else listener.frames }

/-- A task whose loop was left disconnects its context and reports. -/
def report (listener : Listener Ip) (conn : Nat) : Listener Ip :=
  match listener.peers[conn]? with
  | none => listener
  | some peer =>
      if peer.phase = .leaving then
        { listener.modify conn Peer.report with
          reports := if listener.collecting then listener.reports ++ [conn] else listener.reports }
      else listener

/-- A task that has reported ends, and its ticket gives the slot of its address back. -/
def finish (listener : Listener Ip) (conn : Nat) : Listener Ip :=
  match listener.peers[conn]? with
  | none => listener
  | some peer =>
      if peer.phase = .reported then
        { listener.modify conn Peer.finish with guard := listener.guard.release peer.ip }
      else listener

/-- The disconnect loop handles the oldest report. -/
def collect (listener : Listener Ip) : Listener Ip :=
  match listener.reports with
  | [] => listener
  | conn :: reports =>
      { listener with
        reports
        closed := listener.closed ++ [conn]
        disconnects := listener.disconnects + 1 }

def step (config : AntiAbuseConfig) (serde : SerdeJson) (listener : Listener Ip) :
    ListenerStep Ip → Listener Ip
  | .accept (some ip) now => if listener.accepting then listener.accept config ip now else listener
  | .accept none _ => listener
  | .stopAccepting => { listener with accepting := false }
  | .begin conn => listener.modify conn Peer.begin
  | .receive conn chunk now => listener.modify conn fun peer => peer.receive chunk now
  | .hangUp conn => listener.modify conn Peer.hangUp
  | .timeOut conn authorized now => listener.modify conn fun peer => peer.timeOut authorized now
  | .line conn now => listener.line config serde conn now
  | .resume conn => listener.modify conn Peer.resume
  | .disconnect conn => listener.modify conn Peer.disconnect
  | .report conn => listener.report conn
  | .finish conn => listener.finish conn
  | .collect => listener.collect
  | .stopCollecting => { listener with collecting := false, reports := [] }

/-- The listener after some steps. -/
def run (config : AntiAbuseConfig) (serde : SerdeJson) (steps : List (ListenerStep Ip)) :
    Listener Ip :=
  steps.foldl (step config serde) initial

end Listener

end StratumBridge
