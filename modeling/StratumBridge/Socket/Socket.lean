import StratumBridge.Interaction.System

/-! # The socket of a connection

A connection keeps the two halves of its socket where any task can take them. A writer takes the
write half, writes, and puts it back whatever came of it; the read loop does the same with the
read half; a disconnect takes both for good. A write may send its message in pieces, and fail or
run out of time between any two of them.
-/

namespace StratumBridge

open Interaction

/-! ## Operations -/

/-- What came of writing some more of a message. -/
inductive PollOutcome where
  | sent (count : Nat)
  | failed
  | timedOut
deriving DecidableEq

/-- What came of a read. -/
inductive ReadOutcome where
  | received (chunk : List UInt8)
  | failed
  | timedOut
deriving DecidableEq

/-- The shared steps of `write_data`, of the read loop and of `disconnect`. -/
inductive SocketOp where
  | loadDisconnecting
  | swapDisconnecting
  /-- Compare and exchange the write lock. -/
  | lockWrite
  | unlockWrite
  | takeWriteHalf
  | putWriteHalf
  /-- Write more of a message, of which some bytes were sent before. -/
  | poll (data : List UInt8) (offset : Nat)
  | takeReadHalf
  | putReadHalf
  | read
  /-- A disconnect logs that it has begun. -/
  | announceDisconnect
  | clearWriteHalf
  /-- Shut a cleared write half down, in a task of its own. -/
  | spawnShutdown
  | clearReadHalf
  | spawnDisconnect
deriving DecidableEq

@[reducible] def SocketOp.Answer : SocketOp → Type
  | .loadDisconnecting | .swapDisconnecting | .lockWrite => Bool
  /- Whether the half was there. -/
  | .takeWriteHalf | .takeReadHalf | .clearWriteHalf | .clearReadHalf => Bool
  | .poll _ _ => PollOutcome
  | .read => ReadOutcome
  | .unlockWrite | .putWriteHalf | .putReadHalf => Unit
  | .announceDisconnect | .spawnShutdown | .spawnDisconnect => Unit

@[reducible] def socketSignature : Signature where
  Op := SocketOp
  Answer := SocketOp.Answer

/-- What the tasks of a connection share, and the bytes its miner was sent. -/
structure SocketState where
  disconnecting : Bool
  writeLock : Bool
  writeHalf : Bool
  readHalf : Bool
  wire : List UInt8
deriving DecidableEq

/-- How the socket behaves. -/
structure SocketEnv where
  poll : PollOutcome := .failed
  read : ReadOutcome := .failed

/-- A poll that sends anything sends at least one byte, and no more than there are. -/
def PollOutcome.within (remaining : Nat) : PollOutcome → PollOutcome
  | .sent count => .sent (max 1 (min count remaining))
  | outcome => outcome

def PollOutcome.count : PollOutcome → Nat
  | .sent count => count
  | _ => 0

def performSocketOp (state : SocketState) (env : SocketEnv) :
    (op : SocketOp) → op.Answer × SocketState
  | .loadDisconnecting => (state.disconnecting, state)
  | .swapDisconnecting => (state.disconnecting, { state with disconnecting := true })
  | .lockWrite => (!state.writeLock, { state with writeLock := true })
  | .unlockWrite => ((), { state with writeLock := false })
  | .takeWriteHalf | .clearWriteHalf => (state.writeHalf, { state with writeHalf := false })
  | .putWriteHalf => ((), { state with writeHalf := true })
  | .poll data offset =>
      let outcome := env.poll.within (data.length - offset)
      (outcome, { state with wire := state.wire ++ (data.drop offset).take outcome.count })
  | .takeReadHalf | .clearReadHalf => (state.readHalf, { state with readHalf := false })
  | .putReadHalf => ((), { state with readHalf := true })
  | .read => (env.read, state)
  | .announceDisconnect | .spawnShutdown | .spawnDisconnect => ((), state)

/-! ## Tasks -/

abbrev SocketTask := Program socketSignature

/-- Perform one operation. -/
@[reducible] def access (op : SocketOp) : SocketTask op.Answer :=
  @Program.perform socketSignature op

/-- What came of writing a message. -/
inductive WriteResult where
  | complete
  | failed
  | timedOut
deriving DecidableEq

/-- `write_all` under its timeout: write until nothing is left. Each poll sends a byte at least,
so the length of the message bounds them. -/
def writeRest (data : List UInt8) : Nat → Nat → SocketTask WriteResult
  | 0, _ => pure .complete
  | fuel + 1, offset =>
      if data.length ≤ offset then pure .complete
      else do
        let outcome : PollOutcome ← access (.poll data offset)
        match outcome with
        | .sent count => writeRest data fuel (offset + count)
        | .failed => return .failed
        | .timedOut => return .timedOut

/-- `check_disconnect`. -/
def checkDisconnect : SocketTask Unit := do
  let gone : Bool ← access .loadDisconnecting
  if gone then pure () else access .spawnDisconnect

/-- Write the message with the half in hand, and put the half back. -/
def writeHeld (data : List UInt8) : SocketTask WriteResult := do
  let result ← writeRest data data.length 0
  access .putWriteHalf
  access .unlockWrite
  return result

/-- The attempts of `write_data`, by how many are left; between two of them it sleeps. True when
the message was written. -/
def writeAttempts (data : List UInt8) : Nat → SocketTask Bool
  | 0 => pure false
  | attempts + 1 => do
      let locked : Bool ← access .lockWrite
      if locked then do
        let present : Bool ← access .takeWriteHalf
        if present then do
          let result ← writeHeld data
          match result with
          | .complete => return true
          | .failed => do
              checkDisconnect
              return false
          | .timedOut =>
              if attempts = 0 then do
                checkDisconnect
                return false
              else writeAttempts data attempts
        else do
          access .unlockWrite
          return false
      else writeAttempts data attempts

/-- `write_data`. -/
def writeData (data : List UInt8) : SocketTask Bool := do
  let gone : Bool ← access .loadDisconnecting
  if gone then return false else writeAttempts data 3

/-- One round of the read loop, up to the bytes it received; none ends the loop. -/
def readRound : SocketTask (Option ReadOutcome) := do
  let gone : Bool ← access .loadDisconnecting
  if gone then return none
  else do
    let present : Bool ← access .takeReadHalf
    if present then do
      let outcome : ReadOutcome ← access .read
      access .putReadHalf
      return some outcome
    else return none

/-- Close the halves of the socket. -/
def closeHalves : SocketTask Unit := do
  let found : Bool ← access .clearWriteHalf
  if found then access .spawnShutdown else pure ()
  let _ : Bool ← access .clearReadHalf
  return ()

/-- `disconnect`. -/
def disconnect : SocketTask Unit := do
  let already : Bool ← access .swapDisconnecting
  if already then pure ()
  else do
    access .announceDisconnect
    closeHalves

/-! ## The system -/

inductive SocketRequest where
  | writeData (data : List UInt8)
  | readRound
  | disconnect
deriving DecidableEq

inductive SocketResult where
  | wrote (delivered : Bool)
  | read (outcome : Option ReadOutcome)
  | disconnected
deriving DecidableEq

def socketProgram : SocketRequest → SocketTask SocketResult
  | .writeData data => do
      let delivered ← writeData data
      return .wrote delivered
  | .readRound => do
      let outcome ← readRound
      return .read outcome
  | .disconnect => do
      disconnect
      return .disconnected

/-- A connection from the moment its socket was split. -/
@[reducible] def socket : System where
  sig := socketSignature
  State := SocketState
  Env := SocketEnv
  initial := ⟨false, false, true, true, []⟩
  perform := fun op state env => some (performSocketOp state env op)
  Request := SocketRequest
  Result := SocketResult
  program := socketProgram

end StratumBridge
