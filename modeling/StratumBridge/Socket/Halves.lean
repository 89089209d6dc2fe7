import StratumBridge.Interaction.Balance
import StratumBridge.Interaction.Lock
import StratumBridge.Socket.Socket

/-! # The halves of a socket

A half is in the connection or in the hands of one task. Writers and the read loop give back
what they took; a disconnect keeps it.
-/

namespace StratumBridge

open Interaction

inductive Half where
  | read
  | write
deriving DecidableEq

def SocketState.present (state : SocketState) : Half → Bool
  | .read => state.readHalf
  | .write => state.writeHalf

/-- What a task does with the halves, and the steps of a disconnect. -/
inductive HalfCall where
  | took (half : Half)
  | put (half : Half)
  | swapped (already : Bool)
  | announced
  | cleared (half : Half) (found : Bool)
  | shutDown
deriving DecidableEq

def halfCall : (op : SocketOp) → op.Answer → Option HalfCall
  | .takeWriteHalf, true => some (.took .write)
  | .putWriteHalf, _ => some (.put .write)
  | .takeReadHalf, true => some (.took .read)
  | .putReadHalf, _ => some (.put .read)
  | .swapDisconnecting, already => some (.swapped already)
  | .announceDisconnect, _ => some .announced
  | .clearWriteHalf, found => some (.cleared .write found)
  | .spawnShutdown, _ => some .shutDown
  | .clearReadHalf, found => some (.cleared .read found)
  | _, _ => none

/-- A call takes the half out of the connection, or puts it back. -/
def HalfCall.turn (half : Half) : HalfCall → Option Bool
  | .took other => if other = half then some true else none
  | .put other => if other = half then some false else none
  | .cleared other true => if other = half then some true else none
  | _ => none

/-- The calls of a disconnect up to the closed write half. -/
def closing (found : Bool) : List HalfCall :=
  [.swapped false, .announced, .cleared .write found] ++ if found then [.shutDown] else []

/-- The task only takes this half and puts it back. -/
def Borrows (half : Half) (calls : List HalfCall) : Prop :=
  ∀ call ∈ calls, call = .took half ∨ call = .put half

/-- A half is put back by the task that took it, and a disconnect goes through its steps. -/
def HalfPermits (calls : List HalfCall) : SocketOp → Prop
  | .putWriteHalf => calls.getLast? = some (.took .write)
  | .putReadHalf => calls.getLast? = some (.took .read)
  | .takeWriteHalf => Borrows .write calls
  | .takeReadHalf => Borrows .read calls
  | .swapDisconnecting => calls = []
  | .announceDisconnect => calls = [.swapped false]
  | .clearWriteHalf => calls = [.swapped false, .announced]
  | .spawnShutdown => calls = [.swapped false, .announced, .cleared .write true]
  | .clearReadHalf => ∃ found, calls = closing found
  | _ => True

def HalfCompletes (calls : List HalfCall) : SocketRequest → Prop
  | .writeData _ => Borrows .write calls ∧ calls.getLast? ≠ some (.took .write)
  | .readRound => Borrows .read calls ∧ calls.getLast? ≠ some (.took .read)
  | .disconnect => calls = [.swapped true] ∨
      ∃ found last, calls = closing found ++ [.cleared .read last]

@[reducible] def halves : Protocol socketSignature SocketRequest HalfCall SocketResult where
  select := halfCall
  permits := fun _ => HalfPermits
  answers := fun _ _ => True
  completes := fun request calls _ => HalfCompletes calls request

/-! ## The tasks -/

section Tasks

variable {request : SocketRequest} {calls : List HalfCall}

theorem writeRest_within (data : List UInt8) (fuel offset : Nat) :
    Program.Within halves.Ignores (writeRest data fuel offset) := by
  induction fuel generalizing offset with
  | zero => trivial
  | succ fuel ih =>
      rw [writeRest]
      split
      · trivial
      · refine ⟨⟨fun _ _ => trivial, fun _ => rfl⟩, fun outcome => ?_⟩
        cases (outcome : PollOutcome) with
        | sent count => exact ih _
        | failed | timedOut => trivial

theorem checkDisconnect_within : Program.Within halves.Ignores checkDisconnect := by
  refine ⟨⟨fun _ _ => trivial, fun _ => rfl⟩, fun gone => ?_⟩
  cases (gone : Bool) with
  | true => trivial
  | false => exact ⟨⟨fun _ _ => trivial, fun _ => rfl⟩, fun _ => trivial⟩

/-- Between attempts a writer holds nothing. -/
def Lends (half : Half) (calls : List HalfCall) : Prop :=
  Borrows half calls ∧ calls.getLast? ≠ some (.took half)

theorem Borrows.snoc {half : Half} (borrows : Borrows half calls) {call : HalfCall}
    (own : call = .took half ∨ call = .put half) : Borrows half (calls ++ [call]) := by
  intro other member
  rcases List.mem_append.mp member with earlier | last
  · exact borrows other earlier
  · exact List.mem_singleton.mp last ▸ own

theorem Lends.snoc_put {half : Half} (borrows : Borrows half calls) :
    Lends half (calls ++ [.put half]) := by
  refine ⟨borrows.snoc (.inr rfl), ?_⟩
  rw [List.getLast?_concat]
  exact fun absurdity => nomatch absurdity

theorem writeHeld_halves (borrows : Borrows .write calls) (data : List UInt8) :
    halves.Obeys request (calls ++ [.took .write]) (writeHeld data) fun after _ =>
      Lends .write after := by
  refine Protocol.obeys_bind_of_within (writeRest_within data _ _) fun result => ?_
  refine ⟨List.getLast?_concat, fun _ _ => ⟨trivial, fun _ _ => ?_⟩⟩
  have returned : Lends .write (calls ++ [.took .write] ++ [.put .write]) :=
    Lends.snoc_put (borrows.snoc (.inl rfl))
  exact (List.append_nil _).symm ▸ returned

theorem writeAttempts_halves (lends : Lends .write calls) (data : List UInt8) (attempts : Nat) :
    halves.Obeys request calls (writeAttempts data attempts) fun after _ =>
      Lends .write after := by
  induction attempts generalizing calls with
  | zero => exact lends
  | succ attempts ih =>
      refine ⟨trivial, fun locked _ => ?_⟩
      rw [show calls ++ (halfCall .lockWrite locked).toList = calls from List.append_nil _]
      cases (locked : Bool) with
      | false => exact ih lends
      | true =>
          refine ⟨lends.1, fun present _ => ?_⟩
          cases (present : Bool) with
          | false =>
              refine ⟨trivial, fun _ _ => ?_⟩
              have kept : Lends .write (calls ++ [] ++ []) := by
                rw [List.append_nil, List.append_nil]
                exact lends
              exact kept
          | true =>
              refine (writeHeld_halves lends.1 data).bind fun after result lends => ?_
              cases result with
              | complete => exact lends
              | failed =>
                  exact Protocol.obeys_bind_of_within checkDisconnect_within fun _ => lends
              | timedOut =>
                  dsimp only
                  split
                  · exact Protocol.obeys_bind_of_within checkDisconnect_within fun _ => lends
                  · exact ih lends

theorem writeData_halves (data : List UInt8) :
    halves.Obeys request [] (writeData data) fun after _ => Lends .write after := by
  have none : Lends .write [] := ⟨fun _ => nofun, nofun⟩
  refine ⟨trivial, fun gone _ => ?_⟩
  cases (gone : Bool) with
  | true => exact none
  | false => exact writeAttempts_halves none data 3

theorem readRound_halves :
    halves.Obeys request [] readRound fun after _ => Lends .read after := by
  have none : Lends .read [] := ⟨fun _ => nofun, nofun⟩
  refine ⟨trivial, fun gone _ => ?_⟩
  cases (gone : Bool) with
  | true => exact none
  | false =>
      refine ⟨none.1, fun present _ => ?_⟩
      cases (present : Bool) with
      | false => exact none
      | true =>
          refine ⟨trivial, fun _ _ => ⟨rfl, fun _ _ => ?_⟩⟩
          have took : Borrows .read [.took .read] := by
            intro call member
            exact .inl (List.mem_singleton.mp member)
          exact Lends.snoc_put took

theorem disconnect_halves :
    halves.Obeys request [] disconnect fun after _ => HalfCompletes after .disconnect := by
  refine ⟨rfl, fun already _ => ?_⟩
  cases (already : Bool) with
  | true => exact .inl rfl
  | false =>
      refine ⟨rfl, fun _ _ => ⟨rfl, fun found _ => ?_⟩⟩
      cases (found : Bool) with
      | true => exact ⟨rfl, fun _ _ => ⟨⟨true, rfl⟩, fun last _ => .inr ⟨true, last, rfl⟩⟩⟩
      | false => exact ⟨⟨false, rfl⟩, fun last _ => .inr ⟨false, last, rfl⟩⟩

theorem socketProgram_halves (request : SocketRequest) :
    halves.Obeys request [] (socketProgram request) fun after _ =>
      HalfCompletes after request := by
  cases request with
  | writeData data => exact (writeData_halves data).bind fun _ _ lends => lends
  | readRound => exact readRound_halves.bind fun _ _ lends => lends
  | disconnect => exact disconnect_halves.bind fun _ _ completes => completes

end Tasks

/-- **Half protocol.** Every run is explained by it. -/
theorem halves_execute (events : List socket.Event) :
    System.Explained halves (System.execute events).log :=
  System.explained_execute socketProgram_halves events fun _ _ _ _ => trivial

end StratumBridge
