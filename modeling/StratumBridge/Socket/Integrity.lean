import StratumBridge.Socket.Teardown

/-! # What a miner receives

Writers take turns at the socket, and each sends its message from the beginning. As long as no
attempt ends inside its message the miner receives one whole message after the other. The
writer that is cut off gives the half back, and what is sent next follows a torn message.
-/

namespace StratumBridge

open Interaction

/-! ## What a writer does -/

/-- The calls of a writer: its turns at the write half, what it sent, and how far into its
message an attempt ended. -/
inductive WriteCall where
  | took
  | put
  | sent (piece : List UInt8)
  | stopped (offset : Nat)
deriving DecidableEq

def writeCall : (op : SocketOp) → op.Answer → Option WriteCall
  | .takeWriteHalf, true => some .took
  | .clearWriteHalf, true => some .took
  | .putWriteHalf, _ => some .put
  | .poll data offset, .sent count => some (.sent ((data.drop offset).take count))
  | .poll _ offset, _ => some (.stopped offset)
  | _, _ => none

def WriteCall.turn : WriteCall → Option Bool
  | .took => some true
  | .put => some false
  | _ => none

def WriteCall.piece : WriteCall → List UInt8
  | .sent piece => piece
  | _ => []

/-- The bytes these calls sent. -/
def sentOf (calls : List WriteCall) : List UInt8 := calls.flatMap WriteCall.piece

/-- No attempt ended inside its message. -/
def Clean (calls : List WriteCall) : Prop := ∀ offset, .stopped offset ∈ calls → offset = 0

/-- The write half is in the hands of the task. -/
def Holding (calls : List WriteCall) : Prop :=
  (calls.filterMap WriteCall.turn).getLast? = some true

section Calls

variable {calls : List WriteCall} {call : WriteCall}

@[simp] theorem sentOf_snoc (calls : List WriteCall) (call : WriteCall) :
    sentOf (calls ++ [call]) = sentOf calls ++ call.piece := by
  rw [sentOf, List.flatMap_append, List.flatMap_singleton]
  rfl

theorem Clean.of_append {later : List WriteCall} (clean : Clean (calls ++ later)) : Clean calls :=
  fun offset member => clean offset (List.mem_append_left _ member)

/-- An attempt that ended is clean if it ended before anything was sent. -/
theorem Clean.offset {offset : Nat} (clean : Clean (calls ++ [.stopped offset])) : offset = 0 :=
  clean offset (List.mem_append_right _ List.mem_cons_self)

theorem holding_snoc {turn : Bool} (turns : call.turn = some turn) :
    Holding (calls ++ [call]) ↔ turn = true := by
  rw [Holding, List.filterMap_append, List.filterMap_cons_some turns, List.filterMap_nil,
    List.getLast?_concat, Option.some.injEq]

theorem Holding.snoc (holding : Holding calls) (idle : call.turn = none) :
    Holding (calls ++ [call]) := by
  rw [Holding, List.filterMap_append, List.filterMap_cons_none idle, List.filterMap_nil,
    List.append_nil]
  exact holding

end Calls

/-! ## Protocol -/

/-- A writer polls with the half in hand, continuing what it sent of its own message, and gives
the half back when it has sent all of it or nothing; unless it was cut off before. -/
def WritePermits (request : SocketRequest) (calls : List WriteCall) : SocketOp → Prop
  | .poll data offset => request = .writeData data ∧ Holding calls ∧
      (Clean calls → sentOf calls = data.take offset ∧ offset < data.length)
  | .putWriteHalf => ∀ data, request = .writeData data → Clean calls →
      sentOf calls = [] ∨ sentOf calls = data
  | _ => True

/-- A poll that sends anything sends at least one byte. -/
def Advances : (op : SocketOp) → op.Answer → Prop
  | .poll _ _, .sent count => 0 < count
  | _, _ => True

@[reducible] def writes : Protocol socketSignature SocketRequest WriteCall SocketResult where
  select := writeCall
  permits := WritePermits
  answers := Advances
  completes := fun _ _ _ => True

section Tasks

variable {calls : List WriteCall} {data : List UInt8}

/-- What a writer has sent when its attempt is over. -/
def AttemptOver (data : List UInt8) (calls : List WriteCall) : WriteResult → Prop
  | .complete => Clean calls → sentOf calls = data
  | _ => Clean calls → sentOf calls = []

theorem AttemptOver.returned {result : WriteResult} (ended : AttemptOver data calls result) :
    AttemptOver data (calls ++ [.put]) result := by
  have same : sentOf (calls ++ [.put]) = sentOf calls := by
    rw [sentOf_snoc]
    exact List.append_nil _
  cases result <;> exact fun clean => same.trans (ended clean.of_append)

theorem sentOf_of_stopped {offset : Nat}
    (sent : Clean calls → sentOf calls = data.take offset)
    (clean : Clean (calls ++ [.stopped offset])) : sentOf (calls ++ [.stopped offset]) = [] := by
  rw [sentOf_snoc, sent clean.of_append, clean.offset, List.take_zero]
  rfl

/-- The polls of an attempt. -/
theorem writeRest_writes {fuel offset : Nat} (holding : Holding calls)
    (sent : Clean calls → sentOf calls = data.take offset)
    (enough : data.length ≤ offset + fuel) :
    writes.Obeys (.writeData data) calls (writeRest data fuel offset) fun after result =>
      AttemptOver data after result := by
  induction fuel generalizing calls offset with
  | zero =>
      intro clean
      exact (sent clean).trans (List.take_of_length_le enough)
  | succ fuel ih =>
      rw [writeRest]
      by_cases finished : data.length ≤ offset
      · rw [if_pos finished]
        intro clean
        exact (sent clean).trans (List.take_of_length_le finished)
      · rw [if_neg finished]
        have unfinished : offset < data.length := Nat.lt_of_not_le finished
        refine ⟨⟨rfl, holding, fun clean => ⟨sent clean, unfinished⟩⟩, fun outcome moved => ?_⟩
        cases (outcome : PollOutcome) with
        | sent count =>
            have positive : 0 < count := moved
            refine ih (holding.snoc rfl) (fun clean => ?_) (by omega)
            have before := sent clean.of_append
            calc sentOf (calls ++ [.sent ((data.drop offset).take count)])
                = data.take offset ++ (data.drop offset).take count := by
                  rw [sentOf_snoc, before, WriteCall.piece]
              _ = data.take (offset + count) := List.take_add.symm
        | failed | timedOut => exact fun clean => sentOf_of_stopped sent clean

theorem writeHeld_writes (rests : Clean calls → sentOf calls = []) :
    writes.Obeys (.writeData data) (calls ++ [.took]) (writeHeld data) fun after result =>
      AttemptOver data after result := by
  have sent : Clean (calls ++ [.took]) → sentOf (calls ++ [.took]) = data.take 0 := by
    intro clean
    rw [sentOf_snoc, rests clean.of_append, List.take_zero]
    rfl
  have holding : Holding (calls ++ [.took]) := (holding_snoc rfl).mpr rfl
  refine (writeRest_writes holding sent (Nat.le_of_eq (Nat.zero_add _).symm)).bind
    fun after result ended => ?_
  have permitted : ∀ message, SocketRequest.writeData data = .writeData message → Clean after →
      sentOf after = [] ∨ sentOf after = message := by
    intro message same clean
    obtain rfl := SocketRequest.writeData.inj same
    cases result with
    | complete => exact .inr (ended clean)
    | failed | timedOut => exact .inl (ended clean)
  refine ⟨permitted, fun _ _ => ⟨trivial, fun _ _ => ?_⟩⟩
  exact (List.append_nil _).symm ▸ ended.returned

theorem checkDisconnect_writes : Program.Within writes.Ignores checkDisconnect := by
  refine ⟨⟨fun _ _ => trivial, fun gone => ?_⟩, fun gone => ?_⟩
  · cases (gone : Bool) <;> rfl
  · cases (gone : Bool) with
    | true => trivial
    | false => exact ⟨⟨fun _ _ => trivial, fun _ => rfl⟩, fun _ => trivial⟩

theorem writeAttempts_writes {attempts : Nat} (rests : Clean calls → sentOf calls = []) :
    writes.Obeys (.writeData data) calls (writeAttempts data attempts) fun _ _ => True := by
  induction attempts generalizing calls with
  | zero => trivial
  | succ attempts ih =>
      refine ⟨trivial, fun locked _ => ?_⟩
      rw [show calls ++ (writeCall .lockWrite locked).toList = calls from List.append_nil _]
      cases (locked : Bool) with
      | false => exact ih rests
      | true =>
          refine ⟨trivial, fun present _ => ?_⟩
          cases (present : Bool) with
          | false => exact ⟨trivial, fun _ _ => trivial⟩
          | true =>
              refine (writeHeld_writes rests).bind fun after result ended => ?_
              cases result with
              | complete => trivial
              | failed => exact Protocol.obeys_bind_of_within checkDisconnect_writes fun _ => trivial
              | timedOut =>
                  dsimp only
                  split
                  · exact Protocol.obeys_bind_of_within checkDisconnect_writes fun _ => trivial
                  · exact ih ended

theorem socketProgram_writes (request : SocketRequest) :
    writes.Obeys request [] (socketProgram request) fun _ _ => True := by
  cases request with
  | writeData data =>
      have wrote : writes.Obeys (.writeData data) [] (writeData data) fun _ _ => True := by
        refine ⟨trivial, fun gone _ => ?_⟩
        cases (gone : Bool) with
        | true => trivial
        | false => exact writeAttempts_writes fun _ => rfl
      exact wrote.bind fun _ _ _ => trivial
  | readRound =>
      refine ⟨trivial, fun gone _ => ?_⟩
      cases (gone : Bool) with
      | true => trivial
      | false =>
          refine ⟨trivial, fun present _ => ?_⟩
          cases (present : Bool) with
          | false => trivial
          | true => exact ⟨trivial, fun _ _ => ⟨trivial, fun _ _ => trivial⟩⟩
  | disconnect =>
      refine ⟨trivial, fun already _ => ?_⟩
      cases (already : Bool) with
      | true => trivial
      | false =>
          refine ⟨trivial, fun _ _ => ⟨trivial, fun found _ => ?_⟩⟩
          cases (found : Bool) with
          | true => exact ⟨trivial, fun _ _ => ⟨trivial, fun _ _ => trivial⟩⟩
          | false => exact ⟨trivial, fun _ _ => trivial⟩

end Tasks

theorem within_sent {outcome : PollOutcome} {remaining count : Nat}
    (sent : outcome.within remaining = .sent count) : 0 < count := by
  cases outcome with
  | sent amount =>
      cases sent
      exact Nat.le_max_left ..
  | failed | timedOut => exact nomatch sent

/-- **Writer protocol.** Every run is explained by it. -/
theorem writes_execute (events : List socket.Event) :
    System.Explained writes (System.execute events).log := by
  refine System.explained_execute socketProgram_writes events fun thread op answer member => ?_
  obtain ⟨front, back, split⟩ := List.append_of_mem member
  obtain ⟨before, event, rest, -, -, -, env, after, performed⟩ := System.exists_calls_of_did split
  cases op with
  | poll data offset =>
      have polled := (Prod.mk.inj (Option.some.inj performed)).1
      cases (answer : PollOutcome) with
      | sent count => exact within_sent polled
      | failed | timedOut => trivial
  | _ => trivial

/-! ## What has been sent -/

/-- The bytes a call puts on the wire. -/
def pieceOf (op : SocketOp) (answer : op.Answer) : List UInt8 :=
  ((writeCall op answer).map WriteCall.piece).getD []

/-- The bytes a task has sent. -/
def sentBy (thread : Nat) (log : List socket.Entry) : List UInt8 :=
  sentOf (System.ownCalls writeCall thread log)

/-- An attempt failed or ran out of time inside its message. -/
def CutOff (log : List socket.Entry) : Prop :=
  ∃ offset, 0 < offset ∧ .stopped offset ∈ System.callsOf writeCall log

/-- The task has sent its whole message. -/
def SentAll (log : List socket.Entry) (thread : Nat) : Prop :=
  .started thread (.writeData (sentBy thread log)) ∈ log

/-- The writers came to send in this order, and the wire has what each of them sent: the whole
message, save that the last may have sent only the beginning of its own. -/
structure SentInOrder (config : socket.Config) (order : List Nat) : Prop where
  nodup : order.Nodup
  wire : config.state.wire = (order.map fun thread => sentBy thread config.log).flatten
  begun : ∀ thread ∈ order, ∃ data, .started thread (.writeData data) ∈ config.log ∧
    sentBy thread config.log <+: data
  whole : ∀ thread ∈ order.dropLast, SentAll config.log thread

/-- **Wire integrity.** The miner was sent whole messages, each writer's once, and after them
at most one that was cut short. -/
def WireIntact (config : socket.Config) : Prop := ∃ order, SentInOrder config order

/-- Once an attempt was cut off, the socket takes no more bytes. -/
def DeadOnceCut (config : socket.Config) (event : socket.Event) : Prop :=
  ∀ thread env data offset next, event = .step thread env →
    config.running thread = some (.call (.poll data offset) next) →
      ∀ count, env.poll = .sent count → ¬CutOff config.log

section Log

variable {thread : Nat} {log : List socket.Entry} {entry : socket.Entry}

theorem clean_of_not_cutOff (uncut : ¬CutOff log) (thread : Nat) :
    Clean (System.ownCalls writeCall thread log) := by
  intro offset member
  by_contra inside
  obtain ⟨op, answer, inLog, chosen⟩ := System.mem_ownCalls.mp member
  exact uncut ⟨offset, Nat.pos_of_ne_zero inside,
    System.mem_callsOf.mpr ⟨thread, op, answer, inLog, chosen⟩⟩

theorem CutOff.snoc (cut : CutOff log) (entry : socket.Entry) : CutOff (log ++ [entry]) := by
  obtain ⟨offset, inside, member⟩ := cut
  refine ⟨offset, inside, ?_⟩
  rw [System.callsOf_append]
  exact List.mem_append_left _ member

theorem turnOf_write_eq_bind (op : SocketOp) (answer : op.Answer) :
    turnOf .write op answer = (writeCall op answer).bind WriteCall.turn := by
  cases op with
  | takeWriteHalf | clearWriteHalf | takeReadHalf | clearReadHalf =>
      cases (answer : Bool) <;> rfl
  | poll data offset => cases (answer : PollOutcome) <;> rfl
  | _ => rfl

theorem holding_iff_holds :
    Holding (System.ownCalls writeCall thread log) ↔ System.Holds (turnOf .write) thread log := by
  have turns : (turnOf .write : (op : SocketOp) → op.Answer → Option Bool) =
      fun op answer => (writeCall op answer).bind WriteCall.turn :=
    funext fun op => funext fun answer => turnOf_write_eq_bind op answer
  rw [System.Holds, turns, System.ownCalls_bind]
  exact Iff.rfl

theorem sentBy_snoc_of_silent (silent : System.ownCalls writeCall thread [entry] = []) :
    sentBy thread (log ++ [entry]) = sentBy thread log := by
  rw [sentBy, System.ownCalls_append, silent, List.append_nil]
  rfl

theorem sentBy_snoc_did (op : SocketOp) (answer : op.Answer) :
    sentBy thread (log ++ [.did thread op answer]) = sentBy thread log ++ pieceOf op answer := by
  have own : @System.ownCalls socket _ writeCall thread [.did thread op answer] =
      (writeCall op answer).toList := System.ownCalls_did ..
  rw [sentBy, System.ownCalls_append, own, sentOf, List.flatMap_append, pieceOf]
  cases writeCall op answer with
  | none => rfl
  | some call =>
      rw [Option.toList_some, List.flatMap_singleton]
      rfl

theorem sentBy_snoc_other {other : Nat} (different : other ≠ thread) (op : SocketOp)
    (answer : op.Answer) :
    sentBy thread (log ++ [.did other op answer]) = sentBy thread log := by
  refine sentBy_snoc_of_silent ?_
  exact @System.ownCalls_did_other socket _ writeCall thread other different op answer

/-- A call puts on the wire what its task sent. -/
theorem wire_perform {state after : SocketState} {env : SocketEnv} {op : SocketOp}
    {answer : op.Answer} (performed : socket.perform op state env = some (answer, after)) :
    after.wire = state.wire ++ pieceOf op answer := by
  cases op with
  | poll data offset =>
      cases performed
      cases polled : env.poll.within (data.length - offset) <;> rfl
  | takeWriteHalf | clearWriteHalf =>
      cases performed
      cases found : state.writeHalf <;> exact (List.append_nil _).symm
  | _ =>
      cases performed
      exact (List.append_nil _).symm

theorem op_of_returned {op : SocketOp} {answer : op.Answer}
    (returned : turnOf .write op answer = some false) : op = .putWriteHalf := by
  cases op with
  | putWriteHalf => rfl
  | takeWriteHalf | clearWriteHalf | takeReadHalf | clearReadHalf =>
      cases (answer : Bool) <;> exact nomatch returned
  | _ => exact nomatch returned

/-- Only a poll that sent something puts anything on the wire. -/
theorem exists_sent_of_pieceOf {op : SocketOp} {answer : op.Answer} (something : pieceOf op answer ≠ [])
    {state after : SocketState} {env : SocketEnv}
    (performed : socket.perform op state env = some (answer, after)) :
    ∃ data offset amount, op = .poll data offset ∧ env.poll = .sent amount := by
  cases op with
  | poll data offset =>
      cases polled : env.poll with
      | sent amount => exact ⟨data, offset, amount, rfl, rfl⟩
      | failed | timedOut =>
          have replied := (Prod.mk.inj (Option.some.inj performed)).1
          rw [polled] at replied
          exact absurd (replied ▸ rfl) something
  | takeWriteHalf | clearWriteHalf => cases (answer : Bool) <;> exact absurd rfl something
  | _ => exact absurd rfl something

end Log

/-- What is known of the wire after a run: who has sent anything is in the order, and while no
attempt was cut off, who has not sent all of its message has the write half. -/
structure WireAccount (config : socket.Config) (order : List Nat) : Prop
    extends SentInOrder config order where
  mem_iff : ∀ thread, thread ∈ order ↔ sentBy thread config.log ≠ []
  holds : ¬CutOff config.log → ∀ thread ∈ order, SentAll config.log thread ∨
    System.Holds (turnOf .write) thread config.log

/-- A step that sends nothing. -/
theorem WireAccount.quiet {config after : socket.Config} {order : List Nat} {entry : socket.Entry}
    (accounted : WireAccount config order) (log : after.log = config.log ++ [entry])
    (wire : after.state.wire = config.state.wire)
    (sent : ∀ thread, sentBy thread after.log = sentBy thread config.log)
    (holds : ¬CutOff after.log → ∀ thread, System.Holds (turnOf .write) thread config.log →
      thread ∈ order → SentAll config.log thread ∨
        System.Holds (turnOf .write) thread after.log) :
    WireAccount after order := by
  have kept : ∀ {item}, item ∈ config.log → item ∈ after.log :=
    fun member => log ▸ List.mem_append_left _ member
  have sentAll : ∀ {thread}, SentAll config.log thread → SentAll after.log thread := by
    intro thread all
    rw [SentAll, sent]
    exact kept all
  refine ⟨⟨accounted.nodup, ?_, ?_, ?_⟩, ?_, ?_⟩
  · simp only [wire, accounted.wire, sent]
  · intro thread member
    obtain ⟨data, started, begins⟩ := accounted.begun thread member
    exact ⟨data, kept started, (sent thread).symm ▸ begins⟩
  · exact fun thread member => sentAll (accounted.whole thread member)
  · intro thread
    rw [sent]
    exact accounted.mem_iff thread
  · intro uncut thread member
    have before : ¬CutOff config.log := fun cut => uncut (log ▸ cut.snoc entry)
    rcases accounted.holds before thread member with all | had
    · exact .inl (sentAll all)
    · exact (holds uncut thread had member).imp_left sentAll

section Polled

variable {config after : socket.Config} {order : List Nat} {caller : Nat}

/-- The writer that polls comes last, now if not before. -/
theorem WireAccount.exists_front (accounted : WireAccount config order)
    (unfinished : ¬SentAll config.log caller) :
    ∃ front : List Nat, caller ∉ front ∧ front.Nodup ∧
      config.state.wire =
        (front.map fun thread => sentBy thread config.log).flatten ++ sentBy caller config.log ∧
      ∀ thread, thread ≠ caller → (thread ∈ front ↔ thread ∈ order) := by
  by_cases came : caller ∈ order
  · have last : order.dropLast ++ [order.getLast (List.ne_nil_of_mem came)] = order :=
      List.dropLast_append_getLast _
    have early : caller ∉ order.dropLast := fun member => unfinished (accounted.whole _ member)
    have same : caller = order.getLast (List.ne_nil_of_mem came) := by
      rw [← last] at came
      exact (List.mem_append.mp came).resolve_left early |> List.mem_singleton.mp
    rw [← same] at last
    refine ⟨order.dropLast, early, accounted.nodup.sublist (List.dropLast_sublist _), ?_, ?_⟩
    · rw [accounted.wire]
      conv_lhs => rw [← last]
      rw [List.map_append, List.flatten_append, List.map_singleton, List.flatten_singleton]
    · intro thread different
      conv_rhs => rw [← last]
      rw [List.mem_append, List.mem_singleton, or_iff_left different]
  · have nothing : sentBy caller config.log = [] := by
      by_contra sent
      exact came ((accounted.mem_iff caller).mpr sent)
    refine ⟨order, came, accounted.nodup, ?_, fun _ _ => Iff.rfl⟩
    rw [nothing, List.append_nil]
    exact accounted.wire

/-- A poll that sends the next bytes of a message. -/
theorem WireAccount.polled {offset count : Nat} {data : List UInt8}
    (accounted : WireAccount config order)
    (log : after.log = config.log ++ [.did caller (.poll data offset) (.sent count)])
    (wire : after.state.wire = config.state.wire ++ (data.drop offset).take count)
    (started : .started caller (.writeData data) ∈ config.log)
    (sent : sentBy caller config.log = data.take offset) (inside : offset < data.length)
    (positive : 0 < count) (unfinished : ¬SentAll config.log caller)
    (rest : ∀ thread ∈ order, thread ≠ caller → SentAll config.log thread)
    (holds : System.Holds (turnOf .write) caller after.log) : ∃ order, WireAccount after order := by
  have kept : ∀ {item}, item ∈ config.log → item ∈ after.log :=
    fun member => log ▸ List.mem_append_left _ member
  have others : ∀ thread, thread ≠ caller →
      sentBy thread after.log = sentBy thread config.log := by
    intro thread different
    rw [log]
    exact sentBy_snoc_other (Ne.symm different) _ _
  have own : sentBy caller after.log =
      sentBy caller config.log ++ (data.drop offset).take count := by
    rw [log]
    exact sentBy_snoc_did (.poll data offset) (.sent count)
  have begins : sentBy caller after.log = data.take (offset + count) := by
    rw [own, sent]
    exact List.take_add.symm
  have something : sentBy caller after.log ≠ [] := by
    rw [begins, ← List.length_pos_iff, List.length_take]
    omega
  obtain ⟨front, absent, nodup, earlier, mem_iff⟩ := accounted.exists_front unfinished
  have different : ∀ thread ∈ front, thread ≠ caller :=
    fun thread member same => absent (same ▸ member)
  have sentAll : ∀ thread ∈ front, SentAll after.log thread := by
    intro thread member
    have all := rest thread ((mem_iff thread (different thread member)).mp member)
      (different thread member)
    rw [SentAll, others thread (different thread member)]
    exact kept all
  refine ⟨front ++ [caller], ⟨?_, ?_, ?_, ?_⟩, ?_, ?_⟩
  · exact nodup.append (List.nodup_singleton _) (List.disjoint_singleton.mpr absent)
  · have same : (front.map fun thread => sentBy thread after.log) =
        front.map fun thread => sentBy thread config.log :=
      List.map_congr_left fun thread member => others thread (different thread member)
    rw [wire, earlier, List.map_append, List.flatten_append, List.map_singleton,
      List.flatten_singleton, same, own, List.append_assoc]
  · intro thread member
    rcases List.mem_append.mp member with early | last
    · exact ⟨_, sentAll thread early, List.prefix_refl _⟩
    · obtain rfl := List.mem_singleton.mp last
      exact ⟨data, kept started, begins ▸ List.take_prefix _ _⟩
  · intro thread member
    rw [List.dropLast_concat] at member
    exact sentAll thread member
  · intro thread
    by_cases same : thread = caller
    · subst same
      exact iff_of_true (List.mem_append_right _ List.mem_cons_self) something
    · rw [List.mem_append, List.mem_singleton, or_iff_left same, mem_iff thread same,
        others thread same]
      exact accounted.mem_iff thread
  · intro _ thread member
    rcases List.mem_append.mp member with early | last
    · exact .inl (sentAll thread early)
    · exact .inr (List.mem_singleton.mp last ▸ holds)

end Polled

/-- **Accounting.** As long as the socket takes nothing once an attempt was cut off, what is on
the wire is accounted for. -/
theorem wireAccount_execute {events : List socket.Event}
    (dead : System.Along DeadOnceCut events) : ∃ order, WireAccount (System.execute events) order := by
  induction events using List.reverseRecOn with
  | nil =>
      refine ⟨[], ⟨List.nodup_nil, rfl, fun _ => nofun, fun _ => nofun⟩, fun thread => ?_,
        fun _ _ => nofun⟩
      exact ⟨fun member => absurd member List.not_mem_nil, fun sent => absurd rfl sent⟩
  | append_singleton events event ih =>
      obtain ⟨before, last⟩ := System.along_snoc.mp dead
      obtain ⟨order, accounted⟩ := ih before
      have explained := writes_execute (events ++ [event])
      have exclusive := (halfLock .write).exclusive events (halves_disciplined .write events)
      have unique : ∀ thread request other, .started thread request ∈ (System.execute events).log →
          .started thread other ∈ (System.execute events).log → request = other :=
        fun _ _ _ => System.started_unique
      rw [System.execute_snoc] at explained ⊢
      have step := System.advance_cases (System.execute events) event
      revert last explained step
      generalize (System.execute events).advance event = after
      generalize System.execute events = config at accounted exclusive unique
      intro last explained step
      cases step with
      | stutter => exact ⟨order, accounted⟩
      | start | finish =>
          refine ⟨order, accounted.quiet rfl rfl (fun thread => sentBy_snoc_of_silent rfl)
            fun _ thread had _ => .inr ((System.holds_snoc_iff rfl).mpr had)⟩
      | call caller env op next answer state running performed =>
          obtain ⟨request, started, permitted⟩ := explained.calls _ _ _ _ [] rfl
          have sent : ∀ thread, pieceOf op answer = [] →
              sentBy thread (config.log ++ [.did caller op answer]) = sentBy thread config.log := by
            intro thread silent
            by_cases same : caller = thread
            · subst same
              rw [sentBy_snoc_did, silent, List.append_nil]
            · exact sentBy_snoc_other same op answer
          have wire := wire_perform performed
          by_cases silent : pieceOf op answer = []
          · rw [silent, List.append_nil] at wire
            refine ⟨order, accounted.quiet rfl wire (fun thread => sent thread silent) ?_⟩
            intro uncut thread had came
            have before : ¬CutOff config.log := fun cut => uncut (cut.snoc _)
            by_cases same : thread = caller
            · subst same
              cases turns : turnOf .write op answer with
              | none =>
                  refine .inr ((System.holds_snoc_iff ?_).mpr had)
                  rw [System.ownCalls_did, turns, Option.toList_none]
              | some turn =>
                  cases turn with
                  | true => exact .inr ((System.holds_snoc_did turns).mpr rfl)
                  | false =>
                      obtain ⟨data, begun, -⟩ := accounted.begun thread came
                      obtain rfl := unique _ _ _ started begun
                      obtain rfl := op_of_returned turns
                      have sent := permitted data rfl (clean_of_not_cutOff before thread)
                      have nonempty := (accounted.mem_iff thread).mp came
                      refine .inl ?_
                      rw [SentAll, sentBy, sent.resolve_left nonempty]
                      exact begun
            · exact .inr ((System.holds_snoc_iff
                (System.ownCalls_did_other (Ne.symm same) op answer)).mpr had)
          · obtain ⟨data, offset, amount, rfl, took⟩ := exists_sent_of_pieceOf silent performed
            have uncut := last caller env data offset next rfl running amount took
            obtain ⟨rfl, holding, continues⟩ := permitted
            obtain ⟨begins, inside⟩ := continues (clean_of_not_cutOff uncut caller)
            have holds := holding_iff_holds.mp holding
            have unfinished : ¬SentAll config.log caller := by
              intro all
              have whole := SocketRequest.writeData.inj (unique _ _ _ started all)
              have short : (sentBy caller config.log).length ≤ offset := by
                rw [sentBy, begins, List.length_take]
                exact Nat.min_le_left ..
              rw [← whole] at short
              omega
            have rest : ∀ thread ∈ order, thread ≠ caller → SentAll config.log thread := by
              intro thread member different
              refine (accounted.holds uncut thread member).resolve_right fun other => ?_
              exact different (exclusive.1 thread caller other holds)
            cases (answer : PollOutcome) with
            | failed | timedOut => exact absurd rfl silent
            | sent count =>
                have polled := (Prod.mk.inj (Option.some.inj performed)).1
                refine accounted.polled rfl wire started begins inside (within_sent polled)
                  unfinished rest ?_
                refine (System.holds_snoc_iff ?_).mpr holds
                rw [System.ownCalls_did]
                rfl

/-- **Wire integrity.** In every run in which the socket takes no more bytes once an attempt was
cut off, the miner was sent whole messages and at most one truncated message after them. -/
theorem wire_intact {events : List socket.Event} (dead : System.Along DeadOnceCut events) :
    WireIntact (System.execute events) := by
  obtain ⟨order, accounted⟩ := wireAccount_execute dead
  exact ⟨order, accounted.toSentInOrder⟩

/-! ## Runs -/

/-- What `CutOff` says of a call. -/
def cutsOff : WriteCall → Bool
  | .stopped offset => 0 < offset
  | _ => false

/-- What `DeadOnceCut` checks of an event. -/
def deadOnceCut (config : socket.Config) : socket.Event → Bool
  | .start _ => true
  | .step thread env =>
      match config.running thread, env.poll with
      | some (.call (.poll _ _) _), .sent _ => !(System.callsOf writeCall config.log).any cutsOff
      | _, _ => true

theorem deadOnceCut_sound (config : socket.Config) (event : socket.Event)
    (passes : deadOnceCut config event = true) : DeadOnceCut config event := by
  rintro thread env data offset next rfl running count took ⟨inside, positive, member⟩
  simp only [deadOnceCut, running, took, Bool.not_eq_true', List.any_eq_false] at passes
  exact passes _ member (decide_eq_true positive)

namespace Sample

/-- Two writers at once. The first sends its message in two pieces, and the second waits. -/
def takesTurns : List socket.Event :=
  .start (.writeData [0x5B, 0x0A]) :: turns 0 3 {} ++ .start (.writeData [0x7B, 0x0A]) ::
    (turns 0 1 { poll := .sent 1 } ++ turns 1 2 {} ++ turns 0 1 { poll := .sent 1 } ++
      turns 0 3 {} ++ turns 1 2 {} ++ turns 1 1 { poll := .sent 1 } ++ turns 1 1 {})

theorem wire_intact_sample :
    WireIntact (System.execute takesTurns) ∧
      (System.execute takesTurns).state.wire = [0x5B, 0x0A, 0x7B] := by
  refine ⟨wire_intact (System.along_of_check deadOnceCut_sound ?_), ?_⟩
  · decide +kernel
  · decide +kernel

/-- The socket takes one byte of a message and no more in time. The writer tries again. -/
def triesAgain : List socket.Event :=
  .start (.writeData [0x7B, 0x0A]) :: (turns 0 3 {} ++ turns 0 1 { poll := .sent 1 } ++
    turns 0 1 { poll := .timedOut } ++ turns 0 4 {} ++ turns 0 1 { poll := .sent 2 } ++ turns 0 3 {})

/-- The message is sent again after its own beginning. -/
theorem wire_torn :
    (System.execute triesAgain).state.wire = [0x7B, 0x7B, 0x0A] ∧
      ¬WireIntact (System.execute triesAgain) := by
  have wire : (System.execute triesAgain).state.wire = [0x7B, 0x7B, 0x0A] := by decide +kernel
  refine ⟨wire, fun ⟨order, inOrder⟩ => ?_⟩
  have first : .started 0 (.writeData [0x7B, 0x0A]) ∈ (System.execute triesAgain).log := by
    obtain ⟨back, log⟩ := @System.log_of_start socket [] (turns 0 3 {} ++
      turns 0 1 { poll := .sent 1 } ++ turns 0 1 { poll := .timedOut } ++ turns 0 4 {} ++
        turns 0 1 { poll := .sent 2 } ++ turns 0 3 {}) (.writeData [0x7B, 0x0A])
    exact log ▸ List.mem_append_right _ List.mem_cons_self
  have only : ∀ thread ∈ order, thread = 0 ∧
      (sentBy thread (System.execute triesAgain).log).length ≤ 2 := by
    intro thread member
    obtain ⟨data, started, begins⟩ := inOrder.begun thread member
    have counted : (System.execute triesAgain).count = 1 := by decide +kernel
    obtain rfl : thread = 0 := Nat.lt_one_iff.mp (counted ▸ System.lt_count_of_started started)
    obtain rfl := SocketRequest.writeData.inj (System.started_unique first started)
    exact ⟨rfl, begins.length_le⟩
  have sum := wire.symm.trans inOrder.wire
  have nodup := inOrder.nodup
  match order with
  | [] => exact nomatch sum
  | [thread] =>
      have short := (only thread List.mem_cons_self).2
      rw [List.map_singleton, List.flatten_singleton] at sum
      rw [← sum] at short
      exact absurd short (by decide)
  | thread :: other :: rest =>
      have same := (only thread List.mem_cons_self).1.trans
        (only other (List.mem_cons_of_mem _ List.mem_cons_self)).1.symm
      exact (List.nodup_cons.mp nodup).1 (same ▸ List.mem_cons_self)

end Sample

end StratumBridge
