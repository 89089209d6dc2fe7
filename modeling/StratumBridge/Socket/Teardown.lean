import StratumBridge.Socket.Halves

/-! # Tearing a connection down

A disconnect clears both halves, once. A half that a task holds at that moment is not there to
be cleared, and the task puts it back afterwards.
-/

namespace StratumBridge

open Interaction

variable {half : Half} {events : List socket.Event}

/-! ## Who has a half -/

/-- The turns at a half: taking it out of the connection, and putting it back. -/
def turnOf (half : Half) (op : SocketOp) (answer : op.Answer) : Option Bool :=
  (halfCall op answer).bind (HalfCall.turn half)

/-- A half is where the last turn left it, and is taken only from the connection. -/
theorem present_perform {state after : SocketState} {env : SocketEnv} {op : SocketOp}
    {answer : op.Answer} (performed : socket.perform op state env = some (answer, after)) :
    after.present half = ((turnOf half op answer).map (!·)).getD (state.present half) ∧
      (turnOf half op answer = some true → state.present half = true) := by
  cases op with
  | takeWriteHalf | clearWriteHalf =>
      cases performed
      cases half with
      | read => cases state.writeHalf <;> exact ⟨rfl, nofun⟩
      | write =>
          cases found : state.writeHalf with
          | true => exact ⟨rfl, fun _ => found⟩
          | false => exact ⟨found.symm, nofun⟩
  | takeReadHalf | clearReadHalf =>
      cases performed
      cases half with
      | write => cases state.readHalf <;> exact ⟨rfl, nofun⟩
      | read =>
          cases found : state.readHalf with
          | true => exact ⟨rfl, fun _ => found⟩
          | false => exact ⟨found.symm, nofun⟩
  | _ =>
      cases performed
      cases half <;> exact ⟨rfl, nofun⟩

theorem halfLock (half : Half) :
    @System.Lock socket (fun state : SocketState => !state.present half) (turnOf half) where
  taken := by
    intro op state env answer after performed taken
    obtain ⟨moved, held⟩ := @present_perform half _ _ _ _ _ performed
    rw [taken] at moved
    exact ⟨congrArg (!·) (held taken), congrArg (!·) moved⟩
  kept := by
    intro op state env answer after performed idle
    obtain ⟨moved, -⟩ := @present_perform half _ _ _ _ _ performed
    rw [idle] at moved
    exact congrArg (!·) moved

theorem ownCalls_turnOf (thread : Nat) (log : List socket.Entry) :
    System.ownCalls (turnOf half) thread log =
      (System.ownCalls halfCall thread log).filterMap (HalfCall.turn half) :=
  System.ownCalls_bind (HalfCall.turn half) log

/-- The last call of a task decides whether it holds a half, if it is a turn. -/
theorem holds_of_getLast? {thread : Nat} {log : List socket.Entry} {call : HalfCall}
    (last : (System.ownCalls halfCall thread log).getLast? = some call)
    (takes : call.turn half = some true) : System.Holds (turnOf half) thread log := by
  obtain ⟨front, same⟩ := List.getLast?_eq_some_iff.mp last
  rw [System.Holds, ownCalls_turnOf, same, List.filterMap_append, List.filterMap_cons_some takes]
  exact List.getLast?_concat

theorem halves_disciplined (half : Half) (events : List socket.Event) :
    System.Disciplined (turnOf half) (System.execute events).log := by
  intro front thread op answer back split returned
  obtain ⟨request, -, permitted⟩ := (halves_execute events).calls _ _ _ _ _ split
  have takes : (HalfCall.took half).turn half = some true := if_pos rfl
  have puts : ∀ {other : Half}, (HalfCall.put other).turn half = some false → other = half := by
    intro other put
    by_contra different
    exact nomatch (if_neg different).symm.trans put
  cases op with
  | putWriteHalf =>
      obtain rfl := puts returned
      exact holds_of_getLast? permitted takes
  | putReadHalf =>
      obtain rfl := puts returned
      exact holds_of_getLast? permitted takes
  | takeWriteHalf | takeReadHalf | clearWriteHalf | clearReadHalf =>
      cases (answer : Bool) <;> cases half <;> exact nomatch returned
  | _ => exact nomatch returned

/-! ## Who closes -/

/-- The swap that found the connection open. -/
def swapTurn : (op : SocketOp) → op.Answer → Option Bool
  | .swapDisconnecting, false => some true
  | _, _ => none

theorem swapLock :
    @System.Lock socket (fun state : SocketState => state.disconnecting) swapTurn where
  taken := by
    intro op state env answer after performed taken
    cases op with
    | swapDisconnecting =>
        cases performed
        cases found : state.disconnecting with
        | false => exact ⟨rfl, rfl⟩
        | true =>
            rw [found] at taken
            exact nomatch taken
    | _ => exact nomatch taken
  kept := by
    intro op state env answer after performed idle
    cases op with
    | swapDisconnecting =>
        cases performed
        cases found : state.disconnecting with
        | true => rfl
        | false =>
            rw [found] at idle
            exact nomatch idle
    | _ =>
        cases performed
        rfl

theorem swapTurn_eq_some {op : SocketOp} {answer : op.Answer} {turn : Bool}
    (swapped : swapTurn op answer = some turn) :
    turn = true ∧ halfCall op answer = some (.swapped false) := by
  unfold swapTurn at swapped
  split at swapped
  · exact ⟨(Option.some.inj swapped).symm, rfl⟩
  · exact nomatch swapped

/-- The task found the connection open when it came to disconnect it. -/
def Disconnects (log : List socket.Entry) (thread : Nat) : Prop :=
  .swapped false ∈ System.ownCalls halfCall thread log

theorem disconnects_iff_holds {thread : Nat} {log : List socket.Entry} :
    Disconnects log thread ↔ System.Holds swapTurn thread log := by
  have only : ∀ turn ∈ System.ownCalls swapTurn thread log, turn = true ∧ Disconnects log thread := by
    intro turn member
    obtain ⟨op, answer, inLog, chosen⟩ := System.mem_ownCalls.mp member
    obtain ⟨taken, recorded⟩ := swapTurn_eq_some chosen
    exact ⟨taken, System.mem_ownCalls.mpr ⟨op, answer, inLog, recorded⟩⟩
  constructor
  · intro closes
    obtain ⟨op, answer, inLog, chosen⟩ := System.mem_ownCalls.mp closes
    have swapped : swapTurn op answer = some true := by
      unfold halfCall at chosen
      split at chosen <;> cases chosen
      rfl
    have member := System.mem_ownCalls.mpr ⟨op, answer, inLog, swapped⟩
    have last := List.getLast?_eq_some_getLast (List.ne_nil_of_mem member)
    rw [System.Holds, last, (only _ (List.getLast_mem _)).1]
  · intro holds
    exact (only true (List.mem_of_getLast? holds)).2

/-- **One disconnect.** At most one task finds the connection open. -/
theorem disconnects_unique {thread other : Nat} (first : Disconnects (System.execute events).log thread)
    (second : Disconnects (System.execute events).log other) : thread = other := by
  have disciplined : System.Disciplined swapTurn (System.execute events).log := by
    intro front thread op answer back split released
    exact absurd (swapTurn_eq_some released).1 Bool.false_ne_true
  exact (swapLock.exclusive events disciplined).1 thread other (disconnects_iff_holds.mp first)
    (disconnects_iff_holds.mp second)

/-! ## At rest -/

/-- A task that only borrows has given back what it took. -/
theorem Lends.not_holds {half other : Half} {calls : List HalfCall} (lends : Lends other calls) :
    (calls.filterMap (HalfCall.turn half)).getLast? ≠ some true := by
  obtain ⟨borrows, returned⟩ := lends
  rcases List.eq_nil_or_concat calls with rfl | ⟨front, last, rfl⟩
  · exact nofun
  rw [List.concat_eq_append] at borrows returned ⊢
  have puts : last = .put other := by
    refine (borrows last (List.mem_append_right _ List.mem_cons_self)).resolve_left fun took => ?_
    exact returned (took ▸ List.getLast?_concat)
  by_cases same : other = half
  · have returns : last.turn half = some false := by rw [puts, HalfCall.turn, if_pos same]
    rw [List.filterMap_append, List.filterMap_cons_some returns, List.filterMap_nil,
      List.getLast?_concat]
    exact fun absurdity => nomatch absurdity
  · have idle : (front ++ [last]).filterMap (HalfCall.turn half) = [] := by
      refine List.filterMap_eq_nil_iff.mpr fun call member => ?_
      rcases borrows call member with rfl | rfl <;> exact if_neg same
    rw [idle]
    exact nofun

/-- No operation is in flight. -/
def AtRest (config : socket.Config) : Prop := ∀ thread, config.running thread = none

section AtRest

variable (settled : AtRest (System.execute events))
include settled

/-- At rest every task has completed its steps. -/
theorem completes_of_atRest {thread : Nat} {request : SocketRequest}
    (started : .started thread request ∈ (System.execute events).log) :
    HalfCompletes (System.ownCalls halfCall thread (System.execute events).log) request := by
  obtain ⟨-, -, ended⟩ := System.tasks_execute events
  obtain ⟨result, finished⟩ := ended thread (System.lt_count_of_started started) (settled thread)
  obtain ⟨front, back, split⟩ := List.append_of_mem finished
  obtain ⟨served, began, completed⟩ := (halves_execute events).finishes _ _ _ _ split
  have inLog : .started thread served ∈ (System.execute events).log :=
    split ▸ List.mem_append_left _ began
  obtain rfl := System.started_unique inLog started
  rw [System.ownCalls_of_finished split]
  exact completed

theorem request_of_ownCalls {thread : Nat} {call : HalfCall}
    (member : call ∈ System.ownCalls halfCall thread (System.execute events).log) :
    ∃ request, .started thread request ∈ (System.execute events).log ∧
      HalfCompletes (System.ownCalls halfCall thread (System.execute events).log) request := by
  obtain ⟨op, answer, inLog, -⟩ := System.mem_ownCalls.mp member
  obtain ⟨front, back, split⟩ := List.append_of_mem inLog
  obtain ⟨request, began, -⟩ := (halves_execute events).calls _ _ _ _ _ split
  have started : .started thread request ∈ (System.execute events).log :=
    split ▸ List.mem_append_left _ began
  exact ⟨request, started, completes_of_atRest settled started⟩

/-- A task that closes has gone through all steps of a disconnect. -/
theorem closing_of_disconnects {thread : Nat} (closes : Disconnects (System.execute events).log thread) :
    ∃ found last, System.ownCalls halfCall thread (System.execute events).log =
      closing found ++ [.cleared .read last] := by
  obtain ⟨request, -, completed⟩ := request_of_ownCalls settled closes
  cases request with
  | writeData data =>
      rcases completed.1 _ closes with absurdity | absurdity <;> exact nomatch absurdity
  | readRound =>
      rcases completed.1 _ closes with absurdity | absurdity <;> exact nomatch absurdity
  | disconnect =>
      rcases completed with already | steps
      · rw [Disconnects, already] at closes
        exact nomatch List.mem_singleton.mp closes
      · exact steps

/-- Only a disconnect keeps a half. -/
theorem closing_of_holds {half : Half} {thread : Nat}
    (holds : System.Holds (turnOf half) thread (System.execute events).log) :
    Disconnects (System.execute events).log thread ∧
      .cleared half true ∈ System.ownCalls halfCall thread (System.execute events).log := by
  rw [System.Holds, ownCalls_turnOf] at holds
  have turned := List.mem_of_getLast? holds
  obtain ⟨call, member, -⟩ := List.mem_filterMap.mp turned
  obtain ⟨request, -, completed⟩ := request_of_ownCalls settled member
  cases request with
  | writeData data => exact absurd holds (Lends.not_holds completed)
  | readRound => exact absurd holds (Lends.not_holds completed)
  | disconnect =>
      rcases completed with already | ⟨found, last, steps⟩
      · rw [already] at holds
        cases holds
      · rw [Disconnects, steps]
        rw [steps] at holds
        refine ⟨List.mem_append_left _ List.mem_cons_self, ?_⟩
        revert holds
        cases found <;> cases last <;> cases half <;> decide

/-- A requested disconnect is carried out, by one task. -/
theorem exists_disconnects {thread : Nat}
    (requested : .started thread .disconnect ∈ (System.execute events).log) :
    ∃ closer, Disconnects (System.execute events).log closer := by
  have completed := completes_of_atRest settled requested
  rcases completed with already | ⟨found, last, steps⟩
  · have swapped : .swapped true ∈ System.ownCalls halfCall thread (System.execute events).log :=
      already ▸ List.mem_cons_self
    obtain ⟨op, answer, inLog, chosen⟩ := System.mem_ownCalls.mp swapped
    obtain ⟨front, back, split⟩ := List.append_of_mem inLog
    obtain ⟨before, event, rest, whole, rfl, -, env, after, performed⟩ :=
      System.exists_calls_of_did split
    have busy : (System.execute before).state.disconnecting = true := by
      unfold halfCall at chosen
      split at chosen <;> cases chosen
      exact (Prod.mk.inj (Option.some.inj performed)).1
    have freed : ∀ op state env (answer : SocketOp.Answer op) after,
        socket.perform op state env = some (answer, after) → swapTurn op answer = some false →
          after.disconnecting = false :=
      fun op state env answer after _ released =>
        absurd (swapTurn_eq_some released).1 Bool.false_ne_true
    obtain ⟨closer, holds⟩ := swapLock.exists_holder freed rfl busy
    obtain ⟨op, answer, earlier, chosen⟩ := System.mem_ownCalls.mp (disconnects_iff_holds.mpr holds)
    refine ⟨closer, System.mem_ownCalls.mpr ⟨op, answer, ?_, chosen⟩⟩
    exact split ▸ List.mem_append_left _ earlier
  · refine ⟨thread, ?_⟩
    rw [Disconnects, steps]
    exact List.mem_append_left _ List.mem_cons_self

/-- **Where the halves end.** After a disconnect, a half is gone from the connection exactly if
the disconnect found it there. -/
theorem present_of_atRest {closer : Nat} (closes : Disconnects (System.execute events).log closer)
    (half : Half) :
    (System.execute events).state.present half = false ↔
      .cleared half true ∈ System.ownCalls halfCall closer (System.execute events).log := by
  constructor
  · intro gone
    have freed : ∀ op state env (answer : SocketOp.Answer op) after,
        socket.perform op state env = some (answer, after) → turnOf half op answer = some false →
          (!after.present half) = false := by
      intro op state env answer after performed returned
      obtain ⟨moved, -⟩ := @present_perform half _ _ _ _ _ performed
      rw [returned] at moved
      exact congrArg (!·) moved
    have initially : (!socket.initial.present half) = false := by cases half <;> rfl
    obtain ⟨holder, holds⟩ :=
      (halfLock half).exists_holder freed initially (congrArg (!·) gone)
    obtain ⟨alsoCloses, cleared⟩ := closing_of_holds settled holds
    exact disconnects_unique closes alsoCloses ▸ cleared
  · intro cleared
    obtain ⟨found, last, steps⟩ := closing_of_disconnects settled closes
    have holds : System.Holds (turnOf half) closer (System.execute events).log := by
      rw [System.Holds, ownCalls_turnOf, steps]
      rw [steps] at cleared
      revert cleared
      cases found <;> cases last <;> cases half <;> decide
    have busy := ((halfLock half).exclusive events (halves_disciplined half events)).2 closer holds
    exact Bool.not_eq_true' _ |>.mp busy

end AtRest

/-! ## Teardown -/

/-- The steps of a disconnect that have an effect. -/
def disconnectEffect : (op : SocketOp) → op.Answer → Option SocketOp
  | .announceDisconnect, _ => some .announceDisconnect
  | .clearWriteHalf, _ => some .clearWriteHalf
  | .spawnShutdown, _ => some .spawnShutdown
  | .clearReadHalf, _ => some .clearReadHalf
  | _, _ => none

/-- What one disconnect does; a write half it finds is shut down. -/
def disconnectEffects (found : Bool) : List SocketOp :=
  [.announceDisconnect, .clearWriteHalf] ++ (if found then [.spawnShutdown] else []) ++
    [.clearReadHalf]

/-- No half is stored in the connection, and its disconnect took effect once. -/
structure TornDown (config : socket.Config) : Prop where
  halves : ∀ half, config.state.present half = false
  once : ∃ found, System.callsOf disconnectEffect config.log = disconnectEffects found

/-- A disconnect clears a half while it is in the connection. -/
def FindsHalves (config : socket.Config) (event : socket.Event) : Prop :=
  ∀ thread, (System.Calls config event thread .clearWriteHalf → config.state.writeHalf = true) ∧
    (System.Calls config event thread .clearReadHalf → config.state.readHalf = true)

def HalfCall.effect : HalfCall → Option SocketOp
  | .announced => some .announceDisconnect
  | .cleared .write _ => some .clearWriteHalf
  | .shutDown => some .spawnShutdown
  | .cleared .read _ => some .clearReadHalf
  | _ => none

theorem disconnectEffect_eq_bind (op : SocketOp) (answer : op.Answer) :
    disconnectEffect op answer = (halfCall op answer).bind HalfCall.effect := by
  cases op with
  | takeWriteHalf | takeReadHalf => cases (answer : Bool) <;> rfl
  | _ => rfl

/-- Only a task that closes has an effect. -/
theorem disconnects_of_effect {thread : Nat} {op effect : SocketOp} {answer : op.Answer}
    (member : .did thread op answer ∈ (System.execute events).log)
    (chosen : disconnectEffect op answer = some effect) :
    Disconnects (System.execute events).log thread := by
  obtain ⟨front, back, split⟩ := List.append_of_mem member
  obtain ⟨request, -, permitted⟩ := (halves_execute events).calls _ _ _ _ _ split
  have swapped : .swapped false ∈ System.ownCalls halfCall thread front := by
    cases op with
    | announceDisconnect | clearWriteHalf | spawnShutdown =>
        have same : System.ownCalls halfCall thread front = _ := permitted
        rw [same]
        exact List.mem_cons_self
    | clearReadHalf =>
        obtain ⟨found, same⟩ := permitted
        rw [same]
        exact List.mem_append_left _ List.mem_cons_self
    | _ => exact nomatch chosen
  rw [Disconnects, split, System.ownCalls_append]
  exact List.mem_append_left _ swapped

/-- **Effects once.** At rest a disconnect had each of its effects once. -/
theorem effects_of_atRest (settled : AtRest (System.execute events)) {closer : Nat}
    (closes : Disconnects (System.execute events).log closer) :
    ∃ found, System.callsOf disconnectEffect (System.execute events).log =
      disconnectEffects found := by
  obtain ⟨found, last, steps⟩ := closing_of_disconnects settled closes
  have own : System.callsOf disconnectEffect (System.execute events).log =
      System.ownCalls disconnectEffect closer (System.execute events).log :=
    System.callsOf_eq_ownCalls fun other op answer item member chosen =>
      disconnects_unique (disconnects_of_effect member chosen) closes
  have picked : (disconnectEffect : (op : SocketOp) → op.Answer → Option SocketOp) =
      fun op answer => (halfCall op answer).bind HalfCall.effect :=
    funext fun op => funext fun answer => disconnectEffect_eq_bind op answer
  refine ⟨found, ?_⟩
  rw [own, picked, System.ownCalls_bind, steps]
  cases found <;> rfl

/-- What a disconnect finds is what it takes. -/
theorem cleared_of_calls {before : List socket.Event} {event : socket.Event} {thread : Nat}
    {op : SocketOp} (calls : System.Calls (System.execute before) event thread op)
    (clears : op = .clearWriteHalf ∧ half = .write ∨ op = .clearReadHalf ∧ half = .read)
    (rest : List socket.Event) :
    .cleared half ((System.execute before).state.present half) ∈
      System.ownCalls halfCall thread (System.execute (before ++ event :: rest)).log := by
  obtain ⟨answer, member, env, after, performed⟩ :=
    @System.exists_did_of_calls socket before rest event thread op calls
      fun _ _ => Option.some_ne_none _
  refine System.mem_ownCalls.mpr ⟨op, answer, member, ?_⟩
  rcases clears with ⟨rfl, rfl⟩ | ⟨rfl, rfl⟩ <;>
  · cases performed
    rfl

/-- A task clears each half once. -/
theorem cleared_unique (settled : AtRest (System.execute events)) {closer : Nat}
    (closes : Disconnects (System.execute events).log closer) {found other : Bool}
    (first : .cleared half found ∈ System.ownCalls halfCall closer (System.execute events).log)
    (second : .cleared half other ∈ System.ownCalls halfCall closer (System.execute events).log) :
    found = other := by
  obtain ⟨wrote, last, steps⟩ := closing_of_disconnects settled closes
  rw [steps] at first second
  revert first second
  cases wrote <;> cases last <;> cases half <;> cases found <;> cases other <;> decide

/-- **Teardown.** Once a disconnect was requested and no operation is in flight, no half is
left and the disconnect took effect once, exactly if it found each half it cleared. -/
theorem torn_down_iff {thread : Nat} (settled : AtRest (System.execute events))
    (requested : .started thread .disconnect ∈ (System.execute events).log) :
    TornDown (System.execute events) ↔ System.Along FindsHalves events := by
  obtain ⟨closer, closes⟩ := exists_disconnects settled requested
  constructor
  · intro torn before event rest split caller
    have found : ∀ half op, System.Calls (System.execute before) event caller op →
        (op = .clearWriteHalf ∧ half = .write ∨ op = .clearReadHalf ∧ half = .read) →
          (System.execute before).state.present half = true := by
      intro half op calls clears
      have cleared := cleared_of_calls calls clears rest
      rw [← split] at cleared
      obtain ⟨called, answer, member, chosen⟩ := System.mem_ownCalls.mp cleared
      have effective : ∃ effect, disconnectEffect called answer = some effect := by
        rw [disconnectEffect_eq_bind, chosen]
        cases half <;> exact ⟨_, rfl⟩
      obtain rfl := disconnects_unique (disconnects_of_effect member effective.choose_spec) closes
      have took := (present_of_atRest settled closes half).mp (torn.halves half)
      exact cleared_unique settled closes cleared took
    exact ⟨fun calls => found .write _ calls (.inl ⟨rfl, rfl⟩),
      fun calls => found .read _ calls (.inr ⟨rfl, rfl⟩)⟩
  · intro finds
    obtain ⟨wrote, last, steps⟩ := closing_of_disconnects settled closes
    refine ⟨fun half => (present_of_atRest settled closes half).mpr ?_,
      effects_of_atRest settled closes⟩
    have cleared : ∃ found, .cleared half found ∈
        System.ownCalls halfCall closer (System.execute events).log := by
      rw [steps]
      cases half with
      | read => exact ⟨last, List.mem_append_right _ List.mem_cons_self⟩
      | write => exact ⟨wrote, List.mem_append_left _ (by simp [closing])⟩
    obtain ⟨found, cleared⟩ := cleared
    obtain ⟨op, answer, member, chosen⟩ := System.mem_ownCalls.mp cleared
    obtain ⟨front, back, split⟩ := List.append_of_mem member
    obtain ⟨before, event, rest, whole, -, calls, env, after, performed⟩ :=
      System.exists_calls_of_did split
    obtain ⟨writes, reads⟩ := finds before event rest whole closer
    have there : found = true := by
      cases op with
      | clearWriteHalf =>
          cases chosen
          exact (Prod.mk.inj (Option.some.inj performed)).1.symm.trans (writes calls)
      | clearReadHalf =>
          cases chosen
          exact (Prod.mk.inj (Option.some.inj performed)).1.symm.trans (reads calls)
      | takeWriteHalf | takeReadHalf => cases (answer : Bool) <;> exact nomatch chosen
      | _ => exact nomatch chosen
    exact there ▸ cleared

/-- Only the tasks that were started can be running. -/
theorem atRest_of_check (idle : ∀ thread < (System.execute events).count,
    ((System.execute events).running thread).isNone) : AtRest (System.execute events) := by
  intro thread
  cases running : (System.execute events).running thread with
  | none => rfl
  | some program =>
      obtain ⟨-, active, -⟩ := System.tasks_execute events
      have absurdity := idle thread (active thread program running)
      rw [running] at absurdity
      exact nomatch absurdity

/-- What `FindsHalves` checks of an event. -/
def findsHalves (config : socket.Config) : socket.Event → Bool
  | .start _ => true
  | .step thread _ =>
      match config.running thread with
      | some (.call .clearWriteHalf _) => config.state.writeHalf
      | some (.call .clearReadHalf _) => config.state.readHalf
      | _ => true

theorem findsHalves_sound (config : socket.Config) (event : socket.Event)
    (passes : findsHalves config event = true) : FindsHalves config event := by
  intro thread
  constructor
  · rintro ⟨env, next, rfl, running⟩
    simpa only [findsHalves, running] using passes
  · rintro ⟨env, next, rfl, running⟩
    simpa only [findsHalves, running] using passes

namespace Sample

/-- Steps of a task of the connection. -/
def turns (thread count : Nat) (env : SocketEnv) : List socket.Event :=
  List.replicate count (.step thread env)

/-- A disconnect with nothing else going on. -/
def quietDisconnect : List socket.Event := .start .disconnect :: turns 0 6 {}

theorem torn_down_iff_sample : TornDown (System.execute quietDisconnect) := by
  have requested : .started 0 .disconnect ∈ (System.execute quietDisconnect).log :=
    List.mem_cons_self
  refine (torn_down_iff (atRest_of_check (by decide +kernel)) requested).mpr ?_
  exact System.along_of_check findsHalves_sound (by decide +kernel)

def writing : List socket.Event := [.start (.writeData [0x0A])]

/-- A disconnect while a write is waiting for its socket: the writer fails and puts its half
back. -/
def writtenDisconnect : List socket.Event :=
  writing ++ turns 0 3 {} ++ .start .disconnect :: (turns 1 5 {} ++ turns 0 5 {})

/-- The half of a write in flight survives the disconnect. -/
theorem half_survives :
    AtRest (System.execute writtenDisconnect) ∧
      .started 1 .disconnect ∈ (System.execute writtenDisconnect).log ∧
      ¬TornDown (System.execute writtenDisconnect) := by
  refine ⟨atRest_of_check (by decide +kernel), ?_, fun torn => ?_⟩
  · obtain ⟨back, log⟩ := @System.log_of_start socket (writing ++ turns 0 3 {})
      (turns 1 5 {} ++ turns 0 5 {}) .disconnect
    exact log ▸ List.mem_append_right _ List.mem_cons_self
  · have left : (System.execute writtenDisconnect).state.present .write = true := by
      decide +kernel
    rw [torn.halves .write] at left
    exact nomatch left

end Sample

end StratumBridge
