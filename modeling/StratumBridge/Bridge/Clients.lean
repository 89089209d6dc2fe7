import StratumBridge.Bridge.RegistryProtocol
import StratumBridge.Interaction.Balance

/-! # Which connections are listed

A share handler lists its connections under client ids drawn from a signed counter. Taking a
connection down removes its entry only if its id is positive: the first connection of a handler
has the id zero and is never removed.
-/

namespace StratumBridge

open Interaction

section Model

variable [Platform] {deployment : Deployment}

/-! ## The entry of an id -/

/-- The connection a handler lists under an id. -/
def clientAt (instanceId : Nat) (id : Int) (state : BridgeState) : Option Nat :=
  (state.registries instanceId).clients.lookup id

/-- What a call writes into the entry of an id: a connection, or nothing. -/
def clientWrite (instanceId : Nat) (id : Int) : (op : BridgeOp) → op.Answer → Option (Option Nat)
  | .registry other (.insert key uid), _ =>
      if other = instanceId ∧ key = id then some (some uid) else none
  | .registry other (.remove key), _ => if other = instanceId ∧ key = id then some none else none
  | _, _ => none

section Entries

variable {state after : BridgeState} {env : Env} {op : BridgeOp} {answer : op.Answer}
  {instanceId uid : Nat} {id : Int}

theorem clientAt_written (performed : performOp state env op = some (answer, after)) :
    clientAt instanceId id after =
      (clientWrite instanceId id op answer).getD (clientAt instanceId id state) := by
  cases op with
  | context conn op | parent op =>
      obtain ⟨outcome, -, same⟩ := Option.map_eq_some_iff.mp performed
      cases same
      rfl
  | registry other op =>
      cases performed
      by_cases own : other = instanceId
      · subst own
        simp only [clientAt, Function.update_self]
        cases op with
        | nextId => rfl
        | insert key uid =>
            by_cases same : key = id
            · subst same
              simp [clientWrite]
            · simp [clientWrite, same, AList.lookup_insert_ne (Ne.symm same)]
        | remove key =>
            by_cases same : key = id
            · subst same
              simp [clientWrite]
            · simp [clientWrite, same, AList.lookup_erase_ne (Ne.symm same)]
      · simp only [clientAt, Function.update_of_ne (Ne.symm own)]
        cases op <;> simp [clientWrite, own]
  | _ =>
      cases performed
      rfl

/-- A write that lists a connection inserts it. -/
theorem insert_of_clientWrite (writes : clientWrite instanceId id op answer = some (some uid)) :
    op = .registry instanceId (.insert id uid) := by
  unfold clientWrite at writes
  split at writes
  · obtain ⟨⟨rfl, rfl⟩, same⟩ := Option.ite_none_right_eq_some.mp writes
    cases same
    rfl
  · cases (Option.ite_none_right_eq_some.mp writes).2
  · cases writes

/-- A write that clears an entry removes it. -/
theorem remove_of_clientWrite (writes : clientWrite instanceId id op answer = some none) :
    op = .registry instanceId (.remove id) := by
  unfold clientWrite at writes
  split at writes
  · cases (Option.ite_none_right_eq_some.mp writes).2
  · obtain ⟨⟨rfl, rfl⟩, -⟩ := Option.ite_none_right_eq_some.mp writes
    rfl
  · cases writes

/-! ## The id a connection keeps -/

/-- The client id of a connection after a section on it. -/
def ContextOp.idAfter : ContextOp → Int → Int
  | .setId id, _ => id
  | _, held => held

/-- The client id a call stores in a connection. -/
def idWrite (uid : Nat) : (op : BridgeOp) → op.Answer → Option Int
  | .context other (.setId id), _ => if other = uid then some id else none
  | _, _ => none

theorem performOp_id (performed : performOp state env op = some (answer, after)) :
    (after.contexts uid).id =
      match op with
      | .context other op => if other = uid then op.idAfter (state.contexts uid).id
          else (state.contexts uid).id
      | _ => (state.contexts uid).id := by
  refine performOp_field Context.id ContextOp.idAfter ?_ performed
  intro op context next answer acted
  cases op with
  | lockJobBuild =>
      obtain ⟨-, same⟩ := Option.ite_none_left_eq_some.mp acted
      cases same
      rfl
  | ensureDefaultWorkerName =>
      cases acted
      exact apply_ite Context.id _ _ _ |>.trans (ite_self _)
  | _ =>
      cases acted
      rfl

theorem id_written (performed : performOp state env op = some (answer, after)) :
    (after.contexts uid).id = (idWrite uid op answer).getD (state.contexts uid).id := by
  rw [performOp_id performed]
  cases op with
  | context other op =>
      cases op with
      | setId fresh => by_cases same : other = uid <;> simp [idWrite, ContextOp.idAfter, same]
      | _ => exact ite_self _
  | _ => rfl

theorem setId_of_idWrite (writes : idWrite uid op answer = some id) :
    op = .context uid (.setId id) := by
  unfold idWrite at writes
  split at writes
  · obtain ⟨rfl, same⟩ := Option.ite_none_right_eq_some.mp writes
    cases same
    rfl
  · cases writes

end Entries

/-! ## What a task does to the registry -/

/-- Which operation a call of the registry protocol is. -/
inductive Registers : (op : BridgeOp) → op.Answer → RegistryCall → Prop where
  | accepted (uid : Nat) : Registers .newSessionUid uid (.accepted uid)
  | read (uid : Nat) (context : Context) :
      Registers (.context uid .read) context (.read uid context.id)
  | drew (instanceId : Nat) (id : Int) :
      Registers (.registry instanceId .nextId) id (.drew instanceId id)
  | assigned (uid : Nat) (id : Int) (answer : Unit) :
      Registers (.context uid (.setId id)) answer (.assigned uid id)
  | inserted (instanceId : Nat) (id : Int) (uid : Nat) (answer : Unit) :
      Registers (.registry instanceId (.insert id uid)) answer (.inserted instanceId id uid)
  | removed (instanceId : Nat) (id : Int) (answer : Unit) :
      Registers (.registry instanceId (.remove id)) answer (.removed instanceId id)

theorem registryCall_cases {op : BridgeOp} {answer : op.Answer} {item : RegistryCall}
    (chosen : registryCall op answer = some item) : Registers op answer item := by
  unfold registryCall at chosen
  split at chosen
  case h_7 => cases chosen
  all_goals
    cases chosen
    constructor

section Own

variable {events : List (bridge deployment).Event} {thread : Nat}

/-- A task accepts one connection and draws one id. -/
structure OneConnection (calls : List RegistryCall) : Prop where
  accepts : ∀ uid other, .accepted uid ∈ calls → .accepted other ∈ calls → uid = other
  draws : ∀ instanceId id handler drawn, .drew instanceId id ∈ calls → .drew handler drawn ∈ calls →
    instanceId = handler ∧ id = drawn

theorem oneConnection {front back : Record deployment}
    (split : (System.execute events).log = front ++ back) :
    OneConnection (System.ownCalls registryCall thread front) := by
  refine (registrations_execute events).ownCalls_induction thread ?_ ?_ split
  · exact ⟨fun _ _ absurdity => (nomatch absurdity), fun _ _ _ _ absurdity => (nomatch absurdity)⟩
  · intro request calls op answer one permitted
    change OneConnection (calls ++ (registryCall op answer).toList)
    cases chosen : registryCall op answer with
    | none =>
        rw [Option.toList_none, List.append_nil]
        exact one
    | some item =>
        rw [Option.toList_some]
        cases registryCall_cases chosen with
        | accepted uid =>
            obtain ⟨-, rfl⟩ := permitted
            constructor
            · intro first second inFirst inSecond
              cases List.mem_singleton.mp inFirst
              cases List.mem_singleton.mp inSecond
              rfl
            · intro _ _ _ _ absurdity
              cases List.mem_singleton.mp absurdity
        | drew instanceId id =>
            obtain ⟨-, -, undrawn⟩ := permitted
            constructor
            · intro first second inFirst inSecond
              simp only [List.mem_append, List.mem_singleton, reduceCtorEq, or_false]
                at inFirst inSecond
              exact one.accepts first second inFirst inSecond
            · have last : ∀ handler drawn, .drew handler drawn ∈
                  calls ++ [RegistryCall.drew instanceId id] → instanceId = handler ∧ id = drawn := by
                intro handler drawn member
                rcases List.mem_append.mp member with earlier | here
                · exact absurd earlier (undrawn handler drawn)
                · cases List.mem_singleton.mp here
                  exact ⟨rfl, rfl⟩
              intro handler drawn other again first second
              obtain ⟨rfl, rfl⟩ := last handler drawn first
              exact last other again second
        | _ =>
            constructor
            · intro first second inFirst inSecond
              simp only [List.mem_append, List.mem_singleton, reduceCtorEq, or_false]
                at inFirst inSecond
              exact one.accepts first second inFirst inSecond
            · intro instanceId id handler drawn inFirst inSecond
              simp only [List.mem_append, List.mem_singleton, reduceCtorEq, or_false]
                at inFirst inSecond
              exact one.draws instanceId id handler drawn inFirst inSecond

end Own

/-! ## The run -/

/-- The connection was accepted, by a task that is over. -/
def Accepted (uid : Nat) (log : Record deployment) : Prop :=
  ∃ thread result, .accepted uid ∈ System.ownCalls registryCall thread log ∧
    .finished thread result ∈ log

/-- The connection is being taken down, or was. -/
def Leaving (uid : Nat) (log : Record deployment) : Prop :=
  ∃ thread, .started thread (.disconnect uid) ∈ log

/-- The connection was taken down. -/
def Gone (uid : Nat) (log : Record deployment) : Prop :=
  ∃ thread result, .started thread (.disconnect uid) ∈ log ∧ .finished thread result ∈ log

/-- Every connection is accepted once and taken down at most once, after that. -/
structure Served (log : Record deployment) : Prop where
  acceptedOnce : ∀ thread other uid, .accepted uid ∈ System.ownCalls registryCall thread log →
    .accepted uid ∈ System.ownCalls registryCall other log → thread = other
  leftOnce : ∀ thread other uid, .started thread (.disconnect uid) ∈ log →
    .started other (.disconnect uid) ∈ log → thread = other
  acceptedFirst : ∀ front thread uid back, log = front ++ .started thread (.disconnect uid) :: back →
    Accepted uid front

/-- Nobody is listed twice, everybody who was accepted and is not leaving is listed, and nobody
who is gone. -/
structure ClientsExact (config : (bridge deployment).Config) : Prop where
  listed : ∀ uid, Accepted uid config.log → ¬Leaving uid config.log →
    ∃ id, clientAt (handlerOf deployment uid) id config.state = some uid
  only : ∀ instanceId id uid, clientAt instanceId id config.state = some uid →
    instanceId = handlerOf deployment uid ∧
      (∃ thread, .accepted uid ∈ System.ownCalls registryCall thread config.log) ∧
        ¬Gone uid config.log
  once : ∀ instanceId id other uid, clientAt instanceId id config.state = some uid →
    clientAt instanceId other config.state = some uid → id = other

/-- Connections are taken down with a positive id, and an id is drawn only when the connection
that drew it before is gone. -/
def IdsHold (config : (bridge deployment).Config) : (bridge deployment).Event → Prop
  | .start (.disconnect uid) => 0 < (config.state.contexts uid).id
  | .start _ => True
  | .step thread env => ∀ instanceId,
      System.Calls config (.step thread env) thread (.registry instanceId .nextId) →
        ∀ other uid, .accepted uid ∈ System.ownCalls registryCall other config.log →
          .drew instanceId (config.state.registries instanceId).counter ∈
            System.ownCalls registryCall other config.log → Gone uid config.log

section Run

variable {events : List (bridge deployment).Event} {thread other uid instanceId : Nat} {id : Int}

theorem Served.of_append {front back : Record deployment} (served : Served (front ++ back)) :
    Served front := by
  refine ⟨fun thread other uid first second => ?_, fun thread other uid first second => ?_, ?_⟩
  · exact served.acceptedOnce thread other uid (System.mem_ownCalls_of_front rfl first)
      (System.mem_ownCalls_of_front rfl second)
  · exact served.leftOnce thread other uid (List.mem_append_left _ first)
      (List.mem_append_left _ second)
  · rintro before thread uid rest rfl
    exact served.acceptedFirst before thread uid (rest ++ back)
      (by rw [List.append_assoc, List.cons_append])

theorem Accepted.mono {front back : Record deployment} (accepted : Accepted uid front) :
    Accepted uid (front ++ back) := by
  obtain ⟨thread, result, accepts, finished⟩ := accepted
  exact ⟨thread, result, System.mem_ownCalls_of_front rfl accepts, List.mem_append_left _ finished⟩

theorem Gone.mono {front back : Record deployment} (gone : Gone uid front) :
    Gone uid (front ++ back) := by
  obtain ⟨thread, result, started, finished⟩ := gone
  exact ⟨thread, result, List.mem_append_left _ started, List.mem_append_left _ finished⟩

/-- A connection that is taken down was accepted before. -/
theorem Served.accepted_of_started {front : Record deployment} (served : Served front)
    (started : .started thread (.disconnect uid) ∈ front) : Accepted uid front := by
  obtain ⟨before, rest, rfl⟩ := List.append_of_mem started
  exact (served.acceptedFirst before thread uid rest rfl).mono

/-- The task that accepted a connection is over once the connection is taken down. -/
theorem Served.finished_of_started {front back : Record deployment}
    (split : (System.execute events).log = front ++ back)
    (served : Served (System.execute events).log)
    (accepts : .accepted uid ∈ System.ownCalls registryCall thread (System.execute events).log)
    (started : .started other (.disconnect uid) ∈ front) :
    ∃ result, .finished thread result ∈ front := by
  rw [split] at served accepts
  obtain ⟨acceptor, result, accepted, finished⟩ := served.of_append.accepted_of_started started
  have alsoAccepts : .accepted uid ∈ System.ownCalls registryCall acceptor (front ++ back) :=
    System.mem_ownCalls_of_front rfl accepted
  obtain rfl := served.acceptedOnce acceptor thread uid alsoAccepts accepts
  exact ⟨result, finished⟩

/-- What the task did that inserted a connection. -/
theorem inserts_drawn {front back : Record deployment} {answer : Unit}
    (split : (System.execute events).log =
      front ++ .did thread (.registry instanceId (.insert id uid)) answer :: back) :
    .accepted uid ∈ System.ownCalls registryCall thread front ∧
      instanceId = handlerOf deployment uid ∧
        .drew instanceId id ∈ System.ownCalls registryCall thread front := by
  obtain ⟨request, -, -, accepted, own, drew⟩ := (registrations_execute events).calls _ _ _ _ _ split
  exact ⟨accepted, own, drew⟩

/-- What a finished task has done to the registry. -/
theorem completes_of_finished {request : BridgeRequest} {result : BridgeResult}
    (started : .started thread request ∈ (System.execute events).log)
    (finished : .finished thread result ∈ (System.execute events).log) :
    RegistryCompletes deployment request
      (System.ownCalls registryCall thread (System.execute events).log) := by
  obtain ⟨front, back, split⟩ := List.append_of_mem finished
  obtain ⟨served, serves, completes⟩ := (registrations_execute events).finishes _ _ _ _ split
  have inLog : .started thread served ∈ (System.execute events).log :=
    split ▸ List.mem_append_left _ serves
  obtain rfl := System.started_unique started inLog
  have calls : System.ownCalls registryCall thread (System.execute events).log =
      System.ownCalls registryCall thread front :=
    System.ownCalls_of_finished split
  rw [calls]
  exact completes

/-- A task that accepts a connection serves a new one. -/
theorem connect_of_accepted
    (accepts : .accepted uid ∈ System.ownCalls registryCall thread (System.execute events).log) :
    .started thread .connect ∈ (System.execute events).log := by
  obtain ⟨op, answer, made, chosen⟩ := System.mem_ownCalls.mp accepts
  obtain ⟨before, rest, split⟩ := List.append_of_mem made
  obtain ⟨request, started, permitted⟩ := (registrations_execute events).calls _ _ _ _ _ split
  cases registryCall_cases chosen
  obtain ⟨rfl, -⟩ := permitted
  exact split ▸ List.mem_append_left _ started

/-- A finished acceptor has drawn an id, stored it and listed the connection under it. -/
theorem listed_of_finished {result : BridgeResult}
    (accepts : .accepted uid ∈ System.ownCalls registryCall thread (System.execute events).log)
    (finished : .finished thread result ∈ (System.execute events).log) :
    ∃ id, .drew (handlerOf deployment uid) id ∈
        System.ownCalls registryCall thread (System.execute events).log ∧
      .assigned uid id ∈ System.ownCalls registryCall thread (System.execute events).log ∧
      .inserted (handlerOf deployment uid) id uid ∈
        System.ownCalls registryCall thread (System.execute events).log := by
  obtain ⟨accepted, id, alsoAccepts, rest⟩ :=
    completes_of_finished (connect_of_accepted accepts) finished
  obtain rfl := (oneConnection (List.append_nil _).symm).accepts accepted uid alsoAccepts accepts
  exact ⟨id, rest⟩

/-- A connection keeps the id its acceptor drew, once that is over. -/
theorem id_drawn (served : Served (System.execute events).log) {result : BridgeResult}
    (accepts : .accepted uid ∈ System.ownCalls registryCall thread (System.execute events).log)
    (finished : .finished thread result ∈ (System.execute events).log) :
    .drew (handlerOf deployment uid) ((System.execute events).state.contexts uid).id ∈
      System.ownCalls registryCall thread (System.execute events).log := by
  obtain ⟨id, -, assigned, -⟩ := listed_of_finished accepts finished
  have written : id ∈ System.callsOf (idWrite uid) (System.execute events).log := by
    obtain ⟨op, answer, made, chosen⟩ := System.mem_ownCalls.mp assigned
    cases registryCall_cases chosen
    exact System.mem_callsOf.mpr ⟨thread, _, _, made, if_pos rfl⟩
  obtain ⟨last, isLast⟩ := Option.isSome_iff_exists.mp
    (List.getLast?_isSome.mpr (List.ne_nil_of_mem written))
  have held : ((System.execute events).state.contexts uid).id = last := by
    rw [System.view_eq_last (fun state : BridgeState => (state.contexts uid).id)
      (fun _ _ _ _ _ => id_written) events, isLast]
    rfl
  obtain ⟨before, setter, op, answer, after, split, chosen, -⟩ := System.exists_last_call isLast
  obtain rfl := setId_of_idWrite chosen
  obtain ⟨request, -, -, accepted, drew⟩ := (registrations_execute events).calls _ _ _ _ _ split
  have alsoAccepts := System.mem_ownCalls_of_front split accepted
  obtain rfl := served.acceptedOnce setter thread uid alsoAccepts accepts
  rw [held]
  exact System.mem_ownCalls_of_front split drew

/-- The id read while a connection is taken down is the one its acceptor drew. -/
theorem read_drawn {front back : Record deployment}
    (split : (System.execute events).log = front ++ back)
    (served : Served (System.execute events).log)
    (started : .started thread (.disconnect uid) ∈ (System.execute events).log)
    (read : .read uid id ∈ System.ownCalls registryCall thread front) :
    ∃ acceptor result, .accepted uid ∈ System.ownCalls registryCall acceptor front ∧
      .finished acceptor result ∈ front ∧
        .drew (handlerOf deployment uid) id ∈ System.ownCalls registryCall acceptor front := by
  obtain ⟨op, answer, made, chosen⟩ := System.mem_ownCalls.mp read
  obtain ⟨earlier, later, rfl⟩ := List.append_of_mem made
  rw [List.append_assoc, List.cons_append] at split
  cases registryCall_cases chosen with
  | read _ context =>
      obtain ⟨request, starts, -⟩ := (registrations_execute events).calls _ _ _ _ _ split
      have inLog : .started thread request ∈ (System.execute events).log :=
        split ▸ List.mem_append_left _ starts
      obtain rfl := System.started_unique started inLog
      obtain ⟨before, event, rest, -, rfl, -, env, after, performed⟩ := System.exists_calls_of_did split
      rw [split] at served
      have before_served := served.of_append
      obtain ⟨acceptor, result, accepts, finished⟩ := before_served.accepted_of_started starts
      have drew := id_drawn before_served accepts finished
      have seen : context = (System.execute before).state.contexts uid :=
        (Prod.mk.inj (Option.some.inj performed)).1.symm
      refine ⟨acceptor, result, System.mem_ownCalls_of_front rfl accepts,
        List.mem_append_left _ finished, ?_⟩
      rw [seen]
      exact System.mem_ownCalls_of_front rfl drew

/-- An id is drawn again only when the connection that drew it before is gone. -/
theorem gone_of_drawn {front back : Record deployment}
    (split : (System.execute events).log =
      front ++ .did thread (.registry instanceId .nextId) id :: back)
    (held : System.Along IdsHold events)
    (drew : .drew instanceId id ∈ System.ownCalls registryCall other front)
    (accepts : .accepted uid ∈ System.ownCalls registryCall other (System.execute events).log) :
    Gone uid front := by
  obtain ⟨op, answer, made, chosen⟩ := System.mem_ownCalls.mp drew
  obtain ⟨earlier, later, rfl⟩ := List.append_of_mem made
  cases registryCall_cases chosen
  have whole := split
  rw [List.append_assoc, List.cons_append] at whole
  obtain ⟨request, -, -, ⟨accepted, acceptedEarlier, -⟩, -⟩ :=
    (registrations_execute events).calls _ _ _ _ _ whole
  have alsoAccepts := System.mem_ownCalls_of_front whole acceptedEarlier
  obtain rfl := (oneConnection (List.append_nil _).symm).accepts accepted uid alsoAccepts accepts
  obtain ⟨before, event, rest, rfl, same, ⟨turn, next, rfl, running⟩, env, after, performed⟩ :=
    System.exists_calls_of_did split
  have counter : id = ((System.execute before).state.registries instanceId).counter :=
    (Prod.mk.inj (Option.some.inj performed)).1.symm
  have apart := held before _ rest rfl instanceId ⟨turn, next, rfl, running⟩ other accepted
  rw [same, ← counter] at apart
  exact apart (System.mem_ownCalls_of_front rfl acceptedEarlier) drew

/-- Of two tasks that drew one id, one drew it when the connection of the other was gone. -/
theorem drawn_apart {fresh : Nat} (held : System.Along IdsHold events) (different : thread ≠ other)
    (drew : .drew instanceId id ∈ System.ownCalls registryCall thread (System.execute events).log)
    (alsoDrew : .drew instanceId id ∈ System.ownCalls registryCall other (System.execute events).log)
    (accepts : .accepted uid ∈ System.ownCalls registryCall thread (System.execute events).log)
    (alsoAccepts : .accepted fresh ∈
      System.ownCalls registryCall other (System.execute events).log) :
    Gone uid (System.execute events).log ∨ ∃ front back, (System.execute events).log =
      front ++ .did thread (.registry instanceId .nextId) id :: back ∧ Gone fresh front := by
  obtain ⟨op, answer, made, chosen⟩ := System.mem_ownCalls.mp drew
  cases registryCall_cases chosen
  obtain ⟨otherOp, otherAnswer, otherMade, otherChosen⟩ := System.mem_ownCalls.mp alsoDrew
  cases registryCall_cases otherChosen
  rcases System.order_of_mem made otherMade with same | ⟨before, between, after, split⟩ |
    ⟨before, between, after, split⟩
  · exact absurd (System.Entry.did.inj same).1 different
  · rw [← List.cons_append, ← List.append_assoc] at split
    have earlier : .drew instanceId id ∈ System.ownCalls registryCall thread
        (before ++ .did thread (.registry instanceId .nextId) id :: between) :=
      System.mem_ownCalls.mpr ⟨_, _, List.mem_append_right _ List.mem_cons_self, chosen⟩
    rw [split]
    exact Or.inl (gone_of_drawn split held earlier accepts).mono
  · rw [← List.cons_append, ← List.append_assoc] at split
    have earlier : .drew instanceId id ∈ System.ownCalls registryCall other
        (before ++ .did other (.registry instanceId .nextId) id :: between) :=
      System.mem_ownCalls.mpr ⟨_, _, List.mem_append_right _ List.mem_cons_self, otherChosen⟩
    exact Or.inr ⟨_, _, split, gone_of_drawn split held earlier alsoAccepts⟩

/-- A connection that is taken down has drawn a positive id. -/
theorem positive_of_started (served : Served (System.execute events).log)
    (held : System.Along IdsHold events)
    (started : .started other (.disconnect uid) ∈ (System.execute events).log)
    (accepts : .accepted uid ∈ System.ownCalls registryCall thread (System.execute events).log)
    (drew : .drew (handlerOf deployment uid) id ∈
      System.ownCalls registryCall thread (System.execute events).log) : 0 < id := by
  obtain ⟨before, rest, rfl, -⟩ := System.exists_start_of_started started
  obtain ⟨back, split⟩ := @System.log_of_start (bridge deployment) before rest (.disconnect uid)
  obtain ⟨acceptor, result, accepted, finished⟩ := served.acceptedFirst _ _ _ _ split
  have before_served : Served (System.execute before).log := by
    rw [split] at served
    exact served.of_append
  obtain rfl := served.acceptedOnce acceptor thread uid
    (System.mem_ownCalls_of_front split accepted) accepts
  have kept := System.mem_ownCalls_of_front split (id_drawn before_served accepted finished)
  obtain ⟨-, same⟩ := (oneConnection (List.append_nil _).symm).draws _ _ _ _ drew kept
  rw [same]
  exact held before _ rest rfl

/-- A task inserts behind whatever was done by a task that was over when it drew its id. -/
theorem insert_behind {front back before after : Record deployment} {taker fresh : Nat}
    {op : BridgeOp} {answer : op.Answer} {result : BridgeResult} {drawn : Int}
    (split : (System.execute events).log =
      front ++ .did thread (.registry instanceId .nextId) drawn :: back)
    (finished : .finished taker result ∈ front)
    (earlier : (System.execute events).log = before ++ .did taker op answer :: after)
    (inserted : .inserted instanceId id fresh ∈
      System.ownCalls registryCall thread (System.execute events).log) :
    .did thread (.registry instanceId (.insert id fresh)) () ∈ after := by
  have silent := System.no_calls_behind split finished
  obtain ⟨made, reply, member, chosen⟩ := System.mem_ownCalls.mp inserted
  cases registryCall_cases chosen
  obtain ⟨start, rest, placed⟩ := List.append_of_mem member
  obtain ⟨-, -, drewFirst⟩ := inserts_drawn placed
  obtain ⟨request, -, -, -, undrawn⟩ := (registrations_execute events).calls _ _ _ _ _ split
  rcases System.split_cases earlier split with ⟨-, same, -⟩ | ⟨between, rfl, behind⟩ |
    ⟨between, rfl, rfl⟩
  · cases same
    exact absurd List.mem_cons_self (silent _ _)
  · rw [behind]
    apply List.mem_append_right
    rcases System.split_cases placed split with ⟨-, same, -⟩ | ⟨middle, early, -⟩ |
      ⟨middle, -, rfl⟩
    · cases same
    · rw [early] at undrawn
      exact absurd (System.mem_ownCalls_of_front rfl drewFirst) (undrawn instanceId id)
    · exact List.mem_cons_of_mem _ (List.mem_append_right _ List.mem_cons_self)
  · exact absurd (List.mem_cons_of_mem _ (List.mem_append_right _ List.mem_cons_self))
      (silent op answer)

/-- An entry holds what the last call that writes it gives it. -/
theorem clientAt_eq_last : clientAt instanceId id (System.execute events).state =
    (System.callsOf (clientWrite instanceId id) (System.execute events).log).getLast?.getD none :=
  System.view_eq_last (clientAt instanceId id) (fun _ _ _ _ _ => clientAt_written) events

/-- Who is listed was inserted by the task that accepted it, and the entry was not written since. -/
theorem inserted_of_listed
    (listed : clientAt instanceId id (System.execute events).state = some uid) :
    ∃ front thread back,
      (System.execute events).log =
        front ++ .did thread (.registry instanceId (.insert id uid)) () :: back ∧
      ∀ other op answer, .did other op answer ∈ back → clientWrite instanceId id op answer = none := by
  rw [clientAt_eq_last] at listed
  cases isLast : (System.callsOf (clientWrite instanceId id) (System.execute events).log).getLast? with
  | none =>
      rw [isLast] at listed
      cases listed
  | some written =>
      rw [isLast, Option.getD_some] at listed
      subst listed
      obtain ⟨front, thread, op, answer, back, split, chosen, silent⟩ :=
        System.exists_last_call isLast
      obtain rfl := insert_of_clientWrite chosen
      exact ⟨front, thread, back, split, silent⟩

/-- A connection that is listed was not taken down. -/
theorem not_gone_of_listed (served : Served (System.execute events).log)
    (held : System.Along IdsHold events)
    (listed : clientAt instanceId id (System.execute events).state = some uid) :
    ¬Gone uid (System.execute events).log := by
  rintro ⟨remover, result, started, finished⟩
  obtain ⟨front, thread, back, split, silent⟩ := inserted_of_listed listed
  obtain ⟨accepted, rfl, drewFirst⟩ := inserts_drawn split
  have accepts := System.mem_ownCalls_of_front split accepted
  have drew := System.mem_ownCalls_of_front split drewFirst
  obtain ⟨read, reads, removes⟩ := completes_of_finished started finished
  -- The id it reads is the one the connection is listed under, and it is positive.
  obtain ⟨acceptor, -, alsoAccepts, -, alsoDrew⟩ :=
    read_drawn (List.append_nil _).symm served started reads
  obtain rfl := served.acceptedOnce acceptor thread uid alsoAccepts accepts
  obtain ⟨-, rfl⟩ := (oneConnection (List.append_nil _).symm).draws _ _ _ _ drew alsoDrew
  have removed := removes (positive_of_started served held started accepts drew)
  obtain ⟨op, answer, made, chosen⟩ := System.mem_ownCalls.mp removed
  cases registryCall_cases chosen
  obtain ⟨before, after, whole⟩ := List.append_of_mem made
  obtain ⟨request, starts, -⟩ := (registrations_execute events).calls _ _ _ _ _ whole
  have inLog : .started remover request ∈ (System.execute events).log :=
    whole ▸ List.mem_append_left _ starts
  obtain rfl := System.started_unique started inLog
  -- So the entry was removed after the acceptor was over, which inserted it.
  obtain ⟨outcome, ended⟩ := served.finished_of_started whole accepts starts
  have quiet := System.no_calls_behind whole ended
  rcases System.split_cases whole split with ⟨-, same, -⟩ | ⟨between, -, rfl⟩ | ⟨between, -, rfl⟩
  · cases same
  · exact quiet _ _ (List.mem_cons_of_mem _ (List.mem_append_right _ List.mem_cons_self))
  · have writes := silent remover _ _ (List.mem_append_right _ List.mem_cons_self)
    rw [clientWrite, if_pos ⟨rfl, rfl⟩] at writes
    cases writes

/-- A connection that was accepted and is not taken down is listed. -/
theorem listed_of_accepted (served : Served (System.execute events).log)
    (held : System.Along IdsHold events) (accepted : Accepted uid (System.execute events).log)
    (staying : ¬Leaving uid (System.execute events).log) :
    ∃ id, clientAt (handlerOf deployment uid) id (System.execute events).state = some uid := by
  obtain ⟨thread, result, accepts, finished⟩ := accepted
  obtain ⟨id, drew, -, inserted⟩ := listed_of_finished accepts finished
  have present : ¬Gone uid (System.execute events).log :=
    fun ⟨remover, _, started, _⟩ => staying ⟨remover, started⟩
  have written : some uid ∈ System.callsOf (clientWrite (handlerOf deployment uid) id)
      (System.execute events).log := by
    obtain ⟨op, answer, made, chosen⟩ := System.mem_ownCalls.mp inserted
    cases registryCall_cases chosen
    exact System.mem_callsOf.mpr ⟨thread, _, _, made, if_pos ⟨rfl, rfl⟩⟩
  obtain ⟨last, isLast⟩ := Option.isSome_iff_exists.mp
    (List.getLast?_isSome.mpr (List.ne_nil_of_mem written))
  obtain ⟨front, writer, op, answer, back, split, chosen, silent⟩ := System.exists_last_call isLast
  -- Whoever wrote last was not over when the id was drawn: the insertion would be behind it.
  have recent : ∀ {before after : Record deployment} {outcome : BridgeResult},
      (System.execute events).log =
        before ++ .did thread (.registry (handlerOf deployment uid) .nextId) id :: after →
      .finished writer outcome ∉ before := by
    intro before after outcome drawn ended
    have writes := silent thread _ _ (insert_behind drawn ended split inserted)
    rw [clientWrite, if_pos ⟨rfl, rfl⟩] at writes
    cases writes
  refine ⟨id, ?_⟩
  rw [clientAt_eq_last, isLast, Option.getD_some]
  cases last with
  | some other =>
      obtain rfl := insert_of_clientWrite chosen
      obtain ⟨accepted, own, drewFirst⟩ := inserts_drawn split
      have alsoAccepts := System.mem_ownCalls_of_front split accepted
      by_cases same : thread = writer
      · subst same
        rw [(oneConnection (List.append_nil _).symm).accepts other uid alsoAccepts accepts]
      · rcases drawn_apart held same drew (System.mem_ownCalls_of_front split drewFirst) accepts
          alsoAccepts with gone | ⟨before, after, drawn, remover, _, started, -⟩
        · exact absurd gone present
        · obtain ⟨outcome, ended⟩ := served.finished_of_started drawn alsoAccepts started
          exact absurd ended (recent drawn)
  | none =>
      obtain rfl := remove_of_clientWrite chosen
      obtain ⟨request, starts, other, rfl, own, read⟩ :=
        (registrations_execute events).calls _ _ _ _ _ split
      have started : .started writer (.disconnect other) ∈ (System.execute events).log :=
        split ▸ List.mem_append_left _ starts
      obtain ⟨acceptor, _, accepted, -, drewFirst⟩ := read_drawn split served started read
      have alsoAccepts := System.mem_ownCalls_of_front split accepted
      by_cases same : thread = acceptor
      · subst same
        rw [(oneConnection (List.append_nil _).symm).accepts other uid alsoAccepts accepts] at started
        exact absurd ⟨writer, started⟩ staying
      · rw [← own] at drewFirst
        rcases drawn_apart held same drew (System.mem_ownCalls_of_front split drewFirst) accepts
          alsoAccepts with gone | ⟨before, after, drawn, remover, _, alsoStarted, ended⟩
        · exact absurd gone present
        · have inLog : .started remover (.disconnect other) ∈ (System.execute events).log :=
            drawn ▸ List.mem_append_left _ alsoStarted
          obtain rfl := served.leftOnce remover writer other inLog started
          exact absurd ended (recent drawn)

/-- **Clients.** In every run that serves each connection once, takes connections down with a
positive id and draws ids apart, the lists hold the connections that are accepted and not gone. -/
theorem clients_exact (served : Served (System.execute events).log)
    (held : System.Along IdsHold events) : ClientsExact (System.execute events) := by
  constructor
  · exact fun uid => listed_of_accepted served held
  · intro instanceId id uid listed
    obtain ⟨front, thread, back, split, -⟩ := inserted_of_listed listed
    obtain ⟨accepted, own, -⟩ := inserts_drawn split
    exact ⟨own, ⟨thread, System.mem_ownCalls_of_front split accepted⟩,
      not_gone_of_listed served held listed⟩
  · intro instanceId id other uid listed alsoListed
    obtain ⟨front, thread, back, split, -⟩ := inserted_of_listed listed
    obtain ⟨before, again, after, whole, -⟩ := inserted_of_listed alsoListed
    obtain ⟨accepted, -, drew⟩ := inserts_drawn split
    obtain ⟨alsoAccepted, -, alsoDrew⟩ := inserts_drawn whole
    obtain rfl := served.acceptedOnce thread again uid (System.mem_ownCalls_of_front split accepted)
      (System.mem_ownCalls_of_front whole alsoAccepted)
    exact ((oneConnection (List.append_nil _).symm).draws _ _ _ _
      (System.mem_ownCalls_of_front split drew) (System.mem_ownCalls_of_front whole alsoDrew)).2

end Run

end Model

section Sample

attribute [local instance] Sample.platform

namespace Sample

/-- Two miners connect. -/
def connects : List (bridge (deployment none)).Event :=
  .start .connect :: (steps none 0 8 {} ++ .start .connect :: steps none 1 8 {})

/-- Then one of them disconnects. -/
def leaves (uid : Nat) : List (bridge (deployment none)).Event :=
  connects ++ .start (.disconnect uid) :: steps none 2 24 {}

/-- Connections are numbered after the task that accepts them, and the third task takes one down. -/
def numbered (uid : Nat) : (bridge (deployment none)).Entry → Bool
  | .started thread (.disconnect leaving) => decide (thread = 2 ∧ leaving = uid)
  | .did thread .newSessionUid accepted => decide (accepted = thread + 1)
  | _ => true

theorem served_of_numbered {uid : Nat} (count : (System.execute connects).count = 2)
    (accepted : Accepted uid (System.execute connects).log)
    (passes : (System.execute (leaves uid)).log.all (numbered uid) = true) :
    Served (System.execute (leaves uid)).log := by
  have every := List.all_eq_true.mp passes
  have acceptor : ∀ thread fresh, .accepted fresh ∈ System.ownCalls registryCall thread
      (System.execute (leaves uid)).log → fresh = thread + 1 := by
    intro thread fresh accepts
    obtain ⟨op, answer, made, chosen⟩ := System.mem_ownCalls.mp accepts
    cases registryCall_cases chosen
    exact of_decide_eq_true (every _ made)
  have leaver : ∀ thread leaving, .started thread (.disconnect leaving) ∈
      (System.execute (leaves uid)).log → thread = 2 ∧ leaving = uid :=
    fun thread leaving started => of_decide_eq_true (every _ started)
  refine ⟨fun thread other fresh first second => ?_, fun thread other leaving first second => ?_, ?_⟩
  · have here := acceptor thread fresh first
    have there := acceptor other fresh second
    omega
  · rw [(leaver thread leaving first).1, (leaver other leaving second).1]
  · intro front thread leaving back split
    obtain ⟨rfl, rfl⟩ := leaver thread leaving
      (split ▸ List.mem_append_right _ List.mem_cons_self)
    obtain ⟨rest, whole⟩ := @System.log_of_start (bridge (deployment none)) connects
      (steps none 2 24 {}) (.disconnect leaving)
    rw [count] at whole
    rcases System.split_cases whole split with ⟨rfl, -, -⟩ | ⟨between, -, rfl⟩ | ⟨between, -, rfl⟩
    · exact accepted
    · exact absurd (List.mem_append_right _ List.mem_cons_self) (System.started_once whole _)
    · exact absurd (List.mem_append_right _ List.mem_cons_self) (System.started_once split _)

/-- No connection drew the id that is drawn next, and connections that leave have a positive one. -/
def idFresh (config : (bridge (deployment none)).Config) :
    (bridge (deployment none)).Event → Bool
  | .start (.disconnect uid) => decide (0 < (config.state.contexts uid).id)
  | .start _ => true
  | .step thread _ =>
      match config.running thread with
      | some (.call (.registry instanceId .nextId) _) =>
          !(System.callsOf registryCall config.log).contains
            (.drew instanceId (config.state.registries instanceId).counter)
      | _ => true

theorem idsHold_of_idFresh {events : List (bridge (deployment none)).Event}
    (passes : System.checkAlong idFresh (System.idle _) events = true) :
    System.Along IdsHold events := by
  refine System.along_of_check ?_ passes
  intro config event passed
  cases event with
  | start request =>
      cases request with
      | disconnect uid =>
          have positive : 0 < (config.state.contexts uid).id := of_decide_eq_true passed
          exact positive
      | _ => trivial
  | step thread env =>
      rintro instanceId ⟨turn, next, -, running⟩ other uid - drew
      obtain ⟨op, answer, made, chosen⟩ := System.mem_ownCalls.mp drew
      have listed := List.contains_iff_mem.mpr
        (System.mem_callsOf.mpr ⟨other, op, answer, made, chosen⟩)
      simp only [idFresh, running, listed, Bool.not_true, Bool.false_eq_true] at passed

theorem leaves_served :
    Served (System.execute (leaves 1)).log ∧ Served (System.execute (leaves 2)).log := by
  have count : (System.execute connects).count = 2 := by
    decide +kernel
  have first : Accepted 1 (System.execute connects).log := by
    obtain ⟨result, finished⟩ : ∃ result, .finished 0 result ∈ (System.execute connects).log :=
      System.exists_finished (by decide +kernel)
    exact ⟨0, result, by decide +kernel, finished⟩
  have second : Accepted 2 (System.execute connects).log := by
    obtain ⟨result, finished⟩ : ∃ result, .finished 1 result ∈ (System.execute connects).log :=
      System.exists_finished (by decide +kernel)
    exact ⟨1, result, by decide +kernel, finished⟩
  constructor
  · exact served_of_numbered count first (by decide +kernel)
  · exact served_of_numbered count second (by decide +kernel)

/-- The second miner leaves, and the first stays listed. -/
theorem clients_exact_sample : ClientsExact (System.execute (leaves 2)) :=
  clients_exact leaves_served.2 (idsHold_of_idFresh (by decide +kernel))

/-- The first miner leaves, and stays listed. -/
theorem first_client_stays :
    Served (System.execute (leaves 1)).log ∧ Gone 1 (System.execute (leaves 1)).log ∧
      ¬ClientsExact (System.execute (leaves 1)) := by
  have listed : clientAt 0 0 (System.execute (leaves 1)).state = some 1 := by
    decide +kernel
  have started : .started 2 (.disconnect 1) ∈ (System.execute (leaves 1)).log := by
    obtain ⟨rest, whole⟩ := @System.log_of_start (bridge (deployment none)) connects
      (steps none 2 24 {}) (.disconnect 1)
    have count : (System.execute connects).count = 2 := by
      decide +kernel
    rw [count] at whole
    exact whole ▸ List.mem_append_right _ List.mem_cons_self
  obtain ⟨result, finished⟩ : ∃ result, .finished 2 result ∈ (System.execute (leaves 1)).log :=
    System.exists_finished (by decide +kernel)
  have gone : Gone 1 (System.execute (leaves 1)).log := ⟨2, result, started, finished⟩
  exact ⟨leaves_served.1, gone, fun clients => (clients.only 0 0 1 listed).2.2 gone⟩

end Sample

end Sample

end StratumBridge
