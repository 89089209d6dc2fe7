import StratumBridge.Bridge.Handshake
import StratumBridge.Bridge.SessionProtocol
import StratumBridge.Interaction.Lock

/-! # Which sessions are closed

A session is opened by the first authorization of its connection, whatever the connection is
called. It is reported closed when the connection is taken down, but only if the connection has
a user agent or a worker name that makes a label. A miner that never subscribed and whose name
makes none leaves its session open.
-/

namespace StratumBridge

open Interaction

/-! ## Reports -/

section Model

variable [Platform] {deployment : Deployment}

/-- The reports that open the session of a connection. -/
def opensSession (uid : Nat) : (op : BridgeOp) → op.Answer → Option Unit
  | .emit (.sessionOpened conn _ _ _ _ _ _), _ => if conn = uid then some () else none
  | _, _ => none

/-- The reports that close it. -/
def closesSession (uid : Nat) : (op : BridgeOp) → op.Answer → Option Unit
  | .emit (.sessionClosed conn _ _ _ _ _ _), _ => if conn = uid then some () else none
  | _, _ => none

/-- A session is opened at most once, and once opened it is closed once. -/
def SessionPaired (uid : Nat) (log : Record deployment) : Prop :=
  (System.callsOf (opensSession uid) log).length ≤ 1 ∧
    (System.callsOf (opensSession uid) log ≠ [] →
      (System.callsOf (closesSession uid) log).length = 1)

section Calls

variable {uid : Nat} {op : BridgeOp} {answer : op.Answer}

theorem sessionCall_of_opens (opens : opensSession uid op answer = some ()) :
    ∃ wallet worker address app connected correlationId,
      op = .emit (.sessionOpened uid wallet worker address app connected correlationId) := by
  unfold opensSession at opens
  split at opens
  · obtain ⟨rfl, -⟩ := Option.ite_none_right_eq_some.mp opens
    exact ⟨_, _, _, _, _, _, rfl⟩
  · cases opens

theorem sessionCall_of_closes (closes : closesSession uid op answer = some ()) :
    ∃ wallet worker address app connected correlationId,
      op = .emit (.sessionClosed uid wallet worker address app connected correlationId) := by
  unfold closesSession at closes
  split at closes
  · obtain ⟨rfl, -⟩ := Option.ite_none_right_eq_some.mp closes
    exact ⟨_, _, _, _, _, _, rfl⟩
  · cases closes

/-- An opening is a report of the session, and the other way round. -/
theorem opens_iff : opensSession uid op answer = some () ↔
    sessionCall op answer = some (.opened uid) := by
  constructor
  · intro opens
    obtain ⟨_, _, _, _, _, _, rfl⟩ := sessionCall_of_opens opens
    rfl
  · intro chosen
    unfold sessionCall at chosen
    split at chosen
    case h_4 =>
      cases chosen
      exact if_pos rfl
    all_goals cases chosen

end Calls

/-! ## The claim of a session -/

/-- The claim of a session that succeeds. -/
def claimsSession (uid : Nat) : (op : BridgeOp) → op.Answer → Option Bool
  | .context conn .claimSessionOpen, true => if conn = uid then some true else none
  | _, _ => none

def sessionOpenedIn (uid : Nat) (state : BridgeState) : Bool := (state.contexts uid).sessionOpened

/-- Is the session of a connection claimed after a section on it? -/
def ContextOp.sessionOpenedAfter : ContextOp → Bool → Bool
  | .claimSessionOpen, _ => true
  | _, held => held

section Fields

variable {state after : BridgeState} {env : Env} {op : BridgeOp} {answer : op.Answer} {uid : Nat}

theorem performOp_sessionOpened (performed : performOp state env op = some (answer, after)) :
    (after.contexts uid).sessionOpened =
      match op with
      | .context other op =>
          if other = uid then op.sessionOpenedAfter (state.contexts uid).sessionOpened
          else (state.contexts uid).sessionOpened
      | _ => (state.contexts uid).sessionOpened := by
  refine performOp_field Context.sessionOpened ContextOp.sessionOpenedAfter ?_ performed
  intro op context next answer acted
  cases op with
  | lockJobBuild =>
      obtain ⟨-, same⟩ := Option.ite_none_left_eq_some.mp acted
      cases same
      rfl
  | ensureDefaultWorkerName =>
      cases acted
      exact apply_ite Context.sessionOpened _ _ _ |>.trans (ite_self _)
  | _ =>
      cases acted
      rfl

theorem claimsSession_ne_false (uid : Nat) (op : BridgeOp) (answer : op.Answer) :
    claimsSession uid op answer ≠ some false := by
  unfold claimsSession
  split
  · intro released
    cases (Option.ite_none_right_eq_some.mp released).2
  · exact nofun

theorem claims_of_claimed (chosen : sessionCall op answer = some (.claimed uid true)) :
    claimsSession uid op answer = some true := by
  unfold sessionCall at chosen
  split at chosen
  case h_3 =>
    cases chosen
    exact if_pos rfl
  all_goals cases chosen

theorem claimed_of_claims (claims : claimsSession uid op answer = some true) :
    sessionCall op answer = some (.claimed uid true) := by
  unfold claimsSession at claims
  split at claims
  · obtain ⟨rfl, -⟩ := Option.ite_none_right_eq_some.mp claims
    rfl
  · cases claims

variable (deployment uid) in
/-- The claim of a session is a lock that nobody releases. -/
theorem sessionLock :
    @System.Lock (bridge deployment) (sessionOpenedIn uid) (claimsSession uid) := by
  constructor
  · intro op state env answer after performed taken
    change performOp state env op = some (answer, after) at performed
    have moved := @performOp_sessionOpened _ _ _ _ _ _ uid performed
    cases op with
    | context other op =>
        have acted := performOp_context_act performed
        cases op with
        | claimSessionOpen =>
            cases (answer : Bool) with
            | false => cases taken
            | true =>
                obtain ⟨rfl, -⟩ := Option.ite_none_right_eq_some.mp taken
                have free := (Prod.ext_iff.mp (Option.some.inj acted)).1
                exact ⟨(Bool.not_eq_true' _).mp free, moved.trans (if_pos rfl)⟩
        | _ => cases taken
    | _ => cases taken
  · intro op state env answer after performed other
    change performOp state env op = some (answer, after) at performed
    apply (performOp_sessionOpened performed).trans
    cases op with
    | context conn op =>
        by_cases same : conn = uid
        · subst same
          apply (if_pos rfl).trans
          cases op with
          | claimSessionOpen =>
              cases answer with
              | true => simp only [claimsSession, if_true, reduceCtorEq] at other
              | false =>
                  -- The session was claimed before, and stays so.
                  have busy := (Prod.ext_iff.mp (Option.some.inj (performOp_context_act performed))).1
                  exact ((Bool.not_eq_false' _).mp busy).symm
          | _ => rfl
        · exact if_neg same
    | _ => rfl

end Fields

/-! ## The worker name -/

/-- Does the connection have a worker name that shows something? -/
def nameShown (uid : Nat) (state : BridgeState) : Bool :=
  decide (Text.trim (state.contexts uid).workerName ≠ [])

/-- The stored names of a connection. -/
def namesWorker (uid : Nat) (op : BridgeOp) (answer : op.Answer) : Option Bool :=
  (sessionCall op answer).bind (SessionCall.shown uid)

/-- Does the name of a connection show anything after a section on it? -/
def ContextOp.nameShownAfter : ContextOp → Bool → Bool
  | .setWorkerName worker _, _ => decide (Text.trim worker ≠ [])
  | .ensureDefaultWorkerName, _ => true
  | _, held => held

/-- The label made from a connection id shows something. -/
theorem ensureDefaultWorkerName_shown (context : Context) :
    Text.trim context.ensureDefaultWorkerName.workerName ≠ [] := by
  unfold Context.ensureDefaultWorkerName
  split
  · assumption
  · exact Text.trim_ne_nil (by decide)

section Names

variable {state after : BridgeState} {env : Env} {op : BridgeOp} {answer : op.Answer} {uid : Nat}

theorem performOp_nameShown (performed : performOp state env op = some (answer, after)) :
    nameShown uid after =
      match op with
      | .context other op => if other = uid then op.nameShownAfter (nameShown uid state)
          else nameShown uid state
      | _ => nameShown uid state := by
  refine performOp_field (fun context => decide (Text.trim context.workerName ≠ []))
    ContextOp.nameShownAfter ?_ performed
  intro op context next answer acted
  cases op with
  | lockJobBuild =>
      obtain ⟨-, same⟩ := Option.ite_none_left_eq_some.mp acted
      cases same
      rfl
  | ensureDefaultWorkerName =>
      cases acted
      exact decide_eq_true (ensureDefaultWorkerName_shown context)
  | _ =>
      cases acted
      rfl

/-- The name shows what the last call that stored it gave it. -/
theorem nameShown_written (performed : performOp state env op = some (answer, after)) :
    nameShown uid after = (namesWorker uid op answer).getD (nameShown uid state) := by
  rw [performOp_nameShown performed]
  cases op with
  | context other op =>
      cases op with
      | setWorkerName | ensureDefaultWorkerName =>
          by_cases same : other = uid <;>
            simp [namesWorker, sessionCall, SessionCall.shown, ContextOp.nameShownAfter, same]
      | _ => exact ite_self _
  | emit event => cases event <;> rfl
  | _ => rfl

theorem setWorkerName_of_named (blank : namesWorker uid op answer = some false) :
    ∃ worker supplied, op = .context uid (.setWorkerName worker supplied) := by
  obtain ⟨call, chosen, shown⟩ := Option.bind_eq_some_iff.mp blank
  cases call with
  | named conn shows =>
      obtain ⟨rfl, same⟩ := Option.ite_none_right_eq_some.mp shown
      unfold sessionCall at chosen
      split at chosen
      case h_1 =>
        cases chosen
        exact ⟨_, _, rfl⟩
      all_goals cases chosen
      cases same
  | _ => cases shown

end Names

/-! ## The report of a disconnect -/

/-- What the report depends on: the worker name and the user agent. -/
def labelOf (uid : Nat) (state : BridgeState) : Text × Text :=
  ((state.contexts uid).workerName, (state.contexts uid).remoteApp)

section Handler

variable {α β : Type} {uid : Nat} {held : Text × Text} {calls : List Unit}

/-- The kinds of operations that leave the label of a connection and its reports alone. -/
def unlabellingKinds : List Kind := Kind.except [.identity, .handshake, .session]

/-- A label with a name that shows something moves only when a name or a user agent is stored. -/
theorem labelOf_moved {state after : BridgeState} {env : Env} {op : BridgeOp} {answer : op.Answer}
    (performed : performOp state env op = some (answer, after)) (shown : nameShown uid state = true)
    (moved : labelOf uid after ≠ labelOf uid state) :
    (∃ worker supplied, op = .context uid (.setWorkerName worker supplied)) ∨
      ∃ app, op = .context uid (.setRemoteApp app) := by
  have contexts := congrFun (performOp_contexts performed) uid
  cases op with
  | context conn op =>
      by_cases same : conn = uid
      · subst same
        have acted := performOp_context_act performed
        cases op with
        | setWorkerName worker supplied => exact .inl ⟨worker, supplied, rfl⟩
        | setRemoteApp app => exact .inr ⟨app, rfl⟩
        | ensureDefaultWorkerName =>
            obtain ⟨-, filled⟩ := Prod.mk.inj (Option.some.inj acted)
            rw [Context.ensureDefaultWorkerName, if_pos (of_decide_eq_true shown)] at filled
            simp only [labelOf, filled, ne_eq, not_true_eq_false] at moved
        | lockJobBuild =>
            obtain ⟨-, taken⟩ := Option.ite_none_left_eq_some.mp acted
            obtain ⟨-, held⟩ := Prod.mk.inj (Option.some.inj taken)
            simp only [labelOf, ← held, ne_eq, not_true_eq_false] at moved
        | _ =>
            obtain ⟨-, held⟩ := Prod.mk.inj (Option.some.inj acted)
            simp only [labelOf, ← held, ne_eq, not_true_eq_false] at moved
      · have kept : after.contexts uid = state.contexts uid :=
          contexts.trans (Function.update_of_ne (Ne.symm same) _ _)
        simp only [labelOf, kept, ne_eq, not_true_eq_false] at moved
  | _ => simp only [labelOf, contexts, BridgeOp.contextsAfter, ne_eq, not_true_eq_false] at moved

theorem closes_of_kind {op : BridgeOp} (answer : op.Answer) (unreported : op.kind ≠ .session) :
    closesSession uid op answer = none := by
  cases op with
  | emit event =>
      cases event with
      | sessionOpened | sessionClosed => exact absurd rfl unreported
      | _ => rfl
  | _ => rfl

variable (deployment) in
/-- What a disconnect can end in, while it alone handles the connection. -/
abbrev TakesDown (uid : Nat) (task : Task α) (held : Text × Text) (calls : List Unit)
    (post : α → Text × Text → List Unit → Prop) : Prop :=
  @System.Ensures (bridge deployment) _ _ _ (labelOf uid) (closesSession uid) task held calls post

theorem Uses.unlabelling {kinds : List Kind} {task : Task α} (uses : Uses kinds task)
    (subset : kinds ⊆ unlabellingKinds) (shown : Text.trim held.1 ≠ []) :
    TakesDown deployment uid task held calls fun _ after made => after = held ∧ made = calls := by
  apply System.ensures_of_held
  induction task with
  | done result => trivial
  | call op next ih =>
      have other := subset uses.1
      have noName : Kind.identity ∉ unlabellingKinds := by decide
      have noAgent : Kind.handshake ∉ unlabellingKinds := by decide
      have noReport : Kind.session ∉ unlabellingKinds := by decide
      refine ⟨?_, fun answer => ih answer (uses.2 answer)⟩
      rintro state env answer after rfl performed
      constructor
      · by_contra moved
        rcases labelOf_moved performed (decide_eq_true shown) moved with
          ⟨worker, supplied, rfl⟩ | ⟨app, rfl⟩
        · exact noName other
        · exact noAgent other
      · exact closes_of_kind answer fun same => noReport (same ▸ other)

theorem takesDown_skip {kinds : List Kind} {first : Task α} {rest : α → Task β}
    {post : β → Text × Text → List Unit → Prop} (uses : Uses kinds first)
    (subset : kinds ⊆ unlabellingKinds) (shown : Text.trim held.1 ≠ [])
    (tail : ∀ result, TakesDown deployment uid (rest result) held calls post) :
    TakesDown deployment uid (first >>= rest) held calls post := by
  refine (uses.unlabelling subset shown).bind ?_
  rintro result after made ⟨rfl, rfl⟩
  exact tail result

theorem readContext_takesDown : TakesDown deployment uid (readContext uid) held calls
    fun context after made => context.workerName = held.1 ∧ context.remoteApp = held.2 ∧
      after = held ∧ made = calls := by
  rintro state env answer after rfl performed
  change performOp state env (.context uid .read) = some (answer, after) at performed
  obtain ⟨same, kept⟩ := Prod.mk.inj (Option.some.inj (performOp_context_act performed))
  refine ⟨congrArg Context.workerName same.symm, congrArg Context.remoteApp same.symm, ?_,
    List.append_nil calls⟩
  simp only [labelOf, ← kept]

/-- The session is reported closed if the connection has a label. -/
theorem closeSession_takesDown (wallet worker app : Text) (shown : Text.trim held.1 ≠ []) :
    TakesDown deployment uid (closeSession uid wallet worker app) held calls
      fun _ _ made => made = calls ++ if reportsClose worker app then [()] else [] := by
  have self : unlabellingKinds ⊆ unlabellingKinds := List.Subset.refl _
  have quiet : Kind.quiet ∈ unlabellingKinds := by decide
  have correlates : Kind.correlation ∈ unlabellingKinds := by decide
  unfold closeSession
  split
  · refine takesDown_skip (readContext_uses quiet uid) self shown fun context => ?_
    refine takesDown_skip (uses_perform .newCorrelationId correlates) self shown
      fun correlationId => ?_
    intro state env answer after same performed
    change calls ++ (if uid = uid then some () else none).toList = _
    rw [if_pos rfl]
    rfl
  · exact (List.append_nil calls).symm

/-- **Taking down.** A disconnect reports what the label it finds asks for. -/
theorem onDisconnect_takesDown (shown : Text.trim held.1 ≠ []) :
    TakesDown deployment uid (onDisconnect uid) held []
      fun _ _ made => made = if reportsClose held.1 held.2 then [()] else [] := by
  have self : unlabellingKinds ⊆ unlabellingKinds := List.Subset.refl _
  have quiet : Kind.quiet ∈ unlabellingKinds := by decide
  have registers : Kind.registration ∈ unlabellingKinds := by decide
  have removes : Kind.registry ∈ unlabellingKinds := by decide
  refine takesDown_skip (readContext_uses quiet uid) self shown fun context => ?_
  refine takesDown_skip (deactivateClientVardiff_uses _ uid quiet registers) self shown fun _ => ?_
  refine takesDown_skip (uses_quiet quiet (.context uid .disconnect) rfl) self shown fun _ => ?_
  refine takesDown_skip (unregister_uses _ uid quiet removes) self shown fun _ => ?_
  refine takesDown_skip (walletAddr_uses quiet uid) self shown fun wallet => ?_
  refine readContext_takesDown.bind ?_
  rintro named after made ⟨worker, -, rfl, rfl⟩
  refine readContext_takesDown.bind ?_
  rintro agent after made ⟨-, app, rfl, rfl⟩
  refine takesDown_skip (recordDisconnect_uses _ uid quiet _ _ _) self shown fun _ => ?_
  rw [worker, app]
  exact closeSession_takesDown _ _ _ shown

end Handler

/-! ## The run -/

section Run

variable {events : List (bridge deployment).Event} {uid thread : Nat}

/-- What a task did before it opened a session. -/
theorem claim_of_opens {front back : Record deployment} {op : BridgeOp} {answer : op.Answer}
    (split : (System.execute events).log = front ++ .did thread op answer :: back)
    (opens : opensSession uid op answer = some ()) :
    ∃ request, .started thread request ∈ front ∧ request.Authorizes uid ∧
      (∃ shown, .named uid shown ∈ System.ownCalls sessionCall thread front) ∧
        .claimed uid true ∈ System.ownCalls sessionCall thread front ∧
          .opened uid ∉ System.ownCalls sessionCall thread front := by
  obtain ⟨_, _, _, _, _, _, rfl⟩ := sessionCall_of_opens opens
  obtain ⟨request, started, permitted⟩ := (sessions_execute events).calls _ _ _ _ _ split
  exact ⟨request, started, permitted⟩

theorem takes_of_claimed {log : Record deployment}
    (claimed : .claimed uid true ∈ System.ownCalls sessionCall thread log) :
    true ∈ System.ownCalls (claimsSession uid) thread log := by
  obtain ⟨op, answer, made, chosen⟩ := System.mem_ownCalls.mp claimed
  exact System.mem_ownCalls.mpr ⟨op, answer, made, claims_of_claimed chosen⟩

/-- A session is opened at most once. -/
theorem opens_once (uid : Nat) (events : List (bridge deployment).Event) :
    (System.callsOf (opensSession uid) (System.execute events).log).length ≤ 1 := by
  by_contra many
  obtain ⟨first, second, rest, listed⟩ : ∃ first second rest,
      System.callsOf (opensSession uid) (System.execute events).log =
        [first] ++ second :: rest := by
    cases opened : System.callsOf (opensSession uid) (System.execute events).log with
    | nil => simp [opened] at many
    | cons first more =>
        cases more with
        | nil => simp [opened] at many
        | cons second rest => exact ⟨first, second, rest, rfl⟩
  obtain ⟨front, entry, back, split, earlier, one⟩ := System.exists_split_of_callsOf listed
  obtain ⟨thread, op, answer, made, opens⟩ :=
    System.mem_callsOf.mp (one ▸ List.mem_cons_self : second ∈ System.callsOf _ [entry])
  obtain rfl := List.mem_singleton.mp made
  obtain ⟨other, before, reply, madeBefore, opened⟩ :=
    System.mem_callsOf.mp (earlier ▸ List.mem_cons_self : first ∈ System.callsOf _ front)
  obtain ⟨_, -, -, -, claimed, unopened⟩ := claim_of_opens split opens
  obtain ⟨start, between, rfl⟩ := List.append_of_mem madeBefore
  rw [List.append_assoc, List.cons_append] at split
  obtain ⟨_, -, -, -, claimedBefore, -⟩ := claim_of_opens split opened
  -- Both tasks took the claim, so they are the same; and that one had opened it already.
  have whole : ∀ {thread : Nat} {front back : Record deployment},
      (System.execute events).log = front ++ back →
        .claimed uid true ∈ System.ownCalls sessionCall thread front →
          true ∈ System.ownCalls (claimsSession uid) thread (System.execute events).log := by
    intro thread front back split claimed
    rw [split, System.ownCalls_append]
    exact List.mem_append_left _ (takes_of_claimed claimed)
  obtain rfl : other = thread := by
    apply (sessionLock deployment uid).taker_unique (claimsSession_ne_false uid)
    · exact whole split claimedBefore
    · refine @whole _ (start ++ .did other before reply :: between) (.did thread op answer :: back)
        ?_ claimed
      rw [split, List.append_assoc, List.cons_append]
  refine unopened (System.mem_ownCalls.mpr ⟨before, reply, ?_, opens_iff.mp opened⟩)
  exact List.mem_append_right _ List.mem_cons_self

/-- A finished task has settled the sessions it claimed. -/
theorem settled_of_finished {result : BridgeResult}
    (finished : .finished thread result ∈ (System.execute events).log) :
    SessionSettled (System.ownCalls sessionCall thread (System.execute events).log) := by
  obtain ⟨front, back, split⟩ := List.append_of_mem finished
  obtain ⟨_, -, settled⟩ := (sessions_execute events).finishes front thread result back split
  rw [System.ownCalls_of_finished split]
  exact settled

/-- The connection has a name that shows something once an authorization named it and all its
authorizations are over. -/
theorem nameShown_of_named {named : Nat} {shown : Bool}
    (names : .named uid shown ∈ System.ownCalls sessionCall named (System.execute events).log)
    (ended : ∀ thread request, .started thread request ∈ (System.execute events).log →
      request.Authorizes uid → ∃ result, .finished thread result ∈ (System.execute events).log) :
    nameShown uid (System.execute events).state = true := by
  have last := System.view_eq_last (nameShown uid)
    (fun _ _ _ _ _ performed => nameShown_written performed) events
  obtain ⟨op, answer, made, chosen⟩ := System.mem_ownCalls.mp names
  have stored : shown ∈ System.callsOf (namesWorker uid) (System.execute events).log := by
    refine System.mem_callsOf.mpr ⟨named, op, answer, made, ?_⟩
    simp only [namesWorker, chosen, Option.bind_some, SessionCall.shown, if_true]
  obtain ⟨final, written⟩ := Option.ne_none_iff_exists'.mp
    (List.getLast?_eq_none_iff.not.mpr (List.ne_nil_of_mem stored))
  rw [last, written, Option.getD_some]
  cases final with
  | true => rfl
  | false =>
      -- A blank name comes from an authorization, which then fills it in.
      obtain ⟨before, thread, op, answer, after, split, chosen, silent⟩ :=
        System.exists_last_call written
      obtain ⟨worker, supplied, rfl⟩ := setWorkerName_of_named chosen
      obtain ⟨request, started, authorizes⟩ := (sessions_execute events).calls _ _ _ _ _ split
      obtain ⟨result, finished⟩ :=
        ended thread request (split ▸ List.mem_append_left _ started) authorizes
      have settled := settled_of_finished finished
      have none : System.ownCalls (namesWorker uid) thread after = [] := by
        refine List.eq_nil_iff_forall_not_mem.mpr fun item member => ?_
        obtain ⟨op, answer, made, named⟩ := System.mem_ownCalls.mp member
        cases named.symm.trans (silent thread op answer made)
      have own : (System.ownCalls sessionCall thread (System.execute events).log).filterMap
          (SessionCall.shown uid) =
            System.ownCalls (namesWorker uid) thread (System.execute events).log :=
        (System.ownCalls_bind (SessionCall.shown uid) _).symm
      refine absurd ?_ (settled.labels uid)
      rw [own, split, System.ownCalls_append, System.ownCalls_cons, none, chosen]
      exact List.getLast?_concat ..

/-- What the disconnect of a connection starts from. -/
def DisconnectsWith (uid : Nat) (label : Text × Text) (request : BridgeRequest)
    (held : Text × Text) : Prop :=
  request = .disconnect uid ∧ held = label

/-- The reports a label asks for. -/
def closeReports (label : Text × Text) : List Unit :=
  if reportsClose label.1 label.2 then [()] else []

theorem bridgeProgram_takesDown {label held : Text × Text} {request : BridgeRequest}
    (shown : Text.trim label.1 ≠ []) (starts : DisconnectsWith uid label request held) :
    TakesDown deployment uid (bridgeProgram deployment.settings request) held []
      fun _ _ made => made = closeReports label := by
  obtain ⟨rfl, rfl⟩ := starts
  exact (onDisconnect_takesDown shown).bind fun _ _ _ reported => reported

/-- The handlers of a connection, which run one after another in its read loop, have ended when
it is taken down, and it is taken down once. -/
structure TakenDown (before rest : List (bridge deployment).Event) (uid : Nat) : Prop where
  /-- A connection starts without a session. -/
  fresh : (deployment.contexts uid).sessionOpened = false
  handled : ∀ thread request,
    .started thread request ∈
        (System.execute (before ++ .start (.disconnect uid) :: rest)).log →
      request.Subscribes uid ∨ request.Authorizes uid →
        ∃ result, .finished thread result ∈ (System.execute before).log
  once : ∀ thread,
    .started thread (.disconnect uid) ∈
        (System.execute (before ++ .start (.disconnect uid) :: rest)).log →
      thread = (System.execute before).count
  finished : ∃ result, .finished (System.execute before).count result ∈
    (System.execute (before ++ .start (.disconnect uid) :: rest)).log

section TakenDown

variable {before rest : List (bridge deployment).Event}
  (down : TakenDown before rest uid)
include down

/-- A handler of the connection makes no calls after the connection is taken down. -/
theorem TakenDown.silent {front back : Record deployment} {request : BridgeRequest}
    (split : (System.execute (before ++ .start (.disconnect uid) :: rest)).log = front ++ back)
    (behind : (System.execute before).log <+: front)
    (started : .started thread request ∈ front)
    (serves : request.Subscribes uid ∨ request.Authorizes uid) (op : BridgeOp)
    (answer : op.Answer) : .did thread op answer ∉ back := by
  obtain ⟨result, finished⟩ :=
    down.handled thread request (split ▸ List.mem_append_left _ started) serves
  exact System.no_calls_behind split (behind.subset finished) op answer

/-- A session that is ever opened is claimed when the connection is taken down. -/
theorem TakenDown.claimed_of_opens
    (opens : System.callsOf (opensSession uid)
      (System.execute (before ++ .start (.disconnect uid) :: rest)).log ≠ []) :
    ∃ thread, .claimed uid true ∈ System.ownCalls sessionCall thread (System.execute before).log ∧
      ∃ shown, .named uid shown ∈ System.ownCalls sessionCall thread (System.execute before).log := by
  obtain ⟨_, member⟩ := List.exists_mem_of_ne_nil _ opens
  obtain ⟨thread, op, answer, made, opened⟩ := System.mem_callsOf.mp member
  obtain ⟨back, whole⟩ := System.log_of_start before rest (.disconnect uid)
  obtain ⟨front, after, split⟩ := List.append_of_mem made
  obtain ⟨request, started, authorizes, ⟨shown, named⟩, claimed, -⟩ := claim_of_opens split opened
  obtain ⟨result, ended⟩ := down.handled thread request
    (split ▸ List.mem_append_left _ started) (.inr authorizes)
  -- What the handler did, it did before the connection was taken down.
  have earlier : ∀ call ∈ System.ownCalls sessionCall thread front,
      call ∈ System.ownCalls sessionCall thread (System.execute before).log := by
    intro call member
    obtain ⟨op, answer, made, chosen⟩ := System.mem_ownCalls.mp member
    have inLog : .did thread op answer ∈ (System.execute before).log ++
        .started (System.execute before).count (.disconnect uid) :: back :=
      whole ▸ split ▸ List.mem_append_left _ made
    refine System.mem_ownCalls.mpr ⟨op, answer, ?_, chosen⟩
    exact (List.mem_append.mp inLog).resolve_right (System.no_calls_behind whole ended op answer)
  exact ⟨thread, earlier _ claimed, shown, earlier _ named⟩

/-- A session that is claimed when the connection is taken down was opened. -/
theorem TakenDown.opened_of_claimed {thread : Nat}
    (claimed : .claimed uid true ∈ System.ownCalls sessionCall thread (System.execute before).log) :
    System.callsOf (opensSession uid)
      (System.execute (before ++ .start (.disconnect uid) :: rest)).log ≠ [] := by
  obtain ⟨back, whole⟩ := System.log_of_start before rest (.disconnect uid)
  obtain ⟨op, answer, made, chosen⟩ := System.mem_ownCalls.mp claimed
  obtain ⟨front, after, split⟩ := List.append_of_mem made
  have authorizes : ∃ request, .started thread request ∈ front ∧ request.Authorizes uid := by
    obtain ⟨request, started, permitted⟩ := (sessions_execute before).calls _ _ _ _ _ split
    refine ⟨request, started, ?_⟩
    unfold sessionCall at chosen
    split at chosen
    case h_3 =>
      cases chosen
      exact permitted
    all_goals cases chosen
  obtain ⟨request, started, authorizes⟩ := authorizes
  have inLog : .started thread request ∈
      (System.execute (before ++ .start (.disconnect uid) :: rest)).log := by
    rw [whole]
    exact List.mem_append_left _ (split ▸ List.mem_append_left _ started)
  obtain ⟨result, ended⟩ := down.handled thread request inLog (.inr authorizes)
  obtain ⟨op, answer, made, chosen⟩ :=
    System.mem_ownCalls.mp ((settled_of_finished ended).opened uid claimed)
  apply List.ne_nil_of_mem (a := ())
  refine System.mem_callsOf.mpr ⟨thread, op, answer, ?_, opens_iff.mpr chosen⟩
  rw [whole]
  exact List.mem_append_left _ made

omit down in
/-- The flag of a connection that started without a session records the claim. -/
theorem sessionOpenedIn_iff (fresh : (deployment.contexts uid).sessionOpened = false)
    (events : List (bridge deployment).Event) :
    sessionOpenedIn uid (System.execute events).state = true ↔
      ∃ thread, .claimed uid true ∈ System.ownCalls sessionCall thread (System.execute events).log := by
  constructor
  · intro opened
    obtain ⟨thread, holds⟩ := (sessionLock deployment uid).exists_holder
      (fun op _ _ answer _ _ released => absurd released (claimsSession_ne_false uid op answer))
      fresh opened
    obtain ⟨op, answer, made, claims⟩ := System.mem_ownCalls.mp (List.mem_of_getLast? holds)
    exact ⟨thread, System.mem_ownCalls.mpr ⟨op, answer, made, claimed_of_claims claims⟩⟩
  · rintro ⟨thread, claimed⟩
    exact (sessionLock deployment uid).held_of_taken (claimsSession_ne_false uid)
      (takes_of_claimed claimed)

/-- From the disconnect on, the connection keeps a name that shows something. -/
theorem TakenDown.nameShown_after {thread : Nat} {shown : Bool}
    (named : .named uid shown ∈ System.ownCalls sessionCall thread (System.execute before).log)
    {longer : List (bridge deployment).Event}
    (part : longer <+: before ++ .start (.disconnect uid) :: rest) (later : before <+: longer) :
    nameShown uid (System.execute longer).state = true := by
  obtain ⟨middle, rfl⟩ := later
  obtain ⟨last, same⟩ := part
  have grown := System.log_grows before middle
  have whole := System.log_grows (before ++ middle) last
  rw [same] at whole
  obtain ⟨op, answer, made, chosen⟩ := System.mem_ownCalls.mp named
  apply nameShown_of_named (System.mem_ownCalls.mpr ⟨op, answer, grown.subset made, chosen⟩)
  intro other request started authorizes
  obtain ⟨result, ended⟩ := down.handled other request (whole.subset started) (.inr authorizes)
  exact ⟨result, grown.subset ended⟩

/-- The disconnect finds the label as it was when it started, and nobody changes it meanwhile. -/
theorem TakenDown.owns {thread : Nat} {shown : Bool}
    (named : .named uid shown ∈ System.ownCalls sessionCall thread (System.execute before).log) :
    System.Along (System.Owns (labelOf uid) (System.execute before).count
        (DisconnectsWith uid (labelOf uid (System.execute before).state)))
      (before ++ .start (.disconnect uid) :: rest) := by
  apply System.owns_of_kept
  · intro front request back split counted
    obtain ⟨rfl, rfl⟩ := System.start_unique split.symm counted
    exact ⟨rfl, rfl⟩
  · intro longer other op answer back env after part split different early performed
    by_contra moved
    have later : before <+: longer := by
      apply (List.prefix_or_prefix_of_prefix part (List.prefix_append before _)).resolve_left
      rintro ⟨middle, rfl⟩
      obtain ⟨request, started⟩ := System.started_of_lt early
      have inLog := (System.log_grows longer middle).subset started
      exact absurd (System.lt_count_of_started inLog) (Nat.lt_irrefl _)
    have grown : (System.execute before).log <+: (System.execute longer).log := by
      obtain ⟨middle, rfl⟩ := later
      exact System.log_grows before middle
    rcases labelOf_moved performed (down.nameShown_after named part later) moved with
      ⟨worker, supplied, rfl⟩ | ⟨app, rfl⟩
    · obtain ⟨request, started, authorizes⟩ := (sessions_execute _).calls _ _ _ _ _ split
      exact down.silent split grown started (.inr authorizes) _ _ List.mem_cons_self
    · obtain ⟨request, started, subscribes⟩ := (handshakes_execute _).calls _ _ _ _ _ split
      exact down.silent split grown started (.inl subscribes) _ _ List.mem_cons_self

/-- A named connection is reported closed as its label asks. -/
theorem TakenDown.closes_eq {thread : Nat} {shown : Bool}
    (named : .named uid shown ∈ System.ownCalls sessionCall thread (System.execute before).log) :
    System.callsOf (closesSession uid)
        (System.execute (before ++ .start (.disconnect uid) :: rest)).log =
      closeReports (labelOf uid (System.execute before).state) := by
  obtain ⟨back, whole⟩ := System.log_of_start before rest (.disconnect uid)
  obtain ⟨result, finished⟩ := down.finished
  have shows : Text.trim (labelOf uid (System.execute before).state).1 ≠ [] :=
    of_decide_eq_true
      (down.nameShown_after named (List.prefix_append before _) (List.prefix_refl before))
  have owned := System.ensures_execute (down.owns named) fun request held starts =>
    bridgeProgram_takesDown shows starts
  rw [← owned.reached (whole ▸ List.mem_append_right _ List.mem_cons_self) finished]
  refine System.callsOf_eq_ownCalls fun other op answer item made closes => ?_
  obtain ⟨_, _, _, _, _, _, rfl⟩ := sessionCall_of_closes closes
  obtain ⟨front, after, split⟩ := List.append_of_mem made
  obtain ⟨request, started, rfl⟩ := (sessions_execute _).calls _ _ _ _ _ split
  exact down.once other (split ▸ List.mem_append_left _ started)

end TakenDown

/-- **Session pairs.** When a connection is taken down after its handlers, its session reports
are paired if and only if it has no session yet, or a user agent or a worker name that makes a
label. -/
theorem session_paired_iff {before rest : List (bridge deployment).Event}
    (down : TakenDown before rest uid) :
    SessionPaired uid (System.execute (before ++ .start (.disconnect uid) :: rest)).log ↔
      (sessionOpenedIn uid (System.execute before).state = true →
        reportsClose (labelOf uid (System.execute before).state).1
          (labelOf uid (System.execute before).state).2 = true) := by
  have once := opens_once uid (before ++ .start (.disconnect uid) :: rest)
  have flag := sessionOpenedIn_iff down.fresh before
  constructor
  · rintro ⟨-, closed⟩ opened
    obtain ⟨thread, claimed⟩ := flag.mp opened
    have opens := down.opened_of_claimed claimed
    obtain ⟨namer, -, shown, named⟩ := down.claimed_of_opens opens
    have reported := closed opens
    rw [down.closes_eq named, closeReports] at reported
    by_contra unlabelled
    simp [unlabelled] at reported
  · intro labelled
    refine ⟨once, fun opens => ?_⟩
    obtain ⟨namer, claimed, shown, named⟩ := down.claimed_of_opens opens
    rw [down.closes_eq named, closeReports, if_pos (labelled (flag.mpr ⟨namer, claimed⟩))]
    rfl

end Run

end Model

/-! ## Sample runs -/

section Sample

attribute [local instance] Sample.platform

namespace Sample

/-- A miner authorizes, without subscribing, and gets a job. -/
def authorizesAs (name : Text) : List (bridge (deployment none)).Event :=
  .start (.authorize 1 ⟨none, [.string name]⟩) ::
    (steps none 0 44 { template := .block easyBlock }
      ++ steps none 0 40 { template := .block easyParent })

/-- Then it disconnects. -/
def departs (name : Text) : List (bridge (deployment none)).Event :=
  authorizesAs name ++ .start (.disconnect 1) :: steps none 1 24 {}

/-- The handlers of the connection are over, and it is taken down by the second task only. -/
def departing (before : Record (deployment none)) : (bridge (deployment none)).Entry → Bool
  | .started thread (.subscribe _ _) | .started thread (.authorize _ _) =>
      before.any (System.Entry.ends thread)
  | .started thread (.disconnect _) => thread = 1
  | _ => true

theorem ended_of_departing {before : Record (deployment none)} {thread : Nat}
    {request : BridgeRequest} (shown : departing before (.started thread request) = true)
    (serves : request.Subscribes 1 ∨ request.Authorizes 1) :
    ∃ result, .finished thread result ∈ before := by
  rcases serves with ⟨event, rfl⟩ | ⟨event, rfl⟩
  · exact System.exists_finished shown
  · exact System.exists_finished shown

theorem departs_takenDown {name : Text}
    (counted : (System.execute (authorizesAs name)).count = 1)
    (handled : (System.execute (departs name)).log.all
      (departing (System.execute (authorizesAs name)).log) = true)
    (finished : (System.execute (departs name)).log.any (System.Entry.ends 1) = true) :
    TakenDown (authorizesAs name) (steps none 1 24 {}) 1 := by
  have every := List.all_eq_true.mp handled
  refine ⟨rfl, ?_, ?_, ?_⟩
  · exact fun thread request started => ended_of_departing (every _ started)
  · intro thread started
    rw [counted]
    exact of_decide_eq_true (every _ started)
  · rw [counted]
    exact System.exists_finished finished

/-- The session of a miner with a worker name is closed. -/
theorem session_paired_iff_sample :
    SessionPaired 1 (System.execute (departs (Text.ofString "w.r"))).log := by
  have down : TakenDown (authorizesAs (Text.ofString "w.r")) (steps none 1 24 {}) 1 :=
    departs_takenDown (by decide +kernel) (by decide +kernel) (by decide +kernel)
  apply (session_paired_iff down).mpr
  decide +kernel

/-- The session of a miner whose worker name has a blank in it stays open. -/
theorem session_left_open :
    TakenDown (authorizesAs (Text.ofString "w.r g")) (steps none 1 24 {}) 1 ∧
      ¬SessionPaired 1 (System.execute (departs (Text.ofString "w.r g"))).log := by
  have opened : System.callsOf (opensSession 1)
      (System.execute (departs (Text.ofString "w.r g"))).log = [()] := by
    decide +kernel
  have closed : System.callsOf (closesSession 1)
      (System.execute (departs (Text.ofString "w.r g"))).log = [] := by
    decide +kernel
  refine ⟨departs_takenDown (by decide +kernel) (by decide +kernel) (by decide +kernel), ?_⟩
  rintro ⟨-, closes⟩
  rw [opened, closed] at closes
  exact absurd (closes (List.cons_ne_nil _ _)) Nat.zero_ne_one

end Sample

end Sample

end StratumBridge
