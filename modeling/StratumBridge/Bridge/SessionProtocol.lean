import StratumBridge.Bridge.HandshakeProtocol

/-! # How sessions are reported

An authorization names the worker of its connection, and the first one claims the session and
reports it open. Taking the connection down reports it closed. Everything else leaves the
reports alone and at most fills in a missing worker name.
-/

namespace StratumBridge

open Interaction

variable [Platform] {deployment : Deployment}

/-- The calls that the reports of a session depend on, with their connection. -/
inductive SessionCall where
  /-- A worker name is stored; does it show anything but white space? -/
  | named (uid : Nat) (shown : Bool)
  | claimed (uid : Nat) (first : Bool)
  | opened (uid : Nat)
  | closed (uid : Nat)

def sessionCall : (op : BridgeOp) → op.Answer → Option SessionCall
  | .context uid (.setWorkerName worker _), _ => some (.named uid (Text.trim worker ≠ []))
  | .context uid .ensureDefaultWorkerName, _ => some (.named uid true)
  | .context uid .claimSessionOpen, first => some (.claimed uid first)
  | .emit (.sessionOpened uid _ _ _ _ _ _), _ => some (.opened uid)
  | .emit (.sessionClosed uid _ _ _ _ _ _), _ => some (.closed uid)
  | _, _ => none

/-- The names stored for a connection. -/
def SessionCall.shown (uid : Nat) : SessionCall → Option Bool
  | .named conn shown => if conn = uid then some shown else none
  | _ => none

/-- The last name a task stored for a connection shows something. -/
def LabelShown (uid : Nat) (calls : List SessionCall) : Prop :=
  (calls.filterMap (SessionCall.shown uid)).getLast? ≠ some false

/-- Names are left showing something, and a session claimed first has been opened. -/
structure SessionSettled (calls : List SessionCall) : Prop where
  labels : ∀ uid, LabelShown uid calls
  opened : ∀ uid, .claimed uid true ∈ calls → .opened uid ∈ calls

/-- Only an authorization of the connection names its worker and opens its session, once, after
it named the worker and claimed the session; only its end closes the session. -/
def SessionPermits (request : BridgeRequest) (calls : List SessionCall) : BridgeOp → Prop
  | .context uid (.setWorkerName _ _) | .context uid .claimSessionOpen => request.Authorizes uid
  | .emit (.sessionOpened uid _ _ _ _ _ _) =>
      request.Authorizes uid ∧ (∃ shown, .named uid shown ∈ calls) ∧
        .claimed uid true ∈ calls ∧ .opened uid ∉ calls
  | .emit (.sessionClosed uid _ _ _ _ _ _) => request = .disconnect uid
  | _ => True

@[reducible] def sessions :
    Protocol bridgeSignature BridgeRequest SessionCall BridgeResult where
  select := sessionCall
  permits := SessionPermits
  answers := fun _ _ => True
  completes := fun _ calls _ => SessionSettled calls

section Calls

variable {calls added : List SessionCall} {uid : Nat}

/-- A missing name is filled in. -/
def SessionCall.Fills (call : SessionCall) : Prop := ∃ uid, call = .named uid true

omit [Platform] in
theorem labelShown_of_fills (fills : ∀ call ∈ calls, call.Fills) : LabelShown uid calls := by
  intro last
  obtain ⟨call, member, shown⟩ := List.mem_filterMap.mp (List.mem_of_getLast? last)
  obtain ⟨conn, rfl⟩ := fills call member
  exact nomatch (Option.ite_none_right_eq_some.mp shown).2

omit [Platform] in
/-- Later calls that store only names that show something keep the last one so. -/
theorem LabelShown.append (label : LabelShown uid calls)
    (shows : ∀ call ∈ added, call.shown uid ≠ some false) : LabelShown uid (calls ++ added) := by
  intro last
  rw [List.filterMap_append, List.getLast?_append] at last
  rcases Option.or_eq_some_iff.mp last with here | ⟨-, earlier⟩
  · obtain ⟨call, member, shown⟩ := List.mem_filterMap.mp (List.mem_of_getLast? here)
    exact shows call member shown
  · exact label earlier

omit [Platform] in
theorem SessionCall.Fills.shows {call : SessionCall} (fills : call.Fills) :
    call.shown uid ≠ some false := by
  obtain ⟨conn, rfl⟩ := fills
  intro shown
  exact nomatch (Option.ite_none_right_eq_some.mp shown).2

omit [Platform] in
/-- Calls that fill in names are no calls of another kind. -/
theorem mem_append_fills {call : SessionCall} (fills : ∀ call ∈ added, call.Fills)
    (other : ¬call.Fills) : call ∈ calls ++ added ↔ call ∈ calls := by
  rw [List.mem_append, or_iff_left fun member => other (fills call member)]

omit [Platform] in
theorem not_fills_claimed {first : Bool} : ¬(SessionCall.claimed uid first).Fills := by
  rintro ⟨conn, absurdity⟩
  cases absurdity

omit [Platform] in
theorem not_fills_opened : ¬(SessionCall.opened uid).Fills := by
  rintro ⟨conn, absurdity⟩
  cases absurdity

omit [Platform] in
theorem SessionSettled.append (settled : SessionSettled calls) (fills : ∀ call ∈ added, call.Fills) :
    SessionSettled (calls ++ added) := by
  constructor
  · intro conn
    apply (settled.labels conn).append
    exact fun call member => (fills call member).shows
  · intro conn claimed
    rw [mem_append_fills fills not_fills_claimed] at claimed
    exact List.mem_append_left _ (settled.opened conn claimed)

/-- The worker of the connection is named, and its session is neither claimed nor open. -/
structure Labelled (uid : Nat) (calls : List SessionCall) : Prop where
  labels : ∀ conn, LabelShown conn calls
  named : ∃ shown, .named uid shown ∈ calls
  unclaimed : ∀ conn, .claimed conn true ∉ calls
  unopened : .opened uid ∉ calls

omit [Platform] in
theorem Labelled.append (labelled : Labelled uid calls) (fills : ∀ call ∈ added, call.Fills) :
    Labelled uid (calls ++ added) := by
  obtain ⟨shown, named⟩ := labelled.named
  refine ⟨fun conn => (labelled.labels conn).append fun call member => (fills call member).shows,
    ⟨shown, List.mem_append_left _ named⟩, fun conn => ?_, ?_⟩
  · rw [mem_append_fills fills not_fills_claimed]
    exact labelled.unclaimed conn
  · rw [mem_append_fills fills not_fills_opened]
    exact labelled.unopened

end Calls

section Tasks

variable {α β : Type} {request : BridgeRequest} {calls : List SessionCall} {uid : Nat}

/-- The kinds of operations that leave the session and the identity of a connection alone. -/
def sessionlessKinds : List Kind := Kind.except [.identity, .session]

theorem sessions_passes {op : BridgeOp} (other : op.kind ∈ sessionlessKinds) :
    sessions.Passes SessionCall.Fills op := by
  have noName : Kind.identity ∉ sessionlessKinds := by decide
  have noReport : Kind.session ∉ sessionlessKinds := by decide
  constructor
  · intro request calls
    change SessionPermits request calls op
    unfold SessionPermits
    split
    · exact absurd other noName
    · exact absurd other noReport
    · exact absurd other noReport
    · exact absurd other noReport
    · trivial
  · intro answer item chosen
    change sessionCall op answer = some item at chosen
    unfold sessionCall at chosen
    split at chosen
    · exact absurd other noName
    · exact ⟨_, (Option.some.inj chosen).symm⟩
    · exact absurd other noReport
    · exact absurd other noReport
    · exact absurd other noReport
    · exact nomatch chosen

/-- A task of other kinds at most fills in missing names. -/
theorem Uses.fills {task : Task α} (uses : Uses sessionlessKinds task) :
    sessions.Obeys request calls task fun after _ =>
      ∃ added, after = calls ++ added ∧ ∀ call ∈ added, call.Fills :=
  Protocol.obeys_of_passes (Program.Within.mono uses fun _ member => sessions_passes member)

/-- What filling in missing names keeps, a task of other kinds keeps. -/
theorem session_skip {holds : List SessionCall → Prop} {first : Task α} {rest : α → Task β}
    {post : List SessionCall → β → Prop} (uses : Uses sessionlessKinds first)
    (kept : ∀ before added, holds before → (∀ call ∈ added, SessionCall.Fills call) →
      holds (before ++ added)) (before : holds calls)
    (tail : ∀ result after, holds after → sessions.Obeys request after (rest result) post) :
    sessions.Obeys request calls (first >>= rest) post := by
  refine uses.fills.bind ?_
  rintro _ result ⟨added, rfl, fills⟩
  exact tail result _ (kept calls added before fills)

/-- The calls only fill in missing names. -/
def OnlyFills (calls : List SessionCall) : Prop := ∀ call ∈ calls, call.Fills

omit [Platform] in
theorem onlyFills_append (before added : List SessionCall) (first : OnlyFills before)
    (second : ∀ call ∈ added, SessionCall.Fills call) : OnlyFills (before ++ added) := by
  intro call member
  rcases List.mem_append.mp member with early | late
  · exact first call early
  · exact second call late

omit [Platform] in
theorem labelled_append (before added : List SessionCall) (first : Labelled uid before)
    (second : ∀ call ∈ added, SessionCall.Fills call) : Labelled uid (before ++ added) :=
  first.append second

omit [Platform] in
theorem settled_append (before added : List SessionCall) (first : SessionSettled before)
    (second : ∀ call ∈ added, SessionCall.Fills call) : SessionSettled (before ++ added) :=
  first.append second

omit [Platform] in
theorem settled_of_fills (fills : OnlyFills calls) : SessionSettled calls := by
  constructor
  · exact fun conn => labelShown_of_fills fills
  · exact fun conn claimed => absurd (fills _ claimed) not_fills_claimed

/-- A task that fills in names in a settled session leaves it settled. -/
theorem Uses.settles {task : Task α} (uses : Uses sessionlessKinds task)
    (settled : SessionSettled calls) :
    sessions.Obeys request calls task fun after _ => SessionSettled after := by
  refine uses.fills.mono ?_
  rintro _ result ⟨added, rfl, fills⟩
  exact settled.append fills

/-- Storing an identity names the worker. -/
theorem storeIdentity_sessions (own : request.Authorizes uid) (wallet worker : Text)
    (fills : OnlyFills calls) :
    sessions.Obeys request calls (storeIdentity uid wallet worker) fun after _ =>
      Labelled uid after := by
  refine ⟨trivial, fun _ _ => ⟨own, fun _ _ => ⟨trivial, fun _ _ => ⟨trivial, fun _ _ => ?_⟩⟩⟩⟩
  change Labelled uid ((((calls ++ []) ++ [.named uid (decide (Text.trim worker ≠ []))]) ++
    [.named uid true]) ++ [])
  simp only [List.append_nil, List.append_assoc, List.singleton_append]
  refine ⟨fun conn => ?_, ⟨true, ?_⟩, fun conn member => ?_, fun member => ?_⟩
  · intro last
    rw [List.filterMap_append, List.getLast?_append] at last
    by_cases same : uid = conn
    · simp [SessionCall.shown, same] at last
    · have nothing : [SessionCall.named uid (decide (Text.trim worker ≠ [])),
          .named uid true].filterMap (SessionCall.shown conn) = [] := by
        simp only [List.filterMap_cons, SessionCall.shown, if_neg same, List.filterMap_nil]
      rw [nothing] at last
      exact labelShown_of_fills fills last
  · simp
  · rcases List.mem_append.mp member with earlier | new
    · exact not_fills_claimed (fills _ earlier)
    · simp at new
  · rcases List.mem_append.mp member with earlier | new
    · exact not_fills_opened (fills _ earlier)
    · simp at new

/-- The session is opened after it was claimed. -/
theorem openSession_sessions (own : request.Authorizes uid) (labelled : Labelled uid calls)
    (wallet worker app : Text) :
    sessions.Obeys request calls (openSession uid wallet worker app) fun after _ =>
      SessionSettled after := by
  have silent : ∀ (added : List SessionCall), (∀ call ∈ added, ∀ conn, call.shown conn = none) →
      ∀ conn, LabelShown conn (calls ++ added) := by
    intro added none conn
    apply (labelled.labels conn).append
    intro call member
    rw [none call member conn]
    exact nofun
  have claims : ∀ conn first, .claimed conn true ∈ calls ++ [SessionCall.claimed uid first] →
      conn = uid ∧ first = true := by
    intro conn first member
    rcases List.mem_append.mp member with earlier | last
    · exact absurd earlier (labelled.unclaimed conn)
    · cases List.mem_singleton.mp last
      exact ⟨rfl, rfl⟩
  refine ⟨own, fun first _ => ?_⟩
  cases (first : Bool) with
  | false =>
      refine ⟨silent [.claimed uid false] (by simp [SessionCall.shown]), fun conn member => ?_⟩
      exact absurd (claims conn false member).2 Bool.false_ne_true
  | true =>
      have made : ∀ context : Context, ∀ correlationId : Nat,
          ((calls ++ (sessionCall (.context uid .claimSessionOpen) true).toList) ++
            (sessionCall (.context uid .read) context).toList) ++
              (sessionCall .newCorrelationId correlationId).toList =
            calls ++ [.claimed uid true] := by
        intro context correlationId
        change ((calls ++ [.claimed uid true]) ++ []) ++ [] = _
        simp only [List.append_nil]
      refine ⟨trivial, fun context _ => ⟨trivial, fun correlationId _ => ?_⟩⟩
      rw [made context correlationId]
      refine ⟨?_, fun _ _ => ⟨?_, ?_⟩⟩
      · obtain ⟨shown, named⟩ := labelled.named
        refine ⟨own, ⟨shown, List.mem_append_left _ named⟩, ?_, fun member => ?_⟩
        · exact List.mem_append_right _ List.mem_cons_self
        · rcases List.mem_append.mp member with earlier | new
          · exact labelled.unopened earlier
          · cases List.mem_singleton.mp new
      · change ∀ conn, LabelShown conn ((calls ++ [.claimed uid true]) ++ [.opened uid])
        rw [List.append_assoc]
        exact silent _ (by simp [SessionCall.shown])
      · intro conn member
        rcases List.mem_append.mp member with earlier | last
        · obtain ⟨rfl, -⟩ := claims conn true earlier
          exact List.mem_append_right _ List.mem_cons_self
        · cases List.mem_singleton.mp last

omit [Platform] in
theorem quiet_sessionless : Kind.quiet ∈ sessionlessKinds := by decide

theorem authorize_sessions (own : request.Authorizes uid) (settings : Settings)
    (eventId : Option Value) (identity : Text) (password : Option Text) :
    sessions.Obeys request [] (authorize settings uid eventId identity password)
      fun after _ => SessionSettled after := by
  have registers : Kind.registration ∈ sessionlessKinds := by decide
  have pays : Kind.payoutWrite ∈ sessionlessKinds := by decide
  have publishes : jobKinds ⊆ sessionlessKinds := by decide
  have answers : Kind.verdict ∈ sessionlessKinds := by decide
  have informs : Kind.sendExtranonce ∈ sessionlessKinds := by decide
  have nothing : OnlyFills [] := fun _ member => absurd member List.not_mem_nil
  refine session_skip (readContext_uses quiet_sessionless _) onlyFills_append nothing
    fun context _ fills => ?_
  refine session_skip (authorizedWallet_uses settings _ _ quiet_sessionless _) onlyFills_append fills
    fun wallet _ fills => ?_
  refine session_skip (deactivateClientVardiff_uses _ _ quiet_sessionless registers)
    onlyFills_append fills fun _ _ fills => ?_
  refine (storeIdentity_sessions own _ _ fills).bind fun _ label labelled => ?_
  refine session_skip (walletAddr_uses quiet_sessionless _) labelled_append labelled
    fun stored _ labelled => ?_
  refine session_skip (registerIdentity_uses _ _ quiet_sessionless registers _) labelled_append
    labelled fun _ _ labelled => ?_
  refine session_skip (remoteApp_uses quiet_sessionless uid) labelled_append labelled
    fun app _ labelled => ?_
  refine session_skip (storePayouts_uses uid quiet_sessionless pays _ _) labelled_append labelled
    fun _ _ labelled => ?_
  refine (openSession_sessions own labelled _ _ _).bind fun _ _ settled => ?_
  exact (answerAuthorization_uses settings uid publishes answers informs eventId).settles settled

/-- The end of a session is reported by its connection. -/
theorem closeSession_sessions (wallet worker app : Text)
    (settled : SessionSettled calls) :
    sessions.Obeys (.disconnect uid) calls (closeSession uid wallet worker app)
      fun after _ => SessionSettled after := by
  have correlates : Kind.correlation ∈ sessionlessKinds := by decide
  unfold closeSession
  split
  · refine session_skip (readContext_uses quiet_sessionless uid) settled_append settled
      fun context _ settled => ?_
    refine session_skip (uses_perform .newCorrelationId correlates) settled_append settled
      fun correlationId after settled => ?_
    refine ⟨rfl, fun _ _ => ?_⟩
    constructor
    · intro conn
      apply (settled.labels conn).append
      intro call member
      obtain rfl := List.mem_singleton.mp member
      exact nofun
    · intro conn claimed
      rcases List.mem_append.mp claimed with earlier | last
      · exact List.mem_append_left _ (settled.opened conn earlier)
      · cases List.mem_singleton.mp last
  · exact settled

theorem onDisconnect_sessions :
    sessions.Obeys (.disconnect uid) [] (onDisconnect uid)
      fun after _ => SessionSettled after := by
  have registers : Kind.registration ∈ sessionlessKinds := by decide
  have removes : Kind.registry ∈ sessionlessKinds := by decide
  have nothing : SessionSettled [] := settled_of_fills fun _ member => absurd member List.not_mem_nil
  refine session_skip (readContext_uses quiet_sessionless _) settled_append nothing
    fun context _ settled => ?_
  refine session_skip (deactivateClientVardiff_uses _ uid quiet_sessionless registers) settled_append
    settled fun _ _ settled => ?_
  refine session_skip (uses_quiet quiet_sessionless (.context uid .disconnect) rfl) settled_append
    settled fun _ _ settled => ?_
  refine session_skip (unregister_uses _ uid quiet_sessionless removes) settled_append settled
    fun _ _ settled => ?_
  refine session_skip (walletAddr_uses quiet_sessionless uid) settled_append settled
    fun wallet _ settled => ?_
  refine session_skip (workerName_uses quiet_sessionless uid) settled_append settled
    fun worker _ settled => ?_
  refine session_skip (remoteApp_uses quiet_sessionless uid) settled_append settled
    fun app _ settled => ?_
  refine session_skip (recordDisconnect_uses _ uid quiet_sessionless wallet worker app)
    settled_append settled fun _ _ settled => ?_
  exact closeSession_sessions wallet worker app settled

/-- **Every task keeps to the session protocol.** -/
theorem bridgeProgram_sessions (settings : Settings) (request : BridgeRequest) :
    sessions.Obeys request [] (bridgeProgram settings request)
      fun after _ => SessionSettled after := by
  have nothing : SessionSettled [] := settled_of_fills fun _ member => absurd member List.not_mem_nil
  have publishes : jobKinds ⊆ sessionlessKinds := by decide
  have plain : ∀ {task : Task BridgeResult}, Uses sessionlessKinds task →
      sessions.Obeys request [] task fun after _ => SessionSettled after :=
    fun uses => uses.settles nothing
  have uses := bridgeProgram_uses settings request
  cases request with
  | authorize uid event =>
      have handled : sessions.Obeys (.authorize uid event) [] (handleAuthorize settings uid event)
          fun after _ => SessionSettled after := by
        unfold handleAuthorize
        split
        · exact nothing
        · exact authorize_sessions ⟨event, rfl⟩ settings _ _ _
      exact handled.bind fun _ _ settled => settled
  | disconnect uid => exact onDisconnect_sessions.bind fun _ _ settled => settled
  | submit uid event => exact plain (uses.mono (by decide : submissionKinds ⊆ sessionlessKinds))
  | confirmBlock => exact plain (uses.mono (by decide : confirmationKinds ⊆ sessionlessKinds))
  | connect => exact plain (uses.mono (by decide : connectionKinds ⊆ sessionlessKinds))
  | subscribe => exact plain (uses.mono (by decide : subscriptionKinds ⊆ sessionlessKinds))
  | newParent uid => exact plain (uses.mono (by decide : refreshKinds ⊆ sessionlessKinds))
  | _ => exact plain (uses.mono (by decide : publicationKinds ⊆ sessionlessKinds))

end Tasks

/-- **Session protocol.** Every run is explained by it. -/
theorem sessions_execute (events : List (bridge deployment).Event) :
    @System.Explained (bridge deployment) SessionCall sessions (System.execute events).log :=
  System.explained_execute (bridgeProgram_sessions deployment.settings) events
    fun _ _ _ _ => trivial

end StratumBridge
