import StratumBridge.Bridge.Handshake

/-! # Which miners are told their extranonce

Subscription and authorization test the user agent in three different ways. The tests agree
on some user agents only: a miner of another kind is told its extranonce twice, or never.
-/

namespace StratumBridge

open Interaction

/-! ## The condition -/

/-- The extranonce comes in one message, and before all jobs. -/
def TellsOnce (extranonce : Text) (sent : List Sent) : Prop :=
  ∃ jobs, sent = .extranonce extranonce :: jobs ∧ ∀ item ∈ jobs, item = .job

theorem tellsOnce_iff {extranonce : Text} {texts : List Text} {jobs : List Sent}
    (only : ∀ item ∈ jobs, item = .job) :
    TellsOnce extranonce (texts.map .extranonce ++ jobs) ↔ texts = [extranonce] := by
  constructor
  · rintro ⟨rest, told, restOnly⟩
    cases texts with
    | nil =>
        replace told : jobs = .extranonce extranonce :: rest := told
        have absurdity := only (.extranonce extranonce) (told ▸ List.mem_cons_self)
        exact nomatch absurdity
    | cons text texts =>
        obtain ⟨same, tail⟩ := List.cons.inj told
        cases same
        cases texts with
        | nil => rfl
        | cons again texts =>
            have absurdity := restOnly (.extranonce again) (tail ▸ List.mem_cons_self)
            exact nomatch absurdity
  · rintro rfl
    exact ⟨jobs, rfl, only⟩

section Model

variable [Platform] {deployment : Deployment}

/-- The profile and the user agent for which the handlers agree on who sends the extranonce. -/
def DeliversOnce (settings : Settings) (app : Text) : Prop :=
  if settings.kaspaCommonProtocol then ¬isBitmain app
  else
    (isBitmain app → ¬Text.contains (Text.ofString "iceriver") (Text.toLowercase app)) ∧
      (¬isBitmain app → isIceriver app →
        Text.contains (Text.ofString "iceriver") (Text.toLowercase app))

instance (settings : Settings) (app : Text) : Decidable (DeliversOnce settings app) := by
  delta DeliversOnce
  infer_instance

omit [Platform] in
theorem isIceriver_of_contains {app : Text}
    (contained : Text.contains (Text.ofString "iceriver") (Text.toLowercase app)) :
    isIceriver app := by
  simp only [isIceriver, contained, Bool.true_or]

/-- Subscription and authorization send the extranonce once between them. -/
theorem sends_once_iff (settings : Settings) {extranonce : Text} (held : extranonce ≠ [])
    (app : Text) :
    subscribeSends settings extranonce app ++ authorizeSends settings extranonce app =
      [extranonce] ↔ DeliversOnce settings app := by
  have implied : Text.contains (Text.ofString "iceriver") (Text.toLowercase app) →
      isIceriver app := isIceriver_of_contains
  unfold subscribeSends authorizeSends DeliversOnce
  by_cases common : settings.kaspaCommonProtocol <;> by_cases bitmain : isBitmain app <;>
    by_cases spelled : Text.contains (Text.ofString "iceriver") (Text.toLowercase app) <;>
    by_cases iceriver : isIceriver app <;> simp_all

/-! ## The run -/

/-- A connection subscribes once and then authorizes once, and both complete. -/
structure Handshake (log : Record deployment) (uid subscriber authorizer : Nat) : Prop where
  subscribes : ∃ event, .started subscriber (.subscribe uid event) ∈ log
  authorizes : ∃ event, .started authorizer (.authorize uid event) ∈ log
  onlySubscription : ∀ thread event, .started thread (.subscribe uid event) ∈ log →
    thread = subscriber
  onlyAuthorization : ∀ thread event, .started thread (.authorize uid event) ∈ log →
    thread = authorizer
  /-- The connection was accepted before it could send anything. -/
  accepted : ∀ front request back, log = front ++ .started subscriber request :: back →
    ∀ thread, .accepted uid ∈ System.ownCalls handshakeCall thread log →
      ∃ result, .finished thread result ∈ front
  subscribed : ∀ front request back, log = front ++ .started authorizer request :: back →
    .finished subscriber (.handled (.ok ())) ∈ front
  authorized : .finished authorizer (.handled (.ok ())) ∈ log

/-- A job published by another task reaches the connection only after its authorization has
sent whatever extranonce it sends. -/
def JobsBehind (log : Record deployment) (uid authorizer : Nat) : Prop :=
  ∀ front thread op answer back, log = front ++ .did thread op answer :: back →
    sentTo uid op answer = some .job → thread ≠ authorizer →
      (∃ request, .started authorizer request ∈ front) ∧
        ∀ text, .extranonce text ∉ System.ownCalls (sentTo uid) authorizer back

theorem agentOf_moved {state after : BridgeState} {env : Env} {op : BridgeOp} {uid : Nat}
    {answer : op.Answer} (performed : performOp state env op = some (answer, after))
    (moved : agentOf uid after ≠ agentOf uid state) :
    (∃ text, op = .context uid (.setExtranonce text)) ∨
      ∃ app, op = .context uid (.setRemoteApp app) := by
  by_cases shakes : op.kind = .handshake
  · have extranonce := @performOp_extranonce _ _ _ _ _ _ uid performed
    have remoteApp := @performOp_remoteApp _ _ _ _ _ _ uid performed
    cases op with
    | context other op =>
        by_cases same : other = uid
        · subst same
          cases op with
          | setExtranonce text => exact .inl ⟨text, rfl⟩
          | setRemoteApp app => exact .inr ⟨app, rfl⟩
          | _ => exact nomatch shakes
        · have kept : agentOf uid after = agentOf uid state :=
            Prod.ext (extranonce.trans (if_neg same)) (remoteApp.trans (if_neg same))
          exact absurd kept moved
    | _ => exact absurd (Prod.ext extranonce remoteApp) moved
  · exact absurd (agentOf_performOp performed shakes) moved

omit [Platform] in
/-- If one source sends extranonces and then jobs, and every other job comes after its
extranonces, then so does everything together. -/
theorem jobs_behind_extranonces {own : Nat} {items : List (Nat × Sent)} {texts : List Text}
    {jobs : List Sent}
    (mine : (items.filterMap fun (source, item) => if source = own then some item else none) =
      texts.map .extranonce ++ jobs)
    (only : ∀ item ∈ jobs, item = .job)
    (others : ∀ front source item back, items = front ++ (source, item) :: back →
      source ≠ own → item = .job ∧ ∀ text, (own, .extranonce text) ∉ back) :
    ∃ more, (∀ item ∈ more, item = .job) ∧
      items.map Prod.snd = texts.map .extranonce ++ more := by
  induction items generalizing texts jobs with
  | nil =>
      obtain ⟨nothing, -⟩ := List.append_eq_nil_iff.mp mine.symm
      exact ⟨[], fun _ => nofun, (congrArg (· ++ []) nothing).symm⟩
  | cons first items ih =>
      obtain ⟨source, item⟩ := first
      have later : ∀ front source item back, items = front ++ (source, item) :: back →
          source ≠ own → item = .job ∧ ∀ text, (own, .extranonce text) ∉ back :=
        fun front source item back split =>
          others (_ :: front) source item back (congrArg (_ :: ·) split)
      by_cases same : source = own
      · simp only [List.filterMap_cons, if_pos same] at mine
        cases texts with
        | nil =>
            cases jobs with
            | nil => exact nomatch mine
            | cons head jobs =>
                obtain ⟨rfl, rest⟩ := List.cons.inj mine
                replace rest : items.filterMap (fun (source, item) =>
                    if source = own then some item else none) =
                      ([] : List Text).map .extranonce ++ jobs := rest
                obtain ⟨more, jobsOnly, listed⟩ := ih rest
                  (fun item member => only item (List.mem_cons_of_mem _ member)) later
                refine ⟨item :: more, ?_, congrArg (List.cons item) listed⟩
                exact List.forall_mem_cons.mpr ⟨only item List.mem_cons_self, jobsOnly⟩
        | cons text texts =>
            obtain ⟨rfl, rest⟩ := List.cons.inj mine
            obtain ⟨more, jobsOnly, listed⟩ := ih rest only later
            exact ⟨more, jobsOnly, congrArg (List.cons (Sent.extranonce text)) listed⟩
      · simp only [List.filterMap_cons, if_neg same] at mine
        obtain ⟨rfl, silent⟩ := others [] source item items rfl same
        have nothing : texts = [] := by
          refine List.eq_nil_iff_forall_not_mem.mpr fun text member => ?_
          have listed : .extranonce text ∈ texts.map .extranonce ++ jobs :=
            List.mem_append_left _ (List.mem_map_of_mem member)
          rw [← mine] at listed
          obtain ⟨⟨from', sent⟩, inItems, chosen⟩ := List.mem_filterMap.mp listed
          obtain ⟨rfl, carried⟩ := Option.ite_none_right_eq_some.mp chosen
          cases carried
          exact silent text inItems
        subst nothing
        obtain ⟨more, jobsOnly, listed⟩ := ih mine only later
        refine ⟨.job :: more, ?_, congrArg (List.cons Sent.job) listed⟩
        exact List.forall_mem_cons.mpr ⟨rfl, jobsOnly⟩

section Run

variable {events : List (bridge deployment).Event} {uid thread : Nat}

/-- A task owns the agent if those who could write it have finished before it starts. -/
theorem owns_agentOf
    (alone : ∀ front request back, (System.execute events).log =
      front ++ .started thread request :: back → ∀ other, other ≠ thread →
        (∃ event, .started other (.subscribe uid event) ∈ (System.execute events).log) ∨
          .accepted uid ∈ System.ownCalls handshakeCall other (System.execute events).log →
        ∃ result, .finished other result ∈ front) :
    System.Along (System.Owns (agentOf uid) thread fun _ _ => True) events := by
  refine System.owns_of_spared ?_
  intro front request between other op answer back split different state env after performed
  by_contra moved
  have whole : (System.execute events).log =
      (front ++ .started thread request :: between) ++ .did other op answer :: back := by
    rw [split, List.append_assoc, List.cons_append]
  have inLog : ∀ entry ∈ front ++ .started thread request :: between,
      entry ∈ (System.execute events).log := fun entry member =>
    whole ▸ List.mem_append_left _ member
  have permitted := (handshakes_execute events).calls _ _ _ _ _ whole
  have writes : (∃ event, .started other (.subscribe uid event) ∈ (System.execute events).log) ∨
      .accepted uid ∈ System.ownCalls handshakeCall other (System.execute events).log := by
    rcases agentOf_moved performed moved with ⟨text, rfl⟩ | ⟨app, rfl⟩
    · obtain ⟨served, started, ⟨accepted, -⟩ | ⟨⟨event, rfl⟩, -⟩⟩ := permitted
      · refine .inr ?_
        rw [whole, System.ownCalls_append]
        exact List.mem_append_left _ accepted
      · exact .inl ⟨event, inLog _ started⟩
    · obtain ⟨served, started, event, rfl⟩ := permitted
      exact .inl ⟨event, inLog _ started⟩
  obtain ⟨result, finished⟩ := alone front request _ split other different writes
  obtain ⟨before, after, cut⟩ := List.append_of_mem finished
  rw [cut, List.append_assoc, List.cons_append] at split
  refine System.no_calls_after_finish split op answer ?_
  exact List.mem_append_right _ (List.mem_cons_of_mem _ (List.mem_append_right _ List.mem_cons_self))

variable (deployment uid) in
/-- What a completed subscription of the connection has sent. -/
def SubscriptionSends (request : BridgeRequest) (result : BridgeResult) (agent : Text × Text)
    (made : List Sent) : Prop :=
  ∀ event, request = .subscribe uid event → result = .handled (.ok ()) →
    made = (subscribeSends deployment.settings agent.1 agent.2).map .extranonce

variable (deployment uid) in
/-- What a completed authorization of the connection has sent. -/
def AuthorizationSends (request : BridgeRequest) (result : BridgeResult) (agent : Text × Text)
    (made : List Sent) : Prop :=
  ∀ event, request = .authorize uid event → result = .handled (.ok ()) →
    ∃ jobs, (∀ item ∈ jobs, item = .job) ∧
      made = (authorizeSends deployment.settings agent.1 agent.2).map .extranonce ++ jobs

theorem bridgeProgram_subscription (request : BridgeRequest) (held : Text × Text) :
    Handles deployment uid (bridgeProgram deployment.settings request) held []
      (SubscriptionSends deployment uid request) := by
  by_cases subscribes : ∃ event, request = .subscribe uid event
  · obtain ⟨event, rfl⟩ := subscribes
    refine (handleSubscribe_handles event).bind fun result after made told => ?_
    intro _ _ fine
    exact told (BridgeResult.handled.inj fine)
  · exact (System.ensures_true _).mono fun _ _ _ _ event same => absurd ⟨event, same⟩ subscribes

theorem bridgeProgram_authorization (request : BridgeRequest) (held : Text × Text) :
    Handles deployment uid (bridgeProgram deployment.settings request) held []
      (AuthorizationSends deployment uid request) := by
  by_cases authorizes : ∃ event, request = .authorize uid event
  · obtain ⟨event, rfl⟩ := authorizes
    refine (handleAuthorize_handles event).bind fun result after made told => ?_
    intro _ _ fine
    obtain ⟨rfl, sent⟩ := told (BridgeResult.handled.inj fine)
    exact sent
  · exact (System.ensures_true _).mono fun _ _ _ _ event same => absurd ⟨event, same⟩ authorizes

section Completed

variable {subscriber authorizer : Nat}
  (shaken : Handshake (System.execute events).log uid subscriber authorizer)
include shaken

theorem Handshake.finished : .finished subscriber (.handled (.ok ())) ∈
    (System.execute events).log := by
  obtain ⟨event, authorizes⟩ := shaken.authorizes
  obtain ⟨front, back, split⟩ := List.append_of_mem authorizes
  exact split ▸ List.mem_append_left _ (shaken.subscribed front _ back split)

theorem Handshake.different : subscriber ≠ authorizer := by
  rintro rfl
  obtain ⟨subscription, subscribes⟩ := shaken.subscribes
  obtain ⟨authorization, authorizes⟩ := shaken.authorizes
  exact nomatch System.started_unique subscribes authorizes

/-- The subscription starts before the authorization. -/
theorem Handshake.starts_first {before after front back : Record deployment}
    {request served : BridgeRequest} {entry : (bridge deployment).Entry}
    (cut : (System.execute events).log = before ++ .started subscriber request :: after)
    (split : (System.execute events).log = front ++ .started authorizer served :: back)
    (early : entry ∈ before) : entry ∈ front := by
  have finished := shaken.subscribed front served back split
  rcases System.split_cases cut split with ⟨-, same, -⟩ | ⟨between, rfl, -⟩ | ⟨between, rfl, -⟩
  · exact absurd (System.Entry.started.inj same).1 shaken.different
  · exact List.mem_append_left _ early
  · obtain ⟨first, rest, rfl⟩ := List.append_of_mem finished
    have whole : (System.execute events).log = first ++ .finished subscriber (.handled (.ok ())) ::
        (rest ++ .started authorizer served :: back) := by
      rw [split, List.append_assoc, List.cons_append]
    obtain ⟨_, begun, -⟩ := (handshakes_execute events).finishes _ _ _ _ whole
    obtain ⟨start, middle, rfl⟩ := List.append_of_mem begun
    rw [List.append_assoc, List.append_assoc, List.append_assoc, List.cons_append] at cut
    refine absurd ?_ (System.started_once cut request)
    simp

theorem Handshake.subscriber_sends :
    System.ownCalls (sentTo uid) subscriber (System.execute events).log =
      (subscribeSends deployment.settings (agentOf uid (System.execute events).state).1
        (agentOf uid (System.execute events).state).2).map .extranonce := by
  obtain ⟨event, subscribes⟩ := shaken.subscribes
  have owns : System.Along (System.Owns (agentOf uid) subscriber fun _ _ => True) events := ?_
  · have owned := System.ensures_execute owns fun request held _ =>
      bridgeProgram_subscription request held
    exact owned.reached subscribes shaken.finished event rfl rfl
  · refine owns_agentOf ?_
    rintro front request back split other different (⟨event, started⟩ | accepted)
    · exact absurd (shaken.onlySubscription other event started) different
    · exact shaken.accepted front request back split other accepted

theorem Handshake.authorizer_sends :
    ∃ jobs, (∀ item ∈ jobs, item = .job) ∧
      System.ownCalls (sentTo uid) authorizer (System.execute events).log =
        (authorizeSends deployment.settings (agentOf uid (System.execute events).state).1
          (agentOf uid (System.execute events).state).2).map .extranonce ++ jobs := by
  obtain ⟨event, authorizes⟩ := shaken.authorizes
  obtain ⟨subscription, subscribes⟩ := shaken.subscribes
  have owns : System.Along (System.Owns (agentOf uid) authorizer fun _ _ => True) events := ?_
  · have owned := System.ensures_execute owns fun request held _ =>
      bridgeProgram_authorization request held
    exact owned.reached authorizes shaken.authorized event rfl rfl
  · refine owns_agentOf ?_
    rintro front request back split other different (⟨event, started⟩ | accepted)
    · obtain rfl := shaken.onlySubscription other event started
      exact ⟨_, shaken.subscribed front request back split⟩
    · obtain ⟨before, after, cut⟩ := List.append_of_mem subscribes
      obtain ⟨result, early⟩ := shaken.accepted before _ after cut other accepted
      exact ⟨result, shaken.starts_first cut split early⟩

/-- Nobody but the two handlers tells the connection an extranonce. -/
theorem Handshake.handler_of_sent {front back : Record deployment} {op : BridgeOp}
    {answer : op.Answer} {text : Text}
    (split : (System.execute events).log = front ++ .did thread op answer :: back)
    (sent : sentTo uid op answer = some (.extranonce text)) :
    thread = subscriber ∨ thread = authorizer := by
  obtain ⟨message, rfl, carries⟩ := exists_send_of_extranonce sent
  obtain ⟨request, started, permitted⟩ := (handshakes_execute events).calls _ _ _ _ _ split
  have inLog : .started thread request ∈ (System.execute events).log :=
    split ▸ List.mem_append_left _ started
  rcases permitted carries with ⟨event, rfl⟩ | ⟨event, rfl⟩
  · exact .inl (shaken.onlySubscription thread event inLog)
  · exact .inr (shaken.onlyAuthorization thread event inLog)

variable (behind : JobsBehind (System.execute events).log uid authorizer)
  {front back : Record deployment} {request : BridgeRequest}
  (split : (System.execute events).log = front ++ .started authorizer request :: back)
include behind split

/-- Before the authorization starts, only the subscription has sent anything. -/
theorem Handshake.sent_before : System.callsOf (sentTo uid) front =
    System.ownCalls (sentTo uid) subscriber (System.execute events).log := by
  have silent : System.ownCalls (sentTo uid) subscriber (.started authorizer request :: back) =
      [] := by
    refine List.eq_nil_iff_forall_not_mem.mpr fun item member => ?_
    obtain ⟨op, answer, inBack, -⟩ := System.mem_ownCalls.mp member
    obtain ⟨first, rest, rfl⟩ := List.append_of_mem (shaken.subscribed front request back split)
    rw [List.append_assoc, List.cons_append] at split
    exact System.no_calls_after_finish split op answer (List.mem_append_right _ inBack)
  rw [split, System.ownCalls_append, silent, List.append_nil]
  refine System.callsOf_eq_ownCalls fun other op answer item member sent => ?_
  obtain ⟨first, rest, rfl⟩ := List.append_of_mem member
  have notAuthorizer : other ≠ authorizer := by
    rintro rfl
    exact (handshakes_execute events).starts _ _ _ _ split op answer member
  rw [List.append_assoc, List.cons_append] at split
  cases item with
  | extranonce text => exact (shaken.handler_of_sent split sent).resolve_right notAuthorizer
  | job =>
      obtain ⟨⟨other, begun⟩, -⟩ := behind _ _ _ _ _ split sent notAuthorizer
      obtain ⟨start, middle, rfl⟩ := List.append_of_mem begun
      rw [List.append_assoc, List.cons_append] at split
      refine absurd ?_ (System.started_once split request)
      exact List.mem_append_right _ (List.mem_cons_of_mem _
        (List.mem_append_right _ List.mem_cons_self))

/-- After that come the extranonces of the authorization, and then only jobs. -/
theorem Handshake.sent_after {texts : List Text} {jobs : List Sent}
    (own : System.ownCalls (sentTo uid) authorizer (System.execute events).log =
      texts.map .extranonce ++ jobs) (only : ∀ item ∈ jobs, item = .job) :
    ∃ more, (∀ item ∈ more, item = .job) ∧
      System.callsOf (sentTo uid) back = texts.map .extranonce ++ more := by
  have silent : System.ownCalls (sentTo uid) authorizer front = [] := by
    refine List.eq_nil_iff_forall_not_mem.mpr fun item member => ?_
    obtain ⟨op, answer, inFront, -⟩ := System.mem_ownCalls.mp member
    exact (handshakes_execute events).starts _ _ _ _ split op answer inFront
  rw [split, System.ownCalls_append, silent, List.nil_append] at own
  rw [System.callsOf_eq_map]
  refine jobs_behind_extranonces (System.ownCalls_eq_filterMap authorizer back ▸ own) only ?_
  intro before other item after cut different
  obtain ⟨first, op, answer, rest, rfl, -, sent, remaining⟩ :=
    System.exists_split_of_callsBy cut
  have whole : (System.execute events).log =
      (front ++ .started authorizer request :: first) ++ .did other op answer :: rest := by
    rw [split, List.append_assoc, List.cons_append]
  have job : item = .job := by
    cases item with
    | job => rfl
    | extranonce text =>
        obtain rfl := (shaken.handler_of_sent whole sent).resolve_right different
        obtain ⟨start, middle, rfl⟩ := List.append_of_mem (shaken.subscribed front request _ split)
        rw [List.append_assoc, List.cons_append] at split
        refine absurd ?_ (System.no_calls_after_finish split op answer)
        exact List.mem_append_right _ (List.mem_cons_of_mem _
          (List.mem_append_right _ List.mem_cons_self))
  subst job
  refine ⟨rfl, fun text member => ?_⟩
  rw [← remaining] at member
  exact (behind _ _ _ _ _ whole sent different).2 text (System.mem_callsBy.mp member)

end Completed

/-- **Extranonce delivery.** In a run in which a connection with a non-empty extranonce
subscribes once and then authorizes once, it is told the extranonce in exactly one message,
before all jobs, if and only if its profile and user agent are among those on which the
handlers agree. -/
theorem extranonce_delivered_iff {subscriber authorizer : Nat}
    (shaken : Handshake (System.execute events).log uid subscriber authorizer)
    (behind : JobsBehind (System.execute events).log uid authorizer)
    (assigned : (agentOf uid (System.execute events).state).1 ≠ []) :
    TellsOnce (agentOf uid (System.execute events).state).1
        (System.callsOf (sentTo uid) (System.execute events).log) ↔
      DeliversOnce deployment.settings (agentOf uid (System.execute events).state).2 := by
  obtain ⟨event, authorizes⟩ := shaken.authorizes
  obtain ⟨front, back, split⟩ := List.append_of_mem authorizes
  obtain ⟨jobs, only, own⟩ := shaken.authorizer_sends
  obtain ⟨more, jobsOnly, after⟩ := shaken.sent_after behind split own only
  have before := (shaken.sent_before behind split).trans shaken.subscriber_sends
  have whole : System.callsOf (sentTo uid) (System.execute events).log =
      (subscribeSends deployment.settings (agentOf uid (System.execute events).state).1
        (agentOf uid (System.execute events).state).2 ++
      authorizeSends deployment.settings (agentOf uid (System.execute events).state).1
        (agentOf uid (System.execute events).state).2).map .extranonce ++ more := by
    rw [List.map_append, List.append_assoc, ← after, ← before, split, System.callsOf_append]
    rfl
  rw [whole, ← sends_once_iff deployment.settings assigned]
  exact tellsOnce_iff jobsOnly

end Run

end Model

/-! ## Sample runs -/

section Sample

attribute [local instance] Sample.platform

namespace Sample

/-- A miner subscribes with a user agent. -/
def subscribes (app : Text) : List (bridge (deployment none)).Event :=
  .start (.subscribe 1 ⟨none, [.string app]⟩) :: steps none 0 9 {}

/-- Then it authorizes and gets a job. -/
def handshake (app : Text) : List (bridge (deployment none)).Event :=
  subscribes app ++ .start (.authorize 1 ⟨none, [.string ['w']]⟩) ::
    (steps none 1 44 { template := .block easyBlock }
      ++ steps none 1 40 { template := .block easyParent })

/-- No other task takes part in the handshake. -/
def partakes : (bridge (deployment none)).Entry → Bool
  | .started thread (.subscribe _ _) => thread = 0
  | .started thread (.authorize _ _) => thread = 1
  | .did _ .newSessionUid _ => false
  | _ => true

/-- The task has completed its request. -/
def completes (thread : Nat) : (bridge (deployment none)).Entry → Bool
  | .finished other (.handled (.ok _)) => other = thread
  | _ => false

theorem finished_of_completes {log : Record (deployment none)} {thread : Nat}
    (completed : log.any (completes thread) = true) :
    .finished thread (.handled (.ok ())) ∈ log := by
  obtain ⟨entry, member, shown⟩ := List.any_eq_true.mp completed
  unfold completes at shown
  split at shown
  · obtain rfl := of_decide_eq_true shown
    exact member
  · exact nomatch shown

theorem handshake_shaken {app : Text}
    (counted : (System.execute (subscribes app)).count = 1)
    (subscribed : (System.execute (subscribes app)).log.any (completes 0) = true)
    (authorized : (System.execute (handshake app)).log.any (completes 1) = true)
    (alone : (System.execute (handshake app)).log.all partakes = true) :
    Handshake (System.execute (handshake app)).log 1 0 1 := by
  have partaking := List.all_eq_true.mp alone
  obtain ⟨back, second⟩ := System.log_of_start (subscribes app)
    (steps none 1 44 { template := .block easyBlock }
      ++ steps none 1 40 { template := .block easyParent })
    (.authorize 1 ⟨none, [.string ['w']]⟩)
  rw [counted] at second
  have first : ∃ rest, (System.execute (handshake app)).log =
      .started 0 (.subscribe 1 ⟨none, [.string app]⟩) :: rest := System.log_of_start [] _ _
  obtain ⟨rest, first⟩ := first
  refine ⟨⟨_, first ▸ List.mem_cons_self⟩, ⟨_, second ▸ List.mem_append_right _ List.mem_cons_self⟩,
    ?_, ?_, ?_, ?_, finished_of_completes authorized⟩
  · exact fun thread event started => of_decide_eq_true (partaking _ started)
  · exact fun thread event started => of_decide_eq_true (partaking _ started)
  · rintro front request rest - thread accepted
    obtain ⟨op, answer, made, chosen⟩ := System.mem_ownCalls.mp accepted
    cases handshakeCall_cases chosen with
    | accepted => exact nomatch partaking _ made
  · intro front request rest split
    have finished := finished_of_completes subscribed
    rcases System.split_cases split second with ⟨rfl, -, -⟩ | ⟨between, -, rfl⟩ | ⟨between, rfl, -⟩
    · exact finished
    · refine absurd ?_ (System.started_once split (.authorize 1 ⟨none, [.string ['w']]⟩))
      exact List.mem_append_right _ List.mem_cons_self
    · exact List.mem_append_left _ finished

/-- All jobs of a handshake are its own. -/
theorem handshake_behind {app : Text}
    (own : (System.callsBy (sentTo 1) (System.execute (handshake app)).log).all
      (fun (thread, item) => item ≠ .job || thread = 1) = true) :
    JobsBehind (System.execute (handshake app)).log 1 1 := by
  intro front thread op answer back split sent other
  have listed : (thread, Sent.job) ∈
      System.callsBy (sentTo 1) (System.execute (handshake app)).log := by
    refine System.mem_callsBy.mpr (System.mem_ownCalls.mpr ⟨op, answer, ?_, sent⟩)
    exact split ▸ List.mem_append_right _ List.mem_cons_self
  have same := List.all_eq_true.mp own _ listed
  simp only [ne_eq, not_true_eq_false, decide_false, Bool.false_or, decide_eq_true_eq] at same
  exact absurd same other

/-- An ordinary miner is told its extranonce by its authorization. -/
theorem extranonce_delivered_iff_sample :
    TellsOnce (Text.ofString "0000")
      (System.callsOf (sentTo 1) (System.execute (handshake ['m'])).log) := by
  have shaken : Handshake (System.execute (handshake ['m'])).log 1 0 1 :=
    handshake_shaken (by decide +kernel) (by decide +kernel) (by decide +kernel) (by decide +kernel)
  have held : agentOf 1 (System.execute (handshake ['m'])).state =
      (Text.ofString "0000", ['m']) := by
    decide +kernel
  have delivered := extranonce_delivered_iff shaken (handshake_behind (by decide +kernel))
    (held ▸ by decide)
  rw [held] at delivered
  exact delivered.mpr (by decide +kernel)

/-- A miner called `icm` is never told its extranonce. -/
theorem extranonce_undelivered :
    Handshake (System.execute (handshake (Text.ofString "icm"))).log 1 0 1 ∧
      (agentOf 1 (System.execute (handshake (Text.ofString "icm"))).state).1 =
        Text.ofString "0000" ∧
      ¬TellsOnce (Text.ofString "0000")
        (System.callsOf (sentTo 1) (System.execute (handshake (Text.ofString "icm"))).log) := by
  have sent : System.callsOf (sentTo 1)
      (System.execute (handshake (Text.ofString "icm"))).log = [.job] := by
    decide +kernel
  refine ⟨handshake_shaken ?_ ?_ ?_ ?_, by decide +kernel, ?_⟩
  iterate 4 decide +kernel
  rw [sent]
  rintro ⟨jobs, told, -⟩
  exact nomatch told

end Sample

end Sample

end StratumBridge
