import StratumBridge.Bridge.DuplicateAnswers
import StratumBridge.Interaction.Progress

/-! # The answer to a submission

The handler of a submission answers every request it can decode, in each of its exits. A
request it cannot decode ends in an error, and the read loop of the connection only logs it:
the miner never hears of it.
-/

namespace StratumBridge

open Interaction

section Model

variable [Platform] {deployment : Deployment}

/-! ## Decoding -/

def GuardCall.readOf (uid : Nat) : GuardCall → Option Context
  | .read other context => if other = uid then some context else none
  | _ => none

/-- The states of the connection that a task saw, in order. -/
def contextsRead (uid : Nat) (calls : List GuardCall) : List Context :=
  calls.filterMap (GuardCall.readOf uid)

/-- The handler can decode the request: three parameters, a job number, a job that the ring of
the connection holds when it is asked, and a nonce that is a number under the extranonce the
connection has when the nonce is decoded. -/
structure Decodable (uid : Nat) (event : SubmitEvent) (calls : List GuardCall) : Prop where
  params : 3 ≤ event.params.length
  named : ∃ param jobId, event.params[1]? = some param ∧ parseJobId param = .ok jobId
  retained : ∃ id job, .looked uid id job ∈ calls
  spelled : ∃ text context nonce, nonceParam event.params = .ok text ∧
    (contextsRead uid calls)[1]? = some context ∧
      Text.parseU64 16 (finalNonceText context.extranonce text) = some nonce

theorem contextsRead_append (uid : Nat) (calls more : List GuardCall) :
    contextsRead uid (calls ++ more) = contextsRead uid calls ++ contextsRead uid more :=
  List.filterMap_append

theorem Decodable.append {uid : Nat} {event : SubmitEvent} {calls : List GuardCall}
    (decodable : Decodable uid event calls) (more : List GuardCall) :
    Decodable uid event (calls ++ more) := by
  obtain ⟨params, named, ⟨id, job, looked⟩, text, context, nonce, param, read, parsed⟩ := decodable
  refine ⟨params, named, ⟨id, job, List.mem_append_left _ looked⟩, text, context, nonce, param, ?_,
    parsed⟩
  obtain ⟨inside, same⟩ := List.getElem?_eq_some_iff.mp read
  rw [contextsRead_append, List.getElem?_append_left inside]
  exact read

/-- Only decodable submissions are checked against the guard. -/
def DecodingPermits (request : BridgeRequest) (calls : List GuardCall) : BridgeOp → Prop
  | .checkSubmission _ _ _ => ∀ uid event, request = .submit uid event → Decodable uid event calls
  | _ => True

/-- A submission that did nothing but read could not be decoded. -/
def DecodingCompletes : BridgeRequest → List GuardCall → Prop
  | .submit uid event, calls => (∀ call ∈ calls, call.Idle) → ¬Decodable uid event calls
  | _, _ => True

@[reducible] def decodings : Protocol bridgeSignature BridgeRequest GuardCall BridgeResult where
  select := guardCall
  permits := DecodingPermits
  answers := fun _ _ => True
  completes := fun request calls _ => DecodingCompletes request calls

theorem decodingPermits_of_decodable {uid : Nat} {event : SubmitEvent} {calls : List GuardCall}
    (decodable : Decodable uid event calls) (op : BridgeOp) :
    DecodingPermits (.submit uid event) calls op := by
  unfold DecodingPermits
  split
  · rintro _ _ ⟨⟩
    exact decodable
  · trivial

section Handler

variable {request : BridgeRequest} {calls : List GuardCall} {α β : Type} {uid : Nat}
  {event : SubmitEvent}

/-- One call, then the rest. -/
theorem decoding_call (op : BridgeOp) {rest : op.Answer → Task α}
    {post : List GuardCall → α → Prop} (permitted : DecodingPermits request calls op)
    (tail : ∀ answer, decodings.Obeys request (calls ++ (guardCall op answer).toList)
      (rest answer) post) :
    decodings.Obeys request calls (call op >>= rest) post :=
  ⟨permitted, fun answer _ => tail answer⟩

/-- Once a submission is decoded, the handler is free to go on. -/
theorem obeys_of_decodable {task : Task α} (decodable : Decodable uid event calls) :
    decodings.Obeys (.submit uid event) calls task fun after _ =>
      ∃ added, after = calls ++ added := by
  induction task generalizing calls with
  | done result => exact Protocol.obeys_done ⟨[], (List.append_nil calls).symm⟩
  | call op next ih =>
      refine ⟨decodingPermits_of_decodable decodable op, fun answer _ => ?_⟩
      refine (ih answer (decodable.append (guardCall op answer).toList)).mono ?_
      rintro _ _ ⟨added, rfl⟩
      exact ⟨(guardCall op answer).toList ++ added, List.append_assoc ..⟩

/-- The kinds of operations that neither check, evaluate, credit or answer a submission, nor
look up its job. -/
def lookinglessKinds : List Kind :=
  Kind.except [.checkSubmission, .setOutcome, .checkPow, .creditWrite, .verdict, .jobRead]

/-- The call looks up no job. -/
def GuardCall.Reads (call : GuardCall) : Prop := ∃ uid context, call = .read uid context

/-- A task of other kinds only reads connections. -/
theorem Uses.onlyReads {kinds : List Kind} {task : Task α} (uses : Uses kinds task)
    (subset : kinds ⊆ lookinglessKinds) :
    decodings.Obeys request calls task fun after _ =>
      ∃ added, after = calls ++ added ∧ ∀ call ∈ added, call.Reads := by
  have unchecked : Kind.checkSubmission ∉ lookinglessKinds := by decide
  have unlooked : Kind.jobRead ∉ lookinglessKinds := by decide
  have unguarded : lookinglessKinds ⊆ unguardedKinds := by decide
  apply Protocol.obeys_of_passes
  refine Program.Within.mono uses fun op member => ⟨fun request calls => ?_, ?_⟩
  · change DecodingPermits request calls op
    unfold DecodingPermits
    split
    · exact absurd (subset member) unchecked
    · trivial
  · intro answer item chosen
    have idle := idle_of_unguarded (unguarded (subset member)) answer item chosen
    cases guardCall_cases chosen with
    | read other context => exact ⟨other, context, rfl⟩
    | looked other id job => exact absurd (subset member) unlooked
    | _ => exact idle.elim

/-- The calls found no job. -/
theorem not_retained {added : List GuardCall} (reads : ∀ call ∈ added, call.Reads) :
    ¬∃ id job, .looked uid id job ∈ added := by
  rintro ⟨id, job, member⟩
  obtain ⟨other, context, absurdity⟩ := reads _ member
  exact nomatch absurdity

/-- A job lookup records the job it found, and nothing else. -/
theorem findJob_decoding (jobId : Nat) :
    decodings.Obeys request calls (findJob uid jobId) fun after found =>
      (found = none ∧ after = calls) ∨ ∃ id job, found = some (id, job) ∧
        after = calls ++ [.looked uid id job] := by
  refine decoding_call (.ring uid (.getJob jobId)) trivial fun (job : Option Job) => ?_
  cases job with
  | some job => exact Protocol.obeys_done (Or.inr ⟨jobId, job, rfl, rfl⟩)
  | none =>
      refine decoding_call (.ring uid .storedJobIds) trivial fun (ids : List Nat) => ?_
      cases ids.max? with
      | none => exact Protocol.obeys_done (Or.inl ⟨rfl, by simp [guardCall]⟩)
      | some newest =>
          refine decoding_call (.ring uid (.getJob newest)) trivial fun (latest : Option Job) => ?_
          cases latest with
          | some job => exact Protocol.obeys_done (Or.inr ⟨newest, job, rfl, by simp [guardCall]⟩)
          | none => exact Protocol.obeys_done (Or.inl ⟨rfl, by simp [guardCall]⟩)

/-- A decoded submission is checked, and does more than read. -/
theorem handleDecoded_decoding {settings : Settings} {submission : Submission} {job : Job}
    (decodable : Decodable uid event calls) :
    decodings.Obeys (.submit uid event) calls (handleDecoded settings submission job)
      fun after _ => ∃ call ∈ after, ¬call.Idle := by
  refine decoding_call .now trivial fun (now : Nat) => ?_
  refine decoding_call (.checkSubmission submission.instanceId submission.key now) ?_
    fun (seen : Option DuplicateSubmitOutcome) => ?_
  · exact decodingPermits_of_decodable (decodable.append _) _
  · have checked : ∃ call ∈ (guardCall (.checkSubmission submission.instanceId submission.key now)
        seen).toList, ¬call.Idle := by
      cases seen with
      | none => exact ⟨_, List.mem_cons_self, id⟩
      | some outcome => exact ⟨_, List.mem_cons_self, id⟩
    obtain ⟨call, member, busy⟩ := checked
    refine (obeys_of_decodable ((decodable.append _).append _)).mono ?_
    rintro _ _ ⟨added, rfl⟩
    exact ⟨call, List.mem_append_left _ (List.mem_append_right _ member), busy⟩

/-- The rest of the handler, with a job in hand. -/
theorem decodeAndHandle_decoding {settings : Settings} {instanceId correlationId jobId id : Nat}
    {first : Context} {param : Value} {job : Job} (params : 3 ≤ event.params.length)
    (second : event.params[1]? = some param) (parsed : parseJobId param = .ok jobId) :
    decodings.Obeys (.submit uid event) [.read uid first, .looked uid id job]
      (decodeAndHandle settings instanceId uid correlationId event id job)
      fun after _ => (∀ call ∈ after, call.Idle) → ¬Decodable uid event after := by
  unfold decodeAndHandle
  split
  case h_1 error refused =>
    refine Protocol.obeys_done fun _ decodable => ?_
    obtain ⟨text, -, -, accepted, -⟩ := decodable.spelled
    exact nomatch refused.symm.trans accepted
  case h_2 nonceText accepted =>
    refine decoding_call (.context uid .read) trivial fun (context : Context) => ?_
    have reads : contextsRead uid ([.read uid first, .looked uid id job] ++ [.read uid context]) =
        [first, context] := by
      simp [contextsRead, List.filterMap_cons, GuardCall.readOf]
    dsimp only
    split
    case h_1 refused =>
      refine Protocol.obeys_done fun _ decodable => ?_
      obtain ⟨text, seen, nonce, alsoAccepted, read, spelled⟩ := decodable.spelled
      have same : some context = some seen := by
        refine Eq.trans ?_ read
        change _ = (contextsRead uid ([.read uid first, .looked uid id job] ++
          [.read uid context]))[1]?
        rw [reads]
        rfl
      cases same
      cases accepted.symm.trans alsoAccepted
      exact nomatch refused.symm.trans spelled
    case h_2 nonce spelled =>
      have decodable : Decodable uid event
          ([.read uid first, .looked uid id job] ++ [.read uid context]) := by
        refine ⟨params, ⟨param, jobId, second, parsed⟩, ⟨id, job, ?_⟩, nonceText, context, nonce,
          accepted, ?_, spelled⟩
        · exact List.mem_append_left _ (List.mem_cons_of_mem _ List.mem_cons_self)
        · rw [reads]
          rfl
      refine (obeys_of_decodable decodable).bind ?_
      rintro _ worker ⟨added, rfl⟩
      refine (handleDecoded_decoding (decodable.append added)).mono ?_
      rintro after _ ⟨call, member, busy⟩ idle
      exact absurd (idle call member) busy

theorem handleSubmit_decoding (settings : Settings) :
    decodings.Obeys (.submit uid event) [] (handleSubmit settings uid event)
      fun after _ => (∀ call ∈ after, call.Idle) → ¬Decodable uid event after := by
  have quiet : Kind.quiet ∈ lookinglessKinds := by decide
  refine decoding_call .newCorrelationId trivial fun (correlationId : Nat) => ?_
  refine decoding_call (.context uid .read) trivial fun (first : Context) => ?_
  split
  case h_1 head param third rest shape =>
    have params : 3 ≤ event.params.length := by
      rw [shape]
      simp only [List.length_cons]
      omega
    have second : event.params[1]? = some param := by rw [shape]; rfl
    split
    case h_1 error refused =>
      refine Protocol.obeys_done fun _ decodable => ?_
      obtain ⟨again, jobId, alsoSecond, accepted⟩ := decodable.named
      cases second.symm.trans alsoSecond
      exact nomatch refused.symm.trans accepted
    case h_2 jobId parsed =>
      refine (findJob_decoding jobId).bind ?_
      rintro _ found (⟨rfl, rfl⟩ | ⟨id, job, rfl, rfl⟩)
      · refine ((rejectSubmission_uses quiet _ _ _ _ _ _).onlyReads (List.Subset.refl _)).mono ?_
        rintro _ _ ⟨added, rfl, reads⟩ _ decodable
        obtain ⟨id, job, looked⟩ := decodable.retained
        rcases List.mem_append.mp looked with early | late
        · exact nomatch List.mem_singleton.mp early
        · exact not_retained reads ⟨id, job, late⟩
      · exact decodeAndHandle_decoding params second parsed
  case h_2 shape =>
    refine ((rejectSubmission_uses quiet _ _ _ _ _ _).onlyReads (List.Subset.refl _)).mono ?_
    rintro after _ - - decodable
    have params := decodable.params
    rcases cut : event.params with _ | ⟨first, _ | ⟨second, _ | ⟨third, rest⟩⟩⟩
    · simp [cut] at params
    · simp [cut] at params
    · simp [cut] at params
    · exact shape first second third rest cut

end Handler

/-- **Tasks decode before they check.** -/
theorem bridgeProgram_decoding (settings : Settings) (request : BridgeRequest) :
    decodings.Obeys request [] (bridgeProgram settings request)
      fun calls _ => DecodingCompletes request calls := by
  have free : (∀ uid event, request ≠ .submit uid event) →
      decodings.Obeys request [] (bridgeProgram settings request) fun _ _ => True := by
    intro other
    apply Protocol.obeys_of_permitted
    refine Program.Within.mono (bridgeProgram_uses settings request) fun op _ calls => ?_
    change DecodingPermits request calls op
    unfold DecodingPermits
    split
    · exact fun uid event same => absurd same (other uid event)
    · trivial
  cases request with
  | submit uid event =>
      exact (handleSubmit_decoding settings).bind fun _ _ undecoded => Protocol.obeys_done undecoded
  | _ => exact free fun _ _ absurdity => nomatch absurdity

theorem decodings_execute (events : List (bridge deployment).Event) :
    @System.Explained (bridge deployment) GuardCall decodings (System.execute events).log :=
  System.explained_execute (bridgeProgram_decoding deployment.settings) events
    fun _ _ _ _ => trivial

/-! ## Answers -/

/-- The id of the request that a message answers. -/
def Message.answers : Message → Option (Option Value)
  | .reply id _ | .error id _ _ | .subscribed id _ => some id
  | _ => none

/-- The answers that reach the miner of a connection. -/
def answerTo (uid : Nat) : (op : BridgeOp) → op.Answer → Option (Option Value)
  | .send other message, true => if other = uid then message.answers else none
  | _, _ => none

/-- What a task told a miner, as an answer to the miner of this connection. -/
def tellTo (uid : Nat) (told : Nat × Message) : Option (Option Value) :=
  if told.1 = uid then told.2.answers else none

/-- A message that reaches its miner answers what it answers. -/
theorem answerTo_send {uid other : Nat} {message : Message} {delivered : Bool}
    (up : other = uid → delivered = true) :
    answerTo uid (.send other message) delivered = tellTo uid (other, message) := by
  by_cases same : other = uid
  · rw [up same]
    rfl
  · rw [tellTo, if_neg same]
    cases delivered with
    | true => exact if_neg same
    | false => rfl

omit [Platform] in
/-- A request with an id is answered once under each outcome. -/
theorem outcomeReplies_answers (uid : Nat) (id : Value) (outcome : DuplicateSubmitOutcome) :
    (outcomeReplies uid (some id) outcome).filterMap (tellTo uid) = [some id] := by
  have own : ∀ message : Message, message.answers = some (some id) →
      [(uid, message)].filterMap (tellTo uid) = [some id] := by
    intro message answers
    have told : tellTo uid (uid, message) = some (some id) := (if_pos rfl).trans answers
    rw [List.filterMap_cons_some told, List.filterMap_nil]
  cases outcome <;> exact own _ rfl

/-- A task only uses operations of the kinds of its request. -/
@[reducible] def footprints : Protocol bridgeSignature BridgeRequest Unit BridgeResult where
  select := fun _ _ => none
  permits := fun request _ op => op.kind ∈ request.kinds
  answers := fun _ _ => True
  completes := fun _ _ _ => True

theorem kind_of_did {events : List (bridge deployment).Event} {thread : Nat}
    {request : BridgeRequest} {op : BridgeOp} {answer : op.Answer}
    (started : .started thread request ∈ (System.execute events).log)
    (called : .did thread op answer ∈ (System.execute events).log) : op.kind ∈ request.kinds := by
  have explained : @System.Explained (bridge deployment) Unit footprints
      (System.execute events).log := by
    refine System.explained_execute (fun request => ?_) events fun _ _ _ _ => trivial
    apply Protocol.obeys_of_permitted
    exact Program.Within.mono (bridgeProgram_uses deployment.settings request)
      fun op member _ => member
  obtain ⟨front, back, split⟩ := List.append_of_mem called
  obtain ⟨served, begun, permitted⟩ := explained.calls front thread op answer back split
  obtain rfl := System.started_unique started (split ▸ List.mem_append_left _ begun)
  exact permitted

section Run

variable {events : List (bridge deployment).Event} {thread uid : Nat} {event : SubmitEvent}

/-- While the connection is up, the answers that reach the miner are those the task told it. -/
theorem answers_eq_told
    (started : .started thread (.submit uid event) ∈ (System.execute events).log)
    (up : ∀ message delivered, .did thread (.send uid message) delivered ∈
      (System.execute events).log → delivered = true) :
    System.ownCalls (answerTo uid) thread (System.execute events).log =
      (told thread (System.execute events).log).filterMap (tellTo uid) := by
  have extended : Kind.sendExtranonce ∉ (BridgeRequest.submit uid event).kinds :=
    (by decide : Kind.sendExtranonce ∉ submissionKinds)
  rw [told, List.filterMap_filterMap, ← System.ownCalls_bind]
  refine System.ownCalls_congr fun op answer member => ?_
  change answerTo uid op answer =
    (guardCall op answer).bind fun call => call.tell.bind (tellTo uid)
  cases chosen : guardCall op answer with
  | none =>
      unfold answerTo
      split
      · next other message =>
          split
          · next same =>
              cases message with
              | reply | error => exact nomatch chosen
              | subscribed => exact absurd (kind_of_did started member) extended
              | _ => rfl
          · rfl
      · rfl
  | some item =>
      cases guardCall_cases chosen with
      | replied other id result =>
          refine answerTo_send fun same => ?_
          subst same
          exact up _ _ member
      | refused other id code message =>
          refine answerTo_send fun same => ?_
          subst same
          exact up _ _ member
      | _ => rfl

/-- A task that checked against the guard had decoded its request. -/
theorem decodable_of_checked {instanceId : Nat} {key : Text} {now : Nat}
    {seen : Option DuplicateSubmitOutcome}
    (started : .started thread (.submit uid event) ∈ (System.execute events).log)
    (checked : .did thread (.checkSubmission instanceId key now) seen ∈
      (System.execute events).log) :
    Decodable uid event (System.ownCalls guardCall thread (System.execute events).log) := by
  obtain ⟨front, back, split⟩ := List.append_of_mem checked
  obtain ⟨request, begun, permitted⟩ := (decodings_execute events).calls front thread
    (.checkSubmission instanceId key now) seen back split
  obtain rfl := System.started_unique started (split ▸ List.mem_append_left _ begun)
  have decodable : Decodable uid event (System.ownCalls guardCall thread front) :=
    permitted uid event rfl
  rw [split, System.ownCalls_append]
  exact decodable.append _

/-- A submission that ended is decodable, unless it did nothing but read. -/
theorem decodable_iff_of_finished {result : BridgeResult}
    (started : .started thread (.submit uid event) ∈ (System.execute events).log)
    (finished : .finished thread result ∈ (System.execute events).log) :
    Decodable uid event (System.ownCalls guardCall thread (System.execute events).log) ↔
      ¬∀ call ∈ System.ownCalls guardCall thread (System.execute events).log, call.Idle := by
  constructor
  · intro decodable idle
    obtain ⟨front, back, split⟩ := List.append_of_mem finished
    obtain ⟨request, begun, completes⟩ :=
      (decodings_execute events).finishes front thread result back split
    obtain rfl := System.started_unique started (split ▸ List.mem_append_left _ begun)
    rw [System.ownCalls_of_finished split] at decodable idle
    exact completes idle decodable
  · intro busy
    have checked : ∃ instanceId key now seen,
        .did thread (.checkSubmission instanceId key now) seen ∈ (System.execute events).log := by
      rcases handled_of_finished started finished with
        idle | ⟨_, _, _, before, _, same⟩ | ⟨submission, _, admitted, _, _, _, _⟩
      · exact absurd idle busy
      · obtain ⟨op, answer, member, guarded⟩ := exists_did_of_guarded
          (same ▸ List.mem_append_right before List.mem_cons_self)
        cases guarded with
        | seen => exact ⟨_, _, _, _, member⟩
      · obtain ⟨op, answer, member, guarded⟩ := exists_did_of_guarded admitted.1
        cases guarded with
        | admitted => exact ⟨_, _, _, _, member⟩
    obtain ⟨instanceId, key, now, seen, member⟩ := checked
    exact decodable_of_checked started member

end Run

/-! ## Exits -/

/-- Only the job-build lock and the permits of the parent gate make a task wait. -/
theorem ready_of_kind {op : BridgeOp} (build : op.kind ≠ .buildLock) (permit : op.kind ≠ .permit) :
    @System.Ready (bridge deployment) op := by
  intro state env
  cases op with
  | context uid op =>
      cases op with
      | lockJobBuild => exact absurd rfl build
      | _ => exact ⟨_, _, rfl⟩
  | parent op =>
      cases op with
      | acquirePermit => exact absurd rfl permit
      | _ => exact ⟨_, _, rfl⟩
  | _ => exact ⟨_, _, rfl⟩

/-- A submission ends under every schedule that lets it run again and again. -/
theorem submission_finishes {events : List (bridge deployment).Event} {thread uid : Nat}
    {event : SubmitEvent} {schedule : Nat → (bridge deployment).Event}
    (started : .started thread (.submit uid event) ∈ (System.execute events).log)
    (fair : System.Fair thread schedule) :
    ∃ later result, .finished thread result ∈ (System.scheduled events schedule later).log := by
  have atOnce : System.scheduled events schedule 0 = System.execute events :=
    congrArg System.execute (List.append_nil events)
  have below := System.lt_count_of_started started
  cases running : (System.execute events).running thread with
  | none =>
      obtain ⟨result, finished⟩ := (System.tasks_execute events).2.2 thread below running
      exact ⟨0, result, atOnce ▸ finished⟩
  | some program =>
      obtain ⟨request, begun, within⟩ := @System.running_within (bridge deployment) thread
        (fun request op => op.kind ∈ request.kinds)
        (fun request => bridgeProgram_uses deployment.settings request) events program running
      obtain rfl := System.started_unique started begun
      have noLock : Kind.buildLock ∉ submissionKinds := by decide
      have noPermit : Kind.permit ∉ submissionKinds := by decide
      refine @System.Fair.finishes (bridge deployment) thread schedule fair events 0 program ?_
        (atOnce ▸ running)
      refine Program.Within.mono within fun op member => ready_of_kind ?_ ?_
      · exact fun same => noLock (same ▸ member)
      · exact fun same => noPermit (same ▸ member)

/-- **The answer to a submission.** A submission with an id ends under every fair schedule.
When it ended while its connection was up, its miner got exactly one answer, and under that
id, if and only if the handler could decode the request. -/
theorem submission_answered_iff {events : List (bridge deployment).Event} {thread uid : Nat}
    {event : SubmitEvent} {id : Value} (named : event.id = some id)
    (started : .started thread (.submit uid event) ∈ (System.execute events).log) :
    (∀ schedule : Nat → (bridge deployment).Event, System.Fair thread schedule →
      ∃ later result, .finished thread result ∈ (System.scheduled events schedule later).log) ∧
    ∀ result, .finished thread result ∈ (System.execute events).log →
      (∀ message delivered, .did thread (.send uid message) delivered ∈
        (System.execute events).log → delivered = true) →
      (System.ownCalls (answerTo uid) thread (System.execute events).log = [some id] ↔
        Decodable uid event (System.ownCalls guardCall thread (System.execute events).log)) := by
  refine ⟨fun schedule fair => submission_finishes started fair, fun result finished up => ?_⟩
  rw [answers_eq_told started up, decodable_iff_of_finished started finished]
  have handled := handled_of_finished started finished
  rw [named] at handled
  constructor
  · intro answered idle
    rw [told, tells_of_idle idle] at answered
    exact nomatch answered
  · intro busy
    have tells : ∃ outcome,
        told thread (System.execute events).log = outcomeReplies uid (some id) outcome := by
      rcases handled with
        idle | ⟨instanceId, key, outcome, _, _, same⟩ | ⟨_, outcome, _, _, _, _, tells⟩
      · exact absurd idle busy
      · refine ⟨outcome, ?_⟩
        have seen := told_of_seen (same ▸ List.mem_append_right _ List.mem_cons_self) started
          finished
        rw [named] at seen
        exact seen
      · exact ⟨outcome, tells⟩
    obtain ⟨outcome, tells⟩ := tells
    rw [tells]
    exact outcomeReplies_answers uid id outcome

end Model

section Sample

attribute [local instance] Sample.platform

/-- A submission with the id 7: the nonce 5 for job 1. -/
def namedSubmit : SubmitEvent :=
  ⟨some (.number (some 7)), [.string ['w'], .string ['1'], .string ['5']]⟩

/-- The miner submits after it got its job. -/
def answeredRun : List (bridge (Sample.deployment none)).Event :=
  Sample.publishes 0 1 ++ .start (.submit 1 namedSubmit) :: Sample.steps none 1 90 {}

/-- The miner submits before it got any job. -/
def unansweredRun : List (bridge (Sample.deployment none)).Event :=
  [] ++ .start (.submit 1 namedSubmit) :: Sample.steps none 0 30 {}

/-- Whether a message reached its miner. -/
private def delivery : (op : BridgeOp) → op.Answer → Option Bool
  | .send _ _, delivered => some delivered
  | _, _ => none

private theorem up_of_deliveries {log : Record (Sample.deployment none)} {thread uid : Nat}
    (all : (System.ownCalls delivery thread log).all id = true) (message : Message)
    (delivered : Bool) (sent : .did thread (.send uid message) delivered ∈ log) :
    delivered = true := by
  apply List.all_eq_true.mp all
  exact System.mem_ownCalls.mpr ⟨.send uid message, delivered, sent, rfl⟩

private theorem started_of_run {before after : List (bridge (Sample.deployment none)).Event}
    {thread : Nat} {request : BridgeRequest} (count : (System.execute before).count = thread) :
    .started thread request ∈ (System.execute (before ++ .start request :: after)).log := by
  obtain ⟨back, grown⟩ := System.log_of_start before after request
  rw [grown, count]
  exact List.mem_append_right _ List.mem_cons_self

/-- The answered submission was decoded. -/
theorem submission_answered_iff_sample :
    Decodable 1 namedSubmit (System.ownCalls guardCall 1 (System.execute answeredRun).log) := by
  have started : .started 1 (.submit 1 namedSubmit) ∈ (System.execute answeredRun).log :=
    started_of_run (by decide +kernel)
  have up : (System.ownCalls delivery 1 (System.execute answeredRun).log).all id = true := by
    decide +kernel
  obtain ⟨result, finished⟩ : ∃ result, .finished 1 result ∈ (System.execute answeredRun).log :=
    System.exists_finished (by decide +kernel)
  refine ((submission_answered_iff rfl started).2 result finished (up_of_deliveries up)).mp ?_
  decide +kernel

/-- A well-formed submission of a miner without a job is never answered. -/
theorem submission_unanswered :
    ¬ ∀ (events : List (bridge (Sample.deployment none)).Event) (thread uid : Nat)
        (event : SubmitEvent) (id : Value) (result : BridgeResult), event.id = some id →
      .started thread (.submit uid event) ∈ (System.execute events).log →
      .finished thread result ∈ (System.execute events).log →
      (∀ message delivered, .did thread (.send uid message) delivered ∈
        (System.execute events).log → delivered = true) →
      System.ownCalls (answerTo uid) thread (System.execute events).log = [some id] := by
  intro always
  have started : .started 0 (.submit 1 namedSubmit) ∈ (System.execute unansweredRun).log :=
    started_of_run rfl
  have up : (System.ownCalls delivery 0 (System.execute unansweredRun).log).all id = true := by
    decide +kernel
  obtain ⟨result, finished⟩ : ∃ result, .finished 0 result ∈ (System.execute unansweredRun).log :=
    System.exists_finished (by decide +kernel)
  have silent : System.ownCalls (answerTo 1) 0 (System.execute unansweredRun).log = [] := by
    decide +kernel
  have answered := always unansweredRun 0 1 namedSubmit _ result rfl started finished
    (up_of_deliveries up)
  exact nomatch silent.symm.trans answered

end Sample

end StratumBridge
