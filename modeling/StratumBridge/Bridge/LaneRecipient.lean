import StratumBridge.Bridge.Lanes

/-! # Whom the parents of a lane pay

The full template of a lane requests its parent for one recipient. A refresh requests
another parent of the lane for whatever payout address the connection has by then, so the
parents of a lane pay one recipient exactly as long as refreshes find that address.
-/

namespace StratumBridge

open Interaction

section Model

variable [Platform] {deployment : Deployment}

/-- The full template of the lane requested its parent for the recipient. -/
def TemplateAsked (log : Record deployment) (hFc : Hash) (pay : Address) : Prop :=
  ∃ thread fcBlock, LaneCall.issued fcBlock ∈ System.ownCalls laneCall thread log ∧
    fcBlock.header.hash = hFc ∧
    LaneCall.asked pay (parentExtraData hFc) ∈ System.ownCalls laneCall thread log

/-- The task that kept the lane built it as a full template for the payee. -/
def TemplateFor (log : Record deployment) (hFc : Hash) (payee : Option Address) : Prop :=
  ∃ front thread fcBlock paidPool back pre asks,
    log = front ++ .did thread (.pending (.insertWithPayee hFc fcBlock paidPool)) () :: back ∧
    System.ownCalls laneCall thread front = pre ++ [.issued fcBlock] ++ asks ∧
    Unbuilt pre ∧ hFc = fcBlock.header.hash ∧ TemplatePayee pre payee ∧
    AsksFor deployment.settings payee hFc asks

/-- A refresh of an open lane that reads the payout address of its connection finds the
recipient the full template of the lane requested. -/
def RefreshKeepsRecipient (config : (bridge deployment).Config)
    (event : (bridge deployment).Event) : Prop :=
  ∀ thread uid job hFc pay, System.Calls config event thread (BridgeOp.context uid .kasPayout) →
    .started thread (.newParent uid) ∈ config.log →
    LaneCall.found job ∈ System.ownCalls laneCall thread config.log →
    committedHFc job.block = some hFc → config.state.pending.isUnsolved hFc = true →
    TemplateAsked config.log hFc pay →
      parentRecipient deployment.settings (config.state.contexts uid).kasPayout = some pay

/-- Parents are fetched by templates and refreshes only. -/
def NoDirectFetch (log : Record deployment) : Prop :=
  ∀ thread hFc payee force, .started thread (.fetchKaspaParent hFc payee force) ∉ log

section Requests

variable {front back log : Record deployment} {thread : Nat} {hFc : Hash} {pay : Address}

theorem ownCalls_mono {item : LaneCall} (longer : front <+: log)
    (member : item ∈ System.ownCalls laneCall thread front) :
    item ∈ System.ownCalls laneCall thread log := by
  obtain ⟨rest, rfl⟩ := longer
  rw [System.ownCalls_append]
  exact List.mem_append_left _ member

theorem TemplateAsked.mono (asked : TemplateAsked front hFc pay) (longer : front <+: log) :
    TemplateAsked log hFc pay := by
  obtain ⟨builder, fcBlock, issued, lane, requested⟩ := asked
  exact ⟨builder, fcBlock, ownCalls_mono longer issued, lane, ownCalls_mono longer requested⟩

theorem Asked.mono (asked : Asked front pay hFc) (longer : front <+: log) : Asked log pay hFc := by
  obtain ⟨reply, recorded⟩ := asked
  exact ⟨reply, System.Recorded.mono recorded longer⟩

end Requests

/-- The moment a task read a payout address. -/
theorem exists_read_of_payout {events : List (bridge deployment).Event}
    {front : Record deployment} {thread uid : Nat} {payee : Option Address}
    {before after : List LaneCall} (reached : front <+: (System.execute events).log)
    (calls : System.ownCalls laneCall thread front = before ++ .payout uid payee :: after) :
    ∃ past event rest later, events = past ++ event :: rest ∧
      System.Calls (System.execute past) event thread (BridgeOp.context uid .kasPayout) ∧
      ((System.execute past).state.contexts uid).kasPayout = payee ∧
      front = (System.execute past).log ++
        @System.Entry.did (bridge deployment) thread (.context uid .kasPayout) payee :: later ∧
      System.ownCalls laneCall thread (System.execute past).log = before ∧
      System.ownCalls laneCall thread later = after := by
  obtain ⟨early, op, answer, late, rfl, own, chosen, rest⟩ := System.exists_split_of_ownCalls calls
  obtain ⟨suffix, whole⟩ := reached
  rw [List.append_assoc, List.cons_append] at whole
  obtain ⟨past, event, future, split, same, made, env, state, performed⟩ :=
    System.exists_calls_of_did whole.symm
  subst same
  cases laneCall_cases chosen
  refine ⟨past, event, future, late, split, made, ?_, rfl, own, rest⟩
  cases performed
  rfl

/-- A task was started before its first call. -/
theorem started_before {events : List (bridge deployment).Event} {front back : Record deployment}
    {thread : Nat} {request : BridgeRequest} {op : BridgeOp} {answer : op.Answer}
    (started : .started thread request ∈ front ++ .did thread op answer :: back)
    (reached : front ++ .did thread op answer :: back <+: (System.execute events).log) :
    .started thread request ∈ front := by
  obtain ⟨rest, whole⟩ := reached
  rcases List.mem_append.mp started with early | late
  · exact early
  rcases List.mem_cons.mp late with absurdity | late
  · exact nomatch absurdity
  obtain ⟨between, remaining, rfl⟩ := List.append_of_mem late
  have split : (System.execute events).log =
      (front ++ .did thread op answer :: between) ++ .started thread request ::
        (remaining ++ rest) := by
    rw [← whole]
    simp only [List.append_assoc, List.cons_append]
  exact absurd (List.mem_append_right _ List.mem_cons_self)
    ((lanes_execute events).starts _ thread request _ split op answer)

/-- The parent of a job a task found was asked for before. -/
theorem kept_and_asked_of_found {events : List (bridge deployment).Event} {thread : Nat} {job : Job}
    {hFc : Hash} (merged : deployment.settings.mergedMining = true)
    (client : deployment.settings.kaspaClient = true)
    (faithful : Faithful (System.execute events).log)
    (found : LaneCall.found job ∈ System.ownCalls laneCall thread (System.execute events).log)
    (commits : committedHFc job.block = some hFc) :
    Kept (System.execute events).log hFc ∧ ∃ pay, Asked (System.execute events).log pay hFc := by
  obtain ⟨op, answer, member, builds⟩ := exists_did_of_built found
  cases builds with
  | found uid id =>
      have sound := ((provenance_execute events).ensured thread (.ring uid (.getJob id)) (some job)
        member).2 job rfl merged
      exact ⟨sound.kept faithful commits, sound.asked_of_commits faithful client commits⟩

/-- A lane a task finds open has been open since it was kept. -/
theorem unsolved_of_opened {events : List (bridge deployment).Event}
    {front later back : Record deployment} {thread : Nat} {hFc : Hash}
    (fresh : FreshTemplates (System.execute events).log) (kept : Kept front hFc)
    (opened : LaneCall.opened hFc ∈ System.ownCalls laneCall thread later)
    (split : (System.execute events).log = front ++ (later ++ back)) :
    (pendingOf front).isUnsolved hFc = true := by
  obtain ⟨op, answer, looked, builds⟩ := exists_did_of_built opened
  cases builds
  obtain ⟨middle, after, rfl⟩ := List.append_of_mem looked
  have parts : (System.execute events).log =
      front ++ middle ++ .did thread (.pending (.isUnsolved hFc)) true :: (after ++ back) := by
    rw [split]
    simp only [List.append_assoc, List.cons_append]
  exact unsolved_of_later fresh kept parts

/-- **Every parent of a lane is requested like that of its full template**, in a run whose
refreshes find the recipient of their lane. -/
theorem templateAsked_of_asked (events : List (bridge deployment).Event)
    (along : System.Along RefreshKeepsRecipient events)
    (faithful : Faithful (System.execute events).log)
    (fresh : FreshTemplates (System.execute events).log)
    (indirect : NoDirectFetch (System.execute events).log) {pay : Address} {hFc : Hash}
    (asked : Asked (System.execute events).log pay hFc) :
    TemplateAsked (System.execute events).log hFc pay := by
  induction many : events.length using Nat.strong_induction_on generalizing events pay hFc with
  | h count ih =>
  obtain ⟨reply, thread, member⟩ := asked
  obtain ⟨front, back, split⟩ := List.append_of_mem member
  have reached : front <+: (System.execute events).log := split ▸ List.prefix_append _ _
  obtain ⟨request, started, client, may⟩ := (lanes_execute events).calls front thread
    (.kaspaTemplate pay (parentExtraData hFc)) reply back split
  have asks : LaneCall.asked pay (parentExtraData hFc) ∈
      System.ownCalls laneCall thread (System.execute events).log :=
    System.mem_ownCalls.mpr ⟨_, _, member, rfl⟩
  cases may with
  | direct lane payee force serves =>
      subst serves
      exact absurd (reached.subset started) (indirect thread lane payee force)
  | build merged pre fcBlock payee calls unbuilt chosen lane recipient =>
      obtain rfl := faithful.extraData_injective lane
      have issued : LaneCall.issued fcBlock ∈ System.ownCalls laneCall thread front := by
        change _ = _ at calls
        rw [calls]
        exact List.mem_append_right _ List.mem_cons_self
      exact ⟨thread, fcBlock, ownCalls_mono reached issued, rfl, asks⟩
  | refresh merged uid job lane payee serves calls commits same recipient =>
      obtain rfl := faithful.extraData_injective same
      subst serves
      have firstFound : System.ownCalls laneCall thread front =
          [.found job] ++ .payout uid payee :: [.opened hFc] := calls
      obtain ⟨past, event, rest, later, rfl, made, read, rfl, own, opened⟩ :=
        exists_read_of_payout reached firstFound
      have earlier := System.log_grows past (event :: rest)
      have found : LaneCall.found job ∈
          System.ownCalls laneCall thread (System.execute past).log :=
        own ▸ List.mem_cons_self
      obtain ⟨kept, recipientBefore, askedBefore⟩ := kept_and_asked_of_found merged client
        (faithful.of_prefix earlier) found commits
      have stillOpen : (System.execute past).state.pending.isUnsolved hFc = true := by
        rw [execute_pending]
        have inLater : LaneCall.opened hFc ∈ System.ownCalls laneCall thread
            (@System.Entry.did (bridge deployment) thread (.context uid .kasPayout) payee ::
              later) := by
          rw [@System.ownCalls_cons (bridge deployment), opened]
          exact List.mem_append_right _ List.mem_cons_self
        exact unsolved_of_opened fresh kept inLater (split.trans (List.append_assoc ..))
      have shorter : past.length < count := by
        rw [← many, List.length_append, List.length_cons]
        omega
      have before := ih past.length shorter past along.of_append (faithful.of_prefix earlier)
        (fresh.of_prefix earlier) (fun _ _ _ _ starts => indirect _ _ _ _ (earlier.subset starts))
        askedBefore rfl
      have same := along past event rest rfl thread uid job hFc recipientBefore made
        (started_before started reached) found commits stillOpen before
      rw [read, recipient] at same
      obtain rfl := Option.some.inj same
      exact before.mono earlier

/-! ## One request per template -/

/-- A template asks before it keeps its lane, and asks once. -/
theorem MayAsk.first {settings : Settings} {request : BridgeRequest} {calls : List LaneCall}
    {pay : Address} {extraData : List Byte} (may : MayAsk settings request calls pay extraData)
    (indirect : ∀ hFc payee force, request ≠ .fetchKaspaParent hFc payee force) :
    (∀ other data, LaneCall.asked other data ∉ calls) ∧ ∀ hFc, LaneCall.kept hFc ∉ calls := by
  cases may with
  | direct hFc payee force serves => exact absurd serves (indirect hFc payee force)
  | refresh merged uid job hFc payee serves calls commits lane recipient =>
      subst calls
      simp only [List.mem_cons, reduceCtorEq, List.not_mem_nil, or_self, not_false_eq_true,
        implies_true, and_self]
  | build merged pre fcBlock payee calls unbuilt chosen lane recipient =>
      subst calls
      constructor
      · intro other data member
        simp only [List.mem_append, List.mem_singleton, reduceCtorEq, or_false] at member
        rcases unbuilt _ member with ⟨job, absurdity⟩ | ⟨uid, read, absurdity⟩
        · exact nomatch absurdity
        · exact nomatch absurdity
      · intro hFc member
        simp only [List.mem_append, List.mem_singleton, reduceCtorEq, or_false] at member
        rcases unbuilt _ member with ⟨job, absurdity⟩ | ⟨uid, read, absurdity⟩
        · exact nomatch absurdity
        · exact nomatch absurdity

section Once

variable {events : List (bridge deployment).Event}
  (indirect : NoDirectFetch (System.execute events).log)
include indirect

/-- What a task did before it asks. -/
theorem first_of_asked {front back : Record deployment} {thread : Nat} {pay : Address}
    {extraData : List Byte} {reply : TemplateReply}
    (split : (System.execute events).log =
      front ++ .did thread (.kaspaTemplate pay extraData) reply :: back) :
    (∀ other data, LaneCall.asked other data ∉ System.ownCalls laneCall thread front) ∧
      ∀ hFc, LaneCall.kept hFc ∉ System.ownCalls laneCall thread front := by
  obtain ⟨request, started, -, may⟩ := (lanes_execute events).calls front thread
    (.kaspaTemplate pay extraData) reply back split
  refine may.first fun hFc payee force serves => ?_
  subst serves
  exact indirect thread hFc payee force (split ▸ List.mem_append_left _ started)

theorem asked_once {thread : Nat} {pay other : Address} {extraData otherData : List Byte}
    (asks : LaneCall.asked pay extraData ∈
      System.ownCalls laneCall thread (System.execute events).log)
    (otherAsks : LaneCall.asked other otherData ∈
      System.ownCalls laneCall thread (System.execute events).log) : pay = other := by
  obtain ⟨op, answer, member, builds⟩ := exists_did_of_built asks
  obtain ⟨otherOp, otherAnswer, otherMember, otherBuilds⟩ := exists_did_of_built otherAsks
  cases builds
  cases otherBuilds
  have again : ∀ {first second : Address} {data secondData : List Byte}
      {reply secondReply : TemplateReply} {before between after : Record deployment},
      (System.execute events).log = before ++ .did thread (.kaspaTemplate first data) reply ::
        (between ++ .did thread (.kaspaTemplate second secondData) secondReply :: after) → False := by
    intro first second data secondData reply secondReply before between after split
    have later : (System.execute events).log =
        (before ++ .did thread (.kaspaTemplate first data) reply :: between) ++
          .did thread (.kaspaTemplate second secondData) secondReply :: after := by
      rw [split, List.append_assoc, List.cons_append]
    refine (first_of_asked indirect later).1 first data ?_
    exact System.mem_ownCalls.mpr ⟨_, _, List.mem_append_right _ List.mem_cons_self, rfl⟩
  rcases System.order_of_mem member otherMember with same | ⟨_, _, _, split⟩ | ⟨_, _, _, split⟩
  · cases same
    rfl
  · exact (again split).elim
  · exact (again split).elim

variable (fresh : FreshTemplates (System.execute events).log)
include fresh

/-- The full template of a lane asks for one recipient. -/
theorem TemplateAsked.unique {hFc : Hash} {pay other : Address}
    (asked : TemplateAsked (System.execute events).log hFc pay)
    (otherAsked : TemplateAsked (System.execute events).log hFc other) : pay = other := by
  obtain ⟨thread, fcBlock, issued, lane, asks⟩ := asked
  obtain ⟨otherThread, otherBlock, otherIssued, otherLane, otherAsks⟩ := otherAsked
  obtain ⟨rfl, -⟩ := fresh.same_task issued otherIssued (lane.trans otherLane.symm)
  exact asked_once indirect asks otherAsks

/-- A full template asks for the recipient of its payee. -/
theorem TemplateFor.recipient {hFc : Hash} {payee : Option Address} {pay : Address}
    (built : TemplateFor (System.execute events).log hFc payee)
    (asked : TemplateAsked (System.execute events).log hFc pay) :
    parentRecipient deployment.settings payee = some pay := by
  obtain ⟨front, thread, fcBlock, paidPool, back, pre, asks, split, calls, unbuilt, lane, chosen,
    asksFor⟩ := built
  obtain ⟨asker, otherBlock, otherIssued, otherLane, requested⟩ := asked
  have reached : front <+: (System.execute events).log := split ▸ List.prefix_append _ _
  have issued : LaneCall.issued fcBlock ∈ System.ownCalls laneCall thread front := by
    rw [calls]
    exact List.mem_append_left _ (List.mem_append_right _ List.mem_cons_self)
  obtain ⟨rfl, -⟩ := fresh.same_task (ownCalls_mono reached issued) otherIssued
    (lane.symm.trans otherLane.symm)
  rcases asksFor with none | ⟨own, recipient, one⟩
  · obtain ⟨op, answer, member, builds⟩ := exists_did_of_built requested
    obtain ⟨reply, asks⟩ : ∃ reply, .did thread (.kaspaTemplate pay (parentExtraData hFc)) reply ∈
        (System.execute events).log := by
      cases builds
      exact ⟨_, member⟩
    rw [split] at asks
    rcases List.mem_append.mp asks with early | late
    · have own : LaneCall.asked pay (parentExtraData hFc) ∈
          System.ownCalls laneCall thread front :=
        System.mem_ownCalls.mpr ⟨_, _, early, rfl⟩
      rw [calls, none, List.append_nil] at own
      simp only [List.mem_append, List.mem_singleton, reduceCtorEq, or_false] at own
      rcases unbuilt _ own with ⟨job, absurdity⟩ | ⟨uid, read, absurdity⟩
      · exact nomatch absurdity
      · exact nomatch absurdity
    · -- A request after the lane was kept is not a template's.
      rcases List.mem_cons.mp late with absurdity | late
      · exact nomatch absurdity
      obtain ⟨between, rest, rfl⟩ := List.append_of_mem late
      have later : (System.execute events).log =
          (front ++ .did thread (.pending (.insertWithPayee hFc fcBlock paidPool)) () ::
            between) ++ .did thread (.kaspaTemplate pay (parentExtraData hFc)) reply :: rest := by
        rw [split, List.append_assoc, List.cons_append]
      refine absurd ?_ ((first_of_asked indirect later).2 hFc)
      exact System.mem_ownCalls.mpr ⟨_, _, List.mem_append_right _ List.mem_cons_self, rfl⟩
  · have first : LaneCall.asked own (parentExtraData hFc) ∈
        System.ownCalls laneCall thread (System.execute events).log := by
      apply ownCalls_mono reached
      rw [calls, one]
      exact List.mem_append_right _ List.mem_cons_self
    rw [recipient, asked_once indirect first requested]

end Once

/-- **A lane pays one recipient.** In a run whose refreshes find the recipient of their
lane, every parent obtained for a lane was requested for the recipient its full template
requested, and the flag of a resident lane tells whether the template had no payee. -/
theorem lane_recipient_kept (events : List (bridge deployment).Event)
    (along : System.Along RefreshKeepsRecipient events)
    (faithful : Faithful (System.execute events).log)
    (fresh : FreshTemplates (System.execute events).log)
    (indirect : NoDirectFetch (System.execute events).log) :
    (∀ pay hFc parent, Obtained (System.execute events).log pay hFc parent →
      TemplateAsked (System.execute events).log hFc pay ∧
        ∀ other, TemplateAsked (System.execute events).log hFc other → other = pay) ∧
    ∀ hFc, hFc ∈ (System.execute events).state.pending.map →
      ∃ payee, TemplateFor (System.execute events).log hFc payee ∧
        ((System.execute events).state.pending.paidPool hFc = true ↔ payee = none) ∧
        ∀ pay, TemplateAsked (System.execute events).log hFc pay →
          parentRecipient deployment.settings payee = some pay := by
  constructor
  · intro pay hFc parent obtained
    have asked := templateAsked_of_asked events along faithful fresh indirect obtained.asked
    exact ⟨asked, fun other also => also.unique indirect fresh asked⟩
  · intro hFc resident
    rw [execute_pending] at resident ⊢
    obtain ⟨keeper, fcBlock, member⟩ := exists_insert_with_flag resident
    obtain ⟨front, back, split⟩ := List.append_of_mem member
    obtain ⟨pre, asks, payee, calls, unbuilt, chosen, lane, flag, asksFor⟩ :=
      mayKeep_of_split split
    have built : TemplateFor (System.execute events).log hFc payee :=
      ⟨front, keeper, fcBlock, _, back, pre, asks, split, calls, unbuilt, lane, chosen, asksFor⟩
    refine ⟨payee, built, ?_, fun pay asked => built.recipient indirect fresh asked⟩
    rw [flag, Option.isNone_iff_eq_none]

end Model

section Sample

attribute [local instance] Sample.platform

/-- A full template in the fee minute of its lane pays the operator; then its parent is
refreshed. -/
private def refreshedEvents (payout : Option Text) :
    List (bridge (Sample.deployment payout)).Event :=
  [.start (.immediateJob 1)]
    ++ Sample.steps payout 0 18 { template := .block Sample.easyBlock, systemTime := 300000 }
    ++ Sample.steps payout 0 40 { template := .block Sample.easyParent, systemTime := 300000 }
    ++ [.start (.newParent 1)]
    ++ Sample.steps payout 1 40 { template := .block Sample.easyParent, systemTime := 360000 }

private def payoutRead : (op : BridgeOp) → op.Answer → Option (Option Text)
  | .context _ .kasPayout, payee => some payee
  | _, _ => none

private def isDirect {payout : Option Text} :
    (bridge (Sample.deployment payout)).Entry → Bool
  | .started _ (.fetchKaspaParent _ _ _) => true
  | _ => false

/-- A parent of the Kaspa node, with the recipient and the extra data of the request. -/
private def paidRequest : (op : BridgeOp) → op.Answer → Option (Text × List Byte × Block)
  | .kaspaTemplate pay extraData, .block parent => some (pay, extraData, parent)
  | _, _ => none

private def recipient : (op : BridgeOp) → op.Answer → Option Text
  | .kaspaTemplate pay _, _ => some pay
  | _, _ => none

/-- Task 0 gets the template and asks for the operator only. -/
private def builderPaysOperator : Nat × LaneCall → Bool
  | (thread, .issued _) => decide (thread = 0)
  | (thread, .asked pay _) => decide (thread = 0 → pay = ['o', 'p'])
  | _ => true

private theorem refreshed_indirect {payout : Option Text}
    (none : (System.execute (refreshedEvents payout)).log.any isDirect = false) :
    NoDirectFetch (System.execute (refreshedEvents payout)).log := by
  intro thread hFc payee force member
  have direct : (System.execute (refreshedEvents payout)).log.any isDirect = true :=
    List.any_eq_true.mpr ⟨.started thread (.fetchKaspaParent hFc payee force), member, rfl⟩
  rw [none] at direct
  exact nomatch direct

private theorem obtained_of_paidRequest {payout : Option Text} {log : Record (Sample.deployment payout)}
    {pay : Text} {hFc : Hash} {parent : Block}
    (listed : (pay, parentExtraData hFc, parent) ∈ System.callsOf paidRequest log) :
    Obtained log pay hFc parent := by
  obtain ⟨thread, op, answer, member, chosen⟩ := System.mem_callsOf.mp listed
  unfold paidRequest at chosen
  split at chosen
  · cases chosen
    exact ⟨thread, member⟩
  · exact nomatch chosen

/-- A miner without a payout address: the operator is paid throughout. -/
theorem lane_recipient_kept_sample :
    TemplateAsked (System.execute (refreshedEvents none)).log 7 ['o', 'p'] ∧
      ∃ payee, TemplateFor (System.execute (refreshedEvents none)).log 7 payee ∧
        ((System.execute (refreshedEvents none)).state.pending.paidPool 7 = true ↔
          payee = none) := by
  have reads : System.callsOf payoutRead (System.execute (refreshedEvents none)).log =
      [none, none] := by
    decide +kernel
  have recipients : System.callsOf recipient (System.execute (refreshedEvents none)).log =
      [['o', 'p'], ['o', 'p']] := by
    decide +kernel
  have faithful : Faithful (System.execute (refreshedEvents none)).log :=
    Sample.faithful (by decide +kernel)
  have fresh : FreshTemplates (System.execute (refreshedEvents none)).log := by
    unfold FreshTemplates
    decide +kernel
  have along : System.Along RefreshKeepsRecipient (refreshedEvents none) := by
    intro before event rest split thread uid job hFc pay calls _ _ _ _ asked
    obtain ⟨payee, member, env, after, performed⟩ :=
      System.exists_did_of_calls calls (fun _ _ absurdity => nomatch absurdity)
    rw [← split] at member
    have listed : payee ∈ System.callsOf payoutRead (System.execute (refreshedEvents none)).log :=
      System.mem_callsOf.mpr ⟨thread, _, payee, member, rfl⟩
    rw [reads] at listed
    simp only [List.mem_cons, List.not_mem_nil, or_false, or_self] at listed
    have read : ((System.execute before).state.contexts uid).kasPayout = none := by
      cases performed
      exact listed
    obtain ⟨asker, fcBlock, -, -, asks⟩ := asked
    obtain ⟨op, reply, requested, builds⟩ := exists_did_of_built asks
    cases builds
    have inLog := (System.log_grows before (event :: rest)).subset requested
    rw [← split] at inLog
    have paid : pay ∈ System.callsOf recipient (System.execute (refreshedEvents none)).log :=
      System.mem_callsOf.mpr ⟨asker, BridgeOp.kaspaTemplate pay _, _, inLog, rfl⟩
    rw [recipients] at paid
    simp only [List.mem_cons, List.not_mem_nil, or_false, or_self] at paid
    rw [read, paid]
    rfl
  have kept := lane_recipient_kept (refreshedEvents none) along faithful fresh
    (refreshed_indirect (by decide +kernel))
  have obtained : Obtained (System.execute (refreshedEvents none)).log ['o', 'p'] 7
      Sample.easyParent := obtained_of_paidRequest (by decide +kernel)
  obtain ⟨payee, built, flag, -⟩ := kept.2 7 (by decide +kernel)
  exact ⟨(kept.1 _ _ _ obtained).1, payee, built, flag⟩

/-- A miner with the payout address `m`: the template pays the operator in the fee minute,
the refresh pays the miner. -/
theorem lane_recipient_fails :
    ¬ ∀ (events : List (bridge (Sample.deployment (some ['m']))).Event),
      Faithful (System.execute events).log → FreshTemplates (System.execute events).log →
      NoDirectFetch (System.execute events).log → ∀ pay hFc parent,
        Obtained (System.execute events).log pay hFc parent →
          TemplateAsked (System.execute events).log hFc pay := by
  intro claim
  have faithful : Faithful (System.execute (refreshedEvents (some ['m']))).log :=
    Sample.faithful (by decide +kernel)
  have fresh : FreshTemplates (System.execute (refreshedEvents (some ['m']))).log := by
    unfold FreshTemplates
    decide +kernel
  have obtained : Obtained (System.execute (refreshedEvents (some ['m']))).log ['m'] 7
      Sample.easyParent := obtained_of_paidRequest (by decide +kernel)
  obtain ⟨thread, fcBlock, issued, -, asks⟩ := claim _ faithful fresh
    (refreshed_indirect (by decide +kernel)) _ _ _ obtained
  have apart : (System.callsBy laneCall (System.execute (refreshedEvents (some ['m']))).log).all
      builderPaysOperator = true := by
    decide +kernel
  have builder := List.all_eq_true.mp apart _ (System.mem_callsBy.mpr issued)
  have asker := List.all_eq_true.mp apart _ (System.mem_callsBy.mpr asks)
  simp only [builderPaysOperator, decide_eq_true_eq] at builder asker
  subst builder
  exact absurd (asker rfl) (by decide)

end Sample

end StratumBridge
