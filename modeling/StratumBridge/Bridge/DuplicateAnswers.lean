import StratumBridge.Bridge.GuardProtocol
import StratumBridge.Bridge.GuardRecord
import StratumBridge.Interaction.Balance

/-! # Answers from the duplicate guard

The key of a submission names the worker, the job and the nonce text, and nothing of the
connection. A submission answered from the guard repeats the key of an earlier one and is
told that one's verdict, or that it is accepted while the earlier one is still in flight.
-/

namespace StratumBridge

open Interaction

/-! ## Keys -/

/-- A list is split at the last occurrence of a separator in one way. -/
theorem split_at_last {α : Type} {separator : α} {front other back rest : List α}
    (last : separator ∉ back) (alsoLast : separator ∉ rest)
    (same : front ++ separator :: back = other ++ separator :: rest) :
    front = other ∧ back = rest := by
  rcases List.append_eq_append_iff.mp same with ⟨middle, rfl, tail⟩ | ⟨middle, rfl, tail⟩
  · cases middle with
    | nil => exact ⟨(List.append_nil front).symm, (List.cons.inj tail).2⟩
    | cons first middle =>
        have inBack : separator ∈ back := by
          rw [(List.cons.inj tail).2]
          exact List.mem_append_right _ List.mem_cons_self
        exact absurd inBack last
  · cases middle with
    | nil => exact ⟨List.append_nil other, (List.cons.inj tail).2.symm⟩
    | cons first middle =>
        have inRest : separator ∈ rest := by
          rw [(List.cons.inj tail).2]
          exact List.mem_append_right _ List.mem_cons_self
        exact absurd inRest alsoLast

namespace Text

/-- What reads as a number holds digits only. -/
theorem notMem_of_readDigits {radix start value : Nat} {text : List Char} {char : Char}
    (noDigit : digitValue radix char = none) (read : readDigits radix text start = some value) :
    char ∉ text := by
  induction text generalizing start with
  | nil => exact List.not_mem_nil
  | cons first rest ih =>
      unfold readDigits at read
      split at read
      case h_2 => exact nomatch read
      case h_1 digit isDigit =>
        intro member
        rcases List.mem_cons.mp member with rfl | later
        · exact nomatch noDigit.symm.trans isDigit
        · exact ih read later

theorem bar_notMem_decimal (value : Nat) : '|' ∉ decimal value :=
  notMem_of_readDigits (by decide) (readDigits_toDigits (by decide) (by decide) value)

/-- A number is read from its digits, after a plus sign if there is one. -/
theorem exists_digits_of_parseU64 {radix value : Nat} {text : List Char}
    (parsed : parseU64 radix text = some value) :
    ∃ digits, readDigits radix digits 0 = some value ∧ (text = digits ∨ text = '+' :: digits) := by
  have read : ∀ digits : List Char, (if digits = [] then none
      else (readDigits radix digits 0).filter (· < 2 ^ 64)) = some value →
        readDigits radix digits 0 = some value := by
    intro digits found
    have filtered := (Option.ite_none_left_eq_some.mp found).2
    exact (Option.filter_eq_some_iff.mp filtered).1
  unfold parseU64 at parsed
  dsimp only at parsed
  split at parsed
  case h_1 rest => exact ⟨rest, read rest parsed, Or.inr rfl⟩
  case h_2 => exact ⟨text, read text parsed, Or.inl rfl⟩

theorem bar_notMem_of_parseU64 {text : List Char} {value : Nat}
    (parsed : parseU64 16 text = some value) : '|' ∉ text := by
  obtain ⟨digits, read, whole⟩ := exists_digits_of_parseU64 parsed
  have noBar : '|' ∉ digits := notMem_of_readDigits (by decide) read
  rcases whole with rfl | rfl
  · exact noBar
  · simpa only [List.mem_cons, Char.reduceEq, false_or] using noBar

end Text

/-- The key tells the worker, the job and the nonce text. -/
theorem submitKey_injective {worker other : Text} {jobId otherJob : Nat} {text otherText : Text}
    (noBar : '|' ∉ text) (alsoNoBar : '|' ∉ otherText)
    (same : submitKey worker jobId text = submitKey other otherJob otherText) :
    worker = other ∧ jobId = otherJob ∧ text = otherText := by
  unfold submitKey at same
  simp only [List.append_assoc, List.cons_append, List.nil_append] at same
  have regrouped : (worker ++ '|' :: Text.decimal jobId) ++ '|' :: text =
      (other ++ '|' :: Text.decimal otherJob) ++ '|' :: otherText := by
    simpa only [List.append_assoc, List.cons_append] using same
  obtain ⟨named, rfl⟩ := split_at_last noBar alsoNoBar regrouped
  obtain ⟨rfl, numbered⟩ :=
    split_at_last (Text.bar_notMem_decimal jobId) (Text.bar_notMem_decimal otherJob) named
  exact ⟨rfl, Text.decimal_injective numbered, rfl⟩

section Model

variable [Platform] {deployment : Deployment}

/-- Submissions of one key are of one worker, job and nonce. -/
theorem Decoded.of_key {request other : BridgeRequest} {calls otherCalls : List GuardCall}
    {submission earlier : Submission} {text earlierText : Text}
    (decoded : Decoded deployment request calls submission text)
    (before : Decoded deployment other otherCalls earlier earlierText)
    (same : earlier.key = submission.key) :
    earlier.workerId = submission.workerId ∧ earlier.jobId = submission.jobId ∧
      earlierText = text ∧ earlier.nonce = submission.nonce := by
  rw [decoded.key, before.key] at same
  obtain ⟨worker, job, rfl⟩ := submitKey_injective (Text.bar_notMem_of_parseU64 before.nonce)
    (Text.bar_notMem_of_parseU64 decoded.nonce) same
  exact ⟨worker, job, rfl, Option.some.inj (before.nonce.symm.trans decoded.nonce)⟩

/-- The task serves this submission, as far as the log goes. -/
def Serves (log : Record deployment) (thread : Nat) (submission : Submission) (text : Text) :
    Prop :=
  ∃ request, .started thread request ∈ log ∧
    Decoded deployment request (System.ownCalls guardCall thread log) submission text

theorem Serves.append {front : Record deployment} {thread : Nat} {submission : Submission}
    {text : Text} (serves : Serves front thread submission text) (back : Record deployment) :
    Serves (front ++ back) thread submission text := by
  obtain ⟨request, started, decoded⟩ := serves
  refine ⟨request, List.mem_append_left _ started, decoded.mono ?_⟩
  rw [System.ownCalls_append]
  exact List.subset_append_left _ _

/-- What a task told its miner. -/
def told (thread : Nat) (log : Record deployment) : List (Nat × Message) :=
  (System.ownCalls guardCall thread log).filterMap GuardCall.tell

section Run

variable {events : List (bridge deployment).Event} {front back : Record deployment} {thread : Nat}

/-- What a finished submission did. -/
theorem handled_of_finished {uid : Nat} {event : SubmitEvent} {result : BridgeResult}
    (started : .started thread (.submit uid event) ∈ (System.execute events).log)
    (finished : .finished thread result ∈ (System.execute events).log) :
    Handled deployment (.submit uid event) uid event.id
      (System.ownCalls guardCall thread (System.execute events).log) := by
  obtain ⟨front, back, split⟩ := List.append_of_mem finished
  obtain ⟨request, alsoStarted, completes⟩ :=
    (guards_execute events).finishes front thread result back split
  obtain rfl := System.started_unique started (split ▸ List.mem_append_left _ alsoStarted)
  rw [← System.ownCalls_of_finished split] at completes
  exact completes

/-- A task that found an outcome tells it to its miner. -/
theorem told_of_seen {instanceId : Nat} {key : Text} {outcome : DuplicateSubmitOutcome}
    {uid : Nat} {event : SubmitEvent} {result : BridgeResult}
    (seen : .seen instanceId key outcome ∈
      System.ownCalls guardCall thread (System.execute events).log)
    (started : .started thread (.submit uid event) ∈ (System.execute events).log)
    (finished : .finished thread result ∈ (System.execute events).log) :
    told thread (System.execute events).log = outcomeReplies uid event.id outcome := by
  have tells : ∀ replies : List (Nat × Message),
      (replies.map fun reply => GuardCall.told reply.1 reply.2).filterMap GuardCall.tell =
        replies := by
    intro replies
    rw [List.filterMap_map]
    exact List.filterMap_some
  rcases handled_of_finished started finished with idle |
    ⟨other, checked, found, before, idle, same⟩ | ⟨-, -, -, -, unseen, -, -⟩
  · exact absurd (idle _ seen) id
  · unfold told
    rw [same] at seen ⊢
    have outcomes : found = outcome := by
      rcases List.mem_append.mp seen with early | late
      · exact absurd (idle _ early) id
      · rcases List.mem_cons.mp late with first | later
        · cases first
          rfl
        · obtain ⟨reply, -, absurdity⟩ := List.mem_map.mp later
          exact nomatch absurdity
    rw [List.filterMap_append, tells_of_idle idle, List.nil_append, List.filterMap_cons_none rfl,
      tells, outcomes]
  · exact absurd seen (unseen instanceId key outcome)

/-- A task that recorded an outcome tells it to its miner. -/
theorem told_of_recorded {instanceId : Nat} {key : Text} {outcome : DuplicateSubmitOutcome}
    {uid : Nat} {event : SubmitEvent} {result : BridgeResult}
    (recorded : .recorded instanceId key outcome ∈
      System.ownCalls guardCall thread (System.execute events).log)
    (started : .started thread (.submit uid event) ∈ (System.execute events).log)
    (finished : .finished thread result ∈ (System.execute events).log) :
    told thread (System.execute events).log = outcomeReplies uid event.id outcome := by
  rcases handled_of_finished started finished with idle |
    ⟨other, checked, found, before, idle, same⟩ | ⟨submission, judged, -, -, -, records, tells⟩
  · exact absurd (idle _ recorded) id
  · rw [same] at recorded
    rcases List.mem_append.mp recorded with early | late
    · exact absurd (idle _ early) id
    · rcases List.mem_cons.mp late with absurdity | later
      · exact nomatch absurdity
      · obtain ⟨reply, -, absurdity⟩ := List.mem_map.mp later
        exact nomatch absurdity
  · have member : (instanceId, key, outcome) ∈
        (System.ownCalls guardCall thread (System.execute events).log).filterMap
          GuardCall.record := List.mem_filterMap.mpr ⟨_, recorded, rfl⟩
    rw [records] at member
    obtain ⟨-, -, rfl⟩ := List.mem_singleton.mp member
    exact tells

/-- The submission that a call of a run serves. -/
theorem exists_serves {op : BridgeOp} {answer : op.Answer} {submission : Submission} {text : Text}
    {request : BridgeRequest}
    (split : (System.execute events).log = front ++ .did thread op answer :: back)
    (started : .started thread request ∈ front)
    (decoded : Decoded deployment request (System.ownCalls guardCall thread front) submission text) :
    Serves front thread submission text ∧ ∃ event, submission.eventId = event.id ∧
      .started thread (.submit submission.uid event) ∈ (System.execute events).log := by
  refine ⟨⟨request, started, decoded⟩, ?_⟩
  obtain ⟨event, context, nonceText, rfl, replied, -⟩ := decoded.event
  exact ⟨event, replied, split ▸ List.mem_append_left _ started⟩

/-- The submission that was admitted last under the key it repeats: it has recorded nothing. -/
theorem inFlight_of_admitted {instanceId now : Nat} {key : Text} {before after : Record deployment}
    (split : (System.execute events).log = before ++
      .did thread (.checkSubmission instanceId key now) none :: after ++ back)
    (last : System.callsBy (guardMove instanceId key) after = []) :
    ∀ other marked time outcome answer, .did thread (.setOutcome other marked time outcome) answer ∉
      before ++ .did thread (.checkSubmission instanceId key now) none :: after := by
  intro other marked time outcome answer member
  have whole : (System.execute events).log = before ++
      .did thread (.checkSubmission instanceId key now) none :: (after ++ back) := by
    rw [split, List.append_assoc, List.cons_append]
  rcases List.mem_append.mp member with early | late
  · -- A check comes before everything the submission records.
    obtain ⟨request, -, idle, -⟩ := (guards_execute events).calls before thread
      (.checkSubmission instanceId key now) none _ whole
    exact idle _ (System.mem_ownCalls.mpr ⟨_, _, early, rfl⟩)
  · rcases List.mem_cons.mp late with absurdity | later
    · exact nomatch absurdity
    obtain ⟨middle, rest, rfl⟩ := List.append_of_mem later
    have recordedAt : (System.execute events).log =
        (before ++ .did thread (.checkSubmission instanceId key now) none :: middle) ++
          .did thread (.setOutcome other marked time outcome) answer :: (rest ++ back) := by
      rw [whole]
      simp only [List.append_assoc, List.cons_append]
    obtain ⟨request, -, -, submission, block, ⟨admitted, -⟩, rfl, rfl, -⟩ :=
      (guards_execute events).calls _ thread (.setOutcome other marked time outcome) answer _
        recordedAt
    have here : .admitted instanceId key ∈ System.ownCalls guardCall thread
        (before ++ .did thread (.checkSubmission instanceId key now) none :: middle) :=
      System.mem_ownCalls.mpr ⟨.checkSubmission instanceId key now, none,
        List.mem_append_right _ List.mem_cons_self, rfl⟩
    obtain ⟨rfl, rfl⟩ := admitted_unique recordedAt here admitted
    have moved : (thread, some outcome) ∈ System.callsBy (guardMove submission.instanceId
        submission.key) (middle ++ .did thread (.setOutcome submission.instanceId submission.key
          time outcome) answer :: rest) :=
      System.mem_callsBy.mpr (System.mem_ownCalls.mpr ⟨_, _, later, if_pos ⟨rfl, rfl⟩⟩)
    rw [last] at moved
    exact absurd moved List.not_mem_nil

/-- Which operation a move under a key is. -/
inductive GuardMoved (instanceId : Nat) (key : Text) :
    (op : BridgeOp) → op.Answer → Option DuplicateSubmitOutcome → Prop where
  | admission (now : Nat) : GuardMoved instanceId key (.checkSubmission instanceId key now) none none
  | recording (now : Nat) (outcome : DuplicateSubmitOutcome) (answer : Unit) :
      GuardMoved instanceId key (.setOutcome instanceId key now outcome) answer (some outcome)

theorem guardMove_cases {instanceId : Nat} {key : Text} {op : BridgeOp} {answer : op.Answer}
    {move : Option DuplicateSubmitOutcome} (moves : guardMove instanceId key op answer = some move) :
    GuardMoved instanceId key op answer move := by
  unfold guardMove at moves
  split at moves
  case h_3 => exact nomatch moves
  all_goals
    obtain ⟨⟨rfl, rfl⟩, same⟩ := Option.ite_none_right_eq_some.mp moves
    cases same
    constructor

end Run

/-- **No false duplicate.** A submission answered from the guard is not evaluated. An earlier
submission to the same handler, under the same worker name, job and nonce text, was admitted;
the answer is what that one is told once it has recorded its verdict, and acceptance while it
has not. -/
theorem duplicate_answered {events : List (bridge deployment).Event}
    {front back : Record deployment} {thread instanceId now : Nat} {key : Text}
    {outcome : DuplicateSubmitOutcome}
    (split : (System.execute events).log =
      front ++ .did thread (.checkSubmission instanceId key now) (some outcome) :: back) :
    ∃ submission text, Serves front thread submission text ∧
      (∀ block nonce answer, .did thread (.checkPow block nonce) answer ∉
        (System.execute events).log) ∧
      (∀ result, .finished thread result ∈ (System.execute events).log →
        told thread (System.execute events).log =
          outcomeReplies submission.uid submission.eventId outcome) ∧
      ∃ first earlier, first ≠ thread ∧ Serves front first earlier text ∧
        earlier.instanceId = submission.instanceId ∧ earlier.workerId = submission.workerId ∧
        earlier.jobId = submission.jobId ∧ earlier.nonce = submission.nonce ∧
        (∃ time, .did first (.checkSubmission earlier.instanceId earlier.key time) none ∈ front) ∧
        ((outcome = .inFlight ∧ ∀ other marked time recorded answer,
            .did first (.setOutcome other marked time recorded) answer ∉ front) ∨
          ((∃ block answer, .did first (.checkPow block earlier.nonce) answer ∈ front) ∧
            ∀ result, .finished first result ∈ (System.execute events).log →
              told first (System.execute events).log =
                outcomeReplies earlier.uid earlier.eventId outcome)) := by
  have inLog : .did thread (.checkSubmission instanceId key now) (some outcome) ∈
      (System.execute events).log := split ▸ List.mem_append_right _ List.mem_cons_self
  have seen : GuardCall.seen instanceId key outcome ∈
      System.ownCalls guardCall thread (System.execute events).log :=
    System.mem_ownCalls.mpr ⟨_, _, inLog, rfl⟩
  obtain ⟨request, started, idle, submission, text, decoded, rfl, rfl⟩ :=
    (guards_execute events).calls front thread (.checkSubmission instanceId key now) (some outcome)
      back split
  obtain ⟨serves, event, replied, starts⟩ := exists_serves split started decoded
  refine ⟨submission, text, serves, ?_, ?_, ?_⟩
  · intro block nonce answer member
    obtain ⟨other, checked, admitted⟩ := admitted_of_checked member
    exact not_admitted_of_seen (List.append_nil _).symm seen admitted
  · intro result finished
    rw [replied]
    exact told_of_seen seen starts finished
  -- What the guard stands for is what was last done under the key.
  obtain ⟨first, move, last, rfl⟩ := seen_stands split
  obtain ⟨moves, whole⟩ := List.getLast?_eq_some_iff.mp last
  obtain ⟨before, op, answer, after, rfl, -, moved, silent⟩ :=
    System.exists_split_of_callsBy whole
  have here : .did first op answer ∈ before ++ .did first op answer :: after :=
    List.mem_append_right _ List.mem_cons_self
  have movedAt : (System.execute events).log = before ++ .did first op answer ::
      (after ++ .did thread (.checkSubmission submission.instanceId submission.key now)
        (some (move.getD .inFlight)) :: back) := by
    rw [split, List.append_assoc, List.cons_append]
  cases guardMove_cases moved with
  | admission time =>
      have admitted : GuardCall.admitted submission.instanceId submission.key ∈
          System.ownCalls guardCall first _ := System.mem_ownCalls.mpr ⟨_, _, here, rfl⟩
      obtain ⟨other, alsoStarted, -, earlier, earlierText, before', handler, key⟩ :=
        (guards_execute events).calls before first
          (.checkSubmission submission.instanceId submission.key time) none _ movedAt
      obtain ⟨servesFirst, -⟩ := exists_serves movedAt alsoStarted before'
      obtain ⟨worker, job, rfl, nonce⟩ := decoded.of_key before' key
      refine ⟨first, earlier, ?_, servesFirst.append _, handler, worker, job, nonce,
        ⟨time, ?_⟩, Or.inl ⟨rfl, inFlight_of_admitted split silent⟩⟩
      · rintro rfl
        exact idle _ admitted
      · rw [handler, key]
        exact here
  | recording time outcome =>
      have recorded : GuardCall.recorded submission.instanceId submission.key outcome ∈
          System.ownCalls guardCall first _ := System.mem_ownCalls.mpr ⟨_, _, here, rfl⟩
      obtain ⟨other, alsoStarted, -, earlier, block, ⟨admitted, earlierText, before'⟩, handler, key,
        checked⟩ := (guards_execute events).calls before first
          (.setOutcome submission.instanceId submission.key time outcome) () _ movedAt
      obtain ⟨servesFirst, firstEvent, firstReplied, firstStarts⟩ :=
        exists_serves movedAt alsoStarted before'
      obtain ⟨worker, job, rfl, nonce⟩ := decoded.of_key before' key
      refine ⟨first, earlier, ?_, servesFirst.append _, handler, worker, job, nonce, ?_,
        Or.inr ⟨?_, ?_⟩⟩
      · rintro rfl
        exact idle _ recorded
      · obtain ⟨op, answer, inBefore, guarded⟩ := exists_did_of_guarded admitted
        cases guarded
        exact ⟨_, List.mem_append_left _ inBefore⟩
      · obtain ⟨op, answer, inBefore, guarded⟩ := exists_did_of_guarded checked
        cases guarded
        exact ⟨block, _, List.mem_append_left _ inBefore⟩
      · intro result finished
        rw [firstReplied]
        have recordedBy : GuardCall.recorded submission.instanceId submission.key outcome ∈
            System.ownCalls guardCall first (System.execute events).log := by
          rw [split, System.ownCalls_append]
          exact List.mem_append_left _ recorded
        exact told_of_recorded recordedBy firstStarts finished

end Model

section Sample

attribute [local instance] Sample.platform

/-- Checks against a guard: its handler, the key and what was found. -/
def guardCheck : (op : BridgeOp) → op.Answer →
    Option (Nat × Text × Option DuplicateSubmitOutcome)
  | .checkSubmission instanceId key _, found => some (instanceId, key, found)
  | _, _ => none

/-- The connections whose submissions are served, with the tasks that serve them. -/
def submitters {payout : Option Text} (log : Record (Sample.deployment payout)) :
    List (Nat × Nat) :=
  log.filterMap fun entry =>
    match entry with
    | .started thread (.submit uid _) => some (thread, uid)
    | _ => none

namespace Sample

/-- A job for a connection. -/
def publishes (thread uid : Nat) : List (bridge (deployment none)).Event :=
  .start (.immediateJob uid) :: (steps none thread 18 { template := .block easyBlock }
    ++ steps none thread 40 { template := .block easyParent })

/-- Two connections of the worker `r` get a first job each and submit the same nonce. The
second submission is checked while the first is in flight; the node then refuses the first. -/
def repeatedRun : List (bridge (deployment none)).Event :=
  publishes 0 1 ++ publishes 1 2
    ++ .start (.submit 1 ⟨none, [.string [], .string ['1'], .string ['5']]⟩) :: steps none 2 8 {}
    ++ .start (.submit 2 ⟨none, [.string [], .string ['1'], .string ['5']]⟩) :: steps none 3 12 {}
    ++ steps none 2 10 {} ++ steps none 2 72 { submitted := .failed [] }

/-- The key of both submissions. -/
def repeatedKey : Text := ['r', '|', '1', '|', '5']

theorem exists_did_of_guardCheck {payout : Option Text} {log : Record (deployment payout)}
    {thread instanceId : Nat} {key : Text} {found : Option DuplicateSubmitOutcome}
    (member : (thread, instanceId, key, found) ∈ System.callsBy guardCheck log) :
    ∃ now, .did thread (.checkSubmission instanceId key now) found ∈ log := by
  obtain ⟨op, answer, inLog, chosen⟩ := System.mem_ownCalls.mp (System.mem_callsBy.mp member)
  unfold guardCheck at chosen
  split at chosen
  · cases chosen
    exact ⟨_, inLog⟩
  · exact nomatch chosen

/-- The second submission finds the first in flight. -/
theorem repeated_checked : ∃ front now back, (System.execute repeatedRun).log =
    front ++ .did 3 (.checkSubmission 0 repeatedKey now) (some .inFlight) :: back ∧
      ∃ time, .did 2 (.checkSubmission 0 repeatedKey time) none ∈ front := by
  have listed : System.callsBy guardCheck (System.execute repeatedRun).log =
      [(2, 0, repeatedKey, none)] ++ (3, 0, repeatedKey, some .inFlight) :: [] := by
    decide +kernel
  obtain ⟨front, op, answer, back, split, before, chosen, -⟩ :=
    System.exists_split_of_callsBy listed
  unfold guardCheck at chosen
  split at chosen
  · cases chosen
    exact ⟨front, _, back, split, exists_did_of_guardCheck (before ▸ List.mem_cons_self)⟩
  · exact nomatch chosen

/-- The first submission is then refused. -/
theorem repeated_recorded : ∃ marked,
    .did 2 (.setOutcome 0 repeatedKey marked .bad) () ∈ (System.execute repeatedRun).log := by
  have listed : System.callsBy (guardMove 0 repeatedKey) (System.execute repeatedRun).log =
      [(2, none), (2, some .bad)] := by
    decide +kernel
  have member : (2, some .bad) ∈
      System.callsBy (guardMove 0 repeatedKey) (System.execute repeatedRun).log :=
    listed ▸ List.mem_cons_of_mem _ List.mem_cons_self
  obtain ⟨op, answer, inLog, chosen⟩ := System.mem_ownCalls.mp (System.mem_callsBy.mp member)
  cases guardMove_cases chosen
  exact ⟨_, inLog⟩

theorem repeated_told : told 3 (System.execute repeatedRun).log = [(2, .reply none true)] := by
  decide +kernel

theorem repeated_submitters : submitters (System.execute repeatedRun).log = [(2, 1), (3, 2)] := by
  decide +kernel

theorem repeated_finished : ∃ result,
    .finished 3 result ∈ (System.execute repeatedRun).log :=
  System.exists_finished (by decide +kernel)

theorem duplicate_answered_sample : ∃ first earlier text, first ≠ 3 ∧
    Serves (System.execute repeatedRun).log first earlier text ∧
    told 3 (System.execute repeatedRun).log = [(2, .reply none true)] := by
  obtain ⟨front, now, back, split, -⟩ := repeated_checked
  obtain ⟨submission, text, -, -, -, first, earlier, different, served, -⟩ :=
    duplicate_answered split
  exact ⟨first, earlier, text, different, split ▸ served.append _, repeated_told⟩

/-- A submission is answered from the guard though its connection submitted nothing before,
and it is told another verdict than the one it repeats. -/
theorem duplicates_isolated_fails :
    (¬ ∀ events : List (bridge (deployment none)).Event,
      ∀ front thread instanceId key now outcome back, (System.execute events).log =
          front ++ .did thread (.checkSubmission instanceId key now) (some outcome) :: back →
        ∀ uid event, .started thread (.submit uid event) ∈ front →
          ∃ first earlier, first ≠ thread ∧ .started first (.submit uid earlier) ∈ front) ∧
    ¬ ∀ events : List (bridge (deployment none)).Event,
      ∀ front thread instanceId key now outcome back, (System.execute events).log =
          front ++ .did thread (.checkSubmission instanceId key now) (some outcome) :: back →
        ∀ uid event first time marked verdict,
          .started thread (.submit uid event) ∈ front →
          .did first (.checkSubmission instanceId key time) none ∈ front →
          .did first (.setOutcome instanceId key marked verdict) () ∈ (System.execute events).log →
          (∃ result, .finished thread result ∈ (System.execute events).log) →
          told thread (System.execute events).log = outcomeReplies uid event.id verdict := by
  obtain ⟨front, now, back, split, time, admission⟩ := repeated_checked
  have served : ∀ {thread uid event}, .started thread (.submit uid event) ∈
      (System.execute repeatedRun).log → (thread, uid) = (2, 1) ∨ (thread, uid) = (3, 2) := by
    intro thread uid event member
    have listed : (thread, uid) ∈ submitters (System.execute repeatedRun).log :=
      List.mem_filterMap.mpr ⟨_, member, rfl⟩
    rw [repeated_submitters] at listed
    simpa only [List.mem_cons, List.not_mem_nil, or_false] using listed
  obtain ⟨request, started, -, submission, text, decoded, -, -⟩ :=
    (guards_execute repeatedRun).calls front 3 (.checkSubmission 0 repeatedKey now)
      (some .inFlight) back split
  obtain ⟨event, -, -, rfl, -⟩ := decoded.event
  have second : submission.uid = 2 := by
    have known := served (split ▸ List.mem_append_left _ started)
    simpa using known
  refine ⟨fun claim => ?_, fun claim => ?_⟩
  · obtain ⟨first, earlier, different, begun⟩ := claim repeatedRun front 3 0 repeatedKey now
      .inFlight back split submission.uid event started
    rw [second] at begun
    have known := served (split ▸ List.mem_append_left _ begun)
    have same : first = 3 := by simpa using known
    exact different same
  · obtain ⟨marked, recorded⟩ := repeated_recorded
    have same := claim repeatedRun front 3 0 repeatedKey now .inFlight back split submission.uid
      event 2 time marked .bad started admission recorded repeated_finished
    rw [repeated_told] at same
    exact nomatch (Prod.mk.inj (List.cons.inj same).1).2

end Sample

end Sample

end StratumBridge
