import StratumBridge.Bridge.Accounting
import StratumBridge.Bridge.DuplicateAnswers

/-! # One credit for one piece of work

A share is credited for the block and the nonce its submission evaluated last. The guard
keeps a submission from being credited twice under one key, so a piece of work is credited
twice only when the connection submits it under different keys.
-/

namespace StratumBridge

open Interaction

section Model

variable [Platform] {deployment : Deployment}

/-- The evaluation of a block at a nonce. -/
def evaluation : (op : BridgeOp) → op.Answer → Option (Block × Nat)
  | .checkPow block nonce, _ => some (block, nonce)
  | _, _ => none

/-- The task evaluated this pair last. -/
def EvaluatedLast (log : Record deployment) (thread : Nat) (block : Block) (nonce : Nat) : Prop :=
  (System.ownCalls evaluation thread log).getLast? = some (block, nonce)

/-- At this point of the log a submission of the connection is credited for the pair. -/
structure CreditsAt (log front : Record deployment) (thread uid : Nat) (block : Block)
    (nonce : Nat) : Prop where
  serves : ∃ event, .started thread (.submit uid event) ∈ front
  evaluated : EvaluatedLast front thread block nonce
  counts : ∃ instanceId handle back, log =
    front ++ .did thread (.stats instanceId (.write handle .shareFound)) () :: back

/-- A submission of the connection was credited for the pair or is still being judged on it. -/
def Takes (log : Record deployment) (thread uid : Nat) (block : Block) (nonce : Nat) : Prop :=
  (∃ front, CreditsAt log front thread uid block nonce) ∨
    ((∃ event, .started thread (.submit uid event) ∈ log) ∧
      EvaluatedLast log thread block nonce ∧ ∀ result, .finished thread result ∉ log)

/-- The submission was admitted under the key. -/
def AdmittedUnder (log : Record deployment) (thread : Nat) (key : Text) : Prop :=
  ∃ instanceId now, .did thread (.checkSubmission instanceId key now) none ∈ log

/-- No submission evaluates a pair that another submission of its connection takes under
another key. -/
def OneKeyPerWork (log : Record deployment) : Prop :=
  ∀ front thread block nonce answer back,
    log = front ++ .did thread (.checkPow block nonce) answer :: back →
    ∀ uid event key, .started thread (.submit uid event) ∈ front → AdmittedUnder front thread key →
    ∀ other otherKey, Takes front other uid block nonce → AdmittedUnder front other otherKey →
      otherKey = key

/-- A connection is credited once for a pair. -/
def CreditedOnce (log : Record deployment) (uid : Nat) : Prop :=
  ∀ block nonce front thread other task, CreditsAt log front thread uid block nonce →
    CreditsAt log other task uid block nonce → front = other

section Run

variable {events : List (bridge deployment).Event} {front back : Record deployment}
  {thread uid : Nat} {block : Block} {nonce : Nat}

/-- A submission is credited once. -/
theorem credit_unique {other : Record deployment} {otherBlock : Block} {otherNonce : Nat}
    (first : CreditsAt (System.execute events).log front thread uid block nonce)
    (second : CreditsAt (System.execute events).log other thread uid otherBlock otherNonce) :
    front = other := by
  -- A counter is raised only by a task that raised none before.
  have alone : ∀ {early between late : Record deployment} {instanceId handle counter cell : Nat},
      (System.execute events).log =
        (early ++ .did thread (.stats instanceId (.write handle .shareFound)) () :: between) ++
          .did thread (.stats counter (.write cell .shareFound)) () :: late → False := by
    intro early between late instanceId handle counter cell split
    obtain ⟨request, -, permitted⟩ := (accounts_execute events).calls _ thread
      (.stats counter (.write cell .shareFound)) () late split
    have noise := (permitted rfl).1
    exact noise (.cell instanceId handle .shares) (System.mem_ownCalls.mpr
      ⟨.stats instanceId (.write handle .shareFound), (),
        List.mem_append_right _ List.mem_cons_self, rfl⟩)
  obtain ⟨instanceId, handle, back, split⟩ := first.counts
  obtain ⟨counter, cell, rest, otherSplit⟩ := second.counts
  rcases System.split_cases split otherSplit with
    ⟨same, -, -⟩ | ⟨between, rfl, -⟩ | ⟨between, rfl, -⟩
  · exact same
  · exact (alone otherSplit).elim
  · exact (alone split).elim

/-- A credited pair was evaluated by a submission that was admitted. -/
theorem CreditsAt.exists_evaluation
    (credits : CreditsAt (System.execute events).log front thread uid block nonce) :
    ∃ (before : Record deployment) (answer : Bool × Nat) (after : Record deployment),
      front = before ++ .did thread (.checkPow block nonce) answer :: after ∧
      System.ownCalls evaluation thread after = [] := by
  obtain ⟨earlier, whole⟩ := List.getLast?_eq_some_iff.mp credits.evaluated
  obtain ⟨before, op, answer, after, rfl, -, chosen, silent⟩ :=
    System.exists_split_of_ownCalls whole
  unfold evaluation at chosen
  split at chosen
  · cases chosen
    exact ⟨before, _, after, rfl, silent⟩
  · exact nomatch chosen

/-- Evaluations are of submissions admitted by the handler of the connection. -/
theorem admission_of_checkPow {answer : Bool × Nat} {event : SubmitEvent}
    (split : (System.execute events).log = front ++ .did thread (.checkPow block nonce) answer :: back)
    (started : .started thread (.submit uid event) ∈ (System.execute events).log) :
    ∃ key now, .did thread (.checkSubmission (deployment.contexts uid).instanceId key now) none ∈
      front ∧ .started thread (.submit uid event) ∈ front := by
  obtain ⟨request, begun, submission, ⟨admitted, text, decoded⟩, -⟩ :=
    (guards_execute events).calls front thread (.checkPow block nonce) answer back split
  obtain rfl := System.started_unique started (split ▸ List.mem_append_left _ begun)
  obtain ⟨served, context, nonceText, same, -⟩ := decoded.event
  cases same
  obtain ⟨op, answer, inFront, guarded⟩ := exists_did_of_guarded admitted
  cases guarded
  rw [decoded.handler] at inFront
  exact ⟨_, _, inFront, begun⟩

theorem evaluatedLast_snoc {before after : Record deployment} {answer : Bool × Nat}
    (silent : System.ownCalls evaluation thread after = []) :
    EvaluatedLast (before ++ .did thread (.checkPow block nonce) answer :: after) thread block
      nonce := by
  unfold EvaluatedLast
  rw [System.ownCalls_append, System.ownCalls_cons, silent, List.append_nil]
  exact List.getLast?_concat

/-- Once a submission evaluated the pair it is credited for, it takes the pair. -/
theorem CreditsAt.takes {before middle after rest : Record deployment} {task : Nat}
    {answer reply : Bool × Nat}
    (credits : CreditsAt (System.execute events).log
      (before ++ .did thread (.checkPow block nonce) answer :: after) thread uid block nonce)
    (silent : System.ownCalls evaluation thread after = [])
    (split : (System.execute events).log =
      (before ++ .did thread (.checkPow block nonce) answer :: middle) ++
        .did task (.checkPow block nonce) reply :: rest) :
    Takes (before ++ .did thread (.checkPow block nonce) answer :: middle) thread uid block
      nonce := by
  obtain ⟨instanceId, handle, back, creditSplit⟩ := credits.counts
  obtain ⟨event, started⟩ := credits.serves
  rcases System.split_cases split creditSplit with
    ⟨-, absurdity, -⟩ | ⟨between, longer, -⟩ | ⟨between, longer, -⟩
  · exact nomatch absurdity
  · -- The other submission evaluates before the credit.
    have middleSilent : System.ownCalls evaluation thread middle = [] := by
      rw [List.append_assoc, List.cons_append] at longer
      have tail := (List.cons.inj (List.append_cancel_left longer)).2
      rw [tail, System.ownCalls_append] at silent
      exact (List.append_eq_nil_iff.mp silent).1
    refine Or.inr ⟨⟨event, ?_⟩, evaluatedLast_snoc middleSilent, fun result finished => ?_⟩
    · obtain ⟨request, begun, -⟩ := (guards_execute events).calls before thread
        (.checkPow block nonce) answer (middle ++ .did task (.checkPow block nonce) reply :: rest)
        (by rw [split, List.append_assoc, List.cons_append])
      have inLog : ∀ {entry : (bridge deployment).Entry}, entry ∈ before →
          entry ∈ (System.execute events).log := by
        intro entry member
        rw [split]
        exact List.mem_append_left _ (List.mem_append_left _ member)
      obtain rfl := System.started_unique (inLog begun)
        (creditSplit ▸ List.mem_append_left _ started)
      exact List.mem_append_left _ begun
    · obtain ⟨early, late, ended⟩ := List.append_of_mem finished
      have finishedAt : (System.execute events).log = early ++ .finished thread result ::
          (late ++ .did task (.checkPow block nonce) reply :: between ++
            .did thread (.stats instanceId (.write handle .shareFound)) () :: back) := by
        rw [creditSplit, longer, ended]
        simp only [List.append_assoc, List.cons_append]
      exact System.no_calls_after_finish finishedAt _ _
        (List.mem_append_right _ List.mem_cons_self)
  · -- The credit comes first.
    exact Or.inl ⟨_, ⟨⟨event, started⟩, credits.evaluated, instanceId, handle, between, longer⟩⟩

/-- Of two submissions credited for a pair, the one that evaluates it later repeats the key of
the other. -/
theorem key_repeated (apart : OneKeyPerWork (System.execute events).log)
    {before middle after rest other : Record deployment} {task : Nat} {answer reply : Bool × Nat}
    (first : CreditsAt (System.execute events).log
      (before ++ .did thread (.checkPow block nonce) answer :: after) thread uid block nonce)
    (silent : System.ownCalls evaluation thread after = [])
    (second : CreditsAt (System.execute events).log other task uid block nonce)
    (split : (System.execute events).log =
      (before ++ .did thread (.checkPow block nonce) answer :: middle) ++
        .did task (.checkPow block nonce) reply :: rest) :
    ∃ key now time,
      .did thread (.checkSubmission (deployment.contexts uid).instanceId key now) none ∈
        (System.execute events).log ∧
      .did task (.checkSubmission (deployment.contexts uid).instanceId key time) none ∈
        (System.execute events).log := by
  have takes := first.takes silent split
  have begins : ∀ {front : Record deployment} {thread : Nat},
      CreditsAt (System.execute events).log front thread uid block nonce →
        ∃ event, .started thread (.submit uid event) ∈ (System.execute events).log := by
    intro front thread credits
    obtain ⟨event, started⟩ := credits.serves
    obtain ⟨instanceId, handle, back, split⟩ := credits.counts
    exact ⟨event, split ▸ List.mem_append_left _ started⟩
  obtain ⟨firstEvent, firstStarted⟩ := begins first
  obtain ⟨secondEvent, secondStarted⟩ := begins second
  have firstSplit : (System.execute events).log = before ++
      .did thread (.checkPow block nonce) answer :: (middle ++
        .did task (.checkPow block nonce) reply :: rest) := by
    rw [split, List.append_assoc, List.cons_append]
  obtain ⟨key, now, admitted, -⟩ := admission_of_checkPow firstSplit firstStarted
  obtain ⟨otherKey, time, otherAdmitted, begun⟩ := admission_of_checkPow split secondStarted
  have same : key = otherKey := apart _ task block nonce reply rest split uid secondEvent otherKey
    begun ⟨_, time, otherAdmitted⟩ thread key takes
    ⟨_, now, List.mem_append_left _ admitted⟩
  subst same
  refine ⟨key, now, time, ?_, ?_⟩
  · rw [firstSplit]
    exact List.mem_append_left _ admitted
  · rw [split]
    exact List.mem_append_left _ otherAdmitted

/-- **No double credit.** While nothing expires from the guard and no piece of work is
evaluated under a second key while it is taken, a connection is credited once for it. -/
theorem credited_once (fit : GuardsFit events)
    (apart : OneKeyPerWork (System.execute events).log) (uid : Nat) :
    CreditedOnce (System.execute events).log uid := by
  intro block nonce front thread other task first second
  by_cases same : thread = task
  · subst same
    exact credit_unique first second
  obtain ⟨before, answer, after, rfl, silent⟩ := first.exists_evaluation
  obtain ⟨otherBefore, reply, otherAfter, rfl, otherSilent⟩ := second.exists_evaluation
  have twice : ∀ {key now time},
      .did thread (.checkSubmission (deployment.contexts uid).instanceId key now) none ∈
        (System.execute events).log →
      .did task (.checkSubmission (deployment.contexts uid).instanceId key time) none ∈
        (System.execute events).log → False := by
    intro key now time admitted alsoAdmitted
    rcases System.order_of_mem admitted alsoAdmitted with
      equal | ⟨early, between, late, split⟩ | ⟨early, between, late, split⟩
    · exact same (System.Entry.did.inj equal).1
    · rw [← List.cons_append, ← List.append_assoc] at split
      exact not_admitted_before fit split thread now
        (List.mem_append_right _ List.mem_cons_self)
    · rw [← List.cons_append, ← List.append_assoc] at split
      exact not_admitted_before fit split task time
        (List.mem_append_right _ List.mem_cons_self)
  obtain ⟨instanceId, handle, back, split⟩ := first.counts
  obtain ⟨counter, cell, rest, otherSplit⟩ := second.counts
  rw [List.append_assoc, List.cons_append] at split otherSplit
  rcases System.split_cases split otherSplit with
    ⟨-, equal, -⟩ | ⟨between, longer, -⟩ | ⟨between, longer, -⟩
  · exact absurd (System.Entry.did.inj equal).1 same
  · subst longer
    obtain ⟨key, now, time, admitted, alsoAdmitted⟩ :=
      key_repeated apart first silent second otherSplit
    exact (twice admitted alsoAdmitted).elim
  · subst longer
    obtain ⟨key, now, time, admitted, alsoAdmitted⟩ :=
      key_repeated apart second otherSilent first split
    exact (twice alsoAdmitted admitted).elim

end Run

end Model

section Sample

attribute [local instance] Sample.platform

namespace Sample

/-- A guard, checked to fit. -/
def fitsNow (guard : DuplicateSubmitGuard) (now : Nat) : Bool :=
  (guard.entries.keys.all fun key =>
    (guard.entries.lookup key).all fun entry => now - entry.ts ≤ guard.ttl) &&
    decide (guard.entries.keys.length ≤ guard.maxEntries)

theorem fits_of_fitsNow {guard : DuplicateSubmitGuard} {now : Nat}
    (passes : fitsNow guard now = true) : guard.Fits now := by
  obtain ⟨young, small⟩ := (Bool.and_eq_true _ _).mp passes
  refine ⟨fun key member entry found => ?_, of_decide_eq_true small⟩
  have here := List.all_eq_true.mp young key member
  rw [found] at here
  exact of_decide_eq_true here

/-- The guard a step uses, checked to fit. -/
def stepFits {payout : Option Text} (config : (bridge (deployment payout)).Config) :
    (bridge (deployment payout)).Event → Bool
  | .start _ => true
  | .step thread _ =>
      match config.running thread with
      | some (.call (.checkSubmission instanceId _ time) _)
      | some (.call (.setOutcome instanceId _ time _) _) =>
          fitsNow (config.state.duplicates instanceId) time
      | _ => true

theorem guardsFit_of_check {payout : Option Text} {events : List (bridge (deployment payout)).Event}
    (passes : System.checkAlong stepFits (System.idle _) events = true) : GuardsFit events := by
  refine System.along_of_check ?_ passes
  rintro config event passed thread op ⟨env, next, rfl, running⟩
  cases op with
  | checkSubmission instanceId key time =>
      simp only [stepFits, running] at passed
      exact fits_of_fitsNow passed
  | setOutcome instanceId key time outcome =>
      simp only [stepFits, running] at passed
      exact fits_of_fitsNow passed
  | _ => trivial

/-- Evaluations, and credits as `none`. -/
def workCall : (op : BridgeOp) → op.Answer → Option (Option (Block × Nat))
  | .checkPow block nonce, _ => some (some (block, nonce))
  | .stats _ (.write _ .shareFound), _ => some none
  | _, _ => none

theorem ownCalls_evaluation {payout : Option Text} (thread : Nat)
    (log : Record (deployment payout)) :
    System.ownCalls evaluation thread log = (System.ownCalls workCall thread log).filterMap id := by
  have picks : @evaluation platform = fun op answer => (workCall op answer).bind id := by
    funext op answer
    cases op with
    | stats instanceId op =>
        cases op with
        | write handle change => cases change <;> rfl
        | _ => rfl
    | _ => rfl
  rw [picks]
  exact System.ownCalls_bind id log

/-- A credit in the listed work. -/
theorem creditsAt_of_work {payout : Option Text} {events : List (bridge (deployment payout)).Event}
    {work rest : List (Nat × Option (Block × Nat))} {thread uid : Nat} {block : Block} {nonce : Nat}
    (listed : System.callsBy workCall (System.execute events).log = work ++ (thread, none) :: rest)
    (only : ∀ task connection, (task, connection) ∈ submitters (System.execute events).log →
      connection = uid)
    (last : ((work.filterMap fun (other, item) =>
      if other = thread then some item else none).filterMap id).getLast? = some (block, nonce)) :
    ∃ front, CreditsAt (System.execute events).log front thread uid block nonce ∧
      System.callsBy workCall front = work := by
  obtain ⟨front, op, answer, back, split, before, chosen, -⟩ :=
    System.exists_split_of_callsBy listed
  unfold workCall at chosen
  split at chosen
  case h_1 => exact nomatch Option.some.inj chosen
  case h_3 => exact nomatch chosen
  case h_2 instanceId handle answer =>
    obtain ⟨request, begun, submission, -, ⟨-, text, decoded⟩, -⟩ :=
      (guards_execute events).calls front thread (.stats instanceId (.write handle .shareFound))
        answer back split
    obtain ⟨event, -, -, rfl, -⟩ := decoded.event
    have served := only thread submission.uid
      (List.mem_filterMap.mpr ⟨_, split ▸ List.mem_append_left _ begun, rfl⟩)
    refine ⟨front, ⟨⟨event, served ▸ begun⟩, ?_, instanceId, handle, back, split⟩, before⟩
    rw [EvaluatedLast, ownCalls_evaluation, System.ownCalls_eq_filterMap, before]
    exact last

/-- A miner solves its job. -/
def solvedOnce : List (bridge (deployment none)).Event :=
  publishes 0 1 ++ .start (.submit 1 ⟨none, [.string [], .string ['1'], .string ['5']]⟩) ::
    steps none 1 90 {}

/-- The miner then spells the nonce with a leading zero. -/
def solvedTwice : List (bridge (deployment none)).Event :=
  solvedOnce ++ .start (.submit 1 ⟨none, [.string [], .string ['1'], .string ['0', '5']]⟩) ::
    steps none 2 90 {}

theorem solvedTwice_fits : GuardsFit solvedTwice := guardsFit_of_check (by decide +kernel)

theorem solvedOnce_apart : OneKeyPerWork (System.execute solvedOnce).log := by
  have listed : System.callsBy guardCheck (System.execute solvedOnce).log =
      [(1, 0, repeatedKey, none)] := by
    decide +kernel
  have only : ∀ {front : Record (deployment none)} {thread key back},
      (System.execute solvedOnce).log = front ++ back → AdmittedUnder front thread key →
        key = repeatedKey := by
    rintro front thread key back split ⟨instanceId, now, member⟩
    have check : (thread, instanceId, key, none) ∈
        System.callsBy guardCheck (System.execute solvedOnce).log :=
      System.mem_callsBy.mpr (System.mem_ownCalls.mpr
        ⟨_, _, split ▸ List.mem_append_left _ member, rfl⟩)
    rw [listed] at check
    cases List.mem_singleton.mp check
    rfl
  intro front thread block nonce answer back split uid event key _ admitted other otherKey _ taken
  rw [only split admitted, only split taken]

/-- The solution of a job is credited once. -/
theorem credited_once_sample : CreditedOnce (System.execute solvedOnce).log 1 ∧
    ∃ front, CreditsAt (System.execute solvedOnce).log front 1 1 easyParent 5 := by
  refine ⟨credited_once solvedTwice_fits.of_append solvedOnce_apart 1, ?_⟩
  have listed : System.callsBy workCall (System.execute solvedOnce).log =
      [(1, some (easyParent, 5))] ++ (1, none) :: [] := by
    decide +kernel
  have served : submitters (System.execute solvedOnce).log = [(1, 1)] := by decide +kernel
  have only : ∀ task connection, (task, connection) ∈
      submitters (System.execute solvedOnce).log → connection = 1 := by simp [served]
  obtain ⟨front, credits, -⟩ := creditsAt_of_work listed only rfl
  exact ⟨front, credits⟩

/-- Two spellings of one nonce are both credited. -/
theorem credited_twice : ¬ ∀ events : List (bridge (deployment none)).Event, GuardsFit events →
    ∀ uid, CreditedOnce (System.execute events).log uid := by
  intro claim
  have listed : System.callsBy workCall (System.execute solvedTwice).log =
      [(1, some (easyParent, 5)), (1, none), (2, some (easyParent, 5)), (2, none)] := by
    decide +kernel
  have served : submitters (System.execute solvedTwice).log = [(1, 1), (2, 1)] := by
    decide +kernel
  have only : ∀ task connection, (task, connection) ∈ submitters (System.execute solvedTwice).log →
      connection = 1 := by
    intro task connection member
    rw [served] at member
    rcases List.mem_cons.mp member with first | second
    · exact (Prod.mk.inj first).2
    · exact (Prod.mk.inj (List.mem_singleton.mp second)).2
  obtain ⟨front, first, one⟩ := @creditsAt_of_work _ _ [(1, some (easyParent, 5))] _ _ _ _ _
    listed only rfl
  obtain ⟨other, second, three⟩ := @creditsAt_of_work _ _
    [(1, some (easyParent, 5)), (1, none), (2, some (easyParent, 5))] _ _ _ _ _ listed only rfl
  have same := claim solvedTwice solvedTwice_fits 1 easyParent 5 front 1 other 2 first second
  rw [same, three] at one
  exact nomatch one

end Sample

end Sample

end StratumBridge
