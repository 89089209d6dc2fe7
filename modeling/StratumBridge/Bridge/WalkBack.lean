import StratumBridge.Bridge.WalkProtocol
import StratumBridge.Bridge.SubmitAnswers
import StratumBridge.Bridge.Rings

/-! # The walk back of a submission

The handler makes exactly one walk, from the job the submission resolves to, and settles or
credits the job the walk ends at.
-/

namespace StratumBridge

open Interaction

section Model

variable [Platform]

/-! ## The handler -/

section Handler

variable {settings : Settings} {ring : MiningState} {request : BridgeRequest}
  {calls : List WalkCall}

/-- How a walk is left: weak, or with a job that hit and calls about it. -/
inductive Exits (settings : Settings) (ring : MiningState) (nonce : Nat) :
    Option (Nat × Job) → List WalkCall → Verdict → Prop where
  | weak : Exits settings ring nonce none [] .weak
  | closed {id : Nat} {job : Job} {rest : List WalkCall} {verdict : Verdict}
      (about : ∀ call ∈ rest, call.Concerns settings ring nonce id job)
      (closes : verdict.Closes id job rest) :
      Exits settings ring nonce (some (id, job)) rest verdict

/-- The calls of the evaluations of a walk. -/
def roundCalls (settings : Settings) (rounds : List Evaluation) : List WalkCall :=
  (rounds.flatMap (Evaluation.calls settings)).map .settles

/-- What an evaluation with some attempts left adds from a job on: a walk, and how it is left. -/
def Walks (settings : Settings) (ring : MiningState) (nonce attempts id : Nat)
    (calls after : List WalkCall) (verdict : Verdict) : Prop :=
  ∃ rounds exit rest, after = calls ++ roundCalls settings rounds ++ rest ∧
    WalksFrom settings ring nonce attempts id rounds exit ∧
    Exits settings ring nonce exit rest verdict

theorem roundCalls_cons (evaluation : Evaluation) (rounds : List Evaluation) :
    roundCalls settings (evaluation :: rounds) =
      (evaluation.calls settings).map .settles ++ roundCalls settings rounds := by
  rw [roundCalls, List.flatMap_cons, List.map_append]
  rfl

/-- A walk of one evaluation, left here. -/
theorem walks_one (calls : List WalkCall) {nonce attempts id : Nat} {evaluation : Evaluation} {exit : Option (Nat × Job)}
    {rest : List WalkCall} {verdict : Verdict}
    (walk : WalksFrom settings ring nonce attempts id [evaluation] exit)
    (exits : Exits settings ring nonce exit rest verdict) :
    Walks settings ring nonce attempts id calls
      (calls ++ (evaluation.calls settings).map .settles ++ rest) verdict := by
  refine ⟨[evaluation], exit, rest, ?_, walk, exits⟩
  rw [roundCalls, List.flatMap_singleton]

/-- The walk the handler makes. -/
theorem evaluate_walk {submission : Submission} (unnumbered : ring.getJob 0 = none)
    {attempts : Nat} (back : Nat) {id : Nat} {job : Job} {invalid : Bool} (left : 0 < attempts)
    (near : back + attempts ≤ maxCompatJobAttempts) (named : id + back = submission.jobId)
    (retained : ring.getJob id = some job) (flagged : invalid = true ∨ id = submission.jobId) :
    (walks submission.uid ring).Obeys request calls
      (evaluate settings submission attempts id job invalid)
      (Walks settings ring submission.nonce attempts id calls) := by
  induction attempts generalizing back id job invalid calls with
  | zero => exact absurd left (lt_irrefl 0)
  | succ attempts ih =>
      refine walk_call (.checkPow job.block submission.nonce) fun checked reliable => ?_
      obtain rfl : checked = checkPow job.block.header submission.nonce := reliable
      refine (mergedFcTarget_walk settings job.block).bind ?_
      rintro after fcTarget ⟨found, rfl, rfl, plain⟩
      have here : Evaluation.Of ⟨job.block, submission.nonce, found⟩ settings ring submission.nonce
          id job := ⟨retained, rfl, rfl, plain⟩
      have extended : calls ++ (walkCall (.checkPow job.block submission.nonce)
            (checkPow job.block.header submission.nonce)).toList ++
          (((Evaluation.lane settings job.block).map fun hFc =>
            SettlementCall.looked hFc found).toList).map .settles =
          calls ++ (Evaluation.calls settings ⟨job.block, submission.nonce, found⟩).map .settles := by
        rw [List.append_assoc]
        rfl
      rw [extended]
      dsimp only
      split
      case isTrue solves =>
        refine (settleSolution_walk submission _).mono ?_
        rintro _ verdict ⟨rest, rfl, about, closes⟩
        exact walks_one calls (.hit here (Or.inl ((Evaluation.solves_iff _).mp solves)))
          (.closed about closes)
      case isFalse unsolved =>
        refine (shareDiff_walk id).bind ?_
        rintro _ _ ⟨rfl, rfl⟩
        have weak : (invalid || decide (id = submission.jobId)) = true := by
          rw [Bool.or_eq_true, decide_eq_true_eq]
          exact flagged
        split
        case isTrue high =>
          have misses : ¬Evaluation.Hits ⟨job.block, submission.nonce, found⟩ ring id := by
            rintro (solves | low)
            · exact unsolved ((Evaluation.solves_iff _).mpr solves)
            · exact absurd low (Nat.not_le.mpr high)
          have leaves : WalksFrom settings ring submission.nonce (attempts + 1) id
              [⟨job.block, submission.nonce, found⟩] none →
              Walks settings ring submission.nonce (attempts + 1) id calls
                (calls ++ (Evaluation.calls settings ⟨job.block, submission.nonce, found⟩).map
                  .settles) .weak := by
            intro walk
            have only := walks_one calls walk .weak
            rwa [List.append_nil] at only
          split
          case isTrue exhausted =>
            apply Protocol.obeys_done
            apply leaves
            rcases exhausted with rfl | wrapped
            · exact .lost here misses unnumbered
            · -- the walk is too short to come round to the slot after the submitted job's
              unfold maxJobs at wrapped
              unfold maxCompatJobAttempts at near
              omega
          case isFalse going =>
            split
            case isTrue spent =>
              subst spent
              exact Protocol.obeys_done (leaves (.spent here misses))
            case isFalse further =>
              refine walk_read (.ring submission.uid (.getJob (id - 1))) (fun _ => rfl)
                fun (previous : Option Job) reliable => ?_
              obtain rfl : ring.getJob (id - 1) = previous := reliable rfl
              cases earlier : ring.getJob (id - 1) with
              | none => exact Protocol.obeys_done (leaves (.lost here misses earlier))
              | some previous =>
                  have positive : id ≠ 0 := by
                    rintro rfl
                    exact nomatch unnumbered.symm.trans retained
                  refine (ih (back + 1) (by omega) (by omega) (by omega) earlier
                    (Or.inl weak)).mono ?_
                  rintro _ verdict ⟨rounds, exit, rest, rfl, walk, exits⟩
                  refine ⟨_ :: rounds, exit, rest, ?_, .back here misses walk, exits⟩
                  rw [roundCalls_cons, ← List.append_assoc calls]
        case isFalse low =>
          have walk : WalksFrom settings ring submission.nonce (attempts + 1) id _
              (some (id, job)) := .hit here (Or.inr (Nat.le_of_not_lt low))
          have credited : Exits settings ring submission.nonce (some (id, job)) []
              (.credit id job) := .closed (fun _ member => absurd member List.not_mem_nil) ⟨rfl, rfl⟩
          have only := walks_one calls walk credited
          rw [List.append_nil] at only
          exact Protocol.obeys_done only

theorem creditWeak_walk (submission : Submission) (handle : Nat) :
    (walks submission.uid ring).Obeys request calls (creditWeak submission handle)
      fun after _ => after = calls ++ [.recorded .lowDiff] := by
  have counts : Kind.countWrite ∈ walklessKinds := by decide
  have answers : Kind.verdict ∈ walklessKinds := by decide
  refine walk_skip (writeCount_uses counts _ handle rfl) fun _ => ?_
  refine walk_skip (writeOverall_uses counts _ rfl) fun _ => ?_
  refine walk_skip (walletAddr_uses quiet_walkless _) fun wallet => ?_
  refine walk_skip (workerName_uses quiet_walkless _) fun worker => ?_
  refine walk_skip (workerContext_uses quiet_walkless _ _ _) fun labels => ?_
  refine walk_skip (uses_quiet quiet_walkless _ rfl) fun _ => ?_
  refine walk_skip (emitRejected_uses quiet_walkless _ _ _ _) fun _ => ?_
  refine walk_skip (replyLowDiff_uses answers _ _) fun _ => ?_
  refine (setOutcome_walk submission .lowDiff).bind ?_
  rintro _ _ rfl
  exact Protocol.obeys_done rfl

/-- What follows a walk: the weak share is recorded, or an outcome of the job that hit, after
calls about it. -/
inductive Left (settings : Settings) (ring : MiningState) (nonce : Nat) :
    Option (Nat × Job) → List WalkCall → Prop where
  | weak : Left settings ring nonce none [.recorded .lowDiff]
  | closed {id : Nat} {job : Job} {rest : List WalkCall}
      (about : ∀ call ∈ rest, call.Concerns settings ring nonce id job)
      (recorded : Recorded rest) : Left settings ring nonce (some (id, job)) rest

theorem finishSubmission_walk {submission : Submission} {exit : Option (Nat × Job)}
    {rest : List WalkCall} {verdict : Verdict}
    (exits : Exits settings ring submission.nonce exit rest verdict) :
    (walks submission.uid ring).Obeys request (calls ++ rest) (finishSubmission submission verdict)
      fun after _ => ∃ whole, after = calls ++ whole ∧
        Left settings ring submission.nonce exit whole := by
  cases exits with
  | weak =>
      refine walk_skip (getCreateStats_uses quiet_walkless _ _) fun handle => ?_
      refine (creditWeak_walk submission handle).mono ?_
      rintro _ result rfl
      rw [List.append_nil]
      exact ⟨_, rfl, .weak⟩
  | @closed id job rest verdict about closes =>
      cases verdict with
      | weak => exact closes.elim
      | answered result => exact Protocol.obeys_done ⟨rest, rfl, .closed about closes⟩
      | credit other found =>
          obtain ⟨rfl, rfl⟩ := closes
          refine walk_skip (getCreateStats_uses quiet_walkless _ _) fun _ => ?_
          refine (creditShare_walk settings submission.nonce submission).mono ?_
          rintro _ result ⟨more, rfl, further, recorded⟩
          refine ⟨rest ++ more, List.append_assoc .., .closed ?_ recorded.mono⟩
          intro item member
          rcases List.mem_append.mp member with early | late
          · exact about item early
          · exact further item late

/-- The calls of a submission that is evaluated from this job on. -/
def WalksSubmission (settings : Settings) (ring : MiningState) (nonce id : Nat)
    (calls : List WalkCall) : Prop :=
  ∃ rounds exit rest, calls = .admitted :: roundCalls settings rounds ++ rest ∧
    WalksFrom settings ring nonce maxCompatJobAttempts id rounds exit ∧
    Left settings ring nonce exit rest

theorem handleDecoded_walk {submission : Submission} {job : Job}
    (unnumbered : ring.getJob 0 = none) (retained : ring.getJob submission.jobId = some job) :
    (walks submission.uid ring).Obeys request [] (handleDecoded settings submission job)
      fun after _ => after = [] ∨
        WalksSubmission settings ring submission.nonce submission.jobId after := by
  refine walk_skip (uses_quiet quiet_walkless .now rfl) fun now => ?_
  refine walk_call (.checkSubmission _ _ now) fun (seen : Option DuplicateSubmitOutcome) _ => ?_
  cases seen with
  | some outcome =>
      refine (Protocol.obeys_of_within (replyDuplicate_uses (by decide) _ _ outcome).walkless).mono ?_
      rintro _ result rfl
      exact Or.inl rfl
  | none =>
      refine (evaluate_walk unnumbered 0 (by decide) (by decide) rfl retained
        (Or.inr rfl)).bind ?_
      rintro _ verdict ⟨rounds, exit, rest, rfl, walk, exits⟩
      refine (finishSubmission_walk exits).mono ?_
      rintro _ result ⟨whole, rfl, left⟩
      exact Or.inr ⟨rounds, exit, whole, rfl, walk, left⟩

/-- The numbers a submission is about: the job it names, the job that resolves to, and its
nonce, spelled under some extranonce. -/
structure Names (ring : MiningState) (event : SubmitEvent) (named id nonce : Nat) : Prop where
  parsed : ∃ param, event.params[1]? = some param ∧ parseJobId param = .ok named
  resolved : ∃ job, ring.resolve named = some (id, job)
  spelled : ∃ text extranonce, nonceParam event.params = .ok text ∧
    Text.parseU64 16 (finalNonceText extranonce text) = some nonce

/-- What a submission does: nothing, or a walk from the job its parameter resolves to. -/
def WalksEvent (settings : Settings) (ring : MiningState) (event : SubmitEvent)
    (calls : List WalkCall) : Prop :=
  ∃ named id nonce, Names ring event named id nonce ∧
    WalksSubmission settings ring nonce id calls

theorem handleSubmit_walk {uid : Nat} {event : SubmitEvent} (unnumbered : ring.getJob 0 = none) :
    (walks uid ring).Obeys request [] (handleSubmit settings uid event)
      fun after _ => after = [] ∨ WalksEvent settings ring event after := by
  have correlates : Kind.correlation ∈ walklessKinds := by decide
  have silent : ∀ {task : Task (Except Text Unit)}, Uses walklessKinds task →
      (walks uid ring).Obeys request [] task fun after _ =>
        after = [] ∨ WalksEvent settings ring event after := by
    intro task uses
    refine (Protocol.obeys_of_within uses.walkless).mono ?_
    rintro _ result rfl
    exact Or.inl rfl
  refine walk_skip (uses_perform .newCorrelationId correlates) fun correlationId => ?_
  refine walk_skip (readContext_uses quiet_walkless _) fun context => ?_
  split
  case h_2 => exact silent (rejectSubmission_uses quiet_walkless ..)
  case h_1 first jobParam third further shape =>
    have second : event.params[1]? = some jobParam := by rw [shape]; rfl
    split
    case h_1 => exact Protocol.obeys_done (Or.inl rfl)
    case h_2 named parsed =>
      refine (findJob_walk named).bind ?_
      rintro _ found ⟨rfl, same⟩
      cases found with
      | none => exact silent (rejectSubmission_uses quiet_walkless ..)
      | some found =>
          obtain ⟨id, job⟩ := found
          change (walks uid ring).Obeys request [] (decodeAndHandle ..) _
          unfold decodeAndHandle
          split
          case h_1 => exact Protocol.obeys_done (Or.inl rfl)
          case h_2 text written =>
            refine walk_skip (readContext_uses quiet_walkless _) fun context => ?_
            dsimp only
            split
            case h_1 => exact Protocol.obeys_done (Or.inl rfl)
            case h_2 nonce spelled =>
              refine walk_skip (effectiveWorkerName_uses quiet_walkless _) fun workerId => ?_
              refine (handleDecoded_walk unnumbered
                (MiningState.getJob_of_resolve same.symm)).mono ?_
              rintro after result (nothing | walked)
              · exact Or.inl nothing
              · exact Or.inr ⟨named, id, nonce, ⟨⟨jobParam, second, parsed⟩, ⟨job, same.symm⟩,
                  text, _, written, spelled⟩, walked⟩

end Handler

/-! ## The walk of a run -/

section Run

variable {deployment : Deployment} {uid thread : Nat} {ring : MiningState}

/-- While the task runs, the ring of the connection is this one. -/
def RingKept (thread uid : Nat) (ring : MiningState) (events : List (bridge deployment).Event) :
    Prop :=
  System.Along (fun (config : (bridge deployment).Config) _ => config.running thread ≠ none →
    config.state.rings uid = ring) events

/-- What a task may rely on while its ring is kept. -/
theorem walkAnswers_of_kept {events : List (bridge deployment).Event}
    (kept : RingKept thread uid ring events) (op : BridgeOp) (answer : op.Answer)
    (made : .did thread op answer ∈ (System.execute events).log) : WalkAnswers uid ring op answer := by
  obtain ⟨front, back, split⟩ := List.append_of_mem made
  obtain ⟨before, event, rest, rfl, -, calls, env, after, performed⟩ :=
    System.exists_calls_of_did split
  obtain ⟨made, next, rfl, running⟩ := calls
  have same : (System.execute before).state.rings uid = ring := by
    refine kept before _ rest rfl ?_
    rw [running]
    exact Option.some_ne_none _
  cases op with
  | ring other op =>
      rintro rfl
      rw [← same]
      cases performed
      rfl
  | checkPow block nonce =>
      cases performed
      rfl
  | _ => trivial

/-- What is reached by a submission that is evaluated: it evaluates a few retained jobs, from the
one it resolves to backwards, and ends well at the first one to hit, and only there. -/
structure WalkedBack (settings : Settings) (ring : MiningState) (nonce id : Nat)
    (rounds : List Evaluation) (rest : List WalkCall) : Prop where
  bounded : rounds.length ≤ maxCompatJobAttempts
  evaluates : ∀ back round, rounds[back]? = some round →
    back < id ∧ ∃ job, round.Of settings ring nonce (id - back) job
  leaves : ∀ found, Agrees found id rounds →
    ((∃ outcome, outcome ≠ .lowDiff ∧ .recorded outcome ∈ rest) ↔
      ∃ back < maxCompatJobAttempts, HitsFirst ring nonce found id back)
  concerns : ∀ found, Agrees found id rounds → ∀ back < maxCompatJobAttempts,
    HitsFirst ring nonce found id back → ∃ job, ring.getJob (id - back) = some job ∧
      ∀ call ∈ rest, call.Concerns settings ring nonce (id - back) job
  weak : rest = [.recorded .lowDiff] ∨ ∃ outcome, outcome ≠ .lowDiff ∧ .recorded outcome ∈ rest

theorem walkedBack {settings : Settings} {nonce id : Nat} {rounds : List Evaluation}
    {exit : Option (Nat × Job)} {rest : List WalkCall} (unnumbered : ring.getJob 0 = none)
    (walk : WalksFrom settings ring nonce maxCompatJobAttempts id rounds exit)
    (left : Left settings ring nonce exit rest) : WalkedBack settings ring nonce id rounds rest := by
  have strong : exit ≠ none ↔ ∃ outcome, outcome ≠ .lowDiff ∧ .recorded outcome ∈ rest := by
    cases left with
    | weak =>
        refine ⟨fun ends => absurd rfl ends, ?_⟩
        rintro ⟨outcome, strong, member⟩
        cases List.mem_singleton.mp member
        exact absurd rfl strong
    | closed about recorded =>
        obtain ⟨outcome, member⟩ := recorded
        exact ⟨fun _ => ⟨outcome, about _ member, member⟩, fun _ => Option.some_ne_none _⟩
  refine ⟨walk.length_le, fun back round listed => walk.evaluates unnumbered listed, ?_, ?_, ?_⟩
  · intro found agrees
    rw [← strong]
    constructor
    · exact walk.hitsFirst_of_exit agrees
    · rintro ⟨back, within, first⟩
      obtain ⟨job, ends, -⟩ := walk.exit_of_hitsFirst agrees within first
      rw [ends]
      exact Option.some_ne_none _
  · intro found agrees back within first
    obtain ⟨job, rfl, retained⟩ := walk.exit_of_hitsFirst agrees within first
    cases left with
    | closed about recorded => exact ⟨job, retained, about⟩
  · cases left with
    | weak => exact Or.inl rfl
    | closed about recorded => exact Or.inr (strong.mp (Option.some_ne_none _))

/-- The job a submission resolves to: the one it names, or else the newest retained one. -/
structure Resolves (ring : MiningState) (named id : Nat) : Prop where
  retained : ring.getJob id ≠ none
  own : ring.getJob named ≠ none → id = named
  newest : ring.getJob named = none → ∀ other, ring.getJob other ≠ none → other ≤ id

theorem resolves_of_resolve {log : MiningState.Log} (refines : ring.Refines log) {named id : Nat}
    {job : Job} (resolved : ring.resolve named = some (id, job)) : Resolves ring named id := by
  have retained := MiningState.getJob_of_resolve resolved
  refine ⟨by rw [retained]; exact Option.some_ne_none _, ?_, ?_⟩
  · intro present
    obtain ⟨own, found⟩ := Option.ne_none_iff_exists'.mp present
    rw [MiningState.resolve, found] at resolved
    cases resolved
    rfl
  · intro absent other present
    rw [MiningState.resolve, absent] at resolved
    change ring.latestJob = some (id, job) at resolved
    unfold MiningState.latestJob at resolved
    split at resolved
    case h_1 newest maximal =>
      obtain ⟨latest, -, same⟩ := Option.map_eq_some_iff.mp resolved
      cases same
      apply (List.max?_eq_some_iff.mp maximal).2
      rw [refines.mem_getStoredJobIds]
      by_contra expired
      rw [refines.getJob, if_neg expired] at present
      exact present rfl
    case h_2 => exact nomatch resolved

/-- **The walk back.** A submission ends under every fair schedule. While its ring is kept, an
admitted one evaluates at most eight retained jobs, one by one from the job it resolves to
backwards, and it credits a share or settles a block if and only if one of these is the first to
hit; all it then submits, claims, reports and credits is of that job. -/
theorem walk_back {before after : List (bridge deployment).Event} {event : SubmitEvent}
    (number : (System.execute before).count = thread)
    (held : (System.execute before).state.rings uid = ring)
    (room : (addedJobs uid (System.execute before).log).length < 2 ^ 64)
    (kept : RingKept thread uid ring (before ++ .start (.submit uid event) :: after)) :
    (∀ schedule : Nat → (bridge deployment).Event, System.Fair thread schedule →
      ∃ later result, .finished thread result ∈
        (System.scheduled (before ++ .start (.submit uid event) :: after) schedule later).log) ∧
    ∀ log : Record deployment,
      log = (System.execute (before ++ .start (.submit uid event) :: after)).log →
      ∀ result, .finished thread result ∈ log →
      ∀ instanceId key now, .did thread (.checkSubmission instanceId key now) none ∈ log →
      ∃ named id nonce rounds rest,
        (∃ param, event.params[1]? = some param ∧ parseJobId param = .ok named) ∧
        (∃ text extranonce, nonceParam event.params = .ok text ∧
          Text.parseU64 16 (finalNonceText extranonce text) = some nonce) ∧
        Resolves ring named id ∧
        System.ownCalls walkCall thread log =
          .admitted :: roundCalls deployment.settings rounds ++ rest ∧
        WalkedBack deployment.settings ring nonce id rounds rest := by
  subst number held
  have refines := ring_refines uid before room
  have unnumbered : ((System.execute before).state.rings uid).getJob 0 = none := by
    rw [refines.getJob]
    exact if_neg fun retained => absurd retained.1 (by decide)
  obtain ⟨back, grown⟩ := System.log_of_start before after (.submit uid event)
  have started : .started (System.execute before).count (.submit uid event) ∈
      (System.execute (before ++ .start (.submit uid event) :: after)).log := by
    rw [grown]
    exact List.mem_append_right _ List.mem_cons_self
  refine ⟨fun schedule fair => submission_finishes started fair, ?_⟩
  rintro log rfl result finished instanceId key now admitted
  have obeys : (walks uid ((System.execute before).state.rings uid)).Obeys (.submit uid event) []
      ((bridge deployment).program (.submit uid event)) fun after _ => after = [] ∨
        WalksEvent deployment.settings ((System.execute before).state.rings uid) event after := by
    refine (handleSubmit_walk unnumbered).bind ?_
    intro after handled walked
    exact Protocol.obeys_done walked
  rcases System.obeyed_of_finished obeys started finished (walkAnswers_of_kept kept) with
    nothing | ⟨named, id, nonce, names, rounds, exit, rest, whole, walk, left⟩
  · have own : WalkCall.admitted ∈ System.ownCalls walkCall _ _ :=
      System.mem_ownCalls.mpr ⟨_, _, admitted, rfl⟩
    rw [nothing] at own
    exact nomatch own
  · obtain ⟨job, resolved⟩ := names.resolved
    exact ⟨named, id, nonce, rounds, rest, names.parsed, names.spelled,
      resolves_of_resolve refines resolved, whole, walkedBack unnumbered walk left⟩

end Run

end Model

section Sample

attribute [local instance] Sample.platform

/-- The rings hold the same. -/
private def sameRing (first second : MiningState) : Bool :=
  decide (first.jobs.entries = second.jobs.entries) &&
  decide (first.jobIds.entries = second.jobIds.entries) &&
  decide (first.jobDiffs.entries = second.jobDiffs.entries) &&
  decide (first.jobCounter = second.jobCounter) && decide (first.bigDiff = second.bigDiff) &&
  decide (first.initialized = second.initialized) &&
  decide (first.useBigJob = second.useBigJob) && decide (first.stratumDiff = second.stratumDiff)

private theorem eq_of_sameRing {first second : MiningState} (same : sameRing first second = true) :
    first = second := by
  simp only [sameRing, Bool.and_eq_true, decide_eq_true_eq] at same
  obtain ⟨⟨⟨⟨⟨⟨⟨jobs, ids⟩, diffs⟩, counter⟩, big⟩, initialized⟩, used⟩, current⟩ := same
  cases first
  cases second
  congr
  · exact AList.ext jobs
  · exact AList.ext ids
  · exact AList.ext diffs

/-- The ring of connection 1 after its first job. -/
private def firstRing : MiningState :=
  (System.execute (Sample.publishes 0 1)).state.rings 1

/-- The ring is the first one while task 1 runs. -/
private def keptCheck (config : (bridge (Sample.deployment none)).Config)
    (_ : (bridge (Sample.deployment none)).Event) : Bool :=
  (config.running 1).isNone || sameRing (config.state.rings 1) firstRing

private theorem firstRing_kept : RingKept 1 1 firstRing answeredRun := by
  refine System.along_of_check ?_ (by decide +kernel : System.checkAlong keptCheck _ _ = true)
  intro config event passes alive
  rw [keptCheck, Bool.or_eq_true, Option.isNone_iff_eq_none] at passes
  rcases passes with idle | same
  · exact absurd idle alive
  · exact eq_of_sameRing same

/-- The submissions the guard had not seen. -/
private def freshness : (op : BridgeOp) → op.Answer → Option (Nat × Text × Nat)
  | .checkSubmission instanceId key now, none => some (instanceId, key, now)
  | _, _ => none

/-- The submission of the sample walks back. -/
theorem walk_back_sample :
    ∃ nonce id rounds rest,
      System.ownCalls walkCall 1 (System.execute answeredRun).log =
        .admitted :: roundCalls Sample.settings rounds ++ rest ∧
      WalkedBack Sample.settings firstRing nonce id rounds rest := by
  obtain ⟨result, finished⟩ : ∃ result, .finished 1 result ∈ (System.execute answeredRun).log :=
    System.exists_finished (by decide +kernel)
  have fresh : (0, ['r', '|', '1', '|', '5'], 0) ∈
      System.ownCalls freshness 1 (System.execute answeredRun).log := by decide +kernel
  obtain ⟨op, answer, made, chosen⟩ := System.mem_ownCalls.mp fresh
  have admitted : .did 1 (.checkSubmission 0 ['r', '|', '1', '|', '5'] 0) none ∈
      (System.execute answeredRun).log := by
    unfold freshness at chosen
    split at chosen
    · cases chosen
      exact made
    · exact nomatch chosen
  have number : (System.execute (Sample.publishes 0 1)).count = 1 := by decide +kernel
  have walked := walk_back number rfl (by decide +kernel) firstRing_kept
  obtain ⟨named, id, nonce, rounds, rest, -, -, -, calls, walk⟩ :=
    walked.2 _ rfl result finished _ _ _ admitted
  exact ⟨nonce, id, rounds, rest, calls, walk⟩

end Sample

end StratumBridge
