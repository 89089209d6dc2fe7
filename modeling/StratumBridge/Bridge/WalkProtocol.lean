import StratumBridge.Bridge.Walks
import StratumBridge.Interaction.Trace

/-! # The calls of a walk

A walk evaluates jobs; what follows it submits, claims, reports and credits. The tasks that
settle a solution or credit a share are shown here to be about one job only.
-/

namespace StratumBridge

open Interaction

variable [Platform]

/-! ## The calls of a walk -/

/-- The calls a walk and what follows it consist of. -/
inductive WalkCall where
  /-- The submission was not seen before. -/
  | admitted
  | settles (call : SettlementCall)
  /-- An outcome is recorded for the submission. -/
  | recorded (outcome : DuplicateSubmitOutcome)
  /-- The difficulty of a credited share is added up. -/
  | weighed (hashValue : ℚ)
  | credited (difficulty : ℚ) (daaScore : Nat)
  /-- A block is reported as found or accepted. -/
  | reported (hash : Hash)
  /-- A block is waited for to be confirmed. -/
  | awaited (hash : Text) (nonce blueScore : Nat)

def walkCall : (op : BridgeOp) → op.Answer → Option WalkCall
  | .checkSubmission _ _ _, none => some .admitted
  | .setOutcome _ _ _ outcome, _ => some (.recorded outcome)
  | .stats _ (.write _ (.addSharesDiff hashValue)), _ => some (.weighed hashValue)
  | .emit (.shareCredited _ _ difficulty daaScore _), _ => some (.credited difficulty.value daaScore)
  | .emit (.blockFound _ _ hash _ _), _ => some (.reported hash)
  | .emit (.blockAccepted hash _), _ => some (.reported hash)
  | .spawnConfirm _ _ _ hash nonce blueScore, _ => some (.awaited hash nonce blueScore)
  | op, answer => (settlementCall op answer).map .settles

/-- The hash a solved job is reported under. -/
def solvedHash (settings : Settings) (block : Block) (nonce : Nat) : Hash :=
  (mergedChainHash settings block).getD (Platform.headerHash (block.withNonce nonce).header)

/-- The call is about this job at this nonce: its block is submitted, its lane claimed, its
difficulty credited. It neither evaluates nor reports a weak share. -/
def WalkCall.Concerns (settings : Settings) (ring : MiningState) (nonce id : Nat) (job : Job) :
    WalkCall → Prop
  | .admitted | .settles (.checked _ _) => False
  | .settles (.looked _ _) => True
  | .settles (.paid parent _) => parent = job.block.withNonce nonce
  | .settles (.claimed hFc _) => committedHFc job.block = some hFc
  | .settles (.sent block _) => block = job.block.withNonce nonce ∨
      ∃ fcBlock, block = assembleAuxBlock (job.block.withNonce nonce) fcBlock
  | .recorded outcome => outcome ≠ .lowDiff
  | .weighed hashValue => hashValue = ((ring.measure id).map KaspaDiff.hashValue).getD 0
  | .credited difficulty daaScore => daaScore = job.block.header.daaScore ∧
      difficulty = ((ring.measure id).map KaspaDiff.diffValue).getD
        (((ring.measure id).map KaspaDiff.hashValue).getD 0)
  | .reported hash => hash = solvedHash settings job.block nonce
  | .awaited hash solution blueScore => hash = Text.ofHash (solvedHash settings job.block nonce) ∧
      solution = nonce ∧ blueScore = (job.block.withNonce nonce).header.blueScore

/-- What a walk relies on: the ring of the connection answers as this one. -/
def WalkAnswers (uid : Nat) (ring : MiningState) : (op : BridgeOp) → op.Answer → Prop
  | .ring other op, answer => other = uid → (op.act ring).1 = answer
  | .checkPow block nonce, answer => answer = checkPow block.header nonce
  | _, _ => True

@[reducible] def walks (uid : Nat) (ring : MiningState) :
    Protocol bridgeSignature BridgeRequest WalkCall BridgeResult where
  select := walkCall
  permits := fun _ _ _ => True
  answers := WalkAnswers uid ring
  completes := fun _ _ _ => True

/-! ## Rules -/

/-- The kinds of operations a walk records nothing of. -/
def walklessKinds : List Kind :=
  Kind.except [.checkSubmission, .checkPow, .pendingRead, .kaspaSubmit, .claim, .zkasSubmit, .setOutcome, .diffWrite,
    .shareEvent, .blockEvent]

omit [Platform] in
theorem quiet_walkless : Kind.quiet ∈ walklessKinds := by decide

theorem walkCall_of_walkless {op : BridgeOp} (other : op.kind ∈ walklessKinds)
    (answer : op.Answer) : walkCall op answer = none := by
  have noAdmission : Kind.checkSubmission ∉ walklessKinds := by decide
  have noOutcome : Kind.setOutcome ∉ walklessKinds := by decide
  have noDiff : Kind.diffWrite ∉ walklessKinds := by decide
  have noShare : Kind.shareEvent ∉ walklessKinds := by decide
  have noBlock : Kind.blockEvent ∉ walklessKinds := by decide
  have noCheck : Kind.checkPow ∉ walklessKinds := by decide
  have noLook : Kind.pendingRead ∉ walklessKinds := by decide
  have noPay : Kind.kaspaSubmit ∉ walklessKinds := by decide
  have noClaim : Kind.claim ∉ walklessKinds := by decide
  have noSend : Kind.zkasSubmit ∉ walklessKinds := by decide
  unfold walkCall
  split
  · exact absurd other noAdmission
  · exact absurd other noOutcome
  · exact absurd other noDiff
  · exact absurd other noShare
  · exact absurd other noBlock
  · exact absurd other noBlock
  · exact absurd other noBlock
  · cases chosen : settlementCall _ _ with
    | none => rfl
    | some item =>
        cases settlementCall_cases chosen with
        | checked => exact absurd other noCheck
        | looked => exact absurd other noLook
        | paid => exact absurd other noPay
        | claimed => exact absurd other noClaim
        | sent => exact absurd other noSend

section Rules

variable {uid : Nat} {ring : MiningState} {request : BridgeRequest} {calls : List WalkCall}
  {α β : Type}

/-- A task of other kinds records nothing. -/
theorem Uses.walkless {task : Task α} (uses : Uses walklessKinds task) :
    Program.Within (walks uid ring).Ignores task :=
  Program.Within.mono uses fun _ member => ⟨fun _ _ => trivial, walkCall_of_walkless member⟩

theorem walk_skip {first : Task α} {rest : α → Task β} {post : List WalkCall → β → Prop}
    (uses : Uses walklessKinds first)
    (tail : ∀ result, (walks uid ring).Obeys request calls (rest result) post) :
    (walks uid ring).Obeys request calls (first >>= rest) post :=
  Protocol.obeys_bind_of_within uses.walkless tail

/-- One call, then the rest. -/
theorem walk_call (op : BridgeOp) {rest : op.Answer → Task α} {post : List WalkCall → α → Prop}
    (tail : ∀ answer, WalkAnswers uid ring op answer →
      (walks uid ring).Obeys request (calls ++ (walkCall op answer).toList) (rest answer) post) :
    (walks uid ring).Obeys request calls (call op >>= rest) post :=
  ⟨trivial, tail⟩

/-- A call that is not recorded. -/
theorem walk_read (op : BridgeOp) {rest : op.Answer → Task α} {post : List WalkCall → α → Prop}
    (silent : ∀ answer, walkCall op answer = none)
    (tail : ∀ answer, WalkAnswers uid ring op answer →
      (walks uid ring).Obeys request calls (rest answer) post) :
    (walks uid ring).Obeys request calls (call op >>= rest) post := by
  refine walk_call op fun answer reliable => ?_
  rw [silent answer, Option.toList_none, List.append_nil]
  exact tail answer reliable

end Rules

/-! ## Reads of the ring -/

section Reads

variable {uid : Nat} {ring : MiningState} {request : BridgeRequest} {calls : List WalkCall}

theorem findJob_walk (named : Nat) :
    (walks uid ring).Obeys request calls (findJob uid named) fun after found =>
      after = calls ∧ found = ring.resolve named := by
  refine walk_read (.ring uid (.getJob named)) (fun _ => rfl) fun (job : Option Job) reliable => ?_
  obtain rfl : ring.getJob named = job := reliable rfl
  unfold MiningState.resolve
  cases ring.getJob named with
  | some job => exact Protocol.obeys_done ⟨rfl, rfl⟩
  | none =>
      refine walk_read (.ring uid .storedJobIds) (fun _ => rfl) fun (ids : List Nat) reliable => ?_
      obtain rfl : ring.getStoredJobIds = ids := reliable rfl
      unfold MiningState.latestJob
      cases ring.getStoredJobIds.max? with
      | none => exact Protocol.obeys_done ⟨rfl, rfl⟩
      | some newest =>
          refine walk_read (.ring uid (.getJob newest)) (fun _ => rfl)
            fun (latest : Option Job) reliable => ?_
          obtain rfl : ring.getJob newest = latest := reliable rfl
          exact Protocol.obeys_done ⟨rfl, rfl⟩

theorem getJobDiff_walk (id : Nat) :
    (walks uid ring).Obeys request calls (getJobDiff uid id) fun after diff =>
      after = calls ∧ diff = ring.getJobDiff id := by
  refine walk_read (.ring uid (.resolves id)) (fun _ => rfl) fun (resolved : Bool) reliable => ?_
  obtain rfl : decide (ring.jobIds.lookup (id % maxJobs) = some id) = resolved := reliable rfl
  unfold MiningState.getJobDiff
  by_cases stored : ring.jobIds.lookup (id % maxJobs) = some id
  · rw [if_pos stored, if_pos (decide_eq_true stored)]
    refine walk_read (.ring uid (.slotDiff id)) (fun _ => rfl)
      fun (diff : Option KaspaDiff) reliable => ?_
    obtain rfl : ring.jobDiffs.lookup (id % maxJobs) = diff := reliable rfl
    exact Protocol.obeys_done ⟨rfl, rfl⟩
  · rw [if_neg stored, if_neg fun holds => stored (of_decide_eq_true holds)]
    exact Protocol.obeys_done ⟨rfl, rfl⟩

theorem shareDiff_walk (id : Nat) :
    (walks uid ring).Obeys request calls (shareDiff uid id) fun after diff =>
      after = calls ∧ diff = ring.measure id := by
  refine (getJobDiff_walk id).bind ?_
  rintro _ stored ⟨rfl, rfl⟩
  unfold MiningState.measure
  cases ring.getJobDiff id with
  | some diff => exact Protocol.obeys_done ⟨rfl, rfl⟩
  | none =>
      refine walk_read (.ring uid .stratumDiff) (fun _ => rfl)
        fun (diff : Option KaspaDiff) reliable => ?_
      obtain rfl : ring.stratumDiff = diff := reliable rfl
      exact Protocol.obeys_done ⟨rfl, rfl⟩

/-- The lookup of the lane, with what it found. -/
theorem mergedFcTarget_walk (settings : Settings) (block : Block) :
    (walks uid ring).Obeys request calls (mergedFcTarget settings block) fun after target =>
      ∃ found, after = calls ++ (((Evaluation.lane settings block).map fun hFc =>
          SettlementCall.looked hFc found).toList).map .settles ∧
        target = (found.map fun fcBlock => calculateTarget fcBlock.header.bits) ∧
        (Evaluation.lane settings block = none → found = none) := by
  have unasked : Evaluation.lane settings block = none →
      (walks uid ring).Obeys request calls (.done none : Task (Option Nat)) fun after target =>
        ∃ found, after = calls ++ (((Evaluation.lane settings block).map fun hFc =>
            SettlementCall.looked hFc found).toList).map .settles ∧
          target = (found.map fun fcBlock => calculateTarget fcBlock.header.bits) ∧
          (Evaluation.lane settings block = none → found = none) := by
    intro plain
    refine Protocol.obeys_done ⟨none, ?_, rfl, fun _ => rfl⟩
    rw [plain, Option.map_none, Option.toList_none, List.map_nil, List.append_nil]
  unfold mergedFcTarget
  split
  case isTrue merged =>
    have lane : Evaluation.lane settings block = committedHFc block := if_pos merged
    split
    case h_1 uncommitted => exact unasked (lane.trans uncommitted)
    case h_2 hFc commits =>
      refine walk_call (.pending (.get hFc)) fun (found : Option Block) _ => ?_
      refine Protocol.obeys_done ⟨found, ?_, rfl, fun plain => ?_⟩
      · rw [lane, commits]
        rfl
      · exact nomatch plain.symm.trans (lane.trans commits)
  case isFalse separate => exact unasked (if_neg separate)

end Reads

/-! ## Settlement and credit -/

section Closing

variable {settings : Settings} {uid : Nat} {ring : MiningState} {nonce id : Nat} {job : Job}
  {request : BridgeRequest} {calls : List WalkCall} {α β : Type}

/-- All calls of the task are about this job. -/
@[reducible] def StaysOn (settings : Settings) (uid : Nat) (ring : MiningState) (nonce id : Nat)
    (job : Job) (task : Task α) : Prop :=
  Program.Within ((walks uid ring).Passes (WalkCall.Concerns settings ring nonce id job)) task

/-- The calls a task adds are about the job, and the task says this of them and of its value. -/
def Adds (settings : Settings) (ring : MiningState) (nonce id : Nat) (job : Job)
    (said : List WalkCall → α → Prop) (calls after : List WalkCall) (value : α) : Prop :=
  ∃ rest, after = calls ++ rest ∧
    (∀ call ∈ rest, call.Concerns settings ring nonce id job) ∧ said rest value

theorem passes_of_walkless {op : BridgeOp} (other : op.kind ∈ walklessKinds) :
    (walks uid ring).Passes (WalkCall.Concerns settings ring nonce id job) op := by
  refine ⟨fun _ _ => trivial, fun answer item chosen => ?_⟩
  exact nomatch (walkCall_of_walkless other answer).symm.trans chosen

theorem Uses.staysOn {task : Task α} (uses : Uses walklessKinds task) :
    StaysOn settings uid ring nonce id job task :=
  Program.Within.mono uses fun _ member => passes_of_walkless member

theorem staysOn_call (op : BridgeOp)
    (concerns : ∀ answer item, walkCall op answer = some item →
      item.Concerns settings ring nonce id job) :
    StaysOn settings uid ring nonce id job (call op) :=
  ⟨⟨fun _ _ => trivial, concerns⟩, fun _ => trivial⟩

/-- Calls about the job, then the rest. -/
theorem StaysOn.adds {first : Task α} {rest : α → Task β} {said : List WalkCall → β → Prop}
    (stays : StaysOn settings uid ring nonce id job first)
    (kept : ∀ front back value, said back value → said (front ++ back) value)
    (tail : ∀ after result, (walks uid ring).Obeys request after (rest result)
      (Adds settings ring nonce id job said after)) :
    (walks uid ring).Obeys request calls (first >>= rest)
      (Adds settings ring nonce id job said calls) := by
  refine (Protocol.obeys_of_passes stays).bind ?_
  rintro _ result ⟨added, rfl, about⟩
  refine (tail (calls ++ added) result).mono ?_
  rintro _ value ⟨more, rfl, further, holds⟩
  refine ⟨added ++ more, List.append_assoc .., ?_, kept added more value holds⟩
  intro item member
  rcases List.mem_append.mp member with early | late
  · exact about item early
  · exact further item late

theorem adds_done {value : α} {said : List WalkCall → α → Prop} (holds : said [] value) :
    (walks uid ring).Obeys request calls (.done value)
      (Adds settings ring nonce id job said calls) :=
  Protocol.obeys_done
    ⟨[], (List.append_nil calls).symm, fun _ member => absurd member List.not_mem_nil, holds⟩

theorem submitMergedParentIfSolved_staysOn :
    StaysOn settings uid ring nonce id job
      (submitMergedParentIfSolved settings (job.block.withNonce nonce)) := by
  unfold submitMergedParentIfSolved
  split
  · split
    · split
      · refine (staysOn_call (.kaspaSubmit _) ?_).bind fun _ => trivial
        intro answer item chosen
        cases chosen
        rfl
      · trivial
    · trivial
  · trivial

theorem claimNetworkSolution_staysOn :
    StaysOn settings uid ring nonce id job (claimNetworkSolution settings job.block) := by
  unfold claimNetworkSolution
  split
  · split
    case h_1 => trivial
    case h_2 hFc commits =>
      refine staysOn_call (.pending (.claimSolution hFc)) ?_
      intro answer item chosen
      cases chosen
      exact commits
  · trivial

theorem submitParentThenClaimZkas_staysOn (clearsZkas : Bool) :
    StaysOn settings uid ring nonce id job
      (submitParentThenClaimZkas settings (job.block.withNonce nonce) job.block clearsZkas) := by
  refine submitMergedParentIfSolved_staysOn.bind fun outcome => ?_
  cases clearsZkas with
  | true => exact claimNetworkSolution_staysOn.bind fun _ => trivial
  | false => trivial

theorem submitAssembled_staysOn {block : Block}
    (solved : block = job.block.withNonce nonce ∨
      ∃ fcBlock, block = assembleAuxBlock (job.block.withNonce nonce) fcBlock) :
    StaysOn settings uid ring nonce id job (submitAssembled block) := by
  refine (uses_quiet quiet_walkless .now rfl).staysOn.bind fun now => ?_
  refine (uses_quiet quiet_walkless (.tryMarkBlock _ now) rfl).staysOn.bind fun marked => ?_
  cases (marked : Bool) with
  | false => trivial
  | true =>
      refine (staysOn_call (.zkasSubmit block) ?_).bind fun (reply : SubmitReply) => ?_
      · intro answer item chosen
        cases chosen
        exact solved
      · cases reply with
        | success => trivial
        | reject reason => trivial
        | failed error =>
            dsimp only
            split
            · trivial
            · refine (uses_quiet quiet_walkless .now rfl).staysOn.bind fun later => ?_
              refine (uses_quiet quiet_walkless (.unmarkBlock _ later) rfl).staysOn.bind fun _ => ?_
              trivial

theorem submitBlock_staysOn :
    StaysOn settings uid ring nonce id job (submitBlock settings (job.block.withNonce nonce)) := by
  unfold submitBlock
  split
  · split
    · trivial
    · refine (staysOn_call (.pending (.get _)) ?_).bind fun (found : Option Block) => ?_
      · intro answer item chosen
        cases chosen
        trivial
      · cases found with
        | none => trivial
        | some fcBlock => exact submitAssembled_staysOn (Or.inr ⟨fcBlock, rfl⟩)
  · exact submitAssembled_staysOn (Or.inl rfl)

theorem emitFound_staysOn (wallet worker : Text) (daaScore correlationId : Nat) :
    StaysOn settings uid ring nonce id job
      (emitSome (buildBlockFound wallet worker (solvedHash settings job.block nonce) daaScore
        correlationId)) := by
  unfold emitSome buildBlockFound
  cases WalletAddress.new wallet with
  | none => trivial
  | some wallet =>
      cases WorkerName.new worker with
      | none => trivial
      | some worker =>
          refine staysOn_call (.emit _) ?_
          intro answer item chosen
          cases chosen
          rfl

omit [Platform] in
theorem buildShareCredited_cases {wallet worker : Text} {difficulty : ℚ}
    {daaScore correlationId : Nat} {event : PoolEvent}
    (built : buildShareCredited wallet worker difficulty daaScore correlationId = some event) :
    ∃ payee rig weight, event = .shareCredited payee rig weight daaScore correlationId ∧
      weight.value = difficulty := by
  simp only [buildShareCredited, Option.bind_eq_bind, Option.bind_eq_some_iff] at built
  obtain ⟨payee, -, rig, -, weight, weighs, same⟩ := built
  cases same
  refine ⟨payee, rig, weight, rfl, ?_⟩
  unfold ShareDifficulty.new at weighs
  split at weighs
  · cases weighs
    rfl
  · cases weighs

theorem emitCredited_staysOn (wallet worker : Text) (correlationId : Nat) :
    StaysOn settings uid ring nonce id job
      (emitSome (buildShareCredited wallet worker
        (((ring.measure id).map KaspaDiff.diffValue).getD
          (((ring.measure id).map KaspaDiff.hashValue).getD 0))
        job.block.header.daaScore correlationId)) := by
  unfold emitSome
  split
  case h_1 event built =>
    obtain ⟨payee, rig, weight, rfl, weighs⟩ := buildShareCredited_cases built
    refine staysOn_call (.emit _) ?_
    intro answer item chosen
    cases chosen
    exact ⟨rfl, weighs⟩
  case h_2 => trivial

/-- The outcome of a submission is recorded. -/
theorem setOutcome_walk (submission : Submission) (outcome : DuplicateSubmitOutcome) :
    (walks uid ring).Obeys request calls (setOutcome submission outcome) fun after _ =>
      after = calls ++ [.recorded outcome] := by
  refine walk_skip (uses_quiet quiet_walkless .now rfl) fun now => ?_
  exact ⟨trivial, fun _ _ => rfl⟩

theorem settleStale_walk (submission : Submission) (wallet worker : Text) :
    (walks uid ring).Obeys request calls (settleStale submission wallet worker)
      fun after verdict => after = calls ++ [.recorded .stale] ∧
        ∃ result, verdict = .answered result := by
  refine (setOutcome_walk submission .stale).bind ?_
  rintro _ _ rfl
  refine walk_skip (getCreateStats_uses quiet_walkless _ _) fun handle => ?_
  refine walk_skip (writeCount_uses (by decide) _ handle rfl) fun _ => ?_
  refine walk_skip (writeOverall_uses (by decide) _ rfl) fun _ => ?_
  refine walk_skip (workerContext_uses quiet_walkless _ _ _) fun labels => ?_
  refine walk_skip (uses_quiet quiet_walkless _ rfl) fun _ => ?_
  refine walk_skip (emitRejected_uses quiet_walkless _ _ _ _) fun _ => ?_
  refine walk_skip (answer_uses (by decide) _ rfl) fun result => ?_
  exact Protocol.obeys_done ⟨rfl, result, rfl⟩

theorem settleBad_walk (submission : Submission) (wallet worker : Text) :
    (walks uid ring).Obeys request calls (settleBad submission wallet worker)
      fun after verdict => after = calls ++ [.recorded .bad] ∧
        ∃ result, verdict = .answered result := by
  refine walk_skip (getCreateStats_uses quiet_walkless _ _) fun handle => ?_
  refine walk_skip (writeCount_uses (by decide) _ handle rfl) fun _ => ?_
  refine walk_skip (writeOverall_uses (by decide) _ rfl) fun _ => ?_
  refine walk_skip (workerContext_uses quiet_walkless _ _ _) fun labels => ?_
  refine walk_skip (uses_quiet quiet_walkless _ rfl) fun _ => ?_
  refine walk_skip (emitRejected_uses quiet_walkless _ _ _ _) fun _ => ?_
  refine (setOutcome_walk submission .bad).bind ?_
  rintro _ _ rfl
  refine walk_skip (answer_uses (by decide) _ rfl) fun result => ?_
  exact Protocol.obeys_done ⟨rfl, result, rfl⟩

theorem settleAccepted_staysOn (submission : Submission) :
    StaysOn settings uid ring submission.nonce id job
      (settleAccepted submission (job.block.withNonce submission.nonce)
        (solvedHash settings job.block submission.nonce)) := by
  refine (getCreateStats_uses quiet_walkless _ _).staysOn.bind fun handle => ?_
  refine (workerContext_uses quiet_walkless _ _ _).staysOn.bind fun labels => ?_
  refine (uses_quiet quiet_walkless _ rfl).staysOn.bind fun _ => ?_
  refine (staysOn_call (.emit (.blockAccepted _ _)) ?_).bind fun _ => ?_
  · intro answer item chosen
    cases chosen
    rfl
  · refine staysOn_call (.spawnConfirm _ handle labels _ _ _) ?_
    intro answer item chosen
    cases chosen
    exact ⟨rfl, rfl, rfl⟩

/-- An outcome other than a weak share was recorded. -/
def Recorded (rest : List WalkCall) : Prop := ∃ outcome, .recorded outcome ∈ rest

/-- The verdict on a job that hit: it is credited, or an outcome was recorded and answered. -/
def Verdict.Closes (id : Nat) (job : Job) (rest : List WalkCall) : Verdict → Prop
  | .credit other found => other = id ∧ found = job
  | .weak => False
  | .answered _ => Recorded rest

theorem Recorded.mono {front back : List WalkCall} (recorded : Recorded back) :
    Recorded (front ++ back) := by
  obtain ⟨outcome, member⟩ := recorded
  exact ⟨outcome, List.mem_append_right front member⟩

theorem Verdict.Closes.mono {front back : List WalkCall} {verdict : Verdict}
    (closes : verdict.Closes id job back) : verdict.Closes id job (front ++ back) := by
  cases verdict with
  | credit other found => exact closes
  | weak => exact closes
  | answered result => exact Recorded.mono closes

/-- A recorded outcome with its answer closes the walk. -/
theorem closes_of_recorded {after : List WalkCall} {verdict : Verdict} {result : Except Text Unit}
    {outcome : DuplicateSubmitOutcome} (strong : outcome ≠ .lowDiff)
    (added : after = calls ++ [.recorded outcome]) (answered : verdict = .answered result) :
    Adds settings ring nonce id job (fun rest verdict => verdict.Closes id job rest) calls after
      verdict := by
  refine ⟨[.recorded outcome], added, ?_, ?_⟩
  · intro item member
    obtain rfl := List.mem_singleton.mp member
    exact strong
  · rw [answered]
    exact ⟨outcome, List.mem_cons_self⟩

/-- What settlement adds: calls about the job, and a verdict that closes the walk. -/
@[reducible] def Closed (settings : Settings) (ring : MiningState) (nonce id : Nat) (job : Job) :
    List WalkCall → List WalkCall → Verdict → Prop :=
  Adds settings ring nonce id job fun rest verdict => verdict.Closes id job rest

section Settling

variable (submission : Submission)

/-- Calls about the job, then the rest of settlement. -/
theorem StaysOn.closed {first : Task α} {rest : α → Task Verdict}
    (stays : StaysOn settings uid ring nonce id job first)
    (tail : ∀ after result, (walks uid ring).Obeys request after (rest result)
      (Closed settings ring nonce id job after)) :
    (walks uid ring).Obeys request calls (first >>= rest)
      (Closed settings ring nonce id job calls) :=
  stays.adds (fun _ _ _ closes => Verdict.Closes.mono closes) tail

/-- The share on the job is credited. -/
theorem closed_credit :
    (walks uid ring).Obeys request calls (.done (.credit id job))
      (Closed settings ring nonce id job calls) :=
  adds_done ⟨rfl, rfl⟩

theorem submitClaimed_walk (wallet worker : Text) :
    (walks uid ring).Obeys request calls
      (submitClaimed settings submission id job wallet worker)
      (Closed settings ring submission.nonce id job calls) := by
  refine (uses_quiet quiet_walkless (.jobRefresh _) rfl).staysOn.closed fun _ _ => ?_
  refine (uses_quiet quiet_walkless .systemTime rfl).staysOn.closed fun _ systemTime => ?_
  refine (disconnectStale_uses quiet_walkless _ _ _).staysOn.closed fun _ _ => ?_
  refine (emitFound_staysOn _ _ _ _).closed fun _ _ => ?_
  refine submitBlock_staysOn.closed fun _ result => ?_
  cases result with
  | ok outcome =>
      cases outcome with
      | accepted => exact (settleAccepted_staysOn submission).closed fun _ _ => closed_credit
      | rejectedByNode reason =>
          refine (readContext_uses quiet_walkless _).staysOn.closed fun _ context => ?_
          exact (uses_quiet quiet_walkless (.record _) rfl).staysOn.closed fun _ _ => closed_credit
  | error error =>
      dsimp only
      split
      · refine (settleStale_walk submission _ _).mono ?_
        rintro after verdict ⟨added, result, answered⟩
        exact closes_of_recorded (by decide) added answered
      · refine (settleBad_walk submission _ _).mono ?_
        rintro after verdict ⟨added, result, answered⟩
        exact closes_of_recorded (by decide) added answered

theorem settleSolution_walk (meetsNetworkTarget : Bool) :
    (walks uid ring).Obeys request calls
      (settleSolution settings submission id job meetsNetworkTarget)
      (Closed settings ring submission.nonce id job calls) := by
  refine (walletAddr_uses quiet_walkless _).staysOn.closed fun _ wallet => ?_
  refine (effectiveWorkerName_uses quiet_walkless _).staysOn.closed fun _ worker => ?_
  refine (submitParentThenClaimZkas_staysOn _).closed fun _ legs => ?_
  refine (workerContext_uses quiet_walkless _ _ _).staysOn.closed fun _ labels => ?_
  refine (uses_quiet quiet_walkless .systemTime rfl).staysOn.closed fun _ systemTime => ?_
  refine (recordAll_uses _ (mergedParentMetrics_kind quiet_walkless (by decide))).staysOn.closed
    fun _ _ => ?_
  split
  · exact submitClaimed_walk submission wallet worker
  · exact closed_credit

/-- What crediting a share adds: calls about the job, with an outcome among them. -/
theorem creditShare_walk (settings : Settings) (nonce : Nat) (submission : Submission) :
    (walks submission.uid ring).Obeys request calls (creditShare submission id job)
      (Adds settings ring nonce id job (fun rest _ => Recorded rest) calls) := by
  have kept : ∀ (front back : List WalkCall) (_ : Except Text Unit), Recorded back →
      Recorded (front ++ back) := fun _ _ _ recorded => recorded.mono
  have credits : Kind.creditWrite ∈ walklessKinds := by decide
  have counts : Kind.countWrite ∈ walklessKinds := by decide
  refine (getCreateStats_uses quiet_walkless _ _).staysOn.adds kept fun _ handle => ?_
  refine (uses_perform (.stats _ (.write handle .shareFound)) credits).staysOn.adds kept
    fun _ _ => ?_
  refine (writeStats_uses quiet_walkless _ handle rfl).staysOn.adds kept fun after _ => ?_
  refine (shareDiff_walk id).bind ?_
  rintro _ _ ⟨rfl, rfl⟩
  refine (staysOn_call (.stats _ (.write handle (.addSharesDiff _))) ?_).adds kept fun _ _ => ?_
  · intro answer item chosen
    cases chosen
    rfl
  refine (uses_quiet quiet_walkless .now rfl).staysOn.adds kept fun _ now => ?_
  refine (writeStats_uses quiet_walkless _ handle rfl).staysOn.adds kept fun _ _ => ?_
  refine (writeOverall_uses counts _ rfl).staysOn.adds kept fun _ _ => ?_
  refine (walletAddr_uses quiet_walkless _).staysOn.adds kept fun _ wallet => ?_
  refine (workerName_uses quiet_walkless _).staysOn.adds kept fun _ worker => ?_
  refine (workerContext_uses quiet_walkless _ _ _).staysOn.adds kept fun _ labels => ?_
  refine (uses_quiet quiet_walkless _ rfl).staysOn.adds kept fun _ _ => ?_
  refine (emitCredited_staysOn wallet worker _).adds kept fun after _ => ?_
  refine (setOutcome_walk submission .accepted).bind ?_
  rintro _ _ rfl
  refine (Protocol.obeys_of_within (answer_uses (by decide) _ rfl).walkless).mono ?_
  rintro _ result rfl
  refine ⟨[.recorded .accepted], rfl, ?_, .accepted, List.mem_cons_self⟩
  intro item member
  obtain rfl := List.mem_singleton.mp member
  exact (by decide : DuplicateSubmitOutcome.accepted ≠ .lowDiff)

end Settling

end Closing

end StratumBridge
