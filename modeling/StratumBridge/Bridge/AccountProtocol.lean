import StratumBridge.Bridge.Provenance
import StratumBridge.Interaction.Recording

/-! # How submissions are accounted

A submission that was evaluated counts once: as a share, as stale or as invalid, first for
its worker and then for the handler. A counted share is reported under the wallet and the
worker then stored, with the difficulty then on record for its job.
-/

namespace StratumBridge

open Interaction

variable [Platform] {deployment : Deployment}

/-- The counters kept per worker and for the whole handler. -/
inductive Tally where
  | shares
  | stale
  | invalid
  | blocks
deriving DecidableEq

def Tally.of (stats : WorkStats) : Tally → Nat
  | .shares => stats.sharesFound
  | .stale => stats.staleShares
  | .invalid => stats.invalidShares
  | .blocks => stats.blocksFound

/-- The counter a change raises. -/
def StatsWrite.tally : StatsWrite → Option Tally
  | .shareFound => some .shares
  | .staleShare => some .stale
  | .invalidShare => some .invalid
  | .blockFound => some .blocks
  | _ => none

omit [Platform] in
/-- A change raises its counter by one and no other. -/
theorem StatsWrite.tally_apply (stats : WorkStats) (change : StatsWrite) (tally : Tally) :
    tally.of (change.apply stats) = tally.of stats + if change.tally = some tally then 1 else 0 := by
  cases change with
  | beginVarDiff now =>
      have kept : tally.of ((StatsWrite.beginVarDiff now).apply stats) = tally.of stats := by
        simp only [StatsWrite.apply]
        split <;> cases tally <;> rfl
      rw [kept]
      rfl
  | _ => cases tally <;> rfl

/-- The calls accounting consists of, and the reads it depends on. -/
inductive AccountCall where
  /-- The handle of a worker's statistics. -/
  | answered (instanceId handle : Nat)
  | read (context : Context)
  | checked
  | cell (instanceId handle : Nat) (tally : Tally)
  | overall (instanceId : Nat) (tally : Tally)
  | resolved (uid id : Nat) (held : Bool)
  | slot (uid id : Nat) (diff : Option KaspaDiff)
  | current (uid : Nat) (diff : Option KaspaDiff)
  | credited (difficulty : ℚ)

def accountCall : (op : BridgeOp) → op.Answer → Option AccountCall
  | .getCreateStats instanceId _ _ _, handle => some (.answered instanceId handle)
  | .context _ .read, context => some (.read context)
  | .checkPow _ _, _ => some .checked
  | .stats instanceId (.write handle change), _ => change.tally.map (.cell instanceId handle)
  | .stats instanceId (.writeOverall change), _ => change.tally.map (.overall instanceId)
  | .ring uid (.resolves id), held => some (.resolved uid id held)
  | .ring uid (.slotDiff id), diff => some (.slot uid id diff)
  | .ring uid .stratumDiff, diff => some (.current uid diff)
  | .emit (.shareCredited _ _ difficulty _ _), _ => some (.credited difficulty.value)
  | _, _ => none

/-- Reads alone account for nothing. -/
def AccountCall.Idle : AccountCall → Prop
  | .answered _ _ | .read _ | .resolved _ _ _ | .slot _ _ _ | .current _ _ => True
  | _ => False

/-- Neither do evaluations. -/
def AccountCall.Noise : AccountCall → Prop
  | .checked => True
  | call => call.Idle

theorem AccountCall.Idle.noise {call : AccountCall} (idle : call.Idle) : call.Noise := by
  cases call with
  | checked => trivial
  | _ => exact idle

/-- The reads that measure a share on a job, and the difficulty they give. -/
inductive DiffReads (uid id : Nat) : List AccountCall → Option KaspaDiff → Prop where
  | stored (diff : KaspaDiff) :
      DiffReads uid id [.resolved uid id true, .slot uid id (some diff)] (some diff)
  | missing (diff : Option KaspaDiff) :
      DiffReads uid id [.resolved uid id true, .slot uid id none, .current uid diff] diff
  | replaced (diff : Option KaspaDiff) :
      DiffReads uid id [.resolved uid id false, .current uid diff] diff

theorem DiffReads.idle {uid id : Nat} {reads : List AccountCall} {diff : Option KaspaDiff}
    (measures : DiffReads uid id reads diff) : ∀ call ∈ reads, call.Idle := by
  cases measures <;> simp [AccountCall.Idle]

/-- The difficulty a share is reported with. -/
def assignedDiff (diff : Option KaspaDiff) : ℚ :=
  (diff.map KaspaDiff.diffValue).getD ((diff.map KaspaDiff.hashValue).getD 0)

/-- The report of a share, if the accounting layer accepts its parts. -/
def creditReport (wallet worker : Text) (difficulty : ℚ) : List AccountCall :=
  if validWallet wallet = true ∧ validWorker worker = true ∧ 0 < difficulty then
    [.credited difficulty]
  else []

/-- The calls of a task that counted a share on a job. -/
structure Credits (calls : List AccountCall) (uid id : Nat) (diff : Option KaspaDiff)
    (wallet worker : Text) : Prop where
  shape : ∃ instanceId handle before measured first second reads,
    calls = before ++ .cell instanceId handle .shares :: measured ++
      .overall instanceId .shares :: .read first :: .read second :: reads ++
        creditReport wallet worker (assignedDiff diff) ∧
    (∀ call ∈ before, call.Noise) ∧ DiffReads uid id measured diff ∧
    (∀ call ∈ reads, call.Idle) ∧ first.walletAddr = wallet ∧ second.workerName = worker

/-- The calls of a task that turned a submission down. -/
def Rejects (calls : List AccountCall) : Prop :=
  ∃ instanceId handle tally before after,
    calls = before ++ .cell instanceId handle tally :: .overall instanceId tally :: after ∧
    (tally = .stale ∨ tally = .invalid) ∧ (∀ call ∈ before, call.Noise) ∧
    ∀ call ∈ after, call.Idle

/-- A submission that finished: it was not evaluated, or turned down, or credited. -/
inductive Accounted (uid : Nat) (calls : List AccountCall) : Prop where
  | idle (unevaluated : ∀ call ∈ calls, call.Idle)
  | rejected (rejects : Rejects calls)
  | credited (id : Nat) (diff : Option KaspaDiff) (wallet worker : Text)
      (credits : Credits calls uid id diff wallet worker)

/-- What a task counts by the time it finishes. -/
def AccountCompletes : BridgeRequest → List AccountCall → Prop
  | .submit uid _, calls => Accounted uid calls
  | .confirmBlock instanceId handle _ _ _ _, calls =>
      calls = [] ∨ calls = [.cell instanceId handle .blocks, .overall instanceId .blocks]
  | _, calls => ∀ call ∈ calls, call.Idle

/-- A counter of a worker was raised, and the one of the handler not yet. -/
def HalfCounted (calls : List AccountCall) (instanceId : Nat) (tally : Tally) : Prop :=
  ∃ handle before after, calls = before ++ .cell instanceId handle tally :: after ∧
    (∀ call ∈ before, call.Noise) ∧ ∀ call ∈ after, call.Idle

/-- A task counts once: for a worker whose handle it was given, then for the handler. -/
def AccountPermits (request : BridgeRequest) (calls : List AccountCall) : BridgeOp → Prop
  | .stats instanceId (.write handle change) => change.tally.isSome = true →
      (∀ call ∈ calls, call.Noise) ∧
        (.answered instanceId handle ∈ calls ∨ ∃ worker hash nonce blueScore,
          request = .confirmBlock instanceId handle worker hash nonce blueScore)
  | .stats instanceId (.writeOverall change) =>
      ∀ tally, change.tally = some tally → HalfCounted calls instanceId tally
  | .spawnConfirm instanceId handle _ _ _ _ => .answered instanceId handle ∈ calls
  | _ => True

/-- Tasks count in order. -/
@[reducible] def accounts : Protocol bridgeSignature BridgeRequest AccountCall BridgeResult where
  select := accountCall
  permits := AccountPermits
  answers := fun _ _ => True
  completes := fun request calls _ => AccountCompletes request calls

/-! ## Tasks obey the protocol -/

/-- The kinds of operations that count nothing. -/
def uncountedKinds : List Kind :=
  Kind.except [.checkPow, .creditWrite, .countWrite, .shareEvent, .blockEvent]

variable {request : BridgeRequest} {calls : List AccountCall} {α β : Type}

theorem tally_of_uncounted {instanceId handle : Nat} {change : StatsWrite} {kinds : List Kind}
    (noCredit : Kind.creditWrite ∉ kinds) (noCount : Kind.countWrite ∉ kinds)
    (other : (BridgeOp.stats instanceId (.write handle change)).kind ∈ kinds) :
    change.tally = none := by
  cases change with
  | shareFound => exact absurd other noCredit
  | staleShare | invalidShare | blockFound => exact absurd other noCount
  | _ => rfl

theorem overallTally_of_uncounted {instanceId : Nat} {change : StatsWrite} {kinds : List Kind}
    (noCount : Kind.countWrite ∉ kinds)
    (other : (BridgeOp.stats instanceId (.writeOverall change)).kind ∈ kinds) :
    change.tally = none := by
  cases change with
  | shareFound | staleShare | invalidShare | blockFound => exact absurd other noCount
  | _ => rfl

theorem idle_of_uncounted {op : BridgeOp} (other : op.kind ∈ uncountedKinds) (answer : op.Answer)
    (item : AccountCall) (chosen : accountCall op answer = some item) : item.Idle := by
  have noCheck : Kind.checkPow ∉ uncountedKinds := by decide
  have noCredit : Kind.creditWrite ∉ uncountedKinds := by decide
  have noCount : Kind.countWrite ∉ uncountedKinds := by decide
  have noShare : Kind.shareEvent ∉ uncountedKinds := by decide
  unfold accountCall at chosen
  split at chosen
  · cases chosen
    trivial
  · cases chosen
    trivial
  · exact absurd other noCheck
  · rw [tally_of_uncounted noCredit noCount other] at chosen
    exact nomatch chosen
  · rw [overallTally_of_uncounted noCount other] at chosen
    exact nomatch chosen
  · cases chosen
    trivial
  · cases chosen
    trivial
  · cases chosen
    trivial
  · exact absurd other noShare
  · exact nomatch chosen

theorem accountPermits_of_uncounted {op : BridgeOp} (other : op.kind ∈ uncountedKinds) :
    AccountPermits request calls op := by
  have noCredit : Kind.creditWrite ∉ uncountedKinds := by decide
  have noCount : Kind.countWrite ∉ uncountedKinds := by decide
  have noSpawn : Kind.blockEvent ∉ uncountedKinds := by decide
  unfold AccountPermits
  split
  · intro counts
    rw [tally_of_uncounted noCredit noCount other] at counts
    exact nomatch counts
  · intro tally counts
    rw [overallTally_of_uncounted noCount other] at counts
    exact nomatch counts
  · exact absurd other noSpawn
  · trivial

/-- A task that counts nothing only adds reads. -/
theorem Uses.addsIdle {kinds : List Kind} {task : Task α} (uses : Uses kinds task)
    (subset : kinds ⊆ uncountedKinds) :
    accounts.Obeys request calls task fun after _ =>
      ∃ added, after = calls ++ added ∧ ∀ call ∈ added, call.Idle := by
  apply Protocol.obeys_of_passes
  induction task with
  | done result => trivial
  | call op next ih =>
      exact ⟨⟨fun _ _ => accountPermits_of_uncounted (subset uses.1),
        idle_of_uncounted (subset uses.1)⟩, fun answer => ih answer (uses.2 answer)⟩

/-- One call, then the rest. -/
theorem account_call (op : BridgeOp) {rest : op.Answer → Task α}
    {post : List AccountCall → α → Prop} (permitted : AccountPermits request calls op)
    (tail : ∀ answer,
      accounts.Obeys request (calls ++ (accountCall op answer).toList) (rest answer) post) :
    accounts.Obeys request calls (call op >>= rest) post :=
  ⟨permitted, fun answer _ => tail answer⟩

/-- Calls that all satisfy a condition, and more of them. -/
theorem forall_append {condition : AccountCall → Prop} {more : List AccountCall}
    (first : ∀ call ∈ calls, condition call) (second : ∀ call ∈ more, condition call) :
    ∀ call ∈ calls ++ more, condition call := by
  intro call member
  rcases List.mem_append.mp member with earlier | later
  · exact first call earlier
  · exact second call later

/-- A prefix that counts nothing is noise, in which a known handle stays known. -/
theorem account_skip {kinds : List Kind} {first : Task α} {rest : α → Task β}
    {post : List AccountCall → β → Prop} (uses : Uses kinds first)
    (subset : kinds ⊆ uncountedKinds)
    (tail : ∀ added result, (∀ call ∈ added, call.Idle) →
      accounts.Obeys request (calls ++ added) (rest result) post) :
    accounts.Obeys request calls (first >>= rest) post := by
  refine (uses.addsIdle subset).bind fun after result skipped => ?_
  obtain ⟨added, rfl, idle⟩ := skipped
  exact tail added result idle

/-- The handle of the statistics is among the reads that get it. -/
theorem getCreateStats_account (instanceId uid : Nat) :
    accounts.Obeys request calls (getCreateStats instanceId uid) fun after handle =>
      ∃ added, after = calls ++ added ∧ (∀ call ∈ added, call.Idle) ∧
        .answered instanceId handle ∈ after := by
  have quiet : Kind.quiet ∈ uncountedKinds := by decide
  have self : uncountedKinds ⊆ uncountedKinds := List.Subset.refl _
  refine account_skip (effectiveWorkerName_uses quiet uid) self fun named _ namedIdle => ?_
  refine account_skip (statsKey_uses quiet uid) self fun keyed key keyedIdle => ?_
  refine account_skip (uses_quiet quiet .now rfl) self fun timed now timedIdle => ?_
  refine ⟨trivial, fun handle _ => ⟨named ++ (keyed ++ (timed ++ [.answered instanceId handle])),
    ?_, ?_, List.mem_append_right _ List.mem_cons_self⟩⟩
  · simp only [List.append_assoc]
    rfl
  · refine forall_append namedIdle (forall_append keyedIdle (forall_append timedIdle ?_))
    intro call member
    rw [List.mem_singleton.mp member]
    trivial

/-- A counter of a worker and the same one of the handler. -/
theorem countBoth_account {instanceId handle : Nat} {tally : Tally} {change : StatsWrite}
    {rest : Task α} {post : List AccountCall → α → Prop} (counts : change.tally = some tally)
    (noise : ∀ call ∈ calls, call.Noise) (known : .answered instanceId handle ∈ calls)
    (tail : accounts.Obeys request
      (calls ++ [.cell instanceId handle tally, .overall instanceId tally]) rest post) :
    accounts.Obeys request calls (do
      writeStats instanceId handle change
      writeOverall instanceId change
      rest) post := by
  refine account_call (.stats instanceId (.write handle change))
    (fun _ => ⟨noise, Or.inl known⟩) fun _ => ?_
  refine account_call (.stats instanceId (.writeOverall change)) ?_ fun _ => ?_
  · intro other same
    obtain rfl := Option.some.inj (counts.symm.trans same)
    refine ⟨handle, calls, [], ?_, noise, fun _ member => absurd member List.not_mem_nil⟩
    change calls ++ (change.tally.map (.cell instanceId handle)).toList = _
    rw [counts]
    rfl
  change accounts.Obeys request (calls ++ (change.tally.map (.cell instanceId handle)).toList ++
    (change.tally.map (.overall instanceId)).toList) rest post
  rw [counts, List.append_assoc]
  exact tail

/-- Reads may follow a rejection. -/
theorem Rejects.append {more : List AccountCall} (rejects : Rejects calls)
    (idle : ∀ call ∈ more, call.Idle) : Rejects (calls ++ more) := by
  obtain ⟨instanceId, handle, tally, before, after, rfl, which, noise, earlier⟩ := rejects
  refine ⟨instanceId, handle, tally, before, after ++ more, ?_, which, noise,
    forall_append earlier idle⟩
  simp only [List.append_assoc, List.cons_append]

section Submission

variable (submission : Submission)

/-- How the evaluation of a submission left its calls. -/
def Judged (calls : List AccountCall) : Verdict → Prop
  | .answered _ => Accounted submission.uid calls
  | .weak | .credit _ _ => ∀ call ∈ calls, call.Noise

theorem rejects_counted {tally : Tally} (which : tally = .stale ∨ tally = .invalid)
    (noise : ∀ call ∈ calls, call.Noise) (instanceId handle : Nat) :
    Rejects (calls ++ [.cell instanceId handle tally, .overall instanceId tally]) :=
  ⟨instanceId, handle, tally, calls, [], rfl, which, noise,
    fun _ member => absurd member List.not_mem_nil⟩

theorem settleStale_account (noise : ∀ call ∈ calls, call.Noise) (wallet worker : Text) :
    accounts.Obeys request calls (settleStale submission wallet worker) (Judged submission) := by
  have quiet : Kind.quiet ∈ uncountedKinds := by decide
  have self : uncountedKinds ⊆ uncountedKinds := List.Subset.refl _
  refine account_skip (setOutcome_uses quiet (by decide) submission .stale) self
    fun marked _ markedIdle => ?_
  refine (getCreateStats_account submission.instanceId submission.uid).bind ?_
  rintro after handle ⟨found, rfl, foundIdle, known⟩
  have silent : ∀ call ∈ calls ++ marked ++ found, call.Noise :=
    forall_append (forall_append noise fun call member => (markedIdle call member).noise)
      fun call member => (foundIdle call member).noise
  have rejects := rejects_counted (Or.inl rfl) silent submission.instanceId handle
  refine countBoth_account rfl silent known ?_
  refine account_skip (workerContext_uses quiet _ _ _) self fun labelled labels labelledIdle => ?_
  refine account_skip (uses_quiet quiet (.record (.staleShare labels)) rfl) self
    fun recorded _ recordedIdle => ?_
  refine account_skip (emitRejected_uses quiet wallet worker _ _) self fun told _ toldIdle => ?_
  refine account_skip (answer_uses (by decide) submission.uid rfl) self fun replied result repliedIdle => ?_
  exact Protocol.obeys_done (.rejected ((((rejects.append labelledIdle).append recordedIdle).append
    toldIdle).append repliedIdle))

theorem settleBad_account (noise : ∀ call ∈ calls, call.Noise) (wallet worker : Text) :
    accounts.Obeys request calls (settleBad submission wallet worker) (Judged submission) := by
  have quiet : Kind.quiet ∈ uncountedKinds := by decide
  have self : uncountedKinds ⊆ uncountedKinds := List.Subset.refl _
  refine (getCreateStats_account submission.instanceId submission.uid).bind ?_
  rintro after handle ⟨found, rfl, foundIdle, known⟩
  have silent : ∀ call ∈ calls ++ found, call.Noise :=
    forall_append noise fun call member => (foundIdle call member).noise
  have rejects := rejects_counted (Or.inr rfl) silent submission.instanceId handle
  refine countBoth_account rfl silent known ?_
  refine account_skip (workerContext_uses quiet _ _ _) self fun labelled labels labelledIdle => ?_
  refine account_skip (uses_quiet quiet (.record (.invalidShare labels)) rfl) self
    fun recorded _ recordedIdle => ?_
  refine account_skip (emitRejected_uses quiet wallet worker _ _) self fun told _ toldIdle => ?_
  refine account_skip (setOutcome_uses quiet (by decide) submission .bad) self
    fun marked _ markedIdle => ?_
  refine account_skip (answer_uses (by decide) submission.uid rfl) self fun replied result repliedIdle => ?_
  exact Protocol.obeys_done (.rejected (((((rejects.append labelledIdle).append recordedIdle).append
    toldIdle).append markedIdle).append repliedIdle))

theorem creditWeak_account (noise : ∀ call ∈ calls, call.Noise) {handle : Nat}
    (known : .answered submission.instanceId handle ∈ calls) :
    accounts.Obeys request calls (creditWeak submission handle) fun after _ => Accounted submission.uid after := by
  have quiet : Kind.quiet ∈ uncountedKinds := by decide
  have self : uncountedKinds ⊆ uncountedKinds := List.Subset.refl _
  have rejects := rejects_counted (Or.inr rfl) noise submission.instanceId handle
  refine countBoth_account rfl noise known ?_
  refine account_skip (walletAddr_uses quiet _) self fun first wallet firstIdle => ?_
  refine account_skip (workerName_uses quiet _) self fun second worker secondIdle => ?_
  refine account_skip (workerContext_uses quiet _ _ _) self fun labelled labels labelledIdle => ?_
  refine account_skip (uses_quiet quiet (.record (.weakShare labels)) rfl) self
    fun recorded _ recordedIdle => ?_
  refine account_skip (emitRejected_uses quiet wallet worker _ _) self fun told _ toldIdle => ?_
  refine account_skip (replyLowDiff_uses (by decide) submission.uid _) self fun replied _ repliedIdle => ?_
  refine account_skip (setOutcome_uses quiet (by decide) submission .lowDiff) self
    fun marked _ markedIdle => ?_
  exact Protocol.obeys_done (.rejected (((((((rejects.append firstIdle).append secondIdle).append
    labelledIdle).append recordedIdle).append toldIdle).append repliedIdle).append markedIdle))

/-- The reads of a share's difficulty. -/
theorem shareDiff_account (uid id : Nat) :
    accounts.Obeys request calls (shareDiff uid id) fun after diff =>
      ∃ measured, after = calls ++ measured ∧ DiffReads uid id measured diff := by
  refine account_call (.ring uid (.resolves id)) trivial fun (held : Bool) => ?_
  cases held with
  | true =>
      refine account_call (.ring uid (.slotDiff id)) trivial fun (diff : Option KaspaDiff) => ?_
      cases diff with
      | some diff => exact Protocol.obeys_done ⟨_, List.append_assoc .., .stored diff⟩
      | none =>
          refine ⟨trivial, fun (diff : Option KaspaDiff) _ => ⟨_, ?_, .missing diff⟩⟩
          simp only [List.append_assoc]
          rfl
  | false =>
      refine ⟨trivial, fun (diff : Option KaspaDiff) _ => ⟨_, ?_, .replaced diff⟩⟩
      simp only [List.append_assoc]
      rfl

/-- A credited share is reported unless the accounting layer refuses a part of it. -/
theorem emitCredited_account (wallet worker : Text) (difficulty : ℚ) (daaScore id : Nat) :
    accounts.Obeys request calls
      (emitSome (buildShareCredited wallet worker difficulty daaScore id))
      fun after _ => after = calls ++ creditReport wallet worker difficulty := by
  by_cases accepted : validWallet wallet = true ∧ validWorker worker = true ∧ 0 < difficulty
  · have built : buildShareCredited wallet worker difficulty daaScore id =
        some (.shareCredited ⟨wallet, accepted.1⟩ ⟨worker, accepted.2.1⟩
          ⟨difficulty, accepted.2.2⟩ daaScore id) := by
      simp only [buildShareCredited, WalletAddress.new, dif_pos accepted.1, WorkerName.new,
        dif_pos accepted.2.1, ShareDifficulty.new, dif_pos accepted.2.2, Option.bind_eq_bind,
        Option.bind_some, Option.pure_def]
    rw [built, creditReport, if_pos accepted]
    exact ⟨trivial, fun _ _ => rfl⟩
  · have built : buildShareCredited wallet worker difficulty daaScore id = none := by
      by_cases named : validWallet wallet = true
      · by_cases labelled : validWorker worker = true
        · have small : ¬ 0 < difficulty := fun positive => accepted ⟨named, labelled, positive⟩
          simp only [buildShareCredited, ShareDifficulty.new, dif_neg small, Option.bind_eq_bind,
            Option.bind_none, Option.bind_fun_none]
        · simp only [buildShareCredited, WorkerName.new, dif_neg labelled, Option.bind_eq_bind,
            Option.bind_none, Option.bind_fun_none]
      · simp only [buildShareCredited, WalletAddress.new, dif_neg named, Option.bind_eq_bind,
          Option.bind_none]
    rw [built, creditReport, if_neg accepted, List.append_nil]
    exact Protocol.obeys_done rfl

theorem creditShare_account (noise : ∀ call ∈ calls, call.Noise) (jobId : Nat) (job : Job) :
    accounts.Obeys request calls (creditShare submission jobId job)
      fun after _ => Accounted submission.uid after := by
  have quiet : Kind.quiet ∈ uncountedKinds := by decide
  have self : uncountedKinds ⊆ uncountedKinds := List.Subset.refl _
  refine (getCreateStats_account submission.instanceId submission.uid).bind ?_
  rintro after handle ⟨found, rfl, foundIdle, known⟩
  have silent : ∀ call ∈ calls ++ found, call.Noise :=
    forall_append noise fun call member => (foundIdle call member).noise
  refine account_call (.stats submission.instanceId (.write handle .shareFound))
    (fun _ => ⟨silent, Or.inl known⟩) fun _ => ?_
  refine account_call (.stats submission.instanceId (.write handle .varDiffShareFound))
    (fun counts => nomatch counts) fun _ => ?_
  refine (shareDiff_account submission.uid jobId).bind ?_
  rintro after diff ⟨measured, rfl, measures⟩
  refine account_call (.stats submission.instanceId (.write handle (.addSharesDiff _)))
    (fun counts => nomatch counts) fun _ => ?_
  refine account_call .now trivial fun (now : Nat) => ?_
  refine account_call (.stats submission.instanceId (.write handle (.lastShare now)))
    (fun counts => nomatch counts) fun _ => ?_
  refine account_call (.stats submission.instanceId (.writeOverall .shareFound)) ?_ fun _ => ?_
  · intro tally counts
    obtain rfl := Option.some.inj counts
    refine ⟨handle, calls ++ found, measured, ?_, silent, measures.idle⟩
    change calls ++ found ++ [.cell submission.instanceId handle .shares] ++ [] ++ measured ++
      [] ++ [] ++ [] = _
    simp only [List.append_assoc, List.cons_append, List.nil_append, List.append_nil]
  refine account_call (.context submission.uid .read) trivial fun (first : Context) => ?_
  refine account_call (.context submission.uid .read) trivial fun (second : Context) => ?_
  refine account_skip (workerContext_uses quiet _ _ _) self fun labelled labels labelledIdle => ?_
  refine account_call (.record _) trivial fun _ => ?_
  refine (emitCredited_account _ _ _ _ _).bind ?_
  rintro after _ rfl
  refine account_call .now trivial fun (later : Nat) => ?_
  refine account_call (.setOutcome submission.instanceId submission.key later .accepted) trivial
    fun _ => ?_
  refine account_call (.send submission.uid _) trivial fun (delivered : Bool) => ?_
  have credits : Credits (calls ++ found ++ (.cell submission.instanceId handle .shares ::
      measured ++ .overall submission.instanceId .shares :: .read first :: .read second ::
        labelled ++ creditReport first.walletAddr second.workerName (assignedDiff diff)))
      submission.uid jobId diff first.walletAddr second.workerName :=
    ⟨submission.instanceId, handle, calls ++ found, measured, first, second, labelled,
      by simp only [List.append_assoc, List.cons_append], silent, measures, labelledIdle, rfl, rfl⟩
  have finished : ∀ result : Except Text Unit, accounts.Obeys request
      (calls ++ found ++ (.cell submission.instanceId handle .shares ::
        measured ++ .overall submission.instanceId .shares :: .read first :: .read second ::
          labelled ++ creditReport first.walletAddr second.workerName (assignedDiff diff)))
      (.done result) fun after _ => Accounted submission.uid after :=
    fun _ => Protocol.obeys_done (.credited _ _ _ _ credits)
  have same : calls ++ found ++ [.cell submission.instanceId handle .shares] ++ [] ++ measured ++
      [] ++ [] ++ [] ++ [.overall submission.instanceId .shares] ++ [.read first] ++
        [.read second] ++ labelled ++ [] ++
          creditReport first.walletAddr second.workerName (assignedDiff diff) ++ [] ++ [] ++ [] =
      calls ++ found ++ (.cell submission.instanceId handle .shares ::
        measured ++ .overall submission.instanceId .shares :: .read first :: .read second ::
          labelled ++ creditReport first.walletAddr second.workerName (assignedDiff diff)) := by
    simp only [List.append_assoc, List.cons_append, List.nil_append, List.append_nil]
  change accounts.Obeys request (calls ++ found ++ [.cell submission.instanceId handle .shares] ++
    [] ++ measured ++ [] ++ [] ++ [] ++ [.overall submission.instanceId .shares] ++ [.read first] ++
      [.read second] ++ labelled ++ [] ++
        creditReport first.walletAddr second.workerName (assignedDiff diff) ++ [] ++ [] ++ []) _ _
  rw [same]
  cases delivered with
  | true => exact finished _
  | false => exact finished _

theorem finishSubmission_account {verdict : Verdict} (judged : Judged submission calls verdict) :
    accounts.Obeys request calls (finishSubmission submission verdict)
      fun after _ => Accounted submission.uid after := by
  cases verdict with
  | answered result => exact Protocol.obeys_done judged
  | weak =>
      refine (getCreateStats_account submission.instanceId submission.uid).bind ?_
      rintro after handle ⟨found, rfl, foundIdle, known⟩
      exact creditWeak_account submission
        (forall_append judged fun call member => (foundIdle call member).noise) known
  | credit jobId job =>
      have quiet : Kind.quiet ∈ uncountedKinds := by decide
      refine account_skip (getCreateStats_uses quiet _ _) (List.Subset.refl uncountedKinds)
        fun found _ foundIdle => ?_
      exact creditShare_account submission
        (forall_append judged fun call member => (foundIdle call member).noise) jobId job

theorem settleAccepted_account (noise : ∀ call ∈ calls, call.Noise) (block : Block)
    (chainHash : Hash) :
    accounts.Obeys request calls (settleAccepted submission block chainHash)
      fun after _ => ∀ call ∈ after, call.Noise := by
  have quiet : Kind.quiet ∈ uncountedKinds := by decide
  have self : uncountedKinds ⊆ uncountedKinds := List.Subset.refl _
  refine (getCreateStats_account submission.instanceId submission.uid).bind ?_
  rintro after handle ⟨found, rfl, foundIdle, known⟩
  refine account_skip (workerContext_uses quiet _ _ _) self fun labelled labels labelledIdle => ?_
  refine account_skip (uses_quiet quiet (.record (.blockAcceptedByNode labels)) rfl) self
    fun recorded _ recordedIdle => ?_
  refine account_call (.emit (.blockAccepted chainHash _)) trivial fun _ => ?_
  have stillKnown : AccountCall.answered submission.instanceId handle ∈
      calls ++ found ++ labelled ++ recorded ++ [] := by
    rw [List.append_nil]
    exact List.mem_append_left _ (List.mem_append_left _ known)
  refine ⟨stillKnown, fun _ _ => ?_⟩
  have silent : ∀ call ∈ calls ++ found ++ labelled ++ recorded, call.Noise := by
    refine forall_append (forall_append (forall_append noise ?_) ?_) ?_
    · exact fun call member => (foundIdle call member).noise
    · exact fun call member => (labelledIdle call member).noise
    · exact fun call member => (recordedIdle call member).noise
  change ∀ call ∈ calls ++ found ++ labelled ++ recorded ++ [] ++ [], call.Noise
  rw [List.append_nil, List.append_nil]
  exact silent

/-- A task that counts nothing keeps the calls noise. -/
theorem noise_skip {kinds : List Kind} {first : Task α} {rest : α → Task β}
    {post : List AccountCall → β → Prop} (uses : Uses kinds first)
    (subset : kinds ⊆ uncountedKinds) (noise : ∀ call ∈ calls, call.Noise)
    (tail : ∀ after result, (∀ call ∈ after, call.Noise) →
      accounts.Obeys request after (rest result) post) :
    accounts.Obeys request calls (first >>= rest) post :=
  account_skip uses subset fun _ result idle =>
    tail _ result (forall_append noise fun call member => (idle call member).noise)

theorem announce_account (wallet worker : Text) (hash : Hash) (daaScore id : Nat) :
    accounts.Obeys request calls (emitSome (buildBlockFound wallet worker hash daaScore id))
      fun after _ => after = calls := by
  cases built : buildBlockFound wallet worker hash daaScore id with
  | none => exact Protocol.obeys_done rfl
  | some event =>
      simp only [buildBlockFound, Option.bind_eq_bind, Option.bind_eq_some_iff] at built
      obtain ⟨wallet, -, worker, -, same⟩ := built
      cases same
      exact ⟨trivial, fun _ _ => List.append_nil _⟩

theorem submitClaimed_account (noise : ∀ call ∈ calls, call.Noise) (jobId : Nat) (job : Job)
    (wallet worker : Text) :
    accounts.Obeys request calls
      (submitClaimed deployment.settings submission jobId job wallet worker) (Judged submission) := by
  have quiet : Kind.quiet ∈ uncountedKinds := by decide
  have self : uncountedKinds ⊆ uncountedKinds := List.Subset.refl _
  refine noise_skip (uses_quiet quiet (.jobRefresh submission.uid) rfl) self noise
    fun refreshed _ noise => ?_
  refine noise_skip (uses_quiet quiet .systemTime rfl) self noise fun timed systemTime noise => ?_
  refine noise_skip (disconnectStale_uses quiet _ _ _) self noise fun dropped _ noise => ?_
  refine (announce_account _ _ _ _ _).bind ?_
  rintro after _ rfl
  have submits : Uses uncountedKinds
      (submitBlock deployment.settings (job.block.withNonce submission.nonce)) :=
    submitBlock_uses deployment.settings quiet (by decide) (by decide) _
  refine noise_skip submits self noise fun submitted result noise => ?_
  cases result with
  | error error =>
      dsimp only
      split
      · exact settleStale_account submission noise wallet worker
      · exact settleBad_account submission noise wallet worker
  | ok outcome =>
      cases outcome with
      | rejectedByNode reason =>
          refine noise_skip (readContext_uses quiet submission.uid) self noise
            fun read context noise => ?_
          exact noise_skip (uses_quiet quiet (.record (.blockNotConfirmedBlue _)) rfl) self noise
            fun recorded _ noise => Protocol.obeys_done noise
      | accepted =>
          exact (settleAccepted_account submission noise _ _).bind fun after _ noise =>
            Protocol.obeys_done noise

theorem settleSolution_account (noise : ∀ call ∈ calls, call.Noise) (jobId : Nat) (job : Job)
    (meets : Bool) :
    accounts.Obeys request calls
      (settleSolution deployment.settings submission jobId job meets) (Judged submission) := by
  have quiet : Kind.quiet ∈ uncountedKinds := by decide
  have self : uncountedKinds ⊆ uncountedKinds := List.Subset.refl _
  have legs : Uses uncountedKinds (submitParentThenClaimZkas deployment.settings
      (job.block.withNonce submission.nonce) job.block meets) :=
    submitParentThenClaimZkas_uses deployment.settings (by decide) (by decide) _ _ _
  refine noise_skip (walletAddr_uses quiet _) self noise fun first wallet noise => ?_
  refine noise_skip (effectiveWorkerName_uses quiet _) self noise fun second worker noise => ?_
  refine noise_skip legs self noise fun settled legs noise => ?_
  refine noise_skip (workerContext_uses quiet _ _ _) self noise fun labelled labels noise => ?_
  refine noise_skip (uses_quiet quiet .systemTime rfl) self noise fun timed systemTime noise => ?_
  refine noise_skip (recordAll_uses _ (mergedParentMetrics_kind quiet (by decide))) self noise
    fun recorded _ noise => ?_
  split
  · exact submitClaimed_account submission noise jobId job wallet worker
  · exact Protocol.obeys_done noise

theorem evaluate_account (noise : ∀ call ∈ calls, call.Noise) (attempts jobId : Nat) (job : Job)
    (invalid : Bool) :
    accounts.Obeys request calls
      (evaluate deployment.settings submission attempts jobId job invalid) (Judged submission) := by
  have self : uncountedKinds ⊆ uncountedKinds := List.Subset.refl _
  induction attempts generalizing jobId job invalid calls with
  | zero => exact Protocol.obeys_done noise
  | succ attempts ih =>
      refine account_call (.checkPow job.block submission.nonce) trivial fun checked => ?_
      obtain ⟨passed, powValue⟩ : Bool × Nat := checked
      have further : ∀ call ∈ calls ++ [.checked], call.Noise :=
        forall_append noise fun call member => List.mem_singleton.mp member ▸ trivial
      have target : Uses uncountedKinds (mergedFcTarget deployment.settings job.block) :=
        mergedFcTarget_uses deployment.settings (by decide) job.block
      refine noise_skip target self further fun targeted fcTarget noise => ?_
      dsimp only
      split
      · exact settleSolution_account submission noise jobId job _
      · refine noise_skip (shareDiff_uses submission.uid (by decide) jobId) self noise
          fun measured diff noise => ?_
        have missed : ∀ invalid : Bool, Judged submission measured
            (if invalid then Verdict.weak else .credit jobId job) := by
          intro invalid
          cases invalid <;> exact noise
        split
        · split
          · exact Protocol.obeys_done (missed _)
          · split
            · exact Protocol.obeys_done (missed _)
            · have reads : Kind.jobRead ∈ uncountedKinds := by decide
              refine noise_skip (uses_perform (.ring submission.uid (.getJob (jobId - 1))) reads)
                self noise fun searched previous noise => ?_
              cases (previous : Option Job) with
              | some previous => exact ih noise _ _ _
              | none =>
                  refine Protocol.obeys_done ?_
                  split <;> exact noise
        · exact Protocol.obeys_done noise

/-! ## The handler -/

theorem handleDecoded_account (idle : ∀ call ∈ calls, call.Idle) (job : Job) :
    accounts.Obeys request calls (handleDecoded deployment.settings submission job)
      fun after _ => Accounted submission.uid after := by
  have quiet : Kind.quiet ∈ uncountedKinds := by decide
  have checks : Kind.checkSubmission ∈ uncountedKinds := by decide
  have self : uncountedKinds ⊆ uncountedKinds := List.Subset.refl _
  refine account_skip (uses_quiet quiet .now rfl) self fun timed now timedIdle => ?_
  refine account_skip (uses_perform (.checkSubmission _ _ now) checks) self
    fun admitted seen admittedIdle => ?_
  have soFar := forall_append (forall_append idle timedIdle) admittedIdle
  cases (seen : Option DuplicateSubmitOutcome) with
  | some outcome =>
      refine ((replyDuplicate_uses (by decide) submission.uid _ outcome).addsIdle self).mono ?_
      rintro after _ ⟨added, rfl, addedIdle⟩
      exact .idle (forall_append soFar addedIdle)
  | none =>
      refine (evaluate_account submission (fun call member => (soFar call member).noise) _ _ job
        _).bind fun after verdict judged => ?_
      exact finishSubmission_account submission judged

end Submission

theorem handleSubmit_account (uid : Nat) (event : SubmitEvent) :
    accounts.Obeys request [] (handleSubmit deployment.settings uid event)
      fun after _ => Accounted uid after := by
  have quiet : Kind.quiet ∈ uncountedKinds := by decide
  have correlates : Kind.correlation ∈ uncountedKinds := by decide
  have self : uncountedKinds ⊆ uncountedKinds := List.Subset.refl _
  have stop : ∀ {calls : List AccountCall} {task : Task (Except Text Unit)},
      (∀ call ∈ calls, call.Idle) → Uses uncountedKinds task →
        accounts.Obeys request calls task fun after _ => Accounted uid after := by
    intro calls task idle uses
    refine (uses.addsIdle self).mono ?_
    rintro after _ ⟨added, rfl, addedIdle⟩
    exact .idle (forall_append idle addedIdle)
  refine account_skip (uses_perform .newCorrelationId correlates) self
    fun drawn correlationId drawnIdle => ?_
  refine account_skip (readContext_uses quiet uid) self fun read context readIdle => ?_
  have started := forall_append drawnIdle readIdle
  split
  · split
    · exact stop started (uses_done _)
    case h_2 jobId _ =>
      refine account_skip (findJob_uses (by decide) uid jobId) self
        fun searched found searchedIdle => ?_
      have searching := forall_append started searchedIdle
      cases found with
      | none => exact stop searching (rejectSubmission_uses quiet ..)
      | some found =>
          dsimp only
          unfold decodeAndHandle
          split
          · exact stop searching (uses_done _)
          · refine account_skip (readContext_uses quiet uid) self fun again context againIdle => ?_
            dsimp only
            split
            · exact stop (forall_append searching againIdle) (uses_done _)
            · refine account_skip (effectiveWorkerName_uses quiet uid) self
                fun named workerId namedIdle => ?_
              exact handleDecoded_account _
                (forall_append (forall_append searching againIdle) namedIdle) _
  · exact stop started (rejectSubmission_uses quiet ..)

theorem confirmBlock_account (instanceId handle : Nat) (worker : WorkerContext) (hash : Text)
    (nonce blueScore attempts : Nat) :
    accounts.Obeys (.confirmBlock instanceId handle worker hash nonce blueScore) []
      (confirmBlock instanceId handle worker hash nonce blueScore attempts) fun after _ =>
        after = [] ∨ after = [.cell instanceId handle .blocks, .overall instanceId .blocks] := by
  induction attempts with
  | zero => exact ⟨trivial, fun _ _ => Or.inl rfl⟩
  | succ attempts ih =>
      refine account_call (.blockColor hash) trivial fun blue => ?_
      split
      · have silent : ∀ call ∈ ([] : List AccountCall), call.Noise :=
          fun _ member => absurd member List.not_mem_nil
        have idle : ∀ call ∈ ([] : List AccountCall), call.Idle :=
          fun _ member => absurd member List.not_mem_nil
        refine account_call (.stats instanceId (.write handle .blockFound))
          (fun _ => ⟨silent, Or.inr ⟨worker, hash, nonce, blueScore, rfl⟩⟩) fun _ => ?_
        refine account_call (.stats instanceId (.writeOverall .blockFound)) ?_ fun _ =>
          ⟨trivial, fun _ _ => Or.inr rfl⟩
        intro tally counts
        obtain rfl := Option.some.inj counts
        exact ⟨handle, [], [], rfl, silent, idle⟩
      · exact ih

/-- **Every task obeys the accounting protocol.** -/
theorem bridgeProgram_account (request : BridgeRequest) :
    accounts.Obeys request [] (bridgeProgram deployment.settings request)
      fun after _ => AccountCompletes request after := by
  have uses := bridgeProgram_uses deployment.settings request
  have silent : ordinaryKinds ⊆ uncountedKinds := by decide
  cases request with
  | submit uid event =>
      exact (handleSubmit_account uid event).bind fun _ _ counted => Protocol.obeys_done counted
  | confirmBlock instanceId handle worker hash nonce blueScore =>
      exact (confirmBlock_account ..).bind fun _ _ counted => Protocol.obeys_done counted
  | _ =>
      refine (uses.addsIdle (BridgeRequest.kinds_subset trivial silent)).mono ?_
      rintro after _ ⟨added, rfl, idle⟩
      exact idle

/-- **Accounting protocol.** Every run is explained by it. -/
theorem accounts_execute (events : List (bridge deployment).Event) :
    @System.Explained (bridge deployment) AccountCall accounts (System.execute events).log :=
  System.explained_execute bridgeProgram_account events fun _ _ _ _ => trivial

end StratumBridge
