import StratumBridge.Bridge.Provenance
import StratumBridge.Interaction.Lock

/-! # How jobs are published

A full publication takes the job-build lock of its connection, draws a template
generation, has a block issued under the tag of that generation, and adds its job, all
before it releases the lock. A parent-only publication takes the lock, reads the newest
job, and adds a job for the same lane.
-/

namespace StratumBridge

open Interaction

variable [Platform] {deployment : Deployment}

/-- The calls of a publication. -/
inductive PublishCall where
  | locked (uid : Nat)
  | unlocked (uid : Nat)
  | drew (uid generation : Nat)
  | issued (fcBlock : Block)
  | stored (uid : Nat) (ids : List Nat)
  | found (uid id : Nat) (job : Job)
  | added (uid : Nat)

def publishCall : (op : BridgeOp) → op.Answer → Option PublishCall
  | .context uid .lockJobBuild, _ => some (.locked uid)
  | .context uid .tryLockJobBuild, true => some (.locked uid)
  | .context uid .unlockJobBuild, _ => some (.unlocked uid)
  | .context uid .nextTemplateGeneration, generation => some (.drew uid generation)
  | .zkasTemplate _ _, .block fcBlock => some (.issued fcBlock)
  | .ring uid .storedJobIds, ids => some (.stored uid ids)
  | .ring uid (.getJob id), some job => some (.found uid id job)
  | .ring uid (.addJob _), _ => some (.added uid)
  | _, _ => none

/-- The operation behind a call of a publication. -/
inductive Publishes : (op : BridgeOp) → op.Answer → PublishCall → Prop where
  | waited (uid : Nat) : Publishes (.context uid .lockJobBuild) () (.locked uid)
  | locked (uid : Nat) : Publishes (.context uid .tryLockJobBuild) true (.locked uid)
  | unlocked (uid : Nat) : Publishes (.context uid .unlockJobBuild) () (.unlocked uid)
  | drew (uid generation : Nat) :
      Publishes (.context uid .nextTemplateGeneration) generation (.drew uid generation)
  | issued (recipient : Address) (tag : List Byte) (fcBlock : Block) :
      Publishes (.zkasTemplate recipient tag) (.block fcBlock) (.issued fcBlock)
  | stored (uid : Nat) (ids : List Nat) : Publishes (.ring uid .storedJobIds) ids (.stored uid ids)
  | found (uid id : Nat) (job : Job) :
      Publishes (.ring uid (.getJob id)) (some job) (.found uid id job)
  | added (uid id : Nat) (job : Job) : Publishes (.ring uid (.addJob job)) id (.added uid)

/-- **Inversion of a recorded call.** -/
theorem publishCall_cases {op : BridgeOp} {answer : op.Answer} {item : PublishCall}
    (chosen : publishCall op answer = some item) : Publishes op answer item := by
  unfold publishCall at chosen
  split at chosen
  case h_9 => exact nomatch chosen
  all_goals
    cases chosen
    constructor

/-- The job-build lock of a connection is taken, or released. -/
def PublishCall.turn (uid : Nat) : PublishCall → Option Bool
  | .locked other => if other = uid then some true else none
  | .unlocked other => if other = uid then some false else none
  | _ => none

/-- After these calls a task holds the job-build lock. -/
def Building (uid : Nat) (calls : List PublishCall) : Prop :=
  (calls.filterMap (PublishCall.turn uid)).getLast? = some true

/-- Why a task may add a job. -/
inductive MayAdd (log : Record deployment) (request : BridgeRequest) (calls : List PublishCall)
    (uid : Nat) (job : Job) : Prop where
  /-- A full template, for the block issued to it. -/
  | full (generation : Nat) (fcBlock : Block) (serves : ∀ other, request ≠ .newParent other)
      (before : calls = [.locked uid, .drew uid generation, .issued fcBlock])
      (commits : deployment.settings.mergedMining = true → Faithful log →
        committedHFc job.block = some fcBlock.header.hash)
  /-- A refresh, for the lane of the newest job it found. -/
  | refresh (pre : List PublishCall) (ids : List Nat) (id : Nat) (latest : Job) (hFc : Hash)
      (serves : request = .newParent uid)
      (before : calls = pre ++ [.locked uid, .stored uid ids, .found uid id latest])
      (newest : ids.max? = some id) (current : committedHFc latest.block = some hFc)
      (commits : Faithful log → committedHFc job.block = some hFc)

def PublishPermits (log : Record deployment) (request : BridgeRequest)
    (calls : List PublishCall) : BridgeOp → Prop
  | .context uid .unlockJobBuild => Building uid calls
  | .context uid .nextTemplateGeneration => calls = [.locked uid]
  | .zkasTemplate _ tag => ∃ uid generation, calls = [.locked uid, .drew uid generation] ∧
      tag = buildLaneCoinbaseTag deployment.settings.coinbaseTag uid generation
  | .ring uid (.addJob job) => MayAdd log request calls uid job
  | _ => True

/-- Tasks publish in order. -/
@[reducible] def publications (log : Record deployment) :
    Protocol bridgeSignature BridgeRequest PublishCall BridgeResult where
  select := publishCall
  permits := PublishPermits log
  answers := (provenance log).ensures
  completes := fun _ _ _ => True

/-! ## Tasks obey the protocol -/

/-- The kinds of operations no publication needs to order. -/
def unpublishingKinds : List Kind :=
  Kind.except [.buildLock, .generation, .zkasTemplate, .addJob]

/-- The kinds of operations the protocol does not record either. -/
def unnoticedKinds : List Kind :=
  Kind.except [.buildLock, .generation, .zkasTemplate, .addJob, .jobRead]

variable {log : Record deployment} {request : BridgeRequest} {calls : List PublishCall}
  {α β : Type}

theorem publishPermits_of_unpublishing {op : BridgeOp} (other : op.kind ∈ unpublishingKinds) :
    PublishPermits log request calls op := by
  have noLock : Kind.buildLock ∉ unpublishingKinds := by decide
  have noDraw : Kind.generation ∉ unpublishingKinds := by decide
  have noIssue : Kind.zkasTemplate ∉ unpublishingKinds := by decide
  have noAdd : Kind.addJob ∉ unpublishingKinds := by decide
  unfold PublishPermits
  split
  · exact absurd other noLock
  · exact absurd other noDraw
  · exact absurd other noIssue
  · exact absurd other noAdd
  · trivial

theorem publishCall_of_unnoticed {op : BridgeOp} (other : op.kind ∈ unnoticedKinds)
    (answer : op.Answer) : publishCall op answer = none := by
  have noLock : Kind.buildLock ∉ unnoticedKinds := by decide
  have noDraw : Kind.generation ∉ unnoticedKinds := by decide
  have noIssue : Kind.zkasTemplate ∉ unnoticedKinds := by decide
  have noRead : Kind.jobRead ∉ unnoticedKinds := by decide
  have noAdd : Kind.addJob ∉ unnoticedKinds := by decide
  unfold publishCall
  split
  · exact absurd other noLock
  · exact absurd other noLock
  · exact absurd other noLock
  · exact absurd other noDraw
  · exact absurd other noIssue
  · exact absurd other noRead
  · exact absurd other noRead
  · exact absurd other noAdd
  · rfl

theorem Uses.unnoticed {kinds : List Kind} {task : Task α} (uses : Uses kinds task)
    (subset : kinds ⊆ unnoticedKinds) :
    Program.Within (publications log).Ignores task := by
  have weaker : unnoticedKinds ⊆ unpublishingKinds := by decide
  induction task with
  | done result => trivial
  | call op next ih =>
      refine ⟨⟨fun _ _ => publishPermits_of_unpublishing (weaker (subset uses.1)), fun answer => ?_⟩,
        fun answer => ih answer (uses.2 answer)⟩
      exact publishCall_of_unnoticed (subset uses.1) answer

/-- A task that publishes nothing obeys the protocol. -/
theorem Uses.publishesNothing {kinds : List Kind} {task : Task α} (uses : Uses kinds task)
    (subset : kinds ⊆ unpublishingKinds) :
    (publications log).Obeys request calls task fun _ _ => True := by
  apply Protocol.obeys_of_permitted
  induction task with
  | done result => trivial
  | call op next ih =>
      exact ⟨fun _ => publishPermits_of_unpublishing (subset uses.1),
        fun answer => ih answer (uses.2 answer)⟩

/-- A prefix that goes unnoticed can be skipped. -/
theorem publish_skip {first : Task α} {rest : α → Task β} {post : List PublishCall → β → Prop}
    (uses : Uses unnoticedKinds first)
    (tail : ∀ result, (publications log).Obeys request calls (rest result) post) :
    (publications log).Obeys request calls (first >>= rest) post :=
  Protocol.obeys_bind_of_within (uses.unnoticed (List.Subset.refl _)) tail

/-- One call, then the rest. -/
theorem publish_call (op : BridgeOp) {rest : op.Answer → Task α}
    {post : List PublishCall → α → Prop} (permitted : PublishPermits log request calls op)
    (tail : ∀ answer, (provenance log).ensures op answer →
      (publications log).Obeys request (calls ++ (publishCall op answer).toList)
        (rest answer) post) :
    (publications log).Obeys request calls (call op >>= rest) post :=
  ⟨permitted, tail⟩

/-! ## Full publications -/

/-- The parent of a full template commits to the block it was built for. -/
theorem mergedTemplate_commits {fcBlock : Block} (issued : Issued log fcBlock)
    (kasPayout : Option Address) (laneId : Nat) :
    (provenance log).Keeps (mergedTemplate deployment.settings fcBlock kasPayout laneId)
      fun parent => Faithful log → committedHFc parent = some fcBlock.header.hash := by
  have quiet : Kind.quiet ∈ freeKinds := by decide
  refine (keeps_free .systemTime quiet).bind fun systemTime _ => ?_
  refine (fetchKaspaParent_keeps _ _ false).bind fun fetched sound => ?_
  refine (keeps_call (.pending (.insertWithPayee _ fcBlock _)) ⟨rfl, issued⟩).bind fun _ _ => ?_
  apply Contract.keeps_done
  intro faithful
  cases fetched with
  | ok parent =>
      obtain ⟨recipient, pay, -, -, obtained⟩ := sound.1 parent rfl
      exact faithful.obtained pay _ parent obtained
  | error error => exact faithful.synthetic fcBlock

/-- The connection is building, and a template that was had commits to the block issued. -/
def Templated (log : Record deployment) (uid : Nat) (calls : List PublishCall)
    (result : Except Text Block) : Prop :=
  Building uid calls ∧ ∀ block, result = .ok block → ∃ generation fcBlock,
    calls = [.locked uid, .drew uid generation, .issued fcBlock] ∧
      (deployment.settings.mergedMining = true → Faithful log →
        committedHFc block = some fcBlock.header.hash)

theorem building_cons (uid : Nat) (calls : List PublishCall)
    (silent : calls.filterMap (PublishCall.turn uid) = []) :
    Building uid (.locked uid :: calls) := by
  have turn : PublishCall.turn uid (.locked uid) = some true := if_pos rfl
  rw [Building, List.filterMap_cons_some turn, silent]
  rfl

theorem templateAttempts_publish (uid generation : Nat) (wallet : Text)
    (kasPayout : Option Address) (remaining : Nat) :
    (publications log).Obeys request [.locked uid, .drew uid generation]
      (templateAttempts deployment.settings wallet uid generation kasPayout uid remaining)
      (Templated log uid) := by
  have failed : ∀ error : Text, (publications log).Obeys request
      [.locked uid, .drew uid generation] (.done (.error error) : Task (Except Text Block))
        (Templated log uid) :=
    fun error => Protocol.obeys_done
      ⟨building_cons uid [.drew uid generation] rfl, fun block absurdity => (nomatch absurdity)⟩
  induction remaining with
  | zero => exact failed _
  | succ remaining ih =>
      unfold templateAttempts
      dsimp only
      split
      · exact failed _
      · refine publish_call (.zkasTemplate _ _) ⟨uid, generation, rfl, rfl⟩
          fun (reply : TemplateReply) recorded => ?_
        cases reply with
        | failed error =>
            change (publications log).Obeys request ([.locked uid, .drew uid generation] ++ []) _ _
            rw [List.append_nil]
            dsimp only
            split
            · exact ih
            · exact failed _
        | malformed error =>
            change (publications log).Obeys request ([.locked uid, .drew uid generation] ++ []) _ _
            rw [List.append_nil]
            dsimp only
            split
            · exact ih
            · split <;> exact failed _
        | block fcBlock =>
            -- Serialization never fails, so an issued block ends the attempts.
            have building : Building uid [.locked uid, .drew uid generation, .issued fcBlock] :=
              building_cons uid [.drew uid generation, .issued fcBlock] rfl
            change (publications log).Obeys request
              [.locked uid, .drew uid generation, .issued fcBlock]
              (if deployment.settings.mergedMining then do
                let parent ← mergedTemplate deployment.settings fcBlock kasPayout uid
                return .ok parent
              else return .ok fcBlock : Task (Except Text Block)) _
            split
            case isTrue merged =>
              have unseen : Uses unnoticedKinds
                  (mergedTemplate deployment.settings fcBlock kasPayout uid) :=
                mergedTemplate_uses deployment.settings (by decide) (by decide) (by decide) (by decide)
                  (by decide) fcBlock kasPayout uid
              refine (Protocol.obeys_of_keeps (unseen.unnoticed (List.Subset.refl _))
                (fun _ _ ensured => ensured)
                (mergedTemplate_commits ⟨_, _, recorded.1⟩ kasPayout uid)).bind ?_
              rintro after parent ⟨rfl, commits⟩
              refine Protocol.obeys_done ⟨building, ?_⟩
              intro block same
              cases same
              exact ⟨generation, fcBlock, rfl, fun _ => commits⟩
            case isFalse plain =>
              exact Protocol.obeys_done
                ⟨building, fun _ _ => ⟨generation, fcBlock, rfl, fun merged => absurd merged plain⟩⟩

theorem requestTemplate_publish (uid : Nat) (wallet : Text) :
    (publications log).Obeys request [.locked uid]
      (requestTemplate deployment.settings uid wallet) (Templated log uid) := by
  refine publish_call (.context uid .nextTemplateGeneration) rfl
    fun generation _ => ?_
  have reads : Kind.payoutRead ∈ unnoticedKinds := by decide
  refine publish_skip (uses_perform (.context uid .kasPayout) reads) fun kasPayout => ?_
  exact templateAttempts_publish uid generation wallet kasPayout 3

theorem building_append {uid : Nat} {reads : List PublishCall} (building : Building uid calls)
    (silent : reads.filterMap (PublishCall.turn uid) = []) : Building uid (calls ++ reads) := by
  rw [Building, List.filterMap_append, silent, List.append_nil]
  exact building

/-- A task that goes unnoticed keeps the lock. -/
theorem building_skip {uid : Nat} {task : Task Unit} (building : Building uid calls)
    (uses : Uses unnoticedKinds task) :
    (publications log).Obeys request calls task fun after _ => Building uid after := by
  refine (Protocol.obeys_of_within (uses.unnoticed (List.Subset.refl _))).mono ?_
  rintro after _ rfl
  exact building

/-- After a failed template nothing is published; after a template its job may be added. -/
theorem afterTemplate_publish (serves : ∀ other, request ≠ .newParent other) {uid : Nat} {wallet : Text} {rest : Except Text Block → Task Unit}
    (failed : ∀ error, Uses unnoticedKinds (rest (.error error)))
    (had : ∀ {calls : List PublishCall} block, Building uid calls →
      (∀ hash, MayAdd log request calls uid ⟨block, hash⟩) →
        (publications log).Obeys request calls (rest (.ok block)) fun after _ =>
          Building uid after) :
    (publications log).Obeys request [.locked uid]
      (requestTemplate deployment.settings uid wallet >>= rest) fun after _ =>
        Building uid after := by
  refine (requestTemplate_publish uid wallet).bind fun after template templated => ?_
  obtain ⟨building, templates⟩ := templated
  cases template with
  | error error => exact building_skip building (failed error)
  | ok block =>
      obtain ⟨generation, fcBlock, before, commits⟩ := templates block rfl
      exact had block building fun hash => .full generation fcBlock serves before commits

/-- A permitted job is added, and announced unnoticed. -/
theorem addJob_publish {uid : Nat} {job : Job} {announce : Nat → Task Unit}
    (building : Building uid calls) (may : MayAdd log request calls uid job)
    (announces : ∀ jobId, Uses unnoticedKinds (announce jobId)) :
    (publications log).Obeys request calls (do
      let jobId : Nat ← call (.ring uid (.addJob job))
      announce jobId) fun after _ => Building uid after := by
  refine publish_call (.ring uid (.addJob job)) may fun jobId _ => ?_
  exact building_skip (building_append building rfl) (announces jobId)

theorem buildImmediate_publish (serves : ∀ other, request ≠ .newParent other) (instanceId uid : Nat) (initialDiff : ℚ) :
    (publications log).Obeys request [.locked uid]
      (buildImmediate deployment.settings instanceId uid initialDiff)
      fun after _ => Building uid after := by
  have quiet : Kind.quiet ∈ unnoticedKinds := by decide
  refine publish_skip (walletAddr_uses quiet uid) fun wallet => ?_
  refine publish_skip (remoteApp_uses quiet uid) fun app => ?_
  refine afterTemplate_publish serves
    (fun error => templateFailed_uses instanceId uid quiet wallet error)
      fun block building may => ?_
  refine publish_skip (uses_quiet quiet (.ring uid (.setBigDiff _)) rfl) fun _ => ?_
  split
  · exact building_skip building (uses_quiet quiet _ rfl)
  · exact addJob_publish building (may _) fun jobId =>
      announceImmediate_uses deployment.settings instanceId uid quiet (by decide) (by decide)
        (by decide) (by decide) ..

theorem buildNewBlock_publish (serves : ∀ other, request ≠ .newParent other) (instanceId uid : Nat) (seed : ℚ) :
    (publications log).Obeys request [.locked uid]
      (buildNewBlock deployment.settings instanceId uid seed)
      fun after _ => Building uid after := by
  have quiet : Kind.quiet ∈ unnoticedKinds := by decide
  refine publish_skip (walletAddr_uses quiet uid) fun wallet => ?_
  refine publish_skip (remoteApp_uses quiet uid) fun app => ?_
  refine afterTemplate_publish serves
    (fun error => templateFailed_uses instanceId uid quiet wallet error)
      fun block building may => ?_
  refine publish_skip (uses_quiet quiet (.ring uid (.setBigDiff _)) rfl) fun _ => ?_
  split
  · exact building_skip building (uses_quiet quiet _ rfl)
  · exact addJob_publish building (may _) fun jobId =>
      announceNewBlock_uses deployment.settings instanceId uid quiet (by decide) (by decide)
        (by decide) (by decide) ..

/-- The lock is released by the task that took it. -/
theorem unlock_publish {uid : Nat} (building : Building uid calls) :
    (publications log).Obeys request calls (call (.context uid .unlockJobBuild))
      fun _ _ => True :=
  ⟨building, fun _ _ => trivial⟩

theorem sendImmediateJobToClient_publish (serves : ∀ other, request ≠ .newParent other) (uid : Nat) :
    (publications log).Obeys request [] (sendImmediateJobToClient deployment.settings uid)
      fun _ _ => True := by
  have quiet : Kind.quiet ∈ unnoticedKinds := by decide
  refine publish_skip (readContext_uses quiet uid) fun context => ?_
  refine publish_skip (registerClientVardiff_uses _ uid quiet _) fun initialDiff => ?_
  refine publish_skip (setStratumDiff_uses deployment.settings uid (by decide) initialDiff)
    fun _ => ?_
  refine publish_call (.context uid .lockJobBuild) trivial fun _ _ => ?_
  exact (buildImmediate_publish serves _ uid initialDiff).bind fun _ _ building =>
    unlock_publish building

theorem newBlockAvailable_publish (serves : ∀ other, request ≠ .newParent other) (uid : Nat) :
    (publications log).Obeys request [] (newBlockAvailable deployment.settings uid)
      fun _ _ => True := by
  have quiet : Kind.quiet ∈ unnoticedKinds := by decide
  refine publish_call (.context uid .tryLockJobBuild) trivial fun locked _ => ?_
  cases (locked : Bool) with
  | false => exact Protocol.obeys_done trivial
  | true =>
      refine publish_skip (readContext_uses quiet uid) fun context => ?_
      by_cases missing : context.walletAddr = []
      · simp only [if_pos missing]
        refine publish_skip (skipWithoutWallet_uses _ uid quiet _) fun _ => ?_
        exact unlock_publish (building_cons uid [] rfl)
      · simp only [if_neg missing]
        exact (buildNewBlock_publish serves _ uid _).bind fun _ _ building => unlock_publish building

/-! ## Parent-only publications -/

/-- What reading the newest job leaves behind. -/
def ReadLatest (uid : Nat) (calls after : List PublishCall) (latest : Option (Nat × Job)) : Prop :=
  (∃ reads, after = calls ++ reads ∧ reads.filterMap (PublishCall.turn uid) = []) ∧
    ∀ id job, latest = some (id, job) → ∃ ids,
      after = calls ++ [.stored uid ids, .found uid id job] ∧ ids.max? = some id

theorem latestJob_publish (uid : Nat) :
    (publications log).Obeys request calls (latestJob uid) (ReadLatest uid calls) := by
  refine publish_call (.ring uid .storedJobIds) trivial fun (ids : List Nat) _ => ?_
  cases newest : ids.max? with
  | none => exact Protocol.obeys_done ⟨⟨_, rfl, rfl⟩, fun id job absurdity => (nomatch absurdity)⟩
  | some id =>
      refine publish_call (.ring uid (.getJob id)) trivial fun (found : Option Job) _ => ?_
      apply Protocol.obeys_done
      change ReadLatest uid calls (calls ++ [.stored uid ids] ++ _) _
      rw [List.append_assoc]
      cases found with
      | none => exact ⟨⟨_, rfl, rfl⟩, fun id job absurdity => (nomatch absurdity)⟩
      | some job =>
          refine ⟨⟨_, rfl, rfl⟩, ?_⟩
          intro other latest same
          cases same
          exact ⟨ids, rfl, newest⟩

theorem publishParent_publish {uid : Nat} {pre : List PublishCall} {hFc : Hash} {parent : Block}
    (commits : Faithful log → committedHFc parent = some hFc) (instanceId : Nat) :
    (publications log).Obeys (.newParent uid) (pre ++ [.locked uid])
      (publishParent instanceId uid (some hFc) parent) fun after _ => Building uid after := by
  have quiet : Kind.quiet ∈ unnoticedKinds := by decide
  have building : Building uid (pre ++ [.locked uid]) := by
    rw [Building, List.filterMap_append]
    have one : [PublishCall.locked uid].filterMap (PublishCall.turn uid) = [true] :=
      List.filterMap_cons_some (if_pos rfl)
    rw [one, List.getLast?_concat]
  refine (latestJob_publish uid).bind ?_
  rintro after latest ⟨⟨reads, rfl, silent⟩, newest⟩
  have still := building_append building silent
  cases latest with
  | none => exact Protocol.obeys_done still
  | some latest =>
      obtain ⟨ids, same, maximal⟩ := newest latest.1 latest.2 rfl
      dsimp only
      split
      case isFalse => exact Protocol.obeys_done still
      case isTrue current =>
        split
        case h_1 => exact Protocol.obeys_done still
        case h_2 prePowHash _ =>
          rw [same, List.append_assoc] at still ⊢
          exact addJob_publish still
            (.refresh pre ids latest.1 latest.2 hFc rfl rfl maximal current commits) fun jobId =>
              announceParent_uses instanceId uid quiet (by decide) (by decide) ..

theorem refreshParent_publish (instanceId uid : Nat) (job : Job) :
    (publications log).Obeys (.newParent uid) calls
      (refreshParent deployment.settings instanceId uid job) fun _ _ => True := by
  have quiet : Kind.quiet ∈ unnoticedKinds := by decide
  have reads : Kind.payoutRead ∈ unnoticedKinds := by decide
  refine publish_skip (uses_perform (.context uid .kasPayout) reads) fun payee => ?_
  have refreshes : Uses unnoticedKinds (refreshMergedParent deployment.settings job.block payee) :=
    refreshMergedParent_uses deployment.settings quiet (by decide) (by decide) (by decide) (by decide) _ _
  refine (Protocol.obeys_of_keeps (refreshes.unnoticed (List.Subset.refl _))
    (fun _ _ ensured => ensured) (refreshMergedParent_keeps job.block payee)).bind ?_
  rintro after refreshed ⟨rfl, sound⟩
  split
  case h_1 parent =>
    obtain ⟨hFc, commits, recipient, pay, -, -, obtained⟩ := sound parent rfl
    refine publish_call (.context uid .tryLockJobBuild) trivial fun locked _ => ?_
    cases (locked : Bool) with
    | false => exact Protocol.obeys_done trivial
    | true =>
        rw [commits]
        exact (publishParent_publish (fun faithful => faithful.obtained pay hFc parent obtained)
          instanceId).bind fun _ _ building => unlock_publish building
  case h_2 => exact Protocol.obeys_done trivial

theorem newParentAvailable_publish (uid : Nat) :
    (publications log).Obeys (.newParent uid) []
      (newParentAvailable deployment.settings uid) fun _ _ => True := by
  have quiet : Kind.quiet ∈ unnoticedKinds := by decide
  have gates : Kind.refreshGate ∈ unpublishingKinds := by decide
  have release : ∀ {calls : List PublishCall}, (publications log).Obeys (.newParent uid) calls
      (call (.context uid .releaseParentRefresh)) fun _ _ => True :=
    (uses_perform (.context uid .releaseParentRefresh) gates).publishesNothing
      (List.Subset.refl unpublishingKinds)
  refine publish_skip (readContext_uses quiet uid) fun context => ?_
  split
  · exact Protocol.obeys_done trivial
  · refine publish_skip (tryParentRefresh_uses uid quiet (by decide) _) fun permitted => ?_
    cases permitted with
    | false => exact Protocol.obeys_done trivial
    | true =>
        refine (latestJob_publish uid).bind fun after latest _ => ?_
        cases latest with
        | none => exact release
        | some latest =>
            exact (refreshParent_publish _ uid latest.2).bind fun _ _ _ => release

/-! ## The whole bridge -/

theorem answerAuthorization_publish (serves : ∀ other, request ≠ .newParent other) (uid : Nat) (eventId : Option Value) :
    (publications log).Obeys request [] (answerAuthorization deployment.settings uid eventId)
      fun _ _ => True := by
  have quiet : Kind.quiet ∈ unnoticedKinds := by decide
  refine publish_skip (answer_uses (by decide) uid rfl) fun replied => ?_
  cases replied with
  | error error => exact Protocol.obeys_done trivial
  | ok _ =>
      refine publish_skip (sendAuthorizedExtranonce_uses deployment.settings uid quiet (by decide))
        fun extranonce => ?_
      cases extranonce with
      | error error => exact Protocol.obeys_done trivial
      | ok _ =>
          exact (sendImmediateJobToClient_publish serves uid).bind fun _ _ _ =>
            Protocol.obeys_done trivial

theorem authorize_publish (serves : ∀ other, request ≠ .newParent other) (uid : Nat) (eventId : Option Value) (identity : Text) (password : Option Text) :
    (publications log).Obeys request []
      (authorize deployment.settings uid eventId identity password) fun _ _ => True := by
  have quiet : Kind.quiet ∈ unnoticedKinds := by decide
  have registers : Kind.registration ∈ unnoticedKinds := by decide
  refine publish_skip (readContext_uses quiet uid) fun context => ?_
  refine publish_skip (authorizedWallet_uses deployment.settings _ uid quiet _) fun wallet => ?_
  refine publish_skip (deactivateClientVardiff_uses _ uid quiet registers) fun _ => ?_
  refine publish_skip (storeIdentity_uses uid quiet (by decide) wallet _) fun label => ?_
  refine publish_skip (walletAddr_uses quiet uid) fun stored => ?_
  refine publish_skip (registerIdentity_uses _ uid quiet registers stored) fun _ => ?_
  refine publish_skip (remoteApp_uses quiet uid) fun app => ?_
  refine publish_skip (storePayouts_uses uid quiet (by decide) _ _) fun _ => ?_
  refine publish_skip (openSession_uses uid quiet (by decide) (by decide) wallet label app)
    fun _ => ?_
  exact answerAuthorization_publish serves uid eventId

/-- **Every task obeys the publication protocol.** -/
theorem bridgeProgram_publish (request : BridgeRequest) :
    (publications log).Obeys request [] (bridgeProgram deployment.settings request)
      fun _ _ => True := by
  have finish : ∀ {calls : List PublishCall} (result : BridgeResult),
      (publications log).Obeys request calls (.done result) fun _ _ => True :=
    fun _ => Protocol.obeys_done trivial
  have quiet : Kind.quiet ∈ unpublishingKinds := by decide
  have self : unpublishingKinds ⊆ unpublishingKinds := List.Subset.refl _
  cases request with
  | fetchKaspaParent hFc payee force =>
      exact ((fetchKaspaParent_uses deployment.settings quiet (by decide) (by decide) (by decide) hFc payee
        force).publishesNothing self).bind fun _ result _ => finish _
  | submit uid event =>
      exact ((handleSubmit_uses deployment.settings uid event).publishesNothing (by decide)).bind
        fun _ result _ => finish _
  | authorize uid event =>
      have handled : (publications log).Obeys (.authorize uid event) []
          (handleAuthorize deployment.settings uid event) fun _ _ => True := by
        unfold handleAuthorize
        split
        · exact Protocol.obeys_done trivial
        · exact authorize_publish (by simp) uid _ _ _
      exact handled.bind fun _ result _ => finish _
  | immediateJob uid =>
      exact (sendImmediateJobToClient_publish (by simp) uid).bind fun _ _ _ => finish _
  | newBlock uid => exact (newBlockAvailable_publish (by simp) uid).bind fun _ _ _ => finish _
  | newParent uid => exact (newParentAvailable_publish uid).bind fun _ _ _ => finish _
  | retarget instanceId key next =>
      exact ((retarget_uses instanceId quiet key next).publishesNothing self).bind
        fun _ _ _ => finish _
  | connect =>
      exact ((acceptConnection_uses quiet (by decide) (by decide) (by decide)).publishesNothing self).bind
        fun _ _ _ => finish _
  | createStats uid =>
      exact ((createStatsLater_uses uid quiet).publishesNothing self).bind fun _ _ _ => finish _
  | subscribe uid event =>
      exact ((handleSubscribe_uses deployment.settings uid quiet (by decide) (by decide)
        (by decide) event).publishesNothing self).bind fun _ _ _ => finish _
  | disconnect uid =>
      exact ((onDisconnect_uses uid quiet (by decide) (by decide) (by decide)
        (by decide)).publishesNothing self).bind fun _ _ _ => finish _
  | pruneStats instanceId =>
      exact ((pruneStats_uses instanceId quiet (by decide)).publishesNothing self).bind
        fun _ _ _ => finish _
  | confirmBlock instanceId handle worker hash nonce blueScore =>
      exact ((confirmBlock_uses instanceId quiet (by decide) (by decide) ..).publishesNothing
        self).bind fun _ _ _ => finish _

/-- **Publication protocol.** Every run is explained by it. -/
theorem publications_execute (events : List (bridge deployment).Event) :
    @System.Explained (bridge deployment) PublishCall
      (publications (System.execute events).log) (System.execute events).log :=
  System.explained_execute bridgeProgram_publish events (provenance_execute events).ensured

end StratumBridge
