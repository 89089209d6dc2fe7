import StratumBridge.Bridge.Footprint
import StratumBridge.Bridge.Stores
import StratumBridge.Interaction.Contract

/-! # Where jobs come from

In merged mode the block of every job is a parent. It is either the answer of the
Kaspa node to a request for the parent's lane, or the synthetic parent of a ZKas
block; and the lane was put into the pending store before the job existed.
-/

namespace StratumBridge

open Interaction

section Model

variable [Platform] {deployment : Deployment}

/-- A record of the calls of a bridge. -/
abbrev Record (deployment : Deployment) := List (bridge deployment).Entry

/-- The Kaspa node was asked for a parent of the lane paying the recipient. -/
def Asked (log : Record deployment) (pay : Address) (hFc : Hash) : Prop :=
  ∃ reply, System.Recorded log (.kaspaTemplate pay (parentExtraData hFc)) reply

/-- The Kaspa node answered such a request with the parent. -/
def Obtained (log : Record deployment) (pay : Address) (hFc : Hash) (parent : Block) : Prop :=
  System.Recorded log (.kaspaTemplate pay (parentExtraData hFc)) (.block parent)

/-- The ZKas node issued the block as a template. -/
def Issued (log : Record deployment) (fcBlock : Block) : Prop :=
  ∃ recipient tag, System.Recorded log (.zkasTemplate recipient tag) (.block fcBlock)

/-- The lane was put into the pending store. -/
def Kept (log : Record deployment) (hFc : Hash) : Prop :=
  ∃ fcBlock paidPool, System.Recorded log (.pending (.insertWithPayee hFc fcBlock paidPool)) ()

/-- Parents commit to the lane they are for: the Kaspa node embeds the extra data of a
request, and the commitment of a synthetic parent reads back. -/
structure Faithful (log : Record deployment) : Prop where
  obtained : ∀ pay hFc parent, Obtained log pay hFc parent → committedHFc parent = some hFc
  synthetic : ∀ fcBlock, committedHFc (buildParentBlock fcBlock).1 = some fcBlock.header.hash

/-- How the parent of a job came about. -/
inductive ParentOrigin (log : Record deployment) : Block → Prop where
  | genuine (pay : Address) (hFc : Hash) (parent : Block) (obtained : Obtained log pay hFc parent)
      (kept : Faithful log → Kept log hFc) : ParentOrigin log parent
  | synthetic (fcBlock : Block) (kept : Kept log fcBlock.header.hash)
      (asked : deployment.settings.kaspaClient = true → ∃ pay, Asked log pay fcBlock.header.hash) :
      ParentOrigin log (buildParentBlock fcBlock).1

/-- A cached parent was obtained for the lane and the payee it is filed under. -/
def CacheSound (log : Record deployment) (entry : CachedParent) : Prop :=
  ∃ pay, entry.payKey = Platform.addressText pay ∧ Obtained log pay entry.hFc entry.parent

def JobSound (log : Record deployment) (job : Job) : Prop :=
  deployment.settings.mergedMining = true → ParentOrigin log job.block

section Facts

variable {log : Record deployment}

theorem Obtained.asked {pay : Address} {hFc : Hash} {parent : Block}
    (obtained : Obtained log pay hFc parent) : Asked log pay hFc := ⟨_, obtained⟩

theorem ParentOrigin.obtained_or_synthetic {parent : Block} (origin : ParentOrigin log parent) :
    (∃ pay hFc, Obtained log pay hFc parent) ∨ ∃ fcBlock, parent = (buildParentBlock fcBlock).1 := by
  cases origin with
  | genuine pay hFc parent obtained kept => exact Or.inl ⟨pay, hFc, obtained⟩
  | synthetic fcBlock kept asked => exact Or.inr ⟨fcBlock, rfl⟩

theorem ParentOrigin.kept {parent : Block} {hFc : Hash} (origin : ParentOrigin log parent)
    (faithful : Faithful log) (commits : committedHFc parent = some hFc) : Kept log hFc := by
  cases origin with
  | genuine pay lane parent obtained kept =>
      rw [faithful.obtained pay lane parent obtained] at commits
      exact Option.some.inj commits ▸ kept faithful
  | synthetic fcBlock kept asked =>
      rw [faithful.synthetic] at commits
      exact Option.some.inj commits ▸ kept

/-- A job on a parent of a lane presupposes a request for the lane. -/
theorem ParentOrigin.asked_of_commits {parent : Block} {hFc : Hash}
    (origin : ParentOrigin log parent) (faithful : Faithful log)
    (client : deployment.settings.kaspaClient = true) (commits : committedHFc parent = some hFc) :
    ∃ pay, Asked log pay hFc := by
  cases origin with
  | genuine pay lane parent obtained kept =>
      rw [faithful.obtained pay lane parent obtained] at commits
      exact ⟨pay, Option.some.inj commits ▸ obtained.asked⟩
  | synthetic fcBlock kept asked =>
      rw [faithful.synthetic] at commits
      exact Option.some.inj commits ▸ asked client

/-- The commitment of a request determines its lane. -/
theorem Faithful.extraData_injective (faithful : Faithful log) :
    Function.Injective parentExtraData := by
  intro first second same
  have reads : ∀ hFc : Hash, Platform.committedHash (Platform.coinbaseTx (parentExtraData hFc)) =
      some hFc :=
    fun hFc => faithful.synthetic ⟨Header.fromPrecomputedHash hFc [], none, []⟩
  have equal := reads first
  rw [same, reads second] at equal
  exact (Option.some.inj equal).symm

theorem Faithful.of_prefix {front : Record deployment} (faithful : Faithful log)
    (shorter : front <+: log) : Faithful front where
  obtained := fun pay hFc parent obtained =>
    faithful.obtained pay hFc parent (System.Recorded.mono obtained shorter)
  synthetic := faithful.synthetic

end Facts

/-! ## The contract -/

/-- What every operation satisfies. -/
def ProvenanceRequires (log : Record deployment) : BridgeOp → Prop
  | .parent (.writeCache entry) => CacheSound log entry
  | .ring _ (.addJob job) => JobSound log job
  | .pending (.insertWithPayee hFc fcBlock _) => hFc = fcBlock.header.hash ∧ Issued log fcBlock
  | _ => True

/-- What answers may be relied on for. -/
def ProvenanceEnsures (log : Record deployment) : (op : BridgeOp) → op.Answer → Prop
  | .parent .readCache, cached => ∀ entry, cached = some entry → CacheSound log entry
  | .ring _ (.getJob _), found => ∀ job, found = some job → JobSound log job
  | .checkPow block nonce, checked => checked = checkPow block.header nonce
  | _, _ => True

/-- Tasks put only sound parents and jobs into the shared state. -/
@[reducible] def provenance (log : Record deployment) : Contract bridgeSignature where
  requires := ProvenanceRequires log
  ensures := fun op answer => System.Recorded log op answer ∧ ProvenanceEnsures log op answer

/-- The kinds of operations the contract asks nothing of. -/
def freeKinds : List Kind := Kind.except [.cache, .addJob, .pendingInsert]

variable {log : Record deployment} {α : Type}

theorem provenance_of_free {op : BridgeOp} (free : op.kind ∈ freeKinds) :
    ProvenanceRequires log op := by
  have noCache : Kind.cache ∉ freeKinds := by decide
  have noJob : Kind.addJob ∉ freeKinds := by decide
  have noInsert : Kind.pendingInsert ∉ freeKinds := by decide
  unfold ProvenanceRequires
  split
  · exact absurd free noCache
  · exact absurd free noJob
  · exact absurd free noInsert
  · trivial

/-- A task within free kinds keeps to the contract. -/
theorem Uses.keepsProvenance {kinds : List Kind} {task : Task α} (uses : Uses kinds task)
    (free : kinds ⊆ freeKinds) : (provenance log).Keeps task fun _ => True := by
  apply Contract.keeps_of_within
  induction task with
  | done result => trivial
  | call op next ih =>
      exact ⟨provenance_of_free (free uses.1), fun answer => ih answer (uses.2 answer)⟩

theorem keeps_call (op : BridgeOp) (required : ProvenanceRequires log op) :
    (provenance log).Keeps (call op) fun answer =>
      System.Recorded log op answer ∧ ProvenanceEnsures log op answer :=
  ⟨required, fun _ ensured => ensured⟩

/-- A single free call. -/
theorem keeps_free (op : BridgeOp) (free : op.kind ∈ freeKinds) :
    (provenance log).Keeps (call op) fun answer => System.Recorded log op answer :=
  ⟨provenance_of_free free, fun _ ensured => ensured.1⟩

/-! ## Parents -/

theorem requestKaspaParent_keeps (hFc : Hash) (pay : Address) :
    (provenance log).Keeps (requestKaspaParent hFc pay) fun result =>
      Asked log pay hFc ∧ ∀ parent, result = .ok parent → Obtained log pay hFc parent := by
  have quiet : Kind.quiet ∈ freeKinds := by decide
  have permits : Kind.permit ∈ freeKinds := by decide
  have asks : Kind.kaspaTemplate ∈ freeKinds := by decide
  refine (keeps_free (.parent .acquirePermit) permits).bind fun _ _ => ?_
  refine (keeps_free (.kaspaTemplate pay (parentExtraData hFc)) asks).bind fun reply sound => ?_
  have asked : Asked log pay hFc := ⟨reply, sound⟩
  cases (reply : TemplateReply) with
  | failed error =>
      exact (keeps_free (.parent .releasePermit) permits).bind fun _ _ =>
        Contract.keeps_done ⟨asked, fun _ absurdity => nomatch absurdity⟩
  | malformed error =>
      exact (keeps_free (.parent .releasePermit) permits).bind fun _ _ =>
        Contract.keeps_done ⟨asked, fun _ absurdity => nomatch absurdity⟩
  | block parent =>
      have obtained : Obtained log pay hFc parent := sound
      refine (keeps_free .now quiet).bind fun now _ => ?_
      have written : CacheSound log ⟨hFc, Platform.addressText pay, parent, now⟩ :=
        ⟨pay, rfl, obtained⟩
      refine (keeps_call (.parent (.writeCache ⟨hFc, Platform.addressText pay, parent, now⟩))
        written).bind fun _ _ => ?_
      refine (keeps_free (.parent .releasePermit) permits).bind fun _ _ => ?_
      apply Contract.keeps_done
      refine ⟨asked, ?_⟩
      intro other same
      cases same
      exact obtained

theorem CachedParent.matching_eq_some {cached : Option CachedParent} {entry : CachedParent}
    {hFc : Hash} {payKey : Text} {force : Bool}
    (matched : CachedParent.matching cached hFc payKey force = some entry) :
    cached = some entry ∧ entry.hFc = hFc ∧ entry.payKey = payKey := by
  obtain ⟨found, conditions⟩ := Option.filter_eq_some_iff.mp matched
  simp only [Bool.and_eq_true, decide_eq_true_eq] at conditions
  exact ⟨found, conditions.1.2, conditions.2⟩

/-- The parent was obtained for the lane, for a recipient that renders like that of the
payee. -/
def FetchedFor (log : Record deployment) (hFc : Hash) (payee : Option Address) (parent : Block) :
    Prop :=
  ∃ recipient pay, parentRecipient deployment.settings payee = some recipient ∧
    Platform.addressText pay = Platform.addressText recipient ∧ Obtained log pay hFc parent

/-- **A fetched parent was requested for this lane and this payee.** -/
theorem fetchKaspaParent_keeps (hFc : Hash) (payee : Option Address) (force : Bool) :
    (provenance log).Keeps (fetchKaspaParent deployment.settings hFc payee force) fun result =>
      (∀ parent, result = .ok parent → FetchedFor log hFc payee parent) ∧
      (deployment.settings.kaspaClient = true → ∃ pay, Asked log pay hFc) := by
  unfold fetchKaspaParent
  split
  case isFalse noClient =>
    apply Contract.keeps_done
    exact ⟨fun _ absurdity => (nomatch absurdity), fun client => absurd client noClient⟩
  case isTrue client =>
    have quiet : Kind.quiet ∈ freeKinds := by decide
    split
    case h_1 missing =>
      have paired := deployment.settings.paired
      rw [client] at paired
      have none : deployment.settings.kaspaPay = none := (Option.or_eq_none_iff.mp missing).2
      rw [none] at paired
      exact nomatch paired
    case h_2 recipient chosen =>
      have requested : (provenance log).Keeps (requestKaspaParent hFc recipient) fun result =>
          (∀ parent, result = .ok parent → FetchedFor log hFc payee parent) ∧
          (deployment.settings.kaspaClient = true → ∃ pay, Asked log pay hFc) := by
        refine (requestKaspaParent_keeps hFc recipient).mono ?_
        intro result sound
        refine ⟨fun parent same => ?_, fun _ => ⟨recipient, sound.1⟩⟩
        exact ⟨recipient, recipient, chosen, rfl, sound.2 parent same⟩
      refine (keeps_call (.parent .readCache) trivial).bind fun cached sound => ?_
      split
      case h_1 entry matched =>
        obtain ⟨found, sameLane, sameKey⟩ := CachedParent.matching_eq_some matched
        obtain ⟨pay, key, obtained⟩ := sound.2 entry found
        rw [sameLane] at obtained
        refine (keeps_free .now quiet).bind fun now _ => ?_
        split
        · apply Contract.keeps_done
          refine ⟨?_, fun _ => ⟨pay, obtained.asked⟩⟩
          intro parent same
          cases same
          exact ⟨recipient, pay, chosen, key.symm.trans sameKey, obtained⟩
        · exact requested
      case h_2 => exact requested

/-! ## Building blocks of publications -/

/-- A job on a sound block may be added, and its announcement is free. -/
theorem publish_keeps {uid : Nat} {block : Block} {prePowHash : Hash} {announce : Nat → Task Unit}
    (origin : deployment.settings.mergedMining = true → ParentOrigin log block)
    (free : ∀ jobId, Uses freeKinds (announce jobId)) :
    (provenance log).Keeps (do
      let jobId : Nat ← call (.ring uid (.addJob ⟨block, prePowHash⟩))
      announce jobId) fun _ => True :=
  (keeps_call (.ring uid (.addJob ⟨block, prePowHash⟩)) origin).bind fun jobId _ =>
    (free jobId).keepsProvenance (List.Subset.refl _)

theorem latestJob_keeps (uid : Nat) :
    (provenance log).Keeps (latestJob uid) fun latest =>
      ∀ id job, latest = some (id, job) → JobSound log job := by
  have reads : Kind.jobRead ∈ freeKinds := by decide
  refine (keeps_free (.ring uid .storedJobIds) reads).bind fun ids _ => ?_
  cases (ids : List Nat).max? with
  | none => exact Contract.keeps_done fun id job absurdity => nomatch absurdity
  | some newest =>
      refine (keeps_call (.ring uid (.getJob newest)) trivial).bind fun found sound => ?_
      apply Contract.keeps_done
      intro id job same
      obtain ⟨resolved, known, pair⟩ := Option.map_eq_some_iff.mp same
      cases pair
      exact sound.2 job known

/-- A job a submission is evaluated on. -/
theorem findJob_keeps (uid jobId : Nat) :
    (provenance log).Keeps (findJob uid jobId) fun found =>
      ∀ id job, found = some (id, job) → JobSound log job := by
  refine (keeps_call (.ring uid (.getJob jobId)) trivial).bind fun (job : Option Job) sound => ?_
  cases job with
  | none => exact latestJob_keeps uid
  | some job =>
      apply Contract.keeps_done
      intro id other same
      cases same
      exact sound.2 job rfl

theorem publishParent_keeps (instanceId uid : Nat) (expectedHFc : Option Hash) {parent : Block}
    (origin : deployment.settings.mergedMining = true → ParentOrigin log parent) :
    (provenance log).Keeps (publishParent instanceId uid expectedHFc parent) fun _ => True := by
  have quiet : Kind.quiet ∈ freeKinds := by decide
  refine (latestJob_keeps uid).bind fun latest _ => ?_
  split
  · exact Contract.keeps_done trivial
  · split
    · split
      · exact Contract.keeps_done trivial
      · exact publish_keeps origin fun jobId =>
          announceParent_uses instanceId uid quiet (by decide) (by decide) ..
    · exact Contract.keeps_done trivial

/-- A refreshed parent was obtained for the lane of the current one. -/
theorem refreshMergedParent_keeps (currentParent : Block) (payee : Option Address) :
    (provenance log).Keeps (refreshMergedParent deployment.settings currentParent payee)
      fun result => ∀ parent, result = .ok (some parent) → ∃ hFc,
        committedHFc currentParent = some hFc ∧ FetchedFor log hFc payee parent := by
  have reads : Kind.unsolvedRead ∈ freeKinds := by decide
  unfold refreshMergedParent
  split
  · split
    case h_1 => exact Contract.keeps_done fun parent absurdity => nomatch absurdity
    case h_2 hFc commits =>
      refine (keeps_free (.pending (.isUnsolved hFc)) reads).bind fun unsolved _ => ?_
      cases (unsolved : Bool) with
      | false => exact Contract.keeps_done fun parent absurdity => nomatch absurdity
      | true =>
          refine (fetchKaspaParent_keeps hFc payee true).bind fun fetched sound => ?_
          apply Contract.keeps_done
          intro parent same
          cases fetched with
          | error error => exact nomatch same
          | ok block =>
              obtain rfl := Option.some.inj (Except.ok.inj same)
              exact ⟨hFc, commits, sound.1 block rfl⟩
  · exact Contract.keeps_done fun parent absurdity => nomatch absurdity

theorem mergedTemplate_keeps (fcBlock : Block) (issued : Issued log fcBlock)
    (kasPayout : Option Address) (laneId : Nat) :
    (provenance log).Keeps (mergedTemplate deployment.settings fcBlock kasPayout laneId)
      (ParentOrigin log) := by
  have quiet : Kind.quiet ∈ freeKinds := by decide
  refine (keeps_free .systemTime quiet).bind fun systemTime _ => ?_
  refine (fetchKaspaParent_keeps _ _ false).bind fun fetched sound => ?_
  refine (keeps_call (.pending (.insertWithPayee _ fcBlock _)) ⟨rfl, issued⟩).bind
    fun _ inserted => ?_
  apply Contract.keeps_done
  have kept : Kept log fcBlock.header.hash := ⟨fcBlock, _, inserted.1⟩
  cases fetched with
  | ok parent =>
      obtain ⟨recipient, pay, -, -, obtained⟩ := sound.1 parent rfl
      exact .genuine pay _ parent obtained fun _ => kept
  | error error => exact .synthetic fcBlock kept sound.2

theorem templateAttempts_keeps (wallet : Text) (sessionUid generation : Nat)
    (kasPayout : Option Address) (laneId remaining : Nat) :
    (provenance log).Keeps
      (templateAttempts deployment.settings wallet sessionUid generation kasPayout laneId remaining)
      fun result => ∀ block, result = .ok block →
        deployment.settings.mergedMining = true → ParentOrigin log block := by
  have failed : ∀ error : Text, (provenance log).Keeps
      (.done (.error error) : Task (Except Text Block)) fun result => ∀ block,
        result = .ok block → deployment.settings.mergedMining = true → ParentOrigin log block :=
    fun error => Contract.keeps_done fun block absurdity => nomatch absurdity
  have asks : Kind.zkasTemplate ∈ freeKinds := by decide
  induction remaining with
  | zero => exact failed _
  | succ remaining ih =>
      unfold templateAttempts
      dsimp only
      split
      · exact failed _
      · refine (keeps_free (.zkasTemplate _ _) asks).bind fun reply recorded => ?_
        cases (reply : TemplateReply) with
        | failed error =>
            dsimp only
            split
            · exact ih
            · exact failed _
        | malformed error =>
            dsimp only
            split
            · exact ih
            · split <;> exact failed _
        | block fcBlock =>
            dsimp only
            split
            · split
              · exact ih
              · exact failed _
            · split
              case isTrue merged =>
                refine (mergedTemplate_keeps fcBlock ⟨_, _, recorded⟩ kasPayout
                  laneId).bind fun parent origin => ?_
                apply Contract.keeps_done
                intro block same _
                cases same
                exact origin
              case isFalse plain =>
                exact Contract.keeps_done fun block _ merged => absurd merged plain

theorem requestTemplate_keeps (uid : Nat) (wallet : Text) :
    (provenance log).Keeps (requestTemplate deployment.settings uid wallet) fun result =>
      ∀ block, result = .ok block → deployment.settings.mergedMining = true →
        ParentOrigin log block := by
  have quiet : Kind.quiet ∈ freeKinds := by decide
  have draws : Kind.generation ∈ freeKinds := by decide
  have reads : Kind.payoutRead ∈ freeKinds := by decide
  refine (keeps_free (.context uid .nextTemplateGeneration) draws).bind fun generation _ => ?_
  refine (keeps_free (.context uid .kasPayout) reads).bind fun kasPayout _ => ?_
  exact templateAttempts_keeps wallet uid generation kasPayout uid 3

/-! ## Publications -/

theorem buildImmediate_keeps (instanceId uid : Nat) (initialDiff : ℚ) :
    (provenance log).Keeps (buildImmediate deployment.settings instanceId uid initialDiff)
      fun _ => True := by
  have quiet : Kind.quiet ∈ freeKinds := by decide
  refine ((walletAddr_uses quiet uid).keepsProvenance (List.Subset.refl _)).bind fun wallet _ => ?_
  refine ((remoteApp_uses quiet uid).keepsProvenance (List.Subset.refl _)).bind fun app _ => ?_
  refine (requestTemplate_keeps uid wallet).bind fun template sound => ?_
  cases template with
  | error error =>
      exact (templateFailed_uses instanceId uid quiet wallet error).keepsProvenance
        (List.Subset.refl _)
  | ok block =>
      refine (keeps_free (.ring uid (.setBigDiff _)) quiet).bind fun _ _ => ?_
      split
      · exact (uses_quiet quiet _ rfl).keepsProvenance (List.Subset.refl _)
      · exact publish_keeps (sound block rfl) fun jobId =>
          announceImmediate_uses deployment.settings instanceId uid quiet (by decide) (by decide)
            (by decide) (by decide) ..

theorem buildNewBlock_keeps (instanceId uid : Nat) (seed : ℚ) :
    (provenance log).Keeps (buildNewBlock deployment.settings instanceId uid seed)
      fun _ => True := by
  have quiet : Kind.quiet ∈ freeKinds := by decide
  refine ((walletAddr_uses quiet uid).keepsProvenance (List.Subset.refl _)).bind fun wallet _ => ?_
  refine ((remoteApp_uses quiet uid).keepsProvenance (List.Subset.refl _)).bind fun app _ => ?_
  refine (requestTemplate_keeps uid wallet).bind fun template sound => ?_
  cases template with
  | error error =>
      exact (templateFailed_uses instanceId uid quiet wallet error).keepsProvenance
        (List.Subset.refl _)
  | ok block =>
      refine (keeps_free (.ring uid (.setBigDiff _)) quiet).bind fun _ _ => ?_
      split
      · exact (uses_quiet quiet _ rfl).keepsProvenance (List.Subset.refl _)
      · exact publish_keeps (sound block rfl) fun jobId =>
          announceNewBlock_uses deployment.settings instanceId uid quiet (by decide) (by decide)
            (by decide) (by decide) ..

theorem sendImmediateJobToClient_keeps (uid : Nat) :
    (provenance log).Keeps (sendImmediateJobToClient deployment.settings uid) fun _ => True := by
  have quiet : Kind.quiet ∈ freeKinds := by decide
  have locks : Kind.buildLock ∈ freeKinds := by decide
  have sets : Kind.setDiff ∈ freeKinds := by decide
  refine (keeps_free (.context uid .read) quiet).bind fun context _ => ?_
  refine ((registerClientVardiff_uses _ uid quiet _).keepsProvenance (List.Subset.refl _)).bind
    fun initialDiff _ => ?_
  refine (keeps_free (.ring uid (.setStratumDiff _)) sets).bind fun _ _ => ?_
  refine (keeps_free (.context uid .lockJobBuild) locks).bind fun _ _ => ?_
  refine (buildImmediate_keeps _ uid initialDiff).bind fun _ _ => ?_
  exact (keeps_free (.context uid .unlockJobBuild) locks).mono fun _ _ => trivial

theorem newBlockAvailable_keeps (uid : Nat) :
    (provenance log).Keeps (newBlockAvailable deployment.settings uid) fun _ => True := by
  have quiet : Kind.quiet ∈ freeKinds := by decide
  have locks : Kind.buildLock ∈ freeKinds := by decide
  have unlock : (provenance log).Keeps (call (.context uid .unlockJobBuild)) fun _ => True :=
    (keeps_free (.context uid .unlockJobBuild) locks).mono fun _ _ => trivial
  refine (keeps_free (.context uid .tryLockJobBuild) locks).bind fun locked _ => ?_
  cases (locked : Bool) with
  | false => exact Contract.keeps_done trivial
  | true =>
      refine (keeps_free (.context uid .read) quiet).bind fun (context : Context) _ => ?_
      by_cases missing : context.walletAddr = []
      · simp only [if_pos missing]
        exact ((skipWithoutWallet_uses _ uid quiet _).keepsProvenance (List.Subset.refl _)).bind
          fun _ _ => unlock
      · simp only [if_neg missing]
        exact (buildNewBlock_keeps _ uid _).bind fun _ _ => unlock

theorem refreshParent_keeps (instanceId uid : Nat) {job : Job} (sound : JobSound log job) :
    (provenance log).Keeps (refreshParent deployment.settings instanceId uid job)
      fun _ => True := by
  have locks : Kind.buildLock ∈ freeKinds := by decide
  have reads : Kind.payoutRead ∈ freeKinds := by decide
  refine (keeps_free (.context uid .kasPayout) reads).bind fun payee _ => ?_
  refine (refreshMergedParent_keeps job.block payee).bind fun refreshed obtained => ?_
  split
  case h_1 parent =>
    obtain ⟨hFc, commits, recipient, pay, -, -, answered⟩ := obtained parent rfl
    have origin : deployment.settings.mergedMining = true → ParentOrigin log parent := by
      intro merged
      exact .genuine pay hFc parent answered fun faithful => (sound merged).kept faithful commits
    refine (keeps_free (.context uid .tryLockJobBuild) locks).bind fun locked _ => ?_
    cases (locked : Bool) with
    | false => exact Contract.keeps_done trivial
    | true =>
        refine (publishParent_keeps instanceId uid _ origin).bind fun _ _ => ?_
        exact (keeps_free (.context uid .unlockJobBuild) locks).mono fun _ _ => trivial
  case h_2 => exact Contract.keeps_done trivial

theorem newParentAvailable_keeps (uid : Nat) :
    (provenance log).Keeps (newParentAvailable deployment.settings uid) fun _ => True := by
  have quiet : Kind.quiet ∈ freeKinds := by decide
  have gates : Kind.refreshGate ∈ freeKinds := by decide
  have release : (provenance log).Keeps (call (.context uid .releaseParentRefresh))
      fun _ => True :=
    (keeps_free (.context uid .releaseParentRefresh) gates).mono fun _ _ => trivial
  refine (keeps_free (.context uid .read) quiet).bind fun context _ => ?_
  split
  · exact Contract.keeps_done trivial
  · refine ((tryParentRefresh_uses uid quiet gates _).keepsProvenance (List.Subset.refl _)).bind
      fun permitted _ => ?_
    cases permitted with
    | false => exact Contract.keeps_done trivial
    | true =>
        refine (latestJob_keeps uid).bind fun latest sound => ?_
        cases latest with
        | none => exact release
        | some latest =>
            exact (refreshParent_keeps _ uid (sound latest.1 latest.2 rfl)).bind
              fun _ _ => release

theorem answerAuthorization_keeps (uid : Nat) (eventId : Option Value) :
    (provenance log).Keeps (answerAuthorization deployment.settings uid eventId)
      fun _ => True := by
  have quiet : Kind.quiet ∈ freeKinds := by decide
  have self : freeKinds ⊆ freeKinds := List.Subset.refl _
  refine ((answer_uses (by decide) uid rfl).keepsProvenance self).bind fun replied _ => ?_
  cases replied with
  | error error => exact Contract.keeps_done trivial
  | ok _ =>
      refine ((sendAuthorizedExtranonce_uses deployment.settings uid quiet
        (by decide)).keepsProvenance self).bind fun extranonce _ => ?_
      cases extranonce with
      | error error => exact Contract.keeps_done trivial
      | ok _ =>
          exact (sendImmediateJobToClient_keeps uid).bind fun _ _ =>
            Contract.keeps_done trivial

theorem authorize_keeps (uid : Nat) (eventId : Option Value) (identity : Text)
    (password : Option Text) :
    (provenance log).Keeps (authorize deployment.settings uid eventId identity password)
      fun _ => True := by
  have quiet : Kind.quiet ∈ freeKinds := by decide
  have registers : Kind.registration ∈ freeKinds := by decide
  have self : freeKinds ⊆ freeKinds := List.Subset.refl _
  refine (keeps_free (.context uid .read) quiet).bind fun context _ => ?_
  refine ((authorizedWallet_uses deployment.settings _ uid quiet _).keepsProvenance self).bind
    fun wallet _ => ?_
  refine ((deactivateClientVardiff_uses _ uid quiet registers).keepsProvenance self).bind
    fun _ _ => ?_
  refine ((storeIdentity_uses uid quiet (by decide) wallet _).keepsProvenance self).bind
    fun label _ => ?_
  refine ((walletAddr_uses quiet uid).keepsProvenance self).bind fun stored _ => ?_
  refine ((registerIdentity_uses _ uid quiet registers _).keepsProvenance self).bind
    fun _ _ => ?_
  refine ((remoteApp_uses quiet uid).keepsProvenance self).bind fun app _ => ?_
  refine ((storePayouts_uses uid quiet (by decide) _ _).keepsProvenance self).bind fun _ _ => ?_
  refine ((openSession_uses uid quiet (by decide) (by decide) wallet label app).keepsProvenance
    self).bind fun _ _ => ?_
  exact answerAuthorization_keeps uid eventId

theorem handleAuthorize_keeps (uid : Nat) (event : SubmitEvent) :
    (provenance log).Keeps (handleAuthorize deployment.settings uid event) fun _ => True := by
  unfold handleAuthorize
  split
  · exact Contract.keeps_done trivial
  · exact authorize_keeps uid _ _ _

/-! ## The whole bridge -/

/-- What the result of a request says: a fetched parent is one for the lane and payee of
the request. -/
def ResultSound (log : Record deployment) : BridgeRequest → BridgeResult → Prop
  | .fetchKaspaParent hFc payee _, .parent (.ok parent) => FetchedFor log hFc payee parent
  | _, _ => True

theorem bridgeProgram_keeps (request : BridgeRequest) :
    (provenance log).Keeps (bridgeProgram deployment.settings request) (ResultSound log request) := by
  have quiet : Kind.quiet ∈ freeKinds := by decide
  cases request with
  | fetchKaspaParent hFc payee force =>
      refine (fetchKaspaParent_keeps hFc payee force).bind fun result sound => ?_
      apply Contract.keeps_done
      cases result with
      | error error => trivial
      | ok parent => exact sound.1 parent rfl
  | submit uid event =>
      exact ((handleSubmit_uses deployment.settings uid event).keepsProvenance (by decide)).bind
        fun _ _ => Contract.keeps_done trivial
  | authorize uid event =>
      exact (handleAuthorize_keeps uid event).bind fun _ _ => Contract.keeps_done trivial
  | immediateJob uid =>
      exact (sendImmediateJobToClient_keeps uid).bind fun _ _ =>
        Contract.keeps_done trivial
  | newBlock uid =>
      exact (newBlockAvailable_keeps uid).bind fun _ _ => Contract.keeps_done trivial
  | newParent uid =>
      exact (newParentAvailable_keeps uid).bind fun _ _ => Contract.keeps_done trivial
  | retarget instanceId key next =>
      exact ((retarget_uses instanceId quiet key next).keepsProvenance (List.Subset.refl _)).bind
        fun _ _ => Contract.keeps_done trivial
  | connect =>
      exact ((acceptConnection_uses quiet (by decide) (by decide) (by decide)).keepsProvenance
        (List.Subset.refl _)).bind fun _ _ => Contract.keeps_done trivial
  | createStats uid =>
      exact ((createStatsLater_uses uid quiet).keepsProvenance (List.Subset.refl _)).bind
        fun _ _ => Contract.keeps_done trivial
  | subscribe uid event =>
      exact ((handleSubscribe_uses deployment.settings uid quiet (by decide) (by decide)
        (by decide) event).keepsProvenance (List.Subset.refl _)).bind fun _ _ => Contract.keeps_done trivial
  | disconnect uid =>
      exact ((onDisconnect_uses uid quiet (by decide) (by decide) (by decide)
        (by decide)).keepsProvenance (List.Subset.refl _)).bind
          fun _ _ => Contract.keeps_done trivial
  | pruneStats instanceId =>
      exact ((pruneStats_uses instanceId quiet (by decide)).keepsProvenance
        (List.Subset.refl _)).bind fun _ _ => Contract.keeps_done trivial
  | confirmBlock instanceId handle worker hash nonce blueScore =>
      exact ((confirmBlock_uses instanceId quiet (by decide) (by decide) ..).keepsProvenance
        (List.Subset.refl _)).bind fun _ _ => Contract.keeps_done trivial

/-- **Provenance.** The contract holds in every run. -/
theorem provenance_execute (events : List (bridge deployment).Event) :
    @System.ContractHolds (bridge deployment) (provenance (System.execute events).log)
      (ResultSound (System.execute events).log) (System.execute events).log := by
  apply System.contractHolds_execute (bridgeProgram_keeps)
  rintro front ⟨rest, rfl⟩ required thread op answer member
  have recorded : System.Recorded (System.execute (front ++ rest)).log op answer :=
    ⟨thread, (System.log_grows front rest).subset member⟩
  refine ⟨recorded, ?_⟩
  obtain ⟨before, after, split⟩ := List.append_of_mem member
  cases op with
  | parent op =>
      cases op with
      | readCache =>
          intro entry read
          obtain ⟨writer, wrote, reply, earlier, rfl⟩ :=
            cacheStorage.written_before front entry split read
          exact required writer _ reply (split ▸ List.mem_append_left _ earlier)
      | writeCache entry | acquirePermit | releasePermit => trivial
  | ring uid op =>
      cases op with
      | getJob id =>
          intro job read
          obtain ⟨writer, wrote, reply, earlier, rfl⟩ :=
            jobStorage.written_before front (uid, job) split ⟨rfl, read⟩
          exact required writer _ reply (split ▸ List.mem_append_left _ earlier)
      | _ => trivial
  | checkPow block nonce =>
      obtain ⟨_, _, _, _, _, _, env, state, performed⟩ := System.exists_calls_of_did split
      cases performed
      rfl
  | _ => trivial

end Model

/-! ## Sample runs -/

namespace Sample

attribute [local instance] Sample.platform

/-- A parent the Kaspa node answered, with the extra data of the request. -/
def answeredParent : (op : BridgeOp) → op.Answer → Option (List Byte × Block)
  | .kaspaTemplate _ extraData, .block parent => some (extraData, parent)
  | _, _ => none

/-- On the sample platform it is enough that every answer commits to what was asked. -/
theorem faithful {payout : Option Text} {log : Record (deployment payout)}
    (commits : ∀ item ∈ System.callsOf answeredParent log,
      (committedHFc item.2).map parentExtraData = some item.1) : Faithful log where
  obtained := by
    intro pay hFc parent ⟨thread, member⟩
    obtain ⟨lane, found, same⟩ := Option.map_eq_some_iff.mp
      (commits _ (System.mem_callsOf.mpr ⟨thread, _, _, member, rfl⟩))
    have embedded : some lane = some hFc := by
      rw [← committedHash_embed lane, ← committedHash_embed hFc]
      exact congrArg committedHash same
    rw [found, embedded]
  synthetic := fun fcBlock => committedHash_embed fcBlock.header.hash

end Sample

end StratumBridge
