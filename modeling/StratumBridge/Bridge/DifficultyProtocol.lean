import StratumBridge.Bridge.Footprint
import StratumBridge.Foundation.Announcement
import StratumBridge.Interaction.Observation

/-! # How a publication tells the difficulty of its job

A publication adds its job to the ring, which keeps the difficulty then on record with it. An
immediate publication tells the difficulty on record after that, a new-block publication tells one
it sets on first use or on a pending change, and a parent refresh tells none.
-/

namespace StratumBridge

open Interaction Announcement

variable [Platform] {deployment : Deployment}

/-- The three publication paths. -/
inductive PublicationPath where
  | immediate
  | newBlock
  | parent
deriving DecidableEq

/-- The connection a task publishes on, and its path. -/
def BridgeRequest.publishes : BridgeRequest → Option (Nat × PublicationPath)
  | .authorize uid _ | .immediateJob uid => some (uid, .immediate)
  | .newBlock uid => some (uid, .newBlock)
  | .newParent uid => some (uid, .parent)
  | _ => none

/-- How far a task is with its publication. -/
structure Posting where
  owner : Option (Nat × PublicationPath)
  /-- It stored a difficulty. -/
  primed : Bool
  /-- The job it added and has not sent. -/
  draft : Option (Draft KaspaDiff)

namespace Posting

def idle (owner : Option (Nat × PublicationPath)) : Posting := ⟨owner, false, none⟩

def see (posting : Posting) (diff : Option KaspaDiff) : Posting :=
  { posting with draft := posting.draft.map (Draft.see · diff) }

def tell (posting : Posting) (announced : Bool) : Posting :=
  { posting with draft := posting.draft.map (Draft.tell · announced) }

/-- What a call leaves of a publication. A new-block publication on an initialized connection
counts on the difficulty told before. -/
def next (posting : Posting) : (op : BridgeOp) → op.Answer → Posting
  | .ring _ (.addJob _), id =>
      { posting with draft := some (.fresh id (posting.owner.any fun own => own.2 = .parent)) }
  | .ring _ (.setStratumDiff diff), _ => { posting.see (some diff) with primed := true }
  | .ring _ .stratumDiff, diff => posting.see diff
  | .ring uid .isInitialized, initialized =>
      posting.tell (initialized && decide (posting.owner = some (uid, .newBlock)))
  | .send _ (.setDifficulty _), delivered => posting.tell delivered
  | .send _ (.notify _ _ _), _ | .context _ .unlockJobBuild, _ => { posting with draft := none }
  | _, _ => posting

theorem next_owner (posting : Posting) (op : BridgeOp) (answer : op.Answer) :
    (posting.next op answer).owner = posting.owner := by
  unfold next
  split <;> rfl

end Posting

/-- A task publishes on its own connection only. It tells the difficulty it saw last, and sends the
job it added once the difficulty is told. -/
def PostingPermits (settings : Settings) (posting : Posting) : BridgeOp → Prop
  | .ring uid (.addJob _) => ∃ path, posting.owner = some (uid, path) ∧
      (path = .immediate → posting.primed = true)
  | .ring uid (.setStratumDiff diff) => (∃ path, posting.owner = some (uid, path)) ∧
      diff = .ofDiffValue settings.targetCalculation diff.diffValue
  | .ring uid .stratumDiff => ∀ own ∈ posting.owner, own.1 = uid
  | .send uid (.setDifficulty value) => ∃ path draft seen, posting.owner = some (uid, path) ∧
      path ≠ .parent ∧ posting.draft = some draft ∧ draft.seen = some seen ∧
        ∀ diff ∈ seen, diff.diffValue = value
  | .send uid (.notify id _ _) => ∃ path draft, posting.owner = some (uid, path) ∧
      posting.draft = some draft ∧ draft.label = id ∧ draft.told = true
  | .context uid .unlockJobBuild => ∀ own ∈ posting.owner, own.1 = uid
  | _ => True

/-- The observer of a publication. -/
@[reducible] def postings (settings : Settings) : Monitor bridgeSignature where
  Ghost := Posting
  allowed := PostingPermits settings
  answers := fun _ _ => True
  next := Posting.next

section Rules

variable {settings : Settings} {posting : Posting} {α β : Type}

/-- The kinds of operations that neither add, store, read nor tell a difficulty. -/
def plainKinds : List Kind :=
  Kind.except [.addJob, .setDiff, .diffRead, .sendDiff, .sendNotify, .buildLock]

omit [Platform] in
theorem quiet_plain : Kind.quiet ∈ plainKinds := by decide

omit [Platform] in
theorem tell_tell (first second : Bool) :
    (posting.tell first).tell second = posting.tell (first || second) := by
  obtain ⟨owner, primed, draft⟩ := posting
  cases draft with
  | none => rfl
  | some draft => simp [Posting.tell, Draft.tell, Bool.or_assoc]

omit [Platform] in
theorem tell_false : posting.tell false = posting := by
  obtain ⟨owner, primed, draft⟩ := posting
  cases draft with
  | none => rfl
  | some draft => simp [Posting.tell, Draft.tell]

/-- An operation of a plain kind is allowed, and at most counts on what was told. -/
theorem posting_plain {op : BridgeOp} (plain : op.kind ∈ plainKinds) :
    PostingPermits settings posting op ∧
      ∀ answer, ∃ announced, posting.next op answer = posting.tell announced := by
  have noAdd : Kind.addJob ∉ plainKinds := by decide
  have noSet : Kind.setDiff ∉ plainKinds := by decide
  have noRead : Kind.diffRead ∉ plainKinds := by decide
  have noTell : Kind.sendDiff ∉ plainKinds := by decide
  have noSend : Kind.sendNotify ∉ plainKinds := by decide
  have noLock : Kind.buildLock ∉ plainKinds := by decide
  constructor
  · unfold PostingPermits
    split
    · exact absurd plain noAdd
    · exact absurd plain noSet
    · exact absurd plain noRead
    · exact absurd plain noTell
    · exact absurd plain noSend
    · exact absurd plain noLock
    · trivial
  · intro answer
    unfold Posting.next
    split
    · exact absurd plain noAdd
    · exact absurd plain noSet
    · exact absurd plain noRead
    · exact ⟨_, rfl⟩
    · exact absurd plain noTell
    · exact absurd plain noSend
    · exact absurd plain noLock
    · exact ⟨false, tell_false.symm⟩

/-- A task of plain kinds at most counts on what was told. -/
theorem Uses.posts {task : Task α} (uses : Uses plainKinds task) :
    (postings settings).Follows posting task fun after _ =>
      ∃ announced, after = posting.tell announced := by
  induction task generalizing posting with
  | done result => exact ⟨false, tell_false.symm⟩
  | call op next ih =>
      obtain ⟨permitted, moves⟩ := posting_plain uses.1
      refine ⟨permitted, fun answer _ => ?_⟩
      obtain ⟨first, moved⟩ := moves answer
      change (postings settings).Follows (posting.next op answer) (next answer) _
      rw [moved]
      apply (ih answer (uses.2 answer)).mono
      rintro _ _ ⟨second, rfl⟩
      exact ⟨first || second, tell_tell first second⟩

/-- Plain calls, then the rest. -/
theorem posting_skip {first : Task α} {rest : α → Task β} {post : Posting → β → Prop}
    (uses : Uses plainKinds first)
    (tail : ∀ announced result,
      (postings settings).Follows (posting.tell announced) (rest result) post) :
    (postings settings).Follows posting (first >>= rest) post := by
  apply uses.posts.bind
  rintro _ result ⟨announced, rfl⟩
  exact tail announced result

/-- A task keeps the connection it publishes on. -/
theorem posting_owned {task : Task α} {post : Posting → α → Prop}
    (follows : (postings settings).Follows posting task post) :
    (postings settings).Follows posting task fun after result =>
      post after result ∧ after.owner = posting.owner := by
  induction task generalizing posting with
  | done result => exact ⟨follows, rfl⟩
  | call op next ih =>
      refine ⟨follows.1, fun answer known => ?_⟩
      apply (ih answer (follows.2 answer known)).mono
      rintro after result ⟨holds, same⟩
      exact ⟨holds, same.trans (Posting.next_owner posting op answer)⟩

/-- A plain end. -/
theorem posting_end {task : Task α} (uses : Uses plainKinds task) :
    (postings settings).Follows posting task fun _ _ => True :=
  uses.posts.mono fun _ _ _ => trivial

end Rules

/-! ## Telling and sending -/

section Announcing

variable {α β : Type} {settings : Settings} {instanceId uid id : Nat} {path : PublicationPath} {primed told : Bool}
  {seen : Option (Option KaspaDiff)}

/-- A difficulty that was seen is told. -/
theorem sendClientDiff_posts {diff : Option KaspaDiff} {value : ℚ} (follows : path ≠ .parent)
    (shown : ∀ stored ∈ diff, stored.diffValue = value) :
    (postings settings).Follows ⟨some (uid, path), primed, some ⟨id, told, some diff⟩⟩
      (sendClientDiff instanceId uid value) fun after sent =>
        ∃ announced, after = ⟨some (uid, path), primed, some ⟨id, told || announced, some diff⟩⟩ ∧
          (sent = true → announced = true) := by
  refine ⟨⟨path, _, diff, rfl, follows, rfl, rfl, shown⟩, fun delivered _ => ?_⟩
  cases (delivered : Bool) with
  | true => exact ⟨true, rfl, fun _ => rfl⟩
  | false =>
      apply posting_skip (walletAddr_uses quiet_plain uid)
      intro first wallet
      apply posting_skip (uses_quiet quiet_plain _ rfl)
      intro second _
      refine ⟨first || second, ?_, fun absurdity => (nomatch absurdity)⟩
      change ((Posting.tell _ false).tell first).tell second = _
      rw [tell_false, tell_tell]
      rfl

/-- A job whose difficulty is told is sent. -/
theorem sendNotify_posts (params : JobParams) (minimal : Bool) :
    (postings settings).Follows ⟨some (uid, path), primed, some ⟨id, true, seen⟩⟩
      (sendNotify uid id params minimal) fun _ _ => True :=
  ⟨⟨path, _, rfl, rfl, rfl, rfl⟩, fun _ _ => trivial⟩

theorem setStratumDiff_posts (diff : ℚ) :
    (postings settings).Follows ⟨some (uid, path), primed, some ⟨id, told, seen⟩⟩
      (setStratumDiff settings uid diff) fun after _ => after = ⟨some (uid, path), true,
        some ⟨id, told, some (some (.ofDiffValue settings.targetCalculation diff))⟩⟩ :=
  ⟨⟨⟨path, rfl⟩, rfl⟩, fun _ _ => rfl⟩

theorem initializeState_posts (app : Text) (diff : ℚ) :
    (postings settings).Follows ⟨some (uid, path), primed, some ⟨id, told, seen⟩⟩
      (initializeState settings instanceId uid app diff) fun after _ => ∃ announced,
        after = ⟨some (uid, path), true,
          some ⟨id, announced, some (some (.ofDiffValue settings.targetCalculation diff))⟩⟩ := by
  apply posting_skip (uses_quiet quiet_plain (.ring uid .setInitialized) rfl)
  intro _ _
  apply posting_skip (uses_quiet quiet_plain (.ring uid (.setUseBigJob _)) rfl)
  intro _ _
  apply (setStratumDiff_posts diff).bind
  rintro _ _ rfl
  apply (updateWorkerDifficulty_uses instanceId uid quiet_plain app diff).posts.mono
  rintro _ _ ⟨announced, rfl⟩
  exact ⟨told || _ || _ || announced, rfl⟩

section Sending

variable (wallet app : Text) (block : Block) (prePowHash : Hash)

theorem sendImmediate_posts (follows : path ≠ .parent) (initialDiff : ℚ) :
    (postings settings).Follows ⟨some (uid, path), primed, some ⟨id, told, seen⟩⟩
      (sendImmediate instanceId uid wallet app initialDiff block prePowHash id) fun _ _ => True := by
  refine ⟨fun own inOwner => ?_, fun stored _ => ?_⟩
  · cases inOwner
    rfl
  apply posting_skip (updateWorkerDifficulty_uses instanceId uid quiet_plain app _)
  intro _ _
  apply (sendClientDiff_posts follows ?_).bind
  · rintro _ sent ⟨announced, rfl, reached⟩
    cases sent with
    | false => trivial
    | true =>
        obtain rfl := reached rfl
        rw [Bool.or_true]
        apply posting_skip (uses_quiet quiet_plain (.ring uid .useBigJob) rfl)
        intro _ useBigJob
        apply (sendNotify_posts _ _).bind
        intro _ notified _
        exact posting_end (recordNotified_uses instanceId uid quiet_plain wallet notified)
  · rintro diff inStored
    cases inStored
    rfl

theorem announceImmediate_posts (follows : path ≠ .parent) (initialDiff : ℚ) :
    (postings settings).Follows ⟨some (uid, path), primed, some ⟨id, told, seen⟩⟩
      (announceImmediate settings instanceId uid wallet app initialDiff block prePowHash id)
      fun _ _ => True := by
  refine ⟨trivial, fun initialized _ => ?_⟩
  cases (initialized : Bool) with
  | true => exact sendImmediate_posts wallet app block prePowHash follows initialDiff
  | false =>
      apply (initializeState_posts app initialDiff).bind
      rintro _ _ ⟨announced, rfl⟩
      exact sendImmediate_posts wallet app block prePowHash follows initialDiff

end Sending

/-! ## The three paths -/

theorem getClientVardiff_posts :
    (postings settings).Follows ⟨some (uid, path), primed, some ⟨id, told, seen⟩⟩
      (getClientVardiff instanceId uid) fun after _ => ∃ announced shown,
        after = ⟨some (uid, path), primed, some ⟨id, told || announced, shown⟩⟩ := by
  apply posting_skip (getStatsIfExists_uses quiet_plain instanceId uid)
  intro announced found
  cases found with
  | some handle => exact ⟨trivial, fun _ _ => ⟨announced, seen, rfl⟩⟩
  | none =>
      refine ⟨fun own inOwner => ?_, fun stored _ => ⟨announced, some stored, rfl⟩⟩
      cases inOwner
      rfl

/-- A change that is applied is told. -/
theorem applyVardiff_posts (follows : path ≠ .parent) :
    (postings settings).Follows ⟨some (uid, path), primed, some ⟨id, true, seen⟩⟩
      (applyVardiff settings instanceId uid) fun after _ => ∃ stored shown,
        after = ⟨some (uid, path), stored, some ⟨id, true, shown⟩⟩ := by
  refine ⟨fun own inOwner => ?_, fun stored _ => ?_⟩
  · cases inOwner
    rfl
  cases (stored : Option KaspaDiff) with
  | none => exact ⟨primed, _, rfl⟩
  | some stratumDiff =>
      apply getClientVardiff_posts.bind
      rintro _ found ⟨_, shown, rfl⟩
      have changed : ∀ (posting : Posting), (∃ seen, posting =
          ⟨some (uid, path), primed, some ⟨id, true, seen⟩⟩) → ∀ varDiff : ℚ,
            (postings settings).Follows posting
              (if varDiff = stratumDiff.diffValue then (pure true : Task Bool)
                else do
                  let app ← remoteApp uid
                  setStratumDiff settings uid varDiff
                  updateWorkerDifficulty instanceId uid app varDiff
                  let sent ← sendClientDiff instanceId uid varDiff
                  if sent then do
                    startClientVardiff instanceId uid
                    return true
                  else return false) fun after _ => ∃ stored shown,
                    after = ⟨some (uid, path), stored, some ⟨id, true, shown⟩⟩ := by
        rintro _ ⟨seen, rfl⟩ varDiff
        split
        · exact ⟨primed, seen, rfl⟩
        · apply posting_skip (remoteApp_uses quiet_plain uid)
          intro _ app
          apply (setStratumDiff_posts varDiff).bind
          rintro _ _ rfl
          apply posting_skip (updateWorkerDifficulty_uses instanceId uid quiet_plain app varDiff)
          intro _ _
          apply (sendClientDiff_posts follows ?_).bind
          · rintro _ sent ⟨announced, rfl, -⟩
            cases sent with
            | false => exact ⟨true, _, rfl⟩
            | true =>
                apply posting_skip (startClientVardiff_uses instanceId uid quiet_plain)
                intro _ _
                exact ⟨true, _, rfl⟩
          · rintro diff inSeen
            cases inSeen
            rfl
      dsimp only
      split
      · apply posting_skip (setClientVardiff_uses instanceId uid quiet_plain _)
        intro _ _
        apply posting_skip (startClientVardiff_uses instanceId uid quiet_plain)
        intro _ _
        exact changed _ ⟨shown, rfl⟩ _
      · exact changed _ ⟨shown, rfl⟩ _

theorem announceDifficulty_posts (app : Text) (initialDiff : ℚ) :
    (postings settings).Follows ⟨some (uid, .newBlock), primed, some ⟨id, told, seen⟩⟩
      (announceDifficulty settings instanceId uid app initialDiff) fun after announced =>
        announced = true → ∃ stored shown,
          after = ⟨some (uid, .newBlock), stored, some ⟨id, true, shown⟩⟩ := by
  have follows : PublicationPath.newBlock ≠ .parent := by decide
  refine ⟨trivial, fun initialized _ => ?_⟩
  cases (initialized : Bool) with
  | true =>
      have counts : Posting.next ⟨some (uid, .newBlock), primed, some ⟨id, told, seen⟩⟩
          (BridgeOp.ring uid .isInitialized) (true : Bool) =
            ⟨some (uid, .newBlock), primed, some ⟨id, true, seen⟩⟩ := by
        simp [Posting.next, Posting.tell, Draft.tell]
      change (postings settings).Follows (Posting.next _ (BridgeOp.ring uid .isInitialized) _) _ _
      rw [counts]
      apply (applyVardiff_posts follows).mono
      intro after _ told _
      exact told
  | false =>
      apply (initializeState_posts app initialDiff).bind
      rintro _ _ ⟨announced, rfl⟩
      apply (sendClientDiff_posts follows ?_).mono
      · rintro _ sent ⟨told, rfl, reached⟩ isSent
        obtain rfl := reached isSent
        rw [Bool.or_true]
        exact ⟨true, _, rfl⟩
      · rintro diff inSeen
        cases inSeen
        rfl

theorem announceNewBlock_posts (wallet app : Text) (seed : ℚ) (block : Block) (prePowHash : Hash) :
    (postings settings).Follows ⟨some (uid, .newBlock), primed, some ⟨id, told, seen⟩⟩
      (announceNewBlock settings instanceId uid wallet app seed block prePowHash id)
      fun _ _ => True := by
  apply posting_skip (registerClientVardiff_uses instanceId uid quiet_plain seed)
  intro _ initialDiff
  apply (announceDifficulty_posts app initialDiff).bind
  intro after announced counts
  cases announced with
  | false => trivial
  | true =>
      obtain ⟨stored, shown, rfl⟩ := counts rfl
      apply posting_skip (remoteApp_uses quiet_plain uid)
      intro _ app
      apply posting_skip (uses_quiet quiet_plain (.ring uid .useBigJob) rfl)
      intro _ useBigJob
      apply posting_skip (remoteApp_uses quiet_plain uid)
      intro _ current
      apply (sendNotify_posts _ _).bind
      intro _ notified _
      exact posting_end (recordNotified_uses instanceId uid quiet_plain wallet notified)

theorem announceParent_posts (parent : Block) (prePowHash : Hash) :
    (postings settings).Follows ⟨some (uid, path), primed, some ⟨id, true, seen⟩⟩
      (announceParent instanceId uid parent prePowHash id) fun _ _ => True := by
  apply posting_skip (remoteApp_uses quiet_plain uid)
  intro _ app
  apply posting_skip (uses_quiet quiet_plain (.ring uid .useBigJob) rfl)
  intro _ useBigJob
  apply (sendNotify_posts _ _).bind
  intro _ sent _
  exact posting_end (recordRefreshed_uses instanceId uid quiet_plain (by decide) app sent)

/-! ## Whole publications -/

/-- What is published under the lock, and the lock given back. -/
theorem unlock_posts {posting : Posting} {first : Task α} {rest : Task β}
    (own : posting.owner = some (uid, path))
    (publishes : (postings settings).Follows posting first fun _ _ => True)
    (plain : Uses plainKinds rest) :
    (postings settings).Follows posting
      (first >>= fun _ => call (.context uid .unlockJobBuild) >>= fun _ => rest) fun _ _ => True := by
  apply (posting_owned publishes).bind
  rintro after _ ⟨-, same⟩
  refine ⟨fun other inOwner => ?_, fun _ _ => posting_end plain⟩
  rw [same, own] at inOwner
  cases inOwner
  rfl

theorem requestTemplate_plain (wallet : Text) :
    Uses plainKinds (requestTemplate settings uid wallet) := by
  have draws : Kind.generation ∈ plainKinds := by decide
  have reads : Kind.payoutRead ∈ plainKinds := by decide
  refine (uses_perform (.context uid .nextTemplateGeneration) draws).bind fun generation => ?_
  refine (uses_perform (.context uid .kasPayout) reads).bind fun kasPayout => ?_
  exact templateAttempts_uses settings quiet_plain (by decide) (by decide) (by decide) (by decide)
    (by decide) ..

theorem buildImmediate_posts (initialDiff : ℚ) :
    (postings settings).Follows ⟨some (uid, .immediate), true, none⟩
      (buildImmediate settings instanceId uid initialDiff) fun _ _ => True := by
  apply posting_skip (walletAddr_uses quiet_plain uid)
  intro _ wallet
  apply posting_skip (remoteApp_uses quiet_plain uid)
  intro _ app
  apply posting_skip (requestTemplate_plain wallet)
  intro _ template
  cases template with
  | error error => exact posting_end (templateFailed_uses instanceId uid quiet_plain wallet error)
  | ok block =>
      apply posting_skip (uses_quiet quiet_plain (.ring uid (.setBigDiff _)) rfl)
      intro _ _
      split
      · exact posting_end (uses_quiet quiet_plain _ rfl)
      · next prePowHash _ =>
          refine ⟨⟨.immediate, rfl, fun _ => rfl⟩, fun id _ => ?_⟩
          exact announceImmediate_posts wallet app block prePowHash (by decide) initialDiff

theorem sendImmediateJobToClient_posts :
    (postings settings).Follows (.idle (some (uid, .immediate)))
      (sendImmediateJobToClient settings uid) fun _ _ => True := by
  apply posting_skip (readContext_uses quiet_plain uid)
  intro _ context
  apply posting_skip (registerClientVardiff_uses context.instanceId uid quiet_plain context.seed)
  intro _ initialDiff
  refine ⟨⟨⟨.immediate, rfl⟩, rfl⟩, fun _ _ => ⟨trivial, fun _ _ => ?_⟩⟩
  exact unlock_posts rfl (buildImmediate_posts initialDiff) (uses_done ())

theorem buildNewBlock_posts (seed : ℚ) :
    (postings settings).Follows (.idle (some (uid, .newBlock)))
      (buildNewBlock settings instanceId uid seed) fun _ _ => True := by
  apply posting_skip (walletAddr_uses quiet_plain uid)
  intro _ wallet
  apply posting_skip (remoteApp_uses quiet_plain uid)
  intro _ app
  apply posting_skip (requestTemplate_plain wallet)
  intro _ template
  cases template with
  | error error => exact posting_end (templateFailed_uses instanceId uid quiet_plain wallet error)
  | ok block =>
      apply posting_skip (uses_quiet quiet_plain (.ring uid (.setBigDiff _)) rfl)
      intro _ _
      split
      · exact posting_end (uses_quiet quiet_plain _ rfl)
      · next prePowHash _ =>
          refine ⟨⟨.newBlock, rfl, fun absurdity => (nomatch absurdity)⟩, fun id _ => ?_⟩
          exact announceNewBlock_posts wallet app seed block prePowHash

theorem newBlockAvailable_posts :
    (postings settings).Follows (.idle (some (uid, .newBlock))) (newBlockAvailable settings uid)
      fun _ _ => True := by
  refine ⟨trivial, fun locked _ => ?_⟩
  cases (locked : Bool) with
  | false => trivial
  | true =>
      apply posting_skip (readContext_uses quiet_plain uid)
      intro _ context
      by_cases missing : context.walletAddr = []
      · simp only [if_pos missing]
        exact unlock_posts rfl
          (posting_end (skipWithoutWallet_uses _ uid quiet_plain context.connectTime)) (uses_done ())
      · simp only [if_neg missing]
        exact unlock_posts rfl (buildNewBlock_posts context.seed) (uses_done ())

theorem publishParent_posts (expectedHFc : Option Hash) (parent : Block) :
    (postings settings).Follows (.idle (some (uid, .parent)))
      (publishParent instanceId uid expectedHFc parent) fun _ _ => True := by
  apply posting_skip (latestJob_uses uid (by decide))
  intro _ latest
  split
  · trivial
  · split
    · split
      · trivial
      · next prePowHash _ =>
          refine ⟨⟨.parent, rfl, fun absurdity => (nomatch absurdity)⟩, fun id _ => ?_⟩
          exact announceParent_posts parent prePowHash
    · trivial

theorem refreshParent_posts (job : Job) :
    (postings settings).Follows (.idle (some (uid, .parent)))
      (refreshParent settings instanceId uid job) fun _ _ => True := by
  have reads : Kind.payoutRead ∈ plainKinds := by decide
  apply posting_skip (uses_perform (.context uid .kasPayout) reads)
  intro _ payee
  apply posting_skip (refreshMergedParent_uses settings quiet_plain (by decide) (by decide)
    (by decide) (by decide) job.block payee)
  intro _ refreshed
  split
  · next parent =>
    refine ⟨trivial, fun locked _ => ?_⟩
    cases (locked : Bool) with
    | false => trivial
    | true => exact unlock_posts rfl (publishParent_posts _ parent) (uses_done ())
  · trivial

theorem newParentAvailable_posts :
    (postings settings).Follows (.idle (some (uid, .parent))) (newParentAvailable settings uid)
      fun _ _ => True := by
  have gates : Kind.refreshGate ∈ plainKinds := by decide
  apply posting_skip (readContext_uses quiet_plain uid)
  intro _ context
  split
  · trivial
  · apply posting_skip (tryParentRefresh_uses uid quiet_plain gates _)
    intro _ permitted
    cases permitted with
    | false => trivial
    | true =>
        apply posting_skip (latestJob_uses uid (by decide))
        intro _ latest
        cases latest with
        | none => exact posting_end (uses_perform (.context uid .releaseParentRefresh) gates)
        | some latest =>
            apply (refreshParent_posts latest.2).bind
            intro _ _ _
            exact posting_end (uses_perform (.context uid .releaseParentRefresh) gates)

theorem authorize_posts (eventId : Option Value) (identity : Text) (password : Option Text) :
    (postings settings).Follows (.idle (some (uid, .immediate)))
      (authorize settings uid eventId identity password) fun _ _ => True := by
  apply posting_skip (readContext_uses quiet_plain uid)
  intro _ context
  apply posting_skip (authorizedWallet_uses settings _ _ quiet_plain _)
  intro _ wallet
  apply posting_skip (deactivateClientVardiff_uses _ uid quiet_plain (by decide))
  intro _ _
  apply posting_skip (storeIdentity_uses uid quiet_plain (by decide) wallet _)
  intro _ label
  apply posting_skip (walletAddr_uses quiet_plain uid)
  intro _ stored
  apply posting_skip (registerIdentity_uses _ uid quiet_plain (by decide) stored)
  intro _ _
  apply posting_skip (remoteApp_uses quiet_plain uid)
  intro _ app
  apply posting_skip (storePayouts_uses uid quiet_plain (by decide) _ _)
  intro _ _
  apply posting_skip (openSession_uses uid quiet_plain (by decide) (by decide) _ _ _)
  intro _ _
  apply posting_skip (answer_uses (by decide) uid rfl)
  intro _ replied
  cases replied with
  | error error => trivial
  | ok _ =>
      apply posting_skip (sendAuthorizedExtranonce_uses settings uid quiet_plain (by decide))
      intro _ extranonce
      cases extranonce with
      | error error => trivial
      | ok _ => exact sendImmediateJobToClient_posts.bind fun _ _ _ => trivial

end Announcing

/-! ## Every task -/

section Tasks

variable {settings : Settings} {posting : Posting} {α : Type}

/-- The kinds of operations that neither publish nor tell. -/
def idleKinds : List Kind := Kind.except [.addJob, .setDiff, .sendDiff, .sendNotify]

/-- A task of other kinds may read difficulties when it publishes nothing. -/
theorem Uses.posts_nothing {task : Task α} (uses : Uses idleKinds task)
    (nowhere : posting.owner = none) :
    (postings settings).Follows posting task fun _ _ => True := by
  have noAdd : Kind.addJob ∉ idleKinds := by decide
  have noSet : Kind.setDiff ∉ idleKinds := by decide
  have noTell : Kind.sendDiff ∉ idleKinds := by decide
  have noSend : Kind.sendNotify ∉ idleKinds := by decide
  have foreign : ∀ {uid : Nat}, ∀ own ∈ posting.owner, own.1 = uid := by
    intro uid own inOwner
    rw [nowhere] at inOwner
    cases inOwner
  induction task generalizing posting with
  | done result => trivial
  | call op next ih =>
      have other := uses.1
      constructor
      · change PostingPermits settings posting op
        unfold PostingPermits
        split
        · exact absurd other noAdd
        · exact absurd other noSet
        · exact foreign
        · exact absurd other noTell
        · exact absurd other noSend
        · exact foreign
        · trivial
      · intro answer _
        have same := (posting.next_owner op answer).trans nowhere
        refine ih answer (uses.2 answer) same ?_
        intro uid own inOwner
        rw [same] at inOwner
        cases inOwner

/-- A subscription tells the starting difficulty, on whatever the jobs carry. -/
theorem handleSubscribe_posts (uid : Nat) (event : SubmitEvent) :
    (postings settings).Follows (.idle none) (handleSubscribe settings uid event)
      fun _ _ => True := by
  apply posting_skip (storeRemoteApp_uses uid (by decide) _)
  intro _ _
  apply posting_skip (remoteApp_uses quiet_plain uid)
  intro _ app
  apply posting_skip (assignExtranonceForMiner_uses settings uid quiet_plain (by decide) app)
  intro _ _
  apply posting_skip (readContext_uses quiet_plain uid)
  intro _ context
  have informs : Kind.sendExtranonce ∈ plainKinds := by decide
  refine posting_skip (reply_uses uid informs) fun _ replied => ?_
  cases replied with
  | error error => trivial
  | ok _ =>
      dsimp only
      split
      · refine posting_skip (reply_uses uid informs) fun _ sent => ?_
        cases sent with
        | error error => trivial
        | ok _ =>
            refine ⟨trivial, fun delivered _ => ?_⟩
            cases (delivered : Bool) <;> trivial
      · split
        · split
          · trivial
          · exact posting_end (sendExtranonce_uses uid quiet_plain informs)
        · trivial

/-- **Every task publishes in order.** -/
theorem bridgeProgram_posts (request : BridgeRequest) :
    (postings settings).Follows (.idle request.publishes) (bridgeProgram settings request)
      fun _ _ => True := by
  have uses := bridgeProgram_uses settings request
  cases request with
  | authorize uid event =>
      have handled : (postings settings).Follows (.idle (some (uid, .immediate)))
          (handleAuthorize settings uid event) fun _ _ => True := by
        unfold handleAuthorize
        split
        · trivial
        · exact authorize_posts event.id _ _
      exact handled.bind fun _ _ _ => trivial
  | immediateJob uid => exact sendImmediateJobToClient_posts.bind fun _ _ _ => trivial
  | newBlock uid => exact newBlockAvailable_posts.bind fun _ _ _ => trivial
  | newParent uid => exact newParentAvailable_posts.bind fun _ _ _ => trivial
  | subscribe uid event => exact (handleSubscribe_posts uid event).bind fun _ _ _ => trivial
  | submit => exact (uses.mono (by decide : submissionKinds ⊆ idleKinds)).posts_nothing rfl
  | confirmBlock => exact (uses.mono (by decide : confirmationKinds ⊆ idleKinds)).posts_nothing rfl
  | connect => exact (uses.mono (by decide : connectionKinds ⊆ idleKinds)).posts_nothing rfl
  | disconnect => exact (uses.mono (by decide : disconnectionKinds ⊆ idleKinds)).posts_nothing rfl
  | fetchKaspaParent hFc payee force =>
      exact posting_end ((fetchKaspaParent_uses settings quiet_plain (by decide) (by decide)
        (by decide) hFc payee force).bind fun _ => uses_done _)
  | retarget instanceId key next =>
      exact posting_end ((retarget_uses instanceId quiet_plain key next).bind fun _ => uses_done _)
  | createStats uid =>
      exact posting_end ((createStatsLater_uses uid quiet_plain).bind fun _ => uses_done _)
  | pruneStats instanceId =>
      exact posting_end ((pruneStats_uses instanceId quiet_plain (by decide)).bind
        fun _ => uses_done _)

end Tasks

/-- **Publication of difficulties.** Every run is observed. -/
theorem postings_execute (events : List (bridge deployment).Event) :
    @System.Observed (bridge deployment) (postings deployment.settings)
      (fun request => .idle request.publishes) (fun _ _ => True) (System.execute events) :=
  System.observed_execute bridgeProgram_posts events fun _ _ _ _ => trivial

end StratumBridge
