import StratumBridge.Bridge.SubmitFootprint

/-! # Footprint of every task -/

namespace StratumBridge

open Interaction

variable [Platform]

/-! ## Publications -/

section Publication

variable {kinds : List Kind} (settings : Settings) (instanceId uid : Nat)

theorem setStratumDiff_uses (sets : Kind.setDiff ∈ kinds) (diff : ℚ) :
    Uses kinds (setStratumDiff settings uid diff) :=
  uses_perform (.ring uid (.setStratumDiff _)) sets

theorem sendNotify_uses (sends : Kind.sendNotify ∈ kinds) (jobId : Nat) (params : JobParams)
    (minimal : Bool) : Uses kinds (sendNotify uid jobId params minimal) :=
  uses_perform (.send uid (.notify _ _ _)) sends

variable (quiet : Kind.quiet ∈ kinds)
include quiet

theorem registerClientVardiff_uses (seed : ℚ) :
    Uses kinds (registerClientVardiff instanceId uid seed) := by
  refine (getCreateStats_uses quiet _ _).bind fun handle => ?_
  refine (uses_quiet quiet (.stats _ (.restoreMinDiff handle seed)) rfl).bind
    fun restored => ?_
  refine (uses_quiet quiet (.now) rfl).bind fun now => ?_
  refine (writeStats_uses quiet _ handle rfl).bind fun _ => ?_
  exact (writeStats_uses quiet _ handle rfl).bind fun _ => uses_done _

theorem getClientVardiff_uses (reads : Kind.diffRead ∈ kinds) :
    Uses kinds (getClientVardiff instanceId uid) := by
  refine (getStatsIfExists_uses quiet _ _).bind fun found => ?_
  cases found with
  | some handle => exact uses_quiet quiet (.stats _ (.minDiff handle)) rfl
  | none => exact (uses_perform (.ring uid .stratumDiff) reads).bind fun _ => uses_done _

theorem setClientVardiff_uses (minDiff : ℚ) :
    Uses kinds (setClientVardiff instanceId uid minDiff) := by
  refine (getStatsIfExists_uses quiet _ _).bind fun found => ?_
  cases found with
  | none => exact uses_done _
  | some handle =>
      refine (writeStats_uses quiet _ handle rfl).bind fun _ => ?_
      refine (uses_quiet quiet (.now) rfl).bind fun now => ?_
      refine (writeStats_uses quiet _ handle rfl).bind fun _ => ?_
      refine (writeStats_uses quiet _ handle rfl).bind fun _ => ?_
      exact writeStats_uses quiet _ handle rfl

theorem startClientVardiff_uses : Uses kinds (startClientVardiff instanceId uid) := by
  refine (getStatsIfExists_uses quiet _ _).bind fun found => ?_
  cases found with
  | none => exact uses_done _
  | some handle =>
      exact (uses_quiet quiet (.now) rfl).bind fun now => writeStats_uses quiet _ handle rfl

theorem sendClientDiff_uses (sends : Kind.sendDiff ∈ kinds) (diff : ℚ) :
    Uses kinds (sendClientDiff instanceId uid diff) := by
  refine (uses_perform (.send uid (.setDifficulty diff)) sends).bind fun delivered => ?_
  cases (delivered : Bool) with
  | true => exact uses_done _
  | false =>
      refine (walletAddr_uses quiet _).bind fun wallet => ?_
      exact (uses_quiet quiet _ rfl).bind fun _ => uses_done _

theorem recordNotified_uses (wallet : Text) (sent : Bool) :
    Uses kinds (recordNotified instanceId uid wallet sent) := by
  cases sent with
  | true => exact (workerContext_uses quiet _ _ _).bind fun labels => uses_quiet quiet _ rfl
  | false => exact (readContext_uses quiet _).bind fun context => uses_quiet quiet _ rfl

theorem templateFailed_uses (wallet error : Text) :
    Uses kinds (templateFailed instanceId uid wallet error) := by
  unfold templateFailed
  split
  · exact (uses_quiet quiet _ rfl).bind fun _ => uses_quiet quiet _ rfl
  · exact uses_quiet quiet _ rfl

theorem updateWorkerDifficulty_uses (app : Text) (diff : ℚ) :
    Uses kinds (updateWorkerDifficulty instanceId uid app diff) :=
  (workerContext_uses quiet _ _ _).bind fun _ => uses_quiet quiet _ rfl

theorem initializeState_uses (sets : Kind.setDiff ∈ kinds) (app : Text) (initialDiff : ℚ) :
    Uses kinds (initializeState settings instanceId uid app initialDiff) := by
  refine (uses_quiet quiet _ rfl).bind fun _ => ?_
  refine (uses_quiet quiet _ rfl).bind fun _ => ?_
  refine (setStratumDiff_uses settings uid sets initialDiff).bind fun _ => ?_
  exact updateWorkerDifficulty_uses instanceId uid quiet app initialDiff

theorem applyVardiff_uses (reads : Kind.diffRead ∈ kinds) (sets : Kind.setDiff ∈ kinds)
    (sends : Kind.sendDiff ∈ kinds) : Uses kinds (applyVardiff settings instanceId uid) := by
  refine (uses_perform (.ring uid .stratumDiff) reads).bind fun stored => ?_
  cases (stored : Option KaspaDiff) with
  | none => exact uses_done _
  | some stratumDiff =>
      refine (getClientVardiff_uses instanceId uid quiet reads).bind fun found => ?_
      have tail : ∀ varDiff : ℚ, Uses kinds
          (if varDiff = stratumDiff.diffValue then (pure true : Task Bool)
            else do
              let app ← remoteApp uid
              setStratumDiff settings uid varDiff
              updateWorkerDifficulty instanceId uid app varDiff
              let sent ← sendClientDiff instanceId uid varDiff
              if sent then do
                startClientVardiff instanceId uid
                return true
              else return false) := by
        intro varDiff
        split
        · exact uses_done _
        · refine (remoteApp_uses quiet _).bind fun app => ?_
          refine (setStratumDiff_uses settings uid sets varDiff).bind fun _ => ?_
          refine (updateWorkerDifficulty_uses instanceId uid quiet app varDiff).bind fun _ => ?_
          refine (sendClientDiff_uses instanceId uid quiet sends varDiff).bind fun sent => ?_
          cases sent with
          | true => exact (startClientVardiff_uses instanceId uid quiet).bind fun _ => uses_done _
          | false => exact uses_done _
      dsimp only
      split
      · refine (setClientVardiff_uses instanceId uid quiet _).bind fun _ => ?_
        exact (startClientVardiff_uses instanceId uid quiet).bind fun _ => tail _
      · exact tail _

theorem announceDifficulty_uses (reads : Kind.diffRead ∈ kinds) (sets : Kind.setDiff ∈ kinds)
    (sends : Kind.sendDiff ∈ kinds) (app : Text) (initialDiff : ℚ) :
    Uses kinds (announceDifficulty settings instanceId uid app initialDiff) := by
  refine (uses_quiet quiet (.ring uid .isInitialized) rfl).bind fun initialized => ?_
  cases (initialized : Bool) with
  | true => exact applyVardiff_uses settings instanceId uid quiet reads sets sends
  | false =>
      refine (initializeState_uses settings instanceId uid quiet sets app initialDiff).bind
        fun _ => ?_
      exact sendClientDiff_uses instanceId uid quiet sends initialDiff

theorem sendImmediate_uses (reads : Kind.diffRead ∈ kinds) (sends : Kind.sendDiff ∈ kinds)
    (notifies : Kind.sendNotify ∈ kinds) (wallet app : Text) (initialDiff : ℚ) (block : Block)
    (prePowHash : Hash) (jobId : Nat) :
    Uses kinds (sendImmediate instanceId uid wallet app initialDiff block prePowHash jobId) := by
  refine (uses_perform (.ring uid .stratumDiff) reads).bind fun stored => ?_
  refine (updateWorkerDifficulty_uses _ _ quiet _ _).bind fun _ => ?_
  refine (sendClientDiff_uses _ _ quiet sends _).bind fun sent => ?_
  cases sent with
  | false => exact uses_done _
  | true =>
      refine (uses_quiet quiet (.ring uid .useBigJob) rfl).bind fun useBigJob => ?_
      refine (sendNotify_uses uid notifies _ _ _).bind fun notified => ?_
      exact recordNotified_uses _ _ quiet _ _

theorem announceImmediate_uses (reads : Kind.diffRead ∈ kinds) (sets : Kind.setDiff ∈ kinds)
    (sends : Kind.sendDiff ∈ kinds) (notifies : Kind.sendNotify ∈ kinds) (wallet app : Text)
    (initialDiff : ℚ) (block : Block) (prePowHash : Hash) (jobId : Nat) :
    Uses kinds
      (announceImmediate settings instanceId uid wallet app initialDiff block prePowHash jobId) := by
  have tail := sendImmediate_uses instanceId uid quiet reads sends notifies wallet app initialDiff
    block prePowHash jobId
  refine (uses_quiet quiet (.ring uid .isInitialized) rfl).bind fun initialized => ?_
  cases (initialized : Bool) with
  | true => exact tail
  | false => exact (initializeState_uses settings _ _ quiet sets _ _).bind fun _ => tail

theorem announceNewBlock_uses (reads : Kind.diffRead ∈ kinds) (sets : Kind.setDiff ∈ kinds)
    (sends : Kind.sendDiff ∈ kinds) (notifies : Kind.sendNotify ∈ kinds) (wallet app : Text)
    (seed : ℚ) (block : Block) (prePowHash : Hash) (jobId : Nat) :
    Uses kinds
      (announceNewBlock settings instanceId uid wallet app seed block prePowHash jobId) := by
  refine (registerClientVardiff_uses _ _ quiet _).bind fun initialDiff => ?_
  refine (announceDifficulty_uses settings _ _ quiet reads sets sends _ _).bind fun announced => ?_
  cases announced with
  | false => exact uses_done _
  | true =>
      refine (remoteApp_uses quiet _).bind fun app => ?_
      refine (uses_quiet quiet (.ring uid .useBigJob) rfl).bind fun useBigJob => ?_
      refine (remoteApp_uses quiet _).bind fun current => ?_
      refine (sendNotify_uses uid notifies _ _ _).bind fun notified => ?_
      exact recordNotified_uses _ _ quiet _ _

theorem skipWithoutWallet_uses (connectTime : Nat) :
    Uses kinds (skipWithoutWallet instanceId uid connectTime) := by
  refine (uses_quiet quiet (.systemTime) rfl).bind fun systemTime => ?_
  by_cases late : clientTimeout < systemTime - connectTime
  · rw [if_pos late]
    exact (uses_quiet quiet _ rfl).bind fun _ => uses_quiet quiet _ rfl
  · rw [if_neg late]
    exact uses_done _

theorem refreshedRecently_uses (interval : Nat) : Uses kinds (refreshedRecently uid interval) :=
  (readContext_uses quiet _).bind fun _ =>
    (uses_quiet quiet (.now) rfl).bind fun _ => uses_done _

theorem tryParentRefresh_uses (gates : Kind.refreshGate ∈ kinds) (interval : Nat) :
    Uses kinds (tryParentRefresh uid interval) := by
  refine (refreshedRecently_uses uid quiet interval).bind fun recent => ?_
  cases recent with
  | true => exact uses_done _
  | false =>
      refine (uses_perform (.context uid .acquireParentRefresh) gates).bind fun acquired => ?_
      cases (acquired : Bool) with
      | false => exact uses_done _
      | true =>
          refine (refreshedRecently_uses uid quiet interval).bind fun recent => ?_
          cases recent with
          | true =>
              exact (uses_perform (.context uid .releaseParentRefresh) gates).bind fun _ =>
                uses_done _
          | false => exact uses_done _

theorem recordRefreshed_uses (gates : Kind.refreshGate ∈ kinds) (app : Text) (sent : Bool) :
    Uses kinds (recordRefreshed instanceId uid app sent) := by
  cases sent with
  | true =>
      refine (uses_quiet quiet (.now) rfl).bind fun now => ?_
      refine (uses_perform (.context uid (.markParentJobSent now)) gates).bind fun _ => ?_
      exact (workerContext_uses quiet _ _ _).bind fun labels => uses_quiet quiet _ rfl
  | false => exact (walletAddr_uses quiet _).bind fun wallet => uses_quiet quiet _ rfl

theorem announceParent_uses (gates : Kind.refreshGate ∈ kinds)
    (notifies : Kind.sendNotify ∈ kinds) (parent : Block) (prePowHash : Hash) (jobId : Nat) :
    Uses kinds (announceParent instanceId uid parent prePowHash jobId) := by
  refine (remoteApp_uses quiet _).bind fun app => ?_
  refine (uses_quiet quiet (.ring uid .useBigJob) rfl).bind fun useBigJob => ?_
  refine (sendNotify_uses uid notifies _ _ _).bind fun sent => ?_
  exact recordRefreshed_uses _ _ quiet gates _ _

end Publication

/-! ## Templates -/

section Template

variable {kinds : List Kind} (settings : Settings) (quiet : Kind.quiet ∈ kinds)
  (cache : Kind.cache ∈ kinds) (permits : Kind.permit ∈ kinds)
  (requests : Kind.kaspaTemplate ∈ kinds)
include quiet cache permits requests

theorem requestKaspaParent_uses (hFc : Hash) (pay : Address) :
    Uses kinds (requestKaspaParent hFc pay) := by
  refine (uses_perform (.parent .acquirePermit) permits).bind fun _ => ?_
  refine (uses_perform (.kaspaTemplate pay (parentExtraData hFc)) requests).bind
    fun reply => ?_
  cases (reply : TemplateReply) with
  | failed error =>
      exact (uses_perform (.parent .releasePermit) permits).bind fun _ => uses_done _
  | malformed error =>
      exact (uses_perform (.parent .releasePermit) permits).bind fun _ => uses_done _
  | block parent =>
      refine (uses_quiet quiet (.now) rfl).bind fun now => ?_
      refine (uses_perform (.parent (.writeCache _)) cache).bind fun _ => ?_
      exact (uses_perform (.parent .releasePermit) permits).bind fun _ => uses_done _

theorem fetchKaspaParent_uses (hFc : Hash) (payee : Option Address) (force : Bool) :
    Uses kinds (fetchKaspaParent settings hFc payee force) := by
  unfold fetchKaspaParent
  split
  · split
    · exact uses_done _
    · refine (uses_perform (.parent .readCache) cache).bind fun cached => ?_
      split
      · refine (uses_quiet quiet (.now) rfl).bind fun now => ?_
        split
        · exact uses_done _
        · exact requestKaspaParent_uses quiet cache permits requests hFc _
      · exact requestKaspaParent_uses quiet cache permits requests hFc _
  · exact uses_done _

theorem refreshMergedParent_uses (reads : Kind.unsolvedRead ∈ kinds) (currentParent : Block)
    (payee : Option Address) : Uses kinds (refreshMergedParent settings currentParent payee) := by
  unfold refreshMergedParent
  split
  · split
    · exact uses_done _
    · refine (uses_perform (.pending (.isUnsolved _)) reads).bind fun unsolved => ?_
      cases (unsolved : Bool) with
      | true =>
          exact (fetchKaspaParent_uses settings quiet cache permits requests _ payee true).bind
            fun fetched => uses_done _
      | false => exact uses_done _
  · exact uses_done _

theorem mergedTemplate_uses (inserts : Kind.pendingInsert ∈ kinds) (fcBlock : Block)
    (kasPayout : Option Address) (laneId : Nat) :
    Uses kinds (mergedTemplate settings fcBlock kasPayout laneId) := by
  refine (uses_quiet quiet (.systemTime) rfl).bind fun systemTime => ?_
  refine (fetchKaspaParent_uses settings quiet cache permits requests _ _ false).bind fun fetched => ?_
  exact (uses_perform (.pending (.insertWithPayee _ _ _)) inserts).bind fun _ => uses_done _

theorem templateAttempts_uses (inserts : Kind.pendingInsert ∈ kinds)
    (asks : Kind.zkasTemplate ∈ kinds) (wallet : Text) (sessionUid generation : Nat)
    (kasPayout : Option Address) (laneId remaining : Nat) :
    Uses kinds
      (templateAttempts settings wallet sessionUid generation kasPayout laneId remaining) := by
  induction remaining with
  | zero => exact uses_done _
  | succ remaining ih =>
      unfold templateAttempts
      dsimp only
      split
      · exact uses_done _
      · refine (uses_perform (.zkasTemplate _ _) asks).bind fun reply => ?_
        cases (reply : TemplateReply) with
        | failed error =>
            dsimp only
            split
            · exact ih
            · exact uses_done _
        | malformed error =>
            dsimp only
            split
            · exact ih
            · split <;> exact uses_done _
        | block fcBlock =>
            dsimp only
            split
            · split
              · exact ih
              · exact uses_done _
            · split
              · exact (mergedTemplate_uses settings quiet cache permits requests inserts fcBlock kasPayout
                  laneId).bind fun parent => uses_done _
              · exact uses_done _

end Template

/-! ## Connections -/

section Identity

variable {kinds : List Kind} (settings : Settings) (instanceId uid : Nat)
  (quiet : Kind.quiet ∈ kinds)

theorem storePayouts_uses (quiet : Kind.quiet ∈ kinds) (writes : Kind.payoutWrite ∈ kinds)
    (canxium : Text) (payout : Option Address) : Uses kinds (storePayouts uid canxium payout) := by
  unfold storePayouts
  split
  · exact uses_perform (.context uid (.setKasPayout payout)) writes
  · exact (uses_quiet quiet _ rfl).bind fun _ =>
      uses_perform (.context uid (.setKasPayout payout)) writes

theorem onConnect_uses (quiet : Kind.quiet ∈ kinds) (shakes : Kind.handshake ∈ kinds)
    (registers : Kind.registry ∈ kinds) : Uses kinds (onConnect instanceId uid) := by
  refine (uses_perform (.registry instanceId .nextId) registers).bind fun idx => ?_
  refine (uses_perform (.context uid (.setExtranonce [])) shakes).bind fun _ => ?_
  refine (uses_perform (.context uid (.setId idx)) registers).bind fun _ => ?_
  exact uses_perform (.registry instanceId (.insert idx uid)) registers

theorem acceptConnection_uses (quiet : Kind.quiet ∈ kinds) (shakes : Kind.handshake ∈ kinds)
    (accepts : Kind.accept ∈ kinds) (registers : Kind.registry ∈ kinds) :
    Uses kinds acceptConnection := by
  refine (uses_perform .newSessionUid accepts).bind fun uid => ?_
  exact (readContext_uses quiet uid).bind fun context =>
    onConnect_uses _ uid quiet shakes registers

theorem unregister_uses (quiet : Kind.quiet ∈ kinds) (registers : Kind.registry ∈ kinds) :
    Uses kinds (unregister instanceId uid) := by
  refine (readContext_uses quiet uid).bind fun context => ?_
  split
  · exact uses_perform (.registry instanceId (.remove _)) registers
  · exact uses_done _

include quiet

theorem deactivateClientVardiff_uses (registers : Kind.registration ∈ kinds) :
    Uses kinds (deactivateClientVardiff instanceId uid) := by
  refine (uses_perform (.context uid .releaseVardiffRegistration) registers).bind
    fun registered => ?_
  cases (registered : Bool) with
  | false => exact uses_done _
  | true =>
      refine (getStatsIfExists_uses quiet _ _).bind fun found => ?_
      cases found with
      | none => exact uses_done _
      | some handle =>
          refine (uses_perform (.stats _ (.write handle .connectionClosed)) registers).bind
            fun _ => ?_
          exact (uses_quiet quiet (.now) rfl).bind fun now =>
            writeStats_uses quiet _ handle rfl

theorem activateClientVardiff_uses (registers : Kind.registration ∈ kinds) :
    Uses kinds (activateClientVardiff instanceId uid) := by
  refine (uses_perform (.context uid .claimVardiffRegistration) registers).bind fun claimed => ?_
  cases (claimed : Bool) with
  | false => exact uses_done _
  | true =>
      refine (getCreateStats_uses quiet _ _).bind fun handle => ?_
      refine (uses_perform (.stats _ (.write handle .connectionOpened)) registers).bind
        fun _ => ?_
      refine (uses_quiet quiet (.now) rfl).bind fun now => ?_
      refine (writeStats_uses quiet _ handle rfl).bind fun _ => ?_
      refine (writeStats_uses quiet _ handle rfl).bind fun _ => ?_
      refine (writeStats_uses quiet _ handle rfl).bind fun _ => ?_
      exact writeStats_uses quiet _ handle rfl

theorem registerIdentity_uses (registers : Kind.registration ∈ kinds) (wallet : Text) :
    Uses kinds (registerIdentity instanceId uid wallet) := by
  unfold registerIdentity
  split
  · exact uses_done _
  · exact activateClientVardiff_uses _ _ quiet registers

theorem authorizedWallet_uses (address : Text) :
    Uses kinds (authorizedWallet settings instanceId uid address) := by
  unfold authorizedWallet
  split
  · exact uses_done _
  · refine (readContext_uses quiet _).bind fun context => ?_
    exact (uses_quiet quiet _ rfl).bind fun _ => uses_done _

theorem storeIdentity_uses (writes : Kind.identity ∈ kinds) (wallet worker : Text) :
    Uses kinds (storeIdentity uid wallet worker) := by
  refine (uses_perform (.context uid (.setWalletAddr wallet)) writes).bind fun _ => ?_
  refine (uses_perform (.context uid (.setWorkerName worker _)) writes).bind fun _ => ?_
  exact effectiveWorkerName_uses quiet _

theorem openSession_uses (opens : Kind.session ∈ kinds) (correlates : Kind.correlation ∈ kinds)
    (wallet worker app : Text) : Uses kinds (openSession uid wallet worker app) := by
  refine (uses_perform (.context uid .claimSessionOpen) opens).bind fun first => ?_
  cases (first : Bool) with
  | false => exact uses_done _
  | true =>
      refine (readContext_uses quiet uid).bind fun context => ?_
      refine (uses_perform .newCorrelationId correlates).bind fun correlationId => ?_
      exact uses_perform (.emit (.sessionOpened ..)) opens

theorem sendExtranonce_uses (informs : Kind.sendExtranonce ∈ kinds) :
    Uses kinds (sendExtranonce uid) :=
  (readContext_uses quiet _).bind fun _ => reply_uses uid informs

theorem sendAuthorizedExtranonce_uses (informs : Kind.sendExtranonce ∈ kinds) :
    Uses kinds (sendAuthorizedExtranonce settings uid) := by
  refine (readContext_uses quiet _).bind fun context => ?_
  split
  · exact uses_done _
  · exact sendExtranonce_uses uid quiet informs

theorem createStatsLater_uses : Uses kinds (createStatsLater uid) := by
  refine (readContext_uses quiet uid).bind fun context => ?_
  split
  · exact uses_done _
  · exact (getCreateStats_uses quiet _ uid).bind fun _ => uses_done _

theorem assignExtranonceForMiner_uses (shakes : Kind.handshake ∈ kinds) (app : Text) :
    Uses kinds (assignExtranonceForMiner settings uid app) := by
  unfold assignExtranonceForMiner
  split
  · exact uses_perform (.context uid (.setExtranonce [])) shakes
  · exact (uses_quiet quiet .nextExtranonce rfl).bind fun next =>
      uses_perform (.context uid (.setExtranonce _)) shakes

omit quiet in
theorem sendCommonSetup_uses (sends : Kind.sendDiff ∈ kinds)
    (informs : Kind.sendExtranonce ∈ kinds) (extranonce : Text) (seed : ℚ) :
    Uses kinds (sendCommonSetup uid extranonce seed) := by
  refine (reply_uses uid informs).bind fun sent => ?_
  cases sent with
  | error error => exact uses_done _
  | ok _ =>
      refine (uses_perform (.send uid (.setDifficultyCommon seed)) sends).bind fun delivered => ?_
      cases (delivered : Bool) <;> exact uses_done _

omit quiet in
theorem storeRemoteApp_uses (shakes : Kind.handshake ∈ kinds) (param : Option Value) :
    Uses kinds (storeRemoteApp uid param) := by
  unfold storeRemoteApp
  split
  · exact uses_perform (.context uid (.setRemoteApp _)) shakes
  · exact uses_done _

theorem handleSubscribe_uses (shakes : Kind.handshake ∈ kinds) (sends : Kind.sendDiff ∈ kinds)
    (informs : Kind.sendExtranonce ∈ kinds) (event : SubmitEvent) :
    Uses kinds (handleSubscribe settings uid event) := by
  refine (storeRemoteApp_uses uid shakes _).bind fun _ => ?_
  refine (remoteApp_uses quiet uid).bind fun app => ?_
  refine (assignExtranonceForMiner_uses settings uid quiet shakes app).bind fun _ => ?_
  refine (readContext_uses quiet uid).bind fun context => ?_
  refine (reply_uses uid informs).bind fun replied => ?_
  cases replied with
  | error error => exact uses_done _
  | ok _ =>
      dsimp only
      split
      · exact sendCommonSetup_uses uid sends informs _ _
      · split
        · split
          · exact uses_done _
          · exact sendExtranonce_uses uid quiet informs
        · exact uses_done _

theorem closeSession_uses (closes : Kind.session ∈ kinds) (correlates : Kind.correlation ∈ kinds)
    (wallet worker app : Text) : Uses kinds (closeSession uid wallet worker app) := by
  unfold closeSession
  split
  · refine (readContext_uses quiet uid).bind fun context => ?_
    refine (uses_perform .newCorrelationId correlates).bind fun correlationId => ?_
    exact uses_perform (.emit (.sessionClosed ..)) closes
  · exact uses_done _

theorem recordDisconnect_uses (wallet worker app : Text) :
    Uses kinds (recordDisconnect instanceId uid wallet worker app) := by
  unfold recordDisconnect
  split
  · exact uses_done _
  · exact (workerContext_uses quiet _ uid app).bind fun labels => uses_quiet quiet _ rfl

theorem onDisconnect_uses (registers : Kind.registration ∈ kinds) (removes : Kind.registry ∈ kinds)
    (closes : Kind.session ∈ kinds) (correlates : Kind.correlation ∈ kinds) :
    Uses kinds (onDisconnect uid) := by
  refine (readContext_uses quiet uid).bind fun context => ?_
  refine (deactivateClientVardiff_uses _ uid quiet registers).bind fun _ => ?_
  refine (uses_quiet quiet _ rfl).bind fun _ => ?_
  refine (unregister_uses _ uid quiet removes).bind fun _ => ?_
  refine (walletAddr_uses quiet uid).bind fun wallet => ?_
  refine (workerName_uses quiet uid).bind fun worker => ?_
  refine (remoteApp_uses quiet uid).bind fun app => ?_
  refine (recordDisconnect_uses _ uid quiet wallet worker app).bind fun _ => ?_
  exact closeSession_uses uid quiet closes correlates wallet worker app

theorem retarget_uses (key : Text) (next : ℚ) :
    Uses kinds (retarget instanceId key next) := by
  refine (uses_quiet quiet (.stats _ (.find key)) rfl).bind fun found => ?_
  cases (found : Option Nat) with
  | none => exact uses_done _
  | some handle =>
      refine (uses_quiet quiet (.now) rfl).bind fun now => ?_
      refine (writeStats_uses quiet _ handle rfl).bind fun _ => ?_
      refine (writeStats_uses quiet _ handle rfl).bind fun _ => ?_
      refine (writeStats_uses quiet _ handle rfl).bind fun _ => ?_
      exact writeStats_uses quiet _ handle rfl

theorem pruneStats_uses (registers : Kind.registration ∈ kinds) :
    Uses kinds (pruneStats instanceId) :=
  (uses_quiet quiet .now rfl).bind fun now => uses_perform (.stats instanceId (.prune now)) registers

theorem confirmBlock_uses (colors : Kind.blockColor ∈ kinds) (counts : Kind.countWrite ∈ kinds)
    (handle : Nat) (worker : WorkerContext) (hash : Text) (nonce blueScore attempts : Nat) :
    Uses kinds (confirmBlock instanceId handle worker hash nonce blueScore attempts) := by
  induction attempts with
  | zero => exact uses_quiet quiet _ rfl
  | succ attempts ih =>
      refine (uses_perform (.blockColor hash) colors).bind fun blue => ?_
      split
      · refine (writeCount_uses counts _ handle rfl).bind fun _ => ?_
        exact (writeOverall_uses counts _ rfl).bind fun _ => uses_quiet quiet _ rfl
      · exact ih

end Identity

/-! ## Whole tasks -/

/-- The kinds of operations a confirmation task uses. -/
def confirmationKinds : List Kind := [.quiet, .blockColor, .countWrite]

/-- The kinds of operations the publication of a job uses. -/
def jobKinds : List Kind :=
  [.quiet, .payoutRead, .buildLock, .generation, .jobRead, .diffRead, .addJob, .setDiff,
    .unsolvedRead, .pendingInsert, .cache, .permit, .zkasTemplate, .kaspaTemplate, .sendDiff, .sendNotify]

/-- The kinds of operations the refresh of a parent uses. -/
def refreshKinds : List Kind := .refreshGate :: jobKinds

/-- The kinds of operations the tasks use that serve no message of a miner. -/
def publicationKinds : List Kind := .registration :: jobKinds

/-- The kinds of operations an authorization uses. -/
def authorizationKinds : List Kind :=
  .identity :: .payoutWrite :: .session :: .correlation :: .sendExtranonce :: .verdict ::
    publicationKinds

/-- The kinds of operations a new connection uses. -/
def connectionKinds : List Kind := [.quiet, .accept, .handshake, .registry]

/-- The kinds of operations the end of a connection uses. -/
def disconnectionKinds : List Kind := [.quiet, .registration, .registry, .session, .correlation]

/-- The kinds of operations a subscription uses. -/
def subscriptionKinds : List Kind := [.quiet, .handshake, .sendDiff, .sendExtranonce]

/-- The kinds of operations the ordinary tasks use. -/
def ordinaryKinds : List Kind :=
  .refreshGate :: .handshake :: .registry :: .accept :: authorizationKinds

section Tasks

variable (settings : Settings) (instanceId uid : Nat)

omit [Platform] in
private theorem quiet_mem_publication : Kind.quiet ∈ publicationKinds := by decide

omit [Platform] in
private theorem quiet_mem_jobs : Kind.quiet ∈ jobKinds := List.mem_cons_self

omit [Platform] in
private theorem quiet_mem_refresh : Kind.quiet ∈ refreshKinds := by decide

theorem requestTemplate_uses (wallet : Text) :
    Uses jobKinds (requestTemplate settings uid wallet) := by
  have reads : Kind.payoutRead ∈ jobKinds := by decide
  have draws : Kind.generation ∈ jobKinds := by decide
  refine (uses_perform (.context uid .nextTemplateGeneration) draws).bind fun generation => ?_
  refine (uses_perform (.context uid .kasPayout) reads).bind fun kasPayout => ?_
  exact templateAttempts_uses settings quiet_mem_jobs (by decide) (by decide) (by decide) (by decide)
    (by decide) ..

theorem publishImmediate_uses (wallet app : Text) (initialDiff : ℚ) (block : Block)
    (prePowHash : Hash) :
    Uses jobKinds
      (publishImmediate settings instanceId uid wallet app initialDiff block prePowHash) := by
  have adds : Kind.addJob ∈ jobKinds := by decide
  refine (uses_perform (.ring uid (.addJob _)) adds).bind fun jobId => ?_
  exact announceImmediate_uses settings _ _ quiet_mem_jobs (by decide) (by decide)
    (by decide) (by decide) ..

theorem buildImmediate_uses (initialDiff : ℚ) :
    Uses jobKinds (buildImmediate settings instanceId uid initialDiff) := by
  refine (walletAddr_uses quiet_mem_jobs _).bind fun wallet => ?_
  refine (remoteApp_uses quiet_mem_jobs _).bind fun app => ?_
  refine (requestTemplate_uses settings uid wallet).bind fun template => ?_
  cases template with
  | error error => exact templateFailed_uses _ _ quiet_mem_jobs _ _
  | ok block =>
      refine (uses_quiet quiet_mem_jobs _ rfl).bind fun _ => ?_
      split
      · exact uses_quiet quiet_mem_jobs _ rfl
      · exact publishImmediate_uses settings ..

theorem sendImmediateJobToClient_uses :
    Uses jobKinds (sendImmediateJobToClient settings uid) := by
  have locks : Kind.buildLock ∈ jobKinds := by decide
  refine (readContext_uses quiet_mem_jobs _).bind fun context => ?_
  refine (registerClientVardiff_uses _ _ quiet_mem_jobs _).bind fun initialDiff => ?_
  refine (setStratumDiff_uses settings uid (by decide) _).bind fun _ => ?_
  refine (uses_perform (.context uid .lockJobBuild) locks).bind fun _ => ?_
  refine (buildImmediate_uses settings _ _ _).bind fun _ => ?_
  exact uses_perform (.context uid .unlockJobBuild) locks

theorem publishNewBlock_uses (wallet app : Text) (seed : ℚ) (block : Block) (prePowHash : Hash) :
    Uses jobKinds
      (publishNewBlock settings instanceId uid wallet app seed block prePowHash) := by
  have adds : Kind.addJob ∈ jobKinds := by decide
  refine (uses_perform (.ring uid (.addJob _)) adds).bind fun jobId => ?_
  exact announceNewBlock_uses settings _ _ quiet_mem_jobs (by decide) (by decide)
    (by decide) (by decide) ..

theorem buildNewBlock_uses (seed : ℚ) :
    Uses jobKinds (buildNewBlock settings instanceId uid seed) := by
  refine (walletAddr_uses quiet_mem_jobs _).bind fun wallet => ?_
  refine (remoteApp_uses quiet_mem_jobs _).bind fun app => ?_
  refine (requestTemplate_uses settings uid wallet).bind fun template => ?_
  cases template with
  | error error => exact templateFailed_uses _ _ quiet_mem_jobs _ _
  | ok block =>
      refine (uses_quiet quiet_mem_jobs _ rfl).bind fun _ => ?_
      split
      · exact uses_quiet quiet_mem_jobs _ rfl
      · exact publishNewBlock_uses settings ..

theorem newBlockAvailable_uses : Uses jobKinds (newBlockAvailable settings uid) := by
  have locks : Kind.buildLock ∈ jobKinds := by decide
  refine (uses_perform (.context uid .tryLockJobBuild) locks).bind fun locked => ?_
  cases (locked : Bool) with
  | false => exact uses_done _
  | true =>
      refine (readContext_uses quiet_mem_jobs _).bind fun context => ?_
      by_cases missing : context.walletAddr = []
      · simp only [if_pos missing]
        exact (skipWithoutWallet_uses _ _ quiet_mem_jobs _).bind fun _ =>
          uses_perform (.context uid .unlockJobBuild) locks
      · simp only [if_neg missing]
        exact (buildNewBlock_uses settings _ _ _).bind fun _ =>
          uses_perform (.context uid .unlockJobBuild) locks

theorem publishParent_uses {kinds : List Kind} (quiet : Kind.quiet ∈ kinds)
    (gates : Kind.refreshGate ∈ kinds) (reads : Kind.jobRead ∈ kinds) (adds : Kind.addJob ∈ kinds)
    (notifies : Kind.sendNotify ∈ kinds) (expectedHFc : Option Hash) (parent : Block) :
    Uses kinds (publishParent instanceId uid expectedHFc parent) := by
  refine (latestJob_uses uid reads).bind fun latest => ?_
  split
  · exact uses_done _
  · split
    · split
      · exact uses_done _
      · refine (uses_perform (.ring uid (.addJob _)) adds).bind fun jobId => ?_
        exact announceParent_uses _ _ quiet gates notifies ..
    · exact uses_done _

theorem refreshParent_uses (job : Job) :
    Uses refreshKinds (refreshParent settings instanceId uid job) := by
  have locks : Kind.buildLock ∈ refreshKinds := by decide
  have reads : Kind.payoutRead ∈ refreshKinds := by decide
  refine (uses_perform (.context uid .kasPayout) reads).bind fun payee => ?_
  refine (refreshMergedParent_uses settings quiet_mem_refresh (by decide) (by decide) (by decide)
    (by decide) _ _).bind fun refreshed => ?_
  split
  · next parent =>
    refine (uses_perform (.context uid .tryLockJobBuild) locks).bind fun locked => ?_
    cases (locked : Bool) with
    | false => exact uses_done _
    | true =>
        have publishes := publishParent_uses instanceId uid quiet_mem_refresh (by decide)
          (by decide) (by decide) (by decide) (committedHFc job.block) parent
        exact publishes.bind fun _ => uses_perform (.context uid .unlockJobBuild) locks
  · exact uses_done _

theorem newParentAvailable_uses : Uses refreshKinds (newParentAvailable settings uid) := by
  have gates : Kind.refreshGate ∈ refreshKinds := List.mem_cons_self
  refine (readContext_uses quiet_mem_refresh _).bind fun context => ?_
  split
  · exact uses_done _
  · refine (tryParentRefresh_uses uid quiet_mem_refresh gates _).bind fun permitted => ?_
    cases permitted with
    | false => exact uses_done _
    | true =>
        refine (latestJob_uses uid (by decide)).bind fun latest => ?_
        cases latest with
        | none => exact uses_perform (.context uid .releaseParentRefresh) gates
        | some latest =>
            exact (refreshParent_uses settings _ _ _).bind fun _ =>
              uses_perform (.context uid .releaseParentRefresh) gates

theorem answerAuthorization_uses {kinds : List Kind} (publishes : jobKinds ⊆ kinds)
    (answers : Kind.verdict ∈ kinds) (informs : Kind.sendExtranonce ∈ kinds)
    (eventId : Option Value) : Uses kinds (answerAuthorization settings uid eventId) := by
  have quiet : Kind.quiet ∈ kinds := publishes quiet_mem_jobs
  refine (answer_uses answers _ rfl).bind fun replied => ?_
  cases replied with
  | error error => exact uses_done _
  | ok _ =>
      refine (sendAuthorizedExtranonce_uses settings uid quiet informs).bind fun extranonce => ?_
      cases extranonce with
      | error error => exact uses_done _
      | ok _ =>
          exact ((sendImmediateJobToClient_uses settings uid).mono publishes).bind
            fun _ => uses_done _

theorem authorize_uses (eventId : Option Value) (identity : Text) (password : Option Text) :
    Uses authorizationKinds (authorize settings uid eventId identity password) := by
  have quiet : Kind.quiet ∈ authorizationKinds := by decide
  refine (readContext_uses quiet _).bind fun context => ?_
  refine (authorizedWallet_uses settings _ _ quiet _).bind fun wallet => ?_
  refine (deactivateClientVardiff_uses _ _ quiet (by decide)).bind fun _ => ?_
  refine (storeIdentity_uses uid quiet (by decide) _ _).bind fun label => ?_
  refine (walletAddr_uses quiet _).bind fun stored => ?_
  refine (registerIdentity_uses _ _ quiet (by decide) _).bind fun _ => ?_
  refine (remoteApp_uses quiet uid).bind fun app => ?_
  refine (storePayouts_uses uid quiet (by decide) _ _).bind fun _ => ?_
  refine (openSession_uses uid quiet (by decide) (by decide) _ _ _).bind fun _ => ?_
  exact answerAuthorization_uses settings uid (by decide) (by decide) (by decide) eventId

theorem handleAuthorize_uses (event : SubmitEvent) :
    Uses authorizationKinds (handleAuthorize settings uid event) := by
  unfold handleAuthorize
  split
  · exact uses_done _
  · exact authorize_uses settings uid _ _ _

/-- The kinds of operations the task of a request uses. -/
def BridgeRequest.kinds : BridgeRequest → List Kind
  | .submit _ _ => submissionKinds
  | .confirmBlock _ _ _ _ _ _ => confirmationKinds
  | .authorize _ _ => authorizationKinds
  | .connect => connectionKinds
  | .subscribe _ _ => subscriptionKinds
  | .disconnect _ => disconnectionKinds
  | .newParent _ => refreshKinds
  | _ => publicationKinds

/-- Submissions and confirmations are the tasks that settle, credit and report. -/
def BridgeRequest.Ordinary : BridgeRequest → Prop
  | .submit _ _ | .confirmBlock _ _ _ _ _ _ => False
  | _ => True

/-- The ordinary tasks stay within the ordinary kinds. -/
theorem BridgeRequest.kinds_subset {request : BridgeRequest} {kinds : List Kind}
    (ordinary : request.Ordinary) (subset : ordinaryKinds ⊆ kinds) : request.kinds ⊆ kinds := by
  refine List.Subset.trans ?_ subset
  cases request with
  | submit | confirmBlock => exact ordinary.elim
  | subscribe => exact (by decide : subscriptionKinds ⊆ ordinaryKinds)
  | authorize => exact (by decide : authorizationKinds ⊆ ordinaryKinds)
  | connect => exact (by decide : connectionKinds ⊆ ordinaryKinds)
  | disconnect => exact (by decide : disconnectionKinds ⊆ ordinaryKinds)
  | newParent => exact (by decide : refreshKinds ⊆ ordinaryKinds)
  | _ => exact (by decide : publicationKinds ⊆ ordinaryKinds)

/-- **Footprint of a task.** -/
theorem bridgeProgram_uses (request : BridgeRequest) :
    Uses request.kinds (bridgeProgram settings request) := by
  have publishes : jobKinds ⊆ publicationKinds := by decide
  cases request with
  | fetchKaspaParent hFc payee force =>
      exact (fetchKaspaParent_uses settings quiet_mem_publication (by decide) (by decide) (by decide)
        hFc payee force).bind fun _ => uses_done _
  | submit uid event => exact (handleSubmit_uses settings uid event).bind fun _ => uses_done _
  | authorize uid event =>
      exact (handleAuthorize_uses settings uid event).bind fun _ => uses_done _
  | immediateJob uid =>
      exact ((sendImmediateJobToClient_uses settings uid).mono publishes).bind fun _ => uses_done _
  | newBlock uid =>
      exact ((newBlockAvailable_uses settings uid).mono publishes).bind fun _ => uses_done _
  | newParent uid =>
      exact (newParentAvailable_uses settings uid).bind fun _ => uses_done _
  | retarget instanceId key next =>
      exact (retarget_uses instanceId quiet_mem_publication key next).bind
        fun _ => uses_done _
  | connect =>
      have uses : Uses connectionKinds acceptConnection :=
        acceptConnection_uses (by decide) (by decide) (by decide) (by decide)
      exact uses.bind fun _ => uses_done _
  | createStats uid =>
      exact (createStatsLater_uses uid quiet_mem_publication).bind fun _ => uses_done _
  | subscribe uid event =>
      have uses : Uses subscriptionKinds (handleSubscribe settings uid event) :=
        handleSubscribe_uses settings uid (by decide) (by decide) (by decide) (by decide) event
      exact uses.bind fun _ => uses_done _
  | disconnect uid =>
      have uses : Uses disconnectionKinds (onDisconnect uid) :=
        onDisconnect_uses uid (by decide) (by decide) (by decide) (by decide) (by decide)
      exact uses.bind fun _ => uses_done _
  | pruneStats instanceId =>
      exact (pruneStats_uses instanceId quiet_mem_publication (by decide)).bind
        fun _ => uses_done _
  | confirmBlock instanceId handle worker hash nonce blueScore =>
      exact (confirmBlock_uses instanceId List.mem_cons_self (by decide) (by decide) ..).bind
        fun _ => uses_done _

end Tasks

end StratumBridge
