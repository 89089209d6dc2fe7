import StratumBridge.Interaction.Reach
import StratumBridge.Bridge.Footprint
import StratumBridge.Bridge.UserAgent

/-! # Notifications

The three publication paths choose the encoding of a job and the form of its message by
their own tests of the user agent. They agree for a miner unless it is known as an IceRiver
by another spelling than `IceRiver`.
-/

namespace StratumBridge

open Interaction Program

section Model

variable [Platform]

/-- The user agent of a connection is `app`, and its big-job setting is `useBigJob`. -/
def Identified (uid : Nat) (app : Text) (useBigJob : Bool) :
    (op : BridgeOp) → op.Answer → Prop
  | .context other .read, context => other = uid → context.remoteApp = app
  | .ring other .useBigJob, setting => other = uid → setting = useBigJob
  | _, _ => True

/-- The jobs a task can announce to such a connection. -/
def notifications {α : Type} (uid : Nat) (app : Text) (useBigJob : Bool) (task : Task α) :
    Set Message :=
  {message | message.kind = .sendNotify ∧
    Makes (Identified uid app useBigJob) (BridgeOp.send uid message) task}

section Rules

variable {α β : Type} {uid : Nat} {app : Text} {useBigJob : Bool}

theorem exists_identified (op : BridgeOp) : ∃ answer, Identified uid app useBigJob op answer := by
  cases op with
  | context other op =>
      cases op with
      | read =>
          exact ⟨⟨[], 0, 0, 0, 0, [], [], false, [], none, app, 0, [], 0, false, false, none, false,
            false, false⟩, fun _ => rfl⟩
      | kasPayout => exact ⟨none, trivial⟩
      | nextTemplateGeneration => exact ⟨0, trivial⟩
      | tryLockJobBuild | acquireParentRefresh | claimSessionOpen | claimVardiffRegistration
        | releaseVardiffRegistration => exact ⟨true, trivial⟩
      | _ => exact ⟨(), trivial⟩
  | ring other op =>
      cases op with
      | useBigJob => exact ⟨useBigJob, fun _ => rfl⟩
      | addJob => exact ⟨0, trivial⟩
      | getJob | slotDiff | stratumDiff => exact ⟨none, trivial⟩
      | storedJobIds => exact ⟨[], trivial⟩
      | resolves | isInitialized => exact ⟨true, trivial⟩
      | _ => exact ⟨(), trivial⟩
  | pending op =>
      cases op with
      | insertWithPayee => exact ⟨(), trivial⟩
      | get => exact ⟨none, trivial⟩
      | isUnsolved | claimSolution => exact ⟨true, trivial⟩
  | parent op =>
      cases op with
      | readCache => exact ⟨none, trivial⟩
      | _ => exact ⟨(), trivial⟩
  | stats instanceId op =>
      cases op with
      | find => exact ⟨none, trivial⟩
      | minDiff | restoreMinDiff => exact ⟨(0 : ℚ), trivial⟩
      | _ => exact ⟨(), trivial⟩
  | registry instanceId op =>
      cases op with
      | nextId => exact ⟨(0 : Int), trivial⟩
      | _ => exact ⟨(), trivial⟩
  | newSessionUid | nextExtranonce | getCreateStats | now | systemTime | newCorrelationId =>
      exact ⟨(0 : Nat), trivial⟩
  | tryMarkBlock | send => exact ⟨true, trivial⟩
  | checkSubmission | blockColor => exact ⟨none, trivial⟩
  | checkPow => exact ⟨(true, 0), trivial⟩
  | zkasTemplate | kaspaTemplate => exact ⟨.failed [], trivial⟩
  | zkasSubmit | kaspaSubmit => exact ⟨.success, trivial⟩
  | unmarkBlock | setOutcome | emit | record | jobRefresh | spawnConfirm => exact ⟨(), trivial⟩

/-- A task that sends no job announces none. -/
theorem notifications_of_uses {task : Task α} (uses : Uses (Kind.except [.sendNotify]) task) :
    notifications uid app useBigJob task = ∅ := by
  refine Set.eq_empty_iff_forall_notMem.mpr ?_
  rintro message ⟨sends, makes⟩
  have kind : message.kind ∈ Kind.except [.sendNotify] := makes.allowed uses
  rw [sends] at kind
  exact absurd kind (by decide)

/-- What follows a silent part announces all, if it announces at most what it announces after
one of the results. -/
theorem notifications_bind {first : Task α} {rest : α → Task β} {announced : Set Message}
    (silent : Uses (Kind.except [.sendNotify]) first) {result : α}
    (returns : Returns (Identified uid app useBigJob) result first)
    (reached : notifications uid app useBigJob (rest result) = announced)
    (others : ∀ other, Returns (Identified uid app useBigJob) other first →
      notifications uid app useBigJob (rest other) ⊆ announced) :
    notifications uid app useBigJob (first >>= rest) = announced := by
  refine Set.Subset.antisymm ?_ ?_
  · rintro message ⟨sends, makes⟩
    rcases makes_bind.mp makes with inFirst | ⟨other, finishes, inRest⟩
    · have nothing : message ∈ notifications uid app useBigJob first := ⟨sends, inFirst⟩
      rw [notifications_of_uses silent] at nothing
      exact nothing.elim
    · exact others other finishes ⟨sends, inRest⟩
  · rintro message member
    rw [← reached] at member
    exact ⟨member.1, makes_bind.mpr (.inr ⟨result, returns, member.2⟩)⟩

/-- A silent part whose result does not matter. -/
theorem notifications_bind_of_uses {first : Task α} {rest : α → Task β} {announced : Set Message}
    (silent : Uses (Kind.except [.sendNotify]) first)
    (always : ∀ result, Returns (Identified uid app useBigJob) result first →
      notifications uid app useBigJob (rest result) = announced) :
    notifications uid app useBigJob (first >>= rest) = announced := by
  obtain ⟨result, returns⟩ := exists_returns exists_identified first
  exact notifications_bind silent returns (always result returns)
    fun other finishes => (always other finishes).subset

/-- A silent part that lets the rest go ahead, or stops it. -/
theorem notifications_bind_ite {first : Task Bool} {rest : Task Unit} {announced : Set Message}
    (silent : Uses (Kind.except [.sendNotify]) first)
    (returns : Returns (Identified uid app useBigJob) true first)
    (reached : notifications uid app useBigJob rest = announced) :
    notifications uid app useBigJob (first >>= fun ahead => if ahead then rest else pure ()) =
      announced := by
  refine notifications_bind silent returns (by rw [if_pos rfl]; exact reached) ?_
  intro ahead _
  cases ahead with
  | true => exact reached.subset
  | false =>
      have nothing : notifications uid app useBigJob (pure () : Task Unit) = ∅ :=
        notifications_of_uses (uses_done ())
      rw [if_neg Bool.false_ne_true, nothing]
      exact Set.empty_subset _

theorem eq_of_returns_remoteApp {found : Text}
    (returns : Returns (Identified uid app useBigJob) found (remoteApp uid)) : found = app := by
  obtain ⟨context, named, same⟩ := returns
  exact same.symm.trans (named rfl)

theorem eq_of_returns_useBigJob {setting : Bool}
    (returns : Returns (Identified uid app useBigJob) setting (call (.ring uid .useBigJob))) :
    setting = useBigJob := by
  obtain ⟨answer, known, same⟩ := returns
  exact same.symm.trans (known rfl)

/-- A part that announces one job, and a silent one after it. -/
theorem notifications_sendNotify {jobId : Nat} {params : JobParams} {minimal : Bool}
    {rest : Bool → Task α} (silent : ∀ sent, Uses (Kind.except [.sendNotify]) (rest sent)) :
    notifications uid app useBigJob (sendNotify uid jobId params minimal >>= rest) =
      {.notify jobId params minimal} := by
  ext message
  constructor
  · rintro ⟨sends, here | ⟨sent, -, later⟩⟩
    · cases here
      rfl
    · have nothing : message ∈ notifications uid app useBigJob (rest sent) := ⟨sends, later⟩
      rw [notifications_of_uses (silent sent)] at nothing
      exact nothing.elim
  · rintro rfl
    exact ⟨rfl, .inl rfl⟩

end Rules

/-! ## The three paths -/

section Paths

variable {uid : Nat} {app : Text} {useBigJob : Bool} (settings : Settings) (instanceId : Nat)
  (wallet : Text) (block : Block) (prePowHash : Hash) (jobId : Nat)

omit [Platform] in
private theorem mem_silent {kind : Kind} (silent : kind ≠ .sendNotify) :
    kind ∈ Kind.except [.sendNotify] := Kind.mem_except.mpr (List.mem_singleton.not.mpr silent)

theorem returns_sendClientDiff (diff : ℚ) :
    Returns (Identified uid app useBigJob) true (sendClientDiff instanceId uid diff) :=
  ⟨true, trivial, rfl⟩

theorem notifications_sendImmediate (initialDiff : ℚ) :
    notifications uid app useBigJob
        (sendImmediate instanceId uid wallet app initialDiff block prePowHash jobId) =
      {.notify jobId (jobParams app useBigJob prePowHash block.header.timestamp)
        (isIceriver app)} := by
  refine notifications_bind_of_uses (uses_perform (.ring uid .stratumDiff) (mem_silent nofun))
    fun stored _ => ?_
  refine notifications_bind_of_uses (updateWorkerDifficulty_uses _ _ (mem_silent nofun) _ _) fun _ _ => ?_
  refine notifications_bind_ite (sendClientDiff_uses _ _ (mem_silent nofun) (mem_silent nofun) _)
    (returns_sendClientDiff instanceId _) ?_
  refine notifications_bind_of_uses (uses_quiet (mem_silent nofun) (.ring uid .useBigJob) rfl)
    fun setting known => ?_
  rw [eq_of_returns_useBigJob known]
  exact notifications_sendNotify fun sent => recordNotified_uses _ _ (mem_silent nofun) _ _

/-- The immediate path. -/
theorem notifications_announceImmediate (initialDiff : ℚ) :
    notifications uid app useBigJob
        (announceImmediate settings instanceId uid wallet app initialDiff block prePowHash jobId) =
      {.notify jobId (jobParams app useBigJob prePowHash block.header.timestamp)
        (isIceriver app)} := by
  refine notifications_bind_of_uses (uses_quiet (mem_silent nofun) (.ring uid .isInitialized) rfl)
    fun initialized _ => ?_
  cases (initialized : Bool) with
  | true => exact notifications_sendImmediate instanceId wallet block prePowHash jobId initialDiff
  | false =>
      refine notifications_bind_of_uses
        (initializeState_uses settings _ _ (mem_silent nofun) (mem_silent nofun) _ _) fun _ _ => ?_
      exact notifications_sendImmediate instanceId wallet block prePowHash jobId initialDiff

/-- The new-block path. -/
theorem notifications_announceNewBlock (client : Text) (seed : ℚ) :
    notifications uid app useBigJob
        (announceNewBlock settings instanceId uid wallet client seed block prePowHash jobId) =
      {.notify jobId (jobParams app useBigJob prePowHash block.header.timestamp)
        (Text.contains (Text.ofString "IceRiver") app)} := by
  have announced : notifications uid app useBigJob (do
      let app ← remoteApp uid
      let useBigJob : Bool ← call (.ring uid .useBigJob)
      let current ← remoteApp uid
      let notified ← sendNotify uid jobId
        (jobParams app useBigJob prePowHash block.header.timestamp)
        (Text.contains (Text.ofString "IceRiver") current)
      recordNotified instanceId uid wallet notified) =
        {.notify jobId (jobParams app useBigJob prePowHash block.header.timestamp)
          (Text.contains (Text.ofString "IceRiver") app)} := by
    refine notifications_bind_of_uses (remoteApp_uses (mem_silent nofun) _) fun found named => ?_
    refine notifications_bind_of_uses (uses_quiet (mem_silent nofun) (.ring uid .useBigJob) rfl)
      fun setting known => ?_
    refine notifications_bind_of_uses (remoteApp_uses (mem_silent nofun) _) fun current again => ?_
    rw [eq_of_returns_remoteApp named, eq_of_returns_useBigJob known,
      eq_of_returns_remoteApp again]
    exact notifications_sendNotify fun sent => recordNotified_uses _ _ (mem_silent nofun) _ _
  refine notifications_bind_of_uses (registerClientVardiff_uses _ _ (mem_silent nofun) _)
    fun initialDiff _ => ?_
  have reaches : Returns (Identified uid app useBigJob) true
      (announceDifficulty settings instanceId uid client initialDiff) := by
    obtain ⟨finished, initializes⟩ := exists_returns (@exists_identified _ uid app useBigJob)
      (initializeState settings instanceId uid client initialDiff)
    have first : Returns (Identified uid app useBigJob) false (call (.ring uid .isInitialized)) :=
      ⟨false, trivial, rfl⟩
    exact returns_bind.mpr ⟨false, first, returns_bind.mpr
      ⟨finished, initializes, returns_sendClientDiff instanceId initialDiff⟩⟩
  exact notifications_bind_ite
    (announceDifficulty_uses settings _ _ (mem_silent nofun) (mem_silent nofun) (mem_silent nofun) (mem_silent nofun) _ _)
    reaches announced

/-- The parent-refresh path. -/
theorem notifications_announceParent :
    notifications uid app useBigJob (announceParent instanceId uid block prePowHash jobId) =
      {.notify jobId (jobParams app useBigJob prePowHash block.header.timestamp)
        (isIceriver app)} := by
  refine notifications_bind_of_uses (remoteApp_uses (mem_silent nofun) _) fun found named => ?_
  refine notifications_bind_of_uses (uses_quiet (mem_silent nofun) (.ring uid .useBigJob) rfl)
    fun setting known => ?_
  rw [eq_of_returns_remoteApp named, eq_of_returns_useBigJob known]
  exact notifications_sendNotify fun sent => recordRefreshed_uses _ _ (mem_silent nofun) (mem_silent nofun) _ _

/-- The three paths announce the same job by the same message. -/
def PathsAgree (app : Text) (useBigJob : Bool) (jobId : Nat) (prePowHash : Hash)
    (timestamp : Nat) : Prop :=
  ∃ message, ∀ (settings : Settings) (instanceId uid : Nat) (wallet : Text) (block : Block),
    block.header.timestamp = timestamp →
    (∀ initialDiff, notifications uid app useBigJob (announceImmediate settings instanceId uid
      wallet app initialDiff block prePowHash jobId) = {message}) ∧
    (∀ client seed, notifications uid app useBigJob (announceNewBlock settings instanceId uid
      wallet client seed block prePowHash jobId) = {message}) ∧
    notifications uid app useBigJob (announceParent instanceId uid block prePowHash jobId) =
      {message}

end Paths

/-- A bridge without merged mining. -/
private def plainSettings : Settings where
  mergedMining := false
  kaspaPay := none
  kaspaClient := false
  paired := rfl
  coinbaseTag := []
  coinbaseAddressOverride := none
  poolFallbackAddress := []
  kaspaCommonProtocol := false
  bitmainExtranonce := true
  targetCalculation := .standard
  legacyParentJobInterval := 0
  commonParentJobInterval := 0

private def stamped (timestamp : Nat) : Block :=
  ⟨⟨0, 0, [], 0, 0, 0, timestamp, 0, 0, 0, 0, 0, 0⟩, none, []⟩

/-- **Agreement of the paths.** The three paths send the same notification exactly for a user
agent that is no IceRiver, or spells its name `IceRiver`. -/
theorem pathsAgree_iff {app : Text} {useBigJob : Bool} {jobId : Nat} {prePowHash : Hash}
    {timestamp : Nat} :
    PathsAgree app useBigJob jobId prePowHash timestamp ↔
      (isIceriver app = true → Text.contains (Text.ofString "IceRiver") app = true) := by
  constructor
  · rintro ⟨message, agree⟩ iceriver
    obtain ⟨immediate, fresh, -⟩ :=
      agree plainSettings 0 0 [] (stamped timestamp) rfl
    have first := (notifications_announceImmediate plainSettings 0 [] (stamped timestamp)
      prePowHash jobId 0).symm.trans (immediate 0)
    have second := (notifications_announceNewBlock plainSettings 0 [] (stamped timestamp)
      prePowHash jobId [] 0).symm.trans (fresh [] 0)
    have same := Set.singleton_injective (first.trans second.symm)
    rw [← (Message.notify.inj same).2.2]
    exact iceriver
  · intro spelled
    have form : isIceriver app = Text.contains (Text.ofString "IceRiver") app :=
      Bool.eq_iff_iff.mpr ⟨spelled, isIceriver_of_spelled⟩
    refine ⟨.notify jobId (jobParams app useBigJob prePowHash timestamp) (isIceriver app), ?_⟩
    rintro settings instanceId uid wallet block rfl
    refine ⟨fun initialDiff => ?_, fun client seed => ?_, ?_⟩
    · exact notifications_announceImmediate settings instanceId wallet block prePowHash jobId _
    · rw [form]
      exact notifications_announceNewBlock settings instanceId wallet block prePowHash jobId _ _
    · exact notifications_announceParent instanceId block prePowHash jobId

end Model

section Sample

attribute [local instance] Sample.platform

/-- An IceRiver under its other name gets different messages for a job. -/
theorem paths_disagree : ¬ ∀ app useBigJob jobId prePowHash timestamp,
    PathsAgree app useBigJob jobId prePowHash timestamp := by
  intro agree
  have spelled := pathsAgree_iff.mp (agree (Text.ofString "icemining") false 1 0 0)
  exact absurd (spelled (by decide)) (by decide)

end Sample

end StratumBridge
