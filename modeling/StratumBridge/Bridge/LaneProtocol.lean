import StratumBridge.Bridge.Provenance
import StratumBridge.Interaction.Recording

/-! # How lanes are built and refreshed

A full template gets one ZKas block, asks for a parent of its lane at most once, and
keeps the lane with a flag telling whether the payee was the pool. A refresh asks for a
parent of the lane of the connection's newest job, for the payout address then current.
-/

namespace StratumBridge

open Interaction

variable [Platform] {deployment : Deployment}

/-- The calls that build or refresh a lane. -/
inductive LaneCall where
  | found (job : Job)
  | payout (uid : Nat) (payee : Option Address)
  /-- The lane was found pending and unclaimed. -/
  | opened (hFc : Hash)
  /-- The ZKas node issued a block. -/
  | issued (fcBlock : Block)
  /-- The Kaspa node was asked for a parent. -/
  | asked (pay : Address) (extraData : List Byte)
  /-- The lane was put into the pending store. -/
  | kept (hFc : Hash)
deriving DecidableEq

def laneCall : (op : BridgeOp) → op.Answer → Option LaneCall
  | .ring _ (.getJob _), some job => some (.found job)
  | .context uid .kasPayout, payee => some (.payout uid payee)
  | .pending (.isUnsolved hFc), true => some (.opened hFc)
  | .zkasTemplate _ _, .block fcBlock => some (.issued fcBlock)
  | .kaspaTemplate pay extraData, _ => some (.asked pay extraData)
  | .pending (.insertWithPayee hFc _ _), _ => some (.kept hFc)
  | _, _ => none

/-- The operation behind a call that builds or refreshes a lane. -/
inductive Builds : (op : BridgeOp) → op.Answer → LaneCall → Prop where
  | found (uid id : Nat) (job : Job) : Builds (.ring uid (.getJob id)) (some job) (.found job)
  | payout (uid : Nat) (payee : Option Address) :
      Builds (.context uid .kasPayout) payee (.payout uid payee)
  | opened (hFc : Hash) : Builds (.pending (.isUnsolved hFc)) true (.opened hFc)
  | issued (recipient : Address) (tag : List Byte) (fcBlock : Block) :
      Builds (.zkasTemplate recipient tag) (.block fcBlock) (.issued fcBlock)
  | asked (pay : Address) (extraData : List Byte) (reply : TemplateReply) :
      Builds (.kaspaTemplate pay extraData) reply (.asked pay extraData)
  | kept (hFc : Hash) (fcBlock : Block) (paidPool : Bool) :
      Builds (.pending (.insertWithPayee hFc fcBlock paidPool)) () (.kept hFc)

/-- **Inversion of a recorded call.** -/
theorem laneCall_cases {op : BridgeOp} {answer : op.Answer} {item : LaneCall}
    (chosen : laneCall op answer = some item) : Builds op answer item := by
  unfold laneCall at chosen
  split at chosen
  case h_7 => exact nomatch chosen
  all_goals
    cases chosen
    constructor

theorem exists_did_of_built {log : Record deployment} {thread : Nat} {item : LaneCall}
    (member : item ∈ System.ownCalls laneCall thread log) :
    ∃ op answer, .did thread op answer ∈ log ∧ Builds op answer item := by
  obtain ⟨op, answer, inLog, chosen⟩ := System.mem_ownCalls.mp member
  exact ⟨op, answer, inLog, laneCall_cases chosen⟩

/-- No lane was built yet: only jobs and payout addresses were read. -/
def Unbuilt (calls : List LaneCall) : Prop :=
  ∀ call ∈ calls, (∃ job, call = .found job) ∨ ∃ uid payee, call = .payout uid payee

/-- The payee of a full template: the payout address read for the connection, or nobody in
the fee minute of its lane. -/
def TemplatePayee (pre : List LaneCall) (payee : Option Address) : Prop :=
  ∃ uid kasPayout systemTime, .payout uid kasPayout ∈ pre ∧
    payee = templatePayee uid systemTime kasPayout

/-- Why a task may ask for a parent. -/
inductive MayAsk (settings : Settings) (request : BridgeRequest) (calls : List LaneCall)
    (pay : Address) (extraData : List Byte) : Prop where
  /-- A full template, for the lane of the block it just got. -/
  | build (merged : settings.mergedMining = true) (pre : List LaneCall) (fcBlock : Block)
      (payee : Option Address)
      (before : calls = pre ++ [.issued fcBlock]) (unbuilt : Unbuilt pre)
      (chosen : TemplatePayee pre payee)
      (lane : extraData = parentExtraData fcBlock.header.hash)
      (recipient : parentRecipient settings payee = some pay)
  /-- A refresh, for the open lane of the job it found and the payout address it read. -/
  | refresh (merged : settings.mergedMining = true) (uid : Nat) (job : Job) (hFc : Hash)
      (payee : Option Address)
      (serves : request = .newParent uid) (before : calls = [.found job, .payout uid payee, .opened hFc])
      (commits : committedHFc job.block = some hFc) (lane : extraData = parentExtraData hFc)
      (recipient : parentRecipient settings payee = some pay)
  /-- A fetch requested as such. -/
  | direct (hFc : Hash) (payee : Option Address) (force : Bool)
      (serves : request = .fetchKaspaParent hFc payee force)

/-- At most one request, for the recipient of the payee. -/
def AsksFor (settings : Settings) (payee : Option Address) (hFc : Hash)
    (asks : List LaneCall) : Prop :=
  asks = [] ∨ ∃ pay, parentRecipient settings payee = some pay ∧
    asks = [.asked pay (parentExtraData hFc)]

/-- A lane is kept once per issued block, with the flag of the payee it was asked for. -/
def MayKeep (settings : Settings) (calls : List LaneCall) (hFc : Hash) (fcBlock : Block)
    (paidPool : Bool) : Prop :=
  ∃ pre asks payee, calls = pre ++ [.issued fcBlock] ++ asks ∧ Unbuilt pre ∧
    TemplatePayee pre payee ∧ hFc = fcBlock.header.hash ∧ paidPool = Option.isNone payee ∧ AsksFor settings payee hFc asks

def LanePermits (settings : Settings) (request : BridgeRequest) (calls : List LaneCall) :
    BridgeOp → Prop
  | .zkasTemplate _ _ => Unbuilt calls
  | .kaspaTemplate pay extraData =>
      settings.kaspaClient = true ∧ MayAsk settings request calls pay extraData
  | .pending (.insertWithPayee hFc fcBlock paidPool) => MayKeep settings calls hFc fcBlock paidPool
  | _ => True

/-- Tasks build and refresh lanes in order. -/
@[reducible] def lanes (settings : Settings) :
    Protocol bridgeSignature BridgeRequest LaneCall BridgeResult where
  select := laneCall
  permits := LanePermits settings
  answers := fun _ _ => True
  completes := fun _ _ _ => True

/-! ## Tasks obey the protocol -/

/-- The kinds of operations that do not build lanes. -/
def nonBuildingKinds : List Kind :=
  Kind.except [.pendingInsert, .zkasTemplate, .kaspaTemplate]

/-- The kinds of operations the protocol does not record either. -/
def unrecordedKinds : List Kind :=
  Kind.except [.payoutRead, .jobRead, .unsolvedRead, .pendingInsert, .zkasTemplate, .kaspaTemplate]

variable {settings : Settings} {request : BridgeRequest} {calls : List LaneCall} {α β : Type}

theorem lanePermits_of_nonBuilding {op : BridgeOp} (other : op.kind ∈ nonBuildingKinds) :
    LanePermits settings request calls op := by
  have noIssue : Kind.zkasTemplate ∉ nonBuildingKinds := by decide
  have noAsk : Kind.kaspaTemplate ∉ nonBuildingKinds := by decide
  have noKeep : Kind.pendingInsert ∉ nonBuildingKinds := by decide
  unfold LanePermits
  split
  · exact absurd other noIssue
  · exact absurd other noAsk
  · exact absurd other noKeep
  · trivial

theorem laneCall_of_unrecorded {op : BridgeOp} (other : op.kind ∈ unrecordedKinds)
    (answer : op.Answer) : laneCall op answer = none := by
  have noFound : Kind.jobRead ∉ unrecordedKinds := by decide
  have noPayout : Kind.payoutRead ∉ unrecordedKinds := by decide
  have noOpen : Kind.unsolvedRead ∉ unrecordedKinds := by decide
  have noIssue : Kind.zkasTemplate ∉ unrecordedKinds := by decide
  have noAsk : Kind.kaspaTemplate ∉ unrecordedKinds := by decide
  have noKeep : Kind.pendingInsert ∉ unrecordedKinds := by decide
  unfold laneCall
  split
  · exact absurd other noFound
  · exact absurd other noPayout
  · exact absurd other noOpen
  · exact absurd other noIssue
  · exact absurd other noAsk
  · exact absurd other noKeep
  · rfl

theorem lanes_ignores {op : BridgeOp} (other : op.kind ∈ unrecordedKinds) :
    (lanes settings).Ignores op := by
  have subset : unrecordedKinds ⊆ nonBuildingKinds := by decide
  exact ⟨fun _ _ => lanePermits_of_nonBuilding (subset other), laneCall_of_unrecorded other⟩

/-- A task that builds no lane obeys the protocol. -/
theorem Uses.buildsNothing {kinds : List Kind} {task : Task α} (uses : Uses kinds task)
    (subset : kinds ⊆ nonBuildingKinds) :
    (lanes settings).Obeys request calls task fun _ _ => True := by
  apply Protocol.obeys_of_permitted
  induction task with
  | done result => trivial
  | call op next ih =>
      exact ⟨fun _ => lanePermits_of_nonBuilding (subset uses.1),
        fun answer => ih answer (uses.2 answer)⟩

/-- A prefix that records nothing can be skipped. -/
theorem lanes_skip {first : Task α} {rest : α → Task β} {post : List LaneCall → β → Prop}
    (uses : Uses unrecordedKinds first)
    (tail : ∀ result, (lanes settings).Obeys request calls (rest result) post) :
    (lanes settings).Obeys request calls (first >>= rest) post := by
  refine Protocol.obeys_bind_of_within ?_ tail
  clear tail
  induction first with
  | done result => trivial
  | call op next ih => exact ⟨lanes_ignores uses.1, fun answer => ih answer (uses.2 answer)⟩

/-- One call, then the rest. -/
theorem lanes_call (op : BridgeOp) {rest : op.Answer → Task α} {post : List LaneCall → α → Prop}
    (permitted : LanePermits settings request calls op)
    (tail : ∀ answer, (lanes settings).Obeys request (calls ++ (laneCall op answer).toList)
      (rest answer) post) :
    (lanes settings).Obeys request calls (call op >>= rest) post :=
  ⟨permitted, fun answer _ => tail answer⟩

theorem requestKaspaParent_lane (client : settings.kaspaClient = true) {hFc : Hash} {pay : Address}
    (may : MayAsk settings request calls pay (parentExtraData hFc)) :
    (lanes settings).Obeys request calls (requestKaspaParent hFc pay) fun after _ =>
      after = calls ++ [.asked pay (parentExtraData hFc)] := by
  have quiet : Kind.quiet ∈ unrecordedKinds := by decide
  have cache : Kind.cache ∈ unrecordedKinds := by decide
  have permits : Kind.permit ∈ unrecordedKinds := by decide
  refine lanes_skip (uses_perform (.parent .acquirePermit) permits) fun _ => ?_
  refine lanes_call (.kaspaTemplate pay (parentExtraData hFc)) ⟨client, may⟩
    fun (reply : TemplateReply) => ?_
  cases reply with
  | failed error =>
      exact lanes_skip (uses_perform (.parent .releasePermit) permits) fun _ =>
        Protocol.obeys_done rfl
  | malformed error =>
      exact lanes_skip (uses_perform (.parent .releasePermit) permits) fun _ =>
        Protocol.obeys_done rfl
  | block parent =>
      refine lanes_skip (uses_quiet quiet .now rfl) fun now => ?_
      refine lanes_skip (uses_perform (.parent (.writeCache _)) cache) fun _ => ?_
      exact lanes_skip (uses_perform (.parent .releasePermit) permits) fun _ =>
        Protocol.obeys_done rfl

theorem fetchKaspaParent_lane {hFc : Hash} {payee : Option Address} (force : Bool)
    (may : ∀ pay, parentRecipient settings payee = some pay →
      MayAsk settings request calls pay (parentExtraData hFc)) :
    (lanes settings).Obeys request calls (fetchKaspaParent settings hFc payee force)
      fun after _ => ∃ asks, after = calls ++ asks ∧ AsksFor settings payee hFc asks := by
  have unasked : ∀ result : Except Text Block,
      (lanes settings).Obeys request calls (.done result) fun after _ =>
        ∃ asks, after = calls ++ asks ∧ AsksFor settings payee hFc asks :=
    fun result => Protocol.obeys_done ⟨[], (List.append_nil _).symm, Or.inl rfl⟩
  unfold fetchKaspaParent
  split
  case isTrue client =>
    split
    · exact unasked _
    case h_2 pay recipient =>
      have requested : (lanes settings).Obeys request calls (requestKaspaParent hFc pay)
          fun after _ => ∃ asks, after = calls ++ asks ∧ AsksFor settings payee hFc asks := by
        refine (requestKaspaParent_lane client (may pay recipient)).mono ?_
        rintro after _ rfl
        exact ⟨_, rfl, Or.inr ⟨pay, recipient, rfl⟩⟩
      have cache : Kind.cache ∈ unrecordedKinds := by decide
      refine lanes_skip (uses_perform (.parent .readCache) cache) fun cached => ?_
      split
      · refine lanes_skip (uses_quiet (by decide) .now rfl) fun now => ?_
        split
        · exact unasked _
        · exact requested
      · exact requested
  case isFalse => exact unasked _

theorem mergedTemplate_lane (merged : settings.mergedMining = true) {pre : List LaneCall} {fcBlock : Block} (unbuilt : Unbuilt pre)
    {kasPayout : Option Address} {laneId : Nat} (read : .payout laneId kasPayout ∈ pre) :
    (lanes settings).Obeys request (pre ++ [.issued fcBlock])
      (mergedTemplate settings fcBlock kasPayout laneId) fun _ _ => True := by
  have quiet : Kind.quiet ∈ unrecordedKinds := by decide
  refine lanes_skip (uses_quiet quiet .systemTime rfl) fun systemTime => ?_
  have chosen : TemplatePayee pre (templatePayee laneId systemTime kasPayout) :=
    ⟨laneId, kasPayout, systemTime, read, rfl⟩
  have may : ∀ pay, parentRecipient settings (templatePayee laneId systemTime kasPayout) =
      some pay → MayAsk settings request (pre ++ [.issued fcBlock]) pay
        (parentExtraData fcBlock.header.hash) :=
    fun pay recipient => .build merged pre fcBlock _ rfl unbuilt chosen rfl recipient
  refine (fetchKaspaParent_lane false may).bind ?_
  rintro after fetched ⟨asks, rfl, asksFor⟩
  refine lanes_call (.pending (.insertWithPayee fcBlock.header.hash fcBlock
    (templatePayee laneId systemTime kasPayout).isNone)) ?_ fun _ => Protocol.obeys_done trivial
  exact ⟨pre, asks, _, rfl, unbuilt, chosen, rfl, rfl, asksFor⟩

theorem templateAttempts_lane (unbuilt : Unbuilt calls) {kasPayout : Option Address} {laneId : Nat}
    (read : .payout laneId kasPayout ∈ calls) (wallet : Text)
    (sessionUid generation remaining : Nat) :
    (lanes settings).Obeys request calls
      (templateAttempts settings wallet sessionUid generation kasPayout laneId remaining)
      fun _ _ => True := by
  induction remaining with
  | zero => exact Protocol.obeys_done trivial
  | succ remaining ih =>
      unfold templateAttempts
      dsimp only
      split
      · exact Protocol.obeys_done trivial
      · refine lanes_call (.zkasTemplate _ _) unbuilt fun (reply : TemplateReply) => ?_
        cases reply with
        | failed error =>
            change (lanes settings).Obeys request (calls ++ []) _ _
            rw [List.append_nil]
            dsimp only
            split
            · exact ih
            · exact Protocol.obeys_done trivial
        | malformed error =>
            change (lanes settings).Obeys request (calls ++ []) _ _
            rw [List.append_nil]
            dsimp only
            split
            · exact ih
            · split <;> exact Protocol.obeys_done trivial
        | block fcBlock =>
            -- Serialization never fails, so an issued block ends the attempts.
            change (lanes settings).Obeys request (calls ++ [.issued fcBlock])
              (if settings.mergedMining then do
                let parent ← mergedTemplate settings fcBlock kasPayout laneId
                return .ok parent
              else return .ok fcBlock : Task (Except Text Block)) _
            split
            case isTrue merged =>
              exact (mergedTemplate_lane merged unbuilt read).bind fun _ _ _ =>
                Protocol.obeys_done trivial
            case isFalse => exact Protocol.obeys_done trivial

theorem requestTemplate_lane (unbuilt : Unbuilt calls) (uid : Nat) (wallet : Text) :
    (lanes settings).Obeys request calls (requestTemplate settings uid wallet)
      fun _ _ => True := by
  have draws : Kind.generation ∈ unrecordedKinds := by decide
  refine lanes_skip (uses_perform (.context uid .nextTemplateGeneration) draws)
    fun generation => ?_
  refine lanes_call (.context uid .kasPayout) trivial fun kasPayout => ?_
  have extended : Unbuilt (calls ++ [.payout uid kasPayout]) := by
    intro other member
    rcases List.mem_append.mp member with earlier | last
    · exact unbuilt other earlier
    · exact Or.inr ⟨uid, kasPayout, List.mem_singleton.mp last⟩
  exact templateAttempts_lane extended (List.mem_append_right _ List.mem_cons_self) ..

/-! ## Publications -/

/-- Nothing after the template builds a lane. -/
theorem afterTemplate_lane {uid : Nat} {wallet : Text} {rest : Except Text Block → Task α}
    (unbuilt : Unbuilt calls) (silent : ∀ template, Uses nonBuildingKinds (rest template)) :
    (lanes settings).Obeys request calls (requestTemplate settings uid wallet >>= rest)
      fun _ _ => True :=
  (requestTemplate_lane unbuilt uid wallet).bind fun _ template _ =>
    (silent template).buildsNothing (List.Subset.refl _)

theorem buildImmediate_lane (unbuilt : Unbuilt calls) (instanceId uid : Nat) (initialDiff : ℚ) :
    (lanes settings).Obeys request calls (buildImmediate settings instanceId uid initialDiff)
      fun _ _ => True := by
  have quiet : Kind.quiet ∈ unrecordedKinds := by decide
  have quietToo : Kind.quiet ∈ nonBuildingKinds := by decide
  have adds : Kind.addJob ∈ nonBuildingKinds := by decide
  refine lanes_skip (walletAddr_uses quiet uid) fun wallet => ?_
  refine lanes_skip (remoteApp_uses quiet uid) fun app => ?_
  refine afterTemplate_lane unbuilt fun template => ?_
  cases template with
  | error error => exact templateFailed_uses instanceId uid quietToo wallet error
  | ok block =>
      refine (uses_quiet quietToo (.ring uid (.setBigDiff _)) rfl).bind fun _ => ?_
      split
      · exact uses_quiet quietToo _ rfl
      · refine (uses_perform (.ring uid (.addJob _)) adds).bind fun jobId => ?_
        exact announceImmediate_uses settings instanceId uid quietToo (by decide) (by decide)
          (by decide) (by decide) ..

theorem buildNewBlock_lane (unbuilt : Unbuilt calls) (instanceId uid : Nat) (seed : ℚ) :
    (lanes settings).Obeys request calls (buildNewBlock settings instanceId uid seed)
      fun _ _ => True := by
  have quiet : Kind.quiet ∈ unrecordedKinds := by decide
  have quietToo : Kind.quiet ∈ nonBuildingKinds := by decide
  have adds : Kind.addJob ∈ nonBuildingKinds := by decide
  refine lanes_skip (walletAddr_uses quiet uid) fun wallet => ?_
  refine lanes_skip (remoteApp_uses quiet uid) fun app => ?_
  refine afterTemplate_lane unbuilt fun template => ?_
  cases template with
  | error error => exact templateFailed_uses instanceId uid quietToo wallet error
  | ok block =>
      refine (uses_quiet quietToo (.ring uid (.setBigDiff _)) rfl).bind fun _ => ?_
      split
      · exact uses_quiet quietToo _ rfl
      · refine (uses_perform (.ring uid (.addJob _)) adds).bind fun jobId => ?_
        exact announceNewBlock_uses settings instanceId uid quietToo (by decide) (by decide)
          (by decide) (by decide) ..

theorem sendImmediateJobToClient_lane (unbuilt : Unbuilt calls) (uid : Nat) :
    (lanes settings).Obeys request calls (sendImmediateJobToClient settings uid)
      fun _ _ => True := by
  have quiet : Kind.quiet ∈ unrecordedKinds := by decide
  have locks : Kind.buildLock ∈ unrecordedKinds := by decide
  have sets : Kind.setDiff ∈ unrecordedKinds := by decide
  have unlocks : Kind.buildLock ∈ nonBuildingKinds := by decide
  refine lanes_skip (uses_quiet quiet (.context uid .read) rfl) fun context => ?_
  refine lanes_skip (registerClientVardiff_uses _ uid quiet _) fun initialDiff => ?_
  refine lanes_skip (setStratumDiff_uses settings uid sets initialDiff) fun _ => ?_
  refine lanes_skip (uses_perform (.context uid .lockJobBuild) locks) fun _ => ?_
  refine (buildImmediate_lane unbuilt _ uid initialDiff).bind fun _ _ _ => ?_
  exact (uses_perform (.context uid .unlockJobBuild) unlocks).buildsNothing (List.Subset.refl _)

theorem newBlockAvailable_lane (unbuilt : Unbuilt calls) (uid : Nat) :
    (lanes settings).Obeys request calls (newBlockAvailable settings uid) fun _ _ => True := by
  have quiet : Kind.quiet ∈ unrecordedKinds := by decide
  have locks : Kind.buildLock ∈ unrecordedKinds := by decide
  have unlocks : Kind.buildLock ∈ nonBuildingKinds := by decide
  have unlock : ∀ {calls : List LaneCall}, (lanes settings).Obeys request calls
      (call (.context uid .unlockJobBuild)) fun _ _ => True :=
    (uses_perform (.context uid .unlockJobBuild) unlocks).buildsNothing (List.Subset.refl _)
  refine lanes_skip (uses_perform (.context uid .tryLockJobBuild) locks) fun locked => ?_
  cases (locked : Bool) with
  | false => exact Protocol.obeys_done trivial
  | true =>
      refine lanes_skip (uses_quiet quiet (.context uid .read) rfl) fun (context : Context) => ?_
      by_cases missing : context.walletAddr = []
      · simp only [if_pos missing]
        exact lanes_skip (skipWithoutWallet_uses _ uid quiet _) fun _ => unlock
      · simp only [if_neg missing]
        exact (buildNewBlock_lane unbuilt _ uid _).bind fun _ _ _ => unlock

/-! ## Refreshes -/

/-- The newest job is the only thing read, if there is one. -/
theorem latestJob_lane (uid : Nat) :
    (lanes settings).Obeys request [] (latestJob uid) fun after latest =>
      ∀ id job, latest = some (id, job) → after = [.found job] := by
  refine lanes_call (.ring uid .storedJobIds) trivial fun ids => ?_
  cases (ids : List Nat).max? with
  | none => exact Protocol.obeys_done fun id job absurdity => nomatch absurdity
  | some newest =>
      refine lanes_call (.ring uid (.getJob newest)) trivial fun (found : Option Job) => ?_
      apply Protocol.obeys_done
      intro id job same
      obtain ⟨resolved, known, pair⟩ := Option.map_eq_some_iff.mp same
      cases pair
      cases known
      rfl

theorem refreshParent_lane (instanceId uid : Nat) (job : Job) :
    (lanes settings).Obeys (.newParent uid) [.found job]
      (refreshParent settings instanceId uid job) fun _ _ => True := by
  have locks : Kind.buildLock ∈ nonBuildingKinds := by decide
  refine lanes_call (.context uid .kasPayout) trivial fun payee => ?_
  have refreshed : (lanes settings).Obeys (.newParent uid) [.found job, .payout uid payee]
      (refreshMergedParent settings job.block payee) fun _ _ => True := by
    unfold refreshMergedParent
    split
    case isTrue both =>
      have merged : settings.mergedMining = true := (Bool.and_eq_true_iff.mp both).1
      split
      · exact Protocol.obeys_done trivial
      case h_2 hFc commits =>
        refine lanes_call (.pending (.isUnsolved hFc)) trivial fun unsolved => ?_
        cases (unsolved : Bool) with
        | false => exact Protocol.obeys_done trivial
        | true =>
            have may : ∀ pay, parentRecipient settings payee = some pay →
                MayAsk settings (.newParent uid) [.found job, .payout uid payee, .opened hFc] pay
                  (parentExtraData hFc) :=
              fun pay recipient => .refresh merged uid job hFc payee rfl rfl commits rfl recipient
            exact (fetchKaspaParent_lane true may).bind fun _ _ _ => Protocol.obeys_done trivial
    case isFalse => exact Protocol.obeys_done trivial
  refine refreshed.bind fun _ result _ => ?_
  refine Uses.buildsNothing (?_ : Uses nonBuildingKinds _) (List.Subset.refl _)
  split
  · refine (uses_perform (.context uid .tryLockJobBuild) locks).bind fun locked => ?_
    cases (locked : Bool) with
    | false => exact uses_done _
    | true =>
        exact (publishParent_uses instanceId uid (by decide) (by decide) (by decide) (by decide)
          (by decide) _ _).bind fun _ =>
          uses_perform (.context uid .unlockJobBuild) locks
  · exact uses_done _

theorem newParentAvailable_lane (uid : Nat) :
    (lanes settings).Obeys (.newParent uid) [] (newParentAvailable settings uid)
      fun _ _ => True := by
  have quiet : Kind.quiet ∈ unrecordedKinds := by decide
  have gates : Kind.refreshGate ∈ nonBuildingKinds := by decide
  have release : ∀ {calls : List LaneCall}, (lanes settings).Obeys (.newParent uid) calls
      (call (.context uid .releaseParentRefresh)) fun _ _ => True :=
    (uses_perform (.context uid .releaseParentRefresh) gates).buildsNothing
      (List.Subset.refl nonBuildingKinds)
  refine lanes_skip (uses_quiet quiet (.context uid .read) rfl) fun (context : Context) => ?_
  split
  · exact Protocol.obeys_done trivial
  · refine lanes_skip (tryParentRefresh_uses uid quiet (by decide) _) fun permitted => ?_
    cases permitted with
    | false => exact Protocol.obeys_done trivial
    | true =>
        refine (latestJob_lane uid).bind fun after latest read => ?_
        cases latest with
        | none => exact release
        | some latest =>
            obtain rfl := read latest.1 latest.2 rfl
            exact (refreshParent_lane _ uid latest.2).bind fun _ _ _ => release

/-! ## The whole bridge -/

theorem answerAuthorization_lane (unbuilt : Unbuilt calls) (uid : Nat) (eventId : Option Value) :
    (lanes settings).Obeys request calls (answerAuthorization settings uid eventId)
      fun _ _ => True := by
  have quiet : Kind.quiet ∈ unrecordedKinds := by decide
  refine lanes_skip (answer_uses (by decide) uid rfl) fun replied => ?_
  cases replied with
  | error error => exact Protocol.obeys_done trivial
  | ok _ =>
      refine lanes_skip (sendAuthorizedExtranonce_uses settings uid quiet (by decide)) fun extranonce => ?_
      cases extranonce with
      | error error => exact Protocol.obeys_done trivial
      | ok _ =>
          exact (sendImmediateJobToClient_lane unbuilt uid).bind fun _ _ _ =>
            Protocol.obeys_done trivial

theorem authorize_lane (unbuilt : Unbuilt calls) (uid : Nat) (eventId : Option Value)
    (identity : Text) (password : Option Text) :
    (lanes settings).Obeys request calls (authorize settings uid eventId identity password)
      fun _ _ => True := by
  have quiet : Kind.quiet ∈ unrecordedKinds := by decide
  have registers : Kind.registration ∈ unrecordedKinds := by decide
  refine lanes_skip (readContext_uses quiet uid) fun context => ?_
  refine lanes_skip (authorizedWallet_uses settings _ uid quiet _) fun wallet => ?_
  refine lanes_skip (deactivateClientVardiff_uses _ uid quiet registers) fun _ => ?_
  refine lanes_skip (storeIdentity_uses uid quiet (by decide) wallet _) fun label => ?_
  refine lanes_skip (walletAddr_uses quiet uid) fun stored => ?_
  refine lanes_skip (registerIdentity_uses _ uid quiet registers stored) fun _ => ?_
  refine lanes_skip (remoteApp_uses quiet uid) fun app => ?_
  refine lanes_skip (storePayouts_uses uid quiet (by decide) _ _) fun _ => ?_
  refine lanes_skip (openSession_uses uid quiet (by decide) (by decide) wallet label app)
    fun _ => ?_
  exact answerAuthorization_lane unbuilt uid eventId

/-- **Every task obeys the lane protocol.** -/
theorem bridgeProgram_lane (request : BridgeRequest) :
    (lanes settings).Obeys request [] (bridgeProgram settings request) fun _ _ => True := by
  have unbuilt : Unbuilt [] := fun _ member => nomatch member
  have finish : ∀ {calls : List LaneCall} (result : BridgeResult),
      (lanes settings).Obeys request calls (.done result) fun _ _ => True :=
    fun _ => Protocol.obeys_done trivial
  have quiet : Kind.quiet ∈ nonBuildingKinds := by decide
  cases request with
  | fetchKaspaParent hFc payee force =>
      have may : ∀ pay, parentRecipient settings payee = some pay →
          MayAsk settings (.fetchKaspaParent hFc payee force) [] pay (parentExtraData hFc) :=
        fun pay _ => .direct hFc payee force rfl
      exact (fetchKaspaParent_lane force may).bind fun _ result _ => finish _
  | submit uid event =>
      exact ((handleSubmit_uses settings uid event).buildsNothing (by decide)).bind
        fun _ result _ => finish _
  | authorize uid event =>
      have handled : (lanes settings).Obeys (.authorize uid event) []
          (handleAuthorize settings uid event) fun _ _ => True := by
        unfold handleAuthorize
        split
        · exact Protocol.obeys_done trivial
        · exact authorize_lane unbuilt uid _ _ _
      exact handled.bind fun _ result _ => finish _
  | immediateJob uid =>
      exact (sendImmediateJobToClient_lane unbuilt uid).bind fun _ _ _ => finish _
  | newBlock uid => exact (newBlockAvailable_lane unbuilt uid).bind fun _ _ _ => finish _
  | newParent uid => exact (newParentAvailable_lane uid).bind fun _ _ _ => finish _
  | retarget instanceId key next =>
      exact ((retarget_uses instanceId quiet key next).buildsNothing (List.Subset.refl _)).bind
        fun _ _ _ => finish _
  | connect =>
      exact ((acceptConnection_uses quiet (by decide) (by decide) (by decide)).buildsNothing
        (List.Subset.refl _)).bind fun _ _ _ => finish _
  | createStats uid =>
      exact ((createStatsLater_uses uid quiet).buildsNothing (List.Subset.refl _)).bind
        fun _ _ _ => finish _
  | subscribe uid event =>
      exact ((handleSubscribe_uses settings uid quiet (by decide) (by decide) (by decide) event).buildsNothing
        (List.Subset.refl _)).bind fun _ _ _ => finish _
  | disconnect uid =>
      exact ((onDisconnect_uses uid quiet (by decide) (by decide) (by decide)
        (by decide)).buildsNothing (List.Subset.refl _)).bind fun _ _ _ => finish _
  | pruneStats instanceId =>
      exact ((pruneStats_uses instanceId quiet (by decide)).buildsNothing
        (List.Subset.refl _)).bind fun _ _ _ => finish _
  | confirmBlock instanceId handle worker hash nonce blueScore =>
      exact ((confirmBlock_uses instanceId quiet (by decide) (by decide) ..).buildsNothing
        (List.Subset.refl _)).bind fun _ _ _ => finish _

/-- **Lane protocol.** Every run is explained by it. -/
theorem lanes_execute (events : List (bridge deployment).Event) :
    @System.Explained (bridge deployment) LaneCall (lanes deployment.settings)
      (System.execute events).log :=
  System.explained_execute bridgeProgram_lane events fun _ _ _ _ => trivial

end StratumBridge
