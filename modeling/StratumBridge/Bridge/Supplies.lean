import StratumBridge.Bridge.LaneOrder
import StratumBridge.Bridge.RefreshGate
import StratumBridge.Interaction.Supply

/-! # Locks and permits of the bridge

Tasks wait at two places: for the job-build lock of a connection, and for a permit to ask the
Kaspa node for a parent. A task that builds may ask for a parent, but a task that has a permit
waits for nothing; so no circle of waiting tasks forms, and every way out of a task gives back
what it took, errors included.
-/

namespace StratumBridge

open Interaction

section Model

variable [Platform]

/-! ## The supply -/

/-- What a task can hold. -/
inductive Held where
  /-- The job-build lock of a connection. -/
  | build (uid : Nat)
  /-- The permit of a parent refresh of a connection. -/
  | refresh (uid : Nat)
  /-- A permit to ask the Kaspa node for a parent. -/
  | permit
deriving DecidableEq

namespace Held

/-- Builders may wait for a permit, never the other way round. -/
def rank : Held → Nat
  | .refresh _ => 0
  | .build _ => 1
  | .permit => 2

def units : Held → Nat
  | .permit => parentPermits
  | _ => 1

end Held

def BridgeState.left (state : BridgeState) : Held → Nat
  | .build uid => if (state.contexts uid).jobBuildLocked then 0 else 1
  | .refresh uid => if (state.contexts uid).parentRefreshHeld then 0 else 1
  | .permit => state.parents.permits

def heldTurn : (op : BridgeOp) → op.Answer → Option (Held × Bool)
  | .context uid .lockJobBuild, _ => some (.build uid, true)
  | .context uid .tryLockJobBuild, true => some (.build uid, true)
  | .context uid .unlockJobBuild, _ => some (.build uid, false)
  | .context uid .acquireParentRefresh, true => some (.refresh uid, true)
  | .context uid .releaseParentRefresh, _ => some (.refresh uid, false)
  | .parent .acquirePermit, _ => some (.permit, true)
  | .parent .releasePermit, _ => some (.permit, false)
  | _, _ => none

/-- What an operation waits for. -/
def BridgeOp.waitsFor : BridgeOp → Option Held
  | .context uid .lockJobBuild => some (.build uid)
  | .parent .acquirePermit => some .permit
  | _ => none

/-- What an operation is done under: jobs are built, added and announced under the job-build
lock of their connection, and parents are asked for with a permit. -/
def BridgeOp.doneUnder : BridgeOp → Option Held
  | .context uid .nextTemplateGeneration | .ring uid (.addJob _) | .send uid (.notify _ _ _) =>
      some (.build uid)
  | .context uid (.markParentJobSent _) => some (.refresh uid)
  | .kaspaTemplate _ _ => some .permit
  | _ => none

/-- The operation behind a turn. -/
inductive Turns : (op : BridgeOp) → op.Answer → Held → Bool → Prop where
  | waited (uid : Nat) : Turns (.context uid .lockJobBuild) () (.build uid) true
  | locked (uid : Nat) : Turns (.context uid .tryLockJobBuild) true (.build uid) true
  | unlocked (uid : Nat) : Turns (.context uid .unlockJobBuild) () (.build uid) false
  | entered (uid : Nat) : Turns (.context uid .acquireParentRefresh) true (.refresh uid) true
  | left (uid : Nat) : Turns (.context uid .releaseParentRefresh) () (.refresh uid) false
  | acquired : Turns (.parent .acquirePermit) () .permit true
  | released : Turns (.parent .releasePermit) () .permit false

/-- **Inversion of a turn.** -/
theorem heldTurn_cases {op : BridgeOp} {answer : op.Answer} {resource : Held} {turn : Bool}
    (made : heldTurn op answer = some (resource, turn)) : Turns op answer resource turn := by
  unfold heldTurn at made
  split at made
  case h_8 => exact nomatch made
  all_goals
    cases made
    constructor

/-- The permits of the parent gate after an operation. -/
def BridgeOp.permitsAfter (permits : Nat) : BridgeOp → Nat
  | .parent .acquirePermit => permits - 1
  | .parent .releasePermit => permits + 1
  | _ => permits

section Performed

variable {state after : BridgeState} {env : Env} {op : BridgeOp} {answer : op.Answer}

theorem performOp_permits (performed : performOp state env op = some (answer, after)) :
    after.parents.permits = op.permitsAfter state.parents.permits := by
  cases op with
  | context uid op =>
      obtain ⟨outcome, -, same⟩ := Option.map_eq_some_iff.mp performed
      cases same
      rfl
  | parent op =>
      obtain ⟨outcome, acted, same⟩ := Option.map_eq_some_iff.mp performed
      cases same
      cases op with
      | acquirePermit =>
          obtain ⟨-, same⟩ := Option.ite_none_left_eq_some.mp acted
          cases same
          rfl
      | readCache | writeCache entry | releasePermit =>
          cases acted
          rfl
  | _ =>
      cases performed
      rfl

/-- A permit is only taken while one is left. -/
theorem permits_pos_of_acquired {answer : ParentOp.acquirePermit.Answer}
    (performed : performOp state env (.parent .acquirePermit) = some (answer, after)) :
    0 < state.parents.permits := by
  obtain ⟨outcome, acted, -⟩ := Option.map_eq_some_iff.mp performed
  exact Nat.pos_of_ne_zero (Option.ite_none_left_eq_some.mp acted).1

end Performed

theorem left_kept (deployment : Deployment) {state after : BridgeState} {env : Env} {op : BridgeOp} {answer : op.Answer}
    {resource : Held} (performed : performOp state env op = some (answer, after))
    (silent : ∀ turn, heldTurn op answer ≠ some (resource, turn)) :
    after.left resource = state.left resource := by
  cases resource with
  | build uid =>
      have unturned : buildTurn uid op answer = none := by
        unfold buildTurn
        split <;> try rfl
        all_goals
          refine if_neg fun same => ?_
          subst same
          exact silent _ rfl
      have kept := (@buildLock _ deployment uid).kept op state env answer after
        performed unturned
      exact congrArg (fun locked => if locked then 0 else 1) kept
  | refresh uid =>
      have unturned : refreshTurn uid op answer = none := by
        unfold refreshTurn
        split <;> try rfl
        all_goals
          refine if_neg fun same => ?_
          subst same
          exact silent _ rfl
      have kept := (@refreshLock _ deployment uid).kept op state env answer after
        performed unturned
      exact congrArg (fun held => if held then 0 else 1) kept
  | permit =>
      refine (performOp_permits performed).trans ?_
      cases op with
      | parent op =>
          cases op with
          | acquirePermit | releasePermit => exact absurd rfl (silent _)
          | readCache | writeCache entry => rfl
      | _ => rfl

theorem left_taken (deployment : Deployment) {state after : BridgeState} {env : Env} {op : BridgeOp} {answer : op.Answer}
    {resource : Held} (performed : performOp state env op = some (answer, after))
    (made : heldTurn op answer = some (resource, true)) :
    state.left resource = after.left resource + 1 := by
  have one : ∀ {before later : Bool}, before = false ∧ later = true →
      (if before then 0 else 1) = (if later then 0 else 1) + 1 := by
    rintro _ _ ⟨rfl, rfl⟩
    rfl
  have builds : ∀ {uid : Nat}, buildTurn uid op answer = some true →
      state.left (.build uid) = after.left (.build uid) + 1 :=
    fun turned => one ((@buildLock _ deployment _).taken op state env answer after
      performed turned)
  have refreshes : ∀ {uid : Nat}, refreshTurn uid op answer = some true →
      state.left (.refresh uid) = after.left (.refresh uid) + 1 :=
    fun turned => one ((@refreshLock _ deployment _).taken op state env answer after
      performed turned)
  cases heldTurn_cases made with
  | waited uid | locked uid => exact builds (if_pos rfl)
  | entered uid => exact refreshes (if_pos rfl)
  | acquired =>
      have permits := performOp_permits performed
      have pos := permits_pos_of_acquired performed
      simp only [BridgeOp.permitsAfter] at permits
      simp only [BridgeState.left]
      omega

theorem left_given {state after : BridgeState} {env : Env} {op : BridgeOp} {answer : op.Answer}
    {resource : Held} (performed : performOp state env op = some (answer, after))
    (made : heldTurn op answer = some (resource, false))
    (out : state.left resource < resource.units) :
    after.left resource = state.left resource + 1 := by
  have none_left : ∀ {locked : Bool}, (if locked then 0 else 1) < 1 →
      (if false = true then 0 else 1) = (if locked then 0 else 1) + 1 := by
    rintro (_ | _) below
    · exact absurd below (Nat.lt_irrefl 1)
    · rfl
  cases heldTurn_cases made with
  | unlocked uid =>
      have free := @performOp_jobBuildLocked _ _ _ _ _ _ uid performed
      simp only [if_true, ContextOp.lockedAfter] at free
      simp only [BridgeState.left, free]
      exact none_left out
  | left uid =>
      have free := @performOp_parentRefreshHeld _ _ _ _ _ _ uid performed
      simp only [if_true, ContextOp.gateAfter] at free
      simp only [BridgeState.left, free]
      exact none_left out
  | released => exact performOp_permits performed

/-- Only the job-build locks and the permits of the parent gate make a task wait. -/
theorem waitsFor_of_waiting {state : BridgeState} {env : Env} {op : BridgeOp}
    (waiting : performOp state env op = none) :
    ∃ resource, op.waitsFor = some resource ∧ state.left resource = 0 := by
  cases op with
  | context uid op =>
      have waits := Option.map_eq_none_iff.mp waiting
      cases op with
      | lockJobBuild =>
          refine ⟨.build uid, rfl, ?_⟩
          have locked : (state.contexts uid).jobBuildLocked = true := by
            by_contra free
            rw [ContextOp.act, if_neg free] at waits
            exact (Option.some_ne_none _ waits).elim
          simp only [BridgeState.left, locked, if_true]
      | _ => exact (Option.some_ne_none _ waits).elim
  | parent op =>
      have waits := Option.map_eq_none_iff.mp waiting
      cases op with
      | acquirePermit =>
          refine ⟨.permit, rfl, ?_⟩
          by_contra left
          rw [ParentOp.act, if_neg (show ¬state.parents.permits = 0 from left)] at waits
          exact (Option.some_ne_none _ waits).elim
      | _ => exact (Option.some_ne_none _ waits).elim
  | _ => exact (Option.some_ne_none _ waiting).elim

/-- No connection is being built for or refreshed when the bridge starts. -/
def Deployment.AtRest (deployment : Deployment) : Prop :=
  ∀ uid, (deployment.contexts uid).jobBuildLocked = false ∧
    (deployment.contexts uid).parentRefreshHeld = false

/-- The locks and permits of the bridge. -/
def supplies {deployment : Deployment} (rested : deployment.AtRest) : Supply (bridge deployment) Held where
  turns := heldTurn
  wants := BridgeOp.waitsFor
  under := BridgeOp.doneUnder
  rank := Held.rank
  units := Held.units
  left := BridgeState.left
  positive := by
    rintro (uid | uid | _)
    · exact Nat.one_pos
    · exact Nat.one_pos
    · decide
  initially := by
    rintro (uid | uid | _)
    · exact congrArg (fun locked => if locked then 0 else 1) (rested uid).1
    · exact congrArg (fun held => if held then 0 else 1) (rested uid).2
    · rfl
  waits := fun _ _ _ waiting => waitsFor_of_waiting waiting
  kept := fun _ _ _ _ _ _ performed silent => left_kept deployment performed silent
  taken := fun _ _ _ _ _ _ performed made => left_taken deployment performed made
  given := fun _ _ _ _ _ _ performed made out => left_given performed made out

/-! ## Tasks give back what they take -/

/-- The kinds of operations that wait for nothing, need nothing and turn nothing. -/
def restingKinds : List Kind :=
  Kind.except
    [.buildLock, .refreshGate, .permit, .generation, .addJob, .sendNotify, .kaspaTemplate]

section Tasks

variable {deployment : Deployment} {rested : deployment.AtRest} {α β : Type} {held : Finset Held}

theorem idle_of_kind {op : BridgeOp} (other : op.kind ∈ restingKinds) : (supplies rested).Idle op := by
  have noLock : Kind.buildLock ∉ restingKinds := by decide
  have noGate : Kind.refreshGate ∉ restingKinds := by decide
  have noPermit : Kind.permit ∉ restingKinds := by decide
  have noDraw : Kind.generation ∉ restingKinds := by decide
  have noAdd : Kind.addJob ∉ restingKinds := by decide
  have noNotify : Kind.sendNotify ∉ restingKinds := by decide
  have noAsk : Kind.kaspaTemplate ∉ restingKinds := by decide
  refine ⟨?_, ?_, ?_⟩
  · change op.waitsFor = none
    unfold BridgeOp.waitsFor
    split
    · exact absurd other noLock
    · exact absurd other noPermit
    · rfl
  · change op.doneUnder = none
    unfold BridgeOp.doneUnder
    split
    · exact absurd other noDraw
    · exact absurd other noAdd
    · exact absurd other noNotify
    · exact absurd other noGate
    · exact absurd other noAsk
    · rfl
  · intro answer
    change heldTurn op answer = none
    unfold heldTurn
    split
    · exact absurd other noLock
    · exact absurd other noLock
    · exact absurd other noLock
    · exact absurd other noGate
    · exact absurd other noGate
    · exact absurd other noPermit
    · exact absurd other noPermit
    · rfl

theorem Uses.idle {kinds : List Kind} {task : Task α} (uses : Uses kinds task)
    (subset : kinds ⊆ restingKinds) : Program.Within (supplies rested).Idle task :=
  Program.Within.mono uses fun _ used => idle_of_kind (subset used)

/-- A task of idle kinds carries along what it holds. -/
theorem Uses.carries {kinds : List Kind} {task : Task α} (uses : Uses kinds task)
    (subset : kinds ⊆ restingKinds) : (supplies rested).Carries held task fun _ => held :=
  Supply.carries_of_idle (uses.idle subset)

/-- A prefix of idle kinds can be skipped. -/
theorem hold_skip {first : Task α} {rest : α → Task β} {after : β → Finset Held}
    (uses : Uses restingKinds first)
    (tail : ∀ result, (supplies rested).Carries held (rest result) after) :
    (supplies rested).Carries held (first >>= rest) after :=
  Supply.carries_skip (uses.idle (List.Subset.refl _)) tail

/-- A call of an idle kind can be skipped. -/
theorem hold_call (op : BridgeOp) (kind : Kind) (isKind : op.kind = kind) (idle : kind ∈ restingKinds)
    {rest : op.Answer → Task α} {after : α → Finset Held}
    (tail : ∀ answer, (supplies rested).Carries held (rest answer) after) :
    (supplies rested).Carries held (call op >>= rest) after :=
  hold_skip (uses_perform op (isKind ▸ idle)) tail

/-- A guarded call, made under what is held. -/
theorem hold_guarded (op : BridgeOp) {rest : op.Answer → Task α} {after : α → Finset Held}
    (resource : Held) (needs : op.doneUnder = some resource) (has : resource ∈ held)
    (ready : op.waitsFor = none) (unturned : ∀ answer, heldTurn op answer = none)
    (tail : ∀ answer, (supplies rested).Carries held (rest answer) after) :
    (supplies rested).Carries held (call op >>= rest) after := by
  refine @Supply.carries_call (bridge deployment) Held _ (supplies rested) _ _ op _ _
    (fun wanted waits => nomatch ready.symm.trans waits) ?_ fun answer => ?_
  · intro needed same
    obtain rfl := Option.some.inj (needs.symm.trans same)
    exact has
  · change ∃ now, Supply.Handled held (heldTurn op answer) now ∧ _
    exact ⟨held, unturned answer ▸ .nothing, tail answer⟩

/-- What is taken is held. -/
theorem hold_take (op : BridgeOp) {resource : Held} {rest : op.Answer → Task α}
    {after : α → Finset Held} (unguarded : op.doneUnder = none)
    (above : ∀ wanted, op.waitsFor = some wanted → ∀ other ∈ held, other.rank < wanted.rank)
    (free : resource ∉ held)
    (tail : ∀ answer, heldTurn op answer = some (resource, true) ∧
        (supplies rested).Carries (insert resource held) (rest answer) after ∨
      heldTurn op answer = none ∧ (supplies rested).Carries held (rest answer) after) :
    (supplies rested).Carries held (call op >>= rest) after := by
  refine @Supply.carries_call (bridge deployment) Held _ (supplies rested) _ _ op _ _ above
    (fun needed same => nomatch unguarded.symm.trans same) fun answer => ?_
  change ∃ now, Supply.Handled held (heldTurn op answer) now ∧ _
  rcases tail answer with ⟨made, carries⟩ | ⟨made, carries⟩
  · exact ⟨_, made ▸ .takes resource free, carries⟩
  · exact ⟨_, made ▸ .nothing, carries⟩

/-- What is given back is not held any more. -/
theorem hold_give (op : BridgeOp) {resource : Held} {rest : op.Answer → Task α}
    {after : α → Finset Held} (ready : op.waitsFor = none) (unguarded : op.doneUnder = none)
    (gives : ∀ answer, heldTurn op answer = some (resource, false)) (free : resource ∉ held)
    (tail : ∀ answer, (supplies rested).Carries held (rest answer) after) :
    (supplies rested).Carries (insert resource held) (call op >>= rest) after := by
  refine @Supply.carries_call (bridge deployment) Held _ (supplies rested) _ _ op _ _
    (fun wanted waits => nomatch ready.symm.trans waits)
    (fun needed same => nomatch unguarded.symm.trans same) fun answer => ?_
  change ∃ now, Supply.Handled _ (heldTurn op answer) now ∧ _
  have back : (insert resource held).erase resource = held := Finset.erase_insert free
  refine ⟨(insert resource held).erase resource, ?_, ?_⟩
  · rw [gives answer]
    exact .gives resource (Finset.mem_insert_self ..)
  · rw [back]
    exact tail answer

/-- The last thing a task does is to give back what it took. -/
theorem hold_return (op : BridgeOp) {resource : Held} (ready : op.waitsFor = none)
    (unguarded : op.doneUnder = none)
    (gives : ∀ answer, heldTurn op answer = some (resource, false)) (free : resource ∉ held) :
    (supplies rested).Carries (insert resource held) (call op) fun _ => held := by
  change (supplies rested).Carries (insert resource held) (call op >>= Program.done) fun _ => held
  exact hold_give op ready unguarded gives free fun _ => Supply.carries_done _ rfl

/-! ### Templates -/

section Templates

variable (free : Held.permit ∉ held)
include free

theorem requestKaspaParent_holds (hFc : Hash) (pay : Address) :
    (supplies rested).Carries held (requestKaspaParent hFc pay) fun _ => held := by
  have quiet : Kind.quiet ∈ restingKinds := by decide
  have give : ∀ result : Except Text Block, (supplies rested).Carries (insert .permit held)
      (call (.parent .releasePermit) >>= fun _ => .done result) fun _ => held := fun _ =>
    hold_give (.parent .releasePermit) rfl rfl (fun _ => rfl) free fun _ => Supply.carries_done _ rfl
  refine hold_take (.parent .acquirePermit) rfl ?_ free fun _ => .inl ⟨rfl, ?_⟩
  · rintro _ ⟨⟩ other has
    cases other with
    | permit => exact absurd has free
    | build uid | refresh uid => exact Nat.lt_of_sub_eq_succ rfl
  refine hold_guarded (.kaspaTemplate pay (parentExtraData hFc)) .permit rfl
    (Finset.mem_insert_self ..) rfl (fun _ => rfl) fun reply => ?_
  cases (reply : TemplateReply) with
  | failed error | malformed error => exact give _
  | block parent =>
      refine hold_skip (uses_quiet quiet .now rfl) fun now => ?_
      refine hold_call (.parent (.writeCache _)) .cache rfl (by decide) fun _ => ?_
      exact give _

variable (settings : Settings)

theorem fetchKaspaParent_holds (hFc : Hash) (payee : Option Address) (force : Bool) :
    (supplies rested).Carries held (fetchKaspaParent settings hFc payee force) fun _ => held := by
  have quiet : Kind.quiet ∈ restingKinds := by decide
  unfold fetchKaspaParent
  split
  · split
    · exact Supply.carries_done _ rfl
    · refine hold_call (.parent .readCache) .cache rfl (by decide) fun cached => ?_
      split
      · refine hold_skip (uses_quiet quiet .now rfl) fun now => ?_
        split
        · exact Supply.carries_done _ rfl
        · exact requestKaspaParent_holds free hFc _
      · exact requestKaspaParent_holds free hFc _
  · exact Supply.carries_done _ rfl

theorem refreshMergedParent_holds (currentParent : Block) (payee : Option Address) :
    (supplies rested).Carries held (refreshMergedParent settings currentParent payee)
      fun _ => held := by
  unfold refreshMergedParent
  split
  · split
    · exact Supply.carries_done _ rfl
    · refine hold_call (.pending (.isUnsolved _)) .unsolvedRead rfl (by decide) fun unsolved => ?_
      cases (unsolved : Bool) with
      | true =>
          exact (fetchKaspaParent_holds free settings _ payee true).bind fun _ =>
            Supply.carries_done _ rfl
      | false => exact Supply.carries_done _ rfl
  · exact Supply.carries_done _ rfl

theorem mergedTemplate_holds (fcBlock : Block) (kasPayout : Option Address) (laneId : Nat) :
    (supplies rested).Carries held (mergedTemplate settings fcBlock kasPayout laneId)
      fun _ => held := by
  have quiet : Kind.quiet ∈ restingKinds := by decide
  refine hold_skip (uses_quiet quiet .systemTime rfl) fun systemTime => ?_
  refine (fetchKaspaParent_holds free settings _ _ false).bind fun fetched => ?_
  exact hold_call (.pending (.insertWithPayee _ _ _)) .pendingInsert rfl (by decide) fun _ =>
    Supply.carries_done _ rfl

theorem templateAttempts_holds (wallet : Text) (sessionUid generation : Nat)
    (kasPayout : Option Address) (laneId remaining : Nat) :
    (supplies rested).Carries held
      (templateAttempts settings wallet sessionUid generation kasPayout laneId remaining)
      fun _ => held := by
  have done : ∀ result : Except Text Block,
      (supplies rested).Carries held (.done result) fun _ => held :=
    fun _ => Supply.carries_done _ rfl
  induction remaining with
  | zero => exact done _
  | succ remaining ih =>
      unfold templateAttempts
      dsimp only
      split
      · exact done _
      · refine hold_call (.zkasTemplate _ _) .zkasTemplate rfl (by decide) fun reply => ?_
        cases (reply : TemplateReply) with
        | failed error =>
            dsimp only
            split
            · exact ih
            · exact done _
        | malformed error =>
            dsimp only
            split
            · exact ih
            · split <;> exact done _
        | block fcBlock =>
            dsimp only
            split
            · split
              · exact ih
              · exact done _
            · split
              · exact (mergedTemplate_holds free settings fcBlock kasPayout laneId).bind
                  fun parent => done _
              · exact done _

theorem requestTemplate_holds (uid : Nat) (builds : .build uid ∈ held) (wallet : Text) :
    (supplies rested).Carries held (requestTemplate settings uid wallet) fun _ => held := by
  refine hold_guarded (.context uid .nextTemplateGeneration) (.build uid) rfl builds rfl
    (fun _ => rfl) fun generation => ?_
  refine hold_call (.context uid .kasPayout) .payoutRead rfl (by decide) fun kasPayout => ?_
  exact templateAttempts_holds free settings wallet uid generation kasPayout uid 3

end Templates

/-! ### Publications -/

section Publications

variable (settings : Settings) (instanceId uid : Nat)

/-- The announcement of a job under the job-build lock. -/
theorem notify_holds (builds : .build uid ∈ held) {rest : Bool → Task Unit} (jobId : Nat)
    (params : JobParams) (minimal : Bool)
    (tail : ∀ sent, (supplies rested).Carries held (rest sent) fun _ => held) :
    (supplies rested).Carries held (sendNotify uid jobId params minimal >>= rest) fun _ => held :=
  hold_guarded (.send uid (.notify jobId params minimal)) (.build uid) rfl builds rfl
    (fun _ => rfl) tail

theorem recordNotified_holds (wallet : Text) (sent : Bool) :
    (supplies rested).Carries held (recordNotified instanceId uid wallet sent) fun _ => held :=
  (recordNotified_uses instanceId uid (by decide) wallet sent).carries (List.Subset.refl restingKinds)

theorem announceImmediate_holds (builds : .build uid ∈ held) (wallet app : Text) (initialDiff : ℚ)
    (block : Block) (prePowHash : Hash) (jobId : Nat) :
    (supplies rested).Carries held
      (announceImmediate settings instanceId uid wallet app initialDiff block prePowHash jobId)
      fun _ => held := by
  have quiet : Kind.quiet ∈ restingKinds := by decide
  have sends : (supplies rested).Carries held
      (sendImmediate instanceId uid wallet app initialDiff block prePowHash jobId)
      fun _ => held := by
    refine hold_call (.ring uid .stratumDiff) .diffRead rfl (by decide) fun stored => ?_
    refine hold_skip (updateWorkerDifficulty_uses instanceId uid quiet app _) fun _ => ?_
    refine hold_skip (sendClientDiff_uses instanceId uid quiet (by decide) _) fun sent => ?_
    cases sent with
    | false => exact Supply.carries_done _ rfl
    | true =>
        refine hold_skip (uses_quiet quiet (.ring uid .useBigJob) rfl) fun useBigJob => ?_
        exact notify_holds uid builds jobId _ _ fun sent =>
          recordNotified_holds instanceId uid wallet sent
  refine hold_skip (uses_quiet quiet (.ring uid .isInitialized) rfl) fun initialized => ?_
  cases (initialized : Bool) with
  | true => exact sends
  | false =>
      exact hold_skip (initializeState_uses settings instanceId uid quiet (by decide) app
        initialDiff) fun _ => sends

theorem announceNewBlock_holds (builds : .build uid ∈ held) (wallet app : Text) (seed : ℚ)
    (block : Block) (prePowHash : Hash) (jobId : Nat) :
    (supplies rested).Carries held
      (announceNewBlock settings instanceId uid wallet app seed block prePowHash jobId)
      fun _ => held := by
  have quiet : Kind.quiet ∈ restingKinds := by decide
  refine hold_skip (registerClientVardiff_uses instanceId uid quiet seed) fun initialDiff => ?_
  refine hold_skip (announceDifficulty_uses settings instanceId uid quiet (by decide) (by decide)
    (by decide) app initialDiff) fun announced => ?_
  cases announced with
  | false => exact Supply.carries_done _ rfl
  | true =>
      refine hold_skip (remoteApp_uses quiet uid) fun app => ?_
      refine hold_skip (uses_quiet quiet (.ring uid .useBigJob) rfl) fun useBigJob => ?_
      refine hold_skip (remoteApp_uses quiet uid) fun current => ?_
      exact notify_holds uid builds jobId _ _ fun sent =>
        recordNotified_holds instanceId uid wallet sent

theorem buildImmediate_holds (free : Held.permit ∉ held) (builds : .build uid ∈ held) (initialDiff : ℚ) :
    (supplies rested).Carries held (buildImmediate settings instanceId uid initialDiff)
      fun _ => held := by
  have quiet : Kind.quiet ∈ restingKinds := by decide
  refine hold_skip (walletAddr_uses quiet _) fun wallet => ?_
  refine hold_skip (remoteApp_uses quiet _) fun app => ?_
  refine (requestTemplate_holds free settings uid builds wallet).bind fun template => ?_
  cases template with
  | error error => exact (templateFailed_uses instanceId uid quiet wallet error).carries (by decide)
  | ok block =>
      refine hold_skip (uses_quiet quiet (.ring uid (.setBigDiff _)) rfl) fun _ => ?_
      split
      · exact (uses_quiet quiet _ rfl).carries (List.Subset.refl _)
      · refine hold_guarded (.ring uid (.addJob _)) (.build uid) rfl builds rfl (fun _ => rfl)
          fun jobId => ?_
        exact announceImmediate_holds settings instanceId uid builds wallet app initialDiff block _
          jobId

theorem sendImmediateJobToClient_holds :
    (supplies rested).Carries ∅ (sendImmediateJobToClient settings uid) fun _ => ∅ := by
  have quiet : Kind.quiet ∈ restingKinds := by decide
  refine hold_skip (readContext_uses quiet uid) fun context => ?_
  refine hold_skip (registerClientVardiff_uses _ uid quiet _) fun initialDiff => ?_
  refine hold_skip (setStratumDiff_uses settings uid (by decide) initialDiff) fun _ => ?_
  refine hold_take (.context uid .lockJobBuild) rfl ?_
    (Finset.notMem_empty (Held.build uid)) fun _ => .inl ⟨rfl, ?_⟩
  · exact fun _ _ other absurdity => absurd absurdity (Finset.notMem_empty other)
  · have free : Held.permit ∉ insert (Held.build uid) (∅ : Finset Held) := by simp
    exact (buildImmediate_holds settings _ uid free (Finset.mem_insert_self ..) initialDiff).bind fun _ =>
      hold_return (.context uid .unlockJobBuild) rfl rfl (fun _ => rfl) (Finset.notMem_empty _)

theorem buildNewBlock_holds (free : Held.permit ∉ held) (builds : .build uid ∈ held) (seed : ℚ) :
    (supplies rested).Carries held (buildNewBlock settings instanceId uid seed)
      fun _ => held := by
  have quiet : Kind.quiet ∈ restingKinds := by decide
  refine hold_skip (walletAddr_uses quiet _) fun wallet => ?_
  refine hold_skip (remoteApp_uses quiet _) fun app => ?_
  refine (requestTemplate_holds free settings uid builds wallet).bind fun template => ?_
  cases template with
  | error error => exact (templateFailed_uses instanceId uid quiet wallet error).carries (by decide)
  | ok block =>
      refine hold_skip (uses_quiet quiet (.ring uid (.setBigDiff _)) rfl) fun _ => ?_
      split
      · exact (uses_quiet quiet _ rfl).carries (List.Subset.refl _)
      · refine hold_guarded (.ring uid (.addJob _)) (.build uid) rfl builds rfl (fun _ => rfl)
          fun jobId => ?_
        exact announceNewBlock_holds settings instanceId uid builds wallet app seed block _ jobId

theorem newBlockAvailable_holds :
    (supplies rested).Carries ∅ (newBlockAvailable settings uid) fun _ => ∅ := by
  have quiet : Kind.quiet ∈ restingKinds := by decide
  have free : Held.permit ∉ insert (Held.build uid) (∅ : Finset Held) := by simp
  refine hold_take (.context uid .tryLockJobBuild) rfl nofun
    (Finset.notMem_empty (Held.build uid)) fun locked => ?_
  cases (locked : Bool) with
  | false => exact .inr ⟨rfl, Supply.carries_done _ rfl⟩
  | true =>
      refine .inl ⟨rfl, hold_skip (readContext_uses quiet uid) fun context => ?_⟩
      have unlock : (supplies rested).Carries (insert (.build uid) ∅)
          (call (.context uid .unlockJobBuild)) fun _ => ∅ :=
        hold_return (.context uid .unlockJobBuild) rfl rfl (fun _ => rfl) (Finset.notMem_empty _)
      by_cases missing : context.walletAddr = []
      · simp only [if_pos missing]
        exact hold_skip (skipWithoutWallet_uses _ uid quiet _) fun _ => unlock
      · simp only [if_neg missing]
        exact (buildNewBlock_holds settings _ uid free (Finset.mem_insert_self ..) _).bind fun _ => unlock

theorem refreshedRecently_holds (interval : Nat) :
    (supplies rested).Carries held (refreshedRecently uid interval) fun _ => held :=
  (refreshedRecently_uses uid (by decide) interval).carries (List.Subset.refl restingKinds)

/-- A permitted refresh holds the permit, and no other does. -/
theorem tryParentRefresh_holds (interval : Nat) :
    (supplies rested).Carries ∅ (tryParentRefresh uid interval)
      fun permitted => if permitted then {.refresh uid} else ∅ := by
  have free : Held.refresh uid ∉ (∅ : Finset Held) := Finset.notMem_empty _
  refine (refreshedRecently_holds uid interval).bind fun recent => ?_
  cases recent with
  | true => exact Supply.carries_done _ (if_neg Bool.false_ne_true)
  | false =>
      refine hold_take (.context uid .acquireParentRefresh) rfl nofun free fun acquired => ?_
      cases (acquired : Bool) with
      | false => exact .inr ⟨rfl, Supply.carries_done _ (if_neg Bool.false_ne_true)⟩
      | true =>
          refine .inl ⟨rfl, (refreshedRecently_holds uid interval).bind fun recent => ?_⟩
          cases recent with
          | true =>
              exact hold_give (.context uid .releaseParentRefresh) rfl rfl (fun _ => rfl) free fun _ =>
                Supply.carries_done _ (if_neg Bool.false_ne_true)
          | false => exact Supply.carries_done _ (if_pos rfl)

theorem announceParent_holds (builds : .build uid ∈ held) (refreshes : .refresh uid ∈ held)
    (parent : Block) (prePowHash : Hash) (jobId : Nat) :
    (supplies rested).Carries held (announceParent instanceId uid parent prePowHash jobId)
      fun _ => held := by
  have quiet : Kind.quiet ∈ restingKinds := by decide
  refine hold_skip (remoteApp_uses quiet uid) fun app => ?_
  refine hold_skip (uses_quiet quiet (.ring uid .useBigJob) rfl) fun useBigJob => ?_
  refine notify_holds uid builds jobId _ _ fun sent => ?_
  cases sent with
  | true =>
      refine hold_skip (uses_quiet quiet .now rfl) fun now => ?_
      refine hold_guarded (.context uid (.markParentJobSent now)) (.refresh uid) rfl refreshes rfl
        (fun _ => rfl) fun _ => ?_
      refine hold_skip (workerContext_uses quiet _ _ _) fun labels => ?_
      exact (uses_quiet quiet _ rfl).carries (List.Subset.refl _)
  | false =>
      refine hold_skip (walletAddr_uses quiet _) fun wallet => ?_
      exact (uses_quiet quiet _ rfl).carries (List.Subset.refl _)

theorem publishParent_holds (builds : .build uid ∈ held) (refreshes : .refresh uid ∈ held)
    (expectedHFc : Option Hash) (parent : Block) :
    (supplies rested).Carries held (publishParent instanceId uid expectedHFc parent)
      fun _ => held := by
  refine hold_skip (latestJob_uses uid (by decide)) fun latest => ?_
  split
  · exact Supply.carries_done _ rfl
  · split
    · split
      · exact Supply.carries_done _ rfl
      · refine hold_guarded (.ring uid (.addJob _)) (.build uid) rfl builds rfl (fun _ => rfl)
          fun jobId => ?_
        exact announceParent_holds instanceId uid builds refreshes parent _ jobId
    · exact Supply.carries_done _ rfl

theorem refreshParent_holds (permitFree : Held.permit ∉ held) (buildFree : .build uid ∉ held)
    (refreshes : .refresh uid ∈ held) (job : Job) :
    (supplies rested).Carries held (refreshParent settings instanceId uid job) fun _ => held := by
  refine hold_call (.context uid .kasPayout) .payoutRead rfl (by decide) fun payee => ?_
  refine (refreshMergedParent_holds permitFree settings job.block payee).bind fun refreshed => ?_
  split
  · next parent =>
    refine hold_take (.context uid .tryLockJobBuild) rfl nofun buildFree fun locked => ?_
    cases (locked : Bool) with
    | false => exact .inr ⟨rfl, Supply.carries_done _ rfl⟩
    | true =>
        refine .inl ⟨rfl, (publishParent_holds instanceId uid (Finset.mem_insert_self ..)
          (Finset.mem_insert_of_mem refreshes) _ parent).bind fun _ => ?_⟩
        exact hold_return (.context uid .unlockJobBuild) rfl rfl (fun _ => rfl) buildFree
  · exact Supply.carries_done _ rfl

theorem newParentAvailable_holds :
    (supplies rested).Carries ∅ (newParentAvailable settings uid) fun _ => ∅ := by
  have quiet : Kind.quiet ∈ restingKinds := by decide
  refine hold_skip (readContext_uses quiet uid) fun context => ?_
  split
  · exact Supply.carries_done _ rfl
  · refine (tryParentRefresh_holds uid _).bind fun permitted => ?_
    cases permitted with
    | false => exact Supply.carries_done _ rfl
    | true =>
        have release : (supplies rested).Carries (insert (.refresh uid) ∅)
            (call (.context uid .releaseParentRefresh)) fun _ => ∅ :=
          hold_return (.context uid .releaseParentRefresh) rfl rfl (fun _ => rfl)
            (Finset.notMem_empty _)
        refine hold_skip (latestJob_uses uid (by decide)) fun latest => ?_
        cases latest with
        | none => exact release
        | some latest =>
            exact (refreshParent_holds settings _ uid (by simp) (by simp)
              (Finset.mem_insert_self ..) latest.2).bind
              fun _ => release

end Publications

/-! ### Every task -/

section Requests

variable (settings : Settings) (uid : Nat)

theorem answerAuthorization_holds (eventId : Option Value) :
    (supplies rested).Carries ∅ (answerAuthorization settings uid eventId) fun _ => ∅ := by
  refine hold_skip (answer_uses (by decide) uid rfl) fun replied => ?_
  cases replied with
  | error error => exact Supply.carries_done _ rfl
  | ok _ =>
      refine hold_skip (sendAuthorizedExtranonce_uses settings uid (by decide) (by decide))
        fun extranonce => ?_
      cases extranonce with
      | error error => exact Supply.carries_done _ rfl
      | ok _ =>
          exact (sendImmediateJobToClient_holds settings uid).bind fun _ =>
            Supply.carries_done _ rfl

theorem handleAuthorize_holds (event : SubmitEvent) :
    (supplies rested).Carries ∅ (handleAuthorize settings uid event) fun _ => ∅ := by
  have quiet : Kind.quiet ∈ restingKinds := by decide
  have registers : Kind.registration ∈ restingKinds := by decide
  unfold handleAuthorize
  split
  · exact Supply.carries_done _ rfl
  · refine hold_skip (readContext_uses quiet uid) fun context => ?_
    refine hold_skip (authorizedWallet_uses settings _ uid quiet _) fun wallet => ?_
    refine hold_skip (deactivateClientVardiff_uses _ uid quiet registers) fun _ => ?_
    refine hold_skip (storeIdentity_uses uid quiet (by decide) wallet _) fun label => ?_
    refine hold_skip (walletAddr_uses quiet uid) fun stored => ?_
    refine hold_skip (registerIdentity_uses _ uid quiet registers stored) fun _ => ?_
    refine hold_skip (remoteApp_uses quiet uid) fun app => ?_
    refine hold_skip (storePayouts_uses uid quiet (by decide) _ _) fun _ => ?_
    refine hold_skip (openSession_uses uid quiet (by decide) (by decide) wallet label app)
      fun _ => ?_
    exact answerAuthorization_holds settings uid event.id

/-- **Every task gives back what it takes.** -/
theorem bridgeProgram_holds (request : BridgeRequest) :
    (supplies rested).Carries ∅ (bridgeProgram settings request) fun _ => ∅ := by
  have finish : ∀ {α : Type} {task : Task α} (result : α → BridgeResult),
      (supplies rested).Carries ∅ task (fun _ => ∅) →
        (supplies rested).Carries ∅ (task >>= fun value => .done (result value)) fun _ => ∅ :=
    fun _ carries => carries.bind fun _ => Supply.carries_done _ rfl
  have idle : ∀ (request : BridgeRequest), request.kinds ⊆ restingKinds →
      (supplies rested).Carries ∅ (bridgeProgram settings request) fun _ => ∅ :=
    fun request subset => (bridgeProgram_uses settings request).carries subset
  cases request with
  | fetchKaspaParent hFc payee force =>
      exact finish _ (fetchKaspaParent_holds (Finset.notMem_empty _) settings hFc payee force)
  | authorize uid event => exact finish _ (handleAuthorize_holds settings uid event)
  | immediateJob uid => exact finish _ (sendImmediateJobToClient_holds settings uid)
  | newBlock uid => exact finish _ (newBlockAvailable_holds settings uid)
  | newParent uid => exact finish _ (newParentAvailable_holds settings uid)
  | submit => exact idle (.submit ..) (by decide : submissionKinds ⊆ restingKinds)
  | connect => exact idle .connect (by decide : connectionKinds ⊆ restingKinds)
  | subscribe => exact idle (.subscribe ..) (by decide : subscriptionKinds ⊆ restingKinds)
  | disconnect => exact idle (.disconnect ..) (by decide : disconnectionKinds ⊆ restingKinds)
  | confirmBlock => exact idle (.confirmBlock ..) (by decide : confirmationKinds ⊆ restingKinds)
  | retarget instanceId key next =>
      exact finish _ ((retarget_uses instanceId (by decide) key next).carries
        (List.Subset.refl restingKinds))
  | createStats uid =>
      exact finish _ ((createStatsLater_uses uid (by decide)).carries (List.Subset.refl restingKinds))
  | pruneStats instanceId =>
      exact finish _ ((pruneStats_uses instanceId (by decide) (by decide)).carries
        (List.Subset.refl restingKinds))

end Requests

theorem supplies_respected (rested : deployment.AtRest) : (supplies rested).Respected :=
  Supply.respected_of_carries (bridgeProgram_holds deployment.settings)

end Tasks

/-! ## Runs -/

section Runs

variable {deployment : Deployment} {events : List (bridge deployment).Event}

/-- The next call of a running task is done under this resource. -/
def AboutToUse (resource : Held) (config : (bridge deployment).Config) (thread : Nat) : Prop :=
  ∃ (op : BridgeOp) (next : op.Answer → Task BridgeResult),
    config.running thread = some (.call op next) ∧ op.doneUnder = some resource

/-- **Admission.** In every run, the tasks about to ask the Kaspa node for a parent and the
permits left are at most the permits there are; and of the tasks about to draw a generation for
a connection, to add a job to it or to announce one, there is at most one, and while there is,
the job-build lock of the connection is taken. -/
theorem requests_admitted (rested : deployment.AtRest) (events : List (bridge deployment).Event) :
    (∀ tasks : Finset Nat,
      (∀ thread ∈ tasks, AboutToUse .permit (System.execute events) thread) →
        (System.execute events).state.parents.permits + tasks.card ≤ parentPermits) ∧
    ∀ uid first second, AboutToUse (.build uid) (System.execute events) first →
      AboutToUse (.build uid) (System.execute events) second →
        first = second ∧ ((System.execute events).state.contexts uid).jobBuildLocked = true := by
  have respected := supplies_respected rested
  refine ⟨fun tasks asking => respected.admission asking, fun uid first second one other => ?_⟩
  have both : ∀ thread ∈ ({first, second} : Finset Nat),
      AboutToUse (.build uid) (System.execute events) thread := by
    intro thread member
    rcases Finset.mem_insert.mp member with rfl | last
    · exact one
    · exact Finset.mem_singleton.mp last ▸ other
  have admitted := respected.admission both
  change (if ((System.execute events).state.contexts uid).jobBuildLocked then 0 else 1) + _ ≤ 1
    at admitted
  have same : first = second := by
    by_contra different
    rw [Finset.card_pair different] at admitted
    omega
  refine ⟨same, ?_⟩
  by_contra free
  have someone : 0 < ({first, second} : Finset Nat).card :=
    Finset.card_pos.mpr (Finset.insert_nonempty ..)
  rw [if_neg free] at admitted
  omega

/-- **The bridge drains.** Whenever a task is running, some running task can go on, whatever the
nodes and the clocks answer. Once no request arrives any more, every schedule that is fair to the
running tasks finishes them all, and then every permit and every lock is free. -/
theorem bridge_drains (rested : deployment.AtRest) (events : List (bridge deployment).Event) :
    ((∃ thread, (System.execute events).running thread ≠ none) →
      ∃ thread program, (System.execute events).running thread = some program ∧
        @System.Unblocked (bridge deployment) (System.execute events).state program) ∧
    ∀ schedule : Nat → (bridge deployment).Event, System.Closing schedule →
      (∀ thread, (System.execute events).running thread ≠ none → System.Fair thread schedule) →
      ∃ moment, ∀ later, moment ≤ later →
        (∀ thread < (System.execute events).count,
          ∃ result, .finished thread result ∈ (System.scheduled events schedule later).log) ∧
        (System.scheduled events schedule later).state.parents.permits = parentPermits ∧
        ∀ uid, ((System.scheduled events schedule later).state.contexts uid).jobBuildLocked =
            false ∧
          ((System.scheduled events schedule later).state.contexts uid).parentRefreshHeld =
            false := by
  have respected := supplies_respected rested
  refine ⟨respected.live events, fun schedule closing fair => ?_⟩
  obtain ⟨moment, drained⟩ := respected.drains closing fair
  refine ⟨moment, fun later after => ?_⟩
  obtain ⟨idle, left⟩ := drained later after
  have free : ∀ {taken : Bool}, (if taken then 0 else 1) = 1 → taken = false := by
    rintro (_ | _) same
    · rfl
    · exact absurd same Nat.zero_ne_one
  refine ⟨fun thread below => ?_, left .permit, fun uid => ⟨free (left (.build uid)),
    free (left (.refresh uid))⟩⟩
  refine (System.tasks_execute _).2.2 thread ?_ (idle thread)
  exact closing.count_eq events later ▸ below

end Runs

end Model

/-! ## Five fetches for four permits -/

section Sample

attribute [local instance] Sample.platform

namespace Sample

theorem atRest (payout : Option Text) : (deployment payout).AtRest := fun _ => ⟨rfl, rfl⟩

/-- Five parents are asked for at once; the fifth task waits for a permit. -/
def crowd : List (bridge (deployment none)).Event :=
  List.replicate 5 (.start (.fetchKaspaParent 7 none true)) ++ steps none 0 2 {} ++ steps none 1 2 {}
    ++ steps none 2 2 {} ++ steps none 3 2 {} ++ steps none 4 2 {}

theorem requests_admitted_crowd :
    (∀ thread ∈ ({0, 1, 2, 3} : Finset Nat), AboutToUse .permit (System.execute crowd) thread) ∧
      (System.execute crowd).state.parents.permits + ({0, 1, 2, 3} : Finset Nat).card ≤
        parentPermits := by
  have asking : ∀ thread ∈ ({0, 1, 2, 3} : Finset Nat),
      AboutToUse .permit (System.execute crowd) thread := by
    intro thread member
    simp only [Finset.mem_insert, Finset.mem_singleton] at member
    rcases member with rfl | rfl | rfl | rfl
    all_goals exact ⟨_, _, rfl, rfl⟩
  exact ⟨asking, (requests_admitted (atRest none) crowd).1 _ asking⟩

/-- The five tasks take turns. -/
def rounds (moment : Nat) : (bridge (deployment none)).Event := .step (moment % 5) {}

theorem bridge_drains_crowd :
    ∃ moment, (∀ thread < 5,
        ∃ result, .finished thread result ∈ (System.scheduled crowd rounds moment).log) ∧
      (System.scheduled crowd rounds moment).state.parents.permits = parentPermits := by
  have fair : ∀ thread, (System.execute crowd).running thread ≠ none →
      System.Fair thread rounds := by
    intro thread running
    obtain ⟨program, runs⟩ := Option.ne_none_iff_exists'.mp running
    have below : thread < 5 := (System.tasks_execute crowd).2.1 thread program runs
    refine fun earliest => ⟨5 * earliest + thread, by omega, {}, ?_⟩
    rw [rounds, Nat.mul_add_mod, Nat.mod_eq_of_lt below]
  obtain ⟨moment, drained⟩ := (bridge_drains (atRest none) crowd).2 rounds nofun fair
  obtain ⟨finished, permits, -⟩ := drained moment (Nat.le_refl _)
  exact ⟨moment, finished, permits⟩

end Sample

end Sample

end StratumBridge
