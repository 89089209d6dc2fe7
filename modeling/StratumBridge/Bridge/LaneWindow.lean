import StratumBridge.Bridge.Residency
import StratumBridge.Interaction.Driving
import StratumBridge.Merged.PendingWindow

/-! # How long a lane stays pending

All connections share one pending store. A job stays in the ring of its connection until that
connection has had as many jobs as the ring holds, but the lane of the job stays pending only
until as many lanes as the store holds have arrived behind it, for whatever connections.
-/

namespace StratumBridge

open Interaction

section Model

variable [Platform] {deployment : Deployment}

/-- The lanes that arrived in the pending store, in order. -/
def laneArrivals (log : Record deployment) : List Hash :=
  MergedPending.arrivals pendingCapacity (System.callsOf pendingCall log)

/-- Fewer lanes than the store holds arrived behind this one. -/
def InWindow (log : Record deployment) (hFc : Hash) : Prop :=
  ∃ earlier later, laneArrivals log = earlier ++ hFc :: later ∧ later.length < pendingCapacity

variable {events : List (bridge deployment).Event} {uid id : Nat} {job : Job} {hFc : Hash}

theorem resident_iff_inWindow {log : Record deployment} : Resident log hFc ↔ InWindow log hFc :=
  MergedPending.run_resident_iff pendingCapacity _ hFc

/-- A retained job was added by some task. -/
theorem jobSound_of_retained
    (retained : ((System.execute events).state.rings uid).getJob id = some job) :
    JobSound (System.execute events).log job := by
  have stored : ∃ slot, ((System.execute events).state.rings uid).jobs.lookup slot = some job := by
    unfold MiningState.getJob at retained
    split at retained
    · exact ⟨_, retained⟩
    · cases retained
  obtain ⟨thread, op, answer, added, rfl⟩ :=
    @System.Storage.written (bridge deployment) _ _ _ _ jobStorage events (uid, job) stored
  exact (provenance_execute events).required thread _ answer added

theorem ParentOrigin.commits {log : Record deployment} {parent : Block}
    (origin : ParentOrigin log parent) (faithful : Faithful log) :
    ∃ hFc, committedHFc parent = some hFc := by
  cases origin with
  | genuine pay hFc parent obtained kept => exact ⟨hFc, faithful.obtained pay hFc parent obtained⟩
  | synthetic fcBlock kept asked => exact ⟨fcBlock.header.hash, faithful.synthetic fcBlock⟩

/-- In merged mode a retained job commits to a lane that was put into the store. -/
theorem lane_of_retained (merged : deployment.settings.mergedMining = true)
    (faithful : Faithful (System.execute events).log)
    (retained : ((System.execute events).state.rings uid).getJob id = some job) :
    ∃ hFc, committedHFc job.block = some hFc ∧ Kept (System.execute events).log hFc := by
  have origin := jobSound_of_retained retained merged
  obtain ⟨hFc, committed⟩ := origin.commits faithful
  exact ⟨hFc, committed, origin.kept faithful committed⟩

/-- A pending block is one that was issued for the lane it is filed under. -/
theorem hash_of_pending {fcBlock : Block}
    (pending : (System.execute events).state.pending.get hFc = some fcBlock) :
    fcBlock.header.hash = hFc ∧ Issued (System.execute events).log fcBlock := by
  obtain ⟨thread, op, answer, inserted, paidPool, rfl⟩ :=
    @System.Storage.written (bridge deployment) _ _ _ _ pendingStorage events (hFc, fcBlock) pending
  obtain ⟨same, issued⟩ := (provenance_execute events).required thread _ answer inserted
  exact ⟨same.symm, issued⟩

/-- The section a call runs on a connection. -/
def sectionOn (uid : Nat) : (op : BridgeOp) → op.Answer → Option ContextOp
  | .context other op, _ => if other = uid then some op else none
  | _, _ => none

/-- A connection that no task touched is as it was deployed. -/
theorem context_untouched
    (untouched : System.callsOf (sectionOn uid) (System.execute events).log = []) :
    (System.execute events).state.contexts uid = deployment.contexts uid := by
  rw [System.view_eq_replay (fun state : BridgeState => state.contexts uid)
    (fun (held : Context) (op : ContextOp) => ((op.act held).map Prod.snd).getD held) ?_ events,
    untouched]
  · rfl
  · intro op state env answer after performed
    rw [performOp_contexts performed]
    cases op with
    | context other op =>
        by_cases same : other = uid
        · subst same
          simp [sectionOn, BridgeOp.contextsAfter]
        · simp [sectionOn, BridgeOp.contextsAfter, same, Function.update_of_ne (Ne.symm same)]
    | _ => rfl

end Model

section Sample

attribute [local instance] Sample.platform

namespace Sample

/-- Merged mining without a Kaspa node. -/
@[reducible] def loneSettings : Settings where
  mergedMining := true
  kaspaPay := none
  kaspaClient := false
  paired := rfl
  coinbaseTag := []
  coinbaseAddressOverride := none
  poolFallbackAddress := ['p']
  kaspaCommonProtocol := false
  bitmainExtranonce := true
  targetCalculation := .standard
  legacyParentJobInterval := 0
  commonParentJobInterval := 0

@[reducible] def lone : Deployment where
  settings := loneSettings
  contexts := fun _ => context none

theorem lone_faithful {log : Record lone} (unanswered : System.callsOf answeredParent log = []) :
    Faithful log where
  obtained := by
    intro pay hFc parent ⟨thread, member⟩
    have answered : (parentExtraData hFc, parent) ∈ System.callsOf answeredParent log :=
      System.mem_callsOf.mpr ⟨thread, _, _, member, rfl⟩
    rw [unanswered] at answered
    cases answered
  synthetic := fun fcBlock => committedHash_embed fcBlock.header.hash

/-- The environment in which the ZKas node has a template for a lane. -/
def templateFor (lane : Nat) : Env := { template := .block (block (BitVec.ofNat 256 lane) 0 []) }

/-- The first connection gets a job. -/
def firstJob : List (bridge lone).Event :=
  .start (.newBlock 1) :: List.replicate 40 (.step 0 (templateFor 0))

/-- Then templates are built for as many other connections. -/
def floods : Nat → List (bridge lone).Event
  | 0 => firstJob
  | count + 1 =>
      floods count ++ .start (.newBlock (count + 2)) ::
        (List.replicate 9 (templateFor (count + 1))).map
          (@System.Event.step (bridge lone) (count + 1))

/-- A connection that holds the job-build lock, and then has drawn a generation. -/
def building : Context := { context none with jobBuildLocked := true }

def drawn : Context := { building with templateGeneration := 1 }

section Drives

variable {thread uid : Nat} {state : BridgeState} {env : Env} {envs : List Env}
  {post : BridgeState → Record lone → Prop}

abbrev Drives (thread : Nat) (envs : List Env) (task : Task BridgeResult) (state : BridgeState)
    (post : BridgeState → Record lone → Prop) : Prop :=
  @System.Driven (bridge lone) thread envs task state post

theorem drives_call {op : BridgeOp} {next : op.Answer → Task BridgeResult} {answer : op.Answer}
    {after : BridgeState} (performed : performOp state env op = some (answer, after))
    (rest : Drives thread envs (next answer) after fun reached entries =>
      post reached (.did thread op answer :: entries)) :
    Drives thread (env :: envs) (.call op next) state post :=
  ⟨answer, after, performed, rest⟩

theorem drives_context {op : ContextOp} {next : op.Answer → Task BridgeResult} {answer : op.Answer}
    {held after : Context} (found : state.contexts uid = held)
    (acts : op.act held = some (answer, after))
    (rest : Drives thread envs (next answer)
      { state with contexts := Function.update state.contexts uid after } fun reached entries =>
        post reached (.did thread (.context uid op) answer :: entries)) :
    Drives thread (env :: envs) (.call (.context uid op) next) state post := by
  refine drives_call ?_ rest
  simp only [performOp, found, acts, Option.map_some]

/-- A template is built for an idle connection: its lane is put into the store. -/
theorem newBlock_drives (lane : Nat) (idle : state.contexts uid = context none) :
    Drives thread (List.replicate 9 (templateFor lane)) (bridgeProgram loneSettings (.newBlock uid))
      state fun reached entries => reached.rings = state.rings ∧
        (∀ other, other ≠ uid → reached.contexts other = state.contexts other) ∧
        (System.callsOf pendingCall entries).map MergedPending.Call.inserted =
          [some (BitVec.ofNat 256 lane, (templatePayee uid 0 none).isNone)] ∧
        System.callsOf answeredParent entries = [] := by
  have reads : ContextOp.read.act building = some (building, building) := rfl
  have locks : ContextOp.tryLockJobBuild.act (context none) = some (true, building) := rfl
  have draws : ContextOp.nextTemplateGeneration.act building = some (1, drawn) := rfl
  have pays : ContextOp.kasPayout.act drawn = some (none, drawn) := rfl
  apply drives_context idle locks
  apply drives_context (Function.update_self ..) reads
  apply drives_context (Function.update_self ..) reads
  apply drives_context (Function.update_self ..) reads
  apply drives_context (Function.update_self ..) draws
  apply drives_context (Function.update_self ..) pays
  -- The template, the clock and the insertion.
  apply drives_call rfl
  apply drives_call rfl
  apply drives_call rfl
  refine ⟨rfl, ?_, rfl, rfl⟩
  intro other different
  simp only [Function.update_of_ne different]

end Drives

/-- After so many templates: the first job is where it was, and each lane was put into the store
once, unclaimed. -/
structure Flooded (count : Nat) (config : (bridge lone).Config) : Prop where
  started : config.count = count + 1
  rings : config.state.rings = (System.execute firstJob).state.rings
  idle : ∀ uid, count + 2 ≤ uid → config.state.contexts uid = context none
  inserted : (System.callsOf pendingCall config.log).map
      (fun call => call.inserted.map Prod.fst) =
    (List.range (count + 1)).map fun lane => some (BitVec.ofNat 256 lane)
  unanswered : System.callsOf answeredParent config.log = []

/-- A start, or a section on one of the first two connections. -/
def earlyEntry : (bridge lone).Entry → Bool
  | .did _ (.context conn _) _ => decide (conn < 2)
  | .started _ _ => true
  | _ => true

theorem firstJob_flooded : Flooded 0 (System.execute firstJob) where
  started := by decide +kernel
  rings := rfl
  idle := by
    intro uid other
    apply context_untouched
    have touched : (System.execute firstJob).log.all earlyEntry = true := by
      decide +kernel
    rw [List.eq_nil_iff_forall_not_mem]
    intro item member
    obtain ⟨thread, op, answer, made, chosen⟩ := System.mem_callsOf.mp member
    unfold sectionOn at chosen
    split at chosen
    · have small := of_decide_eq_true (List.all_eq_true.mp touched _ made)
      obtain ⟨rfl, -⟩ := Option.ite_none_right_eq_some.mp chosen
      omega
    · cases chosen
  inserted := by decide +kernel
  unanswered := by decide +kernel

theorem floods_flooded (count : Nat) : Flooded count (System.execute (floods count)) := by
  induction count with
  | zero => exact firstJob_flooded
  | succ count ih =>
      have idle := ih.idle (count + 2) (Nat.le_refl _)
      obtain ⟨entries, ⟨rings, others, inserted, unanswered⟩, log, started⟩ :=
        @System.execute_start_driven (bridge lone) (count + 1) _ _ (floods count)
          (.newBlock (count + 2)) ih.started (newBlock_drives (count + 1) idle)
      rw [floods]
      constructor
      · exact started
      · exact rings.trans ih.rings
      · intro uid later
        rw [others uid (by omega)]
        exact ih.idle uid (by omega)
      · rw [log, ← List.singleton_append, System.callsOf_append, System.callsOf_append,
          List.map_append, List.map_append, ih.inserted, List.range_succ (n := count + 1),
          List.map_append]
        have lanes := congrArg (List.map (Option.map Prod.fst)) inserted
        rw [List.map_map] at lanes
        exact congrArg (_ ++ ·) lanes
      · rw [log, ← List.singleton_append, System.callsOf_append, System.callsOf_append,
          ih.unanswered, unanswered]
        rfl

theorem floods_arrivals {count : Nat} (small : count < 2 ^ 256) :
    laneArrivals (System.execute (floods count)).log =
        (List.range (count + 1)).map (BitVec.ofNat 256) ∧
      ((List.range (count + 1)).map (BitVec.ofNat 256)).Nodup := by
  have lanes : (System.callsOf pendingCall (System.execute (floods count)).log).filterMap
      (fun call => call.inserted.map Prod.fst) = (List.range (count + 1)).map (BitVec.ofNat 256) := by
    have ids := congrArg (List.filterMap id) (floods_flooded count).inserted
    rw [List.filterMap_map, List.filterMap_map] at ids
    exact ids.trans (congrFun List.filterMap_eq_map _)
  have distinct : ((List.range (count + 1)).map (BitVec.ofNat 256)).Nodup := by
    apply List.Nodup.map_on _ List.nodup_range
    intro first inFirst second inSecond same
    have values := congrArg BitVec.toNat same
    simp only [BitVec.toNat_ofNat] at values
    rw [List.mem_range] at inFirst inSecond
    rwa [Nat.mod_eq_of_lt (by omega), Nat.mod_eq_of_lt (by omega)] at values
  constructor
  · rw [← lanes]
    apply MergedPending.arrivals_of_nodup
    rw [lanes]
    exact distinct
  · exact distinct

/-- As many templates as the store holds push the first lane out. -/
theorem first_lane_out {count : Nat} (small : count < 2 ^ 256) (full : pendingCapacity ≤ count) :
    ¬Resident (System.execute (floods count)).log 0 := by
  intro resident
  obtain ⟨arrived, distinct⟩ := floods_arrivals small
  obtain ⟨earlier, later, split, short⟩ := resident_iff_inWindow.mp resident
  rw [arrived] at split
  cases earlier with
  | nil =>
      have length := congrArg List.length split
      simp only [List.length_map, List.length_range, List.nil_append, List.length_cons] at length
      omega
  | cons first earlier =>
      rw [List.range_succ_eq_map, List.map_cons] at split distinct
      obtain ⟨rfl, tail⟩ := List.cons.inj split
      apply (List.nodup_cons.mp distinct).1
      rw [tail]
      exact List.mem_append_right _ List.mem_cons_self

end Sample

end Sample

end StratumBridge
