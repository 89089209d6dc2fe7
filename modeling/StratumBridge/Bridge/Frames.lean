import StratumBridge.Bridge.System
import StratumBridge.Interaction.Storage

/-! # What an operation touches

An operation moves at most the component it addresses.
-/

namespace StratumBridge

open Interaction

variable [Platform] {state after : BridgeState} {env : Env} {op : BridgeOp} {answer : op.Answer}

/-- The job rings after an operation. -/
def BridgeOp.ringsAfter (rings : Nat → MiningState) : BridgeOp → Nat → MiningState
  | .ring uid op => Function.update rings uid (op.act (rings uid)).2
  | _ => rings

/-- The pending store after an operation. -/
def BridgeOp.pendingAfter (pending : MergedPending) : BridgeOp → MergedPending
  | .pending op => (op.act pending).2
  | _ => pending

/-- The cached parent after an operation. -/
def BridgeOp.cacheAfter (cache : Option CachedParent) : BridgeOp → Option CachedParent
  | .parent (.writeCache entry) => some entry
  | _ => cache

/-- The duplicate guards after an operation. -/
def BridgeOp.duplicatesAfter (duplicates : Nat → DuplicateSubmitGuard) :
    BridgeOp → Nat → DuplicateSubmitGuard
  | .checkSubmission instanceId key time =>
      Function.update duplicates instanceId ((duplicates instanceId).check key time).2
  | .setOutcome instanceId key time outcome =>
      Function.update duplicates instanceId ((duplicates instanceId).setOutcome key time outcome)
  | _ => duplicates

/-- The connections after an operation. -/
def BridgeOp.contextsAfter (contexts : Nat → Context) : BridgeOp → Nat → Context
  | .context uid op =>
      Function.update contexts uid (((op.act (contexts uid)).map Prod.snd).getD (contexts uid))
  | _ => contexts

/-- The statistics after an operation. -/
def BridgeOp.statsAfter (rings : Nat → MiningState) (stats : Nat → StatsStore) :
    BridgeOp → Nat → StatsStore
  | .stats instanceId op => Function.update stats instanceId (op.act (stats instanceId)).2
  | .getCreateStats instanceId uid key time =>
      Function.update stats instanceId ((stats instanceId).getOrCreate key time
        (((rings uid).stratumDiff.map KaspaDiff.diffValue).getD 0)).2
  | _ => stats

/-- The session counter after an operation. -/
def BridgeOp.sessionUidAfter (next : Nat) : BridgeOp → Nat
  | .newSessionUid => (next + 1) % 2 ^ 64
  | _ => next

theorem performOp_rings (performed : performOp state env op = some (answer, after)) :
    after.rings = op.ringsAfter state.rings := by
  cases op with
  | context uid op | parent op =>
      obtain ⟨outcome, -, same⟩ := Option.map_eq_some_iff.mp performed
      cases same
      rfl
  | _ =>
      cases performed
      rfl

theorem performOp_pending (performed : performOp state env op = some (answer, after)) :
    after.pending = op.pendingAfter state.pending := by
  cases op with
  | context uid op | parent op =>
      obtain ⟨outcome, -, same⟩ := Option.map_eq_some_iff.mp performed
      cases same
      rfl
  | _ =>
      cases performed
      rfl

theorem performOp_duplicates (performed : performOp state env op = some (answer, after)) :
    after.duplicates = op.duplicatesAfter state.duplicates := by
  cases op with
  | context uid op | parent op =>
      obtain ⟨outcome, -, same⟩ := Option.map_eq_some_iff.mp performed
      cases same
      rfl
  | _ =>
      cases performed
      rfl

theorem performOp_stats (performed : performOp state env op = some (answer, after)) :
    after.stats = op.statsAfter state.rings state.stats := by
  cases op with
  | context uid op | parent op =>
      obtain ⟨outcome, -, same⟩ := Option.map_eq_some_iff.mp performed
      cases same
      rfl
  | _ =>
      cases performed
      rfl

theorem performOp_contexts (performed : performOp state env op = some (answer, after)) :
    after.contexts = op.contextsAfter state.contexts := by
  cases op with
  | context uid op =>
      obtain ⟨outcome, acted, same⟩ := Option.map_eq_some_iff.mp performed
      cases same
      simp only [BridgeOp.contextsAfter, acted, Option.map_some, Option.getD_some]
  | parent op =>
      obtain ⟨outcome, -, same⟩ := Option.map_eq_some_iff.mp performed
      cases same
      rfl
  | _ =>
      cases performed
      rfl

/-- A section on a connection answers for the connection as it is. -/
theorem performOp_context_act {uid : Nat} {op : ContextOp} {answer : op.Answer}
    (performed : performOp state env (.context uid op) = some (answer, after)) :
    op.act (state.contexts uid) = some (answer, after.contexts uid) := by
  obtain ⟨⟨reply, context⟩, acted, same⟩ := Option.map_eq_some_iff.mp performed
  cases same
  simp only [acted, Function.update_self]

/-- The template generation of a connection after an operation. -/
def BridgeOp.generationAfter (uid generation : Nat) : BridgeOp → Nat
  | .context other .nextTemplateGeneration =>
      if other = uid then (generation + 1) % 2 ^ 64 else generation
  | _ => generation

/-- A field of a connection moves as the sections on that connection say. -/
theorem performOp_field {ρ : Type} (field : Context → ρ) (moves : ContextOp → ρ → ρ)
    (acts : ∀ (op : ContextOp) (context next : Context) (answer : op.Answer),
      op.act context = some (answer, next) → field next = moves op (field context))
    {uid : Nat} (performed : performOp state env op = some (answer, after)) :
    field (after.contexts uid) =
      match op with
      | .context other op => if other = uid then moves op (field (state.contexts uid))
          else field (state.contexts uid)
      | _ => field (state.contexts uid) := by
  have moved := congrFun (performOp_contexts performed) uid
  cases op with
  | context other op =>
      by_cases same : other = uid
      · subst same
        obtain ⟨⟨reply, next⟩, acted, -⟩ := Option.map_eq_some_iff.mp performed
        simp only [BridgeOp.contextsAfter, acted, Option.map_some, Option.getD_some,
          Function.update_self] at moved
        simp only [if_true]
        rw [moved]
        exact acts op _ next reply acted
      · simp only [BridgeOp.contextsAfter, Function.update_of_ne (Ne.symm same)] at moved
        simp only [if_neg same]
        rw [moved]
  | _ => exact congrArg field moved

theorem performOp_templateGeneration {uid : Nat}
    (performed : performOp state env op = some (answer, after)) :
    (after.contexts uid).templateGeneration =
      op.generationAfter uid (state.contexts uid).templateGeneration := by
  refine (performOp_field Context.templateGeneration
    (fun op generation => match op with
      | .nextTemplateGeneration => (generation + 1) % 2 ^ 64
      | _ => generation) ?_ performed).trans ?_
  · intro op context next answer acted
    cases op with
    | lockJobBuild =>
        obtain ⟨-, same⟩ := Option.ite_none_left_eq_some.mp acted
        cases same
        rfl
    | ensureDefaultWorkerName =>
        cases acted
        exact apply_ite Context.templateGeneration _ _ _ |>.trans (ite_self _)
    | _ =>
        cases acted
        rfl
  · cases op with
    | context other op =>
        cases op with
        | nextTemplateGeneration => rfl
        | _ => exact ite_self _
    | _ => rfl

theorem performOp_sessionUid (performed : performOp state env op = some (answer, after)) :
    after.nextSessionUid = op.sessionUidAfter state.nextSessionUid := by
  cases op with
  | context uid op | parent op =>
      obtain ⟨outcome, -, same⟩ := Option.map_eq_some_iff.mp performed
      cases same
      rfl
  | _ =>
      cases performed
      rfl

theorem performOp_cache (performed : performOp state env op = some (answer, after)) :
    after.parents.cache = op.cacheAfter state.parents.cache := by
  cases op with
  | context uid op =>
      obtain ⟨outcome, -, same⟩ := Option.map_eq_some_iff.mp performed
      cases same
      rfl
  | parent op =>
      obtain ⟨outcome, acted, same⟩ := Option.map_eq_some_iff.mp performed
      cases same
      cases op with
      | acquirePermit =>
          by_cases free : state.parents.permits = 0
          · rw [ParentOp.act, if_pos free] at acted
            exact nomatch acted
          · rw [ParentOp.act, if_neg free] at acted
            cases acted
            rfl
      | readCache | writeCache entry | releasePermit =>
          cases acted
          rfl
  | _ =>
      cases performed
      rfl

end StratumBridge
