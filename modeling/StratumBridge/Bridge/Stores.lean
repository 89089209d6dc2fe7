import StratumBridge.Bridge.Frames

/-! # The stores of the bridge

The parent cache, the job rings and the pending store give back only what some task
put into them.
-/

namespace StratumBridge

open Interaction

variable [Platform] {deployment : Deployment}

/-- A call that gives back a cached parent. -/
def BridgeOp.ReadsCache : (op : BridgeOp) → op.Answer → CachedParent → Prop
  | .parent .readCache, cached, entry => cached = some entry
  | _, _, _ => False

/-- A call that gives back a job of a connection. -/
def BridgeOp.ReadsJob : (op : BridgeOp) → op.Answer → Nat × Job → Prop
  | .ring uid (.getJob _), job, item => uid = item.1 ∧ job = some item.2
  | _, _, _ => False

/-- A call that gives back a pending block of a lane. -/
def BridgeOp.ReadsPending : (op : BridgeOp) → op.Answer → Hash × Block → Prop
  | .pending (.get hFc), fcBlock, item => hFc = item.1 ∧ fcBlock = some item.2
  | _, _, _ => False

theorem cacheStorage : @System.Storage (bridge deployment) CachedParent
    (fun state entry => state.parents.cache = some entry)
    (fun op _ entry => op = .parent (.writeCache entry)) BridgeOp.ReadsCache where
  initially := fun entry held => nomatch held
  gains := by
    intro op state env answer after entry performed held
    rw [performOp_cache performed] at held
    cases op with
    | parent op =>
        cases op with
        | writeCache written =>
            obtain rfl := Option.some.inj held
            exact Or.inr rfl
        | readCache | acquirePermit | releasePermit => exact Or.inl held
    | _ => exact Or.inl held
  finds := by
    intro op state env answer after entry performed read
    cases op with
    | parent op =>
        cases op with
        | readCache =>
            cases performed
            exact read
        | writeCache written | acquirePermit | releasePermit => exact read.elim
    | _ => exact read.elim

theorem jobStorage : @System.Storage (bridge deployment) (Nat × Job)
    (fun state item => ∃ slot, (state.rings item.1).jobs.lookup slot = some item.2)
    (fun op _ item => op = .ring item.1 (.addJob item.2)) BridgeOp.ReadsJob where
  initially := by
    rintro ⟨uid, job⟩ ⟨slot, held⟩
    cases held
  gains := by
    rintro op state env answer after ⟨uid, job⟩ performed ⟨slot, held⟩
    rw [performOp_rings performed] at held
    cases op with
    | ring other op =>
        by_cases same : uid = other
        · subst same
          simp only [BridgeOp.ringsAfter, Function.update_self] at held
          cases op with
          | addJob added =>
              by_cases here : slot = ((state.rings uid).jobCounter + 1) % 2 ^ 64 % maxJobs
              · subst here
                simp only [RingOp.act, MiningState.addJob, AList.lookup_insert] at held
                obtain rfl := Option.some.inj held
                exact Or.inr rfl
              · simp only [RingOp.act, MiningState.addJob, AList.lookup_insert_ne here] at held
                exact Or.inl ⟨slot, held⟩
          | _ => exact Or.inl ⟨slot, held⟩
        · simp only [BridgeOp.ringsAfter, Function.update_of_ne same] at held
          exact Or.inl ⟨slot, held⟩
    | _ => exact Or.inl ⟨slot, held⟩
  finds := by
    rintro op state env answer after ⟨uid, job⟩ performed read
    cases op with
    | ring other op =>
        cases op with
        | getJob id =>
            obtain ⟨rfl, found⟩ := read
            cases performed
            simp only [MiningState.getJob] at found
            split at found
            · exact ⟨_, found⟩
            · cases found
        | _ => exact read.elim
    | _ => exact read.elim

theorem pendingStorage : @System.Storage (bridge deployment) (Hash × Block)
    (fun state item => state.pending.get item.1 = some item.2)
    (fun op _ item => ∃ paidPool, op = .pending (.insertWithPayee item.1 item.2 paidPool))
    BridgeOp.ReadsPending where
  initially := fun item held => nomatch held
  gains := by
    rintro op state env answer after ⟨hFc, fcBlock⟩ performed held
    rw [performOp_pending performed] at held
    cases op with
    | pending op =>
        cases op with
        | insertWithPayee inserted block paidPool =>
            rcases MergedPending.get_insertWithPayee held with ⟨rfl, rfl⟩ | old
            · exact Or.inr ⟨paidPool, rfl⟩
            · exact Or.inl old
        | claimSolution claimed =>
            simp only [BridgeOp.pendingAfter, PendingOp.act, MergedPending.get,
              MergedPending.claimSolution_map] at held
            exact Or.inl held
        | get hFc | isUnsolved hFc => exact Or.inl held
    | _ => exact Or.inl held
  finds := by
    rintro op state env answer after ⟨hFc, fcBlock⟩ performed read
    cases op with
    | pending op =>
        cases op with
        | get asked =>
            obtain ⟨rfl, found⟩ := read
            cases performed
            exact found
        | _ => exact read.elim
    | _ => exact read.elim

end StratumBridge
