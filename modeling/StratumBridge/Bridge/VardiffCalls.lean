import Mathlib.Data.Finset.Option
import StratumBridge.Bridge.VardiffEntries

/-! # What the calls of a task do to the entries

Releasing, naming and claiming move the connection a task works on; counting and counting off move
its entry; pruning drops entries that count no one. All other calls leave both alone.
-/

namespace StratumBridge

open Interaction

variable [Platform] {deployment : Deployment}

/-- The registered connections after a call of a task that registers one. -/
def registeredAfter (owner : Option Nat) (registered : Finset Nat) : BridgeOp → Finset Nat
  | .stats _ (.write _ .connectionOpened) => registered ∪ owner.toFinset
  | .stats _ (.write _ .connectionClosed) => registered \ owner.toFinset
  | _ => registered

namespace Orderly

variable {state after : BridgeState} {registered : Finset Nat}
  {held : Nat → Option (Nat × Hand)} {thread : Nat} {hand : Hand}
  (orderly : Orderly deployment state registered held)
include orderly

section Calls

variable {env : Env} {owner : Option Nat} (known : held thread = owner.map fun uid => (uid, hand))
include known

/-- A call on a connection. -/
theorem context_call {conn : Nat} {op : ContextOp} {answer : op.Answer}
    (performed : performOp state env (.context conn op) = some (answer, after))
    (permitted : HandPermits deployment owner hand (.context conn op)) :
    Orderly deployment after registered (Function.update held thread
      (owner.map fun uid => (uid, hand.next owner (.context conn op) answer))) := by
  obtain ⟨⟨reply, context⟩, acted, same⟩ := Option.map_eq_some_iff.mp performed
  cases same
  have named := orderly.named conn
  cases op with
  | releaseVardiffRegistration =>
      obtain ⟨rfl, rfl⟩ := permitted
      cases acted
      have fits := orderly.fits thread conn _ known
      refine orderly.turn_context known named (fun _ => rfl) ?_
      cases marked : (state.contexts conn).vardiffRegistered with
      | true => simp [Hand.next, Hand.Fits, fits.mp marked]
      | false =>
          have outside : conn ∉ registered := fun inside =>
            Bool.false_ne_true (marked.symm.trans (fits.mpr inside))
          simp [Hand.next, Hand.Fits, outside]
  | claimVardiffRegistration =>
      obtain ⟨rfl, rfl⟩ := permitted
      cases acted
      obtain ⟨unmarked, outside⟩ := orderly.fits thread conn _ known
      refine orderly.turn_context known named (fun _ => rfl) ?_
      simp [Hand.next, Hand.Fits, unmarked, outside]
  | setWalletAddr wallet =>
      obtain ⟨rfl, rfl⟩ := permitted
      cases acted
      obtain ⟨unmarked, outside⟩ := orderly.fits thread conn _ known
      refine orderly.turn_context known named (fun inside => absurd inside outside) ?_
      simp [Hand.next, Hand.Fits, unmarked, outside]
  | setWorkerName worker supplied =>
      obtain ⟨rfl, rfl, rfl⟩ := permitted
      cases acted
      obtain ⟨unmarked, outside⟩ := orderly.fits thread conn _ known
      refine orderly.turn_context known of_decide_eq_true (fun inside => absurd inside outside) ?_
      simp [Hand.next, Hand.Fits, unmarked, outside]
  | read =>
      cases acted
      rw [Function.update_eq_self]
      by_cases own : owner = some conn
      · subst own
        refine orderly.swap known ?_
        simp only [Hand.next, if_true]
        have fits := orderly.fits thread conn _ known
        cases hand with
        | leaving seen | joining seen =>
            obtain ⟨marked, member, current⟩ := fits
            refine ⟨marked, member, fun identity inSeen => ?_⟩
            rcases List.mem_append.mp inSeen with earlier | last
            · exact current identity earlier
            · exact List.mem_singleton.mp last
        | settled | closing | detached | holding => exact fits
      · exact orderly.rest known (if_neg own)
  | ensureDefaultWorkerName =>
      cases acted
      exact (orderly.keep_context (Context.ensureDefaultWorkerName_identity named)).rest known rfl
  | lockJobBuild =>
      simp only [ContextOp.act] at acted
      split at acted
      · cases acted
      · cases acted
        refine (orderly.keep_context ?_).rest known rfl
        exact ⟨rfl, rfl, named⟩
  | _ =>
      cases acted
      refine (orderly.keep_context ?_).rest known rfl
      exact ⟨rfl, rfl, named⟩

end Calls

end Orderly

theorem enrolled_union (registered : Finset Nat) (uid : Nat) :
    enrolled deployment (registered ∪ (some uid).toFinset) (handlerOf deployment uid) =
      insert uid (enrolled deployment registered (handlerOf deployment uid)) := by
  rw [Option.toFinset_some, Finset.union_comm, ← Finset.insert_eq, enrolled, Finset.filter_insert,
    if_pos rfl]
  rfl

theorem enrolled_sdiff (registered : Finset Nat) (uid : Nat) :
    enrolled deployment (registered \ (some uid).toFinset) (handlerOf deployment uid) =
      (enrolled deployment registered (handlerOf deployment uid)).erase uid := by
  rw [Option.toFinset_some, Finset.sdiff_singleton_eq_erase, enrolled, Finset.filter_erase]
  rfl

namespace Orderly

variable {state after : BridgeState} {registered : Finset Nat}
  {held : Nat → Option (Nat × Hand)} {thread instanceId : Nat} {hand : Hand} {env : Env}
  {owner : Option Nat} (orderly : Orderly deployment state registered held)
  (known : held thread = owner.map fun uid => (uid, hand))
include orderly known

/-- A call on the statistics of a handler. -/
theorem stats_call {op : StatsOp} {answer : op.Answer}
    (performed : performOp state env (.stats instanceId op) = some (answer, after))
    (permitted : HandPermits deployment owner hand (.stats instanceId op))
    (kept : ∀ now, op = .prune now → ∀ thread uid handle, held thread = some (uid, .holding handle) →
      handlerOf deployment uid = instanceId →
        ((state.stats instanceId).cells handle).shouldRetain now = true) :
    Orderly deployment after (registeredAfter owner registered (.stats instanceId op))
      (Function.update held thread
        (owner.map fun uid => (uid, hand.next owner (.stats instanceId op) answer))) := by
  have closed := StatsStore.act_closed (orderly.closed instanceId) op
  have counts := orderly.counts instanceId
  cases performed
  cases op with
  | find key =>
      simp only [Function.update_eq_self, registeredAfter]
      cases hand with
      | leaving seen =>
          obtain ⟨uid, rfl, rfl, spells⟩ := permitted seen rfl
          obtain ⟨released, inside, current⟩ := orderly.fits thread uid _ known
          obtain ⟨handle, found⟩ := orderly.present inside
          have same : (state.stats (handlerOf deployment uid)).index.lookup key = some handle := by
            rw [spells.eq current]
            exact found
          refine orderly.swap known ?_
          rw [Hand.next, same]
          exact ⟨released, inside, found⟩
      | settled | closing | detached | joining | holding => exact orderly.rest known rfl
  | prune now =>
      refine (orderly.keep_store closed ?_ ?_).rest known rfl
      · refine counts.drop (fun key handle found => (StatsStore.lookup_prune.mp found).1) ?_
        intro key handle found counted
        refine StatsStore.lookup_prune.mpr ⟨found, ?_⟩
        simp only [WorkStats.shouldRetain, Bool.or_eq_true, decide_eq_true_iff]
        exact .inl counted
      · rintro task uid hand handle holds (rfl | rfl) rfl found
        · obtain ⟨-, inside, -⟩ := orderly.fits task uid _ holds
          refine StatsStore.lookup_prune.mpr ⟨found, ?_⟩
          simp only [WorkStats.shouldRetain, Bool.or_eq_true, decide_eq_true_iff]
          exact .inl (orderly.pos inside found)
        · exact StatsStore.lookup_prune.mpr ⟨found, kept now rfl task uid handle holds rfl⟩
  | restoreMinDiff handle seed =>
      refine (orderly.keep_cell ?_).rest known rfl
      rfl
  | minDiff handle =>
      simp only [Function.update_eq_self, registeredAfter]
      exact orderly.rest known rfl
  | writeOverall change =>
      refine (orderly.keep_store closed counts ?_).rest known rfl
      exact fun _ _ _ _ _ _ _ found => found
  | write handle change =>
      cases change with
      | connectionClosed =>
          obtain ⟨uid, rfl, rfl, rfl⟩ := permitted
          obtain ⟨released, inside, found⟩ := orderly.fits thread uid _ known
          refine orderly.turn_store known closed rfl rfl ?_ (fun other different => ?_) ?_
            Hand.atRest_detached
          · rw [registeredAfter, enrolled_sdiff]
            change Headcount.Exact _ (fun other => (((state.stats _).setCell handle _).cells
              other).activeConnections) _ _
            rw [StatsStore.active_setCell]
            exact counts.dismiss (Finset.mem_filter.mpr ⟨inside, rfl⟩) found
          · simp [registeredAfter, different]
          · simp [registeredAfter, Hand.next, Hand.Fits, released]
      | connectionOpened =>
          obtain ⟨uid, rfl, rfl, rfl⟩ := permitted
          obtain ⟨claimed, outside, found⟩ := orderly.fits thread uid _ known
          refine orderly.turn_store known closed rfl rfl ?_ (fun other different => ?_) ?_
            Hand.atRest_settled
          · rw [registeredAfter, enrolled_union]
            change Headcount.Exact _ (fun other => (((state.stats _).setCell handle _).cells
              other).activeConnections) _ _
            rw [StatsStore.active_setCell]
            exact counts.enroll (fun inside => outside (Finset.mem_filter.mp inside).1) found
          · simp [registeredAfter, different]
          · simp [registeredAfter, Hand.next, Hand.Fits, claimed]
      | beginVarDiff now =>
          refine (orderly.keep_cell ?_).rest known rfl
          simp only [StatsWrite.apply]
          split <;> rfl
      | _ =>
          refine (orderly.keep_cell ?_).rest known rfl
          rfl

/-- The entry of a worker is looked up, or created. -/
theorem create_call {uid : Nat} {key : Text} {now handle : Nat}
    (performed : performOp state env (.getCreateStats instanceId uid key now) =
      some (handle, after))
    (permitted : HandPermits deployment owner hand (.getCreateStats instanceId uid key now)) :
    Orderly deployment after registered (Function.update held thread
      (owner.map fun conn => (conn, hand.next owner (.getCreateStats instanceId uid key now) handle))) := by
  have closed := orderly.closed instanceId
  have counts := orderly.counts instanceId
  cases performed
  generalize ((state.rings uid).stratumDiff.map KaspaDiff.diffValue).getD 0 = seeded
  have kept : Orderly deployment
      { state with
        stats := Function.update state.stats instanceId
          ((state.stats instanceId).getOrCreate key now seeded).2 } registered held := by
    exact orderly.keep_store (StatsStore.getOrCreate_closed key now seeded closed)
      (StatsStore.getOrCreate_counts closed counts key now seeded)
      fun _ _ _ _ _ _ _ found => StatsStore.getOrCreate_lookup_of_some found key
  cases hand with
  | joining seen =>
      obtain ⟨conn, rfl, rfl, spells⟩ := permitted seen rfl
      obtain ⟨claimed, outside, current⟩ := kept.fits thread conn _ known
      refine kept.swap known ⟨claimed, outside, ?_⟩
      rw [entryAt, entryOf_update]
      have same : keyIn _ conn = key := (spells.eq current).symm
      rw [same]
      exact StatsStore.getOrCreate_lookup ..
  | settled | leaving | closing | detached | holding => exact kept.rest known rfl

/-- **Every call keeps the invariant**, if no entry is dropped that a task has in hand. -/
theorem call {op : BridgeOp} {answer : op.Answer}
    (performed : performOp state env op = some (answer, after))
    (permitted : HandPermits deployment owner hand op)
    (kept : ∀ instanceId now, op = .stats instanceId (.prune now) → ∀ thread uid handle,
      held thread = some (uid, .holding handle) → handlerOf deployment uid = instanceId →
        ((state.stats instanceId).cells handle).shouldRetain now = true) :
    Orderly deployment after (registeredAfter owner registered op) (Function.update held thread
      (owner.map fun uid => (uid, hand.next owner op answer))) := by
  cases op with
  | context conn op => exact orderly.context_call known performed permitted
  | stats instanceId op =>
      exact orderly.stats_call known performed permitted fun now same =>
        kept instanceId now (same ▸ rfl)
  | getCreateStats instanceId uid key now => exact orderly.create_call known performed permitted
  | _ =>
      have frame := orderly.frame (performOp_stats performed) (performOp_contexts performed)
      exact frame.rest known rfl

end Orderly

end StratumBridge
