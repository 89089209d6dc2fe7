import Mathlib.Data.List.Induction
import StratumBridge.AntiAbuse.Guard

/-! # Tickets

The state of the guard over a run: connections of any addresses are accepted and dropped and
their frames are checked, in any order. The guard counts exactly the live tickets.
-/

namespace StratumBridge

variable {Ip : Type} [DecidableEq Ip]

/-- One call of the guard. -/
inductive AntiAbuseStep (Ip : Type) where
  | accept (ip : Ip) (now : ℚ)
  | drop (ip : Ip)
  | consume (ip : Ip) (now : ℚ)

/-- The guard and the addresses of the live tickets. -/
structure AntiAbuseState (Ip : Type) where
  guard : AntiAbuseGuard Ip
  tickets : List Ip

namespace AntiAbuseState

def initial : AntiAbuseState Ip := ⟨.empty, []⟩

/-- One step. Only a live ticket can be dropped. -/
def step (config : AntiAbuseConfig) (state : AntiAbuseState Ip) :
    AntiAbuseStep Ip → AntiAbuseState Ip
  | .accept ip now =>
      match state.guard.tryAcceptConnection config ip now with
      | (.ok (), guard) => ⟨guard, ip :: state.tickets⟩
      | (.error _, guard) => ⟨guard, state.tickets⟩
  | .drop ip =>
      if ip ∈ state.tickets then ⟨state.guard.release ip, state.tickets.erase ip⟩ else state
  | .consume ip now => ⟨(state.guard.tryConsumeFrame config ip now).2, state.tickets⟩

/-- The state a run reaches. -/
def run (config : AntiAbuseConfig) (steps : List (AntiAbuseStep Ip)) : AntiAbuseState Ip :=
  steps.foldl (step config) initial

theorem run_snoc (config : AntiAbuseConfig) (steps : List (AntiAbuseStep Ip))
    (last : AntiAbuseStep Ip) :
    run config (steps ++ [last]) = (run config steps).step config last := by
  rw [run, List.foldl_append]
  rfl

/-- The guard agrees with the live tickets and keeps its caps. -/
structure Consistent (config : AntiAbuseConfig) (state : AntiAbuseState Ip) : Prop where
  counted : ∀ ip, state.guard.connCount ip = state.tickets.count ip
  tracked : ∀ ip, ip ∈ state.guard.entries ↔ 0 < state.guard.connCount ip
  capped : ∀ ip, state.guard.connCount ip ≤ config.maxConnPerIp
  bounded : state.guard.trackedIpCount ≤ config.maxTrackedIps

section Steps

variable {config : AntiAbuseConfig} {state : AntiAbuseState Ip} {ip : Ip}

theorem consistent_initial : Consistent config (initial : AntiAbuseState Ip) where
  counted := fun _ => rfl
  tracked := fun ip => ⟨fun member => absurd member (AList.notMem_empty ip),
    fun positive => absurd positive (Nat.lt_irrefl 0)⟩
  capped := fun _ => Nat.zero_le _
  bounded := Nat.zero_le _

/-- Writing the entry of an address whose count is then right. -/
theorem Consistent.write (consistent : Consistent config state) {entry : IpEntry}
    {tickets : List Ip} (own : entry.connCount = tickets.count ip)
    (others : ∀ other, other ≠ ip → tickets.count other = state.tickets.count other)
    (positive : 0 < entry.connCount) (free : entry.connCount ≤ config.maxConnPerIp)
    (room : (state.guard.entries.insert ip entry).keys.length ≤ config.maxTrackedIps) :
    Consistent config ⟨⟨state.guard.entries.insert ip entry⟩, tickets⟩ where
  counted := by
    intro other
    by_cases same : other = ip
    · subst same
      exact (AntiAbuseGuard.connCount_insert entry).trans own
    · rw [AntiAbuseGuard.connCount_insert_ne same, others other same]
      exact consistent.counted other
  tracked := by
    intro other
    rw [AList.mem_insert]
    by_cases same : other = ip
    · subst same
      rw [AntiAbuseGuard.connCount_insert]
      exact ⟨fun _ => positive, fun _ => Or.inl rfl⟩
    · rw [AntiAbuseGuard.connCount_insert_ne same, or_iff_right same]
      exact consistent.tracked other
  capped := by
    intro other
    by_cases same : other = ip
    · subst same
      exact (AntiAbuseGuard.connCount_insert entry).trans_le free
    · rw [AntiAbuseGuard.connCount_insert_ne same]
      exact consistent.capped other
  bounded := room

/-- Removing the entry of an address without tickets. -/
theorem Consistent.remove (consistent : Consistent config state) {tickets : List Ip}
    (own : tickets.count ip = 0)
    (others : ∀ other, other ≠ ip → tickets.count other = state.tickets.count other) :
    Consistent config ⟨⟨state.guard.entries.erase ip⟩, tickets⟩ where
  counted := by
    intro other
    by_cases same : other = ip
    · subst same
      exact AntiAbuseGuard.connCount_erase.trans own.symm
    · rw [AntiAbuseGuard.connCount_erase_ne same, others other same]
      exact consistent.counted other
  tracked := by
    intro other
    rw [AList.mem_erase]
    by_cases same : other = ip
    · subst same
      rw [AntiAbuseGuard.connCount_erase]
      exact ⟨fun both => absurd rfl both.1, fun positive => absurd positive (Nat.lt_irrefl 0)⟩
    · rw [AntiAbuseGuard.connCount_erase_ne same]
      exact ⟨fun both => (consistent.tracked other).mp both.2,
        fun positive => ⟨same, (consistent.tracked other).mpr positive⟩⟩
  capped := by
    intro other
    by_cases same : other = ip
    · subst same
      exact AntiAbuseGuard.connCount_erase.trans_le (Nat.zero_le _)
    · rw [AntiAbuseGuard.connCount_erase_ne same]
      exact consistent.capped other
  bounded := by
    have shorter : (state.guard.entries.keys.erase ip).length ≤ state.guard.entries.keys.length :=
      List.length_erase_le
    change (state.guard.entries.erase ip).keys.length ≤ _
    rw [AList.keys_erase]
    exact Nat.le_trans shorter consistent.bounded

theorem Consistent.accept (valid : config.Valid) (consistent : Consistent config state) (ip : Ip)
    (now : ℚ) : Consistent config (state.step config (.accept ip now)) := by
  have own : (ip :: state.tickets).count ip = state.tickets.count ip + 1 := List.count_cons_self
  have others : ∀ other, other ≠ ip →
      (ip :: state.tickets).count other = state.tickets.count other :=
    fun other different => List.count_cons_of_ne (Ne.symm different)
  have accepts := @AntiAbuseGuard.tryAcceptConnection_cases _ _ state.guard ip now config valid
  rw [step]
  revert accepts
  generalize state.guard.tryAcceptConnection config ip now = outcome
  intro accepts
  cases accepts with
  | refused rejection => exact consistent
  | known entry found free =>
      have held : entry.connCount = state.tickets.count ip :=
        (AntiAbuseGuard.connCount_of_lookup found).symm.trans (consistent.counted ip)
      have tracked : ip ∈ state.guard.entries := AList.lookup_isSome.mp (found ▸ rfl)
      have raised : entry.connCount + 1 = (ip :: state.tickets).count ip := by rw [own, held]
      refine consistent.write raised others (Nat.succ_pos _) free ?_
      rw [AntiAbuseGuard.length_insert_of_mem tracked]
      exact consistent.bounded
  | fresh untracked room =>
      have none : state.tickets.count ip = 0 :=
        (consistent.counted ip).symm.trans (AntiAbuseGuard.connCount_of_notMem untracked)
      have first : 1 = (ip :: state.tickets).count ip := by rw [own, none]
      refine consistent.write first others Nat.one_pos valid.conns ?_
      rw [AntiAbuseGuard.length_insert_of_notMem untracked]
      exact room

theorem Consistent.drop (consistent : Consistent config state) (ip : Ip) :
    Consistent config (state.step config (.drop ip)) := by
  rw [step]
  split
  case isFalse => exact consistent
  case isTrue live =>
    have own : (state.tickets.erase ip).count ip = state.tickets.count ip - 1 :=
      List.count_erase_self
    have others : ∀ other, other ≠ ip →
        (state.tickets.erase ip).count other = state.tickets.count other :=
      fun other different => List.count_erase_of_ne different
    unfold AntiAbuseGuard.release
    cases found : state.guard.entries.lookup ip with
    | none =>
        have untracked := AList.lookup_eq_none.mp found
        have positive : 0 < state.guard.connCount ip := by
          rw [consistent.counted ip]
          exact List.count_pos_iff.mpr live
        exact absurd ((consistent.tracked ip).mpr positive) untracked
    | some entry =>
        have held : entry.connCount = state.tickets.count ip :=
          (AntiAbuseGuard.connCount_of_lookup found).symm.trans (consistent.counted ip)
        have tracked : ip ∈ state.guard.entries := AList.lookup_isSome.mp (found ▸ rfl)
        dsimp only
        split
        case isTrue last => exact consistent.remove (by rw [own, ← held, last]) others
        case isFalse more =>
          refine consistent.write (by rw [own, held]) others (Nat.pos_of_ne_zero more) ?_ ?_
          · have capped := consistent.capped ip
            rw [AntiAbuseGuard.connCount_of_lookup found] at capped
            exact Nat.le_trans (Nat.sub_le _ _) capped
          · rw [AntiAbuseGuard.length_insert_of_mem tracked]
            exact consistent.bounded

theorem Consistent.consume (consistent : Consistent config state) (ip : Ip) (now : ℚ) :
    Consistent config (state.step config (.consume ip now)) := by
  rw [step, AntiAbuseGuard.tryConsumeFrame]
  cases found : state.guard.entries.lookup ip with
  | none => exact consistent
  | some entry =>
      have held := AntiAbuseGuard.connCount_of_lookup found
      have tracked : ip ∈ state.guard.entries := AList.lookup_isSome.mp (found ▸ rfl)
      refine consistent.write (held.symm.trans (consistent.counted ip)) (fun _ _ => rfl) ?_ ?_ ?_
      · exact held ▸ (consistent.tracked ip).mp tracked
      · exact held ▸ consistent.capped ip
      · rw [AntiAbuseGuard.length_insert_of_mem tracked]
        exact consistent.bounded

theorem consistent_run (valid : config.Valid) (steps : List (AntiAbuseStep Ip)) :
    Consistent config (run config steps) := by
  induction steps using List.reverseRecOn with
  | nil => exact consistent_initial
  | append_singleton steps last ih =>
      rw [run_snoc]
      cases last with
      | accept ip now => exact ih.accept valid ip now
      | drop ip => exact ih.drop ip
      | consume ip now => exact ih.consume ip now

end Steps

/-- **Tickets.** In every run the count of an address is the number of its live tickets, an
entry exists exactly while the count is positive, no cap is exceeded, and a refused accept
changes nothing. -/
theorem tickets_counted {maxConnPerIp maxTrackedIps : Nat}
    {frameRatePerSec frameBurst : Float64} {config : AntiAbuseConfig}
    (built : AntiAbuseConfig.new maxConnPerIp maxTrackedIps frameRatePerSec frameBurst = .ok config)
    (steps : List (AntiAbuseStep Ip)) :
    (∀ ip, (run config steps).guard.connCount ip = (run config steps).tickets.count ip) ∧
    (∀ ip, ip ∈ (run config steps).guard.entries ↔ 0 < (run config steps).guard.connCount ip) ∧
    (∀ ip, (run config steps).guard.connCount ip ≤ config.maxConnPerIp) ∧
    (run config steps).guard.trackedIpCount ≤ config.maxTrackedIps ∧
    ∀ ip now rejection after,
      (run config steps).guard.tryAcceptConnection config ip now = (.error rejection, after) →
        after = (run config steps).guard := by
  have valid := AntiAbuseConfig.valid_of_new built
  obtain ⟨counted, tracked, capped, bounded⟩ := consistent_run valid steps
  refine ⟨counted, tracked, capped, bounded, fun ip now rejection after refused => ?_⟩
  have accepts := @AntiAbuseGuard.tryAcceptConnection_cases _ _ (run config steps).guard ip now
    config valid
  rw [refused] at accepts
  cases accepts with
  | refused => rfl

/-- Two connections of an address, one dropped again, and a refused third address. -/
theorem tickets_counted_sample :
    (run ⟨2, 1, 1, 1⟩ [.accept 7 0, .accept 7 0, .drop 7, .accept (8 : Nat) 0]).guard.connCount 7 =
      1 := by
  have counted := (@tickets_counted Nat _ 2 1 (.finite 1) (.finite 1) ⟨2, 1, 1, 1⟩
    (by decide +kernel) [.accept 7 0, .accept 7 0, .drop 7, .accept 8 0]).1 7
  exact counted.trans (by decide +kernel)

end AntiAbuseState

end StratumBridge
