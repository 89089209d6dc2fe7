import StratumBridge.Bridge.Provenance
import StratumBridge.Interaction.Recording

/-! # The record behind a duplicate guard

A guard only remembers what was last done under a key: the admission of a submission, or
the outcome recorded for one. While nothing expires it remembers every admission.
-/

namespace StratumBridge

open Interaction

namespace DuplicateSubmitGuard

variable {guard : DuplicateSubmitGuard} {key other : Text} {now : Nat}
  {entry : DuplicateSubmitEntry} {outcome : DuplicateSubmitOutcome}

/-- Pruning adds nothing. -/
theorem lookup_of_prune
    (found : (guard.prune DuplicateSubmitEntry.ts now).entries.lookup key = some entry) :
    guard.entries.lookup key = some entry := by
  have erased : ∀ (front : Text) (rest : List Text)
      (entries : AList fun _ : Text => DuplicateSubmitEntry),
      (entries.lookup key = some entry → guard.entries.lookup key = some entry) →
        (entries.erase front).lookup key = some entry → guard.entries.lookup key = some entry := by
    intro front rest entries before after
    by_cases same : key = front
    · subst same
      rw [AList.lookup_erase] at after
      exact nomatch after
    · rw [AList.lookup_erase_ne same] at after
      exact before after
  refine Fifo.drain_preserves (fun _ entries =>
    entries.lookup key = some entry → guard.entries.lookup key = some entry)
    (fun front rest entries before _ => erased front rest entries before) _ _ ?_ found
  exact Fifo.drain_preserves (fun _ entries =>
    entries.lookup key = some entry → guard.entries.lookup key = some entry)
    (fun front rest entries before _ => erased front rest entries before) _ _ id

/-- Pruning removes nothing from a guard that fits. -/
theorem entries_prune (fits : guard.Fits now) :
    (guard.prune DuplicateSubmitEntry.ts now).entries = guard.entries := by
  obtain ⟨fresh, small⟩ := fits
  refine Fifo.drain_preserves (fun _ entries => entries = guard.entries) ?_ _ _ ?_
  · rintro front rest entries rfl due
    exact absurd (of_decide_eq_true due) (Nat.not_lt.mpr small)
  · refine Fifo.drain_preserves (fun _ entries => entries = guard.entries) ?_ _ _ rfl
    rintro front rest entries rfl due
    refine AList.ext (List.kerase_of_notMem_keys fun member => ?_)
    obtain ⟨entry, found⟩ := Option.isSome_iff_exists.mp (AList.lookup_isSome.mpr member)
    have young := fresh front member entry found
    simp only [List.head?_cons, Option.bind_some, found, decide_eq_true_eq] at due
    exact absurd due (Nat.not_lt.mpr young)

/-- What a check remembers: what was there, and the key it admits. -/
theorem lookup_check (found : (guard.check key now).2.entries.lookup other = some entry) :
    (¬ (other = key ∧ (guard.check key now).1 = none) ∧ guard.entries.lookup other = some entry) ∨
      (other = key ∧ (guard.check key now).1 = none ∧ entry.outcome = .inFlight) := by
  unfold check at found ⊢
  cases known : ((guard.prune DuplicateSubmitEntry.ts now).entries.lookup key) with
  | some held =>
      have seen : guard.get key now =
          (some held.outcome, guard.prune DuplicateSubmitEntry.ts now) := by
        rw [get, known]
        rfl
      rw [seen] at found ⊢
      exact Or.inl ⟨fun both => (nomatch both.2), lookup_of_prune found⟩
  | none =>
      have seen : guard.get key now = (none, guard.prune DuplicateSubmitEntry.ts now) := by
        rw [get, known]
        rfl
      have absent : key ∉ ((guard.prune DuplicateSubmitEntry.ts now).prune DuplicateSubmitEntry.ts
          now).entries := by
        intro member
        obtain ⟨held, still⟩ := Option.isSome_iff_exists.mp (AList.lookup_isSome.mpr member)
        exact nomatch known.symm.trans (lookup_of_prune still)
      rw [seen] at found ⊢
      simp only [insertInflight, if_neg absent] at found
      by_cases same : other = key
      · subst same
        rw [AList.lookup_insert] at found
        exact Or.inr ⟨rfl, rfl, Option.some.inj found ▸ rfl⟩
      · rw [AList.lookup_insert_ne same] at found
        exact Or.inl ⟨fun both => same both.1, lookup_of_prune (lookup_of_prune found)⟩

/-- A check answers with the outcome under its key. -/
theorem check_answer (answered : (guard.check key now).1 = some outcome) :
    ∃ entry, guard.entries.lookup key = some entry ∧ entry.outcome = outcome := by
  have seen : (guard.get key now).1 = some outcome := by
    unfold check at answered
    split at answered
    · next found =>
        rw [found]
        exact answered
    · exact nomatch answered
  obtain ⟨entry, found, same⟩ := Option.map_eq_some_iff.mp seen
  exact ⟨entry, lookup_of_prune found, same⟩

/-- What recording an outcome remembers. -/
theorem lookup_setOutcome
    (found : (guard.setOutcome key now outcome).entries.lookup other = some entry) :
    (other ≠ key ∧ guard.entries.lookup other = some entry) ∨
      (other = key ∧ entry.outcome = outcome) := by
  unfold setOutcome at found
  dsimp only at found
  by_cases same : other = key
  · subst same
    refine Or.inr ⟨rfl, ?_⟩
    split at found
    · rw [AList.lookup_insert] at found
      exact Option.some.inj found ▸ rfl
    · next absent => exact absurd (AList.lookup_isSome.mp (by rw [found]; rfl)) absent
  · refine Or.inl ⟨same, ?_⟩
    split at found
    · rw [AList.lookup_insert_ne same] at found
      exact lookup_of_prune found
    · exact lookup_of_prune found

section Fits

variable (fits : guard.Fits now)
include fits

theorem fits_prune : Fits (guard.prune DuplicateSubmitEntry.ts now) now := by
  unfold Fits
  rw [entries_prune fits]
  exact fits

/-- A guard that fits admits only new keys. -/
theorem notMem_of_check (admitted : (guard.check key now).1 = none) : key ∉ guard.entries := by
  intro member
  obtain ⟨entry, found⟩ := Option.isSome_iff_exists.mp (AList.lookup_isSome.mpr member)
  have seen : guard.get key now =
      (some entry.outcome, guard.prune DuplicateSubmitEntry.ts now) := by
    rw [get, entries_prune fits, found]
    rfl
  rw [check, seen] at admitted
  exact nomatch admitted

/-- After a check the key is remembered, and so is what was. -/
theorem mem_check (remembered : other ∈ guard.entries ∨ other = key) :
    other ∈ (guard.check key now).2.entries := by
  have pruned := entries_prune fits
  unfold check
  cases found : guard.entries.lookup key with
  | some entry =>
      have seen : guard.get key now =
          (some entry.outcome, guard.prune DuplicateSubmitEntry.ts now) := by
        rw [get, pruned, found]
        rfl
      rw [seen]
      change other ∈ (guard.prune DuplicateSubmitEntry.ts now).entries
      rw [pruned]
      rcases remembered with held | rfl
      · exact held
      · exact AList.lookup_isSome.mp (by rw [found]; rfl)
  | none =>
      have seen : guard.get key now = (none, guard.prune DuplicateSubmitEntry.ts now) := by
        rw [get, pruned, found]
        rfl
      have absent : key ∉ ((guard.prune DuplicateSubmitEntry.ts now).prune DuplicateSubmitEntry.ts
          now).entries := by
        rw [entries_prune (fits_prune fits), pruned]
        exact AList.lookup_eq_none.mp found
      rw [seen]
      simp only [insertInflight, if_neg absent]
      refine (AList.mem_insert _).mpr ?_
      rw [entries_prune (fits_prune fits), pruned]
      exact remembered.symm

theorem mem_setOutcome (remembered : other ∈ guard.entries) :
    other ∈ (guard.setOutcome key now outcome).entries := by
  unfold setOutcome
  dsimp only
  split
  · refine (AList.mem_insert _).mpr (Or.inr ?_)
    rw [entries_prune fits]
    exact remembered
  · rw [entries_prune fits]
    exact remembered

end Fits

end DuplicateSubmitGuard

variable [Platform] {deployment : Deployment}

/-- What is done under a key of a guard: the admission of a submission, or the recording of
an outcome. -/
def guardMove (instanceId : Nat) (key : Text) :
    (op : BridgeOp) → op.Answer → Option (Option DuplicateSubmitOutcome)
  | .checkSubmission other checked _, none =>
      if other = instanceId ∧ checked = key then some none else none
  | .setOutcome other marked _ outcome, _ =>
      if other = instanceId ∧ marked = key then some (some outcome) else none
  | _, _ => none

/-- What an entry stands for is what was last done under its key. -/
def Stands (instanceId : Nat) (key : Text) (log : Record deployment)
    (outcome : DuplicateSubmitOutcome) : Prop :=
  ∃ thread move, (System.callsBy (guardMove instanceId key) log).getLast? = some (thread, move) ∧
    outcome = move.getD .inFlight

/-- A call that does nothing under the key keeps what stands. -/
theorem Stands.skip {instanceId : Nat} {key : Text} {log : Record deployment}
    {outcome : DuplicateSubmitOutcome} (stands : Stands instanceId key log outcome)
    {entry : (bridge deployment).Entry}
    (silent : System.callsBy (guardMove instanceId key) [entry] = []) :
    Stands instanceId key (log ++ [entry]) outcome := by
  obtain ⟨thread, move, last, same⟩ := stands
  refine ⟨thread, move, ?_, same⟩
  rw [System.callsBy_append, silent, List.append_nil]
  exact last

/-- The last move under a key. -/
theorem stands_snoc {instanceId : Nat} {key : Text} {log : Record deployment} {thread : Nat}
    {op : BridgeOp} {answer : op.Answer} {move : Option DuplicateSubmitOutcome}
    (moves : guardMove instanceId key op answer = some move) :
    Stands instanceId key (log ++ [.did thread op answer]) (move.getD .inFlight) := by
  refine ⟨thread, move, ?_, rfl⟩
  rw [System.callsBy_append, System.callsBy_did, moves, Option.map_some, Option.toList_some,
    List.getLast?_concat]

/-- **Record of a guard.** What is remembered under a key is what was last done under it. -/
theorem guard_stands (events : List (bridge deployment).Event) (instanceId : Nat) (key : Text)
    {entry : DuplicateSubmitEntry}
    (found : ((System.execute events).state.duplicates instanceId).entries.lookup key = some entry) :
    Stands instanceId key (System.execute events).log entry.outcome := by
  revert found
  refine System.execute_induction (fun config : (bridge deployment).Config => ∀ {entry},
    (config.state.duplicates instanceId).entries.lookup key = some entry →
      Stands instanceId key config.log entry.outcome) ?_ ?_ System.along_true
  · exact fun found => nomatch found
  · intro config event after ih _ step entry found
    cases step with
    | stutter => exact ih found
    | start request => exact (ih found).skip rfl
    | finish thread env result running => exact (ih found).skip rfl
    | call thread env op next answer state running performed =>
        have moved := congrFun (performOp_duplicates performed) instanceId
        change ((state.duplicates instanceId).entries.lookup key = some entry) at found
        have silent : guardMove instanceId key op answer = none →
            (config.state.duplicates instanceId).entries.lookup key = some entry →
              Stands instanceId key (config.log ++ [.did thread op answer]) entry.outcome := by
          intro nothing before
          refine (ih before).skip ?_
          rw [System.callsBy_did, nothing]
          rfl
        cases op with
        | checkSubmission other checked time =>
            have replied : answer = ((config.state.duplicates other).check checked time).1 := by
              cases performed
              rfl
            by_cases same : other = instanceId
            · subst same
              simp only [BridgeOp.duplicatesAfter, Function.update_self] at moved
              rw [moved] at found
              rcases DuplicateSubmitGuard.lookup_check found with ⟨kept, before⟩ | ⟨rfl, admitted, fresh⟩
              · refine silent ?_ before
                cases answer with
                | some outcome => rfl
                | none => exact if_neg fun both => kept ⟨both.2.symm, replied.symm⟩
              · rw [admitted] at replied
                subst replied
                have moves : guardMove other key (.checkSubmission other key time) none =
                    some none := if_pos ⟨rfl, rfl⟩
                rw [fresh]
                exact stands_snoc moves
            · simp only [BridgeOp.duplicatesAfter, Function.update_of_ne (Ne.symm same)] at moved
              rw [moved] at found
              refine silent ?_ found
              cases answer with
              | some outcome => rfl
              | none => exact if_neg fun both => same both.1
        | setOutcome other marked time outcome =>
            by_cases same : other = instanceId
            · subst same
              simp only [BridgeOp.duplicatesAfter, Function.update_self] at moved
              rw [moved] at found
              rcases DuplicateSubmitGuard.lookup_setOutcome found with ⟨different, before⟩ | ⟨rfl, rfl⟩
              · exact silent (if_neg fun both => different both.2.symm) before
              · have moves : guardMove other key (.setOutcome other key time entry.outcome) answer =
                    some (some entry.outcome) := if_pos ⟨rfl, rfl⟩
                exact stands_snoc moves
            · simp only [BridgeOp.duplicatesAfter, Function.update_of_ne (Ne.symm same)] at moved
              rw [moved] at found
              exact silent (if_neg fun both => same both.1) found
        | _ =>
            rw [moved] at found
            exact silent rfl found

/-- **A duplicate is answered with what was last done under its key.** -/
theorem seen_stands {events : List (bridge deployment).Event} {front back : Record deployment}
    {thread instanceId now : Nat} {key : Text} {outcome : DuplicateSubmitOutcome}
    (split : (System.execute events).log =
      front ++ .did thread (.checkSubmission instanceId key now) (some outcome) :: back) :
    Stands instanceId key front outcome := by
  obtain ⟨before, event, rest, -, rfl, -, env, after, performed⟩ := System.exists_calls_of_did split
  have answered : (((System.execute before).state.duplicates instanceId).check key now).1 =
      some outcome :=
    (Prod.mk.inj (Option.some.inj performed)).1
  obtain ⟨entry, found, rfl⟩ := DuplicateSubmitGuard.check_answer answered
  exact guard_stands before instanceId key found

/-! ## While nothing expires -/

/-- The guard an operation uses fits. -/
def GuardFits (duplicates : Nat → DuplicateSubmitGuard) : BridgeOp → Prop
  | .checkSubmission instanceId _ time | .setOutcome instanceId _ time _ =>
      (duplicates instanceId).Fits time
  | _ => True

/-- The guards are used while none of their entries expires. -/
def GuardsFit (events : List (bridge deployment).Event) : Prop :=
  System.Along (fun (config : (bridge deployment).Config) event =>
    ∀ thread op, System.Calls config event thread op → GuardFits config.state.duplicates op) events

/-- Admitted keys stay remembered while nothing expires. -/
theorem admitted_mem {events : List (bridge deployment).Event} (fit : GuardsFit events)
    {thread instanceId now : Nat} {key : Text}
    (admitted : .did thread (.checkSubmission instanceId key now) none ∈
      (System.execute events).log) :
    key ∈ ((System.execute events).state.duplicates instanceId).entries := by
  revert admitted
  refine System.execute_induction (fun config : (bridge deployment).Config =>
    .did thread (.checkSubmission instanceId key now) none ∈ config.log →
      key ∈ (config.state.duplicates instanceId).entries) ?_ ?_ fit
  · exact fun absurdity => absurd absurdity List.not_mem_nil
  · intro config event after ih fits step admitted
    have earlier : ∀ {entry : (bridge deployment).Entry},
        .did thread (.checkSubmission instanceId key now) none ∈ config.log ++ [entry] →
          .did thread (.checkSubmission instanceId key now) none ≠ entry →
            key ∈ (config.state.duplicates instanceId).entries := by
      intro entry member different
      rcases List.mem_append.mp member with before | last
      · exact ih before
      · exact absurd (List.mem_singleton.mp last) different
    cases step with
    | stutter => exact ih admitted
    | start request => exact earlier admitted fun absurdity => nomatch absurdity
    | finish other env result running => exact earlier admitted fun absurdity => nomatch absurdity
    | call caller env op next answer state running performed =>
        have moved := congrFun (performOp_duplicates performed) instanceId
        have fitting := fits caller op ⟨env, next, rfl, running⟩
        change key ∈ (state.duplicates instanceId).entries
        rw [moved]
        cases op with
        | checkSubmission other checked time =>
            by_cases same : other = instanceId
            · subst same
              simp only [BridgeOp.duplicatesAfter, Function.update_self]
              refine DuplicateSubmitGuard.mem_check fitting ?_
              by_cases here : key = checked
              · exact Or.inr here
              · refine Or.inl (earlier admitted ?_)
                rintro ⟨rfl⟩
                exact here rfl
            · simp only [BridgeOp.duplicatesAfter, Function.update_of_ne (Ne.symm same)]
              refine earlier admitted ?_
              rintro ⟨rfl⟩
              exact same rfl
        | setOutcome other marked time outcome =>
            have before := earlier admitted fun absurdity => nomatch absurdity
            by_cases same : other = instanceId
            · subst same
              simp only [BridgeOp.duplicatesAfter, Function.update_self]
              exact DuplicateSubmitGuard.mem_setOutcome fitting before
            · simp only [BridgeOp.duplicatesAfter, Function.update_of_ne (Ne.symm same)]
              exact before
        | _ => exact earlier admitted fun absurdity => nomatch absurdity

/-- **A key is admitted once while nothing expires.** -/
theorem not_admitted_before {events : List (bridge deployment).Event} (fit : GuardsFit events)
    {front back : Record deployment} {thread instanceId now : Nat} {key : Text}
    (split : (System.execute events).log =
      front ++ .did thread (.checkSubmission instanceId key now) none :: back) :
    ∀ other time, .did other (.checkSubmission instanceId key time) none ∉ front := by
  intro other time member
  obtain ⟨before, event, rest, rfl, rfl, calls, env, after, performed⟩ :=
    System.exists_calls_of_did split
  have fits := fit before event rest rfl thread _ calls
  have admitted : (((System.execute before).state.duplicates instanceId).check key now).1 =
      none :=
    (Prod.mk.inj (Option.some.inj performed)).1
  exact DuplicateSubmitGuard.notMem_of_check fits admitted (admitted_mem fit.of_append member)

end StratumBridge
