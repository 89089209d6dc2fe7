import Mathlib.Data.List.Induction
import StratumBridge.Merged.Pending

/-! # Runs of the pending store

The store is shared behind a lock, so a run is any finite sequence of insertions
and claims, in the order in which the calls took the lock. One insertion or claim
keeps the representation invariant, and a solved marker is lost only by eviction;
both facts then hold along every run.
-/

namespace StratumBridge

variable [Platform]

namespace MergedPending

/-- A mutating call on the store. -/
inductive Call where
  | insert (hFc : Hash) (fcBlock : Block)
  | insertWithPayee (hFc : Hash) (fcBlock : Block) (paidPool : Bool)
  | claimSolution (hFc : Hash)
deriving DecidableEq

/-- The lane and the flag an insertion records. -/
def Call.inserted : Call → Option (Hash × Bool)
  | .insert hFc _ => some (hFc, false)
  | .insertWithPayee hFc _ paidPool => some (hFc, paidPool)
  | .claimSolution _ => none

def Call.apply (pending : MergedPending) : Call → MergedPending
  | .insert hFc fcBlock => pending.insert hFc fcBlock
  | .insertWithPayee hFc fcBlock paidPool => pending.insertWithPayee hFc fcBlock paidPool
  | .claimSolution hFc => (pending.claimSolution hFc).2

/-- The store after a run of calls from the empty store. -/
def run (cap : Nat) (calls : List Call) : MergedPending :=
  calls.foldl Call.apply (new cap)

@[simp] theorem run_nil (cap : Nat) : run cap [] = new cap := rfl

@[simp] theorem run_snoc (cap : Nat) (calls : List Call) (call : Call) :
    run cap (calls ++ [call]) = call.apply (run cap calls) := by
  rw [run, List.foldl_append]
  rfl

/-- The lane inserted last, if the run inserted any. -/
def lastInserted (calls : List Call) : Option Hash :=
  calls.foldl (fun last call => (call.inserted.map Prod.fst).or last) none

/-- The flag of the latest insertion of a lane; `false` before the first one. -/
def latestFlag (calls : List Call) (hFc : Hash) : Bool :=
  calls.foldl (fun flag call =>
    match call.inserted with
    | some (lane, paidPool) => if lane = hFc then paidPool else flag
    | none => flag) false

theorem lastInserted_snoc (calls : List Call) (call : Call) :
    lastInserted (calls ++ [call]) = (call.inserted.map Prod.fst).or (lastInserted calls) := by
  rw [lastInserted, List.foldl_append]
  rfl

theorem latestFlag_snoc (calls : List Call) (call : Call) (hFc : Hash) :
    latestFlag (calls ++ [call]) hFc =
      match call.inserted with
      | some (lane, paidPool) => if lane = hFc then paidPool else latestFlag calls hFc
      | none => latestFlag calls hFc := by
  rw [latestFlag, List.foldl_append]
  rfl

/-- A call that inserts nothing is a claim. -/
theorem Call.eq_claimSolution {call : Call} (claims : call.inserted = none) :
    ∃ hFc, call = .claimSolution hFc := by
  cases call with
  | claimSolution hFc => exact ⟨hFc, rfl⟩
  | insert | insertWithPayee => exact nomatch claims

/-- The call evicts the lane: resident before it, not resident after it. -/
def Evicts (cap : Nat) (calls : List Call) (call : Call) (hFc : Hash) : Prop :=
  hFc ∈ (run cap calls).map ∧ hFc ∉ (run cap (calls ++ [call])).map

/-- A claim of the lane made after these calls succeeds. -/
def ClaimSucceeds (cap : Nat) (calls : List Call) (hFc : Hash) : Prop :=
  ((run cap calls).claimSolution hFc).1 = true

section Step

variable {pending after : MergedPending} {hFc : Hash} {fcBlock : Block} {paidPool : Bool}

theorem Insertion.wellFormed (step : Insertion pending hFc fcBlock paidPool after)
    (valid : pending.WellFormed) : after.WellFormed := by
  cases step with
  | replaced resident =>
      refine ⟨valid.listed.congr ?_, valid.bounded, valid.positive, ?_, ?_⟩
      · intro other
        rw [AList.mem_insert]
        exact ⟨fun either => either.elim (fun same => same ▸ resident) id, Or.inr⟩
      · intro other member
        exact AList.mem_insert _ |>.mpr (Or.inr (valid.solved_resident other member))
      · intro other member
        rw [AList.mem_insert]
        rw [mem_mark] at member
        by_cases same : other = hFc
        · exact Or.inl same
        · rw [if_neg same] at member
          exact Or.inr (valid.fee_resident other member)
  | appended fresh room =>
      refine ⟨(valid.listed.push fresh).congr ?_, ?_, valid.positive, ?_, ?_⟩
      · intro other
        rw [AList.mem_insert]
      · rw [List.length_append, List.length_singleton]
        exact room
      · intro other member
        exact AList.mem_insert _ |>.mpr (Or.inr (valid.solved_resident other member))
      · intro other member
        rw [AList.mem_insert]
        rw [mem_mark] at member
        by_cases same : other = hFc
        · exact Or.inl same
        · rw [if_neg same] at member
          exact Or.inr (valid.fee_resident other member)
  | evicted fresh oldest rest full exact =>
      have listed := valid.listed
      rw [full] at listed
      have oldestResident : oldest ∈ pending.map :=
        (listed.mem_iff oldest).mp List.mem_cons_self
      have different : hFc ≠ oldest := fun same => fresh (same ▸ oldestResident)
      refine ⟨(listed.pop.push fun stays => fresh stays.2).congr ?_, ?_, valid.positive, ?_, ?_⟩
      · intro other
        rw [AList.mem_erase, AList.mem_insert]
        constructor
        · rintro ⟨notOldest, rfl | resident⟩
          · exact Or.inl rfl
          · exact Or.inr ⟨notOldest, resident⟩
        · rintro (rfl | ⟨notOldest, resident⟩)
          · exact ⟨different, Or.inl rfl⟩
          · exact ⟨notOldest, Or.inr resident⟩
      · rw [full, List.length_cons] at exact
        rw [List.length_append, List.length_singleton]
        exact Nat.le_of_eq exact
      · intro other member
        obtain ⟨notOldest, isSolved⟩ := Finset.mem_erase.mp member
        rw [AList.mem_erase, AList.mem_insert]
        exact ⟨notOldest, Or.inr (valid.solved_resident other isSolved)⟩
      · intro other member
        rw [AList.mem_erase, AList.mem_insert]
        rw [mem_mark] at member
        by_cases same : other = hFc
        · exact ⟨same ▸ different, Or.inl same⟩
        · rw [if_neg same] at member
          obtain ⟨notOldest, isFee⟩ := Finset.mem_erase.mp member
          exact ⟨notOldest, Or.inr (valid.fee_resident other isFee)⟩

/-- The lane just inserted is resident. -/
theorem Insertion.resident (step : Insertion pending hFc fcBlock paidPool after)
    (valid : pending.WellFormed) : hFc ∈ after.map := by
  cases step with
  | replaced | appended => exact AList.mem_insert _ |>.mpr (Or.inl rfl)
  | evicted fresh oldest rest full =>
      rw [AList.mem_erase, AList.mem_insert]
      refine ⟨?_, Or.inl rfl⟩
      rintro rfl
      exact fresh ((valid.listed.mem_iff hFc).mp (full ▸ List.mem_cons_self))

/-- An insertion makes no lane but its own resident. -/
theorem Insertion.resident_before (step : Insertion pending hFc fcBlock paidPool after)
    {other : Hash} (different : other ≠ hFc) (stays : other ∈ after.map) :
    other ∈ pending.map := by
  cases step with
  | replaced | appended => exact (AList.mem_insert _ |>.mp stays).resolve_left different
  | evicted =>
      exact (AList.mem_insert _ |>.mp (AList.mem_erase.mp stays).2).resolve_left different

theorem Insertion.cap_eq (step : Insertion pending hFc fcBlock paidPool after) :
    after.cap = pending.cap := by
  cases step <;> rfl

/-- A lane that stays resident keeps its solved marker. -/
theorem Insertion.solved_of_resident (step : Insertion pending hFc fcBlock paidPool after)
    {other : Hash} (isSolved : other ∈ pending.solved) (stays : other ∈ after.map) :
    other ∈ after.solved := by
  cases step with
  | replaced | appended => exact isSolved
  | evicted fresh oldest rest full =>
      exact Finset.mem_erase.mpr ⟨(AList.mem_erase.mp stays).1, isSolved⟩

/-- An insertion records its flag and leaves every other lane's flag alone while
that lane stays resident. -/
theorem Insertion.paidPool_eq (step : Insertion pending hFc fcBlock paidPool after)
    {other : Hash} (stays : other ∈ after.map) :
    after.paidPool other = if other = hFc then paidPool else pending.paidPool other := by
  have recorded : other ∈ after.feeLane ↔
      if other = hFc then paidPool = true else other ∈ pending.feeLane := by
    cases step with
    | replaced | appended => exact mem_mark
    | evicted fresh oldest rest full =>
        rw [mem_mark, Finset.mem_erase]
        simp only [(AList.mem_erase.mp stays).1, ne_eq, not_false_eq_true, true_and]
  unfold MergedPending.paidPool
  by_cases same : other = hFc
  · rw [if_pos same] at recorded ⊢
    simp only [recorded, Bool.decide_eq_true]
  · rw [if_neg same] at recorded ⊢
    simp only [recorded]

end Step

section Run

variable (cap : Nat)

theorem claimSolution_wellFormed {pending : MergedPending} (valid : pending.WellFormed)
    (hFc : Hash) : (pending.claimSolution hFc).2.WellFormed := by
  unfold claimSolution
  split
  · next resident =>
      refine { valid with solved_resident := ?_ }
      intro other member
      rcases Finset.mem_insert.mp member with rfl | isSolved
      · exact resident
      · exact valid.solved_resident other isSolved
  · exact valid

/-- What one call preserves. -/
theorem Call.apply_wellFormed {pending : MergedPending} (valid : pending.WellFormed)
    (call : Call) : (call.apply pending).WellFormed := by
  cases call with
  | insert hFc fcBlock => exact (insertWithPayee_cases valid hFc fcBlock false).wellFormed valid
  | insertWithPayee hFc fcBlock paidPool =>
      exact (insertWithPayee_cases valid hFc fcBlock paidPool).wellFormed valid
  | claimSolution hFc => exact claimSolution_wellFormed valid hFc

/-- The representation invariant holds in every reachable store. -/
theorem run_wellFormed (calls : List Call) : (run cap calls).WellFormed := by
  induction calls using List.reverseRecOn with
  | nil => exact new_wellFormed cap
  | append_singleton calls call ih =>
      rw [run_snoc]
      exact call.apply_wellFormed ih

/-- An inserting call acts as an insertion with its flag. -/
theorem Call.apply_insertion {pending : MergedPending} (valid : pending.WellFormed) {call : Call}
    {lane : Hash} {paidPool : Bool} (inserts : call.inserted = some (lane, paidPool)) :
    ∃ fcBlock, Insertion pending lane fcBlock paidPool (call.apply pending) := by
  cases call with
  | insert hFc fcBlock =>
      obtain ⟨rfl, rfl⟩ := Prod.mk.inj (Option.some.inj inserts)
      exact ⟨fcBlock, insertWithPayee_cases valid _ _ _⟩
  | insertWithPayee hFc fcBlock flag =>
      obtain ⟨rfl, rfl⟩ := Prod.mk.inj (Option.some.inj inserts)
      exact ⟨fcBlock, insertWithPayee_cases valid _ _ _⟩
  | claimSolution hFc => exact absurd inserts (by simp [Call.inserted])

theorem run_cap (calls : List Call) : (run cap calls).cap = max cap 1 := by
  induction calls using List.reverseRecOn with
  | nil => rfl
  | append_singleton calls call ih =>
      rw [run_snoc]
      cases inserts : call.inserted with
      | some entry =>
          obtain ⟨fcBlock, step⟩ := Call.apply_insertion (run_wellFormed cap calls) inserts
          exact step.cap_eq.trans ih
      | none =>
          obtain ⟨hFc, rfl⟩ := Call.eq_claimSolution inserts
          simp only [Call.apply, claimSolution]
          split <;> exact ih

/-- The lane inserted last is resident. -/
theorem run_lastInserted_resident (calls : List Call) {hFc : Hash}
    (last : lastInserted calls = some hFc) : hFc ∈ (run cap calls).map := by
  induction calls using List.reverseRecOn with
  | nil => exact absurd last (by simp [lastInserted])
  | append_singleton calls call ih =>
      rw [run_snoc]
      rw [lastInserted_snoc] at last
      cases inserts : call.inserted with
      | some entry =>
          rw [inserts] at last
          obtain rfl := Option.some.inj last
          have valid := run_wellFormed cap calls
          obtain ⟨fcBlock, step⟩ := Call.apply_insertion valid inserts
          exact step.resident valid
      | none =>
          rw [inserts] at last
          obtain ⟨other, rfl⟩ := Call.eq_claimSolution inserts
          rw [Call.apply, claimSolution_map]
          exact ih last

/-- The stored flag of a resident lane is the one of its latest insertion. -/
theorem run_paidPool (calls : List Call) (hFc : Hash) :
    (run cap calls).paidPool hFc =
      if hFc ∈ (run cap calls).map then latestFlag calls hFc else false := by
  split
  · next resident =>
      induction calls using List.reverseRecOn with
      | nil => exact absurd resident (AList.notMem_empty _)
      | append_singleton calls call ih =>
          have valid := run_wellFormed cap calls
          rw [latestFlag_snoc]
          rw [run_snoc] at resident ⊢
          cases inserts : call.inserted with
          | some entry =>
              obtain ⟨lane, flag⟩ := entry
              obtain ⟨fcBlock, step⟩ := Call.apply_insertion valid inserts
              rw [step.paidPool_eq resident]
              by_cases same : hFc = lane
              · simp only [same, if_true]
              · have before := step.resident_before same resident
                simp only [if_neg same, if_neg (Ne.symm same), ih before]
          | none =>
              obtain ⟨other, rfl⟩ := Call.eq_claimSolution inserts
              rw [Call.apply, claimSolution_map] at resident
              rw [← ih resident]
              simp only [Call.apply, MergedPending.paidPool, claimSolution_feeLane]
  · next absent =>
      refine decide_eq_false ?_
      exact fun member => absent ((run_wellFormed cap calls).fee_resident hFc member)

/-- A resident lane was inserted with the flag it has. -/
theorem exists_inserted_of_resident (calls : List Call) {hFc : Hash}
    (resident : hFc ∈ (run cap calls).map) :
    ∃ call ∈ calls, call.inserted = some (hFc, latestFlag calls hFc) := by
  induction calls using List.reverseRecOn with
  | nil => exact absurd resident (AList.notMem_empty _)
  | append_singleton calls call ih =>
      have valid := run_wellFormed cap calls
      rw [latestFlag_snoc]
      rw [run_snoc] at resident
      cases inserts : call.inserted with
      | none =>
          obtain ⟨other, rfl⟩ := Call.eq_claimSolution inserts
          simp only [Call.apply, claimSolution_map] at resident
          obtain ⟨earlier, member, flag⟩ := ih resident
          exact ⟨earlier, List.mem_append_left _ member, flag⟩
      | some entry =>
          obtain ⟨lane, paidPool⟩ := entry
          by_cases same : lane = hFc
          · subst same
            refine ⟨call, List.mem_append_right _ List.mem_cons_self, ?_⟩
            simp only [inserts, if_true]
          · obtain ⟨fcBlock, step⟩ := Call.apply_insertion valid inserts
            obtain ⟨earlier, member, flag⟩ := ih (step.resident_before (Ne.symm same) resident)
            refine ⟨earlier, List.mem_append_left _ member, ?_⟩
            simp only [if_neg same, flag]

/-- A solved lane that stays resident across a call stays solved. -/
theorem Call.apply_solved {pending : MergedPending} (valid : pending.WellFormed) (call : Call)
    {hFc : Hash} (isSolved : hFc ∈ pending.solved) (stays : hFc ∈ (call.apply pending).map) :
    hFc ∈ (call.apply pending).solved := by
  cases inserts : call.inserted with
  | some entry =>
      obtain ⟨fcBlock, step⟩ := Call.apply_insertion valid inserts
      exact step.solved_of_resident isSolved stays
  | none =>
      obtain ⟨other, rfl⟩ := Call.eq_claimSolution inserts
      exact solved_subset_claimSolution pending other isSolved

/-- From a store in which the lane is solved, either some call evicts it or it is
still solved at the end. -/
theorem run_solved_or_evicted (front middle : List Call) {hFc : Hash}
    (isSolved : hFc ∈ (run cap front).solved) :
    (∃ before call after, middle = before ++ call :: after ∧
      Evicts cap (front ++ before) call hFc) ∨ hFc ∈ (run cap (front ++ middle)).solved := by
  induction middle using List.reverseRecOn with
  | nil => exact Or.inr (by rwa [List.append_nil])
  | append_singleton middle call ih =>
      rcases ih with ⟨before, evicting, after, rfl, evicts⟩ | stillSolved
      · refine Or.inl ⟨before, evicting, after ++ [call], ?_, evicts⟩
        rw [List.append_assoc, List.cons_append]
      · have valid := run_wellFormed cap (front ++ middle)
        by_cases stays : hFc ∈ (run cap (front ++ middle ++ [call])).map
        · right
          rw [← List.append_assoc]
          rw [run_snoc] at stays ⊢
          exact call.apply_solved valid stillSolved stays
        · exact Or.inl ⟨middle, call, [], rfl, valid.solved_resident hFc stillSolved, stays⟩

/-- **At most one claim between two evictions.** If a claim succeeds and a later
claim of the same lane succeeds again, some call in between evicted the lane. -/
theorem claim_once_between_evictions (front middle : List Call) (hFc : Hash)
    (first : ClaimSucceeds cap front hFc)
    (second : ClaimSucceeds cap (front ++ [.claimSolution hFc] ++ middle) hFc) :
    ∃ before call after, middle = before ++ call :: after ∧
      Evicts cap (front ++ [.claimSolution hFc] ++ before) call hFc := by
  have resident : hFc ∈ (run cap front).map := (claimSolution_eq_true.mp first).1
  have isSolved : hFc ∈ (run cap (front ++ [.claimSolution hFc])).solved := by
    rw [run_snoc]
    exact mem_solved_claimSolution resident
  rcases run_solved_or_evicted cap (front ++ [.claimSolution hFc]) middle isSolved with
    evicted | stillSolved
  · exact evicted
  · exact absurd stillSolved (claimSolution_eq_true.mp second).2

/-- **Every run of the pending store.** The order lists the resident lanes once
each and within capacity, markers sit on resident lanes only, the lane inserted
last is resident, only resident lanes can be claimed, a lane's flag is the one of
its latest insertion while it is resident, and claims of one lane succeed at most
once between two evictions of it. -/
theorem run_consistent (calls : List Call) :
    ((run cap calls).order.Nodup ∧
      (∀ hFc, hFc ∈ (run cap calls).order ↔ hFc ∈ (run cap calls).map) ∧
      (run cap calls).order.length ≤ max cap 1 ∧
      (∀ hFc ∈ (run cap calls).solved, hFc ∈ (run cap calls).map) ∧
      (∀ hFc ∈ (run cap calls).feeLane, hFc ∈ (run cap calls).map)) ∧
    (∀ hFc, lastInserted calls = some hFc → hFc ∈ (run cap calls).map) ∧
    (∀ hFc, ClaimSucceeds cap calls hFc → hFc ∈ (run cap calls).map) ∧
    (∀ hFc, (run cap calls).paidPool hFc =
      if hFc ∈ (run cap calls).map then latestFlag calls hFc else false) ∧
    (∀ front middle back hFc,
      calls = front ++ .claimSolution hFc :: middle ++ .claimSolution hFc :: back →
      ClaimSucceeds cap front hFc →
      ClaimSucceeds cap (front ++ .claimSolution hFc :: middle) hFc →
      ∃ before call after, middle = before ++ call :: after ∧
        Evicts cap (front ++ .claimSolution hFc :: before) call hFc) := by
  have valid := run_wellFormed cap calls
  refine ⟨⟨valid.listed.nodup, valid.listed.mem_iff, ?_, valid.solved_resident,
    valid.fee_resident⟩, ?_, ?_, run_paidPool cap calls, ?_⟩
  · rw [← run_cap cap calls]
    exact valid.bounded
  · intro hFc last
    exact run_lastInserted_resident cap calls last
  · intro hFc claimed
    exact (claimSolution_eq_true.mp claimed).1
  · intro front middle back hFc _ first second
    have found := claim_once_between_evictions cap front middle hFc first
      (by rwa [List.append_assoc, List.singleton_append])
    simpa only [List.append_assoc, List.singleton_append] using found

end Run

end MergedPending

end StratumBridge
