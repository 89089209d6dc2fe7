import StratumBridge.Merged.PendingRun

/-! # The window of the pending store

A lane that is put into the store while it is resident keeps its place in the order. The others
arrive, and the store holds the last arrivals, as many as its capacity.
-/

namespace StratumBridge

variable [Platform]

namespace MergedPending

/-- The lane a call puts into the store, unless it is resident. -/
def Call.arrives (pending : MergedPending) (call : Call) : Option Hash :=
  (call.inserted.map Prod.fst).filter fun lane => decide (lane ∉ pending.map)

/-- The store with the lanes that arrived, after one more call. -/
def arrive (reached : MergedPending × List Hash) (call : Call) : MergedPending × List Hash :=
  (call.apply reached.1, reached.2 ++ (call.arrives reached.1).toList)

/-- The lanes that arrive in a run, in order. -/
def arrivals (cap : Nat) (calls : List Call) : List Hash :=
  (calls.foldl arrive (new cap, [])).2

variable (cap : Nat)

theorem foldl_arrive_fst (calls : List Call) :
    (calls.foldl arrive (new cap, [])).1 = run cap calls := by
  induction calls using List.reverseRecOn with
  | nil => rfl
  | append_singleton calls call ih =>
      rw [List.foldl_append, run_snoc, ← ih]
      rfl

@[simp] theorem arrivals_snoc (calls : List Call) (call : Call) :
    arrivals cap (calls ++ [call]) =
      arrivals cap calls ++ (call.arrives (run cap calls)).toList := by
  rw [arrivals, List.foldl_append, ← foldl_arrive_fst]
  rfl

/-- Every lane of a run of distinct lanes arrives. -/
theorem arrivals_of_nodup (calls : List Call)
    (distinct : (calls.filterMap fun call => call.inserted.map Prod.fst).Nodup) :
    arrivals cap calls = calls.filterMap fun call => call.inserted.map Prod.fst := by
  induction calls using List.reverseRecOn with
  | nil => rfl
  | append_singleton calls call ih =>
      rw [List.filterMap_append] at distinct ⊢
      obtain ⟨earlier, -, apart⟩ := List.nodup_append.mp distinct
      rw [arrivals_snoc, ih earlier, Call.arrives]
      congr 1
      cases inserts : call.inserted with
      | none => simp [inserts]
      | some entry =>
          have fresh : entry.1 ∉ (run cap calls).map := by
            intro resident
            obtain ⟨call, member, inserted⟩ := exists_inserted_of_resident cap calls resident
            refine apart entry.1 (List.mem_filterMap.mpr ⟨call, member, ?_⟩) entry.1 ?_ rfl
            · rw [inserted, Option.map_some]
            · simp [inserts]
          simp [inserts, fresh]

/-- An insertion moves the order like a window. -/
theorem Insertion.order_eq {pending after : MergedPending} {hFc : Hash} {fcBlock : Block}
    {paidPool : Bool} (step : Insertion pending hFc fcBlock paidPool after) {arrived : List Hash}
    (window : pending.order = arrived.rtake pending.cap) :
    after.order = (arrived ++ if hFc ∈ pending.map then [] else [hFc]).rtake pending.cap := by
  cases step with
  | replaced resident =>
      rw [if_pos resident, List.append_nil]
      exact window
  | appended fresh room =>
      rw [if_neg fresh]
      rw [window] at room
      rw [Fifo.rtake_snoc_of_lt room, ← window]
  | evicted fresh oldest rest full exact =>
      rw [if_neg fresh]
      rw [full] at window exact
      rw [Fifo.rtake_snoc_of_full window.symm exact]

/-- **Window.** The order of the store lists the last arrivals, as many as fit. -/
theorem run_order (calls : List Call) :
    (run cap calls).order = (arrivals cap calls).rtake (max cap 1) := by
  induction calls using List.reverseRecOn with
  | nil => exact (List.rtake_nil _).symm
  | append_singleton calls call ih =>
      rw [run_snoc, arrivals_snoc]
      cases inserts : call.inserted with
      | some entry =>
          obtain ⟨lane, paidPool⟩ := entry
          obtain ⟨fcBlock, step⟩ := Call.apply_insertion (run_wellFormed cap calls) inserts
          rw [← run_cap cap calls] at ih ⊢
          rw [step.order_eq ih, Call.arrives, inserts, Option.map_some, Option.filter_some]
          by_cases resident : lane ∈ (run cap calls).map <;> simp [resident]
      | none =>
          rw [Call.arrives, inserts, Option.map_none, Option.filter_none, Option.toList_none,
            List.append_nil, ← ih]
          obtain ⟨hFc, rfl⟩ := Call.eq_claimSolution inserts
          simp only [Call.apply, claimSolution]
          split <;> rfl

/-- A lane is resident exactly if fewer lanes than fit arrived behind it. -/
theorem run_resident_iff (calls : List Call) (hFc : Hash) :
    hFc ∈ (run cap calls).map ↔
      ∃ front back, arrivals cap calls = front ++ hFc :: back ∧ back.length < max cap 1 := by
  rw [← (run_wellFormed cap calls).listed.mem_iff, run_order, Fifo.mem_rtake_iff]

end MergedPending

end StratumBridge
