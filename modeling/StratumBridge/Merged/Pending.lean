import Mathlib.Data.Finset.Basic
import StratumBridge.Foundation.Fifo
import StratumBridge.Merged.Parent

/-! # ZKas blocks awaiting a solved parent

`MergedPending` is a bounded FIFO map from `H_fc` to the ZKas block a parent
commits to. Beside the map it keeps the eviction order, the lanes whose solution
was claimed, and the lanes whose parent paid the pool. Every run keeps the four
collections consistent, and between two evictions of a lane at most one claim of
it succeeds.
-/

namespace StratumBridge

variable [Platform]

/-- A bounded map from `H_fc` to the ZKas block awaiting a solved parent. -/
structure MergedPending where
  map : AList fun _ : Hash => Block
  /-- Lanes whose Kaspa parent was built paying the pool rather than the miner. -/
  feeLane : Finset Hash
  /-- Resident lanes, oldest first. -/
  order : List Hash
  /-- Lanes whose solution was claimed. -/
  solved : Finset Hash
  cap : Nat

namespace MergedPending

def new (cap : Nat) : MergedPending where
  map := ∅
  feeLane := ∅
  order := []
  solved := ∅
  cap := max cap 1

/-- Forget everything recorded about a lane but its place in the order. -/
def discard (pending : MergedPending) (old : Hash) : MergedPending :=
  { pending with
    map := pending.map.erase old
    solved := pending.solved.erase old
    feeLane := pending.feeLane.erase old }

/-- Evict the oldest lanes until the order fits the capacity. -/
def evict (pending : MergedPending) : MergedPending :=
  let drained := Fifo.drain (fun order (store : MergedPending) => decide (store.cap < order.length))
    discard pending.order pending
  { drained.2 with order := drained.1 }

/-- Record in the fee lanes whether a lane's parent paid the pool. -/
def mark (feeLane : Finset Hash) (hFc : Hash) (paidPool : Bool) : Finset Hash :=
  if paidPool then insert hFc feeLane else feeLane.erase hFc

/-- Insert a lane, recording whether its Kaspa coinbase paid the pool. -/
def insertWithPayee (pending : MergedPending) (hFc : Hash) (fcBlock : Block)
    (paidPool : Bool) : MergedPending :=
  let stored := { pending with map := pending.map.insert hFc fcBlock }
  let bounded :=
    if hFc ∈ pending.map then stored
    else evict { stored with order := stored.order ++ [hFc] }
  -- The flag is set for a resident lane too: a later template may pay another party.
  { bounded with feeLane := mark bounded.feeLane hFc paidPool }

def insert (pending : MergedPending) (hFc : Hash) (fcBlock : Block) : MergedPending :=
  pending.insertWithPayee hFc fcBlock false

/-- Did the Kaspa parent for this lane pay the pool? Unknown lanes answer `false`. -/
def paidPool (pending : MergedPending) (hFc : Hash) : Bool :=
  decide (hFc ∈ pending.feeLane)

def get (pending : MergedPending) (hFc : Hash) : Option Block :=
  pending.map.lookup hFc

/-- Claim the one ZKas solution of a resident lane. -/
def claimSolution (pending : MergedPending) (hFc : Hash) : Bool × MergedPending :=
  if hFc ∈ pending.map then
    (decide (hFc ∉ pending.solved), { pending with solved := Insert.insert hFc pending.solved })
  else (false, pending)

def isUnsolved (pending : MergedPending) (hFc : Hash) : Bool :=
  decide (hFc ∈ pending.map) && !decide (hFc ∈ pending.solved)

@[simp] theorem discard_map (pending : MergedPending) (old : Hash) :
    (pending.discard old).map = pending.map.erase old := rfl

@[simp] theorem discard_cap (pending : MergedPending) (old : Hash) :
    (pending.discard old).cap = pending.cap := rfl

@[simp] theorem claimSolution_map (pending : MergedPending) (hFc : Hash) :
    (pending.claimSolution hFc).2.map = pending.map := by
  unfold claimSolution
  split <;> rfl

@[simp] theorem claimSolution_feeLane (pending : MergedPending) (hFc : Hash) :
    (pending.claimSolution hFc).2.feeLane = pending.feeLane := by
  unfold claimSolution
  split <;> rfl

theorem claimSolution_eq_true {pending : MergedPending} {hFc : Hash} :
    (pending.claimSolution hFc).1 = true ↔ hFc ∈ pending.map ∧ hFc ∉ pending.solved := by
  unfold claimSolution
  split
  · next resident => simp only [decide_eq_true_eq, resident, true_and]
  · next absent => simp only [Bool.false_eq_true, absent, false_and]

/-- After a claim a resident lane is solved, whatever the claim answered. -/
theorem mem_solved_claimSolution {pending : MergedPending} {hFc : Hash}
    (resident : hFc ∈ pending.map) : hFc ∈ (pending.claimSolution hFc).2.solved := by
  rw [claimSolution, if_pos resident]
  exact Finset.mem_insert_self hFc _

theorem solved_subset_claimSolution (pending : MergedPending) (hFc : Hash) :
    pending.solved ⊆ (pending.claimSolution hFc).2.solved := by
  unfold claimSolution
  split
  · exact Finset.subset_insert hFc _
  · exact Finset.Subset.refl _

/-- Eviction only forgets lanes. -/
theorem get_evict {pending : MergedPending} {hFc : Hash} {fcBlock : Block}
    (held : pending.evict.get hFc = some fcBlock) : pending.get hFc = some fcBlock := by
  have kept := @Fifo.drain_preserves Hash MergedPending
    (fun order store => decide (store.cap < order.length)) discard
    (fun _ store => store.get hFc = some fcBlock → pending.get hFc = some fcBlock)
  refine kept ?_ pending.order pending id held
  intro front rest store ih _ found
  apply ih
  by_cases same : hFc = front
  · subst same
    rw [get, discard_map, AList.lookup_erase] at found
    exact nomatch found
  · rwa [get, discard_map, AList.lookup_erase_ne same] at found

/-- After an insertion a lane holds the inserted block or what it held before. -/
theorem get_insertWithPayee {pending : MergedPending} {inserted hFc : Hash}
    {block fcBlock : Block} {paidPool : Bool}
    (held : (pending.insertWithPayee inserted block paidPool).get hFc = some fcBlock) :
    (hFc = inserted ∧ fcBlock = block) ∨ pending.get hFc = some fcBlock := by
  have stored : (pending.map.insert inserted block).lookup hFc = some fcBlock := by
    unfold insertWithPayee at held
    by_cases resident : inserted ∈ pending.map
    · simp only [if_pos resident] at held
      exact held
    · simp only [if_neg resident] at held
      exact get_evict held
  by_cases same : hFc = inserted
  · subst same
    rw [AList.lookup_insert] at stored
    exact Or.inl ⟨rfl, (Option.some.inj stored).symm⟩
  · rw [AList.lookup_insert_ne same] at stored
    exact Or.inr stored

omit [Platform] in
theorem mem_mark {feeLane : Finset Hash} {hFc other : Hash} {paidPool : Bool} :
    other ∈ mark feeLane hFc paidPool ↔
      if other = hFc then paidPool = true else other ∈ feeLane := by
  unfold mark
  by_cases same : other = hFc
  · subst same
    cases paidPool <;> simp
  · cases paidPool <;> simp [same]

/-- The representation invariant: the order lists the resident lanes once each
and within capacity, and only resident lanes carry a marker. -/
structure WellFormed (pending : MergedPending) : Prop where
  listed : Fifo.Enumerates pending.order fun hFc => hFc ∈ pending.map
  bounded : pending.order.length ≤ pending.cap
  positive : 0 < pending.cap
  solved_resident : ∀ hFc ∈ pending.solved, hFc ∈ pending.map
  fee_resident : ∀ hFc ∈ pending.feeLane, hFc ∈ pending.map

theorem new_wellFormed (cap : Nat) : (new cap).WellFormed where
  listed := Fifo.Enumerates.nil.congr fun _ => ⟨AList.notMem_empty _, False.elim⟩
  bounded := Nat.zero_le _
  positive := Nat.lt_of_lt_of_le Nat.zero_lt_one (Nat.le_max_right cap 1)
  solved_resident := fun _ member => absurd member (Finset.notMem_empty _)
  fee_resident := fun _ member => absurd member (Finset.notMem_empty _)

/-- What an insertion into a well-formed store can do. -/
inductive Insertion (pending : MergedPending) (hFc : Hash) (fcBlock : Block) (paidPool : Bool) :
    MergedPending → Prop
  /-- The lane was resident: its block and its flag are replaced. -/
  | replaced (resident : hFc ∈ pending.map) :
      Insertion pending hFc fcBlock paidPool
        { pending with
          map := pending.map.insert hFc fcBlock
          feeLane := mark pending.feeLane hFc paidPool }
  /-- The lane is new and there was room. -/
  | appended (fresh : hFc ∉ pending.map) (room : pending.order.length < pending.cap) :
      Insertion pending hFc fcBlock paidPool
        { pending with
          map := pending.map.insert hFc fcBlock
          order := pending.order ++ [hFc]
          feeLane := mark pending.feeLane hFc paidPool }
  /-- The lane is new and the store was full: the oldest lane left. -/
  | evicted (fresh : hFc ∉ pending.map) (oldest : Hash) (rest : List Hash)
      (full : pending.order = oldest :: rest) (exact : pending.order.length = pending.cap) :
      Insertion pending hFc fcBlock paidPool
        { pending with
          map := (pending.map.insert hFc fcBlock).erase oldest
          order := rest ++ [hFc]
          solved := pending.solved.erase oldest
          feeLane := mark (pending.feeLane.erase oldest) hFc paidPool }

theorem evict_of_le {pending : MergedPending} (fits : pending.order.length ≤ pending.cap) :
    pending.evict = pending := by
  have settled : Fifo.drain (fun order (store : MergedPending) =>
      decide (store.cap < order.length)) discard pending.order pending
        = (pending.order, pending) :=
    Fifo.drain_eq_self fun _ => decide_eq_false (Nat.not_lt.mpr fits)
  simp only [evict, settled]

/-- One lane over capacity, the loop evicts exactly the oldest lane. -/
theorem evict_of_succ {pending : MergedPending} {oldest : Hash} {rest : List Hash}
    (order : pending.order = oldest :: rest) (overfull : rest.length = pending.cap) :
    pending.evict = { pending.discard oldest with order := rest } := by
  have settled : Fifo.drain (fun order (store : MergedPending) =>
      decide (store.cap < order.length)) discard rest (pending.discard oldest)
        = (rest, pending.discard oldest) :=
    Fifo.drain_eq_self fun _ => decide_eq_false (by rw [discard_cap]; omega)
  have due : decide (pending.cap < (oldest :: rest).length) = true :=
    decide_eq_true (by rw [List.length_cons]; omega)
  simp only [evict, order]
  rw [Fifo.drain_cons_of_due due, settled]

/-- **Inversion of an insertion.** -/
theorem insertWithPayee_cases {pending : MergedPending} (valid : pending.WellFormed)
    (hFc : Hash) (fcBlock : Block) (paidPool : Bool) :
    Insertion pending hFc fcBlock paidPool (pending.insertWithPayee hFc fcBlock paidPool) := by
  by_cases resident : hFc ∈ pending.map
  · simp only [insertWithPayee, if_pos resident]
    exact .replaced resident
  · simp only [insertWithPayee, if_neg resident]
    by_cases room : pending.order.length < pending.cap
    · rw [evict_of_le (by rw [List.length_append, List.length_singleton]; exact room)]
      exact .appended resident room
    · have exact : pending.order.length = pending.cap :=
        Nat.le_antisymm valid.bounded (Nat.not_lt.mp room)
      cases full : pending.order with
      | nil =>
          rw [full, List.length_nil] at exact
          exact absurd exact (Nat.ne_of_lt valid.positive)
      | cons oldest rest =>
          have overfull : (rest ++ [hFc]).length = pending.cap := by
            rw [← exact, full, List.length_append, List.length_singleton, List.length_cons]
          rw [@evict_of_succ _ _ oldest (rest ++ [hFc]) rfl (by exact overfull)]
          exact .evicted resident oldest rest full exact

end MergedPending

end StratumBridge
