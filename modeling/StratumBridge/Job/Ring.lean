import Mathlib.Data.List.AList
import StratumBridge.Chain.Sample
import StratumBridge.Foundation.Slots

/-! # The job ring of a connection

A connection keeps its last `MAX_JOBS` jobs in slot tables indexed by the job
number modulo the size. Beside each job the ring stores the job's number and the
stratum difficulty that was current when the job was added. Read through the
exact number, the ring is an append-only log of which only a window is retained.
-/

namespace StratumBridge

section Model

variable [Platform]

/-- `MAX_JOBS`. -/
def maxJobs : Nat := 300

/-- A published block with its pre-proof-of-work hash. -/
structure Job where
  block : Block
  prePowHash : Hash
deriving DecidableEq

/-- The mining state of a connection. -/
structure MiningState where
  jobs : AList fun _ : Nat => Job
  /-- The number of the job in each slot. -/
  jobIds : AList fun _ : Nat => Nat
  jobDiffs : AList fun _ : Nat => KaspaDiff
  jobCounter : Nat
  bigDiff : Nat
  initialized : Bool
  useBigJob : Bool
  stratumDiff : Option KaspaDiff

namespace MiningState

def new : MiningState where
  jobs := ∅
  jobIds := ∅
  jobDiffs := ∅
  jobCounter := 0
  bigDiff := 0
  initialized := false
  useBigJob := false
  stratumDiff := none

/-- Add a job and return its number. The counter is a 64-bit integer. -/
def addJob (state : MiningState) (job : Job) : Nat × MiningState :=
  let idx := (state.jobCounter + 1) % 2 ^ 64
  let slot := idx % maxJobs
  (idx,
    { state with
      jobCounter := idx
      jobs := state.jobs.insert slot job
      jobIds := state.jobIds.insert slot idx
      jobDiffs :=
        match state.stratumDiff with
        | some diff => state.jobDiffs.insert slot diff
        | none => state.jobDiffs.erase slot })

/-- Get a job by its exact number. -/
def getJob (state : MiningState) (id : Nat) : Option Job :=
  if state.jobIds.lookup (id % maxJobs) = some id then state.jobs.lookup (id % maxJobs) else none

def setStratumDiff (state : MiningState) (diff : KaspaDiff) : MiningState :=
  { state with stratumDiff := some diff }

def getStoredJobIds (state : MiningState) : List Nat :=
  state.jobIds.entries.map Sigma.snd

/-- The newest retained job with its number. -/
def latestJob (state : MiningState) : Option (Nat × Job) :=
  match state.getStoredJobIds.max? with
  | some id => (state.getJob id).map fun job => (id, job)
  | none => none

/-- The difficulty stored with a retained job. -/
def getJobDiff (state : MiningState) (id : Nat) : Option KaspaDiff :=
  if state.jobIds.lookup (id % maxJobs) = some id then state.jobDiffs.lookup (id % maxJobs)
  else none

/-! ## The log behind the ring -/

/-- A mutating call on the mining state. -/
inductive Call where
  | addJob (job : Job)
  | setStratumDiff (diff : KaspaDiff)

def Call.apply (state : MiningState) : Call → MiningState
  | .addJob job => (state.addJob job).2
  | .setStratumDiff diff => state.setStratumDiff diff

/-- The mining state after a run of calls from a new one. -/
def run (calls : List Call) : MiningState := calls.foldl Call.apply new

/-- What the ring stands for: every job ever added, each with the difficulty then
current, and the difficulty current now. -/
structure Log where
  entries : List (Job × Option KaspaDiff)
  current : Option KaspaDiff

def Log.append (log : Log) : Call → Log
  | .addJob job => { log with entries := log.entries ++ [(job, log.current)] }
  | .setStratumDiff diff => { log with current := some diff }

/-- The log of a run of calls. -/
def logOf (calls : List Call) : Log := calls.foldl Log.append ⟨[], none⟩

/-- The number is retained: issued, and among the last `MAX_JOBS` issued. -/
def Retained (log : Log) (id : Nat) : Prop :=
  1 ≤ id ∧ id ≤ log.entries.length ∧ log.entries.length - id < maxJobs

instance (log : Log) (id : Nat) : Decidable (Retained log id) :=
  inferInstanceAs (Decidable (_ ∧ _ ∧ _))

@[simp] theorem run_snoc (calls : List Call) (call : Call) :
    run (calls ++ [call]) = call.apply (run calls) := by
  rw [run, List.foldl_append]
  rfl

@[simp] theorem logOf_snoc (calls : List Call) (call : Call) :
    logOf (calls ++ [call]) = (logOf calls).append call := by
  rw [logOf, List.foldl_append]
  rfl

/-- **Refinement relation.** The counter counts the log, the number table names
the entry each slot holds, and the job and difficulty tables show that entry. -/
structure Refines (state : MiningState) (log : Log) : Prop where
  counter : state.jobCounter = log.entries.length
  numbered : Slots.Numbered maxJobs log.entries.length fun slot => state.jobIds.lookup slot
  jobs : Slots.Shows maxJobs (fun slot => state.jobs.lookup slot)
    (log.entries.map fun entry => some entry.1)
  diffs : Slots.Shows maxJobs (fun slot => state.jobDiffs.lookup slot)
    (log.entries.map Prod.snd)
  current : state.stratumDiff = log.current

section Step

variable {state : MiningState} {log : Log}

theorem new_refines : Refines new ⟨[], none⟩ where
  counter := rfl
  numbered := Slots.numbered_zero fun _ => rfl
  jobs := Slots.shows_nil
  diffs := Slots.shows_nil
  current := rfl

/-- Adding a job refines appending it, while the counter does not wrap. -/
theorem Refines.addJob (refines : Refines state log) (job : Job)
    (room : log.entries.length + 1 < 2 ^ 64) :
    Refines (state.addJob job).2 (log.append (.addJob job)) := by
  have nonempty : 0 < maxJobs := by decide
  have idx : (state.jobCounter + 1) % 2 ^ 64 = log.entries.length + 1 := by
    rw [refines.counter, Nat.mod_eq_of_lt room]
  simp only [MiningState.addJob, idx]
  refine ⟨?_, ?_, ?_, ?_, refines.current⟩
  · simp only [Log.append, List.length_append, List.length_singleton]
  · simp only [Log.append, List.length_append, List.length_singleton]
    refine refines.numbered.write nonempty (AList.lookup_insert _) ?_
    intro slot different
    exact AList.lookup_insert_ne different
  · simp only [Log.append, List.map_append, List.map_singleton]
    refine refines.jobs.write nonempty ?_ ?_
    · rw [List.length_map]
      exact AList.lookup_insert _
    · intro slot different
      rw [List.length_map] at different
      exact AList.lookup_insert_ne different
  · simp only [Log.append, List.map_append, List.map_singleton]
    rw [refines.current]
    cases log.current with
    | some diff =>
        refine refines.diffs.write nonempty ?_ ?_
        · rw [List.length_map]
          exact AList.lookup_insert _
        · intro slot different
          rw [List.length_map] at different
          exact AList.lookup_insert_ne different
    | none =>
        refine refines.diffs.write nonempty ?_ ?_
        · rw [List.length_map]
          exact AList.lookup_erase _ _
        · intro slot different
          rw [List.length_map] at different
          exact AList.lookup_erase_ne different

/-- The number of an added job counts the log, while the counter does not wrap. -/
theorem Refines.addJob_answer (refines : Refines state log) (job : Job)
    (room : log.entries.length + 1 < 2 ^ 64) :
    (state.addJob job).1 = log.entries.length + 1 := by
  rw [MiningState.addJob, refines.counter, Nat.mod_eq_of_lt room]

theorem Refines.setStratumDiff (refines : Refines state log) (diff : KaspaDiff) :
    Refines (state.setStratumDiff diff) (log.append (.setStratumDiff diff)) where
  counter := refines.counter
  numbered := refines.numbered
  jobs := refines.jobs
  diffs := refines.diffs
  current := rfl

/-- The number table resolves exactly the retained numbers. -/
theorem Refines.jobIds_lookup (refines : Refines state log) (id : Nat) :
    state.jobIds.lookup (id % maxJobs) = some id ↔ Retained log id := by
  rw [refines.numbered (id % maxJobs) id, Slots.occupies_self, Retained]
  have nonempty : 0 < maxJobs := by decide
  constructor
  · rintro ⟨positive, written, recent⟩
    exact ⟨positive, written, by omega⟩
  · rintro ⟨positive, written, recent⟩
    exact ⟨positive, written, by omega⟩

theorem Refines.getJob (refines : Refines state log) (id : Nat) :
    state.getJob id = if Retained log id then (log.entries[id - 1]?).map Prod.fst else none := by
  unfold MiningState.getJob
  by_cases retained : Retained log id
  · have stored := (refines.jobIds_lookup id).mpr retained
    have shown := refines.jobs _ _ (by
      rw [List.length_map]
      exact (refines.numbered _ _).mp stored)
    rw [if_pos stored, if_pos retained]
    rw [List.getElem?_map] at shown
    cases entry : log.entries[id - 1]? with
    | none =>
        rw [entry] at shown
        exact nomatch shown
    | some pair =>
        rw [entry] at shown
        exact (Option.some.inj shown).symm
  · rw [if_neg (mt (refines.jobIds_lookup id).mp retained), if_neg retained]

theorem Refines.getJobDiff (refines : Refines state log) (id : Nat) :
    state.getJobDiff id =
      if Retained log id then (log.entries[id - 1]?).bind Prod.snd else none := by
  unfold MiningState.getJobDiff
  by_cases retained : Retained log id
  · have stored := (refines.jobIds_lookup id).mpr retained
    have shown := refines.diffs _ _ (by
      rw [List.length_map]
      exact (refines.numbered _ _).mp stored)
    rw [if_pos stored, if_pos retained]
    rw [List.getElem?_map] at shown
    cases entry : log.entries[id - 1]? with
    | none =>
        rw [entry] at shown
        exact nomatch shown
    | some pair =>
        rw [entry] at shown
        exact (Option.some.inj shown).symm
  · rw [if_neg (mt (refines.jobIds_lookup id).mp retained), if_neg retained]

theorem Refines.mem_getStoredJobIds (refines : Refines state log) (id : Nat) :
    id ∈ state.getStoredJobIds ↔ Retained log id := by
  rw [← refines.jobIds_lookup, getStoredJobIds, List.mem_map]
  constructor
  · rintro ⟨⟨slot, stored⟩, member, rfl⟩
    have found : state.jobIds.lookup slot = some stored := AList.mem_lookup_iff.mpr member
    have held := (refines.numbered slot stored).mp found
    rw [held.slot_eq]
    exact found
  · intro found
    exact ⟨⟨_, id⟩, AList.mem_lookup_iff.mp found, rfl⟩

/-- The newest retained job is the last one of the log. -/
theorem Refines.latestJob (refines : Refines state log) :
    state.latestJob = log.entries.getLast?.map fun entry => (state.jobCounter, entry.1) := by
  have nonempty : 0 < maxJobs := by decide
  unfold MiningState.latestJob
  cases last : log.entries.getLast? with
  | none =>
      have empty : log.entries = [] := List.getLast?_eq_none_iff.mp last
      have noIds : state.getStoredJobIds = [] := by
        refine List.eq_nil_iff_forall_not_mem.mpr ?_
        intro id member
        have retained := (refines.mem_getStoredJobIds id).mp member
        rw [Retained, empty, List.length_nil] at retained
        omega
      rw [noIds]
      rfl
  | some entry =>
      have count : 0 < log.entries.length := by
        refine List.length_pos_iff.mpr ?_
        rintro empty
        rw [empty] at last
        exact nomatch last
      have newest : Retained log log.entries.length := ⟨count, le_refl _, by omega⟩
      have maximal : state.getStoredJobIds.max? = some log.entries.length := by
        refine List.max?_eq_some_iff.mpr ⟨(refines.mem_getStoredJobIds _).mpr newest, ?_⟩
        intro id member
        exact ((refines.mem_getStoredJobIds id).mp member).2.1
      rw [maximal]
      simp only [refines.getJob, if_pos newest, refines.counter]
      rw [List.getLast?_eq_getElem?] at last
      rw [last]
      rfl

end Step

/-- What a run of calls keeps: the ring refines its log, while the counter does
not wrap. -/
theorem run_refines (calls : List Call) (room : (logOf calls).entries.length < 2 ^ 64) :
    Refines (run calls) (logOf calls) := by
  induction calls using List.reverseRecOn with
  | nil => exact new_refines
  | append_singleton calls call ih =>
      rw [run_snoc, logOf_snoc]
      rw [logOf_snoc] at room
      cases call with
      | addJob job =>
          simp only [Log.append, List.length_append, List.length_singleton] at room
          exact (ih (by omega)).addJob job room
      | setStratumDiff diff => exact (ih room).setStratumDiff diff

/-- **The job ring refines an append-only log.** A number resolves exactly while it
is among the last `MAX_JOBS` issued, and then to the job added under it; its
difficulty is the one current when the job was added; the newest job is the last
one added; and no expired or future number resolves to anything. -/
theorem run_resolves_log (calls : List Call) (room : (logOf calls).entries.length < 2 ^ 64) :
    (run calls).jobCounter = (logOf calls).entries.length ∧
    (∀ id job, (run calls).getJob id = some job ↔
      (1 ≤ id ∧ id ≤ (run calls).jobCounter ∧ (run calls).jobCounter - id < maxJobs) ∧
        (logOf calls).entries[id - 1]?.map Prod.fst = some job) ∧
    (∀ id, (run calls).getJobDiff id =
      if 1 ≤ id ∧ id ≤ (run calls).jobCounter ∧ (run calls).jobCounter - id < maxJobs then
        (logOf calls).entries[id - 1]?.bind Prod.snd
      else none) ∧
    (run calls).latestJob =
      (logOf calls).entries.getLast?.map (fun entry => ((run calls).jobCounter, entry.1)) ∧
    (∀ id, (run calls).jobCounter < id ∨ maxJobs ≤ (run calls).jobCounter - id →
      (run calls).getJob id = none ∧ (run calls).getJobDiff id = none) := by
  have refines := run_refines calls room
  refine ⟨refines.counter, ?_, ?_, refines.latestJob, ?_⟩
  · intro id job
    rw [refines.getJob, refines.counter]
    change (if Retained (logOf calls) id then _ else _) = _ ↔ Retained (logOf calls) id ∧ _
    split
    · next retained => simp only [retained, true_and]
    · next expired => simp only [expired, false_and, reduceCtorEq]
  · intro id
    rw [refines.getJobDiff, refines.counter]
    rfl
  · intro id gone
    have expired : ¬ Retained (logOf calls) id := by
      rintro ⟨positive, issued, recent⟩
      rw [refines.counter] at gone
      omega
    rw [refines.getJob, refines.getJobDiff, if_neg expired, if_neg expired]
    exact ⟨rfl, rfl⟩

end MiningState

end Model

section Sample

attribute [local instance] Sample.platform

namespace MiningState

/-- Two jobs around a difficulty change. -/
private def sampleCalls : List Call :=
  [.addJob ⟨Sample.block 1 0 [], 1⟩, .setStratumDiff ⟨0, 1, 7⟩, .addJob ⟨Sample.block 2 0 [], 2⟩]

theorem run_resolves_log_sample :
    ((run sampleCalls).getJob 1 = some ⟨Sample.block 1 0 [], 1⟩ ∧
      (run sampleCalls).getJobDiff 2 = some ⟨0, 1, 7⟩) := by
  have resolved := run_resolves_log sampleCalls (by decide)
  refine ⟨(resolved.2.1 1 _).mpr (by decide +kernel), ?_⟩
  rw [resolved.2.2.1 2]
  rfl

end MiningState

end Sample

end StratumBridge
