import StratumBridge.Bridge.SettlementProtocol

/-! # Walks back over earlier jobs

A submission is evaluated on the job it resolves to and, while it misses the chain targets
and the pool target of a job, on the job before it. Such a walk is described here on its
own, over a ring that does not change: it ends at the first job that hits, if one does
before the attempts or the retained jobs run out.
-/

namespace StratumBridge

open Interaction

variable [Platform]

namespace MiningState

/-- The job a number resolves to: its own while it is retained, else the newest one. -/
def resolve (ring : MiningState) (named : Nat) : Option (Nat × Job) :=
  match ring.getJob named with
  | some job => some (named, job)
  | none => ring.latestJob

/-- The difficulty a share on a job is measured by. -/
def measure (ring : MiningState) (id : Nat) : Option KaspaDiff :=
  match ring.getJobDiff id with
  | some diff => some diff
  | none => ring.stratumDiff

def poolTarget (ring : MiningState) (id : Nat) : Nat :=
  ((ring.measure id).map KaspaDiff.targetValue).getD 0

/-- The newest retained job is retained. -/
theorem getJob_of_resolve {ring : MiningState} {named id : Nat} {job : Job}
    (resolved : ring.resolve named = some (id, job)) : ring.getJob id = some job := by
  unfold resolve at resolved
  split at resolved
  case h_1 found same =>
    cases resolved
    exact same
  case h_2 =>
    unfold latestJob at resolved
    split at resolved
    · obtain ⟨found, same, pair⟩ := Option.map_eq_some_iff.mp resolved
      cases pair
      exact same
    · exact nomatch resolved

end MiningState

/-! ## Walks -/

/-- The evaluation of a job ends the walk: it clears a chain target, or the pool target of
the job. -/
def Evaluation.Hits (evaluation : Evaluation) (ring : MiningState) (id : Nat) : Prop :=
  evaluation.Solves ∨ evaluation.powValue ≤ ring.poolTarget id

/-- The evaluation is of this retained job, at this nonce. A lane is looked up for merged
jobs only. -/
structure Evaluation.Of (evaluation : Evaluation) (settings : Settings) (ring : MiningState)
    (nonce id : Nat) (job : Job) : Prop where
  retained : ring.getJob id = some job
  block : evaluation.block = job.block
  nonce : evaluation.nonce = nonce
  plain : Evaluation.lane settings job.block = none → evaluation.found = none

/-- A walk from a job, with so many attempts left: the evaluations it makes, and the job it
ends at, if one hits. -/
inductive WalksFrom (settings : Settings) (ring : MiningState) (nonce : Nat) :
    Nat → Nat → List Evaluation → Option (Nat × Job) → Prop where
  | hit {attempts id : Nat} {job : Job} {evaluation : Evaluation}
      (here : evaluation.Of settings ring nonce id job) (hits : evaluation.Hits ring id) :
      WalksFrom settings ring nonce (attempts + 1) id [evaluation] (some (id, job))
  | spent {id : Nat} {job : Job} {evaluation : Evaluation}
      (here : evaluation.Of settings ring nonce id job) (misses : ¬evaluation.Hits ring id) :
      WalksFrom settings ring nonce 1 id [evaluation] none
  | lost {attempts id : Nat} {job : Job} {evaluation : Evaluation}
      (here : evaluation.Of settings ring nonce id job) (misses : ¬evaluation.Hits ring id)
      (gone : ring.getJob (id - 1) = none) :
      WalksFrom settings ring nonce (attempts + 1) id [evaluation] none
  | back {attempts id : Nat} {job : Job} {evaluation : Evaluation} {rounds : List Evaluation}
      {exit : Option (Nat × Job)}
      (here : evaluation.Of settings ring nonce id job) (misses : ¬evaluation.Hits ring id)
      (rest : WalksFrom settings ring nonce attempts (id - 1) rounds exit) :
      WalksFrom settings ring nonce (attempts + 1) id (evaluation :: rounds) exit

/-! ## The first job to hit -/

section FirstHit

variable {settings : Settings} {ring : MiningState} {nonce : Nat}

/-- The evaluation of a job, with the pending block that its lane is found to have. -/
def evaluationOf (nonce : Nat) (found : Nat → Option Block) (id : Nat) (job : Job) : Evaluation :=
  ⟨job.block, nonce, found id⟩

/-- The number is retained, and its job hits. -/
def HitsAt (ring : MiningState) (nonce : Nat) (found : Nat → Option Block) (id : Nat) : Prop :=
  ∃ job, ring.getJob id = some job ∧ (evaluationOf nonce found id job).Hits ring id

/-- The number is retained, and its job misses. -/
def MissesAt (ring : MiningState) (nonce : Nat) (found : Nat → Option Block) (id : Nat) : Prop :=
  ∃ job, ring.getJob id = some job ∧ ¬(evaluationOf nonce found id job).Hits ring id

/-- So many jobs back is the first one to hit: all up to it are retained, and those before it
miss. -/
def HitsFirst (ring : MiningState) (nonce : Nat) (found : Nat → Option Block) (id back : Nat) :
    Prop :=
  (∀ earlier < back, MissesAt ring nonce found (id - earlier)) ∧ HitsAt ring nonce found (id - back)

variable {found : Nat → Option Block} {id : Nat}

theorem hitsFirst_zero : HitsFirst ring nonce found id 0 ↔ HitsAt ring nonce found id :=
  and_iff_right fun _ before => absurd before (Nat.not_lt_zero _)

theorem hitsFirst_succ (back : Nat) : HitsFirst ring nonce found id (back + 1) ↔
    MissesAt ring nonce found id ∧ HitsFirst ring nonce found (id - 1) back := by
  have shift : ∀ earlier, id - 1 - earlier = id - (earlier + 1) := by omega
  unfold HitsFirst
  rw [shift, ← and_assoc]
  refine and_congr_left fun _ => ⟨fun missed => ⟨missed 0 back.succ_pos, ?_⟩, ?_⟩
  · intro earlier before
    rw [shift]
    exact missed (earlier + 1) (Nat.succ_lt_succ before)
  · rintro ⟨here, missed⟩ earlier before
    cases earlier with
    | zero => exact here
    | succ earlier =>
        rw [← shift]
        exact missed earlier (Nat.lt_of_succ_lt_succ before)

/-- The job a first hit is searched from is retained. -/
theorem HitsFirst.retained {back : Nat} (first : HitsFirst ring nonce found id back) :
    ∃ job, ring.getJob id = some job := by
  obtain ⟨missed, hits⟩ := first
  cases back with
  | zero => exact hits.imp fun _ both => both.1
  | succ back => exact (missed 0 back.succ_pos).imp fun _ both => both.1

namespace Evaluation.Of

variable {evaluation : Evaluation} {job : Job}

theorem eq_evaluationOf (here : evaluation.Of settings ring nonce id job)
    (same : found id = evaluation.found) : evaluationOf nonce found id job = evaluation := by
  cases evaluation
  obtain ⟨-, rfl, rfl, -⟩ := here
  rw [evaluationOf, same]

theorem hitsAt_iff (here : evaluation.Of settings ring nonce id job)
    (same : found id = evaluation.found) :
    HitsAt ring nonce found id ↔ evaluation.Hits ring id := by
  constructor
  · rintro ⟨other, retained, hits⟩
    obtain rfl := Option.some.inj (here.retained.symm.trans retained)
    rwa [here.eq_evaluationOf same] at hits
  · intro hits
    refine ⟨job, here.retained, ?_⟩
    rwa [here.eq_evaluationOf same]

theorem missesAt_iff (here : evaluation.Of settings ring nonce id job)
    (same : found id = evaluation.found) :
    MissesAt ring nonce found id ↔ ¬evaluation.Hits ring id := by
  constructor
  · rintro ⟨other, retained, misses⟩
    obtain rfl := Option.some.inj (here.retained.symm.trans retained)
    rwa [here.eq_evaluationOf same] at misses
  · intro misses
    refine ⟨job, here.retained, ?_⟩
    rwa [here.eq_evaluationOf same]

end Evaluation.Of

/-- The lanes are found as the evaluations of a walk found them. -/
def Agrees (found : Nat → Option Block) (id : Nat) (rounds : List Evaluation) : Prop :=
  ∀ back round, rounds[back]? = some round → found (id - back) = round.found

theorem Agrees.tail {evaluation : Evaluation} {rounds : List Evaluation}
    (agrees : Agrees found id (evaluation :: rounds)) : Agrees found (id - 1) rounds := by
  intro back round listed
  rw [Nat.sub_sub, Nat.add_comm 1]
  exact agrees (back + 1) round listed

namespace WalksFrom

variable {attempts : Nat} {rounds : List Evaluation} {exit : Option (Nat × Job)}

theorem length_le (walk : WalksFrom settings ring nonce attempts id rounds exit) :
    rounds.length ≤ attempts := by
  induction walk with
  | hit | spent | lost => exact Nat.succ_le_succ (Nat.zero_le _)
  | back here misses rest ih => exact Nat.succ_le_succ ih

/-- Every evaluation is of a retained job, so many jobs back. -/
theorem evaluates (walk : WalksFrom settings ring nonce attempts id rounds exit)
    (unnumbered : ring.getJob 0 = none) {back : Nat} {round : Evaluation}
    (listed : rounds[back]? = some round) :
    back < id ∧ ∃ job, round.Of settings ring nonce (id - back) job := by
  have positive : ∀ {id : Nat} {job : Job}, ring.getJob id = some job → 0 < id := by
    intro id job retained
    refine Nat.pos_of_ne_zero ?_
    rintro rfl
    exact nomatch unnumbered.symm.trans retained
  have alone : ∀ {id back : Nat} {job : Job} {evaluation : Evaluation},
      evaluation.Of settings ring nonce id job → [evaluation][back]? = some round →
        back < id ∧ ∃ job, round.Of settings ring nonce (id - back) job := by
    intro id back job evaluation here listed
    cases back with
    | zero =>
        cases listed
        exact ⟨positive here.retained, job, here⟩
    | succ back => exact nomatch listed
  induction walk generalizing back with
  | hit here hits => exact alone here listed
  | spent here misses => exact alone here listed
  | lost here misses gone => exact alone here listed
  | back here misses rest ih =>
      cases back with
      | zero =>
          cases listed
          exact ⟨positive here.retained, _, here⟩
      | succ back =>
          obtain ⟨inside, job, there⟩ := ih listed
          rw [Nat.sub_sub, Nat.add_comm 1] at there
          exact ⟨by omega, job, there⟩

/-- **The walk finds the first job to hit**, if it is within reach. -/
theorem exit_of_hitsFirst (walk : WalksFrom settings ring nonce attempts id rounds exit)
    (agrees : Agrees found id rounds) {back : Nat} (within : back < attempts)
    (first : HitsFirst ring nonce found id back) :
    ∃ job, exit = some (id - back, job) ∧ ring.getJob (id - back) = some job := by
  induction walk generalizing back with
  | hit here hits =>
      cases back with
      | zero => exact ⟨_, rfl, here.retained⟩
      | succ back =>
          have missed := ((hitsFirst_succ back).mp first).1
          exact absurd hits ((here.missesAt_iff (agrees 0 _ rfl)).mp missed)
  | spent here misses =>
      obtain rfl := Nat.lt_one_iff.mp within
      exact absurd ((here.hitsAt_iff (agrees 0 _ rfl)).mp (hitsFirst_zero.mp first)) misses
  | lost here misses gone =>
      cases back with
      | zero =>
          exact absurd ((here.hitsAt_iff (agrees 0 _ rfl)).mp (hitsFirst_zero.mp first)) misses
      | succ back =>
          obtain ⟨job, retained⟩ := ((hitsFirst_succ back).mp first).2.retained
          exact nomatch gone.symm.trans retained
  | back here misses rest ih =>
      cases back with
      | zero =>
          exact absurd ((here.hitsAt_iff (agrees 0 _ rfl)).mp (hitsFirst_zero.mp first)) misses
      | succ back =>
          obtain ⟨job, left, retained⟩ :=
            ih agrees.tail (Nat.lt_of_succ_lt_succ within) ((hitsFirst_succ back).mp first).2
          rw [Nat.sub_sub, Nat.add_comm 1] at left retained
          exact ⟨job, left, retained⟩

/-- A walk that ends at a job ends at the first one to hit. -/
theorem hitsFirst_of_exit (walk : WalksFrom settings ring nonce attempts id rounds exit)
    (agrees : Agrees found id rounds) (ends : exit ≠ none) :
    ∃ back < attempts, HitsFirst ring nonce found id back := by
  induction walk with
  | hit here hits =>
      exact ⟨0, Nat.succ_pos _,
        hitsFirst_zero.mpr ((here.hitsAt_iff (agrees 0 _ rfl)).mpr hits)⟩
  | spent | lost => exact absurd rfl ends
  | back here misses rest ih =>
      obtain ⟨back, within, first⟩ := ih agrees.tail ends
      refine ⟨back + 1, Nat.succ_lt_succ within, (hitsFirst_succ back).mpr ⟨?_, first⟩⟩
      exact (here.missesAt_iff (agrees 0 _ rfl)).mpr misses

end WalksFrom

end FirstHit

end StratumBridge
