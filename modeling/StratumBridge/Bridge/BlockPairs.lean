import StratumBridge.Bridge.BlockReports

/-! # Block events in pairs

An accepted block is always reported, and an announced one only under names the
accounting layer accepts. So an acceptance has its announcement exactly when the wallet and
the worker read for the solution are acceptable.
-/

namespace StratumBridge

open Interaction

section Model

variable [Platform] {deployment : Deployment}

/-- The correlation ids handed out. -/
def correlationDraw : (op : BridgeOp) → op.Answer → Option Nat
  | .newCorrelationId, id => some id
  | _, _ => none

/-- An announcement of this block under this correlation id. -/
def announcement (hash : Hash) (id : Nat) : (op : BridgeOp) → op.Answer → Option Unit
  | .emit (.blockFound _ _ announced _ drawn), _ =>
      if announced = hash ∧ drawn = id then some () else none
  | _, _ => none

/-- The same among a task's own calls. -/
def ReportCall.announces (hash : Hash) (id : Nat) : ReportCall → Option Unit
  | .found announced drawn => if announced = hash ∧ drawn = id then some () else none
  | _ => none

/-- The wallet and the worker read for the last evaluated job, right after it. -/
def NamesRead (calls : List ReportCall) (wallet worker : Text) : Prop :=
  ∃ front block nonce first second back,
    calls = front ++ .checked block nonce :: .read first :: .read second :: back ∧
    (∀ block nonce, .checked block nonce ∉ back) ∧
    first.walletAddr = wallet ∧ second.workerName = worker

/-- The names of a solution are read once. -/
theorem NamesRead.unique {calls : List ReportCall} {wallet worker otherWallet otherWorker : Text}
    (names : NamesRead calls wallet worker) (others : NamesRead calls otherWallet otherWorker) :
    wallet = otherWallet ∧ worker = otherWorker := by
  obtain ⟨front, block, nonce, first, second, back, rfl, last, rfl, rfl⟩ := names
  obtain ⟨before, otherBlock, otherNonce, third, fourth, after, same, otherLast, rfl, rfl⟩ := others
  rcases List.append_eq_append_iff.mp same with ⟨rest, longer, tail⟩ | ⟨rest, longer, tail⟩
  · rcases rest with _ | ⟨head, _ | ⟨next, _ | ⟨later, rest⟩⟩⟩
    · cases tail
      exact ⟨rfl, rfl⟩
    · exact nomatch (List.cons.inj (List.cons.inj tail).2).1
    · exact nomatch (List.cons.inj (List.cons.inj (List.cons.inj tail).2).2).1
    · have inBack : ReportCall.checked otherBlock otherNonce ∈ back := by
        have tails := (List.cons.inj (List.cons.inj (List.cons.inj tail).2).2).2
        rw [tails]
        exact List.mem_append_right _ List.mem_cons_self
      exact absurd inBack (last _ _)
  · rcases rest with _ | ⟨head, _ | ⟨next, _ | ⟨later, rest⟩⟩⟩
    · cases tail
      exact ⟨rfl, rfl⟩
    · exact nomatch (List.cons.inj (List.cons.inj tail).2).1
    · exact nomatch (List.cons.inj (List.cons.inj (List.cons.inj tail).2).2).1
    · have inAfter : ReportCall.checked block nonce ∈ after := by
        have tails := (List.cons.inj (List.cons.inj (List.cons.inj tail).2).2).2
        rw [tails]
        exact List.mem_append_right _ List.mem_cons_self
      exact absurd inAfter (otherLast _ _)

/-- The names of a delivered solution are the ones read for it. -/
theorem Delivered.names {log : Record deployment} {calls : List ReportCall} {solution : Solution}
    {block : Block} (delivered : Delivered log calls solution block) :
    NamesRead calls solution.wallet solution.worker := by
  obtain ⟨before, reads, ⟨early, first, second, later, rfl, -, noise, wallet, worker⟩, -, rfl,
    laterNoise⟩ := delivered
  refine ⟨.correlated solution.correlationId :: early, solution.block, solution.nonce, first, second,
    later ++ solution.announced deployment.settings ++ .sent block .success :: reads, ?_, ?_, wallet,
    worker⟩
  · simp only [List.append_assoc, List.cons_append]
  · intro other nonce member
    rcases List.mem_append.mp member with earlier | sent
    · rcases List.mem_append.mp earlier with read | announced
      · exact noise _ read
      · exact nomatch mem_announced announced
    · rcases List.mem_cons.mp sent with absurdity | read
      · exact nomatch absurdity
      · exact laterNoise _ read

/-- A task of a delivered solution announced it if its names are accepted, and nothing else. -/
theorem Delivered.announcements {log : Record deployment} {calls : List ReportCall}
    {solution : Solution} {block : Block} (delivered : Delivered log calls solution block) :
    (calls.filterMap (ReportCall.announces (solution.chainHash deployment.settings)
      solution.correlationId)).length = if solution.Named then 1 else 0 := by
  obtain ⟨before, reads, solving, -, rfl, noise⟩ := delivered
  have silent : ∀ {part : List ReportCall} {hash : Hash} {id : Nat},
      (∀ hash id, .found hash id ∉ part) → part.filterMap (ReportCall.announces hash id) = [] := by
    intro part hash id none
    refine List.filterMap_eq_nil_iff.mpr fun call member => ?_
    cases call with
    | found found drawn => exact absurd member (none found drawn)
    | _ => rfl
  have after : ∀ hash id, ReportCall.found hash id ∉ ReportCall.sent block .success :: reads := by
    intro hash id member
    rcases List.mem_cons.mp member with absurdity | read
    · exact nomatch absurdity
    · exact noise _ read
  rw [List.filterMap_append, List.filterMap_append, silent fun hash id => solving.not_found,
    silent after, List.nil_append, List.append_nil, Solution.announced]
  by_cases named : solution.Named
  · rw [if_pos named, if_pos named]
    have one : ReportCall.announces (solution.chainHash deployment.settings) solution.correlationId
        (.found (solution.chainHash deployment.settings) solution.correlationId) = some () :=
      if_pos ⟨rfl, rfl⟩
    rw [List.filterMap_cons_some one]
    rfl
  · rw [if_neg named, if_neg named]
    rfl

theorem Solving.drew {calls : List ReportCall} {solution : Solution}
    (solving : Solving calls solution) : .correlated solution.correlationId ∈ calls := by
  obtain ⟨early, first, second, reads, rfl, -⟩ := solving
  exact List.mem_cons_self

theorem did_of_correlated {log : Record deployment} {thread id : Nat}
    (member : ReportCall.correlated id ∈ System.ownCalls reportCall thread log) :
    .did thread .newCorrelationId id ∈ log := by
  obtain ⟨op, answer, inLog, chosen⟩ := System.mem_ownCalls.mp member
  cases reportCall_cases chosen
  exact inLog

section Run

variable {events : List (bridge deployment).Event}

/-- Everything announced under a task's correlation id was announced by the task. -/
theorem announcements_own
    (distinct : (System.callsOf correlationDraw (System.execute events).log).Nodup)
    {front back : Record deployment} (split : (System.execute events).log = front ++ back)
    {thread id : Nat} (drew : .did thread .newCorrelationId id ∈ (System.execute events).log)
    (hash : Hash) :
    System.callsOf (announcement hash id) front =
      (System.ownCalls reportCall thread front).filterMap (ReportCall.announces hash id) := by
  rw [System.callsOf, System.ownCalls, List.filterMap_filterMap]
  refine List.filterMap_congr fun entry member => ?_
  cases entry with
  | started | finished => rfl
  | did other op answer =>
      by_cases same : other = thread
      · simp only [if_pos same]
        cases op with
        | emit event => cases event <;> rfl
        | context uid op => cases op <;> rfl
        | _ => rfl
      · simp only [if_neg same, Option.bind_none]
        cases op with
        | emit event =>
            cases event with
            | blockFound wallet worker found daaScore drawn =>
                refine if_neg fun matched => same ?_
                obtain ⟨rfl, rfl⟩ := matched
                obtain ⟨before, after, rfl⟩ := List.append_of_mem member
                obtain ⟨solution, solving, -, -, rfl⟩ := solving_of_found
                  (split.trans (by rw [List.append_assoc, List.cons_append]))
                have alsoDrew := did_of_correlated solving.drew
                have inLog : .did other .newCorrelationId solution.correlationId ∈
                    (System.execute events).log := by
                  rw [split, List.append_assoc]
                  exact List.mem_append_left _ alsoDrew
                cases System.entry_eq_of_nodup distinct inLog drew rfl rfl
                rfl
            | _ => rfl
        | _ => rfl

end Run

/-- **Block events are paired exactly under acceptable names.** Each reported acceptance is
preceded by exactly one announcement with its hash and correlation id if and only if the
wallet and the worker read for its solution are names the accounting layer accepts. -/
theorem blockAccepted_paired (events : List (bridge deployment).Event)
    (distinct : (System.callsOf correlationDraw (System.execute events).log).Nodup) :
    ∀ front thread hash id back, (System.execute events).log =
        front ++ .did thread (.emit (.blockAccepted hash id)) () :: back →
      (∃ wallet worker, NamesRead (System.ownCalls reportCall thread front) wallet worker) ∧
      ∀ wallet worker, NamesRead (System.ownCalls reportCall thread front) wallet worker →
        ((System.callsOf (announcement hash id) front).length = 1 ↔
          validWallet wallet = true ∧ validWorker worker = true) := by
  intro front thread hash id back split
  obtain ⟨solution, block, delivered, rfl, rfl⟩ := delivered_of_accepted split
  refine ⟨⟨_, _, delivered.names⟩, fun wallet worker names => ?_⟩
  obtain ⟨rfl, rfl⟩ := names.unique delivered.names
  have drew : .did thread .newCorrelationId solution.correlationId ∈
      (System.execute events).log := by
    rw [split]
    refine List.mem_append_left _ (did_of_correlated ?_)
    obtain ⟨before, reads, solving, -, calls, -⟩ := delivered
    rw [calls, List.append_assoc]
    exact List.mem_append_left _ solving.drew
  rw [announcements_own distinct split drew, delivered.announcements]
  by_cases named : solution.Named
  · rw [if_pos named]
    exact iff_of_true rfl named
  · rw [if_neg named]
    exact iff_of_false Nat.zero_ne_one named

end Model

section Sample

attribute [local instance] Sample.platform

namespace Sample

/-- A miner authorizes under a worker name, gets a job, and solves it. -/
def namedRun (worker : Text) : List (bridge (deployment none)).Event :=
  [.start (.authorize 1 ⟨none, [.string ("kaspa:qqqqqqq.".toList ++ worker)]⟩)]
    ++ steps none 0 48 { template := .block easyBlock, correlationId := 1 }
    ++ steps none 0 36 { template := .block easyParent, correlationId := 1 }
    ++ [.start (.submit 1 ⟨none, [.string [], .string ['1'], .string ['5']]⟩)]
    ++ steps none 1 90 { correlationId := 2 }

/-- Announcements among the block events. -/
theorem callsOf_announcement {payout : Option Text} (log : Record (deployment payout))
    (hash : Hash) (id : Nat) :
    System.callsOf (announcement hash id) log =
      (System.callsOf blockReport log).filterMap fun (accepted, found, drawn) =>
        if accepted = false ∧ found = hash ∧ drawn = id then some () else none := by
  rw [System.callsOf, System.callsOf, List.filterMap_filterMap]
  refine List.filterMap_congr fun entry _ => ?_
  cases entry with
  | did thread op answer =>
      cases op with
      | emit event =>
          cases event with
          | blockFound wallet worker found daaScore drawn =>
              change (if found = hash ∧ drawn = id then some () else none) =
                if false = false ∧ found = hash ∧ drawn = id then some () else none
              simp only [true_and]
          | _ => rfl
      | _ => rfl
  | _ => rfl

/-- Under the worker name `r` the acceptance of the block has its announcement. -/
theorem blockAccepted_paired_sample : ∃ front thread back,
    (System.execute (namedRun ['r'])).log =
      front ++ .did thread (.emit (.blockAccepted 7 2)) () :: back ∧
    ∃ wallet worker, NamesRead (System.ownCalls reportCall thread front) wallet worker ∧
      validWallet wallet = true ∧ validWorker worker = true := by
  have listed : System.callsOf blockReport (System.execute (namedRun ['r'])).log =
      [(false, 7, 2)] ++ (true, 7, 2) :: [] := by
    decide +kernel
  obtain ⟨front, thread, back, split, before⟩ := exists_split_of_blockReport listed
  obtain ⟨⟨wallet, worker, names⟩, paired⟩ :=
    blockAccepted_paired (namedRun ['r']) (by decide +kernel) front thread 7 2 back split
  refine ⟨front, thread, back, split, wallet, worker, names, (paired wallet worker names).mp ?_⟩
  rw [callsOf_announcement, before]
  rfl

/-- Under the worker name `r g` the block is accepted without having been announced. -/
theorem blockAccepted_unpaired :
    ¬ ∀ events : List (bridge (deployment none)).Event,
      (System.callsOf correlationDraw (System.execute events).log).Nodup →
      ∀ front thread hash id back, (System.execute events).log =
          front ++ .did thread (.emit (.blockAccepted hash id)) () :: back →
        (System.callsOf (announcement hash id) front).length = 1 := by
  intro claim
  have listed : System.callsOf blockReport (System.execute (namedRun ['r', ' ', 'g'])).log =
      [] ++ (true, 7, 2) :: [] := by
    decide +kernel
  obtain ⟨front, thread, back, split, before⟩ := exists_split_of_blockReport listed
  have one := claim (namedRun ['r', ' ', 'g']) (by decide +kernel) front thread 7 2 back split
  rw [callsOf_announcement, before] at one
  exact nomatch one

end Sample

end Sample

end StratumBridge
