import StratumBridge.Bridge.MergedSettlement
import StratumBridge.Bridge.ReportProtocol

/-! # The reported block is the submitted block

The hash a solution is reported under is read off the job, and the block sent to the ZKas
node is rebuilt from the pending store. Both name the same block.
-/

namespace StratumBridge

open Interaction

section Model

variable [Platform] {deployment : Deployment}

/-- The operation behind a recorded call. -/
inductive Reported : (op : BridgeOp) → op.Answer → ReportCall → Prop where
  | correlated (id : Nat) : Reported .newCorrelationId id (.correlated id)
  | read (uid : Nat) (context : Context) : Reported (.context uid .read) context (.read context)
  | checked (block : Block) (nonce : Nat) (answer : Bool × Nat) :
      Reported (.checkPow block nonce) answer (.checked block nonce)
  | found (wallet : WalletAddress) (worker : WorkerName) (hash : Hash) (daaScore id : Nat) :
      Reported (.emit (.blockFound wallet worker hash daaScore id)) () (.found hash id)
  | sent (block : Block) (reply : SubmitReply) :
      Reported (.zkasSubmit block) reply (.sent block reply)
  | accepted (hash : Hash) (id : Nat) :
      Reported (.emit (.blockAccepted hash id)) () (.accepted hash id)

/-- **Inversion of a recorded call.** -/
theorem reportCall_cases {op : BridgeOp} {answer : op.Answer} {item : ReportCall}
    (chosen : reportCall op answer = some item) : Reported op answer item := by
  unfold reportCall at chosen
  split at chosen
  case h_7 => exact nomatch chosen
  all_goals
    cases chosen
    constructor

section Calls

variable {settings : Settings} {calls : List ReportCall} {solution : Solution}

theorem Solving.item {item : ReportCall} (solving : Solving calls solution) (member : item ∈ calls) :
    item = .correlated solution.correlationId ∨ item.Silent := by
  obtain ⟨early, first, second, reads, rfl, silent, noise, -⟩ := solving
  simp only [List.cons_append, List.mem_cons, List.mem_append] at member
  rcases member with rfl | early | rfl | rfl | rfl | later
  · exact Or.inl rfl
  · exact Or.inr (silent item early)
  · exact Or.inr trivial
  · exact Or.inr trivial
  · exact Or.inr trivial
  · exact Or.inr (noise item later).silent

theorem Solving.not_sent {block : Block} {reply : SubmitReply} (solving : Solving calls solution) :
    ReportCall.sent block reply ∉ calls := by
  intro member
  rcases solving.item member with absurdity | absurdity
  · exact nomatch absurdity
  · exact absurdity

theorem Solving.not_found {hash : Hash} {id : Nat} (solving : Solving calls solution) :
    ReportCall.found hash id ∉ calls := by
  intro member
  rcases solving.item member with absurdity | absurdity
  · exact nomatch absurdity
  · exact absurdity

/-- All that is announced is the solution. -/
theorem mem_announced {item : ReportCall} (member : item ∈ solution.announced settings) :
    item = .found (solution.chainHash settings) solution.correlationId := by
  unfold Solution.announced at member
  split at member
  · exact List.mem_singleton.mp member
  · exact absurd member List.not_mem_nil

end Calls

/-- The header hash of an issued template is the one it comes with. -/
def Finalized (log : Record deployment) : Prop :=
  ∀ fcBlock, Issued log fcBlock → fcBlock.header.hash = Platform.headerHash fcBlock.header

/-- Confirmation tasks are the ones accepted blocks start. -/
def ConfirmsSpawned (log : Record deployment) : Prop :=
  ∀ front thread instanceId handle worker hash nonce blueScore back,
    log = front ++ .started thread (.confirmBlock instanceId handle worker hash nonce blueScore) ::
        back →
      ∃ spawner,
        .did spawner (.spawnConfirm instanceId handle worker hash nonce blueScore) () ∈ front

section Run

variable {events : List (bridge deployment).Event}

/-- The block sent for a solution has the hash the solution is reported under. -/
theorem Solution.Sends.hash (finalized : Finalized (System.execute events).log)
    {solution : Solution} {block : Block}
    (sends : Solution.Sends (System.execute events).log solution block) :
    Platform.headerHash block.header = solution.chainHash deployment.settings := by
  cases sends with
  | plain unmerged =>
      rw [Solution.chainHash, mergedChainHash, if_neg (Bool.eq_false_iff.mp unmerged)]
      rfl
  | merged merged hFc fcBlock commits pending =>
      obtain ⟨thread, member⟩ := pending
      obtain ⟨front, back, split⟩ := List.append_of_mem member
      obtain ⟨lane, issued⟩ := issued_of_looked split
      rw [Solution.chainHash, mergedChainHash, if_pos merged, commits, assembleAuxBlock_header,
        ← finalized fcBlock issued, lane]
      rfl

/-- What a recorded submission presupposes. -/
theorem solving_of_sent {front back : Record deployment} {thread : Nat} {block : Block}
    {reply : SubmitReply}
    (split : (System.execute events).log = front ++ .did thread (.zkasSubmit block) reply :: back) :
    ∃ solution before, Solving before solution ∧
      System.ownCalls reportCall thread front =
        before ++ solution.announced deployment.settings ∧
      Solution.Sends (System.execute events).log solution block := by
  obtain ⟨request, -, permitted⟩ :=
    (reports_execute events).calls front thread (.zkasSubmit block) reply back split
  exact permitted

/-- What a recorded announcement presupposes. -/
theorem solving_of_found {front back : Record deployment} {thread : Nat} {wallet : WalletAddress}
    {worker : WorkerName} {hash : Hash} {daaScore id : Nat} {answer : Unit}
    (split : (System.execute events).log =
      front ++ .did thread (.emit (.blockFound wallet worker hash daaScore id)) answer :: back) :
    ∃ solution, Solving (System.ownCalls reportCall thread front) solution ∧ solution.Named ∧
      hash = solution.chainHash deployment.settings ∧ id = solution.correlationId := by
  obtain ⟨request, -, permitted⟩ := (reports_execute events).calls front thread
    (.emit (.blockFound wallet worker hash daaScore id)) answer back split
  exact permitted

/-- What a recorded acceptance presupposes. -/
theorem delivered_of_accepted {front back : Record deployment} {thread : Nat} {hash : Hash}
    {id : Nat} {answer : Unit}
    (split : (System.execute events).log =
      front ++ .did thread (.emit (.blockAccepted hash id)) answer :: back) :
    ∃ solution block,
      Delivered (System.execute events).log (System.ownCalls reportCall thread front) solution
        block ∧
      hash = solution.chainHash deployment.settings ∧ id = solution.correlationId := by
  obtain ⟨request, -, permitted⟩ := (reports_execute events).calls front thread
    (.emit (.blockAccepted hash id)) answer back split
  exact permitted

theorem Delivered.sent {log : Record deployment} {calls : List ReportCall} {solution : Solution}
    {block : Block} (delivered : Delivered log calls solution block) :
    ReportCall.sent block .success ∈ calls := by
  obtain ⟨before, reads, -, -, rfl, -⟩ := delivered
  exact List.mem_append_right _ List.mem_cons_self

/-- A recorded submission is in the log. -/
theorem did_of_sent {log : Record deployment} {thread : Nat} {block : Block} {reply : SubmitReply}
    (member : ReportCall.sent block reply ∈ System.ownCalls reportCall thread log) :
    .did thread (.zkasSubmit block) reply ∈ log := by
  obtain ⟨op, answer, inLog, chosen⟩ := System.mem_ownCalls.mp member
  cases reportCall_cases chosen
  exact inLog

theorem not_sent_before {front back : Record deployment} {thread : Nat} {block : Block}
    {reply : SubmitReply}
    (split : (System.execute events).log = front ++ .did thread (.zkasSubmit block) reply :: back) :
    ∀ other otherReply, .did thread (.zkasSubmit other) otherReply ∉ front := by
  intro other otherReply member
  obtain ⟨solution, before, solving, calls, -⟩ := solving_of_sent split
  have earlier : ReportCall.sent other otherReply ∈ System.ownCalls reportCall thread front :=
    System.mem_ownCalls.mpr ⟨_, _, member, rfl⟩
  rw [calls] at earlier
  rcases List.mem_append.mp earlier with inBefore | announced
  · exact solving.not_sent inBefore
  · exact nomatch mem_announced announced

/-- A submission sends at most one block. -/
theorem sent_unique {thread : Nat} {block other : Block} {reply otherReply : SubmitReply}
    (sent : .did thread (.zkasSubmit block) reply ∈ (System.execute events).log)
    (again : .did thread (.zkasSubmit other) otherReply ∈ (System.execute events).log) :
    block = other := by
  rcases System.order_of_mem sent again with same | ⟨before, between, after, split⟩ |
      ⟨before, between, after, split⟩
  · cases same
    rfl
  · rw [← List.cons_append, ← List.append_assoc] at split
    exact absurd (List.mem_append_right _ List.mem_cons_self) (not_sent_before split block reply)
  · rw [← List.cons_append, ← List.append_assoc] at split
    exact absurd (List.mem_append_right _ List.mem_cons_self)
      (not_sent_before split other otherReply)

/-- The announced hash is the hash of the block sent. -/
theorem found_hash (finalized : Finalized (System.execute events).log) {thread : Nat}
    {wallet : WalletAddress} {worker : WorkerName} {hash : Hash} {daaScore id : Nat} {answer : Unit}
    {block : Block} {reply : SubmitReply}
    (found : .did thread (.emit (.blockFound wallet worker hash daaScore id)) answer ∈
      (System.execute events).log)
    (sent : .did thread (.zkasSubmit block) reply ∈ (System.execute events).log) :
    Platform.headerHash block.header = hash := by
  rcases System.order_of_mem found sent with same | ⟨before, between, after, split⟩ |
      ⟨before, between, after, split⟩
  · exact nomatch same
  · rw [← List.cons_append, ← List.append_assoc] at split
    obtain ⟨solution, start, solving, calls, sends⟩ := solving_of_sent split
    have member : ReportCall.found hash id ∈ System.ownCalls reportCall thread
        (before ++ .did thread (.emit (.blockFound wallet worker hash daaScore id)) answer ::
          between) :=
      System.mem_ownCalls.mpr ⟨_, _, List.mem_append_right _ List.mem_cons_self, rfl⟩
    rw [calls] at member
    rcases List.mem_append.mp member with inStart | announced
    · exact absurd inStart solving.not_found
    · cases mem_announced announced
      exact sends.hash finalized
  · -- The announcement comes first.
    rw [← List.cons_append, ← List.append_assoc] at split
    obtain ⟨solution, solving, -⟩ := solving_of_found split
    have member : ReportCall.sent block reply ∈ System.ownCalls reportCall thread
        (before ++ .did thread (.zkasSubmit block) reply :: between) :=
      System.mem_ownCalls.mpr ⟨_, _, List.mem_append_right _ List.mem_cons_self, rfl⟩
    exact absurd member solving.not_sent

theorem accepted_hash (finalized : Finalized (System.execute events).log)
    {front back : Record deployment} {thread : Nat} {hash : Hash} {id : Nat} {answer : Unit}
    (split : (System.execute events).log =
      front ++ .did thread (.emit (.blockAccepted hash id)) answer :: back) :
    ∃ block, .did thread (.zkasSubmit block) .success ∈ front ∧
      Platform.headerHash block.header = hash := by
  obtain ⟨solution, block, delivered, rfl, -⟩ := delivered_of_accepted split
  have sent := did_of_sent delivered.sent
  obtain ⟨before, reads, -, sends, -⟩ := delivered
  exact ⟨block, sent, sends.hash finalized⟩

theorem spawned_hash (finalized : Finalized (System.execute events).log)
    {front back : Record deployment} {thread instanceId handle nonce blueScore : Nat}
    {worker : WorkerContext} {hash : Text} {answer : Unit}
    (split : (System.execute events).log = front ++
      .did thread (.spawnConfirm instanceId handle worker hash nonce blueScore) answer :: back) :
    ∃ block, .did thread (.zkasSubmit block) .success ∈ front ∧
      hash = Text.ofHash (Platform.headerHash block.header) := by
  obtain ⟨request, -, solution, block, before, delivered, calls, rfl⟩ :=
    (reports_execute events).calls front thread
      (.spawnConfirm instanceId handle worker hash nonce blueScore) answer back split
  have member : ReportCall.sent block .success ∈ System.ownCalls reportCall thread front := by
    rw [calls]
    exact List.mem_append_left _ delivered.sent
  have sent := did_of_sent member
  obtain ⟨start, reads, -, sends, -⟩ := delivered
  exact ⟨block, sent, by rw [sends.hash finalized]⟩

end Run

/-- **The reported block is the submitted block.** A submission sends at most one block to
the ZKas node. If it announces a block, the announced hash is that block's; if it reports an
acceptance or starts polling, the node took that block and the hash is that block's; and what
the confirmation tasks poll is the hash of a block the node took. -/
theorem reported_hash_is_sent (events : List (bridge deployment).Event)
    (finalized : Finalized (System.execute events).log) :
    (∀ thread block reply other otherReply,
      .did thread (.zkasSubmit block) reply ∈ (System.execute events).log →
      .did thread (.zkasSubmit other) otherReply ∈ (System.execute events).log → block = other) ∧
    (∀ thread wallet worker hash daaScore id block reply,
      .did thread (.emit (.blockFound wallet worker hash daaScore id)) () ∈
        (System.execute events).log →
      .did thread (.zkasSubmit block) reply ∈ (System.execute events).log →
        Platform.headerHash block.header = hash) ∧
    (∀ front thread hash id back, (System.execute events).log =
        front ++ .did thread (.emit (.blockAccepted hash id)) () :: back →
      ∃ block, .did thread (.zkasSubmit block) .success ∈ front ∧
        Platform.headerHash block.header = hash) ∧
    (∀ front thread instanceId handle worker hash nonce blueScore back,
      (System.execute events).log = front ++
        .did thread (.spawnConfirm instanceId handle worker hash nonce blueScore) () :: back →
      ∃ block, .did thread (.zkasSubmit block) .success ∈ front ∧
        hash = Text.ofHash (Platform.headerHash block.header)) ∧
    (ConfirmsSpawned (System.execute events).log → ∀ thread hash blue,
      .did thread (.blockColor hash) blue ∈ (System.execute events).log →
      ∃ sender block, .did sender (.zkasSubmit block) .success ∈ (System.execute events).log ∧
        hash = Text.ofHash (Platform.headerHash block.header)) := by
  refine ⟨fun thread block reply other otherReply => sent_unique,
    fun thread wallet worker hash daaScore id block reply => found_hash finalized,
    fun front thread hash id back => accepted_hash finalized,
    fun front thread instanceId handle worker hash nonce blueScore back => spawned_hash finalized,
    ?_⟩
  intro spawned thread hash blue member
  obtain ⟨front, back, split⟩ := List.append_of_mem member
  obtain ⟨request, started, instanceId, handle, worker, nonce, blueScore, rfl⟩ :=
    (reports_execute events).calls front thread (.blockColor hash) blue back split
  obtain ⟨start, running, rfl⟩ := List.append_of_mem started
  rw [List.append_assoc, List.cons_append] at split
  obtain ⟨spawner, spawn⟩ := spawned _ _ _ _ _ _ _ _ _ split
  obtain ⟨before, after, rfl⟩ := List.append_of_mem spawn
  rw [List.append_assoc, List.cons_append] at split
  obtain ⟨block, sent, same⟩ := spawned_hash finalized split
  refine ⟨spawner, block, ?_, same⟩
  rw [split]
  exact List.mem_append_left _ sent

end Model

section Sample

attribute [local instance] Sample.platform

namespace Sample

/-- The block events of a run: whether an acceptance, the hash and the correlation id. -/
def blockReport : (op : BridgeOp) → op.Answer → Option (Bool × Hash × Nat)
  | .emit (.blockFound _ _ hash _ id), _ => some (false, hash, id)
  | .emit (.blockAccepted hash id), _ => some (true, hash, id)
  | _, _ => none

theorem exists_split_of_blockReport {payout : Option Text} {log : Record (deployment payout)}
    {early late : List (Bool × Hash × Nat)} {hash : Hash} {id : Nat}
    (listed : System.callsOf blockReport log = early ++ (true, hash, id) :: late) :
    ∃ front thread back, log = front ++ .did thread (.emit (.blockAccepted hash id)) () :: back ∧
      System.callsOf blockReport front = early := by
  obtain ⟨front, entry, back, split, before, single⟩ := System.exists_split_of_callsOf listed
  have member : (true, hash, id) ∈ System.callsOf blockReport [entry] := by
    rw [single]
    exact List.mem_singleton_self _
  obtain ⟨thread, op, answer, only, chosen⟩ := System.mem_callsOf.mp member
  obtain rfl := List.mem_singleton.mp only
  unfold blockReport at chosen
  split at chosen
  · exact nomatch chosen
  · cases chosen
    exact ⟨front, thread, back, split, before⟩
  · exact nomatch chosen

/-- The solved lane 7 is reported under the hash of the block sent. -/
theorem reported_hash_is_sent_sample : ∃ sender block,
    .did sender (.zkasSubmit block) .success ∈
      (System.execute (solvedEvents none (.block easyParent))).log ∧
    Platform.headerHash block.header = 7 := by
  have reported := reported_hash_is_sent (solvedEvents none (.block easyParent)) fun _ _ => rfl
  have listed : System.callsOf blockReport
      (System.execute (solvedEvents none (.block easyParent))).log = [] ++ (true, 7, 0) :: [] := by
    decide +kernel
  obtain ⟨front, thread, back, split, -⟩ := exists_split_of_blockReport listed
  obtain ⟨block, sent, same⟩ := reported.2.2.1 front thread 7 0 back split
  refine ⟨thread, block, ?_, same⟩
  rw [split]
  exact List.mem_append_left _ sent

end Sample

end Sample

end StratumBridge
