import StratumBridge.Bridge.RefreshGate

/-! # The spacing of parent-only jobs

Between two parent-only jobs of a connection lies the interval that the later refresh had in
force: it looked at the time of the earlier one with the permit in hand, and nobody else could
note another time until its own job was sent.
-/

namespace StratumBridge

open Interaction

section Model

variable [Platform] {deployment : Deployment}

/-! ## What the stages know -/

section Stages

variable {settings : Settings} {stage : RefreshStage} {step : GateStep}

theorem RefreshStage.of_next_looked {interval : Nat} {sentAt : Option Nat}
    (reached : stage.next settings step = .looked interval sentAt) :
    stage = .looked interval sentAt ∨
      ∃ context, step = .read context ∧ context.lastParentJobAt = sentAt := by
  unfold RefreshStage.next at reached
  split at reached
  · exact nomatch reached
  · exact nomatch reached
  · next context =>
      cases reached
      exact Or.inr ⟨context, rfl, rfl⟩
  · split at reached <;> exact nomatch reached
  · split at reached <;> exact nomatch reached
  · exact nomatch reached
  · exact nomatch reached
  · exact nomatch reached
  · exact nomatch reached
  · exact nomatch reached
  · exact Or.inl reached

theorem RefreshStage.of_next_cleared {interval now : Nat}
    (reached : stage.next settings step = .cleared interval now) :
    stage = .cleared interval now ∨ step = .clock now ∧ ∃ sentAt,
      stage = .looked interval sentAt ∧ ∀ sent, sentAt = some sent → interval ≤ now - sent := by
  unfold RefreshStage.next at reached
  split at reached
  · exact nomatch reached
  · exact nomatch reached
  · exact nomatch reached
  · next held sentAt time =>
      split at reached
      · exact nomatch reached
      · next free =>
          cases reached
          refine Or.inr ⟨rfl, sentAt, rfl, ?_⟩
          rintro sent rfl
          exact Nat.le_of_not_lt fun recent => free (decide_eq_true recent)
  · split at reached <;> exact nomatch reached
  · exact nomatch reached
  · exact nomatch reached
  · exact nomatch reached
  · exact nomatch reached
  · exact nomatch reached
  · exact Or.inl reached

theorem RefreshStage.of_next_timed {now : Nat}
    (reached : stage.next settings step = .timed now) :
    stage = .timed now ∨ step = .clock now := by
  unfold RefreshStage.next at reached
  split at reached
  · exact nomatch reached
  · exact nomatch reached
  · exact nomatch reached
  · split at reached <;> exact nomatch reached
  · split at reached <;> exact nomatch reached
  · cases reached
    exact Or.inr rfl
  · exact nomatch reached
  · exact nomatch reached
  · exact nomatch reached
  · exact nomatch reached
  · exact Or.inl reached

end Stages

/-- The time was read from the clock. -/
def ReadTime (log : Record deployment) (now : Nat) : Prop := ∃ thread, .did thread .now now ∈ log

/-- What the refreshes of a connection know of its last parent-only job. -/
structure Paced (uid : Nat) (last : Option Nat) (log : Record deployment) : Prop where
  noted : ∀ sent, last = some sent → ReadTime log sent
  looked : ∀ thread interval sentAt, stageOf uid thread log = .looked interval sentAt →
    last = sentAt
  cleared : ∀ thread interval now, stageOf uid thread log = .cleared interval now →
    ReadTime log now ∧ ∀ sent, last = some sent → sent + interval ≤ now
  timed : ∀ thread now, stageOf uid thread log = .timed now →
    ReadTime log now ∧ ∀ sent, last = some sent → sent ≤ now
  marked : ∀ thread now, ⟨some uid, .marked now⟩ ∈ System.ownCalls gateCall thread log →
    ∃ sent, last = some sent ∧ now ≤ sent

section Step

variable {log : Record deployment} {uid caller thread : Nat} {op : BridgeOp} {answer : op.Answer}

theorem ReadTime.mono {now : Nat} (read : ReadTime log now) (added : Record deployment) :
    ReadTime (log ++ added) now := by
  obtain ⟨thread, member⟩ := read
  exact ⟨thread, List.mem_append_left _ member⟩

theorem stageOf_other (different : caller ≠ thread) :
    stageOf uid thread (log ++ [.did caller op answer]) = stageOf uid thread log := by
  rw [stageOf, System.ownCalls_append, System.ownCalls_did_other different, List.append_nil]
  rfl

theorem stageOf_own :
    stageOf uid caller (log ++ [.did caller op answer]) =
      match (gateCall op answer).bind (GateCall.at uid) with
      | some step => (stageOf uid caller log).next deployment.settings step
      | none => stageOf uid caller log := by
  rw [stageOf, System.ownCalls_append, System.ownCalls_did, refreshStage_call]
  rfl

/-- A mark is an old one of the task, or the call that was just made. -/
theorem marked_snoc {now : Nat} (member : ⟨some uid, .marked now⟩ ∈
      System.ownCalls gateCall thread (log ++ [.did caller op answer])) :
    ⟨some uid, .marked now⟩ ∈ System.ownCalls gateCall thread log ∨
      (gateCall op answer).bind (GateCall.at uid) = some (.marked now) := by
  rw [System.ownCalls_append] at member
  rcases List.mem_append.mp member with old | last
  · exact Or.inl old
  · refine Or.inr ?_
    by_cases same : caller = thread
    · subst same
      rw [System.ownCalls_did] at last
      rw [Option.mem_toList.mp last]
      exact if_pos (decide_eq_true rfl)
    · rw [System.ownCalls_did_other same] at last
      exact absurd last List.not_mem_nil

variable {last : Option Nat}

/-- A call that notes no time keeps what the refreshes know. -/
theorem Paced.unmarked (paced : Paced uid last log)
    (silent : ∀ now, (gateCall op answer).bind (GateCall.at uid) ≠ some (.marked now))
    (reads : ∀ context, (gateCall op answer).bind (GateCall.at uid) = some (.read context) →
      context.lastParentJobAt = last)
    (clock : ∀ now, (gateCall op answer).bind (GateCall.at uid) = some (.clock now) →
      ReadTime (log ++ [.did caller op answer]) now ∧
        ∀ earlier, ReadTime log earlier → earlier ≤ now) :
    Paced uid last (log ++ [.did caller op answer]) := by
  have own : ∀ {thread stage}, stageOf uid thread (log ++ [.did caller op answer]) = stage →
      stageOf uid thread log = stage ∨ ∃ step,
        (gateCall op answer).bind (GateCall.at uid) = some step ∧
          (stageOf uid thread log).next deployment.settings step = stage := by
    intro thread stage reached
    by_cases same : caller = thread
    · subst same
      rw [stageOf_own] at reached
      revert reached
      cases (gateCall op answer).bind (GateCall.at uid) with
      | none => exact fun reached => Or.inl reached
      | some step => exact fun reached => Or.inr ⟨step, rfl, reached⟩
    · rw [stageOf_other same] at reached
      exact Or.inl reached
  refine ⟨?_, ?_, ?_, ?_, ?_⟩
  · intro sent known
    exact (paced.noted sent known).mono _
  · intro thread interval sentAt reached
    rcases own reached with still | ⟨step, moved, reached⟩
    · exact paced.looked thread interval sentAt still
    · rcases RefreshStage.of_next_looked reached with still | ⟨context, rfl, same⟩
      · exact paced.looked thread interval sentAt still
      · exact (reads context moved).symm.trans same
  · intro thread interval now reached
    have kept : stageOf uid thread log = .cleared interval now →
        ReadTime (log ++ [.did caller op answer]) now ∧
          ∀ sent, last = some sent → sent + interval ≤ now := by
      intro still
      obtain ⟨read, spaced⟩ := paced.cleared thread interval now still
      exact ⟨read.mono _, spaced⟩
    rcases own reached with still | ⟨step, moved, reached⟩
    · exact kept still
    · rcases RefreshStage.of_next_cleared reached with still | ⟨rfl, sentAt, looked, free⟩
      · exact kept still
      · obtain ⟨read, latest⟩ := clock now moved
        refine ⟨read, fun sent known => ?_⟩
        have spaced := free sent ((paced.looked thread interval sentAt looked).symm.trans known)
        have earlier := latest sent (paced.noted sent known)
        omega
  · intro thread now reached
    have kept : stageOf uid thread log = .timed now →
        ReadTime (log ++ [.did caller op answer]) now ∧ ∀ sent, last = some sent → sent ≤ now := by
      intro still
      obtain ⟨read, later⟩ := paced.timed thread now still
      exact ⟨read.mono _, later⟩
    rcases own reached with still | ⟨step, moved, reached⟩
    · exact kept still
    · rcases RefreshStage.of_next_timed reached with still | rfl
      · exact kept still
      · obtain ⟨read, latest⟩ := clock now moved
        exact ⟨read, fun sent known => latest sent (paced.noted sent known)⟩
  · intro thread now member
    rcases marked_snoc member with old | isNew
    · exact paced.marked thread now old
    · exact absurd isNew (silent now)

/-- The refresh that has the permit notes the time of its job. -/
theorem Paced.mark (paced : Paced uid last log) {now : Nat}
    (marks : (gateCall op answer).bind (GateCall.at uid) = some (.marked now))
    (timed : stageOf uid caller log = .timed now)
    (alone : ∀ thread, (stageOf uid thread log).Held → thread = caller) :
    Paced uid (some now) (log ++ [.did caller op answer]) := by
  obtain ⟨read, later⟩ := paced.timed caller now timed
  have settled : stageOf uid caller (log ++ [.did caller op answer]) = .settled := by
    rw [stageOf_own, marks, timed]
    rfl
  -- Nobody else is past the gate.
  have outside : ∀ {thread stage}, stageOf uid thread (log ++ [.did caller op answer]) = stage →
      stage.Held → stage = .settled := by
    intro thread stage reached held
    by_cases same : caller = thread
    · exact reached.symm.trans (same ▸ settled)
    · rw [stageOf_other same] at reached
      exact absurd (alone thread (reached ▸ held)).symm same
  refine ⟨?_, ?_, ?_, ?_, ?_⟩
  · intro sent known
    cases known
    exact read.mono _
  · exact fun thread interval sentAt reached => nomatch outside reached trivial
  · exact fun thread interval time reached => nomatch outside reached trivial
  · exact fun thread time reached => nomatch outside reached trivial
  · intro thread time member
    refine ⟨now, rfl, ?_⟩
    rcases marked_snoc member with old | isNew
    · obtain ⟨sent, known, before⟩ := paced.marked thread time old
      exact before.trans (later sent known)
    · cases marks.symm.trans isNew
      exact Nat.le_refl now

end Step

/-- The time of the last parent-only job after an operation. -/
theorem lastParentJobAt_gates {state after : BridgeState} {env : Env} {op : BridgeOp}
    {answer : op.Answer} {uid : Nat} {moved : Option GateStep}
    (performed : performOp state env op = some (answer, after)) (gate : Gates uid op answer moved) :
    (after.contexts uid).lastParentJobAt =
      match moved with
      | some (.marked now) => some now
      | _ => (state.contexts uid).lastParentJobAt := by
  refine (performOp_lastParentJobAt performed).trans ?_
  cases gate with
  | marked | read | acquired | released => exact if_pos rfl
  | clock | sent => rfl
  | other op answer silent =>
      cases op with
      | context other op =>
          by_cases same : other = uid
          · subst same
            refine (if_pos rfl).trans ?_
            cases op with
            | markParentJobSent now =>
                have marks : GateCall.at other ⟨some other, .marked now⟩ = some (.marked now) :=
                  if_pos (decide_eq_true rfl)
                exact absurd (marks.symm.trans silent) nofun
            | _ => rfl
          · exact if_neg same
      | _ => rfl

/-- **Every call keeps what the refreshes know.** -/
theorem Paced.call {state after : BridgeState} {env : Env} {log : Record deployment}
    {uid caller : Nat} {op : BridgeOp} {answer : op.Answer} {request : BridgeRequest}
    (paced : Paced uid (state.contexts uid).lastParentJobAt log)
    (performed : performOp state env op = some (answer, after))
    (permitted : RefreshPermits deployment.settings request (System.ownCalls gateCall caller log) op)
    (alone : ∀ thread other, (stageOf uid thread log).Held → (stageOf uid other log).Held →
      thread = other)
    (clock : ∀ now, ReadTime log now → now ≤ env.now) :
    Paced uid (after.contexts uid).lastParentJobAt (log ++ [.did caller op answer]) := by
  have gate := gates uid op answer
  generalize moved : (gateCall op answer).bind (GateCall.at uid) = step at gate
  rw [lastParentJobAt_gates performed gate]
  cases gate with
  | marked now =>
      have timed : stageOf uid caller log = .timed now := permitted.2
      refine paced.mark moved timed fun thread held => alone thread caller held ?_
      rw [timed]
      exact trivial
  | read context =>
      have same : context = state.contexts uid :=
        (Prod.ext_iff.mp (Option.some.inj (performOp_context_act performed))).1.symm
      refine paced.unmarked (fun now marks => nomatch moved.symm.trans marks) ?_
        fun now reads => nomatch moved.symm.trans reads
      intro known reads
      cases moved.symm.trans reads
      rw [same]
  | clock now =>
      refine paced.unmarked (fun now marks => nomatch moved.symm.trans marks)
        (fun context reads => nomatch moved.symm.trans reads) ?_
      intro time reads
      cases moved.symm.trans reads
      have current : env.now = now := (Prod.ext_iff.mp (Option.some.inj performed)).1
      refine ⟨⟨caller, List.mem_append_right _ List.mem_cons_self⟩, fun earlier read => ?_⟩
      exact (clock earlier read).trans_eq current
  | acquired | released | sent | other =>
      exact paced.unmarked (fun now marks => nomatch moved.symm.trans marks)
        (fun context reads => nomatch moved.symm.trans reads)
        fun now reads => nomatch moved.symm.trans reads

/-! ## Runs -/

/-- A reading of the clock. -/
def clockRead : (op : BridgeOp) → op.Answer → Option Nat
  | .now, now => some now
  | _, _ => none

theorem clockRead_time (op : BridgeOp) (state : BridgeState) (env : Env) (answer : op.Answer)
    (after : BridgeState) (now : Nat) (performed : performOp state env op = some (answer, after))
    (reading : clockRead op answer = some now) : env.now = now := by
  cases op with
  | now => exact (Prod.ext_iff.mp (Option.some.inj performed)).1.trans (Option.some.inj reading)
  | _ => exact nomatch reading

/-- An entry that is no call changes nothing at the gates. -/
theorem Paced.silent {uid : Nat} {last : Option Nat} {log : Record deployment}
    {entry : (bridge deployment).Entry} (paced : Paced uid last log)
    (silent : ∀ thread, System.ownCalls gateCall thread [entry] = []) :
    Paced uid last (log ++ [entry]) := by
  have same : ∀ thread, System.ownCalls gateCall thread (log ++ [entry]) =
      System.ownCalls gateCall thread log := by
    intro thread
    rw [System.ownCalls_append, silent, List.append_nil]
  have stages : ∀ thread, stageOf uid thread (log ++ [entry]) = stageOf uid thread log := by
    intro thread
    rw [stageOf, same]
    rfl
  refine ⟨fun sent known => (paced.noted sent known).mono _, ?_, ?_, ?_, ?_⟩
  · intro thread interval sentAt reached
    exact paced.looked thread interval sentAt ((stages thread).symm.trans reached)
  · intro thread interval now reached
    obtain ⟨read, spaced⟩ := paced.cleared thread interval now ((stages thread).symm.trans reached)
    exact ⟨read.mono _, spaced⟩
  · intro thread now reached
    obtain ⟨read, later⟩ := paced.timed thread now ((stages thread).symm.trans reached)
    exact ⟨read.mono _, later⟩
  · intro thread now member
    exact paced.marked thread now (same thread ▸ member)

/-- **The refreshes of every run know the time of the last parent-only job.** -/
theorem paced_execute {uid : Nat} (unsent : (deployment.contexts uid).lastParentJobAt = none)
    {events : List (bridge deployment).Event}
    (onward : @System.Onward (bridge deployment) Env.now events) :
    Paced uid ((System.execute events).state.contexts uid).lastParentJobAt
      (System.execute events).log := by
  induction events using List.reverseRecOn with
  | nil =>
      change Paced uid (deployment.contexts uid).lastParentJobAt []
      rw [unsent]
      refine ⟨nofun, ?_, ?_, ?_, ?_⟩
      · exact fun thread interval sentAt reached => nomatch reached
      · exact fun thread interval now reached => nomatch reached
      · exact fun thread now reached => nomatch reached
      · exact fun thread now member => nomatch member
  | append_singleton events event ih =>
      have paced := ih onward.of_append
      have explained := refreshes_execute (events ++ [event])
      rw [System.execute_snoc] at explained ⊢
      have step := System.advance_cases (System.execute events) event
      generalize (System.execute events).advance event = config at explained step
      cases step with
      | stutter => exact paced
      | start request => exact paced.silent fun thread => rfl
      | finish thread env result running => exact paced.silent fun thread => rfl
      | call caller env op next answer state running performed =>
          obtain ⟨request, -, permitted⟩ := explained.calls _ caller op answer [] rfl
          have here : (System.execute events).log = (System.execute events).log ++ [] :=
            (List.append_nil _).symm
          refine paced.call performed permitted ?_ ?_
          · intro thread other first second
            exact refreshing_unique here ((refreshing_iff here uid thread).mpr first)
              ((refreshing_iff here uid other).mpr second)
          · rintro now ⟨thread, member⟩
            exact @System.reading_le (bridge deployment) Env.now events [] thread caller env .now now
              clockRead clockRead_time onward now member rfl

/-! ## From a delivered job to its mark -/

section Sent

variable {settings : Settings}

/-- A job was delivered and its time is not noted. -/
def RefreshStage.Pending : RefreshStage → Prop
  | .sent | .timed _ => True
  | _ => False

/-- The refresh has had its say. -/
def RefreshStage.Spent : RefreshStage → Prop
  | .sent | .timed _ | .settled | .left => True
  | _ => False

theorem RefreshStage.Pending.next {stage : RefreshStage} (pending : stage.Pending) {step : GateStep}
    (unmarked : ∀ now, step ≠ .marked now) : (stage.next settings step).Pending := by
  unfold RefreshStage.next
  split
  · exact pending
  · exact pending
  · exact pending
  · exact pending.elim
  · exact pending.elim
  · exact trivial
  · exact absurd rfl (unmarked _)
  · exact pending
  · exact pending
  · exact pending
  · exact pending

theorem RefreshStage.Spent.next {stage : RefreshStage} (spent : stage.Spent) (step : GateStep) :
    (stage.next settings step).Spent := by
  unfold RefreshStage.next
  split
  · exact spent
  · exact spent
  · exact spent
  · exact spent.elim
  · exact spent.elim
  · exact trivial
  · exact trivial
  · exact trivial
  · exact trivial
  · exact trivial
  · exact spent

theorem spent_foldl (steps : List GateStep) :
    (steps.foldl (RefreshStage.next settings) .sent).Spent := by
  induction steps using List.reverseRecOn with
  | nil => exact trivial
  | append_singleton steps step ih =>
      rw [List.foldl_append]
      exact ih.next step

theorem pending_foldl {steps : List GateStep} (unmarked : ∀ now, .marked now ∉ steps) :
    (steps.foldl (RefreshStage.next settings) .sent).Pending := by
  induction steps using List.reverseRecOn with
  | nil => exact trivial
  | append_singleton steps step ih =>
      rw [List.foldl_append]
      refine (ih fun now member => unmarked now (List.mem_append_left _ member)).next ?_
      rintro now rfl
      exact unmarked now (List.mem_append_right _ List.mem_cons_self)

theorem clock_of_timed {steps : List GateStep} {now : Nat}
    (timed : steps.foldl (RefreshStage.next settings) .sent = .timed now) : .clock now ∈ steps := by
  induction steps using List.reverseRecOn with
  | nil => exact nomatch timed
  | append_singleton steps step ih =>
      rw [List.foldl_append] at timed
      rcases RefreshStage.of_next_timed timed with still | rfl
      · exact List.mem_append_left _ (ih still)
      · exact List.mem_append_right _ List.mem_cons_self

end Sent

/-! ## The interval in force -/

/-- A reading of the connection. -/
def contextRead (uid : Nat) : (op : BridgeOp) → op.Answer → Option Context
  | .context other .read, context => if other = uid then some context else none
  | _, _ => none

/-- The interval a refresh has in force: that of the user agent it read first. -/
def intervalInForce (uid thread : Nat) (log : Record deployment) : Nat :=
  parentJobInterval deployment.settings
    (((System.ownCalls (contextRead uid) thread log).head?.map Context.remoteApp).getD [])

def GateStep.reading : GateStep → Option Context
  | .read context => some context
  | _ => none

/-- The interval a stage carries. -/
def RefreshStage.interval : RefreshStage → Option Nat
  | .asked interval | .entered interval | .looked interval _ | .cleared interval _ => some interval
  | _ => none

theorem contextRead_eq (uid : Nat) (op : BridgeOp) (answer : op.Answer) :
    contextRead uid op answer =
      ((gateCall op answer).bind (GateCall.at uid)).bind GateStep.reading := by
  have gate := gates uid op answer
  generalize moved : (gateCall op answer).bind (GateCall.at uid) = step at gate
  cases gate with
  | read => exact if_pos rfl
  | clock | acquired | released | marked | sent => rfl
  | other =>
      cases op with
      | context own op =>
          cases op with
          | read =>
              refine if_neg ?_
              rintro rfl
              have reads : GateCall.at own ⟨some own, .read answer⟩ = some (.read answer) :=
                if_pos (decide_eq_true rfl)
              exact nomatch reads.symm.trans moved
          | _ => rfl
      | _ => rfl

theorem ownCalls_contextRead (uid thread : Nat) (log : Record deployment) :
    System.ownCalls (contextRead uid) thread log =
      ((System.ownCalls gateCall thread log).filterMap (GateCall.at uid)).filterMap
        GateStep.reading := by
  have same : contextRead uid = fun op answer =>
      (gateCall op answer).bind fun call => (call.at uid).bind GateStep.reading := by
    funext op answer
    rw [contextRead_eq, Option.bind_assoc]
  rw [same, System.ownCalls_bind, List.filterMap_filterMap]

/-- The interval of a stage comes from the first reading. -/
theorem interval_foldl {settings : Settings} (steps : List GateStep) :
    (steps.foldl (RefreshStage.next settings) .fresh = .fresh →
      steps.filterMap GateStep.reading = []) ∧
    ∀ interval, (steps.foldl (RefreshStage.next settings) .fresh).interval = some interval →
      ∃ context rest, steps.filterMap GateStep.reading = context :: rest ∧
        interval = parentJobInterval settings context.remoteApp := by
  induction steps using List.reverseRecOn with
  | nil => exact ⟨fun _ => rfl, fun interval known => nomatch known⟩
  | append_singleton steps step ih =>
      obtain ⟨unread, first⟩ := ih
      rw [List.foldl_append, List.filterMap_append]
      change ((steps.foldl (RefreshStage.next settings) .fresh).next settings step = _ → _) ∧ _
      have kept : ∀ interval,
          (steps.foldl (RefreshStage.next settings) .fresh).interval = some interval →
          ∃ context rest, steps.filterMap GateStep.reading ++ [step].filterMap GateStep.reading =
            context :: rest ∧ interval = parentJobInterval settings context.remoteApp := by
        intro interval known
        obtain ⟨context, rest, reads, same⟩ := first interval known
        exact ⟨context, rest ++ [step].filterMap GateStep.reading, by rw [reads]; rfl, same⟩
      change (_ → _) ∧ ∀ interval,
        ((steps.foldl (RefreshStage.next settings) .fresh).next settings step).interval =
          some interval → _
      revert unread kept
      generalize steps.foldl (RefreshStage.next settings) .fresh = stage
      intro unread kept
      unfold RefreshStage.next
      split
      · next context =>
          refine ⟨nofun, ?_⟩
          rintro interval ⟨⟩
          rw [unread rfl]
          exact ⟨context, [], rfl, rfl⟩
      · exact ⟨nofun, kept⟩
      · exact ⟨nofun, kept⟩
      · split
        · exact ⟨nofun, nofun⟩
        · exact ⟨nofun, kept⟩
      · split
        · exact ⟨nofun, nofun⟩
        · exact ⟨nofun, nofun⟩
      · exact ⟨nofun, nofun⟩
      · exact ⟨nofun, nofun⟩
      · exact ⟨nofun, nofun⟩
      · exact ⟨nofun, nofun⟩
      · exact ⟨nofun, nofun⟩
      · next notRead _ _ _ _ _ _ _ _ _ =>
          refine ⟨?_, kept⟩
          rintro rfl
          rw [unread rfl, List.nil_append]
          cases step with
          | read context => exact absurd rfl (notRead context rfl)
          | _ => rfl

/-- A cleared refresh cleared the interval in force. -/
theorem interval_of_cleared {uid thread interval now : Nat} {log : Record deployment}
    (cleared : stageOf uid thread log = .cleared interval now) :
    interval = intervalInForce uid thread log := by
  have known : (stageOf uid thread log).interval = some interval := by
    rw [cleared]
    rfl
  obtain ⟨context, rest, reads, same⟩ := (interval_foldl _).2 interval known
  rw [intervalInForce, ownCalls_contextRead, reads]
  exact same

/-! ## The gate -/

/-- In this configuration the next step of the task delivers a parent-only job of the
connection. -/
def DeliversParent (uid thread : Nat) (env : Env) (config : (bridge deployment).Config) : Prop :=
  .started thread (.newParent uid) ∈ config.log ∧ ∃ jobId params minimal next after,
    config.running thread = some (.call (.send uid (.notify jobId params minimal)) next) ∧
      performOp config.state env (.send uid (.notify jobId params minimal)) = some (true, after)

section Publication

variable {uid thread : Nat} {env : Env} {events : List (bridge deployment).Event}

/-- A delivered job is recorded, and its refresh was cleared. -/
theorem DeliversParent.recorded (publishes : DeliversParent uid thread env (System.execute events)) :
    (∃ jobId params minimal, (System.execute (events ++ [.step thread env])).log =
      (System.execute events).log ++ [.did thread (.send uid (.notify jobId params minimal)) true]) ∧
    ∃ interval now, stageOf uid thread (System.execute events).log = .cleared interval now := by
  obtain ⟨started, jobId, params, minimal, next, after, running, performed⟩ := publishes
  have grown : (System.execute (events ++ [.step thread env])).log =
      (System.execute events).log ++
        [.did thread (.send uid (.notify jobId params minimal)) true] := by
    rw [System.execute_snoc]
    simp only [System.Config.advance, System.Config.step, running, performed]
  refine ⟨⟨jobId, params, minimal, grown⟩, ?_⟩
  obtain ⟨request, serves, permitted⟩ :=
    (refreshes_execute (events ++ [System.Event.step thread env])).calls _ thread _ _ [] grown
  obtain rfl := System.started_unique serves started
  exact (permitted uid rfl).2

/-- The stage of a task after more of the run. -/
theorem stageOf_append (log added : Record deployment) :
    stageOf uid thread (log ++ added) =
      ((System.ownCalls gateCall thread added).filterMap (GateCall.at uid)).foldl
        (RefreshStage.next deployment.settings) (stageOf uid thread log) := by
  rw [stageOf, System.ownCalls_append, refreshStage_append]
  rfl

/-- After its job was delivered a refresh is spent. -/
theorem DeliversParent.stage (publishes : DeliversParent uid thread env (System.execute events)) :
    stageOf uid thread (System.execute (events ++ [.step thread env])).log = .sent := by
  obtain ⟨⟨jobId, params, minimal, grown⟩, interval, now, cleared⟩ := publishes.recorded
  have own : GateCall.at uid ⟨some uid, .sent true⟩ = some (.sent true) :=
    if_pos (decide_eq_true rfl)
  rw [grown, stageOf_own, cleared]
  simp only [gateCall, Option.bind_some, own]
  rfl

/-- Once its refresh gave the permit back, a delivered job is noted, at a time no earlier than
that of its delivery. -/
theorem DeliversParent.noted {back : List (bridge deployment).Event}
    (publishes : DeliversParent uid thread env (System.execute events))
    (unsent : (deployment.contexts uid).lastParentJobAt = none)
    (onward : @System.Onward (bridge deployment) Env.now ((events ++ [.step thread env]) ++ back))
    (free : ¬Refreshing uid thread (System.execute ((events ++ [.step thread env]) ++ back)).log) :
    ∃ sent, ((@System.execute (bridge deployment)
      ((events ++ [.step thread env]) ++ back)).state.contexts uid).lastParentJobAt = some sent ∧
        env.now ≤ sent := by
  have paced := paced_execute unsent onward
  have explained := refreshes_execute ((events ++ [.step thread env]) ++ back)
  have here := (List.append_nil (System.execute ((events ++ [.step thread env]) ++ back)).log).symm
  have outside := mt (refreshing_iff here uid thread).mpr free
  obtain ⟨added, grown⟩ := System.log_grows (events ++ [.step thread env]) back
  have reached := @stageOf_append _ deployment uid thread
    (System.execute (events ++ [.step thread env])).log added
  rw [publishes.stage, grown] at reached
  have isMarked : ∃ now, .marked now ∈
      (System.ownCalls gateCall thread added).filterMap (GateCall.at uid) := by
    by_contra unmarked
    have pending := @pending_foldl _ deployment.settings _ fun now member => unmarked ⟨now, member⟩
    rw [← reached] at pending
    refine outside ?_
    revert pending
    cases stageOf uid thread (System.execute ((events ++ [.step thread env]) ++ back)).log with
    | sent | timed => exact fun _ => trivial
    | _ => exact False.elim
  obtain ⟨now, marked⟩ := isMarked
  obtain ⟨call, inAdded, atGate⟩ := List.mem_filterMap.mp marked
  obtain ⟨op, answer, made, chosen⟩ := System.mem_ownCalls.mp inAdded
  have gate := gates uid op answer
  rw [chosen, Option.bind_some, atGate] at gate
  cases gate with
  | marked =>
      obtain ⟨first, rest, split⟩ := List.append_of_mem made
      -- The mark was permitted for the time read since the delivery.
      obtain ⟨request, -, permitted⟩ := explained.calls
        ((System.execute (events ++ [.step thread env])).log ++ first) thread _ _ rest
        (by rw [← grown, split, List.append_assoc])
      have timed : stageOf uid thread ((System.execute (events ++ [.step thread env])).log ++ first) =
          .timed now := permitted.2
      rw [stageOf_append, publishes.stage] at timed
      obtain ⟨reading, inFirst, readsClock⟩ := List.mem_filterMap.mp (clock_of_timed timed)
      obtain ⟨clockOp, time, read, chosenClock⟩ := System.mem_ownCalls.mp inFirst
      have clockGate := gates uid clockOp time
      rw [chosenClock, Option.bind_some, readsClock] at clockGate
      cases clockGate with
      | clock =>
          have inAll : .did thread .now now ∈ added :=
            split ▸ List.mem_append_left _ read
          have late : env.now ≤ now := @System.le_reading (bridge deployment) Env.now
            (events ++ [.step thread env]) back added thread thread env .now now clockRead
            clockRead_time onward (List.mem_append_right _ List.mem_cons_self) grown.symm inAll now
            rfl
          have recorded : ⟨some uid, .marked now⟩ ∈ System.ownCalls gateCall thread
              (System.execute ((events ++ [.step thread env]) ++ back)).log := by
            refine System.mem_ownCalls.mpr ⟨.context uid (.markParentJobSent now), (), ?_, rfl⟩
            rw [← grown]
            exact List.mem_append_right _ made
          obtain ⟨sent, known, later⟩ := paced.marked thread now recorded
          exact ⟨sent, known, late.trans later⟩

end Publication

/-- **The gate of parent refreshes.** In every run of the bridge one refresh of a connection at
most has the permit, the gate is taken only while some task has it, and a task that ended does
not. Between two parent-only jobs of the connection lies at least the interval that the later
refresh had in force. -/
theorem parent_refresh_gated {uid : Nat}
    (free : (deployment.contexts uid).parentRefreshHeld = false)
    (unsent : (deployment.contexts uid).lastParentJobAt = none)
    {events : List (bridge deployment).Event}
    (onward : @System.Onward (bridge deployment) Env.now events) :
    (∀ front back, (System.execute events).log = front ++ back → ∀ first second,
      Refreshing uid first front → Refreshing uid second front → first = second) ∧
    (((System.execute events).state.contexts uid).parentRefreshHeld = true ↔
      ∃ thread, Refreshing uid thread (System.execute events).log) ∧
    (∀ thread result, .finished thread result ∈ (System.execute events).log →
      ¬Refreshing uid thread (System.execute events).log) ∧
    ∀ before first env between second later rest,
      events = before ++ .step first env :: (between ++ .step second later :: rest) →
      DeliversParent uid first env (System.execute before) →
      DeliversParent uid second later (System.execute (before ++ .step first env :: between)) →
        env.now + intervalInForce uid second
          (System.execute (before ++ .step first env :: between)).log ≤ later.now := by
  refine ⟨fun front back split first second => refreshing_unique split, ⟨?_, ?_⟩, ?_, ?_⟩
  · intro busy
    refine (refreshLock uid).exists_holder ?_ free busy
    intro op state env answer after performed released
    refine (performOp_parentRefreshHeld performed).trans ?_
    cases op with
    | context other op =>
        cases op with
        | releaseParentRefresh =>
            exact if_pos (Option.ite_none_right_eq_some.mp released).1
        | acquireParentRefresh =>
            cases answer with
            | false => cases released
            | true => cases (Option.ite_none_right_eq_some.mp released).2
        | _ => cases released
    | _ => cases released
  · rintro ⟨thread, refreshing⟩
    exact ((refreshLock uid).exclusive events (refreshLock_disciplined uid events)).2 thread
      refreshing
  · intro thread result ended refreshing
    obtain ⟨front, back, split⟩ := List.append_of_mem ended
    obtain ⟨request, started, completes⟩ := (refreshes_execute events).finishes front thread result
      back split
    have earlier : Refreshing uid thread front := by
      rw [Refreshing, System.Holds, System.ownCalls_of_finished split] at refreshing
      exact refreshing
    -- Only the refresh of the connection takes the permit.
    obtain ⟨op, answer, made, turned⟩ := System.mem_ownCalls.mp (List.mem_of_getLast? earlier)
    obtain ⟨before, after, whole⟩ := List.append_of_mem made
    obtain ⟨other, serves, permitted⟩ := (refreshes_execute events).calls before thread op answer
      (after ++ .finished thread result :: back)
      (by rw [split, whole, List.append_assoc, List.cons_append])
    have own : other = .newParent uid := by
      cases op with
      | context session op =>
          cases op with
          | acquireParentRefresh =>
              cases (answer : Bool) with
              | false => cases turned
              | true =>
                  obtain ⟨rfl, -⟩ := Option.ite_none_right_eq_some.mp turned
                  exact permitted.1
          | releaseParentRefresh => cases (Option.ite_none_right_eq_some.mp turned).2
          | _ => cases turned
      | _ => cases turned
    have started : .started thread request ∈ (System.execute events).log :=
      split ▸ List.mem_append_left _ started
    have serves : .started thread other ∈ (System.execute events).log := by
      rw [split, whole]
      exact List.mem_append_left _ (List.mem_append_left _ serves)
    exact completes uid ((System.started_unique started serves).trans own)
      ((refreshing_iff split uid thread).mp earlier)
  · intro before first env between second later rest split published publishes
    have regrouped : before ++ .step first env :: between =
        (before ++ [.step first env]) ++ between := by
      rw [List.append_assoc, List.singleton_append]
    rw [regrouped] at publishes ⊢
    have whole : events = ((before ++ [.step first env]) ++ between) ++ .step second later :: rest := by
      rw [split, ← regrouped, List.append_assoc, List.cons_append]
    rw [whole] at onward
    obtain ⟨-, interval, now, cleared⟩ := publishes.recorded
    have here := (List.append_nil (System.execute ((before ++ [.step first env]) ++ between)).log).symm
    have refreshing : Refreshing uid second
        (System.execute ((before ++ [.step first env]) ++ between)).log := by
      refine (refreshing_iff here uid second).mpr ?_
      rw [cleared]
      exact trivial
    have ended : ¬Refreshing uid first
        (System.execute ((before ++ [.step first env]) ++ between)).log := by
      intro busy
      obtain rfl := refreshing_unique here busy refreshing
      obtain ⟨added, grown⟩ := System.log_grows (before ++ [.step first env]) between
      have spent := @spent_foldl _ deployment.settings
        ((System.ownCalls gateCall first added).filterMap (GateCall.at uid))
      rw [← published.stage, ← stageOf_append, grown, cleared] at spent
      exact spent
    obtain ⟨sent, known, noted⟩ := published.noted unsent onward.of_append ended
    obtain ⟨⟨reader, read⟩, spaced⟩ :=
      (paced_execute unsent onward.of_append).cleared second interval now cleared
    have current : now ≤ later.now := @System.reading_le (bridge deployment) Env.now _ rest reader
      second later .now now clockRead clockRead_time onward now read rfl
    have elapsed := spaced sent known
    rw [← interval_of_cleared cleared]
    omega

end Model

section Sample

attribute [local instance] Sample.platform

/-- Parent-only jobs at least five milliseconds apart. -/
@[reducible] def spacedDeployment : Deployment :=
  { Sample.deployment none with
    settings := { Sample.settings with commonParentJobInterval := 5 } }

/-- A task makes the given number of calls at one time. -/
def spacedSteps (thread count now : Nat) (template : TemplateReply) :
    List (bridge spacedDeployment).Event :=
  List.replicate count (.step thread { now, template })

/-- A job is published and its parent refreshed twice; a third refresh overlaps the second. -/
def spacedRefreshes : List (bridge spacedDeployment).Event :=
  [.start (.immediateJob 1)] ++ spacedSteps 0 18 1 (.block Sample.easyBlock)
    ++ spacedSteps 0 40 2 (.block Sample.easyParent)
    ++ [.start (.newParent 1)] ++ spacedSteps 1 40 3 (.block Sample.easyParent)
    ++ [.start (.newParent 1), .start (.newParent 1)]
    ++ spacedSteps 2 6 9 (.block Sample.easyParent)
    ++ spacedSteps 3 10 9 (.block Sample.easyParent)
    ++ spacedSteps 2 40 10 (.block Sample.easyParent)

/-- The second job was noted at ten, and nobody has the permit any more. -/
theorem parent_refresh_gated_sample :
    ((System.execute spacedRefreshes).state.contexts 1).lastParentJobAt = some 10 ∧
      ∀ thread, ¬Refreshing 1 thread (System.execute spacedRefreshes).log := by
  have onward : @System.Onward (bridge spacedDeployment) Env.now spacedRefreshes := by
    unfold System.Onward
    decide +kernel
  have free : ((System.execute spacedRefreshes).state.contexts 1).parentRefreshHeld = false := by
    decide +kernel
  refine ⟨by decide +kernel, fun thread refreshing => ?_⟩
  have taken := (parent_refresh_gated rfl rfl onward).2.1.mpr ⟨thread, refreshing⟩
  exact absurd (free.symm.trans taken) Bool.false_ne_true

end Sample

end StratumBridge
