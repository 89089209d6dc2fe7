import StratumBridge.Bridge.Stores
import StratumBridge.Interaction.Contract

/-! # The rings of a run

The ring of a connection refines the log of the jobs added to it and of the difficulties
set on it, in the order of the run, as long as its counter does not wrap.
-/

namespace StratumBridge

open Interaction

variable [Platform] {deployment : Deployment}

/-- The call an operation makes on the ring of a connection. -/
def ringCall (uid : Nat) : (op : BridgeOp) → op.Answer → Option MiningState.Call
  | .ring other (.addJob job), _ => if other = uid then some (.addJob job) else none
  | .ring other (.setStratumDiff diff), _ => if other = uid then some (.setStratumDiff diff) else none
  | _, _ => none

/-- The job an operation adds to the ring of a connection. -/
def addedJob (uid : Nat) : (op : BridgeOp) → op.Answer → Option Job
  | .ring other (.addJob job), _ => if other = uid then some job else none
  | _, _ => none

/-- The jobs added to the ring of a connection, in order. -/
def addedJobs (uid : Nat) (log : List (bridge deployment).Entry) : List Job :=
  System.callsOf (addedJob uid) log

/-- The log a run leaves for the ring of a connection. -/
def ringLog (uid : Nat) (log : List (bridge deployment).Entry) : MiningState.Log :=
  MiningState.logOf (System.callsOf (ringCall uid) log)

/-- The operation behind a job of a connection. -/
theorem addedJob_eq_some {uid : Nat} {op : BridgeOp} {answer : op.Answer} {job : Job}
    (added : addedJob uid op answer = some job) : op = .ring uid (.addJob job) := by
  unfold addedJob at added
  split at added
  · obtain ⟨rfl, same⟩ := Option.ite_none_right_eq_some.mp added
    cases same
    rfl
  · exact nomatch added

namespace MiningState

/-- The jobs among the calls on a ring. -/
def Call.job? : Call → Option Job
  | .addJob job => some job
  | .setStratumDiff _ => none

theorem logOf_jobs (calls : List Call) :
    (logOf calls).entries.map Prod.fst = calls.filterMap Call.job? := by
  induction calls using List.reverseRecOn with
  | nil => rfl
  | append_singleton calls call ih =>
      rw [logOf_snoc, List.filterMap_append, ← ih]
      cases call with
      | addJob job => exact List.map_append
      | setStratumDiff diff => exact (List.append_nil _).symm

end MiningState

theorem ringLog_jobs (uid : Nat) (log : List (bridge deployment).Entry) :
    (ringLog uid log).entries.map Prod.fst = addedJobs uid log := by
  rw [ringLog, MiningState.logOf_jobs, addedJobs, System.callsOf, System.callsOf,
    List.filterMap_filterMap]
  refine congrArg (List.filterMap · log) (funext fun entry => ?_)
  cases entry with
  | did thread op answer =>
      cases op with
      | ring other op =>
          cases op with
          | addJob job =>
              by_cases same : other = uid
              · simp only [ringCall, addedJob, if_pos same, Option.bind_some, MiningState.Call.job?]
              · simp only [ringCall, addedJob, if_neg same, Option.bind_none]
          | setStratumDiff diff =>
              by_cases same : other = uid
              · simp only [ringCall, addedJob, if_pos same, Option.bind_some, MiningState.Call.job?]
              · simp only [ringCall, addedJob, if_neg same, Option.bind_none]
          | _ => rfl
      | _ => rfl
  | _ => rfl

theorem ringLog_length (uid : Nat) (log : List (bridge deployment).Entry) :
    (ringLog uid log).entries.length = (addedJobs uid log).length := by
  rw [← ringLog_jobs, List.length_map]

/-- A call on the ring of another connection, or on no ring, leaves the log of the ring. -/
theorem ringLog_snoc_of_none {uid : Nat} {log : List (bridge deployment).Entry}
    {entry : (bridge deployment).Entry} (silent : System.callsOf (ringCall uid) [entry] = []) :
    ringLog uid (log ++ [entry]) = ringLog uid log := by
  rw [ringLog, System.callsOf_append, silent, List.append_nil]
  rfl

/-- **Rings.** The ring of a connection refines its log. -/
theorem ring_refines (uid : Nat) (events : List (bridge deployment).Event)
    (room : (addedJobs uid (System.execute events).log).length < 2 ^ 64) :
    ((System.execute events).state.rings uid).Refines
      (ringLog uid (System.execute events).log) := by
  revert room
  refine System.execute_induction (fun config : (bridge deployment).Config =>
    (addedJobs uid config.log).length < 2 ^ 64 →
      (config.state.rings uid).Refines (ringLog uid config.log)) ?_ ?_ System.along_true
  · exact fun _ => MiningState.new_refines
  · intro config event after ih _ step room
    have shorter : ∀ entry : (bridge deployment).Entry,
        (addedJobs uid (config.log ++ [entry])).length < 2 ^ 64 →
          (addedJobs uid config.log).length < 2 ^ 64 := by
      intro entry bound
      rw [addedJobs, System.callsOf_append, List.length_append] at bound
      exact Nat.lt_of_le_of_lt (Nat.le_add_right _ _) bound
    cases step with
    | stutter => exact ih room
    | start request =>
        change (config.state.rings uid).Refines (ringLog uid (config.log ++ [.started _ _]))
        rw [ringLog_snoc_of_none rfl]
        exact ih (shorter _ room)
    | finish thread env result running =>
        rw [ringLog_snoc_of_none rfl]
        exact ih (shorter _ room)
    | call thread env op next answer state running performed =>
        have before := ih (shorter _ room)
        have moved := congrFun (performOp_rings performed) uid
        have silent : ringCall uid op answer = none → state.rings uid = config.state.rings uid →
            (state.rings uid).Refines (ringLog uid (config.log ++ [.did thread op answer])) := by
          intro nothing same
          have nobody : @System.callsOf (bridge deployment) _ (ringCall uid)
              [.did thread op answer] = [] := by
            rw [System.callsOf_did, nothing, Option.toList_none]
          rw [ringLog_snoc_of_none nobody, same]
          exact before
        cases op with
        | ring other op =>
            by_cases same : other = uid
            · subst same
              simp only [BridgeOp.ringsAfter, Function.update_self] at moved
              cases op with
              | addJob job =>
                  have extended : ringLog other (config.log ++ [.did thread (.ring other (.addJob job))
                      answer]) = (ringLog other config.log).append (.addJob job) := by
                    rw [ringLog, System.callsOf_append]
                    rw [System.callsOf_did, ringCall, if_pos rfl, Option.toList_some,
                      MiningState.logOf_snoc]
                    rfl
                  have bound : (ringLog other config.log).entries.length + 1 < 2 ^ 64 := by
                    have longer := ringLog_length other
                      (config.log ++ [.did thread (.ring other (.addJob job)) answer])
                    rw [← longer, extended] at room
                    simpa only [MiningState.Log.append, List.length_append,
                      List.length_singleton] using room
                  change (state.rings other).Refines (ringLog other (config.log ++ [.did _ _ _]))
                  rw [extended, moved]
                  exact before.addJob job bound
              | setStratumDiff diff =>
                  have extended : ringLog other (config.log ++
                      [.did thread (.ring other (.setStratumDiff diff)) answer]) =
                        (ringLog other config.log).append (.setStratumDiff diff) := by
                    rw [ringLog, System.callsOf_append]
                    rw [System.callsOf_did, ringCall, if_pos rfl, Option.toList_some,
                      MiningState.logOf_snoc]
                    rfl
                  change (state.rings other).Refines (ringLog other (config.log ++ [.did _ _ _]))
                  rw [extended, moved]
                  exact before.setStratumDiff diff
              | setBigDiff _ | setInitialized | setUseBigJob _ =>
                  -- The refinement relation does not speak of these fields.
                  change (state.rings other).Refines (ringLog other (config.log ++ [.did _ _ _]))
                  rw [ringLog_snoc_of_none rfl, moved]
                  exact ⟨before.counter, before.numbered, before.jobs, before.diffs, before.current⟩
              | _ => exact silent rfl moved
            · simp only [BridgeOp.ringsAfter, Function.update_of_ne (Ne.symm same)] at moved
              refine silent ?_ moved
              cases op with
              | addJob job => exact if_neg same
              | setStratumDiff diff => exact if_neg same
              | _ => rfl
        | _ => exact silent rfl moved

section Answers

variable {events : List (bridge deployment).Event} {front back : List (bridge deployment).Entry}
  {thread uid : Nat}

/-- The answer of a recorded call on a ring. -/
theorem ring_answer {op : RingOp} {answer : op.Answer}
    (split : (System.execute events).log = front ++ .did thread (.ring uid op) answer :: back)
    (room : (addedJobs uid front).length < 2 ^ 64) :
    ∃ state : MiningState, state.Refines (ringLog uid front) ∧ answer = (op.act state).1 := by
  obtain ⟨before, event, rest, -, rfl, -, env, after, performed⟩ := System.exists_calls_of_did split
  refine ⟨_, ring_refines uid before room, ?_⟩
  cases performed
  rfl

/-- A job found by number is the one added under that number. -/
theorem getJob_answer {id : Nat} {job : Job}
    (split : (System.execute events).log =
      front ++ .did thread (.ring uid (.getJob id)) (some job) :: back)
    (room : (addedJobs uid front).length < 2 ^ 64) :
    MiningState.Retained (ringLog uid front) id ∧ (addedJobs uid front)[id - 1]? = some job := by
  obtain ⟨state, refines, found⟩ := ring_answer split room
  have resolved : state.getJob id = some job := found.symm
  rw [refines.getJob] at resolved
  obtain ⟨retained, entry⟩ := Option.ite_none_right_eq_some.mp resolved
  rw [← List.getElem?_map, ringLog_jobs] at entry
  exact ⟨retained, entry⟩

/-- The largest stored number counts the jobs added. -/
theorem storedJobIds_answer {ids : List Nat} {newest : Nat}
    (split : (System.execute events).log =
      front ++ .did thread (.ring uid .storedJobIds) ids :: back)
    (room : (addedJobs uid front).length < 2 ^ 64) (maximal : ids.max? = some newest) :
    newest = (addedJobs uid front).length := by
  obtain ⟨state, refines, rfl⟩ := ring_answer split room
  obtain ⟨member, bound⟩ := List.max?_eq_some_iff.mp maximal
  have retained := (refines.mem_getStoredJobIds newest).mp member
  have nonempty : 0 < maxJobs := by decide
  have last : MiningState.Retained (ringLog uid front) (ringLog uid front).entries.length :=
    ⟨Nat.le_trans retained.1 retained.2.1, le_refl _, by omega⟩
  have below := bound _ ((refines.mem_getStoredJobIds _).mpr last)
  rw [← ringLog_length]
  exact Nat.le_antisymm retained.2.1 below

end Answers

end StratumBridge
