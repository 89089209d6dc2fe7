import StratumBridge.Interaction.Balance

/-! # The trace of one task

A finished task made some calls and got some answers; its program, its calls and its result
belong together. What a protocol says of a program holds of every trace whose answers are
reliable, whether or not the answers other tasks got are.
-/

namespace Interaction

variable {sig : Signature} {α β : Type}

/-- The program makes these calls, gets these answers and finishes with the value. -/
def Program.Runs : Program sig α → List ((op : sig.Op) × sig.Answer op) → α → Prop
  | .done result, trace, value => trace = [] ∧ result = value
  | .call op next, trace, value =>
      ∃ answer rest, trace = ⟨op, answer⟩ :: rest ∧ Runs (next answer) rest value

namespace Protocol

variable {ρ κ : Type} {protocol : Protocol sig ρ κ α} {request : ρ}

/-- The calls of a trace that a protocol records. -/
def recorded (protocol : Protocol sig ρ κ α) (trace : List ((op : sig.Op) × sig.Answer op)) :
    List κ :=
  trace.filterMap fun call => protocol.select call.1 call.2

/-- **Trace rule.** A trace with reliable answers reaches the postcondition. -/
theorem Obeys.of_runs {program : Program sig β} {post : List κ → β → Prop} {calls : List κ}
    (obeys : protocol.Obeys request calls program post)
    {trace : List ((op : sig.Op) × sig.Answer op)} {value : β} (runs : program.Runs trace value)
    (reliable : ∀ call ∈ trace, protocol.answers call.1 call.2) :
    post (calls ++ protocol.recorded trace) value := by
  induction program generalizing calls trace with
  | done result =>
      obtain ⟨rfl, rfl⟩ := runs
      exact (List.append_nil calls).symm ▸ obeys
  | call op next ih =>
      obtain ⟨answer, rest, rfl, runs⟩ := runs
      have holds := ih answer (obeys.2 answer (reliable _ List.mem_cons_self)) runs
        fun call member => reliable call (List.mem_cons_of_mem _ member)
      have first : protocol.recorded (⟨op, answer⟩ :: rest) =
          (protocol.select op answer).toList ++ protocol.recorded rest := by
        unfold recorded
        cases chosen : protocol.select op answer with
        | none => exact List.filterMap_cons_none chosen
        | some item => exact List.filterMap_cons_some chosen
      rw [first, ← List.append_assoc]
      exact holds

end Protocol

namespace System

variable {sys : System}

/-- Every call with its answer. -/
def anyCall (op : sys.sig.Op) (answer : sys.sig.Answer op) :
    Option ((op : sys.sig.Op) × sys.sig.Answer op) := some ⟨op, answer⟩

/-- Tasks leave traces of their programs. -/
@[reducible] def traces (sys : System) :
    Protocol sys.sig sys.Request ((op : sys.sig.Op) × sys.sig.Answer op) sys.Result where
  select := anyCall
  permits := fun _ _ _ => True
  answers := fun _ _ => True
  completes := fun request calls result => (sys.program request).Runs calls result

theorem obeys_traces {request : sys.Request} (program : Program sys.sig β)
    (calls : List ((op : sys.sig.Op) × sys.sig.Answer op)) :
    (traces sys).Obeys request calls program fun after result =>
      ∃ added, after = calls ++ added ∧ program.Runs added result := by
  induction program generalizing calls with
  | done result => exact Protocol.obeys_done ⟨[], (List.append_nil calls).symm, rfl, rfl⟩
  | call op next ih =>
      refine ⟨trivial, fun answer _ => (ih answer _).mono ?_⟩
      rintro _ result ⟨added, rfl, runs⟩
      exact ⟨⟨op, answer⟩ :: added, List.append_assoc .., answer, added, rfl, runs⟩

variable {events : List sys.Event} {thread : Nat} {request : sys.Request} {result : sys.Result}

/-- The calls of a finished task are a trace of its program. -/
theorem runs_of_finished (started : .started thread request ∈ (execute events).log)
    (finished : .finished thread result ∈ (execute events).log) :
    (sys.program request).Runs (ownCalls anyCall thread (execute events).log) result := by
  have explained : Explained (traces sys) (execute events).log := by
    refine explained_execute (fun request => ?_) events fun _ _ _ _ => trivial
    refine (obeys_traces (sys.program request) []).mono ?_
    rintro _ result ⟨added, rfl, runs⟩
    exact runs
  obtain ⟨front, back, split⟩ := List.append_of_mem finished
  obtain ⟨served, begun, completes⟩ := explained.finishes front thread result back split
  obtain rfl := started_unique started (split ▸ List.mem_append_left _ begun)
  rw [ownCalls_of_finished split]
  exact completes

/-- **Task rule.** A finished task whose program obeys a protocol reaches its postcondition, if
the answers that this task got are reliable. -/
theorem obeyed_of_finished {κ : Type} {protocol : Protocol sys.sig sys.Request κ sys.Result}
    {post : List κ → sys.Result → Prop}
    (obeys : protocol.Obeys request [] (sys.program request) post)
    (started : .started thread request ∈ (execute events).log)
    (finished : .finished thread result ∈ (execute events).log)
    (reliable : ∀ op answer, .did thread op answer ∈ (execute events).log →
      protocol.answers op answer) :
    post (ownCalls protocol.select thread (execute events).log) result := by
  have own : protocol.recorded (ownCalls anyCall thread (execute events).log) =
      ownCalls protocol.select thread (execute events).log :=
    (ownCalls_bind (fun call : (op : sys.sig.Op) × sys.sig.Answer op =>
      protocol.select call.1 call.2) _).symm
  rw [← own]
  refine obeys.of_runs (runs_of_finished started finished) ?_
  rintro ⟨op, answer⟩ member
  obtain ⟨made, reply, inLog, chosen⟩ := mem_ownCalls.mp member
  cases chosen
  exact reliable op answer inLog

end System

end Interaction
