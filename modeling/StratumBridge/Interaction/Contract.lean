import StratumBridge.Interaction.Observation

/-! # Contracts between tasks

What a task reads from the shared state is what some task put there. A contract
states what the operations of every task must satisfy and what their answers may be
relied on for; when the answers are reliable as long as the operations so far kept
to the contract, both hold throughout every run.
-/

namespace Interaction

/-- What every operation must satisfy, and what its answer may be relied on for. -/
structure Contract (sig : Signature) where
  requires : sig.Op → Prop
  ensures : (op : sig.Op) → sig.Answer op → Prop

namespace Contract

variable {sig : Signature} {α β Origin : Type} (contract : Contract sig)

/-- The task keeps to the contract and finishes with the postcondition. -/
def Keeps : Program sig α → (α → Prop) → Prop
  | .done result, post => post result
  | .call op next, post =>
      contract.requires op ∧ ∀ answer, contract.ensures op answer → Keeps (next answer) post

variable {contract}

theorem keeps_done {result : α} {post : α → Prop} (holds : post result) :
    contract.Keeps (.done result) post := holds

theorem Keeps.mono {program : Program sig α} {post weaker : α → Prop}
    (keeps : contract.Keeps program post) (weaken : ∀ result, post result → weaker result) :
    contract.Keeps program weaker := by
  induction program with
  | done result => exact weaken result keeps
  | call op next ih => exact ⟨keeps.1, fun answer ensured => ih answer (keeps.2 answer ensured)⟩

theorem Keeps.bind {first : Program sig α} {rest : α → Program sig β} {middle : α → Prop}
    {post : β → Prop} (head : contract.Keeps first middle)
    (tail : ∀ result, middle result → contract.Keeps (rest result) post) :
    contract.Keeps (first >>= rest) post := by
  induction first with
  | done result => exact tail result head
  | call op next ih => exact ⟨head.1, fun answer ensured => ih answer (head.2 answer ensured)⟩

theorem keeps_of_within {program : Program sig α}
    (within : Program.Within contract.requires program) :
    contract.Keeps program fun _ => True := by
  induction program with
  | done result => trivial
  | call op next ih => exact ⟨within.1, fun answer _ => ih answer (within.2 answer)⟩

variable (contract Origin) in
/-- The observer of a contract only remembers which request its task serves. -/
@[reducible] def monitor : Monitor sig where
  Ghost := Origin
  allowed := fun _ op => contract.requires op
  answers := contract.ensures
  next := fun origin _ _ => origin

theorem Keeps.follows {program : Program sig α} {post : α → Prop}
    (keeps : contract.Keeps program post) (origin : Origin) :
    (contract.monitor Origin).Follows origin program
      fun after result => after = origin ∧ post result := by
  induction program with
  | done result => exact ⟨rfl, keeps⟩
  | call op next ih => exact ⟨keeps.1, fun answer ensured => ih answer (keeps.2 answer ensured)⟩

end Contract

namespace System

variable {sys : System}

/-- The call was made with this answer. -/
def Recorded (log : List sys.Entry) (op : sys.sig.Op) (answer : sys.sig.Answer op) : Prop :=
  ∃ thread, Entry.did thread op answer ∈ log

theorem Recorded.mono {log longer : List sys.Entry} {op : sys.sig.Op} {answer : sys.sig.Answer op}
    (recorded : Recorded log op answer) (extends_ : log <+: longer) :
    Recorded longer op answer := by
  obtain ⟨thread, member⟩ := recorded
  exact ⟨thread, extends_.subset member⟩

/-- Whatever the log held at some point, it held after some prefix of the events. -/
theorem exists_execute_log_eq {events : List sys.Event} {front back : List sys.Entry}
    (split : (execute events).log = front ++ back) :
    ∃ before, before <+: events ∧ (execute before).log = front := by
  induction events using List.reverseRecOn generalizing back with
  | nil =>
      obtain ⟨rfl, -⟩ := List.append_eq_nil_iff.mp split.symm
      exact ⟨[], List.prefix_refl _, rfl⟩
  | append_singleton events event ih =>
      have shorter : ∀ rest, (execute events).log = front ++ rest →
          ∃ before, before <+: events ++ [event] ∧ (execute before).log = front := by
        intro rest earlier
        obtain ⟨before, isPrefix, same⟩ := ih earlier
        exact ⟨before, isPrefix.trans (List.prefix_append _ _), same⟩
      have grown : (execute (events ++ [event])).log = (execute events).log ∨
          ∃ entry, (execute (events ++ [event])).log = (execute events).log ++ [entry] := by
        rw [execute_snoc]
        have step := advance_cases (execute events) event
        revert step
        generalize (execute events).advance event = after
        intro step
        cases step with
        | stutter => exact Or.inl rfl
        | start | finish | call => exact Or.inr ⟨_, rfl⟩
      rcases grown with same | ⟨entry, grown⟩
      · exact shorter back (same ▸ split)
      · rcases List.eq_nil_or_concat back with rfl | ⟨body, last, rfl⟩
        · rw [List.append_nil] at split
          exact ⟨events ++ [event], List.prefix_refl _, split⟩
        · have regrouped : (execute events).log ++ [entry] = (front ++ body) ++ [last] := by
            rw [← grown, split, List.concat_eq_append, List.append_assoc]
          exact shorter body (List.append_inj' regrouped rfl).1

section Contract

variable {monitor : Monitor sys.sig} {start : sys.Request → monitor.Ghost}
  {post : monitor.Ghost → sys.Result → Prop} {requires : sys.sig.Op → Prop}
  {events : List sys.Event}

/-- The operations of a run are the ones the monitor allows. -/
theorem Observed.kept (observed : Observed monitor start post (execute events))
    (allowed : ∀ ghost op, monitor.allowed ghost op → requires op) {thread : Nat}
    {op : sys.sig.Op} {answer : sys.sig.Answer op}
    (member : Entry.did thread op answer ∈ (execute events).log) : requires op := by
  obtain ⟨front, back, split⟩ := List.append_of_mem member
  obtain ⟨ghost, -, isAllowed⟩ := observed.calls front thread op answer back split
  exact allowed ghost op isAllowed

/-- **Rely and guarantee.** If answers are reliable in every run whose operations
keep to the contract, then they are reliable in every run. -/
theorem relied (programs : ∀ request, monitor.Follows (start request) (sys.program request) post)
    (allowed : ∀ ghost op, monitor.allowed ghost op → requires op)
    (sound : ∀ front, front <+: events →
      (∀ thread op answer, Entry.did thread op answer ∈ (execute front).log → requires op) →
      ∀ thread op answer, Entry.did thread op answer ∈ (execute front).log →
        monitor.answers op answer) :
    ∀ thread op answer, Entry.did thread op answer ∈ (execute events).log →
      monitor.answers op answer := by
  have every : ∀ front, front <+: events → ∀ thread op answer,
      Entry.did thread op answer ∈ (execute front).log → monitor.answers op answer := by
    intro front
    induction front using List.reverseRecOn with
    | nil => exact fun _ _ _ _ member => absurd member List.not_mem_nil
    | append_singleton front event ih =>
        intro isPrefix
        have shorter : front <+: events := (List.prefix_append front [event]).trans isPrefix
        have observed := observed_execute programs front (ih shorter)
        apply sound (front ++ [event]) isPrefix
        rw [execute_snoc]
        have step := advance_cases (execute front) event
        revert step
        generalize (execute front).advance event = after
        intro step thread op answer member
        cases step with
        | stutter => exact observed.kept allowed member
        | start request =>
            rcases List.mem_append.mp member with earlier | last
            · exact observed.kept allowed earlier
            · exact nomatch List.mem_singleton.mp last
        | finish other env result running =>
            rcases List.mem_append.mp member with earlier | last
            · exact observed.kept allowed earlier
            · exact nomatch List.mem_singleton.mp last
        | call other env called next reply state running performed =>
            rcases List.mem_append.mp member with earlier | last
            · exact observed.kept allowed earlier
            · cases List.mem_singleton.mp last
              obtain ⟨ghost, -, follows⟩ := observed.running thread _ running
              exact allowed ghost op follows.1
  exact every events (List.prefix_refl _)

end Contract

section Holds

variable {contract : Contract sys.sig} {post : sys.Request → sys.Result → Prop}
  {events : List sys.Event}

/-- The ghost of a contract never changes. -/
theorem ghostOf_contract_append {thread : Nat} {front : List sys.Entry} {origin : sys.Request}
    (known : ghostOf (contract.monitor sys.Request) id thread front = some origin)
    (back : List sys.Entry) :
    ghostOf (contract.monitor sys.Request) id thread (front ++ back) = some origin := by
  induction back using List.reverseRecOn with
  | nil => rwa [List.append_nil]
  | append_singleton back entry ih =>
      rw [← List.append_assoc, ghostOf_snoc, ih]
      cases entry with
      | started other request => exact ite_self _
      | did other op answer => exact ite_self _
      | finished other result => rfl

/-- The contract and the postconditions of finished tasks hold in a log. -/
structure ContractHolds (contract : Contract sys.sig) (post : sys.Request → sys.Result → Prop)
    (log : List sys.Entry) : Prop where
  required : ∀ thread op answer, Entry.did thread op answer ∈ log → contract.requires op
  ensured : ∀ thread op answer, Entry.did thread op answer ∈ log → contract.ensures op answer
  finished : ∀ thread request result, Entry.started thread request ∈ log →
    Entry.finished thread result ∈ log → post request result

/-- **Contract rule.** Tasks that keep to a contract whose answers are reliable
while it is kept make it hold in every run. -/
theorem contractHolds_execute
    (programs : ∀ request, contract.Keeps (sys.program request) (post request))
    (sound : ∀ front, front <+: events →
      (∀ thread op answer, Entry.did thread op answer ∈ (execute front).log →
        contract.requires op) →
      ∀ thread op answer, Entry.did thread op answer ∈ (execute front).log →
        contract.ensures op answer) :
    ContractHolds contract post (execute events).log := by
  have follows : ∀ request, (contract.monitor sys.Request).Follows (id request)
      (sys.program request) fun origin result => post origin result := by
    intro request
    refine ((programs request).follows request).mono ?_
    rintro origin result ⟨rfl, holds⟩
    exact holds
  have ensured : ∀ thread op answer, Entry.did thread op answer ∈ (execute events).log →
      (contract.monitor sys.Request).answers op answer :=
    relied follows (fun _ _ required => required) sound
  have observed := observed_execute follows events ensured
  refine ⟨fun _ _ _ member => observed.kept (fun _ _ required => required) member, ensured, ?_⟩
  intro thread request result starts ends
  obtain ⟨front, back, split⟩ := List.append_of_mem starts
  have unknown := observed.starts front thread request back split
  have known : ghostOf (contract.monitor sys.Request) id thread
      (front ++ [.started thread request]) = some request := by
    rw [ghostOf_snoc, unknown]
    exact if_pos rfl
  have whole := ghostOf_contract_append known back
  rw [List.append_assoc, List.singleton_append, ← split] at whole
  obtain ⟨before, after, split⟩ := List.append_of_mem ends
  obtain ⟨origin, atEnd, holds⟩ := observed.finishes before thread result after split
  have same := ghostOf_contract_append atEnd (.finished thread result :: after)
  rw [← split, whole] at same
  exact Option.some.inj same ▸ holds

end Holds

end System

end Interaction
