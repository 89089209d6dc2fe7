import Mathlib.Data.List.Basic
import StratumBridge.Interaction.Contract

/-! # Recording a task's own calls

A protocol constrains each call of a task by the request it serves and by the calls it
made before. An observer that records the calls of one family turns such a protocol
into a fact about the log: every recorded call was preceded, in its own task, by calls
that permit it.
-/

namespace Interaction

/-- What a task may call and how it may finish, given its own recorded calls. -/
structure Protocol (sig : Signature) (ρ κ α : Type) where
  select : (op : sig.Op) → sig.Answer op → Option κ
  permits : ρ → List κ → sig.Op → Prop
  answers : (op : sig.Op) → sig.Answer op → Prop
  completes : ρ → List κ → α → Prop

namespace Protocol

variable {sig : Signature} {ρ κ α β : Type} (protocol : Protocol sig ρ κ α)

/-- The observer that records the selected calls of a task. -/
@[reducible] def monitor : Monitor sig where
  Ghost := ρ × List κ
  allowed := fun ghost op => protocol.permits ghost.1 ghost.2 op
  answers := protocol.answers
  next := fun ghost op answer => (ghost.1, ghost.2 ++ (protocol.select op answer).toList)

/-- After these calls the task keeps to the protocol and reaches the postcondition. -/
def Obeys (request : ρ) : List κ → Program sig β → (List κ → β → Prop) → Prop
  | calls, .done result, post => post calls result
  | calls, .call op next, post =>
      protocol.permits request calls op ∧ ∀ answer, protocol.answers op answer →
        Obeys request (calls ++ (protocol.select op answer).toList) (next answer) post

variable {protocol} {request : ρ} {calls : List κ} {γ : Type}

theorem obeys_done {result : β} {post : List κ → β → Prop} (holds : post calls result) :
    protocol.Obeys request calls (.done result) post := holds

theorem Obeys.mono {program : Program sig β} {post weaker : List κ → β → Prop}
    (obeys : protocol.Obeys request calls program post)
    (weaken : ∀ after result, post after result → weaker after result) :
    protocol.Obeys request calls program weaker := by
  induction program generalizing calls with
  | done result => exact weaken calls result obeys
  | call op next ih => exact ⟨obeys.1, fun answer reliable => ih answer (obeys.2 answer reliable)⟩

/-- **Sequencing rule.** -/
theorem Obeys.bind {first : Program sig β} {rest : β → Program sig γ}
    {middle : List κ → β → Prop} {post : List κ → γ → Prop}
    (head : protocol.Obeys request calls first middle)
    (tail : ∀ after result, middle after result → protocol.Obeys request after (rest result) post) :
    protocol.Obeys request calls (first >>= rest) post := by
  induction first generalizing calls with
  | done result => exact tail calls result head
  | call op next ih => exact ⟨head.1, fun answer reliable => ih answer (head.2 answer reliable)⟩

variable (protocol) in
/-- The protocol permits the operation always and records nothing of it. -/
def Ignores (op : sig.Op) : Prop :=
  (∀ request calls, protocol.permits request calls op) ∧ ∀ answer, protocol.select op answer = none

/-- A task of ignored operations records nothing. -/
theorem obeys_of_within {program : Program sig β}
    (within : Program.Within protocol.Ignores program) :
    protocol.Obeys request calls program fun after _ => after = calls := by
  induction program with
  | done result => rfl
  | call op next ih =>
      refine ⟨within.1.1 request calls, fun answer _ => ?_⟩
      rw [within.1.2 answer, Option.toList_none, List.append_nil]
      exact ih answer (within.2 answer)

/-- **Frame rule.** A prefix of ignored operations can be skipped. -/
theorem obeys_bind_of_within {first : Program sig β} {rest : β → Program sig γ}
    {post : List κ → γ → Prop} (within : Program.Within protocol.Ignores first)
    (tail : ∀ result, protocol.Obeys request calls (rest result) post) :
    protocol.Obeys request calls (first >>= rest) post := by
  refine (obeys_of_within within).bind ?_
  intro after result same
  rw [same]
  exact tail result

variable (protocol) in
/-- The protocol permits the operation always and records only noise of it. -/
def Passes (noise : κ → Prop) (op : sig.Op) : Prop :=
  (∀ request calls, protocol.permits request calls op) ∧
    ∀ answer item, protocol.select op answer = some item → noise item

/-- **Noise rule.** A task of passing operations records only noise. -/
theorem obeys_of_passes {noise : κ → Prop} {program : Program sig β}
    (within : Program.Within (protocol.Passes noise) program) :
    protocol.Obeys request calls program fun after _ =>
      ∃ added, after = calls ++ added ∧ ∀ item ∈ added, noise item := by
  induction program generalizing calls with
  | done result => exact ⟨[], (List.append_nil _).symm, fun _ member => absurd member List.not_mem_nil⟩
  | call op next ih =>
      refine ⟨within.1.1 request calls, fun answer _ => ?_⟩
      refine (ih answer (within.2 answer)).mono ?_
      rintro after _ ⟨added, rfl, noisy⟩
      refine ⟨(protocol.select op answer).toList ++ added, List.append_assoc .., ?_⟩
      intro item member
      rcases List.mem_append.mp member with here | later
      · exact within.1.2 answer item (Option.mem_toList.mp here)
      · exact noisy item later

/-- A task of operations that are always permitted. -/
theorem obeys_of_permitted {program : Program sig β}
    (within : Program.Within (fun op => ∀ calls, protocol.permits request calls op) program) :
    protocol.Obeys request calls program fun _ _ => True := by
  induction program generalizing calls with
  | done result => trivial
  | call op next ih => exact ⟨within.1 calls, fun answer _ => ih answer (within.2 answer)⟩

/-- A task of ignored operations that keeps to a contract on the same answers. -/
theorem obeys_of_keeps {contract : Contract sig} {program : Program sig β} {post : β → Prop}
    (within : Program.Within protocol.Ignores program)
    (reliable : ∀ op answer, protocol.answers op answer → contract.ensures op answer)
    (keeps : contract.Keeps program post) :
    protocol.Obeys request calls program fun after result => after = calls ∧ post result := by
  induction program with
  | done result => exact ⟨rfl, keeps⟩
  | call op next ih =>
      refine ⟨within.1.1 request calls, fun answer relied => ?_⟩
      rw [within.1.2 answer, Option.toList_none, List.append_nil]
      exact ih answer (within.2 answer) (keeps.2 answer (reliable op answer relied))

theorem Obeys.follows {program : Program sig β} {post : List κ → β → Prop}
    (obeys : protocol.Obeys request calls program post) :
    protocol.monitor.Follows (request, calls) program
      fun ghost result => ghost.1 = request ∧ post ghost.2 result := by
  induction program generalizing calls with
  | done result => exact ⟨rfl, obeys⟩
  | call op next ih => exact ⟨obeys.1, fun answer reliable => ih answer (obeys.2 answer reliable)⟩

end Protocol

namespace System

variable {sys : System} {κ : Type}

/-- The selected calls of one task, in order. -/
def ownCalls (select : (op : sys.sig.Op) → sys.sig.Answer op → Option κ) (thread : Nat)
    (log : List sys.Entry) : List κ :=
  log.filterMap fun entry =>
    match entry with
    | .did other op answer => if other = thread then select op answer else none
    | _ => none

section OwnCalls

variable {select : (op : sys.sig.Op) → sys.sig.Answer op → Option κ} {thread : Nat}

@[simp] theorem ownCalls_append (front back : List sys.Entry) :
    ownCalls select thread (front ++ back) =
      ownCalls select thread front ++ ownCalls select thread back :=
  List.filterMap_append

theorem ownCalls_did (op : sys.sig.Op) (answer : sys.sig.Answer op) :
    ownCalls select thread [.did thread op answer] = (select op answer).toList := by
  unfold ownCalls
  cases selected : select op answer <;>
    simp only [List.filterMap_cons, List.filterMap_nil, if_true, selected, Option.toList_none,
      Option.toList_some]

theorem ownCalls_cons (op : sys.sig.Op) (answer : sys.sig.Answer op) (log : List sys.Entry) :
    ownCalls select thread (.did thread op answer :: log) =
      (select op answer).toList ++ ownCalls select thread log := by
  rw [← List.singleton_append, ownCalls_append, ownCalls_did]

theorem ownCalls_did_other {other : Nat} (different : other ≠ thread) (op : sys.sig.Op)
    (answer : sys.sig.Answer op) : ownCalls select thread [.did other op answer] = [] := by
  simp only [ownCalls, List.filterMap_cons, List.filterMap_nil, if_neg different]

/-- Picking among the selected calls of a task selects fewer of them. -/
theorem ownCalls_bind {ν : Type} (pick : κ → Option ν) (log : List sys.Entry) :
    ownCalls (fun op answer => (select op answer).bind pick) thread log =
      (ownCalls select thread log).filterMap pick := by
  rw [ownCalls, ownCalls, List.filterMap_filterMap]
  refine congrArg (List.filterMap · log) (funext fun entry => ?_)
  cases entry with
  | started | finished => rfl
  | did other op answer =>
      by_cases same : other = thread
      · simp only [if_pos same]
      · simp only [if_neg same, Option.bind_none]

/-- Selections that agree on the calls of a task select the same. -/
theorem ownCalls_congr {other : (op : sys.sig.Op) → sys.sig.Answer op → Option κ}
    {log : List sys.Entry} (agree : ∀ op answer, Entry.did thread op answer ∈ log →
      select op answer = other op answer) :
    ownCalls select thread log = ownCalls other thread log := by
  refine List.filterMap_congr fun entry member => ?_
  cases entry with
  | started | finished => rfl
  | did caller op answer =>
      dsimp only
      split
      · next same =>
          subst same
          exact agree op answer member
      · rfl

/-- A call among a task's own was made by the task. -/
theorem mem_ownCalls {log : List sys.Entry} {item : κ} :
    item ∈ ownCalls select thread log ↔
      ∃ op answer, Entry.did thread op answer ∈ log ∧ select op answer = some item := by
  constructor
  · intro member
    obtain ⟨entry, inLog, chosen⟩ := List.mem_filterMap.mp member
    cases entry with
    | started other request => exact nomatch chosen
    | finished other result => exact nomatch chosen
    | did other op answer =>
        by_cases same : other = thread
        · subst same
          simp only [if_true] at chosen
          exact ⟨op, answer, inLog, chosen⟩
        · simp only [if_neg same, reduceCtorEq] at chosen
  · rintro ⟨op, answer, inLog, chosen⟩
    refine List.mem_filterMap.mpr ⟨.did thread op answer, inLog, ?_⟩
    simp only [if_true, chosen]

/-- A task's own calls stay among its own. -/
theorem mem_ownCalls_of_front {log front back : List sys.Entry} {item : κ}
    (split : log = front ++ back) (member : item ∈ ownCalls select thread front) :
    item ∈ ownCalls select thread log := by
  rw [split, ownCalls_append]
  exact List.mem_append_left _ member

/-- One of a task's own calls was recorded somewhere in the log. -/
theorem exists_split_of_ownCalls {log : List sys.Entry} {front back : List κ} {item : κ}
    (split : ownCalls select thread log = front ++ item :: back) :
    ∃ before op answer after, log = before ++ .did thread op answer :: after ∧
      ownCalls select thread before = front ∧ select op answer = some item ∧
      ownCalls select thread after = back := by
  obtain ⟨early, late, rfl, first, second⟩ := List.filterMap_eq_append_iff.mp split
  obtain ⟨silent, entry, rest, rfl, nothing, chosen, remaining⟩ :=
    List.filterMap_eq_cons_iff.mp second
  have skipped : ownCalls select thread silent = [] := List.filterMap_eq_nil_iff.mpr nothing
  cases entry with
  | started other request => exact nomatch chosen
  | finished other result => exact nomatch chosen
  | did other op answer =>
      by_cases same : other = thread
      · subst same
        simp only [if_true] at chosen
        refine ⟨early ++ silent, op, answer, rest, (List.append_assoc ..).symm, ?_, chosen,
          remaining⟩
        rw [ownCalls_append, skipped, List.append_nil]
        exact first
      · simp only [if_neg same, reduceCtorEq] at chosen

end OwnCalls

section CallsBy

variable (select : (op : sys.sig.Op) → sys.sig.Answer op → Option κ)

/-- The recorded calls of a family with the tasks that made them, in order. -/
def callsBy (log : List sys.Entry) : List (Nat × κ) :=
  log.filterMap fun entry =>
    match entry with
    | .did thread op answer => (select op answer).map (Prod.mk thread)
    | _ => none

variable {select}

@[simp] theorem callsBy_append (front back : List sys.Entry) :
    callsBy select (front ++ back) = callsBy select front ++ callsBy select back :=
  List.filterMap_append

theorem callsBy_did (thread : Nat) (op : sys.sig.Op) (answer : sys.sig.Answer op) :
    callsBy select [.did thread op answer] = ((select op answer).map (Prod.mk thread)).toList := by
  unfold callsBy
  cases chosen : select op answer <;>
    simp only [List.filterMap_cons, List.filterMap_nil, chosen, Option.map_none, Option.map_some,
      Option.toList_none, Option.toList_some]

/-- A listed call was recorded somewhere in the log. -/
theorem exists_split_of_callsBy {log : List sys.Entry} {front back : List (Nat × κ)}
    {thread : Nat} {item : κ} (split : callsBy select log = front ++ (thread, item) :: back) :
    ∃ before op answer after, log = before ++ .did thread op answer :: after ∧
      callsBy select before = front ∧ select op answer = some item ∧
      callsBy select after = back := by
  obtain ⟨early, late, rfl, first, second⟩ := List.filterMap_eq_append_iff.mp split
  obtain ⟨silent, entry, rest, rfl, nothing, chosen, remaining⟩ :=
    List.filterMap_eq_cons_iff.mp second
  have skipped : silent.filterMap _ = [] := List.filterMap_eq_nil_iff.mpr nothing
  cases entry with
  | started other request => exact nomatch chosen
  | finished other result => exact nomatch chosen
  | did other op answer =>
      obtain ⟨found, selected, pair⟩ := Option.map_eq_some_iff.mp chosen
      cases pair
      refine ⟨early ++ silent, op, answer, rest, (List.append_assoc ..).symm, ?_, selected,
        remaining⟩
      rw [callsBy, List.filterMap_append, skipped, List.append_nil]
      exact first

/-- A task's own calls among the listed ones. -/
theorem ownCalls_eq_filterMap (thread : Nat) (log : List sys.Entry) :
    ownCalls select thread log = (callsBy select log).filterMap fun (other, item) =>
      if other = thread then some item else none := by
  rw [ownCalls, callsBy, List.filterMap_filterMap]
  refine congrArg (List.filterMap · log) (funext fun entry => ?_)
  cases entry with
  | started | finished => rfl
  | did other op answer =>
      by_cases same : other = thread
      · cases chosen : select op answer <;>
          simp only [same, if_true, chosen, Option.map_none, Option.map_some, Option.bind_none,
            Option.bind_some]
      · cases chosen : select op answer <;>
          simp only [if_neg same, chosen, Option.map_none, Option.map_some, Option.bind_none,
            Option.bind_some]

theorem callsOf_eq_map (log : List sys.Entry) :
    callsOf select log = (callsBy select log).map Prod.snd := by
  rw [callsOf, callsBy, List.map_filterMap]
  refine congrArg (List.filterMap · log) (funext fun entry => ?_)
  cases entry with
  | started | finished => rfl
  | did other op answer => cases chosen : select op answer <;> simp [chosen]

/-- When one task makes all calls of a family, they are its own. -/
theorem callsOf_eq_ownCalls {log : List sys.Entry} {thread : Nat}
    (only : ∀ other op answer item, Entry.did other op answer ∈ log →
      select op answer = some item → other = thread) :
    callsOf select log = ownCalls select thread log := by
  refine List.filterMap_congr fun entry member => ?_
  cases entry with
  | started | finished => rfl
  | did other op answer =>
      dsimp only
      by_cases same : other = thread
      · rw [if_pos same]
      · rw [if_neg same, Option.eq_none_iff_forall_ne_some]
        exact fun item chosen => same (only other op answer item member chosen)

theorem mem_callsBy {log : List sys.Entry} {thread : Nat} {item : κ} :
    (thread, item) ∈ callsBy select log ↔ item ∈ ownCalls select thread log := by
  rw [mem_ownCalls]
  constructor
  · intro member
    obtain ⟨entry, inLog, chosen⟩ := List.mem_filterMap.mp member
    cases entry with
    | started other request => exact nomatch chosen
    | finished other result => exact nomatch chosen
    | did other op answer =>
        obtain ⟨found, selected, pair⟩ := Option.map_eq_some_iff.mp chosen
        cases pair
        exact ⟨op, answer, inLog, selected⟩
  · rintro ⟨op, answer, inLog, selected⟩
    refine List.mem_filterMap.mpr ⟨.did thread op answer, inLog, ?_⟩
    simp only [selected, Option.map_some]

/-- The entry records the end of the task. -/
def Entry.ends (thread : Nat) : sys.Entry → Bool
  | .finished other _ => decide (other = thread)
  | _ => false

theorem exists_finished {log : List sys.Entry} {thread : Nat}
    (ended : log.any (Entry.ends thread) = true) : ∃ result, Entry.finished thread result ∈ log := by
  obtain ⟨entry, member, ends⟩ := List.any_eq_true.mp ended
  cases entry with
  | started other request => exact nomatch ends
  | did other op answer => exact nomatch ends
  | finished other result =>
      obtain rfl := of_decide_eq_true ends
      exact ⟨result, member⟩

end CallsBy

section Explained

variable (protocol : Protocol sys.sig sys.Request κ sys.Result)

/-- Every recorded call and finish of a log is one its task's own calls permit. -/
structure Explained (log : List sys.Entry) : Prop where
  calls : ∀ front thread op answer back, log = front ++ .did thread op answer :: back →
    ∃ request, Entry.started thread request ∈ front ∧
      protocol.permits request (ownCalls protocol.select thread front) op
  finishes : ∀ front thread result back, log = front ++ .finished thread result :: back →
    ∃ request, Entry.started thread request ∈ front ∧
      protocol.completes request (ownCalls protocol.select thread front) result
  starts : ∀ front thread request back, log = front ++ .started thread request :: back →
    ∀ op answer, .did thread op answer ∉ front

variable {protocol}

/-- **Own-calls rule.** What holds of no calls, and is kept by every permitted call, holds of
the calls a task made by any point of the log. -/
theorem Explained.ownCalls_induction {log front back : List sys.Entry}
    (explained : Explained protocol log) (thread : Nat) {motive : List κ → Prop}
    (nothing : motive [])
    (step : ∀ request calls op answer, motive calls → protocol.permits request calls op →
      motive (calls ++ (protocol.select op answer).toList))
    (split : log = front ++ back) : motive (ownCalls protocol.select thread front) := by
  induction front using List.reverseRecOn generalizing back with
  | nil => exact nothing
  | append_singleton front entry ih =>
      have whole : log = front ++ entry :: back := by
        rw [split, List.append_assoc, List.singleton_append]
      have earlier := ih whole
      rw [ownCalls_append]
      cases entry with
      | started other request => exact (List.append_nil _).symm ▸ earlier
      | finished other result => exact (List.append_nil _).symm ▸ earlier
      | did other op answer =>
          by_cases same : other = thread
          · subst same
            obtain ⟨request, -, permitted⟩ := explained.calls front other op answer back whole
            rw [ownCalls_did]
            exact step request _ op answer earlier permitted
          · rw [ownCalls_did_other same, List.append_nil]
            exact earlier

/-- The recording observer holds exactly the task's own calls. -/
theorem ghostOf_protocol {thread : Nat} {log : List sys.Entry}
    (attended : ∀ front op answer back, log = front ++ .did thread op answer :: back →
      ghostOf protocol.monitor (fun request => (request, [])) thread front ≠ none)
    {ghost : sys.Request × List κ}
    (known : ghostOf protocol.monitor (fun request => (request, [])) thread log = some ghost) :
    Entry.started thread ghost.1 ∈ log ∧ ghost.2 = ownCalls protocol.select thread log := by
  induction log using List.reverseRecOn generalizing ghost with
  | nil => cases known
  | append_singleton log entry ih =>
      have earlier : ∀ front op answer back, log = front ++ .did thread op answer :: back →
          ghostOf protocol.monitor (fun request => (request, [])) thread front ≠ none := by
        rintro front op answer back rfl
        exact attended front op answer (back ++ [entry]) (by rw [List.append_assoc, List.cons_append])
      have silent : ghostOf protocol.monitor (fun request => (request, [])) thread log = none →
          ownCalls protocol.select thread log = [] := by
        intro unknown
        by_contra busy
        obtain ⟨item, member⟩ := List.exists_mem_of_ne_nil _ busy
        obtain ⟨op, answer, inLog, -⟩ := mem_ownCalls.mp member
        obtain ⟨front, back, rfl⟩ := List.append_of_mem inLog
        obtain ⟨value, held⟩ := Option.ne_none_iff_exists'.mp (earlier front op answer back rfl)
        exact ghostOf_append_ne_none held (.did thread op answer :: back) unknown
      rw [ghostOf_snoc] at known
      rw [ownCalls_append]
      cases before : ghostOf protocol.monitor (fun request => (request, [])) thread log with
      | none =>
          rw [before] at known
          cases entry with
          | started other request =>
              by_cases same : other = thread
              · subst same
                simp only [ghostStep, if_true, Option.getD_none] at known
                obtain rfl := Option.some.inj known
                rw [silent before]
                exact ⟨List.mem_append_right _ List.mem_cons_self, rfl⟩
              · simp only [ghostStep, if_neg same, reduceCtorEq] at known
          | did other op answer =>
              simp only [ghostStep, Option.map_none, ite_self, reduceCtorEq] at known
          | finished other result => cases known
      | some value =>
          obtain ⟨starts, recorded⟩ := ih earlier before
          rw [before] at known
          cases entry with
          | started other request =>
              simp only [ghostStep, Option.getD_some, ite_self] at known
              obtain rfl := Option.some.inj known
              exact ⟨List.mem_append_left _ starts, recorded.trans (List.append_nil _).symm⟩
          | did other op answer =>
              by_cases same : other = thread
              · subst same
                simp only [ghostStep, if_true, Option.map_some] at known
                obtain rfl := Option.some.inj known
                rw [ownCalls_did, recorded]
                exact ⟨List.mem_append_left _ starts, rfl⟩
              · simp only [ghostStep, if_neg same] at known
                obtain rfl := Option.some.inj known
                rw [ownCalls_did_other same, List.append_nil]
                exact ⟨List.mem_append_left _ starts, recorded⟩
          | finished other result =>
              obtain rfl := Option.some.inj known
              exact ⟨List.mem_append_left _ starts, recorded.trans (List.append_nil _).symm⟩

/-- **Protocol rule.** If every task obeys the protocol and the recorded answers are the
ones it relies on, the protocol explains every run. -/
theorem explained_execute
    (programs : ∀ request, protocol.Obeys request [] (sys.program request)
      (protocol.completes request)) (events : List sys.Event)
    (answered : ∀ thread op answer, Entry.did thread op answer ∈ (execute events).log →
      protocol.answers op answer) :
    Explained protocol (execute events).log := by
  have follows : ∀ request, protocol.monitor.Follows ((fun request => (request, [])) request)
      (sys.program request) fun ghost result => protocol.completes ghost.1 ghost.2 result := by
    intro request
    refine (programs request).follows.mono ?_
    rintro ⟨origin, calls⟩ result ⟨same, holds⟩
    cases same
    exact holds
  have observed := observed_execute follows events answered
  have attended : ∀ (thread : Nat) (before rest : List sys.Entry),
      (execute events).log = before ++ rest → ∀ front op answer back,
        before = front ++ .did thread op answer :: back →
          ghostOf protocol.monitor (fun request => (request, [])) thread front ≠ none := by
    rintro thread before rest whole front op answer back rfl
    rw [List.append_assoc, List.cons_append] at whole
    obtain ⟨ghost, known, -⟩ := observed.calls front thread op answer (back ++ rest) whole
    exact known ▸ Option.some_ne_none ghost
  refine ⟨?_, ?_, ?_⟩
  · intro front thread op answer back split
    obtain ⟨ghost, known, permitted⟩ := observed.calls front thread op answer back split
    obtain ⟨starts, recorded⟩ := ghostOf_protocol (attended thread front _ split) known
    exact ⟨ghost.1, starts, recorded ▸ permitted⟩
  · intro front thread result back split
    obtain ⟨ghost, known, completes⟩ := observed.finishes front thread result back split
    obtain ⟨starts, recorded⟩ := ghostOf_protocol (attended thread front _ split) known
    exact ⟨ghost.1, starts, recorded ▸ completes⟩
  · intro front thread request back split op answer member
    obtain ⟨before, after, rfl⟩ := List.append_of_mem member
    obtain ⟨ghost, known⟩ :=
      Option.ne_none_iff_exists'.mp (attended thread _ _ split before op answer after rfl)
    exact ghostOf_append_ne_none known _ (observed.starts _ thread request back split)

end Explained

end System

end Interaction
