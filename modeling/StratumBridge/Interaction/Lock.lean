import StratumBridge.Interaction.Recording

/-! # Locks

A lock is held or free. It is taken only while free, and the tasks release it only when
they hold it; then at most one task holds it at any point of a run, so what tasks do
while they hold it happens in the order in which they took it.
-/

namespace Interaction.System

variable {sys : System} {held : sys.State → Bool}
  {turns : (op : sys.sig.Op) → sys.sig.Answer op → Option Bool}

/-- The calls that take a lock (`true`) and the calls that release it (`false`). -/
structure Lock (held : sys.State → Bool)
    (turns : (op : sys.sig.Op) → sys.sig.Answer op → Option Bool) : Prop where
  taken : ∀ op state env answer after, sys.perform op state env = some (answer, after) →
    turns op answer = some true → held state = false ∧ held after = true
  kept : ∀ op state env answer after, sys.perform op state env = some (answer, after) →
    turns op answer = none → held after = held state

/-- The last thing a task did with the lock was to take it. -/
def Holds (turns : (op : sys.sig.Op) → sys.sig.Answer op → Option Bool) (thread : Nat)
    (log : List sys.Entry) : Prop :=
  (ownCalls turns thread log).getLast? = some true

/-- Tasks release the lock only when they hold it. -/
def Disciplined (turns : (op : sys.sig.Op) → sys.sig.Answer op → Option Bool)
    (log : List sys.Entry) : Prop :=
  ∀ front thread op answer back, log = front ++ .did thread op answer :: back →
    turns op answer = some false → Holds turns thread front

theorem Disciplined.of_append {front back : List sys.Entry}
    (disciplined : Disciplined turns (front ++ back)) : Disciplined turns front := by
  rintro before thread op answer rest rfl released
  exact disciplined before thread op answer (rest ++ back)
    (by rw [List.append_assoc, List.cons_append]) released

section Holds

variable {thread other : Nat} {log : List sys.Entry}

/-- Only a task's own calls change what it holds. -/
theorem holds_snoc_iff {entry : sys.Entry} (silent : ownCalls turns thread [entry] = []) :
    Holds turns thread (log ++ [entry]) ↔ Holds turns thread log := by
  rw [Holds, Holds, ownCalls_append, silent, List.append_nil]

theorem holds_snoc_did {op : sys.sig.Op} {answer : sys.sig.Answer op} {turn : Bool}
    (chosen : turns op answer = some turn) :
    Holds turns thread (log ++ [.did thread op answer]) ↔ turn = true := by
  rw [Holds, ownCalls_append, ownCalls_did, chosen, Option.toList_some, List.getLast?_concat,
    Option.some.injEq]

end Holds

/-- **Mutual exclusion.** At most one task holds the lock, and while one does the lock
is not free. -/
theorem Lock.exclusive (lock : Lock held turns) (events : List sys.Event)
    (disciplined : Disciplined turns (execute events).log) :
    (∀ thread other, Holds turns thread (execute events).log →
      Holds turns other (execute events).log → thread = other) ∧
    ∀ thread, Holds turns thread (execute events).log → held (execute events).state = true := by
  induction events using List.reverseRecOn with
  | nil => exact ⟨fun _ _ absurdity => (nomatch absurdity), fun _ absurdity => (nomatch absurdity)⟩
  | append_singleton events event ih =>
      rw [execute_snoc] at disciplined ⊢
      have step := advance_cases (execute events) event
      revert disciplined step
      generalize (execute events).advance event = after
      intro disciplined step
      cases step with
      | stutter => exact ih disciplined
      | start request =>
          obtain ⟨unique, busy⟩ := ih disciplined.of_append
          refine ⟨fun thread other first second => ?_, fun thread first => ?_⟩
          · exact unique thread other ((holds_snoc_iff rfl).mp first) ((holds_snoc_iff rfl).mp second)
          · exact busy thread ((holds_snoc_iff rfl).mp first)
      | finish ended env result running =>
          obtain ⟨unique, busy⟩ := ih disciplined.of_append
          refine ⟨fun thread other first second => ?_, fun thread first => ?_⟩
          · exact unique thread other ((holds_snoc_iff rfl).mp first) ((holds_snoc_iff rfl).mp second)
          · exact busy thread ((holds_snoc_iff rfl).mp first)
      | call caller env op next answer state running performed =>
          obtain ⟨unique, busy⟩ := ih disciplined.of_append
          have same : ∀ thread, thread ≠ caller →
              (Holds turns thread ((execute events).log ++ [.did caller op answer]) ↔
                Holds turns thread (execute events).log) :=
            fun thread different => holds_snoc_iff (ownCalls_did_other (Ne.symm different) op answer)
          cases chosen : turns op answer with
          | none =>
              have silent : ∀ thread,
                  (Holds turns thread ((execute events).log ++ [.did caller op answer]) ↔
                    Holds turns thread (execute events).log) := by
                intro thread
                by_cases self : thread = caller
                · subst self
                  refine holds_snoc_iff ?_
                  rw [ownCalls_did, chosen, Option.toList_none]
                · exact same thread self
              have free := lock.kept op _ env answer state performed chosen
              refine ⟨fun thread other first second => ?_, fun thread first => ?_⟩
              · exact unique thread other ((silent thread).mp first) ((silent other).mp second)
              · exact free.trans (busy thread ((silent thread).mp first))
          | some turn =>
              cases turn with
              | true =>
                  obtain ⟨free, taken⟩ := lock.taken op _ env answer state performed chosen
                  have only : ∀ thread,
                      Holds turns thread ((execute events).log ++ [.did caller op answer]) →
                        thread = caller := by
                    intro thread holds
                    by_contra different
                    have before := busy thread ((same thread different).mp holds)
                    rw [free] at before
                    exact nomatch before
                  exact ⟨fun thread other first second => (only thread first).trans
                    (only other second).symm, fun _ _ => taken⟩
              | false =>
                  have holder := disciplined _ caller op answer [] rfl chosen
                  have nobody : ∀ thread,
                      ¬ Holds turns thread ((execute events).log ++ [.did caller op answer]) := by
                    intro thread holds
                    by_cases self : thread = caller
                    · subst self
                      exact nomatch (holds_snoc_did chosen).mp holds
                    · exact self (unique thread caller ((same thread self).mp holds) holder)
                  exact ⟨fun thread _ first => absurd first (nobody thread),
                    fun thread first => absurd first (nobody thread)⟩

/-- A lock that is not free has a holder. -/
theorem Lock.exists_holder (lock : Lock held turns)
    (freed : ∀ op state env answer after, sys.perform op state env = some (answer, after) →
      turns op answer = some false → held after = false)
    (initially : held sys.initial = false) {events : List sys.Event}
    (busy : held (execute events).state = true) :
    ∃ thread, Holds turns thread (execute events).log := by
  revert busy
  refine execute_induction (fun config => held config.state = true →
    ∃ thread, Holds turns thread config.log) ?_ ?_ along_true
  · exact fun absurdity => absurd (initially.symm.trans absurdity) Bool.false_ne_true
  · intro config event after ih _ step busy
    cases step with
    | stutter => exact ih busy
    | start request | finish thread env result running =>
        obtain ⟨thread, holds⟩ := ih busy
        exact ⟨thread, (holds_snoc_iff rfl).mpr holds⟩
    | call caller env op next answer state running performed =>
        cases chosen : turns op answer with
        | none =>
            have kept := lock.kept op _ env answer state performed chosen
            obtain ⟨thread, holds⟩ := ih (kept.symm.trans busy)
            refine ⟨thread, (holds_snoc_iff ?_).mpr holds⟩
            by_cases same : caller = thread
            · subst same
              rw [ownCalls_did, chosen, Option.toList_none]
            · exact ownCalls_did_other same op answer
        | some turn =>
            cases turn with
            | true => exact ⟨caller, (holds_snoc_did chosen).mpr rfl⟩
            | false =>
                have free := freed op _ env answer state performed chosen
                exact absurd (free.symm.trans busy) Bool.false_ne_true

/-- Two holders at one point of a run are the same task. -/
theorem Lock.holder_unique (lock : Lock held turns) {events : List sys.Event}
    (disciplined : Disciplined turns (execute events).log) {front back : List sys.Entry}
    (split : (execute events).log = front ++ back) {thread other : Nat}
    (first : Holds turns thread front) (second : Holds turns other front) : thread = other := by
  obtain ⟨before, -, rfl⟩ := exists_execute_log_eq split
  rw [split] at disciplined
  exact (lock.exclusive before disciplined.of_append).1 thread other first second

section Unreleased

variable (never : ∀ op answer, turns op answer ≠ some false) {events : List sys.Event}
include never

/-- A task that took a lock that nobody releases holds it. -/
theorem holds_of_taken {thread : Nat} {log : List sys.Entry}
    (taken : true ∈ ownCalls turns thread log) : Holds turns thread log := by
  obtain ⟨last, shown⟩ := Option.ne_none_iff_exists'.mp
    (List.getLast?_eq_none_iff.not.mpr (List.ne_nil_of_mem taken))
  obtain ⟨op, answer, -, chosen⟩ := mem_ownCalls.mp (List.mem_of_getLast? shown)
  cases last with
  | true => exact shown
  | false => exact absurd chosen (never op answer)

theorem disciplined_of_never (log : List sys.Entry) : Disciplined turns log :=
  fun _ _ op answer _ _ released => absurd released (never op answer)

/-- A lock that nobody releases is taken by one task. -/
theorem Lock.taker_unique (lock : Lock held turns) {thread other : Nat}
    (first : true ∈ ownCalls turns thread (execute events).log)
    (second : true ∈ ownCalls turns other (execute events).log) : thread = other :=
  (lock.exclusive events (disciplined_of_never never _)).1 thread other
    (holds_of_taken never first) (holds_of_taken never second)

/-- Once taken, it is not free again. -/
theorem Lock.held_of_taken (lock : Lock held turns) {thread : Nat}
    (taken : true ∈ ownCalls turns thread (execute events).log) :
    held (execute events).state = true :=
  (lock.exclusive events (disciplined_of_never never _)).2 thread (holds_of_taken never taken)

end Unreleased

end Interaction.System
