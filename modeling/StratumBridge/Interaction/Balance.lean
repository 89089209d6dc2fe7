import Mathlib.Algebra.BigOperators.Group.Finset.Piecewise
import StratumBridge.Interaction.Recording

/-! # Calls that balance

When every task makes its calls of two families in pairs, the first family is ahead of the
second by the pairs that running tasks have not completed.
-/

namespace Interaction.System

variable {sys : System} {κ ν : Type}

/-- The calls of a family are the calls of the tasks together. -/
theorem length_callsOf (select : (op : sys.sig.Op) → sys.sig.Answer op → Option κ)
    {count : Nat} {log : List sys.Entry}
    (below : ∀ thread op answer, Entry.did thread op answer ∈ log → thread < count) :
    (callsOf select log).length =
      ∑ thread ∈ Finset.range count, (ownCalls select thread log).length := by
  induction log with
  | nil => exact (Finset.sum_eq_zero fun _ _ => rfl).symm
  | cons entry rest ih =>
      have earlier := ih fun thread op answer member =>
        below thread op answer (List.mem_cons_of_mem _ member)
      have own : ∀ thread, (ownCalls select thread (entry :: rest)).length =
          (ownCalls select thread [entry]).length + (ownCalls select thread rest).length := by
        intro thread
        rw [← List.singleton_append, ownCalls_append, List.length_append]
      rw [← List.singleton_append, callsOf_append, List.length_append, earlier,
        List.singleton_append, Finset.sum_congr rfl fun thread _ => own thread,
        Finset.sum_add_distrib]
      congr 1
      cases entry with
      | started | finished => exact (Finset.sum_eq_zero fun _ _ => rfl).symm
      | did thread op answer =>
          have inRange : thread ∈ Finset.range count :=
            Finset.mem_range.mpr (below thread op answer List.mem_cons_self)
          rw [Finset.sum_eq_single_of_mem thread inRange, callsOf_did, ownCalls_did]
          intro other _ different
          rw [ownCalls_did_other (Ne.symm different), List.length_nil]

/-- The tasks of a run: those with a call were started, and one that is not running any
more has finished. -/
theorem tasks_execute (events : List sys.Event) :
    (∀ thread op answer, Entry.did thread op answer ∈ (execute events).log →
      thread < (execute events).count) ∧
    (∀ thread program, (execute events).running thread = some program →
      thread < (execute events).count) ∧
    ∀ thread < (execute events).count, (execute events).running thread = none →
      ∃ result, Entry.finished thread result ∈ (execute events).log := by
  refine execute_induction (fun config =>
    (∀ thread op answer, Entry.did thread op answer ∈ config.log → thread < config.count) ∧
    (∀ thread program, config.running thread = some program → thread < config.count) ∧
    ∀ thread < config.count, config.running thread = none →
      ∃ result, Entry.finished thread result ∈ config.log) ?_ ?_ along_true
  · refine ⟨fun _ _ _ member => absurd member List.not_mem_nil, ?_,
      fun thread early => absurd early (Nat.not_lt_zero thread)⟩
    intro thread program running
    cases running
  · rintro config event after ⟨called, active, ended⟩ - step
    have old : ∀ entry : sys.Entry, ∀ thread op answer, entry ≠ .did thread op answer →
        Entry.did thread op answer ∈ config.log ++ [entry] → thread < config.count := by
      intro entry thread op answer different member
      rcases List.mem_append.mp member with earlier | last
      · exact called thread op answer earlier
      · exact absurd (List.mem_singleton.mp last).symm different
    cases step with
    | stutter => exact ⟨called, active, ended⟩
    | start request =>
        refine ⟨fun thread op answer member => ?_, fun thread program running => ?_,
          fun thread early idle => ?_⟩
        · exact Nat.lt_succ_of_lt (old (.started config.count request) thread op answer
            (fun absurdity => by cases absurdity) member)
        · by_cases fresh : thread = config.count
          · exact Nat.lt_succ_of_le (Nat.le_of_eq fresh)
          · simp only [Config.start, Function.update_of_ne fresh] at running
            exact Nat.lt_succ_of_lt (active thread program running)
        · by_cases fresh : thread = config.count
          · subst fresh
            simp only [Config.start, Function.update_self, reduceCtorEq] at idle
          · simp only [Config.start, Function.update_of_ne fresh] at early idle
            obtain ⟨result, member⟩ := ended thread (by omega) idle
            exact ⟨result, List.mem_append_left _ member⟩
    | finish thread env result running =>
        refine ⟨fun other op answer member => ?_, fun other program runs => ?_,
          fun other early idle => ?_⟩
        · exact old (.finished thread result) other op answer
            (fun absurdity => by cases absurdity) member
        · by_cases same : other = thread
          · subst same
            simp only [Function.update_self, reduceCtorEq] at runs
          · simp only [Function.update_of_ne same] at runs
            exact active other program runs
        · by_cases same : other = thread
          · subst same
            exact ⟨result, List.mem_append_right _ List.mem_cons_self⟩
          · simp only [Function.update_of_ne same] at idle
            obtain ⟨outcome, member⟩ := ended other early idle
            exact ⟨outcome, List.mem_append_left _ member⟩
    | call thread env op next answer state running performed =>
        have caller := active thread _ running
        refine ⟨fun other called' reply member => ?_, fun other program runs => ?_,
          fun other early idle => ?_⟩
        · rcases List.mem_append.mp member with earlier | last
          · exact called other called' reply earlier
          · cases List.mem_singleton.mp last
            exact caller
        · by_cases same : other = thread
          · exact same ▸ caller
          · simp only [Function.update_of_ne same] at runs
            exact active other program runs
        · by_cases same : other = thread
          · subst same
            simp only [Function.update_self, reduceCtorEq] at idle
          · simp only [Function.update_of_ne same] at idle
            obtain ⟨outcome, member⟩ := ended other early idle
            exact ⟨outcome, List.mem_append_left _ member⟩

/-- A start is recorded where the log was. -/
theorem log_of_start (before after : List sys.Event) (request : sys.Request) :
    ∃ back, (execute (before ++ .start request :: after)).log =
      (execute before).log ++ .started (execute before).count request :: back := by
  rw [← List.singleton_append, ← List.append_assoc]
  obtain ⟨back, grown⟩ := log_grows (before ++ [Event.start request]) after
  refine ⟨back, ?_⟩
  rw [← grown, execute_snoc, ← List.singleton_append, ← List.append_assoc]
  rfl

/-- A task that was started was started by an event of the run. -/
theorem exists_start_of_started {events : List sys.Event} {thread : Nat} {request : sys.Request}
    (started : Entry.started thread request ∈ (execute events).log) :
    ∃ before rest, events = before ++ .start request :: rest ∧ (execute before).count = thread := by
  induction events using List.reverseRecOn with
  | nil => exact absurd started List.not_mem_nil
  | append_singleton events event ih =>
      have earlier : Entry.started thread request ∈ (execute events).log →
          ∃ before rest, events ++ [event] = before ++ .start request :: rest ∧
            (execute before).count = thread := by
        intro member
        obtain ⟨before, rest, rfl, counted⟩ := ih member
        exact ⟨before, rest ++ [event], by rw [List.append_assoc, List.cons_append], counted⟩
      rw [execute_snoc] at started
      have step := advance_cases (execute events) event
      revert step started
      generalize (execute events).advance event = after
      intro started step
      cases step with
      | stutter => exact earlier started
      | start served =>
          rcases List.mem_append.mp started with member | last
          · exact earlier member
          · cases List.mem_singleton.mp last
            exact ⟨events, [], rfl, rfl⟩
      | finish | call =>
          rcases List.mem_append.mp started with member | last
          · exact earlier member
          · cases List.mem_singleton.mp last

/-- A task is started by one event. -/
theorem start_unique {before other rest more : List sys.Event} {request served : sys.Request}
    (same : before ++ .start request :: rest = other ++ .start served :: more)
    (count : (execute before).count = (execute other).count) :
    before = other ∧ request = served := by
  have later : ∀ (front middle : List sys.Event) (first : sys.Request),
      (execute front).count < (execute (front ++ .start first :: middle)).count := by
    intro front middle first
    obtain ⟨back, grown⟩ := log_of_start front middle first
    exact lt_count_of_started (grown ▸ List.mem_append_right _ List.mem_cons_self)
  rcases List.append_eq_append_iff.mp same with ⟨middle, rfl, tail⟩ | ⟨middle, rfl, tail⟩
  · cases middle with
    | nil => exact ⟨(List.append_nil _).symm, Event.start.inj (List.cons.inj tail).1⟩
    | cons event middle =>
        obtain ⟨rfl, -⟩ := List.cons.inj tail
        exact absurd count (Nat.ne_of_lt (later before middle request))
  · cases middle with
    | nil => exact ⟨List.append_nil _, (Event.start.inj (List.cons.inj tail).1).symm⟩
    | cons event middle =>
        obtain ⟨rfl, -⟩ := List.cons.inj tail
        exact absurd count (Nat.ne_of_gt (later other middle served))

/-- A finished task makes no more calls. -/
theorem no_calls_after_finish {events : List sys.Event} {front back : List sys.Entry}
    {thread : Nat} {result : sys.Result}
    (split : (execute events).log = front ++ .finished thread result :: back) :
    ∀ op answer, Entry.did thread op answer ∉ back := by
  have ends : (execute events).running thread = none ∧ thread < (execute events).count ∧
      ∀ op answer, Entry.did thread op answer ∉ back := by
    induction events using List.reverseRecOn generalizing back with
    | nil => exact absurd split.symm (List.append_ne_nil_of_right_ne_nil front (List.cons_ne_nil _ _))
    | append_singleton events event ih =>
        obtain ⟨-, active, -⟩ := tasks_execute events
        rw [execute_snoc] at split ⊢
        have step := advance_cases (execute events) event
        revert split step
        generalize (execute events).advance event = after
        intro split step
        have grown : ∀ {body : List sys.Entry} {entry : sys.Entry},
            (execute events).log ++ [entry] = front ++ .finished thread result :: back →
            (execute events).log = front ++ .finished thread result :: body →
              back = body ++ [entry] := by
          intro body entry whole earlier
          rw [earlier, List.append_assoc, List.cons_append] at whole
          exact (List.cons.inj (List.append_cancel_left whole)).2.symm
        cases step with
        | stutter => exact ih split
        | start request =>
            rcases split_snoc split with ⟨-, absurdity⟩ | ⟨body, earlier⟩
            · cases absurdity
            · obtain ⟨idle, below, silent⟩ := ih earlier
              rw [grown split earlier]
              refine ⟨?_, Nat.lt_succ_of_lt below, fun op answer member => ?_⟩
              · simp only [Config.start, Function.update_of_ne (Nat.ne_of_lt below), idle]
              · rcases List.mem_append.mp member with old | last
                · exact silent op answer old
                · cases List.mem_singleton.mp last
        | finish other env outcome running =>
            rcases split_snoc split with ⟨rfl, same⟩ | ⟨body, earlier⟩
            · cases same
              have nothing : back = [] := by
                have whole := List.append_cancel_left split
                exact (List.cons.inj whole).2.symm
              subst nothing
              exact ⟨Function.update_self .., active thread _ running,
                fun op answer member => absurd member List.not_mem_nil⟩
            · obtain ⟨idle, below, silent⟩ := ih earlier
              rw [grown split earlier]
              refine ⟨?_, below, fun op answer member => ?_⟩
              · by_cases same : thread = other
                · subst same
                  exact Function.update_self ..
                · exact (Function.update_of_ne same ..).trans idle
              · rcases List.mem_append.mp member with old | last
                · exact silent op answer old
                · cases List.mem_singleton.mp last
        | call other env op next answer state running performed =>
            rcases split_snoc split with ⟨-, absurdity⟩ | ⟨body, earlier⟩
            · cases absurdity
            · obtain ⟨idle, below, silent⟩ := ih earlier
              have different : thread ≠ other := by
                rintro rfl
                exact absurd (idle.symm.trans running) (Option.some_ne_none _).symm
              rw [grown split earlier]
              refine ⟨(Function.update_of_ne different ..).trans idle, below,
                fun made reply member => ?_⟩
              rcases List.mem_append.mp member with old | last
              · exact silent made reply old
              · exact different (System.Entry.did.inj (List.mem_singleton.mp last)).1
  exact ends.2.2

/-- Whatever follows the end of a task, it makes no calls there. -/
theorem no_calls_behind {events : List sys.Event} {front back : List sys.Entry} {thread : Nat}
    {result : sys.Result} (split : (execute events).log = front ++ back)
    (finished : .finished thread result ∈ front) :
    ∀ op answer, Entry.did thread op answer ∉ back := by
  obtain ⟨start, middle, rfl⟩ := List.append_of_mem finished
  rw [List.append_assoc, List.cons_append] at split
  exact fun op answer made =>
    no_calls_after_finish split op answer (List.mem_append_right _ made)

/-- The calls of a finished task are the ones it made before it finished. -/
theorem ownCalls_of_finished {select : (op : sys.sig.Op) → sys.sig.Answer op → Option κ}
    {events : List sys.Event} {front back : List sys.Entry} {thread : Nat} {result : sys.Result}
    (split : (execute events).log = front ++ .finished thread result :: back) :
    ownCalls select thread (execute events).log = ownCalls select thread front := by
  have silent : ownCalls select thread (.finished thread result :: back) = [] := by
    refine List.eq_nil_iff_forall_not_mem.mpr fun item member => ?_
    obtain ⟨op, answer, inBack, -⟩ := mem_ownCalls.mp member
    rcases List.mem_cons.mp inBack with absurdity | later
    · exact nomatch absurdity
    · exact no_calls_after_finish split op answer later
  rw [split, ownCalls_append, silent, List.append_nil]

/-- **Balance.** If no task makes more than one call of the first family ahead of the
second, and finished tasks have made equally many, then the first family is ahead by one
call of each task in a set of running ones. -/
theorem callsOf_balance {first : (op : sys.sig.Op) → sys.sig.Answer op → Option κ}
    {second : (op : sys.sig.Op) → sys.sig.Answer op → Option ν} {events : List sys.Event}
    (ahead : ∀ thread, (ownCalls first thread (execute events).log).length =
        (ownCalls second thread (execute events).log).length ∨
      (ownCalls first thread (execute events).log).length =
        (ownCalls second thread (execute events).log).length + 1)
    (settled : ∀ thread result, Entry.finished thread result ∈ (execute events).log →
      (ownCalls first thread (execute events).log).length =
        (ownCalls second thread (execute events).log).length) :
    ∃ pending : Finset Nat, (∀ thread ∈ pending, (execute events).running thread ≠ none) ∧
      (callsOf first (execute events).log).length =
        (callsOf second (execute events).log).length + pending.card := by
  obtain ⟨called, -, ended⟩ := tasks_execute events
  refine ⟨(Finset.range (execute events).count).filter fun thread =>
    (ownCalls first thread (execute events).log).length ≠
      (ownCalls second thread (execute events).log).length, ?_, ?_⟩
  · intro thread member idle
    obtain ⟨inRange, unequal⟩ := Finset.mem_filter.mp member
    obtain ⟨result, finished⟩ := ended thread (Finset.mem_range.mp inRange) idle
    exact unequal (settled thread result finished)
  · rw [length_callsOf first called, length_callsOf second called, Finset.card_filter,
      ← Finset.sum_add_distrib]
    refine Finset.sum_congr rfl fun thread _ => ?_
    rcases ahead thread with equal | more
    · rw [if_neg (not_not.mpr equal), equal, Nat.add_zero]
    · rw [if_pos (by omega), more]

end Interaction.System
