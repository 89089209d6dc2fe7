import StratumBridge.Interaction.System

/-! # Observing a run

The log of a run determines the part of the shared state that a family of calls
acts on, and the ghost value of every task. If every task follows a monitor, then
every recorded call was allowed by the ghost its task had at that point.
-/

namespace Interaction.System

variable {sys : System}

section Replay

variable {κ σ : Type} (select : (op : sys.sig.Op) → sys.sig.Answer op → Option κ)

/-- The recorded calls of a family, in order. -/
def callsOf (log : List sys.Entry) : List κ :=
  log.filterMap fun entry =>
    match entry with
    | .did _ op answer => select op answer
    | _ => none

variable {select}

@[simp] theorem callsOf_append (front back : List sys.Entry) :
    callsOf select (front ++ back) = callsOf select front ++ callsOf select back :=
  List.filterMap_append

theorem callsOf_did (thread : Nat) (op : sys.sig.Op) (answer : sys.sig.Answer op) :
    callsOf select [.did thread op answer] = (select op answer).toList := by
  unfold callsOf
  cases chosen : select op answer <;>
    simp only [List.filterMap_cons, List.filterMap_nil, chosen, Option.toList_none,
      Option.toList_some]

theorem mem_callsOf {log : List sys.Entry} {item : κ} :
    item ∈ callsOf select log ↔
      ∃ thread op answer, Entry.did thread op answer ∈ log ∧ select op answer = some item := by
  constructor
  · intro member
    obtain ⟨entry, inLog, chosen⟩ := List.mem_filterMap.mp member
    cases entry with
    | started other request => exact nomatch chosen
    | finished other result => exact nomatch chosen
    | did other op answer => exact ⟨other, op, answer, inLog, chosen⟩
  · rintro ⟨thread, op, answer, inLog, chosen⟩
    exact List.mem_filterMap.mpr ⟨.did thread op answer, inLog, chosen⟩

/-- A selected call was recorded somewhere in the log. -/
theorem exists_split_of_callsOf {log : List sys.Entry} {front back : List κ} {item : κ}
    (split : callsOf select log = front ++ item :: back) :
    ∃ before entry after, log = before ++ entry :: after ∧ callsOf select before = front ∧
      callsOf select [entry] = [item] := by
  obtain ⟨early, late, rfl, first, second⟩ := List.filterMap_eq_append_iff.mp split
  obtain ⟨silent, entry, rest, rfl, nothing, chosen, -⟩ := List.filterMap_eq_cons_iff.mp second
  refine ⟨early ++ silent, entry, rest, (List.append_assoc ..).symm, ?_, ?_⟩
  · rw [callsOf_append]
    have none : callsOf select silent = [] := List.filterMap_eq_nil_iff.mpr nothing
    rw [none, List.append_nil]
    exact first
  · exact List.filterMap_cons_some chosen

/-- The last selected call, with nothing selected behind it. -/
theorem exists_last_call {log : List sys.Entry} {item : κ}
    (last : (callsOf select log).getLast? = some item) :
    ∃ before thread op answer after, log = before ++ .did thread op answer :: after ∧
      select op answer = some item ∧
        ∀ other made reply, Entry.did other made reply ∈ after → select made reply = none := by
  obtain ⟨front, listed⟩ := List.getLast?_eq_some_iff.mp last
  obtain ⟨before, entry, after, split, earlier, one⟩ := exists_split_of_callsOf listed
  obtain ⟨thread, op, answer, member, chosen⟩ :=
    mem_callsOf.mp (one ▸ List.mem_cons_self : item ∈ callsOf select [entry])
  obtain rfl := List.mem_singleton.mp member
  refine ⟨before, thread, op, answer, after, split, chosen, fun other made reply inRest => ?_⟩
  rw [split, callsOf_append, ← List.singleton_append, callsOf_append, one, earlier] at listed
  have rest : callsOf select after = [] :=
    List.append_cancel_left (List.append_cancel_left listed)
  rw [Option.eq_none_iff_forall_ne_some]
  intro selected same
  have listedRest := mem_callsOf.mpr ⟨other, made, reply, inRest, same⟩
  exact absurd (rest ▸ listedRest) List.not_mem_nil

/-- When no item repeats, an item comes from one entry. -/
theorem entry_eq_of_nodup {log : List sys.Entry} (nodup : (callsOf select log).Nodup)
    {thread other : Nat} {op otherOp : sys.sig.Op} {answer : sys.sig.Answer op}
    {otherAnswer : sys.sig.Answer otherOp} {item : κ} (here : Entry.did thread op answer ∈ log)
    (there : Entry.did other otherOp otherAnswer ∈ log) (chosen : select op answer = some item)
    (otherChosen : select otherOp otherAnswer = some item) :
    Entry.did thread op answer = .did other otherOp otherAnswer := by
  induction log with
  | nil => exact nomatch here
  | cons entry rest ih =>
      have later : (callsOf select rest).Nodup :=
        nodup.sublist (List.Sublist.filterMap _ (List.sublist_cons_self entry rest))
      have absent : ∀ {task : Nat} {made : sys.sig.Op} {reply : sys.sig.Answer made},
          entry = .did task made reply → select made reply = some item →
            item ∉ callsOf select rest := by
        rintro task made reply rfl same
        have heads : callsOf select [Entry.did task made reply] = [item] :=
          List.filterMap_cons_some same
        rw [← List.singleton_append, callsOf_append, heads] at nodup
        exact (List.nodup_cons.mp nodup).1
      rcases List.mem_cons.mp here with first | first
      · rcases List.mem_cons.mp there with second | second
        · rw [first, second]
        · exact absurd (mem_callsOf.mpr ⟨other, _, _, second, otherChosen⟩) (absent first.symm chosen)
      · rcases List.mem_cons.mp there with second | second
        · exact absurd (mem_callsOf.mpr ⟨thread, _, _, first, chosen⟩)
            (absent second.symm otherChosen)
        · exact ih later first second

/-- **Replay.** A view of the state moved only by the selected calls is the fold
of those calls over the log. -/
theorem view_eq_replay (view : sys.State → σ) (apply : σ → κ → σ)
    (moves : ∀ op state env answer after, sys.perform op state env = some (answer, after) →
      view after = (select op answer).toList.foldl apply (view state))
    (events : List sys.Event) :
    view (execute events).state =
      (callsOf select (execute events).log).foldl apply (view sys.initial) := by
  refine execute_induction (fun config => view config.state =
    (callsOf select config.log).foldl apply (view sys.initial)) rfl ?_ along_true
  intro config event after ih _ step
  cases step with
  | stutter => exact ih
  | start request =>
      simp only [Config.start, callsOf_append, List.foldl_append, ← ih]
      rfl
  | finish thread env result running =>
      simp only [callsOf_append, List.foldl_append, ← ih]
      rfl
  | call thread env op next answer state running performed =>
      simp only [callsOf_append, List.foldl_append, ← ih]
      rw [moves op config.state env answer state performed]
      cases selected : select op answer <;> simp [callsOf, selected]

/-- A view that the selected calls write holds what the last of them wrote. -/
theorem view_eq_last {select : (op : sys.sig.Op) → sys.sig.Answer op → Option σ}
    (view : sys.State → σ)
    (writes : ∀ op state env answer after, sys.perform op state env = some (answer, after) →
      view after = (select op answer).getD (view state)) (events : List sys.Event) :
    view (execute events).state =
      (callsOf select (execute events).log).getLast?.getD (view sys.initial) := by
  have last : ∀ (written : List σ) (held : σ),
      written.foldl (fun _ value => value) held = written.getLast?.getD held := by
    intro written
    induction written with
    | nil => exact fun _ => rfl
    | cons value written ih =>
        intro held
        rw [List.foldl_cons, ih, List.getLast?_cons, Option.getD_some]
  rw [← last]
  apply view_eq_replay
  intro op state env answer after performed
  rw [writes op state env answer after performed]
  cases select op answer <;> rfl

end Replay

/-- The log only grows. -/
theorem log_grows (front back : List sys.Event) :
    (execute front).log <+: (execute (front ++ back)).log := by
  induction back using List.reverseRecOn with
  | nil => simp only [List.append_nil, List.prefix_refl]
  | append_singleton back event ih =>
      rw [← List.append_assoc, execute_snoc]
      refine ih.trans ?_
      have step := advance_cases (execute (front ++ back)) event
      revert step
      generalize (execute (front ++ back)).advance event = after
      intro step
      cases step with
      | stutter => exact List.prefix_refl _
      | start | finish | call => exact List.prefix_append _ _

/-- The event lets the task make this call in this configuration. -/
def Calls (config : sys.Config) (event : sys.Event) (thread : Nat) (op : sys.sig.Op) : Prop :=
  ∃ env next, event = .step thread env ∧ config.running thread = some (.call op next)

theorem split_snoc {log front back : List sys.Entry} {last entry : sys.Entry}
    (split : log ++ [last] = front ++ entry :: back) :
    (log = front ∧ last = entry) ∨ ∃ body, log = front ++ entry :: body := by
  rcases List.eq_nil_or_concat back with rfl | ⟨body, final, rfl⟩
  · obtain ⟨same, tail⟩ := List.append_inj' split rfl
    exact Or.inl ⟨same, (List.cons.inj tail).1⟩
  · have regrouped : log ++ [last] = (front ++ entry :: body) ++ [final] := by
      rw [split, List.concat_eq_append, List.append_assoc, List.cons_append]
    exact Or.inr ⟨body, (List.append_inj' regrouped rfl).1⟩

/-- Of two entries of a log one comes first. -/
theorem order_of_mem {log : List sys.Entry} {first second : sys.Entry} (inLog : first ∈ log)
    (alsoInLog : second ∈ log) :
    first = second ∨ (∃ before between after,
        log = before ++ first :: (between ++ second :: after)) ∨
      ∃ before between after, log = before ++ second :: (between ++ first :: after) := by
  obtain ⟨before, after, rfl⟩ := List.append_of_mem inLog
  rcases List.mem_append.mp alsoInLog with early | late
  · obtain ⟨start, between, rfl⟩ := List.append_of_mem early
    exact Or.inr (Or.inr ⟨start, between, after, by rw [List.append_assoc, List.cons_append]⟩)
  rcases List.mem_cons.mp late with same | late
  · exact Or.inl same.symm
  · obtain ⟨between, rest, rfl⟩ := List.append_of_mem late
    exact Or.inr (Or.inl ⟨before, between, rest, rfl⟩)

/-- Two entries of a log at given places: the same place, or one before the other. -/
theorem split_cases {log front back before after : List sys.Entry} {here there : sys.Entry}
    (first : log = front ++ here :: back) (second : log = before ++ there :: after) :
    (front = before ∧ here = there ∧ back = after) ∨
      (∃ between, before = front ++ here :: between ∧ back = between ++ there :: after) ∨
        ∃ between, front = before ++ there :: between ∧ after = between ++ here :: back := by
  rcases List.append_eq_append_iff.mp (first.symm.trans second) with
    ⟨rest, longer, tail⟩ | ⟨rest, longer, tail⟩
  · cases rest with
    | nil =>
        obtain ⟨same, tails⟩ := List.cons.inj tail
        exact Or.inl ⟨(longer.trans (List.append_nil _)).symm, same, tails⟩
    | cons entry rest =>
        obtain ⟨rfl, tails⟩ := List.cons.inj tail
        exact Or.inr (Or.inl ⟨rest, longer, tails⟩)
  · cases rest with
    | nil =>
        obtain ⟨same, tails⟩ := List.cons.inj tail
        exact Or.inl ⟨longer.trans (List.append_nil _), same.symm, tails.symm⟩
    | cons entry rest =>
        obtain ⟨rfl, tails⟩ := List.cons.inj tail
        exact Or.inr (Or.inr ⟨rest, longer, tails⟩)

/-- A task that was started is counted. -/
theorem lt_count_of_started {events : List sys.Event} {thread : Nat} {request : sys.Request}
    (started : Entry.started thread request ∈ (execute events).log) :
    thread < (execute events).count := by
  revert thread request
  refine execute_induction (fun config => ∀ {thread request},
    Entry.started thread request ∈ config.log → thread < config.count) ?_ ?_ along_true
  · exact fun absurdity => (nomatch absurdity)
  · intro config event after below _ step
    cases step with
    | stutter => exact below
    | start fresh =>
        intro thread request member
        rcases List.mem_append.mp member with before | last
        · exact Nat.lt_succ_of_lt (below before)
        · cases List.mem_singleton.mp last
          exact Nat.lt_succ_self _
    | finish | call =>
        intro thread request member
        rcases List.mem_append.mp member with before | last
        · exact below before
        · have absurdity := List.mem_singleton.mp last
          cases absurdity

/-- A task starts once. -/
theorem started_once {events : List sys.Event} {front back : List sys.Entry} {thread : Nat}
    {request : sys.Request} (split : (execute events).log = front ++ .started thread request :: back)
    (again : sys.Request) : .started thread again ∉ back := by
  induction events using List.reverseRecOn generalizing back with
  | nil => exact absurd split.symm (List.append_ne_nil_of_right_ne_nil front (List.cons_ne_nil _ _))
  | append_singleton events event ih =>
      rw [execute_snoc] at split
      have step := advance_cases (execute events) event
      revert split step
      generalize (execute events).advance event = after
      intro split step
      have keeps : ∀ entry : sys.Entry, (∀ other, entry = .started thread other →
          ¬thread < (execute events).count) →
          (execute events).log ++ [entry] = front ++ .started thread request :: back →
            .started thread again ∉ back := by
        intro entry fresh whole
        rcases split_snoc whole with ⟨rfl, rfl⟩ | ⟨body, earlier⟩
        · have nothing : back = [] := (List.cons.inj (List.append_cancel_left whole)).2.symm
          exact nothing ▸ List.not_mem_nil
        · rw [earlier, List.append_assoc, List.cons_append] at whole
          obtain rfl := (List.cons.inj (List.append_cancel_left whole)).2
          intro member
          rcases List.mem_append.mp member with old | last
          · exact ih earlier old
          · have member : .started thread request ∈ (execute events).log :=
              earlier ▸ List.mem_append_right _ List.mem_cons_self
            exact fresh again (List.mem_singleton.mp last).symm (lt_count_of_started member)
      cases step with
      | stutter => exact ih split
      | start fresh =>
          refine keeps _ (fun other same => ?_) split
          obtain ⟨rfl, -⟩ := System.Entry.started.inj same
          exact Nat.lt_irrefl _
      | finish | call =>
          refine keeps _ (fun other same => ?_) split
          cases same

/-- A task serves one request. -/
theorem started_unique {events : List sys.Event} {thread : Nat} {request other : sys.Request}
    (started : Entry.started thread request ∈ (execute events).log)
    (alsoStarted : Entry.started thread other ∈ (execute events).log) : request = other := by
  rcases order_of_mem started alsoStarted with same | ⟨before, between, after, split⟩ |
    ⟨before, between, after, split⟩
  · exact (System.Entry.started.inj same).2
  · exact absurd (List.mem_append_right _ List.mem_cons_self) (started_once split other)
  · exact absurd (List.mem_append_right _ List.mem_cons_self) (started_once split request)

/-- A recorded call was made by an event of the run, when the log held what precedes
it, and the answer is the one performing it gave. -/
theorem exists_calls_of_did {events : List sys.Event} {front back : List sys.Entry} {thread : Nat}
    {op : sys.sig.Op} {answer : sys.sig.Answer op}
    (split : (execute events).log = front ++ .did thread op answer :: back) :
    ∃ before event rest, events = before ++ event :: rest ∧ (execute before).log = front ∧
      Calls (execute before) event thread op ∧ ∃ env after,
        sys.perform op (execute before).state env = some (answer, after) := by
  induction events using List.reverseRecOn generalizing back with
  | nil => exact absurd split.symm (List.append_ne_nil_of_right_ne_nil front (List.cons_ne_nil _ _))
  | append_singleton events event ih =>
      have shorter : ∀ body, (execute events).log = front ++ .did thread op answer :: body →
          ∃ before made rest, events ++ [event] = before ++ made :: rest ∧
            (execute before).log = front ∧ Calls (execute before) made thread op ∧ ∃ env after,
              sys.perform op (execute before).state env = some (answer, after) := by
        intro body earlier
        obtain ⟨before, made, rest, whole, same, calls⟩ := ih earlier
        refine ⟨before, made, rest ++ [event], ?_, same, calls⟩
        rw [whole, List.append_assoc, List.cons_append]
      rw [execute_snoc] at split
      have step := advance_cases (execute events) event
      generalize (execute events).advance event = after at split step
      cases step with
      | stutter => exact shorter back split
      | start request =>
          rcases split_snoc split with ⟨-, absurdity⟩ | ⟨body, earlier⟩
          · exact nomatch absurdity
          · exact shorter body earlier
      | finish other env result running =>
          rcases split_snoc split with ⟨-, absurdity⟩ | ⟨body, earlier⟩
          · exact nomatch absurdity
          · exact shorter body earlier
      | call other env called next reply state running performed =>
          rcases split_snoc split with ⟨same, here⟩ | ⟨body, earlier⟩
          · cases here
            exact ⟨events, .step thread env, [], rfl, same, ⟨env, next, rfl, running⟩, env, state,
              performed⟩
          · exact shorter body earlier

/-- A call that never waits is recorded by the event that makes it. -/
theorem exists_did_of_calls {before rest : List sys.Event} {event : sys.Event} {thread : Nat}
    {op : sys.sig.Op} (calls : Calls (execute before) event thread op)
    (ready : ∀ state env, sys.perform op state env ≠ none) :
    ∃ answer, Entry.did thread op answer ∈ (execute (before ++ event :: rest)).log ∧
      ∃ env after, sys.perform op (execute before).state env = some (answer, after) := by
  obtain ⟨env, next, rfl, running⟩ := calls
  obtain ⟨⟨answer, after⟩, performed⟩ :=
    Option.ne_none_iff_exists'.mp (ready (execute before).state env)
  refine ⟨answer, ?_, env, after, performed⟩
  rw [← List.singleton_append, ← List.append_assoc]
  have grown := log_grows (before ++ [Event.step thread env]) rest
  refine grown.subset ?_
  rw [execute_snoc]
  simp only [Config.advance, Config.step, running, performed]
  exact List.mem_append_right _ List.mem_cons_self

section Ghosts

variable (monitor : Monitor sys.sig) (start : sys.Request → monitor.Ghost)

/-- How a log entry moves the ghost of one task. -/
def ghostStep (thread : Nat) (ghost : Option monitor.Ghost) : sys.Entry → Option monitor.Ghost
  | .started other request => if other = thread then some (ghost.getD (start request)) else ghost
  | .did other op answer =>
      if other = thread then ghost.map fun value => monitor.next value op answer else ghost
  | .finished _ _ => ghost

/-- The ghost of a task after a log; none before the task starts. -/
def ghostOf (thread : Nat) (log : List sys.Entry) : Option monitor.Ghost :=
  log.foldl (ghostStep monitor start thread) none

variable {monitor start}

theorem ghostOf_append (thread : Nat) (front back : List sys.Entry) :
    ghostOf monitor start thread (front ++ back) =
      back.foldl (ghostStep monitor start thread) (ghostOf monitor start thread front) := by
  rw [ghostOf, List.foldl_append]
  rfl

theorem ghostOf_snoc (thread : Nat) (front : List sys.Entry) (entry : sys.Entry) :
    ghostOf monitor start thread (front ++ [entry]) =
      ghostStep monitor start thread (ghostOf monitor start thread front) entry :=
  ghostOf_append thread front [entry]

/-- A task that has a ghost keeps having one. -/
theorem ghostOf_append_ne_none {thread : Nat} {front : List sys.Entry} {ghost : monitor.Ghost}
    (known : ghostOf monitor start thread front = some ghost) (back : List sys.Entry) :
    ghostOf monitor start thread (front ++ back) ≠ none := by
  induction back using List.reverseRecOn with
  | nil =>
      rw [List.append_nil, known]
      exact Option.some_ne_none ghost
  | append_singleton back entry ih =>
      obtain ⟨later, current⟩ := Option.ne_none_iff_exists'.mp ih
      rw [← List.append_assoc, ghostOf_snoc, current]
      cases entry with
      | started other request =>
          simp only [ghostStep, Option.getD_some, ite_self, ne_eq, reduceCtorEq, not_false_eq_true]
      | did other op answer =>
          simp only [ghostStep, Option.map_some]
          split <;> exact Option.some_ne_none _
      | finished other result => exact Option.some_ne_none later

/-- A task with a ghost was started. -/
theorem started_of_ghostOf {thread : Nat} {log : List sys.Entry} {ghost : monitor.Ghost}
    (known : ghostOf monitor start thread log = some ghost) :
    ∃ request, Entry.started thread request ∈ log := by
  induction log using List.reverseRecOn generalizing ghost with
  | nil => exact absurd known (Option.some_ne_none ghost).symm
  | append_singleton log entry ih =>
      rw [ghostOf_snoc] at known
      cases before : ghostOf monitor start thread log with
      | some earlier =>
          obtain ⟨request, member⟩ := ih before
          exact ⟨request, List.mem_append_left _ member⟩
      | none =>
          rw [before] at known
          cases entry with
          | started other request =>
              by_cases same : other = thread
              · subst same
                exact ⟨request, List.mem_append_right _ List.mem_cons_self⟩
              · simp only [ghostStep, if_neg same, reduceCtorEq] at known
          | did other op answer =>
              simp only [ghostStep, Option.map_none, ite_self, reduceCtorEq] at known
          | finished other result => exact absurd known (Option.some_ne_none ghost).symm

variable (monitor start) in
/-- The log of a configuration is explained by the monitor. -/
structure Observed (post : monitor.Ghost → sys.Result → Prop) (config : sys.Config) : Prop where
  running : ∀ thread program, config.running thread = some program →
    ∃ ghost, ghostOf monitor start thread config.log = some ghost ∧
      monitor.Follows ghost program post
  fresh : ∀ thread, config.count ≤ thread →
    config.running thread = none ∧ ghostOf monitor start thread config.log = none
  starts : ∀ front thread request back, config.log = front ++ .started thread request :: back →
    ghostOf monitor start thread front = none
  calls : ∀ front thread op answer back, config.log = front ++ .did thread op answer :: back →
    ∃ ghost, ghostOf monitor start thread front = some ghost ∧ monitor.allowed ghost op
  finishes : ∀ front thread result back, config.log = front ++ .finished thread result :: back →
    ∃ ghost, ghostOf monitor start thread front = some ghost ∧ post ghost result

/-- **Observation.** If every task follows the monitor and the recorded answers
are the ones it relies on, the monitor explains every run. -/
theorem observed_execute {post : monitor.Ghost → sys.Result → Prop}
    (programs : ∀ request, monitor.Follows (start request) (sys.program request) post)
    (events : List sys.Event)
    (answered : ∀ thread op answer, Entry.did thread op answer ∈ (execute events).log →
      monitor.answers op answer) :
    Observed monitor start post (execute events) := by
  induction events using List.reverseRecOn with
  | nil =>
      refine ⟨fun _ _ absurdity => (nomatch absurdity), fun _ _ => ⟨rfl, rfl⟩, ?_, ?_, ?_⟩
      · intro front thread request back split
        exact absurd split.symm (List.append_ne_nil_of_right_ne_nil front (List.cons_ne_nil _ back))
      · intro front thread op answer back split
        exact absurd split.symm (List.append_ne_nil_of_right_ne_nil front (List.cons_ne_nil _ back))
      · intro front thread result back split
        exact absurd split.symm (List.append_ne_nil_of_right_ne_nil front (List.cons_ne_nil _ back))
  | append_singleton events event ih =>
      have observed := ih fun thread op answer member =>
        answered thread op answer ((log_grows events [event]).subset member)
      rw [execute_snoc] at answered ⊢
      have step := advance_cases (execute events) event
      revert answered step
      generalize (execute events).advance event = after
      generalize execute events = config at observed
      intro answered step
      cases step with
      | stutter => exact observed
      | start request =>
          have unknown := (observed.fresh config.count (Nat.le_refl _)).2
          refine ⟨?_, ?_, ?_, ?_, ?_⟩
          · intro thread program running
            simp only [Config.start] at running ⊢
            rw [ghostOf_snoc]
            by_cases same : thread = config.count
            · subst same
              rw [Function.update_self] at running
              obtain rfl := Option.some.inj running
              simp only [ghostStep, unknown, if_true, Option.getD_none]
              exact ⟨_, rfl, programs request⟩
            · rw [Function.update_of_ne same] at running
              simp only [ghostStep, if_neg (Ne.symm same)]
              exact observed.running thread program running
          · intro thread later
            simp only [Config.start] at later ⊢
            have different : thread ≠ config.count := by omega
            obtain ⟨idle, unseen⟩ := observed.fresh thread (by omega)
            rw [Function.update_of_ne different, ghostOf_snoc]
            simp only [ghostStep, if_neg (Ne.symm different)]
            exact ⟨idle, unseen⟩
          · intro front thread asked back split
            rcases split_snoc split with ⟨rfl, same⟩ | ⟨body, earlier⟩
            · cases same
              exact unknown
            · exact observed.starts front thread asked body earlier
          · intro front thread op answer back split
            rcases split_snoc split with ⟨-, absurdity⟩ | ⟨body, earlier⟩
            · exact nomatch absurdity
            · exact observed.calls front thread op answer body earlier
          · intro front thread result back split
            rcases split_snoc split with ⟨-, absurdity⟩ | ⟨body, earlier⟩
            · exact nomatch absurdity
            · exact observed.finishes front thread result body earlier
      | finish thread env result running =>
          obtain ⟨ghost, known, follows⟩ := observed.running thread _ running
          refine ⟨?_, ?_, ?_, ?_, ?_⟩
          · intro other program runs
            simp only at runs ⊢
            rw [ghostOf_snoc]
            by_cases same : other = thread
            · rw [same, Function.update_self] at runs
              exact nomatch runs
            · rw [Function.update_of_ne same] at runs
              exact observed.running other program runs
          · intro other later
            obtain ⟨idle, unseen⟩ := observed.fresh other later
            refine ⟨?_, by rw [ghostOf_snoc]; exact unseen⟩
            by_cases same : other = thread
            · rw [same]
              exact Function.update_self ..
            · exact (Function.update_of_ne same ..).trans idle
          · intro front other asked back split
            rcases split_snoc split with ⟨-, absurdity⟩ | ⟨body, earlier⟩
            · exact nomatch absurdity
            · exact observed.starts front other asked body earlier
          · intro front other op answer back split
            rcases split_snoc split with ⟨-, absurdity⟩ | ⟨body, earlier⟩
            · exact nomatch absurdity
            · exact observed.calls front other op answer body earlier
          · intro front other outcome back split
            rcases split_snoc split with ⟨rfl, same⟩ | ⟨body, earlier⟩
            · cases same
              exact ⟨ghost, known, follows⟩
            · exact observed.finishes front other outcome body earlier
      | call thread env op next answer state running performed =>
          obtain ⟨ghost, known, allowed, follows⟩ := observed.running thread _ running
          refine ⟨?_, ?_, ?_, ?_, ?_⟩
          · intro other program runs
            simp only at runs ⊢
            rw [ghostOf_snoc]
            by_cases same : other = thread
            · subst same
              rw [Function.update_self] at runs
              obtain rfl := Option.some.inj runs
              simp only [ghostStep, if_true, known, Option.map_some]
              exact ⟨_, rfl, follows answer
                (answered other op answer (List.mem_append_right _ List.mem_cons_self))⟩
            · rw [Function.update_of_ne same] at runs
              simp only [ghostStep, if_neg (Ne.symm same)]
              exact observed.running other program runs
          · intro other later
            obtain ⟨idle, unseen⟩ := observed.fresh other later
            have different : other ≠ thread := by
              rintro rfl
              exact absurd (idle.symm.trans running) (Option.some_ne_none _).symm
            refine ⟨(Function.update_of_ne different ..).trans idle, ?_⟩
            rw [ghostOf_snoc]
            simp only [ghostStep, if_neg (Ne.symm different)]
            exact unseen
          · intro front other asked back split
            rcases split_snoc split with ⟨-, absurdity⟩ | ⟨body, earlier⟩
            · exact nomatch absurdity
            · exact observed.starts front other asked body earlier
          · intro front other called reply back split
            rcases split_snoc split with ⟨rfl, same⟩ | ⟨body, earlier⟩
            · cases same
              exact ⟨ghost, known, allowed⟩
            · exact observed.calls front other called reply body earlier
          · intro front other outcome back split
            rcases split_snoc split with ⟨-, absurdity⟩ | ⟨body, earlier⟩
            · exact nomatch absurdity
            · exact observed.finishes front other outcome body earlier

end Ghosts

end Interaction.System
