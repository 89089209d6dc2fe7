import StratumBridge.Interaction.Recording

/-! # Owned views

A task owns a view of the shared state if, from its start on, no other task changes it. What
it does with the view can then be followed through its program alone.
-/

namespace Interaction.System

variable {sys : System} {σ κ α β : Type} (view : sys.State → σ)
  (select : (op : sys.sig.Op) → sys.sig.Answer op → Option κ)

/-- From this view and these calls of its own, the task can only end in the postcondition,
as long as nobody else changes the view. -/
def Ensures : Program sys.sig α → σ → List κ → (α → σ → List κ → Prop) → Prop
  | .done result, held, calls, post => post result held calls
  | .call op next, held, calls, post =>
      ∀ state env answer after, view state = held →
        sys.perform op state env = some (answer, after) →
          Ensures (next answer) (view after) (calls ++ (select op answer).toList) post

/-- The operation neither changes the view nor is recorded. -/
def Spares (op : sys.sig.Op) : Prop :=
  ∀ state env answer after, sys.perform op state env = some (answer, after) →
    view after = view state ∧ select op answer = none

section Rules

variable {view select} {held : σ} {calls : List κ}

theorem Ensures.bind {first : Program sys.sig α} {rest : α → Program sys.sig β}
    {middle : α → σ → List κ → Prop} {post : β → σ → List κ → Prop}
    (head : Ensures view select first held calls middle)
    (tail : ∀ result held calls, middle result held calls →
      Ensures view select (rest result) held calls post) :
    Ensures view select (first >>= rest) held calls post := by
  induction first generalizing held calls with
  | done result => exact tail result held calls head
  | call op next ih =>
      exact fun state env answer after same performed =>
        ih answer (head state env answer after same performed)

theorem Ensures.mono {task : Program sys.sig α} {post weaker : α → σ → List κ → Prop}
    (ensures : Ensures view select task held calls post)
    (weaken : ∀ result held calls, post result held calls → weaker result held calls) :
    Ensures view select task held calls weaker := by
  induction task generalizing held calls with
  | done result => exact weaken result held calls ensures
  | call op next ih =>
      exact fun state env answer after same performed =>
        ih answer (ensures state env answer after same performed)

theorem ensures_true (task : Program sys.sig α) :
    Ensures view select task held calls fun _ _ _ => True := by
  induction task generalizing held calls with
  | done result => trivial
  | call op next ih => exact fun _ _ answer _ _ _ => ih answer

/-- **Frame rule.** A task of operations that leave the view as it is, and record nothing. -/
theorem ensures_of_held {task : Program sys.sig α}
    (within : Program.Within (fun op => ∀ state env answer after, view state = held →
      sys.perform op state env = some (answer, after) →
        view after = held ∧ select op answer = none) task) :
    Ensures view select task held calls fun _ after made => after = held ∧ made = calls := by
  induction task with
  | done result => exact ⟨rfl, rfl⟩
  | call op next ih =>
      intro state env answer after same performed
      obtain ⟨kept, silent⟩ := within.1 state env answer after same performed
      rw [kept, silent, Option.toList_none, List.append_nil]
      exact ih answer (within.2 answer)

/-- A task of sparing operations leaves the view and the calls alone. -/
theorem ensures_of_within {task : Program sys.sig α}
    (within : Program.Within (Spares view select) task) :
    Ensures view select task held calls fun _ after made => after = held ∧ made = calls := by
  refine ensures_of_held (within.mono fun op spares state env answer after same performed => ?_)
  rw [← same]
  exact spares state env answer after performed

/-- A prefix of sparing operations can be skipped. -/
theorem ensures_bind_of_within {first : Program sys.sig α} {rest : α → Program sys.sig β}
    {post : β → σ → List κ → Prop} (within : Program.Within (Spares view select) first)
    (tail : ∀ result, Ensures view select (rest result) held calls post) :
    Ensures view select (first >>= rest) held calls post := by
  refine (ensures_of_within within).bind ?_
  rintro result after made ⟨rfl, rfl⟩
  exact tail result

end Rules

/-! ## The run rule -/

/-- The view is as the task expects when it starts, and no other task changes it after. -/
def Owns (thread : Nat) (pre : sys.Request → σ → Prop) (config : sys.Config) : sys.Event → Prop
  | .start request => config.count = thread → pre request (view config.state)
  | .step other env => other ≠ thread → thread < config.count →
      view (config.step other env).state = view config.state

/-- Where an owner stands. -/
inductive Owned (thread : Nat) (post : sys.Request → sys.Result → σ → List κ → Prop)
    (config : sys.Config) : Prop where
  | waiting (later : config.count ≤ thread) (idle : config.running thread = none)
      (silent : ownCalls select thread config.log = [])
      (unfinished : ∀ result, Entry.finished thread result ∉ config.log)
  | running (started : thread < config.count) (request : sys.Request)
      (program : Program sys.sig sys.Result) (active : config.running thread = some program)
      (logged : Entry.started thread request ∈ config.log)
      (unfinished : ∀ result, Entry.finished thread result ∉ config.log)
      (ensures : Ensures view select program (view config.state)
        (ownCalls select thread config.log) (post request))
  | ended (started : thread < config.count) (request : sys.Request)
      (idle : config.running thread = none) (logged : Entry.started thread request ∈ config.log)
      (reached : ∀ result, Entry.finished thread result ∈ config.log →
        post request result (view config.state) (ownCalls select thread config.log))

variable {view select} {thread : Nat} {pre : sys.Request → σ → Prop}
  {post : sys.Request → sys.Result → σ → List κ → Prop} {events : List sys.Event}

/-- A new entry of another kind or task changes nothing for an owner. -/
theorem Owned.other {config after : sys.Config} (owned : Owned view select thread post config)
    (entry : sys.Entry) (log : after.log = config.log ++ [entry])
    (silent : ownCalls select thread [entry] = [])
    (unfinished : ∀ result, entry ≠ Entry.finished thread result)
    (view_eq : thread < config.count → view after.state = view config.state)
    (count : thread < config.count → thread < after.count)
    (waits : config.count ≤ thread → after.count ≤ thread)
    (running : after.running thread = config.running thread) :
    Owned view select thread post after := by
  have calls : ownCalls select thread after.log = ownCalls select thread config.log := by
    rw [log, ownCalls_append, silent, List.append_nil]
  have finishes : ∀ result, Entry.finished thread result ∈ after.log →
      Entry.finished thread result ∈ config.log := by
    intro result member
    rw [log] at member
    rcases List.mem_append.mp member with earlier | last
    · exact earlier
    · exact absurd (List.mem_singleton.mp last).symm (unfinished result)
  have grows : ∀ {earlier : sys.Entry}, earlier ∈ config.log → earlier ∈ after.log :=
    fun member => log ▸ List.mem_append_left _ member
  cases owned with
  | waiting later idle quiet none =>
      exact .waiting (waits later) (running.trans idle) (calls.trans quiet)
        fun result member => none result (finishes result member)
  | running started request program active logged none ensures =>
      refine .running (count started) request program (running.trans active) (grows logged)
        (fun result member => none result (finishes result member)) ?_
      rw [view_eq started, calls]
      exact ensures
  | ended started request idle logged reached =>
      refine .ended (count started) request (running.trans idle) (grows logged) ?_
      intro result member
      rw [view_eq started, calls]
      exact reached result (finishes result member)

/-- **Ownership.** A task that owns a view and finishes has reached its postcondition, which
still holds of the view at the end of the run. -/
theorem ensures_execute (owns : Along (Owns view thread pre) events)
    (programs : ∀ request held, pre request held →
      Ensures view select (sys.program request) held [] (post request)) :
    Owned view select thread post (execute events) := by
  refine execute_induction (Owned view select thread post) ?_ ?_ owns
  · exact .waiting (Nat.zero_le _) rfl rfl fun _ => List.not_mem_nil
  · intro config event after owned owning step
    cases step with
    | stutter => exact owned
    | start request =>
        by_cases fresh : config.count = thread
        · subst fresh
          cases owned with
          | running started => exact absurd started (Nat.lt_irrefl _)
          | ended started => exact absurd started (Nat.lt_irrefl _)
          | waiting later idle silent unfinished =>
              have calls : ownCalls select config.count (config.start request).log = [] := by
                rw [Config.start, ownCalls_append, silent]
                rfl
              refine .running (Nat.lt_succ_self _) request _ (Function.update_self ..)
                (List.mem_append_right _ List.mem_cons_self) ?_ ?_
              · intro result member
                rcases List.mem_append.mp member with earlier | last
                · exact unfinished result earlier
                · cases List.mem_singleton.mp last
              · rw [calls]
                exact programs request _ (owning rfl)
        · exact owned.other (.started config.count request) rfl rfl (fun _ absurdity => by cases absurdity)
            (fun _ => rfl) (fun started => Nat.lt_succ_of_lt started)
            (fun waits => Nat.lt_of_le_of_ne waits fresh)
            (Function.update_of_ne (Ne.symm fresh) _ _)
    | finish other env result active =>
        by_cases own : other = thread
        · subst own
          cases owned with
          | waiting later idle => cases idle.symm.trans active
          | ended started request idle => cases idle.symm.trans active
          | running started request program now logged unfinished ensures =>
              obtain rfl := Option.some.inj (now.symm.trans active)
              refine .ended started request (Function.update_self ..)
                (List.mem_append_left _ logged) ?_
              intro reached member
              have same : reached = result := by
                rcases List.mem_append.mp member with earlier | last
                · exact absurd earlier (unfinished reached)
                · exact (System.Entry.finished.inj (List.mem_singleton.mp last)).2
              subst same
              rw [ownCalls_append]
              exact (List.append_nil (ownCalls select other config.log)).symm ▸ ensures
        · exact owned.other (.finished other result) rfl rfl
            (fun _ same => own (System.Entry.finished.inj same).1) (fun _ => rfl) id id
            (Function.update_of_ne (Ne.symm own) _ _)
    | call other env op next answer state active performed =>
        by_cases own : other = thread
        · subst own
          cases owned with
          | waiting later idle => cases idle.symm.trans active
          | ended started request idle => cases idle.symm.trans active
          | running started request program now logged unfinished ensures =>
              obtain rfl := Option.some.inj (now.symm.trans active)
              refine .running started request _ (Function.update_self ..)
                (List.mem_append_left _ logged) ?_ ?_
              · intro result member
                rcases List.mem_append.mp member with earlier | last
                · exact unfinished result earlier
                · cases List.mem_singleton.mp last
              · rw [ownCalls_append, ownCalls_did]
                exact ensures config.state env answer state rfl performed
        · have kept : thread < config.count → view state = view config.state := by
            intro started
            have moved := owning own started
            rw [Config.step, active] at moved
            simpa only [performed] using moved
          exact owned.other (.did other op answer) rfl (ownCalls_did_other own op answer) (fun _ absurdity => by cases absurdity)
            kept id id (Function.update_of_ne (Ne.symm own) _ _)

/-- A finished owner has reached its postcondition. -/
theorem Owned.reached (owned : Owned view select thread post (execute events))
    {request : sys.Request} {result : sys.Result}
    (started : Entry.started thread request ∈ (execute events).log)
    (finished : Entry.finished thread result ∈ (execute events).log) :
    post request result (view (execute events).state)
      (ownCalls select thread (execute events).log) := by
  cases owned with
  | waiting _ _ _ unfinished => exact absurd finished (unfinished result)
  | running _ _ _ _ _ unfinished => exact absurd finished (unfinished result)
  | ended _ served _ logged reached =>
      obtain rfl := started_unique logged started
      exact reached result finished

/-- Every task that exists was started. -/
theorem started_of_lt (early : thread < (execute events).count) :
    ∃ request, Entry.started thread request ∈ (execute events).log := by
  have listed : ∀ thread < (execute events).count,
      ∃ request, Entry.started thread request ∈ (execute events).log := by
    refine execute_induction (fun config => ∀ thread < config.count,
      ∃ request, Entry.started thread request ∈ config.log) ?_ ?_ along_true
    · exact fun thread early => absurd early (Nat.not_lt_zero thread)
    · intro config event after ih _ step
      have keeps : ∀ entry, ∀ thread < config.count,
          ∃ request, Entry.started thread request ∈ config.log ++ [entry] := by
        intro entry thread early
        obtain ⟨request, member⟩ := ih thread early
        exact ⟨request, List.mem_append_left _ member⟩
      cases step with
      | stutter => exact ih
      | start request =>
          intro thread early
          rcases Nat.lt_succ_iff_lt_or_eq.mp early with before | rfl
          · exact keeps _ thread before
          · exact ⟨request, List.mem_append_right _ List.mem_cons_self⟩
      | finish | call => exact keeps _
  exact listed thread early

/-- A task owns a view that it finds as it expects and that the later calls of other tasks, made
where they are made, keep. -/
theorem owns_of_kept
    (found : ∀ before request rest, events = before ++ .start request :: rest →
      (execute before).count = thread → pre request (view (execute before).state))
    (kept : ∀ before other op answer back env after, before <+: events →
      (execute events).log = (execute before).log ++ .did other op answer :: back →
      other ≠ thread → thread < (execute before).count →
      sys.perform op (execute before).state env = some (answer, after) →
        view after = view (execute before).state) :
    Along (Owns view thread pre) events := by
  rintro before event rest rfl
  cases event with
  | start request => exact found before request rest rfl
  | step other env =>
      intro different early
      have grown := log_grows (before ++ [.step other env]) rest
      rw [execute_snoc, List.append_assoc, List.singleton_append] at grown
      have step := advance_cases (execute before) (.step other env)
      change view ((execute before).advance (.step other env)).state = _
      revert step grown
      generalize (execute before).advance (.step other env) = after
      intro grown step
      cases step with
      | stutter | finish => rfl
      | call _ _ op next answer state running performed =>
          obtain ⟨back, whole⟩ := grown
          refine kept before other op answer back env state (List.prefix_append _ _) ?_ different
            early performed
          rw [← whole, List.append_assoc, List.singleton_append]

/-- A task owns a view that no later call of another task can change. -/
theorem owns_of_spared
    (spared : ∀ front request between other op answer back,
      (execute events).log =
        front ++ .started thread request :: (between ++ .did other op answer :: back) →
      other ≠ thread → ∀ state env after, sys.perform op state env = some (answer, after) →
        view after = view state) :
    Along (Owns view thread fun _ _ => True) events := by
  refine owns_of_kept (fun _ _ _ _ _ => trivial) ?_
  intro before other op answer back env after _ whole different early performed
  obtain ⟨request, started⟩ := started_of_lt early
  obtain ⟨front, between, split⟩ := List.append_of_mem started
  refine spared front request between other op answer back ?_ different _ env _ performed
  rw [whole, split, List.append_assoc, List.cons_append]

end Interaction.System
