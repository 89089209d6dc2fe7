import StratumBridge.Interaction.Draining

/-! # Resources that tasks take and give back

A resource has some units. Calls take units and give them back, and a call that wants a unit
waits while none is left. Tasks that give back what they take, and that wait only for resources
ranked above the ones they hold, never wait for each other in a circle.
-/

namespace Interaction

variable {sys : System} {ρ : Type}

/-- The resources of a system. -/
structure Supply (sys : System) (ρ : Type) where
  /-- The call takes (`true`) a unit or gives one back (`false`). -/
  turns : (op : sys.sig.Op) → sys.sig.Answer op → Option (ρ × Bool)
  /-- The resource the call waits for. -/
  wants : sys.sig.Op → Option ρ
  /-- The call is made under a unit of the resource. -/
  under : sys.sig.Op → Option ρ
  rank : ρ → Nat
  units : ρ → Nat
  left : sys.State → ρ → Nat
  positive : ∀ resource, 0 < units resource
  initially : ∀ resource, left sys.initial resource = units resource
  waits : ∀ op state env, sys.perform op state env = none →
    ∃ resource, wants op = some resource ∧ left state resource = 0
  kept : ∀ op state env answer after resource, sys.perform op state env = some (answer, after) →
    (∀ turn, turns op answer ≠ some (resource, turn)) → left after resource = left state resource
  taken : ∀ op state env answer after resource, sys.perform op state env = some (answer, after) →
    turns op answer = some (resource, true) → left state resource = left after resource + 1
  given : ∀ op state env answer after resource, sys.perform op state env = some (answer, after) →
    turns op answer = some (resource, false) → left state resource < units resource →
      left after resource = left state resource + 1

namespace Supply

variable [DecidableEq ρ]

/-- The turn a call makes of one resource. -/
def turnOf (resource : ρ) (item : ρ × Bool) : Option Bool :=
  if item.1 = resource then some item.2 else none

/-- After these turns a task holds a unit of the resource. -/
def Holding (resource : ρ) (turns : List (ρ × Bool)) : Prop :=
  (turns.filterMap (turnOf resource)).getLast? = some true

instance (resource : ρ) (turns : List (ρ × Bool)) : Decidable (Holding resource turns) :=
  inferInstanceAs (Decidable (_ = _))

theorem not_holding_nil (resource : ρ) : ¬Holding resource [] := nofun

theorem holding_snoc_own (resource : ρ) (turns : List (ρ × Bool)) (turn : Bool) :
    Holding resource (turns ++ [(resource, turn)]) ↔ turn = true := by
  have own : [(resource, turn)].filterMap (turnOf resource) = [turn] :=
    List.filterMap_cons_some (if_pos rfl)
  rw [Holding, List.filterMap_append, own, List.getLast?_concat, Option.some.injEq]

theorem holding_snoc_other {resource other : ρ} (different : other ≠ resource)
    (turns : List (ρ × Bool)) (turn : Bool) :
    Holding resource (turns ++ [(other, turn)]) ↔ Holding resource turns := by
  have silent : [(other, turn)].filterMap (turnOf resource) = [] :=
    List.filterMap_cons_none (if_neg different)
  rw [Holding, Holding, List.filterMap_append, silent, List.append_nil]

variable (supply : Supply sys ρ)

/-- A task takes a unit only when it holds none of the resource, gives back what it holds, waits
only for resources above the ones it holds, makes guarded calls under what it holds, and ends
with empty hands. -/
@[reducible] def protocol : Protocol sys.sig sys.Request (ρ × Bool) sys.Result where
  select := supply.turns
  permits := fun _ turns op =>
    (∀ resource, supply.wants op = some resource →
      ∀ other, Holding other turns → supply.rank other < supply.rank resource) ∧
    (∀ resource, supply.under op = some resource → Holding resource turns) ∧
    ∀ answer resource turn, supply.turns op answer = some (resource, turn) →
      (Holding resource turns ↔ turn = false)
  answers := fun _ _ => True
  completes := fun _ turns _ => ∀ resource, ¬Holding resource turns

/-- Every task obeys the protocol. -/
def Respected : Prop :=
  ∀ request, supply.protocol.Obeys request [] (sys.program request)
    (supply.protocol.completes request)

variable {supply}

theorem Respected.explained (respected : supply.Respected) (events : List sys.Event) :
    System.Explained supply.protocol (System.execute events).log :=
  System.explained_execute respected events fun _ _ _ _ => trivial

/-! ## What a task carries -/

section Carries

variable (supply) {α β : Type}

/-- A task that holds these resources, and no others, obeys the protocol and ends holding the
ones stated. -/
def Carries (held : Finset ρ) (task : Program sys.sig α) (after : α → Finset ρ) : Prop :=
  ∀ request turns, (∀ resource, Holding resource turns ↔ resource ∈ held) →
    supply.protocol.Obeys request turns task fun later result =>
      ∀ resource, Holding resource later ↔ resource ∈ after result

/-- The call waits for nothing, needs nothing and turns nothing. -/
def Idle (op : sys.sig.Op) : Prop :=
  supply.wants op = none ∧ supply.under op = none ∧ ∀ answer, supply.turns op answer = none

variable {supply} {held : Finset ρ}

theorem carries_done (result : α) {after : α → Finset ρ} (same : after result = held) :
    supply.Carries held (.done result) after :=
  fun _ _ holding resource => same ▸ holding resource

/-- **Sequencing rule.** -/
theorem Carries.bind {first : Program sys.sig α} {rest : α → Program sys.sig β}
    {middle : α → Finset ρ} {after : β → Finset ρ} (head : supply.Carries held first middle)
    (tail : ∀ result, supply.Carries (middle result) (rest result) after) :
    supply.Carries held (first >>= rest) after :=
  fun request turns holding =>
    (head request turns holding).bind fun later result now => tail result request later now

/-- A task of idle calls carries along what it holds. -/
theorem carries_of_idle {task : Program sys.sig α} (idle : Program.Within supply.Idle task) :
    supply.Carries held task fun _ => held := by
  intro request turns holding
  have ignored : Program.Within supply.protocol.Ignores task := by
    refine Program.Within.mono idle ?_
    rintro op ⟨unwaited, unguarded, unturned⟩
    refine ⟨fun _ _ => ⟨?_, ?_, ?_⟩, unturned⟩
    · exact fun resource wanted => nomatch unwaited.symm.trans wanted
    · exact fun resource guarded => nomatch unguarded.symm.trans guarded
    · exact fun answer resource turn made => nomatch (unturned answer).symm.trans made
  refine (Protocol.obeys_of_within ignored).mono ?_
  rintro after result rfl
  exact holding

/-- A prefix of idle calls can be skipped. -/
theorem carries_skip {first : Program sys.sig α} {rest : α → Program sys.sig β}
    {after : β → Finset ρ} (idle : Program.Within supply.Idle first)
    (tail : ∀ result, supply.Carries held (rest result) after) :
    supply.Carries held (first >>= rest) after :=
  (carries_of_idle idle).bind tail

/-- What a turn leaves in the hands of a task that may take it. -/
inductive Handled (held : Finset ρ) : Option (ρ × Bool) → Finset ρ → Prop where
  | nothing : Handled held none held
  | takes (resource : ρ) (free : resource ∉ held) :
      Handled held (some (resource, true)) (insert resource held)
  | gives (resource : ρ) (has : resource ∈ held) :
      Handled held (some (resource, false)) (held.erase resource)

/-- **Call rule.** -/
theorem carries_call (op : sys.sig.Op) {next : sys.sig.Answer op → Program sys.sig α}
    {after : α → Finset ρ}
    (above : ∀ resource, supply.wants op = some resource →
      ∀ other ∈ held, supply.rank other < supply.rank resource)
    (guarded : ∀ resource, supply.under op = some resource → resource ∈ held)
    (tail : ∀ answer, ∃ now, Handled held (supply.turns op answer) now ∧
      supply.Carries now (next answer) after) :
    supply.Carries held (.call op next) after := by
  intro request turns holding
  refine ⟨⟨fun resource wanted other held => above resource wanted other ((holding other).mp held),
    fun resource needed => (holding resource).mpr (guarded resource needed),
    fun answer resource turn made => ?_⟩, fun answer _ => ?_⟩
  · obtain ⟨now, handled, -⟩ := tail answer
    rw [made] at handled
    cases handled with
    | takes _ free => exact iff_of_false ((holding resource).not.mpr free) nofun
    | gives _ has => exact iff_of_true ((holding resource).mpr has) rfl
  · obtain ⟨now, handled, carries⟩ := tail answer
    change supply.protocol.Obeys request (turns ++ (supply.turns op answer).toList) _ _
    refine carries request _ fun resource => ?_
    generalize supply.turns op answer = made at handled
    cases handled with
    | nothing => rw [Option.toList_none, List.append_nil, holding]
    | takes other free =>
        rw [Option.toList_some, Finset.mem_insert]
        by_cases same : other = resource
        · subst same
          exact iff_of_true ((holding_snoc_own other turns true).mpr rfl) (Or.inl rfl)
        · rw [holding_snoc_other same, holding, or_iff_right (Ne.symm same)]
    | gives other has =>
        rw [Option.toList_some, Finset.mem_erase]
        by_cases same : other = resource
        · subst same
          exact iff_of_false ((holding_snoc_own other turns false).not.mpr nofun)
            fun absurdity => absurdity.1 rfl
        · rw [holding_snoc_other same, holding, and_iff_right (Ne.symm same)]

/-- Tasks that begin and end with empty hands respect the supply. -/
theorem respected_of_carries
    (carries : ∀ request, supply.Carries ∅ (sys.program request) fun _ => ∅) :
    supply.Respected := by
  intro request
  refine (carries request request [] fun resource => ?_).mono fun later result empty resource => ?_
  · exact iff_of_false (not_holding_nil resource) (Finset.notMem_empty resource)
  · exact (empty resource).not.mpr (Finset.notMem_empty resource)

end Carries

/-! ## Counting -/

/-- The turns of one resource in one direction. -/
def turned (supply : Supply sys ρ) (resource : ρ) (turn : Bool) (op : sys.sig.Op)
    (answer : sys.sig.Answer op) : Option (ρ × Bool) :=
  (supply.turns op answer).bind fun item => if item = (resource, turn) then some item else none

theorem length_ownCalls_turned (resource : ρ) (turn : Bool) (thread : Nat)
    (log : List sys.Entry) :
    (System.ownCalls (supply.turned resource turn) thread log).length =
      (System.ownCalls supply.turns thread log).count (resource, turn) := by
  change (System.ownCalls (fun op answer => (supply.turns op answer).bind _) thread log).length = _
  rw [System.ownCalls_bind, List.length_filterMap_eq_countP, List.count]
  refine List.countP_congr fun item _ => ?_
  by_cases same : item = (resource, turn)
  · simp only [same, if_true, Option.isSome_some, beq_self_eq_true]
  · simp only [if_neg same, Option.isSome_none, beq_eq_false_iff_ne.mpr same]

/-- A task has taken a unit more than it gave back exactly while it holds one. -/
theorem Respected.count_own (respected : supply.Respected) (events : List sys.Event)
    (thread : Nat) (resource : ρ) {front back : List sys.Entry}
    (split : (System.execute events).log = front ++ back) :
    (System.ownCalls supply.turns thread front).count (resource, true) =
      (System.ownCalls supply.turns thread front).count (resource, false) +
        if Holding resource (System.ownCalls supply.turns thread front) then 1 else 0 := by
  refine (respected.explained events).ownCalls_induction thread (motive := fun turns =>
    turns.count (resource, true) = turns.count (resource, false) +
      if Holding resource turns then 1 else 0) ?_ ?_ split
  · rw [if_neg (not_holding_nil resource)]
    rfl
  · rintro request turns op answer balanced ⟨-, -, permitted⟩
    change (turns ++ (supply.turns op answer).toList).count _ =
      (turns ++ (supply.turns op answer).toList).count _ +
        if Holding resource (turns ++ (supply.turns op answer).toList) then 1 else 0
    cases made : supply.turns op answer with
    | none => rwa [Option.toList_none, List.append_nil]
    | some item =>
        obtain ⟨other, turn⟩ := item
        rw [Option.toList_some, List.count_append, List.count_append, List.count_singleton,
          List.count_singleton]
        by_cases same : other = resource
        · subst same
          have before := permitted answer other turn made
          have now := holding_snoc_own other turns turn
          cases turn with
          | true =>
              rw [if_neg (before.not.mpr nofun)] at balanced
              rw [if_pos (now.mpr rfl), balanced]
              simp only [beq_iff_eq, Prod.mk.injEq, true_and, if_true, Bool.true_eq_false, if_false,
                Nat.add_zero]
          | false =>
              rw [if_pos (before.mpr rfl)] at balanced
              rw [if_neg (now.not.mpr nofun), balanced]
              simp only [beq_iff_eq, Prod.mk.injEq, true_and, if_true, Bool.false_eq_true, if_false,
                Nat.add_zero]
        · have still := holding_snoc_other same turns turn
          have none_of : ∀ direction, ((other, turn) == (resource, direction)) = false :=
            fun direction => beq_eq_false_iff_ne.mpr fun absurdity =>
              same (Prod.mk.inj absurdity).1
          simp only [none_of, Bool.false_eq_true, if_false, Nat.add_zero, still, balanced]

variable (supply) in
/-- The tasks of a run that hold a unit. -/
def holders (resource : ρ) (config : sys.Config) : Finset Nat :=
  (Finset.range config.count).filter fun thread =>
    Holding resource (System.ownCalls supply.turns thread config.log)

theorem mem_holders {events : List sys.Event} {resource : ρ} {thread : Nat} :
    thread ∈ supply.holders resource (System.execute events) ↔
      Holding resource (System.ownCalls supply.turns thread (System.execute events).log) := by
  rw [holders, Finset.mem_filter, Finset.mem_range, and_iff_right_iff_imp]
  intro holding
  have made : System.ownCalls supply.turns thread (System.execute events).log ≠ [] := by
    intro nothing
    exact not_holding_nil resource (nothing ▸ holding)
  obtain ⟨item, member⟩ := List.exists_mem_of_ne_nil _ made
  obtain ⟨op, answer, called, -⟩ := System.mem_ownCalls.mp member
  exact (System.tasks_execute events).1 thread op answer called

/-- A holder is running. -/
theorem Respected.running_of_holder (respected : supply.Respected) {events : List sys.Event}
    {resource : ρ} {thread : Nat}
    (holder : thread ∈ supply.holders resource (System.execute events)) :
    (System.execute events).running thread ≠ none := by
  intro idle
  have below : thread < (System.execute events).count :=
    Finset.mem_range.mp (Finset.mem_filter.mp holder).1
  obtain ⟨result, finished⟩ := (System.tasks_execute events).2.2 thread below idle
  obtain ⟨front, back, split⟩ := List.append_of_mem finished
  obtain ⟨request, -, empty⟩ :=
    (respected.explained events).finishes front thread result back split
  have holding := mem_holders.mp holder
  rw [System.ownCalls_of_finished split] at holding
  exact empty resource holding

/-- What is taken and not given back is held. -/
theorem Respected.count_calls (respected : supply.Respected) (events : List sys.Event)
    (resource : ρ) :
    (System.callsOf (supply.turned resource true) (System.execute events).log).length =
      (System.callsOf (supply.turned resource false) (System.execute events).log).length +
        (supply.holders resource (System.execute events)).card := by
  have called := (System.tasks_execute events).1
  rw [System.length_callsOf _ called, System.length_callsOf _ called, holders, Finset.card_filter,
    ← Finset.sum_add_distrib]
  refine Finset.sum_congr rfl fun thread _ => ?_
  rw [length_ownCalls_turned, length_ownCalls_turned]
  exact respected.count_own events thread resource (List.append_nil _).symm

/-! ## Conservation -/

/-- **Conservation.** The units left and the units held are all there are. -/
theorem Respected.conserved (respected : supply.Respected) (events : List sys.Event)
    (resource : ρ) :
    supply.left (System.execute events).state resource +
      (supply.holders resource (System.execute events)).card = supply.units resource := by
  suffices counted : supply.left (System.execute events).state resource +
      (System.callsOf (supply.turned resource true) (System.execute events).log).length =
        supply.units resource +
          (System.callsOf (supply.turned resource false) (System.execute events).log).length by
    have held := respected.count_calls events resource
    omega
  induction events using List.reverseRecOn with
  | nil => exact congrArg (· + 0) (supply.initially resource)
  | append_singleton events event ih =>
      have held := respected.count_calls events resource
      have explained := respected.explained (events ++ [event])
      rw [System.execute_snoc] at explained ⊢
      have step := System.advance_cases (System.execute events) event
      generalize (System.execute events).advance event = after at explained step ⊢
      cases step with
      | stutter => exact ih
      | start request =>
          dsimp only [System.Config.start]
          rw [System.callsOf_append, System.callsOf_append, List.length_append, List.length_append]
          exact ih
      | finish thread env result running =>
          dsimp only
          rw [System.callsOf_append, System.callsOf_append, List.length_append, List.length_append]
          exact ih
      | call thread env op next answer state running performed =>
          obtain ⟨request, -, -, -, permitted⟩ :=
            explained.calls (System.execute events).log thread op answer [] rfl
          dsimp only
          rw [System.callsOf_append, System.callsOf_append, List.length_append, List.length_append,
            System.callsOf_did, System.callsOf_did]
          by_cases own : ∃ turn, supply.turns op answer = some (resource, turn)
          · obtain ⟨turn, made⟩ := own
            cases turn with
            | true =>
                have fewer := supply.taken op _ env answer state resource performed made
                simp only [turned, made, Option.bind_some, if_true, Prod.mk.injEq, true_and,
                  Bool.true_eq_false, if_false, Option.toList_some, Option.toList_none,
                  List.length_singleton, List.length_nil]
                omega
            | false =>
                have holding := (permitted answer resource false made).mpr rfl
                have holder : 0 < (supply.holders resource (System.execute events)).card :=
                  Finset.card_pos.mpr ⟨thread, mem_holders.mpr holding⟩
                have more := supply.given op _ env answer state resource performed made (by omega)
                simp only [turned, made, Option.bind_some, if_true, Prod.mk.injEq, true_and,
                  Bool.false_eq_true, if_false, Option.toList_some, Option.toList_none,
                  List.length_singleton, List.length_nil]
                omega
          · have kept := supply.kept op _ env answer state resource performed
              fun turn made => own ⟨turn, made⟩
            have nothing : ∀ turn, supply.turned resource turn op answer = none := by
              intro turn
              rw [turned, Option.bind_eq_none_iff]
              intro item made
              exact if_neg fun same => own ⟨turn, made.trans (congrArg some same)⟩
            rw [nothing, nothing, Option.toList_none, List.length_nil, kept]
            exact ih

/-- When no task is running, every unit is left. -/
theorem Respected.left_of_idle (respected : supply.Respected) {events : List sys.Event}
    (idle : ∀ thread, (System.execute events).running thread = none) (resource : ρ) :
    supply.left (System.execute events).state resource = supply.units resource := by
  have nobody : supply.holders resource (System.execute events) = ∅ := by
    refine Finset.eq_empty_of_forall_notMem fun thread holder => ?_
    exact respected.running_of_holder holder (idle thread)
  have conserved := respected.conserved events resource
  rwa [nobody, Finset.card_empty, Nat.add_zero] at conserved

/-! ## Nobody waits in a circle -/

/-- What a running task wants to call, the protocol permits. -/
theorem Respected.permitted (respected : supply.Respected) {events : List sys.Event}
    {thread : Nat} {op : sys.sig.Op} {next : sys.sig.Answer op → Program sys.sig sys.Result}
    (running : (System.execute events).running thread = some (.call op next)) :
    ∃ request, supply.protocol.permits request
      (System.ownCalls supply.turns thread (System.execute events).log) op := by
  have follows : ∀ request, supply.protocol.monitor.Follows
      ((fun request => (request, [])) request) (sys.program request)
        fun ghost result => supply.protocol.completes ghost.1 ghost.2 result := by
    intro request
    refine (respected request).follows.mono ?_
    rintro ⟨origin, turns⟩ result ⟨rfl, empty⟩
    exact empty
  have observed := System.observed_execute follows events fun _ _ _ _ => trivial
  obtain ⟨ghost, known, allowed, -⟩ := observed.running thread _ running
  have recorded := (System.ghostOf_protocol (fun front op answer back split => by
    obtain ⟨earlier, known, -⟩ := observed.calls front thread op answer back split
    exact known ▸ Option.some_ne_none earlier) known).2
  exact ⟨ghost.1, recorded ▸ allowed⟩

/-- A running task about to make a guarded call holds a unit. -/
theorem Respected.holder_of_under (respected : supply.Respected) {events : List sys.Event}
    {thread : Nat} {op : sys.sig.Op} {next : sys.sig.Answer op → Program sys.sig sys.Result}
    {resource : ρ} (running : (System.execute events).running thread = some (.call op next))
    (guarded : supply.under op = some resource) :
    thread ∈ supply.holders resource (System.execute events) := by
  obtain ⟨request, -, needs, -⟩ := respected.permitted running
  exact mem_holders.mpr (needs resource guarded)

/-- **Admission.** The running tasks about to make a call guarded by a resource, and the units
left, are no more than there are units. -/
theorem Respected.admission (respected : supply.Respected) {events : List sys.Event}
    {resource : ρ} {tasks : Finset Nat}
    (asking : ∀ thread ∈ tasks, ∃ op next,
      (System.execute events).running thread = some (.call op next) ∧
        supply.under op = some resource) :
    supply.left (System.execute events).state resource + tasks.card ≤ supply.units resource := by
  have held : tasks ⊆ supply.holders resource (System.execute events) := by
    intro thread member
    obtain ⟨op, next, running, guarded⟩ := asking thread member
    exact respected.holder_of_under running guarded
  have fewer := Finset.card_le_card held
  have conserved := respected.conserved events resource
  omega

omit [DecidableEq ρ] in
/-- A running task that cannot go on wants a resource that is used up. -/
theorem wants_of_blocked {state : sys.State} {program : Program sys.sig sys.Result}
    (blocked : ¬System.Unblocked state program) :
    ∃ op next resource, program = .call op next ∧ supply.wants op = some resource ∧
      supply.left state resource = 0 := by
  cases program with
  | done result => exact absurd trivial blocked
  | call op next =>
      obtain ⟨env, waiting⟩ := not_forall.mp blocked
      obtain ⟨resource, wanted, used⟩ := supply.waits op state env (not_not.mp waiting)
      exact ⟨op, next, resource, rfl, wanted, used⟩

/-- **Deadlock freedom.** Whenever a task is running, some running task can go on. -/
theorem Respected.live (respected : supply.Respected) : System.Live sys := by
  intro events busy
  by_contra stuck
  have blocked : ∀ thread program, (System.execute events).running thread = some program →
      ¬System.Unblocked (System.execute events).state program :=
    fun thread program running unblocked => stuck ⟨thread, program, running, unblocked⟩
  have holder_of : ∀ resource, supply.left (System.execute events).state resource = 0 →
      ∃ thread, thread ∈ supply.holders resource (System.execute events) := by
    intro resource used
    have conserved := respected.conserved events resource
    rw [used, Nat.zero_add] at conserved
    exact Finset.card_pos.mp (conserved ▸ supply.positive resource)
  have waits_above : ∀ thread, (System.execute events).running thread ≠ none → ∃ height,
      (∃ resource holder, holder ∈ supply.holders resource (System.execute events) ∧
        supply.rank resource = height) ∧
      ∀ other, thread ∈ supply.holders other (System.execute events) →
        supply.rank other < height := by
    intro thread running
    obtain ⟨program, runs⟩ := Option.ne_none_iff_exists'.mp running
    obtain ⟨op, next, resource, rfl, wanted, used⟩ :=
      @wants_of_blocked sys ρ supply _ _ (blocked thread program runs)
    obtain ⟨holder, holds⟩ := holder_of resource used
    obtain ⟨request, above, -⟩ := respected.permitted runs
    exact ⟨supply.rank resource, ⟨resource, holder, holds, rfl⟩,
      fun other held => above resource wanted other (mem_holders.mp held)⟩
  choose! height holds above using waits_above
  -- Among the running tasks, take one that waits for a resource of the highest rank.
  classical
  let tasks := (Finset.range (System.execute events).count).filter fun thread =>
    (System.execute events).running thread ≠ none
  have mem_tasks : ∀ thread, (System.execute events).running thread ≠ none → thread ∈ tasks := by
    intro thread running
    obtain ⟨program, runs⟩ := Option.ne_none_iff_exists'.mp running
    exact Finset.mem_filter.mpr
      ⟨Finset.mem_range.mpr ((System.tasks_execute events).2.1 thread program runs), running⟩
  obtain ⟨first, runs⟩ := busy
  obtain ⟨highest, member, maximal⟩ :=
    Finset.exists_max_image tasks height ⟨first, mem_tasks first runs⟩
  obtain ⟨resource, holder, held, rank⟩ := holds highest (Finset.mem_filter.mp member).2
  have running := respected.running_of_holder held
  have higher := above holder running resource held
  have lower := maximal holder (mem_tasks holder running)
  omega

/-- **Draining.** Once no task starts, a schedule that is fair to the running tasks finishes them
all, and then every unit is left. -/
theorem Respected.drains (respected : supply.Respected) {events : List sys.Event}
    {schedule : Nat → sys.Event} (closing : System.Closing schedule)
    (fair : ∀ thread, (System.execute events).running thread ≠ none →
      System.Fair thread schedule) :
    ∃ moment, ∀ later, moment ≤ later →
      (∀ thread, (System.scheduled events schedule later).running thread = none) ∧
        ∀ resource, supply.left (System.scheduled events schedule later).state resource =
          supply.units resource := by
  obtain ⟨moment, drained⟩ := closing.drains respected.live fair
  refine ⟨moment, fun later after => ?_⟩
  have idle := (drained later after).2
  exact ⟨idle, respected.left_of_idle idle⟩

end Supply

end Interaction
