import Mathlib.Algebra.BigOperators.Group.Finset.Basic
import Mathlib.Data.Finset.Max
import Mathlib.Data.Fintype.Basic

/-! # Locks in order

Threads take locks and release them in scopes. Where every thread takes its locks in the order of
a rank, threads never wait for each other in a circle: some thread can go on until all are done,
and that is the case after as many steps as there are actions.
-/

namespace Interaction

/-- What a thread does with locks. -/
inductive LockAction (Lock : Type) where
  | acquire (lock : Lock)
  | release (lock : Lock)

namespace LockOrder

variable {Lock : Type}

/-- A guard, and what is done while it lives. -/
def guarded (lock : Lock) (inside : List (LockAction Lock)) : List (LockAction Lock) :=
  .acquire lock :: inside ++ [.release lock]

/-- A guard that lives alone. -/
def alone (lock : Lock) : List (LockAction Lock) := guarded lock []

/-- The locks a thread holds, the last one first, and what it has to do. -/
structure Thread (Lock : Type) where
  held : List Lock
  todo : List (LockAction Lock)

variable {Id : Type} [DecidableEq Id]

/-- One thread acts. It takes a lock that no thread holds, and it releases its last lock. -/
inductive Step (threads : Id → Thread Lock) : (Id → Thread Lock) → Prop where
  | acquire {thread : Id} {lock : Lock} {held : List Lock} {rest : List (LockAction Lock)} :
      threads thread = ⟨held, .acquire lock :: rest⟩ →
      (∀ other, lock ∉ (threads other).held) →
      Step threads (Function.update threads thread ⟨lock :: held, rest⟩)
  | release {thread : Id} {lock : Lock} {held : List Lock} {rest : List (LockAction Lock)} :
      threads thread = ⟨lock :: held, .release lock :: rest⟩ →
      Step threads (Function.update threads thread ⟨held, rest⟩)

/-- Steps, counted. -/
inductive Steps (threads : Id → Thread Lock) : Nat → (Id → Thread Lock) → Prop where
  | refl : Steps threads 0 threads
  | snoc {count : Nat} {middle after : Id → Thread Lock} :
      Steps threads count middle → Step middle after → Steps threads (count + 1) after

/-! ## Order -/

variable {rank : Lock → Nat}

/-- The locks of the rest are taken above the held ones, and all are released. -/
def Orderly (rank : Lock → Nat) : List Lock → List (LockAction Lock) → Prop
  | held, [] => held = []
  | held, .acquire lock :: rest =>
      (∀ other ∈ held, rank other < rank lock) ∧ Orderly rank (lock :: held) rest
  | [], .release _ :: _ => False
  | other :: held, .release lock :: rest => lock = other ∧ Orderly rank held rest

/-- Scopes that climb: every lock is above the floor and above the locks around it. -/
inductive Climbs (rank : Lock → Nat) : Nat → List (LockAction Lock) → Prop where
  | nil {floor : Nat} : Climbs rank floor []
  | scope {floor : Nat} {lock : Lock} {inside rest : List (LockAction Lock)} :
      floor < rank lock → Climbs rank (rank lock) inside → Climbs rank floor rest →
      Climbs rank floor (guarded lock inside ++ rest)

namespace Climbs

variable {floor : Nat} {lock : Lock} {inside first rest : List (LockAction Lock)}

theorem guarded (above : floor < rank lock) (climbs : Climbs rank (rank lock) inside) :
    Climbs rank floor (LockOrder.guarded lock inside) := by
  have scope := Climbs.scope above climbs .nil
  rwa [List.append_nil] at scope

theorem alone (above : floor < rank lock) : Climbs rank floor (LockOrder.alone lock) :=
  guarded above .nil

theorem append (one : Climbs rank floor first) (other : Climbs rank floor rest) :
    Climbs rank floor (first ++ rest) := by
  induction one with
  | nil => exact other
  | scope above inside _ _ ih =>
      rw [List.append_assoc]
      exact .scope above inside (ih other)

theorem flatMap {Item : Type} {items : List Item} {script : Item → List (LockAction Lock)}
    (climbs : ∀ item, Climbs rank floor (script item)) :
    Climbs rank floor (items.flatMap script) := by
  induction items with
  | nil => exact .nil
  | cons item items ih => exact (climbs item).append ih

/-- A branch that may be left out. -/
theorem ite {taken : Bool} (climbs : Climbs rank floor first) :
    Climbs rank floor (if taken then first else []) := by
  cases taken with
  | true => exact climbs
  | false => exact .nil

theorem orderly (climbs : Climbs rank floor first) {held : List Lock}
    (below : ∀ other ∈ held, rank other ≤ floor) (later : Orderly rank held rest) :
    Orderly rank held (first ++ rest) := by
  induction climbs generalizing held rest with
  | nil => exact later
  | @scope floor lock inside behind above _ _ enclosed following =>
      have unfolded : LockOrder.guarded lock inside ++ behind ++ rest =
          .acquire lock :: (inside ++ (.release lock :: (behind ++ rest))) := by
        simp [LockOrder.guarded]
      rw [unfolded]
      constructor
      · intro other member
        exact lt_of_le_of_lt (below other member) above
      · apply enclosed
        · intro other member
          rcases List.mem_cons.mp member with rfl | member
          · exact le_rfl
          · exact (lt_of_le_of_lt (below other member) above).le
        · exact ⟨rfl, following below later⟩

end Climbs

/-! ## Invariants -/

/-- Every thread is in order, and no lock is held by two. -/
structure Sound (rank : Lock → Nat) (threads : Id → Thread Lock) : Prop where
  orderly : ∀ thread, Orderly rank (threads thread).held (threads thread).todo
  exclusive : ∀ first second lock, lock ∈ (threads first).held → lock ∈ (threads second).held →
    first = second

section Run

variable {threads after : Id → Thread Lock}

theorem Sound.step (sound : Sound rank threads) (stepped : Step threads after) :
    Sound rank after := by
  cases stepped with
  | @acquire thread lock held rest acts free =>
      have mine := sound.orderly thread
      rw [acts] at mine
      constructor
      case orderly =>
        intro other
        by_cases same : other = thread
        · subst same
          simpa using mine.2
        · simpa [Function.update_of_ne same] using sound.orderly other
      case exclusive =>
        -- The lock was held by none, so only this thread can hold it now.
        have owner : ∀ other, lock ∈ (Function.update threads thread
            ⟨lock :: held, rest⟩ other).held → other = thread := by
          intro other inHand
          by_contra different
          rw [Function.update_of_ne different] at inHand
          exact free other inHand
        have before : ∀ other taken, taken ≠ lock → taken ∈ (Function.update threads thread
            ⟨lock :: held, rest⟩ other).held → taken ∈ (threads other).held := by
          intro other taken different inHand
          by_cases same : other = thread
          · subst same
            simpa [acts, different] using inHand
          · rwa [Function.update_of_ne same] at inHand
        intro first second taken one two
        by_cases same : taken = lock
        · subst same
          rw [owner first one, owner second two]
        · exact sound.exclusive first second taken (before first taken same one)
            (before second taken same two)
  | @release thread lock held rest acts =>
      have mine := sound.orderly thread
      rw [acts] at mine
      constructor
      case orderly =>
        intro other
        by_cases same : other = thread
        · subst same
          simpa using mine.2
        · simpa [Function.update_of_ne same] using sound.orderly other
      case exclusive =>
        have before : ∀ other taken, taken ∈ (Function.update threads thread
            ⟨held, rest⟩ other).held → taken ∈ (threads other).held := by
          intro other taken inHand
          by_cases same : other = thread
          · subst same
            rw [acts]
            simp at inHand
            exact List.mem_cons_of_mem _ inHand
          · rwa [Function.update_of_ne same] at inHand
        intro first second taken one two
        exact sound.exclusive first second taken (before first taken one) (before second taken two)

theorem Sound.steps {count : Nat} (sound : Sound rank threads)
    (stepped : Steps threads count after) : Sound rank after := by
  induction stepped with
  | refl => exact sound
  | snoc _ last ih => exact ih.step last

variable [Fintype Id]

/-- The rank of the lock a thread waits for. -/
def Thread.awaits (rank : Lock → Nat) (thread : Thread Lock) : Nat :=
  match thread.todo with
  | .acquire lock :: _ => rank lock
  | _ => 0

/-- **Progress.** While a thread has something to do, some thread can act. -/
theorem Sound.progress (sound : Sound rank threads) (busy : ∃ thread, (threads thread).todo ≠ []) :
    ∃ after, Step threads after := by
  classical
  obtain ⟨thread, working⟩ := busy
  -- Of the threads that work, take one that waits for a lock of the highest rank.
  obtain ⟨highest, member, top⟩ :=
    (Finset.univ.filter fun thread => (threads thread).todo ≠ []).exists_max_image
      (fun thread => (threads thread).awaits rank) ⟨thread, by simpa using working⟩
  have ordered := sound.orderly highest
  cases state : threads highest with
  | mk held todo =>
      rw [state] at ordered
      match todo with
      | [] => exact absurd (by rw [state]) (Finset.mem_filter.mp member).2
      | .release lock :: rest =>
          match held with
          | [] => exact ordered.elim
          | other :: held =>
              obtain ⟨rfl, -⟩ := ordered
              exact ⟨_, .release state⟩
      | .acquire lock :: rest =>
          by_cases free : ∀ other, lock ∉ (threads other).held
          · exact ⟨_, .acquire state free⟩
          · obtain ⟨holder, holds⟩ := not_forall_not.mp free
            have theirs := sound.orderly holder
            cases held' : threads holder with
            | mk locks next =>
                rw [held'] at theirs holds
                match next with
                | [] =>
                    obtain rfl : locks = [] := theirs
                    exact absurd holds List.not_mem_nil
                | .release last :: later =>
                    match locks with
                    | [] => exact theirs.elim
                    | other :: locks =>
                        obtain ⟨rfl, -⟩ := theirs
                        exact ⟨_, .release held'⟩
                | .acquire wanted :: later =>
                    -- The holder waits for a lock of a higher rank than the highest.
                    have higher : rank lock < rank wanted := theirs.1 lock holds
                    have inList : holder ∈
                        Finset.univ.filter fun thread => (threads thread).todo ≠ [] := by
                      simp [held']
                    have below := top holder inList
                    simp only [Thread.awaits, held', state] at below
                    omega

/-- The actions that are left. -/
def remaining (threads : Id → Thread Lock) : Nat := ∑ thread, (threads thread).todo.length

theorem remaining_update {thread : Id} {changed : Thread Lock}
    (shorter : (threads thread).todo.length = changed.todo.length + 1) :
    remaining threads = remaining (Function.update threads thread changed) + 1 := by
  have others : ∀ other ∈ Finset.univ.erase thread,
      (Function.update threads thread changed other).todo.length =
        (threads other).todo.length := by
    intro other member
    rw [Function.update_of_ne (Finset.ne_of_mem_erase member)]
  rw [remaining, remaining, ← Finset.add_sum_erase _ _ (Finset.mem_univ thread),
    ← Finset.add_sum_erase _ _ (Finset.mem_univ thread), Finset.sum_congr rfl others,
    Function.update_self, shorter]
  omega

/-- Every step is one action less. -/
theorem remaining_step (stepped : Step threads after) :
    remaining threads = remaining after + 1 := by
  cases stepped with
  | acquire acts _ => exact remaining_update (by simp [acts])
  | release acts => exact remaining_update (by simp [acts])

theorem remaining_steps {count : Nat} (stepped : Steps threads count after) :
    remaining threads = remaining after + count := by
  induction stepped with
  | refl => rfl
  | snoc _ last ih =>
      have less := remaining_step last
      omega

omit [DecidableEq Id] in
theorem remaining_eq_zero_iff : remaining threads = 0 ↔ ∀ thread, (threads thread).todo = [] := by
  simp [remaining]

/-- **Completion.** After some steps, as many more as there are actions left can be made, in any
order that is possible, and then every thread is done and holds nothing. -/
theorem Sound.completes (sound : Sound rank threads) {count : Nat}
    (stepped : Steps threads count after) :
    (count < remaining threads → ∃ next, Step after next) ∧ count ≤ remaining threads ∧
      (count = remaining threads →
        ∀ thread, (after thread).todo = [] ∧ (after thread).held = []) := by
  have reached := sound.steps stepped
  have actions := remaining_steps stepped
  refine ⟨fun fewer => ?_, by omega, fun whole thread => ?_⟩
  · apply reached.progress
    by_contra done
    push Not at done
    have nothing := remaining_eq_zero_iff.mpr done
    omega
  · have done := remaining_eq_zero_iff.mp (show remaining after = 0 by omega) thread
    have ordered := reached.orderly thread
    rw [done] at ordered
    exact ⟨done, ordered⟩

end Run

omit [DecidableEq Id] in
/-- Threads that begin with scripts of climbing scopes are in order. -/
theorem sound_of_climbs {scripts : Id → List (LockAction Lock)} {floor : Nat}
    (climbs : ∀ thread, Climbs rank floor (scripts thread)) :
    Sound rank fun thread => ⟨[], scripts thread⟩ where
  orderly thread := by
    have nothing : Orderly rank [] [] := rfl
    have ordered := (climbs thread).orderly (by simp) nothing
    rwa [List.append_nil] at ordered
  exclusive first second lock inHand := absurd inHand List.not_mem_nil

end LockOrder

end Interaction
