import Mathlib.Data.List.Iterate
import Mathlib.Data.List.Nodup
import Mathlib.Order.Interval.Set.Defs
import StratumBridge.Interaction.Observation

/-! # Shared counters

A counter hands out its value and moves on, in one step. Over a run the values handed
out are the iterates of the step from the initial value, whatever tasks draw them.
-/

namespace Interaction.System

variable {sys : System} {ν : Type} {value : sys.State → ν} {advance : ν → ν}
  {draws : (op : sys.sig.Op) → sys.sig.Answer op → Option ν}

/-- The calls that draw from a counter; no other call touches it. -/
structure Counter (value : sys.State → ν) (advance : ν → ν)
    (draws : (op : sys.sig.Op) → sys.sig.Answer op → Option ν) : Prop where
  drawn : ∀ op state env answer after item, sys.perform op state env = some (answer, after) →
    draws op answer = some item → item = value state ∧ value after = advance (value state)
  kept : ∀ op state env answer after, sys.perform op state env = some (answer, after) →
    draws op answer = none → value after = value state

namespace Counter

variable (counter : Counter value advance draws) (events : List sys.Event)
include counter

/-- The counter has moved once per draw. -/
theorem value_execute :
    value (execute events).state =
      advance^[(callsOf draws (execute events).log).length] (value sys.initial) := by
  have moves : ∀ op state env answer after, sys.perform op state env = some (answer, after) →
      value after =
        (draws op answer).toList.foldl (fun held _ => advance held) (value state) := by
    intro op state env answer after performed
    cases chosen : draws op answer with
    | none => exact counter.kept op state env answer after performed chosen
    | some item => exact (counter.drawn op state env answer after item performed chosen).2
  rw [view_eq_replay value (fun held _ => advance held) moves events]
  generalize callsOf draws (execute events).log = items
  generalize value sys.initial = start
  induction items generalizing start with
  | nil => rfl
  | cons item rest ih => exact ih (advance start)

/-- A value drawn is the iterate numbered by the draws before it. -/
theorem drawn_eq {front back : List sys.Entry} {thread : Nat} {op : sys.sig.Op}
    {answer : sys.sig.Answer op} {item : ν}
    (split : (execute events).log = front ++ .did thread op answer :: back)
    (chosen : draws op answer = some item) :
    item = advance^[(callsOf draws front).length] (value sys.initial) := by
  obtain ⟨before, event, rest, -, rfl, -, env, after, performed⟩ := exists_calls_of_did split
  rw [(counter.drawn op _ env answer after item performed chosen).1]
  exact counter.value_execute before

/-- **Draws.** The values drawn are the iterates of the step, in order. -/
theorem callsOf_draws :
    callsOf draws (execute events).log =
      List.iterate advance (value sys.initial) (callsOf draws (execute events).log).length := by
  refine List.ext_getElem (List.length_iterate ..).symm ?_
  intro index bound _
  rw [List.getElem_iterate]
  have split : callsOf draws (execute events).log =
      (callsOf draws (execute events).log).take index ++
        (callsOf draws (execute events).log)[index] ::
          (callsOf draws (execute events).log).drop (index + 1) := by
    rw [← List.drop_eq_getElem_cons bound, List.take_append_drop]
  obtain ⟨front, entry, back, whole, earlier, one⟩ := exists_split_of_callsOf split
  have length : (callsOf draws front).length = index := by
    rw [earlier, List.length_take, Nat.min_eq_left (Nat.le_of_lt bound)]
  obtain ⟨thread, op, answer, member, chosen⟩ :=
    mem_callsOf.mp (one ▸ List.mem_cons_self : _ ∈ callsOf draws [entry])
  obtain rfl := List.mem_singleton.mp member
  rw [counter.drawn_eq events whole chosen, length]

/-- Draws are distinct as long as the step does not come back to an earlier value. -/
theorem nodup_draws
    (injective : Set.InjOn (fun count => advance^[count] (value sys.initial))
      (Set.Iio (callsOf draws (execute events).log).length)) :
    (callsOf draws (execute events).log).Nodup := by
  rw [counter.callsOf_draws events, ← List.range_map_iterate]
  refine List.Nodup.map_on ?_ List.nodup_range
  intro first firstMem second secondMem same
  exact injective (List.mem_range.mp firstMem) (List.mem_range.mp secondMem) same

end Counter

/-! ## Counters of fixed width -/

/-- A counter modulo `width` steps by addition. -/
theorem iterate_succ_mod {width start : Nat} (inside : start < width) (count : Nat) :
    (fun held => (held + 1) % width)^[count] start = (start + count) % width := by
  induction count with
  | zero => exact (Nat.mod_eq_of_lt inside).symm
  | succ count ih =>
      rw [Function.iterate_succ_apply', ih, Nat.mod_add_mod, Nat.add_assoc]

/-- It does not repeat a value before it has gone round once. -/
theorem injOn_succ_mod {width start : Nat} (inside : start < width) {count : Nat}
    (room : count ≤ width) :
    Set.InjOn (fun count => (fun held => (held + 1) % width)^[count] start) (Set.Iio count) := by
  intro first firstMem second secondMem same
  simp only [iterate_succ_mod inside] at same
  have near : ∀ {low high : Nat}, low ≤ high → high < count →
      (start + low) % width = (start + high) % width → low = high := by
    intro low high le below equal
    have remainder : (high - low) % width = 0 := by
      have difference := Nat.sub_mod_eq_zero_of_mod_eq equal.symm
      rwa [Nat.add_sub_add_left] at difference
    rw [Nat.mod_eq_of_lt (by omega)] at remainder
    omega
  rcases Nat.le_total first second with le | le
  · exact near le secondMem same
  · exact (near le firstMem same.symm).symm

end Interaction.System
