import Mathlib.Algebra.Ring.Nat
import Mathlib.Data.List.Basic
import Mathlib.Tactic.Ring

/-! # Trees of hashes with absent leaves

A full binary tree whose leaves may be absent. A node whose left child is absent is absent,
and an absent right child counts as a fixed value. The root can be computed from the halves
of the leaves or one level at a time; the right siblings of the leftmost path fold its leaf
into the root.
-/

namespace MerkleTree

variable {α : Type*} (combine : α → α → α) (zero : α)

/-- The node of two children. -/
def node (left right : Option α) : Option α :=
  left.map fun hash => combine hash (right.getD zero)

/-- The root of a tree with `2 ^ depth` leaves. -/
def root : Nat → List (Option α) → Option α
  | 0, leaves => leaves.getD 0 none
  | depth + 1, leaves =>
      node combine zero (root depth (leaves.take (2 ^ depth))) (root depth (leaves.drop (2 ^ depth)))

/-- The nodes of the next level; a last leaf without a sibling is a left child. -/
def level : List (Option α) → List (Option α)
  | [] => []
  | [left] => [node combine zero left none]
  | left :: right :: rest => node combine zero left right :: level rest

/-- The right siblings on the way from the first leaf to the root. -/
def siblings : Nat → List (Option α) → List α
  | 0, _ => []
  | depth + 1, leaves =>
      (leaves.getD 1 none).getD zero :: siblings depth (level combine zero leaves)

variable {combine : α → α → α} {zero : α}

/-! ## Levels -/

theorem level_take (count : Nat) (leaves : List (Option α)) :
    level combine zero (leaves.take (2 * count)) = (level combine zero leaves).take count := by
  induction count generalizing leaves with
  | zero => rfl
  | succ count ih =>
      rcases leaves with _ | ⟨left, _ | ⟨right, rest⟩⟩
      · rfl
      · simp only [Nat.mul_succ, List.take_succ_cons, List.take_nil, level]
      · simp only [Nat.mul_succ, List.take_succ_cons, level, ih]

theorem level_drop (count : Nat) (leaves : List (Option α)) :
    level combine zero (leaves.drop (2 * count)) = (level combine zero leaves).drop count := by
  induction count generalizing leaves with
  | zero => rfl
  | succ count ih =>
      rcases leaves with _ | ⟨left, _ | ⟨right, rest⟩⟩
      · rfl
      · simp only [Nat.mul_succ, level, List.drop_succ_cons, List.drop_nil]
      · simp only [Nat.mul_succ, List.drop_succ_cons, level, ih]

theorem length_level (count : Nat) (leaves : List (Option α)) (even : leaves.length = 2 * count) :
    (level combine zero leaves).length = count := by
  induction count generalizing leaves with
  | zero =>
      rw [List.length_eq_zero_iff.mp even]
      rfl
  | succ count ih =>
      rcases leaves with _ | ⟨left, _ | ⟨right, rest⟩⟩
      · exact absurd even (by rw [List.length_nil]; omega)
      · exact absurd even (by rw [List.length_singleton]; omega)
      · have fewer : rest.length = 2 * count := by
          rw [List.length_cons, List.length_cons] at even
          omega
        rw [level, List.length_cons, ih rest fewer]

/-- **Folding a level.** A level folded into the next keeps the root. -/
theorem root_level (depth : Nat) (leaves : List (Option α))
    (full : leaves.length = 2 ^ (depth + 1)) :
    root combine zero (depth + 1) leaves = root combine zero depth (level combine zero leaves) := by
  induction depth generalizing leaves with
  | zero =>
      obtain ⟨left, right, rfl⟩ := List.length_eq_two.mp full
      rfl
  | succ depth ih =>
      have half : 2 ^ (depth + 1) = 2 * 2 ^ depth := Nat.pow_succ'
      have whole : leaves.length = 2 * 2 ^ (depth + 1) := full.trans Nat.pow_succ'
      have left := ih (leaves.take (2 ^ (depth + 1))) (by rw [List.length_take]; omega)
      have right := ih (leaves.drop (2 ^ (depth + 1))) (by rw [List.length_drop]; omega)
      rw [root, left, right, root, half, level_take, level_drop]

/-! ## The leftmost path -/

theorem length_siblings (depth : Nat) (leaves : List (Option α)) :
    (siblings combine zero depth leaves).length = depth := by
  induction depth generalizing leaves with
  | zero => rfl
  | succ depth ih => rw [siblings, List.length_cons, ih]

/-- **The leftmost path.** Folding the siblings into the first leaf, always as the left
child, gives the root. -/
theorem root_eq_foldl_siblings (depth : Nat) {leaves : List (Option α)} {leaf : α}
    (full : leaves.length = 2 ^ depth) (first : leaves.head? = some (some leaf)) :
    root combine zero depth leaves =
      some ((siblings combine zero depth leaves).foldl combine leaf) := by
  induction depth generalizing leaves leaf with
  | zero =>
      obtain ⟨rest, rfl⟩ := List.head?_eq_some_iff.mp first
      rfl
  | succ depth ih =>
      have pairs : leaves.length = 2 * 2 ^ depth := full.trans Nat.pow_succ'
      have above : (level combine zero leaves).head? =
          some (some (combine leaf ((leaves.getD 1 none).getD zero))) := by
        obtain ⟨rest, rfl⟩ := List.head?_eq_some_iff.mp first
        cases rest with
        | nil => rfl
        | cons right rest => rfl
      rw [root_level depth leaves full, ih (length_level _ leaves pairs) above]
      rfl

end MerkleTree
