import Mathlib.Algebra.BigOperators.Fin
import Mathlib.Logic.Function.Basic

/-!
# The global bucket counts

`sum_op_int` and the tree in which a reduction applies it. The destination of one
application may be one of its operands; the loop reads both operands of an index
before it writes the index, so that makes no difference.
-/

namespace IntegerSortLci.Benchmark

open scoped BigOperators

set_option autoImplicit false

/-- The buffers of one application, the last one distinct from the operands. -/
inductive Operand where
  | left
  | right
  | other
  deriving DecidableEq, Repr

/-- `sum_op_int`: the loop over `n` elements, with `dst` among the operands or not. -/
def sumOpInt (buffers : Operand → Nat → Nat) (dst : Operand) : Nat → Operand → Nat → Nat
  | 0 => buffers
  | i + 1 =>
      let written := sumOpInt buffers dst i
      Function.update written dst
        (Function.update (written dst) i (written .left i + written .right i))

theorem sum_op_int_spec (buffers : Operand → Nat → Nat) (dst : Operand) (n : Nat) :
    (∀ i < n, sumOpInt buffers dst n dst i = buffers .left i + buffers .right i) ∧
      (∀ i, n ≤ i → ∀ operand, sumOpInt buffers dst n operand i = buffers operand i) ∧
      ∀ operand, operand ≠ dst → sumOpInt buffers dst n operand = buffers operand := by
  induction n with
  | zero => exact ⟨nofun, fun _ _ _ => rfl, fun _ _ => rfl⟩
  | succ n ih =>
      obtain ⟨summed, above, kept⟩ := ih
      unfold sumOpInt
      dsimp only
      refine ⟨?_, ?_, ?_⟩
      · intro i less
        rw [Function.update_self]
        rcases Nat.lt_succ_iff_lt_or_eq.mp less with earlier | rfl
        · rw [Function.update_of_ne (Nat.ne_of_lt earlier)]
          exact summed i earlier
        · rw [Function.update_self, above i (Nat.le_refl _), above i (Nat.le_refl _)]
      · intro i later operand
        by_cases same : operand = dst
        · subst same
          rw [Function.update_self, Function.update_of_ne (by omega)]
          exact above i (Nat.le_of_succ_le later) operand
        · rw [Function.update_of_ne same]
          exact above i (Nat.le_of_succ_le later) operand
      · intro operand different
        rw [Function.update_of_ne different]
        exact kept operand different

/-- The order in which the ranks' vectors are combined. Each application names its
destination; `stale` is what a separate destination held before. -/
inductive ReduceTree (commSize : Nat) where
  | leaf (rank : Fin commSize)
  | node (left right : ReduceTree commSize) (dst : Operand) (stale : Nat → Nat)

namespace ReduceTree

variable {commSize : Nat}

def leaves : ReduceTree commSize → List (Fin commSize)
  | .leaf rank => [rank]
  | .node left right _ _ => left.leaves ++ right.leaves

/-- The vector that the tree leaves in its destination. -/
def combine (n : Nat) (vectors : Fin commSize → Nat → Nat) : ReduceTree commSize → Nat → Nat
  | .leaf rank => vectors rank
  | .node left right dst stale =>
      let buffers : Operand → Nat → Nat
        | .left => combine n vectors left
        | .right => combine n vectors right
        | .other => stale
      sumOpInt buffers dst n dst

/-- Every rank's vector is combined once. -/
def Covers (tree : ReduceTree commSize) : Prop := tree.leaves.Perm (List.finRange commSize)

instance (tree : ReduceTree commSize) : Decidable tree.Covers :=
  inferInstanceAs (Decidable (List.Perm _ _))

theorem combine_leaves (n : Nat) (vectors : Fin commSize → Nat → Nat)
    (tree : ReduceTree commSize) {i : Nat} (inside : i < n) :
    tree.combine n vectors i = (tree.leaves.map fun rank => vectors rank i).sum := by
  induction tree with
  | leaf rank => simp [combine, leaves]
  | node left right dst stale leftSum rightSum =>
      rw [leaves, List.map_append, List.sum_append, ← leftSum, ← rightSum, combine]
      exact (sum_op_int_spec _ dst n).1 i inside

/-- A reduction adds the ranks' vectors, in whatever order it combines them. -/
theorem combine_sum (n : Nat) (vectors : Fin commSize → Nat → Nat) {tree : ReduceTree commSize}
    (covers : tree.Covers) {i : Nat} (inside : i < n) :
    tree.combine n vectors i = ∑ rank, vectors rank i := by
  rw [combine_leaves n vectors tree inside, (covers.map _).sum_eq, Fin.sum_univ_def]

end ReduceTree

end IntegerSortLci.Benchmark
