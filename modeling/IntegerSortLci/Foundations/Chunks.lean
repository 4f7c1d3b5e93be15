import Mathlib.Algebra.BigOperators.Intervals
import Mathlib.Logic.Function.Basic

/-!
# Consecutive chunks of an index range

A range cut into consecutive, possibly empty, chunks that are given to threads in
order. The sums over the chunks add up to prefix sums, and the exclusive scan of
the chunk sums yields the prefix sum at which each chunk starts.
-/

namespace IntegerSortLci.Foundations

open scoped BigOperators

set_option autoImplicit false

/-- Thread `tid` has the indices from `bound tid` up to `bound (tid + 1)`. -/
structure Chunks (threads range : Nat) where
  bound : Nat → Nat
  start : bound 0 = 0
  ordered : ∀ tid, bound tid ≤ bound (tid + 1)
  covers : bound threads = range

namespace Chunks

variable {threads range : Nat} (chunks : Chunks threads range)

theorem monotone {first second : Nat} (le : first ≤ second) :
    chunks.bound first ≤ chunks.bound second :=
  monotone_nat_of_le_succ chunks.ordered le

theorem bounded {tid : Nat} (inside : tid < threads) : chunks.bound (tid + 1) ≤ range :=
  (chunks.monotone inside).trans chunks.covers.le

/-- Every index of the range belongs to a thread. -/
theorem owner {index : Nat} (inside : index < range) :
    ∃ tid < threads, chunks.bound tid ≤ index ∧ index < chunks.bound (tid + 1) := by
  have search : ∀ count, index < chunks.bound count →
      ∃ tid < count, chunks.bound tid ≤ index ∧ index < chunks.bound (tid + 1) := by
    intro count
    induction count with
    | zero =>
        intro below
        rw [chunks.start] at below
        omega
    | succ count ih =>
        intro below
        by_cases earlier : index < chunks.bound count
        · obtain ⟨tid, less, found⟩ := ih earlier
          exact ⟨tid, Nat.lt_succ_of_lt less, found⟩
        · exact ⟨count, Nat.lt_succ_self count, Nat.le_of_not_lt earlier, below⟩
  apply search threads
  rw [chunks.covers]
  exact inside

variable {Count : Type*} [AddCommMonoid Count] (value : Nat → Count)

/-- The sum over one thread's chunk. -/
def chunkSum (tid : Nat) : Count :=
  ∑ index ∈ Finset.Ico (chunks.bound tid) (chunks.bound (tid + 1)), value index

theorem sum_chunks (count : Nat) :
    ∑ tid ∈ Finset.range count, chunks.chunkSum value tid =
      ∑ index ∈ Finset.range (chunks.bound count), value index := by
  induction count with
  | zero => rw [chunks.start, Finset.sum_range_zero, Finset.sum_range_zero]
  | succ count ih =>
      rw [Finset.sum_range_succ, ih, Finset.range_eq_Ico, Finset.range_eq_Ico]
      exact Finset.sum_Ico_consecutive value (Nat.zero_le _) (chunks.ordered count)

end Chunks

section Scan

variable {Count : Type*} [AddCommMonoid Count]

/-- Replaces each entry by the sum of those before it, from left to right, and
returns the running sum. -/
def exclusiveScan (sums : Nat → Count) : Nat → Count × (Nat → Count)
  | 0 => (0, sums)
  | i + 1 =>
      let (tempSum, scanned) := exclusiveScan sums i
      (tempSum + scanned i, Function.update scanned i tempSum)

theorem exclusive_scan_spec (sums : Nat → Count) (count : Nat) :
    (exclusiveScan sums count).1 = ∑ i ∈ Finset.range count, sums i ∧
      (∀ i < count, (exclusiveScan sums count).2 i = ∑ j ∈ Finset.range i, sums j) ∧
      ∀ i, count ≤ i → (exclusiveScan sums count).2 i = sums i := by
  induction count with
  | zero => exact ⟨rfl, nofun, fun _ _ => rfl⟩
  | succ count ih =>
      obtain ⟨total, below, above⟩ := ih
      unfold exclusiveScan
      dsimp only
      refine ⟨?_, ?_, ?_⟩
      · rw [total, above count (Nat.le_refl _), Finset.sum_range_succ]
      · intro i less
        rcases Nat.lt_succ_iff_lt_or_eq.mp less with earlier | rfl
        · rw [Function.update_of_ne (Nat.ne_of_lt earlier)]
          exact below i earlier
        · rw [Function.update_self]
          exact total
      · intro i later
        rw [Function.update_of_ne (by omega)]
        exact above i (Nat.le_of_succ_le later)

end Scan

end IntegerSortLci.Foundations
