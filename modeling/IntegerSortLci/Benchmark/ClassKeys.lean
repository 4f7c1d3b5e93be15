import IntegerSortLci.Benchmark.KeyChanges
import IntegerSortLci.Benchmark.KeyGeneration

/-!
# The keys of a problem class

The key arrays that `generate_keys` leaves on the ranks of a run, and what the passes make
of them. In one row they are the same keys on every admitted number of processes: the
random stream is cut where the ranks' arrays end, and the changes hit the same entries.
-/

namespace IntegerSortLci.Benchmark

open scoped BigOperators

set_option autoImplicit false

/-- `MAX_ITERATIONS`. -/
def classIterations : Nat := 10

variable {problem : ProblemClass} {log : Nat}

/-- What `generate_keys` leaves on a rank. -/
def classRankKeys (problem : ProblemClass) (log rank : Nat) : List Nat :=
  (generateClassKeys problem none rank (2 ^ log)).exact.result.keys.map Int.toNat

/-- The key at a place in the row of all keys. -/
def classKey (problem : ProblemClass) (index : Nat) : Nat :=
  (streamKey (castInt ((problem.maxKey : Int).tdiv 4)) nasRandomSeed nasRandomMultiplier
    (4 * index)).toNat

theorem class_rank_keys (admitted : isProcessCountInRange problem (2 ^ log) = true) {rank : Nat}
    (inside : rank < 2 ^ log) :
    classRankKeys problem log rank =
      (List.range (computeLocalKeyCount problem (2 ^ log))).map fun index =>
        classKey problem (computeLocalKeyCount problem (2 ^ log) * rank + index) := by
  unfold classRankKeys
  rw [(class_keys_result (.inl rfl) admitted inside).1, List.map_map]
  rfl

theorem class_keys_length (admitted : isProcessCountInRange problem (2 ^ log) = true)
    (rank : Fin (2 ^ log)) :
    (classRankKeys problem log rank).length = computeLocalKeyCount problem (2 ^ log) := by
  rw [class_rank_keys admitted rank.isLt, List.length_map, List.length_range]

theorem class_keys_positive (admitted : isProcessCountInRange problem (2 ^ log) = true) :
    0 < computeLocalKeyCount problem (2 ^ log) := by
  obtain ⟨count, localCount, -⟩ := local_key_count_power admitted
  rw [localCount]
  exact Nat.two_pow_pos count

/-- The buckets divide the key range. -/
theorem class_key_range (problem : ProblemClass) :
    problem.numBuckets * 2 ^ problem.bucketShift = problem.maxKey := by
  have covered : problem.numBucketsLog2 ≤ problem.maxKeyLog2 := by cases problem <;> decide
  unfold ProblemClass.numBuckets ProblemClass.bucketShift ProblemClass.maxKey
  rw [← Nat.pow_add, Nat.add_sub_cancel' covered]

theorem class_keys_below (admitted : isProcessCountInRange problem (2 ^ log) = true)
    (rank : Fin (2 ^ log)) :
    ∀ key ∈ classRankKeys problem log rank, key < problem.numBuckets * 2 ^ problem.bucketShift := by
  intro key member
  obtain ⟨value, generated, rfl⟩ := List.mem_map.mp member
  obtain ⟨low, high⟩ := (class_keys_result (.inl rfl) admitted rank.isLt).2 value generated
  rw [class_key_range]
  omega

/-- The key arrays behind `generate_keys`. -/
def classKeys (problem : ProblemClass) (log : Nat)
    (admitted : isProcessCountInRange problem (2 ^ log) = true) : KeySet (2 ^ log) where
  keys rank := classRankKeys problem log rank
  localKeyCount := computeLocalKeyCount problem (2 ^ log)
  numBuckets := problem.numBuckets
  bucketShift := problem.bucketShift
  length_eq := class_keys_length admitted
  positive := class_keys_positive admitted
  in_range := class_keys_below admitted

/-- The ranks' arrays in one row are a stretch of the stream whose length does not depend
on the ranks. -/
theorem class_row (admitted : isProcessCountInRange problem (2 ^ log) = true) :
    (classKeys problem log admitted).globalKeys =
      (List.range (problem.totalKeys * problem.minProcs)).map (classKey problem) := by
  obtain ⟨count, localCount, total⟩ := local_key_count_power admitted
  unfold KeySet.globalKeys classKeys
  dsimp only
  have rows : ((List.finRange (2 ^ log)).flatMap fun rank : Fin (2 ^ log) =>
      classRankKeys problem log rank) =
        (List.range (2 ^ log)).flatMap fun rank =>
          (List.range (computeLocalKeyCount problem (2 ^ log))).map fun index =>
            classKey problem (computeLocalKeyCount problem (2 ^ log) * rank + index) := by
    rw [← List.map_coe_finRange_eq_range (n := 2 ^ log), List.flatMap_map]
    apply List.flatMap_congr
    intro rank _
    exact class_rank_keys admitted rank.isLt
  rw [rows, range_stretches, localCount, Nat.mul_comm, total]

/-- There are more key values than iterations. -/
theorem class_key_values (admitted : isProcessCountInRange problem (2 ^ log) = true) :
    classIterations < (classKeys problem log admitted).maxKey := by
  have values : (classKeys problem log admitted).maxKey = problem.maxKey := class_key_range problem
  rw [values]
  cases problem <;> decide

/-- Rank 0 has room for the changes of all iterations. -/
theorem class_changes_fit (admitted : isProcessCountInRange problem (2 ^ log) = true) :
    2 * classIterations < computeLocalKeyCount problem (2 ^ log) := by
  obtain ⟨count, localCount, total⟩ := local_key_count_power admitted
  have most := (of_decide_eq_true admitted).2
  have share : problem.maxProcs * 32 ≤ problem.totalKeys * problem.minProcs := by
    cases problem <;> decide
  rw [localCount]
  by_contra small
  have few : 2 ^ count ≤ 20 := Nat.le_of_not_lt small
  have bound := Nat.mul_le_mul most few
  rw [total] at bound
  have some : 0 < problem.maxProcs := (Nat.two_pow_pos log).trans_le most
  omega

theorem some_class_iterations : 0 < classIterations := Nat.succ_pos 9

/-- The key arrays of a pass. -/
def classPass (problem : ProblemClass) (log : Nat)
    (admitted : isProcessCountInRange problem (2 ^ log) = true) (pass : Nat) : KeySet (2 ^ log) :=
  (classKeys problem log admitted).atPass some_class_iterations (class_key_values admitted) pass

/-- On every admitted number of processes the key arrays of a pass, in one row, are the
keys of the random stream with the changes of the passes up to it, as one rank alone would
make them. -/
theorem class_pass_keys (admitted : isProcessCountInRange problem (2 ^ log) = true)
    (pass : Nat) :
    (classPass problem log admitted pass).globalKeys =
      passKeys problem.maxKey classIterations
        ((List.range (problem.totalKeys * problem.minProcs)).map (classKey problem)) 0 pass := by
  have values : (classKeys problem log admitted).maxKey = problem.maxKey := class_key_range problem
  unfold classPass
  rw [global_keys_pass _ _ _ (class_changes_fit admitted), class_row, values]

theorem class_pass_keys_small :
    (classPass .S 1 (by decide) 3).globalKeys =
      passKeys 2048 10 ((List.range 65536).map (classKey .S)) 0 3 :=
  class_pass_keys (by decide) 3

end IntegerSortLci.Benchmark
