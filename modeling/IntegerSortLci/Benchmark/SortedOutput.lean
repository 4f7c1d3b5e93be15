import IntegerSortLci.Benchmark.BenchmarkVerdict

/-!
# The sorted keys of a run

What the ranks have rebuilt for the full verification, in one row, is the row of the keys
of the last pass in order. So nothing of it depends on how many ranks have sorted the
keys, and neither does the number of right test ranks.
-/

namespace IntegerSortLci.Benchmark

open IntegerSortLci.Runtime IntegerSortLci.Foundations
open scoped BigOperators

set_option autoImplicit false

section Planned

/-- A value occurs as often as its copies were made. -/
theorem count_copies {Value : Type} [DecidableEq Value] (copies : Value → Nat)
    {values : List Value} (different : values.Nodup) (value : Value) :
    (values.flatMap fun key => List.replicate (copies key) key).count value =
      if value ∈ values then copies value else 0 := by
  induction values with
  | nil => rfl
  | cons key rest ih =>
      obtain ⟨fresh, others⟩ := List.nodup_cons.mp different
      rw [List.flatMap_cons, List.count_append, List.count_replicate, ih others]
      by_cases same : value = key
      · subst same
        rw [if_neg fresh, if_pos (beq_self_eq_true _), if_pos List.mem_cons_self, Nat.add_zero]
      · rw [if_neg (by rw [beq_iff_eq]; exact fun other => same other.symm), Nat.zero_add]
        apply if_congr _ rfl rfl
        rw [List.mem_cons]
        exact ⟨.inr, fun member => member.resolve_left same⟩

variable {commSize : Nat} {set : KeySet commSize}

/-- The snapshot of a rank stands for the keys in its interval. -/
theorem snapshot_count (set : KeySet commSize) (rank value : Nat) :
    (set.snapshot rank).keySequence.count (value : Int) =
      if (set.plan rank).minKeyValue ≤ value ∧ value ≤ (set.plan rank).maxKeyValue then
        set.occurrences value
      else 0 := by
  have different : (set.snapshot rank).keyValues.Nodup := by
    apply List.Nodup.map _ List.nodup_range
    intro first second same
    have equal : (set.snapshot rank).minKeyValue + (first : Int) =
        (set.snapshot rank).minKeyValue + (second : Int) := same
    omega
  have listed : (value : Int) ∈ (set.snapshot rank).keyValues ↔
      (set.plan rank).minKeyValue ≤ value ∧ value ≤ (set.plan rank).maxKeyValue := by
    unfold FullVerifySnapshot.keyValues KeySet.snapshot
    dsimp only
    rw [List.mem_map]
    constructor
    · rintro ⟨i, range, same⟩
      have less := List.mem_range.mp range
      omega
    · rintro ⟨low, high⟩
      exact ⟨value - (set.plan rank).minKeyValue, List.mem_range.mpr (by omega), by omega⟩
  unfold FullVerifySnapshot.keySequence
  rw [count_copies _ different]
  exact if_congr listed rfl rfl

/-- The ranks' keys, one rank behind the other. -/
def KeySet.sortedKeys (set : KeySet commSize) : List Int :=
  (List.range commSize).flatMap fun rank => (set.snapshot rank).keySequence

theorem snapshot_natural {key : Int} {rank : Nat}
    (member : key ∈ (set.snapshot rank).keySequence) : 0 ≤ key := by
  obtain ⟨value, values, copies⟩ := List.mem_flatMap.mp member
  obtain ⟨i, -, rfl⟩ := List.mem_map.mp values
  rw [List.eq_of_mem_replicate copies]
  unfold KeySet.snapshot
  dsimp only
  omega

/-- Each key is in the interval of the rank it is routed to, and of no other. -/
theorem sorted_count (set : KeySet commSize) (value : Nat) :
    set.sortedKeys.count (value : Int) = set.occurrences value := by
  unfold KeySet.sortedKeys
  rw [List.count_flatMap]
  change ∑ rank ∈ Finset.range commSize, (set.snapshot rank).keySequence.count (value : Int) = _
  simp only [snapshot_count]
  by_cases held : ∃ holder, value ∈ set.keys holder
  · obtain ⟨holder, member⟩ := held
    rw [Finset.sum_eq_single (set.routeKey value)]
    · exact if_pos (routed_interval member)
    · intro rank listed different
      apply if_neg
      intro between
      exact different (interval_routed (Finset.mem_range.mp listed) between).2.1.symm
    · intro outside
      exact absurd (Finset.mem_range.mpr (route_bounded member)) outside
  · have none : set.occurrences value = 0 := by
      apply Finset.sum_eq_zero
      intro holder _
      exact List.count_eq_zero.mpr fun member => held ⟨holder, member⟩
    simp only [none, ite_self, Finset.sum_const_zero]

/-- The sorted keys are the keys of all ranks. -/
theorem sorted_permutation (set : KeySet commSize) :
    set.sortedKeys.Perm (set.globalKeys.map Nat.cast) := by
  apply List.perm_iff_count.mpr
  intro key
  by_cases natural : 0 ≤ key
  · obtain ⟨value, rfl⟩ := Int.eq_ofNat_of_zero_le natural
    rw [List.count_map_of_injective _ _ Nat.cast_injective]
    have global : set.globalKeys.count value = set.occurrences value :=
      (count_keys_global set fun key => key == value).symm
    rw [global]
    exact sorted_count set value
  · have absent : key ∉ set.sortedKeys := by
      intro member
      obtain ⟨rank, -, listed⟩ := List.mem_flatMap.mp member
      exact natural (snapshot_natural listed)
    have unlisted : key ∉ set.globalKeys.map (Nat.cast : Nat → Int) := by
      intro member
      obtain ⟨value, -, rfl⟩ := List.mem_map.mp member
      exact natural (Int.natCast_nonneg value)
    rw [List.count_eq_zero.mpr absent, List.count_eq_zero.mpr unlisted]

theorem sorted_keys_rebuilt (set : KeySet commSize) :
    (List.range commSize).flatMap set.verifyingRanks.rebuiltKeys = set.sortedKeys := by
  apply List.flatMap_congr
  intro rank _
  exact (rebuild_spec (set.snapshot rank) (set.verifyingRanks.keyArrays rank)).2.1

theorem sorted_keys_ordered (set : KeySet commSize) : set.sortedKeys.Pairwise (· ≤ ·) := by
  rw [← sorted_keys_rebuilt]
  exact planned_sorted set

/-- The same row of keys is sorted to the same row, on any number of ranks. -/
theorem sorted_keys_congr {others : Nat} {other : KeySet others}
    (same : set.globalKeys = other.globalKeys) : set.sortedKeys = other.sortedKeys := by
  have permuted : set.sortedKeys.Perm other.sortedKeys := by
    apply (sorted_permutation set).trans
    rw [same]
    exact (sorted_permutation other).symm
  exact List.Perm.eq_of_pairwise (fun _ _ _ _ => Int.le_antisymm) (sorted_keys_ordered set)
    (sorted_keys_ordered other) permuted

end Planned

section TestKeys

variable {commSize others : Nat} {set : KeySet commSize} {other : KeySet others}
variable {verification : VerificationData}

/-- A test key is the key at its index in the row. -/
theorem test_key_entry (testable : set.Testable verification) {testId : Nat}
    (inside : testId < testArraySize) :
    set.globalKeys[verification.testIndex testId]? = some (set.testKey verification testId) := by
  obtain ⟨holder, held, found⟩ := captured_total set verification.testIndex testId
    (testable.held testId inside)
  rw [global_entry set holder held]
  exact found

theorem right_tests_congr (same : set.globalKeys = other.globalKeys)
    (testable : set.Testable verification) (otherTestable : other.Testable verification)
    (problem : ProblemClass) (iteration : Nat) :
    set.rightTests verification problem iteration =
      other.rightTests verification problem iteration := by
  apply List.countP_congr
  intro testId member
  have inside := List.mem_range.mp member
  have key : set.testKey verification testId = other.testKey verification testId := by
    have entry := test_key_entry testable inside
    rw [same, test_key_entry otherTestable inside] at entry
    exact (Option.some.inj entry).symm
  rw [decide_eq_true_iff, decide_eq_true_iff]
  unfold KeySet.TestRight
  rw [key, count_keys_global, count_keys_global, same]

end TestKeys

section Runs

variable {commSize : Nat} {Worker : Type} [Fintype Worker]

namespace BenchmarkRun

/-- The keys that the ranks rebuild in `full_verify`, one rank behind the other. -/
def sortedKeys (program : BenchmarkProgram commSize Worker)
    (state : BenchmarkRun commSize Worker) : List Int :=
  (List.range commSize).flatMap (state.verifying program).rebuiltKeys

/-- All ranks are in front of `full_verify`. -/
def Finished (state : BenchmarkRun commSize Worker) : Prop :=
  ∀ rank, (state.ranks rank).stage = .finished

instance (state : BenchmarkRun commSize Worker) : Decidable state.Finished :=
  inferInstanceAs (Decidable (∀ rank, (state.ranks rank).stage = .finished))

/-- What the partial verifications have passed on all ranks. -/
def passedTests (state : BenchmarkRun commSize Worker) : Nat :=
  ∑ rank, (state.ranks rank).passedVerification

end BenchmarkRun

variable [DecidableEq Worker] {program : BenchmarkProgram commSize Worker}
variable {stale : Fin commSize → Workspace} {state : BenchmarkRun commSize Worker}

/-- Behind the last pass the ranks hold the keys of that pass. -/
theorem finished_sorted_keys (fits : RunFits program stale state)
    (finished : ∀ rank, (state.ranks rank).stage.isLast = true) :
    state.sortedKeys program = program.lastSet.sortedKeys := by
  rw [← sorted_keys_rebuilt]
  apply List.flatMap_congr
  intro rank member
  have inside := List.mem_range.mp member
  have agrees := (fits.ranks ⟨rank, inside⟩).snapshot (finished ⟨rank, inside⟩)
  unfold VerifyingRanks.rebuiltKeys BenchmarkRun.verifying
  dsimp only
  rw [dif_pos inside, agrees.rebuild]
  rfl

theorem finished_passed_tests (testable : program.Testable) (fits : RunFits program stale state)
    (finished : state.Finished) : state.passedTests = program.rightTests := by
  unfold BenchmarkRun.passedTests
  rw [← right_before_total testable]
  apply Finset.sum_congr rfl
  intro rank _
  have own := fits.ranks rank
  have last := own.last (by rw [finished rank]; rfl)
  have passed := own.passed testable (by rw [last]; exact program.some)
  rw [finished rank, last] at passed
  exact passed

/-- In every run, what the ranks have sorted behind the last pass is a permutation of the
keys of that pass, in ascending order over all ranks. -/
theorem benchmark_sorts
    (reached : (benchmarkSystem program).Reachable (fun _ _ => True) (.initial program stale) state)
    (finished : ∀ rank, (state.ranks rank).stage.isLast = true) :
    (state.sortedKeys program).Perm (program.lastSet.globalKeys.map Nat.cast) ∧
      (state.sortedKeys program).Pairwise (· ≤ ·) := by
  rw [finished_sorted_keys (reachable_run_fits reached) finished]
  exact ⟨sorted_permutation program.lastSet, sorted_keys_ordered program.lastSet⟩

/-- Two programs over the same rows of keys, with any numbers of ranks and threads. -/
structure SameRows {commSize others : Nat} {Worker Thread : Type} [Fintype Worker]
    [Fintype Thread] (program : BenchmarkProgram commSize Worker)
    (other : BenchmarkProgram others Thread) : Prop where
  problem : program.problem = other.problem
  verification : program.verification = other.verification
  iterations : program.iterations = other.iterations
  rows : ∀ pass, (program.pipeline.sets pass).globalKeys = (other.pipeline.sets pass).globalKeys

variable {others : Nat} {Thread : Type} [Fintype Thread] [DecidableEq Thread]
variable {other : BenchmarkProgram others Thread}
variable {otherStale : Fin others → Workspace} {otherState : BenchmarkRun others Thread}

omit [DecidableEq Worker] [DecidableEq Thread] in
theorem same_right_tests (same : SameRows program other) (testable : program.Testable)
    (otherTestable : other.Testable) : program.rightTests = other.rightTests := by
  unfold BenchmarkProgram.rightTests
  rw [same.iterations]
  apply Finset.sum_congr rfl
  intro pass member
  obtain ⟨timed, within⟩ := Finset.mem_Ico.mp member
  have tests := otherTestable pass timed (Nat.le_of_lt_succ within)
  rw [← same.verification] at tests ⊢
  rw [same.problem]
  exact right_tests_congr (same.rows pass)
    (testable pass timed (by rw [same.iterations]; exact Nat.le_of_lt_succ within)) tests _ _

/-- However many ranks and threads share the keys, and in whatever order they step: behind
the last pass they have passed as many tests and hold the same sorted keys. -/
theorem rank_count_irrelevant (same : SameRows program other) (testable : program.Testable)
    (otherTestable : other.Testable)
    (reached : (benchmarkSystem program).Reachable (fun _ _ => True) (.initial program stale) state)
    (otherReached : (benchmarkSystem other).Reachable (fun _ _ => True)
      (.initial other otherStale) otherState)
    (finished : state.Finished) (otherFinished : otherState.Finished) :
    state.passedTests = otherState.passedTests ∧
      state.sortedKeys program = otherState.sortedKeys other := by
  have fits := reachable_run_fits reached
  have otherFits := reachable_run_fits otherReached
  constructor
  · rw [finished_passed_tests testable fits finished,
      finished_passed_tests otherTestable otherFits otherFinished]
    exact same_right_tests same testable otherTestable
  · rw [finished_sorted_keys fits fun rank => by rw [finished rank]; rfl,
      finished_sorted_keys otherFits fun rank => by rw [otherFinished rank]; rfl]
    apply sorted_keys_congr
    have rows := same.rows other.iterations
    unfold BenchmarkProgram.lastSet
    rw [same.iterations]
    exact rows

end Runs

section Examples

/-- The keys of both ranks on one rank. -/
def rowKeys : KeySet 1 where
  keys _ := [3, 1]
  localKeyCount := 2
  numBuckets := 2
  bucketShift := 1
  length_eq _ := rfl
  positive := Nat.two_pos
  in_range := by decide

/-- A pass on one rank up to the ranking. -/
def rowRanking (rank : Fin 1) : List (PipelineAction 1 Unit) :=
  [.organize rank, .count rank (), .count rank (), .count rank (), .contribute rank,
    .combine rank (.leaf rank), .receive rank, .assign rank, .setAmHandler rank,
    .redistribute (.leaveBarrier rank)] ++ pairPost rank ++ pairPost rank ++
    [.redistribute (.flush rank ()), .redistribute (.inner rank () (.resume 0)),
      .redistribute (.inner rank () (.resume 0)), .redistribute (.check rank ()),
      .clearAmHandler rank, .startRanking rank] ++
    List.replicate 15 (.rankStep rank 0) ++ [.finishRanking rank]

def rowPass (rank : Fin 1) : List (BenchmarkAction 1 Unit) :=
  (rowRanking rank).map .pipeline ++ [.verifyPartialRanking rank, .finishIteration rank]

def rowActions (rank : Fin 1) : List (BenchmarkAction 1 Unit) := rowPass rank ++ rowPass rank

theorem shared_finished :
    ((benchmarkSystem (onceBenchmark sharedKeys)).run
        (.initial (onceBenchmark sharedKeys) fun _ => staleWorkspace) (sharedActions 0 1)).map
      (fun state => decide state.Finished) = some true := by
  decide +kernel

theorem row_finished :
    ((benchmarkSystem (onceBenchmark rowKeys)).run
        (.initial (onceBenchmark rowKeys) fun _ => staleWorkspace) (rowActions 0)).map
      (fun state => decide state.Finished) = some true := by
  decide +kernel

theorem benchmark_sorts_shared :
    ∃ state : BenchmarkRun 2 Unit,
      (benchmarkSystem (onceBenchmark sharedKeys)).run
          (.initial (onceBenchmark sharedKeys) fun _ => staleWorkspace) (sharedActions 0 1) =
            some state ∧
        (state.sortedKeys (onceBenchmark sharedKeys)).Perm [3, 1] ∧
          (state.sortedKeys (onceBenchmark sharedKeys)).Pairwise (· ≤ ·) := by
  obtain ⟨state, executed, stages⟩ := Option.map_eq_some_iff.mp shared_finished
  have finished : state.Finished := of_decide_eq_true stages
  have reached := TransitionSystem.any_run_reachable executed
  exact ⟨state, executed, benchmark_sorts reached fun rank => by rw [finished rank]; rfl⟩

theorem rank_count_irrelevant_shared :
    ∃ (state : BenchmarkRun 2 Unit) (otherState : BenchmarkRun 1 Unit),
      (benchmarkSystem (onceBenchmark sharedKeys)).run
          (.initial (onceBenchmark sharedKeys) fun _ => staleWorkspace) (sharedActions 0 1) =
            some state ∧
        (benchmarkSystem (onceBenchmark rowKeys)).run
            (.initial (onceBenchmark rowKeys) fun _ => staleWorkspace) (rowActions 0) =
              some otherState ∧
          state.passedTests = otherState.passedTests ∧
            state.sortedKeys (onceBenchmark sharedKeys) =
              otherState.sortedKeys (onceBenchmark rowKeys) := by
  obtain ⟨state, executed, stages⟩ := Option.map_eq_some_iff.mp shared_finished
  obtain ⟨otherState, otherExecuted, otherStages⟩ := Option.map_eq_some_iff.mp row_finished
  have reached := TransitionSystem.any_run_reachable executed
  have otherReached := TransitionSystem.any_run_reachable otherExecuted
  have same : SameRows (onceBenchmark sharedKeys) (onceBenchmark rowKeys) :=
    ⟨rfl, rfl, rfl, fun _ => rfl⟩
  have shared : sharedKeys.Testable (onceBenchmark sharedKeys).verification :=
    ⟨by decide, by decide⟩
  have row : rowKeys.Testable (onceBenchmark rowKeys).verification := ⟨by decide, by decide⟩
  exact ⟨state, otherState, executed, otherExecuted, rank_count_irrelevant same
    (fun _ _ _ => shared) (fun _ _ _ => row) reached otherReached
    (of_decide_eq_true stages) (of_decide_eq_true otherStages)⟩

end Examples

end IntegerSortLci.Benchmark
