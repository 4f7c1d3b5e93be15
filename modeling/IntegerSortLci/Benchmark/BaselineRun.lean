import IntegerSortLci.Benchmark.BaselineRefinement
import IntegerSortLci.Benchmark.BenchmarkVerdict

/-!
# A whole run of the MPI baseline

`main` of `is.c` behind `create_seq`: a free iteration and the timed ones, each with its
partial verification, then `full_verify` and the sum of the counters. The arrays of a
rank go from one call of `rank` to the next as they are.

The program over LCI moves the keys one by one and checks a histogram; the baseline sends
slices and places the keys. On the same keys both count the same verifications.
-/

namespace IntegerSortLci.Benchmark

open IntegerSortLci.Runtime IntegerSortLci.Foundations
open scoped BigOperators

set_option autoImplicit false

variable {commSize : Nat}

/-- The switch over `CLASS` in `rank`. -/
def baselineTestRank (problem : ProblemClass) (iteration i : Nat) (testRank : Int) : Int :=
  match problem with
  | .S => if i ≤ 2 then testRank + iteration else testRank - iteration
  | .W => if i < 2 then testRank + (iteration - 2) else testRank - iteration
  | .A => if i ≤ 2 then testRank + (iteration - 1) else testRank - (iteration - 1)
  | .B => if i = 1 ∨ i = 2 ∨ i = 4 then testRank + iteration else testRank - iteration
  | .C => if i ≤ 2 then testRank + iteration else testRank - iteration
  | .D => if i < 2 then testRank + iteration else testRank - iteration
  | .E =>
      if i < 2 then testRank + (iteration - 2)
      else if i = 2 then
        if 4 < iteration then testRank + (iteration - 2) - 2
        else if 2 < iteration then testRank + (iteration - 2) - 1
        else testRank + (iteration - 2)
      else testRank - (iteration - 2)

namespace BaselineRanks

variable (ranks : BaselineRanks) (keyArray : Buffer Nat)

/-- The body of the loop over the test keys: it counts the key in slot `i`. -/
def countsTestKey (problem : ProblemClass) (verification : VerificationData)
    (bucketSizeTotals : Nat → Nat) (numBuckets iteration i : Nat) : Bool :=
  let k := bucketSizeTotals (i + numBuckets)
  if ranks.minKeyVal ≤ k ∧ k ≤ ranks.maxKeyVal then
    let keyRank := ranks.keyBuff1 ((k : Int) - 1 - ranks.minKeyVal) + ranks.m
    decide ((keyRank : Int) = baselineTestRank problem iteration i (verification.testRank i))
  else false

/-- The loop at the end of `rank`; the result is `passed_verification`. -/
def verifyTestKeys (problem : ProblemClass) (verification : VerificationData)
    (bucketSizeTotals : Nat → Nat) (numBuckets iteration passedVerification : Nat) : Nat :=
  (List.range testArraySize).foldl
    (fun passed i =>
      if ranks.countsTestKey problem verification bucketSizeTotals numBuckets iteration i then
        passed + 1
      else passed)
    passedVerification

/-- The key that `full_verify` sends to the next processor. -/
def sentKey : Nat :=
  let lastLocalKey := if ranks.j < 1 then 0 else ranks.j - 1
  ranks.placeKeys keyArray lastLocalKey

/-- `j` at the end of `full_verify`: the number of keys out of sort. -/
def outOfSort (myRank k : Nat) : Nat :=
  let sorted := ranks.placeKeys keyArray
  (if 0 < myRank ∧ 0 < ranks.j ∧ sorted 0 < k then 1 else 0) +
    ∑ i ∈ Finset.Ico 1 ranks.j, if sorted (i : Int) < sorted ((i - 1 : Nat) : Int) then 1 else 0

end BaselineRanks

/-- The arrays of a rank behind `rank`. -/
def BaselineArrays.leave (set : KeySet commSize) (testIndex : Nat → Nat)
    (stale : Fin commSize → BaselineArrays) (rank : Fin commSize) : BaselineArrays :=
  { BaselineArrays.exchanged set testIndex stale rank with
    keyBuff1 := (baselineRank set testIndex stale rank).keyBuff1 }

/-- `key_array` of a rank. -/
def KeySet.keyArray (set : KeySet commSize) (rank : Fin commSize) : Buffer Nat :=
  fun position => ((set.keys rank)[position.toNat]?).getD 0

/-- What `main` of `is.c` is run on; `sets 0` are the keys of the free iteration. -/
structure BaselineProgram (commSize : Nat) where
  sets : Nat → KeySet commSize
  problem : ProblemClass
  verification : VerificationData
  iterations : Nat

namespace BaselineProgram

variable (program : BaselineProgram commSize) (stale : Fin commSize → BaselineArrays)

/-- The arrays of all ranks in front of a call of `rank`. -/
def arraysBefore : Nat → Fin commSize → BaselineArrays
  | 0 => stale
  | pass + 1 =>
      BaselineArrays.leave (program.sets pass) program.verification.testIndex (arraysBefore pass)

/-- What a call of `rank` computes. -/
def ranked (pass : Nat) (rank : Fin commSize) : BaselineRanks :=
  baselineRank (program.sets pass) program.verification.testIndex
    (program.arraysBefore stale pass) rank

/-- `passed_verification` of a rank behind a timed iteration. The counter starts behind the
free one. -/
def passedVerification (rank : Fin commSize) : Nat → Nat
  | 0 => 0
  | iteration + 1 =>
      (program.ranked stale (iteration + 1) rank).verifyTestKeys program.problem
        program.verification
        (BaselineArrays.reduced (program.sets (iteration + 1)) program.verification.testIndex
          (program.arraysBefore stale (iteration + 1)) rank).bucketSizeTotals
        (program.sets (iteration + 1)).numBuckets (iteration + 1)
        (passedVerification rank iteration)

/-- Whether a rank counts test key `i` of an iteration. -/
def countsTestKey (iteration : Nat) (rank : Fin commSize) (i : Nat) : Bool :=
  (program.ranked stale iteration rank).countsTestKey program.problem program.verification
    (BaselineArrays.reduced (program.sets iteration) program.verification.testIndex
      (program.arraysBefore stale iteration) rank).bucketSizeTotals
    (program.sets iteration).numBuckets iteration i

/-- What a rank sends in `full_verify`. -/
def sentKey (rank : Fin commSize) : Nat :=
  (program.ranked stale program.iterations rank).sentKey
    ((program.sets program.iterations).keyArray rank)

/-- `k`, which rank 0 neither receives nor reads. -/
def receivedKey (rank : Fin commSize) : Nat :=
  program.sentKey stale ⟨rank - 1, (Nat.sub_le _ _).trans_lt rank.isLt⟩

/-- The keys that a rank finds out of sort. -/
def outOfSort (rank : Fin commSize) : Nat :=
  (program.ranked stale program.iterations rank).outOfSort
    ((program.sets program.iterations).keyArray rank) rank (program.receivedKey stale rank)

/-- `passed_verification` of a rank behind `full_verify`. -/
def fullVerify (rank : Fin commSize) : Nat :=
  if program.outOfSort stale rank ≠ 0 then
    program.passedVerification stale rank program.iterations
  else program.passedVerification stale rank program.iterations + 1

/-- What a rank has counted where the one over LCI is at `stage` of a timed pass. -/
def counterAt (rank : Fin commSize) (iteration : Nat) : RunStage → Nat
  | .ranking => program.passedVerification stale rank (iteration - 1)
  | .verified | .finished => program.passedVerification stale rank iteration
  | .counted => program.fullVerify stale rank

/-- `passed_verification` of the root behind `MPI_Reduce`. -/
def reducedVerification : Nat := ∑ rank, program.fullVerify stale rank

/-- The counter that the root prints the verdict from. -/
def verificationStatus : Nat :=
  if program.reducedVerification stale ≠ 5 * program.iterations + commSize then 0
  else program.reducedVerification stale

end BaselineProgram

/-- The baseline on the keys and tables of a benchmark. -/
def BenchmarkProgram.baseline {Worker : Type} [Fintype Worker]
    (program : BenchmarkProgram commSize Worker) : BaselineProgram commSize where
  sets := program.pipeline.sets
  problem := program.problem
  verification := program.verification
  iterations := program.iterations

variable {set : KeySet commSize} {rank : Fin commSize} {stale : Fin commSize → BaselineArrays}

section TestKeys

variable {verification : VerificationData} {testId : Nat}

theorem baseline_test_rank (problem : ProblemClass) (iteration i : Nat) (testRank : Int) :
    baselineTestRank problem iteration i testRank =
      problem.adjustedTestRank iteration i testRank := by
  cases problem <;> rfl

theorem bucket_size_slot (testIndex : Nat → Nat) (arrays : BaselineArrays)
    (inside : testId < testArraySize) :
    (arrays.sortIntoBuckets set testIndex rank).bucketSize (set.numBuckets + testId) =
      set.capturedKey testIndex rank testId := by
  have none : (set.keys rank).countP
      (fun key => set.bucketOf key == set.numBuckets + testId) = 0 := by
    apply List.countP_eq_zero.mpr
    intro key member
    have below := bucket_bounded member
    rw [beq_iff_eq]
    omega
  unfold BaselineArrays.sortIntoBuckets
  dsimp only
  rw [increments_count, none, Nat.add_zero, capture_slot _ _ _ _ _ _ inside]
  rfl

theorem reduced_slot (stale : Fin commSize → BaselineArrays) (rank : Fin commSize)
    (inside : testId < testArraySize) :
    (BaselineArrays.reduced set verification.testIndex stale rank).bucketSizeTotals
        (testId + set.numBuckets) = set.testKey verification testId := by
  unfold BaselineArrays.reduced allreduce
  dsimp only
  rw [Nat.add_comm testId, if_pos (Nat.add_lt_add_left inside _)]
  apply Finset.sum_congr rfl
  intro other _
  exact bucket_size_slot _ _ inside

/-- The baseline counts a right test rank on the rank whose interval has the test key. -/
theorem baseline_counts (testable : set.Testable verification) (problem : ProblemClass)
    (iteration : Nat) (inside : testId < testArraySize) :
    (baselineRank set verification.testIndex stale rank).countsTestKey problem verification
        (BaselineArrays.reduced set verification.testIndex stale rank).bucketSizeTotals
        set.numBuckets iteration testId =
      (decide (set.routeKey (set.testKey verification testId) = rank) &&
        decide (set.TestRight verification problem iteration testId)) := by
  obtain ⟨min, max, lesser, -⟩ := baseline_plan set verification.testIndex stale rank
  obtain ⟨holder, held⟩ := test_key_held testable inside
  have above := testable.above testId inside
  unfold BaselineRanks.countsTestKey
  dsimp only
  rw [reduced_slot stale rank inside, min, max, lesser, baseline_test_rank]
  by_cases routed : set.routeKey (set.testKey verification testId) = rank
  · have between := routed_interval held
    rw [routed] at above between
    rw [if_pos between, decide_eq_true routed, Bool.true_and]
    have low : (set.plan rank).minKeyValue ≤ set.testKey verification testId - 1 := by omega
    have high : set.testKey verification testId - 1 ≤ (set.plan rank).maxKeyValue := by omega
    have counted : (baselineRank set verification.testIndex stale rank).keyBuffPtr
        (set.testKey verification testId - 1) = _ := baseline_cumulative low high
    have lesser := lesser_occurrences rank.isLt low high
    have index : ((set.testKey verification testId - 1 : Nat) : Int) =
        (set.testKey verification testId : Int) - 1 := by
      omega
    have below : ∀ other, decide (other ≤ set.testKey verification testId - 1) =
        decide (other < set.testKey verification testId) := by
      intro other
      exact decide_eq_decide.mpr (by omega)
    simp only [below] at lesser
    unfold BaselineRanks.keyBuffPtr KeySet.intervalCount at counted
    rw [index, min] at counted
    apply decide_eq_decide.mpr
    unfold KeySet.TestRight
    rw [counted, Nat.add_comm, lesser]
  · have outside : ¬((set.plan rank).minKeyValue ≤ set.testKey verification testId ∧
        set.testKey verification testId ≤ (set.plan rank).maxKeyValue) :=
      fun between => routed (interval_routed rank.isLt between).2.1
    rw [if_neg outside, decide_eq_false routed, Bool.false_and]

/-- The partial verification of the baseline counts what the one over LCI does. -/
theorem baseline_test_keys (testable : set.Testable verification) (problem : ProblemClass)
    (iteration passedVerification : Nat) :
    (baselineRank set verification.testIndex stale rank).verifyTestKeys problem verification
        (BaselineArrays.reduced set verification.testIndex stale rank).bucketSizeTotals
        set.numBuckets iteration passedVerification =
      passedVerification + set.rightTestsOf verification problem iteration rank := by
  have slots : ∀ testIds : List Nat, (∀ testId ∈ testIds, testId < testArraySize) →
      ∀ passedVerification, testIds.foldl
        (fun passed i =>
          if (baselineRank set verification.testIndex stale rank).countsTestKey problem
              verification
              (BaselineArrays.reduced set verification.testIndex stale rank).bucketSizeTotals
              set.numBuckets iteration i then passed + 1
          else passed) passedVerification =
        passedVerification + testIds.countP fun testId =>
          decide (set.routeKey (set.testKey verification testId) = rank) &&
            decide (set.TestRight verification problem iteration testId) := by
    intro testIds
    induction testIds with
    | nil => exact fun _ _ => rfl
    | cons testId rest ih =>
        intro bounded passedVerification
        rw [List.foldl_cons, List.countP_cons,
          ih fun other member => bounded other (List.mem_cons_of_mem _ member),
          baseline_counts testable problem iteration (bounded testId List.mem_cons_self)]
        split <;> omega
  exact slots _ (fun testId member => List.mem_range.mp member) _

end TestKeys

section Sorted

theorem key_array_nat (set : KeySet commSize) (rank : Fin commSize) :
    set.verifyingRanks.keyArrays rank = Nat.cast ∘ set.keyArray rank := by
  funext position
  exact dif_pos rank.isLt

theorem sorted_position (keyArray : Buffer Nat) {position : Nat} (testIndex : Nat → Nat)
    (stale : Fin commSize → BaselineArrays)
    (inside : position < (set.plan rank).localKeyCount) :
    ((set.snapshot rank).rebuild (Nat.cast ∘ keyArray)).2 position =
      ((baselineRank set testIndex stale rank).placeKeys keyArray position : Int) := by
  obtain ⟨i, bounded, low, high⟩ := (intervalChunks set rank).owner inside
  have placed : (baselineRank set testIndex stale rank).placeKeys keyArray position = _ :=
    placed_key keyArray bounded low high
  have counted : ∀ count, ∑ i ∈ Finset.range count, (set.snapshot rank).frequencyHistogram
      ((set.snapshot rank).minKeyValue + (i : Int)) = set.intervalCount rank count := by
    intro count
    apply Finset.sum_congr rfl
    intro i _
    exact congrArg set.occurrences (by unfold KeySet.snapshot; dsimp only; omega)
  have range : i < ((set.snapshot rank).maxKeyValue + 1 -
      (set.snapshot rank).minKeyValue).toNat := by
    unfold KeySet.snapshot KeySet.intervalRange at *
    dsimp only
    omega
  rw [placed, Nat.cast_add]
  apply rebuilt_key _ _ _ range
  · rw [counted]
    exact low
  · rw [counted]
    exact high

theorem sorted_empty (keyArray : Buffer Nat) (testIndex : Nat → Nat)
    (stale : Fin commSize → BaselineArrays) (empty : (set.plan rank).localKeyCount = 0) :
    ((set.snapshot rank).rebuild (Nat.cast ∘ keyArray)).2 0 =
      ((baselineRank set testIndex stale rank).placeKeys keyArray 0 : Int) := by
  obtain ⟨-, -, -, total⟩ := baseline_plan set testIndex stale rank
  have length := consistent_length _ (planned_consistent set rank.isLt)
  have none : (set.snapshot rank).keySequence = [] :=
    List.length_eq_zero_iff.mp (length.symm.trans empty)
  have kept : (baselineRank set testIndex stale rank).placeKeys keyArray = keyArray := by
    unfold BaselineRanks.placeKeys
    rw [total, empty]
    rfl
  rw [(rebuild_spec (set.snapshot rank) _).2.2 none, kept]
  rfl

theorem baseline_sent (set : KeySet commSize) (testIndex : Nat → Nat)
    (stale : Fin commSize → BaselineArrays) (rank : Fin commSize) :
    (set.snapshot rank).sentKey (set.verifyingRanks.keyArrays rank) =
      ((baselineRank set testIndex stale rank).sentKey (set.keyArray rank) : Int) := by
  obtain ⟨-, -, -, total⟩ := baseline_plan set testIndex stale rank
  have length := consistent_length _ (planned_consistent set rank.isLt)
  have count := (rebuild_spec (set.snapshot rank) (set.verifyingRanks.keyArrays rank)).1
  rw [← length] at count
  unfold FullVerifySnapshot.sentKey FullVerifySnapshot.lastLocalKey BaselineRanks.sentKey
  dsimp only
  rw [count, total, key_array_nat]
  change ((set.snapshot rank).rebuild _).2
    ((if (set.plan rank).localKeyCount = 0 then (set.plan rank).localKeyCount
      else (set.plan rank).localKeyCount - 1 : Nat) : Int) = _
  by_cases empty : (set.plan rank).localKeyCount = 0
  · rw [if_pos empty, if_pos (by omega), empty]
    exact sorted_empty (set.keyArray rank) testIndex stale empty
  · rw [if_neg empty, if_neg (by omega)]
    exact sorted_position (set.keyArray rank) testIndex stale (by omega)

theorem baseline_out_of_sort (set : KeySet commSize) (testIndex : Nat → Nat)
    (stale : Fin commSize → BaselineArrays) (rank : Fin commSize) (myRank k : Nat) :
    (set.snapshot rank).outOfOrder (set.verifyingRanks.keyArrays rank) myRank k =
      (baselineRank set testIndex stale rank).outOfSort (set.keyArray rank) myRank k := by
  obtain ⟨-, -, -, total⟩ := baseline_plan set testIndex stale rank
  have held : (set.snapshot rank).totalLocalKeys = (set.plan rank).localKeyCount := rfl
  unfold FullVerifySnapshot.outOfOrder BaselineRanks.outOfSort
  dsimp only
  rw [total, held, key_array_nat]
  congr 1
  · apply if_congr _ rfl rfl
    apply and_congr_right
    intro _
    apply and_congr_right
    intro some
    have first := sorted_position (set.keyArray rank) testIndex stale some
    rw [Nat.cast_zero] at first
    rw [first, Nat.cast_lt]
  · apply Finset.sum_congr rfl
    intro i member
    obtain ⟨low, high⟩ := Finset.mem_Ico.mp member
    apply if_congr _ rfl rfl
    rw [sorted_position _ testIndex stale high, sorted_position _ testIndex stale (by omega),
      Nat.cast_lt]

end Sorted

section Agreement

variable {Worker : Type} [Fintype Worker] {program : BenchmarkProgram commSize Worker}

/-- A rank of the baseline has counted its right test ranks of the timed iterations. -/
theorem baseline_passed (testable : program.Testable) (stale : Fin commSize → BaselineArrays)
    (rank : Fin commSize) {iteration : Nat} (within : iteration ≤ program.iterations) :
    program.baseline.passedVerification stale rank iteration =
      program.rightBefore rank (iteration + 1) := by
  induction iteration with
  | zero => rfl
  | succ iteration ih =>
      have before := ih (Nat.le_of_succ_le within)
      have counted : program.baseline.passedVerification stale rank (iteration + 1) = _ :=
        baseline_test_keys (testable (iteration + 1) (Nat.succ_pos _) within) program.problem
          (iteration + 1) (program.baseline.passedVerification stale rank iteration)
      rw [right_before_succ program rank (Nat.succ_pos iteration),
        pass_iteration_timed _ (Nat.succ_pos iteration) within, counted, before]

/-- The neighbour's key is the one that the exchange over LCI delivers. -/
theorem baseline_received (program : BenchmarkProgram commSize Worker)
    (stale : Fin commSize → BaselineArrays) {rank : Fin commSize} (later : rank.val ≠ 0) :
    program.lastSet.verifyingRanks.previousRankLastKey rank =
      (program.baseline.receivedKey stale rank : Int) := by
  unfold VerifyingRanks.previousRankLastKey
  rw [if_neg later]
  exact baseline_sent program.lastSet program.verification.testIndex
    (program.baseline.arraysBefore stale program.iterations)
    ⟨rank - 1, (Nat.sub_le _ _).trans_lt rank.isLt⟩

theorem planned_out_of_sort (program : BenchmarkProgram commSize Worker)
    (stale : Fin commSize → BaselineArrays) (rank : Fin commSize) :
    (program.lastSet.snapshot rank).outOfOrder (program.lastSet.verifyingRanks.keyArrays rank)
        rank (program.lastSet.verifyingRanks.previousRankLastKey rank) =
      program.baseline.outOfSort stale rank := by
  have agrees : (program.lastSet.snapshot rank).outOfOrder
      (program.lastSet.verifyingRanks.keyArrays rank) rank
        (program.baseline.receivedKey stale rank) = program.baseline.outOfSort stale rank :=
    baseline_out_of_sort program.lastSet program.verification.testIndex
      (program.baseline.arraysBefore stale program.iterations) rank rank
      (program.baseline.receivedKey stale rank)
  by_cases first : rank.val = 0
  · rw [← agrees]
    unfold FullVerifySnapshot.outOfOrder
    simp only [first, Nat.lt_irrefl, false_and, if_false]
  · rw [baseline_received program stale first]
    exact agrees

theorem baseline_full_verify (program : BenchmarkProgram commSize Worker)
    (stale : Fin commSize → BaselineArrays) (rank : Fin commSize) :
    program.baseline.fullVerify stale rank =
      program.baseline.passedVerification stale rank program.iterations +
        program.fullPass rank := by
  have full : program.fullPass rank =
      if (program.lastSet.snapshot rank).outOfOrder
          (program.lastSet.verifyingRanks.keyArrays rank) rank
          (program.lastSet.verifyingRanks.previousRankLastKey rank) ≠ 0 then 0
      else 1 := rfl
  rw [full, planned_out_of_sort program stale rank]
  unfold BaselineProgram.fullVerify
  change (if _ ≠ 0 then program.baseline.passedVerification stale rank program.iterations
    else program.baseline.passedVerification stale rank program.iterations + 1) = _
  split <;> rfl

variable [DecidableEq Worker] {stale : Fin commSize → Workspace} {rank : Fin commSize}
variable {state : BenchmarkRun commSize Worker} {count : Nat}

/-- A ranked rank passes the checks that the baseline counts. -/
theorem checks_match (testable : program.Testable) (fits : RunFits program stale state)
    (arrays : Fin commSize → BaselineArrays)
    (timed : 0 < (state.pipeline.ranks rank).iteration)
    (ranked : (state.pipeline.ranks rank).stage = .ranked) {testId : Nat}
    (inside : testId < testArraySize) :
    partialPasses program.problem program.verification
        (program.pipeline.sets (state.pipeline.ranks rank).iteration).numBuckets
        (passIteration program.iterations (state.pipeline.ranks rank).iteration)
        (state.pipeline.ranks rank) testId =
      program.baseline.countsTestKey arrays (state.pipeline.ranks rank).iteration rank testId := by
  have within := (fits.ranks rank).within
  have tests := testable _ timed within
  have counted : program.baseline.countsTestKey arrays (state.pipeline.ranks rank).iteration rank
      testId = _ :=
    baseline_counts tests program.problem (state.pipeline.ranks rank).iteration inside
  rw [counted, pass_iteration_timed _ timed within]
  exact ranked_check fits.pipeline ranked program.tables tests _ inside

/-- Both programs have counted the same. -/
theorem counters_match (testable : program.Testable) (fits : RunFits program stale state)
    (arrays : Fin commSize → BaselineArrays)
    (timed : 0 < (state.pipeline.ranks rank).iteration) :
    (state.ranks rank).passedVerification =
      program.baseline.counterAt arrays rank (state.pipeline.ranks rank).iteration
        (state.ranks rank).stage := by
  have own := fits.ranks rank
  have passed := own.passed testable timed
  have within := own.within
  have counted : program.baseline.passedVerification arrays rank
      (state.pipeline.ranks rank).iteration = _ := baseline_passed testable arrays rank within
  cases current : (state.ranks rank).stage with
  | ranking =>
      rw [current] at passed
      have before : program.baseline.passedVerification arrays rank
          ((state.pipeline.ranks rank).iteration - 1) = _ :=
        baseline_passed testable arrays rank (by omega)
      rw [Nat.sub_add_cancel timed] at before
      rw [passed]
      exact before.symm
  | verified | finished =>
      rw [current] at passed
      rw [passed]
      exact counted.symm
  | counted =>
      rw [current] at passed
      have last := own.last (by rw [current]; rfl)
      rw [last] at counted passed
      rw [passed]
      change _ = program.baseline.fullVerify arrays rank
      rw [baseline_full_verify, counted]
      rfl

/-- A rank that has its neighbour's key is to find as many keys out of sort. -/
theorem order_matches (fits : RunFits program stale state) (arrays : Fin commSize → BaselineArrays)
    (last : (state.ranks rank).stage.isLast = true)
    (past : (state.exchange rank).stage = .past) :
    (state.ranks rank).finalSnapshot.outOfOrder (program.lastSet.verifyingRanks.keyArrays rank)
        rank (state.exchange rank).previousRankLastKey =
      program.baseline.outOfSort arrays rank := by
  rw [((fits.ranks rank).snapshot last).order, exchange_delivers fits.exchange past]
  exact planned_out_of_sort program arrays rank

theorem totals_match (testable : program.Testable) (fits : RunFits program stale state)
    (arrays : Fin commSize → BaselineArrays) (reduced : state.passedVerification = some count) :
    count = program.baseline.reducedVerification arrays := by
  obtain ⟨counted, sum⟩ := fits.total count reduced
  rw [sum]
  apply Finset.sum_congr rfl
  intro rank _
  have last := (fits.ranks rank).last (by rw [counted rank]; rfl)
  have timed : 0 < (state.pipeline.ranks rank).iteration := by
    rw [last]
    exact program.some
  have same := counters_match testable fits arrays timed
  rw [counted rank] at same
  exact same

/-- In every run the benchmark checks what the MPI baseline checks on the same keys, whatever
is in the arrays of either when they start: each rank passes the same tests, finds as many
keys out of sort and counts as much, and the root prints the same counter. -/
theorem benchmark_matches_baseline (testable : program.Testable)
    (reached : (benchmarkSystem program).Reachable (fun _ _ => True) (.initial program stale) state)
    (arrays : Fin commSize → BaselineArrays) :
    (∀ rank, 0 < (state.pipeline.ranks rank).iteration →
      (state.ranks rank).passedVerification =
          program.baseline.counterAt arrays rank (state.pipeline.ranks rank).iteration
            (state.ranks rank).stage ∧
        ((state.pipeline.ranks rank).stage = .ranked → ∀ testId < testArraySize,
          partialPasses program.problem program.verification
              (program.pipeline.sets (state.pipeline.ranks rank).iteration).numBuckets
              (passIteration program.iterations (state.pipeline.ranks rank).iteration)
              (state.pipeline.ranks rank) testId =
            program.baseline.countsTestKey arrays (state.pipeline.ranks rank).iteration rank
              testId)) ∧
    (∀ rank, (state.ranks rank).stage.isLast = true → (state.exchange rank).stage = .past →
      (state.ranks rank).finalSnapshot.outOfOrder (program.lastSet.verifyingRanks.keyArrays rank)
          rank (state.exchange rank).previousRankLastKey =
        program.baseline.outOfSort arrays rank) ∧
    ∀ count, state.passedVerification = some count →
      count = program.baseline.reducedVerification arrays ∧
        finalVerificationStatus program.iterations count commSize =
          program.baseline.verificationStatus arrays := by
  have fits := reachable_run_fits reached
  refine ⟨?_, ?_, ?_⟩
  · intro rank timed
    exact ⟨counters_match testable fits arrays timed, fun ranked testId inside =>
      checks_match testable fits arrays timed ranked inside⟩
  · intro rank last past
    exact order_matches fits arrays last past
  · intro count reduced
    have total := totals_match testable fits arrays reduced
    refine ⟨total, ?_⟩
    unfold finalVerificationStatus BaselineProgram.verificationStatus
    rw [← total]
    change _ = if count ≠ expectedVerificationCount program.iterations commSize then 0 else count
    by_cases same : count = expectedVerificationCount program.iterations commSize
    · rw [if_pos same, if_neg (not_not.mpr same)]
    · rw [if_neg same, if_pos same]

theorem shared_counters :
    ((benchmarkSystem (onceBenchmark sharedKeys)).run
        (.initial (onceBenchmark sharedKeys) fun _ => staleWorkspace)
        (sharedVerdict 0 1)).map (fun state =>
      (decide (∀ rank, (state.ranks rank).stage = .counted ∧
          (state.pipeline.ranks rank).iteration = 1 ∧ (state.exchange rank).stage = .past),
        (state.ranks 0).passedVerification, (state.ranks 1).passedVerification,
        state.passedVerification)) = some (true, 1, 6, some 7) := by
  decide +kernel

/-- The five tests are about the key that the second rank gets from the first one. -/
theorem benchmark_matches_baseline_shared :
    ∃ state : BenchmarkRun 2 Unit,
      (benchmarkSystem (onceBenchmark sharedKeys)).run
          (.initial (onceBenchmark sharedKeys) fun _ => staleWorkspace) (sharedVerdict 0 1) =
            some state ∧
        (onceBenchmark sharedKeys).baseline.fullVerify (fun _ => staleBaseline) 0 = 1 ∧
          (onceBenchmark sharedKeys).baseline.fullVerify (fun _ => staleBaseline) 1 = 6 ∧
            (state.ranks 1).finalSnapshot.outOfOrder
                (sharedKeys.verifyingRanks.keyArrays 1) 1
                (state.exchange 1).previousRankLastKey =
              (onceBenchmark sharedKeys).baseline.outOfSort (fun _ => staleBaseline) 1 ∧
              (onceBenchmark sharedKeys).baseline.verificationStatus (fun _ => staleBaseline) =
                7 := by
  obtain ⟨state, executed, ends⟩ := Option.map_eq_some_iff.mp shared_counters
  simp only [Prod.mk.injEq, decide_eq_true_eq] at ends
  obtain ⟨stages, first, second, reduced⟩ := ends
  have reached := TransitionSystem.any_run_reachable executed
  have passes : sharedKeys.Testable (onceBenchmark sharedKeys).verification :=
    ⟨by decide, by decide⟩
  have testable : (onceBenchmark sharedKeys).Testable := fun _ _ _ => passes
  obtain ⟨counters, order, verdict⟩ :=
    benchmark_matches_baseline testable reached fun _ => staleBaseline
  have counter : ∀ rank, (state.ranks rank).passedVerification =
      (onceBenchmark sharedKeys).baseline.fullVerify (fun _ => staleBaseline) rank := by
    intro rank
    obtain ⟨counted, pass, -⟩ := stages rank
    have same := (counters rank (by omega)).1
    rw [counted] at same
    exact same
  refine ⟨state, executed, ?_, ?_, ?_, (verdict 7 reduced).2.symm⟩
  · rw [← counter 0, first]
  · rw [← counter 1, second]
  · exact order 1 (by rw [(stages 1).1]; rfl) (stages 1).2.2

end Agreement

end IntegerSortLci.Benchmark
