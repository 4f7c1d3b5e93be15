import IntegerSortLci.Benchmark.DistributedRanking

/-!
# Partial verification

`verify_partial_keys` in `verification.cpp`: the test keys that the reduction left behind
the bucket counts are ranked through `cumulative_by_key` and compared with the tables of
the problem class. The array is read through a parameter, so that the entries that a
check reads are visible: a reader may refuse those outside the rank's interval.

The check reads the entry of the key before the test key. For the least key of the
interval there is none.
-/

namespace IntegerSortLci.Benchmark

open IntegerSortLci.Runtime IntegerSortLci.Foundations
open scoped BigOperators

set_option autoImplicit false

structure VerificationData where
  testIndex : Nat → Nat
  testRank : Nat → Int

structure PartialVerificationResult where
  checked : Bool
  passed : Bool
  testId : Nat
  key : Nat
  computedRank : Nat
  expectedRank : Int
  deriving DecidableEq, Repr

namespace ProblemClass

def testIndexArray : ProblemClass → List Nat
  | S => [48427, 17148, 23627, 62548, 4431]
  | W => [357773, 934767, 875723, 898999, 404505]
  | A => [2112377, 662041, 5336171, 3642833, 4250760]
  | B => [41869, 812306, 5102857, 18232239, 26860214]
  | C => [44172927, 72999161, 74326391, 129606274, 21736814]
  | D => [1317351170, 995930646, 1157283250, 1503301535, 1453734525]
  | E => [21492309536, 24606226181, 12608530949, 4065943607, 3324513396]

def testRankArray : ProblemClass → List Int
  | S => [0, 18, 346, 64917, 65463]
  | W => [1249, 11698, 1039987, 1043896, 1048018]
  | A => [104, 17523, 123928, 8288932, 8388264]
  | B => [33422937, 10244, 59149, 33135281, 99]
  | C => [61147, 882988, 266290, 133997595, 133525895]
  | D => [1, 36538729, 1978098519, 2145192618, 2147425337]
  | E => [3, 27580354, 3248475153, 30048754302, 31485259697]

/-- `nas_verification_data`. -/
def verificationData (problem : ProblemClass) : VerificationData where
  testIndex testId := problem.testIndexArray.getD testId 0
  testRank testId := problem.testRankArray.getD testId 0

def adjustedTestRank (problem : ProblemClass) (iteration testId : Nat) (baseRank : Int) : Int :=
  match problem with
  | S | C => if testId ≤ 2 then baseRank + iteration else baseRank - iteration
  | W => if testId < 2 then baseRank + (iteration - 2) else baseRank - iteration
  | A => if testId ≤ 2 then baseRank + (iteration - 1) else baseRank - (iteration - 1)
  | B =>
      if testId = 1 ∨ testId = 2 ∨ testId = 4 then baseRank + iteration else baseRank - iteration
  | D => if testId < 2 then baseRank + iteration else baseRank - iteration
  | E =>
      if testId < 2 then baseRank + (iteration - 2)
      else if testId = 2 then
        let testRank := baseRank + (iteration - 2)
        if 4 < iteration then testRank - 2
        else if 2 < iteration then testRank - 1
        else testRank
      else baseRank - (iteration - 2)

end ProblemClass

section Check

variable {m : Type → Type} [Monad m] (problem : ProblemClass) (numBuckets : Nat)
variable (iteration : Nat) (plan : BucketPlan) (cumulativeByKey : Int → m Nat)
variable (bucketSizeTotals : Nat → Nat) (verification : VerificationData)

/-- The interval and the lesser keys are the plan's. -/
def checkPartialVerificationKey (testId : Nat) : m PartialVerificationResult :=
  let key := bucketSizeTotals (numBuckets + testId)
  let result : PartialVerificationResult :=
    { checked := false
      passed := false
      testId := testId
      key := key
      computedRank := 0
      expectedRank :=
        problem.adjustedTestRank iteration testId (verification.testRank testId) }
  if key < plan.minKeyValue ∨ plan.maxKeyValue < key then pure result
  else do
    let cumulative ← cumulativeByKey ((key : Int) - 1)
    let computedRank := cumulative + plan.lesserKeyCount
    pure { result with
      checked := true
      computedRank := computedRank
      passed := decide ((computedRank : Int) = result.expectedRank) }

/-- The loop over the test keys; the result is `passed_verification`. -/
def verifyPartialKeys (passedVerification : Nat) : m Nat :=
  (List.range testArraySize).foldlM
    (fun passed testId => do
      let result ← checkPartialVerificationKey problem numBuckets iteration plan cumulativeByKey
        bucketSizeTotals verification testId
      pure (if result.checked = true ∧ result.passed = true then passed + 1 else passed))
    passedVerification

end Check

/-- Reading `cumulative_by_key` inside the interval only. -/
def Workspace.readCumulative (workspace : Workspace) (minKeyValue maxKeyValue : Nat)
    (key : Int) : Option Nat :=
  if (minKeyValue : Int) ≤ key ∧ key ≤ maxKeyValue then
    some (workspace.cumulativeByKey minKeyValue key)
  else none

variable {commSize : Nat} {Worker : Type} [Fintype Worker] [DecidableEq Worker]

/-- The check of the key in slot `testId` stays inside the interval and computes how
many keys are smaller. -/
def ChecksRank (problem : ProblemClass) (set : KeySet commSize) (progress : RankProgress Worker)
    (bucketSizeTotals : Nat → Nat) (verification : VerificationData) (testId : Nat) : Prop :=
  ∃ result : PartialVerificationResult,
    checkPartialVerificationKey problem set.numBuckets progress.iteration progress.plan
        (progress.workspace.readCumulative progress.plan.minKeyValue progress.plan.maxKeyValue)
        bucketSizeTotals verification testId = some result ∧
      result.checked = true ∧
        result.computedRank = set.countKeys fun other =>
          decide (other < bucketSizeTotals (set.numBuckets + testId))

section Exact

variable {program : Pipeline.Program commSize Worker} {rank : Fin commSize}
variable {stale : Fin commSize → Workspace} {state : Pipeline commSize Worker}
variable {problem : ProblemClass} {set : KeySet commSize} {progress : RankProgress Worker}
variable {bucketSizeTotals : Nat → Nat} {verification : VerificationData} {testId : Nat}

/-- A check stays inside the interval unless it is about the interval's least key. -/
theorem check_inside_iff (problem : ProblemClass) (numBuckets iteration : Nat) (plan : BucketPlan)
    (workspace : Workspace) (bucketSizeTotals : Nat → Nat) (verification : VerificationData)
    (testId : Nat) :
    (checkPartialVerificationKey problem numBuckets iteration plan
        (workspace.readCumulative plan.minKeyValue plan.maxKeyValue) bucketSizeTotals verification
        testId).isSome = true ↔
      ¬(bucketSizeTotals (numBuckets + testId) = plan.minKeyValue ∧
        plan.minKeyValue ≤ plan.maxKeyValue) := by
  unfold checkPartialVerificationKey Workspace.readCumulative
  dsimp only
  by_cases outside : bucketSizeTotals (numBuckets + testId) < plan.minKeyValue ∨
      plan.maxKeyValue < bucketSizeTotals (numBuckets + testId)
  · rw [if_pos outside]
    have other : ¬(bucketSizeTotals (numBuckets + testId) = plan.minKeyValue ∧
        plan.minKeyValue ≤ plan.maxKeyValue) := by
      omega
    exact iff_of_true rfl other
  · rw [if_neg outside]
    by_cases least : bucketSizeTotals (numBuckets + testId) = plan.minKeyValue
    · rw [if_neg (by omega)]
      exact iff_of_false Bool.false_ne_true fun other => other ⟨least, by omega⟩
    · rw [if_pos (by omega)]
      exact iff_of_true rfl fun both => least both.1

omit [Fintype Worker] [DecidableEq Worker] in
/-- The check of the interval's least key reads an entry before the interval. -/
theorem least_check_fails (order : progress.plan.minKeyValue ≤ progress.plan.maxKeyValue)
    (captured : bucketSizeTotals (set.numBuckets + testId) = progress.plan.minKeyValue) :
    ¬ChecksRank problem set progress bucketSizeTotals verification testId := by
  rintro ⟨result, made, -⟩
  have inside := (check_inside_iff problem set.numBuckets progress.iteration progress.plan
    progress.workspace bucketSizeTotals verification testId).mp (by rw [made]; rfl)
  exact inside ⟨captured, order⟩

/-- At the end of the ranking, a check of a key of the interval is exact for all keys but
the interval's least one. -/
theorem partial_check_exact_iff
    (reached : (pipelineSystem program).Reachable (fun _ _ => True) (.initial program stale) state)
    (ranked : (state.ranks rank).stage = .ranked) (problem : ProblemClass)
    (bucketSizeTotals : Nat → Nat) (verification : VerificationData) (testId key : Nat)
    (captured : bucketSizeTotals
      ((program.sets (state.ranks rank).iteration).numBuckets + testId) = key)
    (low : (state.ranks rank).plan.minKeyValue ≤ key)
    (high : key ≤ (state.ranks rank).plan.maxKeyValue) :
    ChecksRank problem (program.sets (state.ranks rank).iteration) (state.ranks rank)
        bucketSizeTotals verification testId ↔
      (state.ranks rank).plan.minKeyValue < key := by
  constructor
  · intro exactly
    by_contra least
    refine least_check_fails (low.trans high) ?_ exactly
    omega
  · intro above
    have inside : ¬(key < (state.ranks rank).plan.minKeyValue ∨
        (state.ranks rank).plan.maxKeyValue < key) := by
      omega
    obtain ⟨⟨-, -, cumulative⟩, -, -⟩ :=
      ((reachable_pipeline_fits reached).ranks rank).at_stage ranked
    have counted := cumulative (key - 1) (by omega) (by omega)
    have index : ((key - 1 : Nat) : Int) = (key : Int) - 1 := by omega
    have below : ∀ other, decide (other ≤ key - 1) = decide (other < key) := by
      intro other
      exact decide_eq_decide.mpr (by omega)
    unfold ChecksRank checkPartialVerificationKey Workspace.readCumulative
    simp only [captured, if_neg inside]
    rw [if_pos (by omega)]
    refine ⟨_, rfl, rfl, ?_⟩
    dsimp only
    rw [Nat.add_comm, ← index, counted]
    simp only [below]

end Exact

section Runs

/-- One rank with both values of the one bucket. -/
def pairKeys : KeySet 1 where
  keys _ := [0, 1]
  localKeyCount := 2
  numBuckets := 1
  bucketShift := 1
  length_eq _ := rfl
  positive := Nat.two_pos
  in_range := by decide

theorem single_record_rank (rank : Fin 1) : (PhaseConfig.singleRecord rank).rank = rank := rfl

def pairProgram : Pipeline.Program 1 Unit where
  sets _ := pairKeys
  testIndex testId := testId % 2
  runs _ rank :=
    { countingTeam := {()}
      countingShare := fun _ => [0, 1]
      countingSpare := fun worker outside => absurd (Finset.mem_singleton_self worker) outside
      countingSplit := Fintype.sum_unique _
      redistribution :=
        { config := .singleRecord rank
          team := {()}
          share := fun _ => [0, 1]
          own := single_record_rank rank
          manned := unit_manned
          spare := fun worker outside => absurd (Finset.mem_singleton_self worker) outside
          split := Fintype.sum_unique _ }
      rankingThreads := 1
      schedule := soloChunks }

/-- One key posted, handled and completed. -/
def pairPost (rank : Fin 1) : List (PipelineAction 1 Unit) :=
  [.redistribute (.post rank ()), .redistribute (.inner rank () (.resume 0)),
    .redistribute (.inner rank () .handlerReturn), .redistribute (.inner rank () (.resume 0)),
    .redistribute (.inner rank () (.resume 0)), .redistribute (.inner rank () (.resume 0))]

def pairActions (rank : Fin 1) : List (PipelineAction 1 Unit) :=
  [.organize rank, .count rank (), .count rank (), .count rank (), .contribute rank,
    .combine rank (.leaf rank), .receive rank, .assign rank, .setAmHandler rank,
    .redistribute (.leaveBarrier rank)] ++ pairPost rank ++ pairPost rank ++
    [.redistribute (.flush rank ()), .redistribute (.inner rank () (.resume 0)),
      .redistribute (.inner rank () (.resume 0)), .redistribute (.check rank ()),
      .clearAmHandler rank, .startRanking rank] ++
    List.replicate 11 (.rankStep rank 0) ++ [.finishRanking rank]

/-- What a check in `progress` depends on. -/
def checkInputs (progress : RankProgress Unit) : Bool × Nat × Nat × Nat × Nat :=
  let ranked := match progress.stage with
    | .ranked => true
    | _ => false
  (ranked, progress.plan.minKeyValue, progress.plan.maxKeyValue,
    progress.workspace.globalBucketCounts 1, progress.workspace.globalBucketCounts 2)

theorem pair_inputs :
    ((pipelineSystem pairProgram).run (.initial pairProgram fun _ => staleWorkspace)
        (pairActions 0)).map (fun state => checkInputs (state.ranks 0)) =
      some (true, 0, 1, 0, 1) := by
  decide +kernel

/-- The end of the run on the two keys. -/
theorem pair_ranked : ∃ state : Pipeline 1 Unit,
    (pipelineSystem pairProgram).run (.initial pairProgram fun _ => staleWorkspace)
        (pairActions 0) = some state ∧
      checkInputs (state.ranks 0) = (true, 0, 1, 0, 1) :=
  Option.map_eq_some_iff.mp pair_inputs

theorem ranked_of_inputs {progress : RankProgress Unit} (ranked : (checkInputs progress).1 = true) :
    progress.stage = .ranked := by
  unfold checkInputs at ranked
  dsimp only at ranked
  split at ranked
  next current => exact current
  next => cases ranked

/-- The greater of the two keys is checked as it should be. -/
theorem partial_check_exact_pair : ∃ state : Pipeline 1 Unit,
    (pipelineSystem pairProgram).run (.initial pairProgram fun _ => staleWorkspace)
        (pairActions 0) = some state ∧
      ChecksRank .S pairKeys (state.ranks 0) (state.ranks 0).workspace.globalBucketCounts
        (ProblemClass.verificationData .S) 1 := by
  obtain ⟨state, executed, inputs⟩ := pair_ranked
  have ranked := ranked_of_inputs (congrArg Prod.fst inputs)
  simp only [checkInputs, Prod.mk.injEq] at inputs
  obtain ⟨-, least, greatest, -, key⟩ := inputs
  have reached := TransitionSystem.any_run_reachable executed
  exact ⟨state, executed, (partial_check_exact_iff reached ranked .S _ _ 1 1 key (by omega)
    (by omega)).mpr (by omega)⟩

/-- The other one, the least key of the interval, is not: the check leaves the interval. -/
theorem least_key_not_checked : ∃ state : Pipeline 1 Unit,
    (pipelineSystem pairProgram).run (.initial pairProgram fun _ => staleWorkspace)
        (pairActions 0) = some state ∧
      (state.ranks 0).stage = .ranked ∧ 0 ∈ pairKeys.keys 0 ∧
        (state.ranks 0).plan.minKeyValue = 0 ∧ (state.ranks 0).plan.maxKeyValue = 1 ∧
          (state.ranks 0).workspace.globalBucketCounts (pairKeys.numBuckets + 0) = 0 ∧
            ¬ChecksRank .S pairKeys (state.ranks 0) (state.ranks 0).workspace.globalBucketCounts
              (ProblemClass.verificationData .S) 0 := by
  obtain ⟨state, executed, inputs⟩ := pair_ranked
  have ranked := ranked_of_inputs (congrArg Prod.fst inputs)
  simp only [checkInputs, Prod.mk.injEq] at inputs
  obtain ⟨-, least, greatest, key, -⟩ := inputs
  refine ⟨state, executed, ranked, by decide, least, greatest, key, ?_⟩
  apply least_check_fails
  · omega
  · rw [least]
    exact key

end Runs

end IntegerSortLci.Benchmark
