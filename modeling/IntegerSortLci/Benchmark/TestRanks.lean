import IntegerSortLci.Benchmark.GlobalCounts
import IntegerSortLci.Benchmark.PartialVerification

/-!
# The test ranks over all ranks

What the partial verifications of one pass count together. The slots of the test keys
stay as the reduction left them until the rank has verified, the interval of one rank
holds each test key, and that rank compares the number of smaller keys with the table.
So the ranks count every right test rank once and no other.

`cumulative_by_key` is read as the storage has it, also in front of the interval: the
results are about test keys that are not the least key of an interval.
-/

namespace IntegerSortLci.Benchmark

open IntegerSortLci.Runtime IntegerSortLci.Foundations
open scoped BigOperators

set_option autoImplicit false

variable {commSize : Nat} {Worker : Type} [Fintype Worker]

section Slots

/-- The stages behind the broadcast. -/
def PipelineStage.hasTotals : PipelineStage Worker → Bool
  | .ready | .counting _ | .reducing => false
  | _ => true

variable [DecidableEq Worker] {program : Pipeline.Program commSize Worker} {rank : Fin commSize}
variable {state state' : Pipeline commSize Worker}

/-- The rank holds the test keys of its pass once it has the totals. -/
def KeepsTestKeys (program : Pipeline.Program commSize Worker)
    (progress : RankProgress Worker) : Prop :=
  progress.stage.hasTotals = true →
    (program.sets progress.iteration).Collects program.testIndex
      progress.workspace.globalBucketCounts

omit [DecidableEq Worker] in
/-- A step that leaves the totals of its rank alone. -/
theorem KeepsTestKeys.advance {progress progress' : RankProgress Worker}
    (kept : KeepsTestKeys program progress) (iteration : progress'.iteration = progress.iteration)
    (counts : progress'.workspace.globalBucketCounts = progress.workspace.globalBucketCounts)
    (before : progress.stage.hasTotals = true) : KeepsTestKeys program progress' := by
  intro _
  rw [iteration, counts]
  exact kept before

omit [DecidableEq Worker] in
theorem KeepsTestKeys.without {progress : RankProgress Worker}
    (early : progress.stage.hasTotals = false) : KeepsTestKeys program progress := by
  intro later
  rw [early] at later
  cases later

omit [DecidableEq Worker] in
/-- Only the rank that moves may lose its test keys. -/
theorem keeps_set_rank (kept : ∀ rank, KeepsTestKeys program (state.ranks rank))
    {progress : RankProgress Worker} (own : KeepsTestKeys program progress) (other : Fin commSize) :
    KeepsTestKeys program ((state.setRank rank progress).ranks other) := by
  unfold Pipeline.setRank
  dsimp only
  by_cases same : other = rank
  · subst same
    rw [Function.update_self]
    exact own
  · rw [Function.update_of_ne same]
    exact kept other

theorem keeps_step (fits : TestKeysFit program state)
    (kept : ∀ rank, KeepsTestKeys program (state.ranks rank))
    {action : PipelineAction commSize Worker}
    (stepped : PipelineStep program state action state') (other : Fin commSize) :
    KeepsTestKeys program (state'.ranks other) := by
  cases stepped with
  | organize current => exact keeps_set_rank kept (.without rfl) other
  | count current moved => exact keeps_set_rank kept (.without rfl) other
  | contribute current finished => exact keeps_set_rank kept (.without rfl) other
  | @combine rank tree current covers all reduced made =>
      refine keeps_set_rank kept (.without ?_) other
      dsimp only
      rw [current]
      rfl
  | @receive rank totals current found =>
      refine keeps_set_rank kept ?_ other
      intro _ testId inside
      have slot : (program.sets (state.ranks rank).iteration).numBuckets + testId <
          Pipeline.reducedCount program (state.ranks rank).iteration :=
        Nat.add_lt_add_left inside _
      unfold Pipeline.copied
      dsimp only
      rw [if_pos slot]
      exact fits.totals _ totals found testId inside
  | @assign rank current =>
      refine keeps_set_rank kept ?_ other
      refine (kept rank).advance rfl ?_ (by rw [current]; rfl)
      unfold Pipeline.assign Workspace.clearFrequencyRange
      dsimp only
      split <;> rfl
  | @setAmHandler rank next current moved =>
      refine keeps_set_rank kept ?_ other
      exact (kept rank).advance rfl rfl (by rw [current]; rfl)
  | redistribute next inside moved => exact kept other
  | @clearAmHandler rank am next current present moved =>
      refine keeps_set_rank kept ?_ other
      exact (kept rank).advance rfl rfl (by rw [current]; rfl)
  | @startRanking rank current =>
      refine keeps_set_rank kept ?_ other
      exact (kept rank).advance rfl rfl (by rw [current]; rfl)
  | @rankStep rank tid ranking next current moved =>
      refine keeps_set_rank kept ?_ other
      exact (kept rank).advance rfl rfl (by rw [current]; rfl)
  | @finishRanking rank ranking current finished =>
      refine keeps_set_rank kept ?_ other
      exact (kept rank).advance rfl rfl (by rw [current]; rfl)
  | nextIteration current => exact keeps_set_rank kept (.without rfl) other

theorem reachable_keeps_test_keys {stale : Fin commSize → Workspace}
    (reached : (pipelineSystem program).Reachable (fun _ _ => True) (.initial program stale) state)
    (rank : Fin commSize) : KeepsTestKeys program (state.ranks rank) := by
  have kept : ∀ rank, KeepsTestKeys program (state.ranks rank) := by
    apply reached.invariant
    · intro rank
      exact .without rfl
    · intro before after action prior kept _ stepped
      exact keeps_step (reachable_test_keys_fit prior) kept (pipeline_step_cases stepped)
  exact kept rank

end Slots

namespace KeySet

variable (set : KeySet commSize) (verification : VerificationData) (problem : ProblemClass)

/-- The key that slot `testId` holds after the reduction. -/
def testKey (testId : Nat) : Nat := ∑ rank, set.capturedKey verification.testIndex rank testId

/-- As many keys are smaller than the test key as the table has it for `iteration`. -/
def TestRight (iteration testId : Nat) : Prop :=
  ((set.countKeys fun other => decide (other < set.testKey verification testId) : Nat) : Int) =
    problem.adjustedTestRank iteration testId (verification.testRank testId)

instance (iteration testId : Nat) :
    Decidable (set.TestRight verification problem iteration testId) :=
  inferInstanceAs (Decidable (_ = _))

/-- How many test ranks are right. -/
def rightTests (iteration : Nat) : Nat :=
  (List.range testArraySize).countP fun testId =>
    decide (set.TestRight verification problem iteration testId)

/-- How many of them are about a key in the rank's interval. -/
def rightTestsOf (iteration rank : Nat) : Nat :=
  (List.range testArraySize).countP fun testId =>
    decide (set.routeKey (set.testKey verification testId) = rank) &&
      decide (set.TestRight verification problem iteration testId)

/-- The test keys are keys, and none of them is the least one of the interval it is in. -/
structure Testable : Prop where
  held : ∀ testId < testArraySize, verification.testIndex testId < commSize * set.localKeyCount
  above : ∀ testId < testArraySize,
    (set.plan (set.routeKey (set.testKey verification testId))).minKeyValue <
      set.testKey verification testId

end KeySet

section Counting

variable {set : KeySet commSize} {verification : VerificationData}

theorem test_key_held (testable : set.Testable verification) {testId : Nat}
    (inside : testId < testArraySize) :
    ∃ holder : Fin commSize, set.testKey verification testId ∈ set.keys holder := by
  obtain ⟨holder, -, found⟩ := captured_total set verification.testIndex testId
    (testable.held testId inside)
  exact ⟨holder, List.mem_of_getElem? found⟩

/-- Items that are each told from one of the groups are counted once over the groups. -/
theorem count_by_group (items : List Nat) (test : Nat → Bool) (group : Nat → Nat)
    (grouped : ∀ item ∈ items, group item < commSize) :
    ∑ rank : Fin commSize, items.countP (fun item => decide (group item = rank) && test item) =
      items.countP test := by
  induction items with
  | nil => exact Finset.sum_const_zero
  | cons item rest ih =>
      have tail := ih fun other member => grouped other (List.mem_cons_of_mem _ member)
      simp only [List.countP_cons]
      rw [Finset.sum_add_distrib, tail]
      congr 1
      rw [Finset.sum_eq_single ⟨group item, grouped item List.mem_cons_self⟩]
      · simp
      · intro rank _ different
        have apart : group item ≠ rank := fun same => different (Fin.ext same.symm)
        simp [apart]
      · intro outside
        exact absurd (Finset.mem_univ _) outside

/-- Over all ranks every right test rank is counted once. -/
theorem right_tests_total (testable : set.Testable verification) (problem : ProblemClass)
    (iteration : Nat) :
    ∑ rank : Fin commSize, set.rightTestsOf verification problem iteration rank =
      set.rightTests verification problem iteration := by
  apply count_by_group
  intro testId member
  obtain ⟨holder, held⟩ := test_key_held testable (List.mem_range.mp member)
  exact route_bounded held

theorem right_tests_at_most (set : KeySet commSize) (verification : VerificationData)
    (problem : ProblemClass) (iteration : Nat) :
    set.rightTests verification problem iteration ≤ testArraySize :=
  List.countP_le_length.trans (Nat.le_of_eq List.length_range)

theorem right_tests_all (set : KeySet commSize) (verification : VerificationData)
    (problem : ProblemClass) (iteration : Nat) :
    set.rightTests verification problem iteration = testArraySize ↔
      ∀ testId < testArraySize, set.TestRight verification problem iteration testId := by
  have all : set.rightTests verification problem iteration =
      (List.range testArraySize).length ↔ _ := List.countP_eq_length
  rw [List.length_range] at all
  rw [all]
  simp only [List.mem_range, decide_eq_true_eq]

end Counting

section Verify

/-- Reading `cumulative_by_key` wherever it is asked for. -/
def Workspace.peekCumulative (workspace : Workspace) (minKeyValue : Nat) (key : Int) : Id Nat :=
  workspace.cumulativeByKey minKeyValue key

/-- `verify_partial_keys` with what the rank's workspace and plan hold. -/
def verifyPartialRanking (problem : ProblemClass) (verification : VerificationData)
    (numBuckets iteration : Nat) (progress : RankProgress Worker) (passedVerification : Nat) :
    Nat :=
  Id.run (verifyPartialKeys problem numBuckets iteration progress.plan
    (progress.workspace.peekCumulative progress.plan.minKeyValue)
    progress.workspace.globalBucketCounts verification passedVerification)

/-- The check of slot `testId` is made and passes. -/
def partialPasses (problem : ProblemClass) (verification : VerificationData)
    (numBuckets iteration : Nat) (progress : RankProgress Worker) (testId : Nat) : Bool :=
  let result := Id.run (checkPartialVerificationKey problem numBuckets iteration progress.plan
    (progress.workspace.peekCumulative progress.plan.minKeyValue)
    progress.workspace.globalBucketCounts verification testId)
  result.checked && result.passed

omit [Fintype Worker] in
/-- The loop counts the checks that pass. -/
theorem verify_partial_count (problem : ProblemClass) (verification : VerificationData)
    (numBuckets iteration : Nat) (progress : RankProgress Worker) (passedVerification : Nat) :
    verifyPartialRanking problem verification numBuckets iteration progress passedVerification =
      passedVerification + (List.range testArraySize).countP
        (partialPasses problem verification numBuckets iteration progress) := by
  unfold verifyPartialRanking verifyPartialKeys
  generalize List.range testArraySize = testIds
  induction testIds generalizing passedVerification with
  | nil => rfl
  | cons testId rest ih =>
      rw [List.foldlM_cons, List.countP_cons]
      refine (ih _).trans ?_
      unfold partialPasses
      generalize checkPartialVerificationKey problem numBuckets iteration progress.plan
        (progress.workspace.peekCumulative progress.plan.minKeyValue)
        progress.workspace.globalBucketCounts verification testId = result
      change (if (Id.run result).checked = true ∧ (Id.run result).passed = true then
        passedVerification + 1 else passedVerification) + _ = _
      simp only [Bool.and_eq_true]
      split <;> omega

variable [DecidableEq Worker] {program : Pipeline.Program commSize Worker} {rank : Fin commSize}
variable {state : Pipeline commSize Worker} {problem : ProblemClass}
variable {verification : VerificationData} {testId : Nat}

/-- A ranked rank passes the checks of the right test ranks in its interval. -/
theorem ranked_check {stale : Fin commSize → Workspace}
    (reached : (pipelineSystem program).Reachable (fun _ _ => True) (.initial program stale) state)
    (ranked : (state.ranks rank).stage = .ranked)
    (tables : program.testIndex = verification.testIndex)
    (testable : (program.sets (state.ranks rank).iteration).Testable verification)
    (iteration : Nat) (inside : testId < testArraySize) :
    let set := program.sets (state.ranks rank).iteration
    partialPasses problem verification set.numBuckets iteration (state.ranks rank) testId =
      (decide (set.routeKey (set.testKey verification testId) = rank) &&
        decide (set.TestRight verification problem iteration testId)) := by
  obtain ⟨⟨planned, -, cumulative⟩, -, -⟩ :=
    ((reachable_pipeline_fits reached).ranks rank).at_stage ranked
  have kept := reachable_keeps_test_keys reached rank
  generalize (state.ranks rank) = progress at ranked testable planned cumulative kept ⊢
  intro set
  have slot : progress.workspace.globalBucketCounts (set.numBuckets + testId) =
      set.testKey verification testId := by
    unfold KeySet.testKey
    rw [← tables]
    exact kept (by rw [ranked]; rfl) testId inside
  obtain ⟨holder, held⟩ := test_key_held testable inside
  have plan : progress.plan = set.plan rank := planned.plan
  unfold partialPasses checkPartialVerificationKey
  dsimp only
  rw [slot]
  by_cases outside : set.testKey verification testId < progress.plan.minKeyValue ∨
      progress.plan.maxKeyValue < set.testKey verification testId
  · have other : set.routeKey (set.testKey verification testId) ≠ rank := by
      intro routed
      have between : progress.plan.minKeyValue ≤ set.testKey verification testId ∧
          set.testKey verification testId ≤ progress.plan.maxKeyValue := by
        rw [plan, ← routed]
        exact routed_interval held
      omega
    rw [if_pos outside, decide_eq_false other]
    rfl
  · have low : progress.plan.minKeyValue ≤ set.testKey verification testId := by omega
    have routed : set.routeKey (set.testKey verification testId) = rank := by
      apply (interval_routed rank.isLt ⟨?_, ?_⟩).2.1
      · rw [← plan]
        exact low
      · rw [← plan]
        omega
    have above : progress.plan.minKeyValue < set.testKey verification testId := by
      rw [plan, ← routed]
      exact testable.above testId inside
    have counted := cumulative (set.testKey verification testId - 1) (by omega) (by omega)
    have index : ((set.testKey verification testId - 1 : Nat) : Int) =
        (set.testKey verification testId : Int) - 1 := by
      omega
    have below : ∀ other, decide (other ≤ set.testKey verification testId - 1) =
        decide (other < set.testKey verification testId) := by
      intro other
      exact decide_eq_decide.mpr (by omega)
    simp only [below] at counted
    rw [if_neg outside, decide_eq_true routed, Bool.true_and]
    unfold Workspace.peekCumulative KeySet.TestRight
    rw [← index]
    change (true && decide (_ = _)) = _
    rw [Bool.true_and]
    apply decide_eq_decide.mpr
    rw [← counted, Nat.add_comm]

/-- A ranked rank adds its right test ranks to `passed_verification`. -/
theorem ranked_verification {stale : Fin commSize → Workspace}
    (reached : (pipelineSystem program).Reachable (fun _ _ => True) (.initial program stale) state)
    (ranked : (state.ranks rank).stage = .ranked)
    (tables : program.testIndex = verification.testIndex)
    (testable : (program.sets (state.ranks rank).iteration).Testable verification)
    (problem : ProblemClass) (iteration passedVerification : Nat) :
    let set := program.sets (state.ranks rank).iteration
    verifyPartialRanking problem verification set.numBuckets iteration (state.ranks rank)
        passedVerification =
      passedVerification + set.rightTestsOf verification problem iteration rank := by
  intro set
  rw [verify_partial_count]
  congr 1
  apply List.countP_congr
  intro testId member
  rw [ranked_check reached ranked tables testable iteration (List.mem_range.mp member)]

end Verify

end IntegerSortLci.Benchmark
