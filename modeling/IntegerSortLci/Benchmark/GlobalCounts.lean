import IntegerSortLci.Benchmark.DistributedRanking

/-!
# The reduced counts and test keys

What every rank holds after `compute_global_bucket_sizes`: the sizes of the buckets over
all ranks and, behind them, the test keys. A test key goes through the same sum as the
counts. One rank puts it into its slot, the others leave zero there, and the merge of
the private histograms does not reach the slots.
-/

namespace IntegerSortLci.Benchmark

open IntegerSortLci.Runtime IntegerSortLci.Foundations
open scoped BigOperators

set_option autoImplicit false

variable {commSize : Nat} {Worker : Type} [Fintype Worker]

/-- What a rank puts into the slot of a test key. -/
def KeySet.capturedKey (set : KeySet commSize) (testIndex : Nat → Nat) (rank : Fin commSize)
    (testId : Nat) : Nat :=
  if testIndex testId / set.localKeyCount = rank then
    ((set.keys rank)[testIndex testId % set.localKeyCount]?).getD 0
  else 0

/-- The slots hold what the rank has captured. -/
def KeySet.Captures (set : KeySet commSize) (testIndex : Nat → Nat) (rank : Fin commSize)
    (counts : Nat → Nat) : Prop :=
  ∀ testId < testArraySize,
    counts (set.numBuckets + testId) = set.capturedKey testIndex rank testId

/-- The slots hold what all ranks have captured. -/
def KeySet.Collects (set : KeySet commSize) (testIndex : Nat → Nat) (counts : Nat → Nat) : Prop :=
  ∀ testId < testArraySize,
    counts (set.numBuckets + testId) = ∑ rank, set.capturedKey testIndex rank testId

/-- One rank has the key of a global index. -/
theorem captured_total (set : KeySet commSize) (testIndex : Nat → Nat) (testId : Nat)
    (below : testIndex testId < commSize * set.localKeyCount) :
    ∃ holder : Fin commSize, holder.val = testIndex testId / set.localKeyCount ∧
      (set.keys holder)[testIndex testId % set.localKeyCount]? =
        some (∑ rank, set.capturedKey testIndex rank testId) := by
  have inside : testIndex testId / set.localKeyCount < commSize :=
    Nat.div_lt_of_lt_mul (by rw [Nat.mul_comm]; exact below)
  refine ⟨⟨testIndex testId / set.localKeyCount, inside⟩, rfl, ?_⟩
  have position : testIndex testId % set.localKeyCount <
      (set.keys ⟨testIndex testId / set.localKeyCount, inside⟩).length := by
    rw [set.length_eq]
    exact Nat.mod_lt _ set.positive
  rw [Finset.sum_eq_single (⟨testIndex testId / set.localKeyCount, inside⟩ : Fin commSize)]
  · unfold KeySet.capturedKey
    rw [if_pos rfl, List.getElem?_eq_getElem position]
    rfl
  · intro other _ different
    exact if_neg fun same => different (Fin.ext same.symm)
  · intro outside
    exact absurd (Finset.mem_univ _) outside

variable [DecidableEq Worker] {program : Pipeline.Program commSize Worker} {rank : Fin commSize}
variable {state state' : Pipeline commSize Worker}

/-- The test keys of one rank at each stage. -/
def StageCaptures (program : Pipeline.Program commSize Worker) (rank : Fin commSize)
    (progress : RankProgress Worker) : PipelineStage Worker → Prop
  | .counting counting => (program.sets progress.iteration).Captures program.testIndex rank
      counting.localBucketCounts
  | .reduced => (program.sets progress.iteration).Collects program.testIndex
      progress.workspace.globalBucketCounts
  | _ => True

structure TestKeysFit (program : Pipeline.Program commSize Worker)
    (state : Pipeline commSize Worker) : Prop where
  ranks : ∀ rank, StageCaptures program rank (state.ranks rank) (state.ranks rank).stage
  contributions : ∀ iteration rank counts, state.contributions iteration rank = some counts →
    (program.sets iteration).Captures program.testIndex rank counts
  totals : ∀ iteration counts, state.totals iteration = some counts →
    (program.sets iteration).Collects program.testIndex counts

section Steps

omit [DecidableEq Worker] in
/-- A step that changes one rank, and perhaps what the collectives hold. -/
theorem TestKeysFit.advance (fits : TestKeysFit program state) {progress : RankProgress Worker}
    (ranks : state'.ranks = Function.update state.ranks rank progress)
    (own : StageCaptures program rank progress progress.stage)
    (contributed : ∀ iteration rank counts, state'.contributions iteration rank = some counts →
      (program.sets iteration).Captures program.testIndex rank counts)
    (totalled : ∀ iteration counts, state'.totals iteration = some counts →
      (program.sets iteration).Collects program.testIndex counts) :
    TestKeysFit program state' := by
  refine ⟨?_, contributed, totalled⟩
  intro other
  rw [ranks]
  by_cases same : other = rank
  · subst same
    rw [Function.update_self]
    exact own
  · rw [Function.update_of_ne same]
    exact fits.ranks other

theorem organize_captures (fits : TestKeysFit program state)
    (stepped : PipelineStep program state (.organize rank) state') :
    TestKeysFit program state' := by
  cases stepped with
  | organize current =>
      refine fits.advance rfl ?_ fits.contributions fits.totals
      intro testId inside
      exact capture_slot _ _ _ _ _ _ inside

theorem count_captures (fits : TestKeysFit program state) {worker : Worker}
    (stepped : PipelineStep program state (.count rank worker) state') :
    TestKeysFit program state' := by
  cases stepped with
  | count current moved =>
      have before := fits.ranks rank
      rw [current] at before
      refine fits.advance rfl ?_ fits.contributions fits.totals
      intro testId inside
      exact (counting_step_behind moved (Nat.le_add_right _ testId)).trans (before testId inside)

theorem contribute_captures (fits : TestKeysFit program state)
    (stepped : PipelineStep program state (.contribute rank) state') :
    TestKeysFit program state' := by
  cases stepped with
  | contribute current finished =>
      have before := fits.ranks rank
      rw [current] at before
      refine fits.advance rfl trivial ?_ fits.totals
      intro iteration other vector found
      rcases contribution_cases found with ⟨rfl, rfl, rfl⟩ | earlier
      · exact before
      · exact fits.contributions iteration other vector earlier

theorem combine_captures (fits : TestKeysFit program state) {tree : ReduceTree commSize}
    (stepped : PipelineStep program state (.combine rank tree) state') :
    TestKeysFit program state' := by
  cases stepped with
  | combine current covers all made =>
      have own : ∀ workspace : Workspace, StageCaptures program rank
          { state.ranks rank with workspace := workspace } (state.ranks rank).stage := by
        intro workspace
        rw [current]
        trivial
      refine fits.advance rfl (own _) fits.contributions ?_
      intro iteration vector found
      rcases total_cases found with ⟨rfl, rfl⟩ | earlier
      · intro testId inside
        rw [made]
        have slot : (program.sets (state.ranks rank).iteration).numBuckets + testId <
            Pipeline.reducedCount program (state.ranks rank).iteration :=
          Nat.add_lt_add_left inside _
        unfold Pipeline.copied
        rw [if_pos slot, ReduceTree.combine_sum _ _ covers slot]
        apply Finset.sum_congr rfl
        intro other _
        obtain ⟨counts, made⟩ := Option.isSome_iff_exists.mp (all other)
        rw [made]
        exact fits.contributions _ other counts made testId inside
      · exact fits.totals iteration vector earlier

theorem receive_captures (fits : TestKeysFit program state)
    (stepped : PipelineStep program state (.receive rank) state') :
    TestKeysFit program state' := by
  cases stepped with
  | receive counts current found =>
      refine fits.advance rfl ?_ fits.contributions fits.totals
      intro testId inside
      have slot : (program.sets (state.ranks rank).iteration).numBuckets + testId <
          Pipeline.reducedCount program (state.ranks rank).iteration :=
        Nat.add_lt_add_left inside _
      unfold Pipeline.copied
      dsimp only
      rw [if_pos slot]
      exact fits.totals _ counts found testId inside

/-- Every later step leaves the collectives alone and brings its rank, if it moves one, to
a stage without counts. -/
theorem test_keys_step (fits : TestKeysFit program state)
    {action : PipelineAction commSize Worker}
    (stepped : PipelineStep program state action state') : TestKeysFit program state' := by
  have step := stepped
  cases stepped with
  | organize => exact organize_captures fits step
  | count => exact count_captures fits step
  | contribute => exact contribute_captures fits step
  | combine => exact combine_captures fits step
  | receive => exact receive_captures fits step
  | assign => exact fits.advance rfl trivial fits.contributions fits.totals
  | setAmHandler => exact fits.advance rfl trivial fits.contributions fits.totals
  | redistribute => exact ⟨fits.ranks, fits.contributions, fits.totals⟩
  | clearAmHandler => exact fits.advance rfl trivial fits.contributions fits.totals
  | startRanking => exact fits.advance rfl trivial fits.contributions fits.totals
  | rankStep => exact fits.advance rfl trivial fits.contributions fits.totals
  | finishRanking => exact fits.advance rfl trivial fits.contributions fits.totals
  | nextIteration => exact fits.advance rfl trivial fits.contributions fits.totals

theorem reachable_test_keys_fit {stale : Fin commSize → Workspace}
    (reached : (pipelineSystem program).Reachable (fun _ _ => True) (.initial program stale)
      state) : TestKeysFit program state := by
  have initial : TestKeysFit program (Pipeline.initial program stale) := by
    refine ⟨fun _ => trivial, ?_, ?_⟩
    · intro iteration rank counts found
      cases found
    · intro iteration counts found
      cases found
  apply reached.invariant initial
  intro before after action _ fits _ stepped
  exact test_keys_step fits (pipeline_step_cases stepped)

end Steps

/-- Behind `compute_global_bucket_sizes` of any iteration. -/
theorem global_bucket_sizes_exact {stale : Fin commSize → Workspace}
    (reached : (pipelineSystem program).Reachable (fun _ _ => True) (.initial program stale) state)
    (reduced : (state.ranks rank).stage = .reduced) :
    let set := program.sets (state.ranks rank).iteration
    let counts := (state.ranks rank).workspace.globalBucketCounts
    (∀ bucket < set.numBuckets,
      counts bucket = set.countKeys fun key => key >>> set.bucketShift == bucket) ∧
      ∑ bucket ∈ Finset.range set.numBuckets, counts bucket = commSize * set.localKeyCount ∧
      ∀ testId < testArraySize, program.testIndex testId < commSize * set.localKeyCount →
        ∃ holder : Fin commSize, holder.val = program.testIndex testId / set.localKeyCount ∧
          (set.keys holder)[program.testIndex testId % set.localKeyCount]? =
            some (counts (set.numBuckets + testId)) := by
  intro set counts
  obtain ⟨⟨-, histogram⟩, -, -⟩ := ((reachable_pipeline_fits reached).ranks rank).at_stage reduced
  have collected := (reachable_test_keys_fit reached).ranks rank
  rw [reduced] at collected
  refine ⟨histogram, ?_, ?_⟩
  · have total : ∑ bucket ∈ Finset.range set.numBuckets, set.histogram bucket =
        commSize * set.localKeyCount := (plan_balanced set 0).total
    rw [← total]
    apply Finset.sum_congr rfl
    intro bucket member
    exact histogram bucket (Finset.mem_range.mp member)
  · intro testId inside below
    have slot : counts (set.numBuckets + testId) =
        ∑ rank, set.capturedKey program.testIndex rank testId := collected testId inside
    rw [slot]
    exact captured_total set program.testIndex testId below

/-- A rank is behind the reduction. -/
def RankProgress.isReduced {Worker : Type} (progress : RankProgress Worker) : Bool :=
  match progress.stage with
  | .reduced => true
  | _ => false

theorem reduced_of_is {Worker : Type} {progress : RankProgress Worker}
    (reduced : progress.isReduced = true) : progress.stage = .reduced := by
  unfold RankProgress.isReduced at reduced
  split at reduced
  case h_1 current => exact current
  case h_2 => cases reduced

theorem shared_reduced :
    ((pipelineSystem sharedProgram).run (.initial sharedProgram fun _ => staleWorkspace)
        (sharedReduction 0 1)).map (fun state => (state.ranks 0).isReduced) = some true := by
  decide +kernel

/-- The lower of the two keys is on the other rank. -/
theorem global_bucket_sizes_exact_shared :
    ∃ state : Pipeline 2 Unit,
      (pipelineSystem sharedProgram).run (.initial sharedProgram fun _ => staleWorkspace)
          (sharedReduction 0 1) = some state ∧
        (state.ranks 0).workspace.globalBucketCounts 0 =
            sharedKeys.countKeys (fun key => key >>> 1 == 0) ∧
          (state.ranks 0).workspace.globalBucketCounts 1 =
              sharedKeys.countKeys (fun key => key >>> 1 == 1) ∧
            ∃ holder : Fin 2, holder.val = 0 / 1 ∧ (sharedKeys.keys holder)[0 % 1]? =
              some ((state.ranks 0).workspace.globalBucketCounts (2 + 4)) := by
  obtain ⟨state, executed, current⟩ := Option.map_eq_some_iff.mp shared_reduced
  have reached := TransitionSystem.any_run_reachable executed
  obtain ⟨sizes, -, slots⟩ := global_bucket_sizes_exact reached (reduced_of_is current)
  obtain ⟨holder, first, key⟩ := slots 4 (by decide) Nat.two_pos
  exact ⟨state, executed, sizes 0 Nat.two_pos, sizes 1 Nat.one_lt_two, holder, first, key⟩

end IntegerSortLci.Benchmark
