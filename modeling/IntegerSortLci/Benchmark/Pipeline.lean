import IntegerSortLci.Benchmark.BucketCounts
import IntegerSortLci.Benchmark.LocalRanks
import IntegerSortLci.Benchmark.PhaseBoundary
import IntegerSortLci.Benchmark.RedistributionFrame
import IntegerSortLci.Benchmark.Reduction

/-!
# The ranking pipeline of all ranks

The five steps that `NasIntegerSortRun` takes in each iteration, on every rank and
for any number of iterations over one workspace per rank: count the local buckets,
reduce and broadcast the counts, plan, redistribute the keys, and rank. Ranks run
through the iterations at their own pace; a reduction ends at the root when every
rank has called it, and a broadcast when the root has the totals.

The vectors and arrays of the workspace are functions on their indices. The
frequency and cumulative storage is indexed by the offset from the array's start,
which the rebased pointers `frequency_by_key` and `cumulative_by_key` make negative
for keys below the interval.
-/

namespace IntegerSortLci.Benchmark

open IntegerSortLci.Runtime IntegerSortLci.Foundations

set_option autoImplicit false

/-- Counters at offsets from the start of an array. -/
abbrev Storage := Int → Nat

/-- `IntegerSortWorkspace`. -/
structure Workspace where
  localBucketCounts : Nat → Nat
  globalBucketCounts : Nat → Nat
  arrays : PlanArrays
  frequencyStorage : Storage
  cumulativeStorage : Storage

namespace Workspace

variable (workspace : Workspace)

/-- The entry of `key` through the pointer `frequency_by_key(min_key_value)`. -/
def frequencyByKey (minKeyValue : Nat) (key : Int) : Nat :=
  workspace.frequencyStorage (key - minKeyValue)

/-- The entry of `key` through the pointer `cumulative_by_key(min_key_value)`. -/
def cumulativeByKey (minKeyValue : Nat) (key : Int) : Nat :=
  workspace.cumulativeStorage (key - minKeyValue)

/-- `clear_bucket_metadata` clears the five vectors over their whole length. -/
def clearBucketMetadata : Workspace :=
  { workspace with
    localBucketCounts := fun _ => 0
    globalBucketCounts := fun _ => 0
    arrays := clearedArrays }

def clearFrequencyRange (minKeyValue maxKeyValue : Nat) : Workspace :=
  if maxKeyValue < minKeyValue then workspace
  else
    let keyRange := maxKeyValue - minKeyValue + 1
    let clear (storage : Storage) : Storage := fun offset =>
      if 0 ≤ offset ∧ offset < keyRange then 0 else storage offset
    { workspace with
      frequencyStorage := clear workspace.frequencyStorage
      cumulativeStorage := clear workspace.cumulativeStorage }

@[simp] theorem clear_range_arrays (minKeyValue maxKeyValue : Nat) :
    (workspace.clearFrequencyRange minKeyValue maxKeyValue).arrays = workspace.arrays := by
  unfold clearFrequencyRange
  split <;> rfl

/-- Every key of the interval starts from zero. -/
theorem clear_range_frequency {minKeyValue maxKeyValue key : Nat} (low : minKeyValue ≤ key)
    (high : key ≤ maxKeyValue) :
    (workspace.clearFrequencyRange minKeyValue maxKeyValue).frequencyByKey minKeyValue key = 0 := by
  unfold clearFrequencyRange frequencyByKey
  rw [if_neg (by omega)]
  dsimp only
  rw [if_pos (by omega)]

end Workspace

/-- The handler of `redistribute_keys_with_active_messages`: one `fetch_add` through
`frequency_by_key(min_key_value)`. -/
def amHandler (commSize minKeyValue : Nat) : AmHandler commSize Nat Storage :=
  fun storage _ key =>
    Function.update storage ((key : Int) - minKeyValue) (storage ((key : Int) - minKeyValue) + 1)

/-- How OpenMP and the phase options run one iteration on one rank. -/
structure IterationRun {commSize : Nat} (set : KeySet commSize) (rank : Fin commSize)
    (Worker : Type) [Fintype Worker] where
  countingTeam : Finset Worker
  countingShare : Worker → List Nat
  countingSpare : ∀ worker ∉ countingTeam, countingShare worker = []
  countingSplit : ∑ worker, (↑(countingShare worker) : Multiset Nat) = ↑(set.keys rank)
  redistribution : TeamRun set rank Worker
  rankingThreads : Nat
  schedule : ∀ range, Chunks rankingThreads range

/-- Where a rank is in the pipeline of its iteration. -/
inductive PipelineStage (Worker : Type) where
  | ready
  | counting (state : CountingState Worker)
  | reducing
  | reduced
  | planned
  | redistributing
  | redistributed
  | ranking (state : RankingState Nat)
  | ranked

structure RankProgress (Worker : Type) where
  iteration : Nat
  stage : PipelineStage Worker
  workspace : Workspace
  plan : BucketPlan

/-- `contributions` are the vectors the ranks have passed to the reduction of each
iteration, `totals` the root's vector once it broadcasts. -/
structure Pipeline (commSize : Nat) (Worker : Type) where
  ranks : Fin commSize → RankProgress Worker
  redistribution : Redistribution commSize Worker Storage
  contributions : Nat → Fin commSize → Option (Nat → Nat)
  totals : Nat → Option (Nat → Nat)

inductive PipelineAction (commSize : Nat) (Worker : Type) where
  /-- `organize_keys_into_buckets` up to its parallel region. -/
  | organize (rank : Fin commSize)
  | count (rank : Fin commSize) (worker : Worker)
  /-- The call of `reduce`. -/
  | contribute (rank : Fin commSize)
  /-- The end of the reduction at the root. -/
  | combine (rank : Fin commSize) (tree : ReduceTree commSize)
  /-- The end of `broadcast`. -/
  | receive (rank : Fin commSize)
  /-- `assign_buckets_to_processes`. -/
  | assign (rank : Fin commSize)
  | setAmHandler (rank : Fin commSize)
  | redistribute (action : RedistributionAction commSize Worker Storage)
  | clearAmHandler (rank : Fin commSize)
  /-- `compute_final_ranking`. -/
  | startRanking (rank : Fin commSize)
  | rankStep (rank : Fin commSize) (tid : Nat)
  | finishRanking (rank : Fin commSize)
  | nextIteration (rank : Fin commSize)

namespace Pipeline

variable {commSize : Nat} {Worker : Type} [Fintype Worker]

/-- The key arrays of each iteration, the positions of the test keys, and how each
rank runs each iteration. -/
structure Program (commSize : Nat) (Worker : Type) [Fintype Worker] where
  sets : Nat → KeySet commSize
  testIndex : Nat → Nat
  runs : ∀ iteration rank, IterationRun (sets iteration) rank Worker

variable (program : Program commSize Worker)

/-- The arguments of the redistributions as the key arrays determine them. -/
def phaseArguments : Redistribution.Inputs commSize Worker Storage :=
  phaseInputs (fun iteration rank => (program.runs iteration rank).redistribution)
    fun iteration rank => amHandler commSize ((program.sets iteration).plan rank).minKeyValue

/-- `stale` is what the workspaces hold before the first iteration. -/
def initial (stale : Fin commSize → Workspace) : Pipeline commSize Worker where
  ranks rank :=
    { iteration := 0, stage := .ready, workspace := stale rank, plan := ⟨0, 0, 0, 0, 0⟩ }
  redistribution := .initial (phaseArguments program)
  contributions _ _ := none
  totals _ := none

def setRank (state : Pipeline commSize Worker) (rank : Fin commSize)
    (progress : RankProgress Worker) : Pipeline commSize Worker :=
  { state with ranks := Function.update state.ranks rank progress }

/-- The arguments of `count_local_buckets` on a rank. -/
def countingInput (iteration : Nat) (rank : Fin commSize) : CountingInput Worker where
  bucketShift := (program.sets iteration).bucketShift
  numBuckets := (program.sets iteration).numBuckets
  team := (program.runs iteration rank).countingTeam
  share := (program.runs iteration rank).countingShare
  spare := (program.runs iteration rank).countingSpare

/-- The arguments of `build_bucket_plan`, from the rank's own workspace. -/
def planInput (iteration : Nat) (rank : Fin commSize) (workspace : Workspace) : PlanInput :=
  { (program.sets iteration).planInput rank with
    globalBucketCounts := workspace.globalBucketCounts }

/-- The arguments of `redistribute_keys_with_active_messages`, from the rank's own
workspace and plan. -/
def rankInput (iteration : Nat) (rank : Fin commSize) (workspace : Workspace) (plan : BucketPlan) :
    RankInput commSize Worker Storage where
  config := (program.runs iteration rank).redistribution.config
  handler := amHandler commSize plan.minKeyValue
  destination := routeKey workspace.arrays.bucketToRank (program.sets iteration).bucketShift
  expectedRecvCount := plan.expectedRecvCount
  team := (program.runs iteration rank).redistribution.team
  share := (program.runs iteration rank).redistribution.share

/-- The arguments of `compute_local_ranks`. -/
def rankingInput (iteration : Nat) (rank : Fin commSize) (workspace : Workspace)
    (plan : BucketPlan) : RankingInput Nat where
  frequencyHistogram := workspace.frequencyByKey plan.minKeyValue
  minKeyValue := plan.minKeyValue
  maxKeyValue := plan.maxKeyValue
  threads := (program.runs iteration rank).rankingThreads
  chunks := (program.runs iteration rank).schedule _

/-- `organize_keys_into_buckets` up to its parallel region. -/
def organize (rank : Fin commSize) (progress : RankProgress Worker) : RankProgress Worker :=
  let set := program.sets progress.iteration
  let cleared := progress.workspace.clearBucketMetadata
  let captured := capturePartialVerificationKeys program.testIndex (set.keys rank)
    set.localKeyCount rank set.numBuckets cleared.localBucketCounts
  { progress with
    stage := .counting ((countingInput program progress.iteration rank).initial captured)
    workspace := { cleared with localBucketCounts := captured } }

/-- `assign_buckets_to_processes`. -/
def assign (rank : Fin commSize) (progress : RankProgress Worker) : RankProgress Worker :=
  let planned := (planInput program progress.iteration rank progress.workspace).buildBucketPlan
    progress.workspace.arrays
  { progress with
    stage := .planned
    plan := planned.2
    workspace :=
      { progress.workspace with arrays := planned.1 }.clearFrequencyRange planned.2.minKeyValue
        planned.2.maxKeyValue }

/-- The number of counts that `compute_global_bucket_sizes` reduces. -/
def reducedCount (iteration : Nat) : Nat := (program.sets iteration).numBuckets + testArraySize

/-- The first `n` entries of a buffer after another one is copied over them. -/
def copied (n : Nat) (source buffer : Nat → Nat) : Nat → Nat :=
  fun i => if i < n then source i else buffer i

variable [DecidableEq Worker]

def step (state : Pipeline commSize Worker) :
    PipelineAction commSize Worker → Option (Pipeline commSize Worker)
  | .organize rank =>
      match (state.ranks rank).stage with
      | .ready => some (state.setRank rank (organize program rank (state.ranks rank)))
      | _ => none
  | .count rank worker =>
      let progress := state.ranks rank
      match progress.stage with
      | .counting counting =>
          ((countingInput program progress.iteration rank).step counting worker).map fun next =>
            state.setRank rank { progress with stage := .counting next }
      | _ => none
  | .contribute rank =>
      let progress := state.ranks rank
      match progress.stage with
      | .counting counting =>
          if (countingInput program progress.iteration rank).Finished counting then
            some
              { state.setRank rank
                { progress with
                  stage := .reducing
                  workspace :=
                    { progress.workspace with
                      localBucketCounts := counting.localBucketCounts } } with
                contributions := Function.update state.contributions progress.iteration
                  (Function.update (state.contributions progress.iteration) rank
                    (some counting.localBucketCounts)) }
          else none
      | _ => none
  | .combine rank tree =>
      let progress := state.ranks rank
      match progress.stage with
      | .reducing =>
          if rank.val = 0 ∧ tree.Covers ∧ (state.totals progress.iteration).isNone ∧
              ∀ other, (state.contributions progress.iteration other).isSome then
            let vectors other := ((state.contributions progress.iteration other).getD fun _ => 0)
            let n := reducedCount program progress.iteration
            let reduced :=
              copied n (tree.combine n vectors) progress.workspace.globalBucketCounts
            some
              { state.setRank rank
                { progress with
                  workspace := { progress.workspace with globalBucketCounts := reduced } } with
                totals := Function.update state.totals progress.iteration (some reduced) }
          else none
      | _ => none
  | .receive rank =>
      let progress := state.ranks rank
      match progress.stage, state.totals progress.iteration with
      | .reducing, some totals =>
          some (state.setRank rank
            { progress with
              stage := .reduced
              workspace :=
                { progress.workspace with
                  globalBucketCounts := copied (reducedCount program progress.iteration) totals
                    progress.workspace.globalBucketCounts } })
      | _, _ => none
  | .assign rank =>
      match (state.ranks rank).stage with
      | .reduced => some (state.setRank rank (assign program rank (state.ranks rank)))
      | _ => none
  | .setAmHandler rank =>
      let progress := state.ranks rank
      let input := rankInput program progress.iteration rank progress.workspace progress.plan
      match progress.stage with
      | .planned =>
          (state.redistribution.stepWith input
            (.setAmHandler rank progress.workspace.frequencyStorage)).map fun next =>
              { state.setRank rank { progress with stage := .redistributing } with
                redistribution := next }
      | _ => none
  | .redistribute action =>
      let progress := state.ranks action.rank
      let input := rankInput program progress.iteration action.rank progress.workspace progress.plan
      if action.isInside then
        (state.redistribution.stepWith input action).map fun next =>
          { state with redistribution := next }
      else none
  | .clearAmHandler rank =>
      let progress := state.ranks rank
      let input := rankInput program progress.iteration rank progress.workspace progress.plan
      match progress.stage, (state.redistribution.ranks rank).amState with
      | .redistributing, some am =>
          (state.redistribution.stepWith input (.clearAmHandler rank)).map fun next =>
            { state.setRank rank
              { progress with
                stage := .redistributed
                workspace := { progress.workspace with frequencyStorage := am.memory } } with
              redistribution := next }
      | _, _ => none
  | .startRanking rank =>
      let progress := state.ranks rank
      match progress.stage with
      | .redistributed =>
          some (state.setRank rank
            { progress with
              stage := .ranking
                (.initial (progress.workspace.cumulativeByKey progress.plan.minKeyValue)) })
      | _ => none
  | .rankStep rank tid =>
      let progress := state.ranks rank
      match progress.stage with
      | .ranking ranking =>
          ((rankingInput program progress.iteration rank progress.workspace progress.plan).step
            ranking tid).map fun next =>
              state.setRank rank { progress with stage := .ranking next }
      | _ => none
  | .finishRanking rank =>
      let progress := state.ranks rank
      match progress.stage with
      | .ranking ranking =>
          if (rankingInput program progress.iteration rank progress.workspace
              progress.plan).Finished ranking then
            some (state.setRank rank
              { progress with
                stage := .ranked
                workspace :=
                  { progress.workspace with
                    cumulativeStorage := fun offset =>
                      ranking.cumulativeRanks (offset + progress.plan.minKeyValue) } })
          else none
      | _ => none
  | .nextIteration rank =>
      let progress := state.ranks rank
      match progress.stage with
      | .ranked =>
          some (state.setRank rank
            { progress with iteration := progress.iteration + 1, stage := .ready })
      | _ => none

end Pipeline

/-- All ranks through any number of iterations. -/
def pipelineSystem {commSize : Nat} {Worker : Type} [Fintype Worker] [DecidableEq Worker]
    (program : Pipeline.Program commSize Worker) :
    TransitionSystem (Pipeline commSize Worker) (PipelineAction commSize Worker) where
  step := Pipeline.step program

end IntegerSortLci.Benchmark
