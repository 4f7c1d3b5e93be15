import IntegerSortLci.Benchmark.Pipeline

/-!
# What the pipeline has computed at each stage

`Holds` says, stage by stage, what a rank's workspace and plan contain, whatever
they contained before. The redistribution inside the pipeline is a run of the
redistribution system with the arguments that the key arrays determine, so what
holds in every such run may be used when a rank clears its handler.
-/

namespace IntegerSortLci.Benchmark

open IntegerSortLci.Runtime IntegerSortLci.Foundations
open scoped BigOperators

set_option autoImplicit false

variable {commSize : Nat} {Worker : Type} [Fintype Worker]

section Counters

variable [DecidableEq Worker] {config : PhaseConfig commSize} {minKeyValue : Nat}
variable {am : PhaseState commSize Worker Nat Storage} {storage : Storage}

/-- One handler call counts for the key it received. -/
def invokedWeight (key : Nat) : Event commSize Worker Nat → Nat
  | .invoked _ record => if record = key then 1 else 0
  | _ => 0

omit [Fintype Worker] [DecidableEq Worker] in
theorem tally_invoked (key : Nat) (log : Log commSize Worker Nat) :
    tally (invokedWeight key) log = ((invokedIn log).map Prod.snd).count key := by
  induction log with
  | nil => rfl
  | cons event rest ih =>
      rw [tally_cons, ih]
      unfold invokedIn
      rw [List.flatMap_cons, List.map_append, List.count_append]
      congr 1
      cases event with
      | invoked source record =>
          by_cases same : record = key
          · simp [invokedWeight, Event.invokedRecords, same]
          · simp [invokedWeight, Event.invokedRecords, same]
      | _ => rfl

theorem storage_total
    (reached : (phaseSystem config (amHandler commSize minKeyValue)).Reachable (fun _ _ => True)
      (.initial config storage) am) (key : Nat) :
    am.memory ((key : Int) - minKeyValue) = storage ((key : Int) - minKeyValue) +
      ∑ thread, ((invokedIn (am.threads thread).log).map Prod.snd).count key := by
  have total := phase_total
    (fun phase : PhaseState commSize Worker Nat Storage =>
      phase.memory ((key : Int) - minKeyValue)) (invokedWeight key) (fun _ _ => rfl) ?_ reached
  · simp only [tally_invoked] at total
    exact total
  · intro phase _ event
    cases event with
    | invoked source record =>
        change Function.update phase.memory _ _ _ = _
        by_cases same : record = key
        · subst same
          rw [Function.update_self]
          simp [invokedWeight]
        · rw [Function.update_of_ne (by omega)]
          simp [invokedWeight, same]
    | _ => rfl

end Counters

namespace PipelineStage

/-- The rank is between `set_am_handler` and `clear_am_handler`. -/
def isRedistributing : PipelineStage Worker → Bool
  | .redistributing => true
  | _ => false

/-- The redistribution of the rank's iteration is over. -/
def isRedistributed : PipelineStage Worker → Bool
  | .redistributed | .ranking _ | .ranked => true
  | _ => false

end PipelineStage

section Invariant

variable (program : Pipeline.Program commSize Worker) (rank : Fin commSize)

/-- The plan and the arrays are those of the iteration's keys. -/
structure Planned (progress : RankProgress Worker) : Prop where
  plan : progress.plan = (program.sets progress.iteration).plan rank
  arrays : progress.workspace.arrays =
    ((program.sets progress.iteration).planInput rank).arrays

/-- The interval of the histogram is cleared. -/
def Cleared (progress : RankProgress Worker) : Prop :=
  ∀ key : Nat, progress.plan.minKeyValue ≤ key → key ≤ progress.plan.maxKeyValue →
    progress.workspace.frequencyByKey progress.plan.minKeyValue key = 0

/-- The interval of the histogram holds the occurrences of its keys on all ranks. -/
def Counted (progress : RankProgress Worker) : Prop :=
  ∀ key : Nat, progress.plan.minKeyValue ≤ key → key ≤ progress.plan.maxKeyValue →
    progress.workspace.frequencyByKey progress.plan.minKeyValue key =
      (program.sets progress.iteration).occurrences key

/-- The interval of the cumulative ranks, on top of the lesser keys, holds the number
of keys up to each of its keys. -/
def Ranked (progress : RankProgress Worker) : Prop :=
  ∀ key : Nat, progress.plan.minKeyValue ≤ key → key ≤ progress.plan.maxKeyValue →
    progress.plan.lesserKeyCount +
        progress.workspace.cumulativeByKey progress.plan.minKeyValue key =
      (program.sets progress.iteration).countKeys fun other => decide (other ≤ key)

variable [DecidableEq Worker]

/-- What a rank has computed at each stage. -/
def Holds (progress : RankProgress Worker) (rankState : RankState commSize Worker Storage) :
    PipelineStage Worker → Prop
  | .ready => True
  | .counting counting => progress.workspace.arrays = clearedArrays ∧
      ∃ start : Nat → Nat,
        (∀ bucket < (program.sets progress.iteration).numBuckets, start bucket = 0) ∧
          CountingFits (Pipeline.countingInput program progress.iteration rank) start counting
  | .reducing => progress.workspace.arrays = clearedArrays
  | .reduced => progress.workspace.arrays = clearedArrays ∧
      ∀ bucket < (program.sets progress.iteration).numBuckets,
        progress.workspace.globalBucketCounts bucket =
          (program.sets progress.iteration).histogram bucket
  | .planned => Planned program rank progress ∧ Cleared progress
  | .redistributing => Planned program rank progress ∧ Cleared progress ∧
      ∃ am, rankState.amState = some am ∧
        (phaseSystem (Pipeline.phaseArguments program progress.iteration rank).config
          (Pipeline.phaseArguments program progress.iteration rank).handler).Reachable
            (fun _ _ => True)
            (.initial (Pipeline.phaseArguments program progress.iteration rank).config
              progress.workspace.frequencyStorage) am
  | .redistributed => Planned program rank progress ∧ Counted program progress
  | .ranking ranking => Planned program rank progress ∧ Counted program progress ∧
      RankingFits (Pipeline.rankingInput program progress.iteration rank progress.workspace
        progress.plan) (progress.workspace.cumulativeByKey progress.plan.minKeyValue) ranking
  | .ranked => Planned program rank progress ∧ Counted program progress ∧ Ranked program progress

structure ProgressFits (progress : RankProgress Worker)
    (rankState : RankState commSize Worker Storage) : Prop where
  holds : Holds program rank progress rankState progress.stage
  phase : rankState.phase =
    progress.iteration + if progress.stage.isRedistributed then 1 else 0
  outside : rankState.stage = .outside ↔ progress.stage.isRedistributing = false

variable {program rank} in
theorem ProgressFits.at_stage {progress : RankProgress Worker}
    {rankState : RankState commSize Worker Storage} {stage : PipelineStage Worker}
    (fits : ProgressFits program rank progress rankState) (current : progress.stage = stage) :
    Holds program rank progress rankState stage ∧
      rankState.phase = progress.iteration + (if stage.isRedistributed then 1 else 0) ∧
        (rankState.stage = .outside ↔ stage.isRedistributing = false) := by
  subst current
  exact ⟨fits.holds, fits.phase, fits.outside⟩

omit rank in
structure PipelineFits (state : Pipeline commSize Worker) : Prop where
  redistribution : (redistributionSystem (Pipeline.phaseArguments program)).Reachable
    (fun _ _ => True) (.initial (Pipeline.phaseArguments program)) state.redistribution
  ranks : ∀ rank, ProgressFits program rank (state.ranks rank) (state.redistribution.ranks rank)
  contributions : ∀ iteration rank counts, state.contributions iteration rank = some counts →
    ∀ bucket < (program.sets iteration).numBuckets,
      counts bucket = (program.sets iteration).localHistogram rank bucket
  totals : ∀ iteration counts, state.totals iteration = some counts →
    ∀ bucket < (program.sets iteration).numBuckets,
      counts bucket = (program.sets iteration).histogram bucket

end Invariant

section Results

variable {program : Pipeline.Program commSize Worker} {rank : Fin commSize}
variable {progress : RankProgress Worker} {key : Nat}

/-- The workers of a rank together count its keys. -/
theorem split_count {set : KeySet commSize} (share : Worker → List Nat)
    (split : ∑ worker, (↑(share worker) : Multiset Nat) = ↑(set.keys rank)) (test : Nat → Bool) :
    ∑ worker, (share worker).countP test = (set.keys rank).countP test := by
  have counted := congrArg (Multiset.countP fun key => test key = true) split
  rw [← Multiset.coe_countPAddMonoidHom, map_sum] at counted
  simp only [Multiset.coe_countPAddMonoidHom, Multiset.coe_countP, Bool.decide_eq_true] at counted
  exact counted

/-- `count_local_buckets` leaves the rank's histogram. -/
theorem finished_local_histogram [DecidableEq Worker] {iteration : Nat} {start : Nat → Nat}
    {counting : CountingState Worker}
    (zero : ∀ bucket < (program.sets iteration).numBuckets, start bucket = 0)
    (fits : CountingFits (Pipeline.countingInput program iteration rank) start counting)
    (finished : (Pipeline.countingInput program iteration rank).Finished counting)
    {bucket : Nat} (inside : bucket < (program.sets iteration).numBuckets) :
    counting.localBucketCounts bucket =
      (program.sets iteration).localHistogram rank bucket := by
  have counts : counting.localBucketCounts bucket = _ := finished_counts fits finished inside
  rw [zero bucket inside, Nat.zero_add] at counts
  rw [counts]
  exact split_count _ (program.runs iteration rank).countingSplit _

/-- The sum over the ranks is the global histogram. -/
theorem combined_histogram {set : KeySet commSize} {vectors : Fin commSize → Nat → Nat}
    {tree : ReduceTree commSize} (covers : tree.Covers)
    (vector : ∀ other, ∀ bucket < set.numBuckets,
      vectors other bucket = set.localHistogram other bucket)
    {bucket : Nat} (inside : bucket < set.numBuckets) :
    tree.combine (set.numBuckets + testArraySize) vectors bucket = set.histogram bucket := by
  rw [ReduceTree.combine_sum _ vectors covers (Nat.lt_add_right testArraySize inside)]
  apply Finset.sum_congr rfl
  intro other _
  exact vector other bucket inside

/-- The handlers of a finished phase have counted each key of the interval as often
as it occurs on all ranks. -/
theorem finished_counts_keys [DecidableEq Worker]
    {redistribution : Redistribution commSize Worker Storage}
    (reached : (redistributionSystem (Pipeline.phaseArguments program)).Reachable
      (fun _ _ => True) (.initial (Pipeline.phaseArguments program)) redistribution)
    (finished : redistribution.TeamDone
      (Pipeline.phaseArguments program (redistribution.ranks rank).phase rank) rank)
    {am : PhaseState commSize Worker Nat Storage} {storage : Storage}
    (present : (redistribution.ranks rank).amState = some am)
    (run : (phaseSystem
      (Pipeline.phaseArguments program (redistribution.ranks rank).phase rank).config
      (Pipeline.phaseArguments program (redistribution.ranks rank).phase rank).handler).Reachable
        (fun _ _ => True) (.initial
          (Pipeline.phaseArguments program (redistribution.ranks rank).phase rank).config
          storage) am)
    (low : ((program.sets (redistribution.ranks rank).phase).plan rank).minKeyValue ≤ key)
    (high : key ≤ ((program.sets (redistribution.ranks rank).phase).plan rank).maxKeyValue)
    (zero : storage ((key : Int) -
      ((program.sets (redistribution.ranks rank).phase).plan rank).minKeyValue) = 0) :
    am.memory ((key : Int) -
        ((program.sets (redistribution.ranks rank).phase).plan rank).minKeyValue) =
      (program.sets (redistribution.ranks rank).phase).occurrences key := by
  have coherent := reachable_coherent (runs_sound _ _) reached
  have ledger := (coherent.ranks rank).present am present
  obtain ⟨worker, -⟩ :=
    (program.runs (redistribution.ranks rank).phase rank).redistribution.manned
  have enough := ((team_done_fits coherent finished worker).finished rfl).2
  obtain ⟨-, received⟩ := all_received coherent enough
  have total := storage_total run key
  rw [zero, Nat.zero_add] at total
  have invoked := congrArg (Multiset.count key)
    (handled_total (redistribution.project (redistribution.ranks rank).phase) rank)
  have threads : ∀ thread, (((redistribution.project
      (redistribution.ranks rank).phase).phases rank).threads thread).log =
        (am.threads thread).log := by
    intro thread
    exact congrArg (fun phase => (phase.threads thread).log) ledger
  simp only [Multiset.count_sum', threads, Multiset.coe_count] at invoked
  rw [total, ← invoked]
  apply Finset.sum_congr rfl
  intro source _
  have routed := (interval_routed rank.isLt ⟨low, high⟩).2.1
  rw [(received source).2]
  rw [keys_between_routed, Multiset.coe_count, List.count_filter]
  simp [routed]

/-- The prefix sums of `compute_local_ranks` on top of the lesser keys. -/
theorem finished_ranked [DecidableEq Worker] {ranking : RankingState Nat}
    (planned : Planned program rank progress) (counted : Counted program progress)
    (fits : RankingFits (Pipeline.rankingInput program progress.iteration rank
      progress.workspace progress.plan)
        (progress.workspace.cumulativeByKey progress.plan.minKeyValue) ranking)
    (finished : (Pipeline.rankingInput program progress.iteration rank progress.workspace
      progress.plan).Finished ranking)
    (low : progress.plan.minKeyValue ≤ key) (high : key ≤ progress.plan.maxKeyValue) :
    progress.plan.lesserKeyCount + ranking.cumulativeRanks key =
      (program.sets progress.iteration).countKeys fun other => decide (other ≤ key) := by
  have inside : key - progress.plan.minKeyValue <
      (Pipeline.rankingInput program progress.iteration rank progress.workspace
        progress.plan).keyValueRange := by
    unfold RankingInput.keyValueRange Pipeline.rankingInput
    dsimp only
    omega
  have written := (finished_ranks fits finished).1 _ inside
  have index : (Pipeline.rankingInput program progress.iteration rank progress.workspace
      progress.plan).minKeyValue + ((key - progress.plan.minKeyValue : Nat) : Int) = key := by
    unfold Pipeline.rankingInput
    dsimp only
    omega
  rw [index] at written
  have sum : (Pipeline.rankingInput program progress.iteration rank progress.workspace
      progress.plan).prefixSum (key - progress.plan.minKeyValue + 1) =
        ∑ i ∈ Finset.range (key - progress.plan.minKeyValue + 1),
          (program.sets progress.iteration).occurrences (progress.plan.minKeyValue + i) := by
    apply Finset.sum_congr rfl
    intro i member
    have less := Finset.mem_range.mp member
    have value := counted (progress.plan.minKeyValue + i) (by omega) (by omega)
    rw [← value]
    unfold RankingInput.frequency Pipeline.rankingInput
    dsimp only
    rw [Nat.cast_add]
  rw [written, sum]
  rw [planned.plan] at low high ⊢
  exact lesser_occurrences rank.isLt low high

end Results

end IntegerSortLci.Benchmark
