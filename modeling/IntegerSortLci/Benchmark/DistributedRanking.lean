import IntegerSortLci.Benchmark.PipelineInvariant
import IntegerSortLci.Benchmark.PipelineSteps

/-!
# The distributed ranking is correct

Every step of the pipeline keeps what each rank has computed. After the ranking of
any iteration the histogram of a rank's interval holds the occurrences of its keys in
the arrays of all ranks, and the cumulative ranks count the keys up to each of them.
-/

namespace IntegerSortLci.Benchmark

open IntegerSortLci.Runtime IntegerSortLci.Foundations
open scoped BigOperators

set_option autoImplicit false

variable {commSize : Nat} {Worker : Type} [Fintype Worker] [DecidableEq Worker]
variable {program : Pipeline.Program commSize Worker} {rank : Fin commSize}
variable {state state' : Pipeline commSize Worker} {progress : RankProgress Worker}

section Steps

/-- A step that changes one rank, and perhaps what the collectives hold. -/
theorem PipelineFits.advance (fits : PipelineFits program state)
    (own : ProgressFits program rank progress (state.redistribution.ranks rank))
    {contributions : Nat → Fin commSize → Option (Nat → Nat)}
    {totals : Nat → Option (Nat → Nat)}
    (contributed : ∀ iteration rank counts, contributions iteration rank = some counts →
      ∀ bucket < (program.sets iteration).numBuckets,
        counts bucket = (program.sets iteration).localHistogram rank bucket)
    (totalled : ∀ iteration counts, totals iteration = some counts →
      ∀ bucket < (program.sets iteration).numBuckets,
        counts bucket = (program.sets iteration).histogram bucket) :
    PipelineFits program
      { state.setRank rank progress with contributions := contributions, totals := totals } where
  redistribution := fits.redistribution
  ranks other := by
    unfold Pipeline.setRank
    dsimp only
    by_cases same : other = rank
    · subst same
      rw [Function.update_self]
      exact own
    · rw [Function.update_of_ne same]
      exact fits.ranks other
  contributions := contributed
  totals := totalled

/-- A step of one rank's own. -/
theorem PipelineFits.set_rank (fits : PipelineFits program state)
    (own : ProgressFits program rank progress (state.redistribution.ranks rank)) :
    PipelineFits program (state.setRank rank progress) :=
  fits.advance own fits.contributions fits.totals

/-- A step that moves the redistribution on one rank. -/
theorem PipelineFits.redistribute (fits : PipelineFits program state)
    {action : RedistributionAction commSize Worker Storage}
    {next : Redistribution commSize Worker Storage}
    (moved : state.redistribution.stepWith (Pipeline.phaseArguments program
      (state.redistribution.ranks rank).phase rank) action = some next)
    (mover : action.rank = rank)
    (own : ProgressFits program rank progress (next.ranks rank)) :
    PipelineFits program { state.setRank rank progress with redistribution := next } where
  redistribution := by
    subst mover
    exact fits.redistribution.next trivial moved
  ranks other := by
    unfold Pipeline.setRank
    dsimp only
    by_cases same : other = rank
    · subst same
      rw [Function.update_self]
      exact own
    · subst mover
      rw [Function.update_of_ne same,
        redistribution_step_frame (redistribution_step_cases moved) same]
      exact fits.ranks other
  contributions := fits.contributions
  totals := fits.totals

omit [DecidableEq Worker] in
/-- The rank passes on the arguments that the keys of its iteration determine. -/
theorem rank_input_planned (planned : Planned program rank progress) :
    Pipeline.rankInput program progress.iteration rank progress.workspace progress.plan =
      Pipeline.phaseArguments program progress.iteration rank := by
  unfold Pipeline.rankInput
  rw [planned.plan, planned.arrays]
  rfl

theorem organize_fits (fits : PipelineFits program state)
    (stepped : PipelineStep program state (.organize rank) state') :
    PipelineFits program state' := by
  cases stepped with
  | organize current =>
      obtain ⟨-, phase, outside⟩ := (fits.ranks rank).at_stage current
      apply fits.set_rank
      refine ⟨⟨rfl, _, ?_, initial_counting_fits⟩, phase, outside⟩
      intro bucket inside
      exact capture_below _ _ _ _ _ _ inside

theorem count_fits (fits : PipelineFits program state) {worker : Worker}
    (stepped : PipelineStep program state (.count rank worker) state') :
    PipelineFits program state' := by
  cases stepped with
  | count current moved =>
      apply fits.set_rank
      obtain ⟨holds, phase, outside⟩ := (fits.ranks rank).at_stage current
      obtain ⟨cleared, start, zero, counts⟩ := holds
      exact ⟨⟨cleared, start, zero, counting_step counts moved⟩, phase, outside⟩

theorem contribute_fits (fits : PipelineFits program state)
    (stepped : PipelineStep program state (.contribute rank) state') :
    PipelineFits program state' := by
  cases stepped with
  | contribute current finished =>
      obtain ⟨holds, phase, outside⟩ := (fits.ranks rank).at_stage current
      obtain ⟨cleared, start, zero, counts⟩ := holds
      apply fits.advance
      · exact ⟨cleared, phase, outside⟩
      · intro iteration other vector found bucket inside
        rcases contribution_cases found with ⟨rfl, rfl, rfl⟩ | earlier
        · exact finished_local_histogram zero counts finished inside
        · exact fits.contributions iteration other vector earlier bucket inside
      · exact fits.totals

theorem combine_fits (fits : PipelineFits program state) {tree : ReduceTree commSize}
    (stepped : PipelineStep program state (.combine rank tree) state') :
    PipelineFits program state' := by
  cases stepped with
  | combine current covers all made =>
      obtain ⟨holds, phase, outside⟩ := (fits.ranks rank).at_stage current
      have vectors : ∀ other, ∀ bucket < (program.sets (state.ranks rank).iteration).numBuckets,
          ((state.contributions (state.ranks rank).iteration other).getD fun _ => 0) bucket =
            (program.sets (state.ranks rank).iteration).localHistogram other bucket := by
        intro other bucket inside
        obtain ⟨vector, found⟩ := Option.isSome_iff_exists.mp (all other)
        rw [found]
        exact fits.contributions _ other vector found bucket inside
      apply fits.advance
      · refine ⟨?_, ?_, ?_⟩
        · dsimp only
          rw [current]
          exact holds
        · dsimp only
          rw [current]
          exact phase
        · dsimp only
          rw [current]
          exact outside
      · exact fits.contributions
      · intro iteration vector found bucket inside
        rcases total_cases found with ⟨rfl, rfl⟩ | earlier
        · rw [made]
          unfold Pipeline.copied Pipeline.reducedCount
          rw [if_pos (Nat.lt_add_right testArraySize inside)]
          exact combined_histogram covers vectors inside
        · exact fits.totals iteration vector earlier bucket inside

theorem receive_fits (fits : PipelineFits program state)
    (stepped : PipelineStep program state (.receive rank) state') :
    PipelineFits program state' := by
  cases stepped with
  | receive counts current found =>
      obtain ⟨holds, phase, outside⟩ := (fits.ranks rank).at_stage current
      apply fits.set_rank
      refine ⟨⟨holds, ?_⟩, phase, outside⟩
      intro bucket inside
      unfold Pipeline.copied Pipeline.reducedCount
      dsimp only
      rw [if_pos (Nat.lt_add_right testArraySize inside)]
      exact fits.totals _ counts found bucket inside

theorem assign_fits (fits : PipelineFits program state)
    (stepped : PipelineStep program state (.assign rank) state') :
    PipelineFits program state' := by
  cases stepped with
  | assign current =>
      obtain ⟨holds, phase, outside⟩ := (fits.ranks rank).at_stage current
      obtain ⟨cleared, counts⟩ := holds
      have planned := plan_of_counts (program.sets (state.ranks rank).iteration) rank counts
      rw [← cleared] at planned
      have result : (Pipeline.planInput program (state.ranks rank).iteration rank
          (state.ranks rank).workspace).buildBucketPlan (state.ranks rank).workspace.arrays = _ :=
        planned
      apply fits.set_rank
      refine ⟨⟨⟨?_, ?_⟩, ?_⟩, phase, outside⟩
      · unfold Pipeline.assign
        rw [result]
      · unfold Pipeline.assign
        rw [result, Workspace.clear_range_arrays]
      · intro key low high
        unfold Pipeline.assign at low high ⊢
        exact Workspace.clear_range_frequency _ low high

theorem set_am_handler_fits (fits : PipelineFits program state)
    (stepped : PipelineStep program state (.setAmHandler rank) state') :
    PipelineFits program state' := by
  cases stepped with
  | setAmHandler next current moved =>
      obtain ⟨⟨planned, cleared⟩, phase, -⟩ := (fits.ranks rank).at_stage current
      rw [rank_input_planned planned] at moved
      have step : RedistributionStep (Pipeline.phaseArguments program (state.ranks rank).iteration
          rank) state.redistribution rank (.setAmHandler rank _) next :=
        redistribution_step_cases moved
      have iteration : (state.redistribution.ranks rank).phase = (state.ranks rank).iteration :=
        phase
      rw [← iteration] at moved
      apply fits.redistribute moved rfl
      cases step with
      | setAmHandler memory outside =>
          unfold Redistribution.setAmHandler
          dsimp only
          rw [Function.update_self]
          exact ⟨⟨⟨planned.plan, planned.arrays⟩, cleared, _, rfl, .start⟩, phase, ⟨nofun, nofun⟩⟩

/-- Outside a phase only a stray delivery is possible, which reads no arguments. -/
theorem step_outside {first second : RankInput commSize Worker Storage}
    {redistribution next : Redistribution commSize Worker Storage}
    {action : RedistributionAction commSize Worker Storage} (inside : action.isInside = true)
    (outside : (redistribution.ranks action.rank).stage = .outside)
    (absent : (redistribution.ranks action.rank).amState = none)
    (moved : redistribution.stepWith first action = some next) :
    redistribution.stepWith second action = some next := by
  have nothing : ∀ {am : PhaseState commSize Worker Nat Storage},
      (redistribution.ranks action.rank).amState ≠ some am := by
    intro am present
    rw [absent] at present
    cases present
  have step := redistribution_step_cases moved
  generalize mover : action.rank = rank at *
  cases step with
  | setAmHandler => cases inside
  | barrierProgress action state' waiting allowed called =>
      rw [outside] at waiting
      cases waiting
  | leaveBarrier waiting all =>
      rw [outside] at waiting
      cases waiting
  | post worker key remaining state' working posting called =>
      exact absurd (outside.symm.trans working.1) nofun
  | flush worker state' working posted called =>
      exact absurd (outside.symm.trans working.1) nofun
  | await worker working waiting =>
      exact absurd (outside.symm.trans working.1) nofun
  | finish worker am working waiting present idle enough =>
      exact absurd (outside.symm.trans working.1) nofun
  | progress worker state' working progressing called =>
      exact absurd (outside.symm.trans working.1) nofun
  | inner worker action state' working allowed called =>
      exact absurd (outside.symm.trans working.1) nofun
  | deliver thread sent index state' delivered =>
      obtain ⟨am, next, message, present, -⟩ := deliver_am_cases delivered
      exact absurd present nothing
  | stray sent index message found absent arrives => exact moved
  | unflushed => cases inside
  | clear => cases inside

theorem redistribute_fits (fits : PipelineFits program state)
    {action : RedistributionAction commSize Worker Storage}
    (stepped : PipelineStep program state (.redistribute action) state') :
    PipelineFits program state' := by
  cases stepped with
  | redistribute next inside moved =>
      have own := fits.ranks action.rank
      have unchanged : state.setRank action.rank (state.ranks action.rank) = state := by
        unfold Pipeline.setRank
        rw [Function.update_eq_self]
      have within := redistribution_step_within (redistribution_step_cases moved) inside
      have result : ∀ (spec : state.redistribution.stepWith (Pipeline.phaseArguments program
          (state.redistribution.ranks action.rank).phase action.rank) action = some next)
          (holds : Holds program action.rank (state.ranks action.rank) (next.ranks action.rank)
            (state.ranks action.rank).stage), PipelineFits program
              { state with redistribution := next } := by
        intro spec holds
        have fits' := fits.redistribute spec rfl
          ⟨holds, within.phase.trans own.phase, within.stage.trans own.outside⟩
        rw [unchanged] at fits'
        exact fits'
      cases current : (state.ranks action.rank).stage with
      | redistributing =>
          obtain ⟨⟨planned, cleared, am, present, run⟩, phase, -⟩ := own.at_stage current
          have iteration : (state.redistribution.ranks action.rank).phase =
            (state.ranks action.rank).iteration := phase
          have spec := moved
          rw [rank_input_planned planned, ← iteration] at spec
          apply result spec
          rw [current]
          refine ⟨planned, cleared, ?_⟩
          rcases within.moved with same | ⟨before, after, call, was, took, now⟩
          · exact ⟨am, same.trans present, run⟩
          · rw [was] at present
            obtain rfl := Option.some.inj present
            rw [rank_input_planned planned] at took
            exact ⟨after, now, run.next trivial took⟩
      | _ =>
          have outside := own.outside.mpr (by rw [current]; rfl)
          have coherent := reachable_coherent (runs_sound _ _) fits.redistribution
          have absent := (coherent.ranks action.rank).absent.mpr outside
          apply result (step_outside inside outside absent moved)
          have holds := own.holds
          rw [current] at holds ⊢
          exact holds

theorem clear_am_handler_fits (fits : PipelineFits program state)
    (stepped : PipelineStep program state (.clearAmHandler rank) state') :
    PipelineFits program state' := by
  cases stepped with
  | clearAmHandler am next current present moved =>
      obtain ⟨⟨planned, cleared, other, found, run⟩, phase, -⟩ := (fits.ranks rank).at_stage current
      rw [present] at found
      obtain rfl := Option.some.inj found
      have iteration : (state.redistribution.ranks rank).phase = (state.ranks rank).iteration :=
        phase
      rw [rank_input_planned planned, ← iteration] at moved
      have step : RedistributionStep (Pipeline.phaseArguments program
        (state.redistribution.ranks rank).phase rank) state.redistribution rank
          (.clearAmHandler rank) next := redistribution_step_cases moved
      have coherent := reachable_coherent (runs_sound _ _) fits.redistribution
      apply fits.redistribute moved rfl
      cases step with
      | unflushed am' present' finished left =>
          rw [team_done_unbuffered coherent finished present'] at left
          cases left
      | clear am' present' finished empty =>
          refine ⟨⟨⟨planned.plan, planned.arrays⟩, ?_⟩, ?_, ?_⟩
          · intro key low high
            have zero := cleared key low high
            dsimp only at low high
            rw [planned.plan, ← iteration] at low high
            unfold Workspace.frequencyByKey at zero ⊢
            dsimp only at zero ⊢
            rw [planned.plan, ← iteration] at zero ⊢
            rw [← iteration] at run
            exact finished_counts_keys fits.redistribution finished present run low high zero
          · unfold Redistribution.leavePhase
            dsimp only
            rw [Function.update_self, iteration]
            rfl
          · unfold Redistribution.leavePhase
            dsimp only
            rw [Function.update_self]
            exact ⟨fun _ => rfl, fun _ => rfl⟩

theorem start_ranking_fits (fits : PipelineFits program state)
    (stepped : PipelineStep program state (.startRanking rank) state') :
    PipelineFits program state' := by
  cases stepped with
  | startRanking current =>
      obtain ⟨⟨planned, counted⟩, phase, outside⟩ := (fits.ranks rank).at_stage current
      apply fits.set_rank
      exact ⟨⟨⟨planned.plan, planned.arrays⟩, counted, initial_ranking_fits⟩, phase, outside⟩

theorem rank_step_fits (fits : PipelineFits program state) {tid : Nat}
    (stepped : PipelineStep program state (.rankStep rank tid) state') :
    PipelineFits program state' := by
  cases stepped with
  | rankStep current moved =>
      obtain ⟨⟨planned, counted, ranks⟩, phase, outside⟩ := (fits.ranks rank).at_stage current
      obtain ⟨inside, step⟩ := ranking_step_cases moved
      apply fits.set_rank
      exact ⟨⟨⟨planned.plan, planned.arrays⟩, counted, ranking_step ranks inside step⟩, phase,
        outside⟩

theorem finish_ranking_fits (fits : PipelineFits program state)
    (stepped : PipelineStep program state (.finishRanking rank) state') :
    PipelineFits program state' := by
  cases stepped with
  | finishRanking current finished =>
      obtain ⟨⟨planned, counted, ranks⟩, phase, outside⟩ := (fits.ranks rank).at_stage current
      apply fits.set_rank
      refine ⟨⟨⟨planned.plan, planned.arrays⟩, counted, ?_⟩, phase, outside⟩
      intro key low high
      have ranked := finished_ranked planned counted ranks finished low high
      unfold Workspace.cumulativeByKey
      dsimp only
      rw [Int.sub_add_cancel]
      exact ranked

theorem next_iteration_fits (fits : PipelineFits program state)
    (stepped : PipelineStep program state (.nextIteration rank) state') :
    PipelineFits program state' := by
  cases stepped with
  | nextIteration current =>
      obtain ⟨-, phase, outside⟩ := (fits.ranks rank).at_stage current
      apply fits.set_rank
      exact ⟨trivial, phase, outside⟩

theorem initial_pipeline_fits (stale : Fin commSize → Workspace) :
    PipelineFits program (.initial program stale) where
  redistribution := .start
  ranks _ := ⟨trivial, rfl, ⟨fun _ => rfl, fun _ => rfl⟩⟩
  contributions _ _ _ found := by cases found
  totals _ _ found := by cases found

theorem reachable_pipeline_fits {stale : Fin commSize → Workspace}
    (reached : (pipelineSystem program).Reachable (fun _ _ => True) (.initial program stale)
      state) : PipelineFits program state := by
  apply reached.invariant (initial_pipeline_fits stale)
  intro before after action _ fits _ stepped
  have step := pipeline_step_cases stepped
  cases action with
  | organize rank => exact organize_fits fits step
  | count rank worker => exact count_fits fits step
  | contribute rank => exact contribute_fits fits step
  | combine rank tree => exact combine_fits fits step
  | receive rank => exact receive_fits fits step
  | assign rank => exact assign_fits fits step
  | setAmHandler rank => exact set_am_handler_fits fits step
  | redistribute action => exact redistribute_fits fits step
  | clearAmHandler rank => exact clear_am_handler_fits fits step
  | startRanking rank => exact start_ranking_fits fits step
  | rankStep rank tid => exact rank_step_fits fits step
  | finishRanking rank => exact finish_ranking_fits fits step
  | nextIteration rank => exact next_iteration_fits fits step

end Steps

/-- After the ranking of any iteration. -/
theorem distributed_ranking_correct {stale : Fin commSize → Workspace}
    (reached : (pipelineSystem program).Reachable (fun _ _ => True) (.initial program stale) state)
    (ranked : (state.ranks rank).stage = .ranked) (key : Nat)
    (low : (state.ranks rank).plan.minKeyValue ≤ key)
    (high : key ≤ (state.ranks rank).plan.maxKeyValue) :
    (state.ranks rank).workspace.frequencyByKey (state.ranks rank).plan.minKeyValue key =
        (program.sets (state.ranks rank).iteration).occurrences key ∧
      (state.ranks rank).plan.lesserKeyCount +
          (state.ranks rank).workspace.cumulativeByKey (state.ranks rank).plan.minKeyValue key =
        (program.sets (state.ranks rank).iteration).countKeys
          fun other => decide (other ≤ key) := by
  obtain ⟨⟨-, counted, cumulative⟩, -, -⟩ :=
    ((reachable_pipeline_fits reached).ranks rank).at_stage ranked
  exact ⟨counted key low high, cumulative key low high⟩

section Runs

/-- Two keys on two ranks, each on the rank that the plan gives the other one. -/
def sharedKeys : KeySet 2 where
  keys rank := if rank.val = 0 then [3] else [1]
  localKeyCount := 1
  numBuckets := 2
  bucketShift := 1
  length_eq := by decide
  positive := Nat.one_pos
  in_range := by decide

def soloChunks (range : Nat) : Chunks 1 range where
  bound tid := if tid = 0 then 0 else range
  start := rfl
  ordered tid := by
    rw [if_neg (Nat.succ_ne_zero tid)]
    split <;> omega
  covers := rfl

theorem unit_manned : ∃ worker : Unit, worker ∈ ({()} : Finset Unit) :=
  ⟨(), Finset.mem_singleton_self ()⟩

/-- One thread on each rank. -/
def soloRun {commSize : Nat} (set : KeySet commSize) (rank : Fin commSize) :
    IterationRun set rank Unit where
  countingTeam := {()}
  countingShare _ := set.keys rank
  countingSpare worker outside := absurd (Finset.mem_singleton_self worker) outside
  countingSplit := Fintype.sum_unique _
  redistribution :=
    { config := .singleRecord rank
      team := {()}
      share := fun _ => set.keys rank
      own := rfl
      manned := unit_manned
      spare := fun worker outside => absurd (Finset.mem_singleton_self worker) outside
      split := Fintype.sum_unique _ }
  rankingThreads := 1
  schedule := soloChunks

def sharedProgram : Pipeline.Program 2 Unit where
  sets _ := sharedKeys
  testIndex _ := 0
  runs _ := soloRun sharedKeys

/-- A rank's bucket counts. -/
def sharedCounts (rank : Fin 2) : List (PipelineAction 2 Unit) :=
  [.organize rank, .count rank (), .count rank (), .contribute rank]

/-- The counts of both ranks and their reduction, up to the receipt by the first. -/
def sharedReduction (first second : Fin 2) : List (PipelineAction 2 Unit) :=
  sharedCounts first ++ sharedCounts second ++
    [.combine first (.node (.leaf first) (.leaf second) .left fun _ => 0), .receive first]

/-- From the reduction to the messages. -/
def sharedPosts (first second : Fin 2) : List (PipelineAction 2 Unit) :=
  [.assign first, .setAmHandler first, .receive second, .assign second, .setAmHandler second,
    .redistribute (.leaveBarrier first), .redistribute (.post first ()),
    .redistribute (.inner first () (.postAmAnswer false)),
    .redistribute (.leaveBarrier second), .redistribute (.post second ()),
    .redistribute (.inner second () (.postAmAnswer false))]

/-- The rest of a pass once the rank's key and the other one's are under way. -/
def sharedRanking (rank : Fin 2) (pass : Nat) : List (PipelineAction 2 Unit) :=
  [.redistribute (.deliver rank (some ()) pass 0),
    .redistribute (.inner rank () (.resume 0)), .redistribute (.inner rank () .handlerReturn),
    .redistribute (.inner rank () (.resume 0)), .redistribute (.inner rank () (.resume 0)),
    .redistribute (.inner rank () .progressEnd), .redistribute (.inner rank () (.resume 0)),
    .redistribute (.inner rank () (.resume 0)), .redistribute (.flush rank ()),
    .redistribute (.inner rank () (.resume 0)), .redistribute (.inner rank () (.resume 0)),
    .redistribute (.inner rank () (.resume 0)), .redistribute (.check rank ()),
    .clearAmHandler rank, .startRanking rank] ++
    List.replicate 11 (.rankStep rank 0) ++ [.finishRanking rank]

/-- A pass on two ranks, which send each other their keys. -/
def sharedIteration (first second : Fin 2) (pass : Nat) : List (PipelineAction 2 Unit) :=
  sharedReduction first second ++ sharedPosts first second ++ sharedRanking second pass ++
    sharedRanking first pass

/-- Arrays with the values of something before. -/
def staleWorkspace : Workspace where
  localBucketCounts _ := 3
  globalBucketCounts _ := 5
  arrays := ⟨fun _ => 1, fun _ => 1, fun _ => 1⟩
  frequencyStorage _ := 7
  cumulativeStorage _ := 9

/-- The interval of a rank that is behind its ranking. -/
def RankProgress.rankedInterval {Worker : Type} (progress : RankProgress Worker) :
    Option (Nat × Nat) :=
  match progress.stage with
  | .ranked => some (progress.plan.minKeyValue, progress.plan.maxKeyValue)
  | _ => none

theorem ranked_of_interval {Worker : Type} {progress : RankProgress Worker}
    {least greatest : Nat} (interval : progress.rankedInterval = some (least, greatest)) :
    progress.stage = .ranked ∧ progress.plan.minKeyValue = least ∧
      progress.plan.maxKeyValue = greatest := by
  unfold RankProgress.rankedInterval at interval
  split at interval
  case h_1 ranked =>
    simp only [Option.some.injEq, Prod.mk.injEq] at interval
    exact ⟨ranked, interval.1, interval.2⟩
  case h_2 => cases interval

theorem shared_intervals :
    ((pipelineSystem sharedProgram).run (.initial sharedProgram fun _ => staleWorkspace)
        (sharedIteration 0 1 0)).map (fun state =>
      ((state.ranks 0).rankedInterval, (state.ranks 1).rankedInterval)) =
      some (some (0, 1), some (2, 3)) := by
  decide +kernel

theorem distributed_ranking_correct_shared :
    ∃ state : Pipeline 2 Unit,
      (pipelineSystem sharedProgram).run (.initial sharedProgram fun _ => staleWorkspace)
          (sharedIteration 0 1 0) = some state ∧
        (state.ranks 0).workspace.frequencyByKey (state.ranks 0).plan.minKeyValue (1 : Nat) =
          (sharedProgram.sets (state.ranks 0).iteration).occurrences 1 ∧
        (state.ranks 1).workspace.frequencyByKey (state.ranks 1).plan.minKeyValue (3 : Nat) =
          (sharedProgram.sets (state.ranks 1).iteration).occurrences 3 := by
  obtain ⟨state, executed, intervals⟩ := Option.map_eq_some_iff.mp shared_intervals
  simp only [Prod.mk.injEq] at intervals
  obtain ⟨ranked, least, greatest⟩ := ranked_of_interval intervals.1
  obtain ⟨otherRanked, otherLeast, otherGreatest⟩ := ranked_of_interval intervals.2
  have reached := TransitionSystem.any_run_reachable executed
  exact ⟨state, executed, (distributed_ranking_correct reached ranked 1 (by omega) (by omega)).1,
    (distributed_ranking_correct reached otherRanked 3 (by omega) (by omega)).1⟩

end Runs

end IntegerSortLci.Benchmark
