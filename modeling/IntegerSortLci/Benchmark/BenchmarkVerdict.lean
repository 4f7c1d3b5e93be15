import IntegerSortLci.Benchmark.BenchmarkRun

/-!
# What the benchmark reports

In every order of the ranks' steps the passes are a run of the pipeline and the exchange
is a run of the neighbour exchange on the planned snapshots. So each rank has counted its
right test ranks of the timed passes, and in the end its own full verification. The
verdict follows from the sum.
-/

namespace IntegerSortLci.Benchmark

open IntegerSortLci.Runtime IntegerSortLci.Foundations
open scoped BigOperators

set_option autoImplicit false

variable {commSize : Nat} {Worker : Type} [Fintype Worker]

section Snapshots

/-- Two snapshots with the same counts over the same interval. -/
structure FullVerifySnapshot.Agrees (first second : FullVerifySnapshot) : Prop where
  least : first.minKeyValue = second.minKeyValue
  greatest : first.maxKeyValue = second.maxKeyValue
  total : first.totalLocalKeys = second.totalLocalKeys
  counts : ∀ key, first.minKeyValue ≤ key → key ≤ first.maxKeyValue →
    first.frequencyHistogram key = second.frequencyHistogram key

variable {first second : FullVerifySnapshot}

/-- The histogram is read inside the interval only. -/
theorem FullVerifySnapshot.Agrees.rebuild (agrees : first.Agrees second) (keyArray : Buffer Int) :
    first.rebuild keyArray = second.rebuild keyArray := by
  unfold FullVerifySnapshot.rebuild rebuildKeys
  rw [← agrees.least, ← agrees.greatest]
  apply List.foldl_ext
  intro state key member
  obtain ⟨i, range, rfl⟩ := List.mem_map.mp member
  have less := List.mem_range.mp range
  rw [agrees.counts _ (by omega) (by omega)]

theorem FullVerifySnapshot.Agrees.sent (agrees : first.Agrees second) (keyArray : Buffer Int) :
    first.sentKey keyArray = second.sentKey keyArray := by
  unfold FullVerifySnapshot.sentKey
  rw [agrees.rebuild]

theorem FullVerifySnapshot.Agrees.order (agrees : first.Agrees second) (keyArray : Buffer Int)
    (myRank : Nat) (previousRankLastKey : Int) :
    first.outOfOrder keyArray myRank previousRankLastKey =
      second.outOfOrder keyArray myRank previousRankLastKey := by
  unfold FullVerifySnapshot.outOfOrder
  rw [agrees.rebuild, agrees.total]

variable {ranks others : VerifyingRanks} {exchange : Nat → RankExchange} {action : ExchangeAction}

/-- A step of the exchange looks at the snapshot of the rank whose send is accepted. -/
theorem exchange_step_congr (size : ranks.commSize = others.commSize)
    (sent : ∀ myRank < ranks.commSize, action.caller = some myRank →
      (ranks.snapshots myRank).sentKey (ranks.keyArrays myRank) =
        (others.snapshots myRank).sentKey (others.keyArrays myRank)) :
    ranks.exchangeStep exchange action = others.exchangeStep exchange action := by
  cases action with
  | answerSend myRank answer =>
      simp only [VerifyingRanks.exchangeStep]
      unfold VerifyingRanks.advance
      rw [← size]
      split
      case isTrue inside =>
        cases answer with
        | retry => rfl
        | posted =>
            unfold VerifyingRanks.answerSend
            dsimp only
            rw [sent myRank inside rfl]
      case isFalse => rfl
  | answerReceive myRank answer =>
      simp only [VerifyingRanks.exchangeStep]
      unfold VerifyingRanks.advance VerifyingRanks.answerReceive VerifyingRanks.stageAfterReceive
      rw [size]
  | completeSend myRank | transfer myRank | wake myRank =>
      simp only [VerifyingRanks.exchangeStep]
      unfold VerifyingRanks.advance
      rw [size]

end Snapshots

variable [DecidableEq Worker] {program : BenchmarkProgram commSize Worker}
variable {state state' : BenchmarkRun commSize Worker} {rank : Fin commSize}

section Steps

/-- The guards and the effect of each action. -/
inductive BenchmarkStep (program : BenchmarkProgram commSize Worker)
    (state : BenchmarkRun commSize Worker) :
    BenchmarkAction commSize Worker → BenchmarkRun commSize Worker → Prop where
  | pipeline {action : PipelineAction commSize Worker} (next : Pipeline commSize Worker)
      (stays : action.staysInPass = true)
      (moved : (pipelineSystem program.pipeline).step state.pipeline action = some next) :
      BenchmarkStep program state (.pipeline action) { state with pipeline := next }
  | verifyPartialRanking {rank : Fin commSize}
      (ranked : (state.pipeline.ranks rank).stage = .ranked)
      (current : (state.ranks rank).stage = .ranking) :
      BenchmarkStep program state (.verifyPartialRanking rank)
        (state.setRank rank
          { state.ranks rank with
            stage := .verified
            passedVerification := verifyPartialRanking program.problem program.verification
              (program.pipeline.sets (state.pipeline.ranks rank).iteration).numBuckets
              (passIteration program.iterations (state.pipeline.ranks rank).iteration)
              (state.pipeline.ranks rank) (state.ranks rank).passedVerification })
  | lastFinish {rank : Fin commSize} (current : (state.ranks rank).stage = .verified)
      (last : (state.pipeline.ranks rank).iteration = program.iterations) :
      BenchmarkStep program state (.finishIteration rank)
        (state.setRank rank
          { BenchmarkRun.closePass program (state.pipeline.ranks rank) (state.ranks rank) with
            stage := .finished })
  | finish {rank : Fin commSize} (next : Pipeline commSize Worker)
      (current : (state.ranks rank).stage = .verified)
      (more : (state.pipeline.ranks rank).iteration ≠ program.iterations)
      (moved : (pipelineSystem program.pipeline).step state.pipeline (.nextIteration rank) =
        some next) :
      BenchmarkStep program state (.finishIteration rank)
        { state.setRank rank
          { BenchmarkRun.closePass program (state.pipeline.ranks rank) (state.ranks rank) with
            stage := .ranking
            passedVerification :=
              if (state.pipeline.ranks rank).iteration = 0 then 0
              else (state.ranks rank).passedVerification } with
          pipeline := next }
  | exchange {action : ExchangeAction} (next : Nat → RankExchange)
      (called : state.MayCall action.caller)
      (moved : (state.verifying program).exchangeStep state.exchange action = some next) :
      BenchmarkStep program state (.exchange action) { state with exchange := next }
  | countOutOfOrder {rank : Fin commSize} (current : (state.ranks rank).stage = .finished)
      (past : (state.exchange rank).stage = .past) :
      BenchmarkStep program state (.countOutOfOrder rank)
        (state.setRank rank
          { state.ranks rank with
            stage := .counted
            passedVerification :=
              if (state.ranks rank).finalSnapshot.outOfOrder
                  (program.lastSet.verifyingRanks.keyArrays rank) rank
                  (state.exchange rank).previousRankLastKey ≠ 0 then
                (state.ranks rank).passedVerification
              else (state.ranks rank).passedVerification + 1 })
  | reducePassed {tree : ReduceTree commSize} (covers : tree.Covers)
      (all : ∀ rank, (state.ranks rank).stage = .counted) :
      BenchmarkStep program state (.reducePassed tree)
        { state with
          passedVerification := some
            (tree.combine 1 (fun rank _ => (state.ranks rank).passedVerification) 0) }

theorem benchmark_step_cases {action : BenchmarkAction commSize Worker}
    (stepped : BenchmarkRun.step program state action = some state') :
    BenchmarkStep program state action state' := by
  cases action with
  | pipeline action =>
      simp only [BenchmarkRun.step] at stepped
      split_ifs at stepped with stays
      obtain ⟨next, moved, rfl⟩ := Option.map_eq_some_iff.mp stepped
      exact .pipeline next stays moved
  | verifyPartialRanking rank =>
      simp only [BenchmarkRun.step] at stepped
      split at stepped
      next ranked =>
        split_ifs at stepped with current
        cases stepped
        exact .verifyPartialRanking ranked current
      next => cases stepped
  | finishIteration rank =>
      simp only [BenchmarkRun.step] at stepped
      split at stepped
      case isTrue current =>
        split at stepped
        case isTrue last =>
          cases stepped
          exact .lastFinish current last
        case isFalse more =>
          obtain ⟨next, moved, rfl⟩ := Option.map_eq_some_iff.mp stepped
          exact .finish next current more moved
      case isFalse => cases stepped
  | exchange action =>
      simp only [BenchmarkRun.step] at stepped
      split_ifs at stepped with called
      obtain ⟨next, moved, rfl⟩ := Option.map_eq_some_iff.mp stepped
      exact .exchange next called moved
  | countOutOfOrder rank =>
      simp only [BenchmarkRun.step] at stepped
      split at stepped
      case isTrue guard =>
        cases stepped
        exact .countOutOfOrder guard.1 guard.2
      case isFalse => cases stepped
  | reducePassed tree =>
      simp only [BenchmarkRun.step] at stepped
      split at stepped
      case isTrue guard =>
        cases stepped
        exact .reducePassed guard.2.1 guard.2.2
      case isFalse => cases stepped

/-- A step inside the passes leaves every rank in its pass, and a ranked rank as it is. -/
theorem pass_step_frame {program : Pipeline.Program commSize Worker}
    {state state' : Pipeline commSize Worker} {action : PipelineAction commSize Worker}
    (stepped : PipelineStep program state action state') (stays : action.staysInPass = true)
    (other : Fin commSize) :
    (state'.ranks other).iteration = (state.ranks other).iteration ∧
      ((state.ranks other).stage = .ranked → state'.ranks other = state.ranks other) := by
  have own : ∀ (rank : Fin commSize) (progress : RankProgress Worker),
      progress.iteration = (state.ranks rank).iteration → (state.ranks rank).stage ≠ .ranked →
        ((state.setRank rank progress).ranks other).iteration = (state.ranks other).iteration ∧
          ((state.ranks other).stage = .ranked →
            (state.setRank rank progress).ranks other = state.ranks other) := by
    intro rank progress same unranked
    unfold Pipeline.setRank
    dsimp only
    by_cases mine : other = rank
    · subst mine
      rw [Function.update_self]
      exact ⟨same, fun ranked => absurd ranked unranked⟩
    · rw [Function.update_of_ne mine]
      exact ⟨rfl, fun _ => rfl⟩
  cases stepped with
  | organize current => exact own _ _ rfl (by rw [current]; intro same; cases same)
  | count current moved => exact own _ _ rfl (by rw [current]; intro same; cases same)
  | contribute current finished => exact own _ _ rfl (by rw [current]; intro same; cases same)
  | combine current covers all made => exact own _ _ rfl (by rw [current]; intro same; cases same)
  | receive totals current found => exact own _ _ rfl (by rw [current]; intro same; cases same)
  | assign current => exact own _ _ rfl (by rw [current]; intro same; cases same)
  | setAmHandler next current moved =>
      exact own _ _ rfl (by rw [current]; intro same; cases same)
  | redistribute next inside moved => exact ⟨rfl, fun _ => rfl⟩
  | clearAmHandler am next current present moved =>
      exact own _ _ rfl (by rw [current]; intro same; cases same)
  | startRanking current => exact own _ _ rfl (by rw [current]; intro same; cases same)
  | rankStep current moved => exact own _ _ rfl (by rw [current]; intro same; cases same)
  | finishRanking current finished => exact own _ _ rfl (by rw [current]; intro same; cases same)
  | nextIteration current => cases stays

/-- The next pass of a rank. -/
theorem next_pass {program : Pipeline.Program commSize Worker}
    {state state' : Pipeline commSize Worker}
    (stepped : PipelineStep program state (.nextIteration rank) state') (other : Fin commSize) :
    state'.ranks other =
      if other = rank then
        { state.ranks rank with iteration := (state.ranks rank).iteration + 1, stage := .ready }
      else state.ranks other := by
  cases stepped with
  | nextIteration current =>
      unfold Pipeline.setRank
      dsimp only
      rw [Function.update_apply]

end Steps

section Invariant

/-- The test keys of the timed passes can be ranked. -/
def BenchmarkProgram.Testable (program : BenchmarkProgram commSize Worker) : Prop :=
  ∀ pass, 0 < pass → pass ≤ program.iterations →
    (program.pipeline.sets pass).Testable program.verification

/-- Where a rank is in the run, and what it has counted. -/
structure RankCounts (program : BenchmarkProgram commSize Worker) (rank : Fin commSize)
    (progress : RankProgress Worker) (own : RunRank) : Prop where
  within : progress.iteration ≤ program.iterations
  ranked : own.stage ≠ .ranking → progress.stage = .ranked
  last : own.stage.isLast = true → progress.iteration = program.iterations
  snapshot : own.stage.isLast = true → own.finalSnapshot.Agrees (program.lastSet.snapshot rank)
  passed : program.Testable → 0 < progress.iteration → own.passedVerification =
    program.rightBefore rank (progress.iteration + if own.stage = .ranking then 0 else 1) +
      if own.stage = .counted then program.fullPass rank else 0

structure RunFits (program : BenchmarkProgram commSize Worker) (stale : Fin commSize → Workspace)
    (state : BenchmarkRun commSize Worker) : Prop where
  pipeline : (pipelineSystem program.pipeline).Reachable (fun _ _ => True)
    (.initial program.pipeline stale) state.pipeline
  exchange : program.lastSet.verifyingRanks.exchangeSystem.Reachable (fun _ _ => True)
    program.lastSet.verifyingRanks.exchangeStart state.exchange
  ranks : ∀ rank, RankCounts program rank (state.pipeline.ranks rank) (state.ranks rank)
  total : ∀ count, state.passedVerification = some count →
    (∀ rank, (state.ranks rank).stage = .counted) ∧
      count = ∑ rank, (state.ranks rank).passedVerification

variable {stale : Fin commSize → Workspace}

/-- A step that changes the members of one rank, which has not finished counting. -/
theorem RunFits.set_rank (fits : RunFits program stale state) {own : RunRank}
    (counts : RankCounts program rank (state.pipeline.ranks rank) own)
    (uncounted : (state.ranks rank).stage ≠ .counted) :
    RunFits program stale (state.setRank rank own) where
  pipeline := fits.pipeline
  exchange := fits.exchange
  ranks other := by
    unfold BenchmarkRun.setRank
    dsimp only
    by_cases same : other = rank
    · subst same
      rw [Function.update_self]
      exact counts
    · rw [Function.update_of_ne same]
      exact fits.ranks other
  total count reduced := absurd ((fits.total count reduced).1 rank) uncounted

/-- The snapshot of a ranked rank is the planned one. -/
theorem ranked_snapshot (fits : RunFits program stale state)
    (ranked : (state.pipeline.ranks rank).stage = .ranked) :
    (state.pipeline.ranks rank).snapshot.Agrees
      ((program.pipeline.sets (state.pipeline.ranks rank).iteration).snapshot rank) := by
  obtain ⟨⟨planned, counted, -⟩, -, -⟩ :=
    ((reachable_pipeline_fits fits.pipeline).ranks rank).at_stage ranked
  generalize (state.pipeline.ranks rank) = progress at planned counted ⊢
  have plan := planned.plan
  refine ⟨?_, ?_, ?_, ?_⟩
  · exact congrArg (fun plan : BucketPlan => (plan.minKeyValue : Int)) plan
  · exact congrArg (fun plan : BucketPlan => (plan.maxKeyValue : Int)) plan
  · exact congrArg BucketPlan.localKeyCount plan
  · intro key low high
    have natural : ((key.toNat : Nat) : Int) = key := by
      unfold RankProgress.snapshot at low
      dsimp only at low
      omega
    unfold RankProgress.snapshot at low high ⊢
    unfold KeySet.snapshot
    dsimp only at low high ⊢
    have value := counted key.toNat (by omega) (by omega)
    rw [natural] at value
    exact value

omit [DecidableEq Worker] in
theorem right_before_succ (program : BenchmarkProgram commSize Worker) (rank : Nat) {pass : Nat}
    (timed : 0 < pass) :
    program.rightBefore rank (pass + 1) = program.rightBefore rank pass +
      (program.pipeline.sets pass).rightTestsOf program.verification program.problem
        (passIteration program.iterations pass) rank :=
  Finset.sum_Ico_succ_top timed _

theorem verify_partial_fits (fits : RunFits program stale state)
    (stepped : BenchmarkStep program state (.verifyPartialRanking rank) state') :
    RunFits program stale state' := by
  cases stepped with
  | verifyPartialRanking ranked current =>
      have own := fits.ranks rank
      apply fits.set_rank
      · refine ⟨own.within, fun _ => ranked, ?_, ?_, ?_⟩
        · intro late
          cases late
        · intro late
          cases late
        · intro testable timed
          have before := own.passed testable timed
          rw [current] at before
          rw [ranked_verification fits.pipeline ranked program.tables
            (testable _ timed own.within), before]
          exact (right_before_succ program rank timed).symm
      · rw [current]
        intro same
        cases same

theorem pass_fits (fits : RunFits program stale state) {action : PipelineAction commSize Worker}
    (stepped : BenchmarkStep program state (.pipeline action) state') :
    RunFits program stale state' := by
  cases stepped with
  | pipeline next stays moved =>
      have frame := pass_step_frame (pipeline_step_cases moved) stays
      refine ⟨fits.pipeline.next trivial moved, fits.exchange, ?_, fits.total⟩
      intro other
      obtain ⟨iteration, same⟩ := frame other
      have own := fits.ranks other
      dsimp only
      refine ⟨?_, ?_, ?_, own.snapshot, ?_⟩
      · rw [iteration]
        exact own.within
      · intro late
        have ranked := own.ranked late
        rw [same ranked]
        exact ranked
      · rw [iteration]
        exact own.last
      · rw [iteration]
        exact own.passed

theorem finish_fits (fits : RunFits program stale state)
    (stepped : BenchmarkStep program state (.finishIteration rank) state') :
    RunFits program stale state' := by
  have own := fits.ranks rank
  cases stepped with
  | lastFinish current last =>
      have ranked := own.ranked (by rw [current]; intro same; cases same)
      apply fits.set_rank
      · refine ⟨own.within, fun _ => ranked, fun _ => last, ?_, ?_⟩
        · intro _
          have whole := pass_iteration_timed program.iterations program.some (Nat.le_refl _)
          have agrees := ranked_snapshot fits ranked
          rw [last] at agrees
          unfold BenchmarkRun.closePass
          rw [last, if_pos whole]
          exact agrees
        · intro testable timed
          have before := own.passed testable timed
          rw [current] at before
          exact before
      · rw [current]
        intro same
        cases same
  | finish next current more moved =>
      have step : PipelineStep program.pipeline state.pipeline (.nextIteration rank) next :=
        pipeline_step_cases moved
      have passes := next_pass step
      refine ⟨fits.pipeline.next trivial moved, fits.exchange, ?_, ?_⟩
      · intro other
        unfold BenchmarkRun.setRank
        dsimp only
        rw [passes]
        by_cases mine : other = rank
        · subst mine
          rw [if_pos rfl, Function.update_self]
          have within := own.within
          refine ⟨?_, ?_, ?_, ?_, ?_⟩
          · dsimp only
            omega
          · intro late
            exact absurd rfl late
          · intro late
            cases late
          · intro late
            cases late
          · intro testable _
            dsimp only
            by_cases warm : (state.pipeline.ranks other).iteration = 0
            · rw [if_pos warm, warm]
              rfl
            · have before := own.passed testable (Nat.pos_of_ne_zero warm)
              rw [current] at before
              rw [if_neg warm]
              exact before
        · rw [if_neg mine, Function.update_of_ne mine]
          exact fits.ranks other
      · intro count reduced
        have counted := (fits.total count reduced).1 rank
        rw [current] at counted
        cases counted

/-- A rank that exchanges its last key has the planned snapshot. -/
theorem verifying_step (fits : RunFits program stale state) {action : ExchangeAction}
    (called : state.MayCall action.caller) :
    (state.verifying program).exchangeStep state.exchange action =
      program.lastSet.verifyingRanks.exchangeStep state.exchange action := by
  have size : (state.verifying program).commSize = program.lastSet.verifyingRanks.commSize := rfl
  apply exchange_step_congr size
  intro myRank inside caller
  obtain ⟨rank, rfl, finished⟩ := called myRank caller
  have agrees := (fits.ranks rank).snapshot (by rw [finished]; rfl)
  unfold BenchmarkRun.verifying
  dsimp only
  rw [dif_pos rank.isLt]
  exact agrees.sent _

theorem exchange_fits (fits : RunFits program stale state) {action : ExchangeAction}
    (stepped : BenchmarkStep program state (.exchange action) state') :
    RunFits program stale state' := by
  cases stepped with
  | exchange next called moved =>
      rw [verifying_step fits called] at moved
      exact ⟨fits.pipeline, fits.exchange.next trivial moved, fits.ranks, fits.total⟩

theorem count_out_of_order_fits (fits : RunFits program stale state)
    (stepped : BenchmarkStep program state (.countOutOfOrder rank) state') :
    RunFits program stale state' := by
  cases stepped with
  | countOutOfOrder current past =>
      have own := fits.ranks rank
      apply fits.set_rank
      · refine ⟨own.within, ?_, ?_, ?_, ?_⟩
        · intro _
          exact own.ranked (by rw [current]; intro same; cases same)
        · intro _
          exact own.last (by rw [current]; rfl)
        · intro _
          exact own.snapshot (by rw [current]; rfl)
        · intro testable timed
          have before := own.passed testable timed
          have agrees := own.snapshot (by rw [current]; rfl)
          rw [current] at before
          have full : program.fullPass rank =
              if (program.lastSet.snapshot rank).outOfOrder
                  (program.lastSet.verifyingRanks.keyArrays rank) rank
                  (program.lastSet.verifyingRanks.previousRankLastKey rank) ≠ 0 then 0
              else 1 := rfl
          dsimp only
          rw [agrees.order, exchange_delivers fits.exchange past, before, full, if_pos rfl]
          split
          · rfl
          · rfl
      · rw [current]
        intro same
        cases same

theorem reduce_passed_fits (fits : RunFits program stale state) {tree : ReduceTree commSize}
    (stepped : BenchmarkStep program state (.reducePassed tree) state') :
    RunFits program stale state' := by
  cases stepped with
  | reducePassed covers all =>
      refine ⟨fits.pipeline, fits.exchange, fits.ranks, ?_⟩
      intro count reduced
      obtain rfl := Option.some.inj reduced
      exact ⟨all, ReduceTree.combine_sum 1 _ covers Nat.one_pos⟩

theorem initial_run_fits (program : BenchmarkProgram commSize Worker)
    (stale : Fin commSize → Workspace) : RunFits program stale (.initial program stale) where
  pipeline := .start
  exchange := .start
  ranks _ := by
    refine ⟨Nat.zero_le _, fun late => absurd rfl late, ?_, ?_, ?_⟩
    · intro late
      cases late
    · intro late
      cases late
    · intro _ timed
      exact absurd timed (Nat.lt_irrefl 0)
  total _ reduced := by cases reduced

theorem reachable_run_fits
    (reached : (benchmarkSystem program).Reachable (fun _ _ => True) (.initial program stale)
      state) : RunFits program stale state := by
  apply reached.invariant (initial_run_fits program stale)
  intro before after action _ fits _ stepped
  have step := benchmark_step_cases stepped
  cases action with
  | pipeline action => exact pass_fits fits step
  | verifyPartialRanking rank => exact verify_partial_fits fits step
  | finishIteration rank => exact finish_fits fits step
  | exchange action => exact exchange_fits fits step
  | countOutOfOrder rank => exact count_out_of_order_fits fits step
  | reducePassed tree => exact reduce_passed_fits fits step

end Invariant

section Verdict

variable {stale : Fin commSize → Workspace} {count : Nat}

namespace BenchmarkProgram

/-- Every test rank of the timed passes is right. -/
def AllRight (program : BenchmarkProgram commSize Worker) : Prop :=
  ∀ pass, 0 < pass → pass ≤ program.iterations → ∀ testId < testArraySize,
    (program.pipeline.sets pass).TestRight program.verification program.problem pass testId

/-- The right test ranks of all timed passes. -/
def rightTests (program : BenchmarkProgram commSize Worker) : Nat :=
  ∑ pass ∈ Finset.Ico 1 (program.iterations + 1),
    (program.pipeline.sets pass).rightTests program.verification program.problem pass

end BenchmarkProgram

omit [DecidableEq Worker] in
/-- The ranks have counted every right test rank once. -/
theorem right_before_total (testable : program.Testable) :
    ∑ rank : Fin commSize, program.rightBefore rank (program.iterations + 1) =
      program.rightTests := by
  unfold BenchmarkProgram.rightBefore BenchmarkProgram.rightTests
  rw [Finset.sum_comm]
  apply Finset.sum_congr rfl
  intro pass member
  obtain ⟨timed, within⟩ := Finset.mem_Ico.mp member
  rw [pass_iteration_timed pass timed (Nat.le_of_lt_succ within)]
  exact right_tests_total (testable pass timed (Nat.le_of_lt_succ within)) _ _

/-- What the root holds after the last reduction. -/
theorem reduced_total (testable : program.Testable)
    (reached : (benchmarkSystem program).Reachable (fun _ _ => True) (.initial program stale) state)
    (reduced : state.passedVerification = some count) :
    count = program.rightTests + ∑ rank : Fin commSize, program.fullPass rank := by
  have fits := reachable_run_fits reached
  obtain ⟨counted, sum⟩ := fits.total count reduced
  rw [sum, ← right_before_total testable, ← Finset.sum_add_distrib]
  apply Finset.sum_congr rfl
  intro rank _
  have own := fits.ranks rank
  have last := own.last (by rw [counted rank]; rfl)
  have passed := own.passed testable (by rw [last]; exact program.some)
  rw [counted rank, last] at passed
  exact passed

omit [DecidableEq Worker] in
theorem full_pass_at_most (program : BenchmarkProgram commSize Worker) (rank : Nat) :
    program.fullPass rank ≤ 1 := by
  unfold BenchmarkProgram.fullPass VerifyingRanks.fullVerify
  split
  · exact Nat.zero_le 1
  · exact Nat.le_refl 1

omit [DecidableEq Worker] in
/-- A rank that counts its full verification once counts it from any number. -/
theorem full_pass_one (program : BenchmarkProgram commSize Worker) :
    (∀ rank : Fin commSize, program.fullPass rank = 1) ↔
      program.lastSet.verifyingRanks.AllPass := by
  constructor
  · intro ones rank inside passedVerification
    have one := ones ⟨rank, inside⟩
    unfold BenchmarkProgram.fullPass VerifyingRanks.fullVerify at one
    unfold VerifyingRanks.fullVerify
    split at one
    case isTrue => cases one
    case isFalse fine => exact if_neg fine
  · intro all rank
    exact all rank rank.isLt 0

omit [DecidableEq Worker] in
/-- The count can not exceed the expected one, and meets it when nothing was wrong. -/
theorem expected_count_iff (program : BenchmarkProgram commSize Worker) :
    program.rightTests + ∑ rank : Fin commSize, program.fullPass rank =
        expectedVerificationCount program.iterations commSize ↔
      program.AllRight ∧ program.lastSet.verifyingRanks.StaleBelow := by
  have tests : ∀ pass ∈ Finset.Ico 1 (program.iterations + 1),
      (program.pipeline.sets pass).rightTests program.verification program.problem pass ≤
        testArraySize :=
    fun pass _ => right_tests_at_most _ _ _ _
  have fulls : ∀ rank ∈ (Finset.univ : Finset (Fin commSize)), program.fullPass rank ≤ 1 :=
    fun rank _ => full_pass_at_most program rank
  have most : program.rightTests ≤ 5 * program.iterations := by
    have bound := Finset.sum_le_sum tests
    rw [Finset.sum_const, Nat.card_Ico, smul_eq_mul] at bound
    unfold testArraySize at bound
    unfold BenchmarkProgram.rightTests
    omega
  have once : ∑ rank : Fin commSize, program.fullPass rank ≤ commSize := by
    have bound := Finset.sum_le_sum fulls
    rw [Finset.sum_const, Finset.card_univ, Fintype.card_fin, smul_eq_mul, Nat.mul_one] at bound
    exact bound
  have right : program.rightTests = 5 * program.iterations ↔ program.AllRight := by
    have same := Finset.sum_eq_sum_iff_of_le tests
    rw [Finset.sum_const, Nat.card_Ico, smul_eq_mul] at same
    have total : (program.iterations + 1 - 1) * testArraySize = 5 * program.iterations := by
      unfold testArraySize
      omega
    rw [total] at same
    refine same.trans ?_
    unfold BenchmarkProgram.AllRight
    constructor
    · intro all pass timed within
      exact (right_tests_all _ _ _ _).mp (all pass (Finset.mem_Ico.mpr ⟨timed, by omega⟩))
    · intro all pass member
      obtain ⟨timed, within⟩ := Finset.mem_Ico.mp member
      exact (right_tests_all _ _ _ _).mpr (all pass timed (by omega))
  have full : ∑ rank : Fin commSize, program.fullPass rank = commSize ↔
      program.lastSet.verifyingRanks.StaleBelow := by
    have same := Finset.sum_eq_sum_iff_of_le fulls
    rw [Finset.sum_const, Finset.card_univ, Fintype.card_fin, smul_eq_mul, Nat.mul_one] at same
    rw [← planned_passes_iff, ← full_pass_one]
    refine same.trans ?_
    constructor
    · intro all rank
      exact all rank (Finset.mem_univ rank)
    · intro all rank _
      exact all rank
  rw [← right, ← full]
  unfold expectedVerificationCount
  omega

theorem verification_line_iff {iterations commSize passedVerification : Nat}
    (some : 0 < iterations) :
    verificationLine (finalVerificationStatus iterations passedVerification commSize) =
        " Verification    =               SUCCESSFUL\n" ↔
      passedVerification = expectedVerificationCount iterations commSize := by
  have nonzero : expectedVerificationCount iterations commSize ≠ 0 := by
    unfold expectedVerificationCount
    omega
  unfold verificationLine finalVerificationStatus
  constructor
  · intro printed
    by_contra other
    rw [if_neg other] at printed
    exact absurd printed (by decide)
  · intro same
    rw [if_pos same, same, if_pos nonzero]

/-- In every run, the benchmark reports success exactly when the test keys of all timed
passes have the ranks of the tables, and no rank without keys is in front of a smaller key
than its array held. -/
theorem benchmark_successful_iff (testable : program.Testable)
    (reached : (benchmarkSystem program).Reachable (fun _ _ => True) (.initial program stale) state)
    (reduced : state.passedVerification = some count) :
    verificationLine (finalVerificationStatus program.iterations count commSize) =
        " Verification    =               SUCCESSFUL\n" ↔
      program.AllRight ∧ program.lastSet.verifyingRanks.StaleBelow := by
  rw [verification_line_iff program.some, reduced_total testable reached reduced]
  exact expected_count_iff program

end Verdict

section Runs

/-- A warm-up and a timed pass over the first key. -/
def onceBenchmark {commSize : Nat} (set : KeySet commSize) : BenchmarkProgram commSize Unit where
  pipeline :=
    { sets := fun _ => set
      testIndex := fun _ => 0
      runs := fun _ => soloRun set }
  problem := .S
  verification :=
    { testIndex := fun _ => 0
      testRank := fun testId => if testId ≤ 2 then 0 else 2 }
  iterations := 1
  tables := rfl
  some := Nat.one_pos

/-- A pass of both ranks. -/
def sharedPass (first second : Fin 2) (pass : Nat) : List (BenchmarkAction 2 Unit) :=
  (sharedIteration first second pass).map .pipeline ++
    [.verifyPartialRanking second, .finishIteration second, .verifyPartialRanking first,
      .finishIteration first]

def sharedActions (first second : Fin 2) : List (BenchmarkAction 2 Unit) :=
  sharedPass first second 0 ++ sharedPass first second 1

/-- The second rank gets the last key of the first one, whose send is at first refused. -/
def sharedExchange (first second : Fin 2) : List (BenchmarkAction 2 Unit) :=
  [.exchange (.answerReceive second .posted), .exchange (.answerSend first .retry),
    .exchange (.answerSend first .posted), .exchange (.completeSend first),
    .exchange (.transfer first), .exchange (.wake first), .exchange (.wake second)]

def sharedVerdict (first second : Fin 2) : List (BenchmarkAction 2 Unit) :=
  sharedActions first second ++ sharedExchange first second ++
    [.countOutOfOrder second, .countOutOfOrder first,
      .reducePassed (.node (.leaf first) (.leaf second) .left fun _ => 0)]

theorem shared_reduced_passed :
    ((benchmarkSystem (onceBenchmark sharedKeys)).run
        (.initial (onceBenchmark sharedKeys) fun _ => staleWorkspace)
        (sharedVerdict 0 1)).map BenchmarkRun.passedVerification = some (some 7) := by
  decide +kernel

theorem benchmark_successful_iff_shared :
    ∃ state : BenchmarkRun 2 Unit,
      (benchmarkSystem (onceBenchmark sharedKeys)).run
          (.initial (onceBenchmark sharedKeys) fun _ => staleWorkspace) (sharedVerdict 0 1) =
            some state ∧
        (onceBenchmark sharedKeys).AllRight ∧
          (onceBenchmark sharedKeys).lastSet.verifyingRanks.StaleBelow := by
  obtain ⟨state, executed, reduced⟩ := Option.map_eq_some_iff.mp shared_reduced_passed
  have reached := TransitionSystem.any_run_reachable executed
  have passes : sharedKeys.Testable (onceBenchmark sharedKeys).verification :=
    ⟨by decide, by decide⟩
  have testable : (onceBenchmark sharedKeys).Testable := fun _ _ _ => passes
  exact ⟨state, executed, (benchmark_successful_iff testable reached reduced).mp (by decide)⟩

end Runs

end IntegerSortLci.Benchmark
