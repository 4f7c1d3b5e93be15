import IntegerSortLci.Benchmark.BenchmarkVerdict
import IntegerSortLci.Benchmark.ExchangeCompletion
import IntegerSortLci.Benchmark.PassCompletion

/-!
# The benchmark comes to an end

A rank that lags behind can always go on in its pass, for nobody can be behind it. When all
ranks are through with their passes they wait for the neighbour exchange only, and then for
the reduction. So from every state of a run the benchmark can be brought to its verdict, if
the library accepts the receives of the exchange: what a refused receive waits for never
comes.
-/

namespace IntegerSortLci.Benchmark

open IntegerSortLci.Runtime IntegerSortLci.Foundations
open scoped BigOperators

set_option autoImplicit false

section Exchange

variable {ranks : VerifyingRanks} {exchange next : Nat → RankExchange} {action : ExchangeAction}
variable {myRank : Nat}

theorem past_stays (stepped : ranks.exchangeStep exchange action = some next)
    (past : (exchange myRank).stage = .past) : (next myRank).stage = .past := by
  rcases exchange_step_cases stepped myRank with same | moved
  · rw [same]
    exact past
  · generalize next myRank = entry at moved
    cases moved with
    | receiveAnswered answer asked stage => cases past.symm.trans stage
    | sendAccepted stage => cases past.symm.trans stage
    | sendCompleted => exact past
    | valueTaken arrived => exact past
    | valueReceived value later accepted taken => exact past
    | sendWaited stage => cases past.symm.trans stage
    | receiveWaited stage signalled => rfl

theorem caller_waits (stepped : ranks.exchangeStep exchange action = some next)
    (calls : action.caller = some myRank) :
    myRank < ranks.commSize ∧ (exchange myRank).stage ≠ .past := by
  cases action with
  | answerReceive other answer =>
      obtain rfl := Option.some.inj calls
      simp only [VerifyingRanks.exchangeStep] at stepped
      obtain ⟨entry, answered, -⟩ := advance_cases stepped
      refine ⟨advance_inside stepped, ?_⟩
      intro past
      unfold VerifyingRanks.answerReceive at answered
      rw [past] at answered
      cases answered
  | answerSend other answer =>
      obtain rfl := Option.some.inj calls
      simp only [VerifyingRanks.exchangeStep] at stepped
      obtain ⟨entry, answered, -⟩ := advance_cases stepped
      refine ⟨advance_inside stepped, ?_⟩
      intro past
      cases answer with
      | posted | retry =>
          simp only [VerifyingRanks.answerSend, past] at answered
          cases answered
  | wake other =>
      obtain rfl := Option.some.inj calls
      simp only [VerifyingRanks.exchangeStep] at stepped
      obtain ⟨entry, woken, -⟩ := advance_cases stepped
      refine ⟨advance_inside stepped, ?_⟩
      intro past
      unfold VerifyingRanks.wake at woken
      rw [past] at woken
      cases woken
  | completeSend other | transfer other => cases calls

theorem reachable_asked_later {permitted : (Nat → RankExchange) → ExchangeAction → Prop}
    (reached : ranks.exchangeSystem.Reachable permitted ranks.exchangeStart exchange)
    (asking : (exchange myRank).stage = .postingReceive) : 0 < myRank := by
  revert asking
  apply reached.invariant
  · intro asking
    by_contra first
    unfold VerifyingRanks.exchangeStart at asking
    rw [if_neg first] at asking
    exact (behind_receive ranks myRank).asking asking
  · intro before after action _ later _ stepped asking
    rcases exchange_step_cases stepped myRank with same | moved
    · rw [same] at asking
      exact later asking
    · generalize after myRank = entry at moved asking
      cases moved with
      | receiveAnswered answer asked stage => exact later stage
      | sendCompleted => exact later asking
      | valueTaken arrived => exact later asking
      | valueReceived value later accepted taken => exact later
      | sendWaited stage => exact absurd asking (behind_send myRank).asking
      | sendAccepted stage | receiveWaited stage signalled => cases asking

/-- A refused receive is seen in the state: where there is none, none was refused. -/
theorem accepted_of_not_refused
    (reached : ranks.exchangeSystem.Reachable (fun _ _ => True) ranks.exchangeStart exchange)
    (none : ∀ rank < ranks.commSize, ¬ (exchange rank).ReceiveRefused rank) :
    ranks.exchangeSystem.Reachable ReceivesAccepted ranks.exchangeStart exchange := by
  induction reached with
  | start => exact .start
  | @next before after action prior _ stepped ih =>
      have earlier : ∀ rank < ranks.commSize, ¬ (before rank).ReceiveRefused rank := by
        intro rank inside refused
        rcases exchange_step_cases stepped rank with same | moved
        · exact none rank inside (by rwa [same])
        · exact none rank inside (refused_stays moved refused)
      refine (ih earlier).next ?_ stepped
      rintro myRank rfl
      simp only [VerifyingRanks.exchangeSystem, VerifyingRanks.exchangeStep] at stepped
      have inside := advance_inside stepped
      obtain ⟨entry, answered, rfl⟩ := advance_cases stepped
      unfold VerifyingRanks.answerReceive at answered
      split at answered
      case isFalse => cases answered
      case isTrue asking =>
        obtain rfl := Option.some.inj answered
        apply none myRank inside
        rw [Function.update_self]
        exact ⟨reachable_asked_later prior asking, (behind_receive ranks myRank).asking, rfl⟩

end Exchange

variable {commSize : Nat} {Worker : Type} [Fintype Worker] [DecidableEq Worker]
variable {program : BenchmarkProgram commSize Worker}
variable {state state' : BenchmarkRun commSize Worker} {rank : Fin commSize}
variable {stale : Fin commSize → Workspace}

/-- How a run can be continued without a refused receive. The ranks wait for each other where
the source has a barrier or a reduction that no other action stands for: in
`begin_iteration` and in `stop_timed_region`. -/
structure BenchmarkAction.Continues {commSize : Nat} {Worker : Type}
    (action : BenchmarkAction commSize Worker) (state : BenchmarkRun commSize Worker) : Prop where
  accepts : ∀ myRank, action ≠ .exchange (.answerReceive myRank .retry)
  begins : ∀ rank, action = .pipeline (.organize rank) →
    ∀ other, (state.pipeline.ranks rank).iteration ≤ (state.pipeline.ranks other).iteration
  stops : ∀ step, action = .exchange step → ∀ other, (state.ranks other).stage.isLast = true

abbrev ContinuedReachable (program : BenchmarkProgram commSize Worker)
    (state after : BenchmarkRun commSize Worker) : Prop :=
  (benchmarkSystem program).Reachable (fun before action => action.Continues before) state after

/-- An action of one rank outside its pass and the exchange. -/
def BenchmarkAction.isOwn : BenchmarkAction commSize Worker → Bool
  | .pipeline _ | .exchange _ => false
  | _ => true

omit [Fintype Worker] [DecidableEq Worker] in
theorem own_continues {action : BenchmarkAction commSize Worker} (own : action.isOwn = true)
    (state : BenchmarkRun commSize Worker) : action.Continues state := by
  refine ⟨?_, ?_, ?_⟩
  · rintro myRank rfl
    cases own
  · rintro rank rfl
    cases own
  · rintro step rfl
    cases own

section Standing

/-- Nobody has counted in front of the end of its exchange. -/
def BenchmarkRun.CountsPast (state : BenchmarkRun commSize Worker) : Prop :=
  ∀ rank : Fin commSize, (state.ranks rank).stage = .counted → (state.exchange rank).stage = .past

omit [Fintype Worker] [DecidableEq Worker] in
theorem BenchmarkRun.CountsPast.set_rank (counts : state.CountsPast) {own : RunRank}
    (counted : own.stage = .counted → (state.exchange rank).stage = .past) :
    (state.setRank rank own).CountsPast := by
  intro other late
  unfold BenchmarkRun.setRank at late ⊢
  dsimp only at late ⊢
  by_cases same : other = rank
  · subst same
    rw [Function.update_self] at late
    exact counted late
  · rw [Function.update_of_ne same] at late
    exact counts other late

theorem step_counts_past {action : BenchmarkAction commSize Worker} (counts : state.CountsPast)
    (stepped : BenchmarkStep program state action state') : state'.CountsPast := by
  cases stepped with
  | pipeline next stays moved => exact counts
  | verifyPartialRanking ranked current => exact counts.set_rank fun late => by cases late
  | lastFinish current last => exact counts.set_rank fun late => by cases late
  | finish next current more moved =>
      refine (BenchmarkRun.CountsPast.set_rank counts ?_ : _)
      intro late
      cases late
  | exchange next called moved =>
      intro rank late
      exact past_stays moved (counts rank late)
  | countOutOfOrder current past => exact counts.set_rank fun _ => past
  | reducePassed covers all => exact counts

theorem reachable_counts_past
    (reached : (benchmarkSystem program).Reachable (fun _ _ => True) (.initial program stale)
      state) : state.CountsPast := by
  apply reached.invariant
  · intro rank late
    cases late
  · intro before after action _ counts _ stepped
    exact step_counts_past counts (benchmark_step_cases stepped)

theorem accepted_run_exchange
    (reached : (benchmarkSystem program).Reachable (fun _ _ => True) (.initial program stale) state)
    (accepted : program.lastSet.verifyingRanks.exchangeSystem.Reachable ReceivesAccepted
      program.lastSet.verifyingRanks.exchangeStart state.exchange)
    (continued : ContinuedReachable program state state') :
    program.lastSet.verifyingRanks.exchangeSystem.Reachable ReceivesAccepted
      program.lastSet.verifyingRanks.exchangeStart state'.exchange := by
  apply continued.invariant accepted
  intro before after action earlier accepted continues stepped
  have step := benchmark_step_cases stepped
  cases step with
  | exchange next called moved =>
      have every := reached.trans (earlier.mono fun _ _ _ => trivial)
      rw [verifying_step (reachable_run_fits every) called] at moved
      apply accepted.next _ moved
      intro myRank refused
      exact continues.accepts myRank (by rw [refused])
  | _ => exact accepted

/-- A receive that was refused keeps its rank in the exchange, and the others from a verdict. -/
theorem refused_no_verdict (rank : Fin commSize)
    (reached : (benchmarkSystem program).Reachable (fun _ _ => True) (.initial program stale) state)
    (refused : (state.exchange rank).ReceiveRefused rank)
    (continued : (benchmarkSystem program).Reachable (fun _ _ => True) state state') :
    state'.passedVerification = none := by
  have still : (state'.exchange rank).ReceiveRefused rank := by
    apply continued.invariant refused
    intro before after action _ refused _ stepped
    cases benchmark_step_cases stepped with
    | exchange next called moved =>
        rcases exchange_step_cases moved rank with same | advanced
        · dsimp only
          rwa [same]
        · exact refused_stays advanced refused
    | _ => exact refused
  have every := reached.trans continued
  have fits := reachable_run_fits every
  have sound := reachable_sound fits.exchange rank
  cases decided : state'.passedVerification with
  | none => rfl
  | some count =>
      have past := reachable_counts_past every rank ((fits.total count decided).1 rank)
      have posted := sound.accepted (sound.past still.1 past)
      cases posted.symm.trans still.2.2

end Standing

section Work

/-- The calls that a rank has before it in its pass and behind it. -/
def RunStage.work : RunStage → Nat
  | .ranking => 3
  | .verified => 2
  | .finished => 1
  | .counted => 0

/-- A pass that is to come weighs more than its steps. -/
def RunRank.work (iterations : Nat) (progress : RankProgress Worker) (own : RunRank) : Nat :=
  13 * (iterations - progress.iteration) + own.stage.work

/-- A verdict that is not there yet. -/
def undecided : Option Nat → Nat
  | none => 1
  | some _ => 0

/-- What the benchmark has before it, with each redistribution one step. -/
def BenchmarkRun.work (program : BenchmarkProgram commSize Worker)
    (state : BenchmarkRun commSize Worker) : Nat :=
  ∑ rank, (state.ranks rank).work program.iterations (state.pipeline.ranks rank) +
    passWork state.pipeline + program.lastSet.verifyingRanks.exchangeWork state.exchange +
      undecided state.passedVerification

omit [Fintype Worker] [DecidableEq Worker] in
/-- A rank whose stage in the run changes inside one pass. -/
theorem set_rank_work_lt {own : RunRank} (iterations : Nat)
    (lower : own.stage.work < (state.ranks rank).stage.work) :
    ∑ other, ((state.setRank rank own).ranks other).work iterations
        (state.pipeline.ranks other) <
      ∑ other, (state.ranks other).work iterations (state.pipeline.ranks other) := by
  unfold BenchmarkRun.setRank
  dsimp only
  apply Finset.sum_lt_sum
  · intro other _
    by_cases same : other = rank
    · subst same
      rw [Function.update_self]
      unfold RunRank.work
      omega
    · rw [Function.update_of_ne same]
  · refine ⟨rank, Finset.mem_univ rank, ?_⟩
    rw [Function.update_self]
    unfold RunRank.work
    omega

omit [DecidableEq Worker] in
theorem BenchmarkRun.set_rank_lt {own : RunRank}
    (lower : own.stage.work < (state.ranks rank).stage.work) :
    (state.setRank rank own).work program < state.work program := by
  have less := set_rank_work_lt program.iterations lower
  unfold BenchmarkRun.work
  exact Nat.add_lt_add_right (Nat.add_lt_add_right (Nat.add_lt_add_right less _) _) _

theorem unreduced_at_most (total : Option (Nat → Nat)) : unreduced total ≤ 1 := by
  cases total with
  | none => exact Nat.le_refl 1
  | some _ => exact Nat.zero_le 1

/-- The next pass of a rank, as `next_pass` states it. -/
def RankProgress.nextPass {Worker : Type} (progress : RankProgress Worker) : RankProgress Worker :=
  { progress with iteration := progress.iteration + 1, stage := .ready }

omit [Fintype Worker] [DecidableEq Worker] in
theorem next_pass_rank_lt {progress : RankProgress Worker} {iterations : Nat} {own : RunRank}
    (before : RunRank) (within : progress.iteration < iterations) (ranking : own.stage = .ranking)
    (totals : Nat → Option (Nat → Nat)) :
    own.work iterations progress.nextPass +
        (progress.nextPass.stage.work + unreduced (totals progress.nextPass.iteration)) <
      before.work iterations progress +
        (progress.stage.work + unreduced (totals progress.iteration)) := by
  have bound := unreduced_at_most (totals progress.nextPass.iteration)
  have ready : progress.nextPass.stage.work = 8 := rfl
  have next : progress.nextPass.iteration = progress.iteration + 1 := rfl
  have three : own.stage.work = 3 := by
    rw [ranking]
    rfl
  unfold RunRank.work
  rw [next] at bound ⊢
  rw [ready, three]
  omega

omit [DecidableEq Worker] in
theorem next_pass_work_lt {own : RunRank} {pipeline : Pipeline commSize Worker}
    (passes : pipeline = state.pipeline.setRank rank (state.pipeline.ranks rank).nextPass)
    (within : (state.pipeline.ranks rank).iteration < program.iterations)
    (ranking : own.stage = .ranking) :
    BenchmarkRun.work program { state.setRank rank own with pipeline := pipeline } <
      state.work program := by
  subst passes
  have less : ∑ other, (((state.setRank rank own).ranks other).work program.iterations
        ((state.pipeline.setRank rank (state.pipeline.ranks rank).nextPass).ranks other)) +
      passWork (state.pipeline.setRank rank (state.pipeline.ranks rank).nextPass) <
      ∑ other, (state.ranks other).work program.iterations (state.pipeline.ranks other) +
        passWork state.pipeline := by
    have lower := next_pass_rank_lt (state.ranks rank) within ranking state.pipeline.totals
    unfold passWork BenchmarkRun.setRank Pipeline.setRank
    dsimp only
    rw [← Finset.sum_add_distrib, ← Finset.sum_add_distrib]
    apply Finset.sum_lt_sum
    · intro other _
      by_cases same : other = rank
      · subst same
        rw [Function.update_self, Function.update_self]
        exact lower.le
      · rw [Function.update_of_ne same, Function.update_of_ne same]
    · refine ⟨rank, Finset.mem_univ rank, ?_⟩
      rw [Function.update_self, Function.update_self]
      exact lower
  unfold BenchmarkRun.work
  exact Nat.add_lt_add_right (Nat.add_lt_add_right less _) _

end Work

section Completion

theorem pass_run {next : Pipeline commSize Worker}
    (reached : PassReachable program.pipeline state.pipeline next) :
    ContinuedReachable program state { state with pipeline := next } ∧
      ∀ rank, (next.ranks rank).iteration = (state.pipeline.ranks rank).iteration := by
  induction reached with
  | start => exact ⟨.start, fun _ => rfl⟩
  | @next before after action _ inStep stepped ih =>
      obtain ⟨earlier, same⟩ := ih
      constructor
      · have moved : (benchmarkSystem program).step { state with pipeline := before }
            (.pipeline action) = some { state with pipeline := after } := by
          have inner : Pipeline.step program.pipeline before action = some after := stepped
          simp only [benchmarkSystem, BenchmarkRun.step, if_pos inStep.stays, inner,
            Option.map_some]
        refine earlier.next ⟨?_, ?_, ?_⟩ moved
        · intro myRank refused
          cases refused
        · intro rank starts
          exact inStep.together rank (BenchmarkAction.pipeline.inj starts)
        · intro step calls
          cases calls
      · intro rank
        rw [(pass_step_frame (pipeline_step_cases stepped) inStep.stays rank).1, same rank]

theorem single_step (action : BenchmarkAction commSize Worker)
    (continues : action.Continues state)
    (stepped : BenchmarkRun.step program state action = some state')
    (lower : state'.work program < state.work program) :
    ∃ after, ContinuedReachable program state after ∧ after.work program < state.work program :=
  ⟨state', .next .start continues stepped, lower⟩

/-- The pass of an early rank is not behind that of a late one. -/
theorem earliest_rank (fits : RunFits program stale state)
    (early : ∃ rank, (state.ranks rank).stage.isLast = false) :
    ∃ rank, (state.ranks rank).stage.isLast = false ∧
      ∀ other, (state.pipeline.ranks rank).iteration ≤ (state.pipeline.ranks other).iteration := by
  obtain ⟨some, is⟩ := early
  obtain ⟨rank, member, least⟩ := Finset.exists_min_image
    (Finset.univ.filter fun rank => (state.ranks rank).stage.isLast = false)
    (fun rank => (state.pipeline.ranks rank).iteration)
    ⟨some, Finset.mem_filter.mpr ⟨Finset.mem_univ some, is⟩⟩
  refine ⟨rank, (Finset.mem_filter.mp member).2, ?_⟩
  intro other
  by_cases last : (state.ranks other).stage.isLast = true
  · rw [(fits.ranks other).last last]
    exact (fits.ranks rank).within
  · exact least other
      (Finset.mem_filter.mpr ⟨Finset.mem_univ other, Bool.eq_false_iff.mpr last⟩)

/-- Inside its pass a rank goes on, or another one that it waits for. -/
theorem unranked_progress (fits : RunFits program stale state)
    (first : ∀ other, (state.pipeline.ranks rank).iteration ≤
      (state.pipeline.ranks other).iteration)
    (unranked : (state.pipeline.ranks rank).stage ≠ .ranked) :
    ∃ after, ContinuedReachable program state after ∧ after.work program < state.work program := by
  obtain ⟨next, reached, lower⟩ := pass_progress (reachable_pipeline_fits fits.pipeline)
    (reachable_collected fits.pipeline) first unranked
  obtain ⟨continued, same⟩ := pass_run reached
  refine ⟨_, continued, ?_⟩
  have ranks : ∑ rank, (state.ranks rank).work program.iterations (next.ranks rank) =
      ∑ rank, (state.ranks rank).work program.iterations (state.pipeline.ranks rank) := by
    apply Finset.sum_congr rfl
    intro rank _
    unfold RunRank.work
    rw [same rank]
  unfold BenchmarkRun.work
  dsimp only
  rw [ranks]
  omega

/-- A ranked rank verifies its test keys and leaves its pass. -/
theorem ranked_progress (fits : RunFits program stale state)
    (early : (state.ranks rank).stage.isLast = false)
    (ranked : (state.pipeline.ranks rank).stage = .ranked) :
    ∃ after, ContinuedReachable program state after ∧ after.work program < state.work program := by
  cases current : (state.ranks rank).stage with
  | ranking =>
      apply single_step (.verifyPartialRanking rank) (own_continues rfl state)
      · simp only [BenchmarkRun.step, ranked, current, if_true]
        rfl
      · apply BenchmarkRun.set_rank_lt
        rw [current]
        exact Nat.lt_succ_self 2
  | verified =>
      by_cases last : (state.pipeline.ranks rank).iteration = program.iterations
      · apply single_step (.finishIteration rank) (own_continues rfl state)
        · simp only [BenchmarkRun.step, BenchmarkRun.closePass, current, last, if_true]
          rfl
        · apply BenchmarkRun.set_rank_lt
          rw [current]
          exact Nat.lt_succ_self 1
      · have moved : Pipeline.step program.pipeline state.pipeline (.nextIteration rank) =
            some (state.pipeline.setRank rank (state.pipeline.ranks rank).nextPass) := by
          simp only [Pipeline.step, ranked]
          rfl
        apply single_step (.finishIteration rank) (own_continues rfl state)
        · simp only [BenchmarkRun.step, BenchmarkRun.closePass, current, if_true, if_neg last,
            moved, Option.map_some]
          rfl
        · apply next_pass_work_lt rfl
          · have within := (fits.ranks rank).within
            omega
          · rfl
  | finished | counted =>
      rw [current] at early
      cases early

/-- Of the ranks that are not in their last verification, one in the earliest pass goes on. -/
theorem early_rank_progress (fits : RunFits program stale state)
    (early : ∃ rank, (state.ranks rank).stage.isLast = false) :
    ∃ after, ContinuedReachable program state after ∧ after.work program < state.work program := by
  obtain ⟨rank, early, first⟩ := earliest_rank fits early
  by_cases ranked : (state.pipeline.ranks rank).stage = .ranked
  · exact ranked_progress fits early ranked
  · exact unranked_progress fits first ranked

/-- A rank behind its passes counts, or somebody goes on in the exchange. -/
theorem finished_progress (fits : RunFits program stale state)
    (accepted : program.lastSet.verifyingRanks.exchangeSystem.Reachable ReceivesAccepted
      program.lastSet.verifyingRanks.exchangeStart state.exchange)
    (counts : state.CountsPast) (last : ∀ other, (state.ranks other).stage.isLast = true)
    (finished : (state.ranks rank).stage = .finished) :
    ∃ after, ContinuedReachable program state after ∧ after.work program < state.work program := by
  by_cases past : (state.exchange rank).stage = .past
  · apply single_step (.countOutOfOrder rank) (own_continues rfl state)
    · simp only [BenchmarkRun.step, finished, past, and_self, if_true]
      rfl
    · apply BenchmarkRun.set_rank_lt
      rw [finished]
      exact Nat.one_pos
  · obtain ⟨action, advances, enabled⟩ := exchange_progress accepted rank.isLt past
    obtain ⟨next, moved⟩ := Option.isSome_iff_exists.mp enabled
    have called : state.MayCall action.caller := by
      intro myRank calls
      obtain ⟨inside, waits⟩ := caller_waits moved calls
      refine ⟨⟨myRank, inside⟩, rfl, ?_⟩
      have late := last ⟨myRank, inside⟩
      cases current : (state.ranks ⟨myRank, inside⟩).stage with
      | finished => rfl
      | counted => exact absurd (counts ⟨myRank, inside⟩ current) waits
      | ranking | verified =>
          rw [current] at late
          cases late
    have lower := exchange_work_lt moved advances
    rw [← verifying_step fits called] at moved
    have stepped : BenchmarkRun.step program state (.exchange action) =
        some { state with exchange := next } := by
      simp only [BenchmarkRun.step, if_pos called, moved, Option.map_some]
    refine single_step (.exchange action) ⟨?_, ?_, fun _ _ => last⟩ stepped ?_
    · intro myRank refused
      exact (advances myRank).1 (BenchmarkAction.exchange.inj refused)
    · intro rank starts
      cases starts
    · unfold BenchmarkRun.work
      dsimp only
      omega

/-- As long as there is no verdict the benchmark can be brought closer to it. -/
theorem benchmark_progress (some : 0 < commSize) (fits : RunFits program stale state)
    (accepted : program.lastSet.verifyingRanks.exchangeSystem.Reachable ReceivesAccepted
      program.lastSet.verifyingRanks.exchangeStart state.exchange)
    (counts : state.CountsPast) (undecided : state.passedVerification = none) :
    ∃ after, ContinuedReachable program state after ∧ after.work program < state.work program := by
  by_cases early : ∃ rank, (state.ranks rank).stage.isLast = false
  · exact early_rank_progress fits early
  have last : ∀ rank, (state.ranks rank).stage.isLast = true := by
    intro rank
    exact Bool.ne_false_iff.mp fun not => early ⟨rank, not⟩
  by_cases held : ∃ rank, (state.ranks rank).stage = .finished
  · obtain ⟨rank, finished⟩ := held
    exact finished_progress fits accepted counts last finished
  have counted : ∀ rank, (state.ranks rank).stage = .counted := by
    intro rank
    have late := last rank
    cases current : (state.ranks rank).stage with
    | counted => rfl
    | finished => exact absurd ⟨rank, current⟩ held
    | ranking | verified =>
        rw [current] at late
        cases late
  obtain ⟨tree, covers⟩ := covering_tree ⟨0, some⟩
  apply single_step (.reducePassed tree) (own_continues rfl state)
  · simp only [BenchmarkRun.step, undecided, Option.isNone_none]
    rw [if_pos ⟨trivial, covers, counted⟩]
  · unfold BenchmarkRun.work
    rw [undecided]
    exact Nat.lt_succ_self _

end Completion

/-- Both ranks in front of `full_verify`, and LCI's answer to the receive of one of them. -/
def answeredActions (answer : PostAnswer) (first second : Fin 2) :
    List (BenchmarkAction 2 Unit) :=
  sharedActions first second ++ [.exchange (.answerReceive second answer)]

/-- Whether a receive of the two ranks was refused behind `actions`. -/
def sharedRefused (actions : List (BenchmarkAction 2 Unit)) : Option (Bool × Bool) :=
  ((benchmarkSystem (onceBenchmark sharedKeys)).run
      (.initial (onceBenchmark sharedKeys) fun _ => staleWorkspace) actions).map fun state =>
    (decide ((state.exchange 0).ReceiveRefused 0), decide ((state.exchange 1).ReceiveRefused 1))

theorem shared_receives :
    sharedRefused (answeredActions .posted 0 1) = some (false, false) ∧
      sharedRefused (answeredActions .retry 0 1) = some (false, true) := by
  decide +kernel

end IntegerSortLci.Benchmark
