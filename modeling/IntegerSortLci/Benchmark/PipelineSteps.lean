import IntegerSortLci.Benchmark.Pipeline

/-!
# What one step of the pipeline does

One constructor per step, with the stage it needs and the state it leaves.
-/

namespace IntegerSortLci.Benchmark

open IntegerSortLci.Runtime IntegerSortLci.Foundations

set_option autoImplicit false

variable {commSize : Nat} {Worker : Type} [Fintype Worker] [DecidableEq Worker]

open Pipeline in
inductive PipelineStep (program : Pipeline.Program commSize Worker)
    (state : Pipeline commSize Worker) :
    PipelineAction commSize Worker → Pipeline commSize Worker → Prop where
  | organize {rank : Fin commSize} (current : (state.ranks rank).stage = .ready) :
      PipelineStep program state (.organize rank)
        (state.setRank rank (organize program rank (state.ranks rank)))
  | count {rank : Fin commSize} {worker : Worker} {counting next : CountingState Worker}
      (current : (state.ranks rank).stage = .counting counting)
      (moved : (countingInput program (state.ranks rank).iteration rank).step counting worker =
        some next) :
      PipelineStep program state (.count rank worker)
        (state.setRank rank { state.ranks rank with stage := .counting next })
  | contribute {rank : Fin commSize} {counting : CountingState Worker}
      (current : (state.ranks rank).stage = .counting counting)
      (finished : (countingInput program (state.ranks rank).iteration rank).Finished counting) :
      PipelineStep program state (.contribute rank)
        { state.setRank rank
          { state.ranks rank with
            stage := .reducing
            workspace :=
              { (state.ranks rank).workspace with
                localBucketCounts := counting.localBucketCounts } } with
          contributions := Function.update state.contributions (state.ranks rank).iteration
            (Function.update (state.contributions (state.ranks rank).iteration) rank
              (some counting.localBucketCounts)) }
  | combine {rank : Fin commSize} {tree : ReduceTree commSize}
      (current : (state.ranks rank).stage = .reducing) (covers : tree.Covers)
      (all : ∀ other, (state.contributions (state.ranks rank).iteration other).isSome)
      {reduced : Nat → Nat}
      (made : reduced = copied (reducedCount program (state.ranks rank).iteration)
        (tree.combine (reducedCount program (state.ranks rank).iteration) fun other =>
          (state.contributions (state.ranks rank).iteration other).getD fun _ => 0)
        (state.ranks rank).workspace.globalBucketCounts) :
      PipelineStep program state (.combine rank tree)
        { state.setRank rank
          { state.ranks rank with
            workspace := { (state.ranks rank).workspace with globalBucketCounts := reduced } } with
          totals := Function.update state.totals (state.ranks rank).iteration (some reduced) }
  | receive {rank : Fin commSize} (totals : Nat → Nat)
      (current : (state.ranks rank).stage = .reducing)
      (found : state.totals (state.ranks rank).iteration = some totals) :
      PipelineStep program state (.receive rank)
        (state.setRank rank
          { state.ranks rank with
            stage := .reduced
            workspace :=
              { (state.ranks rank).workspace with
                globalBucketCounts := copied (reducedCount program (state.ranks rank).iteration)
                  totals (state.ranks rank).workspace.globalBucketCounts } })
  | assign {rank : Fin commSize} (current : (state.ranks rank).stage = .reduced) :
      PipelineStep program state (.assign rank)
        (state.setRank rank (assign program rank (state.ranks rank)))
  | setAmHandler {rank : Fin commSize} (next : Redistribution commSize Worker Storage)
      (current : (state.ranks rank).stage = .planned)
      (moved : state.redistribution.stepWith
        (rankInput program (state.ranks rank).iteration rank (state.ranks rank).workspace
          (state.ranks rank).plan)
        (.setAmHandler rank (state.ranks rank).workspace.frequencyStorage) = some next) :
      PipelineStep program state (.setAmHandler rank)
        { state.setRank rank { state.ranks rank with stage := .redistributing } with
          redistribution := next }
  | redistribute {action : RedistributionAction commSize Worker Storage}
      (next : Redistribution commSize Worker Storage) (inside : action.isInside = true)
      (moved : state.redistribution.stepWith
        (rankInput program (state.ranks action.rank).iteration action.rank
          (state.ranks action.rank).workspace (state.ranks action.rank).plan) action = some next) :
      PipelineStep program state (.redistribute action) { state with redistribution := next }
  | clearAmHandler {rank : Fin commSize} (am : PhaseState commSize Worker Nat Storage)
      (next : Redistribution commSize Worker Storage)
      (current : (state.ranks rank).stage = .redistributing)
      (present : (state.redistribution.ranks rank).amState = some am)
      (moved : state.redistribution.stepWith
        (rankInput program (state.ranks rank).iteration rank (state.ranks rank).workspace
          (state.ranks rank).plan) (.clearAmHandler rank) = some next) :
      PipelineStep program state (.clearAmHandler rank)
        { state.setRank rank
          { state.ranks rank with
            stage := .redistributed
            workspace := { (state.ranks rank).workspace with frequencyStorage := am.memory } } with
          redistribution := next }
  | startRanking {rank : Fin commSize} (current : (state.ranks rank).stage = .redistributed) :
      PipelineStep program state (.startRanking rank)
        (state.setRank rank
          { state.ranks rank with
            stage := .ranking (.initial
              ((state.ranks rank).workspace.cumulativeByKey
                (state.ranks rank).plan.minKeyValue)) })
  | rankStep {rank : Fin commSize} {tid : Nat} {ranking next : RankingState Nat}
      (current : (state.ranks rank).stage = .ranking ranking)
      (moved : (rankingInput program (state.ranks rank).iteration rank
        (state.ranks rank).workspace (state.ranks rank).plan).step ranking tid = some next) :
      PipelineStep program state (.rankStep rank tid)
        (state.setRank rank { state.ranks rank with stage := .ranking next })
  | finishRanking {rank : Fin commSize} {ranking : RankingState Nat}
      (current : (state.ranks rank).stage = .ranking ranking)
      (finished : (rankingInput program (state.ranks rank).iteration rank
        (state.ranks rank).workspace (state.ranks rank).plan).Finished ranking) :
      PipelineStep program state (.finishRanking rank)
        (state.setRank rank
          { state.ranks rank with
            stage := .ranked
            workspace :=
              { (state.ranks rank).workspace with
                cumulativeStorage := fun offset =>
                  ranking.cumulativeRanks (offset + (state.ranks rank).plan.minKeyValue) } })
  | nextIteration {rank : Fin commSize} (current : (state.ranks rank).stage = .ranked) :
      PipelineStep program state (.nextIteration rank)
        (state.setRank rank
          { state.ranks rank with
            iteration := (state.ranks rank).iteration + 1
            stage := .ready })

theorem pipeline_step_cases {program : Pipeline.Program commSize Worker}
    {state state' : Pipeline commSize Worker} {action : PipelineAction commSize Worker}
    (stepped : Pipeline.step program state action = some state') :
    PipelineStep program state action state' := by
  cases action with
  | organize rank =>
      simp only [Pipeline.step] at stepped
      split at stepped
      next current =>
        cases stepped
        exact .organize current
      next => cases stepped
  | count rank worker =>
      simp only [Pipeline.step] at stepped
      split at stepped
      next counting current =>
        obtain ⟨next, moved, rfl⟩ := Option.map_eq_some_iff.mp stepped
        exact .count current moved
      next => cases stepped
  | contribute rank =>
      simp only [Pipeline.step] at stepped
      split at stepped
      next counting current =>
        split_ifs at stepped with finished
        cases stepped
        exact .contribute current finished
      next => cases stepped
  | combine rank tree =>
      simp only [Pipeline.step] at stepped
      split at stepped
      next current =>
        split_ifs at stepped with ready
        obtain ⟨-, covers, -, all⟩ := ready
        cases stepped
        exact .combine current covers all rfl
      next => cases stepped
  | receive rank =>
      simp only [Pipeline.step] at stepped
      split at stepped
      next counts current found =>
        cases stepped
        exact .receive counts current found
      next => cases stepped
  | assign rank =>
      simp only [Pipeline.step] at stepped
      split at stepped
      next current =>
        cases stepped
        exact .assign current
      next => cases stepped
  | setAmHandler rank =>
      simp only [Pipeline.step] at stepped
      split at stepped
      next current =>
        obtain ⟨next, moved, rfl⟩ := Option.map_eq_some_iff.mp stepped
        exact .setAmHandler next current moved
      next => cases stepped
  | redistribute action =>
      simp only [Pipeline.step] at stepped
      split_ifs at stepped with inside
      obtain ⟨next, moved, rfl⟩ := Option.map_eq_some_iff.mp stepped
      exact .redistribute next inside moved
  | clearAmHandler rank =>
      simp only [Pipeline.step] at stepped
      split at stepped
      next am current present =>
        obtain ⟨next, moved, rfl⟩ := Option.map_eq_some_iff.mp stepped
        exact .clearAmHandler am next current present moved
      next => cases stepped
  | startRanking rank =>
      simp only [Pipeline.step] at stepped
      split at stepped
      next current =>
        cases stepped
        exact .startRanking current
      next => cases stepped
  | rankStep rank tid =>
      simp only [Pipeline.step] at stepped
      split at stepped
      next ranking current =>
        obtain ⟨next, moved, rfl⟩ := Option.map_eq_some_iff.mp stepped
        exact .rankStep current moved
      next => cases stepped
  | finishRanking rank =>
      simp only [Pipeline.step] at stepped
      split at stepped
      next ranking current =>
        split_ifs at stepped with finished
        cases stepped
        exact .finishRanking current finished
      next => cases stepped
  | nextIteration rank =>
      simp only [Pipeline.step] at stepped
      split at stepped
      next current =>
        cases stepped
        exact .nextIteration current
      next => cases stepped

/-- A vector of the reduction is the one just contributed, or was there. -/
theorem contribution_cases {contributions : Nat → Fin commSize → Option (Nat → Nat)}
    {now iteration : Nat} {rank other : Fin commSize} {counts vector : Nat → Nat}
    (found : Function.update contributions now
      (Function.update (contributions now) rank (some counts)) iteration other = some vector) :
    (iteration = now ∧ other = rank ∧ vector = counts) ∨
      contributions iteration other = some vector := by
  by_cases same : iteration = now
  · subst same
    rw [Function.update_self] at found
    by_cases mine : other = rank
    · subst mine
      rw [Function.update_self] at found
      exact .inl ⟨rfl, rfl, (Option.some.inj found).symm⟩
    · rw [Function.update_of_ne mine] at found
      exact .inr found
  · rw [Function.update_of_ne same] at found
    exact .inr found

/-- The sum of an iteration is the one just made, or was there. -/
theorem total_cases {totals : Nat → Option (Nat → Nat)} {now iteration : Nat}
    {reduced vector : Nat → Nat}
    (found : Function.update totals now (some reduced) iteration = some vector) :
    (iteration = now ∧ vector = reduced) ∨ totals iteration = some vector := by
  by_cases same : iteration = now
  · subst same
    rw [Function.update_self] at found
    exact .inl ⟨rfl, (Option.some.inj found).symm⟩
  · rw [Function.update_of_ne same] at found
    exact .inr found

end IntegerSortLci.Benchmark
