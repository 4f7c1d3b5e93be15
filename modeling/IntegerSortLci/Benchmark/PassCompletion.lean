import IntegerSortLci.Benchmark.BenchmarkVerdict
import IntegerSortLci.Benchmark.PhaseCompletion

/-!
# A pass of the benchmark can always be finished

The loops of the two parallel regions end. A reduction waits for ranks that have not called
it, a broadcast for the root and the root for the reduction; a redistribution waits for
the ranks that are in it. So among the ranks that are furthest behind one can go on, until
they have ranked their keys.
-/

namespace IntegerSortLci.Benchmark

open IntegerSortLci.Runtime IntegerSortLci.Foundations
open scoped BigOperators

set_option autoImplicit false

section Counting

variable {Worker : Type} [DecidableEq Worker] {input : CountingInput Worker}
variable {state : CountingState Worker}

def CountingStage.work : CountingStage → Nat
  | .counting remaining _ => remaining.length + 1
  | .merged => 0

theorem counting_completes (input : CountingInput Worker) (state : CountingState Worker) :
    ∃ final, (countingSystem input).Reachable (fun _ _ => True) state final ∧
      input.Finished final := by
  apply TransitionSystem.goal_reachable fun state : CountingState Worker =>
    ∑ worker ∈ input.team, (state.workers worker).work
  intro before _ unfinished
  obtain ⟨worker, member, inLoop⟩ : ∃ worker ∈ input.team,
      (before.workers worker).isMerged ≠ true := by
    by_contra all
    push Not at all
    exact unfinished all
  have lower : ∀ stage : CountingStage, stage.work < (before.workers worker).work →
      ∑ other ∈ input.team, (Function.update before.workers worker stage other).work <
        ∑ other ∈ input.team, (before.workers other).work := by
    intro stage less
    apply Finset.sum_lt_sum
    · intro other _
      by_cases same : other = worker
      · subst same
        rw [Function.update_self]
        exact less.le
      · rw [Function.update_of_ne same]
    · refine ⟨worker, member, ?_⟩
      rw [Function.update_self]
      exact less
  have moves : ∃ next stage, input.step before worker = some next ∧
      next.workers = Function.update before.workers worker stage ∧
        stage.work < (before.workers worker).work := by
    unfold CountingInput.step
    rw [if_pos member]
    cases stage : before.workers worker with
    | merged => exact absurd (by rw [stage]; rfl) inLoop
    | counting remaining bucketSizePrivate =>
        cases remaining with
        | nil => exact ⟨_, .merged, rfl, rfl, Nat.lt_succ_self _⟩
        | cons key rest => exact ⟨_, .counting rest _, rfl, rfl, Nat.lt_succ_self _⟩
  obtain ⟨next, stage, stepped, workers, less⟩ := moves
  refine ⟨next, .next .start trivial stepped, ?_⟩
  rw [workers]
  exact lower stage less

end Counting

section Ranking

variable {input : RankingInput Nat} {state : RankingState Nat}

/-- The steps a thread has before it, where `chunk` is the length of its chunk and `last`
the end of it. -/
def RankingStage.work (chunk last : Nat) : RankingStage Nat → Nat
  | .entering => chunk + chunk + 5
  | .summing i _ => (last - i) + chunk + 4
  | .atBarrier => chunk + 3
  | .atSingle => chunk + 2
  | .offsetting i _ => (last - i) + 1
  | .finished => 0

def RankingInput.chunkLength (input : RankingInput Nat) (tid : Nat) : Nat :=
  input.chunks.bound (tid + 1) - input.chunks.bound tid

def RankingInput.work (input : RankingInput Nat) (state : RankingState Nat) : Nat :=
  (if state.resized then 0 else 1) + (if state.scanned then 0 else 1) +
    ∑ tid ∈ Finset.range input.threads,
      (state.stages tid).work (input.chunkLength tid) (input.chunks.bound (tid + 1))

theorem ranking_work_lt {next : RankingState Nat} {tid : Nat} (inside : tid < input.threads)
    (resized : next.resized = state.resized) (scanned : next.scanned = state.scanned)
    {stage : RankingStage Nat} (stages : next.stages = Function.update state.stages tid stage)
    (less : stage.work (input.chunkLength tid) (input.chunks.bound (tid + 1)) <
      (state.stages tid).work (input.chunkLength tid) (input.chunks.bound (tid + 1))) :
    input.work next < input.work state := by
  have lower : ∑ other ∈ Finset.range input.threads,
      (next.stages other).work (input.chunkLength other) (input.chunks.bound (other + 1)) <
        ∑ other ∈ Finset.range input.threads,
          (state.stages other).work (input.chunkLength other) (input.chunks.bound (other + 1)) := by
    rw [stages]
    apply Finset.sum_lt_sum
    · intro other _
      by_cases same : other = tid
      · subst same
        rw [Function.update_self]
        exact less.le
      · rw [Function.update_of_ne same]
    · refine ⟨tid, Finset.mem_range.mpr inside, ?_⟩
      rw [Function.update_self]
      exact less
  unfold RankingInput.work
  rw [resized, scanned]
  omega

/-- The stages at which a thread waits for the others, or for nothing. -/
def RankingStage.rests : RankingStage Nat → Bool
  | .atBarrier | .atSingle | .finished => true
  | _ => false

theorem loop_progress {tid : Nat} (inside : tid < input.threads)
    (loops : (state.stages tid).rests ≠ true) :
    ∃ next, input.step state tid = some next ∧ input.work next < input.work state := by
  have enabled : ¬ input.threads ≤ tid := Nat.not_le.mpr inside
  have length : input.chunkLength tid = input.chunks.bound (tid + 1) - input.chunks.bound tid := rfl
  unfold RankingInput.step
  rw [if_neg enabled]
  cases stage : state.stages tid with
  | entering =>
      dsimp only
      by_cases resized : state.resized
      · rw [if_pos resized]
        refine ⟨_, rfl, ranking_work_lt inside rfl rfl rfl ?_⟩
        rw [stage]
        simp only [RankingStage.work]
        omega
      · rw [if_neg resized]
        refine ⟨_, rfl, ?_⟩
        simp only [RankingInput.work]
        rw [if_neg resized, if_pos trivial]
        omega
  | summing i localSum =>
      dsimp only
      by_cases more : i < input.chunks.bound (tid + 1)
      · rw [if_pos more]
        refine ⟨_, rfl, ranking_work_lt inside rfl rfl rfl ?_⟩
        rw [stage]
        simp only [RankingStage.work]
        omega
      · rw [if_neg more]
        refine ⟨_, rfl, ranking_work_lt inside rfl rfl rfl ?_⟩
        rw [stage]
        simp only [RankingStage.work]
        omega
  | offsetting i offset =>
      dsimp only
      by_cases more : i < input.chunks.bound (tid + 1)
      · rw [if_pos more]
        refine ⟨_, rfl, ranking_work_lt inside rfl rfl rfl ?_⟩
        rw [stage]
        simp only [RankingStage.work]
        omega
      · rw [if_neg more]
        refine ⟨_, rfl, ranking_work_lt inside rfl rfl rfl ?_⟩
        rw [stage]
        simp only [RankingStage.work]
        omega
  | atBarrier => exact absurd (by rw [stage]; rfl) loops
  | atSingle => exact absurd (by rw [stage]; rfl) loops
  | finished => exact absurd (by rw [stage]; rfl) loops

theorem barrier_progress {tid : Nat} (inside : tid < input.threads)
    (waits : state.stages tid = .atBarrier)
    (stored : ∀ other < input.threads, (state.stages other).hasStored = true) :
    ∃ next, input.step state tid = some next ∧ input.work next < input.work state := by
  unfold RankingInput.step
  rw [if_neg (Nat.not_le.mpr inside), waits]
  dsimp only
  rw [if_pos stored]
  refine ⟨_, rfl, ranking_work_lt inside rfl rfl rfl ?_⟩
  rw [waits]
  exact Nat.lt_succ_self _

theorem single_progress {tid : Nat} (inside : tid < input.threads)
    (waits : state.stages tid = .atSingle)
    (passed : ∀ other < input.threads, (state.stages other).hasPassed = true) :
    ∃ next, input.step state tid = some next ∧ input.work next < input.work state := by
  unfold RankingInput.step
  rw [if_neg (Nat.not_le.mpr inside), waits]
  dsimp only
  by_cases scanned : state.scanned
  · rw [if_pos scanned, if_pos passed]
    refine ⟨_, rfl, ranking_work_lt inside rfl rfl rfl ?_⟩
    rw [waits]
    exact Nat.lt_succ_self _
  · rw [if_neg scanned]
    refine ⟨_, rfl, ?_⟩
    simp only [RankingInput.work]
    rw [if_neg scanned, if_pos trivial]
    omega

/-- Some thread can go on until all have finished. -/
theorem ranking_progress (unfinished : ¬ input.Finished state) :
    ∃ tid next, input.step state tid = some next ∧ input.work next < input.work state := by
  by_cases loops : ∃ tid < input.threads, (state.stages tid).rests ≠ true
  · obtain ⟨tid, inside, loops⟩ := loops
    exact ⟨tid, loop_progress inside loops⟩
  push Not at loops
  by_cases held : ∃ tid < input.threads, state.stages tid = .atBarrier
  · obtain ⟨tid, inside, waits⟩ := held
    refine ⟨tid, barrier_progress inside waits ?_⟩
    intro other within
    have rests := loops other within
    cases stage : state.stages other with
    | entering | summing | offsetting => rw [stage] at rests; cases rests
    | atBarrier | atSingle | finished => rfl
  push Not at held
  unfold RankingInput.Finished at unfinished
  push Not at unfinished
  obtain ⟨tid, inside, working⟩ := unfinished
  have rests : ∀ other < input.threads, state.stages other = .atSingle ∨
      state.stages other = .finished := by
    intro other within
    have rests := loops other within
    cases stage : state.stages other with
    | entering | summing | offsetting => rw [stage] at rests; cases rests
    | atBarrier => exact absurd stage (held other within)
    | atSingle => exact .inl rfl
    | finished => exact .inr rfl
  refine ⟨tid, single_progress inside ((rests tid inside).resolve_right working) ?_⟩
  intro other within
  rcases rests other within with stage | stage
  · rw [stage]
    rfl
  · rw [stage]
    rfl

/-- `compute_local_ranks` can always be finished. -/
theorem ranking_completes (input : RankingInput Nat) (state : RankingState Nat) :
    ∃ final, (rankingSystem input).Reachable (fun _ _ => True) state final ∧
      input.Finished final := by
  apply TransitionSystem.goal_reachable input.work
  intro before _ unfinished
  obtain ⟨tid, next, stepped, lower⟩ := ranking_progress unfinished
  exact ⟨next, .next .start trivial stepped, lower⟩

end Ranking

section Trees

variable {commSize : Nat}

theorem tree_of_ranks (ranks : List (Fin commSize)) (rank : Fin commSize) :
    ∃ tree : ReduceTree commSize, tree.leaves = rank :: ranks := by
  induction ranks generalizing rank with
  | nil => exact ⟨.leaf rank, rfl⟩
  | cons next rest ih =>
      obtain ⟨tree, leaves⟩ := ih next
      refine ⟨.node (.leaf rank) tree .left fun _ => 0, ?_⟩
      rw [ReduceTree.leaves, leaves]
      rfl

theorem covering_tree (rank : Fin commSize) : ∃ tree : ReduceTree commSize, tree.Covers := by
  unfold ReduceTree.Covers
  cases ranks : List.finRange commSize with
  | nil =>
      have member := List.mem_finRange rank
      rw [ranks] at member
      cases member
  | cons first rest =>
      obtain ⟨tree, leaves⟩ := tree_of_ranks rest first
      exact ⟨tree, by rw [leaves]⟩

end Trees

section Collected

namespace PipelineStage

variable {Worker : Type}

def hasContributed : PipelineStage Worker → Bool
  | .ready | .counting _ => false
  | _ => true

def hasReceived : PipelineStage Worker → Bool
  | .ready | .counting _ | .reducing => false
  | _ => true

/-- The steps a rank has before it in its pass, with each parallel region one of them. -/
def work : PipelineStage Worker → Nat
  | .ready => 8
  | .counting _ => 7
  | .reducing => 6
  | .reduced => 5
  | .planned => 4
  | .redistributing => 3
  | .redistributed => 2
  | .ranking _ => 1
  | .ranked => 0

end PipelineStage

variable {commSize : Nat} {Worker : Type} [Fintype Worker] [DecidableEq Worker]
variable {program : Pipeline.Program commSize Worker}
variable {state state' : Pipeline commSize Worker} {rank : Fin commSize}

/-- The rank has called the reduction of an iteration, or left its broadcast, where
`passed` tells at which stages it has done so in its own iteration. -/
def RankProgress.Has (progress : RankProgress Worker) (passed : PipelineStage Worker → Bool)
    (iteration : Nat) : Prop :=
  iteration < progress.iteration ∨ iteration = progress.iteration ∧ passed progress.stage = true

/-- What the collectives hold of the ranks that are past them. -/
structure Collected (state : Pipeline commSize Worker) : Prop where
  contributed : ∀ rank iteration, (state.ranks rank).Has PipelineStage.hasContributed iteration →
    (state.contributions iteration rank).isSome = true
  received : ∀ rank iteration, (state.ranks rank).Has PipelineStage.hasReceived iteration →
    (state.totals iteration).isSome = true

omit [Fintype Worker] [DecidableEq Worker] in
/-- What a rank that moves is past, it was past, unless it is the collective of its stage. -/
theorem set_rank_has {progress : RankProgress Worker} {passed : PipelineStage Worker → Bool}
    {other : Fin commSize} {iteration : Nat}
    (past : ((state.setRank rank progress).ranks other).Has passed iteration)
    (same : progress.iteration = (state.ranks rank).iteration) :
    (state.ranks other).Has passed iteration ∨
      other = rank ∧ iteration = (state.ranks rank).iteration ∧ passed progress.stage = true := by
  unfold Pipeline.setRank at past
  dsimp only at past
  by_cases mine : other = rank
  · subst mine
    rw [Function.update_self] at past
    rcases past with earlier | ⟨current, passed⟩
    · exact .inl (.inl (by rw [← same]; exact earlier))
    · exact .inr ⟨rfl, current.trans same, passed⟩
  · rw [Function.update_of_ne mine] at past
    exact .inl past

omit [Fintype Worker] [DecidableEq Worker] in
theorem set_rank_kept {progress : RankProgress Worker} {passed : PipelineStage Worker → Bool}
    {stage : PipelineStage Worker} {other : Fin commSize} {iteration : Nat}
    (past : ((state.setRank rank progress).ranks other).Has passed iteration)
    (current : (state.ranks rank).stage = stage)
    (same : progress.iteration = (state.ranks rank).iteration)
    (before : passed progress.stage = true → passed stage = true) :
    (state.ranks other).Has passed iteration := by
  rcases set_rank_has past same with earlier | ⟨rfl, here, now⟩
  · exact earlier
  · exact .inr ⟨here, by rw [current]; exact before now⟩

omit [Fintype Worker] [DecidableEq Worker] in
theorem Collected.set_rank (collected : Collected state) {progress : RankProgress Worker}
    {stage : PipelineStage Worker} (current : (state.ranks rank).stage = stage)
    (same : progress.iteration = (state.ranks rank).iteration)
    (contributed : progress.stage.hasContributed = true → stage.hasContributed = true)
    (received : progress.stage.hasReceived = true → stage.hasReceived = true) :
    Collected (state.setRank rank progress) where
  contributed other iteration past :=
    collected.contributed other iteration (set_rank_kept past current same contributed)
  received other iteration past :=
    collected.received other iteration (set_rank_kept past current same received)

omit [Fintype Worker] [DecidableEq Worker] in
theorem update_is_some {contributions : Nat → Fin commSize → Option (Nat → Nat)}
    {now iteration : Nat} {other : Fin commSize} {counts : Nat → Nat}
    (found : ¬ (iteration = now ∧ other = rank) → (contributions iteration other).isSome = true) :
    (Function.update contributions now
      (Function.update (contributions now) rank (some counts)) iteration other).isSome = true := by
  by_cases same : iteration = now
  · subst same
    rw [Function.update_self]
    by_cases mine : other = rank
    · subst mine
      rw [Function.update_self]
      rfl
    · rw [Function.update_of_ne mine]
      exact found fun both => mine both.2
  · rw [Function.update_of_ne same]
    exact found fun both => same both.1

theorem step_collected {action : PipelineAction commSize Worker}
    (stepped : PipelineStep program state action state') (collected : Collected state) :
    Collected state' := by
  cases stepped with
  | organize current => exact collected.set_rank current rfl (fun past => past) (fun past => past)
  | count current moved =>
      exact collected.set_rank current rfl (fun past => past) (fun past => past)
  | contribute current finished =>
      constructor
      · intro other iteration past
        apply update_is_some
        intro elsewhere
        rcases set_rank_has past rfl with earlier | ⟨mine, here, -⟩
        · exact collected.contributed other iteration earlier
        · exact absurd ⟨here, mine⟩ elsewhere
      · intro other iteration past
        exact collected.received other iteration
          (set_rank_kept past current rfl fun past => past)
  | @combine rank tree current covers all reduced made =>
      constructor
      · intro other iteration past
        exact collected.contributed other iteration
          (set_rank_kept past rfl rfl fun past => past)
      · intro other iteration past
        have found := collected.received other iteration
          (set_rank_kept past rfl rfl fun past => past)
        dsimp only
        by_cases same : iteration = (state.ranks rank).iteration
        · subst same
          rw [Function.update_self]
          rfl
        · rw [Function.update_of_ne same]
          exact found
  | receive totals current found =>
      constructor
      · intro other iteration past
        exact collected.contributed other iteration
          (set_rank_kept past current rfl fun _ => rfl)
      · intro other iteration past
        rcases set_rank_has past rfl with earlier | ⟨rfl, rfl, -⟩
        · exact collected.received other iteration earlier
        · exact Option.isSome_iff_exists.mpr ⟨totals, found⟩
  | assign current => exact collected.set_rank current rfl (fun _ => rfl) (fun _ => rfl)
  | setAmHandler next current moved =>
      constructor
      · intro other iteration past
        exact collected.contributed other iteration
          (set_rank_kept past current rfl fun _ => rfl)
      · intro other iteration past
        exact collected.received other iteration
          (set_rank_kept past current rfl fun _ => rfl)
  | redistribute next inside moved => exact ⟨collected.contributed, collected.received⟩
  | clearAmHandler am next current present moved =>
      constructor
      · intro other iteration past
        exact collected.contributed other iteration
          (set_rank_kept past current rfl fun _ => rfl)
      · intro other iteration past
        exact collected.received other iteration
          (set_rank_kept past current rfl fun _ => rfl)
  | startRanking current => exact collected.set_rank current rfl (fun _ => rfl) (fun _ => rfl)
  | rankStep current moved => exact collected.set_rank current rfl (fun _ => rfl) (fun _ => rfl)
  | finishRanking current finished =>
      exact collected.set_rank current rfl (fun _ => rfl) (fun _ => rfl)
  | @nextIteration rank current =>
      have kept : ∀ {passed : PipelineStage Worker → Bool}, passed .ranked = true →
          passed .ready = false → ∀ {other : Fin commSize} {iteration : Nat},
            ((state.setRank rank { state.ranks rank with
              iteration := (state.ranks rank).iteration + 1
              stage := .ready }).ranks other).Has passed iteration →
            (state.ranks other).Has passed iteration := by
        intro passed ranked ready other iteration past
        unfold Pipeline.setRank at past
        dsimp only at past
        by_cases mine : other = rank
        · subst mine
          rw [Function.update_self] at past
          rcases past with earlier | ⟨-, unready⟩
          · rcases Nat.lt_succ_iff_lt_or_eq.mp earlier with before | same
            · exact .inl before
            · exact .inr ⟨same, by rw [current]; exact ranked⟩
          · cases ready.symm.trans unready
        · rw [Function.update_of_ne mine] at past
          exact past
      exact ⟨fun other iteration past => collected.contributed other iteration (kept rfl rfl past),
        fun other iteration past => collected.received other iteration (kept rfl rfl past)⟩

theorem reachable_collected {stale : Fin commSize → Workspace}
    (reached : (pipelineSystem program).Reachable (fun _ _ => True) (.initial program stale)
      state) : Collected state := by
  apply reached.invariant
  · constructor
    · rintro rank iteration (earlier | ⟨-, past⟩)
      · exact absurd earlier (Nat.not_lt_zero iteration)
      · cases past
    · rintro rank iteration (earlier | ⟨-, past⟩)
      · exact absurd earlier (Nat.not_lt_zero iteration)
      · cases past
  · intro before after action _ collected _ stepped
    exact step_collected (pipeline_step_cases stepped) collected

end Collected

section Passes

variable {commSize : Nat} {Worker : Type} [Fintype Worker] [DecidableEq Worker]
variable {program : Pipeline.Program commSize Worker}
variable {state after : Pipeline commSize Worker} {rank : Fin commSize}

def unreduced : Option (Nat → Nat) → Nat
  | none => 1
  | some _ => 0

/-- The steps that the ranks have before them in their passes, and the reductions that have
not ended. -/
def passWork (state : Pipeline commSize Worker) : Nat :=
  ∑ rank, ((state.ranks rank).stage.work + unreduced (state.totals (state.ranks rank).iteration))

omit [Fintype Worker] [DecidableEq Worker] in
theorem pass_work_lt {progress : RankProgress Worker}
    (ranks : after.ranks = Function.update state.ranks rank progress)
    (totals : after.totals = state.totals)
    (same : progress.iteration = (state.ranks rank).iteration)
    (lower : progress.stage.work < (state.ranks rank).stage.work) :
    passWork after < passWork state := by
  unfold passWork
  rw [ranks, totals]
  apply Finset.sum_lt_sum
  · intro other _
    by_cases mine : other = rank
    · subst mine
      rw [Function.update_self, same]
      omega
    · rw [Function.update_of_ne mine]
  · refine ⟨rank, Finset.mem_univ rank, ?_⟩
    rw [Function.update_self, same]
    omega

/-- A step that neither starts a pass nor leaves it. -/
def PipelineAction.isInner : PipelineAction commSize Worker → Bool
  | .organize _ | .nextIteration _ => false
  | _ => true

/-- No rank leaves its pass, and none starts one in front of a rank that is behind: it waits
in `begin_iteration`, where the barrier is. -/
structure PipelineAction.InStep (action : PipelineAction commSize Worker)
    (state : Pipeline commSize Worker) : Prop where
  stays : action.staysInPass = true
  together : ∀ rank, action = .organize rank →
    ∀ other, (state.ranks rank).iteration ≤ (state.ranks other).iteration

omit [Fintype Worker] [DecidableEq Worker] in
theorem inner_in_step {action : PipelineAction commSize Worker} (inner : action.isInner = true)
    (state : Pipeline commSize Worker) : action.InStep state where
  stays := by
    cases action with
    | nextIteration => cases inner
    | _ => rfl
  together rank same := by
    rw [same] at inner
    cases inner

/-- The ranks go on in their passes, as the barriers let them. -/
abbrev PassReachable (program : Pipeline.Program commSize Worker)
    (state after : Pipeline commSize Worker) : Prop :=
  (pipelineSystem program).Reachable (fun before action => action.InStep before) state after

omit [Fintype Worker] [DecidableEq Worker] in
@[simp] theorem set_rank_self (progress : RankProgress Worker) :
    (state.setRank rank progress).ranks rank = progress := by
  unfold Pipeline.setRank
  exact Function.update_self rank progress state.ranks

omit [Fintype Worker] [DecidableEq Worker] in
@[simp] theorem set_rank_again (progress progress' : RankProgress Worker) :
    (state.setRank rank progress).setRank rank progress' = state.setRank rank progress' := by
  unfold Pipeline.setRank
  dsimp only
  rw [Function.update_idem]

omit [Fintype Worker] [DecidableEq Worker] in
theorem set_rank_current {stage : PipelineStage Worker}
    (current : (state.ranks rank).stage = stage) :
    state.setRank rank { state.ranks rank with stage := stage } = state := by
  unfold Pipeline.setRank
  rw [← current, Function.update_eq_self]

theorem counting_run {counting next : CountingState Worker}
    (current : (state.ranks rank).stage = .counting counting)
    (reached : (countingSystem (Pipeline.countingInput program (state.ranks rank).iteration
      rank)).Reachable (fun _ _ => True) counting next) :
    PassReachable program state
      (state.setRank rank { state.ranks rank with stage := .counting next }) := by
  induction reached with
  | start =>
      rw [set_rank_current current]
      exact .start
  | @next before next worker prior _ stepped ih =>
      have taken : (pipelineSystem program).step
          (state.setRank rank { state.ranks rank with stage := .counting before })
            (.count rank worker) =
          some (state.setRank rank { state.ranks rank with stage := .counting next }) := by
        have moved : (Pipeline.countingInput program (state.ranks rank).iteration rank).step before
          worker = some next := stepped
        simp only [pipelineSystem, Pipeline.step, set_rank_self, set_rank_again, moved,
          Option.map_some]
      exact ih.next (inner_in_step rfl _) taken

theorem ranking_run {ranking next : RankingState Nat}
    (current : (state.ranks rank).stage = .ranking ranking)
    (reached : (rankingSystem (Pipeline.rankingInput program (state.ranks rank).iteration rank
      (state.ranks rank).workspace (state.ranks rank).plan)).Reachable (fun _ _ => True)
        ranking next) :
    PassReachable program state
      (state.setRank rank { state.ranks rank with stage := .ranking next }) := by
  induction reached with
  | start =>
      rw [set_rank_current current]
      exact .start
  | @next before next tid prior _ stepped ih =>
      have taken : (pipelineSystem program).step
          (state.setRank rank { state.ranks rank with stage := .ranking before })
            (.rankStep rank tid) =
          some (state.setRank rank { state.ranks rank with stage := .ranking next }) := by
        have moved : (Pipeline.rankingInput program (state.ranks rank).iteration rank
          (state.ranks rank).workspace (state.ranks rank).plan).step before tid = some next :=
            stepped
        simp only [pipelineSystem, Pipeline.step, set_rank_self, set_rank_again, moved,
          Option.map_some]
      exact ih.next (inner_in_step rfl _) taken

theorem pass_step_reachable {action : PipelineAction commSize Worker}
    (stepped : Pipeline.step program state action = some after)
    (inStep : action.InStep state) : PassReachable program state after :=
  .next .start inStep stepped

/-- The steps that take their rank to the next stage of its pass. -/
def PipelineAction.changesStage : PipelineAction commSize Worker → Bool
  | .organize _ | .contribute _ | .receive _ | .assign _ | .setAmHandler _ | .clearAmHandler _
  | .startRanking _ | .finishRanking _ => true
  | _ => false

theorem stage_work_lt {action : PipelineAction commSize Worker}
    (step : PipelineStep program state action after) (changes : action.changesStage = true) :
    passWork after < passWork state := by
  have lower : ∀ (rank : Fin commSize) {stage next : PipelineStage Worker},
      (state.ranks rank).stage = stage → next.work < stage.work →
        next.work < (state.ranks rank).stage.work := by
    intro rank stage next current less
    rw [current]
    exact less
  cases step with
  | organize current => exact pass_work_lt rfl rfl rfl (lower _ current (Nat.lt_succ_self _))
  | contribute current finished =>
      exact pass_work_lt rfl rfl rfl (lower _ current (Nat.lt_succ_self _))
  | receive totals current found =>
      exact pass_work_lt rfl rfl rfl (lower _ current (Nat.lt_succ_self _))
  | assign current => exact pass_work_lt rfl rfl rfl (lower _ current (Nat.lt_succ_self _))
  | setAmHandler next current moved =>
      exact pass_work_lt rfl rfl rfl (lower _ current (Nat.lt_succ_self _))
  | clearAmHandler am next current present moved =>
      exact pass_work_lt rfl rfl rfl (lower _ current (Nat.lt_succ_self _))
  | startRanking current => exact pass_work_lt rfl rfl rfl (lower _ current (Nat.lt_succ_self _))
  | finishRanking current finished =>
      exact pass_work_lt rfl rfl rfl (lower _ current (Nat.lt_succ_self _))
  | count | combine | redistribute | rankStep | nextIteration => cases changes

theorem stage_progress {action : PipelineAction commSize Worker}
    (enabled : (Pipeline.step program state action).isSome = true)
    (changes : action.changesStage = true) (inStep : action.InStep state) :
    ∃ after, PassReachable program state after ∧ passWork after < passWork state := by
  obtain ⟨after, stepped⟩ := Option.isSome_iff_exists.mp enabled
  exact ⟨after, pass_step_reachable stepped inStep,
    stage_work_lt (pipeline_step_cases stepped) changes⟩

omit [Fintype Worker] [DecidableEq Worker] in
theorem set_rank_work {progress : RankProgress Worker}
    (same : progress.iteration = (state.ranks rank).iteration)
    (equal : progress.stage.work = (state.ranks rank).stage.work) :
    passWork (state.setRank rank progress) = passWork state := by
  apply Finset.sum_congr rfl
  intro other _
  unfold Pipeline.setRank
  dsimp only
  by_cases mine : other = rank
  · subst mine
    rw [Function.update_self, same, equal]
  · rw [Function.update_of_ne mine]

theorem counting_progress {counting : CountingState Worker}
    (current : (state.ranks rank).stage = .counting counting) :
    ∃ after, PassReachable program state after ∧ passWork after < passWork state := by
  obtain ⟨final, reached, finished⟩ :=
    counting_completes (Pipeline.countingInput program (state.ranks rank).iteration rank) counting
  have run := counting_run current reached
  have enabled : (Pipeline.step program
      (state.setRank rank { state.ranks rank with stage := .counting final })
        (.contribute rank)).isSome = true := by
    simp only [Pipeline.step, set_rank_self]
    rw [if_pos finished]
    rfl
  obtain ⟨after, step, lower⟩ := stage_progress enabled rfl (inner_in_step rfl _)
  refine ⟨after, run.trans step, lower.trans_eq (set_rank_work rfl ?_)⟩
  rw [current]
  rfl

theorem ranking_stage_progress {ranking : RankingState Nat}
    (current : (state.ranks rank).stage = .ranking ranking) :
    ∃ after, PassReachable program state after ∧ passWork after < passWork state := by
  obtain ⟨final, reached, finished⟩ := ranking_completes (Pipeline.rankingInput program
    (state.ranks rank).iteration rank (state.ranks rank).workspace (state.ranks rank).plan) ranking
  have run := ranking_run current reached
  have enabled : (Pipeline.step program
      (state.setRank rank { state.ranks rank with stage := .ranking final })
        (.finishRanking rank)).isSome = true := by
    simp only [Pipeline.step, set_rank_self]
    rw [if_pos finished]
    rfl
  obtain ⟨after, step, lower⟩ := stage_progress enabled rfl (inner_in_step rfl _)
  refine ⟨after, run.trans step, lower.trans_eq (set_rank_work rfl ?_)⟩
  rw [current]
  rfl

/-- The reduction of an iteration ends at the root when all ranks have called it. -/
theorem combine_progress (root : rank.val = 0) (current : (state.ranks rank).stage = .reducing)
    (none : state.totals (state.ranks rank).iteration = none)
    (all : ∀ other, (state.contributions (state.ranks rank).iteration other).isSome = true) :
    ∃ after, PassReachable program state after ∧ passWork after < passWork state := by
  obtain ⟨tree, covers⟩ := covering_tree rank
  have enabled : (Pipeline.step program state (.combine rank tree)).isSome = true := by
    simp only [Pipeline.step, current]
    rw [if_pos ⟨root, covers, by rw [none]; rfl, all⟩]
    rfl
  obtain ⟨after, stepped⟩ := Option.isSome_iff_exists.mp enabled
  refine ⟨after, pass_step_reachable stepped (inner_in_step rfl _), ?_⟩
  cases pipeline_step_cases stepped with
  | @combine _ _ current covers all reduced made =>
      have kept : ∀ other, ((state.setRank rank { state.ranks rank with
          workspace := { (state.ranks rank).workspace with
            globalBucketCounts := reduced } }).ranks other).iteration =
              (state.ranks other).iteration ∧
          ((state.setRank rank { state.ranks rank with
            workspace := { (state.ranks rank).workspace with
              globalBucketCounts := reduced } }).ranks other).stage =
                (state.ranks other).stage := by
        intro other
        unfold Pipeline.setRank
        dsimp only
        by_cases same : other = rank
        · subst same
          rw [Function.update_self]
          exact ⟨rfl, rfl⟩
        · rw [Function.update_of_ne same]
          exact ⟨rfl, rfl⟩
      have lower : ∀ other, unreduced (Function.update state.totals (state.ranks rank).iteration
          (some reduced) (state.ranks other).iteration) ≤
            unreduced (state.totals (state.ranks other).iteration) := by
        intro other
        by_cases same : (state.ranks other).iteration = (state.ranks rank).iteration
        · rw [same, Function.update_self]
          exact Nat.zero_le _
        · rw [Function.update_of_ne same]
      apply Finset.sum_lt_sum
      · intro other _
        dsimp only
        rw [(kept other).1, (kept other).2]
        exact Nat.add_le_add_left (lower other) _
      · refine ⟨rank, Finset.mem_univ rank, ?_⟩
        dsimp only
        rw [(kept rank).1, (kept rank).2, Function.update_self, none]
        exact Nat.lt_succ_self _

/-- A rank that is furthest behind and has not called the reduction can go on. -/
theorem uncontributed_progress
    (first : ∀ other, (state.ranks rank).iteration ≤ (state.ranks other).iteration)
    (behind : (state.ranks rank).stage.hasContributed = false) :
    ∃ after, PassReachable program state after ∧ passWork after < passWork state := by
  cases current : (state.ranks rank).stage with
  | ready =>
      have enabled : (Pipeline.step program state (.organize rank)).isSome = true := by
        simp only [Pipeline.step, current]
        rfl
      refine stage_progress enabled rfl ⟨rfl, ?_⟩
      intro other same
      cases same
      exact first
  | counting counting => exact counting_progress current
  | _ =>
      rw [current] at behind
      cases behind

/-- A rank that waits for the broadcast of the pass that is furthest behind lets some rank
go on. -/
theorem reducing_progress (collected : Collected state)
    (first : ∀ other, (state.ranks rank).iteration ≤ (state.ranks other).iteration)
    (current : (state.ranks rank).stage = .reducing) :
    ∃ after, PassReachable program state after ∧ passWork after < passWork state := by
  -- whoever is not past a collective of this pass is in this pass
  have here : ∀ {passed : PipelineStage Worker → Bool} (other : Fin commSize),
      ¬ (state.ranks other).Has passed (state.ranks rank).iteration →
        (state.ranks other).iteration = (state.ranks rank).iteration ∧
          passed (state.ranks other).stage = false := by
    intro passed other not
    have least := first other
    have same : (state.ranks other).iteration = (state.ranks rank).iteration := by
      by_contra different
      exact not (.inl (by omega))
    refine ⟨same, Bool.eq_false_iff.mpr fun past => not (.inr ⟨same.symm, past⟩)⟩
  cases totals : state.totals (state.ranks rank).iteration with
  | some counts =>
      have enabled : (Pipeline.step program state (.receive rank)).isSome = true := by
        simp only [Pipeline.step, current, totals]
        rfl
      exact stage_progress enabled rfl (inner_in_step rfl _)
  | none =>
      have unreceived : ¬ (state.ranks ⟨0, rank.pos⟩).Has PipelineStage.hasReceived
          (state.ranks rank).iteration := by
        intro past
        have found := collected.received _ _ past
        rw [totals] at found
        cases found
      obtain ⟨same, behind⟩ := here ⟨0, rank.pos⟩ unreceived
      by_cases all : ∀ other,
          (state.contributions (state.ranks rank).iteration other).isSome = true
      · cases stage : (state.ranks ⟨0, rank.pos⟩).stage with
        | reducing =>
            rw [← same] at totals all
            exact combine_progress rfl stage totals all
        | ready | counting =>
            exact uncontributed_progress (by rw [same]; exact first) (by rw [stage]; rfl)
        | _ =>
            rw [stage] at behind
            cases behind
      · push Not at all
        obtain ⟨other, missing⟩ := all
        have uncalled : ¬ (state.ranks other).Has PipelineStage.hasContributed
            (state.ranks rank).iteration := fun past =>
          missing (collected.contributed other _ past)
        obtain ⟨same, behind⟩ := here other uncalled
        exact uncontributed_progress (by rw [same]; exact first) behind

/-- The rank has not entered the redistribution of its pass. -/
def PipelineStage.isEarly : PipelineStage Worker → Bool
  | .ready | .counting _ | .reducing | .reduced | .planned => true
  | _ => false

/-- A rank in front of the redistribution in the pass that is furthest behind lets some
rank go on. -/
theorem early_progress (fits : PipelineFits program state) (collected : Collected state)
    (first : ∀ other, (state.ranks rank).iteration ≤ (state.ranks other).iteration)
    (early : (state.ranks rank).stage.isEarly = true) :
    ∃ after, PassReachable program state after ∧ passWork after < passWork state := by
  cases current : (state.ranks rank).stage with
  | ready | counting => exact uncontributed_progress first (by rw [current]; rfl)
  | reducing => exact reducing_progress collected first current
  | reduced =>
      have enabled : (Pipeline.step program state (.assign rank)).isSome = true := by
        simp only [Pipeline.step, current]
        rfl
      exact stage_progress enabled rfl (inner_in_step rfl _)
  | planned =>
      have outside := ((fits.ranks rank).at_stage current).2.2.mpr rfl
      have live := (reachable_coherent (runs_sound _ _) fits.redistribution).live
      have enabled : (Pipeline.step program state (.setAmHandler rank)).isSome = true := by
        simp only [Pipeline.step, current, Redistribution.stepWith]
        rw [if_pos ⟨live, outside⟩]
        rfl
      exact stage_progress enabled rfl (inner_in_step rfl _)
  | _ =>
      rw [current] at early
      cases early

theorem redistribute_enabled (fits : PipelineFits program state)
    {action : RedistributionAction commSize Worker Storage}
    {next : Redistribution commSize Worker Storage} (inside : action.isInside = true)
    (stepped : state.redistribution.step (Pipeline.phaseArguments program) action = some next) :
    Pipeline.step program state (.redistribute action) =
      some { state with redistribution := next } := by
  have own := fits.ranks action.rank
  have moved : state.redistribution.stepWith (Pipeline.rankInput program
      (state.ranks action.rank).iteration action.rank (state.ranks action.rank).workspace
      (state.ranks action.rank).plan) action = some next := by
    cases current : (state.ranks action.rank).stage with
    | redistributing =>
        obtain ⟨⟨planned, -⟩, phase, -⟩ := own.at_stage current
        have iteration : (state.redistribution.ranks action.rank).phase =
          (state.ranks action.rank).iteration := phase
        rw [rank_input_planned planned, ← iteration]
        exact stepped
    | _ =>
        have outside := own.outside.mpr (by rw [current]; rfl)
        have coherent := reachable_coherent (runs_sound _ _) fits.redistribution
        exact step_outside inside outside ((coherent.ranks action.rank).absent.mpr outside) stepped
  simp only [Pipeline.step]
  rw [if_pos inside, moved]
  rfl

theorem redistribution_run (fits : PipelineFits program state)
    {next : Redistribution commSize Worker Storage}
    (reached : (redistributionSystem (Pipeline.phaseArguments program)).Reachable
      (fun _ action => action.isInside = true) state.redistribution next) :
    PassReachable program state { state with redistribution := next } ∧
      PipelineFits program { state with redistribution := next } := by
  induction reached with
  | start => exact ⟨.start, fits⟩
  | next prior inside stepped ih =>
      obtain ⟨run, fits'⟩ := ih
      have taken := redistribute_enabled fits' inside stepped
      exact ⟨run.trans (pass_step_reachable taken (inner_in_step rfl _)),
        redistribute_fits fits' (pipeline_step_cases taken)⟩

/-- A rank in the redistribution of the pass that is furthest behind can leave it when all
ranks of the pass are in it. -/
theorem redistributing_progress (fits : PipelineFits program state)
    (first : ∀ other, (state.ranks rank).iteration ≤ (state.ranks other).iteration)
    (current : (state.ranks rank).stage = .redistributing)
    (entered : ∀ other, (state.ranks other).iteration = (state.ranks rank).iteration →
      (state.ranks other).stage.isEarly = false) :
    ∃ after, PassReachable program state after ∧ passWork after < passWork state := by
  have phases := fun other => (fits.ranks other).phase
  obtain ⟨⟨planned, -⟩, phase, -⟩ := (fits.ranks rank).at_stage current
  have own : (state.redistribution.ranks rank).phase = (state.ranks rank).iteration := phase
  have later : ∀ other, (state.redistribution.ranks rank).phase ≤
      (state.redistribution.ranks other).phase := by
    intro other
    rw [own, phases other]
    exact (first other).trans (Nat.le_add_right _ _)
  have all : ∀ other, (state.redistribution.ranks other).Entered
      (state.redistribution.ranks rank).phase := by
    intro other
    have least := first other
    unfold RankState.Entered
    rw [own, phases other]
    by_cases same : (state.ranks other).iteration = (state.ranks rank).iteration
    · have late := entered other same
      cases stage : (state.ranks other).stage with
      | redistributing =>
          refine .inr ⟨same.symm, fun left => ?_⟩
          have unentered := (fits.ranks other).outside.mp left
          rw [stage] at unentered
          cases unentered
      | redistributed | ranking | ranked => exact .inl (by rw [same]; exact Nat.lt_succ_self _)
      | _ =>
          rw [stage] at late
          cases late
    · exact .inl (by omega)
  have orderly := reachable_orderly (runs_sound _ _) fits.redistribution
  obtain ⟨final, inside, finished⟩ := team_completes orderly later all
  obtain ⟨run, fits'⟩ := redistribution_run fits inside
  have cleared := phase_left (orderly.kept inside) finished
  obtain ⟨am, present⟩ := (orderly.kept inside).coherent.am_present (inside_of_running finished.1)
  have enabled : (Pipeline.step program { state with redistribution := final }
      (.clearAmHandler rank)).isSome = true := by
    have iteration : (final.ranks rank).phase = (state.ranks rank).iteration :=
      (inside_kept inside rank).1.trans own
    have moved : final.stepWith (Pipeline.rankInput program (state.ranks rank).iteration rank
        (state.ranks rank).workspace (state.ranks rank).plan) (.clearAmHandler rank) =
          some (final.leavePhase rank) := by
      rw [rank_input_planned planned, ← iteration]
      exact cleared
    simp only [Pipeline.step, current, present, moved]
    rfl
  obtain ⟨after, step, lower⟩ := stage_progress enabled rfl (inner_in_step rfl _)
  exact ⟨after, run.trans step, lower⟩

/-- As long as a rank in the pass that is furthest behind has not ranked its keys, some rank
can go on. -/
theorem pass_progress (fits : PipelineFits program state) (collected : Collected state)
    (first : ∀ other, (state.ranks rank).iteration ≤ (state.ranks other).iteration)
    (unranked : (state.ranks rank).stage ≠ .ranked) :
    ∃ after, PassReachable program state after ∧ passWork after < passWork state := by
  by_cases held : ∃ other, (state.ranks other).iteration = (state.ranks rank).iteration ∧
      (state.ranks other).stage.isEarly = true
  · obtain ⟨other, same, early⟩ := held
    exact early_progress fits collected (by rw [same]; exact first) early
  have entered : ∀ other, (state.ranks other).iteration = (state.ranks rank).iteration →
      (state.ranks other).stage.isEarly = false := by
    intro other same
    exact Bool.eq_false_iff.mpr fun early => held ⟨other, same, early⟩
  cases current : (state.ranks rank).stage with
  | redistributing => exact redistributing_progress fits first current entered
  | redistributed =>
      have enabled : (Pipeline.step program state (.startRanking rank)).isSome = true := by
        simp only [Pipeline.step, current]
        rfl
      exact stage_progress enabled rfl (inner_in_step rfl _)
  | ranking ranking => exact ranking_stage_progress current
  | ranked => exact absurd current unranked
  | _ =>
      have late := entered rank rfl
      rw [current] at late
      cases late

end Passes

end IntegerSortLci.Benchmark
