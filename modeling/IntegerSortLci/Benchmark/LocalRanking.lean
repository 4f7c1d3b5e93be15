import IntegerSortLci.Benchmark.LocalRanks
import IntegerSortLci.Foundations.CountingSort
import Mathlib.Algebra.Order.BigOperators.Group.Finset

/-!
# Every run of the parallel ranking

A team that has not finished can go on, whatever its threads have done so far, and it
takes a bounded number of steps. When it has finished, the entry of each key of the
interval is the sum of the histogram up to the key. The histogram itself is an argument
that `compute_local_ranks` only reads.
-/

namespace IntegerSortLci.Benchmark

open IntegerSortLci.Foundations
open scoped BigOperators

set_option autoImplicit false

variable {Count : Type} [AddCommMonoid Count] {input : RankingInput Count}
variable {state state' : RankingState Count} {start : Int → Count} {tid : Nat}

section Progress

/-- A thread that is in one of its loops, or has not begun, is never held up. -/
theorem running_thread_moves (inside : tid < input.threads)
    (running : (state.stages tid).hasStored = false) : (input.step state tid).isSome = true := by
  unfold RankingInput.step
  rw [if_neg (Nat.not_le.mpr inside)]
  cases current : state.stages tid with
  | entering =>
      dsimp only
      split <;> rfl
  | summing i localSum =>
      dsimp only
      split <;> rfl
  | _ =>
      rw [current] at running
      cases running

theorem waiting_thread_moves (inside : tid < input.threads)
    (current : state.stages tid = .atBarrier)
    (all : ∀ other < input.threads, (state.stages other).hasStored = true) :
    (input.step state tid).isSome = true := by
  unfold RankingInput.step
  rw [if_neg (Nat.not_le.mpr inside), current]
  dsimp only
  rw [if_pos all]
  rfl

theorem passed_thread_moves (inside : tid < input.threads)
    (passed : (state.stages tid).hasPassed = true) (unfinished : state.stages tid ≠ .finished)
    (all : ∀ other < input.threads, (state.stages other).hasPassed = true) :
    (input.step state tid).isSome = true := by
  unfold RankingInput.step
  rw [if_neg (Nat.not_le.mpr inside)]
  cases current : state.stages tid with
  | atSingle =>
      dsimp only
      rw [if_pos all]
      split <;> rfl
  | offsetting i offset =>
      dsimp only
      split <;> rfl
  | finished => exact absurd current unfinished
  | _ =>
      rw [current] at passed
      cases passed

/-- The barriers never hold up the whole team: the threads that are furthest behind
can move. -/
theorem unfinished_moves (unfinished : ¬input.Finished state) :
    ∃ tid < input.threads, (input.step state tid).isSome = true := by
  by_cases stored : ∀ tid < input.threads, (state.stages tid).hasStored = true
  · by_cases passed : ∀ tid < input.threads, (state.stages tid).hasPassed = true
    · unfold RankingInput.Finished at unfinished
      simp only [not_forall] at unfinished
      obtain ⟨tid, inside, pending⟩ := unfinished
      exact ⟨tid, inside, passed_thread_moves inside (passed tid inside) pending passed⟩
    · simp only [not_forall] at passed
      obtain ⟨tid, inside, behind⟩ := passed
      have waiting : state.stages tid = .atBarrier := by
        have storing := stored tid inside
        cases current : state.stages tid with
        | atBarrier => rfl
        | entering =>
            rw [current] at storing
            cases storing
        | summing i localSum =>
            rw [current] at storing
            cases storing
        | _ =>
            rw [current] at behind
            exact absurd rfl behind
      exact ⟨tid, inside, waiting_thread_moves inside waiting stored⟩
  · simp only [not_forall] at stored
    obtain ⟨tid, inside, behind⟩ := stored
    exact ⟨tid, inside, running_thread_moves inside (Bool.eq_false_iff.mpr behind)⟩

end Progress

section Bound

namespace RankingInput

omit [AddCommMonoid Count]

/-- The steps that a thread has in front of it. -/
def remaining (input : RankingInput Count) (tid : Nat) : RankingStage Count → Nat
  | .entering => 2 * (input.chunks.bound (tid + 1) - input.chunks.bound tid) + 6
  | .summing i _ =>
      (input.chunks.bound (tid + 1) - i) +
        (input.chunks.bound (tid + 1) - input.chunks.bound tid) + 5
  | .atBarrier => (input.chunks.bound (tid + 1) - input.chunks.bound tid) + 4
  | .atSingle => (input.chunks.bound (tid + 1) - input.chunks.bound tid) + 3
  | .offsetting i _ => (input.chunks.bound (tid + 1) - i) + 1
  | .finished => 0

/-- The steps of the team, with one for each `single` region. -/
def teamRemaining (input : RankingInput Count) (state : RankingState Count) : Nat :=
  (∑ tid ∈ Finset.range input.threads, input.remaining tid (state.stages tid)) +
    (if state.resized then 0 else 1) + if state.scanned then 0 else 1

end RankingInput

omit [AddCommMonoid Count] in
/-- A step of a thread to `stage`. -/
theorem moved_thread_lowers (inside : tid < input.threads) {stage : RankingStage Count}
    (lower : input.remaining tid stage < input.remaining tid (state.stages tid))
    (stages : state'.stages = Function.update state.stages tid stage)
    (resized : state'.resized = state.resized) (scanned : state'.scanned = state.scanned) :
    input.teamRemaining state' < input.teamRemaining state := by
  have sum : ∑ other ∈ Finset.range input.threads, input.remaining other (state'.stages other) <
      ∑ other ∈ Finset.range input.threads, input.remaining other (state.stages other) := by
    rw [stages]
    apply Finset.sum_lt_sum
    · intro other _
      by_cases same : other = tid
      · subst same
        rw [Function.update_self]
        exact Nat.le_of_lt lower
      · rw [Function.update_of_ne same]
    · refine ⟨tid, Finset.mem_range.mpr inside, ?_⟩
      rw [Function.update_self]
      exact lower
  unfold RankingInput.teamRemaining
  rw [resized, scanned]
  omega

theorem ranking_step_lowers (stepped : input.step state tid = some state') :
    input.teamRemaining state' < input.teamRemaining state := by
  obtain ⟨inside, step⟩ := ranking_step_cases stepped
  cases step with
  | resize current first =>
      unfold RankingInput.teamRemaining
      simp [first]
  | scan current first =>
      unfold RankingInput.teamRemaining
      simp [first]
  | enter current resized =>
      refine moved_thread_lowers inside ?_ rfl rfl rfl
      rw [current]
      simp only [RankingInput.remaining]
      omega
  | add i localSum current more =>
      refine moved_thread_lowers inside ?_ rfl rfl rfl
      rw [current]
      simp only [RankingInput.remaining]
      omega
  | store i localSum current last =>
      refine moved_thread_lowers inside ?_ rfl rfl rfl
      rw [current]
      simp only [RankingInput.remaining]
      omega
  | pass current all =>
      refine moved_thread_lowers inside ?_ rfl rfl rfl
      rw [current]
      exact Nat.lt_succ_self _
  | offset current scanned all =>
      refine moved_thread_lowers inside ?_ rfl rfl rfl
      rw [current]
      simp only [RankingInput.remaining]
      omega
  | rank i offset current more =>
      refine moved_thread_lowers inside ?_ rfl rfl rfl
      rw [current]
      simp only [RankingInput.remaining]
      omega
  | finish i offset current last =>
      refine moved_thread_lowers inside ?_ rfl rfl rfl
      rw [current]
      exact Nat.succ_pos _

end Bound

section Results

/-- The histogram's sum up to a key of the interval. -/
theorem prefix_sum_interval_keys {key : Int} (low : input.minKeyValue ≤ key) :
    input.prefixSum ((key - input.minKeyValue).toNat + 1) =
      ∑ i ∈ Finset.Icc input.minKeyValue key, input.frequencyHistogram i := by
  have count : (key + 1 - input.minKeyValue).toNat = (key - input.minKeyValue).toNat + 1 := by
    omega
  rw [← sum_interval, count]
  rfl

/-- A run of the team is bounded and can be continued until all threads have finished;
then the entries of the interval are the sequential prefix sums and the others are as
before. -/
theorem compute_local_ranks_prefix (input : RankingInput Count) (start : Int → Count)
    (actions : List Nat) (state : RankingState Count)
    (executed : (rankingSystem input).run (.initial start) actions = some state) :
    actions.length ≤ input.teamRemaining (.initial start) ∧
      (¬input.Finished state → ∃ tid < input.threads, (input.step state tid).isSome = true) ∧
      (input.Finished state →
        (∀ key, input.minKeyValue ≤ key → key ≤ input.maxKeyValue → state.cumulativeRanks key =
          ∑ i ∈ Finset.Icc input.minKeyValue key, input.frequencyHistogram i) ∧
        ∀ key, key < input.minKeyValue ∨ input.maxKeyValue < key →
          state.cumulativeRanks key = start key) := by
  have reached := TransitionSystem.any_run_reachable executed
  have bounded : actions.length + input.teamRemaining state ≤
      input.teamRemaining (.initial start) :=
    TransitionSystem.run_length_bounded (fun stepped => ranking_step_lowers stepped) executed
  refine ⟨by omega, unfinished_moves, ?_⟩
  intro finished
  obtain ⟨written, frame⟩ := finished_ranks (reachable_ranking_fits reached) finished
  refine ⟨?_, frame⟩
  intro key low high
  have inside : (key - input.minKeyValue).toNat < input.keyValueRange := by
    unfold RankingInput.keyValueRange
    omega
  have index : input.minKeyValue + ((key - input.minKeyValue).toNat : Int) = key := by omega
  rw [← prefix_sum_interval_keys low, ← written _ inside, index]

theorem idle_first_ordered (range tid : Nat) :
    (if tid ≤ 1 then 0 else range) ≤ if tid + 1 ≤ 1 then 0 else range := by
  by_cases first : tid ≤ 1
  · rw [if_pos first]
    exact Nat.zero_le _
  · rw [if_neg first, if_neg fun both => first (Nat.le_of_succ_le both)]

/-- The first of two threads gets no index, the second both. -/
def idleFirstChunks (range : Nat) : Chunks 2 range where
  bound tid := if tid ≤ 1 then 0 else range
  start := if_pos (Nat.zero_le 1)
  ordered := idle_first_ordered range
  covers := if_neg (Nat.not_succ_le_self 1)

def idleFirstInput : RankingInput Nat where
  frequencyHistogram key := key.toNat
  minKeyValue := 5
  maxKeyValue := 6
  threads := 2
  chunks := idleFirstChunks _

theorem compute_local_ranks_prefix_idle_first :
    ∃ state, (rankingSystem idleFirstInput).run (.initial fun _ => 8)
        [0, 0, 0, 1, 1, 1, 1, 0, 1, 1, 1, 1, 1, 1, 0, 0] = some state ∧
      state.cumulativeRanks 6 = ∑ i ∈ Finset.Icc 5 6, idleFirstInput.frequencyHistogram i ∧
        state.cumulativeRanks 4 = 8 := by
  obtain ⟨state, executed, finished⟩ : ∃ state,
      (rankingSystem idleFirstInput).run (.initial fun _ => 8)
          [0, 0, 0, 1, 1, 1, 1, 0, 1, 1, 1, 1, 1, 1, 0, 0] = some state ∧
        idleFirstInput.Finished state := ⟨_, rfl, by decide⟩
  obtain ⟨-, -, complete⟩ :=
    compute_local_ranks_prefix idleFirstInput (fun _ => 8) _ state executed
  obtain ⟨ranks, frame⟩ := complete finished
  exact ⟨state, executed, ranks 6 (by decide) (by decide), frame 4 (by decide)⟩

end Results

end IntegerSortLci.Benchmark
