import IntegerSortLci.Foundations.Chunks
import IntegerSortLci.Foundations.TransitionSystem
import Mathlib.Tactic.SplitIfs

/-!
# The parallel prefix sum over a histogram

`compute_local_ranks` as steps of an OpenMP team: the first loop over the thread's
chunk, the barrier, the scan of `partial_sums` in a `single` region and the second
loop. `frequency_histogram` and `cumulative_ranks` are indexed by key, as the
function's pointers are.
-/

namespace IntegerSortLci.Benchmark

open IntegerSortLci.Foundations
open scoped BigOperators

set_option autoImplicit false

/-- The arguments of `compute_local_ranks` and the team that runs it. Both loops
have the same static schedule. -/
structure RankingInput (Count : Type) where
  frequencyHistogram : Int → Count
  minKeyValue : Int
  maxKeyValue : Int
  threads : Nat
  chunks : Chunks threads (maxKeyValue - minKeyValue + 1).toNat

/-- Where a thread is: before the first `single`, in the first loop, at the barrier,
in front of the second `single`, in the second loop, or at the region's end. -/
inductive RankingStage (Count : Type) where
  | entering
  | summing (i : Nat) (localSum : Count)
  | atBarrier
  | atSingle
  | offsetting (i : Nat) (offset : Count)
  | finished
  deriving DecidableEq, Repr

structure RankingState (Count : Type) where
  resized : Bool
  scanned : Bool
  partialSums : Nat → Count
  cumulativeRanks : Int → Count
  stages : Nat → RankingStage Count

variable {Count : Type} [AddCommMonoid Count]

namespace RankingStage

omit [AddCommMonoid Count]

/-- The thread has stored its partial sum. -/
def hasStored : RankingStage Count → Bool
  | .entering | .summing _ _ => false
  | _ => true

/-- The thread has passed the barrier. -/
def hasPassed : RankingStage Count → Bool
  | .entering | .summing _ _ | .atBarrier => false
  | _ => true

end RankingStage

/-- The vector starts empty and every thread in front of the first `single`. -/
def RankingState.initial (cumulativeRanks : Int → Count) : RankingState Count where
  resized := false
  scanned := false
  partialSums _ := 0
  cumulativeRanks := cumulativeRanks
  stages _ := .entering

omit [AddCommMonoid Count] in
def RankingState.setStage (state : RankingState Count) (tid : Nat) (stage : RankingStage Count) :
    RankingState Count :=
  { state with stages := Function.update state.stages tid stage }

namespace RankingInput

variable (input : RankingInput Count)

/-- `key_value_range`. -/
def keyValueRange : Nat := (input.maxKeyValue - input.minKeyValue + 1).toNat

/-- `frequency_histogram[min_key_value + i]`. -/
def frequency (i : Nat) : Count := input.frequencyHistogram (input.minKeyValue + i)

/-- One step of thread `tid`. The first thread at a `single` region executes it, and
nobody passes the region's end before. -/
def step (state : RankingState Count) (tid : Nat) : Option (RankingState Count) :=
  if input.threads ≤ tid then none
  else
    match state.stages tid with
    | .entering =>
        if state.resized then some (state.setStage tid (.summing (input.chunks.bound tid) 0))
        else some { state with resized := true, partialSums := fun _ => 0 }
    | .summing i localSum =>
        if i < input.chunks.bound (tid + 1) then
          some (state.setStage tid (.summing (i + 1) (localSum + input.frequency i)))
        else
          some ({ state with
            partialSums := Function.update state.partialSums tid localSum }.setStage tid
              .atBarrier)
    | .atBarrier =>
        if ∀ other < input.threads, (state.stages other).hasStored = true then
          some (state.setStage tid .atSingle)
        else none
    | .atSingle =>
        if state.scanned then
          if ∀ other < input.threads, (state.stages other).hasPassed = true then
            some (state.setStage tid
              (.offsetting (input.chunks.bound tid) (state.partialSums tid)))
          else none
        else
          some { state with
            scanned := true
            partialSums := (exclusiveScan state.partialSums input.threads).2 }
    | .offsetting i offset =>
        if i < input.chunks.bound (tid + 1) then
          let sum := offset + input.frequency i
          some ({ state with
            cumulativeRanks :=
              Function.update state.cumulativeRanks (input.minKeyValue + i) sum }.setStage tid
                (.offsetting (i + 1) sum))
        else some (state.setStage tid .finished)
    | .finished => none

end RankingInput

/-- The team as a transition system; an action is the thread that moves. -/
def rankingSystem (input : RankingInput Count) : TransitionSystem (RankingState Count) Nat where
  step := input.step

section Invariant

variable {input : RankingInput Count} {state state' : RankingState Count}
variable {start : Int → Count} {tid : Nat}

/-- The guards and the effect of a thread's step. -/
inductive RankingStep (input : RankingInput Count) (state : RankingState Count) (tid : Nat) :
    RankingState Count → Prop where
  | resize (current : state.stages tid = .entering) (first : state.resized = false) :
      RankingStep input state tid { state with resized := true, partialSums := fun _ => 0 }
  | enter (current : state.stages tid = .entering) (resized : state.resized = true) :
      RankingStep input state tid (state.setStage tid (.summing (input.chunks.bound tid) 0))
  | add (i : Nat) (localSum : Count) (current : state.stages tid = .summing i localSum)
      (more : i < input.chunks.bound (tid + 1)) :
      RankingStep input state tid
        (state.setStage tid (.summing (i + 1) (localSum + input.frequency i)))
  | store (i : Nat) (localSum : Count) (current : state.stages tid = .summing i localSum)
      (last : input.chunks.bound (tid + 1) ≤ i) :
      RankingStep input state tid
        ({ state with partialSums := Function.update state.partialSums tid localSum }.setStage tid
          .atBarrier)
  | pass (current : state.stages tid = .atBarrier)
      (all : ∀ other < input.threads, (state.stages other).hasStored = true) :
      RankingStep input state tid (state.setStage tid .atSingle)
  | scan (current : state.stages tid = .atSingle) (first : state.scanned = false) :
      RankingStep input state tid
        { state with
          scanned := true
          partialSums := (exclusiveScan state.partialSums input.threads).2 }
  | offset (current : state.stages tid = .atSingle) (scanned : state.scanned = true)
      (all : ∀ other < input.threads, (state.stages other).hasPassed = true) :
      RankingStep input state tid
        (state.setStage tid (.offsetting (input.chunks.bound tid) (state.partialSums tid)))
  | rank (i : Nat) (offset : Count) (current : state.stages tid = .offsetting i offset)
      (more : i < input.chunks.bound (tid + 1)) :
      RankingStep input state tid
        ({ state with
          cumulativeRanks := Function.update state.cumulativeRanks (input.minKeyValue + i)
            (offset + input.frequency i) }.setStage tid
              (.offsetting (i + 1) (offset + input.frequency i)))
  | finish (i : Nat) (offset : Count) (current : state.stages tid = .offsetting i offset)
      (last : input.chunks.bound (tid + 1) ≤ i) :
      RankingStep input state tid (state.setStage tid .finished)

theorem ranking_step_cases (stepped : input.step state tid = some state') :
    tid < input.threads ∧ RankingStep input state tid state' := by
  unfold RankingInput.step at stepped
  by_cases outside : input.threads ≤ tid
  · rw [if_pos outside] at stepped
    cases stepped
  · rw [if_neg outside] at stepped
    refine ⟨Nat.lt_of_not_le outside, ?_⟩
    split at stepped
    next current =>
      split_ifs at stepped with resized
      · cases stepped
        exact .enter current resized
      · cases stepped
        exact .resize current (Bool.eq_false_iff.mpr resized)
    next i localSum current =>
      split_ifs at stepped with more
      · cases stepped
        exact .add i localSum current more
      · cases stepped
        exact .store i localSum current (Nat.le_of_not_lt more)
    next current =>
      split_ifs at stepped with all
      cases stepped
      exact .pass current all
    next current =>
      split_ifs at stepped with scanned all
      · cases stepped
        exact .offset current scanned all
      · cases stepped
        exact .scan current (Bool.eq_false_iff.mpr scanned)
    next i offset current =>
      split_ifs at stepped with more
      · cases stepped
        exact .rank i offset current more
      · cases stepped
        exact .finish i offset current (Nat.le_of_not_lt more)
    next => cases stepped

/-- The histogram's sum up to, and without, index `i`. -/
def RankingInput.prefixSum (input : RankingInput Count) (i : Nat) : Count :=
  ∑ j ∈ Finset.range i, input.frequency j

/-- The thread's share of `cumulative_ranks` up to index `i` is written. -/
def RankingInput.Written (input : RankingInput Count) (cumulativeRanks : Int → Count)
    (tid i : Nat) : Prop :=
  ∀ j, input.chunks.bound tid ≤ j → j < i →
    cumulativeRanks (input.minKeyValue + j) = input.prefixSum (j + 1)

/-- What a thread has done so far. -/
def StageFits (input : RankingInput Count) (state : RankingState Count) (tid : Nat) :
    RankingStage Count → Prop
  | .summing i localSum =>
      input.chunks.bound tid ≤ i ∧ i ≤ input.chunks.bound (tid + 1) ∧
        localSum = ∑ j ∈ Finset.Ico (input.chunks.bound tid) i, input.frequency j
  | .offsetting i offset =>
      state.scanned = true ∧ input.chunks.bound tid ≤ i ∧ i ≤ input.chunks.bound (tid + 1) ∧
        offset = input.prefixSum i ∧ input.Written state.cumulativeRanks tid i
  | .finished => input.Written state.cumulativeRanks tid (input.chunks.bound (tid + 1))
  | _ => True

structure RankingFits (input : RankingInput Count) (start : Int → Count)
    (state : RankingState Count) : Prop where
  stages : ∀ tid < input.threads, StageFits input state tid (state.stages tid)
  fresh : state.resized = false → ∀ tid < input.threads, state.stages tid = .entering
  passed : ∀ tid < input.threads, (state.stages tid).hasPassed = true →
    ∀ other < input.threads, (state.stages other).hasStored = true
  scanned : state.scanned = true →
    ∀ tid < input.threads, (state.stages tid).hasStored = true
  stored : ∀ tid < input.threads, (state.stages tid).hasStored = true →
    state.partialSums tid =
      if state.scanned then input.prefixSum (input.chunks.bound tid)
      else input.chunks.chunkSum input.frequency tid
  frame : ∀ key, key < input.minKeyValue ∨ input.maxKeyValue < key →
    state.cumulativeRanks key = start key

theorem initial_ranking_fits : RankingFits input start (.initial start) where
  stages _ _ := trivial
  fresh _ _ _ := rfl
  passed _ _ passed := by cases passed
  scanned scanned := by cases scanned
  stored _ _ stored := by cases stored
  frame _ _ := rfl

omit [AddCommMonoid Count] in
/-- An index of the range lies in one chunk only. -/
theorem chunk_unique {other i j : Nat} (different : other ≠ tid)
    (mine : input.chunks.bound tid ≤ i ∧ i < input.chunks.bound (tid + 1))
    (its : input.chunks.bound other ≤ j ∧ j < input.chunks.bound (other + 1)) : j ≠ i := by
  rintro rfl
  rcases Nat.lt_or_gt_of_ne different with before | after
  · have order := input.chunks.monotone before
    simp only [Nat.succ_eq_add_one] at order
    omega
  · have order := input.chunks.monotone after
    simp only [Nat.succ_eq_add_one] at order
    omega

/-- Thread `tid` moves to `stage` and may write its own cells. -/
theorem RankingFits.move (fits : RankingFits input start state) {stage : RankingStage Count}
    {partialSums : Nat → Count} {cumulativeRanks : Int → Count} (resized : state.resized = true)
    (own : StageFits input
      { state with partialSums := partialSums, cumulativeRanks := cumulativeRanks } tid stage)
    (kept : ∀ other < input.threads, other ≠ tid → ∀ i ≤ input.chunks.bound (other + 1),
      input.Written state.cumulativeRanks other i → input.Written cumulativeRanks other i)
    (storing : (state.stages tid).hasStored = true → stage.hasStored = true)
    (passing : stage.hasPassed = true →
      ∀ other < input.threads, (state.stages other).hasStored = true)
    (sums : ∀ other, other ≠ tid → partialSums other = state.partialSums other)
    (sum : tid < input.threads → stage.hasStored = true → partialSums tid =
      if state.scanned then input.prefixSum (input.chunks.bound tid)
      else input.chunks.chunkSum input.frequency tid)
    (frame : ∀ key, key < input.minKeyValue ∨ input.maxKeyValue < key →
      cumulativeRanks key = state.cumulativeRanks key) :
    RankingFits input start
      ({ state with partialSums := partialSums, cumulativeRanks := cumulativeRanks }.setStage tid
        stage) := by
  have still : ∀ other, (state.stages other).hasStored = true →
      (Function.update state.stages tid stage other).hasStored = true := by
    intro other before
    by_cases same : other = tid
    · subst same
      rw [Function.update_self]
      exact storing before
    · rw [Function.update_of_ne same]
      exact before
  constructor
  · intro other inside
    unfold RankingState.setStage
    dsimp only
    by_cases same : other = tid
    · subst same
      rw [Function.update_self]
      exact own
    · rw [Function.update_of_ne same]
      have before := fits.stages other inside
      cases current : state.stages other with
      | summing i localSum =>
          rw [current] at before
          exact before
      | offsetting i offset =>
          rw [current] at before
          obtain ⟨scanned, low, high, offset, written⟩ := before
          exact ⟨scanned, low, high, offset, kept other inside same i high written⟩
      | finished =>
          rw [current] at before
          exact kept other inside same _ (Nat.le_refl _) before
      | _ => trivial
  · intro notResized
    rw [show state.resized = false from notResized] at resized
    cases resized
  · intro other inside passed another inside'
    apply still
    dsimp only [RankingState.setStage] at passed
    by_cases same : other = tid
    · subst same
      rw [Function.update_self] at passed
      exact passing passed another inside'
    · rw [Function.update_of_ne same] at passed
      exact fits.passed other inside passed another inside'
  · intro scanned other inside
    exact still other (fits.scanned scanned other inside)
  · intro other inside stored
    dsimp only [RankingState.setStage] at stored ⊢
    by_cases same : other = tid
    · subst same
      rw [Function.update_self] at stored
      exact sum inside stored
    · rw [Function.update_of_ne same] at stored
      rw [sums other same]
      exact fits.stored other inside stored
  · intro key outside
    rw [← fits.frame key outside]
    exact frame key outside

theorem chunk_sum_prefix (tid : Nat) :
    ∑ other ∈ Finset.range tid, input.chunks.chunkSum input.frequency other =
      input.prefixSum (input.chunks.bound tid) :=
  input.chunks.sum_chunks input.frequency tid

/-- A thread in front of its `partial_sums` entry holds the scan back. -/
theorem RankingFits.unscanned (fits : RankingFits input start state) (inside : tid < input.threads)
    (notStored : (state.stages tid).hasStored = false) : state.scanned = false := by
  cases scanned : state.scanned with
  | false => rfl
  | true =>
      rw [fits.scanned scanned tid inside] at notStored
      cases notStored

/-- Only threads in front of the first `single` find the vector not yet resized. -/
theorem RankingFits.resized (fits : RankingFits input start state) (inside : tid < input.threads)
    (moved : state.stages tid ≠ .entering) : state.resized = true := by
  cases resized : state.resized with
  | false => exact absurd (fits.fresh resized tid inside) moved
  | true => rfl

theorem ranking_step (fits : RankingFits input start state) (inside : tid < input.threads)
    (step : RankingStep input state tid state') : RankingFits input start state' := by
  have before := fits.stages tid inside
  cases step with
  | resize current first =>
      constructor
      · exact fits.stages
      · nofun
      · exact fits.passed
      · exact fits.scanned
      · intro other inside' stored
        rw [fits.fresh first other inside'] at stored
        cases stored
      · exact fits.frame
  | enter current resized =>
      apply fits.move resized
      · exact ⟨Nat.le_refl _, input.chunks.ordered tid, by simp⟩
      · exact fun _ _ _ _ _ written => written
      · rw [current]
        nofun
      · nofun
      · exact fun _ _ => rfl
      · nofun
      · exact fun _ _ => rfl
  | add i localSum current more =>
      rw [current] at before
      obtain ⟨low, high, sum⟩ := before
      apply fits.move (fits.resized inside (by rw [current]; nofun))
      · refine ⟨Nat.le_succ_of_le low, more, ?_⟩
        rw [sum, Finset.sum_Ico_succ_top low]
      · exact fun _ _ _ _ _ written => written
      · rw [current]
        nofun
      · nofun
      · exact fun _ _ => rfl
      · nofun
      · exact fun _ _ => rfl
  | store i localSum current last =>
      rw [current] at before
      obtain ⟨low, high, sum⟩ := before
      have complete : i = input.chunks.bound (tid + 1) := Nat.le_antisymm high last
      apply fits.move (fits.resized inside (by rw [current]; nofun))
      · trivial
      · exact fun _ _ _ _ _ written => written
      · exact fun _ => rfl
      · nofun
      · exact fun other different => Function.update_of_ne different _ _
      · intro _ _
        rw [Function.update_self, fits.unscanned inside (by rw [current]; rfl), sum, complete]
        rfl
      · exact fun _ _ => rfl
  | pass current all =>
      apply fits.move (fits.resized inside (by rw [current]; nofun))
      · trivial
      · exact fun _ _ _ _ _ written => written
      · exact fun _ => rfl
      · exact fun _ => all
      · exact fun _ _ => rfl
      · exact fun _ _ => fits.stored tid inside (by rw [current]; rfl)
      · exact fun _ _ => rfl
  | scan current first =>
      have all := fits.passed tid inside (by rw [current]; rfl)
      obtain ⟨-, below, -⟩ := exclusive_scan_spec state.partialSums input.threads
      constructor
      · intro other inside'
        have earlier := fits.stages other inside'
        cases stage : state.stages other with
        | offsetting i offset =>
            rw [stage] at earlier
            exact absurd earlier.1 (by rw [first]; nofun)
        | summing i localSum =>
            rw [stage] at earlier
            exact earlier
        | finished =>
            rw [stage] at earlier
            exact earlier
        | _ => trivial
      · exact fits.fresh
      · exact fits.passed
      · exact fun _ => all
      · intro other inside' _
        dsimp only
        rw [below other inside', if_pos rfl, ← chunk_sum_prefix]
        apply Finset.sum_congr rfl
        intro j member
        have small : j < input.threads := (Finset.mem_range.mp member).trans inside'
        rw [fits.stored j small (all j small), first]
        rfl
      · exact fits.frame
  | offset current scanned all =>
      have sum := fits.stored tid inside (by rw [current]; rfl)
      rw [if_pos scanned] at sum
      apply fits.move (fits.resized inside (by rw [current]; nofun))
      · refine ⟨scanned, Nat.le_refl _, input.chunks.ordered tid, sum, ?_⟩
        intro j low less
        omega
      · exact fun _ _ _ _ _ written => written
      · exact fun _ => rfl
      · exact fun _ => fits.scanned scanned
      · exact fun _ _ => rfl
      · exact fun _ _ => fits.stored tid inside (by rw [current]; rfl)
      · exact fun _ _ => rfl
  | rank i offset current more =>
      rw [current] at before
      obtain ⟨scanned, low, high, sum, written⟩ := before
      have next : offset + input.frequency i = input.prefixSum (i + 1) := by
        rw [sum]
        exact (Finset.sum_range_succ _ i).symm
      apply fits.move (fits.resized inside (by rw [current]; nofun))
      · refine ⟨scanned, Nat.le_succ_of_le low, more, next, ?_⟩
        intro j least less
        rcases Nat.lt_succ_iff_lt_or_eq.mp less with earlier | rfl
        · dsimp only
          rw [Function.update_of_ne (by omega)]
          exact written j least earlier
        · dsimp only
          rw [Function.update_self]
          exact next
      · intro other inside' different k bounded earlier j least less
        have apart := chunk_unique different ⟨low, more⟩ ⟨least, less.trans_le bounded⟩
        rw [Function.update_of_ne (by omega)]
        exact earlier j least less
      · exact fun _ => rfl
      · exact fun _ => fits.passed tid inside (by rw [current]; rfl)
      · exact fun _ _ => rfl
      · exact fun _ _ => fits.stored tid inside (by rw [current]; rfl)
      · intro key outside
        have range := more.trans_le (input.chunks.bounded inside)
        exact Function.update_of_ne (by omega) _ _
  | finish i offset current last =>
      rw [current] at before
      obtain ⟨scanned, low, high, sum, written⟩ := before
      have complete : i = input.chunks.bound (tid + 1) := Nat.le_antisymm high last
      apply fits.move (fits.resized inside (by rw [current]; nofun))
      · rw [complete] at written
        exact written
      · exact fun _ _ _ _ _ written => written
      · exact fun _ => rfl
      · exact fun _ => fits.passed tid inside (by rw [current]; rfl)
      · exact fun _ _ => rfl
      · exact fun _ _ => fits.stored tid inside (by rw [current]; rfl)
      · exact fun _ _ => rfl

theorem reachable_ranking_fits
    (reached : (rankingSystem input).Reachable (fun _ _ => True) (.initial start) state) :
    RankingFits input start state := by
  apply reached.invariant initial_ranking_fits
  intro before after tid _ fits _ stepped
  obtain ⟨inside, step⟩ := ranking_step_cases stepped
  exact ranking_step fits inside step

/-- All threads are at the end of the parallel region. -/
def RankingInput.Finished (input : RankingInput Count) (state : RankingState Count) : Prop :=
  ∀ tid < input.threads, state.stages tid = .finished

instance [DecidableEq Count] (input : RankingInput Count) (state : RankingState Count) :
    Decidable (input.Finished state) :=
  inferInstanceAs (Decidable (∀ tid < input.threads, state.stages tid = .finished))

/-- The entries of the interval when all threads are done; the others are untouched. -/
theorem finished_ranks (fits : RankingFits input start state) (finished : input.Finished state) :
    (∀ i < input.keyValueRange,
      state.cumulativeRanks (input.minKeyValue + i) = input.prefixSum (i + 1)) ∧
    ∀ key, key < input.minKeyValue ∨ input.maxKeyValue < key →
      state.cumulativeRanks key = start key := by
  refine ⟨?_, fits.frame⟩
  intro i inside
  obtain ⟨tid, thread, low, high⟩ := input.chunks.owner inside
  have written := fits.stages tid thread
  rw [finished tid thread] at written
  exact written i low high

end Invariant

end IntegerSortLci.Benchmark
