import IntegerSortLci.Benchmark.RunRules
import IntegerSortLci.Foundations.EventLog
import IntegerSortLci.Foundations.TransitionSystem
import Mathlib.Algebra.Order.BigOperators.Group.Finset
import Mathlib.Algebra.Order.Ring.Nat
import Mathlib.Logic.Function.Basic
import Mathlib.Tactic.SplitIfs

/-!
# Counting one rank's keys into buckets

`capture_partial_verification_keys` and `count_local_buckets`. The counting loop is
split over an OpenMP team; each worker has a private vector and adds it to
`local_bucket_counts` in the critical section, in any order.
-/

namespace IntegerSortLci.Benchmark

open IntegerSortLci.Foundations
open scoped BigOperators

set_option autoImplicit false

/-- `capture_partial_verification_keys`: the test keys that this rank holds go behind
the bucket counts. -/
def capturePartialVerificationKeys (testIndex : Nat → Nat) (keys : List Nat)
    (localKeyCount myRank numBuckets : Nat) (localBucketCounts : Nat → Nat) : Nat → Nat :=
  (List.range testArraySize).foldl
    (fun counts testId =>
      if testIndex testId / localKeyCount = myRank then
        Function.update counts (numBuckets + testId)
          ((keys[testIndex testId % localKeyCount]?).getD 0)
      else counts)
    localBucketCounts

/-- The captured keys leave the bucket counts alone. -/
theorem capture_below (testIndex : Nat → Nat) (keys : List Nat)
    (localKeyCount myRank numBuckets : Nat) (localBucketCounts : Nat → Nat) {bucket : Nat}
    (inside : bucket < numBuckets) :
    capturePartialVerificationKeys testIndex keys localKeyCount myRank numBuckets
      localBucketCounts bucket = localBucketCounts bucket := by
  unfold capturePartialVerificationKeys
  generalize List.range testArraySize = testIds
  induction testIds generalizing localBucketCounts with
  | nil => rfl
  | cons testId rest ih =>
      rw [List.foldl_cons, ih]
      split_ifs
      · exact Function.update_of_ne (by omega) _ _
      · rfl

/-- The slot of a test key holds the key when the rank holds it. -/
theorem capture_slot (testIndex : Nat → Nat) (keys : List Nat)
    (localKeyCount myRank numBuckets : Nat) (localBucketCounts : Nat → Nat) {slot : Nat}
    (inside : slot < testArraySize) :
    capturePartialVerificationKeys testIndex keys localKeyCount myRank numBuckets
        localBucketCounts (numBuckets + slot) =
      if testIndex slot / localKeyCount = myRank then
        (keys[testIndex slot % localKeyCount]?).getD 0
      else localBucketCounts (numBuckets + slot) := by
  have loop : ∀ count, (List.range count).foldl
      (fun counts testId =>
        if testIndex testId / localKeyCount = myRank then
          Function.update counts (numBuckets + testId)
            ((keys[testIndex testId % localKeyCount]?).getD 0)
        else counts)
      localBucketCounts (numBuckets + slot) =
        if slot < count ∧ testIndex slot / localKeyCount = myRank then
          (keys[testIndex slot % localKeyCount]?).getD 0
        else localBucketCounts (numBuckets + slot) := by
    intro count
    induction count with
    | zero => simp
    | succ count ih =>
        rw [List.range_succ, List.foldl_append, List.foldl_cons, List.foldl_nil]
        by_cases last : slot = count
        · subst last
          by_cases mine : testIndex slot / localKeyCount = myRank
          · rw [if_pos mine, if_pos ⟨Nat.lt_succ_self slot, mine⟩, Function.update_self]
          · rw [if_neg mine, if_neg fun both => mine both.2, ih, if_neg fun both => mine both.2]
        · have same : slot < count + 1 ↔ slot < count := by omega
          simp only [same]
          rw [← ih]
          split
          · exact Function.update_of_ne (by omega) _ _
          · rfl
  have whole := loop testArraySize
  simp only [inside, true_and] at whole
  exact whole

variable {Worker : Type}

/-- The arguments of `count_local_buckets` and the keys that `omp for` gives to each
worker. -/
structure CountingInput (Worker : Type) where
  bucketShift : Nat
  numBuckets : Nat
  team : Finset Worker
  share : Worker → List Nat
  spare : ∀ worker ∉ team, share worker = []

inductive CountingStage where
  | counting (remaining : List Nat) (bucketSizePrivate : Nat → Nat)
  | merged

structure CountingState (Worker : Type) where
  localBucketCounts : Nat → Nat
  workers : Worker → CountingStage

namespace CountingStage

def isMerged : CountingStage → Bool
  | .counting _ _ => false
  | .merged => true

/-- What the worker has still to bring into a bucket. -/
def pending (bucketShift bucket : Nat) : CountingStage → Nat
  | .counting remaining bucketSizePrivate =>
      bucketSizePrivate bucket + remaining.countP fun key => key >>> bucketShift == bucket
  | .merged => 0

end CountingStage

namespace CountingInput

variable (input : CountingInput Worker)

def initial (localBucketCounts : Nat → Nat) : CountingState Worker where
  localBucketCounts := localBucketCounts
  workers worker := .counting (input.share worker) fun _ => 0

variable [DecidableEq Worker]

/-- A key of the worker's loop, or its critical section. -/
def step (state : CountingState Worker) (worker : Worker) : Option (CountingState Worker) :=
  if worker ∈ input.team then
    match state.workers worker with
    | .counting (key :: remaining) bucketSizePrivate =>
        let bucket := key >>> input.bucketShift
        some { state with
          workers := Function.update state.workers worker
            (.counting remaining
              (Function.update bucketSizePrivate bucket (bucketSizePrivate bucket + 1))) }
    | .counting [] bucketSizePrivate =>
        some
          { localBucketCounts := fun bucket =>
              if bucket < input.numBuckets then
                state.localBucketCounts bucket + bucketSizePrivate bucket
              else state.localBucketCounts bucket
            workers := Function.update state.workers worker .merged }
    | .merged => none
  else none

/-- All workers have left the critical section. -/
def Finished (input : CountingInput Worker) (state : CountingState Worker) : Prop :=
  ∀ worker ∈ input.team, (state.workers worker).isMerged = true

instance (input : CountingInput Worker) (state : CountingState Worker) :
    Decidable (input.Finished state) :=
  inferInstanceAs (Decidable (∀ worker ∈ input.team, _))

end CountingInput

/-- The team as a transition system; an action is the worker that moves. -/
def countingSystem [DecidableEq Worker] (input : CountingInput Worker) :
    TransitionSystem (CountingState Worker) Worker where
  step := input.step

section Invariant

variable [Fintype Worker] [DecidableEq Worker] {input : CountingInput Worker}
variable {state state' : CountingState Worker} {start : Nat → Nat}

/-- What is in `local_bucket_counts` and what the workers still hold is the start and
the keys of the rank. -/
structure CountingFits (input : CountingInput Worker) (start : Nat → Nat)
    (state : CountingState Worker) : Prop where
  balanced : ∀ bucket < input.numBuckets, state.localBucketCounts bucket +
      ∑ worker, (state.workers worker).pending input.bucketShift bucket =
    start bucket + ∑ worker,
      (input.share worker).countP fun key => key >>> input.bucketShift == bucket
  behind : ∀ bucket, input.numBuckets ≤ bucket → state.localBucketCounts bucket = start bucket
  spare : ∀ worker ∉ input.team, ∀ bucket,
    (state.workers worker).pending input.bucketShift bucket = 0

omit [DecidableEq Worker] in
theorem initial_counting_fits : CountingFits input start (input.initial start) where
  balanced bucket _ := by simp [CountingInput.initial, CountingStage.pending]
  behind _ _ := rfl
  spare worker outside bucket := by
    simp [CountingInput.initial, CountingStage.pending, input.spare worker outside]

/-- The pending totals when one worker's stage changes. -/
theorem pending_update (stages : Worker → CountingStage) (worker : Worker) (stage : CountingStage)
    (bucketShift bucket : Nat) :
    (∑ other, (Function.update stages worker stage other).pending bucketShift bucket) +
        (stages worker).pending bucketShift bucket =
      (∑ other, (stages other).pending bucketShift bucket) + stage.pending bucketShift bucket := by
  rw [← Finset.add_sum_erase Finset.univ (fun other =>
      (Function.update stages worker stage other).pending bucketShift bucket)
      (Finset.mem_univ worker),
    ← Finset.add_sum_erase Finset.univ (fun other => (stages other).pending bucketShift bucket)
      (Finset.mem_univ worker)]
  have rest : ∑ other ∈ Finset.univ.erase worker,
      (Function.update stages worker stage other).pending bucketShift bucket =
        ∑ other ∈ Finset.univ.erase worker, (stages other).pending bucketShift bucket := by
    apply Finset.sum_congr rfl
    intro other member
    rw [Function.update_of_ne (Finset.ne_of_mem_erase member)]
  rw [rest, Function.update_self]
  omega

omit [Fintype Worker] in
/-- The merge of the private vectors ends before the slots of the test keys. -/
theorem counting_step_behind {worker : Worker}
    (stepped : input.step state worker = some state') {bucket : Nat}
    (beyond : input.numBuckets ≤ bucket) :
    state'.localBucketCounts bucket = state.localBucketCounts bucket := by
  unfold CountingInput.step at stepped
  split_ifs at stepped with member
  split at stepped
  next =>
    cases stepped
    rfl
  next =>
    cases stepped
    exact if_neg (Nat.not_lt.mpr beyond)
  next => cases stepped

theorem counting_step (fits : CountingFits input start state) {worker : Worker}
    (stepped : input.step state worker = some state') : CountingFits input start state' := by
  unfold CountingInput.step at stepped
  split_ifs at stepped with member
  have others : ∀ (stage : CountingStage) (other : Worker), other ∉ input.team → ∀ bucket,
      (Function.update state.workers worker stage other).pending input.bucketShift bucket = 0 := by
    intro stage other outside bucket
    have different : other ≠ worker := by
      rintro rfl
      exact outside member
    rw [Function.update_of_ne different]
    exact fits.spare other outside bucket
  split at stepped
  next key remaining bucketSizePrivate current =>
    cases stepped
    refine ⟨?_, fits.behind, others _⟩
    intro bucket inside
    rw [← fits.balanced bucket inside]
    have moved := pending_update state.workers worker (.counting remaining
      (Function.update bucketSizePrivate (key >>> input.bucketShift)
        (bucketSizePrivate (key >>> input.bucketShift) + 1))) input.bucketShift bucket
    have same : CountingStage.pending input.bucketShift bucket (.counting remaining
        (Function.update bucketSizePrivate (key >>> input.bucketShift)
          (bucketSizePrivate (key >>> input.bucketShift) + 1))) =
        (state.workers worker).pending input.bucketShift bucket := by
      rw [current]
      simp only [CountingStage.pending, List.countP_cons]
      by_cases here : key >>> input.bucketShift = bucket
      · subst here
        simp
        omega
      · simp [here, Ne.symm here]
    dsimp only
    omega
  next bucketSizePrivate current =>
    cases stepped
    refine ⟨?_, ?_, others _⟩
    · intro bucket inside
      rw [← fits.balanced bucket inside]
      have moved := pending_update state.workers worker .merged input.bucketShift bucket
      rw [current] at moved
      simp only [CountingStage.pending, List.countP_nil, Nat.add_zero] at moved
      dsimp only
      rw [if_pos inside]
      simp only [CountingStage.pending] at moved ⊢
      omega
    · intro bucket beyond
      dsimp only
      rw [if_neg (Nat.not_lt.mpr beyond)]
      exact fits.behind bucket beyond
  next => cases stepped

/-- The counts after the parallel region. -/
theorem finished_counts (fits : CountingFits input start state) (finished : input.Finished state)
    {bucket : Nat} (inside : bucket < input.numBuckets) :
    state.localBucketCounts bucket = start bucket + ∑ worker,
      (input.share worker).countP fun key => key >>> input.bucketShift == bucket := by
  rw [← fits.balanced bucket inside]
  have nothing : ∑ worker, (state.workers worker).pending input.bucketShift bucket = 0 := by
    apply Finset.sum_eq_zero
    intro worker _
    by_cases member : worker ∈ input.team
    · have merged := finished worker member
      cases current : state.workers worker with
      | counting remaining bucketSizePrivate =>
          rw [current] at merged
          cases merged
      | merged => rfl
    · exact fits.spare worker member bucket
  rw [nothing, Nat.add_zero]

end Invariant

end IntegerSortLci.Benchmark
