import IntegerSortLci.Benchmark.BucketPartition

/-!
# How even the bucket plan is

A rank's interval ends at the first bucket that brings the running sum to the rank's
quota. So the interval without its last bucket stays below the quota, and a rank gets
at most one bucket more than the average. When no bucket is above the average, the
running sum at each cut is less than one bucket above the quotas, and no rank is left
without keys. As in the plan itself, no sum or quota overflows `KeyCount` or `KeyRank`.
-/

namespace IntegerSortLci.Benchmark

open IntegerSortLci.Foundations
open scoped BigOperators

set_option autoImplicit false

/-- The keys in the largest bucket. -/
def PlanInput.largestBucket (input : PlanInput) : Nat :=
  ((List.range input.numBuckets).map input.globalBucketCounts).foldr Nat.max 0

/-- Below the last bucket of an interval the quota of its rank is not reached. -/
def ClosedShort (input : PlanInput) (state : PlanState) : Prop :=
  ∀ rank < state.ownerRank, ∀ bucket, state.cut rank ≤ bucket →
    bucket < state.lastBucketByRank rank →
      input.prefixSum (bucket + 1) < (rank + 1) * input.averageKeysPerRank

section Scan

variable {input : PlanInput} {count : Nat} {state : PlanState}

theorem closed_short_step (scanned : Scanned input count state) (closed : ClosedShort input state) :
    ClosedShort input (input.assignBucket state count) := by
  unfold PlanInput.assignBucket
  dsimp only
  by_cases filled : (state.ownerRank + 1) * input.averageKeysPerRank ≤
      state.bucketSumAccumulator + input.globalBucketCounts count
  · rw [if_pos filled]
    intro rank owned bucket late early
    dsimp only at owned late early
    have earlier := cut_update state.toPlanArrays (Nat.lt_succ_iff.mp owned) count
    rw [earlier] at late
    rcases Nat.lt_succ_iff_lt_or_eq.mp owned with before | rfl
    · rw [Function.update_of_ne (Nat.ne_of_lt before)] at early
      exact closed rank before bucket late early
    · -- the interval that closes here was open until this bucket
      rw [Function.update_self] at early
      exact scanned.short bucket late early
  · rw [if_neg filled]
    exact closed

theorem closed_short_scan (balanced : input.Balanced) (count : Nat)
    (inside : count ≤ input.numBuckets) :
    ClosedShort input (input.assignBuckets clearedArrays count) := by
  induction count with
  | zero =>
      intro rank owned
      exact absurd owned (Nat.not_lt_zero rank)
  | succ count ih =>
      have before := Nat.le_of_succ_le inside
      exact closed_short_step (assign_buckets_scanned balanced count before) (ih before)

end Scan

section Balance

variable {input : PlanInput} {start : PlanArrays} {rank : Nat}

theorem bucket_le_largest {bucket : Nat} (inside : bucket < input.numBuckets) :
    input.globalBucketCounts bucket ≤ input.largestBucket := by
  have listed : input.globalBucketCounts bucket ∈
      (List.range input.numBuckets).map input.globalBucketCounts :=
    List.mem_map_of_mem (List.mem_range.mpr inside)
  unfold PlanInput.largestBucket
  generalize (List.range input.numBuckets).map input.globalBucketCounts = counts at listed ⊢
  induction counts with
  | nil => cases listed
  | cons first rest ih =>
      rcases List.mem_cons.mp listed with same | later
      · rw [same]
        exact Nat.le_max_left _ _
      · exact (ih later).trans (Nat.le_max_right _ _)

theorem largest_positive (balanced : input.Balanced) (participants : 0 < input.commSize) :
    0 < input.largestBucket := by
  by_contra none
  have empty : input.prefixSum input.numBuckets = 0 := by
    apply Finset.sum_eq_zero
    intro bucket member
    have below := bucket_le_largest (Finset.mem_range.mp member)
    omega
  have total := Nat.mul_pos participants balanced.average
  rw [← balanced.total, empty] at total
  exact absurd total (Nat.lt_irrefl 0)

theorem final_closed_short (balanced : input.Balanced) : ClosedShort input input.finalScan :=
  closed_short_scan balanced input.numBuckets (Nat.le_refl _)

/-- The keys before an owner's cut fill the quotas of the ranks before it. -/
theorem cut_filled (balanced : input.Balanced) (owners : rank ≤ input.finalScan.ownerRank) :
    rank * input.averageKeysPerRank ≤ input.prefixSum (input.finalScan.cut rank) := by
  cases rank with
  | zero =>
      rw [Nat.zero_mul]
      exact Nat.zero_le _
  | succ previous =>
      rw [cut_succ]
      exact (final_scanned balanced).filled previous owners

/-- The last bucket of an interval is all of it, or the rest of the interval is below
the quota. -/
theorem interval_cases (balanced : input.Balanced) (owner : rank < input.finalScan.ownerRank) :
    input.finalScan.cut rank = input.finalScan.lastBucketByRank rank ∨
      input.prefixSum (input.finalScan.lastBucketByRank rank) <
        (rank + 1) * input.averageKeysPerRank := by
  have order := ((final_scanned balanced).ordered rank owner).1
  rcases Nat.lt_or_eq_of_le order with longer | single
  · right
    have short := final_closed_short balanced rank owner
      (input.finalScan.lastBucketByRank rank - 1) (by omega) (by omega)
    rw [Nat.sub_add_cancel (by omega)] at short
    exact short
  · exact .inl single

/-- The running sum at the next cut. -/
theorem prefix_cut_succ (input : PlanInput) (rank : Nat) :
    input.prefixSum (input.finalScan.cut (rank + 1)) =
      input.prefixSum (input.finalScan.lastBucketByRank rank) +
        input.globalBucketCounts (input.finalScan.lastBucketByRank rank) := by
  rw [cut_succ]
  exact prefix_sum_succ input _

/-- An owner's keys lie between its cut and the next one. -/
theorem owner_keys (balanced : input.Balanced) (owner : rank < input.finalScan.ownerRank) :
    input.prefixSum (input.finalScan.cut rank) +
        input.sumBuckets (input.arrays.firstBucketByRank rank)
          (input.arrays.lastBucketByRank rank) =
      input.prefixSum (input.finalScan.cut (rank + 1)) := by
  obtain ⟨first, last⟩ := owner_interval balanced owner
  have order := ((final_scanned balanced).ordered rank owner).1
  rw [first, last, cut_succ]
  exact prefix_sum_interval input (Nat.le_succ_of_le order)

theorem interval_below (balanced : input.Balanced) (inside : rank < input.commSize) :
    input.sumBuckets (input.arrays.firstBucketByRank rank) (input.arrays.lastBucketByRank rank) <
      input.averageKeysPerRank + input.largestBucket := by
  by_cases owner : rank < input.finalScan.ownerRank
  · have keys := owner_keys balanced owner
    have next := prefix_cut_succ input rank
    have ends := ((final_scanned balanced).ordered rank owner).2
    have bucket := bucket_le_largest ends
    have average := balanced.average
    rcases interval_cases balanced owner with single | short
    · rw [single] at keys
      omega
    · have filled := cut_filled balanced (Nat.le_of_lt owner)
      rw [Nat.succ_mul] at short
      omega
  · obtain ⟨first, last⟩ := idle_interval balanced inside (Nat.le_of_not_lt owner)
    rw [first, last]
    exact Nat.add_pos_left balanced.average _

/-- When no bucket is above the average, the running sum at a cut stays less than a
bucket above the quotas. -/
theorem cut_below (balanced : input.Balanced) (participants : 0 < input.commSize)
    (even : input.largestBucket ≤ input.averageKeysPerRank)
    (owners : rank ≤ input.finalScan.ownerRank) :
    input.prefixSum (input.finalScan.cut rank) <
      rank * input.averageKeysPerRank + input.largestBucket := by
  induction rank with
  | zero =>
      rw [Nat.zero_mul, Nat.zero_add]
      exact largest_positive balanced participants
  | succ rank ih =>
      have before := ih (Nat.le_of_succ_le owners)
      have ends := ((final_scanned balanced).ordered rank owners).2
      have bucket := bucket_le_largest ends
      have next := prefix_cut_succ input rank
      rw [Nat.succ_mul]
      rcases interval_cases balanced owners with single | short
      · rw [single] at before
        omega
      · rw [Nat.succ_mul] at short
        omega

/-- Then every rank gets an interval. -/
theorem all_owners (balanced : input.Balanced) (participants : 0 < input.commSize)
    (even : input.largestBucket ≤ input.averageKeysPerRank) :
    input.finalScan.ownerRank = input.commSize := by
  have scanned := final_scanned balanced
  rcases Nat.lt_or_eq_of_le scanned.bounded with fewer | all
  · exfalso
    have quotas : (input.finalScan.ownerRank + 1) * input.averageKeysPerRank ≤
        input.prefixSum input.numBuckets := by
      rw [balanced.total]
      exact Nat.mul_le_mul_right _ fewer
    have below := cut_below balanced participants even (Nat.le_refl _)
    rw [Nat.succ_mul] at quotas
    rcases Nat.lt_or_eq_of_le scanned.current with opened | finished
    · -- the open interval reaches the last bucket without the owner's quota
      have short := scanned.short (input.numBuckets - 1) (by omega) (by omega)
      rw [Nat.sub_add_cancel (by omega), Nat.succ_mul] at short
      omega
    · rw [finished] at below
      omega
  · exact all

theorem interval_manned (balanced : input.Balanced) (inside : rank < input.commSize)
    (even : input.largestBucket ≤ input.averageKeysPerRank) :
    0 < input.sumBuckets (input.arrays.firstBucketByRank rank)
      (input.arrays.lastBucketByRank rank) := by
  have participants : 0 < input.commSize := Nat.zero_lt_of_lt inside
  have owner : rank < input.finalScan.ownerRank := by
    rw [all_owners balanced participants even]
    exact inside
  have keys := owner_keys balanced owner
  have below := cut_below balanced participants even (Nat.le_of_lt owner)
  have filled : (rank + 1) * input.averageKeysPerRank ≤
      input.prefixSum (input.finalScan.cut (rank + 1)) := cut_filled balanced owner
  rw [Nat.succ_mul] at filled
  omega

/-- How many keys the plan that `rank` computes into the arrays `start` gives it. -/
def PlanInput.localKeys (input : PlanInput) (start : PlanArrays) (rank : Nat) : Nat :=
  ((input.onRank rank).buildBucketPlan start).2.localKeyCount

theorem local_keys_interval (balanced : input.Balanced) (zeroed : start.Zeroed input.commSize)
    (inside : rank < input.commSize) :
    input.localKeys start rank = input.sumBuckets (input.arrays.firstBucketByRank rank)
      (input.arrays.lastBucketByRank rank) := by
  have same := plan_arrays_agree input clearedArrays rank
  have onRank : (input.onRank rank).Balanced := ⟨balanced.average, balanced.total⟩
  have plan := build_bucket_plan_same onRank zeroed inside
  calc input.localKeys start rank
      = ((input.onRank rank).buildBucketPlan clearedArrays).2.localKeyCount :=
        congrArg BucketPlan.localKeyCount plan
    _ = input.sumBuckets (((input.onRank rank).planArrays clearedArrays).firstBucketByRank rank)
          (((input.onRank rank).planArrays clearedArrays).lastBucketByRank rank) := rfl
    _ = input.sumBuckets (input.arrays.firstBucketByRank rank)
          (input.arrays.lastBucketByRank rank) := by
        rw [same]
        rfl

/-- No rank gets as much as the average and a largest bucket, a rank that owns a bucket
has with the ranks before it their quotas, and buckets up to the average leave no rank
without keys. -/
theorem bucket_plan_even (input : PlanInput) (start : PlanArrays) (balanced : input.Balanced)
    (zeroed : start.Zeroed input.commSize) :
    (∀ rank < input.commSize,
      input.localKeys start rank < input.averageKeysPerRank + input.largestBucket) ∧
      (∀ rank < input.commSize, (input.planArrays start).Nonempty rank →
        (rank + 1) * input.averageKeysPerRank ≤
          ∑ lower ∈ Finset.range (rank + 1), input.localKeys start lower) ∧
      (input.largestBucket ≤ input.averageKeysPerRank →
        ∀ rank < input.commSize, 0 < input.localKeys start rank) := by
  refine ⟨?_, ?_, ?_⟩
  · intro rank inside
    rw [local_keys_interval balanced zeroed inside]
    exact interval_below balanced inside
  · intro rank inside nonempty
    obtain ⟨first, last⟩ :=
      (plan_arrays_same balanced zeroed (Nat.zero_lt_of_lt inside)).1 rank inside
    have owner : rank < input.finalScan.ownerRank := by
      apply (nonempty_iff balanced inside).mp
      unfold PlanArrays.Nonempty at nonempty ⊢
      rw [← first, ← last]
      exact nonempty
    have owned := lesser_sum balanced owner
    have keys : ∑ lower ∈ Finset.range (rank + 1), input.localKeys start lower =
        input.prefixSum (input.finalScan.cut (rank + 1)) := by
      rw [← owned]
      apply Finset.sum_congr rfl
      intro lower member
      have less := Finset.mem_range.mp member
      exact local_keys_interval balanced zeroed (by omega)
    rw [keys]
    exact cut_filled balanced owner
  · intro even rank inside
    rw [local_keys_interval balanced zeroed inside]
    exact interval_manned balanced inside even

/-- Three buckets up to the average, shared by two ranks. -/
def evenBuckets : PlanInput where
  globalBucketCounts bucket := if bucket < 2 then 3 else 2
  commSize := 2
  myRank := 0
  numBuckets := 3
  bucketShift := 1
  averageKeysPerRank := 4

theorem bucket_plan_even_buckets :
    (evenBuckets.planArrays staleArrays).Nonempty 1 ∧
      (1 + 1) * 4 ≤ ∑ lower ∈ Finset.range (1 + 1), evenBuckets.localKeys staleArrays lower ∧
        0 < evenBuckets.localKeys staleArrays 1 ∧ evenBuckets.localKeys staleArrays 0 = 6 := by
  have balanced : evenBuckets.Balanced := ⟨by decide, by decide⟩
  have zeroed : staleArrays.Zeroed evenBuckets.commSize := by
    intro rank inside
    have less : rank < 3 := Nat.lt_of_lt_of_le inside (by decide)
    simp [staleArrays, less]
  have nonempty : (evenBuckets.planArrays staleArrays).Nonempty 1 := show _ ≤ _ by decide
  obtain ⟨-, filled, manned⟩ := bucket_plan_even evenBuckets staleArrays balanced zeroed
  exact ⟨nonempty, filled 1 (by decide) nonempty, manned (by decide) 1 (by decide), by decide⟩

end Balance

end IntegerSortLci.Benchmark
