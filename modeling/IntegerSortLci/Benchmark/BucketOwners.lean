import IntegerSortLci.Benchmark.BucketPlan
import IntegerSortLci.Benchmark.RunRules
import IntegerSortLci.Foundations.GreedyQuotas

/-!
# Who owns a bucket

The loop of `build_bucket_plan` serves the ranks greedily: a bucket goes to the first
rank whose quota the buckets before it have not served, and at most one quota is served
at each bucket. So the owner of a bucket follows from the bucket counts alone: `rank`
quotas are served before a bucket when the running sum reached the quotas of the last
ranks in time.

The number of buckets and of keys of a rank are those of the buckets it owns by this
rule.
-/

namespace IntegerSortLci.Benchmark

open IntegerSortLci.Foundations
open scoped BigOperators

set_option autoImplicit false

namespace PlanInput

variable (input : PlanInput)

/-- The keys that `rank` ranks are to get. -/
def quota (rank : Nat) : Nat := rank * input.averageKeysPerRank

/-- The bucket counts let `rank` quotas be served before `bucket`. -/
def QuotasServed (bucket rank : Nat) : Prop := Reaches input.quota input.prefixSum bucket rank

instance (bucket rank : Nat) : Decidable (input.QuotasServed bucket rank) :=
  inferInstanceAs (Decidable (Reaches input.quota input.prefixSum bucket rank))

/-- The turn of `rank` at `bucket`: the quotas of the ranks before it are served, and
its own is not. -/
def Owns (rank bucket : Nat) : Prop :=
  input.QuotasServed bucket rank ∧ ¬input.QuotasServed bucket (rank + 1)

instance (rank bucket : Nat) : Decidable (input.Owns rank bucket) :=
  inferInstanceAs (Decidable (_ ∧ _))

def ownedBuckets (rank : Nat) : Finset Nat :=
  (Finset.range input.numBuckets).filter fun bucket => input.Owns rank bucket

end PlanInput

section Owner

variable {input : PlanInput} {arrays : PlanArrays} {rank bucket : Nat}

theorem accumulated_prefix (input : PlanInput) (arrays : PlanArrays) (count : Nat) :
    (input.assignBuckets arrays count).bucketSumAccumulator = input.prefixSum count := by
  induction count with
  | zero => rfl
  | succ count ih =>
      rw [prefix_sum_succ, ← ih, PlanInput.assignBuckets, assign_bucket_sum]

/-- The loop serves the quotas greedily. -/
theorem owner_served (input : PlanInput) (arrays : PlanArrays) (count : Nat) :
    (input.assignBuckets arrays count).ownerRank = served input.quota input.prefixSum count := by
  induction count with
  | zero => rfl
  | succ count ih =>
      have accumulated := accumulated_prefix input arrays count
      rw [PlanInput.assignBuckets, served, ← ih, prefix_sum_succ, ← accumulated]
      unfold PlanInput.assignBucket PlanInput.quota
      dsimp only
      split <;> rfl

theorem owner_eq_iff (average : 0 < input.averageKeysPerRank) (count : Nat) :
    (input.assignBuckets arrays count).ownerRank = rank ↔ input.Owns rank count := by
  have rising : Monotone input.prefixSum := fun _ _ le => prefix_sum_mono input le
  have targets : Monotone input.quota := fun _ _ le => Nat.mul_le_mul_right _ le
  have start : input.quota 0 ≤ input.prefixSum 0 := by simp [PlanInput.quota]
  have empty : input.prefixSum 0 < input.quota 1 := by
    simpa [PlanInput.quota, PlanInput.prefixSum] using average
  rw [owner_served]
  exact served_eq_iff rising targets start empty count rank

/-- The routing table holds the owner that the loop had at the bucket. -/
theorem table_owner (input : PlanInput) (arrays : PlanArrays) {count : Nat}
    (inside : bucket < count) :
    (input.assignBuckets arrays count).bucketToRank bucket =
      (input.assignBuckets arrays bucket).ownerRank := by
  induction count with
  | zero => exact absurd inside (Nat.not_lt_zero bucket)
  | succ count ih =>
      rw [PlanInput.assignBuckets, assign_bucket_table]
      rcases Nat.lt_succ_iff_lt_or_eq.mp inside with before | rfl
      · rw [Function.update_of_ne (Nat.ne_of_lt before)]
        exact ih before
      · exact Function.update_self _ _ _

/-- A rank to which a bucket is routed fills its quota: otherwise the last bucket would
leave keys over. -/
theorem routed_rank_served (balanced : input.Balanced) (inside : rank < input.commSize)
    (bounded : bucket < input.numBuckets) (routed : input.arrays.bucketToRank bucket = rank) :
    rank < input.finalScan.ownerRank := by
  have scanned := final_scanned balanced
  obtain ⟨owned, late, -⟩ := scanned.routed bucket bounded
  change input.finalScan.bucketToRank bucket = rank at routed
  rw [routed] at owned late
  rcases Nat.lt_or_eq_of_le owned with owner | same
  · exact owner
  · exfalso
    rw [same] at late inside
    have last := scanned.short (input.numBuckets - 1) (by omega) (by omega)
    rw [Nat.sub_add_cancel (by omega), balanced.total] at last
    have more := Nat.lt_of_mul_lt_mul_right last
    omega

/-- The interval of a rank is the buckets that it owns by the bucket counts. -/
theorem interval_owned (balanced : input.Balanced) (inside : rank < input.commSize)
    (bounded : bucket < input.numBuckets) :
    (input.arrays.firstBucketByRank rank ≤ bucket ∧ bucket ≤ input.arrays.lastBucketByRank rank) ↔
      input.Owns rank bucket := by
  have table : input.arrays.bucketToRank bucket =
      (input.assignBuckets clearedArrays bucket).ownerRank :=
    table_owner input clearedArrays bounded
  rw [interval_iff balanced inside bounded, ← owner_eq_iff balanced.average, ← table]
  constructor
  · exact And.left
  · intro routed
    exact ⟨routed, routed_rank_served balanced inside bounded routed⟩

theorem interval_eq_owned (balanced : input.Balanced) (inside : rank < input.commSize) :
    Finset.Icc (input.arrays.firstBucketByRank rank) (input.arrays.lastBucketByRank rank) =
      input.ownedBuckets rank := by
  ext bucket
  rw [Finset.mem_Icc, PlanInput.ownedBuckets, Finset.mem_filter, Finset.mem_range]
  constructor
  · intro between
    have bounded : bucket < input.numBuckets := by
      by_cases owner : rank < input.finalScan.ownerRank
      · exact between.2.trans_lt (last_bucket_bounded balanced owner)
      · obtain ⟨first, last⟩ := idle_interval balanced inside (Nat.le_of_not_lt owner)
        omega
    exact ⟨bounded, (interval_owned balanced inside bounded).mp between⟩
  · rintro ⟨bounded, owned⟩
    exact (interval_owned balanced inside bounded).mpr owned

/-- The keys of the rank's interval. -/
theorem sum_buckets_owned (balanced : input.Balanced) (inside : rank < input.commSize) :
    input.sumBuckets (input.arrays.firstBucketByRank rank) (input.arrays.lastBucketByRank rank) =
      ∑ bucket ∈ input.ownedBuckets rank, input.globalBucketCounts bucket := by
  unfold PlanInput.sumBuckets
  rw [interval_eq_owned balanced inside]

/-- An empty interval ends right before its first bucket. -/
theorem interval_ends (balanced : input.Balanced) (inside : rank < input.commSize) :
    input.arrays.firstBucketByRank rank ≤ input.arrays.lastBucketByRank rank + 1 := by
  by_cases owner : rank < input.finalScan.ownerRank
  · obtain ⟨first, last⟩ := owner_interval balanced owner
    rw [first, last]
    exact Nat.le_succ_of_le ((final_scanned balanced).ordered rank owner).1
  · obtain ⟨first, last⟩ := idle_interval balanced inside (Nat.le_of_not_lt owner)
    rw [first, last]

theorem interval_width (balanced : input.Balanced) (inside : rank < input.commSize) :
    input.arrays.lastBucketByRank rank + 1 - input.arrays.firstBucketByRank rank =
      (input.ownedBuckets rank).card := by
  rw [← interval_eq_owned balanced inside, Nat.card_Icc]

/-- The rank whose interval ends at the last bucket. -/
theorem last_bucket_iff (balanced : input.Balanced) (inside : rank < input.commSize)
    {final : Nat} (buckets : input.numBuckets = final + 1) (several : 0 < final) :
    input.arrays.lastBucketByRank rank = final ↔ input.Owns rank final := by
  have bounded : final < input.numBuckets := by omega
  rw [← interval_owned balanced inside bounded]
  constructor
  · intro ends
    refine ⟨?_, Nat.le_of_eq ends.symm⟩
    have order := interval_ends balanced inside
    by_cases owner : rank < input.finalScan.ownerRank
    · obtain ⟨first, last⟩ := owner_interval balanced owner
      rw [first, ← ends, last]
      exact ((final_scanned balanced).ordered rank owner).1
    · obtain ⟨-, last⟩ := idle_interval balanced inside (Nat.le_of_not_lt owner)
      omega
  · rintro ⟨above, below⟩
    apply Nat.le_antisymm _ below
    by_cases owner : rank < input.finalScan.ownerRank
    · have ends := last_bucket_bounded balanced owner
      omega
    · obtain ⟨first, last⟩ := idle_interval balanced inside (Nat.le_of_not_lt owner)
      omega

end Owner

/-- The call of `build_bucket_plan` in a problem class. -/
def ProblemClass.planInput (problem : ProblemClass) (commSize myRank : Nat)
    (globalBucketCounts : Nat → Nat) : PlanInput where
  globalBucketCounts := globalBucketCounts
  commSize := commSize
  myRank := myRank
  numBuckets := problem.numBuckets
  bucketShift := problem.bucketShift
  averageKeysPerRank := computeLocalKeyCount problem commSize

theorem local_key_count_positive {problem : ProblemClass} {log : Nat}
    (admitted : isProcessCountInRange problem (2 ^ log) = true) :
    0 < computeLocalKeyCount problem (2 ^ log) := by
  obtain ⟨count, localCount, -⟩ := local_key_count_power admitted
  rw [localCount]
  exact Nat.two_pow_pos count

theorem class_plan_balanced {problem : ProblemClass} {log : Nat}
    (admitted : isProcessCountInRange problem (2 ^ log) = true) (myRank : Nat)
    {globalBucketCounts : Nat → Nat}
    (total : ∑ bucket ∈ Finset.range problem.numBuckets, globalBucketCounts bucket =
      2 ^ log * computeLocalKeyCount problem (2 ^ log)) :
    (problem.planInput (2 ^ log) myRank globalBucketCounts).Balanced :=
  ⟨local_key_count_positive admitted, total⟩

end IntegerSortLci.Benchmark
