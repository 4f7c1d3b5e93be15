import IntegerSortLci.Benchmark.BucketPlan
import Mathlib.Algebra.BigOperators.Ring.Finset
import Mathlib.Data.Fintype.BigOperators

/-!
# Where the plan sends the keys

The key arrays of all ranks in one iteration, their bucket histogram, and the plan
that each rank computes from it. The plan's sums over buckets are counts of keys:
a rank expects as many keys as the routing table sends to it, its interval of key
values holds exactly the keys routed to it, and the keys below that interval are
the lesser ones.
-/

namespace IntegerSortLci.Benchmark

open scoped BigOperators

set_option autoImplicit false

/-- The key arrays of one iteration. -/
structure KeySet (commSize : Nat) where
  keys : Fin commSize → List Nat
  localKeyCount : Nat
  numBuckets : Nat
  bucketShift : Nat
  length_eq : ∀ rank, (keys rank).length = localKeyCount
  positive : 0 < localKeyCount
  in_range : ∀ rank, ∀ key ∈ keys rank, key < numBuckets * 2 ^ bucketShift

namespace KeySet

variable {commSize : Nat} (set : KeySet commSize)

/-- `key >> bucket_shift`. -/
def bucketOf (key : Nat) : Nat := key >>> set.bucketShift

/-- The keys over all ranks that satisfy a test. -/
def countKeys (test : Nat → Bool) : Nat := ∑ rank, (set.keys rank).countP test

/-- How often a key occurs in all arrays. -/
def occurrences (key : Nat) : Nat := ∑ rank, (set.keys rank).count key

/-- A rank's keys in a bucket. -/
def localHistogram (rank : Fin commSize) (bucket : Nat) : Nat :=
  (set.keys rank).countP fun key => set.bucketOf key == bucket

/-- The global bucket counts. -/
def histogram (bucket : Nat) : Nat := set.countKeys fun key => set.bucketOf key == bucket

def planInput (myRank : Nat) : PlanInput where
  globalBucketCounts := set.histogram
  commSize := commSize
  myRank := myRank
  numBuckets := set.numBuckets
  bucketShift := set.bucketShift
  averageKeysPerRank := set.localKeyCount

/-- The plan of `myRank`, computed into cleared arrays. -/
def plan (myRank : Nat) : BucketPlan := ((set.planInput myRank).buildBucketPlan clearedArrays).2

/-- The routing table, which is the same on every rank. -/
def bucketToRank : Nat → Nat := (set.planInput 0).arrays.bucketToRank

/-- `route_key`. -/
def routeKey (key : Nat) : Nat := set.bucketToRank (set.bucketOf key)

end KeySet

section Routing

variable {commSize : Nat} {set : KeySet commSize} {rank key bucket : Nat}

theorem arrays_of_rank (set : KeySet commSize) (rank : Nat) :
    (set.planInput rank).arrays = (set.planInput 0).arrays :=
  arrays_same (set.planInput 0) rank

theorem bucket_bounded {rank : Fin commSize} (member : key ∈ set.keys rank) :
    set.bucketOf key < set.numBuckets := by
  unfold KeySet.bucketOf
  rw [Nat.shiftRight_eq_div_pow]
  exact Nat.div_lt_of_lt_mul (by
    rw [Nat.mul_comm]
    exact set.in_range rank key member)

/-- Counting keys bucket by bucket. -/
private theorem count_by_bucket (test : Nat → Bool) (bound : Nat) (bucketOf : Nat → Nat)
    (keys : List Nat) (inside : ∀ key ∈ keys, bucketOf key < bound) :
    (∑ bucket ∈ Finset.range bound,
      if test bucket then keys.countP (fun key => bucketOf key == bucket) else 0) =
        keys.countP fun key => test (bucketOf key) := by
  induction keys with
  | nil => simp
  | cons key rest ih =>
      have tail := ih fun other member => inside other (List.mem_cons_of_mem _ member)
      have head : (∑ bucket ∈ Finset.range bound,
          if test bucket ∧ bucketOf key = bucket then 1 else 0) =
            if test (bucketOf key) then 1 else 0 := by
        rw [Finset.sum_eq_single (bucketOf key)]
        · simp
        · intro other _ different
          rw [if_neg fun both => different both.2.symm]
        · intro outside
          exact absurd (Finset.mem_range.mpr (inside key List.mem_cons_self)) outside
      rw [List.countP_cons, ← tail, ← head, ← Finset.sum_add_distrib]
      apply Finset.sum_congr rfl
      intro bucket _
      by_cases passes : test bucket = true
      · by_cases same : bucketOf key = bucket
        · simp [passes, same]
        · simp [passes, same]
      · simp [passes]

/-- The buckets that pass a test hold the keys whose bucket passes it. -/
theorem histogram_sum (set : KeySet commSize) (test : Nat → Bool) :
    (∑ bucket ∈ Finset.range set.numBuckets, if test bucket then set.histogram bucket else 0) =
      set.countKeys fun key => test (set.bucketOf key) := by
  unfold KeySet.histogram KeySet.countKeys
  have inner : ∀ bucket, (if test bucket = true then
      ∑ rank, (set.keys rank).countP (fun key => set.bucketOf key == bucket) else 0) =
      ∑ rank, if test bucket = true then
        (set.keys rank).countP (fun key => set.bucketOf key == bucket) else 0 := by
    intro bucket
    split
    · rfl
    · exact Finset.sum_const_zero.symm
  simp only [inner]
  rw [Finset.sum_comm]
  apply Finset.sum_congr rfl
  intro rank _
  exact count_by_bucket test set.numBuckets set.bucketOf (set.keys rank)
    fun key member => bucket_bounded member

theorem count_all (set : KeySet commSize) :
    set.countKeys (fun _ => true) = commSize * set.localKeyCount := by
  unfold KeySet.countKeys
  simp [set.length_eq]

theorem plan_balanced (set : KeySet commSize) (rank : Nat) : (set.planInput rank).Balanced where
  average := set.positive
  total := by
    have sum := histogram_sum set fun _ => true
    simp only [if_true] at sum
    exact sum.trans (count_all set)

theorem key_counted {rank : Fin commSize} (member : key ∈ set.keys rank) :
    0 < set.histogram (set.bucketOf key) := by
  unfold KeySet.histogram KeySet.countKeys
  apply Finset.sum_pos' (fun _ _ => Nat.zero_le _)
  exact ⟨rank, Finset.mem_univ rank, List.countP_pos_iff.mpr ⟨key, member, by simp⟩⟩

/-- Every key goes to an owner, which is a rank. -/
theorem route_owned {rank : Fin commSize} (member : key ∈ set.keys rank) :
    set.routeKey key < (set.planInput 0).finalScan.ownerRank :=
  nonempty_bucket_owned (plan_balanced set 0) (bucket_bounded member) (key_counted member)

theorem route_bounded {rank : Fin commSize} (member : key ∈ set.keys rank) :
    set.routeKey key < commSize :=
  (route_owned member).trans_le (final_scanned (plan_balanced set 0)).bounded

/-- A rank expects the keys that are routed to it. -/
theorem expected_routed (set : KeySet commSize) (inside : rank < commSize) :
    (set.plan rank).expectedRecvCount =
      set.countKeys fun key => set.routeKey key == rank := by
  have balanced := plan_balanced set rank
  have routed := sum_buckets_routed balanced inside
  have expected := expected_recv_count balanced inside
  rw [arrays_of_rank] at routed expected
  have counted := histogram_sum set fun bucket => set.bucketToRank bucket == rank
  simp only [beq_iff_eq] at counted
  exact (expected.trans routed).trans counted

theorem local_routed (set : KeySet commSize) (inside : rank < commSize) :
    (set.plan rank).localKeyCount = set.countKeys fun key => set.routeKey key == rank := by
  have balanced := plan_balanced set rank
  exact (expected_recv_count balanced inside).symm.trans (expected_routed set inside)

/-- A key value lies in a rank's interval when its bucket does. -/
theorem key_interval (set : KeySet commSize) (rank key : Nat) :
    ((set.plan rank).minKeyValue ≤ key ∧ key ≤ (set.plan rank).maxKeyValue) ↔
      (set.planInput 0).arrays.firstBucketByRank rank ≤ set.bucketOf key ∧
        set.bucketOf key ≤ (set.planInput 0).arrays.lastBucketByRank rank := by
  rw [← arrays_of_rank set rank]
  exact value_interval _ _ set.bucketShift key

/-- The ranks that own an interval. -/
def KeySet.Owner (set : KeySet commSize) (rank : Nat) : Prop :=
  rank < (set.planInput 0).finalScan.ownerRank

/-- Every value in a rank's interval is routed to the rank. -/
theorem interval_routed (inside : rank < commSize)
    (between : (set.plan rank).minKeyValue ≤ key ∧ key ≤ (set.plan rank).maxKeyValue) :
    set.Owner rank ∧ set.routeKey key = rank ∧ set.bucketOf key < set.numBuckets := by
  have balanced := plan_balanced set 0
  have buckets := (key_interval set rank key).mp between
  have owner : rank < (set.planInput 0).finalScan.ownerRank := by
    by_contra idle
    obtain ⟨first, last⟩ := idle_interval balanced inside (Nat.le_of_not_lt idle)
    omega
  have last := last_bucket_bounded balanced owner
  have bounded : set.bucketOf key < set.numBuckets := Nat.lt_of_le_of_lt buckets.2 last
  exact ⟨owner, ((interval_iff balanced inside bounded).mp buckets).1, bounded⟩

/-- Every key routed to a rank lies in its interval. -/
theorem routed_interval {holder : Fin commSize} (member : key ∈ set.keys holder) :
    (set.plan (set.routeKey key)).minKeyValue ≤ key ∧
      key ≤ (set.plan (set.routeKey key)).maxKeyValue :=
  (key_interval set (set.routeKey key) key).mpr
    ((interval_iff (plan_balanced set 0) (route_bounded member) (bucket_bounded member)).mpr
      ⟨rfl, route_owned member⟩)

/-- For an owner the lesser keys are the keys below its interval. -/
theorem lesser_keys (owner : set.Owner rank) :
    (set.plan rank).lesserKeyCount =
      set.countKeys fun key => decide (key < (set.plan rank).minKeyValue) := by
  have balanced := plan_balanced set 0
  have arrays := arrays_of_rank set rank
  obtain ⟨first, last⟩ := owner_interval balanced owner
  have order := ((final_scanned balanced).ordered rank owner).1
  have ends := ((final_scanned balanced).ordered rank owner).2
  have lesser : (set.plan rank).lesserKeyCount =
      (set.planInput 0).prefixSum ((set.planInput 0).finalScan.cut rank) := by
    have sum := lesser_sum balanced (Nat.le_of_lt owner)
    rw [← sum, ← arrays]
    rfl
  have counted := histogram_sum set fun bucket =>
    decide (bucket < (set.planInput 0).finalScan.cut rank)
  have low : (set.plan rank).minKeyValue =
      (set.planInput 0).finalScan.cut rank * 2 ^ set.bucketShift := by
    rw [← first, ← arrays, ← Nat.shiftLeft_eq]
    rfl
  rw [lesser, low]
  have below : ∀ key, decide (set.bucketOf key < (set.planInput 0).finalScan.cut rank) =
      decide (key < (set.planInput 0).finalScan.cut rank * 2 ^ set.bucketShift) := by
    intro key
    unfold KeySet.bucketOf
    rw [Nat.shiftRight_eq_div_pow]
    exact decide_eq_decide.mpr (Nat.div_lt_iff_lt_mul (Nat.two_pow_pos _))
  simp only [below, decide_eq_true_eq] at counted
  rw [← counted, ← Finset.sum_filter]
  unfold PlanInput.prefixSum
  apply Finset.sum_congr _ fun _ _ => rfl
  ext bucket
  rw [Finset.mem_filter, Finset.mem_range, Finset.mem_range]
  constructor
  · intro less
    exact ⟨by
      change _ < set.numBuckets at ends
      omega, less⟩
  · rintro ⟨_, less⟩
    exact less

/-- The plan from counts that are right for the buckets that exist. -/
theorem plan_of_counts (set : KeySet commSize) (rank : Fin commSize) {counts : Nat → Nat}
    (agree : ∀ bucket < set.numBuckets, counts bucket = set.histogram bucket) :
    ({ set.planInput rank with globalBucketCounts := counts } : PlanInput).buildBucketPlan
      clearedArrays = ((set.planInput rank).arrays, set.plan rank) :=
  build_bucket_plan_congr (plan_balanced set rank) rank.isLt agree

/-- The occurrences of consecutive key values. -/
theorem occurrences_sum (set : KeySet commSize) (low count : Nat) :
    ∑ i ∈ Finset.range count, set.occurrences (low + i) =
      set.countKeys fun key => decide (low ≤ key ∧ key < low + count) := by
  unfold KeySet.occurrences KeySet.countKeys
  rw [Finset.sum_comm]
  apply Finset.sum_congr rfl
  intro rank _
  induction set.keys rank with
  | nil => simp
  | cons key rest ih =>
      simp only [List.count_cons, List.countP_cons, Finset.sum_add_distrib, ih, beq_iff_eq,
        decide_eq_true_eq]
      congr 1
      by_cases inside : low ≤ key ∧ key < low + count
      · rw [if_pos inside, Finset.sum_eq_single (key - low)]
        · rw [if_pos (by omega)]
        · intro other _ different
          rw [if_neg (by omega)]
        · intro outside
          exact absurd (Finset.mem_range.mpr (by omega)) outside
      · rw [if_neg inside]
        apply Finset.sum_eq_zero
        intro i member
        have less := Finset.mem_range.mp member
        rw [if_neg (by omega)]

/-- The keys below a value, split at a smaller one. -/
theorem count_below_split (set : KeySet commSize) {low high : Nat} (order : low ≤ high) :
    (set.countKeys fun key => decide (key < low)) +
        (set.countKeys fun key => decide (low ≤ key ∧ key < high)) =
      set.countKeys fun key => decide (key < high) := by
  unfold KeySet.countKeys
  rw [← Finset.sum_add_distrib]
  apply Finset.sum_congr rfl
  intro rank _
  induction set.keys rank with
  | nil => rfl
  | cons key rest ih =>
      simp only [List.countP_cons, decide_eq_true_eq]
      rw [← ih]
      split_ifs <;> omega

/-- The lesser keys and the occurrences of the interval's values up to a key are the
keys up to it. -/
theorem lesser_occurrences (inside : rank < commSize)
    (low : (set.plan rank).minKeyValue ≤ key) (high : key ≤ (set.plan rank).maxKeyValue) :
    (set.plan rank).lesserKeyCount +
        ∑ i ∈ Finset.range (key - (set.plan rank).minKeyValue + 1),
          set.occurrences ((set.plan rank).minKeyValue + i) =
      set.countKeys fun other => decide (other ≤ key) := by
  have owner := (interval_routed inside ⟨low, high⟩).1
  have upper : (set.plan rank).minKeyValue + (key - (set.plan rank).minKeyValue + 1) =
      key + 1 := by
    omega
  rw [occurrences_sum, lesser_keys owner, upper, count_below_split _ (by omega)]
  simp only [Nat.lt_succ_iff]

end Routing

end IntegerSortLci.Benchmark
