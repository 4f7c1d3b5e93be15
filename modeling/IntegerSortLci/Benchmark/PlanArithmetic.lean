import IntegerSortLci.Benchmark.BucketOwners
import IntegerSortLci.Benchmark.LoadBalance

/-!
# The machine arithmetic of the bucket plan

`build_bucket_plan` and the width that `compute_local_ranks` starts with, as the list of
the values that their integer operations produce, each with the type that holds it.

The running sums and the quotas stay within the total of the keys and one more quota, and
the load balance bounds the keys of an interval. The key bounds are at the edge: in class
E the end of the last bucket is `2 ^ 31`, one above the largest `int`, before one is
subtracted.
-/

namespace IntegerSortLci.Benchmark

open IntegerSortLci.Foundations
open scoped BigOperators

set_option autoImplicit false

structure TypedValue where
  type : IntegerType
  value : Int

def TypedValue.Representable (typed : TypedValue) : Prop := typed.type.Holds typed.value

namespace PlanInput

variable (keyRank : IntegerType) (input : PlanInput) (arrays : PlanArrays)

/-- The loop body for `bucket`: the running sum, the next owner and the quota, and what
the end of an interval computes. -/
def bucketValues (bucket : Nat) : List TypedValue :=
  let state := input.assignBuckets arrays bucket
  let accumulated := state.bucketSumAccumulator + input.globalBucketCounts bucket
  let received := (accumulated : Int) - state.previousBucketSumAccumulator
  [⟨keyRank, accumulated⟩, ⟨.int, (state.ownerRank + 1 : Nat)⟩,
    ⟨keyRank, ((state.ownerRank + 1) * input.averageKeysPerRank : Nat)⟩] ++
  if (state.ownerRank + 1) * input.averageKeysPerRank ≤ accumulated then
    (if state.ownerRank = input.myRank then [⟨keyRank, received⟩, ⟨.int, received⟩] else []) ++
    (if state.ownerRank ≠ 0 then
      [⟨.int, (state.lastBucketByRank (state.ownerRank - 1) + 1 : Nat)⟩]
    else [])
  else []

/-- Adding up the buckets from `first` to `last` onto `start`. -/
def intervalSums (type : IntegerType) (start first last : Nat) : List TypedValue :=
  (List.range' first (last + 1 - first)).map fun bucket =>
    ⟨type, (start + input.sumBuckets first bucket : Nat)⟩

/-- The two key bounds. -/
def boundValues (first last : Nat) : List TypedValue :=
  [⟨.int, (first <<< input.bucketShift : Nat)⟩, ⟨.int, (last + 1 : Nat)⟩,
    ⟨.int, ((last + 1) <<< input.bucketShift : Nat)⟩,
    ⟨.int, (((last + 1) <<< input.bucketShift : Nat) : Int) - 1⟩]

/-- `lesser_key_count` as its loops add it up. -/
def lesserValues : List TypedValue :=
  let planned := input.planArrays arrays
  (List.range input.myRank).flatMap fun rank =>
    input.intervalSums keyRank
      (∑ lower ∈ Finset.range rank,
        input.sumBuckets (planned.firstBucketByRank lower) (planned.lastBucketByRank lower))
      (planned.firstBucketByRank rank) (planned.lastBucketByRank rank)

/-- `max_key_value - min_key_value + 1` in `compute_local_ranks`. -/
def rangeValues (plan : BucketPlan) : List TypedValue :=
  [⟨.int, (plan.maxKeyValue : Int) - plan.minKeyValue⟩,
    ⟨.int, (plan.maxKeyValue : Int) - plan.minKeyValue + 1⟩]

/-- The fields of the returned plan. -/
def planFields (plan : BucketPlan) : List TypedValue :=
  [⟨.int, plan.expectedRecvCount⟩, ⟨.int, plan.minKeyValue⟩, ⟨.int, plan.maxKeyValue⟩,
    ⟨keyRank, plan.lesserKeyCount⟩, ⟨.int, plan.localKeyCount⟩]

/-- Every value that `build_bucket_plan` computes, and the width in
`compute_local_ranks`. -/
def planValues : List TypedValue :=
  let planned := input.planArrays arrays
  let first := planned.firstBucketByRank input.myRank
  let last := planned.lastBucketByRank input.myRank
  (List.range input.numBuckets).flatMap (input.bucketValues keyRank arrays) ++
    (input.boundValues first last ++
      (input.lesserValues keyRank arrays ++
        (input.intervalSums .int 0 first last ++
          (planFields keyRank (input.buildBucketPlan arrays).2 ++
            rangeValues (input.buildBucketPlan arrays).2))))

end PlanInput

/-! ## Bounds -/

section Bounds

variable {input : PlanInput} {count rank most : Nat} {state : PlanState}

/-- The keys of an interval that ends at `count`. -/
theorem closing_below (balanced : input.Balanced) (scanned : Scanned input count state)
    (bounded : input.globalBucketCounts count ≤ most) :
    input.prefixSum (count + 1) <
      input.prefixSum (state.cut state.ownerRank) + input.averageKeysPerRank + most := by
  have average := balanced.average
  rw [prefix_sum_succ]
  rcases Nat.lt_or_eq_of_le scanned.current with opened | same
  · have short := scanned.short (count - 1) (by omega) (by omega)
    have filled : state.ownerRank * input.averageKeysPerRank ≤
        input.prefixSum (state.cut state.ownerRank) := by
      cases owners : state.ownerRank with
      | zero =>
          rw [Nat.zero_mul]
          exact Nat.zero_le _
      | succ previous =>
          rw [cut_succ]
          exact scanned.filled previous (by omega)
    rw [Nat.sub_add_cancel (by omega), Nat.succ_mul] at short
    omega
  · rw [same]
    omega

theorem largest_le (bounded : ∀ bucket < input.numBuckets, input.globalBucketCounts bucket ≤ most) :
    input.largestBucket ≤ most := by
  have counts : ∀ count ∈ (List.range input.numBuckets).map input.globalBucketCounts,
      count ≤ most := by
    intro count listed
    obtain ⟨bucket, inside, rfl⟩ := List.mem_map.mp listed
    exact bounded bucket (List.mem_range.mp inside)
  unfold PlanInput.largestBucket
  generalize (List.range input.numBuckets).map input.globalBucketCounts = list at counts ⊢
  induction list with
  | nil => exact Nat.zero_le _
  | cons first rest ih =>
      exact Nat.max_le.mpr ⟨counts first List.mem_cons_self,
        ih fun count listed => counts count (List.mem_cons_of_mem _ listed)⟩

theorem sum_buckets_mono (input : PlanInput) {first last bucket : Nat} (inside : bucket ≤ last) :
    input.sumBuckets first bucket ≤ input.sumBuckets first last :=
  Finset.sum_le_sum_of_subset (Finset.Icc_subset_Icc_right inside)

/-- The partial sums of an interval are at most the whole. -/
theorem interval_sums_mem {type : IntegerType} {start first last : Nat} {typed : TypedValue}
    (listed : typed ∈ input.intervalSums type start first last) :
    ∃ sum ≤ input.sumBuckets first last, typed = ⟨type, (start + sum : Nat)⟩ := by
  obtain ⟨bucket, inside, rfl⟩ := List.mem_map.mp listed
  have range := List.mem_range'_1.mp inside
  exact ⟨input.sumBuckets first bucket, sum_buckets_mono input (by omega), rfl⟩

/-- The intervals up to `rank` hold no more than all keys. -/
theorem interval_sums_total (balanced : input.Balanced) (inside : rank < input.commSize) :
    ∑ lower ∈ Finset.range (rank + 1), input.sumBuckets (input.arrays.firstBucketByRank lower)
        (input.arrays.lastBucketByRank lower) ≤ input.prefixSum input.numBuckets := by
  have owned : ∀ lower < input.commSize,
      input.sumBuckets (input.arrays.firstBucketByRank lower)
          (input.arrays.lastBucketByRank lower) =
        ∑ bucket ∈ Finset.range input.numBuckets,
          if input.arrays.bucketToRank bucket = lower then input.globalBucketCounts bucket
          else 0 :=
    fun lower participant => sum_buckets_routed balanced participant
  calc ∑ lower ∈ Finset.range (rank + 1), input.sumBuckets (input.arrays.firstBucketByRank lower)
        (input.arrays.lastBucketByRank lower)
      = ∑ lower ∈ Finset.range (rank + 1), ∑ bucket ∈ Finset.range input.numBuckets,
          if input.arrays.bucketToRank bucket = lower then input.globalBucketCounts bucket
          else 0 := by
        apply Finset.sum_congr rfl
        intro lower member
        have less := Finset.mem_range.mp member
        exact owned lower (by omega)
    _ = ∑ bucket ∈ Finset.range input.numBuckets,
          if input.arrays.bucketToRank bucket < rank + 1 then input.globalBucketCounts bucket
          else 0 := by
        rw [Finset.sum_comm]
        apply Finset.sum_congr rfl
        intro bucket _
        rw [Finset.sum_ite_eq]
        simp only [Finset.mem_range]
    _ ≤ input.prefixSum input.numBuckets := by
        apply Finset.sum_le_sum
        intro bucket _
        split
        · exact Nat.le_refl _
        · exact Nat.zero_le _

end Bounds

section Classes

variable {problem : ProblemClass} {log : Nat}

theorem local_key_count_le (admitted : isProcessCountInRange problem (2 ^ log) = true) :
    computeLocalKeyCount problem (2 ^ log) ≤ problem.totalKeys := by
  have range := of_decide_eq_true admitted
  calc computeLocalKeyCount problem (2 ^ log)
      ≤ problem.totalKeys / 2 ^ log * 2 ^ log := Nat.mul_le_mul_left _ range.1
    _ ≤ problem.totalKeys := Nat.div_mul_le_self _ _

theorem total_keys_le (problem : ProblemClass) : problem.totalKeys ≤ 536870912 := by
  cases problem <;> decide

theorem max_procs_le (problem : ProblemClass) : problem.maxProcs ≤ 1024 := by
  cases problem <;> decide

/-- `KeyRank` holds everything up to one quota above the total. -/
theorem key_rank_holds (admitted : isProcessCountInRange problem (2 ^ log) = true) {value : Nat}
    (bounded : value ≤ 2 ^ log * computeLocalKeyCount problem (2 ^ log) +
      computeLocalKeyCount problem (2 ^ log)) :
    problem.keyRankType.Holds value := by
  obtain ⟨count, localCount, total⟩ := local_key_count_power admitted
  have average := local_key_count_le admitted
  rw [localCount] at bounded average
  rw [total] at bounded
  generalize 2 ^ count = average at *
  cases problem
  case D | E =>
    have long : value ≤ 34359738368 + 536870912 := by
      refine bounded.trans (Nat.add_le_add ?_ average)
      decide
    exact ⟨by omega, by omega⟩
  all_goals
    have int : value ≤ 134217728 + 134217728 := by
      refine bounded.trans (Nat.add_le_add ?_ (average.trans ?_))
      all_goals decide
    exact ⟨by omega, by omega⟩

end Classes

/-- What the problem classes have in common: the sizes that the arithmetic relies on. -/
structure PlanSized (keyRank : IntegerType) (input : PlanInput) : Prop where
  balanced : input.Balanced
  ranks : input.commSize ≤ 1024
  average : input.averageKeysPerRank ≤ 536870912
  sums : ∀ value ≤ input.commSize * input.averageKeysPerRank + input.averageKeysPerRank,
    keyRank.Holds (value : Nat)
  counts : ∀ bucket < input.numBuckets, input.globalBucketCounts bucket ≤ 1073741824
  buckets : 1 < input.numBuckets ∧ input.numBuckets ≤ 1024
  keys : input.numBuckets * 2 ^ input.bucketShift ≤ 2147483648

theorem fits_int_of_le {value : Nat} (bounded : value ≤ 2147483647) : FitsInt value :=
  ⟨by omega, by omega⟩

theorem le_of_fits_int {value : Nat} (fits : FitsInt value) : value ≤ 2147483647 := by
  have greatest := fits.2
  omega

theorem fits_int_sub {first second : Nat} (firstBounded : first ≤ 2147483647)
    (secondBounded : second ≤ 2147483647) : FitsInt ((first : Int) - second) :=
  ⟨by omega, by omega⟩

section Values

variable {keyRank : IntegerType} {input : PlanInput} {rank bucket : Nat} {typed : TypedValue}

theorem PlanSized.prefix_holds (sized : PlanSized keyRank input) {value : Nat}
    (bounded : value ≤ input.prefixSum input.numBuckets) : keyRank.Holds value := by
  apply sized.sums
  rw [sized.balanced.total] at bounded
  omega

/-- Every value of the loop over the buckets can be represented. -/
theorem bucket_values_representable (sized : PlanSized keyRank input)
    (inside : bucket < input.numBuckets)
    (listed : typed ∈ input.bucketValues keyRank clearedArrays bucket) : typed.Representable := by
  have scanned := assign_buckets_scanned sized.balanced bucket (Nat.le_of_lt inside)
  have accumulated : (input.assignBuckets clearedArrays bucket).bucketSumAccumulator +
      input.globalBucketCounts bucket = input.prefixSum (bucket + 1) := by
    rw [scanned.accumulated, prefix_sum_succ]
  have below : input.prefixSum (bucket + 1) ≤ input.prefixSum input.numBuckets :=
    prefix_sum_mono input inside
  have closing := closing_below sized.balanced scanned (sized.counts bucket inside)
  have before : input.prefixSum ((input.assignBuckets clearedArrays bucket).cut
      (input.assignBuckets clearedArrays bucket).ownerRank) ≤ input.prefixSum (bucket + 1) :=
    prefix_sum_mono input (Nat.le_succ_of_le scanned.current)
  have difference : ((input.prefixSum (bucket + 1) : Nat) : Int) -
      input.prefixSum ((input.assignBuckets clearedArrays bucket).cut
        (input.assignBuckets clearedArrays bucket).ownerRank) =
      ((input.prefixSum (bucket + 1) - input.prefixSum
        ((input.assignBuckets clearedArrays bucket).cut
          (input.assignBuckets clearedArrays bucket).ownerRank) : Nat) : Int) :=
    (Int.ofNat_sub before).symm
  have average := sized.average
  have ranks := sized.ranks
  have owner := scanned.bounded
  have quota : ((input.assignBuckets clearedArrays bucket).ownerRank + 1) *
      input.averageKeysPerRank ≤
        input.commSize * input.averageKeysPerRank + input.averageKeysPerRank := by
    rw [Nat.succ_mul]
    exact Nat.add_le_add_right (Nat.mul_le_mul_right _ owner) _
  unfold PlanInput.bucketValues at listed
  dsimp only at listed
  rw [accumulated, scanned.previous, difference] at listed
  simp only [List.mem_append, List.mem_cons, List.not_mem_nil, or_false] at listed
  rcases listed with (rfl | rfl | rfl) | closes
  · exact sized.prefix_holds below
  · exact fits_int_of_le (by omega)
  · exact sized.sums _ quota
  · split at closes
    case isFalse => exact absurd closes List.not_mem_nil
    case isTrue filled =>
      rcases List.mem_append.mp closes with received | next
      · split at received
        case isFalse => exact absurd received List.not_mem_nil
        case isTrue =>
          simp only [List.mem_cons, List.not_mem_nil, or_false] at received
          rcases received with rfl | rfl
          · exact sized.prefix_holds (by omega)
          · exact fits_int_of_le (by omega)
      · split at next
        case isFalse => exact absurd next List.not_mem_nil
        case isTrue some =>
          simp only [List.mem_cons, List.not_mem_nil, or_false] at next
          subst next
          have ends := (scanned.ordered ((input.assignBuckets clearedArrays bucket).ownerRank - 1)
            (by omega)).2
          have few := sized.buckets.2
          exact fits_int_of_le (by omega)

/-- The keys of one interval, and of the intervals before it. -/
theorem interval_representable (sized : PlanSized keyRank input) (inside : rank < input.commSize)
    {sum : Nat} (bounded : sum ≤ input.sumBuckets (input.arrays.firstBucketByRank rank)
      (input.arrays.lastBucketByRank rank)) :
    FitsInt sum := by
  have below := interval_below sized.balanced inside
  have largest := largest_le sized.counts
  have average := sized.average
  exact fits_int_of_le (by omega)

theorem lesser_values_representable (sized : PlanSized keyRank input)
    (inside : input.myRank < input.commSize)
    (listed : typed ∈ input.lesserValues keyRank clearedArrays) : typed.Representable := by
  obtain ⟨rank, member, summed⟩ := List.mem_flatMap.mp listed
  have less := List.mem_range.mp member
  obtain ⟨sum, partialSum, rfl⟩ := interval_sums_mem summed
  have total := interval_sums_total sized.balanced (less.trans inside)
  rw [Finset.sum_range_succ] at total
  exact sized.prefix_holds ((Nat.add_le_add_left partialSum _).trans total)

theorem interval_inside (sized : PlanSized keyRank input) (inside : rank < input.commSize) :
    input.arrays.firstBucketByRank rank < input.numBuckets ∧
      input.arrays.lastBucketByRank rank < input.numBuckets := by
  have buckets := sized.buckets.1
  by_cases owner : rank < input.finalScan.ownerRank
  · have last := last_bucket_bounded sized.balanced owner
    have order := ((final_scanned sized.balanced).ordered rank owner).1
    obtain ⟨first, same⟩ := owner_interval sized.balanced owner
    omega
  · obtain ⟨first, last⟩ := idle_interval sized.balanced inside (Nat.le_of_not_lt owner)
    omega

theorem least_key_bounded (sized : PlanSized keyRank input) (inside : rank < input.commSize) :
    input.arrays.firstBucketByRank rank <<< input.bucketShift ≤ 2147483647 := by
  obtain ⟨first, -⟩ := interval_inside sized inside
  have power : 0 < 2 ^ input.bucketShift := Nat.two_pow_pos _
  have step : (input.arrays.firstBucketByRank rank + 1) * 2 ^ input.bucketShift ≤ 2147483648 :=
    (Nat.mul_le_mul_right _ first).trans sized.keys
  rw [Nat.succ_mul] at step
  rw [Nat.shiftLeft_eq]
  omega

/-- Only the end of the last interval can be too large for the key bounds. -/
theorem bound_values_representable (sized : PlanSized keyRank input)
    (inside : rank < input.commSize)
    (ends : (input.arrays.lastBucketByRank rank + 1) <<< input.bucketShift ≤ 2147483647)
    (listed : typed ∈ input.boundValues (input.arrays.firstBucketByRank rank)
      (input.arrays.lastBucketByRank rank)) : typed.Representable := by
  obtain ⟨-, last⟩ := interval_inside sized inside
  have few := sized.buckets.2
  have least := least_key_bounded sized inside
  unfold PlanInput.boundValues at listed
  simp only [List.mem_cons, List.not_mem_nil, or_false] at listed
  rcases listed with rfl | rfl | rfl | rfl
  · exact fits_int_of_le least
  · exact fits_int_of_le (by omega)
  · exact fits_int_of_le ends
  · exact fits_int_sub ends (by decide : 1 ≤ 2147483647)

theorem plan_fields_representable (sized : PlanSized keyRank input)
    (inside : input.myRank < input.commSize)
    (ends : (input.arrays.lastBucketByRank input.myRank + 1) <<< input.bucketShift ≤ 2147483647)
    (listed : typed ∈ PlanInput.planFields keyRank (input.buildBucketPlan clearedArrays).2 ++
      PlanInput.rangeValues (input.buildBucketPlan clearedArrays).2) :
    typed.Representable := by
  have expected : (input.buildBucketPlan clearedArrays).2.expectedRecvCount =
      input.sumBuckets (input.arrays.firstBucketByRank input.myRank)
        (input.arrays.lastBucketByRank input.myRank) :=
    expected_recv_count sized.balanced inside
  have least : (input.buildBucketPlan clearedArrays).2.minKeyValue ≤ 2147483647 :=
    least_key_bounded sized inside
  have greatest : (input.buildBucketPlan clearedArrays).2.maxKeyValue + 1 =
      (input.arrays.lastBucketByRank input.myRank + 1) <<< input.bucketShift := by
    apply Nat.sub_add_cancel
    change 0 < (input.arrays.lastBucketByRank input.myRank + 1) <<< input.bucketShift
    rw [Nat.shiftLeft_eq]
    exact Nat.mul_pos (Nat.succ_pos _) (Nat.two_pow_pos _)
  have localKeys : (input.buildBucketPlan clearedArrays).2.localKeyCount =
      input.sumBuckets (input.arrays.firstBucketByRank input.myRank)
        (input.arrays.lastBucketByRank input.myRank) := rfl
  have total := interval_sums_total sized.balanced inside
  rw [Finset.sum_range_succ] at total
  have lesser : (input.buildBucketPlan clearedArrays).2.lesserKeyCount ≤
      input.prefixSum input.numBuckets := (Nat.le_add_right _ _).trans total
  rw [← greatest] at ends
  generalize (input.buildBucketPlan clearedArrays).2 = plan at *
  have width : (plan.maxKeyValue : Int) - plan.minKeyValue + 1 =
      ((plan.maxKeyValue + 1 : Nat) : Int) - plan.minKeyValue := by
    push_cast
    omega
  unfold PlanInput.planFields PlanInput.rangeValues at listed
  rw [width] at listed
  simp only [List.mem_append, List.mem_cons, List.not_mem_nil, or_false] at listed
  rcases listed with (rfl | rfl | rfl | rfl | rfl) | rfl | rfl
  · exact interval_representable sized inside expected.le
  · exact fits_int_of_le least
  · exact fits_int_of_le (by omega)
  · exact sized.prefix_holds lesser
  · exact interval_representable sized inside localKeys.le
  · exact fits_int_sub (by omega) least
  · exact fits_int_sub ends least

/-- Everything can be represented when the end of the rank's interval can. -/
theorem plan_values_representable (sized : PlanSized keyRank input)
    (inside : input.myRank < input.commSize)
    (ends : (input.arrays.lastBucketByRank input.myRank + 1) <<< input.bucketShift ≤ 2147483647)
    (listed : typed ∈ input.planValues keyRank clearedArrays) : typed.Representable := by
  rcases List.mem_append.mp listed with looped | listed
  · obtain ⟨bucket, member, found⟩ := List.mem_flatMap.mp looped
    exact bucket_values_representable sized (List.mem_range.mp member) found
  rcases List.mem_append.mp listed with bounds | listed
  · exact bound_values_representable sized inside ends bounds
  rcases List.mem_append.mp listed with lesser | listed
  · exact lesser_values_representable sized inside lesser
  rcases List.mem_append.mp listed with summed | fields
  · obtain ⟨sum, partialSum, rfl⟩ := interval_sums_mem summed
    rw [Nat.zero_add]
    exact interval_representable sized inside partialSum
  · exact plan_fields_representable sized inside ends fields

theorem shifted_end_listed (input : PlanInput) :
    (⟨.int, ((input.arrays.lastBucketByRank input.myRank + 1) <<< input.bucketShift : Nat)⟩ :
      TypedValue) ∈ input.planValues keyRank clearedArrays := by
  refine List.mem_append_right _ (List.mem_append_left _ ?_)
  unfold PlanInput.boundValues
  simp only [List.mem_cons]
  exact .inr (.inr (.inl rfl))

end Values

section ProblemClasses

variable {problem : ProblemClass} {log myRank : Nat} {globalBucketCounts : Nat → Nat}

theorem num_buckets_range (problem : ProblemClass) :
    1 < problem.numBuckets ∧ problem.numBuckets ≤ 1024 := by
  cases problem <;> decide

theorem buckets_cover_keys (problem : ProblemClass) :
    problem.numBuckets * 2 ^ problem.bucketShift = problem.maxKey := by
  cases problem <;> decide

theorem max_key_le (problem : ProblemClass) :
    problem.maxKey ≤ 2147483648 ∧ (problem ≠ .E → problem.maxKey ≤ 134217728) := by
  cases problem <;> decide

theorem class_plan_sized (admitted : isProcessCountInRange problem (2 ^ log) = true)
    (total : ∑ bucket ∈ Finset.range problem.numBuckets, globalBucketCounts bucket =
      2 ^ log * computeLocalKeyCount problem (2 ^ log))
    (counts : ∀ bucket < problem.numBuckets, globalBucketCounts bucket ≤ 2 ^ 30) (myRank : Nat) :
    PlanSized problem.keyRankType (problem.planInput (2 ^ log) myRank globalBucketCounts) where
  balanced := class_plan_balanced admitted myRank total
  ranks := (of_decide_eq_true admitted).2.trans (max_procs_le problem)
  average := (local_key_count_le admitted).trans (total_keys_le problem)
  sums := fun _ bounded => key_rank_holds admitted bounded
  counts := counts
  buckets := num_buckets_range problem
  keys := (buckets_cover_keys problem).le.trans (max_key_le problem).1

/-- The end of the last bucket is `MAX_KEY`, which is one too many for an `int` in
class E. -/
theorem shifted_end_fits (admitted : isProcessCountInRange problem (2 ^ log) = true)
    (total : ∑ bucket ∈ Finset.range problem.numBuckets, globalBucketCounts bucket =
      2 ^ log * computeLocalKeyCount problem (2 ^ log))
    (counts : ∀ bucket < problem.numBuckets, globalBucketCounts bucket ≤ 2 ^ 30)
    (inside : myRank < 2 ^ log) :
    ((problem.planInput (2 ^ log) myRank globalBucketCounts).arrays.lastBucketByRank myRank + 1) <<<
        problem.bucketShift ≤ 2147483647 ↔
      (problem = .E →
        ¬(problem.planInput (2 ^ log) myRank globalBucketCounts).Owns myRank 1023) := by
  have sized := class_plan_sized admitted total counts myRank
  have last := (interval_inside sized inside).2
  rw [Nat.shiftLeft_eq]
  by_cases largest : problem = .E
  · subst largest
    have owns := last_bucket_iff sized.balanced inside (show _ = 1023 + 1 from rfl) (by decide)
    change _ < 1024 at last
    change _ * 2097152 ≤ _ ↔ _
    rw [← owns]
    constructor
    · intro fits _ ends
      rw [ends] at fits
      exact absurd fits (by decide)
    · intro earlier
      have different := earlier rfl
      omega
  · have keys := (max_key_le problem).2 largest
    rw [← buckets_cover_keys] at keys
    have ends : _ * 2 ^ problem.bucketShift ≤ problem.numBuckets * 2 ^ problem.bucketShift :=
      Nat.mul_le_mul_right _ (Nat.succ_le_of_lt last)
    exact iff_of_true (ends.trans (keys.trans (by decide))) fun same => absurd same largest

theorem representable_end
    (representable : ∀ typed ∈ (problem.planInput (2 ^ log) myRank globalBucketCounts).planValues
      problem.keyRankType clearedArrays, typed.Representable) :
    ((problem.planInput (2 ^ log) myRank globalBucketCounts).arrays.lastBucketByRank myRank + 1) <<<
        problem.bucketShift ≤ 2147483647 :=
  le_of_fits_int (representable _ (shifted_end_listed _))

/-- The plan's arithmetic stays within its types, except on the rank of class E that the
bucket counts give the last bucket. -/
theorem plan_arithmetic_iff (problem : ProblemClass) (log myRank : Nat)
    (globalBucketCounts : Nat → Nat)
    (admitted : isProcessCountInRange problem (2 ^ log) = true)
    (total : ∑ bucket ∈ Finset.range problem.numBuckets, globalBucketCounts bucket =
      2 ^ log * computeLocalKeyCount problem (2 ^ log))
    (counts : ∀ bucket < problem.numBuckets, globalBucketCounts bucket ≤ 2 ^ 30)
    (inside : myRank < 2 ^ log) :
    (∀ typed ∈ (problem.planInput (2 ^ log) myRank globalBucketCounts).planValues
        problem.keyRankType clearedArrays, typed.Representable) ↔
      ¬(problem = .E ∧
        (problem.planInput (2 ^ log) myRank globalBucketCounts).Owns myRank 1023) := by
  have sized := class_plan_sized admitted total counts myRank
  have ends := shifted_end_fits admitted total counts inside
  rw [not_and, ← ends]
  constructor
  · exact representable_end
  · intro fits typed listed
    exact plan_values_representable sized inside fits listed

/-- Keys that are spread evenly over the buckets of class E. -/
def evenKeys (_ : Nat) : Nat := 2 ^ 25

theorem even_keys_sum (commSize myRank count : Nat) :
    (ProblemClass.E.planInput commSize myRank evenKeys).prefixSum count = count * 2 ^ 25 := by
  have each : ∀ bucket ∈ Finset.range count, evenKeys bucket = 2 ^ 25 := fun _ _ => rfl
  exact (Finset.sum_const_nat each).trans (by rw [Finset.card_range])

theorem even_keys_total : ∑ bucket ∈ Finset.range ProblemClass.E.numBuckets, evenKeys bucket =
    2 ^ 6 * computeLocalKeyCount .E (2 ^ 6) :=
  even_keys_sum (2 ^ 6) 0 1024

theorem even_keys_small (bucket : Nat) (_ : bucket < ProblemClass.E.numBuckets) :
    evenKeys bucket ≤ 2 ^ 30 :=
  Nat.pow_le_pow_right (by decide) (by decide)

theorem even_keys_served (myRank bucket count : Nat) (quotas : count * 16 ≤ bucket) :
    (ProblemClass.E.planInput (2 ^ 6) myRank evenKeys).QuotasServed bucket count := by
  intro back inside
  rw [even_keys_sum]
  change (count - back) * 2 ^ 29 ≤ (bucket - back) * 2 ^ 25
  omega

/-- The first of 64 ranks of class E. -/
theorem even_keys_first_rank :
    ¬(ProblemClass.E.planInput (2 ^ 6) 0 evenKeys).Owns 0 1023 ∧
      ∀ typed ∈ (ProblemClass.E.planInput (2 ^ 6) 0 evenKeys).planValues
        ProblemClass.E.keyRankType clearedArrays, typed.Representable := by
  have other : ¬(ProblemClass.E.planInput (2 ^ 6) 0 evenKeys).Owns 0 1023 := by
    rintro ⟨-, unserved⟩
    exact unserved (even_keys_served 0 1023 1 (by decide))
  refine ⟨other, (plan_arithmetic_iff .E 6 0 evenKeys (by decide) even_keys_total even_keys_small
    (by decide)).mpr ?_⟩
  rintro ⟨-, owns⟩
  exact other owns

/-- The last of them, whose interval ends at the last bucket. -/
theorem even_keys_last_rank_overflows :
    ¬∀ typed ∈ (ProblemClass.E.planInput (2 ^ 6) 63 evenKeys).planValues
      ProblemClass.E.keyRankType clearedArrays, typed.Representable := by
  intro representable
  have ends := (shifted_end_fits (by decide) even_keys_total even_keys_small
    (show 63 < 2 ^ 6 by decide)).mp (representable_end representable) rfl
  refine ends ⟨even_keys_served 63 1023 63 (by decide), ?_⟩
  intro served
  have last := served 0 (by decide)
  rw [even_keys_sum] at last
  exact absurd last (by decide)

end ProblemClasses

end IntegerSortLci.Benchmark
