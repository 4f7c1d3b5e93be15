import IntegerSortLci.Foundations.CountingSort
import Mathlib.Algebra.BigOperators.Intervals
import Mathlib.Algebra.Order.BigOperators.Group.Finset
import Mathlib.Logic.Function.Basic
import Mathlib.Tactic.Ring

/-!
# The bucket plan

`build_bucket_plan`: one pass over the buckets that gives each rank consecutive
buckets until the running sum reaches the rank's quota, an empty interval to the
ranks that are left without a bucket, and the sums that the plan reports. The
arrays are the caller's; `clear_bucket_metadata` has zeroed them.

`KeyCount` and `KeyRank` are taken not to overflow: counts, running sums, quotas and key
bounds are natural numbers here. `PlanArithmetic` says when the machine types hold them.

`Scanned` says what the arrays hold after any number of buckets. The interval of
a rank begins where that of the rank before it ends, so the intervals are given by
the cuts between them.
-/

namespace IntegerSortLci.Benchmark

open IntegerSortLci.Foundations
open scoped BigOperators

set_option autoImplicit false

/-- The arguments of `build_bucket_plan` that it only reads. -/
structure PlanInput where
  globalBucketCounts : Nat → Nat
  commSize : Nat
  myRank : Nat
  numBuckets : Nat
  bucketShift : Nat
  averageKeysPerRank : Nat

/-- The arrays that `build_bucket_plan` fills. -/
structure PlanArrays where
  bucketToRank : Nat → Nat
  firstBucketByRank : Nat → Nat
  lastBucketByRank : Nat → Nat

structure BucketPlan where
  expectedRecvCount : Nat
  minKeyValue : Nat
  maxKeyValue : Nat
  lesserKeyCount : Nat
  localKeyCount : Nat
  deriving DecidableEq, Repr

/-- The locals of the loop over the buckets, with the arrays. -/
structure PlanState extends PlanArrays where
  bucketSumAccumulator : Nat := 0
  expectedRecvCount : Nat := 0
  previousBucketSumAccumulator : Nat := 0
  ownerRank : Nat := 0

/-- The arrays after `clear_bucket_metadata`, which zeroes every entry. -/
def clearedArrays : PlanArrays where
  bucketToRank _ := 0
  firstBucketByRank _ := 0
  lastBucketByRank _ := 0

namespace PlanInput

variable (input : PlanInput)

/-- The loop body for `bucket`. -/
def assignBucket (state : PlanState) (bucket : Nat) : PlanState :=
  let accumulated := state.bucketSumAccumulator + input.globalBucketCounts bucket
  let routed : PlanState :=
    { state with
      bucketSumAccumulator := accumulated
      bucketToRank := Function.update state.bucketToRank bucket state.ownerRank }
  if (state.ownerRank + 1) * input.averageKeysPerRank ≤ accumulated then
    { routed with
      expectedRecvCount :=
        if state.ownerRank = input.myRank then accumulated - state.previousBucketSumAccumulator
        else state.expectedRecvCount
      firstBucketByRank :=
        if state.ownerRank ≠ 0 then
          Function.update state.firstBucketByRank state.ownerRank
            (state.lastBucketByRank (state.ownerRank - 1) + 1)
        else state.firstBucketByRank
      lastBucketByRank := Function.update state.lastBucketByRank state.ownerRank bucket
      ownerRank := state.ownerRank + 1
      previousBucketSumAccumulator := accumulated }
  else routed

/-- The loop after its first `count` buckets. -/
def assignBuckets (arrays : PlanArrays) : Nat → PlanState
  | 0 =>
      { arrays with firstBucketByRank := Function.update arrays.firstBucketByRank 0 0 }
  | bucket + 1 => input.assignBucket (assignBuckets arrays bucket) bucket

/-- The `while` loop over the ranks that got no bucket. -/
def markIdleRanks (firstBucketByRank : Nat → Nat) (ownerRank : Nat) : Nat → Nat :=
  (List.range' ownerRank (input.commSize - ownerRank)).foldl
    (fun first rank => Function.update first rank 1) firstBucketByRank

/-- The arrays when `build_bucket_plan` returns. -/
def planArrays (arrays : PlanArrays) : PlanArrays :=
  let scanned := input.assignBuckets arrays input.numBuckets
  { scanned.toPlanArrays with
    firstBucketByRank := input.markIdleRanks scanned.firstBucketByRank scanned.ownerRank }

/-- The keys of the buckets `first` to `last`. -/
def sumBuckets (first last : Nat) : Nat :=
  ∑ bucket ∈ Finset.Icc first last, input.globalBucketCounts bucket

def buildBucketPlan (arrays : PlanArrays) : PlanArrays × BucketPlan :=
  let planned := input.planArrays arrays
  let first := planned.firstBucketByRank
  let last := planned.lastBucketByRank
  (planned,
    { expectedRecvCount := (input.assignBuckets arrays input.numBuckets).expectedRecvCount
      minKeyValue := first input.myRank <<< input.bucketShift
      maxKeyValue := ((last input.myRank + 1) <<< input.bucketShift) - 1
      lesserKeyCount :=
        ∑ rank ∈ Finset.range input.myRank, input.sumBuckets (first rank) (last rank)
      localKeyCount := input.sumBuckets (first input.myRank) (last input.myRank) })

/-- The keys in the first `count` buckets. -/
def prefixSum (count : Nat) : Nat := ∑ bucket ∈ Finset.range count, input.globalBucketCounts bucket

/-- What the callers promise: every rank brings the same positive number of keys. -/
structure Balanced : Prop where
  average : 0 < input.averageKeysPerRank
  total : input.prefixSum input.numBuckets = input.commSize * input.averageKeysPerRank

end PlanInput

/-- Where the interval of `rank` begins: behind that of the rank before it. -/
def PlanArrays.cut (arrays : PlanArrays) (rank : Nat) : Nat :=
  if rank = 0 then 0 else arrays.lastBucketByRank (rank - 1) + 1

/-- The loop's invariant after `count` buckets: the ranks below the owner have
their intervals, the owner's is open from its cut on. -/
structure Scanned (input : PlanInput) (count : Nat) (state : PlanState) : Prop where
  accumulated : state.bucketSumAccumulator = input.prefixSum count
  previous : state.previousBucketSumAccumulator = input.prefixSum (state.cut state.ownerRank)
  current : state.cut state.ownerRank ≤ count
  bounded : state.ownerRank ≤ input.commSize
  ordered : ∀ rank, rank < state.ownerRank →
    state.cut rank ≤ state.lastBucketByRank rank ∧ state.lastBucketByRank rank < count
  firsts : ∀ rank, rank < state.ownerRank → state.firstBucketByRank rank = state.cut rank
  untouched : ∀ rank, state.ownerRank ≤ rank →
    state.firstBucketByRank rank = 0 ∧ state.lastBucketByRank rank = 0
  routed : ∀ bucket, bucket < count →
    state.bucketToRank bucket ≤ state.ownerRank ∧
      state.cut (state.bucketToRank bucket) ≤ bucket ∧
      (state.bucketToRank bucket < state.ownerRank →
        bucket ≤ state.lastBucketByRank (state.bucketToRank bucket))
  filled : ∀ rank, rank < state.ownerRank →
    (rank + 1) * input.averageKeysPerRank ≤ input.prefixSum (state.lastBucketByRank rank + 1)
  short : ∀ bucket, state.cut state.ownerRank ≤ bucket → bucket < count →
    input.prefixSum (bucket + 1) < (state.ownerRank + 1) * input.averageKeysPerRank
  expected : state.expectedRecvCount =
    if input.myRank < state.ownerRank then
      input.prefixSum (state.lastBucketByRank input.myRank + 1) -
        input.prefixSum (state.cut input.myRank)
    else 0

section Scan

variable {input : PlanInput} {count : Nat} {state : PlanState}

theorem prefix_sum_succ (input : PlanInput) (count : Nat) :
    input.prefixSum (count + 1) = input.prefixSum count + input.globalBucketCounts count :=
  Finset.sum_range_succ _ _

theorem prefix_sum_mono (input : PlanInput) {first second : Nat} (le : first ≤ second) :
    input.prefixSum first ≤ input.prefixSum second :=
  Finset.sum_le_sum_of_subset (Finset.range_mono le)

/-- Every bucket is added to the running sum, and goes to the owner of that time, -/
theorem assign_bucket_sum (input : PlanInput) (state : PlanState) (bucket : Nat) :
    (input.assignBucket state bucket).bucketSumAccumulator =
      state.bucketSumAccumulator + input.globalBucketCounts bucket := by
  unfold PlanInput.assignBucket
  dsimp only
  split <;> rfl

theorem assign_bucket_table (input : PlanInput) (state : PlanState) (bucket : Nat) :
    (input.assignBucket state bucket).bucketToRank =
      Function.update state.bucketToRank bucket state.ownerRank := by
  unfold PlanInput.assignBucket
  dsimp only
  split <;> rfl

/-- who moves by one at most. -/
theorem assign_bucket_owner (input : PlanInput) (state : PlanState) (bucket : Nat) :
    (input.assignBucket state bucket).ownerRank = state.ownerRank ∨
      (input.assignBucket state bucket).ownerRank = state.ownerRank + 1 := by
  unfold PlanInput.assignBucket
  dsimp only
  split
  · exact .inr rfl
  · exact .inl rfl

theorem scanned_start : Scanned input 0 (input.assignBuckets clearedArrays 0) := by
  constructor <;>
    simp [PlanInput.assignBuckets, clearedArrays, PlanArrays.cut, PlanInput.prefixSum]

/-- A bucket that leaves the owner below its quota. -/
theorem scanned_keep (scanned : Scanned input count state)
    (below : ¬(state.ownerRank + 1) * input.averageKeysPerRank ≤
      state.bucketSumAccumulator + input.globalBucketCounts count) :
    Scanned input (count + 1) (input.assignBucket state count) := by
  unfold PlanInput.assignBucket
  rw [if_neg below]
  have accumulated : state.bucketSumAccumulator + input.globalBucketCounts count =
      input.prefixSum (count + 1) := by
    rw [scanned.accumulated, prefix_sum_succ]
  exact {
    accumulated := accumulated
    previous := scanned.previous
    current := Nat.le_succ_of_le scanned.current
    bounded := scanned.bounded
    ordered := fun rank owned =>
      ⟨(scanned.ordered rank owned).1, Nat.lt_succ_of_lt (scanned.ordered rank owned).2⟩
    firsts := scanned.firsts
    untouched := scanned.untouched
    routed := by
      intro bucket inside
      by_cases last : bucket = count
      · subst last
        simp only [Function.update_self]
        exact ⟨Nat.le_refl _, scanned.current, fun less => absurd less (Nat.lt_irrefl _)⟩
      · simp only [Function.update_of_ne last]
        exact scanned.routed bucket (by omega)
    filled := scanned.filled
    short := by
      intro bucket late inside
      by_cases last : bucket = count
      · subst last
        rw [← accumulated]
        exact Nat.lt_of_not_le below
      · exact scanned.short bucket late (by omega)
    expected := scanned.expected }

/-- Cuts up to `rank` do not see the interval end of `rank`. -/
theorem cut_update (arrays : PlanArrays) {rank owner : Nat} (le : rank ≤ owner) (bucket : Nat)
    (bucketToRank firstBucketByRank : Nat → Nat) :
    PlanArrays.cut ⟨bucketToRank, firstBucketByRank,
      Function.update arrays.lastBucketByRank owner bucket⟩ rank = arrays.cut rank := by
  unfold PlanArrays.cut
  by_cases zero : rank = 0
  · rw [if_pos zero, if_pos zero]
  · rw [if_neg zero, if_neg zero]
    have different : rank - 1 ≠ owner := by omega
    simp only [Function.update_of_ne different]

/-- A bucket that fills the owner's quota ends its interval. -/
theorem scanned_close (scanned : Scanned input count state)
    (filled : (state.ownerRank + 1) * input.averageKeysPerRank ≤
      state.bucketSumAccumulator + input.globalBucketCounts count)
    (room : state.ownerRank < input.commSize) :
    Scanned input (count + 1) (input.assignBucket state count) := by
  unfold PlanInput.assignBucket
  rw [if_pos filled]
  have accumulated : state.bucketSumAccumulator + input.globalBucketCounts count =
      input.prefixSum (count + 1) := by
    rw [scanned.accumulated, prefix_sum_succ]
  have earlier : ∀ {rank}, rank ≤ state.ownerRank → ∀ bucketToRank firstBucketByRank,
      PlanArrays.cut ⟨bucketToRank, firstBucketByRank,
        Function.update state.lastBucketByRank state.ownerRank count⟩ rank = state.cut rank :=
    fun le _ _ => cut_update state.toPlanArrays le count _ _
  have next : ∀ bucketToRank firstBucketByRank, PlanArrays.cut ⟨bucketToRank, firstBucketByRank,
      Function.update state.lastBucketByRank state.ownerRank count⟩ (state.ownerRank + 1) =
        count + 1 := by
    intro bucketToRank firstBucketByRank
    simp [PlanArrays.cut]
  have others : ∀ {rank}, rank < state.ownerRank →
      Function.update state.lastBucketByRank state.ownerRank count rank =
        state.lastBucketByRank rank :=
    fun less => Function.update_of_ne (Nat.ne_of_lt less) _ _
  have cases : ∀ {rank}, rank < state.ownerRank + 1 →
      rank < state.ownerRank ∨ rank = state.ownerRank := by
    intro rank less
    omega
  exact {
    accumulated := accumulated
    previous := by
      rw [next]
      exact accumulated
    current := Nat.le_of_eq (next _ _)
    bounded := room
    ordered := by
      intro rank less
      rw [earlier (Nat.lt_succ_iff.mp less)]
      rcases cases less with before | rfl
      · dsimp only
        rw [others before]
        exact ⟨(scanned.ordered rank before).1, Nat.lt_succ_of_lt (scanned.ordered rank before).2⟩
      · dsimp only
        rw [Function.update_self]
        exact ⟨scanned.current, Nat.lt_succ_self count⟩
    firsts := by
      intro rank less
      change rank < state.ownerRank + 1 at less
      rw [earlier (Nat.lt_succ_iff.mp less)]
      dsimp only
      by_cases zero : state.ownerRank = 0
      · rw [if_neg (not_not.mpr zero)]
        obtain rfl : rank = 0 := by omega
        have first := (scanned.untouched 0 (Nat.le_of_eq zero)).1
        rw [first]
        rfl
      · rw [if_pos zero]
        rcases cases less with before | rfl
        · rw [Function.update_of_ne (Nat.ne_of_lt before)]
          exact scanned.firsts rank before
        · rw [Function.update_self]
          unfold PlanArrays.cut
          rw [if_neg zero]
    untouched := by
      intro rank le
      change state.ownerRank + 1 ≤ rank at le
      have different : rank ≠ state.ownerRank := by omega
      have before := scanned.untouched rank (by omega)
      dsimp only
      rw [Function.update_of_ne different]
      refine ⟨?_, before.2⟩
      split
      · rw [Function.update_of_ne different]
        exact before.1
      · exact before.1
    routed := by
      intro bucket inside
      dsimp only
      by_cases last : bucket = count
      · subst last
        rw [Function.update_self, earlier (Nat.le_refl _), Function.update_self]
        exact ⟨Nat.le_succ _, scanned.current, fun _ => Nat.le_refl _⟩
      · have less : bucket < count := by omega
        rw [Function.update_of_ne last]
        obtain ⟨owned, late, ends⟩ := scanned.routed bucket less
        rw [earlier owned]
        refine ⟨Nat.le_succ_of_le owned, late, ?_⟩
        intro _
        rcases Nat.lt_or_eq_of_le owned with before | same
        · rw [others before]
          exact ends before
        · rw [same, Function.update_self]
          exact Nat.le_of_lt less
    filled := by
      intro rank less
      dsimp only
      rcases cases less with before | rfl
      · rw [others before]
        exact scanned.filled rank before
      · rw [Function.update_self, ← accumulated]
        exact filled
    short := by
      intro bucket late inside
      rw [next] at late
      omega
    expected := by
      dsimp only
      by_cases mine : state.ownerRank = input.myRank
      · rw [if_pos mine, if_pos (by omega), ← mine, earlier (Nat.le_refl _), Function.update_self,
          accumulated, scanned.previous]
      · rw [if_neg mine, scanned.expected]
        by_cases less : input.myRank < state.ownerRank
        · rw [if_pos less, if_pos (by omega), earlier (Nat.le_of_lt less), others less]
        · rw [if_neg less, if_neg (by omega)] }

/-- The owner never passes the last rank: the quota of one more rank is above
the total. -/
theorem owner_room (balanced : input.Balanced) (scanned : Scanned input count state)
    (inside : count < input.numBuckets)
    (filled : (state.ownerRank + 1) * input.averageKeysPerRank ≤
      state.bucketSumAccumulator + input.globalBucketCounts count) :
    state.ownerRank < input.commSize := by
  have reached : (state.ownerRank + 1) * input.averageKeysPerRank ≤
      input.commSize * input.averageKeysPerRank := by
    calc (state.ownerRank + 1) * input.averageKeysPerRank
        ≤ input.prefixSum (count + 1) := by
          rw [prefix_sum_succ, ← scanned.accumulated]
          exact filled
      _ ≤ input.prefixSum input.numBuckets := prefix_sum_mono input inside
      _ = input.commSize * input.averageKeysPerRank := balanced.total
  exact Nat.le_of_mul_le_mul_right reached balanced.average

theorem assign_buckets_scanned (balanced : input.Balanced) (count : Nat)
    (inside : count ≤ input.numBuckets) :
    Scanned input count (input.assignBuckets clearedArrays count) := by
  induction count with
  | zero => exact scanned_start
  | succ count ih =>
      have before := ih (Nat.le_of_succ_le inside)
      rw [PlanInput.assignBuckets]
      by_cases filled : ((input.assignBuckets clearedArrays count).ownerRank + 1) *
          input.averageKeysPerRank ≤
            (input.assignBuckets clearedArrays count).bucketSumAccumulator +
              input.globalBucketCounts count
      · exact scanned_close before filled (owner_room balanced before inside filled)
      · exact scanned_keep before filled

end Scan

section Plan

variable {input : PlanInput} {rank bucket : Nat}

namespace PlanInput

/-- The loop's state when it ends. -/
def finalScan (input : PlanInput) : PlanState := input.assignBuckets clearedArrays input.numBuckets

/-- The arrays when `build_bucket_plan` returns, from cleared ones. -/
def arrays (input : PlanInput) : PlanArrays := input.planArrays clearedArrays

end PlanInput

theorem final_scanned (balanced : input.Balanced) :
    Scanned input input.numBuckets input.finalScan :=
  assign_buckets_scanned balanced input.numBuckets (Nat.le_refl _)

theorem mark_idle_ranks (first : Nat → Nat) (owner : Nat) :
    input.markIdleRanks first owner rank =
      if owner ≤ rank ∧ rank < input.commSize then 1 else first rank := by
  unfold PlanInput.markIdleRanks
  rw [fill_range]
  by_cases inside : owner ≤ rank ∧ rank < input.commSize
  · rw [if_pos inside, if_pos (by omega)]
  · rw [if_neg inside, if_neg (by omega)]

/-- An owner's interval is the one the loop gave it. -/
theorem owner_interval (balanced : input.Balanced) (owner : rank < input.finalScan.ownerRank) :
    input.arrays.firstBucketByRank rank = input.finalScan.cut rank ∧
      input.arrays.lastBucketByRank rank = input.finalScan.lastBucketByRank rank := by
  refine ⟨?_, rfl⟩
  have unmarked : ¬(input.finalScan.ownerRank ≤ rank ∧ rank < input.commSize) := by omega
  calc input.arrays.firstBucketByRank rank
      = input.markIdleRanks input.finalScan.firstBucketByRank input.finalScan.ownerRank rank := rfl
    _ = input.finalScan.firstBucketByRank rank := by rw [mark_idle_ranks, if_neg unmarked]
    _ = input.finalScan.cut rank := (final_scanned balanced).firsts rank owner

/-- The other ranks have the empty interval from 1 to 0. -/
theorem idle_interval (balanced : input.Balanced) (inside : rank < input.commSize)
    (idle : input.finalScan.ownerRank ≤ rank) :
    input.arrays.firstBucketByRank rank = 1 ∧ input.arrays.lastBucketByRank rank = 0 := by
  refine ⟨?_, ((final_scanned balanced).untouched rank idle).2⟩
  calc input.arrays.firstBucketByRank rank
      = input.markIdleRanks input.finalScan.firstBucketByRank input.finalScan.ownerRank rank := rfl
    _ = 1 := by rw [mark_idle_ranks, if_pos ⟨idle, inside⟩]

theorem cut_succ (arrays : PlanArrays) (rank : Nat) :
    arrays.cut (rank + 1) = arrays.lastBucketByRank rank + 1 := rfl

/-- The cuts of the owners increase. -/
theorem cut_increasing (balanced : input.Balanced) {first second : Nat} (less : first < second)
    (owners : second ≤ input.finalScan.ownerRank) :
    input.finalScan.cut first < input.finalScan.cut second := by
  have scanned := final_scanned balanced
  induction second with
  | zero => omega
  | succ second ih =>
      have step := (scanned.ordered second (by omega)).1
      have next := cut_succ input.finalScan.toPlanArrays second
      have step : input.finalScan.cut second < input.finalScan.cut (second + 1) := by
        rw [next]
        exact Nat.lt_succ_of_le step
      rcases Nat.lt_succ_iff_lt_or_eq.mp less with before | rfl
      · exact (ih before (by omega)).trans step
      · exact step

/-- A bucket that holds a key has an owner. -/
theorem nonempty_bucket_owned (balanced : input.Balanced) (inside : bucket < input.numBuckets)
    (nonempty : 0 < input.globalBucketCounts bucket) :
    input.arrays.bucketToRank bucket < input.finalScan.ownerRank := by
  have scanned := final_scanned balanced
  obtain ⟨owned, late, _⟩ := scanned.routed bucket inside
  rcases Nat.lt_or_eq_of_le owned with owner | same
  · exact owner
  · exfalso
    rw [same] at late
    have total := balanced.total
    have grown : input.prefixSum bucket < input.prefixSum (bucket + 1) := by
      rw [prefix_sum_succ]
      omega
    have below : input.prefixSum (bucket + 1) ≤ input.prefixSum input.numBuckets :=
      prefix_sum_mono input inside
    -- the open interval stays under the owner's quota, so every quota is filled
    have last := scanned.short (input.numBuckets - 1) (by omega) (by omega)
    rw [Nat.sub_add_cancel (by omega), total] at last
    have filled : input.commSize = input.finalScan.ownerRank := by
      have more := Nat.lt_of_mul_lt_mul_right last
      have bound := scanned.bounded
      omega
    have reached : input.commSize * input.averageKeysPerRank ≤
        input.prefixSum (input.finalScan.cut input.finalScan.ownerRank) := by
      cases owners : input.finalScan.ownerRank with
      | zero =>
          rw [filled, owners, Nat.zero_mul]
          exact Nat.zero_le _
      | succ previous =>
          rw [filled, owners, cut_succ]
          exact scanned.filled previous (by omega)
    have before := prefix_sum_mono input late
    omega

/-- An interval holds exactly the buckets that the routing table gives its rank. -/
theorem interval_iff (balanced : input.Balanced) (inside : rank < input.commSize)
    (bounded : bucket < input.numBuckets) :
    (input.arrays.firstBucketByRank rank ≤ bucket ∧ bucket ≤ input.arrays.lastBucketByRank rank) ↔
      input.arrays.bucketToRank bucket = rank ∧ rank < input.finalScan.ownerRank := by
  have scanned := final_scanned balanced
  obtain ⟨owned, late, ends⟩ := scanned.routed bucket bounded
  constructor
  · rintro ⟨above, below⟩
    by_cases owner : rank < input.finalScan.ownerRank
    · obtain ⟨first, last⟩ := owner_interval balanced owner
      rw [first] at above
      rw [last] at below
      refine ⟨?_, owner⟩
      have next := cut_succ input.finalScan.toPlanArrays rank
      rcases Nat.lt_trichotomy (input.finalScan.bucketToRank bucket) rank with less | same | more
      · have before := ends (less.trans owner)
        have cut := cut_succ input.finalScan.toPlanArrays (input.finalScan.bucketToRank bucket)
        have order : input.finalScan.cut (input.finalScan.bucketToRank bucket + 1) ≤
            input.finalScan.cut rank := by
          rcases Nat.lt_or_eq_of_le (Nat.succ_le_of_lt less) with further | same
          · exact Nat.le_of_lt (cut_increasing balanced further (Nat.le_of_lt owner))
          · exact Nat.le_of_eq (congrArg input.finalScan.cut same)
        omega
      · exact same
      · have order : input.finalScan.cut (rank + 1) ≤
            input.finalScan.cut (input.finalScan.bucketToRank bucket) := by
          rcases Nat.lt_or_eq_of_le (Nat.succ_le_of_lt more) with further | same
          · exact Nat.le_of_lt (cut_increasing balanced further owned)
          · exact Nat.le_of_eq (congrArg input.finalScan.cut same)
        omega
    · obtain ⟨first, last⟩ := idle_interval balanced inside (Nat.le_of_not_lt owner)
      omega
  · rintro ⟨same, owner⟩
    obtain ⟨first, last⟩ := owner_interval balanced owner
    change input.finalScan.bucketToRank bucket = rank at same
    rw [first, last]
    rw [same] at late ends
    exact ⟨late, ends owner⟩

theorem last_bucket_bounded (balanced : input.Balanced) (owner : rank < input.finalScan.ownerRank) :
    input.arrays.lastBucketByRank rank < input.numBuckets := by
  rw [(owner_interval balanced owner).2]
  exact ((final_scanned balanced).ordered rank owner).2

/-- The sum over an interval is the sum over the buckets routed to its rank. -/
theorem sum_buckets_routed (balanced : input.Balanced) (inside : rank < input.commSize) :
    input.sumBuckets (input.arrays.firstBucketByRank rank) (input.arrays.lastBucketByRank rank) =
      ∑ bucket ∈ Finset.range input.numBuckets,
        if input.arrays.bucketToRank bucket = rank then input.globalBucketCounts bucket else 0 := by
  unfold PlanInput.sumBuckets
  rw [← Finset.sum_filter]
  by_cases owner : rank < input.finalScan.ownerRank
  · apply Finset.sum_congr _ fun _ _ => rfl
    ext bucket
    rw [Finset.mem_Icc, Finset.mem_filter, Finset.mem_range]
    have last := last_bucket_bounded balanced owner
    constructor
    · intro between
      have bounded : bucket < input.numBuckets := by omega
      exact ⟨bounded, ((interval_iff balanced inside bounded).mp between).1⟩
    · rintro ⟨bounded, routed⟩
      exact (interval_iff balanced inside bounded).mpr ⟨routed, owner⟩
  · obtain ⟨first, last⟩ := idle_interval balanced inside (Nat.le_of_not_lt owner)
    rw [first, last, Finset.Icc_eq_empty (by decide), Finset.sum_empty]
    symm
    apply Finset.sum_eq_zero
    intro bucket member
    obtain ⟨bounded, routed⟩ := Finset.mem_filter.mp member
    by_contra some
    have owned := nonempty_bucket_owned balanced (Finset.mem_range.mp bounded)
      (Nat.pos_of_ne_zero some)
    rw [routed] at owned
    exact owner owned

theorem prefix_sum_interval (input : PlanInput) {first last : Nat} (le : first ≤ last + 1) :
    input.prefixSum first + input.sumBuckets first last = input.prefixSum (last + 1) := by
  unfold PlanInput.prefixSum PlanInput.sumBuckets
  rw [← Finset.sum_range_add_sum_Ico _ le]
  rfl

/-- The difference of running sums that the loop records is the sum over the
rank's own interval. -/
theorem expected_recv_count (balanced : input.Balanced) (inside : input.myRank < input.commSize) :
    input.finalScan.expectedRecvCount =
      input.sumBuckets (input.arrays.firstBucketByRank input.myRank)
        (input.arrays.lastBucketByRank input.myRank) := by
  have scanned := final_scanned balanced
  rw [scanned.expected]
  by_cases owner : input.myRank < input.finalScan.ownerRank
  · obtain ⟨first, last⟩ := owner_interval balanced owner
    rw [if_pos owner, first, last]
    have order := (scanned.ordered input.myRank owner).1
    have split := prefix_sum_interval input (Nat.le_succ_of_le order)
    omega
  · obtain ⟨first, last⟩ := idle_interval balanced inside (Nat.le_of_not_lt owner)
    rw [if_neg owner, first, last]
    rfl

/-- The intervals below an owner add up to everything before its cut. -/
theorem lesser_sum (balanced : input.Balanced) (owners : rank ≤ input.finalScan.ownerRank) :
    ∑ lower ∈ Finset.range rank, input.sumBuckets (input.arrays.firstBucketByRank lower)
        (input.arrays.lastBucketByRank lower) =
      input.prefixSum (input.finalScan.cut rank) := by
  induction rank with
  | zero => rfl
  | succ rank ih =>
      have owner : rank < input.finalScan.ownerRank := owners
      obtain ⟨first, last⟩ := owner_interval balanced owner
      have order := ((final_scanned balanced).ordered rank owner).1
      rw [Finset.sum_range_succ, ih (Nat.le_of_succ_le owners), first, last, cut_succ]
      exact prefix_sum_interval input (Nat.le_succ_of_le order)

/-- Nothing but the expected count depends on the rank that computes the plan. -/
theorem assign_buckets_same (input : PlanInput) (arrays : PlanArrays) (other count : Nat) :
    ∃ expected, ({ input with myRank := other } : PlanInput).assignBuckets arrays count =
      { input.assignBuckets arrays count with expectedRecvCount := expected } := by
  induction count with
  | zero => exact ⟨0, rfl⟩
  | succ count ih =>
      obtain ⟨expected, same⟩ := ih
      rw [PlanInput.assignBuckets, same, PlanInput.assignBuckets]
      unfold PlanInput.assignBucket
      dsimp only
      split
      · exact ⟨_, rfl⟩
      · exact ⟨_, rfl⟩

theorem arrays_same (input : PlanInput) (other : Nat) :
    ({ input with myRank := other } : PlanInput).arrays = input.arrays := by
  obtain ⟨expected, same⟩ := assign_buckets_same input clearedArrays other input.numBuckets
  unfold PlanInput.arrays PlanInput.planArrays
  dsimp only
  rw [same]
  rfl

/-- A key value lies between an interval's least and greatest value when its bucket
lies in the interval. -/
theorem value_interval (first last shift key : Nat) :
    (first <<< shift ≤ key ∧ key ≤ ((last + 1) <<< shift) - 1) ↔
      first ≤ key >>> shift ∧ key >>> shift ≤ last := by
  have power : 0 < 2 ^ shift := Nat.two_pow_pos _
  rw [Nat.shiftLeft_eq, Nat.shiftLeft_eq, Nat.shiftRight_eq_div_pow]
  have lower : first ≤ key / 2 ^ shift ↔ first * 2 ^ shift ≤ key := Nat.le_div_iff_mul_le power
  have upper : key / 2 ^ shift ≤ last ↔ key < (last + 1) * 2 ^ shift := by
    rw [← Nat.lt_succ_iff]
    exact Nat.div_lt_iff_lt_mul power
  have positive : 0 < (last + 1) * 2 ^ shift := Nat.mul_pos (Nat.succ_pos _) power
  rw [lower, upper]
  constructor
  · rintro ⟨above, below⟩
    exact ⟨above, by omega⟩
  · rintro ⟨above, below⟩
    exact ⟨above, by omega⟩

end Plan

/-- The loop reads the counts of the buckets it has passed. -/
theorem assign_buckets_congr (input : PlanInput) (arrays : PlanArrays) {counts : Nat → Nat}
    (count : Nat) (agree : ∀ bucket < count, counts bucket = input.globalBucketCounts bucket) :
    ({ input with globalBucketCounts := counts } : PlanInput).assignBuckets arrays count =
      input.assignBuckets arrays count := by
  induction count with
  | zero => rfl
  | succ count ih =>
      have before := ih fun bucket less => agree bucket (Nat.lt_succ_of_lt less)
      simp only [PlanInput.assignBuckets, PlanInput.assignBucket, before,
        agree count (Nat.lt_succ_self count)]

/-- The sum over a rank's interval reads the counts of the buckets that exist. -/
theorem sum_buckets_congr {input : PlanInput} (balanced : input.Balanced) {counts : Nat → Nat}
    {rank : Nat} (inside : rank < input.commSize)
    (agree : ∀ bucket < input.numBuckets, counts bucket = input.globalBucketCounts bucket) :
    ∑ bucket ∈ Finset.Icc (input.arrays.firstBucketByRank rank)
        (input.arrays.lastBucketByRank rank), counts bucket =
      input.sumBuckets (input.arrays.firstBucketByRank rank)
        (input.arrays.lastBucketByRank rank) := by
  apply Finset.sum_congr rfl
  intro bucket member
  obtain ⟨low, high⟩ := Finset.mem_Icc.mp member
  rcases Nat.lt_or_ge rank input.finalScan.ownerRank with owner | idle
  · exact agree bucket (high.trans_lt (last_bucket_bounded balanced owner))
  · obtain ⟨first, last⟩ := idle_interval balanced inside idle
    omega

/-- The plan depends on the counts of the buckets that exist. -/
theorem build_bucket_plan_congr {input : PlanInput} (balanced : input.Balanced)
    {counts : Nat → Nat} (inside : input.myRank < input.commSize)
    (agree : ∀ bucket < input.numBuckets, counts bucket = input.globalBucketCounts bucket) :
    ({ input with globalBucketCounts := counts } : PlanInput).buildBucketPlan clearedArrays =
      input.buildBucketPlan clearedArrays := by
  have scanned := assign_buckets_congr input clearedArrays input.numBuckets agree
  have planned :
      ({ input with globalBucketCounts := counts } : PlanInput).planArrays clearedArrays =
        input.arrays := by
    simp only [PlanInput.arrays, PlanInput.planArrays, scanned]
    rfl
  have sums : ∀ rank < input.commSize,
      ({ input with globalBucketCounts := counts } : PlanInput).sumBuckets
        (input.arrays.firstBucketByRank rank) (input.arrays.lastBucketByRank rank) =
      input.sumBuckets (input.arrays.firstBucketByRank rank)
        (input.arrays.lastBucketByRank rank) :=
    fun rank less => sum_buckets_congr balanced less agree
  have lesser : ∑ rank ∈ Finset.range input.myRank,
      ({ input with globalBucketCounts := counts } : PlanInput).sumBuckets
        (input.arrays.firstBucketByRank rank) (input.arrays.lastBucketByRank rank) =
      ∑ rank ∈ Finset.range input.myRank, input.sumBuckets
        (input.arrays.firstBucketByRank rank) (input.arrays.lastBucketByRank rank) := by
    apply Finset.sum_congr rfl
    intro rank member
    exact sums rank ((Finset.mem_range.mp member).trans inside)
  unfold PlanInput.buildBucketPlan
  dsimp only
  rw [planned, lesser, sums input.myRank inside, scanned]
  rfl

end IntegerSortLci.Benchmark
