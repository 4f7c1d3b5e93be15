import IntegerSortLci.Benchmark.KeyRouting

/-!
# The bucket plan is a partition

The plans of all ranks come from one run of the loop over the buckets, so they agree
on the routing table and on the intervals. The intervals follow each other, a bucket
that holds a key lies in the interval of the rank that the table names, and nothing is
written behind the entries of the ranks.

The callers zero the entries of the ranks; what the arrays hold behind them and in the
routing table does not matter. From the counts of the keys of all ranks, the number of
keys that a rank waits for is the number that the table sends to it. All of this is under
the plan's assumption that no sum or quota overflows `KeyCount` or `KeyRank`.
-/

namespace IntegerSortLci.Benchmark

open IntegerSortLci.Foundations
open scoped BigOperators

set_option autoImplicit false

/-- The interval entries of all ranks are zero. -/
def PlanArrays.Zeroed (arrays : PlanArrays) (commSize : Nat) : Prop :=
  ∀ rank < commSize, arrays.firstBucketByRank rank = 0 ∧ arrays.lastBucketByRank rank = 0

namespace PlanInput

/-- The call of `build_bucket_plan` on `rank`. -/
def onRank (input : PlanInput) (rank : Nat) : PlanInput := { input with myRank := rank }

end PlanInput

section Frame

variable {input : PlanInput} {arrays : PlanArrays} {count : Nat} {state cleared : PlanState}

/-- The loop over `arrays` and the loop over cleared arrays after the same buckets. -/
structure SameScan (input : PlanInput) (arrays : PlanArrays) (count : Nat)
    (state cleared : PlanState) : Prop where
  accumulated : state.bucketSumAccumulator = cleared.bucketSumAccumulator
  expected : state.expectedRecvCount = cleared.expectedRecvCount
  previous : state.previousBucketSumAccumulator = cleared.previousBucketSumAccumulator
  owner : state.ownerRank = cleared.ownerRank
  intervals : ∀ rank < input.commSize,
    state.firstBucketByRank rank = cleared.firstBucketByRank rank ∧
      state.lastBucketByRank rank = cleared.lastBucketByRank rank
  routed : ∀ bucket < count, state.bucketToRank bucket = cleared.bucketToRank bucket
  behind : ∀ rank, input.commSize ≤ rank →
    state.firstBucketByRank rank = arrays.firstBucketByRank rank ∧
      state.lastBucketByRank rank = arrays.lastBucketByRank rank

theorem same_start (zeroed : arrays.Zeroed input.commSize) (participants : 0 < input.commSize) :
    SameScan input arrays 0 (input.assignBuckets arrays 0)
      (input.assignBuckets clearedArrays 0) := by
  constructor
  · rfl
  · rfl
  · rfl
  · rfl
  · intro rank inside
    obtain ⟨first, last⟩ := zeroed rank inside
    refine ⟨?_, last⟩
    by_cases zero : rank = 0
    · subst zero
      rfl
    · change Function.update _ 0 0 rank = Function.update _ 0 0 rank
      rw [Function.update_of_ne zero, Function.update_of_ne zero]
      exact first
  · intro bucket none
    omega
  · intro rank outside
    have different : rank ≠ 0 := by omega
    exact ⟨Function.update_of_ne different _ _, rfl⟩

theorem same_step (same : SameScan input arrays count state cleared)
    (room : (cleared.ownerRank + 1) * input.averageKeysPerRank ≤
      cleared.bucketSumAccumulator + input.globalBucketCounts count →
        cleared.ownerRank < input.commSize) :
    SameScan input arrays (count + 1) (input.assignBucket state count)
      (input.assignBucket cleared count) := by
  obtain ⟨accumulated, expected, previous, owner, intervals, routed, behind⟩ := same
  have table : ∀ bucket < count + 1,
      Function.update state.bucketToRank count cleared.ownerRank bucket =
        Function.update cleared.bucketToRank count cleared.ownerRank bucket := by
    intro bucket inside
    by_cases last : bucket = count
    · rw [last, Function.update_self, Function.update_self]
    · rw [Function.update_of_ne last, Function.update_of_ne last]
      exact routed bucket (by omega)
  unfold PlanInput.assignBucket
  rw [accumulated, owner, previous, expected]
  dsimp only
  by_cases filled : (cleared.ownerRank + 1) * input.averageKeysPerRank ≤
      cleared.bucketSumAccumulator + input.globalBucketCounts count
  · rw [if_pos filled, if_pos filled]
    have inside := room filled
    refine ⟨rfl, rfl, rfl, rfl, ?_, table, ?_⟩
    · intro rank less
      dsimp only
      by_cases mine : rank = cleared.ownerRank
      · subst mine
        rw [Function.update_self, Function.update_self]
        refine ⟨?_, rfl⟩
        by_cases zero : cleared.ownerRank = 0
        · rw [if_neg (not_not.mpr zero), if_neg (not_not.mpr zero)]
          exact (intervals _ less).1
        · rw [if_pos zero, if_pos zero, Function.update_self, Function.update_self,
            (intervals (cleared.ownerRank - 1) (by omega)).2]
      · rw [Function.update_of_ne mine, Function.update_of_ne mine]
        refine ⟨?_, (intervals rank less).2⟩
        split
        · rw [Function.update_of_ne mine, Function.update_of_ne mine]
          exact (intervals rank less).1
        · exact (intervals rank less).1
    · intro rank outside
      dsimp only
      have different : rank ≠ cleared.ownerRank := by omega
      rw [Function.update_of_ne different]
      refine ⟨?_, (behind rank outside).2⟩
      split
      · rw [Function.update_of_ne different]
        exact (behind rank outside).1
      · exact (behind rank outside).1
  · rw [if_neg filled, if_neg filled]
    exact ⟨rfl, rfl, rfl, rfl, intervals, table, behind⟩

theorem same_scan (balanced : input.Balanced) (zeroed : arrays.Zeroed input.commSize)
    (participants : 0 < input.commSize) (count : Nat) (inside : count ≤ input.numBuckets) :
    SameScan input arrays count (input.assignBuckets arrays count)
      (input.assignBuckets clearedArrays count) := by
  induction count with
  | zero => exact same_start zeroed participants
  | succ count ih =>
      have scanned := assign_buckets_scanned balanced count (Nat.le_of_succ_le inside)
      exact same_step (ih (Nat.le_of_succ_le inside)) (owner_room balanced scanned inside)

/-- The entries of the ranks and the routing table are those from cleared arrays, and
the entries behind the ranks are the caller's. -/
theorem plan_arrays_same (balanced : input.Balanced) (zeroed : arrays.Zeroed input.commSize)
    (participants : 0 < input.commSize) :
    (∀ rank < input.commSize,
      (input.planArrays arrays).firstBucketByRank rank = input.arrays.firstBucketByRank rank ∧
        (input.planArrays arrays).lastBucketByRank rank = input.arrays.lastBucketByRank rank) ∧
      (∀ bucket < input.numBuckets,
        (input.planArrays arrays).bucketToRank bucket = input.arrays.bucketToRank bucket) ∧
      ∀ rank, input.commSize ≤ rank →
        (input.planArrays arrays).firstBucketByRank rank = arrays.firstBucketByRank rank ∧
          (input.planArrays arrays).lastBucketByRank rank = arrays.lastBucketByRank rank := by
  have same := same_scan balanced zeroed participants input.numBuckets (Nat.le_refl _)
  have marks : ∀ (first : Nat → Nat) (owner rank : Nat), input.markIdleRanks first owner rank =
      if owner ≤ rank ∧ rank < input.commSize then 1 else first rank :=
    fun first owner rank => mark_idle_ranks first owner
  refine ⟨?_, same.routed, ?_⟩
  · intro rank inside
    obtain ⟨first, last⟩ := same.intervals rank inside
    refine ⟨?_, last⟩
    unfold PlanInput.arrays PlanInput.planArrays
    dsimp only
    rw [marks, marks, same.owner, first]
  · intro rank outside
    obtain ⟨first, last⟩ := same.behind rank outside
    refine ⟨?_, last⟩
    unfold PlanInput.planArrays
    dsimp only
    rw [marks, if_neg (by omega), first]

/-- The plan itself does not see what the arrays held before. -/
theorem build_bucket_plan_same (balanced : input.Balanced)
    (zeroed : arrays.Zeroed input.commSize) (inside : input.myRank < input.commSize) :
    (input.buildBucketPlan arrays).2 = (input.buildBucketPlan clearedArrays).2 := by
  have participants : 0 < input.commSize := Nat.zero_lt_of_lt inside
  obtain ⟨intervals, -, -⟩ := plan_arrays_same balanced zeroed participants
  have same := same_scan balanced zeroed participants input.numBuckets (Nat.le_refl _)
  have lesser : ∑ rank ∈ Finset.range input.myRank, input.sumBuckets
        ((input.planArrays arrays).firstBucketByRank rank)
        ((input.planArrays arrays).lastBucketByRank rank) =
      ∑ rank ∈ Finset.range input.myRank, input.sumBuckets
        (input.arrays.firstBucketByRank rank) (input.arrays.lastBucketByRank rank) := by
    apply Finset.sum_congr rfl
    intro rank member
    obtain ⟨first, last⟩ := intervals rank ((Finset.mem_range.mp member).trans inside)
    rw [first, last]
  obtain ⟨first, last⟩ := intervals input.myRank inside
  unfold PlanInput.buildBucketPlan
  dsimp only
  rw [lesser, first, last, same.expected]
  rfl

end Frame

/-- The interval of `rank` holds a bucket. -/
def PlanArrays.Nonempty (arrays : PlanArrays) (rank : Nat) : Prop :=
  arrays.firstBucketByRank rank ≤ arrays.lastBucketByRank rank

/-- What the ranks' calls of `build_bucket_plan` over the arrays `start` leave: the
arrays `planned` on every rank, which split the buckets and the key values. -/
structure Partition (input : PlanInput) (start planned : PlanArrays) : Prop where
  agreed : ∀ rank < input.commSize, ((input.onRank rank).buildBucketPlan start).1 = planned
  untouched : ∀ rank, input.commSize ≤ rank →
    planned.firstBucketByRank rank = start.firstBucketByRank rank ∧
      planned.lastBucketByRank rank = start.lastBucketByRank rank
  stepwise : ∀ bucket, bucket + 1 < input.numBuckets →
    planned.bucketToRank bucket ≤ planned.bucketToRank (bucket + 1) ∧
      planned.bucketToRank (bucket + 1) ≤ planned.bucketToRank bucket + 1
  ordered : ∀ rank < input.commSize, ∀ lower < rank, planned.Nonempty lower →
    planned.Nonempty rank → planned.lastBucketByRank lower < planned.firstBucketByRank rank
  contiguous : ∀ rank, rank + 1 < input.commSize → planned.Nonempty (rank + 1) →
    planned.Nonempty rank ∧
      planned.firstBucketByRank (rank + 1) = planned.lastBucketByRank rank + 1
  bounded : ∀ rank < input.commSize, planned.Nonempty rank →
    planned.lastBucketByRank rank < input.numBuckets
  keyed : ∀ bucket < input.numBuckets, 0 < input.globalBucketCounts bucket →
    planned.bucketToRank bucket < input.commSize ∧
      ∀ rank < input.commSize,
        (planned.firstBucketByRank rank ≤ bucket ∧ bucket ≤ planned.lastBucketByRank rank) ↔
          rank = planned.bucketToRank bucket
  valued : ∀ key, key >>> input.bucketShift < input.numBuckets →
    0 < input.globalBucketCounts (key >>> input.bucketShift) →
      ∀ rank < input.commSize,
        (((input.onRank rank).buildBucketPlan start).2.minKeyValue ≤ key ∧
            key ≤ ((input.onRank rank).buildBucketPlan start).2.maxKeyValue) ↔
          rank = planned.bucketToRank (key >>> input.bucketShift)

section Steps

variable {input : PlanInput} {arrays : PlanArrays}

/-- The table follows the owner, which moves by at most one. -/
theorem table_steps (input : PlanInput) (arrays : PlanArrays) (count : Nat) :
    (∀ bucket, bucket + 1 = count →
      (input.assignBuckets arrays count).bucketToRank bucket ≤
          (input.assignBuckets arrays count).ownerRank ∧
        (input.assignBuckets arrays count).ownerRank ≤
          (input.assignBuckets arrays count).bucketToRank bucket + 1) ∧
      ∀ bucket, bucket + 1 < count →
        (input.assignBuckets arrays count).bucketToRank bucket ≤
            (input.assignBuckets arrays count).bucketToRank (bucket + 1) ∧
          (input.assignBuckets arrays count).bucketToRank (bucket + 1) ≤
            (input.assignBuckets arrays count).bucketToRank bucket + 1 := by
  induction count with
  | zero => exact ⟨fun _ none => absurd none (Nat.succ_ne_zero _), fun _ none => by omega⟩
  | succ count ih =>
      obtain ⟨last, earlier⟩ := ih
      have moved := assign_bucket_owner input (input.assignBuckets arrays count) count
      rw [PlanInput.assignBuckets, assign_bucket_table]
      constructor
      · intro bucket here
        obtain rfl : bucket = count := by omega
        rw [Function.update_self]
        omega
      · intro bucket inside
        have before : bucket ≠ count := by omega
        rw [Function.update_of_ne before]
        by_cases final : bucket + 1 = count
        · rw [final, Function.update_self]
          exact last bucket final
        · rw [Function.update_of_ne final]
          exact earlier bucket (by omega)

end Steps

section Partition

variable {input : PlanInput} {start : PlanArrays} {rank bucket : Nat}

theorem nonempty_iff (balanced : input.Balanced) (inside : rank < input.commSize) :
    input.arrays.Nonempty rank ↔ rank < input.finalScan.ownerRank := by
  unfold PlanArrays.Nonempty
  constructor
  · intro nonempty
    by_contra idle
    obtain ⟨first, last⟩ := idle_interval balanced inside (Nat.le_of_not_lt idle)
    omega
  · intro owner
    obtain ⟨first, last⟩ := owner_interval balanced owner
    rw [first, last]
    exact ((final_scanned balanced).ordered rank owner).1

/-- The intervals of the owners follow each other. -/
theorem interval_next (balanced : input.Balanced) (inside : rank + 1 < input.commSize)
    (nonempty : input.arrays.Nonempty (rank + 1)) :
    input.arrays.Nonempty rank ∧
      input.arrays.firstBucketByRank (rank + 1) = input.arrays.lastBucketByRank rank + 1 := by
  have owner := (nonempty_iff balanced inside).mp nonempty
  have before : rank < input.finalScan.ownerRank := by omega
  refine ⟨(nonempty_iff balanced (by omega)).mpr before, ?_⟩
  calc input.arrays.firstBucketByRank (rank + 1)
      = input.finalScan.cut (rank + 1) := (owner_interval balanced owner).1
    _ = input.finalScan.lastBucketByRank rank + 1 := cut_succ _ _
    _ = input.arrays.lastBucketByRank rank + 1 := by rw [(owner_interval balanced before).2]

theorem intervals_ordered (balanced : input.Balanced) (inside : rank < input.commSize)
    {lower : Nat} (less : lower < rank) (nonempty : input.arrays.Nonempty rank) :
    input.arrays.lastBucketByRank lower < input.arrays.firstBucketByRank rank := by
  have owner := (nonempty_iff balanced inside).mp nonempty
  have before : lower < input.finalScan.ownerRank := less.trans owner
  have next := cut_succ input.finalScan.toPlanArrays lower
  have order : input.finalScan.cut (lower + 1) ≤ input.finalScan.cut rank := by
    rcases Nat.lt_or_eq_of_le (Nat.succ_le_of_lt less) with further | same
    · exact Nat.le_of_lt (cut_increasing balanced further (Nat.le_of_lt owner))
    · exact Nat.le_of_eq (congrArg input.finalScan.cut same)
  rw [(owner_interval balanced before).2, (owner_interval balanced owner).1]
  omega

/-- A bucket that holds a key lies in the interval of the rank that the table names,
which exists. -/
theorem keyed_interval (balanced : input.Balanced) (bounded : bucket < input.numBuckets)
    (keyed : 0 < input.globalBucketCounts bucket) :
    input.arrays.bucketToRank bucket < input.commSize ∧
      ∀ rank < input.commSize,
        (input.arrays.firstBucketByRank rank ≤ bucket ∧
            bucket ≤ input.arrays.lastBucketByRank rank) ↔
          rank = input.arrays.bucketToRank bucket := by
  have owned := nonempty_bucket_owned balanced bounded keyed
  refine ⟨owned.trans_le (final_scanned balanced).bounded, ?_⟩
  intro rank inside
  rw [interval_iff balanced inside bounded]
  constructor
  · rintro ⟨routed, -⟩
    exact routed.symm
  · rintro rfl
    exact ⟨rfl, owned⟩

/-- The arrays after the call do not depend on the calling rank. -/
theorem plan_arrays_agree (input : PlanInput) (start : PlanArrays) (rank : Nat) :
    (input.onRank rank).planArrays start = input.planArrays start := by
  obtain ⟨expected, same⟩ := assign_buckets_same input start rank input.numBuckets
  have scanned : (input.onRank rank).assignBuckets start (input.onRank rank).numBuckets =
      { input.assignBuckets start input.numBuckets with expectedRecvCount := expected } := same
  unfold PlanInput.planArrays
  dsimp only
  rw [scanned]
  rfl

/-- The plan is a partition on which all ranks agree. -/
theorem bucket_plan_partition (balanced : input.Balanced) (participants : 0 < input.commSize)
    (zeroed : start.Zeroed input.commSize) : ∃ planned, Partition input start planned := by
  obtain ⟨intervals, table, behind⟩ := plan_arrays_same balanced zeroed participants
  have nonempty : ∀ rank < input.commSize,
      (input.planArrays start).Nonempty rank → input.arrays.Nonempty rank := by
    intro rank inside some
    obtain ⟨first, last⟩ := intervals rank inside
    unfold PlanArrays.Nonempty at some ⊢
    rw [first, last] at some
    exact some
  refine ⟨input.planArrays start, ?_⟩
  exact {
    agreed := fun rank _ => plan_arrays_agree input start rank
    untouched := behind
    stepwise := fun bucket inside =>
      (table_steps input start input.numBuckets).2 bucket inside
    ordered := by
      intro rank inside lower less _ some
      rw [(intervals lower (less.trans inside)).2, (intervals rank inside).1]
      exact intervals_ordered balanced inside less (nonempty rank inside some)
    contiguous := by
      intro rank inside some
      obtain ⟨first, last⟩ := intervals rank (by omega)
      obtain ⟨before, next⟩ := interval_next balanced inside (nonempty (rank + 1) inside some)
      unfold PlanArrays.Nonempty at before ⊢
      rw [first, last, (intervals (rank + 1) inside).1]
      exact ⟨before, next⟩
    bounded := by
      intro rank inside some
      rw [(intervals rank inside).2]
      exact last_bucket_bounded balanced
        ((nonempty_iff balanced inside).mp (nonempty rank inside some))
    keyed := by
      intro bucket inside keyed
      rw [table bucket inside]
      obtain ⟨participant, only⟩ := keyed_interval balanced inside keyed
      refine ⟨participant, fun rank less => ?_⟩
      rw [(intervals rank less).1, (intervals rank less).2]
      exact only rank less
    valued := by
      intro key inside keyed rank participant
      have arrays := plan_arrays_agree input start rank
      rw [table _ inside, ← (keyed_interval balanced inside keyed).2 rank participant,
        ← (intervals rank participant).1, ← (intervals rank participant).2, ← arrays]
      exact value_interval _ _ input.bucketShift key }

/-- A bucket with the quotas of three ranks, behind it an empty one. -/
def heavyBucket : PlanInput where
  globalBucketCounts bucket := if bucket = 0 then 6 else 0
  commSize := 3
  myRank := 0
  numBuckets := 2
  bucketShift := 1
  averageKeysPerRank := 2

/-- Arrays whose interval entries are zero for three ranks only. -/
def staleArrays : PlanArrays where
  bucketToRank _ := 9
  firstBucketByRank rank := if rank < 3 then 0 else 7
  lastBucketByRank rank := if rank < 3 then 0 else 5

/-- The second rank owns the empty bucket, the third one owns nothing. -/
theorem bucket_plan_partition_heavy :
    (∃ planned, Partition heavyBucket staleArrays planned) ∧
      (heavyBucket.planArrays staleArrays).Nonempty 1 ∧
        ¬(heavyBucket.planArrays staleArrays).Nonempty 2 := by
  have balanced : heavyBucket.Balanced := ⟨by decide, by decide⟩
  have zeroed : staleArrays.Zeroed heavyBucket.commSize := by
    intro rank inside
    have less : rank < 3 := inside
    simp [staleArrays, less]
  exact ⟨bucket_plan_partition balanced (by decide) zeroed,
    show _ ≤ _ by decide, show ¬_ ≤ _ by decide⟩

end Partition

section Counts

variable {commSize : Nat} {set : KeySet commSize} {counts : Nat → Nat} {start : PlanArrays}

/-- The call of `build_bucket_plan` on `myRank` with the global bucket counts `counts`. -/
def KeySet.countedInput (set : KeySet commSize) (counts : Nat → Nat) (myRank : Nat) : PlanInput :=
  { set.planInput myRank with globalBucketCounts := counts }

theorem counted_balanced (agree : ∀ bucket < set.numBuckets, counts bucket = set.histogram bucket)
    (myRank : Nat) : (set.countedInput counts myRank).Balanced where
  average := set.positive
  total := by
    refine Eq.trans ?_ (plan_balanced set myRank).total
    apply Finset.sum_congr rfl
    intro bucket member
    exact agree bucket (Finset.mem_range.mp member)

/-- The call into stale arrays gives the plan of the keys and their routing table. -/
theorem counted_plan (agree : ∀ bucket < set.numBuckets, counts bucket = set.histogram bucket)
    (zeroed : start.Zeroed commSize) (myRank : Fin commSize) :
    ((set.countedInput counts myRank).buildBucketPlan start).2 = set.plan myRank ∧
      (∀ bucket < set.numBuckets,
        ((set.countedInput counts myRank).buildBucketPlan start).1.bucketToRank bucket =
          set.bucketToRank bucket) ∧
      (((set.countedInput counts myRank).buildBucketPlan start).1.Nonempty myRank →
        set.Owner myRank) := by
  have balanced := counted_balanced agree myRank
  have participants : 0 < commSize := Nat.zero_lt_of_lt myRank.isLt
  have planned := plan_of_counts set myRank agree
  have arrays : (set.countedInput counts myRank).arrays = (set.planInput 0).arrays :=
    (congrArg Prod.fst planned).trans (arrays_of_rank set myRank)
  obtain ⟨intervals, table, -⟩ := plan_arrays_same balanced zeroed participants
  refine ⟨?_, ?_, ?_⟩
  · exact (build_bucket_plan_same balanced zeroed myRank.isLt).trans (congrArg Prod.snd planned)
  · intro bucket inside
    exact (table bucket inside).trans (congrArg (fun made => made.bucketToRank bucket) arrays)
  · intro nonempty
    obtain ⟨first, last⟩ := intervals myRank myRank.isLt
    have kept : (set.planInput 0).arrays.Nonempty myRank := by
      unfold PlanArrays.Nonempty
      rw [← arrays, ← first, ← last]
      exact nonempty
    exact (nonempty_iff (plan_balanced set 0) myRank.isLt).mp kept

theorem count_keys_congr (set : KeySet commSize) {first second : Nat → Bool}
    (agree : ∀ rank, ∀ key ∈ set.keys rank, first key = second key) :
    set.countKeys first = set.countKeys second := by
  unfold KeySet.countKeys
  apply Finset.sum_congr rfl
  intro rank _
  apply List.countP_congr
  intro key member
  rw [agree rank key member]

/-- Counting the items of a list by their destination. -/
private theorem count_by_destination (destination : Nat → Nat) (keys : List Nat)
    (bounded : ∀ key ∈ keys, destination key < commSize) :
    ∑ rank : Fin commSize, (keys.countP fun key => destination key == rank) = keys.length := by
  induction keys with
  | nil => simp
  | cons key rest ih =>
      have tail := ih fun other member => bounded other (List.mem_cons_of_mem _ member)
      have head := bounded key List.mem_cons_self
      simp only [List.countP_cons, Finset.sum_add_distrib, tail, beq_iff_eq, List.length_cons]
      congr 1
      rw [Finset.sum_eq_single (⟨destination key, head⟩ : Fin commSize)]
      · rw [if_pos rfl]
      · intro other _ different
        rw [if_neg fun same => different (Fin.ext same.symm)]
      · intro outside
        exact absurd (Finset.mem_univ _) outside

/-- Every key is routed to one rank. -/
theorem routed_total (set : KeySet commSize) :
    ∑ rank : Fin commSize, (set.countKeys fun key => set.routeKey key == rank) =
      commSize * set.localKeyCount := by
  rw [← count_all set]
  unfold KeySet.countKeys
  rw [Finset.sum_comm]
  apply Finset.sum_congr rfl
  intro holder _
  rw [count_by_destination set.routeKey (set.keys holder) fun key member => route_bounded member]
  simp

/-- The three counts of the plan are the counts of the keys that the routing table
sends, below and in all. -/
theorem plan_counts_routed (set : KeySet commSize) (counts : Nat → Nat) (start : PlanArrays)
    (agree : ∀ bucket < set.numBuckets, counts bucket = set.histogram bucket)
    (zeroed : start.Zeroed commSize) :
    (∀ myRank : Fin commSize,
      let made := (set.countedInput counts myRank).buildBucketPlan start
      made.2.expectedRecvCount = made.2.localKeyCount ∧
        (made.2.localKeyCount = set.countKeys fun key =>
          made.1.bucketToRank (key >>> set.bucketShift) == myRank) ∧
        (made.1.Nonempty myRank →
          made.2.lesserKeyCount = set.countKeys fun key => decide (key < made.2.minKeyValue))) ∧
      ∑ myRank : Fin commSize,
          ((set.countedInput counts myRank).buildBucketPlan start).2.expectedRecvCount =
        commSize * set.localKeyCount := by
  constructor
  · intro myRank made
    obtain ⟨plan, table, owner⟩ := counted_plan agree zeroed myRank
    have routed : (set.countKeys fun key =>
        made.1.bucketToRank (key >>> set.bucketShift) == myRank) =
          set.countKeys fun key => set.routeKey key == myRank := by
      apply count_keys_congr
      intro holder key member
      rw [table (key >>> set.bucketShift) (bucket_bounded member)]
      rfl
    refine ⟨?_, ?_, ?_⟩
    · rw [plan, expected_routed set myRank.isLt, local_routed set myRank.isLt]
    · rw [plan, routed]
      exact local_routed set myRank.isLt
    · intro nonempty
      rw [plan]
      exact lesser_keys (owner nonempty)
  · rw [← routed_total set]
    apply Finset.sum_congr rfl
    intro myRank _
    rw [(counted_plan agree zeroed myRank).1, expected_routed set myRank.isLt]

/-- One key on each of three ranks; the second rank will own an empty bucket. -/
def squareKeys : KeySet 3 where
  keys rank := [rank * rank]
  localKeyCount := 1
  numBuckets := 3
  bucketShift := 1
  length_eq _ := rfl
  positive := Nat.one_pos
  in_range := by decide

/-- The reduced counts; behind them stands what the reduction leaves for the test keys. -/
def squareCounts (bucket : Nat) : Nat := if bucket < 3 then squareKeys.histogram bucket else 8

theorem plan_counts_routed_square :
    (∀ myRank : Fin 3,
      let made := (squareKeys.countedInput squareCounts myRank).buildBucketPlan staleArrays
      made.2.expectedRecvCount = made.2.localKeyCount ∧
        (made.2.localKeyCount = squareKeys.countKeys fun key =>
          made.1.bucketToRank (key >>> squareKeys.bucketShift) == myRank) ∧
        (made.1.Nonempty myRank → made.2.lesserKeyCount =
          squareKeys.countKeys fun key => decide (key < made.2.minKeyValue))) ∧
      (squareKeys.countedInput squareCounts 1).arrays.Nonempty 1 ∧
        ((squareKeys.countedInput squareCounts 1).buildBucketPlan staleArrays).2.localKeyCount =
          0 := by
  have agree : ∀ bucket < squareKeys.numBuckets,
      squareCounts bucket = squareKeys.histogram bucket :=
    fun bucket inside => if_pos inside
  have zeroed : staleArrays.Zeroed 3 := by
    intro rank inside
    simp [staleArrays, inside]
  exact ⟨(plan_counts_routed squareKeys squareCounts staleArrays agree zeroed).1,
    show _ ≤ _ by decide, by decide⟩

end Counts

end IntegerSortLci.Benchmark
