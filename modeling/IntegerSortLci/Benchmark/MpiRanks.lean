import IntegerSortLci.Benchmark.MpiBaseline
import IntegerSortLci.Foundations.Chunks
import Mathlib.Algebra.BigOperators.Fin

/-!
# What the baseline computes

The slices of `key_buff1` hold the keys of consecutive buckets, the distribution loop
makes the same cuts as `build_bucket_plan`, and so the exchange brings each rank the
keys that the routing table sends to it.
-/

namespace IntegerSortLci.Benchmark

open IntegerSortLci.Foundations
open scoped BigOperators

set_option autoImplicit false

variable {commSize : Nat} {set : KeySet commSize} {testIndex : Nat → Nat}
variable {stale : Fin commSize → BaselineArrays} {rank : Fin commSize} {bucket : Nat}

section Buckets

/-- Where a rank's keys of `bucket` begin once they are sorted into buckets. -/
def KeySet.localPrefix (set : KeySet commSize) (rank : Fin commSize) (bucket : Nat) : Nat :=
  ∑ lower ∈ Finset.range bucket, set.localHistogram rank lower

theorem local_prefix_succ (set : KeySet commSize) (rank : Fin commSize) (bucket : Nat) :
    set.localPrefix rank (bucket + 1) =
      set.localPrefix rank bucket + set.localHistogram rank bucket :=
  Finset.sum_range_succ _ _

theorem local_prefix_mono (set : KeySet commSize) (rank : Fin commSize) {first second : Nat}
    (le : first ≤ second) : set.localPrefix rank first ≤ set.localPrefix rank second :=
  Finset.sum_le_sum_of_subset (Finset.range_mono le)

theorem bucket_size_histogram (arrays : BaselineArrays) (inside : bucket < set.numBuckets) :
    (arrays.sortIntoBuckets set testIndex rank).bucketSize bucket =
      set.localHistogram rank bucket := by
  unfold BaselineArrays.sortIntoBuckets
  dsimp only
  rw [increments_count, capture_below _ _ _ _ _ _ inside, Nat.zero_add]
  rfl

/-- The regions of the buckets follow each other. -/
theorem buckets_apart (set : KeySet commSize) (rank : Fin commSize) :
    Apart {bucket | bucket < set.numBuckets} (set.localPrefix rank) (set.localHistogram rank) := by
  intro first _ second _ different
  rw [← local_prefix_succ, ← local_prefix_succ]
  rcases Nat.lt_or_gt_of_ne different with less | more
  · exact .inl (local_prefix_mono set rank less)
  · exact .inr (local_prefix_mono set rank more)

theorem sorted_bucket (arrays : BaselineArrays) (inside : bucket < set.numBuckets) :
    slice (arrays.sortIntoBuckets set testIndex rank).keyBuff1 (set.localPrefix rank bucket)
        (set.localHistogram rank bucket) =
      (set.keys rank).filter fun key => set.bucketOf key == bucket := by
  refine (scatter_filter _ (buckets_apart set rank) ?_ ?_ ?_ bucket inside).2
  · intro other bounded
    rw [displacements_sum _ _ bounded]
    apply Finset.sum_congr rfl
    intro lower member
    exact bucket_size_histogram arrays ((Finset.mem_range.mp member).trans bounded)
  · intro key member
    exact bucket_bounded member
  · intro other _
    exact Nat.le_refl _

/-- The items of consecutive groups are the items with a group in the interval. -/
theorem filter_interval (group : Nat → Nat) (keys : Multiset Nat) {first last : Nat}
    (order : first ≤ last) :
    ∑ bucket ∈ Finset.Ico first last, keys.filter (fun key => group key = bucket) =
      keys.filter fun key => first ≤ group key ∧ group key < last := by
  induction last, order using Nat.le_induction with
  | base =>
      rw [Finset.Ico_self, Finset.sum_empty]
      symm
      apply Multiset.filter_eq_nil.mpr
      intro key _
      omega
  | succ last order ih =>
      rw [Finset.sum_Ico_succ_top order, ih, Multiset.filter_add_filter]
      have never : keys.filter (fun key =>
          (first ≤ group key ∧ group key < last) ∧ group key = last) = 0 := by
        apply Multiset.filter_eq_nil.mpr
        intro key _
        omega
      rw [never, add_zero]
      apply Multiset.filter_congr
      intro key _
      omega

/-- The keys of consecutive buckets. -/
theorem sorted_interval (testIndex : Nat → Nat) (arrays : BaselineArrays) {first last : Nat}
    (order : first ≤ last)
    (bounded : last ≤ set.numBuckets) {count : Nat}
    (size : set.localPrefix rank first + count = set.localPrefix rank last) :
    (slice (arrays.sortIntoBuckets set testIndex rank).keyBuff1 (set.localPrefix rank first)
        count : Multiset Nat) =
      (set.keys rank : Multiset Nat).filter fun key =>
        first ≤ set.bucketOf key ∧ set.bucketOf key < last := by
  have pieces := slice_pieces (arrays.sortIntoBuckets set testIndex rank).keyBuff1
    (set.localHistogram rank) order
  have split := Finset.sum_range_add_sum_Ico (set.localHistogram rank) order
  have total : ∑ bucket ∈ Finset.Ico first last, set.localHistogram rank bucket = count := by
    unfold KeySet.localPrefix at size
    omega
  rw [total] at pieces
  rw [← filter_interval set.bucketOf _ order]
  refine pieces.trans (Finset.sum_congr rfl ?_)
  intro bucket member
  have inside := (Finset.mem_Ico.mp member).2.trans_le bounded
  have sorted : slice (arrays.sortIntoBuckets set testIndex rank).keyBuff1
      (∑ lower ∈ Finset.range bucket, set.localHistogram rank lower)
      (set.localHistogram rank bucket) = _ := sorted_bucket arrays inside
  rw [sorted, Multiset.filter_coe]
  rfl

end Buckets

section Distribution

variable {input : PlanInput} {sizes : Nat → Nat} {count : Nat}
variable {plan : PlanState} {state : Distribution}

/-- The distribution loop and the loop of `build_bucket_plan` after the same buckets.
On top of the intervals the baseline has the slices of `sizes` that they cut out. -/
structure Distributed (sizes : Nat → Nat) (count : Nat) (plan : PlanState)
    (state : Distribution) : Prop where
  accumulated : state.bucketSumAccumulator = plan.bucketSumAccumulator
  owner : state.j = plan.ownerRank
  firsts : state.processBucketDistribPtr1 = plan.firstBucketByRank
  lasts : state.processBucketDistribPtr2 = plan.lastBucketByRank
  start : state.sendDispl 0 = 0
  pending : ∑ bucket ∈ Finset.range (plan.cut plan.ownerRank), sizes bucket +
    state.localBucketSumAccumulator = ∑ bucket ∈ Finset.range count, sizes bucket
  displ : ∀ rank < plan.ownerRank,
    state.sendDispl rank = ∑ bucket ∈ Finset.range (plan.cut rank), sizes bucket
  sent : ∀ rank < plan.ownerRank,
    ∑ bucket ∈ Finset.range (plan.cut rank), sizes bucket + state.sendCount rank =
      ∑ bucket ∈ Finset.range (plan.cut (rank + 1)), sizes bucket

theorem distributed_step (distributed : Distributed sizes count plan state) :
    Distributed sizes (count + 1) (input.assignBucket plan count)
      (state.distributeBucket input.globalBucketCounts sizes input.averageKeysPerRank count) := by
  obtain ⟨accumulated, owner, firsts, lasts, start, pending, displ, sent⟩ := distributed
  have more := Finset.sum_range_succ sizes count
  unfold PlanInput.assignBucket Distribution.distributeBucket
  rw [accumulated, owner, firsts, lasts]
  dsimp only
  by_cases filled : (plan.ownerRank + 1) * input.averageKeysPerRank ≤
      plan.bucketSumAccumulator + input.globalBucketCounts count
  · rw [if_pos filled, if_pos filled]
    have earlier : ∀ {rank}, rank ≤ plan.ownerRank → ∀ bucketToRank firstBucketByRank,
        PlanArrays.cut ⟨bucketToRank, firstBucketByRank,
          Function.update plan.lastBucketByRank plan.ownerRank count⟩ rank = plan.cut rank :=
      fun le _ _ => cut_update plan.toPlanArrays le count _ _
    have next : ∀ bucketToRank firstBucketByRank,
        PlanArrays.cut ⟨bucketToRank, firstBucketByRank,
          Function.update plan.lastBucketByRank plan.ownerRank count⟩ (plan.ownerRank + 1) =
            count + 1 := by
      intro bucketToRank firstBucketByRank
      simp [PlanArrays.cut]
    have cases : ∀ {rank}, rank < plan.ownerRank + 1 →
        rank < plan.ownerRank ∨ rank = plan.ownerRank := by
      intro rank less
      omega
    exact {
      accumulated := rfl
      owner := rfl
      firsts := rfl
      lasts := rfl
      start := by
        dsimp only
        by_cases zero : plan.ownerRank = 0
        · rw [if_neg (not_not.mpr zero)]
          exact start
        · rw [if_pos zero, Function.update_of_ne (Ne.symm zero)]
          exact start
      pending := by
        rw [next]
        rfl
      displ := by
        intro rank less
        dsimp only
        rw [earlier (Nat.lt_succ_iff.mp less)]
        rcases cases less with before | rfl
        · rw [if_pos (by omega), Function.update_of_ne (Nat.ne_of_lt before)]
          exact displ rank before
        · by_cases zero : plan.ownerRank = 0
          · rw [if_neg (not_not.mpr zero), zero, start]
            rfl
          · -- the slice begins behind that of the rank before
            have previous := sent (plan.ownerRank - 1) (by omega)
            rw [Nat.sub_add_cancel (by omega)] at previous
            have different : plan.ownerRank - 1 ≠ plan.ownerRank := by omega
            rw [if_pos zero, Function.update_self, Function.update_of_ne different,
              displ _ (by omega), previous]
      sent := by
        intro rank less
        dsimp only
        rcases cases less with before | rfl
        · rw [earlier (Nat.le_of_lt before), earlier (Nat.succ_le_of_lt before),
            Function.update_of_ne (Nat.ne_of_lt before)]
          exact sent rank before
        · rw [earlier (Nat.le_refl _), next, Function.update_self, more, ← pending, Nat.add_assoc] }
  · rw [if_neg filled, if_neg filled]
    exact {
      accumulated := rfl
      owner := rfl
      firsts := rfl
      lasts := rfl
      start := start
      pending := by
        change _ + (state.localBucketSumAccumulator + sizes count) = _
        rw [more, ← pending, Nat.add_assoc]
        rfl
      displ := displ
      sent := sent }

theorem distribute_buckets
    (start : Distributed sizes 0 (input.assignBuckets clearedArrays 0) state) :
    Distributed sizes count (input.assignBuckets clearedArrays count)
      (state.distributeBuckets input.globalBucketCounts sizes input.averageKeysPerRank count) := by
  induction count with
  | zero => exact start
  | succ count ih =>
      unfold Distribution.distributeBuckets at ih ⊢
      rw [List.range_succ, List.foldl_append, List.foldl_cons, List.foldl_nil]
      exact distributed_step ih

private theorem skip_fold (ranks : List Nat) (state : Distribution) :
    let skipped := ranks.foldl Distribution.skipRank state
    skipped.sendCount =
        ranks.foldl (fun counts rank => Function.update counts rank 0) state.sendCount ∧
      skipped.processBucketDistribPtr1 = ranks.foldl
        (fun firsts rank => Function.update firsts rank 1) state.processBucketDistribPtr1 ∧
      skipped.sendDispl = state.sendDispl ∧
      skipped.processBucketDistribPtr2 = state.processBucketDistribPtr2 := by
  induction ranks generalizing state with
  | nil => exact ⟨rfl, rfl, rfl, rfl⟩
  | cons rank rest ih => exact ih (state.skipRank rank)

/-- The ranks that got no bucket send nothing and have an interval that starts at 1. -/
theorem skip_ranks (state : Distribution) (commSize : Nat) :
    (∀ rank, (state.skipRanks commSize).sendCount rank =
        if state.j ≤ rank ∧ rank < commSize then 0 else state.sendCount rank) ∧
      (∀ rank, (state.skipRanks commSize).processBucketDistribPtr1 rank =
        if state.j ≤ rank ∧ rank < commSize then 1 else state.processBucketDistribPtr1 rank) ∧
      (state.skipRanks commSize).sendDispl = state.sendDispl ∧
      (state.skipRanks commSize).processBucketDistribPtr2 = state.processBucketDistribPtr2 := by
  have bound : ∀ rank, (state.j ≤ rank ∧ rank < commSize) ↔
      state.j ≤ rank ∧ rank < state.j + (commSize - state.j) := by
    intro rank
    omega
  obtain ⟨counts, firsts, displs, lasts⟩ :=
    skip_fold (List.range' state.j (commSize - state.j)) state
  unfold Distribution.skipRanks
  refine ⟨?_, ?_, displs, lasts⟩
  · intro rank
    rw [counts, fill_range]
    simp only [bound]
  · intro rank
    rw [firsts, fill_range]
    simp only [bound]

end Distribution

section Exchange

theorem reduced_totals (stale : Fin commSize → BaselineArrays) (rank : Fin commSize)
    (inside : bucket < set.numBuckets) :
    (BaselineArrays.reduced set testIndex stale rank).bucketSizeTotals bucket =
      set.histogram bucket := by
  unfold BaselineArrays.reduced allreduce
  dsimp only
  rw [if_pos (Nat.lt_add_right testArraySize inside)]
  apply Finset.sum_congr rfl
  intro other _
  exact bucket_size_histogram (stale other) inside

/-- The loop over the reduced counts ends as the one of `build_bucket_plan` does. -/
theorem distribution_end (set : KeySet commSize) (testIndex : Nat → Nat)
    (stale : Fin commSize → BaselineArrays) (rank : Fin commSize) :
    let reduced := BaselineArrays.reduced set testIndex stale rank
    Distributed reduced.bucketSize set.numBuckets (set.planInput 0).finalScan
      (reduced.distributionEnd set) := by
  intro reduced
  let input : PlanInput := { set.planInput 0 with globalBucketCounts := reduced.bucketSizeTotals }
  have same : input.assignBuckets clearedArrays set.numBuckets = (set.planInput 0).finalScan :=
    assign_buckets_congr (set.planInput 0) clearedArrays set.numBuckets
      fun bucket less => reduced_totals stale rank less
  have started : Distributed reduced.bucketSize 0 (input.assignBuckets clearedArrays 0)
      reduced.distributionStart := by
    constructor <;>
      simp [PlanInput.assignBuckets, clearedArrays, PlanArrays.cut, reduced,
        BaselineArrays.distributionStart, BaselineArrays.reduced, BaselineArrays.sortIntoBuckets]
  rw [← same]
  exact distribute_buckets started

/-- What the distribution leaves on a rank, in terms of the plan of the keys. -/
theorem distributed_plan (set : KeySet commSize) (testIndex : Nat → Nat)
    (stale : Fin commSize → BaselineArrays) (rank : Fin commSize) :
    let arrays := BaselineArrays.distributed set testIndex stale rank
    let scan := (set.planInput 0).finalScan
    (∀ dest < commSize,
      arrays.processBucketDistribPtr1 dest =
          (set.planInput 0).arrays.firstBucketByRank dest ∧
        arrays.processBucketDistribPtr2 dest =
          (set.planInput 0).arrays.lastBucketByRank dest) ∧
      (∀ dest < scan.ownerRank,
        arrays.sendDispl dest = set.localPrefix rank (scan.cut dest) ∧
          set.localPrefix rank (scan.cut dest) + arrays.sendCount dest =
            set.localPrefix rank (scan.cut (dest + 1))) ∧
      ∀ dest, scan.ownerRank ≤ dest → dest < commSize → arrays.sendCount dest = 0 := by
  intro arrays scan
  have ended := distribution_end set testIndex stale rank
  obtain ⟨counts, firsts, displs, lasts⟩ := skip_ranks
    ((BaselineArrays.reduced set testIndex stale rank).distributionEnd set) commSize
  rw [ended.owner] at counts firsts
  have sizes : ∀ last ≤ set.numBuckets, ∑ bucket ∈ Finset.range last,
      (BaselineArrays.reduced set testIndex stale rank).bucketSize bucket =
        set.localPrefix rank last := by
    intro last bounded
    apply Finset.sum_congr rfl
    intro bucket member
    exact bucket_size_histogram (stale rank) ((Finset.mem_range.mp member).trans_le bounded)
  have scanned := final_scanned (plan_balanced set 0)
  refine ⟨?_, ?_, ?_⟩
  · intro dest inside
    constructor
    · calc arrays.processBucketDistribPtr1 dest
          = _ := firsts dest
        _ = (set.planInput 0).markIdleRanks scan.firstBucketByRank scan.ownerRank dest := by
          rw [mark_idle_ranks, ended.firsts]
          rfl
        _ = (set.planInput 0).arrays.firstBucketByRank dest := rfl
    · exact congrFun (lasts.trans ended.lasts) dest
  · intro dest owner
    obtain ⟨order, bounded⟩ := scanned.ordered dest owner
    have idle : ¬(scan.ownerRank ≤ dest ∧ dest < commSize) := by omega
    have count : arrays.sendCount dest = _ := (counts dest).trans (if_neg idle)
    have displ : arrays.sendDispl dest = _ := congrFun displs dest
    have sent := ended.sent dest owner
    rw [sizes _ (order.trans (Nat.le_of_lt bounded)), cut_succ, sizes _ bounded] at sent
    rw [count, displ, ended.displ dest owner, sizes _ (order.trans (Nat.le_of_lt bounded))]
    exact ⟨rfl, sent⟩
  · intro dest idle inside
    exact (counts dest).trans (if_pos ⟨idle, inside⟩)

/-- The slice that `source` sends to `dest` holds the keys routed to `dest`. -/
theorem sent_slice (set : KeySet commSize) (testIndex : Nat → Nat)
    (stale : Fin commSize → BaselineArrays) (source dest : Fin commSize) :
    let arrays := BaselineArrays.distributed set testIndex stale source
    (slice arrays.keyBuff1 (arrays.sendDispl dest) (arrays.sendCount dest) : Multiset Nat) =
      (set.keys source : Multiset Nat).filter fun key => set.routeKey key = dest := by
  intro arrays
  obtain ⟨-, owners, idle⟩ := distributed_plan set testIndex stale source
  have balanced := plan_balanced set 0
  by_cases owner : dest.val < (set.planInput 0).finalScan.ownerRank
  · obtain ⟨displ, count⟩ := owners dest owner
    obtain ⟨first, last⟩ := owner_interval balanced owner
    have bounded := last_bucket_bounded balanced owner
    have order := cut_increasing balanced (Nat.lt_succ_self dest.val) owner
    have interval := sorted_interval testIndex (stale source) (Nat.le_of_lt order)
      (by rw [cut_succ, ← last]; exact bounded) count
    rw [displ]
    refine interval.trans (Multiset.filter_congr ?_)
    intro key member
    have routed := interval_iff balanced dest.isLt (bucket_bounded (Multiset.mem_coe.mp member))
    rw [first, last] at routed
    constructor
    · rintro ⟨low, high⟩
      exact (routed.mp ⟨low, Nat.lt_succ_iff.mp high⟩).1
    · intro same
      obtain ⟨low, high⟩ := routed.mpr ⟨same, owner⟩
      exact ⟨low, Nat.lt_succ_iff.mpr high⟩
  · have nothing : arrays.sendCount dest = 0 := idle dest (Nat.le_of_not_lt owner) dest.isLt
    rw [nothing, slice_zero]
    symm
    apply Multiset.filter_eq_nil.mpr
    intro key member same
    have owned := route_owned (Multiset.mem_coe.mp member)
    rw [same] at owned
    exact owner owned

/-- The pieces of `key_buff2` lie behind each other and hold what each source has for
the rank. -/
theorem received_piece (set : KeySet commSize) (testIndex : Nat → Nat)
    (stale : Fin commSize → BaselineArrays) (rank source : Fin commSize) :
    let exchanged := BaselineArrays.exchanged set testIndex stale rank
    (slice exchanged.keyBuff2 (∑ earlier ∈ Finset.range source, exchanged.recvCount earlier)
        (exchanged.recvCount source) : Multiset Nat) =
      (set.keys source : Multiset Nat).filter fun key => set.routeKey key = rank := by
  intro exchanged
  have counts : exchanged.recvCount source =
      (BaselineArrays.distributed set testIndex stale source).sendCount rank :=
    dif_pos source.isLt
  have displs : ∀ other : Fin commSize, exchanged.recvDispl other =
      ∑ earlier ∈ Finset.range other, exchanged.recvCount earlier :=
    fun other => displacements_sum _ _ other.isLt
  have apart : (List.finRange commSize).Pairwise fun one another : Fin commSize =>
      exchanged.recvDispl one + exchanged.recvCount one ≤ exchanged.recvDispl another := by
    apply (List.pairwise_lt_finRange commSize).imp
    intro one another less
    rw [displs, displs, ← Finset.sum_range_succ]
    exact Finset.sum_le_sum_of_subset (Finset.range_mono less)
  have copied := copy_slices (List.finRange commSize)
    (fun other => (BaselineArrays.distributed set testIndex stale other).keyBuff1)
    (fun other => (BaselineArrays.distributed set testIndex stale other).sendDispl rank)
    (fun other => exchanged.recvCount other) (fun other => exchanged.recvDispl other)
    (BaselineArrays.distributed set testIndex stale rank).keyBuff2 apart source
    (List.mem_finRange source)
  rw [← displs, ← sent_slice set testIndex stale source rank, ← counts]
  exact congrArg _ copied

/-- `key_buff2` holds the keys routed to the rank. -/
theorem received_keys (set : KeySet commSize) (testIndex : Nat → Nat)
    (stale : Fin commSize → BaselineArrays) (rank : Fin commSize) :
    (slice (BaselineArrays.exchanged set testIndex stale rank).keyBuff2 0
        (set.plan rank).localKeyCount : Multiset Nat) =
      ∑ source, (set.keys source : Multiset Nat).filter fun key => set.routeKey key = rank := by
  have whole := slice_pieces (BaselineArrays.exchanged set testIndex stale rank).keyBuff2
    (BaselineArrays.exchanged set testIndex stale rank).recvCount (Nat.zero_le commSize)
  rw [Finset.sum_range_zero, ← Finset.range_eq_Ico, Finset.sum_range, Finset.sum_range] at whole
  simp only [received_piece] at whole
  have total : ∑ source : Fin commSize,
      (BaselineArrays.exchanged set testIndex stale rank).recvCount source =
        (set.plan rank).localKeyCount := by
    have card := congrArg Multiset.card whole
    rw [Multiset.coe_card, slice_length, Multiset.card_sum] at card
    rw [card, local_routed set rank.isLt]
    apply Finset.sum_congr rfl
    intro source _
    rw [Multiset.filter_coe, Multiset.coe_card, List.countP_eq_length_filter]
    rfl
  rw [← total]
  exact whole

/-- The baseline's interval, its number of lesser keys and its number of local keys are
those of `build_bucket_plan`. -/
theorem baseline_plan (set : KeySet commSize) (testIndex : Nat → Nat)
    (stale : Fin commSize → BaselineArrays) (rank : Fin commSize) :
    let ranks := baselineRank set testIndex stale rank
    ranks.minKeyVal = (set.plan rank).minKeyValue ∧
      ranks.maxKeyVal = (set.plan rank).maxKeyValue ∧
      ranks.m = (set.plan rank).lesserKeyCount ∧ ranks.j = (set.plan rank).localKeyCount := by
  intro ranks
  obtain ⟨intervals, -, -⟩ := distributed_plan set testIndex stale rank
  have arrays := arrays_of_rank set rank
  have totals : ∀ k : Nat, k < commSize →
      ∑ i ∈ Finset.Icc
          ((BaselineArrays.exchanged set testIndex stale rank).processBucketDistribPtr1 k)
          ((BaselineArrays.exchanged set testIndex stale rank).processBucketDistribPtr2 k),
        (BaselineArrays.exchanged set testIndex stale rank).bucketSizeTotals i =
      (set.planInput rank).sumBuckets ((set.planInput rank).arrays.firstBucketByRank k)
        ((set.planInput rank).arrays.lastBucketByRank k) := by
    intro k inside
    obtain ⟨first, last⟩ := intervals k inside
    rw [← sum_buckets_congr (plan_balanced set rank) inside
      fun bucket less => reduced_totals stale rank less, arrays, ← first, ← last]
    rfl
  obtain ⟨first, last⟩ := intervals rank rank.isLt
  rw [← arrays] at first last
  refine ⟨?_, ?_, ?_, totals rank rank.isLt⟩
  · exact congrArg (· <<< set.bucketShift) first
  · exact congrArg (fun last => ((last + 1) <<< set.bucketShift) - 1) last
  · exact Finset.sum_congr rfl
      fun k member => totals k ((Finset.mem_range.mp member).trans rank.isLt)

end Exchange

section Counts

variable {key : Nat}

/-- How many keys the first `count` values of a rank's interval have in all arrays. -/
def KeySet.intervalCount (set : KeySet commSize) (rank : Fin commSize) (count : Nat) : Nat :=
  ∑ i ∈ Finset.range count, set.occurrences ((set.plan rank).minKeyValue + i)

/-- How many key values a rank's interval has. -/
def KeySet.intervalRange (set : KeySet commSize) (rank : Fin commSize) : Nat :=
  (set.plan rank).maxKeyValue + 1 - (set.plan rank).minKeyValue

theorem interval_count_succ (set : KeySet commSize) (rank : Fin commSize) (count : Nat) :
    set.intervalCount rank (count + 1) =
      set.intervalCount rank count + set.occurrences ((set.plan rank).minKeyValue + count) :=
  Finset.sum_range_succ _ _

/-- The whole interval has the keys that the rank expects. -/
theorem interval_total (set : KeySet commSize) (rank : Fin commSize) :
    set.intervalCount rank (set.intervalRange rank) = (set.plan rank).localKeyCount := by
  unfold KeySet.intervalCount KeySet.intervalRange
  rw [occurrences_sum, local_routed set rank.isLt]
  unfold KeySet.countKeys
  apply Finset.sum_congr rfl
  intro source _
  apply List.countP_congr
  intro key member
  rw [decide_eq_true_eq, beq_iff_eq]
  constructor
  · rintro ⟨low, high⟩
    exact (interval_routed rank.isLt ⟨low, by omega⟩).2.1
  · intro routed
    have between := routed_interval member
    rw [routed] at between
    omega

/-- The intervals of the values as chunks of the rank's keys. -/
def intervalChunks (set : KeySet commSize) (rank : Fin commSize) :
    Chunks (set.intervalRange rank) (set.plan rank).localKeyCount where
  bound := set.intervalCount rank
  start := rfl
  ordered count := by
    rw [interval_count_succ]
    exact Nat.le_add_right _ _
  covers := interval_total set rank

theorem received_inside
    (member : key ∈ slice (BaselineArrays.exchanged set testIndex stale rank).keyBuff2 0
      (set.plan rank).localKeyCount) :
    (set.plan rank).minKeyValue ≤ key ∧ key ≤ (set.plan rank).maxKeyValue := by
  rw [← Multiset.mem_coe, received_keys, Multiset.mem_sum] at member
  obtain ⟨source, -, listed⟩ := member
  obtain ⟨held, routed⟩ := Multiset.mem_filter.mp listed
  rw [← routed]
  exact routed_interval (Multiset.mem_coe.mp held)

theorem received_count (low : (set.plan rank).minKeyValue ≤ key)
    (high : key ≤ (set.plan rank).maxKeyValue) :
    (slice (BaselineArrays.exchanged set testIndex stale rank).keyBuff2 0
      (set.plan rank).localKeyCount).count key = set.occurrences key := by
  have routed := (interval_routed rank.isLt ⟨low, high⟩).2.1
  rw [← Multiset.coe_count, received_keys, Multiset.count_sum']
  apply Finset.sum_congr rfl
  intro source _
  rw [Multiset.count_filter, if_pos routed, Multiset.coe_count]

/-- The entries of `key_buff1` count the keys in `key_buff2` up to each value. -/
theorem cumulative_population {arrays : BaselineArrays} {ranks : BaselineRanks}
    (ranked : arrays.rankKeys set rank = ranks) (low : ranks.minKeyVal ≤ key)
    (high : key ≤ ranks.maxKeyVal) :
    ranks.keyBuffPtr key = ∑ i ∈ Finset.range (key - ranks.minKeyVal + 1),
      (slice ranks.keyBuff2 0 ranks.j).count (ranks.minKeyVal + i) := by
  subst ranked
  unfold BaselineRanks.keyBuffPtr
  generalize first : (arrays.rankKeys set rank).minKeyVal = minKeyVal at low ⊢
  generalize last : (arrays.rankKeys set rank).maxKeyVal = maxKeyVal at high
  unfold BaselineArrays.rankKeys at first last ⊢
  dsimp only at first last ⊢
  rw [first, last]
  have index : (key : Int) - minKeyVal = 0 + ((key - minKeyVal : Nat) : Int) := by omega
  rw [index, (accumulate_sum _ 0 (maxKeyVal - minKeyVal)).1 _ (by omega)]
  apply Finset.sum_congr rfl
  intro i member
  have inside := Finset.mem_range.mp member
  rw [increments_count, if_pos (by omega), Nat.zero_add, List.count_eq_countP]
  apply List.countP_congr
  intro other _
  rw [beq_iff_eq, beq_iff_eq]
  omega

/-- The entry of `key` in `key_buff1` counts the keys of the interval up to it. -/
theorem baseline_cumulative (low : (set.plan rank).minKeyValue ≤ key)
    (high : key ≤ (set.plan rank).maxKeyValue) :
    (baselineRank set testIndex stale rank).keyBuffPtr key =
      set.intervalCount rank (key - (set.plan rank).minKeyValue + 1) := by
  obtain ⟨min, max, -, total⟩ := baseline_plan set testIndex stale rank
  rw [← min] at low
  rw [← max] at high
  have ranked : (BaselineArrays.exchanged set testIndex stale rank).rankKeys set rank =
    baselineRank set testIndex stale rank := rfl
  rw [cumulative_population ranked low high, min, total]
  rw [min] at low
  rw [max] at high
  apply Finset.sum_congr rfl
  intro i member
  have inside := Finset.mem_range.mp member
  exact received_count (by omega) (by omega)

end Counts

end IntegerSortLci.Benchmark
