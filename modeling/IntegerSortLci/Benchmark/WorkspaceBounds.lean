import IntegerSortLci.Benchmark.FullVerification
import IntegerSortLci.Benchmark.PlanArithmetic
import Mathlib.Algebra.BigOperators.Fin

/-!
# The size of the workspace

The arrays of the workspace have `compute_work_buffer_size` entries, a number that follows
from the number of ranks alone. The accesses of one iteration that depend on the bucket
plan are listed: those of `clear_frequency_range`, of the receive handler, of
`compute_local_ranks` and of `full_verify`. They are inside the arrays exactly when the
buckets that the bucket counts give the rank are few and light enough.

The sizes are made for the keys that the benchmark generates. Keys that crowd into one
bucket do not fit.
-/

namespace IntegerSortLci.Benchmark

open IntegerSortLci.Foundations
open scoped BigOperators

set_option autoImplicit false

inductive WorkspaceArray where
  | keys | frequencyStorage | cumulativeStorage
  deriving DecidableEq, Repr

structure WorkspaceAccess where
  array : WorkspaceArray
  index : Int

/-- The access is inside an array of `size` entries. -/
def WorkspaceAccess.Inside (size : Nat) (access : WorkspaceAccess) : Prop :=
  0 ≤ access.index ∧ access.index < size

namespace KeySet

variable {commSize : Nat} (set : KeySet commSize)

/-- The entry that `frequency_by_key` and `cumulative_by_key` have for `key`. -/
def byKey (rank : Nat) (key : Int) : Int := key - (set.plan rank).minKeyValue

def clearAccesses (rank : Nat) : List WorkspaceAccess :=
  let plan := set.plan rank
  if plan.maxKeyValue < plan.minKeyValue then []
  else
    (List.range (plan.maxKeyValue - plan.minKeyValue + 1)).flatMap fun i : Nat =>
      [⟨.frequencyStorage, i⟩, ⟨.cumulativeStorage, i⟩]

/-- The receive handler increments the entry of every key that is routed to the rank. -/
def receiveAccesses (rank : Nat) : List WorkspaceAccess :=
  (List.finRange commSize).flatMap fun holder =>
    ((set.keys holder).filter fun key => set.routeKey key == rank).map fun key : Nat =>
      ⟨.frequencyStorage, set.byKey rank key⟩

def rankingAccesses (rank : Nat) : List WorkspaceAccess :=
  let plan := set.plan rank
  (List.range ((plan.maxKeyValue : Int) - plan.minKeyValue + 1).toNat).flatMap fun i : Nat =>
    [⟨.frequencyStorage, set.byKey rank (plan.minKeyValue + i)⟩,
      ⟨.cumulativeStorage, set.byKey rank (plan.minKeyValue + i)⟩]

/-- The loop of `full_verify` reads a count for each key of the interval, and writes the
sorted keys from the front of the key array. -/
def verifyAccesses (rank : Nat) : List WorkspaceAccess :=
  ((set.snapshot rank).keyValues.map fun key =>
    ⟨.frequencyStorage, set.byKey rank key⟩) ++
  (List.range ((set.snapshot rank).rebuild (set.verifyingRanks.keyArrays rank)).1).map
    fun idx : Nat => ⟨.keys, idx⟩

def workspaceAccesses (rank : Nat) : List WorkspaceAccess :=
  set.clearAccesses rank ++ (set.receiveAccesses rank ++
    (set.rankingAccesses rank ++ set.verifyAccesses rank))

/-- How many key values the rank's interval has. -/
def intervalWidth (rank : Nat) : Nat :=
  (set.plan rank).maxKeyValue + 1 - (set.plan rank).minKeyValue

end KeySet

section Accesses

variable {commSize size rank : Nat} {set : KeySet commSize}

theorem inside_of_lt {array : WorkspaceArray} {index bound : Nat} (less : index < bound)
    (fits : bound ≤ size) : (WorkspaceAccess.mk array index).Inside size :=
  ⟨Int.natCast_nonneg index, by
    change (index : Int) < size
    omega⟩

theorem by_key_inside {array : WorkspaceArray} {key : Nat}
    (low : (set.plan rank).minKeyValue ≤ key) (high : key ≤ (set.plan rank).maxKeyValue)
    (fits : set.intervalWidth rank ≤ size) :
    (WorkspaceAccess.mk array (set.byKey rank key)).Inside size := by
  unfold KeySet.intervalWidth at fits
  unfold WorkspaceAccess.Inside KeySet.byKey
  dsimp only
  omega

theorem clear_accesses_inside (fits : set.intervalWidth rank ≤ size) :
    ∀ access ∈ set.clearAccesses rank, access.Inside size := by
  intro access listed
  unfold KeySet.clearAccesses at listed
  unfold KeySet.intervalWidth at fits
  dsimp only at listed
  split at listed
  case isTrue => exact absurd listed List.not_mem_nil
  case isFalse nonempty =>
    obtain ⟨i, member, touched⟩ := List.mem_flatMap.mp listed
    have less := List.mem_range.mp member
    simp only [List.mem_cons, List.not_mem_nil, or_false] at touched
    rcases touched with rfl | rfl
    all_goals exact inside_of_lt less (by omega)

theorem receive_accesses_inside (fits : set.intervalWidth rank ≤ size) :
    ∀ access ∈ set.receiveAccesses rank, access.Inside size := by
  intro access listed
  obtain ⟨holder, -, handled⟩ := List.mem_flatMap.mp listed
  obtain ⟨key, received, rfl⟩ := List.mem_map.mp handled
  obtain ⟨member, routed⟩ := List.mem_filter.mp received
  have between := routed_interval member
  rw [eq_of_beq routed] at between
  exact by_key_inside between.1 between.2 fits

theorem ranking_accesses_inside (fits : set.intervalWidth rank ≤ size) :
    ∀ access ∈ set.rankingAccesses rank, access.Inside size := by
  intro access listed
  obtain ⟨i, member, touched⟩ := List.mem_flatMap.mp listed
  have less := List.mem_range.mp member
  have low : (set.plan rank).minKeyValue ≤ (set.plan rank).minKeyValue + i := Nat.le_add_right _ _
  have high : (set.plan rank).minKeyValue + i ≤ (set.plan rank).maxKeyValue := by omega
  simp only [List.mem_cons, List.not_mem_nil, or_false] at touched
  rcases touched with rfl | rfl
  all_goals exact by_key_inside low high fits

theorem verify_accesses_iff (inside : rank < commSize) (fits : set.intervalWidth rank ≤ size) :
    (∀ access ∈ set.verifyAccesses rank, access.Inside size) ↔
      (set.plan rank).localKeyCount ≤ size := by
  have written : ((set.snapshot rank).rebuild (set.verifyingRanks.keyArrays rank)).1 =
      (set.plan rank).localKeyCount := by
    rw [(rebuild_spec _ _).1]
    exact (consistent_length _ (planned_consistent set inside)).symm
  unfold KeySet.verifyAccesses
  rw [written]
  constructor
  · intro accesses
    by_contra more
    have last : (⟨.keys, (size : Nat)⟩ : WorkspaceAccess) ∈
        (List.range (set.plan rank).localKeyCount).map fun idx : Nat =>
          (⟨.keys, idx⟩ : WorkspaceAccess) :=
      List.mem_map.mpr ⟨size, List.mem_range.mpr (by omega), rfl⟩
    exact absurd (accesses _ (List.mem_append_right _ last)).2 (lt_irrefl _)
  · intro few access listed
    rcases List.mem_append.mp listed with read | stored
    · obtain ⟨key, member, rfl⟩ := List.mem_map.mp read
      obtain ⟨i, range, rfl⟩ := List.mem_map.mp member
      have less := List.mem_range.mp range
      have high : (set.plan rank).minKeyValue + i ≤ (set.plan rank).maxKeyValue := by
        change i < ((set.plan rank).maxKeyValue + 1 - (set.plan rank).minKeyValue : Int).toNat
          at less
        omega
      exact by_key_inside (Nat.le_add_right _ _) high fits
    · obtain ⟨idx, member, rfl⟩ := List.mem_map.mp stored
      exact inside_of_lt (List.mem_range.mp member) few

/-- All accesses are inside when the interval and the keys of the rank are no more than
the arrays hold. -/
theorem workspace_accesses_iff (inside : rank < commSize) :
    (∀ access ∈ set.workspaceAccesses rank, access.Inside size) ↔
      set.intervalWidth rank ≤ size ∧ (set.plan rank).localKeyCount ≤ size := by
  unfold KeySet.workspaceAccesses
  constructor
  · intro accesses
    have width : set.intervalWidth rank ≤ size := by
      by_contra wide
      have last : (⟨.frequencyStorage, (size : Nat)⟩ : WorkspaceAccess) ∈
          set.clearAccesses rank := by
        unfold KeySet.intervalWidth at wide
        unfold KeySet.clearAccesses
        dsimp only
        rw [if_neg (by omega)]
        exact List.mem_flatMap.mpr ⟨size, List.mem_range.mpr (by omega), List.mem_cons_self⟩
      exact absurd (accesses _ (List.mem_append_left _ last)).2 (lt_irrefl _)
    refine ⟨width, (verify_accesses_iff inside width).mp fun access listed => ?_⟩
    exact accesses access (List.mem_append_right _ (List.mem_append_right _
      (List.mem_append_right _ listed)))
  · rintro ⟨width, few⟩ access listed
    rcases List.mem_append.mp listed with cleared | listed
    · exact clear_accesses_inside width access cleared
    rcases List.mem_append.mp listed with received | listed
    · exact receive_accesses_inside width access received
    rcases List.mem_append.mp listed with ranked | verified
    · exact ranking_accesses_inside width access ranked
    · exact (verify_accesses_iff inside width).mpr few access verified

/-- The plan's sizes are those of the buckets that the rank owns. -/
theorem interval_width_owned (set : KeySet commSize) (inside : rank < commSize) :
    (set.plan rank).minKeyValue ≤ (set.plan rank).maxKeyValue + 1 ∧
      set.intervalWidth rank =
        ((set.planInput rank).ownedBuckets rank).card * 2 ^ set.bucketShift := by
  have balanced := plan_balanced set rank
  have order := interval_ends balanced inside
  have width := interval_width balanced inside
  have least : (set.plan rank).minKeyValue =
      (set.planInput rank).arrays.firstBucketByRank rank * 2 ^ set.bucketShift :=
    Nat.shiftLeft_eq _ _
  have greatest : (set.plan rank).maxKeyValue + 1 =
      ((set.planInput rank).arrays.lastBucketByRank rank + 1) * 2 ^ set.bucketShift := by
    rw [← Nat.shiftLeft_eq]
    apply Nat.sub_add_cancel
    rw [Nat.shiftLeft_eq]
    exact Nat.mul_pos (Nat.succ_pos _) (Nat.two_pow_pos _)
  unfold KeySet.intervalWidth
  rw [least, greatest, ← width, Nat.sub_mul]
  exact ⟨Nat.mul_le_mul_right _ order, rfl⟩

theorem local_keys_owned (set : KeySet commSize) (inside : rank < commSize) :
    (set.plan rank).localKeyCount =
      ∑ bucket ∈ (set.planInput rank).ownedBuckets rank, set.histogram bucket :=
  sum_buckets_owned (plan_balanced set rank) inside

end Accesses

/-- The key arrays of a problem class on an admitted number of ranks. -/
structure ClassKeys (problem : ProblemClass) (log : Nat) where
  keys : Fin (2 ^ log) → List Nat
  admitted : isProcessCountInRange problem (2 ^ log) = true
  length_eq : ∀ rank, (keys rank).length = computeLocalKeyCount problem (2 ^ log)
  in_range : ∀ rank, ∀ key ∈ keys rank, key < problem.maxKey

namespace ClassKeys

variable {problem : ProblemClass} {log : Nat} (input : ClassKeys problem log)

def keySet : KeySet (2 ^ log) where
  keys := input.keys
  localKeyCount := computeLocalKeyCount problem (2 ^ log)
  numBuckets := problem.numBuckets
  bucketShift := problem.bucketShift
  length_eq := input.length_eq
  positive := local_key_count_positive input.admitted
  in_range := fun rank key member =>
    (input.in_range rank key member).trans_eq (buckets_cover_keys problem).symm

/-- The entries of each array of the workspace. -/
def workBufferSize (_ : ClassKeys problem log) : Nat :=
  computeWorkBufferSize (2 ^ log) (computeLocalKeyCount problem (2 ^ log))

/-- The buckets that the bucket counts give `rank` fit the workspace. -/
def ShareFits (rank : Nat) : Prop :=
  ((input.keySet.planInput rank).ownedBuckets rank).card * 2 ^ problem.bucketShift ≤
      input.workBufferSize ∧
    ∑ bucket ∈ (input.keySet.planInput rank).ownedBuckets rank, input.keySet.histogram bucket ≤
      input.workBufferSize

end ClassKeys

section Sizes

variable {problem : ProblemClass} {log rank : Nat} {input : ClassKeys problem log}

theorem owned_width_le (input : ClassKeys problem log) (rank : Nat) :
    ((input.keySet.planInput rank).ownedBuckets rank).card * 2 ^ problem.bucketShift ≤
      problem.maxKey := by
  rw [← buckets_cover_keys]
  apply Nat.mul_le_mul_right
  calc ((input.keySet.planInput rank).ownedBuckets rank).card
      ≤ (Finset.range problem.numBuckets).card := Finset.card_filter_le _ _
    _ = problem.numBuckets := Finset.card_range _

/-- One rank has room for all keys and all key values. -/
theorem single_rank_fits (input : ClassKeys problem log) (alone : log = 0) (rank : Nat) :
    input.ShareFits rank := by
  subst alone
  have admitted := of_decide_eq_true input.admitted
  have keys : problem.maxKey ≤ input.workBufferSize := by
    have few := admitted.1
    unfold ClassKeys.workBufferSize
    cases problem
    case D | E => exact absurd few (by decide)
    all_goals decide
  have balanced := plan_balanced input.keySet rank
  refine ⟨(owned_width_le input rank).trans keys, ?_⟩
  calc ∑ bucket ∈ (input.keySet.planInput rank).ownedBuckets rank, input.keySet.histogram bucket
      ≤ ∑ bucket ∈ Finset.range problem.numBuckets, input.keySet.histogram bucket :=
        Finset.sum_le_sum_of_subset (Finset.filter_subset _ _)
    _ = 1 * computeLocalKeyCount problem (2 ^ 0) := balanced.total
    _ ≤ input.workBufferSize := by
        unfold ClassKeys.workBufferSize computeWorkBufferSize
        rw [if_pos (by decide)]
        omega

/-- Buckets that leave room for an average rank beside them fit, when the workspace has
an entry for every key value. -/
theorem light_buckets_fit (inside : rank < 2 ^ log) (keys : problem.maxKey ≤ input.workBufferSize)
    (light : ∀ bucket < problem.numBuckets,
      computeLocalKeyCount problem (2 ^ log) + input.keySet.histogram bucket ≤
        input.workBufferSize) :
    input.ShareFits rank := by
  have balanced := plan_balanced input.keySet rank
  have below := interval_below balanced inside
  have first := light 0 (Nat.zero_lt_of_lt (num_buckets_range problem).1)
  have largest : (input.keySet.planInput rank).largestBucket ≤
      input.workBufferSize - computeLocalKeyCount problem (2 ^ log) := by
    apply largest_le
    intro bucket bounded
    have room := light bucket bounded
    change input.keySet.histogram bucket ≤ _
    omega
  refine ⟨(owned_width_le input rank).trans keys, ?_⟩
  rw [sum_buckets_owned balanced inside] at below
  change _ < computeLocalKeyCount problem (2 ^ log) + _ at below
  change ∑ bucket ∈ _, (input.keySet.planInput rank).globalBucketCounts bucket ≤ _
  omega

/-- The workspace is large enough for a rank exactly when the buckets that the bucket
counts give it fit, and then every access is inside its array. -/
theorem workspace_large_enough_iff (input : ClassKeys problem log) (rank : Nat)
    (inside : rank < 2 ^ log) :
    ((((input.keySet.plan rank).maxKeyValue : Int) - (input.keySet.plan rank).minKeyValue + 1 ≤
          input.workBufferSize ∧
        (input.keySet.plan rank).localKeyCount ≤ input.workBufferSize) ↔
      input.ShareFits rank) ∧
      ((∀ access ∈ input.keySet.workspaceAccesses rank, access.Inside input.workBufferSize) ↔
        input.ShareFits rank) ∧
      (log = 0 → input.ShareFits rank) ∧
      (problem.maxKey ≤ input.workBufferSize →
        (∀ bucket < problem.numBuckets,
          computeLocalKeyCount problem (2 ^ log) + input.keySet.histogram bucket ≤
            input.workBufferSize) →
        input.ShareFits rank) := by
  obtain ⟨order, width⟩ := interval_width_owned input.keySet inside
  have keys := local_keys_owned input.keySet inside
  have share : input.keySet.intervalWidth rank ≤ input.workBufferSize ∧
      (input.keySet.plan rank).localKeyCount ≤ input.workBufferSize ↔ input.ShareFits rank := by
    rw [width, keys]
    rfl
  refine ⟨?_, (workspace_accesses_iff inside).trans share, ?_, light_buckets_fit inside⟩
  · rw [← share]
    unfold KeySet.intervalWidth
    omega
  · intro alone
    exact single_rank_fits input alone rank

/-- Class S on two ranks, with the keys in four buckets. -/
def spreadKeys : ClassKeys .S 1 where
  keys rank := List.replicate 16384 (8 * rank.val) ++ List.replicate 16384 (8 * rank.val + 4)
  admitted := rfl
  length_eq _ := by
    rw [List.length_append, List.length_replicate, List.length_replicate]
    rfl
  in_range rank key member := by
    have few : rank.val < 2 := rank.isLt
    have bound : 8 * rank.val + 4 < ProblemClass.maxKey .S :=
      Nat.lt_of_lt_of_le (by omega : 8 * rank.val + 4 < 16) (by decide)
    rcases List.mem_append.mp member with first | second
    · rw [List.eq_of_mem_replicate first]
      omega
    · rw [List.eq_of_mem_replicate second]
      exact bound

theorem spread_histogram (bucket : Nat) : spreadKeys.keySet.histogram bucket ≤ 16384 := by
  have each : ∀ holder : Fin (2 ^ 1),
      (spreadKeys.keySet.keys holder).countP
          (fun key => spreadKeys.keySet.bucketOf key == bucket) =
        (if 8 * holder.val / 4 = bucket then 16384 else 0) +
          if (8 * holder.val + 4) / 4 = bucket then 16384 else 0 := by
    intro holder
    change (List.replicate 16384 (8 * holder.val) ++
      List.replicate 16384 (8 * holder.val + 4)).countP (fun key => key >>> 2 == bucket) = _
    rw [List.countP_append, List.countP_replicate, List.countP_replicate]
    simp only [beq_iff_eq, Nat.shiftRight_eq_div_pow]
  have total : spreadKeys.keySet.histogram bucket = ∑ holder : Fin (2 ^ 1),
      ((if 8 * holder.val / 4 = bucket then 16384 else 0) +
        if (8 * holder.val + 4) / 4 = bucket then 16384 else 0) := by
    unfold KeySet.histogram KeySet.countKeys
    exact Finset.sum_congr rfl fun holder _ => each holder
  have two : ∑ holder : Fin (2 ^ 1), ((if 8 * holder.val / 4 = bucket then 16384 else 0) +
      if (8 * holder.val + 4) / 4 = bucket then 16384 else 0) =
      ((if 0 = bucket then 16384 else 0) + if 1 = bucket then 16384 else 0) +
        ((if 2 = bucket then 16384 else 0) + if 3 = bucket then 16384 else 0) :=
    Fin.sum_univ_two _
  rw [total, two]
  split_ifs <;> omega

/-- The second rank. -/
theorem spread_keys_inside :
    spreadKeys.ShareFits 1 ∧
      ∀ access ∈ spreadKeys.keySet.workspaceAccesses 1,
        access.Inside spreadKeys.workBufferSize := by
  obtain ⟨-, accesses, -, light⟩ := workspace_large_enough_iff spreadKeys 1 (by decide)
  have fits : spreadKeys.ShareFits 1 := by
    apply light (by decide)
    intro bucket _
    have room : computeLocalKeyCount .S (2 ^ 1) + 16384 ≤ spreadKeys.workBufferSize := by decide
    have few := spread_histogram bucket
    omega
  exact ⟨fits, accesses.mpr fits⟩

/-- Class S on two ranks, with all keys in the first bucket. -/
def crowdedKeys : ClassKeys .S 1 where
  keys _ := List.replicate 32768 0
  admitted := rfl
  length_eq _ := List.length_replicate
  in_range _ key member := by
    rw [List.eq_of_mem_replicate member]
    decide

theorem crowded_histogram (bucket : Nat) :
    crowdedKeys.keySet.histogram bucket = if bucket = 0 then 65536 else 0 := by
  have each : ∀ holder ∈ (Finset.univ : Finset (Fin (2 ^ 1))),
      (crowdedKeys.keySet.keys holder).countP
          (fun key => crowdedKeys.keySet.bucketOf key == bucket) =
        if bucket = 0 then 32768 else 0 := by
    intro holder _
    change (List.replicate 32768 0).countP (fun key => key >>> 2 == bucket) = _
    rw [List.countP_replicate]
    by_cases first : bucket = 0
    · subst first
      rfl
    · have other : ¬(0 >>> 2 == bucket) = true := by
        intro same
        exact first (eq_of_beq same).symm
      rw [if_neg other, if_neg first]
  unfold KeySet.histogram KeySet.countKeys
  rw [Finset.sum_const_nat each, Finset.card_univ, Fintype.card_fin]
  split <;> rfl

/-- The first rank gets 65536 keys, and the workspace has 49152 entries. -/
theorem crowded_keys_outside :
    crowdedKeys.workBufferSize = 49152 ∧
      (crowdedKeys.keySet.plan 0).localKeyCount = 65536 ∧
      ¬∀ access ∈ crowdedKeys.keySet.workspaceAccesses 0,
        access.Inside crowdedKeys.workBufferSize := by
  have owned : 0 ∈ (crowdedKeys.keySet.planInput 0).ownedBuckets 0 := by
    unfold PlanInput.ownedBuckets
    refine Finset.mem_filter.mpr ⟨Finset.mem_range.mpr (by decide), reaches_zero 0, ?_⟩
    intro served
    exact absurd (served 0 (by decide)) (by decide)
  have keys : (crowdedKeys.keySet.plan 0).localKeyCount = 65536 := by
    rw [local_keys_owned crowdedKeys.keySet (by decide)]
    simp only [crowded_histogram]
    rw [Finset.sum_ite_eq', if_pos owned]
  have entries : crowdedKeys.workBufferSize = 49152 := by decide
  refine ⟨entries, keys, ?_⟩
  rw [workspace_accesses_iff (by decide), keys, entries]
  rintro ⟨-, few⟩
  exact absurd few (by decide)

end Sizes

end IntegerSortLci.Benchmark
