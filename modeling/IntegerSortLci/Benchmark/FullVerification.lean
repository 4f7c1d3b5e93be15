import IntegerSortLci.Benchmark.BucketPartition
import IntegerSortLci.Benchmark.FullVerify
import IntegerSortLci.Foundations.SortedConcat

/-!
# Full verification

`full_verify` on all ranks: each rank rebuilds its keys from the histogram over its
interval, sends one key to the next rank and compares the key it receives with its own
first one. A rank without keys sends the entry that its key array held before.
-/

namespace IntegerSortLci.Benchmark

open IntegerSortLci.Foundations
open scoped BigOperators

set_option autoImplicit false

structure FullVerifySnapshot where
  frequencyHistogram : Int → Nat
  minKeyValue : Int
  maxKeyValue : Int
  totalLocalKeys : Nat

namespace FullVerifySnapshot

variable (snapshot : FullVerifySnapshot) (keyArray : Buffer Int)

/-- The values of the loop that sorts the keys. -/
def keyValues : List Int :=
  (List.range (snapshot.maxKeyValue + 1 - snapshot.minKeyValue).toNat).map fun i : Nat =>
    snapshot.minKeyValue + i

/-- That loop; the result is `idx` with `key_array`. -/
def rebuild : Nat × Buffer Int :=
  rebuildKeys snapshot.frequencyHistogram snapshot.minKeyValue
    (snapshot.maxKeyValue + 1 - snapshot.minKeyValue).toNat keyArray

/-- `last_local_key`. -/
def lastLocalKey (idx : Nat) : Nat := if idx = 0 then idx else idx - 1

/-- The key that goes to the next rank. -/
def sentKey : Int :=
  let rebuilt := snapshot.rebuild keyArray
  rebuilt.2 (lastLocalKey rebuilt.1)

/-- `out_of_order`: the boundary check and the loop over the rank's own keys. -/
def outOfOrder (myRank : Nat) (previousRankLastKey : Int) : Nat :=
  let keys := (snapshot.rebuild keyArray).2
  (if 0 < myRank ∧ 0 < snapshot.totalLocalKeys ∧ keys 0 < previousRankLastKey then 1 else 0) +
    ∑ i ∈ Finset.Ico 1 snapshot.totalLocalKeys,
      if keys (i : Int) < keys ((i - 1 : Nat) : Int) then 1 else 0

/-- The total is that of the histogram over the interval. -/
def Consistent : Prop :=
  snapshot.totalLocalKeys =
    ∑ key ∈ Finset.Icc snapshot.minKeyValue snapshot.maxKeyValue, snapshot.frequencyHistogram key

/-- The keys that the histogram stands for, in order. -/
def keySequence : List Int :=
  snapshot.keyValues.flatMap fun key => List.replicate (snapshot.frequencyHistogram key) key

end FullVerifySnapshot

/-- The snapshots of all ranks and what their key arrays hold before. -/
structure VerifyingRanks where
  commSize : Nat
  snapshots : Nat → FullVerifySnapshot
  keyArrays : Nat → Buffer Int

namespace VerifyingRanks

variable (ranks : VerifyingRanks)

/-- `previous_rank_last_key` once the neighbour's key has arrived. -/
def previousRankLastKey (myRank : Nat) : Int :=
  if myRank = 0 then 0
  else (ranks.snapshots (myRank - 1)).sentKey (ranks.keyArrays (myRank - 1))

/-- `passed_verification` after `full_verify`. -/
def fullVerify (myRank passedVerification : Nat) : Nat :=
  if (ranks.snapshots myRank).outOfOrder (ranks.keyArrays myRank) myRank
      (ranks.previousRankLastKey myRank) ≠ 0 then passedVerification
  else passedVerification + 1

/-- The keys that `rank` has rebuilt. -/
def rebuiltKeys (rank : Nat) : List Int :=
  let rebuilt := (ranks.snapshots rank).rebuild (ranks.keyArrays rank)
  slice rebuilt.2 0 rebuilt.1

/-- Every rank counts a passed verification. -/
def AllPass : Prop :=
  ∀ rank < ranks.commSize, ∀ passedVerification,
    ranks.fullVerify rank passedVerification = passedVerification + 1

/-- The rebuilt keys of all ranks are in order. -/
def GloballySorted : Prop :=
  ((List.range ranks.commSize).flatMap ranks.rebuiltKeys).Pairwise (· ≤ ·)

end VerifyingRanks

section Rebuild

/-- The loop appends the copies of each value and writes nothing behind them. -/
theorem write_keys {Value : Type} (copies : Value → Nat) (keys : List Value)
    (state : Nat × Buffer Value) :
    let written := keys.foldl (fun state key => writeCopies key (copies key) state) state
    let sequence := keys.flatMap fun key => List.replicate (copies key) key
    written.1 = state.1 + sequence.length ∧
      slice written.2 0 written.1 = slice state.2 0 state.1 ++ sequence ∧
      ∀ position : Nat, written.1 ≤ position → written.2 position = state.2 position := by
  induction keys generalizing state with
  | nil => simp
  | cons key rest ih =>
      obtain ⟨cursor, copied, before⟩ := write_copies key (copies key) state
      obtain ⟨moved, appended, behind⟩ := ih (writeCopies key (copies key) state)
      have own : slice (writeCopies key (copies key) state).2 0 (state.1 + copies key) =
          slice state.2 0 state.1 ++ List.replicate (copies key) key := by
        have kept : slice (writeCopies key (copies key) state).2 0 state.1 =
            slice state.2 0 state.1 := by
          apply slice_congr
          intro position _ less
          exact before position (by omega)
        have written : slice (writeCopies key (copies key) state).2 (0 + state.1) (copies key) =
            List.replicate (copies key) key := by
          apply List.eq_replicate_iff.mpr
          refine ⟨slice_length _ _ _, ?_⟩
          intro value member
          obtain ⟨position, range, rfl⟩ := List.mem_map.mp member
          obtain ⟨low, high⟩ := List.mem_range'_1.mp range
          exact copied position (by omega) (by omega)
        rw [slice_add, kept, written]
      rw [cursor] at moved appended
      simp only [List.foldl_cons, List.flatMap_cons, List.length_append, List.length_replicate]
      refine ⟨by omega, ?_, ?_⟩
      · rw [appended, own, List.append_assoc]
      · intro position outside
        rw [behind position outside, write_copies_behind _ _ _ (by omega)]

variable (snapshot : FullVerifySnapshot) (keyArray : Buffer Int)

/-- The rebuilt keys are those that the histogram stands for, and without any the array is
as before. -/
theorem rebuild_spec :
    (snapshot.rebuild keyArray).1 = snapshot.keySequence.length ∧
      slice (snapshot.rebuild keyArray).2 0 (snapshot.rebuild keyArray).1 = snapshot.keySequence ∧
      (snapshot.keySequence = [] → (snapshot.rebuild keyArray).2 0 = keyArray 0) := by
  obtain ⟨cursor, keys, behind⟩ := write_keys snapshot.frequencyHistogram snapshot.keyValues
    (0, keyArray)
  have count : (snapshot.rebuild keyArray).1 = snapshot.keySequence.length :=
    cursor.trans (Nat.zero_add _)
  refine ⟨count, keys, ?_⟩
  intro empty
  apply behind 0
  have none : (snapshot.rebuild keyArray).1 = 0 := by
    rw [count, empty]
    rfl
  exact Nat.le_of_eq none

/-- Each rank's keys come out in order. -/
theorem key_sequence_sorted : snapshot.keySequence.Pairwise (· ≤ ·) := by
  unfold FullVerifySnapshot.keySequence FullVerifySnapshot.keyValues
  rw [List.pairwise_flatMap]
  constructor
  · intro key _
    exact List.pairwise_replicate.mpr (.inr (le_refl key))
  · rw [List.pairwise_map]
    have ascending : (List.range
        (snapshot.maxKeyValue + 1 - snapshot.minKeyValue).toNat).Pairwise (· < ·) :=
      List.pairwise_lt_range
    apply ascending.imp
    intro before after less low lower high higher
    rw [List.eq_of_mem_replicate lower, List.eq_of_mem_replicate higher]
    omega

theorem length_pieces {Value : Type} (pieces : Nat → List Value) (count : Nat) :
    ((List.range count).flatMap pieces).length =
      ∑ i ∈ Finset.range count, (pieces i).length := by
  induction count with
  | zero => rfl
  | succ count ih =>
      rw [List.range_succ, List.flatMap_append, List.length_append, ih, Finset.sum_range_succ]
      simp

theorem consistent_length (consistent : snapshot.Consistent) :
    snapshot.totalLocalKeys = snapshot.keySequence.length := by
  rw [consistent, ← sum_interval]
  unfold FullVerifySnapshot.keySequence FullVerifySnapshot.keyValues
  rw [List.flatMap_map, length_pieces]
  simp only [List.length_replicate]

theorem rebuilt_entry {position : Nat} (inside : position < snapshot.keySequence.length) :
    (snapshot.rebuild keyArray).2 (position : Int) = snapshot.keySequence[position] := by
  obtain ⟨count, keys, -⟩ := rebuild_spec snapshot keyArray
  simp only [← keys]
  unfold slice
  simp

end Rebuild

section Boundaries

variable {ranks : VerifyingRanks} {myRank : Nat}

/-- The loop over the rank's own keys finds nothing. -/
theorem own_keys_ordered (snapshot : FullVerifySnapshot) (keyArray : Buffer Int)
    (consistent : snapshot.Consistent) :
    ∑ i ∈ Finset.Ico 1 snapshot.totalLocalKeys,
      (if (snapshot.rebuild keyArray).2 (i : Int) <
        (snapshot.rebuild keyArray).2 ((i - 1 : Nat) : Int) then 1 else 0) = 0 := by
  apply Finset.sum_eq_zero
  intro i member
  obtain ⟨low, high⟩ := Finset.mem_Ico.mp member
  rw [consistent_length snapshot consistent] at high
  rw [rebuilt_entry snapshot keyArray high, rebuilt_entry snapshot keyArray (by omega)]
  have order := List.pairwise_iff_getElem.mp (key_sequence_sorted snapshot) (i - 1) i (by omega)
    high (by omega)
  exact if_neg (not_lt.mpr order)

theorem out_of_order_zero_iff (snapshot : FullVerifySnapshot) (keyArray : Buffer Int)
    (consistent : snapshot.Consistent) (myRank : Nat) (previousRankLastKey : Int) :
    snapshot.outOfOrder keyArray myRank previousRankLastKey = 0 ↔
      (0 < myRank → ∀ first ∈ snapshot.keySequence.head?, previousRankLastKey ≤ first) := by
  have own := own_keys_ordered snapshot keyArray consistent
  have total := consistent_length snapshot consistent
  unfold FullVerifySnapshot.outOfOrder
  dsimp only
  rw [own, Nat.add_zero]
  cases keys : snapshot.keySequence with
  | nil =>
      rw [keys] at total
      simp [total]
  | cons first rest =>
      have some : 0 < snapshot.keySequence.length := by
        rw [keys]
        exact Nat.succ_pos _
      have entry : (snapshot.rebuild keyArray).2 0 = first := by
        have read := rebuilt_entry snapshot keyArray some
        simp only [keys, List.getElem_cons_zero] at read
        exact read
      have positive : 0 < snapshot.totalLocalKeys := by
        rw [total]
        exact some
      rw [entry]
      simp [positive]

/-- The rank passes when it has no keys or the neighbour's key is not above its first. -/
theorem full_verify_passes (consistent : (ranks.snapshots myRank).Consistent) :
    (∀ passedVerification,
      ranks.fullVerify myRank passedVerification = passedVerification + 1) ↔
      (0 < myRank → ∀ first ∈ (ranks.snapshots myRank).keySequence.head?,
        ranks.previousRankLastKey myRank ≤ first) := by
  rw [← out_of_order_zero_iff (ranks.snapshots myRank) (ranks.keyArrays myRank) consistent myRank]
  unfold VerifyingRanks.fullVerify
  constructor
  · intro passes
    by_contra found
    have failed := passes 0
    rw [if_pos found] at failed
    cases failed
  · intro none passedVerification
    rw [if_neg (not_not.mpr none)]

theorem sent_key (snapshot : FullVerifySnapshot) (keyArray : Buffer Int) :
    (snapshot.keySequence = [] → snapshot.sentKey keyArray = keyArray 0) ∧
      ∀ last ∈ snapshot.keySequence.getLast?, snapshot.sentKey keyArray = last := by
  obtain ⟨count, -, stale⟩ := rebuild_spec snapshot keyArray
  unfold FullVerifySnapshot.sentKey FullVerifySnapshot.lastLocalKey
  dsimp only
  rw [count]
  constructor
  · intro empty
    rw [empty, List.length_nil, if_pos rfl]
    exact stale empty
  · intro last ends
    obtain ⟨front, keys⟩ := List.getLast?_eq_some_iff.mp ends
    have length : snapshot.keySequence.length = front.length + 1 := by
      rw [keys, List.length_append]
      rfl
    rw [if_neg (by omega), rebuilt_entry snapshot keyArray (by omega)]
    simp [keys]

namespace VerifyingRanks

variable (ranks)

/-- The keys of a rank as its histogram gives them. -/
def keysOf (rank : Nat) : List Int := (ranks.snapshots rank).keySequence

/-- Ranks with keys that stand next to each other are in order. -/
def AdjacentOrdered : Prop :=
  ∀ rank, rank + 1 < ranks.commSize → ∀ last ∈ (ranks.keysOf rank).getLast?,
    ∀ first ∈ (ranks.keysOf (rank + 1)).head?, last ≤ first

/-- Behind a rank without keys, the first key is not below what that rank's array held. -/
def StaleBelow : Prop :=
  ∀ rank, rank + 1 < ranks.commSize → ranks.keysOf rank = [] →
    ∀ first ∈ (ranks.keysOf (rank + 1)).head?, ranks.keyArrays rank 0 ≤ first

/-- Ranks with keys that have only ranks without keys between them are in order. -/
def SkippedOrdered : Prop :=
  ∀ before after, before + 1 < after → after < ranks.commSize →
    (∀ between, before < between → between < after → ranks.keysOf between = []) →
      ∀ last ∈ (ranks.keysOf before).getLast?, ∀ first ∈ (ranks.keysOf after).head?,
        last ≤ first

/-- No rank without keys stands directly before one with keys. -/
def Gapless : Prop :=
  ∀ rank, rank + 1 < ranks.commSize → ranks.keysOf rank = [] → ranks.keysOf (rank + 1) = []

end VerifyingRanks

theorem all_pass_iff
    (consistent : ∀ rank < ranks.commSize, (ranks.snapshots rank).Consistent) :
    ranks.AllPass ↔ ranks.AdjacentOrdered ∧ ranks.StaleBelow := by
  have passes : ranks.AllPass ↔ ∀ rank, rank + 1 < ranks.commSize →
      ∀ first ∈ (ranks.keysOf (rank + 1)).head?,
        (ranks.snapshots rank).sentKey (ranks.keyArrays rank) ≤ first := by
    constructor
    · intro all rank inside
      exact (full_verify_passes (consistent (rank + 1) inside)).mp (all (rank + 1) inside)
        (Nat.succ_pos rank)
    · intro ordered rank inside
      apply (full_verify_passes (consistent rank inside)).mpr
      intro positive
      obtain ⟨previous, rfl⟩ := Nat.exists_eq_succ_of_ne_zero (Nat.ne_of_gt positive)
      exact ordered previous inside
  rw [passes]
  constructor
  · intro ordered
    constructor
    · intro rank inside last ends first starts
      rw [← (sent_key (ranks.snapshots rank) (ranks.keyArrays rank)).2 last ends]
      exact ordered rank inside first starts
    · intro rank inside empty first starts
      rw [← (sent_key (ranks.snapshots rank) (ranks.keyArrays rank)).1 empty]
      exact ordered rank inside first starts
  · rintro ⟨adjacent, stale⟩ rank inside first starts
    obtain ⟨empty, ending⟩ := sent_key (ranks.snapshots rank) (ranks.keyArrays rank)
    cases ends : (ranks.keysOf rank).getLast? with
    | none =>
        have none : ranks.keysOf rank = [] := List.getLast?_eq_none_iff.mp ends
        rw [empty none]
        exact stale rank inside none first starts
    | some last =>
        rw [ending last ends]
        exact adjacent rank inside last ends first starts

theorem globally_sorted_iff (ranks : VerifyingRanks) :
    ranks.GloballySorted ↔ ranks.AdjacentOrdered ∧ ranks.SkippedOrdered := by
  have rebuilt : ranks.rebuiltKeys = ranks.keysOf := by
    funext rank
    exact (rebuild_spec (ranks.snapshots rank) (ranks.keyArrays rank)).2.1
  have sorted : ∀ rank < ranks.commSize, (ranks.keysOf rank).Pairwise (· ≤ ·) :=
    fun rank _ => key_sequence_sorted (ranks.snapshots rank)
  unfold VerifyingRanks.GloballySorted
  rw [rebuilt, concat_sorted_iff sorted]
  constructor
  · intro ordered
    constructor
    · intro rank inside
      exact ordered rank (rank + 1) (Nat.lt_succ_self rank) inside fun between above below => by
        omega
    · intro before after apart inside
      exact ordered before after (by omega) inside
  · rintro ⟨adjacent, skipped⟩ before after less inside empty
    rcases Nat.lt_or_eq_of_le (Nat.succ_le_of_lt less) with apart | rfl
    · exact skipped before after apart inside empty
    · exact adjacent before inside

/-- Where the check is exact. -/
theorem passes_exactly_iff
    (consistent : ∀ rank < ranks.commSize, (ranks.snapshots rank).Consistent) :
    (ranks.AllPass ↔ ranks.GloballySorted) ↔
      (ranks.AdjacentOrdered → (ranks.StaleBelow ↔ ranks.SkippedOrdered)) := by
  rw [all_pass_iff consistent, globally_sorted_iff]
  constructor
  · intro same adjacent
    constructor
    · intro stale
      exact (same.mp ⟨adjacent, stale⟩).2
    · intro skipped
      exact (same.mpr ⟨adjacent, skipped⟩).2
  · intro same
    constructor
    · rintro ⟨adjacent, stale⟩
      exact ⟨adjacent, (same adjacent).mp stale⟩
    · rintro ⟨adjacent, skipped⟩
      exact ⟨adjacent, (same adjacent).mpr skipped⟩

theorem gapless_stale_below (gapless : ranks.Gapless) : ranks.StaleBelow := by
  intro rank inside empty first starts
  rw [gapless rank inside empty] at starts
  cases starts

theorem gapless_skipped_ordered (gapless : ranks.Gapless) : ranks.SkippedOrdered := by
  intro before after apart inside empty last _ first starts
  obtain ⟨previous, rfl⟩ := Nat.exists_eq_succ_of_ne_zero (by omega : after ≠ 0)
  have none := empty previous (by omega) (Nat.lt_succ_self previous)
  rw [gapless previous inside none] at starts
  cases starts

/-- All ranks pass exactly on sorted output when two neighbours are out of order, or when
the stale entries pass as the keys that they hide would. It is enough that no rank without
keys stands directly before one with keys. -/
theorem full_verification_exact_iff (ranks : VerifyingRanks)
    (consistent : ∀ rank < ranks.commSize, (ranks.snapshots rank).Consistent) :
    ((ranks.AllPass ↔ ranks.GloballySorted) ↔
      (ranks.AdjacentOrdered → (ranks.StaleBelow ↔ ranks.SkippedOrdered))) ∧
    (ranks.Gapless → (ranks.AllPass ↔ ranks.GloballySorted)) := by
  constructor
  · exact passes_exactly_iff consistent
  · intro gapless
    apply (passes_exactly_iff consistent).mpr
    intro _
    exact iff_of_true (gapless_stale_below gapless) (gapless_skipped_ordered gapless)

/-- Sorted output passes unless a stale entry is in the way. -/
theorem sorted_output_passes_iff
    (consistent : ∀ rank < ranks.commSize, (ranks.snapshots rank).Consistent)
    (sorted : ranks.GloballySorted) : ranks.AllPass ↔ ranks.StaleBelow := by
  rw [all_pass_iff consistent]
  exact and_iff_right ((globally_sorted_iff ranks).mp sorted).1

end Boundaries

section Planned

variable {commSize : Nat} {set : KeySet commSize}

namespace KeySet

/-- The snapshot that `finish_iteration` takes after a correct redistribution. -/
def snapshot (set : KeySet commSize) (rank : Nat) : FullVerifySnapshot where
  frequencyHistogram key := set.occurrences key.toNat
  minKeyValue := (set.plan rank).minKeyValue
  maxKeyValue := (set.plan rank).maxKeyValue
  totalLocalKeys := (set.plan rank).localKeyCount

/-- `verify_full_ranking` hands over the rank's input keys as the key array. -/
def verifyingRanks (set : KeySet commSize) : VerifyingRanks where
  commSize := commSize
  snapshots := set.snapshot
  keyArrays rank position :=
    if inside : rank < commSize then (((set.keys ⟨rank, inside⟩)[position.toNat]?).getD 0 : Nat)
    else 0

end KeySet

theorem planned_consistent (set : KeySet commSize) {rank : Nat} (inside : rank < commSize) :
    (set.snapshot rank).Consistent := by
  unfold FullVerifySnapshot.Consistent
  rw [← sum_interval]
  unfold KeySet.snapshot
  dsimp only
  have counted := occurrences_sum set (set.plan rank).minKeyValue
    ((set.plan rank).maxKeyValue + 1 - (set.plan rank).minKeyValue)
  have values : ∀ i : Nat, ((set.plan rank).minKeyValue + (i : Int)).toNat =
      (set.plan rank).minKeyValue + i := by
    intro i
    omega
  have range : ((set.plan rank).maxKeyValue + 1 - (set.plan rank).minKeyValue : Int).toNat =
      (set.plan rank).maxKeyValue + 1 - (set.plan rank).minKeyValue := by
    omega
  simp only [values]
  rw [range, counted, local_routed set inside]
  apply count_keys_congr
  intro holder key member
  have routed : set.routeKey key = rank ↔
      (set.plan rank).minKeyValue ≤ key ∧ key ≤ (set.plan rank).maxKeyValue := by
    constructor
    · rintro rfl
      exact routed_interval member
    · intro between
      exact (interval_routed inside between).2.1
  rw [Bool.eq_iff_iff, beq_iff_eq, decide_eq_true_iff, routed]
  constructor
  · rintro ⟨low, high⟩
    exact ⟨low, by omega⟩
  · rintro ⟨low, high⟩
    exact ⟨low, by omega⟩

/-- The intervals of the plan are in order, so the keys of all ranks are. -/
theorem planned_sorted (set : KeySet commSize) : set.verifyingRanks.GloballySorted := by
  have balanced := plan_balanced set 0
  have rebuilt : ∀ rank, set.verifyingRanks.rebuiltKeys rank = (set.snapshot rank).keySequence :=
    fun rank => (rebuild_spec (set.snapshot rank) (set.verifyingRanks.keyArrays rank)).2.1
  have bounds : ∀ rank, ∀ key ∈ (set.snapshot rank).keySequence,
      ((set.plan rank).minKeyValue : Int) ≤ key ∧ key ≤ (set.plan rank).maxKeyValue := by
    intro rank key member
    obtain ⟨value, values, copies⟩ := List.mem_flatMap.mp member
    obtain ⟨i, range, rfl⟩ := List.mem_map.mp values
    have less := List.mem_range.mp range
    rw [List.eq_of_mem_replicate copies]
    unfold KeySet.snapshot at less ⊢
    dsimp only at less ⊢
    omega
  unfold VerifyingRanks.GloballySorted
  rw [List.pairwise_flatMap]
  constructor
  · intro rank _
    rw [rebuilt]
    exact key_sequence_sorted (set.snapshot rank)
  · have ascending : (List.range set.verifyingRanks.commSize).Pairwise (· < ·) :=
      List.pairwise_lt_range
    apply ascending.imp_of_mem
    intro before after _ member less low lower high higher
    rw [rebuilt] at lower higher
    have inside : after < commSize := List.mem_range.mp member
    obtain ⟨lowest, below⟩ := bounds before low lower
    obtain ⟨above, highest⟩ := bounds after high higher
    have lowBucket := (key_interval set before low.toNat).mp ⟨by omega, by omega⟩
    have between : (set.plan after).minKeyValue ≤ high.toNat ∧
        high.toNat ≤ (set.plan after).maxKeyValue := ⟨by omega, by omega⟩
    have highBucket := (key_interval set after high.toNat).mp between
    have owner := (interval_routed inside between).1
    have order := intervals_ordered balanced inside less ((nonempty_iff balanced inside).mpr owner)
    by_contra above
    have buckets : set.bucketOf high.toNat ≤ set.bucketOf low.toNat := by
      unfold KeySet.bucketOf
      rw [Nat.shiftRight_eq_div_pow, Nat.shiftRight_eq_div_pow]
      exact Nat.div_le_div_right (by omega)
    omega

/-- After a correct redistribution all ranks pass unless a rank without keys had a key
array that begins above the next rank's first key. -/
theorem planned_passes_iff (set : KeySet commSize) :
    set.verifyingRanks.AllPass ↔ set.verifyingRanks.StaleBelow :=
  sorted_output_passes_iff (fun _ inside => planned_consistent set inside) (planned_sorted set)

/-- The first bucket has four of six keys, so the second rank owns an empty bucket. -/
def laggingKeys : KeySet 3 where
  keys rank := if rank.val = 0 then [0, 0] else if rank.val = 1 then [5, 0] else [0, 4]
  localKeyCount := 2
  numBuckets := 3
  bucketShift := 1
  length_eq := by decide
  positive := Nat.two_pos
  in_range := by decide

/-- With one key to a rank the second rank is without keys too, but the third one's first
key is above what its array held. -/
theorem full_verification_exact_square :
    squareKeys.verifyingRanks.AllPass ↔ squareKeys.verifyingRanks.GloballySorted := by
  have skipped := ((globally_sorted_iff _).mp (planned_sorted squareKeys)).2
  have stale : squareKeys.verifyingRanks.StaleBelow := by
    intro rank inside empty first starts
    have less : rank + 1 < 3 := inside
    obtain rfl | rfl : rank = 0 ∨ rank = 1 := by omega
    · exact absurd empty (by decide +kernel)
    · have last : (squareKeys.verifyingRanks.keysOf 2).head? = some 4 := by decide +kernel
      obtain rfl := Option.some.inj (last.symm.trans starts)
      decide +kernel
  exact (full_verification_exact_iff squareKeys.verifyingRanks
    fun _ inside => planned_consistent squareKeys inside).1.mpr fun _ => iff_of_true stale skipped

/-- The output of a correct redistribution is sorted, but the third rank counts a key out
of order. -/
theorem lagging_rank_fails :
    (∀ rank < laggingKeys.verifyingRanks.commSize,
      (laggingKeys.verifyingRanks.snapshots rank).Consistent) ∧
      laggingKeys.verifyingRanks.GloballySorted ∧
        laggingKeys.verifyingRanks.fullVerify 2 0 = 0 ∧
          ¬(laggingKeys.verifyingRanks.AllPass ↔ laggingKeys.verifyingRanks.GloballySorted) := by
  have sorted := planned_sorted laggingKeys
  have fails : laggingKeys.verifyingRanks.fullVerify 2 0 = 0 := by decide +kernel
  refine ⟨fun _ inside => planned_consistent laggingKeys inside, sorted, fails, ?_⟩
  intro same
  have passes := same.mpr sorted 2 (by decide) 0
  rw [fails] at passes
  cases passes

end Planned

end IntegerSortLci.Benchmark
