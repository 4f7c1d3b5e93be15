import IntegerSortLci.Benchmark.DistributedRanking
import IntegerSortLci.Benchmark.FullVerify
import IntegerSortLci.Benchmark.MpiRanks

/-!
# The pipeline refines the baseline

Both programs on the same keys. The MPI baseline moves slices of sorted keys and counts
what arrives; the pipeline counts each key where the routing table sends it. After the
ranking of an iteration every rank has the same interval, the same counts and the same
cumulative counts, and both `full_verify` loops write the same sorted keys.
-/

namespace IntegerSortLci.Benchmark

open IntegerSortLci.Runtime IntegerSortLci.Foundations
open scoped BigOperators

set_option autoImplicit false

/-- A rank of the pipeline has computed what the rank of the baseline has. -/
structure Refines {Worker : Type} (progress : RankProgress Worker) (ranks : BaselineRanks) :
    Prop where
  minKeyValue : progress.plan.minKeyValue = ranks.minKeyVal
  maxKeyValue : progress.plan.maxKeyValue = ranks.maxKeyVal
  lesserKeyCount : progress.plan.lesserKeyCount = ranks.m
  localKeyCount : progress.plan.localKeyCount = ranks.j
  expectedRecvCount : progress.plan.expectedRecvCount = ranks.j
  cumulative : ∀ key : Nat, progress.plan.minKeyValue ≤ key → key ≤ progress.plan.maxKeyValue →
    progress.workspace.cumulativeByKey progress.plan.minKeyValue key = ranks.keyBuffPtr key
  sorted : ∀ (keyArray keyArray' : Buffer Nat) (position : Nat), position < ranks.j →
    (rebuildKeys
        (fun key : Nat => progress.workspace.frequencyByKey progress.plan.minKeyValue key)
        progress.plan.minKeyValue (progress.plan.maxKeyValue + 1 - progress.plan.minKeyValue)
        keyArray).2 position =
      ranks.placeKeys keyArray' position

section Placing

variable {commSize : Nat} {set : KeySet commSize} {testIndex : Nat → Nat}
variable {stale : Fin commSize → BaselineArrays} {rank : Fin commSize}

/-- The offsets of the key values of a rank's interval. -/
def KeySet.offsets (set : KeySet commSize) (rank : Fin commSize) : Set Int :=
  {offset | 0 ≤ offset ∧ offset < set.intervalRange rank}

theorem interval_count_mono (set : KeySet commSize) (rank : Fin commSize) {first second : Nat}
    (le : first ≤ second) : set.intervalCount rank first ≤ set.intervalCount rank second :=
  Finset.sum_le_sum_of_subset (Finset.range_mono le)

/-- The places of different key values do not overlap. -/
theorem values_apart (set : KeySet commSize) (rank : Fin commSize) :
    Apart (set.offsets rank) (fun offset => set.intervalCount rank offset.toNat)
      fun offset => set.occurrences ((set.plan rank).minKeyValue + offset.toNat) := by
  rintro first ⟨low, -⟩ second ⟨low', -⟩ different
  dsimp only
  rw [← interval_count_succ, ← interval_count_succ]
  rcases lt_or_gt_of_ne different with less | more
  · exact .inl (interval_count_mono set rank (by omega))
  · exact .inr (interval_count_mono set rank (by omega))

theorem offset_bounded {offset : Int} (member : offset ∈ set.offsets rank) :
    0 ≤ offset ∧ (set.plan rank).minKeyValue + offset.toNat ≤ (set.plan rank).maxKeyValue := by
  obtain ⟨above, below⟩ := member
  unfold KeySet.intervalRange at below
  exact ⟨above, by omega⟩

/-- The keys in `key_buff2` at an offset of the interval. -/
theorem received_at_offset {offset : Int} (member : offset ∈ set.offsets rank) :
    (slice (BaselineArrays.exchanged set testIndex stale rank).keyBuff2 0
        (set.plan rank).localKeyCount).countP
      (fun key : Nat => (key : Int) - (set.plan rank).minKeyValue == offset) =
        set.occurrences ((set.plan rank).minKeyValue + offset.toNat) := by
  obtain ⟨above, value⟩ := offset_bounded member
  rw [← received_count (Nat.le_add_right _ _) value, List.count_eq_countP]
  apply List.countP_congr
  intro key _
  rw [beq_iff_eq, beq_iff_eq]
  omega

/-- The cumulative count at an offset is the end of its value's places. -/
theorem cumulative_ends {offset : Int} (member : offset ∈ set.offsets rank) :
    (baselineRank set testIndex stale rank).keyBuff1 offset =
      set.intervalCount rank offset.toNat +
        set.occurrences ((set.plan rank).minKeyValue + offset.toNat) := by
  obtain ⟨above, value⟩ := offset_bounded member
  obtain ⟨min, -, -, -⟩ := baseline_plan set testIndex stale rank
  have cumulative : (baselineRank set testIndex stale rank).keyBuffPtr
      ((set.plan rank).minKeyValue + offset.toNat) = _ :=
    baseline_cumulative (Nat.le_add_right _ _) value
  rw [Nat.add_sub_cancel_left, interval_count_succ] at cumulative
  rw [← cumulative]
  unfold BaselineRanks.keyBuffPtr
  rw [min]
  congr 1
  omega

/-- `full_verify` of the baseline puts each key value where the counts of the values
below it end. -/
theorem placed_key (keyArray : Buffer Nat) {i position : Nat}
    (inside : i < set.intervalRange rank) (low : set.intervalCount rank i ≤ position)
    (high : position < set.intervalCount rank (i + 1)) :
    (baselineRank set testIndex stale rank).placeKeys keyArray position =
      (set.plan rank).minKeyValue + i := by
  obtain ⟨min, -, -, total⟩ := baseline_plan set testIndex stale rank
  have member : (i : Int) ∈ set.offsets rank := ⟨by omega, by omega⟩
  have listed : ∀ key ∈ slice (BaselineArrays.exchanged set testIndex stale rank).keyBuff2 0
      (set.plan rank).localKeyCount,
        (key : Int) - (set.plan rank).minKeyValue ∈ set.offsets rank := by
    intro key held
    obtain ⟨low, high⟩ := received_inside held
    unfold KeySet.offsets KeySet.intervalRange
    exact ⟨by omega, by omega⟩
  have ends : ∀ offset ∈ set.offsets rank,
      (baselineRank set testIndex stale rank).keyBuff1 offset = _ :=
    fun offset => cumulative_ends
  obtain ⟨cursor, valued⟩ := scatter_down_groups keyArray (values_apart set rank) ends listed
    (fun offset member => Nat.le_of_eq (received_at_offset member)) (i : Int) member
  rw [received_at_offset member] at cursor
  have key := valued position (by rw [Nat.add_right_cancel cursor]; exact low)
    (by rw [← interval_count_succ]; exact high)
  have placed : (baselineRank set testIndex stale rank).placeKeys keyArray =
      (scatterDown (fun key : Nat => (key : Int) - (set.plan rank).minKeyValue)
        (baselineRank set testIndex stale rank).keyBuff1 keyArray
        (slice (BaselineArrays.exchanged set testIndex stale rank).keyBuff2 0
          (set.plan rank).localKeyCount)).2 := by
    unfold BaselineRanks.placeKeys
    rw [min, total]
    rfl
  rw [placed]
  omega

end Placing

section Pipeline

variable {commSize : Nat} {Worker : Type} [Fintype Worker] [DecidableEq Worker]
variable {program : Pipeline.Program commSize Worker} {rank : Fin commSize}
variable {state : Pipeline commSize Worker}

omit [DecidableEq Worker] in
/-- The histogram of a rank adds up to the places of its key values. -/
theorem counted_interval {progress : RankProgress Worker}
    (planned : Planned program rank progress) (counted : Counted program progress) {count : Nat}
    (bound : count ≤ (program.sets progress.iteration).intervalRange rank) :
    ∑ i ∈ Finset.range count, progress.workspace.frequencyByKey progress.plan.minKeyValue
        ((progress.plan.minKeyValue + i : Nat) : Int) =
      (program.sets progress.iteration).intervalCount rank count := by
  unfold KeySet.intervalRange at bound
  rw [← planned.plan] at bound
  apply Finset.sum_congr rfl
  intro i member
  have less := Finset.mem_range.mp member
  rw [counted (progress.plan.minKeyValue + i) (by omega) (by omega), planned.plan]

/-- After the ranking of any iteration, in any order of steps and deliveries. -/
theorem pipeline_refines_baseline {stale : Fin commSize → Workspace}
    (baseline : Fin commSize → BaselineArrays)
    (reached : (pipelineSystem program).Reachable (fun _ _ => True) (.initial program stale) state)
    (ranked : (state.ranks rank).stage = .ranked) :
    Refines (state.ranks rank) (baselineRank (program.sets (state.ranks rank).iteration)
      program.testIndex baseline rank) := by
  obtain ⟨⟨planned, counted, cumulative⟩, -, -⟩ :=
    ((reachable_pipeline_fits reached).ranks rank).at_stage ranked
  generalize (state.ranks rank) = progress at planned counted cumulative ⊢
  obtain ⟨min, max, lesser, total⟩ := baseline_plan (program.sets progress.iteration)
    program.testIndex baseline rank
  have plan := planned.plan
  constructor
  · rw [plan, min]
  · rw [plan, max]
  · rw [plan, lesser]
  · rw [plan, total]
  · rw [plan, total, local_routed _ rank.isLt, expected_routed _ rank.isLt]
  · intro key low high
    have ranks := cumulative key low high
    rw [plan] at low high ranks
    rw [baseline_cumulative low high, plan]
    have counts := lesser_occurrences rank.isLt low high
    unfold KeySet.intervalCount
    omega
  · intro keyArray keyArray' position inside
    rw [total] at inside
    obtain ⟨i, bounded, low, high⟩ :=
      (intervalChunks (program.sets progress.iteration) rank).owner inside
    rw [placed_key keyArray' bounded low high, ← plan]
    have range : i < progress.plan.maxKeyValue + 1 - progress.plan.minKeyValue := by
      rw [plan]
      exact bounded
    apply rebuilt_key _ _ _ range
    · simp only [Nat.cast_id]
      rw [counted_interval planned counted (Nat.le_of_lt bounded)]
      exact low
    · simp only [Nat.cast_id]
      rw [counted_interval planned counted bounded]
      exact high

/-- The arrays of the baseline before its first iteration. -/
def staleBaseline : BaselineArrays where
  bucketSize _ := 2
  bucketSizeTotals _ := 3
  bucketPtrs _ := 4
  processBucketDistribPtr1 _ := 5
  processBucketDistribPtr2 _ := 6
  sendCount _ := 7
  recvCount _ := 8
  sendDispl _ := 9
  recvDispl _ := 10
  keyBuff1 _ := 11
  keyBuff2 _ := 12

/-- Two ranks of both programs, which give each other their keys. -/
theorem pipeline_refines_baseline_shared :
    (baselineRank sharedKeys (fun _ => 0) (fun _ => staleBaseline) 0).keyBuffPtr 0 = 0 ∧
      (baselineRank sharedKeys (fun _ => 0) (fun _ => staleBaseline) 0).keyBuffPtr 1 = 1 ∧
        (baselineRank sharedKeys (fun _ => 0) (fun _ => staleBaseline) 1).m = 1 ∧
          ∃ state : Pipeline 2 Unit,
            (pipelineSystem sharedProgram).run (.initial sharedProgram fun _ => staleWorkspace)
                (sharedIteration 0 1 0) = some state ∧
              ∀ rank, Refines (state.ranks rank)
                (baselineRank sharedKeys (fun _ => 0) (fun _ => staleBaseline) rank) := by
  refine ⟨by decide +kernel, by decide +kernel, by decide +kernel, ?_⟩
  obtain ⟨state, executed, intervals⟩ := Option.map_eq_some_iff.mp shared_intervals
  obtain ⟨first, second⟩ := Prod.mk.inj intervals
  have reached := TransitionSystem.any_run_reachable executed
  refine ⟨state, executed, Fin.forall_fin_two.mpr ⟨?_, ?_⟩⟩
  · exact pipeline_refines_baseline (fun _ => staleBaseline) reached (ranked_of_interval first).1
  · exact pipeline_refines_baseline (fun _ => staleBaseline) reached (ranked_of_interval second).1

end Pipeline

end IntegerSortLci.Benchmark
