import IntegerSortLci.Benchmark.BucketCounts
import IntegerSortLci.Benchmark.KeyRouting
import IntegerSortLci.Foundations.CountingSort

/-!
# The MPI baseline

`rank` of `is.c` from the initialization of its arrays to the cumulative counts, on
all ranks of the communicator, and the loop of its `full_verify` that places the
keys. A rank sorts its keys into buckets in `key_buff1`, sends each rank a contiguous
slice of it, and counts the keys that arrive in `key_buff2` in the cleared `key_buff1`.

The three collectives are the only places where ranks meet, so the function is a
sequence of passes over all ranks. Each key array is the one after the iteration's
key changes, which `apply_iteration_key_changes` repeats on the LCI side.
-/

namespace IntegerSortLci.Benchmark

open IntegerSortLci.Foundations
open scoped BigOperators

set_option autoImplicit false

/-- The global arrays of `is.c` that `rank` fills, on one rank. -/
structure BaselineArrays where
  bucketSize : Nat → Nat
  bucketSizeTotals : Nat → Nat
  bucketPtrs : Nat → Nat
  processBucketDistribPtr1 : Nat → Nat
  processBucketDistribPtr2 : Nat → Nat
  sendCount : Nat → Nat
  recvCount : Nat → Nat
  sendDispl : Nat → Nat
  recvDispl : Nat → Nat
  keyBuff1 : Buffer Nat
  keyBuff2 : Buffer Nat

/-- The locals of the loop that distributes the buckets, with the arrays it fills. -/
structure Distribution where
  bucketSumAccumulator : Nat
  localBucketSumAccumulator : Nat
  j : Nat
  sendCount : Nat → Nat
  sendDispl : Nat → Nat
  processBucketDistribPtr1 : Nat → Nat
  processBucketDistribPtr2 : Nat → Nat

/-- What `rank` leaves for the partial verification and for `full_verify`. -/
structure BaselineRanks where
  minKeyVal : Nat
  maxKeyVal : Nat
  m : Nat
  j : Nat
  keyBuff1 : Buffer Nat
  keyBuff2 : Buffer Nat

/-- The entry of `key` through the pointer `key_buff1 - min_key_val`. -/
def BaselineRanks.keyBuffPtr (ranks : BaselineRanks) (key : Nat) : Nat :=
  ranks.keyBuff1 ((key : Int) - ranks.minKeyVal)

/-- `MPI_Allreduce` with `MPI_SUM`. -/
def allreduce {commSize : Nat} (send : Fin commSize → Nat → Nat) (count : Nat)
    (receive : Nat → Nat) : Nat → Nat :=
  fun i => if i < count then ∑ rank, send rank i else receive i

/-- `MPI_Alltoall` of one entry for each rank. -/
def alltoall {commSize : Nat} (send : Fin commSize → Nat → Nat) (rank : Fin commSize)
    (receive : Nat → Nat) : Nat → Nat :=
  fun source => if inside : source < commSize then send ⟨source, inside⟩ rank else receive source

/-- `MPI_Alltoallv` on the receiving rank: from each source the slice that it sends to
the rank, to the place that the rank has for the source. -/
def alltoallv {commSize : Nat} (send : Fin commSize → Buffer Nat)
    (sendDispl : Fin commSize → Nat → Nat) (recvCount recvDispl : Nat → Nat)
    (rank : Fin commSize) (receive : Buffer Nat) : Buffer Nat :=
  (List.finRange commSize).foldl
    (fun buffer source =>
      copySlice (send source) (sendDispl source rank) (recvCount source) buffer (recvDispl source))
    receive

namespace Distribution

/-- The loop body for bucket `i`. -/
def distributeBucket (bucketSizeTotals bucketSize : Nat → Nat) (numKeys : Nat)
    (state : Distribution) (i : Nat) : Distribution :=
  let accumulated := state.bucketSumAccumulator + bucketSizeTotals i
  let localAccumulated := state.localBucketSumAccumulator + bucketSize i
  if (state.j + 1) * numKeys ≤ accumulated then
    let sendCount := Function.update state.sendCount state.j localAccumulated
    { bucketSumAccumulator := accumulated
      localBucketSumAccumulator := 0
      j := state.j + 1
      sendCount := sendCount
      sendDispl :=
        if state.j ≠ 0 then
          Function.update state.sendDispl state.j
            (state.sendDispl (state.j - 1) + sendCount (state.j - 1))
        else state.sendDispl
      processBucketDistribPtr1 :=
        if state.j ≠ 0 then
          Function.update state.processBucketDistribPtr1 state.j
            (state.processBucketDistribPtr2 (state.j - 1) + 1)
        else state.processBucketDistribPtr1
      processBucketDistribPtr2 := Function.update state.processBucketDistribPtr2 state.j i }
  else
    { state with
      bucketSumAccumulator := accumulated
      localBucketSumAccumulator := localAccumulated }

/-- The loop after its first `count` buckets. -/
def distributeBuckets (bucketSizeTotals bucketSize : Nat → Nat) (numKeys : Nat)
    (start : Distribution) (count : Nat) : Distribution :=
  (List.range count).foldl (distributeBucket bucketSizeTotals bucketSize numKeys) start

/-- The body of the `while` loop over the ranks that got no bucket. -/
def skipRank (state : Distribution) (rank : Nat) : Distribution :=
  { state with
    sendCount := Function.update state.sendCount rank 0
    processBucketDistribPtr1 := Function.update state.processBucketDistribPtr1 rank 1
    j := rank + 1 }

def skipRanks (commSize : Nat) (state : Distribution) : Distribution :=
  (List.range' state.j (commSize - state.j)).foldl skipRank state

end Distribution

namespace BaselineArrays

variable {commSize : Nat} (set : KeySet commSize) (testIndex : Nat → Nat)

/-- `rank` up to `MPI_Allreduce`. The initialization clears four arrays over their
whole length. -/
def sortIntoBuckets (rank : Fin commSize) (arrays : BaselineArrays) : BaselineArrays :=
  let captured := capturePartialVerificationKeys testIndex (set.keys rank) set.localKeyCount rank
    set.numBuckets fun _ => 0
  let bucketSize := increments set.bucketOf captured (set.keys rank)
  let bucketPtrs := displacements bucketSize arrays.bucketPtrs set.numBuckets
  let sorted := scatter set.bucketOf bucketPtrs arrays.keyBuff1 (set.keys rank)
  { arrays with
    bucketSize := bucketSize
    bucketSizeTotals := fun _ => 0
    processBucketDistribPtr1 := fun _ => 0
    processBucketDistribPtr2 := fun _ => 0
    bucketPtrs := sorted.1
    keyBuff1 := sorted.2 }

/-- In front of the distribution loop. -/
def distributionStart (arrays : BaselineArrays) : Distribution where
  bucketSumAccumulator := 0
  localBucketSumAccumulator := 0
  j := 0
  sendCount := arrays.sendCount
  sendDispl := Function.update arrays.sendDispl 0 0
  processBucketDistribPtr1 := Function.update arrays.processBucketDistribPtr1 0 0
  processBucketDistribPtr2 := arrays.processBucketDistribPtr2

/-- Behind the distribution loop. -/
def distributionEnd (arrays : BaselineArrays) : Distribution :=
  arrays.distributionStart.distributeBuckets arrays.bucketSizeTotals arrays.bucketSize
    set.localKeyCount set.numBuckets

/-- From `MPI_Allreduce` to `MPI_Alltoall`. -/
def distribute (arrays : BaselineArrays) : BaselineArrays :=
  let distributed := (arrays.distributionEnd set).skipRanks commSize
  { arrays with
    sendCount := distributed.sendCount
    sendDispl := distributed.sendDispl
    processBucketDistribPtr1 := distributed.processBucketDistribPtr1
    processBucketDistribPtr2 := distributed.processBucketDistribPtr2 }

/-- `rank` behind `MPI_Alltoallv`. -/
def rankKeys (rank : Fin commSize) (arrays : BaselineArrays) : BaselineRanks :=
  let minKeyVal := arrays.processBucketDistribPtr1 rank <<< set.bucketShift
  let maxKeyVal := ((arrays.processBucketDistribPtr2 rank + 1) <<< set.bucketShift) - 1
  let total (k : Nat) := ∑ i ∈ Finset.Icc (arrays.processBucketDistribPtr1 k)
    (arrays.processBucketDistribPtr2 k), arrays.bucketSizeTotals i
  let j := total rank
  let cleared : Buffer Nat := fun i =>
    if 0 ≤ i ∧ i < (maxKeyVal : Int) - minKeyVal + 1 then 0 else arrays.keyBuff1 i
  let population := increments (fun key : Nat => (key : Int) - minKeyVal) cleared
    (slice arrays.keyBuff2 0 j)
  { minKeyVal := minKeyVal
    maxKeyVal := maxKeyVal
    m := ∑ k ∈ Finset.range rank, total k
    j := j
    keyBuff1 := accumulate population 0 (maxKeyVal - minKeyVal)
    keyBuff2 := arrays.keyBuff2 }

variable (stale : Fin commSize → BaselineArrays)

/-- The arrays of all ranks behind `MPI_Allreduce`. -/
def reduced (rank : Fin commSize) : BaselineArrays :=
  let arrays := (stale rank).sortIntoBuckets set testIndex rank
  { arrays with
    bucketSizeTotals := allreduce
      (fun other => ((stale other).sortIntoBuckets set testIndex other).bucketSize)
      (set.numBuckets + testArraySize) arrays.bucketSizeTotals }

/-- The arrays of all ranks in front of `MPI_Alltoall`. -/
def distributed (rank : Fin commSize) : BaselineArrays :=
  (reduced set testIndex stale rank).distribute set

/-- The arrays of all ranks behind `MPI_Alltoallv`. -/
def exchanged (rank : Fin commSize) : BaselineArrays :=
  let arrays := distributed set testIndex stale rank
  let recvCount := alltoall (fun other => (distributed set testIndex stale other).sendCount) rank
    arrays.recvCount
  let recvDispl := displacements recvCount arrays.recvDispl commSize
  { arrays with
    recvCount := recvCount
    recvDispl := recvDispl
    keyBuff2 := alltoallv (fun other => (distributed set testIndex stale other).keyBuff1)
      (fun other => (distributed set testIndex stale other).sendDispl) recvCount recvDispl rank
      arrays.keyBuff2 }

end BaselineArrays

/-- `rank` of `is.c` on all ranks; `stale` is what the arrays hold before. -/
def baselineRank {commSize : Nat} (set : KeySet commSize) (testIndex : Nat → Nat)
    (stale : Fin commSize → BaselineArrays) (rank : Fin commSize) : BaselineRanks :=
  (BaselineArrays.exchanged set testIndex stale rank).rankKeys set rank

/-- The loop of `full_verify` in `is.c` that places the keys through the cumulative
counts; `total_lesser_keys` is 0. -/
def BaselineRanks.placeKeys (ranks : BaselineRanks) (keyArray : Buffer Nat) : Buffer Nat :=
  (scatterDown (fun key : Nat => (key : Int) - ranks.minKeyVal) ranks.keyBuff1 keyArray
    (slice ranks.keyBuff2 0 ranks.j)).2

end IntegerSortLci.Benchmark
