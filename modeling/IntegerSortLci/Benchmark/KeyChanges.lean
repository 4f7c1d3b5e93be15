import IntegerSortLci.Benchmark.KeyRouting
import IntegerSortLci.Benchmark.RunRules
import Mathlib.Algebra.BigOperators.Fin

/-!
# The key changes of the passes

`apply_iteration_key_changes`, and the key arrays of the warm-up pass and of the timed
passes that follow from the generated ones. The changes of a pass stay in the arrays of
the later ones. They hit the first entries of rank 0, so to the keys of all ranks in one
row the passes do what they would do to the keys of a single rank.
-/

namespace IntegerSortLci.Benchmark

open scoped BigOperators

set_option autoImplicit false

/-- `apply_iteration_key_changes`. -/
def applyIterationKeyChanges (maxKey maxIterations : Nat) (keys : List Nat)
    (iteration myRank : Nat) : List Nat :=
  if myRank = 0 then
    (keys.set iteration iteration).set (iteration + maxIterations) (maxKey - iteration)
  else keys

/-- `current_iteration_` of a pass: the warm-up is pass 0 and counts as iteration 1. -/
def passIteration (maxIterations pass : Nat) : Nat := max 1 (min pass maxIterations)

/-- A rank's keys in each pass. -/
def passKeys (maxKey maxIterations : Nat) (keys : List Nat) (myRank : Nat) : Nat → List Nat
  | 0 =>
      applyIterationKeyChanges maxKey maxIterations keys (passIteration maxIterations 0) myRank
  | pass + 1 =>
      applyIterationKeyChanges maxKey maxIterations (passKeys maxKey maxIterations keys myRank pass)
        (passIteration maxIterations (pass + 1)) myRank

section Changes

variable (maxKey maxIterations : Nat) (keys : List Nat) (iteration myRank pass : Nat)

theorem changes_length :
    (applyIterationKeyChanges maxKey maxIterations keys iteration myRank).length = keys.length := by
  unfold applyIterationKeyChanges
  split
  · rw [List.length_set, List.length_set]
  · rfl

variable {maxKey maxIterations keys iteration myRank}

/-- The iteration number itself and its distance to the end of the key range are keys. -/
theorem changes_below (positive : 0 < iteration) (bounded : iteration < maxKey)
    (below : ∀ key ∈ keys, key < maxKey) :
    ∀ key ∈ applyIterationKeyChanges maxKey maxIterations keys iteration myRank, key < maxKey := by
  intro key member
  unfold applyIterationKeyChanges at member
  split at member
  case isTrue =>
    rcases List.mem_or_eq_of_mem_set member with inner | rfl
    · rcases List.mem_or_eq_of_mem_set inner with held | rfl
      · exact below key held
      · exact bounded
    · omega
  case isFalse => exact below key member

theorem pass_iteration_bounds (some : 0 < maxIterations) :
    0 < passIteration maxIterations pass ∧ passIteration maxIterations pass ≤ maxIterations := by
  unfold passIteration
  omega

/-- A timed pass counts as the iteration of its number. -/
theorem pass_iteration_timed (timed : 0 < pass) (within : pass ≤ maxIterations) :
    passIteration maxIterations pass = pass := by
  unfold passIteration
  omega

theorem pass_keys_length :
    (passKeys maxKey maxIterations keys myRank pass).length = keys.length := by
  induction pass with
  | zero => exact changes_length _ _ _ _ _
  | succ pass ih => exact (changes_length _ _ _ _ _).trans ih

theorem pass_keys_below (some : 0 < maxIterations) (wide : maxIterations < maxKey)
    (below : ∀ key ∈ keys, key < maxKey) :
    ∀ key ∈ passKeys maxKey maxIterations keys myRank pass, key < maxKey := by
  induction pass with
  | zero =>
      obtain ⟨positive, most⟩ := pass_iteration_bounds 0 some
      exact changes_below positive (most.trans_lt wide) below
  | succ pass ih =>
      obtain ⟨positive, most⟩ := pass_iteration_bounds (pass + 1) some
      exact changes_below positive (most.trans_lt wide) ih

/-- Only rank 0 changes its keys. -/
theorem pass_keys_other (other : myRank ≠ 0) :
    passKeys maxKey maxIterations keys myRank pass = keys := by
  induction pass with
  | zero => exact if_neg other
  | succ pass ih => exact (if_neg other).trans ih

/-- In front of other keys the changes stay within the keys they are made to. -/
theorem pass_keys_append (some : 0 < maxIterations) (rest : List Nat)
    (room : 2 * maxIterations < keys.length) :
    passKeys maxKey maxIterations (keys ++ rest) 0 pass =
      passKeys maxKey maxIterations keys 0 pass ++ rest := by
  have change : ∀ (held : List Nat) (iteration : Nat), held.length = keys.length →
      iteration ≤ maxIterations →
        applyIterationKeyChanges maxKey maxIterations (held ++ rest) iteration 0 =
          applyIterationKeyChanges maxKey maxIterations held iteration 0 ++ rest := by
    intro held iteration same most
    unfold applyIterationKeyChanges
    rw [if_pos rfl, if_pos rfl, List.set_append_left _ _ (by omega), List.set_append_left]
    rw [List.length_set]
    omega
  induction pass with
  | zero => exact change keys _ rfl (pass_iteration_bounds 0 some).2
  | succ pass ih =>
      simp only [passKeys, ih]
      exact change _ _ (pass_keys_length pass) (pass_iteration_bounds (pass + 1) some).2

end Changes

namespace KeySet

variable {commSize : Nat} (set : KeySet commSize)

/-- `MAX_KEY`, the end of the key range. -/
def maxKey : Nat := set.numBuckets * 2 ^ set.bucketShift

/-- The key arrays of a pass, from the generated ones. -/
def atPass {maxIterations : Nat} (some : 0 < maxIterations) (wide : maxIterations < set.maxKey)
    (pass : Nat) : KeySet commSize where
  keys rank := passKeys set.maxKey maxIterations (set.keys rank) rank pass
  localKeyCount := set.localKeyCount
  numBuckets := set.numBuckets
  bucketShift := set.bucketShift
  length_eq rank := (pass_keys_length pass).trans (set.length_eq rank)
  positive := set.positive
  in_range rank := pass_keys_below pass some wide (set.in_range rank)

/-- The keys of all ranks in one row. -/
def globalKeys : List Nat := (List.finRange commSize).flatMap set.keys

end KeySet

section Global

variable {commSize : Nat} {set : KeySet commSize}

theorem count_keys_global (set : KeySet commSize) (test : Nat → Bool) :
    set.countKeys test = set.globalKeys.countP test := by
  unfold KeySet.countKeys KeySet.globalKeys
  rw [List.countP_flatMap, Fin.sum_univ_def]
  rfl

/-- The entry of a row of blocks of one length. -/
theorem block_entry {Value : Type} (length : Nat) {count : Nat} (block : Fin count → List Value)
    (same : ∀ i, (block i).length = length) (i : Fin count) {offset : Nat}
    (inside : offset < length) :
    ((List.finRange count).flatMap block)[length * i + offset]? = (block i)[offset]? := by
  induction count with
  | zero => exact i.elim0
  | succ count ih =>
      rw [List.finRange_succ, List.flatMap_cons, List.flatMap_map]
      cases i using Fin.cases with
      | zero =>
          rw [Fin.val_zero, Nat.mul_zero, Nat.zero_add, List.getElem?_append_left]
          rw [same]
          exact inside
      | succ i =>
          have behind : length * (i.succ : Nat) + offset = length + (length * i + offset) := by
            rw [Fin.val_succ, Nat.mul_succ]
            omega
          rw [behind, List.getElem?_append_right (by rw [same]; omega), same,
            Nat.add_sub_cancel_left]
          exact ih (fun i => block i.succ) (fun i => same i.succ) i

/-- The key at a global index is the one at the local index of the rank that holds it. -/
theorem global_entry (set : KeySet commSize) (holder : Fin commSize) {index : Nat}
    (held : holder.val = index / set.localKeyCount) :
    set.globalKeys[index]? = (set.keys holder)[index % set.localKeyCount]? := by
  have entry := block_entry set.localKeyCount set.keys set.length_eq holder
    (Nat.mod_lt index set.positive)
  rw [held, Nat.div_add_mod] at entry
  exact entry

/-- The changes to the arrays are the changes to the row. -/
theorem global_keys_pass (set : KeySet commSize) {maxIterations : Nat} (some : 0 < maxIterations)
    (wide : maxIterations < set.maxKey) (room : 2 * maxIterations < set.localKeyCount)
    (pass : Nat) :
    (set.atPass some wide pass).globalKeys =
      passKeys set.maxKey maxIterations set.globalKeys 0 pass := by
  unfold KeySet.globalKeys KeySet.atPass
  dsimp only
  cases commSize with
  | zero =>
      have none : passKeys set.maxKey maxIterations [] 0 pass = [] :=
        List.length_eq_zero_iff.mp (pass_keys_length pass)
      exact none.symm
  | succ others =>
      rw [List.finRange_succ, List.flatMap_cons, List.flatMap_cons,
        pass_keys_append pass some _ (by rw [set.length_eq]; exact room)]
      congr 1
      rw [List.flatMap_map, List.flatMap_map]
      apply List.flatMap_congr
      intro rank _
      exact pass_keys_other pass (Nat.succ_ne_zero rank)

end Global

end IntegerSortLci.Benchmark
