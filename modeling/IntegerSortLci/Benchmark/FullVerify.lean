import IntegerSortLci.Foundations.CountingSort

/-!
# Rebuilding the sorted keys

The first loop of `full_verify` in `verification.cpp`: from the frequency histogram of
the rank's interval it writes each key value as often as it occurs.
-/

namespace IntegerSortLci.Benchmark

open IntegerSortLci.Foundations
open scoped BigOperators

set_option autoImplicit false

/-- The loop over the copies of one key; the state is `idx` with `key_array`. -/
def writeCopies {Value : Type} (key : Value) (count : Nat) (state : Nat × Buffer Value) :
    Nat × Buffer Value :=
  (List.range count).foldl
    (fun state _ => (state.1 + 1, Function.update state.2 (state.1 : Int) key)) state

section Keys

variable {Key : Type} [Add Key] [NatCast Key]

/-- The loop over the key values from `min_key_value` on; there are `count` of them. The keys
are natural numbers or integers. -/
def rebuildKeys (frequencyHistogram : Key → Nat) (minKeyValue : Key) (count : Nat)
    (keyArray : Buffer Key) : Nat × Buffer Key :=
  ((List.range count).map fun i : Nat => minKeyValue + (i : Key)).foldl
    (fun state key => writeCopies key (frequencyHistogram key) state) (0, keyArray)

end Keys

theorem write_copies {Value : Type} (key : Value) (count : Nat) (state : Nat × Buffer Value) :
    (writeCopies key count state).1 = state.1 + count ∧
      (∀ position : Nat, state.1 ≤ position → position < state.1 + count →
        (writeCopies key count state).2 position = key) ∧
      ∀ position : Nat, position < state.1 →
        (writeCopies key count state).2 position = state.2 position := by
  unfold writeCopies
  induction count with
  | zero =>
      refine ⟨rfl, ?_, fun _ _ => rfl⟩
      intro position low high
      omega
  | succ count ih =>
      obtain ⟨cursor, written, before⟩ := ih
      rw [List.range_succ, List.foldl_append, List.foldl_cons, List.foldl_nil]
      dsimp only
      rw [cursor]
      refine ⟨rfl, ?_, ?_⟩
      · intro position low high
        by_cases last : position = state.1 + count
        · rw [last, Function.update_self]
        · rw [Function.update_of_ne (by omega)]
          exact written position low (by omega)
      · intro position low
        rw [Function.update_of_ne (by omega)]
        exact before position low

theorem write_copies_behind {Value : Type} (key : Value) (count : Nat)
    (state : Nat × Buffer Value) {position : Nat} (behind : state.1 + count ≤ position) :
    (writeCopies key count state).2 position = state.2 position := by
  induction count with
  | zero => rfl
  | succ count ih =>
      have cursor := (write_copies key count state).1
      have step : writeCopies key (count + 1) state =
          ((writeCopies key count state).1 + 1, Function.update (writeCopies key count state).2
            ((writeCopies key count state).1 : Int) key) := by
        unfold writeCopies
        rw [List.range_succ, List.foldl_append]
        rfl
      rw [step, cursor]
      dsimp only
      rw [Function.update_of_ne (by omega)]
      exact ih (by omega)

section Rebuilt

variable {Key : Type} [Add Key] [NatCast Key]

/-- After the first `count` values each of them stands where the counts before it end. -/
private theorem rebuild_fold (frequencyHistogram : Key → Nat) (minKeyValue : Key) (count : Nat)
    (keyArray : Buffer Key) :
    let starts n := ∑ i ∈ Finset.range n, frequencyHistogram (minKeyValue + (i : Key))
    let rebuilt := rebuildKeys frequencyHistogram minKeyValue count keyArray
    rebuilt.1 = starts count ∧
      ∀ i < count, ∀ position : Nat, starts i ≤ position → position < starts (i + 1) →
        rebuilt.2 position = minKeyValue + (i : Key) := by
  induction count with
  | zero =>
      refine ⟨rfl, ?_⟩
      intro i less
      omega
  | succ count ih =>
      intro starts rebuilt
      obtain ⟨cursor, placed⟩ := ih
      obtain ⟨moved, written, before⟩ := write_copies (minKeyValue + (count : Key))
        (frequencyHistogram (minKeyValue + (count : Key)))
        (rebuildKeys frequencyHistogram minKeyValue count keyArray)
      have step : rebuilt = writeCopies (minKeyValue + (count : Key))
          (frequencyHistogram (minKeyValue + (count : Key)))
          (rebuildKeys frequencyHistogram minKeyValue count keyArray) := by
        change rebuildKeys frequencyHistogram minKeyValue (count + 1) keyArray = _
        unfold rebuildKeys
        rw [List.range_succ, List.map_append, List.foldl_append]
        rfl
      have last : starts (count + 1) =
          starts count + frequencyHistogram (minKeyValue + (count : Key)) :=
        Finset.sum_range_succ _ _
      rw [step]
      constructor
      · rw [moved, cursor, last]
      · intro i less position low high
        rcases Nat.lt_succ_iff_lt_or_eq.mp less with earlier | rfl
        · have order : starts (i + 1) ≤ starts count :=
            Finset.sum_le_sum_of_subset (Finset.range_mono earlier)
          rw [before position (by rw [cursor]; exact high.trans_le order)]
          exact placed i earlier position low high
        · exact written position (by rw [cursor]; exact low)
            (by rw [cursor]; exact high.trans_le (Nat.le_of_eq last))

/-- The positions from the count of the keys below a value to the count of those up to it
hold the value. -/
theorem rebuilt_key (frequencyHistogram : Key → Nat) (minKeyValue : Key) {count : Nat}
    (keyArray : Buffer Key) {i position : Nat} (inside : i < count)
    (low : ∑ j ∈ Finset.range i, frequencyHistogram (minKeyValue + (j : Key)) ≤ position)
    (high : position < ∑ j ∈ Finset.range (i + 1), frequencyHistogram (minKeyValue + (j : Key))) :
    (rebuildKeys frequencyHistogram minKeyValue count keyArray).2 position =
      minKeyValue + (i : Key) :=
  (rebuild_fold frequencyHistogram minKeyValue count keyArray).2 i inside position low high

end Rebuilt

end IntegerSortLci.Benchmark
