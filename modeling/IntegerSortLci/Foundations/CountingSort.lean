import Mathlib.Algebra.BigOperators.Intervals
import Mathlib.Algebra.Order.BigOperators.Group.Finset
import Mathlib.Data.Int.ConditionallyCompleteOrder
import Mathlib.Data.Int.Interval
import Mathlib.Data.Set.Pairwise.Basic
import Mathlib.Logic.Function.Basic

/-!
# The loops of a counting sort

Flat arrays as functions on integer offsets, and the loops that a counting or bucket
sort runs over them: counting the items of each group, turning counts into the
offsets at which the groups start, and placing each item at its group's cursor. The
cursor moves up from the start of the group's region or down from its end.
-/

namespace IntegerSortLci.Foundations

open scoped BigOperators

set_option autoImplicit false

/-- The values at integer offsets from the start of an array. -/
abbrev Buffer (α : Type*) := Int → α

variable {α κ : Type*}

section Slices

/-- `count` consecutive values. -/
def slice (buffer : Buffer α) (start count : Nat) : List α :=
  (List.range' start count).map fun i : Nat => buffer i

variable {buffer other : Buffer α} {start count : Nat}

@[simp] theorem slice_zero (buffer : Buffer α) (start : Nat) : slice buffer start 0 = [] := rfl

@[simp] theorem slice_length (buffer : Buffer α) (start count : Nat) :
    (slice buffer start count).length = count := by
  simp [slice]

theorem slice_succ (buffer : Buffer α) (start count : Nat) :
    slice buffer start (count + 1) =
      slice buffer start count ++ [buffer ((start + count : Nat) : Int)] := by
  unfold slice
  rw [List.range'_1_concat, List.map_append]
  rfl

theorem slice_add (buffer : Buffer α) (start first second : Nat) :
    slice buffer start (first + second) =
      slice buffer start first ++ slice buffer (start + first) second := by
  induction second with
  | zero => simp
  | succ second ih =>
      rw [← Nat.add_assoc, slice_succ, ih, slice_succ, List.append_assoc, Nat.add_assoc]

theorem slice_congr
    (agree : ∀ i : Nat, start ≤ i → i < start + count → buffer i = other i) :
    slice buffer start count = slice other start count := by
  unfold slice
  apply List.map_congr_left
  intro i member
  obtain ⟨low, high⟩ := List.mem_range'_1.mp member
  exact agree i low high

theorem slice_update {position : Nat} (item : α)
    (outside : position < start ∨ start + count ≤ position) :
    slice (Function.update buffer (position : Int) item) start count =
      slice buffer start count := by
  apply slice_congr
  intro i low high
  have different : (i : Int) ≠ position := by omega
  rw [Function.update_of_ne different]

theorem slice_push (item : α) :
    slice (Function.update buffer ((start + count : Nat) : Int) item) start (count + 1) =
      slice buffer start count ++ [item] := by
  rw [slice_succ, slice_update item (.inr (Nat.le_refl _)), Function.update_self]

/-- Copies `count` values to another place. -/
def copySlice (source : Buffer α) (start count : Nat) (target : Buffer α) (position : Nat) :
    Buffer α := fun i =>
  if position ≤ i ∧ i < position + count then source (i - position + start) else target i

theorem copy_slice_self (source target : Buffer α) (start count position : Nat) :
    slice (copySlice source start count target position) position count =
      slice source start count := by
  unfold slice copySlice
  apply List.ext_getElem
  · simp
  · intro i inside inside'
    simp only [List.length_map, List.length_range'] at inside
    simp only [List.getElem_map, List.getElem_range', Nat.one_mul]
    rw [if_pos (by omega)]
    congr 1
    omega

theorem copy_slice_outside (source : Buffer α) {target : Buffer α} {position first size : Nat}
    (apart : position + size ≤ start ∨ start + count ≤ position) :
    slice (copySlice source first size target position) start count =
      slice target start count := by
  apply slice_congr
  intro i low high
  unfold copySlice
  rw [if_neg (by omega)]

/-- Copies to places that do not overlap all stay. -/
theorem copy_slices {Piece : Type*} (pieces : List Piece) (source : Piece → Buffer α)
    (first size position : Piece → Nat) (target : Buffer α)
    (apart : pieces.Pairwise fun one another =>
      position one + size one ≤ position another) :
    ∀ piece ∈ pieces, slice (pieces.foldl (fun target piece =>
        copySlice (source piece) (first piece) (size piece) target (position piece)) target)
        (position piece) (size piece) =
      slice (source piece) (first piece) (size piece) := by
  induction pieces using List.reverseRecOn with
  | nil => nofun
  | append_singleton pieces last ih =>
      obtain ⟨before, -, behind⟩ := List.pairwise_append.mp apart
      intro piece member
      rw [List.foldl_append, List.foldl_cons, List.foldl_nil]
      rcases List.mem_append.mp member with earlier | now
      · rw [copy_slice_outside _ (.inr (behind piece earlier last (List.mem_singleton_self last)))]
        exact ih before piece earlier
      · obtain rfl := List.mem_singleton.mp now
        exact copy_slice_self _ _ _ _ _

/-- Consecutive pieces of the given sizes, as one multiset. -/
theorem slice_pieces (buffer : Buffer α) (sizes : Nat → Nat) {first last : Nat}
    (order : first ≤ last) :
    (slice buffer (∑ i ∈ Finset.range first, sizes i) (∑ i ∈ Finset.Ico first last, sizes i) :
        Multiset α) =
      ∑ i ∈ Finset.Ico first last,
        (slice buffer (∑ j ∈ Finset.range i, sizes j) (sizes i) : Multiset α) := by
  induction last, order using Nat.le_induction with
  | base => simp
  | succ last order ih =>
      rw [Finset.sum_Ico_succ_top order, Finset.sum_Ico_succ_top order, ← ih, slice_add,
        Finset.sum_range_add_sum_Ico _ order, Multiset.coe_add]

end Slices

section Counting

variable [DecidableEq κ]

/-- Adds one at the index of every item. -/
def increments (index : α → κ) (counts : κ → Nat) (items : List α) : κ → Nat :=
  items.foldl
    (fun counts item => Function.update counts (index item) (counts (index item) + 1)) counts

theorem increments_count (index : α → κ) (counts : κ → Nat) (items : List α) (key : κ) :
    increments index counts items key =
      counts key + items.countP fun item => index item == key := by
  unfold increments
  induction items generalizing counts with
  | nil => rfl
  | cons item rest ih =>
      rw [List.foldl_cons, ih, List.countP_cons]
      by_cases same : index item = key
      · subst same
        simp
        omega
      · simp [same, Ne.symm same]

/-- A loop that writes one value to consecutive entries. -/
theorem fill_range (values : Nat → α) (value : α) (start count i : Nat) :
    (List.range' start count).foldl (fun values i => Function.update values i value) values i =
      if start ≤ i ∧ i < start + count then value else values i := by
  induction count with
  | zero =>
      rw [if_neg (by omega)]
      rfl
  | succ count ih =>
      rw [List.range'_1_concat, List.foldl_append, List.foldl_cons, List.foldl_nil]
      by_cases last : i = start + count
      · rw [last, Function.update_self, if_pos (by omega)]
      · rw [Function.update_of_ne last, ih]
        by_cases inside : start ≤ i ∧ i < start + count
        · rw [if_pos inside, if_pos (by omega)]
        · rw [if_neg inside, if_neg (by omega)]

/-- `starts[0] = 0`, and each further entry is the one before it plus the size of the
piece there. -/
def displacements (sizes : Nat → Nat) (starts : Nat → Nat) (count : Nat) : Nat → Nat :=
  (List.range' 1 (count - 1)).foldl
    (fun starts i => Function.update starts i (starts (i - 1) + sizes (i - 1)))
    (Function.update starts 0 0)

private theorem displacements_fold (sizes starts : Nat → Nat) (count : Nat) :
    ∀ i ≤ count, (List.range' 1 count).foldl
      (fun starts i => Function.update starts i (starts (i - 1) + sizes (i - 1)))
      (Function.update starts 0 0) i = ∑ j ∈ Finset.range i, sizes j := by
  induction count with
  | zero =>
      intro i bound
      obtain rfl : i = 0 := Nat.le_zero.mp bound
      exact Function.update_self 0 0 starts
  | succ count ih =>
      intro i bound
      rw [List.range'_1_concat, List.foldl_append, List.foldl_cons, List.foldl_nil]
      by_cases last : i = 1 + count
      · subst last
        rw [Function.update_self, Nat.add_sub_cancel_left, ih count (Nat.le_refl _),
          Nat.add_comm 1 count, Finset.sum_range_succ]
      · rw [Function.update_of_ne last]
        exact ih i (by omega)

theorem displacements_sum (sizes starts : Nat → Nat) {count i : Nat} (inside : i < count) :
    displacements sizes starts count i = ∑ j ∈ Finset.range i, sizes j :=
  displacements_fold sizes starts (count - 1) i (by omega)

/-- Adds to each of the next `count` entries the one before it. -/
def accumulate (counts : Buffer Nat) (start : Int) (count : Nat) : Buffer Nat :=
  (List.range count).foldl
    (fun counts (i : Nat) => Function.update counts (start + i + 1)
      (counts (start + i + 1) + counts (start + i))) counts

theorem accumulate_sum (counts : Buffer Nat) (start : Int) (count : Nat) :
    (∀ i ≤ count, accumulate counts start count (start + i) =
      ∑ j ∈ Finset.range (i + 1), counts (start + j)) ∧
    ∀ i, start + count < i → accumulate counts start count i = counts i := by
  induction count with
  | zero =>
      refine ⟨?_, fun _ _ => rfl⟩
      intro i bound
      obtain rfl : i = 0 := Nat.le_zero.mp bound
      exact (Finset.sum_range_one fun j => counts (start + (j : Int))).symm
  | succ count ih =>
      obtain ⟨summed, behind⟩ := ih
      unfold accumulate at summed behind ⊢
      rw [List.range_succ, List.foldl_append, List.foldl_cons, List.foldl_nil]
      constructor
      · intro i bound
        by_cases last : i = count + 1
        · subst last
          have index : start + ((count + 1 : Nat) : Int) = start + count + 1 := by omega
          rw [index, Function.update_self, behind _ (by omega), summed count (Nat.le_refl _),
            Finset.sum_range_succ _ (count + 1), index, Nat.add_comm]
        · rw [Function.update_of_ne (by omega)]
          exact summed i (by omega)
      · intro i beyond
        rw [Function.update_of_ne (by omega)]
        exact behind i (by omega)

end Counting

section Placing

variable [DecidableEq κ]

/-- Places an item at its group's cursor, which moves up behind it. -/
def scatterItem (group : α → κ) (state : (κ → Nat) × Buffer α) (item : α) :
    (κ → Nat) × Buffer α :=
  let position := state.1 (group item)
  (Function.update state.1 (group item) (position + 1),
    Function.update state.2 (position : Int) item)

/-- Places all items, in their order. -/
def scatter (group : α → κ) (cursors : κ → Nat) (buffer : Buffer α) (items : List α) :
    (κ → Nat) × Buffer α :=
  items.foldl (scatterItem group) (cursors, buffer)

/-- Moves the cursor of the item's group down and places the item there. -/
def scatterDownItem (group : α → κ) (state : (κ → Nat) × Buffer α) (item : α) :
    (κ → Nat) × Buffer α :=
  let position := state.1 (group item) - 1
  (Function.update state.1 (group item) position,
    Function.update state.2 (position : Int) item)

def scatterDown (group : α → κ) (cursors : κ → Nat) (buffer : Buffer α) (items : List α) :
    (κ → Nat) × Buffer α :=
  items.foldl (scatterDownItem group) (cursors, buffer)

theorem scatter_append (group : α → κ) (cursors : κ → Nat) (buffer : Buffer α) (items : List α)
    (item : α) : scatter group cursors buffer (items ++ [item]) =
      scatterItem group (scatter group cursors buffer items) item := by
  unfold scatter
  rw [List.foldl_append]
  rfl

theorem scatter_down_append (group : α → κ) (cursors : κ → Nat) (buffer : Buffer α)
    (items : List α) (item : α) : scatterDown group cursors buffer (items ++ [item]) =
      scatterDownItem group (scatterDown group cursors buffer items) item := by
  unfold scatterDown
  rw [List.foldl_append]
  rfl

/-- The regions of different groups do not overlap. -/
def Apart (groups : Set κ) (start size : κ → Nat) : Prop :=
  groups.Pairwise fun first second =>
    start first + size first ≤ start second ∨ start second + size second ≤ start first

variable {group : α → κ} {groups : Set κ} {start size cursors : κ → Nat} {items : List α}

/-- The items of a prefix fit where all of them fit. -/
private theorem prefix_fits {item : α}
    (fits : ∀ key ∈ groups, (items ++ [item]).countP (fun other => group other == key) ≤ size key) :
    ∀ key ∈ groups, items.countP (fun other => group other == key) ≤ size key := by
  intro key member
  have all := fits key member
  rw [List.countP_append] at all
  omega

/-- Each group's items stand in their order from the start of its region. -/
theorem scatter_filter (buffer : Buffer α) (apart : Apart groups start size)
    (starts : ∀ key ∈ groups, cursors key = start key)
    (inside : ∀ item ∈ items, group item ∈ groups)
    (fits : ∀ key ∈ groups, items.countP (fun item => group item == key) ≤ size key) :
    ∀ key ∈ groups,
      (scatter group cursors buffer items).1 key =
          start key + items.countP (fun item => group item == key) ∧
        slice (scatter group cursors buffer items).2 (start key)
            (items.countP fun item => group item == key) =
          items.filter fun item => group item == key := by
  induction items using List.reverseRecOn with
  | nil =>
      intro key member
      exact ⟨starts key member, rfl⟩
  | append_singleton items item ih =>
      have before := ih (fun other member => inside other (List.mem_append_left _ member))
        (prefix_fits fits)
      have member := inside item (List.mem_append_right _ (List.mem_singleton_self item))
      obtain ⟨cursor, -⟩ := before (group item) member
      have room := fits (group item) member
      rw [List.countP_append] at room
      intro key listed
      obtain ⟨now, placed⟩ := before key listed
      rw [scatter_append, List.countP_append, List.filter_append]
      unfold scatterItem
      dsimp only
      by_cases same : group item = key
      · subst same
        rw [Function.update_self, cursor]
        simp only [List.countP_singleton, beq_self_eq_true, if_true, List.filter_cons,
          List.filter_nil]
        rw [slice_push, placed]
        exact ⟨rfl, rfl⟩
      · have skipped : (group item == key) = false := beq_false_of_ne same
        have here := fits key listed
        rw [List.countP_append] at here
        simp only [List.countP_singleton, beq_self_eq_true, if_true] at room
        rw [Function.update_of_ne (Ne.symm same), cursor]
        simp only [List.countP_singleton, skipped, List.filter_cons, List.filter_nil,
          Bool.false_eq_true, if_false, Nat.add_zero, List.append_nil]
        have outside : start (group item) + items.countP (fun other => group other == group item) <
            start key ∨ start key + items.countP (fun other => group other == key) ≤
              start (group item) + items.countP (fun other => group other == group item) := by
          rcases apart member listed same with low | high
          · omega
          · omega
        rw [slice_update item outside]
        exact ⟨now, placed⟩

/-- From the cursor to the end of a group's region all items are of the group. -/
theorem scatter_down_groups (buffer : Buffer α) (apart : Apart groups start size)
    (ends : ∀ key ∈ groups, cursors key = start key + size key)
    (inside : ∀ item ∈ items, group item ∈ groups)
    (fits : ∀ key ∈ groups, items.countP (fun item => group item == key) ≤ size key) :
    ∀ key ∈ groups,
      (scatterDown group cursors buffer items).1 key +
          items.countP (fun item => group item == key) = start key + size key ∧
        ∀ position : Nat, (scatterDown group cursors buffer items).1 key ≤ position →
          position < start key + size key →
            group ((scatterDown group cursors buffer items).2 position) = key := by
  induction items using List.reverseRecOn with
  | nil =>
      intro key member
      refine ⟨ends key member, ?_⟩
      intro position low high
      exact absurd ((ends key member).symm.trans_le low) (Nat.not_le_of_lt high)
  | append_singleton items item ih =>
      have before := ih (fun other member => inside other (List.mem_append_left _ member))
        (prefix_fits fits)
      have member := inside item (List.mem_append_right _ (List.mem_singleton_self item))
      obtain ⟨cursor, -⟩ := before (group item) member
      have room := fits (group item) member
      simp only [List.countP_append, List.countP_singleton, beq_self_eq_true, if_true] at room
      intro key listed
      obtain ⟨now, placed⟩ := before key listed
      rw [scatter_down_append, List.countP_append]
      unfold scatterDownItem
      dsimp only
      by_cases same : group item = key
      · subst same
        rw [Function.update_self]
        simp only [List.countP_singleton, beq_self_eq_true, if_true]
        refine ⟨by omega, ?_⟩
        intro position low high
        by_cases here : position =
            (scatterDown group cursors buffer items).1 (group item) - 1
        · rw [here, Function.update_self]
        · rw [Function.update_of_ne (by omega)]
          exact placed position (by omega) high
      · have skipped : (group item == key) = false := beq_false_of_ne same
        have here := fits key listed
        simp only [List.countP_append, List.countP_singleton, skipped] at here
        rw [Function.update_of_ne (Ne.symm same)]
        simp only [List.countP_singleton, skipped, Bool.false_eq_true, if_false, Nat.add_zero]
        refine ⟨now, ?_⟩
        intro position low high
        rw [Function.update_of_ne]
        · exact placed position low high
        · rcases apart member listed same with low | high
          · omega
          · omega

end Placing

section Intervals

variable {Count : Type*} [AddCommMonoid Count]

/-- A loop over the values from `low` to `high` as a loop over the offsets from `low`. -/
theorem sum_interval (value : Int → Count) (low high : Int) :
    ∑ i ∈ Finset.range (high + 1 - low).toNat, value (low + i) =
      ∑ key ∈ Finset.Icc low high, value key := by
  refine Finset.sum_bij (fun i _ => low + (i : Int)) ?_ ?_ ?_ ?_
  · intro i member
    have less := Finset.mem_range.mp member
    exact Finset.mem_Icc.mpr ⟨by omega, by omega⟩
  · intro first _ second _ same
    omega
  · intro key member
    obtain ⟨above, below⟩ := Finset.mem_Icc.mp member
    exact ⟨(key - low).toNat, Finset.mem_range.mpr (by omega), by omega⟩
  · intro i _
    rfl

end Intervals

end IntegerSortLci.Foundations
