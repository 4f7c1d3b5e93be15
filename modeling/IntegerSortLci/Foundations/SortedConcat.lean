import Mathlib.Data.List.Basic
import Mathlib.Order.Basic

/-!
# Sorted lists one after the other

Sorted lists, some of them empty, put one after the other. The whole is sorted when each
list that is not empty begins no lower than the nearest one before it ends.
-/

namespace IntegerSortLci.Foundations

set_option autoImplicit false

variable {α : Type*} [Preorder α]

/-- Between two lists that are not empty, with only empty ones between them, the order is
kept. -/
def NeighboursOrdered (lists : Nat → List α) (count : Nat) : Prop :=
  ∀ before after, before < after → after < count →
    (∀ between, before < between → between < after → lists between = []) →
      ∀ last ∈ (lists before).getLast?, ∀ first ∈ (lists after).head?, last ≤ first

theorem le_last {list : List α} (sorted : list.Pairwise (· ≤ ·)) {last item : α}
    (ends : last ∈ list.getLast?) (member : item ∈ list) : item ≤ last := by
  obtain ⟨front, rfl⟩ := List.getLast?_eq_some_iff.mp ends
  rcases List.mem_append.mp member with earlier | final
  · exact (List.pairwise_append.mp sorted).2.2 item earlier last (List.mem_singleton_self last)
  · exact le_of_eq (List.mem_singleton.mp final)

theorem head_le {list : List α} (sorted : list.Pairwise (· ≤ ·)) {first item : α}
    (starts : first ∈ list.head?) (member : item ∈ list) : first ≤ item := by
  obtain ⟨tail, rfl⟩ := List.head?_eq_some_iff.mp starts
  rcases List.mem_cons.mp member with same | later
  · exact le_of_eq same.symm
  · exact List.rel_of_pairwise_cons sorted later

variable {lists : Nat → List α} {count : Nat}

/-- By induction on the distance: either only empty lists stand between, or an item of one
of them is in between. -/
theorem ordered_across (sorted : ∀ index < count, (lists index).Pairwise (· ≤ ·))
    (ordered : NeighboursOrdered lists count) (distance before after : Nat)
    (apart : after - before = distance) (less : before < after) (inside : after < count)
    {low high : α} (lower : low ∈ lists before) (higher : high ∈ lists after) : low ≤ high := by
  induction distance using Nat.strongRecOn generalizing before after low high with
  | ind distance ih =>
      by_cases empty : ∀ between, before < between → between < after → lists between = []
      · obtain ⟨last, ends⟩ := Option.isSome_iff_exists.mp
          (List.getLast?_isSome.mpr (List.ne_nil_of_mem lower))
        obtain ⟨first, starts⟩ := Option.isSome_iff_exists.mp
          (List.isSome_head?.mpr (List.ne_nil_of_mem higher))
        calc low ≤ last := le_last (sorted before (Nat.lt_trans less inside)) ends lower
          _ ≤ first := ordered before after less inside empty last ends first starts
          _ ≤ high := head_le (sorted after inside) starts higher
      · simp only [not_forall] at empty
        obtain ⟨between, above, below, some⟩ := empty
        obtain ⟨middle, member⟩ := List.exists_mem_of_ne_nil _ some
        have left := ih (between - before) (by omega) before between rfl above
          (Nat.lt_trans below inside) lower member
        have right := ih (after - between) (by omega) between after rfl below inside member higher
        exact left.trans right

theorem concat_sorted_iff (sorted : ∀ index < count, (lists index).Pairwise (· ≤ ·)) :
    ((List.range count).flatMap lists).Pairwise (· ≤ ·) ↔ NeighboursOrdered lists count := by
  rw [List.pairwise_flatMap]
  constructor
  · rintro ⟨-, across⟩ before after less inside - last ends first starts
    have order := List.pairwise_iff_getElem.mp across before after
      (by simpa using Nat.lt_trans less inside) (by simpa using inside) less
    simp only [List.getElem_range] at order
    exact order last (List.mem_of_getLast? ends) first (List.mem_of_head? starts)
  · intro ordered
    refine ⟨fun index member => sorted index (List.mem_range.mp member), ?_⟩
    have ascending : (List.range count).Pairwise fun before after => before < after :=
      List.pairwise_lt_range
    apply ascending.imp_of_mem
    intro before after _ member less low lower high higher
    exact ordered_across sorted ordered _ before after rfl less (List.mem_range.mp member) lower
      higher

end IntegerSortLci.Foundations
