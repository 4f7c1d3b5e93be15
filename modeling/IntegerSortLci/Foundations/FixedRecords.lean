import Mathlib.Data.List.GetD
import Mathlib.Data.List.OfFn

/-!
# Records of one width in memory

A record of width `width` is a function from its offsets to cells. `pack` lays
records out one behind the other, `unpackAt` reads one of them back, `writeAt`
writes one into a memory, and `Stores` says that a memory holds a list of
records from an address on.
-/

namespace IntegerSortLci.Foundations

set_option autoImplicit false

variable {Cell : Type*} {width : Nat}

def pack (records : List (Fin width → Cell)) : List Cell := (records.map List.ofFn).flatten

def unpackAt (width : Nat) (blank : Cell) (cells : List Cell) (index : Nat) : Fin width → Cell :=
  fun offset => cells.getD (index * width + offset.val) blank

theorem pack_cons (record : Fin width → Cell) (records : List (Fin width → Cell)) :
    pack (record :: records) = List.ofFn record ++ pack records := rfl

theorem pack_length (records : List (Fin width → Cell)) :
    (pack records).length = records.length * width := by
  induction records with
  | nil => simp [pack]
  | cons record rest ih =>
      rw [pack_cons, List.length_append, List.length_ofFn, ih, List.length_cons, Nat.succ_mul,
        Nat.add_comm]

theorem unpack_first (blank : Cell) (record : Fin width → Cell) (cells : List Cell) :
    unpackAt width blank (List.ofFn record ++ cells) 0 = record := by
  funext offset
  rw [unpackAt, Nat.zero_mul, Nat.zero_add,
    List.getD_append _ _ _ _ (by rw [List.length_ofFn]; exact offset.isLt),
    List.getD_eq_getElem _ _ (by rw [List.length_ofFn]; exact offset.isLt)]
  exact List.getElem_ofFn _

theorem unpack_rest (blank : Cell) (record : Fin width → Cell) (cells : List Cell)
    (index : Nat) :
    unpackAt width blank (List.ofFn record ++ cells) (index + 1) =
      unpackAt width blank cells index := by
  funext offset
  have place : (index + 1) * width + offset.val = width + (index * width + offset.val) := by
    rw [Nat.succ_mul]
    omega
  rw [unpackAt, unpackAt, place, List.getD_append_right _ _ _ _ (by simp), List.length_ofFn,
    Nat.add_sub_cancel_left]

/-- Reading every record of a packed list gives the list back. -/
theorem unpack_pack (blank : Cell) (records : List (Fin width → Cell)) :
    (List.range records.length).map (unpackAt width blank (pack records)) = records := by
  induction records with
  | nil => rfl
  | cons record rest ih =>
      have later : unpackAt width blank (pack (record :: rest)) ∘ Nat.succ =
          unpackAt width blank (pack rest) := by
        funext index
        exact unpack_rest blank record (pack rest) index
      rw [List.length_cons, List.range_succ_eq_map, List.map_cons, List.map_map, later, ih]
      congr 1
      exact unpack_first blank record (pack rest)

section Memory

variable {memory : Nat → Cell} {base : Nat} {records : List (Fin width → Cell)}

def writeAt (memory : Nat → Cell) (base : Nat) (record : Fin width → Cell) : Nat → Cell :=
  fun address =>
    if inside : base ≤ address ∧ address - base < width then record ⟨address - base, inside.2⟩
    else memory address

def Stores (memory : Nat → Cell) (base : Nat) (records : List (Fin width → Cell)) : Prop :=
  ∀ index record, records[index]? = some record → ∀ offset : Fin width,
    memory (base + (index * width + offset.val)) = record offset

theorem write_at_inside (record : Fin width → Cell) (offset : Fin width) :
    writeAt memory base record (base + offset.val) = record offset := by
  have inside : base ≤ base + offset.val ∧ base + offset.val - base < width := by
    have bound := offset.isLt
    omega
  rw [writeAt, dif_pos inside]
  congr 1
  exact Fin.ext (Nat.add_sub_cancel_left base offset.val)

theorem write_at_outside (record : Fin width → Cell) {address : Nat}
    (outside : address < base ∨ base + width ≤ address) :
    writeAt memory base record address = memory address := by
  rw [writeAt, dif_neg (by omega)]

theorem stores_nil : Stores memory base ([] : List (Fin width → Cell)) := by
  intro index record found
  simp at found

/-- The cell of a stored record lies inside the stored range. -/
theorem stored_range {index : Nat} (bound : index < records.length) (offset : Fin width) :
    index * width + offset.val < records.length * width := by
  have next : (index + 1) * width ≤ records.length * width := Nat.mul_le_mul_right width bound
  have inside := offset.isLt
  rw [Nat.succ_mul] at next
  omega

/-- Writing the next record appends it. -/
theorem Stores.append (stored : Stores memory base records) (record : Fin width → Cell) :
    Stores (writeAt memory (base + records.length * width) record) base (records ++ [record]) := by
  intro index found there offset
  by_cases bound : index < records.length
  · rw [List.getElem?_append_left bound] at there
    have before := stored_range bound offset
    rw [write_at_outside record (.inl (by omega))]
    exact stored index found there offset
  · have last : index = records.length := by
      have inside := (List.getElem?_eq_some_iff.mp there).1
      simp only [List.length_append, List.length_singleton] at inside
      omega
    subst last
    rw [List.getElem?_concat_length] at there
    obtain rfl := Option.some.inj there
    rw [← Nat.add_assoc]
    exact write_at_inside record offset

/-- A write elsewhere leaves the records alone. -/
theorem Stores.write_elsewhere (stored : Stores memory base records) {place : Nat}
    (record : Fin width → Cell)
    (apart : place + width ≤ base ∨ base + records.length * width ≤ place) :
    Stores (writeAt memory place record) base records := by
  intro index found there offset
  have inside := stored_range (List.getElem?_eq_some_iff.mp there).1 offset
  rw [write_at_outside record (by omega)]
  exact stored index found there offset

/-- The cells of the stored records, read one by one, are their packing. -/
theorem Stores.read (stored : Stores memory base records) :
    List.ofFn (fun place : Fin (records.length * width) => memory (base + place.val)) =
      pack records := by
  rw [List.ofFn_mul, pack]
  congr 1
  apply List.ext_getElem
  · simp
  · intro index _ bound
    rw [List.length_map] at bound
    simp only [List.getElem_ofFn, List.getElem_map]
    congr 1
    funext offset
    exact stored index _ (List.getElem?_eq_getElem bound) offset

end Memory
end IntegerSortLci.Foundations
