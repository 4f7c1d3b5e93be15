import Mathlib.Algebra.Order.Ring.Nat
import Mathlib.Tactic.SplitIfs

/-!
# Phase options, batch sizes and message sizes

`AmOptions`, `choose_batch_records` and the payload arithmetic of
`am_message.hpp`. Profile names are byte strings, as `std::string` is.
-/

namespace IntegerSortLci.Runtime

set_option autoImplicit false

abbrev Byte := UInt8

/-- Active-message aggregation settings of one phase, with the source's defaults. -/
structure AmOptions where
  useUpacket : Bool := true
  useLoopback : Bool := true
  batchRecords : Nat := 0
  profileName : List Byte := []
  deriving DecidableEq, Repr

/-- `choose_batch_records<Record>`: zero asks for the largest batch LCI can
send eagerly. `maxBcopySize` is what `lci::get_max_bcopy_size()` answers. -/
def chooseBatchRecords (maxBcopySize recordSize : Nat) (options : AmOptions) :
    Except String Nat :=
  let maxRecords := maxBcopySize / recordSize
  if maxRecords = 0 then
    .error "LCI eager AM size cannot fit one record of the requested type"
  else if options.batchRecords = 0 then
    .ok maxRecords
  else if maxRecords < options.batchRecords then
    .error "requested AM batch size exceeds the maximum for this record type"
  else
    .ok options.batchRecords

theorem chosen_batch_bounds {maxBcopySize recordSize batch : Nat} {options : AmOptions}
    (chosen : chooseBatchRecords maxBcopySize recordSize options = .ok batch) :
    0 < batch ∧ batch ≤ maxBcopySize / recordSize := by
  unfold chooseBatchRecords at chosen
  dsimp only at chosen
  split_ifs at chosen with fits default large
  · cases chosen
    exact ⟨Nat.pos_of_ne_zero fits, le_rfl⟩
  · cases chosen
    exact ⟨Nat.pos_of_ne_zero default, Nat.le_of_not_lt large⟩

/-- `message_bytes<Record>`. -/
def messageBytes (recordSize batchRecords : Nat) : Nat := batchRecords * recordSize

/-- `record_count_from_message_bytes<Record>`; `none` is the branch that prints
and calls `std::abort`. -/
def recordCountFromMessageBytes (recordSize bytes : Nat) : Option Nat :=
  if bytes = 0 ∨ bytes % recordSize ≠ 0 then none else some (bytes / recordSize)

/-- The receiver recovers every nonempty batch size the sender can produce. -/
theorem record_count_from_message_bytes {recordSize count : Nat}
    (size : 0 < recordSize) (nonempty : 0 < count) :
    recordCountFromMessageBytes recordSize (messageBytes recordSize count) = some count := by
  have bytes : count * recordSize ≠ 0 := (Nat.mul_pos nonempty size).ne'
  unfold recordCountFromMessageBytes messageBytes
  rw [if_neg (by simp [bytes]), Nat.mul_div_cancel count size]

theorem record_count_exact {recordSize count found : Nat} (size : 0 < recordSize)
    (counted :
      recordCountFromMessageBytes recordSize (messageBytes recordSize count) = some found) :
    found = count := by
  unfold recordCountFromMessageBytes messageBytes at counted
  split_ifs at counted
  rw [← Option.some.inj counted, Nat.mul_div_cancel count size]

end IntegerSortLci.Runtime
