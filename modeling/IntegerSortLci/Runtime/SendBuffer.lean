import IntegerSortLci.Runtime.Messages

/-!
# Aggregation buffers

One `SendBuffer` of `am_send_buffer.hpp`. `records` is the content of the first
`record_count_` slots behind `buffer_`, so `record_count_` is its length. A
worker owns one such buffer for each destination rank; in fallback mode they
share the worker's `fallback_storage`, addressed by byte offset.
-/

namespace IntegerSortLci.Runtime

set_option autoImplicit false

/-- What `buffer_` may point to: an LCI packet, or a place in the worker's own
fallback storage. -/
inductive BufferPtr where
  | upacket (packet : Nat)
  | fallback (byteOffset : Nat)
  deriving DecidableEq, Repr

structure SendBuffer (Record : Type) where
  capacityRecords : Nat
  buffer : Option BufferPtr := none
  records : List Record := []
  deriving DecidableEq, Repr

namespace SendBuffer

variable {Record : Type}

def release (sendBuffer : SendBuffer Record) : SendBuffer Record :=
  { sendBuffer with buffer := none, records := [] }

def size (sendBuffer : SendBuffer Record) : Nat := sendBuffer.records.length

def empty (sendBuffer : SendBuffer Record) : Bool := sendBuffer.size == 0

def capacity (sendBuffer : SendBuffer Record) : Nat := sendBuffer.capacityRecords

def sizeInBytes (recordSize : Nat) (sendBuffer : SendBuffer Record) : Nat :=
  messageBytes recordSize sendBuffer.size

/-- The `memcpy` of `push` into slot `record_count_` of the buffer at `pointer`. -/
def append (sendBuffer : SendBuffer Record) (pointer : BufferPtr) (record : Record) :
    SendBuffer Record :=
  { sendBuffer with buffer := some pointer, records := sendBuffer.records ++ [record] }

/-- `push` after `allocate_upacket_blocking` answered: `buffer_` is replaced by
the packet, so the slots counted so far (none, unless a handler pushed here
while the packet was awaited) now show the packet's stale bytes. -/
def adopt (sendBuffer : SendBuffer Record) (packet : Nat) (stale : Nat → Record) :
    SendBuffer Record :=
  { sendBuffer with
    buffer := some (.upacket packet)
    records := (List.range sendBuffer.size).map stale }

@[simp] theorem release_records (sendBuffer : SendBuffer Record) :
    sendBuffer.release.records = [] := rfl

@[simp] theorem release_buffer (sendBuffer : SendBuffer Record) :
    sendBuffer.release.buffer = none := rfl

@[simp] theorem release_capacity (sendBuffer : SendBuffer Record) :
    sendBuffer.release.capacityRecords = sendBuffer.capacityRecords := rfl

@[simp] theorem append_records (sendBuffer : SendBuffer Record) (pointer : BufferPtr)
    (record : Record) :
    (sendBuffer.append pointer record).records = sendBuffer.records ++ [record] := rfl

@[simp] theorem append_buffer (sendBuffer : SendBuffer Record) (pointer : BufferPtr)
    (record : Record) : (sendBuffer.append pointer record).buffer = some pointer := rfl

@[simp] theorem append_capacity (sendBuffer : SendBuffer Record) (pointer : BufferPtr)
    (record : Record) :
    (sendBuffer.append pointer record).capacityRecords = sendBuffer.capacityRecords := rfl

@[simp] theorem adopt_capacity (sendBuffer : SendBuffer Record) (packet : Nat)
    (stale : Nat → Record) :
    (sendBuffer.adopt packet stale).capacityRecords = sendBuffer.capacityRecords := rfl

@[simp] theorem adopt_records_of_empty (sendBuffer : SendBuffer Record) (packet : Nat)
    (stale : Nat → Record) (empty : sendBuffer.records = []) :
    (sendBuffer.adopt packet stale).records = [] := by
  simp [adopt, size, empty]

theorem empty_iff (sendBuffer : SendBuffer Record) :
    sendBuffer.empty = true ↔ sendBuffer.records = [] := by
  simp [empty, size]

end SendBuffer
end IntegerSortLci.Runtime
