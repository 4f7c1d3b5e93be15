import IntegerSortLci.Foundations.FixedRecords
import IntegerSortLci.Runtime.SendSlots

/-!
# Batches as bytes

The same run of a thread, with its send buffers as memory: `push` copies the
bytes of a record behind `buffer_`, a batch leaves as the first
`size_in_bytes` bytes there, and the receiver takes records out of a message
with `record_count_from_message_bytes` and `load_record`. Packets come from the
pool with bytes of their last use, and the fallback storage is not initialised.
-/

namespace IntegerSortLci.Runtime

open Foundations

set_option autoImplicit false

variable {rankCount : Nat} {Worker : Type}

/-- The value of a trivially copyable record of `recordSize` bytes. -/
abbrev RecordBytes (recordSize : Nat) := Fin recordSize → Byte

/-- `load_record<Record>`. A byte past the message would read as 0. -/
def loadRecord (recordSize : Nat) (message : List Byte) (index : Nat) : RecordBytes recordSize :=
  unpackAt recordSize 0 message index

/-- The records that `receive_message_impl` takes out of a message; `none` is
its abort. -/
def decodeMessage (recordSize : Nat) (message : List Byte) :
    Option (List (RecordBytes recordSize)) :=
  (recordCountFromMessageBytes recordSize message.length).map fun recordCount =>
    (List.range recordCount).map (loadRecord recordSize message)

def decodeMessages (recordSize : Nat) :
    List (List Byte) → Option (List (RecordBytes recordSize))
  | [] => some []
  | message :: rest => do
      let records ← decodeMessage recordSize message
      let others ← decodeMessages recordSize rest
      some (records ++ others)

theorem decode_message_pack {recordSize : Nat} (size : 0 < recordSize)
    {records : List (RecordBytes recordSize)} (nonempty : records ≠ []) :
    decodeMessage recordSize (pack records) = some records := by
  have counted := record_count_from_message_bytes size (List.length_pos_iff.mpr nonempty)
  unfold messageBytes at counted
  rw [decodeMessage, pack_length, counted]
  exact congrArg some (unpack_pack 0 records)

theorem decode_messages_pack {recordSize : Nat} (size : 0 < recordSize)
    {batches : List (List (RecordBytes recordSize))} (nonempty : ∀ batch ∈ batches, batch ≠ []) :
    decodeMessages recordSize (batches.map pack) = some batches.flatten := by
  induction batches with
  | nil => rfl
  | cons batch rest ih =>
      have later := ih fun other member => nonempty other (List.mem_cons_of_mem _ member)
      have first := decode_message_pack size (nonempty batch List.mem_cons_self)
      rw [List.map_cons, decodeMessages, first, later]
      rfl

/-- What memory holds before the code writes to it: the fallback storage after
`malloc`, and the packet of each `get_upacket`. -/
structure StaleMemory where
  storage : Nat → Byte
  granted : Nat → Nat → Byte

/-- A thread's send buffers as bytes, and the messages that left for each
destination. `obtained` counts the packets so far. -/
structure WireState (rankCount : Nat) where
  packets : Nat → Nat → Byte
  storage : Nat → Byte
  data : Fin rankCount → Option BufferPtr
  recordCount : Fin rankCount → Nat
  spare : Option Nat
  obtained : Nat
  messages : Fin rankCount → List (List Byte)

namespace BufferPtr

/-- Where the memory of a buffer begins in the packet or the storage. -/
def base : BufferPtr → Nat
  | .upacket _ => 0
  | .fallback byteOffset => byteOffset

end BufferPtr

namespace WireState

def initial (stale : StaleMemory) : WireState rankCount where
  packets _ _ := 0
  storage := stale.storage
  data _ := none
  recordCount _ := 0
  spare := none
  obtained := 0
  messages _ := []

def memory (wire : WireState rankCount) : BufferPtr → Nat → Byte
  | .upacket packet => wire.packets packet
  | .fallback _ => wire.storage

/-- The `memcpy` of `push`. -/
def copy {recordSize : Nat} (wire : WireState rankCount) (pointer : BufferPtr) (place : Nat)
    (record : RecordBytes recordSize) : WireState rankCount :=
  match pointer with
  | .upacket packet =>
      { wire with
        packets := Function.update wire.packets packet
          (writeAt (wire.packets packet) place record) }
  | .fallback byteOffset =>
      { wire with storage := writeAt wire.storage (byteOffset + place) record }

/-- The first `bytes` bytes behind `data()`. -/
def payload (wire : WireState rankCount) (pointer : BufferPtr) (bytes : Nat) : List Byte :=
  List.ofFn fun place : Fin bytes => wire.memory pointer (pointer.base + place.val)

variable (config : PhaseConfig rankCount)

/-- `push`: the pointer it writes through, the copy and the new counts. -/
def push (wire : WireState rankCount) (dest : Fin rankCount)
    (record : RecordBytes config.recordSize) : WireState rankCount :=
  match (wire.data dest).or ((config.fallbackBuffer dest).or (wire.spare.map .upacket)) with
  | some pointer =>
      { wire.copy pointer (messageBytes config.recordSize (wire.recordCount dest)) record with
        data := Function.update wire.data dest (some pointer)
        recordCount := Function.update wire.recordCount dest (wire.recordCount dest + 1)
        spare := none }
  | none => wire

/-- `post_am_x` or `receive_message` on `data()` and `size_in_bytes()`. -/
def send (wire : WireState rankCount) (dest : Fin rankCount) : WireState rankCount :=
  match wire.data dest with
  | some pointer =>
      { wire with
        messages := Function.update wire.messages dest (wire.messages dest ++
          [wire.payload pointer (messageBytes config.recordSize (wire.recordCount dest))]) }
  | none => wire

/-- `SendBuffer::release`. -/
def release (wire : WireState rankCount) (dest : Fin rankCount) : WireState rankCount :=
  { wire with
    data := Function.update wire.data dest none
    recordCount := Function.update wire.recordCount dest 0 }

/-- The bytes behind one event of a thread. -/
def absorb (stale : StaleMemory) (wire : WireState rankCount) :
    Event rankCount Worker (RecordBytes config.recordSize) → WireState rankCount
  | .gotUpacket packet =>
      { wire with
        packets := Function.update wire.packets packet (stale.granted wire.obtained)
        spare := some packet
        obtained := wire.obtained + 1 }
  | .posted dest record _ _ => wire.push config dest record
  | .accepted dest _ _ => wire.send config dest
  | .loopedBack dest _ => wire.send config dest
  | .released dest _ => wire.release dest
  | _ => wire

/-- The records still in the buffer for `dest`, as bytes. -/
def buffered (wire : WireState rankCount) (dest : Fin rankCount) :
    List (RecordBytes config.recordSize) :=
  match wire.data dest with
  | some pointer =>
      (List.range (wire.recordCount dest)).map (loadRecord config.recordSize
        (wire.payload pointer (messageBytes config.recordSize (wire.recordCount dest))))
  | none => []

end WireState

/-- The bytes of a thread after a run with this log. -/
def wireOf (config : PhaseConfig rankCount) (stale : StaleMemory)
    (log : Log rankCount Worker (RecordBytes config.recordSize)) : WireState rankCount :=
  log.foldl (WireState.absorb config stale) (.initial stale)

section Batches

variable {Record : Type} {dest : Fin rankCount}

def Event.batchTo (dest : Fin rankCount) (event : Event rankCount Worker Record) :
    List (List Record) :=
  match event.handOver with
  | some (other, records) => if other = dest then [records] else []
  | none => []

/-- The batches handed over for `dest`, in the order of the log. -/
def batchesTo (dest : Fin rankCount) (log : Log rankCount Worker Record) : List (List Record) :=
  log.flatMap (Event.batchTo dest)

@[simp] theorem batches_to_concat (log : Log rankCount Worker Record)
    (event : Event rankCount Worker Record) :
    batchesTo dest (log ++ [event]) = batchesTo dest log ++ event.batchTo dest := by
  simp [batchesTo]

theorem batch_to_still {event : Event rankCount Worker Record}
    (still : event.movesMemory = false) : event.batchTo dest = [] := by
  cases event <;> first | rfl | cases still

theorem batches_flatten (log : Log rankCount Worker Record) :
    (batchesTo dest log).flatten = sentTo dest log := by
  induction log with
  | nil => rfl
  | cons event rest ih =>
      have first : (event.batchTo dest).flatten = event.sentTo dest := by
        unfold Event.batchTo Event.sentTo
        cases event.handOver with
        | none => rfl
        | some batch =>
            dsimp only
            split
            · exact List.append_nil _
            · rfl
      rw [batchesTo, List.flatMap_cons, List.flatten_append, first]
      exact congrArg (event.sentTo dest ++ ·) ih

end Batches

section Refinement

variable {config : PhaseConfig rankCount} {stale : StaleMemory}
variable {view view' : SlotView rankCount (RecordBytes config.recordSize)}
variable {wire : WireState rankCount} {dest other : Fin rankCount}
variable {log : Log rankCount Worker (RecordBytes config.recordSize)}
variable {event : Event rankCount Worker (RecordBytes config.recordSize)}
variable {slot : Slot (RecordBytes config.recordSize)} {pointer pointer' : BufferPtr}

/-- The bytes show what the slots hold, and the messages are the packed batches. -/
structure WireFits (config : PhaseConfig rankCount)
    (view : SlotView rankCount (RecordBytes config.recordSize)) (wire : WireState rankCount)
    (log : Log rankCount Worker (RecordBytes config.recordSize)) : Prop where
  data : ∀ dest, wire.data dest = (view.slots dest).map Slot.pointer
  counts : ∀ dest slot, view.slots dest = some slot →
    wire.recordCount dest = slot.records.length
  cleared : ∀ dest, view.slots dest = none → wire.recordCount dest = 0
  spare : wire.spare = view.spare
  contents : ∀ dest slot, view.slots dest = some slot → slot.stage = .filling →
    Stores (wire.memory slot.pointer) slot.pointer.base slot.records
  messages : ∀ dest, wire.messages dest = (batchesTo dest log).map pack

@[simp] theorem copy_data (place : Nat) (record : RecordBytes config.recordSize) :
    (wire.copy pointer place record).data = wire.data := by
  cases pointer <;> rfl

@[simp] theorem copy_count (place : Nat) (record : RecordBytes config.recordSize) :
    (wire.copy pointer place record).recordCount = wire.recordCount := by
  cases pointer <;> rfl

@[simp] theorem copy_messages (place : Nat) (record : RecordBytes config.recordSize) :
    (wire.copy pointer place record).messages = wire.messages := by
  cases pointer <;> rfl

theorem copy_memory (place : Nat) (record : RecordBytes config.recordSize) :
    (wire.copy pointer place record).memory pointer =
      writeAt (wire.memory pointer) (pointer.base + place) record := by
  cases pointer with
  | upacket packet =>
      simp only [WireState.copy, WireState.memory, Function.update_self, BufferPtr.base,
        Nat.zero_add]
  | fallback byteOffset => rfl

/-- A copy into one slot does not touch the records of another. -/
theorem copy_elsewhere {records : List (RecordBytes config.recordSize)} {count : Nat}
    (located : Located config dest pointer) (located' : Located config other pointer')
    (apart : pointer' ≠ pointer) (room : count < config.batchRecords)
    (bounded : records.length ≤ config.batchRecords)
    (stored : Stores (wire.memory pointer') pointer'.base records)
    (record : RecordBytes config.recordSize) :
    Stores ((wire.copy pointer (messageBytes config.recordSize count) record).memory pointer')
      pointer'.base records := by
  cases pointer with
  | upacket packet =>
      cases pointer' with
      | upacket packet' =>
          have different : packet' ≠ packet := fun same => apart (congrArg _ same)
          simpa only [WireState.copy, WireState.memory, Function.update_of_ne different]
            using stored
      | fallback byteOffset' => exact stored
  | fallback byteOffset =>
      cases pointer' with
      | upacket packet' => exact stored
      | fallback byteOffset' =>
          obtain ⟨_, rfl⟩ := located
          obtain ⟨_, rfl⟩ := located'
          have different : other.val ≠ dest.val := by
            intro same
            exact apart (by rw [same])
          have filled : records.length * config.recordSize ≤
              messageBytes config.recordSize config.batchRecords :=
            Nat.mul_le_mul_right _ bounded
          have written : (count + 1) * config.recordSize ≤
              messageBytes config.recordSize config.batchRecords := Nat.mul_le_mul_right _ room
          rw [Nat.succ_mul] at written
          apply stored.write_elsewhere
          rcases Nat.lt_or_gt_of_ne different with before | after
          · have next : (other.val + 1) * messageBytes config.recordSize config.batchRecords ≤
                dest.val * messageBytes config.recordSize config.batchRecords :=
              Nat.mul_le_mul_right _ before
            rw [Nat.succ_mul] at next
            right
            simp only [BufferPtr.base]
            omega
          · have next : (dest.val + 1) * messageBytes config.recordSize config.batchRecords ≤
                other.val * messageBytes config.recordSize config.batchRecords :=
              Nat.mul_le_mul_right _ after
            rw [Nat.succ_mul] at next
            left
            simp only [BufferPtr.base, messageBytes] at *
            omega

/-- `push` through the pointer the slot view knows, into a slot that holds
`records` so far. -/
theorem WireFits.push {record : RecordBytes config.recordSize}
    (fits : WireFits config view wire log) (kept : SlotsKept config view)
    (slot' : Slot (RecordBytes config.recordSize))
    (records : List (RecordBytes config.recordSize))
    (available : (wire.data dest).or
      ((config.fallbackBuffer dest).or (wire.spare.map .upacket)) = some slot'.pointer)
    (counted : wire.recordCount dest = records.length)
    (stored : Stores (wire.memory slot'.pointer) slot'.pointer.base records)
    (room : records.length < config.batchRecords)
    (located : Located config dest slot'.pointer)
    (apart : ∀ other slot, other ≠ dest → view.slots other = some slot →
      slot.pointer ≠ slot'.pointer)
    (written : slot'.records = records ++ [record])
    (slots : view'.slots = Function.update view.slots dest (some slot'))
    (spare : view'.spare = none) (recordCount : Nat) (buffer : BufferPtr) :
    WireFits config view' (wire.push config dest record)
      (log ++ [.posted dest record recordCount buffer]) := by
  have pushed : wire.push config dest record =
      { wire.copy slot'.pointer (messageBytes config.recordSize (wire.recordCount dest)) record with
        data := Function.update wire.data dest (some slot'.pointer)
        recordCount := Function.update wire.recordCount dest (wire.recordCount dest + 1)
        spare := none } := by
    rw [WireState.push, available]
  rw [pushed]
  refine ⟨?_, ?_, ?_, spare.symm, ?_, ?_⟩
  · intro other
    by_cases same : other = dest
    · subst same
      simp [slots]
    · simp only [slots, Function.update_of_ne same]
      exact fits.data other
  · intro other slot used
    by_cases same : other = dest
    · subst same
      rw [slots, Function.update_self] at used
      obtain rfl := Option.some.inj used
      simp [counted, written]
    · rw [slots, Function.update_of_ne same] at used
      simp only [Function.update_of_ne same]
      exact fits.counts other slot used
  · intro other free
    by_cases same : other = dest
    · subst same
      rw [slots, Function.update_self] at free
      cases free
    · rw [slots, Function.update_of_ne same] at free
      simp only [Function.update_of_ne same]
      exact fits.cleared other free
  · intro other slot used filling
    by_cases same : other = dest
    · subst same
      rw [slots, Function.update_self] at used
      obtain rfl := Option.some.inj used
      have appended := stored.append record
      rw [written]
      show Stores ((wire.copy slot'.pointer _ record).memory slot'.pointer) _ _
      rw [copy_memory, counted]
      exact appended
    · rw [slots, Function.update_of_ne same] at used
      have intact := fits.contents other slot used filling
      have untouched := copy_elsewhere located (kept.located other slot used)
        (apart other slot same used) (counted ▸ room) (kept.bounded other slot used) intact record
      exact untouched
  · intro other
    rw [batches_to_concat]
    simpa [Event.batchTo, Event.handOver] using fits.messages other

/-- A batch leaves as the packing of its records. -/
theorem WireFits.send (fits : WireFits config view wire log) (used : view.slots dest = some slot)
    (filling : slot.stage = .filling)
    (handed : event.handOver = some (dest, slot.records)) :
    WireFits config (view.set dest (some { slot with stage := .handed }))
      (wire.send config dest) (log ++ [event]) := by
  have held : wire.data dest = some slot.pointer := by
    rw [fits.data, used]
    rfl
  have counted := fits.counts dest slot used
  have payload : wire.payload slot.pointer
      (messageBytes config.recordSize (wire.recordCount dest)) = pack slot.records := by
    rw [counted]
    exact (fits.contents dest slot used filling).read
  have sent : wire.send config dest =
      { wire with
        messages := Function.update wire.messages dest
          (wire.messages dest ++ [pack slot.records]) } := by
    rw [WireState.send, held]
    simp only [payload]
  rw [sent]
  have old : ∀ {other : Fin rankCount} {found : Slot (RecordBytes config.recordSize)},
      (view.set dest (some { slot with stage := .handed })).slots other = some found →
      ∃ before, view.slots other = some before ∧ found.pointer = before.pointer ∧
        found.records = before.records ∧ (found.stage = .filling → before.stage = .filling) := by
    intro other found there
    rw [SlotView.set_slots] at there
    by_cases same : other = dest
    · subst same
      rw [Function.update_self] at there
      obtain rfl := Option.some.inj there
      exact ⟨slot, used, rfl, rfl, fun _ => filling⟩
    · rw [Function.update_of_ne same] at there
      exact ⟨found, there, rfl, rfl, id⟩
  refine ⟨?_, ?_, ?_, fits.spare, ?_, ?_⟩
  · intro other
    by_cases same : other = dest
    · subst same
      rw [fits.data, used]
      simp
    · rw [SlotView.set_slots, Function.update_of_ne same]
      exact fits.data other
  · intro other found there
    obtain ⟨before, here, _, records, _⟩ := old there
    rw [records]
    exact fits.counts other before here
  · intro other free
    apply fits.cleared other
    by_cases same : other = dest
    · subst same
      rw [SlotView.set_slots, Function.update_self] at free
      cases free
    · rwa [SlotView.set_slots, Function.update_of_ne same] at free
  · intro other found there unsent
    obtain ⟨before, here, place, records, stage⟩ := old there
    rw [place, records]
    exact fits.contents other before here (stage unsent)
  · intro other
    rw [batches_to_concat, List.map_append]
    by_cases same : other = dest
    · subst same
      simp [Event.batchTo, handed, fits.messages]
    · simp [Event.batchTo, handed, Function.update_of_ne same, Ne.symm same, fits.messages]

/-- A move that changes neither places nor records, for an event that neither
copies nor sends bytes. -/
theorem WireFits.still (fits : WireFits config view wire log)
    (slots : ∀ dest slot', view'.slots dest = some slot' →
      ∃ slot, view.slots dest = some slot ∧ slot'.pointer = slot.pointer ∧
        slot'.records = slot.records ∧ (slot'.stage = .filling → slot.stage = .filling))
    (free : ∀ dest, view'.slots dest = none → view.slots dest = none)
    (spare : view'.spare = view.spare) (silent : ∀ dest, event.batchTo dest = []) :
    WireFits config view' wire (log ++ [event]) := by
  refine ⟨?_, ?_, ?_, fits.spare.trans spare.symm, ?_, ?_⟩
  · intro dest
    rw [fits.data]
    cases now : view'.slots dest with
    | none => simp [free dest now]
    | some slot' =>
        obtain ⟨slot, before, place, _, _⟩ := slots dest slot' now
        rw [before]
        exact congrArg some place.symm
  · intro dest slot' now
    obtain ⟨slot, before, _, records, _⟩ := slots dest slot' now
    rw [records]
    exact fits.counts dest slot before
  · exact fun dest now => fits.cleared dest (free dest now)
  · intro dest slot' now filling
    obtain ⟨slot, before, place, records, stage⟩ := slots dest slot' now
    rw [place, records]
    exact fits.contents dest slot before (stage filling)
  · intro dest
    rw [batches_to_concat, silent dest, List.append_nil]
    exact fits.messages dest

theorem WireFits.release (fits : WireFits config view wire log) (dest : Fin rankCount)
    (silent : ∀ other, event.batchTo other = []) :
    WireFits config (view.set dest none) (wire.release dest) (log ++ [event]) := by
  refine ⟨?_, ?_, ?_, fits.spare, ?_, ?_⟩
  · intro other
    by_cases same : other = dest
    · subst same
      simp [WireState.release]
    · simp only [WireState.release, SlotView.set_slots, Function.update_of_ne same]
      exact fits.data other
  · intro other slot used
    have different : other ≠ dest := by
      rintro rfl
      simp at used
    simp only [WireState.release, SlotView.set_slots, Function.update_of_ne different] at used ⊢
    exact fits.counts other slot used
  · intro other free
    by_cases same : other = dest
    · subst same
      simp [WireState.release]
    · simp only [WireState.release, SlotView.set_slots, Function.update_of_ne same] at free ⊢
      exact fits.cleared other free
  · intro other slot used filling
    have different : other ≠ dest := by
      rintro rfl
      simp at used
    rw [SlotView.set_slots, Function.update_of_ne different] at used
    exact fits.contents other slot used filling
  · intro other
    rw [batches_to_concat, silent other, List.append_nil]
    exact fits.messages other

theorem slot_step_fits (moved : SlotStep config view event view') (kept : SlotsKept config view)
    (fits : WireFits config view wire log) :
    WireFits config view' (wire.absorb config stale event) (log ++ [event]) := by
  cases moved with
  | obtainPacket packet packets single fresh =>
      refine ⟨fits.data, fits.counts, fits.cleared, rfl, ?_, ?_⟩
      · intro dest slot used filling
        have stored := fits.contents dest slot used filling
        have different := fresh dest slot used
        cases place : slot.pointer with
        | upacket other =>
            rw [place] at stored different
            have apart : other ≠ packet := fun same => different (congrArg _ same)
            simpa only [WireState.absorb, WireState.memory, Function.update_of_ne apart]
              using stored
        | fallback byteOffset =>
            rw [place] at stored
            exact stored
      · intro dest
        rw [batches_to_concat]
        exact (fits.messages dest).trans (by simp [Event.batchTo, Event.handOver])
  | fillPacket dest record packet free obtained =>
      obtain ⟨packets, fresh⟩ := kept.spare packet obtained
      apply fits.push kept ⟨.upacket packet, [record], .filling⟩ []
      · have null : wire.data dest = none := by rw [fits.data, free]; rfl
        rw [null, fits.spare, obtained]
        simp [PhaseConfig.fallbackBuffer, packets]
      · exact fits.cleared dest free
      · exact stores_nil
      · exact config.batch_positive
      · exact packets
      · exact fun other slot _ used => fresh other slot used
      · rfl
      · rfl
      · rfl
  | fillStorage dest record pointer free storage =>
      have unspared : view.spare = none := by
        cases spare : view.spare with
        | none => rfl
        | some packet =>
            have packets := (kept.spare packet spare).1
            simp [PhaseConfig.fallbackBuffer, packets] at storage
      apply fits.push kept ⟨pointer, [record], .filling⟩ []
      · have null : wire.data dest = none := by rw [fits.data, free]; rfl
        rw [null, storage]
        rfl
      · exact fits.cleared dest free
      · exact stores_nil
      · exact config.batch_positive
      · exact located_fallback storage
      · intro other slot different used equal
        have located := kept.located other slot used
        rw [equal] at located
        exact different (located_apart storage located).symm
      · rfl
      · rfl
      · exact unspared
  | add dest record slot used filling single room =>
      apply fits.push kept { slot with records := slot.records ++ [record] } slot.records
      · have held : wire.data dest = some slot.pointer := by rw [fits.data, used]; rfl
        rw [held]
        rfl
      · exact fits.counts dest slot used
      · exact fits.contents dest slot used filling
      · exact room
      · exact kept.located dest slot used
      · intro other found different there equal
        exact different (kept.distinct other dest found slot there used equal)
      · rfl
      · rfl
      · exact single
  | accept dest slot used filling remote => exact fits.send used filling rfl
  | loop dest slot used filling own => exact fits.send used filling rfl
  | giveBack dest slot used handed own packets =>
      apply fits.still
      · intro other found there
        rw [SlotView.set_slots] at there
        by_cases same : other = dest
        · subst same
          rw [Function.update_self] at there
          obtain rfl := Option.some.inj there
          exact ⟨slot, used, rfl, rfl, by simp⟩
        · rw [Function.update_of_ne same] at there
          exact ⟨found, there, rfl, rfl, id⟩
      · intro other free
        by_cases same : other = dest
        · subst same
          simp at free
        · rwa [SlotView.set_slots, Function.update_of_ne same] at free
      · rfl
      · exact fun _ => rfl
  | release dest slot used settled => exact fits.release dest fun _ => rfl
  | receive source records single =>
      exact fits.still (fun dest slot used => ⟨slot, used, rfl, rfl, id⟩) (fun _ => id) rfl
        fun _ => rfl
  | releaseMessage held =>
      exact fits.still (fun dest slot used => ⟨slot, used, rfl, rfl, id⟩) (fun _ => id) rfl
        fun _ => rfl
  | other event still =>
      have same : wire.absorb config stale event = wire := by
        cases event <;> first | rfl | cases still
      rw [same]
      exact fits.still (fun dest slot used => ⟨slot, used, rfl, rfl, id⟩) (fun _ => id) rfl
        fun _ => batch_to_still still

theorem slot_run_fits (stale : StaleMemory) (run : SlotRun config log view) :
    WireFits config view (wireOf config stale log) log := by
  induction run with
  | start => exact ⟨fun _ => rfl, by simp [SlotView.initial], fun _ _ => rfl, rfl,
      by simp [SlotView.initial], fun _ => rfl⟩
  | next prior moved fits =>
      rw [wireOf, List.foldl_concat]
      exact slot_step_fits moved (slot_run_kept prior) fits

end Refinement

end IntegerSortLci.Runtime
