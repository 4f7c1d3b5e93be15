import IntegerSortLci.Runtime.QuietRuns

/-!
# The life of a send buffer's memory

What a thread's log may say about the memory behind its send buffers. A slot is
free, is filled record by record, is handed to LCI or to the loopback receiver,
may go back to the packet pool, and is free again. `SlotStep` lists the moves
with the events that report them, and `slots_traced` shows that every quiet run
of a thread is a run of slots. What holds of all runs of slots then holds of
the code, by induction on the log alone.
-/

namespace IntegerSortLci.Runtime

open Foundations

set_option autoImplicit false

variable {rankCount : Nat} {Worker Record : Type}

inductive SlotStage where
  | filling
  | handed
  | returned
  deriving DecidableEq, Repr

/-- A send buffer with memory behind it. -/
structure Slot (Record : Type) where
  pointer : BufferPtr
  records : List Record
  stage : SlotStage

/-- `spare` is the packet that `get_upacket` answered and no buffer holds yet;
`receiving` says that a received message is not yet released. -/
structure SlotView (rankCount : Nat) (Record : Type) where
  slots : Fin rankCount → Option (Slot Record)
  spare : Option Nat
  receiving : Bool

namespace SlotView

def set (view : SlotView rankCount Record) (dest : Fin rankCount) (slot : Option (Slot Record)) :
    SlotView rankCount Record :=
  { view with slots := Function.update view.slots dest slot }

@[simp] theorem set_slots (view : SlotView rankCount Record) (dest : Fin rankCount)
    (slot : Option (Slot Record)) :
    (view.set dest slot).slots = Function.update view.slots dest slot := rfl

@[simp] theorem set_spare (view : SlotView rankCount Record) (dest : Fin rankCount)
    (slot : Option (Slot Record)) : (view.set dest slot).spare = view.spare := rfl

@[simp] theorem set_receiving (view : SlotView rankCount Record) (dest : Fin rankCount)
    (slot : Option (Slot Record)) : (view.set dest slot).receiving = view.receiving := rfl

def initial : SlotView rankCount Record where
  slots _ := none
  spare := none
  receiving := false

end SlotView

/-- The events that report a move of memory. -/
def Event.movesMemory : Event rankCount Worker Record → Bool
  | .posted _ _ _ _ => true
  | .gotUpacket _ => true
  | .accepted _ _ _ => true
  | .loopedBack _ _ => true
  | .putUpacket _ => true
  | .released _ _ => true
  | .delivered _ _ => true
  | .messageReleased _ => true
  | _ => false

inductive SlotStep (config : PhaseConfig rankCount) :
    SlotView rankCount Record → Event rankCount Worker Record → SlotView rankCount Record → Prop
    where
  | obtainPacket {view : SlotView rankCount Record} (packet : Nat)
      (packets : config.options.useUpacket = true) (single : view.spare = none)
      (fresh : ∀ dest slot, view.slots dest = some slot → slot.pointer ≠ .upacket packet) :
      SlotStep config view (.gotUpacket packet) { view with spare := some packet }
  | fillPacket {view : SlotView rankCount Record} (dest : Fin rankCount) (record : Record)
      (packet : Nat) (free : view.slots dest = none) (obtained : view.spare = some packet) :
      SlotStep config view (.posted dest record 0 (.upacket packet))
        { view.set dest (some ⟨.upacket packet, [record], .filling⟩) with spare := none }
  | fillStorage {view : SlotView rankCount Record} (dest : Fin rankCount) (record : Record)
      (pointer : BufferPtr) (free : view.slots dest = none)
      (storage : config.fallbackBuffer dest = some pointer) :
      SlotStep config view (.posted dest record 0 pointer)
        (view.set dest (some ⟨pointer, [record], .filling⟩))
  | add {view : SlotView rankCount Record} (dest : Fin rankCount) (record : Record)
      (slot : Slot Record) (used : view.slots dest = some slot) (filling : slot.stage = .filling)
      (single : view.spare = none) (room : slot.records.length < config.batchRecords) :
      SlotStep config view (.posted dest record slot.records.length slot.pointer)
        (view.set dest (some { slot with records := slot.records ++ [record] }))
  | accept {view : SlotView rankCount Record} (dest : Fin rankCount) (slot : Slot Record)
      (used : view.slots dest = some slot) (filling : slot.stage = .filling)
      (remote : config.loopsBack dest = false) :
      SlotStep config view (.accepted dest slot.records (some slot.pointer))
        (view.set dest (some { slot with stage := .handed }))
  | loop {view : SlotView rankCount Record} (dest : Fin rankCount) (slot : Slot Record)
      (used : view.slots dest = some slot) (filling : slot.stage = .filling)
      (own : config.loopsBack dest = true) :
      SlotStep config view (.loopedBack dest slot.records)
        (view.set dest (some { slot with stage := .handed }))
  | giveBack {view : SlotView rankCount Record} (dest : Fin rankCount) (slot : Slot Record)
      (used : view.slots dest = some slot) (handed : slot.stage = .handed)
      (own : config.loopsBack dest = true) (packets : config.options.useUpacket = true) :
      SlotStep config view (.putUpacket (some slot.pointer))
        (view.set dest (some { slot with stage := .returned }))
  | release {view : SlotView rankCount Record} (dest : Fin rankCount) (slot : Slot Record)
      (used : view.slots dest = some slot)
      (settled : slot.stage = .returned ∨ slot.stage = .handed ∧
        (config.loopsBack dest = true → config.options.useUpacket = false)) :
      SlotStep config view (.released dest slot.records) (view.set dest none)
  | receive {view : SlotView rankCount Record} (source : Fin rankCount) (records : List Record)
      (single : view.receiving = false) :
      SlotStep config view (.delivered source records) { view with receiving := true }
  | releaseMessage {view : SlotView rankCount Record} (held : view.receiving = true) :
      SlotStep config view (.messageReleased config.options.useUpacket)
        { view with receiving := false }
  | other {view : SlotView rankCount Record} (event : Event rankCount Worker Record)
      (still : event.movesMemory = false) : SlotStep config view event view

inductive SlotRun (config : PhaseConfig rankCount) :
    Log rankCount Worker Record → SlotView rankCount Record → Prop where
  | start : SlotRun config [] .initial
  | next {log : Log rankCount Worker Record} {event : Event rankCount Worker Record}
      {view view' : SlotView rankCount Record} (prior : SlotRun config log view)
      (moved : SlotStep config view event view') : SlotRun config (log ++ [event]) view'

section Views

variable {config : PhaseConfig rankCount} {self : Option Worker}
variable {buffers : Buffers rankCount Record} {stack below : Stack rankCount Worker Record}
variable {frame : Frame rankCount Worker Record} {dest : Fin rankCount}
variable {log : Log rankCount Worker Record} {event : Event rankCount Worker Record}

def Frame.isIncoming : Frame rankCount Worker Record → Bool
  | .incoming => true
  | _ => false

/-- The slot behind one send buffer, as the call stack uses it. -/
def slotOf (buffers : Buffers rankCount Record) (stack : Stack rankCount Worker Record)
    (dest : Fin rankCount) : Option (Slot Record) :=
  (buffers dest).buffer.map fun pointer =>
    { pointer := pointer
      records := (buffers dest).records
      stage := if (handedOverBy dest stack).isSome then .handed else .filling }

def viewOf (buffers : Buffers rankCount Record) (stack : Stack rankCount Worker Record) :
    SlotView rankCount Record where
  slots := slotOf buffers stack
  spare := none
  receiving := stack.any Frame.isIncoming

/-- The log of a thread explains what its buffers and its stack hold. -/
def Traced (config : PhaseConfig rankCount) (buffers : Buffers rankCount Record)
    (stack : Stack rankCount Worker Record) (log : Log rankCount Worker Record) : Prop :=
  SlotRun config log (viewOf buffers stack)

theorem view_restack {stack' : Stack rankCount Worker Record}
    (handed : ∀ dest, handedOverBy dest stack' = handedOverBy dest stack)
    (receiving : stack'.any Frame.isIncoming = stack.any Frame.isIncoming) :
    viewOf buffers stack' = viewOf buffers stack := by
  have slots : slotOf buffers stack' = slotOf buffers stack := by
    funext dest
    rw [slotOf, slotOf, handed]
  rw [viewOf, viewOf, slots, receiving]

theorem view_push (neutral : frame.handedOver = none) (quiet : frame.isIncoming = false) :
    viewOf buffers (frame :: stack) = viewOf buffers stack := by
  apply view_restack
  · exact fun _ => handed_over_by_neutral neutral
  · rw [List.any_cons, quiet, Bool.false_or]

theorem view_set_buffer (sendBuffer : SendBuffer Record)
    (free : handedOverBy dest stack = none) :
    viewOf (Function.update buffers dest sendBuffer) stack =
      (viewOf buffers stack).set dest (sendBuffer.buffer.map fun pointer =>
        { pointer := pointer, records := sendBuffer.records, stage := .filling }) := by
  have slots : slotOf (Function.update buffers dest sendBuffer) stack =
      Function.update (slotOf buffers stack) dest (sendBuffer.buffer.map fun pointer =>
        { pointer := pointer, records := sendBuffer.records, stage := .filling }) := by
    funext other
    by_cases same : other = dest
    · subst same
      simp [slotOf, free]
    · simp [slotOf, Function.update_of_ne same]
  rw [viewOf, slots]
  rfl

theorem view_hand_over {pointer : BufferPtr} {sent : List Record}
    (handed : frame.handedOver = some (dest, sent)) (quiet : frame.isIncoming = false)
    (allocated : (buffers dest).buffer = some pointer) :
    viewOf buffers (frame :: stack) =
      (viewOf buffers stack).set dest (some
        { pointer := pointer, records := (buffers dest).records, stage := .handed }) := by
  have slots : slotOf buffers (frame :: stack) =
      Function.update (slotOf buffers stack) dest (some
        { pointer := pointer, records := (buffers dest).records, stage := .handed }) := by
    funext other
    by_cases same : other = dest
    · subst same
      simp [slotOf, handed_over_by_owner handed, allocated]
    · rw [Function.update_of_ne same, slotOf, slotOf,
        handed_over_by_other (target_of_handed_over handed) same]
  rw [viewOf, slots, List.any_cons, quiet, Bool.false_or]
  rfl

theorem slot_of_allocated {pointer : BufferPtr} (allocated : (buffers dest).buffer = some pointer)
    (free : handedOverBy dest stack = none) :
    (viewOf buffers stack).slots dest = some
      { pointer := pointer, records := (buffers dest).records, stage := .filling } := by
  simp [viewOf, slotOf, allocated, free]

theorem slot_of_buffer {pointer : BufferPtr} (allocated : (buffers dest).buffer = some pointer)
    (stack : Stack rankCount Worker Record) :
    ∃ slot, (viewOf buffers stack).slots dest = some slot ∧ slot.pointer = pointer ∧
      slot.records = (buffers dest).records :=
  ⟨⟨pointer, (buffers dest).records,
      if (handedOverBy dest stack).isSome then .handed else .filling⟩,
    by simp [viewOf, slotOf, allocated], rfl, rfl⟩

theorem slot_of_null (null : (buffers dest).buffer = none) :
    (viewOf buffers stack).slots dest = none := by
  simp [viewOf, slotOf, null]

theorem Traced.still (traced : Traced config buffers stack log)
    (still : event.movesMemory = false) : Traced config buffers stack (log ++ [event]) :=
  SlotRun.next traced (.other event still)

theorem Traced.push (traced : Traced config buffers stack log)
    (neutral : frame.handedOver = none) (quiet : frame.isIncoming = false) :
    Traced config buffers (frame :: stack) log := by
  rw [Traced, view_push neutral quiet]
  exact traced

theorem Traced.pop (traced : Traced config buffers (frame :: below) log)
    (neutral : frame.handedOver = none) (quiet : frame.isIncoming = false) :
    Traced config buffers below log := by
  rw [Traced, view_push neutral quiet] at traced
  exact traced

/-- `flush_dest` of a buffer that nobody has handed over. -/
theorem Traced.hand_over (traced : Traced config buffers stack log) {pointer : BufferPtr}
    (allocated : (buffers dest).buffer = some pointer)
    (handed : frame.handedOver = some (dest, (buffers dest).records))
    (quiet : frame.isIncoming = false)
    (moved : SlotStep config (viewOf buffers stack) event
      ((viewOf buffers stack).set dest (some
        { pointer := pointer, records := (buffers dest).records, stage := .handed }))) :
    Traced config buffers (frame :: stack) (log ++ [event]) := by
  rw [Traced, view_hand_over handed quiet allocated]
  exact SlotRun.next traced moved

/-- A received message opens, where no other is open. -/
theorem Traced.receive (traced : Traced config buffers stack log) (source : Fin rankCount)
    (records : List Record) (single : stack.any Frame.isIncoming = false) :
    Traced config buffers (.incoming :: stack) (log ++ [.delivered source records]) := by
  have view : viewOf buffers (.incoming :: stack) =
      { viewOf buffers stack with receiving := true } := by
    have slots : slotOf buffers (.incoming :: stack) = slotOf buffers stack := by
      funext other
      rw [slotOf, slotOf, handed_over_by_neutral rfl]
    rw [viewOf, slots]
    rfl
  rw [Traced, view]
  exact SlotRun.next traced (.receive source records single)

theorem Traced.release_message (traced : Traced config buffers (.incoming :: below) log)
    (single : below.any Frame.isIncoming = false) :
    Traced config buffers below (log ++ [.messageReleased config.options.useUpacket]) := by
  have view : viewOf buffers below =
      { viewOf buffers (.incoming :: below) with receiving := false } := by
    have slots : slotOf buffers (.incoming :: below) = slotOf buffers below := by
      funext other
      rw [slotOf, slotOf, handed_over_by_neutral rfl]
    rw [viewOf, viewOf, slots, single]
  rw [Traced, view]
  exact SlotRun.next traced (.releaseMessage rfl)

/-- The view from the state where the frame of a finished send is on top. -/
private theorem release_views {sent : List Record} {pointer : BufferPtr}
    (traced : Traced config buffers (frame :: below) log)
    (layered : Layered config buffers (frame :: below))
    (handed : frame.handedOver = some (dest, sent)) (quiet : frame.isIncoming = false)
    (allocated : (buffers dest).buffer = some pointer) :
    SlotRun config log ((viewOf buffers below).set dest (some
        { pointer := pointer, records := sent, stage := .handed })) ∧
      viewOf (Function.update buffers dest (buffers dest).release) below =
        (viewOf buffers below).set dest none := by
  have same : (buffers dest).records = sent := layered.held dest sent (handed_over_by_owner handed)
  have free : handedOverBy dest below = none :=
    layered.free_below (.inl (target_of_handed_over handed))
  constructor
  · rw [Traced, view_hand_over handed quiet allocated, same] at traced
    exact traced
  · rw [view_set_buffer _ free]
    rfl

theorem Traced.release {sent : List Record} {pointer : BufferPtr}
    (traced : Traced config buffers (frame :: below) log)
    (layered : Layered config buffers (frame :: below))
    (handed : frame.handedOver = some (dest, sent)) (quiet : frame.isIncoming = false)
    (allocated : (buffers dest).buffer = some pointer)
    (settled : config.loopsBack dest = true → config.options.useUpacket = false) :
    Traced config (Function.update buffers dest (buffers dest).release) below
      (log ++ [.released dest sent]) := by
  obtain ⟨before, after⟩ := release_views traced layered handed quiet allocated
  rw [Traced, after]
  have moved := SlotRun.next before
    (.release dest { pointer := pointer, records := sent, stage := .handed }
      (by simp) (.inr ⟨rfl, settled⟩))
  simpa [SlotView.set] using moved

/-- The end of the loopback path in packet mode. -/
theorem Traced.give_back {sent : List Record} {pointer : BufferPtr}
    (traced : Traced config buffers (frame :: below) log)
    (layered : Layered config buffers (frame :: below))
    (handed : frame.handedOver = some (dest, sent)) (quiet : frame.isIncoming = false)
    (allocated : (buffers dest).buffer = some pointer)
    (own : config.loopsBack dest = true) (packets : config.options.useUpacket = true) :
    Traced config (Function.update buffers dest (buffers dest).release) below
      (log ++ [.putUpacket (buffers dest).buffer] ++ [.released dest sent]) := by
  obtain ⟨before, after⟩ := release_views traced layered handed quiet allocated
  rw [Traced, after, allocated]
  have returned := SlotRun.next before
    (.giveBack dest { pointer := pointer, records := sent, stage := .handed }
      (by simp) rfl own packets)
  have moved := SlotRun.next returned
    (.release dest { pointer := pointer, records := sent, stage := .returned }
      (by simp) (.inl rfl))
  simpa [SlotView.set] using moved

end Views

section Slots

variable {config : PhaseConfig rankCount} {view view' : SlotView rankCount Record}
variable {event : Event rankCount Worker Record} {log : Log rankCount Worker Record}
variable {dest : Fin rankCount} {slot : Slot Record}

/-- Where the memory of the slot for `dest` lies. -/
def Located (config : PhaseConfig rankCount) (dest : Fin rankCount) : BufferPtr → Prop
  | .upacket _ => config.options.useUpacket = true
  | .fallback byteOffset =>
      config.options.useUpacket = false ∧
        byteOffset = dest.val * messageBytes config.recordSize config.batchRecords

/-- What holds of all slots together: each has records, room for a batch and
memory of the phase's kind, and no memory has two uses. -/
structure SlotsKept (config : PhaseConfig rankCount) (view : SlotView rankCount Record) : Prop where
  nonempty : ∀ dest slot, view.slots dest = some slot → slot.records ≠ []
  bounded : ∀ dest slot, view.slots dest = some slot → slot.records.length ≤ config.batchRecords
  located : ∀ dest slot, view.slots dest = some slot → Located config dest slot.pointer
  spare : ∀ packet, view.spare = some packet → config.options.useUpacket = true ∧
    ∀ dest slot, view.slots dest = some slot → slot.pointer ≠ .upacket packet
  distinct : ∀ dest other slot slot', view.slots dest = some slot → view.slots other = some slot' →
    slot.pointer = slot'.pointer → dest = other

theorem located_fallback {pointer : BufferPtr}
    (storage : config.fallbackBuffer dest = some pointer) : Located config dest pointer := by
  unfold PhaseConfig.fallbackBuffer at storage
  split at storage
  · cases storage
  · rename_i fallback
    cases storage
    exact ⟨Bool.eq_false_iff.mpr fallback, rfl⟩

/-- Two destinations never have the same place in the fallback storage. -/
theorem located_apart {other : Fin rankCount} {pointer : BufferPtr}
    (storage : config.fallbackBuffer dest = some pointer) (located : Located config other pointer) :
    dest = other := by
  have here := located_fallback storage
  cases pointer with
  | upacket packet =>
      unfold PhaseConfig.fallbackBuffer at storage
      split at storage <;> cases storage
  | fallback byteOffset =>
      have bytes : 0 < messageBytes config.recordSize config.batchRecords :=
        Nat.mul_pos config.batch_positive config.record_size_positive
      have equal := here.2.symm.trans located.2
      exact Fin.ext (Nat.eq_of_mul_eq_mul_right bytes equal)

theorem SlotsKept.clear (kept : SlotsKept config view) (dest : Fin rankCount) :
    SlotsKept config (view.set dest none) := by
  have old : ∀ other slot, (view.set dest none).slots other = some slot →
      view.slots other = some slot := by
    intro other slot used
    rw [SlotView.set_slots] at used
    by_cases same : other = dest
    · rw [same, Function.update_self] at used
      cases used
    · rwa [Function.update_of_ne same] at used
  refine ⟨?_, ?_, ?_, ?_, ?_⟩
  · exact fun other slot used => kept.nonempty other slot (old other slot used)
  · exact fun other slot used => kept.bounded other slot (old other slot used)
  · exact fun other slot used => kept.located other slot (old other slot used)
  · intro packet spare
    obtain ⟨packets, fresh⟩ := kept.spare packet spare
    exact ⟨packets, fun other slot used => fresh other slot (old other slot used)⟩
  · intro first second slot slot' used used' equal
    exact kept.distinct first second slot slot' (old first slot used) (old second slot' used') equal

/-- One slot changes: the others keep apart from it. -/
theorem SlotsKept.set (kept : SlotsKept config view) (nonempty : slot.records ≠ [])
    (bounded : slot.records.length ≤ config.batchRecords)
    (located : Located config dest slot.pointer)
    (spare : ∀ packet, view.spare = some packet → slot.pointer ≠ .upacket packet)
    (apart : ∀ other slot', other ≠ dest → view.slots other = some slot' →
      slot'.pointer ≠ slot.pointer) :
    SlotsKept config (view.set dest (some slot)) := by
  have cases : ∀ other slot', (view.set dest (some slot)).slots other = some slot' →
      other = dest ∧ slot' = slot ∨ other ≠ dest ∧ view.slots other = some slot' := by
    intro other slot' used
    rw [SlotView.set_slots] at used
    by_cases same : other = dest
    · rw [same, Function.update_self] at used
      exact .inl ⟨same, (Option.some.inj used).symm⟩
    · rw [Function.update_of_ne same] at used
      exact .inr ⟨same, used⟩
  refine ⟨?_, ?_, ?_, ?_, ?_⟩
  · intro other slot' used
    rcases cases other slot' used with ⟨rfl, rfl⟩ | ⟨_, old⟩
    · exact nonempty
    · exact kept.nonempty other slot' old
  · intro other slot' used
    rcases cases other slot' used with ⟨rfl, rfl⟩ | ⟨_, old⟩
    · exact bounded
    · exact kept.bounded other slot' old
  · intro other slot' used
    rcases cases other slot' used with ⟨rfl, rfl⟩ | ⟨_, old⟩
    · exact located
    · exact kept.located other slot' old
  · intro packet held
    refine ⟨(kept.spare packet held).1, ?_⟩
    intro other slot' used
    rcases cases other slot' used with ⟨rfl, rfl⟩ | ⟨_, old⟩
    · exact spare packet held
    · exact (kept.spare packet held).2 other slot' old
  · intro first second slot₁ slot₂ used₁ used₂ equal
    rcases cases first slot₁ used₁ with ⟨rfl, rfl⟩ | ⟨different₁, old₁⟩
    · rcases cases second slot₂ used₂ with ⟨rfl, rfl⟩ | ⟨different₂, old₂⟩
      · rfl
      · exact absurd equal.symm (apart second slot₂ different₂ old₂)
    · rcases cases second slot₂ used₂ with ⟨rfl, rfl⟩ | ⟨different₂, old₂⟩
      · exact absurd equal (apart first slot₁ different₁ old₁)
      · exact kept.distinct first second slot₁ slot₂ old₁ old₂ equal

/-- A slot goes on at its place. -/
theorem SlotsKept.replace {slot' : Slot Record} (kept : SlotsKept config view)
    (used : view.slots dest = some slot) (same : slot'.pointer = slot.pointer)
    (nonempty : slot'.records ≠ []) (bounded : slot'.records.length ≤ config.batchRecords) :
    SlotsKept config (view.set dest (some slot')) := by
  apply kept.set nonempty bounded
  · rw [same]
    exact kept.located dest slot used
  · intro packet held
    rw [same]
    exact (kept.spare packet held).2 dest slot used
  · intro other old different there equal
    rw [same] at equal
    exact different (kept.distinct other dest old slot there used equal)

theorem slot_step_kept (moved : SlotStep config view event view') (kept : SlotsKept config view) :
    SlotsKept config view' := by
  cases moved with
  | obtainPacket packet packets single fresh =>
      refine ⟨kept.nonempty, kept.bounded, kept.located, ?_, kept.distinct⟩
      intro held same
      obtain rfl := Option.some.inj same
      exact ⟨packets, fresh⟩
  | fillPacket dest record packet free obtained =>
      obtain ⟨packets, fresh⟩ := kept.spare packet obtained
      have unspared : SlotsKept config { view with spare := none } :=
        ⟨kept.nonempty, kept.bounded, kept.located, by simp, kept.distinct⟩
      apply unspared.set
      · simp
      · exact config.batch_positive
      · exact packets
      · simp
      · exact fun other slot' _ used => fresh other slot' used
  | fillStorage dest record pointer free storage =>
      apply kept.set
      · simp
      · exact config.batch_positive
      · exact located_fallback storage
      · intro packet held
        have packets := (kept.spare packet held).1
        simp [PhaseConfig.fallbackBuffer, packets] at storage
      · intro other slot' different used equal
        have located := kept.located other slot' used
        rw [equal] at located
        exact different (located_apart storage located).symm
  | add dest record slot used filling single room =>
      apply kept.replace used
      · rfl
      · simp
      · rw [List.length_append]
        exact room
  | accept dest slot used filling remote =>
      exact kept.replace used rfl (kept.nonempty dest slot used) (kept.bounded dest slot used)
  | loop dest slot used filling own =>
      exact kept.replace used rfl (kept.nonempty dest slot used) (kept.bounded dest slot used)
  | giveBack dest slot used handed own packets =>
      exact kept.replace used rfl (kept.nonempty dest slot used) (kept.bounded dest slot used)
  | release dest slot used settled => exact kept.clear dest
  | receive source records single =>
      exact ⟨kept.nonempty, kept.bounded, kept.located, kept.spare, kept.distinct⟩
  | releaseMessage held =>
      exact ⟨kept.nonempty, kept.bounded, kept.located, kept.spare, kept.distinct⟩
  | other event still => exact kept

theorem slot_run_kept (run : SlotRun config log view) : SlotsKept config view := by
  induction run with
  | start => exact ⟨by simp [SlotView.initial], by simp [SlotView.initial],
      by simp [SlotView.initial], by simp [SlotView.initial], by simp [SlotView.initial]⟩
  | next prior moved kept => exact slot_step_kept moved kept

end Slots

section Calls

variable {config : PhaseConfig rankCount} {self : Option Worker}
variable {thread thread' : ThreadState rankCount Worker Record}
variable {dest : Fin rankCount} {action : Action rankCount Record}

/-- The trace of a whole thread state. -/
def ThreadState.Traced (config : PhaseConfig rankCount)
    (thread : ThreadState rankCount Worker Record) : Prop :=
  Runtime.Traced config thread.sendBuffers thread.stack thread.log

theorem allocated_of_records {buffers : Buffers rankCount Record}
    (unallocated : ∀ other, (buffers other).buffer = none → (buffers other).records = [])
    (nonempty : (buffers dest).records ≠ []) : ∃ pointer, (buffers dest).buffer = some pointer := by
  cases allocated : (buffers dest).buffer with
  | none => exact absurd (unallocated dest allocated) nonempty
  | some pointer => exact ⟨pointer, rfl⟩

theorem flush_dest_traced (traced : thread.Traced config)
    (unallocated : ∀ other, (thread.sendBuffers other).buffer = none →
      (thread.sendBuffers other).records = [])
    (free : handedOverBy dest thread.stack = none) :
    (thread.flushDest config self dest).Traced config := by
  rcases flush_dest_cases config self thread dest with ⟨empty, made⟩ | ⟨filled, loops, made⟩ |
    ⟨filled, loops, made⟩
  · rw [made]
    exact traced
  · rw [made]
    obtain ⟨pointer, allocated⟩ := allocated_of_records unallocated filled
    apply Runtime.Traced.push
    · apply Runtime.Traced.hand_over traced allocated rfl rfl
      have used := slot_of_allocated allocated free
      exact .loop dest _ used rfl loops
    · rfl
    · rfl
  · rw [made]
    exact Runtime.Traced.push traced rfl rfl

theorem after_push_traced {previous : Option Worker} (traced : thread.Traced config)
    (unallocated : ∀ other, (thread.sendBuffers other).buffer = none →
      (thread.sendBuffers other).records = [])
    (free : handedOverBy dest thread.stack = none) :
    (thread.afterPush config self dest previous).Traced config := by
  rcases after_push_cases config self thread dest previous with ⟨full, made⟩ | ⟨full, made⟩
  · rw [made]
    exact flush_dest_traced (Runtime.Traced.push traced rfl rfl) unallocated free
  · rw [made]
    exact Runtime.Traced.still traced rfl

/-- `push` in a buffer that nobody has handed over: at its place, or at the
place in the fallback storage that it takes. -/
theorem write_traced (traced : thread.Traced config) {pointer : BufferPtr} (record : Record)
    (free : handedOverBy dest thread.stack = none)
    (room : (thread.sendBuffers dest).size < config.batchRecords)
    (unallocated : (thread.sendBuffers dest).buffer = none →
      (thread.sendBuffers dest).records = [])
    (available : (thread.sendBuffers dest).buffer.or (config.fallbackBuffer dest) =
      some pointer) :
    (thread.write dest pointer record).Traced config := by
  rw [ThreadState.Traced, Runtime.Traced, ThreadState.write_buffers, ThreadState.write_stack,
    ThreadState.write_log, view_set_buffer _ free]
  apply SlotRun.next traced
  cases held : (thread.sendBuffers dest).buffer with
  | none =>
      rw [held, Option.none_or] at available
      have empty := unallocated held
      simpa [SendBuffer.size, empty] using
        SlotStep.fillStorage dest record pointer (slot_of_null held) available
  | some place =>
      rw [held, Option.some_or] at available
      obtain rfl := Option.some.inj available
      have used := slot_of_allocated held free
      exact .add dest record _ used rfl rfl room

/-- A push waits for a packet only in packet mode. -/
def WaitsForPackets (config : PhaseConfig rankCount) (stack : Stack rankCount Worker Record) :
    Prop :=
  ∀ dest record previous, .push dest record previous ∈ stack → config.options.useUpacket = true

theorem WaitsForPackets.push {frame : Frame rankCount Worker Record}
    {stack : Stack rankCount Worker Record} (waits : WaitsForPackets config stack)
    (different : ∀ dest record previous, frame ≠ .push dest record previous) :
    WaitsForPackets config (frame :: stack) := by
  intro dest record previous member
  rcases List.mem_cons.mp member with same | inside
  · exact absurd same.symm (different dest record previous)
  · exact waits dest record previous inside

theorem WaitsForPackets.pop {frame : Frame rankCount Worker Record}
    {stack : Stack rankCount Worker Record} (waits : WaitsForPackets config (frame :: stack)) :
    WaitsForPackets config stack :=
  fun dest record previous member => waits dest record previous (List.mem_cons_of_mem _ member)

theorem flush_dest_waits (waits : WaitsForPackets config thread.stack) :
    WaitsForPackets config (thread.flushDest config self dest).stack := by
  rcases flush_dest_cases config self thread dest with ⟨empty, made⟩ | ⟨filled, loops, made⟩ |
    ⟨filled, loops, made⟩
  · rw [made]
    exact waits
  · rw [made]
    exact (waits.push (by simp)).push (by simp)
  · rw [made]
    exact waits.push (by simp)

theorem after_push_waits {previous : Option Worker}
    (waits : WaitsForPackets config thread.stack) :
    WaitsForPackets config (thread.afterPush config self dest previous).stack := by
  rcases after_push_cases config self thread dest previous with ⟨full, made⟩ | ⟨full, made⟩
  · rw [made]
    exact flush_dest_waits (waits.push (by simp))
  · rw [made]
    exact waits

theorem post_am_waits {target : Int} {record : Record}
    (waits : WaitsForPackets config thread.stack) :
    WaitsForPackets config (thread.postAm config self target record).stack := by
  rcases post_am_cases config self thread target record with ⟨rank, checked, made⟩ | ⟨outside, made⟩
  · rw [made]
    rcases post_record_cases config self thread rank record with
      ⟨pointer, available, made⟩ | ⟨unavailable, made⟩
    · rw [made]
      exact after_push_waits waits
    · rw [made]
      have packets : config.options.useUpacket = true := by
        by_contra fallback
        simp [PhaseConfig.fallbackBuffer, fallback] at unavailable
      exact fun _ _ _ _ => packets
  · rw [made]
    exact waits

theorem step_waits (step : ThreadStep config self thread action thread')
    (waits : WaitsForPackets config thread.stack) : WaitsForPackets config thread'.stack := by
  have below := waits
  cases step with
  | postAm dest record worker owner idle => exact post_am_waits waits
  | handlerPost dest record current worker owner source loopback captured recordCount pending
      rest top => exact post_am_waits waits
  | flush worker owner idle =>
      rw [idle] at below
      exact below.push (by simp)
  | progress worker owner idle =>
      rw [idle] at below
      exact (below.push (by simp)).push (by simp)
  | collectiveProgress control idle =>
      rw [idle] at below
      exact below.push (by simp)
  | upacketNull dest record previous rest top =>
      rw [top] at below
      exact below.push (by simp)
  | upacket dest record previous rest packet stale top =>
      rw [top] at below
      exact after_push_waits below.pop
  | retry dest recordCount previous rest top =>
      rw [top] at below
      exact (below.pop.push (by simp)).push (by simp)
  | accept dest recordCount previous rest top =>
      rw [top] at below
      exact (below.pop.push (by simp)).push (by simp)
  | deliver source records rest top =>
      unfold ThreadState.handleIncomingAm
      split
      · exact (waits.push (by simp)).push (by simp)
      · exact waits.push (by simp)
  | progressEnd rest top =>
      rw [top] at below
      exact below.pop
  | handlerReturn source loopback captured recordCount pending record rest top =>
      rw [top] at below
      exact below.pop.push (by simp)
  | postReturn elapsed previous rest top =>
      rw [top] at below
      exact below.pop
  | flushNext elapsed i rest top more =>
      rw [top] at below
      exact flush_dest_waits (below.pop.push (by simp))
  | flushEnd elapsed i rest top finished =>
      rw [top] at below
      exact below.pop
  | sendAgain elapsed dest recordCount previous rest top =>
      rw [top] at below
      exact below.pop.push (by simp)
  | sendRelease elapsed dest sent recordCount previous rest top =>
      rw [top] at below
      exact below.pop
  | loopbackRelease elapsed dest sent recordCount previous rest top =>
      rw [top] at below
      exact below.pop
  | progressReturn elapsed previous rest top =>
      rw [top] at below
      exact below.pop
  | invoke elapsed source loopback captured recordCount record pending rest top =>
      rw [top] at below
      exact below.pop.push (by simp)
  | receiveEnd elapsed source loopback captured recordCount rest top =>
      rw [top] at below
      exact below.pop
  | incomingEnd elapsed rest top =>
      rw [top] at below
      exact below.pop

/-- The packet in the buffer for `dest`, until LCI has accepted its batch. -/
def heldPacket (config : PhaseConfig rankCount) (thread : ThreadState rankCount Worker Record)
    (dest : Fin rankCount) : Option Nat :=
  match (thread.sendBuffers dest).buffer with
  | some (.upacket packet) =>
      if (handedOverBy dest thread.stack).isSome ∧ config.loopsBack dest = false then none
      else some packet
  | _ => none

/-- No handler calls back, and `get_upacket` never answers with a packet that
the thread still holds. -/
def QuietGrant (config : PhaseConfig rankCount) (thread : ThreadState rankCount Worker Record) :
    Action rankCount Record → Prop
  | .handlerPost _ _ => False
  | .getUpacket (some (packet, _)) => ∀ dest, heldPacket config thread dest ≠ some packet
  | _ => True

theorem QuietGrant.quiet (granted : QuietGrant config thread action) : QuietAction action := by
  cases action <;> trivial

theorem adopt_packet_traced {record : Record} {previous : Option Worker} {packet : Nat}
    {stale : Nat → Record} (traced : thread.Traced config)
    (unallocated : ∀ other, (thread.sendBuffers other).buffer = none →
      (thread.sendBuffers other).records = [])
    (free : ∀ other, handedOverBy other thread.stack = none)
    (packets : config.options.useUpacket = true)
    (null : (thread.sendBuffers dest).buffer = none)
    (fresh : ∀ other, (thread.sendBuffers other).buffer ≠ some (.upacket packet)) :
    (thread.adoptPacket config self dest record previous packet stale).Traced config := by
  have empty := unallocated dest null
  unfold ThreadState.adoptPacket
  dsimp only
  apply after_push_traced
  · have obtained : SlotRun config (thread.log ++ [.gotUpacket packet])
        { viewOf thread.sendBuffers thread.stack with spare := some packet } := by
      apply SlotRun.next traced
      apply SlotStep.obtainPacket packet packets rfl
      intro other slot used same
      obtain ⟨pointer, held, rfl⟩ := Option.map_eq_some_iff.mp used
      exact fresh other (held.trans (congrArg some same))
    have used : (viewOf thread.sendBuffers thread.stack).slots dest = none := slot_of_null null
    have filled := SlotRun.next obtained (.fillPacket dest record packet used rfl)
    rw [ThreadState.Traced, Runtime.Traced]
    simp only [ThreadState.write_buffers, ThreadState.write_stack, ThreadState.write_log,
      ThreadState.emit_buffers, ThreadState.emit_stack, ThreadState.emit_log,
      ThreadState.set_buffer_buffers, ThreadState.set_buffer_stack, ThreadState.set_buffer_log,
      Function.update_self, Function.update_idem]
    rw [view_set_buffer _ (free dest)]
    simpa [SlotView.set, SendBuffer.adopt, SendBuffer.size, empty, viewOf] using filled
  · intro other missing
    by_cases same : other = dest
    · subst same
      simp at missing
    · simp only [ThreadState.write_buffers, ThreadState.emit_buffers,
        ThreadState.set_buffer_buffers, Function.update_of_ne same] at missing ⊢
      exact unallocated other missing
  · exact free dest

theorem post_am_traced {target : Int} {record : Record} (traced : thread.Traced config)
    (unallocated : ∀ other, (thread.sendBuffers other).buffer = none →
      (thread.sendBuffers other).records = [])
    (idle : thread.stack = [])
    (room : ∀ other, (thread.sendBuffers other).size < config.batchRecords) :
    (thread.postAm config self target record).Traced config := by
  have free : ∀ other, handedOverBy other thread.stack = none := by
    intro other
    rw [idle]
    rfl
  rcases post_am_cases config self thread target record with ⟨rank, checked, made⟩ | ⟨outside, made⟩
  · rw [made]
    rcases post_record_cases config self thread rank record with
      ⟨pointer, available, made⟩ | ⟨unavailable, made⟩
    · rw [made]
      apply after_push_traced
      · exact write_traced traced record (free rank) (room rank) (unallocated rank) available
      · intro other missing
        by_cases same : other = rank
        · subst same
          simp at missing
        · simp only [ThreadState.write_buffers, ThreadState.open_scope_buffers,
            Function.update_of_ne same] at missing ⊢
          exact unallocated other missing
      · exact free rank
    · rw [made]
      exact Runtime.Traced.push traced rfl rfl
  · rw [made]
    exact Runtime.Traced.still traced rfl

theorem finish_flush_traced {log : Log rankCount Worker Record}
    {stack : Stack rankCount Worker Record} {sent : List Record} {previous : Option Worker}
    {recordCount elapsed : Nat}
    (released : Traced config
      (Function.update thread.sendBuffers dest (thread.sendBuffers dest).release) stack
      (log ++ [.released dest sent])) :
    ((({ thread with log := log } : ThreadState rankCount Worker Record).withStack
      stack).finishFlush config self dest sent recordCount previous elapsed).Traced config := by
  have flushed : Traced config
      (Function.update thread.sendBuffers dest (thread.sendBuffers dest).release) stack
      (log ++ [.released dest sent] ++
        [.flushed dest self recordCount (recordCount * config.recordSize) elapsed]) :=
    released.still rfl
  rw [List.append_assoc] at flushed
  exact flushed

/-- Under a progress or an open message no other message is open. -/
theorem QuietStack.no_incoming {buffers : Buffers rankCount Record}
    {top : Frame rankCount Worker Record} {below : Stack rankCount Worker Record}
    (quiet : QuietStack config buffers (top :: below)) (low : top.level ≤ 3) :
    below.any Frame.isIncoming = false := by
  apply List.any_eq_false.mpr
  intro frame member incoming
  have lower := (List.pairwise_cons.mp quiet.ordered).1 frame member
  cases frame with
  | incoming =>
      have above : 3 < top.level := lower
      omega
  | push | postReturn | flushWorker | send | loopback | progress | progressWorker | receive |
      aborted => cases incoming

/-- In a quiet run a push that waits for its packet is the whole stack, so no
buffer is handed over and the packet is in none of them. -/
theorem push_alone {record : Record} {previous : Option Worker}
    {below : Stack rankCount Worker Record} {packet : Nat} {stale : Nat → Record}
    (quiet : QuietStack config thread.sendBuffers thread.stack)
    (top : thread.stack = .push dest record previous :: below)
    (granted : QuietGrant config thread (.getUpacket (some (packet, stale)))) :
    below = [] ∧ ∀ other, (thread.sendBuffers other).buffer ≠ some (.upacket packet) := by
  rw [top] at quiet
  obtain rfl := quiet.bottom rfl
  refine ⟨rfl, ?_⟩
  intro other held
  apply granted other
  simp [heldPacket, held, top, handedOverBy, Frame.handedOver]

theorem step_traced (step : ThreadStep config self thread action thread')
    (granted : QuietGrant config thread action)
    (quiet : QuietStack config thread.sendBuffers thread.stack)
    (disciplined : Disciplined config thread.sendBuffers thread.stack)
    (waits : WaitsForPackets config thread.stack)
    (traced : thread.Traced config) : thread'.Traced config := by
  have opened := traced
  unfold ThreadState.Traced at opened
  have resting := quiet
  have sending : ∀ {dest : Fin rankCount}, (thread.sendBuffers dest).records ≠ [] →
      ∃ pointer, (thread.sendBuffers dest).buffer = some pointer :=
    fun nonempty => allocated_of_records quiet.unallocated nonempty
  cases step with
  | postAm dest record worker owner idle =>
      apply post_am_traced traced quiet.unallocated idle
      exact fun other => (idle_may_post disciplined idle other).2
  | handlerPost => exact granted.elim
  | flush worker owner idle =>
      rw [idle] at opened
      exact opened.push rfl rfl
  | progress worker owner idle =>
      rw [idle] at opened
      have entered : Traced config thread.sendBuffers
          [.progressWorker thread.profileWorker] thread.log := opened.push rfl rfl
      exact entered.push rfl rfl
  | collectiveProgress control idle =>
      rw [idle] at opened
      exact opened.push rfl rfl
  | upacketNull dest record previous below top =>
      rw [top] at opened
      exact opened.push rfl rfl
  | upacket dest record previous below packet stale top =>
      obtain ⟨rfl, fresh⟩ := push_alone quiet top granted
      have null : (thread.sendBuffers dest).buffer = none := by
        cases held : (thread.sendBuffers dest).buffer with
        | none => rfl
        | some pointer =>
            have kept := slot_run_kept traced
            have used := slot_of_allocated held
              (show handedOverBy dest thread.stack = none by rw [top]; rfl)
            refine absurd ?_ (kept.nonempty dest _ used)
            rw [top] at resting
            exact resting.fits _ List.mem_cons_self
      have packets : config.options.useUpacket = true := by
        apply waits dest record previous
        rw [top]
        exact List.mem_cons_self
      rw [top] at opened
      have popped : (thread.withStack []).Traced config := opened.pop rfl rfl
      exact adopt_packet_traced popped quiet.unallocated (fun _ => rfl) packets null fresh
  | retry dest recordCount previous below top =>
      rw [top] at opened
      have waiting : Traced config thread.sendBuffers
          (.send dest .retry recordCount previous :: below) thread.log :=
        (opened.pop rfl rfl).push rfl rfl
      have progressing : Traced config thread.sendBuffers
          (.progress :: .send dest .retry recordCount previous :: below) thread.log :=
        waiting.push rfl rfl
      exact progressing.still rfl
  | accept dest recordCount previous below top =>
      rw [top] at opened disciplined resting
      obtain ⟨_, nonempty, remote⟩ := resting.fits _ List.mem_cons_self
      obtain ⟨pointer, allocated⟩ := sending nonempty
      have free : handedOverBy dest below = none := disciplined.toLayered.free_below (.inl rfl)
      have popped : Traced config thread.sendBuffers below thread.log := opened.pop rfl rfl
      have accepted : Traced config thread.sendBuffers
          (.send dest (.accepted (thread.sendBuffers dest).records) recordCount previous :: below)
          (thread.log ++
            [.accepted dest (thread.sendBuffers dest).records
              (thread.sendBuffers dest).buffer]) := by
        apply popped.hand_over allocated rfl rfl
        have used := slot_of_allocated allocated free
        rw [allocated]
        exact .accept dest _ used rfl remote
      exact accepted.push rfl rfl
  | deliver source records below top =>
      rw [top] at opened resting
      have single : below.any Frame.isIncoming = false :=
        resting.no_incoming (by simp [Frame.level])
      unfold ThreadState.handleIncomingAm
      rw [top]
      split
      · have entered : Traced config thread.sendBuffers (.incoming :: .progress :: below)
            (thread.log ++ [.delivered source records]) := opened.receive source records single
        exact entered.push rfl rfl
      · have stopped : Traced config thread.sendBuffers (.aborted :: .progress :: below)
            thread.log := opened.push rfl rfl
        exact stopped.still rfl
  | progressEnd below top =>
      rw [top] at opened
      exact opened.pop rfl rfl
  | handlerReturn source loopback captured recordCount pending record below top =>
      rw [top] at opened
      have returned : Traced config thread.sendBuffers
          (.receive source loopback captured recordCount pending none :: below) thread.log :=
        (opened.pop rfl rfl).push rfl rfl
      exact returned.still rfl
  | postReturn elapsed previous below top =>
      rw [top] at opened
      have popped : Traced config thread.sendBuffers below thread.log := opened.pop rfl rfl
      exact popped.still rfl
  | flushNext elapsed i below top more =>
      rw [top] at opened disciplined
      have free : handedOverBy (config.flushTarget i) below = none :=
        disciplined.toLayered.free_below (.inr ⟨i, rfl⟩)
      have advanced : (thread.withStack (.flushWorker (i + 1) :: below)).Traced config :=
        (opened.pop rfl rfl).push rfl rfl
      exact flush_dest_traced advanced quiet.unallocated free
  | flushEnd elapsed i below top finished =>
      rw [top] at opened
      have popped : Traced config thread.sendBuffers below thread.log := opened.pop rfl rfl
      exact popped.still rfl
  | sendAgain elapsed dest recordCount previous below top =>
      rw [top] at opened
      exact (opened.pop rfl rfl).push rfl rfl
  | sendRelease elapsed dest sent recordCount previous below top =>
      rw [top] at opened disciplined resting
      obtain ⟨_, nonempty, remote⟩ := resting.fits _ List.mem_cons_self
      obtain ⟨pointer, allocated⟩ := sending nonempty
      have released : Traced config
          (Function.update thread.sendBuffers dest (thread.sendBuffers dest).release) below
          (thread.log ++ [.released dest sent]) := by
        apply opened.release disciplined.toLayered rfl rfl allocated
        intro own
        rw [remote] at own
        cases own
      exact finish_flush_traced released
  | loopbackRelease elapsed dest sent recordCount previous below top =>
      rw [top] at opened disciplined resting
      obtain ⟨_, nonempty, own⟩ := resting.fits _ List.mem_cons_self
      have same : (thread.sendBuffers dest).records = sent :=
        disciplined.held dest sent (handed_over_by_owner rfl)
      obtain ⟨pointer, allocated⟩ := sending (same ▸ nonempty)
      by_cases packets : config.options.useUpacket = true
      · have released := opened.give_back disciplined.toLayered rfl rfl allocated own packets
        unfold ThreadState.returnPacket
        rw [if_pos packets]
        exact finish_flush_traced released
      · have released := opened.release disciplined.toLayered rfl rfl allocated
          fun _ => Bool.eq_false_iff.mpr packets
        unfold ThreadState.returnPacket
        rw [if_neg packets]
        exact finish_flush_traced released
  | progressReturn elapsed previous below top =>
      rw [top] at opened
      have popped : Traced config thread.sendBuffers below thread.log := opened.pop rfl rfl
      exact popped.still rfl
  | invoke elapsed source loopback captured recordCount record pending below top =>
      rw [top] at opened
      have invoked : Traced config thread.sendBuffers
          (.receive source loopback captured recordCount pending (some record) :: below)
          thread.log := (opened.pop rfl rfl).push rfl rfl
      exact invoked.still rfl
  | receiveEnd elapsed source loopback captured recordCount below top =>
      rw [top] at opened
      have popped : Traced config thread.sendBuffers below thread.log := opened.pop rfl rfl
      exact popped.still rfl
  | incomingEnd elapsed below top =>
      rw [top] at opened resting
      have single : below.any Frame.isIncoming = false :=
        resting.no_incoming (by simp [Frame.level])
      exact opened.release_message single

theorem reachable_of_granted
    (reached : (threadSystem config self).Reachable (QuietGrant config) (.initial config) thread) :
    (threadSystem config self).Reachable (fun _ => QuietAction) (.initial config) thread :=
  reached.mono fun _ _ granted => granted.quiet

/-- Every state of a quiet run: its log is a run of the slots it holds. -/
theorem slots_traced
    (reached : (threadSystem config self).Reachable (QuietGrant config) (.initial config) thread) :
    thread.Traced config ∧ WaitsForPackets config thread.stack := by
  apply reached.invariant
  · refine ⟨?_, by simp [WaitsForPackets, ThreadState.initial]⟩
    have start : (SlotView.initial : SlotView rankCount Record) =
        viewOf (ThreadState.initial config : ThreadState rankCount Worker Record).sendBuffers
          (ThreadState.initial config : ThreadState rankCount Worker Record).stack := rfl
    rw [ThreadState.Traced, Runtime.Traced, ← start]
    exact .start
  · intro before after action prior good granted stepped
    have step := thread_step_cases stepped
    have silent := reachable_of_granted prior
    have quiet := reachable_quiet silent
    have disciplined := reachable_disciplined (reachable_safe silent)
    exact ⟨step_traced step granted quiet.stack disciplined good.2 good.1,
      step_waits step good.2⟩

end Calls

end IntegerSortLci.Runtime
