import IntegerSortLci.Runtime.SendSlots
import IntegerSortLci.Runtime.Lifecycle
import Mathlib.Algebra.Order.BigOperators.Group.Finset

/-!
# Who owns a packet

Each packet that `get_upacket` answers with is the worker's until an accepted
`post_am_x` or `put_upacket` takes it, and each received message is the
thread's until it is released. The log of a thread balances: what was obtained
is what was handed over and what is still held.
-/

namespace IntegerSortLci.Runtime

open Foundations
open scoped BigOperators

set_option autoImplicit false

variable {rankCount : Nat} {Worker Record : Type}

/-- One packet as a count. -/
def packetCount (packet : Nat) : Option BufferPtr → Nat
  | some (.upacket other) => if other = packet then 1 else 0
  | _ => 0

@[simp] theorem packet_count_none (packet : Nat) : packetCount packet none = 0 := rfl

namespace Event

def obtains (packet : Nat) : Event rankCount Worker Record → Nat
  | .gotUpacket other => packetCount packet (some (.upacket other))
  | _ => 0

/-- An accepted `post_am_x` and `put_upacket` take the packet of their buffer. -/
def handsOver (packet : Nat) : Event rankCount Worker Record → Nat
  | .accepted _ _ buffer => packetCount packet buffer
  | .putUpacket buffer => packetCount packet buffer
  | _ => 0

end Event

def obtained (packet : Nat) (log : Log rankCount Worker Record) : Nat :=
  tally (Event.obtains packet) log

def handedOver (packet : Nat) (log : Log rankCount Worker Record) : Nat :=
  tally (Event.handsOver packet) log

/-- One event's effect on whether a received message is still to be released.
`none` is a second message before the release, a second release, or a release
by the function of the other mode. -/
def trackMessage (usesUpacket : Bool) (state : Option Bool)
    (event : Event rankCount Worker Record) :
    Option Bool :=
  match event with
  | .delivered _ _ => if state = some false then some true else none
  | .messageReleased mode => if state = some true ∧ mode = usesUpacket then some false else none
  | _ => state

def messageTurn (usesUpacket : Bool) (log : Log rankCount Worker Record) : Option Bool :=
  log.foldl (trackMessage usesUpacket) (some false)

section Slots

variable {config : PhaseConfig rankCount} {packet : Nat} {dest : Fin rankCount}
variable {view view' : SlotView rankCount Record} {slot : Slot Record}
variable {event : Event rankCount Worker Record} {log : Log rankCount Worker Record}

/-- The buffer of a slot, while it is the thread's: until LCI or the pool has it. -/
def Slot.owned (config : PhaseConfig rankCount) (dest : Fin rankCount) (slot : Slot Record) :
    Option BufferPtr :=
  match slot.stage with
  | .filling => some slot.pointer
  | .handed => if config.loopsBack dest then some slot.pointer else none
  | .returned => none

def SlotView.owned (config : PhaseConfig rankCount) (view : SlotView rankCount Record)
    (dest : Fin rankCount) : Option BufferPtr := (view.slots dest).bind (Slot.owned config dest)

/-- How often the thread holds a packet. -/
def SlotView.holding (config : PhaseConfig rankCount) (view : SlotView rankCount Record)
    (packet : Nat) : Nat :=
  (∑ dest, packetCount packet (view.owned config dest)) +
    packetCount packet (view.spare.map .upacket)

theorem holding_set (view : SlotView rankCount Record) (dest : Fin rankCount)
    (next : Option (Slot Record)) :
    (view.set dest next).holding config packet + packetCount packet (view.owned config dest) =
      view.holding config packet + packetCount packet (next.bind (Slot.owned config dest)) := by
  have others : ∑ other ∈ Finset.univ.erase dest,
      packetCount packet ((view.set dest next).owned config other) =
        ∑ other ∈ Finset.univ.erase dest, packetCount packet (view.owned config other) := by
    apply Finset.sum_congr rfl
    intro other member
    rw [SlotView.owned, SlotView.set_slots, Function.update_of_ne (Finset.ne_of_mem_erase member)]
    rfl
  have here : (view.set dest next).owned config dest = next.bind (Slot.owned config dest) := by
    rw [SlotView.owned, SlotView.set_slots, Function.update_self]
  unfold SlotView.holding
  rw [← Finset.add_sum_erase Finset.univ _ (Finset.mem_univ dest), others, here,
    ← Finset.add_sum_erase Finset.univ (fun other => packetCount packet (view.owned config other))
      (Finset.mem_univ dest), SlotView.set_spare]
  omega

/-- A slot that changes hands moves its own count only. -/
theorem holding_move (config : PhaseConfig rankCount) (packet : Nat)
    (used : view.slots dest = some slot) (next : Option (Slot Record)) :
    (view.set dest next).holding config packet + packetCount packet (slot.owned config dest) =
      view.holding config packet + packetCount packet (next.bind (Slot.owned config dest)) := by
  have moved : (view.set dest next).holding config packet +
      packetCount packet (view.owned config dest) =
        view.holding config packet + packetCount packet (next.bind (Slot.owned config dest)) :=
    holding_set view dest next
  rwa [SlotView.owned, used, Option.bind_some] at moved

theorem holding_fill (config : PhaseConfig rankCount) (packet : Nat)
    (free : view.slots dest = none) (next : Slot Record) :
    (view.set dest (some next)).holding config packet =
      view.holding config packet + packetCount packet (next.owned config dest) := by
  have moved : (view.set dest (some next)).holding config packet +
      packetCount packet (view.owned config dest) =
        view.holding config packet + packetCount packet (next.owned config dest) :=
    holding_set view dest (some next)
  rwa [SlotView.owned, free, Option.bind_none, packet_count_none, Nat.add_zero] at moved

/-- Memory of the fallback storage counts for no packet. -/
theorem packet_count_storage {pointer : BufferPtr} (located : Located config dest pointer)
    (fallback : config.options.useUpacket = false) : packetCount packet (some pointer) = 0 := by
  cases pointer with
  | upacket other =>
      have packets : config.options.useUpacket = true := located
      rw [fallback] at packets
      cases packets
  | fallback byteOffset => rfl

theorem storage_mode {pointer : BufferPtr} (storage : config.fallbackBuffer dest = some pointer) :
    config.options.useUpacket = false := by
  cases packets : config.options.useUpacket with
  | false => rfl
  | true => simp [PhaseConfig.fallbackBuffer, packets] at storage

/-- The packets of a thread balance over every move of memory. -/
theorem slot_step_packets (moved : SlotStep config view event view') (kept : SlotsKept config view)
    (packet : Nat) :
    event.obtains packet + view.holding config packet =
      event.handsOver packet + view'.holding config packet := by
  cases moved with
  | obtainPacket other packets single fresh =>
      simp only [Event.obtains, Event.handsOver, SlotView.holding, SlotView.owned, single,
        Option.map_none, Option.map_some, packet_count_none]
      omega
  | fillPacket dest record other free obtained =>
      have filled := holding_fill config packet free
        ⟨.upacket other, [record], .filling⟩
      simp only [SlotView.holding, SlotView.owned, SlotView.set_slots, SlotView.set_spare, obtained,
        Slot.owned, Option.map_none, Option.map_some, packet_count_none, Event.obtains,
        Event.handsOver] at filled ⊢
      omega
  | fillStorage dest record pointer free storage =>
      have none : packetCount packet (some pointer) = 0 :=
        packet_count_storage (located_fallback storage) (storage_mode storage)
      have filled := holding_fill config packet free
        ⟨pointer, [record], .filling⟩
      simp only [Slot.owned, none] at filled
      simp only [Event.obtains, Event.handsOver, filled]
      omega
  | add dest record slot used filling single room =>
      have moved := holding_move config packet used
        (some { slot with records := slot.records ++ [record] })
      have same : Slot.owned config dest { slot with records := slot.records ++ [record] } =
          slot.owned config dest := rfl
      rw [Option.bind_some, same] at moved
      simp only [Event.obtains, Event.handsOver]
      omega
  | accept dest slot used filling remote =>
      have moved := holding_move config packet used
        (some { slot with stage := .handed })
      simp only [Option.bind_some, Slot.owned, filling, remote, Bool.false_eq_true, if_false,
        packet_count_none] at moved
      simp only [Event.obtains, Event.handsOver]
      omega
  | loop dest slot used filling own =>
      have moved := holding_move config packet used
        (some { slot with stage := .handed })
      simp only [Option.bind_some, Slot.owned, filling, own, if_true] at moved
      simp only [Event.obtains, Event.handsOver]
      omega
  | giveBack dest slot used handed own packets =>
      have moved := holding_move config packet used
        (some { slot with stage := .returned })
      simp only [Option.bind_some, Slot.owned, handed, own, if_true, packet_count_none] at moved
      simp only [Event.obtains, Event.handsOver]
      omega
  | release dest slot used settled =>
      have moved := holding_move config packet used none
      have gone : packetCount packet (slot.owned config dest) = 0 := by
        rcases settled with returned | ⟨handed, fallback⟩
        · simp [Slot.owned, returned]
        · by_cases own : config.loopsBack dest = true
          · simpa [Slot.owned, handed, own] using
              packet_count_storage (kept.located dest slot used) (fallback own)
          · simp [Slot.owned, handed, own]
      simp only [gone, Option.bind_none, packet_count_none] at moved
      simp only [Event.obtains, Event.handsOver]
      omega
  | receive source records single => rfl
  | releaseMessage held => rfl
  | other event still =>
      have neither : event.obtains packet = 0 ∧ event.handsOver packet = 0 := by
        cases event <;> first | exact ⟨rfl, rfl⟩ | cases still
      rw [neither.1, neither.2]

theorem slot_run_packets (run : SlotRun config log view) (packet : Nat) :
    obtained packet log = handedOver packet log + view.holding config packet := by
  induction run with
  | start => simp [obtained, handedOver, SlotView.holding, SlotView.owned, SlotView.initial]
  | @next log event view view' prior moved ih =>
      have balance := slot_step_packets moved (slot_run_kept prior) packet
      simp only [obtained, handedOver] at ih
      simp only [obtained, handedOver, tally_append, tally_cons, tally_nil]
      omega

/-- Messages are received and released in turn, each by the phase's function. -/
theorem slot_run_messages (run : SlotRun config log view) :
    messageTurn config.options.useUpacket log = some view.receiving := by
  induction run with
  | start => rfl
  | @next log event view view' prior moved ih =>
      rw [messageTurn, List.foldl_concat]
      rw [messageTurn] at ih
      rw [ih]
      cases moved with
      | receive source records single => simp [trackMessage, single]
      | releaseMessage held => simp [trackMessage, held]
      | other event still => cases event <;> first | rfl | cases still
      | obtainPacket | fillPacket | fillStorage | add | accept | loop | giveBack | release => rfl

/-- Only a packet goes back to the pool, and only in packet mode. -/
theorem slot_run_put_back (run : SlotRun config log view) {buffer : Option BufferPtr}
    (put : .putUpacket buffer ∈ log) :
    config.options.useUpacket = true ∧ ∃ packet, buffer = some (.upacket packet) := by
  induction run with
  | start => cases put
  | @next log event view view' prior moved ih =>
      rcases List.mem_append.mp put with old | new
      · exact ih old
      · obtain rfl := List.mem_singleton.mp new
        cases moved with
        | giveBack dest slot used handed own packets =>
            have located := (slot_run_kept prior).located dest slot used
            refine ⟨packets, ?_⟩
            cases place : slot.pointer with
            | upacket packet => exact ⟨packet, rfl⟩
            | fallback byteOffset =>
                rw [place] at located
                have fallback : config.options.useUpacket = false := located.1
                rw [packets] at fallback
                cases fallback
        | other _ still => cases still

end Slots

section Threads

variable {config : PhaseConfig rankCount} {self : Option Worker} {packet : Nat}
variable {dest : Fin rankCount} {action : Action rankCount Record}
variable {thread thread' : ThreadState rankCount Worker Record}

@[simp] theorem obtained_append (first second : Log rankCount Worker Record) :
    obtained packet (first ++ second) = obtained packet first + obtained packet second :=
  tally_append _ first second

@[simp] theorem obtained_cons (event : Event rankCount Worker Record)
    (log : Log rankCount Worker Record) :
    obtained packet (event :: log) = event.obtains packet + obtained packet log := rfl

@[simp] theorem obtained_nil : obtained packet ([] : Log rankCount Worker Record) = 0 := rfl

theorem flush_dest_obtained (thread : ThreadState rankCount Worker Record)
    (dest : Fin rankCount) :
    obtained packet (thread.flushDest config self dest).log = obtained packet thread.log := by
  rcases flush_dest_cases config self thread dest with ⟨empty, made⟩ | ⟨filled, loops, made⟩ |
    ⟨filled, loops, made⟩
  · rw [made]
  · rw [made]
    simp [Event.obtains]
  · rw [made]
    rfl

theorem after_push_obtained (thread : ThreadState rankCount Worker Record)
    (dest : Fin rankCount) (previous : Option Worker) :
    obtained packet (thread.afterPush config self dest previous).log =
      obtained packet thread.log := by
  rcases after_push_cases config self thread dest previous with ⟨full, made⟩ | ⟨full, made⟩
  · rw [made]
    exact flush_dest_obtained _ dest
  · rw [made]
    simp [Event.obtains]

theorem post_am_obtained (thread : ThreadState rankCount Worker Record) (target : Int)
    (record : Record) :
    obtained packet (thread.postAm config self target record).log =
      obtained packet thread.log := by
  rcases post_am_cases config self thread target record with ⟨rank, checked, made⟩ | ⟨outside, made⟩
  · rw [made]
    rcases post_record_cases config self thread rank record with
      ⟨pointer, available, made⟩ | ⟨unavailable, made⟩
    · rw [made]
      rw [after_push_obtained]
      simp [Event.obtains]
    · rw [made]
      rfl
  · rw [made]
    simp [Event.obtains]

/-- A thread obtains a packet only when `get_upacket` answers with it. -/
theorem step_obtained (step : ThreadStep config self thread action thread') (packet : Nat) :
    obtained packet thread'.log = obtained packet thread.log ∨
      ∃ stale, action = .getUpacket (some (packet, stale)) := by
  cases step with
  | postAm target record worker owner idle => exact .inl (post_am_obtained thread target record)
  | handlerPost target record => exact .inl (post_am_obtained thread target record)
  | upacket dest record previous below other stale top =>
      by_cases same : other = packet
      · subst same
        exact .inr ⟨stale, rfl⟩
      · left
        unfold ThreadState.adoptPacket
        rw [after_push_obtained]
        simp [Event.obtains, packetCount, same]
  | deliver source records below top =>
      left
      unfold ThreadState.handleIncomingAm
      split <;> simp [Event.obtains]
  | flushNext elapsed i below top more =>
      exact .inl (flush_dest_obtained (thread.withStack (.flushWorker (i + 1) :: below)) _)
  | loopbackRelease elapsed dest sent recordCount previous below top =>
      left
      unfold ThreadState.returnPacket
      split <;> simp [Event.obtains]
  | flush | progress | collectiveProgress | upacketNull | progressEnd | sendAgain => exact .inl rfl
  | retry | accept | handlerReturn | postReturn | flushEnd | sendRelease | progressReturn | invoke |
      receiveEnd | incomingEnd => exact .inl (by simp [Event.obtains])

/-- The packets a thread holds, as a count. -/
def heldCount (config : PhaseConfig rankCount) (thread : ThreadState rankCount Worker Record)
    (packet : Nat) : Nat :=
  ∑ dest, if heldPacket config thread dest = some packet then 1 else 0

theorem owned_held (dest : Fin rankCount) :
    packetCount packet ((viewOf thread.sendBuffers thread.stack).owned config dest) =
      if heldPacket config thread dest = some packet then 1 else 0 := by
  have owned : (viewOf thread.sendBuffers thread.stack).owned config dest =
      if (handedOverBy dest thread.stack).isSome ∧ config.loopsBack dest = false then none
      else (thread.sendBuffers dest).buffer := by
    cases held : (thread.sendBuffers dest).buffer with
    | none => simp [SlotView.owned, slot_of_null held]
    | some pointer =>
        by_cases handed : (handedOverBy dest thread.stack).isSome = true
        · by_cases own : config.loopsBack dest = true
          · simp [SlotView.owned, viewOf, slotOf, Slot.owned, held, handed, own]
          · simp [SlotView.owned, viewOf, slotOf, Slot.owned, held, handed, own]
        · simp [SlotView.owned, viewOf, slotOf, Slot.owned, held, handed]
  rw [owned]
  unfold heldPacket
  by_cases gone : (handedOverBy dest thread.stack).isSome ∧ config.loopsBack dest = false
  · simp only [if_pos gone, packet_count_none]
    split
    · simp
    · simp
  · simp only [if_neg gone]
    cases held : (thread.sendBuffers dest).buffer with
    | none => simp
    | some pointer =>
        cases pointer with
        | upacket other => simp [packetCount]
        | fallback byteOffset => simp [packetCount]

theorem thread_balance (traced : thread.Traced config) (packet : Nat) :
    obtained packet thread.log = handedOver packet thread.log + heldCount config thread packet := by
  have balance := slot_run_packets traced packet
  have held : (viewOf thread.sendBuffers thread.stack).holding config packet =
      heldCount config thread packet := by
    unfold SlotView.holding heldCount
    simp only [owned_held]
    rfl
  rw [balance, held]

theorem held_buffer (held : heldPacket config thread dest = some packet) :
    (thread.sendBuffers dest).buffer = some (.upacket packet) := by
  unfold heldPacket at held
  split at held
  case h_1 other allocated =>
      split at held
      · cases held
      · obtain rfl := Option.some.inj held
        exact allocated
  case h_2 => cases held

/-- Between calls the packets held are those behind the buffers. -/
theorem idle_held (idle : thread.stack = []) :
    heldPacket config thread dest = some packet ↔
      (thread.sendBuffers dest).buffer = some (.upacket packet) := by
  constructor
  · exact held_buffer
  · intro allocated
    simp [heldPacket, allocated, idle, handedOverBy]

theorem held_unique {other : Fin rankCount} (traced : thread.Traced config)
    (held : heldPacket config thread dest = some packet)
    (alsoHeld : heldPacket config thread other = some packet) : dest = other := by
  have kept := slot_run_kept traced
  obtain ⟨slot, used, place, _⟩ := slot_of_buffer (held_buffer held) thread.stack
  obtain ⟨slot', used', place', _⟩ := slot_of_buffer (held_buffer alsoHeld) thread.stack
  exact kept.distinct dest other slot slot' used used' (place.trans place'.symm)

theorem idle_nonnull (traced : thread.Traced config)
    (quiet : QuietStack config thread.sendBuffers thread.stack) (idle : thread.stack = [])
    (dest : Fin rankCount) :
    (thread.sendBuffers dest).buffer ≠ none ↔ (thread.sendBuffers dest).records ≠ [] := by
  constructor
  · intro nonnull
    obtain ⟨pointer, allocated⟩ := Option.ne_none_iff_exists'.mp nonnull
    have used := slot_of_allocated allocated
      (show handedOverBy dest thread.stack = none by rw [idle]; rfl)
    exact (slot_run_kept traced).nonempty dest _ used
  · intro nonempty null
    exact nonempty (quiet.unallocated dest null)

/-- The kind of memory behind every buffer of a traced thread. -/
theorem buffer_located (traced : thread.Traced config) {pointer : BufferPtr}
    (allocated : (thread.sendBuffers dest).buffer = some pointer) :
    Located config dest pointer ∧
      (thread.sendBuffers dest).records.length ≤ config.batchRecords := by
  have kept := slot_run_kept traced
  obtain ⟨slot, used, place, records⟩ := slot_of_buffer allocated thread.stack
  constructor
  · rw [← place]
    exact kept.located dest slot used
  · rw [← records]
    exact kept.bounded dest slot used

/-- A step holds no packet that the thread did not hold, but the one granted. -/
theorem step_holds (step : ThreadStep config self thread action thread')
    (traced : thread.Traced config) (traced' : thread'.Traced config)
    (held : heldPacket config thread' dest = some packet) :
    (∃ before, heldPacket config thread before = some packet) ∨
      ∃ stale, action = .getUpacket (some (packet, stale)) := by
  rcases step_obtained step packet with same | granted
  · left
    obtain ⟨later, extended⟩ := step_extends step
    have before := thread_balance traced packet
    have after := thread_balance traced' packet
    have more : handedOver packet thread'.log =
        handedOver packet thread.log + handedOver packet later := by
      rw [extended]
      exact tally_append _ _ _
    have positive : 0 < heldCount config thread' packet := by
      apply Finset.sum_pos'
      · exact fun _ _ => Nat.zero_le _
      · exact ⟨dest, Finset.mem_univ dest, by simp [held]⟩
    have some : heldCount config thread packet ≠ 0 := by omega
    obtain ⟨other, _, counted⟩ := Finset.exists_ne_zero_of_sum_ne_zero some
    refine ⟨other, ?_⟩
    by_contra absent
    exact counted (if_neg absent)
  · exact .inr granted

/-- Between calls a buffer that holds records holds a packet. -/
theorem idle_packet (traced : thread.Traced config)
    (quiet : QuietStack config thread.sendBuffers thread.stack) (idle : thread.stack = [])
    (packets : config.options.useUpacket = true) (dest : Fin rankCount) :
    (thread.sendBuffers dest).records ≠ [] ↔
      ∃ packet, heldPacket config thread dest = some packet ∧
        (thread.sendBuffers dest).buffer = some (.upacket packet) := by
  rw [← idle_nonnull traced quiet idle dest]
  constructor
  · intro set
    obtain ⟨pointer, allocated⟩ := Option.ne_none_iff_exists'.mp set
    have located := (buffer_located traced allocated).1
    cases pointer with
    | upacket packet => exact ⟨packet, (idle_held idle).mpr allocated, allocated⟩
    | fallback byteOffset =>
        have fallback : config.options.useUpacket = false := located.1
        rw [packets] at fallback
        cases fallback
  · rintro ⟨packet, _, allocated⟩ null
    rw [null] at allocated
    cases allocated

/-- An idle worker without records holds no packet. -/
theorem held_none (traced : thread.Traced config)
    (quiet : QuietStack config thread.sendBuffers thread.stack) (idle : thread.stack = [])
    (empty : ∀ dest, (thread.sendBuffers dest).records = []) (packet : Nat) :
    heldCount config thread packet = 0 := by
  apply Finset.sum_eq_zero
  intro dest _
  apply if_neg
  intro held
  have allocated := held_buffer held
  have null : (thread.sendBuffers dest).buffer = none := by
    by_contra set
    exact (idle_nonnull traced quiet idle dest).mp set (empty dest)
  rw [null] at allocated
  cases allocated

end Threads

section Storage

variable {config : PhaseConfig rankCount} {dest : Fin rankCount}

/-- `storage_bytes` of the `WorkerBuffers` constructor, a `size_t`. -/
def storageBytes (config : PhaseConfig rankCount) : Nat :=
  (messageBytes config.recordSize config.batchRecords * rankCount) % 2 ^ 64

/-- What `malloc` gave each worker of a process, and that a `size_t` can count
LCI's eager limit once for each rank. -/
structure FallbackMemory (config : PhaseConfig rankCount) (Worker : Type) where
  block : Worker → Nat
  separate : ∀ worker other, worker ≠ other →
    block worker + storageBytes config ≤ block other ∨
      block other + storageBytes config ≤ block worker
  countable : config.maxBcopySize * rankCount < 2 ^ 64

/-- The addresses of the records in a send buffer: the first, and the one past
the last. -/
def FallbackMemory.range {config : PhaseConfig rankCount} (memory : FallbackMemory config Worker)
    (worker : Worker) (sendBuffer : SendBuffer Record) : Option (Nat × Nat) :=
  match sendBuffer.buffer with
  | some (.fallback byteOffset) =>
      some (memory.block worker + byteOffset,
        memory.block worker + byteOffset + sendBuffer.sizeInBytes config.recordSize)
  | _ => none

theorem storage_bytes_exact (memory : FallbackMemory config Worker) :
    storageBytes config = messageBytes config.recordSize config.batchRecords * rankCount := by
  have batch : messageBytes config.recordSize config.batchRecords ≤ config.maxBcopySize :=
    (Nat.mul_le_mul_right _ (chosen_batch_bounds config.chosen).2).trans
      (Nat.div_mul_le_self _ _)
  exact Nat.mod_eq_of_lt ((Nat.mul_le_mul_right _ batch).trans_lt memory.countable)

/-- The place of `dest` lies in the storage, before the places of later ranks. -/
theorem place_inside (memory : FallbackMemory config Worker) (dest : Fin rankCount) :
    dest.val * messageBytes config.recordSize config.batchRecords +
      messageBytes config.recordSize config.batchRecords ≤ storageBytes config := by
  have next : (dest.val + 1) * messageBytes config.recordSize config.batchRecords ≤
      rankCount * messageBytes config.recordSize config.batchRecords :=
    Nat.mul_le_mul_right _ dest.isLt
  rw [Nat.succ_mul] at next
  rw [storage_bytes_exact memory, Nat.mul_comm _ rankCount]
  exact next

/-- The range of a buffer lies in the place of its destination. -/
theorem range_inside {thread : ThreadState rankCount Worker Record} {range : Nat × Nat}
    (memory : FallbackMemory config Worker) (traced : thread.Traced config) {worker : Worker}
    (used : memory.range worker (thread.sendBuffers dest) = some range) :
    memory.block worker + dest.val * messageBytes config.recordSize config.batchRecords ≤
        range.1 ∧
      range.2 ≤ memory.block worker +
        (dest.val * messageBytes config.recordSize config.batchRecords +
          messageBytes config.recordSize config.batchRecords) := by
  unfold FallbackMemory.range at used
  split at used
  case h_1 byteOffset allocated =>
      obtain rfl := Option.some.inj used
      obtain ⟨located, bounded⟩ := buffer_located traced allocated
      have filled : (thread.sendBuffers dest).sizeInBytes config.recordSize ≤
          messageBytes config.recordSize config.batchRecords := Nat.mul_le_mul_right _ bounded
      have place : byteOffset =
          dest.val * messageBytes config.recordSize config.batchRecords := located.2
      dsimp only
      omega
  case h_2 => cases used

end Storage

section Phases

variable {Memory : Type} [DecidableEq Worker] {config : PhaseConfig rankCount}
variable {handler : AmHandler rankCount Record Memory} {memory : Memory}
variable {phase : PhaseState rankCount Worker Record Memory}

/-- No handler calls back, and `get_upacket` never answers with a packet that a
thread of this process still holds: a packet is LCI's again once a post of it is
accepted or it is put back. -/
def PhaseGrant (config : PhaseConfig rankCount)
    (phase : PhaseState rankCount Worker Record Memory)
    (call : Option Worker × Action rankCount Record) : Prop :=
  match call.2 with
  | .handlerPost _ _ => False
  | .getUpacket (some (packet, _)) =>
      ∀ thread dest, heldPacket config (phase.threads thread) dest ≠ some packet
  | _ => True

omit [DecidableEq Worker] in
theorem phase_grant_thread (call : Option Worker × Action rankCount Record)
    (granted : PhaseGrant config phase call) :
    QuietGrant config (phase.threads call.1) call.2 := by
  obtain ⟨thread, action⟩ := call
  cases action with
  | getUpacket answer =>
      cases answer with
      | none => trivial
      | some grant => exact granted thread
  | handlerPost => exact granted.elim
  | postAm | flush | progress | collectiveProgress | postAmAnswer | deliver | progressEnd |
      handlerReturn | resume => trivial

theorem phase_traced
    (reached : (phaseSystem config handler).Reachable (PhaseGrant config) (.initial config memory)
      phase) (thread : Option Worker) :
    (phase.threads thread).Traced config ∧ Quiet config (phase.threads thread) := by
  have run := phase_thread_run (fun _ call => phase_grant_thread call) reached thread
  exact ⟨(slots_traced run).1, reachable_quiet (reachable_of_granted run)⟩

/-- Whatever the threads do, no packet is in two buffers. -/
theorem packets_unshared
    (reached : (phaseSystem config handler).Reachable (PhaseGrant config) (.initial config memory)
      phase) {thread other : Option Worker} {dest dest' : Fin rankCount} {packet : Nat}
    (held : heldPacket config (phase.threads thread) dest = some packet)
    (alsoHeld : heldPacket config (phase.threads other) dest' = some packet) :
    thread = other := by
  induction reached generalizing thread other dest dest' with
  | start => simp [PhaseState.initial, ThreadState.initial, heldPacket] at held
  | @next before after call prior granted stepped ih =>
      have traced := fun thread => (phase_traced prior thread).1
      have traced' := fun thread => (phase_traced (prior.next granted stepped) thread).1
      obtain ⟨next, events, moved, _, rfl⟩ := phase_step_cases stepped
      rw [absorb_all_threads] at held alsoHeld
      simp only [absorb_all_threads] at traced'
      -- What the stepping thread holds now it held before, unless it was granted just now.
      have owner : ∀ {self : Option Worker} {place : Fin rankCount},
          heldPacket config (Function.update before.threads call.1 next self) place = some packet →
          (∃ earlier, heldPacket config (before.threads self) earlier = some packet) ∨
            self = call.1 ∧ ∃ stale, call.2 = .getUpacket (some (packet, stale)) := by
        intro self place now
        by_cases same : self = call.1
        · subst same
          have traced'' := traced' call.1
          simp only [Function.update_self] at now traced''
          rcases step_holds (thread_step_cases moved) (traced call.1) traced'' now with old | new
          · exact .inl old
          · exact .inr ⟨rfl, new⟩
        · rw [Function.update_of_ne same] at now
          exact .inl ⟨place, now⟩
      rcases owner held with ⟨place, old⟩ | ⟨rfl, stale, got⟩
      · rcases owner alsoHeld with ⟨place', old'⟩ | ⟨rfl, stale, got⟩
        · exact ih old old'
        · unfold PhaseGrant at granted
          rw [got] at granted
          exact absurd old (granted thread place)
      · rcases owner alsoHeld with ⟨place', old'⟩ | ⟨rfl, _⟩
        · unfold PhaseGrant at granted
          rw [got] at granted
          exact absurd old' (granted other place')
        · rfl

/-- The buffers of a phase have one owner at a time. `releasesUpackets` is the
mode of the registered receive handler. -/
structure PacketsOwned [Fintype Worker] (config : PhaseConfig rankCount) (releasesUpackets : Bool)
    (phase : PhaseState rankCount Worker Record Memory) : Prop where
  /-- Between calls a data pointer is set exactly where there are records. -/
  nonnull : ∀ thread, (phase.threads thread).stack = [] → ∀ dest,
    ((phase.threads thread).sendBuffers dest).buffer ≠ none ↔
      ((phase.threads thread).sendBuffers dest).records ≠ []
  /-- Every packet obtained is handed over once, or still held. -/
  balance : ∀ thread packet, obtained packet (phase.threads thread).log =
    handedOver packet (phase.threads thread).log + heldCount config (phase.threads thread) packet
  /-- Between calls the packets held are those of the nonempty buffers. -/
  held : config.options.useUpacket = true → ∀ thread, (phase.threads thread).stack = [] →
    ∀ dest, ((phase.threads thread).sendBuffers dest).records ≠ [] ↔
      ∃ packet, heldPacket config (phase.threads thread) dest = some packet ∧
        ((phase.threads thread).sendBuffers dest).buffer = some (.upacket packet)
  unshared : ∀ thread other dest dest' packet,
    heldPacket config (phase.threads thread) dest = some packet →
      heldPacket config (phase.threads other) dest' = some packet → thread = other ∧ dest = dest'
  /-- Every received message is released before the next, by the right function. -/
  messages : ∀ thread, ∃ receiving,
    messageTurn releasesUpackets (phase.threads thread).log = some receiving ∧
      ((phase.threads thread).stack = [] → receiving = false)
  putBack : ∀ thread buffer, .putUpacket buffer ∈ (phase.threads thread).log →
    config.options.useUpacket = true ∧ ∃ packet, buffer = some (.upacket packet)
  /-- `clear_am_handler` goes through only without buffered records. -/
  cleared : phase.Idle → phase.hasBufferedRecords = false → ∀ worker packet,
    obtained packet (phase.threads (some worker)).log =
      handedOver packet (phase.threads (some worker)).log
  inside : ∀ storage : FallbackMemory config Worker, ∀ worker dest range,
    storage.range worker ((phase.threads (some worker)).sendBuffers dest) = some range →
      storage.block worker ≤ range.1 ∧ range.2 ≤ storage.block worker + storageBytes config
  disjoint : ∀ storage : FallbackMemory config Worker, ∀ worker other dest dest' range range',
    storage.range worker ((phase.threads (some worker)).sendBuffers dest) = some range →
      storage.range other ((phase.threads (some other)).sendBuffers dest') = some range' →
      (worker, dest) ≠ (other, dest') → range.2 ≤ range'.1 ∨ range'.2 ≤ range.1

omit [DecidableEq Worker] in
/-- Places of one worker are apart by their destinations, places of two workers
by their blocks. -/
theorem ranges_disjoint {config : PhaseConfig rankCount}
    {threads : Option Worker → ThreadState rankCount Worker Record}
    (traced : ∀ thread, (threads thread).Traced config)
    (storage : FallbackMemory config Worker) {worker other : Worker} {dest dest' : Fin rankCount}
    {range range' : Nat × Nat}
    (used : storage.range worker ((threads (some worker)).sendBuffers dest) = some range)
    (used' : storage.range other ((threads (some other)).sendBuffers dest') = some range')
    (different : (worker, dest) ≠ (other, dest')) :
    range.2 ≤ range'.1 ∨ range'.2 ≤ range.1 := by
  obtain ⟨low, high⟩ := range_inside storage (traced (some worker)) used
  obtain ⟨low', high'⟩ := range_inside storage (traced (some other)) used'
  by_cases same : worker = other
  · subst same
    have apart : dest.val ≠ dest'.val := by
      intro equal
      exact different (by rw [Fin.ext equal])
    rcases Nat.lt_or_gt_of_ne apart with before | after
    · have next := Nat.mul_le_mul_right
        (messageBytes config.recordSize config.batchRecords) before
      rw [Nat.succ_mul] at next
      left
      omega
    · have next := Nat.mul_le_mul_right
        (messageBytes config.recordSize config.batchRecords) after
      rw [Nat.succ_mul] at next
      right
      omega
  · have place := place_inside storage dest
    have place' := place_inside storage dest'
    rcases storage.separate worker other same with below | above
    · left
      omega
    · right
      omega

/-- The receive handler is registered for the phase's own buffers. -/
theorem registered_mode {RecordType HandlerType : Type} {env : RuntimeEnv RecordType}
    {runtime registered : Runtime env HandlerType} {useUpacket allocHandler : Bool}
    {registerRcomp : Option { rcomp : Nat // rcomp ≠ 0 }}
    (registration : runtime.registerAmTransport useUpacket allocHandler registerRcomp =
      (registered, none)) : registered.amReceiveUsesUpacket = useUpacket := by
  unfold Runtime.registerAmTransport at registration
  split at registration
  · cases registration
  · split at registration
    · split at registration
      · obtain ⟨rfl, _⟩ := Prod.mk.inj registration
        rfl
      · cases registration
    · cases registration

omit [DecidableEq Worker] in
/-- What `has_buffered_records` denies. -/
theorem unbuffered_records [Fintype Worker]
    (cleared : phase.hasBufferedRecords = false) (worker : Worker) (dest : Fin rankCount) :
    ((phase.threads (some worker)).sendBuffers dest).records = [] := by
  rw [← SendBuffer.empty_iff]
  by_contra buffered
  apply of_decide_eq_false cleared
  exact ⟨worker, dest, Bool.eq_false_iff.mpr buffered⟩

/-- In every state of every run of a phase, with any workers, options, retries
and interleaving, buffers and messages are owned as `PacketsOwned` says. The
receive handler is the one that the phase registered. -/
theorem packets_owned [Fintype Worker] {RecordType HandlerType : Type} {env : RuntimeEnv RecordType}
    {runtime registered : Runtime env HandlerType} {allocHandler : Bool}
    {registerRcomp : Option { rcomp : Nat // rcomp ≠ 0 }}
    (registration : runtime.registerAmTransport config.options.useUpacket allocHandler
      registerRcomp = (registered, none))
    (reached : (phaseSystem config handler).Reachable (PhaseGrant config) (.initial config memory)
      phase) :
    PacketsOwned config registered.amReceiveUsesUpacket phase := by
  have traced := fun thread => (phase_traced reached thread).1
  have quiet := fun thread => (phase_traced reached thread).2.stack
  refine ⟨fun thread idle dest => idle_nonnull (traced thread) (quiet thread) idle dest,
    fun thread packet => thread_balance (traced thread) packet, ?_, ?_, ?_,
    fun thread buffer => slot_run_put_back (traced thread), ?_, ?_, ?_⟩
  · intro packets thread idle dest
    exact idle_packet (traced thread) (quiet thread) idle packets dest
  · intro thread other dest dest' packet held alsoHeld
    have same := packets_unshared reached held alsoHeld
    subst same
    exact ⟨rfl, held_unique (traced thread) held alsoHeld⟩
  · intro thread
    rw [registered_mode registration]
    refine ⟨_, slot_run_messages (traced thread), ?_⟩
    intro idle
    rw [viewOf, idle]
    rfl
  · intro idle cleared worker packet
    have none := held_none (traced (some worker)) (quiet (some worker)) (idle _)
      (unbuffered_records cleared worker) packet
    rw [thread_balance (traced (some worker)) packet, none, Nat.add_zero]
  · intro storage worker dest range used
    obtain ⟨low, high⟩ := range_inside storage (traced (some worker)) used
    have place := place_inside storage dest
    constructor
    · omega
    · omega
  · intro storage worker other dest dest' range range' used used' different
    exact ranges_disjoint traced storage used used' different

end Phases

section Loopback

/-- Two ranks in packet mode, two records to a message. -/
def packetPair : PhaseConfig 2 where
  rank := ⟨0, Nat.two_pos⟩
  options := {}
  maxBcopySize := 8
  recordSize := 4
  batchRecords := 2
  profilingEnabled := false
  chosen := rfl

/-- A post to the own rank that takes packet 5, its flush through the loopback
path, and a message from the other rank in a progress. -/
def loopbackCalls : List (Option Unit × Action 2 Nat) :=
  [(some (), .flush), (some (), .resume 0), (some (), .resume 0), (some (), .handlerReturn),
    (some (), .resume 0), (some (), .resume 0), (some (), .resume 0), (some (), .resume 0),
    (some (), .progress), (some (), .deliver ⟨1, Nat.one_lt_two⟩ [9]), (some (), .resume 0),
    (some (), .handlerReturn), (some (), .resume 0), (some (), .resume 0), (some (), .progressEnd),
    (some (), .resume 0)]

/-- The process of `packetPair`, with one type of four-byte records. -/
def pairProcess : RuntimeEnv Unit where
  rankCount := 2
  rank := ⟨0, Nat.two_pos⟩
  deviceCount := 1
  profilingEnabled := false
  profilingWorkerCount := 1
  maxBcopySize := 8
  carrier _ := Nat
  recordSize _ := 4

theorem packets_owned_loopback :
    ∃ phase : PhaseState 2 Unit Nat Unit,
      (phaseSystem packetPair (noMemory 2 Nat)).run (.initial packetPair ())
          ((some (), .postAm 0 7) :: (some (), .getUpacket (some (5, fun _ => 0))) ::
            loopbackCalls) = some phase ∧
        handedOver 5 (phase.threads (some ())).log = 1 ∧ PacketsOwned packetPair true phase := by
  obtain ⟨phase, executed, handed⟩ :
      ∃ phase : PhaseState 2 Unit Nat Unit,
        (phaseSystem packetPair (noMemory 2 Nat)).run (.initial packetPair ())
          ((some (), .postAm 0 7) :: (some (), .getUpacket (some (5, fun _ => 0))) ::
            loopbackCalls) = some phase ∧
        handedOver 5 (phase.threads (some ())).log = 1 := ⟨_, rfl, rfl⟩
  obtain ⟨registered, registration, packets⟩ :
      ∃ registered, ({} : Runtime pairProcess Unit).registerAmTransport
        packetPair.options.useUpacket true (some ⟨6, Nat.succ_ne_zero 5⟩) = (registered, none) ∧
        registered.amReceiveUsesUpacket = true := ⟨_, rfl, rfl⟩
  have granted : (phaseSystem packetPair (noMemory 2 Nat)).PermittedRun (PhaseGrant packetPair)
      (.initial packetPair ())
      ((some (), .postAm 0 7) :: (some (), .getUpacket (some (5, fun _ => 0))) ::
        loopbackCalls) := by
    refine ⟨trivial, ?_⟩
    intro waiting posted
    refine ⟨?_, ?_⟩
    · obtain rfl := Option.some.inj posted
      intro thread dest held
      cases thread with
      | none => cases held
      | some worker => cases held
    · intro _ _
      exact TransitionSystem.permitted_run_of_all fun before => by
        simp [loopbackCalls, PhaseGrant]
  refine ⟨phase, executed, handed, ?_⟩
  rw [← packets]
  exact packets_owned registration (TransitionSystem.run_reachable executed granted)

end Loopback
end IntegerSortLci.Runtime
