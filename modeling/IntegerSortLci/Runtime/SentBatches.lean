import IntegerSortLci.Foundations.Aggregation
import IntegerSortLci.Runtime.WireBytes

/-!
# The batches that a thread sends

What a worker asks of its buffers for one destination is what one asks of an aggregator: a
post adds a record, a flush lets out what is held. The thread hands its batches over later
than the aggregator, while LCI makes it retry, or earlier, in the middle of a flush. At the
end of each of its calls it has sent the batches of the aggregator, one message each, and
has its records buffered that the aggregator holds.
-/

namespace IntegerSortLci.Runtime

open Foundations

set_option autoImplicit false

variable {rankCount : Nat} {Worker Record : Type}

namespace Event

/-- A measured flush to `dest`. -/
def flushCallsTo (dest : Fin rankCount) : Event rankCount Worker Record → Nat
  | .flushed other _ _ _ _ => if other = dest then 1 else 0
  | _ => 0

/-- The event fills, hands over or flushes a buffer. -/
def aboutBatches : Event rankCount Worker Record → Bool
  | .posted _ _ _ _ | .accepted _ _ _ | .loopedBack _ _ | .flushed _ _ _ _ _ | .flushReturned =>
      true
  | _ => false

end Event

/-- What an event asks of the aggregator for `dest`. -/
def trackAggregator {limit : Nat} (dest : Fin rankCount) (aggregator : Aggregator Record limit) :
    Event rankCount Worker Record → Aggregator Record limit
  | .posted other record _ _ => if other = dest then aggregator.push record else aggregator
  | .flushReturned => aggregator.flush
  | _ => aggregator

/-- The aggregator of batches for `dest` after the calls in a log. -/
def aggregated (config : PhaseConfig rankCount) (dest : Fin rankCount)
    (log : Log rankCount Worker Record) : Aggregator Record config.batchRecords :=
  log.foldl (trackAggregator dest) (.start config.batch_positive)

namespace Frame

def isFlush : Frame rankCount Worker Record → Bool
  | .flushWorker _ => true
  | _ => false

def sendsTo : Frame rankCount Worker Record → Option (Fin rankCount)
  | .send dest _ _ _ => some dest
  | _ => none

end Frame

/-- A flush of all buffers is under way. -/
def Flushing (stack : Stack rankCount Worker Record) : Prop :=
  ∃ frame ∈ stack, frame.isFlush = true

/-- One batch is handed over for `dest` and its flush not yet measured. -/
def openFlushes (dest : Fin rankCount) (stack : Stack rankCount Worker Record) : Nat :=
  if (handedOverBy dest stack).isSome then 1 else 0

structure Batched (config : PhaseConfig rankCount) (buffers : Buffers rankCount Record)
    (stack : Stack rankCount Worker Record) (log : Log rankCount Worker Record) : Prop where
  aligned : ∀ dest, Aligned (aggregated config dest log) (batchesTo dest log)
    (unsent buffers stack dest) (Flushing stack)
  /-- A send is part of a flush, or was started by a push that filled the buffer. -/
  sending : ∀ frame ∈ stack, ∀ dest, frame.sendsTo = some dest →
    Flushing stack ∨ (buffers dest).records.length = config.batchRecords
  counted : ∀ dest, tally (Event.flushCallsTo dest) log + openFlushes dest stack =
    (batchesTo dest log).length

variable {config : PhaseConfig rankCount} {self : Option Worker}
variable {buffers : Buffers rankCount Record} {stack below : Stack rankCount Worker Record}
variable {log : Log rankCount Worker Record} {event : Event rankCount Worker Record}
variable {frame : Frame rankCount Worker Record} {dest other : Fin rankCount}

section Logs

theorem aggregated_concat :
    aggregated config dest (log ++ [event]) =
      trackAggregator dest (aggregated config dest log) event := by
  unfold aggregated
  rw [List.foldl_append]
  rfl

theorem track_beside {limit : Nat} (beside : event.aboutBatches = false) (dest : Fin rankCount)
    (aggregator : Aggregator Record limit) :
    trackAggregator dest aggregator event = aggregator ∧ event.batchTo dest = [] ∧
      event.flushCallsTo dest = 0 := by
  cases event with
  | posted | accepted | loopedBack | flushed | flushReturned => cases beside
  | _ => exact ⟨rfl, rfl, rfl⟩

end Logs

section Steps

theorem Batched.neutral_event (batched : Batched config buffers stack log)
    (beside : event.aboutBatches = false) : Batched config buffers stack (log ++ [event]) := by
  refine ⟨?_, batched.sending, ?_⟩
  · intro dest
    obtain ⟨same, nothing, -⟩ := track_beside beside dest (aggregated config dest log)
    rw [aggregated_concat, same, batches_to_concat, nothing, List.append_nil]
    exact batched.aligned dest
  · intro dest
    obtain ⟨-, nothing, zero⟩ := track_beside beside dest (aggregated config dest log)
    rw [tally_append, tally_cons, tally_nil, zero, batches_to_concat,
      nothing, List.append_nil]
    exact batched.counted dest

theorem Batched.restack (batched : Batched config buffers stack log)
    {stack' : Stack rankCount Worker Record}
    (handed : ∀ dest, handedOverBy dest stack' = handedOverBy dest stack)
    (flushing : Flushing stack → Flushing stack')
    (sending : ∀ frame ∈ stack', ∀ dest, frame.sendsTo = some dest →
      ∃ before ∈ stack, before.sendsTo = some dest) :
    Batched config buffers stack' log := by
  refine ⟨?_, ?_, ?_⟩
  · intro dest
    have same : unsent buffers stack' dest = unsent buffers stack dest := by
      unfold unsent
      rw [handed]
    rw [same]
    exact (batched.aligned dest).mono flushing
  · intro frame member dest sends
    obtain ⟨before, inStack, sent⟩ := sending frame member dest sends
    exact (batched.sending before inStack dest sent).imp_left flushing
  · intro dest
    unfold openFlushes
    rw [handed]
    exact batched.counted dest

theorem Batched.push (batched : Batched config buffers stack log)
    (neutral : frame.handedOver = none) (still : frame.sendsTo = none) :
    Batched config buffers (frame :: stack) log := by
  apply batched.restack
  · exact fun _ => handed_over_by_neutral neutral
  · rintro ⟨flush, member, same⟩
    exact ⟨flush, List.mem_cons_of_mem _ member, same⟩
  · intro other member dest sends
    rcases List.mem_cons.mp member with rfl | inStack
    · rw [still] at sends
      cases sends
    · exact ⟨other, inStack, sends⟩

theorem Batched.pop (batched : Batched config buffers (frame :: below) log)
    (neutral : frame.handedOver = none) (call : frame.isFlush = false) :
    Batched config buffers below log := by
  apply batched.restack
  · exact fun _ => (handed_over_by_neutral neutral).symm
  · rintro ⟨flush, member, same⟩
    rcases List.mem_cons.mp member with rfl | inBelow
    · rw [call] at same
      cases same
    · exact ⟨flush, inBelow, same⟩
  · intro other member dest sends
    exact ⟨other, List.mem_cons_of_mem _ member, sends⟩

/-- The top frame moves on and keeps what it is about. -/
theorem Batched.replace_top (batched : Batched config buffers (frame :: below) log)
    (frame' : Frame rankCount Worker Record) (neutral : frame.handedOver = none)
    (neutral' : frame'.handedOver = none) (call : frame.isFlush = true → frame'.isFlush = true)
    (sends : frame'.sendsTo = frame.sendsTo) : Batched config buffers (frame' :: below) log := by
  apply batched.restack
  · intro dest
    rw [handed_over_by_neutral neutral, handed_over_by_neutral neutral']
  · rintro ⟨flush, member, same⟩
    rcases List.mem_cons.mp member with rfl | inBelow
    · exact ⟨frame', List.mem_cons_self, call same⟩
    · exact ⟨flush, List.mem_cons_of_mem _ inBelow, same⟩
  · intro other member dest sent
    rcases List.mem_cons.mp member with rfl | inBelow
    · exact ⟨frame, List.mem_cons_self, sends.symm.trans sent⟩
    · exact ⟨other, List.mem_cons_of_mem _ inBelow, sent⟩

theorem not_flushing_nil : ¬ Flushing ([] : Stack rankCount Worker Record) := by
  rintro ⟨frame, member, -⟩
  cases member

/-- A worker that is in no other call writes a record. -/
theorem Batched.write (batched : Batched config buffers [] log)
    (room : (buffers dest).size < config.batchRecords) (pointer : BufferPtr) (record : Record) :
    Batched config (Function.update buffers dest ((buffers dest).append pointer record)) []
      (log ++ [.posted dest record (buffers dest).size pointer]) := by
  refine ⟨?_, nofun, ?_⟩
  · intro other
    have aligned := batched.aligned other
    rw [aggregated_concat, batches_to_concat]
    unfold unsent handedOverBy at aligned ⊢
    simp only [Event.batchTo, Event.handOver, List.append_nil, trackAggregator]
    by_cases same : dest = other
    · subst same
      rw [if_pos rfl, Function.update_self]
      exact aligned.push not_flushing_nil room record
    · rw [if_neg same, Function.update_of_ne (Ne.symm same)]
      exact aligned
  · intro other
    rw [tally_append, batches_to_concat]
    simp only [Event.batchTo, Event.handOver, List.append_nil]
    exact batched.counted other

/-- A batch is handed over in a flush or because its buffer is full. -/
theorem Batched.hand_over (batched : Batched config buffers stack log)
    (free : handedOverBy dest stack = none) (filled : (buffers dest).records ≠ [])
    (due : Flushing stack ∨ (buffers dest).records.length = config.batchRecords)
    (handed : frame.handedOver = some (dest, (buffers dest).records))
    (recorded : event.handOver = some (dest, (buffers dest).records)) :
    Batched config buffers (frame :: stack) (log ++ [event]) := by
  have target := target_of_handed_over handed
  have beside : frame.isFlush = false ∧ ∀ other, frame.sendsTo = some other → other = dest := by
    cases frame with
    | send =>
        refine ⟨rfl, fun other same => ?_⟩
        exact (Option.some.inj same).symm.trans (Option.some.inj target)
    | loopback => exact ⟨rfl, nofun⟩
    | _ => cases handed
  have quiet : (∀ other, trackAggregator other (aggregated config other log) event =
      aggregated config other log) ∧ ∀ other, event.flushCallsTo other = 0 := by
    cases event with
    | accepted | loopedBack => exact ⟨fun _ => rfl, fun _ => rfl⟩
    | _ => cases recorded
  have within : Flushing stack → Flushing (frame :: stack) := by
    rintro ⟨flush, member, same⟩
    exact ⟨flush, List.mem_cons_of_mem _ member, same⟩
  refine ⟨?_, ?_, ?_⟩
  · intro other
    have aligned := batched.aligned other
    rw [aggregated_concat, quiet.1, batches_to_concat]
    unfold Event.batchTo
    rw [recorded]
    dsimp only
    by_cases same : other = dest
    · subst same
      have before : unsent buffers stack other = (buffers other).records := by
        unfold unsent
        rw [free]
      have after : unsent buffers (frame :: stack) other = [] := by
        unfold unsent
        rw [handed_over_by_owner handed]
      rw [before] at aligned
      rw [if_pos rfl, after]
      exact (aligned.hand_over filled due).mono within
    · have kept : unsent buffers (frame :: stack) other = unsent buffers stack other := by
        unfold unsent
        rw [handed_over_by_other target same]
      rw [if_neg (Ne.symm same), List.append_nil, kept]
      exact aligned.mono within
  · intro owner member other sends
    rcases List.mem_cons.mp member with rfl | inStack
    · obtain rfl := beside.2 other sends
      exact due.imp_left within
    · exact (batched.sending owner inStack other sends).imp_left within
  · intro other
    have counted := batched.counted other
    rw [tally_append, tally_cons, tally_nil, quiet.2, batches_to_concat,
      List.length_append]
    unfold Event.batchTo openFlushes at *
    rw [recorded]
    dsimp only
    by_cases same : other = dest
    · subst same
      rw [free] at counted
      rw [handed_over_by_owner handed, if_pos rfl, ← counted]
      rfl
    · rw [handed_over_by_other target same, if_neg (Ne.symm same)]
      exact counted

/-- The end of a send. -/
theorem Batched.release {sent : List Record} {recordCount payloadBytes elapsed : Nat}
    (batched : Batched config buffers (frame :: below) log)
    (free : handedOverBy dest below = none) (lowest : ∀ lower ∈ below, lower.sendsTo = none)
    (handed : frame.handedOver = some (dest, sent)) :
    Batched config (Function.update buffers dest (buffers dest).release) below
      (log ++ [.released dest sent, .flushed dest self recordCount payloadBytes elapsed]) := by
  have target := target_of_handed_over handed
  have ends : ∀ other, batchesTo other
      (log ++ [.released dest sent, .flushed dest self recordCount payloadBytes elapsed]) =
        batchesTo other log := by
    intro other
    unfold batchesTo
    rw [List.flatMap_append]
    exact List.append_nil _
  have call : frame.isFlush = false := by
    cases frame with
    | flushWorker => cases handed
    | _ => rfl
  have within : Flushing (frame :: below) → Flushing below := by
    rintro ⟨flush, member, same⟩
    rcases List.mem_cons.mp member with rfl | inBelow
    · rw [call] at same
      cases same
    · exact ⟨flush, inBelow, same⟩
  refine ⟨?_, ?_, ?_⟩
  · intro other
    have aligned := (batched.aligned other).mono within
    have unread : aggregated config other
        (log ++ [.released dest sent, .flushed dest self recordCount payloadBytes elapsed]) =
          aggregated config other log := by
      unfold aggregated
      rw [List.foldl_append]
      rfl
    have unsentBefore : unsent (Function.update buffers dest (buffers dest).release) below other =
        unsent buffers (frame :: below) other := by
      unfold unsent
      by_cases same : other = dest
      · subst same
        rw [free, handed_over_by_owner handed, Function.update_self]
        rfl
      · rw [handed_over_by_other target same, Function.update_of_ne same]
    rw [unread, ends, unsentBefore]
    exact aligned
  · intro lower member other sends
    rw [lowest lower member] at sends
    cases sends
  · intro other
    have counted := batched.counted other
    rw [tally_append, tally_cons, tally_cons, tally_nil, ends]
    unfold openFlushes at counted ⊢
    simp only [Event.flushCallsTo]
    by_cases same : other = dest
    · subst same
      rw [handed_over_by_owner handed] at counted
      rw [free, if_pos rfl, ← counted]
      rfl
    · rw [handed_over_by_other target same] at counted
      rw [if_neg (Ne.symm same), ← counted]
      omega

/-- The end of a flush that has emptied all buffers. -/
theorem Batched.flush_end (batched : Batched config buffers (frame :: below) log)
    (neutral : frame.handedOver = none) (alone : below = [])
    (empty : ∀ dest, (buffers dest).records = []) :
    Batched config buffers below (log ++ [.flushReturned]) := by
  subst alone
  have nothing : ∀ dest, unsent buffers [frame] dest = [] := by
    intro dest
    unfold unsent
    rw [handed_over_by_neutral neutral]
    exact empty dest
  refine ⟨?_, nofun, ?_⟩
  · intro dest
    have aligned := batched.aligned dest
    have after : unsent buffers ([] : Stack rankCount Worker Record) dest = [] := empty dest
    rw [nothing] at aligned
    rw [aggregated_concat, batches_to_concat, after]
    simp only [Event.batchTo, Event.handOver, List.append_nil]
    exact aligned.flush
  · intro dest
    have counted := batched.counted dest
    unfold openFlushes at counted ⊢
    rw [handed_over_by_neutral neutral] at counted
    rw [tally_append, batches_to_concat]
    simp only [Event.batchTo, Event.handOver, List.append_nil]
    exact counted

/-- `flush_worker` has been at every destination. -/
theorem flush_end_empty {i : Nat} (quiet : QuietStack config buffers (.flushWorker i :: below))
    (finished : rankCount ≤ i) (dest : Fin rankCount) : (buffers dest).records = [] := by
  obtain rfl := quiet.bottom rfl
  obtain ⟨j, bound, reached⟩ := flush_target_reaches config dest
  rcases quiet.fits _ List.mem_cons_self j (by omega) with empty | ⟨owner, member, target⟩
  · rw [← reached]
    exact empty
  · obtain rfl := List.mem_singleton.mp member
    cases target

end Steps

section Calls

variable {thread : ThreadState rankCount Worker Record}

/-- The batches of a whole thread state. -/
def ThreadState.InBatches (config : PhaseConfig rankCount)
    (thread : ThreadState rankCount Worker Record) : Prop :=
  Batched config thread.sendBuffers thread.stack thread.log

theorem flush_dest_batched (batched : thread.InBatches config)
    (free : handedOverBy dest thread.stack = none)
    (due : Flushing thread.stack ∨
      (thread.sendBuffers dest).records.length = config.batchRecords) :
    (thread.flushDest config self dest).InBatches config := by
  rcases flush_dest_cases config self thread dest with ⟨empty, made⟩ | ⟨filled, loops, made⟩ |
    ⟨filled, loops, made⟩
  · rw [made]
    exact batched
  · rw [made]
    apply Batched.push
    · exact batched.hand_over free filled due rfl rfl
    · rfl
    · rfl
  · rw [made]
    refine ⟨?_, ?_, batched.counted⟩
    · intro other
      apply (batched.aligned other).mono
      rintro ⟨flush, member, same⟩
      exact ⟨flush, List.mem_cons_of_mem _ member, same⟩
    · have within : Flushing thread.stack → Flushing
          (.send dest .ready (thread.sendBuffers dest).size thread.profileWorker ::
            thread.stack) := by
        rintro ⟨flush, member, same⟩
        exact ⟨flush, List.mem_cons_of_mem _ member, same⟩
      intro owner member other sends
      rcases List.mem_cons.mp member with rfl | inStack
      · obtain rfl := Option.some.inj sends
        exact due.imp_left within
      · exact (batched.sending owner inStack other sends).imp_left within

theorem after_push_batched {previous : Option Worker} (batched : thread.InBatches config)
    (idle : thread.stack = [])
    (capacity : (thread.sendBuffers dest).capacityRecords = config.batchRecords) :
    (thread.afterPush config self dest previous).InBatches config := by
  rcases after_push_cases config self thread dest previous with ⟨full, made⟩ | ⟨full, made⟩
  · rw [made]
    apply flush_dest_batched
    · exact batched.push rfl rfl
    · rw [ThreadState.with_stack_stack, idle]
      rfl
    · exact .inr (full.trans capacity)
  · rw [made]
    exact batched.neutral_event rfl

/-- A worker in no other call writes through a pointer. -/
theorem write_batched {previous : Option Worker} {record : Record} {pointer : BufferPtr}
    (batched : thread.InBatches config) (idle : thread.stack = [])
    (capacity : (thread.sendBuffers dest).capacityRecords = config.batchRecords)
    (room : (thread.sendBuffers dest).size < config.batchRecords) :
    ((thread.write dest pointer record).afterPush config self dest previous).InBatches config := by
  have opened : Batched config thread.sendBuffers thread.stack thread.log := batched
  rw [idle] at opened
  have written := opened.write room pointer record
  rw [← idle] at written
  have wrote : (thread.write dest pointer record).InBatches config := written
  apply after_push_batched wrote idle
  rw [ThreadState.write_buffers, Function.update_self]
  exact capacity

theorem post_am_batched {target : Int} {record : Record} (batched : thread.InBatches config)
    (disciplined : Disciplined config thread.sendBuffers thread.stack)
    (idle : thread.stack = []) : (thread.postAm config self target record).InBatches config := by
  rcases post_am_cases config self thread target record with ⟨rank, checked, made⟩ | ⟨outside, made⟩
  · rw [made]
    have mayPost := idle_may_post disciplined idle rank
    rcases post_record_cases config self thread rank record with
      ⟨pointer, available, made⟩ | ⟨unavailable, made⟩
    · rw [made]
      have opened : (thread.openScope config self).InBatches config := batched
      exact write_batched opened idle (disciplined.capacity rank) mayPost.2
    · rw [made]
      exact batched.push rfl rfl
  · rw [made]
    exact batched.neutral_event rfl

theorem adopt_packet_batched {record : Record} {previous : Option Worker} {packet : Nat}
    {stale : Nat → Record} (batched : thread.InBatches config) (idle : thread.stack = [])
    (capacity : (thread.sendBuffers dest).capacityRecords = config.batchRecords)
    (empty : (thread.sendBuffers dest).records = []) :
    (thread.adoptPacket config self dest record previous packet stale).InBatches config := by
  have sameRecords : ∀ other, (Function.update thread.sendBuffers dest
      ((thread.sendBuffers dest).adopt packet stale) other).records =
        (thread.sendBuffers other).records := by
    intro other
    by_cases same : other = dest
    · rw [same, Function.update_self, empty]
      exact SendBuffer.adopt_records_of_empty _ _ _ empty
    · rw [Function.update_of_ne same]
  have adopted : (thread.setBuffer dest
      ((thread.sendBuffers dest).adopt packet stale)).InBatches config := by
    refine ⟨?_, ?_, batched.counted⟩
    · intro other
      have aligned := batched.aligned other
      unfold unsent at aligned ⊢
      rw [ThreadState.set_buffer_buffers, sameRecords]
      exact aligned
    · intro frame member other sends
      rw [ThreadState.set_buffer_buffers, sameRecords]
      exact batched.sending frame member other sends
  have noted : ((thread.setBuffer dest ((thread.sendBuffers dest).adopt packet stale)).emit
      [.gotUpacket packet]).InBatches config := adopted.neutral_event rfl
  unfold ThreadState.adoptPacket
  apply write_batched noted idle
  · rw [ThreadState.emit_buffers, ThreadState.set_buffer_buffers, Function.update_self]
    exact capacity
  · rw [ThreadState.emit_buffers, ThreadState.set_buffer_buffers, SendBuffer.size, sameRecords,
      empty]
    exact config.batch_positive

end Calls

theorem initial_batched :
    (ThreadState.initial config : ThreadState rankCount Worker Record).InBatches config where
  aligned _ := .start config.batch_positive
  sending := nofun
  counted _ := rfl

variable {thread thread' : ThreadState rankCount Worker Record} {action : Action rankCount Record}

theorem step_batched (step : ThreadStep config self thread action thread')
    (silent : QuietAction action)
    (disciplined : Disciplined config thread.sendBuffers thread.stack)
    (quiet : QuietStack config thread.sendBuffers thread.stack)
    (batched : thread.InBatches config) : thread'.InBatches config := by
  have opened : Batched config thread.sendBuffers thread.stack thread.log := batched
  -- under a send there is only the call of the worker that it is part of
  have lowest : ∀ {top : Frame rankCount Worker Record} {below : Stack rankCount Worker Record},
      thread.stack = top :: below → top.level = 1 → ∀ lower ∈ below, lower.sendsTo = none := by
    intro top below stack level lower member
    have ordered := quiet.ordered
    rw [stack] at ordered
    have beneath := (List.pairwise_cons.mp ordered).1 lower member
    rw [level] at beneath
    cases lower with
    | send => exact absurd beneath (Nat.lt_irrefl 1)
    | _ => rfl
  cases step with
  | postAm target record worker owner idle => exact post_am_batched batched disciplined idle
  | handlerPost => exact silent.elim
  | flush worker owner idle =>
      rw [idle] at opened
      exact opened.push rfl rfl
  | progress worker owner idle =>
      rw [idle] at opened
      have entered : Batched config thread.sendBuffers [.progressWorker thread.profileWorker]
          thread.log := opened.push rfl rfl
      exact entered.push rfl rfl
  | collectiveProgress control idle =>
      rw [idle] at opened
      exact opened.push rfl rfl
  | upacketNull dest record previous below top =>
      rw [top] at opened
      exact opened.push rfl rfl
  | upacket dest record previous below packet stale top =>
      have fits := quiet.fits (.push dest record previous) (by rw [top]; exact List.mem_cons_self)
      have resting := quiet
      rw [top] at opened resting
      obtain rfl := resting.bottom rfl
      have popped : (thread.withStack []).InBatches config := opened.pop rfl rfl
      exact adopt_packet_batched popped rfl (disciplined.capacity dest) fits
  | retry dest recordCount previous below top =>
      rw [top] at opened
      have waiting : Batched config thread.sendBuffers
          (.send dest .retry recordCount previous :: below) thread.log :=
        opened.replace_top _ rfl rfl nofun rfl
      have progressing : Batched config thread.sendBuffers
          (.progress :: .send dest .retry recordCount previous :: below) thread.log :=
        waiting.push rfl rfl
      exact progressing.neutral_event rfl
  | accept dest recordCount previous below top =>
      have fits := quiet.fits (.send dest .ready recordCount previous)
        (by rw [top]; exact List.mem_cons_self)
      rw [top] at opened disciplined
      have free : handedOverBy dest below = none := disciplined.toLayered.free_below (.inl rfl)
      have popped : Batched config thread.sendBuffers below thread.log := opened.pop rfl rfl
      have due : Flushing below ∨
          (thread.sendBuffers dest).records.length = config.batchRecords := by
        rcases opened.sending _ List.mem_cons_self dest rfl with ⟨flush, member, same⟩ | full
        · rcases List.mem_cons.mp member with rfl | inBelow
          · cases same
          · exact .inl ⟨flush, inBelow, same⟩
        · exact .inr full
      have accepted : Batched config thread.sendBuffers
          (.send dest (.accepted (thread.sendBuffers dest).records) recordCount previous :: below)
          (thread.log ++
            [.accepted dest (thread.sendBuffers dest).records (thread.sendBuffers dest).buffer]) :=
        popped.hand_over free fits.2.1 due rfl rfl
      exact accepted.push rfl rfl
  | deliver source records below top =>
      unfold ThreadState.handleIncomingAm
      split
      · have entered : Batched config thread.sendBuffers (.incoming :: thread.stack) thread.log :=
          opened.push rfl rfl
        exact (entered.push rfl rfl).neutral_event rfl
      · have stopped : Batched config thread.sendBuffers (.aborted :: thread.stack) thread.log :=
          opened.push rfl rfl
        exact stopped.neutral_event rfl
  | progressEnd below top =>
      rw [top] at opened
      exact opened.pop rfl rfl
  | handlerReturn source loopback captured recordCount pending record below top =>
      rw [top] at opened
      have returned : Batched config thread.sendBuffers
          (.receive source loopback captured recordCount pending none :: below) thread.log :=
        opened.replace_top _ rfl rfl nofun rfl
      exact returned.neutral_event rfl
  | postReturn elapsed previous below top =>
      rw [top] at opened
      have popped : Batched config thread.sendBuffers below thread.log := opened.pop rfl rfl
      exact popped.neutral_event rfl
  | flushNext elapsed i below top more =>
      rw [top] at opened disciplined
      have free : handedOverBy (config.flushTarget i) below = none :=
        disciplined.toLayered.free_below (.inr ⟨i, rfl⟩)
      have advanced : (thread.withStack (.flushWorker (i + 1) :: below)).InBatches config :=
        opened.replace_top _ rfl rfl (fun _ => rfl) rfl
      exact flush_dest_batched advanced free (.inl ⟨_, List.mem_cons_self, rfl⟩)
  | flushEnd elapsed i below top finished =>
      rw [top] at opened quiet
      have alone := quiet.bottom rfl
      exact opened.flush_end rfl alone (flush_end_empty quiet finished)
  | sendAgain elapsed dest recordCount previous below top =>
      rw [top] at opened
      exact opened.replace_top _ rfl rfl nofun rfl
  | sendRelease elapsed dest sent recordCount previous below top =>
      have beneath := lowest top rfl
      rw [top] at opened disciplined
      exact opened.release (disciplined.toLayered.free_below (.inl rfl)) beneath rfl
  | loopbackRelease elapsed dest sent recordCount previous below top =>
      have beneath := lowest top rfl
      rw [top] at opened disciplined
      have free : handedOverBy dest below = none := disciplined.toLayered.free_below (.inl rfl)
      unfold ThreadState.returnPacket
      split
      · have returned : Batched config thread.sendBuffers
            (.loopback dest sent recordCount previous :: below)
            (thread.log ++ [.putUpacket (thread.sendBuffers dest).buffer]) :=
          opened.neutral_event rfl
        exact returned.release free beneath rfl
      · exact opened.release free beneath rfl
  | progressReturn elapsed previous below top =>
      rw [top] at opened
      have popped : Batched config thread.sendBuffers below thread.log := opened.pop rfl rfl
      exact popped.neutral_event rfl
  | invoke elapsed source loopback captured recordCount record pending below top =>
      rw [top] at opened
      have invoked : Batched config thread.sendBuffers
          (.receive source loopback captured recordCount pending (some record) :: below)
          thread.log := opened.replace_top _ rfl rfl nofun rfl
      exact invoked.neutral_event rfl
  | receiveEnd elapsed source loopback captured recordCount below top =>
      rw [top] at opened
      have popped : Batched config thread.sendBuffers below thread.log := opened.pop rfl rfl
      exact popped.neutral_event rfl
  | incomingEnd elapsed below top =>
      rw [top] at opened
      have popped : Batched config thread.sendBuffers below thread.log := opened.pop rfl rfl
      exact popped.neutral_event rfl

theorem reachable_batched
    (reached : (threadSystem config self).Reachable (fun _ => QuietAction) (.initial config)
      thread) : thread.InBatches config := by
  apply reached.invariant initial_batched
  intro before after action prior batched silent stepped
  exact step_batched (thread_step_cases stepped) silent
    (reachable_disciplined (reachable_safe prior)) (reachable_quiet prior).stack batched

/-- Outside its calls a thread has sent the batches that an aggregator emits for its posts and
flushes, has the rest buffered, and has measured one flush for each batch. -/
theorem batches_refine_aggregator
    (reached : (threadSystem config self).Reachable (fun _ => QuietAction) (.initial config)
      thread) (idle : thread.stack = []) (dest : Fin rankCount) :
    batchesTo dest thread.log = (aggregated config dest thread.log).emitted ∧
      (thread.sendBuffers dest).records = (aggregated config dest thread.log).held ∧
        tally (Event.flushCallsTo dest) thread.log = (batchesTo dest thread.log).length := by
  have disciplined := reachable_disciplined (reachable_safe reached)
  have batched : Batched config thread.sendBuffers thread.stack thread.log :=
    reachable_batched reached
  have mayPost := idle_may_post disciplined idle dest
  rw [idle] at batched
  have aligned := batched.aligned dest
  have counted := batched.counted dest
  obtain ⟨sent, held⟩ := aligned.caught_up not_flushing_nil mayPost.2
  exact ⟨sent, held, counted⟩

section Runs

/-- Two records to a message, and no loopback. -/
private def pairs (rank : Fin 1) : PhaseConfig 1 where
  rank := rank
  options := { useLoopback := false, useUpacket := false, batchRecords := 2 }
  maxBcopySize := 8
  recordSize := 4
  batchRecords := 2
  profilingEnabled := false
  chosen := by decide

/-- Three posts and a flush. LCI refuses the full batch once. -/
private def threeCalls : List (Action 1 Nat) :=
  [.postAm 0 7, .postAm 0 8, .postAmAnswer true, .progressEnd, .resume 0, .postAmAnswer false,
    .progressEnd, .resume 0, .resume 0, .postAm 0 9, .flush, .resume 0, .postAmAnswer false,
    .progressEnd, .resume 0, .resume 0]

theorem batches_refine_aggregator_three :
    ∃ thread : ThreadState 1 Unit Nat,
      (threadSystem (pairs 0) (some ())).run (.initial (pairs 0)) threeCalls = some thread ∧
        (aggregated (pairs 0) 0 thread.log).emitted = [[7, 8], [9]] ∧
        batchesTo 0 thread.log = (aggregated (pairs 0) 0 thread.log).emitted := by
  obtain ⟨thread, executed, idle, emitted⟩ : ∃ thread : ThreadState 1 Unit Nat,
      (threadSystem (pairs 0) (some ())).run (.initial (pairs 0)) threeCalls = some thread ∧
        thread.stack = [] ∧ (aggregated (pairs 0) 0 thread.log).emitted = [[7, 8], [9]] :=
    ⟨_, rfl, rfl, rfl⟩
  refine ⟨thread, executed, emitted, ?_⟩
  have quiet : ∀ before : ThreadState 1 Unit Nat, ∀ action ∈ threeCalls, QuietAction action := by
    intro before
    simp [threeCalls, QuietAction]
  exact (batches_refine_aggregator (TransitionSystem.run_reachable executed
    (TransitionSystem.permitted_run_of_all quiet)) idle 0).1

end Runs

end IntegerSortLci.Runtime
