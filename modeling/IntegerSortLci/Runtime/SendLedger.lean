import IntegerSortLci.Runtime.BufferDiscipline
import IntegerSortLci.Foundations.EventLog

/-!
# What a thread's log says about its buffers

The log alone tells which records were pushed to a destination, which batches
were handed over for it and which releases followed. `Accounted` ties that
reading to the buffers and the call stack: the records pushed since the last
release are the ones in the buffer, and everything posted is what was sent
followed by what is still unsent, in order.
-/

namespace IntegerSortLci.Runtime

open Foundations

set_option autoImplicit false

variable {rankCount : Nat} {Worker Record : Type}

namespace Event

/-- The destination whose buffer an event fills, hands over or releases. -/
def buffered : Event rankCount Worker Record → Option (Fin rankCount)
  | .posted dest _ _ _ => some dest
  | .accepted dest _ _ => some dest
  | .loopedBack dest _ => some dest
  | .released dest _ => some dest
  | _ => none

def handOver : Event rankCount Worker Record → Option (Fin rankCount × List Record)
  | .accepted dest records _ => some (dest, records)
  | .loopedBack dest records => some (dest, records)
  | _ => none

def postedTo (dest : Fin rankCount) : Event rankCount Worker Record → List Record
  | .posted other record _ _ => if other = dest then [record] else []
  | _ => []

def sentTo (dest : Fin rankCount) (event : Event rankCount Worker Record) : List Record :=
  match event.handOver with
  | some (other, records) => if other = dest then records else []
  | none => []

end Event

def postedTo (dest : Fin rankCount) (log : Log rankCount Worker Record) : List Record :=
  log.flatMap (Event.postedTo dest)

def sentTo (dest : Fin rankCount) (log : Log rankCount Worker Record) : List Record :=
  log.flatMap (Event.sentTo dest)

/-- One event's effect on the records pushed to `dest` since its last release. -/
def trackPushed (dest : Fin rankCount) (pushed : List Record) :
    Event rankCount Worker Record → List Record
  | .posted other record _ _ => if other = dest then pushed ++ [record] else pushed
  | .released other _ => if other = dest then [] else pushed
  | _ => pushed

/-- One event's effect on the batch handed over for `dest` since its last release. -/
def trackHandOver (dest : Fin rankCount) (batch : Option (List Record)) :
    Event rankCount Worker Record → Option (List Record)
  | .accepted other records _ => if other = dest then some records else batch
  | .loopedBack other records => if other = dest then some records else batch
  | .released other _ => if other = dest then none else batch
  | _ => batch

def pushedSinceRelease (dest : Fin rankCount) (log : Log rankCount Worker Record) : List Record :=
  log.foldl (trackPushed dest) []

def handedOverIn (dest : Fin rankCount) (log : Log rankCount Worker Record) :
    Option (List Record) :=
  log.foldl (trackHandOver dest) none

/-- What is in the buffer for `dest` and not part of a handed-over batch. -/
def unsent (buffers : Buffers rankCount Record) (stack : Stack rankCount Worker Record)
    (dest : Fin rankCount) : List Record :=
  match handedOverBy dest stack with
  | none => (buffers dest).records
  | some _ => []

/-- A push writes inside the first `batch_records` slots of a buffer that is not
handed over, and a release drops exactly the batch that was handed over. -/
def RecordKept (config : PhaseConfig rankCount) (before : Log rankCount Worker Record) :
    Event rankCount Worker Record → Prop
  | .posted dest _ recordCount _ =>
      recordCount < config.batchRecords ∧ handedOverIn dest before = none
  | .released dest sent =>
      handedOverIn dest before = some sent ∧ pushedSinceRelease dest before = sent
  | _ => True

structure Accounted (config : PhaseConfig rankCount) (buffers : Buffers rankCount Record)
    (stack : Stack rankCount Worker Record) (log : Log rankCount Worker Record) : Prop where
  pushed : ∀ dest, pushedSinceRelease dest log = (buffers dest).records
  handed : ∀ dest, handedOverIn dest log = handedOverBy dest stack
  posted : ∀ dest, postedTo dest log = sentTo dest log ++ unsent buffers stack dest
  kept : EveryEvent (RecordKept config) log

variable {config : PhaseConfig rankCount} {self : Option Worker}
variable {buffers : Buffers rankCount Record} {stack below : Stack rankCount Worker Record}
variable {log : Log rankCount Worker Record} {event : Event rankCount Worker Record}
variable {frame : Frame rankCount Worker Record} {dest other : Fin rankCount}

section Logs

@[simp] theorem posted_to_append (first second : Log rankCount Worker Record) :
    postedTo dest (first ++ second) = postedTo dest first ++ postedTo dest second :=
  List.flatMap_append

@[simp] theorem sent_to_append (first second : Log rankCount Worker Record) :
    sentTo dest (first ++ second) = sentTo dest first ++ sentTo dest second :=
  List.flatMap_append

@[simp] theorem posted_to_single : postedTo dest [event] = event.postedTo dest :=
  List.append_nil _

@[simp] theorem sent_to_single : sentTo dest [event] = event.sentTo dest :=
  List.append_nil _

theorem pushed_concat :
    pushedSinceRelease dest (log ++ [event]) =
      trackPushed dest (pushedSinceRelease dest log) event := by
  simp [pushedSinceRelease]

theorem handed_over_concat :
    handedOverIn dest (log ++ [event]) = trackHandOver dest (handedOverIn dest log) event := by
  simp [handedOverIn]

/-- An event about another buffer, or about none, changes nothing here. -/
theorem track_other (elsewhere : event.buffered ≠ some dest) (pushed : List Record)
    (batch : Option (List Record)) :
    trackPushed dest pushed event = pushed ∧ trackHandOver dest batch event = batch ∧
      event.postedTo dest = [] ∧ event.sentTo dest = [] := by
  cases event <;>
    simp_all [Event.buffered, trackPushed, trackHandOver, Event.postedTo, Event.sentTo,
      Event.handOver]

end Logs

section Ledgers

theorem Accounted.neutral_event (accounted : Accounted config buffers stack log)
    (neutral : event.buffered = none) : Accounted config buffers stack (log ++ [event]) := by
  have same : ∀ dest, event.buffered ≠ some dest := by
    intro dest
    rw [neutral]
    simp
  refine ⟨?_, ?_, ?_, ?_⟩
  · intro dest
    rw [pushed_concat, (track_other (same dest) _ none).1]
    exact accounted.pushed dest
  · intro dest
    rw [handed_over_concat, (track_other (same dest) [] _).2.1]
    exact accounted.handed dest
  · intro dest
    obtain ⟨_, _, noPost, noSend⟩ := track_other (same dest) [] none
    rw [posted_to_append, sent_to_append, posted_to_single, sent_to_single, noPost, noSend,
      List.append_nil, List.append_nil]
    exact accounted.posted dest
  · rw [every_event_concat]
    refine ⟨accounted.kept, ?_⟩
    cases event <;> trivial

/-- The ledger sees the call stack only through the batches handed over. -/
theorem Accounted.restack (accounted : Accounted config buffers stack log)
    {stack' : Stack rankCount Worker Record}
    (same : ∀ dest, handedOverBy dest stack' = handedOverBy dest stack) :
    Accounted config buffers stack' log := by
  refine ⟨accounted.pushed, ?_, ?_, accounted.kept⟩
  · intro dest
    rw [same]
    exact accounted.handed dest
  · intro dest
    rw [unsent, same]
    exact accounted.posted dest

theorem Accounted.push (accounted : Accounted config buffers stack log)
    (neutral : frame.handedOver = none) : Accounted config buffers (frame :: stack) log :=
  accounted.restack fun _ => handed_over_by_neutral neutral

theorem Accounted.pop (accounted : Accounted config buffers (frame :: below) log)
    (neutral : frame.handedOver = none) : Accounted config buffers below log :=
  accounted.restack fun _ => (handed_over_by_neutral neutral).symm

/-- An event that changes one buffer as the log says keeps the pushed records of all. -/
theorem Accounted.pushed_update (accounted : Accounted config buffers stack log)
    {buffer : SendBuffer Record}
    (own : trackPushed dest (buffers dest).records event = buffer.records)
    (elsewhere : ∀ other, dest ≠ other → ∀ pushed, trackPushed other pushed event = pushed) :
    ∀ other, pushedSinceRelease other (log ++ [event]) =
      (Function.update buffers dest buffer other).records := by
  intro other
  rw [pushed_concat, accounted.pushed other]
  by_cases same : dest = other
  · subst same
    rw [Function.update_self, own]
  · rw [Function.update_of_ne (Ne.symm same), elsewhere other same]

theorem Accounted.write (accounted : Accounted config buffers stack log)
    (free : handedOverBy dest stack = none)
    (room : (buffers dest).size < config.batchRecords) (pointer : BufferPtr) (record : Record) :
    Accounted config (Function.update buffers dest ((buffers dest).append pointer record)) stack
      (log ++ [.posted dest record (buffers dest).size pointer]) := by
  refine ⟨?_, ?_, ?_, ?_⟩
  · apply accounted.pushed_update
    · simp [trackPushed]
    · intro other apart pushed
      simp [trackPushed, apart]
  · intro other
    rw [handed_over_concat]
    exact accounted.handed other
  · intro other
    rw [posted_to_append, sent_to_append, posted_to_single, sent_to_single, accounted.posted other]
    by_cases same : dest = other
    · subst same
      simp [unsent, free, Event.postedTo, Event.sentTo, Event.handOver]
    · simp [unsent, Event.postedTo, Event.sentTo, Event.handOver, same, Ne.symm same]
  · rw [every_event_concat]
    refine ⟨accounted.kept, room, ?_⟩
    rw [accounted.handed dest, free]

theorem Accounted.hand_over (accounted : Accounted config buffers stack log)
    (free : handedOverBy dest stack = none)
    (handed : frame.handedOver = some (dest, (buffers dest).records))
    (recorded : event.handOver = some (dest, (buffers dest).records)) :
    Accounted config buffers (frame :: stack) (log ++ [event]) := by
  have target := target_of_handed_over handed
  have about : event.buffered = some dest := by
    cases event <;> simp_all [Event.handOver, Event.buffered]
  refine ⟨?_, ?_, ?_, ?_⟩
  · intro other
    rw [pushed_concat, accounted.pushed other]
    cases event <;> first | rfl | cases recorded
  · intro other
    rw [handed_over_concat]
    by_cases same : other = dest
    · subst same
      rw [handed_over_by_owner handed]
      cases event <;> simp_all [Event.handOver, trackHandOver]
    · rw [handed_over_by_other target same, ← accounted.handed other]
      refine (track_other ?_ [] _).2.1
      rw [about]
      exact fun equal => same (Option.some.inj equal).symm
  · intro other
    rw [posted_to_append, sent_to_append, posted_to_single, sent_to_single, accounted.posted other]
    have noPost : event.postedTo other = [] := by
      cases event <;> first | rfl | cases recorded
    by_cases same : other = dest
    · subst same
      simp [unsent, free, handed_over_by_owner handed, noPost, Event.sentTo, recorded]
    · simp [unsent, handed_over_by_other target same, noPost, Event.sentTo, recorded, Ne.symm same]
  · rw [every_event_concat]
    refine ⟨accounted.kept, ?_⟩
    cases event <;> trivial

/-- The end of a send, from the state where its frame is on top. -/
theorem Accounted.release {sent : List Record}
    (accounted : Accounted config buffers (frame :: below) log)
    (layered : Layered config buffers (frame :: below))
    (handed : frame.handedOver = some (dest, sent)) :
    Accounted config (Function.update buffers dest (buffers dest).release) below
      (log ++ [.released dest sent]) := by
  have target := target_of_handed_over handed
  have free : handedOverBy dest below = none := layered.free_below (.inl target)
  have owned : handedOverBy dest (frame :: below) = some sent := handed_over_by_owner handed
  refine ⟨?_, ?_, ?_, ?_⟩
  · apply accounted.pushed_update
    · simp [trackPushed]
    · intro other apart pushed
      simp [trackPushed, apart]
  · intro other
    rw [handed_over_concat, accounted.handed other]
    by_cases same : dest = other
    · subst same
      simp [trackHandOver, free]
    · simp [trackHandOver, same, handed_over_by_other target (Ne.symm same)]
  · intro other
    rw [posted_to_append, sent_to_append, posted_to_single, sent_to_single, accounted.posted other]
    by_cases same : dest = other
    · subst same
      simp [unsent, free, owned, Event.postedTo, Event.sentTo, Event.handOver]
    · simp [unsent, handed_over_by_other target (Ne.symm same),
        Function.update_of_ne (Ne.symm same), Event.postedTo, Event.sentTo, Event.handOver]
  · rw [every_event_concat]
    refine ⟨accounted.kept, ?_, ?_⟩
    · rw [accounted.handed dest, owned]
    · rw [accounted.pushed dest, layered.held dest sent owned]

end Ledgers

section Calls

variable {thread : ThreadState rankCount Worker Record}

/-- The ledger of a whole thread state. -/
def ThreadState.Ledger (config : PhaseConfig rankCount)
    (thread : ThreadState rankCount Worker Record) : Prop :=
  Accounted config thread.sendBuffers thread.stack thread.log

theorem flush_dest_ledger (ledger : thread.Ledger config)
    (free : handedOverBy dest thread.stack = none) :
    (thread.flushDest config self dest).Ledger config := by
  rcases flush_dest_cases config self thread dest with ⟨empty, made⟩ | ⟨filled, loops, made⟩ |
    ⟨filled, loops, made⟩
  · rw [made]
    exact ledger
  · rw [made]
    apply Accounted.push
    · exact ledger.hand_over free rfl rfl
    · rfl
  · rw [made]
    exact ledger.push rfl

theorem after_push_ledger {previous : Option Worker} (ledger : thread.Ledger config)
    (free : handedOverBy dest thread.stack = none) :
    (thread.afterPush config self dest previous).Ledger config := by
  rcases after_push_cases config self thread dest previous with ⟨full, made⟩ | ⟨full, made⟩
  · rw [made]
    exact flush_dest_ledger (ledger.push rfl) free
  · rw [made]
    exact ledger.neutral_event rfl

theorem post_am_ledger {dest : Int} {record : Record} (ledger : thread.Ledger config)
    (mayPost : ∀ rank, checkedDestination rankCount dest = some rank → MayPost config thread rank) :
    (thread.postAm config self dest record).Ledger config := by
  rcases post_am_cases config self thread dest record with ⟨rank, checked, made⟩ | ⟨outside, made⟩
  · rw [made]
    obtain ⟨free, room⟩ := mayPost rank checked
    rcases post_record_cases config self thread rank record with
      ⟨pointer, available, made⟩ | ⟨unavailable, made⟩
    · rw [made]
      exact after_push_ledger (ledger.write free room _ record) free
    · rw [made]
      exact ledger.push rfl
  · rw [made]
    exact ledger.neutral_event rfl

theorem adopt_packet_ledger {record : Record} {previous : Option Worker} {packet : Nat}
    {stale : Nat → Record} (ledger : thread.Ledger config)
    (free : handedOverBy dest thread.stack = none)
    (empty : (thread.sendBuffers dest).records = []) :
    (thread.adoptPacket config self dest record previous packet stale).Ledger config := by
  have adopted : Accounted config
      (Function.update thread.sendBuffers dest ((thread.sendBuffers dest).adopt packet stale))
      thread.stack thread.log := by
    have sameRecords : ∀ other, (Function.update thread.sendBuffers dest
        ((thread.sendBuffers dest).adopt packet stale) other).records =
          (thread.sendBuffers other).records := by
      intro other
      by_cases same : other = dest
      · rw [same, Function.update_self, empty]
        exact SendBuffer.adopt_records_of_empty _ _ _ empty
      · rw [Function.update_of_ne same]
    refine ⟨?_, ledger.handed, ?_, ledger.kept⟩
    · intro other
      rw [sameRecords]
      exact ledger.pushed other
    · intro other
      rw [unsent, sameRecords]
      exact ledger.posted other
  have counted : Accounted config
      (Function.update thread.sendBuffers dest ((thread.sendBuffers dest).adopt packet stale))
      thread.stack (thread.log ++ [.gotUpacket packet]) := adopted.neutral_event rfl
  unfold ThreadState.adoptPacket
  apply after_push_ledger
  · apply Accounted.write counted free
    have positive := config.batch_positive
    simpa [SendBuffer.size, empty] using positive
  · exact free

theorem finish_flush_ledger {sent : List Record} {recordCount elapsed : Nat}
    {previous : Option Worker}
    (accounted : Accounted config thread.sendBuffers (frame :: below) thread.log)
    (layered : Layered config thread.sendBuffers (frame :: below))
    (handed : frame.handedOver = some (dest, sent)) :
    ((thread.withStack below).finishFlush config self dest sent recordCount previous
      elapsed).Ledger config := by
  have released := accounted.release layered handed
  have flushed : Accounted config
      (Function.update thread.sendBuffers dest (thread.sendBuffers dest).release) below
      (thread.log ++ [.released dest sent] ++
        [.flushed dest self recordCount (recordCount * config.recordSize) elapsed]) :=
    released.neutral_event rfl
  rw [List.append_assoc] at flushed
  exact flushed

end Calls

theorem initial_ledger :
    (ThreadState.initial config : ThreadState rankCount Worker Record).Ledger config where
  pushed _ := rfl
  handed _ := rfl
  posted _ := rfl
  kept := every_event_nil _

variable {thread thread' : ThreadState rankCount Worker Record} {action : Action rankCount Record}

theorem step_ledger (step : ThreadStep config self thread action thread')
    (safe : SafeAction config thread action)
    (disciplined : Disciplined config thread.sendBuffers thread.stack)
    (ledger : thread.Ledger config) : thread'.Ledger config := by
  have opened := ledger
  unfold ThreadState.Ledger at opened
  cases step with
  | postAm dest record worker owner idle =>
      exact post_am_ledger ledger fun rank _ => idle_may_post disciplined idle rank
  | handlerPost dest record current worker owner source loopback captured recordCount pending
      below top =>
      exact post_am_ledger ledger safe
  | flush worker owner idle =>
      rw [idle] at opened
      exact opened.push rfl
  | progress worker owner idle =>
      rw [idle] at opened
      have entered : Accounted config thread.sendBuffers
          [.progressWorker thread.profileWorker] thread.log := opened.push rfl
      exact entered.push rfl
  | collectiveProgress control idle =>
      rw [idle] at opened
      exact opened.push rfl
  | upacketNull dest record previous below top =>
      rw [top] at opened
      exact opened.push rfl
  | upacket dest record previous below packet stale top =>
      have empty := safe dest record previous below top
      rw [top] at opened disciplined
      have free : handedOverBy dest below = none := disciplined.toLayered.free_below (.inl rfl)
      have popped : Accounted config thread.sendBuffers below thread.log := opened.pop rfl
      have adopting : (thread.withStack below).Ledger config := popped
      exact adopt_packet_ledger adopting free empty
  | retry dest recordCount previous below top =>
      rw [top] at opened
      have waiting : Accounted config thread.sendBuffers
          (.send dest .retry recordCount previous :: below) thread.log := (opened.pop rfl).push rfl
      have progressing : Accounted config thread.sendBuffers
          (.progress :: .send dest .retry recordCount previous :: below) thread.log :=
        waiting.push rfl
      exact progressing.neutral_event rfl
  | accept dest recordCount previous below top =>
      rw [top] at opened disciplined
      have free : handedOverBy dest below = none := disciplined.toLayered.free_below (.inl rfl)
      have popped : Accounted config thread.sendBuffers below thread.log := opened.pop rfl
      have accepted : Accounted config thread.sendBuffers
          (.send dest (.accepted (thread.sendBuffers dest).records) recordCount previous :: below)
          (thread.log ++
            [.accepted dest (thread.sendBuffers dest).records (thread.sendBuffers dest).buffer]) :=
        popped.hand_over free rfl rfl
      exact accepted.push rfl
  | deliver source records below top =>
      unfold ThreadState.handleIncomingAm
      split
      · have entered : Accounted config thread.sendBuffers (.incoming :: thread.stack) thread.log :=
          opened.push rfl
        exact (entered.push rfl).neutral_event rfl
      · have stopped : Accounted config thread.sendBuffers (.aborted :: thread.stack) thread.log :=
          opened.push rfl
        exact stopped.neutral_event rfl
  | progressEnd below top =>
      rw [top] at opened
      exact opened.pop rfl
  | handlerReturn source loopback captured recordCount pending record below top =>
      rw [top] at opened
      have returned : Accounted config thread.sendBuffers
          (.receive source loopback captured recordCount pending none :: below) thread.log :=
        (opened.pop rfl).push rfl
      exact returned.neutral_event rfl
  | postReturn elapsed previous below top =>
      rw [top] at opened
      have popped : Accounted config thread.sendBuffers below thread.log := opened.pop rfl
      exact popped.neutral_event rfl
  | flushNext elapsed i below top more =>
      rw [top] at opened disciplined
      have free : handedOverBy (config.flushTarget i) below = none :=
        disciplined.toLayered.free_below (.inr ⟨i, rfl⟩)
      have advanced : (thread.withStack (.flushWorker (i + 1) :: below)).Ledger config :=
        (opened.pop rfl).push rfl
      exact flush_dest_ledger advanced free
  | flushEnd elapsed i below top finished =>
      rw [top] at opened
      have popped : Accounted config thread.sendBuffers below thread.log := opened.pop rfl
      exact popped.neutral_event rfl
  | sendAgain elapsed dest recordCount previous below top =>
      rw [top] at opened
      exact (opened.pop rfl).push rfl
  | sendRelease elapsed dest sent recordCount previous below top =>
      rw [top] at opened disciplined
      exact finish_flush_ledger opened disciplined.toLayered rfl
  | loopbackRelease elapsed dest sent recordCount previous below top =>
      rw [top] at opened disciplined
      have returned : Accounted config (thread.returnPacket config dest).sendBuffers
          (.loopback dest sent recordCount previous :: below)
          (thread.returnPacket config dest).log := by
        unfold ThreadState.returnPacket
        split
        · exact opened.neutral_event rfl
        · exact opened
      apply finish_flush_ledger returned
      · rw [ThreadState.return_packet_buffers]
        exact disciplined.toLayered
      · rfl
  | progressReturn elapsed previous below top =>
      rw [top] at opened
      have popped : Accounted config thread.sendBuffers below thread.log := opened.pop rfl
      exact popped.neutral_event rfl
  | invoke elapsed source loopback captured recordCount record pending below top =>
      rw [top] at opened
      have invoked : Accounted config thread.sendBuffers
          (.receive source loopback captured recordCount pending (some record) :: below)
          thread.log := (opened.pop rfl).push rfl
      exact invoked.neutral_event rfl
  | receiveEnd elapsed source loopback captured recordCount below top =>
      rw [top] at opened
      have popped : Accounted config thread.sendBuffers below thread.log := opened.pop rfl
      exact popped.neutral_event rfl
  | incomingEnd elapsed below top =>
      rw [top] at opened
      have popped : Accounted config thread.sendBuffers below thread.log := opened.pop rfl
      exact popped.neutral_event rfl

theorem reachable_ledger
    (reached : (threadSystem config self).Reachable (SafeAction config) (.initial config) thread) :
    thread.Ledger config := by
  have both : Disciplined config thread.sendBuffers thread.stack ∧ thread.Ledger config := by
    apply reached.invariant
    · exact ⟨initial_disciplined, initial_ledger⟩
    · intro before after action _ good safe stepped
      have step := thread_step_cases stepped
      exact ⟨step_disciplined step safe good.1, step_ledger step safe good.1 good.2⟩
  exact both.2

end IntegerSortLci.Runtime
