import IntegerSortLci.Runtime.SendBuffer
import IntegerSortLci.Foundations.TransitionSystem
import Mathlib.Logic.Function.Basic

/-!
# One thread inside an active-message phase

The call stack of `post_record`, `flush_worker`, `flush_dest`,
`post_send_buffer`, `progress_worker`, `handle_incoming_am` and
`receive_message_impl`, cut at every point where LCI can answer, a message can
be delivered or a handler can run. A frame is the suspended rest of one call,
innermost first. Every thread has its own aggregation buffers (the worker's
`WorkerBuffers`) and its own `current_profile_worker`; what threads share
(`recv_count_`, the profile counters, the application's memory) is touched only
through the events a step emits, in `PhaseState`.

`self` is the worker index of the thread, and `none` for the thread that runs
the runtime's collectives, which progresses LCI outside any worker's call.
-/

namespace IntegerSortLci.Runtime

open Foundations

set_option autoImplicit false

/-- What a `TypedAmRuntimeState` fixes for the phase on one rank. `chosen` is
the constructor's own check: no state exists for rejected options. -/
structure PhaseConfig (rankCount : Nat) where
  rank : Fin rankCount
  options : AmOptions
  maxBcopySize : Nat
  recordSize : Nat
  batchRecords : Nat
  profilingEnabled : Bool
  chosen : chooseBatchRecords maxBcopySize recordSize options = .ok batchRecords

/-- The bounds check of `post_record`. -/
def checkedDestination (rankCount : Nat) (dest : Int) : Option (Fin rankCount) :=
  if bounded : 0 ≤ dest ∧ dest < rankCount then
    some ⟨dest.toNat, by omega⟩
  else none

namespace PhaseConfig

variable {rankCount : Nat} (config : PhaseConfig rankCount)

theorem batch_positive : 0 < config.batchRecords := (chosen_batch_bounds config.chosen).1

theorem record_size_positive : 0 < config.recordSize := by
  have bounds := chosen_batch_bounds config.chosen
  rcases Nat.eq_zero_or_pos config.recordSize with zero | positive
  · rw [zero, Nat.div_zero] at bounds
    omega
  · exact positive

/-- `byte_offset(fallback_storage, dest_rank * bytes_per_buffer_)`, and null in
packet mode. -/
def fallbackBuffer (dest : Fin rankCount) : Option BufferPtr :=
  if config.options.useUpacket then none
  else some (.fallback (dest.val * messageBytes config.recordSize config.batchRecords))

/-- The smallest batches: one four-byte record to a message. -/
def singleRecord (rank : Fin rankCount) : PhaseConfig rankCount where
  rank := rank
  options := { useUpacket := false, batchRecords := 1 }
  maxBcopySize := 8
  recordSize := 4
  batchRecords := 1
  profilingEnabled := false
  chosen := by decide

/-- The destination `(rank + i) % rank_count` of iteration `i` in `flush_worker`. -/
def flushTarget (i : Nat) : Fin rankCount :=
  ⟨(config.rank.val + i) % rankCount, Nat.mod_lt _ (by have := config.rank.isLt; omega)⟩

/-- The loopback test of `post_send_buffer`. -/
def loopsBack (dest : Fin rankCount) : Bool :=
  dest == config.rank && config.options.useLoopback

end PhaseConfig

/-- Where the retry loop of `post_send_buffer` stands. `retry` and `accepted`
are the two answers of `post_am_x`, each followed by one `progress_device`
before the loop test; `accepted` remembers the batch LCI took. -/
inductive SendStatus (Record : Type) where
  | ready
  | retry
  | accepted (sent : List Record)
  deriving DecidableEq, Repr

inductive Frame (rankCount : Nat) (Worker Record : Type) where
  /-- `push` in `allocate_upacket_blocking`. `previous` is what the
  `ProfileWorkerScope` of `post_record` restores. -/
  | push (dest : Fin rankCount) (record : Record) (previous : Option Worker)
  /-- `post_record` after its `flush_dest`. -/
  | postReturn (previous : Option Worker)
  /-- `flush_worker` before iteration `i`. -/
  | flushWorker (i : Nat)
  /-- `flush_dest` in the retry loop; `recordCount` was read when it began. -/
  | send (dest : Fin rankCount) (status : SendStatus Record) (recordCount : Nat)
      (previous : Option Worker)
  /-- `flush_dest` on the loopback path, under the `receive_message` it called. -/
  | loopback (dest : Fin rankCount) (sent : List Record) (recordCount : Nat)
      (previous : Option Worker)
  /-- `lci::progress_x` on a device. -/
  | progress
  /-- `progress_worker` around its progress. -/
  | progressWorker (previous : Option Worker)
  /-- `receive_message_impl`: `pending` are the records not yet handed to the
  handler, `running` the one whose handler call is open, `worker` what
  `measure_receive` captured. -/
  | receive (source : Fin rankCount) (loopback : Bool) (worker : Option Worker)
      (recordCount : Nat) (pending : List Record) (running : Option Record)
  /-- `handle_incoming_am` around its `receive_message`. -/
  | incoming
  /-- `std::abort`. -/
  | aborted
  deriving DecidableEq, Repr

/-- What a step does to LCI, to shared memory or to the caller. -/
inductive Event (rankCount : Nat) (Worker Record : Type) where
  | posted (dest : Fin rankCount) (record : Record) (recordCount : Nat) (buffer : BufferPtr)
  | postReturned
  | flushReturned
  | progressReturned
  | rejected (message : String)
  | gotUpacket (packet : Nat)
  | retried (dest : Fin rankCount)
  | accepted (dest : Fin rankCount) (records : List Record) (buffer : Option BufferPtr)
  | loopedBack (dest : Fin rankCount) (records : List Record)
  | putUpacket (buffer : Option BufferPtr)
  | released (dest : Fin rankCount) (sent : List Record)
  | flushed (dest : Fin rankCount) (worker : Option Worker)
      (recordCount payloadBytes elapsedNanoseconds : Nat)
  | delivered (source : Fin rankCount) (records : List Record)
  | invoked (source : Fin rankCount) (record : Record)
  | completed (source : Fin rankCount) (record : Record)
  | received (loopback : Bool) (worker : Option Worker)
      (recordCount payloadBytes elapsedNanoseconds : Nat)
  | messageReleased (usesUpacket : Bool)
  | aborted (message : String)
  deriving DecidableEq, Repr

/-- `log` is the history of the thread's events; no step reads it. -/
structure ThreadState (rankCount : Nat) (Worker Record : Type) where
  sendBuffers : Fin rankCount → SendBuffer Record
  stack : List (Frame rankCount Worker Record) := []
  profileWorker : Option Worker := none
  log : List (Event rankCount Worker Record) := []

/-- The calls the application makes, the answers of LCI, and `resume` for the
next step of the innermost suspended call. `elapsed` is the clock's answer to
a measured operation. -/
inductive Action (rankCount : Nat) (Record : Type) where
  | postAm (dest : Int) (record : Record)
  | handlerPost (dest : Int) (record : Record)
  | flush
  | progress
  | collectiveProgress
  | getUpacket (answer : Option (Nat × (Nat → Record)))
  | postAmAnswer (retry : Bool)
  | deliver (source : Fin rankCount) (records : List Record)
  | progressEnd
  | handlerReturn
  | resume (elapsed : Nat)

section Calls

variable {rankCount : Nat} {Worker Record : Type}
variable (config : PhaseConfig rankCount) (self : Option Worker)

namespace ThreadState

def emit (thread : ThreadState rankCount Worker Record)
    (events : List (Event rankCount Worker Record)) : ThreadState rankCount Worker Record :=
  { thread with log := thread.log ++ events }

def setBuffer (thread : ThreadState rankCount Worker Record) (dest : Fin rankCount)
    (sendBuffer : SendBuffer Record) : ThreadState rankCount Worker Record :=
  { thread with sendBuffers := Function.update thread.sendBuffers dest sendBuffer }

def withStack (thread : ThreadState rankCount Worker Record)
    (stack : List (Frame rankCount Worker Record)) : ThreadState rankCount Worker Record :=
  { thread with stack := stack }

/-- The constructor of `ProfileWorkerScope`. -/
def openScope (thread : ThreadState rankCount Worker Record) :
    ThreadState rankCount Worker Record :=
  { thread with profileWorker := if config.profilingEnabled then self else thread.profileWorker }

/-- The destructor of `ProfileWorkerScope`. -/
def closeScope (thread : ThreadState rankCount Worker Record) (previous : Option Worker) :
    ThreadState rankCount Worker Record :=
  { thread with
    profileWorker := if config.profilingEnabled then previous else thread.profileWorker }

/-- `flush_dest` up to its first suspension: nothing for an empty buffer,
`receive_message` on the loopback path, the retry loop otherwise. -/
def flushDest (thread : ThreadState rankCount Worker Record) (dest : Fin rankCount) :
    ThreadState rankCount Worker Record :=
  let sendBuffer := thread.sendBuffers dest
  if sendBuffer.empty then thread
  else
    let previous := thread.profileWorker
    let opened := thread.openScope config self
    if config.loopsBack dest then
      (opened.withStack
        (.receive config.rank true opened.profileWorker sendBuffer.size sendBuffer.records none ::
          .loopback dest sendBuffer.records sendBuffer.size previous :: thread.stack)).emit
        [.loopedBack dest sendBuffer.records]
    else
      opened.withStack (.send dest .ready sendBuffer.size previous :: thread.stack)

/-- `post_record` after `push` wrote the record: flush a full buffer, else return. -/
def afterPush (thread : ThreadState rankCount Worker Record) (dest : Fin rankCount)
    (previous : Option Worker) : ThreadState rankCount Worker Record :=
  if (thread.sendBuffers dest).size = (thread.sendBuffers dest).capacity then
    (thread.withStack (.postReturn previous :: thread.stack)).flushDest config self dest
  else
    (thread.closeScope config previous).emit [.postReturned]

/-- The `memcpy` of `push` through `pointer`. -/
def write (thread : ThreadState rankCount Worker Record) (dest : Fin rankCount)
    (pointer : BufferPtr) (record : Record) : ThreadState rankCount Worker Record :=
  (thread.setBuffer dest ((thread.sendBuffers dest).append pointer record)).emit
    [.posted dest record (thread.sendBuffers dest).size pointer]

/-- `post_record` for a valid destination, up to its first suspension. -/
def postRecord (thread : ThreadState rankCount Worker Record) (dest : Fin rankCount)
    (record : Record) : ThreadState rankCount Worker Record :=
  let previous := thread.profileWorker
  let opened := thread.openScope config self
  match (thread.sendBuffers dest).buffer.or (config.fallbackBuffer dest) with
  | some pointer => (opened.write dest pointer record).afterPush config self dest previous
  | none => opened.withStack (.push dest record previous :: thread.stack)

/-- `post_record` with the range check on the caller's `int`. -/
def postAm (thread : ThreadState rankCount Worker Record) (dest : Int) (record : Record) :
    ThreadState rankCount Worker Record :=
  match checkedDestination rankCount dest with
  | some rank => thread.postRecord config self rank record
  | none => thread.emit [.rejected "LCI irregular AM destination rank is out of range"]

/-- `push` once `get_upacket` answered with `packet`, and `post_record` after it. -/
def adoptPacket (thread : ThreadState rankCount Worker Record) (dest : Fin rankCount)
    (record : Record) (previous : Option Worker) (packet : Nat) (stale : Nat → Record) :
    ThreadState rankCount Worker Record :=
  let adopted := thread.setBuffer dest ((thread.sendBuffers dest).adopt packet stale)
  ((adopted.emit [.gotUpacket packet]).write dest (.upacket packet) record).afterPush config self
    dest previous

/-- The loopback path of `post_send_buffer` after `receive_message` returned. -/
def returnPacket (thread : ThreadState rankCount Worker Record) (dest : Fin rankCount) :
    ThreadState rankCount Worker Record :=
  if config.options.useUpacket then thread.emit [.putUpacket (thread.sendBuffers dest).buffer]
  else thread

/-- `handle_incoming_am` up to the first handler call; an empty payload is the
size `record_count_from_message_bytes` aborts on. -/
def handleIncomingAm (thread : ThreadState rankCount Worker Record)
    (source : Fin rankCount) (records : List Record) : ThreadState rankCount Worker Record :=
  match recordCountFromMessageBytes config.recordSize
      (messageBytes config.recordSize records.length) with
  | some recordCount =>
      (thread.withStack
        (.receive source false thread.profileWorker recordCount records none ::
          .incoming :: thread.stack)).emit [.delivered source records]
  | none =>
      (thread.withStack (.aborted :: thread.stack)).emit
        [.aborted "LCI irregular AM payload size is not a valid record batch"]

/-- The end of `flush_dest`: `release`, the scope's end, the measured flush. -/
def finishFlush (thread : ThreadState rankCount Worker Record) (dest : Fin rankCount)
    (sent : List Record) (recordCount : Nat) (previous : Option Worker) (elapsed : Nat) :
    ThreadState rankCount Worker Record :=
  ((thread.setBuffer dest (thread.sendBuffers dest).release).closeScope config previous).emit
    [.released dest sent,
      .flushed dest self recordCount (recordCount * config.recordSize) elapsed]

/-- The next step of the innermost call, where LCI has nothing to answer. -/
def resume (thread : ThreadState rankCount Worker Record) (elapsed : Nat) :
    Option (ThreadState rankCount Worker Record) :=
  match thread.stack with
  | .postReturn previous :: below =>
      some (((thread.withStack below).closeScope config previous).emit [.postReturned])
  | .flushWorker i :: below =>
      if i < rankCount then
        some ((thread.withStack (.flushWorker (i + 1) :: below)).flushDest config self
          (config.flushTarget i))
      else
        some ((thread.withStack below).emit [.flushReturned])
  | .send dest .retry recordCount previous :: below =>
      some (thread.withStack (.send dest .ready recordCount previous :: below))
  | .send dest (.accepted sent) recordCount previous :: below =>
      some ((thread.withStack below).finishFlush config self dest sent recordCount previous elapsed)
  | .loopback dest sent recordCount previous :: below =>
      some (((thread.returnPacket config dest).withStack below).finishFlush config self dest sent
        recordCount previous elapsed)
  | .progressWorker previous :: below =>
      some (((thread.withStack below).closeScope config previous).emit [.progressReturned])
  | .receive source loopback worker recordCount (record :: pending) none :: below =>
      some ((thread.withStack
        (.receive source loopback worker recordCount pending (some record) :: below)).emit
          [.invoked source record])
  | .receive _ loopback worker recordCount [] none :: below =>
      some ((thread.withStack below).emit
        [.received loopback worker recordCount (recordCount * config.recordSize) elapsed])
  | .incoming :: below =>
      some ((thread.withStack below).emit [.messageReleased config.options.useUpacket])
  | _ => none

end ThreadState

/-- One step of the thread `self`. A worker's calls start on an empty stack; a
handler may call back only while its own call is open. -/
def threadStep (thread : ThreadState rankCount Worker Record) :
    Action rankCount Record → Option (ThreadState rankCount Worker Record)
  | .postAm dest record =>
      match self, thread.stack with
      | some _, [] => some (thread.postAm config self dest record)
      | _, _ => none
  | .handlerPost dest record =>
      match self, thread.stack with
      | some _, .receive _ _ _ _ _ (some _) :: _ => some (thread.postAm config self dest record)
      | _, _ => none
  | .flush =>
      match self, thread.stack with
      | some _, [] => some (thread.withStack [.flushWorker 0])
      | _, _ => none
  | .progress =>
      match self, thread.stack with
      | some _, [] =>
          some ((thread.openScope config self).withStack
            [.progress, .progressWorker thread.profileWorker])
      | _, _ => none
  | .collectiveProgress =>
      match self, thread.stack with
      | none, [] => some (thread.withStack [.progress])
      | _, _ => none
  | .getUpacket answer =>
      match thread.stack, answer with
      | .push dest record previous :: below, none =>
          some (thread.withStack (.progress :: .push dest record previous :: below))
      | .push dest record previous :: below, some (packet, stale) =>
          some ((thread.withStack below).adoptPacket config self dest record previous packet stale)
      | _, _ => none
  | .postAmAnswer retry =>
      match thread.stack with
      | .send dest .ready recordCount previous :: below =>
          if retry then
            some ((thread.withStack
              (.progress :: .send dest .retry recordCount previous :: below)).emit [.retried dest])
          else
            some ((thread.withStack (.progress ::
              .send dest (.accepted (thread.sendBuffers dest).records) recordCount previous ::
              below)).emit
                [.accepted dest (thread.sendBuffers dest).records (thread.sendBuffers dest).buffer])
      | _ => none
  | .deliver source records =>
      match thread.stack with
      | .progress :: _ => some (thread.handleIncomingAm config source records)
      | _ => none
  | .progressEnd =>
      match thread.stack with
      | .progress :: below => some (thread.withStack below)
      | _ => none
  | .handlerReturn =>
      match thread.stack with
      | .receive source loopback worker recordCount pending (some record) :: below =>
          some ((thread.withStack
            (.receive source loopback worker recordCount pending none :: below)).emit
              [.completed source record])
      | _ => none
  | .resume elapsed => thread.resume config self elapsed

/-- The thread as a transition system. -/
def threadSystem :
    TransitionSystem (ThreadState rankCount Worker Record) (Action rankCount Record) where
  step := threadStep config self

/-- A fresh worker: empty buffers of the phase's capacity, no call in progress. -/
def ThreadState.initial : ThreadState rankCount Worker Record where
  sendBuffers _ := { capacityRecords := config.batchRecords }

end Calls
end IntegerSortLci.Runtime
