import IntegerSortLci.Runtime.WireBytes
import IntegerSortLci.Runtime.WorkerCalls

/-!
# Batching and unbatching are inverse

What one worker posts to a destination is what the receiver decodes from the
messages sent there, followed by what is still buffered, byte for byte. Outside
of `flush` only full batches leave, and a flush leaves nothing behind.
-/

namespace IntegerSortLci.Runtime

open Foundations

set_option autoImplicit false

variable {rankCount : Nat} {Worker Record : Type}
variable {config : PhaseConfig rankCount} {self : Option Worker} {dest : Fin rankCount}

section FullBatches

variable {thread thread' : ThreadState rankCount Worker Record}
variable {action : Action rankCount Record} {first second third : Log rankCount Worker Record}
variable {buffers : Buffers rankCount Record} {stack : Stack rankCount Worker Record}

/-- The log grew, and every batch handed over since was full. -/
def EmitsFull (config : PhaseConfig rankCount) (before after : Log rankCount Worker Record) :
    Prop :=
  ∃ later, after = before ++ later ∧ ∀ event ∈ later, ∀ dest records,
    event.handOver = some (dest, records) → records.length = config.batchRecords

theorem EmitsFull.refl (log : Log rankCount Worker Record) : EmitsFull config log log :=
  ⟨[], (List.append_nil log).symm, by simp⟩

theorem EmitsFull.emit (full : EmitsFull config first second)
    {events : Log rankCount Worker Record}
    (batches : ∀ event ∈ events, ∀ dest records,
      event.handOver = some (dest, records) → records.length = config.batchRecords) :
    EmitsFull config first (second ++ events) := by
  obtain ⟨later, rfl, early⟩ := full
  refine ⟨later ++ events, List.append_assoc _ _ _, ?_⟩
  intro event member
  rcases List.mem_append.mp member with before | now
  · exact early event before
  · exact batches event now

/-- A suspended call outside of `flush_worker`: what it sends is a full batch. -/
def FullFrame (config : PhaseConfig rankCount) (buffers : Buffers rankCount Record) :
    Frame rankCount Worker Record → Prop
  | .flushWorker _ => False
  | .send dest _ _ _ => (buffers dest).records.length = config.batchRecords
  | _ => True

structure PostingOnly (config : PhaseConfig rankCount) (start : Log rankCount Worker Record)
    (thread : ThreadState rankCount Worker Record) : Prop where
  frames : ∀ frame ∈ thread.stack, FullFrame config thread.sendBuffers frame
  emitted : EmitsFull config start thread.log

variable {start : Log rankCount Worker Record}

theorem flush_dest_posting (posting : PostingOnly config start thread)
    (full : (thread.sendBuffers dest).records.length = config.batchRecords) :
    PostingOnly config start (thread.flushDest config self dest) := by
  rcases flush_dest_cases config self thread dest with ⟨empty, made⟩ | ⟨filled, loops, made⟩ |
    ⟨filled, loops, made⟩
  · rw [made]
    exact posting
  · rw [made]
    refine ⟨?_, ?_⟩
    · simpa [FullFrame] using posting.frames
    · apply posting.emitted.emit
      simpa [Event.handOver] using full
  · rw [made]
    exact ⟨by simpa [FullFrame, full] using posting.frames, posting.emitted⟩

theorem after_push_posting {previous : Option Worker} (posting : PostingOnly config start thread)
    (capacity : (thread.sendBuffers dest).capacityRecords = config.batchRecords) :
    PostingOnly config start (thread.afterPush config self dest previous) := by
  rcases after_push_cases config self thread dest previous with ⟨full, made⟩ | ⟨full, made⟩
  · rw [made]
    apply flush_dest_posting
    · exact ⟨by simpa [FullFrame] using posting.frames, posting.emitted⟩
    · exact full.trans capacity
  · rw [made]
    exact ⟨posting.frames, posting.emitted.emit (by simp [Event.handOver])⟩

theorem post_am_posting {target : Int} {record : Record}
    (posting : PostingOnly config start thread) (idle : thread.stack = [])
    (disciplined : Disciplined config thread.sendBuffers thread.stack) :
    PostingOnly config start (thread.postAm config self target record) := by
  rcases post_am_cases config self thread target record with ⟨rank, checked, made⟩ | ⟨outside, made⟩
  · rw [made]
    rcases post_record_cases config self thread rank record with
      ⟨pointer, available, made⟩ | ⟨unavailable, made⟩
    · rw [made]
      apply after_push_posting
      · exact ⟨by simp [idle], posting.emitted.emit (by simp [Event.handOver])⟩
      · simpa using disciplined.capacity rank
    · rw [made]
      exact ⟨by simp [idle, FullFrame], posting.emitted⟩
  · rw [made]
    exact ⟨posting.frames, posting.emitted.emit (by simp [Event.handOver])⟩

/-- A quiet step that does not begin a flush. A release changes a buffer only
under a call of the worker, where nothing else is being sent. -/
theorem step_posting (step : ThreadStep config self thread action thread')
    (silent : QuietAction action) (noFlush : action ≠ .flush)
    (quiet : QuietStack config thread.sendBuffers thread.stack)
    (disciplined : Disciplined config thread.sendBuffers thread.stack)
    (posting : PostingOnly config start thread) : PostingOnly config start thread' := by
  have frames := posting.frames
  have released : ∀ {top : Frame rankCount Worker Record} {below : Stack rankCount Worker Record}
      {dest : Fin rankCount} {sendBuffer : SendBuffer Record},
      thread.stack = top :: below → top.level = 1 →
      ∀ frame ∈ below,
        FullFrame config (Function.update thread.sendBuffers dest sendBuffer) frame := by
    intro top below dest sendBuffer stack level frame member
    have full := frames frame (stack ▸ List.mem_cons_of_mem _ member)
    rw [stack] at quiet
    have lower := (List.pairwise_cons.mp quiet.ordered).1 frame member
    rw [level] at lower
    cases frame with
    | send other status recordCount previous =>
        simp only [Frame.level] at lower
        omega
    | flushWorker i => exact full
    | push | postReturn | progressWorker | loopback | progress | incoming | receive | aborted =>
        trivial
  cases step with
  | postAm target record worker owner idle => exact post_am_posting posting idle disciplined
  | handlerPost => exact silent.elim
  | flush => exact absurd rfl noFlush
  | progress worker owner idle =>
      exact ⟨by simp [FullFrame], posting.emitted⟩
  | collectiveProgress control idle => exact ⟨by simp [FullFrame], posting.emitted⟩
  | upacketNull dest record previous below top =>
      exact ⟨by simpa [FullFrame, top] using frames, posting.emitted⟩
  | upacket dest record previous below packet stale top =>
      rw [top] at quiet
      obtain rfl := quiet.bottom rfl
      unfold ThreadState.adoptPacket
      apply after_push_posting
      · refine ⟨by simp, ?_⟩
        exact (posting.emitted.emit (by simp [Event.handOver])).emit (by simp [Event.handOver])
      · simpa using disciplined.capacity dest
  | retry dest recordCount previous below top =>
      refine ⟨?_, posting.emitted.emit (by simp [Event.handOver])⟩
      simpa [FullFrame, top] using frames
  | accept dest recordCount previous below top =>
      rw [top] at frames
      have full : (thread.sendBuffers dest).records.length = config.batchRecords :=
        frames _ List.mem_cons_self
      refine ⟨by simpa [FullFrame] using frames, posting.emitted.emit ?_⟩
      simpa [Event.handOver] using full
  | deliver source records below top =>
      unfold ThreadState.handleIncomingAm
      split
      · refine ⟨?_, posting.emitted.emit (by simp [Event.handOver])⟩
        simpa [FullFrame] using frames
      · refine ⟨?_, posting.emitted.emit (by simp [Event.handOver])⟩
        simpa [FullFrame] using frames
  | progressEnd below top =>
      rw [top] at frames
      exact ⟨(List.forall_mem_cons.mp frames).2, posting.emitted⟩
  | handlerReturn source loopback captured recordCount pending record below top =>
      refine ⟨?_, posting.emitted.emit (by simp [Event.handOver])⟩
      simpa [FullFrame, top] using frames
  | postReturn elapsed previous below top =>
      rw [top] at frames
      exact ⟨(List.forall_mem_cons.mp frames).2, posting.emitted.emit (by simp [Event.handOver])⟩
  | flushNext elapsed i below top more =>
      rw [top] at frames
      exact (frames _ List.mem_cons_self).elim
  | flushEnd elapsed i below top finished =>
      rw [top] at frames
      exact (frames _ List.mem_cons_self).elim
  | sendAgain elapsed dest recordCount previous below top =>
      exact ⟨by simpa [FullFrame, top] using frames, posting.emitted⟩
  | sendRelease elapsed dest sent recordCount previous below top =>
      exact ⟨released top rfl, posting.emitted.emit (by simp [Event.handOver])⟩
  | loopbackRelease elapsed dest sent recordCount previous below top =>
      unfold ThreadState.returnPacket
      split
      · refine ⟨released top rfl, EmitsFull.emit ?_ (by simp [Event.handOver])⟩
        exact posting.emitted.emit (by simp [Event.handOver])
      · exact ⟨released top rfl, posting.emitted.emit (by simp [Event.handOver])⟩
  | progressReturn elapsed previous below top =>
      rw [top] at frames
      exact ⟨(List.forall_mem_cons.mp frames).2, posting.emitted.emit (by simp [Event.handOver])⟩
  | invoke elapsed source loopback captured recordCount record pending below top =>
      refine ⟨?_, posting.emitted.emit (by simp [Event.handOver])⟩
      simpa [FullFrame, top] using frames
  | receiveEnd elapsed source loopback captured recordCount below top =>
      rw [top] at frames
      exact ⟨(List.forall_mem_cons.mp frames).2, posting.emitted.emit (by simp [Event.handOver])⟩
  | incomingEnd elapsed below top =>
      rw [top] at frames
      exact ⟨(List.forall_mem_cons.mp frames).2, posting.emitted.emit (by simp [Event.handOver])⟩

end FullBatches

section Runs

variable {start thread : ThreadState rankCount Worker Record}
variable {actions : List (Action rankCount Record)}

/-- A quiet run submits what its actions post, in order. -/
theorem run_submitted (ran : (threadSystem config self).run start actions = some thread)
    (silent : ∀ action ∈ actions, QuietAction action) (dest : Fin rankCount) :
    thread.submitted dest = start.submitted dest ++ actions.flatMap (Action.posting dest) := by
  induction actions generalizing start with
  | nil =>
      obtain rfl : start = thread := Option.some.inj ran
      simp
  | cons action rest ih =>
      obtain ⟨next, stepped, continued⟩ := Option.bind_eq_some_iff.mp ran
      have first : next.submitted dest = start.submitted dest ++ action.posting dest :=
        step_submitted (thread_step_cases stepped) (silent action List.mem_cons_self)
      rw [ih continued fun other member => silent other (List.mem_cons_of_mem _ member), first,
        List.flatMap_cons, List.append_assoc]

theorem run_silent
    {permitted : ThreadState rankCount Worker Record → Action rankCount Record → Prop}
    (ran : (threadSystem config self).run start actions = some thread)
    (granted : (threadSystem config self).PermittedRun permitted start actions)
    (quiet : ∀ before action, permitted before action → QuietAction action) :
    ∀ action ∈ actions, QuietAction action := by
  induction actions generalizing start with
  | nil => simp
  | cons action rest ih =>
      obtain ⟨next, stepped, continued⟩ := Option.bind_eq_some_iff.mp ran
      exact List.forall_mem_cons.mpr
        ⟨quiet start action granted.1, ih continued (granted.2 next stepped)⟩

/-- Outside of a flush every batch that leaves is full. -/
theorem run_posting
    (reached : (threadSystem config self).Reachable (QuietGrant config) (.initial config) start)
    (idle : start.stack = [])
    (ran : (threadSystem config self).run start actions = some thread)
    (granted : (threadSystem config self).PermittedRun (QuietGrant config) start actions)
    (noFlush : .flush ∉ actions) : EmitsFull config start.log thread.log := by
  have allowed := granted.and_all fun action member =>
    show action ≠ .flush from fun same => noFlush (same ▸ member)
  have posting : PostingOnly config start.log thread := by
    apply (TransitionSystem.run_reachable ran allowed).invariant
    · exact ⟨by simp [idle], .refl _⟩
    · intro before after action prior posting permitted stepped
      have silent := reachable_of_granted (reached.trans (prior.mono fun _ _ both => both.1))
      exact step_posting (thread_step_cases stepped) permitted.1.quiet permitted.2
        (reachable_quiet silent).stack (reachable_disciplined (reachable_safe silent)) posting
  exact posting.emitted

/-- A flush that has returned left every buffer empty. -/
theorem run_flushed
    (reached : (threadSystem config self).Reachable (QuietGrant config) (.initial config) start)
    (ran : (threadSystem config self).run start (.flush :: actions) = some thread)
    (granted : (threadSystem config self).PermittedRun (QuietGrant config) start
      (.flush :: actions))
    (unposting : ∀ action ∈ actions, ∀ dest, action.posting dest = [])
    (idle : thread.stack = []) : ∀ dest, (thread.sendBuffers dest).records = [] := by
  obtain ⟨next, stepped, continued⟩ := Option.bind_eq_some_iff.mp ran
  have began : ThreadStep config self start .flush next := thread_step_cases stepped
  have permitted := granted.2 next stepped
  have draining : Draining thread := by
    apply (TransitionSystem.run_reachable continued (permitted.and_all unposting)).invariant
    · exact flush_draining began
    · intro before after action _ draining allowed moved
      have step : ThreadStep config self before action after := thread_step_cases moved
      exact step_draining step allowed.1.quiet allowed.2 draining
  have all := reached.trans (TransitionSystem.run_reachable ran granted)
  exact (reachable_quiet (reachable_of_granted all)).flushed (draining.flushed idle)

end Runs

section Bytes

variable {stale : StaleMemory}
variable {start thread : ThreadState rankCount Worker (RecordBytes config.recordSize)}
variable {log : Log rankCount Worker (RecordBytes config.recordSize)}
variable {view : SlotView rankCount (RecordBytes config.recordSize)}

/-- A message that the receiver's size check lets through and LCI sends eagerly. -/
structure SoundMessage (config : PhaseConfig rankCount) (message : List Byte) : Prop where
  counted : ∃ recordCount,
    recordCountFromMessageBytes config.recordSize message.length = some recordCount ∧
      1 ≤ recordCount ∧ recordCount ≤ config.batchRecords
  eager : message.length ≤ config.maxBcopySize

/-- Every batch of a run of slots has a record and fits its buffer. -/
theorem batches_bounded (run : SlotRun config log view) (dest : Fin rankCount) :
    ∀ batch ∈ batchesTo dest log, batch ≠ [] ∧ batch.length ≤ config.batchRecords := by
  induction run with
  | start => simp [batchesTo]
  | @next log event view view' prior moved ih =>
      have kept := slot_run_kept prior
      intro batch member
      rw [batches_to_concat] at member
      rcases List.mem_append.mp member with old | new
      · exact ih batch old
      · cases moved with
        | accept other slot used filling remote =>
            by_cases same : other = dest
            · obtain rfl : batch = slot.records := by
                simpa [Event.batchTo, Event.handOver, same] using new
              exact ⟨kept.nonempty other slot used, kept.bounded other slot used⟩
            · simp [Event.batchTo, Event.handOver, same] at new
        | loop other slot used filling own =>
            by_cases same : other = dest
            · obtain rfl : batch = slot.records := by
                simpa [Event.batchTo, Event.handOver, same] using new
              exact ⟨kept.nonempty other slot used, kept.bounded other slot used⟩
            · simp [Event.batchTo, Event.handOver, same] at new
        | other event still =>
            rw [batch_to_still still] at new
            cases new
        | obtainPacket | fillPacket | fillStorage | add | giveBack | release | receive |
            releaseMessage => simp [Event.batchTo, Event.handOver] at new

/-- Every message of a traced thread is sound. -/
theorem messages_sound (traced : thread.Traced config) :
    ∀ message ∈ (wireOf config stale thread.log).messages dest, SoundMessage config message := by
  have fits := slot_run_fits stale traced
  intro message member
  rw [fits.messages] at member
  obtain ⟨batch, inLog, rfl⟩ := List.mem_map.mp member
  obtain ⟨nonempty, bounded⟩ := batches_bounded traced dest batch inLog
  have positive := List.length_pos_iff.mpr nonempty
  constructor
  · refine ⟨batch.length, ?_, positive, bounded⟩
    rw [pack_length]
    exact record_count_from_message_bytes config.record_size_positive positive
  · calc (pack batch).length = batch.length * config.recordSize := pack_length batch
      _ ≤ config.batchRecords * config.recordSize := Nat.mul_le_mul_right _ bounded
      _ ≤ config.maxBcopySize / config.recordSize * config.recordSize :=
          Nat.mul_le_mul_right _ (chosen_batch_bounds config.chosen).2
      _ ≤ config.maxBcopySize := Nat.div_mul_le_self _ _

/-- Between calls the bytes behind a buffer are its records. -/
theorem buffered_records (stale : StaleMemory) (traced : thread.Traced config)
    (quiet : QuietStack config thread.sendBuffers thread.stack) (idle : thread.stack = [])
    (dest : Fin rankCount) :
    (wireOf config stale thread.log).buffered config dest = (thread.sendBuffers dest).records := by
  have fits := slot_run_fits stale traced
  unfold WireState.buffered
  rw [fits.data dest]
  cases held : (thread.sendBuffers dest).buffer with
  | none =>
      rw [slot_of_null held, quiet.unallocated dest held]
      rfl
  | some pointer =>
      have used : (viewOf thread.sendBuffers thread.stack).slots dest =
          some ⟨pointer, (thread.sendBuffers dest).records, .filling⟩ :=
        slot_of_allocated held (by rw [idle]; rfl)
      have payload : (wireOf config stale thread.log).payload pointer
          (messageBytes config.recordSize (thread.sendBuffers dest).records.length) =
            pack (thread.sendBuffers dest).records := (fits.contents dest _ used rfl).read
      rw [used, fits.counts dest _ used]
      show (List.range _).map (loadRecord config.recordSize
        ((wireOf config stale thread.log).payload pointer _)) = _
      rw [payload]
      exact unpack_pack 0 _

/-- The messages of a longer log are the earlier ones and the new batches. -/
theorem messages_later (traced : thread.Traced config) (before : start.Traced config)
    (full : EmitsFull config start.log thread.log) (dest : Fin rankCount) :
    ∃ emitted, (wireOf config stale thread.log).messages dest =
        (wireOf config stale start.log).messages dest ++ emitted ∧
      ∀ message ∈ emitted, message.length =
        messageBytes config.recordSize config.batchRecords := by
  have fits := slot_run_fits stale traced
  have early := slot_run_fits stale before
  obtain ⟨later, extended, batches⟩ := full
  refine ⟨(batchesTo dest later).map pack, ?_, ?_⟩
  · rw [fits.messages, early.messages, extended, batchesTo, batchesTo, batchesTo,
      List.flatMap_append, List.map_append]
  · intro message member
    obtain ⟨batch, inLater, rfl⟩ := List.mem_map.mp member
    obtain ⟨event, inLog, handed⟩ := List.mem_flatMap.mp inLater
    have size : batch.length = config.batchRecords := by
      unfold Event.batchTo at handed
      split at handed
      case h_1 other records handing =>
          split at handed
          · obtain rfl := List.mem_singleton.mp handed
            exact batches event inLog other batch handing
          · cases handed
      case h_2 => cases handed
    rw [pack_length, size]
    rfl

/-- For every worker, every record size and batch size that the options allow,
and every run cut between two calls: no message aborts the receiver, and each
holds between one record and a batch, within the eager limit. Whenever the
worker is between calls, decoding its messages for a destination gives, with the
records still buffered, what it posted there. Outside of `flush` only full
messages leave, and after a `flush` nothing is buffered. -/
theorem batching_inverse
    {earlier later : List (Action rankCount (RecordBytes config.recordSize))}
    (began : (threadSystem config self).run (.initial config) earlier = some start)
    (beganGranted : (threadSystem config self).PermittedRun (QuietGrant config)
      (.initial config) earlier)
    (between : start.stack = [])
    (continued : (threadSystem config self).run start later = some thread)
    (continuedGranted : (threadSystem config self).PermittedRun (QuietGrant config) start later)
    (stale : StaleMemory) (dest : Fin rankCount) :
    (∀ message ∈ (wireOf config stale thread.log).messages dest, SoundMessage config message) ∧
      (thread.stack = [] →
        (∃ received,
          decodeMessages config.recordSize ((wireOf config stale thread.log).messages dest) =
              some received ∧
            received ++ (wireOf config stale thread.log).buffered config dest =
              (earlier ++ later).flatMap (Action.posting dest)) ∧
        ((wireOf config stale thread.log).buffered config dest).length < config.batchRecords) ∧
      (.flush ∉ later → ∃ emitted,
        (wireOf config stale thread.log).messages dest =
            (wireOf config stale start.log).messages dest ++ emitted ∧
          ∀ message ∈ emitted,
            message.length = messageBytes config.recordSize config.batchRecords) ∧
      (thread.stack = [] → ∀ answers, later = .flush :: answers →
        (∀ action ∈ answers, ∀ other, action.posting other = []) →
          (wireOf config stale thread.log).buffered config dest = []) := by
  have first := TransitionSystem.run_reachable began beganGranted
  have reached := first.trans (TransitionSystem.run_reachable continued continuedGranted)
  have silent := reachable_of_granted reached
  have traced := (slots_traced reached).1
  have quiet := (reachable_quiet silent).stack
  have disciplined := reachable_disciplined (reachable_safe silent)
  refine ⟨messages_sound traced, ?_, ?_, ?_⟩
  · intro idle
    have buffered := buffered_records stale traced quiet idle dest
    refine ⟨⟨sentTo dest thread.log, ?_, ?_⟩, ?_⟩
    · rw [(slot_run_fits stale traced).messages, ← batches_flatten]
      apply decode_messages_pack config.record_size_positive
      exact fun batch member => (batches_bounded traced dest batch member).1
    · have ledger := (reachable_ledger (reachable_safe silent)).posted dest
      have sooner := run_submitted began
        (run_silent began beganGranted fun _ _ granted => granted.quiet) dest
      have whole := run_submitted continued
        (run_silent continued continuedGranted fun _ _ granted => granted.quiet) dest
      rw [sooner] at whole
      simp only [ThreadState.submitted, idle, pushing_in_nil, List.append_nil,
        ThreadState.initial, posted_to_nil, List.nil_append] at whole
      rw [buffered, List.flatMap_append, ← whole, ledger]
      simp [unsent, idle, handedOverBy]
    · rw [buffered]
      exact (idle_may_post disciplined idle dest).2
  · intro noFlush
    exact messages_later traced (slots_traced first).1
      (run_posting first between continued continuedGranted noFlush) dest
  · rintro idle answers rfl unposting
    rw [buffered_records stale traced quiet idle dest]
    exact run_flushed first continued continuedGranted unposting idle dest

end Bytes

section Pairs

/-- Two ranks, records of two bytes, and an eager limit of five bytes: two
records to a message. -/
def pairBatches : PhaseConfig 2 where
  rank := ⟨0, Nat.two_pos⟩
  options := { useUpacket := false }
  maxBcopySize := 5
  recordSize := 2
  batchRecords := 2
  profilingEnabled := false
  chosen := rfl

/-- Three posts to rank 1; the second fills the batch. -/
def threePosts : List (Action 2 (RecordBytes pairBatches.recordSize)) :=
  [.postAm 1 fun _ => 3, .postAm 1 fun _ => 5, .postAmAnswer false, .progressEnd, .resume 0,
    .resume 0, .postAm 1 fun _ => 7]

/-- The flush of the third record, which LCI takes at the second try. -/
def retriedFlush : List (Action 2 (RecordBytes pairBatches.recordSize)) :=
  [.flush, .resume 0, .resume 0, .postAmAnswer true, .progressEnd, .resume 0,
    .postAmAnswer false, .progressEnd, .resume 0, .resume 0]

theorem batching_inverse_pairs :
    ∃ thread : ThreadState 2 Unit (RecordBytes pairBatches.recordSize), ∃ received,
      decodeMessages pairBatches.recordSize
          ((wireOf pairBatches ⟨fun _ => 9, fun _ _ => 9⟩ thread.log).messages 1) = some received ∧
        received ++ (wireOf pairBatches ⟨fun _ => 9, fun _ _ => 9⟩ thread.log).buffered
            pairBatches 1 = (threePosts ++ retriedFlush).flatMap (Action.posting 1) := by
  obtain ⟨start, thread, began, between, continued, idle⟩ :
      ∃ start thread : ThreadState 2 Unit (RecordBytes pairBatches.recordSize),
        (threadSystem pairBatches (some ())).run (.initial pairBatches) threePosts = some start ∧
          start.stack = [] ∧
          (threadSystem pairBatches (some ())).run start retriedFlush = some thread ∧
          thread.stack = [] := ⟨_, _, rfl, rfl, rfl, rfl⟩
  have inverse := batching_inverse began
    (TransitionSystem.permitted_run_of_all fun before => by simp [threePosts, QuietGrant])
    between continued
    (TransitionSystem.permitted_run_of_all fun before => by simp [retriedFlush, QuietGrant])
    ⟨fun _ => 9, fun _ _ => 9⟩ 1
  exact ⟨thread, (inverse.2.1 idle).1⟩

end Pairs

end IntegerSortLci.Runtime
