import IntegerSortLci.Runtime.PhaseThread

/-!
# What one thread step can do

`ThreadStep` lists the steps of `threadStep` with the stack each one needs and
the state it leaves. Every invariant of a thread is proved by cases on it; the
executable function is opened only in `thread_step_cases`.
-/

namespace IntegerSortLci.Runtime

set_option autoImplicit false

variable {rankCount : Nat} {Worker Record : Type}
variable {config : PhaseConfig rankCount} {self : Option Worker}

namespace ThreadState

variable (thread : ThreadState rankCount Worker Record)

@[simp] theorem emit_buffers (events : List (Event rankCount Worker Record)) :
    (thread.emit events).sendBuffers = thread.sendBuffers := rfl
@[simp] theorem emit_stack (events : List (Event rankCount Worker Record)) :
    (thread.emit events).stack = thread.stack := rfl
@[simp] theorem emit_worker (events : List (Event rankCount Worker Record)) :
    (thread.emit events).profileWorker = thread.profileWorker := rfl
@[simp] theorem emit_log (events : List (Event rankCount Worker Record)) :
    (thread.emit events).log = thread.log ++ events := rfl

@[simp] theorem set_buffer_buffers (dest : Fin rankCount) (sendBuffer : SendBuffer Record) :
    (thread.setBuffer dest sendBuffer).sendBuffers =
      Function.update thread.sendBuffers dest sendBuffer := rfl
@[simp] theorem set_buffer_stack (dest : Fin rankCount) (sendBuffer : SendBuffer Record) :
    (thread.setBuffer dest sendBuffer).stack = thread.stack := rfl
@[simp] theorem set_buffer_worker (dest : Fin rankCount) (sendBuffer : SendBuffer Record) :
    (thread.setBuffer dest sendBuffer).profileWorker = thread.profileWorker := rfl
@[simp] theorem set_buffer_log (dest : Fin rankCount) (sendBuffer : SendBuffer Record) :
    (thread.setBuffer dest sendBuffer).log = thread.log := rfl

@[simp] theorem with_stack_buffers (stack : List (Frame rankCount Worker Record)) :
    (thread.withStack stack).sendBuffers = thread.sendBuffers := rfl
@[simp] theorem with_stack_stack (stack : List (Frame rankCount Worker Record)) :
    (thread.withStack stack).stack = stack := rfl
@[simp] theorem with_stack_worker (stack : List (Frame rankCount Worker Record)) :
    (thread.withStack stack).profileWorker = thread.profileWorker := rfl
@[simp] theorem with_stack_log (stack : List (Frame rankCount Worker Record)) :
    (thread.withStack stack).log = thread.log := rfl

@[simp] theorem open_scope_buffers :
    (thread.openScope config self).sendBuffers = thread.sendBuffers := rfl
@[simp] theorem open_scope_stack : (thread.openScope config self).stack = thread.stack := rfl
@[simp] theorem open_scope_log : (thread.openScope config self).log = thread.log := rfl

@[simp] theorem close_scope_buffers (previous : Option Worker) :
    (thread.closeScope config previous).sendBuffers = thread.sendBuffers := rfl
@[simp] theorem close_scope_stack (previous : Option Worker) :
    (thread.closeScope config previous).stack = thread.stack := rfl
@[simp] theorem close_scope_log (previous : Option Worker) :
    (thread.closeScope config previous).log = thread.log := rfl

@[simp] theorem write_buffers (dest : Fin rankCount) (pointer : BufferPtr) (record : Record) :
    (thread.write dest pointer record).sendBuffers =
      Function.update thread.sendBuffers dest
        ((thread.sendBuffers dest).append pointer record) := rfl
@[simp] theorem write_stack (dest : Fin rankCount) (pointer : BufferPtr) (record : Record) :
    (thread.write dest pointer record).stack = thread.stack := rfl
@[simp] theorem write_worker (dest : Fin rankCount) (pointer : BufferPtr) (record : Record) :
    (thread.write dest pointer record).profileWorker = thread.profileWorker := rfl
@[simp] theorem write_log (dest : Fin rankCount) (pointer : BufferPtr) (record : Record) :
    (thread.write dest pointer record).log =
      thread.log ++ [.posted dest record (thread.sendBuffers dest).size pointer] := rfl

@[simp] theorem finish_flush_buffers (dest : Fin rankCount) (sent : List Record)
    (recordCount : Nat) (previous : Option Worker) (elapsed : Nat) :
    (thread.finishFlush config self dest sent recordCount previous elapsed).sendBuffers =
      Function.update thread.sendBuffers dest (thread.sendBuffers dest).release := rfl
@[simp] theorem finish_flush_stack (dest : Fin rankCount) (sent : List Record)
    (recordCount : Nat) (previous : Option Worker) (elapsed : Nat) :
    (thread.finishFlush config self dest sent recordCount previous elapsed).stack =
      thread.stack := rfl
@[simp] theorem finish_flush_log (dest : Fin rankCount) (sent : List Record)
    (recordCount : Nat) (previous : Option Worker) (elapsed : Nat) :
    (thread.finishFlush config self dest sent recordCount previous elapsed).log =
      thread.log ++ [.released dest sent,
        .flushed dest self recordCount (recordCount * config.recordSize) elapsed] := rfl

@[simp] theorem return_packet_buffers (dest : Fin rankCount) :
    (thread.returnPacket config dest).sendBuffers = thread.sendBuffers := by
  unfold returnPacket
  split <;> rfl
@[simp] theorem return_packet_worker (dest : Fin rankCount) :
    (thread.returnPacket config dest).profileWorker = thread.profileWorker := by
  unfold returnPacket
  split <;> rfl

end ThreadState

inductive ThreadStep (config : PhaseConfig rankCount) (self : Option Worker)
    (thread : ThreadState rankCount Worker Record) :
    Action rankCount Record → ThreadState rankCount Worker Record → Prop where
  | postAm (dest : Int) (record : Record) (worker : Worker) (owner : self = some worker)
      (idle : thread.stack = []) :
      ThreadStep config self thread (.postAm dest record) (thread.postAm config self dest record)
  | handlerPost (dest : Int) (record current : Record) (worker : Worker)
      (owner : self = some worker) (source : Fin rankCount) (loopback : Bool)
      (captured : Option Worker) (recordCount : Nat) (pending : List Record)
      (below : List (Frame rankCount Worker Record))
      (top : thread.stack =
        .receive source loopback captured recordCount pending (some current) :: below) :
      ThreadStep config self thread (.handlerPost dest record)
        (thread.postAm config self dest record)
  | flush (worker : Worker) (owner : self = some worker) (idle : thread.stack = []) :
      ThreadStep config self thread .flush (thread.withStack [.flushWorker 0])
  | progress (worker : Worker) (owner : self = some worker) (idle : thread.stack = []) :
      ThreadStep config self thread .progress
        ((thread.openScope config self).withStack
          [.progress, .progressWorker thread.profileWorker])
  | collectiveProgress (control : self = none) (idle : thread.stack = []) :
      ThreadStep config self thread .collectiveProgress (thread.withStack [.progress])
  | upacketNull (dest : Fin rankCount) (record : Record) (previous : Option Worker)
      (below : List (Frame rankCount Worker Record))
      (top : thread.stack = .push dest record previous :: below) :
      ThreadStep config self thread (.getUpacket none)
        (thread.withStack (.progress :: .push dest record previous :: below))
  | upacket (dest : Fin rankCount) (record : Record) (previous : Option Worker)
      (below : List (Frame rankCount Worker Record)) (packet : Nat) (stale : Nat → Record)
      (top : thread.stack = .push dest record previous :: below) :
      ThreadStep config self thread (.getUpacket (some (packet, stale)))
        ((thread.withStack below).adoptPacket config self dest record previous packet stale)
  | retry (dest : Fin rankCount) (recordCount : Nat) (previous : Option Worker)
      (below : List (Frame rankCount Worker Record))
      (top : thread.stack = .send dest .ready recordCount previous :: below) :
      ThreadStep config self thread (.postAmAnswer true)
        ((thread.withStack (.progress :: .send dest .retry recordCount previous :: below)).emit
          [.retried dest])
  | accept (dest : Fin rankCount) (recordCount : Nat) (previous : Option Worker)
      (below : List (Frame rankCount Worker Record))
      (top : thread.stack = .send dest .ready recordCount previous :: below) :
      ThreadStep config self thread (.postAmAnswer false)
        ((thread.withStack (.progress ::
          .send dest (.accepted (thread.sendBuffers dest).records) recordCount previous ::
            below)).emit
          [.accepted dest (thread.sendBuffers dest).records (thread.sendBuffers dest).buffer])
  | deliver (source : Fin rankCount) (records : List Record)
      (below : List (Frame rankCount Worker Record)) (top : thread.stack = .progress :: below) :
      ThreadStep config self thread (.deliver source records)
        (thread.handleIncomingAm config source records)
  | progressEnd (below : List (Frame rankCount Worker Record))
      (top : thread.stack = .progress :: below) :
      ThreadStep config self thread .progressEnd (thread.withStack below)
  | handlerReturn (source : Fin rankCount) (loopback : Bool) (captured : Option Worker)
      (recordCount : Nat) (pending : List Record) (record : Record)
      (below : List (Frame rankCount Worker Record))
      (top : thread.stack =
        .receive source loopback captured recordCount pending (some record) :: below) :
      ThreadStep config self thread .handlerReturn
        ((thread.withStack
          (.receive source loopback captured recordCount pending none :: below)).emit
            [.completed source record])
  | postReturn (elapsed : Nat) (previous : Option Worker)
      (below : List (Frame rankCount Worker Record))
      (top : thread.stack = .postReturn previous :: below) :
      ThreadStep config self thread (.resume elapsed)
        (((thread.withStack below).closeScope config previous).emit [.postReturned])
  | flushNext (elapsed i : Nat) (below : List (Frame rankCount Worker Record))
      (top : thread.stack = .flushWorker i :: below) (more : i < rankCount) :
      ThreadStep config self thread (.resume elapsed)
        ((thread.withStack (.flushWorker (i + 1) :: below)).flushDest config self
          (config.flushTarget i))
  | flushEnd (elapsed i : Nat) (below : List (Frame rankCount Worker Record))
      (top : thread.stack = .flushWorker i :: below) (finished : rankCount ≤ i) :
      ThreadStep config self thread (.resume elapsed)
        ((thread.withStack below).emit [.flushReturned])
  | sendAgain (elapsed : Nat) (dest : Fin rankCount) (recordCount : Nat)
      (previous : Option Worker) (below : List (Frame rankCount Worker Record))
      (top : thread.stack = .send dest .retry recordCount previous :: below) :
      ThreadStep config self thread (.resume elapsed)
        (thread.withStack (.send dest .ready recordCount previous :: below))
  | sendRelease (elapsed : Nat) (dest : Fin rankCount) (sent : List Record) (recordCount : Nat)
      (previous : Option Worker) (below : List (Frame rankCount Worker Record))
      (top : thread.stack = .send dest (.accepted sent) recordCount previous :: below) :
      ThreadStep config self thread (.resume elapsed)
        ((thread.withStack below).finishFlush config self dest sent recordCount previous elapsed)
  | loopbackRelease (elapsed : Nat) (dest : Fin rankCount) (sent : List Record)
      (recordCount : Nat) (previous : Option Worker)
      (below : List (Frame rankCount Worker Record))
      (top : thread.stack = .loopback dest sent recordCount previous :: below) :
      ThreadStep config self thread (.resume elapsed)
        (((thread.returnPacket config dest).withStack below).finishFlush config self dest sent
          recordCount previous elapsed)
  | progressReturn (elapsed : Nat) (previous : Option Worker)
      (below : List (Frame rankCount Worker Record))
      (top : thread.stack = .progressWorker previous :: below) :
      ThreadStep config self thread (.resume elapsed)
        (((thread.withStack below).closeScope config previous).emit [.progressReturned])
  | invoke (elapsed : Nat) (source : Fin rankCount) (loopback : Bool) (captured : Option Worker)
      (recordCount : Nat) (record : Record) (pending : List Record)
      (below : List (Frame rankCount Worker Record))
      (top : thread.stack =
        .receive source loopback captured recordCount (record :: pending) none :: below) :
      ThreadStep config self thread (.resume elapsed)
        ((thread.withStack
          (.receive source loopback captured recordCount pending (some record) :: below)).emit
            [.invoked source record])
  | receiveEnd (elapsed : Nat) (source : Fin rankCount) (loopback : Bool)
      (captured : Option Worker) (recordCount : Nat)
      (below : List (Frame rankCount Worker Record))
      (top : thread.stack = .receive source loopback captured recordCount [] none :: below) :
      ThreadStep config self thread (.resume elapsed)
        ((thread.withStack below).emit
          [.received loopback captured recordCount (recordCount * config.recordSize) elapsed])
  | incomingEnd (elapsed : Nat) (below : List (Frame rankCount Worker Record))
      (top : thread.stack = .incoming :: below) :
      ThreadStep config self thread (.resume elapsed)
        ((thread.withStack below).emit [.messageReleased config.options.useUpacket])

variable {thread thread' : ThreadState rankCount Worker Record}

private theorem resume_cases {elapsed : Nat}
    (stepped : thread.resume config self elapsed = some thread') :
    ThreadStep config self thread (.resume elapsed) thread' := by
  unfold ThreadState.resume at stepped
  split at stepped
  case h_1 previous below top =>
      cases stepped; exact .postReturn elapsed previous below top
  case h_2 i below top =>
      split_ifs at stepped with more
      · cases stepped; exact .flushNext elapsed i below top more
      · cases stepped; exact .flushEnd elapsed i below top (Nat.le_of_not_lt more)
  case h_3 dest recordCount previous below top =>
      cases stepped; exact .sendAgain elapsed dest recordCount previous below top
  case h_4 dest sent recordCount previous below top =>
      cases stepped; exact .sendRelease elapsed dest sent recordCount previous below top
  case h_5 dest sent recordCount previous below top =>
      cases stepped; exact .loopbackRelease elapsed dest sent recordCount previous below top
  case h_6 previous below top =>
      cases stepped; exact .progressReturn elapsed previous below top
  case h_7 source loopback captured recordCount record pending below top =>
      cases stepped
      exact .invoke elapsed source loopback captured recordCount record pending below top
  case h_8 source loopback captured recordCount below top =>
      cases stepped; exact .receiveEnd elapsed source loopback captured recordCount below top
  case h_9 below top =>
      cases stepped; exact .incomingEnd elapsed below top
  case h_10 => cases stepped

theorem thread_step_cases {action : Action rankCount Record}
    (stepped : threadStep config self thread action = some thread') :
    ThreadStep config self thread action thread' := by
  cases action with
  | postAm dest record =>
      simp only [threadStep] at stepped
      split at stepped
      next worker idle => cases stepped; exact .postAm dest record worker rfl idle
      next => cases stepped
  | handlerPost dest record =>
      simp only [threadStep] at stepped
      split at stepped
      next worker source loopback captured recordCount pending current below top =>
        cases stepped
        exact .handlerPost dest record current worker rfl source loopback captured recordCount
          pending below top
      next => cases stepped
  | flush =>
      simp only [threadStep] at stepped
      split at stepped
      next worker idle => cases stepped; exact .flush worker rfl idle
      next => cases stepped
  | progress =>
      simp only [threadStep] at stepped
      split at stepped
      next worker idle => cases stepped; exact .progress worker rfl idle
      next => cases stepped
  | collectiveProgress =>
      simp only [threadStep] at stepped
      split at stepped
      next idle => cases stepped; exact .collectiveProgress rfl idle
      next => cases stepped
  | getUpacket answer =>
      simp only [threadStep] at stepped
      split at stepped
      next dest record previous below top =>
        cases stepped; exact .upacketNull dest record previous below top
      next dest record previous below packet stale top =>
        cases stepped; exact .upacket dest record previous below packet stale top
      next => cases stepped
  | postAmAnswer retry =>
      simp only [threadStep] at stepped
      split at stepped
      next dest recordCount previous below top =>
        cases retry with
        | true => cases stepped; exact .retry dest recordCount previous below top
        | false => cases stepped; exact .accept dest recordCount previous below top
      next => cases stepped
  | deliver source records =>
      simp only [threadStep] at stepped
      split at stepped
      next below top => cases stepped; exact .deliver source records below top
      next => cases stepped
  | progressEnd =>
      simp only [threadStep] at stepped
      split at stepped
      next below top => cases stepped; exact .progressEnd below top
      next => cases stepped
  | handlerReturn =>
      simp only [threadStep] at stepped
      split at stepped
      next source loopback captured recordCount pending record below top =>
        cases stepped
        exact .handlerReturn source loopback captured recordCount pending record below top
      next => cases stepped
  | resume elapsed => exact resume_cases stepped

section Calls

/-- The three ways of `flush_dest`: nothing to send, the loopback path, a send. -/
theorem flush_dest_cases (config : PhaseConfig rankCount) (self : Option Worker)
    (thread : ThreadState rankCount Worker Record) (dest : Fin rankCount) :
    ((thread.sendBuffers dest).records = [] ∧ thread.flushDest config self dest = thread) ∨
      ((thread.sendBuffers dest).records ≠ [] ∧ config.loopsBack dest = true ∧
        thread.flushDest config self dest =
          ((thread.openScope config self).withStack
            (.receive config.rank true (thread.openScope config self).profileWorker
                (thread.sendBuffers dest).size (thread.sendBuffers dest).records none ::
              .loopback dest (thread.sendBuffers dest).records (thread.sendBuffers dest).size
                thread.profileWorker :: thread.stack)).emit
            [.loopedBack dest (thread.sendBuffers dest).records]) ∨
      ((thread.sendBuffers dest).records ≠ [] ∧ config.loopsBack dest ≠ true ∧
        thread.flushDest config self dest =
          (thread.openScope config self).withStack
            (.send dest .ready (thread.sendBuffers dest).size thread.profileWorker ::
              thread.stack)) := by
  unfold ThreadState.flushDest
  by_cases empty : (thread.sendBuffers dest).empty = true
  · exact .inl ⟨(SendBuffer.empty_iff _).mp empty, if_pos empty⟩
  · rw [if_neg empty]
    have filled : (thread.sendBuffers dest).records ≠ [] := by
      rwa [Ne, ← SendBuffer.empty_iff]
    by_cases loops : config.loopsBack dest = true
    · exact .inr (.inl ⟨filled, loops, if_pos loops⟩)
    · exact .inr (.inr ⟨filled, loops, if_neg loops⟩)

/-- After a push `post_record` flushes a full buffer, or returns. -/
theorem after_push_cases (config : PhaseConfig rankCount) (self : Option Worker)
    (thread : ThreadState rankCount Worker Record) (dest : Fin rankCount)
    (previous : Option Worker) :
    ((thread.sendBuffers dest).size = (thread.sendBuffers dest).capacity ∧
        thread.afterPush config self dest previous =
          (thread.withStack (.postReturn previous :: thread.stack)).flushDest config self dest) ∨
      ((thread.sendBuffers dest).size ≠ (thread.sendBuffers dest).capacity ∧
        thread.afterPush config self dest previous =
          (thread.closeScope config previous).emit [.postReturned]) := by
  unfold ThreadState.afterPush
  by_cases full : (thread.sendBuffers dest).size = (thread.sendBuffers dest).capacity
  · exact .inl ⟨full, if_pos full⟩
  · exact .inr ⟨full, if_neg full⟩

/-- `post_record` writes through a pointer it has, or asks for a packet. -/
theorem post_record_cases (config : PhaseConfig rankCount) (self : Option Worker)
    (thread : ThreadState rankCount Worker Record) (dest : Fin rankCount) (record : Record) :
    (∃ pointer, (thread.sendBuffers dest).buffer.or (config.fallbackBuffer dest) = some pointer ∧
        thread.postRecord config self dest record =
          ((thread.openScope config self).write dest pointer record).afterPush config self dest
            thread.profileWorker) ∨
      ((thread.sendBuffers dest).buffer.or (config.fallbackBuffer dest) = none ∧
        thread.postRecord config self dest record =
          (thread.openScope config self).withStack
            (.push dest record thread.profileWorker :: thread.stack)) := by
  unfold ThreadState.postRecord
  cases found : (thread.sendBuffers dest).buffer.or (config.fallbackBuffer dest) with
  | some pointer => exact .inl ⟨pointer, rfl, rfl⟩
  | none => exact .inr ⟨rfl, rfl⟩

/-- A destination out of range changes nothing but the log. -/
theorem post_am_cases (config : PhaseConfig rankCount) (self : Option Worker)
    (thread : ThreadState rankCount Worker Record) (dest : Int) (record : Record) :
    (∃ rank, checkedDestination rankCount dest = some rank ∧
        thread.postAm config self dest record = thread.postRecord config self rank record) ∨
      (checkedDestination rankCount dest = none ∧
        thread.postAm config self dest record =
          thread.emit [.rejected "LCI irregular AM destination rank is out of range"]) := by
  unfold ThreadState.postAm
  cases checked : checkedDestination rankCount dest with
  | some rank => exact .inl ⟨rank, rfl, rfl⟩
  | none => exact .inr ⟨rfl, rfl⟩

end Calls

section Growth

abbrev Log (rankCount : Nat) (Worker Record : Type) := List (Event rankCount Worker Record)

/-- The log grew, without taking a message in. -/
def Grows (before after : Log rankCount Worker Record) : Prop :=
  ∃ later, after = before ++ later ∧ ∀ source records, .delivered source records ∉ later

theorem Grows.refl (log : Log rankCount Worker Record) : Grows log log :=
  ⟨[], (List.append_nil log).symm, by simp⟩

theorem Grows.trans {first second third : Log rankCount Worker Record}
    (early : Grows first second) (late : Grows second third) : Grows first third := by
  obtain ⟨later, rfl, noneEarly⟩ := early
  obtain ⟨last, rfl, noneLate⟩ := late
  refine ⟨later ++ last, List.append_assoc _ _ _, ?_⟩
  intro source records member
  rcases List.mem_append.mp member with inLater | inLast
  · exact noneEarly source records inLater
  · exact noneLate source records inLast

theorem Grows.emit {before after : Log rankCount Worker Record} (grows : Grows before after)
    {events : Log rankCount Worker Record}
    (silent : ∀ source records, .delivered source records ∉ events) :
    Grows before (after ++ events) :=
  grows.trans ⟨events, rfl, silent⟩

theorem flush_dest_grows (config : PhaseConfig rankCount) (self : Option Worker)
    (thread : ThreadState rankCount Worker Record) (dest : Fin rankCount) :
    Grows thread.log (thread.flushDest config self dest).log := by
  rcases flush_dest_cases config self thread dest with ⟨empty, made⟩ | ⟨filled, loops, made⟩ |
    ⟨filled, loops, made⟩
  · rw [made]
    exact .refl _
  · rw [made]
    exact (Grows.refl _).emit (by simp)
  · rw [made]
    exact .refl _

theorem after_push_grows (config : PhaseConfig rankCount) (self : Option Worker)
    (thread : ThreadState rankCount Worker Record) (dest : Fin rankCount)
    (previous : Option Worker) :
    Grows thread.log (thread.afterPush config self dest previous).log := by
  rcases after_push_cases config self thread dest previous with ⟨full, made⟩ | ⟨full, made⟩
  · rw [made]
    exact flush_dest_grows config self _ dest
  · rw [made]
    exact (Grows.refl _).emit (by simp)

theorem post_am_grows (config : PhaseConfig rankCount) (self : Option Worker)
    (thread : ThreadState rankCount Worker Record) (dest : Int) (record : Record) :
    Grows thread.log (thread.postAm config self dest record).log := by
  rcases post_am_cases config self thread dest record with ⟨rank, checked, made⟩ | ⟨outside, made⟩
  · rw [made]
    rcases post_record_cases config self thread rank record with
      ⟨pointer, available, made⟩ | ⟨unavailable, made⟩
    · rw [made]
      refine Grows.trans ?_ (after_push_grows config self _ rank _)
      exact (Grows.refl _).emit (by simp)
    · rw [made]
      exact .refl _
  · rw [made]
    exact (Grows.refl _).emit (by simp)

variable {action : Action rankCount Record}

theorem step_grows (step : ThreadStep config self thread action thread')
    (noDelivery : ∀ source records, action ≠ .deliver source records) :
    Grows thread.log thread'.log := by
  cases step with
  | postAm dest record => exact post_am_grows config self thread dest record
  | handlerPost dest record => exact post_am_grows config self thread dest record
  | upacket dest record previous below packet stale top =>
      unfold ThreadState.adoptPacket
      refine Grows.trans ?_ (after_push_grows config self _ dest previous)
      exact ((Grows.refl _).emit (by simp)).emit (by simp)
  | flushNext elapsed i below top more =>
      exact flush_dest_grows config self (thread.withStack (.flushWorker (i + 1) :: below)) _
  | deliver source records below top => exact absurd rfl (noDelivery source records)
  | loopbackRelease elapsed dest sent recordCount previous below top =>
      have returned : Grows thread.log (thread.returnPacket config dest).log := by
        unfold ThreadState.returnPacket
        split
        · exact (Grows.refl _).emit (by simp)
        · exact .refl _
      exact returned.emit (by simp)
  | flush | progress | collectiveProgress | upacketNull | progressEnd | sendAgain => exact .refl _
  | retry | accept | handlerReturn | postReturn | flushEnd | sendRelease | progressReturn | invoke |
      receiveEnd | incomingEnd => exact (Grows.refl _).emit (by simp)

/-- A delivered batch is taken in as it is. An empty one would abort. -/
theorem deliver_grows {source : Fin rankCount} {records : List Record}
    (step : ThreadStep config self thread (.deliver source records) thread')
    (nonempty : records ≠ []) : thread'.log = thread.log ++ [.delivered source records] := by
  cases step with
  | deliver _ _ below top =>
      have counted := record_count_from_message_bytes config.record_size_positive
        (List.length_pos_iff.mpr nonempty)
      unfold ThreadState.handleIncomingAm
      rw [counted]
      rfl

theorem step_extends (step : ThreadStep config self thread action thread') :
    ∃ later, thread'.log = thread.log ++ later := by
  by_cases delivery : ∃ source records, action = .deliver source records
  · obtain ⟨source, records, rfl⟩ := delivery
    cases step with
    | deliver _ _ below top =>
        unfold ThreadState.handleIncomingAm
        split
        · exact ⟨_, rfl⟩
        · exact ⟨_, rfl⟩
  · obtain ⟨later, extended, _⟩ := step_grows step fun source records same =>
      delivery ⟨source, records, same⟩
    exact ⟨later, extended⟩

end Growth

end IntegerSortLci.Runtime
