import IntegerSortLci.Runtime.QuietRuns

/-!
# What a thread's log says about the messages it receives

In a quiet run a receive is always the innermost call. The records of the
messages a thread has taken in are, in order, those its handler was called for
followed by the ones still waiting in the open receive.
-/

namespace IntegerSortLci.Runtime

open Foundations

set_option autoImplicit false

variable {rankCount : Nat} {Worker Record : Type}

namespace Event

/-- The records a message brings in, with their source rank. -/
def incomingRecords : Event rankCount Worker Record → List (Fin rankCount × Record)
  | .delivered source records => records.map (Prod.mk source)
  | .loopedBack dest records => records.map (Prod.mk dest)
  | _ => []

def invokedRecords : Event rankCount Worker Record → List (Fin rankCount × Record)
  | .invoked source record => [(source, record)]
  | _ => []

def completedRecords : Event rankCount Worker Record → List (Fin rankCount × Record)
  | .completed source record => [(source, record)]
  | _ => []

/-- What `recv_count_.fetch_add` adds. -/
def receivedRecords : Event rankCount Worker Record → Nat
  | .received _ _ recordCount _ _ => recordCount
  | _ => 0

/-- Events of the receive path. -/
def receives : Event rankCount Worker Record → Bool
  | .delivered _ _ => true
  | .loopedBack _ _ => true
  | .invoked _ _ => true
  | .completed _ _ => true
  | .received _ _ _ _ _ => true
  | _ => false

end Event

def incomingIn (log : Log rankCount Worker Record) : List (Fin rankCount × Record) :=
  log.flatMap Event.incomingRecords

def invokedIn (log : Log rankCount Worker Record) : List (Fin rankCount × Record) :=
  log.flatMap Event.invokedRecords

def completedIn (log : Log rankCount Worker Record) : List (Fin rankCount × Record) :=
  log.flatMap Event.completedRecords

def receivedIn (log : Log rankCount Worker Record) : Nat := tally Event.receivedRecords log

def Frame.isReceive : Frame rankCount Worker Record → Bool
  | .receive _ _ _ _ _ _ => true
  | _ => false

/-- The records of the open receive whose handler call has not begun. -/
def pendingOf : Stack rankCount Worker Record → List (Fin rankCount × Record)
  | .receive source _ _ _ pending _ :: _ => pending.map (Prod.mk source)
  | _ => []

/-- The record whose handler call is open. -/
def runningOf : Stack rankCount Worker Record → List (Fin rankCount × Record)
  | .receive source _ _ _ _ (some record) :: _ => [(source, record)]
  | _ => []

/-- The size of the message in the open receive. -/
def openedOf : Stack rankCount Worker Record → Nat
  | .receive _ _ _ recordCount _ _ :: _ => recordCount
  | _ => 0

structure Received (stack : Stack rankCount Worker Record) (log : Log rankCount Worker Record) :
    Prop where
  handled : incomingIn log = invokedIn log ++ pendingOf stack
  invoked : invokedIn log = completedIn log ++ runningOf stack
  counted : (completedIn log).length + (pendingOf stack).length + (runningOf stack).length =
    receivedIn log + openedOf stack
  bounded : (pendingOf stack).length + (runningOf stack).length ≤ openedOf stack

/-- No receive is open. -/
def Resting (stack : Stack rankCount Worker Record) : Prop :=
  pendingOf stack = [] ∧ runningOf stack = [] ∧ openedOf stack = 0

/-- A batch goes to the network only if it is not empty and not for the loopback
path, and to the loopback path only for the own rank. -/
def Routed (config : PhaseConfig rankCount) : Event rankCount Worker Record → Prop
  | .accepted dest records _ => records ≠ [] ∧ config.loopsBack dest = false
  | .loopedBack dest _ => config.loopsBack dest = true
  | _ => True

variable {config : PhaseConfig rankCount} {self : Option Worker}
variable {stack below : Stack rankCount Worker Record} {log : Log rankCount Worker Record}
variable {frame top : Frame rankCount Worker Record} {buffers : Buffers rankCount Record}

theorem loops_back_rank {dest : Fin rankCount} (loops : config.loopsBack dest = true) :
    dest = config.rank := by
  unfold PhaseConfig.loopsBack at loops
  exact eq_of_beq (Bool.and_eq_true_iff.mp loops).1

section Ledger

theorem resting_nil : Resting ([] : Stack rankCount Worker Record) := ⟨rfl, rfl, rfl⟩

theorem resting_of_level (low : frame.level < 4) : Resting (frame :: below) := by
  cases frame with
  | receive => exact absurd low (by simp [Frame.level])
  | _ => exact ⟨rfl, rfl, rfl⟩

theorem resting_of_no_receive (none : ∀ frame ∈ stack, frame.isReceive = false) :
    Resting stack := by
  cases stack with
  | nil => exact resting_nil
  | cons frame below =>
      have notReceive := none frame List.mem_cons_self
      cases frame with
      | receive => cases notReceive
      | _ => exact ⟨rfl, rfl, rfl⟩

/-- Whatever lies under another frame of a quiet stack is not a receive. -/
theorem QuietStack.resting_below (quiet : QuietStack config buffers (top :: below)) :
    Resting below := by
  cases below with
  | nil => exact resting_nil
  | cons frame rest =>
      apply resting_of_level
      have lower := (List.pairwise_cons.mp quiet.ordered).1 frame List.mem_cons_self
      have bound : top.level ≤ 4 := by
        cases top <;> simp [Frame.level]
      omega

theorem incoming_append (first second : Log rankCount Worker Record) :
    incomingIn (first ++ second) = incomingIn first ++ incomingIn second := List.flatMap_append

theorem invoked_append (first second : Log rankCount Worker Record) :
    invokedIn (first ++ second) = invokedIn first ++ invokedIn second := List.flatMap_append

theorem completed_append (first second : Log rankCount Worker Record) :
    completedIn (first ++ second) = completedIn first ++ completedIn second :=
  List.flatMap_append

theorem received_append (first second : Log rankCount Worker Record) :
    receivedIn (first ++ second) = receivedIn first + receivedIn second := tally_append _ _ _

/-- An event off the receive path adds to none of the sums. -/
theorem silent_event {event : Event rankCount Worker Record} (silent : event.receives = false) :
    event.incomingRecords = [] ∧ event.invokedRecords = [] ∧ event.completedRecords = [] ∧
      event.receivedRecords = 0 := by
  cases event <;> first | exact ⟨rfl, rfl, rfl, rfl⟩ | cases silent

/-- Events off the receive path, while no receive is open before or after. -/
theorem Received.off_path (received : Received stack log) (before : Resting stack)
    {stack' : Stack rankCount Worker Record} (after : Resting stack')
    {events : Log rankCount Worker Record} (off : ∀ event ∈ events, event.receives = false) :
    Received stack' (log ++ events) := by
  have none : incomingIn events = [] ∧ invokedIn events = [] ∧ completedIn events = [] ∧
      receivedIn events = 0 := by
    refine ⟨?_, ?_, ?_, ?_⟩
    · apply List.flatMap_eq_nil_iff.mpr
      intro event member
      exact (silent_event (off event member)).1
    · apply List.flatMap_eq_nil_iff.mpr
      intro event member
      exact (silent_event (off event member)).2.1
    · apply List.flatMap_eq_nil_iff.mpr
      intro event member
      exact (silent_event (off event member)).2.2.1
    · apply tally_zero
      intro event member
      exact (silent_event (off event member)).2.2.2
  obtain ⟨noPending, noRunning, notOpened⟩ := before
  obtain ⟨noPending', noRunning', notOpened'⟩ := after
  obtain ⟨noIncoming, noInvoked, noCompleted, noReceived⟩ := none
  refine ⟨?_, ?_, ?_, ?_⟩
  · rw [incoming_append, invoked_append, noIncoming, noInvoked, received.handled, noPending,
      noPending', List.append_nil]
  · rw [invoked_append, completed_append, noInvoked, noCompleted, received.invoked, noRunning,
      noRunning', List.append_nil]
  · have counted := received.counted
    rw [noPending, noRunning, notOpened] at counted
    rw [completed_append, received_append, noCompleted, noReceived, noPending', noRunning',
      notOpened']
    simpa using counted
  · rw [noPending', noRunning']
    exact Nat.zero_le _

/-- A message comes in: its receive opens with every record still waiting. -/
theorem Received.take_in (received : Received stack log) (resting : Resting stack)
    {source : Fin rankCount} {loopback : Bool} {captured : Option Worker} {records : List Record}
    {event : Event rankCount Worker Record}
    (brings : event.incomingRecords = records.map (Prod.mk source))
    (quietEvent : event.invokedRecords = [] ∧ event.completedRecords = [] ∧
      event.receivedRecords = 0) :
    Received (.receive source loopback captured records.length records none :: stack)
      (log ++ [event]) := by
  obtain ⟨noPending, noRunning, notOpened⟩ := resting
  obtain ⟨noInvoked, noCompleted, noReceived⟩ := quietEvent
  have incoming : incomingIn [event] = records.map (Prod.mk source) := by
    rw [← brings]
    exact List.append_nil _
  have invoked : invokedIn [event] = [] := by
    rw [← noInvoked]
    exact List.append_nil _
  have completed : completedIn [event] = [] := by
    rw [← noCompleted]
    exact List.append_nil _
  refine ⟨?_, ?_, ?_, ?_⟩
  · rw [incoming_append, invoked_append, incoming, invoked, received.handled, noPending]
    simp [pendingOf]
  · rw [invoked_append, completed_append, invoked, completed, received.invoked, noRunning]
    simp [runningOf]
  · have counted := received.counted
    rw [noPending, noRunning, notOpened] at counted
    rw [completed_append, received_append, completed]
    simp only [receivedIn, tally_cons, tally_nil, noReceived, pendingOf, runningOf, openedOf,
      List.append_nil, List.length_map, List.length_nil] at counted ⊢
    omega
  · simp [pendingOf, runningOf, openedOf]

end Ledger

section Calls

variable {thread : ThreadState rankCount Worker Record} {dest : Fin rankCount}

theorem flush_dest_received (received : Received thread.stack thread.log)
    (resting : Resting thread.stack) :
    Received (thread.flushDest config self dest).stack
      (thread.flushDest config self dest).log := by
  rcases flush_dest_cases config self thread dest with ⟨empty, made⟩ | ⟨filled, loops, made⟩ |
    ⟨filled, loops, made⟩
  · rw [made]
    exact received
  · rw [made]
    have moved : Received
        (.loopback dest (thread.sendBuffers dest).records (thread.sendBuffers dest).size
          thread.profileWorker :: thread.stack) (thread.log ++ []) :=
      received.off_path resting (resting_of_level (by simp [Frame.level])) (by simp)
    rw [List.append_nil] at moved
    apply moved.take_in (resting_of_level (by simp [Frame.level]))
    · rw [← loops_back_rank loops]
      rfl
    · exact ⟨rfl, rfl, rfl⟩
  · rw [made]
    have moved : Received
        (.send dest .ready (thread.sendBuffers dest).size thread.profileWorker :: thread.stack)
        (thread.log ++ []) :=
      received.off_path resting (resting_of_level (by simp [Frame.level])) (by simp)
    rwa [List.append_nil] at moved

theorem after_push_received {previous : Option Worker}
    (received : Received thread.stack thread.log) (idle : thread.stack = []) :
    Received (thread.afterPush config self dest previous).stack
      (thread.afterPush config self dest previous).log := by
  have resting : Resting thread.stack := idle ▸ resting_nil
  rcases after_push_cases config self thread dest previous with ⟨full, made⟩ | ⟨full, made⟩
  · rw [made]
    apply flush_dest_received
    · have moved : Received (.postReturn previous :: thread.stack) (thread.log ++ []) :=
        received.off_path resting (resting_of_level (by simp [Frame.level])) (by simp)
      rwa [List.append_nil] at moved
    · exact resting_of_level (by simp [Frame.level])
  · rw [made]
    exact received.off_path resting resting (by simp [Event.receives])

theorem write_received {pointer : BufferPtr} {record : Record}
    (received : Received thread.stack thread.log) (resting : Resting thread.stack) :
    Received (thread.write dest pointer record).stack (thread.write dest pointer record).log :=
  received.off_path resting resting (by simp [Event.receives])

theorem post_am_received {dest : Int} {record : Record}
    (received : Received thread.stack thread.log) (idle : thread.stack = []) :
    Received (thread.postAm config self dest record).stack
      (thread.postAm config self dest record).log := by
  have resting : Resting thread.stack := idle ▸ resting_nil
  rcases post_am_cases config self thread dest record with ⟨rank, checked, made⟩ | ⟨outside, made⟩
  · rw [made]
    rcases post_record_cases config self thread rank record with
      ⟨pointer, available, made⟩ | ⟨unavailable, made⟩
    · rw [made]
      refine after_push_received (write_received ?_ ?_) idle
      · exact received
      · exact resting
    · rw [made]
      have moved : Received (.push rank record thread.profileWorker :: thread.stack)
          (thread.log ++ []) :=
        received.off_path resting (resting_of_level (by simp [Frame.level])) (by simp)
      rwa [List.append_nil] at moved
  · rw [made]
    exact received.off_path resting resting (by simp [Event.receives])

end Calls

variable {thread thread' : ThreadState rankCount Worker Record} {action : Action rankCount Record}

/-- A step between two resting stacks. -/
private theorem Received.move (received : Received stack log) (before : Resting stack)
    {stack' : Stack rankCount Worker Record} (after : Resting stack') : Received stack' log := by
  have moved : Received stack' (log ++ []) := received.off_path before after (by simp)
  rwa [List.append_nil] at moved

theorem step_received (step : ThreadStep config self thread action thread')
    (silent : QuietAction action) (quiet : QuietStack config thread.sendBuffers thread.stack)
    (received : Received thread.stack thread.log) : Received thread'.stack thread'.log := by
  have resting := quiet
  cases step with
  | postAm dest record worker owner idle => exact post_am_received received idle
  | handlerPost => exact silent.elim
  | flush worker owner idle =>
      rw [idle] at received
      exact received.move resting_nil (resting_of_level (by simp [Frame.level]))
  | progress worker owner idle =>
      rw [idle] at received
      exact received.move resting_nil (resting_of_level (by simp [Frame.level]))
  | collectiveProgress control idle =>
      rw [idle] at received
      exact received.move resting_nil (resting_of_level (by simp [Frame.level]))
  | upacketNull dest record previous below top =>
      rw [top] at received
      exact received.move (resting_of_level (by simp [Frame.level]))
        (resting_of_level (by simp [Frame.level]))
  | upacket dest record previous below packet stale top =>
      rw [top] at received resting
      obtain rfl := resting.bottom rfl
      have popped : Received ([] : Stack rankCount Worker Record) thread.log :=
        received.move (resting_of_level (by simp [Frame.level])) resting_nil
      unfold ThreadState.adoptPacket
      refine after_push_received (write_received ?_ resting_nil) rfl
      exact popped.off_path resting_nil resting_nil (by simp [Event.receives])
  | retry dest recordCount previous below top =>
      rw [top] at received
      exact received.off_path (resting_of_level (by simp [Frame.level]))
        (resting_of_level (by simp [Frame.level])) (by simp [Event.receives])
  | accept dest recordCount previous below top =>
      rw [top] at received
      exact received.off_path (resting_of_level (by simp [Frame.level]))
        (resting_of_level (by simp [Frame.level])) (by simp [Event.receives])
  | deliver source records below top =>
      rw [top] at received
      unfold ThreadState.handleIncomingAm
      rw [top]
      have entered : Received (.incoming :: .progress :: below) thread.log :=
        received.move (resting_of_level (by simp [Frame.level]))
          (resting_of_level (by simp [Frame.level]))
      split
      case h_1 recordCount counted =>
          obtain rfl := record_count_exact config.record_size_positive counted
          apply entered.take_in (resting_of_level (by simp [Frame.level]))
          · rfl
          · exact ⟨rfl, rfl, rfl⟩
      case h_2 =>
          apply received.off_path (resting_of_level (by simp [Frame.level]))
          · exact ⟨rfl, rfl, rfl⟩
          · simp [Event.receives]
  | progressEnd below top =>
      rw [top] at received resting
      exact received.move (resting_of_level (by simp [Frame.level])) resting.resting_below
  | handlerReturn source loopback captured recordCount pending record below top =>
      rw [top] at received
      refine ⟨?_, ?_, ?_, ?_⟩
      · rw [ThreadState.emit_log, incoming_append, invoked_append]
        simpa [incomingIn, invokedIn, Event.incomingRecords, Event.invokedRecords, pendingOf] using
          received.handled
      · rw [ThreadState.emit_log, invoked_append, completed_append]
        simpa [invokedIn, completedIn, Event.completedRecords, Event.invokedRecords,
          runningOf] using received.invoked
      · have counted := received.counted
        rw [ThreadState.emit_log, completed_append, received_append]
        simp [completedIn, receivedIn, Event.completedRecords, Event.receivedRecords, pendingOf,
          runningOf, openedOf] at counted ⊢
        omega
      · have bounded := received.bounded
        simp [pendingOf, runningOf, openedOf] at bounded ⊢
        omega
  | postReturn elapsed previous below top =>
      rw [top] at received resting
      exact received.off_path (resting_of_level (by simp [Frame.level])) resting.resting_below
        (by simp [Event.receives])
  | flushNext elapsed i below top more =>
      rw [top] at received
      apply flush_dest_received
      · exact received.move (resting_of_level (by simp [Frame.level]))
          (resting_of_level (by simp [Frame.level]))
      · exact resting_of_level (by simp [Frame.level])
  | flushEnd elapsed i below top finished =>
      rw [top] at received resting
      exact received.off_path (resting_of_level (by simp [Frame.level])) resting.resting_below
        (by simp [Event.receives])
  | sendAgain elapsed dest recordCount previous below top =>
      rw [top] at received
      exact received.move (resting_of_level (by simp [Frame.level]))
        (resting_of_level (by simp [Frame.level]))
  | sendRelease elapsed dest sent recordCount previous below top =>
      rw [top] at received resting
      exact received.off_path (resting_of_level (by simp [Frame.level])) resting.resting_below
        (by simp [Event.receives])
  | loopbackRelease elapsed dest sent recordCount previous below top =>
      rw [top] at received resting
      have returned : ∃ events : Log rankCount Worker Record,
          (∀ event ∈ events, event.receives = false) ∧
            (thread.returnPacket config dest).log = thread.log ++ events := by
        unfold ThreadState.returnPacket
        split
        · exact ⟨_, by simp [Event.receives], rfl⟩
        · exact ⟨[], by simp, by simp⟩
      obtain ⟨events, off, extended⟩ := returned
      rw [ThreadState.finish_flush_log, ThreadState.with_stack_log, extended, List.append_assoc]
      apply received.off_path (resting_of_level (by simp [Frame.level])) resting.resting_below
      intro event member
      rcases List.mem_append.mp member with early | late
      · exact off event early
      · simp only [List.mem_cons, List.not_mem_nil, or_false] at late
        rcases late with rfl | rfl <;> rfl
  | progressReturn elapsed previous below top =>
      rw [top] at received resting
      exact received.off_path (resting_of_level (by simp [Frame.level])) resting.resting_below
        (by simp [Event.receives])
  | invoke elapsed source loopback captured recordCount record pending below top =>
      rw [top] at received
      refine ⟨?_, ?_, ?_, ?_⟩
      · rw [ThreadState.emit_log, incoming_append, invoked_append]
        simpa [incomingIn, invokedIn, Event.incomingRecords, Event.invokedRecords, pendingOf] using
          received.handled
      · rw [ThreadState.emit_log, invoked_append, completed_append]
        simpa [invokedIn, completedIn, Event.completedRecords, Event.invokedRecords,
          runningOf] using received.invoked
      · have counted := received.counted
        rw [ThreadState.emit_log, completed_append, received_append]
        simp [completedIn, receivedIn, Event.completedRecords, Event.receivedRecords, pendingOf,
          runningOf, openedOf] at counted ⊢
        omega
      · have bounded := received.bounded
        simp [pendingOf, runningOf, openedOf] at bounded ⊢
        omega
  | receiveEnd elapsed source loopback captured recordCount below top =>
      rw [top] at received resting
      obtain ⟨noPending, noRunning, notOpened⟩ := resting.resting_below
      refine ⟨?_, ?_, ?_, ?_⟩
      · rw [ThreadState.emit_log, incoming_append, invoked_append, ThreadState.emit_stack,
          ThreadState.with_stack_stack, noPending]
        simpa [incomingIn, invokedIn, Event.incomingRecords, Event.invokedRecords, pendingOf] using
          received.handled
      · rw [ThreadState.emit_log, invoked_append, completed_append, ThreadState.emit_stack,
          ThreadState.with_stack_stack, noRunning]
        simpa [invokedIn, completedIn, Event.completedRecords, Event.invokedRecords, runningOf]
          using received.invoked
      · have counted := received.counted
        rw [ThreadState.emit_log, completed_append, received_append, ThreadState.emit_stack,
          ThreadState.with_stack_stack, noPending, noRunning, notOpened]
        simp [completedIn, receivedIn, Event.completedRecords, Event.receivedRecords, pendingOf,
          runningOf, openedOf] at counted ⊢
        omega
      · rw [ThreadState.emit_stack, ThreadState.with_stack_stack, noPending, noRunning]
        exact Nat.zero_le _
  | incomingEnd elapsed below top =>
      rw [top] at received resting
      exact received.off_path (resting_of_level (by simp [Frame.level])) resting.resting_below
        (by simp [Event.receives])

section EventRule

/-- An event that neither hands a batch over nor is measured. -/
def Event.plain : Event rankCount Worker Record → Bool
  | .accepted _ _ _ => false
  | .loopedBack _ _ => false
  | .flushed _ _ _ _ _ => false
  | .received _ _ _ _ _ => false
  | _ => true

private theorem good_append {Good : Event rankCount Worker Record → Prop}
    {first second : Log rankCount Worker Record} (early : ∀ event ∈ first, Good event)
    (late : ∀ event ∈ second, Good event) : ∀ event ∈ first ++ second, Good event := by
  intro event member
  rcases List.mem_append.mp member with inFirst | inSecond
  · exact early event inFirst
  · exact late event inSecond

private theorem good_plain {Good : Event rankCount Worker Record → Prop}
    (plain : ∀ event : Event rankCount Worker Record, event.plain = true → Good event)
    {events : Log rankCount Worker Record} (all : events.all Event.plain = true) :
    ∀ event ∈ events, Good event := by
  intro event member
  exact plain event (List.all_eq_true.mp all event member)

section Composite

variable {Good : Event rankCount Worker Record → Prop}
variable (plain : ∀ event : Event rankCount Worker Record, event.plain = true → Good event)
variable (looped : ∀ dest records, config.loopsBack dest = true → Good (.loopedBack dest records))

include looped in
private theorem flush_dest_events (thread : ThreadState rankCount Worker Record)
    (dest : Fin rankCount) (good : ∀ event ∈ thread.log, Good event) :
    ∀ event ∈ (thread.flushDest config self dest).log, Good event := by
  rcases flush_dest_cases config self thread dest with ⟨empty, made⟩ | ⟨filled, loops, made⟩ |
    ⟨filled, loops, made⟩
  · rw [made]
    exact good
  · rw [made]
    exact good_append good (by simpa using looped dest _ loops)
  · rw [made]
    exact good

include plain looped in
private theorem after_push_events (thread : ThreadState rankCount Worker Record)
    (dest : Fin rankCount) (previous : Option Worker) (good : ∀ event ∈ thread.log, Good event) :
    ∀ event ∈ (thread.afterPush config self dest previous).log, Good event := by
  rcases after_push_cases config self thread dest previous with ⟨full, made⟩ | ⟨full, made⟩
  · rw [made]
    exact flush_dest_events looped _ dest good
  · rw [made]
    exact good_append good (good_plain plain rfl)

include plain looped in
private theorem post_am_events (thread : ThreadState rankCount Worker Record) (dest : Int)
    (record : Record) (good : ∀ event ∈ thread.log, Good event) :
    ∀ event ∈ (thread.postAm config self dest record).log, Good event := by
  rcases post_am_cases config self thread dest record with ⟨rank, checked, made⟩ | ⟨outside, made⟩
  · rw [made]
    rcases post_record_cases config self thread rank record with
      ⟨pointer, available, made⟩ | ⟨unavailable, made⟩
    · rw [made]
      apply after_push_events plain looped
      exact good_append good (good_plain plain rfl)
    · rw [made]
      exact good
  · rw [made]
    exact good_append good (good_plain plain rfl)

/-- What holds of each event a step may add holds of the whole log. -/
theorem step_events (step : ThreadStep config self thread action thread')
    (plain : ∀ event : Event rankCount Worker Record, event.plain = true → Good event)
    (looped : ∀ dest records, config.loopsBack dest = true → Good (.loopedBack dest records))
    (accepted : ∀ dest recordCount previous,
      .send dest .ready recordCount previous ∈ thread.stack →
        ∀ buffer, Good (.accepted dest (thread.sendBuffers dest).records buffer))
    (flushed : ∀ dest, ∀ frame ∈ thread.stack, frame.target = some dest →
      ∀ recordCount elapsed,
        Good (.flushed dest self recordCount (recordCount * config.recordSize) elapsed))
    (received : ∀ source loopback captured recordCount,
      .receive source loopback captured recordCount [] none ∈ thread.stack → ∀ elapsed,
        Good (.received loopback captured recordCount (recordCount * config.recordSize) elapsed))
    (good : ∀ event ∈ thread.log, Good event) : ∀ event ∈ thread'.log, Good event := by
  cases step with
  | postAm dest record => exact post_am_events plain looped thread dest record good
  | handlerPost dest record => exact post_am_events plain looped thread dest record good
  | upacket dest record previous below packet stale top =>
      unfold ThreadState.adoptPacket
      apply after_push_events plain looped
      exact good_append (good_append good (good_plain plain rfl)) (good_plain plain rfl)
  | accept dest recordCount previous below top =>
      have member : .send dest .ready recordCount previous ∈ thread.stack := by
        rw [top]
        exact List.mem_cons_self
      exact good_append good (by simpa using accepted dest recordCount previous member _)
  | flushNext elapsed i below top more => exact flush_dest_events looped _ _ good
  | deliver source records below top =>
      unfold ThreadState.handleIncomingAm
      split
      · exact good_append good (good_plain plain rfl)
      · exact good_append good (good_plain plain rfl)
  | sendRelease elapsed dest sent recordCount previous below top =>
      have member : .send dest (.accepted sent) recordCount previous ∈ thread.stack := by
        rw [top]
        exact List.mem_cons_self
      apply good_append good
      simpa using ⟨plain _ rfl, flushed dest _ member rfl recordCount elapsed⟩
  | loopbackRelease elapsed dest sent recordCount previous below top =>
      have member : .loopback dest sent recordCount previous ∈ thread.stack := by
        rw [top]
        exact List.mem_cons_self
      rw [ThreadState.finish_flush_log, ThreadState.with_stack_log]
      refine good_append ?_ (by
        simpa using ⟨plain _ rfl, flushed dest _ member rfl recordCount elapsed⟩)
      unfold ThreadState.returnPacket
      split
      · exact good_append good (good_plain plain rfl)
      · exact good
  | receiveEnd elapsed source loopback captured recordCount below top =>
      have member : .receive source loopback captured recordCount [] none ∈ thread.stack := by
        rw [top]
        exact List.mem_cons_self
      apply good_append good
      simpa using received source loopback captured recordCount member elapsed
  | flush | progress | collectiveProgress | upacketNull | progressEnd | sendAgain => exact good
  | retry | handlerReturn | postReturn | flushEnd | progressReturn | invoke | incomingEnd =>
      exact good_append good (good_plain plain rfl)

end Composite
end EventRule

theorem step_routed (step : ThreadStep config self thread action thread')
    (quiet : QuietStack config thread.sendBuffers thread.stack)
    (routed : ∀ event ∈ thread.log, Routed config event) :
    ∀ event ∈ thread'.log, Routed config event := by
  apply step_events step _ _ _ _ _ routed
  · intro event plain
    cases event <;> trivial
  · intro dest records loops
    exact loops
  · intro dest recordCount previous member buffer
    obtain ⟨_, nonempty, remote⟩ := quiet.fits _ member
    exact ⟨nonempty, remote⟩
  · intros
    trivial
  · intros
    trivial

theorem reachable_routed
    (reached : (threadSystem config self).Reachable (fun _ => QuietAction) (.initial config)
      thread) : ∀ event ∈ thread.log, Routed config event := by
  apply reached.invariant
  · simp [ThreadState.initial]
  · intro before after action prior routed _ stepped
    exact step_routed (thread_step_cases stepped) (reachable_quiet prior).stack routed

theorem reachable_received
    (reached : (threadSystem config self).Reachable (fun _ => QuietAction) (.initial config)
      thread) : Received thread.stack thread.log := by
  apply reached.invariant
  · exact ⟨rfl, rfl, rfl, Nat.zero_le _⟩
  · intro before after action prior received silent stepped
    exact step_received (thread_step_cases stepped) silent (reachable_quiet prior).stack received

end IntegerSortLci.Runtime
