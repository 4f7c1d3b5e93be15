import IntegerSortLci.Runtime.Delivery
import IntegerSortLci.Runtime.ThreadDrain

/-!
# No message makes a rank abort

`record_count_from_message_bytes` aborts on a size that is not that of a batch. LCI is
handed batches only, so in a phase no thread aborts, and by `thread_returns` each of them
can return from its calls. The thread that runs the collectives only takes messages in.
-/

namespace IntegerSortLci.Runtime

open Foundations
open scoped BigOperators

set_option autoImplicit false

variable {rankCount : Nat} {Worker Record Memory : Type}

/-- The thread has not aborted. -/
def ThreadState.Live (thread : ThreadState rankCount Worker Record) : Prop :=
  ∀ frame ∈ thread.stack, frame ≠ .aborted

/-- All frames are those of messages that are being taken in. -/
def ThreadState.TakesIn (thread : ThreadState rankCount Worker Record) : Prop :=
  ∀ frame ∈ thread.stack, frame.takesIn = true

/-- A delivery hands a nonempty batch over. -/
def Action.Batched : Action rankCount Record → Prop
  | .deliver _ records => records ≠ []
  | _ => True

section Threads

variable {config : PhaseConfig rankCount} {self : Option Worker}
variable {thread thread' : ThreadState rankCount Worker Record}
variable {action : Action rankCount Record}

/-- The size of a batch is accepted. -/
theorem batch_taken_in (source : Fin rankCount) {records : List Record} (batch : records ≠ []) :
    thread.handleIncomingAm config source records =
      (thread.withStack
        (.receive source false thread.profileWorker records.length records none ::
          .incoming :: thread.stack)).emit [.delivered source records] := by
  have counted := record_count_from_message_bytes config.record_size_positive
    (List.length_pos_iff.mpr batch)
  unfold ThreadState.handleIncomingAm
  rw [counted]

theorem flush_dest_live (dest : Fin rankCount) (live : thread.Live) :
    (thread.flushDest config self dest).Live := by
  rcases flush_dest_cases config self thread dest with ⟨-, made⟩ | ⟨-, -, made⟩ | ⟨-, -, made⟩
  · rw [made]
    exact live
  · rw [made]
    simpa [ThreadState.Live] using live
  · rw [made]
    simpa [ThreadState.Live] using live

theorem after_push_live (dest : Fin rankCount) (previous : Option Worker) (live : thread.Live) :
    (thread.afterPush config self dest previous).Live := by
  rcases after_push_cases config self thread dest previous with ⟨-, made⟩ | ⟨-, made⟩
  · rw [made]
    apply flush_dest_live
    simpa [ThreadState.Live] using live
  · rw [made]
    exact live

theorem post_am_live (dest : Int) (record : Record) (live : thread.Live) :
    (thread.postAm config self dest record).Live := by
  rcases post_am_cases config self thread dest record with ⟨rank, -, made⟩ | ⟨-, made⟩
  · rw [made]
    rcases post_record_cases config self thread rank record with ⟨pointer, -, made⟩ | ⟨-, made⟩
    · rw [made]
      exact after_push_live rank _ live
    · rw [made]
      simpa [ThreadState.Live] using live
  · rw [made]
    exact live

/-- Only an empty message makes a thread abort. -/
theorem step_live (step : ThreadStep config self thread action thread') (batched : action.Batched)
    (live : thread.Live) : thread'.Live := by
  have below : ∀ {top : Frame rankCount Worker Record}
      {rest : List (Frame rankCount Worker Record)}, thread.stack = top :: rest →
        ∀ frame ∈ rest, frame ≠ .aborted := by
    intro top rest stack frame member
    exact live frame (by rw [stack]; exact List.mem_cons_of_mem _ member)
  cases step with
  | postAm dest record worker owner idle => exact post_am_live dest record live
  | handlerPost dest record => exact post_am_live dest record live
  | flush worker owner idle => simp [ThreadState.Live]
  | progress worker owner idle => simp [ThreadState.Live]
  | collectiveProgress control idle => simp [ThreadState.Live]
  | upacketNull dest record previous rest top => simpa [ThreadState.Live] using below top
  | upacket dest record previous rest packet stale top =>
      unfold ThreadState.adoptPacket
      exact after_push_live dest previous (below top)
  | retry dest recordCount previous rest top => simpa [ThreadState.Live] using below top
  | accept dest recordCount previous rest top => simpa [ThreadState.Live] using below top
  | deliver source records rest top =>
      rw [batch_taken_in source batched]
      simpa [ThreadState.Live] using live
  | progressEnd rest top => exact below top
  | handlerReturn source loopback captured recordCount pending record rest top =>
      simpa [ThreadState.Live] using below top
  | postReturn elapsed previous rest top => exact below top
  | flushNext elapsed i rest top more =>
      apply flush_dest_live
      simpa [ThreadState.Live] using below top
  | flushEnd elapsed i rest top finished => exact below top
  | sendAgain elapsed dest recordCount previous rest top =>
      simpa [ThreadState.Live] using below top
  | sendRelease elapsed dest sent recordCount previous rest top => exact below top
  | loopbackRelease elapsed dest sent recordCount previous rest top => exact below top
  | progressReturn elapsed previous rest top => exact below top
  | invoke elapsed source loopback captured recordCount record pending rest top =>
      simpa [ThreadState.Live] using below top
  | receiveEnd elapsed source loopback captured recordCount rest top => exact below top
  | incomingEnd elapsed rest top => exact below top

/-- The thread of the collectives has no calls of its own to make. -/
theorem step_takes_in (step : ThreadStep config none thread action thread')
    (batched : action.Batched) (takes : thread.TakesIn) : thread'.TakesIn := by
  have below : ∀ {top : Frame rankCount Worker Record}
      {rest : List (Frame rankCount Worker Record)}, thread.stack = top :: rest →
        top.takesIn = true ∧ ∀ frame ∈ rest, frame.takesIn = true := by
    intro top rest stack
    unfold ThreadState.TakesIn at takes
    rw [stack] at takes
    exact List.forall_mem_cons.mp takes
  cases step with
  | postAm dest record worker owner idle => cases owner
  | handlerPost dest record current worker owner => cases owner
  | flush worker owner idle => cases owner
  | progress worker owner idle => cases owner
  | collectiveProgress control idle => simp [ThreadState.TakesIn, Frame.takesIn]
  | deliver source records rest top =>
      rw [batch_taken_in source batched]
      simpa [ThreadState.TakesIn, Frame.takesIn] using takes
  | progressEnd rest top => exact (below top).2
  | handlerReturn source loopback captured recordCount pending record rest top =>
      simpa [ThreadState.TakesIn, Frame.takesIn] using (below top).2
  | invoke elapsed source loopback captured recordCount record pending rest top =>
      simpa [ThreadState.TakesIn, Frame.takesIn] using (below top).2
  | receiveEnd elapsed source loopback captured recordCount rest top => exact (below top).2
  | incomingEnd elapsed rest top => exact (below top).2
  | upacketNull dest record previous rest top => cases (below top).1
  | upacket dest record previous rest packet stale top => cases (below top).1
  | retry dest recordCount previous rest top => cases (below top).1
  | accept dest recordCount previous rest top => cases (below top).1
  | postReturn elapsed previous rest top => cases (below top).1
  | flushNext elapsed i rest top more => cases (below top).1
  | flushEnd elapsed i rest top finished => cases (below top).1
  | sendAgain elapsed dest recordCount previous rest top => cases (below top).1
  | sendRelease elapsed dest sent recordCount previous rest top => cases (below top).1
  | loopbackRelease elapsed dest sent recordCount previous rest top => cases (below top).1
  | progressReturn elapsed previous rest top => cases (below top).1

end Threads

section Phases

variable [DecidableEq Worker] [Fintype Worker] {config : PhaseConfig rankCount}
variable {handler : AmHandler rankCount Record Memory} {thread : Option Worker}
variable {action : Action rankCount Record} {next : ThreadState rankCount Worker Record}
variable {phase phase' : PhaseState rankCount Worker Record Memory}

/-- The records of the messages that the threads of a rank have taken in. -/
def PhaseState.takenIn (phase : PhaseState rankCount Worker Record Memory) : Nat :=
  ∑ thread, (incomingIn (phase.threads thread).log).length

omit [Fintype Worker] in
/-- A step of a thread is one of its rank. -/
theorem phase_step_enabled (handler : AmHandler rankCount Record Memory)
    (step : ThreadStep config thread (phase.threads thread) action next) :
    ∃ phase', phase.step config handler (thread, action) = some phase' ∧
      phase'.threads = Function.update phase.threads thread next := by
  have enabled : ∃ phase', phase.step config handler (thread, action) = some phase' :=
    ⟨_, Option.map_eq_some_iff.mpr ⟨next, thread_step_enabled step, rfl⟩⟩
  obtain ⟨phase', stepped⟩ := enabled
  refine ⟨phase', stepped, ?_⟩
  obtain ⟨next', events, moved, -, rfl⟩ := phase_step_cases stepped
  obtain rfl := Option.some.inj ((thread_step_enabled step).symm.trans moved)
  exact absorb_all_threads _

theorem taken_in_update {events : Log rankCount Worker Record}
    (threads : phase'.threads = Function.update phase.threads thread next)
    (grown : next.log = (phase.threads thread).log ++ events) :
    phase'.takenIn = phase.takenIn + (incomingIn events).length := by
  unfold PhaseState.takenIn
  rw [threads]
  apply total_step thread
  · rw [Function.update_self, grown, incoming_append, List.length_append]
  · intro other different
    rw [Function.update_of_ne different]

/-- What was taken in stays so. -/
theorem taken_in_grows (step : ThreadStep config thread (phase.threads thread) action next)
    (threads : phase'.threads = Function.update phase.threads thread next) :
    phase.takenIn ≤ phase'.takenIn := by
  obtain ⟨events, grown⟩ := step_extends step
  rw [taken_in_update threads grown]
  exact Nat.le_add_right _ _

theorem taken_in_deliver {source : Fin rankCount} {records : List Record}
    (step : ThreadStep config thread (phase.threads thread) (.deliver source records) next)
    (threads : phase'.threads = Function.update phase.threads thread next)
    (batch : records ≠ []) : phase.takenIn < phase'.takenIn := by
  rw [taken_in_update threads (deliver_grows step batch)]
  have some := List.length_pos_iff.mpr batch
  simpa [incomingIn, Event.incomingRecords] using some

/-- Between two receives all that was taken in is counted. -/
theorem recv_count_taken_in {memory : Memory}
    (reached : (phaseSystem config handler).Reachable (fun _ call => QuietAction call.2)
      (.initial config memory) phase) (rests : phase.NoReceive) :
    phase.recvCount = phase.takenIn := by
  rw [recv_count_total reached]
  apply Finset.sum_congr rfl
  intro thread _
  have received := reachable_received (phase_thread_reachable reached thread)
  obtain ⟨noPending, noRunning, notOpened⟩ := resting_of_no_receive (rests thread)
  have counted := received.counted
  rw [noPending, noRunning, notOpened] at counted
  have handled := received.handled
  rw [received.invoked, noPending, noRunning, List.append_nil, List.append_nil] at handled
  rw [handled]
  simpa using counted.symm

end Phases

section Exchanges

variable [DecidableEq Worker] [Fintype Worker] {cluster : Cluster rankCount Record Memory}
variable {exchange exchange' : Exchange rankCount Worker Record Memory}
variable {memory : Fin rankCount → Memory}

/-- No thread of a rank has aborted, and the one of the collectives takes messages in. -/
structure ThreadsReturn (phase : PhaseState rankCount Worker Record Memory) : Prop where
  live : ∀ thread, (phase.threads thread).Live
  control : (phase.threads none).TakesIn

omit [Fintype Worker] in
theorem ThreadsReturn.step {config : PhaseConfig rankCount}
    {handler : AmHandler rankCount Record Memory}
    {phase phase' : PhaseState rankCount Worker Record Memory} {thread : Option Worker}
    {action : Action rankCount Record} (returns : ThreadsReturn phase)
    (stepped : phase.step config handler (thread, action) = some phase')
    (batched : action.Batched) : ThreadsReturn phase' := by
  obtain ⟨next, events, moved, -, rfl⟩ := phase_step_cases stepped
  have step := thread_step_cases moved
  constructor
  · intro other
    rw [absorb_all_threads]
    dsimp only
    by_cases same : other = thread
    · subst same
      rw [Function.update_self]
      exact step_live step batched (returns.live other)
    · rw [Function.update_of_ne same]
      exact returns.live other
  · rw [absorb_all_threads]
    dsimp only
    by_cases same : none = thread
    · subst same
      rw [Function.update_self]
      exact step_takes_in step batched returns.control
    · rw [Function.update_of_ne same]
      exact returns.control

/-- In a phase without calls from handlers no rank ever aborts on a message. -/
theorem reachable_threads_return
    (reached : (exchangeSystem cluster).Reachable (fun _ => QuietCall)
      (.initial cluster memory) exchange) (rank : Fin rankCount) :
    ThreadsReturn (exchange.phases rank) := by
  have all : ∀ rank, ThreadsReturn (exchange.phases rank) := by
    apply reached.invariant
    · intro rank
      refine ⟨?_, ?_⟩
      · intro thread frame member
        cases member
      · intro frame member
        cases member
    · intro before after action prior returns _ stepped
      have moved : ∀ (mover : Fin rankCount) (thread : Option Worker)
          (action : Action rankCount Record) (phase : PhaseState rankCount Worker Record Memory),
          (before.phases mover).step (cluster.config mover) (cluster.handler mover)
            (thread, action) = some phase → action.Batched →
          ∀ rank, ThreadsReturn (Function.update before.phases mover phase rank) := by
        intro mover thread action phase step batched rank
        by_cases same : rank = mover
        · subst same
          rw [Function.update_self]
          exact (returns rank).step step batched
        · rw [Function.update_of_ne same]
          exact returns rank
      cases action with
      | call mover thread action =>
          simp only [exchangeSystem, Exchange.step] at stepped
          split at stepped
          case isTrue => cases stepped
          case isFalse noDelivery =>
            obtain ⟨phase, step, rfl⟩ := Option.map_eq_some_iff.mp stepped
            apply moved mover thread action phase step
            cases action with
            | deliver source records => exact absurd rfl noDelivery
            | _ => trivial
      | deliver mover thread index =>
          have taken : ExchangeStep cluster before (.deliver mover thread index) after :=
            exchange_step_cases stepped
          cases taken with
          | deliver mover thread index message phase next events found arrives step =>
              apply moved mover thread _ phase step.moved
              exact (reachable_carried prior).nonempty message (List.mem_of_getElem? found)
  exact all rank

end Exchanges

end IntegerSortLci.Runtime
