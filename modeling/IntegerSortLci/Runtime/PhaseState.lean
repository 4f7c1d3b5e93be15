import IntegerSortLci.Runtime.Profiling
import IntegerSortLci.Runtime.ReceiveLedger
import Mathlib.Data.Fintype.Option

/-!
# One rank inside an active-message phase

`TypedAmRuntimeState` of one rank: the threads with their buffers, and what
they share. A step runs one thread up to its next suspension and hands the
events it emitted to the shared part: a handler call updates the application's
memory, a received message is recorded and counted, a flush is recorded.
-/

namespace IntegerSortLci.Runtime

open Foundations
open scoped BigOperators

set_option autoImplicit false

variable {rankCount : Nat} {Worker Record Memory : Type}

/-- The application's handler as a function on the memory it writes. -/
abbrev AmHandler (rankCount : Nat) (Record Memory : Type) :=
  Memory → Fin rankCount → Record → Memory

/-- A handler whose effect on memory is left out. -/
def noMemory (rankCount : Nat) (Record : Type) : AmHandler rankCount Record Unit :=
  fun memory _ _ => memory

structure PhaseState (rankCount : Nat) (Worker Record Memory : Type) where
  threads : Option Worker → ThreadState rankCount Worker Record
  recvCount : Nat
  profile : AmProfileRecorder Worker
  memory : Memory

namespace PhaseState

variable [DecidableEq Worker]

/-- The effect of one event on what the threads share. -/
def absorb (handler : AmHandler rankCount Record Memory)
    (phase : PhaseState rankCount Worker Record Memory) (event : Event rankCount Worker Record) :
    PhaseState rankCount Worker Record Memory where
  threads := phase.threads
  recvCount := phase.recvCount + event.receivedRecords
  profile := phase.profile.absorb event
  memory :=
    match event with
    | .invoked source record => handler phase.memory source record
    | _ => phase.memory

/-- The phase without the memory that its handler writes. -/
def forget (phase : PhaseState rankCount Worker Record Memory) :
    PhaseState rankCount Worker Record Unit where
  threads := phase.threads
  recvCount := phase.recvCount
  profile := phase.profile
  memory := ()

/-- The state `set_am_handler` constructs; the recorder's sequence number is 0. -/
def initial (config : PhaseConfig rankCount) (memory : Memory) :
    PhaseState rankCount Worker Record Memory where
  threads _ := .initial config
  recvCount := 0
  profile := .initial config.profilingEnabled 0 config.options.profileName
  memory := memory

/-- `has_buffered_records`. -/
def hasBufferedRecords [Fintype Worker] (phase : PhaseState rankCount Worker Record Memory) :
    Bool :=
  decide (∃ worker dest, ((phase.threads (some worker)).sendBuffers dest).empty = false)

def step (config : PhaseConfig rankCount) (handler : AmHandler rankCount Record Memory)
    (phase : PhaseState rankCount Worker Record Memory)
    (call : Option Worker × Action rankCount Record) :
    Option (PhaseState rankCount Worker Record Memory) :=
  (threadStep config call.1 (phase.threads call.1) call.2).map fun next =>
    (next.log.drop (phase.threads call.1).log.length).foldl (absorb handler)
      { phase with threads := Function.update phase.threads call.1 next }

/-- No library call is executing on this rank. -/
def Idle (phase : PhaseState rankCount Worker Record Memory) : Prop :=
  ∀ thread, (phase.threads thread).stack = []

/-- No receive is in progress on this rank. -/
def NoReceive (phase : PhaseState rankCount Worker Record Memory) : Prop :=
  ∀ thread, ∀ frame ∈ (phase.threads thread).stack, frame.isReceive = false

/-- Every worker of this rank has flushed since its last push. -/
def Flushed (phase : PhaseState rankCount Worker Record Memory) : Prop :=
  ∀ thread, flushedSincePush (phase.threads thread).log = true

end PhaseState

/-- A rank's phase as a transition system. -/
def phaseSystem [DecidableEq Worker] (config : PhaseConfig rankCount)
    (handler : AmHandler rankCount Record Memory) :
    TransitionSystem (PhaseState rankCount Worker Record Memory)
      (Option Worker × Action rankCount Record) where
  step := PhaseState.step config handler

variable [DecidableEq Worker] {config : PhaseConfig rankCount}
variable {handler : AmHandler rankCount Record Memory}
variable {phase phase' : PhaseState rankCount Worker Record Memory}

theorem absorb_all_threads (events : Log rankCount Worker Record) :
    (events.foldl (PhaseState.absorb handler) phase).threads = phase.threads := by
  induction events generalizing phase with
  | nil => rfl
  | cons event rest ih => exact ih

theorem absorb_all_enabled (events : Log rankCount Worker Record) :
    (events.foldl (PhaseState.absorb handler) phase).profile.enabled = phase.profile.enabled := by
  induction events generalizing phase with
  | nil => rfl
  | cons event rest ih =>
      rw [List.foldl_cons, ih]
      exact phase.profile.absorb_enabled event

/-- What a step does: one thread steps, and its new events are absorbed. -/
theorem phase_step_cases {call : Option Worker × Action rankCount Record}
    (stepped : PhaseState.step config handler phase call = some phase') :
    ∃ next events, threadStep config call.1 (phase.threads call.1) call.2 = some next ∧
      next.log = (phase.threads call.1).log ++ events ∧
      phase' = events.foldl (PhaseState.absorb handler)
        { phase with threads := Function.update phase.threads call.1 next } := by
  obtain ⟨next, moved, rfl⟩ := Option.map_eq_some_iff.mp stepped
  obtain ⟨later, extended⟩ := step_extends (thread_step_cases moved)
  refine ⟨next, later, moved, extended, ?_⟩
  rw [extended, List.drop_left]

/-- What a phase does, apart from memory, does not depend on its memory. -/
theorem forget_step {call : Option Worker × Action rankCount Record}
    (stepped : PhaseState.step config handler phase call = some phase') :
    PhaseState.step config (noMemory rankCount Record) phase.forget call = some phase'.forget := by
  obtain ⟨next, moved, rfl⟩ := Option.map_eq_some_iff.mp stepped
  have folded : ∀ (events : Log rankCount Worker Record)
      (start : PhaseState rankCount Worker Record Memory),
      (events.foldl (PhaseState.absorb handler) start).forget =
        events.foldl (PhaseState.absorb (noMemory rankCount Record)) start.forget := by
    intro events
    induction events with
    | nil => exact fun _ => rfl
    | cons event rest ih =>
        intro start
        rw [List.foldl_cons, List.foldl_cons, ih]
        cases event <;> rfl
  apply Option.map_eq_some_iff.mpr
  refine ⟨next, moved, ?_⟩
  rw [folded]
  rfl

/-- Each thread of a reachable phase has had a run of its own, under what the
phase's permission says about that thread. -/
theorem phase_thread_run
    {allowed : PhaseState rankCount Worker Record Memory →
      Option Worker × Action rankCount Record → Prop}
    {permitted : ThreadState rankCount Worker Record → Action rankCount Record → Prop}
    (narrows : ∀ before call, allowed before call → permitted (before.threads call.1) call.2)
    {memory : Memory}
    (reached : (phaseSystem config handler).Reachable allowed (.initial config memory) phase)
    (thread : Option Worker) :
    (threadSystem config thread).Reachable permitted (.initial config) (phase.threads thread) := by
  induction reached with
  | start => exact .start
  | @next before after call prior granted stepped ih =>
      obtain ⟨next, events, moved, _, rfl⟩ := phase_step_cases stepped
      rw [absorb_all_threads]
      dsimp only
      by_cases same : thread = call.1
      · subst same
        rw [Function.update_self]
        exact ih.next (narrows before call granted) moved
      · rw [Function.update_of_ne same]
        exact ih

theorem phase_thread_reachable {permitted : Action rankCount Record → Prop} {memory : Memory}
    (reached : (phaseSystem config handler).Reachable (fun _ call => permitted call.2)
      (.initial config memory) phase) (thread : Option Worker) :
    (threadSystem config thread).Reachable (fun _ => permitted) (.initial config)
      (phase.threads thread) :=
  phase_thread_run (fun _ _ granted => granted) reached thread

variable {permitted : Option Worker × Action rankCount Record → Prop} {memory : Memory}

theorem profile_enabled
    (reached : (phaseSystem config handler).Reachable (fun _ call => permitted call)
      (.initial config memory) phase) : phase.profile.enabled = config.profilingEnabled := by
  apply reached.invariant
  · rfl
  · intro before after call _ same _ stepped
    obtain ⟨next, events, _, _, rfl⟩ := phase_step_cases stepped
    exact (absorb_all_enabled events).trans same

/-- A shared counter that each event raises by its weight grows by the sum of the
weights over all logs. -/
theorem phase_total [Fintype Worker]
    (component : PhaseState rankCount Worker Record Memory → Nat)
    (weight : Event rankCount Worker Record → Nat)
    (unthreaded : ∀ phase : PhaseState rankCount Worker Record Memory, ∀ threads,
      component { phase with threads := threads } = component phase)
    (absorbs : ∀ phase : PhaseState rankCount Worker Record Memory,
      phase.profile.enabled = config.profilingEnabled → ∀ event,
        component (phase.absorb handler event) = component phase + weight event)
    (reached : (phaseSystem config handler).Reachable (fun _ call => permitted call)
      (.initial config memory) phase) :
    component phase = component (.initial config memory) +
      ∑ thread, tally weight (phase.threads thread).log := by
  have folded : ∀ (events : Log rankCount Worker Record)
      (start : PhaseState rankCount Worker Record Memory),
      start.profile.enabled = config.profilingEnabled →
        component (events.foldl (PhaseState.absorb handler) start) =
          component start + tally weight events := by
    intro events
    induction events with
    | nil =>
        intro start _
        rfl
    | cons event rest ih =>
        intro start enabled
        rw [List.foldl_cons, ih, absorbs start enabled, tally_cons, Nat.add_assoc]
        exact (start.profile.absorb_enabled event).trans enabled
  apply reached.invariant
  · simp [PhaseState.initial, ThreadState.initial]
  · intro before after call prior counted _ stepped
    obtain ⟨next, events, _, extended, rfl⟩ := phase_step_cases stepped
    have enabled : before.profile.enabled = config.profilingEnabled := profile_enabled prior
    have grown := folded events
      { before with threads := Function.update before.threads call.1 next } enabled
    rw [grown, unthreaded, counted, absorb_all_threads, Nat.add_assoc]
    congr 1
    symm
    apply total_step call.1 (tally weight events)
    · simp only [Function.update_self, extended, tally_append]
    · intro other different
      simp only [Function.update_of_ne different]

theorem recv_count_total [Fintype Worker]
    (reached : (phaseSystem config handler).Reachable (fun _ call => permitted call)
      (.initial config memory) phase) :
    phase.recvCount = ∑ thread, receivedIn (phase.threads thread).log := by
  rw [phase_total PhaseState.recvCount Event.receivedRecords (fun _ _ => rfl) (fun _ _ _ => rfl)
    reached]
  exact Nat.zero_add _

theorem aggregate_total [Fintype Worker] (enabled : config.profilingEnabled = true)
    (reached : (phaseSystem config handler).Reachable (fun _ call => permitted call)
      (.initial config memory) phase) (operation : ProfileOperation) (counter : Counter) :
    (phase.profile.aggregate operation).count counter =
      ∑ thread, tally (aggregateWeight operation counter) (phase.threads thread).log := by
  rw [phase_total (fun phase => (phase.profile.aggregate operation).count counter)
    (aggregateWeight operation counter) (fun _ _ => rfl)
    (fun phase recording event =>
      phase.profile.absorb_aggregate (recording.trans enabled) event operation counter) reached]
  cases counter <;> exact Nat.zero_add _

theorem worker_total [Fintype Worker] (enabled : config.profilingEnabled = true)
    (reached : (phaseSystem config handler).Reachable (fun _ call => permitted call)
      (.initial config memory) phase) (worker : Worker) (operation : ProfileOperation)
    (counter : Counter) :
    (phase.profile.workers worker operation).count counter =
      ∑ thread, tally (workerWeight worker operation counter) (phase.threads thread).log := by
  rw [phase_total (fun phase => (phase.profile.workers worker operation).count counter)
    (workerWeight worker operation counter) (fun _ _ => rfl)
    (fun phase recording event =>
      phase.profile.absorb_worker (recording.trans enabled) event worker operation counter) reached]
  cases counter <;> exact Nat.zero_add _

/-- The memory is what the handler calls of all threads have made of it, one after the other
in some order. -/
theorem memory_of_calls [Fintype Worker]
    (reached : (phaseSystem config handler).Reachable (fun _ call => permitted call)
      (.initial config memory) phase) :
    ∃ calls : List (Fin rankCount × Record),
      phase.memory = calls.foldl (fun memory call => handler memory call.1 call.2) memory ∧
        (↑calls : Multiset (Fin rankCount × Record)) =
          ∑ thread, ↑(invokedIn (phase.threads thread).log) := by
  have folded : ∀ (events : Log rankCount Worker Record)
      (start : PhaseState rankCount Worker Record Memory),
      (events.foldl (PhaseState.absorb handler) start).memory =
        (invokedIn events).foldl (fun memory call => handler memory call.1 call.2)
          start.memory := by
    intro events
    induction events with
    | nil => exact fun _ => rfl
    | cons event rest ih =>
        intro start
        rw [List.foldl_cons, ih, invokedIn, invokedIn, List.flatMap_cons, List.foldl_append]
        cases event with
        | invoked source record => rfl
        | _ => rfl
  apply reached.invariant
  · exact ⟨[], rfl, (Finset.sum_eq_zero fun _ _ => rfl).symm⟩
  · rintro before after call _ ⟨calls, effect, counted⟩ _ stepped
    obtain ⟨next, events, _, extended, rfl⟩ := phase_step_cases stepped
    refine ⟨calls ++ invokedIn events, ?_, ?_⟩
    · rw [folded, List.foldl_append, ← effect]
    · rw [absorb_all_threads, ← Multiset.coe_add, counted]
      symm
      apply total_step call.1 (↑(invokedIn events) : Multiset (Fin rankCount × Record))
      · dsimp only
        rw [Function.update_self, extended, invokedIn, List.flatMap_append, ← Multiset.coe_add]
        rfl
      · intro other different
        dsimp only
        rw [Function.update_of_ne different]

end IntegerSortLci.Runtime
