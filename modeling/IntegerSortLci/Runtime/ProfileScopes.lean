import IntegerSortLci.Runtime.ReceiveLedger
import IntegerSortLci.Runtime.Profiling

/-!
# Profile scopes

`ProfileWorkerScope` saves the thread's current worker and restores it, at
several nested levels of one call. With profiling enabled the current worker is
a function of the call stack, each scope restores what that function gives
below it, and whoever progresses LCI does so inside its own scope. So every
measured receive and flush names the thread it ran on.
-/

namespace IntegerSortLci.Runtime

open Foundations

set_option autoImplicit false

variable {rankCount : Nat} {Worker Record : Type}

/-- What the scope of a frame restores; `none` for a frame without a scope. -/
def Frame.previous : Frame rankCount Worker Record → Option (Option Worker)
  | .push _ _ previous => some previous
  | .postReturn previous => some previous
  | .send _ _ _ previous => some previous
  | .loopback _ _ _ previous => some previous
  | .progressWorker previous => some previous
  | _ => none

/-- The current profile worker under a stack of suspended calls of `self`. -/
def scopeOf (self : Option Worker) : Stack rankCount Worker Record → Option Worker
  | [] => none
  | frame :: below => if frame.previous.isSome then self else scopeOf self below

def WellScoped (self : Option Worker) : Stack rankCount Worker Record → Prop
  | [] => True
  | frame :: below =>
      (∀ previous, frame.previous = some previous → previous = scopeOf self below) ∧
        (frame = .progress → scopeOf self below = self) ∧
          (∀ source loopback captured recordCount pending running,
            frame = .receive source loopback captured recordCount pending running →
              captured = self) ∧
            WellScoped self below

/-- With profiling enabled, at any point of a run. -/
structure Scoped (owner : Option Worker) (thread : ThreadState rankCount Worker Record) :
    Prop where
  current : thread.profileWorker = scopeOf owner thread.stack
  nested : WellScoped owner thread.stack

/-- A measured event names the thread it happened on, its bytes are those of its
records, and only a worker flushes. -/
def Attributed (config : PhaseConfig rankCount) (self : Option Worker)
    (event : Event rankCount Worker Record) : Prop :=
  ∀ measured, event.measured = some measured →
    measured.worker = self ∧ measured.payloadBytes = measured.records * config.recordSize ∧
      (measured.operation = .flush → self ≠ none)

/-- Calls that are not part of a worker's post, flush or progress. -/
def Frame.collective : Frame rankCount Worker Record → Bool
  | .progress => true
  | .receive _ _ _ _ _ _ => true
  | .incoming => true
  | .aborted => true
  | _ => false

/-- The thread of the collectives never posts or flushes. -/
def CollectivesOnly (self : Option Worker) (stack : Stack rankCount Worker Record) : Prop :=
  self = none → ∀ frame ∈ stack, frame.collective = true

variable {config : PhaseConfig rankCount} {self : Option Worker}
variable {below stack : Stack rankCount Worker Record} {frame : Frame rankCount Worker Record}

section Stacks

theorem WellScoped.tail (inScope : WellScoped self (frame :: below)) : WellScoped self below :=
  inScope.2.2.2

/-- A frame without a scope of its own, neither progress nor receive. -/
theorem WellScoped.push_plain (inScope : WellScoped self stack)
    (noScope : frame.previous = none) (notProgress : frame ≠ .progress)
    (notReceive : frame.isReceive = false) : WellScoped self (frame :: stack) := by
  refine ⟨?_, ?_, ?_, inScope⟩
  · intro previous opened
    rw [noScope] at opened
    cases opened
  · intro progress
    exact absurd progress notProgress
  · rintro source loopback captured recordCount pending running rfl
    cases notReceive

theorem WellScoped.push_scope (inScope : WellScoped self stack) {previous : Option Worker}
    (opened : frame.previous = some previous) (saved : previous = scopeOf self stack) :
    WellScoped self (frame :: stack) := by
  refine ⟨?_, ?_, ?_, inScope⟩
  · intro other also
    rw [opened] at also
    rw [← Option.some.inj also]
    exact saved
  · rintro rfl
    cases opened
  · rintro source loopback captured recordCount pending running rfl
    cases opened

theorem WellScoped.push_progress (inScope : WellScoped self stack)
    (inside : scopeOf self stack = self) : WellScoped self (.progress :: stack) := by
  refine ⟨?_, fun _ => inside, ?_, inScope⟩
  · intro previous opened
    cases opened
  · intro source loopback captured recordCount pending running receive
    cases receive

theorem WellScoped.push_receive (inScope : WellScoped self stack) {captured : Option Worker}
    (own : captured = self) (source : Fin rankCount) (loopback : Bool) (recordCount : Nat)
    (pending : List Record) (running : Option Record) :
    WellScoped self
      (.receive source loopback captured recordCount pending running :: stack) := by
  refine ⟨?_, ?_, ?_, inScope⟩
  · intro previous opened
    cases opened
  · intro progress
    cases progress
  · intro _ _ other _ _ _ receive
    cases receive
    exact own

end Stacks

section Calls

variable {thread : ThreadState rankCount Worker Record} {dest : Fin rankCount}

theorem open_scope_worker (enabled : config.profilingEnabled = true) :
    (thread.openScope config self).profileWorker = self := by
  simp [ThreadState.openScope, enabled]

theorem close_scope_worker (enabled : config.profilingEnabled = true)
    (previous : Option Worker) : (thread.closeScope config previous).profileWorker = previous := by
  simp [ThreadState.closeScope, enabled]

theorem flush_dest_scoped (enabled : config.profilingEnabled = true)
    (inScope : Scoped self thread) : Scoped self (thread.flushDest config self dest) := by
  have own : (thread.openScope config self).profileWorker = self := open_scope_worker enabled
  rcases flush_dest_cases config self thread dest with ⟨empty, made⟩ | ⟨filled, loops, made⟩ |
    ⟨filled, loops, made⟩
  · rw [made]
    exact inScope
  · rw [made]
    have owned : WellScoped self (.loopback dest (thread.sendBuffers dest).records
        (thread.sendBuffers dest).size thread.profileWorker :: thread.stack) :=
      inScope.nested.push_scope rfl inScope.current
    exact ⟨own, owned.push_receive own _ _ _ _ _⟩
  · rw [made]
    exact ⟨own, inScope.nested.push_scope rfl inScope.current⟩

/-- `post_record` after its push: `previous` is what its scope restores, and the
scope is still open. -/
theorem after_push_scoped (enabled : config.profilingEnabled = true) {previous : Option Worker}
    (nested : WellScoped self thread.stack) (opened : thread.profileWorker = self)
    (saved : previous = scopeOf self thread.stack) :
    Scoped self (thread.afterPush config self dest previous) := by
  rcases after_push_cases config self thread dest previous with ⟨full, made⟩ | ⟨full, made⟩
  · rw [made]
    apply flush_dest_scoped enabled
    exact ⟨opened, nested.push_scope rfl saved⟩
  · rw [made]
    refine ⟨?_, nested⟩
    rw [ThreadState.emit_worker, close_scope_worker enabled, saved]
    rfl

theorem post_am_scoped (enabled : config.profilingEnabled = true) {dest : Int} {record : Record}
    (inScope : Scoped self thread) : Scoped self (thread.postAm config self dest record) := by
  rcases post_am_cases config self thread dest record with ⟨rank, checked, made⟩ | ⟨outside, made⟩
  · rw [made]
    rcases post_record_cases config self thread rank record with
      ⟨pointer, available, made⟩ | ⟨unavailable, made⟩
    · rw [made]
      apply after_push_scoped enabled
      · exact inScope.nested
      · exact open_scope_worker enabled
      · exact inScope.current
    · rw [made]
      exact ⟨open_scope_worker enabled, inScope.nested.push_scope rfl inScope.current⟩
  · rw [made]
    exact ⟨inScope.current, inScope.nested⟩

end Calls

variable {thread thread' : ThreadState rankCount Worker Record} {action : Action rankCount Record}

theorem step_scoped (enabled : config.profilingEnabled = true)
    (step : ThreadStep config self thread action thread') (inScope : Scoped self thread) :
    Scoped self thread' := by
  have current := inScope.current
  have nested := inScope.nested
  cases step with
  | postAm dest record worker owner idle => exact post_am_scoped enabled inScope
  | handlerPost dest record current worker owner source loopback captured recordCount pending
      below top => exact post_am_scoped enabled inScope
  | flush worker owner idle =>
      rw [idle] at current nested
      exact ⟨current, nested.push_plain rfl (by simp) rfl⟩
  | progress worker owner idle =>
      rw [idle] at current nested
      refine ⟨open_scope_worker enabled, ?_⟩
      apply WellScoped.push_progress
      · exact nested.push_scope rfl current
      · rfl
  | collectiveProgress control idle =>
      rw [idle] at current nested
      refine ⟨current, nested.push_progress ?_⟩
      rw [control]
      rfl
  | upacketNull dest record previous below top =>
      rw [top] at current nested
      exact ⟨current, nested.push_progress rfl⟩
  | upacket dest record previous below packet stale top =>
      rw [top] at current nested
      unfold ThreadState.adoptPacket
      apply after_push_scoped enabled
      · exact nested.tail
      · exact current
      · exact nested.1 previous rfl
  | retry dest recordCount previous below top =>
      rw [top] at current nested
      have waiting : WellScoped self (.send dest .retry recordCount previous :: below) :=
        nested.tail.push_scope rfl (nested.1 previous rfl)
      exact ⟨current, waiting.push_progress rfl⟩
  | accept dest recordCount previous below top =>
      rw [top] at current nested
      have accepted : WellScoped self (.send dest (.accepted (thread.sendBuffers dest).records)
          recordCount previous :: below) := nested.tail.push_scope rfl (nested.1 previous rfl)
      exact ⟨current, accepted.push_progress rfl⟩
  | deliver source records below top =>
      unfold ThreadState.handleIncomingAm
      split
      · have entered : WellScoped self (.incoming :: thread.stack) :=
          nested.push_plain rfl (by simp) rfl
        have own : thread.profileWorker = self := by
          rw [top] at current nested
          exact current.trans (nested.2.1 rfl)
        exact ⟨current, entered.push_receive own _ _ _ _ _⟩
      · exact ⟨current, nested.push_plain rfl (by simp) rfl⟩
  | progressEnd below top =>
      rw [top] at current nested
      exact ⟨current, nested.tail⟩
  | handlerReturn source loopback captured recordCount pending record below top =>
      rw [top] at current nested
      exact ⟨current, nested.tail.push_receive (nested.2.2.1 _ _ _ _ _ _ rfl) _ _ _ _ _⟩
  | postReturn elapsed previous below top =>
      rw [top] at nested
      exact ⟨(close_scope_worker enabled previous).trans (nested.1 previous rfl), nested.tail⟩
  | flushNext elapsed i below top more =>
      rw [top] at current nested
      apply flush_dest_scoped enabled
      exact ⟨current, nested.tail.push_plain rfl (by simp) rfl⟩
  | flushEnd elapsed i below top finished =>
      rw [top] at current nested
      exact ⟨current, nested.tail⟩
  | sendAgain elapsed dest recordCount previous below top =>
      rw [top] at current nested
      exact ⟨current, nested.tail.push_scope rfl (nested.1 previous rfl)⟩
  | sendRelease elapsed dest sent recordCount previous below top =>
      rw [top] at nested
      exact ⟨(close_scope_worker enabled previous).trans (nested.1 previous rfl), nested.tail⟩
  | loopbackRelease elapsed dest sent recordCount previous below top =>
      rw [top] at nested
      exact ⟨(close_scope_worker enabled previous).trans (nested.1 previous rfl), nested.tail⟩
  | progressReturn elapsed previous below top =>
      rw [top] at nested
      exact ⟨(close_scope_worker enabled previous).trans (nested.1 previous rfl), nested.tail⟩
  | invoke elapsed source loopback captured recordCount record pending below top =>
      rw [top] at current nested
      exact ⟨current, nested.tail.push_receive (nested.2.2.1 _ _ _ _ _ _ rfl) _ _ _ _ _⟩
  | receiveEnd elapsed source loopback captured recordCount below top =>
      rw [top] at current nested
      exact ⟨current, nested.tail⟩
  | incomingEnd elapsed below top =>
      rw [top] at current nested
      exact ⟨current, nested.tail⟩

theorem step_collectives_only (step : ThreadStep config self thread action thread')
    (only : CollectivesOnly self thread.stack) : CollectivesOnly self thread'.stack := by
  intro control
  have frames := only control
  cases step with
  | postAm dest record worker owner idle =>
      rw [control] at owner
      cases owner
  | handlerPost dest record current worker owner =>
      rw [control] at owner
      cases owner
  | flush worker owner idle =>
      rw [control] at owner
      cases owner
  | progress worker owner idle =>
      rw [control] at owner
      cases owner
  | collectiveProgress control idle => simp [Frame.collective]
  | deliver source records below top =>
      unfold ThreadState.handleIncomingAm
      split
      · simpa [Frame.collective] using frames
      · simpa [Frame.collective] using frames
  | progressEnd below top =>
      simp only [top, List.forall_mem_cons] at frames
      simpa [Frame.collective] using frames.2
  | handlerReturn source loopback captured recordCount pending record below top =>
      simp only [top, List.forall_mem_cons] at frames
      simpa [Frame.collective] using frames.2
  | invoke elapsed source loopback captured recordCount record pending below top =>
      simp only [top, List.forall_mem_cons] at frames
      simpa [Frame.collective] using frames.2
  | receiveEnd elapsed source loopback captured recordCount below top =>
      simp only [top, List.forall_mem_cons] at frames
      simpa [Frame.collective] using frames.2
  | incomingEnd elapsed below top =>
      simp only [top, List.forall_mem_cons] at frames
      simpa [Frame.collective] using frames.2
  | upacketNull dest record previous below top => simp [top, Frame.collective] at frames
  | upacket dest record previous below packet stale top => simp [top, Frame.collective] at frames
  | retry dest recordCount previous below top => simp [top, Frame.collective] at frames
  | accept dest recordCount previous below top => simp [top, Frame.collective] at frames
  | postReturn elapsed previous below top => simp [top, Frame.collective] at frames
  | flushNext elapsed i below top => simp [top, Frame.collective] at frames
  | flushEnd elapsed i below top => simp [top, Frame.collective] at frames
  | sendAgain elapsed dest recordCount previous below top => simp [top, Frame.collective] at frames
  | sendRelease elapsed dest sent recordCount previous below top =>
      simp [top, Frame.collective] at frames
  | loopbackRelease elapsed dest sent recordCount previous below top =>
      simp [top, Frame.collective] at frames
  | progressReturn elapsed previous below top => simp [top, Frame.collective] at frames

theorem step_attributed (step : ThreadStep config self thread action thread')
    (inScope : Scoped self thread) (only : CollectivesOnly self thread.stack)
    (attributed : ∀ event ∈ thread.log, Attributed config self event) :
    ∀ event ∈ thread'.log, Attributed config self event := by
  have captures : ∀ (stack : Stack rankCount Worker Record), WellScoped self stack →
      ∀ source loopback captured recordCount pending running,
        .receive source loopback captured recordCount pending running ∈ stack →
          captured = self := by
    intro stack
    induction stack with
    | nil =>
        intro _ source loopback captured recordCount pending running member
        cases member
    | cons frame below ih =>
        intro nested source loopback captured recordCount pending running member
        rcases List.mem_cons.mp member with rfl | inBelow
        · exact nested.2.2.1 _ _ _ _ _ _ rfl
        · exact ih nested.tail _ _ _ _ _ _ inBelow
  apply step_events step _ _ _ _ _ attributed
  · intro event plain measured found
    have unmeasured : event.measured = none := by
      cases event <;> first | rfl | cases plain
    rw [unmeasured] at found
    cases found
  · intro dest records loops measured found
    cases found
  · intro dest recordCount previous member buffer measured found
    cases found
  · intro dest frame member target recordCount elapsed measured found
    obtain rfl := Option.some.inj found
    refine ⟨rfl, rfl, ?_⟩
    intro _ control
    have collective := only control frame member
    have untargeted : frame.target = none := by
      cases frame <;> first | rfl | cases collective
    rw [untargeted] at target
    cases target
  · intro source loopback captured recordCount member elapsed measured found
    obtain rfl := Option.some.inj found
    refine ⟨captures _ inScope.nested _ _ _ _ _ _ member, rfl, ?_⟩
    intro flush
    cases loopback <;> cases flush

theorem reachable_attributed (enabled : config.profilingEnabled = true)
    {permitted : Action rankCount Record → Prop}
    (reached : (threadSystem config self).Reachable (fun _ => permitted) (.initial config)
      thread) : ∀ event ∈ thread.log, Attributed config self event := by
  have all : Scoped self thread ∧ CollectivesOnly self thread.stack ∧
      ∀ event ∈ thread.log, Attributed config self event := by
    apply reached.invariant
    · refine ⟨⟨rfl, trivial⟩, ?_, ?_⟩
      · intro _ frame member
        cases member
      · intro event member
        cases member
    · intro before after action _ good _ stepped
      obtain ⟨inScope, only, attributed⟩ := good
      have step := thread_step_cases stepped
      exact ⟨step_scoped enabled step inScope, step_collectives_only step only,
        step_attributed step inScope only attributed⟩
  exact all.2.2

end IntegerSortLci.Runtime
