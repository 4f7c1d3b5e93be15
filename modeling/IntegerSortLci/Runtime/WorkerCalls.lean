import IntegerSortLci.Runtime.QuietRuns
import IntegerSortLci.Runtime.PhaseState
import Mathlib.Algebra.BigOperators.Group.Finset.Piecewise
import Mathlib.Algebra.BigOperators.Group.Multiset.Basic

/-!
# What a worker's own calls do

A post puts one record into a buffer, at once or after the `push` frame that
waits for a packet; no other step of a quiet run posts anything. A flush leaves
every buffer empty when it has returned, and nothing but a post undoes that.
-/

namespace IntegerSortLci.Runtime

open scoped BigOperators

set_option autoImplicit false

variable {rankCount : Nat} {Worker Record : Type}

/-- The record for `dest` that a suspended `push` has still to write. -/
def Frame.pushing (dest : Fin rankCount) : Frame rankCount Worker Record → List Record
  | .push other record _ => if other = dest then [record] else []
  | _ => []

def pushingIn (dest : Fin rankCount) (stack : Stack rankCount Worker Record) : List Record :=
  stack.flatMap (Frame.pushing dest)

/-- The record that an action posts to `dest`. -/
def Action.posting (dest : Fin rankCount) : Action rankCount Record → List Record
  | .postAm target record =>
      if checkedDestination rankCount target = some dest then [record] else []
  | _ => []

variable {config : PhaseConfig rankCount} {self : Option Worker}
variable {thread thread' : ThreadState rankCount Worker Record}
variable {action : Action rankCount Record} {dest : Fin rankCount}

section Posting

@[simp] theorem pushing_in_cons (frame : Frame rankCount Worker Record)
    (below : Stack rankCount Worker Record) :
    pushingIn dest (frame :: below) = frame.pushing dest ++ pushingIn dest below :=
  List.flatMap_cons

@[simp] theorem pushing_in_nil :
    pushingIn dest ([] : Stack rankCount Worker Record) = [] := rfl

@[simp] theorem posted_to_cons (event : Event rankCount Worker Record)
    (log : Log rankCount Worker Record) :
    postedTo dest (event :: log) = event.postedTo dest ++ postedTo dest log :=
  List.flatMap_cons

@[simp] theorem posted_to_nil : postedTo dest ([] : Log rankCount Worker Record) = [] := rfl

/-- Posted and about to be posted, in order. -/
def ThreadState.submitted (thread : ThreadState rankCount Worker Record) (dest : Fin rankCount) :
    List Record :=
  postedTo dest thread.log ++ pushingIn dest thread.stack

theorem flush_dest_submitted (thread : ThreadState rankCount Worker Record)
    (other : Fin rankCount) :
    (thread.flushDest config self other).submitted dest = thread.submitted dest := by
  rcases flush_dest_cases config self thread other with ⟨empty, made⟩ | ⟨filled, loops, made⟩ |
    ⟨filled, loops, made⟩
  · rw [made]
  · rw [made]
    simp [ThreadState.submitted, Frame.pushing, Event.postedTo]
  · rw [made]
    simp [ThreadState.submitted, Frame.pushing]

theorem after_push_submitted (thread : ThreadState rankCount Worker Record)
    (other : Fin rankCount) (previous : Option Worker) :
    (thread.afterPush config self other previous).submitted dest = thread.submitted dest := by
  rcases after_push_cases config self thread other previous with ⟨full, made⟩ | ⟨full, made⟩
  · rw [made]
    rw [flush_dest_submitted]
    simp [ThreadState.submitted, Frame.pushing]
  · rw [made]
    simp [ThreadState.submitted, Event.postedTo]

theorem post_am_submitted (thread : ThreadState rankCount Worker Record)
    (idle : thread.stack = []) (target : Int) (record : Record) :
    (thread.postAm config self target record).submitted dest =
      thread.submitted dest ++ Action.posting dest (.postAm target record) := by
  rcases post_am_cases config self thread target record with ⟨rank, checked, made⟩ | ⟨outside, made⟩
  · rw [made]
    rcases post_record_cases config self thread rank record with
      ⟨pointer, available, made⟩ | ⟨unavailable, made⟩
    · rw [made, after_push_submitted]
      simp [ThreadState.submitted, idle, Action.posting, checked, Event.postedTo]
    · rw [made]
      simp [ThreadState.submitted, idle, Action.posting, checked, Frame.pushing]
  · rw [made]
    simp [ThreadState.submitted, Action.posting, outside, Event.postedTo]

/-- A quiet step submits exactly what its action posts. -/
theorem step_submitted (step : ThreadStep config self thread action thread')
    (quiet : QuietAction action) :
    thread'.submitted dest = thread.submitted dest ++ action.posting dest := by
  cases step with
  | postAm target record worker owner idle => exact post_am_submitted thread idle target record
  | handlerPost => exact quiet.elim
  | flush worker owner idle =>
      simp [ThreadState.submitted, idle, Frame.pushing, Action.posting]
  | progress worker owner idle =>
      simp [ThreadState.submitted, idle, Frame.pushing, Action.posting]
  | collectiveProgress control idle =>
      simp [ThreadState.submitted, idle, Frame.pushing, Action.posting]
  | upacketNull other record previous below top =>
      simp [ThreadState.submitted, top, Frame.pushing, Action.posting]
  | upacket other record previous below packet stale top =>
      unfold ThreadState.adoptPacket
      rw [after_push_submitted]
      by_cases same : other = dest
      · simp [ThreadState.submitted, top, Frame.pushing, Action.posting, Event.postedTo, same]
      · simp [ThreadState.submitted, top, Frame.pushing, Action.posting, Event.postedTo, same]
  | retry other recordCount previous below top =>
      simp [ThreadState.submitted, top, Frame.pushing, Action.posting, Event.postedTo]
  | accept other recordCount previous below top =>
      simp [ThreadState.submitted, top, Frame.pushing, Action.posting, Event.postedTo]
  | deliver source records below top =>
      unfold ThreadState.handleIncomingAm
      split <;>
        simp [ThreadState.submitted, top, Frame.pushing, Action.posting, Event.postedTo]
  | progressEnd below top =>
      simp [ThreadState.submitted, top, Frame.pushing, Action.posting]
  | handlerReturn source loopback captured recordCount pending record below top =>
      simp [ThreadState.submitted, top, Frame.pushing, Action.posting, Event.postedTo]
  | postReturn elapsed previous below top =>
      simp [ThreadState.submitted, top, Frame.pushing, Action.posting, Event.postedTo]
  | flushNext elapsed i below top more =>
      rw [flush_dest_submitted]
      simp [ThreadState.submitted, top, Frame.pushing, Action.posting]
  | flushEnd elapsed i below top finished =>
      simp [ThreadState.submitted, top, Frame.pushing, Action.posting, Event.postedTo]
  | sendAgain elapsed other recordCount previous below top =>
      simp [ThreadState.submitted, top, Frame.pushing, Action.posting]
  | sendRelease elapsed other sent recordCount previous below top =>
      simp [ThreadState.submitted, top, Frame.pushing, Action.posting, Event.postedTo]
  | loopbackRelease elapsed other sent recordCount previous below top =>
      unfold ThreadState.returnPacket
      split <;>
        simp [ThreadState.submitted, top, Frame.pushing, Action.posting, Event.postedTo]
  | progressReturn elapsed previous below top =>
      simp [ThreadState.submitted, top, Frame.pushing, Action.posting, Event.postedTo]
  | invoke elapsed source loopback captured recordCount record pending below top =>
      simp [ThreadState.submitted, top, Frame.pushing, Action.posting, Event.postedTo]
  | receiveEnd elapsed source loopback captured recordCount below top =>
      simp [ThreadState.submitted, top, Frame.pushing, Action.posting, Event.postedTo]
  | incomingEnd elapsed below top =>
      simp [ThreadState.submitted, top, Frame.pushing, Action.posting, Event.postedTo]

end Posting

section Flushing

/-- A flush is under way or has left the buffers empty, and no push waits. -/
structure Draining (thread : ThreadState rankCount Worker Record) : Prop where
  settled : ∀ dest, pushingIn dest thread.stack = []
  flushing : (∃ i, .flushWorker i ∈ thread.stack) ∨ flushedSincePush thread.log = true

theorem flushed_kept {log events : Log rankCount Worker Record}
    (silent : ∀ dest, postedTo dest events = []) (flushed : flushedSincePush log = true) :
    flushedSincePush (log ++ events) = true := by
  rw [flushed_since_append, flushed]
  clear flushed
  induction events with
  | nil => rfl
  | cons event rest ih =>
      have tail : ∀ dest, postedTo dest rest = [] := by
        intro dest
        exact (List.append_eq_nil_iff.mp (silent dest)).2
      cases event with
      | posted dest record recordCount buffer =>
          have head := (List.append_eq_nil_iff.mp (silent dest)).1
          simp [Event.postedTo] at head
      | _ => exact ih tail

/-- Without a post nothing new is posted and no push is left waiting. -/
theorem step_settled (step : ThreadStep config self thread action thread')
    (quiet : QuietAction action) (unposting : ∀ dest, action.posting dest = [])
    (settled : ∀ dest, pushingIn dest thread.stack = []) :
    (∀ dest, pushingIn dest thread'.stack = []) ∧
      ∃ events, thread'.log = thread.log ++ events ∧ ∀ dest, postedTo dest events = [] := by
  obtain ⟨events, extended⟩ := step_extends step
  have nothing : ∀ dest, postedTo dest events ++ pushingIn dest thread'.stack = [] := by
    intro dest
    have same : thread'.submitted dest = thread.submitted dest ++ action.posting dest :=
      step_submitted step quiet
    simp only [ThreadState.submitted, extended, posted_to_append, settled dest, unposting dest,
      List.append_nil, List.append_assoc] at same
    exact List.append_right_eq_self.mp same
  refine ⟨fun dest => (List.append_eq_nil_iff.mp (nothing dest)).2, events, extended, ?_⟩
  exact fun dest => (List.append_eq_nil_iff.mp (nothing dest)).1

theorem flush_dest_frame (thread : ThreadState rankCount Worker Record) (other : Fin rankCount)
    {frame : Frame rankCount Worker Record} (member : frame ∈ thread.stack) :
    frame ∈ (thread.flushDest config self other).stack := by
  rcases flush_dest_cases config self thread other with ⟨empty, made⟩ | ⟨filled, loops, made⟩ |
    ⟨filled, loops, made⟩
  · rw [made]
    exact member
  · rw [made]
    simp [member]
  · rw [made]
    simp [member]

/-- The frame of a flush stays until the flush returns. -/
theorem flush_frame_kept (step : ThreadStep config self thread action thread')
    (quiet : QuietAction action) (settled : ∀ dest, pushingIn dest thread.stack = [])
    (flushing : ∃ i, .flushWorker i ∈ thread.stack) :
    (∃ i, .flushWorker i ∈ thread'.stack) ∨ flushedSincePush thread'.log = true := by
  obtain ⟨i, member⟩ := flushing
  have below : ∀ {top : Frame rankCount Worker Record} {rest : Stack rankCount Worker Record},
      thread.stack = top :: rest → (∀ j, top ≠ .flushWorker j) → .flushWorker i ∈ rest := by
    intro top rest stack different
    rw [stack] at member
    rcases List.mem_cons.mp member with same | inside
    · exact absurd same.symm (different i)
    · exact inside
  cases step with
  | postAm target record worker owner idle => simp [idle] at member
  | handlerPost => exact quiet.elim
  | flush worker owner idle => simp [idle] at member
  | progress worker owner idle => simp [idle] at member
  | collectiveProgress control idle => simp [idle] at member
  | upacket other record previous rest packet stale top =>
      have waiting := settled other
      simp [top, Frame.pushing] at waiting
  | upacketNull other record previous rest top =>
      exact .inl ⟨i, by simp [below top (by simp)]⟩
  | retry other recordCount previous rest top => exact .inl ⟨i, by simp [below top (by simp)]⟩
  | accept other recordCount previous rest top => exact .inl ⟨i, by simp [below top (by simp)]⟩
  | deliver source records rest top =>
      have inside := below top (by simp)
      refine .inl ⟨i, ?_⟩
      unfold ThreadState.handleIncomingAm
      split <;> simp [top, inside]
  | progressEnd rest top => exact .inl ⟨i, below top (by simp)⟩
  | handlerReturn source loopback captured recordCount pending record rest top =>
      exact .inl ⟨i, by simp [below top (by simp)]⟩
  | postReturn elapsed previous rest top => exact .inl ⟨i, below top (by simp)⟩
  | flushNext elapsed j rest top more =>
      exact .inl ⟨j + 1, flush_dest_frame _ _ List.mem_cons_self⟩
  | flushEnd elapsed j rest top finished =>
      exact .inr (by simp [flushed_since_append, trackFlushed])
  | sendAgain elapsed other recordCount previous rest top =>
      exact .inl ⟨i, by simp [below top (by simp)]⟩
  | sendRelease elapsed other sent recordCount previous rest top =>
      exact .inl ⟨i, below top (by simp)⟩
  | loopbackRelease elapsed other sent recordCount previous rest top =>
      exact .inl ⟨i, below top (by simp)⟩
  | progressReturn elapsed previous rest top => exact .inl ⟨i, below top (by simp)⟩
  | invoke elapsed source loopback captured recordCount record pending rest top =>
      exact .inl ⟨i, by simp [below top (by simp)]⟩
  | receiveEnd elapsed source loopback captured recordCount rest top =>
      exact .inl ⟨i, below top (by simp)⟩
  | incomingEnd elapsed rest top => exact .inl ⟨i, below top (by simp)⟩

theorem step_draining (step : ThreadStep config self thread action thread')
    (quiet : QuietAction action) (unposting : ∀ dest, action.posting dest = [])
    (draining : Draining thread) : Draining thread' := by
  obtain ⟨settled, events, extended, silent⟩ :=
    step_settled step quiet unposting draining.settled
  refine ⟨settled, ?_⟩
  rcases draining.flushing with running | flushed
  · exact flush_frame_kept step quiet draining.settled running
  · right
    rw [extended]
    exact flushed_kept silent flushed

/-- A flush begins the draining of a thread between calls. -/
theorem flush_draining (step : ThreadStep config self thread .flush thread') :
    Draining thread' := by
  cases step with
  | flush worker owner idle =>
      exact ⟨fun _ => rfl, .inl ⟨0, List.mem_singleton_self _⟩⟩

theorem Draining.flushed (draining : Draining thread) (idle : thread.stack = []) :
    flushedSincePush thread.log = true := by
  rcases draining.flushing with ⟨i, member⟩ | flushed
  · rw [idle] at member
    cases member
  · exact flushed

/-- A thread that never posted has nothing to flush. -/
theorem flushed_of_unposted {log : Log rankCount Worker Record}
    (silent : ∀ dest, postedTo dest log = []) : flushedSincePush log = true := by
  have start : flushedSincePush ([] : Log rankCount Worker Record) = true := rfl
  exact flushed_kept silent start

end Flushing

section Phases

variable {Memory : Type} [DecidableEq Worker] {handler : AmHandler rankCount Record Memory}
variable {phase phase' : PhaseState rankCount Worker Record Memory}

/-- Only the thread that moves submits something. -/
theorem phase_submitted (stepped : phase.step config handler (self, action) = some phase')
    (quiet : QuietAction action) (other : Option Worker) :
    (phase'.threads other).submitted dest =
      (phase.threads other).submitted dest ++ if other = self then action.posting dest else [] := by
  obtain ⟨next, events, moved, -, rfl⟩ := phase_step_cases stepped
  rw [absorb_all_threads]
  dsimp only
  by_cases same : other = self
  · subst same
    rw [Function.update_self, if_pos rfl]
    exact step_submitted (thread_step_cases moved) quiet
  · rw [Function.update_of_ne same, if_neg same, List.append_nil]

section Calls

variable [Fintype Worker]

/-- What the threads of a rank have submitted to `dest`. -/
def PhaseState.submitted (phase : PhaseState rankCount Worker Record Memory)
    (dest : Fin rankCount) : Multiset Record :=
  ∑ thread, ↑((phase.threads thread).submitted dest)

/-- A call adds the value that it posts. -/
theorem phase_submitted_total {call : Option Worker × Action rankCount Record}
    (stepped : phase.step config handler call = some phase') (quiet : QuietAction call.2)
    (dest : Fin rankCount) :
    phase'.submitted dest = phase.submitted dest + ↑(call.2.posting dest) := by
  have each : ∀ thread, (↑((phase'.threads thread).submitted dest) : Multiset Record) =
      ↑((phase.threads thread).submitted dest) +
        if thread = call.1 then ↑(call.2.posting dest) else 0 := by
    intro thread
    rw [phase_submitted stepped quiet thread, ← Multiset.coe_add]
    by_cases own : thread = call.1
    · rw [if_pos own, if_pos own]
    · rw [if_neg own, if_neg own]
      rfl
  unfold PhaseState.submitted
  simp only [each]
  rw [Finset.sum_add_distrib, Finset.sum_ite_eq', if_pos (Finset.mem_univ _)]

omit [DecidableEq Worker] in
theorem initial_submitted (memory : Memory) (dest : Fin rankCount) :
    (PhaseState.initial config memory :
      PhaseState rankCount Worker Record Memory).submitted dest = 0 :=
  Finset.sum_eq_zero fun _ _ => rfl

end Calls

/-- `recv_count_` only grows. -/
theorem recv_count_grows {call : Option Worker × Action rankCount Record}
    (stepped : phase.step config handler call = some phase') :
    phase.recvCount ≤ phase'.recvCount := by
  obtain ⟨next, events, -, -, rfl⟩ := phase_step_cases stepped
  have folded : ∀ start : PhaseState rankCount Worker Record Memory,
      start.recvCount ≤ (events.foldl (PhaseState.absorb handler) start).recvCount := by
    clear stepped
    induction events with
    | nil => exact fun _ => Nat.le_refl _
    | cons event rest ih =>
        intro start
        have first : start.recvCount ≤ (start.absorb handler event).recvCount :=
          Nat.le_add_right _ _
        rw [List.foldl_cons]
        exact first.trans (ih _)
  exact folded { phase with threads := Function.update phase.threads call.1 next }

end Phases

end IntegerSortLci.Runtime
