import IntegerSortLci.Runtime.ThreadSteps

/-!
# A thread returns from its calls

Whatever a thread is in the middle of, it comes out of it alone: LCI answers, the handler
returns, and nothing else has to happen. Only `std::abort` never returns. A thread that
takes messages in without sending any needs no answer of LCI.
-/

namespace IntegerSortLci.Runtime

set_option autoImplicit false

variable {rankCount : Nat} {Worker Record : Type}
variable {config : PhaseConfig rankCount} {self : Option Worker}
variable {thread thread' : ThreadState rankCount Worker Record}

/-- The steps that LCI and the handler take inside a call. -/
def Action.returns : Action rankCount Record → Bool
  | .getUpacket _ | .postAmAnswer _ | .progressEnd | .handlerReturn | .resume _ => true
  | _ => false

/-- Those that are left when nothing is sent. -/
def Action.unwinds : Action rankCount Record → Bool
  | .progressEnd | .handlerReturn | .resume _ => true
  | _ => false

theorem unwinds_returns {action : Action rankCount Record} (unwinds : action.unwinds = true) :
    action.returns = true := by
  cases action with
  | progressEnd | handlerReturn | resume => rfl
  | _ => cases unwinds

/-- A frame of a message that is being taken in. -/
def Frame.takesIn : Frame rankCount Worker Record → Bool
  | .progress | .receive _ _ _ _ _ _ | .incoming => true
  | _ => false

/-- The steps listed in `ThreadStep` are the steps of the code. -/
theorem thread_step_enabled {action : Action rankCount Record}
    (step : ThreadStep config self thread action thread') :
    threadStep config self thread action = some thread' := by
  cases step with
  | postAm dest record worker owner idle =>
      subst owner
      simp only [threadStep, idle]
  | handlerPost dest record current worker owner source loopback captured recordCount pending below
      top =>
      subst owner
      simp only [threadStep, top]
  | flush worker owner idle =>
      subst owner
      simp only [threadStep, idle]
  | progress worker owner idle =>
      subst owner
      simp only [threadStep, idle]
  | collectiveProgress control idle =>
      subst control
      simp only [threadStep, idle]
  | flushNext elapsed i below top more =>
      simp only [threadStep, ThreadState.resume, top, if_pos more]
  | flushEnd elapsed i below top finished =>
      simp only [threadStep, ThreadState.resume, top, if_neg (Nat.not_lt.mpr finished)]
  | upacketNull dest record previous below top => simp only [threadStep, top]
  | upacket dest record previous below packet stale top => simp only [threadStep, top]
  | retry dest recordCount previous below top => simp only [threadStep, top, if_true]
  | accept dest recordCount previous below top =>
      simp only [threadStep, top, Bool.false_eq_true, if_false]
  | deliver source records below top => simp only [threadStep, top]
  | progressEnd below top => simp only [threadStep, top]
  | handlerReturn source loopback captured recordCount pending record below top =>
      simp only [threadStep, top]
  | postReturn elapsed previous below top => simp only [threadStep, ThreadState.resume, top]
  | sendAgain elapsed dest recordCount previous below top =>
      simp only [threadStep, ThreadState.resume, top]
  | sendRelease elapsed dest sent recordCount previous below top =>
      simp only [threadStep, ThreadState.resume, top]
  | loopbackRelease elapsed dest sent recordCount previous below top =>
      simp only [threadStep, ThreadState.resume, top]
  | progressReturn elapsed previous below top => simp only [threadStep, ThreadState.resume, top]
  | invoke elapsed source loopback captured recordCount record pending below top =>
      simp only [threadStep, ThreadState.resume, top]
  | receiveEnd elapsed source loopback captured recordCount below top =>
      simp only [threadStep, ThreadState.resume, top]
  | incomingEnd elapsed below top => simp only [threadStep, ThreadState.resume, top]

/-- The thread can take steps of the given kind until its stack is `below`. -/
inductive Drains (config : PhaseConfig rankCount) (self : Option Worker)
    (kind : Action rankCount Record → Bool) (below : List (Frame rankCount Worker Record)) :
    ThreadState rankCount Worker Record → Prop where
  | finished {thread : ThreadState rankCount Worker Record} (arrived : thread.stack = below) :
      Drains config self kind below thread
  | next {thread thread' : ThreadState rankCount Worker Record}
      (action : Action rankCount Record) (permitted : kind action = true)
      (step : ThreadStep config self thread action thread')
      (later : Drains config self kind below thread') : Drains config self kind below thread

variable {kind other : Action rankCount Record → Bool}
variable {below middle : List (Frame rankCount Worker Record)}

theorem Drains.trans (drains : Drains config self kind middle thread)
    (continues : ∀ thread' : ThreadState rankCount Worker Record, thread'.stack = middle →
      Drains config self kind below thread') : Drains config self kind below thread := by
  induction drains with
  | finished arrived => exact continues _ arrived
  | next action permitted step later ih => exact .next action permitted step ih

theorem Drains.mono (drains : Drains config self kind below thread)
    (weaker : ∀ action, kind action = true → other action = true) :
    Drains config self other below thread := by
  induction drains with
  | finished arrived => exact .finished arrived
  | next action permitted step later ih => exact .next action (weaker action permitted) step ih

section Frames

/-- The handler is called for each record that is left, and returns. -/
theorem drain_receive {source : Fin rankCount} {loopback : Bool} {captured : Option Worker}
    {recordCount : Nat} {pending : List Record} {running : Option Record}
    (top : thread.stack =
      .receive source loopback captured recordCount pending running :: below) :
    Drains config self Action.unwinds below thread := by
  have idle : ∀ (pending : List Record) (thread : ThreadState rankCount Worker Record),
      thread.stack = .receive source loopback captured recordCount pending none :: below →
        Drains config self Action.unwinds below thread := by
    intro pending
    induction pending with
    | nil =>
        intro thread top
        exact .next (.resume 0) rfl (.receiveEnd 0 _ _ _ _ _ top) (.finished rfl)
    | cons record rest ih =>
        intro thread top
        apply Drains.next (.resume 0) rfl (.invoke 0 _ _ _ _ _ _ _ top)
        apply Drains.next .handlerReturn rfl (.handlerReturn _ _ _ _ _ _ _ rfl)
        exact ih _ rfl
  cases running with
  | none => exact idle pending thread top
  | some record =>
      exact .next .handlerReturn rfl (.handlerReturn _ _ _ _ _ _ _ top) (idle pending _ rfl)

/-- A message that is being taken in needs no answer of LCI. -/
theorem drain_taking_in {frame : Frame rankCount Worker Record} (takes : frame.takesIn = true)
    (top : thread.stack = frame :: below) : Drains config self Action.unwinds below thread := by
  cases frame with
  | progress => exact .next .progressEnd rfl (.progressEnd below top) (.finished rfl)
  | incoming => exact .next (.resume 0) rfl (.incomingEnd 0 below top) (.finished rfl)
  | receive => exact drain_receive top
  | _ => cases takes

/-- LCI accepts the message. -/
theorem drain_send {dest : Fin rankCount} {recordCount : Nat} {previous : Option Worker}
    (top : thread.stack = .send dest .ready recordCount previous :: below) :
    Drains config self Action.returns below thread := by
  apply Drains.next (.postAmAnswer false) rfl (.accept dest recordCount previous below top)
  apply Drains.next .progressEnd rfl (.progressEnd _ rfl)
  exact .next (.resume 0) rfl (.sendRelease 0 _ _ _ _ _ rfl) (.finished rfl)

theorem drain_loopback {dest : Fin rankCount} {sent : List Record} {recordCount : Nat}
    {previous : Option Worker}
    (top : thread.stack = .loopback dest sent recordCount previous :: below) :
    Drains config self Action.returns below thread :=
  .next (.resume 0) rfl (.loopbackRelease 0 dest sent recordCount previous below top)
    (.finished rfl)

/-- `flush_dest` returns to where it was called. -/
theorem drain_flush_dest (dest : Fin rankCount) (called : thread.stack = below) :
    Drains config self Action.returns below (thread.flushDest config self dest) := by
  subst called
  rcases flush_dest_cases config self thread dest with ⟨-, made⟩ | ⟨-, -, made⟩ | ⟨-, -, made⟩
  · rw [made]
    exact .finished rfl
  · rw [made]
    have returned : ∀ opened : ThreadState rankCount Worker Record,
        opened.stack = .receive config.rank true (thread.openScope config self).profileWorker
            (thread.sendBuffers dest).size (thread.sendBuffers dest).records none ::
          .loopback dest (thread.sendBuffers dest).records (thread.sendBuffers dest).size
            thread.profileWorker :: thread.stack →
          Drains config self Action.returns thread.stack opened := by
      intro opened top
      exact ((drain_receive top).mono fun _ => unwinds_returns).trans fun _ => drain_loopback
    exact returned _ rfl
  · rw [made]
    exact drain_send rfl

/-- The loop over the destinations ends. -/
theorem drain_flush_worker {i : Nat} (top : thread.stack = .flushWorker i :: below) :
    Drains config self Action.returns below thread := by
  induction left : rankCount - i generalizing i thread with
  | zero =>
      exact .next (.resume 0) rfl (.flushEnd 0 i below top (by omega)) (.finished rfl)
  | succ left ih =>
      apply Drains.next (.resume 0) rfl (.flushNext 0 i below top (by omega))
      exact (drain_flush_dest _ rfl).trans fun _ arrived => ih arrived (by omega)

theorem drain_post_return {previous : Option Worker}
    (top : thread.stack = .postReturn previous :: below) :
    Drains config self Action.returns below thread :=
  .next (.resume 0) rfl (.postReturn 0 previous below top) (.finished rfl)

theorem drain_after_push (dest : Fin rankCount) (previous : Option Worker)
    (called : thread.stack = below) :
    Drains config self Action.returns below (thread.afterPush config self dest previous) := by
  rcases after_push_cases config self thread dest previous with ⟨-, made⟩ | ⟨-, made⟩
  · rw [made]
    exact (drain_flush_dest dest rfl).trans fun _ arrived =>
      drain_post_return (arrived.trans (congrArg _ called))
  · rw [made]
    exact .finished called

/-- `get_upacket` has a packet. -/
theorem drain_push {dest : Fin rankCount} {record : Record} {previous : Option Worker}
    (top : thread.stack = .push dest record previous :: below) :
    Drains config self Action.returns below thread := by
  apply Drains.next (.getUpacket (some (0, fun _ => record))) rfl
    (.upacket dest record previous below 0 _ top)
  exact drain_after_push dest previous rfl

theorem drain_frame {frame : Frame rankCount Worker Record} (live : frame ≠ .aborted)
    (top : thread.stack = frame :: below) : Drains config self Action.returns below thread := by
  cases frame with
  | push => exact drain_push top
  | postReturn => exact drain_post_return top
  | flushWorker => exact drain_flush_worker top
  | send dest status recordCount previous =>
      cases status with
      | ready => exact drain_send top
      | retry =>
          exact .next (.resume 0) rfl (.sendAgain 0 dest recordCount previous below top)
            (drain_send rfl)
      | accepted sent =>
          exact .next (.resume 0) rfl (.sendRelease 0 dest sent recordCount previous below top)
            (.finished rfl)
  | loopback => exact drain_loopback top
  | progressWorker previous =>
      exact .next (.resume 0) rfl (.progressReturn 0 previous below top) (.finished rfl)
  | progress | receive | incoming =>
      exact (drain_taking_in rfl top).mono fun _ => unwinds_returns
  | aborted => exact absurd rfl live

end Frames

/-- Any thread that has not aborted returns from all its calls. -/
theorem thread_returns (live : ∀ frame ∈ thread.stack, frame ≠ .aborted) :
    Drains config self Action.returns [] thread := by
  generalize stacked : thread.stack = stack at live
  induction stack generalizing thread with
  | nil => exact .finished stacked
  | cons frame below ih =>
      apply (drain_frame (live frame List.mem_cons_self) stacked).trans
      intro thread' arrived
      exact ih arrived fun other member => live other (List.mem_cons_of_mem _ member)

theorem thread_unwinds (takes : ∀ frame ∈ thread.stack, frame.takesIn = true) :
    Drains config self Action.unwinds [] thread := by
  generalize stacked : thread.stack = stack at takes
  induction stack generalizing thread with
  | nil => exact .finished stacked
  | cons frame below ih =>
      apply (drain_taking_in (takes frame List.mem_cons_self) stacked).trans
      intro thread' arrived
      exact ih arrived fun other member => takes other (List.mem_cons_of_mem _ member)

end IntegerSortLci.Runtime
