import IntegerSortLci.Benchmark.PhaseBoundary
import IntegerSortLci.Benchmark.RedistributionFrame
import IntegerSortLci.Runtime.PhaseReturns

/-!
# One thread of a redistribution runs alone

While a single thread of a rank takes steps, the other ranks and the other threads stay
where they are. In this way a worker can be taken out of the call it is in, to its next
post, to its flush, and through `recv_count()`.
-/

namespace IntegerSortLci.Benchmark

open IntegerSortLci.Runtime IntegerSortLci.Foundations

set_option autoImplicit false

variable {commSize : Nat} {Worker Memory : Type} [Fintype Worker]

/-- Only `thread` moves on the rank. -/
structure Beside (thread : Option Worker) (before after : RankState commSize Worker Memory) :
    Prop where
  phase : after.phase = before.phase
  stage : after.stage = before.stage
  workers : ∀ worker, thread ≠ some worker → after.workers worker = before.workers worker
  ams : ∀ am, before.amState = some am → ∃ next, after.amState = some next ∧
    am.takenIn ≤ next.takenIn ∧ ∀ other, other ≠ thread → next.threads other = am.threads other

section Frames

variable {thread : Option Worker} {before middle after : RankState commSize Worker Memory}

theorem Beside.refl : Beside thread before before where
  phase := rfl
  stage := rfl
  workers _ _ := rfl
  ams am present := ⟨am, present, Nat.le_refl _, fun _ _ => rfl⟩

theorem Beside.trans (first : Beside thread before middle) (second : Beside thread middle after) :
    Beside thread before after where
  phase := second.phase.trans first.phase
  stage := second.stage.trans first.stage
  workers worker other := (second.workers worker other).trans (first.workers worker other)
  ams am present := by
    obtain ⟨next, present, grown, same⟩ := first.ams am present
    obtain ⟨last, present, grown', same'⟩ := second.ams next present
    refine ⟨last, present, grown.trans grown', ?_⟩
    intro other different
    exact (same' other different).trans (same other different)

end Frames

variable [DecidableEq Worker]
variable {inputs : Redistribution.Inputs commSize Worker Memory} {sound : SoundInputs inputs}
variable {state middle after : Redistribution commSize Worker Memory} {rank : Fin commSize}

/-- A run within the phases in which one thread of one rank takes all steps. -/
structure ThreadRun (inputs : Redistribution.Inputs commSize Worker Memory)
    (rank : Fin commSize) (thread : Option Worker)
    (state after : Redistribution commSize Worker Memory) : Prop where
  reached : (redistributionSystem inputs).Reachable (fun _ action => action.isInside = true)
    state after
  others : ∀ other, other ≠ rank → after.ranks other = state.ranks other
  beside : Beside thread (state.ranks rank) (after.ranks rank)
  live : after.terminated = state.terminated

section Runs

variable {thread : Option Worker}

theorem ThreadRun.refl : ThreadRun inputs rank thread state state where
  reached := .start
  others _ _ := rfl
  beside := .refl
  live := rfl

theorem ThreadRun.trans (first : ThreadRun inputs rank thread state middle)
    (second : ThreadRun inputs rank thread middle after) :
    ThreadRun inputs rank thread state after where
  reached := first.reached.trans second.reached
  others other different := (second.others other different).trans (first.others other different)
  beside := first.beside.trans second.beside
  live := second.live.trans first.live

end Runs

section Calls

variable {input : RankInput commSize Worker Memory} {thread : Option Worker}
variable {action : Action commSize Nat} {am : PhaseState commSize Worker Nat Memory}
variable {next : ThreadState commSize Worker Nat} {workers : Worker → WorkerStage}

omit [Fintype Worker] [DecidableEq Worker] in
@[simp] theorem with_am_rank (phase : PhaseState commSize Worker Nat Memory)
    (sent : Nat) (messages : List (Message commSize Nat)) :
    (state.withAm rank phase workers sent messages).ranks rank =
      { state.ranks rank with
        amState := some phase
        workers := workers
        ledger :=
          Function.update (state.ranks rank).ledger (state.ranks rank).phase phase.forget } := by
  unfold Redistribution.withAm
  exact Function.update_self _ _ _

theorem step_of_step_with {step : RedistributionAction commSize Worker Memory}
    (mover : step.rank = rank)
    (stepped : state.stepWith (inputs (state.ranks rank).phase rank) step = some after) :
    state.step inputs step = some after := by
  subst mover
  exact stepped

/-- Only one thread moves in a step of an AM state. -/
theorem thread_run_of_with_am {phase : PhaseState commSize Worker Nat Memory} {sent : Nat}
    {messages : List (Message commSize Nat)} {step : RedistributionAction commSize Worker Memory}
    (present : (state.ranks rank).amState = some am)
    (threads : phase.threads = Function.update am.threads thread next)
    (grown : am.takenIn ≤ phase.takenIn)
    (untouched : ∀ worker, thread ≠ some worker →
      workers worker = (state.ranks rank).workers worker)
    (inside : step.isInside = true)
    (stepped : state.step inputs step = some (state.withAm rank phase workers sent messages)) :
    ThreadRun inputs rank thread state (state.withAm rank phase workers sent messages) where
  reached := TransitionSystem.Reachable.start.next inside stepped
  others other different := Function.update_of_ne different _ _
  beside := by
    rw [with_am_rank]
    refine ⟨rfl, rfl, untouched, ?_⟩
    intro am' present'
    obtain rfl := Option.some.inj (present.symm.trans present')
    refine ⟨phase, rfl, grown, ?_⟩
    intro other different
    rw [threads]
    exact Function.update_of_ne different _ _
  live := rfl

/-- A call of a thread into the library. -/
theorem call_run {call : RedistributionAction commSize Worker Memory}
    (present : (state.ranks rank).amState = some am)
    (step : ThreadStep (inputs (state.ranks rank).phase rank).config thread (am.threads thread)
      action next)
    (untouched : ∀ worker, thread ≠ some worker →
      workers worker = (state.ranks rank).workers worker)
    (inside : call.isInside = true) (mover : call.rank = rank)
    (called : state.stepWith (inputs (state.ranks rank).phase rank) call =
      state.callAm (inputs (state.ranks rank).phase rank) rank thread action workers) :
    ∃ after phase, ThreadRun inputs rank thread state after ∧
      (after.ranks rank).workers = workers ∧ (after.ranks rank).amState = some phase ∧
      phase.threads thread = next ∧
      ∀ sent, ∀ message ∈ state.network sent, message ∈ after.network sent := by
  obtain ⟨phase, stepped, threads⟩ :=
    phase_step_enabled (inputs (state.ranks rank).phase rank).handler step
  have grown := taken_in_grows step threads
  have answered : state.callAm (inputs (state.ranks rank).phase rank) rank thread action workers =
      some (state.withAm rank phase workers (state.ranks rank).phase
        (state.network (state.ranks rank).phase ++
          (Exchange.newEvents am phase thread).filterMap (Event.message rank))) := by
    unfold Redistribution.callAm
    rw [present, Option.bind_some, stepped]
    rfl
  have run := thread_run_of_with_am present threads grown untouched inside
    (step_of_step_with mover (called.trans answered))
  refine ⟨_, phase, run, ?_, ?_, ?_, ?_⟩
  · rw [with_am_rank]
  · rw [with_am_rank]
  · rw [threads, Function.update_self]
  · intro sent message member
    unfold Redistribution.withAm
    dsimp only
    by_cases same : sent = (state.ranks rank).phase
    · subst same
      rw [Function.update_self]
      exact List.mem_append_left _ member
    · rw [Function.update_of_ne same]
      exact member

/-- The calls that a thread is in. -/
def InCalls (state : Redistribution commSize Worker Memory) (rank : Fin commSize)
    (thread : Option Worker) (stack : List (Frame commSize Worker Nat)) : Prop :=
  ∃ am, (state.ranks rank).amState = some am ∧ (am.threads thread).stack = stack

/-- What a thread does alone, it does in the redistribution. -/
theorem drains_run {phase : Nat} {stage : RankStage} {kind : Action commSize Nat → Bool}
    {below : List (Frame commSize Worker Nat)} {current : ThreadState commSize Worker Nat}
    (act : Action commSize Nat → RedistributionAction commSize Worker Memory)
    (inside : ∀ action, (act action).isInside = true) (mover : ∀ action, (act action).rank = rank)
    (calls : ∀ (state : Redistribution commSize Worker Memory) action, kind action = true →
      state.terminated = false → (state.ranks rank).stage = stage →
        state.stepWith (inputs phase rank) (act action) =
          state.callAm (inputs phase rank) rank thread action (state.ranks rank).workers)
    (drains : Drains (inputs phase rank).config thread kind below current)
    (live : state.terminated = false) (atPhase : (state.ranks rank).phase = phase)
    (atStage : (state.ranks rank).stage = stage)
    (present : (state.ranks rank).amState = some am) (here : am.threads thread = current) :
    ∃ after, ThreadRun inputs rank thread state after ∧
      (after.ranks rank).workers = (state.ranks rank).workers ∧
        InCalls after rank thread below := by
  induction drains generalizing state am with
  | finished arrived => exact ⟨state, .refl, rfl, am, present, by rw [here]; exact arrived⟩
  | next action permitted step later ih =>
      subst here
      have called := calls state action permitted live atStage
      rw [← atPhase] at step called
      obtain ⟨middle, moved, run, workers, now, arrived, -⟩ :=
        call_run present step (fun _ _ => rfl) (inside action) (mover action) called
      obtain ⟨after, continued, workers', rests⟩ := ih (run.live.trans live)
        (run.beside.phase.trans atPhase) (run.beside.stage.trans atStage) now arrived
      exact ⟨after, run.trans continued, workers'.trans workers, rests⟩

end Calls

section Standing

/-- A thread without a part in what its rank is doing is in no call. -/
structure Standing (input : RankInput commSize Worker Memory)
    (rankState : RankState commSize Worker Memory) : Prop where
  control : rankState.stage = .running → ∀ am, rankState.amState = some am →
    (am.threads none).stack = []
  spare : ∀ am, rankState.amState = some am → ∀ worker ∉ input.team,
    (am.threads (some worker)).stack = []

variable {input : RankInput commSize Worker Memory}
variable {rankState : RankState commSize Worker Memory}
variable {am next : PhaseState commSize Worker Nat Memory} {thread : Option Worker}
variable {action : Action commSize Nat}

omit [Fintype Worker] in
theorem phase_step_others (moved : am.step input.config input.handler (thread, action) = some next)
    {other : Option Worker} (different : other ≠ thread) :
    next.threads other = am.threads other := by
  obtain ⟨after, events, -, -, rfl⟩ := phase_step_cases moved
  rw [absorb_all_threads]
  exact Function.update_of_ne different _ _

omit [Fintype Worker] in
/-- A step of a thread that has a part in it. -/
theorem Standing.call (standing : Standing input rankState)
    (present : rankState.amState = some am)
    (moved : am.step input.config input.handler (thread, action) = some next)
    (control : thread = none → rankState.stage ≠ .running)
    (member : ∀ worker, thread = some worker → worker ∈ input.team)
    (workers : Worker → WorkerStage) (ledger : Nat → PhaseState commSize Worker Nat Unit) :
    Standing input { rankState with amState := some next, workers := workers, ledger := ledger }
    where
  control running am' present' := by
    obtain rfl := Option.some.inj present'
    rw [phase_step_others moved fun same => control same.symm running]
    exact standing.control running am present
  spare am' present' worker outside := by
    obtain rfl := Option.some.inj present'
    rw [phase_step_others moved fun same => outside (member worker same.symm)]
    exact standing.spare am present worker outside

omit [Fintype Worker] in
theorem Standing.worker_call (standing : Standing input rankState) {worker : Worker}
    (present : rankState.amState = some am)
    (moved : am.step input.config input.handler (some worker, action) = some next)
    (member : worker ∈ input.team) {workers : Worker → WorkerStage}
    {ledger : Nat → PhaseState commSize Worker Nat Unit} :
    Standing input
      { rankState with amState := some next, workers := workers, ledger := ledger } := by
  apply standing.call present moved
  · intro control
    cases control
  · intro other same
    obtain rfl := Option.some.inj same
    exact member

omit [Fintype Worker] in
/-- A message is handed to a thread that makes progress. -/
theorem progressing_of_deliver {source : Fin commSize} {records : List Nat}
    (moved : am.step input.config input.handler (thread, .deliver source records) = some next) :
    (am.threads thread).stack ≠ [] := by
  obtain ⟨after, events, stepped, -, -⟩ := phase_step_cases moved
  cases thread_step_cases stepped with
  | deliver _ _ below top =>
      rw [top]
      exact List.cons_ne_nil _ _

/-- The barrier is left by a thread that is in no call. -/
theorem leave_barrier_idle (stepped : state.stepWith input (.leaveBarrier rank) = some after) :
    ∃ am, (state.ranks rank).amState = some am ∧ (am.threads none).stack = [] := by
  simp only [Redistribution.stepWith] at stepped
  split at stepped
  · cases stepped
  next am present =>
    split_ifs at stepped with guard
    exact ⟨am, present, List.isEmpty_iff.mp guard.2.2.1⟩

theorem step_standing {action : RedistributionAction commSize Worker Memory}
    (stepped : state.step inputs action = some after)
    (standing : ∀ rank, Standing (inputs (state.ranks rank).phase rank) (state.ranks rank)) :
    ∀ rank, Standing (inputs (after.ranks rank).phase rank) (after.ranks rank) := by
  have step : RedistributionStep (inputs (state.ranks action.rank).phase action.rank) state
      action.rank action after := redistribution_step_cases stepped
  have others : ∀ other, other ≠ action.rank →
      Standing (inputs (after.ranks other).phase other) (after.ranks other) := by
    intro other different
    rw [redistribution_step_frame step different]
    exact standing other
  have own := standing action.rank
  intro rank
  by_cases same : rank = action.rank
  case neg => exact others rank same
  subst same
  generalize mover : action.rank = rank at step own stepped ⊢
  cases step with
  | setAmHandler memory outside =>
      simp only [Redistribution.setAmHandler, Function.update_self]
      constructor
      · intro running
        cases running
      · intro am present worker _
        obtain rfl := Option.some.inj present
        rfl
  | barrierProgress action state' waiting allowed called =>
      obtain ⟨am, next, present, moved, rfl⟩ := call_am_cases called
      rw [with_am_rank]
      apply own.call present moved
      · rw [waiting]
        intro _ running
        cases running
      · intro worker same
        cases same
  | leaveBarrier waiting all =>
      obtain ⟨am, present, idle⟩ := leave_barrier_idle stepped
      simp only [Redistribution.leaveBarrier, Function.update_self]
      constructor
      · intro _ am' present'
        obtain rfl := Option.some.inj (present.symm.trans present')
        exact idle
      · exact own.spare
  | post worker key remaining state' working posting called =>
      obtain ⟨am, next, present, moved, rfl⟩ := call_am_cases called
      rw [with_am_rank]
      exact own.worker_call present moved working.2
  | flush worker state' working posted called =>
      obtain ⟨am, next, present, moved, rfl⟩ := call_am_cases called
      rw [with_am_rank]
      exact own.worker_call present moved working.2
  | await worker working waiting =>
      simp only [Redistribution.setWorker, Function.update_self]
      exact ⟨own.control, own.spare⟩
  | finish worker am working waiting present idle enough =>
      simp only [Redistribution.setWorker, Function.update_self]
      exact ⟨own.control, own.spare⟩
  | progress worker state' working progressing called =>
      obtain ⟨am, next, present, moved, rfl⟩ := call_am_cases called
      rw [with_am_rank]
      exact own.worker_call present moved working.2
  | inner worker action state' working allowed called =>
      obtain ⟨am, next, present, moved, rfl⟩ := call_am_cases called
      rw [with_am_rank]
      exact own.worker_call present moved working.2
  | deliver thread sent index state' delivered =>
      obtain ⟨am, next, message, present, -, -, moved, rfl⟩ := deliver_am_cases delivered
      have calling := progressing_of_deliver moved
      rw [with_am_rank]
      apply own.call present moved
      · rintro rfl running
        exact calling (own.control running am present)
      · rintro worker rfl
        by_contra outside
        exact calling (own.spare am present worker outside)
  | stray sent index message found absent arrives => exact own
  | unflushed am present finished left => exact own
  | clear am present finished empty =>
      simp only [Redistribution.leavePhase, Function.update_self]
      constructor
      · intro running
        cases running
      · intro am present
        cases present

/-- What holds between two steps of a redistribution. -/
structure Orderly (sound : SoundInputs inputs) (state : Redistribution commSize Worker Memory) :
    Prop where
  coherent : Coherent sound state
  standing : ∀ rank, Standing (inputs (state.ranks rank).phase rank) (state.ranks rank)

theorem Orderly.kept {permitted : Redistribution commSize Worker Memory →
      RedistributionAction commSize Worker Memory → Prop} (orderly : Orderly sound state)
    (reached : (redistributionSystem inputs).Reachable permitted state after) :
    Orderly sound after := by
  apply reached.invariant orderly
  intro before after action _ orderly _ stepped
  exact ⟨step_coherent (redistribution_step_cases stepped) orderly.coherent,
    step_standing stepped orderly.standing⟩

theorem reachable_orderly (sound : SoundInputs inputs)
    (reached : (redistributionSystem inputs).Reachable (fun _ _ => True) (.initial inputs) state) :
    Orderly sound state := by
  have start : Orderly sound (.initial inputs) := by
    refine ⟨initial_coherent sound, fun rank => ⟨?_, ?_⟩⟩
    · intro running
      cases running
    · intro am present
      cases present
  exact start.kept reached

end Standing

section Workers

variable {worker : Worker}

/-- The order of the phases is kept by whatever happens next. -/
theorem Coherent.kept {permitted : Redistribution commSize Worker Memory →
      RedistributionAction commSize Worker Memory → Prop} (coherent : Coherent sound state)
    (reached : (redistributionSystem inputs).Reachable permitted state after) :
    Coherent sound after := by
  apply reached.invariant coherent
  intro before after action _ coherent _ stepped
  exact step_coherent (redistribution_step_cases stepped) coherent

theorem Coherent.am_present (coherent : Coherent sound state)
    (inside : (state.ranks rank).stage ≠ .outside) :
    ∃ am, (state.ranks rank).amState = some am := by
  apply Option.ne_none_iff_exists'.mp
  intro absent
  exact inside ((coherent.ranks rank).absent.mp absent)

omit [Fintype Worker] [DecidableEq Worker] in
theorem inside_of_running (running : (state.ranks rank).stage = .running) :
    (state.ranks rank).stage ≠ .outside := by
  rw [running]
  intro outside
  cases outside

/-- No thread of a rank has aborted. -/
theorem Coherent.threads_return (coherent : Coherent sound state)
    {am : PhaseState commSize Worker Nat Memory} (present : (state.ranks rank).amState = some am) :
    ThreadsReturn am.forget := by
  rw [← (coherent.ranks rank).present am present]
  exact reachable_threads_return (coherent.exchange (state.ranks rank).phase) rank

theorem ThreadRun.working {thread : Option Worker} (run : ThreadRun inputs rank thread state after)
    (working : state.Working (inputs (state.ranks rank).phase rank) rank worker) :
    after.Working (inputs (after.ranks rank).phase rank) rank worker := by
  unfold Redistribution.Working
  rw [run.beside.phase, run.beside.stage]
  exact working

/-- The worker returns from the call it is in. -/
theorem worker_settles (coherent : Coherent sound state)
    (working : state.Working (inputs (state.ranks rank).phase rank) rank worker) :
    ∃ after, ThreadRun inputs rank (some worker) state after ∧
      (after.ranks rank).workers = (state.ranks rank).workers ∧
      InCalls after rank (some worker) [] := by
  obtain ⟨running, member⟩ := working
  obtain ⟨am, present⟩ := coherent.am_present (inside_of_running running)
  have drains : Drains (inputs (state.ranks rank).phase rank).config (some worker) Action.returns []
      (am.threads (some worker)) :=
    thread_returns ((coherent.threads_return present).live (some worker))
  apply drains_run (fun action => .inner rank worker action) (fun _ => rfl) (fun _ => rfl) _
    drains coherent.live rfl running present rfl
  intro state' action returns live running
  have inner : isInnerAction action = true := by
    cases action with
    | getUpacket | postAmAnswer | progressEnd | handlerReturn | resume => rfl
    | _ => cases returns
  simp only [Redistribution.stepWith]
  exact if_pos ⟨live, ⟨running, member⟩, inner⟩

/-- The control thread returns to the barrier. -/
theorem control_settles (coherent : Coherent sound state)
    (waiting : (state.ranks rank).stage = .inBarrier) :
    ∃ after, ThreadRun inputs rank none state after ∧
      (after.ranks rank).workers = (state.ranks rank).workers ∧ InCalls after rank none [] := by
  have inside : (state.ranks rank).stage ≠ .outside := by
    rw [waiting]
    exact nofun
  obtain ⟨am, present⟩ := coherent.am_present inside
  have drains : Drains (inputs (state.ranks rank).phase rank).config none Action.unwinds []
      (am.threads none) :=
    thread_unwinds (coherent.threads_return present).control
  apply drains_run (fun action => .barrierProgress rank action) (fun _ => rfl) (fun _ => rfl) _
    drains coherent.live rfl waiting present rfl
  intro state' action unwinds live waiting
  have allowed : isBarrierAction action = true := by
    cases action with
    | progressEnd | handlerReturn | resume => rfl
    | _ => cases unwinds
  simp only [Redistribution.stepWith]
  exact if_pos ⟨live, waiting, allowed⟩

/-- A call of the worker, with its stage after it. -/
theorem worker_calls {am : PhaseState commSize Worker Nat Memory} {action : Action commSize Nat}
    {next : ThreadState commSize Worker Nat} {call : RedistributionAction commSize Worker Memory}
    {stage : WorkerStage} (present : (state.ranks rank).amState = some am)
    (step : ThreadStep (inputs (state.ranks rank).phase rank).config (some worker)
      (am.threads (some worker)) action next)
    (inside : call.isInside = true) (mover : call.rank = rank)
    (called : state.stepWith (inputs (state.ranks rank).phase rank) call =
      state.callAm (inputs (state.ranks rank).phase rank) rank (some worker) action
        (Function.update (state.ranks rank).workers worker stage)) :
    ∃ after phase, ThreadRun inputs rank (some worker) state after ∧
      (after.ranks rank).workers worker = stage ∧ (after.ranks rank).amState = some phase ∧
      phase.threads (some worker) = next ∧
      ∀ sent, ∀ message ∈ state.network sent, message ∈ after.network sent := by
  have untouched : ∀ other, some worker ≠ some other →
      Function.update (state.ranks rank).workers worker stage other =
        (state.ranks rank).workers other := by
    intro other different
    exact Function.update_of_ne (fun same => different (congrArg some same.symm)) _ _
  obtain ⟨after, phase, run, workers, now, threads, kept⟩ :=
    call_run present step untouched inside mover called
  exact ⟨after, phase, run, by rw [workers, Function.update_self], now, threads, kept⟩

/-- The worker posts its next key. -/
theorem worker_posts (coherent : Coherent sound state)
    (working : state.Working (inputs (state.ranks rank).phase rank) rank worker) {key : Nat}
    {remaining : List Nat}
    (posting : (state.ranks rank).workers worker = .posting (key :: remaining)) :
    ∃ after, ThreadRun inputs rank (some worker) state after ∧
      (after.ranks rank).workers worker = .posting remaining := by
  obtain ⟨middle, settles, workers, am, present, idle⟩ := worker_settles coherent working
  have working' := settles.working working
  have live := settles.live.trans coherent.live
  rw [← workers] at posting
  have called : middle.stepWith (inputs (middle.ranks rank).phase rank) (.post rank worker) =
      middle.callAm (inputs (middle.ranks rank).phase rank) rank (some worker)
        (.postAm ((inputs (middle.ranks rank).phase rank).destination key) key)
        (Function.update (middle.ranks rank).workers worker (.posting remaining)) := by
    simp only [Redistribution.stepWith, posting]
    exact if_pos ⟨live, working'⟩
  obtain ⟨after, phase, run, stage, -⟩ :=
    worker_calls present (.postAm _ key worker rfl idle) rfl rfl called
  exact ⟨after, settles.trans run, stage⟩

/-- The worker has posted all its keys and flushes. -/
theorem worker_flushes (coherent : Coherent sound state)
    (working : state.Working (inputs (state.ranks rank).phase rank) rank worker)
    (posted : (state.ranks rank).workers worker = .posting []) :
    ∃ after, ThreadRun inputs rank (some worker) state after ∧
      (after.ranks rank).workers worker = .waiting := by
  obtain ⟨middle, settles, workers, am, present, idle⟩ := worker_settles coherent working
  have working' := settles.working working
  have live := settles.live.trans coherent.live
  rw [← workers] at posted
  have called : middle.stepWith (inputs (middle.ranks rank).phase rank) (.flush rank worker) =
      middle.callAm (inputs (middle.ranks rank).phase rank) rank (some worker) .flush
        (Function.update (middle.ranks rank).workers worker .waiting) := by
    simp only [Redistribution.stepWith]
    exact if_pos ⟨live, working', posted⟩
  obtain ⟨after, phase, run, stage, -⟩ :=
    worker_calls present (.flush worker rfl idle) rfl rfl called
  exact ⟨after, settles.trans run, stage⟩

/-- A worker between its calls calls `progress`. -/
theorem worker_progresses (live : state.terminated = false)
    (working : state.Working (inputs (state.ranks rank).phase rank) rank worker)
    (progressing : (state.ranks rank).workers worker = .progressing)
    (idle : InCalls state rank (some worker) []) :
    ∃ after below, ThreadRun inputs rank (some worker) state after ∧
      (after.ranks rank).workers worker = .waiting ∧
      InCalls after rank (some worker) (.progress :: below) ∧
      ∀ sent, ∀ message ∈ state.network sent, message ∈ after.network sent := by
  obtain ⟨am, present, idle⟩ := idle
  have called : state.stepWith (inputs (state.ranks rank).phase rank) (.progress rank worker) =
      state.callAm (inputs (state.ranks rank).phase rank) rank (some worker) .progress
        (Function.update (state.ranks rank).workers worker .waiting) := by
    simp only [Redistribution.stepWith]
    exact if_pos ⟨live, working, progressing⟩
  obtain ⟨after, phase, run, stage, now, threads, kept⟩ :=
    worker_calls present (.progress worker rfl idle) rfl rfl called
  have calling : InCalls after rank (some worker)
      (.progress :: [.progressWorker (am.threads (some worker)).profileWorker]) := by
    refine ⟨phase, now, ?_⟩
    rw [threads]
    rfl
  exact ⟨after, _, run, stage, calling, kept⟩

/-- The loop test on `recv_count()`. -/
theorem worker_checks (live : state.terminated = false)
    (working : state.Working (inputs (state.ranks rank).phase rank) rank worker)
    (waiting : (state.ranks rank).workers worker = .waiting)
    {am : PhaseState commSize Worker Nat Memory} (present : (state.ranks rank).amState = some am)
    (idle : (am.threads (some worker)).stack = []) {stage : WorkerStage}
    (tested : stage =
      if am.recvCount < (inputs (state.ranks rank).phase rank).expectedRecvCount then .progressing
      else .done) :
    ThreadRun inputs rank (some worker) state (state.setWorker rank worker stage) where
  reached := by
    have mover : (RedistributionAction.check rank worker :
        RedistributionAction commSize Worker Memory).rank = rank := rfl
    have stepped : (redistributionSystem inputs).step state (.check rank worker) =
        some (state.setWorker rank worker stage) := by
      apply step_of_step_with mover
      simp only [Redistribution.stepWith, present]
      rw [if_pos ⟨live, working, waiting, List.isEmpty_iff.mpr idle⟩, tested]
      split
      · rfl
      · rfl
    refine TransitionSystem.Reachable.start.next ?_ stepped
    rfl
  others other different := Function.update_of_ne different _ _
  beside := by
    simp only [Redistribution.setWorker, Function.update_self]
    refine ⟨rfl, rfl, ?_, fun am present => ⟨am, present, Nat.le_refl _, fun _ _ => rfl⟩⟩
    intro other different
    exact Function.update_of_ne (fun same => different (congrArg some same.symm)) _ _
  live := rfl

/-- A worker whose rank has counted enough leaves the loop. -/
theorem worker_finishes (live : state.terminated = false)
    (working : state.Working (inputs (state.ranks rank).phase rank) rank worker)
    (waiting : (state.ranks rank).workers worker = .waiting)
    {am : PhaseState commSize Worker Nat Memory} (present : (state.ranks rank).amState = some am)
    (idle : (am.threads (some worker)).stack = [])
    (enough : (inputs (state.ranks rank).phase rank).expectedRecvCount ≤ am.recvCount) :
    ∃ after, ThreadRun inputs rank (some worker) state after ∧
      (after.ranks rank).workers worker = .done := by
  have tested : WorkerStage.done =
      if am.recvCount < (inputs (state.ranks rank).phase rank).expectedRecvCount then .progressing
      else .done := (if_neg (Nat.not_lt.mpr enough)).symm
  refine ⟨_, worker_checks live working waiting present idle tested, ?_⟩
  simp only [Redistribution.setWorker, Function.update_self]

/-- A worker that has flushed returns to the loop test, if it has not left the loop. -/
theorem worker_waits (coherent : Coherent sound state)
    (working : state.Working (inputs (state.ranks rank).phase rank) rank worker)
    (flushed : ((state.ranks rank).workers worker).hasFlushed = true) :
    ∃ after, ThreadRun inputs rank (some worker) state after ∧
      InCalls after rank (some worker) [] ∧
      (after.ranks rank).workers worker =
        if (state.ranks rank).workers worker = .done then .done else .waiting := by
  obtain ⟨middle, settles, workers, idle⟩ := worker_settles coherent working
  cases stage : (state.ranks rank).workers worker with
  | posting keys =>
      rw [stage] at flushed
      cases flushed
  | waiting | done => exact ⟨middle, settles, idle, by rw [workers, stage]; rfl⟩
  | progressing =>
      have progressing : (middle.ranks rank).workers worker = .progressing := by
        rw [workers, stage]
      have working' := settles.working working
      obtain ⟨calling, below, progresses, waiting, -, -⟩ := worker_progresses
        (settles.live.trans coherent.live) working' progressing idle
      have run := settles.trans progresses
      obtain ⟨after, returns, workers', idle'⟩ :=
        worker_settles (coherent.kept run.reached) (run.working working)
      exact ⟨after, run.trans returns, idle', by rw [workers', waiting]; rfl⟩

/-- A worker at the loop test takes in a message on its way to the rank. -/
theorem worker_receives (coherent : Coherent sound state)
    (working : state.Working (inputs (state.ranks rank).phase rank) rank worker)
    (waiting : (state.ranks rank).workers worker = .waiting)
    {am : PhaseState commSize Worker Nat Memory} (present : (state.ranks rank).amState = some am)
    (idle : (am.threads (some worker)).stack = [])
    (missing : am.recvCount < (inputs (state.ranks rank).phase rank).expectedRecvCount)
    {message : Message commSize Nat}
    (member : message ∈ state.network (state.ranks rank).phase) (arrives : message.dest = rank) :
    ∃ after next, ThreadRun inputs rank (some worker) state after ∧
      (after.ranks rank).workers worker = .waiting ∧ (after.ranks rank).amState = some next ∧
      am.takenIn < next.takenIn := by
  have tested : WorkerStage.progressing =
      if am.recvCount < (inputs (state.ranks rank).phase rank).expectedRecvCount then .progressing
      else .done := (if_pos missing).symm
  have checks := worker_checks coherent.live working waiting present idle tested
  have progressing : ((state.setWorker rank worker .progressing).ranks rank).workers worker =
      .progressing := by
    simp only [Redistribution.setWorker, Function.update_self]
  have stillIdle : InCalls (state.setWorker rank worker .progressing) rank (some worker) [] := by
    refine ⟨am, ?_, idle⟩
    simp only [Redistribution.setWorker, Function.update_self]
    exact present
  obtain ⟨calling, below, progresses, waiting', ⟨am', present', top⟩, kept⟩ := worker_progresses
    (checks.live.trans coherent.live) (checks.working working) progressing stillIdle
  have run := checks.trans progresses
  have coherent' := coherent.kept run.reached
  have current := run.beside.phase
  have carried := kept (state.ranks rank).phase message member
  rw [← current] at carried
  obtain ⟨index, found⟩ := List.mem_iff_getElem?.mp carried
  have batch := (reachable_carried (coherent'.exchange (calling.ranks rank).phase)).nonempty
    message carried
  have step : ThreadStep (inputs (calling.ranks rank).phase rank).config (some worker)
      (am'.threads (some worker)) (.deliver message.source message.records)
      ((am'.threads (some worker)).handleIncomingAm
        (inputs (calling.ranks rank).phase rank).config message.source message.records) :=
    .deliver message.source message.records below top
  obtain ⟨next, stepped, threads⟩ :=
    phase_step_enabled (inputs (calling.ranks rank).phase rank).handler step
  have delivered : calling.step inputs
      (.deliver rank (some worker) (calling.ranks rank).phase index) =
      some (calling.withAm rank next (calling.ranks rank).workers (calling.ranks rank).phase
        ((calling.network (calling.ranks rank).phase).eraseIdx index)) := by
    simp only [Redistribution.step, RedistributionAction.rank, Redistribution.stepWith]
    rw [if_pos coherent'.live]
    unfold Redistribution.deliverAm
    rw [present', Option.bind_some, found, Option.bind_some, if_pos arrives, stepped]
    rfl
  have takes := thread_run_of_with_am present' threads (taken_in_grows step threads)
    (fun _ _ => rfl) rfl delivered
  obtain ⟨between, present'', grown, -⟩ := run.beside.ams am present
  obtain rfl := Option.some.inj (present'.symm.trans present'')
  refine ⟨_, next, run.trans takes, ?_, ?_, grown.trans_lt (taken_in_deliver step threads batch)⟩
  · rw [with_am_rank]
    exact waiting'
  · rw [with_am_rank]

end Workers

end IntegerSortLci.Benchmark
