import IntegerSortLci.Benchmark.PhaseCompletion
import IntegerSortLci.Runtime.FlushOrder

/-!
# What a rank does in its current phase

Between `set_am_handler` and `clear_am_handler` a rank runs one AM phase, from the memory
that its handler started with. Its control thread never flushes, and a worker flushes only
after it has made all its posts. So the handler calls of the rank make up its memory in some
order, and the messages of each worker are its keys in full batches and one with the rest.
-/

namespace IntegerSortLci.Benchmark

open IntegerSortLci.Runtime IntegerSortLci.Foundations
open scoped BigOperators

set_option autoImplicit false

variable {commSize : Nat} {Worker Memory : Type} [Fintype Worker]

/-- The memories on which a rank may let its handler work in a phase. -/
abbrev Start (commSize : Nat) (Memory : Type) := Nat → Fin commSize → Memory → Prop

/-- `set_am_handler` is given a handler that works on a memory of `start`. -/
def StartsFrom (start : Start commSize Memory) (state : Redistribution commSize Worker Memory) :
    RedistributionAction commSize Worker Memory → Prop
  | .setAmHandler rank memory => start (state.ranks rank).phase rank memory
  | _ => True

/-- A thread of the rank has called `flush`. -/
def RankState.hasFlushed (rankState : RankState commSize Worker Memory) : Option Worker → Bool
  | none => false
  | some worker =>
      match rankState.stage with
      | .running => (rankState.workers worker).hasFlushed
      | _ => false

variable [DecidableEq Worker]

/-- The run of the AM phase that a rank is in. -/
structure RankRun (input : RankInput commSize Worker Memory) (start : Memory → Prop)
    (rankState : RankState commSize Worker Memory)
    (am : PhaseState commSize Worker Nat Memory) : Prop where
  reached : ∃ memory, start memory ∧
    (phaseSystem input.config input.handler).Reachable (fun _ call => QuietAction call.2)
      (.initial input.config memory) am
  unflushed : ∀ thread, rankState.hasFlushed thread = false →
    Unflushed (am.threads thread).stack (am.threads thread).log
  ordered : ∀ thread, PostsFirst (am.threads thread).log

variable {inputs : Redistribution.Inputs commSize Worker Memory} {sound : SoundInputs inputs}
variable {state after : Redistribution commSize Worker Memory} {rank : Fin commSize}
variable {start : Start commSize Memory}

section Calls

variable {input : RankInput commSize Worker Memory} {memory : Memory} {given : Memory → Prop}
variable {rankState rankState' : RankState commSize Worker Memory}
variable {am next : PhaseState commSize Worker Nat Memory} {thread : Option Worker}
variable {action : Action commSize Nat}

omit [Fintype Worker] in
theorem initial_rank_run (allowed : given memory) :
    RankRun input given rankState (.initial input.config memory) where
  reached := ⟨memory, allowed, .start⟩
  unflushed _ _ := ⟨nofun, nofun⟩
  ordered _ := ⟨[], [], rfl, nofun, fun _ => rfl⟩

omit [Fintype Worker] in
/-- A thread takes a step of the phase. From the call of its flush on it posts nothing. -/
theorem RankRun.call (run : RankRun input given rankState am)
    (moved : am.step input.config input.handler (thread, action) = some next)
    (quiet : QuietAction action)
    (before : ∀ other, rankState'.hasFlushed other = false → rankState.hasFlushed other = false)
    (begins : action = .flush → rankState'.hasFlushed thread = true)
    (silent : rankState'.hasFlushed thread = true → ∀ dest,
      pushingIn dest (am.threads thread).stack = [] ∧ action.posting dest = []) :
    RankRun input given rankState' next := by
  obtain ⟨memory, allowed, prior⟩ := run.reached
  have reached := prior.next quiet moved
  obtain ⟨threadAfter, events, stepped, extended, rfl⟩ := phase_step_cases moved
  have step := thread_step_cases stepped
  have own : rankState'.hasFlushed thread = false →
      Unflushed threadAfter.stack threadAfter.log := by
    intro still
    have other : action ≠ .flush := by
      intro same
      rw [begins same] at still
      cases still
    exact step_unflushed step other (run.unflushed thread (before thread still))
  refine ⟨⟨memory, allowed, reached⟩, ?_, ?_⟩
  · intro other still
    rw [absorb_all_threads]
    dsimp only
    by_cases same : other = thread
    · subst same
      rw [Function.update_self]
      exact own still
    · rw [Function.update_of_ne same]
      exact run.unflushed other (before other still)
  · intro other
    rw [absorb_all_threads]
    dsimp only
    by_cases same : other = thread
    · subst same
      rw [Function.update_self]
      by_cases flushed : rankState'.hasFlushed other = true
      · have settled := fun dest => (silent flushed dest).1
        have unposting := fun dest => (silent flushed dest).2
        obtain ⟨-, later, grew, nothing⟩ := step_settled step quiet unposting settled
        rw [grew]
        exact (run.ordered other).silent nothing
      · exact .of_unflushed (own (Bool.eq_false_iff.mpr flushed))
    · rw [Function.update_of_ne same]
      exact run.ordered other

omit [Fintype Worker] in
theorem RankRun.stay (run : RankRun input given rankState am)
    (before : ∀ other, rankState'.hasFlushed other = false → rankState.hasFlushed other = false) :
    RankRun input given rankState' am where
  reached := run.reached
  unflushed other still := run.unflushed other (before other still)
  ordered := run.ordered

omit [Fintype Worker] in
theorem idle_of_flush (moved : am.step input.config input.handler (thread, .flush) = some next) :
    (am.threads thread).stack = [] := by
  obtain ⟨threadAfter, events, stepped, -, -⟩ := phase_step_cases moved
  cases thread_step_cases stepped with
  | flush worker owner idle => exact idle

end Calls

section Steps

/-- The phase of each rank runs from the memory that its handler was given. -/
def RankRuns (inputs : Redistribution.Inputs commSize Worker Memory)
    (start : Start commSize Memory) (state : Redistribution commSize Worker Memory) : Prop :=
  ∀ rank am, (state.ranks rank).amState = some am →
    RankRun (inputs (state.ranks rank).phase rank) (start (state.ranks rank).phase rank)
      (state.ranks rank) am

/-- No push of a worker that has flushed waits for a packet. -/
theorem settled_of_flushed (coherent : Coherent sound state) {thread : Option Worker}
    {am : PhaseState commSize Worker Nat Memory}
    (present : (state.ranks rank).amState = some am)
    (flushed : (state.ranks rank).hasFlushed thread = true) (dest : Fin commSize) :
    pushingIn dest (am.threads thread).stack = [] := by
  cases thread with
  | none => cases flushed
  | some worker =>
      cases stage : (state.ranks rank).stage with
      | running =>
          simp only [RankState.hasFlushed, stage] at flushed
          have fits := worker_fits coherent stage worker
          rw [(coherent.ranks rank).present am present] at fits
          exact (fits.draining flushed).settled dest
      | outside | inBarrier =>
          simp only [RankState.hasFlushed, stage] at flushed
          cases flushed

/-- A call of a worker: the flush, or one that does not change where the worker is with
respect to it. -/
theorem rank_run_worker (coherent : Coherent sound state) {worker : Worker}
    {am next : PhaseState commSize Worker Nat Memory} {action : Action commSize Nat}
    {stage : WorkerStage} {ledger : Nat → PhaseState commSize Worker Nat Unit}
    (run : RankRun (inputs (state.ranks rank).phase rank) (start (state.ranks rank).phase rank)
      (state.ranks rank) am)
    (running : (state.ranks rank).stage = .running)
    (present : (state.ranks rank).amState = some am)
    (moved : am.step (inputs (state.ranks rank).phase rank).config
      (inputs (state.ranks rank).phase rank).handler (some worker, action) = some next)
    (quiet : QuietAction action)
    (turns : action = .flush ∧ stage.hasFlushed = true ∨ action ≠ .flush ∧
      stage.hasFlushed = ((state.ranks rank).workers worker).hasFlushed ∧
        (stage.hasFlushed = true → ∀ dest, action.posting dest = [])) :
    RankRun (inputs (state.ranks rank).phase rank) (start (state.ranks rank).phase rank)
      { state.ranks rank with
        amState := some next
        workers := Function.update (state.ranks rank).workers worker stage
        ledger := ledger } next := by
  have flushed : ∀ other, ({ state.ranks rank with
      amState := some next
      workers := Function.update (state.ranks rank).workers worker stage
      ledger := ledger } : RankState commSize Worker Memory).hasFlushed (some other) =
        (Function.update (state.ranks rank).workers worker stage other).hasFlushed := by
    intro other
    simp only [RankState.hasFlushed, running]
  have flushedBefore : ∀ other, (state.ranks rank).hasFlushed (some other) =
      ((state.ranks rank).workers other).hasFlushed := by
    intro other
    simp only [RankState.hasFlushed, running]
  apply run.call moved quiet
  · intro other still
    cases other with
    | none => rfl
    | some other =>
        rw [flushed] at still
        rw [flushedBefore]
        by_cases same : other = worker
        · subst same
          rw [Function.update_self] at still
          rcases turns with ⟨-, now⟩ | ⟨-, kept, -⟩
          · rw [now] at still
            cases still
          · exact kept.symm.trans still
        · rw [Function.update_of_ne same] at still
          exact still
  · intro same
    rw [flushed, Function.update_self]
    rcases turns with ⟨-, now⟩ | ⟨other, -, -⟩
    · exact now
    · exact absurd same other
  · rw [flushed, Function.update_self]
    intro now dest
    rcases turns with ⟨rfl, -⟩ | ⟨-, kept, unposting⟩
    · rw [idle_of_flush moved]
      exact ⟨rfl, rfl⟩
    · refine ⟨settled_of_flushed coherent present ?_ dest, unposting now dest⟩
      rw [flushedBefore, ← kept]
      exact now

omit [Fintype Worker] in
theorem set_worker_flushed {rankState : RankState commSize Worker Memory} {worker : Worker}
    {stage : WorkerStage} (flushed : stage.hasFlushed = (rankState.workers worker).hasFlushed)
    (other : Option Worker)
    (still : ({ rankState with
      workers := Function.update rankState.workers worker stage } :
        RankState commSize Worker Memory).hasFlushed other = false) :
    rankState.hasFlushed other = false := by
  cases other with
  | none => rfl
  | some other =>
      unfold RankState.hasFlushed at still ⊢
      dsimp only at still ⊢
      by_cases same : other = worker
      · subst same
        rw [Function.update_self, flushed] at still
        exact still
      · rw [Function.update_of_ne same] at still
        exact still

/-- A step of a thread inside the library, or a delivery to it. -/
theorem rank_run_inner (coherent : Coherent sound state) {thread : Option Worker}
    {am next : PhaseState commSize Worker Nat Memory} {action : Action commSize Nat}
    {ledger : Nat → PhaseState commSize Worker Nat Unit}
    (run : RankRun (inputs (state.ranks rank).phase rank) (start (state.ranks rank).phase rank)
      (state.ranks rank) am)
    (present : (state.ranks rank).amState = some am)
    (moved : am.step (inputs (state.ranks rank).phase rank).config
      (inputs (state.ranks rank).phase rank).handler (thread, action) = some next)
    (quiet : QuietAction action) (other : action ≠ .flush)
    (unposting : ∀ dest, action.posting dest = []) :
    RankRun (inputs (state.ranks rank).phase rank) (start (state.ranks rank).phase rank)
      { state.ranks rank with amState := some next, ledger := ledger } next := by
  apply run.call moved quiet
  · exact fun _ still => still
  · exact fun same => absurd same other
  · intro flushed dest
    exact ⟨settled_of_flushed coherent present flushed dest, unposting dest⟩

theorem step_rank_runs {action : RedistributionAction commSize Worker Memory}
    (stepped : state.step inputs action = some after) (starts : StartsFrom start state action)
    (coherent : Coherent sound state) (runs : RankRuns inputs start state) :
    RankRuns inputs start after := by
  have step : RedistributionStep (inputs (state.ranks action.rank).phase action.rank) state
      action.rank action after := redistribution_step_cases stepped
  intro rank am present
  by_cases same : rank = action.rank
  case neg =>
    rw [redistribution_step_frame step same] at present ⊢
    exact runs rank am present
  subst same
  generalize mover : action.rank = rank at step present ⊢
  have own := runs rank
  cases step with
  | setAmHandler memory outside =>
      simp only [Redistribution.setAmHandler, Function.update_self] at present ⊢
      obtain rfl := Option.some.inj present
      exact initial_rank_run starts
  | barrierProgress action state' waiting allowed called =>
      obtain ⟨quiet, -, unposting⟩ := barrier_action_silent allowed
      obtain ⟨before, next, inside, moved, rfl⟩ := call_am_cases called
      rw [with_am_rank] at present ⊢
      obtain rfl := Option.some.inj present
      apply rank_run_inner coherent (own before inside) inside moved quiet _ unposting
      rintro rfl
      cases allowed
  | leaveBarrier waiting all =>
      simp only [Redistribution.leaveBarrier, Function.update_self] at present ⊢
      apply (own am present).stay
      intro other _
      cases other with
      | none => rfl
      | some worker => simp only [RankState.hasFlushed, waiting]
  | post worker key remaining state' working posting called =>
      obtain ⟨before, next, inside, moved, rfl⟩ := call_am_cases called
      rw [with_am_rank] at present ⊢
      obtain rfl := Option.some.inj present
      apply rank_run_worker coherent (own before inside) working.1 inside moved trivial
      right
      constructor
      · intro flushing
        cases flushing
      · constructor
        · rw [posting]
          rfl
        · intro flushed
          cases flushed
  | flush worker state' working posted called =>
      obtain ⟨before, next, inside, moved, rfl⟩ := call_am_cases called
      rw [with_am_rank] at present ⊢
      obtain rfl := Option.some.inj present
      apply rank_run_worker coherent (own before inside) working.1 inside moved trivial
      exact .inl ⟨rfl, rfl⟩
  | await worker working waiting =>
      simp only [Redistribution.setWorker, Function.update_self] at present ⊢
      apply (own am present).stay
      exact fun other still => set_worker_flushed (by rw [waiting]; rfl) other still
  | finish worker before working waiting inside idle enough =>
      simp only [Redistribution.setWorker, Function.update_self] at present ⊢
      apply (own am present).stay
      exact fun other still => set_worker_flushed (by rw [waiting]; rfl) other still
  | progress worker state' working progressing called =>
      obtain ⟨before, next, inside, moved, rfl⟩ := call_am_cases called
      rw [with_am_rank] at present ⊢
      obtain rfl := Option.some.inj present
      apply rank_run_worker coherent (own before inside) working.1 inside moved trivial
      right
      constructor
      · intro flushing
        cases flushing
      · constructor
        · rw [progressing]
          rfl
        · intro _ dest
          rfl
  | inner worker action state' working allowed called =>
      obtain ⟨quiet, -, unposting⟩ := inner_action_silent allowed
      obtain ⟨before, next, inside, moved, rfl⟩ := call_am_cases called
      rw [with_am_rank] at present ⊢
      obtain rfl := Option.some.inj present
      apply rank_run_inner coherent (own before inside) inside moved quiet _ unposting
      rintro rfl
      cases allowed
  | deliver thread sent index state' delivered =>
      obtain ⟨before, next, message, inside, -, -, moved, rfl⟩ := deliver_am_cases delivered
      rw [with_am_rank] at present ⊢
      obtain rfl := Option.some.inj present
      apply rank_run_inner coherent (own before inside) inside moved trivial
      · intro flushing
        cases flushing
      · intro dest
        rfl
  | stray sent index message found absent arrives => exact own am present
  | unflushed before inside finished left => exact own am present
  | clear before inside finished empty =>
      simp only [Redistribution.leavePhase, Function.update_self] at present
      cases present

theorem reachable_rank_runs (sound : SoundInputs inputs)
    (reached : (redistributionSystem inputs).Reachable (StartsFrom start) (.initial inputs) state) :
    RankRuns inputs start state := by
  have both : Coherent sound state ∧ RankRuns inputs start state := by
    apply reached.invariant
    · refine ⟨initial_coherent sound, ?_⟩
      intro rank am present
      cases present
    · rintro before after action _ ⟨coherent, runs⟩ starts stepped
      exact ⟨step_coherent (redistribution_step_cases stepped) coherent,
        step_rank_runs stepped starts coherent runs⟩
  exact both.2

end Steps

end IntegerSortLci.Benchmark
