import IntegerSortLci.Benchmark.ThreadRuns

/-!
# No rank waits for ever in a redistribution

A worker leaves the loop on `recv_count()` when its rank has counted all keys it expects.
As long as a key is missing, its sender holds it, or it is on its way, or a thread of the
rank is at it; so some thread can take a step that brings the phase closer to its end.
Ranks that are a phase ahead have sent all there was.
-/

namespace IntegerSortLci.Benchmark

open IntegerSortLci.Runtime IntegerSortLci.Foundations
open scoped BigOperators

set_option autoImplicit false

variable {commSize : Nat} {Worker Memory : Type} [Fintype Worker] [DecidableEq Worker]
variable {inputs : Redistribution.Inputs commSize Worker Memory} {sound : SoundInputs inputs}
variable {state after : Redistribution commSize Worker Memory} {rank : Fin commSize}

section Messages

variable {phase : Nat}

/-- Where a phase stands when no thread can go on without a message. -/
structure Settled (inputs : Redistribution.Inputs commSize Worker Memory)
    (state : Redistribution commSize Worker Memory) (phase : Nat) (rank : Fin commSize) : Prop where
  running : (state.ranks rank).stage = .running
  flushed : ∀ worker ∈ (inputs phase rank).team,
    ((state.ranks rank).workers worker).hasFlushed = true
  idle : ∀ worker ∈ (inputs phase rank).team, InCalls state rank (some worker) []

omit [Fintype Worker] [DecidableEq Worker] in
theorem remaining_of_flushed {stage : WorkerStage} (flushed : stage.hasFlushed = true) :
    stage.remaining = [] := by
  cases stage with
  | posting keys => cases flushed
  | waiting | progressing | done => rfl

/-- What is left of a phase for a worker that has been through it. -/
structure PostedAll (input : RankInput commSize Worker Memory)
    (phase : PhaseState commSize Worker Nat Unit) (worker : Worker) : Prop where
  draining : Draining (phase.threads (some worker))
  flushed : flushedSincePush (phase.threads (some worker)).log = true
  submitted : ∀ dest, (phase.threads (some worker)).submitted dest =
    input.keysFor dest (input.share worker)

/-- A rank that is past a phase has posted all its keys in it, and so has one that has
settled. -/
theorem posted_all (coherent : Coherent sound state) {source : Fin commSize}
    (later : phase ≤ (state.ranks source).phase)
    (settled : (state.ranks source).phase = phase → Settled inputs state phase source)
    (worker : Worker) :
    PostedAll (inputs phase source) ((state.ranks source).ledger phase) worker := by
  have fits := (coherent.ranks source).fits phase worker
  have whole : ((state.ranks source).stageIn (inputs phase source) phase worker).remaining = [] →
      ∀ dest, (((state.ranks source).ledger phase).threads (some worker)).submitted dest =
        (inputs phase source).keysFor dest ((inputs phase source).share worker) := by
    intro nothing dest
    have submitted := fits.submitted dest
    rw [nothing] at submitted
    exact (List.append_nil _).symm.trans submitted
  rcases Nat.lt_or_eq_of_le later with past | current
  · have done : (state.ranks source).stageIn (inputs phase source) phase worker = .done := by
      unfold RankState.stageIn
      rw [if_pos past]
    rw [done] at fits whole
    exact ⟨fits.draining rfl, (fits.finished rfl).1, whole rfl⟩
  · subst current
    obtain ⟨running, flushed, idle⟩ := settled rfl
    by_cases member : worker ∈ (inputs (state.ranks source).phase source).team
    · rw [stage_in_running running] at fits whole
      obtain ⟨am, present, empty⟩ := idle worker member
      have draining := fits.draining (flushed worker member)
      have submitted := whole (remaining_of_flushed (flushed worker member))
      rw [(coherent.ranks source).present am present] at draining submitted ⊢
      exact ⟨draining, draining.flushed empty, submitted⟩
    · have nothing := sound.spare (state.ranks source).phase source worker member
      obtain ⟨draining, flushed⟩ := fits.unposted nothing
      refine ⟨draining, flushed, whole ?_⟩
      apply List.eq_nil_iff_forall_not_mem.mpr
      intro key unposted
      have shared := fits.pending key unposted
      rw [nothing] at shared
      cases shared

/-- All that was posted in a phase is on its way or was handled when every rank has been
through it or has settled, and the receiver is in no call. -/
theorem all_on_its_way (coherent : Coherent sound state)
    (later : ∀ source, phase ≤ (state.ranks source).phase)
    (settled : ∀ source, (state.ranks source).phase = phase → Settled inputs state phase source)
    (source dest : Fin commSize) (rests : ((state.ranks dest).ledger phase).NoReceive) :
    keysBetween inputs phase source dest =
      (state.project phase).inFlight source dest + (state.project phase).handled source dest := by
  have posts := posted_all coherent (later source) (settled source)
  have control : ∀ dest,
      postedTo dest (((state.ranks source).ledger phase).threads none).log = [] := fun dest =>
    (List.append_eq_nil_iff.mp ((coherent.ranks source).control phase dest)).1
  have posted : (state.project phase).posted source dest =
      keysBetween inputs phase source dest := by
    unfold Exchange.posted Exchange.gathered keysBetween
    rw [Fintype.sum_option]
    have nothing : postedTo dest ((((state.project phase).phases source).threads none).log) = [] :=
      control dest
    rw [← postedTo, nothing, Multiset.coe_nil, zero_add]
    apply Finset.sum_congr rfl
    intro worker _
    have submitted := (posts worker).submitted dest
    unfold ThreadState.submitted at submitted
    rw [(posts worker).draining.settled dest, List.append_nil] at submitted
    exact congrArg _ submitted
  have unsent : (state.project phase).unsent source dest = 0 := by
    apply Finset.sum_eq_zero
    intro thread _
    have flushed :
        flushedSincePush (((state.ranks source).ledger phase).threads thread).log = true := by
      cases thread with
      | none => exact flushed_of_unposted control
      | some worker => exact (posts worker).flushed
    have quiet := reachable_quiet
      (exchange_thread_reachable (coherent.exchange phase) source thread)
    have empty := quiet.flushed flushed dest
    rw [Multiset.coe_eq_zero, Runtime.unsent]
    split
    · exact empty
    · rfl
  have receiving : (state.project phase).receiving source dest = 0 := by
    apply Finset.sum_eq_zero
    intro thread _
    have resting := resting_of_no_receive (rests thread)
    have pending : pendingOf (((state.project phase).phases dest).threads thread).stack = [] :=
      resting.1
    rw [pending]
    rfl
  have conserved := values_conserved (coherent.exchange phase) source dest
  rw [posted, unsent, receiving, zero_add, add_zero] at conserved
  exact conserved

omit [Fintype Worker] in
/-- No thread of a settled rank is in a call. -/
theorem settled_idle (standing : Standing (inputs phase rank) (state.ranks rank))
    (settled : Settled inputs state phase rank) {am : PhaseState commSize Worker Nat Memory}
    (present : (state.ranks rank).amState = some am) : am.Idle := by
  intro thread
  cases thread with
  | none => exact standing.control settled.running am present
  | some worker =>
      by_cases member : worker ∈ (inputs phase rank).team
      · obtain ⟨am', present', idle⟩ := settled.idle worker member
        obtain rfl := Option.some.inj (present.symm.trans present')
        exact idle
      · exact standing.spare am present worker member

omit [Fintype Worker] [DecidableEq Worker] in
theorem no_receive_of_idle {phase : PhaseState commSize Worker Nat Memory} (idle : phase.Idle) :
    phase.NoReceive := by
  intro thread frame member
  rw [idle thread] at member
  cases member

/-- A settled rank that misses keys has a message on its way to it. -/
theorem message_of_missing (coherent : Coherent sound state)
    (standing : Standing (inputs phase rank) (state.ranks rank))
    (later : ∀ source, phase ≤ (state.ranks source).phase)
    (settled : ∀ source, (state.ranks source).phase = phase → Settled inputs state phase source)
    (current : (state.ranks rank).phase = phase) {am : PhaseState commSize Worker Nat Memory}
    (present : (state.ranks rank).amState = some am)
    (missing : am.recvCount < (inputs phase rank).expectedRecvCount) :
    ∃ message ∈ state.network phase, message.dest = rank := by
  have ledger := (coherent.ranks rank).present am present
  rw [current] at ledger
  have rests : ((state.ranks rank).ledger phase).NoReceive := by
    rw [ledger]
    exact no_receive_of_idle (settled_idle standing (settled rank current) present)
  have reached := coherent.exchange phase
  have counted : ((state.ranks rank).ledger phase).recvCount =
      (state.project phase).completedCalls rank := (recv_count_completed reached rank).2 rests
  have completed : (state.project phase).completedCalls rank =
      ∑ source, Multiset.card ((state.project phase).handled source rank) := by
    rw [← Multiset.card_sum, handled_total, Multiset.card_sum]
    apply Finset.sum_congr rfl
    intro thread _
    have received := reachable_received (exchange_thread_reachable reached rank thread)
    have running : runningOf (((state.project phase).phases rank).threads thread).stack = [] :=
      (resting_of_no_receive (rests thread)).2.1
    rw [Multiset.coe_card, List.length_map, received.invoked, running, List.append_nil]
  by_contra none
  have arrived : ∀ source, (state.project phase).handled source rank =
      keysBetween inputs phase source rank := by
    intro source
    have nothing : (state.project phase).inFlight source rank = 0 := by
      apply List.sum_eq_zero
      intro values member
      obtain ⟨message, flying, rfl⟩ := List.mem_map.mp member
      unfold Message.values
      rw [if_neg]
      rintro ⟨-, here⟩
      exact none ⟨message, flying, here⟩
    rw [all_on_its_way coherent later settled source rank rests, nothing, zero_add]
  have expected := sound.expected phase rank
  simp only [arrived] at completed
  rw [ledger] at counted
  have same : am.recvCount = (inputs phase rank).expectedRecvCount :=
    counted.trans (completed.trans expected.symm)
  omega

end Messages

section Work

/-- The stages that a worker has before it. -/
def WorkerStage.work : WorkerStage → Nat
  | .posting keys => keys.length + 2
  | .waiting | .progressing => 1
  | .done => 0

/-- The records that the rank has taken in. -/
def RankState.takenIn (rankState : RankState commSize Worker Memory) : Nat :=
  match rankState.amState with
  | some am => am.takenIn
  | none => 0

/-- What a rank has before it in the phase it is in: keys to take in and stages of its
workers. -/
def RankState.work (input : RankInput commSize Worker Memory)
    (rankState : RankState commSize Worker Memory) : Nat :=
  match rankState.stage with
  | .outside => 0
  | .inBarrier =>
      input.expectedRecvCount + ∑ worker ∈ input.team,
        (WorkerStage.posting (input.share worker)).work + 1
  | .running =>
      (input.expectedRecvCount - rankState.takenIn) + ∑ worker ∈ input.team,
        (rankState.workers worker).work

def totalWork (inputs : Redistribution.Inputs commSize Worker Memory)
    (state : Redistribution commSize Worker Memory) : Nat :=
  ∑ rank, (state.ranks rank).work (inputs (state.ranks rank).phase rank)

omit [DecidableEq Worker] in
theorem work_running {input : RankInput commSize Worker Memory}
    {rankState : RankState commSize Worker Memory} (running : rankState.stage = .running) :
    rankState.work input = (input.expectedRecvCount - rankState.takenIn) +
      ∑ worker ∈ input.team, (rankState.workers worker).work := by
  unfold RankState.work
  rw [running]

omit [DecidableEq Worker] in
/-- What one rank gets done, is done. -/
theorem total_work_lt (others : ∀ other, other ≠ rank → after.ranks other = state.ranks other)
    (lower : (after.ranks rank).work (inputs (after.ranks rank).phase rank) <
      (state.ranks rank).work (inputs (state.ranks rank).phase rank)) :
    totalWork inputs after < totalWork inputs state := by
  apply Finset.sum_lt_sum
  · intro other _
    by_cases same : other = rank
    · subst same
      exact lower.le
    · rw [others other same]
  · exact ⟨rank, Finset.mem_univ rank, lower⟩

omit [DecidableEq Worker] in
theorem total_work_le (others : ∀ other, other ≠ rank → after.ranks other = state.ranks other)
    (lower : (after.ranks rank).work (inputs (after.ranks rank).phase rank) ≤
      (state.ranks rank).work (inputs (state.ranks rank).phase rank)) :
    totalWork inputs after ≤ totalWork inputs state := by
  apply Finset.sum_le_sum
  intro other _
  by_cases same : other = rank
  · subst same
    exact lower
  · rw [others other same]

omit [Fintype Worker] [DecidableEq Worker] in
theorem taken_in_of_present [Fintype Worker] {rankState : RankState commSize Worker Memory}
    {am : PhaseState commSize Worker Nat Memory} (present : rankState.amState = some am) :
    rankState.takenIn = am.takenIn := by
  unfold RankState.takenIn
  rw [present]

variable {worker : Worker}

theorem ThreadRun.taken_in {thread : Option Worker} (run : ThreadRun inputs rank thread state after)
    {am : PhaseState commSize Worker Nat Memory} (present : (state.ranks rank).amState = some am) :
    (state.ranks rank).takenIn ≤ (after.ranks rank).takenIn := by
  obtain ⟨next, present', grown, -⟩ := run.beside.ams am present
  rw [taken_in_of_present present, taken_in_of_present present']
  exact grown

/-- The stages of the team after a run of one worker. -/
theorem ThreadRun.stages (run : ThreadRun inputs rank (some worker) state after)
    (stage : ((after.ranks rank).workers worker).work ≤
      ((state.ranks rank).workers worker).work) (other : Worker) :
    ((after.ranks rank).workers other).work ≤ ((state.ranks rank).workers other).work := by
  by_cases same : other = worker
  · subst same
    exact stage
  · have different : some worker ≠ some other := by
      intro equal
      exact same (Option.some.inj equal).symm
    rw [run.beside.workers other different]

theorem run_work_le (run : ThreadRun inputs rank (some worker) state after)
    (running : (state.ranks rank).stage = .running)
    {am : PhaseState commSize Worker Nat Memory} (present : (state.ranks rank).amState = some am)
    (stage : ((after.ranks rank).workers worker).work ≤
      ((state.ranks rank).workers worker).work) :
    (after.ranks rank).work (inputs (after.ranks rank).phase rank) ≤
      (state.ranks rank).work (inputs (state.ranks rank).phase rank) := by
  have taken := run.taken_in present
  rw [work_running running, work_running (run.beside.stage.trans running), run.beside.phase]
  have stages := Finset.sum_le_sum fun other
    (_ : other ∈ (inputs (state.ranks rank).phase rank).team) => run.stages stage other
  omega

/-- A worker of the team has a stage less before it. -/
theorem run_work_lt (run : ThreadRun inputs rank (some worker) state after)
    (working : state.Working (inputs (state.ranks rank).phase rank) rank worker)
    {am : PhaseState commSize Worker Nat Memory} (present : (state.ranks rank).amState = some am)
    (stage : ((after.ranks rank).workers worker).work <
      ((state.ranks rank).workers worker).work) :
    (after.ranks rank).work (inputs (after.ranks rank).phase rank) <
      (state.ranks rank).work (inputs (state.ranks rank).phase rank) := by
  have taken := run.taken_in present
  rw [work_running working.1, work_running (run.beside.stage.trans working.1), run.beside.phase]
  have stages := Finset.sum_lt_sum
    (fun other (_ : other ∈ (inputs (state.ranks rank).phase rank).team) =>
      run.stages stage.le other) ⟨worker, working.2, stage⟩
  omega

/-- The rank has taken in a record that it missed. -/
theorem run_work_lt_of_taken (run : ThreadRun inputs rank (some worker) state after)
    (running : (state.ranks rank).stage = .running)
    (stage : ((after.ranks rank).workers worker).work ≤
      ((state.ranks rank).workers worker).work)
    (taken : (state.ranks rank).takenIn < (after.ranks rank).takenIn)
    (missing : (state.ranks rank).takenIn <
      (inputs (state.ranks rank).phase rank).expectedRecvCount) :
    (after.ranks rank).work (inputs (after.ranks rank).phase rank) <
      (state.ranks rank).work (inputs (state.ranks rank).phase rank) := by
  rw [work_running running, work_running (run.beside.stage.trans running), run.beside.phase]
  have stages := Finset.sum_le_sum fun other
    (_ : other ∈ (inputs (state.ranks rank).phase rank).team) => run.stages stage other
  omega

end Work

section Progress

theorem ThreadRun.entered {thread : Option Worker} (run : ThreadRun inputs rank thread state after)
    {other : Fin commSize} {phase : Nat} (entered : (state.ranks other).Entered phase) :
    (after.ranks other).Entered phase := by
  by_cases same : other = rank
  · subst same
    unfold RankState.Entered
    rw [run.beside.phase, run.beside.stage]
    exact entered
  · rw [run.others other same]
    exact entered

/-- A rank leaves the barrier when all have entered it. -/
theorem barrier_left (coherent : Coherent sound state)
    (waiting : (state.ranks rank).stage = .inBarrier)
    (entered : ∀ other, (state.ranks other).Entered (state.ranks rank).phase) :
    ∃ after, (redistributionSystem inputs).Reachable (fun _ action => action.isInside = true)
      state after ∧ totalWork inputs after < totalWork inputs state := by
  obtain ⟨middle, settles, -, am, present, idle⟩ := control_settles coherent waiting
  have live := settles.live.trans coherent.live
  have waiting' := settles.beside.stage.trans waiting
  have stepped : (redistributionSystem inputs).step middle (.leaveBarrier rank) =
      some (middle.leaveBarrier (inputs (middle.ranks rank).phase rank) rank) := by
    have mover : (RedistributionAction.leaveBarrier rank :
      RedistributionAction commSize Worker Memory).rank = rank := rfl
    apply step_of_step_with mover
    simp only [Redistribution.stepWith, present]
    apply if_pos
    refine ⟨live, waiting', List.isEmpty_iff.mpr idle, ?_⟩
    intro other
    rw [settles.beside.phase]
    exact settles.entered (entered other)
  have others : ∀ other, other ≠ rank →
      (middle.leaveBarrier (inputs (middle.ranks rank).phase rank) rank).ranks other =
        state.ranks other := by
    intro other different
    exact (Function.update_of_ne different _ _).trans (settles.others other different)
  refine ⟨_, settles.reached.next ?_ stepped, total_work_lt others ?_⟩
  · rfl
  · simp only [Redistribution.leaveBarrier, Function.update_self]
    unfold RankState.work
    rw [waiting, settles.beside.phase]
    dsimp only
    omega

/-- The worker is at the loop test or has left the loop. -/
structure AtTest (state : Redistribution commSize Worker Memory) (rank : Fin commSize)
    (worker : Worker) : Prop where
  idle : InCalls state rank (some worker) []
  stage : (state.ranks rank).workers worker = .waiting ∨
    (state.ranks rank).workers worker = .done

/-- What stays while workers return to the loop test. -/
structure TestRun (inputs : Redistribution.Inputs commSize Worker Memory)
    (state after : Redistribution commSize Worker Memory) : Prop where
  reached : (redistributionSystem inputs).Reachable (fun _ action => action.isInside = true)
    state after
  position : ∀ rank, (after.ranks rank).phase = (state.ranks rank).phase ∧
    (after.ranks rank).stage = (state.ranks rank).stage
  flushed : ∀ rank worker, ((state.ranks rank).workers worker).hasFlushed = true →
    ((after.ranks rank).workers worker).hasFlushed = true
  done : ∀ rank worker, (after.ranks rank).workers worker = .done →
    (state.ranks rank).workers worker = .done
  work : totalWork inputs after ≤ totalWork inputs state

omit [DecidableEq Worker] in
theorem TestRun.refl [DecidableEq Worker] : TestRun inputs state state where
  reached := .start
  position _ := ⟨rfl, rfl⟩
  flushed _ _ := id
  done _ _ := id
  work := Nat.le_refl _

theorem TestRun.trans {middle : Redistribution commSize Worker Memory}
    (first : TestRun inputs state middle) (second : TestRun inputs middle after) :
    TestRun inputs state after where
  reached := first.reached.trans second.reached
  position rank := ⟨(second.position rank).1.trans (first.position rank).1,
    (second.position rank).2.trans (first.position rank).2⟩
  flushed rank worker flushed := second.flushed rank worker (first.flushed rank worker flushed)
  done rank worker done := first.done rank worker (second.done rank worker done)
  work := second.work.trans first.work

theorem TestRun.working {worker : Worker} (run : TestRun inputs state after)
    (working : state.Working (inputs (state.ranks rank).phase rank) rank worker) :
    after.Working (inputs (after.ranks rank).phase rank) rank worker := by
  unfold Redistribution.Working
  rw [(run.position rank).1, (run.position rank).2]
  exact working

omit [Fintype Worker] [DecidableEq Worker] in
theorem work_of_flushed {stage : WorkerStage} (flushed : stage.hasFlushed = true) :
    stage.work = if stage = .done then 0 else 1 := by
  cases stage with
  | posting keys => cases flushed
  | waiting | progressing | done => rfl

/-- A worker that has flushed returns to the loop test. -/
theorem worker_tests (coherent : Coherent sound state) {worker : Worker}
    (working : state.Working (inputs (state.ranks rank).phase rank) rank worker)
    (flushed : ((state.ranks rank).workers worker).hasFlushed = true) :
    ∃ after, ThreadRun inputs rank (some worker) state after ∧ TestRun inputs state after ∧
      AtTest after rank worker := by
  obtain ⟨am, present⟩ := coherent.am_present (inside_of_running working.1)
  obtain ⟨after, run, idle, stage⟩ := worker_waits coherent working flushed
  have own : ((after.ranks rank).workers worker).hasFlushed = true ∧
      ((after.ranks rank).workers worker = .done → (state.ranks rank).workers worker = .done) ∧
      ((after.ranks rank).workers worker).work ≤ ((state.ranks rank).workers worker).work ∧
      ((after.ranks rank).workers worker = .waiting ∨
        (after.ranks rank).workers worker = .done) := by
    rw [stage, work_of_flushed flushed]
    split
    case isTrue left => exact ⟨rfl, fun _ => left, Nat.le_refl _, .inr rfl⟩
    case isFalse inLoop => exact ⟨rfl, nofun, Nat.le_refl _, .inl rfl⟩
  have others : ∀ (good : WorkerStage → WorkerStage → Prop), (∀ stage, good stage stage) →
      good ((state.ranks rank).workers worker) ((after.ranks rank).workers worker) →
        ∀ other colleague, good ((state.ranks other).workers colleague)
          ((after.ranks other).workers colleague) := by
    intro good same moved other colleague
    by_cases here : other = rank
    · subst here
      by_cases self : colleague = worker
      · subst self
        exact moved
      · rw [run.beside.workers colleague fun equal => self (Option.some.inj equal).symm]
        exact same _
    · rw [run.others other here]
      exact same _
  refine ⟨after, run, ?_, idle, own.2.2.2⟩
  constructor
  · exact run.reached
  · intro other
    by_cases here : other = rank
    · subst here
      exact ⟨run.beside.phase, run.beside.stage⟩
    · rw [run.others other here]
      exact ⟨rfl, rfl⟩
  · exact others (fun before after => before.hasFlushed = true → after.hasFlushed = true)
      (fun _ => id) fun _ => own.1
  · exact others (fun before after => after = .done → before = .done) (fun _ => id) own.2.1
  · exact total_work_le run.others (run_work_le run working.1 present own.2.2.1)

/-- A worker that is at the loop test stays there while another thread moves. -/
theorem ThreadRun.at_test {worker : Worker} {other : Fin commSize} {colleague : Worker}
    (run : ThreadRun inputs rank (some worker) state after)
    (different : ¬ (other = rank ∧ colleague = worker)) (tests : AtTest state other colleague) :
    AtTest after other colleague := by
  by_cases same : other = rank
  · subst same
    have apart : colleague ≠ worker := fun equal => different ⟨rfl, equal⟩
    obtain ⟨am, present, idle⟩ := tests.idle
    obtain ⟨next, present', -, kept⟩ := run.beside.ams am present
    constructor
    · refine ⟨next, present', ?_⟩
      rw [kept _ fun equal => apart (Option.some.inj equal)]
      exact idle
    · rw [run.beside.workers colleague fun equal => apart (Option.some.inj equal).symm]
      exact tests.stage
  · have kept := run.others other same
    obtain ⟨am, present, idle⟩ := tests.idle
    constructor
    · exact ⟨am, by rw [kept]; exact present, idle⟩
    · rw [kept]
      exact tests.stage

/-- One worker after another returns to the loop test. -/
theorem workers_test (coherent : Coherent sound state) (pairs : List (Fin commSize × Worker))
    (eligible : ∀ pair ∈ pairs,
      state.Working (inputs (state.ranks pair.1).phase pair.1) pair.1 pair.2 ∧
        ((state.ranks pair.1).workers pair.2).hasFlushed = true) :
    ∃ after, TestRun inputs state after ∧ ∀ pair ∈ pairs, AtTest after pair.1 pair.2 := by
  induction pairs with
  | nil =>
      refine ⟨state, ⟨.start, fun _ => ⟨rfl, rfl⟩, fun _ _ => id, fun _ _ => id, Nat.le_refl _⟩, ?_⟩
      intro pair member
      cases member
  | cons pair rest ih =>
      obtain ⟨middle, first, tests⟩ :=
        ih fun other member => eligible other (List.mem_cons_of_mem _ member)
      obtain ⟨working, flushed⟩ := eligible pair List.mem_cons_self
      have coherent' := coherent.kept first.reached
      obtain ⟨after, run, second, own⟩ := worker_tests coherent' (first.working working)
        (first.flushed pair.1 pair.2 flushed)
      refine ⟨after, first.trans second, ?_⟩
      intro other member
      by_cases here : other.1 = pair.1 ∧ other.2 = pair.2
      · rw [here.1, here.2]
        exact own
      · rcases List.mem_cons.mp member with rfl | inside
        · exact absurd ⟨rfl, rfl⟩ here
        · exact run.at_test here (tests other inside)

omit [DecidableEq Worker] in
theorem work_of_posting {stage : WorkerStage} (unflushed : stage.hasFlushed ≠ true) :
    ∃ keys, stage = .posting keys := by
  cases stage with
  | posting keys => exact ⟨keys, rfl⟩
  | waiting | progressing | done => exact absurd rfl unflushed

/-- A worker with keys to post posts one or flushes. -/
theorem posting_progress (coherent : Coherent sound state) {worker : Worker}
    (working : state.Working (inputs (state.ranks rank).phase rank) rank worker)
    (unflushed : ((state.ranks rank).workers worker).hasFlushed ≠ true) :
    ∃ after, (redistributionSystem inputs).Reachable (fun _ action => action.isInside = true)
      state after ∧ totalWork inputs after < totalWork inputs state := by
  obtain ⟨am, present⟩ := coherent.am_present (inside_of_running working.1)
  obtain ⟨keys, posting⟩ := work_of_posting unflushed
  cases keys with
  | nil =>
      obtain ⟨after, run, stage⟩ := worker_flushes coherent working posting
      refine ⟨after, run.reached, total_work_lt run.others (run_work_lt run working present ?_)⟩
      rw [stage, posting]
      decide
  | cons key remaining =>
      obtain ⟨after, run, stage⟩ := worker_posts coherent working posting
      refine ⟨after, run.reached, total_work_lt run.others (run_work_lt run working present ?_)⟩
      rw [stage, posting]
      exact Nat.lt_succ_self _

/-- When all workers of a phase are at the loop test, one that is in the loop takes in a
message or leaves. -/
theorem test_progress (orderly : Orderly sound state) {worker : Worker}
    (later : ∀ other, (state.ranks rank).phase ≤ (state.ranks other).phase)
    (settled : ∀ other, (state.ranks other).phase = (state.ranks rank).phase →
      Settled inputs state (state.ranks rank).phase other)
    (member : worker ∈ (inputs (state.ranks rank).phase rank).team)
    (waiting : (state.ranks rank).workers worker = .waiting) :
    ∃ after, (redistributionSystem inputs).Reachable (fun _ action => action.isInside = true)
      state after ∧ totalWork inputs after < totalWork inputs state := by
  have coherent := orderly.coherent
  obtain ⟨running, -, idle⟩ := settled rank rfl
  obtain ⟨am, present, empty⟩ := idle worker member
  by_cases enough : (inputs (state.ranks rank).phase rank).expectedRecvCount ≤ am.recvCount
  · obtain ⟨after, run, done⟩ :=
      worker_finishes coherent.live ⟨running, member⟩ waiting present empty enough
    refine ⟨after, run.reached, total_work_lt run.others
      (run_work_lt run ⟨running, member⟩ present ?_)⟩
    rw [done, waiting]
    decide
  · have missing := Nat.lt_of_not_le enough
    obtain ⟨message, flying, arrives⟩ := message_of_missing coherent (orderly.standing rank) later
      settled rfl present missing
    obtain ⟨after, next, run, stage, present', taken⟩ := worker_receives coherent
      ⟨running, member⟩ waiting present empty missing flying arrives
    have ledger := (coherent.ranks rank).present am present
    have reached := exchange_phase_reachable (coherent.exchange (state.ranks rank).phase) rank
    have counted : am.forget.recvCount = am.forget.takenIn := by
      rw [← ledger]
      apply recv_count_taken_in reached
      have rests : am.forget.NoReceive :=
        no_receive_of_idle (settled_idle (orderly.standing rank) (settled rank rfl) present)
      rw [← ledger] at rests
      exact rests
    refine ⟨after, run.reached, total_work_lt run.others
      (run_work_lt_of_taken run running ?_ ?_ ?_)⟩
    · rw [stage, waiting]
    · rw [taken_in_of_present present, taken_in_of_present present']
      exact taken
    · rw [taken_in_of_present present]
      exact counted.symm.trans_lt missing

/-- As long as a team of the phase that is furthest behind has not finished, something can
be done about it. -/
theorem phase_progress (orderly : Orderly sound state)
    (later : ∀ other, (state.ranks rank).phase ≤ (state.ranks other).phase)
    (entered : ∀ other, (state.ranks other).Entered (state.ranks rank).phase)
    (unfinished : ¬ state.TeamDone (inputs (state.ranks rank).phase rank) rank) :
    ∃ after, (redistributionSystem inputs).Reachable (fun _ action => action.isInside = true)
      state after ∧ totalWork inputs after < totalWork inputs state := by
  have coherent := orderly.coherent
  by_cases held : ∃ other, (state.ranks other).phase = (state.ranks rank).phase ∧
      (state.ranks other).stage = .inBarrier
  · obtain ⟨other, same, waiting⟩ := held
    exact barrier_left coherent waiting (by rw [same]; exact entered)
  have running : ∀ other, (state.ranks other).phase = (state.ranks rank).phase →
      (state.ranks other).stage = .running := by
    intro other same
    cases stage : (state.ranks other).stage with
    | outside =>
        rcases entered other with past | ⟨-, inside⟩
        · omega
        · exact absurd stage inside
    | inBarrier => exact absurd ⟨other, same, stage⟩ held
    | running => rfl
  by_cases posting : ∃ other worker, (state.ranks other).phase = (state.ranks rank).phase ∧
      worker ∈ (inputs (state.ranks other).phase other).team ∧
        ((state.ranks other).workers worker).hasFlushed ≠ true
  · obtain ⟨other, worker, same, member, unflushed⟩ := posting
    exact posting_progress coherent ⟨running other same, member⟩ unflushed
  have flushed : ∀ other worker, (state.ranks other).phase = (state.ranks rank).phase →
      worker ∈ (inputs (state.ranks other).phase other).team →
        ((state.ranks other).workers worker).hasFlushed = true := by
    intro other worker same member
    by_contra unflushed
    exact posting ⟨other, worker, same, member, unflushed⟩
  -- whoever still waits for keys is now brought to the loop test
  obtain ⟨middle, brought, tests⟩ := workers_test coherent
    (Finset.univ.filter fun pair : Fin commSize × Worker =>
      (state.ranks pair.1).phase = (state.ranks rank).phase ∧
        pair.2 ∈ (inputs (state.ranks pair.1).phase pair.1).team).toList (by
    intro pair member
    obtain ⟨-, same, inTeam⟩ := Finset.mem_filter.mp (Finset.mem_toList.mp member)
    exact ⟨⟨running pair.1 same, inTeam⟩, flushed pair.1 pair.2 same inTeam⟩)
  obtain ⟨worker, member, inLoop⟩ : ∃ worker ∈ (inputs (state.ranks rank).phase rank).team,
      (state.ranks rank).workers worker ≠ .done := by
    by_contra all
    push Not at all
    exact unfinished ⟨running rank rfl, all⟩
  have atTest : ∀ other worker, (state.ranks other).phase = (state.ranks rank).phase →
      worker ∈ (inputs (state.ranks other).phase other).team → AtTest middle other worker := by
    intro other worker same inTeam
    apply tests (other, worker)
    exact Finset.mem_toList.mpr (Finset.mem_filter.mpr ⟨Finset.mem_univ _, same, inTeam⟩)
  have phases := fun other => (brought.position other).1
  have later' : ∀ other, (middle.ranks rank).phase ≤ (middle.ranks other).phase := by
    intro other
    rw [phases, phases]
    exact later other
  have settled : ∀ other, (middle.ranks other).phase = (middle.ranks rank).phase →
      Settled inputs middle (middle.ranks rank).phase other := by
    intro other same
    rw [phases, phases] at same
    rw [phases, ← same]
    constructor
    · exact (brought.position other).2.trans (running other same)
    · intro colleague inTeam
      rcases (atTest other colleague same inTeam).stage with waits | done
      · rw [waits]
        rfl
      · rw [done]
        rfl
    · exact fun colleague inTeam => (atTest other colleague same inTeam).idle
  have waiting : (middle.ranks rank).workers worker = .waiting := by
    rcases (atTest rank worker rfl member).stage with waits | done
    · exact waits
    · exact absurd (brought.done rank worker done) inLoop
  rw [← phases] at member
  obtain ⟨after, run, lower⟩ :=
    test_progress (orderly.kept brought.reached) later' settled member waiting
  exact ⟨after, brought.reached.trans run, lower.trans_le brought.work⟩

end Progress

section Phases

/-- Inside a phase no rank enters or leaves it. -/
theorem inside_kept (reached : (redistributionSystem inputs).Reachable
      (fun _ action => action.isInside = true) state after) (rank : Fin commSize) :
    (after.ranks rank).phase = (state.ranks rank).phase ∧
      ((after.ranks rank).stage = .outside ↔ (state.ranks rank).stage = .outside) := by
  induction reached with
  | start => exact ⟨rfl, Iff.rfl⟩
  | @next before after action prior inside stepped ih =>
      have step : RedistributionStep (inputs (before.ranks action.rank).phase action.rank) before
          action.rank action after := redistribution_step_cases stepped
      by_cases own : rank = action.rank
      · subst own
        have within := redistribution_step_within step inside
        exact ⟨within.phase.trans ih.1, within.stage.trans ih.2⟩
      · rw [redistribution_step_frame step own]
        exact ih

theorem inside_entered (reached : (redistributionSystem inputs).Reachable
      (fun _ action => action.isInside = true) state after) {phase : Nat}
    (entered : (state.ranks rank).Entered phase) : (after.ranks rank).Entered phase := by
  obtain ⟨same, outside⟩ := inside_kept reached rank
  rcases entered with past | ⟨current, inside⟩
  · exact .inl (by rw [same]; exact past)
  · exact .inr ⟨by rw [same]; exact current, fun left => inside (outside.mp left)⟩

/-- When all ranks have entered the phase of the one that is furthest behind, its team can
finish. -/
theorem team_completes (orderly : Orderly sound state)
    (later : ∀ other, (state.ranks rank).phase ≤ (state.ranks other).phase)
    (entered : ∀ other, (state.ranks other).Entered (state.ranks rank).phase) :
    ∃ after, (redistributionSystem inputs).Reachable (fun _ action => action.isInside = true)
      state after ∧ after.TeamDone (inputs (after.ranks rank).phase rank) rank := by
  apply TransitionSystem.goal_reachable (totalWork inputs)
  intro before reached unfinished
  have phases := fun other => (inside_kept reached other).1
  apply phase_progress (orderly.kept reached) _ _ unfinished
  · intro other
    rw [phases, phases]
    exact later other
  · intro other
    rw [phases]
    exact inside_entered reached (entered other)

/-- A rank registers its handler, on `memory`, for the phases in front of `target` only. -/
def RegistersBefore (target : Nat) (memory : Memory)
    (state : Redistribution commSize Worker Memory) :
    RedistributionAction commSize Worker Memory → Prop
  | .setAmHandler rank given => given = memory ∧ (state.ranks rank).phase < target
  | _ => True

omit [Fintype Worker] [DecidableEq Worker] in
theorem registers_before_of_inside {target : Nat} {memory : Memory}
    {action : RedistributionAction commSize Worker Memory} (inside : action.isInside = true) :
    RegistersBefore target memory state action := by
  cases action with
  | setAmHandler => cases inside
  | _ => trivial

/-- Whoever is still outside can enter the phase of the rank that is furthest behind. -/
theorem all_enter (orderly : Orderly sound state) (memory : Memory) {phase target : Nat}
    (ahead : phase < target) (later : ∀ other, phase ≤ (state.ranks other).phase) :
    ∃ after, (redistributionSystem inputs).Reachable (RegistersBefore target memory) state after ∧
      (∀ other, (after.ranks other).phase = (state.ranks other).phase) ∧
      ∀ other, (after.ranks other).Entered phase := by
  have some : ∀ ranks : Finset (Fin commSize), ∃ after,
      (redistributionSystem inputs).Reachable (RegistersBefore target memory) state after ∧
        (∀ other, (after.ranks other).phase = (state.ranks other).phase) ∧
        ∀ other ∈ ranks, (after.ranks other).Entered phase := by
    intro ranks
    induction ranks using Finset.induction_on with
    | empty => exact ⟨state, .start, fun _ => rfl, nofun⟩
    | insert rank rest outside ih =>
        obtain ⟨middle, reached, phases, entered⟩ := ih
        by_cases already : (middle.ranks rank).Entered phase
        · refine ⟨middle, reached, phases, ?_⟩
          intro other member
          rcases Finset.mem_insert.mp member with rfl | inside
          · exact already
          · exact entered other inside
        · have behind := later rank
          rw [← phases] at behind
          have current : (middle.ranks rank).phase = phase := by
            by_contra different
            exact already (.inl (by omega))
          have left : (middle.ranks rank).stage = .outside := by
            by_contra inside
            exact already (.inr ⟨current.symm, inside⟩)
          have stepped : (redistributionSystem inputs).step middle (.setAmHandler rank memory) =
              Option.some
                (middle.setAmHandler (inputs (middle.ranks rank).phase rank) rank memory) :=
            if_pos ⟨(orderly.kept reached).coherent.live, left⟩
          have others : ∀ other, other ≠ rank → (middle.setAmHandler
              (inputs (middle.ranks rank).phase rank) rank memory).ranks other =
                middle.ranks other :=
            fun other different => Function.update_of_ne different _ _
          have own : ((middle.setAmHandler (inputs (middle.ranks rank).phase rank) rank
              memory).ranks rank).phase = phase ∧ ((middle.setAmHandler
              (inputs (middle.ranks rank).phase rank) rank memory).ranks rank).stage =
                .inBarrier := by
            unfold Redistribution.setAmHandler
            dsimp only
            rw [Function.update_self]
            exact ⟨current, rfl⟩
          have allowed : RegistersBefore target memory middle (.setAmHandler rank memory) :=
            ⟨rfl, by rw [current]; exact ahead⟩
          refine ⟨_, reached.next allowed stepped, ?_, ?_⟩
          · intro other
            by_cases same : other = rank
            · subst same
              rw [own.1, ← phases, current]
            · rw [others other same]
              exact phases other
          · intro other member
            by_cases same : other = rank
            · subst same
              exact .inr ⟨own.1.symm, by rw [own.2]; nofun⟩
            · rw [others other same]
              exact entered other ((Finset.mem_insert.mp member).resolve_left same)
  obtain ⟨after, reached, phases, entered⟩ := some Finset.univ
  exact ⟨after, reached, phases, fun other => entered other (Finset.mem_univ other)⟩

/-- A rank whose team has finished clears its handler and is in the next phase. -/
theorem phase_left (orderly : Orderly sound state)
    (finished : state.TeamDone (inputs (state.ranks rank).phase rank) rank) :
    (redistributionSystem inputs).step state (.clearAmHandler rank) =
      some (state.leavePhase rank) := by
  obtain ⟨am, present⟩ := orderly.coherent.am_present (inside_of_running finished.1)
  have unbuffered := team_done_unbuffered orderly.coherent finished present
  have mover : (RedistributionAction.clearAmHandler rank :
    RedistributionAction commSize Worker Memory).rank = rank := rfl
  apply step_of_step_with mover
  simp only [Redistribution.stepWith, present, unbuffered,
    if_pos (And.intro orderly.coherent.live finished)]
  rfl

/-- All ranks can go on to any phase. -/
theorem phases_complete (orderly : Orderly sound state) (memory : Memory) (target : Nat) :
    ∃ final, (redistributionSystem inputs).Reachable (RegistersBefore target memory) state final ∧
      ∀ rank, target ≤ (final.ranks rank).phase := by
  apply TransitionSystem.goal_reachable fun state : Redistribution commSize Worker Memory =>
    ∑ rank, (target - (state.ranks rank).phase)
  intro before reached unfinished
  push Not at unfinished
  obtain ⟨slow, short⟩ := unfinished
  obtain ⟨rank, -, least⟩ := Finset.exists_min_image Finset.univ
    (fun rank => (before.ranks rank).phase) ⟨slow, Finset.mem_univ slow⟩
  have later : ∀ other, (before.ranks rank).phase ≤ (before.ranks other).phase :=
    fun other => least other (Finset.mem_univ other)
  have short' := (later slow).trans_lt short
  obtain ⟨middle, enters, phases, entered⟩ := all_enter (orderly.kept reached) memory
    (Nat.lt_of_le_of_lt (later slow) short) later
  rw [← phases] at entered
  have later' : ∀ other, (middle.ranks rank).phase ≤ (middle.ranks other).phase := by
    intro other
    rw [phases, phases]
    exact later other
  have orderly' := orderly.kept (reached.trans enters)
  obtain ⟨ended, works, finished⟩ := team_completes orderly' later' entered
  have left := phase_left (orderly'.kept works) finished
  have within : (redistributionSystem inputs).Reachable (RegistersBefore target memory)
      middle ended := works.mono fun _ _ inside => registers_before_of_inside inside
  have cleared : RegistersBefore target memory ended (.clearAmHandler rank) := trivial
  refine ⟨_, (enters.trans within).next cleared left, ?_⟩
  have phases' : ∀ other, (ended.ranks other).phase = (before.ranks other).phase :=
    fun other => (inside_kept works other).1.trans (phases other)
  have now : ((ended.leavePhase rank).ranks rank).phase = (before.ranks rank).phase + 1 := by
    unfold Redistribution.leavePhase
    dsimp only
    rw [Function.update_self, ← phases' rank]
  have others : ∀ other, other ≠ rank →
      ((ended.leavePhase rank).ranks other).phase = (before.ranks other).phase := by
    intro other different
    have same : (ended.leavePhase rank).ranks other = ended.ranks other :=
      Function.update_of_ne different _ _
    rw [same]
    exact phases' other
  apply Finset.sum_lt_sum
  · intro other _
    by_cases same : other = rank
    · subst same
      rw [now]
      omega
    · rw [others other same]
  · refine ⟨rank, Finset.mem_univ rank, ?_⟩
    rw [now]
    omega

/-- A rank that registers in front of `target` only gets no further than `target`. -/
theorem phases_bounded {target : Nat} {memory : Memory}
    (reached : (redistributionSystem inputs).Reachable (RegistersBefore target memory)
      (.initial inputs) state) (rank : Fin commSize) :
    (state.ranks rank).phase ≤ target ∧
      ((state.ranks rank).stage ≠ .outside → (state.ranks rank).phase < target) := by
  have every : ∀ rank, (state.ranks rank).phase ≤ target ∧
      ((state.ranks rank).stage ≠ .outside → (state.ranks rank).phase < target) := by
    apply reached.invariant
    · exact fun _ => ⟨Nat.zero_le _, fun inside => absurd rfl inside⟩
    · intro before after action _ bounded permitted stepped rank
      have step : RedistributionStep (inputs (before.ranks action.rank).phase action.rank) before
          action.rank action after := redistribution_step_cases stepped
      by_cases own : rank = action.rank
      case neg =>
        rw [redistribution_step_frame step own]
        exact bounded rank
      subst own
      obtain ⟨least, below⟩ := bounded action.rank
      by_cases inside : action.isInside = true
      · have within := redistribution_step_within step inside
        rw [within.phase, ne_eq, within.stage]
        exact ⟨least, below⟩
      · generalize mover : action.rank = rank at step least below ⊢
        cases step with
        | setAmHandler given outside =>
            have early : (before.ranks rank).phase < target := permitted.2
            simp only [Redistribution.setAmHandler, Function.update_self]
            exact ⟨least, fun _ => early⟩
        | clear am present finished empty =>
            simp only [Redistribution.leavePhase, Function.update_self]
            refine ⟨below ?_, fun again => absurd rfl again⟩
            rw [finished.1]
            intro outside
            cases outside
        | unflushed am present finished left => exact ⟨least, below⟩
        | _ => exact absurd rfl inside
  exact every rank

variable {sets : Nat → KeySet commSize}

end Phases

section Example

/-- Two ranks that hold two keys each, all of them for rank 0. -/
private def lopsidedKeys : KeySet 2 where
  keys _ := [0, 0]
  localKeyCount := 2
  numBuckets := 2
  bucketShift := 0
  length_eq := by decide
  positive := Nat.two_pos
  in_range := by decide

private theorem two_own (rank : Fin 2) : (PhaseConfig.singleRecord rank).rank = rank := rfl

/-- Each of the two workers of a rank has one of its keys. -/
private def lopsidedRun (rank : Fin 2) : TeamRun lopsidedKeys rank Bool where
  config := .singleRecord rank
  team := {true, false}
  share _ := [0]
  own := two_own rank
  manned := ⟨true, Finset.mem_insert_self true {false}⟩
  spare worker outside := absurd (by cases worker <;> decide) outside
  split := by
    rw [Fintype.sum_bool]
    rfl

private def lopsidedInputs : Redistribution.Inputs 2 Bool Unit :=
  phaseInputs (fun (_ : Nat) rank => lopsidedRun rank) fun _ _ => noMemory 2 Nat

/-- A worker of rank 1 has posted its key for rank 0, which is still in the barrier. -/
private def lopsidedActions (first second : Fin 2) : List (RedistributionAction 2 Bool Unit) :=
  [.setAmHandler first (), .setAmHandler second (), .leaveBarrier second, .post second true,
    .inner second true (.postAmAnswer false)]

end Example

end IntegerSortLci.Benchmark
