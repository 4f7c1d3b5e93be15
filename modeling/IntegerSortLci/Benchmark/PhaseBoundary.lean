import IntegerSortLci.Benchmark.PhaseCoherence

/-!
# No message crosses a phase boundary

Every step of the redistribution keeps the phases in order. At the end of a phase
nothing of it is left for the rank, neither in its buffers nor in flight, so
`clear_am_handler` does not throw and no handler runs without an AM state.
-/

namespace IntegerSortLci.Benchmark

open IntegerSortLci.Runtime IntegerSortLci.Foundations
open scoped BigOperators

set_option autoImplicit false

variable {commSize : Nat} {Worker Memory : Type} [Fintype Worker] [DecidableEq Worker]
variable {inputs : Redistribution.Inputs commSize Worker Memory} {sound : SoundInputs inputs}
variable {state state' : Redistribution commSize Worker Memory} {rank : Fin commSize}

section Steps

omit [Fintype Worker] [DecidableEq Worker] in
theorem stage_in_running {rankState : RankState commSize Worker Memory}
    {input : RankInput commSize Worker Memory} {worker : Worker}
    (running : rankState.stage = .running) :
    rankState.stageIn input rankState.phase worker = rankState.workers worker := by
  unfold RankState.stageIn
  rw [if_neg (Nat.lt_irrefl _), if_pos ⟨rfl, running⟩]

/-- What is known of a worker while its team runs. -/
theorem worker_fits (coherent : Coherent sound state)
    (running : (state.ranks rank).stage = .running) (worker : Worker) :
    WorkerFits (inputs (state.ranks rank).phase rank)
      ((state.ranks rank).ledger (state.ranks rank).phase) worker
      ((state.ranks rank).workers worker) := by
  have fits := (coherent.ranks rank).fits (state.ranks rank).phase worker
  rw [stage_in_running running] at fits
  exact fits

/-- A call of a worker into the library. -/
theorem Coherent.worker_call (coherent : Coherent sound state) {worker : Worker}
    {action : Action commSize Nat} {stage : WorkerStage}
    (running : (state.ranks rank).stage = .running)
    (called : state.callAm (inputs (state.ranks rank).phase rank) rank (some worker) action
      (Function.update (state.ranks rank).workers worker stage) = some state')
    (quiet : QuietAction action) (call : action.isDelivery = false)
    (remains : ∀ key ∈ stage.remaining, key ∈ ((state.ranks rank).workers worker).remaining)
    (posts : ∀ dest, (inputs (state.ranks rank).phase rank).keysFor dest
        ((state.ranks rank).workers worker).remaining =
      action.posting dest ++
        (inputs (state.ranks rank).phase rank).keysFor dest stage.remaining)
    (flushes : stage.hasFlushed = true → action = .flush ∨
      ((state.ranks rank).workers worker).hasFlushed = true ∧ ∀ dest, action.posting dest = [])
    (finishes : stage = .done →
      (state.ranks rank).workers worker = .done ∧ ∀ dest, action.posting dest = []) :
    Coherent sound state' := by
  obtain ⟨am, next, present, moved, rfl⟩ := call_am_cases called
  have ledger := (coherent.ranks rank).present am present
  have stepped := forget_step moved
  rw [← ledger] at stepped
  apply coherent.with_am
  · apply (coherent.ranks rank).call present moved quiet nofun
    · intro other different
      exact Function.update_of_ne (fun same => different (congrArg some same.symm)) _ _
    · intro other same fits
      obtain rfl := Option.some.inj same
      rw [stage_in_running running] at fits
      unfold RankState.stageIn
      rw [if_neg (Nat.lt_irrefl _), if_pos ⟨rfl, running⟩]
      dsimp only
      rw [Function.update_self]
      exact fits.move stepped quiet remains posts flushes finishes
  · exact exchange_call coherent present moved quiet call

/-- A step of the worker's call in which the worker itself posts nothing. -/
theorem Coherent.silent_call (coherent : Coherent sound state) {worker : Worker}
    {action : Action commSize Nat} {stage : WorkerStage}
    (running : (state.ranks rank).stage = .running)
    (called : state.callAm (inputs (state.ranks rank).phase rank) rank (some worker) action
      (Function.update (state.ranks rank).workers worker stage) = some state')
    (quiet : QuietAction action) (call : action.isDelivery = false)
    (silent : ∀ dest, action.posting dest = [])
    (remains : stage.remaining = ((state.ranks rank).workers worker).remaining)
    (flushes : stage.hasFlushed = true → action = .flush ∨
      ((state.ranks rank).workers worker).hasFlushed = true)
    (finishes : stage = .done → (state.ranks rank).workers worker = .done) :
    Coherent sound state' := by
  apply coherent.worker_call running called quiet call
  · intro key member
    rwa [← remains]
  · intro dest
    rw [silent dest, remains]
    rfl
  · intro flushed
    exact (flushes flushed).imp_right fun before => ⟨before, silent⟩
  · intro done
    exact ⟨finishes done, silent⟩

omit [Fintype Worker] [DecidableEq Worker] in
theorem inner_action_silent {action : Action commSize Nat} (inner : isInnerAction action = true) :
    QuietAction action ∧ action.isDelivery = false ∧ ∀ dest, action.posting dest = [] := by
  cases action with
  | getUpacket | postAmAnswer | progressEnd | handlerReturn | resume =>
      exact ⟨trivial, rfl, fun _ => rfl⟩
  | _ => cases inner

theorem barrier_action_silent {action : Action commSize Nat}
    (allowed : isBarrierAction action = true) :
    QuietAction action ∧ action.isDelivery = false ∧ ∀ dest, action.posting dest = [] := by
  cases action with
  | collectiveProgress | progressEnd | handlerReturn | resume =>
      exact ⟨trivial, rfl, fun _ => rfl⟩
  | _ => cases allowed

/-- At the end of the parallel region the phase is over for every worker. -/
theorem team_done_fits (coherent : Coherent sound state)
    (finished : state.TeamDone (inputs (state.ranks rank).phase rank) rank)
    (worker : Worker) :
    WorkerFits (inputs (state.ranks rank).phase rank)
      ((state.ranks rank).ledger (state.ranks rank).phase) worker .done := by
  obtain ⟨running, done⟩ := finished
  by_cases member : worker ∈ (inputs (state.ranks rank).phase rank).team
  · have fits := worker_fits coherent running worker
    rw [done worker member] at fits
    exact fits
  · have fits := worker_fits coherent running worker
    have nothing := sound.spare (state.ranks rank).phase rank worker member
    obtain ⟨draining, flushed⟩ := fits.unposted nothing
    obtain ⟨colleague, inTeam⟩ := sound.manned (state.ranks rank).phase rank
    have other := worker_fits coherent running colleague
    rw [done colleague inTeam] at other
    constructor
    · intro key member
      cases member
    · intro dest
      have whole := fits.submitted dest
      have none : ((state.ranks rank).workers worker).remaining = [] := by
        apply List.eq_nil_iff_forall_not_mem.mpr
        intro key member
        have shared := fits.pending key member
        rw [nothing] at shared
        cases shared
      rw [none] at whole
      exact whole
    · exact fun _ => draining
    · exact fun _ => ⟨flushed, (other.finished rfl).2⟩

/-- Nothing is buffered at the end of the parallel region. -/
theorem team_done_unbuffered (coherent : Coherent sound state)
    (finished : state.TeamDone (inputs (state.ranks rank).phase rank) rank)
    {am : PhaseState commSize Worker Nat Memory}
    (present : (state.ranks rank).amState = some am) : am.hasBufferedRecords = false := by
  have ledger := (coherent.ranks rank).present am present
  apply decide_eq_false
  rintro ⟨worker, dest, nonempty⟩
  have reached := exchange_thread_reachable (coherent.exchange (state.ranks rank).phase) rank
    (some worker)
  have flushed := ((team_done_fits coherent finished worker).finished rfl).1
  have empty := (reachable_quiet reached).flushed flushed dest
  have same : ((state.project (state.ranks rank).phase).phases rank).threads (some worker) =
      am.threads (some worker) :=
    congrArg (fun phase => phase.threads (some worker)) ledger
  rw [same] at empty
  rw [(SendBuffer.empty_iff _).mpr empty] at nonempty
  cases nonempty

theorem step_coherent {action : RedistributionAction commSize Worker Memory}
    (step : RedistributionStep (inputs (state.ranks rank).phase rank) state rank action state')
    (coherent : Coherent sound state) :
    Coherent sound state' := by
  cases step with
  | setAmHandler memory outside =>
      apply coherent.update_rank ((coherent.ranks rank).register outside memory) rfl
      · intro phase entered
        rcases entered with earlier | ⟨-, inside⟩
        · exact .inl earlier
        · exact absurd outside inside
      · rintro phase (earlier | ⟨-, running⟩)
        · exact .inl (.inl earlier)
        · cases running
  | barrierProgress action state' waiting allowed called =>
      obtain ⟨quiet, call, silent⟩ := barrier_action_silent allowed
      obtain ⟨am, next, present, moved, rfl⟩ := call_am_cases called
      apply coherent.with_am
      · exact (coherent.ranks rank).call present moved quiet (fun _ => silent) (fun _ _ => rfl)
          nofun
      · exact exchange_call coherent present moved quiet call
  | leaveBarrier waiting all =>
      apply coherent.update_rank ((coherent.ranks rank).release waiting) rfl
      · rintro phase (earlier | ⟨same, -⟩)
        · exact .inl earlier
        · exact .inr ⟨same, nofun⟩
      · rintro phase (earlier | ⟨same, -⟩)
        · exact .inl (.inl earlier)
        · exact .inr (same ▸ all)
  | post worker key remaining state' working posting called =>
      have fits := worker_fits coherent working.1 worker
      have shared := fits.pending key (by rw [posting]; exact List.mem_cons_self)
      have routed := sound.routed (state.ranks rank).phase rank worker key shared
      apply coherent.worker_call working.1 called trivial rfl
      · intro other member
        rw [posting]
        exact List.mem_cons_of_mem _ member
      · intro dest
        rw [posting, posting_routed routed]
        exact keys_for_cons key remaining
      · nofun
      · nofun
  | flush worker state' working posted called =>
      apply coherent.silent_call working.1 called trivial rfl (fun _ => rfl)
      · rw [posted]
        rfl
      · exact fun _ => .inl rfl
      · nofun
  | await worker working waiting =>
      have fits := worker_fits coherent working.1 worker
      rw [waiting] at fits
      have next : WorkerFits (inputs (state.ranks rank).phase rank)
          ((state.ranks rank).ledger (state.ranks rank).phase) worker .progressing :=
        ⟨fits.pending, fits.submitted, fits.draining, nofun⟩
      apply coherent.update_rank
        ((coherent.ranks rank).set_worker working.1 worker .progressing next) rfl
      · exact fun _ entered => entered
      · exact fun _ released => .inl released
  | finish worker am working waiting present idle enough =>
      have fits := worker_fits coherent working.1 worker
      rw [waiting] at fits
      have ledger := (coherent.ranks rank).present am present
      have flushed := (fits.draining rfl).flushed (by rw [ledger]; exact idle)
      have counted : (inputs (state.ranks rank).phase rank).expectedRecvCount ≤
          ((state.ranks rank).ledger (state.ranks rank).phase).recvCount := by
        rw [ledger]
        exact enough
      have next : WorkerFits (inputs (state.ranks rank).phase rank)
          ((state.ranks rank).ledger (state.ranks rank).phase) worker .done :=
        ⟨fits.pending, fits.submitted, fits.draining, fun _ => ⟨flushed, counted⟩⟩
      apply coherent.update_rank ((coherent.ranks rank).set_worker working.1 worker .done next) rfl
      · exact fun _ entered => entered
      · exact fun _ released => .inl released
  | progress worker state' working progressing called =>
      apply coherent.silent_call working.1 called trivial rfl (fun _ => rfl)
      · rw [progressing]
        rfl
      · intro _
        rw [progressing]
        exact .inr rfl
      · nofun
  | inner worker action state' working allowed called =>
      obtain ⟨quiet, call, silent⟩ := inner_action_silent allowed
      have unchanged : Function.update (state.ranks rank).workers worker
          ((state.ranks rank).workers worker) = (state.ranks rank).workers :=
        Function.update_eq_self worker _
      rw [← unchanged] at called
      exact coherent.silent_call working.1 called quiet call silent rfl .inr id
  | deliver thread sent index state' delivered =>
      obtain ⟨am, next, message, present, found, arrives, moved, rfl⟩ := deliver_am_cases delivered
      have current := message_current coherent (List.mem_of_getElem? found)
      rw [arrives] at current
      obtain ⟨rfl, -⟩ := current
      have stepped := forget_step moved
      rw [← (coherent.ranks rank).present am present] at stepped
      apply coherent.with_am
      · apply (coherent.ranks rank).call present moved trivial (fun _ _ => rfl) (fun _ _ => rfl)
        rintro worker rfl fits
        apply fits.move stepped trivial (fun _ member => member) (fun _ => rfl)
        · exact fun flushed => .inr ⟨flushed, fun _ => rfl⟩
        · exact fun done => ⟨done, fun _ => rfl⟩
      · exact exchange_deliver coherent present found arrives moved
  | stray sent index message found absent arrives =>
      have current := message_current coherent (List.mem_of_getElem? found)
      rw [arrives] at current
      exact absurd ((coherent.ranks rank).absent.mp absent) current.2
  | unflushed am present finished left =>
      rw [team_done_unbuffered coherent finished present] at left
      cases left
  | clear am present finished empty =>
      apply coherent.update_rank
        ((coherent.ranks rank).leave finished.1 (team_done_fits coherent finished)) rfl
      · rintro phase (earlier | ⟨same, -⟩)
        · exact .inl (Nat.lt_succ_of_lt earlier)
        · exact .inl (Nat.lt_succ_of_le same.le)
      · rintro phase (earlier | ⟨-, running⟩)
        · rcases Nat.lt_succ_iff_lt_or_eq.mp earlier with before | same
          · exact .inl (.inl before)
          · exact .inl (.inr ⟨same, finished.1⟩)
        · cases running

theorem reachable_coherent (sound : SoundInputs inputs)
    (reached : (redistributionSystem inputs).Reachable (fun _ _ => True)
      (.initial inputs) state) : Coherent sound state := by
  apply reached.invariant (initial_coherent sound)
  intro before after action _ coherent _ stepped
  exact step_coherent (redistribution_step_cases stepped) coherent

end Steps

section Runs

/-- How one rank runs the redistribution of one iteration: its phase options and a
split of its keys over a team. -/
structure TeamRun (set : KeySet commSize) (rank : Fin commSize) (Worker : Type)
    [Fintype Worker] where
  config : PhaseConfig commSize
  team : Finset Worker
  share : Worker → List Nat
  own : config.rank = rank
  manned : team.Nonempty
  spare : ∀ worker ∉ team, share worker = []
  split : ∑ worker, (↑(share worker) : Multiset Nat) = ↑(set.keys rank)

variable {set : KeySet commSize}

/-- The arguments that the driver passes on, with the plan of the iteration. -/
def TeamRun.input (run : TeamRun set rank Worker) (handler : AmHandler commSize Nat Memory) :
    RankInput commSize Worker Memory where
  config := run.config
  handler := handler
  destination := routeKey (set.planInput rank).arrays.bucketToRank set.bucketShift
  expectedRecvCount := (set.plan rank).expectedRecvCount
  team := run.team
  share := run.share

variable {sets : Nat → KeySet commSize}

/-- The arguments of all phases. -/
def phaseInputs (runs : ∀ phase rank, TeamRun (sets phase) rank Worker)
    (handlers : Nat → Fin commSize → AmHandler commSize Nat Memory) :
    Redistribution.Inputs commSize Worker Memory :=
  fun phase rank => (runs phase rank).input (handlers phase rank)

omit [DecidableEq Worker] in
theorem input_route_key (run : TeamRun set rank Worker)
    (handler : AmHandler commSize Nat Memory) (key : Nat) :
    (run.input handler).destination key = set.routeKey key := by
  have arrays := arrays_of_rank set rank
  unfold TeamRun.input
  dsimp only
  rw [arrays]
  rfl

omit [DecidableEq Worker] in
/-- A worker's share is part of its rank's keys. -/
theorem share_member (run : TeamRun set rank Worker) {worker : Worker} {key : Nat}
    (member : key ∈ run.share worker) : key ∈ set.keys rank := by
  have shared : key ∈ ∑ other, (↑(run.share other) : Multiset Nat) :=
    Multiset.mem_sum.mpr ⟨worker, Finset.mem_univ worker, member⟩
  rw [run.split] at shared
  exact shared

omit [DecidableEq Worker] in
/-- The workers of a rank together hold for `dest` what the rank holds for it. -/
theorem keys_between_routed (runs : ∀ phase rank, TeamRun (sets phase) rank Worker)
    (handlers : Nat → Fin commSize → AmHandler commSize Nat Memory) (phase : Nat)
    (source dest : Fin commSize) :
    keysBetween (phaseInputs runs handlers) phase source dest =
      ↑(((sets phase).keys source).filter fun key => (sets phase).routeKey key == dest) := by
  have filtered : ∀ workers : Finset Worker,
      ∑ worker ∈ workers, (↑((phaseInputs runs handlers phase source).keysFor dest
        ((phaseInputs runs handlers phase source).share worker)) : Multiset Nat) =
      (∑ worker ∈ workers, (↑((runs phase source).share worker) : Multiset Nat)).filter
        fun key => (sets phase).routeKey key == dest := by
    intro workers
    induction workers using Finset.cons_induction with
    | empty => rfl
    | cons worker rest outside ih =>
        rw [Finset.sum_cons, Finset.sum_cons, Multiset.filter_add, ih]
        unfold RankInput.keysFor phaseInputs
        simp only [input_route_key, Multiset.filter_coe, Bool.decide_eq_true]
        rfl
  unfold keysBetween
  rw [filtered, (runs phase source).split]
  simp only [Multiset.filter_coe, Bool.decide_eq_true]

omit [DecidableEq Worker] in
theorem runs_sound (runs : ∀ phase rank, TeamRun (sets phase) rank Worker)
    (handlers : Nat → Fin commSize → AmHandler commSize Nat Memory) :
    SoundInputs (phaseInputs runs handlers) where
  own phase rank := (runs phase rank).own
  routed phase rank worker key member := by
    unfold phaseInputs
    rw [input_route_key]
    exact route_bounded (share_member (runs phase rank) member)
  manned phase rank := (runs phase rank).manned
  spare phase rank := (runs phase rank).spare
  expected phase rank := by
    have expected := expected_routed (sets phase) rank.isLt
    unfold KeySet.countKeys at expected
    have passed : (phaseInputs runs handlers phase rank).expectedRecvCount =
        ((sets phase).plan rank).expectedRecvCount := rfl
    rw [passed, expected]
    apply Finset.sum_congr rfl
    intro source _
    rw [keys_between_routed, Multiset.coe_card, List.countP_eq_length_filter]

/-- A rank ends a phase with nothing buffered, nothing of the phase in flight to it
and exactly the expected count, so its `clear_am_handler` returns; and whatever is
in flight finds the handler of the sender's phase. -/
theorem no_message_crosses_phases (runs : ∀ phase rank, TeamRun (sets phase) rank Worker)
    (handlers : Nat → Fin commSize → AmHandler commSize Nat Memory)
    (reached : (redistributionSystem (phaseInputs runs handlers)).Reachable (fun _ _ => True)
      (.initial (phaseInputs runs handlers)) state) :
    state.terminated = false ∧
    (∀ sent, ∀ message ∈ state.network sent, (state.ranks message.dest).phase = sent ∧
      (state.ranks message.dest).amState.isSome = true) ∧
    ∀ rank, state.TeamDone (phaseInputs runs handlers (state.ranks rank).phase rank) rank →
      ∃ am, (state.ranks rank).amState = some am ∧ am.hasBufferedRecords = false ∧
        (∀ sent, ∀ message ∈ state.network sent, message.dest ≠ rank) ∧
        am.recvCount = ((sets (state.ranks rank).phase).plan rank).expectedRecvCount ∧
        state.step (phaseInputs runs handlers) (.clearAmHandler rank) =
          some (state.leavePhase rank) := by
  have coherent := reachable_coherent (runs_sound runs handlers) reached
  have registered : ∀ rank, (state.ranks rank).stage ≠ .outside →
      ∃ am, (state.ranks rank).amState = some am := by
    intro rank inside
    apply Option.ne_none_iff_exists'.mp
    intro absent
    exact inside ((coherent.ranks rank).absent.mp absent)
  refine ⟨coherent.live, ?_, ?_⟩
  · intro sent message member
    obtain ⟨current, inside⟩ := message_current coherent member
    obtain ⟨am, present⟩ := registered message.dest inside
    exact ⟨current, by rw [present]; rfl⟩
  · intro rank finished
    obtain ⟨am, present⟩ := registered rank (by rw [finished.1]; nofun)
    have unbuffered := team_done_unbuffered coherent finished present
    have ledger := (coherent.ranks rank).present am present
    obtain ⟨worker, -⟩ := (runs (state.ranks rank).phase rank).manned
    have fits := team_done_fits coherent finished worker
    obtain ⟨exact', arrived⟩ := all_received coherent (fits.finished rfl).2
    refine ⟨am, present, unbuffered, ?_, ?_, ?_⟩
    · intro sent message member toRank
      subst toRank
      obtain ⟨rfl, -⟩ := message_current coherent member
      exact in_flight_of_message coherent member (arrived message.source).1
    · rw [ledger] at exact'
      exact exact'
    · simp only [Redistribution.step, RedistributionAction.rank, Redistribution.stepWith, present,
        unbuffered, if_pos (And.intro coherent.live finished)]
      rfl

/-- Two ranks that hold one key each, for the other. -/
private def swappedKeys : KeySet 2 where
  keys rank := if rank.val = 0 then [1] else [0]
  localKeyCount := 1
  numBuckets := 2
  bucketShift := 0
  length_eq := by decide
  positive := Nat.one_pos
  in_range := by decide

private def swapRun (rank : Fin 2) : TeamRun swappedKeys rank Unit where
  config := .singleRecord rank
  team := Finset.univ
  share _ := swappedKeys.keys rank
  own := rfl
  manned := ⟨(), Finset.mem_univ ()⟩
  spare _ outside := absurd (Finset.mem_univ _) outside
  split := Fintype.sum_unique _

private def swapRuns : ∀ (_ : Nat) (rank : Fin 2), TeamRun swappedKeys rank Unit :=
  fun _ rank => swapRun rank

private def swapInputs : Redistribution.Inputs 2 Unit Unit :=
  phaseInputs swapRuns fun _ _ => noMemory 2 Nat

/-- Rank 0 posts its key while rank 1 is still in the barrier. -/
private def swapActions (first second : Fin 2) : List (RedistributionAction 2 Unit Unit) :=
  [.setAmHandler first (), .setAmHandler second (), .leaveBarrier first, .post first (),
    .inner first () (.postAmAnswer false)]

/-- Rank 1 posts its own key, takes the one of rank 0 and comes to the end of its team. -/
private def swapReceives (rank : Fin 2) : List (RedistributionAction 2 Unit Unit) :=
  [.leaveBarrier rank, .post rank (), .inner rank () (.postAmAnswer false),
    .deliver rank (some ()) 0 0, .inner rank () (.resume 0), .inner rank () .handlerReturn,
    .inner rank () (.resume 0), .inner rank () (.resume 0), .inner rank () .progressEnd,
    .inner rank () (.resume 0), .inner rank () (.resume 0), .flush rank (),
    .inner rank () (.resume 0), .inner rank () (.resume 0), .inner rank () (.resume 0),
    .check rank ()]

private theorem swap_ends :
    ((redistributionSystem swapInputs).run (.initial swapInputs)
        (swapActions 0 1 ++ swapReceives 1)).map
      (fun state => ((state.ranks 1).phase, decide (state.TeamDone (swapInputs 0 1) 1),
        (state.network 0).length)) = some (0, true, 1) := by
  decide +kernel

/-- The key of rank 0 is in flight while rank 1 is in the barrier. When rank 1 has taken it,
its phase ends, although its own key is still in flight. -/
theorem no_message_crosses_phases_swap :
    (∃ state : Redistribution 2 Unit Unit,
      (redistributionSystem swapInputs).run (.initial swapInputs) (swapActions 0 1) =
          some state ∧
        (state.network 0).length = 1 ∧ ∀ message ∈ state.network 0,
          (state.ranks message.dest).phase = 0 ∧
            (state.ranks message.dest).amState.isSome = true) ∧
    ∃ state : Redistribution 2 Unit Unit,
      (redistributionSystem swapInputs).run (.initial swapInputs)
          (swapActions 0 1 ++ swapReceives 1) = some state ∧
        (state.network 0).length = 1 ∧
        ∃ am, (state.ranks 1).amState = some am ∧ am.hasBufferedRecords = false ∧
          (∀ sent, ∀ message ∈ state.network sent, message.dest ≠ 1) ∧
          am.recvCount = (swappedKeys.plan 1).expectedRecvCount ∧
          state.step swapInputs (.clearAmHandler 1) = some (state.leavePhase 1) := by
  constructor
  · obtain ⟨state, executed, one⟩ : ∃ state : Redistribution 2 Unit Unit,
        (redistributionSystem swapInputs).run (.initial swapInputs) (swapActions 0 1) =
            some state ∧
          (state.network 0).length = 1 := ⟨_, rfl, rfl⟩
    refine ⟨state, executed, one, ?_⟩
    have reached := TransitionSystem.any_run_reachable executed
    exact (no_message_crosses_phases swapRuns (fun _ _ => noMemory 2 Nat) reached).2.1 0
  · obtain ⟨state, executed, ends⟩ := Option.map_eq_some_iff.mp swap_ends
    simp only [Prod.mk.injEq, decide_eq_true_eq] at ends
    obtain ⟨phase, finished, one⟩ := ends
    have reached := TransitionSystem.any_run_reachable executed
    rw [← phase] at finished
    exact ⟨state, executed, one,
      (no_message_crosses_phases swapRuns (fun _ _ => noMemory 2 Nat) reached).2.2 1 finished⟩

end Runs

end IntegerSortLci.Benchmark
