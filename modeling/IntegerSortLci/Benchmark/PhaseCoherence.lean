import IntegerSortLci.Benchmark.KeyRouting
import IntegerSortLci.Benchmark.Redistribution
import IntegerSortLci.Runtime.Delivery
import IntegerSortLci.Runtime.WorkerCalls

/-!
# What successive phases keep in order

Each phase, read alone, is an exchange of its own. A rank that has counted the keys
it expects has received every key that anybody posts to it in that phase, so no
message of the phase can still be on its way to it. Before a rank has entered the
barrier of a phase nobody has posted anything in it. What is in flight is therefore
addressed to ranks that are in the sender's phase and have a handler.
-/

namespace IntegerSortLci.Benchmark

open IntegerSortLci.Runtime IntegerSortLci.Foundations
open scoped BigOperators

set_option autoImplicit false

variable {commSize : Nat} {Worker Memory : Type}

/-- The keys of a list that are routed to `dest`. -/
def RankInput.keysFor (input : RankInput commSize Worker Memory) (dest : Fin commSize)
    (keys : List Nat) : List Nat :=
  keys.filter fun key => input.destination key == dest

/-- The keys that the workers of `source` hold for `dest` in a phase. -/
def keysBetween [Fintype Worker] (inputs : Redistribution.Inputs commSize Worker Memory)
    (phase : Nat) (source dest : Fin commSize) : Multiset Nat :=
  ∑ worker, ↑((inputs phase source).keysFor dest ((inputs phase source).share worker))

/-- What the arguments of all phases owe to the redistribution. -/
structure SoundInputs [Fintype Worker] (inputs : Redistribution.Inputs commSize Worker Memory) :
    Prop where
  own : ∀ phase rank, (inputs phase rank).config.rank = rank
  routed : ∀ phase rank worker, ∀ key ∈ (inputs phase rank).share worker,
    (inputs phase rank).destination key < commSize
  manned : ∀ phase rank, (inputs phase rank).team.Nonempty
  spare : ∀ phase rank, ∀ worker ∉ (inputs phase rank).team, (inputs phase rank).share worker = []
  expected : ∀ phase rank, (inputs phase rank).expectedRecvCount =
    ∑ source, Multiset.card (keysBetween inputs phase source rank)

namespace WorkerStage

def remaining : WorkerStage → List Nat
  | .posting keys => keys
  | _ => []

def hasFlushed : WorkerStage → Bool
  | .posting _ => false
  | _ => true

end WorkerStage

section Workers

variable {input : RankInput commSize Worker Memory} {dest : Fin commSize}

theorem keys_for_cons (key : Nat) (keys : List Nat) :
    input.keysFor dest (key :: keys) = input.keysFor dest [key] ++ input.keysFor dest keys := by
  rw [← List.singleton_append]
  exact List.filter_append [key] keys

theorem posting_routed {key : Nat} (routed : input.destination key < commSize) :
    Action.posting dest (.postAm (input.destination key) key) = input.keysFor dest [key] := by
  have checked : checkedDestination commSize (input.destination key) =
      some ⟨input.destination key, routed⟩ := by
    unfold checkedDestination
    rw [dif_pos ⟨by omega, by omega⟩]
    rfl
  simp only [Action.posting, checked, RankInput.keysFor, Option.some.injEq, Fin.ext_iff]
  by_cases same : input.destination key = dest
  · simp [same]
  · simp [same]

/-- What a worker's stage in a phase says about its thread and its rank's counter. -/
structure WorkerFits (input : RankInput commSize Worker Memory)
    (phase : PhaseState commSize Worker Nat Unit) (worker : Worker) (stage : WorkerStage) :
    Prop where
  pending : ∀ key ∈ stage.remaining, key ∈ input.share worker
  submitted : ∀ dest, (phase.threads (some worker)).submitted dest ++
    input.keysFor dest stage.remaining = input.keysFor dest (input.share worker)
  draining : stage.hasFlushed = true → Draining (phase.threads (some worker))
  finished : stage = .done → flushedSincePush (phase.threads (some worker)).log = true ∧
    input.expectedRecvCount ≤ phase.recvCount

variable {phase phase' : PhaseState commSize Worker Nat Unit}
variable {worker : Worker} {stage stage' : WorkerStage} {thread : Option Worker}
variable {action : Action commSize Nat} {config : PhaseConfig commSize}

theorem initial_fits :
    WorkerFits input (.initial config ()) worker (.posting (input.share worker)) where
  pending _ member := member
  submitted _ := rfl
  draining flushed := by cases flushed
  finished done := by cases done

theorem WorkerFits.unposted (fits : WorkerFits input phase worker stage)
    (nothing : input.share worker = []) :
    Draining (phase.threads (some worker)) ∧
      flushedSincePush (phase.threads (some worker)).log = true := by
  have empty : ∀ dest, (phase.threads (some worker)).submitted dest = [] := by
    intro dest
    have whole := fits.submitted dest
    rw [nothing] at whole
    exact (List.append_eq_nil_iff.mp whole).1
  have flushed := flushed_of_unposted fun dest => (List.append_eq_nil_iff.mp (empty dest)).1
  exact ⟨⟨fun dest => (List.append_eq_nil_iff.mp (empty dest)).2, .inr flushed⟩, flushed⟩

variable [DecidableEq Worker]

theorem WorkerFits.bystander (fits : WorkerFits input phase worker stage)
    (stepped : phase.step config (noMemory commSize Nat) (thread, action) = some phase')
    (other : thread ≠ some worker) : WorkerFits input phase' worker stage := by
  have grown := recv_count_grows stepped
  obtain ⟨next, events, -, -, rfl⟩ := phase_step_cases stepped
  have kept : (events.foldl (PhaseState.absorb (noMemory commSize Nat))
      { phase with threads := Function.update phase.threads thread next }).threads (some worker) =
        phase.threads (some worker) := by
    rw [absorb_all_threads]
    exact Function.update_of_ne (Ne.symm other) _ _
  constructor
  · exact fits.pending
  · intro dest
    rw [kept]
    exact fits.submitted dest
  · intro flushed
    rw [kept]
    exact fits.draining flushed
  · intro done
    rw [kept]
    exact ⟨(fits.finished done).1, (fits.finished done).2.trans grown⟩

/-- A step of the worker itself, from one stage to the next. A worker flushes from a
stage with keys to post, and posts nothing afterwards. -/
theorem WorkerFits.move (fits : WorkerFits input phase worker stage)
    (stepped : phase.step config (noMemory commSize Nat) (some worker, action) = some phase')
    (quiet : QuietAction action)
    (remains : ∀ key ∈ stage'.remaining, key ∈ stage.remaining)
    (posts : ∀ dest, input.keysFor dest stage.remaining =
      action.posting dest ++ input.keysFor dest stage'.remaining)
    (flushes : stage'.hasFlushed = true → action = .flush ∨
      stage.hasFlushed = true ∧ ∀ dest, action.posting dest = [])
    (finishes : stage' = .done → stage = .done ∧ ∀ dest, action.posting dest = []) :
    WorkerFits input phase' worker stage' := by
  have grown := recv_count_grows stepped
  obtain ⟨next, events, moved, extended, rfl⟩ := phase_step_cases stepped
  have step := thread_step_cases moved
  have now : (events.foldl (PhaseState.absorb (noMemory commSize Nat))
      { phase with threads := Function.update phase.threads (some worker) next }).threads
        (some worker) = next := by
    rw [absorb_all_threads]
    exact Function.update_self _ _ _
  constructor
  · intro key member
    exact fits.pending key (remains key member)
  · intro dest
    rw [now, step_submitted step quiet, List.append_assoc, ← posts dest]
    exact fits.submitted dest
  · intro flushed
    rw [now]
    rcases flushes flushed with rfl | ⟨before, unposting⟩
    · exact flush_draining step
    · exact step_draining step quiet unposting (fits.draining before)
  · intro done
    obtain ⟨before, unposting⟩ := finishes done
    have settled := (fits.draining (by rw [before]; rfl)).settled
    obtain ⟨-, later, grew, silent⟩ := step_settled step quiet unposting settled
    rw [now, grew]
    exact ⟨flushed_kept silent (fits.finished before).1, (fits.finished before).2.trans grown⟩

end Workers

section Ranks

/-- The rank has left the barrier of `phase`. -/
def RankState.Released (rankState : RankState commSize Worker Memory) (phase : Nat) : Prop :=
  phase < rankState.phase ∨ phase = rankState.phase ∧ rankState.stage = .running

/-- Where a worker is with respect to one phase, which need not be the current one. -/
def RankState.stageIn (rankState : RankState commSize Worker Memory)
    (input : RankInput commSize Worker Memory) (phase : Nat) (worker : Worker) : WorkerStage :=
  if phase < rankState.phase then .done
  else if phase = rankState.phase ∧ rankState.stage = .running then rankState.workers worker
  else .posting (input.share worker)

/-- What holds on one rank between two steps, in all phases. -/
structure RankCoherent (inputs : Nat → RankInput commSize Worker Memory)
    (rankState : RankState commSize Worker Memory) : Prop where
  absent : rankState.amState = none ↔ rankState.stage = .outside
  present : ∀ am, rankState.amState = some am → rankState.ledger rankState.phase = am.forget
  untouched : ∀ phase, ¬ rankState.Entered phase →
    rankState.ledger phase = .initial (inputs phase).config ()
  control : ∀ phase dest, ((rankState.ledger phase).threads none).submitted dest = []
  fits : ∀ phase worker, WorkerFits (inputs phase) (rankState.ledger phase) worker
    (rankState.stageIn (inputs phase) phase worker)

variable {inputs : Nat → RankInput commSize Worker Memory}
variable {rankState : RankState commSize Worker Memory}

theorem RankCoherent.stage_of_present (coherent : RankCoherent inputs rankState)
    {am : PhaseState commSize Worker Nat Memory} (present : rankState.amState = some am) :
    rankState.stage ≠ .outside := by
  intro outside
  rw [coherent.absent.mpr outside] at present
  cases present

theorem RankCoherent.register (coherent : RankCoherent inputs rankState)
    (outside : rankState.stage = .outside) (memory : Memory) :
    RankCoherent inputs
      { rankState with
        stage := .inBarrier
        amState := some (.initial (inputs rankState.phase).config memory) } where
  absent := ⟨nofun, nofun⟩
  present am started := by
    obtain rfl := Option.some.inj started
    apply coherent.untouched rankState.phase
    rintro (earlier | ⟨-, inside⟩)
    · exact Nat.lt_irrefl _ earlier
    · exact inside outside
  untouched phase notEntered := by
    apply coherent.untouched phase
    rintro (earlier | ⟨same, inside⟩)
    · exact notEntered (.inl earlier)
    · exact inside outside
  control := coherent.control
  fits phase worker := by
    have fits := coherent.fits phase worker
    simpa [RankState.stageIn, outside] using fits

theorem RankCoherent.release (coherent : RankCoherent inputs rankState)
    (waiting : rankState.stage = .inBarrier) :
    RankCoherent inputs
      { rankState with
        stage := .running
        workers := fun worker => .posting ((inputs rankState.phase).share worker) } where
  absent := by
    rw [coherent.absent, waiting]
    exact ⟨nofun, nofun⟩
  present := coherent.present
  untouched phase notEntered := by
    apply coherent.untouched phase
    rintro (earlier | ⟨same, -⟩)
    · exact notEntered (.inl earlier)
    · exact notEntered (.inr ⟨same, nofun⟩)
  control := coherent.control
  fits phase worker := by
    have fits := coherent.fits phase worker
    simp only [RankState.stageIn, waiting] at fits ⊢
    by_cases earlier : phase < rankState.phase
    · rw [if_pos earlier] at fits ⊢
      exact fits
    · rw [if_neg earlier] at fits ⊢
      by_cases current : phase = rankState.phase
      · subst current
        simpa using fits
      · simpa [current] using fits

theorem RankCoherent.set_worker [DecidableEq Worker] (coherent : RankCoherent inputs rankState)
    (running : rankState.stage = .running) (worker : Worker) (stage : WorkerStage)
    (fits : WorkerFits (inputs rankState.phase) (rankState.ledger rankState.phase) worker stage) :
    RankCoherent inputs
      { rankState with workers := Function.update rankState.workers worker stage } where
  absent := coherent.absent
  present := coherent.present
  untouched := coherent.untouched
  control := coherent.control
  fits phase other := by
    have before := coherent.fits phase other
    simp only [RankState.stageIn, running] at before ⊢
    by_cases earlier : phase < rankState.phase
    · rw [if_pos earlier] at before ⊢
      exact before
    · rw [if_neg earlier] at before ⊢
      by_cases current : phase = rankState.phase
      · subst current
        by_cases same : other = worker
        · subst same
          simpa using fits
        · simpa [same] using before
      · simpa [current] using before

theorem RankCoherent.leave (coherent : RankCoherent inputs rankState)
    (running : rankState.stage = .running)
    (fits : ∀ worker, WorkerFits (inputs rankState.phase) (rankState.ledger rankState.phase) worker
      .done) :
    RankCoherent inputs
      { rankState with phase := rankState.phase + 1, stage := .outside, amState := none } where
  absent := ⟨fun _ => rfl, fun _ => rfl⟩
  present := nofun
  untouched phase notEntered := by
    apply coherent.untouched phase
    rintro (earlier | ⟨same, -⟩)
    · exact notEntered (.inl (Nat.lt_succ_of_lt earlier))
    · exact notEntered (.inl (Nat.lt_succ_of_le same.le))
  control := coherent.control
  fits phase worker := by
    have before := coherent.fits phase worker
    simp only [RankState.stageIn, running] at before ⊢
    rcases Nat.lt_trichotomy phase rankState.phase with earlier | same | later
    · rw [if_pos earlier] at before
      rw [if_pos (Nat.lt_succ_of_lt earlier)]
      exact before
    · subst same
      rw [if_pos (Nat.lt_succ_self _)]
      exact fits worker
    · rw [if_neg (Nat.lt_asymm later), if_neg fun both => Nat.ne_of_gt later both.1] at before
      rw [if_neg (by omega), if_neg fun both => nomatch both.2]
      exact before

theorem RankCoherent.call [DecidableEq Worker] (coherent : RankCoherent inputs rankState)
    {am next : PhaseState commSize Worker Nat Memory} {thread : Option Worker}
    {action : Action commSize Nat} {workers : Worker → WorkerStage}
    (present : rankState.amState = some am)
    (moved : am.step (inputs rankState.phase).config (inputs rankState.phase).handler
      (thread, action) = some next)
    (quiet : QuietAction action)
    (unposting : thread = none → ∀ dest, action.posting dest = [])
    (others : ∀ worker, thread ≠ some worker → workers worker = rankState.workers worker)
    (mover : ∀ worker, thread = some worker →
      WorkerFits (inputs rankState.phase) (rankState.ledger rankState.phase) worker
        (rankState.stageIn (inputs rankState.phase) rankState.phase worker) →
      WorkerFits (inputs rankState.phase) next.forget worker
        ({ rankState with workers := workers }.stageIn (inputs rankState.phase)
          rankState.phase worker)) :
    RankCoherent inputs
      { rankState with
        amState := some next
        workers := workers
        ledger := Function.update rankState.ledger rankState.phase next.forget } := by
  have inside := coherent.stage_of_present present
  have stepped := forget_step moved
  rw [← coherent.present am present] at stepped
  have entered : rankState.Entered rankState.phase := .inr ⟨rfl, inside⟩
  constructor
  · exact ⟨nofun, fun outside => absurd outside inside⟩
  · intro later same
    obtain rfl := Option.some.inj same
    exact Function.update_self _ _ _
  · intro phase notEntered
    have other : phase ≠ rankState.phase := by
      rintro rfl
      exact notEntered entered
    dsimp only
    rw [Function.update_of_ne other]
    exact coherent.untouched phase notEntered
  · intro phase dest
    dsimp only
    by_cases same : phase = rankState.phase
    · subst same
      rw [Function.update_self]
      have submitted : (next.forget.threads none).submitted dest = _ :=
        phase_submitted stepped quiet none
      rw [submitted, coherent.control rankState.phase dest, List.nil_append]
      split_ifs with own
      · exact unposting own.symm dest
      · rfl
    · rw [Function.update_of_ne same]
      exact coherent.control phase dest
  · intro phase worker
    have before := coherent.fits phase worker
    by_cases same : phase = rankState.phase
    · subst same
      dsimp only
      rw [Function.update_self]
      by_cases own : thread = some worker
      · exact mover worker own before
      · have kept := before.bystander stepped own
        simpa [RankState.stageIn, others worker own] using kept
    · dsimp only
      rw [Function.update_of_ne same]
      simpa [RankState.stageIn, same] using before

end Ranks

section Phases

variable [Fintype Worker] [DecidableEq Worker]
variable {inputs : Redistribution.Inputs commSize Worker Memory}
variable {state state' : Redistribution commSize Worker Memory}

/-- The ranks and the messages of one phase, as an exchange of its own. -/
def Redistribution.project (state : Redistribution commSize Worker Memory) (phase : Nat) :
    Exchange commSize Worker Nat Unit where
  phases rank := (state.ranks rank).ledger phase
  network := state.network phase

omit [DecidableEq Worker] in
def SoundInputs.cluster (sound : SoundInputs inputs) (phase : Nat) : Cluster commSize Nat Unit where
  config rank := (inputs phase rank).config
  handler _ := noMemory commSize Nat
  rank_eq := sound.own phase

structure Coherent (sound : SoundInputs inputs) (state : Redistribution commSize Worker Memory) :
    Prop where
  live : state.terminated = false
  ranks : ∀ rank, RankCoherent (fun phase => inputs phase rank) (state.ranks rank)
  exchange : ∀ phase, (exchangeSystem (sound.cluster phase)).Reachable (fun _ => QuietCall)
    (.initial (sound.cluster phase) fun _ => ()) (state.project phase)
  barrier : ∀ phase rank, (state.ranks rank).Released phase →
    ∀ other, (state.ranks other).Entered phase

variable {sound : SoundInputs inputs} {phase : Nat} {source dest : Fin commSize}

/-- In a phase nobody posts anything to a rank but its keys for that rank. -/
theorem posted_bounded (coherent : Coherent sound state) (phase : Nat)
    (source dest : Fin commSize) :
    (state.project phase).posted source dest ≤ keysBetween inputs phase source dest := by
  unfold Exchange.posted Exchange.gathered keysBetween
  rw [Fintype.sum_option]
  have control := (coherent.ranks source).control phase dest
  have nothing : postedTo dest ((((state.project phase).phases source).threads none).log) = [] :=
    (List.append_eq_nil_iff.mp control).1
  rw [← postedTo, nothing, Multiset.coe_nil, zero_add]
  apply Finset.sum_le_sum
  intro worker _
  have submitted := ((coherent.ranks source).fits phase worker).submitted dest
  rw [← submitted, ← postedTo]
  unfold ThreadState.submitted
  rw [List.append_assoc]
  exact Multiset.coe_le.mpr (List.prefix_append _ _).sublist.subperm

/-- A rank that has counted the keys it expects has handled all that was meant for it,
and nothing is on its way to it. -/
theorem all_received (coherent : Coherent sound state)
    (enough : (inputs phase dest).expectedRecvCount ≤ ((state.ranks dest).ledger phase).recvCount) :
    ((state.ranks dest).ledger phase).recvCount = (inputs phase dest).expectedRecvCount ∧
      ∀ source, (state.project phase).inFlight source dest = 0 ∧
        (state.project phase).handled source dest = keysBetween inputs phase source dest := by
  have reached := coherent.exchange phase
  have counted : ((state.ranks dest).ledger phase).recvCount ≤
      (state.project phase).completedCalls dest := (recv_count_completed reached dest).1
  have completed := completed_calls_le reached dest
  have posted : ∀ source, (state.project phase).unsent source dest +
      (state.project phase).inFlight source dest + (state.project phase).receiving source dest +
        (state.project phase).handled source dest ≤ keysBetween inputs phase source dest := by
    intro source
    rw [← values_conserved reached source dest]
    exact posted_bounded coherent phase source dest
  have sizes : ∀ source, Multiset.card ((state.project phase).inFlight source dest) +
      Multiset.card ((state.project phase).handled source dest) ≤
        Multiset.card (keysBetween inputs phase source dest) := by
    intro source
    have size := Multiset.card_le_card (posted source)
    simp only [Multiset.card_add] at size
    omega
  have handled : ∀ source ∈ Finset.univ,
      Multiset.card ((state.project phase).handled source dest) ≤
        Multiset.card (keysBetween inputs phase source dest) := by
    intro source _
    exact (Nat.le_add_left _ _).trans (sizes source)
  have total := Finset.sum_le_sum handled
  have expected := sound.expected phase dest
  have same := (Finset.sum_eq_sum_iff_of_le handled).mp (by omega)
  refine ⟨by omega, fun source => ?_⟩
  have size := sizes source
  have equal := same source (Finset.mem_univ source)
  have included : (state.project phase).handled source dest ≤
      keysBetween inputs phase source dest := (Multiset.le_add_left _ _).trans (posted source)
  refine ⟨Multiset.card_eq_zero.mp (by omega), ?_⟩
  exact Multiset.eq_of_le_of_card_le included equal.ge

/-- A rank that has not left the barrier of a phase has posted nothing in it. -/
theorem posted_after_release (coherent : Coherent sound state)
    (held : ¬ (state.ranks source).Released phase) :
    (state.project phase).posted source dest = 0 := by
  have silent : ∀ thread,
      postedTo dest (((state.ranks source).ledger phase).threads thread).log = [] := by
    intro thread
    cases thread with
    | none =>
        have control := (coherent.ranks source).control phase dest
        exact (List.append_eq_nil_iff.mp control).1
    | some worker =>
        have submitted := ((coherent.ranks source).fits phase worker).submitted dest
        have start : (state.ranks source).stageIn (inputs phase source) phase worker =
            .posting ((inputs phase source).share worker) := by
          unfold RankState.stageIn
          rw [if_neg fun earlier => held (.inl earlier), if_neg fun current => held (.inr current)]
        rw [start] at submitted
        exact (List.append_eq_nil_iff.mp (List.append_left_eq_self.mp submitted)).1
  apply Finset.sum_eq_zero
  intro thread _
  exact (Multiset.coe_eq_zero _).mpr (silent thread)

theorem in_flight_of_message (coherent : Coherent sound state) {message : Message commSize Nat}
    (member : message ∈ state.network phase) :
    (state.project phase).inFlight message.source message.dest ≠ 0 := by
  intro nothing
  have nonempty := (reachable_carried (coherent.exchange phase)).nonempty message member
  have zero := List.sum_eq_zero_iff.mp nothing
    (message.values message.source message.dest) (List.mem_map_of_mem member)
  unfold Message.values at zero
  rw [if_pos ⟨rfl, rfl⟩, Multiset.coe_eq_zero] at zero
  exact nonempty zero

theorem message_current (coherent : Coherent sound state) {message : Message commSize Nat}
    (member : message ∈ state.network phase) :
    (state.ranks message.dest).phase = phase ∧ (state.ranks message.dest).stage ≠ .outside := by
  have flying := in_flight_of_message coherent member
  have entered : (state.ranks message.dest).Entered phase := by
    by_contra notEntered
    have held : ¬ (state.ranks message.source).Released phase := by
      intro released
      exact notEntered (coherent.barrier phase message.source released message.dest)
    have conserved := values_conserved (coherent.exchange phase) message.source message.dest
    rw [posted_after_release coherent held] at conserved
    have sizes := congrArg Multiset.card conserved
    simp only [Multiset.card_zero, Multiset.card_add] at sizes
    exact flying (Multiset.card_eq_zero.mp (by omega))
  rcases entered with earlier | ⟨same, inside⟩
  · obtain ⟨worker, -⟩ := sound.manned phase message.dest
    have fits := (coherent.ranks message.dest).fits phase worker
    rw [RankState.stageIn, if_pos earlier] at fits
    exact absurd ((all_received coherent (fits.finished rfl).2).2 message.source).1 flying
  · exact ⟨same.symm, inside⟩

theorem initial_coherent (sound : SoundInputs inputs) :
    Coherent sound (Redistribution.initial inputs) where
  live := rfl
  ranks rank :=
    { absent := ⟨fun _ => rfl, fun _ => rfl⟩
      present := nofun
      untouched := fun _ _ => rfl
      control := fun _ _ => rfl
      fits := fun phase worker => by
        have start : RankState.stageIn ((Redistribution.initial inputs).ranks rank)
            (inputs phase rank) phase worker = .posting ((inputs phase rank).share worker) := by
          simp [RankState.stageIn, Redistribution.initial]
        rw [start]
        exact initial_fits }
  exchange _ := .start
  barrier phase rank released := by
    rcases released with earlier | ⟨-, running⟩
    · exact absurd earlier (Nat.not_lt_zero phase)
    · cases running

theorem Coherent.update_rank (coherent : Coherent sound state) {rank : Fin commSize}
    {next : RankState commSize Worker Memory}
    (local' : RankCoherent (fun phase => inputs phase rank) next)
    (ledger : next.ledger = (state.ranks rank).ledger)
    (entered : ∀ phase, (state.ranks rank).Entered phase → next.Entered phase)
    (released : ∀ phase, next.Released phase → (state.ranks rank).Released phase ∨
      ∀ other, (state.ranks other).Entered phase) :
    Coherent sound { state with ranks := Function.update state.ranks rank next } := by
  have kept : ∀ other phase, (state.ranks other).Entered phase →
      (Function.update state.ranks rank next other).Entered phase := by
    intro other phase before
    by_cases same : other = rank
    · subst same
      rw [Function.update_self]
      exact entered phase before
    · rw [Function.update_of_ne same]
      exact before
  constructor
  · exact coherent.live
  · intro other
    dsimp only
    by_cases same : other = rank
    · subst same
      rw [Function.update_self]
      exact local'
    · rw [Function.update_of_ne same]
      exact coherent.ranks other
  · intro phase
    have project : Redistribution.project
        { state with ranks := Function.update state.ranks rank next } phase =
          state.project phase := by
      unfold Redistribution.project
      congr 1
      funext other
      dsimp only
      by_cases same : other = rank
      · subst same
        rw [Function.update_self, ledger]
      · rw [Function.update_of_ne same]
    rw [project]
    exact coherent.exchange phase
  · intro phase other passed another
    apply kept
    dsimp only at passed
    by_cases same : other = rank
    · subst same
      rw [Function.update_self] at passed
      rcases released phase passed with before | all
      · exact coherent.barrier phase other before another
      · exact all another
    · rw [Function.update_of_ne same] at passed
      exact coherent.barrier phase other passed another

theorem exchange_call (coherent : Coherent sound state) {rank : Fin commSize}
    {am next : PhaseState commSize Worker Nat Memory} {thread : Option Worker}
    {action : Action commSize Nat} (present : (state.ranks rank).amState = some am)
    (moved : am.step (inputs (state.ranks rank).phase rank).config
      (inputs (state.ranks rank).phase rank).handler (thread, action) = some next)
    (quiet : QuietAction action) (called : action.isDelivery = false) :
    (exchangeSystem (sound.cluster (state.ranks rank).phase)).Reachable (fun _ => QuietCall)
      (.initial (sound.cluster (state.ranks rank).phase) fun _ => ())
      ⟨Function.update (state.project (state.ranks rank).phase).phases rank next.forget,
        state.network (state.ranks rank).phase ++
          (Exchange.newEvents am next thread).filterMap (Event.message rank)⟩ := by
  have stepped := forget_step moved
  have ledger : (state.project (state.ranks rank).phase).phases rank = am.forget :=
    (coherent.ranks rank).present am present
  have enabled : (exchangeSystem (sound.cluster (state.ranks rank).phase)).step
      (state.project (state.ranks rank).phase) (.call rank thread action) =
        some ⟨Function.update (state.project (state.ranks rank).phase).phases rank next.forget,
          state.network (state.ranks rank).phase ++
            (Exchange.newEvents am next thread).filterMap (Event.message rank)⟩ := by
    simp only [exchangeSystem, Exchange.step, called, ledger, Bool.false_eq_true, if_false]
    exact Option.map_eq_some_iff.mpr ⟨_, stepped, rfl⟩
  refine (coherent.exchange (state.ranks rank).phase).next ?_ enabled
  exact quiet

theorem exchange_deliver (coherent : Coherent sound state) {rank : Fin commSize}
    {am next : PhaseState commSize Worker Nat Memory} {thread : Option Worker} {index : Nat}
    {message : Message commSize Nat} (present : (state.ranks rank).amState = some am)
    (found : (state.network (state.ranks rank).phase)[index]? = some message)
    (arrives : message.dest = rank)
    (moved : am.step (inputs (state.ranks rank).phase rank).config
      (inputs (state.ranks rank).phase rank).handler
      (thread, .deliver message.source message.records) = some next) :
    (exchangeSystem (sound.cluster (state.ranks rank).phase)).Reachable (fun _ => QuietCall)
      (.initial (sound.cluster (state.ranks rank).phase) fun _ => ())
      ⟨Function.update (state.project (state.ranks rank).phase).phases rank next.forget,
        (state.network (state.ranks rank).phase).eraseIdx index⟩ := by
  have stepped := forget_step moved
  have ledger : (state.project (state.ranks rank).phase).phases rank = am.forget :=
    (coherent.ranks rank).present am present
  have taken : (state.project (state.ranks rank).phase).network[index]? = some message := found
  have enabled : (exchangeSystem (sound.cluster (state.ranks rank).phase)).step
      (state.project (state.ranks rank).phase) (.deliver rank thread index) =
        some ⟨Function.update (state.project (state.ranks rank).phase).phases rank next.forget,
          (state.network (state.ranks rank).phase).eraseIdx index⟩ := by
    simp only [exchangeSystem, Exchange.step, taken, ledger, if_pos arrives]
    exact Option.map_eq_some_iff.mpr ⟨_, stepped, rfl⟩
  refine (coherent.exchange (state.ranks rank).phase).next ?_ enabled
  trivial

theorem Coherent.with_am (coherent : Coherent sound state) {rank : Fin commSize}
    {next : PhaseState commSize Worker Nat Memory} {workers : Worker → WorkerStage}
    {messages : List (Message commSize Nat)}
    (local' : RankCoherent (fun phase => inputs phase rank)
      { state.ranks rank with
        amState := some next
        workers := workers
        ledger := Function.update (state.ranks rank).ledger (state.ranks rank).phase next.forget })
    (exchange : (exchangeSystem (sound.cluster (state.ranks rank).phase)).Reachable
      (fun _ => QuietCall) (.initial (sound.cluster (state.ranks rank).phase) fun _ => ())
      ⟨Function.update (state.project (state.ranks rank).phase).phases rank next.forget,
        messages⟩) :
    Coherent sound (state.withAm rank next workers (state.ranks rank).phase messages) := by
  have position : ∀ other, ((state.withAm rank next workers (state.ranks rank).phase
      messages).ranks other).phase = (state.ranks other).phase ∧
      ((state.withAm rank next workers (state.ranks rank).phase messages).ranks other).stage =
        (state.ranks other).stage := by
    intro other
    by_cases same : other = rank
    · subst same
      simp [Redistribution.withAm]
    · simp [Redistribution.withAm, same]
  constructor
  · exact coherent.live
  · intro other
    by_cases same : other = rank
    · subst same
      simpa [Redistribution.withAm] using local'
    · simpa [Redistribution.withAm, same] using coherent.ranks other
  · intro phase
    by_cases current : phase = (state.ranks rank).phase
    · subst current
      have project : (state.withAm rank next workers (state.ranks rank).phase messages).project
          (state.ranks rank).phase =
            ⟨Function.update (state.project (state.ranks rank).phase).phases rank next.forget,
              messages⟩ := by
        unfold Redistribution.project Redistribution.withAm
        congr 1
        · funext other
          by_cases same : other = rank
          · subst same
            simp
          · simp [same]
        · simp
      rw [project]
      exact exchange
    · have project : (state.withAm rank next workers (state.ranks rank).phase messages).project
          phase = state.project phase := by
        unfold Redistribution.project Redistribution.withAm
        congr 1
        · funext other
          by_cases same : other = rank
          · subst same
            simp [current]
          · simp [same]
        · simp [current]
      rw [project]
      exact coherent.exchange phase
  · intro phase other released another
    obtain ⟨phase_eq, stage_eq⟩ := position other
    obtain ⟨phase_eq', stage_eq'⟩ := position another
    unfold RankState.Released at released
    unfold RankState.Entered
    rw [phase_eq, stage_eq] at released
    rw [phase_eq', stage_eq']
    exact coherent.barrier phase other released another

end Phases

end IntegerSortLci.Benchmark
