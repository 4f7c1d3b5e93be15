import IntegerSortLci.Runtime.Exchange

/-!
# Successive redistribution phases

`redistribute_keys_with_active_messages` on every rank, phase after phase. A rank
registers its handler, waits in the barrier of `set_am_handler`, lets its OpenMP
team post, flush and wait for `recv_count()`, and clears the handler on its own.
Nothing but that barrier holds the ranks together, so one of them may be a phase
ahead of another.

A delivery takes any message addressed to the rank and hands it to the AM state the
rank has then, whatever phase the sender was in. The messages in flight are kept
apart by the sender's phase, and `ledger` keeps what a rank did in each phase;
both are bookkeeping of the model that no step of the code reads.
-/

namespace IntegerSortLci.Benchmark

open IntegerSortLci.Runtime IntegerSortLci.Foundations

set_option autoImplicit false

variable {commSize : Nat} {Worker Memory : Type}

/-- `route_key`. -/
def routeKey (bucketToRank : Nat → Nat) (bucketShift key : Nat) : Nat :=
  bucketToRank (key >>> bucketShift)

/-- What one phase of posting takes on one rank: the rank each key is posted to, the
received keys to wait for, and the team with the keys that each worker posts. -/
structure RankInput (commSize : Nat) (Worker Memory : Type) where
  config : PhaseConfig commSize
  handler : AmHandler commSize Nat Memory
  destination : Nat → Nat
  expectedRecvCount : Nat
  team : Finset Worker
  share : Worker → List Nat

/-- Where a worker is in the parallel region: with keys still to post, in the
flush or about to read `recv_count()`, about to progress, or at the region's end. -/
inductive WorkerStage where
  | posting (remaining : List Nat)
  | waiting
  | progressing
  | done
  deriving DecidableEq, Repr

inductive RankStage where
  | outside
  | inBarrier
  | running
  deriving DecidableEq, Repr

structure RankState (commSize : Nat) (Worker Memory : Type) where
  phase : Nat
  stage : RankStage
  amState : Option (PhaseState commSize Worker Nat Memory)
  workers : Worker → WorkerStage
  ledger : Nat → PhaseState commSize Worker Nat Unit

/-- The rank has entered the barrier of `phase`. -/
def RankState.Entered (rankState : RankState commSize Worker Memory) (phase : Nat) : Prop :=
  phase < rankState.phase ∨ phase = rankState.phase ∧ rankState.stage ≠ .outside

instance (rankState : RankState commSize Worker Memory) (phase : Nat) :
    Decidable (rankState.Entered phase) :=
  inferInstanceAs (Decidable (_ ∨ _))

structure Redistribution (commSize : Nat) (Worker Memory : Type) where
  ranks : Fin commSize → RankState commSize Worker Memory
  network : Nat → List (Message commSize Nat)
  /-- An exception left `main`, or a handler ran without an AM state. -/
  terminated : Bool

inductive RedistributionAction (commSize : Nat) (Worker Memory : Type) where
  /-- `set_am_handler` up to its barrier; `memory` is what the handler will write. -/
  | setAmHandler (rank : Fin commSize) (memory : Memory)
  /-- A step of the control thread inside the barrier. -/
  | barrierProgress (rank : Fin commSize) (action : Action commSize Nat)
  | leaveBarrier (rank : Fin commSize)
  | post (rank : Fin commSize) (worker : Worker)
  | flush (rank : Fin commSize) (worker : Worker)
  /-- The loop test on `recv_count()`. -/
  | check (rank : Fin commSize) (worker : Worker)
  | progress (rank : Fin commSize) (worker : Worker)
  /-- A step inside a worker's call. -/
  | inner (rank : Fin commSize) (worker : Worker) (action : Action commSize Nat)
  /-- A delivery of message `index` of those sent in phase `sent`. -/
  | deliver (rank : Fin commSize) (thread : Option Worker) (sent index : Nat)
  /-- A delivery while the rank has no AM state. -/
  | strayDelivery (rank : Fin commSize) (sent index : Nat)
  | clearAmHandler (rank : Fin commSize)

/-- The rank that moves. -/
def RedistributionAction.rank : RedistributionAction commSize Worker Memory → Fin commSize
  | .setAmHandler rank _ | .barrierProgress rank _ | .leaveBarrier rank | .post rank _
  | .flush rank _ | .check rank _ | .progress rank _ | .inner rank _ _ | .deliver rank _ _ _
  | .strayDelivery rank _ _ | .clearAmHandler rank => rank

/-- A worker's call into the library that its program asks for, and the steps LCI
and the handler take inside a call. -/
def isBarrierAction : Action commSize Nat → Bool
  | .collectiveProgress | .progressEnd | .handlerReturn | .resume _ => true
  | _ => false

def isInnerAction : Action commSize Nat → Bool
  | .getUpacket _ | .postAmAnswer _ | .progressEnd | .handlerReturn | .resume _ => true
  | _ => false

namespace Redistribution

/-- The arguments of each phase on each rank. -/
abbrev Inputs (commSize : Nat) (Worker Memory : Type) :=
  Nat → Fin commSize → RankInput commSize Worker Memory

/-- Before the first phase. -/
def initial (inputs : Inputs commSize Worker Memory) : Redistribution commSize Worker Memory where
  ranks rank :=
    { phase := 0
      stage := .outside
      amState := none
      workers := fun _ => .posting []
      ledger := fun phase => .initial (inputs phase rank).config () }
  network _ := []
  terminated := false

variable [DecidableEq Worker] (input : RankInput commSize Worker Memory)

/-- `rank` with a new AM state, in the state and in its ledger, and the messages of
phase `sent` after it. -/
def withAm (state : Redistribution commSize Worker Memory) (rank : Fin commSize)
    (am : PhaseState commSize Worker Nat Memory) (workers : Worker → WorkerStage) (sent : Nat)
    (messages : List (Message commSize Nat)) : Redistribution commSize Worker Memory where
  ranks := Function.update state.ranks rank
    { state.ranks rank with
      amState := some am
      workers := workers
      ledger :=
        Function.update (state.ranks rank).ledger (state.ranks rank).phase am.forget }
  network := Function.update state.network sent messages
  terminated := state.terminated

/-- A step of a thread inside the library, and the program counter after it. -/
def callAm (state : Redistribution commSize Worker Memory) (rank : Fin commSize)
    (thread : Option Worker) (action : Action commSize Nat) (workers : Worker → WorkerStage) :
    Option (Redistribution commSize Worker Memory) :=
  let phase := (state.ranks rank).phase
  (state.ranks rank).amState.bind fun am =>
    (am.step input.config input.handler (thread, action)).map fun next =>
      state.withAm rank next workers phase
        (state.network phase ++
          (Exchange.newEvents am next thread).filterMap (Event.message rank))

/-- `handle_incoming_am` on a message taken from the network. -/
def deliverAm (state : Redistribution commSize Worker Memory) (rank : Fin commSize)
    (thread : Option Worker) (sent index : Nat) :
    Option (Redistribution commSize Worker Memory) :=
  (state.ranks rank).amState.bind fun am =>
    ((state.network sent)[index]?).bind fun message =>
      if message.dest = rank then
        (am.step input.config input.handler
          (thread, .deliver message.source message.records)).map fun next =>
            state.withAm rank next (state.ranks rank).workers sent
              ((state.network sent).eraseIdx index)
      else none

def setAmHandler (state : Redistribution commSize Worker Memory) (rank : Fin commSize)
    (memory : Memory) : Redistribution commSize Worker Memory :=
  let rankState := state.ranks rank
  { state with
    ranks := Function.update state.ranks rank
      { rankState with
        stage := .inBarrier
        amState := some (.initial input.config memory) } }

/-- The team starts, each worker with its share of the keys. -/
def leaveBarrier (state : Redistribution commSize Worker Memory) (rank : Fin commSize) :
    Redistribution commSize Worker Memory :=
  let rankState := state.ranks rank
  { state with
    ranks := Function.update state.ranks rank
      { rankState with
        stage := .running
        workers := fun worker => .posting (input.share worker) } }

def setWorker (state : Redistribution commSize Worker Memory) (rank : Fin commSize)
    (worker : Worker) (workerStage : WorkerStage) : Redistribution commSize Worker Memory :=
  let rankState := state.ranks rank
  { state with
    ranks := Function.update state.ranks rank
      { rankState with workers := Function.update rankState.workers worker workerStage } }

/-- The end of the phase on this rank. -/
def leavePhase (state : Redistribution commSize Worker Memory) (rank : Fin commSize) :
    Redistribution commSize Worker Memory :=
  let rankState := state.ranks rank
  { state with
    ranks := Function.update state.ranks rank
      { rankState with
        phase := rankState.phase + 1
        stage := .outside
        amState := none } }

def terminate (state : Redistribution commSize Worker Memory) :
    Redistribution commSize Worker Memory :=
  { state with terminated := true }

/-- All workers of the team have reached the end of the parallel region. -/
def TeamDone (state : Redistribution commSize Worker Memory) (rank : Fin commSize) : Prop :=
  (state.ranks rank).stage = .running ∧
    ∀ worker ∈ input.team, (state.ranks rank).workers worker = .done

instance (state : Redistribution commSize Worker Memory) (rank : Fin commSize) :
    Decidable (state.TeamDone input rank) :=
  inferInstanceAs (Decidable (_ ∧ _))

/-- `worker` belongs to the team that is running on `rank`. -/
def Working (state : Redistribution commSize Worker Memory) (rank : Fin commSize)
    (worker : Worker) : Prop :=
  (state.ranks rank).stage = .running ∧ worker ∈ input.team

instance (state : Redistribution commSize Worker Memory) (rank : Fin commSize) (worker : Worker) :
    Decidable (state.Working input rank worker) :=
  inferInstanceAs (Decidable (_ ∧ _))

variable [Fintype Worker]

/-- A step of one rank, with that rank's arguments of its current phase. -/
def stepWith (state : Redistribution commSize Worker Memory) :
    RedistributionAction commSize Worker Memory → Option (Redistribution commSize Worker Memory)
  | .setAmHandler rank memory =>
      if state.terminated = false ∧ (state.ranks rank).stage = .outside then
        some (state.setAmHandler input rank memory)
      else none
  | .barrierProgress rank action =>
      if state.terminated = false ∧ (state.ranks rank).stage = .inBarrier ∧
          isBarrierAction action then
        state.callAm input rank none action (state.ranks rank).workers
      else none
  | .leaveBarrier rank =>
      match (state.ranks rank).amState with
      | none => none
      | some am =>
          if state.terminated = false ∧ (state.ranks rank).stage = .inBarrier ∧
              (am.threads none).stack.isEmpty ∧
              ∀ other, (state.ranks other).Entered (state.ranks rank).phase then
            some (state.leaveBarrier input rank)
          else none
  | .post rank worker =>
      match (state.ranks rank).workers worker with
      | .posting (key :: remaining) =>
          if state.terminated = false ∧ state.Working input rank worker then
            state.callAm input rank (some worker)
              (.postAm (input.destination key) key)
              (Function.update (state.ranks rank).workers worker (.posting remaining))
          else none
      | _ => none
  | .flush rank worker =>
      if state.terminated = false ∧ state.Working input rank worker ∧
          (state.ranks rank).workers worker = .posting [] then
        state.callAm input rank (some worker) .flush
          (Function.update (state.ranks rank).workers worker .waiting)
      else none
  | .check rank worker =>
      match (state.ranks rank).amState with
      | none => none
      | some am =>
          if state.terminated = false ∧ state.Working input rank worker ∧
              (state.ranks rank).workers worker = .waiting ∧
              (am.threads (some worker)).stack.isEmpty then
            if am.recvCount < input.expectedRecvCount then
              some (state.setWorker rank worker .progressing)
            else some (state.setWorker rank worker .done)
          else none
  | .progress rank worker =>
      if state.terminated = false ∧ state.Working input rank worker ∧
          (state.ranks rank).workers worker = .progressing then
        state.callAm input rank (some worker) .progress
          (Function.update (state.ranks rank).workers worker .waiting)
      else none
  | .inner rank worker action =>
      if state.terminated = false ∧ state.Working input rank worker ∧ isInnerAction action then
        state.callAm input rank (some worker) action (state.ranks rank).workers
      else none
  | .deliver rank thread sent index =>
      if state.terminated = false then state.deliverAm input rank thread sent index else none
  | .strayDelivery rank sent index =>
      match (state.network sent)[index]? with
      | none => none
      | some message =>
          if state.terminated = false ∧ (state.ranks rank).amState.isNone ∧
              message.dest = rank then
            some state.terminate
          else none
  | .clearAmHandler rank =>
      match (state.ranks rank).amState with
      | none => none
      | some am =>
          if state.terminated = false ∧ state.TeamDone input rank then
            if am.hasBufferedRecords then some state.terminate else some (state.leavePhase rank)
          else none

def step (inputs : Inputs commSize Worker Memory) (state : Redistribution commSize Worker Memory)
    (action : RedistributionAction commSize Worker Memory) :
    Option (Redistribution commSize Worker Memory) :=
  state.stepWith (inputs (state.ranks action.rank).phase action.rank) action

end Redistribution

/-- All ranks through any number of phases. -/
def redistributionSystem [DecidableEq Worker] [Fintype Worker]
    (inputs : Redistribution.Inputs commSize Worker Memory) :
    TransitionSystem (Redistribution commSize Worker Memory)
      (RedistributionAction commSize Worker Memory) where
  step := Redistribution.step inputs

section Steps

variable [DecidableEq Worker] [Fintype Worker] {input : RankInput commSize Worker Memory}
variable {state state' : Redistribution commSize Worker Memory} {rank : Fin commSize}

/-- The guards and the effect of each action. The five library calls of the
redistribution share `callAm`. -/
inductive RedistributionStep (input : RankInput commSize Worker Memory)
    (state : Redistribution commSize Worker Memory) (rank : Fin commSize) :
    RedistributionAction commSize Worker Memory → Redistribution commSize Worker Memory → Prop where
  | setAmHandler (memory : Memory)
      (outside : (state.ranks rank).stage = .outside) :
      RedistributionStep input state rank (.setAmHandler rank memory)
        (state.setAmHandler input rank memory)
  | barrierProgress (action : Action commSize Nat)
      (state' : Redistribution commSize Worker Memory)
      (waiting : (state.ranks rank).stage = .inBarrier) (allowed : isBarrierAction action = true)
      (called : state.callAm input rank none action (state.ranks rank).workers = some state') :
      RedistributionStep input state rank (.barrierProgress rank action) state'
  | leaveBarrier (waiting : (state.ranks rank).stage = .inBarrier)
      (all : ∀ other, (state.ranks other).Entered (state.ranks rank).phase) :
      RedistributionStep input state rank (.leaveBarrier rank) (state.leaveBarrier input rank)
  | post (worker : Worker) (key : Nat) (remaining : List Nat)
      (state' : Redistribution commSize Worker Memory)
      (working : state.Working input rank worker)
      (posting : (state.ranks rank).workers worker = .posting (key :: remaining))
      (called : state.callAm input rank (some worker)
        (.postAm (input.destination key) key)
        (Function.update (state.ranks rank).workers worker (.posting remaining)) = some state') :
      RedistributionStep input state rank (.post rank worker) state'
  | flush (worker : Worker)
      (state' : Redistribution commSize Worker Memory)
      (working : state.Working input rank worker)
      (posted : (state.ranks rank).workers worker = .posting [])
      (called : state.callAm input rank (some worker) .flush
        (Function.update (state.ranks rank).workers worker .waiting) = some state') :
      RedistributionStep input state rank (.flush rank worker) state'
  | await (worker : Worker)
      (working : state.Working input rank worker)
      (waiting : (state.ranks rank).workers worker = .waiting) :
      RedistributionStep input state rank (.check rank worker)
        (state.setWorker rank worker .progressing)
  | finish (worker : Worker) (am : PhaseState commSize Worker Nat Memory)
      (working : state.Working input rank worker)
      (waiting : (state.ranks rank).workers worker = .waiting)
      (present : (state.ranks rank).amState = some am)
      (idle : (am.threads (some worker)).stack = [])
      (enough : input.expectedRecvCount ≤ am.recvCount) :
      RedistributionStep input state rank (.check rank worker) (state.setWorker rank worker .done)
  | progress (worker : Worker)
      (state' : Redistribution commSize Worker Memory)
      (working : state.Working input rank worker)
      (progressing : (state.ranks rank).workers worker = .progressing)
      (called : state.callAm input rank (some worker) .progress
        (Function.update (state.ranks rank).workers worker .waiting) = some state') :
      RedistributionStep input state rank (.progress rank worker) state'
  | inner (worker : Worker) (action : Action commSize Nat)
      (state' : Redistribution commSize Worker Memory)
      (working : state.Working input rank worker) (allowed : isInnerAction action = true)
      (called : state.callAm input rank (some worker) action (state.ranks rank).workers =
        some state') :
      RedistributionStep input state rank (.inner rank worker action) state'
  | deliver (thread : Option Worker) (sent index : Nat)
      (state' : Redistribution commSize Worker Memory)
      (delivered : state.deliverAm input rank thread sent index = some state') :
      RedistributionStep input state rank (.deliver rank thread sent index) state'
  | stray (sent index : Nat) (message : Message commSize Nat)
      (found : (state.network sent)[index]? = some message)
      (absent : (state.ranks rank).amState = none) (arrives : message.dest = rank) :
      RedistributionStep input state rank (.strayDelivery rank sent index) state.terminate
  | unflushed (am : PhaseState commSize Worker Nat Memory)
      (present : (state.ranks rank).amState = some am) (finished : state.TeamDone input rank)
      (left : am.hasBufferedRecords = true) :
      RedistributionStep input state rank (.clearAmHandler rank) state.terminate
  | clear (am : PhaseState commSize Worker Nat Memory)
      (present : (state.ranks rank).amState = some am) (finished : state.TeamDone input rank)
      (empty : am.hasBufferedRecords = false) :
      RedistributionStep input state rank (.clearAmHandler rank) (state.leavePhase rank)

theorem redistribution_step_cases {action : RedistributionAction commSize Worker Memory}
    (stepped : state.stepWith input action = some state') :
    RedistributionStep input state action.rank action state' := by
  cases action with
  | setAmHandler rank memory =>
      simp only [Redistribution.stepWith] at stepped
      split_ifs at stepped with guard
      cases stepped
      exact .setAmHandler memory guard.2
  | barrierProgress rank action =>
      simp only [Redistribution.stepWith] at stepped
      split_ifs at stepped with guard
      exact .barrierProgress action state' guard.2.1 guard.2.2 stepped
  | leaveBarrier rank =>
      simp only [Redistribution.stepWith] at stepped
      split at stepped
      · cases stepped
      · split_ifs at stepped with guard
        cases stepped
        exact .leaveBarrier guard.2.1 guard.2.2.2
  | post rank worker =>
      simp only [Redistribution.stepWith] at stepped
      split at stepped
      next key remaining posting =>
        split_ifs at stepped with guard
        exact .post worker key remaining state' guard.2 posting stepped
      next => cases stepped
  | flush rank worker =>
      simp only [Redistribution.stepWith] at stepped
      split_ifs at stepped with guard
      exact .flush worker state' guard.2.1 guard.2.2 stepped
  | check rank worker =>
      simp only [Redistribution.stepWith] at stepped
      split at stepped
      · cases stepped
      next am present =>
        split_ifs at stepped with guard less
        · cases stepped
          exact .await worker guard.2.1 guard.2.2.1
        · cases stepped
          exact .finish worker am guard.2.1 guard.2.2.1 present
            (List.isEmpty_iff.mp guard.2.2.2) (Nat.le_of_not_lt less)
  | progress rank worker =>
      simp only [Redistribution.stepWith] at stepped
      split_ifs at stepped with guard
      exact .progress worker state' guard.2.1 guard.2.2 stepped
  | inner rank worker action =>
      simp only [Redistribution.stepWith] at stepped
      split_ifs at stepped with guard
      exact .inner worker action state' guard.2.1 guard.2.2 stepped
  | deliver rank thread sent index =>
      simp only [Redistribution.stepWith] at stepped
      split_ifs at stepped with guard
      exact .deliver thread sent index state' stepped
  | strayDelivery rank sent index =>
      simp only [Redistribution.stepWith] at stepped
      split at stepped
      · cases stepped
      next message found =>
        split_ifs at stepped with guard
        cases stepped
        exact .stray sent index message found (Option.isNone_iff_eq_none.mp guard.2.1)
          guard.2.2
  | clearAmHandler rank =>
      simp only [Redistribution.stepWith] at stepped
      split at stepped
      · cases stepped
      next am present =>
        split_ifs at stepped with guard buffered
        · cases stepped
          exact .unflushed am present guard.2 buffered
        · cases stepped
          exact .clear am present guard.2 (Bool.eq_false_iff.mpr buffered)

omit [Fintype Worker] in
/-- What a library call does: the phase of its rank takes the step. -/
theorem call_am_cases {thread : Option Worker}
    {action : Action commSize Nat} {workers : Worker → WorkerStage}
    (called : state.callAm input rank thread action workers = some state') :
    ∃ am next, (state.ranks rank).amState = some am ∧
      am.step input.config input.handler (thread, action) = some next ∧
      state' = state.withAm rank next workers (state.ranks rank).phase
        (state.network (state.ranks rank).phase ++
          (Exchange.newEvents am next thread).filterMap (Event.message rank)) := by
  obtain ⟨am, present, answered⟩ := Option.bind_eq_some_iff.mp called
  obtain ⟨next, moved, rfl⟩ := Option.map_eq_some_iff.mp answered
  exact ⟨am, next, present, moved, rfl⟩

omit [Fintype Worker] in
theorem deliver_am_cases {thread : Option Worker} {sent index : Nat}
    (delivered : state.deliverAm input rank thread sent index = some state') :
    ∃ am next message, (state.ranks rank).amState = some am ∧
      (state.network sent)[index]? = some message ∧ message.dest = rank ∧
      am.step input.config input.handler
        (thread, .deliver message.source message.records) = some next ∧
      state' = state.withAm rank next (state.ranks rank).workers sent
        ((state.network sent).eraseIdx index) := by
  obtain ⟨am, present, answered⟩ := Option.bind_eq_some_iff.mp delivered
  obtain ⟨message, found, answered⟩ := Option.bind_eq_some_iff.mp answered
  split_ifs at answered with arrives
  obtain ⟨next, moved, rfl⟩ := Option.map_eq_some_iff.mp answered
  exact ⟨am, next, message, present, found, arrives, moved, rfl⟩

end Steps

end IntegerSortLci.Benchmark
