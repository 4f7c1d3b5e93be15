import IntegerSortLci.Runtime.PhaseState
import Mathlib.Algebra.BigOperators.Group.Multiset.Basic

/-!
# All ranks inside one active-message phase

The ranks of one phase and the messages LCI has accepted and not yet delivered.
A delivery takes any message addressed to the rank, so messages overtake each
other freely; each is delivered once. The ledger of a pair of ranks adds up
over the sender's and the receiver's threads.
-/

namespace IntegerSortLci.Runtime

open Foundations
open scoped BigOperators

set_option autoImplicit false

variable {rankCount : Nat} {Worker Record Memory : Type}

structure Message (rankCount : Nat) (Record : Type) where
  source : Fin rankCount
  dest : Fin rankCount
  records : List Record
  deriving DecidableEq, Repr

/-- The values a message carries from `source` to `dest`. -/
def Message.values (source dest : Fin rankCount) (message : Message rankCount Record) :
    Multiset Record :=
  if message.source = source ∧ message.dest = dest then ↑message.records else 0

/-- The phase as each rank registered it. -/
structure Cluster (rankCount : Nat) (Record Memory : Type) where
  config : Fin rankCount → PhaseConfig rankCount
  handler : Fin rankCount → AmHandler rankCount Record Memory
  rank_eq : ∀ rank, (config rank).rank = rank

structure Exchange (rankCount : Nat) (Worker Record Memory : Type) where
  phases : Fin rankCount → PhaseState rankCount Worker Record Memory
  network : List (Message rankCount Record)

inductive ExchangeAction (rankCount : Nat) (Worker Record : Type) where
  | call (rank : Fin rankCount) (thread : Option Worker) (action : Action rankCount Record)
  | deliver (rank : Fin rankCount) (thread : Option Worker) (index : Nat)

/-- The message an event hands to LCI. -/
def Event.message (rank : Fin rankCount) :
    Event rankCount Worker Record → Option (Message rankCount Record)
  | .accepted dest records _ => some ⟨rank, dest, records⟩
  | _ => none

def Action.isDelivery : Action rankCount Record → Bool
  | .deliver _ _ => true
  | _ => false

namespace Exchange

variable [DecidableEq Worker] (cluster : Cluster rankCount Record Memory)

def initial (memory : Fin rankCount → Memory) : Exchange rankCount Worker Record Memory where
  phases rank := .initial (cluster.config rank) (memory rank)
  network := []

/-- The events a thread added between two states of its rank. -/
def newEvents (before after : PhaseState rankCount Worker Record Memory)
    (thread : Option Worker) : Log rankCount Worker Record :=
  (after.threads thread).log.drop (before.threads thread).log.length

def step (exchange : Exchange rankCount Worker Record Memory) :
    ExchangeAction rankCount Worker Record → Option (Exchange rankCount Worker Record Memory)
  | .call rank thread action =>
      if action.isDelivery then none
      else
        ((exchange.phases rank).step (cluster.config rank) (cluster.handler rank)
          (thread, action)).map fun phase =>
            { phases := Function.update exchange.phases rank phase
              network := exchange.network ++
                (newEvents (exchange.phases rank) phase thread).filterMap (Event.message rank) }
  | .deliver rank thread index =>
      match exchange.network[index]? with
      | some message =>
          if message.dest = rank then
            ((exchange.phases rank).step (cluster.config rank) (cluster.handler rank)
              (thread, .deliver message.source message.records)).map fun phase =>
                { phases := Function.update exchange.phases rank phase
                  network := exchange.network.eraseIdx index }
          else none
      | none => none

end Exchange

def exchangeSystem [DecidableEq Worker] (cluster : Cluster rankCount Record Memory) :
    TransitionSystem (Exchange rankCount Worker Record Memory)
      (ExchangeAction rankCount Worker Record) where
  step := Exchange.step cluster

/-- No handler calls back into the library, on any rank. -/
def QuietCall : ExchangeAction rankCount Worker Record → Prop
  | .call _ _ action => QuietAction action
  | .deliver _ _ _ => True

section Totals

variable [Fintype Worker]

namespace Exchange

/-- What `rank`'s threads collected in their logs. -/
def gathered {Value : Type} (exchange : Exchange rankCount Worker Record Memory)
    (rank : Fin rankCount) (select : Event rankCount Worker Record → List Value) :
    Multiset Value :=
  ∑ thread, ↑((((exchange.phases rank).threads thread).log).flatMap select)

/-- The values posted by `source` to `dest`. -/
def posted (exchange : Exchange rankCount Worker Record Memory) (source dest : Fin rankCount) :
    Multiset Record :=
  exchange.gathered source (Event.postedTo dest)

/-- The values in the aggregation buffers of `source` for `dest`. -/
def buffered (exchange : Exchange rankCount Worker Record Memory)
    (source dest : Fin rankCount) : Multiset Record :=
  ∑ thread, ↑((((exchange.phases source).threads thread).sendBuffers dest).records)

/-- The buffered values that are not part of a batch already handed over. -/
def unsent (exchange : Exchange rankCount Worker Record Memory)
    (source dest : Fin rankCount) : Multiset Record :=
  ∑ thread, ↑(Runtime.unsent ((exchange.phases source).threads thread).sendBuffers
    ((exchange.phases source).threads thread).stack dest)

/-- The values in accepted messages from `source` to `dest` that are not delivered. -/
def inFlight (exchange : Exchange rankCount Worker Record Memory)
    (source dest : Fin rankCount) : Multiset Record :=
  (exchange.network.map (Message.values source dest)).sum

end Exchange

/-- The records of a tagged list that come from `source`. -/
def fromSource (source : Fin rankCount) (records : List (Fin rankCount × Record)) : List Record :=
  records.filterMap fun tagged => if tagged.1 = source then some tagged.2 else none

def Event.invokedFrom (source : Fin rankCount) (event : Event rankCount Worker Record) :
    List Record :=
  fromSource source event.invokedRecords

namespace Exchange

/-- The values of messages under receive at `dest` whose handler call has not begun. -/
def receiving (exchange : Exchange rankCount Worker Record Memory)
    (source dest : Fin rankCount) : Multiset Record :=
  ∑ thread, ↑(fromSource source (pendingOf ((exchange.phases dest).threads thread).stack))

/-- The values from `source` for which the handler of `dest` was or is being invoked. -/
def handled (exchange : Exchange rankCount Worker Record Memory)
    (source dest : Fin rankCount) : Multiset Record :=
  exchange.gathered dest (Event.invokedFrom source)

/-- The number of completed handler invocations at `dest`. -/
def completedCalls (exchange : Exchange rankCount Worker Record Memory)
    (dest : Fin rankCount) : Nat :=
  ∑ thread, (completedIn ((exchange.phases dest).threads thread).log).length

end Exchange
end Totals

section Steps

variable [DecidableEq Worker] {cluster : Cluster rankCount Record Memory}
variable {exchange exchange' : Exchange rankCount Worker Record Memory}

/-- What one step does: a thread of `rank` goes from its state to `next`, with
`events` added to its log. -/
structure RankStep (cluster : Cluster rankCount Record Memory)
    (exchange : Exchange rankCount Worker Record Memory) (rank : Fin rankCount)
    (thread : Option Worker) (action : Action rankCount Record)
    (phase : PhaseState rankCount Worker Record Memory)
    (next : ThreadState rankCount Worker Record) (events : Log rankCount Worker Record) :
    Prop where
  moved : (exchange.phases rank).step (cluster.config rank) (cluster.handler rank)
    (thread, action) = some phase
  ran : threadStep (cluster.config rank) thread ((exchange.phases rank).threads thread) action =
    some next
  grown : next.log = ((exchange.phases rank).threads thread).log ++ events
  now : phase.threads = Function.update (exchange.phases rank).threads thread next

theorem rank_step_of_phase_step {rank : Fin rankCount} {thread : Option Worker}
    {action : Action rankCount Record} {phase : PhaseState rankCount Worker Record Memory}
    (moved : (exchange.phases rank).step (cluster.config rank) (cluster.handler rank)
      (thread, action) = some phase) :
    ∃ next, RankStep cluster exchange rank thread action phase next
      (Exchange.newEvents (exchange.phases rank) phase thread) := by
  obtain ⟨next, events, ran, grown, rfl⟩ := phase_step_cases moved
  refine ⟨next, moved, ran, ?_, absorb_all_threads _⟩
  unfold Exchange.newEvents
  rw [absorb_all_threads]
  simp only [Function.update_self]
  rw [grown, List.drop_left]

inductive ExchangeStep (cluster : Cluster rankCount Record Memory)
    (exchange : Exchange rankCount Worker Record Memory) :
    ExchangeAction rankCount Worker Record → Exchange rankCount Worker Record Memory → Prop where
  | call (rank : Fin rankCount) (thread : Option Worker) (action : Action rankCount Record)
      (phase : PhaseState rankCount Worker Record Memory)
      (next : ThreadState rankCount Worker Record) (events : Log rankCount Worker Record)
      (step : RankStep cluster exchange rank thread action phase next events)
      (silent : ∀ source records, .delivered source records ∉ events) :
      ExchangeStep cluster exchange (.call rank thread action)
        { phases := Function.update exchange.phases rank phase
          network := exchange.network ++ events.filterMap (Event.message rank) }
  | deliver (rank : Fin rankCount) (thread : Option Worker) (index : Nat)
      (message : Message rankCount Record) (phase : PhaseState rankCount Worker Record Memory)
      (next : ThreadState rankCount Worker Record) (events : Log rankCount Worker Record)
      (found : exchange.network[index]? = some message) (arrives : message.dest = rank)
      (step : RankStep cluster exchange rank thread (.deliver message.source message.records)
        phase next events) :
      ExchangeStep cluster exchange (.deliver rank thread index)
        { phases := Function.update exchange.phases rank phase
          network := exchange.network.eraseIdx index }

theorem exchange_step_cases {action : ExchangeAction rankCount Worker Record}
    (stepped : exchange.step cluster action = some exchange') :
    ExchangeStep cluster exchange action exchange' := by
  cases action with
  | call rank thread action =>
      simp only [Exchange.step] at stepped
      split at stepped
      case isTrue => cases stepped
      case isFalse noDelivery =>
          obtain ⟨phase, moved, rfl⟩ := Option.map_eq_some_iff.mp stepped
          obtain ⟨next, step⟩ := rank_step_of_phase_step moved
          refine .call rank thread action phase next _ step ?_
          have grows := step_grows (thread_step_cases step.ran) (by
            rintro source records rfl
            exact noDelivery rfl)
          obtain ⟨later, extended, silent⟩ := grows
          rw [List.append_cancel_left (step.grown.symm.trans extended)]
          exact silent
  | deliver rank thread index =>
      simp only [Exchange.step] at stepped
      split at stepped
      case h_1 message found =>
          split_ifs at stepped with arrives
          obtain ⟨phase, moved, rfl⟩ := Option.map_eq_some_iff.mp stepped
          obtain ⟨next, step⟩ := rank_step_of_phase_step moved
          exact .deliver rank thread index message phase next _ found arrives step
      case h_2 => cases stepped

/-- Each rank of a reachable exchange has had a quiet run of its own phase. -/
theorem exchange_phase_reachable {memory : Fin rankCount → Memory}
    (reached : (exchangeSystem cluster).Reachable (fun _ => QuietCall)
      (.initial cluster memory) exchange) (rank : Fin rankCount) :
    (phaseSystem (cluster.config rank) (cluster.handler rank)).Reachable
      (fun _ call => QuietAction call.2) (.initial (cluster.config rank) (memory rank))
      (exchange.phases rank) := by
  induction reached with
  | start => exact .start
  | next prior allowed stepped ih =>
      have carried : ∀ (mover : Fin rankCount) (thread : Option Worker)
          (action : Action rankCount Record)
          (phase : PhaseState rankCount Worker Record Memory)
          (before : Exchange rankCount Worker Record Memory)
          (moved : (before.phases mover).step (cluster.config mover) (cluster.handler mover)
            (thread, action) = some phase) (quiet : QuietAction action)
          (reached : (phaseSystem (cluster.config rank) (cluster.handler rank)).Reachable
            (fun _ call => QuietAction call.2) (.initial (cluster.config rank) (memory rank))
            (before.phases rank)),
          (phaseSystem (cluster.config rank) (cluster.handler rank)).Reachable
            (fun _ call => QuietAction call.2) (.initial (cluster.config rank) (memory rank))
            (Function.update before.phases mover phase rank) := by
        intro mover thread action phase before moved quiet reached
        by_cases same : rank = mover
        · subst same
          rw [Function.update_self]
          exact reached.next quiet moved
        · rw [Function.update_of_ne same]
          exact reached
      cases exchange_step_cases stepped with
      | call mover thread action phase next events step silent =>
          exact carried mover thread action phase _ step.moved allowed ih
      | deliver mover thread index message phase next events found arrives step =>
          exact carried mover thread _ phase _ step.moved trivial ih

theorem exchange_thread_reachable {memory : Fin rankCount → Memory}
    (reached : (exchangeSystem cluster).Reachable (fun _ => QuietCall)
      (.initial cluster memory) exchange) (rank : Fin rankCount) (thread : Option Worker) :
    (threadSystem (cluster.config rank) thread).Reachable (fun _ => QuietAction)
      (.initial (cluster.config rank)) ((exchange.phases rank).threads thread) :=
  phase_thread_reachable (exchange_phase_reachable reached rank) thread

end Steps

end IntegerSortLci.Runtime
