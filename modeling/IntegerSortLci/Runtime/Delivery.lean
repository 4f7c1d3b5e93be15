import IntegerSortLci.Runtime.Exchange
import IntegerSortLci.Runtime.WorkerCalls
import Mathlib.Algebra.BigOperators.Group.Finset.Piecewise
import Mathlib.Algebra.Order.BigOperators.Group.Finset
import Mathlib.Tactic.Abel

/-!
# Exactly-once delivery within a phase

The network ledger says that what `source` handed to LCI for `dest` is what is
in flight plus what was delivered. The send ledger of each thread of `source`
and the receive ledger of each thread of `dest` close the books: every posted
value is unsent, in flight, waiting in an open receive, or handled.
-/

namespace IntegerSortLci.Runtime

open Foundations
open scoped BigOperators

set_option autoImplicit false

variable {rankCount : Nat} {Worker Record Memory : Type}

namespace Event

def acceptedTo (dest : Fin rankCount) : Event rankCount Worker Record → List Record
  | .accepted other records _ => if other = dest then records else []
  | _ => []

def loopedTo (dest : Fin rankCount) : Event rankCount Worker Record → List Record
  | .loopedBack other records => if other = dest then records else []
  | _ => []

def deliveredFrom (source : Fin rankCount) : Event rankCount Worker Record → List Record
  | .delivered other records => if other = source then records else []
  | _ => []

end Event

section Logs

variable {log : Log rankCount Worker Record}

theorem from_source_append (source : Fin rankCount) (first second : List (Fin rankCount × Record)) :
    fromSource source (first ++ second) = fromSource source first ++ fromSource source second :=
  List.filterMap_append

theorem from_source_tagged (source other : Fin rankCount) (records : List Record) :
    fromSource source (records.map (Prod.mk other)) = if other = source then records else [] := by
  unfold fromSource
  rw [List.filterMap_map]
  by_cases same : other = source
  · simp [same]
  · simp [same]

theorem from_source_flat_map (source : Fin rankCount)
    (select : Event rankCount Worker Record → List (Fin rankCount × Record)) :
    fromSource source (log.flatMap select) =
      log.flatMap fun event => fromSource source (select event) := by
  induction log with
  | nil => rfl
  | cons event rest ih => rw [List.flatMap_cons, from_source_append, ih, List.flatMap_cons]

/-- Two readings of a log together. -/
theorem flat_map_split {Value : Type} {select first second : Event rankCount Worker Record →
      List Value}
    (split : ∀ event, select event = first event ++ second event) :
    (↑(log.flatMap select) : Multiset Value) = ↑(log.flatMap first) + ↑(log.flatMap second) := by
  induction log with
  | nil => rfl
  | cons event rest ih =>
      rw [List.flatMap_cons, List.flatMap_cons, List.flatMap_cons, split event]
      simp only [← Multiset.coe_add] at ih ⊢
      rw [ih]
      exact add_add_add_comm _ _ _ _

theorem sent_split (dest : Fin rankCount) :
    (↑(sentTo dest log) : Multiset Record) =
      ↑(log.flatMap (Event.acceptedTo dest)) + ↑(log.flatMap (Event.loopedTo dest)) := by
  apply flat_map_split
  intro event
  cases event <;> simp [Event.sentTo, Event.handOver, Event.acceptedTo, Event.loopedTo]

theorem incoming_split (source : Fin rankCount) :
    (↑(fromSource source (incomingIn log)) : Multiset Record) =
      ↑(log.flatMap (Event.deliveredFrom source)) + ↑(log.flatMap (Event.loopedTo source)) := by
  rw [incomingIn, from_source_flat_map]
  apply flat_map_split
  intro event
  cases event <;>
    simp [Event.incomingRecords, Event.deliveredFrom, Event.loopedTo, from_source_tagged]
  all_goals rfl

end Logs

section Steps

variable [DecidableEq Worker] [Fintype Worker] {cluster : Cluster rankCount Record Memory}
variable {exchange exchange' : Exchange rankCount Worker Record Memory}

theorem gathered_step {Value : Type} {rank : Fin rankCount} {thread : Option Worker}
    {action : Action rankCount Record} {phase : PhaseState rankCount Worker Record Memory}
    {next : ThreadState rankCount Worker Record} {events : Log rankCount Worker Record}
    (step : RankStep cluster exchange rank thread action phase next events)
    (network : List (Message rankCount Record)) (other : Fin rankCount)
    (select : Event rankCount Worker Record → List Value) :
    Exchange.gathered ⟨Function.update exchange.phases rank phase, network⟩ other select =
      exchange.gathered other select + if other = rank then ↑(events.flatMap select) else 0 := by
  unfold Exchange.gathered
  by_cases same : other = rank
  · subst same
    rw [if_pos rfl]
    apply total_step thread
    · simp only [Function.update_self, step.now, step.grown, List.flatMap_append, Multiset.coe_add]
    · intro sibling different
      simp only [Function.update_self, step.now, Function.update_of_ne different]
  · rw [if_neg same, add_zero]
    simp only [Function.update_of_ne same]

/-- The network's side of the ledger. -/
structure Carried (exchange : Exchange rankCount Worker Record Memory) : Prop where
  nonempty : ∀ message ∈ exchange.network, message.records ≠ []
  balanced : ∀ source dest, exchange.gathered source (Event.acceptedTo dest) =
    exchange.inFlight source dest + exchange.gathered dest (Event.deliveredFrom source)

omit [DecidableEq Worker] [Fintype Worker] in
private theorem sent_messages (rank source dest : Fin rankCount)
    (events : Log rankCount Worker Record) :
    ((events.filterMap (Event.message rank)).map (Message.values source dest)).sum =
      if source = rank then ↑(events.flatMap (Event.acceptedTo dest)) else 0 := by
  induction events with
  | nil => simp
  | cons event rest ih =>
      cases handed : event.message rank with
      | none =>
          have silent : event.acceptedTo dest = [] := by
            cases event <;> first | rfl | cases handed
          rw [List.filterMap_cons_none handed, List.flatMap_cons, silent, List.nil_append]
          exact ih
      | some message =>
          rw [List.filterMap_cons_some handed, List.map_cons, List.sum_cons, ih, List.flatMap_cons]
          cases event with
          | accepted other records buffer =>
              obtain rfl := Option.some.inj handed
              by_cases own : source = rank
              · by_cases here : other = dest
                · simp [own, here, Event.acceptedTo, Message.values]
                · simp [own, here, Event.acceptedTo, Message.values]
              · simp [own, Ne.symm own, Message.values]
          | _ => cases handed

private theorem taken_message {network : List (Message rankCount Record)} {index : Nat}
    {message : Message rankCount Record} (found : network[index]? = some message)
    (source dest : Fin rankCount) :
    (network.map (Message.values source dest)).sum =
      ((network.eraseIdx index).map (Message.values source dest)).sum +
        message.values source dest := by
  obtain ⟨bound, rfl⟩ := List.getElem?_eq_some_iff.mp found
  have moved := (List.getElem_cons_eraseIdx_perm bound).map (Message.values source dest)
  rw [← moved.sum_eq, List.map_cons, List.sum_cons, add_comm]

omit [DecidableEq Worker] [Fintype Worker] in
/-- What a delivery takes out of flight it adds to the receiver. -/
private theorem taken_values (message : Message rankCount Record) (source dest : Fin rankCount) :
    message.values source dest =
      if dest = message.dest then
        (↑(([.delivered message.source message.records] : Log rankCount Worker Record).flatMap
          (Event.deliveredFrom source)) : Multiset Record)
      else 0 := by
  unfold Message.values
  by_cases toMe : dest = message.dest
  · subst toMe
    by_cases fromIt : message.source = source
    · simp [fromIt, Event.deliveredFrom]
    · simp [fromIt, Event.deliveredFrom]
  · simp [toMe, Ne.symm toMe]

theorem carried_step {action : ExchangeAction rankCount Worker Record}
    (step : ExchangeStep cluster exchange action exchange')
    (routed : ∀ rank thread, ∀ event ∈ ((exchange'.phases rank).threads thread).log,
      Routed (cluster.config rank) event)
    (carried : Carried exchange) : Carried exchange' := by
  cases step with
  | call rank thread action phase next events step silent =>
      have noDelivery : ∀ source, events.flatMap (Event.deliveredFrom source) = [] := by
        intro source
        apply List.flatMap_eq_nil_iff.mpr
        intro event member
        cases event with
        | delivered other records => exact absurd member (silent other records)
        | _ => rfl
      constructor
      · intro message member
        rcases List.mem_append.mp member with old | new
        · exact carried.nonempty message old
        · obtain ⟨event, inEvents, sent⟩ := List.mem_filterMap.mp new
          cases event with
          | accepted dest records buffer =>
              obtain rfl := Option.some.inj sent
              have logged : .accepted dest records buffer ∈ next.log := by
                rw [step.grown]
                exact List.mem_append_right _ inEvents
              have rule := routed rank thread (.accepted dest records buffer) (by
                simp only [Function.update_self, step.now]
                exact logged)
              exact rule.1
          | _ => cases sent
      · intro source dest
        have flight : Exchange.inFlight (⟨Function.update exchange.phases rank phase,
            exchange.network ++ events.filterMap (Event.message rank)⟩ :
              Exchange rankCount Worker Record Memory) source dest =
            exchange.inFlight source dest +
              if source = rank then ↑(events.flatMap (Event.acceptedTo dest)) else 0 := by
          simp only [Exchange.inFlight]
          rw [List.map_append, List.sum_append, sent_messages]
        rw [gathered_step step, gathered_step step, flight, carried.balanced source dest,
          noDelivery, Multiset.coe_nil, ite_self, add_zero]
        exact add_right_comm _ _ _
  | deliver rank thread index message phase next events found arrives step =>
      have member : message ∈ exchange.network := List.mem_of_getElem? found
      have extended := deliver_grows (thread_step_cases step.ran) (carried.nonempty message member)
      obtain rfl := List.append_cancel_left (step.grown.symm.trans extended)
      have noAccept : ∀ dest : Fin rankCount, ([.delivered message.source message.records] :
          Log rankCount Worker Record).flatMap (Event.acceptedTo dest) = [] := by
        intro dest
        rfl
      constructor
      · intro other inside
        exact carried.nonempty other (List.mem_of_mem_eraseIdx inside)
      · intro source dest
        have balance := carried.balanced source dest
        subst arrives
        rw [gathered_step step, gathered_step step, noAccept, Multiset.coe_nil, ite_self,
          add_zero, balance]
        have taken := @taken_values rankCount Worker Record message source dest
        simp only [Exchange.inFlight]
        rw [taken_message found, taken, add_assoc, add_comm (ite _ _ _)]

variable {memory : Fin rankCount → Memory}
variable {calls : List (ExchangeAction rankCount Worker Record)}

theorem reachable_carried
    (reached : (exchangeSystem cluster).Reachable (fun _ => QuietCall)
      (.initial cluster memory) exchange) : Carried exchange := by
  apply reached.invariant
  · constructor
    · intro message member
      cases member
    · intro source dest
      simp [Exchange.gathered, Exchange.inFlight, Exchange.initial, PhaseState.initial,
        ThreadState.initial]
  · intro before after action prior carried quiet stepped
    apply carried_step (exchange_step_cases stepped) _ carried
    intro rank thread
    exact reachable_routed (exchange_thread_reachable (prior.next quiet stepped) rank thread)

omit [DecidableEq Worker] in
/-- A loopback batch never leaves its rank. -/
private theorem looped_same_rank
    (routed : ∀ rank thread, ∀ event ∈ ((exchange.phases rank).threads thread).log,
      Routed (cluster.config rank) event) (source dest : Fin rankCount) :
    exchange.gathered source (Event.loopedTo dest) =
      exchange.gathered dest (Event.loopedTo source) := by
  by_cases same : source = dest
  · rw [same]
  · have none : ∀ rank other, other ≠ rank →
        exchange.gathered rank (Event.loopedTo other) = 0 := by
      intro rank other different
      apply Finset.sum_eq_zero
      intro thread _
      rw [Multiset.coe_eq_zero]
      apply List.flatMap_eq_nil_iff.mpr
      intro event member
      have rule := routed rank thread event member
      cases event with
      | loopedBack target records =>
          have own : target = rank := (loops_back_rank rule).trans (cluster.rank_eq rank)
          subst own
          exact if_neg (Ne.symm different)
      | _ => rfl
    rw [none source dest (Ne.symm same), none dest source same]

/-- Conservation: each posted value is in exactly one place. -/
theorem values_conserved
    (reached : (exchangeSystem cluster).Reachable (fun _ => QuietCall)
      (.initial cluster memory) exchange) (source dest : Fin rankCount) :
    exchange.posted source dest =
      exchange.unsent source dest + exchange.inFlight source dest +
        exchange.receiving source dest + exchange.handled source dest := by
  have run := exchange_thread_reachable reached
  have sending : exchange.posted source dest =
      exchange.gathered source (Event.acceptedTo dest) +
        exchange.gathered source (Event.loopedTo dest) + exchange.unsent source dest := by
    unfold Exchange.posted Exchange.gathered Exchange.unsent
    rw [← Finset.sum_add_distrib, ← Finset.sum_add_distrib]
    apply Finset.sum_congr rfl
    intro thread _
    have ledger := reachable_ledger (reachable_safe (run source thread))
    have posted := ledger.posted dest
    unfold postedTo at posted
    rw [posted, ← Multiset.coe_add, sent_split]
  have receiving : exchange.gathered dest (Event.deliveredFrom source) +
      exchange.gathered dest (Event.loopedTo source) =
        exchange.handled source dest + exchange.receiving source dest := by
    unfold Exchange.handled Exchange.gathered Exchange.receiving
    rw [← Finset.sum_add_distrib, ← Finset.sum_add_distrib]
    apply Finset.sum_congr rfl
    intro thread _
    have received := reachable_received (run dest thread)
    rw [← incoming_split, received.handled, from_source_append, ← Multiset.coe_add, invokedIn,
      from_source_flat_map]
    rfl
  have looped : exchange.gathered source (Event.loopedTo dest) =
      exchange.gathered dest (Event.loopedTo source) :=
    looped_same_rank (fun rank thread => reachable_routed (run rank thread)) source dest
  have balanced := (reachable_carried reached).balanced source dest
  calc exchange.posted source dest
      = exchange.inFlight source dest + exchange.gathered dest (Event.deliveredFrom source) +
          exchange.gathered dest (Event.loopedTo source) + exchange.unsent source dest := by
        rw [sending, balanced, looped]
    _ = exchange.inFlight source dest +
          (exchange.handled source dest + exchange.receiving source dest) +
          exchange.unsent source dest := by rw [add_assoc (exchange.inFlight _ _), receiving]
    _ = exchange.unsent source dest + exchange.inFlight source dest +
          exchange.receiving source dest + exchange.handled source dest := by abel

omit [DecidableEq Worker] in
/-- The handler calls at `dest`, source by source. -/
theorem handled_total (exchange : Exchange rankCount Worker Record Memory)
    (dest : Fin rankCount) :
    ∑ source, exchange.handled source dest =
      ∑ thread, (↑((invokedIn ((exchange.phases dest).threads thread).log).map Prod.snd) :
        Multiset Record) := by
  have bySource : ∀ records : List (Fin rankCount × Record),
      ∑ source, (↑(fromSource source records) : Multiset Record) = ↑(records.map Prod.snd) := by
    intro records
    induction records with
    | nil => simp [fromSource]
    | cons tagged rest ih =>
        have head : ∀ source, (↑(fromSource source (tagged :: rest)) : Multiset Record) =
            (if tagged.1 = source then {tagged.2} else 0) + ↑(fromSource source rest) := by
          intro source
          unfold fromSource
          by_cases own : tagged.1 = source
          · simp [own]
          · simp [own]
        simp only [head, Finset.sum_add_distrib, ih]
        simp
  have unfolded : ∀ source, exchange.handled source dest =
      ∑ thread, ↑(fromSource source
        (invokedIn ((exchange.phases dest).threads thread).log)) := by
    intro source
    unfold Exchange.handled Exchange.gathered
    apply Finset.sum_congr rfl
    intro thread _
    rw [invokedIn, from_source_flat_map]
    rfl
  simp only [unfolded]
  rw [Finset.sum_comm]
  exact Finset.sum_congr rfl fun thread _ => bySource _

/-- A handler call completes after it began. -/
theorem completed_calls_le
    (reached : (exchangeSystem cluster).Reachable (fun _ => QuietCall)
      (.initial cluster memory) exchange) (dest : Fin rankCount) :
    exchange.completedCalls dest ≤ ∑ source, Multiset.card (exchange.handled source dest) := by
  rw [← Multiset.card_sum, handled_total, Multiset.card_sum]
  apply Finset.sum_le_sum
  intro thread _
  have received := reachable_received (exchange_thread_reachable reached dest thread)
  rw [Multiset.coe_card, List.length_map, received.invoked, List.length_append]
  exact Nat.le_add_right _ _

/-- `recv_count_` counts whole messages, after their last handler call. -/
theorem recv_count_completed
    (reached : (exchangeSystem cluster).Reachable (fun _ => QuietCall)
      (.initial cluster memory) exchange) (dest : Fin rankCount) :
    (exchange.phases dest).recvCount ≤ exchange.completedCalls dest ∧
      ((exchange.phases dest).NoReceive →
        (exchange.phases dest).recvCount = exchange.completedCalls dest) := by
  have total := recv_count_total (exchange_phase_reachable reached dest)
  have received := fun thread => reachable_received (exchange_thread_reachable reached dest thread)
  rw [total]
  constructor
  · apply Finset.sum_le_sum
    intro thread _
    have counted := (received thread).counted
    have bounded := (received thread).bounded
    omega
  · intro quietRank
    apply Finset.sum_congr rfl
    intro thread _
    obtain ⟨noPending, noRunning, notOpened⟩ := resting_of_no_receive (quietRank thread)
    have counted := (received thread).counted
    rw [noPending, noRunning, notOpened] at counted
    simp only [List.length_nil] at counted
    omega

/-- The value that a call of `source` posts to `dest`. -/
def ExchangeAction.posting (source dest : Fin rankCount) :
    ExchangeAction rankCount Worker Record → Multiset Record
  | .call rank _ action => if rank = source then ↑(action.posting dest) else 0
  | .deliver _ _ _ => 0

/-- The values of calls of `post_am` that still wait for a packet to write to. -/
def Exchange.pushing (exchange : Exchange rankCount Worker Record Memory)
    (source dest : Fin rankCount) : Multiset Record :=
  ∑ thread, ↑(pushingIn dest ((exchange.phases source).threads thread).stack)

omit [DecidableEq Worker] in
theorem posted_pushing (exchange : Exchange rankCount Worker Record Memory)
    (source dest : Fin rankCount) :
    exchange.posted source dest + exchange.pushing source dest =
      (exchange.phases source).submitted dest := by
  unfold Exchange.posted Exchange.gathered Exchange.pushing PhaseState.submitted
  rw [← Finset.sum_add_distrib]
  exact Finset.sum_congr rfl fun thread _ => Multiset.coe_add _ _

/-- A call submits the value that it posts, on its own rank. -/
theorem exchange_submitted {call : ExchangeAction rankCount Worker Record}
    (stepped : exchange.step cluster call = some exchange') (quiet : QuietCall call)
    (source dest : Fin rankCount) :
    (exchange'.phases source).submitted dest =
      (exchange.phases source).submitted dest + call.posting source dest := by
  cases exchange_step_cases stepped with
  | call rank thread action phase next events step silent =>
      unfold ExchangeAction.posting
      dsimp only
      by_cases own : rank = source
      · subst own
        rw [Function.update_self, if_pos rfl]
        exact phase_submitted_total step.moved quiet dest
      · rw [Function.update_of_ne (Ne.symm own), if_neg own, add_zero]
  | deliver rank thread index message phase next events found arrives step =>
      have nothing : ExchangeAction.posting source dest
          (.deliver rank thread index : ExchangeAction rankCount Worker Record) = 0 := rfl
      rw [nothing]
      dsimp only
      by_cases own : rank = source
      · subst own
        rw [Function.update_self]
        exact phase_submitted_total step.moved trivial dest
      · rw [Function.update_of_ne (Ne.symm own), add_zero]

/-- What the calls of a run post is posted, or its call waits for a packet. -/
theorem calls_submitted
    (ran : (exchangeSystem cluster).run (.initial cluster memory) calls = some exchange)
    (quiet : ∀ call ∈ calls, QuietCall call) (source dest : Fin rankCount) :
    exchange.posted source dest + exchange.pushing source dest =
      (calls.map (ExchangeAction.posting source dest)).sum := by
  have submitted : (exchange.phases source).submitted dest =
      ((Exchange.initial cluster memory).phases source).submitted dest +
        (calls.map (ExchangeAction.posting source dest)).sum :=
    TransitionSystem.run_total (fun state => (state.phases source).submitted dest) _
      (fun stepped silent => exchange_submitted stepped silent source dest) ran quiet
  have fresh : ((Exchange.initial cluster memory :
      Exchange rankCount Worker Record Memory).phases source).submitted dest = 0 :=
    initial_submitted (memory source) dest
  rw [posted_pushing, submitted, fresh, zero_add]

/-- Exactly-once delivery of typed active messages. -/
theorem delivered_exactly_once
    (ran : (exchangeSystem cluster).run (.initial cluster memory) calls = some exchange)
    (quiet : ∀ call ∈ calls, QuietCall call) (source dest : Fin rankCount) :
    ((calls.map (ExchangeAction.posting source dest)).sum =
      exchange.posted source dest + exchange.pushing source dest) ∧
    (exchange.posted source dest =
      exchange.unsent source dest + exchange.inFlight source dest +
        exchange.receiving source dest + exchange.handled source dest) ∧
    (exchange.phases dest).recvCount ≤ exchange.completedCalls dest ∧
    ((exchange.phases dest).NoReceive →
      (exchange.phases dest).recvCount = exchange.completedCalls dest) ∧
    ((exchange.phases source).Flushed → exchange.inFlight source dest = 0 →
      (exchange.phases dest).NoReceive →
        exchange.posted source dest = exchange.handled source dest) := by
  have reached : (exchangeSystem cluster).Reachable (fun _ => QuietCall)
      (.initial cluster memory) exchange :=
    TransitionSystem.run_reachable ran
      (TransitionSystem.permitted_run_of_all fun _ call member => quiet call member)
  have conserved := values_conserved reached source dest
  have counted := recv_count_completed reached dest
  refine ⟨(calls_submitted ran quiet source dest).symm, conserved, counted.1, counted.2, ?_⟩
  intro flushed arrived resting
  have allSent : exchange.unsent source dest = 0 := by
    apply Finset.sum_eq_zero
    intro thread _
    have silent := reachable_quiet (exchange_thread_reachable reached source thread)
    have empty := silent.flushed (flushed thread) dest
    rw [Multiset.coe_eq_zero, unsent]
    split
    · exact empty
    · rfl
  have allTaken : exchange.receiving source dest = 0 := by
    apply Finset.sum_eq_zero
    intro thread _
    rw [(resting_of_no_receive (resting thread)).1]
    rfl
  rw [conserved, allSent, arrived, allTaken]
  simp

end Steps

section Runs

private def networkOnly {rankCount : Nat} (rank : Fin rankCount) : PhaseConfig rankCount where
  rank := rank
  options := { useLoopback := false, useUpacket := false, batchRecords := 1 }
  maxBcopySize := 8
  recordSize := 4
  batchRecords := 1
  profilingEnabled := false
  chosen := by decide

private def networkCluster (rankCount : Nat) : Cluster rankCount Nat Nat where
  config := networkOnly
  handler _ memory _ record := memory + record
  rank_eq _ := rfl

/-- A record posted by one rank for another, with the flush behind it. -/
private def sendRecord (rank other : Fin 2) (record : Nat) : List (ExchangeAction 2 Unit Nat) :=
  [.call rank (some ()) (.postAm other.val record), .call rank (some ()) (.postAmAnswer false),
    .call rank (some ()) .progressEnd, .call rank (some ()) (.resume 0),
    .call rank (some ()) (.resume 0), .call rank (some ()) .flush,
    .call rank (some ()) (.resume 0), .call rank (some ()) (.resume 0),
    .call rank (some ()) (.resume 0)]

/-- A record taken from the network by a call of `progress`. -/
private def takeRecord (rank : Fin 2) : List (ExchangeAction 2 Unit Nat) :=
  [.call rank (some ()) .progress, .deliver rank (some ()) 0, .call rank (some ()) (.resume 0),
    .call rank (some ()) .handlerReturn, .call rank (some ()) (.resume 0),
    .call rank (some ()) (.resume 0), .call rank (some ()) .progressEnd,
    .call rank (some ()) (.resume 0)]

private def crossing (first second : Fin 2) : List (ExchangeAction 2 Unit Nat) :=
  sendRecord first second 7 ++ sendRecord second first 9 ++ takeRecord second ++ takeRecord first

/-- Nothing is on its way from `source` to `dest`, and nothing waits on either. -/
private def settled (exchange : Exchange 2 Unit Nat Nat) (source dest : Fin 2) : Bool :=
  decide ((∀ thread, flushedSincePush ((exchange.phases source).threads thread).log = true) ∧
    exchange.inFlight source dest = 0 ∧ exchange.pushing source dest = 0 ∧
      ∀ thread, ((exchange.phases dest).threads thread).stack = [])

private theorem crossing_settled :
    ((exchangeSystem (networkCluster 2)).run (.initial (networkCluster 2) fun _ => 0)
        (crossing 0 1)).map (fun exchange => (settled exchange 0 1, settled exchange 1 0)) =
      some (true, true) := by
  decide +kernel

/-- Each of the two ranks has handled what the other one posted. -/
theorem delivered_exactly_once_crossing :
    ∃ exchange : Exchange 2 Unit Nat Nat,
      (exchangeSystem (networkCluster 2)).run (.initial (networkCluster 2) fun _ => 0)
          (crossing 0 1) = some exchange ∧
        exchange.handled 0 1 = {7} ∧ exchange.handled 1 0 = {9} ∧
          (exchange.phases 0).recvCount = exchange.completedCalls 0 := by
  obtain ⟨exchange, executed, ends⟩ := Option.map_eq_some_iff.mp crossing_settled
  have quiet : ∀ call ∈ crossing 0 1, QuietCall call := by
    simp [crossing, sendRecord, takeRecord, QuietCall, QuietAction]
  have resting : ∀ dest : Fin 2, (∀ thread, ((exchange.phases dest).threads thread).stack = []) →
      (exchange.phases dest).NoReceive := by
    intro dest idle thread frame member
    rw [idle thread] at member
    cases member
  simp only [settled, Prod.mk.injEq, decide_eq_true_eq] at ends
  obtain ⟨⟨flushed, arrived, written, idle⟩, otherFlushed, otherArrived, otherWritten,
    otherIdle⟩ := ends
  obtain ⟨posts, -, -, -, delivered⟩ := delivered_exactly_once executed quiet 0 1
  obtain ⟨otherPosts, -, -, counted, otherDelivered⟩ :=
    delivered_exactly_once executed quiet 1 0
  refine ⟨exchange, executed, ?_, ?_, counted (resting 0 otherIdle)⟩
  · rw [← delivered flushed arrived (resting 1 idle), ← add_zero (exchange.posted 0 1),
      ← written, ← posts]
    decide
  · rw [← otherDelivered otherFlushed otherArrived (resting 0 otherIdle),
      ← add_zero (exchange.posted 1 0), ← otherWritten, ← otherPosts]
    decide

/-- One record, sent to the own rank through LCI and accepted. -/
private def acceptedRecord (rank : Fin 1) : List (ExchangeAction 1 Unit Nat) :=
  [.call rank (some ()) (.postAm 0 7), .call rank (some ()) (.postAmAnswer false)]

/-- LCI has accepted the batch and `release` has not run: the value is in the
buffer and in flight. -/
theorem accepted_value_still_buffered :
    ∃ exchange : Exchange 1 Unit Nat Nat,
      (exchangeSystem (networkCluster 1)).run (.initial (networkCluster 1) fun _ => 0)
          (acceptedRecord 0) = some exchange ∧
        exchange.posted 0 0 ≠
          exchange.buffered 0 0 + exchange.inFlight 0 0 + exchange.handled 0 0 := by
  refine ⟨_, rfl, ?_⟩
  intro equal
  have sizes := congrArg Multiset.card equal
  exact absurd sizes (by decide)

end Runs

end IntegerSortLci.Runtime
