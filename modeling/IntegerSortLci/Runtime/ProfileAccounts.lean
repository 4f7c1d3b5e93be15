import IntegerSortLci.Runtime.PhaseState
import IntegerSortLci.Runtime.ProfileScopes
import IntegerSortLci.Runtime.WorkerCalls
import Mathlib.Algebra.BigOperators.Fin
import Mathlib.Algebra.Order.BigOperators.Group.Finset

/-!
# What the profile counters add up to

At a point where no call is executing, the flush counters of a rank account for
every value posted and no longer buffered, the receive counters for every value
counted in `recv_count`, and each worker's counters for its own calls.
-/

namespace IntegerSortLci.Runtime

open Foundations
open scoped BigOperators

set_option autoImplicit false

variable {rankCount : Nat} {Worker Record Memory : Type}

namespace Event

def postedValues : Event rankCount Worker Record → Nat
  | .posted _ _ _ _ => 1
  | _ => 0

/-- The records of a measured flush to `dest`. -/
def flushedTo (dest : Fin rankCount) : Event rankCount Worker Record → Nat
  | .flushed other _ recordCount _ _ => if other = dest then recordCount else 0
  | _ => 0

def loopedValues : Event rankCount Worker Record → Nat
  | .loopedBack _ records => records.length
  | _ => 0

/-- The records of a received loopback message. -/
def loopbackReceived : Event rankCount Worker Record → Nat
  | .received true _ recordCount _ _ => recordCount
  | _ => 0

def progressReturns : Event rankCount Worker Record → Nat
  | .progressReturned => 1
  | _ => 0

end Event

/-- The size of the loopback message in the open receive. -/
def openLoopback : Stack rankCount Worker Record → Nat
  | .receive _ true _ recordCount _ _ :: _ => recordCount
  | _ => 0

/-- The size of the batch that is handed over for `dest` and not yet released. -/
def handedLength (dest : Fin rankCount) (stack : Stack rankCount Worker Record) : Nat :=
  ((handedOverBy dest stack).getD []).length

/-- The measured flushes of a thread against the batches it sent. -/
structure Metered (stack : Stack rankCount Worker Record) (log : Log rankCount Worker Record) :
    Prop where
  flushed : ∀ dest, tally (Event.flushedTo dest) log + handedLength dest stack =
    (sentTo dest log).length
  looped : tally Event.loopedValues log = tally Event.loopbackReceived log + openLoopback stack

variable {config : PhaseConfig rankCount} {self : Option Worker}
variable {stack below : Stack rankCount Worker Record} {log : Log rankCount Worker Record}
variable {frame : Frame rankCount Worker Record} {dest : Fin rankCount}
variable {event : Event rankCount Worker Record}

section Meters

theorem open_loopback_resting (resting : Resting stack) : openLoopback stack = 0 := by
  obtain ⟨_, _, notOpened⟩ := resting
  cases stack with
  | nil => rfl
  | cons frame below =>
      cases frame with
      | receive source loopback captured recordCount pending running =>
          cases loopback with
          | true => exact notOpened
          | false => rfl
      | _ => rfl

theorem Metered.plain_event (metered : Metered stack log) (plain : event.plain = true) :
    Metered stack (log ++ [event]) := by
  have silent : (∀ dest, event.flushedTo dest = 0) ∧ (∀ dest, event.sentTo dest = []) ∧
      event.loopedValues = 0 ∧ event.loopbackReceived = 0 := by
    cases event <;> first | exact ⟨fun _ => rfl, fun _ => rfl, rfl, rfl⟩ | cases plain
  obtain ⟨noFlush, noSend, noLoop, noReceive⟩ := silent
  constructor
  · intro dest
    rw [tally_append, sent_to_append, sent_to_single, noSend, List.append_nil, tally_cons,
      noFlush, tally_nil]
    exact metered.flushed dest
  · rw [tally_append, tally_append, tally_cons, tally_cons, noLoop, noReceive, tally_nil, tally_nil]
    exact metered.looped

theorem Metered.restack (metered : Metered stack log)
    {stack' : Stack rankCount Worker Record}
    (handed : ∀ dest, handedOverBy dest stack' = handedOverBy dest stack)
    (opened : openLoopback stack' = openLoopback stack) : Metered stack' log := by
  constructor
  · intro dest
    rw [handedLength, handed]
    exact metered.flushed dest
  · rw [opened]
    exact metered.looped

/-- A frame that hands nothing over comes or goes while no receive is open. -/
theorem Metered.push (metered : Metered stack log) (resting : Resting stack)
    (neutral : frame.handedOver = none) (low : frame.level < 4) : Metered (frame :: stack) log := by
  apply metered.restack
  · intro dest
    exact handed_over_by_neutral neutral
  · rw [open_loopback_resting resting, open_loopback_resting (resting_of_level low)]

theorem Metered.pop (metered : Metered (frame :: below) log) (resting : Resting below)
    (neutral : frame.handedOver = none) (low : frame.level < 4) : Metered below log := by
  apply metered.restack
  · intro dest
    exact (handed_over_by_neutral neutral).symm
  · rw [open_loopback_resting resting, open_loopback_resting (resting_of_level low)]

/-- A batch is handed over, and its flush is not yet measured. -/
private theorem flushed_hand_over {records : List Record}
    (flushed : ∀ dest, tally (Event.flushedTo dest) log + handedLength dest stack =
      (sentTo dest log).length)
    (free : handedOverBy dest stack = none) (handed : frame.handedOver = some (dest, records))
    (recorded : event.handOver = some (dest, records)) (other : Fin rankCount) :
    tally (Event.flushedTo other) (log ++ [event]) + handedLength other (frame :: stack) =
      (sentTo other (log ++ [event])).length := by
  have target := target_of_handed_over handed
  have noFlush : event.flushedTo other = 0 := by
    cases event <;> first | rfl | cases recorded
  have before := flushed other
  rw [tally_append, sent_to_append, sent_to_single, tally_cons, noFlush, tally_nil,
    List.length_append]
  by_cases same : other = dest
  · subst same
    simp only [handedLength, free, handed_over_by_owner handed, Event.sentTo, recorded,
      Option.getD_some, Option.getD_none, List.length_nil, if_true] at before ⊢
    omega
  · simp only [handedLength, handed_over_by_other target same, Event.sentTo, recorded,
      if_neg (Ne.symm same), List.length_nil] at before ⊢
    omega

theorem Metered.accept (metered : Metered stack log) (resting : Resting stack)
    (free : handedOverBy dest stack = none) (records : List Record) (buffer : Option BufferPtr)
    (recordCount : Nat) (previous : Option Worker) :
    Metered (.send dest (.accepted records) recordCount previous :: stack)
      (log ++ [.accepted dest records buffer]) := by
  constructor
  · exact flushed_hand_over metered.flushed free rfl rfl
  · have before := metered.looped
    rw [open_loopback_resting resting] at before
    simpa [Event.loopedValues, Event.loopbackReceived, openLoopback] using before

theorem Metered.loop_back (metered : Metered stack log) (resting : Resting stack)
    (free : handedOverBy dest stack = none) (records : List Record) (source : Fin rankCount)
    (recordCount : Nat) (captured previous : Option Worker) :
    Metered (.receive source true captured records.length records none ::
        .loopback dest records recordCount previous :: stack)
      (log ++ [.loopedBack dest records]) := by
  constructor
  · intro other
    rw [handedLength, handed_over_by_neutral rfl]
    exact flushed_hand_over metered.flushed free rfl rfl other
  · have before := metered.looped
    rw [open_loopback_resting resting] at before
    simpa [Event.loopedValues, Event.loopbackReceived, openLoopback] using before

/-- The end of a send: its batch leaves the stack and enters the flush counters. -/
theorem Metered.finish {sent : List Record} (metered : Metered (frame :: below) log)
    (resting : Resting below) (handed : frame.handedOver = some (dest, sent))
    (free : handedOverBy dest below = none) (low : frame.level < 4) (worker : Option Worker)
    (payloadBytes elapsed : Nat) :
    Metered below (log ++
      [.released dest sent, .flushed dest worker sent.length payloadBytes elapsed]) := by
  have target := target_of_handed_over handed
  constructor
  · intro other
    have before := metered.flushed other
    rw [tally_append, sent_to_append]
    by_cases same : other = dest
    · subst same
      simp [handedLength, handed_over_by_owner handed] at before
      simp [handedLength, free, Event.flushedTo, sentTo, Event.sentTo, Event.handOver] at before ⊢
      omega
    · simp [handedLength, handed_over_by_other target same] at before
      simp [handedLength, Event.flushedTo, sentTo, Event.sentTo, Event.handOver, Ne.symm same]
        at before ⊢
      omega
  · have before := metered.looped
    rw [open_loopback_resting (resting_of_level low)] at before
    rw [open_loopback_resting resting]
    simpa [Event.loopedValues, Event.loopbackReceived] using before

theorem Metered.receive_end {source : Fin rankCount} {loopback : Bool} {captured : Option Worker}
    {recordCount : Nat}
    (metered : Metered (.receive source loopback captured recordCount [] none :: below) log)
    (resting : Resting below) (worker : Option Worker) (payloadBytes elapsed : Nat) :
    Metered below (log ++ [.received loopback worker recordCount payloadBytes elapsed]) := by
  constructor
  · intro other
    have before := metered.flushed other
    rw [handedLength, handed_over_by_neutral rfl] at before
    simpa [Event.flushedTo, Event.sentTo, Event.handOver, handedLength] using before
  · have before := metered.looped
    rw [open_loopback_resting resting]
    cases loopback <;>
      simpa [Event.loopedValues, Event.loopbackReceived, openLoopback] using before

end Meters

section Calls

variable {thread : ThreadState rankCount Worker Record}

theorem flush_dest_metered (metered : Metered thread.stack thread.log)
    (resting : Resting thread.stack) (free : handedOverBy dest thread.stack = none) :
    Metered (thread.flushDest config self dest).stack
      (thread.flushDest config self dest).log := by
  rcases flush_dest_cases config self thread dest with ⟨empty, made⟩ | ⟨filled, loops, made⟩ |
    ⟨filled, loops, made⟩
  · rw [made]
    exact metered
  · rw [made]
    exact metered.loop_back resting free _ _ _ _ _
  · rw [made]
    exact metered.push resting rfl (by simp [Frame.level])

theorem after_push_metered {previous : Option Worker}
    (metered : Metered thread.stack thread.log) (idle : thread.stack = []) :
    Metered (thread.afterPush config self dest previous).stack
      (thread.afterPush config self dest previous).log := by
  have resting : Resting thread.stack := idle ▸ resting_nil
  rcases after_push_cases config self thread dest previous with ⟨full, made⟩ | ⟨full, made⟩
  · rw [made]
    apply flush_dest_metered
    · exact metered.push resting rfl (by simp [Frame.level])
    · exact resting_of_level (by simp [Frame.level])
    · rw [ThreadState.with_stack_stack, idle]
      rfl
  · rw [made]
    exact metered.plain_event rfl

theorem post_am_metered {dest : Int} {record : Record}
    (metered : Metered thread.stack thread.log) (idle : thread.stack = []) :
    Metered (thread.postAm config self dest record).stack
      (thread.postAm config self dest record).log := by
  have resting : Resting thread.stack := idle ▸ resting_nil
  rcases post_am_cases config self thread dest record with ⟨rank, checked, made⟩ | ⟨outside, made⟩
  · rw [made]
    rcases post_record_cases config self thread rank record with
      ⟨pointer, available, made⟩ | ⟨unavailable, made⟩
    · rw [made]
      refine after_push_metered ?_ idle
      exact metered.plain_event rfl
    · rw [made]
      exact metered.push resting rfl (by simp [Frame.level])
  · rw [made]
    exact metered.plain_event rfl

end Calls

variable {thread thread' : ThreadState rankCount Worker Record} {action : Action rankCount Record}

theorem step_metered (step : ThreadStep config self thread action thread')
    (silent : QuietAction action) (quiet : QuietStack config thread.sendBuffers thread.stack)
    (disciplined : Disciplined config thread.sendBuffers thread.stack)
    (metered : Metered thread.stack thread.log) : Metered thread'.stack thread'.log := by
  have resting := quiet
  have layered := disciplined.toLayered
  have opened := metered
  cases step with
  | postAm dest record worker owner idle => exact post_am_metered metered idle
  | handlerPost => exact silent.elim
  | flush worker owner idle =>
      rw [idle] at opened
      exact opened.push resting_nil rfl (by simp [Frame.level])
  | progress worker owner idle =>
      rw [idle] at opened
      have entered : Metered [.progressWorker thread.profileWorker] thread.log :=
        opened.push resting_nil rfl (by simp [Frame.level])
      exact entered.push (resting_of_level (by simp [Frame.level])) rfl (by simp [Frame.level])
  | collectiveProgress control idle =>
      rw [idle] at opened
      exact opened.push resting_nil rfl (by simp [Frame.level])
  | upacketNull dest record previous below top =>
      rw [top] at opened
      exact opened.push (resting_of_level (by simp [Frame.level])) rfl (by simp [Frame.level])
  | upacket dest record previous below packet stale top =>
      rw [top] at opened resting
      obtain rfl := resting.bottom rfl
      have popped : Metered ([] : Stack rankCount Worker Record) thread.log :=
        opened.pop resting_nil rfl (by simp [Frame.level])
      unfold ThreadState.adoptPacket
      refine after_push_metered ?_ rfl
      have adopted : Metered ([] : Stack rankCount Worker Record)
          (thread.log ++ [.gotUpacket packet]) := popped.plain_event rfl
      exact adopted.plain_event rfl
  | retry dest recordCount previous below top =>
      rw [top] at opened resting
      have popped : Metered below thread.log :=
        opened.pop resting.resting_below rfl (by simp [Frame.level])
      have waiting : Metered (.send dest .retry recordCount previous :: below) thread.log :=
        popped.push resting.resting_below rfl (by simp [Frame.level])
      have progressing : Metered (.progress :: .send dest .retry recordCount previous :: below)
          thread.log :=
        waiting.push (resting_of_level (by simp [Frame.level])) rfl (by simp [Frame.level])
      exact progressing.plain_event rfl
  | accept dest recordCount previous below top =>
      rw [top] at opened resting layered
      have popped : Metered below thread.log :=
        opened.pop resting.resting_below rfl (by simp [Frame.level])
      have free : handedOverBy dest below = none := layered.free_below (.inl rfl)
      have accepted := popped.accept resting.resting_below free
        (thread.sendBuffers dest).records (thread.sendBuffers dest).buffer recordCount previous
      exact accepted.push (resting_of_level (by simp [Frame.level])) rfl (by simp [Frame.level])
  | deliver source records below top =>
      rw [top] at opened
      unfold ThreadState.handleIncomingAm
      rw [top]
      have entered : Metered (.incoming :: .progress :: below) thread.log :=
        opened.push (resting_of_level (by simp [Frame.level])) rfl (by simp [Frame.level])
      split
      case h_1 recordCount counted =>
          have receiving : Metered (.receive source false thread.profileWorker recordCount records
              none :: .incoming :: .progress :: below) thread.log := by
            apply entered.restack
            · intro dest
              exact handed_over_by_neutral rfl
            · rfl
          exact receiving.plain_event rfl
      case h_2 =>
          have stopped : Metered (.aborted :: .progress :: below) thread.log := by
            apply opened.restack
            · intro dest
              exact handed_over_by_neutral rfl
            · rfl
          exact stopped.plain_event rfl
  | progressEnd below top =>
      rw [top] at opened resting
      exact opened.pop resting.resting_below rfl (by simp [Frame.level])
  | handlerReturn source loopback captured recordCount pending record below top =>
      rw [top] at opened
      have returned : Metered (.receive source loopback captured recordCount pending none :: below)
          thread.log := by
        apply opened.restack
        · intro dest
          rw [handed_over_by_neutral rfl, handed_over_by_neutral rfl]
        · cases loopback <;> rfl
      exact returned.plain_event rfl
  | postReturn elapsed previous below top =>
      rw [top] at opened resting
      have popped : Metered below thread.log :=
        opened.pop resting.resting_below rfl (by simp [Frame.level])
      exact popped.plain_event rfl
  | flushNext elapsed i below top more =>
      rw [top] at opened resting layered
      apply flush_dest_metered
      · have popped : Metered below thread.log :=
          opened.pop resting.resting_below rfl (by simp [Frame.level])
        exact popped.push resting.resting_below rfl (by simp [Frame.level])
      · exact resting_of_level (by simp [Frame.level])
      · exact layered.free_below (.inr ⟨i, rfl⟩)
  | flushEnd elapsed i below top finished =>
      rw [top] at opened resting
      have popped : Metered below thread.log :=
        opened.pop resting.resting_below rfl (by simp [Frame.level])
      exact popped.plain_event rfl
  | sendAgain elapsed dest recordCount previous below top =>
      rw [top] at opened resting
      have popped : Metered below thread.log :=
        opened.pop resting.resting_below rfl (by simp [Frame.level])
      exact popped.push resting.resting_below rfl (by simp [Frame.level])
  | sendRelease elapsed dest sent recordCount previous below top =>
      rw [top] at opened resting layered
      obtain ⟨counted, _, _⟩ := resting.fits _ List.mem_cons_self
      have held := layered.held dest sent (handed_over_by_owner rfl)
      rw [held] at counted
      subst counted
      exact opened.finish resting.resting_below rfl (layered.free_below (.inl rfl))
        (by simp [Frame.level]) _ _ _
  | loopbackRelease elapsed dest sent recordCount previous below top =>
      rw [top] at opened resting layered
      obtain ⟨counted, _, _⟩ := resting.fits _ List.mem_cons_self
      subst counted
      have returned : Metered (.loopback dest sent sent.length previous :: below)
          (thread.returnPacket config dest).log := by
        unfold ThreadState.returnPacket
        split
        · exact opened.plain_event rfl
        · exact opened
      exact returned.finish resting.resting_below rfl (layered.free_below (.inl rfl))
        (by simp [Frame.level]) _ _ _
  | progressReturn elapsed previous below top =>
      rw [top] at opened resting
      have popped : Metered below thread.log :=
        opened.pop resting.resting_below rfl (by simp [Frame.level])
      exact popped.plain_event rfl
  | invoke elapsed source loopback captured recordCount record pending below top =>
      rw [top] at opened
      have invoked : Metered
          (.receive source loopback captured recordCount pending (some record) :: below)
          thread.log := by
        apply opened.restack
        · intro dest
          rw [handed_over_by_neutral rfl, handed_over_by_neutral rfl]
        · cases loopback <;> rfl
      exact invoked.plain_event rfl
  | receiveEnd elapsed source loopback captured recordCount below top =>
      rw [top] at opened resting
      exact opened.receive_end resting.resting_below _ _ _
  | incomingEnd elapsed below top =>
      rw [top] at opened resting
      have popped : Metered below thread.log :=
        opened.pop resting.resting_below rfl (by simp [Frame.level])
      exact popped.plain_event rfl

theorem reachable_metered
    (reached : (threadSystem config self).Reachable (fun _ => QuietAction) (.initial config)
      thread) : Metered thread.stack thread.log := by
  apply reached.invariant
  · exact ⟨fun _ => rfl, rfl⟩
  · intro before after action prior metered silent stepped
    exact step_metered (thread_step_cases stepped) silent (reachable_quiet prior).stack
      (reachable_disciplined (reachable_safe prior)) metered

section Threads

/-- The values a thread posted, destination by destination. -/
private theorem posted_by_destination (log : Log rankCount Worker Record) :
    tally Event.postedValues log = ∑ dest, (postedTo dest log).length := by
  have each : ∀ event : Event rankCount Worker Record,
      event.postedValues = ∑ dest, (event.postedTo dest).length := by
    intro event
    cases event with
    | posted other record recordCount buffer =>
        have single : ∀ dest, (Event.postedTo dest (.posted other record recordCount buffer :
            Event rankCount Worker Record)).length = if other = dest then 1 else 0 := by
          intro dest
          by_cases same : other = dest
          · simp [Event.postedTo, same]
          · simp [Event.postedTo, same]
        simp only [single, Finset.sum_ite_eq, Finset.mem_univ, if_true]
        rfl
    | _ => simp [Event.postedValues, Event.postedTo]
  rw [tally_congr fun event _ => each event, tally_sum]
  apply Finset.sum_congr rfl
  intro dest _
  rw [postedTo, length_flat_map]

/-- The flush counter of a thread, destination by destination. -/
private theorem flushed_by_destination (log : Log rankCount Worker Record) :
    tally (aggregateWeight .flush .records) log = ∑ dest, tally (Event.flushedTo dest) log := by
  rw [← tally_sum]
  apply tally_congr
  intro event _
  cases event with
  | flushed other worker recordCount payloadBytes elapsed =>
      simp [aggregateWeight, Event.measured, Measured.count, Event.flushedTo]
  | received loopback worker recordCount payloadBytes elapsed =>
      cases loopback <;> simp [aggregateWeight, Event.measured, Event.flushedTo]
  | _ => simp [aggregateWeight, Event.measured, Event.flushedTo]

private theorem thread_flush_records
    (reached : (threadSystem config self).Reachable (fun _ => QuietAction) (.initial config)
      thread) (idle : thread.stack = []) :
    tally (aggregateWeight .flush .records) thread.log + ∑ dest, (thread.sendBuffers dest).size =
      tally Event.postedValues thread.log := by
  have ledger := reachable_ledger (reachable_safe reached)
  have metered := reachable_metered reached
  rw [flushed_by_destination, posted_by_destination, ← Finset.sum_add_distrib]
  apply Finset.sum_congr rfl
  intro dest _
  have flushed := metered.flushed dest
  rw [ledger.posted dest, List.length_append, ← flushed, idle]
  rfl

/-- Between calls, the loopback receives of a thread are its flushes to the own
rank. -/
private theorem thread_loopback_records
    (reached : (threadSystem config self).Reachable (fun _ => QuietAction) (.initial config)
      thread) (idle : thread.stack = []) (loopback : config.options.useLoopback = true) :
    tally Event.loopbackReceived thread.log = tally (Event.flushedTo config.rank) thread.log := by
  have metered := reachable_metered reached
  have looped := metered.looped
  have flushed := metered.flushed config.rank
  rw [idle] at looped flushed
  have sent : (sentTo config.rank thread.log).length = tally Event.loopedValues thread.log := by
    rw [sentTo, length_flat_map]
    apply tally_congr
    intro event member
    have rule := reachable_routed reached event member
    cases event with
    | accepted dest records buffer =>
        have elsewhere : dest ≠ config.rank := by
          rintro rfl
          have remote := rule.2
          simp [PhaseConfig.loopsBack, loopback] at remote
        simp [Event.sentTo, Event.handOver, Event.loopedValues, elsewhere]
    | loopedBack dest records =>
        have own := loops_back_rank rule
        simp [Event.sentTo, Event.handOver, Event.loopedValues, own]
    | _ => rfl
  simp only [openLoopback, handedLength, handedOverBy, Option.getD_none, List.length_nil,
    Nat.add_zero] at looped flushed
  rw [flushed, sent, looped]

private theorem loopback_weight (log : Log rankCount Worker Record) :
    tally (aggregateWeight .loopbackReceive .records) log = tally Event.loopbackReceived log := by
  apply tally_congr
  intro event _
  cases event with
  | received loopback worker recordCount payloadBytes elapsed =>
      cases loopback <;> simp [aggregateWeight, Event.measured, Measured.count,
        Event.loopbackReceived]
  | _ => simp [aggregateWeight, Event.measured, Event.loopbackReceived]

private theorem thread_no_loopback
    (reached : (threadSystem config self).Reachable (fun _ => QuietAction) (.initial config)
      thread) (remoteOnly : config.options.useLoopback = false) :
    tally Event.loopbackReceived thread.log = 0 := by
  have looped := (reachable_metered reached).looped
  have none : tally Event.loopedValues thread.log = 0 := by
    apply tally_zero
    intro event member
    have rule := reachable_routed reached event member
    cases event with
    | loopedBack dest records => simp [Routed, PhaseConfig.loopsBack, remoteOnly] at rule
    | _ => rfl
  omega

end Threads

section Rank

variable [DecidableEq Worker] [Fintype Worker]

namespace PhaseState

variable (phase : PhaseState rankCount Worker Record Memory)

/-- A counter of the events of all threads of the rank. -/
def total (weight : Event rankCount Worker Record → Nat) : Nat :=
  ∑ thread, tally weight (phase.threads thread).log

/-- The records in the aggregation buffers of the rank. -/
def bufferedRecords : Nat := ∑ thread, ∑ dest, ((phase.threads thread).sendBuffers dest).size

/-- `am_profile()`. -/
def amProfile : AmProfile Worker := phase.profile.snapshot

end PhaseState

/-- The counters of worker `worker` in a snapshot; zero when profiling is disabled. -/
def AmProfile.worker (profile : AmProfile Worker) (worker : Worker) : AmWorkerProfile :=
  (profile.workers worker).getD fun _ => {}

/-- The values that a call posts: one, if its destination is a rank. -/
def Action.postedValues (action : Action rankCount Record) : Nat :=
  ∑ dest, (action.posting dest).length

/-- The accounts of a rank between calls, behind `calls`. -/
structure ProfileBalanced (config : PhaseConfig rankCount)
    (calls : List (Option Worker × Action rankCount Record))
    (phase : PhaseState rankCount Worker Record Memory) : Prop where
  posted_values : phase.total Event.postedValues =
    (calls.map fun call => call.2.postedValues).sum
  flush_records : (phase.amProfile.aggregate .flush).records + phase.bufferedRecords =
    phase.total Event.postedValues
  flush_workers : ∀ counter, ∑ worker, (phase.amProfile.worker worker .flush).count counter =
    (phase.amProfile.aggregate .flush).count counter
  receive_records : (phase.amProfile.aggregate .remoteReceive).records +
    (phase.amProfile.aggregate .loopbackReceive).records = phase.recvCount
  loopback_records : config.options.useLoopback = true →
    (phase.amProfile.aggregate .loopbackReceive).records =
      phase.total (Event.flushedTo config.rank)
  loopback_unused : config.options.useLoopback = false →
    (phase.amProfile.aggregate .loopbackReceive).records = 0
  payload_aggregate : ∀ operation, (phase.amProfile.aggregate operation).payloadBytes =
    (phase.amProfile.aggregate operation).records * config.recordSize
  payload_worker : ∀ worker operation, (phase.amProfile.worker worker operation).payloadBytes =
    (phase.amProfile.worker worker operation).records * config.recordSize
  worker_own : ∀ worker operation counter,
    (phase.amProfile.worker worker operation).count counter =
      tally (aggregateWeight operation counter) (phase.threads (some worker)).log
  worker_bound : ∀ operation counter,
    ∑ worker, (phase.amProfile.worker worker operation).count counter ≤
      (phase.amProfile.aggregate operation).count counter

variable {handler : AmHandler rankCount Record Memory} {memory : Memory}
variable {phase : PhaseState rankCount Worker Record Memory}
variable {calls : List (Option Worker × Action rankCount Record)}

omit [DecidableEq Worker] in
/-- Between calls everything that was submitted is posted. -/
private theorem idle_posted (idle : phase.Idle) :
    phase.total Event.postedValues = ∑ dest, Multiset.card (phase.submitted dest) := by
  have each : ∀ dest, Multiset.card (phase.submitted dest) =
      ∑ thread, (postedTo dest (phase.threads thread).log).length := by
    intro dest
    unfold PhaseState.submitted
    rw [Multiset.card_sum]
    apply Finset.sum_congr rfl
    intro thread _
    rw [Multiset.coe_card, ThreadState.submitted, idle thread, pushing_in_nil, List.append_nil]
  simp only [each]
  rw [Finset.sum_comm]
  exact Finset.sum_congr rfl fun thread _ => posted_by_destination _

/-- The values posted between calls are those of the calls. -/
private theorem calls_posted
    (ran : (phaseSystem config handler).run (.initial config memory) calls = some phase)
    (quiet : ∀ call ∈ calls, QuietAction call.2) (idle : phase.Idle) :
    phase.total Event.postedValues = (calls.map fun call => call.2.postedValues).sum := by
  have counted : ∑ dest, Multiset.card (phase.submitted dest) =
      ∑ dest, Multiset.card ((PhaseState.initial config memory :
        PhaseState rankCount Worker Record Memory).submitted dest) +
          (calls.map fun call => call.2.postedValues).sum := by
    apply TransitionSystem.run_total _ _ _ ran quiet
    intro before call after stepped silent
    unfold Action.postedValues
    rw [← Finset.sum_add_distrib]
    apply Finset.sum_congr rfl
    intro dest _
    rw [phase_submitted_total stepped silent, Multiset.card_add, Multiset.coe_card]
  simp only [initial_submitted, Multiset.card_zero, Finset.sum_const_zero, Nat.zero_add]
    at counted
  rw [idle_posted idle, counted]

private theorem own_counts
    (attributed : ∀ thread, ∀ event ∈ (phase.threads thread).log,
      Attributed config thread event) (worker : Worker) (operation : ProfileOperation)
    (counter : Counter) :
    ∑ thread, tally (workerWeight worker operation counter) (phase.threads thread).log =
      tally (aggregateWeight operation counter) (phase.threads (some worker)).log := by
  rw [Finset.sum_eq_single (some worker)]
  · apply tally_congr
    intro event member
    unfold workerWeight aggregateWeight
    cases found : event.measured with
    | none => rfl
    | some measured =>
        have rule := attributed (some worker) event member measured found
        simp [rule.1]
  · intro thread _ other
    apply tally_zero
    intro event member
    unfold workerWeight
    cases found : event.measured with
    | none => rfl
    | some measured =>
        have rule := attributed thread event member measured found
        simp [rule.1, other]
  · intro outside
    exact absurd (Finset.mem_univ _) outside

omit [DecidableEq Worker] [Fintype Worker] in
/-- Every measured operation counts the payload of its records. -/
private theorem payload_measured {thread : Option Worker}
    {log : Log rankCount Worker Record}
    (attributed : ∀ event ∈ log, Attributed config thread event) (operation : ProfileOperation) :
    tally (aggregateWeight operation .payloadBytes) log =
      tally (aggregateWeight operation .records) log * config.recordSize := by
  rw [← tally_mul]
  apply tally_congr
  intro event member
  unfold aggregateWeight
  cases found : event.measured with
  | none => simp
  | some measured =>
      have rule := attributed event member measured found
      by_cases same : measured.operation = operation
      · simp [same, Measured.count, rule.2.1]
      · simp [same]

omit [DecidableEq Worker] [Fintype Worker] in
/-- The control thread runs no flush. -/
private theorem control_flushes_nothing {log : Log rankCount Worker Record}
    (attributed : ∀ event ∈ log, Attributed config none event) (counter : Counter) :
    tally (aggregateWeight .flush counter) log = 0 := by
  apply tally_zero
  intro event member
  unfold aggregateWeight
  cases found : event.measured with
  | none => rfl
  | some measured =>
      have rule := attributed event member measured found
      exact if_neg fun flush => rule.2.2 flush rfl

omit [DecidableEq Worker] [Fintype Worker] in
/-- A received message is measured as a remote or as a loopback receive. -/
private theorem received_measured (log : Log rankCount Worker Record) :
    tally (aggregateWeight .remoteReceive .records) log +
        tally (aggregateWeight .loopbackReceive .records) log =
      receivedIn log := by
  rw [← tally_add]
  apply tally_congr
  intro event _
  cases event with
  | received loopback worker recordCount payloadBytes elapsed =>
      cases loopback <;> simp [aggregateWeight, Event.measured, Measured.count,
        Event.receivedRecords]
  | _ => simp [aggregateWeight, Event.measured, Event.receivedRecords]

/-- The accounts of every rank balance whenever no call is executing. -/
theorem profile_balanced (enabled : config.profilingEnabled = true)
    (ran : (phaseSystem config handler).run (.initial config memory) calls = some phase)
    (quiet : ∀ call ∈ calls, QuietAction call.2) (idle : phase.Idle) :
    ProfileBalanced config calls phase := by
  have reached : (phaseSystem config handler).Reachable (fun _ call => QuietAction call.2)
      (.initial config memory) phase :=
    TransitionSystem.run_reachable ran
      (TransitionSystem.permitted_run_of_all fun _ call member => quiet call member)
  have run := phase_thread_reachable reached
  have attributed := fun thread => reachable_attributed enabled (run thread)
  have aggregate := aggregate_total enabled reached
  have recording : phase.profile.enabled = true := (profile_enabled reached).trans enabled
  have shown : phase.amProfile.aggregate = phase.profile.aggregate := by
    simp [PhaseState.amProfile, AmProfileRecorder.snapshot, recording]
  have shownWorker : ∀ worker, phase.amProfile.worker worker = phase.profile.workers worker := by
    intro worker
    simp [PhaseState.amProfile, AmProfile.worker, AmProfileRecorder.snapshot, recording]
  have own : ∀ worker operation counter,
      (phase.amProfile.worker worker operation).count counter =
        tally (aggregateWeight operation counter) (phase.threads (some worker)).log := by
    intro worker operation counter
    rw [shownWorker, worker_total enabled reached]
    exact own_counts attributed worker operation counter
  have split : ∀ operation counter, (phase.amProfile.aggregate operation).count counter =
      tally (aggregateWeight operation counter) (phase.threads none).log +
        ∑ worker, (phase.amProfile.worker worker operation).count counter := by
    intro operation counter
    rw [shown, aggregate, Fintype.sum_option]
    simp only [own]
  refine ⟨calls_posted ran quiet idle, ?_, ?_, ?_, ?_, ?_, ?_, ?_, own, ?_⟩
  · have records := aggregate .flush .records
    rw [shown]
    simp only [AmOperationProfile.count] at records
    rw [records, PhaseState.bufferedRecords, PhaseState.total, ← Finset.sum_add_distrib]
    apply Finset.sum_congr rfl
    intro thread _
    exact thread_flush_records (run thread) (idle thread)
  · intro counter
    rw [split, control_flushes_nothing (attributed none), Nat.zero_add]
  · have remote := aggregate .remoteReceive .records
    have loopback := aggregate .loopbackReceive .records
    simp only [AmOperationProfile.count] at remote loopback
    rw [shown, remote, loopback, recv_count_total reached, ← Finset.sum_add_distrib]
    apply Finset.sum_congr rfl
    intro thread _
    exact received_measured (phase.threads thread).log
  · intro loopback
    have records := aggregate .loopbackReceive .records
    simp only [AmOperationProfile.count] at records
    rw [shown, records]
    apply Finset.sum_congr rfl
    intro thread _
    rw [← thread_loopback_records (run thread) (idle thread) loopback]
    exact loopback_weight _
  · intro remoteOnly
    have records := aggregate .loopbackReceive .records
    simp only [AmOperationProfile.count] at records
    rw [shown, records]
    apply Finset.sum_eq_zero
    intro thread _
    rw [loopback_weight, thread_no_loopback (run thread) remoteOnly]
  · intro operation
    have bytes := aggregate operation .payloadBytes
    have records := aggregate operation .records
    simp only [AmOperationProfile.count] at bytes records
    rw [shown, bytes, records, Finset.sum_mul]
    exact Finset.sum_congr rfl fun thread _ => payload_measured (attributed thread) operation
  · intro worker operation
    have bytes := own worker operation .payloadBytes
    have records := own worker operation .records
    simp only [AmOperationProfile.count] at bytes records
    rw [bytes, records]
    exact payload_measured (attributed (some worker)) operation
  · intro operation counter
    rw [split]
    exact Nat.le_add_left _ _

/-- What the documentation says: progress calls are counted for the worker
that made them, and in the aggregate. -/
def ProgressCounted (phase : PhaseState rankCount Worker Record Memory) : Prop :=
  (∀ worker, (phase.amProfile.worker worker .progress).calls =
    tally Event.progressReturns (phase.threads (some worker)).log) ∧
  (phase.amProfile.aggregate .progress).calls =
    ∑ worker, (phase.amProfile.worker worker .progress).calls

omit [DecidableEq Worker] [Fintype Worker] in
/-- No event is measured as a progress call. -/
private theorem progress_unmeasured (event : Event rankCount Worker Record)
    (measured : Measured Worker) (found : event.measured = some measured) :
    measured.operation ≠ .progress := by
  intro progress
  cases event with
  | flushed => obtain rfl := Option.some.inj found; cases progress
  | received loopback =>
      obtain rfl := Option.some.inj found
      cases loopback <;> cases progress
  | _ => cases found

theorem progress_counters_zero (enabled : config.profilingEnabled = true)
    {permitted : Option Worker × Action rankCount Record → Prop}
    (reached : (phaseSystem config handler).Reachable (fun _ call => permitted call)
      (.initial config memory) phase) :
    (phase.amProfile.aggregate .progress).calls = 0 ∧
      ∀ worker, (phase.amProfile.worker worker .progress).calls = 0 := by
  have recording : phase.profile.enabled = true := (profile_enabled reached).trans enabled
  constructor
  · have total := aggregate_total enabled reached .progress .calls
    simp only [AmOperationProfile.count] at total
    simp only [PhaseState.amProfile, AmProfileRecorder.snapshot, recording, if_true]
    rw [total]
    apply Finset.sum_eq_zero
    intro thread _
    apply tally_zero
    intro event _
    unfold aggregateWeight
    cases found : event.measured with
    | none => rfl
    | some measured => exact if_neg (progress_unmeasured event measured found)
  · intro worker
    have total := worker_total enabled reached worker .progress .calls
    simp only [AmOperationProfile.count] at total
    simp only [PhaseState.amProfile, AmProfile.worker, AmProfileRecorder.snapshot, recording,
      if_true, Option.getD_some]
    rw [total]
    apply Finset.sum_eq_zero
    intro thread _
    apply tally_zero
    intro event _
    unfold workerWeight
    cases found : event.measured with
    | none => rfl
    | some measured =>
        exact if_neg fun both => progress_unmeasured event measured found both.2

/-- The progress counters are right in exactly the states in which no worker has
completed a `progress()` call. -/
theorem progress_counted_iff (enabled : config.profilingEnabled = true)
    {permitted : Option Worker × Action rankCount Record → Prop}
    (reached : (phaseSystem config handler).Reachable (fun _ call => permitted call)
      (.initial config memory) phase) :
    ProgressCounted phase ↔
      ∀ worker, tally Event.progressReturns (phase.threads (some worker)).log = 0 := by
  obtain ⟨aggregate, workers⟩ := progress_counters_zero enabled reached
  constructor
  · rintro ⟨counted, _⟩ worker
    rw [← counted worker]
    exact workers worker
  · intro none
    constructor
    · intro worker
      rw [workers, none]
    · rw [aggregate]
      simp [workers]

end Rank

section Runs

private def profiled (rank : Fin 1) : PhaseConfig 1 :=
  { PhaseConfig.singleRecord rank with profilingEnabled := true }

private def ignore : AmHandler 1 Nat Unit := fun memory _ _ => memory

/-- One record to the own rank, by loopback, up to the return of the post. -/
private def postedHome : List (Option Unit × Action 1 Nat) :=
  [(some (), .postAm 0 7), (some (), .resume 0), (some (), .handlerReturn),
    (some (), .resume 5), (some (), .resume 9), (some (), .resume 0)]

theorem profile_balanced_loopback :
    ∃ phase : PhaseState 1 Unit Nat Unit,
      (phaseSystem (profiled 0) ignore).run (.initial (profiled 0) ()) postedHome = some phase ∧
        ProfileBalanced (profiled 0) postedHome phase := by
  obtain ⟨phase, executed, idle⟩ : ∃ phase : PhaseState 1 Unit Nat Unit,
      (phaseSystem (profiled 0) ignore).run (.initial (profiled 0) ()) postedHome = some phase ∧
        phase.Idle := by
    refine ⟨_, rfl, ?_⟩
    intro thread
    rcases thread with _ | _ <;> rfl
  refine ⟨phase, executed, ?_⟩
  have quiet : ∀ call ∈ postedHome, QuietAction call.2 := by
    simp [postedHome, QuietAction]
  exact profile_balanced rfl executed quiet idle

private def oneProgress : List (Option Unit × Action 1 Nat) :=
  [(some (), .progress), (some (), .progressEnd), (some (), .resume 0)]

theorem progress_counted_iff_one_call :
    ∃ phase : PhaseState 1 Unit Nat Unit,
      (phaseSystem (profiled 0) ignore).run (.initial (profiled 0) ()) oneProgress = some phase ∧
        (ProgressCounted phase ↔
          ∀ worker, tally Event.progressReturns (phase.threads (some worker)).log = 0) := by
  obtain ⟨phase, executed⟩ : ∃ phase : PhaseState 1 Unit Nat Unit,
      (phaseSystem (profiled 0) ignore).run (.initial (profiled 0) ()) oneProgress = some phase :=
    ⟨_, rfl⟩
  refine ⟨phase, executed, ?_⟩
  have anything : ∀ before : PhaseState 1 Unit Nat Unit, ∀ call ∈ oneProgress,
      (fun _ : Option Unit × Action 1 Nat => True) call := fun _ _ _ => trivial
  exact progress_counted_iff rfl (TransitionSystem.run_reachable executed
    (TransitionSystem.permitted_run_of_all anything))

/-- One completed `progress()` call leaves its counter at zero. -/
theorem progress_call_not_counted :
    ∃ phase : PhaseState 1 Unit Nat Unit,
      (phaseSystem (profiled 0) ignore).run (.initial (profiled 0) ()) oneProgress = some phase ∧
        phase.Idle ∧ ¬ ProgressCounted phase := by
  refine ⟨_, rfl, ?_, ?_⟩
  · intro thread
    rcases thread with _ | _ <;> rfl
  · intro counted
    exact absurd (counted.1 ()) (by decide)

end Runs

end IntegerSortLci.Runtime
