import IntegerSortLci.Runtime.SentBatches
import IntegerSortLci.Runtime.WorkerCalls

/-!
# Posts in front of the flush

A worker that makes all its posts before it flushes sends each destination its records in
full batches, and one more with what is left. `PostsFirst` reads that order off the log. No
step but the call of `flush` brings a flush about, so the order is kept as long as nothing
is posted after that call.
-/

namespace IntegerSortLci.Runtime

open Foundations

set_option autoImplicit false

variable {rankCount : Nat} {Worker Record : Type}

/-- No flush has been called. -/
structure Unflushed (stack : Stack rankCount Worker Record) (log : Log rankCount Worker Record) :
    Prop where
  quiet : ∀ frame ∈ stack, frame.isFlush = false
  never : .flushReturned ∉ log

/-- Whatever was posted was posted before any flush returned. -/
def PostsFirst (log : Log rankCount Worker Record) : Prop :=
  ∃ early late, log = early ++ late ∧ .flushReturned ∉ early ∧
    ∀ dest : Fin rankCount, postedTo dest late = []

variable {config : PhaseConfig rankCount} {self : Option Worker} {dest : Fin rankCount}
variable {stack below : Stack rankCount Worker Record} {log : Log rankCount Worker Record}
variable {frame : Frame rankCount Worker Record} {event : Event rankCount Worker Record}

section Logs

theorem PostsFirst.of_unflushed (unflushed : Unflushed stack log) : PostsFirst log :=
  ⟨log, [], (List.append_nil log).symm, unflushed.never, fun _ => rfl⟩

/-- The order is kept by events that post nothing. -/
theorem PostsFirst.silent (ordered : PostsFirst log) {events : Log rankCount Worker Record}
    (silent : ∀ dest, postedTo dest events = []) : PostsFirst (log ++ events) := by
  obtain ⟨early, late, rfl, never, nothing⟩ := ordered
  refine ⟨early, late ++ events, List.append_assoc _ _ _, never, ?_⟩
  intro dest
  rw [posted_to_append, nothing dest, silent dest, List.append_nil]

/-- Without a flush the aggregator has the posts pushed into it. -/
theorem aggregated_posts (never : .flushReturned ∉ log) :
    aggregated config dest log =
      (Aggregator.start config.batch_positive).pushAll (postedTo dest log) := by
  unfold aggregated
  generalize Aggregator.start config.batch_positive = aggregator
  induction log generalizing aggregator with
  | nil => rfl
  | cons event rest ih =>
      have later := ih fun member => never (List.mem_cons_of_mem _ member)
      rw [List.foldl_cons, later, posted_to_cons]
      cases event with
      | posted other record recordCount buffer =>
          unfold trackAggregator Event.postedTo
          dsimp only
          split
          · rfl
          · rfl
      | flushReturned => exact absurd List.mem_cons_self never
      | _ => rfl

/-- Flushes let out what is held and make no other messages. -/
theorem aggregated_silent (aggregator : Aggregator Record config.batchRecords)
    (silent : postedTo dest log = []) :
    (log.foldl (trackAggregator dest) aggregator).messages = aggregator.messages := by
  induction log generalizing aggregator with
  | nil => rfl
  | cons event rest ih =>
      rw [posted_to_cons, List.append_eq_nil_iff] at silent
      rw [List.foldl_cons, ih _ silent.2]
      cases event with
      | posted other record recordCount buffer =>
          have elsewhere := silent.1
          unfold Event.postedTo at elsewhere
          unfold trackAggregator
          dsimp only at elsewhere ⊢
          split at elsewhere
          · cases elsewhere
          · rename_i different
            rw [if_neg different]
      | _ => rfl

theorem PostsFirst.messages (ordered : PostsFirst log) :
    (aggregated config dest log).messages = packed config.batch_positive (postedTo dest log) := by
  obtain ⟨early, late, rfl, never, nothing⟩ := ordered
  rw [posted_to_append, nothing dest, List.append_nil]
  unfold packed
  rw [← aggregated_posts never]
  unfold aggregated
  rw [List.foldl_append]
  exact aggregated_silent _ (nothing dest)

end Logs

section Steps

theorem Unflushed.push (unflushed : Unflushed stack log) (call : frame.isFlush = false) :
    Unflushed (frame :: stack) log := by
  refine ⟨?_, unflushed.never⟩
  intro other member
  rcases List.mem_cons.mp member with rfl | inStack
  · exact call
  · exact unflushed.quiet other inStack

theorem Unflushed.pop (unflushed : Unflushed (frame :: below) log) : Unflushed below log :=
  ⟨fun other member => unflushed.quiet other (List.mem_cons_of_mem _ member), unflushed.never⟩

theorem Unflushed.note (unflushed : Unflushed stack log) (other : event ≠ .flushReturned) :
    Unflushed stack (log ++ [event]) := by
  refine ⟨unflushed.quiet, ?_⟩
  rw [List.mem_append, List.mem_singleton]
  rintro (earlier | same)
  · exact unflushed.never earlier
  · exact other same.symm

variable {thread thread' : ThreadState rankCount Worker Record} {action : Action rankCount Record}

theorem flush_dest_unflushed (unflushed : Unflushed thread.stack thread.log) :
    Unflushed (thread.flushDest config self dest).stack
      (thread.flushDest config self dest).log := by
  rcases flush_dest_cases config self thread dest with ⟨empty, made⟩ | ⟨filled, loops, made⟩ |
    ⟨filled, loops, made⟩
  · rw [made]
    exact unflushed
  · rw [made]
    have owned : Unflushed (.loopback dest (thread.sendBuffers dest).records
        (thread.sendBuffers dest).size thread.profileWorker :: thread.stack) thread.log :=
      unflushed.push rfl
    exact (owned.push rfl).note (by simp)
  · rw [made]
    exact unflushed.push rfl

theorem after_push_unflushed {previous : Option Worker}
    (unflushed : Unflushed thread.stack thread.log) :
    Unflushed (thread.afterPush config self dest previous).stack
      (thread.afterPush config self dest previous).log := by
  rcases after_push_cases config self thread dest previous with ⟨full, made⟩ | ⟨full, made⟩
  · rw [made]
    apply flush_dest_unflushed
    exact unflushed.push rfl
  · rw [made]
    exact unflushed.note (by simp)

theorem post_am_unflushed {target : Int} {record : Record}
    (unflushed : Unflushed thread.stack thread.log) :
    Unflushed (thread.postAm config self target record).stack
      (thread.postAm config self target record).log := by
  rcases post_am_cases config self thread target record with ⟨rank, checked, made⟩ | ⟨outside, made⟩
  · rw [made]
    rcases post_record_cases config self thread rank record with
      ⟨pointer, available, made⟩ | ⟨unavailable, made⟩
    · rw [made]
      apply after_push_unflushed
      exact unflushed.note (by simp)
    · rw [made]
      exact unflushed.push rfl
  · rw [made]
    exact unflushed.note (by simp)

/-- Only the call of `flush` begins one. -/
theorem step_unflushed (step : ThreadStep config self thread action thread')
    (other : action ≠ .flush) (unflushed : Unflushed thread.stack thread.log) :
    Unflushed thread'.stack thread'.log := by
  have opened := unflushed
  cases step with
  | postAm target record worker owner idle => exact post_am_unflushed unflushed
  | handlerPost target record => exact post_am_unflushed unflushed
  | flush => exact absurd rfl other
  | progress worker owner idle =>
      rw [idle] at opened
      have entered : Unflushed [.progressWorker thread.profileWorker] thread.log := opened.push rfl
      exact entered.push rfl
  | collectiveProgress control idle =>
      rw [idle] at opened
      exact opened.push rfl
  | upacketNull dest record previous below top =>
      rw [top] at opened
      exact opened.push rfl
  | upacket dest record previous below packet stale top =>
      rw [top] at opened
      unfold ThreadState.adoptPacket
      apply after_push_unflushed
      have noted : Unflushed below (thread.log ++ [.gotUpacket packet]) :=
        opened.pop.note (by simp)
      exact noted.note (by simp)
  | retry dest recordCount previous below top =>
      rw [top] at opened
      have waiting : Unflushed (.send dest .retry recordCount previous :: below) thread.log :=
        opened.pop.push rfl
      exact (waiting.push rfl).note (by simp)
  | accept dest recordCount previous below top =>
      rw [top] at opened
      have accepted : Unflushed
          (.send dest (.accepted (thread.sendBuffers dest).records) recordCount previous :: below)
          thread.log := opened.pop.push rfl
      exact (accepted.push rfl).note (by simp)
  | deliver source records below top =>
      unfold ThreadState.handleIncomingAm
      split
      · have entered : Unflushed (.incoming :: thread.stack) thread.log := opened.push rfl
        exact (entered.push rfl).note (by simp)
      · have stopped : Unflushed (.aborted :: thread.stack) thread.log := opened.push rfl
        exact stopped.note (by simp)
  | progressEnd below top =>
      rw [top] at opened
      exact opened.pop
  | handlerReturn source loopback captured recordCount pending record below top =>
      rw [top] at opened
      have returned : Unflushed
          (.receive source loopback captured recordCount pending none :: below) thread.log :=
        opened.pop.push rfl
      exact returned.note (by simp)
  | flushNext elapsed i below top more =>
      rw [top] at opened
      exact absurd (opened.quiet _ List.mem_cons_self) (by simp [Frame.isFlush])
  | flushEnd elapsed i below top finished =>
      rw [top] at opened
      exact absurd (opened.quiet _ List.mem_cons_self) (by simp [Frame.isFlush])
  | sendAgain elapsed dest recordCount previous below top =>
      rw [top] at opened
      exact opened.pop.push rfl
  | sendRelease elapsed dest sent recordCount previous below top =>
      rw [top] at opened
      have released : Unflushed below (thread.log ++ [.released dest sent]) :=
        opened.pop.note (by simp)
      have flushed : Unflushed below (thread.log ++ [.released dest sent] ++
          [.flushed dest self recordCount (recordCount * config.recordSize) elapsed]) :=
        released.note (by simp)
      rw [List.append_assoc] at flushed
      exact flushed
  | loopbackRelease elapsed dest sent recordCount previous below top =>
      rw [top] at opened
      have returned : Unflushed below (thread.returnPacket config dest).log := by
        unfold ThreadState.returnPacket
        split
        · exact opened.pop.note (by simp)
        · exact opened.pop
      have released : Unflushed below
          ((thread.returnPacket config dest).log ++ [.released dest sent]) :=
        returned.note (by simp)
      have flushed : Unflushed below
          ((thread.returnPacket config dest).log ++ [.released dest sent] ++
            [.flushed dest self recordCount (recordCount * config.recordSize) elapsed]) :=
        released.note (by simp)
      rw [List.append_assoc] at flushed
      exact flushed
  | invoke elapsed source loopback captured recordCount record pending below top =>
      rw [top] at opened
      have invoked : Unflushed
          (.receive source loopback captured recordCount pending (some record) :: below)
          thread.log := opened.pop.push rfl
      exact invoked.note (by simp)
  | postReturn elapsed previous below top =>
      rw [top] at opened
      exact opened.pop.note (by simp)
  | progressReturn elapsed previous below top =>
      rw [top] at opened
      exact opened.pop.note (by simp)
  | receiveEnd elapsed source loopback captured recordCount below top =>
      rw [top] at opened
      exact opened.pop.note (by simp)
  | incomingEnd elapsed below top =>
      rw [top] at opened
      exact opened.pop.note (by simp)

end Steps

section Results

variable {thread : ThreadState rankCount Worker Record}

/-- What is handed over is in its buffer. -/
theorem handed_over_filled {buffers : Buffers rankCount Record}
    (layered : Layered config buffers stack) (quiet : QuietStack config buffers stack)
    (empty : (buffers dest).records = []) : handedOverBy dest stack = none := by
  have owner : ∀ {frames : Stack rankCount Worker Record} {sent : List Record},
      handedOverBy dest frames = some sent →
        ∃ frame ∈ frames, frame.handedOver = some (dest, sent) := by
    intro frames sent handed
    induction frames with
    | nil => cases handed
    | cons frame rest ih =>
        cases batch : frame.handedOver with
        | none =>
            rw [handed_over_by_neutral batch] at handed
            obtain ⟨owner, member, owned⟩ := ih handed
            exact ⟨owner, List.mem_cons_of_mem _ member, owned⟩
        | some pair =>
            obtain ⟨other, records⟩ := pair
            by_cases same : dest = other
            · subst same
              rw [handed_over_by_owner batch] at handed
              obtain rfl := Option.some.inj handed
              exact ⟨frame, List.mem_cons_self, batch⟩
            · rw [handed_over_by_other (target_of_handed_over batch) same] at handed
              obtain ⟨owner, member, owned⟩ := ih handed
              exact ⟨owner, List.mem_cons_of_mem _ member, owned⟩
  cases handed : handedOverBy dest stack with
  | none => rfl
  | some sent =>
      obtain ⟨frame, member, owned⟩ := owner handed
      have held := layered.held dest sent handed
      have fits := quiet.fits frame member
      rw [empty] at held
      cases frame with
      | send other status recordCount previous =>
          have same := target_of_handed_over owned
          obtain rfl := Option.some.inj same
          exact absurd empty fits.2.1
      | loopback other records recordCount previous =>
          obtain ⟨rfl, rfl⟩ := Prod.mk.inj (Option.some.inj owned)
          exact absurd held.symm fits.2.1
      | _ => cases owned

/-- A worker that has flushed after all its posts has sent each destination its records in
full batches, and measured one flush for each batch. -/
theorem posts_first_batches
    (reached : (threadSystem config self).Reachable (fun _ => QuietAction) (.initial config)
      thread) (ordered : PostsFirst thread.log) (flushed : flushedSincePush thread.log = true)
    (dest : Fin rankCount) :
    batchesTo dest thread.log = packed config.batch_positive (postedTo dest thread.log) ∧
      tally (Event.flushCallsTo dest) thread.log = (batchesTo dest thread.log).length := by
  have batched : Batched config thread.sendBuffers thread.stack thread.log :=
    reachable_batched reached
  have quiet := reachable_quiet reached
  have empty := quiet.flushed flushed dest
  have free := handed_over_filled
    (reachable_disciplined (reachable_safe reached)).toLayered quiet.stack empty
  have nothing : unsent thread.sendBuffers thread.stack dest = [] := by
    unfold unsent
    rw [free]
    exact empty
  have same := (batched.aligned dest).same
  have counted := batched.counted dest
  unfold openFlushes at counted
  rw [nothing, pieces_nil] at same
  rw [free] at counted
  exact ⟨same.trans ordered.messages, counted⟩

end Results

end IntegerSortLci.Runtime
