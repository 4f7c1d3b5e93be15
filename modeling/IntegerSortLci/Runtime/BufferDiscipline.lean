import IntegerSortLci.Runtime.ThreadSteps

/-!
# The buffer discipline of a thread

A batch is handed over from the moment LCI accepts it, or the loopback receiver
gets it, until `release`. Meanwhile its buffer must not be pushed to, and every
record in it must be part of the batch. `Disciplined` says so for all
suspended calls at once: what a frame may still use is not handed over below
it, a handed-over buffer holds exactly its batch, and a full buffer is inside
the flush that its last push started. A post from a handler keeps this when
`MayPost` holds before it. A worker's own post always finds `MayPost`, because
its stack is empty.
-/

namespace IntegerSortLci.Runtime

set_option autoImplicit false

variable {rankCount : Nat} {Worker Record : Type}

namespace Frame

/-- The buffer a frame is in the middle of pushing to or sending. -/
def target : Frame rankCount Worker Record → Option (Fin rankCount)
  | .push dest _ _ => some dest
  | .send dest _ _ _ => some dest
  | .loopback dest _ _ _ => some dest
  | _ => none

/-- `flush_worker` may go on to any destination. -/
def Claims (frame : Frame rankCount Worker Record) (dest : Fin rankCount) : Prop :=
  frame.target = some dest ∨ ∃ i, frame = .flushWorker i

/-- The batch a frame has handed over and not yet released. -/
def handedOver : Frame rankCount Worker Record → Option (Fin rankCount × List Record)
  | .send dest (.accepted sent) _ _ => some (dest, sent)
  | .loopback dest sent _ _ => some (dest, sent)
  | _ => none

end Frame

abbrev Stack (rankCount : Nat) (Worker Record : Type) := List (Frame rankCount Worker Record)
abbrev Buffers (rankCount : Nat) (Record : Type) := Fin rankCount → SendBuffer Record

/-- The batch for `dest` that some suspended call has handed over. -/
def handedOverBy (dest : Fin rankCount) : Stack rankCount Worker Record → Option (List Record)
  | [] => none
  | frame :: below =>
      match frame.handedOver with
      | some (other, sent) => if other = dest then some sent else handedOverBy dest below
      | none => handedOverBy dest below

def Nested : Stack rankCount Worker Record → Prop
  | [] => True
  | frame :: below =>
      (∀ dest, frame.Claims dest → handedOverBy dest below = none) ∧ Nested below

/-- A full buffer is in the middle of the flush that its last push started. -/
def Covered (config : PhaseConfig rankCount) (buffers : Buffers rankCount Record)
    (stack : Stack rankCount Worker Record) (dest : Fin rankCount) : Prop :=
  (buffers dest).records.length = config.batchRecords →
    ∃ frame ∈ stack, frame.target = some dest

structure Layered (config : PhaseConfig rankCount) (buffers : Buffers rankCount Record)
    (stack : Stack rankCount Worker Record) : Prop where
  capacity : ∀ dest, (buffers dest).capacityRecords = config.batchRecords
  bounded : ∀ dest, (buffers dest).records.length ≤ config.batchRecords
  nested : Nested stack
  held : ∀ dest sent, handedOverBy dest stack = some sent → (buffers dest).records = sent

structure Disciplined (config : PhaseConfig rankCount) (buffers : Buffers rankCount Record)
    (stack : Stack rankCount Worker Record) : Prop extends Layered config buffers stack where
  covered : ∀ dest, Covered config buffers stack dest

/-- The condition on a post: the destination's buffer has room and is not
handed over. -/
def MayPost (config : PhaseConfig rankCount) (thread : ThreadState rankCount Worker Record)
    (dest : Fin rankCount) : Prop :=
  handedOverBy dest thread.stack = none ∧ (thread.sendBuffers dest).size < config.batchRecords

/-- Handler posts are taken only where `MayPost` holds, and a packet reaches a
waiting push only while its buffer is still empty: `push` drops the records
that handlers put into the buffer in the meantime. -/
def SafeAction (config : PhaseConfig rankCount) (thread : ThreadState rankCount Worker Record) :
    Action rankCount Record → Prop
  | .handlerPost dest _ =>
      ∀ rank, checkedDestination rankCount dest = some rank → MayPost config thread rank
  | .getUpacket (some _) =>
      ∀ dest record previous below, thread.stack = .push dest record previous :: below →
        (thread.sendBuffers dest).records = []
  | _ => True

variable {config : PhaseConfig rankCount} {self : Option Worker}
variable {buffers : Buffers rankCount Record} {below stack : Stack rankCount Worker Record}
variable {frame : Frame rankCount Worker Record} {dest : Fin rankCount}

theorem target_of_handed_over {sent : List Record}
    (handed : frame.handedOver = some (dest, sent)) : frame.target = some dest := by
  cases frame with
  | send other status recordCount previous =>
      cases status with
      | accepted batch =>
          obtain ⟨rfl, rfl⟩ := Prod.mk.inj (Option.some.inj handed)
          rfl
      | ready => cases handed
      | retry => cases handed
  | loopback other batch recordCount previous =>
      obtain ⟨rfl, rfl⟩ := Prod.mk.inj (Option.some.inj handed)
      rfl
  | push | postReturn | flushWorker | progress | progressWorker | receive | incoming | aborted =>
      cases handed

theorem handed_over_by_neutral (neutral : frame.handedOver = none) :
    handedOverBy dest (frame :: below) = handedOverBy dest below := by
  rw [handedOverBy, neutral]

theorem handed_over_by_owner {sent : List Record}
    (handed : frame.handedOver = some (dest, sent)) :
    handedOverBy dest (frame :: below) = some sent := by
  rw [handedOverBy, handed]
  exact if_pos rfl

theorem handed_over_by_other {other : Fin rankCount} (target : frame.target = some dest)
    (different : other ≠ dest) :
    handedOverBy other (frame :: below) = handedOverBy other below := by
  cases handed : frame.handedOver with
  | none => exact handed_over_by_neutral handed
  | some batch =>
      obtain ⟨owner, sent⟩ := batch
      have owned := target_of_handed_over handed
      rw [target] at owned
      obtain rfl : dest = owner := Option.some.inj owned
      rw [handedOverBy, handed]
      exact if_neg (Ne.symm different)

theorem handed_over_of_untargeted (untargeted : frame.target = none) :
    frame.handedOver = none := by
  cases handed : frame.handedOver with
  | none => rfl
  | some batch =>
      obtain ⟨owner, sent⟩ := batch
      have owned := target_of_handed_over handed
      rw [untargeted] at owned
      cases owned

theorem idle_may_post {thread : ThreadState rankCount Worker Record}
    (disciplined : Disciplined config thread.sendBuffers thread.stack)
    (idle : thread.stack = []) (dest : Fin rankCount) : MayPost config thread dest := by
  constructor
  · rw [idle]
    rfl
  · have bound := disciplined.bounded dest
    have notFull : (thread.sendBuffers dest).records.length ≠ config.batchRecords := by
      intro full
      obtain ⟨frame, member, _⟩ := disciplined.covered dest full
      rw [idle] at member
      cases member
    exact lt_of_le_of_ne bound notFull

section Stacks

theorem Covered.push (covered : Covered config buffers stack dest)
    (frame : Frame rankCount Worker Record) : Covered config buffers (frame :: stack) dest := by
  intro full
  obtain ⟨owner, member, target⟩ := covered full
  exact ⟨owner, List.mem_cons_of_mem _ member, target⟩

/-- A frame that has handed over nothing goes on top where nothing it claims is
handed over below. -/
theorem Layered.push (layered : Layered config buffers stack)
    (claims : ∀ dest, frame.Claims dest → handedOverBy dest stack = none)
    (neutral : frame.handedOver = none) : Layered config buffers (frame :: stack) where
  capacity := layered.capacity
  bounded := layered.bounded
  nested := ⟨claims, layered.nested⟩
  held other sent handed := by
    rw [handed_over_by_neutral neutral] at handed
    exact layered.held other sent handed

/-- A frame without a target may be put on top, unless it is a whole flush. -/
theorem Layered.push_neutral (layered : Layered config buffers stack)
    (untargeted : frame.target = none) (notFlush : ∀ i, frame ≠ .flushWorker i) :
    Layered config buffers (frame :: stack) := by
  apply layered.push
  · rintro dest (target | ⟨i, flush⟩)
    · rw [untargeted] at target
      cases target
    · exact absurd flush (notFlush i)
  · exact handed_over_of_untargeted untargeted

theorem Disciplined.push_neutral (disciplined : Disciplined config buffers stack)
    (untargeted : frame.target = none) (notFlush : ∀ i, frame ≠ .flushWorker i) :
    Disciplined config buffers (frame :: stack) :=
  ⟨disciplined.toLayered.push_neutral untargeted notFlush,
    fun dest => (disciplined.covered dest).push frame⟩

/-- The frame on top of `below` keeps what it claims out of other hands. -/
theorem Layered.free_below (layered : Layered config buffers (frame :: below))
    (claims : frame.Claims dest) : handedOverBy dest below = none :=
  layered.nested.1 dest claims

theorem Layered.tail (layered : Layered config buffers (frame :: below)) :
    Layered config buffers below where
  capacity := layered.capacity
  bounded := layered.bounded
  nested := layered.nested.2
  held other sent handed := by
    apply layered.held other sent
    cases batch : frame.handedOver with
    | none => rwa [handed_over_by_neutral batch]
    | some owned =>
        obtain ⟨owner, held⟩ := owned
        have target := target_of_handed_over batch
        have free := layered.free_below (.inl target)
        have different : other ≠ owner := by
          rintro rfl
          rw [free] at handed
          cases handed
        rwa [handed_over_by_other target different]

theorem Disciplined.pop_neutral (disciplined : Disciplined config buffers (frame :: below))
    (untargeted : frame.target = none) : Disciplined config buffers below := by
  refine ⟨disciplined.toLayered.tail, ?_⟩
  intro dest full
  obtain ⟨owner, member, target⟩ := disciplined.covered dest full
  rcases List.mem_cons.mp member with rfl | inBelow
  · rw [untargeted] at target
    cases target
  · exact ⟨owner, inBelow, target⟩

theorem Disciplined.swap_top (disciplined : Disciplined config buffers (frame :: below))
    (frame' : Frame rankCount Worker Record) (target : frame'.target = frame.target)
    (layered : Layered config buffers (frame' :: below)) :
    Disciplined config buffers (frame' :: below) := by
  refine ⟨layered, ?_⟩
  intro dest full
  obtain ⟨owner, member, targeted⟩ := disciplined.covered dest full
  rcases List.mem_cons.mp member with rfl | inBelow
  · exact ⟨frame', List.mem_cons_self, target.trans targeted⟩
  · exact ⟨owner, List.mem_cons_of_mem _ inBelow, targeted⟩

/-- The top frame moves on without handing anything over. -/
theorem Disciplined.replace_top (disciplined : Disciplined config buffers (frame :: below))
    (frame' : Frame rankCount Worker Record)
    (claims : ∀ dest, frame'.Claims dest → frame.Claims dest)
    (target : frame'.target = frame.target) (neutral : frame'.handedOver = none) :
    Disciplined config buffers (frame' :: below) := by
  apply disciplined.swap_top frame' target
  apply disciplined.toLayered.tail.push _ neutral
  intro dest claimed
  exact disciplined.toLayered.free_below (claims dest claimed)

/-- The top frame hands over the whole content of the buffer it targets. -/
theorem Layered.hand_over (layered : Layered config buffers stack)
    (handed : frame.handedOver = some (dest, (buffers dest).records))
    (free : handedOverBy dest stack = none) : Layered config buffers (frame :: stack) := by
  have target := target_of_handed_over handed
  refine ⟨layered.capacity, layered.bounded, ⟨?_, layered.nested⟩, ?_⟩
  · rintro other (claimed | ⟨i, flush⟩)
    · rw [target] at claimed
      obtain rfl : dest = other := Option.some.inj claimed
      exact free
    · rw [flush] at handed
      cases handed
  · intro other sent batch
    by_cases same : other = dest
    · subst same
      rw [handed_over_by_owner handed] at batch
      exact Option.some.inj batch
    · rw [handed_over_by_other target same] at batch
      exact layered.held other sent batch

/-- One buffer changes while nobody has handed it over. -/
theorem Layered.set_buffer (layered : Layered config buffers stack)
    (free : handedOverBy dest stack = none) {sendBuffer : SendBuffer Record}
    (capacity : sendBuffer.capacityRecords = config.batchRecords)
    (bounded : sendBuffer.records.length ≤ config.batchRecords) :
    Layered config (Function.update buffers dest sendBuffer) stack := by
  refine ⟨?_, ?_, layered.nested, ?_⟩
  · intro other
    by_cases same : other = dest
    · rw [same, Function.update_self]
      exact capacity
    · rw [Function.update_of_ne same]
      exact layered.capacity other
  · intro other
    by_cases same : other = dest
    · rw [same, Function.update_self]
      exact bounded
    · rw [Function.update_of_ne same]
      exact layered.bounded other
  · intro other sent handed
    have different : other ≠ dest := by
      rintro rfl
      rw [free] at handed
      cases handed
    rw [Function.update_of_ne different]
    exact layered.held other sent handed

/-- The end of a send: the buffer is released with the frame that owned it. -/
theorem Disciplined.release_top (disciplined : Disciplined config buffers (frame :: below))
    (target : frame.target = some dest) :
    Disciplined config (Function.update buffers dest (buffers dest).release) below := by
  have free := disciplined.toLayered.free_below (.inl target)
  refine ⟨disciplined.toLayered.tail.set_buffer free (disciplined.capacity dest) (by simp), ?_⟩
  intro other full
  by_cases same : other = dest
  · rw [same, Function.update_self] at full
    have positive := config.batch_positive
    simp only [SendBuffer.release_records, List.length_nil] at full
    omega
  · rw [Function.update_of_ne same] at full
    obtain ⟨owner, member, targeted⟩ := disciplined.covered other full
    rcases List.mem_cons.mp member with rfl | inBelow
    · rw [target] at targeted
      exact absurd (Option.some.inj targeted).symm same
    · exact ⟨owner, inBelow, targeted⟩

end Stacks

section Calls

variable {thread : ThreadState rankCount Worker Record}

/-- `flush_dest` of a free buffer covers it, if it was full. -/
theorem flush_dest_disciplined (layered : Layered config thread.sendBuffers thread.stack)
    (free : handedOverBy dest thread.stack = none)
    (covered : ∀ other, other ≠ dest → Covered config thread.sendBuffers thread.stack other) :
    Disciplined config (thread.flushDest config self dest).sendBuffers
      (thread.flushDest config self dest).stack := by
  have covers : ∀ frame : Frame rankCount Worker Record, frame.target = some dest →
      ∀ other, Covered config thread.sendBuffers (frame :: thread.stack) other := by
    intro frame target other
    by_cases same : other = dest
    · intro _
      exact ⟨frame, List.mem_cons_self, same ▸ target⟩
    · exact (covered other same).push frame
  rcases flush_dest_cases config self thread dest with ⟨empty, made⟩ | ⟨filled, loops, made⟩ |
    ⟨filled, loops, made⟩
  · rw [made]
    refine ⟨layered, ?_⟩
    intro other
    by_cases same : other = dest
    · intro full
      rw [same, empty] at full
      have positive := config.batch_positive
      simp only [List.length_nil] at full
      omega
    · exact covered other same
  · rw [made]
    have owned : Disciplined config thread.sendBuffers
        (.loopback dest (thread.sendBuffers dest).records (thread.sendBuffers dest).size
          thread.profileWorker :: thread.stack) :=
      ⟨layered.hand_over rfl free, covers _ rfl⟩
    exact owned.push_neutral rfl (by simp)
  · rw [made]
    refine ⟨layered.push ?_ rfl, covers _ rfl⟩
    rintro other (target | ⟨i, flush⟩)
    · obtain rfl : dest = other := Option.some.inj target
      exact free
    · cases flush

theorem after_push_disciplined {previous : Option Worker}
    (layered : Layered config thread.sendBuffers thread.stack)
    (free : handedOverBy dest thread.stack = none)
    (covered : ∀ other, other ≠ dest → Covered config thread.sendBuffers thread.stack other) :
    Disciplined config (thread.afterPush config self dest previous).sendBuffers
      (thread.afterPush config self dest previous).stack := by
  rcases after_push_cases config self thread dest previous with ⟨full, made⟩ | ⟨full, made⟩
  · rw [made]
    apply flush_dest_disciplined
    · exact layered.push_neutral rfl (by simp)
    · exact free
    · intro other different
      exact (covered other different).push _
  · rw [made]
    refine ⟨layered, ?_⟩
    intro other
    by_cases same : other = dest
    · intro isFull
      rw [same] at isFull
      exact absurd (isFull.trans (layered.capacity dest).symm) full
    · exact covered other same

private theorem covered_update (covered : ∀ other, Covered config buffers stack other)
    (sendBuffer : SendBuffer Record) (other : Fin rankCount) (different : other ≠ dest) :
    Covered config (Function.update buffers dest sendBuffer) stack other := by
  intro full
  rw [Function.update_of_ne different] at full
  exact covered other full

theorem post_record_disciplined {record : Record}
    (disciplined : Disciplined config thread.sendBuffers thread.stack)
    (mayPost : MayPost config thread dest) :
    Disciplined config (thread.postRecord config self dest record).sendBuffers
      (thread.postRecord config self dest record).stack := by
  obtain ⟨free, room⟩ := mayPost
  rcases post_record_cases config self thread dest record with
    ⟨pointer, available, made⟩ | ⟨unavailable, made⟩
  · rw [made]
    apply after_push_disciplined
    · refine disciplined.toLayered.set_buffer free (disciplined.capacity dest) ?_
      rw [ThreadState.open_scope_buffers, SendBuffer.append_records, List.length_append]
      exact room
    · exact free
    · exact covered_update disciplined.covered _
  · rw [made]
    refine ⟨disciplined.toLayered.push ?_ rfl, fun other => (disciplined.covered other).push _⟩
    rintro other (target | ⟨i, flush⟩)
    · obtain rfl : dest = other := Option.some.inj target
      exact free
    · cases flush

theorem post_am_disciplined {dest : Int} {record : Record}
    (disciplined : Disciplined config thread.sendBuffers thread.stack)
    (mayPost : ∀ rank, checkedDestination rankCount dest = some rank → MayPost config thread rank) :
    Disciplined config (thread.postAm config self dest record).sendBuffers
      (thread.postAm config self dest record).stack := by
  rcases post_am_cases config self thread dest record with ⟨rank, checked, made⟩ | ⟨outside, made⟩
  · rw [made]
    exact post_record_disciplined disciplined (mayPost rank checked)
  · rw [made]
    exact disciplined

/-- The packet arrives for a push that has been waiting on top of the stack. -/
theorem adopt_packet_disciplined {record : Record} {previous : Option Worker} {packet : Nat}
    {stale : Nat → Record} (layered : Layered config thread.sendBuffers thread.stack)
    (free : handedOverBy dest thread.stack = none)
    (covered : ∀ other, other ≠ dest → Covered config thread.sendBuffers thread.stack other)
    (empty : (thread.sendBuffers dest).records = []) :
    Disciplined config
      (thread.adoptPacket config self dest record previous packet stale).sendBuffers
      (thread.adoptPacket config self dest record previous packet stale).stack := by
  unfold ThreadState.adoptPacket
  have adopted : Layered config (Function.update thread.sendBuffers dest
      ((thread.sendBuffers dest).adopt packet stale)) thread.stack :=
    layered.set_buffer free (layered.capacity dest) (by simp [empty])
  apply after_push_disciplined
  · refine adopted.set_buffer free (adopted.capacity dest) ?_
    have positive := config.batch_positive
    rw [SendBuffer.append_records, List.length_append]
    simp only [ThreadState.emit_buffers, ThreadState.set_buffer_buffers, Function.update_self,
      SendBuffer.adopt_records_of_empty _ _ _ empty, List.length_nil, List.length_singleton]
    omega
  · exact free
  · intro other different full
    simp only [ThreadState.write_buffers, ThreadState.emit_buffers, ThreadState.set_buffer_buffers,
      Function.update_of_ne different] at full
    exact covered other different full

end Calls

theorem initial_disciplined :
    Disciplined config
      (ThreadState.initial config : ThreadState rankCount Worker Record).sendBuffers
      (ThreadState.initial config : ThreadState rankCount Worker Record).stack := by
  refine ⟨⟨fun _ => rfl, fun _ => Nat.zero_le _, trivial, ?_⟩, ?_⟩
  · intro dest sent handed
    cases handed
  · intro dest full
    have positive := config.batch_positive
    simp only [ThreadState.initial, List.length_nil] at full
    omega

variable {thread thread' : ThreadState rankCount Worker Record} {action : Action rankCount Record}

theorem step_disciplined (step : ThreadStep config self thread action thread')
    (safe : SafeAction config thread action)
    (disciplined : Disciplined config thread.sendBuffers thread.stack) :
    Disciplined config thread'.sendBuffers thread'.stack := by
  cases step with
  | postAm dest record worker owner idle =>
      exact post_am_disciplined disciplined fun rank _ => idle_may_post disciplined idle rank
  | handlerPost dest record current worker owner source loopback captured recordCount pending
      below top =>
      exact post_am_disciplined disciplined safe
  | flush worker owner idle =>
      rw [idle] at disciplined
      refine ⟨disciplined.toLayered.push ?_ rfl, fun other => (disciplined.covered other).push _⟩
      intro other _
      rfl
  | progress worker owner idle =>
      rw [idle] at disciplined
      have entered : Disciplined config thread.sendBuffers
          [.progressWorker thread.profileWorker] := disciplined.push_neutral rfl (by simp)
      exact entered.push_neutral rfl (by simp)
  | collectiveProgress control idle =>
      rw [idle] at disciplined
      exact disciplined.push_neutral rfl (by simp)
  | upacketNull dest record previous below top =>
      rw [top] at disciplined
      exact disciplined.push_neutral rfl (by simp)
  | upacket dest record previous below packet stale top =>
      have empty := safe dest record previous below top
      rw [top] at disciplined
      apply adopt_packet_disciplined disciplined.toLayered.tail
      · exact disciplined.toLayered.free_below (.inl rfl)
      · intro other different full
        obtain ⟨owner, member, targeted⟩ := disciplined.covered other full
        rcases List.mem_cons.mp member with rfl | inBelow
        · exact absurd (Option.some.inj targeted).symm different
        · exact ⟨owner, inBelow, targeted⟩
      · exact empty
  | retry dest recordCount previous below top =>
      rw [top] at disciplined
      have waiting : Disciplined config thread.sendBuffers
          (.send dest .retry recordCount previous :: below) :=
        disciplined.replace_top _ (by simp [Frame.Claims, Frame.target]) rfl rfl
      exact waiting.push_neutral rfl (by simp)
  | accept dest recordCount previous below top =>
      rw [top] at disciplined
      have free : handedOverBy dest below = none := disciplined.toLayered.free_below (.inl rfl)
      have accepted : Disciplined config thread.sendBuffers
          (.send dest (.accepted (thread.sendBuffers dest).records) recordCount previous ::
            below) :=
        disciplined.swap_top _ rfl (disciplined.toLayered.tail.hand_over rfl free)
      exact accepted.push_neutral rfl (by simp)
  | deliver source records below top =>
      unfold ThreadState.handleIncomingAm
      split
      · have entered : Disciplined config thread.sendBuffers (.incoming :: thread.stack) :=
          disciplined.push_neutral rfl (by simp)
        exact entered.push_neutral rfl (by simp)
      · exact disciplined.push_neutral rfl (by simp)
  | progressEnd below top =>
      rw [top] at disciplined
      exact disciplined.pop_neutral rfl
  | handlerReturn source loopback captured recordCount pending record below top =>
      rw [top] at disciplined
      exact (disciplined.pop_neutral rfl).push_neutral rfl (by simp)
  | postReturn elapsed previous below top =>
      rw [top] at disciplined
      exact disciplined.pop_neutral rfl
  | flushNext elapsed i below top more =>
      rw [top] at disciplined
      have advanced : Disciplined config thread.sendBuffers (.flushWorker (i + 1) :: below) :=
        disciplined.replace_top _ (by simp [Frame.Claims]) rfl rfl
      apply flush_dest_disciplined advanced.toLayered
      · exact disciplined.toLayered.free_below (.inr ⟨i, rfl⟩)
      · intro other _
        exact advanced.covered other
  | flushEnd elapsed i below top finished =>
      rw [top] at disciplined
      exact disciplined.pop_neutral rfl
  | sendAgain elapsed dest recordCount previous below top =>
      rw [top] at disciplined
      exact disciplined.replace_top _ (by simp [Frame.Claims, Frame.target]) rfl rfl
  | sendRelease elapsed dest sent recordCount previous below top =>
      rw [top] at disciplined
      exact disciplined.release_top rfl
  | loopbackRelease elapsed dest sent recordCount previous below top =>
      rw [top] at disciplined
      simpa using disciplined.release_top rfl
  | progressReturn elapsed previous below top =>
      rw [top] at disciplined
      exact disciplined.pop_neutral rfl
  | invoke elapsed source loopback captured recordCount record pending below top =>
      rw [top] at disciplined
      exact (disciplined.pop_neutral rfl).push_neutral rfl (by simp)
  | receiveEnd elapsed source loopback captured recordCount below top =>
      rw [top] at disciplined
      exact disciplined.pop_neutral rfl
  | incomingEnd elapsed below top =>
      rw [top] at disciplined
      exact disciplined.pop_neutral rfl

/-- Every state of a run whose steps are safe. -/
theorem reachable_disciplined
    (reached : (threadSystem config self).Reachable (SafeAction config) (.initial config) thread) :
    Disciplined config thread.sendBuffers thread.stack := by
  apply reached.invariant initial_disciplined
  intro before after action _ disciplined safe stepped
  exact step_disciplined (thread_step_cases stepped) safe disciplined

end IntegerSortLci.Runtime
