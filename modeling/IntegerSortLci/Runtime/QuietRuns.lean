import IntegerSortLci.Runtime.SendLedger

/-!
# Runs without calls from handlers

When no handler calls back, the calls of a thread nest in one fixed order: one
call of the worker at the bottom, at most one send inside it, at most one
progress inside that, and a receive only on top. `QuietStack` states this order
by levels, with what each suspended call may assume about the buffers. Quiet
runs are safe, and a completed flush leaves every buffer empty.
-/

namespace IntegerSortLci.Runtime

open Foundations

set_option autoImplicit false

variable {rankCount : Nat} {Worker Record : Type}

/-- No handler calls back into the library. -/
def QuietAction : Action rankCount Record → Prop
  | .handlerPost _ _ => False
  | _ => True

def Frame.level : Frame rankCount Worker Record → Nat
  | .push _ _ _ => 0
  | .postReturn _ => 0
  | .flushWorker _ => 0
  | .progressWorker _ => 0
  | .send _ _ _ _ => 1
  | .loopback _ _ _ _ => 1
  | .progress => 2
  | .incoming => 3
  | .receive _ _ _ _ _ _ => 4
  | .aborted => 4

/-- What a suspended call relies on. -/
def Fits (config : PhaseConfig rankCount) (buffers : Buffers rankCount Record)
    (stack : Stack rankCount Worker Record) : Frame rankCount Worker Record → Prop
  | .push dest _ _ => (buffers dest).records = []
  | .send dest _ recordCount _ =>
      recordCount = (buffers dest).records.length ∧ (buffers dest).records ≠ [] ∧
        config.loopsBack dest = false
  | .loopback dest sent recordCount _ =>
      recordCount = sent.length ∧ sent ≠ [] ∧ config.loopsBack dest = true
  | .flushWorker i =>
      ∀ j, j < i → (buffers (config.flushTarget j)).records = [] ∨
        ∃ frame ∈ stack, frame.target = some (config.flushTarget j)
  | _ => True

structure QuietStack (config : PhaseConfig rankCount) (buffers : Buffers rankCount Record)
    (stack : Stack rankCount Worker Record) : Prop where
  ordered : stack.Pairwise fun upper lower => lower.level < upper.level
  fits : ∀ frame ∈ stack, Fits config buffers stack frame
  unallocated : ∀ dest, (buffers dest).buffer = none → (buffers dest).records = []

/-- One event's effect on whether the thread has flushed since its last push. -/
def trackFlushed (flushed : Bool) : Event rankCount Worker Record → Bool
  | .posted _ _ _ _ => false
  | .flushReturned => true
  | _ => flushed

def flushedSincePush (log : Log rankCount Worker Record) : Bool := log.foldl trackFlushed true

structure Quiet (config : PhaseConfig rankCount) (thread : ThreadState rankCount Worker Record) :
    Prop where
  stack : QuietStack config thread.sendBuffers thread.stack
  flushed : flushedSincePush thread.log = true → ∀ dest, (thread.sendBuffers dest).records = []

variable {config : PhaseConfig rankCount} {self : Option Worker}
variable {buffers : Buffers rankCount Record} {below stack : Stack rankCount Worker Record}
variable {frame top : Frame rankCount Worker Record} {dest : Fin rankCount}
variable {log : Log rankCount Worker Record}

theorem flushed_since_append (first second : Log rankCount Worker Record) :
    flushedSincePush (first ++ second) = second.foldl trackFlushed (flushedSincePush first) :=
  List.foldl_append

/-- `(rank + j) % rank_count` reaches every rank. -/
theorem flush_target_reaches (config : PhaseConfig rankCount) (dest : Fin rankCount) :
    ∃ j, j < rankCount ∧ config.flushTarget j = dest := by
  have rankBound := config.rank.isLt
  have destBound := dest.isLt
  refine ⟨(dest.val + (rankCount - config.rank.val)) % rankCount,
    Nat.mod_lt _ (by omega), Fin.ext ?_⟩
  show (config.rank.val + (dest.val + (rankCount - config.rank.val)) % rankCount) % rankCount =
    dest.val
  rw [Nat.add_mod_mod]
  have shifted : config.rank.val + (dest.val + (rankCount - config.rank.val)) =
      dest.val + rankCount := by omega
  rw [shifted, Nat.add_mod_right, Nat.mod_eq_of_lt destBound]

section Stacks

theorem Fits.mono (fits : Fits config buffers stack frame)
    {stack' : Stack rankCount Worker Record} (more : ∀ owner ∈ stack, owner ∈ stack') :
    Fits config buffers stack' frame := by
  cases frame with
  | flushWorker i =>
      intro j earlier
      rcases fits j earlier with empty | ⟨owner, member, target⟩
      · exact .inl empty
      · exact .inr ⟨owner, more owner member, target⟩
  | _ => exact fits

theorem QuietStack.tail (quiet : QuietStack config buffers (top :: below))
    (untargeted : top.target = none) : QuietStack config buffers below := by
  refine ⟨(List.pairwise_cons.mp quiet.ordered).2, ?_, quiet.unallocated⟩
  intro frame member
  have fits := quiet.fits frame (List.mem_cons_of_mem _ member)
  cases frame with
  | flushWorker i =>
      intro j earlier
      rcases fits j earlier with empty | ⟨owner, inStack, target⟩
      · exact .inl empty
      · rcases List.mem_cons.mp inStack with rfl | inBelow
        · rw [untargeted] at target
          cases target
        · exact .inr ⟨owner, inBelow, target⟩
  | _ => exact fits

theorem QuietStack.push (quiet : QuietStack config buffers stack)
    (above : ∀ lower ∈ stack, lower.level < frame.level)
    (fits : Fits config buffers (frame :: stack) frame) :
    QuietStack config buffers (frame :: stack) := by
  refine ⟨List.pairwise_cons.mpr ⟨above, quiet.ordered⟩, ?_, quiet.unallocated⟩
  intro other member
  rcases List.mem_cons.mp member with rfl | inStack
  · exact fits
  · exact (quiet.fits other inStack).mono fun owner inside => List.mem_cons_of_mem _ inside

/-- A frame goes on top of one of a lower level. -/
theorem QuietStack.push_on (quiet : QuietStack config buffers (top :: below))
    (higher : top.level < frame.level)
    (fits : Fits config buffers (frame :: top :: below) frame) :
    QuietStack config buffers (frame :: top :: below) := by
  apply quiet.push _ fits
  intro lower member
  rcases List.mem_cons.mp member with rfl | inBelow
  · exact higher
  · exact ((List.pairwise_cons.mp quiet.ordered).1 lower inBelow).trans higher

theorem QuietStack.replace_top (quiet : QuietStack config buffers (top :: below))
    (frame : Frame rankCount Worker Record) (level : frame.level = top.level)
    (target : frame.target = top.target) (fits : Fits config buffers (frame :: below) frame) :
    QuietStack config buffers (frame :: below) := by
  have order := List.pairwise_cons.mp quiet.ordered
  refine ⟨List.pairwise_cons.mpr ⟨?_, order.2⟩, ?_, quiet.unallocated⟩
  · intro lower member
    rw [level]
    exact order.1 lower member
  · intro other member
    rcases List.mem_cons.mp member with rfl | inBelow
    · exact fits
    · have old := quiet.fits other (List.mem_cons_of_mem _ inBelow)
      cases other with
      | flushWorker i =>
          intro j earlier
          rcases old j earlier with empty | ⟨owner, inStack, targeted⟩
          · exact .inl empty
          · rcases List.mem_cons.mp inStack with rfl | inside
            · exact .inr ⟨frame, List.mem_cons_self, target.trans targeted⟩
            · exact .inr ⟨owner, List.mem_cons_of_mem _ inside, targeted⟩
      | _ => exact old

/-- Below a call of the worker there is nothing. -/
theorem QuietStack.bottom (quiet : QuietStack config buffers (top :: below))
    (lowest : top.level = 0) : below = [] := by
  cases below with
  | nil => rfl
  | cons lower rest =>
      have order := (List.pairwise_cons.mp quiet.ordered).1 lower List.mem_cons_self
      omega

/-- The end of a send. -/
theorem QuietStack.release_top (quiet : QuietStack config buffers (top :: below))
    (level : top.level = 1) (target : top.target = some dest) :
    QuietStack config (Function.update buffers dest (buffers dest).release) below := by
  have order := List.pairwise_cons.mp quiet.ordered
  have keepsEmpty : ∀ other, (buffers other).records = [] →
      (Function.update buffers dest (buffers dest).release other).records = [] := by
    intro other empty
    by_cases same : other = dest
    · rw [same, Function.update_self]
      rfl
    · rw [Function.update_of_ne same]
      exact empty
  refine ⟨order.2, ?_, ?_⟩
  · intro other member
    have lower := order.1 other member
    rw [level] at lower
    have old := quiet.fits other (List.mem_cons_of_mem _ member)
    cases other with
    | push owner record previous => exact keepsEmpty owner old
    | flushWorker i =>
        intro j earlier
        rcases old j earlier with empty | ⟨owner, inStack, targeted⟩
        · exact .inl (keepsEmpty _ empty)
        · rcases List.mem_cons.mp inStack with rfl | inside
          · rw [target] at targeted
            obtain rfl := Option.some.inj targeted
            exact .inl (by rw [Function.update_self]; rfl)
          · exact .inr ⟨owner, inside, targeted⟩
    | postReturn => exact old
    | progressWorker => exact old
    | send | loopback | progress | incoming | receive | aborted =>
        simp only [Frame.level] at lower
        omega
  · intro other null
    by_cases same : other = dest
    · rw [same, Function.update_self]
      rfl
    · rw [Function.update_of_ne same] at null ⊢
      exact quiet.unallocated other null

end Stacks

section Calls

variable {thread : ThreadState rankCount Worker Record}

/-- `flush_dest` under a call of the worker that relies on `dest` only once it
is empty or being sent. -/
theorem flush_dest_quiet
    (ordered : thread.stack.Pairwise fun upper lower => lower.level < upper.level)
    (unallocated : ∀ other, (thread.sendBuffers other).buffer = none →
      (thread.sendBuffers other).records = [])
    (outer : ∀ lower ∈ thread.stack, lower.level = 0)
    (fits : ∀ frame ∈ thread.stack, ∀ stack, (∀ owner ∈ thread.stack, owner ∈ stack) →
      ((thread.sendBuffers dest).records = [] ∨ ∃ owner ∈ stack, owner.target = some dest) →
      Fits config thread.sendBuffers stack frame) :
    QuietStack config (thread.flushDest config self dest).sendBuffers
      (thread.flushDest config self dest).stack := by
  have sending : ∀ frame : Frame rankCount Worker Record, frame.level = 1 →
      frame.target = some dest → Fits config thread.sendBuffers (frame :: thread.stack) frame →
      QuietStack config thread.sendBuffers (frame :: thread.stack) := by
    intro frame level target own
    refine ⟨List.pairwise_cons.mpr ⟨?_, ordered⟩, ?_, unallocated⟩
    · intro lower member
      rw [level, outer lower member]
      exact Nat.one_pos
    · intro other member
      rcases List.mem_cons.mp member with rfl | inStack
      · exact own
      · apply fits other inStack
        · intro owner inside
          exact List.mem_cons_of_mem _ inside
        · exact .inr ⟨frame, List.mem_cons_self, target⟩
  rcases flush_dest_cases config self thread dest with ⟨empty, made⟩ | ⟨filled, loops, made⟩ |
    ⟨filled, loops, made⟩
  · rw [made]
    refine ⟨ordered, ?_, unallocated⟩
    intro frame member
    exact fits frame member _ (fun _ inside => inside) (.inl empty)
  · rw [made]
    have owned : QuietStack config thread.sendBuffers
        (.loopback dest (thread.sendBuffers dest).records (thread.sendBuffers dest).size
          thread.profileWorker :: thread.stack) :=
      sending _ rfl rfl ⟨rfl, filled, loops⟩
    exact owned.push_on (by simp [Frame.level]) trivial
  · rw [made]
    exact sending _ rfl rfl ⟨rfl, filled, Bool.eq_false_iff.mpr loops⟩

/-- `push` has written its record, in a call of an otherwise idle worker. -/
theorem after_push_quiet {previous : Option Worker}
    (quiet : QuietStack config thread.sendBuffers thread.stack) (idle : thread.stack = []) :
    QuietStack config (thread.afterPush config self dest previous).sendBuffers
      (thread.afterPush config self dest previous).stack := by
  have entered : QuietStack config thread.sendBuffers (.postReturn previous :: thread.stack) :=
    quiet.push (by simp [idle]) trivial
  rcases after_push_cases config self thread dest previous with ⟨full, made⟩ | ⟨full, made⟩
  · rw [made]
    apply flush_dest_quiet
    · exact entered.ordered
    · exact entered.unallocated
    · simp [idle, Frame.level]
    · intro frame member stack more _
      exact (entered.fits frame member).mono more
  · rw [made]
    exact quiet

theorem QuietStack.set_buffer
    (quiet : QuietStack config buffers ([] : Stack rankCount Worker Record))
    {sendBuffer : SendBuffer Record} (allocated : sendBuffer.buffer ≠ none) :
    QuietStack config (Function.update buffers dest sendBuffer)
      ([] : Stack rankCount Worker Record) := by
  refine ⟨quiet.ordered, by simp, ?_⟩
  intro other null
  have different : other ≠ dest := by
    rintro rfl
    rw [Function.update_self] at null
    exact allocated null
  rw [Function.update_of_ne different] at null ⊢
  exact quiet.unallocated other null

theorem post_am_quiet {dest : Int} {record : Record}
    (quiet : QuietStack config thread.sendBuffers thread.stack) (idle : thread.stack = []) :
    QuietStack config (thread.postAm config self dest record).sendBuffers
      (thread.postAm config self dest record).stack := by
  have resting := idle ▸ quiet
  rcases post_am_cases config self thread dest record with ⟨rank, checked, made⟩ | ⟨outside, made⟩
  · rw [made]
    rcases post_record_cases config self thread rank record with
      ⟨pointer, available, made⟩ | ⟨unavailable, made⟩
    · rw [made]
      refine after_push_quiet ?_ idle
      rw [ThreadState.write_stack, ThreadState.open_scope_stack, idle]
      exact resting.set_buffer (by simp)
    · rw [made]
      have null : (thread.sendBuffers rank).buffer = none := by
        cases pointer : (thread.sendBuffers rank).buffer with
        | none => rfl
        | some found => simp [pointer] at unavailable
      apply quiet.push
      · simp [idle]
      · exact quiet.unallocated rank null
  · rw [made]
    exact quiet

end Calls

theorem initial_quiet :
    Quiet config (ThreadState.initial config : ThreadState rankCount Worker Record) where
  stack := ⟨List.Pairwise.nil, by simp [ThreadState.initial], fun _ _ => rfl⟩
  flushed _ _ := rfl

variable {thread thread' : ThreadState rankCount Worker Record} {action : Action rankCount Record}

theorem quiet_safe (quiet : Quiet config thread) (silent : QuietAction action) :
    SafeAction config thread action := by
  cases action with
  | handlerPost dest record => exact silent.elim
  | getUpacket answer =>
      cases answer with
      | none => trivial
      | some packet =>
          intro dest record previous below top
          have member : .push dest record previous ∈ thread.stack := by
            rw [top]
            exact List.mem_cons_self
          exact quiet.stack.fits _ member
  | _ => trivial

private theorem step_quiet_stack (step : ThreadStep config self thread action thread')
    (silent : QuietAction action)
    (quiet : QuietStack config thread.sendBuffers thread.stack) :
    QuietStack config thread'.sendBuffers thread'.stack := by
  have resting := quiet
  cases step with
  | postAm dest record worker owner idle => exact post_am_quiet quiet idle
  | handlerPost => exact silent.elim
  | flush worker owner idle =>
      rw [idle] at resting
      refine resting.push (by simp) ?_
      intro j earlier
      exact absurd earlier (Nat.not_lt_zero j)
  | progress worker owner idle =>
      rw [idle] at resting
      have entered : QuietStack config thread.sendBuffers
          [.progressWorker thread.profileWorker] := resting.push (by simp) trivial
      exact entered.push_on (by simp [Frame.level]) trivial
  | collectiveProgress control idle =>
      rw [idle] at resting
      exact resting.push (by simp) trivial
  | upacketNull dest record previous below top =>
      rw [top] at resting
      exact resting.push_on (by simp [Frame.level]) trivial
  | upacket dest record previous below packet stale top =>
      rw [top] at resting
      obtain rfl := resting.bottom rfl
      have alone : QuietStack config thread.sendBuffers ([] : Stack rankCount Worker Record) :=
        ⟨List.Pairwise.nil, by simp, resting.unallocated⟩
      unfold ThreadState.adoptPacket
      apply after_push_quiet
      · exact (alone.set_buffer (by simp [SendBuffer.adopt])).set_buffer (by simp)
      · rfl
  | retry dest recordCount previous below top =>
      rw [top] at resting
      have waiting : QuietStack config thread.sendBuffers
          (.send dest .retry recordCount previous :: below) :=
        resting.replace_top _ rfl rfl (resting.fits _ List.mem_cons_self)
      exact waiting.push_on (by simp [Frame.level]) trivial
  | accept dest recordCount previous below top =>
      rw [top] at resting
      have accepted : QuietStack config thread.sendBuffers
          (.send dest (.accepted (thread.sendBuffers dest).records) recordCount previous ::
            below) :=
        resting.replace_top _ rfl rfl (resting.fits _ List.mem_cons_self)
      exact accepted.push_on (by simp [Frame.level]) trivial
  | deliver source records below top =>
      rw [top] at resting
      unfold ThreadState.handleIncomingAm
      rw [top]
      split
      · have entered : QuietStack config thread.sendBuffers (.incoming :: .progress :: below) :=
          resting.push_on (by simp [Frame.level]) trivial
        exact entered.push_on (by simp [Frame.level]) trivial
      · exact resting.push_on (by simp [Frame.level]) trivial
  | progressEnd below top =>
      rw [top] at resting
      exact resting.tail rfl
  | handlerReturn source loopback captured recordCount pending record below top =>
      rw [top] at resting
      exact resting.replace_top _ rfl rfl trivial
  | postReturn elapsed previous below top =>
      rw [top] at resting
      exact resting.tail rfl
  | flushNext elapsed i below top more =>
      rw [top] at resting
      obtain rfl := resting.bottom rfl
      apply flush_dest_quiet
      · exact List.pairwise_singleton _ _
      · exact resting.unallocated
      · simp [Frame.level]
      · intro frame member stack more now
        obtain rfl := List.mem_singleton.mp member
        intro j earlier
        rcases Nat.lt_succ_iff_lt_or_eq.mp earlier with before | rfl
        · rcases resting.fits _ List.mem_cons_self j before with empty | ⟨owner, inStack, target⟩
          · exact .inl empty
          · obtain rfl := List.mem_singleton.mp inStack
            cases target
        · exact now
  | flushEnd elapsed i below top finished =>
      rw [top] at resting
      exact resting.tail rfl
  | sendAgain elapsed dest recordCount previous below top =>
      rw [top] at resting
      exact resting.replace_top _ rfl rfl (resting.fits _ List.mem_cons_self)
  | sendRelease elapsed dest sent recordCount previous below top =>
      rw [top] at resting
      exact resting.release_top rfl rfl
  | loopbackRelease elapsed dest sent recordCount previous below top =>
      rw [top] at resting
      simpa using resting.release_top rfl rfl
  | progressReturn elapsed previous below top =>
      rw [top] at resting
      exact resting.tail rfl
  | invoke elapsed source loopback captured recordCount record pending below top =>
      rw [top] at resting
      exact resting.replace_top _ rfl rfl trivial
  | receiveEnd elapsed source loopback captured recordCount below top =>
      rw [top] at resting
      exact resting.tail rfl
  | incomingEnd elapsed below top =>
      rw [top] at resting
      exact resting.tail rfl

private theorem flush_dest_flushed (config : PhaseConfig rankCount) (self : Option Worker)
    (thread : ThreadState rankCount Worker Record) (dest : Fin rankCount) :
    flushedSincePush (thread.flushDest config self dest).log = flushedSincePush thread.log ∧
      (thread.flushDest config self dest).sendBuffers = thread.sendBuffers := by
  rcases flush_dest_cases config self thread dest with ⟨empty, made⟩ | ⟨filled, loops, made⟩ |
    ⟨filled, loops, made⟩
  · rw [made]
    exact ⟨rfl, rfl⟩
  · rw [made]
    simp [flushed_since_append, trackFlushed]
  · rw [made]
    exact ⟨rfl, rfl⟩

private theorem after_push_not_flushed (thread : ThreadState rankCount Worker Record)
    (dest : Fin rankCount) (previous : Option Worker)
    (pushed : flushedSincePush thread.log = false) :
    flushedSincePush (thread.afterPush config self dest previous).log = false := by
  rcases after_push_cases config self thread dest previous with ⟨full, made⟩ | ⟨full, made⟩
  · rw [made]
    rw [(flush_dest_flushed config self _ dest).1]
    exact pushed
  · rw [made]
    simpa [flushed_since_append, trackFlushed] using pushed

private theorem post_am_flushed (thread : ThreadState rankCount Worker Record) (dest : Int)
    (record : Record)
    (flushed : flushedSincePush (thread.postAm config self dest record).log = true) :
    flushedSincePush thread.log = true ∧
      (thread.postAm config self dest record).sendBuffers = thread.sendBuffers := by
  rcases post_am_cases config self thread dest record with ⟨rank, checked, made⟩ | ⟨outside, made⟩
  · rw [made] at flushed ⊢
    rcases post_record_cases config self thread rank record with
      ⟨pointer, available, made⟩ | ⟨unavailable, made⟩
    · rw [made, after_push_not_flushed] at flushed
      · cases flushed
      · simp [flushed_since_append, trackFlushed]
    · rw [made] at flushed ⊢
      exact ⟨flushed, rfl⟩
  · rw [made] at flushed ⊢
    exact ⟨by simpa [flushed_since_append, trackFlushed] using flushed, rfl⟩

private theorem released_empty {buffers : Buffers rankCount Record} (dest : Fin rankCount)
    (empty : ∀ other, (buffers other).records = []) (other : Fin rankCount) :
    (Function.update buffers dest (buffers dest).release other).records = [] := by
  by_cases same : other = dest
  · rw [same, Function.update_self]
    rfl
  · rw [Function.update_of_ne same]
    exact empty other

/-- Only the end of a whole flush sets the mark, and then every destination was
visited and nothing is under way. -/
private theorem step_flushed (step : ThreadStep config self thread action thread')
    (silent : QuietAction action) (quiet : Quiet config thread)
    (flushed : flushedSincePush thread'.log = true) :
    ∀ dest, (thread'.sendBuffers dest).records = [] := by
  have unchanged := quiet.flushed
  cases step with
  | postAm dest record worker owner idle =>
      obtain ⟨before, same⟩ := post_am_flushed thread dest record flushed
      rw [same]
      exact unchanged before
  | handlerPost => exact silent.elim
  | upacket dest record previous below packet stale top =>
      unfold ThreadState.adoptPacket at flushed
      rw [after_push_not_flushed] at flushed
      · cases flushed
      · simp [flushed_since_append, trackFlushed]
  | flushNext elapsed i below top more =>
      obtain ⟨log, buffers⟩ := flush_dest_flushed config self
        (thread.withStack (.flushWorker (i + 1) :: below)) (config.flushTarget i)
      rw [log] at flushed
      rw [buffers]
      exact unchanged flushed
  | flushEnd elapsed i below top finished =>
      have resting := quiet.stack
      rw [top] at resting
      obtain rfl := resting.bottom rfl
      intro dest
      obtain ⟨j, bound, reached⟩ := flush_target_reaches config dest
      rcases resting.fits _ List.mem_cons_self j (by omega) with empty | ⟨owner, member, target⟩
      · rw [← reached]
        exact empty
      · obtain rfl := List.mem_singleton.mp member
        cases target
  | sendRelease elapsed dest sent recordCount previous below top =>
      apply released_empty
      apply unchanged
      simpa [flushed_since_append, trackFlushed] using flushed
  | loopbackRelease elapsed dest sent recordCount previous below top =>
      rw [ThreadState.finish_flush_buffers, ThreadState.with_stack_buffers,
        ThreadState.return_packet_buffers]
      apply released_empty
      apply unchanged
      unfold ThreadState.returnPacket at flushed
      split at flushed <;> simpa [flushed_since_append, trackFlushed] using flushed
  | deliver source records below top =>
      unfold ThreadState.handleIncomingAm at flushed ⊢
      split at flushed
      · apply unchanged
        simpa [flushed_since_append, trackFlushed] using flushed
      · apply unchanged
        simpa [flushed_since_append, trackFlushed] using flushed
  | flush | progress | collectiveProgress | upacketNull | progressEnd | sendAgain =>
      exact unchanged flushed
  | retry | accept | handlerReturn | postReturn | progressReturn | invoke | receiveEnd |
      incomingEnd =>
      apply unchanged
      simpa [flushed_since_append, trackFlushed] using flushed

theorem step_quiet (step : ThreadStep config self thread action thread')
    (silent : QuietAction action) (quiet : Quiet config thread) : Quiet config thread' :=
  ⟨step_quiet_stack step silent quiet.stack, step_flushed step silent quiet⟩

theorem reachable_quiet
    (reached : (threadSystem config self).Reachable (fun _ => QuietAction) (.initial config)
      thread) : Quiet config thread := by
  apply reached.invariant initial_quiet
  intro before after action _ quiet silent stepped
  exact step_quiet (thread_step_cases stepped) silent quiet

theorem reachable_safe
    (reached : (threadSystem config self).Reachable (fun _ => QuietAction) (.initial config)
      thread) :
    (threadSystem config self).Reachable (SafeAction config) (.initial config) thread := by
  induction reached with
  | start => exact .start
  | next prior silent stepped ih =>
      exact ih.next (quiet_safe (reachable_quiet prior) silent) stepped

end IntegerSortLci.Runtime
