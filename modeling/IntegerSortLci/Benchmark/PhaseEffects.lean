import IntegerSortLci.Benchmark.RankRuns
import IntegerSortLci.Runtime.ProfileAccounts

/-!
# What a redistribution leaves behind on a rank

Threads, retries and deliveries may interleave as they like. At the end of the parallel
region the messages that a rank has sent are determined by the keys and the batch size, and
the memory that its handler wrote is that of one call after the other for the keys that all
ranks have routed to it, in some order.
-/

namespace IntegerSortLci.Benchmark

open IntegerSortLci.Runtime IntegerSortLci.Foundations
open scoped BigOperators

set_option autoImplicit false

variable {commSize : Nat} {Worker Memory : Type} [Fintype Worker] [DecidableEq Worker]
variable {inputs : Redistribution.Inputs commSize Worker Memory} {sound : SoundInputs inputs}
variable {state : Redistribution commSize Worker Memory} {rank : Fin commSize}

section Messages

omit [Fintype Worker] [DecidableEq Worker] in
/-- The measured flushes of a thread, destination by destination. -/
theorem flush_calls_by_destination (log : Log commSize Worker Nat) :
    tally (aggregateWeight .flush .calls) log =
      ∑ dest : Fin commSize, tally (Event.flushCallsTo dest) log := by
  rw [← tally_sum]
  apply tally_congr
  intro event _
  cases event with
  | flushed other worker recordCount payloadBytes elapsed =>
      simp [aggregateWeight, Event.measured, Measured.count, Event.flushCallsTo]
  | received loopback worker recordCount payloadBytes elapsed =>
      cases loopback <;> simp [aggregateWeight, Event.measured, Event.flushCallsTo]
  | _ => simp [aggregateWeight, Event.measured, Event.flushCallsTo]

variable {am : PhaseState commSize Worker Nat Memory} {given : Memory → Prop}

/-- At the end of the parallel region a worker has sent its share. -/
theorem team_done_batches (coherent : Coherent sound state)
    (run : RankRun (inputs (state.ranks rank).phase rank) given
      (state.ranks rank) am)
    (present : (state.ranks rank).amState = some am)
    (finished : state.TeamDone (inputs (state.ranks rank).phase rank) rank) (worker : Worker)
    (dest : Fin commSize) :
    batchesTo dest (am.threads (some worker)).log =
        packed (inputs (state.ranks rank).phase rank).config.batch_positive
          ((inputs (state.ranks rank).phase rank).keysFor dest
            ((inputs (state.ranks rank).phase rank).share worker)) ∧
      tally (Event.flushCallsTo dest) (am.threads (some worker)).log =
        (batchesTo dest (am.threads (some worker)).log).length := by
  have fits := team_done_fits coherent finished worker
  rw [(coherent.ranks rank).present am present] at fits
  obtain ⟨memory, -, reached⟩ := run.reached
  have submitted := fits.submitted dest
  unfold ThreadState.submitted at submitted
  rw [(fits.draining rfl).settled dest, List.append_nil] at submitted
  have posted : postedTo dest (am.threads (some worker)).log =
      (inputs (state.ranks rank).phase rank).keysFor dest
        ((inputs (state.ranks rank).phase rank).share worker) :=
    (List.append_nil _).symm.trans submitted
  rw [← posted]
  exact posts_first_batches (phase_thread_reachable reached (some worker))
    (run.ordered (some worker)) (fits.finished rfl).1 dest

/-- The control thread sends nothing. -/
theorem control_batches (coherent : Coherent sound state)
    (run : RankRun (inputs (state.ranks rank).phase rank) given
      (state.ranks rank) am)
    (present : (state.ranks rank).amState = some am) (dest : Fin commSize) :
    tally (Event.flushCallsTo dest) (am.threads none).log = 0 := by
  have control := fun dest => (coherent.ranks rank).control (state.ranks rank).phase dest
  rw [(coherent.ranks rank).present am present] at control
  have silent : ∀ dest, postedTo dest (am.threads none).log = [] :=
    fun dest => (List.append_eq_nil_iff.mp (control dest)).1
  obtain ⟨memory, -, reached⟩ := run.reached
  obtain ⟨batches, calls⟩ := posts_first_batches (phase_thread_reachable reached none)
    (run.ordered none) (flushed_of_unposted silent) dest
  rw [calls, batches, silent dest]
  rfl

/-- The flushes that a profile counts are the messages of the team. -/
theorem team_done_flush_calls (coherent : Coherent sound state)
    (run : RankRun (inputs (state.ranks rank).phase rank) given
      (state.ranks rank) am)
    (present : (state.ranks rank).amState = some am)
    (finished : state.TeamDone (inputs (state.ranks rank).phase rank) rank)
    (enabled : (inputs (state.ranks rank).phase rank).config.profilingEnabled = true) :
    (am.amProfile.aggregate .flush).calls = ∑ worker, ∑ dest,
      (packed (inputs (state.ranks rank).phase rank).config.batch_positive
        ((inputs (state.ranks rank).phase rank).keysFor dest
          ((inputs (state.ranks rank).phase rank).share worker))).length := by
  obtain ⟨memory, -, reached⟩ := run.reached
  have recording : am.profile.enabled = true := (profile_enabled reached).trans enabled
  have shown : am.amProfile.aggregate = am.profile.aggregate := by
    simp [PhaseState.amProfile, AmProfileRecorder.snapshot, recording]
  have total := aggregate_total enabled reached .flush .calls
  simp only [AmOperationProfile.count] at total
  rw [shown, total, Fintype.sum_option, flush_calls_by_destination,
    Finset.sum_eq_zero fun dest _ => control_batches coherent run present dest, Nat.zero_add]
  apply Finset.sum_congr rfl
  intro worker _
  rw [flush_calls_by_destination]
  apply Finset.sum_congr rfl
  intro dest _
  obtain ⟨batches, calls⟩ := team_done_batches coherent run present finished worker dest
  rw [calls, batches]

variable {sets : Nat → KeySet commSize}

omit [DecidableEq Worker] in
/-- The keys of a worker's share for `dest`. -/
theorem keys_for_routed (runs : ∀ phase rank, TeamRun (sets phase) rank Worker)
    (handlers : Nat → Fin commSize → AmHandler commSize Nat Memory) (phase : Nat)
    (rank dest : Fin commSize) (worker : Worker) :
    (phaseInputs runs handlers phase rank).keysFor dest
        ((phaseInputs runs handlers phase rank).share worker) =
      ((runs phase rank).share worker).filter fun key => (sets phase).routeKey key == dest := by
  unfold RankInput.keysFor phaseInputs
  simp only [input_route_key]
  rfl

/-- The messages that carry `keys` in batches of `batchRecords`: all of them are full but the
last one, and none is empty. -/
structure CarriesInBatches (batchRecords : Nat) (keys : List Nat) (messages : List (List Nat)) :
    Prop where
  content : messages.flatten = keys
  full : ∀ message ∈ messages.dropLast, message.length = batchRecords
  sizes : ∀ message ∈ messages, 0 < message.length ∧ message.length ≤ batchRecords
  number : messages.length = (keys.length + batchRecords - 1) / batchRecords

theorem packed_carries {batchRecords : Nat} (positive : 0 < batchRecords) (keys : List Nat) :
    CarriesInBatches batchRecords keys (packed positive keys) where
  content := packed_flatten positive keys
  full := (packed_sizes positive keys).1
  sizes := (packed_sizes positive keys).2
  number := packed_length positive keys

/-- At the end of its parallel region a rank has sent the keys of each worker in full batches,
destination by destination, with one shorter batch at most for each. The flushes that its
profile counts are these messages, so their number depends on the keys alone. -/
theorem messages_of_phase (runs : ∀ phase rank, TeamRun (sets phase) rank Worker)
    (handlers : Nat → Fin commSize → AmHandler commSize Nat Memory)
    (reached : (redistributionSystem (phaseInputs runs handlers)).Reachable (fun _ _ => True)
      (.initial (phaseInputs runs handlers)) state)
    (present : (state.ranks rank).amState = some am)
    (finished : state.TeamDone (phaseInputs runs handlers (state.ranks rank).phase rank) rank) :
    (∀ worker (dest : Fin commSize),
      CarriesInBatches (runs (state.ranks rank).phase rank).config.batchRecords
        (((runs (state.ranks rank).phase rank).share worker).filter fun key =>
          (sets (state.ranks rank).phase).routeKey key == dest)
        (batchesTo dest (am.threads (some worker)).log)) ∧
    (∀ worker (dest : Fin commSize), batchesTo dest (am.threads (some worker)).log =
      packed (runs (state.ranks rank).phase rank).config.batch_positive
        (((runs (state.ranks rank).phase rank).share worker).filter fun key =>
          (sets (state.ranks rank).phase).routeKey key == dest)) ∧
      ((runs (state.ranks rank).phase rank).config.profilingEnabled = true →
        (am.amProfile.aggregate .flush).calls = ∑ worker, ∑ dest : Fin commSize,
          ((((runs (state.ranks rank).phase rank).share worker).countP fun key =>
              (sets (state.ranks rank).phase).routeKey key == dest) +
                (runs (state.ranks rank).phase rank).config.batchRecords - 1) /
            (runs (state.ranks rank).phase rank).config.batchRecords) := by
  have sound := runs_sound runs handlers
  have coherent := reachable_coherent sound reached
  have anything : (redistributionSystem (phaseInputs runs handlers)).Reachable
      (StartsFrom fun _ _ _ => True) (.initial (phaseInputs runs handlers)) state := by
    apply reached.mono
    intro before action _
    cases action with
    | _ => trivial
  have run := reachable_rank_runs sound anything rank am present
  have sent : ∀ worker (dest : Fin commSize), batchesTo dest (am.threads (some worker)).log =
      packed (runs (state.ranks rank).phase rank).config.batch_positive
        (((runs (state.ranks rank).phase rank).share worker).filter fun key =>
          (sets (state.ranks rank).phase).routeKey key == dest) := by
    intro worker dest
    have batches := (team_done_batches coherent run present finished worker dest).1
    rw [keys_for_routed] at batches
    exact batches
  refine ⟨?_, sent, ?_⟩
  · intro worker dest
    rw [sent worker dest]
    exact packed_carries _ _
  · intro enabled
    rw [team_done_flush_calls coherent run present finished enabled]
    apply Finset.sum_congr rfl
    intro worker _
    apply Finset.sum_congr rfl
    intro dest _
    rw [keys_for_routed, packed_length, List.countP_eq_length_filter]
    rfl

end Messages

section Memory

variable {am : PhaseState commSize Worker Nat Memory} {given : Memory → Prop}

omit [DecidableEq Worker] in
/-- The calls of several threads, source by source. -/
theorem from_source_sum (source : Fin commSize) (calls : List (Fin commSize × Nat))
    (threads : Option Worker → List (Fin commSize × Nat))
    (total : (↑calls : Multiset (Fin commSize × Nat)) = ∑ thread, ↑(threads thread)) :
    (↑(fromSource source calls) : Multiset Nat) =
      ∑ thread, ↑(fromSource source (threads thread)) := by
  have selected : ∀ group : Finset (Option Worker),
      (∑ thread ∈ group, (↑(threads thread) : Multiset (Fin commSize × Nat))).filterMap
          (fun tagged => if tagged.1 = source then some tagged.2 else none) =
        ∑ thread ∈ group, ↑(fromSource source (threads thread)) := by
    intro group
    induction group using Finset.cons_induction with
    | empty => rfl
    | cons thread rest outside ih =>
        rw [Finset.sum_cons, Finset.sum_cons, Multiset.filterMap_add, ih]
        rfl
  rw [← selected, ← total]
  rfl

/-- A rank's memory is that of its handler calls one after the other. -/
theorem rank_calls (coherent : Coherent sound state)
    (run : RankRun (inputs (state.ranks rank).phase rank) given (state.ranks rank) am)
    (present : (state.ranks rank).amState = some am) :
    ∃ memory calls, given memory ∧
      am.memory = calls.foldl (fun memory call =>
        (inputs (state.ranks rank).phase rank).handler memory call.1 call.2) memory ∧
      ∀ source, (↑(fromSource source calls) : Multiset Nat) =
        (state.project (state.ranks rank).phase).handled source rank := by
  obtain ⟨memory, allowed, reached⟩ := run.reached
  obtain ⟨calls, effect, total⟩ := memory_of_calls reached
  refine ⟨memory, calls, allowed, effect, ?_⟩
  intro source
  have ledger := (coherent.ranks rank).present am present
  rw [from_source_sum source calls _ total]
  unfold Exchange.handled Exchange.gathered
  apply Finset.sum_congr rfl
  intro thread _
  have same : ((state.project (state.ranks rank).phase).phases rank).threads thread =
      am.threads thread :=
    congrArg (fun phase => phase.threads thread) ledger
  rw [same, invokedIn, from_source_flat_map]
  rfl

/-- A rank has handled no more than what is meant for it. -/
theorem handled_bounded (coherent : Coherent sound state) (phase : Nat)
    (source dest : Fin commSize) :
    (state.project phase).handled source dest ≤ keysBetween inputs phase source dest := by
  have bounded := posted_bounded coherent phase source dest
  rw [values_conserved (coherent.exchange phase) source dest] at bounded
  exact (Multiset.le_add_left _ _).trans bounded

/-- At the end of its parallel region a rank has handled all that is meant for it. -/
theorem team_done_handled (coherent : Coherent sound state)
    (finished : state.TeamDone (inputs (state.ranks rank).phase rank) rank)
    (source : Fin commSize) :
    (state.project (state.ranks rank).phase).handled source rank =
      keysBetween inputs (state.ranks rank).phase source rank := by
  obtain ⟨worker, -⟩ := sound.manned (state.ranks rank).phase rank
  have fits := team_done_fits coherent finished worker
  exact ((all_received coherent (fits.finished rfl).2).2 source).2

variable {sets : Nat → KeySet commSize}

/-- What the handler has made of its memory is what it makes of it when it is called for one
key after the other in some order: for keys that the ranks have routed to this one, each of
them once at most, and at the end of the parallel region for all of them. -/
theorem handler_effects (runs : ∀ phase rank, TeamRun (sets phase) rank Worker)
    (handlers : Nat → Fin commSize → AmHandler commSize Nat Memory)
    (start : Nat → Fin commSize → Memory)
    (reached : (redistributionSystem (phaseInputs runs handlers)).Reachable
      (StartsFrom fun phase rank memory => memory = start phase rank)
      (.initial (phaseInputs runs handlers)) state)
    (present : (state.ranks rank).amState = some am) :
    ∃ calls : List (Fin commSize × Nat),
      am.memory = calls.foldl (fun memory call =>
        handlers (state.ranks rank).phase rank memory call.1 call.2)
          (start (state.ranks rank).phase rank) ∧
      (∀ source, (fromSource source calls).Subperm
        (((sets (state.ranks rank).phase).keys source).filter fun key =>
          (sets (state.ranks rank).phase).routeKey key == rank)) ∧
      (state.TeamDone (phaseInputs runs handlers (state.ranks rank).phase rank) rank →
        ∀ source, (fromSource source calls).Perm
          (((sets (state.ranks rank).phase).keys source).filter fun key =>
            (sets (state.ranks rank).phase).routeKey key == rank)) := by
  have sound := runs_sound runs handlers
  have coherent := reachable_coherent sound (reached.mono fun _ _ _ => trivial)
  have run := reachable_rank_runs sound reached rank am present
  obtain ⟨memory, calls, rfl, effect, handled⟩ := rank_calls coherent run present
  refine ⟨calls, effect, ?_, ?_⟩
  · intro source
    have bounded := handled_bounded coherent (state.ranks rank).phase source rank
    rw [← handled source, keys_between_routed] at bounded
    exact Multiset.coe_le.mp bounded
  · intro finished source
    have whole := team_done_handled coherent finished source
    rw [← handled source, keys_between_routed] at whole
    exact Multiset.coe_eq_coe.mp whole

end Memory

section Runs

/-- Two ranks with three keys each, two of them for the other rank. -/
private def mixedKeys : KeySet 2 where
  keys rank := if rank.val = 0 then [2, 0, 3] else [1, 2, 0]
  localKeyCount := 3
  numBuckets := 2
  bucketShift := 1
  length_eq := by decide
  positive := Nat.succ_pos 2
  in_range := by decide

private def fourByteOptions : AmOptions where
  useUpacket := false
  batchRecords := 2

private theorem two_fit : chooseBatchRecords 8 4 fourByteOptions = .ok 2 := by decide

private def mixedConfig (rank : Fin 2) : PhaseConfig 2 where
  rank := rank
  options := fourByteOptions
  maxBcopySize := 8
  recordSize := 4
  batchRecords := 2
  profilingEnabled := true
  chosen := two_fit

private theorem mixed_own (rank : Fin 2) : (mixedConfig rank).rank = rank := rfl

private theorem only_worker : ({()} : Finset Unit).Nonempty := ⟨(), Finset.mem_singleton_self ()⟩

/-- One worker, which sends two keys at a time. -/
private def mixedRun (rank : Fin 2) : TeamRun mixedKeys rank Unit where
  config := mixedConfig rank
  team := {()}
  share _ := mixedKeys.keys rank
  own := mixed_own rank
  manned := only_worker
  spare worker outside := absurd (Finset.mem_singleton_self worker) outside
  split := Fintype.sum_unique _

/-- The handler keeps a list of the keys that it is called for. -/
private def listed : Nat → Fin 2 → AmHandler 2 Nat (List Nat) :=
  fun _ _ memory _ key => memory ++ [key]

private def mixedInputs : Redistribution.Inputs 2 Unit (List Nat) :=
  phaseInputs (fun (_ : Nat) rank => mixedRun rank) listed

/-- The keys are posted; the batch for the other rank is accepted. -/
private def mixedPosts (rank : Fin 2) : List (RedistributionAction 2 Unit (List Nat)) :=
  [.leaveBarrier rank, .post rank (), .post rank (), .post rank (),
    .inner rank () (.postAmAnswer false)]

/-- The batch of the other rank comes before the own flush. -/
private def mixedReceives (rank : Fin 2) : List (RedistributionAction 2 Unit (List Nat)) :=
  [.deliver rank (some ()) 0 0, .inner rank () (.resume 0), .inner rank () .handlerReturn,
    .inner rank () (.resume 0), .inner rank () .handlerReturn, .inner rank () (.resume 0),
    .inner rank () (.resume 0), .inner rank () .progressEnd, .inner rank () (.resume 0),
    .inner rank () (.resume 0), .flush rank (), .inner rank () (.resume 0),
    .inner rank () (.resume 0), .inner rank () .handlerReturn, .inner rank () (.resume 0),
    .inner rank () (.resume 0), .inner rank () (.resume 0), .inner rank () (.resume 0),
    .check rank ()]

private def mixedActions (first second : Fin 2) :
    List (RedistributionAction 2 Unit (List Nat)) :=
  [.setAmHandler first [], .setAmHandler second []] ++ mixedPosts first ++ mixedPosts second ++
    mixedReceives second ++ mixedReceives first

private theorem mixed_end :
    ((redistributionSystem mixedInputs).run (.initial mixedInputs) (mixedActions 0 1)).map
      (fun state => (decide (state.TeamDone (mixedInputs 0 0) 0), (state.ranks 0).phase,
        (state.ranks 0).amState.map PhaseState.memory)) =
      some (true, 0, some [1, 0, 0]) := by
  decide +kernel

/-- The first rank at the end of its parallel region. -/
private theorem mixed_finished :
    ∃ (state : Redistribution 2 Unit (List Nat)) (am : PhaseState 2 Unit Nat (List Nat)),
      (redistributionSystem mixedInputs).run (.initial mixedInputs) (mixedActions 0 1) =
          some state ∧
        (state.ranks 0).phase = 0 ∧ (state.ranks 0).amState = some am ∧
          am.memory = [1, 0, 0] ∧ state.TeamDone (mixedInputs 0 0) 0 := by
  obtain ⟨state, executed, ends⟩ := Option.map_eq_some_iff.mp mixed_end
  simp only [Prod.mk.injEq, decide_eq_true_eq] at ends
  obtain ⟨finished, phase, memory⟩ := ends
  obtain ⟨am, present, kept⟩ := Option.map_eq_some_iff.mp memory
  exact ⟨state, am, executed, phase, present, kept, finished⟩

/-- Two keys for the other rank in a full batch, and one for itself. -/
theorem messages_of_phase_mixed :
    ∃ (state : Redistribution 2 Unit (List Nat)) (am : PhaseState 2 Unit Nat (List Nat)),
      (redistributionSystem mixedInputs).run (.initial mixedInputs) (mixedActions 0 1) =
          some state ∧
        (state.ranks 0).amState = some am ∧
          CarriesInBatches 2 ([2, 0, 3].filter fun key => mixedKeys.routeKey key == 1)
            (batchesTo 1 (am.threads (some ())).log) ∧
          CarriesInBatches 2 ([2, 0, 3].filter fun key => mixedKeys.routeKey key == 0)
            (batchesTo 0 (am.threads (some ())).log) ∧
          (am.amProfile.aggregate .flush).calls = 2 := by
  obtain ⟨state, am, executed, phase, present, -, finished⟩ := mixed_finished
  have reached := TransitionSystem.any_run_reachable executed
  rw [← phase] at finished
  obtain ⟨carried, -, counted⟩ := messages_of_phase (fun (_ : Nat) rank => mixedRun rank) listed
    reached present finished
  exact ⟨state, am, executed, present, carried () 1, carried () 0, counted rfl⟩

/-- The keys of both ranks that are meant for the first one. -/
theorem handler_effects_mixed :
    ∃ (state : Redistribution 2 Unit (List Nat)) (am : PhaseState 2 Unit Nat (List Nat)),
      (redistributionSystem mixedInputs).run (.initial mixedInputs) (mixedActions 0 1) =
          some state ∧
        (state.ranks 0).amState = some am ∧ am.memory = [1, 0, 0] ∧
        ∃ calls : List (Fin 2 × Nat),
          am.memory = calls.foldl (fun memory call => memory ++ [call.2]) [] ∧
            (fromSource 0 calls).Perm ([2, 0, 3].filter fun key => mixedKeys.routeKey key == 0) ∧
              (fromSource 1 calls).Perm
                ([1, 2, 0].filter fun key => mixedKeys.routeKey key == 0) := by
  obtain ⟨state, am, executed, phase, present, memory, finished⟩ := mixed_finished
  have starts : ∀ before : Redistribution 2 Unit (List Nat), ∀ action ∈ mixedActions 0 1,
      StartsFrom (fun _ _ memory => memory = []) before action := by
    intro before
    simp [mixedActions, mixedPosts, mixedReceives, StartsFrom]
  rw [← phase] at finished
  obtain ⟨calls, effect, -, all⟩ := handler_effects (fun (_ : Nat) rank => mixedRun rank) listed
    (fun _ _ => []) (TransitionSystem.run_reachable executed
      (TransitionSystem.permitted_run_of_all starts)) present
  exact ⟨state, am, executed, present, memory, calls, effect, all finished 0, all finished 1⟩

end Runs

end IntegerSortLci.Benchmark
