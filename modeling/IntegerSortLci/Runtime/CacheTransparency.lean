import IntegerSortLci.Runtime.CacheCoherence

/-!
# The cache of worker buffers is transparent

A process with the cache behaves as one whose calls all look their buffers up
under the mutex: every call returns the object of the active phase.
-/

namespace IntegerSortLci.Runtime

open Foundations

set_option autoImplicit false

variable {Thread StateType : Type} [DecidableEq Thread] [DecidableEq StateType]
variable {process process' : CacheProcess Thread StateType} {thread : Thread}

/-! ## What a call returns -/

/-- What `thread` got when its call returned: the object that the active phase
has at the index it asked for. -/
structure ReturnedCurrent (before after : CacheProcess Thread StateType) (thread : Thread)
    (action : CacheAction StateType) (result : CacheResult Thread) : Prop where
  appended : after.results = before.results ++ [result]
  caller : result.thread = thread
  asked : action = .workerBuffers result.index ∨
    before.status thread = .waiting result.phase result.index
  current : ∃ state, after.amState = some state ∧ state.serial = result.phase ∧
    state.slot result.index = some result.address
  object : after.heap result.address = some ⟨result.phase, result.index⟩

theorem returned_current {cached : Bool} {action : CacheAction StateType}
    (coherent : CacheCoherent process)
    (stepped : CacheStep cached process thread action process') :
    process'.results = process.results ∨
      ∃ result, ReturnedCurrent process process' thread action result := by
  cases stepped with
  | hit active found =>
      have there := coherent.hit active found
      exact .inr ⟨_, rfl, rfl, .inl rfl, ⟨_, active, rfl, there⟩,
        coherent.slots _ active _ _ there⟩
  | looked waiting active found =>
      obtain ⟨kept, there⟩ := lookup_coherent coherent active found
      obtain ⟨⟨serial, _⟩, _⟩ := CachedState.lookup_cases found
      rw [← serial] at waiting
      exact .inr ⟨_, rfl, rfl, .inr waiting, ⟨_, rfl, rfl, there _ rfl⟩,
        kept.slots _ rfl _ _ (there _ rfl)⟩
  | reset => exact .inl (reset_frame process).2.2
  | constructed held => exact .inl (reset_frame _).2.2
  | failed message => exact .inl rfl
  | loaded load => exact .inl rfl
  | again turn => exact .inl rfl
  | exhausted turn => exact .inl rfl
  | drawn stateType turn => exact .inl rfl
  | waits serial index => exact .inl rfl
  | unlucky active found message => exact .inl rfl

/-! ## With and without the cache -/

omit [DecidableEq StateType] in
theorem worker_buffers_cases (process : CacheProcess Thread StateType) (thread : Thread)
    (index : Nat) :
    CacheProcess.workerBuffers true process thread index =
        CacheProcess.workerBuffers false process thread index ∨
      ∃ state address, process.status thread = .idle ∧ index < maxWorkerIndex ∧
        process.amState = some state ∧
        (process.caches thread state.stateType).find state.cacheGeneration index =
          some address := by
  unfold CacheProcess.workerBuffers
  split
  case h_2 => exact .inl rfl
  case h_1 idle =>
      by_cases large : maxWorkerIndex ≤ index
      · rw [if_pos large, if_pos large]
        exact .inl rfl
      · rw [if_neg large, if_neg large]
        cases active : process.amState with
        | none => exact .inl rfl
        | some state =>
            cases found : (process.caches thread state.stateType).find state.cacheGeneration
              index with
            | none => exact .inl (by simp only [found])
            | some address => exact .inr ⟨state, address, idle, Nat.lt_of_not_le large, rfl, found⟩

theorem fill_cache_same {state : CachedState StateType} {index address : Nat}
    (found : (process.caches thread state.stateType).find state.cacheGeneration index =
      some address) : process.fillCache thread state index address = process := by
  obtain ⟨generation, worker, held⟩ := find_some found
  have entry : ({ stateGeneration := state.cacheGeneration, workerIndex := index
                  buffers := some address } : WorkerBufferCacheEntry) =
      process.caches thread state.stateType := by
    rw [← generation, ← worker, ← held]
  unfold CacheProcess.fillCache
  rw [entry, Function.update_eq_self, Function.update_eq_self]

theorem locked_lookup_waiting {state state' : CachedState StateType} {heap : Heap}
    {index address : Nat} {answer : HeapAnswer}
    (waiting : process.status thread = .waiting state.serial index)
    (active : process.amState = some state)
    (found : state.lookup process.heap index answer = some (state', heap, some address)) :
    process.lockedLookup thread answer =
      some (({ process with amState := some state', heap := heap }.fillCache thread state' index
        address).giveBuffers thread state' index address) := by
  simp only [CacheProcess.lockedLookup, waiting, active, found, if_true, Option.map_some]

/-- A call that the cache answers, made under the mutex instead. -/
theorem CacheCoherent.uncached (coherent : CacheCoherent process) {state : CachedState StateType}
    (active : process.amState = some state) {index address : Nat}
    (idle : process.status thread = .idle) (small : index < maxWorkerIndex)
    (found : (process.caches thread state.stateType).find state.cacheGeneration index =
      some address) (answer : HeapAnswer) :
    process.step true thread (.workerBuffers index) =
        some (process.giveBuffers thread state index address) ∧
      (process.step false thread (.workerBuffers index)).bind
          (fun waiting => waiting.step false thread (.lockedLookup answer)) =
        some (process.giveBuffers thread state index address) := by
  have inside : ¬maxWorkerIndex ≤ index := Nat.not_le_of_lt small
  have fast : CacheProcess.workerBuffers true process thread index =
      some (process.giveBuffers thread state index address) := by
    simp only [CacheProcess.workerBuffers, idle, inside, active, found, if_false]
  have slow : CacheProcess.workerBuffers false process thread index =
      some (process.setStatus thread (.waiting state.serial index)) := by
    simp only [CacheProcess.workerBuffers, idle, inside, active, found, if_false]
  have present : state.lookup process.heap index answer =
      some (state, process.heap, some address) :=
    CachedState.lookup_present (coherent.hit active found) answer
  refine ⟨fast, ?_⟩
  change (CacheProcess.workerBuffers false process thread index).bind _ = _
  rw [slow, Option.bind_some]
  change (process.setStatus thread (.waiting state.serial index)).lockedLookup thread answer = _
  rw [locked_lookup_waiting (CacheProcess.set_status_self _ _ _) active present]
  have same : ({ process.setStatus thread (.waiting state.serial index) with
      amState := some state, heap := process.heap } : CacheProcess Thread StateType) =
      process.setStatus thread (.waiting state.serial index) := by
    rw [← active]
    rfl
  have kept : (process.setStatus thread (.waiting state.serial index)).fillCache thread state index
      address = process.setStatus thread (.waiting state.serial index) := fill_cache_same found
  have twice : (process.setStatus thread (.waiting state.serial index)).setStatus thread .idle =
      process.setStatus thread .idle := by
    simp [CacheProcess.setStatus]
  rw [same, kept, CacheProcess.giveBuffers, twice]
  rfl

/-- What the process with the cache reaches keeps its generations apart and its
entries current, and the process without the cache reaches it too. -/
theorem cache_reachable
    (reached : (cacheSystem Thread StateType true).Reachable (fun _ _ => True) {} process) :
    (GenerationsUnique process ∧ CacheCoherent process) ∧
      (cacheSystem Thread StateType false).Reachable (fun _ _ => True) {} process := by
  induction reached with
  | start => exact ⟨⟨initial_generations_unique, initial_cache_coherent⟩, .start⟩
  | @next before after action prior allowed stepped ih =>
      obtain ⟨⟨unique, coherent⟩, uncached⟩ := ih
      have how := cache_step_cases stepped
      refine ⟨⟨generations_unique_step unique how, cache_coherent_step unique coherent how⟩, ?_⟩
      obtain ⟨thread, call⟩ := action
      have advance : ∀ {middle last : CacheProcess Thread StateType} (turn : CacheAction StateType),
          (cacheSystem Thread StateType false).Reachable (fun _ _ => True) {} middle →
            middle.step false thread turn = some last →
              (cacheSystem Thread StateType false).Reachable (fun _ _ => True) {} last := by
        intro middle last turn there one
        have stepped :
            (cacheSystem Thread StateType false).step middle (thread, turn) = some last := one
        exact there.next trivial stepped
      cases call with
      | workerBuffers index =>
          rcases worker_buffers_cases before thread index with same | held
          · exact advance (.workerBuffers index) uncached (same.symm.trans stepped)
          · obtain ⟨state, address, idle, small, active, found⟩ := held
            have both := coherent.uncached active idle small found .noMemory
            obtain ⟨waiting, first, second⟩ := Option.bind_eq_some_iff.mp both.2
            have last := second.trans (both.1.symm.trans stepped)
            exact advance (.lockedLookup .noMemory) (advance _ uncached first) last
      | setAmHandler stateType seen => exact advance (.setAmHandler stateType seen) uncached stepped
      | compareExchange spurious seen =>
          exact advance (.compareExchange spurious seen) uncached stepped
      | construct failure => exact advance (.construct failure) uncached stepped
      | resetAmState => exact advance .resetAmState uncached stepped
      | lockedLookup answer => exact advance (.lockedLookup answer) uncached stepped

/-- What a turn of the allocation does when the counter stands at the maximum:
nobody is given a generation, and a thread that saw the maximum fails. -/
theorem exhausted_counter {cached spurious : Bool} {seen : Nat}
    (full : process.counter.value = maxGeneration)
    (stepped : process.step cached thread (.compareExchange spurious seen) = some process') :
    process'.counter.value = maxGeneration ∧
      (∀ stateType generation, process'.status thread ≠ .generated stateType generation) ∧
      (process.counter.expected thread = some maxGeneration →
        process'.status thread = .idle ∧
          process'.failures = process.failures ++
            [(thread, "LCI irregular AM cache generation exhausted")]) := by
  change process.compareExchange thread spurious seen = some process' at stepped
  unfold CacheProcess.compareExchange at stepped
  split at stepped
  case h_2 => cases stepped
  case h_1 stateType allocating =>
      obtain ⟨⟨counter, outcome⟩, turn, rfl⟩ := Option.map_eq_some_iff.mp stepped
      rcases SharedCounter.exchange_cases turn with ⟨_, below, _⟩ | ⟨ended, value, _⟩
      · exact absurd full below
      · rcases ended with rfl | rfl
        · refine ⟨value.trans full, ?_, ?_⟩
          · intro other generation held
            change process.status thread = _ at held
            rw [allocating] at held
            cases held
          · intro saw
            exact absurd (SharedCounter.exchange_limit saw turn) (by simp)
        · refine ⟨value.trans full, ?_, ?_⟩
          · intro other generation held
            change (process.setStatus thread .idle).status thread = _ at held
            rw [CacheProcess.set_status_self] at held
            cases held
          · intro _
            exact ⟨CacheProcess.set_status_self _ _ _, rfl⟩

/-- The cache of worker buffers is transparent: the process behaves as one that
looks every call up under the mutex. -/
theorem worker_cache_transparent
    (reached : (cacheSystem Thread StateType true).Reachable (fun _ _ => True) {} process) :
    (cacheSystem Thread StateType false).Reachable (fun _ _ => True) {} process ∧
      (∀ thread index after, process.step true thread (.workerBuffers index) = some after →
        process.step false thread (.workerBuffers index) = some after ∨
          ∀ answer, (process.step false thread (.workerBuffers index)).bind
            (fun waiting => waiting.step false thread (.lockedLookup answer)) = some after) ∧
      (∀ thread action after, process.step true thread action = some after →
        after.results = process.results ∨
          ∃ result, ReturnedCurrent process after thread action result) ∧
      (∀ state, process.amState = some state → ∀ thread stateType address,
        (process.caches thread stateType).buffers = some address →
          (process.caches thread stateType).stateGeneration = state.cacheGeneration →
            state.slot (process.caches thread stateType).workerIndex = some address ∧
              process.heap address =
                some ⟨state.serial, (process.caches thread stateType).workerIndex⟩) ∧
      (process.constructed.Nodup ∧
        ∀ generation ∈ process.constructed, 1 ≤ generation ∧ generation < maxGeneration) ∧
      (process.counter.value ≤ maxGeneration ∧
        (process.counter.value = maxGeneration → ∀ thread spurious seen after,
          process.step true thread (.compareExchange spurious seen) = some after →
            after.counter.value = maxGeneration ∧
              (∀ stateType generation, after.status thread ≠ .generated stateType generation) ∧
              (process.counter.expected thread = some maxGeneration →
                after.status thread = .idle ∧
                  after.failures = process.failures ++
                    [(thread, "LCI irregular AM cache generation exhausted")]))) := by
  obtain ⟨⟨unique, coherent⟩, uncached⟩ := cache_reachable reached
  refine ⟨uncached, ?_, ?_, ?_, ⟨unique.unique, ?_⟩, unique.counter.limited, ?_⟩
  · intro thread index after stepped
    rcases worker_buffers_cases process thread index with same | held
    · exact .inl (same.symm.trans stepped)
    · obtain ⟨state, address, idle, small, active, found⟩ := held
      right
      intro answer
      have both := coherent.uncached active idle small found answer
      exact both.2.trans (both.1.symm.trans stepped)
  · intro thread action after stepped
    exact returned_current coherent (cache_step_cases stepped)
  · intro state active thread stateType address held generation
    have there := coherent.entries state active thread stateType address held generation
    exact ⟨there, coherent.slots state active _ address there⟩
  · intro generation member
    have bounds := unique.counter.below (unique.drawn generation member)
    exact ⟨bounds.1, Nat.lt_of_lt_of_le bounds.2 unique.counter.limited⟩
  · intro full thread spurious seen after stepped
    exact exhausted_counter full stepped

/-- Two threads and a phase that is destroyed: the next phase of the same type
gets its buffers at the same address, and no thread is given the old ones. -/
def reusedAddress : List (Bool × CacheAction Unit) :=
  [(false, .setAmHandler () 1), (false, .compareExchange false 1), (false, .construct none),
    (false, .workerBuffers 3), (false, .lockedLookup (.block 7)), (false, .workerBuffers 3),
    (true, .workerBuffers 3), (true, .lockedLookup .noMemory), (false, .resetAmState),
    (true, .setAmHandler () 1), (true, .compareExchange false 2), (true, .compareExchange true 2),
    (true, .compareExchange false 2), (true, .construct none), (false, .workerBuffers 3),
    (false, .lockedLookup (.block 7)), (false, .workerBuffers 3)]

theorem worker_cache_transparent_reused_address :
    ∃ process, (cacheSystem Bool Unit true).run {} reusedAddress = some process ∧
      process.results.map (fun result => (result.thread, result.phase, result.address)) =
        [(false, 0, 7), (false, 0, 7), (true, 0, 7), (false, 1, 7), (false, 1, 7)] ∧
      process.constructed = [1, 2] ∧
      (cacheSystem Bool Unit false).Reachable (fun _ _ => True) {} process ∧
      process.constructed.Nodup := by
  obtain ⟨process, executed, results, constructed⟩ :
      ∃ process, (cacheSystem Bool Unit true).run {} reusedAddress = some process ∧
        process.results.map (fun result => (result.thread, result.phase, result.address)) =
          [(false, 0, 7), (false, 0, 7), (true, 0, 7), (false, 1, 7), (false, 1, 7)] ∧
        process.constructed = [1, 2] := ⟨_, rfl, rfl, rfl⟩
  have transparent := worker_cache_transparent (TransitionSystem.any_run_reachable executed)
  exact ⟨process, executed, results, constructed, transparent.1,
    transparent.2.2.2.2.1.1⟩

end IntegerSortLci.Runtime
