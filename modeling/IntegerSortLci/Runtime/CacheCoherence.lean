import IntegerSortLci.Runtime.WorkerCache

/-!
# Generations and cached worker buffers

The generations of the phases of a process are distinct, so an entry that
matches was filled in the phase that is active now, and the object of that
phase and index has not moved since.
-/

namespace IntegerSortLci.Runtime

open Foundations

set_option autoImplicit false

variable {Thread StateType : Type} [DecidableEq Thread] [DecidableEq StateType]
variable {process process' : CacheProcess Thread StateType} {thread : Thread}

/-! ## What one step does -/

/-- The ways a step can go. -/
inductive CacheStep (cached : Bool) (process : CacheProcess Thread StateType) (thread : Thread) :
    CacheAction StateType → CacheProcess Thread StateType → Prop where
  | failed {action : CacheAction StateType} (message : String) :
      CacheStep cached process thread action (process.fail thread message)
  | loaded {stateType : StateType} {seen : Nat} {counter : SharedCounter Thread}
      (load : process.counter.load 1 thread seen = some counter) :
      CacheStep cached process thread (.setAmHandler stateType seen)
        { process.setStatus thread (.allocating stateType) with counter := counter }
  | again {spurious : Bool} {seen : Nat} {counter : SharedCounter Thread}
      (turn : process.counter.exchange 1 maxGeneration thread spurious seen =
        some (counter, .again)) :
      CacheStep cached process thread (.compareExchange spurious seen)
        { process with counter := counter }
  | exhausted {spurious : Bool} {seen : Nat} {counter : SharedCounter Thread}
      (turn : process.counter.exchange 1 maxGeneration thread spurious seen =
        some (counter, .exhausted)) :
      CacheStep cached process thread (.compareExchange spurious seen)
        { process.fail thread "LCI irregular AM cache generation exhausted" with
          counter := counter }
  | drawn (stateType : StateType) {spurious : Bool} {seen generation : Nat}
      {counter : SharedCounter Thread}
      (turn : process.counter.exchange 1 maxGeneration thread spurious seen =
        some (counter, .drawn generation)) :
      CacheStep cached process thread (.compareExchange spurious seen)
        { process.setStatus thread (.generated stateType generation) with counter := counter }
  | constructed {stateType : StateType} {generation : Nat}
      (held : process.status thread = .generated stateType generation) :
      CacheStep cached process thread (.construct none)
        ((process.setStatus thread .idle).install stateType generation)
  | reset : CacheStep cached process thread .resetAmState process.reset
  | hit {state : CachedState StateType} {index address : Nat}
      (active : process.amState = some state)
      (found : (process.caches thread state.stateType).find state.cacheGeneration index =
        some address) :
      CacheStep cached process thread (.workerBuffers index)
        (process.giveBuffers thread state index address)
  | waits (serial index : Nat) :
      CacheStep cached process thread (.workerBuffers index)
        (process.setStatus thread (.waiting serial index))
  | looked {state state' : CachedState StateType} {heap : Heap} {index address : Nat}
      {answer : HeapAnswer} (waiting : process.status thread = .waiting state.serial index)
      (active : process.amState = some state)
      (found : state.lookup process.heap index answer = some (state', heap, some address)) :
      CacheStep cached process thread (.lockedLookup answer)
        (({ process with amState := some state', heap := heap }.fillCache thread state' index
          address).giveBuffers thread state' index address)
  | unlucky {state state' : CachedState StateType} {heap : Heap} {index : Nat}
      {answer : HeapAnswer} (active : process.amState = some state)
      (found : state.lookup process.heap index answer = some (state', heap, none))
      (message : String) :
      CacheStep cached process thread (.lockedLookup answer)
        { process.fail thread message with amState := some state', heap := heap }

theorem cache_step_cases {cached : Bool} {action : CacheAction StateType}
    (stepped : process.step cached thread action = some process') :
    CacheStep cached process thread action process' := by
  cases action with
  | setAmHandler stateType seen =>
      change process.setAmHandler thread stateType seen = some process' at stepped
      unfold CacheProcess.setAmHandler at stepped
      split at stepped
      case h_1 =>
          obtain rfl := Option.some.inj stepped
          exact .failed _
      case h_2 =>
          obtain ⟨counter, load, rfl⟩ := Option.map_eq_some_iff.mp stepped
          exact .loaded load
      case h_3 => cases stepped
  | compareExchange spurious seen =>
      change process.compareExchange thread spurious seen = some process' at stepped
      unfold CacheProcess.compareExchange at stepped
      split at stepped
      case h_1 stateType _ =>
          obtain ⟨⟨counter, outcome⟩, turn, rfl⟩ := Option.map_eq_some_iff.mp stepped
          cases outcome with
          | again => exact .again turn
          | exhausted => exact .exhausted turn
          | drawn generation => exact .drawn stateType turn
      case h_2 => cases stepped
  | construct failure =>
      change process.construct thread failure = some process' at stepped
      unfold CacheProcess.construct at stepped
      split at stepped
      case h_1 stateType generation held =>
          obtain rfl := Option.some.inj stepped
          exact .constructed held
      case h_2 =>
          obtain rfl := Option.some.inj stepped
          exact .failed _
      case h_3 => cases stepped
  | resetAmState =>
      change process.resetAmState thread = some process' at stepped
      unfold CacheProcess.resetAmState at stepped
      split at stepped
      · obtain rfl := Option.some.inj stepped
        exact .reset
      · cases stepped
  | workerBuffers index =>
      change CacheProcess.workerBuffers cached process thread index = some process' at stepped
      unfold CacheProcess.workerBuffers at stepped
      split at stepped
      case h_2 => cases stepped
      case h_1 =>
          split at stepped
          case isTrue =>
              obtain rfl := Option.some.inj stepped
              exact .failed _
          case isFalse =>
              split at stepped
              case h_1 =>
                  obtain rfl := Option.some.inj stepped
                  exact .failed _
              case h_2 state active =>
                  split at stepped
                  case h_1 address found =>
                      obtain rfl := Option.some.inj stepped
                      exact .hit active found
                  case h_2 =>
                      obtain rfl := Option.some.inj stepped
                      exact .waits _ _
  | lockedLookup answer =>
      change process.lockedLookup thread answer = some process' at stepped
      unfold CacheProcess.lockedLookup at stepped
      split at stepped
      case h_2 => cases stepped
      case h_1 serial index state waiting active =>
          split at stepped
          case isFalse => cases stepped
          case isTrue same =>
              obtain ⟨⟨state', heap, result⟩, found, rfl⟩ := Option.map_eq_some_iff.mp stepped
              rw [← same] at waiting
              cases result with
              | some address => exact .looked waiting active found
              | none => exact .unlucky active found _

/-! ## Generations -/

/-- Every generation is drawn from the counter, by one thread, for one phase. -/
structure GenerationsUnique (process : CacheProcess Thread StateType) : Prop where
  counter : process.counter.Sound 1 maxGeneration
  fresh : ∀ thread stateType generation,
    process.status thread = .generated stateType generation →
      generation ∈ process.counter.handed ∧ generation ∉ process.constructed
  single : ∀ {thread other stateType otherType generation},
    process.status thread = .generated stateType generation →
      process.status other = .generated otherType generation → thread = other
  drawn : ∀ generation ∈ process.constructed, generation ∈ process.counter.handed
  unique : process.constructed.Nodup

omit [DecidableEq Thread] [DecidableEq StateType] in
theorem initial_generations_unique :
    GenerationsUnique ({} : CacheProcess Thread StateType) where
  counter := SharedCounter.initial_sound (by decide)
  fresh := by
    intro thread stateType generation held
    cases held
  single := by
    intro thread other stateType otherType generation held
    cases held
  drawn := by
    intro generation member
    cases member
  unique := List.nodup_nil

omit [DecidableEq Thread] [DecidableEq StateType] in
/-- What draws no generation and gives none to a phase keeps them apart. -/
theorem GenerationsUnique.same (unique : GenerationsUnique process)
    (value : process'.counter.value = process.counter.value)
    (handed : process'.counter.handed = process.counter.handed)
    (constructed : process'.constructed = process.constructed)
    (held : ∀ {thread stateType generation},
      process'.status thread = .generated stateType generation →
        process.status thread = .generated stateType generation) :
    GenerationsUnique process' where
  counter := unique.counter.same value handed
  fresh := by
    intro thread stateType generation now
    rw [handed, constructed]
    exact unique.fresh thread stateType generation (held now)
  single first second := unique.single (held first) (held second)
  drawn := by
    rw [handed, constructed]
    exact unique.drawn
  unique := by
    rw [constructed]
    exact unique.unique

omit [DecidableEq StateType] in
theorem set_status_generated {status : CacheStatus StateType} {other : Thread}
    {stateType : StateType} {generation : Nat}
    (held : (process.setStatus thread status).status other = .generated stateType generation)
    (not : status ≠ .generated stateType generation) :
    process.status other = .generated stateType generation := by
  by_cases same : other = thread
  · subst same
    rw [CacheProcess.set_status_self] at held
    exact absurd held not
  · rwa [CacheProcess.set_status_other process status same] at held

omit [DecidableEq StateType] in
theorem set_status_unique (unique : GenerationsUnique process) {status : CacheStatus StateType}
    (not : ∀ stateType generation, status ≠ .generated stateType generation) :
    GenerationsUnique (process.setStatus thread status) :=
  unique.same rfl rfl rfl fun held => set_status_generated held (not _ _)

omit [DecidableEq StateType] in
theorem draw_unique (unique : GenerationsUnique process) {spurious : Bool} {seen generation : Nat}
    {counter : SharedCounter Thread} (stateType : StateType)
    (turn : process.counter.exchange 1 maxGeneration thread spurious seen =
      some (counter, .drawn generation)) :
    GenerationsUnique
      { process.setStatus thread (.generated stateType generation) with counter := counter } := by
  obtain ⟨new, handed⟩ := SharedCounter.drawn_fresh unique.counter turn
  have notHeld : ∀ {other otherType}, process.status other ≠ .generated otherType generation := by
    intro other otherType held
    exact new (unique.fresh other otherType generation held).1
  have held : ∀ {other otherType otherGeneration},
      Function.update process.status thread (.generated stateType generation) other =
          .generated otherType otherGeneration →
        (other = thread ∧ otherGeneration = generation) ∨
          (other ≠ thread ∧ process.status other = .generated otherType otherGeneration) := by
    intro other otherType otherGeneration now
    by_cases same : other = thread
    · subst same
      rw [Function.update_self] at now
      exact .inl ⟨rfl, (CacheStatus.generated.inj now).2.symm⟩
    · rw [Function.update_of_ne same] at now
      exact .inr ⟨same, now⟩
  refine ⟨SharedCounter.exchange_sound unique.counter turn, ?_, ?_, ?_, unique.unique⟩
  · intro other otherType otherGeneration now
    rw [handed]
    rcases held now with ⟨_, rfl⟩ | ⟨_, before⟩
    · refine ⟨List.mem_append_right _ (List.mem_singleton_self _), ?_⟩
      intro member
      exact new (unique.drawn _ member)
    · have known := unique.fresh other otherType otherGeneration before
      exact ⟨List.mem_append_left _ known.1, known.2⟩
  · intro first second firstType secondType otherGeneration one two
    rcases held one with ⟨rfl, rfl⟩ | ⟨_, before⟩
    · rcases held two with ⟨rfl, _⟩ | ⟨_, before⟩
      · rfl
      · exact absurd before notHeld
    · rcases held two with ⟨_, rfl⟩ | ⟨_, after⟩
      · exact absurd before notHeld
      · exact unique.single before after
  · intro other member
    rw [handed]
    exact List.mem_append_left _ (unique.drawn other member)

omit [DecidableEq StateType] in
/-- Storing the state uses up the generation its thread held. -/
theorem install_unique (unique : GenerationsUnique process) {stateType : StateType}
    {generation : Nat} (held : process.status thread = .generated stateType generation) :
    GenerationsUnique ((process.setStatus thread .idle).install stateType generation) := by
  have known := unique.fresh thread stateType generation held
  have resets : (process.setStatus thread .idle).reset.counter = process.counter ∧
      (process.setStatus thread .idle).reset.status =
        (process.setStatus thread .idle).status := by
    unfold CacheProcess.reset
    split
    · exact ⟨rfl, rfl⟩
    · exact ⟨rfl, rfl⟩
  have others : ∀ {other otherType otherGeneration},
      (process.setStatus thread .idle).reset.status other = .generated otherType otherGeneration →
        other ≠ thread ∧ process.status other = .generated otherType otherGeneration := by
    intro other otherType otherGeneration now
    rw [resets.2] at now
    refine ⟨?_, set_status_generated now (by simp)⟩
    rintro rfl
    rw [CacheProcess.set_status_self] at now
    cases now
  refine ⟨?_, ?_, ?_, ?_, ?_⟩
  · change (process.setStatus thread .idle).reset.counter.Sound 1 maxGeneration
    rw [resets.1]
    exact unique.counter
  · intro other otherType otherGeneration now
    obtain ⟨different, before⟩ := others now
    have rest := unique.fresh other otherType otherGeneration before
    refine ⟨?_, ?_⟩
    · change otherGeneration ∈ (process.setStatus thread .idle).reset.counter.handed
      rw [resets.1]
      exact rest.1
    · change otherGeneration ∉ process.constructed ++ [generation]
      rw [List.mem_append, List.mem_singleton]
      rintro (earlier | rfl)
      · exact rest.2 earlier
      · exact different (unique.single before held)
  · intro first second firstType secondType otherGeneration one two
    exact unique.single (others one).2 (others two).2
  · intro other member
    change other ∈ (process.setStatus thread .idle).reset.counter.handed
    rw [resets.1]
    rcases List.mem_append.mp member with earlier | last
    · exact unique.drawn other earlier
    · rw [List.mem_singleton.mp last]
      exact known.1
  · change (process.constructed ++ [generation]).Nodup
    rw [List.nodup_append]
    refine ⟨unique.unique, List.pairwise_singleton _ generation, ?_⟩
    intro other member last isLast
    rw [List.mem_singleton.mp isLast]
    rintro rfl
    exact known.2 member

omit [DecidableEq Thread] [DecidableEq StateType] in
theorem reset_unique (unique : GenerationsUnique process) : GenerationsUnique process.reset := by
  unfold CacheProcess.reset
  split
  · exact unique
  · exact unique.same rfl rfl rfl id

theorem generations_unique_step {cached : Bool} {action : CacheAction StateType}
    (unique : GenerationsUnique process)
    (stepped : CacheStep cached process thread action process') : GenerationsUnique process' := by
  have failed : ∀ message, GenerationsUnique (process.fail thread message) := by
    intro message
    exact unique.same rfl rfl rfl fun held => set_status_generated held (by simp)
  cases stepped with
  | failed message => exact failed message
  | loaded load =>
      obtain rfl := SharedCounter.load_cases load
      exact unique.same rfl rfl rfl fun held => set_status_generated held (by simp)
  | again turn =>
      rcases SharedCounter.exchange_cases turn with ⟨drawn, _⟩ | ⟨_, value, handed⟩
      · cases drawn
      · exact unique.same value handed rfl id
  | exhausted turn =>
      rcases SharedCounter.exchange_cases turn with ⟨drawn, _⟩ | ⟨_, value, handed⟩
      · cases drawn
      · have unchanged := failed "LCI irregular AM cache generation exhausted"
        exact unchanged.same value handed rfl id
  | drawn stateType turn => exact draw_unique unique stateType turn
  | constructed held => exact install_unique unique held
  | reset => exact reset_unique unique
  | hit active found =>
      exact unique.same rfl rfl rfl fun held => set_status_generated held (by simp)
  | waits serial index => exact set_status_unique unique (by simp)
  | looked waiting active found =>
      exact unique.same rfl rfl rfl fun held => set_status_generated held (by simp)
  | unlucky active found message => exact (failed message).same rfl rfl rfl id

/-! ## Entries and objects -/

/-- The objects alive are those of the active phase, each at its index, and an
entry with that phase's generation holds the object of its index. -/
structure CacheCoherent (process : CacheProcess Thread StateType) : Prop where
  current : ∀ state, process.amState = some state →
    ∃ earlier, process.constructed = earlier ++ [state.cacheGeneration] ∧
      state.serial = earlier.length
  slots : ∀ state, process.amState = some state → ∀ index address,
    state.slot index = some address → process.heap address = some ⟨state.serial, index⟩
  alive : ∀ address owner, process.heap address = some owner →
    ∃ state, process.amState = some state ∧ owner.phase = state.serial ∧
      state.slot owner.worker = some address
  filled : ∀ thread stateType address,
    (process.caches thread stateType).buffers = some address →
      (process.caches thread stateType).stateGeneration ∈ process.constructed
  entries : ∀ state, process.amState = some state → ∀ thread stateType address,
    (process.caches thread stateType).buffers = some address →
      (process.caches thread stateType).stateGeneration = state.cacheGeneration →
        state.slot (process.caches thread stateType).workerIndex = some address
  results : ∀ result ∈ process.results, result.owner = some ⟨result.phase, result.index⟩

omit [DecidableEq Thread] [DecidableEq StateType]

theorem initial_cache_coherent : CacheCoherent ({} : CacheProcess Thread StateType) where
  current := by
    intro state active
    cases active
  slots := by
    intro state active
    cases active
  alive := by
    intro address owner there
    cases there
  filled := by
    intro thread stateType address held
    cases held
  entries := by
    intro state active
    cases active
  results := by
    intro result member
    cases member

/-- Counters, statuses and failures do not matter. -/
theorem CacheCoherent.same (coherent : CacheCoherent process)
    (amState : process'.amState = process.amState) (heap : process'.heap = process.heap)
    (caches : process'.caches = process.caches)
    (constructed : process'.constructed = process.constructed)
    (results : process'.results = process.results) : CacheCoherent process' where
  current := by
    rw [amState, constructed]
    exact coherent.current
  slots := by
    rw [amState, heap]
    exact coherent.slots
  alive := by
    rw [amState, heap]
    exact coherent.alive
  filled := by
    rw [caches, constructed]
    exact coherent.filled
  entries := by
    rw [amState, caches]
    exact coherent.entries
  results := by
    rw [results]
    exact coherent.results

theorem find_some {entry : WorkerBufferCacheEntry} {generation index address : Nat}
    (found : entry.find generation index = some address) :
    entry.stateGeneration = generation ∧ entry.workerIndex = index ∧
      entry.buffers = some address := by
  unfold WorkerBufferCacheEntry.find at found
  split at found
  case isTrue same => exact ⟨same.1, same.2, found⟩
  case isFalse => cases found

/-- An entry that matches the active phase holds its object. -/
theorem CacheCoherent.hit (coherent : CacheCoherent process) {state : CachedState StateType}
    (active : process.amState = some state) {stateType : StateType} {index address : Nat}
    (found : (process.caches thread stateType).find state.cacheGeneration index = some address) :
    state.slot index = some address := by
  obtain ⟨generation, worker, held⟩ := find_some found
  rw [← worker]
  exact coherent.entries state active thread stateType address held generation

/-- Freeing the objects of the active phase leaves none. -/
theorem CacheCoherent.destroyed (coherent : CacheCoherent process) {state : CachedState StateType}
    (active : process.amState = some state) : state.destroy process.heap = fun _ => none := by
  funext address
  unfold CachedState.destroy
  by_cases member : some address ∈ state.workerBuffers
  · rw [if_pos member]
  · rw [if_neg member]
    cases there : process.heap address with
    | none => rfl
    | some owner =>
        obtain ⟨other, alsoActive, _, slot⟩ := coherent.alive address owner there
        obtain rfl := Option.some.inj (active.symm.trans alsoActive)
        exact absurd (CachedState.slot_mem.mpr ⟨owner.worker, slot⟩) member

theorem reset_heap (coherent : CacheCoherent process) :
    process.reset.amState = none ∧ process.reset.heap = (fun _ => none) := by
  unfold CacheProcess.reset
  split
  case h_1 inactive =>
      refine ⟨inactive, ?_⟩
      funext address
      cases there : process.heap address with
      | none => rfl
      | some owner =>
          obtain ⟨state, active, _⟩ := coherent.alive address owner there
          rw [inactive] at active
          cases active
  case h_2 state active => exact ⟨rfl, coherent.destroyed active⟩

theorem reset_frame (process : CacheProcess Thread StateType) :
    process.reset.caches = process.caches ∧ process.reset.constructed = process.constructed ∧
      process.reset.results = process.results := by
  unfold CacheProcess.reset
  split
  · exact ⟨rfl, rfl, rfl⟩
  · exact ⟨rfl, rfl, rfl⟩

theorem reset_coherent (coherent : CacheCoherent process) : CacheCoherent process.reset := by
  obtain ⟨inactive, empty⟩ := reset_heap coherent
  obtain ⟨caches, constructed, results⟩ := reset_frame process
  refine ⟨?_, ?_, ?_, ?_, ?_, ?_⟩
  · rw [inactive]
    intro state active
    cases active
  · rw [inactive]
    intro state active
    cases active
  · rw [empty]
    intro address owner there
    cases there
  · rw [caches, constructed]
    exact coherent.filled
  · rw [inactive]
    intro state active
    cases active
  · rw [results]
    exact coherent.results

/-- A new phase has no object, and no entry has its generation. -/
theorem install_coherent (coherent : CacheCoherent process) {stateType : StateType}
    {generation : Nat} (fresh : generation ∉ process.constructed) :
    CacheCoherent (process.install stateType generation) := by
  obtain ⟨_, empty⟩ := reset_heap coherent
  obtain ⟨caches, _, results⟩ := reset_frame process
  refine ⟨?_, ?_, ?_, ?_, ?_, ?_⟩
  · intro state active
    obtain rfl := Option.some.inj active
    exact ⟨process.constructed, rfl, rfl⟩
  · intro state active index address there
    obtain rfl := Option.some.inj active
    cases there
  · intro address owner there
    change process.reset.heap address = some owner at there
    rw [empty] at there
    cases there
  · intro thread other address held
    change (process.reset.caches thread other).buffers = some address at held
    change (process.reset.caches thread other).stateGeneration ∈ process.constructed ++ [generation]
    rw [caches] at held ⊢
    exact List.mem_append_left _ (coherent.filled thread other address held)
  · intro state active thread other address held same
    obtain rfl := Option.some.inj active
    change (process.reset.caches thread other).buffers = some address at held
    change (process.reset.caches thread other).stateGeneration = generation at same
    rw [caches] at held same
    rw [← same] at fresh
    exact absurd (coherent.filled thread other address held) fresh
  · change ∀ result ∈ process.reset.results, result.owner = some ⟨result.phase, result.index⟩
    rw [results]
    exact coherent.results

/-- Growing the vector: the phase has the objects it had. -/
theorem CacheCoherent.resize (coherent : CacheCoherent process)
    {state state' : CachedState StateType}
    (active : process.amState = some state) (serial : state'.serial = state.serial)
    (generation : state'.cacheGeneration = state.cacheGeneration)
    (slots : state'.slot = state.slot) : CacheCoherent { process with amState := some state' } := by
  refine ⟨?_, ?_, ?_, coherent.filled, ?_, coherent.results⟩
  · rintro _ ⟨⟩
    rw [serial, generation]
    exact coherent.current state active
  · rintro _ ⟨⟩
    rw [slots, serial]
    exact coherent.slots state active
  · intro address owner there
    obtain ⟨other, alsoActive, known⟩ := coherent.alive address owner there
    obtain rfl := Option.some.inj (active.symm.trans alsoActive)
    refine ⟨state', rfl, ?_⟩
    rw [slots, serial]
    exact known
  · rintro _ ⟨⟩
    rw [slots, generation]
    exact coherent.entries state active

/-- A new object at a free address, for an index that had none. -/
theorem CacheCoherent.create (coherent : CacheCoherent process)
    {state state' : CachedState StateType}
    (active : process.amState = some state) (serial : state'.serial = state.serial)
    (generation : state'.cacheGeneration = state.cacheGeneration) {index address : Nat}
    (absent : state.slot index = none) (free : process.heap address = none)
    (slots : state'.slot = Function.update state.slot index (some address)) :
    CacheCoherent
      { process with
        amState := some state'
        heap := Function.update process.heap address (some ⟨state.serial, index⟩) } := by
  have kept : ∀ {other held}, state.slot other = some held → state'.slot other = some held := by
    intro other held there
    rw [slots, Function.update_of_ne]
    · exact there
    · rintro rfl
      rw [absent] at there
      cases there
  refine ⟨?_, ?_, ?_, coherent.filled, ?_, coherent.results⟩
  · rintro _ ⟨⟩
    rw [serial, generation]
    exact coherent.current state active
  · rintro _ ⟨⟩ other held there
    rw [slots] at there
    change Function.update process.heap address (some ⟨state.serial, index⟩) held = _
    rw [serial]
    by_cases same : other = index
    · subst same
      rw [Function.update_self] at there
      obtain rfl := Option.some.inj there
      rw [Function.update_self]
    · rw [Function.update_of_ne same] at there
      have before := coherent.slots state active other held there
      rw [Function.update_of_ne]
      · exact before
      · rintro rfl
        rw [free] at before
        cases before
  · intro held owner there
    refine ⟨state', rfl, ?_⟩
    rw [serial]
    change Function.update process.heap address (some ⟨state.serial, index⟩) held = _ at there
    by_cases same : held = address
    · subst same
      rw [Function.update_self] at there
      obtain rfl := Option.some.inj there
      rw [slots]
      exact ⟨rfl, Function.update_self index _ _⟩
    · rw [Function.update_of_ne same] at there
      obtain ⟨other, alsoActive, phase, slot⟩ := coherent.alive held owner there
      obtain rfl := Option.some.inj (active.symm.trans alsoActive)
      exact ⟨phase, kept slot⟩
  · rintro _ ⟨⟩ thread stateType held there same
    rw [generation] at same
    exact kept (coherent.entries state active thread stateType held there same)

/-- Looking an index up moves no object, whoever holds its address. -/
theorem lookup_coherent (coherent : CacheCoherent process) {state state' : CachedState StateType}
    (active : process.amState = some state) {heap : Heap} {index : Nat} {answer : HeapAnswer}
    {result : Option Nat}
    (found : state.lookup process.heap index answer = some (state', heap, result)) :
    CacheCoherent { process with amState := some state', heap := heap } ∧
      ∀ address, result = some address → state'.slot index = some address := by
  obtain ⟨⟨serial, _, generation⟩, how⟩ := CachedState.lookup_cases found
  rcases how with ⟨rfl, slots, got⟩ | ⟨address, rfl, absent, free, rfl, slots⟩
  · refine ⟨coherent.resize active serial generation slots, ?_⟩
    rw [slots]
    exact got
  · refine ⟨coherent.create active serial generation absent free slots, ?_⟩
    rintro _ ⟨⟩
    rw [slots]
    exact Function.update_self index _ _

/-- Returning the object of an index records whose it is. -/
theorem give_buffers_coherent [DecidableEq Thread] (coherent : CacheCoherent process)
    {state : CachedState StateType} (active : process.amState = some state) {index address : Nat}
    (there : state.slot index = some address) :
    CacheCoherent (process.giveBuffers thread state index address) where
  current := coherent.current
  slots := coherent.slots
  alive := coherent.alive
  filled := coherent.filled
  entries := coherent.entries
  results := by
    intro result member
    rcases List.mem_append.mp member with earlier | last
    · exact coherent.results result earlier
    · rw [List.mem_singleton.mp last]
      exact coherent.slots state active index address there

/-- The entry is filled with what was found. -/
theorem fill_cache_coherent [DecidableEq Thread] [DecidableEq StateType]
    (coherent : CacheCoherent process) {state : CachedState StateType}
    (active : process.amState = some state) {index address : Nat}
    (there : state.slot index = some address) :
    CacheCoherent (process.fillCache thread state index address) := by
  have entry : ∀ other stateType,
      (process.fillCache thread state index address).caches other stateType =
          { stateGeneration := state.cacheGeneration, workerIndex := index
            buffers := some address } ∨
        (process.fillCache thread state index address).caches other stateType =
          process.caches other stateType := by
    intro other stateType
    by_cases same : other = thread
    · subst same
      by_cases sameType : stateType = state.stateType
      · subst sameType
        left
        simp [CacheProcess.fillCache]
      · right
        simp [CacheProcess.fillCache, sameType]
    · right
      simp [CacheProcess.fillCache, same]
  refine ⟨coherent.current, coherent.slots, coherent.alive, ?_, ?_, coherent.results⟩
  · intro other stateType held
    rcases entry other stateType with new | old
    · rw [new]
      intro _
      obtain ⟨earlier, constructed, _⟩ := coherent.current state active
      change state.cacheGeneration ∈ process.constructed
      rw [constructed]
      exact List.mem_append_right _ (List.mem_singleton_self _)
    · rw [old]
      exact coherent.filled other stateType held
  · intro now alsoActive other stateType held
    obtain rfl := Option.some.inj (active.symm.trans alsoActive)
    rcases entry other stateType with new | old
    · rw [new]
      rintro ⟨⟩ _
      exact there
    · rw [old]
      exact coherent.entries state active other stateType held

theorem cache_coherent_step [DecidableEq Thread] [DecidableEq StateType] {cached : Bool}
    {action : CacheAction StateType} (unique : GenerationsUnique process)
    (coherent : CacheCoherent process)
    (stepped : CacheStep cached process thread action process') : CacheCoherent process' := by
  cases stepped with
  | failed message => exact coherent.same rfl rfl rfl rfl rfl
  | loaded load => exact coherent.same rfl rfl rfl rfl rfl
  | again turn => exact coherent.same rfl rfl rfl rfl rfl
  | exhausted turn => exact coherent.same rfl rfl rfl rfl rfl
  | drawn stateType turn => exact coherent.same rfl rfl rfl rfl rfl
  | constructed held =>
      have settled : CacheCoherent (process.setStatus thread .idle) :=
        coherent.same rfl rfl rfl rfl rfl
      exact install_coherent settled (unique.fresh thread _ _ held).2
  | reset => exact reset_coherent coherent
  | hit active found => exact give_buffers_coherent coherent active (coherent.hit active found)
  | waits serial index => exact coherent.same rfl rfl rfl rfl rfl
  | looked waiting active found =>
      obtain ⟨kept, there⟩ := lookup_coherent coherent active found
      have slot := there _ rfl
      exact give_buffers_coherent (fill_cache_coherent kept rfl slot) rfl slot
  | unlucky active found message =>
      exact (lookup_coherent coherent active found).1.same rfl rfl rfl rfl rfl

end IntegerSortLci.Runtime
