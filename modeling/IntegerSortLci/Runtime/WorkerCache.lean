import IntegerSortLci.Foundations.AtomicCounter
import IntegerSortLci.Foundations.TransitionSystem
import Mathlib.Data.List.GetD

/-!
# The thread-local cache of worker buffers

What `set_am_handler`, `clear_am_handler` and the destructor do to the state
object of a phase, and how `worker_buffers` finds the buffers of a worker: in
the `thread_local` entry of its handler type, or under the mutex in
`worker_buffers_`. One runtime lives at a time; the process outlives it, and so
do the entries and the generation counter. Addresses are used again after a
phase is destroyed.
-/

namespace IntegerSortLci.Runtime

open Foundations

set_option autoImplicit false

/-- `std::numeric_limits<uint64_t>::max()`. -/
def maxGeneration : Nat := 18446744073709551615

/-- `std::numeric_limits<size_t>::max()`. -/
def maxWorkerIndex : Nat := 18446744073709551615

/-- Whose buffers a `WorkerBuffers` object is: the phase, counted from the first
of the process, and the index there. -/
structure BufferOwner where
  phase : Nat
  worker : Nat
  deriving DecidableEq, Repr

/-- `WorkerBufferCacheEntry` with its key. -/
structure WorkerBufferCacheEntry where
  stateGeneration : Nat := 0
  workerIndex : Nat := 0
  buffers : Option Nat := none
  deriving DecidableEq, Repr

/-- `matches`: the address, where there is one and the key is the caller's. -/
def WorkerBufferCacheEntry.find (entry : WorkerBufferCacheEntry) (generation index : Nat) :
    Option Nat :=
  if entry.stateGeneration = generation ∧ entry.workerIndex = index then entry.buffers else none

/-- What the cache sees of a `TypedAmRuntimeState`. `serial` counts the phases
before it; `stateType` are its template arguments. -/
structure CachedState (StateType : Type) where
  serial : Nat
  stateType : StateType
  cacheGeneration : Nat
  workerBuffers : List (Option Nat)

/-- What the heap answers to `worker_buffers`: `resize` throws, `make_unique`
throws, or the address of the new object. -/
inductive HeapAnswer where
  | noRoom
  | noMemory
  | block (address : Nat)
  deriving DecidableEq, Repr

abbrev Heap := Nat → Option BufferOwner

namespace CachedState

variable {StateType : Type}

/-- `worker_buffers_[index].get()`, null beyond the end. -/
def slot (state : CachedState StateType) (index : Nat) : Option Nat :=
  state.workerBuffers.getD index none

/-- `worker_buffers_` once `worker_index` is inside. -/
def resized (state : CachedState StateType) (index : Nat) : List (Option Nat) :=
  state.workerBuffers ++ List.replicate (index + 1 - state.workerBuffers.length) none

/-- `worker_buffers` under the mutex: grow the vector, create the object where
there is none. The last component is the address; `none` is an exception. -/
def lookup (state : CachedState StateType) (heap : Heap) (index : Nat) (answer : HeapAnswer) :
    Option (CachedState StateType × Heap × Option Nat) :=
  if answer = .noRoom ∧ state.workerBuffers.length ≤ index then some (state, heap, none)
  else
    match (state.resized index).getD index none with
    | some address =>
        some ({ state with workerBuffers := state.resized index }, heap, some address)
    | none =>
        match answer with
        | .block address =>
            if heap address = none then
              some ({ state with workerBuffers := (state.resized index).set index (some address) },
                Function.update heap address (some ⟨state.serial, index⟩), some address)
            else none
        | _ => some ({ state with workerBuffers := state.resized index }, heap, none)

/-- The destructor: each `unique_ptr` of the vector frees its object. -/
def destroy (state : CachedState StateType) (heap : Heap) : Heap :=
  fun address => if some address ∈ state.workerBuffers then none else heap address

section Lookups

variable {state state' : CachedState StateType} {heap heap' : Heap} {index : Nat}
variable {answer : HeapAnswer} {result : Option Nat}

/-- Growing the vector moves no object. -/
theorem resized_slot (state : CachedState StateType) (index other : Nat) :
    (state.resized index).getD other none = state.slot other := by
  unfold resized slot
  by_cases inside : other < state.workerBuffers.length
  · rw [List.getD_append _ _ _ _ inside]
  · rw [List.getD_append_right _ _ _ _ (by omega), List.getD_eq_getElem?_getD,
      List.getElem?_getD_replicate_default_eq, List.getD_eq_default _ _ (by omega)]

theorem resized_inside (state : CachedState StateType) (index : Nat) :
    index < (state.resized index).length := by
  unfold resized
  rw [List.length_append, List.length_replicate]
  omega

theorem slot_set (slots : List (Option Nat)) {index : Nat} (inside : index < slots.length)
    (address other : Nat) :
    (slots.set index (some address)).getD other none =
      if other = index then some address else slots.getD other none := by
  by_cases same : other = index
  · subst same
    rw [if_pos rfl, List.getD_eq_getElem _ _ (by rwa [List.length_set])]
    exact List.getElem_set_self _
  · rw [if_neg same, List.getD_eq_getElem?_getD, List.getD_eq_getElem?_getD,
      List.getElem?_set_ne (Ne.symm same)]

theorem slot_mem {address : Nat} : some address ∈ state.workerBuffers ↔
    ∃ index, state.slot index = some address := by
  constructor
  · intro member
    obtain ⟨index, bound, found⟩ := List.getElem_of_mem member
    refine ⟨index, ?_⟩
    rw [slot, List.getD_eq_getElem _ _ bound, found]
  · rintro ⟨index, found⟩
    by_cases bound : index < state.workerBuffers.length
    · rw [slot, List.getD_eq_getElem _ _ bound] at found
      rw [← found]
      exact List.getElem_mem bound
    · rw [slot, List.getD_eq_default _ _ (by omega)] at found
      cases found

/-- What `lookup` does: it keeps the phase's identity; it either leaves every
object where it is, or makes one new object at a free address for an index
that had none. -/
theorem lookup_cases (found : state.lookup heap index answer = some (state', heap', result)) :
    (state'.serial = state.serial ∧ state'.stateType = state.stateType ∧
        state'.cacheGeneration = state.cacheGeneration) ∧
      ((heap' = heap ∧ state'.slot = state.slot ∧
          ∀ address, result = some address → state.slot index = some address) ∨
        ∃ address, result = some address ∧ state.slot index = none ∧ heap address = none ∧
          heap' = Function.update heap address (some ⟨state.serial, index⟩) ∧
          state'.slot = Function.update state.slot index (some address)) := by
  unfold lookup at found
  split at found
  case isTrue full =>
      obtain ⟨rfl, rest⟩ := Prod.mk.inj (Option.some.inj found)
      obtain ⟨rfl, rfl⟩ := Prod.mk.inj rest
      exact ⟨⟨rfl, rfl, rfl⟩, .inl ⟨rfl, rfl, by simp⟩⟩
  case isFalse room =>
      split at found
      case h_1 address there =>
          obtain ⟨rfl, rest⟩ := Prod.mk.inj (Option.some.inj found)
          obtain ⟨rfl, rfl⟩ := Prod.mk.inj rest
          rw [resized_slot] at there
          refine ⟨⟨rfl, rfl, rfl⟩, .inl ⟨rfl, ?_, ?_⟩⟩
          · funext other
            exact resized_slot state index other
          · intro other same
            rw [there]
            exact same
      case h_2 absent =>
          rw [resized_slot] at absent
          split at found
          case h_1 address =>
              split at found
              case isTrue free =>
                  obtain ⟨rfl, rest⟩ := Prod.mk.inj (Option.some.inj found)
                  obtain ⟨rfl, rfl⟩ := Prod.mk.inj rest
                  refine ⟨⟨rfl, rfl, rfl⟩, .inr ⟨address, rfl, absent, free, rfl, ?_⟩⟩
                  funext other
                  rw [slot, slot_set _ (resized_inside state index), resized_slot]
                  by_cases same : other = index
                  · subst same
                    rw [if_pos rfl, Function.update_self]
                  · rw [if_neg same, Function.update_of_ne same]
              case isFalse => cases found
          case h_2 =>
              obtain ⟨rfl, rest⟩ := Prod.mk.inj (Option.some.inj found)
              obtain ⟨rfl, rfl⟩ := Prod.mk.inj rest
              refine ⟨⟨rfl, rfl, rfl⟩, .inl ⟨rfl, ?_, by simp⟩⟩
              funext other
              exact resized_slot state index other

/-- An index that has its object needs neither room nor memory. -/
theorem lookup_present {address : Nat} (there : state.slot index = some address)
    (answer : HeapAnswer) : state.lookup heap index answer = some (state, heap, some address) := by
  have bound : index < state.workerBuffers.length := by
    by_contra outside
    rw [slot, List.getD_eq_default _ _ (by omega)] at there
    cases there
  have same : state.resized index = state.workerBuffers := by
    unfold resized
    have none : index + 1 - state.workerBuffers.length = 0 := by omega
    rw [none, List.replicate_zero, List.append_nil]
  unfold lookup
  rw [if_neg (by omega), same]
  have found : state.workerBuffers.getD index none = some address := there
  rw [found]

end Lookups
end CachedState

/-- Where a thread stands in `set_am_handler` or in `worker_buffers`. -/
inductive CacheStatus (StateType : Type) where
  | idle
  /-- In the loop of `allocate_am_cache_generation`. -/
  | allocating (stateType : StateType)
  /-- With a generation for the state it is about to construct. -/
  | generated (stateType : StateType) (generation : Nat)
  /-- In `worker_buffers` of the phase `serial`, waiting for the mutex. -/
  | waiting (serial index : Nat)
  deriving DecidableEq, Repr

/-- What `worker_buffers` returned, and whose buffers were at the address. -/
structure CacheResult (Thread : Type) where
  thread : Thread
  phase : Nat
  index : Nat
  address : Nat
  owner : Option BufferOwner
  deriving DecidableEq, Repr

/-- A process. `constructed` lists the generations of its phases, `failures` the
exceptions of its calls. -/
structure CacheProcess (Thread StateType : Type) where
  counter : SharedCounter Thread := .initial 1
  amState : Option (CachedState StateType) := none
  heap : Heap := fun _ => none
  caches : Thread → StateType → WorkerBufferCacheEntry := fun _ _ => {}
  status : Thread → CacheStatus StateType := fun _ => .idle
  constructed : List Nat := []
  results : List (CacheResult Thread) := []
  failures : List (Thread × String) := []

/-- The steps of a thread. `seen` is the value a relaxed access to the counter
shows. `construct` stores the new state, or is given what its constructor
throws; `resetAmState` is a clear, the destructor of the runtime, or a
registration that failed; `workerBuffers` is a post or a flush. -/
inductive CacheAction (StateType : Type) where
  | setAmHandler (stateType : StateType) (seen : Nat)
  | compareExchange (spurious : Bool) (seen : Nat)
  | construct (failure : Option String)
  | resetAmState
  | workerBuffers (index : Nat)
  | lockedLookup (answer : HeapAnswer)
  deriving DecidableEq, Repr

namespace CacheProcess

variable {Thread StateType : Type} [DecidableEq Thread] [DecidableEq StateType]

def setStatus (process : CacheProcess Thread StateType) (thread : Thread)
    (status : CacheStatus StateType) : CacheProcess Thread StateType :=
  { process with status := Function.update process.status thread status }

omit [DecidableEq StateType] in
@[simp] theorem set_status_self (process : CacheProcess Thread StateType) (thread : Thread)
    (status : CacheStatus StateType) :
    (process.setStatus thread status).status thread = status := by
  simp [setStatus]

omit [DecidableEq StateType] in
theorem set_status_other (process : CacheProcess Thread StateType) {thread other : Thread}
    (status : CacheStatus StateType) (different : other ≠ thread) :
    (process.setStatus thread status).status other = process.status other := by
  simp [setStatus, different]

def fail (process : CacheProcess Thread StateType) (thread : Thread) (message : String) :
    CacheProcess Thread StateType :=
  { process.setStatus thread .idle with failures := process.failures ++ [(thread, message)] }

/-- The return of `worker_buffers` with an address. -/
def giveBuffers (process : CacheProcess Thread StateType) (thread : Thread)
    (state : CachedState StateType) (index address : Nat) : CacheProcess Thread StateType :=
  { process.setStatus thread .idle with
    results := process.results ++
      [{ thread := thread, phase := state.serial, index := index, address := address
         owner := process.heap address }] }

/-- `cache.key = …; cache.buffers = …`. -/
def fillCache (process : CacheProcess Thread StateType) (thread : Thread)
    (state : CachedState StateType) (index address : Nat) : CacheProcess Thread StateType :=
  { process with
    caches := Function.update process.caches thread
      (Function.update (process.caches thread) state.stateType
        { stateGeneration := state.cacheGeneration, workerIndex := index
          buffers := some address }) }

/-- `am_state_.reset()`. -/
def reset (process : CacheProcess Thread StateType) : CacheProcess Thread StateType :=
  match process.amState with
  | none => process
  | some state => { process with amState := none, heap := state.destroy process.heap }

/-- `am_state_ = std::move(state)` for a new state. -/
def install (process : CacheProcess Thread StateType) (stateType : StateType)
    (generation : Nat) : CacheProcess Thread StateType :=
  { process.reset with
    amState := some
      { serial := process.constructed.length
        stateType := stateType
        cacheGeneration := generation
        workerBuffers := [] }
    constructed := process.constructed ++ [generation] }

/-- `set_am_handler` up to the load of `allocate_am_cache_generation`. -/
def setAmHandler (process : CacheProcess Thread StateType) (thread : Thread)
    (stateType : StateType) (seen : Nat) : Option (CacheProcess Thread StateType) :=
  match process.status thread, process.amState with
  | .idle, some _ =>
      some (process.fail thread "LCI irregular runtime already has an active AM handler")
  | .idle, none =>
      (process.counter.load 1 thread seen).map fun counter =>
        { process.setStatus thread (.allocating stateType) with counter := counter }
  | _, _ => none

/-- A turn of the loop of `allocate_am_cache_generation`. -/
def compareExchange (process : CacheProcess Thread StateType) (thread : Thread) (spurious : Bool)
    (seen : Nat) : Option (CacheProcess Thread StateType) :=
  match process.status thread with
  | .allocating stateType =>
      (process.counter.exchange 1 maxGeneration thread spurious seen).map fun turned =>
        match turned.2 with
        | .again => { process with counter := turned.1 }
        | .exhausted =>
            { process.fail thread "LCI irregular AM cache generation exhausted" with
              counter := turned.1 }
        | .drawn generation =>
            { process.setStatus thread (.generated stateType generation) with
              counter := turned.1 }
  | _ => none

/-- `std::make_unique<TypedAmRuntimeState>` and the assignment of `am_state_`. -/
def construct (process : CacheProcess Thread StateType) (thread : Thread)
    (failure : Option String) : Option (CacheProcess Thread StateType) :=
  match process.status thread, failure with
  | .generated stateType generation, none =>
      some ((process.setStatus thread .idle).install stateType generation)
  | .generated _ _, some message => some (process.fail thread message)
  | _, _ => none

def resetAmState (process : CacheProcess Thread StateType) (thread : Thread) :
    Option (CacheProcess Thread StateType) :=
  match process.status thread with
  | .idle => some process.reset
  | _ => none

/-- `worker_buffers` before the mutex. Its callers check the index and the
state first. Without the cache it always takes the mutex. -/
def workerBuffers (cached : Bool) (process : CacheProcess Thread StateType) (thread : Thread)
    (index : Nat) : Option (CacheProcess Thread StateType) :=
  match process.status thread with
  | .idle =>
      if maxWorkerIndex ≤ index then
        some (process.fail thread "LCI irregular worker index is too large")
      else
        match process.amState with
        | none => some (process.fail thread "LCI irregular AM handler has not been registered")
        | some state =>
            match (process.caches thread state.stateType).find state.cacheGeneration index,
                cached with
            | some address, true => some (process.giveBuffers thread state index address)
            | _, _ => some (process.setStatus thread (.waiting state.serial index))
  | _ => none

/-- `worker_buffers` under the mutex. A call on a state that was destroyed under
it has no behaviour. -/
def lockedLookup (process : CacheProcess Thread StateType) (thread : Thread)
    (answer : HeapAnswer) : Option (CacheProcess Thread StateType) :=
  match process.status thread, process.amState with
  | .waiting serial index, some state =>
      if state.serial = serial then
        (state.lookup process.heap index answer).map fun found =>
          match found.2.2 with
          | some address =>
              ({ process with amState := some found.1, heap := found.2.1 }.fillCache thread
                found.1 index address).giveBuffers thread found.1 index address
          | none =>
              { process.fail thread "std::bad_alloc" with
                amState := some found.1, heap := found.2.1 }
      else none
  | _, _ => none

def step (cached : Bool) (process : CacheProcess Thread StateType) (thread : Thread) :
    CacheAction StateType → Option (CacheProcess Thread StateType)
  | .setAmHandler stateType seen => process.setAmHandler thread stateType seen
  | .compareExchange spurious seen => process.compareExchange thread spurious seen
  | .construct failure => process.construct thread failure
  | .resetAmState => process.resetAmState thread
  | .workerBuffers index => workerBuffers cached process thread index
  | .lockedLookup answer => process.lockedLookup thread answer

end CacheProcess

/-- The process as a transition system, with the cache or without it. -/
def cacheSystem (Thread StateType : Type) [DecidableEq Thread] [DecidableEq StateType]
    (cached : Bool) :
    TransitionSystem (CacheProcess Thread StateType) (Thread × CacheAction StateType) where
  step process call := process.step cached call.1 call.2

end IntegerSortLci.Runtime
