import IntegerSortLci.Runtime.PhaseState

/-!
# The lifecycle of active-message phases

The fields of `Runtime` that `set_am_handler` and `clear_am_handler` move
together, with every place where one of their steps may fail. `lci_am_handler_`
and `am_rcomp_` are modelled with the counts of what LCI holds for them, so a
leaked registration would show. A call of the application is one step: the LCI
answers and deliveries inside it are a run of the phase it acts on.

The types `Record` and `AmHandler` of the source are tags here, and `carrier`
gives the values of a record type. `post_record_erased` casts the stored state to the
types it was instantiated with; the cast to a type the state does not have is
the outcome `badCast`.
-/

namespace IntegerSortLci.Runtime

open Foundations

set_option autoImplicit false
set_option linter.dupNamespace false

/-- What is fixed for a live `Runtime`, and the record types of the program. -/
structure RuntimeEnv (RecordType : Type) where
  rankCount : Nat
  rank : Fin rankCount
  deviceCount : Nat
  profilingEnabled : Bool
  profilingWorkerCount : Nat
  maxBcopySize : Nat
  carrier : RecordType → Type
  recordSize : RecordType → Nat

variable {RecordType HandlerType : Type}

/-- A `TypedAmRuntimeState<Record, AmHandler>` behind its base class.
`workerBuffers` lists the workers whose buffers exist. -/
structure AmRuntimeState (env : RuntimeEnv RecordType) (HandlerType : Type) where
  recordType : RecordType
  handlerType : HandlerType
  config : PhaseConfig env.rankCount
  cacheGeneration : Nat
  workerBuffers : List Nat
  phase : PhaseState env.rankCount Nat (env.carrier recordType) Unit

structure Runtime (env : RuntimeEnv RecordType) (HandlerType : Type) where
  amState : Option (AmRuntimeState env HandlerType) := none
  amRecordType : Option RecordType := none
  postAmDispatch : Option (RecordType × HandlerType) := none
  lciAmHandler : Bool := false
  amRcomp : Nat := 0
  amReceiveUsesUpacket : Bool := false
  pendingProfiles : List (AmProfile Nat) := []
  /-- LCI handler objects that are allocated and not freed. -/
  liveHandlers : Nat := 0
  /-- Remote completions that are registered and not deregistered. -/
  liveRcomps : Nat := 0

/-- How a call ends. -/
inductive Outcome where
  | returned (value : Nat)
  | threw (message : String)
  | badCast
  deriving DecidableEq, Repr

/-- What LCI answers to `set_am_handler`: whether `alloc_handler` succeeds, the
nonzero id of `register_rcomp`, and the control thread's steps in the barrier.
`none` is an exception. -/
structure RegistrationAnswers (rankCount : Nat) (Record : Type) where
  allocHandler : Bool
  registerRcomp : Option { rcomp : Nat // rcomp ≠ 0 }
  barrier : Option (List (Option Nat × Action rankCount Record))

/-- The calls of one application thread on the runtime. `answers` is what
happens inside a post or a flush until it returns. -/
inductive Call (env : RuntimeEnv RecordType) (HandlerType : Type) where
  | setAmHandler (recordType : RecordType) (handlerType : HandlerType) (options : AmOptions)
      (nextGeneration : Nat)
      (answers : RegistrationAnswers env.rankCount (env.carrier recordType))
  | clearAmHandler
  | postAm (recordType : RecordType) (worker : Nat) (dest : Int)
      (record : env.carrier recordType)
      (answers : List (Option Nat × Action env.rankCount (env.carrier recordType)))
  | flush (worker : Nat)
      (answers : (recordType : RecordType) →
        List (Option Nat × Action env.rankCount (env.carrier recordType)))
  | recvCount

/-- `allocate_am_cache_generation` on the counter's current value. -/
def allocateAmCacheGeneration (next : Nat) : Except String Nat :=
  if next = 2 ^ 64 - 1 then .error "LCI irregular AM cache generation exhausted" else .ok next

namespace AmRuntimeState

variable {env : RuntimeEnv RecordType}

/-- The body of the constructor, after `choose_batch_records` accepted. -/
def construct (recordType : RecordType) (handlerType : HandlerType)
    (config : PhaseConfig env.rankCount) (cacheGeneration : Nat) :
    AmRuntimeState env HandlerType where
  recordType := recordType
  handlerType := handlerType
  config := config
  cacheGeneration := cacheGeneration
  workerBuffers := []
  phase := .initial config ()

/-- `has_buffered_records` over the workers whose buffers exist. -/
def hasBufferedRecords (state : AmRuntimeState env HandlerType) : Bool :=
  state.workerBuffers.any fun worker =>
    decide (∃ dest, ((state.phase.threads (some worker)).sendBuffers dest).empty = false)

/-- `worker_buffers`, which creates the buffers of a new worker. -/
def withWorker (state : AmRuntimeState env HandlerType) (worker : Nat) :
    AmRuntimeState env HandlerType :=
  if worker ∈ state.workerBuffers then state
  else { state with workerBuffers := state.workerBuffers ++ [worker] }

/-- A run of the phase; the calls inside it must all have returned. -/
def run (state : AmRuntimeState env HandlerType)
    (actions : List (Option Nat × Action env.rankCount (env.carrier state.recordType)))
    (thread : Option Nat) : Option (AmRuntimeState env HandlerType) :=
  ((phaseSystem state.config (noMemory _ _)).run state.phase actions).bind fun phase =>
    if (phase.threads thread).stack.isEmpty then some { state with phase := phase } else none

end AmRuntimeState

namespace Runtime

variable {env : RuntimeEnv RecordType}

/-- `free_comp` on the handler, where there is one. -/
def freeHandler (runtime : Runtime env HandlerType) : Runtime env HandlerType :=
  if runtime.lciAmHandler then
    { runtime with lciAmHandler := false, liveHandlers := runtime.liveHandlers - 1 }
  else runtime

def deregisterRcomp (runtime : Runtime env HandlerType) : Runtime env HandlerType :=
  if runtime.amRcomp ≠ 0 then
    { runtime with amRcomp := 0, liveRcomps := runtime.liveRcomps - 1 }
  else runtime

def releaseAmTransport (runtime : Runtime env HandlerType) : Runtime env HandlerType :=
  { runtime.deregisterRcomp.freeHandler with amReceiveUsesUpacket := false }

def clearAmDispatch (runtime : Runtime env HandlerType) : Runtime env HandlerType :=
  { runtime with amRecordType := none, postAmDispatch := none }

def resetAmState (runtime : Runtime env HandlerType) : Runtime env HandlerType :=
  { runtime with amState := none }

/-- `register_am_transport`. The second component is the exception, if any. -/
def registerAmTransport (runtime : Runtime env HandlerType) (useUpacket : Bool)
    (allocHandler : Bool) (registerRcomp : Option { rcomp : Nat // rcomp ≠ 0 }) :
    Runtime env HandlerType × Option String :=
  if runtime.lciAmHandler ∨ runtime.amRcomp ≠ 0 then
    (runtime, some "LCI irregular AM transport is already registered")
  else if allocHandler then
    let allocated :=
      { runtime with lciAmHandler := true, liveHandlers := runtime.liveHandlers + 1 }
    match registerRcomp with
    | some rcomp =>
        ({ allocated with
            amRcomp := rcomp.val
            liveRcomps := allocated.liveRcomps + 1
            amReceiveUsesUpacket := useUpacket }, none)
    | none => (allocated.freeHandler, some "LCI register_rcomp failed")
  else (runtime, some "LCI alloc_handler failed")

/-- The `try` block of `set_am_handler`: the transport, then the barrier. -/
def enterPhase (runtime : Runtime env HandlerType) (state : AmRuntimeState env HandlerType)
    (answers : RegistrationAnswers env.rankCount (env.carrier state.recordType)) :
    Option (Runtime env HandlerType × Option String) :=
  match runtime.registerAmTransport state.config.options.useUpacket answers.allocHandler
      answers.registerRcomp with
  | (registered, some message) => some (registered, some message)
  | (registered, none) =>
      match answers.barrier with
      | none => some (registered, some "LCI barrier failed")
      | some arrivals =>
          (state.run arrivals none).map fun entered =>
            ({ registered with amState := some entered }, none)

/-- The `catch` block of `set_am_handler`. -/
def leavePhase (runtime : Runtime env HandlerType) : Runtime env HandlerType :=
  runtime.releaseAmTransport.resetAmState.clearAmDispatch

def setAmHandler (runtime : Runtime env HandlerType) (recordType : RecordType)
    (handlerType : HandlerType) (options : AmOptions) (nextGeneration : Nat)
    (answers : RegistrationAnswers env.rankCount (env.carrier recordType)) :
    Option (Runtime env HandlerType × Outcome) :=
  if runtime.amState.isSome then
    some (runtime, .threw "LCI irregular runtime already has an active AM handler")
  else
    match allocateAmCacheGeneration nextGeneration with
    | .error message => some (runtime, .threw message)
    | .ok cacheGeneration =>
        match chosen : chooseBatchRecords env.maxBcopySize (env.recordSize recordType) options with
        | .error message => some (runtime, .threw message)
        | .ok batchRecords =>
            let config : PhaseConfig env.rankCount :=
              { rank := env.rank
                options := options
                maxBcopySize := env.maxBcopySize
                recordSize := env.recordSize recordType
                batchRecords := batchRecords
                profilingEnabled := env.profilingEnabled
                chosen := chosen }
            let state : AmRuntimeState env HandlerType :=
              .construct recordType handlerType config cacheGeneration
            let stored : Runtime env HandlerType :=
              { runtime with
                amState := some state
                amRecordType := some recordType
                postAmDispatch := some (recordType, handlerType) }
            (stored.enterPhase state answers).map fun entered =>
              match entered.2 with
              | none => (entered.1, .returned 0)
              | some message => (entered.1.leavePhase, .threw message)

/-- `finalize_profile` of a state that is about to be reset. -/
def finalizeProfile (runtime : Runtime env HandlerType) (state : AmRuntimeState env HandlerType) :
    Runtime env HandlerType :=
  if state.config.profilingEnabled then
    { runtime with pendingProfiles := runtime.pendingProfiles ++ [state.phase.profile.snapshot] }
  else runtime

def clearAmHandler (runtime : Runtime env HandlerType) : Runtime env HandlerType × Outcome :=
  match runtime.amState with
  | none => (runtime, .returned 0)
  | some state =>
      if state.hasBufferedRecords then
        (runtime, .threw "LCI irregular AM handler cleared with unflushed records")
      else
        ((runtime.finalizeProfile state).releaseAmTransport.resetAmState.clearAmDispatch,
          .returned 0)

def validateWorkerIndex (env : RuntimeEnv RecordType) (worker : Nat) : Option String :=
  if env.deviceCount = 0 then some "LCI irregular runtime has no devices"
  else if worker = 2 ^ 64 - 1 then some "LCI irregular worker index is too large"
  else if env.profilingEnabled ∧ env.profilingWorkerCount ≤ worker then
    some "LCI irregular worker index exceeds profiling worker_count"
  else none

variable [DecidableEq RecordType] [DecidableEq HandlerType]

/-- `post_record_erased<Record, AmHandler>` with the types of `dispatch`, on a
record of type `recordType`. -/
def postRecordErased (runtime : Runtime env HandlerType) (dispatch : RecordType × HandlerType)
    (state : AmRuntimeState env HandlerType) (recordType : RecordType) (worker : Nat) (dest : Int)
    (record : env.carrier recordType)
    (answers : List (Option Nat × Action env.rankCount (env.carrier recordType))) :
    Option (Runtime env HandlerType × Outcome) :=
  if same : state.recordType = dispatch.1 ∧ state.handlerType = dispatch.2 ∧
      recordType = dispatch.1 then
    match checkedDestination env.rankCount dest with
    | none => some (runtime, .threw "LCI irregular AM destination rank is out of range")
    | some _ =>
        let typed : List (Option Nat × Action env.rankCount (env.carrier state.recordType)) :=
          cast (by rw [same.1, same.2.2]) ((some worker, .postAm dest record) :: answers)
        ((state.withWorker worker).run (cast (by
            unfold AmRuntimeState.withWorker
            split <;> rfl) typed) (some worker)).map fun posted =>
          ({ runtime with amState := some posted }, .returned 0)
  else some (runtime, .badCast)

def postAmForWorker (runtime : Runtime env HandlerType) (recordType : RecordType) (worker : Nat)
    (dest : Int) (record : env.carrier recordType)
    (answers : List (Option Nat × Action env.rankCount (env.carrier recordType))) :
    Option (Runtime env HandlerType × Outcome) :=
  match validateWorkerIndex env worker with
  | some message => some (runtime, .threw message)
  | none =>
      match runtime.amState with
      | none => some (runtime, .threw "LCI irregular AM handler has not been registered")
      | some state =>
          match runtime.postAmDispatch with
          | some dispatch =>
              if runtime.amRecordType = some recordType then
                runtime.postRecordErased dispatch state recordType worker dest record answers
              else
                some (runtime,
                  .threw "LCI irregular AM record type does not match the active handler")
          | none =>
              some (runtime,
                .threw "LCI irregular AM record type does not match the active handler")

def flushWorker (runtime : Runtime env HandlerType) (worker : Nat)
    (answers : (recordType : RecordType) →
      List (Option Nat × Action env.rankCount (env.carrier recordType))) :
    Option (Runtime env HandlerType × Outcome) :=
  match validateWorkerIndex env worker with
  | some message => some (runtime, .threw message)
  | none =>
      match runtime.amState with
      | none => some (runtime, .threw "LCI irregular AM handler has not been registered")
      | some state =>
          ((state.withWorker worker).run ((some worker, .flush) :: answers _)
            (some worker)).map fun flushed =>
              ({ runtime with amState := some flushed }, .returned 0)

def recvCount (runtime : Runtime env HandlerType) : Nat :=
  match runtime.amState with
  | none => 0
  | some state => state.phase.recvCount

def execute (runtime : Runtime env HandlerType) :
    Call env HandlerType → Option (Runtime env HandlerType × Outcome)
  | .setAmHandler recordType handlerType options nextGeneration answers =>
      runtime.setAmHandler recordType handlerType options nextGeneration answers
  | .clearAmHandler => some runtime.clearAmHandler
  | .postAm recordType worker dest record answers =>
      runtime.postAmForWorker recordType worker dest record answers
  | .flush worker answers => runtime.flushWorker worker answers
  | .recvCount => some (runtime, .returned runtime.recvCount)

end Runtime
end IntegerSortLci.Runtime
