import IntegerSortLci.Runtime.Lifecycle

/-!
# The lifecycle under failures

A runtime is settled when it carries nothing of a phase, or everything of one
phase with matching types. Each operation takes a settled runtime to a settled
one, and an operation that throws gives back the runtime it was called on: the
`catch` block of `set_am_handler` undoes exactly what the call did before.
-/

namespace IntegerSortLci.Runtime

open Foundations

set_option autoImplicit false
set_option linter.dupNamespace false

variable {RecordType HandlerType : Type} {env : RuntimeEnv RecordType}

namespace Runtime

/-- No phase, and nothing left of an earlier one. -/
structure Vacant (runtime : Runtime env HandlerType) : Prop where
  stored : runtime.amState = none
  identity : runtime.amRecordType = none
  dispatch : runtime.postAmDispatch = none
  handler : runtime.lciAmHandler = false
  rcomp : runtime.amRcomp = 0
  packets : runtime.amReceiveUsesUpacket = false
  handlers : runtime.liveHandlers = 0
  rcomps : runtime.liveRcomps = 0

/-- Everything of the phase `state`, once. -/
structure Occupied (runtime : Runtime env HandlerType) (state : AmRuntimeState env HandlerType) :
    Prop where
  stored : runtime.amState = some state
  identity : runtime.amRecordType = some state.recordType
  dispatch : runtime.postAmDispatch = some (state.recordType, state.handlerType)
  handler : runtime.lciAmHandler = true
  rcomp : runtime.amRcomp ≠ 0
  packets : runtime.amReceiveUsesUpacket = state.config.options.useUpacket
  handlers : runtime.liveHandlers = 1
  rcomps : runtime.liveRcomps = 1

def Settled (runtime : Runtime env HandlerType) : Prop :=
  runtime.Vacant ∨ ∃ state, runtime.Occupied state

/-- The fields that say whether a phase is active say the same, LCI holds
exactly the registrations of the active phase, and the dispatch function and
the packet flag are those of the stored state. -/
structure Consistent (runtime : Runtime env HandlerType) : Prop where
  dispatch : runtime.amState.isSome ↔ runtime.postAmDispatch.isSome
  identity : runtime.amState.isSome ↔ runtime.amRecordType.isSome
  handler : runtime.amState.isSome ↔ runtime.lciAmHandler = true
  rcomp : runtime.amState.isSome ↔ runtime.amRcomp ≠ 0
  handlers : runtime.liveHandlers = if runtime.amState.isSome then 1 else 0
  rcomps : runtime.liveRcomps = if runtime.amState.isSome then 1 else 0
  matching : ∀ state, runtime.amState = some state →
    runtime.amRecordType = some state.recordType ∧
      runtime.postAmDispatch = some (state.recordType, state.handlerType) ∧
      runtime.amReceiveUsesUpacket = state.config.options.useUpacket
  cleared : runtime.amState = none → runtime.amReceiveUsesUpacket = false

theorem Settled.consistent {runtime : Runtime env HandlerType} (settled : runtime.Settled) :
    runtime.Consistent := by
  rcases settled with vacant | ⟨state, occupied⟩
  · constructor <;> simp [vacant.stored, vacant.identity, vacant.dispatch, vacant.handler,
      vacant.rcomp, vacant.packets, vacant.handlers, vacant.rcomps]
  · constructor <;> simp [occupied.stored, occupied.identity, occupied.dispatch, occupied.handler,
      occupied.rcomp, occupied.packets, occupied.handlers, occupied.rcomps]

/-- The calls a caller gets an exception for. -/
inductive Rejected (runtime : Runtime env HandlerType) : Call env HandlerType → Prop where
  | secondHandler (recordType : RecordType) (handlerType : HandlerType) (options : AmOptions)
      (nextGeneration : Nat)
      (answers : RegistrationAnswers env.rankCount (env.carrier recordType))
      (active : runtime.amState.isSome) :
      Rejected runtime (.setAmHandler recordType handlerType options nextGeneration answers)
  | otherRecordType (state : AmRuntimeState env HandlerType) (recordType : RecordType)
      (worker : Nat) (dest : Int) (record : env.carrier recordType)
      (answers : List (Option Nat × Action env.rankCount (env.carrier recordType)))
      (active : runtime.amState = some state) (mismatch : recordType ≠ state.recordType) :
      Rejected runtime (.postAm recordType worker dest record answers)
  | outOfRange (recordType : RecordType) (worker : Nat) (dest : Int)
      (record : env.carrier recordType)
      (answers : List (Option Nat × Action env.rankCount (env.carrier recordType)))
      (outside : dest < 0 ∨ (env.rankCount : Int) ≤ dest) :
      Rejected runtime (.postAm recordType worker dest record answers)
  | badWorkerPost (recordType : RecordType) (worker : Nat) (dest : Int)
      (record : env.carrier recordType)
      (answers : List (Option Nat × Action env.rankCount (env.carrier recordType)))
      (invalid : (validateWorkerIndex env worker).isSome) :
      Rejected runtime (.postAm recordType worker dest record answers)
  | badWorkerFlush (worker : Nat)
      (answers : (recordType : RecordType) →
        List (Option Nat × Action env.rankCount (env.carrier recordType)))
      (invalid : (validateWorkerIndex env worker).isSome) :
      Rejected runtime (.flush worker answers)
  | bufferedClear (state : AmRuntimeState env HandlerType)
      (active : runtime.amState = some state) (buffered : state.hasBufferedRecords = true) :
      Rejected runtime .clearAmHandler
  | postWithoutPhase (recordType : RecordType) (worker : Nat) (dest : Int)
      (record : env.carrier recordType)
      (answers : List (Option Nat × Action env.rankCount (env.carrier recordType)))
      (inactive : runtime.amState = none) :
      Rejected runtime (.postAm recordType worker dest record answers)
  | flushWithoutPhase (worker : Nat)
      (answers : (recordType : RecordType) →
        List (Option Nat × Action env.rankCount (env.carrier recordType)))
      (inactive : runtime.amState = none) :
      Rejected runtime (.flush worker answers)

/-- What every call does on a settled runtime. -/
structure CallKept (before after : Runtime env HandlerType) (outcome : Outcome) : Prop where
  settled : after.Settled
  typed : outcome ≠ .badCast
  undone : ∀ message, outcome = .threw message → after = before

theorem thrown_kept {runtime : Runtime env HandlerType} (settled : runtime.Settled)
    (message : String) : CallKept runtime runtime (.threw message) where
  settled := settled
  typed := nofun
  undone _ _ := rfl

theorem returned_kept {before after : Runtime env HandlerType} (settled : after.Settled)
    (value : Nat) : CallKept before after (.returned value) where
  settled := settled
  typed := nofun
  undone _ := nofun

end Runtime

namespace AmRuntimeState

variable {state state' : AmRuntimeState env HandlerType}

/-- A run touches the buffers, the counters and the profile, never the types. -/
theorem run_keeps_types
    {actions : List (Option Nat × Action env.rankCount (env.carrier state.recordType))}
    {thread : Option Nat} (ran : state.run actions thread = some state') :
    state'.recordType = state.recordType ∧ state'.handlerType = state.handlerType ∧
      state'.config = state.config := by
  unfold run at ran
  obtain ⟨phase, _, finished⟩ := Option.bind_eq_some_iff.mp ran
  by_cases returned : (phase.threads thread).stack.isEmpty
  · rw [if_pos returned] at finished
    obtain rfl := Option.some.inj finished
    exact ⟨rfl, rfl, rfl⟩
  · rw [if_neg returned] at finished
    cases finished

theorem with_worker_keeps_types (state : AmRuntimeState env HandlerType) (worker : Nat) :
    (state.withWorker worker).recordType = state.recordType ∧
      (state.withWorker worker).handlerType = state.handlerType ∧
      (state.withWorker worker).config = state.config := by
  unfold withWorker
  by_cases present : worker ∈ state.workerBuffers
  · rw [if_pos present]
    exact ⟨rfl, rfl, rfl⟩
  · rw [if_neg present]
    exact ⟨rfl, rfl, rfl⟩

end AmRuntimeState

namespace Runtime

variable {runtime after : Runtime env HandlerType} {state state' : AmRuntimeState env HandlerType}
variable {outcome : Outcome}

/-- A state of the same types may take the place of the stored one. -/
theorem Occupied.replace (occupied : runtime.Occupied state)
    (types : state'.recordType = state.recordType ∧ state'.handlerType = state.handlerType ∧
      state'.config = state.config) :
    ({ runtime with amState := some state' } : Runtime env HandlerType).Occupied state' where
  stored := rfl
  identity := by
    rw [types.1]
    exact occupied.identity
  dispatch := by
    rw [types.1, types.2.1]
    exact occupied.dispatch
  handler := occupied.handler
  rcomp := occupied.rcomp
  packets := by
    rw [types.2.2]
    exact occupied.packets
  handlers := occupied.handlers
  rcomps := occupied.rcomps

/-- What `set_am_handler` has stored when its `try` block begins. -/
structure Prepared (runtime : Runtime env HandlerType) (state : AmRuntimeState env HandlerType) :
    Prop where
  stored : runtime.amState = some state
  identity : runtime.amRecordType = some state.recordType
  dispatch : runtime.postAmDispatch = some (state.recordType, state.handlerType)
  handler : runtime.lciAmHandler = false
  rcomp : runtime.amRcomp = 0
  packets : runtime.amReceiveUsesUpacket = false
  handlers : runtime.liveHandlers = 0
  rcomps : runtime.liveRcomps = 0

theorem Vacant.prepare (vacant : runtime.Vacant) (state : AmRuntimeState env HandlerType) :
    ({ runtime with
        amState := some state
        amRecordType := some state.recordType
        postAmDispatch := some (state.recordType, state.handlerType) } :
      Runtime env HandlerType).Prepared state where
  stored := rfl
  identity := rfl
  dispatch := rfl
  handler := vacant.handler
  rcomp := vacant.rcomp
  packets := vacant.packets
  handlers := vacant.handlers
  rcomps := vacant.rcomps

theorem Prepared.leave (prepared : runtime.Prepared state) : runtime.leavePhase.Vacant := by
  have handler := prepared.handler
  have rcomp := prepared.rcomp
  constructor <;>
    simp [leavePhase, releaseAmTransport, deregisterRcomp, freeHandler, resetAmState,
      clearAmDispatch, handler, rcomp, prepared.handlers, prepared.rcomps]

/-- Releasing the transport and dropping the state leaves nothing of the phase. -/
theorem Occupied.leave (occupied : runtime.Occupied state) : runtime.leavePhase.Vacant := by
  have handler := occupied.handler
  have rcomp := occupied.rcomp
  constructor <;>
    simp [leavePhase, releaseAmTransport, deregisterRcomp, freeHandler, resetAmState,
      clearAmDispatch, handler, rcomp, occupied.handlers, occupied.rcomps]

@[simp] theorem free_handler_pending :
    runtime.freeHandler.pendingProfiles = runtime.pendingProfiles := by
  unfold freeHandler
  split <;> rfl

@[simp] theorem deregister_pending :
    runtime.deregisterRcomp.pendingProfiles = runtime.pendingProfiles := by
  unfold deregisterRcomp
  split <;> rfl

theorem leave_phase_pending : runtime.leavePhase.pendingProfiles = runtime.pendingProfiles := by
  simp [leavePhase, releaseAmTransport, resetAmState, clearAmDispatch]

/-- A vacant runtime is its pending profiles. -/
theorem Vacant.same {other : Runtime env HandlerType} (vacant : runtime.Vacant)
    (otherVacant : other.Vacant) (pending : other.pendingProfiles = runtime.pendingProfiles) :
    other = runtime := by
  obtain ⟨stored, identity, dispatch, handler, rcomp, packets, handlers, rcomps⟩ := vacant
  obtain ⟨stored', identity', dispatch', handler', rcomp', packets', handlers', rcomps'⟩ :=
    otherVacant
  cases runtime
  cases other
  simp only at *
  subst_vars
  rfl

/-- `register_am_transport` either throws with nothing registered, or has
registered one handler and one completion in the phase's receive mode. -/
theorem register_cases (prepared : runtime.Prepared state) (allocHandler : Bool)
    (registerRcomp : Option { rcomp : Nat // rcomp ≠ 0 }) :
    (∃ registered message,
      runtime.registerAmTransport state.config.options.useUpacket allocHandler registerRcomp =
        (registered, some message) ∧
      registered.Prepared state ∧ registered.pendingProfiles = runtime.pendingProfiles) ∨
    (∃ registered,
      runtime.registerAmTransport state.config.options.useUpacket allocHandler registerRcomp =
        (registered, none) ∧
      registered.Occupied state ∧ registered.pendingProfiles = runtime.pendingProfiles) := by
  have unregistered : ¬(runtime.lciAmHandler ∨ runtime.amRcomp ≠ 0) := by
    simp [prepared.handler, prepared.rcomp]
  unfold registerAmTransport
  rw [if_neg unregistered]
  cases allocHandler with
  | false => exact .inl ⟨runtime, _, rfl, prepared, rfl⟩
  | true =>
      cases registerRcomp with
      | none =>
          refine .inl ⟨_, _, rfl, ?_, rfl⟩
          exact {
            stored := prepared.stored
            identity := prepared.identity
            dispatch := prepared.dispatch
            handler := rfl
            rcomp := prepared.rcomp
            packets := prepared.packets
            handlers := prepared.handlers
            rcomps := prepared.rcomps }
      | some rcomp =>
          refine .inr ⟨_, rfl, ?_, rfl⟩
          exact {
            stored := prepared.stored
            identity := prepared.identity
            dispatch := prepared.dispatch
            handler := rfl
            rcomp := rcomp.property
            packets := rfl
            handlers := congrArg (· + 1) prepared.handlers
            rcomps := congrArg (· + 1) prepared.rcomps }

/-- The `try` block either enters the phase or throws with a runtime that the
`catch` block makes vacant again. -/
theorem enter_phase_cases (prepared : runtime.Prepared state)
    {answers : RegistrationAnswers env.rankCount (env.carrier state.recordType)}
    {entered : Runtime env HandlerType × Option String}
    (ran : runtime.enterPhase state answers = some entered) :
    (entered.2 = none ∧ ∃ state', entered.1.Occupied state') ∨
    (entered.2.isSome ∧ entered.1.leavePhase.Vacant ∧
      entered.1.leavePhase.pendingProfiles = runtime.pendingProfiles) := by
  rcases register_cases prepared answers.allocHandler answers.registerRcomp with
    ⟨registered, message, answer, still, pending⟩ | ⟨registered, answer, occupied, pending⟩
  · simp only [enterPhase, answer, Option.some.injEq] at ran
    subst ran
    exact .inr ⟨rfl, still.leave, leave_phase_pending.trans pending⟩
  · simp only [enterPhase, answer] at ran
    cases barrier : answers.barrier with
    | none =>
        simp only [barrier, Option.some.injEq] at ran
        subst ran
        exact .inr ⟨rfl, occupied.leave, leave_phase_pending.trans pending⟩
    | some arrivals =>
        simp only [barrier] at ran
        obtain ⟨state', moved, rfl⟩ := Option.map_eq_some_iff.mp ran
        exact .inl ⟨rfl, state', occupied.replace (AmRuntimeState.run_keeps_types moved)⟩

theorem set_am_handler_kept (settled : runtime.Settled) {recordType : RecordType}
    {handlerType : HandlerType} {options : AmOptions} {nextGeneration : Nat}
    {answers : RegistrationAnswers env.rankCount (env.carrier recordType)}
    (called : runtime.setAmHandler recordType handlerType options nextGeneration answers =
      some (after, outcome)) : CallKept runtime after outcome := by
  unfold setAmHandler at called
  rcases settled with vacant | ⟨state, occupied⟩
  · rw [if_neg (by simp [vacant.stored])] at called
    split at called
    · cases called
      exact thrown_kept (.inl vacant) _
    · split at called
      · cases called
        exact thrown_kept (.inl vacant) _
      · obtain ⟨entered, ran, finished⟩ := Option.map_eq_some_iff.mp called
        rcases enter_phase_cases (vacant.prepare _) ran with
          ⟨fine, occupied⟩ | ⟨failed, left, pending⟩
        · rw [fine] at finished
          cases finished
          exact returned_kept (.inr occupied) 0
        · obtain ⟨message, thrown⟩ := Option.isSome_iff_exists.mp failed
          rw [thrown] at finished
          cases finished
          have restored := vacant.same left pending
          rw [restored]
          exact thrown_kept (.inl vacant) message
  · rw [if_pos (by simp [occupied.stored])] at called
    cases called
    exact thrown_kept (.inr ⟨state, occupied⟩) _

theorem clear_am_handler_kept (settled : runtime.Settled)
    (called : runtime.clearAmHandler = (after, outcome)) : CallKept runtime after outcome := by
  unfold clearAmHandler at called
  rcases settled with vacant | ⟨state, occupied⟩
  · simp only [vacant.stored, Prod.mk.injEq] at called
    obtain ⟨rfl, rfl⟩ := called
    exact returned_kept (.inl vacant) 0
  · simp only [occupied.stored] at called
    by_cases buffered : state.hasBufferedRecords = true
    · rw [if_pos buffered] at called
      cases called
      exact thrown_kept (.inr ⟨state, occupied⟩) _
    · rw [if_neg buffered] at called
      cases called
      have finalized : (runtime.finalizeProfile state).Occupied state := by
        unfold finalizeProfile
        split
        · exact { occupied with }
        · exact occupied
      exact returned_kept (.inl finalized.leave) 0

theorem flush_worker_kept (settled : runtime.Settled) {worker : Nat}
    {answers : (recordType : RecordType) →
      List (Option Nat × Action env.rankCount (env.carrier recordType))}
    (called : runtime.flushWorker worker answers = some (after, outcome)) :
    CallKept runtime after outcome := by
  unfold flushWorker at called
  cases invalid : validateWorkerIndex env worker with
  | some message =>
      simp only [invalid] at called
      cases called
      exact thrown_kept settled message
  | none =>
      simp only [invalid] at called
      rcases settled with vacant | ⟨state, occupied⟩
      · simp only [vacant.stored] at called
        cases called
        exact thrown_kept (.inl vacant) _
      · simp only [occupied.stored] at called
        obtain ⟨state', ran, finished⟩ := Option.map_eq_some_iff.mp called
        cases finished
        have moved := AmRuntimeState.run_keeps_types ran
        have created := state.with_worker_keeps_types worker
        refine returned_kept (.inr ⟨state', occupied.replace ?_⟩) 0
        exact ⟨moved.1.trans created.1, moved.2.1.trans created.2.1, moved.2.2.trans created.2.2⟩

section Typed

variable [DecidableEq RecordType] [DecidableEq HandlerType]

/-- The dispatch function of an occupied runtime is instantiated with the types
of the stored state, so its cast succeeds. -/
theorem post_record_erased_kept (occupied : runtime.Occupied state) {recordType : RecordType}
    (matching : state.recordType = recordType) {worker : Nat} {dest : Int}
    {record : env.carrier recordType}
    {answers : List (Option Nat × Action env.rankCount (env.carrier recordType))}
    (called : runtime.postRecordErased (state.recordType, state.handlerType) state recordType worker
      dest record answers = some (after, outcome)) : CallKept runtime after outcome := by
  unfold postRecordErased at called
  rw [dif_pos ⟨rfl, rfl, matching.symm⟩] at called
  split at called
  · cases called
    exact thrown_kept (.inr ⟨state, occupied⟩) _
  · obtain ⟨state', ran, finished⟩ := Option.map_eq_some_iff.mp called
    cases finished
    have moved := AmRuntimeState.run_keeps_types ran
    have created := state.with_worker_keeps_types worker
    refine returned_kept (.inr ⟨state', occupied.replace ?_⟩) 0
    exact ⟨moved.1.trans created.1, moved.2.1.trans created.2.1, moved.2.2.trans created.2.2⟩

/-- A post while a phase is active reaches the dispatch function exactly when
its record type is the phase's. -/
theorem post_am_occupied (occupied : runtime.Occupied state) (recordType : RecordType)
    {worker : Nat} (valid : validateWorkerIndex env worker = none) (dest : Int)
    (record : env.carrier recordType)
    (answers : List (Option Nat × Action env.rankCount (env.carrier recordType))) :
    runtime.postAmForWorker recordType worker dest record answers =
      if state.recordType = recordType then
        runtime.postRecordErased (state.recordType, state.handlerType) state recordType worker dest
          record answers
      else
        some (runtime,
          .threw "LCI irregular AM record type does not match the active handler") := by
  simp only [postAmForWorker, valid, occupied.stored, occupied.dispatch, occupied.identity,
    Option.some.injEq]

theorem post_am_kept (settled : runtime.Settled) {recordType : RecordType} {worker : Nat}
    {dest : Int} {record : env.carrier recordType}
    {answers : List (Option Nat × Action env.rankCount (env.carrier recordType))}
    (called : runtime.postAmForWorker recordType worker dest record answers =
      some (after, outcome)) : CallKept runtime after outcome := by
  cases checked : validateWorkerIndex env worker with
  | some message =>
      simp only [postAmForWorker, checked] at called
      cases called
      exact thrown_kept settled message
  | none =>
      rcases settled with vacant | ⟨state, occupied⟩
      · simp only [postAmForWorker, checked, vacant.stored] at called
        cases called
        exact thrown_kept (.inl vacant) _
      · rw [post_am_occupied occupied recordType checked] at called
        by_cases matching : state.recordType = recordType
        · rw [if_pos matching] at called
          exact post_record_erased_kept occupied matching called
        · rw [if_neg matching] at called
          cases called
          exact thrown_kept (.inr ⟨state, occupied⟩) _

/-- One call, whatever it is and wherever it fails. -/
theorem execute_kept (settled : runtime.Settled) {call : Call env HandlerType}
    (called : runtime.execute call = some (after, outcome)) :
    CallKept runtime after outcome := by
  cases call with
  | setAmHandler recordType handlerType options nextGeneration answers =>
      exact set_am_handler_kept settled called
  | clearAmHandler => exact clear_am_handler_kept settled (Option.some.inj called)
  | postAm recordType worker dest record answers => exact post_am_kept settled called
  | flush worker answers => exact flush_worker_kept settled called
  | recvCount =>
      cases called
      exact returned_kept settled _

theorem out_of_range_throws {recordType : RecordType}
    (matching : state.recordType = recordType) (worker : Nat) {dest : Int}
    (outside : dest < 0 ∨ (env.rankCount : Int) ≤ dest) (record : env.carrier recordType)
    (answers : List (Option Nat × Action env.rankCount (env.carrier recordType))) :
    runtime.postRecordErased (state.recordType, state.handlerType) state recordType worker dest
      record answers =
        some (runtime, .threw "LCI irregular AM destination rank is out of range") := by
  have unbounded : checkedDestination env.rankCount dest = none := by
    unfold checkedDestination
    rw [dif_neg]
    omega
  unfold postRecordErased
  rw [dif_pos ⟨rfl, rfl, matching.symm⟩]
  simp only [unbounded]

/-- A rejected call throws and changes nothing. -/
theorem rejected_throws (settled : runtime.Settled) {call : Call env HandlerType}
    (rejected : runtime.Rejected call) :
    ∃ message, runtime.execute call = some (runtime, .threw message) := by
  cases rejected with
  | secondHandler recordType handlerType options nextGeneration answers active =>
      exact ⟨_, if_pos active⟩
  | otherRecordType state recordType worker dest record answers active mismatch =>
      rcases settled with vacant | ⟨other, occupied⟩
      · exact absurd (vacant.stored.symm.trans active) nofun
      · obtain rfl := Option.some.inj (occupied.stored.symm.trans active)
        cases checked : validateWorkerIndex env worker with
        | some message => exact ⟨message, by simp [execute, postAmForWorker, checked]⟩
        | none =>
            have different : ¬other.recordType = recordType := fun same => mismatch same.symm
            have answer := post_am_occupied occupied recordType checked dest record answers
            rw [if_neg different] at answer
            exact ⟨_, answer⟩
  | outOfRange recordType worker dest record answers outside =>
      cases checked : validateWorkerIndex env worker with
      | some message => exact ⟨message, by simp [execute, postAmForWorker, checked]⟩
      | none =>
          rcases settled with vacant | ⟨state, occupied⟩
          · exact ⟨_, by simp [execute, postAmForWorker, checked, vacant.stored]; rfl⟩
          · have answer := post_am_occupied occupied recordType checked dest record answers
            by_cases matching : state.recordType = recordType
            · rw [if_pos matching, out_of_range_throws matching worker outside] at answer
              exact ⟨_, answer⟩
            · rw [if_neg matching] at answer
              exact ⟨_, answer⟩
  | badWorkerPost recordType worker dest record answers invalid =>
      obtain ⟨message, answer⟩ := Option.isSome_iff_exists.mp invalid
      exact ⟨message, by simp [execute, postAmForWorker, answer]⟩
  | badWorkerFlush worker answers invalid =>
      obtain ⟨message, answer⟩ := Option.isSome_iff_exists.mp invalid
      exact ⟨message, by simp [execute, flushWorker, answer]⟩
  | bufferedClear state active buffered =>
      exact ⟨_, by simp only [execute, clearAmHandler, active, buffered, if_true]; rfl⟩
  | postWithoutPhase recordType worker dest record answers inactive =>
      cases checked : validateWorkerIndex env worker with
      | some message => exact ⟨message, by simp [execute, postAmForWorker, checked]⟩
      | none => exact ⟨_, by simp [execute, postAmForWorker, checked, inactive]; rfl⟩
  | flushWithoutPhase worker answers inactive =>
      cases checked : validateWorkerIndex env worker with
      | some message => exact ⟨message, by simp [execute, flushWorker, checked]⟩
      | none => exact ⟨_, by simp [execute, flushWorker, checked, inactive]; rfl⟩

end Typed

end Runtime

/-- The calls an application makes on its runtime. -/
def lifecycleSystem [DecidableEq RecordType] (env : RuntimeEnv RecordType)
    (HandlerType : Type) [DecidableEq HandlerType] :
    TransitionSystem (Runtime env HandlerType) (Call env HandlerType) where
  step runtime call := (runtime.execute call).map Prod.fst

section Runs

variable [DecidableEq RecordType] [DecidableEq HandlerType] {runtime : Runtime env HandlerType}

/-- After any calls, in any order and with any failures, the runtime is settled. -/
theorem reachable_settled
    (reached : (lifecycleSystem env HandlerType).Reachable (fun _ _ => True) {} runtime) :
    runtime.Settled := by
  apply reached.invariant
  · exact .inl ⟨rfl, rfl, rfl, rfl, rfl, rfl, rfl, rfl⟩
  · intro before after call _ settled _ stepped
    obtain ⟨⟨after, outcome⟩, called, rfl⟩ := Option.map_eq_some_iff.mp stepped
    exact (Runtime.execute_kept settled called).settled

/-- The lifecycle is consistent after every call of every run, no cast goes
wrong, a call that throws changes nothing, and the calls that must be rejected
are. A throwing `set_am_handler` without an active phase so leaves none. -/
theorem lifecycle_consistent
    (reached : (lifecycleSystem env HandlerType).Reachable (fun _ _ => True) {} runtime) :
    runtime.Consistent ∧
      (∀ call after outcome, runtime.execute call = some (after, outcome) →
        after.Consistent ∧ outcome ≠ .badCast ∧
          ∀ message, outcome = .threw message → after = runtime) ∧
      ∀ call, runtime.Rejected call →
        ∃ message, runtime.execute call = some (runtime, .threw message) := by
  have settled := reachable_settled reached
  refine ⟨settled.consistent, ?_, fun call => Runtime.rejected_throws settled⟩
  intro call after outcome called
  have kept := Runtime.execute_kept settled called
  exact ⟨kept.settled.consistent, kept.typed, kept.undone⟩

end Runs

/-- Four-byte and eight-byte records on one rank with one device. -/
def twoRecordTypes : RuntimeEnv Bool where
  rankCount := 1
  rank := ⟨0, Nat.one_pos⟩
  deviceCount := 1
  profilingEnabled := true
  profilingWorkerCount := 1
  maxBcopySize := 4096
  carrier _ := Nat
  recordSize wide := if wide then 8 else 4

/-- A failed registration, a failed barrier, a phase with a post it rejects, a
post it takes, a clear it rejects, a flush and a clear, then a phase with the
other record type. -/
def failingCalls : List (Call twoRecordTypes Unit) :=
  [.setAmHandler false () { batchRecords := 2 } 1
      { allocHandler := true, registerRcomp := none, barrier := some [] },
    .setAmHandler false () { batchRecords := 2 } 2
      { allocHandler := true, registerRcomp := some ⟨5, by decide⟩, barrier := none },
    .setAmHandler false () { batchRecords := 2 } 3
      { allocHandler := true, registerRcomp := some ⟨6, by decide⟩, barrier := some [] },
    .postAm true 0 0 (7 : Nat) [],
    .postAm false 0 0 (7 : Nat) [(some 0, .getUpacket (some (1, fun _ => (0 : Nat))))],
    .clearAmHandler,
    .flush 0 fun _ =>
      [(some 0, .resume 0), (some 0, .resume 0), (some 0, .handlerReturn), (some 0, .resume 0),
        (some 0, .resume 0), (some 0, .resume 0)],
    .clearAmHandler,
    .setAmHandler true () { batchRecords := 2 } 4
      { allocHandler := true, registerRcomp := some ⟨7, by decide⟩, barrier := some [] }]

theorem lifecycle_consistent_failing_calls :
    ∃ runtime, (lifecycleSystem twoRecordTypes Unit).run {} failingCalls = some runtime ∧
      runtime.amRecordType = some true ∧ runtime.pendingProfiles.length = 1 ∧
      runtime.Consistent := by
  obtain ⟨runtime, executed, identity, written⟩ :
      ∃ runtime, (lifecycleSystem twoRecordTypes Unit).run {} failingCalls = some runtime ∧
        runtime.amRecordType = some true ∧ runtime.pendingProfiles.length = 1 :=
    ⟨_, rfl, rfl, rfl⟩
  have reached := TransitionSystem.any_run_reachable executed
  exact ⟨runtime, executed, identity, written, (lifecycle_consistent reached).1⟩

end IntegerSortLci.Runtime
