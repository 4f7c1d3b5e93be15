import IntegerSortLci.Runtime.SendLedger

/-!
# The profile recorder

`AmProfileRecorder` of one phase: counters for each operation in the aggregate
and for each worker. Each counter is a sum over the measured operations, so the
recorder after a log of events is read off the log. `measure` with profiling
disabled runs its function and records nothing.
-/

namespace IntegerSortLci.Runtime

open Foundations

set_option autoImplicit false

inductive ProfileOperation where
  | flush
  | progress
  | remoteReceive
  | loopbackReceive
  deriving DecidableEq, Repr

structure AmOperationProfile where
  calls : Nat := 0
  records : Nat := 0
  payloadBytes : Nat := 0
  elapsedNanoseconds : Nat := 0
  deriving DecidableEq, Repr

/-- The counters of one scope, by operation. -/
abbrev AmWorkerProfile := ProfileOperation → AmOperationProfile

/-- `record_operation`. -/
def AmOperationProfile.recordOperation (profile : AmOperationProfile)
    (records payloadBytes elapsedNanoseconds : Nat) : AmOperationProfile where
  calls := profile.calls + 1
  records := profile.records + records
  payloadBytes := profile.payloadBytes + payloadBytes
  elapsedNanoseconds := profile.elapsedNanoseconds + elapsedNanoseconds

/-- One counter of a profile, to state a fact about all of them at once. -/
inductive Counter where
  | calls
  | records
  | payloadBytes
  | elapsedNanoseconds
  deriving DecidableEq, Repr

def AmOperationProfile.count (profile : AmOperationProfile) : Counter → Nat
  | .calls => profile.calls
  | .records => profile.records
  | .payloadBytes => profile.payloadBytes
  | .elapsedNanoseconds => profile.elapsedNanoseconds

/-- What `snapshot` returns; `workers` is empty when profiling is disabled. -/
structure AmProfile (Worker : Type) where
  enabled : Bool
  phaseSequence : Nat
  name : List Byte
  aggregate : AmWorkerProfile
  workers : Worker → Option AmWorkerProfile

structure AmProfileRecorder (Worker : Type) where
  enabled : Bool
  phaseSequence : Nat
  name : List Byte
  aggregate : AmWorkerProfile := fun _ => {}
  workers : Worker → AmWorkerProfile := fun _ _ => {}

/-- The arguments of one `record` call. -/
structure Measured (Worker : Type) where
  operation : ProfileOperation
  worker : Option Worker
  records : Nat
  payloadBytes : Nat
  elapsedNanoseconds : Nat

def Measured.count {Worker : Type} (measured : Measured Worker) : Counter → Nat
  | .calls => 1
  | .records => measured.records
  | .payloadBytes => measured.payloadBytes
  | .elapsedNanoseconds => measured.elapsedNanoseconds

section Recorder

variable {Worker : Type} [DecidableEq Worker]

namespace AmProfileRecorder

def record (recorder : AmProfileRecorder Worker) (measured : Measured Worker) :
    AmProfileRecorder Worker :=
  if recorder.enabled then
    let recordIn (profile : AmWorkerProfile) : AmWorkerProfile :=
      Function.update profile measured.operation
        ((profile measured.operation).recordOperation measured.records measured.payloadBytes
          measured.elapsedNanoseconds)
    let aggregated := { recorder with aggregate := recordIn recorder.aggregate }
    match measured.worker with
    | some worker =>
        { aggregated with
          workers := Function.update recorder.workers worker (recordIn (recorder.workers worker)) }
    | none => aggregated
  else recorder

def snapshot (recorder : AmProfileRecorder Worker) : AmProfile Worker where
  enabled := recorder.enabled
  phaseSequence := recorder.phaseSequence
  name := recorder.name
  aggregate := if recorder.enabled then recorder.aggregate else fun _ => {}
  workers worker := if recorder.enabled then some (recorder.workers worker) else none

/-- The recorder a phase starts with. -/
def initial (enabled : Bool) (phaseSequence : Nat) (name : List Byte) :
    AmProfileRecorder Worker where
  enabled := enabled
  phaseSequence := phaseSequence
  name := name

end AmProfileRecorder

/-- The operation an event was measured as. -/
def Event.measured {rankCount : Nat} {Record : Type} :
    Event rankCount Worker Record → Option (Measured Worker)
  | .flushed _ worker recordCount payloadBytes elapsed =>
      some ⟨.flush, worker, recordCount, payloadBytes, elapsed⟩
  | .received loopback worker recordCount payloadBytes elapsed =>
      some ⟨if loopback then .loopbackReceive else .remoteReceive, worker, recordCount,
        payloadBytes, elapsed⟩
  | _ => none

/-- What an event adds to one aggregate counter. -/
def aggregateWeight {rankCount : Nat} {Record : Type} (operation : ProfileOperation)
    (counter : Counter) (event : Event rankCount Worker Record) : Nat :=
  match event.measured with
  | some measured => if measured.operation = operation then measured.count counter else 0
  | none => 0

/-- What an event adds to one counter of a worker. -/
def workerWeight {rankCount : Nat} {Record : Type} (worker : Worker)
    (operation : ProfileOperation) (counter : Counter) (event : Event rankCount Worker Record) :
    Nat :=
  match event.measured with
  | some measured =>
      if measured.worker = some worker ∧ measured.operation = operation then
        measured.count counter
      else 0
  | none => 0

namespace AmProfileRecorder

variable {rankCount : Nat} {Record : Type}

def absorb (recorder : AmProfileRecorder Worker) (event : Event rankCount Worker Record) :
    AmProfileRecorder Worker :=
  match event.measured with
  | some measured => recorder.record measured
  | none => recorder

theorem absorb_enabled (recorder : AmProfileRecorder Worker)
    (event : Event rankCount Worker Record) :
    (recorder.absorb event).enabled = recorder.enabled := by
  unfold absorb record
  repeat' split
  all_goals rfl

omit [DecidableEq Worker] in
private theorem count_recorded (profile : AmWorkerProfile) (measured : Measured Worker)
    (operation : ProfileOperation) (counter : Counter) :
    (Function.update profile measured.operation
      ((profile measured.operation).recordOperation measured.records measured.payloadBytes
        measured.elapsedNanoseconds) operation).count counter =
      (profile operation).count counter +
        if measured.operation = operation then measured.count counter else 0 := by
  by_cases same : measured.operation = operation
  · subst same
    rw [Function.update_self, if_pos rfl]
    cases counter <;> rfl
  · rw [Function.update_of_ne (Ne.symm same), if_neg same, Nat.add_zero]

theorem absorb_aggregate (recorder : AmProfileRecorder Worker) (enabled : recorder.enabled = true)
    (event : Event rankCount Worker Record) (operation : ProfileOperation) (counter : Counter) :
    ((recorder.absorb event).aggregate operation).count counter =
      (recorder.aggregate operation).count counter +
        aggregateWeight operation counter event := by
  unfold absorb aggregateWeight
  cases found : event.measured with
  | none => rfl
  | some measured =>
      simp only [record, enabled, if_true]
      cases measured.worker <;> exact count_recorded _ _ _ _

theorem absorb_worker (recorder : AmProfileRecorder Worker) (enabled : recorder.enabled = true)
    (event : Event rankCount Worker Record) (worker : Worker) (operation : ProfileOperation)
    (counter : Counter) :
    ((recorder.absorb event).workers worker operation).count counter =
      (recorder.workers worker operation).count counter +
        workerWeight worker operation counter event := by
  unfold absorb workerWeight
  cases found : event.measured with
  | none => rfl
  | some measured =>
      simp only [record, enabled, if_true]
      cases owner : measured.worker with
      | none => simp
      | some other =>
          by_cases same : other = worker
          · subst same
            simp only [Function.update_self, true_and]
            exact count_recorded _ _ _ _
          · simp [Function.update_of_ne (Ne.symm same), same]

end AmProfileRecorder
end Recorder
end IntegerSortLci.Runtime
