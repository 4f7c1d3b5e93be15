import IntegerSortLci.Foundations.HandlePool
import IntegerSortLci.Runtime.LifecycleSafety
import IntegerSortLci.Runtime.ProfileWriter
import Mathlib.Logic.Function.Basic

/-!
# Construction and destruction of runtimes

A process with its `Runtime` objects, and what it holds of LCI. Every LCI call of the
constructor may throw, and then its `catch` block gives back what the constructor has
taken so far. LCI remembers a misuse: a device or completion that is given back and not
out, one that is taken before LCI is initialised, and a finalisation that leaves
something behind. The calls that give something back (`free_device`, `free_comp`,
`g_runtime_fina`) are taken not to throw.

Between construction and destruction an object makes the calls of the lifecycle. The
destructor's call of `write_profiles` is left to the profile writer; it touches no LCI
object.
-/

namespace IntegerSortLci.Runtime

open Foundations

set_option autoImplicit false
set_option linter.dupNamespace false

/-- What a process has of LCI. Handlers and remote completions are counted in the runtime
that registers them. -/
structure Lci where
  initialized : Bool := false
  devices : HandlePool := {}
  completions : HandlePool := {}
  misused : Bool := false
  deriving DecidableEq

namespace Lci

variable (lci : Lci)

/-- A call that LCI must be initialised for. -/
def touch : Lci := { lci with misused := lci.misused || !lci.initialized }

def gRuntimeInit : Lci :=
  { lci with initialized := true, misused := lci.misused || lci.initialized }

def allocDevice (source : HandleSource) : Nat × Lci :=
  (source.next lci.devices.live, { lci.touch with devices := lci.devices.alloc source })

/-- `free_device` on each of the devices. -/
def freeDevices : List Nat → Lci
  | [] => lci
  | devices => { lci.touch with devices := lci.devices.freeAll devices }

def allocCounter (source : HandleSource) : Nat × Lci :=
  (source.next lci.completions.live,
    { lci.touch with completions := lci.completions.alloc source })

/-- `free_comp`, where there is a completion. -/
def freeComp : Option Nat → Lci
  | some completion => { lci.touch with completions := lci.completions.free completion }
  | none => lci

/-- `g_runtime_fina`, with the handlers and remote completions that are still registered. -/
def gRuntimeFina (registered : Nat) : Lci :=
  { lci.touch with
    initialized := false
    misused := lci.touch.misused || !lci.devices.live.isEmpty || !lci.completions.live.isEmpty ||
      registered != 0 }

/-- Nothing has been misused. -/
def Sound : Prop :=
  lci.misused = false ∧ lci.devices.misused = false ∧ lci.completions.misused = false

end Lci

structure ProfilingOptions where
  enabled : Bool := false
  workerCount : Nat := 1
  outputDirectory : List Byte := []
  filePrefix : List Byte := ascii "lci-irregular-profile"

structure RuntimeOptions where
  deviceCount : Int := 1
  maxSendsPerDevice : Nat := 0
  maxRecvsPerDevice : Nat := 0
  profiling : ProfilingOptions := {}

/-- What LCI answers to the constructor; `false` is an exception. -/
structure ConstructorAnswers where
  gRuntimeInit : Bool
  rankCount : Nat
  rank : Fin rankCount
  npackets : Nat
  /-- The answer for each device in turn. -/
  allocDevice : Nat → Bool
  allocCounter : Bool
  barrier : Bool
  /-- The devices and the completions that are granted. -/
  devices : HandleSource
  completions : HandleSource

/-- LCI refuses nothing. -/
def ConstructorAnswers.Grant (answers : ConstructorAnswers) (deviceCount : Nat) : Prop :=
  answers.gRuntimeInit = true ∧ (∀ i < deviceCount, answers.allocDevice i = true) ∧
    answers.allocCounter = true ∧ answers.barrier = true

/-- The attributes that a device is allocated with. -/
structure Device where
  handle : Nat
  netMaxSends : Nat
  netMaxRecvs : Nat
  deriving DecidableEq

/-- An object whose constructor is running. Its transport is not registered yet. -/
structure UnderConstruction where
  lci : Lci
  gRuntimeForAm : Option Nat
  lciInitialized : Bool := false
  devices : List Device := []
  amSendCompletion : Option Nat := none

/-- The record types of a program, and the size of LCI's packets. -/
structure RecordTable (RecordType : Type) where
  maxBcopySize : Nat
  carrier : RecordType → Type
  recordSize : RecordType → Nat

variable {RecordType HandlerType : Type}

/-- What the environment of an object's lifecycle is. -/
def RuntimeOptions.env (options : RuntimeOptions) (table : RecordTable RecordType)
    (answers : ConstructorAnswers) (deviceCount : Nat) : RuntimeEnv RecordType where
  rankCount := answers.rankCount
  rank := answers.rank
  deviceCount := deviceCount
  profilingEnabled := options.profiling.enabled
  profilingWorkerCount := options.profiling.workerCount
  maxBcopySize := table.maxBcopySize
  carrier := table.carrier
  recordSize := table.recordSize

/-- A `Runtime` object behind its constructor. -/
structure RuntimeObject (RecordType HandlerType : Type) where
  env : RuntimeEnv RecordType
  devices : List Device
  amSendCompletion : Option Nat
  runtime : Runtime env HandlerType

/-- `objects` are the live runtimes by address. -/
structure Process (RecordType HandlerType : Type) where
  lci : Lci := {}
  gRuntimeForAm : Option Nat := none
  objects : Nat → Option (RuntimeObject RecordType HandlerType) := fun _ => none
  /-- `std::terminate` was called. -/
  terminated : Bool := false

/-- What the constructor checks of its options, in this order. -/
def RuntimeOptions.invalid (options : RuntimeOptions) : Option String :=
  if options.deviceCount ≤ 0 then some "LCI irregular device_count must be positive"
  else if options.profiling.enabled ∧ options.profiling.workerCount = 0 then
    some "profiling worker_count must be positive"
  else if options.profiling.filePrefix.isEmpty ∨ 47 ∈ options.profiling.filePrefix ∨
      92 ∈ options.profiling.filePrefix then
    some "profiling file_prefix must be a file-name prefix"
  else none

def RuntimeOptions.netMaxRecvs (options : RuntimeOptions) (npackets : Nat) : Nat :=
  if options.maxRecvsPerDevice = 0 then min (npackets / 8 / options.deviceCount.toNat) 4096
  else options.maxRecvsPerDevice

def RuntimeOptions.netMaxSends (options : RuntimeOptions) (npackets rankCount : Nat) : Nat :=
  if options.maxSendsPerDevice = 0 then
    max (min (npackets / 4 / rankCount / options.deviceCount.toNat) 64) 4
  else options.maxSendsPerDevice

namespace UnderConstruction

variable (options : RuntimeOptions) (answers : ConstructorAnswers)

/-- `devices_.push_back` of a new device. -/
def withDevice (object : UnderConstruction) : UnderConstruction :=
  { object with
    lci := (object.lci.allocDevice answers.devices).2
    devices := object.devices ++
      [{ handle := (object.lci.allocDevice answers.devices).1
         netMaxSends := options.netMaxSends answers.npackets answers.rankCount
         netMaxRecvs := options.netMaxRecvs answers.npackets }] }

/-- The loop of `allocate_devices` from device `i` on, for `remaining` devices. The second
component is the exception. -/
def allocateDevices (object : UnderConstruction) (i : Nat) :
    Nat → UnderConstruction × Option String
  | 0 => (object, none)
  | remaining + 1 =>
      if answers.allocDevice i then
        (object.withDevice options answers).allocateDevices (i + 1) remaining
      else (object, some "LCI alloc_device failed")

/-- Behind `g_runtime_init`. -/
def withLci (object : UnderConstruction) : UnderConstruction :=
  { object with lci := object.lci.gRuntimeInit, lciInitialized := true }

/-- Behind `alloc_counter` and the store to `g_runtime_for_am`. -/
def published (object : UnderConstruction) (address : Nat) : UnderConstruction :=
  { object with
    lci := (object.lci.allocCounter answers.completions).2
    gRuntimeForAm := some address
    amSendCompletion := some (object.lci.allocCounter answers.completions).1 }

/-- The `try` block of the constructor. -/
def build (object : UnderConstruction) (address : Nat) : UnderConstruction × Option String :=
  if answers.gRuntimeInit then
    match object.withLci.allocateDevices options answers 0 options.deviceCount.toNat with
    | (allocated, some message) => (allocated, some message)
    | (allocated, none) =>
        if answers.allocCounter then
          if answers.barrier then (allocated.published answers address, none)
          else (allocated.published answers address, some "LCI barrier failed")
        else (allocated, some "LCI alloc_counter failed")
  else (object, some "LCI g_runtime_init failed")

/-- The `catch` block of the constructor. -/
def unwind (object : UnderConstruction) (address : Nat) : UnderConstruction :=
  let freed := object.lci.freeDevices (object.devices.map Device.handle)
  let emptied := freed.freeComp object.amSendCompletion
  { object with
    lci := if object.lciInitialized then emptied.gRuntimeFina 0 else emptied
    gRuntimeForAm := if object.gRuntimeForAm = some address then none else object.gRuntimeForAm
    devices := []
    amSendCompletion := none }

end UnderConstruction

/-- The object that the constructor leaves. -/
def UnderConstruction.finished (built : UnderConstruction) (table : RecordTable RecordType)
    (options : RuntimeOptions) (answers : ConstructorAnswers) :
    RuntimeObject RecordType HandlerType where
  env := options.env table answers built.devices.length
  devices := built.devices
  amSendCompletion := built.amSendCompletion
  runtime := {}

namespace Process

/-- `Runtime::Runtime` for the object at address `address`. -/
def construct (process : Process RecordType HandlerType) (table : RecordTable RecordType)
    (address : Nat) (options : RuntimeOptions) (answers : ConstructorAnswers) :
    Process RecordType HandlerType × Outcome :=
  match options.invalid with
  | some message => (process, .threw message)
  | none =>
      if process.gRuntimeForAm.isSome then
        (process, .threw "Runtime supports only one live instance per process")
      else
        let object : UnderConstruction :=
          { lci := process.lci, gRuntimeForAm := process.gRuntimeForAm }
        match object.build options answers address with
        | (built, none) =>
            ({ process with
                lci := built.lci
                gRuntimeForAm := built.gRuntimeForAm
                objects := Function.update process.objects address
                  (some (built.finished table options answers)) }, .returned 0)
        | (failed, some message) =>
            let unwound := failed.unwind address
            ({ process with lci := unwound.lci, gRuntimeForAm := unwound.gRuntimeForAm },
              .threw message)

/-- The destructor behind the end of the phase. -/
def tearDown (process : Process RecordType HandlerType) (address : Nat)
    (object : RuntimeObject RecordType HandlerType) : Process RecordType HandlerType :=
  let released := object.runtime.releaseAmTransport
  let freed := process.lci.freeDevices (object.devices.map Device.handle)
  let emptied := freed.freeComp object.amSendCompletion
  { process with
    lci := emptied.gRuntimeFina (released.liveHandlers + released.liveRcomps)
    gRuntimeForAm := none
    objects := Function.update process.objects address none }

/-- `Runtime::~Runtime`. -/
def destroy (process : Process RecordType HandlerType) (address : Nat)
    (object : RuntimeObject RecordType HandlerType) : Process RecordType HandlerType :=
  match object.runtime.amState with
  | none => process.tearDown address object
  | some state =>
      if state.hasBufferedRecords then { process with terminated := true }
      else
        process.tearDown address
          { object with
            runtime := (object.runtime.finalizeProfile state).releaseAmTransport.resetAmState
              |>.clearAmDispatch }

end Process

/-- What the application does with its runtimes. The objects of C++ are constructed where
there is none and used and destroyed while they live. -/
inductive ProcessAction (RecordType HandlerType : Type) where
  | construct (address : Nat) (options : RuntimeOptions) (answers : ConstructorAnswers)
  | call (address : Nat) (request : (env : RuntimeEnv RecordType) → Call env HandlerType)
  | destroy (address : Nat)

namespace Process

variable [DecidableEq RecordType] [DecidableEq HandlerType]

def step (table : RecordTable RecordType) (process : Process RecordType HandlerType) :
    ProcessAction RecordType HandlerType → Option (Process RecordType HandlerType)
  | .construct address options answers =>
      if process.terminated = false ∧ (process.objects address).isNone then
        some (process.construct table address options answers).1
      else none
  | .call address request =>
      if process.terminated = false then
        (process.objects address).bind fun object =>
          (object.runtime.execute (request object.env)).map fun (runtime, _) =>
            { process with
              objects := Function.update process.objects address
                (some { object with runtime := runtime }) }
      else none
  | .destroy address =>
      if process.terminated = false then
        (process.objects address).map fun object => process.destroy address object
      else none

end Process

/-- A process and its runtimes, one after the other. -/
def processSystem [DecidableEq RecordType] (table : RecordTable RecordType) (HandlerType : Type)
    [DecidableEq HandlerType] :
    TransitionSystem (Process RecordType HandlerType) (ProcessAction RecordType HandlerType) where
  step := Process.step table

end IntegerSortLci.Runtime
