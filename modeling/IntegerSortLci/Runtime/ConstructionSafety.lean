import IntegerSortLci.Runtime.Construction

/-!
# What a process holds of LCI

Whatever the constructor has taken is in the object under construction, so the `catch`
block gives back all of it, and an exception leaves the process as it was. A process is
idle, with nothing of LCI, or it has one runtime, which owns everything that is out.
-/

namespace IntegerSortLci.Runtime

open Foundations

set_option autoImplicit false
set_option linter.dupNamespace false

variable {RecordType HandlerType : Type}

section Release

namespace Lci

variable {lci : Lci}

theorem touch_initialized (live : lci.initialized = true) : lci.touch = lci := by
  cases lci
  dsimp only at live
  subst live
  simp [touch]

theorem free_devices_all (live : lci.initialized = true) :
    lci.freeDevices lci.devices.live =
      { lci with devices := { live := [], misused := lci.devices.misused } } := by
  cases out : lci.devices.live with
  | nil =>
      cases lci with
      | mk initialized devices completions misused =>
          cases devices with
          | mk handles faulty =>
              obtain rfl : handles = [] := out
              rfl
  | cons handle rest =>
      have all : lci.devices.live.Perm (handle :: rest) := by rw [out]
      simp only [freeDevices]
      rw [touch_initialized live, HandlePool.free_all_perm all]

theorem free_comp_only {completion : Option Nat} (live : lci.initialized = true)
    (only : lci.completions.live = completion.toList) :
    lci.freeComp completion =
      { lci with completions := { live := [], misused := lci.completions.misused } } := by
  cases completion with
  | none =>
      cases lci with
      | mk initialized devices completions misused =>
          cases completions with
          | mk out faulty =>
              obtain rfl : out = [] := only
              rfl
  | some completion =>
      have all : lci.completions.live.Perm [completion] := by rw [only]; rfl
      have freed := HandlePool.free_all_perm all
      simp only [freeComp]
      rw [touch_initialized live]
      exact congrArg (fun completions => { lci with completions := completions }) freed

/-- LCI as it is before its first call and behind its last one. -/
theorem unused_eq (sound : lci.Sound) (finalized : lci.initialized = false)
    (devices : lci.devices.live = []) (completions : lci.completions.live = []) : lci = {} := by
  obtain ⟨initialized, ⟨devicesOut, devicesFault⟩, ⟨completionsOut, completionsFault⟩, misused⟩ :=
    lci
  obtain ⟨fault, deviceFault, completionFault⟩ := sound
  dsimp only at finalized devices completions fault deviceFault completionFault
  subst finalized devices completions fault deviceFault completionFault
  rfl

/-- Whoever owns all that is out can give it back and finalise. -/
theorem release_all {devices : List Nat} {completion : Option Nat} (sound : lci.Sound)
    (live : lci.initialized = true) (out : lci.devices.live = devices)
    (only : lci.completions.live = completion.toList) :
    ((lci.freeDevices devices).freeComp completion).gRuntimeFina 0 = {} := by
  subst out
  rw [free_devices_all live]
  have freed : Lci.freeComp { lci with
      devices := { live := [], misused := lci.devices.misused } } completion = _ :=
    free_comp_only live only
  rw [freed]
  obtain ⟨fault, deviceFault, completionFault⟩ := sound
  apply unused_eq
  · refine ⟨?_, deviceFault, completionFault⟩
    simp [gRuntimeFina, touch, fault, live]
  · rfl
  · rfl
  · rfl

end Lci

end Release

section Constructor

/-- The object under construction owns what LCI has given out. -/
structure UnderConstruction.Owns (object : UnderConstruction) : Prop where
  initialized : object.lci.initialized = object.lciInitialized
  devices : object.lci.devices.live = object.devices.map Device.handle
  distinct : object.lci.devices.live.Nodup
  completions : object.lci.completions.live = object.amSendCompletion.toList
  sound : object.lci.Sound
  first : object.lciInitialized = false → object.devices = [] ∧ object.amSendCompletion = none

namespace UnderConstruction

variable {options : RuntimeOptions} {answers : ConstructorAnswers} {object : UnderConstruction}
variable {address : Nat}

theorem with_device_owns (options : RuntimeOptions) (answers : ConstructorAnswers)
    (owns : object.Owns) (initialized : object.lciInitialized = true) :
    (object.withDevice options answers).Owns := by
  have live : object.lci.initialized = true := owns.initialized.trans initialized
  refine ⟨owns.initialized, ?_, object.lci.devices.alloc_nodup answers.devices owns.distinct,
    owns.completions, ⟨?_, owns.sound.2.1, owns.sound.2.2⟩, ?_⟩
  · dsimp only [withDevice, Lci.allocDevice, HandlePool.alloc]
    rw [List.map_append, owns.devices]
    rfl
  · dsimp only [withDevice, Lci.allocDevice, Lci.touch]
    rw [owns.sound.1, live]
    rfl
  · intro uninitialized
    cases initialized.symm.trans uninitialized

/-- What the loop of `allocate_devices` leaves: the devices that LCI has granted, and an
exception unless it has granted all. -/
structure DevicesAllocated (object result : UnderConstruction) (exception : Option String)
    (answers : ConstructorAnswers) (i remaining : Nat) : Prop where
  owns : result.Owns
  initialized : result.lciInitialized = true
  published : result.gRuntimeForAm = object.gRuntimeForAm
  completion : result.amSendCompletion = object.amSendCompletion
  granted : exception = none ↔ ∀ j, i ≤ j → j < i + remaining → answers.allocDevice j = true
  length : exception = none → result.devices.length = object.devices.length + remaining

theorem allocate_devices_spec (options : RuntimeOptions) (answers : ConstructorAnswers)
    (owns : object.Owns) (initialized : object.lciInitialized = true) (i remaining : Nat) :
    DevicesAllocated object (object.allocateDevices options answers i remaining).1
      (object.allocateDevices options answers i remaining).2 answers i remaining := by
  induction remaining generalizing object i with
  | zero =>
      refine ⟨owns, initialized, rfl, rfl, ?_, fun _ => rfl⟩
      exact ⟨fun _ j low high => absurd high (by omega), fun _ => rfl⟩
  | succ remaining ih =>
      unfold allocateDevices
      by_cases granted : answers.allocDevice i = true
      · rw [if_pos granted]
        have later := ih (with_device_owns options answers owns initialized) initialized (i + 1)
        refine ⟨later.owns, later.initialized, later.published, later.completion, ?_, ?_⟩
        · refine later.granted.trans ⟨?_, ?_⟩
          · intro every j low high
            rcases Nat.eq_or_lt_of_le low with rfl | above
            · exact granted
            · exact every j above (by omega)
          · intro every j low high
            exact every j (by omega) (by omega)
        · intro finished
          have one : (object.withDevice options answers).devices.length =
              object.devices.length + 1 := by
            simp [withDevice]
          have count := later.length finished
          omega
      · rw [if_neg granted]
        refine ⟨owns, initialized, rfl, rfl, ⟨nofun, ?_⟩, nofun⟩
        intro every
        exact absurd (every i (Nat.le_refl i) (by omega)) granted

/-- What the `try` block leaves: all that LCI has given out is in the object, and the object
is complete unless there is an exception. -/
structure Built (result : UnderConstruction) (exception : Option String) (address : Nat)
    (options : RuntimeOptions) (answers : ConstructorAnswers) : Prop where
  owns : result.Owns
  published : result.gRuntimeForAm = none ∨ result.gRuntimeForAm = some address
  granted : exception = none ↔ answers.Grant options.deviceCount.toNat
  complete : exception = none → result.lciInitialized = true ∧
    result.devices.length = options.deviceCount.toNat ∧
    result.gRuntimeForAm = some address ∧ result.amSendCompletion.isSome = true

theorem published_owns (answers : ConstructorAnswers) (address : Nat) (owns : object.Owns)
    (initialized : object.lciInitialized = true)
    (none : object.amSendCompletion = none) : (object.published answers address).Owns := by
  have live : object.lci.initialized = true := owns.initialized.trans initialized
  have empty : object.lci.completions.live = [] := by
    rw [owns.completions, none]
    rfl
  refine ⟨owns.initialized, owns.devices, owns.distinct, ?_,
    ⟨?_, owns.sound.2.1, owns.sound.2.2⟩, ?_⟩
  · dsimp only [published, Lci.allocCounter, HandlePool.alloc]
    rw [empty]
    rfl
  · dsimp only [published, Lci.allocCounter, Lci.touch]
    rw [owns.sound.1, live]
    rfl
  · intro uninitialized
    cases initialized.symm.trans uninitialized

/-- An object before its constructor's first LCI call. -/
structure Untouched (object : UnderConstruction) : Prop where
  lci : object.lci = {}
  published : object.gRuntimeForAm = none
  initialized : object.lciInitialized = false
  devices : object.devices = []
  completion : object.amSendCompletion = none

theorem Untouched.owns (untouched : object.Untouched) : object.Owns := by
  refine ⟨?_, ?_, ?_, ?_, ?_, fun _ => ⟨untouched.devices, untouched.completion⟩⟩
  · rw [untouched.lci, untouched.initialized]
  · rw [untouched.lci, untouched.devices]
    rfl
  · rw [untouched.lci]
    exact List.nodup_nil
  · rw [untouched.lci, untouched.completion]
    rfl
  · rw [untouched.lci]
    exact ⟨rfl, rfl, rfl⟩

theorem Untouched.with_lci (untouched : object.Untouched) : object.withLci.Owns := by
  have owns := untouched.owns
  refine ⟨rfl, owns.devices, owns.distinct, owns.completions,
    ⟨?_, owns.sound.2.1, owns.sound.2.2⟩, nofun⟩
  dsimp only [withLci, Lci.gRuntimeInit]
  rw [untouched.lci]
  rfl

theorem build_spec (untouched : object.Untouched) (address : Nat) (options : RuntimeOptions)
    (answers : ConstructorAnswers) :
    Built (object.build options answers address).1 (object.build options answers address).2 address
      options answers := by
  unfold build
  by_cases init : answers.gRuntimeInit = true
  · rw [if_pos init]
    have spec := allocate_devices_spec options answers untouched.with_lci rfl 0
      options.deviceCount.toNat
    have unpublished : object.withLci.gRuntimeForAm = none := untouched.published
    have noCompletion : object.withLci.amSendCompletion = none := untouched.completion
    have noDevice : object.withLci.devices = [] := untouched.devices
    generalize object.withLci.allocateDevices options answers 0 options.deviceCount.toNat = result
      at spec
    obtain ⟨allocated, exception⟩ := result
    have earlier : allocated.gRuntimeForAm = none := spec.published.trans unpublished
    cases exception with
    | some message =>
        refine ⟨spec.owns, .inl earlier, ⟨nofun, ?_⟩, nofun⟩
        intro grant
        exact absurd (spec.granted.mpr fun j _ high => grant.2.1 j (by omega)) nofun
    | none =>
        have every := spec.granted.mp rfl
        dsimp only
        by_cases counter : answers.allocCounter = true
        · rw [if_pos counter]
          have owns := published_owns answers address spec.owns spec.initialized
            (spec.completion.trans noCompletion)
          by_cases barrier : answers.barrier = true
          · rw [if_pos barrier]
            refine ⟨owns, .inr rfl, ⟨fun _ => ?_, fun _ => rfl⟩, fun _ => ?_⟩
            · exact ⟨init, fun i inside => every i (Nat.zero_le i) (by omega), counter, barrier⟩
            · refine ⟨spec.initialized, ?_, rfl, rfl⟩
              have count := spec.length rfl
              rw [noDevice] at count
              dsimp only [published]
              simpa using count
          · rw [if_neg barrier]
            exact ⟨owns, .inr rfl, ⟨nofun, fun grant => absurd grant.2.2.2 barrier⟩, nofun⟩
        · rw [if_neg counter]
          exact ⟨spec.owns, .inl earlier, ⟨nofun, fun grant => absurd grant.2.2.1 counter⟩, nofun⟩
  · rw [if_neg init]
    exact ⟨untouched.owns, .inl untouched.published,
      ⟨nofun, fun grant => absurd grant.1 init⟩, nofun⟩

/-- The `catch` block gives back all that the object has. -/
theorem unwind_spec (owns : object.Owns)
    (published : object.gRuntimeForAm = none ∨ object.gRuntimeForAm = some address) :
    (object.unwind address).lci = {} ∧ (object.unwind address).gRuntimeForAm = none := by
  constructor
  · unfold unwind
    dsimp only
    by_cases initialized : object.lciInitialized = true
    · rw [if_pos initialized]
      exact Lci.release_all owns.sound (owns.initialized.trans initialized) owns.devices
        owns.completions
    · have uninitialized : object.lciInitialized = false := Bool.eq_false_iff.mpr initialized
      obtain ⟨noDevice, noCompletion⟩ := owns.first uninitialized
      rw [if_neg initialized, noDevice, noCompletion]
      apply Lci.unused_eq owns.sound (owns.initialized.trans uninitialized)
      · exact owns.devices.trans (by rw [noDevice]; rfl)
      · exact owns.completions.trans (by rw [noCompletion]; rfl)
  · unfold unwind
    dsimp only
    rcases published with same | same
    · rw [same]
      rfl
    · rw [same, if_pos rfl]

end UnderConstruction

end Constructor

section Processes

variable {table : RecordTable RecordType} {process : Process RecordType HandlerType}
variable {address : Nat} {object : RuntimeObject RecordType HandlerType}

namespace Process

/-- No runtime, and nothing of LCI. -/
structure Idle (process : Process RecordType HandlerType) : Prop where
  lci : process.lci = {}
  published : process.gRuntimeForAm = none
  objects : ∀ other, process.objects other = none

/-- The runtime at `address`, which has all that is out. -/
structure Runs (process : Process RecordType HandlerType) (address : Nat)
    (object : RuntimeObject RecordType HandlerType) : Prop where
  stored : process.objects address = some object
  only : ∀ other, other ≠ address → process.objects other = none
  published : process.gRuntimeForAm = some address
  initialized : process.lci.initialized = true
  devices : process.lci.devices.live = object.devices.map Device.handle
  distinct : process.lci.devices.live.Nodup
  served : object.env.deviceCount = object.devices.length ∧ 0 < object.devices.length
  completions : process.lci.completions.live = object.amSendCompletion.toList
  completion : object.amSendCompletion.isSome = true
  sound : process.lci.Sound
  settled : object.runtime.Settled

/-- What holds between the actions of the application. -/
def Owned (process : Process RecordType HandlerType) : Prop :=
  process.Idle ∨ ∃ address object, process.Runs address object

/-- The constructor succeeds on an idle process when its options are valid and LCI refuses
nothing. Otherwise it throws, and leaves the process as it was. -/
theorem construct_idle (idle : process.Idle) (address : Nat) (options : RuntimeOptions)
    (answers : ConstructorAnswers) :
    (options.invalid = none ∧ answers.Grant options.deviceCount.toNat ∧
      (process.construct table address options answers).2 = .returned 0 ∧
      ∃ object, (process.construct table address options answers).1.Runs address object) ∨
    (¬ (options.invalid = none ∧ answers.Grant options.deviceCount.toNat) ∧
      (process.construct table address options answers).1 = process ∧
      ∃ message, (process.construct table address options answers).2 = .threw message) := by
  unfold construct
  cases valid : options.invalid with
  | some message => exact .inr ⟨fun both => absurd both.1 nofun, rfl, message, rfl⟩
  | none =>
      dsimp only
      rw [idle.published, if_neg (by simp)]
      have untouched : ({ lci := process.lci, gRuntimeForAm := none } :
          UnderConstruction).Untouched := ⟨idle.lci, rfl, rfl, rfl, rfl⟩
      have spec := UnderConstruction.build_spec untouched address options answers
      generalize ({ lci := process.lci, gRuntimeForAm := none } : UnderConstruction).build options
        answers address = result at spec
      obtain ⟨built, exception⟩ := result
      cases exception with
      | none =>
          obtain ⟨initialized, length, published, completion⟩ := spec.complete rfl
          refine .inl ⟨rfl, spec.granted.mp rfl, rfl, built.finished table options answers, ?_⟩
          have positive : 0 < options.deviceCount.toNat := by
            unfold RuntimeOptions.invalid at valid
            split at valid
            · cases valid
            · omega
          have owns := spec.owns
          refine ⟨Function.update_self _ _ _, ?_, published, owns.initialized.trans initialized,
            owns.devices, owns.distinct, ⟨rfl, ?_⟩, owns.completions, completion, owns.sound,
            .inl ⟨rfl, rfl, rfl, rfl, rfl, rfl, rfl, rfl⟩⟩
          · intro other elsewhere
            exact (Function.update_of_ne elsewhere _ _).trans (idle.objects other)
          · exact length ▸ positive
      | some message =>
          obtain ⟨lci, published⟩ := UnderConstruction.unwind_spec spec.owns spec.published
          refine .inr ⟨fun both => absurd (spec.granted.mpr both.2) nofun, ?_, message, rfl⟩
          dsimp only
          rw [lci, published, ← idle.lci, ← idle.published]

/-- While a runtime lives no other one is constructed. -/
theorem construct_running (runs : process.Runs address object) (other : Nat)
    (options : RuntimeOptions) (answers : ConstructorAnswers) :
    (process.construct table other options answers).1 = process ∧
      ∃ message, (process.construct table other options answers).2 = .threw message := by
  unfold construct
  cases options.invalid with
  | some message => exact ⟨rfl, message, rfl⟩
  | none =>
      dsimp only
      have taken : (some address).isSome = true := rfl
      rw [runs.published, if_pos taken]
      exact ⟨rfl, _, rfl⟩

/-- The destructor gives back all that the object has. -/
theorem tear_down_idle (runs : process.Runs address object)
    {ended : RuntimeObject RecordType HandlerType} (devices : ended.devices = object.devices)
    (completion : ended.amSendCompletion = object.amSendCompletion)
    (released : ended.runtime.releaseAmTransport.liveHandlers +
      ended.runtime.releaseAmTransport.liveRcomps = 0) : (process.tearDown address ended).Idle := by
  refine ⟨?_, rfl, ?_⟩
  · unfold tearDown
    dsimp only
    rw [released, devices, completion]
    exact Lci.release_all runs.sound runs.initialized runs.devices runs.completions
  · intro other
    unfold tearDown
    dsimp only
    by_cases mine : other = address
    · subst mine
      exact Function.update_self _ _ _
    · rw [Function.update_of_ne mine]
      exact runs.only other mine

/-- The end of the phase that the destructor finds. -/
theorem destroy_cases (runs : process.Runs address object) :
    (process.destroy address object).Idle ∨
      process.destroy address object = { process with terminated := true } := by
  unfold destroy
  rcases runs.settled with vacant | ⟨state, occupied⟩
  · rw [vacant.stored]
    refine .inl (tear_down_idle runs rfl rfl ?_)
    have handler := vacant.handler
    have rcomp := vacant.rcomp
    simp [Runtime.releaseAmTransport, Runtime.deregisterRcomp, Runtime.freeHandler, handler, rcomp,
      vacant.handlers, vacant.rcomps]
  · rw [occupied.stored]
    dsimp only
    by_cases buffered : state.hasBufferedRecords = true
    · rw [if_pos buffered]
      exact .inr rfl
    · rw [if_neg buffered]
      refine .inl (tear_down_idle runs ?_ ?_ ?_)
      · rfl
      · rfl
      have finalized : (object.runtime.finalizeProfile state).Occupied state := by
        unfold Runtime.finalizeProfile
        split
        · exact { occupied with }
        · exact occupied
      have handler := finalized.handler
      have rcomp := finalized.rcomp
      simp [Runtime.releaseAmTransport, Runtime.deregisterRcomp, Runtime.freeHandler,
        Runtime.resetAmState, Runtime.clearAmDispatch, handler, rcomp, finalized.handlers,
        finalized.rcomps]

/-- A call on the runtime. -/
theorem Runs.call (runs : process.Runs address object) {runtime : Runtime object.env HandlerType}
    (settled : runtime.Settled) :
    ({ process with
        objects := Function.update process.objects address
          (some { object with runtime := runtime }) } :
      Process RecordType HandlerType).Runs address { object with runtime := runtime } where
  stored := Function.update_self _ _ _
  only other elsewhere := (Function.update_of_ne elsewhere _ _).trans (runs.only other elsewhere)
  published := runs.published
  initialized := runs.initialized
  devices := runs.devices
  distinct := runs.distinct
  served := runs.served
  completions := runs.completions
  completion := runs.completion
  sound := runs.sound
  settled := settled

/-- `std::terminate` gives nothing back. -/
theorem Owned.terminate (owned : process.Owned) :
    ({ process with terminated := true } : Process RecordType HandlerType).Owned := by
  rcases owned with idle | ⟨address, object, runs⟩
  · exact .inl ⟨idle.lci, idle.published, idle.objects⟩
  · exact .inr ⟨address, object, { runs with }⟩

/-- The object that an action is about is the one runtime. -/
theorem Runs.found (runs : process.Runs address object) {other : Nat}
    {found : RuntimeObject RecordType HandlerType} (stored : process.objects other = some found) :
    other = address ∧ found = object := by
  by_cases same : other = address
  · subst same
    exact ⟨rfl, Option.some.inj (stored.symm.trans runs.stored)⟩
  · cases stored.symm.trans (runs.only other same)

variable [DecidableEq RecordType] [DecidableEq HandlerType]

theorem step_owned {action : ProcessAction RecordType HandlerType}
    {process' : Process RecordType HandlerType} (owned : process.Owned)
    (stepped : process.step table action = some process') : process'.Owned := by
  cases action with
  | construct address options answers =>
      simp only [step] at stepped
      split at stepped
      case isFalse => cases stepped
      case isTrue =>
        obtain rfl := Option.some.inj stepped
        rcases owned with idle | ⟨other, object, runs⟩
        · rcases construct_idle idle address options answers with
            ⟨-, -, -, object, runs⟩ | ⟨-, same, -⟩
          · exact .inr ⟨address, object, runs⟩
          · rw [same]
            exact .inl idle
        · rw [(construct_running runs address options answers).1]
          exact .inr ⟨other, object, runs⟩
  | call address request =>
      simp only [step] at stepped
      split at stepped
      case isFalse => cases stepped
      case isTrue =>
        obtain ⟨found, stored, called⟩ := Option.bind_eq_some_iff.mp stepped
        obtain ⟨⟨runtime, outcome⟩, executed, rfl⟩ := Option.map_eq_some_iff.mp called
        rcases owned with idle | ⟨other, object, runs⟩
        · cases stored.symm.trans (idle.objects address)
        · obtain ⟨rfl, rfl⟩ := runs.found stored
          exact .inr ⟨address, _, runs.call (Runtime.execute_kept runs.settled executed).settled⟩
  | destroy address =>
      simp only [step] at stepped
      split at stepped
      case isFalse => cases stepped
      case isTrue =>
        obtain ⟨found, stored, rfl⟩ := Option.map_eq_some_iff.mp stepped
        rcases owned with idle | ⟨other, object, runs⟩
        · cases stored.symm.trans (idle.objects address)
        · obtain ⟨rfl, rfl⟩ := runs.found stored
          rcases destroy_cases runs with idle | same
          · exact .inl idle
          · rw [same]
            exact Owned.terminate (.inr ⟨address, found, runs⟩)

theorem reachable_owned
    (reached : (processSystem table HandlerType).Reachable (fun _ _ => True) {} process) :
    process.Owned := by
  apply reached.invariant
  · exact .inl ⟨rfl, rfl, fun _ => rfl⟩
  · intro before after action _ owned _ stepped
    exact step_owned owned stepped

/-- The runtimes of a process and LCI fit together: at most one lives and is the one that
incoming messages find, with its phase; it has all that is out of LCI, in devices that are
all different; and when none lives LCI is as it was before the first one. -/
structure Balanced (process : Process RecordType HandlerType) : Prop where
  sound : process.lci.Sound
  published : ∀ address, process.gRuntimeForAm = some address ↔
    (process.objects address).isSome = true
  received : ∀ address object, process.objects address = some object →
    object.runtime.amRcomp ≠ 0 → object.runtime.amState.isSome = true
  devices : ∀ address object, process.objects address = some object →
    process.lci.devices.live = object.devices.map Device.handle ∧
      (object.devices.map Device.handle).Nodup ∧ 0 < object.env.deviceCount
  completions : ∀ address object, process.objects address = some object →
    process.lci.completions.live = object.amSendCompletion.toList
  unused : process.gRuntimeForAm = none → process.lci = {}

omit [DecidableEq RecordType] [DecidableEq HandlerType] in
theorem Owned.balanced (owned : process.Owned) : process.Balanced := by
  rcases owned with idle | ⟨address, object, runs⟩
  · constructor
    · rw [idle.lci]
      exact ⟨rfl, rfl, rfl⟩
    · intro other
      rw [idle.published, idle.objects other]
      exact ⟨nofun, nofun⟩
    · intro other found stored
      cases stored.symm.trans (idle.objects other)
    · intro other found stored
      cases stored.symm.trans (idle.objects other)
    · intro other found stored
      cases stored.symm.trans (idle.objects other)
    · exact fun _ => idle.lci
  · constructor
    · exact runs.sound
    · intro other
      constructor
      · intro same
        obtain rfl : address = other := Option.some.inj (runs.published.symm.trans same)
        rw [runs.stored]
        rfl
      · intro present
        obtain ⟨found, stored⟩ := Option.isSome_iff_exists.mp present
        rw [(runs.found stored).1]
        exact runs.published
    · intro other found stored registered
      obtain ⟨rfl, rfl⟩ := runs.found stored
      exact runs.settled.consistent.rcomp.mpr registered
    · intro other found stored
      obtain ⟨rfl, rfl⟩ := runs.found stored
      refine ⟨runs.devices, runs.devices ▸ runs.distinct, ?_⟩
      rw [runs.served.1]
      exact runs.served.2
    · intro other found stored
      obtain ⟨rfl, rfl⟩ := runs.found stored
      exact runs.completions
    · intro none
      cases runs.published.symm.trans none

/-- However a process constructs, uses and destroys its runtimes and whatever LCI refuses
meanwhile, it misuses nothing of LCI and leaks nothing. A constructor succeeds exactly when no
runtime lives, its options are valid and LCI refuses nothing. Otherwise it throws a message and
leaves the process as it was. -/
theorem runtimes_balanced
    (reached : (processSystem table HandlerType).Reachable (fun _ _ => True) {} process) :
    process.Balanced ∧
      ∀ address options answers,
        ((process.construct table address options answers).2 = .returned 0 ↔
          process.gRuntimeForAm = none ∧ options.invalid = none ∧
            answers.Grant options.deviceCount.toNat) ∧
        ((process.construct table address options answers).2 ≠ .returned 0 →
          (∃ message, (process.construct table address options answers).2 = .threw message) ∧
            (process.construct table address options answers).1 = process) := by
  have owned := reachable_owned reached
  refine ⟨owned.balanced, ?_⟩
  intro address options answers
  rcases owned with idle | ⟨other, object, runs⟩
  · rcases construct_idle idle address options answers with
      ⟨valid, grant, returned, -⟩ | ⟨refused, same, message, threw⟩
    · exact ⟨⟨fun _ => ⟨idle.published, valid, grant⟩, fun _ => returned⟩,
        fun thrown => absurd returned thrown⟩
    · refine ⟨⟨?_, fun possible => absurd possible.2 refused⟩, fun _ => ⟨⟨message, threw⟩, same⟩⟩
      intro returned
      cases threw.symm.trans returned
  · obtain ⟨same, message, threw⟩ := construct_running runs address options answers
    refine ⟨⟨?_, ?_⟩, fun _ => ⟨⟨message, threw⟩, same⟩⟩
    · intro returned
      cases threw.symm.trans returned
    · rintro ⟨vacant, -, -⟩
      cases runs.published.symm.trans vacant

end Process

end Processes

section Example

private def oneRecordType : RecordTable Unit where
  maxBcopySize := 4096
  carrier _ := Nat
  recordSize _ := 8

/-- LCI grants `devices` devices. -/
private def granted (devices : Nat) : ConstructorAnswers where
  gRuntimeInit := true
  rankCount := 1
  rank := 0
  npackets := 8192
  allocDevice i := decide (i < devices)
  allocCounter := true
  barrier := true
  devices := .above
  completions := .above

/-- A construction that runs out of devices, one that does not, a second one beside it, a
phase that the destructor ends, and a construction at the other address. -/
private def constructions : List (ProcessAction Unit Unit) :=
  [.construct 0 { deviceCount := 3 } (granted 2), .construct 0 { deviceCount := 3 } (granted 3),
    .construct 1 {} (granted 1),
    .call 0 fun _ => .setAmHandler () () { batchRecords := 2 } 1
      { allocHandler := true, registerRcomp := some ⟨5, Nat.succ_ne_zero 4⟩, barrier := some [] },
    .destroy 0, .construct 1 {} (granted 1)]

theorem runtimes_balanced_out_of_devices :
    ∃ process, (processSystem oneRecordType Unit).run {} constructions = some process ∧
      process.gRuntimeForAm = some 1 ∧ process.lci.devices.live = [0] ∧ process.Balanced := by
  obtain ⟨process, executed, published, devices⟩ :
      ∃ process, (processSystem oneRecordType Unit).run {} constructions = some process ∧
        process.gRuntimeForAm = some 1 ∧ process.lci.devices.live = [0] := ⟨_, rfl, rfl, rfl⟩
  have reached := TransitionSystem.any_run_reachable executed
  exact ⟨process, executed, published, devices, (Process.runtimes_balanced reached).1⟩

end Example

end IntegerSortLci.Runtime
