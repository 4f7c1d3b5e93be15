import IntegerSortLci.Foundations.RoundRobin
import IntegerSortLci.Runtime.Construction

/-!
# Options from the environment

What the benchmark reads from its environment, and the runtime that it asks for: as many
devices as its OpenMP threads fill with `NUM_THREADS_PER_DEVICE` threads each. A thread
posts on and progresses the device that is its index modulo the number of devices, so a
device without a thread would keep its messages.
-/

namespace IntegerSortLci.Benchmark

open IntegerSortLci.Runtime IntegerSortLci.Foundations

set_option autoImplicit false

/-- `getenv`. -/
abbrev Environment := String → Option String

def isOn (value : String) : Bool :=
  value = "on" ∨ value = "ON" ∨ value = "yes" ∨ value = "YES" ∨ value = "true" ∨ value = "TRUE"

def isOff (value : String) : Bool :=
  value = "off" ∨ value = "OFF" ∨ value = "no" ∨ value = "NO" ∨ value = "false" ∨
    value = "FALSE" ∨ value = "0"

/-- The first character is a digit from 1 to 9. -/
def startsPositive (value : String) : Bool :=
  value.toList.head?.any fun first => decide ('1' ≤ first) && decide (first ≤ '9')

/-- `read_bool_env_flag` on the value of its variable. -/
def readBoolEnvFlag (ev : Option String) (defaultValue : Nat) : Nat :=
  match ev with
  | none => defaultValue
  | some value =>
      if value = "" then 1
      else if startsPositive value then 1
      else if isOn value then 1
      else if isOff value then 0
      else defaultValue

def readUseUpacketFlag (getenv : Environment) : Nat := readBoolEnvFlag (getenv "USE_UPACKET") 1

def readLoopbackFlag (getenv : Environment) : Nat := readBoolEnvFlag (getenv "LOOPBACK") 1

/-- `am_exchange_options` on the flags that rank 0 has broadcast. -/
def amExchangeOptions (useUpacket useLoopback currentIteration : Nat) : AmOptions where
  useUpacket := decide (useUpacket = 1)
  useLoopback := decide (useLoopback = 1)
  batchRecords := 0
  profileName := ascii "key-redistribution-iteration-" ++ decimal currentIteration

/-- `read_threads_per_device_option` with its correction; `atoi` may answer any number. -/
def threadsPerDevice (atoi : String → Int) (getenv : Environment) : Int :=
  let read :=
    match getenv "NUM_THREADS_PER_DEVICE" with
    | none => 1
    | some value => atoi value
  if read ≤ 0 then 1 else read

def readEnvOrDefault (getenv : Environment) (name defaultValue : String) : String :=
  match getenv name with
  | none => defaultValue
  | some value => if value = "" then defaultValue else value

/-- `read_lci_runtime_options`, in a build with `IS_LCI_ENABLE_TIMERS` or without.
`threads` is what `benchmark_thread_count` answers. -/
def readLciRuntimeOptions (enableTimers : Bool) (atoi : String → Int) (getenv : Environment)
    (threads : Nat) : RuntimeOptions where
  deviceCount := max 1 ((threads : Int).tdiv (threadsPerDevice atoi getenv))
  profiling :=
    if enableTimers then
      { enabled := true
        workerCount := threads
        outputDirectory := ascii (readEnvOrDefault getenv "LCI_IRREGULAR_PROFILE_DIR" "profiles")
        filePrefix := ascii "npb-is-lci" }
    else {}

variable {atoi : String → Int} {getenv : Environment} {threads : Nat} {enableTimers : Bool}

/-- A flag that is on by default is off for the words that say so, and for nothing else. -/
theorem flag_off_iff (ev : Option String) :
    readBoolEnvFlag ev 1 = 0 ↔ ∃ value, ev = some value ∧ isOff value = true := by
  cases ev with
  | none =>
      refine ⟨nofun, ?_⟩
      rintro ⟨value, absent, off⟩
      cases absent
  | some value =>
      have words : isOff value = true →
          value ≠ "" ∧ startsPositive value = false ∧ isOn value = false := by
        intro off
        have listed := of_decide_eq_true off
        rcases listed with rfl | rfl | rfl | rfl | rfl | rfl | rfl <;> decide
      unfold readBoolEnvFlag
      dsimp only
      constructor
      · intro zero
        refine ⟨value, rfl, ?_⟩
        by_contra other
        rw [if_neg other] at zero
        split at zero
        · cases zero
        · split at zero
          · cases zero
          · split at zero <;> cases zero
      · rintro ⟨_, same, off⟩
        obtain rfl := Option.some.inj same
        obtain ⟨nonempty, negative, notOn⟩ := words off
        rw [if_neg nonempty, negative, notOn, off]
        rfl

/-- A flag is 0 or 1. -/
theorem flag_on_or_off (ev : Option String) :
    readBoolEnvFlag ev 1 = 1 ∨ readBoolEnvFlag ev 1 = 0 := by
  unfold readBoolEnvFlag
  split
  case h_1 => exact .inl rfl
  case h_2 value =>
    split_ifs
    · exact .inl rfl
    · exact .inl rfl
    · exact .inl rfl
    · exact .inr rfl
    · exact .inl rfl

/-- What is set by a flag is on unless the flag is off. -/
theorem flag_unset_iff (ev : Option String) :
    decide (readBoolEnvFlag ev 1 = 1) = false ↔
      ∃ value, ev = some value ∧ isOff value = true := by
  rw [← flag_off_iff, decide_eq_false_iff_not]
  have either := flag_on_or_off ev
  omega

/-- The largest batches are asked for, so only a record above the packet size is rejected. -/
theorem largest_batches {maxBcopySize recordSize : Nat} (useUpacket useLoopback iteration : Nat)
    (fits : 0 < maxBcopySize / recordSize) :
    chooseBatchRecords maxBcopySize recordSize
        (amExchangeOptions useUpacket useLoopback iteration) = .ok (maxBcopySize / recordSize) := by
  unfold chooseBatchRecords
  dsimp only
  rw [if_neg fits.ne']
  rfl

/-- The quota of a device. -/
def quota (atoi : String → Int) (getenv : Environment) : Nat :=
  (threadsPerDevice atoi getenv).toNat

theorem threads_per_device_quota :
    threadsPerDevice atoi getenv = quota atoi getenv ∧ 0 < quota atoi getenv := by
  have positive : 0 < threadsPerDevice atoi getenv := by
    unfold threadsPerDevice
    dsimp only
    split
    · exact Int.one_pos
    · omega
  unfold quota
  omega

theorem device_count_eq (enableTimers : Bool) (atoi : String → Int) (getenv : Environment)
    (threads : Nat) :
    (readLciRuntimeOptions enableTimers atoi getenv threads).deviceCount =
      (max 1 (threads / quota atoi getenv) : Nat) := by
  unfold readLciRuntimeOptions
  dsimp only
  rw [threads_per_device_quota.1, ← Int.ofNat_tdiv]
  omega

/-- A file name without a directory. -/
def IsFilePrefix (bytes : List Byte) : Prop := ¬ (bytes.isEmpty = true ∨ 47 ∈ bytes ∨ 92 ∈ bytes)

instance (bytes : List Byte) : Decidable (IsFilePrefix bytes) :=
  inferInstanceAs (Decidable (¬ _))

theorem default_prefix : IsFilePrefix (ascii "lci-irregular-profile") := by decide

theorem benchmark_prefix : IsFilePrefix (ascii "npb-is-lci") := by decide

/-- The options are valid whatever the environment holds. -/
theorem options_valid (some : 0 < threads) :
    (readLciRuntimeOptions enableTimers atoi getenv threads).invalid = none := by
  have devices := device_count_eq enableTimers atoi getenv threads
  have positive : ¬ (readLciRuntimeOptions enableTimers atoi getenv threads).deviceCount ≤ 0 := by
    rw [devices]
    omega
  unfold RuntimeOptions.invalid
  rw [if_neg positive]
  cases enableTimers with
  | false =>
      rw [if_neg (by rintro ⟨enabled, -⟩; cases enabled)]
      exact if_neg default_prefix
  | true =>
      rw [if_neg (by rintro ⟨-, none⟩; exact absurd none some.ne')]
      exact if_neg benchmark_prefix

/-- The device of a worker. -/
def deviceForWorker (deviceCount worker : Nat) : Nat := worker % deviceCount

/-- The OpenMP threads whose index takes them to a device. -/
def threadsOf (threads deviceCount device : Nat) : Nat :=
  Nat.count (fun worker => deviceForWorker deviceCount worker = device) threads

/-- `NUM_THREADS_PER_DEVICE` is 3, and there is no loopback. -/
def threeForDevice : Environment := fun name =>
  if name = "NUM_THREADS_PER_DEVICE" then some "3"
  else if name = "LOOPBACK" then some "off"
  else none

/-- `atoi` on that value. -/
def atoiThree : String → Int := fun value => if value = "3" then 3 else 0

end IntegerSortLci.Benchmark
