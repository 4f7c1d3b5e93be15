import IntegerSortLci.Runtime.Profiling

/-!
# Writing completed profiles

`write_profiles` with the queue it drains, and the phases that submit to it.
Every file operation may fail; a write to the output stream that fails leaves
some prefix in the temporary file and the stream bad, and later insertions do
nothing. A call of `write_profiles` holds `profile_write_mutex_` from its first
file operation to its end, so at most one is at work; phases complete meanwhile.
The destructor is a completed phase followed by a write.

`written` and `completed` are bookkeeping of the model: which profiles the output
file holds, and the phases that ended with their profiles. `returns` records
how the calls of `write_profiles` ended.
-/

namespace IntegerSortLci.Runtime

open Foundations

set_option autoImplicit false

/-- The bytes of a text of the source. -/
def ascii (text : String) : List Byte :=
  text.toList.map fun character => UInt8.ofNat character.toNat

def decimal (value : Nat) : List Byte :=
  (Nat.toDigits 10 value).map fun character => UInt8.ofNat character.toNat

def hexDigit (value : Nat) : Byte := UInt8.ofNat (if value < 10 then 48 + value else 87 + value)

/-- `std::hex << std::setw(4) << std::setfill('0')`. -/
def hexWord (value : Nat) : List Byte :=
  [hexDigit (value / 4096 % 16), hexDigit (value / 256 % 16), hexDigit (value / 16 % 16),
    hexDigit (value % 16)]

def escapeByte (character : Byte) : List Byte :=
  if character = 34 then ascii "\\\""
  else if character = 92 then ascii "\\\\"
  else if character = 8 then ascii "\\b"
  else if character = 12 then ascii "\\f"
  else if character = 10 then ascii "\\n"
  else if character = 13 then ascii "\\r"
  else if character = 9 then ascii "\\t"
  else if character < 32 then ascii "\\u" ++ hexWord character.toNat
  else [character]

def jsonEscape (value : List Byte) : List Byte := value.flatMap escapeByte

/-- The table `operations`, in the order of the rows. -/
def operations : List (String × ProfileOperation) :=
  [("flush", .flush), ("progress", .progress), ("remote_receive", .remoteReceive),
    ("loopback_receive", .loopbackReceive)]

def writeWorkerRows {Worker : Type} (rank : Nat) (profile : AmProfile Worker) (inScope : List Byte)
    (worker : AmWorkerProfile) : List Byte :=
  operations.flatMap fun (name, operation) =>
    let values := worker operation
    ascii "\x7b\"rank\":" ++ decimal rank ++ ascii ",\"phase\":" ++ decimal profile.phaseSequence ++
      ascii ",\"name\":\"" ++ jsonEscape profile.name ++ ascii "\",\"scope\":\"" ++ inScope ++
      ascii "\",\"operation\":\"" ++ ascii name ++ ascii "\",\"calls\":" ++ decimal values.calls ++
      ascii ",\"records\":" ++ decimal values.records ++ ascii ",\"payload_bytes\":" ++
      decimal values.payloadBytes ++ ascii ",\"elapsed_nanoseconds\":" ++
      decimal values.elapsedNanoseconds ++ ascii "\x7d\n"

/-- What `write_profiles` reads of the runtime's options. -/
structure WriterOptions where
  rank : Nat
  enabled : Bool
  workerCount : Nat
  outputDirectory : List Byte
  filePrefix : List Byte

namespace WriterOptions

variable (options : WriterOptions)

/-- The rows of one profile: the aggregate, then every worker. -/
def profileRows (profile : AmProfile Nat) : List Byte :=
  writeWorkerRows options.rank profile (ascii "aggregate") profile.aggregate ++
    (List.range options.workerCount).flatMap fun workerIndex =>
      match profile.workers workerIndex with
      | some worker =>
          writeWorkerRows options.rank profile (ascii "worker-" ++ decimal workerIndex) worker
      | none => []

def rows (profiles : List (AmProfile Nat)) : List Byte := profiles.flatMap options.profileRows

/-- `directory / name`: a separator only where the directory does not end in one. -/
def outputPath : List Byte :=
  let separator := if options.outputDirectory.getLast? = some 47 then [] else ascii "/"
  options.outputDirectory ++ separator ++ options.filePrefix ++ ascii ".rank-" ++
    decimal options.rank ++ ascii ".jsonl"

end WriterOptions

/-- The file operation that `write_profiles` does next. -/
inductive WriteStage where
  | createDirectories
  | openTemporary
  | openPrevious
  | copyPrevious
  | writeRows (remaining : List (AmProfile Nat))
  | rename

/-- A call of `write_profiles` at work; `good` is the state of its stream. -/
structure Writing where
  profiles : List (AmProfile Nat)
  stage : WriteStage
  good : Bool := true

/-- The outcome of one file operation: `what` is the text of the exception where
the library throws one, `kept` how many bytes of a failed insertion reached the
file, `removed` whether the clean-up could remove the temporary file. -/
structure IoAnswer where
  succeeded : Bool
  what : List Byte := []
  kept : Nat := 0
  removed : Bool := true

/-- A phase between its registration and its end. -/
structure ActivePhase where
  number : Nat
  recorder : AmProfileRecorder Nat
  finalizeOnce : Bool := false

structure ProfileStore where
  pendingProfiles : List (AmProfile Nat) := []
  profileOutputStarted : Bool := false
  outputFile : Option (List Byte)
  temporaryFile : Option (List Byte) := none
  writing : Option Writing := none
  phase : Option ActivePhase := none
  nextNumber : Nat := 0
  completed : List (Nat × AmProfile Nat) := []
  written : List (AmProfile Nat) := []
  returns : List (Except (List Byte) Unit) := []

inductive StoreAction where
  | registerPhase (name : List Byte)
  | measure (measured : Measured Nat)
  /-- `finalize_profile` is reached once and `again` more times, then the state is reset. -/
  | completePhase (again : Nat)
  /-- The `catch` block of `set_am_handler`. -/
  | abandonPhase
  | writeProfiles
  | answer (io : IoAnswer)

namespace ProfileStore

def submitProfile (store : ProfileStore) (profile : AmProfile Nat) : ProfileStore :=
  { store with pendingProfiles := store.pendingProfiles ++ [profile] }

/-- `finalize_profile` of the active phase. -/
def finalizeProfile (store : ProfileStore) : ProfileStore :=
  match store.phase with
  | none => store
  | some phase =>
      if phase.finalizeOnce then store
      else
        let finalized := { store with phase := some { phase with finalizeOnce := true } }
        if phase.recorder.enabled then finalized.submitProfile phase.recorder.snapshot
        else finalized

/-- The end of the active phase, with the entry it has in the model's books. -/
def completePhase (store : ProfileStore) (phase : ActivePhase) (again : Nat) : ProfileStore :=
  { finalizeProfile^[again + 1] store with
    phase := none
    completed :=
      if phase.recorder.enabled then
        store.completed ++ [(phase.number, phase.recorder.snapshot)]
      else store.completed }

section Write

variable (options : WriterOptions)

/-- The `catch` block of `write_profiles`. -/
def failWrite (store : ProfileStore) (writing : Writing) (what : List Byte) (removed : Bool) :
    ProfileStore :=
  { store with
    temporaryFile := if removed then none else store.temporaryFile
    pendingProfiles := writing.profiles ++ store.pendingProfiles
    writing := none
    returns := store.returns ++ [.error (ascii "unable to write LCI irregular profile " ++
      options.outputPath ++ ascii ": " ++ what)] }

/-- `write_profiles` up to its first file operation. -/
def writeProfiles (store : ProfileStore) : Option ProfileStore :=
  if options.enabled = false then
    some { store with
      returns := store.returns ++ [.error (ascii "LCI irregular profiling is disabled")] }
  else if options.outputDirectory.isEmpty then
    some { store with
      returns := store.returns ++
        [.error (ascii "LCI irregular profiling output directory is not configured")] }
  else if store.writing.isSome then none
  else
    let profiles := store.pendingProfiles
    if profiles.isEmpty then some { store with returns := store.returns ++ [.ok ()] }
    else
      some { store with
        pendingProfiles := []
        writing := some { profiles := profiles, stage := .createDirectories } }

def enter (store : ProfileStore) (writing : Writing) (stage : WriteStage) : ProfileStore :=
  { store with writing := some { writing with stage := stage } }

/-- The insertion of `bytes` into the temporary file; a bad stream takes nothing. -/
def insertion (store : ProfileStore) (writing : Writing) (bytes : List Byte) (io : IoAnswer) :
    ProfileStore × Writing :=
  if writing.good then
    let content := store.temporaryFile.getD []
    if io.succeeded then ({ store with temporaryFile := some (content ++ bytes) }, writing)
    else
      ({ store with temporaryFile := some (content ++ bytes.take io.kept) },
        { writing with good := false })
  else (store, writing)

/-- `output << previous.rdbuf()`; an insertion of no character at all sets the
stream's `failbit`. -/
def copyPrevious (store : ProfileStore) (writing : Writing) (previous : List Byte) (io : IoAnswer) :
    ProfileStore :=
  let copied := store.insertion writing previous io
  if copied.2.good ∧ previous ≠ [] then copied.1.enter copied.2 (.writeRows writing.profiles)
  else
    copied.1.failWrite options writing (ascii "unable to copy existing output file") io.removed

/-- The next file operation of the call at work, with its answer. -/
def answer (store : ProfileStore) (writing : Writing) (io : IoAnswer) : Option ProfileStore :=
  match writing.stage with
  | .createDirectories =>
      if io.succeeded then some (store.enter writing .openTemporary)
      else some (store.failWrite options writing io.what io.removed)
  | .openTemporary =>
      if io.succeeded then
        let opened := { store with temporaryFile := some [] }
        if store.profileOutputStarted then some (opened.enter writing .openPrevious)
        else some (opened.enter writing (.writeRows writing.profiles))
      else
        some (store.failWrite options writing (ascii "unable to open temporary output file")
          io.removed)
  | .openPrevious =>
      if io.succeeded then
        if store.outputFile.isSome then some (store.enter writing .copyPrevious) else none
      else
        some (store.failWrite options writing (ascii "unable to read existing output file")
          io.removed)
  | .copyPrevious =>
      store.outputFile.map fun previous => store.copyPrevious options writing previous io
  | .writeRows (profile :: remaining) =>
      let inserted := store.insertion writing (options.profileRows profile) io
      some (inserted.1.enter inserted.2 (.writeRows remaining))
  | .writeRows [] =>
      -- `close` flushes what the stream still holds
      if writing.good ∧ io.succeeded then some (store.enter writing .rename)
      else
        some (store.failWrite options writing (ascii "unable to complete temporary output file")
          io.removed)
  | .rename =>
      if io.succeeded then
        some { store with
          outputFile := store.temporaryFile
          temporaryFile := none
          profileOutputStarted := true
          writing := none
          written := store.written ++ writing.profiles
          returns := store.returns ++ [.ok ()] }
      else some (store.failWrite options writing io.what io.removed)

def step (store : ProfileStore) : StoreAction → Option ProfileStore
  | .registerPhase name =>
      match store.phase with
      | some _ => none
      | none =>
          some { store with
            phase := some
              { number := store.nextNumber
                recorder := .initial options.enabled 0 name }
            nextNumber := store.nextNumber + 1 }
  | .measure measured =>
      store.phase.map fun phase =>
        { store with phase := some { phase with recorder := phase.recorder.record measured } }
  | .completePhase again => store.phase.map fun phase => store.completePhase phase again
  | .abandonPhase => store.phase.map fun _ => { store with phase := none }
  | .writeProfiles => store.writeProfiles options
  | .answer io => store.writing.bind fun writing => store.answer options writing io

end Write

/-- A runtime that has written nothing, over whatever file an earlier process left. -/
def initial (earlier : Option (List Byte)) : ProfileStore where
  outputFile := earlier

end ProfileStore

def storeSystem (options : WriterOptions) : TransitionSystem ProfileStore StoreAction where
  step := ProfileStore.step options

end IntegerSortLci.Runtime
