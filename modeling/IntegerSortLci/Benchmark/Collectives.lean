import IntegerSortLci.Benchmark.RunRules

/-!
# The collective operations of one rank

The sequence of LCI collectives that `main` makes on a rank, from the runtime's
constructor to its destructor. A broadcast gives every rank the value of rank 0,
so what a rank does next depends on its own rank, the process count and what
rank 0 read from its environment.
-/

namespace IntegerSortLci.Benchmark

set_option autoImplicit false

inductive ReduceOp where
  | sumOpInt
  | sumOpDouble
  | maxOp
  | minOp
  deriving DecidableEq, Repr

/-- A collective with the arguments that all ranks have to agree on. -/
inductive Collective where
  | barrier
  | broadcast (bytes root : Nat)
  | reduce (count elementSize : Nat) (op : ReduceOp) (root : Nat)
  | finalize
  deriving DecidableEq, Repr

def sizeofInt : Nat := 4
def sizeofDouble : Nat := 8

/-- `T_LAST + 1`. -/
def timerCount : Nat := 4

/-- One job: the build, the process count, and what each process reads. -/
structure Job where
  problem : ProblemClass
  /-- The build has timers (`NO_MTIMERS` is not defined). -/
  timers : Bool
  rankCount : Nat
  iterations : Nat
  /-- `getenv("NPB_NPROCS_STRICT")` of each process. -/
  nprocsStrict : Nat → Option String
  /-- `check_timer_flag()` of each process. -/
  timerFlag : Nat → Bool

/-- How `initialize` ends. -/
inductive Initialized where
  | ready
  | finished (exitCode : Nat)
  deriving DecidableEq, Repr

namespace Job

variable (job : Job)

def activeRankCount : Nat := greatestPowerOfTwoAtMost job.rankCount

/-- What rank 0 broadcasts in `determine_active_rank_count`. -/
def abortForNonPowerOfTwo : Bool := shouldAbortForNonPowerOfTwo (job.nprocsStrict 0)

/-- `timer_enabled()` after the broadcast of `timeron`. -/
def timerEnabled : Bool := job.timers && job.timerFlag 0

def determineActiveRankCount (rank : Nat) : List Collective × Initialized :=
  if job.activeRankCount ≠ job.rankCount then
    let flag := [.broadcast sizeofInt 0]
    if job.abortForNonPowerOfTwo then (flag, .finished 1)
    else if job.activeRankCount ≤ rank then (flag, .finished 0)
    else (flag, .ready)
  else ([], .ready)

def initializeRun (rank : Nat) : List Collective × Initialized :=
  if isProcessCountInRange job.problem job.rankCount then
    match job.determineActiveRankCount rank with
    | (trace, .finished exitCode) => (trace, .finished exitCode)
    | (trace, .ready) =>
        (trace ++ [.broadcast sizeofInt 0, .broadcast sizeofInt 0, .broadcast sizeofInt 0], .ready)
  else ([], .finished 1)

def generateKeys : List Collective := [.barrier]

def bucketWorkspaceSize : Nat := 2 ^ job.problem.numBucketsLog2 + testArraySize

def computeGlobalBucketSizes : List Collective :=
  [.reduce job.bucketWorkspaceSize sizeofInt .sumOpInt 0,
    .broadcast (job.bucketWorkspaceSize * sizeofInt) 0]

/-- The barrier of `set_am_handler`; the end of the phase is local. -/
def redistributeKeysWithLci : List Collective := [.barrier]

/-- One pass of the algorithm's steps, as the warm-up and the timed loop make it. -/
def pipeline : List Collective := job.computeGlobalBucketSizes ++ redistributeKeysWithLci

def beginIteration : List Collective := [.barrier]

def timedRegion : List Collective :=
  (List.replicate job.iterations (beginIteration ++ job.pipeline)).flatten

def stopTimedRegion : List Collective := [.reduce 1 sizeofDouble .maxOp 0]

/-- `full_verify` itself talks to the neighbours only. -/
def verifyFullRanking : List Collective := [.reduce 1 sizeofInt .sumOpInt 0]

def printResults : List Collective :=
  if job.timerEnabled then
    [.reduce timerCount sizeofDouble .minOp 0, .reduce timerCount sizeofDouble .sumOpDouble 0,
      .reduce timerCount sizeofDouble .maxOp 0]
  else []

/-- `main` between `initialize` and its return. -/
def algorithm : List Collective :=
  generateKeys ++ job.pipeline ++ job.timedRegion ++ stopTimedRegion ++ verifyFullRanking ++
    job.printResults

/-- `main`, with the runtime's constructor and destructor around it. -/
def main (rank : Nat) : List Collective :=
  let constructor := [.barrier]
  let destructor := [.finalize]
  match job.initializeRun rank with
  | (trace, .finished _) => constructor ++ trace ++ destructor
  | (trace, .ready) => constructor ++ trace ++ job.algorithm ++ destructor

/-- All ranks make the same collectives in the same order. -/
def CollectivesMatch : Prop :=
  ∀ rank, rank < job.rankCount → ∀ other, other < job.rankCount → job.main rank = job.main other

end Job

variable {job : Job}

/-- Where the active ranks are all ranks, nothing depends on the rank. -/
theorem initialize_power {rank : Nat} (all : job.activeRankCount = job.rankCount) :
    job.initializeRun rank = job.initializeRun 0 := by
  simp [Job.initializeRun, Job.determineActiveRankCount, all]

theorem initialize_abort {rank : Nat} (aborts : job.abortForNonPowerOfTwo = true) :
    job.initializeRun rank = job.initializeRun 0 := by
  simp [Job.initializeRun, Job.determineActiveRankCount, aborts]

/-- The inactive ranks go from the flag straight to finalisation. -/
theorem inactive_main {rank : Nat}
    (inside : isProcessCountInRange job.problem job.rankCount = true)
    (some : job.activeRankCount ≠ job.rankCount) (continues : job.abortForNonPowerOfTwo = false)
    (inactive : job.activeRankCount ≤ rank) :
    job.main rank = [.barrier, .broadcast sizeofInt 0, .finalize] := by
  simp [Job.main, Job.initializeRun, Job.determineActiveRankCount, inside, some, continues,
    inactive]

/-- The active ranks go on with collectives over all ranks. -/
theorem active_main {rank : Nat}
    (inside : isProcessCountInRange job.problem job.rankCount = true)
    (some : job.activeRankCount ≠ job.rankCount) (continues : job.abortForNonPowerOfTwo = false)
    (active : rank < job.activeRankCount) :
    ∃ rest, job.main rank =
      .barrier :: .broadcast sizeofInt 0 :: .broadcast sizeofInt 0 :: rest := by
  refine ⟨[.broadcast sizeofInt 0, .broadcast sizeofInt 0] ++ job.algorithm ++ [.finalize], ?_⟩
  simp [Job.main, Job.initializeRun, Job.determineActiveRankCount, inside, some, continues,
    Nat.not_le.mpr active]

/-- All ranks of an admitted job make the same collectives exactly when the
process count is a power of two or rank 0's environment makes the job abort. -/
theorem collectives_match_iff (job : Job)
    (inside : isProcessCountInRange job.problem job.rankCount = true) :
    job.CollectivesMatch ↔
      (∃ log, job.rankCount = 2 ^ log) ∨ job.abortForNonPowerOfTwo = true := by
  have positive : 0 < job.rankCount := by
    have bounds := of_decide_eq_true inside
    have least : 0 < job.problem.minProcs := by
      cases job.problem <;> decide
    omega
  constructor
  · intro matching
    rcases greatest_power_cases positive with ⟨_, power⟩ | ⟨someActive, fewer, _⟩
    · exact .inl power
    · right
      by_contra continues
      rw [Bool.not_eq_true] at continues
      have different : job.activeRankCount ≠ job.rankCount := Nat.ne_of_lt fewer
      have leaves := inactive_main inside different continues (Nat.le_refl job.activeRankCount)
      obtain ⟨rest, stays⟩ := active_main inside different continues someActive
      have same := matching 0 positive job.activeRankCount fewer
      rw [leaves, stays] at same
      cases same
  · intro condition rank _ other _
    have uniform : ∀ rank, job.initializeRun rank = job.initializeRun 0 := by
      intro rank
      rcases condition with power | aborts
      · rcases greatest_power_cases positive with ⟨all, _⟩ | ⟨_, _, notPower⟩
        · exact initialize_power all
        · exact absurd power notPower
      · exact initialize_abort aborts
    unfold Job.main
    rw [uniform rank, uniform other]

/-- Three processes that were told to go on. -/
def threeProcesses : Job where
  problem := .S
  timers := false
  rankCount := 3
  iterations := 10
  nprocsStrict _ := some "off"
  timerFlag _ := false

theorem three_processes_diverge : ¬threeProcesses.CollectivesMatch := by
  intro matching
  have same := matching 0 (by decide) 2 (by decide)
  exact absurd same (by decide)

theorem collectives_match_iff_four :
    ({ threeProcesses with rankCount := 4 } : Job).CollectivesMatch :=
  (collectives_match_iff { threeProcesses with rankCount := 4 } (by decide)).mpr
    (.inl ⟨2, rfl⟩)

end IntegerSortLci.Benchmark
