import IntegerSortLci.Benchmark.KeyChanges
import IntegerSortLci.Benchmark.NeighbourExchange
import IntegerSortLci.Benchmark.TestRanks

/-!
# A whole run of the benchmark

`main` on all ranks behind the generation of the keys: the warm-up pass and the timed
passes with their partial verifications, the full verification with its neighbour
exchange, and the reduction of `passed_verification`. The ranks go through all of it at
their own pace; only the collectives hold them together.

Pass 0 is the warm-up. It runs as iteration 1, and what it has verified is forgotten when
the timed region starts.
-/

namespace IntegerSortLci.Benchmark

open IntegerSortLci.Runtime IntegerSortLci.Foundations
open scoped BigOperators

set_option autoImplicit false

variable {commSize : Nat} {Worker : Type} [Fintype Worker]

/-- The key arrays and schedules of all passes, the problem class with its tables, and
`MAX_ITERATIONS`. -/
structure BenchmarkProgram (commSize : Nat) (Worker : Type) [Fintype Worker] where
  pipeline : Pipeline.Program commSize Worker
  problem : ProblemClass
  verification : VerificationData
  iterations : Nat
  tables : pipeline.testIndex = verification.testIndex
  some : 0 < iterations

namespace BenchmarkProgram

variable (program : BenchmarkProgram commSize Worker)

/-- The keys of the last pass. -/
def lastSet : KeySet commSize := program.pipeline.sets program.iterations

/-- The right test ranks of one rank in the timed passes before `pass`. -/
def rightBefore (rank pass : Nat) : Nat :=
  ∑ timed ∈ Finset.Ico 1 pass, (program.pipeline.sets timed).rightTestsOf program.verification
    program.problem (passIteration program.iterations timed) rank

/-- What a rank's full verification counts. -/
def fullPass (rank : Nat) : Nat := program.lastSet.verifyingRanks.fullVerify rank 0

end BenchmarkProgram

/-- Where a rank is: in its pass, behind `verify_partial_ranking`, behind the last
`finish_iteration`, or behind `full_verify`. -/
inductive RunStage where
  | ranking
  | verified
  | finished
  | counted
  deriving DecidableEq

/-- The pass of the rank is the last one, and `final_snapshot_` is taken. -/
def RunStage.isLast : RunStage → Bool
  | .ranking | .verified => false
  | .finished | .counted => true

/-- The members of `NasIntegerSortRun` that outlive a pass. -/
structure RunRank where
  stage : RunStage := .ranking
  passedVerification : Nat := 0
  finalSnapshot : FullVerifySnapshot := ⟨fun _ => 0, 0, 0, 0⟩

/-- `passed_verification_` of the root after the last reduction is `passedVerification`. -/
structure BenchmarkRun (commSize : Nat) (Worker : Type) where
  pipeline : Pipeline commSize Worker
  ranks : Fin commSize → RunRank
  exchange : Nat → RankExchange
  passedVerification : Option Nat := none

inductive BenchmarkAction (commSize : Nat) (Worker : Type) where
  /-- A step of a pass. -/
  | pipeline (action : PipelineAction commSize Worker)
  | verifyPartialRanking (rank : Fin commSize)
  | finishIteration (rank : Fin commSize)
  /-- A step of the neighbour exchange. -/
  | exchange (action : ExchangeAction)
  /-- `full_verify` behind the exchange. -/
  | countOutOfOrder (rank : Fin commSize)
  | reducePassed (tree : ReduceTree commSize)

/-- A rank leaves its pass in `finish_iteration` and nowhere else. -/
def PipelineAction.staysInPass : PipelineAction commSize Worker → Bool
  | .nextIteration _ => false
  | _ => true

/-- The rank whose call is answered or returns; a completion is LCI's. -/
def ExchangeAction.caller : ExchangeAction → Option Nat
  | .answerReceive myRank _ | .answerSend myRank _ | .wake myRank => some myRank
  | .completeSend _ | .transfer _ => none

/-- `final_snapshot_` as `finish_iteration` takes it. -/
def RankProgress.snapshot (progress : RankProgress Worker) : FullVerifySnapshot where
  frequencyHistogram := progress.workspace.frequencyByKey progress.plan.minKeyValue
  minKeyValue := progress.plan.minKeyValue
  maxKeyValue := progress.plan.maxKeyValue
  totalLocalKeys := progress.plan.localKeyCount

namespace BenchmarkRun

variable (program : BenchmarkProgram commSize Worker)

def initial (stale : Fin commSize → Workspace) : BenchmarkRun commSize Worker where
  pipeline := .initial program.pipeline stale
  ranks _ := {}
  exchange := program.lastSet.verifyingRanks.exchangeStart

def setRank (state : BenchmarkRun commSize Worker) (rank : Fin commSize) (own : RunRank) :
    BenchmarkRun commSize Worker :=
  { state with ranks := Function.update state.ranks rank own }

/-- What `full_verify` works on: each rank's snapshot and its keys of the last pass. -/
def verifying (state : BenchmarkRun commSize Worker) : VerifyingRanks where
  commSize := commSize
  snapshots rank :=
    if inside : rank < commSize then (state.ranks ⟨rank, inside⟩).finalSnapshot
    else ({} : RunRank).finalSnapshot
  keyArrays := program.lastSet.verifyingRanks.keyArrays

/-- A call of the exchange is one of a rank in `full_verify`. -/
def MayCall (state : BenchmarkRun commSize Worker) (caller : Option Nat) : Prop :=
  ∀ myRank ∈ caller, ∃ rank : Fin commSize, rank.val = myRank ∧
    (state.ranks rank).stage = .finished

instance (state : BenchmarkRun commSize Worker) (caller : Option Nat) :
    Decidable (state.MayCall caller) :=
  inferInstanceAs (Decidable (∀ myRank ∈ caller, _))

/-- The members when the pass is over. -/
def closePass (progress : RankProgress Worker) (own : RunRank) : RunRank :=
  { own with
    finalSnapshot :=
      if passIteration program.iterations progress.iteration = program.iterations then
        progress.snapshot
      else own.finalSnapshot }

variable [DecidableEq Worker]

def step (state : BenchmarkRun commSize Worker) :
    BenchmarkAction commSize Worker → Option (BenchmarkRun commSize Worker)
  | .pipeline action =>
      if action.staysInPass then
        (Pipeline.step program.pipeline state.pipeline action).map fun next =>
          { state with pipeline := next }
      else none
  | .verifyPartialRanking rank =>
      let progress := state.pipeline.ranks rank
      let own := state.ranks rank
      match progress.stage with
      | .ranked =>
          if own.stage = .ranking then
            some (state.setRank rank
              { own with
                stage := .verified
                passedVerification := verifyPartialRanking program.problem program.verification
                  (program.pipeline.sets progress.iteration).numBuckets
                  (passIteration program.iterations progress.iteration) progress
                  own.passedVerification })
          else none
      | _ => none
  | .finishIteration rank =>
      let progress := state.pipeline.ranks rank
      let own := closePass program progress (state.ranks rank)
      if own.stage = .verified then
        if progress.iteration = program.iterations then
          some (state.setRank rank { own with stage := .finished })
        else
          (Pipeline.step program.pipeline state.pipeline (.nextIteration rank)).map fun next =>
            { state.setRank rank
              { own with
                stage := .ranking
                -- `start_timed_region` comes behind the warm-up
                passedVerification :=
                  if progress.iteration = 0 then 0 else own.passedVerification } with
              pipeline := next }
      else none
  | .exchange action =>
      if state.MayCall action.caller then
        ((state.verifying program).exchangeStep state.exchange action).map fun next =>
          { state with exchange := next }
      else none
  | .countOutOfOrder rank =>
      let own := state.ranks rank
      if own.stage = .finished ∧ (state.exchange rank).stage = .past then
        some (state.setRank rank
          { own with
            stage := .counted
            passedVerification :=
              if own.finalSnapshot.outOfOrder (program.lastSet.verifyingRanks.keyArrays rank) rank
                  (state.exchange rank).previousRankLastKey ≠ 0 then own.passedVerification
              else own.passedVerification + 1 })
      else none
  | .reducePassed tree =>
      if state.passedVerification.isNone ∧ tree.Covers ∧
          ∀ rank, (state.ranks rank).stage = .counted then
        some { state with
          passedVerification := some
            (tree.combine 1 (fun rank _ => (state.ranks rank).passedVerification) 0) }
      else none

end BenchmarkRun

/-- The benchmark on all ranks. -/
def benchmarkSystem [DecidableEq Worker] (program : BenchmarkProgram commSize Worker) :
    TransitionSystem (BenchmarkRun commSize Worker) (BenchmarkAction commSize Worker) where
  step := BenchmarkRun.step program

/-- `expected_verification_count`. -/
def expectedVerificationCount (iterations commSize : Nat) : Nat := 5 * iterations + commSize

/-- `final_verification_status`. -/
def finalVerificationStatus (iterations passedVerification commSize : Nat) : Nat :=
  if passedVerification = expectedVerificationCount iterations commSize then passedVerification
  else 0

/-- The verdict that `c_print_results` prints. -/
def verificationLine (passedVerification : Nat) : String :=
  if passedVerification ≠ 0 then " Verification    =               SUCCESSFUL\n"
  else " Verification    =             UNSUCCESSFUL\n"

end IntegerSortLci.Benchmark
