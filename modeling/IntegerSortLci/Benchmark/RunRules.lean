import Mathlib.Algebra.Order.Ring.Nat
import Mathlib.Tactic.Ring

/-!
# Problem classes and run rules

The constants of `problem_config.hpp`, the types of `types.hpp` that depend on them, and
the process-count and sizing rules of `run_rules.cpp`.
-/

namespace IntegerSortLci.Benchmark

set_option autoImplicit false

/-- `CLASS`, a build-time constant. -/
inductive ProblemClass where
  | S | W | A | B | C | D | E
  deriving DecidableEq, Repr

/-- The integer types of the code: `int` has 32 bits, `long` 64. -/
inductive IntegerType where
  | int | long
  deriving DecidableEq, Repr

def FitsInt (value : Int) : Prop :=
  -2147483648 ≤ value ∧ value ≤ 2147483647

def FitsLong (value : Int) : Prop :=
  -9223372036854775808 ≤ value ∧ value ≤ 9223372036854775807

def IntegerType.Holds : IntegerType → Int → Prop
  | .int, value => FitsInt value
  | .long, value => FitsLong value

namespace ProblemClass

/-- `KeyRank`. `KeyValue` and `KeyCount` are `int` in every class. -/
def keyRankType : ProblemClass → IntegerType
  | D => .long
  | E => .long
  | _ => .int

def minProcs : ProblemClass → Nat
  | D => 4
  | E => 64
  | _ => 1

def maxProcs : ProblemClass → Nat
  | S => 128
  | _ => 1024

def numBucketsLog2 : ProblemClass → Nat
  | S => 9
  | _ => 10

def totalKeysLog2 : ProblemClass → Nat
  | S => 16
  | W => 20
  | A => 23
  | B => 25
  | C => 27
  | D => 29
  | E => 29

def maxKeyLog2 : ProblemClass → Nat
  | S => 11
  | W => 16
  | A => 19
  | B => 21
  | C => 23
  | D => 27
  | E => 31

/-- `TOTAL_KEYS`, the keys of the problem divided by `MIN_PROCS`. -/
def totalKeys (problem : ProblemClass) : Nat :=
  2 ^ problem.totalKeysLog2

/-- `MAX_KEY`. -/
def maxKey (problem : ProblemClass) : Nat :=
  2 ^ problem.maxKeyLog2

/-- `NUM_BUCKETS`. -/
def numBuckets (problem : ProblemClass) : Nat :=
  2 ^ problem.numBucketsLog2

/-- `MAX_KEY_LOG_2 - NUM_BUCKETS_LOG_2`. -/
def bucketShift (problem : ProblemClass) : Nat :=
  problem.maxKeyLog2 - problem.numBucketsLog2

end ProblemClass

/-- `TEST_ARRAY_SIZE`, the number of keys in the partial verification. -/
def testArraySize : Nat := 5

def isProcessCountInRange (problem : ProblemClass) (processCount : Nat) : Bool :=
  decide (problem.minProcs ≤ processCount ∧ processCount ≤ problem.maxProcs)

/-- The doubling loop of `greatest_power_of_two_at_most`, with its iterations bounded. -/
def doubleUntil (processCount : Nat) : Nat → Nat → Nat
  | 0, activeCount => activeCount
  | bound + 1, activeCount =>
      if activeCount < processCount then doubleUntil processCount bound (activeCount * 2)
      else activeCount

def greatestPowerOfTwoAtMost (processCount : Nat) : Nat :=
  let activeCount := doubleUntil processCount processCount 1
  if activeCount > processCount then activeCount / 2 else activeCount

/-- `should_abort_for_non_power_of_two_process_count`; `none` is an unset variable. -/
def shouldAbortForNonPowerOfTwo (strict : Option String) : Bool :=
  match strict with
  | none => true
  | some value =>
      match value.toList with
      | [] => true
      | first :: _ =>
          if first ∈ ['n', 'N', 'f', 'F', '-'] ∨ value = "0" then false
          else if value = "off" ∨ value = "OFF" then false
          else true

def computeLocalKeyCount (problem : ProblemClass) (commSize : Nat) : Nat :=
  problem.totalKeys / commSize * problem.minProcs

def computeWorkBufferSize (commSize localKeyCount : Nat) : Nat :=
  if commSize < 256 then 3 * localKeyCount / 2
  else if commSize < 512 then 5 * localKeyCount / 2
  else if commSize < 1024 then 4 * localKeyCount
  else 13 * localKeyCount / 2

def computeTotalRandomNumbers (problem : ProblemClass) : Nat :=
  4 * problem.totalKeys * problem.minProcs

/-- The bound on the loop is never what ends it: the loop leaves a power of two
that reaches the process count, and its half does not. -/
theorem double_until_spec (processCount bound activeCount : Nat)
    (enough : processCount ≤ activeCount * 2 ^ bound) :
    ∃ doublings, doubleUntil processCount bound activeCount = activeCount * 2 ^ doublings ∧
      processCount ≤ activeCount * 2 ^ doublings ∧
      (doublings ≠ 0 → activeCount * 2 ^ (doublings - 1) < processCount) := by
  induction bound generalizing activeCount with
  | zero => exact ⟨0, by simp [doubleUntil], by simpa using enough, by simp⟩
  | succ bound ih =>
      by_cases below : activeCount < processCount
      · have further : processCount ≤ activeCount * 2 * 2 ^ bound := by
          have power : activeCount * 2 ^ (bound + 1) = activeCount * 2 * 2 ^ bound := by ring
          omega
        obtain ⟨doublings, result, reached, short⟩ := ih (activeCount * 2) further
        have power : ∀ count, activeCount * 2 * 2 ^ count = activeCount * 2 ^ (count + 1) := by
          intro count
          ring
        refine ⟨doublings + 1, ?_, ?_, ?_⟩
        · rw [doubleUntil, if_pos below, result, power]
        · rw [← power]
          exact reached
        · intro _
          rcases Nat.eq_zero_or_pos doublings with rfl | positive
          · simpa using below
          · have previous := short (Nat.pos_iff_ne_zero.mp positive)
            rw [power, Nat.sub_add_cancel positive] at previous
            exact previous
      · refine ⟨0, ?_, ?_, by simp⟩
        · rw [doubleUntil, if_neg below]
          simp
        · simp
          omega

theorem greatest_power_cases {processCount : Nat} (positive : 0 < processCount) :
    (greatestPowerOfTwoAtMost processCount = processCount ∧ ∃ log, processCount = 2 ^ log) ∨
    (0 < greatestPowerOfTwoAtMost processCount ∧
      greatestPowerOfTwoAtMost processCount < processCount ∧ ¬∃ log, processCount = 2 ^ log) := by
  have enough : processCount ≤ 1 * 2 ^ processCount := by
    rw [Nat.one_mul]
    exact Nat.le_of_lt Nat.lt_two_pow_self
  obtain ⟨doublings, result, reached, short⟩ :=
    double_until_spec processCount processCount 1 enough
  rw [Nat.one_mul] at result reached
  simp only [Nat.one_mul] at short
  unfold greatestPowerOfTwoAtMost
  rw [result]
  by_cases exceeded : 2 ^ doublings > processCount
  · rw [if_pos exceeded]
    have some : doublings ≠ 0 := by
      rintro rfl
      rw [Nat.pow_zero] at exceeded
      omega
    obtain ⟨previous, rfl⟩ := Nat.exists_eq_succ_of_ne_zero some
    have below := short some
    simp only [Nat.succ_eq_add_one, Nat.add_sub_cancel] at below
    have half : 2 ^ (previous + 1) / 2 = 2 ^ previous := by
      rw [Nat.pow_succ]
      exact Nat.mul_div_cancel _ (by decide)
    refine .inr ⟨?_, ?_, ?_⟩
    · rw [Nat.succ_eq_add_one, half]
      exact Nat.two_pow_pos previous
    · rw [Nat.succ_eq_add_one, half]
      exact below
    · rintro ⟨log, rfl⟩
      have more : previous < log := (Nat.pow_lt_pow_iff_right (by decide)).mp below
      have less : log < previous + 1 := (Nat.pow_lt_pow_iff_right (by decide)).mp exceeded
      omega
  · rw [if_neg exceeded]
    have equal : 2 ^ doublings = processCount := by omega
    exact .inl ⟨equal, doublings, equal.symm⟩

/-- A power of two that is admitted as the number of ranks divides the keys evenly. -/
theorem local_key_count_power {problem : ProblemClass} {log : Nat}
    (admitted : isProcessCountInRange problem (2 ^ log) = true) :
    ∃ count, computeLocalKeyCount problem (2 ^ log) = 2 ^ count ∧
      2 ^ log * 2 ^ count = problem.totalKeys * problem.minProcs := by
  have range := of_decide_eq_true admitted
  have logBound : log ≤ 10 := by
    have below : 2 ^ log ≤ 2 ^ 10 := range.2.trans (by cases problem <;> decide)
    exact (Nat.pow_le_pow_iff_right (by decide)).mp below
  have room : log ≤ problem.totalKeysLog2 :=
    logBound.trans (by cases problem <;> decide)
  obtain ⟨procs, powers⟩ : ∃ procs, problem.minProcs = 2 ^ procs := by
    cases problem
    case D => exact ⟨2, rfl⟩
    case E => exact ⟨6, rfl⟩
    all_goals exact ⟨0, rfl⟩
  refine ⟨problem.totalKeysLog2 - log + procs, ?_, ?_⟩
  · unfold computeLocalKeyCount ProblemClass.totalKeys
    rw [powers, Nat.pow_div room (by decide), ← Nat.pow_add]
  · unfold ProblemClass.totalKeys
    rw [powers, ← Nat.pow_add, ← Nat.pow_add]
    congr 1
    omega

/-- The random stream has four numbers for each key of each rank. -/
theorem total_random_numbers_split {problem : ProblemClass} {log : Nat}
    (admitted : isProcessCountInRange problem (2 ^ log) = true) :
    computeTotalRandomNumbers problem =
      4 * computeLocalKeyCount problem (2 ^ log) * 2 ^ log := by
  obtain ⟨count, localCount, total⟩ := local_key_count_power admitted
  unfold computeTotalRandomNumbers
  rw [localCount, Nat.mul_assoc, ← total, Nat.mul_assoc]
  congr 1
  exact Nat.mul_comm _ _

end IntegerSortLci.Benchmark
