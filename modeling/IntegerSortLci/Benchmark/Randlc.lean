import IntegerSortLci.Benchmark.RunRules
import IntegerSortLci.Foundations.FloatProgram

/-!
# The random number generator

`randlc` of `key_generation.cpp`. It multiplies two 46-bit integers modulo `2 ^ 46` with
double arithmetic: both are split into halves of 23 bits, and the partial products are
reduced before they outgrow the digits of a double. The seed and the multiplier are
passed by pointer and may be the same variable.
-/

namespace IntegerSortLci.Benchmark

open IntegerSortLci.Foundations

set_option autoImplicit false

/-- The static variables `r23`, `r46`, `t23` and `t46`. -/
structure RandlcConstants where
  r23 : Rat
  r46 : Rat
  t23 : Rat
  t46 : Rat

/-- The double variables that a caller has, by their addresses, and the static variables
of `randlc`, which are not set while `ks` is 0. -/
structure DoubleMemory (Variable : Type) where
  doubles : Variable → Rat
  statics : Option RandlcConstants

/-- What `randlc` returns, and the memory it leaves. -/
structure RandlcStep (Variable : Type) where
  memory : DoubleMemory Variable
  value : Rat

structure PowerPair where
  halved : Rat
  doubled : Rat

structure Halves where
  high : Rat
  low : Rat

section Randlc

variable {Variable : Type} [DecidableEq Variable]

def DoubleMemory.store (memory : DoubleMemory Variable) (address : Variable) (value : Rat) :
    DoubleMemory Variable :=
  { memory with doubles := Function.update memory.doubles address value }

/-- One of the two loops that compute the static variables. -/
def scaleByTwo : Nat → PowerPair → FloatProgram PowerPair
  | 0, powers => pure powers
  | turns + 1, powers => do
      let halved ← .multiply (1 / 2) powers.halved
      let doubled ← .multiply 2 powers.doubled
      scaleByTwo turns ⟨halved, doubled⟩

/-- The first call computes the static variables. -/
def randlcConstants : Option RandlcConstants → FloatProgram RandlcConstants
  | some constants => pure constants
  | none => do
      let powers23 ← scaleByTwo 23 ⟨1, 1⟩
      let powers46 ← scaleByTwo 46 ⟨1, 1⟩
      pure ⟨powers23.halved, powers46.halved, powers23.doubled, powers46.doubled⟩

/-- The statements `j = r * value; high = j; low = value - t * high`, which occur for the
multiplier, the seed and both partial sums. -/
def splitDouble (r t value : Rat) : FloatProgram Halves := do
  let scaled ← .multiply r value
  let j ← .toInteger scaled
  let high ← .ofInteger j
  let product ← .multiply t high
  let low ← .subtract value product
  pure ⟨high, low⟩

def randlc (memory : DoubleMemory Variable) (seed multiplier : Variable) :
    FloatProgram (RandlcStep Variable) := do
  let constants ← randlcConstants memory.statics
  let a ← splitDouble constants.r23 constants.t23 (memory.doubles multiplier)
  let x ← splitDouble constants.r23 constants.t23 (memory.doubles seed)
  let a1x2 ← .multiply a.high x.low
  let a2x1 ← .multiply a.low x.high
  let t1 ← .add a1x2 a2x1
  let z ← splitDouble constants.r23 constants.t23 t1
  let t23z ← .multiply constants.t23 z.low
  let a2x2 ← .multiply a.low x.low
  let t3 ← .add t23z a2x2
  let reduced ← splitDouble constants.r46 constants.t46 t3
  let stored := { memory with statics := some constants }.store seed reduced.low
  let value ← .multiply constants.r46 (stored.doubles seed)
  pure ⟨stored, value⟩

end Randlc

/-- The values of the static variables after the first call. -/
def powerConstants : RandlcConstants :=
  ⟨1 / 2 ^ 23, 1 / 2 ^ 46, 2 ^ 23, 2 ^ 46⟩

/-- `ks` is 0, or an earlier call computed the static variables. -/
def PreparedStatics (statics : Option RandlcConstants) : Prop :=
  statics = none ∨ statics = some powerConstants

/-- The numbers that `randlc` relies on to be exact: integers of at most 53 digits, and
such integers times `2 ^ -23` or `2 ^ -46`. -/
def ExactDouble (value : Rat) : Prop :=
  HasDigits 53 0 value ∨ HasDigits 53 23 value ∨ HasDigits 53 46 value

theorem ExactDouble.natural {value : Nat} (small : value < 2 ^ 53) : ExactDouble value := by
  have digits := HasDigits.of_nat 0 small
  rw [pow_zero, div_one] at digits
  exact .inl digits

theorem ExactDouble.scaled {scale mantissa : Nat} (scaled : scale = 23 ∨ scale = 46)
    (small : mantissa < 2 ^ 53) : ExactDouble ((mantissa : Rat) / 2 ^ scale) := by
  rcases scaled with rfl | rfl
  · exact .inr (.inl (HasDigits.of_nat 23 small))
  · exact .inr (.inr (HasDigits.of_nat 46 small))

theorem ExactDouble.power {exponent : Nat} (bounded : exponent ≤ 46) :
    ExactDouble (1 / 2 ^ exponent) := by
  have small : 2 ^ (46 - exponent) < 2 ^ 53 :=
    Nat.pow_lt_pow_right (by decide) (by omega)
  have value : (1 : Rat) / 2 ^ exponent = ((2 ^ (46 - exponent) : Nat) : Rat) / 2 ^ 46 := by
    have powers : (2 : Rat) ^ 46 = 2 ^ (46 - exponent) * 2 ^ exponent := by
      rw [← pow_add, Nat.sub_add_cancel bounded]
    rw [powers]
    push_cast
    field_simp
  rw [value]
  exact .scaled (.inr rfl) small

theorem round_exact_double (mode : RoundingMode) {value : Rat} (holds : ExactDouble value) :
    roundDigits 53 mode value = value := by
  rcases holds with digits | digits | digits
  all_goals exact round_digits_fixes mode digits

/-- Every number on the way to the result is exact, and every conversion fits. -/
abbrev RunsExactly {α : Type} : FloatProgram α → α → Prop :=
  FloatProgram.Computes ExactDouble FitsInt

open FloatProgram in
theorem scale_by_two_runs (turns done : Nat) (bounded : done + turns ≤ 46) :
    RunsExactly (scaleByTwo turns ⟨1 / 2 ^ done, 2 ^ done⟩)
      ⟨1 / 2 ^ (done + turns), 2 ^ (done + turns)⟩ := by
  induction turns generalizing done with
  | zero => exact Computes.pure _
  | succ turns ih =>
      have halved : (1 : Rat) / 2 * (1 / 2 ^ done) = 1 / 2 ^ (done + 1) := by
        rw [pow_succ]
        field_simp
      have doubled : (2 : Rat) * 2 ^ done = 2 ^ (done + 1) := by
        rw [pow_succ]
        ring
      have whole : ExactDouble ((2 : Rat) ^ (done + 1)) := by
        have small : 2 ^ (done + 1) < 2 ^ 53 := Nat.pow_lt_pow_right (by decide) (by omega)
        exact_mod_cast ExactDouble.natural small
      have further := ih (done + 1) (by omega)
      rw [show done + 1 + turns = done + (turns + 1) by omega] at further
      unfold scaleByTwo
      refine Computes.bind (Computes.operation halved (.power (by omega))) ?_
      refine Computes.bind (Computes.operation doubled whole) ?_
      exact further

open FloatProgram in
theorem randlc_constants_run {statics : Option RandlcConstants}
    (prepared : PreparedStatics statics) :
    RunsExactly (randlcConstants statics) powerConstants := by
  rcases prepared with rfl | rfl
  · have start : (⟨1, 1⟩ : PowerPair) = ⟨1 / 2 ^ 0, 2 ^ 0⟩ := by norm_num
    unfold randlcConstants
    rw [start]
    refine Computes.bind (scale_by_two_runs 23 0 (by decide)) ?_
    refine Computes.bind (scale_by_two_runs 46 0 (by decide)) ?_
    exact Computes.pure _
  · exact Computes.pure _

open FloatProgram in
/-- Splitting a natural number at a power of two. -/
theorem split_double_runs {scale value : Nat} (scaled : scale = 23 ∨ scale = 46)
    (small : value < 2 ^ 53) (narrow : value / 2 ^ scale < 2 ^ 31) :
    RunsExactly (splitDouble (1 / 2 ^ scale) (2 ^ scale) value)
      ⟨(value / 2 ^ scale : Nat), (value % 2 ^ scale : Nat)⟩ := by
  have below : 2 ^ scale * (value / 2 ^ scale) ≤ value := Nat.mul_div_le value (2 ^ scale)
  have split := Nat.div_add_mod value (2 ^ scale)
  have quotient : (1 : Rat) / 2 ^ scale * value = (value : Rat) / 2 ^ scale := by
    field_simp
  have truncated : truncate ((value : Rat) / 2 ^ scale) = (value / 2 ^ scale : Nat) := by
    rw [← truncate_quotient]
    push_cast
    rfl
  have fits : FitsInt ((value / 2 ^ scale : Nat) : Int) := by
    generalize value / 2 ^ scale = high at narrow
    constructor <;> omega
  have high : (((value / 2 ^ scale : Nat) : Int) : Rat) = ((value / 2 ^ scale : Nat) : Rat) := by
    push_cast
    rfl
  have multiple : (2 : Rat) ^ scale * ((value / 2 ^ scale : Nat) : Rat) =
      ((2 ^ scale * (value / 2 ^ scale) : Nat) : Rat) := by
    push_cast
    rfl
  have remainder : (value : Rat) - ((2 ^ scale * (value / 2 ^ scale) : Nat) : Rat) =
      ((value % 2 ^ scale : Nat) : Rat) := by
    rw [← Nat.cast_sub below]
    congr 1
    omega
  unfold splitDouble
  refine Computes.bind (Computes.operation quotient (.scaled scaled small)) ?_
  refine Computes.bind (Computes.conversion truncated fits) ?_
  refine Computes.bind (Computes.operation high (.natural (by omega))) ?_
  refine Computes.bind (Computes.operation multiple (.natural (by omega))) ?_
  refine Computes.bind (Computes.operation remainder (.natural (by omega))) ?_
  exact Computes.pure _

/-- The product of two numbers modulo a square, from the halves of both. The product of
the high halves is a multiple of the square, and so is the part of the mixed sum that is
dropped. -/
theorem product_from_halves (half a x : Nat) :
    (half * ((a / half * (x % half) + a % half * (x / half)) % half) +
      a % half * (x % half)) % (half * half) = a * x % (half * half) := by
  generalize mixedSum : a / half * (x % half) + a % half * (x / half) = mixed
  have product : a * x = half * (mixed % half) + a % half * (x % half) +
      half * half * (a / half * (x / half) + mixed / half) := by
    calc a * x
        = (half * (a / half) + a % half) * (half * (x / half) + x % half) := by
          rw [Nat.div_add_mod, Nat.div_add_mod]
      _ = half * half * (a / half * (x / half)) + half * mixed + a % half * (x % half) := by
          rw [← mixedSum]
          ring
      _ = half * half * (a / half * (x / half)) + half * (half * (mixed / half) + mixed % half) +
            a % half * (x % half) := by rw [Nat.div_add_mod mixed half]
      _ = half * (mixed % half) + a % half * (x % half) +
            half * half * (a / half * (x / half) + mixed / half) := by ring
  rw [product, Nat.add_mul_mod_self_left]

/-- The bounds that keep the partial products within 46 bits. -/
theorem half_products_bounded {a x : Nat} (aBound : a < 2 ^ 46) (xBound : x < 2 ^ 46) :
    a / 2 ^ 23 * (x % 2 ^ 23) < 2 ^ 46 ∧ a % 2 ^ 23 * (x / 2 ^ 23) < 2 ^ 46 ∧
      a % 2 ^ 23 * (x % 2 ^ 23) < 2 ^ 46 := by
  have bound : ∀ first second : Nat, first < 2 ^ 23 → second < 2 ^ 23 →
      first * second < 2 ^ 46 := by
    intro first second firstBound secondBound
    calc first * second
        < 2 ^ 23 * 2 ^ 23 := Nat.mul_lt_mul'' firstBound secondBound
      _ = 2 ^ 46 := by norm_num
  have aHigh : a / 2 ^ 23 < 2 ^ 23 := by omega
  have xHigh : x / 2 ^ 23 < 2 ^ 23 := by omega
  have aLow : a % 2 ^ 23 < 2 ^ 23 := Nat.mod_lt _ (by decide)
  have xLow : x % 2 ^ 23 < 2 ^ 23 := Nat.mod_lt _ (by decide)
  exact ⟨bound _ _ aHigh xLow, bound _ _ aLow xHigh, bound _ _ aLow xLow⟩

section Runs

variable {Variable : Type} [DecidableEq Variable]

/-- The memory after `randlc` has written `updated` to the seed. -/
def DoubleMemory.advanced (memory : DoubleMemory Variable) (seed : Variable) (updated : Nat) :
    DoubleMemory Variable :=
  { memory with statics := some powerConstants }.store seed updated

open FloatProgram in
theorem randlc_runs {memory : DoubleMemory Variable} (prepared : PreparedStatics memory.statics)
    {seed multiplier : Variable} {x a : Nat} (xBound : x < 2 ^ 46) (aBound : a < 2 ^ 46)
    (seedValue : memory.doubles seed = x) (multiplierValue : memory.doubles multiplier = a) :
    RunsExactly (randlc memory seed multiplier)
      ⟨memory.advanced seed (a * x % 2 ^ 46), ((a * x % 2 ^ 46 : Nat) : Rat) / 2 ^ 46⟩ := by
  obtain ⟨highLow, lowHigh, lowLow⟩ := half_products_bounded aBound xBound
  have a1x2 : ((a / 2 ^ 23 : Nat) : Rat) * (x % 2 ^ 23 : Nat) = (a / 2 ^ 23 * (x % 2 ^ 23) : Nat) :=
    (Nat.cast_mul _ _).symm
  have a2x1 : ((a % 2 ^ 23 : Nat) : Rat) * (x / 2 ^ 23 : Nat) = (a % 2 ^ 23 * (x / 2 ^ 23) : Nat) :=
    (Nat.cast_mul _ _).symm
  have a2x2 : ((a % 2 ^ 23 : Nat) : Rat) * (x % 2 ^ 23 : Nat) = (a % 2 ^ 23 * (x % 2 ^ 23) : Nat) :=
    (Nat.cast_mul _ _).symm
  have reduced := product_from_halves (2 ^ 23) a x
  -- The mixed sum and the sum that is reduced last have 47 bits at most.
  generalize a / 2 ^ 23 * (x % 2 ^ 23) = mixedHigh at *
  generalize a % 2 ^ 23 * (x / 2 ^ 23) = mixedLow at *
  generalize a % 2 ^ 23 * (x % 2 ^ 23) = lowProduct at *
  have t1 : (mixedHigh : Rat) + mixedLow = (mixedHigh + mixedLow : Nat) := (Nat.cast_add _ _).symm
  have mixedBound : mixedHigh + mixedLow < 2 ^ 47 := by omega
  generalize mixedHigh + mixedLow = mixed at *
  have remainderBound : mixed % 2 ^ 23 < 2 ^ 23 := Nat.mod_lt _ (by decide)
  have t23z : (2 : Rat) ^ 23 * (mixed % 2 ^ 23 : Nat) = (2 ^ 23 * (mixed % 2 ^ 23) : Nat) := by
    push_cast
    rfl
  have t3 : ((2 ^ 23 * (mixed % 2 ^ 23) : Nat) : Rat) + lowProduct =
      (2 ^ 23 * (mixed % 2 ^ 23) + lowProduct : Nat) := (Nat.cast_add _ _).symm
  have totalBound : 2 ^ 23 * (mixed % 2 ^ 23) + lowProduct < 2 ^ 47 := by omega
  generalize 2 ^ 23 * (mixed % 2 ^ 23) + lowProduct = total at *
  have small : a * x % 2 ^ 46 < 2 ^ 53 :=
    (Nat.mod_lt _ (by decide)).trans (Nat.pow_lt_pow_right (by decide) (by decide))
  have remainder : total % 2 ^ 46 = a * x % 2 ^ 46 := by
    rw [← pow_add] at reduced
    exact reduced
  have returned :
      (1 : Rat) / 2 ^ 46 * (a * x % 2 ^ 46 : Nat) = (a * x % 2 ^ 46 : Nat) / 2 ^ 46 := by
    field_simp
  unfold randlc
  rw [seedValue, multiplierValue]
  refine Computes.bind (randlc_constants_run prepared) ?_
  refine Computes.bind (split_double_runs (.inl rfl) (by omega) (by omega)) ?_
  refine Computes.bind (split_double_runs (.inl rfl) (by omega) (by omega)) ?_
  refine Computes.bind (Computes.operation a1x2 (.natural (by omega))) ?_
  refine Computes.bind (Computes.operation a2x1 (.natural (by omega))) ?_
  refine Computes.bind (Computes.operation t1 (.natural (by omega))) ?_
  refine Computes.bind (split_double_runs (.inl rfl) (by omega) (by omega)) ?_
  refine Computes.bind (Computes.operation t23z (.natural (by omega))) ?_
  refine Computes.bind (Computes.operation a2x2 (.natural (by omega))) ?_
  refine Computes.bind (Computes.operation t3 (.natural (by omega))) ?_
  refine Computes.bind (split_double_runs (.inr rfl) (by omega) (by omega)) ?_
  rw [remainder]
  refine Computes.bind (Computes.operation ?_ (.scaled (.inr rfl) small)) ?_
  · simp only [DoubleMemory.store, Function.update_self]
    exact returned
  · exact Computes.pure _

/-- `randlc` is exact modular multiplication, also when the seed is the multiplier. The
double evaluation does not differ from the rational one, in any rounding mode. -/
theorem randlc_multiplies (memory : DoubleMemory Variable)
    (prepared : PreparedStatics memory.statics) (seed multiplier : Variable) (x a : Nat)
    (xBound : x < 2 ^ 46) (aBound : a < 2 ^ 46)
    (seedValue : memory.doubles seed = x) (multiplierValue : memory.doubles multiplier = a)
    (mode : RoundingMode) :
    (randlc memory seed multiplier).exact.result.memory.doubles =
        Function.update memory.doubles seed ((a * x % 2 ^ 46 : Nat) : Rat) ∧
      (multiplier ≠ seed →
        (randlc memory seed multiplier).exact.result.memory.doubles multiplier = a) ∧
      PreparedStatics (randlc memory seed multiplier).exact.result.memory.statics ∧
      (randlc memory seed multiplier).exact.result.value =
        (randlc memory seed multiplier).exact.result.memory.doubles seed / 2 ^ 46 ∧
      0 ≤ (randlc memory seed multiplier).exact.result.value ∧
      (randlc memory seed multiplier).exact.result.value < 1 ∧
      (∀ integer ∈ (randlc memory seed multiplier).exact.converted, FitsInt integer) ∧
      (∀ value ∈ (randlc memory seed multiplier).exact.operated, ExactDouble value) ∧
      (randlc memory seed multiplier).run (roundDigits 53 mode) =
        (randlc memory seed multiplier).exact := by
  obtain ⟨operated, converted, result⟩ :=
    randlc_runs prepared xBound aBound seedValue multiplierValue
  have small : a * x % 2 ^ 46 < 2 ^ 46 := Nat.mod_lt _ (by decide)
  have below : ((a * x % 2 ^ 46 : Nat) : Rat) < 2 ^ 46 := by exact_mod_cast small
  rw [result]
  refine ⟨rfl, ?_, .inr rfl, ?_, ?_, ?_, converted, operated, ?_⟩
  · intro distinct
    exact (Function.update_of_ne distinct _ _).trans multiplierValue
  · simp [DoubleMemory.advanced, DoubleMemory.store]
  · exact div_nonneg (Nat.cast_nonneg _) (by norm_num)
  · rw [div_lt_one (by norm_num)]
    exact below
  · exact FloatProgram.run_eq_exact _ _ fun value inside =>
      round_exact_double mode (operated value inside)

/-- A first call in which one variable is both the seed and the multiplier. -/
theorem randlc_squares_largest :
    let memory : DoubleMemory Unit := ⟨fun _ => ((2 ^ 46 - 1 : Nat) : Rat), none⟩
    (randlc memory () ()).exact.result.memory.doubles () = 1 ∧
      (randlc memory () ()).run (roundDigits 53 .downward) = (randlc memory () ()).exact := by
  intro memory
  obtain ⟨written, _, _, _, _, _, _, _, same⟩ :=
    randlc_multiplies memory (.inl rfl) () () (2 ^ 46 - 1) (2 ^ 46 - 1) (by decide) (by decide)
      rfl rfl .downward
  refine ⟨?_, same⟩
  rw [written, Function.update_self]
  norm_num

end Runs

end IntegerSortLci.Benchmark
