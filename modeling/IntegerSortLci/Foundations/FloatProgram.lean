import Mathlib.Data.Int.Log
import Mathlib.Data.Rat.Floor
import Mathlib.Algebra.Order.Field.Power
import Mathlib.Tactic.FieldSimp
import Mathlib.Tactic.Ring

/-!
# Floating point programs

A program that computes with floating point numbers, as a tree of its operations. Each
operation hands its exact rational result to the machine, which rounds it, and the
program goes on with what the machine returns. A conversion to an integer drops the
fraction.

The same program can be run with rational arithmetic, where nothing is rounded, and on
a machine that keeps a bounded number of binary digits. Where the rational run only
produces numbers that the machine can hold, the two runs are the same.
-/

namespace IntegerSortLci.Foundations

set_option autoImplicit false

inductive FloatProgram (α : Type) where
  | done (result : α)
  | operate (exact : Rat) (next : Rat → FloatProgram α)
  | convert (value : Rat) (next : Int → FloatProgram α)

/-- Conversion to an integer, towards zero. -/
def truncate (value : Rat) : Int :=
  if 0 ≤ value then ⌊value⌋ else ⌈value⌉

/-- What a run returns, with the exact result of every operation and every integer it
converted to. -/
structure FloatRun (α : Type) where
  result : α
  operated : List Rat
  converted : List Int

theorem truncate_quotient (numerator denominator : Nat) :
    truncate ((numerator : Rat) / denominator) = (numerator / denominator : Nat) := by
  have nonnegative : (0 : Rat) ≤ (numerator : Rat) / denominator := by positivity
  unfold truncate
  rw [if_pos nonnegative, ← Int.cast_natCast numerator, Rat.floor_intCast_div_natCast]
  rfl

namespace FloatProgram

variable {α β : Type}

def sequence : FloatProgram α → (α → FloatProgram β) → FloatProgram β
  | .done result, next => next result
  | .operate exact rest, next => .operate exact fun value => (rest value).sequence next
  | .convert value rest, next =>
      .convert value fun integer => (rest integer).sequence next

instance : Monad FloatProgram where
  pure := .done
  bind := .sequence

def multiply (first second : Rat) : FloatProgram Rat :=
  .operate (first * second) .done

def add (first second : Rat) : FloatProgram Rat :=
  .operate (first + second) .done

def subtract (first second : Rat) : FloatProgram Rat :=
  .operate (first - second) .done

def toInteger (value : Rat) : FloatProgram Int :=
  .convert value .done

def ofInteger (integer : Int) : FloatProgram Rat :=
  .operate integer .done

/-- The run on a machine that rounds the result of each operation with `round`. -/
def run (round : Rat → Rat) : FloatProgram α → FloatRun α
  | .done result => ⟨result, [], []⟩
  | .operate exact next =>
      let rest := (next (round exact)).run round
      { rest with operated := exact :: rest.operated }
  | .convert value next =>
      let rest := (next (truncate value)).run round
      { rest with converted := truncate value :: rest.converted }

/-- The run with rational arithmetic. -/
def exact (program : FloatProgram α) : FloatRun α :=
  program.run id

variable (round : Rat → Rat)

theorem run_pure (result : α) : (pure result : FloatProgram α).run round = ⟨result, [], []⟩ :=
  rfl

theorem run_bind (program : FloatProgram α) (next : α → FloatProgram β) :
    (program >>= next).run round =
      ⟨((next (program.run round).result).run round).result,
        (program.run round).operated ++ ((next (program.run round).result).run round).operated,
        (program.run round).converted ++
          ((next (program.run round).result).run round).converted⟩ := by
  change (program.sequence next).run round = _
  induction program with
  | done result => rfl
  | operate exact rest ih =>
      simp only [sequence, run, ih, List.cons_append]
  | convert value rest ih =>
      simp only [sequence, run, ih, List.cons_append]

@[simp]
theorem exact_pure (result : α) : (pure result : FloatProgram α).exact.result = result :=
  rfl

@[simp]
theorem exact_bind (program : FloatProgram α) (next : α → FloatProgram β) :
    (program >>= next).exact.result = (next program.exact.result).exact.result := by
  unfold exact
  rw [run_bind]

@[simp]
theorem exact_multiply (first second : Rat) :
    (multiply first second).exact.result = first * second :=
  rfl

@[simp]
theorem exact_add (first second : Rat) : (add first second).exact.result = first + second :=
  rfl

@[simp]
theorem exact_to_integer (value : Rat) : (toInteger value).exact.result = truncate value :=
  rfl

@[simp]
theorem exact_of_integer (integer : Int) : (ofInteger integer).exact.result = integer :=
  rfl

/-- A machine that changes none of the numbers that the rational run produces runs the
program as the rational arithmetic does. -/
theorem run_eq_exact (program : FloatProgram α)
    (holds : ∀ value ∈ program.exact.operated, round value = value) :
    program.run round = program.exact := by
  unfold exact at holds ⊢
  induction program with
  | done result => rfl
  | operate exact next ih =>
      have unchanged : round exact = exact := holds exact List.mem_cons_self
      have rest := ih exact fun value inside => holds value (List.mem_cons_of_mem _ inside)
      simp only [run, unchanged, rest, id]
  | convert value next ih =>
      simp only [run, ih (truncate value) holds]

/-- The rational run returns `expected`, and every number it produces and every integer
it converts to meets a condition. -/
structure Computes (number : Rat → Prop) (integer : Int → Prop) (program : FloatProgram α)
    (expected : α) : Prop where
  operated : ∀ value ∈ program.exact.operated, number value
  converted : ∀ value ∈ program.exact.converted, integer value
  result : program.exact.result = expected

namespace Computes

variable {number : Rat → Prop} {integer : Int → Prop}

theorem pure (result : α) : Computes number integer (pure result) result :=
  ⟨by simp [exact, run_pure], by simp [exact, run_pure], rfl⟩

theorem bind {program : FloatProgram α} {next : α → FloatProgram β} {middle : α} {expected : β}
    (first : Computes number integer program middle)
    (second : Computes number integer (next middle) expected) :
    Computes number integer (program >>= next) expected := by
  obtain ⟨firstOperated, firstConverted, rfl⟩ := first
  refine ⟨?_, ?_, ?_⟩
  · intro value inside
    simp only [exact, run_bind, List.mem_append] at inside
    exact inside.elim (firstOperated value) (second.operated value)
  · intro value inside
    simp only [exact, run_bind, List.mem_append] at inside
    exact inside.elim (firstConverted value) (second.converted value)
  · rw [exact_bind]
    exact second.result

theorem operation {exact expected : Rat} (equal : exact = expected) (holds : number expected) :
    Computes number integer (.operate exact .done) expected := by
  subst equal
  exact ⟨by simpa [FloatProgram.exact, run] using holds, by simp [FloatProgram.exact, run], rfl⟩

theorem conversion {value : Rat} {expected : Int} (equal : truncate value = expected)
    (fits : integer expected) : Computes number integer (toInteger value) expected := by
  subst equal
  exact ⟨by simp [toInteger, exact, run], by simpa [toInteger, exact, run] using fits, rfl⟩

end Computes

end FloatProgram

/-! ## Numbers with a bounded number of binary digits -/

/-- `value` is an integer of at most `digits` binary digits, times `2 ^ -scale`. -/
def HasDigits (digits scale : Nat) (value : Rat) : Prop :=
  ∃ mantissa : Int, |mantissa| < 2 ^ digits ∧ value = mantissa / 2 ^ scale

theorem HasDigits.of_nat {digits : Nat} (scale : Nat) {mantissa : Nat}
    (small : mantissa < 2 ^ digits) :
    HasDigits digits scale ((mantissa : Rat) / 2 ^ scale) := by
  refine ⟨mantissa, ?_, by simp⟩
  rw [abs_of_nonneg (Int.natCast_nonneg mantissa)]
  exact_mod_cast small

/-- A way of rounding to an integer. Every one leaves integers alone. -/
structure RoundingMode where
  nearby : Rat → Int
  integer : ∀ value : Int, nearby value = value

def RoundingMode.downward : RoundingMode where
  nearby := Int.floor
  integer := Int.floor_intCast

/-- The weight of the last of `digits` binary digits of a number of this size. -/
def lastPlace (digits : Nat) (value : Rat) : Rat :=
  2 ^ (Int.log 2 |value| - digits + 1)

/-- Rounding to `digits` binary digits. The exponent is not bounded. -/
def roundDigits (digits : Nat) (mode : RoundingMode) (value : Rat) : Rat :=
  mode.nearby (value / lastPlace digits value) * lastPlace digits value

theorem round_digits_fixes {digits scale : Nat} (mode : RoundingMode) {value : Rat}
    (held : HasDigits digits scale value) : roundDigits digits mode value = value := by
  obtain ⟨mantissa, bounded, rfl⟩ := held
  unfold roundDigits
  by_cases zero : mantissa = 0
  · subst zero
    have nearby := mode.integer 0
    simp only [Int.cast_zero] at nearby
    simp [nearby]
  -- The last digit kept is at or below the last digit of the mantissa.
  have magnitude : |(mantissa : Rat) / 2 ^ scale| < (2 : Rat) ^ ((digits : Int) - scale) := by
    have cast : |(mantissa : Rat)| < 2 ^ digits := by exact_mod_cast bounded
    rw [abs_div, abs_of_pos (show (0 : Rat) < 2 ^ scale by positivity), zpow_sub₀ (by norm_num),
      zpow_natCast, zpow_natCast]
    exact div_lt_div_of_pos_right cast (by positivity)
  have positive : 0 < |(mantissa : Rat) / 2 ^ scale| := by
    rw [abs_pos]
    have nonzero : (mantissa : Rat) ≠ 0 := by exact_mod_cast zero
    positivity
  have log := (Int.lt_zpow_iff_log_lt (by norm_num : 1 < 2) positive).mp
    (by simpa using magnitude)
  obtain ⟨shift, last⟩ : ∃ shift : Nat,
      Int.log 2 |(mantissa : Rat) / 2 ^ scale| - digits + 1 = -(scale : Int) - shift :=
    ⟨(-(scale : Int) - (Int.log 2 |(mantissa : Rat) / 2 ^ scale| - digits + 1)).toNat, by omega⟩
  have place : lastPlace digits ((mantissa : Rat) / 2 ^ scale) = 1 / (2 ^ scale * 2 ^ shift) := by
    unfold lastPlace
    rw [last, zpow_sub₀ (by norm_num), zpow_neg, zpow_natCast, zpow_natCast]
    field_simp
  rw [place]
  have whole : (mantissa : Rat) / 2 ^ scale / (1 / (2 ^ scale * 2 ^ shift)) =
      ((mantissa * 2 ^ shift : Int) : Rat) := by
    push_cast
    field_simp
  rw [whole, mode.integer]
  push_cast
  field_simp

end IntegerSortLci.Foundations
