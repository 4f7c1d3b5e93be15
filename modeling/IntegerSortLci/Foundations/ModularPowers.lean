import Mathlib.Data.Int.ModEq
import Mathlib.Tactic.Ring

/-!
# Multiplicative congruential sequences

The sequence that starts at a seed and multiplies by a fixed ratio modulo a number. A
later place of it is reached in one jump by a power of the ratio, and the powers by
squaring.
-/

namespace IntegerSortLci.Foundations

set_option autoImplicit false

/-- The entry at `position` of the sequence from `seed`. -/
def powerSequence (modulus seed ratio position : Nat) : Nat :=
  seed * ratio ^ position % modulus

variable {modulus : Nat} (seed ratio : Nat)

theorem power_sequence_below (positive : 0 < modulus) (position : Nat) :
    powerSequence modulus seed ratio position < modulus :=
  Nat.mod_lt _ positive

theorem power_sequence_zero {seed : Nat} (reduced : seed < modulus) :
    powerSequence modulus seed ratio 0 = seed := by
  unfold powerSequence
  rw [pow_zero, Nat.mul_one, Nat.mod_eq_of_lt reduced]

theorem power_sequence_succ (position : Nat) :
    ratio * powerSequence modulus seed ratio position % modulus =
      powerSequence modulus seed ratio (position + 1) := by
  unfold powerSequence
  rw [Nat.mul_mod_mod, pow_succ]
  congr 1
  ring

/-- The sequence from an entry is the rest of the sequence. -/
theorem power_sequence_jump (first second : Nat) :
    powerSequence modulus (powerSequence modulus seed ratio first) ratio second =
      powerSequence modulus seed ratio (first + second) := by
  unfold powerSequence
  rw [Nat.mod_mul_mod, pow_add]
  congr 1
  ring

/-- A jump with a ratio that was itself reached by a power. -/
theorem power_sequence_power (exponent count : Nat) :
    powerSequence modulus seed (ratio ^ exponent % modulus) count =
      powerSequence modulus seed ratio (exponent * count) := by
  unfold powerSequence
  rw [pow_mul, Nat.mul_mod, ← Nat.pow_mod, ← Nat.mul_mod]

/-- Squaring the ratio halves the number of steps. -/
theorem power_sequence_square (half : Nat) :
    powerSequence modulus seed (ratio * ratio % modulus) half =
      powerSequence modulus seed ratio (2 * half) := by
  rw [← pow_two]
  exact power_sequence_power seed ratio 2 half

end IntegerSortLci.Foundations
