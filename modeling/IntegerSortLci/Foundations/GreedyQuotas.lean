import Mathlib.Order.Lattice

/-!
# Greedy quotas

A rising amount is handed to customers in order, at discrete times. At each time at
most one customer is served: the next one, when the amount has reached its target. How
many are served follows from the amounts alone, without running the process: serving
`count` customers takes `count` times, and the process is never ahead of serving them in
the last `count` ones.
-/

namespace IntegerSortLci.Foundations

set_option autoImplicit false

variable {Amount : Type*} [LinearOrder Amount]

/-- How many customers have been served after the first `time` times. -/
def served (target amount : Nat → Amount) : Nat → Nat
  | 0 => 0
  | time + 1 =>
      if target (served target amount time + 1) ≤ amount (time + 1) then
        served target amount time + 1
      else served target amount time

/-- The amount reaches the targets of `count` customers in the last `count` times. -/
def Reaches (target amount : Nat → Amount) (time count : Nat) : Prop :=
  ∀ back < count, target (count - back) ≤ amount (time - back)

instance (target amount : Nat → Amount) (time count : Nat) :
    Decidable (Reaches target amount time count) :=
  inferInstanceAs (Decidable (∀ back < count, target (count - back) ≤ amount (time - back)))

variable {target amount : Nat → Amount}

theorem reaches_zero (time : Nat) : Reaches target amount time 0 := by
  intro back none
  exact absurd none (Nat.not_lt_zero back)

theorem reaches_succ (time count : Nat) :
    Reaches target amount (time + 1) (count + 1) ↔
      target (count + 1) ≤ amount (time + 1) ∧ Reaches target amount time count := by
  constructor
  · intro reached
    refine ⟨reached 0 (Nat.succ_pos count), ?_⟩
    intro back inside
    have earlier := reached (back + 1) (Nat.succ_lt_succ inside)
    rw [Nat.add_sub_add_right, Nat.add_sub_add_right] at earlier
    exact earlier
  · rintro ⟨last, earlier⟩ back inside
    cases back with
    | zero => exact last
    | succ back =>
        rw [Nat.add_sub_add_right, Nat.add_sub_add_right]
        exact earlier back (Nat.lt_of_succ_lt_succ inside)

/-- Whoever is served has had its target reached. -/
theorem served_target (rising : Monotone amount) (start : target 0 ≤ amount 0) (time : Nat) :
    target (served target amount time) ≤ amount time := by
  induction time with
  | zero => exact start
  | succ time ih =>
      unfold served
      split
      case isTrue reached => exact reached
      case isFalse => exact ih.trans (rising (Nat.le_succ time))

/-- The number of served customers, from the amounts alone. -/
theorem le_served_iff (rising : Monotone amount) (targets : Monotone target)
    (start : target 0 ≤ amount 0) (empty : amount 0 < target 1) (time count : Nat) :
    count ≤ served target amount time ↔ Reaches target amount time count := by
  induction time generalizing count with
  | zero =>
      cases count with
      | zero => exact iff_of_true (Nat.le_refl 0) (reaches_zero 0)
      | succ count =>
          refine iff_of_false (Nat.not_succ_le_zero count) ?_
          intro reached
          have first : target 1 ≤ target (count + 1) := targets (Nat.succ_le_succ (Nat.zero_le _))
          exact absurd (first.trans (reached 0 (Nat.succ_pos count))) (not_le_of_gt empty)
  | succ time ih =>
      cases count with
      | zero => exact iff_of_true (Nat.zero_le _) (reaches_zero _)
      | succ count =>
          rw [reaches_succ, ← ih count]
          have before := served_target rising start time
          rw [served]
          split
          case isTrue reached =>
            constructor
            · intro more
              exact ⟨(targets more).trans reached, Nat.le_of_succ_le_succ more⟩
            · rintro ⟨-, more⟩
              exact Nat.succ_le_succ more
          case isFalse short =>
            constructor
            · intro more
              exact ⟨(targets more).trans (before.trans (rising (Nat.le_succ time))),
                Nat.le_of_succ_le more⟩
            · rintro ⟨last, more⟩
              rcases Nat.lt_or_eq_of_le more with further | same
              · exact further
              · rw [← same] at short
                exact absurd last short

/-- Exactly `count` customers are served. -/
theorem served_eq_iff (rising : Monotone amount) (targets : Monotone target)
    (start : target 0 ≤ amount 0) (empty : amount 0 < target 1) (time count : Nat) :
    served target amount time = count ↔
      Reaches target amount time count ∧ ¬Reaches target amount time (count + 1) := by
  rw [← le_served_iff rising targets start empty, ← le_served_iff rising targets start empty]
  omega

end IntegerSortLci.Foundations
