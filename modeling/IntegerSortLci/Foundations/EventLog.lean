import Mathlib.Algebra.BigOperators.Group.Finset.Basic
import Mathlib.Algebra.BigOperators.Group.List.Basic
import Mathlib.Algebra.GroupWithZero.Nat

/-!
# Event logs and what they add up to

A log only grows at its end. `EveryEvent` judges each event against the events
before it, `tally` adds a weight over the log, and `total_step` carries a total
over many logs through a step that extends one of them.
-/

namespace IntegerSortLci.Foundations

open scoped BigOperators

set_option autoImplicit false

variable {Event : Type*}

/-- `good before event` holds at each event of the log, `before` being the
events in front of it. -/
def EveryEvent (good : List Event → Event → Prop) (log : List Event) : Prop :=
  ∀ before event after, log = before ++ event :: after → good before event

theorem every_event_nil (good : List Event → Event → Prop) : EveryEvent good [] := by
  intro before event after split
  cases before <;> cases split

theorem every_event_concat (good : List Event → Event → Prop) (log : List Event)
    (event : Event) :
    EveryEvent good (log ++ [event]) ↔ EveryEvent good log ∧ good log event := by
  constructor
  · intro every
    constructor
    · intro before earlier after split
      apply every before earlier (after ++ [event])
      rw [split]
      simp
    · exact every log event [] rfl
  · rintro ⟨every, last⟩ before earlier after split
    rcases List.eq_nil_or_concat after with rfl | ⟨front, final, rfl⟩
    · obtain ⟨rfl, rfl⟩ := List.append_singleton_inj.mp split
      exact last
    · apply every before earlier front
      have regrouped : log ++ [event] = (before ++ earlier :: front) ++ [final] := by
        rw [split]
        simp
      exact (List.append_singleton_inj.mp regrouped).1

def tally (weight : Event → Nat) (log : List Event) : Nat := (log.map weight).sum

@[simp] theorem tally_nil (weight : Event → Nat) : tally weight [] = 0 := rfl

@[simp] theorem tally_cons (weight : Event → Nat) (event : Event) (log : List Event) :
    tally weight (event :: log) = weight event + tally weight log := rfl

@[simp] theorem tally_append (weight : Event → Nat) (first second : List Event) :
    tally weight (first ++ second) = tally weight first + tally weight second := by
  simp [tally]

theorem tally_zero {weight : Event → Nat} {log : List Event}
    (zero : ∀ event ∈ log, weight event = 0) : tally weight log = 0 := by
  induction log with
  | nil => rfl
  | cons event rest ih =>
      rw [tally_cons, zero event List.mem_cons_self,
        ih fun other member => zero other (List.mem_cons_of_mem _ member)]

theorem tally_congr {first second : Event → Nat} {log : List Event}
    (same : ∀ event ∈ log, first event = second event) : tally first log = tally second log := by
  unfold tally
  rw [List.map_congr_left same]

theorem tally_add (first second : Event → Nat) (log : List Event) :
    tally (fun event => first event + second event) log = tally first log + tally second log := by
  induction log with
  | nil => rfl
  | cons event rest ih =>
      rw [tally_cons, tally_cons, tally_cons, ih]
      omega

theorem tally_sum {Index : Type*} [Fintype Index] (weights : Index → Event → Nat)
    (log : List Event) :
    tally (fun event => ∑ index, weights index event) log = ∑ index, tally (weights index) log := by
  induction log with
  | nil => simp
  | cons event rest ih => simp only [tally_cons, ih, Finset.sum_add_distrib]

theorem tally_mul (weight : Event → Nat) (factor : Nat) (log : List Event) :
    tally (fun event => weight event * factor) log = tally weight log * factor := by
  induction log with
  | nil => simp
  | cons event rest ih => rw [tally_cons, tally_cons, ih, Nat.add_mul]

theorem length_flat_map {Value : Type*} (select : Event → List Value) (log : List Event) :
    (log.flatMap select).length = tally (fun event => (select event).length) log :=
  List.length_flatMap

/-- A total over an index type after a step that changes one summand. -/
theorem total_step {Index Value : Type*} [Fintype Index] [DecidableEq Index]
    [AddCommMonoid Value] {before after : Index → Value} (index : Index) (delta : Value)
    (changed : after index = before index + delta)
    (same : ∀ other, other ≠ index → after other = before other) :
    ∑ other, after other = (∑ other, before other) + delta := by
  rw [← Finset.add_sum_erase Finset.univ after (Finset.mem_univ index),
    ← Finset.add_sum_erase Finset.univ before (Finset.mem_univ index), changed]
  have rest : ∑ other ∈ Finset.univ.erase index, after other =
      ∑ other ∈ Finset.univ.erase index, before other := by
    apply Finset.sum_congr rfl
    intro other member
    exact same other (Finset.ne_of_mem_erase member)
  rw [rest, add_right_comm]

end IntegerSortLci.Foundations
