import Mathlib.Algebra.BigOperators.Group.List.Basic
import Mathlib.Data.List.Basic

/-!
# Transition systems with permitted actions

A system answers an action with the next state or refuses it. Reachability is
relative to a permission on (state, action) pairs, so one system serves both a
statement about every run and one about the runs whose steps meet a condition.
`run` executes a list of actions, which is how a concrete run is exhibited.
-/

namespace IntegerSortLci.Foundations

set_option autoImplicit false

variable {State Action : Type*}

/-- `step state action` is `none` when the action is not enabled. -/
structure TransitionSystem (State Action : Type*) where
  step : State → Action → Option State

namespace TransitionSystem

inductive Reachable (system : TransitionSystem State Action)
    (permitted : State → Action → Prop) (start : State) : State → Prop where
  | start : Reachable system permitted start start
  | next {state state' : State} {action : Action}
      (prior : Reachable system permitted start state)
      (allowed : permitted state action)
      (stepped : system.step state action = some state') :
      Reachable system permitted start state'

variable {system : TransitionSystem State Action}
variable {permitted : State → Action → Prop} {start state : State}

/-- The invariant rule: what holds at the start and survives every permitted
step from a reachable state holds at every reachable state. -/
theorem Reachable.invariant {Good : State → Prop}
    (reached : system.Reachable permitted start state) (initial : Good start)
    (preserved : ∀ {before after action}, system.Reachable permitted start before →
      Good before → permitted before action →
      system.step before action = some after → Good after) :
    Good state := by
  induction reached with
  | start => exact initial
  | next prior allowed stepped ih => exact preserved prior ih allowed stepped

theorem Reachable.trans {middle : State}
    (first : system.Reachable permitted start middle)
    (second : system.Reachable permitted middle state) :
    system.Reachable permitted start state := by
  induction second with
  | start => exact first
  | next prior allowed stepped ih => exact ih.next allowed stepped

theorem Reachable.mono {allowed : State → Action → Prop}
    (reached : system.Reachable permitted start state)
    (weaker : ∀ before action, permitted before action → allowed before action) :
    system.Reachable allowed start state := by
  induction reached with
  | start => exact .start
  | next prior granted stepped ih => exact ih.next (weaker _ _ granted) stepped

/-- Executes actions from left to right and stops at the first refusal. -/
def run (system : TransitionSystem State Action) : State → List Action → Option State
  | state, [] => some state
  | state, action :: rest => (system.step state action).bind fun next => run system next rest

/-- Every action of the list is permitted in the state the run reaches before it. -/
def PermittedRun (system : TransitionSystem State Action) (permitted : State → Action → Prop) :
    State → List Action → Prop
  | _, [] => True
  | state, action :: rest =>
      permitted state action ∧
        ∀ next, system.step state action = some next → PermittedRun system permitted next rest

theorem run_reachable {actions : List Action}
    (executed : system.run start actions = some state)
    (allowed : system.PermittedRun permitted start actions) :
    system.Reachable permitted start state := by
  induction actions generalizing start with
  | nil =>
      obtain rfl : start = state := Option.some.inj executed
      exact .start
  | cons action rest ih =>
      obtain ⟨next, stepped, continued⟩ := Option.bind_eq_some_iff.mp executed
      have first : system.Reachable permitted start next :=
        Reachable.start.next allowed.1 stepped
      exact first.trans (ih continued (allowed.2 next stepped))

theorem permitted_run_of_all {actions : List Action}
    (all : ∀ before, ∀ action ∈ actions, permitted before action) :
    system.PermittedRun permitted start actions := by
  induction actions generalizing start with
  | nil => trivial
  | cons action rest ih =>
      refine ⟨all start action List.mem_cons_self, ?_⟩
      intro next _
      apply ih
      intro before other member
      exact all before other (List.mem_cons_of_mem _ member)

/-- What a run ends in is reachable when everything is permitted. -/
theorem any_run_reachable {actions : List Action}
    (executed : system.run start actions = some state) :
    system.Reachable (fun _ _ => True) start state :=
  run_reachable executed (permitted_run_of_all fun _ _ _ => trivial)

/-- A permitted run whose actions also meet a condition of their own. -/
theorem PermittedRun.and_all {actions : List Action} {good : Action → Prop}
    (allowed : system.PermittedRun permitted start actions)
    (all : ∀ action ∈ actions, good action) :
    system.PermittedRun (fun before action => permitted before action ∧ good action) start
      actions := by
  induction actions generalizing start with
  | nil => trivial
  | cons action rest ih =>
      refine ⟨⟨allowed.1, all action List.mem_cons_self⟩, ?_⟩
      intro next stepped
      exact ih (allowed.2 next stepped) fun other member =>
        all other (List.mem_cons_of_mem _ member)

/-- A quantity to which every action adds its own amount adds them up over a run. -/
theorem run_total {Total : Type*} [AddMonoid Total] (total : State → Total)
    (amount : Action → Total) {good : Action → Prop}
    (adds : ∀ {before action after}, system.step before action = some after → good action →
      total after = total before + amount action)
    {actions : List Action} (executed : system.run start actions = some state)
    (all : ∀ action ∈ actions, good action) :
    total state = total start + (actions.map amount).sum := by
  induction actions generalizing start with
  | nil =>
      obtain rfl : start = state := Option.some.inj executed
      rw [List.map_nil, List.sum_nil, add_zero]
  | cons action rest ih =>
      obtain ⟨next, stepped, continued⟩ := Option.bind_eq_some_iff.mp executed
      have first := adds stepped (all action List.mem_cons_self)
      have later := ih continued fun other member => all other (List.mem_cons_of_mem _ member)
      rw [later, first, List.map_cons, List.sum_cons, add_assoc]

/-- A measure that some actions lower, and that no other one raises, bounds how often they
come in a run. -/
theorem run_counted_bounded {measure : State → Nat} {counted : Action → Bool}
    (lowers : ∀ {before action after}, system.step before action = some after →
      (measure after + if counted action then 1 else 0) ≤ measure before)
    {actions : List Action} (executed : system.run start actions = some state) :
    actions.countP counted + measure state ≤ measure start := by
  induction actions generalizing start with
  | nil =>
      obtain rfl : start = state := Option.some.inj executed
      exact Nat.le_of_eq (Nat.zero_add _)
  | cons action rest ih =>
      obtain ⟨next, stepped, continued⟩ := Option.bind_eq_some_iff.mp executed
      have lower := lowers stepped
      have bound := ih continued
      rw [List.countP_cons]
      omega

/-- A measure that every step lowers bounds the length of a run. -/
theorem run_length_bounded {measure : State → Nat}
    (lowers : ∀ {before action after}, system.step before action = some after →
      measure after < measure before)
    {actions : List Action} (executed : system.run start actions = some state) :
    actions.length + measure state ≤ measure start := by
  have counted : actions.countP (fun _ => true) + measure state ≤ measure start :=
    run_counted_bounded (fun stepped => lowers stepped) executed
  rwa [List.countP_true] at counted

/-- What can always be brought closer can be reached. -/
theorem goal_reachable {goal : State → Prop} (measure : State → Nat)
    (progress : ∀ {before}, system.Reachable permitted start before → ¬ goal before →
      ∃ after, system.Reachable permitted before after ∧ measure after < measure before) :
    ∃ final, system.Reachable permitted start final ∧ goal final := by
  have within : ∀ bound state, measure state ≤ bound → system.Reachable permitted start state →
      ∃ final, system.Reachable permitted start final ∧ goal final := by
    intro bound
    induction bound with
    | zero =>
        intro state least reached
        by_cases arrived : goal state
        · exact ⟨state, reached, arrived⟩
        · obtain ⟨after, -, lower⟩ := progress reached arrived
          omega
    | succ bound ih =>
        intro state bounded reached
        by_cases arrived : goal state
        · exact ⟨state, reached, arrived⟩
        · obtain ⟨after, continued, lower⟩ := progress reached arrived
          exact ih after (by omega) (reached.trans continued)
  exact within (measure start) start (Nat.le_refl _) .start

end TransitionSystem
end IntegerSortLci.Foundations
