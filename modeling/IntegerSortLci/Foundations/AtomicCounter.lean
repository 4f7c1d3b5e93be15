import Mathlib.Data.List.Range
import Mathlib.Logic.Function.Basic

/-!
# Handing out numbers with compare-and-exchange

Threads draw numbers from one counter: each loads the counter, and tries to
replace what it saw by the next number until that succeeds. Loads are relaxed,
so a load and a failed exchange may see any value the counter has had, and an
exchange may fail without a reason. A thread that sees the limit gives up. No
number is handed out twice, and the counter never passes the limit.
-/

namespace IntegerSortLci.Foundations

set_option autoImplicit false

variable {Thread : Type*}

/-- `expected` is the value a thread in the loop has seen last; `handed` are the
numbers handed out, in order. -/
structure SharedCounter (Thread : Type*) where
  value : Nat
  expected : Thread → Option Nat
  handed : List Nat

/-- How one turn of the loop ends. -/
inductive ExchangeOutcome where
  | again
  | exhausted
  | drawn (number : Nat)
  deriving DecidableEq, Repr

namespace SharedCounter

def initial (first : Nat) : SharedCounter Thread where
  value := first
  expected _ := none
  handed := []

variable [DecidableEq Thread]

/-- The load before the loop sees `seen`. -/
def load (first : Nat) (counter : SharedCounter Thread) (thread : Thread) (seen : Nat) :
    Option (SharedCounter Thread) :=
  if first ≤ seen ∧ seen ≤ counter.value then
    some { counter with expected := Function.update counter.expected thread (some seen) }
  else none

/-- One turn of the loop. A failed exchange sees `seen`. -/
def exchange (first limit : Nat) (counter : SharedCounter Thread) (thread : Thread)
    (spurious : Bool) (seen : Nat) : Option (SharedCounter Thread × ExchangeOutcome) :=
  match counter.expected thread with
  | none => none
  | some next =>
      if next = limit then
        some ({ counter with expected := Function.update counter.expected thread none }, .exhausted)
      else if next = counter.value ∧ spurious = false then
        some ({ value := next + 1
                expected := Function.update counter.expected thread none
                handed := counter.handed ++ [next] }, .drawn next)
      else if first ≤ seen ∧ seen ≤ counter.value then
        some ({ counter with expected := Function.update counter.expected thread (some seen) },
          .again)
      else none

/-- The numbers handed out are those from the first up to the counter. -/
structure Sound (first limit : Nat) (counter : SharedCounter Thread) : Prop where
  started : first ≤ counter.value
  limited : counter.value ≤ limit
  handed : counter.handed = List.range' first (counter.value - first)

variable {first limit : Nat} {counter counter' : SharedCounter Thread} {thread : Thread}

omit [DecidableEq Thread] in
theorem initial_sound (room : first ≤ limit) :
    Sound first limit (initial first : SharedCounter Thread) where
  started := Nat.le_refl first
  limited := room
  handed := by simp [initial]

omit [DecidableEq Thread] in
theorem Sound.unique (sound : Sound first limit counter) : counter.handed.Nodup := by
  rw [sound.handed]
  exact List.nodup_range'

omit [DecidableEq Thread] in
theorem Sound.below (sound : Sound first limit counter) {number : Nat}
    (member : number ∈ counter.handed) : first ≤ number ∧ number < counter.value := by
  rw [sound.handed, List.mem_range'_1] at member
  have started := sound.started
  omega

theorem load_cases {seen : Nat} (loaded : counter.load first thread seen = some counter') :
    counter' =
      { counter with expected := Function.update counter.expected thread (some seen) } := by
  unfold load at loaded
  split at loaded
  · exact (Option.some.inj loaded).symm
  · cases loaded

/-- A turn either draws the counter's value, which is below the limit, or leaves
the counter as it is. -/
theorem exchange_cases {spurious : Bool} {seen : Nat} {outcome : ExchangeOutcome}
    (turned : counter.exchange first limit thread spurious seen = some (counter', outcome)) :
    (outcome = .drawn counter.value ∧ counter.value ≠ limit ∧
        counter'.value = counter.value + 1 ∧
        counter'.handed = counter.handed ++ [counter.value]) ∨
      ((outcome = .again ∨ outcome = .exhausted) ∧ counter'.value = counter.value ∧
        counter'.handed = counter.handed) := by
  unfold exchange at turned
  split at turned
  case h_1 => cases turned
  case h_2 next loaded =>
      split at turned
      case isTrue atLimit =>
          obtain ⟨rfl, rfl⟩ := Prod.mk.inj (Option.some.inj turned)
          exact .inr ⟨.inr rfl, rfl, rfl⟩
      case isFalse below =>
          split at turned
          case isTrue current =>
              obtain ⟨rfl, rfl⟩ := Prod.mk.inj (Option.some.inj turned)
              obtain ⟨rfl, _⟩ := current
              exact .inl ⟨rfl, below, rfl, rfl⟩
          case isFalse stale =>
              split at turned
              · obtain ⟨rfl, rfl⟩ := Prod.mk.inj (Option.some.inj turned)
                exact .inr ⟨.inl rfl, rfl, rfl⟩
              · cases turned

/-- A thread that saw the limit gives up. -/
theorem exchange_limit {spurious : Bool} {seen : Nat} {outcome : ExchangeOutcome}
    (saw : counter.expected thread = some limit)
    (turned : counter.exchange first limit thread spurious seen = some (counter', outcome)) :
    outcome = .exhausted := by
  unfold exchange at turned
  rw [saw] at turned
  simp only [if_true] at turned
  exact (Prod.mk.inj (Option.some.inj turned)).2.symm

omit [DecidableEq Thread] in
/-- Only the counter's value and the numbers handed out matter. -/
theorem Sound.same (sound : Sound first limit counter) (value : counter'.value = counter.value)
    (handed : counter'.handed = counter.handed) : Sound first limit counter' where
  started := value ▸ sound.started
  limited := value ▸ sound.limited
  handed := by rw [handed, value, sound.handed]

theorem exchange_sound {spurious : Bool} {seen : Nat} {outcome : ExchangeOutcome}
    (sound : Sound first limit counter)
    (turned : counter.exchange first limit thread spurious seen = some (counter', outcome)) :
    Sound first limit counter' := by
  rcases exchange_cases turned with ⟨_, below, value, handed⟩ | ⟨_, value, handed⟩
  · have started := sound.started
    have limited := sound.limited
    refine ⟨by omega, by omega, ?_⟩
    have longer : counter.value + 1 - first = counter.value - first + 1 := by omega
    have last : first + (counter.value - first) = counter.value := by omega
    rw [handed, value, longer, List.range'_concat, Nat.one_mul, last, sound.handed]
  · exact sound.same value handed

/-- A drawn number is new. -/
theorem drawn_fresh {spurious : Bool} {seen number : Nat} (sound : Sound first limit counter)
    (turned : counter.exchange first limit thread spurious seen = some (counter', .drawn number)) :
    number ∉ counter.handed ∧ counter'.handed = counter.handed ++ [number] := by
  rcases exchange_cases turned with ⟨drawn, _, _, handed⟩ | ⟨not, _, _⟩
  · obtain rfl := ExchangeOutcome.drawn.inj drawn
    refine ⟨?_, handed⟩
    intro member
    exact Nat.lt_irrefl _ (sound.below member).2
  · rcases not with again | exhausted
    · cases again
    · cases exhausted

end SharedCounter
end IntegerSortLci.Foundations
