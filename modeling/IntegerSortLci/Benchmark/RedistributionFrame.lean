import IntegerSortLci.Benchmark.Redistribution

/-!
# What a step of the redistribution leaves alone

A step of one rank changes nothing on the others, and between `set_am_handler` and
`clear_am_handler` it either keeps the rank's AM state or takes one step of it.
-/

namespace IntegerSortLci.Benchmark

open IntegerSortLci.Runtime IntegerSortLci.Foundations

set_option autoImplicit false

variable {commSize : Nat} {Worker Memory : Type} [Fintype Worker] [DecidableEq Worker]
variable {input : RankInput commSize Worker Memory} {rank other : Fin commSize}
variable {state state' : Redistribution commSize Worker Memory}
variable {action : RedistributionAction commSize Worker Memory}

/-- The actions that neither begin nor end a phase. -/
def RedistributionAction.isInside : RedistributionAction commSize Worker Memory → Bool
  | .setAmHandler _ _ | .clearAmHandler _ => false
  | _ => true

theorem redistribution_step_frame (step : RedistributionStep input state rank action state')
    (different : other ≠ rank) : state'.ranks other = state.ranks other := by
  have moved : ∀ next : RankState commSize Worker Memory,
      Function.update state.ranks rank next other = state.ranks other :=
    fun next => Function.update_of_ne different next state.ranks
  cases step with
  | barrierProgress action state' waiting allowed called =>
      obtain ⟨am, next, -, -, rfl⟩ := call_am_cases called
      exact moved _
  | post worker key remaining state' working posting called =>
      obtain ⟨am, next, -, -, rfl⟩ := call_am_cases called
      exact moved _
  | flush worker state' working posted called =>
      obtain ⟨am, next, -, -, rfl⟩ := call_am_cases called
      exact moved _
  | progress worker state' working progressing called =>
      obtain ⟨am, next, -, -, rfl⟩ := call_am_cases called
      exact moved _
  | inner worker action state' working allowed called =>
      obtain ⟨am, next, -, -, rfl⟩ := call_am_cases called
      exact moved _
  | deliver thread sent index state' delivered =>
      obtain ⟨am, next, message, -, -, -, -, rfl⟩ := deliver_am_cases delivered
      exact moved _
  | stray | unflushed => rfl
  | _ => exact moved _

/-- A rank within one phase: it stays in it, and its AM state stays or takes a step. -/
structure WithinPhase (input : RankInput commSize Worker Memory)
    (before after : RankState commSize Worker Memory) : Prop where
  phase : after.phase = before.phase
  stage : after.stage = .outside ↔ before.stage = .outside
  moved : after.amState = before.amState ∨ ∃ am next call, before.amState = some am ∧
    am.step input.config input.handler call = some next ∧ after.amState = some next

omit [Fintype Worker] in
theorem with_am_within {am next : PhaseState commSize Worker Nat Memory}
    {call : Option Worker × Action commSize Nat} (present : (state.ranks rank).amState = some am)
    (moved : am.step input.config input.handler call = some next)
    (workers : Worker → WorkerStage) (sent : Nat) (messages : List (Message commSize Nat)) :
    WithinPhase input (state.ranks rank)
      ((state.withAm rank next workers sent messages).ranks rank) := by
  unfold Redistribution.withAm
  dsimp only
  rw [Function.update_self]
  exact ⟨rfl, Iff.rfl, .inr ⟨am, next, call, present, moved, rfl⟩⟩

theorem redistribution_step_within (step : RedistributionStep input state rank action state')
    (inside : action.isInside = true) :
    WithinPhase input (state.ranks rank) (state'.ranks rank) := by
  cases step with
  | setAmHandler => cases inside
  | barrierProgress action state' waiting allowed called =>
      obtain ⟨am, next, present, moved, rfl⟩ := call_am_cases called
      exact with_am_within present moved _ _ _
  | leaveBarrier waiting all =>
      unfold Redistribution.leaveBarrier
      dsimp only
      rw [Function.update_self]
      refine ⟨rfl, ?_, .inl rfl⟩
      rw [waiting]
      exact ⟨nofun, nofun⟩
  | post worker key remaining state' working posting called =>
      obtain ⟨am, next, present, moved, rfl⟩ := call_am_cases called
      exact with_am_within present moved _ _ _
  | flush worker state' working posted called =>
      obtain ⟨am, next, present, moved, rfl⟩ := call_am_cases called
      exact with_am_within present moved _ _ _
  | await worker working waiting =>
      unfold Redistribution.setWorker
      dsimp only
      rw [Function.update_self]
      exact ⟨rfl, Iff.rfl, .inl rfl⟩
  | finish worker am working waiting present idle enough =>
      unfold Redistribution.setWorker
      dsimp only
      rw [Function.update_self]
      exact ⟨rfl, Iff.rfl, .inl rfl⟩
  | progress worker state' working progressing called =>
      obtain ⟨am, next, present, moved, rfl⟩ := call_am_cases called
      exact with_am_within present moved _ _ _
  | inner worker action state' working allowed called =>
      obtain ⟨am, next, present, moved, rfl⟩ := call_am_cases called
      exact with_am_within present moved _ _ _
  | deliver thread sent index state' delivered =>
      obtain ⟨am, next, message, present, -, -, moved, rfl⟩ := deliver_am_cases delivered
      exact with_am_within present moved _ _ _
  | stray sent index message found absent arrives => exact ⟨rfl, Iff.rfl, .inl rfl⟩
  | unflushed => cases inside
  | clear => cases inside

end IntegerSortLci.Benchmark
