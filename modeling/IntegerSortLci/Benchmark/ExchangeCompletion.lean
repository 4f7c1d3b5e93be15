import IntegerSortLci.Benchmark.NeighbourExchange
import Mathlib.Algebra.BigOperators.Group.Finset.Basic
import Mathlib.Algebra.Order.BigOperators.Group.Finset

/-!
# The neighbour exchange comes to an end

Every step but a retry takes a rank to a later stage or signals one of its two
synchronisers. As there is no deadlock without a retry of `post_recv_x`, the ranks get past
the exchange after a bounded number of such steps, however they are ordered.
-/

namespace IntegerSortLci.Benchmark

open Foundations
open scoped BigOperators

set_option autoImplicit false

/-- The stages that are behind this one. -/
def ExchangeStage.work : ExchangeStage → Nat
  | .postingReceive => 4
  | .postingSend => 3
  | .waitingSend => 2
  | .waitingReceive => 1
  | .past => 0

/-- A completion that has not come. -/
def Synchroniser.work (synchroniser : Synchroniser) : Nat :=
  if synchroniser.signalled then 0 else 1

def RankExchange.work (entry : RankExchange) : Nat :=
  entry.stage.work + entry.sync.work + entry.syncSend.work

/-- The steps that the exchange has before it at most. -/
def VerifyingRanks.exchangeWork (ranks : VerifyingRanks) (exchange : Nat → RankExchange) : Nat :=
  ∑ rank ∈ Finset.range ranks.commSize, (exchange rank).work

variable {ranks : VerifyingRanks} {exchange next state : Nat → RankExchange}
variable {action : ExchangeAction} {myRank : Nat}

theorem work_bounded (entry : RankExchange) : entry.work ≤ 6 := by
  have stage : entry.stage.work ≤ 4 := by
    cases entry.stage <;> decide
  have flag : ∀ synchroniser : Synchroniser, synchroniser.work ≤ 1 := by
    intro synchroniser
    unfold Synchroniser.work
    split <;> decide
  have first := flag entry.sync
  have second := flag entry.syncSend
  unfold RankExchange.work
  omega

theorem stage_after_send_work (myRank : Nat) :
    (VerifyingRanks.stageAfterSend myRank).work ≤ 1 := by
  unfold VerifyingRanks.stageAfterSend
  split <;> decide

theorem stage_after_receive_work (ranks : VerifyingRanks) (myRank : Nat) :
    (ranks.stageAfterReceive myRank).work ≤ 3 := by
  unfold VerifyingRanks.stageAfterReceive
  split
  · decide
  · exact (stage_after_send_work myRank).trans (by decide)

/-- The rank that an action takes on; a refused send leaves all ranks where they are. -/
def ExchangeAction.takesOn : ExchangeAction → Option Nat
  | .answerSend _ .retry => none
  | .answerReceive myRank _ | .answerSend myRank .posted | .completeSend myRank | .wake myRank =>
      some myRank
  | .transfer myRank => some (myRank + 1)

theorem takes_on_advances (advances : action.Advances) : action.takesOn.isSome = true := by
  cases action with
  | answerSend myRank answer =>
      cases answer with
      | retry => exact absurd rfl (advances myRank).2
      | posted => rfl
  | _ => rfl

/-- A step that takes one rank on. -/
theorem advance_work {change : RankExchange → Option RankExchange}
    (advanced : ranks.advance exchange myRank change = some next)
    (lower : ∀ entry, change (exchange myRank) = some entry →
      entry.work < (exchange myRank).work) (rank : Nat) :
    (next rank).work + (if some myRank = some rank then 1 else 0) ≤ (exchange rank).work := by
  obtain ⟨entry, changed, rfl⟩ := advance_cases advanced
  by_cases same : rank = myRank
  · subst same
    rw [Function.update_self, if_pos rfl]
    exact lower entry changed
  · have other : (some myRank : Option Nat) ≠ some rank := by
      intro equal
      exact same (Option.some.inj equal).symm
    rw [Function.update_of_ne same, if_neg other, Nat.add_zero]

/-- A retried send leaves everything as it is; any other step is a step forward of a rank. -/
theorem rank_work_step (stepped : ranks.exchangeStep exchange action = some next) (rank : Nat) :
    (next rank).work + (if action.takesOn = some rank then 1 else 0) ≤ (exchange rank).work := by
  cases action with
  | answerReceive myRank answer =>
      simp only [VerifyingRanks.exchangeStep] at stepped
      refine advance_work stepped ?_ rank
      intro entry answered
      unfold VerifyingRanks.answerReceive at answered
      split at answered
      case isFalse => cases answered
      case isTrue stage =>
        obtain rfl := Option.some.inj answered
        have later := stage_after_receive_work ranks myRank
        have asking : (exchange myRank).stage.work = 4 := by
          rw [stage]
          rfl
        simp only [RankExchange.work, Synchroniser.work, asking]
        omega
  | answerSend myRank answer =>
      simp only [VerifyingRanks.exchangeStep] at stepped
      cases answer with
      | retry =>
          obtain ⟨entry, answered, rfl⟩ := advance_cases stepped
          simp only [VerifyingRanks.answerSend] at answered
          split at answered
          case isFalse => cases answered
          case isTrue stage =>
            obtain rfl := Option.some.inj answered
            rw [Function.update_eq_self]
            exact Nat.le_refl _
      | posted =>
          refine advance_work stepped ?_ rank
          intro entry answered
          simp only [VerifyingRanks.answerSend] at answered
          split at answered
          case isFalse => cases answered
          case isTrue stage =>
            obtain rfl := Option.some.inj answered
            simp only [RankExchange.work, Synchroniser.work, stage, ExchangeStage.work]
            omega
  | completeSend myRank =>
      simp only [VerifyingRanks.exchangeStep] at stepped
      refine advance_work stepped ?_ rank
      intro entry completed
      unfold VerifyingRanks.completeSend at completed
      split at completed
      case isFalse => cases completed
      case isTrue pending =>
        obtain rfl := Option.some.inj completed
        simp only [RankExchange.work, Synchroniser.work, if_neg pending.2, if_true]
        omega
  | transfer myRank =>
      obtain ⟨value, outgoing, advanced⟩ := Option.bind_eq_some_iff.mp stepped
      have taken : (Function.update exchange myRank
          { exchange myRank with outgoing := none } rank).work = (exchange rank).work := by
        by_cases same : rank = myRank
        · subst same
          rw [Function.update_self]
          rfl
        · rw [Function.update_of_ne same]
      rw [← taken]
      refine advance_work advanced ?_ rank
      intro entry received
      unfold VerifyingRanks.receiveValue at received
      split at received
      case isFalse => cases received
      case isTrue accepted =>
        obtain rfl := Option.some.inj received
        simp only [RankExchange.work, Synchroniser.work, if_neg accepted.2, if_true]
        omega
  | wake myRank =>
      simp only [VerifyingRanks.exchangeStep] at stepped
      refine advance_work stepped ?_ rank
      intro entry woken
      unfold VerifyingRanks.wake at woken
      split at woken
      case isTrue waiting =>
        obtain rfl := Option.some.inj woken
        have later := stage_after_send_work myRank
        have sending : (exchange myRank).stage.work = 2 := by
          rw [waiting.1]
          rfl
        simp only [RankExchange.work, sending]
        omega
      case isFalse =>
        split at woken
        case isFalse => cases woken
        case isTrue waiting =>
          obtain rfl := Option.some.inj woken
          simp only [RankExchange.work, waiting.1, ExchangeStage.work]
          omega

/-- The rank that is taken on is one of the ranks. -/
theorem takes_on_inside (stepped : ranks.exchangeStep exchange action = some next)
    (takes : action.takesOn = some myRank) : myRank < ranks.commSize := by
  cases action with
  | transfer rank =>
      obtain rfl := Option.some.inj takes
      obtain ⟨value, -, advanced⟩ := Option.bind_eq_some_iff.mp stepped
      exact advance_inside advanced
  | answerSend rank answer =>
      cases answer with
      | retry => cases takes
      | posted =>
          obtain rfl := Option.some.inj takes
          simp only [VerifyingRanks.exchangeStep] at stepped
          exact advance_inside stepped
  | answerReceive rank | completeSend rank | wake rank =>
      obtain rfl := Option.some.inj takes
      simp only [VerifyingRanks.exchangeStep] at stepped
      exact advance_inside stepped

theorem exchange_work_step (stepped : ranks.exchangeStep exchange action = some next) :
    ranks.exchangeWork next + (if action.takesOn.isSome then 1 else 0) ≤
      ranks.exchangeWork exchange := by
  have taken : (if action.takesOn.isSome then 1 else 0) =
      ∑ rank ∈ Finset.range ranks.commSize, if action.takesOn = some rank then 1 else 0 := by
    cases takes : action.takesOn with
    | none => simp
    | some myRank =>
        have inside := takes_on_inside stepped takes
        simp [inside]
  unfold VerifyingRanks.exchangeWork
  rw [taken, ← Finset.sum_add_distrib]
  exact Finset.sum_le_sum fun rank _ => rank_work_step stepped rank

theorem exchange_work_lt (stepped : ranks.exchangeStep exchange action = some next)
    (advances : action.Advances) : ranks.exchangeWork next < ranks.exchangeWork exchange := by
  have less := exchange_work_step stepped
  rw [if_pos (takes_on_advances advances)] at less
  exact less

/-- An action that moves the exchange on refuses no receive. -/
theorem advances_accept (advances : action.Advances) (exchange : Nat → RankExchange) :
    ReceivesAccepted exchange action := fun myRank => (advances myRank).1

theorem exchange_work_bounded (ranks : VerifyingRanks) (exchange : Nat → RankExchange) :
    ranks.exchangeWork exchange ≤ 6 * ranks.commSize :=
  calc
    ranks.exchangeWork exchange ≤ ∑ _rank ∈ Finset.range ranks.commSize, 6 :=
        Finset.sum_le_sum fun rank _ => work_bounded (exchange rank)
    _ = 6 * ranks.commSize := by
        rw [Finset.sum_const, Finset.card_range, Nat.nsmul_eq_mul, Nat.mul_comm]

/-- Without a retry of `post_recv_x` the ranks can get past the exchange from any state they
have reached. In any run, whatever is retried, at most six steps take a rank on. -/
theorem exchange_completes
    (reached : ranks.exchangeSystem.Reachable ReceivesAccepted ranks.exchangeStart state) :
    (∃ final, ranks.exchangeSystem.Reachable (fun _ action => action.Advances) state final ∧
      ∀ rank < ranks.commSize, (final rank).stage = .past) ∧
    ∀ actions later, ranks.exchangeSystem.run state actions = some later →
      (∀ rank, actions.countP (fun action => action.takesOn = some rank) ≤ 6) ∧
        actions.countP (fun action => action.takesOn.isSome) ≤ 6 * ranks.commSize := by
  constructor
  · apply TransitionSystem.goal_reachable ranks.exchangeWork
    intro before continued unfinished
    push Not at unfinished
    obtain ⟨rank, inside, waiting⟩ := unfinished
    have accepted := reached.trans (continued.mono fun exchange _ advances =>
      advances_accept advances exchange)
    obtain ⟨action, advances, enabled⟩ := exchange_progress accepted inside waiting
    obtain ⟨after, stepped⟩ := Option.isSome_iff_exists.mp enabled
    exact ⟨after, .next .start advances stepped, exchange_work_lt stepped advances⟩
  · intro actions later executed
    constructor
    · intro rank
      have used : actions.countP (fun action => action.takesOn = some rank) +
          (later rank).work ≤ (state rank).work := by
        apply TransitionSystem.run_counted_bounded _ executed
        intro before action after stepped
        simp only [decide_eq_true_eq]
        exact rank_work_step stepped rank
      have available := work_bounded (state rank)
      omega
    · have used : actions.countP (fun action => action.takesOn.isSome) +
          ranks.exchangeWork later ≤ ranks.exchangeWork state :=
        TransitionSystem.run_counted_bounded (fun stepped => exchange_work_step stepped) executed
      have available := exchange_work_bounded ranks state
      omega

/-- The sends of the ranks 0 and 1 have been retried, and rank 2 has not arrived. -/
theorem exchange_completes_behind_retries :
    ∃ state, threeNeighbours.exchangeSystem.run threeNeighbours.exchangeStart
        (retriedSends.take 10) = some state ∧ (state 2).stage = .postingReceive ∧
      (∃ final, threeNeighbours.exchangeSystem.Reachable (fun _ action => action.Advances)
        state final ∧ ∀ rank < 3, (final rank).stage = .past) ∧
      ∀ actions later, threeNeighbours.exchangeSystem.run state actions = some later →
        actions.countP (fun action => action.takesOn.isSome) ≤ 18 := by
  obtain ⟨state, executed, asking⟩ :
      ∃ state, threeNeighbours.exchangeSystem.run threeNeighbours.exchangeStart
        (retriedSends.take 10) = some state ∧ (state 2).stage = .postingReceive := ⟨_, rfl, rfl⟩
  have accepted : threeNeighbours.exchangeSystem.PermittedRun ReceivesAccepted
      threeNeighbours.exchangeStart (retriedSends.take 10) := by
    apply TransitionSystem.permitted_run_of_all
    intro _ action member myRank retried
    subst retried
    simp [retriedSends] at member
  obtain ⟨past, bounded⟩ :=
    exchange_completes (TransitionSystem.run_reachable executed accepted)
  exact ⟨state, executed, asking, past, fun actions later continued =>
    (bounded actions later continued).2⟩

end IntegerSortLci.Benchmark
