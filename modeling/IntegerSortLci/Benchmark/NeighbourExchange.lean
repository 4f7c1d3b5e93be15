import IntegerSortLci.Benchmark.FullVerification
import IntegerSortLci.Foundations.TransitionSystem
import Mathlib.Logic.Function.Basic

/-!
# The neighbour exchange of full verification

Every rank posts one receive from the rank below and one send to the rank above,
waits for both and goes on. The library may answer a posting call with retry, and
then the operation is not posted. `full_verify` repeats the send until it is
accepted, but calls `post_recv_x` once and waits whatever the answer was.

What a rank receives is right under all answers. Without a retry of a receive the ranks
wait for posted operations only and do not deadlock; a rank whose receive is answered
with retry never gets past.
-/

namespace IntegerSortLci.Benchmark

open Foundations

set_option autoImplicit false

/-- What a posting call of the library returns under `allow_done(false)`. -/
inductive PostAnswer where
  | posted
  | retry
  deriving DecidableEq

/-- A synchroniser: whether an operation was posted with it, and whether that
operation has completed. -/
structure Synchroniser where
  posted : Bool := false
  signalled : Bool := false

/-- Where a rank stands between its sorted keys and the comparison. -/
inductive ExchangeStage where
  | postingReceive
  | postingSend
  | waitingSend
  | waitingReceive
  | past
  deriving DecidableEq

/-- `outgoing` is the value of an accepted send that no receive has taken yet. -/
structure RankExchange where
  stage : ExchangeStage
  sync : Synchroniser := {}
  syncSend : Synchroniser := {}
  outgoing : Option Int := none
  previousRankLastKey : Int := 0

/-- Steps of the ranks (answers to their posting calls and returns from their
waits) and of the library (completions). -/
inductive ExchangeAction where
  | answerReceive (myRank : Nat) (answer : PostAnswer)
  | answerSend (myRank : Nat) (answer : PostAnswer)
  | completeSend (myRank : Nat)
  /-- An accepted send of `myRank` meets an accepted receive of the next rank. -/
  | transfer (myRank : Nat)
  | wake (myRank : Nat)

namespace VerifyingRanks

variable (ranks : VerifyingRanks)

/-- Behind the block of the send. -/
def stageAfterSend (myRank : Nat) : ExchangeStage :=
  if 0 < myRank then .waitingReceive else .past

/-- Behind the block of the receive. -/
def stageAfterReceive (myRank : Nat) : ExchangeStage :=
  if myRank + 1 < ranks.commSize then .postingSend else stageAfterSend myRank

def exchangeStart (myRank : Nat) : RankExchange where
  stage := if 0 < myRank then .postingReceive else ranks.stageAfterReceive myRank

/-- The answer to `post_recv_x`, which nothing reads. -/
def answerReceive (myRank : Nat) (entry : RankExchange) (answer : PostAnswer) :
    Option RankExchange :=
  if entry.stage = .postingReceive then
    some { entry with
      stage := ranks.stageAfterReceive myRank
      sync := { entry.sync with posted := decide (answer = .posted) } }
  else none

/-- The answer to `post_send_x` in the loop over `is_retry`. -/
def answerSend (myRank : Nat) (entry : RankExchange) : PostAnswer → Option RankExchange
  | .retry => if entry.stage = .postingSend then some entry else none
  | .posted =>
      if entry.stage = .postingSend then
        some { entry with
          stage := .waitingSend
          syncSend := { entry.syncSend with posted := true }
          outgoing := some ((ranks.snapshots myRank).sentKey (ranks.keyArrays myRank)) }
      else none

/-- The local completion of an accepted send; it may come before the value arrives. -/
def completeSend (entry : RankExchange) : Option RankExchange :=
  if entry.syncSend.posted ∧ ¬entry.syncSend.signalled then
    some { entry with syncSend := { entry.syncSend with signalled := true } }
  else none

/-- The accepted receive of a rank takes `value`. -/
def receiveValue (entry : RankExchange) (value : Int) : Option RankExchange :=
  if entry.sync.posted ∧ ¬entry.sync.signalled then
    some { entry with
      sync := { entry.sync with signalled := true }
      previousRankLastKey := value }
  else none

/-- The return from `sync_wait_x`. -/
def wake (myRank : Nat) (entry : RankExchange) : Option RankExchange :=
  if entry.stage = .waitingSend ∧ entry.syncSend.signalled then
    some { entry with stage := stageAfterSend myRank }
  else if entry.stage = .waitingReceive ∧ entry.sync.signalled then
    some { entry with stage := .past }
  else none

/-- A step that changes one rank only. -/
def advance (exchange : Nat → RankExchange) (myRank : Nat)
    (change : RankExchange → Option RankExchange) : Option (Nat → RankExchange) :=
  if myRank < ranks.commSize then
    (change (exchange myRank)).map fun entry => Function.update exchange myRank entry
  else none

def exchangeStep (exchange : Nat → RankExchange) : ExchangeAction → Option (Nat → RankExchange)
  | .answerReceive myRank answer =>
      ranks.advance exchange myRank fun entry => ranks.answerReceive myRank entry answer
  | .answerSend myRank answer =>
      ranks.advance exchange myRank fun entry => ranks.answerSend myRank entry answer
  | .completeSend myRank => ranks.advance exchange myRank completeSend
  | .transfer myRank =>
      (exchange myRank).outgoing.bind fun value =>
        let taken := Function.update exchange myRank { exchange myRank with outgoing := none }
        ranks.advance taken (myRank + 1) fun entry => receiveValue entry value
  | .wake myRank => ranks.advance exchange myRank (wake myRank)

/-- The ranks from the point where each has its keys sorted. -/
def exchangeSystem : TransitionSystem (Nat → RankExchange) ExchangeAction where
  step := ranks.exchangeStep

end VerifyingRanks

/-- A rank that waits does so for an operation that was posted. -/
def RankExchange.WaitsPosted (entry : RankExchange) : Prop :=
  (entry.stage = .waitingSend → entry.syncSend.posted = true) ∧
    (entry.stage = .waitingReceive → entry.sync.posted = true)

/-- No `post_recv_x` is answered with retry; `post_send_x` may be, any number of times. -/
def ReceivesAccepted (_ : Nat → RankExchange) (action : ExchangeAction) : Prop :=
  ∀ myRank, action ≠ .answerReceive myRank .retry

variable {ranks : VerifyingRanks} {exchange next state : Nat → RankExchange}
variable {action : ExchangeAction} {myRank : Nat} {entry : RankExchange}

section Steps

/-- What a step of the system, from `exchange` to `next`, can do to one rank. -/
inductive RankStep (ranks : VerifyingRanks) (exchange next : Nat → RankExchange)
    (action : ExchangeAction) (myRank : Nat) : RankExchange → Prop where
  | receiveAnswered (answer : PostAnswer) (asked : action = .answerReceive myRank answer)
      (stage : (exchange myRank).stage = .postingReceive) :
      RankStep ranks exchange next action myRank { exchange myRank with
        stage := ranks.stageAfterReceive myRank
        sync := { (exchange myRank).sync with posted := decide (answer = .posted) } }
  | sendAccepted (stage : (exchange myRank).stage = .postingSend) :
      RankStep ranks exchange next action myRank { exchange myRank with
        stage := .waitingSend
        syncSend := { (exchange myRank).syncSend with posted := true }
        outgoing := some ((ranks.snapshots myRank).sentKey (ranks.keyArrays myRank)) }
  | sendCompleted :
      RankStep ranks exchange next action myRank { exchange myRank with
        syncSend := { (exchange myRank).syncSend with signalled := true } }
  | valueTaken (arrived : (next (myRank + 1)).sync.signalled = true) :
      RankStep ranks exchange next action myRank { exchange myRank with outgoing := none }
  | valueReceived (value : Int) (later : 0 < myRank)
      (accepted : (exchange myRank).sync.posted = true)
      (taken : (exchange (myRank - 1)).outgoing = some value) :
      RankStep ranks exchange next action myRank { exchange myRank with
        sync := { (exchange myRank).sync with signalled := true }
        previousRankLastKey := value }
  | sendWaited (stage : (exchange myRank).stage = .waitingSend) :
      RankStep ranks exchange next action myRank
        { exchange myRank with stage := VerifyingRanks.stageAfterSend myRank }
  | receiveWaited (stage : (exchange myRank).stage = .waitingReceive)
      (signalled : (exchange myRank).sync.signalled = true) :
      RankStep ranks exchange next action myRank { exchange myRank with stage := .past }

theorem advance_cases {change : RankExchange → Option RankExchange}
    (advanced : ranks.advance exchange myRank change = some next) :
    ∃ entry, change (exchange myRank) = some entry ∧
      next = Function.update exchange myRank entry := by
  unfold VerifyingRanks.advance at advanced
  split at advanced
  case isTrue inside =>
    obtain ⟨entry, changed, rfl⟩ := Option.map_eq_some_iff.mp advanced
    exact ⟨entry, changed, rfl⟩
  case isFalse outside => cases advanced

theorem advance_inside {change : RankExchange → Option RankExchange}
    (advanced : ranks.advance exchange myRank change = some next) : myRank < ranks.commSize := by
  unfold VerifyingRanks.advance at advanced
  split at advanced
  case isTrue inside => exact inside
  case isFalse => cases advanced

/-- A step of one rank is one of its steps there and nothing elsewhere. -/
theorem advance_rank_step {change : RankExchange → Option RankExchange}
    (advanced : ranks.advance exchange myRank change = some next)
    (own : ∀ entry, change (exchange myRank) = some entry →
      RankStep ranks exchange next action myRank entry ∨ entry = exchange myRank) (rank : Nat) :
    next rank = exchange rank ∨ RankStep ranks exchange next action rank (next rank) := by
  obtain ⟨entry, changed, rfl⟩ := advance_cases advanced
  by_cases same : rank = myRank
  · subst same
    rw [Function.update_self]
    exact (own entry changed).symm
  · rw [Function.update_of_ne same]
    exact .inl rfl

theorem exchange_step_cases (stepped : ranks.exchangeStep exchange action = some next)
    (rank : Nat) :
    next rank = exchange rank ∨ RankStep ranks exchange next action rank (next rank) := by
  cases action with
  | answerReceive myRank answer =>
      simp only [VerifyingRanks.exchangeStep] at stepped
      refine advance_rank_step stepped ?_ rank
      intro entry answered
      unfold VerifyingRanks.answerReceive at answered
      split at answered
      case isTrue stage =>
        obtain rfl := Option.some.inj answered
        exact .inl (.receiveAnswered answer rfl stage)
      case isFalse => cases answered
  | answerSend myRank answer =>
      simp only [VerifyingRanks.exchangeStep] at stepped
      refine advance_rank_step stepped ?_ rank
      intro entry answered
      cases answer with
      | retry =>
          simp only [VerifyingRanks.answerSend] at answered
          split at answered
          case isTrue stage => exact .inr (Option.some.inj answered).symm
          case isFalse => cases answered
      | posted =>
          simp only [VerifyingRanks.answerSend] at answered
          split at answered
          case isTrue stage =>
            obtain rfl := Option.some.inj answered
            exact .inl (.sendAccepted stage)
          case isFalse => cases answered
  | completeSend myRank =>
      simp only [VerifyingRanks.exchangeStep] at stepped
      refine advance_rank_step stepped ?_ rank
      intro entry completed
      unfold VerifyingRanks.completeSend at completed
      split at completed
      case isTrue pending =>
        obtain rfl := Option.some.inj completed
        exact .inl .sendCompleted
      case isFalse => cases completed
  | transfer myRank =>
      obtain ⟨value, outgoing, advanced⟩ := Option.bind_eq_some_iff.mp stepped
      obtain ⟨entry, received, rfl⟩ := advance_cases advanced
      have apart : myRank + 1 ≠ myRank := Nat.succ_ne_self myRank
      rw [Function.update_of_ne apart] at received
      unfold VerifyingRanks.receiveValue at received
      split at received
      case isTrue accepted =>
        obtain rfl := Option.some.inj received
        by_cases receiver : rank = myRank + 1
        · subst receiver
          rw [Function.update_self]
          exact .inr (.valueReceived value (Nat.succ_pos myRank) accepted.1 outgoing)
        · rw [Function.update_of_ne receiver]
          by_cases sender : rank = myRank
          · subst sender
            rw [Function.update_self]
            exact .inr (.valueTaken (by rw [Function.update_self]))
          · rw [Function.update_of_ne sender]
            exact .inl rfl
      case isFalse => cases received
  | wake myRank =>
      simp only [VerifyingRanks.exchangeStep] at stepped
      refine advance_rank_step stepped ?_ rank
      intro entry woken
      unfold VerifyingRanks.wake at woken
      split at woken
      case isTrue waiting =>
        obtain rfl := Option.some.inj woken
        exact .inl (.sendWaited waiting.1)
      case isFalse =>
        split at woken
        case isTrue waiting =>
          obtain rfl := Option.some.inj woken
          exact .inl (.receiveWaited waiting.1 waiting.2)
        case isFalse => cases woken

end Steps

section Soundness

/-- What holds of a rank under every pattern of answers: it waits for its send only
when that was posted, and what it received is the key of the rank below. -/
structure RankSound (ranks : VerifyingRanks) (myRank : Nat) (entry : RankExchange) : Prop where
  asking : entry.stage = .postingReceive → entry.sync = {}
  sending : entry.stage = .waitingSend → entry.syncSend.posted = true
  receiving : entry.stage = .waitingReceive → 0 < myRank
  outgoing : ∀ value, entry.outgoing = some value →
    value = (ranks.snapshots myRank).sentKey (ranks.keyArrays myRank)
  accepted : entry.sync.signalled = true → entry.sync.posted = true
  received : 0 < myRank → entry.sync.signalled = true →
    entry.previousRankLastKey = ranks.previousRankLastKey myRank
  first : myRank = 0 → entry.previousRankLastKey = 0
  past : 0 < myRank → entry.stage = .past → entry.sync.signalled = true

theorem previous_rank_last_key (later : 0 < myRank) :
    ranks.previousRankLastKey myRank =
      (ranks.snapshots (myRank - 1)).sentKey (ranks.keyArrays (myRank - 1)) :=
  if_neg (Nat.ne_of_gt later)

/-- A stage that a rank can go to without having posted anything there: it is not asked
again, it does not wait for a send, and above rank 0 it still has to wait. -/
structure StageBehind (myRank : Nat) (stage : ExchangeStage) : Prop where
  asking : stage ≠ .postingReceive
  sending : stage ≠ .waitingSend
  receiving : stage = .waitingReceive → 0 < myRank
  past : 0 < myRank → stage ≠ .past

theorem behind_send (myRank : Nat) : StageBehind myRank (VerifyingRanks.stageAfterSend myRank) := by
  unfold VerifyingRanks.stageAfterSend
  split
  case isTrue later => exact ⟨nofun, nofun, fun _ => later, fun _ => nofun⟩
  case isFalse first => exact ⟨nofun, nofun, nofun, fun later => absurd later first⟩

theorem behind_receive (ranks : VerifyingRanks) (myRank : Nat) :
    StageBehind myRank (ranks.stageAfterReceive myRank) := by
  unfold VerifyingRanks.stageAfterReceive
  split
  · exact ⟨nofun, nofun, nofun, fun _ => nofun⟩
  · exact behind_send myRank

theorem start_sound (ranks : VerifyingRanks) (myRank : Nat) :
    RankSound ranks myRank (ranks.exchangeStart myRank) := by
  have behind := behind_receive ranks myRank
  unfold VerifyingRanks.exchangeStart
  split
  · exact ⟨fun _ => rfl, nofun, nofun, nofun, nofun, nofun, fun _ => rfl, nofun⟩
  · refine ⟨fun _ => rfl, ?_, behind.receiving, nofun, nofun, nofun, fun _ => rfl, ?_⟩
    · intro sending
      exact absurd sending behind.sending
    · intro later past
      exact absurd past (behind.past later)

/-- A rank that only goes on to a stage behind stays sound. -/
theorem RankSound.goOn {stage : ExchangeStage} {sync : Synchroniser}
    (sound : RankSound ranks myRank entry) (behind : StageBehind myRank stage)
    (accepted : sync.signalled = true → sync.posted = true)
    (same : sync.signalled = entry.sync.signalled) :
    RankSound ranks myRank { entry with stage := stage, sync := sync } where
  asking asking := absurd asking behind.asking
  sending sending := absurd sending behind.sending
  receiving := behind.receiving
  outgoing := sound.outgoing
  accepted := accepted
  received later signalled := sound.received later (same.symm.trans signalled)
  first := sound.first
  past later past := absurd past (behind.past later)

theorem rank_step_sound (before : ∀ rank, RankSound ranks rank (exchange rank))
    (moved : RankStep ranks exchange next action myRank entry) : RankSound ranks myRank entry := by
  have own := before myRank
  cases moved with
  | receiveAnswered answer asked stage =>
      have silent : (exchange myRank).sync.signalled = false := by rw [own.asking stage]
      apply own.goOn (behind_receive ranks myRank)
      · intro signalled
        cases silent.symm.trans signalled
      · rfl
  | sendAccepted stage =>
      refine { own with
        asking := nofun
        sending := fun _ => rfl
        receiving := nofun
        outgoing := ?_
        past := nofun }
      intro value sent
      exact (Option.some.inj sent).symm
  | sendCompleted => exact { own with }
  | valueTaken arrived => exact { own with outgoing := nofun }
  | valueReceived value later accepted taken =>
      refine { own with
        asking := ?_
        accepted := fun _ => accepted
        received := ?_
        first := fun zero => absurd zero (Nat.ne_of_gt later)
        past := fun _ _ => rfl }
      · intro asking
        have unposted : (exchange myRank).sync.posted = false := by rw [own.asking asking]
        cases unposted.symm.trans accepted
      · intro _ _
        rw [previous_rank_last_key later]
        exact (before (myRank - 1)).outgoing value taken
  | sendWaited stage => exact own.goOn (behind_send myRank) own.accepted rfl
  | receiveWaited stage signalled =>
      exact { own with
        asking := nofun
        sending := nofun
        receiving := nofun
        past := fun _ _ => signalled }

theorem exchange_step_sound (before : ∀ rank, RankSound ranks rank (exchange rank))
    (stepped : ranks.exchangeStep exchange action = some next) (rank : Nat) :
    RankSound ranks rank (next rank) := by
  rcases exchange_step_cases stepped rank with same | moved
  · rw [same]
    exact before rank
  · exact rank_step_sound before moved

/-- Whatever is answered, in every reachable state every rank is sound. -/
theorem reachable_sound {permitted : (Nat → RankExchange) → ExchangeAction → Prop}
    (reached : ranks.exchangeSystem.Reachable permitted ranks.exchangeStart state) (rank : Nat) :
    RankSound ranks rank (state rank) := by
  revert rank
  apply reached.invariant
  · exact start_sound ranks
  · intro before after action _ sound _ stepped
    exact exchange_step_sound sound stepped

/-- A rank past the exchange compares with the key that `full_verify` is modelled with,
whatever was answered before. -/
theorem exchange_delivers {permitted : (Nat → RankExchange) → ExchangeAction → Prop}
    (reached : ranks.exchangeSystem.Reachable permitted ranks.exchangeStart state) {rank : Nat}
    (past : (state rank).stage = .past) :
    (state rank).previousRankLastKey = ranks.previousRankLastKey rank := by
  have sound := reachable_sound reached rank
  by_cases zero : rank = 0
  · rw [sound.first zero]
    exact (if_pos zero).symm
  · have later := Nat.pos_of_ne_zero zero
    exact sound.received later (sound.past later past)

end Soundness

section Retries

/-- A rank behind `post_recv_x` whose receive the library did not accept. -/
def RankExchange.ReceiveRefused (myRank : Nat) (entry : RankExchange) : Prop :=
  0 < myRank ∧ entry.stage ≠ .postingReceive ∧ entry.sync.posted = false

instance (myRank : Nat) (entry : RankExchange) : Decidable (entry.ReceiveRefused myRank) :=
  inferInstanceAs (Decidable (_ ∧ _ ∧ _))

/-- A receive is refused by a retry and in no other way. -/
theorem refused_by_retry (moved : RankStep ranks exchange next action myRank entry)
    (fine : ¬(exchange myRank).ReceiveRefused myRank) (refused : entry.ReceiveRefused myRank) :
    action = .answerReceive myRank .retry := by
  obtain ⟨later, behind, unposted⟩ := refused
  have posted : ∀ stage, (exchange myRank).stage = stage → stage ≠ .postingReceive →
      (exchange myRank).sync.posted ≠ false := by
    intro stage same elsewhere unposted
    exact fine ⟨later, same.trans_ne elsewhere, unposted⟩
  cases moved with
  | receiveAnswered answer asked stage =>
      cases answer with
      | retry => exact asked
      | posted => cases unposted
  | sendAccepted stage => exact absurd unposted (posted _ stage nofun)
  | sendCompleted => exact absurd unposted (posted _ rfl behind)
  | valueTaken arrived => exact absurd unposted (posted _ rfl behind)
  | valueReceived value _ accepted taken => cases accepted.symm.trans unposted
  | sendWaited stage => exact absurd unposted (posted _ stage nofun)
  | receiveWaited stage signalled => exact absurd unposted (posted _ stage nofun)

/-- A refused receive stays refused: nothing posts it again. -/
theorem refused_stays (moved : RankStep ranks exchange next action myRank entry)
    (refused : (exchange myRank).ReceiveRefused myRank) : entry.ReceiveRefused myRank := by
  obtain ⟨later, behind, unposted⟩ := refused
  cases moved with
  | receiveAnswered answer asked stage => exact absurd stage behind
  | sendAccepted stage => exact ⟨later, nofun, unposted⟩
  | sendCompleted => exact ⟨later, behind, unposted⟩
  | valueTaken arrived => exact ⟨later, behind, unposted⟩
  | valueReceived value _ accepted taken => cases accepted.symm.trans unposted
  | sendWaited stage => exact ⟨later, (behind_send myRank).asking, unposted⟩
  | receiveWaited stage signalled => exact ⟨later, nofun, unposted⟩

theorem start_not_refused (ranks : VerifyingRanks) (myRank : Nat) :
    ¬(ranks.exchangeStart myRank).ReceiveRefused myRank := by
  rintro ⟨later, behind, _⟩
  exact behind (if_pos later)

/-- Without a retry of `post_recv_x` no receive is refused. -/
theorem reachable_not_refused
    (reached : ranks.exchangeSystem.Reachable ReceivesAccepted ranks.exchangeStart state)
    (rank : Nat) : ¬(state rank).ReceiveRefused rank := by
  revert rank
  apply reached.invariant
  · exact start_not_refused ranks
  · intro before after action _ fine accepted stepped rank refused
    rcases exchange_step_cases stepped rank with same | moved
    · rw [same] at refused
      exact fine rank refused
    · exact accepted rank (refused_by_retry moved (fine rank) refused)

theorem receive_accepted
    (reached : ranks.exchangeSystem.Reachable ReceivesAccepted ranks.exchangeStart state)
    {rank : Nat} (waiting : (state rank).stage = .waitingReceive) :
    (state rank).sync.posted = true := by
  by_contra unposted
  apply reachable_not_refused reached rank
  refine ⟨(reachable_sound reached rank).receiving waiting, ?_, Bool.eq_false_iff.mpr unposted⟩
  rw [waiting]
  nofun

/-- One retry of `post_recv_x` is enough: that rank never gets past the exchange. -/
theorem refused_never_past {later : Nat → RankExchange}
    (reached : ranks.exchangeSystem.Reachable (fun _ _ => True) ranks.exchangeStart state)
    {rank : Nat} (refused : (state rank).ReceiveRefused rank)
    (continued : ranks.exchangeSystem.Reachable (fun _ _ => True) state later) :
    (later rank).stage ≠ .past := by
  have still : (later rank).ReceiveRefused rank := by
    apply continued.invariant
    · exact refused
    · intro before after action _ refused _ stepped
      rcases exchange_step_cases stepped rank with same | moved
      · rwa [same]
      · exact refused_stays moved refused
  have sound := reachable_sound (reached.trans continued) rank
  intro past
  have posted := sound.accepted (sound.past still.1 past)
  cases posted.symm.trans still.2.2

end Retries

section Progress

/-- A rank that has called `post_send_x` successfully. -/
def RankExchange.HasSent (entry : RankExchange) : Prop :=
  entry.stage ≠ .postingReceive ∧ entry.stage ≠ .postingSend

/-- A completion is not taken back. -/
theorem signalled_stays (moved : RankStep ranks exchange next action myRank entry)
    (signalled : (exchange myRank).sync.signalled = true) : entry.sync.signalled = true := by
  cases moved with
  | receiveAnswered answer asked stage => exact signalled
  | sendAccepted stage => exact signalled
  | sendCompleted => exact signalled
  | valueTaken arrived => exact signalled
  | valueReceived value later accepted taken => rfl
  | sendWaited stage => exact signalled
  | receiveWaited stage _ => exact signalled

/-- A rank with a next rank that has sent has its key on the way, or it has arrived. -/
theorem handed_step (inside : myRank + 1 < ranks.commSize)
    (before : (exchange myRank).HasSent → (exchange myRank).outgoing.isSome = true ∨
      (next (myRank + 1)).sync.signalled = true)
    (moved : RankStep ranks exchange next action myRank entry) (sent : entry.HasSent) :
    entry.outgoing.isSome = true ∨ (next (myRank + 1)).sync.signalled = true := by
  cases moved with
  | receiveAnswered answer asked stage => exact absurd (if_pos inside) sent.2
  | sendAccepted stage => exact .inl rfl
  | sendCompleted => exact before sent
  | valueTaken arrived => exact .inr arrived
  | valueReceived value later accepted taken => exact before sent
  | sendWaited stage =>
      apply before
      unfold RankExchange.HasSent
      rw [stage]
      exact ⟨nofun, nofun⟩
  | receiveWaited stage signalled =>
      apply before
      unfold RankExchange.HasSent
      rw [stage]
      exact ⟨nofun, nofun⟩

theorem reachable_handed {permitted : (Nat → RankExchange) → ExchangeAction → Prop}
    (reached : ranks.exchangeSystem.Reachable permitted ranks.exchangeStart state) (rank : Nat)
    (inside : rank + 1 < ranks.commSize) (sent : (state rank).HasSent) :
    (state rank).outgoing.isSome = true ∨ (state (rank + 1)).sync.signalled = true := by
  revert sent
  apply reached.invariant
  · rintro ⟨asked, posted⟩
    unfold VerifyingRanks.exchangeStart at asked posted
    dsimp only at asked posted
    split at asked
    · exact absurd rfl asked
    · rename_i first
      rw [if_neg first] at posted
      exact absurd (if_pos inside) posted
  · intro before after action _ handed _ stepped
    have arrived : (before (rank + 1)).sync.signalled = true →
        (after (rank + 1)).sync.signalled = true := by
      intro signalled
      rcases exchange_step_cases stepped (rank + 1) with same | moved
      · rwa [same]
      · exact signalled_stays moved signalled
    have earlier : (before rank).HasSent → (before rank).outgoing.isSome = true ∨
        (after (rank + 1)).sync.signalled = true := fun sent => (handed sent).imp_right arrived
    rcases exchange_step_cases stepped rank with same | moved
    · rwa [same]
    · exact handed_step inside earlier moved

/-- An action that moves the exchange on: not a retry. -/
def ExchangeAction.Advances (action : ExchangeAction) : Prop :=
  ∀ myRank, action ≠ .answerReceive myRank .retry ∧ action ≠ .answerSend myRank .retry

theorem advance_enabled {change : RankExchange → Option RankExchange}
    (inside : myRank < ranks.commSize) (changes : (change (exchange myRank)).isSome = true) :
    (ranks.advance exchange myRank change).isSome = true := by
  unfold VerifyingRanks.advance
  rw [if_pos inside, Option.isSome_map, changes]

/-- A rank whose posting call is not accepted yet can have it accepted. -/
theorem posting_enabled (inside : myRank < ranks.commSize) (posting : ¬(exchange myRank).HasSent) :
    ∃ action, action.Advances ∧ (ranks.exchangeStep exchange action).isSome = true := by
  by_cases asking : (exchange myRank).stage = .postingReceive
  · refine ⟨.answerReceive myRank .posted, by simp [ExchangeAction.Advances], ?_⟩
    simp only [VerifyingRanks.exchangeStep]
    apply advance_enabled inside
    simp [VerifyingRanks.answerReceive, asking]
  · have sending : (exchange myRank).stage = .postingSend :=
      not_not.mp fun other => posting ⟨asking, other⟩
    refine ⟨.answerSend myRank .posted, by simp [ExchangeAction.Advances], ?_⟩
    simp only [VerifyingRanks.exchangeStep]
    apply advance_enabled inside
    simp [VerifyingRanks.answerSend, sending]

/-- A rank whose receive is accepted and whose key is on the way can get it. -/
theorem transfer_enabled (inside : myRank + 1 < ranks.commSize)
    (outgoing : (exchange myRank).outgoing.isSome = true)
    (accepted : (exchange (myRank + 1)).sync.posted = true)
    (pending : ¬(exchange (myRank + 1)).sync.signalled = true) :
    (ranks.exchangeStep exchange (.transfer myRank)).isSome = true := by
  obtain ⟨value, sent⟩ := Option.isSome_iff_exists.mp outgoing
  simp only [VerifyingRanks.exchangeStep, sent, Option.bind_some]
  apply advance_enabled inside
  simp [VerifyingRanks.receiveValue, accepted, pending]

/-- No deadlock: without a retry of `post_recv_x`, as long as a rank is not past the
exchange some rank or the library can move it on. -/
theorem exchange_progress
    (reached : ranks.exchangeSystem.Reachable ReceivesAccepted ranks.exchangeStart state)
    {rank : Nat} (inside : rank < ranks.commSize) (unfinished : (state rank).stage ≠ .past) :
    ∃ action, action.Advances ∧ (ranks.exchangeStep state action).isSome = true := by
  have sound := reachable_sound reached rank
  cases stage : (state rank).stage with
  | postingReceive =>
      apply posting_enabled inside
      rintro ⟨asked, _⟩
      exact asked stage
  | postingSend =>
      apply posting_enabled inside
      rintro ⟨_, posted⟩
      exact posted stage
  | waitingSend =>
      by_cases signalled : (state rank).syncSend.signalled = true
      · refine ⟨.wake rank, by simp [ExchangeAction.Advances], ?_⟩
        simp only [VerifyingRanks.exchangeStep]
        apply advance_enabled inside
        simp [VerifyingRanks.wake, stage, signalled]
      · refine ⟨.completeSend rank, by simp [ExchangeAction.Advances], ?_⟩
        simp only [VerifyingRanks.exchangeStep]
        apply advance_enabled inside
        simp [VerifyingRanks.completeSend, sound.sending stage, signalled]
  | waitingReceive =>
      by_cases signalled : (state rank).sync.signalled = true
      · refine ⟨.wake rank, by simp [ExchangeAction.Advances], ?_⟩
        simp only [VerifyingRanks.exchangeStep]
        apply advance_enabled inside
        simp [VerifyingRanks.wake, stage, signalled]
      · -- the key comes from the rank below, which may still have to send it
        obtain ⟨below, rfl⟩ := Nat.exists_eq_succ_of_ne_zero
          (Nat.ne_of_gt (sound.receiving stage))
        have accepted := receive_accepted reached stage
        by_cases sent : (state below).HasSent
        · refine ⟨.transfer below, by simp [ExchangeAction.Advances], ?_⟩
          have outgoing := (reachable_handed reached below inside sent).resolve_right signalled
          exact transfer_enabled inside outgoing accepted signalled
        · exact posting_enabled (Nat.lt_of_succ_lt inside) sent
  | past => exact absurd stage unfinished

end Progress

/-- As long as no `post_recv_x` is answered with retry, no rank waits for an
operation that was not posted. In any run a rank past its wait holds the key that the rank
below sent. -/
theorem neighbour_exchange_sound
    (reached : ranks.exchangeSystem.Reachable (fun _ _ => True) ranks.exchangeStart state) :
    (ranks.exchangeSystem.Reachable ReceivesAccepted ranks.exchangeStart state →
      ∀ rank < ranks.commSize, (state rank).WaitsPosted) ∧
    ∀ rank < ranks.commSize, 0 < rank → (state rank).stage = .past →
      (state rank).previousRankLastKey =
        (ranks.snapshots (rank - 1)).sentKey (ranks.keyArrays (rank - 1)) := by
  constructor
  · intro accepted rank _
    exact ⟨(reachable_sound accepted rank).sending, receive_accepted accepted⟩
  · intro rank _ later past
    rw [exchange_delivers reached past, previous_rank_last_key later]

/-- Three ranks that hold the keys 2, 5 and 7. -/
def threeNeighbours : VerifyingRanks where
  commSize := 3
  snapshots rank :=
    let key : Int := if rank = 0 then 2 else if rank = 1 then 5 else 7
    { frequencyHistogram := fun _ => 1
      minKeyValue := key
      maxKeyValue := key
      totalLocalKeys := 1 }
  keyArrays _ := fun _ => 0

/-- Every send is retried before it is accepted, and rank 2 arrives last. -/
def retriedSends : List ExchangeAction :=
  [.answerSend 0 .retry, .answerReceive 1 .posted, .answerSend 1 .retry, .answerSend 1 .posted,
    .completeSend 1, .answerSend 0 .retry, .answerSend 0 .posted, .transfer 0, .wake 1, .wake 1,
    .answerReceive 2 .posted, .transfer 1, .wake 2, .completeSend 0, .wake 0]

theorem neighbour_exchange_retried_sends :
    ∃ state, threeNeighbours.exchangeSystem.run threeNeighbours.exchangeStart retriedSends =
        some state ∧ (state 1).WaitsPosted ∧ (state 1).previousRankLastKey = 2 ∧
          (state 2).previousRankLastKey = 5 := by
  obtain ⟨state, executed, first, second⟩ :
      ∃ state, threeNeighbours.exchangeSystem.run threeNeighbours.exchangeStart retriedSends =
        some state ∧ (state 1).stage = .past ∧ (state 2).stage = .past := ⟨_, rfl, rfl, rfl⟩
  have accepted : threeNeighbours.exchangeSystem.PermittedRun ReceivesAccepted
      threeNeighbours.exchangeStart retriedSends := by
    apply TransitionSystem.permitted_run_of_all
    intro _ action member myRank retried
    subst retried
    simp [retriedSends] at member
  have reached := TransitionSystem.run_reachable executed accepted
  obtain ⟨waits, received⟩ := neighbour_exchange_sound (reached.mono fun _ _ _ => trivial)
  exact ⟨state, executed, waits reached 1 (by decide), received 1 (by decide) (by decide) first,
    received 2 (by decide) (by decide) second⟩

/-- `post_recv_x` of rank 1 is answered with retry: rank 1 waits for a receive that
was not posted, although the key of rank 0 was sent. -/
theorem retried_receive_waits_unposted :
    ∃ state, threeNeighbours.exchangeSystem.Reachable (fun _ _ => True)
        threeNeighbours.exchangeStart state ∧
      ¬(state 1).WaitsPosted ∧ (state 0).outgoing = some 2 := by
  obtain ⟨state, executed, waiting, unposted, sent⟩ :
      ∃ state, threeNeighbours.exchangeSystem.run threeNeighbours.exchangeStart
          [.answerSend 0 .posted, .answerReceive 1 .retry, .answerSend 1 .posted, .completeSend 1,
            .wake 1] = some state ∧ (state 1).stage = .waitingReceive ∧
        (state 1).sync.posted = false ∧ (state 0).outgoing = some 2 :=
    ⟨_, rfl, rfl, rfl, rfl⟩
  refine ⟨state, ?_, ?_, sent⟩
  · exact TransitionSystem.any_run_reachable executed
  · intro waits
    cases unposted.symm.trans (waits.2 waiting)

end IntegerSortLci.Benchmark
