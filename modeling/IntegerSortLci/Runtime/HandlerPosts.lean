import IntegerSortLci.Runtime.SendLedger

/-!
# Posting from inside a receive handler

A handler may run in the middle of a post: the loopback path calls it before
`release`, and the network path progresses after LCI accepted the batch and
before `release`. Its own `post_am` may then reach the very buffer being sent.
Every run whose steps are safe keeps each record; a handler post that is not
safe pushes past the buffer's end or into a handed-over batch.
-/

namespace IntegerSortLci.Runtime

open Foundations

set_option autoImplicit false

variable {rankCount : Nat} {Worker Record : Type}
variable {config : PhaseConfig rankCount} {self : Option Worker}
variable {thread : ThreadState rankCount Worker Record}

theorem handler_posts_keep_records
    (reached : (threadSystem config self).Reachable (SafeAction config) (.initial config) thread) :
    EveryEvent (RecordKept config) thread.log :=
  (reachable_ledger reached).kept

/-- After a safe run, a push that finds a buffer pointer and breaks `MayPost`
overruns the buffer or writes into a handed-over batch at once. -/
theorem unsafe_post_breaks {dest : Fin rankCount} {record : Record} {pointer : BufferPtr}
    (reached : (threadSystem config self).Reachable (SafeAction config) (.initial config) thread)
    (allocated : (thread.sendBuffers dest).buffer.or (config.fallbackBuffer dest) = some pointer)
    (notSafe : ¬ MayPost config thread dest) :
    ¬ EveryEvent (RecordKept config) (thread.postRecord config self dest record).log := by
  intro every
  apply notSafe
  have written : ∃ later, (thread.postRecord config self dest record).log =
      thread.log ++ .posted dest record (thread.sendBuffers dest).size pointer :: later := by
    unfold ThreadState.postRecord
    simp only [allocated]
    obtain ⟨later, extended, _⟩ := after_push_grows config self
      ((thread.openScope config self).write dest pointer record) dest thread.profileWorker
    exact ⟨later, by simp [extended]⟩
  obtain ⟨later, split⟩ := written
  have kept := every thread.log _ later split
  have ledger := reachable_ledger reached
  constructor
  · rw [← ledger.handed dest]
    exact kept.2
  · exact kept.1

section Runs

private def twoRanks : PhaseConfig 2 where
  rank := 0
  options := { useUpacket := false, batchRecords := 2 }
  maxBcopySize := 8
  recordSize := 4
  batchRecords := 2
  profilingEnabled := false
  chosen := by decide

private def postElsewhere : List (Action 2 Nat) :=
  [.postAm 0 7, .postAm 0 8, .resume 0, .handlerPost 1 9]

private theorem post_elsewhere_safe :
    (threadSystem twoRanks (some ())).PermittedRun (SafeAction twoRanks) (.initial twoRanks)
      postElsewhere := by
  refine ⟨trivial, ?_⟩
  rintro _ ⟨⟩
  refine ⟨trivial, ?_⟩
  rintro _ ⟨⟩
  refine ⟨trivial, ?_⟩
  rintro _ ⟨⟩
  refine ⟨?_, fun _ _ => trivial⟩
  rintro rank ⟨⟩
  exact ⟨rfl, by decide⟩

/-- A full loopback batch, from whose first record the handler posts to the
other rank. -/
theorem handler_posts_keep_records_two_ranks :
    ∃ thread : ThreadState 2 Unit Nat,
      (threadSystem twoRanks (some ())).run (.initial twoRanks) postElsewhere = some thread ∧
        EveryEvent (RecordKept twoRanks) thread.log := by
  obtain ⟨thread, executed⟩ : ∃ thread : ThreadState 2 Unit Nat,
      (threadSystem twoRanks (some ())).run (.initial twoRanks) postElsewhere = some thread :=
    ⟨_, rfl⟩
  refine ⟨thread, executed, ?_⟩
  exact handler_posts_keep_records (TransitionSystem.run_reachable executed post_elsewhere_safe)

/-- With one record to a batch, the handler of a loopback message posts to its
own rank: the push lands behind the end of the buffer that is being read. -/
theorem handler_post_overruns :
    ∃ thread : ThreadState 1 Unit Nat,
      (threadSystem (.singleRecord 0) (some ())).run (.initial (.singleRecord 0))
          [.postAm 0 7, .resume 0, .handlerPost 0 8] = some thread ∧
        ¬ EveryEvent (RecordKept (.singleRecord 0)) thread.log := by
  refine ⟨_, rfl, ?_⟩
  intro every
  have overrun := every
    [.posted 0 7 0 (.fallback 0), .loopedBack 0 [7], .invoked 0 7]
    (.posted 0 8 1 (.fallback 0)) [.postReturned] rfl
  exact absurd overrun.1 (by decide)

end Runs

end IntegerSortLci.Runtime
