import IntegerSortLci.Benchmark.PhaseEffects
import IntegerSortLci.Runtime.ProfileWriter

/-!
# The typed exchange example

`main` of `typed_am_exchange.cpp` on every rank: one record to the next rank, a flush, and
progress until a record has been received. It calls the runtime in the order in which a
redistribution does, with one worker and one record, so its runs are those of
`redistributionSystem` in which each rank registers a handler once. A record is told by its
key, as its value is half a unit more; the memory of the handler is what the process prints.
-/

namespace IntegerSortLci.Examples

open IntegerSortLci.Runtime IntegerSortLci.Foundations IntegerSortLci.Benchmark
open scoped BigOperators

set_option autoImplicit false

/-- `sizeof(Record)`. -/
def recordBytes : Nat := 16

def amOptions : AmOptions where
  profileName := ascii "typed-am-exchange"

/-- What the environment and LCI decide for a run of `main`. -/
structure ExampleRun where
  profilingEnabled : Bool
  maxBcopySize : Nat
  batchRecords : Nat
  chosen : chooseBatchRecords maxBcopySize recordBytes amOptions = .ok batchRecords

/-- The rank that `main` posts to. -/
def destination (rank rankCount : Nat) : Nat := (rank + 1) % rankCount

/-- The line that the handler prints on `rank`. -/
def receivedLine (rank key source : Nat) : String :=
  "rank " ++ toString rank ++ " received key=" ++ toString key ++ " value=" ++ toString key ++
    ".5 from rank " ++ toString source ++ "\n"

variable {rankCount : Nat}

def amHandler (rank : Fin rankCount) : AmHandler rankCount Nat (List String) :=
  fun lines source key => lines ++ [receivedLine rank key source]

namespace ExampleRun

variable (run : ExampleRun)

def config (rank : Fin rankCount) : PhaseConfig rankCount where
  rank := rank
  options := amOptions
  maxBcopySize := run.maxBcopySize
  recordSize := recordBytes
  batchRecords := run.batchRecords
  profilingEnabled := run.profilingEnabled
  chosen := run.chosen

/-- Worker 0 posts a record with the rank's number and awaits one record. -/
def input (rank : Fin rankCount) : RankInput rankCount Unit (List String) where
  config := run.config rank
  handler := amHandler rank
  destination key := destination key rankCount
  expectedRecvCount := 1
  team := {()}
  share _ := [rank.val]

def inputs (rankCount : Nat) : Redistribution.Inputs rankCount Unit (List String) :=
  fun _ rank => run.input rank

end ExampleRun

/-- The rank that posts to this one. -/
def predecessor (rank : Fin rankCount) : Fin rankCount :=
  ⟨(rank.val + (rankCount - 1)) % rankCount, Nat.mod_lt _ rank.pos⟩

theorem destination_iff (source rank : Fin rankCount) :
    destination source rankCount = rank ↔ source = predecessor rank := by
  have first := source.isLt
  have second := rank.isLt
  have next : (source.val + 1) % rankCount =
      if source.val + 1 = rankCount then 0 else source.val + 1 := by
    split
    case isTrue last => rw [last, Nat.mod_self]
    case isFalse inside => exact Nat.mod_eq_of_lt (by omega)
  have previous : (rank.val + (rankCount - 1)) % rankCount =
      if rank.val = 0 then rankCount - 1 else rank.val - 1 := by
    split
    case isTrue zero =>
      rw [zero, Nat.zero_add]
      exact Nat.mod_eq_of_lt (by omega)
    case isFalse positive =>
      have back : rank.val + (rankCount - 1) = rank.val - 1 + rankCount := by omega
      rw [back, Nat.add_mod_right]
      exact Nat.mod_eq_of_lt (by omega)
  unfold destination predecessor
  rw [Fin.ext_iff, next]
  dsimp only
  rw [previous]
  split <;> split <;> omega

section Inputs

variable (run : ExampleRun) (phase : Nat)

theorem keys_for_destination (source dest : Fin rankCount) (worker : Unit) :
    (run.inputs rankCount phase source).keysFor dest
        ((run.inputs rankCount phase source).share worker) =
      if source = predecessor dest then [source.val] else [] := by
  have routed : (run.inputs rankCount phase source).destination source.val =
      destination source rankCount := rfl
  have shared : (run.inputs rankCount phase source).share worker = [source.val] := rfl
  rw [shared]
  unfold RankInput.keysFor
  by_cases same : source = predecessor dest
  · have meant := (destination_iff source dest).mpr same
    rw [if_pos same]
    simp only [List.filter_cons, List.filter_nil, routed, meant, beq_self_eq_true, if_true]
  · have other : destination source rankCount ≠ dest := fun meant =>
      same ((destination_iff source dest).mp meant)
    rw [if_neg same]
    simp only [List.filter_cons, List.filter_nil, routed, beq_iff_eq, other, if_false]

theorem keys_from_predecessor (source dest : Fin rankCount) :
    keysBetween (run.inputs rankCount) phase source dest =
      if source = predecessor dest then {source.val} else 0 := by
  unfold keysBetween
  rw [Fintype.sum_unique, keys_for_destination]
  split
  · rfl
  · rfl

theorem inputs_sound (rankCount : Nat) (run : ExampleRun) :
    SoundInputs (run.inputs rankCount) where
  own _ _ := rfl
  routed phase rank worker key member := by
    obtain rfl := List.mem_singleton.mp member
    exact Nat.mod_lt _ rank.pos
  manned _ _ := ⟨(), Finset.mem_singleton_self ()⟩
  spare _ _ worker outside := absurd (Finset.mem_singleton_self worker) outside
  expected phase rank := by
    have awaited : (run.inputs rankCount phase rank).expectedRecvCount = 1 := rfl
    rw [awaited, Finset.sum_eq_single (predecessor rank)]
    · rw [keys_from_predecessor, if_pos rfl]
      rfl
    · intro source _ other
      rw [keys_from_predecessor, if_neg other]
      rfl
    · intro outside
      exact absurd (Finset.mem_univ _) outside

end Inputs

section Results

theorem mem_from_source {calls : List (Fin rankCount × Nat)} {source : Fin rankCount} {key : Nat}
    (member : (source, key) ∈ calls) : key ∈ fromSource source calls := by
  unfold fromSource
  rw [List.mem_filterMap]
  exact ⟨(source, key), member, if_pos rfl⟩

/-- One call at most, as nobody but the predecessor posts, and that only once. -/
theorem calls_cases {calls : List (Fin rankCount × Nat)} {only : Fin rankCount}
    (bounded : ∀ source, (↑(fromSource source calls) : Multiset Nat) ≤
      if source = only then {only.val} else 0) :
    calls = [] ∨ calls = [(only, only.val)] := by
  have called : ∀ source key, (source, key) ∈ calls → source = only ∧ key = only.val := by
    intro source key member
    have within := Multiset.mem_of_le (bounded source)
      (Multiset.mem_coe.mpr (mem_from_source member))
    by_cases same : source = only
    · rw [if_pos same] at within
      exact ⟨same, Multiset.mem_singleton.mp within⟩
    · rw [if_neg same] at within
      exact absurd within (Multiset.notMem_zero key)
  cases calls with
  | nil => exact .inl rfl
  | cons first rest =>
      obtain ⟨rfl, same⟩ := called first.1 first.2 List.mem_cons_self
      have single := Multiset.card_le_card (bounded first.1)
      rw [if_pos rfl, Multiset.card_singleton, Multiset.coe_card] at single
      have alone : rest = [] := by
        cases rest with
        | nil => rfl
        | cons second later =>
            have again := (called second.1 second.2
              (List.mem_cons_of_mem _ List.mem_cons_self)).1
            have two : fromSource first.1 (first :: second :: later) =
                first.2 :: second.2 :: fromSource first.1 later := by
              simp [fromSource, again]
            rw [two, List.length_cons, List.length_cons] at single
            omega
      right
      rw [alone, ← same]

variable {run : ExampleRun}
variable {state : Redistribution rankCount Unit (List String)} {rank : Fin rankCount}
variable {am : PhaseState rankCount Unit Nat (List String)}

/-- What a rank has printed in its exchange. -/
theorem printed_lines (coherent : Coherent (inputs_sound rankCount run) state)
    (started : RankRun (run.inputs rankCount (state.ranks rank).phase rank)
      (fun lines => lines = []) (state.ranks rank) am)
    (present : (state.ranks rank).amState = some am) :
    (am.memory = [] ∨
      am.memory = [receivedLine rank (predecessor rank) (predecessor rank)]) ∧
    (state.TeamDone (run.inputs rankCount (state.ranks rank).phase rank) rank →
      am.memory = [receivedLine rank (predecessor rank) (predecessor rank)]) := by
  obtain ⟨memory, calls, rfl, effect, handled⟩ := rank_calls coherent started present
  have bounded : ∀ source, (↑(fromSource source calls) : Multiset Nat) ≤
      if source = predecessor rank then {(predecessor rank).val} else 0 := by
    intro source
    have most := handled_bounded coherent (state.ranks rank).phase source rank
    rw [← handled source, keys_from_predecessor] at most
    by_cases same : source = predecessor rank
    · subst same
      exact most
    · rw [if_neg same] at most ⊢
      exact most
  rcases calls_cases bounded with rfl | rfl
  · refine ⟨.inl effect, fun finished => ?_⟩
    have whole := team_done_handled coherent finished (predecessor rank)
    rw [← handled, keys_from_predecessor, if_pos rfl] at whole
    have sizes := congrArg Multiset.card whole
    cases sizes
  · exact ⟨.inr effect, fun _ => effect⟩

/-- The flush of the only worker makes one message of the one record. -/
theorem one_flush_call (coherent : Coherent (inputs_sound rankCount run) state)
    (started : RankRun (run.inputs rankCount (state.ranks rank).phase rank)
      (fun lines => lines = []) (state.ranks rank) am)
    (present : (state.ranks rank).amState = some am)
    (finished : state.TeamDone (run.inputs rankCount (state.ranks rank).phase rank) rank)
    (enabled : run.profilingEnabled = true) : (am.amProfile.aggregate .flush).calls = 1 := by
  have positive := (run.inputs rankCount (state.ranks rank).phase rank).config.batch_positive
  rw [team_done_flush_calls coherent started present finished enabled, Fintype.sum_unique]
  have sizes : ∀ dest, (packed positive
      ((run.inputs rankCount (state.ranks rank).phase rank).keysFor dest
        ((run.inputs rankCount (state.ranks rank).phase rank).share default))).length =
          if dest = ⟨destination rank rankCount, Nat.mod_lt _ rank.pos⟩ then 1 else 0 := by
    intro dest
    have toDest := destination_iff rank dest
    rw [packed_length, keys_for_destination]
    by_cases same : rank = predecessor dest
    · have meant : dest = ⟨destination rank rankCount, Nat.mod_lt _ rank.pos⟩ :=
        Fin.ext (toDest.mpr same).symm
      rw [if_pos same, if_pos meant, List.length_singleton]
      exact Nat.div_eq_of_lt_le (by omega) (by omega)
    · have other : dest ≠ ⟨destination rank rankCount, Nat.mod_lt _ rank.pos⟩ := fun meant =>
        same (toDest.mp (congrArg Fin.val meant).symm)
      rw [if_neg same, if_neg other, List.length_nil]
      apply Nat.div_eq_of_lt
      omega
  rw [Finset.sum_congr rfl fun dest _ => sizes dest, Finset.sum_ite_eq', if_pos (Finset.mem_univ _)]

/-- On any number of ranks, however they, their threads and LCI take turns, the example never
throws. A rank prints the record of its predecessor, once, and nothing else, has received it
when its loop ends, and has flushed one message by then. From wherever they are all ranks
can get to the end of their exchange. -/
theorem example_prints_predecessor
    (reached : (redistributionSystem (run.inputs rankCount)).Reachable (RegistersBefore 1 [])
      (.initial (run.inputs rankCount)) state) :
    state.terminated = false ∧
    (∀ rank am, (state.ranks rank).amState = some am →
      (am.memory = [] ∨
        am.memory = [receivedLine rank (predecessor rank) (predecessor rank)]) ∧
      (state.TeamDone (run.input rank) rank →
        am.memory = [receivedLine rank (predecessor rank) (predecessor rank)] ∧
        am.recvCount = 1 ∧
        (run.profilingEnabled = true → (am.amProfile.aggregate .flush).calls = 1))) ∧
    ∃ final, (redistributionSystem (run.inputs rankCount)).Reachable (RegistersBefore 1 [])
      state final ∧ final.terminated = false ∧ ∀ rank, (final.ranks rank).phase = 1 := by
  have sound := inputs_sound rankCount run
  have orderly := reachable_orderly sound (reached.mono fun _ _ _ => trivial)
  have coherent := orderly.coherent
  have starts : (redistributionSystem (run.inputs rankCount)).Reachable
      (StartsFrom fun _ _ lines => lines = []) (.initial (run.inputs rankCount)) state := by
    apply reached.mono
    intro before action permitted
    cases action with
    | setAmHandler rank lines => exact permitted.1
    | _ => trivial
  refine ⟨coherent.live, ?_, ?_⟩
  · intro rank am present
    have started := reachable_rank_runs sound starts rank am present
    obtain ⟨lines, printed⟩ := printed_lines coherent started present
    refine ⟨lines, fun finished => ⟨printed finished, ?_, ?_⟩⟩
    · have fits := team_done_fits coherent finished ()
      have received := (all_received coherent (fits.finished rfl).2).1
      rw [(coherent.ranks rank).present am present] at received
      exact received
    · exact one_flush_call coherent started present finished
  · obtain ⟨final, continued, arrived⟩ := phases_complete orderly [] 1
    refine ⟨final, continued, (orderly.kept continued).coherent.live, ?_⟩
    intro rank
    exact Nat.le_antisymm (phases_bounded (reached.trans continued) rank).1 (arrived rank)

section Runs

private def twoRecords : ExampleRun where
  profilingEnabled := true
  maxBcopySize := 32
  batchRecords := 2
  chosen := rfl

/-- A rank posts its record, for which LCI has a packet at once, and flushes. -/
private def postAndFlush (rank : Fin 2) : List (RedistributionAction 2 Unit (List String)) :=
  [.post rank (), .inner rank () (.getUpacket (some (5, fun _ => 0))), .flush rank (),
    .inner rank () (.resume 0), .inner rank () (.resume 0),
    .inner rank () (.postAmAnswer false), .inner rank () .progressEnd,
    .inner rank () (.resume 0), .inner rank () (.resume 0), .check rank ()]

/-- What happens until the loop of the first of two ranks ends. -/
private def firstReceives (first second : Fin 2) :
    List (RedistributionAction 2 Unit (List String)) :=
  [.leaveBarrier first, .leaveBarrier second] ++ postAndFlush first ++ postAndFlush second ++
    [.progress first (), .deliver first (some ()) 0 1, .inner first () (.resume 0),
      .inner first () .handlerReturn, .inner first () (.resume 0), .inner first () (.resume 0),
      .inner first () .progressEnd, .inner first () (.resume 0), .check first ()]

theorem example_prints_predecessor_two :
    ∃ (state : Redistribution 2 Unit (List String)) (am : PhaseState 2 Unit Nat (List String)),
      (redistributionSystem (twoRecords.inputs 2)).run (.initial (twoRecords.inputs 2))
          (.setAmHandler 0 [] :: .setAmHandler 1 [] :: firstReceives 0 1) = some state ∧
        (state.ranks 0).amState = some am ∧
        am.memory = [receivedLine 0 1 1] ∧ (am.amProfile.aggregate .flush).calls = 1 := by
  have done : ((redistributionSystem (twoRecords.inputs 2)).run (.initial (twoRecords.inputs 2))
      (.setAmHandler 0 [] :: .setAmHandler 1 [] :: firstReceives 0 1)).any (fun state =>
        (state.ranks 0).amState.isSome && decide (state.TeamDone (twoRecords.input 0) 0)) =
          true := by
    decide +kernel
  obtain ⟨state, executed, reaches⟩ := (Option.any_eq_true _ _).mp done
  obtain ⟨inside, finished⟩ := Bool.and_eq_true_iff.mp reaches
  obtain ⟨am, present⟩ := Option.isSome_iff_exists.mp inside
  have once : (redistributionSystem (twoRecords.inputs 2)).PermittedRun (RegistersBefore 1 [])
      (.initial (twoRecords.inputs 2))
      (.setAmHandler 0 [] :: .setAmHandler 1 [] :: firstReceives 0 1) := by
    refine ⟨⟨rfl, Nat.one_pos⟩, fun middle first => ⟨?_, fun next _ => ?_⟩⟩
    · obtain rfl := Option.some.inj first
      exact ⟨rfl, Nat.one_pos⟩
    · apply TransitionSystem.permitted_run_of_all
      intro before
      simp [firstReceives, postAndFlush, RegistersBefore]
  obtain ⟨-, printed, -⟩ := example_prints_predecessor
    (TransitionSystem.run_reachable executed once)
  obtain ⟨line, -, calls⟩ := (printed 0 am present).2 (of_decide_eq_true finished)
  exact ⟨state, am, executed, present, line, calls rfl⟩

end Runs

end Results

end IntegerSortLci.Examples
