import IntegerSortLci.Runtime.ProfileOrder
import IntegerSortLci.Runtime.ProfileRows

/-!
# The phase numbers of submitted profiles

A recorder is built with the sequence number 0 and `set_phase_sequence` has no
caller, so every profile of a run carries the number 0: the rows of two completed
phases say the same phase.
-/

namespace IntegerSortLci.Runtime

open Foundations

set_option autoImplicit false

variable {options : WriterOptions} {earlier : Option (List Byte)}
variable {store store' : ProfileStore} {action : StoreAction}

def StoreAction.completes : StoreAction → Bool
  | .completePhase _ => true
  | _ => false

/-- What a row says it is about: its phase, scope and operation. -/
def rowIdentity (line : List Byte) : List (Option Json) :=
  ["phase", "scope", "operation"].map fun name => (Json.read line).bind (Json.member (ascii name))

/-- The phases in the profile output are told apart: the numbers of the submitted
profiles increase in completion order, and no two rows of the file agree in phase,
scope and operation. -/
structure PhasesDistinguishable (store : ProfileStore) : Prop where
  increasing : (store.completed.map fun entry => entry.2.phaseSequence).Pairwise (· < ·)
  identified : store.profileOutputStarted = true → ∀ content, store.outputFile = some content →
    ((Json.lines content).map rowIdentity).Nodup

section Numbers

/-- Every recorder of the run has the number it was built with. -/
structure Unnumbered (options : WriterOptions) (store : ProfileStore) : Prop where
  active : ∀ phase, store.phase = some phase →
    phase.recorder.enabled = options.enabled ∧ phase.recorder.phaseSequence = 0
  completed : ∀ entry ∈ store.completed, ∃ recorder : AmProfileRecorder Nat,
    recorder.enabled = true ∧ recorder.phaseSequence = 0 ∧ entry.2 = recorder.snapshot

theorem record_fields (recorder : AmProfileRecorder Nat) (measured : Measured Nat) :
    (recorder.record measured).enabled = recorder.enabled ∧
      (recorder.record measured).phaseSequence = recorder.phaseSequence := by
  unfold AmProfileRecorder.record
  repeat' split
  all_goals exact ⟨rfl, rfl⟩

/-- `write_profiles` leaves the phases alone, -/
theorem write_profiles_phases (called : store.writeProfiles options = some store') :
    store'.phase = store.phase ∧ store'.completed = store.completed := by
  unfold ProfileStore.writeProfiles at called
  split at called
  · obtain rfl := Option.some.inj called
    exact ⟨rfl, rfl⟩
  · split at called
    · obtain rfl := Option.some.inj called
      exact ⟨rfl, rfl⟩
    · split at called
      · cases called
      · dsimp only at called
        split at called
        · obtain rfl := Option.some.inj called
          exact ⟨rfl, rfl⟩
        · obtain rfl := Option.some.inj called
          exact ⟨rfl, rfl⟩

/-- and so does every file operation. -/
theorem answer_phases {writing : Writing} {io : IoAnswer}
    (answered : store.answer options writing io = some store') :
    store'.phase = store.phase ∧ store'.completed = store.completed := by
  cases answer_cases answered with
  | continues content next same => exact ⟨rfl, rfl⟩
  | fails content message => exact ⟨rfl, rfl⟩
  | replaces => exact ⟨rfl, rfl⟩

/-- The end of a phase with profiling enabled puts one profile in the books. -/
theorem complete_phase_books (enabled : options.enabled = true) {phase : ActivePhase}
    (unnumbered : Unnumbered options store) (active : store.phase = some phase) (again : Nat) :
    (store.completePhase phase again).completed =
      store.completed ++ [(phase.number, phase.recorder.snapshot)] := by
  unfold ProfileStore.completePhase
  rw [(unnumbered.active phase active).1, enabled, if_pos rfl]

theorem unnumbered_step (enabled : options.enabled = true) (unnumbered : Unnumbered options store)
    (stepped : store.step options action = some store') :
    Unnumbered options store' ∧
      store'.completed.length = store.completed.length + if action.completes then 1 else 0 := by
  cases action with
  | registerPhase name =>
      simp only [ProfileStore.step] at stepped
      split at stepped
      · cases stepped
      · obtain rfl := Option.some.inj stepped
        refine ⟨⟨?_, unnumbered.completed⟩, rfl⟩
        intro phase registered
        obtain rfl := Option.some.inj registered
        exact ⟨rfl, rfl⟩
  | measure measured =>
      obtain ⟨phase, active, rfl⟩ := Option.map_eq_some_iff.mp stepped
      refine ⟨⟨?_, unnumbered.completed⟩, rfl⟩
      intro other current
      obtain rfl := Option.some.inj current
      have fields := record_fields phase.recorder measured
      have before := unnumbered.active phase active
      exact ⟨fields.1.trans before.1, fields.2.trans before.2⟩
  | completePhase again =>
      obtain ⟨phase, active, rfl⟩ := Option.map_eq_some_iff.mp stepped
      have books := complete_phase_books enabled unnumbered active again
      refine ⟨⟨?_, ?_⟩, ?_⟩
      · intro other none
        cases none
      · intro entry member
        rw [books] at member
        rcases List.mem_append.mp member with before | last
        · exact unnumbered.completed entry before
        · obtain rfl := List.mem_singleton.mp last
          obtain ⟨same, number⟩ := unnumbered.active phase active
          exact ⟨phase.recorder, same.trans enabled, number, rfl⟩
      · rw [books, List.length_append]
        rfl
  | abandonPhase =>
      obtain ⟨phase, active, rfl⟩ := Option.map_eq_some_iff.mp stepped
      refine ⟨⟨?_, unnumbered.completed⟩, rfl⟩
      intro other none
      cases none
  | writeProfiles =>
      obtain ⟨phases, books⟩ := write_profiles_phases stepped
      refine ⟨⟨?_, ?_⟩, congrArg List.length books⟩
      · rw [phases]
        exact unnumbered.active
      · rw [books]
        exact unnumbered.completed
  | answer io =>
      obtain ⟨writing, busy, answered⟩ := Option.bind_eq_some_iff.mp stepped
      obtain ⟨phases, books⟩ := answer_phases answered
      refine ⟨⟨?_, ?_⟩, congrArg List.length books⟩
      · rw [phases]
        exact unnumbered.active
      · rw [books]
        exact unnumbered.completed

/-- After a run the books have one entry for each completed phase, each with the number 0. -/
theorem unnumbered_run (enabled : options.enabled = true) {actions : List StoreAction}
    (unnumbered : Unnumbered options store)
    (executed : (storeSystem options).run store actions = some store') :
    Unnumbered options store' ∧
      store'.completed.length = store.completed.length + actions.countP StoreAction.completes := by
  induction actions generalizing store with
  | nil =>
      obtain rfl : store = store' := Option.some.inj executed
      exact ⟨unnumbered, rfl⟩
  | cons action actions ih =>
      obtain ⟨next, stepped, continued⟩ := Option.bind_eq_some_iff.mp executed
      obtain ⟨kept, one⟩ := unnumbered_step enabled unnumbered stepped
      obtain ⟨final, more⟩ := ih kept continued
      refine ⟨final, ?_⟩
      rw [more, one, List.countP_cons]
      omega

theorem initial_unnumbered : Unnumbered options (.initial earlier) := ⟨nofun, nofun⟩

end Numbers

section Identities

variable {rank : Nat} {profile : AmProfile Nat} {workers : List AmWorkerProfile}

theorem row_identity {inScope : List Byte} {entry : String × ProfileOperation}
    (scope : PlainText inScope) (member : entry ∈ operations) (worker : AmWorkerProfile) :
    rowIdentity (rowText rank profile inScope worker entry) =
      [some (.number (decimal profile.phaseSequence)), some (.string inScope),
        some (.string (ascii entry.1))] := by
  unfold rowIdentity
  rw [read_row scope member worker]
  simp [Json.member, rowMembers, ascii]

/-- No two scopes of a profile have the same text. -/
theorem scopes_distinct : ((profileScopes profile workers).map Prod.fst).Nodup := by
  unfold profileScopes
  rw [List.map_cons, List.nodup_cons]
  constructor
  · intro member
    obtain ⟨scope, inside, same⟩ := List.mem_map.mp member
    obtain ⟨workerIndex, _, rfl⟩ := List.mem_mapIdx.mp inside
    have first := congrArg List.head? same
    simp [ascii] at first
  · apply List.pairwise_iff_getElem.mpr
    intro first second firstInside secondInside less same
    simp only [List.getElem_map, List.getElem_mapIdx] at same
    have index := decimal_injective (List.append_cancel_left same)
    omega

theorem operations_distinct : (operations.map fun entry => ascii entry.1).Nodup := by decide

/-- The identities of the rows of one scope. -/
theorem scope_identities {scope : List Byte × AmWorkerProfile}
    (inside : scope ∈ profileScopes profile workers) :
    (operations.map (rowText rank profile scope.1 scope.2)).map rowIdentity =
      (operations.map fun entry => ascii entry.1).map fun operation =>
        [some (.number (decimal profile.phaseSequence)), some (.string scope.1),
          some (.string operation)] := by
  rw [List.map_map, List.map_map]
  apply List.map_congr_left
  intro entry member
  exact row_identity (scope_plain inside) member scope.2

/-- The rows of one profile are told apart by scope and operation. -/
theorem lines_identified : ((profileLines rank profile workers).map rowIdentity).Nodup := by
  unfold profileLines
  rw [List.map_flatMap, List.nodup_flatMap]
  constructor
  · intro scope inside
    rw [scope_identities inside]
    apply operations_distinct.map
    intro first second same
    simpa using same
  · have distinct : ((profileScopes profile workers).map Prod.fst).Nodup := scopes_distinct
    apply (List.pairwise_map.mp distinct).imp_of_mem
    intro first second firstInside secondInside different identity own others
    have own : identity ∈ (operations.map (rowText rank profile first.1 first.2)).map rowIdentity :=
      own
    have others :
        identity ∈ (operations.map (rowText rank profile second.1 second.2)).map rowIdentity :=
      others
    rw [scope_identities firstInside] at own
    rw [scope_identities secondInside] at others
    obtain ⟨operation, _, rfl⟩ := List.mem_map.mp own
    obtain ⟨other, _, same⟩ := List.mem_map.mp others
    apply different
    simp only [List.cons.injEq, Option.some.injEq, Json.string.injEq, true_and] at same
    exact same.1.symm

/-- The rows of what an enabled recorder submits are told apart. -/
theorem snapshot_identified {recorder : AmProfileRecorder Nat} (enabled : recorder.enabled = true) :
    ((Json.lines (options.profileRows recorder.snapshot)).map rowIdentity).Nodup := by
  rw [snapshot_rows_text enabled, lines_of_profile]
  exact lines_identified

end Identities

section Runs

theorem Unnumbered.number (unnumbered : Unnumbered options store)
    (entry : Nat × AmProfile Nat) (member : entry ∈ store.completed) :
    entry.2.phaseSequence = 0 := by
  obtain ⟨recorder, _, number, same⟩ := unnumbered.completed entry member
  rw [same]
  exact number

/-- Numbers that are all 0 increase only where there is one at most. -/
theorem numbers_increase_iff (unnumbered : Unnumbered options store) :
    (store.completed.map fun entry => entry.2.phaseSequence).Pairwise (· < ·) ↔
      store.completed.length ≤ 1 := by
  have zeros : (store.completed.map fun entry => entry.2.phaseSequence) =
      List.replicate store.completed.length 0 := by
    apply List.eq_replicate_iff.mpr
    refine ⟨List.length_map _, ?_⟩
    intro number member
    obtain ⟨entry, submitted, rfl⟩ := List.mem_map.mp member
    exact unnumbered.number entry submitted
  rw [zeros, List.pairwise_replicate]
  simp

/-- A file with one profile at most has no two rows that agree. -/
theorem written_identified (booked : Booked options earlier store)
    (unnumbered : Unnumbered options store) (few : store.completed.length ≤ 1) :
    ((Json.lines (options.rows store.written)).map rowIdentity).Nodup := by
  have ordered := booked.ordered
  have within : store.written.length ≤ 1 := by
    have length := congrArg List.length ordered
    simp only [List.length_append, List.length_map] at length
    omega
  cases written : store.written with
  | nil => exact List.nodup_nil
  | cons profile rest =>
      rw [written] at within ordered
      obtain rfl : rest = [] := List.eq_nil_of_length_eq_zero (by
        rw [List.length_cons] at within
        omega)
      have member : profile ∈ store.completed.map Prod.snd := by
        rw [← ordered]
        simp
      obtain ⟨entry, submitted, rfl⟩ := List.mem_map.mp member
      obtain ⟨recorder, enabled, _, same⟩ := unnumbered.completed entry submitted
      rw [same, WriterOptions.rows, List.flatMap_singleton]
      exact snapshot_identified enabled

end Runs

/-- The phases are told apart exactly in the runs that complete one phase at most. -/
theorem phases_distinguishable_iff (enabled : options.enabled = true) {actions : List StoreAction}
    (executed : (storeSystem options).run (.initial earlier) actions = some store) :
    PhasesDistinguishable store ↔ actions.countP StoreAction.completes ≤ 1 := by
  have reached := TransitionSystem.any_run_reachable executed
  have booked := reachable_booked reached
  obtain ⟨unnumbered, count⟩ := unnumbered_run enabled initial_unnumbered executed
  have size : store.completed.length = actions.countP StoreAction.completes :=
    count.trans (Nat.zero_add _)
  rw [← size]
  constructor
  · intro distinguishable
    exact (numbers_increase_iff unnumbered).mp distinguishable.increasing
  · intro few
    refine ⟨(numbers_increase_iff unnumbered).mpr few, ?_⟩
    intro started content file
    rw [booked.file, if_pos started] at file
    obtain rfl := Option.some.inj file
    exact written_identified booked unnumbered few

/-- Profiles of rank 0 with one worker: two phases of one name complete and are written. -/
def repeatedPhases : List StoreAction :=
  [.registerPhase (ascii "iteration"), .completePhase 0, .registerPhase (ascii "iteration"),
    .completePhase 0, .writeProfiles, succeeded, succeeded, succeeded, succeeded, succeeded,
    succeeded]

theorem repeated_phases_merge :
    ∃ store, (storeSystem oneWorkerProfiles).run (.initial none) repeatedPhases = some store ∧
      store.written.length = 2 ∧ ¬PhasesDistinguishable store := by
  obtain ⟨store, executed, written, numbers⟩ :
      ∃ store, (storeSystem oneWorkerProfiles).run (.initial none) repeatedPhases = some store ∧
        store.written.length = 2 ∧
          (store.completed.map fun entry => entry.2.phaseSequence) = [0, 0] :=
    ⟨_, rfl, rfl, rfl⟩
  refine ⟨store, executed, written, ?_⟩
  intro distinguishable
  have increasing := distinguishable.increasing
  rw [numbers] at increasing
  exact absurd increasing (by decide)

/-- One phase that completes between a failing and a successful write. -/
def onePhase : List StoreAction :=
  [.registerPhase (ascii "abandoned"), .abandonPhase, .registerPhase (ascii "iteration"),
    .completePhase 1, .writeProfiles, .answer { succeeded := false }, .writeProfiles, succeeded,
    succeeded, succeeded, succeeded, succeeded]

theorem one_phase_distinguishable :
    ∃ store, (storeSystem oneWorkerProfiles).run (.initial none) onePhase = some store ∧
      store.profileOutputStarted = true ∧ PhasesDistinguishable store := by
  obtain ⟨store, executed, started⟩ :
      ∃ store, (storeSystem oneWorkerProfiles).run (.initial none) onePhase = some store ∧
        store.profileOutputStarted = true := ⟨_, rfl, rfl⟩
  exact ⟨store, executed, started, (phases_distinguishable_iff rfl executed).mpr (by decide)⟩

end IntegerSortLci.Runtime
