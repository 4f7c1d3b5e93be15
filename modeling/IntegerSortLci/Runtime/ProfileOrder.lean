import IntegerSortLci.Runtime.ProfileRows
import Mathlib.Logic.Function.Iterate

/-!
# Completed profiles are written once, in order

The profiles written, those a call of `write_profiles` has taken and those still
pending are, one after the other, the profiles of the completed phases. The
lines of the output file are the rows of the written ones, because a rename happens
only after every row of the call went into the temporary file.
-/

namespace IntegerSortLci.Runtime

open Foundations

set_option autoImplicit false

variable {options : WriterOptions} {earlier : Option (List Byte)}
variable {store store' : ProfileStore}

/-- The profiles in the hands of the call at work. -/
def ProfileStore.taken (store : ProfileStore) : List (AmProfile Nat) :=
  match store.writing with
  | some writing => writing.profiles
  | none => []

/-- What the temporary file holds at each stage, as long as the stream is good. -/
def StageFits (options : WriterOptions) (store : ProfileStore) (writing : Writing) : Prop :=
  match writing.stage with
  | .createDirectories | .openTemporary => writing.good = true
  | .openPrevious | .copyPrevious =>
      writing.good = true ∧ store.profileOutputStarted = true ∧ store.temporaryFile = some []
  | .writeRows remaining =>
      ∃ inserted, writing.profiles = inserted ++ remaining ∧
        (writing.good = true →
          store.temporaryFile = some (options.rows (store.written ++ inserted)))
  | .rename => store.temporaryFile = some (options.rows (store.written ++ writing.profiles))

/-- The books of the store. -/
structure Booked (options : WriterOptions) (earlier : Option (List Byte)) (store : ProfileStore) :
    Prop where
  ordered : store.written ++ store.taken ++ store.pendingProfiles = store.completed.map Prod.snd
  increasing : (store.completed.map Prod.fst).Pairwise (· < ·)
  numbered : ∀ entry ∈ store.completed, entry.1 < store.nextNumber ∧
    ∀ phase, store.phase = some phase → entry.1 < phase.number
  current : ∀ phase, store.phase = some phase →
    phase.number < store.nextNumber ∧ phase.finalizeOnce = false
  file : store.outputFile =
    if store.profileOutputStarted then some (options.rows store.written) else earlier
  started : store.profileOutputStarted = true ↔ store.written ≠ []
  busy : ∀ writing, store.writing = some writing →
    writing.profiles ≠ [] ∧ StageFits options store writing

theorem rows_append (first second : List (AmProfile Nat)) :
    options.rows (first ++ second) = options.rows first ++ options.rows second :=
  List.flatMap_append

theorem profile_rows_nonempty (profile : AmProfile Nat) : options.profileRows profile ≠ [] := by
  unfold WriterOptions.profileRows writeWorkerRows operations
  intro empty
  have first := (List.append_eq_nil_iff.mp empty).1
  simp [ascii] at first

/-- However often `finalize_profile` is reached, the phase is submitted once. -/
theorem finalize_again (again : Nat) (phase : ActivePhase) (active : store.phase = some phase)
    (unfinalized : phase.finalizeOnce = false) :
    ProfileStore.finalizeProfile^[again + 1] store =
      { store with
        phase := some { phase with finalizeOnce := true }
        pendingProfiles :=
          if phase.recorder.enabled then store.pendingProfiles ++ [phase.recorder.snapshot]
          else store.pendingProfiles } := by
  induction again with
  | zero =>
      simp only [Nat.zero_add, Function.iterate_one, ProfileStore.finalizeProfile, active,
        unfinalized]
      by_cases enabled : phase.recorder.enabled = true
      · simp [enabled, ProfileStore.submitProfile]
      · simp [enabled]
  | succ again ih =>
      rw [Function.iterate_succ_apply', ih]
      simp [ProfileStore.finalizeProfile]

theorem taken_of_busy {writing : Writing} (busy : store.writing = some writing) :
    store.taken = writing.profiles := by
  unfold ProfileStore.taken
  rw [busy]

theorem taken_of_idle (idle : store.writing = none) : store.taken = [] := by
  unfold ProfileStore.taken
  rw [idle]

theorem insertion_cases (store : ProfileStore) (writing : Writing) (bytes : List Byte)
    (io : IoAnswer) :
    ∃ content next, store.insertion writing bytes io =
        ({ store with temporaryFile := content }, next) ∧
      next.profiles = writing.profiles ∧
      (next.good = true → writing.good = true ∧
        content = some (store.temporaryFile.getD [] ++ bytes)) := by
  unfold ProfileStore.insertion
  by_cases good : writing.good = true
  · rw [if_pos good]
    by_cases succeeded : io.succeeded = true
    · rw [if_pos succeeded]
      exact ⟨_, _, rfl, rfl, fun _ => ⟨good, rfl⟩⟩
    · rw [if_neg succeeded]
      exact ⟨_, _, rfl, rfl, nofun⟩
  · rw [if_neg good]
    exact ⟨store.temporaryFile, writing, rfl, rfl, fun other => absurd other good⟩

section FileOperations

variable {writing : Writing}

/-- The next file operation, after one that only touched the temporary file. -/
theorem enter_booked (booked : Booked options earlier store) (busy : store.writing = some writing)
    {next : Writing} (same : next.profiles = writing.profiles) {stage : WriteStage}
    {content : Option (List Byte)}
    (fits : StageFits options { store with temporaryFile := content }
      { next with stage := stage }) :
    Booked options earlier ({ store with temporaryFile := content }.enter next stage) where
  ordered := by
    have ordered := booked.ordered
    rw [taken_of_busy busy, ← same] at ordered
    exact ordered
  increasing := booked.increasing
  numbered := booked.numbered
  current := booked.current
  file := booked.file
  started := booked.started
  busy := by
    intro other entered
    obtain rfl := Option.some.inj entered
    refine ⟨?_, fits⟩
    intro empty
    exact (booked.busy writing busy).1 (same.symm.trans empty)

/-- A failing call puts what it took back in front. -/
theorem fail_booked (booked : Booked options earlier store) (busy : store.writing = some writing)
    (content : Option (List Byte)) (what : List Byte) (removed : Bool) :
    Booked options earlier
      ({ store with temporaryFile := content }.failWrite options writing what removed) where
  ordered := by
    have ordered := booked.ordered
    rw [taken_of_busy busy, List.append_assoc] at ordered
    have idle : ({ store with temporaryFile := content }.failWrite options writing what
        removed).taken = [] := rfl
    rw [idle, List.append_nil]
    exact ordered
  increasing := booked.increasing
  numbered := booked.numbered
  current := booked.current
  file := booked.file
  started := booked.started
  busy := nofun

/-- A rename makes the temporary file the output file. -/
theorem rename_booked (booked : Booked options earlier store) (busy : store.writing = some writing)
    (fits : store.temporaryFile = some (options.rows (store.written ++ writing.profiles)))
    (returns : List (Except (List Byte) Unit)) :
    Booked options earlier { store with
      outputFile := store.temporaryFile
      temporaryFile := none
      profileOutputStarted := true
      writing := none
      written := store.written ++ writing.profiles
      returns := returns } where
  ordered := by
    have ordered := booked.ordered
    rw [taken_of_busy busy] at ordered
    simpa [ProfileStore.taken] using ordered
  increasing := booked.increasing
  numbered := booked.numbered
  current := booked.current
  file := fits
  started := by
    have taken := (booked.busy writing busy).1
    simp [taken]
  busy := nofun

/-- The temporary file after the copy holds what the output file holds. -/
theorem copy_booked (booked : Booked options earlier store) (busy : store.writing = some writing)
    (fits : writing.good = true ∧ store.profileOutputStarted = true ∧
      store.temporaryFile = some []) {io : IoAnswer}
    (stage : writing.stage = .copyPrevious)
    (answered : store.answer options writing io = some store') :
    Booked options earlier store' := by
  obtain ⟨_, outputStarted, temporary⟩ := fits
  simp only [ProfileStore.answer, stage] at answered
  obtain ⟨previous, file, rfl⟩ := Option.map_eq_some_iff.mp answered
  have content : previous = options.rows store.written := by
    have booked := booked.file
    rw [if_pos outputStarted, file] at booked
    exact Option.some.inj booked
  obtain ⟨after, next, inserted, same, complete⟩ := insertion_cases store writing previous io
  simp only [ProfileStore.copyPrevious, inserted]
  by_cases copied : next.good = true ∧ previous ≠ []
  · rw [if_pos copied]
    apply enter_booked booked busy same
    refine ⟨[], same, ?_⟩
    intro _
    have written := (complete copied.1).2
    rw [temporary, content] at written
    rw [List.append_nil]
    exact written
  · rw [if_neg copied]
    exact fail_booked booked busy after _ _

/-- The rows of one more profile. -/
theorem insert_booked (booked : Booked options earlier store) (busy : store.writing = some writing)
    {profile : AmProfile Nat} {remaining inserted : List (AmProfile Nat)} {io : IoAnswer}
    (stage : writing.stage = .writeRows (profile :: remaining))
    (split : writing.profiles = inserted ++ profile :: remaining)
    (temporary : writing.good = true →
      store.temporaryFile = some (options.rows (store.written ++ inserted)))
    (answered : store.answer options writing io = some store') :
    Booked options earlier store' := by
  obtain ⟨content, next, placed, same, complete⟩ :=
    insertion_cases store writing (options.profileRows profile) io
  simp only [ProfileStore.answer, stage, placed] at answered
  obtain rfl := Option.some.inj answered
  apply enter_booked booked busy same
  refine ⟨inserted ++ [profile], ?_, ?_⟩
  · rw [List.append_assoc]
    exact same.trans split
  · intro good
    obtain ⟨before, content⟩ := complete good
    rw [temporary before] at content
    have one : options.rows [profile] = options.profileRows profile := List.flatMap_singleton _ _
    rw [← List.append_assoc, rows_append, one]
    exact content

/-- One file operation of the call at work, whatever its answer. -/
theorem answer_booked (booked : Booked options earlier store) (busy : store.writing = some writing)
    {io : IoAnswer} (answered : store.answer options writing io = some store') :
    Booked options earlier store' := by
  have fits := (booked.busy writing busy).2
  have failed : ∀ what removed,
      Booked options earlier (store.failWrite options writing what removed) :=
    fun what removed => fail_booked booked busy store.temporaryFile what removed
  cases stage : writing.stage with
  | createDirectories =>
      simp only [StageFits, stage] at fits
      simp only [ProfileStore.answer, stage] at answered
      split at answered
      · obtain rfl := Option.some.inj answered
        exact enter_booked booked busy rfl fits
      · obtain rfl := Option.some.inj answered
        exact failed _ _
  | openTemporary =>
      simp only [StageFits, stage] at fits
      simp only [ProfileStore.answer, stage] at answered
      split at answered
      · by_cases outputStarted : store.profileOutputStarted = true
        · rw [if_pos outputStarted] at answered
          obtain rfl := Option.some.inj answered
          exact enter_booked booked busy rfl ⟨fits, outputStarted, rfl⟩
        · rw [if_neg outputStarted] at answered
          obtain rfl := Option.some.inj answered
          apply enter_booked booked busy rfl
          refine ⟨[], rfl, ?_⟩
          intro _
          have nothing : store.written = [] := by
            by_contra some
            exact outputStarted (booked.started.mpr some)
          rw [nothing]
          rfl
      · obtain rfl := Option.some.inj answered
        exact failed _ _
  | openPrevious =>
      simp only [StageFits, stage] at fits
      simp only [ProfileStore.answer, stage] at answered
      split at answered
      · split at answered
        · obtain rfl := Option.some.inj answered
          exact enter_booked booked busy rfl fits
        · cases answered
      · obtain rfl := Option.some.inj answered
        exact failed _ _
  | copyPrevious =>
      simp only [StageFits, stage] at fits
      exact copy_booked booked busy fits stage answered
  | writeRows remaining =>
      simp only [StageFits, stage] at fits
      obtain ⟨inserted, split, temporary⟩ := fits
      cases remaining with
      | nil =>
          simp only [ProfileStore.answer, stage] at answered
          by_cases closed : writing.good = true ∧ io.succeeded = true
          · rw [if_pos closed] at answered
            obtain rfl := Option.some.inj answered
            rw [List.append_nil] at split
            subst split
            exact enter_booked booked busy rfl (temporary closed.1)
          · rw [if_neg closed] at answered
            obtain rfl := Option.some.inj answered
            exact failed _ _
      | cons profile remaining => exact insert_booked booked busy stage split temporary answered
  | rename =>
      simp only [StageFits, stage] at fits
      simp only [ProfileStore.answer, stage] at answered
      split at answered
      · obtain rfl := Option.some.inj answered
        exact rename_booked booked busy fits _
      · obtain rfl := Option.some.inj answered
        exact failed _ _

end FileOperations

/-- A completed phase joins the end of the pending profiles. -/
theorem complete_booked (booked : Booked options earlier store) {phase : ActivePhase}
    (active : store.phase = some phase) (again : Nat) :
    Booked options earlier (store.completePhase phase again) := by
  have unfinalized := (booked.current phase active).2
  have fresh : ∀ entry ∈ store.completed, entry.1 < phase.number :=
    fun entry member => (booked.numbered entry member).2 phase active
  unfold ProfileStore.completePhase
  rw [finalize_again again phase active unfinalized]
  by_cases enabled : phase.recorder.enabled = true
  · simp only [enabled, if_true]
    exact {
      ordered := by
        rw [List.map_append, ← booked.ordered, List.append_assoc _ store.pendingProfiles]
        rfl
      increasing := by
        rw [List.map_append, List.pairwise_append]
        refine ⟨booked.increasing, List.pairwise_singleton _ _, ?_⟩
        intro number member other last
        obtain ⟨entry, listed, rfl⟩ := List.mem_map.mp member
        obtain rfl : other = phase.number := by simpa using last
        exact fresh entry listed
      numbered := by
        intro entry member
        refine ⟨?_, nofun⟩
        rcases List.mem_append.mp member with before | last
        · exact (booked.numbered entry before).1
        · obtain rfl : entry = (phase.number, phase.recorder.snapshot) := by simpa using last
          exact (booked.current phase active).1
      current := nofun
      file := booked.file
      started := booked.started
      busy := booked.busy }
  · simp only [enabled]
    exact {
      ordered := booked.ordered
      increasing := booked.increasing
      numbered := fun entry member => ⟨(booked.numbered entry member).1, nofun⟩
      current := nofun
      file := booked.file
      started := booked.started
      busy := booked.busy }

theorem write_profiles_booked (booked : Booked options earlier store)
    (called : store.writeProfiles options = some store') : Booked options earlier store' := by
  unfold ProfileStore.writeProfiles at called
  split at called
  · obtain rfl := Option.some.inj called
    exact { booked with }
  · split at called
    · obtain rfl := Option.some.inj called
      exact { booked with }
    · split at called
      · cases called
      · rename_i idle
        have idle : store.writing = none := by simpa using idle
        dsimp only at called
        split at called
        · obtain rfl := Option.some.inj called
          exact { booked with }
        · rename_i waiting
          obtain rfl := Option.some.inj called
          exact {
            ordered := by
              have ordered := booked.ordered
              rw [taken_of_idle idle, List.append_nil] at ordered
              rw [List.append_nil]
              exact ordered
            increasing := booked.increasing
            numbered := booked.numbered
            current := booked.current
            file := booked.file
            started := booked.started
            busy := by
              intro writing begun
              obtain rfl := Option.some.inj begun
              exact ⟨by simpa using waiting, rfl⟩ }

theorem store_step_booked (booked : Booked options earlier store) {action : StoreAction}
    (stepped : store.step options action = some store') : Booked options earlier store' := by
  cases action with
  | registerPhase name =>
      simp only [ProfileStore.step] at stepped
      split at stepped
      · cases stepped
      · obtain rfl := Option.some.inj stepped
        exact {
          ordered := booked.ordered
          increasing := booked.increasing
          numbered := by
            intro entry member
            have below := (booked.numbered entry member).1
            refine ⟨Nat.lt_succ_of_lt below, ?_⟩
            intro phase registered
            obtain rfl := Option.some.inj registered
            exact below
          current := by
            intro phase registered
            obtain rfl := Option.some.inj registered
            exact ⟨Nat.lt_succ_self _, rfl⟩
          file := booked.file
          started := booked.started
          busy := booked.busy }
  | measure measured =>
      obtain ⟨phase, active, rfl⟩ := Option.map_eq_some_iff.mp stepped
      exact {
        ordered := booked.ordered
        increasing := booked.increasing
        numbered := by
          intro entry member
          have numbered := booked.numbered entry member
          refine ⟨numbered.1, ?_⟩
          intro other current
          obtain rfl := Option.some.inj current
          exact numbered.2 phase active
        current := by
          intro other current
          obtain rfl := Option.some.inj current
          exact booked.current phase active
        file := booked.file
        started := booked.started
        busy := booked.busy }
  | completePhase again =>
      obtain ⟨phase, active, rfl⟩ := Option.map_eq_some_iff.mp stepped
      exact complete_booked booked active again
  | abandonPhase =>
      obtain ⟨phase, active, rfl⟩ := Option.map_eq_some_iff.mp stepped
      exact {
        ordered := booked.ordered
        increasing := booked.increasing
        numbered := fun entry member => ⟨(booked.numbered entry member).1, nofun⟩
        current := nofun
        file := booked.file
        started := booked.started
        busy := booked.busy }
  | writeProfiles => exact write_profiles_booked booked stepped
  | answer io =>
      obtain ⟨writing, busy, answered⟩ := Option.bind_eq_some_iff.mp stepped
      exact answer_booked booked busy answered

theorem reachable_booked
    (reached : (storeSystem options).Reachable (fun _ _ => True) (.initial earlier) store) :
    Booked options earlier store := by
  apply reached.invariant
  · exact ⟨rfl, List.Pairwise.nil, nofun, nofun, rfl, by simp [ProfileStore.initial], nofun⟩
  · intro before after action _ booked _ stepped
    exact store_step_booked booked stepped

/-- How a file operation ends: the call goes on, the call fails, or the output
file is replaced. -/
inductive AnswerStep (store : ProfileStore) (writing : Writing) : ProfileStore → Prop where
  | continues (content : Option (List Byte)) (next : Writing)
      (same : next.profiles = writing.profiles) :
      AnswerStep store writing { store with temporaryFile := content, writing := some next }
  | fails (content : Option (List Byte)) (message : List Byte) :
      AnswerStep store writing { store with
        temporaryFile := content
        pendingProfiles := writing.profiles ++ store.pendingProfiles
        writing := none
        returns := store.returns ++ [.error message] }
  | replaces :
      AnswerStep store writing { store with
        outputFile := store.temporaryFile
        temporaryFile := none
        profileOutputStarted := true
        writing := none
        written := store.written ++ writing.profiles
        returns := store.returns ++ [.ok ()] }

theorem answer_cases {writing : Writing} {io : IoAnswer}
    (answered : store.answer options writing io = some store') :
    AnswerStep store writing store' := by
  cases stage : writing.stage with
  | createDirectories =>
      simp only [ProfileStore.answer, stage] at answered
      split at answered
      · obtain rfl := Option.some.inj answered
        exact .continues _ _ rfl
      · obtain rfl := Option.some.inj answered
        exact .fails _ _
  | openTemporary =>
      simp only [ProfileStore.answer, stage] at answered
      split at answered
      · split at answered
        · obtain rfl := Option.some.inj answered
          exact .continues (some []) _ rfl
        · obtain rfl := Option.some.inj answered
          exact .continues (some []) _ rfl
      · obtain rfl := Option.some.inj answered
        exact .fails _ _
  | openPrevious =>
      simp only [ProfileStore.answer, stage] at answered
      split at answered
      · split at answered
        · obtain rfl := Option.some.inj answered
          exact .continues _ _ rfl
        · cases answered
      · obtain rfl := Option.some.inj answered
        exact .fails _ _
  | copyPrevious =>
      simp only [ProfileStore.answer, stage] at answered
      obtain ⟨previous, _, rfl⟩ := Option.map_eq_some_iff.mp answered
      obtain ⟨after, next, inserted, same, _⟩ := insertion_cases store writing previous io
      simp only [ProfileStore.copyPrevious, inserted]
      split
      · exact .continues after _ same
      · exact .fails _ _
  | writeRows remaining =>
      cases remaining with
      | nil =>
          simp only [ProfileStore.answer, stage] at answered
          split at answered
          · obtain rfl := Option.some.inj answered
            exact .continues _ _ rfl
          · obtain rfl := Option.some.inj answered
            exact .fails _ _
      | cons profile remaining =>
          obtain ⟨after, next, inserted, same, _⟩ :=
            insertion_cases store writing (options.profileRows profile) io
          simp only [ProfileStore.answer, stage, inserted] at answered
          obtain rfl := Option.some.inj answered
          exact .continues after _ same
  | rename =>
      simp only [ProfileStore.answer, stage] at answered
      split at answered
      · obtain rfl := Option.some.inj answered
        exact .replaces
      · obtain rfl := Option.some.inj answered
        exact .fails _ _

/-- The store while the call that began in `start` is at work: it has what was
pending, and the output file is untouched. -/
structure DuringWrite (start store : ProfileStore) : Prop where
  written : store.written = start.written
  file : store.outputFile = start.outputFile
  taken : store.writing.map Writing.profiles = some start.pendingProfiles

/-- A failing call leaves the output file and the pending order as they were;
what completed meanwhile is behind. -/
structure WriteUndone (start failed : ProfileStore) : Prop where
  written : failed.written = start.written
  file : failed.outputFile = start.outputFile
  pending : ∃ later, failed.pendingProfiles = start.pendingProfiles ++ later ∧
    failed.completed.map Prod.snd = start.completed.map Prod.snd ++ later

/-- A call of `write_profiles` returns at once, or takes what is pending. -/
theorem write_profiles_cases (called : store.writeProfiles options = some store') :
    (∃ result, store' = { store with returns := store.returns ++ [result] }) ∨
    (store.writing = none ∧ store'.returns = store.returns ∧
      store'.completed = store.completed ∧ DuringWrite store store') := by
  unfold ProfileStore.writeProfiles at called
  split at called
  · exact .inl ⟨_, (Option.some.inj called).symm⟩
  · split at called
    · exact .inl ⟨_, (Option.some.inj called).symm⟩
    · split at called
      · cases called
      · rename_i idle
        dsimp only at called
        split at called
        · exact .inl ⟨_, (Option.some.inj called).symm⟩
        · obtain rfl := Option.some.inj called
          exact .inr ⟨by simpa using idle, rfl, rfl, rfl, rfl, rfl⟩

/-- No other step disturbs the call at work, and the call keeps what it took
until its end. -/
theorem during_step {start : ProfileStore} (during : DuringWrite start store)
    (booked : Booked options earlier store) {action : StoreAction}
    (stepped : store.step options action = some store') (working : store'.writing.isSome) :
    DuringWrite start store' := by
  cases action with
  | registerPhase name =>
      simp only [ProfileStore.step] at stepped
      split at stepped
      · cases stepped
      · obtain rfl := Option.some.inj stepped
        exact { during with }
  | measure measured =>
      obtain ⟨phase, active, rfl⟩ := Option.map_eq_some_iff.mp stepped
      exact { during with }
  | completePhase again =>
      obtain ⟨phase, active, rfl⟩ := Option.map_eq_some_iff.mp stepped
      have finalized := finalize_again again phase active (booked.current phase active).2
      unfold ProfileStore.completePhase
      rw [finalized]
      exact { during with }
  | abandonPhase =>
      obtain ⟨phase, active, rfl⟩ := Option.map_eq_some_iff.mp stepped
      exact { during with }
  | writeProfiles =>
      rcases write_profiles_cases stepped with ⟨result, rfl⟩ | ⟨idle, _, _⟩
      · exact { during with }
      · have taken := during.taken
        rw [idle] at taken
        cases taken
  | answer io =>
      obtain ⟨writing, busy, answered⟩ := Option.bind_eq_some_iff.mp stepped
      have taken := during.taken
      rw [busy] at taken
      cases answer_cases answered with
      | continues content next same =>
          exact ⟨during.written, during.file, (congrArg some same).trans taken⟩
      | fails content message => cases working
      | replaces => cases working

/-- The failing end of a call that is at work. -/
theorem failed_undone {start : ProfileStore} (idle : start.writing = none)
    (startBooked : Booked options earlier start) (during : DuringWrite start store)
    (booked : Booked options earlier store) {io : IoAnswer} {message : List Byte}
    (stepped : store.step options (.answer io) = some store')
    (failed : store'.returns = store.returns ++ [.error message]) : WriteUndone start store' := by
  obtain ⟨writing, busy, answered⟩ := Option.bind_eq_some_iff.mp stepped
  have taken := during.taken
  rw [busy] at taken
  have profiles : writing.profiles = start.pendingProfiles := Option.some.inj taken
  cases answer_cases answered with
  | continues content next same =>
      have longer := congrArg List.length failed
      simp at longer
  | fails content message =>
      refine ⟨during.written, during.file, store.pendingProfiles, ?_, ?_⟩
      · rw [profiles]
      · have before := startBooked.ordered
        rw [taken_of_idle idle, List.append_nil] at before
        rw [← before, ← profiles, ← during.written, ← taken_of_busy busy]
        exact booked.ordered.symm
  | replaces =>
      have last := List.append_cancel_left failed
      cases last

section Content

/-- The rows of a profile, for the workers of the runtime. -/
def WriterOptions.rowLines (options : WriterOptions) (profile : AmProfile Nat) :
    List (List Byte) :=
  profileLines options.rank profile ((List.range options.workerCount).filterMap profile.workers)

/-- A completed phase leaves what its recorder has counted. -/
def Recorded (store : ProfileStore) : Prop :=
  ∀ entry ∈ store.completed, ∃ recorder : AmProfileRecorder Nat,
    recorder.enabled = true ∧ entry.2 = recorder.snapshot

theorem complete_recorded (recorded : Recorded store) (phase : ActivePhase) (again : Nat) :
    Recorded (store.completePhase phase again) := by
  intro entry member
  unfold ProfileStore.completePhase at member
  dsimp only at member
  split at member
  case isTrue enabled =>
    rcases List.mem_append.mp member with before | last
    · exact recorded entry before
    · obtain rfl := List.mem_singleton.mp last
      exact ⟨phase.recorder, enabled, rfl⟩
  case isFalse => exact recorded entry member

theorem step_recorded (recorded : Recorded store) {action : StoreAction}
    (stepped : store.step options action = some store') : Recorded store' := by
  cases action with
  | registerPhase name =>
      simp only [ProfileStore.step] at stepped
      split at stepped
      · cases stepped
      · obtain rfl := Option.some.inj stepped
        exact recorded
  | measure measured =>
      obtain ⟨phase, active, rfl⟩ := Option.map_eq_some_iff.mp stepped
      exact recorded
  | completePhase again =>
      obtain ⟨phase, active, rfl⟩ := Option.map_eq_some_iff.mp stepped
      exact complete_recorded recorded phase again
  | abandonPhase =>
      obtain ⟨phase, active, rfl⟩ := Option.map_eq_some_iff.mp stepped
      exact recorded
  | writeProfiles =>
      rcases write_profiles_cases stepped with ⟨result, rfl⟩ | ⟨-, -, same, -⟩
      · exact recorded
      · unfold Recorded
        rw [same]
        exact recorded
  | answer io =>
      obtain ⟨writing, busy, answered⟩ := Option.bind_eq_some_iff.mp stepped
      cases answer_cases answered with
      | continues content next same => exact recorded
      | fails content message => exact recorded
      | replaces => exact recorded

theorem reachable_recorded
    (reached : (storeSystem options).Reachable (fun _ _ => True) (.initial earlier) store) :
    Recorded store := by
  apply reached.invariant
  · intro entry member
    cases member
  · intro before after action _ recorded _ stepped
    exact step_recorded recorded stepped

/-- The rows of what an enabled recorder has counted are lines. -/
theorem recorded_rows {profile : AmProfile Nat}
    (recorded : ∃ recorder : AmProfileRecorder Nat,
      recorder.enabled = true ∧ profile = recorder.snapshot) :
    options.profileRows profile = (options.rowLines profile).flatMap fun line => line ++ [10] := by
  obtain ⟨recorder, enabled, rfl⟩ := recorded
  have workers : (List.range options.workerCount).filterMap recorder.snapshot.workers =
      (List.range options.workerCount).map recorder.workers := by
    rw [← List.filterMap_eq_map]
    apply List.filterMap_congr
    intro worker _
    exact if_pos enabled
  unfold WriterOptions.rowLines
  rw [snapshot_rows_text enabled, workers]

theorem rows_text {profiles : List (AmProfile Nat)}
    (recorded : ∀ profile ∈ profiles, ∃ recorder : AmProfileRecorder Nat,
      recorder.enabled = true ∧ profile = recorder.snapshot) :
    options.rows profiles =
      (profiles.flatMap options.rowLines).flatMap fun line => line ++ [10] := by
  unfold WriterOptions.rows
  rw [List.flatMap_assoc]
  apply List.flatMap_congr
  intro profile member
  exact recorded_rows (recorded profile member)

/-- A reader finds the rows of the profiles in the text, and nothing else. -/
theorem rows_lines {profiles : List (AmProfile Nat)}
    (recorded : ∀ profile ∈ profiles, ∃ recorder : AmProfileRecorder Nat,
      recorder.enabled = true ∧ profile = recorder.snapshot) :
    Json.lines (options.rows profiles) = profiles.flatMap options.rowLines := by
  rw [rows_text recorded]
  apply Json.lines_flatMap
  rintro line member byte inside rfl
  obtain ⟨profile, -, row⟩ := List.mem_flatMap.mp member
  exact absurd (lines_printable row 10 inside) (by decide)

/-- A file with profiles in it has something to copy. -/
theorem rows_nonempty {profiles : List (AmProfile Nat)} (some : profiles ≠ []) :
    options.rows profiles ≠ [] := by
  cases profiles with
  | nil => exact absurd rfl some
  | cons profile rest =>
      intro empty
      exact profile_rows_nonempty profile (List.append_eq_nil_iff.mp empty).1

/-- A call that fails has had a file operation fail, this one or one before it. -/
theorem failed_operation (booked : Booked options earlier store) {writing : Writing} {io : IoAnswer}
    {message : List Byte} (busy : store.writing = some writing)
    (answered : store.answer options writing io = some store')
    (failed : store'.returns = store.returns ++ [.error message]) :
    io.succeeded = false ∨ writing.good = false := by
  by_contra fine
  push Not at fine
  obtain ⟨succeeded, good⟩ := fine
  have done : io.succeeded = true := by simpa using succeeded
  have sound : writing.good = true := by simpa using good
  have fits := (booked.busy writing busy).2
  have unchanged : ∀ {returns : List (Except (List Byte) Unit)}, returns = store.returns →
      returns ≠ store.returns ++ [.error message] := by
    rintro returns rfl same
    have longer := congrArg List.length same
    simp at longer
  have added : ∀ bytes, store.insertion writing bytes io =
      ({ store with temporaryFile := some (store.temporaryFile.getD [] ++ bytes) }, writing) := by
    intro bytes
    unfold ProfileStore.insertion
    rw [if_pos sound, if_pos done]
  cases stage : writing.stage with
  | createDirectories =>
      simp only [ProfileStore.answer, stage, done, if_true] at answered
      obtain rfl := Option.some.inj answered
      exact unchanged rfl failed
  | openTemporary =>
      simp only [ProfileStore.answer, stage, done, if_true] at answered
      split at answered
      · obtain rfl := Option.some.inj answered
        exact unchanged rfl failed
      · obtain rfl := Option.some.inj answered
        exact unchanged rfl failed
  | openPrevious =>
      simp only [ProfileStore.answer, stage, done, if_true] at answered
      split at answered
      · obtain rfl := Option.some.inj answered
        exact unchanged rfl failed
      · cases answered
  | copyPrevious =>
      -- the file to copy holds a row, so that the copy does not set `failbit`
      simp only [StageFits, stage] at fits
      have file := booked.file
      rw [if_pos fits.2.1] at file
      have filled : options.rows store.written ≠ [] :=
        rows_nonempty (booked.started.mp fits.2.1)
      simp only [ProfileStore.answer, stage, file, Option.map_some, ProfileStore.copyPrevious,
        added, sound, filled, ne_eq, not_false_eq_true, and_self, if_true] at answered
      obtain rfl := Option.some.inj answered
      exact unchanged rfl failed
  | writeRows remaining =>
      cases remaining with
      | nil =>
          simp only [ProfileStore.answer, stage, done, sound, and_self, if_true] at answered
          obtain rfl := Option.some.inj answered
          exact unchanged rfl failed
      | cons profile remaining =>
          simp only [ProfileStore.answer, stage, added] at answered
          obtain rfl := Option.some.inj answered
          exact unchanged rfl failed
  | rename =>
      simp only [ProfileStore.answer, stage, done, if_true] at answered
      obtain rfl := Option.some.inj answered
      have last := List.append_cancel_left failed
      cases last

end Content

/-- Profiles of rank 0 with one worker in the directory `profiles`. -/
def oneWorkerProfiles : WriterOptions where
  rank := 0
  enabled := true
  workerCount := 1
  outputDirectory := ascii "profiles"
  filePrefix := ascii "lci-irregular-profile"

def succeeded : StoreAction := .answer { succeeded := true }

/-- A first write whose rename fails while a second phase completes, a write of
both, and a third phase whose write cannot copy the output file. -/
def interruptedWrites : List StoreAction :=
  [.registerPhase (ascii "first"), .measure ⟨.flush, some 0, 2, 8, 5⟩, .completePhase 1,
    .writeProfiles, succeeded, succeeded, succeeded,
    .registerPhase (ascii "second"), .completePhase 0, succeeded,
    .answer { succeeded := false, what := ascii "rename" },
    .writeProfiles, succeeded, succeeded, succeeded, succeeded, succeeded, succeeded,
    .registerPhase (ascii "third"), .completePhase 0, .writeProfiles,
    succeeded, succeeded, succeeded,
    .answer { succeeded := false, kept := 3 }]

/-- A row of the file, as a reader sees it. -/
def writtenRow (name inScope operation counters : String) : List Byte :=
  ascii "\x7b\"rank\":0,\"phase\":0,\"name\":\"" ++ ascii name ++ ascii "\",\"scope\":\"" ++
    ascii inScope ++ ascii "\",\"operation\":\"" ++ ascii operation ++ ascii "\"," ++
    ascii counters ++ ascii "\x7d"

/-- The rows of one scope, by what it counted in its flushes. -/
def writtenScope (name inScope flushed : String) : List (List Byte) :=
  writtenRow name inScope "flush" flushed ::
    ["progress", "remote_receive", "loopback_receive"].map fun operation =>
      writtenRow name inScope operation
        "\"calls\":0,\"records\":0,\"payload_bytes\":0,\"elapsed_nanoseconds\":0"

def writtenLines : List (List Byte) :=
  (["aggregate", "worker-0"].flatMap fun inScope => writtenScope "first" inScope
    "\"calls\":1,\"records\":2,\"payload_bytes\":8,\"elapsed_nanoseconds\":5") ++
  ["aggregate", "worker-0"].flatMap fun inScope => writtenScope "second" inScope
    "\"calls\":0,\"records\":0,\"payload_bytes\":0,\"elapsed_nanoseconds\":0"

theorem interrupted_rows :
    ((storeSystem oneWorkerProfiles).run (.initial none) interruptedWrites).map (fun store =>
      (store.writing.isNone, store.written.flatMap oneWorkerProfiles.rowLines,
        store.pendingProfiles.map AmProfile.name)) =
      some (true, writtenLines, [ascii "third"]) := by
  decide +kernel

end IntegerSortLci.Runtime
