import OpenNtl.SqliteUpgrade

/-! # Several processes migrating one file

The version is read before the first transaction begins. A process that has read that there is
no schema creates it again, which changes no table, and writes the version of the first
migration over that of the second.
-/
namespace OpenNtl.Sqlite

open AtomicProgram SqlCatalog

variable {F ι : Type} [DecidableEq F] [DecidableEq ι]

/-- What a process may still have to do at a stage while others migrate too. -/
inductive Racing (g : Stage) : MigrateM F Unit → Prop
  | finished {p : MigrateM F Unit} (done : p.Finished) : Racing g p
  | reading : Racing g migrate
  | both : Racing g (applyNewer 0)
  | window (created : g ≠ .fresh) : Racing g (applyNewer 1)

/-- The version says at which stage the file is, or that it has fewer columns than it has. -/
def Sound (file : SqliteFile F) (g : Stage) : Prop :=
  InStep file g ∨ g = .windowed ∧ Stranded file

variable {g g' : Stage} {file : SqliteFile F}

omit [DecidableEq ι] in
theorem Sound.shape (h : Sound file g) : file.catalog.SameShape g.schema := by
  rcases h with inStep | ⟨rfl, stranded⟩
  · exact inStep.shape
  · exact stranded.shape

omit [DecidableEq ι] in
theorem Sound.known (h : Sound file g) : 0 ≤ file.userVersion := by
  rcases h with inStep | ⟨rfl, stranded⟩
  · rw [inStep.version]
    cases g <;> decide
  · rw [stranded.version]
    decide

omit [DecidableEq ι] in
theorem Sound.congr {file' : SqliteFile F} (version : file'.userVersion = file.userVersion)
    (same : file'.catalog.SameShape file.catalog) (h : Sound file g) : Sound file' g := by
  rcases h with inStep | ⟨rfl, stranded⟩
  · exact Or.inl ⟨same.trans inStep.shape, version.trans inStep.version⟩
  · exact Or.inr ⟨rfl, same.trans stranded.shape, version.trans stranded.version⟩

omit [DecidableEq ι] in
theorem Racing.mono {p : MigrateM F Unit} (h : Racing g p) (later : g ≠ .fresh → g' ≠ .fresh) :
    Racing g' p := by
  cases h with
  | finished done => exact .finished done
  | reading => exact .reading
  | both => exact .both
  | window created => exact .window (later created)

/-- What a step that is no transaction, or a transaction that fails, does. -/
structure Idles (g : Stage) (s s' : SqliteDisk F) (p' : MigrateM F Unit) : Prop where
  file : s'.file = s.file
  racing : Racing g p'

theorem Racing.next {p : MigrateM F Unit} {s : SqliteDisk F} (racing : Racing g p)
    (sound : Sound s.file g) :
    Idles g s (p.next s).2 (p.next s).1 ∨
    (p = applyNewer 0 ∧ (transact initialSchema s).1 = .ok () ∧
      (p.next s).1 = applyNewer 1 ∧ (p.next s).2.file.userVersion = 1 ∧
      (p.next s).2.file.catalog.SameShape g.initialized.schema ∧
      s.file.catalog.Extends (p.next s).2.file.catalog) ∨
    (p = applyNewer 1 ∧ (p.next s).1.Finished ∧ g = .initial ∧
      InStep (p.next s).2.file .windowed ∧ s.file.catalog.Extends (p.next s).2.file.catalog) := by
  cases racing with
  | finished done =>
    cases p with
    | pure a => exact Or.inl ⟨rfl, .finished trivial⟩
    | throw e => exact Or.inl ⟨rfl, .finished trivial⟩
    | step act k => cases done
  | reading =>
    refine Or.inl ?_
    rw [migrate_eq, Prog.next]
    refine ⟨readUserVersion_file s, ?_⟩
    rcases readUserVersion_cases sound.known with found | ⟨e, failed⟩
    · rw [found]
      rcases sound with inStep | ⟨rfl, stranded⟩
      · rw [inStep.version]
        cases g with
        | fresh => exact .both
        | initial => exact .window (by decide)
        | windowed => exact .finished trivial
      · rw [stranded.version]
        exact .window (by decide)
    · rw [failed]
      exact .finished trivial
  | both =>
    rw [applyNewer_zero, Prog.next]
    rcases initialSchema_transacts sound.shape with ⟨ok, version, shape, more⟩ | ⟨⟨e, failed⟩, same⟩
    · refine Or.inr (Or.inl ⟨rfl, ok, ?_, version, shape, more⟩)
      simp only [ok]
      rfl
    · refine Or.inl ⟨same, ?_⟩
      simp only [failed]
      exact .finished trivial
  | window created =>
    rw [applyNewer_one, Prog.next]
    rcases failureWindow_transacts sound.shape created with
      ⟨ok, here, there, more⟩ | ⟨⟨e, failed⟩, same⟩
    · refine Or.inr (Or.inr ⟨rfl, ?_, here, there, more⟩)
      simp only [ok]
      trivial
    · refine Or.inl ⟨same, ?_⟩
      simp only [failed]
      exact .finished trivial

def migrates (_ : ι) (p : MigrateM F Unit) : Prop := p = migrate

def RowsChange (s s' : SqliteDisk F) : Prop :=
  s'.file.userVersion = s.file.userVersion ∧ s'.file.catalog.SameShape s.file.catalog

abbrev MigrationRace (P P' : Pool ι (SqliteDisk F) StoreError Unit) : Prop :=
  Pool.Run migrates RowsChange (fun _ _ => True) P P'

structure Orderly (P : Pool ι (SqliteDisk F) StoreError Unit) (g : Stage) : Prop where
  sound : Sound P.state.file g
  tasks : ∀ i, Racing g (P.task i)

variable {P P' : Pool ι (SqliteDisk F) StoreError Unit}

theorem Orderly.update (h : Orderly P g) {i : ι} {p : MigrateM F Unit} {s : SqliteDisk F}
    (sound : Sound s.file g') (later : g ≠ .fresh → g' ≠ .fresh) (mine : Racing g' p) :
    Orderly ⟨Function.update P.task i p, s⟩ g' := by
  refine ⟨sound, fun j => ?_⟩
  by_cases here : j = i
  · subst here
    simp only [Function.update_self]
    exact mine
  · simp only [Function.update_of_ne here]
    exact (h.tasks j).mono later

theorem Orderly.advance (h : Orderly P g) (i : ι) : ∃ g', Orderly (P.advance i) g' := by
  rw [Pool.advance_eq]
  rcases (h.tasks i).next h.sound with idles | ⟨-, -, now, version, shape, -⟩ |
    ⟨-, now, rfl, there, -⟩
  · refine ⟨g, h.update ?_ id idles.racing⟩
    rw [idles.file]
    exact h.sound
  · refine ⟨g.initialized, h.update ?_ ?_ ?_⟩
    · cases g with
      | fresh => exact Or.inl ⟨shape, version⟩
      | initial => exact Or.inl ⟨shape, version⟩
      | windowed => exact Or.inr ⟨rfl, shape, version⟩
    · cases g <;> decide
    · rw [now]
      exact .window (by cases g <;> decide)
  · exact ⟨.windowed, h.update (Or.inl there) (by decide) (.finished now)⟩

theorem Orderly.step (h : Orderly P g) (step : Pool.Step migrates RowsChange P P') :
    ∃ g', Orderly P' g' := by
  cases step with
  | start idle offered =>
    cases offered
    exact ⟨g, h.update h.sound id .reading⟩
  | advance busy => exact h.advance _
  | outside change => exact ⟨g, h.sound.congr change.1 change.2, h.tasks⟩

theorem Orderly.run (h : Orderly P g) (run : MigrationRace P P') : ∃ g', Orderly P' g' := by
  induction run with
  | refl => exact ⟨g, h⟩
  | step _ step _ ih =>
    obtain ⟨g', there⟩ := ih
    exact there.step step

omit [DecidableEq ι] in
theorem orderly_start (quiet : P.Quiescent) (fresh : P.state.file = ⟨0, .empty⟩) :
    Orderly P .fresh := by
  refine ⟨Or.inl ?_, fun i => .finished (quiet i)⟩
  rw [fresh]
  exact ⟨.refl _, rfl⟩

theorem Orderly.keeps (h : Orderly P g) (i : ι) :
    P.state.file.catalog.Extends (P.advance i).state.file.catalog := by
  rw [Pool.advance_eq]
  rcases (h.tasks i).next h.sound with idles | ⟨-, -, -, -, -, kept⟩ | ⟨-, -, -, -, kept⟩
  · rw [idles.file]
    exact .refl _
  · exact kept
  · exact kept

omit [DecidableEq ι] in
/-- A transaction takes place if its script runs and none of its four calls fails. -/
theorem transact_returns (m : SchemaMigration F) (s : SqliteDisk F) :
    (transact m s).1 = .ok () ↔ (∃ c, s.file.catalog.executeBatch m.sql = .ok c) ∧
      s.call.1 = none ∧ s.call.2.call.1 = none ∧ s.call.2.call.2.call.1 = none ∧
      s.call.2.call.2.call.2.call.1 = none := by
  rw [transact]
  cases s.call.1 with
  | some e => simp
  | none =>
    cases s.call.2.call.1 with
    | some e => simp
    | none =>
      cases s.file.catalog.executeBatch m.sql with
      | error e => simp
      | ok c =>
        cases s.call.2.call.2.call.1 with
        | some e => simp
        | none =>
          cases s.call.2.call.2.call.2.call.1 with
          | some e => simp
          | none => simp

/-- Only a process that found no schema, and begins when another has brought the file to the last
stage, strands it. -/
theorem Orderly.strands (h : Orderly P g) (fine : ¬ Stranded P.state.file) (i : ι) :
    Stranded (P.advance i).state.file ↔ P.task i = applyNewer 0 ∧ InStep P.state.file .windowed ∧
      (transact initialSchema P.state).1 = .ok () := by
  have inStep : InStep P.state.file g := h.sound.resolve_right fun stranded => fine stranded.2
  rw [Pool.advance_eq]
  rcases (h.tasks i).next h.sound with idles | ⟨both, ok, -, version, shape, -⟩ |
    ⟨window, -, here, there, -⟩
  · constructor
    · intro stranded
      rw [idles.file] at stranded
      exact absurd stranded fine
    · rintro ⟨both, windowed, ok⟩
      have same := idles.file
      rw [both, applyNewer_zero, Prog.next] at same
      rcases initialSchema_transacts windowed.shape with ⟨-, version, -⟩ | ⟨⟨e, failed⟩, -⟩
      · have one := version.symm.trans (congrArg SqliteFile.userVersion same)
        rw [windowed.version] at one
        cases one
      · cases ok.symm.trans failed
  · constructor
    · intro stranded
      refine ⟨both, ?_, ok⟩
      have windowed := stage_unique shape stranded.shape
      cases g with
      | fresh => cases windowed
      | initial => cases windowed
      | windowed => exact inStep
    · rintro ⟨-, windowed, -⟩
      obtain rfl := stage_unique inStep.shape windowed.shape
      exact ⟨shape, version⟩
  · constructor
    · exact fun stranded => absurd stranded there.not_stranded
    · rintro ⟨-, windowed, -⟩
      obtain rfl := stage_unique inStep.shape windowed.shape
      cases here

theorem Orderly.stuck (h : Orderly P g) (stranded : Stranded P.state.file)
    (step : Pool.Step migrates RowsChange P P') : Stranded P'.state.file := by
  obtain rfl := stage_unique h.sound.shape stranded.shape
  cases step with
  | start idle offered => exact stranded
  | @advance i busy =>
    rw [Pool.advance_eq]
    rcases (h.tasks i).next h.sound with idles | ⟨-, -, -, version, shape, -⟩ | ⟨-, -, here, -⟩
    · rw [idles.file]
      exact stranded
    · exact ⟨shape, version⟩
    · cases here
  | outside change => exact ⟨change.2.trans stranded.shape, change.1.trans stranded.version⟩

theorem Orderly.stuck_run (h : Orderly P g) (stranded : Stranded P.state.file)
    (run : MigrationRace P P') : Stranded P'.state.file := by
  induction run with
  | refl => exact stranded
  | step before step _ ih =>
    obtain ⟨g', there⟩ := h.run before
    exact there.stuck ih step

omit [DecidableEq ι] in
theorem Stranded.refuses (h : Stranded file) (faults : List (Option String)) :
    ∃ version reason, (migrate.run ⟨file, faults⟩).1 = .error (.migration version reason) := by
  have known : 0 ≤ file.userVersion := by
    rw [h.version]
    decide
  rw [migrate_eq, Prog.run_step]
  rcases readUserVersion_cases (s := ⟨file, faults⟩) known with found | ⟨e, failed⟩
  · rw [found, h.version]
    change ∃ version reason,
      ((applyNewer 1).run (readUserVersion ⟨file, faults⟩).2).1 = .error (.migration version reason)
    have shape : (readUserVersion ⟨file, faults⟩).2.file.catalog.SameShape
        Stage.windowed.schema := by
      rw [readUserVersion_file]
      exact h.shape
    rw [applyNewer_one, Prog.run_step]
    rcases failureWindow_transacts shape (by decide) with ⟨-, here, -⟩ | ⟨⟨e, failed⟩, -⟩
    · cases here
    · rw [failed]
      exact ⟨_, _, rfl⟩
  · rw [failed]
    exact ⟨_, _, rfl⟩

/-- A process that begins on a stranded file, and what it may still have to do. -/
inductive Refused : MigrateM F Unit → Prop
  | reading : Refused migrate
  | window : Refused (applyNewer 1)
  | failed (e : StoreError) : Refused (.throw e)

omit [DecidableEq ι] in
theorem Refused.next {p : MigrateM F Unit} {s : SqliteDisk F} (refused : Refused p)
    (stranded : Stranded s.file) : Refused (p.next s).1 := by
  cases refused with
  | reading =>
    have known : 0 ≤ s.file.userVersion := by
      rw [stranded.version]
      decide
    rw [migrate_eq, Prog.next]
    rcases readUserVersion_cases known with found | ⟨e, failed⟩
    · rw [found, stranded.version]
      exact .window
    · rw [failed]
      exact .failed _
  | window =>
    rw [applyNewer_one, Prog.next]
    rcases failureWindow_transacts stranded.shape (by decide) with ⟨-, here, -⟩ | ⟨⟨e, failed⟩, -⟩
    · cases here
    · simp only [failed]
      exact .failed _
  | failed e => exact .failed e

/-- Whatever the others do, it never succeeds. -/
theorem Orderly.refused_run (h : Orderly P g) (stranded : Stranded P.state.file)
    (run : MigrationRace P P') {i : ι} (begun : Refused (P.task i)) : Refused (P'.task i) := by
  induction run with
  | refl => exact begun
  | @step P' P'' before step _ ih =>
    have stuck := h.stuck_run stranded before
    cases step with
    | @start j p idle offered =>
      cases offered
      by_cases here : i = j
      · subst here
        simp only [Pool.begin, Function.update_self]
        exact .reading
      · simp only [Pool.begin, Function.update_of_ne here]
        exact ih
    | @advance j busy =>
      rw [Pool.advance_eq]
      by_cases here : i = j
      · subst here
        simp only [Function.update_self]
        exact ih.next stuck
      · simp only [Function.update_of_ne here]
        exact ih
    | outside change => exact ih

/-- What is true of a file that any number of processes have migrated at once. -/
structure Raced (P : Pool ι (SqliteDisk F) StoreError Unit) : Prop where
  file : (∃ g, InStep P.state.file g) ∨ Stranded P.state.file
  keeps : ∀ i, P.state.file.catalog.Extends (P.advance i).state.file.catalog
  /-- What strands a file. -/
  strands : ¬ Stranded P.state.file → ∀ i, Stranded (P.advance i).state.file ↔
    P.task i = applyNewer 0 ∧ InStep P.state.file .windowed ∧ P.state.call.1 = none ∧
      P.state.call.2.call.1 = none ∧ P.state.call.2.call.2.call.1 = none ∧
      P.state.call.2.call.2.call.2.call.1 = none
  forever : Stranded P.state.file → ∀ P', MigrationRace P P' → Stranded P'.state.file
  refuses : Stranded P.state.file → ∀ faults, ∃ version reason,
    (migrate.run ⟨P.state.file, faults⟩).1 = .error (.migration version reason)
  /-- Nor does one that begins there succeed while others go on. -/
  fails : Stranded P.state.file → ∀ P', MigrationRace P P' → ∀ i, P.task i = migrate →
    P'.task i ≠ .pure ()
  /-- On its own, a process brings any other file to the last stage. -/
  returns : ¬ Stranded P.state.file → ∀ faults, (∀ fault ∈ faults, fault = none) →
    (migrate.run ⟨P.state.file, faults⟩).1 = .ok () ∧
      InStep (migrate.run ⟨P.state.file, faults⟩).2.file .windowed

/-- Under every interleaving of any number of processes that migrate a new file, whatever calls
fail and whoever stops half way. -/
theorem migrations_race {P₀ P : Pool ι (SqliteDisk F) StoreError Unit} (quiet : P₀.Quiescent)
    (fresh : P₀.state.file = ⟨0, .empty⟩) (run : MigrationRace P₀ P) : Raced P := by
  obtain ⟨g, orderly⟩ := (orderly_start quiet fresh).run run
  have fine : ¬ Stranded P.state.file → InStep P.state.file g :=
    fun not => orderly.sound.resolve_right fun stranded => not stranded.2
  constructor
  case file => exact orderly.sound.imp (fun inStep => ⟨g, inStep⟩) And.right
  case keeps => exact orderly.keeps
  case strands =>
    intro not i
    rw [orderly.strands not i, transact_returns]
    constructor
    · rintro ⟨both, windowed, -, calls⟩
      exact ⟨both, windowed, calls⟩
    · rintro ⟨both, windowed, calls⟩
      obtain ⟨c, done, -⟩ := initialSchema_at windowed.shape
      exact ⟨both, windowed, ⟨c, done⟩, calls⟩
  case forever => exact fun stranded P' later => orderly.stuck_run stranded later
  case refuses => exact fun stranded => stranded.refuses
  case fails =>
    intro stranded P' later i begun succeeded
    have refused := orderly.refused_run stranded later (begun ▸ Refused.reading)
    rw [succeeded] at refused
    cases refused
  case returns =>
    intro not faults none
    have returned := (fine not).migrates none
    exact ⟨returned, ((fine not).migrated returned).1⟩

def newFile : Pool Bool (SqliteDisk ℤ) StoreError Unit := ⟨fun _ => .pure (), ⟨⟨0, .empty⟩, []⟩⟩

def firstStarts : Pool Bool (SqliteDisk ℤ) StoreError Unit :=
  (newFile.begin false migrate).begin true migrate

/-- Both have found no schema, one has migrated, and the other creates the schema again. -/
def strandedStarts : Pool Bool (SqliteDisk ℤ) StoreError Unit :=
  ((((firstStarts.advance true).advance false).advance false).advance false).advance true

theorem stranded_run : MigrationRace newFile strandedStarts := by
  refine .step (.step (.step (.step (.step (.step (.step .refl (.start (i := false) trivial rfl)
    trivial) (.start (i := true) trivial rfl) trivial) (.advance ?_) trivial) (.advance ?_) trivial)
    (.advance ?_) trivial) (.advance ?_) trivial) (.advance ?_) trivial
  · exact Prog.isFinished_eq_false (by decide +kernel)
  · exact Prog.isFinished_eq_false (by decide +kernel)
  · exact Prog.isFinished_eq_false (by decide +kernel)
  · exact Prog.isFinished_eq_false (by decide +kernel)
  · exact Prog.isFinished_eq_false (by decide +kernel)

theorem newFile_quiet : newFile.Quiescent := fun _ => trivial

theorem first_starts_strand : strandedStarts.state.file.userVersion = 1 ∧
    synapseWidth strandedStarts.state.file.catalog = some 14 ∧ Raced strandedStarts :=
  ⟨by decide +kernel, by decide +kernel, migrations_race newFile_quiet rfl stranded_run⟩

end OpenNtl.Sqlite
