import OpenNtl.Interleaving
import OpenNtl.SqliteMigration

/-! # Upgrading the SQLite store

The file goes through three shapes: without tables, with the initial schema, and with the
failure window. The version says which one it is, unless two processes migrated it at once.
-/
namespace OpenNtl.Sqlite

open AtomicProgram SqlCatalog

variable {F : Type} [DecidableEq F]

inductive Stage where
  | fresh
  | initial
  | windowed
  deriving DecidableEq

def initialCatalog : Catalog F := (Catalog.empty.executeBatch initialSchema.sql).toOption.getD .empty

def currentCatalog : Catalog F :=
  (initialCatalog.executeBatch failureWindow.sql).toOption.getD .empty

namespace Stage

def version : Stage → ℤ
  | fresh => 0
  | initial => 1
  | windowed => 2

def schema : Stage → Catalog F
  | fresh => .empty
  | initial => initialCatalog
  | windowed => currentCatalog

def initialized : Stage → Stage
  | fresh => initial
  | g => g

end Stage

theorem empty_initialSchema :
    (Catalog.empty : Catalog F).executeBatch initialSchema.sql = .ok initialCatalog := by
  have done : ((Catalog.empty : Catalog F).executeBatch initialSchema.sql).isOk = true := rfl
  rw [initialCatalog]
  cases ran : (Catalog.empty : Catalog F).executeBatch initialSchema.sql with
  | error e =>
    rw [ran] at done
    cases done
  | ok c => rfl

omit [DecidableEq F] in
theorem initialSchema_creates : ∀ s ∈ (initialSchema : SchemaMigration F).sql,
    Catalog.creates s = true := List.all_eq_true.mp rfl

theorem initial_synapses :
    (initialCatalog : Catalog F).tables.lookup "synapses" = some ⟨synapseColumns, []⟩ :=
  Catalog.executeBatch_lookup empty_initialSchema initialSchema_creates "synapses"

theorem failureWindow_on {c : Catalog F} {t : Table F} (found : c.tables.lookup "synapses" = some t)
    (columns : t.columns = synapseColumns) :
    ∃ c', c.executeBatch failureWindow.sql = .ok c' ∧
      c'.tables.lookup "synapses" = some (t.extend failureColumns) ∧
      (∀ other, other ≠ "synapses" → c'.tables.lookup other = c.tables.lookup other) ∧
      c'.indexes = c.indexes := by
  have fresh : ∀ column ∈ (failureColumns : List (Column F)), t.hasColumn column.name = false := by
    intro column member
    rw [Table.hasColumn, columns]
    fin_cases member
    · rfl
    · rfl
  have distinct : ["signature_failures", "failure_window_start_ns"].Nodup := by decide
  exact Catalog.executeBatch_addColumns found fresh distinct

theorem initial_failureWindow :
    (initialCatalog : Catalog F).executeBatch failureWindow.sql = .ok currentCatalog := by
  obtain ⟨c, done, -⟩ := failureWindow_on (F := F) initial_synapses rfl
  rw [currentCatalog, done]
  rfl

theorem current_tables :
    (currentCatalog : Catalog F).tables.lookup "synapses" =
        some ⟨synapseColumns ++ failureColumns, []⟩ ∧
      (∀ other, other ≠ "synapses" → (currentCatalog : Catalog F).tables.lookup other =
        initialCatalog.tables.lookup other) ∧
      (currentCatalog : Catalog F).indexes = (initialCatalog : Catalog F).indexes := by
  obtain ⟨c, done, facts⟩ := failureWindow_on (F := F) initial_synapses rfl
  cases (initial_failureWindow (F := F)).symm.trans done
  exact facts

variable {c : Catalog F} {g : Stage}

theorem initialSchema_at (h : c.SameShape g.schema) :
    ∃ c', c.executeBatch initialSchema.sql = .ok c' ∧ c'.SameShape g.initialized.schema := by
  have present := Catalog.executeBatch_present (F := F) empty_initialSchema initialSchema_creates
  cases g with
  | fresh =>
    obtain rfl := h.eq_empty
    exact ⟨_, empty_initialSchema, .refl _⟩
  | initial =>
    refine ⟨c, Catalog.executeBatch_of_present fun s member => ?_, h⟩
    rw [h.present]
    exact present s member
  | windowed =>
    refine ⟨c, Catalog.executeBatch_of_present fun s member => ?_, h⟩
    rw [h.present]
    exact Catalog.executeBatch_keeps_present initial_failureWindow (present s member)

theorem failureWindow_at_initial (h : c.SameShape Stage.initial.schema) :
    ∃ c', c.executeBatch failureWindow.sql = .ok c' ∧ c'.SameShape Stage.windowed.schema := by
  obtain ⟨t, found, columns⟩ := h.lookup initial_synapses
  obtain ⟨c', done, mine, others, indexes⟩ := failureWindow_on found columns
  obtain ⟨current, currentOthers, currentIndexes⟩ := current_tables (F := F)
  refine ⟨c', done, fun name => ?_, fun name => ?_⟩
  · by_cases here : name = "synapses"
    · rw [here, mine, Stage.schema, current]
      exact congrArg (fun cs => some (cs ++ failureColumns)) columns
    · rw [others name here, Stage.schema, currentOthers name here]
      exact h.tables name
  · rw [indexes, Stage.schema, currentIndexes]
    exact h.indexes name

theorem failureWindow_at_windowed (h : c.SameShape Stage.windowed.schema) :
    c.executeBatch failureWindow.sql = .error "duplicate column name: signature_failures" := by
  obtain ⟨t, found, columns⟩ := h.lookup current_tables.1
  refine Catalog.executeBatch_duplicate found ?_ _
  rw [Table.hasColumn, columns]
  rfl

def synapseWidth (c : Catalog F) : Option ℕ :=
  ((c.tables.lookup "synapses").map Table.columns).map List.length

theorem synapseWidth_schema (g : Stage) : synapseWidth (F := F) g.schema =
    match g with
    | .fresh => none
    | .initial => some 12
    | .windowed => some 14 := by
  cases g with
  | fresh => rfl
  | initial =>
    rw [synapseWidth, Stage.schema, initial_synapses]
    rfl
  | windowed =>
    rw [synapseWidth, Stage.schema, current_tables.1]
    rfl

theorem stage_unique {g' : Stage} (h : c.SameShape g.schema) (h' : c.SameShape g'.schema) :
    g = g' := by
  have same := congrArg (Option.map List.length)
    (((h.tables "synapses").symm.trans (h'.tables "synapses")))
  change synapseWidth g.schema = synapseWidth g'.schema at same
  rw [synapseWidth_schema, synapseWidth_schema] at same
  cases g <;> cases g' <;> first | rfl | cases same

def Healthy (s : SqliteDisk F) : Prop := ∀ fault ∈ s.faults, fault = none

omit [DecidableEq F] in
theorem Healthy.call {s : SqliteDisk F} (h : Healthy s) : s.call.1 = none ∧ Healthy s.call.2 := by
  rcases s with ⟨file, _ | ⟨fault, rest⟩⟩
  · exact ⟨rfl, h⟩
  · exact ⟨h fault List.mem_cons_self, fun f later => h f (List.mem_cons_of_mem _ later)⟩

theorem transact_cases (m : SchemaMigration F) (s : SqliteDisk F) :
    ((transact m s).1 = .ok () ∧ ∃ c, s.file.catalog.executeBatch m.sql = .ok c ∧
      (transact m s).2.file = ⟨m.version, c⟩) ∨
    (∃ e, (transact m s).1 = .error (.migration m.version.toNat e)) ∧
      (transact m s).2.file = s.file := by
  rw [transact]
  cases s.call.1 with
  | some e => exact Or.inr ⟨⟨e, rfl⟩, rfl⟩
  | none =>
    simp only
    cases s.call.2.call.1 with
    | some e => exact Or.inr ⟨⟨_, rfl⟩, rfl⟩
    | none =>
      simp only
      cases s.file.catalog.executeBatch m.sql with
      | error e => exact Or.inr ⟨⟨_, rfl⟩, rfl⟩
      | ok c =>
        simp only
        cases s.call.2.call.2.call.1 with
        | some e => exact Or.inr ⟨⟨e, rfl⟩, rfl⟩
        | none =>
          simp only
          cases s.call.2.call.2.call.2.call.1 with
          | some e => exact Or.inr ⟨⟨e, rfl⟩, rfl⟩
          | none => exact Or.inl ⟨rfl, c, rfl, rfl⟩

theorem transact_healthy (m : SchemaMigration F) {s : SqliteDisk F} (healthy : Healthy s) :
    Healthy (transact m s).2 ∧ ∀ c, s.file.catalog.executeBatch m.sql = .ok c →
      (transact m s).1 = .ok () ∧ (transact m s).2.file = ⟨m.version, c⟩ := by
  obtain ⟨first, healthy₁⟩ := healthy.call
  obtain ⟨second, healthy₂⟩ := healthy₁.call
  obtain ⟨third, healthy₃⟩ := healthy₂.call
  obtain ⟨fourth, healthy₄⟩ := healthy₃.call
  rw [transact]
  simp only [first, second]
  cases s.file.catalog.executeBatch m.sql with
  | error e => exact ⟨healthy₂, fun c done => by cases done⟩
  | ok c =>
    simp only [third, fourth]
    exact ⟨healthy₄, fun c' done => by
      cases done
      exact ⟨trivial, rfl⟩⟩

/-- The version says at which stage the file is. -/
structure InStep (file : SqliteFile F) (g : Stage) : Prop where
  shape : file.catalog.SameShape g.schema
  version : file.userVersion = g.version

/-- The file has both columns, and its version says that it has none. -/
structure Stranded (file : SqliteFile F) : Prop where
  shape : file.catalog.SameShape Stage.windowed.schema
  version : file.userVersion = 1

omit [DecidableEq F] in
theorem Stage.version_inj {g g' : Stage} (same : g.version = g'.version) : g = g' := by
  cases g <;> cases g' <;> first | rfl | cases same

theorem InStep.not_stranded {file : SqliteFile F} (h : InStep file g) : ¬ Stranded file := by
  intro stranded
  obtain rfl := stage_unique h.shape stranded.shape
  cases h.version.symm.trans stranded.version

theorem initialSchema_transacts {s : SqliteDisk F} (h : s.file.catalog.SameShape g.schema) :
    ((transact initialSchema s).1 = .ok () ∧ (transact initialSchema s).2.file.userVersion = 1 ∧
      (transact initialSchema s).2.file.catalog.SameShape g.initialized.schema ∧
      s.file.catalog.Extends (transact initialSchema s).2.file.catalog) ∨
    (∃ e, (transact initialSchema s).1 = .error (.migration 1 e)) ∧
      (transact initialSchema s).2.file = s.file := by
  obtain ⟨c', done, shape⟩ := initialSchema_at h
  rcases transact_cases initialSchema s with ⟨ok, c, ran, file⟩ | failed
  · obtain rfl := Except.ok.inj (done.symm.trans ran)
    rw [file]
    exact Or.inl ⟨ok, rfl, shape, Catalog.executeBatch_extends done⟩
  · exact Or.inr failed

/-- The second migration takes a file at the first stage to the last, and fails at the last. -/
theorem failureWindow_transacts {s : SqliteDisk F} (h : s.file.catalog.SameShape g.schema)
    (created : g ≠ .fresh) :
    ((transact failureWindow s).1 = .ok () ∧ g = .initial ∧
      InStep (transact failureWindow s).2.file .windowed ∧
      s.file.catalog.Extends (transact failureWindow s).2.file.catalog) ∨
    (∃ e, (transact failureWindow s).1 = .error (.migration 2 e)) ∧
      (transact failureWindow s).2.file = s.file := by
  rcases transact_cases failureWindow s with ⟨ok, c, ran, file⟩ | failed
  · cases g with
    | fresh => exact absurd rfl created
    | initial =>
      obtain ⟨c', done, shape⟩ := failureWindow_at_initial h
      obtain rfl := Except.ok.inj (done.symm.trans ran)
      rw [file]
      exact Or.inl ⟨ok, rfl, ⟨shape, rfl⟩, Catalog.executeBatch_extends done⟩
    | windowed => cases (failureWindow_at_windowed h).symm.trans ran
  · exact Or.inr failed

theorem migrate_eq : (migrate : MigrateM F Unit) = .step readUserVersion fun found =>
    Prog.ofExcept found >>= fun current =>
      if currentVersion < current then Prog.throw (.migration current.toNat (newerMessage current))
      else applyNewer current := rfl

theorem applyNewer_zero : (applyNewer 0 : MigrateM F Unit) =
    .step (transact initialSchema) fun answer => Prog.ofExcept answer >>= fun _ =>
      applyNewer 1 := rfl

theorem applyNewer_one : (applyNewer 1 : MigrateM F Unit) =
    .step (transact failureWindow) fun answer => Prog.ofExcept answer >>= fun _ => pure () := rfl

omit [DecidableEq F] in
theorem readUserVersion_file (s : SqliteDisk F) : (readUserVersion s).2.file = s.file := by
  rw [readUserVersion]
  split
  · rfl
  · split <;> rfl

omit [DecidableEq F] in
theorem readUserVersion_cases {s : SqliteDisk F} (known : 0 ≤ s.file.userVersion) :
    (readUserVersion s).1 = .ok s.file.userVersion ∨
      ∃ e, (readUserVersion s).1 = .error (.migration 0 e) := by
  rw [readUserVersion]
  cases s.call.1 with
  | some e => exact Or.inr ⟨e, rfl⟩
  | none =>
    simp only
    rw [if_neg (not_lt.mpr known)]
    exact Or.inl rfl

/-- What is left to do of a migration that nobody interferes with. -/
inductive Migrating (g : Stage) : MigrateM F Unit → Prop
  | done (here : g = .windowed) : Migrating g (.pure ())
  | failed (e : StoreError) : Migrating g (.throw e)
  | reading : Migrating g migrate
  | both (here : g = .fresh) : Migrating g (applyNewer 0)
  | window (here : g = .initial) : Migrating g (applyNewer 1)

theorem Migrating.eq_windowed {p : MigrateM F Unit} (h : Migrating g p) (done : p = .pure ()) :
    g = .windowed := by
  cases h with
  | done here => exact here
  | failed e => cases done
  | reading => cases migrate_eq.symm.trans done
  | both here => cases applyNewer_zero.symm.trans done
  | window here => cases applyNewer_one.symm.trans done

/-- Where a migration stands that nobody interferes with, and what it has kept of a catalogue. -/
structure Midway (c₀ : Catalog F) (p : MigrateM F Unit) (s : SqliteDisk F) : Prop where
  stage : ∃ g, InStep s.file g ∧ Migrating g p
  kept : c₀.Extends s.file.catalog

theorem Midway.next {c₀ : Catalog F} {p : MigrateM F Unit} {s : SqliteDisk F}
    (h : Midway c₀ p s) : Midway c₀ (p.next s).1 (p.next s).2 := by
  obtain ⟨⟨g, inStep, migrating⟩, kept⟩ := h
  cases migrating with
  | done here => exact ⟨⟨g, inStep, .done here⟩, kept⟩
  | failed e => exact ⟨⟨g, inStep, .failed e⟩, kept⟩
  | reading =>
    have same := readUserVersion_file s
    have known : 0 ≤ s.file.userVersion := by
      rw [inStep.version]
      cases g <;> decide
    rw [migrate_eq, Prog.next]
    refine ⟨⟨g, by rwa [same], ?_⟩, by rwa [same]⟩
    rcases readUserVersion_cases known with found | ⟨e, failed⟩
    · rw [found, inStep.version]
      cases g with
      | fresh => exact .both rfl
      | initial => exact .window rfl
      | windowed => exact .done rfl
    · rw [failed]
      exact .failed _
  | both here =>
    subst here
    rw [applyNewer_zero, Prog.next]
    rcases initialSchema_transacts inStep.shape with ⟨ok, version, shape, more⟩ | ⟨⟨e, failed⟩, same⟩
    · rw [ok]
      exact ⟨⟨.initial, ⟨shape, version⟩, .window rfl⟩, kept.trans more⟩
    · rw [failed]
      exact ⟨⟨.fresh, by rwa [same], .failed _⟩, by rwa [same]⟩
  | window here =>
    subst here
    rw [applyNewer_one, Prog.next]
    rcases failureWindow_transacts inStep.shape (by decide) with
      ⟨ok, -, there, more⟩ | ⟨⟨e, failed⟩, same⟩
    · rw [ok]
      exact ⟨⟨.windowed, there, .done rfl⟩, kept.trans more⟩
    · rw [failed]
      exact ⟨⟨.initial, by rwa [same], .failed _⟩, by rwa [same]⟩

theorem InStep.midway {file : SqliteFile F} (h : InStep file g) (faults : List (Option String)) :
    Midway file.catalog migrate ⟨file, faults⟩ := ⟨⟨g, h, .reading⟩, .refl _⟩

theorem InStep.migrated {file : SqliteFile F} (h : InStep file g) {faults : List (Option String)}
    (returned : (migrate.run ⟨file, faults⟩).1 = .ok ()) :
    InStep (migrate.run ⟨file, faults⟩).2.file .windowed ∧
      file.catalog.Extends (migrate.run ⟨file, faults⟩).2.file.catalog := by
  have finished := Prog.run_keeps (I := Midway file.catalog) (fun _ _ => Midway.next)
    (h.midway faults)
  rw [returned] at finished
  obtain ⟨⟨g', inStep, migrating⟩, kept⟩ := finished
  obtain rfl := migrating.eq_windowed rfl
  exact ⟨inStep, kept⟩

theorem InStep.migrates {file : SqliteFile F} (h : InStep file g) {faults : List (Option String)}
    (healthy : ∀ fault ∈ faults, fault = none) : (migrate.run ⟨file, faults⟩).1 = .ok () := by
  have start : Healthy (F := F) ⟨file, faults⟩ := healthy
  obtain ⟨called, healthy₁⟩ := start.call
  have known : ¬ file.userVersion < 0 := by
    rw [h.version]
    cases g <;> decide
  have read : readUserVersion (F := F) ⟨file, faults⟩ =
      (.ok file.userVersion, (⟨file, faults⟩ : SqliteDisk F).call.2) := by
    rw [readUserVersion, called]
    simp only [if_neg known]
  have window : ∀ s : SqliteDisk F, Healthy s → InStep s.file .initial →
      ((applyNewer 1).run s).1 = .ok () := by
    intro s healthy inStep
    obtain ⟨c', done, -⟩ := failureWindow_at_initial inStep.shape
    rw [applyNewer_one, Prog.run_step, ((transact_healthy _ healthy).2 c' done).1]
    rfl
  rw [migrate_eq, Prog.run_step, read, h.version]
  cases g with
  | fresh =>
    obtain ⟨c', done, shape⟩ := initialSchema_at (g := .fresh) h.shape
    obtain ⟨healthy₂, does⟩ := transact_healthy initialSchema healthy₁
    obtain ⟨ok, file'⟩ := does c' done
    have there : InStep (transact initialSchema (⟨file, faults⟩ : SqliteDisk F).call.2).2.file
        .initial := by
      rw [file']
      exact ⟨shape, rfl⟩
    change ((applyNewer 0).run (⟨file, faults⟩ : SqliteDisk F).call.2).1 = .ok ()
    rw [applyNewer_zero, Prog.run_step, ok]
    exact window _ healthy₂ there
  | initial => exact window _ healthy₁ h
  | windowed => rfl

/-- From the initial schema to the last stage, the table of synapses gains the two columns. -/
theorem synapses_extended {c c' : Catalog F} (h : c.SameShape Stage.initial.schema)
    (h' : c'.SameShape Stage.windowed.schema) (kept : c.Extends c') {t : Table F}
    (found : c.tables.lookup "synapses" = some t) :
    c'.tables.lookup "synapses" = some (t.extend failureColumns) ∧
      ∀ column ∈ (failureColumns : List (Column F)), t.hasColumn column.name = false := by
  obtain ⟨t₁, found₁, columns₁⟩ := h.lookup initial_synapses
  obtain ⟨t₂, found₂, columns₂⟩ := h'.lookup current_tables.1
  obtain rfl := Option.some.inj (found.symm.trans found₁)
  obtain ⟨added, found'⟩ := kept _ t found
  obtain rfl := Option.some.inj (found'.symm.trans found₂)
  have same : t.columns ++ added = t.columns ++ failureColumns := by
    calc t.columns ++ added = synapseColumns ++ failureColumns := columns₂
      _ = t.columns ++ failureColumns := by rw [columns₁]
  rw [List.append_cancel_left same] at found'
  refine ⟨found', fun column member => ?_⟩
  rw [Table.hasColumn, columns₁]
  fin_cases member
  · rfl
  · rfl

/-- What can happen to the file while one process at a time has it open: a migration that is
killed after any number of steps, any of whose calls may fail, or changes of rows. -/
inductive Episode (file : SqliteFile F) : SqliteFile F → Prop
  | migration (faults : List (Option String)) (n : ℕ) :
      Episode file (Prog.after n migrate ⟨file, faults⟩).2.file
  | rows {catalog : Catalog F} (same : catalog.SameShape file.catalog) :
      Episode file ⟨file.userVersion, catalog⟩

theorem Episode.inStep {file file' : SqliteFile F} (episode : Episode file file')
    (h : InStep file g) : ∃ g', InStep file' g' := by
  cases episode with
  | migration faults n =>
    obtain ⟨⟨g', there, -⟩, -⟩ := Prog.after_keeps (fun _ _ => Midway.next) (h.midway faults) n
    exact ⟨g', there⟩
  | rows same => exact ⟨g, same.trans h.shape, h.version⟩

theorem migrate_windowed {file : SqliteFile F} (h : InStep file .windowed)
    (faults : List (Option String)) (n : ℕ) :
    (Prog.after n migrate ⟨file, faults⟩).2.file = file := by
  have keeps : ∀ (p : MigrateM F Unit) (s : SqliteDisk F),
      (p = migrate ∨ p.isFinished = true) ∧ s.file = file →
      ((p.next s).1 = migrate ∨ (p.next s).1.isFinished = true) ∧ (p.next s).2.file = file := by
    rintro p s ⟨rfl | finished, here⟩
    · rw [migrate_eq, Prog.next]
      refine ⟨Or.inr ?_, (readUserVersion_file s).trans here⟩
      have known : 0 ≤ s.file.userVersion := by
        rw [here, h.version]
        decide
      rcases readUserVersion_cases known with found | ⟨e, failed⟩
      · rw [found, here, h.version]
        rfl
      · rw [failed]
        rfl
    · cases p with
      | pure a => exact ⟨Or.inr rfl, here⟩
      | throw e => exact ⟨Or.inr rfl, here⟩
      | step act k => cases finished
  exact (Prog.after_keeps (I := fun p s => (p = migrate ∨ p.isFinished = true) ∧ s.file = file)
    keeps ⟨Or.inl rfl, rfl⟩ n).2

theorem migrate_newer {file : SqliteFile F} (newer : currentVersion < file.userVersion)
    (faults : List (Option String)) :
    (∃ version reason, (migrate.run ⟨file, faults⟩).1 = .error (.migration version reason)) ∧
      (migrate.run ⟨file, faults⟩).2.file = file := by
  have known : 0 ≤ file.userVersion := le_of_lt (lt_trans (by decide) newer)
  rw [migrate_eq, Prog.run_step]
  rcases readUserVersion_cases (s := ⟨file, faults⟩) known with found | ⟨e, failed⟩
  · rw [found, Prog.run_bind, Prog.run_ofExcept]
    simp only [if_pos newer]
    exact ⟨⟨_, _, rfl⟩, readUserVersion_file _⟩
  · rw [failed]
    exact ⟨⟨_, _, rfl⟩, readUserVersion_file _⟩

/-- What migrating a file again promises. -/
structure Resumes (file : SqliteFile F) : Prop where
  /-- The version says which tables and columns there are. -/
  inStep : ∃ g, InStep file g
  /-- Nothing is lost, wherever the migration stops. -/
  keeps : ∀ faults n, file.catalog.Extends (Prog.after n migrate ⟨file, faults⟩).2.file.catalog
  /-- It goes through when no call fails. -/
  returns : ∀ faults, (∀ fault ∈ faults, fault = none) →
    (migrate.run ⟨file, faults⟩).1 = .ok ()
  /-- If it returns, the file is at the last stage. -/
  complete : ∀ faults, (migrate.run ⟨file, faults⟩).1 = .ok () →
    InStep (migrate.run ⟨file, faults⟩).2.file .windowed
  /-- There it does nothing. -/
  idempotent : InStep file .windowed → ∀ faults n,
    (Prog.after n migrate ⟨file, faults⟩).2.file = file
  /-- Synapses of the initial schema keep their cells, and have no failures. -/
  upgraded : file.userVersion = 1 → ∀ faults, (migrate.run ⟨file, faults⟩).1 = .ok () →
    ∀ t, file.catalog.tables.lookup "synapses" = some t → ∃ t',
      (migrate.run ⟨file, faults⟩).2.file.catalog.tables.lookup "synapses" = some t' ∧
      t'.rows = t.rows.map (fun row => row ++ [.integer 0, .integer 0]) ∧
      ∀ row ∈ t.rows, row.length = t.columns.length →
        (∀ name, t.hasColumn name = true →
          t'.cell (row ++ [.integer 0, .integer 0]) name = t.cell row name) ∧
        t'.cell (row ++ [.integer 0, .integer 0]) "signature_failures" = some (.integer 0) ∧
        t'.cell (row ++ [.integer 0, .integer 0]) "failure_window_start_ns" = some (.integer 0)

/-- Migrating one process at a time: killed anywhere, failing anywhere, retried any number of
times, with rows written in between. And a file of a newer build is refused. -/
theorem migrations_resume {file : SqliteFile F}
    (history : Relation.ReflTransGen Episode ⟨0, .empty⟩ file) :
    Resumes file ∧ ∀ newer : SqliteFile F, currentVersion < newer.userVersion → ∀ faults,
      (∃ version reason, (migrate.run ⟨newer, faults⟩).1 = .error (.migration version reason)) ∧
        (migrate.run ⟨newer, faults⟩).2.file = newer := by
  have staged : ∃ g, InStep file g := by
    induction history with
    | refl => exact ⟨.fresh, .refl _, rfl⟩
    | tail _ episode ih =>
      obtain ⟨g, inStep⟩ := ih
      exact episode.inStep inStep
  refine ⟨?_, fun newer later faults => migrate_newer later faults⟩
  obtain ⟨g, inStep⟩ := staged
  constructor
  case inStep => exact ⟨g, inStep⟩
  case keeps =>
    intro faults n
    exact (Prog.after_keeps (fun _ _ => Midway.next) (inStep.midway faults) n).kept
  case returns => exact fun faults => inStep.migrates
  case complete => exact fun faults returned => (inStep.migrated returned).1
  case idempotent => exact fun here => migrate_windowed here
  case upgraded =>
    intro first faults returned t found
    obtain ⟨there, kept⟩ := inStep.migrated returned
    have here : g = .initial := Stage.version_inj (inStep.version.symm.trans first)
    subst here
    obtain ⟨found', fresh⟩ := synapses_extended inStep.shape there.shape kept found
    have distinct : ["signature_failures", "failure_window_start_ns"].Nodup := by decide
    have failures : (⟨"signature_failures", "INTEGER NOT NULL", .integer 0⟩ : Column F) ∈
        failureColumns := List.mem_cons_self
    have start : (⟨"failure_window_start_ns", "INTEGER NOT NULL", .integer 0⟩ : Column F) ∈
        failureColumns := List.mem_cons_of_mem _ List.mem_cons_self
    refine ⟨_, found', rfl, fun row _ full => ⟨fun name old => ?_, ?_, ?_⟩⟩
    · exact Table.cell_extend_old full old failureColumns
    · exact Table.cell_extend_new full failures distinct (fresh _ failures)
    · exact Table.cell_extend_new full start distinct (fresh _ start)

def killedHalfway : SqliteFile ℤ := (Prog.after 2 migrate ⟨⟨0, .empty⟩, []⟩).2.file

/-- Each synapse row holds the names of its columns. -/
def withRow (catalog : Catalog ℤ) : Catalog ℤ :=
  match catalog.tables.lookup "synapses" with
  | some t =>
    { catalog with
      tables := catalog.tables.insert "synapses"
        { t with rows := [t.columns.map fun column => .text column.name] } }
  | none => catalog

theorem withRow_sameShape (catalog : Catalog ℤ) : (withRow catalog).SameShape catalog := by
  unfold withRow
  cases found : catalog.tables.lookup "synapses" with
  | none => exact .refl catalog
  | some t =>
    refine ⟨fun name => ?_, fun _ => rfl⟩
    by_cases same : name = "synapses"
    · subst same
      simp only [AList.lookup_insert, found]
      rfl
    · simp only [AList.lookup_insert_ne same]

def writtenHalfway : SqliteFile ℤ := ⟨killedHalfway.userVersion, withRow killedHalfway.catalog⟩

/-- The second migration is killed once it has read the version. -/
def killedAgain : SqliteFile ℤ := (Prog.after 1 migrate ⟨writtenHalfway, []⟩).2.file

/-- The number of rows of a table, and what the first of them holds in a column. -/
def firstCell (file : SqliteFile ℤ) (table column : String) : Option (ℕ × Option (Cell ℤ)) :=
  (file.catalog.tables.lookup table).map fun t =>
    (t.rows.length, t.rows.head?.bind fun row => t.cell row column)

theorem killed_halfway_resumes :
    killedAgain.userVersion = 1 ∧ Resumes killedAgain ∧
    firstCell killedAgain "synapses" "peer" = some (1, some (.text "peer")) ∧
    firstCell (migrate.run ⟨killedAgain, []⟩).2.file "synapses" "peer" =
      some (1, some (.text "peer")) ∧
    firstCell (migrate.run ⟨killedAgain, []⟩).2.file "synapses" "signature_failures" =
      some (1, some (.integer 0)) := by
  have history : Relation.ReflTransGen Episode ⟨0, .empty⟩ killedAgain :=
    (Relation.ReflTransGen.single (.migration [] 2)).tail (.rows (withRow_sameShape _)) |>.tail
      (.migration [] 1)
  refine ⟨by decide +kernel, (migrations_resume history).1, ?_, ?_, ?_⟩
  · decide +kernel
  · decide +kernel
  · decide +kernel

end OpenNtl.Sqlite
