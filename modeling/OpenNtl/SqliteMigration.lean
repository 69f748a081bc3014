import OpenNtl.AtomicProgram
import OpenNtl.Records
import OpenNtl.SqlCatalog

/-! # The schema of the SQLite store, and how it is migrated

The version of the schema is the `user_version` of the file. Each migration runs in a transaction
that also writes its version, and a transaction is one atomic step on the file.
-/
namespace OpenNtl.Sqlite

open AtomicProgram SqlCatalog

variable {F : Type}

structure SchemaMigration (F : Type) where
  version : ℤ
  description : String
  sql : List (Statement F)

def declares (name declared : String) : Column F := ⟨name, declared, .null⟩

def synapseColumns : List (Column F) := [
  declares "id" "TEXT PRIMARY KEY",
  declares "peer" "BLOB NOT NULL",
  declares "weight" "REAL NOT NULL",
  declares "attenuation_factor" "REAL NOT NULL",
  declares "state" "TEXT NOT NULL",
  declares "type_affinity" "TEXT NOT NULL",
  declares "established_at_ns" "INTEGER NOT NULL",
  declares "last_active_ns" "INTEGER NOT NULL",
  declares "signals_transmitted" "INTEGER NOT NULL",
  declares "signals_received" "INTEGER NOT NULL",
  declares "avg_latency_ns" "INTEGER NOT NULL",
  declares "error_rate" "REAL NOT NULL"]

def createSynapses : List (Statement F) := [
  .createTable "synapses" synapseColumns,
  .createIndex "idx_synapses_weight" ⟨"synapses", false, ["weight"]⟩,
  .createIndex "idx_synapses_peer" ⟨"synapses", true, ["peer"]⟩,
  .createIndex "idx_synapses_state" ⟨"synapses", false, ["state"]⟩,
  .createIndex "idx_synapses_last_active" ⟨"synapses", false, ["last_active_ns"]⟩]

def createPeers : List (Statement F) := [
  .createTable "peers" [
    declares "id" "BLOB PRIMARY KEY",
    declares "addresses" "TEXT NOT NULL",
    declares "region" "TEXT",
    declares "advertised_types" "TEXT NOT NULL",
    declares "last_seen_ns" "INTEGER NOT NULL",
    declares "source" "TEXT NOT NULL"],
  .createIndex "idx_peers_region" ⟨"peers", false, ["region"]⟩,
  .createIndex "idx_peers_last_seen" ⟨"peers", false, ["last_seen_ns"]⟩,
  .createIndex "idx_peers_source" ⟨"peers", false, ["source"]⟩]

def createSeenSignals : List (Statement F) := [
  .createTable "seen_signals" [
    declares "id" "BLOB PRIMARY KEY",
    declares "expires_ns" "INTEGER NOT NULL"],
  .createIndex "idx_seen_expires" ⟨"seen_signals", false, ["expires_ns"]⟩]

def createActivation : List (Statement F) := [
  .createTable "activation" [
    declares "singleton" "INTEGER PRIMARY KEY CHECK (singleton = 0)",
    declares "potential" "REAL NOT NULL",
    declares "threshold" "REAL NOT NULL",
    declares "refractory_until_ns" "INTEGER NOT NULL",
    declares "signals_fired" "INTEGER NOT NULL",
    declares "taken_at_ns" "INTEGER NOT NULL"]]

def createJournal : List (Statement F) := [
  .createTable "journal" [
    declares "id" "INTEGER PRIMARY KEY AUTOINCREMENT",
    declares "signal" "BLOB NOT NULL",
    declares "signal_type" "TEXT NOT NULL",
    declares "synapse" "TEXT NOT NULL",
    declares "peer" "BLOB NOT NULL",
    declares "score" "REAL NOT NULL",
    declares "signal_weight" "REAL NOT NULL",
    declares "explored" "INTEGER NOT NULL",
    declares "decided_at_ns" "INTEGER NOT NULL",
    declares "outcome" "TEXT NOT NULL",
    declares "resolved_at_ns" "INTEGER"],
  .createIndex "idx_journal_signal_peer" ⟨"journal", false, ["signal", "peer"]⟩,
  .createIndex "idx_journal_pending" ⟨"journal", false, ["outcome", "decided_at_ns"]⟩,
  .createIndex "idx_journal_decided" ⟨"journal", false, ["decided_at_ns"]⟩]

def createInfluence : List (Statement F) := [
  .createTable "influence" [
    declares "id" "INTEGER PRIMARY KEY AUTOINCREMENT",
    declares "peer" "BLOB NOT NULL",
    declares "magnitude" "REAL NOT NULL",
    declares "at_ns" "INTEGER NOT NULL"],
  .createIndex "idx_influence_peer_at" ⟨"influence", false, ["peer", "at_ns"]⟩]

def createMeta : List (Statement F) := [
  .createTable "meta" [
    declares "key" "TEXT PRIMARY KEY",
    declares "value" "BLOB NOT NULL"]]

def createSignalHistory : List (Statement F) := [
  .createTable "signal_history" [
    declares "id" "BLOB PRIMARY KEY",
    declares "body" "BLOB NOT NULL",
    declares "added_ns" "INTEGER NOT NULL"]]

def initialSchema : SchemaMigration F where
  version := 1
  description := "initial schema"
  sql := createSynapses ++ createPeers ++ createSeenSignals ++ createActivation ++ createJournal ++
    createInfluence ++ createMeta ++ createSignalHistory

def failureColumns : List (Column F) := [
  ⟨"signature_failures", "INTEGER NOT NULL", .integer 0⟩,
  ⟨"failure_window_start_ns", "INTEGER NOT NULL", .integer 0⟩]

def failureWindow : SchemaMigration F where
  version := 2
  description := "signature-failure window on synapses"
  sql := failureColumns.map (.addColumn "synapses")

def migrations : List (SchemaMigration F) := [initialSchema, failureWindow]

def currentVersion : ℤ := 2

structure SqliteFile (F : Type) where
  userVersion : ℤ
  catalog : Catalog F

/-- The file, and which of the next calls on a connection fail. -/
structure SqliteDisk (F : Type) where
  file : SqliteFile F
  faults : List (Option String)

namespace SqliteDisk

def call (s : SqliteDisk F) : Option String × SqliteDisk F :=
  (s.faults.head?.join, { s with faults := s.faults.tail })

end SqliteDisk

abbrev MigrateM (F : Type) := Prog (SqliteDisk F) StoreError

def newerMessage (current : ℤ) : String :=
  "database is at schema version " ++ toString current ++
    ", but this build understands only " ++ toString currentVersion ++
    ". Upgrade NTL rather than downgrading the database."

def readUserVersion (s : SqliteDisk F) : Except StoreError ℤ × SqliteDisk F :=
  match s.call.1 with
  | some e => (.error (.migration 0 e), s.call.2)
  | none =>
    if s.file.userVersion < 0 then
      (.error (.migration 0 ("integer " ++ toString s.file.userVersion ++ " out of range")), s.call.2)
    else (.ok s.file.userVersion, s.call.2)

variable [DecidableEq F]

/-- From `BEGIN` to `COMMIT`. A transaction that is dropped before leaves the file as it was. -/
def transact (m : SchemaMigration F) (s : SqliteDisk F) : Except StoreError Unit × SqliteDisk F :=
  let failed (e : String) := Except.error (StoreError.migration m.version.toNat e)
  let begun := s.call.2
  let ran := begun.call.2
  let updated := ran.call.2
  let committed := updated.call.2
  match s.call.1 with
  | some e => (failed e, begun)
  | none =>
    match begun.call.1 with
    | some e => (failed (m.description ++ ": " ++ e), ran)
    | none =>
      match s.file.catalog.executeBatch m.sql with
      | .error e => (failed (m.description ++ ": " ++ e), ran)
      | .ok catalog =>
        match ran.call.1 with
        | some e => (failed e, updated)
        | none =>
          match updated.call.1 with
          | some e => (failed e, committed)
          | none => (.ok (), { committed with file := ⟨m.version, catalog⟩ })

def applyMigration (m : SchemaMigration F) : MigrateM F Unit := do
  let answer ← Prog.act (transact m)
  Prog.ofExcept answer

/-- The migrations that are newer than what the file was found at. -/
def applyNewer (current : ℤ) : MigrateM F Unit :=
  migrations.forM fun m => if m.version ≤ current then pure () else applyMigration m

def migrate : MigrateM F Unit := do
  let found ← Prog.act readUserVersion
  let current ← Prog.ofExcept found
  -- Refuse a database written by a newer build rather than guessing.
  if currentVersion < current then Prog.throw (.migration current.toNat (newerMessage current))
  else applyNewer current

end OpenNtl.Sqlite
