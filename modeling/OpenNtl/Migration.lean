import OpenNtl.SqlExecutor
import Mathlib.Data.Int.Notation

/-! # Migrations

A migration runs a script inside a transaction and records itself in a ledger table.
-/
namespace OpenNtl.Postgres

open AtomicProgram SqlSession

variable {D P R E T α : Type}

structure MigrationRow where
  version : ℤ
  name : String
  statementCount : ℕ
  deriving DecidableEq, Repr

/-- The schema of the server and its ledger table, and the rest of the database. -/
structure Database (T : Type) where
  hasSchema : Bool
  ledger : Option (List MigrationRow)
  rest : T
  deriving DecidableEq, Repr

namespace Database

def rows (db : Database T) : List MigrationRow := db.ledger.getD []

def createSchema (db : Database T) : Except SqlError (Database T) := .ok { db with hasSchema := true }

def createLedger (db : Database T) : Except SqlError (Database T) :=
  if db.hasSchema then .ok { db with ledger := some db.rows }
  else .error ⟨"3F000", "schema does not exist"⟩

/-- A row of the same version has its name and its count replaced. -/
def upsert (row : MigrationRow) : List MigrationRow → List MigrationRow
  | [] => [row]
  | r :: rest => if r.version = row.version then row :: rest else r :: upsert row rest

def record (row : MigrationRow) (db : Database T) : Except SqlError (Database T) :=
  match db.ledger with
  | none => .error ⟨"42P01", "relation does not exist"⟩
  | some rows => .ok { db with ledger := some (upsert row rows) }

end Database

inductive Param where
  | int (n : ℤ)
  | text (s : String)
  deriving DecidableEq, Repr

def createSchemaText (quoted : String) : String := "CREATE SCHEMA IF NOT EXISTS " ++ quoted

def createLedgerText (quoted : String) : String :=
  "CREATE TABLE IF NOT EXISTS " ++ (quoted ++ ".migrations (\n" ++
    "           version         BIGINT PRIMARY KEY,\n" ++
    "           name            TEXT NOT NULL,\n" ++
    "           applied_at      TIMESTAMPTZ NOT NULL DEFAULT now(),\n" ++
    "           statement_count INTEGER NOT NULL DEFAULT 0\n" ++
    "         )")

def recordText (quoted : String) : String :=
  "INSERT INTO " ++ (quoted ++ ".migrations (version, name, statement_count)\n" ++
    "         VALUES ($1, $2, $3)\n" ++
    "         ON CONFLICT (version) DO UPDATE\n" ++
    "           SET name = EXCLUDED.name, statement_count = EXCLUDED.statement_count")

def change (nothing : R) (f : D → Except SqlError D) : Command D R :=
  .write fun d => (f d).map fun d' => (d', nothing)

/-- How the database reads the texts of a migration. -/
structure MigrationDialect (quoted : String) (T R : Type) extends
    Dialect (Database T) Param R where
  nothing : R
  parse_createSchema :
    parse (createSchemaText quoted) [] = some [change nothing Database.createSchema]
  parse_createLedger :
    parse (createLedgerText quoted) [] = some [change nothing Database.createLedger]
  parse_record : ∀ version name (count : ℕ),
    parse (recordText quoted) [.int version, .text name, .int count] =
      some [change nothing (Database.record ⟨version, name, count⟩)]

def utf16Length (s : String) : ℕ :=
  s.toList.foldl (fun n c => if c.toNat < 65536 then n + 1 else n + 2) 0

def jsonEscape (c : Char) : List Char :=
  if c = '"' then ['\\', '"']
  else if c = '\\' then ['\\', '\\']
  else if c.toNat = 8 then ['\\', 'b']
  else if c.toNat = 9 then ['\\', 't']
  else if c.toNat = 10 then ['\\', 'n']
  else if c.toNat = 12 then ['\\', 'f']
  else if c.toNat = 13 then ['\\', 'r']
  else if c.toNat < 32 then
    ['\\', 'u', '0', '0', Nat.digitChar (c.toNat / 16), Nat.digitChar (c.toNat % 16)]
  else [c]

def jsonString (s : String) : String :=
  "\"" ++ String.ofList (s.toList.flatMap jsonEscape) ++ "\""

def isIdentStart (c : Char) : Bool :=
  ('A' ≤ c && c ≤ 'Z') || ('a' ≤ c && c ≤ 'z') || c = '_'

def isIdentPart (c : Char) : Bool := isIdentStart c || ('0' ≤ c && c ≤ '9') || c = '$'

def doubleQuoted (name : String) : String := "\"" ++ name ++ "\""

def quoteIdent (name : String) : Except JsError String :=
  match name.toList with
  | [] => .error (.thrown "identifier must not be empty")
  | c :: rest =>
    if utf16Length name > 63 then
      .error (.thrown ("identifier " ++ jsonString name ++
        " exceeds Postgres' 63-character limit"))
    else if isIdentStart c && rest.all isIdentPart then .ok (doubleQuoted name)
    else
      .error (.thrown ("identifier " ++ jsonString name ++
        " is not a valid Postgres identifier. Expected letters, digits, underscore or dollar, " ++
        "not starting with a digit."))

def isJsSpace (c : Char) : Bool :=
  [9, 10, 11, 12, 13, 32, 160, 5760, 8232, 8233, 8239, 8287, 12288, 65279].contains c.toNat ||
    (8192 ≤ c.toNat && c.toNat ≤ 8202)

def statementCount (sql : String) : ℕ :=
  ((sql.toList.splitOn ';').filter fun part => !part.all isJsSpace).length

structure AppliedMigration where
  name : String
  version : ℤ
  statementCount : ℕ
  schema : String
  deriving DecidableEq, Repr

/-- A tool result: a text with its structured content, or an error text. -/
inductive ToolOutput where
  | respond (markdown : String) (structured : AppliedMigration)
  | fail (message : String)
  deriving DecidableEq, Repr

def JsError.message : JsError → String
  | .sql e => e.message
  | .execInReadOnlyTransaction =>
    "Multi-statement scripts are not available in a read-only transaction. " ++
    "The simple query protocol honours transaction control, so a script " ++
    "could commit its way out of read-only mode. Run one statement at a " ++
    "time, or enable writes."
  | .typeError message => message
  | .thrown message => message

def failFromError (e : JsError) (context : String) : ToolOutput :=
  match e with
  | .sql error => .fail (context ++ ": " ++ e.message ++ "\nSQLSTATE: " ++ error.code)
  | _ => .fail (context ++ ": " ++ e.message)

/-- The arguments of the tool, and what the clock shows when it is read. -/
structure MigrationCall where
  name : String
  sql : String
  now : ℤ
  deriving DecidableEq, Repr

variable (x : SqlExecutor E (Database T) Param R)

def migrationBody (quoted : String) (call : MigrationCall) (tx : E) :
    SqlM E (Database T) Param (ℤ × ℕ) := do
  let _ ← x.query tx (createSchemaText quoted) []
  let _ ← x.query tx (createLedgerText quoted) []
  let _ ← x.exec tx call.sql
  let version := call.now
  let statementCount := statementCount call.sql
  let _ ← x.query tx (recordText quoted) [.int version, .text call.name, .int statementCount]
  return (version, statementCount)

def applyMigration (db : E) (schema : String) (call : MigrationCall) :
    SqlM E (Database T) Param ToolOutput := do
  let quoted ← Prog.ofExcept (quoteIdent schema)
  match ← (x.transaction db (migrationBody x quoted call)).attempt with
  | .ok result =>
    return .respond ("Applied migration `" ++ call.name ++ "`.\n\n- version: `" ++
      toString result.1 ++ "`\n- statements: " ++ toString result.2 ++ "\n- schema: `" ++ schema ++
      "`") ⟨call.name, result.1, result.2, schema⟩
  | .error e =>
    return failFromError e ("Migration `" ++ call.name ++
      "` failed and was rolled back. The database is unchanged")

abbrev Outcome := Except JsError ToolOutput

def succeeded : Outcome → Bool
  | .ok (.respond _ _) => true
  | _ => false

def runMigrations (db : E) (schema : String) :
    List MigrationCall → World E (Database T) Param → List Outcome × World E (Database T) Param
  | [], w => ([], w)
  | call :: rest, w =>
    (((applyMigration x db schema call).run w).1 ::
        (runMigrations db schema rest ((applyMigration x db schema call).run w).2).1,
      (runMigrations db schema rest ((applyMigration x db schema call).run w).2).2)

end OpenNtl.Postgres
