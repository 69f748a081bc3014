import OpenNtl.AtomicProgram
import OpenNtl.SqlSession

/-! # SQL executors

The two executors of the server over a session: the one on `postgres.js`, and the one on PGlite.
-/
namespace OpenNtl.Postgres

open AtomicProgram SqlSession

variable {D P R E α : Type}

inductive JsError where
  | sql (e : SqlError)
  | execInReadOnlyTransaction
  | typeError (message : String)
  | thrown (message : String)
  deriving DecidableEq, Repr

/-- A call of a method of an executor, without its callback. -/
inductive Call (P : Type) where
  | query (sql : String) (params : List P)
  | exec (script : String)
  | readOnly
  | transaction

structure World (E D P : Type) where
  session : Session D
  /-- History variable: the executors that callbacks were given. -/
  handed : List E
  /-- History variable: the calls of callbacks, each with the session that it found. -/
  calls : List (Session D × Call P)

abbrev SqlM (E D P : Type) := Prog (World E D P) JsError

def onSession (f : Session D → Except SqlError α × Session D) : SqlM E D P α := do
  let answer ← Prog.act fun w => ((f w.session).1, { w with session := (f w.session).2 })
  Prog.ofExcept (answer.mapError .sql)

def idle (d₀ : D) : World E D P := ⟨⟨d₀, [], none⟩, [], []⟩

theorem run_onSession (f : Session D → Except SqlError α × Session D) (w : World E D P) :
    (onSession f : SqlM E D P α).run w =
      ((f w.session).1.mapError .sql, { w with session := (f w.session).2 }) := by
  unfold onSession
  rw [Prog.run_bind, Prog.run_act]
  exact Prog.run_ofExcept _ _

/-- `try { … } catch (error) { …; throw error }`, where what the handler throws is dropped. -/
def catching (p : SqlM E D P α) (handler : SqlM E D P (Option R)) : SqlM E D P α := do
  match ← p.attempt with
  | .ok a => return a
  | .error e =>
    let _ ← handler.attempt
    Prog.throw e

theorem run_catching (p : SqlM E D P α) (handler : SqlM E D P (Option R)) (w : World E D P) :
    (catching p handler).run w = match p.run w with
      | (.ok a, w') => (.ok a, w')
      | (.error e, w') => (.error e, (handler.run w').2) := by
  unfold catching
  rw [Prog.run_bind, Prog.run_attempt]
  rcases p.run w with ⟨e | a, w'⟩
  · simp only [Prog.run_bind, Prog.run_attempt]
    rfl
  · rfl

def setTimeout (ms : ℕ) : String := "SET LOCAL statement_timeout = " ++ toString ms

theorem setTimeout_starts (ms : ℕ) :
    "SET LOCAL statement_timeout = ".toList.isPrefixOf (setTimeout ms).toList = true := by
  have split : (setTimeout ms).toList =
      "SET LOCAL statement_timeout = ".toList ++ (toString ms).toList := String.toList_append
  rw [split]
  exact List.isPrefixOf_iff_prefix.mpr (List.prefix_append _ _)

/-- How the database reads the texts that the executors send themselves. -/
structure Dialect (D P R : Type) where
  parse : Parser D P R
  parse_begin : parse "BEGIN" [] = some [.begin none]
  parse_beginReadOnly : parse "BEGIN TRANSACTION READ ONLY" [] = some [.begin (some true)]
  parse_commit : parse "COMMIT" [] = some [.commit false]
  parse_rollback : parse "ROLLBACK" [] = some [.rollback false]
  parse_setReadOnly : parse "SET TRANSACTION READ ONLY" [] = some [.setTransaction true]
  parse_setTimeout : ∀ ms, parse (setTimeout ms) [] = some [.setLocal]

/-- The interface that the tools are written against. -/
structure SqlExecutor (E D P R : Type) where
  query : E → String → List P → SqlM E D P (Option R)
  exec : E → String → SqlM E D P (Option R)
  readOnly {α : Type} : E → (E → SqlM E D P α) → SqlM E D P α
  transaction {α : Type} : E → (E → SqlM E D P α) → SqlM E D P α

def settle (d : Dialect D P R) :
    Except JsError α × World E D P → Except JsError α × World E D P
  | (.ok a, w) => (.ok a, { w with session := (Session.simple d.parse "COMMIT" w.session).2 })
  | (.error e, w) =>
    (.error e, { w with session := (Session.simple d.parse "ROLLBACK" w.session).2 })

def begun (w : World E D P) : World E D P :=
  { w with session := w.session.within (.start w.session.committed false false) }

theorem simple_begin (d : Dialect D P R) {s : Session D} (idle : s.transaction = none) :
    Session.simple d.parse "BEGIN" s =
      (.ok none, s.within (.start s.committed false false)) :=
  Session.simple_one d.parse_begin (Session.step_begin s idle)
    (Session.closeImplicit_within s rfl)

theorem simple_commit (d : Dialect D P R) (s : Session D) :
    (Session.simple d.parse "COMMIT" s).1 = .ok none := by
  have step : ∃ s', s.step (.commit false : Command D R) = (.ok none, s') := by
    cases inside : s.transaction with
    | none => exact ⟨s, by simp [Session.step, inside, Session.stepIdle]⟩
    | some t =>
      cases failed : t.failed with
      | true =>
        exact ⟨s.leave.afterBlock t false,
          by simp [Session.step, inside, failed, Session.stepFailed]⟩
      | false =>
        exact ⟨(s.publish t.working).afterBlock t false,
          by simp [Session.step, inside, failed, Session.stepActive]⟩
  obtain ⟨s', run⟩ := step
  simp [Session.simple, d.parse_commit, Session.script, run]

variable (d : Dialect D P R)

/-- What `this.sql` is: the connection, or the handle that `begin` gives its callback. -/
inductive SqlHandle where
  | connection
  | transaction
  deriving DecidableEq, Repr

structure PostgresExecutor where
  sql : SqlHandle
  statementTimeoutMs : ℕ
  /-- This instance wraps a read-only transaction. -/
  readOnlyTx : Bool
  deriving DecidableEq, Repr

/-- `postgres.js`: `sql.begin` runs its callback in a block of its own, which it commits or rolls back.
The handle of a transaction has no such method. -/
structure PostgresJs where
  begin {α : Type} : SqlHandle → SqlM PostgresExecutor D P α → SqlM PostgresExecutor D P α
  refused : ∀ {α : Type} (fn : SqlM PostgresExecutor D P α),
    begin .transaction fn = Prog.throw (.typeError "this.sql.begin is not a function")
  brackets : ∀ {α : Type} (fn : SqlM PostgresExecutor D P α) (w : World PostgresExecutor D P),
    w.session.transaction = none → (begin .connection fn).run w = settle d (fn.run (begun w))

def PostgresJs.documented : PostgresJs d where
  begin handle fn :=
    match handle with
    | .transaction => Prog.throw (.typeError "this.sql.begin is not a function")
    | .connection => do
      let _ ← onSession (Session.simple d.parse "BEGIN")
      let out ← catching fn (onSession (Session.simple d.parse "ROLLBACK"))
      let _ ← onSession (Session.simple d.parse "COMMIT")
      return out
  refused _ := rfl
  brackets fn w idle := by
    simp only [Prog.run_bind (onSession _), run_onSession, simple_begin d idle, Except.mapError]
    rw [Prog.run_bind, run_catching]
    rcases run : fn.run (begun w) with ⟨e | a, w'⟩
    · unfold begun at run
      simp only [run, run_onSession, settle]
    · unfold begun at run
      simp only [run, Prog.run_bind, run_onSession, simple_commit, Except.mapError, Prog.run_pure,
        settle]

variable {d} (js : PostgresJs d)

namespace PostgresExecutor

def query (_ : PostgresJs d) (_ : PostgresExecutor) (sql : String) (params : List P) :
    SqlM PostgresExecutor D P (Option R) :=
  onSession (Session.extended d.parse sql params)

def exec (_ : PostgresJs d) (e : PostgresExecutor) (script : String) :
    SqlM PostgresExecutor D P (Option R) :=
  if e.readOnlyTx then Prog.throw .execInReadOnlyTransaction
  else onSession (Session.simple d.parse script)

def readOnly (e : PostgresExecutor)
    (fn : PostgresExecutor → SqlM PostgresExecutor D P α) : SqlM PostgresExecutor D P α :=
  js.begin e.sql do
    let _ ← onSession (Session.simple d.parse "SET TRANSACTION READ ONLY")
    let _ ← onSession (Session.simple d.parse (setTimeout e.statementTimeoutMs))
    fn ⟨.transaction, e.statementTimeoutMs, true⟩

def transaction (e : PostgresExecutor)
    (fn : PostgresExecutor → SqlM PostgresExecutor D P α) : SqlM PostgresExecutor D P α :=
  js.begin e.sql do
    let _ ← onSession (Session.simple d.parse (setTimeout e.statementTimeoutMs))
    fn ⟨.transaction, e.statementTimeoutMs, false⟩

def methods : SqlExecutor PostgresExecutor D P R := ⟨query js, exec js, readOnly js, transaction js⟩

end PostgresExecutor

variable (d)

structure PgliteExecutor where
  readOnlyTx : Bool
  deriving DecidableEq, Repr

namespace PgliteExecutor

def query (_ : PgliteExecutor) (sql : String) (params : List P) :
    SqlM PgliteExecutor D P (Option R) :=
  onSession (Session.extended d.parse sql params)

def exec (e : PgliteExecutor) (script : String) : SqlM PgliteExecutor D P (Option R) :=
  if e.readOnlyTx then Prog.throw .execInReadOnlyTransaction
  else onSession (Session.simple d.parse script)

def readOnly (_ : PgliteExecutor) (fn : PgliteExecutor → SqlM PgliteExecutor D P α) :
    SqlM PgliteExecutor D P α := do
  let _ ← onSession (Session.simple d.parse "BEGIN TRANSACTION READ ONLY")
  catching (do
    let out ← fn ⟨true⟩
    let _ ← onSession (Session.simple d.parse "COMMIT")
    return out) (onSession (Session.simple d.parse "ROLLBACK"))

/-- The executor that the callback is given has its flag by default, which is off. -/
def transaction (_ : PgliteExecutor) (fn : PgliteExecutor → SqlM PgliteExecutor D P α) :
    SqlM PgliteExecutor D P α := do
  let _ ← onSession (Session.simple d.parse "BEGIN")
  catching (do
    let out ← fn ⟨false⟩
    let _ ← onSession (Session.simple d.parse "COMMIT")
    return out) (onSession (Session.simple d.parse "ROLLBACK"))

def methods : SqlExecutor PgliteExecutor D P R := ⟨query d, exec d, readOnly d, transaction d⟩

end PgliteExecutor

/-- What a callback does with the executors in its scope, which it names by how long ago it or
those around it were given them. -/
inductive Callback (P R : Type) where
  | resolve (value : Option R)
  | reject (message : String)
  | query (who : ℕ) (sql : String) (params : List P)
      (next : Except JsError (Option R) → Callback P R)
  | exec (who : ℕ) (script : String) (next : Except JsError (Option R) → Callback P R)
  | readOnly (who : ℕ) (body : Callback P R) (next : Except JsError (Option R) → Callback P R)
  | transaction (who : ℕ) (body : Callback P R) (next : Except JsError (Option R) → Callback P R)

def note (call : Call P) : SqlM E D P Unit :=
  Prog.modify fun w => { w with calls := (w.session, call) :: w.calls }

def hand (e : E) : SqlM E D P Unit := Prog.modify fun w => { w with handed := e :: w.handed }

def resolveName (scope : List E) (who : ℕ) : SqlM E D P E :=
  match scope[who]? with
  | none => Prog.throw (.typeError "undefined")
  | some e => return e

variable (x : SqlExecutor E D P R)

def Callback.run : Callback P R → List E → SqlM E D P (Option R)
  | .resolve value, _ => return value
  | .reject message, _ => Prog.throw (.thrown message)
  | .query who sql params next, scope => do
    let e ← resolveName scope who
    note (.query sql params)
    let answer ← (x.query e sql params).attempt
    (next answer).run scope
  | .exec who script next, scope => do
    let e ← resolveName scope who
    note (.exec script)
    let answer ← (x.exec e script).attempt
    (next answer).run scope
  | .readOnly who body next, scope => do
    let e ← resolveName scope who
    note .readOnly
    let answer ← (x.readOnly e fun tx => do hand tx; body.run (tx :: scope)).attempt
    (next answer).run scope
  | .transaction who body next, scope => do
    let e ← resolveName scope who
    note .transaction
    let answer ← (x.transaction e fun tx => do hand tx; body.run (tx :: scope)).attempt
    (next answer).run scope

end OpenNtl.Postgres
