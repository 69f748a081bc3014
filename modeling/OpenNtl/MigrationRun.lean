import OpenNtl.Migration

/-! # Runs of migrations

A migration should leave the database alone when it fails, have all of its script applied when it
succeeds, and have a row of its own in the ledger from then on.
-/
namespace OpenNtl.Postgres

open AtomicProgram SqlSession

variable {D P R E T α β : Type}

/-- A program that starts in an open block of a session ends in one, or throws in an explicit block
of the same session. -/
def Blocks (p : SqlM E D P α) (post : D → α → D → Prop) : Prop :=
  ∀ (w : World E D P) (s : Session D) (t : Transaction D), w.session = s.within t → t.Open →
    (∃ a t', (p.run w).1 = .ok a ∧ (p.run w).2.session = s.within t' ∧ t'.Open ∧
      post t.working a t'.working) ∨
    ∃ e t', (p.run w).1 = .error e ∧ (p.run w).2.session = s.within t' ∧ t'.implicit = false

namespace Blocks

variable {p : SqlM E D P α} {post : D → α → D → Prop}

theorem of_pure (a : α) : Blocks (Pure.pure a : SqlM E D P α) fun d b d' => b = a ∧ d' = d :=
  fun _ _ t at_ inside => .inl ⟨a, t, rfl, at_, inside, rfl, rfl⟩

theorem of_throw (e : JsError) : Blocks (Prog.throw e : SqlM E D P α) post :=
  fun _ _ t at_ inside => .inr ⟨e, t, rfl, at_, inside.explicit⟩

theorem mono {post' : D → α → D → Prop} (h : Blocks p post)
    (sub : ∀ d a d', post d a d' → post' d a d') : Blocks p post' := by
  intro w s t at_ inside
  apply (h w s t at_ inside).imp_left
  rintro ⟨a, t', ok, session, inside', done⟩
  exact ⟨a, t', ok, session, inside', sub _ _ _ done⟩

theorem bind {f : α → SqlM E D P β} {next : α → D → β → D → Prop} (first : Blocks p post)
    (later : ∀ a, Blocks (f a) (next a)) :
    Blocks (p >>= f) fun d b d'' => ∃ a d', post d a d' ∧ next a d' b d'' := by
  intro w s t at_ inside
  rw [Prog.run_bind]
  rcases run : p.run w with ⟨result, w'⟩
  have spec := first w s t at_ inside
  rw [run] at spec
  rcases spec with ⟨a, t', ok, session, inside', done⟩ | ⟨e, t', error, session, explicit⟩
  · obtain rfl : result = .ok a := ok
    rcases later a w' s t' session inside' with
      ⟨b, t'', ok', session', inside'', done'⟩ | thrown
    · exact .inl ⟨b, t'', ok', session', inside'', a, _, done, done'⟩
    · exact .inr thrown
  · obtain rfl : result = .error e := error
    exact .inr ⟨e, t', rfl, session, explicit⟩

theorem of_session {f : Session D → Except SqlError α × Session D}
    (h : ∀ (s : Session D) (t : Transaction D), t.Open →
      (∃ a t', f (s.within t) = (.ok a, s.within t') ∧ t'.Open ∧ post t.working a t'.working) ∨
      ∃ e t', f (s.within t) = (.error e, s.within t') ∧ t'.implicit = false) :
    Blocks (onSession f : SqlM E D P α) post := by
  intro w s t at_ inside
  rw [run_onSession, at_]
  rcases h s t inside with ⟨a, t', run, inside', done⟩ | ⟨e, t', run, explicit⟩
  · rw [run]
    exact .inl ⟨a, t', rfl, rfl, inside', done⟩
  · rw [run]
    exact .inr ⟨.sql e, t', rfl, rfl, explicit⟩

theorem extended {parse : Parser D P R} {sql : String} {params : List P} {c : Command D R}
    (parsed : parse sql params = some [c]) (steady : c.steady = true) :
    Blocks (onSession (Session.extended parse sql params) : SqlM E D P (Option R))
      fun d _ d' => c.effect d = .ok d' := by
  apply of_session
  intro s t inside
  simp only [Session.extended, parsed]
  rcases Session.step_goes (s := s) inside steady with ⟨r, t', run, inside', done⟩ | ⟨e, run⟩
  · exact .inl ⟨r, t', run, inside', done⟩
  · exact .inr ⟨e, _, run, inside.explicit⟩

theorem simple {parse : Parser D P R} {text : String}
    (steady : ∀ commands, parse text [] = some commands → ∀ c ∈ commands, c.steady = true) :
    Blocks (onSession (Session.simple parse text) : SqlM E D P (Option R))
      fun d _ d' => ∃ commands, parse text [] = some commands ∧ effects commands d = .ok d' := by
  apply of_session
  intro s t inside
  unfold Session.simple
  cases parsed : parse text [] with
  | none =>
    refine .inr ⟨Session.syntaxError, { t with failed := true }, ?_, inside.explicit⟩
    rw [← Session.fail_within inside.explicit]
  | some commands =>
    rcases Session.script_goes (s := s) (1 < commands.length) inside (steady commands parsed) with
      ⟨r, t', run, inside', done⟩ | failed
    · exact .inl ⟨r, t', run, inside', commands, rfl, done⟩
    · exact .inr failed

end Blocks

section Transactions

variable {d : Dialect D P R} {x : SqlExecutor E D P R}

/-- A transaction of `root` runs its callback on `tx` in a block of its own. -/
def Brackets (d : Dialect D P R) (x : SqlExecutor E D P R) (root tx : E) : Prop :=
  ∀ {α : Type} (fn : E → SqlM E D P α) (w : World E D P), w.session.transaction = none →
    (x.transaction root fn).run w = settle d ((fn tx).run (begun w))

/-- What is used of an implementation. -/
structure Transactional (d : Dialect D P R) (x : SqlExecutor E D P R) : Prop where
  query : ∀ e sql params, x.query e sql params = onSession (Session.extended d.parse sql params)
  exec : ∀ e script, (∃ error, x.exec e script = Prog.throw error) ∨
    x.exec e script = onSession (Session.simple d.parse script)
  transaction : ∀ root, (∃ tx, Brackets d x root tx) ∨
    ∀ {α : Type} (fn : E → SqlM E D P α) w, ∃ error, (x.transaction root fn).run w = (.error error, w)

theorem settle_ok (d : Dialect D P R) {a : α} {w : World E D P} {s : Session D}
    {t : Transaction D} (session : w.session = s.within t) (inside : t.Open) :
    settle d (.ok a, w) = (.ok a, { w with session := s.publish t.working }) := by
  have run := Session.simple_one d.parse_commit (Session.step_commit s inside) rfl
  simp only [settle, session, run]

theorem settle_error (d : Dialect D P R) {e : JsError} {w : World E D P} {s : Session D}
    {t : Transaction D} (session : w.session = s.within t) :
    settle d (.error e, w) = ((.error e, { w with session := s.leave }) :
      Except JsError α × World E D P) := by
  have run := Session.simple_one d.parse_rollback (Session.step_rollback s t)
    (Session.closeImplicit_leave s)
  simp only [settle, session, run]

theorem Transactional.settles (transactional : Transactional d x) (root : E)
    {fn : E → SqlM E D P α} {post : D → α → D → Prop} (body : ∀ tx, Blocks (fn tx) post)
    {w : World E D P} (idle : w.session.transaction = none) :
    (∃ a v, ((x.transaction root fn).run w).1 = .ok a ∧
      ((x.transaction root fn).run w).2.session = w.session.publish v ∧
      post w.session.committed a v) ∨
    ∃ error, ((x.transaction root fn).run w).1 = .error error ∧
      ((x.transaction root fn).run w).2.session = w.session := by
  rcases transactional.transaction root with ⟨tx, brackets⟩ | refused
  · have block := body tx (begun w) w.session (.start w.session.committed false false) rfl
      ⟨rfl, rfl⟩
    rw [brackets fn w idle]
    rcases run : (fn tx).run (begun w) with ⟨result, w'⟩
    rw [run] at block
    rcases block with ⟨a, t, ok, session, inside, done⟩ | ⟨error, t, thrown, session, _⟩
    · obtain rfl : result = .ok a := ok
      rw [settle_ok d session inside]
      exact .inl ⟨a, t.working, rfl, rfl, done⟩
    · obtain rfl : result = .error error := thrown
      have left : w.session.leave = w.session := by
        unfold Session.leave
        rw [← idle]
      rw [settle_error d session, left]
      exact .inr ⟨error, rfl, rfl⟩
  · obtain ⟨error, run⟩ := refused fn w
    rw [run]
    exact .inr ⟨error, rfl, rfl⟩

theorem PgliteExecutor.brackets (d : Dialect D P R) (root : PgliteExecutor) :
    Brackets d (PgliteExecutor.methods d) root ⟨false⟩ := by
  intro α fn w idle
  simp only [methods, transaction, Prog.run_bind, run_onSession, simple_begin d idle,
    Except.mapError, run_catching]
  rcases run : (fn ⟨false⟩).run (begun w) with ⟨e | a, w'⟩
  · unfold begun at run
    simp only [run, settle]
  · unfold begun at run
    simp only [run, simple_commit, Prog.run_pure, settle]

theorem PgliteExecutor.transactional : Transactional d (PgliteExecutor.methods d) where
  query _ _ _ := rfl
  exec e script := by
    simp only [methods, exec]
    split
    · exact .inl ⟨_, rfl⟩
    · exact .inr rfl
  transaction root := .inl ⟨_, PgliteExecutor.brackets d root⟩

theorem PostgresExecutor.brackets (js : PostgresJs d) (ms : ℕ) (readOnlyTx : Bool) :
    Brackets d (PostgresExecutor.methods js) ⟨.connection, ms, readOnlyTx⟩
      ⟨.transaction, ms, false⟩ := by
  intro α fn w idle
  have timed : Session.simple d.parse (setTimeout ms) (begun w).session =
      (.ok none, (begun w).session) :=
    Session.simple_one (d.parse_setTimeout ms) rfl (Session.closeImplicit_within _ rfl)
  simp only [methods, transaction]
  rw [js.brackets _ w idle, Prog.run_bind, run_onSession, timed]
  rfl

theorem PostgresExecutor.transactional (js : PostgresJs d) :
    Transactional d (PostgresExecutor.methods js) where
  query _ _ _ := rfl
  exec e script := by
    simp only [methods, exec]
    split
    · exact .inl ⟨_, rfl⟩
    · exact .inr rfl
  transaction root := by
    rcases root with ⟨handle, ms, readOnlyTx⟩
    cases handle with
    | connection => exact .inl ⟨_, PostgresExecutor.brackets js ms readOnlyTx⟩
    | transaction =>
      refine .inr fun fn w => ⟨.typeError "this.sql.begin is not a function", ?_⟩
      simp only [methods, transaction, js.refused, Prog.run_throw]

end Transactions

section Migrations

variable {quoted : String}

/-- What the script of a migration may do, and what its clock may show: the script neither ends its
transaction nor takes statements back, it leaves the ledger alone, and the clock shows no version
of the ledger. -/
structure Meets (d : MigrationDialect quoted T R) (call : MigrationCall) (db : Database T) :
    Prop where
  steady : ∀ commands, d.parse call.sql [] = some commands → ∀ c ∈ commands, c.steady = true
  leaves : ∀ commands, d.parse call.sql [] = some commands → ∀ c ∈ commands, ∀ ledger,
    c.Respects fun db => db.ledger = ledger
  fresh : ∀ row ∈ db.rows, row.version ≠ call.now

def MigrationCall.row (call : MigrationCall) : MigrationRow :=
  ⟨call.now, call.name, statementCount call.sql⟩

/-- The schema and its ledger are there, all statements of the script are applied, and the
migration is recorded. -/
def Applied (d : MigrationDialect quoted T R) (call : MigrationCall)
    (before after : Database T) : Prop :=
  ∃ v₁ v₂ commands v₃, before.createSchema = .ok v₁ ∧ v₁.createLedger = .ok v₂ ∧
    d.parse call.sql [] = some commands ∧ effects commands v₂ = .ok v₃ ∧
      v₃.record call.row = .ok after

variable {d : MigrationDialect quoted T R} {x : SqlExecutor E (Database T) Param R}

theorem change_effect {nothing : R} {f : D → Except SqlError D} {v v' : D}
    (done : (change nothing f).effect v = .ok v') : f v = .ok v' := by
  simp only [change, Command.effect] at done
  cases run : f v with
  | error e => simp [run, Except.map] at done
  | ok v₁ => simpa [run, Except.map] using done

theorem Transactional.query_change (transactional : Transactional d.toDialect x) (tx : E)
    {sql : String} {params : List Param} {f : Database T → Except SqlError (Database T)}
    (parsed : d.parse sql params = some [change d.nothing f]) :
    Blocks (x.query tx sql params) fun v _ v' => f v = .ok v' := by
  rw [transactional.query]
  exact (Blocks.extended parsed rfl).mono fun _ _ _ done => change_effect done

theorem Transactional.exec_script (transactional : Transactional d.toDialect x) (tx : E)
    {script : String}
    (steady : ∀ commands, d.parse script [] = some commands → ∀ c ∈ commands, c.steady = true) :
    Blocks (x.exec tx script) fun v _ v' =>
      ∃ commands, d.parse script [] = some commands ∧ effects commands v = .ok v' := by
  rcases transactional.exec tx script with ⟨error, refused⟩ | runs
  · rw [refused]
    exact .of_throw error
  · rw [runs]
    exact .simple steady

theorem migrationBody_blocks (transactional : Transactional d.toDialect x) {call : MigrationCall}
    (steady : ∀ commands, d.parse call.sql [] = some commands → ∀ c ∈ commands, c.steady = true)
    (tx : E) :
    Blocks (migrationBody x quoted call tx) fun v result v' =>
      result = (call.now, statementCount call.sql) ∧ Applied d call v v' := by
  apply ((transactional.query_change tx d.parse_createSchema).bind fun _ =>
    (transactional.query_change tx d.parse_createLedger).bind fun _ =>
      (transactional.exec_script tx steady).bind fun _ =>
        (transactional.query_change tx (d.parse_record call.now call.name
          (statementCount call.sql))).bind fun _ => Blocks.of_pure _).mono
  rintro v result v' ⟨_, v₁, schema, _, v₂, ledger, _, v₃, ⟨commands, parsed, done⟩, _, v₄, record,
    rfl, rfl⟩
  exact ⟨rfl, v₁, v₂, commands, v₃, schema, ledger, parsed, done, record⟩

/-- A call is applied and committed, or leaves the session as it was. -/
def Settles (d : MigrationDialect quoted T R) (call : MigrationCall) (s : Session (Database T))
    (outcome : Outcome) (s' : Session (Database T)) : Prop :=
  (succeeded outcome = true ∧ ∃ after, s' = s.publish after ∧ Applied d call s.committed after) ∨
    succeeded outcome = false ∧ s' = s

theorem quoteIdent_ok {name quoted : String} (h : quoteIdent name = .ok quoted) :
    quoted = doubleQuoted name := by
  unfold quoteIdent at h
  split at h
  · cases h
  · split at h
    · cases h
    · split at h
      · exact (Except.ok.inj h).symm
      · cases h

theorem applyMigration_settles {schema : String}
    {d : MigrationDialect (doubleQuoted schema) T R}
    (transactional : Transactional d.toDialect x) {call : MigrationCall}
    (steady : ∀ commands, d.parse call.sql [] = some commands → ∀ c ∈ commands, c.steady = true)
    (root : E) (w : World E (Database T) Param) (idle : w.session.transaction = none) :
    Settles d call w.session ((applyMigration x root schema call).run w).1
      ((applyMigration x root schema call).run w).2.session := by
  unfold applyMigration
  cases identifier : quoteIdent schema with
  | error e => exact .inr ⟨rfl, rfl⟩
  | ok quoted =>
    obtain rfl := quoteIdent_ok identifier
    simp only [Prog.run_bind, Prog.run_ofExcept, Prog.run_attempt]
    rcases transactional.settles root (migrationBody_blocks transactional steady) idle with
      ⟨a, after, ok, session, _, applied⟩ | ⟨error, thrown, session⟩
    · refine .inl ?_
      simp only [ok, Prog.run_pure]
      exact ⟨rfl, after, session, applied⟩
    · refine .inr ?_
      simp only [thrown, Prog.run_pure]
      refine ⟨?_, session⟩
      unfold failFromError
      split
      · rfl
      · rfl

theorem upsert_fresh {row : MigrationRow} {rows : List MigrationRow}
    (fresh : ∀ r ∈ rows, r.version ≠ row.version) : Database.upsert row rows = rows ++ [row] := by
  induction rows with
  | nil => rfl
  | cons r rest ih =>
    have other := fresh r (List.mem_cons_self ..)
    rw [Database.upsert, if_neg other, ih fun r' mem => fresh r' (List.mem_cons_of_mem r mem)]
    rfl

theorem Applied.rows {call : MigrationCall} {before after : Database T}
    (applied : Applied d call before after) (meets : Meets d call before) :
    after.rows = before.rows ++ [call.row] := by
  obtain ⟨v₁, v₂, commands, v₃, schema, ledger, parsed, done, recorded⟩ := applied
  obtain rfl := Except.ok.inj schema
  simp only [Database.createLedger, if_true] at ledger
  obtain rfl := Except.ok.inj ledger
  have kept : v₃.ledger = some before.rows :=
    effects_respects (P := fun db => db.ledger = some before.rows)
      (fun c mem => meets.leaves commands parsed c mem _) rfl done
  simp only [Database.record, kept, Except.ok.injEq] at recorded
  subst recorded
  have fresh : ∀ r ∈ before.rows, r.version ≠ call.row.version := meets.fresh
  exact upsert_fresh fresh

/-- What holds of every call of a run, of its outcome and of the sessions around it. -/
def EachCall (x : SqlExecutor E (Database T) Param R) (root : E) (schema : String)
    (Q : MigrationCall → Session (Database T) → Outcome → Session (Database T) → Prop) :
    List MigrationCall → World E (Database T) Param → Prop
  | [], _ => True
  | call :: rest, w =>
    Q call w.session ((applyMigration x root schema call).run w).1
        ((applyMigration x root schema call).run w).2.session ∧
      EachCall x root schema Q rest ((applyMigration x root schema call).run w).2

def recordedRows : List MigrationCall → List Outcome → List MigrationRow
  | call :: calls, outcome :: outcomes =>
    if succeeded outcome then call.row :: recordedRows calls outcomes
    else recordedRows calls outcomes
  | _, _ => []

/-- A call that fails commits nothing, one that succeeds has all its statements applied, and after
any number of calls the ledger has the rows that it had and one for each success, in order. -/
structure AllOrNothing (d : MigrationDialect quoted T R) (x : SqlExecutor E (Database T) Param R)
    (root : E) (schema : String) (calls : List MigrationCall) (d₀ : Database T) : Prop where
  failed : EachCall x root schema (fun _ s outcome s' => succeeded outcome = false →
    s'.committed = s.committed ∧ s'.published = s.published) calls (idle d₀)
  applied : EachCall x root schema (fun call s outcome s' => succeeded outcome = true →
    Applied d call s.committed s'.committed) calls (idle d₀)
  recorded : ∀ n, (runMigrations x root schema (calls.take n) (idle d₀)).2.session.committed.rows =
    d₀.rows ++ recordedRows (calls.take n)
      (runMigrations x root schema (calls.take n) (idle d₀)).1

section Run

variable {schema : String} {root : E} {calls : List MigrationCall} {w : World E (Database T) Param}

theorem EachCall.mono
    {Q Q' : MigrationCall → Session (Database T) → Outcome → Session (Database T) → Prop}
    (sub : ∀ call s outcome s', Q call s outcome s' → Q' call s outcome s')
    (h : EachCall x root schema Q calls w) : EachCall x root schema Q' calls w := by
  induction calls generalizing w with
  | nil => trivial
  | cons call rest ih => exact ⟨sub _ _ _ _ h.1, ih h.2⟩

theorem EachCall.take
    {Q : MigrationCall → Session (Database T) → Outcome → Session (Database T) → Prop}
    (h : EachCall x root schema Q calls w) (n : ℕ) :
    EachCall x root schema Q (calls.take n) w := by
  induction calls generalizing w n with
  | nil => simpa using h
  | cons call rest ih =>
    cases n with
    | zero => trivial
    | succ n => exact ⟨h.1, ih h.2 n⟩

variable {d : MigrationDialect (doubleQuoted schema) T R}

theorem eachCall_settles (transactional : Transactional d.toDialect x)
    (meets : EachCall x root schema (fun call s _ _ => Meets d call s.committed) calls w)
    (idle : w.session.transaction = none) :
    EachCall x root schema (fun call s outcome s' => Settles d call s outcome s' ∧
      Meets d call s.committed) calls w := by
  induction calls generalizing w with
  | nil => trivial
  | cons call rest ih =>
    have settles := applyMigration_settles transactional meets.1.steady root w idle
    refine ⟨⟨settles, meets.1⟩, ih meets.2 ?_⟩
    rcases settles with ⟨_, after, session, _⟩ | ⟨_, session⟩
    · rw [session]
      rfl
    · rw [session]
      exact idle

theorem recorded_of_settles
    (settles : EachCall x root schema (fun call s outcome s' => Settles d call s outcome s' ∧
      Meets d call s.committed) calls w) :
    (runMigrations x root schema calls w).2.session.committed.rows =
      w.session.committed.rows ++ recordedRows calls (runMigrations x root schema calls w).1 := by
  induction calls generalizing w with
  | nil => simp [runMigrations, recordedRows]
  | cons call rest ih =>
    obtain ⟨⟨settled, meets⟩, later⟩ := settles
    have rest_ := ih later
    simp only [runMigrations, recordedRows]
    rcases settled with ⟨ok, after, session, applied⟩ | ⟨failed, session⟩
    · have rows : ((applyMigration x root schema call).run w).2.session.committed.rows =
          w.session.committed.rows ++ [call.row] := by
        rw [session]
        exact applied.rows meets
      rw [ok, if_pos rfl, rest_, rows, List.append_assoc]
      rfl
    · rw [failed, rest_, session]
      rfl

theorem Transactional.allOrNothing (transactional : Transactional d.toDialect x) {d₀ : Database T}
    (meets : EachCall x root schema (fun call s _ _ => Meets d call s.committed) calls
      (idle d₀)) : AllOrNothing d x root schema calls d₀ := by
  have settles := eachCall_settles transactional meets rfl
  constructor
  · apply settles.mono
    rintro call s outcome s' ⟨⟨ok, _⟩ | ⟨_, session⟩, _⟩ failed
    · rw [ok] at failed
      cases failed
    · rw [session]
      exact ⟨rfl, rfl⟩
  · apply settles.mono
    rintro call s outcome s' ⟨⟨_, after, session, applied⟩ | ⟨failed, _⟩, _⟩ ok
    · rw [session]
      exact applied
    · rw [failed] at ok
      cases ok
  · intro n
    exact recorded_of_settles (settles.take n)

end Run
end Migrations

/-- In a run whose calls all meet the condition, migrations are all or nothing and recorded. -/
theorem migrations_all_or_nothing {schema : String}
    (d : MigrationDialect (doubleQuoted schema) T R) :
    (∀ (js : PostgresJs d.toDialect) (root : PostgresExecutor) calls d₀,
      EachCall (PostgresExecutor.methods js) root schema
        (fun call s _ _ => Meets d call s.committed) calls (idle d₀) →
      AllOrNothing d (PostgresExecutor.methods js) root schema calls d₀) ∧
    ∀ (root : PgliteExecutor) calls d₀,
      EachCall (PgliteExecutor.methods d.toDialect) root schema
        (fun call s _ _ => Meets d call s.committed) calls (idle d₀) →
      AllOrNothing d (PgliteExecutor.methods d.toDialect) root schema calls d₀ :=
  ⟨fun js _ _ _ meets => (PostgresExecutor.transactional js).allOrNothing meets,
    fun _ _ _ meets => PgliteExecutor.transactional.allOrNothing meets⟩

inductive Text where
  | begin | beginReadOnly | commit | rollback | setReadOnly | createSchema
  /-- A table. -/
  | table
  /-- A table, a COMMIT, and what cannot be run. -/
  | halfTable
  | other
  deriving DecidableEq

def Text.ofString (sql : String) : Text :=
  if sql = "BEGIN" then .begin
  else if sql = "BEGIN TRANSACTION READ ONLY" then .beginReadOnly
  else if sql = "COMMIT" then .commit
  else if sql = "ROLLBACK" then .rollback
  else if sql = "SET TRANSACTION READ ONLY" then .setReadOnly
  else if sql = createSchemaText (doubleQuoted "ntl") then .createSchema
  else if sql = "CREATE TABLE a ()" then .table
  else if sql = "CREATE TABLE a (); COMMIT; SELECT 1/0" then .halfTable
  else .other

def addTable : Command (Database ℕ) Unit := change () fun db => .ok { db with rest := db.rest + 1 }

def divideByZero : Command (Database ℕ) Unit :=
  .read fun _ => .error ⟨"22012", "division by zero"⟩

def Text.commands : Text → Option (List (Command (Database ℕ) Unit))
  | .begin => some [.begin none]
  | .beginReadOnly => some [.begin (some true)]
  | .commit => some [.commit false]
  | .rollback => some [.rollback false]
  | .setReadOnly => some [.setTransaction true]
  | .createSchema => some [change () Database.createSchema]
  | .table => some [addTable]
  | .halfTable => some [addTable, .commit false, divideByZero]
  | .other => none

def recordCommands : List Param → Option (List (Command (Database ℕ) Unit))
  | [.int version, .text name, .int count] =>
    some [change () (Database.record ⟨version, name, count.toNat⟩)]
  | _ => none

def parseTables (sql : String) (params : List Param) :
    Option (List (Command (Database ℕ) Unit)) :=
  if "SET LOCAL statement_timeout = ".toList.isPrefixOf sql.toList then some [.setLocal]
  else if sql = createLedgerText (doubleQuoted "ntl") then some [change () Database.createLedger]
  else if sql = recordText (doubleQuoted "ntl") then recordCommands params
  else (Text.ofString sql).commands

theorem head_append {s t : String} {c : Char} (h : s.toList.head? = some c) :
    (s ++ t).toList.head? = some c := by
  rw [String.toList_append, List.head?_append, h]
  rfl

theorem not_setLocal {s : String} (h : s.toList.head? ≠ some 'S') :
    ¬"SET LOCAL statement_timeout = ".toList.isPrefixOf s.toList = true := by
  have spelled : "SET LOCAL statement_timeout = ".toList =
      'S' :: "ET LOCAL statement_timeout = ".toList := by decide +kernel
  rw [spelled]
  cases chars : s.toList with
  | nil => simp
  | cons c rest =>
    intro starts
    simp only [List.isPrefixOf, Bool.and_eq_true, beq_iff_eq] at starts
    rw [chars, ← starts.1] at h
    exact h rfl

theorem head_createLedgerText : (createLedgerText (doubleQuoted "ntl")).toList.head? = some 'C' :=
  head_append (by decide +kernel)

theorem head_recordText : (recordText (doubleQuoted "ntl")).toList.head? = some 'I' :=
  head_append (by decide +kernel)

theorem parseTables_short {sql : String} (text : Text) (params : List Param)
    (head : sql.toList.head? ≠ some 'S') (ledger : sql ≠ createLedgerText (doubleQuoted "ntl"))
    (record : sql ≠ recordText (doubleQuoted "ntl")) (read : Text.ofString sql = text) :
    parseTables sql params = text.commands := by
  rw [parseTables, if_neg (not_setLocal head), if_neg ledger, if_neg record, read]

def tables : MigrationDialect (doubleQuoted "ntl") ℕ Unit where
  parse := parseTables
  parse_begin := parseTables_short .begin [] (by decide +kernel) (by decide +kernel)
    (by decide +kernel) (by decide +kernel)
  parse_beginReadOnly := parseTables_short .beginReadOnly [] (by decide +kernel)
    (by decide +kernel) (by decide +kernel) (by decide +kernel)
  parse_commit := parseTables_short .commit [] (by decide +kernel) (by decide +kernel)
    (by decide +kernel) (by decide +kernel)
  parse_rollback := parseTables_short .rollback [] (by decide +kernel)
    (by decide +kernel) (by decide +kernel) (by decide +kernel)
  parse_setReadOnly := by
    rw [parseTables, if_neg (by decide +kernel), if_neg (by decide +kernel),
      if_neg (by decide +kernel)]
    have read : Text.ofString "SET TRANSACTION READ ONLY" = .setReadOnly := by decide +kernel
    rw [read]
    rfl
  parse_setTimeout ms := by
    rw [parseTables, if_pos (setTimeout_starts ms)]
  nothing := ()
  parse_createSchema := parseTables_short .createSchema [] (by decide +kernel)
    (by decide +kernel) (by decide +kernel) (by decide +kernel)
  parse_createLedger := by
    have head := head_createLedgerText
    rw [parseTables, if_neg (not_setLocal (by rw [head]; decide)), if_pos rfl]
  parse_record version name count := by
    have head := head_recordText
    have other : recordText (doubleQuoted "ntl") ≠ createLedgerText (doubleQuoted "ntl") := by
      intro same
      rw [same, head_createLedgerText] at head
      exact absurd head (by decide)
    rw [parseTables, if_neg (not_setLocal (by rw [head]; decide)), if_neg other, if_pos rfl]
    rfl

theorem parse_table : tables.parse "CREATE TABLE a ()" [] = some [addTable] := by
  show parseTables "CREATE TABLE a ()" [] = _
  exact parseTables_short .table [] (by decide +kernel) (by decide +kernel) (by decide +kernel)
    (by decide +kernel)

theorem parse_halfTable : tables.parse "CREATE TABLE a (); COMMIT; SELECT 1/0" [] =
    some [addTable, .commit false, divideByZero] := by
  show parseTables "CREATE TABLE a (); COMMIT; SELECT 1/0" [] = _
  exact parseTables_short .halfTable [] (by decide +kernel) (by decide +kernel) (by decide +kernel)
    (by decide +kernel)

section Samples

variable {E : Type} {x : SqlExecutor E (Database ℕ) Param Unit} {quoted : String}
  {d : MigrationDialect quoted ℕ Unit} {call : MigrationCall} {tx : E}

/-- The script fails behind its COMMIT: the block is over, and so is the table's transaction. -/
theorem half_body (db : Database ℕ) (published : List (Database ℕ)) (handed : List E)
    (calls : List (Session (Database ℕ) × Call Param)) (query : ∀ sql params, x.query tx sql params =
      onSession (Session.extended d.parse sql params))
    (exec : x.exec tx call.sql = onSession (Session.simple d.parse call.sql))
    (parsed : d.parse call.sql [] = some [addTable, .commit false, divideByZero]) :
    (migrationBody x quoted call tx).run
      ⟨⟨db, published, some (.start db false false)⟩, handed, calls⟩ =
    (.error (.sql ⟨"22012", "division by zero"⟩),
      ⟨⟨⟨true, some db.rows, db.rest + 1⟩, ⟨true, some db.rows, db.rest + 1⟩ :: published, none⟩,
        handed, calls⟩) := by
  simp [migrationBody, query, exec, Prog.run_bind, run_onSession, Session.simple,
    Session.extended, d.parse_createSchema, d.parse_createLedger, parsed, Session.script,
    Session.step, Session.stepActive, Session.within, Transaction.start, Session.openImplicit,
    Session.publish, Session.afterBlock, Session.fail, Session.leave, Except.mapError, Except.map,
    change, addTable, divideByZero, Database.createSchema, Database.createLedger, Database.rows]

theorem table_body (db : Database ℕ) (published : List (Database ℕ)) (handed : List E)
    (calls : List (Session (Database ℕ) × Call Param)) (query : ∀ sql params, x.query tx sql params =
      onSession (Session.extended d.parse sql params))
    (exec : x.exec tx call.sql = onSession (Session.simple d.parse call.sql))
    (parsed : d.parse call.sql [] = some [addTable]) :
    ∃ t, (migrationBody x quoted call tx).run
      ⟨⟨db, published, some (.start db false false)⟩, handed, calls⟩ =
    (.ok (call.now, statementCount call.sql), ⟨⟨db, published, some t⟩, handed, calls⟩) ∧
      t.Open ∧ t.working = ⟨true, some (Database.upsert call.row db.rows), db.rest + 1⟩ := by
  refine ⟨⟨⟨true, some (Database.upsert call.row db.rows), db.rest + 1⟩, false, true, false, false,
    []⟩, ?_, ⟨rfl, rfl⟩, rfl⟩
  simp [migrationBody, query, exec, Prog.run_bind, Prog.run_map, run_onSession, Session.simple,
    Session.extended, d.parse_createSchema, d.parse_createLedger, d.parse_record, parsed,
    Session.script, Session.step, Session.stepActive, Session.within, Transaction.start,
    Session.closeImplicit, Except.mapError, Except.map, change, addTable, Database.createSchema,
    Database.createLedger, Database.record, Database.rows, MigrationCall.row]

variable {root : E} {schema : String}

theorem half_failed (db : Database ℕ) (brackets : Brackets d.toDialect x root tx)
    (query : ∀ sql params, x.query tx sql params = onSession (Session.extended d.parse sql params))
    (exec : x.exec tx call.sql = onSession (Session.simple d.parse call.sql))
    (parsed : d.parse call.sql [] = some [addTable, .commit false, divideByZero])
    (valid : quoteIdent schema = .ok quoted) :
    succeeded ((applyMigration x root schema call).run (idle db)).1 = false ∧
    ((applyMigration x root schema call).run (idle db)).2.session.committed =
      ⟨true, some db.rows, db.rest + 1⟩ := by
  have body := half_body db [] [] [] query exec parsed
  have whole := brackets (migrationBody x quoted call) (idle db) rfl
  simp only [begun, idle, Session.within, body] at whole
  simp only [applyMigration, valid, Prog.run_bind, Prog.run_ofExcept, Prog.run_attempt, idle, whole,
    settle, Prog.run_pure]
  refine ⟨rfl, ?_⟩
  simp [Session.simple, d.parse_rollback, Session.script, Session.step, Session.stepIdle,
    Session.closeImplicit]

theorem table_applied (call : MigrationCall) (brackets : Brackets d.toDialect x root tx)
    (query : ∀ sql params, x.query tx sql params = onSession (Session.extended d.parse sql params))
    (exec : x.exec tx call.sql = onSession (Session.simple d.parse call.sql))
    (parsed : d.parse call.sql [] = some [addTable]) (valid : quoteIdent schema = .ok quoted)
    (w : World E (Database ℕ) Param) (at_ : w.session.transaction = none) :
    succeeded ((applyMigration x root schema call).run w).1 = true ∧
    ((applyMigration x root schema call).run w).2.session =
      w.session.publish ⟨true, some (Database.upsert call.row w.session.committed.rows),
        w.session.committed.rest + 1⟩ := by
  obtain ⟨t, body, inside, working⟩ := table_body w.session.committed
    w.session.published w.handed w.calls query exec parsed
  have whole := brackets (migrationBody x quoted call) w at_
  have run : (migrationBody x quoted call tx).run (begun w) = _ := body
  rw [run, settle_ok d.toDialect (s := ⟨w.session.committed, w.session.published, none⟩) rfl inside,
    working] at whole
  simp only [applyMigration, valid, Prog.run_bind, Prog.run_ofExcept, Prog.run_attempt, whole,
    Prog.run_pure]
  exact ⟨rfl, rfl⟩

theorem half_breaks (db : Database ℕ) (brackets : Brackets d.toDialect x root tx)
    (query : ∀ sql params, x.query tx sql params = onSession (Session.extended d.parse sql params))
    (exec : x.exec tx call.sql = onSession (Session.simple d.parse call.sql))
    (parsed : d.parse call.sql [] = some [addTable, .commit false, divideByZero])
    (valid : quoteIdent schema = .ok quoted) : ¬AllOrNothing d x root schema [call] db := by
  intro h
  obtain ⟨failed, committed⟩ := half_failed db brackets query exec parsed valid
  have kept := (h.failed.1 failed).1
  rw [committed] at kept
  have tables := congrArg Database.rest kept
  simp [idle] at tables

theorem twice_breaks {call' : MigrationCall} (brackets : Brackets d.toDialect x root tx)
    (query : ∀ sql params, x.query tx sql params = onSession (Session.extended d.parse sql params))
    (exec : ∀ script, x.exec tx script = onSession (Session.simple d.parse script))
    (parsed : d.parse call.sql [] = some [addTable])
    (parsed' : d.parse call'.sql [] = some [addTable]) (same : call'.now = call.now)
    (valid : quoteIdent schema = .ok quoted) :
    ¬AllOrNothing d x root schema [call, call'] ⟨false, none, 0⟩ := by
  intro h
  obtain ⟨ok, session⟩ := table_applied call brackets query (exec _) parsed valid
    (idle ⟨false, none, 0⟩) rfl
  obtain ⟨ok', session'⟩ := table_applied call' brackets query (exec _) parsed' valid
    ((applyMigration x root schema call).run (idle ⟨false, none, 0⟩)).2 (by rw [session]; rfl)
  have one : ((applyMigration x root schema call').run ((applyMigration x root schema call).run
      (idle ⟨false, none, 0⟩)).2).2.session.committed.rows = [call'.row] := by
    rw [session', session]
    simp [Session.publish, idle, Database.rows, Database.upsert, MigrationCall.row, same]
  have both := congrArg List.length (h.recorded 2)
  simp only [List.take, runMigrations, recordedRows, ok, ok', if_true, one] at both
  simp at both

end Samples

theorem ntl_valid : quoteIdent "ntl" = .ok (doubleQuoted "ntl") := by
  have short : ¬utf16Length "ntl" > 63 := by decide +kernel
  have shape : (isIdentStart 'n' && ['t', 'l'].all isIdentPart) = true := by decide +kernel
  have spelled : "ntl".toList = ['n', 't', 'l'] := by decide +kernel
  unfold quoteIdent
  rw [spelled]
  simp only [short, if_false, shape, if_true]

theorem migrations_half_applied :
    ¬AllOrNothing tables (PgliteExecutor.methods tables.toDialect) ⟨false⟩ "ntl"
      [⟨"half", "CREATE TABLE a (); COMMIT; SELECT 1/0", 1⟩] ⟨false, none, 0⟩ ∧
    ¬AllOrNothing tables (PostgresExecutor.methods (.documented tables.toDialect)) ⟨.connection, 1000, false⟩
      "ntl" [⟨"half", "CREATE TABLE a (); COMMIT; SELECT 1/0", 1⟩] ⟨false, none, 0⟩ ∧
    ¬AllOrNothing tables (PgliteExecutor.methods tables.toDialect) ⟨false⟩ "ntl"
      [⟨"first", "CREATE TABLE a ()", 7⟩, ⟨"second", "CREATE TABLE a ()", 7⟩] ⟨false, none, 0⟩ ∧
    ¬AllOrNothing tables (PostgresExecutor.methods (.documented tables.toDialect)) ⟨.connection, 1000, false⟩
      "ntl" [⟨"first", "CREATE TABLE a ()", 7⟩, ⟨"second", "CREATE TABLE a ()", 7⟩]
      ⟨false, none, 0⟩ := by
  refine ⟨?_, ?_, ?_, ?_⟩
  · exact half_breaks _ (PgliteExecutor.brackets _ _) (fun _ _ => rfl) rfl parse_halfTable ntl_valid
  · exact half_breaks _ (PostgresExecutor.brackets _ _ _) (fun _ _ => rfl) rfl parse_halfTable
      ntl_valid
  · exact twice_breaks (PgliteExecutor.brackets _ _) (fun _ _ => rfl) (fun _ => rfl) parse_table
      parse_table rfl ntl_valid
  · exact twice_breaks (PostgresExecutor.brackets _ _ _) (fun _ _ => rfl) (fun _ => rfl) parse_table
      parse_table rfl ntl_valid

theorem meets_table {name : String} {now : ℤ} {db : Database ℕ}
    (fresh : ∀ row ∈ db.rows, row.version ≠ now) :
    Meets tables ⟨name, "CREATE TABLE a ()", now⟩ db := by
  constructor
  · intro commands eq c mem
    obtain rfl := Option.some.inj (parse_table.symm.trans eq)
    obtain rfl := List.mem_singleton.mp mem
    rfl
  · intro commands eq c mem ledger
    obtain rfl := Option.some.inj (parse_table.symm.trans eq)
    obtain rfl := List.mem_singleton.mp mem
    rintro v v' r held done
    simp only [Except.map, Except.ok.injEq, Prod.mk.injEq] at done
    rw [← done.1]
    exact held
  · exact fresh

theorem two_tables_recorded :
    AllOrNothing tables (PgliteExecutor.methods tables.toDialect) ⟨false⟩ "ntl"
      [⟨"first", "CREATE TABLE a ()", 7⟩, ⟨"second", "CREATE TABLE a ()", 8⟩] ⟨false, none, 0⟩ ∧
    AllOrNothing tables (PostgresExecutor.methods (.documented tables.toDialect)) ⟨.connection, 1000, false⟩
      "ntl" [⟨"first", "CREATE TABLE a ()", 7⟩, ⟨"second", "CREATE TABLE a ()", 8⟩]
      ⟨false, none, 0⟩ := by
  constructor
  · apply (migrations_all_or_nothing tables).2
    refine ⟨meets_table (by simp [idle, Database.rows]), meets_table ?_, trivial⟩
    have first := (table_applied ⟨"first", "CREATE TABLE a ()", 7⟩
      (PgliteExecutor.brackets tables.toDialect ⟨false⟩) (fun _ _ => rfl) rfl parse_table ntl_valid
      (idle ⟨false, none, 0⟩) rfl).2
    rw [first]
    simp [idle, Session.publish, Database.rows, Database.upsert, MigrationCall.row]
  · apply (migrations_all_or_nothing tables).1 (.documented tables.toDialect)
    refine ⟨meets_table (by simp [idle, Database.rows]), meets_table ?_, trivial⟩
    have first := (table_applied ⟨"first", "CREATE TABLE a ()", 7⟩
      (PostgresExecutor.brackets (.documented tables.toDialect) 1000 false) (fun _ _ => rfl) rfl parse_table
      ntl_valid (idle ⟨false, none, 0⟩) rfl).2
    rw [first]
    simp [idle, Session.publish, Database.rows, Database.upsert, MigrationCall.row]

end OpenNtl.Postgres
