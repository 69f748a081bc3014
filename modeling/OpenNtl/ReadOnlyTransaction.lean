import OpenNtl.SqlExecutor

/-! # Inside a read-only transaction

An executor that a callback is given inside a read-only transaction should take no scripts, and
nothing that is done with it should commit a write.
-/
namespace OpenNtl.Postgres

open AtomicProgram SqlSession

variable {D P R E α : Type}

namespace World

def Extends (w w' : World E D P) : Prop := ∀ entry ∈ w.calls, entry ∈ w'.calls

theorem Extends.refl (w : World E D P) : w.Extends w := fun _ mem => mem

theorem Extends.trans {w w' w'' : World E D P} (h : w.Extends w') (h' : w'.Extends w'') :
    w.Extends w'' := fun entry mem => h' entry (h entry mem)

end World

theorem onSession_within (f : Session D → Except SqlError α × Session D) :
    (onSession f : SqlM E D P α).Within World.Extends :=
  (Prog.Within.of_act fun w => World.Extends.refl w).bind fun _ => .of_ofExcept _

theorem catching_within {p : SqlM E D P α} {handler : SqlM E D P (Option R)}
    (hp : p.Within World.Extends) (hh : handler.Within World.Extends) :
    (catching p handler).Within World.Extends := by
  apply hp.attempt.bind
  intro answer
  cases answer with
  | ok a => exact .of_pure a
  | error e => exact hh.attempt.bind fun _ => .of_throw e

variable {d : Dialect D P R}

def shielded (w : World E D P) : World E D P :=
  { w with session := w.session.within (.start w.session.committed true false) }

/-- What is used of an implementation. `refuses` holds of the executors of its read-only
transactions, and `nests` says whether these begin other transactions. -/
structure Guarded (d : Dialect D P R) (x : SqlExecutor E D P R) (refuses : E → Prop)
    (nests : Bool) : Prop where
  query : ∀ e sql params, x.query e sql params = onSession (Session.extended d.parse sql params)
  exec : ∀ e script, refuses e → x.exec e script = Prog.throw .execInReadOnlyTransaction
  enters : ∀ e (fn : E → SqlM E D P (Option R)) (w : World E D P), w.session.transaction = none →
    (∃ err, (x.readOnly e fn).run w = (.error err, w)) ∨
    ∃ tx, refuses tx ∧ (x.readOnly e fn).run w = settle d ((fn tx).run (shielded w))
  readOnly : nests = false → ∀ e (fn : E → SqlM E D P (Option R)), refuses e →
    ∃ err, x.readOnly e fn = Prog.throw err
  transaction : nests = false → ∀ e (fn : E → SqlM E D P (Option R)), refuses e →
    ∃ err, x.transaction e fn = Prog.throw err
  readOnly_within : nests = true → ∀ e (fn : E → SqlM E D P (Option R)),
    (∀ tx, (fn tx).Within World.Extends) → (x.readOnly e fn).Within World.Extends
  transaction_within : nests = true → ∀ e (fn : E → SqlM E D P (Option R)),
    (∀ tx, (fn tx).Within World.Extends) → (x.transaction e fn).Within World.Extends

/-- The executor of a read-only transaction, on the handle that `begin` gave. -/
def PostgresExecutor.Refuses (e : PostgresExecutor) : Prop :=
  e.sql = .transaction ∧ e.readOnlyTx = true

theorem PostgresExecutor.guarded (js : PostgresJs d) :
    Guarded d (PostgresExecutor.methods js) Refuses false where
  query _ _ _ := rfl
  exec e script refuses := by simp [methods, exec, refuses.2]
  enters e fn w idle := by
    rcases e with ⟨handle, ms, readOnlyTx⟩
    cases handle with
    | transaction =>
      refine .inl ⟨.typeError "this.sql.begin is not a function", ?_⟩
      simp only [methods, PostgresExecutor.readOnly, js.refused, Prog.run_throw]
    | connection =>
      refine .inr ⟨⟨.transaction, ms, true⟩, ⟨rfl, rfl⟩, ?_⟩
      -- READ ONLY comes before any query of the block
      have shields : Session.simple d.parse "SET TRANSACTION READ ONLY" (begun w).session =
          (.ok none, (shielded w).session) :=
        Session.simple_one d.parse_setReadOnly rfl (Session.closeImplicit_within _ rfl)
      have timed : Session.simple d.parse (setTimeout ms) (shielded w).session =
          (.ok none, (shielded w).session) :=
        Session.simple_one (d.parse_setTimeout ms) rfl (Session.closeImplicit_within _ rfl)
      simp only [methods, PostgresExecutor.readOnly]
      rw [js.brackets _ w idle, Prog.run_bind, run_onSession, shields]
      dsimp only [Except.mapError]
      rw [Prog.run_bind, run_onSession]
      dsimp only
      rw [timed]
      rfl
  readOnly _ e fn refuses :=
    ⟨.typeError "this.sql.begin is not a function", by
      simp only [methods, PostgresExecutor.readOnly, refuses.1, js.refused]⟩
  transaction _ e fn refuses :=
    ⟨.typeError "this.sql.begin is not a function", by
      simp only [methods, transaction, refuses.1, js.refused]⟩
  readOnly_within nests := by cases nests
  transaction_within nests := by cases nests

theorem PgliteExecutor.guarded :
    Guarded d (PgliteExecutor.methods d) (fun e => e.readOnlyTx = true) true where
  query _ _ _ := rfl
  exec e script refuses := by simp [methods, exec, refuses]
  enters e fn w idle := by
    refine .inr ⟨⟨true⟩, rfl, ?_⟩
    have begins : Session.simple d.parse "BEGIN TRANSACTION READ ONLY" w.session =
        (.ok none, (shielded w).session) := by
      have step : w.session.step (.begin (some true) : Command D R) =
          (.ok none, (shielded w).session) := by
        simp [Session.step, idle, Session.stepIdle, shielded]
      exact Session.simple_one d.parse_beginReadOnly step (Session.closeImplicit_within _ rfl)
    simp only [methods, readOnly, Prog.run_bind, run_onSession, begins, Except.mapError,
      run_catching]
    rcases run : (fn ⟨true⟩).run (shielded w) with ⟨e | a, w'⟩
    · unfold shielded at run
      simp only [shielded, run, settle]
    · unfold shielded at run
      simp only [shielded, run, simple_commit, Prog.run_pure, settle]
  readOnly nests := by cases nests
  transaction nests := by cases nests
  readOnly_within _ e fn within := by
    apply (onSession_within _).bind
    intro _
    apply catching_within _ (onSession_within _)
    apply (within _).bind
    intro out
    exact (onSession_within _).bind fun _ => .of_pure out
  transaction_within _ e fn within := by
    apply (onSession_within _).bind
    intro _
    apply catching_within _ (onSession_within _)
    apply (within _).bind
    intro out
    exact (onSession_within _).bind fun _ => .of_pure out

section Callbacks

variable {x : SqlExecutor E D P R} {refuses : E → Prop} {nests : Bool}

theorem note_within (call : Call P) : (note call : SqlM E D P Unit).Within World.Extends :=
  .of_act fun _ _ mem => List.mem_cons_of_mem _ mem

theorem hand_within (e : E) : (hand e : SqlM E D P Unit).Within World.Extends :=
  .of_act fun w => World.Extends.refl w

theorem resolveName_within (scope : List E) (who : ℕ) :
    (resolveName scope who : SqlM E D P E).Within World.Extends := by
  unfold resolveName
  split
  · exact .of_throw _
  · exact .of_pure _

/-- Where executors begin other transactions, no call is forgotten, whatever is called. -/
theorem Callback.run_within (guarded : Guarded d x refuses true)
    (exec_within : ∀ e script, (x.exec e script).Within World.Extends) (body : Callback P R)
    (scope : List E) : (body.run x scope).Within World.Extends := by
  induction body generalizing scope with
  | resolve value => exact .of_pure value
  | reject message => exact .of_throw _
  | query who sql params next ih =>
    apply (resolveName_within scope who).bind
    intro e
    apply (note_within _).bind
    intro _
    apply Prog.Within.bind _ fun answer => ih answer scope
    rw [guarded.query]
    exact (onSession_within _).attempt
  | exec who script next ih =>
    apply (resolveName_within scope who).bind
    intro e
    apply (note_within _).bind
    intro _
    exact (exec_within e script).attempt.bind fun answer => ih answer scope
  | readOnly who body next inner ih =>
    apply (resolveName_within scope who).bind
    intro e
    apply (note_within _).bind
    intro _
    apply Prog.Within.bind _ fun answer => ih answer scope
    exact (guarded.readOnly_within rfl e _ fun tx =>
      (hand_within tx).bind fun _ => inner (tx :: scope)).attempt
  | transaction who body next inner ih =>
    apply (resolveName_within scope who).bind
    intro e
    apply (note_within _).bind
    intro _
    apply Prog.Within.bind _ fun answer => ih answer scope
    exact (guarded.transaction_within rfl e _ fun tx =>
      (hand_within tx).bind fun _ => inner (tx :: scope)).attempt

/-- A call that does not lead out of a read-only transaction. A single command in a message is none
that ends it or asks for READ WRITE, and no transaction is begun inside it. -/
def Stays (d : Dialect D P R) (nests : Bool) : Call P → Bool
  | .query sql params =>
    match d.parse sql params with
    | some [c] => c.stays
    | _ => true
  | .exec _ => true
  | .readOnly => !nests
  | .transaction => !nests

theorem stays_query {nests : Bool} {sql : String} {params : List P}
    (stays : Stays d nests (.query sql params) = true) {c : Command D R}
    (parsed : d.parse sql params = some [c]) : c.stays = true := by
  rw [Stays, parsed] at stays
  exact stays

/-- As long as no call leads out, the session is in a read-only block over `d₀`, and every executor that
was handed out refuses scripts. -/
def Contains (d : Dialect D P R) (refuses : E → Prop) (nests : Bool) (d₀ : D)
    (w : World E D P) : Prop :=
  (∀ entry ∈ w.calls, Stays d nests entry.2 = true) →
    w.session.ReadOnlyBlock d₀ ∧ ∀ e ∈ w.handed, refuses e

variable {d₀ : D}

theorem note_contains {w : World E D P} (contains : Contains d refuses nests d₀ w)
    (call : Call P) :
    Contains d refuses nests d₀ { w with calls := (w.session, call) :: w.calls } :=
  fun stay => contains fun entry mem => stay entry (List.mem_cons_of_mem _ mem)

theorem contains_of_left {w w' : World E D P} {entry : Session D × Call P}
    (mem : entry ∈ w.calls) (leaves : Stays d nests entry.2 = false) (ext : w.Extends w') :
    Contains d refuses nests d₀ w' := by
  intro stay
  rw [stay entry (ext entry mem)] at leaves
  cases leaves

theorem query_keeps (d₀ : D) (guarded : Guarded d x refuses nests) (e : E) (sql : String)
    (params : List P) :
    (do note (.query sql params); (x.query e sql params).attempt).Keeps
      (Contains d refuses nests d₀) := by
  intro w contains
  simp only [guarded.query, Prog.run_bind, note, Prog.run_modify, Prog.run_attempt, run_onSession]
  intro stay
  obtain ⟨block, handed⟩ := note_contains contains (.query sql params) stay
  have now := stay _ (List.mem_cons_self ..)
  exact ⟨block.extended fun c parsed => stays_query now parsed, handed⟩

theorem nested_keeps (refuses : E → Prop) (d₀ : D) (call : Call P) (leaves : Stays d true call = false)
    {p : SqlM E D P (Option R)} (refused : nests = false → ∃ err, p = Prog.throw err)
    (within : nests = true → p.Within World.Extends) :
    (do note call; p.attempt).Keeps (Contains d refuses nests d₀) := by
  intro w contains
  simp only [Prog.run_bind, note, Prog.run_modify, Prog.run_attempt]
  cases nests with
  | false =>
    obtain ⟨err, rfl⟩ := refused rfl
    exact note_contains contains call
  | true =>
    exact contains_of_left (List.mem_cons_self ..) leaves
      ((within rfl).run World.Extends.refl World.Extends.trans _)

theorem Callback.run_keeps (guarded : Guarded d x refuses nests)
    (exec_within : ∀ e script, (x.exec e script).Within World.Extends) (body : Callback P R)
    {scope : List E} (guards : ∀ e ∈ scope, refuses e) :
    (body.run x scope).Keeps (Contains d refuses nests d₀) := by
  have resolved : ∀ who (f : E → SqlM E D P (Option R)),
      (∀ e, refuses e → (f e).Keeps (Contains d refuses nests d₀)) → ∀ scope : List E,
        (∀ e ∈ scope, refuses e) →
          (resolveName scope who >>= f).Keeps (Contains d refuses nests d₀) := by
    intro who f kept scope guards
    unfold resolveName
    split
    · exact .of_throw _
    · rename_i e found
      exact kept e (guards e (List.mem_of_getElem? found))
  have inside : nests = true → ∀ (body : Callback P R) scope tx,
      (do hand tx; body.run x (tx :: scope)).Within World.Extends := by
    rintro rfl body scope tx
    exact (hand_within tx).bind fun _ => body.run_within guarded exec_within (tx :: scope)
  induction body generalizing scope with
  | resolve value => exact .of_pure value
  | reject message => exact .of_throw _
  | query who sql params next ih =>
    apply resolved who _ _ scope guards
    intro e _
    have first := query_keeps d₀ guarded e sql params
    rw [← bind_assoc]
    exact first.bind fun answer => ih answer guards
  | exec who script next ih =>
    apply resolved who _ _ scope guards
    intro e guard
    rw [guarded.exec e script guard]
    apply (Prog.Keeps.of_act fun w contains => note_contains contains (.exec script)).bind
    intro _
    exact (Prog.Keeps.of_throw _).attempt.bind fun answer => ih answer guards
  | readOnly who body next _ ih =>
    apply resolved who _ _ scope guards
    intro e guard
    have first := nested_keeps (d := d) refuses d₀ .readOnly rfl (fun flat => guarded.readOnly flat e _ guard)
      fun deep => guarded.readOnly_within deep e _ (inside deep body scope)
    rw [← bind_assoc]
    exact first.bind fun answer => ih answer guards
  | transaction who body next _ ih =>
    apply resolved who _ _ scope guards
    intro e guard
    have first := nested_keeps (d := d) refuses d₀ .transaction rfl (fun flat => guarded.transaction flat e _ guard)
      fun deep => guarded.transaction_within deep e _ (inside deep body scope)
    rw [← bind_assoc]
    exact first.bind fun answer => ih answer guards

end Callbacks

theorem PostgresExecutor.exec_within (js : PostgresJs d) (e : PostgresExecutor) (script : String) :
    ((PostgresExecutor.methods js).exec e script).Within World.Extends := by
  simp only [methods, exec]
  split
  · exact .of_throw _
  · exact onSession_within _

theorem PgliteExecutor.exec_within (e : PgliteExecutor) (script : String) :
    ((PgliteExecutor.methods d).exec e script).Within World.Extends := by
  simp only [methods, exec]
  split
  · exact .of_throw _
  · exact onSession_within _

end OpenNtl.Postgres
