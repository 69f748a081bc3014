import Mathlib.Data.List.Basic

/-! # A session with a transactional database

The commands of a session and what they do to it: a transaction block works on a copy until it
commits, a failed block takes nothing but its end, and several commands in one message make an
implicit block of their own.
-/
namespace SqlSession

variable {D P R : Type}

structure SqlError where
  code : String
  message : String
  deriving DecidableEq, Repr

inductive Command (D R : Type) where
  /-- With the access mode it asks for, `true` for READ ONLY. -/
  | begin (readOnly : Option Bool)
  | commit (chain : Bool)
  | rollback (chain : Bool)
  | setTransaction (readOnly : Bool)
  | setLocal
  | savepoint (name : String)
  | rollbackTo (name : String)
  | release (name : String)
  | read (f : D → Except SqlError R)
  | write (f : D → Except SqlError (D × R))

structure Savepoint (D : Type) where
  name : String
  working : D
  readOnly : Bool

structure Transaction (D : Type) where
  working : D
  readOnly : Bool
  /-- A query has been run in it. -/
  started : Bool
  failed : Bool
  /-- Opened by a message of several commands. -/
  implicit : Bool
  /-- The latest first. -/
  savepoints : List (Savepoint D)

structure Session (D : Type) where
  committed : D
  /-- History variable: whatever was committed, the latest first. -/
  published : List D
  transaction : Option (Transaction D)

def Transaction.start (d : D) (readOnly implicit : Bool) : Transaction D :=
  ⟨d, readOnly, false, false, implicit, []⟩

namespace Session

def publish (s : Session D) (d : D) : Session D := ⟨d, d :: s.published, none⟩

def leave (s : Session D) : Session D := { s with transaction := none }

def within (s : Session D) (t : Transaction D) : Session D := { s with transaction := some t }

/-- An error ends an implicit block, and leaves an explicit one to be ended. -/
def fail (s : Session D) : Session D :=
  match s.transaction with
  | none => s
  | some t => if t.implicit then s.leave else s.within { t with failed := true }

def noActive : SqlError := ⟨"25P01", "there is no transaction in progress"⟩

def aborted : SqlError :=
  ⟨"25P02", "current transaction is aborted, commands ignored until end of transaction block"⟩

def readOnlyViolation : SqlError := ⟨"25006", "cannot execute in a read-only transaction"⟩

def tooLate : SqlError := ⟨"25001", "transaction read-write mode must be set before any query"⟩

def noSavepoint : SqlError := ⟨"3B001", "savepoint does not exist"⟩

def syntaxError : SqlError := ⟨"42601", "syntax error"⟩

def severalCommands : SqlError :=
  ⟨"42601", "cannot insert multiple commands into a prepared statement"⟩

/-- Outside of a transaction block every command is a transaction of its own. -/
def stepIdle (s : Session D) : Command D R → Except SqlError (Option R) × Session D
  | .begin readOnly =>
    (.ok none, s.within (.start s.committed (readOnly = some true) false))
  | .commit chain => if chain then (.error noActive, s) else (.ok none, s)
  | .rollback chain => if chain then (.error noActive, s) else (.ok none, s)
  | .setTransaction _ => (.ok none, s)
  | .setLocal => (.ok none, s)
  | .savepoint _ => (.error noActive, s)
  | .rollbackTo _ => (.error noActive, s)
  | .release _ => (.error noActive, s)
  | .read f =>
    match f s.committed with
    | .error e => (.error e, s)
    | .ok r => (.ok (some r), s)
  | .write f =>
    match f s.committed with
    | .error e => (.error e, s)
    | .ok (d, r) => (.ok (some r), s.publish d)

def savepointsFrom (name : String) (t : Transaction D) : List (Savepoint D) :=
  t.savepoints.dropWhile fun p => p.name ≠ name

def rollbackTo (s : Session D) (t : Transaction D) (name : String) :
    Except SqlError (Option R) × Session D :=
  match savepointsFrom name t with
  | [] => (.error noSavepoint, s.fail)
  | p :: earlier =>
    (.ok none, s.within { t with
      working := p.working, readOnly := p.readOnly, failed := false, savepoints := p :: earlier })

def afterBlock (s : Session D) (t : Transaction D) (chain : Bool) : Session D :=
  if chain then s.within (.start s.committed t.readOnly false) else s

def stepFailed (s : Session D) (t : Transaction D) :
    Command D R → Except SqlError (Option R) × Session D
  | .commit chain => (.ok none, s.leave.afterBlock t chain)
  | .rollback chain => (.ok none, s.leave.afterBlock t chain)
  | .rollbackTo name => s.rollbackTo t name
  | _ => (.error aborted, s)

/-- READ WRITE is for a block that was READ WRITE, or one in which nothing was done so far. -/
def setMode (s : Session D) (t : Transaction D) (readOnly : Bool) :
    Except SqlError (Option R) × Session D :=
  if readOnly = false ∧ t.readOnly = true ∧ (t.started = true ∨ t.savepoints ≠ []) then
    (.error tooLate, s.fail)
  else (.ok none, s.within { t with readOnly })

def stepActive (s : Session D) (t : Transaction D) :
    Command D R → Except SqlError (Option R) × Session D
  | .begin none => (.ok none, s.within { t with implicit := false })
  | .begin (some readOnly) => s.setMode { t with implicit := false } readOnly
  | .commit chain =>
    if t.implicit ∧ chain then (.error noActive, s.fail)
    else (.ok none, (s.publish t.working).afterBlock t chain)
  | .rollback chain =>
    if t.implicit ∧ chain then (.error noActive, s.fail)
    else (.ok none, s.leave.afterBlock t chain)
  | .setTransaction readOnly => s.setMode t readOnly
  | .setLocal => (.ok none, s)
  | .savepoint name =>
    if t.implicit then (.error noActive, s.fail)
    else (.ok none, s.within { t with savepoints := ⟨name, t.working, t.readOnly⟩ :: t.savepoints })
  | .rollbackTo name => if t.implicit then (.error noActive, s.fail) else s.rollbackTo t name
  | .release name =>
    match savepointsFrom name t with
    | [] => (.error (if t.implicit then noActive else noSavepoint), s.fail)
    | p :: earlier =>
      (.ok none, s.within { t with readOnly := p.readOnly, savepoints := earlier })
  | .read f =>
    match f t.working with
    | .error e => (.error e, s.fail)
    | .ok r => (.ok (some r), s.within { t with started := true })
  | .write f =>
    if t.readOnly then (.error readOnlyViolation, s.fail)
    else
      match f t.working with
      | .error e => (.error e, s.fail)
      | .ok (d, r) => (.ok (some r), s.within { t with working := d, started := true })

def step (s : Session D) (c : Command D R) : Except SqlError (Option R) × Session D :=
  match s.transaction with
  | none => s.stepIdle c
  | some t => if t.failed then s.stepFailed t c else s.stepActive t c

def openImplicit (s : Session D) : Session D :=
  match s.transaction with
  | none => s.within (.start s.committed false true)
  | some _ => s

def closeImplicit (s : Session D) : Session D :=
  match s.transaction with
  | none => s
  | some t => if t.implicit then s.publish t.working else s

def script (block : Bool) : List (Command D R) → Session D → Except SqlError (Option R) × Session D
  | [], s => (.ok none, s.closeImplicit)
  | c :: rest, s =>
    match (if block then s.openImplicit else s).step c with
    | (.error e, s) => (.error e, s)
    | (.ok _, s) => script block rest s

end Session

abbrev Parser (D P R : Type) := String → List P → Option (List (Command D R))

namespace Session

def simple (parse : Parser D P R) (text : String) (s : Session D) :
    Except SqlError (Option R) × Session D :=
  match parse text [] with
  | none => (.error syntaxError, s.fail)
  | some commands => s.script (1 < commands.length) commands

def extended (parse : Parser D P R) (text : String) (params : List P) (s : Session D) :
    Except SqlError (Option R) × Session D :=
  match parse text params with
  | none => (.error syntaxError, s.fail)
  | some [] => (.ok none, s)
  | some [c] => s.step c
  | some (_ :: _ :: _) => (.error severalCommands, s.fail)

end Session

def Command.Respects (c : Command D R) (P : D → Prop) : Prop :=
  match c with
  | .write f => ∀ d d' r, P d → f d = .ok (d', r) → P d'
  | _ => True

structure Transaction.All (t : Transaction D) (P : D → Prop) : Prop where
  working : P t.working
  saved : ∀ p ∈ t.savepoints, P p.working

/-- Every state that the session holds: committed now or before, worked on, or saved. -/
structure Session.All (s : Session D) (P : D → Prop) : Prop where
  committed : P s.committed
  published : ∀ d ∈ s.published, P d
  transaction : ∀ t, s.transaction = some t → t.All P

namespace Session

def rejectsWrites (s : Session D) : Bool := s.transaction.any fun t => t.readOnly || t.failed

namespace All

variable {P' : Type} {P : D → Prop} {s : Session D} {t : Transaction D}

theorem publish (h : s.All P) {d : D} (holds : P d) : (s.publish d).All P where
  committed := holds
  published := by
    intro d' mem
    rcases List.mem_cons.mp mem with rfl | mem
    · exact holds
    · exact h.published d' mem
  transaction := by simp [Session.publish]

theorem leave (h : s.All P) : s.leave.All P where
  committed := h.committed
  published := h.published
  transaction := by simp [Session.leave]

theorem within (h : s.All P) (holds : t.All P) : (s.within t).All P where
  committed := h.committed
  published := h.published
  transaction := by
    intro t' eq
    cases eq
    exact holds

theorem start (h : s.All P) (readOnly implicit : Bool) :
    (s.within (.start s.committed readOnly implicit)).All P :=
  h.within ⟨h.committed, by simp [Transaction.start]⟩

theorem fail (h : s.All P) : s.fail.All P := by
  unfold Session.fail
  cases open_ : s.transaction with
  | none => exact h
  | some t =>
    have holds := h.transaction t open_
    cases implicit : t.implicit with
    | true => simpa [implicit] using h.leave
    | false =>
      simp only [implicit, Bool.false_eq_true, if_false]
      exact h.within ⟨holds.working, holds.saved⟩

theorem afterBlock (h : s.All P) (t : Transaction D) (chain : Bool) :
    (s.afterBlock t chain).All P := by
  cases chain with
  | true => exact h.start t.readOnly false
  | false => exact h

theorem setMode (h : s.All P) (holds : t.All P) (readOnly : Bool) :
    (s.setMode t readOnly : Except SqlError (Option R) × Session D).2.All P := by
  unfold Session.setMode
  split
  · exact h.fail
  · exact h.within ⟨holds.working, holds.saved⟩

theorem savepointsFrom (holds : t.All P) (name : String) :
    ∀ p ∈ Session.savepointsFrom name t, P p.working :=
  fun p mem => holds.saved p ((List.dropWhile_sublist _).subset mem)

theorem rollbackTo (h : s.All P) (holds : t.All P) (name : String) :
    (s.rollbackTo t name : Except SqlError (Option R) × Session D).2.All P := by
  have saved := savepointsFrom holds name
  unfold Session.rollbackTo
  split
  · exact h.fail
  · rename_i p earlier found
    rw [found] at saved
    exact h.within ⟨saved p (List.mem_cons_self ..), saved⟩

theorem stepIdle (h : s.All P) {c : Command D R} (respects : c.Respects P) :
    (s.stepIdle c).2.All P := by
  cases c with
  | begin readOnly => exact h.start _ false
  | commit chain => cases chain <;> exact h
  | rollback chain => cases chain <;> exact h
  | setTransaction readOnly => exact h
  | setLocal => exact h
  | savepoint name => exact h
  | rollbackTo name => exact h
  | release name => exact h
  | read f =>
    simp only [Session.stepIdle]
    split
    · exact h
    · exact h
  | write f =>
    simp only [Session.stepIdle]
    split
    · exact h
    · rename_i d r run
      exact h.publish (respects _ d r h.committed run)

theorem stepFailed (h : s.All P) (holds : t.All P) (c : Command D R) :
    (s.stepFailed t c).2.All P := by
  cases c with
  | commit chain => exact h.leave.afterBlock t chain
  | rollback chain => exact h.leave.afterBlock t chain
  | rollbackTo name => exact h.rollbackTo holds name
  | begin readOnly => exact h
  | setTransaction readOnly => exact h
  | setLocal => exact h
  | savepoint name => exact h
  | release name => exact h
  | read f => exact h
  | write f => exact h

theorem stepActive (h : s.All P) (holds : t.All P) {c : Command D R}
    (respects : t.readOnly = true ∨ c.Respects P) : (s.stepActive t c).2.All P := by
  cases c with
  | begin readOnly =>
    cases readOnly with
    | none => exact h.within ⟨holds.working, holds.saved⟩
    | some readOnly =>
      exact h.setMode (t := { t with implicit := false }) ⟨holds.working, holds.saved⟩ readOnly
  | commit chain =>
    simp only [Session.stepActive]
    split
    · exact h.fail
    · exact (h.publish holds.working).afterBlock t chain
  | rollback chain =>
    simp only [Session.stepActive]
    split
    · exact h.fail
    · exact h.leave.afterBlock t chain
  | setTransaction readOnly => exact h.setMode holds readOnly
  | setLocal => exact h
  | savepoint name =>
    simp only [Session.stepActive]
    split
    · exact h.fail
    · refine h.within ⟨holds.working, ?_⟩
      intro p mem
      rcases List.mem_cons.mp mem with rfl | mem
      · exact holds.working
      · exact holds.saved p mem
  | rollbackTo name =>
    simp only [Session.stepActive]
    split
    · exact h.fail
    · exact h.rollbackTo holds name
  | release name =>
    have saved := savepointsFrom holds name
    simp only [Session.stepActive]
    split
    · exact h.fail
    · rename_i p earlier found
      rw [found] at saved
      exact h.within ⟨holds.working, fun q mem => saved q (List.mem_cons_of_mem _ mem)⟩
  | read f =>
    simp only [Session.stepActive]
    split
    · exact h.fail
    · exact h.within ⟨holds.working, holds.saved⟩
  | write f =>
    simp only [Session.stepActive]
    split
    · exact h.fail
    · rename_i writes
      have kept := respects.resolve_left writes
      split
      · exact h.fail
      · rename_i d r run
        exact h.within ⟨kept _ d r holds.working run, holds.saved⟩

/-- A command respects what every state satisfies, unless it writes something else and the session
takes writes. -/
theorem step (h : s.All P) {c : Command D R} (respects : s.rejectsWrites = true ∨ c.Respects P) :
    (s.step c).2.All P := by
  unfold Session.step
  cases open_ : s.transaction with
  | none =>
    apply h.stepIdle
    rcases respects with rejects | respects
    · simp [rejectsWrites, open_] at rejects
    · exact respects
  | some t =>
    have holds := h.transaction t open_
    cases failed : t.failed with
    | true => simpa [failed] using h.stepFailed holds c
    | false =>
      simp only [failed, Bool.false_eq_true, if_false]
      apply h.stepActive holds
      simpa [rejectsWrites, open_, failed] using respects

theorem closeImplicit (h : s.All P) : s.closeImplicit.All P := by
  unfold Session.closeImplicit
  split
  · exact h
  · rename_i t open_
    split
    · exact h.publish (h.transaction t open_).working
    · exact h

theorem openImplicit (h : s.All P) : s.openImplicit.All P := by
  unfold Session.openImplicit
  split
  · exact h.start false true
  · exact h

theorem script (h : s.All P) (block : Bool) {commands : List (Command D R)}
    (respects : ∀ c ∈ commands, c.Respects P) : (s.script block commands).2.All P := by
  induction commands generalizing s with
  | nil => exact h.closeImplicit
  | cons c rest ih =>
    have opened : (if block then s.openImplicit else s).All P := by
      cases block with
      | true => exact h.openImplicit
      | false => exact h
    have stepped := opened.step (.inr (respects c (List.mem_cons_self ..)))
    simp only [Session.script]
    rcases run : (if block then s.openImplicit else s).step c with ⟨e | r, s'⟩
    · rw [run] at stepped
      exact stepped
    · rw [run] at stepped
      exact ih stepped fun c' mem => respects c' (List.mem_cons_of_mem c mem)

theorem simple (h : s.All P) {parse : Parser D P' R} {text : String}
    (respects : ∀ commands, parse text [] = some commands → ∀ c ∈ commands, c.Respects P) :
    (s.simple parse text).2.All P := by
  unfold Session.simple
  split
  · exact h.fail
  · rename_i commands parsed
    exact h.script _ (respects commands parsed)

theorem extended (h : s.All P) {parse : Parser D P' R} {text : String} {params : List P'}
    (respects : s.rejectsWrites = true ∨ ∀ c, parse text params = some [c] → c.Respects P) :
    (s.extended parse text params).2.All P := by
  unfold Session.extended
  split
  · exact h.fail
  · exact h
  · rename_i c parsed
    exact h.step (respects.imp_right fun all => all c parsed)
  · exact h.fail

end All

end Session

def Command.stays : Command D R → Bool
  | .begin readOnly => readOnly ≠ some false
  | .commit _ => false
  | .rollback _ => false
  | .setTransaction readOnly => readOnly
  | _ => true

/-- An explicit read-only block, to no part of which writes can come back. -/
structure Transaction.ReadOnly (t : Transaction D) : Prop where
  explicit : t.implicit = false
  now : t.readOnly = true
  saved : ∀ p ∈ t.savepoints, p.readOnly = true

namespace Session

/-- The session is in a read-only block, and knows no other data than this. -/
structure ReadOnlyBlock (s : Session D) (d₀ : D) : Prop where
  all : s.All (· = d₀)
  block : ∃ t, s.transaction = some t ∧ t.ReadOnly

namespace ReadOnlyBlock

variable {P' : Type} {s : Session D} {t : Transaction D} {d₀ : D}

def In (s : Session D) : Prop := ∃ t, s.transaction = some t ∧ t.ReadOnly

theorem In.fail (inside : In s) : In s.fail := by
  obtain ⟨t, open_, holds⟩ := inside
  refine ⟨{ t with failed := true }, ?_, ⟨holds.explicit, holds.now, holds.saved⟩⟩
  simp [Session.fail, open_, holds.explicit, within]

theorem In.within (holds : t.ReadOnly) : In (s.within t) := ⟨t, rfl, holds⟩

theorem In.setMode (inside : In s) (holds : t.ReadOnly) :
    In (s.setMode t true : Except SqlError (Option R) × Session D).2 := by
  unfold Session.setMode
  split
  · exact inside.fail
  · exact .within ⟨holds.explicit, rfl, holds.saved⟩

theorem In.rollbackTo (inside : In s) (holds : t.ReadOnly) (name : String) :
    In (s.rollbackTo t name : Except SqlError (Option R) × Session D).2 := by
  have kept : ∀ p ∈ savepointsFrom name t, p.readOnly = true :=
    fun p mem => holds.saved p ((List.dropWhile_sublist _).subset mem)
  unfold Session.rollbackTo
  split
  · exact inside.fail
  · rename_i p earlier found
    rw [found] at kept
    exact .within ⟨holds.explicit, kept p List.mem_cons_self, kept⟩

theorem In.stepFailed (inside : In s) (holds : t.ReadOnly) {c : Command D R}
    (stays : c.stays = true) : In (s.stepFailed t c).2 := by
  cases c with
  | commit chain => cases stays
  | rollback chain => cases stays
  | rollbackTo name => exact inside.rollbackTo holds name
  | _ => exact inside

theorem In.stepActive (inside : In s) (holds : t.ReadOnly) {c : Command D R}
    (stays : c.stays = true) : In (s.stepActive t c).2 := by
  cases c with
  | begin readOnly =>
    have explicit : ({ t with implicit := false } : Transaction D).ReadOnly :=
      ⟨rfl, holds.now, holds.saved⟩
    cases readOnly with
    | none => exact .within explicit
    | some readOnly =>
      cases readOnly with
      | true => exact inside.setMode explicit
      | false => simp [Command.stays] at stays
  | commit chain => cases stays
  | rollback chain => cases stays
  | setTransaction readOnly =>
    obtain rfl : readOnly = true := stays
    exact inside.setMode holds
  | setLocal => exact inside
  | savepoint name =>
    simp only [Session.stepActive, holds.explicit, Bool.false_eq_true, if_false]
    exact .within ⟨rfl, holds.now, List.forall_mem_cons.mpr ⟨holds.now, holds.saved⟩⟩
  | rollbackTo name =>
    simp only [Session.stepActive, holds.explicit, Bool.false_eq_true, if_false]
    exact inside.rollbackTo holds name
  | release name =>
    have kept : ∀ p ∈ savepointsFrom name t, p.readOnly = true :=
      fun p mem => holds.saved p ((List.dropWhile_sublist _).subset mem)
    simp only [Session.stepActive]
    split
    · exact inside.fail
    · rename_i p earlier found
      rw [found] at kept
      exact .within ⟨holds.explicit, kept p List.mem_cons_self,
        fun q mem => kept q (List.mem_cons_of_mem p mem)⟩
  | read f =>
    simp only [Session.stepActive]
    split
    · exact inside.fail
    · exact .within ⟨holds.explicit, holds.now, holds.saved⟩
  | write f =>
    simp only [Session.stepActive, holds.now, if_true]
    exact inside.fail

theorem step (h : s.ReadOnlyBlock d₀) {c : Command D R} (stays : c.stays = true) :
    (s.step c).2.ReadOnlyBlock d₀ := by
  obtain ⟨t, open_, holds⟩ := h.block
  refine ⟨h.all.step (.inl (by simp [rejectsWrites, open_, holds.now])), ?_⟩
  have inside : In s := h.block
  unfold Session.step
  rw [open_]
  dsimp only
  split
  · exact inside.stepFailed holds stays
  · exact inside.stepActive holds stays

theorem fail (h : s.ReadOnlyBlock d₀) : s.fail.ReadOnlyBlock d₀ :=
  ⟨h.all.fail, In.fail h.block⟩

theorem extended (h : s.ReadOnlyBlock d₀) {parse : Parser D P' R} {text : String} {params : List P'}
    (stays : ∀ c, parse text params = some [c] → c.stays = true) :
    (s.extended parse text params).2.ReadOnlyBlock d₀ := by
  unfold Session.extended
  split
  · exact h.fail
  · exact h
  · rename_i c parsed
    exact h.step (stays c parsed)
  · exact h.fail

end ReadOnlyBlock

end Session

/-- What a command makes of the data, where it is run in a block that takes it. -/
def Command.effect : Command D R → D → Except SqlError D
  | .read f, d => (f d).map fun _ => d
  | .write f, d => (f d).map Prod.fst
  | _, d => .ok d

def effects (commands : List (Command D R)) (d : D) : Except SqlError D :=
  commands.foldlM (fun d c => c.effect d) d

/-- The command neither ends a block nor takes back what was done in it. -/
def Command.steady : Command D R → Bool
  | .commit _ => false
  | .rollback _ => false
  | .rollbackTo _ => false
  | _ => true

/-- An explicit block that has not failed. -/
structure Transaction.Open (t : Transaction D) : Prop where
  explicit : t.implicit = false
  active : t.failed = false

namespace Session

variable {s : Session D} {t : Transaction D}

/-- How commands go in an open block: they are done and it stays open, or it has failed. -/
def Goes (s : Session D) (t : Transaction D) (change : Except SqlError D)
    (outcome : Except SqlError (Option R) × Session D) : Prop :=
  (∃ r t', outcome = (.ok r, s.within t') ∧ t'.Open ∧ change = .ok t'.working) ∨
    ∃ e, outcome = (.error e, s.within { t with failed := true })

theorem fail_within (explicit : t.implicit = false) :
    (s.within t).fail = s.within { t with failed := true } := by
  simp [fail, within, explicit]

theorem setMode_goes (inside : t.Open) (readOnly : Bool) :
    s.Goes t (.ok t.working)
      ((s.within t).setMode t readOnly : Except SqlError (Option R) × Session D) := by
  unfold setMode
  split
  · exact .inr ⟨tooLate, by rw [fail_within inside.explicit]⟩
  · exact .inl ⟨none, { t with readOnly }, rfl, ⟨inside.explicit, inside.active⟩, rfl⟩

theorem step_goes (inside : t.Open) {c : Command D R} (steady : c.steady = true) :
    s.Goes t (c.effect t.working) ((s.within t).step c) := by
  have failed := fail_within (s := s) inside.explicit
  have run : (s.within t).step c = (s.within t).stepActive t c := by
    simp [step, within, inside.active]
  rw [run]
  cases c with
  | begin readOnly =>
    have same : { t with implicit := false } = t := by rw [← inside.explicit]
    cases readOnly with
    | none => exact .inl ⟨none, t, by simp [stepActive, same, within], inside, rfl⟩
    | some readOnly =>
      simp only [stepActive, same]
      exact setMode_goes inside readOnly
  | commit chain => simp [Command.steady] at steady
  | rollback chain => simp [Command.steady] at steady
  | rollbackTo name => simp [Command.steady] at steady
  | setTransaction readOnly => exact setMode_goes inside readOnly
  | setLocal => exact .inl ⟨none, t, rfl, inside, rfl⟩
  | savepoint name =>
    simp only [stepActive, inside.explicit, Bool.false_eq_true, if_false]
    exact .inl ⟨none, _, rfl, ⟨rfl, inside.active⟩, rfl⟩
  | release name =>
    simp only [stepActive]
    split
    · exact .inr ⟨_, by rw [failed]⟩
    · exact .inl ⟨none, _, rfl, ⟨inside.explicit, inside.active⟩, rfl⟩
  | read f =>
    simp only [stepActive, Command.effect]
    split
    · exact .inr ⟨_, by rw [failed]⟩
    · rename_i r done
      refine .inl ⟨some r, { t with started := true }, rfl, ⟨inside.explicit, inside.active⟩, ?_⟩
      rw [done]
      rfl
  | write f =>
    simp only [stepActive, Command.effect]
    split
    · exact .inr ⟨_, by rw [failed]⟩
    · split
      · exact .inr ⟨_, by rw [failed]⟩
      · rename_i d r done
        refine .inl ⟨some r, { t with working := d, started := true }, rfl,
          ⟨inside.explicit, inside.active⟩, ?_⟩
        rw [done]
        rfl

theorem step_begin (s : Session D) (idle : s.transaction = none) :
    s.step (.begin none : Command D R) =
      (.ok none, s.within (.start s.committed false false)) := by
  simp [step, idle, stepIdle]

theorem step_commit (s : Session D) (inside : t.Open) :
    (s.within t).step (.commit false : Command D R) = (.ok none, s.publish t.working) := by
  simp [step, within, inside.active, stepActive, afterBlock, publish]

theorem step_rollback (s : Session D) (t : Transaction D) :
    (s.within t).step (.rollback false : Command D R) = (.ok none, s.leave) := by
  cases failed : t.failed with
  | true => simp [step, within, failed, stepFailed, afterBlock, leave]
  | false => simp [step, within, failed, stepActive, afterBlock, leave]

def Fails (s : Session D) (outcome : Except SqlError (Option R) × Session D) : Prop :=
  ∃ e t, outcome = (.error e, s.within t) ∧ t.implicit = false

theorem script_goes (block : Bool) {commands : List (Command D R)} (inside : t.Open)
    (steady : ∀ c ∈ commands, c.steady = true) :
    (∃ r t', (s.within t).script block commands = (.ok r, s.within t') ∧ t'.Open ∧
      effects commands t.working = .ok t'.working) ∨
    s.Fails ((s.within t).script block commands) := by
  induction commands generalizing t with
  | nil =>
    refine .inl ⟨none, t, ?_, inside, rfl⟩
    simp [script, closeImplicit, within, inside.explicit]
  | cons c rest ih =>
    have open_ : (if block then (s.within t).openImplicit else s.within t) = s.within t := by
      cases block with
      | true => rfl
      | false => rfl
    simp only [script, open_]
    rcases step_goes (s := s) inside (steady c (List.mem_cons_self ..)) with
      ⟨r, t', run, inside', change⟩ | ⟨e, run⟩
    · simp only [run]
      have later := ih inside' fun c' mem => steady c' (List.mem_cons_of_mem c mem)
      apply later.imp_left
      rintro ⟨r', t'', run', inside'', change'⟩
      refine ⟨r', t'', run', inside'', ?_⟩
      unfold effects at change' ⊢
      rw [List.foldlM_cons, change]
      exact change'
    · simp only [run]
      exact .inr ⟨e, _, rfl, inside.explicit⟩

theorem simple_one {P : Type} {parse : Parser D P R} {text : String} {c : Command D R}
    (parsed : parse text [] = some [c]) {r : Option R} {s s' : Session D}
    (run : s.step c = (.ok r, s')) (closed : s'.closeImplicit = s') :
    s.simple parse text = (.ok none, s') := by
  simp [simple, parsed, script, run, closed]

theorem closeImplicit_leave (s : Session D) : s.leave.closeImplicit = s.leave := rfl

theorem closeImplicit_within (s : Session D) (explicit : t.implicit = false) :
    (s.within t).closeImplicit = s.within t := by
  simp [closeImplicit, within, explicit]

end Session

theorem effects_respects {P : D → Prop} {commands : List (Command D R)}
    (respects : ∀ c ∈ commands, c.Respects P) {d d' : D} (holds : P d)
    (done : effects commands d = .ok d') : P d' := by
  induction commands generalizing d with
  | nil =>
    obtain rfl := Except.ok.inj done
    exact holds
  | cons c rest ih =>
    unfold effects at done
    rw [List.foldlM_cons] at done
    cases first : c.effect d with
    | error e =>
      rw [first] at done
      cases done
    | ok d₁ =>
      rw [first] at done
      refine ih (fun c' mem => respects c' (List.mem_cons_of_mem c mem)) ?_ done
      have kept := respects c (List.mem_cons_self ..)
      cases c with
      | write f =>
        simp only [Command.effect] at first
        cases run : f d with
        | error e => simp [run, Except.map] at first
        | ok answer =>
          simp only [run, Except.map, Except.ok.injEq] at first
          subst first
          exact kept d answer.1 answer.2 holds run
      | read f =>
        simp only [Command.effect] at first
        cases run : f d with
        | error e => simp [run, Except.map] at first
        | ok r =>
          simp only [run, Except.map, Except.ok.injEq] at first
          exact first ▸ holds
      | _ =>
        obtain rfl := Except.ok.inj first
        exact holds

end SqlSession
