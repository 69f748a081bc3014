import Mathlib.Logic.Relation
import Mathlib.Tactic.Common

/-! # Programs made of atomic steps

A program is a tree of atomic actions on a shared state. It can be run alone, or handed to
a scheduler one step at a time, so the same definition serves sequential reasoning and
reasoning about every interleaving. A thrown error keeps the effects of the earlier steps.
-/
namespace AtomicProgram

/-- `step act k` performs `act` indivisibly and goes on with the answer. -/
inductive Prog (σ ε : Type) (α : Type) : Type 1 where
  | pure (a : α)
  | throw (e : ε)
  | step {β : Type} (act : σ → β × σ) (k : β → Prog σ ε α)

variable {σ ε α β γ : Type}

namespace Prog

def bind : Prog σ ε α → (α → Prog σ ε β) → Prog σ ε β
  | .pure a, f => f a
  | .throw e, _ => .throw e
  | .step act k, f => .step act fun b => (k b).bind f

instance : Monad (Prog σ ε) where
  pure := .pure
  bind := .bind

def act (f : σ → α × σ) : Prog σ ε α := .step f .pure

def read (f : σ → α) : Prog σ ε α := act fun s => (f s, s)

def modify (f : σ → σ) : Prog σ ε Unit := act fun s => ((), f s)

def ofExcept : Except ε α → Prog σ ε α
  | .ok a => .pure a
  | .error e => .throw e

def run : Prog σ ε α → σ → Except ε α × σ
  | .pure a, s => (.ok a, s)
  | .throw e, s => (.error e, s)
  | .step act k, s => (k (act s).1).run (act s).2

@[simp] theorem pure_eq (a : α) : (Prog.pure a : Prog σ ε α) = Pure.pure a := rfl

@[simp] theorem throw_bind (e : ε) (f : α → Prog σ ε β) : (Prog.throw e >>= f) = .throw e := rfl

@[simp] theorem step_bind (a : σ → γ × σ) (k : γ → Prog σ ε α) (f : α → Prog σ ε β) :
    (Prog.step a k >>= f) = .step a fun c => k c >>= f := rfl

theorem bind_pure_right (p : Prog σ ε α) : p >>= Pure.pure = p := by
  induction p with
  | pure a => rfl
  | throw e => rfl
  | step a k ih =>
    rw [step_bind]
    exact congrArg (Prog.step a) (funext ih)

theorem bind_bind (p : Prog σ ε α) (f : α → Prog σ ε β) (g : β → Prog σ ε γ) :
    p >>= f >>= g = p >>= fun a => f a >>= g := by
  induction p with
  | pure a => rfl
  | throw e => rfl
  | step a k ih =>
    simp only [step_bind]
    exact congrArg (Prog.step a) (funext ih)

instance : LawfulMonad (Prog σ ε) :=
  LawfulMonad.mk' _ bind_pure_right (fun _ _ => rfl) bind_bind

@[simp] theorem run_pure (a : α) (s : σ) : (Pure.pure a : Prog σ ε α).run s = (.ok a, s) := rfl

@[simp] theorem run_throw (e : ε) (s : σ) :
    (Prog.throw e : Prog σ ε α).run s = (.error e, s) := rfl

@[simp] theorem run_step (a : σ → β × σ) (k : β → Prog σ ε α) (s : σ) :
    (Prog.step a k).run s = (k (a s).1).run (a s).2 := rfl

@[simp] theorem run_act (f : σ → α × σ) (s : σ) :
    (act f : Prog σ ε α).run s = (.ok (f s).1, (f s).2) := rfl

@[simp] theorem run_read (f : σ → α) (s : σ) : (read f : Prog σ ε α).run s = (.ok (f s), s) := rfl

@[simp] theorem run_modify (f : σ → σ) (s : σ) :
    (modify f : Prog σ ε Unit).run s = (.ok (), f s) := rfl

@[simp] theorem run_ofExcept (r : Except ε α) (s : σ) : (ofExcept r).run s = (r, s) := by
  cases r <;> rfl

theorem run_bind (p : Prog σ ε α) (f : α → Prog σ ε β) (s : σ) :
    (p >>= f).run s = match p.run s with
      | (.ok a, s') => (f a).run s'
      | (.error e, s') => (.error e, s') := by
  induction p generalizing s with
  | pure a => rfl
  | throw e => rfl
  | step a k ih => exact ih (a s).1 (a s).2

theorem run_map (f : α → β) (p : Prog σ ε α) (s : σ) :
    (f <$> p).run s = ((p.run s).1.map f, (p.run s).2) := by
  rw [← bind_pure_comp, run_bind]
  rcases p.run s with ⟨e | a, t⟩
  · rfl
  · rfl

theorem run_map_eq_error {f : α → β} {p : Prog σ ε α} {s s' : σ} {e : ε} :
    (f <$> p).run s = (.error e, s') ↔ p.run s = (.error e, s') := by
  rw [run_map]
  rcases p.run s with ⟨e' | a, t⟩
  · simp [Except.map]
  · simp [Except.map]

theorem run_bind_pure_snd (p : Prog σ ε α) (f : α → β) (s : σ) :
    ((p >>= fun a => Pure.pure (f a)).run s).2 = (p.run s).2 := by
  rw [bind_pure_comp, run_map]

theorem run_bind_eq_ok {p : Prog σ ε α} {f : α → Prog σ ε β} {s s' : σ} {b : β} :
    (p >>= f).run s = (.ok b, s') ↔
      ∃ a t, p.run s = (.ok a, t) ∧ (f a).run t = (.ok b, s') := by
  rw [run_bind]
  rcases h : p.run s with ⟨r, t⟩
  cases r with
  | ok a => simp
  | error e => simp

theorem run_bind_eq_error {p : Prog σ ε α} {f : α → Prog σ ε β} {s s' : σ} {e : ε} :
    (p >>= f).run s = (.error e, s') ↔
      p.run s = (.error e, s') ∨ ∃ a t, p.run s = (.ok a, t) ∧ (f a).run t = (.error e, s') := by
  rw [run_bind]
  rcases h : p.run s with ⟨r, t⟩
  cases r with
  | ok a => simp
  | error e' => simp

theorem run_bind_ok {p : Prog σ ε α} {f : α → Prog σ ε β} {s s' : σ} {a : α}
    (h : p.run s = (.ok a, s')) : (p >>= f).run s = (f a).run s' := by
  rw [run_bind, h]

theorem run_bind_error {p : Prog σ ε α} {f : α → Prog σ ε β} {s s' : σ} {e : ε}
    (h : p.run s = (.error e, s')) : (p >>= f).run s = (.error e, s') := by
  rw [run_bind, h]

theorem run_foldlM_error {f : β → α → Prog σ ε β} {xs : List α} {b : β} {s s' : σ} {e : ε}
    (h : (xs.foldlM f b).run s = (.error e, s')) :
    ∃ pre x post b' t, xs = pre ++ x :: post ∧ (pre.foldlM f b).run s = (.ok b', t) ∧
      (f b' x).run t = (.error e, s') := by
  induction xs generalizing b s with
  | nil => cases h
  | cons x xs ih =>
    rw [List.foldlM_cons] at h
    rcases run_bind_eq_error.mp h with first | ⟨b₁, t, first, later⟩
    · exact ⟨[], x, xs, b, s, rfl, rfl, first⟩
    · obtain ⟨pre, y, post, b', u, rfl, done, failed⟩ := ih later
      refine ⟨x :: pre, y, post, b', u, rfl, ?_, failed⟩
      rw [List.foldlM_cons, run_bind_ok first]
      exact done

def attempt : Prog σ ε α → Prog σ ε (Except ε α)
  | .pure a => .pure (.ok a)
  | .throw e => .pure (.error e)
  | .step act k => .step act fun b => (k b).attempt

@[simp] theorem attempt_pure (a : α) :
    (Pure.pure a : Prog σ ε α).attempt = Pure.pure (.ok a) := rfl

@[simp] theorem attempt_throw (e : ε) :
    (Prog.throw e : Prog σ ε α).attempt = Pure.pure (.error e) := rfl

theorem run_attempt (p : Prog σ ε α) (s : σ) : p.attempt.run s = (.ok (p.run s).1, (p.run s).2) := by
  induction p generalizing s with
  | pure a => rfl
  | throw e => rfl
  | step a k ih => exact ih (a s).1 (a s).2

def Within (R : σ → σ → Prop) : Prog σ ε α → Prop
  | .pure _ => True
  | .throw _ => True
  | .step act k => (∀ s, R s (act s).2) ∧ ∀ b, (k b).Within R

namespace Within

variable {R : σ → σ → Prop}

@[simp] theorem of_pure (a : α) : (Pure.pure a : Prog σ ε α).Within R := trivial

@[simp] theorem of_throw (e : ε) : (Prog.throw e : Prog σ ε α).Within R := trivial

theorem of_act {f : σ → α × σ} (h : ∀ s, R s (f s).2) : (act f : Prog σ ε α).Within R :=
  ⟨h, fun _ => trivial⟩

@[simp] theorem of_ofExcept (r : Except ε α) : (ofExcept r : Prog σ ε α).Within R := by
  cases r <;> trivial

theorem bind {p : Prog σ ε α} {f : α → Prog σ ε β} (hp : p.Within R) (hf : ∀ a, (f a).Within R) :
    (p >>= f).Within R := by
  induction p with
  | pure a => exact hf a
  | throw e => exact trivial
  | step act k ih => exact ⟨hp.1, fun b => ih b (hp.2 b)⟩

theorem attempt {p : Prog σ ε α} (hp : p.Within R) : p.attempt.Within R := by
  induction p with
  | pure a => exact trivial
  | throw e => exact trivial
  | step act k ih => exact ⟨hp.1, fun b => ih b (hp.2 b)⟩

theorem map {p : Prog σ ε α} (f : α → β) (hp : p.Within R) : (f <$> p).Within R := by
  rw [← bind_pure_comp]
  exact hp.bind fun a => of_pure (f a)

theorem mapM {f : α → Prog σ ε β} (hf : ∀ a, (f a).Within R) (xs : List α) :
    (xs.mapM f).Within R := by
  induction xs with
  | nil => exact of_pure []
  | cons x xs ih =>
    rw [List.mapM_cons]
    exact (hf x).bind fun y => ih.bind fun ys => of_pure (y :: ys)

theorem forM {f : α → Prog σ ε PUnit} (hf : ∀ a, (f a).Within R) (xs : List α) :
    (xs.forM f).Within R := by
  induction xs with
  | nil => exact of_pure _
  | cons x xs ih => exact (hf x).bind fun _ => ih

theorem foldlM {f : β → α → Prog σ ε β} (hf : ∀ b a, (f b a).Within R) (b : β) (xs : List α) :
    (xs.foldlM f b).Within R := by
  induction xs generalizing b with
  | nil => exact of_pure b
  | cons x xs ih => exact (hf b x).bind fun b' => ih b'

theorem mono {S : σ → σ → Prop} (sub : ∀ s t, R s t → S s t) {p : Prog σ ε α}
    (hp : p.Within R) : p.Within S := by
  induction p with
  | pure a => exact trivial
  | throw e => exact trivial
  | step act k ih => exact ⟨fun s => sub _ _ (hp.1 s), fun b => ih b (hp.2 b)⟩

theorem run (refl : ∀ s, R s s) (trans : ∀ {s t u}, R s t → R t u → R s u) {p : Prog σ ε α}
    (hp : p.Within R) (s : σ) : R s (p.run s).2 := by
  induction p generalizing s with
  | pure a => exact refl s
  | throw e => exact refl s
  | step act k ih => exact trans (hp.1 s) (ih (act s).1 (hp.2 _) (act s).2)

end Within

def Keeps (P : σ → Prop) (p : Prog σ ε α) : Prop := ∀ s, P s → P (p.run s).2

namespace Keeps

variable {P : σ → Prop}

theorem of_pure (a : α) : (Pure.pure a : Prog σ ε α).Keeps P := fun _ h => h

theorem of_throw (e : ε) : (Prog.throw e : Prog σ ε α).Keeps P := fun _ h => h

theorem of_act {f : σ → α × σ} (h : ∀ s, P s → P (f s).2) : (act f : Prog σ ε α).Keeps P := h

theorem attempt {p : Prog σ ε α} (hp : p.Keeps P) : p.attempt.Keeps P := by
  intro s h
  rw [run_attempt]
  exact hp s h

theorem of_ofExcept (r : Except ε α) : (ofExcept r : Prog σ ε α).Keeps P := by
  intro s h
  rw [run_ofExcept]
  exact h

theorem bind {p : Prog σ ε α} {f : α → Prog σ ε β} (hp : p.Keeps P) (hf : ∀ a, (f a).Keeps P) :
    (p >>= f).Keeps P := by
  intro s h
  have first := hp s h
  rw [run_bind]
  rcases run : p.run s with ⟨e | a, t⟩
  · rw [run] at first
    exact first
  · rw [run] at first
    exact hf a t first

theorem map {p : Prog σ ε α} (f : α → β) (hp : p.Keeps P) : (f <$> p).Keeps P := by
  rw [← bind_pure_comp]
  exact hp.bind fun a => of_pure (f a)

end Keeps

def next : Prog σ ε α → σ → Prog σ ε α × σ
  | .step act k, s => (k (act s).1, (act s).2)
  | p, s => (p, s)

/-- What is left of a program that was stopped after so many steps, and the state then. -/
def after : ℕ → Prog σ ε α → σ → Prog σ ε α × σ
  | 0, p, s => (p, s)
  | n + 1, p, s => after n (p.next s).1 (p.next s).2

theorem after_keeps {I : Prog σ ε α → σ → Prop}
    (keeps : ∀ p s, I p s → I (p.next s).1 (p.next s).2) {p : Prog σ ε α} {s : σ} (start : I p s)
    (n : ℕ) : I (after n p s).1 (after n p s).2 := by
  induction n generalizing p s with
  | zero => exact start
  | succ n ih => exact ih (keeps p s start)

theorem run_keeps {I : Prog σ ε α → σ → Prop}
    (keeps : ∀ p s, I p s → I (p.next s).1 (p.next s).2) {p : Prog σ ε α} {s : σ}
    (start : I p s) : I (ofExcept (p.run s).1) (p.run s).2 := by
  induction p generalizing s with
  | pure a => exact start
  | throw e => exact start
  | step act k ih => exact ih _ (keeps _ s start)

end Prog
end AtomicProgram
