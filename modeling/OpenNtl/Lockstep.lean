import OpenNtl.AtomicProgram
import Mathlib.Data.List.Forall2

/-! # Two programs in lockstep

Two runs match when they end the same way, with related answers and related states. Matching
is proved along the structure of the programs.
-/
namespace AtomicProgram

variable {σ τ ε α β γ δ κ μ : Type}

inductive Matched (R : σ → τ → Prop) (Q : α → β → Prop) :
    Except ε α × σ → Except ε β × τ → Prop
  | ok {a : α} {b : β} {s : σ} {t : τ} (answers : Q a b) (states : R s t) :
      Matched R Q (.ok a, s) (.ok b, t)
  | error {e : ε} {s : σ} {t : τ} (states : R s t) : Matched R Q (.error e, s) (.error e, t)

namespace Matched

variable {R : σ → τ → Prop} {Q : α → β → Prop} {Q' : γ → δ → Prop}

theorem states {x : Except ε α × σ} {y : Except ε β × τ} (h : Matched R Q x y) : R x.2 y.2 := by
  cases h with
  | ok answers states => exact states
  | error states => exact states

theorem mono {Q₁ : α → β → Prop} (sub : ∀ a b, Q a b → Q₁ a b) {x : Except ε α × σ}
    {y : Except ε β × τ} (h : Matched R Q x y) : Matched R Q₁ x y := by
  cases h with
  | ok answers states => exact .ok (sub _ _ answers) states
  | error states => exact .error states

theorem bind {p : Prog σ ε α} {q : Prog τ ε β} {f : α → Prog σ ε γ} {g : β → Prog τ ε δ} {s : σ}
    {t : τ} (first : Matched R Q (p.run s) (q.run t))
    (next : ∀ a b s' t', p.run s = (.ok a, s') → Q a b → R s' t' →
      Matched R Q' ((f a).run s') ((g b).run t')) :
    Matched R Q' ((p >>= f).run s) ((q >>= g).run t) := by
  rw [Prog.run_bind, Prog.run_bind]
  rcases left : p.run s with ⟨r, s'⟩
  rcases right : q.run t with ⟨r', t'⟩
  rw [left, right] at first
  cases first with
  | ok answers states => exact next _ _ _ _ left answers states
  | error states => exact .error states

theorem map {p : Prog σ ε α} {q : Prog τ ε β} {f : α → γ} {g : β → δ} {s : σ} {t : τ}
    (first : Matched R Q (p.run s) (q.run t)) (answers : ∀ a b, Q a b → Q' (f a) (g b)) :
    Matched R Q' ((f <$> p).run s) ((g <$> q).run t) := by
  rw [Prog.run_map, Prog.run_map]
  generalize p.run s = left at first ⊢
  generalize q.run t = right at first ⊢
  cases first with
  | ok related states => exact .ok (answers _ _ related) states
  | error states => exact .error states

theorem forM {S : κ → μ → Prop} {f : κ → Prog σ ε PUnit} {g : μ → Prog τ ε PUnit}
    (body : ∀ x y s t, S x y → R s t → Matched R (fun _ _ => True) ((f x).run s) ((g y).run t))
    {xs : List κ} {ys : List μ} (lists : List.Forall₂ S xs ys) {s : σ} {t : τ} (start : R s t) :
    Matched R (fun _ _ => True) ((xs.forM f).run s) ((ys.forM g).run t) := by
  induction lists generalizing s t with
  | nil => exact .ok trivial start
  | cons head tail ih =>
    exact (body _ _ s t head start).bind fun _ _ _ _ _ _ states => ih states

end Matched
end AtomicProgram
