import OpenNtl.Interleaving
import Mathlib.Algebra.BigOperators.Group.Finset.Piecewise
import Mathlib.Algebra.GroupWithZero.Nat

/-! # Credit

A state tells how much has been issued and how much of it is used up. Tasks hold credit for what
is neither: no step uses up more than the task has in hand or the step itself issues, so what is
used never exceeds what is issued, however the tasks interleave.
-/
namespace AtomicProgram

variable {ι σ ε α β γ : Type}

structure Account (σ : Type) where
  issued : σ → ℕ
  used : σ → ℕ

/-- What one step may do to the credit in hand, if it is between states that `ok` allows. -/
def Account.Covers (c : Account σ) (J : σ → Prop) (ok : σ → σ → Prop) (l : ℕ) (s : σ) (l' : ℕ)
    (s' : σ) : Prop :=
  ok s s' → J s' ∧ l' + c.used s' + c.issued s ≤ l + c.used s + c.issued s'

namespace Prog

/-- A task that holds credit `need` may run the program. `R` holds of its answer, which leaves
the task with credit `gain`. Any credit beyond `need` is kept. -/
def Affords (c : Account σ) (J : σ → Prop) (ok : σ → σ → Prop) (need : ℕ) (p : Prog σ ε α)
    (R : α → Prop) (gain : α → ℕ) : Prop :=
  ∀ k l, need + k ≤ l →
    p.ObeysUnder J (c.Covers J ok) (fun _ => True) (fun a l' => R a ∧ gain a + k ≤ l') l

namespace Affords

variable {c : Account σ} {J : σ → Prop} {ok : σ → σ → Prop} {need : ℕ} {R : α → Prop}
  {gain : α → ℕ} {S : β → Prop} {gain' : β → ℕ}

theorem pure {a : α} (holds : R a) (enough : gain a ≤ need) :
    (Pure.pure a : Prog σ ε α).Affords c J ok need R gain :=
  fun k _ more => ⟨holds, le_trans (Nat.add_le_add_right enough k) more⟩

theorem throw (e : ε) : (Prog.throw e : Prog σ ε α).Affords c J ok need R gain :=
  fun _ _ _ => trivial

theorem bind {p : Prog σ ε α} {f : α → Prog σ ε β} (hp : p.Affords c J ok need R gain)
    (hf : ∀ a, R a → (f a).Affords c J ok (gain a) S gain') :
    (p >>= f).Affords c J ok need S gain' :=
  fun k l enough => (hp k l enough).bind fun a l' left => hf a left.1 k l' left.2

theorem act {f : σ → α × σ} (h : ∀ s, J s → R (f s).1 ∧ (ok s (f s).2 → J (f s).2 ∧
      gain (f s).1 + c.used (f s).2 + c.issued s ≤ need + c.used s + c.issued (f s).2)) :
    (Prog.act f : Prog σ ε α).Affords c J ok need R gain := by
  intro k l enough
  refine ObeysUnder.of_act fun s holds => ?_
  obtain ⟨answer, step⟩ := h s holds
  refine ⟨gain (f s).1 + (l - need), fun allowed => ?_, answer, by omega⟩
  obtain ⟨holds', covered⟩ := step allowed
  exact ⟨holds', by omega⟩

theorem frame {p : Prog σ ε α} (hp : p.Affords c J ok need R gain) (more : ℕ) :
    p.Affords c J ok (need + more) R fun a => gain a + more := by
  intro k l enough
  refine (hp (more + k) l (by omega)).mono fun a l' left => ⟨left.1, ?_⟩
  have left' : gain a + (more + k) ≤ l' := left.2
  calc gain a + more + k = gain a + (more + k) := Nat.add_assoc _ _ _
    _ ≤ l' := left'

theorem mono {need' : ℕ} {R' : α → Prop} {gain' : α → ℕ} {p : Prog σ ε α}
    (hp : p.Affords c J ok need R gain) (more : need ≤ need') (sub : ∀ a, R a → R' a)
    (less : ∀ a, R a → gain' a ≤ gain a) : p.Affords c J ok need' R' gain' := by
  intro k l enough
  refine (hp k l (by omega)).mono fun a l' left => ⟨sub a left.1, ?_⟩
  exact le_trans (Nat.add_le_add_right (less a left.1) k) left.2

theorem before {p : Prog σ ε α} {f : α → Prog σ ε β} (hp : p.Affords c J ok 0 R fun _ => 0)
    (hf : ∀ a, R a → (f a).Affords c J ok need S gain') :
    (p >>= f).Affords c J ok need S gain' := by
  refine ((hp.frame need).mono (Nat.zero_add need).le (fun _ holds => holds)
    fun _ _ => le_rfl).bind fun a holds => ?_
  exact (hf a holds).mono (Nat.zero_add need).ge (fun _ known => known) fun _ _ => le_rfl

theorem forM {f : γ → Prog σ ε PUnit} {xs : List γ} (cost : γ → ℕ)
    (body : ∀ x ∈ xs, (f x).Affords c J ok (cost x) (fun _ => True) fun _ => 0) :
    (xs.forM f).Affords c J ok (xs.map cost).sum (fun _ => True) fun _ => 0 := by
  induction xs with
  | nil => exact pure trivial le_rfl
  | cons x xs ih =>
    rw [List.map_cons, List.sum_cons]
    refine ((body x List.mem_cons_self).frame (xs.map cost).sum).bind fun _ _ => ?_
    rw [Nat.zero_add]
    exact ih fun y later => body y (List.mem_cons_of_mem x later)

theorem optional {f : γ → Prog σ ε PUnit} {o : Option γ}
    (body : ∀ x, o = some x → (f x).Affords c J ok 0 (fun _ => True) fun _ => 0) :
    (o.forM f).Affords c J ok 0 (fun _ => True) fun _ => 0 := by
  cases o with
  | none => exact pure trivial le_rfl
  | some x => exact body x rfl

end Affords
end Prog

namespace Account

variable [DecidableEq ι] {c : Account σ}

/-- The credit that some tasks hold, all the others having none, is covered. -/
def Balanced (c : Account σ) (s₀ : σ) (h : ι → ℕ) (s : σ) : Prop :=
  ∃ tasks : Finset ι, (∀ i ∉ tasks, h i = 0) ∧
    (∑ i ∈ tasks, h i) + c.used s + c.issued s₀ ≤ c.used s₀ + c.issued s

theorem Balanced.covers {s₀ s s' : σ} {h : ι → ℕ} {i : ι} {l : ℕ} (balanced : c.Balanced s₀ h s)
    (covered : l + c.used s' + c.issued s ≤ h i + c.used s + c.issued s') :
    c.Balanced s₀ (Function.update h i l) s' := by
  obtain ⟨tasks, none, total⟩ := balanced
  refine ⟨insert i tasks, fun j outside => ?_, ?_⟩
  · obtain ⟨other, elsewhere⟩ := not_or.mp (Finset.mem_insert.not.mp outside)
    rw [Function.update_of_ne other]
    exact none j elsewhere
  · have here : i ∈ insert i tasks := Finset.mem_insert_self i tasks
    have after := Finset.sum_update_of_mem here h l
    have before := Finset.sum_update_of_mem here h (h i)
    rw [Function.update_eq_self, Finset.sum_insert_of_eq_zero_if_notMem (none i)] at before
    omega

end Account

/-- If every program can be afforded without credit, and nothing else uses any up, then what a run
has used is covered by what it has issued. -/
theorem Pool.Run.affords [DecidableEq ι] {menu : ι → Prog σ ε α → Prop}
    {outside ok : σ → σ → Prop} (c : Account σ) {J : σ → Prop}
    (programs : ∀ i p, menu i p → p.Affords c J ok 0 (fun _ => True) fun _ => 0)
    (changes : ∀ s s', J s → outside s s' → ok s s' →
      J s' ∧ c.used s' + c.issued s ≤ c.used s + c.issued s')
    {P₀ P : Pool ι σ ε α} (init : J P₀.state) (quiet : P₀.Quiescent)
    (run : Run menu outside ok P₀ P) :
    J P.state ∧ c.used P.state + c.issued P₀.state ≤ c.used P₀.state + c.issued P.state := by
  have keeps : InductiveUnder menu outside ok J (c.Covers J ok) (fun _ => True)
      (fun (h : ι → ℕ) s => J s ∧ c.Balanced P₀.state h s) := {
    within := fun _ _ holds => holds.1
    obeys := fun i p offered l _ => (programs i p offered l l (Nat.zero_add l).le).mono
      fun _ _ _ => trivial
    moves := fun h i l s s' holds covers condition => by
      obtain ⟨holds', covered⟩ := covers condition
      exact ⟨holds', holds.2.covers covered⟩
    changes := fun h s s' holds change condition => by
      obtain ⟨holds', covered⟩ := changes s s' holds.1 change condition
      obtain ⟨tasks, none, total⟩ := holds.2
      exact ⟨holds', tasks, none, by omega⟩ }
  have start : c.Balanced P₀.state (fun _ : ι => 0) P₀.state :=
    ⟨∅, fun _ _ => rfl, by rw [Finset.sum_empty]; omega⟩
  obtain ⟨h, ⟨holds, tasks, -, total⟩, -⟩ :=
    run.invariantUnder keeps ⟨init, start⟩ quiet fun _ => trivial
  exact ⟨holds, by omega⟩

end AtomicProgram
