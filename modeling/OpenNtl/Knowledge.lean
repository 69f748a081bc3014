import OpenNtl.Interleaving
import Mathlib.Data.Set.Lattice

/-! # What tasks come to know

Facts about the shared state that stay true once they are true. A task may rely on a fact it has
come to know for the rest of its program, whatever the other tasks do in between.
-/
namespace AtomicProgram

variable {ι σ τ ε α β κ : Type}

namespace Prog

/-- What one step of a task that knows `l` may do: if these are facts, the invariant holds
afterwards, no fact is lost, and what the task then knows are facts, too. -/
def Informs (J : σ → Prop) (facts : σ → Set κ) (l : Set κ) (s : σ) (l' : Set κ) (s' : σ) : Prop :=
  l ⊆ facts s → J s' ∧ facts s ⊆ facts s' ∧ l' ⊆ facts s'

/-- A task that knows `need` may run the program. `R` holds of its answer, after which the task
knows `gain`, too. -/
def Gathers (J : σ → Prop) (facts : σ → Set κ) (need : Set κ) (p : Prog σ ε α) (R : α → Prop)
    (gain : α → Set κ) : Prop :=
  ∀ l, need ⊆ l → p.ObeysUnder J (Informs J facts) (fun _ => True)
    (fun a l' => R a ∧ l ⊆ l' ∧ gain a ⊆ l') l

namespace Gathers

variable {J : σ → Prop} {facts : σ → Set κ} {need : Set κ} {R : α → Prop} {gain : α → Set κ}
  {S : β → Prop} {gain' : β → Set κ}

theorem pure {a : α} (holds : R a) (known : gain a ⊆ need) :
    (Pure.pure a : Prog σ ε α).Gathers J facts need R gain :=
  fun _ enough => ⟨holds, subset_rfl, known.trans enough⟩

theorem throw (e : ε) : (Prog.throw e : Prog σ ε α).Gathers J facts need R gain :=
  fun _ _ => trivial

theorem bind {p : Prog σ ε α} {f : α → Prog σ ε β} (hp : p.Gathers J facts need R gain)
    (hf : ∀ a, R a → (f a).Gathers J facts (need ∪ gain a) S gain') :
    (p >>= f).Gathers J facts need S gain' := by
  intro l enough
  refine (hp l enough).bind fun a l' known => ?_
  obtain ⟨holds, kept, more⟩ := known
  refine (hf a holds l' (Set.union_subset (enough.trans kept) more)).mono fun b l'' later => ?_
  exact ⟨later.1, kept.trans later.2.1, later.2.2⟩

theorem act {f : σ → α × σ} (h : ∀ s, J s → R (f s).1 ∧ (need ⊆ facts s →
      J (f s).2 ∧ facts s ⊆ facts (f s).2 ∧ gain (f s).1 ⊆ facts (f s).2)) :
    (Prog.act f : Prog σ ε α).Gathers J facts need R gain := by
  intro l enough
  refine ObeysUnder.of_act fun s holds => ?_
  obtain ⟨answer, step⟩ := h s holds
  refine ⟨l ∪ gain (f s).1, fun known => ?_, answer, Set.subset_union_left,
    Set.subset_union_right⟩
  obtain ⟨holds', kept, more⟩ := step (enough.trans known)
  exact ⟨holds', kept, Set.union_subset (known.trans kept) more⟩

theorem mono {R' : α → Prop} {need' : Set κ} {gain' : α → Set κ} {p : Prog σ ε α}
    (hp : p.Gathers J facts need R gain) (more : need ⊆ need') (sub : ∀ a, R a → R' a)
    (less : ∀ a, R a → gain' a ⊆ need' ∪ gain a) : p.Gathers J facts need' R' gain' := by
  intro l enough
  refine (hp l (more.trans enough)).mono fun a l' known => ⟨sub a known.1, known.2.1, ?_⟩
  exact (less a known.1).trans (Set.union_subset (enough.trans known.2.1) known.2.2)

theorem before {p : Prog σ ε α} {f : α → Prog σ ε β} (hp : p.Gathers J facts ∅ R fun _ => ∅)
    (hf : ∀ a, R a → (f a).Gathers J facts need S gain') :
    (p >>= f).Gathers J facts need S gain' := by
  have later : p.Gathers J facts need R fun _ => ∅ :=
    hp.mono (Set.empty_subset need) (fun _ holds => holds) fun _ _ => Set.empty_subset _
  refine later.bind fun a holds => ?_
  rw [Set.union_empty]
  exact hf a holds

end Gathers

theorem focus_bind {get : τ → σ} {put : τ → σ → τ} (p : Prog σ ε α) (f : α → Prog σ ε β) :
    (p >>= f).focus get put = p.focus get put >>= fun a => (f a).focus get put := by
  induction p with
  | pure a => rfl
  | throw e => rfl
  | step act k ih => exact congrArg (Prog.step _) (funext fun b => ih b)

end Prog

/-- What every program that starts out knowing nothing keeps, and everything else, every run
keeps. -/
theorem Pool.Run.gathers [DecidableEq ι] {menu : ι → Prog σ ε α → Prop}
    {outside clean : σ → σ → Prop} {J : σ → Prop} {facts : σ → Set κ}
    (programs : ∀ i p, menu i p → p.Gathers J facts ∅ (fun _ => True) fun _ => ∅)
    (changes : ∀ s s', J s → outside s s' → J s' ∧ facts s ⊆ facts s') {P₀ P : Pool ι σ ε α}
    (init : J P₀.state) (quiet : P₀.Quiescent) (run : Run menu outside clean P₀ P) :
    J P.state := by
  have keeps : InductiveUnder menu outside clean J (Prog.Informs J facts) (fun _ => True)
      (fun h s => J s ∧ ∀ i, h i ⊆ facts s) := {
    within := fun _ _ holds => holds.1
    obeys := fun i p offered l _ => (programs i p offered l (Set.empty_subset l)).mono
      fun _ _ _ => trivial
    moves := fun h i l s s' holds informs _ => by
      obtain ⟨holds', kept, known⟩ := informs (holds.2 i)
      refine ⟨holds', fun j => ?_⟩
      by_cases same : j = i
      · subst same
        rw [Function.update_self]
        exact known
      · rw [Function.update_of_ne same]
        exact (holds.2 j).trans kept
    changes := fun h s s' holds change _ => by
      obtain ⟨holds', kept⟩ := changes s s' holds.1 change
      exact ⟨holds', fun i => (holds.2 i).trans kept⟩ }
  have start : J P₀.state ∧ ∀ i, (fun _ : ι => (∅ : Set κ)) i ⊆ facts P₀.state :=
    ⟨init, fun _ => Set.empty_subset _⟩
  obtain ⟨_, holds, _⟩ := run.invariantUnder keeps start quiet fun _ => trivial
  exact holds.1

end AtomicProgram
