import Mathlib.Data.Multiset.DershowitzManna
import Mathlib.Logic.Relation

/-! # Things that give way to their children

A multiset changes one element at a time: an element goes, and any number of its children take its
place. What children inherit, every later element has; and where children rank below their
parents, only finitely much can happen.
-/
namespace Descent

variable {α β : Type} {child : α → α → Prop}

/-- One element gives way to children of its own. -/
inductive Replaces (child : α → α → Prop) : Multiset α → Multiset α → Prop
  | replace {c : α} {cs K : Multiset α} (children : ∀ c' ∈ cs, child c' c) :
      Replaces child (c ::ₘ K) (cs + K)

def Evolves (child : α → α → Prop) : Multiset α → Multiset α → Prop :=
  Relation.ReflTransGen (Replaces child)

theorem Replaces.add_right {M N : Multiset α} (step : Replaces child M N) (K : Multiset α) :
    Replaces child (M + K) (N + K) := by
  obtain ⟨children⟩ := step
  rw [Multiset.cons_add, add_assoc]
  exact .replace children

namespace Evolves

variable {M N K : Multiset α}

theorem refl (M : Multiset α) : Evolves child M M := Relation.ReflTransGen.refl

theorem trans {L : Multiset α} (first : Evolves child L M) (next : Evolves child M N) :
    Evolves child L N := Relation.ReflTransGen.trans first next

theorem add_right (step : Evolves child M N) (K : Multiset α) :
    Evolves child (M + K) (N + K) := by
  induction step with
  | refl => exact refl _
  | tail _ last ih => exact ih.tail (last.add_right K)

theorem of_le (less : N ≤ M) : Evolves child M N := by
  obtain ⟨D, rfl⟩ := Multiset.le_iff_exists_add.mp less
  induction D using Multiset.induction_on with
  | empty =>
    rw [add_zero]
    exact refl N
  | cons c D ih =>
    have drop : Replaces child (c ::ₘ (N + D)) (0 + (N + D)) :=
      .replace fun c' none => absurd none (Multiset.notMem_zero c')
    rw [Multiset.add_cons]
    rw [zero_add] at drop
    exact (Relation.ReflTransGen.single drop).trans (ih (Multiset.le_add_right N D))

theorem of_children {c : α} {cs : Multiset α} (children : ∀ c' ∈ cs, child c' c) :
    Evolves child {c} cs := by
  have step : Replaces child (c ::ₘ 0) (cs + 0) := .replace children
  rw [add_zero] at step
  exact .single step

theorem inherits {P : α → Prop} (passes : ∀ c c', P c → child c' c → P c')
    (step : Evolves child M N) (holds : ∀ c ∈ M, P c) : ∀ c ∈ N, P c := by
  induction step with
  | refl => exact holds
  | tail _ last ih =>
    obtain ⟨children⟩ := last
    intro c' here
    rcases Multiset.mem_add.mp here with born | kept
    · exact passes _ c' (ih _ (Multiset.mem_cons_self _ _)) (children c' born)
    · exact ih c' (Multiset.mem_cons_of_mem kept)

end Evolves

section Labels

variable {τ : Type}

def Labelled (child : α → α → Prop) (c' c : α × τ) : Prop := child c'.1 c.1 ∧ c'.2 = c.2

theorem Evolves.labelled {M N : Multiset α} (step : Evolves child M N) {L : Multiset (α × τ)}
    (labels : L.map Prod.fst = M) :
    ∃ L', L'.map Prod.fst = N ∧ Evolves (Labelled child) L L' := by
  induction step with
  | refl => exact ⟨L, labels, Evolves.refl L⟩
  | tail _ last ih =>
    obtain ⟨L₁, labels₁, before⟩ := ih
    obtain @⟨c, cs, K, children⟩ := last
    obtain ⟨⟨c', k⟩, inside, same⟩ := Multiset.mem_map.mp
      (labels₁.symm ▸ Multiset.mem_cons_self c K)
    obtain rfl : c' = c := same
    obtain ⟨K', rfl⟩ := Multiset.exists_cons_of_mem inside
    rw [Multiset.map_cons, Multiset.cons_inj_right] at labels₁
    refine ⟨cs.map (fun b => (b, k)) + K', ?_, before.tail (.replace fun b born => ?_)⟩
    · rw [Multiset.map_add, labels₁, Multiset.map_map]
      exact congrArg (· + K) (Multiset.map_id cs)
    · obtain ⟨a, here, rfl⟩ := Multiset.mem_map.mp born
      exact ⟨children a here, rfl⟩

end Labels

section Ranks

variable [Preorder β]

def ranks (rank : α → β) (counts : α → Prop) [DecidablePred counts] (M : Multiset α) :
    Multiset β := (M.filter counts).map rank

/-- Children rank below their parents, and count only if these do. -/
structure Lowers (child : α → α → Prop) (rank : α → β) (counts : α → Prop) : Prop where
  lower : ∀ c c', counts c → child c' c → rank c' < rank c
  counts : ∀ c c', child c' c → counts c' → counts c

variable {rank : α → β} {counts : α → Prop} [DecidablePred counts] {M N : Multiset α}

theorem ranks_lt_of_replaced {c : α} {cs K : Multiset α} (lowers : Lowers child rank counts)
    (here : counts c) (children : ∀ c' ∈ cs, child c' c) :
    (ranks rank counts (cs + K)).IsDershowitzMannaLT (ranks rank counts (c ::ₘ K)) := by
  refine ⟨ranks rank counts K, ranks rank counts cs, {rank c}, by simp, ?_, ?_, ?_⟩
  · unfold ranks
    rw [Multiset.filter_add, Multiset.map_add, add_comm]
  · unfold ranks
    rw [Multiset.filter_cons_of_pos _ here, Multiset.map_cons, ← Multiset.singleton_add, add_comm]
  · intro r low
    obtain ⟨c', kept, rfl⟩ := Multiset.mem_map.mp low
    exact ⟨rank c, Multiset.mem_singleton_self _,
      lowers.lower c c' here (children c' (Multiset.mem_filter.mp kept).1)⟩

theorem ranks_replaced {M N : Multiset α} (lowers : Lowers child rank counts)
    (step : Replaces child M N) :
    ranks rank counts N = ranks rank counts M ∨
      (ranks rank counts N).IsDershowitzMannaLT (ranks rank counts M) := by
  obtain @⟨c, cs, K, children⟩ := step
  by_cases here : counts c
  · exact Or.inr (ranks_lt_of_replaced lowers here children)
  · have none : cs.filter counts = 0 := by
      refine Multiset.filter_eq_nil.mpr fun c' born counted => ?_
      exact here (lowers.counts c c' (children c' born) counted)
    refine Or.inl ?_
    unfold ranks
    rw [Multiset.filter_add, none, zero_add, Multiset.filter_cons_of_neg _ here]

theorem ranks_evolved {M N : Multiset α} (lowers : Lowers child rank counts)
    (step : Evolves child M N) :
    ranks rank counts N = ranks rank counts M ∨
      (ranks rank counts N).IsDershowitzMannaLT (ranks rank counts M) := by
  induction step with
  | refl => exact Or.inl rfl
  | tail _ last ih =>
    rcases ranks_replaced lowers last with same | less
    · rw [same]
      exact ih
    · rcases ih with same | before
      · rw [same] at less
        exact Or.inr less
      · exact Or.inr (less.trans before)

theorem Lowers.label {τ : Type} [DecidableEq τ] (lower : ∀ c c', child c' c → rank c' < rank c)
    (k : τ) : Lowers (Labelled child) (fun c : α × τ => rank c.1) fun c => c.2 = k where
  lower _ _ _ born := lower _ _ born.1
  counts _ _ born here := born.2 ▸ here

end Ranks

theorem exists_sequence {I : ℕ → α → Prop} {R : ℕ → α → α → Prop} {a : α} (start : I 0 a)
    (next : ∀ n a, I n a → ∃ b, I (n + 1) b ∧ R n a b) :
    ∃ f : ℕ → α, f 0 = a ∧ ∀ n, I n (f n) ∧ R n (f n) (f (n + 1)) := by
  choose g holds steps using next
  let chain : ∀ n, {b // I n b} := fun n =>
    Nat.rec ⟨a, start⟩ (fun n b => ⟨g n b.1 b.2, holds n b.1 b.2⟩) n
  exact ⟨fun n => (chain n).1, rfl, fun n => ⟨(chain n).2, steps n _ _⟩⟩

/-- A count that only grows when something well founded gets less grows only finitely often. -/
theorem bounded_of_running_down {μ : Type} (Left : ℕ → μ → Prop) {less : μ → μ → Prop}
    (wf : WellFounded less) {count : ℕ → ℕ} (grows : Monotone count) {start : ℕ}
    (next : ∀ n, start ≤ n → ∀ m, Left n m →
      ∃ m', Left (n + 1) m' ∧ (m' = m ∧ count (n + 1) = count n ∨ less m' m))
    {m : μ} (left : Left start m) : ∃ bound, ∀ n, count n ≤ bound := by
  have main : ∀ m n, start ≤ n → Left n m → ∃ bound, ∀ k, count k ≤ bound := by
    intro m
    induction m using wf.induction with
    | _ m ih =>
      intro n later left
      by_cases drops : ∃ k m', n ≤ k ∧ Left k m' ∧ less m' m
      · obtain ⟨k, m', after, left', lower⟩ := drops
        exact ih m' lower k (later.trans after) left'
      · -- Nothing gets less any more, so nothing is counted any more.
        have still : ∀ d, Left (n + d) m ∧ count (n + d) = count n := by
          intro d
          induction d with
          | zero => exact ⟨left, rfl⟩
          | succ d ihd =>
            obtain ⟨m', left', ⟨rfl, same⟩ | lower⟩ := next (n + d) (by omega) m ihd.1
            · exact ⟨left', same.trans ihd.2⟩
            · exact absurd ⟨n + d + 1, m', by omega, left', lower⟩ drops
        refine ⟨count n, fun k => ?_⟩
        by_cases after : n ≤ k
        · obtain ⟨d, rfl⟩ := Nat.exists_eq_add_of_le after
          exact (still d).2.le
        · exact grows (by omega)
  exact main m start le_rfl left

end Descent
