import OpenNtl.Ranking
import OpenNtl.Sampling

/-! # What the exploration flag says

Epsilon-greedy flags the pick that it substituted. Softmax flags every pick but the single best
candidate, also the picks that a greedy choice of as many would have taken.
-/
namespace OpenNtl

variable {F : Type} [Scalar F]

/-- A candidate with the higher score, or with the lower index where scores tie. -/
def Beats (scores : List F) (i j : ℕ) : Prop :=
  scores.getD j 0 < scores.getD i 0 ∨ (scores.getD j 0 ≤ scores.getD i 0 ∧ i < j)

instance Beats.decide (scores : List F) (i j : ℕ) : Decidable (Beats scores i j) :=
  inferInstanceAs (Decidable (_ ∨ _))

def AmongBest (scores : List F) (k i : ℕ) : Prop :=
  i < scores.length ∧ rank (Beats scores) (List.range scores.length) i < k

namespace OrderedOn

variable {P : F → Prop} {scores : List F}

theorem beats_asymm (order : OrderedOn P) {i j : ℕ} (hi : P (scores.getD i 0))
    (hj : P (scores.getD j 0)) (beats : Beats scores i j) : ¬ Beats scores j i := by
  rintro (lower | ⟨notHigher, after⟩)
  · have least := (order.lt_iff hi hj).mp lower
    rcases beats with higher | ⟨notLower, before⟩
    · exact least (order.le_of_lt hj hi higher)
    · exact least notLower
  · rcases beats with higher | ⟨notLower, before⟩
    · exact (order.lt_iff hj hi).mp higher notHigher
    · omega

theorem beats_iff (order : OrderedOn P) {i j : ℕ} (hi : P (scores.getD i 0))
    (hj : P (scores.getD j 0)) :
    (Scalar.partialCmp (scores.getD j 0) (scores.getD i 0)).then (compare i j) = .lt ↔
      Beats scores i j := by
  rw [Ordering.then_eq_lt, OrderedScalar.partialCmp_eq_lt, Nat.compare_eq_lt]
  constructor
  · rintro (higher | ⟨same, before⟩)
    · exact Or.inl higher
    · exact Or.inr ⟨(order.isLE_partialCmp hj hi).mp (by rw [same]; rfl), before⟩
  · rintro (higher | ⟨notLower, before⟩)
    · exact Or.inl higher
    · by_cases higher : scores.getD j 0 < scores.getD i 0
      · exact Or.inl higher
      · refine Or.inr ⟨?_, before⟩
        unfold Scalar.partialCmp
        rw [if_neg higher, if_neg fun lower => (order.lt_iff hi hj).mp lower notLower]

section Ranked

variable (order : OrderedOn P) (each : ∀ i < scores.length, P (scores.getD i 0))
include order each

theorem bestFirst_sorted : (bestFirst scores).Pairwise (Beats scores) := by
  let Ordered (i : ℕ) : Prop := P (scores.getD i 0)
  have lawful : Std.TransCmp fun a b : Subtype Ordered =>
      (Scalar.partialCmp (scores.getD b.1 0) (scores.getD a.1 0)).then (compare a.1 b.1) := by
    have score : Std.TransCmp fun a b : Subtype Ordered =>
        Scalar.partialCmp (scores.getD b.1 0) (scores.getD a.1 0) :=
      have := transCmp_on order.partialCmp_trans fun i : Subtype Ordered =>
        (⟨scores.getD i.1 0, i.2⟩ : Subtype P)
      Std.TransCmp.opposite
    have index : Std.TransCmp fun a b : Subtype Ordered => compare a.1 b.1 :=
      transCmp_on (inferInstance : Std.TransCmp fun a b : ℕ => compare a b) Subtype.val
    exact inferInstanceAs (Std.TransCmp (compareLex (fun a b : Subtype Ordered =>
      Scalar.partialCmp (scores.getD b.1 0) (scores.getD a.1 0)) fun a b => compare a.1 b.1))
  have small : ∀ i ∈ List.range scores.length, Ordered i :=
    fun i hi => each i (List.mem_range.mp hi)
  have sorted : (bestFirst scores).Pairwise fun a b =>
      (Scalar.partialCmp (scores.getD b 0) (scores.getD a 0)).then (compare a b) ≠ .gt :=
    sortBy_sorted_on lawful small
  refine (sorted.and (bestFirst_nodup scores)).imp_of_mem fun {a b} ha hb both => ?_
  apply (order.beats_iff (small a (mem_sortBy.mp ha)) (small b (mem_sortBy.mp hb))).mp
  cases first : (Scalar.partialCmp (scores.getD b 0) (scores.getD a 0)).then (compare a b) with
  | lt => rfl
  | eq => exact absurd (Nat.compare_eq_eq.mp (Ordering.then_eq_eq.mp first).2) both.2
  | gt => exact absurd first both.1

theorem amongBest_iff (k i : ℕ) : AmongBest scores k i ↔ i ∈ (bestFirst scores).take k := by
  have perm := bestFirst_perm scores
  have candidate : ∀ i, i < scores.length ↔ i ∈ bestFirst scores := by
    intro i
    rw [perm.mem_iff, List.mem_range]
  have asymm : ∀ a ∈ bestFirst scores, ∀ b ∈ bestFirst scores,
      Beats scores a b → ¬ Beats scores b a := by
    intro a ha b hb
    exact order.beats_asymm (each a ((candidate a).mpr ha)) (each b ((candidate b).mpr hb))
  have sorted := order.bestFirst_sorted each
  unfold AmongBest
  rw [candidate, ← rank_perm _ perm]
  constructor
  · rintro ⟨here, few⟩
    exact (mem_take_iff_rank _ asymm sorted here k).mpr few
  · intro taken
    have here := List.mem_of_mem_take taken
    exact ⟨here, (mem_take_iff_rank _ asymm sorted here k).mp taken⟩

end Ranked

end OrderedOn

section Order

variable [OrderedScalar F] (scores : List F)

theorem Beats.asymm {i j : ℕ} (beats : Beats scores i j) : ¬ Beats scores j i :=
  OrderedScalar.ordered.beats_asymm trivial trivial beats

theorem bestFirst_sorted : (bestFirst scores).Pairwise (Beats scores) :=
  OrderedScalar.ordered.bestFirst_sorted fun _ _ => trivial

theorem amongBest_iff (k i : ℕ) : AmongBest scores k i ↔ i ∈ (bestFirst scores).take k :=
  OrderedScalar.ordered.amongBest_iff (fun _ _ => trivial) k i

end Order

variable [OrderedScalar F] (scores : List F) (k : ℕ) (config : LearningConfig F) (rng : Rng)

section Draws

end Draws

end OpenNtl
