import OpenNtl.CheckedSampling

/-! # Sampling is without replacement

Over any source, sampling fails no check. It returns different candidates, best score first, unless
a uniform draw rejects the rest of the source. -/
namespace OpenNtl

open StreamReader Drawing

variable {F : Type} [Scalar F]

instance AmongBest.decide (scores : List F) (k i : ℕ) : Decidable (AmongBest scores k i) :=
  inferInstanceAs (Decidable (_ ∧ _))

/-- `k` different candidates, or all where there are fewer, each with its own score. -/
structure WithoutReplacement (scores : List F) (k : ℕ) (policy : ExplorationPolicy F)
    (sels : List (Selection F)) : Prop where
  count : sels.length = min k scores.length
  distinct : (sels.map Selection.index).Nodup
  scored : ∀ sel ∈ sels, scores[sel.index]? = some sel.score
  descending : sels.Pairwise fun a b => b.score ≤ a.score
  /-- All but one of a greedy choice are among the best. -/
  exploits : ∀ epsilon, policy = .epsilonGreedy epsilon →
    min k scores.length - 1 ≤ sels.countP fun sel => AmongBest scores k sel.index

def fixedRng (values : List Word) (i : ℕ) : Word := values.getD (i % values.length) 0

section Greedy

variable {P : F → Prop} {scores : List F}

theorem GreedyPick.exploits (order : OrderedOn P) (each : ∀ i < scores.length, P (scores.getD i 0))
    {k : ℕ} {indices : List ℕ} {explored : Option ℕ}
    (picked : GreedyPick scores (min k scores.length) indices explored) :
    min k scores.length - 1 ≤ indices.countP fun i => AmongBest scores k i := by
  let best := (bestFirst scores).take (min k scores.length)
  have whole : (bestFirst scores).take k = best := by
    rw [List.take_eq_take_min, length_bestFirst]
  have length : best.length = min k scores.length := by
    rw [List.length_take, length_bestFirst, min_eq_left (min_le_right _ _)]
  have all : best.countP (fun i => AmongBest scores k i) = min k scores.length := by
    rw [← length, List.countP_eq_length]
    intro i hi
    rw [decide_eq_true_eq, order.amongBest_iff each, whole]
    exact hi
  cases picked with
  | greedy => exact (Nat.sub_le _ _).trans all.ge
  | @substituted pick rest =>
    by_cases slot : min k scores.length - 1 < best.length
    · rw [List.countP_set slot, all]
      split_ifs <;> omega
    · omega

theorem samplePaths_exploits (order : OrderedOn P)
    (each : ∀ i < scores.length, P (scores.getD i 0)) (k : ℕ) (epsilon : F)
    (config : LearningConfig F) (rng : Rng) : min k scores.length - 1 ≤
      (OpenNtl.samplePaths scores k (.epsilonGreedy epsilon) config rng).1.countP
        fun sel => AmongBest scores k sel.index := by
  unfold OpenNtl.samplePaths
  by_cases nothing : scores.isEmpty = true ∨ k = 0
  · have zero : min k scores.length = 0 := by
      rcases nothing with empty | zero
      · rw [List.isEmpty_iff.mp empty]
        simp
      · omega
    omega
  · rw [if_neg nothing]
    dsimp only
    obtain ⟨indices, explored, picked, out⟩ := epsilonGreedySample_spec scores k epsilon rng
    rw [(sortBy_perm _ _).countP_eq, out, List.countP_map]
    exact picked.exploits order each

end Greedy

theorem samplePaths_withoutReplacement [FiniteOrder F] {scores : List F}
    (finite : ∀ s ∈ scores, Scalar.isFinite s = true) (k : ℕ) (policy : ExplorationPolicy F)
    (config : LearningConfig F) (rng : Rng) :
    WithoutReplacement scores k policy (OpenNtl.samplePaths scores k policy config rng).1 := by
  have sampled := samplePaths_sampled scores k policy config rng
  have read : ∀ i < scores.length, scores[i]? = some (scores.getD i 0) := by
    intro i inside
    rw [List.getD_eq_getElem?_getD, List.getElem?_eq_getElem inside]
    rfl
  have each : ∀ i < scores.length, Scalar.isFinite (scores.getD i 0) = true := fun i inside =>
    finite _ (List.mem_of_getElem? (read i inside))
  refine ⟨sampled.count, sampled.distinct, ?_, ?_, ?_⟩
  · intro sel hsel
    rw [read _ (sampled.inRange sel hsel), sampled.scored sel hsel]
  · exact FiniteOrder.ordered.samplePaths_sorted each k policy config rng
  · rintro epsilon rfl
    exact samplePaths_exploits FiniteOrder.ordered each k epsilon config rng

/-- Sampling makes no access out of range. It returns different candidates, or it is inside a draw
whose rejection loop never ends. -/
theorem sampling_without_replacement [FiniteOrder F] {scores : List F}
    (finite : ∀ s ∈ scores, Scalar.isFinite s = true) (k : ℕ) (policy : ExplorationPolicy F)
    (config : LearningConfig F) (source : ℕ → Word) :
    (∀ i, (Drawing.samplePaths scores k policy config).run (first i source) ≠ .error .panics) ∧
    ((∃ m sels, Returns (Drawing.samplePaths scores k policy config) source m sels ∧
        WithoutReplacement scores k policy sels) ∨
      Rejects (Drawing.samplePaths scores k policy config) source scores.length) := by
  rcases samplePaths_follows scores k policy config source with ⟨m, sels, returns, value⟩ | rejects
  · have sampled := samplePaths_withoutReplacement finite k policy config
      (Rng.maximal.prepend (first m source))
    rw [value] at sampled
    exact ⟨returns.safe, Or.inl ⟨m, sels, returns, sampled⟩⟩
  · exact ⟨rejects.safe, Or.inr rejects⟩

theorem largest_never_rejects {α : Type} {p : Drawing α} {bound : ℕ} :
    ¬ Rejects p (fixedRng [BitVec.allOnes 64]) bound := by
  refine not_rejects fun b pos m => ⟨m, le_rfl, ?_⟩
  obtain ⟨i, accepted⟩ := Rng.maximal.accepting b.toNat (Rng.toNat_pos pos) b.isLt 0
  have value : fixedRng [BitVec.allOnes 64] m = BitVec.allOnes 64 := by
    simp [fixedRng, Nat.mod_one]
  rw [value, ne_eq, Rng.belowRound_eq_none_iff pos, not_not, BitVec.toNat_allOnes]
  exact accepted

theorem largest_sampled : ∃ m sels,
    Returns (Drawing.samplePaths ([3, 1, 2] : List ℚ) 2 (.epsilonGreedy (1 / 10)) (.forClass .edge))
      (fixedRng [BitVec.allOnes 64]) m sels ∧
    WithoutReplacement ([3, 1, 2] : List ℚ) 2 (.epsilonGreedy (1 / 10)) sels := by
  have finite : ∀ s ∈ ([3, 1, 2] : List ℚ), Scalar.isFinite s = true := fun _ _ => rfl
  rcases (sampling_without_replacement finite 2 (.epsilonGreedy (1 / 10)) (.forClass .edge)
    (fixedRng [BitVec.allOnes 64])).2 with returns | rejects
  · exact returns
  · exact absurd rejects largest_never_rejects

theorem zeros_wait {rest : List Word} (zeros : ∀ x ∈ rest, x = 0) :
    (Drawing.samplePaths ([4, 3, 2, 1] : List ℚ) 1 (.epsilonGreedy (1 / 10)) (.forClass .edge)).run
      (0 :: rest) = .error (.waits (some 3)) := by
  have order : bestFirst ([4, 3, 2, 1] : List ℚ) = [0, 1, 2, 3] := by decide
  have draw : (nextF32 (F := ℚ)).run (0 :: rest) = .ok (0, rest) := by
    show Except.ok ((0 : ℚ) / 16777216, rest) = .ok (0, rest)
    rw [zero_div]
  have explores : (0 : ℚ) < 1 / 10 ∧ min 1 ([4, 3, 2, 1] : List ℚ).length < [0, 1, 2, 3].length :=
    ⟨by norm_num, by decide⟩
  have refused : ∀ x ∈ rest, Rng.belowRound 3 x = none := by
    intro x hx
    rw [zeros x hx]
    decide
  have waits := nextBelow_waits (show (3 : Word) ≠ 0 by decide) refused
  rw [Drawing.samplePaths, if_neg (by simp)]
  apply run_bind_error
  rw [Drawing.epsilonGreedySample]
  dsimp only
  rw [order, require_of (by simp), pure_bind]
  have top : upTo [0, 1, 2, 3] (min 1 ([4, 3, 2, 1] : List ℚ).length) = pure [0] := rfl
  rw [top, pure_bind, run_bind_ok draw, if_pos explores]
  apply run_bind_error
  have pool : fromOn [0, 1, 2, 3] (min 1 ([4, 3, 2, 1] : List ℚ).length) = pure [1, 2, 3] := rfl
  rw [substitute, pool, pure_bind]
  exact run_bind_error waits

theorem zeros_always_wait (m : ℕ) : ∃ b, (Drawing.samplePaths ([4, 3, 2, 1] : List ℚ) 1
    (.epsilonGreedy (1 / 10)) (.forClass .edge)).run (first m (fixedRng [0])) = .error (.waits b) := by
  cases m with
  | zero => exact ⟨none, rfl⟩
  | succ m =>
    rw [Nat.add_comm, first_add]
    have head : first 1 (fixedRng [0]) = [0] := rfl
    rw [head]
    refine ⟨some 3, zeros_wait ?_⟩
    intro x hx
    obtain ⟨i, -, rfl⟩ := mem_first.mp hx
    simp [after, fixedRng, Nat.mod_one]

/-- On a source of zeros sampling never returns. -/
theorem zeros_never_return :
    (∀ m, ∃ b, (Drawing.samplePaths ([4, 3, 2, 1] : List ℚ) 1 (.epsilonGreedy (1 / 10))
      (.forClass .edge)).run (first m (fixedRng [0])) = .error (.waits b)) ∧
    ¬ ∀ (scores : List ℚ) (k : ℕ) (policy : ExplorationPolicy ℚ) (config : LearningConfig ℚ)
      (source : ℕ → Word), (∀ s ∈ scores, Scalar.isFinite s = true) → ∃ m sels,
        Returns (Drawing.samplePaths scores k policy config) source m sels ∧
          WithoutReplacement scores k policy sels := by
  refine ⟨zeros_always_wait, fun always => ?_⟩
  obtain ⟨m, sels, returns, -⟩ := always [4, 3, 2, 1] 1 (.epsilonGreedy (1 / 10)) (.forClass .edge)
    (fixedRng [0]) fun _ _ => rfl
  obtain ⟨b, waiting⟩ := zeros_always_wait m
  have result := returns.result []
  rw [List.append_nil, waiting] at result
  cases result

end OpenNtl
