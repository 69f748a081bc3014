import OpenNtl.Learning
import Mathlib.Data.List.Perm.Basic

/-! # What sampling returns -/
namespace OpenNtl

section Lists

variable {α : Type}

theorem swapRemove_perm {xs : List α} {i : ℕ} (inRange : i < xs.length) :
    (xs[i] :: swapRemove xs i).Perm xs := by
  have nonempty : xs ≠ [] := List.ne_nil_of_length_pos (by omega)
  have split : xs.dropLast ++ [xs.getLast nonempty] = xs := List.dropLast_append_getLast nonempty
  have whole : (xs.getLast nonempty :: xs.dropLast).Perm xs := by
    conv_rhs => rw [← split]
    exact (List.perm_append_singleton _ _).symm
  unfold swapRemove
  rw [List.getLast?_eq_some_getLast nonempty]
  dsimp only
  by_cases inside : i + 1 < xs.length
  · have short : i < xs.dropLast.length := by
      rw [List.length_dropLast]
      omega
    have same : xs.dropLast[i] = xs[i] := List.getElem_dropLast short
    have moved : (xs.set i (xs.getLast nonempty)).dropLast = xs.dropLast.set i (xs.getLast nonempty) := by
      rw [List.dropLast_eq_take, List.dropLast_eq_take, List.length_set, List.take_set]
    rw [moved, ← same]
    calc List.Perm _ (xs.dropLast[i] :: xs.getLast nonempty :: xs.dropLast.eraseIdx i) :=
          (List.set_perm_cons_eraseIdx short _).cons _
      List.Perm _ (xs.getLast nonempty :: xs.dropLast[i] :: xs.dropLast.eraseIdx i) :=
          List.Perm.swap _ _ _
      List.Perm _ (xs.getLast nonempty :: xs.dropLast) :=
          (List.getElem_cons_eraseIdx_perm short).cons _
      List.Perm _ xs := whole
  · obtain rfl : i = xs.length - 1 := by omega
    have last : xs[xs.length - 1] = xs.getLast nonempty := (List.getLast_eq_getElem nonempty).symm
    have same : (xs.set (xs.length - 1) (xs.getLast nonempty)).dropLast = xs.dropLast := by
      rw [List.dropLast_eq_take, List.dropLast_eq_take, List.length_set, List.take_set_of_le le_rfl]
    rw [last, same]
    exact whole

end Lists

variable {F : Type} [Scalar F]

/-- Selections that name different candidates, each with its own score. -/
structure SampledFrom (scores : List F) (count : ℕ) (sels : List (Selection F)) : Prop where
  distinct : (sels.map Selection.index).Nodup
  inRange : ∀ sel ∈ sels, sel.index < scores.length
  scored : ∀ sel ∈ sels, sel.score = scores.getD sel.index 0
  count : sels.length = count

theorem SampledFrom.perm {scores : List F} {count : ℕ} {sels sels' : List (Selection F)}
    (sampled : SampledFrom scores count sels) (same : sels'.Perm sels) :
    SampledFrom scores count sels' where
  distinct := (same.map Selection.index).nodup_iff.mpr sampled.distinct
  inRange sel hsel := sampled.inRange sel (same.mem_iff.mp hsel)
  scored sel hsel := sampled.scored sel (same.mem_iff.mp hsel)
  count := same.length_eq.trans sampled.count

theorem pickSlot_lt (target : F) {weights : List F} (nonempty : weights ≠ []) (acc : F) (slot : ℕ) :
    pickSlot target weights acc slot < slot + weights.length := by
  induction weights generalizing acc slot with
  | nil => exact absurd rfl nonempty
  | cons w ws ih =>
    unfold pickSlot
    split
    · rw [List.length_cons]
      omega
    · cases ws with
      | nil =>
        simp only [pickSlot, List.length_cons, List.length_nil]
        omega
      | cons w' ws =>
        have later := ih (List.cons_ne_nil w' ws) (acc + w) (slot + 1)
        rw [List.length_cons]
        omega

theorem softmaxPick_lt (scores : List F) (temperature : F) {remaining : List ℕ}
    (nonempty : remaining ≠ []) (rng : Rng) :
    (softmaxPick scores temperature remaining rng).1 < remaining.length := by
  unfold softmaxPick
  dsimp only
  split
  · refine Nat.lt_of_lt_of_eq (pickSlot_lt _ (by simpa using nonempty) 0 0) ?_
    rw [List.length_map, Nat.zero_add]
  · cases drawn : (rng.nextBelow remaining.length).1 with
    | none => exact List.length_pos_iff.mpr nonempty
    | some pick => exact Rng.nextBelow_lt (Prod.ext drawn rfl)

theorem softmaxSample_spec (scores : List F) (temperature : F) (best : Option ℕ) (k : ℕ)
    (remaining : List ℕ) (rng : Rng) :
    (∃ left, ((softmaxSample scores temperature best k remaining rng).1.map Selection.index
        ++ left).Perm remaining) ∧
      (softmaxSample scores temperature best k remaining rng).1.length = min k remaining.length ∧
      ∀ sel ∈ (softmaxSample scores temperature best k remaining rng).1,
        sel.score = scores.getD sel.index 0 ∧ sel.explored = decide (some sel.index ≠ best) := by
  induction k generalizing remaining rng with
  | zero =>
    refine ⟨⟨remaining, List.Perm.refl _⟩, by simp [softmaxSample], ?_⟩
    intro sel hsel
    cases hsel
  | succ k ih =>
    unfold softmaxSample
    by_cases empty : remaining.isEmpty = true
    · rw [if_pos empty, List.isEmpty_iff.mp empty]
      refine ⟨⟨[], List.Perm.refl _⟩, by simp, ?_⟩
      intro sel hsel
      cases hsel
    · rw [if_neg empty]
      have nonempty : remaining ≠ [] := fun none => empty (List.isEmpty_iff.mpr none)
      have inside := softmaxPick_lt scores temperature nonempty rng
      generalize softmaxPick scores temperature remaining rng = drawn at inside
      obtain ⟨⟨left, perm⟩, length, each⟩ := ih (swapRemove remaining drawn.1) drawn.2
      have taken := swapRemove_perm inside
      have here : remaining.getD drawn.1 0 = remaining[drawn.1] := by
        simp [List.getD_eq_getElem?_getD, inside]
      refine ⟨⟨left, ?_⟩, ?_, ?_⟩
      · dsimp only
        rw [List.map_cons, List.cons_append, here]
        exact (perm.cons _).trans taken
      · have shorter := taken.length_eq
        rw [List.length_cons] at shorter
        dsimp only
        rw [List.length_cons, length]
        omega
      · intro sel hsel
        rcases List.mem_cons.mp hsel with rfl | hsel
        · exact ⟨rfl, rfl⟩
        · exact each sel hsel

/-- The candidates, best score first, and by index where scores tie. -/
def bestFirst (scores : List F) : List ℕ :=
  sortBy (fun a b => (Scalar.partialCmp (scores.getD b 0) (scores.getD a 0)).then (compare a b))
    (List.range scores.length)

theorem bestFirst_perm (scores : List F) :
    (bestFirst scores).Perm (List.range scores.length) := sortBy_perm _ _

theorem bestFirst_nodup (scores : List F) : (bestFirst scores).Nodup :=
  (bestFirst_perm scores).nodup_iff.mpr List.nodup_range

@[simp] theorem length_bestFirst (scores : List F) : (bestFirst scores).length = scores.length := by
  rw [(bestFirst_perm scores).length_eq, List.length_range]

/-- The best candidates, with at most the weakest of them replaced by one from the rest. -/
inductive GreedyPick (scores : List F) (k : ℕ) : List ℕ → Option ℕ → Prop
  | greedy : GreedyPick scores k ((bestFirst scores).take k) none
  | substituted {pick : ℕ} (rest : pick ∈ (bestFirst scores).drop k) :
      GreedyPick scores k (((bestFirst scores).take k).set (k - 1) pick) (some pick)

theorem epsilonGreedySample_spec (scores : List F) (k : ℕ) (epsilon : F) (rng : Rng) :
    ∃ indices explored, GreedyPick scores (min k scores.length) indices explored ∧
      (epsilonGreedySample scores k epsilon rng).1 = indices.map fun index =>
        ⟨index, scores.getD index 0, decide (some index = explored)⟩ := by
  unfold epsilonGreedySample
  dsimp only
  split
  · rename_i goes
    have order : sortBy (fun a b => (Scalar.partialCmp (scores.getD b 0) (scores.getD a 0)).then
        (compare a b)) (List.range scores.length) = bestFirst scores := rfl
    rw [order] at goes ⊢
    cases drawn : (rng.nextF32 (F := F)).2.nextBelow
        ((bestFirst scores).drop (min k scores.length)).length with
    | mk pick rng' =>
      cases pick with
      | none => exact ⟨_, none, .greedy, rfl⟩
      | some pick =>
        have inside := Rng.nextBelow_lt drawn
        have pooled : ((bestFirst scores).drop (min k scores.length)).getD pick 0 ∈
            (bestFirst scores).drop (min k scores.length) := by
          rw [List.getD_eq_getElem?_getD, List.getElem?_eq_getElem inside]
          exact List.getElem_mem inside
        exact ⟨_, _, .substituted pooled, rfl⟩
  · exact ⟨_, none, .greedy, rfl⟩

omit [Scalar F] in
theorem nodup_set_take {xs : List ℕ} (nodup : xs.Nodup) {k x : ℕ} (later : x ∈ xs.drop k) :
    ((xs.take k).set (k - 1) x).Nodup := by
  cases k with
  | zero => simp
  | succ k =>
    have inside : k + 1 < xs.length := by
      have := List.length_pos_of_mem later
      rw [List.length_drop] at this
      omega
    have shape : (xs.take (k + 1)).set (k + 1 - 1) x = xs.take k ++ [x] := by
      rw [Nat.add_sub_cancel, List.take_succ_eq_append_getElem (by omega),
        List.set_append_right k x (by simp)]
      simp [Nat.min_eq_left (by omega : k ≤ xs.length)]
    rw [shape, List.nodup_append]
    refine ⟨nodup.sublist (List.take_sublist k xs), List.nodup_singleton x, ?_⟩
    intro a ha b hb same
    rw [List.mem_singleton.mp hb] at same
    have apart := List.disjoint_take_drop nodup (Nat.le_succ k)
    exact apart (same ▸ ha) later

theorem GreedyPick.sampled {scores : List F} {k : ℕ} {indices : List ℕ} {explored : Option ℕ}
    (picked : GreedyPick scores (min k scores.length) indices explored) :
    indices.Nodup ∧ indices.length = min k scores.length ∧ ∀ i ∈ indices, i < scores.length := by
  have small : ∀ i ∈ bestFirst scores, i < scores.length :=
    fun i hi => List.mem_range.mp ((bestFirst_perm scores).mem_iff.mp hi)
  have nodup := bestFirst_nodup scores
  cases picked with
  | greedy =>
    refine ⟨nodup.sublist (List.take_sublist _ _), by simp, fun i hi => ?_⟩
    exact small i (List.mem_of_mem_take hi)
  | substituted rest =>
    refine ⟨nodup_set_take nodup rest, by simp, fun i hi => ?_⟩
    rcases List.mem_or_eq_of_mem_set hi with hi | rfl
    · exact small i (List.mem_of_mem_take hi)
    · exact small _ (List.mem_of_mem_drop rest)

theorem softmaxSample_sampled (scores : List F) (temperature : F) (best : Option ℕ) (k : ℕ)
    (rng : Rng) : SampledFrom scores (min k scores.length)
      (softmaxSample scores temperature best k (List.range scores.length) rng).1 := by
  obtain ⟨⟨left, perm⟩, length, each⟩ :=
    softmaxSample_spec scores temperature best k (List.range scores.length) rng
  have nodup := perm.nodup_iff.mpr List.nodup_range
  refine ⟨(List.nodup_append.mp nodup).1, fun sel hsel => ?_, fun sel hsel => (each sel hsel).1, ?_⟩
  · apply List.mem_range.mp
    exact perm.mem_iff.mp (List.mem_append_left left (List.mem_map_of_mem hsel))
  · rw [length, List.length_range]

theorem epsilonGreedySample_sampled (scores : List F) (k : ℕ) (epsilon : F) (rng : Rng) :
    SampledFrom scores (min k scores.length) (epsilonGreedySample scores k epsilon rng).1 := by
  obtain ⟨indices, explored, picked, out⟩ := epsilonGreedySample_spec scores k epsilon rng
  obtain ⟨nodup, length, small⟩ := picked.sampled
  rw [out]
  refine ⟨?_, ?_, ?_, by rw [List.length_map, length]⟩
  · rw [List.map_map]
    simpa [Function.comp_def] using nodup
  · intro sel hsel
    obtain ⟨i, hi, rfl⟩ := List.mem_map.mp hsel
    exact small i hi
  · intro sel hsel
    obtain ⟨i, hi, rfl⟩ := List.mem_map.mp hsel
    rfl

theorem samplePaths_sampled (scores : List F) (k : ℕ) (policy : ExplorationPolicy F)
    (config : LearningConfig F) (rng : Rng) :
    SampledFrom scores (min k scores.length) (samplePaths scores k policy config rng).1 := by
  unfold samplePaths
  split
  · rename_i none
    have zero : min k scores.length = 0 := by
      rcases none with empty | zero
      · rw [List.isEmpty_iff.mp empty]
        simp
      · omega
    exact ⟨List.nodup_nil, by simp, by simp, zero.symm⟩
  · cases policy with
    | softmax =>
      have sampled := softmaxSample_sampled scores config.effectiveTemperature (argmax scores)
        (min k scores.length) rng
      rw [Nat.min_assoc, Nat.min_self] at sampled
      exact sampled.perm (sortBy_perm _ _)
    | epsilonGreedy epsilon =>
      exact (epsilonGreedySample_sampled scores k epsilon rng).perm (sortBy_perm _ _)

theorem OrderedOn.sortBy_descending {P : F → Prop} (order : OrderedOn P) {α : Type} (f : α → F)
    {xs : List α} (each : ∀ a ∈ xs, P (f a)) :
    (sortBy (fun a b => Scalar.partialCmp (f b) (f a)) xs).Pairwise fun a b => f b ≤ f a := by
  have lawful : Std.TransCmp fun a b : {a : α // P (f a)} =>
      Scalar.partialCmp (f b.1) (f a.1) :=
    have := transCmp_on order.partialCmp_trans fun a : {a : α // P (f a)} =>
      (⟨f a.1, a.2⟩ : Subtype P)
    Std.TransCmp.opposite
  have sorted : (sortBy (fun a b => Scalar.partialCmp (f b) (f a)) xs).Pairwise
      fun a b => Scalar.partialCmp (f b) (f a) ≠ .gt := sortBy_sorted_on lawful each
  refine sorted.imp_of_mem fun {a b} ha hb first => ?_
  exact (order.isLE_partialCmp (each b (mem_sortBy.mp hb)) (each a (mem_sortBy.mp ha))).mp
    (Ordering.ne_gt_iff_isLE.mp first)

theorem OrderedOn.samplePaths_sorted {P : F → Prop} (order : OrderedOn P) {scores : List F}
    (each : ∀ i < scores.length, P (scores.getD i 0)) (k : ℕ) (policy : ExplorationPolicy F)
    (config : LearningConfig F) (rng : Rng) :
    (samplePaths scores k policy config rng).1.Pairwise fun a b => b.score ≤ a.score := by
  have sampled := samplePaths_sampled scores k policy config rng
  have scored : ∀ sel ∈ (samplePaths scores k policy config rng).1, P sel.score := by
    intro sel hsel
    rw [sampled.scored sel hsel]
    exact each _ (sampled.inRange sel hsel)
  unfold samplePaths at scored ⊢
  by_cases none : scores.isEmpty = true ∨ k = 0
  · rw [if_pos none]
    exact List.Pairwise.nil
  · rw [if_neg none] at scored ⊢
    exact order.sortBy_descending Selection.score fun sel hsel => scored sel (mem_sortBy.mpr hsel)

end OpenNtl
