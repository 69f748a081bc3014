import OpenNtl.Collections

/-! # Ranks in sorted lists -/
namespace OpenNtl

variable {α : Type}

section Rank

variable (before : α → α → Prop) [DecidableRel before]

def rank (xs : List α) (a : α) : ℕ := xs.countP fun b => before b a

theorem rank_perm {xs ys : List α} (perm : xs.Perm ys) (a : α) :
    rank before xs a = rank before ys a :=
  perm.countP_eq _

theorem rank_getElem {xs : List α} (asymm : ∀ a ∈ xs, ∀ b ∈ xs, before a b → ¬ before b a)
    (sorted : xs.Pairwise before) {i : ℕ} (inside : i < xs.length) :
    rank before xs xs[i] = i := by
  induction xs generalizing i with
  | nil =>
    rw [List.length_nil] at inside
    omega
  | cons x xs ih =>
    obtain ⟨first, rest⟩ := List.pairwise_cons.mp sorted
    unfold rank
    cases i with
    | zero =>
      rw [List.getElem_cons_zero, List.countP_eq_zero]
      intro b hb earlier
      have earlier : before b x := by simpa using earlier
      rcases List.mem_cons.mp hb with rfl | later
      · exact asymm b hb b hb earlier earlier
      · exact asymm b hb x List.mem_cons_self earlier (first b later)
    | succ i =>
      have inside' : i < xs.length := by
        rw [List.length_cons] at inside
        omega
      have here : before x xs[i] := first xs[i] (List.getElem_mem inside')
      rw [List.getElem_cons_succ, List.countP_cons_of_pos (by simpa using here)]
      have position := ih (fun a ha b hb => asymm a (List.mem_cons_of_mem x ha) b
        (List.mem_cons_of_mem x hb)) rest inside'
      unfold rank at position
      omega

theorem mem_take_iff_rank {xs : List α} (asymm : ∀ a ∈ xs, ∀ b ∈ xs, before a b → ¬ before b a)
    (sorted : xs.Pairwise before) {a : α} (here : a ∈ xs) (k : ℕ) :
    a ∈ xs.take k ↔ rank before xs a < k := by
  constructor
  · intro taken
    obtain ⟨i, inside, same⟩ := List.getElem_of_mem taken
    rw [List.length_take] at inside
    rw [List.getElem_take] at same
    have position := rank_getElem before asymm sorted (i := i) (by omega)
    rw [same] at position
    omega
  · intro early
    obtain ⟨i, inside, same⟩ := List.getElem_of_mem here
    have position := rank_getElem before asymm sorted inside
    rw [same] at position
    rw [← same]
    exact List.mem_take_iff_getElem.mpr ⟨i, by omega, rfl⟩

end Rank

/-- Elements with their positions, compared by `cmp` and by position where that ties. -/
def stableCmp (cmp : α → α → Ordering) (a b : α × ℕ) : Ordering :=
  (cmp a.1 b.1).then (compare a.2 b.2)

theorem stableCmp_trans {cmp : α → α → Ordering} (lawful : Std.TransCmp cmp) :
    Std.TransCmp (stableCmp cmp) := by
  have element := transCmp_on lawful (Prod.fst : α × ℕ → α)
  have position := transCmp_on (inferInstance : Std.TransCmp fun a b : ℕ => compare a b)
    (Prod.snd : α × ℕ → ℕ)
  exact inferInstanceAs (Std.TransCmp (compareLex (fun a b : α × ℕ => cmp a.1 b.1)
    fun a b => compare a.2 b.2))

theorem stableCmp_eq_eq {cmp : α → α → Ordering} {a b : α × ℕ} (same : stableCmp cmp a b = .eq) :
    a.2 = b.2 := by
  have ties := Ordering.then_eq_eq.mp same
  exact Nat.compare_eq_eq.mp ties.2

theorem zipIdx_increasing (xs : List α) : xs.zipIdx.Pairwise fun a b => a.2 < b.2 := by
  have positions : (xs.zipIdx.map Prod.snd).Pairwise (· < ·) := by
    rw [List.zipIdx_map_snd]
    exact List.pairwise_lt_range'
  exact List.pairwise_map.mp positions

theorem map_orderedInsert_of {β : Type} {r : α → α → Prop} {s : β → β → Prop} [DecidableRel r]
    [DecidableRel s] (f : α → β) {x : α} {xs : List α} (same : ∀ a ∈ xs, r x a ↔ s (f x) (f a)) :
    (xs.orderedInsert r x).map f = (xs.map f).orderedInsert s (f x) := by
  induction xs with
  | nil => rfl
  | cons a xs ih =>
    have head := same a List.mem_cons_self
    have rest := ih fun b hb => same b (List.mem_cons_of_mem a hb)
    by_cases first : r x a
    · rw [List.orderedInsert_cons_of_le _ _ first, List.map_cons, List.map_cons,
        List.orderedInsert_cons_of_le _ _ (head.mp first)]
    · rw [List.orderedInsert_of_not_le _ _ first, List.map_cons, List.map_cons, rest,
        List.orderedInsert_of_not_le _ _ fun later => first (head.mpr later)]

theorem sortBy_stable (cmp : α → α → Ordering) (xs : List α) :
    (sortBy (stableCmp cmp) xs.zipIdx).map Prod.fst = sortBy cmp xs := by
  have increasing : ∀ (ys : List (α × ℕ)), ys.Pairwise (fun a b => a.2 < b.2) →
      (sortBy (stableCmp cmp) ys).map Prod.fst = sortBy cmp (ys.map Prod.fst) := by
    intro ys increasing
    induction ys with
    | nil => rfl
    | cons y ys ih =>
      obtain ⟨first, rest⟩ := List.pairwise_cons.mp increasing
      unfold sortBy at ih ⊢
      rw [List.insertionSort_cons, List.map_cons, List.insertionSort_cons, ← ih rest]
      apply map_orderedInsert_of
      intro a ha
      have later := first a (List.mem_insertionSort _ |>.mp ha)
      have order : compare y.2 a.2 = .lt := Nat.compare_eq_lt.mpr later
      unfold stableCmp
      rw [order]
      cases cmp y.1 a.1 <;> simp
  rw [increasing _ (zipIdx_increasing xs), List.zipIdx_map_fst]

theorem stable_sorted {cmp : α → α → Ordering} (lawful : Std.TransCmp cmp) (xs : List α) :
    (sortBy (stableCmp cmp) xs.zipIdx).Pairwise fun a b => stableCmp cmp a b = .lt := by
  have apart : (sortBy (stableCmp cmp) xs.zipIdx).Pairwise fun a b => a.2 ≠ b.2 := by
    have distinct : (xs.zipIdx.map Prod.snd).Nodup :=
      (List.pairwise_map.mpr (zipIdx_increasing xs)).imp Nat.ne_of_lt
    exact List.pairwise_map.mp (((sortBy_perm _ _).map Prod.snd).nodup_iff.mpr distinct)
  apply ((sortBy_sorted (stableCmp_trans lawful) xs.zipIdx).and apart).imp
  rintro a b ⟨ordered, other⟩
  cases order : stableCmp cmp a b with
  | lt => rfl
  | eq => exact absurd (stableCmp_eq_eq order) other
  | gt => exact absurd order ordered

end OpenNtl
