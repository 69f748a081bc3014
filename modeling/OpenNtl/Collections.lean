import Mathlib.Algebra.Group.Nat.Defs
import Mathlib.Data.List.Sort
import Mathlib.Data.List.AList
import Mathlib.Data.List.Forall2
import Mathlib.Data.Option.Basic

/-! # Integers, sorting and maps as the standard library has them

`u64` values are natural numbers with the saturating operations the source asks for.
A `HashMap` is an association list with unique keys.
-/
namespace OpenNtl

def u64Max : ℕ := 2 ^ 64 - 1

def saturatingAdd (a b : ℕ) : ℕ := min (a + b) u64Max

def saturatingMul (a b : ℕ) : ℕ := min (a * b) u64Max

def asU16 (n : ℕ) : ℕ := n % 2 ^ 16

def nanosPerSec : ℕ := 1000000000

theorem saturatingAdd_le (a b : ℕ) : saturatingAdd a b ≤ u64Max := min_le_right _ _

variable {α : Type}

theorem transCmp_on {β : Type} {cmp : β → β → Ordering} (lawful : Std.TransCmp cmp) (f : α → β) :
    Std.TransCmp fun a b => cmp (f a) (f b) where
  eq_swap := Std.OrientedCmp.eq_swap
  isLE_trans := Std.TransCmp.isLE_trans

def sortBy (cmp : α → α → Ordering) (xs : List α) : List α :=
  xs.insertionSort fun a b => cmp a b ≠ .gt

theorem sortBy_perm (cmp : α → α → Ordering) (xs : List α) : (sortBy cmp xs).Perm xs :=
  List.perm_insertionSort _ xs

@[simp] theorem mem_sortBy {cmp : α → α → Ordering} {xs : List α} {a : α} :
    a ∈ sortBy cmp xs ↔ a ∈ xs := (sortBy_perm cmp xs).mem_iff

@[simp] theorem length_sortBy (cmp : α → α → Ordering) (xs : List α) :
    (sortBy cmp xs).length = xs.length := (sortBy_perm cmp xs).length_eq

theorem sortBy_sorted {cmp : α → α → Ordering} (lawful : Std.TransCmp cmp) (xs : List α) :
    (sortBy cmp xs).Pairwise fun a b => cmp a b ≠ .gt := by
  have total : Std.Total fun a b : α => cmp a b ≠ .gt := by
    constructor
    intro a b
    by_cases h : cmp a b = .gt
    · refine Or.inr ?_
      have swap : cmp b a = (cmp a b).swap := Std.OrientedCmp.eq_swap
      rw [swap, h]
      simp
    · exact Or.inl h
  have trans : IsTrans α fun a b => cmp a b ≠ .gt := by
    constructor
    intro a b c hab hbc
    exact Ordering.ne_gt_iff_isLE.mpr (Std.TransCmp.isLE_trans
      (Ordering.ne_gt_iff_isLE.mp hab) (Ordering.ne_gt_iff_isLE.mp hbc))
  exact List.pairwise_insertionSort _ xs

theorem sortBy_sorted_on {P : α → Prop} {cmp : α → α → Ordering}
    (lawful : Std.TransCmp fun a b : Subtype P => cmp a.1 b.1) {xs : List α}
    (each : ∀ a ∈ xs, P a) : (sortBy cmp xs).Pairwise fun a b => cmp a b ≠ .gt := by
  have mapped : (sortBy (fun a b : Subtype P => cmp a.1 b.1) (xs.attachWith P each)).map
      Subtype.val = sortBy cmp xs := by
    unfold sortBy
    rw [List.map_insertionSort _ (fun a b => cmp a b ≠ .gt) Subtype.val _ fun _ _ _ _ => Iff.rfl,
      List.attachWith_map_subtype_val]
  rw [← mapped]
  exact List.pairwise_map.mpr (sortBy_sorted lawful _)

def minBy (cmp : α → α → Ordering) : List α → Option α
  | [] => none
  | x :: xs => some (xs.foldl (fun m y => if cmp m y = .gt then y else m) x)

theorem minBy_mem {cmp : α → α → Ordering} {xs : List α} {a : α} (h : minBy cmp xs = some a) :
    a ∈ xs := by
  cases xs with
  | nil => cases h
  | cons x xs =>
    have main : ∀ (ys : List α) (m : α),
        ys.foldl (fun m y => if cmp m y = .gt then y else m) m ∈ m :: ys := by
      intro ys
      induction ys with
      | nil => intro m; exact List.mem_singleton_self m
      | cons y ys ih =>
        intro m
        rw [List.foldl_cons]
        split
        · exact List.mem_cons_of_mem m (ih y)
        · rcases List.mem_cons.mp (ih m) with h | h
          · exact List.mem_cons.mpr (Or.inl h)
          · exact List.mem_cons_of_mem m (List.mem_cons_of_mem y h)
    rw [← Option.some.inj h]
    exact main xs x

theorem minBy_least {cmp : α → α → Ordering} (lawful : Std.TransCmp cmp) {xs : List α} {a : α}
    (h : minBy cmp xs = some a) : ∀ x ∈ xs, cmp a x ≠ .gt := by
  cases xs with
  | nil => cases h
  | cons x xs =>
    -- The candidate only moves down, so it stays before what it was compared with.
    have main : ∀ (ys : List α) (m : α), ∀ y, y = m ∨ y ∈ ys →
        (cmp (ys.foldl (fun m y => if cmp m y = .gt then y else m) m) y).isLE = true := by
      intro ys
      induction ys with
      | nil =>
        rintro m y (rfl | hy)
        · have same : cmp y y = .eq := Std.ReflCmp.compare_self
          rw [List.foldl_nil, same]
          rfl
        · cases hy
      | cons z ys ih =>
        intro m y hy
        rw [List.foldl_cons]
        by_cases after : cmp m z = .gt
        · rw [if_pos after]
          have below : (cmp z m).isLE = true := by
            have swap : cmp z m = (cmp m z).swap := Std.OrientedCmp.eq_swap
            rw [swap, after]
            rfl
          rcases hy with rfl | hy
          · exact Std.TransCmp.isLE_trans (ih z z (Or.inl rfl)) below
          · exact ih z y (List.mem_cons.mp hy)
        · rw [if_neg after]
          have below : (cmp m z).isLE = true := Ordering.ne_gt_iff_isLE.mp after
          rcases hy with rfl | hy
          · exact ih y y (Or.inl rfl)
          · rcases List.mem_cons.mp hy with rfl | hy
            · exact Std.TransCmp.isLE_trans (ih m m (Or.inl rfl)) below
            · exact ih m y (Or.inr hy)
    intro y hy
    rw [← Option.some.inj h]
    exact Ordering.ne_gt_iff_isLE.mpr (main xs x y (List.mem_cons.mp hy))

theorem minBy_least_on {P : α → Prop} {cmp : α → α → Ordering}
    (lawful : Std.TransCmp fun a b : Subtype P => cmp a.1 b.1) {xs : List α} {a : α}
    (each : ∀ a ∈ xs, P a) (h : minBy cmp xs = some a) : ∀ x ∈ xs, cmp a x ≠ .gt := by
  have mapped : ∀ ys : List (Subtype P), minBy cmp (ys.map Subtype.val) =
      (minBy (fun a b : Subtype P => cmp a.1 b.1) ys).map Subtype.val := by
    intro ys
    cases ys with
    | nil => rfl
    | cons y ys =>
      simp only [List.map_cons, minBy, List.foldl_map, Option.map_some]
      exact congrArg some (List.foldl_hom Subtype.val fun m y => by split <;> rfl)
  rw [← List.attachWith_map_subtype_val each, mapped, Option.map_eq_some_iff] at h
  obtain ⟨least, found, rfl⟩ := h
  intro x hx
  exact minBy_least lawful found ⟨x, each x hx⟩ (by simpa using hx)

theorem minBy_isSome {cmp : α → α → Ordering} {xs : List α} (h : xs ≠ []) :
    ∃ a, minBy cmp xs = some a := by
  cases xs with
  | nil => exact absurd rfl h
  | cons x xs => exact ⟨_, rfl⟩

/-- Update in place the first element that `p` finds, as `iter_mut().find(p)` does. -/
def updateFirst (p : α → Bool) (f : α → α) : List α → List α
  | [] => []
  | x :: xs => if p x then f x :: xs else x :: updateFirst p f xs

theorem map_updateFirst {β : Type} {p : α → Bool} {f : α → α} {g : α → β}
    (same : ∀ x, g (f x) = g x) (xs : List α) : (updateFirst p f xs).map g = xs.map g := by
  induction xs with
  | nil => rfl
  | cons x xs ih =>
    unfold updateFirst
    split
    · simp only [List.map_cons, same]
    · simp only [List.map_cons, ih]

theorem find?_updateFirst {p : α → Bool} {f : α → α} (keeps : ∀ x, p x = true → p (f x) = true)
    (xs : List α) : (updateFirst p f xs).find? p = (xs.find? p).map f := by
  induction xs with
  | nil => rfl
  | cons x xs ih =>
    by_cases h : p x = true
    · simp [updateFirst, h, keeps x h]
    · simpa [updateFirst, h] using ih

theorem find?_updateFirst_other {p q : α → Bool} {f : α → α}
    (other : ∀ x, p x = true → q x = false ∧ q (f x) = false) (xs : List α) :
    (updateFirst p f xs).find? q = xs.find? q := by
  induction xs with
  | nil => rfl
  | cons x xs ih =>
    by_cases h : p x = true
    · simp [updateFirst, h, other x h]
    · simp only [updateFirst, if_neg h, List.find?_cons, ih]

theorem mem_updateFirst {p : α → Bool} {f : α → α} {xs : List α} {y : α}
    (h : y ∈ updateFirst p f xs) : y ∈ xs ∨ ∃ x, xs.find? p = some x ∧ y = f x := by
  induction xs with
  | nil => cases h
  | cons x xs ih =>
    by_cases hp : p x = true
    · rw [updateFirst, if_pos hp] at h
      rcases List.mem_cons.mp h with rfl | h
      · exact Or.inr ⟨x, by simp [hp], rfl⟩
      · exact Or.inl (List.mem_cons_of_mem x h)
    · rw [updateFirst, if_neg hp] at h
      rcases List.mem_cons.mp h with rfl | h
      · exact Or.inl List.mem_cons_self
      · rcases ih h with h | ⟨z, hz, rfl⟩
        · exact Or.inl (List.mem_cons_of_mem x h)
        · exact Or.inr ⟨z, by simpa [hp] using hz, rfl⟩

theorem updateFirst_of_find? {p : α → Bool} {f : α → α} {xs : List α} {x : α}
    (h : xs.find? p = some x) :
    ∃ pre post, xs = pre ++ x :: post ∧ updateFirst p f xs = pre ++ f x :: post := by
  induction xs with
  | nil => cases h
  | cons y ys ih =>
    by_cases here : p y = true
    · obtain rfl : y = x := by simpa [here] using h
      exact ⟨[], ys, rfl, if_pos here⟩
    · obtain ⟨pre, post, rfl, updated⟩ := ih (by simpa [here] using h)
      refine ⟨y :: pre, post, rfl, ?_⟩
      rw [updateFirst, if_neg here, updated]
      rfl

/-- `Vec::swap_remove`: the last element takes the place of the removed one. -/
def swapRemove (xs : List α) (i : ℕ) : List α :=
  match xs.getLast? with
  | none => []
  | some z => (xs.set i z).dropLast

theorem forall₂_mem {β : Type} {R : α → β → Prop} {xs : List α} {ys : List β}
    (h : List.Forall₂ R xs ys) : List.Forall₂ (fun x y => x ∈ xs ∧ R x y) xs ys := by
  induction h with
  | nil => exact .nil
  | cons head _ ih =>
    refine .cons ⟨List.mem_cons_self, head⟩ (ih.imp fun x y both => ⟨?_, both.2⟩)
    exact List.mem_cons_of_mem _ both.1

abbrev HashMap (κ ν : Type) := AList fun _ : κ => ν

namespace HashMap

variable {κ ν : Type}

def values (m : HashMap κ ν) : List ν := m.entries.map Sigma.snd

def retain (m : HashMap κ ν) (p : κ → ν → Bool) : HashMap κ ν where
  entries := m.entries.filter fun e => p e.1 e.2
  nodupKeys := m.nodupKeys.sublist List.filter_sublist

theorem lookup_retain [DecidableEq κ] (m : HashMap κ ν) (p : κ → ν → Bool) (k : κ) :
    (retain m p).lookup k = (m.lookup k).filter (p k) := by
  obtain ⟨entries, nodup⟩ := m
  unfold retain AList.lookup
  dsimp only
  induction entries with
  | nil => rfl
  | cons e es ih =>
    obtain ⟨k', v⟩ := e
    obtain ⟨fresh, nodup⟩ := List.nodupKeys_cons.mp nodup
    by_cases same : k' = k
    · subst same
      rw [List.dlookup_cons_eq]
      cases kept : p k' v with
      | true => simp [kept, Option.filter]
      | false =>
        have gone : (es.filter fun e => p e.1 e.2).dlookup k' = none := by
          refine List.dlookup_eq_none.mpr fun here => fresh ?_
          exact (List.filter_sublist.map _).subset here
        simp [kept, gone, Option.filter]
    · rw [List.dlookup_cons_ne _ _ (Ne.symm same), ← ih nodup, List.filter_cons]
      split
      · exact List.dlookup_cons_ne _ _ (Ne.symm same)
      · rfl

theorem lookup_of_erase [DecidableEq κ] {m : HashMap κ ν} {removed k : κ} {v : ν}
    (there : (m.erase removed).lookup k = some v) : m.lookup k = some v := by
  by_cases same : k = removed
  · subst same
    have gone : (m.erase k).lookup k = none := AList.lookup_erase k m
    cases gone.symm.trans there
  · exact (AList.lookup_erase_ne same).symm.trans there

theorem mem_values_of_lookup [DecidableEq κ] {m : HashMap κ ν} {k : κ} {v : ν}
    (h : m.lookup k = some v) : v ∈ m.values :=
  List.mem_map_of_mem (AList.mem_lookup_iff.mp h)

def mapValues (f : ν → ν) (m : HashMap κ ν) : HashMap κ ν where
  entries := m.entries.map fun e => ⟨e.1, f e.2⟩
  nodupKeys := by
    have keys : (m.entries.map fun e : Σ _ : κ, ν => (⟨e.1, f e.2⟩ : Σ _ : κ, ν)).keys =
        m.entries.keys := by simp [List.keys, Function.comp_def]
    unfold List.NodupKeys
    rw [keys]
    exact m.nodupKeys

def Related {ν' : Type} (R : ν → ν' → Prop) (m : HashMap κ ν) (m' : HashMap κ ν') : Prop :=
  List.Forall₂ (fun a b => a.1 = b.1 ∧ R a.2 b.2) m.entries m'.entries

namespace Related

variable {ν' : Type} {R S : ν → ν' → Prop} {m : HashMap κ ν} {m' : HashMap κ ν'}

theorem mono (sub : ∀ v ∈ m.values, ∀ w, R v w → S v w) (h : Related R m m') :
    Related S m m' := by
  exact (forall₂_mem h).imp fun a b both =>
    ⟨both.2.1, sub a.2 (List.mem_map_of_mem both.1) b.2 both.2.2⟩

theorem values (h : Related R m m') : List.Forall₂ R m.values m'.values :=
  List.forall₂_map_left_iff.mpr (List.forall₂_map_right_iff.mpr (h.imp fun _ _ both => both.2))

theorem mapValues_right {f : ν' → ν'} (h : Related R m m') (maps : ∀ v w, R v w → S v (f w)) :
    Related S m (m'.mapValues f) :=
  List.forall₂_map_right_iff.mpr (h.imp fun _ _ both => ⟨both.1, maps _ _ both.2⟩)

theorem refl {R : ν → ν → Prop} (same : ∀ v ∈ m.values, R v v) : Related R m m := by
  refine List.forall₂_same.mpr fun e he => ⟨rfl, ?_⟩
  exact same e.2 (List.mem_map_of_mem he)

theorem retain {p : κ → ν → Bool} {p' : κ → ν' → Bool} (h : Related R m m')
    (same : ∀ k v w, R v w → p k v = p' k w) :
    Related R (HashMap.retain m p) (HashMap.retain m' p') := by
  unfold Related at h
  unfold Related HashMap.retain
  dsimp only
  generalize m.entries = xs at h
  generalize m'.entries = ys at h
  induction h with
  | nil => exact .nil
  | @cons a b _ _ head _ ih =>
    have alike : p a.1 a.2 = p' b.1 b.2 := by
      rw [← head.1]
      exact same a.1 a.2 b.2 head.2
    cases kept : p a.1 a.2 with
    | true =>
      have kept' : p' b.1 b.2 = true := alike ▸ kept
      simp only [List.filter_cons, kept, kept', if_true]
      exact .cons head ih
    | false =>
      have kept' : p' b.1 b.2 = false := alike ▸ kept
      simp only [List.filter_cons, kept, kept', Bool.false_eq_true, if_false]
      exact ih

variable [DecidableEq κ]

theorem lookup (h : Related R m m') (k : κ) : Option.Rel R (m.lookup k) (m'.lookup k) := by
  unfold Related at h
  unfold AList.lookup
  generalize m.entries = xs at h
  generalize m'.entries = ys at h
  induction h with
  | nil => exact .none
  | @cons a b _ _ head _ ih =>
    obtain ⟨ka, va⟩ := a
    obtain ⟨kb, vb⟩ := b
    obtain ⟨rfl, value⟩ := head
    by_cases same : ka = k
    · subst same
      rw [List.dlookup_cons_eq, List.dlookup_cons_eq]
      exact .some value
    · rw [List.dlookup_cons_ne _ _ (Ne.symm same), List.dlookup_cons_ne _ _ (Ne.symm same)]
      exact ih

theorem insert (h : Related R m m') (k : κ) {v : ν} {w : ν'} (value : R v w) :
    Related R (m.insert k v) (m'.insert k w) := by
  refine .cons ⟨rfl, value⟩ ?_
  unfold Related at h
  generalize m.entries = xs at h
  generalize m'.entries = ys at h
  induction h with
  | nil => exact .nil
  | @cons a b as bs head tail ih =>
    by_cases same : k = a.1
    · rw [List.kerase_cons_eq same, List.kerase_cons_eq (same.trans head.1)]
      exact tail
    · rw [List.kerase_cons_ne same, List.kerase_cons_ne fun h => same (h.trans head.1.symm)]
      exact .cons head ih

end Related

theorem lookup_mapValues [DecidableEq κ] (f : ν → ν) (m : HashMap κ ν) (k : κ) :
    (mapValues f m).lookup k = (m.lookup k).map f := by
  have images : Related (fun v w => w = f v) m (mapValues f m) :=
    (Related.refl (R := Eq) fun _ _ => rfl).mapValues_right fun v w same => by rw [same]
  generalize (mapValues f m).lookup k = y, m.lookup k = x, images.lookup k = related
  cases related with
  | none => rfl
  | some image => exact congrArg some image

end HashMap

theorem forall₂_orderedInsert {R : α → α → Prop} {r : α → α → Prop} [DecidableRel r]
    (same : ∀ a b a' b', R a a' → R b b' → (r a b ↔ r a' b')) {a a' : α} (head : R a a')
    {xs ys : List α} (lists : List.Forall₂ R xs ys) :
    List.Forall₂ R (xs.orderedInsert r a) (ys.orderedInsert r a') := by
  induction lists with
  | nil => exact .cons head .nil
  | @cons b b' bs bs' first rest ih =>
    rw [List.orderedInsert_cons, List.orderedInsert_cons]
    by_cases before : r a b
    · rw [if_pos before, if_pos ((same _ _ _ _ head first).mp before)]
      exact .cons head (.cons first rest)
    · rw [if_neg before, if_neg fun h => before ((same _ _ _ _ head first).mpr h)]
      exact .cons first ih

theorem forall₂_sortBy {R : α → α → Prop} {cmp : α → α → Ordering}
    (same : ∀ a b a' b', R a a' → R b b' → cmp a b = cmp a' b') {xs ys : List α}
    (lists : List.Forall₂ R xs ys) : List.Forall₂ R (sortBy cmp xs) (sortBy cmp ys) := by
  induction lists with
  | nil => exact .nil
  | cons head _ ih =>
    refine forall₂_orderedInsert (fun a b a' b' ha hb => ?_) head ih
    simp only [same a b a' b' ha hb]

end OpenNtl
