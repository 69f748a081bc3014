import OpenNtl.Collections
import Mathlib.Algebra.BigOperators.Group.List.Basic
import Mathlib.Data.List.TakeWhile

/-! # Maps of counters -/
namespace OpenNtl

namespace HashMap

variable {κ : Type} [DecidableEq κ]

def count (m : HashMap κ ℕ) (k : κ) : ℕ := (m.lookup k).getD 0

omit [DecidableEq κ] in
def total (m : HashMap κ ℕ) : ℕ := m.values.foldr (· + ·) 0

variable (m : HashMap κ ℕ)

theorem count_insert_same (k : κ) (v : ℕ) : count (m.insert k v) k = v := by
  unfold count
  rw [AList.lookup_insert]
  rfl

theorem count_insert_other {k' : κ} (other : k' ≠ k) (v : ℕ) :
    count (m.insert k v) k' = m.count k' := by
  unfold count
  rw [AList.lookup_insert_ne other]

theorem total_erase (k : κ) : m.total = m.count k + total (m.erase k) := by
  obtain ⟨entries, nodup⟩ := m
  unfold count total values AList.lookup AList.erase
  dsimp only
  induction entries with
  | nil => rfl
  | cons e es ih =>
    obtain ⟨k', v⟩ := e
    obtain ⟨fresh, nodup⟩ := List.nodupKeys_cons.mp nodup
    by_cases same : k = k'
    · subst same
      have erased : List.kerase k (⟨k, v⟩ :: es) = es := List.kerase_cons_eq rfl
      rw [List.dlookup_cons_eq, erased]
      rfl
    · rw [List.dlookup_cons_ne _ _ same, List.kerase_cons_ne same, List.map_cons, List.map_cons,
        List.foldr_cons, List.foldr_cons, ih nodup]
      exact Nat.add_left_comm _ _ _

theorem total_insert (k : κ) (v : ℕ) :
    total (m.insert k v) + m.count k = m.total + v := by
  have inserted : total (m.insert k v) = v + total (m.erase k) := rfl
  rw [inserted, m.total_erase k]
  omega

theorem count_le_total (k : κ) : m.count k ≤ m.total := by
  rw [m.total_erase k]
  exact Nat.le_add_right _ _

theorem count_erase_other {k k' : κ} (other : k' ≠ k) : count (m.erase k) k' = m.count k' := by
  unfold count
  rw [AList.lookup_erase_ne other]

theorem exists_count_pos {m : HashMap κ ℕ} (some' : 0 < m.total) : ∃ k, 0 < m.count k := by
  by_contra none
  push Not at none
  refine some'.ne' ?_
  have zero : ∀ v ∈ m.values, v = 0 := by
    intro v hv
    obtain ⟨⟨k, v'⟩, entry, rfl⟩ := List.mem_map.mp hv
    have found : m.lookup k = some v' := AList.mem_lookup_iff.mpr entry
    have here := none k
    unfold count at here
    rw [found] at here
    exact Nat.le_zero.mp here
  show m.values.sum = 0
  exact List.sum_eq_zero zero

theorem count_eq_total_iff (k : κ) : m.count k = m.total ↔ ∀ k', k' ≠ k → m.count k' = 0 := by
  rw [m.total_erase k]
  constructor
  · intro all k' other
    have part := count_le_total (m.erase k) k'
    rw [m.count_erase_other other] at part
    omega
  · intro none
    by_contra short
    obtain ⟨k', some'⟩ := exists_count_pos (m := m.erase k) (by omega)
    by_cases own : k' = k
    · subst own
      unfold count at some'
      rw [AList.lookup_erase] at some'
      exact absurd some' (lt_irrefl 0)
    · rw [m.count_erase_other own, none k' own] at some'
      exact lt_irrefl 0 some'

end HashMap

section Repeats

variable {α : Type} [DecidableEq α]

/-- The list without the repeats of its first element that follow it at once. -/
def dropRepeats : List α → List α
  | [] => []
  | a :: rest => a :: rest.dropWhile fun b => b = a

theorem dropWhile_eq_concat (a b : α) (xs : List α) :
    (xs ++ [b]).dropWhile (fun c => decide (c = a)) =
      xs.dropWhile (fun c => decide (c = a)) ++ if (∀ c ∈ xs, c = a) ∧ b = a then [] else [b] := by
  by_cases repeats : ∀ c ∈ xs, c = a
  · have all : ∀ c ∈ xs, decide (c = a) = true := fun c hc => decide_eq_true (repeats c hc)
    rw [List.dropWhile_append_of_pos all, List.dropWhile_eq_nil_iff.mpr all]
    by_cases same : b = a
    · rw [if_pos ⟨repeats, same⟩]
      simp [same]
    · rw [if_neg fun h => same h.2]
      simp [same]
  · have left : xs.dropWhile (fun c => decide (c = a)) ≠ [] := fun gone =>
      repeats fun c hc => of_decide_eq_true (List.dropWhile_eq_nil_iff.mp gone c hc)
    rw [if_neg fun h => repeats h.1, List.dropWhile_append, if_neg (by rwa [List.isEmpty_iff])]

theorem dropRepeats_concat (xs : List α) (b : α) :
    dropRepeats (xs ++ [b]) =
      dropRepeats xs ++ if xs ≠ [] ∧ ∀ a ∈ xs, a = b then [] else [b] := by
  cases xs with
  | nil => rfl
  | cons a rest =>
    have repeats : (a :: rest ≠ [] ∧ ∀ c ∈ a :: rest, c = b) ↔ (∀ c ∈ rest, c = a) ∧ b = a := by
      constructor
      · rintro ⟨-, all⟩
        obtain ⟨rfl, later⟩ := List.forall_mem_cons.mp all
        exact ⟨later, rfl⟩
      · rintro ⟨later, rfl⟩
        exact ⟨List.cons_ne_nil _ _, List.forall_mem_cons.mpr ⟨rfl, later⟩⟩
    rw [if_congr repeats rfl rfl, List.cons_append, dropRepeats, dropRepeats, dropWhile_eq_concat,
      List.cons_append]

theorem dropRepeats_sublist (xs : List α) : (dropRepeats xs).Sublist xs := by
  cases xs with
  | nil => exact .slnil
  | cons a rest => exact (List.dropWhile_sublist _).cons_cons a

theorem mem_dropRepeats {xs : List α} {a : α} : a ∈ dropRepeats xs ↔ a ∈ xs := by
  refine ⟨fun h => (dropRepeats_sublist xs).subset h, fun h => ?_⟩
  cases xs with
  | nil => exact h
  | cons b rest =>
    rw [dropRepeats, List.mem_cons]
    by_cases same : a = b
    · exact Or.inl same
    · have here := List.mem_of_ne_of_mem same h
      rw [← List.takeWhile_append_dropWhile (p := fun c => decide (c = b)) (l := rest)] at here
      rcases List.mem_append.mp here with early | late
      · have repeated : decide (a = b) = true :=
          List.mem_takeWhile_imp (p := fun c => decide (c = b)) early
        exact absurd (of_decide_eq_true repeated) same
      · exact Or.inr late

theorem dropRepeats_eq_self_iff {xs : List α} :
    dropRepeats xs = xs ↔ ∀ a rest, xs ≠ a :: a :: rest := by
  rcases xs with _ | ⟨a, _ | ⟨b, rest⟩⟩
  · simp [dropRepeats]
  · simp [dropRepeats]
  · by_cases same : b = a
    · subst same
      have shorter : (rest.dropWhile fun c => decide (c = b)).length ≤ rest.length :=
        (List.dropWhile_sublist _).length_le
      refine iff_of_false (fun kept => ?_) fun distinct => distinct b rest rfl
      have lengths := congrArg List.length kept
      simp only [dropRepeats, decide_true, List.dropWhile_cons_of_pos, List.length_cons] at lengths
      omega
    · refine iff_of_true ?_ ?_
      · simp [dropRepeats, same]
      · rintro c tail pair
        simp only [List.cons.injEq] at pair
        exact same (pair.2.1.trans pair.1.symm)

theorem count_dropRepeats_eq_iff {xs : List α} :
    (∀ a, (dropRepeats xs).count a = xs.count a) ↔ ∀ a rest, xs ≠ a :: a :: rest := by
  rw [← dropRepeats_eq_self_iff]
  constructor
  · intro counts
    have perm : (dropRepeats xs).Perm xs := List.perm_iff_count.mpr counts
    exact (dropRepeats_sublist xs).eq_of_length perm.length_eq
  · intro kept a
    rw [kept]

end Repeats
end OpenNtl
