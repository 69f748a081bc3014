import Mathlib.Data.List.AList
import Mathlib.Tactic.Common

/-! # Database tables and the statements run on them

A keyed table holds one value for each key. Other tables are lists of rows in the order of
insertion. The answer to a query is any list that its `ORDER BY` and `LIMIT` allow: rows that
the order does not separate may come either way round.
-/
namespace SqlTable

section Writes

variable {κ ν ρ : Type}

/-- `INSERT … ON CONFLICT (key) DO UPDATE … WHERE …`: the number of rows written, and the
table. -/
def upsertWhere [DecidableEq κ] (rows : AList fun _ : κ => ν) (key : κ) (value : ν)
    (overwrites : ν → Bool) : ℕ × AList fun _ : κ => ν :=
  match rows.lookup key with
  | none => (1, rows.insert key value)
  | some old => if overwrites old then (1, rows.insert key value) else (0, rows)

/-- `INSERT … ON CONFLICT (key) DO UPDATE` on a table with a unique index on a column. The
conflict clause does not name the index, so a value another row has there is refused. -/
def upsertUnique {γ : Type} [DecidableEq κ] [DecidableEq γ] (rows : AList fun _ : κ => ν)
    (column : ν → γ) (key : κ) (value : ν) : Option (AList fun _ : κ => ν) :=
  if rows.entries.any fun e => e.1 ≠ key && column e.2 = column value then none
  else some (rows.insert key value)

def updateWhere (rows : List ρ) (wanted : ρ → Bool) (set : ρ → ρ) : List ρ :=
  rows.map fun r => if wanted r then set r else r

/-- `DELETE … WHERE …`: the number of rows removed, and the table. -/
def deleteWhere (rows : List ρ) (wanted : ρ → Bool) : ℕ × List ρ :=
  (rows.countP wanted, rows.filter fun r => !wanted r)

def UniqueOn {γ : Type} [DecidableEq κ] (rows : AList fun _ : κ => ν) (column : ν → γ) : Prop :=
  ∀ key key' value value', rows.lookup key = some value → rows.lookup key' = some value' →
    column value = column value' → key = key'

theorem upsertUnique_cases {γ : Type} [DecidableEq κ] [DecidableEq γ]
    (rows : AList fun _ : κ => ν) (column : ν → γ) (key : κ) (value : ν) :
    (upsertUnique rows column key value = some (rows.insert key value) ∧
      ∀ key' value', rows.lookup key' = some value' → column value' = column value → key' = key) ∨
    (upsertUnique rows column key value = none ∧
      ∃ key' value', key' ≠ key ∧ rows.lookup key' = some value' ∧
        column value' = column value) := by
  unfold upsertUnique
  by_cases conflict :
      (rows.entries.any fun e => e.1 ≠ key && column e.2 = column value) = true
  · rw [if_pos conflict]
    obtain ⟨e, he, other⟩ := List.any_eq_true.mp conflict
    have both : e.1 ≠ key ∧ column e.2 = column value := by simpa using other
    exact Or.inr ⟨rfl, e.1, e.2, both.1, AList.mem_lookup_iff.mpr he, both.2⟩
  · rw [if_neg conflict]
    refine Or.inl ⟨rfl, fun key' value' found same => ?_⟩
    by_contra other
    apply conflict
    apply List.any_eq_true.mpr
    exact ⟨⟨key', value'⟩, AList.mem_lookup_iff.mp found, by simpa using ⟨other, same⟩⟩

theorem UniqueOn.upsert {γ : Type} [DecidableEq κ] [DecidableEq γ]
    {rows after : AList fun _ : κ => ν} {column : ν → γ} (unique : UniqueOn rows column) {key : κ}
    {value : ν} (written : upsertUnique rows column key value = some after) :
    UniqueOn after column := by
  rcases upsertUnique_cases rows column key value with ⟨result, free⟩ | ⟨result, -⟩
  · obtain rfl := Option.some.inj (written.symm.trans result)
    intro a b va vb ha hb same
    by_cases here : a = key
    · subst a
      obtain rfl := Option.some.inj ((AList.lookup_insert rows).symm.trans ha)
      by_cases there : b = key
      · exact there.symm
      · rw [AList.lookup_insert_ne there] at hb
        exact (free b vb hb same.symm).symm
    · rw [AList.lookup_insert_ne here] at ha
      by_cases there : b = key
      · subst b
        obtain rfl := Option.some.inj ((AList.lookup_insert rows).symm.trans hb)
        exact free a va ha same
      · rw [AList.lookup_insert_ne there] at hb
        exact unique a b va vb ha hb same
  · rw [result] at written
    cases written

theorem deleteWhere_length (rows : List ρ) (wanted : ρ → Bool) :
    (deleteWhere rows wanted).1 + (deleteWhere rows wanted).2.length = rows.length := by
  unfold deleteWhere
  rw [List.countP_eq_length_filter]
  induction rows with
  | nil => rfl
  | cons r rows ih =>
    cases h : wanted r
    · simp only [List.filter_cons, h, Bool.false_eq_true, if_false, Bool.not_false, if_true,
        List.length_cons] at ih ⊢
      omega
    · simp only [List.filter_cons, h, if_true, Bool.not_true, Bool.false_eq_true, if_false,
        List.length_cons] at ih ⊢
      omega

end Writes

section Queries

variable {ρ : Type}

/-- `SELECT … WHERE wanted ORDER BY before LIMIT limit` may answer this. -/
def Selects (rows : List ρ) (wanted : ρ → Bool) (before : ρ → ρ → Prop) (limit : ℕ)
    (answer : List ρ) : Prop :=
  ∃ sorted : List ρ, sorted.Perm (rows.filter wanted) ∧
    sorted.Pairwise (fun a b => ¬ before b a) ∧ answer = sorted.take limit

variable {rows answer : List ρ} {wanted : ρ → Bool} {before : ρ → ρ → Prop} {limit : ℕ}

theorem head_of_least {first : ρ} {rest sorted : List ρ} (perm : sorted.Perm (first :: rest))
    (ordered : sorted.Pairwise fun a b => ¬ before b a) (least : ∀ r ∈ rest, before first r) :
    ∃ tail, sorted = first :: tail ∧ tail.Perm rest := by
  cases sorted with
  | nil => exact absurd perm.length_eq (by simp)
  | cons top tail =>
    by_cases same : top = first
    · subst same
      exact ⟨tail, rfl, perm.cons_inv⟩
    · have later : first ∈ tail := by
        have here := perm.mem_iff.mpr (List.mem_cons_self (a := first))
        exact (List.mem_cons.mp here).resolve_left fun h => same h.symm
      have other : top ∈ rest := by
        have here := perm.mem_iff.mp (List.mem_cons_self (a := top))
        exact (List.mem_cons.mp here).resolve_left same
      exact absurd (least top other) ((List.pairwise_cons.mp ordered).1 first later)

theorem eq_of_strict {sorted strict : List ρ} (perm : sorted.Perm strict)
    (ordered : sorted.Pairwise fun a b => ¬ before b a) (separated : strict.Pairwise before) :
    sorted = strict := by
  induction strict generalizing sorted with
  | nil => exact perm.eq_nil
  | cons first rest ih =>
    obtain ⟨least, separated⟩ := List.pairwise_cons.mp separated
    obtain ⟨tail, rfl, rest'⟩ := head_of_least perm ordered least
    rw [ih rest' (List.pairwise_cons.mp ordered).2 separated]

theorem Selects.eq_take (h : Selects rows wanted before limit answer) {strict : List ρ}
    (perm : strict.Perm (rows.filter wanted)) (separated : strict.Pairwise before) :
    answer = strict.take limit := by
  obtain ⟨sorted, same, ordered, rfl⟩ := h
  rw [eq_of_strict (same.trans perm.symm) ordered separated]

theorem Selects.eq_singleton (h : Selects rows wanted before 1 answer) {first : ρ} {rest : List ρ}
    (split : rows.filter wanted = first :: rest) (least : ∀ r ∈ rest, before first r) :
    answer = [first] := by
  obtain ⟨sorted, perm, ordered, rfl⟩ := h
  rw [split] at perm
  obtain ⟨tail, rfl, -⟩ := head_of_least perm ordered least
  rfl

theorem Selects.eq_nil (h : Selects rows wanted before limit answer)
    (none : rows.filter wanted = []) : answer = [] := by
  obtain ⟨sorted, perm, -, rfl⟩ := h
  rw [none] at perm
  rw [perm.eq_nil, List.take_nil]

end Queries

end SqlTable
