import OpenNtl.Collections
import Mathlib.Data.Int.Notation

/-! # A database catalogue and the statements that change it

Tables have named columns and rows of cells in the order of the columns. A script is run
statement by statement until one fails.
-/
namespace OpenNtl.SqlCatalog

/-- A stored value, with `F` for the numbers of type `REAL`. -/
inductive Cell (F : Type) where
  | null
  | integer (n : ℤ)
  | real (x : F)
  | text (s : String)
  | blob (bytes : List UInt8)
  deriving DecidableEq

/-- A column, with what rows that are there already get when it is added. -/
structure Column (F : Type) where
  name : String
  declared : String
  initial : Cell F
  deriving DecidableEq

structure Table (F : Type) where
  columns : List (Column F)
  rows : List (List (Cell F))
  deriving DecidableEq

structure Index where
  table : String
  unique : Bool
  columns : List String
  deriving DecidableEq

structure Catalog (F : Type) where
  tables : HashMap String (Table F)
  indexes : HashMap String Index

/-- `CREATE … IF NOT EXISTS` twice, and `ALTER TABLE … ADD COLUMN`. -/
inductive Statement (F : Type) where
  | createTable (name : String) (columns : List (Column F))
  | createIndex (name : String) (index : Index)
  | addColumn (table : String) (column : Column F)

variable {F : Type}

namespace Table

def hasColumn (t : Table F) (name : String) : Bool := t.columns.any fun c => c.name = name

def cell (t : Table F) (row : List (Cell F)) (name : String) : Option (Cell F) :=
  ((t.columns.zip row).find? fun c => c.1.name = name).map Prod.snd

def clash [DecidableEq F] (t : Table F) (columns : List String) (r r' : List (Cell F)) : Bool :=
  columns.all fun name => t.cell r name = t.cell r' name && decide (t.cell r name ≠ some .null)

def distinctOn [DecidableEq F] (t : Table F) (columns : List String) : Bool :=
  decide (t.rows.Pairwise fun r r' => t.clash columns r r' = false)

def extend (t : Table F) (added : List (Column F)) : Table F where
  columns := t.columns ++ added
  rows := t.rows.map fun row => row ++ added.map Column.initial

@[simp] theorem extend_nil (t : Table F) : t.extend [] = t := by
  simp [extend]

theorem extend_extend (t : Table F) (a b : List (Column F)) :
    (t.extend a).extend b = t.extend (a ++ b) := by
  simp [extend, Function.comp_def]

theorem cell_extend_old {t : Table F} {row : List (Cell F)} (full : row.length = t.columns.length)
    {name : String} (there : t.hasColumn name = true) (added : List (Column F)) :
    (t.extend added).cell (row ++ added.map Column.initial) name = t.cell row name := by
  obtain ⟨column, member, here⟩ := List.any_eq_true.mp there
  rw [cell, cell, extend, List.zip_append full.symm, List.find?_append]
  have found : ((t.columns.zip row).find? fun c => c.1.name = name).isSome = true := by
    rw [List.find?_isSome]
    obtain ⟨i, bound, rfl⟩ := List.getElem_of_mem member
    refine ⟨(t.columns[i], row[i]), ?_, here⟩
    rw [List.mem_iff_getElem]
    exact ⟨i, by rw [List.length_zip]; omega, by rw [List.getElem_zip]⟩
  obtain ⟨c, some⟩ := Option.isSome_iff_exists.mp found
  rw [some]
  rfl

theorem cell_extend_new {t : Table F} {row : List (Cell F)} (full : row.length = t.columns.length)
    {added : List (Column F)} {column : Column F} (member : column ∈ added)
    (distinct : (added.map Column.name).Nodup) (fresh : t.hasColumn column.name = false) :
    (t.extend added).cell (row ++ added.map Column.initial) column.name = some column.initial := by
  have missing : (t.columns.zip row).find? (fun c => decide (c.1.name = column.name)) = none := by
    rw [List.find?_eq_none]
    intro c pair same
    have absent := List.any_eq_false.mp fresh c.1 (List.of_mem_zip pair).1
    exact absent same
  rw [cell, extend, List.zip_append full.symm, List.find?_append, missing, Option.none_or]
  clear missing fresh
  induction added with
  | nil => cases member
  | cons first rest ih =>
    rw [List.map_cons, List.zip_cons_cons, List.find?_cons]
    obtain ⟨ne, distinct⟩ := List.nodup_cons.mp distinct
    rcases List.mem_cons.mp member with rfl | later
    · simp only [decide_true]
      rfl
    · have other : first.name ≠ column.name := by
        intro same
        rw [same] at ne
        exact ne (List.mem_map_of_mem later)
      simp only [decide_eq_false other]
      exact ih later distinct

end Table

namespace Catalog

def empty : Catalog F := ⟨∅, ∅⟩

variable [DecidableEq F]

def createIndex (c : Catalog F) (name : String) (index : Index) : Except String (Catalog F) :=
  if c.indexes.lookup name ≠ none then .ok c
  else if (c.tables.lookup name).isSome then
    .error ("there is already a table named " ++ name)
  else
    match c.tables.lookup index.table with
    | none => .error ("no such table: main." ++ index.table)
    | some t =>
      match index.columns.find? fun name => !t.hasColumn name with
      | some missing =>
        .error ("table " ++ index.table ++ " has no column named " ++ missing)
      | none =>
        if index.unique && !t.distinctOn index.columns then
          .error ("UNIQUE constraint failed: " ++ index.table)
        else .ok { c with indexes := c.indexes.insert name index }

def execute (c : Catalog F) : Statement F → Except String (Catalog F)
  | .createTable name columns =>
    if (c.tables.lookup name).isSome then .ok c
    else if c.indexes.lookup name ≠ none then
      .error ("there is already an index named " ++ name)
    else .ok { c with tables := c.tables.insert name ⟨columns, []⟩ }
  | .createIndex name index => c.createIndex name index
  | .addColumn table column =>
    match c.tables.lookup table with
    | none => .error ("no such table: " ++ table)
    | some t =>
      if t.hasColumn column.name then .error ("duplicate column name: " ++ column.name)
      else .ok { c with tables := c.tables.insert table (t.extend [column]) }

def executeBatch (c : Catalog F) (script : List (Statement F)) : Except String (Catalog F) :=
  script.foldlM execute c

theorem executeBatch_cons (c : Catalog F) (s : Statement F) (script : List (Statement F)) :
    c.executeBatch (s :: script) = c.execute s >>= fun c' => c'.executeBatch script := rfl

omit [DecidableEq F] in
/-- Every table is still there with its columns and its rows, to which columns may have been
added. -/
def Extends (c c' : Catalog F) : Prop :=
  ∀ name t, c.tables.lookup name = some t →
    ∃ added, c'.tables.lookup name = some (t.extend added)

omit [DecidableEq F] in
theorem Extends.refl (c : Catalog F) : c.Extends c :=
  fun _ t found => ⟨[], by rw [found, Table.extend_nil]⟩

omit [DecidableEq F] in
theorem Extends.trans {a b c : Catalog F} (h : a.Extends b) (h' : b.Extends c) : a.Extends c := by
  intro name t found
  obtain ⟨first, found'⟩ := h name t found
  obtain ⟨second, found''⟩ := h' name _ found'
  exact ⟨first ++ second, by rw [found'', Table.extend_extend]⟩

theorem createTable_cases {c c' : Catalog F} {name : String} {columns : List (Column F)}
    (done : c.execute (.createTable name columns) = .ok c') :
    (c' = c ∧ (c.tables.lookup name).isSome = true) ∨
    (c' = { c with tables := c.tables.insert name ⟨columns, []⟩ } ∧
      c.tables.lookup name = none) := by
  simp only [execute] at done
  by_cases present : (c.tables.lookup name).isSome = true
  · rw [if_pos present] at done
    cases done
    exact Or.inl ⟨rfl, present⟩
  · rw [if_neg present] at done
    split at done
    · cases done
    · cases done
      exact Or.inr ⟨rfl, Option.not_isSome_iff_eq_none.mp present⟩

theorem createIndex_cases {c c' : Catalog F} {name : String} {index : Index}
    (done : c.createIndex name index = .ok c') :
    (c' = c ∧ (c.indexes.lookup name).isSome = true) ∨
    c' = { c with indexes := c.indexes.insert name index } := by
  rw [createIndex] at done
  by_cases present : c.indexes.lookup name ≠ none
  · rw [if_pos present] at done
    cases done
    exact Or.inl ⟨rfl, Option.isSome_iff_ne_none.mpr present⟩
  · rw [if_neg present] at done
    refine Or.inr ?_
    split at done
    · cases done
    · split at done
      · cases done
      · split at done
        · cases done
        · split at done
          · cases done
          · cases done
            rfl

theorem addColumn_cases {c c' : Catalog F} {table : String} {column : Column F}
    (done : c.execute (.addColumn table column) = .ok c') :
    ∃ t, c.tables.lookup table = some t ∧
      c' = { c with tables := c.tables.insert table (t.extend [column]) } := by
  simp only [execute] at done
  cases found : c.tables.lookup table with
  | none =>
    rw [found] at done
    cases done
  | some t =>
    simp only [found] at done
    split at done
    · cases done
    · cases done
      exact ⟨t, rfl, rfl⟩

theorem execute_extends {c c' : Catalog F} {s : Statement F} (done : c.execute s = .ok c') :
    c.Extends c' := by
  cases s with
  | createTable name columns =>
    rcases createTable_cases done with ⟨rfl, -⟩ | ⟨rfl, absent⟩
    · exact .refl _
    · intro other t found
      have ne : other ≠ name := by
        intro same
        rw [same, absent] at found
        cases found
      exact ⟨[], by rw [AList.lookup_insert_ne ne, found, Table.extend_nil]⟩
  | createIndex name index =>
    rcases createIndex_cases done with ⟨rfl, -⟩ | rfl
    · exact .refl _
    · exact .refl c
  | addColumn table column =>
    obtain ⟨t, found, rfl⟩ := addColumn_cases done
    intro other t' found'
    by_cases same : other = table
    · subst same
      obtain rfl := Option.some.inj (found.symm.trans found')
      exact ⟨[column], AList.lookup_insert _⟩
    · exact ⟨[], by rw [AList.lookup_insert_ne same, found', Table.extend_nil]⟩

theorem executeBatch_extends {c c' : Catalog F} {script : List (Statement F)}
    (done : c.executeBatch script = .ok c') : c.Extends c' := by
  induction script generalizing c with
  | nil =>
    cases done
    exact .refl _
  | cons s script ih =>
    rw [executeBatch_cons] at done
    cases first : c.execute s with
    | error e =>
      rw [first] at done
      cases done
    | ok next =>
      rw [first] at done
      exact (execute_extends first).trans (ih done)

def Present (c : Catalog F) : Statement F → Bool
  | .createTable name _ => (c.tables.lookup name).isSome
  | .createIndex name _ => (c.indexes.lookup name).isSome
  | .addColumn _ _ => false

theorem execute_of_present {c : Catalog F} {s : Statement F} (present : c.Present s = true) :
    c.execute s = .ok c := by
  cases s with
  | createTable name columns => exact if_pos present
  | createIndex name index =>
    have taken : c.indexes.lookup name ≠ none := Option.isSome_iff_ne_none.mp present
    exact if_pos taken
  | addColumn table column => cases present

theorem executeBatch_of_present {c : Catalog F} {script : List (Statement F)}
    (present : ∀ s ∈ script, c.Present s = true) : c.executeBatch script = .ok c := by
  induction script with
  | nil => rfl
  | cons s script ih =>
    rw [executeBatch_cons, execute_of_present (present s List.mem_cons_self)]
    exact ih fun s' later => present s' (List.mem_cons_of_mem _ later)

theorem execute_keeps_present {c c' : Catalog F} {s s' : Statement F} (done : c.execute s = .ok c')
    (present : c.Present s' = true) : c'.Present s' = true := by
  cases s' with
  | createTable name columns =>
    obtain ⟨t, found⟩ := Option.isSome_iff_exists.mp present
    obtain ⟨added, found'⟩ := execute_extends done name t found
    exact Option.isSome_iff_exists.mpr ⟨_, found'⟩
  | createIndex name index =>
    cases s with
    | createTable other columns =>
      rcases createTable_cases done with ⟨rfl, -⟩ | ⟨rfl, -⟩
      · exact present
      · exact present
    | createIndex other index' =>
      rcases createIndex_cases done with ⟨rfl, -⟩ | rfl
      · exact present
      · by_cases here : name = other
        · rw [Present, here, AList.lookup_insert]
          rfl
        · rw [Present, AList.lookup_insert_ne here]
          exact present
    | addColumn table column =>
      obtain ⟨t, -, rfl⟩ := addColumn_cases done
      exact present
  | addColumn table column => cases present

def creates : Statement F → Bool
  | .addColumn _ _ => false
  | _ => true

theorem execute_present {c c' : Catalog F} {s : Statement F} (done : c.execute s = .ok c')
    (create : creates s = true) : c'.Present s = true := by
  cases s with
  | createTable name columns =>
    rcases createTable_cases done with ⟨rfl, present⟩ | ⟨rfl, -⟩
    · exact present
    · rw [Present, AList.lookup_insert]
      rfl
  | createIndex name index =>
    rcases createIndex_cases done with ⟨rfl, present⟩ | rfl
    · exact present
    · rw [Present, AList.lookup_insert]
      rfl
  | addColumn table column => cases create

theorem executeBatch_keeps_present {c c' : Catalog F} {script : List (Statement F)}
    (done : c.executeBatch script = .ok c') {s : Statement F} (present : c.Present s = true) :
    c'.Present s = true := by
  induction script generalizing c with
  | nil =>
    cases done
    exact present
  | cons s' script ih =>
    rw [executeBatch_cons] at done
    cases first : c.execute s' with
    | error e =>
      rw [first] at done
      cases done
    | ok next =>
      rw [first] at done
      exact ih done (execute_keeps_present first present)

theorem executeBatch_present {c c' : Catalog F} {script : List (Statement F)}
    (done : c.executeBatch script = .ok c') (create : ∀ s ∈ script, creates s = true) :
    ∀ s ∈ script, c'.Present s = true := by
  induction script generalizing c with
  | nil => exact fun s member => absurd member List.not_mem_nil
  | cons s script ih =>
    rw [executeBatch_cons] at done
    cases first : c.execute s with
    | error e =>
      rw [first] at done
      cases done
    | ok next =>
      rw [first] at done
      intro s' member
      rcases List.mem_cons.mp member with rfl | later
      · exact executeBatch_keeps_present done
          (execute_present first (create s' List.mem_cons_self))
      · exact ih done (fun x mem => create x (List.mem_cons_of_mem _ mem)) s' later

def createdTable (name : String) : Statement F → Option (Table F)
  | .createTable other columns => if other = name then some ⟨columns, []⟩ else none
  | _ => none

/-- After a script that only creates, a table is the one that was there, or the first created
under its name. -/
theorem executeBatch_lookup {c c' : Catalog F} {script : List (Statement F)}
    (done : c.executeBatch script = .ok c') (create : ∀ s ∈ script, creates s = true)
    (name : String) :
    c'.tables.lookup name = (c.tables.lookup name).or (script.findSome? (createdTable name)) := by
  induction script generalizing c with
  | nil =>
    cases done
    rw [List.findSome?_nil, Option.or_none]
  | cons s script ih =>
    rw [executeBatch_cons] at done
    cases first : c.execute s with
    | error e =>
      rw [first] at done
      cases done
    | ok next =>
      rw [first] at done
      rw [ih done fun x mem => create x (List.mem_cons_of_mem _ mem), List.findSome?_cons]
      cases s with
      | createTable other columns =>
        rcases createTable_cases first with ⟨rfl, present⟩ | ⟨rfl, absent⟩
        · by_cases here : other = name
          · obtain ⟨t, found⟩ := Option.isSome_iff_exists.mp present
            rw [← here, found]
            rfl
          · rw [createdTable, if_neg here]
        · by_cases here : other = name
          · rw [← here, AList.lookup_insert, absent, createdTable, if_pos rfl]
            rfl
          · rw [AList.lookup_insert_ne (Ne.symm here), createdTable, if_neg here]
      | createIndex other index =>
        rcases createIndex_cases first with ⟨rfl, -⟩ | rfl
        · rfl
        · rfl
      | addColumn table column => cases create _ List.mem_cons_self

omit [DecidableEq F] in
/-- The same tables with the same columns, and the same indexes. -/
structure SameShape (c c' : Catalog F) : Prop where
  tables : ∀ name,
    (c.tables.lookup name).map Table.columns = (c'.tables.lookup name).map Table.columns
  indexes : ∀ name, c.indexes.lookup name = c'.indexes.lookup name

omit [DecidableEq F] in
theorem SameShape.refl (c : Catalog F) : c.SameShape c := ⟨fun _ => rfl, fun _ => rfl⟩

omit [DecidableEq F] in
theorem SameShape.trans {a b c : Catalog F} (h : a.SameShape b) (h' : b.SameShape c) :
    a.SameShape c :=
  ⟨fun name => (h.tables name).trans (h'.tables name),
    fun name => (h.indexes name).trans (h'.indexes name)⟩

omit [DecidableEq F] in
theorem SameShape.isSome {c c' : Catalog F} (h : c.SameShape c') (name : String) :
    (c.tables.lookup name).isSome = (c'.tables.lookup name).isSome := by
  have same := congrArg Option.isSome (h.tables name)
  rwa [Option.isSome_map, Option.isSome_map] at same

omit [DecidableEq F] in
theorem SameShape.present {c c' : Catalog F} (h : c.SameShape c') (s : Statement F) :
    c.Present s = c'.Present s := by
  cases s with
  | createTable name columns => exact h.isSome name
  | createIndex name index => exact congrArg Option.isSome (h.indexes name)
  | addColumn table column => rfl

omit [DecidableEq F] in
theorem SameShape.eq_empty {c : Catalog F} (h : c.SameShape empty) : c = empty := by
  have tables : c.tables = ∅ := by
    apply AList.ext
    apply List.eq_nil_iff_forall_not_mem.mpr
    intro e member
    have found := AList.mem_lookup_iff.mpr member
    have none := h.tables e.1
    rw [found] at none
    cases none
  have indexes : c.indexes = ∅ := by
    apply AList.ext
    apply List.eq_nil_iff_forall_not_mem.mpr
    intro e member
    have found := AList.mem_lookup_iff.mpr member
    have none := h.indexes e.1
    rw [found] at none
    cases none
  cases c
  simp only at tables indexes
  rw [tables, indexes]
  rfl

omit [DecidableEq F] in
theorem SameShape.lookup {c c' : Catalog F} (h : c.SameShape c') {name : String} {t : Table F}
    (found : c'.tables.lookup name = some t) :
    ∃ t', c.tables.lookup name = some t' ∧ t'.columns = t.columns := by
  have same := h.tables name
  rw [found] at same
  exact Option.map_eq_some_iff.mp same

theorem executeBatch_addColumns {c : Catalog F} {table : String} {t : Table F}
    (found : c.tables.lookup table = some t) {added : List (Column F)}
    (fresh : ∀ column ∈ added, t.hasColumn column.name = false)
    (distinct : (added.map Column.name).Nodup) :
    ∃ c', c.executeBatch (added.map (.addColumn table)) = .ok c' ∧
      c'.tables.lookup table = some (t.extend added) ∧
      (∀ other, other ≠ table → c'.tables.lookup other = c.tables.lookup other) ∧
      c'.indexes = c.indexes := by
  induction added generalizing c t with
  | nil => exact ⟨c, rfl, by rw [found, Table.extend_nil], fun _ _ => rfl, rfl⟩
  | cons column rest ih =>
    have new := fresh column List.mem_cons_self
    obtain ⟨ne, distinct⟩ := List.nodup_cons.mp distinct
    have first : c.execute (.addColumn table column) =
        .ok { c with tables := c.tables.insert table (t.extend [column]) } := by
      simp only [execute, found, new, Bool.false_eq_true, if_false]
    have fresh' : ∀ x ∈ rest, (t.extend [column]).hasColumn x.name = false := by
      intro x later
      have old := fresh x (List.mem_cons_of_mem _ later)
      have other : column.name ≠ x.name := by
        intro same
        rw [same] at ne
        exact ne (List.mem_map_of_mem later)
      rw [Table.hasColumn] at old ⊢
      rw [Table.extend, List.any_append, old, Bool.false_or, List.any_cons, List.any_nil,
        Bool.or_false, decide_eq_false other]
    obtain ⟨c', done, mine, others, indexes⟩ :=
      ih (c := { c with tables := c.tables.insert table (t.extend [column]) })
        (AList.lookup_insert _) fresh' distinct
    refine ⟨c', ?_, ?_, fun other ne => ?_, indexes⟩
    · rw [List.map_cons, executeBatch_cons, first]
      exact done
    · rw [mine, Table.extend_extend]
      rfl
    · rw [others other ne, AList.lookup_insert_ne ne]

theorem executeBatch_duplicate {c : Catalog F} {table : String} {t : Table F}
    (found : c.tables.lookup table = some t) {column : Column F}
    (there : t.hasColumn column.name = true) (rest : List (Statement F)) :
    c.executeBatch (.addColumn table column :: rest) =
      .error ("duplicate column name: " ++ column.name) := by
  rw [executeBatch_cons]
  simp only [execute, found, there, if_true]
  rfl

end Catalog
end OpenNtl.SqlCatalog
