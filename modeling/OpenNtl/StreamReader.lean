import Mathlib.Data.List.Range

/-! # Programs that read a stream

A program takes the values of a stream one after the other. Given the first few of them it returns,
it panics, or it waits for one more. -/
namespace OpenNtl

inductive Halt (W : Type) where
  | panics
  /-- All values are taken, and the program wants another. -/
  | waits (place : W)

abbrev StreamReader (V W : Type) : Type → Type := StateT (List V) (Except (Halt W))

namespace StreamReader

variable {V W α β : Type}

def first (m : ℕ) (source : ℕ → V) : List V := (List.range m).map source

def after (m : ℕ) (source : ℕ → V) : ℕ → V := fun i => source (m + i)

theorem first_add (m i : ℕ) (source : ℕ → V) :
    first (m + i) source = first m source ++ first i (after m source) := by
  rw [first, List.range_add, List.map_append, List.map_map]
  rfl

theorem first_succ (m : ℕ) (source : ℕ → V) : first (m + 1) source = first m source ++ [source m] :=
  first_add m 1 source

theorem mem_first {m : ℕ} {source : ℕ → V} {x : V} :
    x ∈ first m source ↔ ∃ i < m, source i = x := by
  simp [first]

/-- The program takes the first `m` values of the stream and returns `a`. -/
structure Returns (p : StreamReader V W α) (source : ℕ → V) (m : ℕ) (a : α) : Prop where
  before : ∀ i, i < m → ∃ w, p.run (first i source) = .error (.waits w)
  result : ∀ more, p.run (first m source ++ more) = .ok (a, more)

/-- From value `m` on the program waits at one place, whatever it is given of the stream. -/
structure Stalls (p : StreamReader V W α) (source : ℕ → V) (m : ℕ) (w : W) : Prop where
  before : ∀ i, i < m → ∃ w, p.run (first i source) = .error (.waits w)
  forever : ∀ i, m ≤ i → p.run (first i source) = .error (.waits w)

section Runs

variable {p : StreamReader V W α} {q : α → StreamReader V W β} {source : ℕ → V} {a : α} {m i : ℕ}

theorem run_bind_ok {xs rest : List V} (run : p.run xs = .ok (a, rest)) :
    (p >>= q).run xs = (q a).run rest := by
  rw [StateT.run_bind, run]
  rfl

theorem run_bind_error {xs : List V} {halt : Halt W} (run : p.run xs = .error halt) :
    (p >>= q).run xs = .error halt := by
  rw [StateT.run_bind, run]
  rfl

theorem returns_pure (a : α) (source : ℕ → V) :
    Returns (pure a : StreamReader V W α) source 0 a where
  before i early := absurd early (Nat.not_lt_zero i)
  result _ := rfl

theorem Returns.run_bind (returns : Returns p source m a) (i : ℕ) (more : List V) :
    (p >>= q).run (first (m + i) source ++ more) =
      (q a).run (first i (after m source) ++ more) := by
  rw [first_add, List.append_assoc]
  exact run_bind_ok (returns.result _)

theorem Returns.waits_bind (returns : Returns p source m a) {j : ℕ}
    (before : ∀ i, i < j → ∃ w, (q a).run (first i (after m source)) = .error (.waits w)) :
    ∀ i, i < m + j → ∃ w, (p >>= q).run (first i source) = .error (.waits w) := by
  intro i early
  by_cases inside : i < m
  · obtain ⟨w, waits⟩ := returns.before i inside
    exact ⟨w, run_bind_error waits⟩
  · obtain ⟨k, rfl⟩ := Nat.exists_eq_add_of_le (not_lt.mp inside)
    obtain ⟨w, waits⟩ := before k (by omega)
    have step := returns.run_bind (q := q) k []
    rw [List.append_nil, List.append_nil] at step
    exact ⟨w, step.trans waits⟩

theorem Returns.bind {b : β} (returns : Returns p source m a)
    (next : Returns (q a) (after m source) i b) : Returns (p >>= q) source (m + i) b where
  before := returns.waits_bind next.before
  result more := (returns.run_bind i more).trans (next.result more)

theorem Returns.bind_stalls {w : W} (returns : Returns p source m a)
    (next : Stalls (q a) (after m source) i w) : Stalls (p >>= q) source (m + i) w where
  before := returns.waits_bind next.before
  forever j late := by
    obtain ⟨k, rfl⟩ := Nat.exists_eq_add_of_le (show m ≤ j by omega)
    have step := returns.run_bind (q := q) k []
    rw [List.append_nil, List.append_nil] at step
    exact step.trans (next.forever k (by omega))

theorem Stalls.bind {w : W} (stalls : Stalls p source m w) : Stalls (p >>= q) source m w where
  before i early := by
    obtain ⟨w, waits⟩ := stalls.before i early
    exact ⟨w, run_bind_error waits⟩
  forever i late := run_bind_error (stalls.forever i late)

theorem Returns.safe (returns : Returns p source m a) (i : ℕ) :
    p.run (first i source) ≠ .error .panics := by
  by_cases early : i < m
  · obtain ⟨w, waits⟩ := returns.before i early
    rw [waits]
    simp
  · obtain ⟨k, rfl⟩ := Nat.exists_eq_add_of_le (not_lt.mp early)
    rw [first_add, returns.result]
    simp

theorem Stalls.safe {w : W} (stalls : Stalls p source m w) (i : ℕ) :
    p.run (first i source) ≠ .error .panics := by
  by_cases early : i < m
  · obtain ⟨w, waits⟩ := stalls.before i early
    rw [waits]
    simp
  · rw [stalls.forever i (not_lt.mp early)]
    simp

end Runs

end StreamReader
end OpenNtl
