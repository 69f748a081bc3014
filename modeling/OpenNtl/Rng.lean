import OpenNtl.Scalar
import Mathlib.Data.Nat.Find

/-! # Random sources -/
namespace OpenNtl

/-- The rejection test of `next_below`: the low word of `x * n` is at least `-n mod n`. -/
def AcceptsDraw (n x : ℕ) : Prop := (2 ^ 64 - n) % n ≤ x * n % 2 ^ 64

instance (n x : ℕ) : Decidable (AcceptsDraw n x) := inferInstanceAs (Decidable (_ ≤ _))

/-- A random source: the raw 64-bit values it is going to give. Any values will do, and then
`next_below` need not return; see `Drawing`. -/
structure RandomSource where
  draws : ℕ → ℕ
  bounded : ∀ i, draws i < 2 ^ 64

/-- A source on which every rejection loop ends, as the generator of a node is
(`SplitMix64.source`). The operations of a node are modelled over these. -/
structure Rng extends RandomSource where
  accepting : ∀ n, 0 < n → n < 2 ^ 64 → ∀ k, ∃ i, AcceptsDraw n (draws (k + i))

namespace Rng

theorem eq_of_draws {r r' : Rng} (same : r.draws = r'.draws) : r = r' := by
  obtain ⟨⟨draws, bounded⟩, accepting⟩ := r
  obtain ⟨⟨draws', bounded'⟩, accepting'⟩ := r'
  obtain rfl : draws = draws' := same
  rfl

def skip (r : Rng) (k : ℕ) : Rng where
  draws i := r.draws (k + i)
  bounded i := r.bounded (k + i)
  accepting n hn hn' j := by
    obtain ⟨i, hi⟩ := r.accepting n hn hn' (k + j)
    exact ⟨i, by rwa [← Nat.add_assoc]⟩

def nextU64 (r : Rng) : ℕ × Rng := (r.draws 0, r.skip 1)

def nextF32 {F : Type} [Scalar F] (r : Rng) : F × Rng :=
  (Scalar.lit ((r.draws 0 / 2 ^ 40 : ℕ) / 16777216), r.skip 1)

def nextBelow (r : Rng) (n : ℕ) : Option ℕ × Rng :=
  if h : 0 < n ∧ n < 2 ^ 64 then
    let i := Nat.find (r.accepting n h.1 h.2 0)
    (some (r.draws (0 + i) * n / 2 ^ 64), r.skip (i + 1))
  else (none, r)

theorem nextBelow_lt {r r' : Rng} {n x : ℕ} (h : r.nextBelow n = (some x, r')) : x < n := by
  unfold nextBelow at h
  split at h
  · rename_i hn
    rw [← Option.some.inj (congrArg Prod.fst h)]
    exact Nat.div_lt_of_lt_mul (Nat.mul_lt_mul_of_pos_right (r.bounded _) hn.1)
  · cases h

def cons (x : ℕ) (small : x < 2 ^ 64) (r : Rng) : Rng where
  draws i := if i = 0 then x else r.draws (i - 1)
  bounded i := by
    split
    · exact small
    · exact r.bounded _
  accepting n hn hn' k := by
    obtain ⟨i, accepted⟩ := r.accepting n hn hn' k
    refine ⟨i + 1, ?_⟩
    rw [if_neg (by omega)]
    exact accepted

theorem cons_skip (x : ℕ) (small : x < 2 ^ 64) (r : Rng) : (cons x small r).skip 1 = r := by
  apply eq_of_draws
  funext i
  have later : 1 + i ≠ 0 := by omega
  show (if 1 + i = 0 then x else r.draws (1 + i - 1)) = r.draws i
  rw [if_neg later, Nat.add_sub_cancel_left]

/-- The source that always gives the largest value. Every draw of it is accepted. -/
def maximal : Rng where
  draws _ := 2 ^ 64 - 1
  bounded _ := by norm_num
  accepting n hn hn' _ := by
    refine ⟨0, ?_⟩
    have low : (2 ^ 64 - 1) * n % 2 ^ 64 = 2 ^ 64 - n := by
      have : (2 ^ 64 - 1) * n = (2 ^ 64 - n) + 2 ^ 64 * (n - 1) := by
        obtain ⟨m, rfl⟩ : ∃ m, n = m + 1 := ⟨n - 1, by omega⟩
        simp only [Nat.add_sub_cancel]
        omega
      rw [this, Nat.add_mul_mod_self_left, Nat.mod_eq_of_lt (by omega)]
    unfold AcceptsDraw
    rw [low]
    exact Nat.mod_le _ _

end Rng
end OpenNtl
