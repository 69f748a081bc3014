import Mathlib.Data.BitVec
import Mathlib.Data.Fintype.EquivFin
import Mathlib.Data.FinEnum
import Mathlib.Data.Nat.ModEq

/-! # Reversible mixing of machine words

The steps that generators and hash functions mix a word with: the xor with a shifted copy of
itself, and the product with an odd constant. Each can be undone. A word that is increased by a
constant with an inverse runs through all words before it returns.
-/
namespace WordMixing

variable {w : ℕ}

def xorShift (k : ℕ) (x : BitVec w) : BitVec w := x ^^^ (x >>> k)

/-- The xor shift undone. Each round gets `k` more of the leading bits right. -/
def unxorShift (k : ℕ) (y : BitVec w) : ℕ → BitVec w
  | 0 => y
  | rounds + 1 => y ^^^ (unxorShift k y rounds >>> k)

theorem unxorShift_xor (k rounds : ℕ) (x : BitVec w) :
    unxorShift k (xorShift k x) rounds ^^^ x = x >>> (k * (rounds + 1)) := by
  have cancel : ∀ z : BitVec w, xorShift k x ^^^ z ^^^ x = z ^^^ (x >>> k) := by
    intro z
    rw [xorShift, BitVec.xor_comm x, BitVec.xor_assoc, BitVec.xor_comm z x, ← BitVec.xor_assoc,
      BitVec.xor_assoc _ x x, BitVec.xor_self, BitVec.xor_zero, BitVec.xor_comm]
  induction rounds with
  | zero =>
    have first := cancel 0#w
    rw [BitVec.xor_zero, BitVec.zero_xor] at first
    rw [unxorShift, first, Nat.zero_add, Nat.mul_one]
  | succ rounds ih =>
    rw [unxorShift, cancel, ← BitVec.ushiftRight_xor_distrib, ih, ← BitVec.shiftRight_add]
    rfl

theorem unxorShift_xorShift {k rounds : ℕ} (enough : w ≤ k * (rounds + 1)) (x : BitVec w) :
    unxorShift k (xorShift k x) rounds = x := by
  have wrong := unxorShift_xor k rounds x
  rw [BitVec.ushiftRight_eq_zero enough] at wrong
  exact (BitVec.xor_left_inj x).mp (wrong.trans BitVec.xor_self.symm)

theorem mul_bijective {c d : BitVec w} (inverse : c * d = 1) :
    Function.Bijective fun x : BitVec w => x * c := by
  refine Finite.injective_iff_bijective.mp ?_
  refine Function.LeftInverse.injective (g := fun x => x * d) fun x => ?_
  show x * c * d = x
  rw [mul_assoc, inverse, mul_one]

theorem xor_bijective (c : BitVec w) : Function.Bijective fun x : BitVec w => x ^^^ c :=
  Finite.injective_iff_bijective.mp fun _ _ same => (BitVec.xor_left_inj c).mp same

def walk (c start : BitVec w) (n : ℕ) : BitVec w := start + BitVec.ofNat w n * c

@[simp] theorem walk_zero (c start : BitVec w) : walk c start 0 = start := by
  have none : BitVec.ofNat w 0 = 0 := rfl
  rw [walk, none, zero_mul, add_zero]

theorem walk_add (c start : BitVec w) (m n : ℕ) :
    walk c start (m + n) = walk c (walk c start m) n := by
  rw [walk, walk, walk, BitVec.ofNat_add, add_mul, add_assoc]

theorem walk_one (c start : BitVec w) : walk c start 1 = start + c := by
  have one : BitVec.ofNat w 1 = 1 := rfl
  rw [walk, one, one_mul]

variable {c d : BitVec w}

theorem walk_eq_iff (inverse : c * d = 1) (start : BitVec w) (m n : ℕ) :
    walk c start m = walk c start n ↔ m ≡ n [MOD 2 ^ w] := by
  have unscaled := (mul_bijective inverse).injective.eq_iff (a := BitVec.ofNat w m)
    (b := BitVec.ofNat w n)
  rw [walk, walk, add_left_cancel_iff]
  refine unscaled.trans ?_
  rw [← BitVec.toNat_inj, BitVec.toNat_ofNat, BitVec.toNat_ofNat]
  rfl

def steps (d start x : BitVec w) : ℕ := ((x - start) * d).toNat

theorem walk_steps (inverse : c * d = 1) (start x : BitVec w) :
    walk c start (steps d start x) = x := by
  rw [walk, steps, BitVec.ofNat_toNat, BitVec.setWidth_eq, mul_assoc, mul_comm d c, inverse,
    mul_one]
  exact add_sub_cancel start x

theorem walk_window (inverse : c * d = 1) (start : BitVec w) (first : ℕ) (x : BitVec w) :
    ∃! i, i < 2 ^ w ∧ walk c start (first + i) = x := by
  refine ⟨steps d (walk c start first) x, ⟨BitVec.isLt _, ?_⟩, ?_⟩
  · rw [walk_add]
    exact walk_steps inverse _ x
  · rintro i ⟨inside, there⟩
    rw [walk_add, ← walk_steps inverse (walk c start first) x, walk_eq_iff inverse] at there
    exact Nat.ModEq.eq_of_lt_of_lt there inside (BitVec.isLt _)

end WordMixing
