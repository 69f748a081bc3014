import OpenNtl.Rng
import Mathlib.Algebra.Order.Floor.Div
import Mathlib.Data.FinEnum

/-! # Uniform draws below a bound

`next_below` over machine words. Every result below the bound is given by as many 64-bit values.
-/
namespace OpenNtl

theorem multiples_between {n : ℕ} (pos : 0 < n) (a q x : ℕ) :
    (a ≤ x * n ∧ x * n < a + q * n) ↔ x ∈ Finset.Ico (a ⌈/⌉ n) (a ⌈/⌉ n + q) := by
  have shifted : (a + q * n) ⌈/⌉ n = a ⌈/⌉ n + q := by
    rw [Nat.ceilDiv_eq_add_pred_div, Nat.ceilDiv_eq_add_pred_div]
    have regroup : a + q * n + n - 1 = a + n - 1 + q * n := by omega
    rw [regroup, Nat.add_mul_div_right _ _ pos]
  have low : a ⌈/⌉ n ≤ x ↔ a ≤ x * n := by
    rw [ceilDiv_le_iff_le_mul pos, mul_comm n x]
  have high : a ⌈/⌉ n + q ≤ x ↔ a + q * n ≤ x * n := by
    rw [← shifted, ceilDiv_le_iff_le_mul pos, mul_comm n x]
  rw [Finset.mem_Ico, low, ← not_le, ← high, not_le]

abbrev Word := BitVec 64

namespace Rng

def threshold (n : Word) : Word := -n % n

def product (n x : Word) : BitVec 128 := x.setWidth 128 * n.setWidth 128

/-- One round of the loop of `next_below`: what a draw is mapped to, unless it is rejected. -/
def belowRound (n x : Word) : Option Word :=
  let m := product n x
  if threshold n ≤ m.setWidth 64 then some ((m >>> 64).setWidth 64) else none

/-- The loop, over the values that the source gives. It answers with those it has not taken, or
not at all if it rejects them all. -/
def belowLoop (n : Word) : List Word → Option (Word × List Word)
  | [] => none
  | x :: rest =>
    match belowRound n x with
    | some r => some (r, rest)
    | none => belowLoop n rest

def nextBelowFrom (n : Word) (draws : List Word) : Option (Option Word × List Word) :=
  if n = 0 then some (none, draws)
  else (belowLoop n draws).map fun (r, rest) => (some r, rest)

theorem belowLoop_eq_some_iff (n : Word) (draws : List Word) (r : Word) (rest : List Word) :
    belowLoop n draws = some (r, rest) ↔ ∃ rejected x, draws = rejected ++ x :: rest ∧
      (∀ y ∈ rejected, belowRound n y = none) ∧ belowRound n x = some r := by
  induction draws with
  | nil => simp [belowLoop]
  | cons y draws ih =>
    rw [belowLoop]
    cases round : belowRound n y with
    | some s =>
      constructor
      · intro answer
        obtain ⟨rfl, rfl⟩ := Prod.mk.inj (Option.some.inj answer)
        exact ⟨[], y, rfl, by simp, round⟩
      · rintro ⟨rejected, x, split, each, accepted⟩
        cases rejected with
        | nil =>
          obtain ⟨rfl, rfl⟩ := List.cons.inj split
          rw [round] at accepted
          rw [Option.some.inj accepted]
        | cons z rejected =>
          have refused := each z List.mem_cons_self
          rw [← (List.cons.inj split).1, round] at refused
          cases refused
    | none =>
      dsimp only
      rw [ih]
      constructor
      · rintro ⟨rejected, x, rfl, each, accepted⟩
        refine ⟨y :: rejected, x, rfl, ?_, accepted⟩
        intro z hz
        rcases List.mem_cons.mp hz with rfl | hz
        · exact round
        · exact each z hz
      · rintro ⟨rejected, x, split, each, accepted⟩
        cases rejected with
        | nil =>
          rw [← (List.cons.inj split).1, round] at accepted
          cases accepted
        | cons z rejected =>
          refine ⟨rejected, x, (List.cons.inj split).2, ?_, accepted⟩
          exact fun w hw => each w (List.mem_cons_of_mem z hw)

theorem belowLoop_eq_none_iff (n : Word) (draws : List Word) :
    belowLoop n draws = none ↔ ∀ x ∈ draws, belowRound n x = none := by
  induction draws with
  | nil => simp [belowLoop]
  | cons y draws ih =>
    rw [belowLoop]
    cases round : belowRound n y with
    | some s => simp [round]
    | none => simp [round, ih]

section Words

variable {n : Word}

theorem toNat_pos (pos : n ≠ 0) : 0 < n.toNat :=
  Nat.pos_of_ne_zero fun zero => pos (BitVec.eq_of_toNat_eq zero)

theorem threshold_toNat (pos : n ≠ 0) : (threshold n).toNat = 2 ^ 64 % n.toNat := by
  have positive := toNat_pos pos
  have below := n.isLt
  have wraps : (2 ^ 64 - n.toNat) % 2 ^ 64 = 2 ^ 64 - n.toNat := Nat.mod_eq_of_lt (by omega)
  have whole : 2 ^ 64 - n.toNat + n.toNat = 2 ^ 64 := by omega
  rw [threshold, BitVec.toNat_umod, BitVec.toNat_neg, wraps, ← Nat.add_mod_right, whole]

theorem product_toNat (n x : Word) : (product n x).toNat = x.toNat * n.toNat := by
  have fits : x.toNat * n.toNat < 2 ^ 128 := by
    calc x.toNat * n.toNat < 2 ^ 64 * 2 ^ 64 := Nat.mul_lt_mul'' x.isLt n.isLt
      _ = 2 ^ 128 := by norm_num
  rw [product, BitVec.toNat_mul, BitVec.toNat_setWidth_of_le (by norm_num),
    BitVec.toNat_setWidth_of_le (by norm_num), Nat.mod_eq_of_lt fits]

theorem accepts_iff (pos : n ≠ 0) (x : Word) :
    threshold n ≤ (product n x).setWidth 64 ↔ AcceptsDraw n.toNat x.toNat := by
  have whole : (2 ^ 64 - n.toNat) % n.toNat = 2 ^ 64 % n.toNat := by
    have split : 2 ^ 64 - n.toNat + n.toNat = 2 ^ 64 := Nat.sub_add_cancel n.isLt.le
    rw [← Nat.add_mod_right, split]
  rw [AcceptsDraw, BitVec.le_def, threshold_toNat pos, BitVec.toNat_setWidth, product_toNat, whole]

theorem high_toNat (n x : Word) :
    ((product n x >>> 64).setWidth 64).toNat = x.toNat * n.toNat / 2 ^ 64 := by
  have small : x.toNat * n.toNat / 2 ^ 64 < 2 ^ 64 := by
    refine Nat.div_lt_of_lt_mul ?_
    exact Nat.mul_lt_mul'' x.isLt n.isLt
  rw [BitVec.toNat_setWidth, BitVec.toNat_ushiftRight, product_toNat, Nat.shiftRight_eq_div_pow,
    Nat.mod_eq_of_lt small]

theorem belowRound_eq_none_iff (pos : n ≠ 0) (x : Word) :
    belowRound n x = none ↔ ¬ AcceptsDraw n.toNat x.toNat := by
  rw [← accepts_iff pos]
  simp only [belowRound]
  split_ifs with accepted
  · simp [accepted]
  · simp [accepted]

theorem belowRound_spec (pos : n ≠ 0) (x r : Word) : belowRound n x = some r ↔
    AcceptsDraw n.toNat x.toNat ∧ x.toNat * n.toNat / 2 ^ 64 = r.toNat := by
  rw [← accepts_iff pos, ← high_toNat, BitVec.toNat_inj]
  simp only [belowRound]
  split_ifs with accepted
  · simp [accepted]
  · simp [accepted]

/-- A draw is mapped to `r` exactly if its product lies in the accepted part of the words whose
high half is `r`. -/
theorem belowRound_iff (pos : n ≠ 0) (x r : Word) : belowRound n x = some r ↔
    r.toNat * 2 ^ 64 + 2 ^ 64 % n.toNat ≤ x.toNat * n.toNat ∧
      x.toNat * n.toNat < (r.toNat + 1) * 2 ^ 64 := by
  have low : ((product n x).setWidth 64).toNat = x.toNat * n.toNat % 2 ^ 64 := by
    rw [BitVec.toNat_setWidth, product_toNat]
  have halves := Nat.div_add_mod (x.toNat * n.toNat) (2 ^ 64)
  have half := Nat.mod_lt (x.toNat * n.toNat) (show 0 < 2 ^ 64 by norm_num)
  rw [belowRound_spec pos, ← accepts_iff pos, BitVec.le_def, threshold_toNat pos, low]
  omega

def firstDraw (n r : Word) : ℕ := (r.toNat * 2 ^ 64 + 2 ^ 64 % n.toNat) ⌈/⌉ n.toNat

theorem accepted_end (n r : Word) : r.toNat * 2 ^ 64 + 2 ^ 64 % n.toNat +
    2 ^ 64 / n.toNat * n.toNat = (r.toNat + 1) * 2 ^ 64 := by
  have whole := Nat.div_add_mod (2 ^ 64) n.toNat
  rw [mul_comm] at whole
  omega

theorem belowRound_eq_some_iff (pos : n ≠ 0) (x r : Word) : belowRound n x = some r ↔
    x.toNat ∈ Finset.Ico (firstDraw n r) (firstDraw n r + 2 ^ 64 / n.toNat) := by
  rw [firstDraw, belowRound_iff pos, ← multiples_between (toNat_pos pos), accepted_end]

theorem belowRound_lt {x r : Word} (pos : n ≠ 0) (mapped : belowRound n x = some r) : r < n := by
  obtain ⟨low, -⟩ := (belowRound_iff pos x r).mp mapped
  have below : x.toNat * n.toNat < 2 ^ 64 * n.toNat := by
    have positive := toNat_pos pos
    exact Nat.mul_lt_mul_of_pos_right x.isLt positive
  rw [BitVec.lt_def]
  omega

theorem card_belowRound (pos : n ≠ 0) {r : Word} (below : r < n) :
    (Finset.univ.filter fun x => belowRound n x = some r).card = 2 ^ 64 / n.toNat := by
  have positive := toNat_pos pos
  have step : ∀ k, k ∈ Finset.Ico (firstDraw n r) (firstDraw n r + 2 ^ 64 / n.toNat) →
      k < 2 ^ 64 := by
    intro k hk
    obtain ⟨-, high⟩ := (multiples_between positive _ _ k).mpr hk
    rw [accepted_end] at high
    have next : r.toNat + 1 ≤ n.toNat := BitVec.lt_def.mp below
    have inside := Nat.mul_le_mul_right (2 ^ 64) next
    refine Nat.lt_of_mul_lt_mul_right (a := n.toNat) ?_
    omega
  calc (Finset.univ.filter fun x => belowRound n x = some r).card
    _ = (Finset.Ico (firstDraw n r) (firstDraw n r + 2 ^ 64 / n.toNat)).card := by
        refine Finset.card_nbij BitVec.toNat ?_ ?_ ?_
        · intro x hx
          exact (belowRound_eq_some_iff pos x r).mp (Finset.mem_filter.mp hx).2
        · exact fun x _ y _ same => BitVec.eq_of_toNat_eq same
        · intro k hk
          have word : (BitVec.ofNat 64 k).toNat = k := by
            rw [BitVec.toNat_ofNat, Nat.mod_eq_of_lt (step k hk)]
          refine ⟨BitVec.ofNat 64 k, Finset.mem_filter.mpr ⟨Finset.mem_univ _, ?_⟩, word⟩
          rw [belowRound_eq_some_iff pos, word]
          exact hk
    _ = 2 ^ 64 / n.toNat := by rw [Nat.card_Ico, Nat.add_sub_cancel_left]

theorem exists_accepted (pos : n ≠ 0) : ∃ x r, belowRound n x = some r := by
  have positive := toNat_pos pos
  have smallest : (0 : Word) < n := BitVec.lt_def.mpr positive
  have several : 0 < 2 ^ 64 / n.toNat := Nat.div_pos n.isLt.le positive
  rw [← card_belowRound pos smallest, Finset.card_pos] at several
  obtain ⟨x, mapped⟩ := several
  exact ⟨x, 0, (Finset.mem_filter.mp mapped).2⟩

end Words

/-- What makes `next_below` a uniform draw below `n`. -/
structure UniformBelow (n : Word) : Prop where
  below : ∀ x r, belowRound n x = some r → r < n
  even : ∀ r, r < n → (Finset.univ.filter fun x => belowRound n x = some r).card = 2 ^ 64 / n.toNat
  accepts : ∃ x r, belowRound n x = some r
  /-- It answers with what its first accepted draw is mapped to. -/
  first : ∀ draws r rest, nextBelowFrom n draws = some (some r, rest) ↔
    ∃ rejected x, draws = rejected ++ x :: rest ∧ (∀ y ∈ rejected, belowRound n y = none) ∧
      belowRound n x = some r
  /-- Whatever has been drawn, it can still finish. -/
  finishes : ∀ draws, ∃ more r rest, nextBelowFrom n (draws ++ more) = some (some r, rest)

/-- `next_below` is exactly uniform, below every bound but zero. -/
theorem next_below_uniform (n : Word) (pos : n ≠ 0) : UniformBelow n := by
  have first : ∀ draws r rest, nextBelowFrom n draws = some (some r, rest) ↔
      ∃ rejected x, draws = rejected ++ x :: rest ∧ (∀ y ∈ rejected, belowRound n y = none) ∧
        belowRound n x = some r := by
    intro draws r rest
    rw [← belowLoop_eq_some_iff]
    rw [nextBelowFrom, if_neg pos]
    simp
  refine ⟨fun x r => belowRound_lt pos, fun r => card_belowRound pos, exists_accepted pos, first,
    ?_⟩
  intro draws
  obtain ⟨x, r, accepted⟩ := exists_accepted pos
  cases answer : belowLoop n draws with
  | some drawn =>
    obtain ⟨s, rest⟩ := drawn
    exact ⟨[], s, rest, (first _ s rest).mpr (by
      rw [List.append_nil]
      exact (belowLoop_eq_some_iff n draws s rest).mp answer)⟩
  | none =>
    have each := (belowLoop_eq_none_iff n draws).mp answer
    exact ⟨[x], r, [], (first _ r []).mpr ⟨draws, x, rfl, each, accepted⟩⟩

theorem three_uniform : (3 : Word) ≠ 0 ∧ UniformBelow 3 :=
  ⟨by decide, next_below_uniform 3 (by decide)⟩

/-- A zero word is rejected for a bound of three, and the value after it is taken. -/
example : nextBelowFrom 3 [0, BitVec.allOnes 64, 5] = some (some 2, [5]) := by decide

end Rng
end OpenNtl
