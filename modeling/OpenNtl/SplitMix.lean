import OpenNtl.Signal
import OpenNtl.UniformDraws
import OpenNtl.WordMixing

/-! # The statistical generator

It passes through all of its states, and gives every word once, before it repeats itself. Loops
that wait for a draw of some kind therefore end.
-/
namespace OpenNtl

open WordMixing

/-- A small, well-distributed generator that is not a cryptographic one. -/
structure SplitMix64 where
  state : Word
  deriving DecidableEq, Repr

namespace SplitMix64

def golden : Word := 0x9E3779B97F4A7C15

def seeded (seed : Word) : SplitMix64 := ⟨seed⟩

def fromLeBytes (chunk : Bytes) : Word :=
  BitVec.ofNat 64 (chunk.foldr (fun b n => b.toNat + 256 * n) 0)

def fromIdentity (nodeId : Bytes) (nowNs : Word) : SplitMix64 :=
  ⟨(nodeId.toChunks 8).foldl (fun state chunk => (state ^^^ fromLeBytes chunk) * golden) nowNs⟩

def output (state : Word) : Word :=
  let z := (state ^^^ (state >>> 30)) * 0xBF58476D1CE4E5B9
  let z := (z ^^^ (z >>> 27)) * 0x94D049BB133111EB
  z ^^^ (z >>> 31)

def nextU64 (r : SplitMix64) : Word × SplitMix64 :=
  (output (r.state + golden), ⟨r.state + golden⟩)

def advance (r : SplitMix64) : ℕ → SplitMix64
  | 0 => r
  | n + 1 => (r.advance n).nextU64.2

def draw (r : SplitMix64) (n : ℕ) : Word := (r.advance n).nextU64.1

theorem golden_inverse : golden * 0xF1DE83E19937733D = 1 := by decide

def stateOf (y : Word) : Word :=
  let z := unxorShift 31 y 2 * 0x319642B2D24D8EC3
  let z := unxorShift 27 z 2 * 0x96DE1B173F119089
  unxorShift 30 z 2

theorem stateOf_output (state : Word) : stateOf (output state) = state := by
  have first : (0xBF58476D1CE4E5B9 : Word) * 0x96DE1B173F119089 = 1 := by decide
  have second : (0x94D049BB133111EB : Word) * 0x319642B2D24D8EC3 = 1 := by decide
  have mixed : output state = xorShift 31 (xorShift 27
      (xorShift 30 state * 0xBF58476D1CE4E5B9) * 0x94D049BB133111EB) := rfl
  rw [mixed]
  simp only [stateOf]
  rw [unxorShift_xorShift (by decide), mul_assoc, second, mul_one,
    unxorShift_xorShift (by decide), mul_assoc, first, mul_one, unxorShift_xorShift (by decide)]

theorem output_injective : Function.Injective output :=
  Function.LeftInverse.injective stateOf_output

theorem advance_state (r : SplitMix64) (n : ℕ) : (r.advance n).state = walk golden r.state n := by
  induction n with
  | zero => exact (walk_zero golden r.state).symm
  | succ n ih =>
    rw [walk_add, walk_one, ← ih]
    rfl

theorem draw_eq (r : SplitMix64) (n : ℕ) : r.draw n = output (walk golden (r.state + golden) n) := by
  rw [draw, nextU64, advance_state, ← walk_one golden (walk golden r.state n), ← walk_add,
    ← walk_one golden r.state, ← walk_add, Nat.add_comm]

theorem draw_window (r : SplitMix64) (first : ℕ) (x : Word) :
    ∃! i, i < 2 ^ 64 ∧ r.draw (first + i) = x := by
  obtain ⟨state, rfl⟩ := Finite.surjective_of_injective output_injective x
  simp only [draw_eq, output_injective.eq_iff]
  exact walk_window golden_inverse _ first state

theorem draw_eq_iff (r : SplitMix64) (m n : ℕ) : r.draw m = r.draw n ↔ m ≡ n [MOD 2 ^ 64] := by
  rw [draw_eq, draw_eq, output_injective.eq_iff, walk_eq_iff golden_inverse]

theorem draw_inj (r r' : SplitMix64) (n : ℕ) : r.draw n = r'.draw n ↔ r = r' := by
  constructor
  · intro same
    rw [draw_eq, draw_eq, output_injective.eq_iff, walk, walk, add_left_inj, add_left_inj] at same
    cases r
    cases r'
    exact congrArg SplitMix64.mk same
  · exact fun same => congrArg (fun r => r.draw n) same

theorem fromIdentity_bijective (nodeId : Bytes) :
    Function.Bijective fun nowNs => (fromIdentity nodeId nowNs).state := by
  have each : ∀ chunks : List Bytes, Function.Injective fun nowNs : Word =>
      chunks.foldl (fun state chunk => (state ^^^ fromLeBytes chunk) * golden) nowNs := by
    intro chunks
    induction chunks with
    | nil => exact Function.injective_id
    | cons chunk rest ih =>
      have stir : Function.Injective fun state : Word => (state ^^^ fromLeBytes chunk) * golden :=
        (mul_bijective golden_inverse).injective.comp (xor_bijective _).injective
      exact ih.comp stir
  exact Finite.injective_iff_bijective.mp (each _)

end SplitMix64

namespace Rng

theorem card_below (n : Word) : (Finset.univ.filter fun r : Word => r < n).card = n.toNat := by
  have numbers : (Finset.range n.toNat).card = n.toNat := Finset.card_range _
  rw [← numbers]
  refine Finset.card_nbij BitVec.toNat ?_ ?_ ?_
  · intro r hr
    exact Finset.mem_coe.mpr (Finset.mem_range.mpr (BitVec.lt_def.mp (Finset.mem_filter.mp hr).2))
  · exact fun r _ r' _ same => BitVec.eq_of_toNat_eq same
  · intro k hk
    have below : k < n.toNat := Finset.mem_range.mp hk
    have word : (BitVec.ofNat 64 k).toNat = k := by
      rw [BitVec.toNat_ofNat, Nat.mod_eq_of_lt (below.trans n.isLt)]
    refine ⟨BitVec.ofNat 64 k, Finset.mem_filter.mpr ⟨Finset.mem_univ _, ?_⟩, word⟩
    rw [BitVec.lt_def, word]
    exact below

theorem card_rejected {n : Word} (pos : n ≠ 0) :
    (Finset.univ.filter fun x => belowRound n x = none).card = 2 ^ 64 % n.toNat := by
  have results : (Finset.univ.filter fun x => ¬ belowRound n x = none).card =
      n.toNat * (2 ^ 64 / n.toNat) := by
    have mapped : ∀ x ∈ Finset.univ.filter fun x => ¬ belowRound n x = none,
        belowRound n x ∈ (Finset.univ.filter fun r : Word => r < n).map .some := by
      intro x hx
      obtain ⟨r, accepted⟩ := Option.ne_none_iff_exists'.mp (Finset.mem_filter.mp hx).2
      rw [accepted]
      refine Finset.mem_map_of_mem .some ?_
      exact Finset.mem_filter.mpr ⟨Finset.mem_univ r, belowRound_lt pos accepted⟩
    rw [Finset.card_eq_sum_card_fiberwise mapped, Finset.sum_map]
    have each : ∀ r ∈ Finset.univ.filter fun r : Word => r < n,
        ((Finset.univ.filter fun x => ¬ belowRound n x = none).filter fun x =>
          belowRound n x = some r).card = 2 ^ 64 / n.toNat := by
      intro r hr
      rw [← card_belowRound pos (Finset.mem_filter.mp hr).2, Finset.filter_filter]
      refine congrArg Finset.card (Finset.filter_congr fun x _ => ?_)
      constructor
      · exact fun both => both.2
      · exact fun accepted => ⟨by rw [accepted]; exact Option.some_ne_none r, accepted⟩
    refine (Finset.sum_congr rfl each).trans ?_
    rw [Finset.sum_const, smul_eq_mul, card_below]
  have all := Finset.card_filter_add_card_filter_not (s := (Finset.univ : Finset Word))
    fun x => belowRound n x = none
  have words : (Finset.univ : Finset Word).card = 2 ^ 64 := by
    rw [Finset.card_univ, ← FinEnum.card_eq_fintypeCard, FinEnum.card_bitVec]
  have whole := Nat.div_add_mod (2 ^ 64) n.toNat
  omega

end Rng

namespace SplitMix64

/-- From any state, `next_below` answers after at most `2 ^ 64 mod n` rejected draws. -/
theorem below_answers (r : SplitMix64) {n : Word} (pos : n ≠ 0) : ∃ x rest,
    Rng.nextBelowFrom n ((List.range (2 ^ 64 % n.toNat + 1)).map r.draw) = some (some x, rest) := by
  have few : 2 ^ 64 % n.toNat < 2 ^ 64 :=
    (Nat.mod_lt _ (Rng.toNat_pos pos)).trans n.isLt
  cases answer : Rng.belowLoop n ((List.range (2 ^ 64 % n.toNat + 1)).map r.draw) with
  | some drawn =>
    refine ⟨drawn.1, drawn.2, ?_⟩
    rw [Rng.nextBelowFrom, if_neg pos, answer]
    rfl
  | none =>
    -- More different words than are ever rejected.
    have each := (Rng.belowLoop_eq_none_iff n _).mp answer
    have inside : (Finset.range (2 ^ 64 % n.toNat + 1)).image r.draw ⊆
        Finset.univ.filter fun x => Rng.belowRound n x = none := by
      intro x hx
      obtain ⟨i, hi, rfl⟩ := Finset.mem_image.mp hx
      refine Finset.mem_filter.mpr ⟨Finset.mem_univ _, each _ ?_⟩
      exact List.mem_map_of_mem (List.mem_range.mpr (Finset.mem_range.mp hi))
    have apart : Set.InjOn r.draw (Finset.range (2 ^ 64 % n.toNat + 1)) := by
      intro i hi j hj same
      have hi := Finset.mem_range.mp (Finset.mem_coe.mp hi)
      have hj := Finset.mem_range.mp (Finset.mem_coe.mp hj)
      exact Nat.ModEq.eq_of_lt_of_lt ((r.draw_eq_iff i j).mp same) (by omega) (by omega)
    have counted := Finset.card_le_card inside
    rw [Finset.card_image_of_injOn apart, Finset.card_range, Rng.card_rejected pos] at counted
    omega

def source (r : SplitMix64) : Rng where
  draws i := (r.draw i).toNat
  bounded i := (r.draw i).isLt
  accepting n pos below k := by
    have word : (BitVec.ofNat 64 n).toNat = n := by
      rw [BitVec.toNat_ofNat, Nat.mod_eq_of_lt below]
    have nonzero : BitVec.ofNat 64 n ≠ 0 := by
      intro zero
      rw [zero] at word
      exact absurd word.symm (Nat.pos_iff_ne_zero.mp pos)
    obtain ⟨x, result, accepted⟩ := Rng.exists_accepted nonzero
    obtain ⟨i, ⟨-, here⟩, -⟩ := r.draw_window k x
    have taken := ((Rng.belowRound_spec nonzero x result).mp accepted).1
    rw [word, ← here] at taken
    exact ⟨i, taken⟩

theorem advance_advance (r : SplitMix64) (m n : ℕ) :
    (r.advance m).advance n = r.advance (m + n) := by
  induction n with
  | zero => rfl
  | succ n ih => exact congrArg (fun r => r.nextU64.2) ih

theorem source_skip (r : SplitMix64) (k : ℕ) : r.source.skip k = (r.advance k).source := by
  apply Rng.eq_of_draws
  funext i
  show (r.draw (k + i)).toNat = ((r.advance k).draw i).toNat
  rw [draw, draw, advance_advance]

theorem source_nextU64 (r : SplitMix64) :
    r.source.nextU64 = (r.nextU64.1.toNat, r.nextU64.2.source) :=
  Prod.ext rfl (r.source_skip 1)

/-- What makes the generator a fair one, from whatever state. -/
structure FullPeriod (r : SplitMix64) : Prop where
  /-- Any `2 ^ 64` draws in a row are all the words there are. -/
  window : ∀ first x, ∃! i, i < 2 ^ 64 ∧ r.draw (first + i) = x
  period : ∀ i j, r.draw i = r.draw j ↔ i ≡ j [MOD 2 ^ 64]
  apart : ∀ r' i, r.draw i = r'.draw i ↔ r = r'
  /-- Bounded draws end, within fewer rejections than the bound. -/
  answers : ∀ n : Word, n ≠ 0 → ∃ x rest, Rng.nextBelowFrom n
    ((List.range (2 ^ 64 % n.toNat + 1)).map r.draw) = some (some x, rest)

/-- The generator has its full period, and a node that starts at different times never draws
alike. -/
theorem full_period : (∀ r, FullPeriod r) ∧ ∀ nodeId nowNs later i,
    (fromIdentity nodeId nowNs).draw i = (fromIdentity nodeId later).draw i ↔ nowNs = later := by
  refine ⟨fun r => ⟨r.draw_window, r.draw_eq_iff, r.draw_inj, fun n pos => r.below_answers pos⟩, ?_⟩
  intro nodeId nowNs later i
  rw [draw_inj]
  constructor
  · exact fun same => (fromIdentity_bijective nodeId).injective (congrArg state same)
  · exact fun same => congrArg (fromIdentity nodeId) same

example : (seeded 0).draw 0 = 0xE220A8397B1DCDAF := by decide

end SplitMix64
end OpenNtl
