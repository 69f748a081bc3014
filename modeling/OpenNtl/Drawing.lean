import OpenNtl.StreamReader
import OpenNtl.UniformDraws

/-! # Programs that draw from a source

The provided methods of `Rng`, over the values that `next_u64` gives. A draw below a bound may
reject all of them, so a program need not return. -/
namespace OpenNtl

/-- Where a program waits is the bound of the `next_below` that it is in, if any. -/
abbrev Drawing : Type → Type := StreamReader Word (Option Word)

namespace Rng

def prepend : List Word → Rng → Rng
  | [], r => r
  | x :: xs, r => cons x.toNat x.isLt (prepend xs r)

theorem prepend_append (xs ys : List Word) (r : Rng) :
    prepend (xs ++ ys) r = prepend xs (prepend ys r) := by
  induction xs with
  | nil => rfl
  | cons x xs ih =>
    rw [List.cons_append, prepend, prepend, ih]

theorem skip_add (r : Rng) (k i : ℕ) : (r.skip k).skip i = r.skip (k + i) := by
  unfold skip
  simp only [Nat.add_assoc]

section Below

variable {n : Word} {x : Word}

theorem nextBelow_reject (pos : n ≠ 0) (rejected : belowRound n x = none) (r : Rng) :
    (cons x.toNat x.isLt r).nextBelow n.toNat = r.nextBelow n.toNat := by
  have bound : 0 < n.toNat ∧ n.toNat < 2 ^ 64 := ⟨toNat_pos pos, n.isLt⟩
  have refused := (belowRound_eq_none_iff pos x).mp rejected
  let source := cons x.toNat x.isLt r
  have later : ∀ i, source.draws (0 + (i + 1)) = r.draws (0 + i) := by
    intro i
    rw [← cons_skip x.toNat x.isLt r]
    show source.draws (0 + (i + 1)) = source.draws (1 + (0 + i))
    congr 1
    omega
  have step : Nat.find (source.accepting n.toNat bound.1 bound.2 0) =
      Nat.find (r.accepting n.toNat bound.1 bound.2 0) + 1 := by
    have shifted : ∃ i, AcceptsDraw n.toNat (source.draws (0 + (i + 1))) := by
      simpa only [later] using r.accepting n.toNat bound.1 bound.2 0
    rw [Nat.find_comp_succ _ shifted refused]
    simp only [later]
  rw [nextBelow, nextBelow, dif_pos bound, dif_pos bound]
  dsimp only
  have rest : source.skip (Nat.find (r.accepting n.toNat bound.1 bound.2 0) + 1 + 1) =
      r.skip (Nat.find (r.accepting n.toNat bound.1 bound.2 0) + 1) := by
    rw [← cons_skip x.toNat x.isLt r, skip_add, Nat.add_comm 1]
  rw [step, later, rest]

theorem nextBelow_accept (pos : n ≠ 0) {s : Word} (accepted : belowRound n x = some s) (r : Rng) :
    (cons x.toNat x.isLt r).nextBelow n.toNat = (some s.toNat, r) := by
  have bound : 0 < n.toNat ∧ n.toNat < 2 ^ 64 := ⟨toNat_pos pos, n.isLt⟩
  obtain ⟨taken, value⟩ := (belowRound_spec pos x s).mp accepted
  let source := cons x.toNat x.isLt r
  have now : Nat.find (source.accepting n.toNat bound.1 bound.2 0) = 0 :=
    (Nat.find_eq_zero _).mpr taken
  rw [nextBelow, dif_pos bound]
  dsimp only
  rw [now, cons_skip]
  exact Prod.ext (congrArg some value) rfl

theorem nextBelow_prepend (pos : n ≠ 0) {s : Word} (accepted : belowRound n x = some s)
    {rejected : List Word} (each : ∀ y ∈ rejected, belowRound n y = none) (r : Rng) :
    (prepend (rejected ++ [x]) r).nextBelow n.toNat = (some s.toNat, r) := by
  induction rejected with
  | nil => exact nextBelow_accept pos accepted r
  | cons y rejected ih =>
    rw [List.cons_append, prepend, nextBelow_reject pos (each y List.mem_cons_self)]
    exact ih fun z hz => each z (List.mem_cons_of_mem y hz)

end Below

end Rng

namespace Drawing

open StreamReader

variable {F : Type} [Scalar F] {α β : Type}

def nextU64 : Drawing Word := fun draws =>
  match draws with
  | [] => .error (.waits none)
  | x :: rest => .ok (x, rest)

def nextF32 : Drawing F := do
  let x ← nextU64
  return Scalar.lit ((x >>> 40).toNat / 16777216)

def nextBelow (n : ℕ) : Drawing (Option ℕ) :=
  if n < 2 ^ 64 then fun draws =>
    match Rng.nextBelowFrom (BitVec.ofNat 64 n) draws with
    | some (r, rest) => .ok (r.map BitVec.toNat, rest)
    | none => .error (.waits (some (BitVec.ofNat 64 n)))
  else pure none

/-- From some value on the program is inside a `next_below` that rejects every further one. -/
def Rejects (p : Drawing α) (source : ℕ → Word) (bound : ℕ) : Prop :=
  ∃ m b, b ≠ 0 ∧ b.toNat ≤ bound ∧ (∀ i, m ≤ i → Rng.belowRound b (source i) = none) ∧
    Stalls p source m (some b)

/-- The program returns what `f` does of a source that gives the values it takes, unless a draw
below `bound` never ends. -/
def Follows (p : Drawing α) (f : Rng → α × Rng) (bound : ℕ) : Prop :=
  ∀ source, (∃ m a, Returns p source m a ∧ ∀ r, f (r.prepend (first m source)) = (a, r)) ∨
    Rejects p source bound

section Rules

variable {p : Drawing α} {f : Rng → α × Rng} {q : α → Drawing β} {g : α → Rng → β × Rng} {bound : ℕ}

theorem follows_pure (a : α) (bound : ℕ) : Follows (pure a) (fun r => (a, r)) bound :=
  fun source => Or.inl ⟨0, a, returns_pure a source, fun _ => rfl⟩

theorem Rejects.bind {source : ℕ → Word} (rejects : Rejects p source bound) :
    Rejects (p >>= q) source bound := by
  obtain ⟨m, b, pos, small, refused, stalls⟩ := rejects
  exact ⟨m, b, pos, small, refused, stalls.bind⟩

theorem Rejects.after {source : ℕ → Word} {m : ℕ} {a : α} (returns : Returns p source m a)
    (rejects : Rejects (q a) (StreamReader.after m source) bound) :
    Rejects (p >>= q) source bound := by
  obtain ⟨j, b, pos, small, refused, stalls⟩ := rejects
  refine ⟨m + j, b, pos, small, ?_, returns.bind_stalls stalls⟩
  intro i late
  obtain ⟨k, rfl⟩ := Nat.exists_eq_add_of_le (show m ≤ i by omega)
  exact refused k (by omega)

theorem Rejects.safe {source : ℕ → Word} (rejects : Rejects p source bound) (i : ℕ) :
    p.run (first i source) ≠ .error .panics := by
  obtain ⟨m, b, -, -, -, stalls⟩ := rejects
  exact stalls.safe i

theorem not_rejects {source : ℕ → Word}
    (accepting : ∀ b : Word, b ≠ 0 → ∀ m, ∃ i, m ≤ i ∧ Rng.belowRound b (source i) ≠ none) :
    ¬ Rejects p source bound := by
  rintro ⟨m, b, pos, -, refused, -⟩
  obtain ⟨i, late, accepted⟩ := accepting b pos m
  exact accepted (refused i late)

theorem Follows.bind (start : Follows p f bound)
    (next : ∀ a, (∃ r, (f r).1 = a) → Follows (q a) (g a) bound) :
    Follows (p >>= q) (fun r => g (f r).1 (f r).2) bound := by
  intro source
  rcases start source with ⟨m, a, returns, value⟩ | rejects
  · have reached : ∃ r, (f r).1 = a := ⟨_, congrArg Prod.fst (value Rng.maximal)⟩
    rcases next a reached (after m source) with ⟨i, b, returns', value'⟩ | rejects
    · refine Or.inl ⟨m + i, b, returns.bind returns', ?_⟩
      intro r
      dsimp only
      rw [first_add, Rng.prepend_append, value]
      exact value' r
    · exact Or.inr (rejects.after returns)
  · exact Or.inr rejects.bind

theorem nextF32_follows (bound : ℕ) : Follows (nextF32 (F := F)) Rng.nextF32 bound := by
  intro source
  refine Or.inl ⟨1, Scalar.lit ((source 0 >>> 40).toNat / 16777216), ⟨?_, fun _ => rfl⟩, ?_⟩
  · intro i early
    obtain rfl : i = 0 := by omega
    exact ⟨none, rfl⟩
  · intro r
    have high : (source 0 >>> 40).toNat = (source 0).toNat / 2 ^ 40 := by
      rw [BitVec.toNat_ushiftRight, Nat.shiftRight_eq_div_pow]
    rw [high]
    exact Prod.ext rfl (Rng.cons_skip _ _ _)

section Below

variable {b : Word} (pos : b ≠ 0)
include pos

theorem nextBelow_run (draws : List Word) : (nextBelow b.toNat).run draws =
    match Rng.belowLoop b draws with
    | some (r, rest) => .ok (some r.toNat, rest)
    | none => .error (.waits (some b)) := by
  have word : BitVec.ofNat 64 b.toNat = b := by simp
  unfold nextBelow Rng.nextBelowFrom
  rw [if_pos b.isLt, word]
  dsimp only [StateT.run]
  rw [if_neg pos]
  cases Rng.belowLoop b draws with
  | none => rfl
  | some drawn => rfl

theorem nextBelow_waits {draws : List Word} (each : ∀ x ∈ draws, Rng.belowRound b x = none) :
    (nextBelow b.toNat).run draws = .error (.waits (some b)) := by
  rw [nextBelow_run pos, (Rng.belowLoop_eq_none_iff b draws).mpr each]

theorem nextBelow_returns {rejected : List Word} {x r : Word}
    (each : ∀ y ∈ rejected, Rng.belowRound b y = none) (accepted : Rng.belowRound b x = some r)
    (rest : List Word) :
    (nextBelow b.toNat).run (rejected ++ x :: rest) = .ok (some r.toNat, rest) := by
  have answer := (Rng.belowLoop_eq_some_iff b _ r rest).mpr ⟨rejected, x, rfl, each, accepted⟩
  rw [nextBelow_run pos, answer]

theorem nextBelow_ends {source : ℕ → Word} (ends : ∃ i r, Rng.belowRound b (source i) = some r) :
    ∃ m a, Returns (nextBelow b.toNat) source m a ∧
      ∀ r : Rng, (r.prepend (first m source)).nextBelow b.toNat = (a, r) := by
  obtain ⟨r, accepted⟩ := Nat.find_spec ends
  have rejected : ∀ y ∈ first (Nat.find ends) source, Rng.belowRound b y = none := by
    intro y hy
    obtain ⟨j, early, rfl⟩ := mem_first.mp hy
    have earlier := Nat.find_min ends early
    exact Option.eq_none_iff_forall_ne_some.mpr fun r mapped => earlier ⟨r, mapped⟩
  refine ⟨Nat.find ends + 1, some r.toNat, ⟨?_, ?_⟩, ?_⟩
  · intro j early
    refine ⟨some b, nextBelow_waits pos ?_⟩
    intro y hy
    obtain ⟨k, lower, rfl⟩ := mem_first.mp hy
    exact rejected _ (mem_first.mpr ⟨k, by omega, rfl⟩)
  · intro more
    rw [first_succ, List.append_assoc]
    exact nextBelow_returns pos rejected accepted more
  · intro r'
    rw [first_succ]
    exact Rng.nextBelow_prepend pos accepted rejected r'

theorem nextBelow_rejects {source : ℕ → Word}
    (refused : ∀ i, Rng.belowRound b (source i) = none) (small : b.toNat ≤ bound) :
    Rejects (nextBelow b.toNat) source bound := by
  refine ⟨0, b, pos, small, fun i _ => refused i, ?_, ?_⟩
  · intro i early
    omega
  · intro i _
    refine nextBelow_waits pos ?_
    intro y hy
    obtain ⟨k, -, rfl⟩ := mem_first.mp hy
    exact refused k

end Below

theorem nextBelow_none {n : ℕ} (outside : ¬ (0 < n ∧ n < 2 ^ 64)) : nextBelow n = pure none := by
  unfold nextBelow
  split_ifs with word
  · obtain rfl : n = 0 := by omega
    rfl
  · rfl

theorem nextBelow_follows {n : ℕ} (small : n ≤ bound) :
    Follows (nextBelow n) (fun r => r.nextBelow n) bound := by
  by_cases inside : 0 < n ∧ n < 2 ^ 64
  · obtain ⟨b, rfl⟩ : ∃ b : Word, b.toNat = n :=
      ⟨BitVec.ofNat 64 n, by rw [BitVec.toNat_ofNat, Nat.mod_eq_of_lt inside.2]⟩
    have pos : b ≠ 0 := by
      rintro rfl
      exact absurd inside.1 (lt_irrefl 0)
    intro source
    by_cases ends : ∃ i r, Rng.belowRound b (source i) = some r
    · exact Or.inl (nextBelow_ends pos ends)
    · refine Or.inr (nextBelow_rejects pos (fun i => ?_) small)
      exact Option.eq_none_iff_forall_ne_some.mpr fun r mapped => ends ⟨i, r, mapped⟩
  · have same : (fun r : Rng => r.nextBelow n) = fun r => (Option.none, r) := by
      funext r
      exact dif_neg inside
    rw [nextBelow_none inside, same]
    exact follows_pure _ bound

end Rules

end Drawing
end OpenNtl
