import OpenNtl.Learning

/-! # Decay over exact arithmetic -/
namespace OpenNtl

/-- What the configuration check promises about the numbers used here. -/
structure Sound (c : LearningConfig ℝ) : Prop where
  rate : 0 < c.learningRate
  halfLife : 0 < c.decayHalfLifeHours
  floor : 0 < c.minWeight
  ceiling : c.minWeight < c.maxWeight
  budget : c.maxWeight < c.maxTotalOutboundWeight
  penalty : 0 < c.signatureFailurePenalty
  penalty_le : c.signatureFailurePenalty ≤ 1

variable {c : LearningConfig ℝ}

theorem Sound.of_validate (checked : c.validate = .ok ()) : Sound c := by
  unfold LearningConfig.validate at checked
  split_ifs at checked with rate halfLife temperature floor budget cap penalty
  push Not at halfLife floor budget
  exact ⟨rate.1, halfLife, floor.1, floor.2, budget, penalty.1, penalty.2⟩

theorem forClass_validate (deployment : DeploymentClass) :
    (LearningConfig.forClass deployment : LearningConfig ℝ).validate = .ok () := by
  cases deployment <;> norm_num [LearningConfig.forClass, LearningConfig.validate, Scalar.lit]

noncomputable def retention (c : LearningConfig ℝ) (ns : ℕ) : ℝ :=
  Scalar.exp2 (-nsToHours ns / c.decayHalfLifeHours)

theorem retention_eq (c : LearningConfig ℝ) (ns : ℕ) :
    retention c ns = (2 : ℝ) ^ (-(nsToHours (F := ℝ) ns) / c.decayHalfLifeHours) := rfl

theorem nsToHours_eq (ns : ℕ) : nsToHours (F := ℝ) ns = ns / 3600000000000 := by
  unfold nsToHours
  simp only [Scalar.lit, nanosPerSec]
  push_cast
  norm_num

theorem retention_pos (c : LearningConfig ℝ) (ns : ℕ) : 0 < retention c ns :=
  Real.rpow_pos_of_pos two_pos _

theorem retention_add (c : LearningConfig ℝ) (a b : ℕ) :
    retention c (a + b) = retention c a * retention c b := by
  rw [retention_eq, retention_eq, retention_eq, ← Real.rpow_add two_pos, nsToHours_eq, nsToHours_eq, nsToHours_eq]
  congr 1
  push_cast
  ring

theorem retention_lt_one (h : Sound c) {ns : ℕ} (some : 0 < ns) : retention c ns < 1 := by
  rw [retention_eq]
  have elapsed : 0 < nsToHours (F := ℝ) ns := by
    rw [nsToHours_eq]
    have : (0 : ℝ) < ns := by exact_mod_cast some
    positivity
  refine Real.rpow_lt_one_of_one_lt_of_neg one_lt_two ?_
  exact div_neg_of_neg_of_pos (neg_neg_of_pos elapsed) h.halfLife

theorem decayedWeight_of_le (w : ℝ) {la now : ℕ} (h : now ≤ la) :
    decayedWeight w la now c = w := by
  unfold decayedWeight
  rw [if_pos h]

theorem decayedWeight_of_lt (w : ℝ) {la now : ℕ} (h : la < now) :
    decayedWeight w la now c = max (w * retention c (now - la)) c.minWeight := by
  unfold decayedWeight
  rw [if_neg (Nat.not_le.mpr h)]
  rfl

/-- Decay in two spans is decay in one: the time at which a weight is read does not matter. -/
theorem decayedWeight_decayedWeight (h : Sound c) (w : ℝ) {la t now : ℕ} (later : t ≤ now) :
    decayedWeight (decayedWeight w la t c) (max t la) now c = decayedWeight w la now c := by
  by_cases first : t ≤ la
  · rw [decayedWeight_of_le w first, max_eq_right first]
  · have active : la < t := Nat.lt_of_not_le first
    rw [max_eq_left active.le]
    by_cases second : now ≤ t
    · obtain rfl : now = t := le_antisymm second later
      rw [decayedWeight_of_le _ (le_refl now)]
    · have passes : t < now := Nat.lt_of_not_le second
      rw [decayedWeight_of_lt _ passes, decayedWeight_of_lt _ active,
        decayedWeight_of_lt _ (active.trans passes)]
      have spans : now - la = (t - la) + (now - t) := by omega
      have positive := (retention_pos c (now - t)).le
      have floor : c.minWeight * retention c (now - t) ≤ c.minWeight :=
        mul_le_of_le_one_right h.floor.le (retention_lt_one h (by omega)).le
      rw [spans, retention_add, max_mul_of_nonneg _ _ positive, max_assoc, max_eq_right floor,
        mul_assoc]

theorem decayedWeight_scale (h : Sound c) (w : ℝ) {q : ℝ} (nonneg : 0 ≤ q) (le_one : q ≤ 1)
    (la now : ℕ) :
    decayedWeight (max (w * q) c.minWeight) la now c =
      max (decayedWeight w la now c * q) c.minWeight := by
  by_cases still : now ≤ la
  · rw [decayedWeight_of_le _ still, decayedWeight_of_le _ still]
  · have passes : la < now := Nat.lt_of_not_le still
    rw [decayedWeight_of_lt _ passes, decayedWeight_of_lt _ passes]
    have positive := (retention_pos c (now - la)).le
    have floor : c.minWeight * retention c (now - la) ≤ c.minWeight :=
      mul_le_of_le_one_right h.floor.le (retention_lt_one h (by omega)).le
    have floor' : c.minWeight * q ≤ c.minWeight := mul_le_of_le_one_right h.floor.le le_one
    rw [max_mul_of_nonneg _ _ positive, max_assoc, max_eq_right floor, max_mul_of_nonneg _ _ nonneg,
      max_assoc, max_eq_right floor', mul_right_comm]

/-- A weight has accrued no decay: it was active at this reading, or it is at the floor. -/
def Undecayed (c : LearningConfig ℝ) (w : ℝ) (la now : ℕ) : Prop := now ≤ la ∨ w = c.minWeight

theorem Undecayed.decayedWeight_eq (h : Sound c) {w : ℝ} {la now : ℕ}
    (fresh : Undecayed c w la now) : decayedWeight w la now c = w := by
  rcases fresh with still | rfl
  · exact decayedWeight_of_le w still
  · by_cases still : now ≤ la
    · exact decayedWeight_of_le _ still
    · have passes : la < now := Nat.lt_of_not_le still
      rw [decayedWeight_of_lt _ passes, max_eq_right]
      exact mul_le_of_le_one_right h.floor.le (retention_lt_one h (by omega)).le

theorem decayedWeight_le (h : Sound c) {w : ℝ} (floored : c.minWeight ≤ w) (la now : ℕ) :
    decayedWeight w la now c ≤ w := by
  by_cases still : now ≤ la
  · rw [decayedWeight_of_le _ still]
  · have passes : la < now := Nat.lt_of_not_le still
    rw [decayedWeight_of_lt _ passes]
    refine max_le ?_ floored
    exact mul_le_of_le_one_right (h.floor.le.trans floored) (retention_lt_one h (by omega)).le

/-- Decay leaves a weight alone exactly when no time has passed or it is at the floor. -/
theorem decayedWeight_eq_iff {c : LearningConfig ℝ} (h : Sound c) {w : ℝ} {la now : ℕ} :
    decayedWeight w la now c = w ↔ Undecayed c w la now := by
  constructor
  · intro same
    by_cases still : now ≤ la
    · exact Or.inl still
    · have passes : la < now := Nat.lt_of_not_le still
      rw [decayedWeight_of_lt _ passes] at same
      have floored : c.minWeight ≤ w := by
        rw [← same]
        exact le_max_right _ _
      have less : w * retention c (now - la) < w :=
        mul_lt_of_lt_one_right (h.floor.trans_le floored) (retention_lt_one h (by omega))
      rcases max_choice (w * retention c (now - la)) c.minWeight with left | right
      · rw [left] at same
        exact absurd same less.ne
      · exact Or.inr (same.symm.trans right)
  · exact Undecayed.decayedWeight_eq h

theorem retention_le_one (h : Sound c) (ns : ℕ) : retention c ns ≤ 1 := by
  rcases Nat.eq_zero_or_pos ns with rfl | some
  · rw [retention_eq, nsToHours_eq]
    simp
  · exact (retention_lt_one h some).le

theorem retention_anti (h : Sound c) {a b : ℕ} (less : a ≤ b) : retention c b ≤ retention c a := by
  obtain ⟨d, rfl⟩ := Nat.exists_eq_add_of_le less
  rw [retention_add]
  exact mul_le_of_le_one_right (retention_pos c a).le (retention_le_one h d)

theorem decayedWeight_eq {w : ℝ} (floored : c.minWeight ≤ w) (la now : ℕ) :
    decayedWeight w la now c = max (w * retention c (now - la)) c.minWeight := by
  by_cases still : now ≤ la
  · rw [decayedWeight_of_le w still, Nat.sub_eq_zero_of_le still, retention_eq, nsToHours_eq]
    simp [floored]
  · exact decayedWeight_of_lt w (Nat.lt_of_not_le still)

/-- Decay is a flow on the weights from the floor up. -/
structure DecayFlow (c : LearningConfig ℝ) : Prop where
  /-- Half of a weight is left after each half-life, down to the floor. -/
  halves : ∀ w a t, c.minWeight ≤ w → decayedWeight w a t c =
    max (w * 2 ^ (-(((t - a : ℕ) : ℝ) / 3600000000000) / c.decayHalfLifeHours)) c.minWeight
  composes : ∀ w a b t, c.minWeight ≤ w → a ≤ b → b ≤ t →
    decayedWeight (decayedWeight w a b c) b t c = decayedWeight w a t c
  monotone : ∀ w w' a t, c.minWeight ≤ w → w ≤ w' → decayedWeight w a t c ≤ decayedWeight w' a t c
  ages : ∀ w a b t, c.minWeight ≤ w → b ≤ t → decayedWeight w a t c ≤ decayedWeight w a b c
  floored : ∀ w a t, c.minWeight ≤ w → c.minWeight ≤ decayedWeight w a t c
  lowers : ∀ w a t, c.minWeight ≤ w → decayedWeight w a t c ≤ w
  /-- A clock that runs backwards changes nothing. -/
  backwards : ∀ w a t, t ≤ a → decayedWeight w a t c = w

theorem decay_flows {c : LearningConfig ℝ} (checked : c.validate = .ok ()) : DecayFlow c := by
  have h := Sound.of_validate checked
  constructor
  · intro w a t floored
    rw [decayedWeight_eq floored, retention_eq, nsToHours_eq]
  · intro w a b t _ first second
    have twice : decayedWeight (decayedWeight w a b c) (max b a) t c = decayedWeight w a t c :=
      decayedWeight_decayedWeight h w second
    rwa [max_eq_left first] at twice
  · intro w w' a t floored less
    rw [decayedWeight_eq floored, decayedWeight_eq (floored.trans less)]
    exact max_le_max_right _ (mul_le_mul_of_nonneg_right less (retention_pos c _).le)
  · intro w a b t floored later
    rw [decayedWeight_eq floored, decayedWeight_eq floored]
    apply max_le_max_right
    apply mul_le_mul_of_nonneg_left _ (h.floor.le.trans floored)
    exact retention_anti h (Nat.sub_le_sub_right later a)
  · intro w a t floored
    rw [decayedWeight_eq floored]
    exact le_max_right _ _
  · intro w a t floored
    exact decayedWeight_le h floored a t
  · intro w a t still
    exact decayedWeight_of_le w still

theorem edge_decay_flows :
    DecayFlow (LearningConfig.forClass .edge) ∧
      decayedWeight 1 0 604800000000000 (LearningConfig.forClass .edge) = (1 / 2 : ℝ) := by
  refine ⟨decay_flows (forClass_validate .edge), ?_⟩
  rw [decayedWeight_of_lt _ (by norm_num), retention_eq, nsToHours_eq]
  norm_num [LearningConfig.forClass, Scalar.lit, Real.rpow_neg_one]

end OpenNtl
