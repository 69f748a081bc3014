import OpenNtl.Counters
import OpenNtl.InfluenceCap

/-! # What type affinity remembers of the outcomes

Affinity is a share of counts. Only a delivery adds to a count, and only while the share of its
type can still go up. Exact arithmetic.
-/
namespace OpenNtl

open ExactScalar

variable {F : Type} [Scalar F]

/-- A resolved outcome, as `apply_outcome` is told of it. -/
structure Resolution (F : Type) where
  outcome : Outcome
  signalWeight : F
  signalType : String
  peerInfluenceUsed : F

namespace Synapse

variable (learning : LearningConfig F)

def resolve (s : Synapse F) (x : Resolution F) : Synapse F :=
  (s.applyOutcome x.outcome x.signalWeight x.signalType x.peerInfluenceUsed learning).2

def resolveAll (s : Synapse F) (xs : List (Resolution F)) : Synapse F :=
  xs.foldl (resolve learning) s

def Counts (s : Synapse F) (x : Resolution F) : Prop :=
  s.affinityFor x.signalType <
    applyAffinityUpdate (s.affinityFor x.signalType) x.outcome learning

instance (s : Synapse F) (x : Resolution F) : Decidable (s.Counts learning x) :=
  inferInstanceAs (Decidable (_ < _))

theorem resolve_typeAffinity (s : Synapse F) (x : Resolution F) :
    (s.resolve learning x).typeAffinity =
      if s.Counts learning x then
        s.typeAffinity.insert x.signalType (s.typeAffinity.count x.signalType + 1)
      else s.typeAffinity := by
  unfold resolve applyOutcome
  dsimp only
  obtain ⟨state, same, -⟩ := updateState_eq (F := F) _
  rw [same]
  rfl

theorem resolve_count (s : Synapse F) (x : Resolution F) (t : String) :
    (s.resolve learning x).typeAffinity.count t =
      s.typeAffinity.count t + if s.Counts learning x ∧ t = x.signalType then 1 else 0 := by
  rw [resolve_typeAffinity]
  by_cases counts : s.Counts learning x
  · rw [if_pos counts]
    by_cases own : t = x.signalType
    · subst own
      rw [HashMap.count_insert_same, if_pos ⟨counts, rfl⟩]
    · rw [HashMap.count_insert_other _ own, if_neg fun h => own h.2]
      rfl
  · rw [if_neg counts, if_neg fun h => counts h.1]
    rfl

theorem resolve_total (s : Synapse F) (x : Resolution F) :
    (s.resolve learning x).typeAffinity.total =
      s.typeAffinity.total + if s.Counts learning x then 1 else 0 := by
  rw [resolve_typeAffinity]
  by_cases counts : s.Counts learning x
  · have inserted := s.typeAffinity.total_insert x.signalType
      (s.typeAffinity.count x.signalType + 1)
    rw [if_pos counts, if_pos counts]
    omega
  · rw [if_neg counts, if_neg counts]
    rfl

end Synapse

section Exact

variable [ExactDivision F] {learning : LearningConfig F} {s : Synapse F} {x : Resolution F}

theorem toReal_affinityFor (s : Synapse F) (t : String) :
    toReal (s.affinityFor t) = (s.typeAffinity.count t : ℝ) / s.typeAffinity.total := by
  have share : s.affinityFor t = if s.typeAffinity.total = 0 then 0 else
      Scalar.lit (s.typeAffinity.count t) / Scalar.lit s.typeAffinity.total := rfl
  rw [share]
  split_ifs with none
  · rw [toReal_zero, none, Nat.cast_zero, div_zero]
  · rw [ExactDivision.toReal_div, toReal_lit, toReal_lit, Rat.cast_natCast, Rat.cast_natCast]

theorem affinityFor_nonneg (s : Synapse F) (t : String) : 0 ≤ toReal (s.affinityFor t) := by
  rw [toReal_affinityFor]
  positivity

theorem affinityFor_lt_one_iff (s : Synapse F) (t : String) :
    toReal (s.affinityFor t) < 1 ↔
      s.typeAffinity.count t < s.typeAffinity.total ∨ s.typeAffinity.total = 0 := by
  rw [toReal_affinityFor]
  rcases Nat.eq_zero_or_pos s.typeAffinity.total with none | some
  · simp [none]
  · rw [div_lt_one (by exact_mod_cast some), Nat.cast_lt]
    exact ⟨Or.inl, fun h => h.resolve_right some.ne'⟩

/-- A delivery counts unless its type has all the counts there are. Nothing else counts. -/
theorem counts_iff (checked : Checked learning) :
    s.Counts learning x ↔ x.outcome = .delivered ∧
      (s.typeAffinity.count x.signalType < s.typeAffinity.total ∨
        s.typeAffinity.total = 0) := by
  have nonneg := affinityFor_nonneg s x.signalType
  have updated : toReal (applyAffinityUpdate (s.affinityFor x.signalType) x.outcome learning) =
      max 0 (min 1 (toReal (s.affinityFor x.signalType) +
        toReal learning.learningRate * toReal (x.outcome.reward (F := F)))) := by
    unfold applyAffinityUpdate
    rw [toReal_clamp zero_le_one_exact, toReal_zero, toReal_one, toReal_add, toReal_mul]
  unfold Synapse.Counts
  rw [← toReal_lt, updated, ← affinityFor_lt_one_iff]
  by_cases delivery : x.outcome = .delivered
  · have reward : toReal (x.outcome.reward (F := F)) = 1 := by
      rw [delivery, Outcome.reward, toReal_lit]
      norm_num
    have rate := checked.rate
    rw [reward, mul_one]
    constructor
    · intro less
      refine ⟨delivery, ?_⟩
      rcases lt_max_iff.mp less with low | low
      · exact low.trans zero_lt_one
      · exact (lt_min_iff.mp low).1
    · rintro ⟨-, room⟩
      exact lt_max_of_lt_right (lt_min room (by linarith))
  · refine iff_of_false ?_ fun h => delivery h.1
    have loss := mul_nonpos_of_nonneg_of_nonpos checked.rate.le
      (reward_nonpos_exact (F := F) delivery)
    rw [not_lt]
    exact max_le nonneg ((min_le_right _ _).trans (by linarith))

/-- A delivery takes nothing from its own type and adds nothing to another; other outcomes leave
every share alone. -/
structure SharesFollow (s s' : Synapse F) (x : Resolution F) : Prop where
  rewarded : 0 < x.outcome.reward (F := F) →
    s.affinityFor x.signalType ≤ s'.affinityFor x.signalType
  penalized : x.outcome.reward (F := F) < 0 → ∀ t, s'.affinityFor t = s.affinityFor t
  others : ∀ t, t ≠ x.signalType →
    s'.affinityFor t ≤ s.affinityFor t ∧ s'.typeAffinity.count t = s.typeAffinity.count t

theorem resolve_shares (checked : Checked learning) (s : Synapse F) (x : Resolution F) :
    SharesFollow s (s.resolve learning x) x := by
  have count := s.resolve_count learning x
  have total := s.resolve_total learning x
  constructor
  · intro _
    rw [← toReal_le, toReal_affinityFor, toReal_affinityFor, count, total]
    by_cases counts : s.Counts learning x
    · rw [if_pos ⟨counts, rfl⟩, if_pos counts]
      have part : (s.typeAffinity.count x.signalType : ℝ) ≤ s.typeAffinity.total := by
        exact_mod_cast s.typeAffinity.count_le_total x.signalType
      rcases Nat.eq_zero_or_pos s.typeAffinity.total with none | some
      · rw [none, Nat.cast_zero, div_zero]
        positivity
      · have some' : (0 : ℝ) < s.typeAffinity.total := by exact_mod_cast some
        push_cast
        rw [div_le_div_iff₀ some' (by positivity)]
        nlinarith
    · rw [if_neg fun h => counts h.1, if_neg counts]
      rfl
  · intro loss t
    have silent : ¬ s.Counts learning x := by
      rw [counts_iff checked]
      rintro ⟨delivery, -⟩
      rw [delivery, Outcome.reward, ← toReal_lt, toReal_lit, toReal_zero] at loss
      norm_num at loss
    apply toReal_injective
    rw [toReal_affinityFor, toReal_affinityFor, count, total, if_neg fun h => silent h.1,
      if_neg silent]
    rfl
  · intro t other
    have kept : (s.resolve learning x).typeAffinity.count t = s.typeAffinity.count t := by
      rw [count, if_neg fun h => other h.2]
      rfl
    refine ⟨?_, kept⟩
    rw [← toReal_le, toReal_affinityFor, toReal_affinityFor, kept, total]
    rcases Nat.eq_zero_or_pos s.typeAffinity.total with none | some
    · have zero : s.typeAffinity.count t = 0 :=
        Nat.eq_zero_of_le_zero (none ▸ s.typeAffinity.count_le_total t)
      rw [zero, Nat.cast_zero, zero_div, zero_div]
    · apply div_le_div_of_nonneg_left (by positivity) (by exact_mod_cast some)
      exact_mod_cast Nat.le_add_right _ _

/-- The outcome moves the affinity of its own type the way its reward points, and no other. -/
structure AffinityFollows (s s' : Synapse F) (x : Resolution F) : Prop where
  rewarded : 0 < x.outcome.reward (F := F) →
    s.affinityFor x.signalType ≤ s'.affinityFor x.signalType
  penalized : x.outcome.reward (F := F) < 0 →
    s'.affinityFor x.signalType ≤ s.affinityFor x.signalType ∧
      (0 < s.affinityFor x.signalType → s'.affinityFor x.signalType < s.affinityFor x.signalType)
  others : ∀ t, t ≠ x.signalType → s'.affinityFor t = s.affinityFor t

/-- A delivery meets no successes of another type, and a failure none of its own. -/
structure NoShareMoves (s : Synapse F) (x : Resolution F) : Prop where
  delivered : x.outcome = .delivered → ∀ t, t ≠ x.signalType → s.typeAffinity.count t = 0
  failed : x.outcome ≠ .pending → x.outcome ≠ .delivered → s.typeAffinity.count x.signalType = 0

omit [ExactDivision F] [Scalar F] in
theorem NoShareMoves.iff_counts : NoShareMoves s x ↔
    (x.outcome = .delivered → s.typeAffinity.count x.signalType = s.typeAffinity.total) ∧
      (x.outcome ≠ .pending → x.outcome ≠ .delivered →
        s.typeAffinity.count x.signalType = 0) := by
  rw [HashMap.count_eq_total_iff]
  exact ⟨fun h => ⟨h.delivered, h.failed⟩, fun h => ⟨h.1, h.2⟩⟩

theorem reward_neg_iff {o : Outcome} : o.reward (F := F) < 0 ↔ o ≠ .pending ∧ o ≠ .delivered := by
  rw [← toReal_lt, toReal_zero]
  cases o <;> simp [Outcome.reward] <;> norm_num

theorem affinityFor_pos_iff (s : Synapse F) (t : String) :
    0 < s.affinityFor t ↔ 0 < s.typeAffinity.count t := by
  rw [← toReal_lt, toReal_zero, toReal_affinityFor]
  constructor
  · intro share
    by_contra none
    rw [Nat.eq_zero_of_not_pos none, Nat.cast_zero, zero_div] at share
    exact lt_irrefl 0 share
  · intro some
    have total : 0 < s.typeAffinity.total := some.trans_le (s.typeAffinity.count_le_total t)
    positivity

theorem share_moves (counts : s.Counts learning x) {t : String} (other : t ≠ x.signalType)
    (some : 0 < s.typeAffinity.count t) :
    (s.resolve learning x).affinityFor t ≠ s.affinityFor t := by
  intro same
  have shares := congrArg toReal same
  have share : (0 : ℝ) < s.typeAffinity.count t := by exact_mod_cast some
  have total : (0 : ℝ) < s.typeAffinity.total := by
    exact_mod_cast some.trans_le (s.typeAffinity.count_le_total t)
  rw [toReal_affinityFor, toReal_affinityFor, Synapse.resolve_count, Synapse.resolve_total,
    if_neg fun h => other h.2, if_pos counts, Nat.add_zero] at shares
  push_cast at shares
  rw [div_eq_div_iff (by positivity) total.ne'] at shares
  linarith

theorem resolve_follows_iff (checked : Checked learning) (s : Synapse F) (x : Resolution F) :
    AffinityFollows s (s.resolve learning x) x ↔ NoShareMoves s x := by
  have shares := resolve_shares checked s x
  have counted := counts_iff (s := s) (x := x) checked
  constructor
  · intro follows
    constructor
    · intro delivery t other
      by_contra some
      have room : s.typeAffinity.count x.signalType < s.typeAffinity.total := by
        refine lt_of_le_of_ne (s.typeAffinity.count_le_total _) fun all => some ?_
        exact (HashMap.count_eq_total_iff _ _).mp all t other
      exact share_moves (counted.mpr ⟨delivery, Or.inl room⟩) other (Nat.pos_of_ne_zero some)
        (follows.others t other)
    · intro resolved failure
      by_contra some
      have loss : x.outcome.reward (F := F) < 0 := reward_neg_iff.mpr ⟨resolved, failure⟩
      have lower := (follows.penalized loss).2
        ((affinityFor_pos_iff s _).mpr (Nat.pos_of_ne_zero some))
      rw [shares.penalized loss, ← toReal_lt] at lower
      exact lt_irrefl _ lower
  · intro still
    refine ⟨shares.rewarded, fun loss => ?_, fun t other => ?_⟩
    · obtain ⟨resolved, failure⟩ := reward_neg_iff.mp loss
      rw [shares.penalized loss]
      refine ⟨toReal_le.mp le_rfl, fun some => ?_⟩
      rw [affinityFor_pos_iff, still.failed resolved failure] at some
      exact absurd some (lt_irrefl 0)
    · apply toReal_injective
      rw [toReal_affinityFor, toReal_affinityFor, (shares.others t other).2]
      by_cases delivery : x.outcome = .delivered
      · rw [still.delivered delivery t other, Nat.cast_zero, zero_div, zero_div]
      · rw [Synapse.resolve_total, if_neg fun counts => delivery (counted.mp counts).1, Nat.add_zero]

/-- Whatever was resolved before, the next outcome moves the affinity of its own type and of no
other exactly when there is no share for it to move wrongly. -/
theorem affinity_follows_iff (valid : learning.validate = .ok ()) (s : Synapse F)
    (before : List (Resolution F)) (x : Resolution F) :
    AffinityFollows (s.resolveAll learning before) (s.resolveAll learning (before ++ [x])) x ↔
      NoShareMoves (s.resolveAll learning before) x := by
  have last : s.resolveAll learning (before ++ [x]) =
      (s.resolveAll learning before).resolve learning x := List.foldl_concat ..
  rw [last]
  exact resolve_follows_iff (Checked.of_validate valid) _ x

end Exact

section Sample

def evenlyShared : Synapse ℚ :=
  { (Synapse.newWith ⟨[1]⟩ .default 0 .maximal).1 with
    typeAffinity := (AList.insert "Query" 1 ∅).insert "Data" 1 }

def dataDelivered : Resolution ℚ := ⟨.delivered, 1, "Data", 0⟩

def queryTimedOut : Resolution ℚ := ⟨.timedOut, 1, "Query", 0⟩

def queriesOnly : Synapse ℚ := { evenlyShared with typeAffinity := AList.insert "Query" 1 ∅ }

def queryDelivered : Resolution ℚ := ⟨.delivered, 1, "Query", 0⟩

def dataTimedOut : Resolution ℚ := ⟨.timedOut, 1, "Data", 0⟩

theorem queries_follow :
    0 < (queriesOnly.resolveAll (.forClass .edge) [dataTimedOut]).affinityFor "Query" ∧
    AffinityFollows (queriesOnly.resolveAll (.forClass .edge) [dataTimedOut])
      (queriesOnly.resolveAll (.forClass .edge) ([dataTimedOut] ++ [queryDelivered]))
      queryDelivered := by
  refine ⟨by decide +kernel, ?_⟩
  refine (affinity_follows_iff edgeNode_checked queriesOnly [dataTimedOut] queryDelivered).mpr ?_
  refine NoShareMoves.iff_counts.mpr ⟨fun _ => by decide +kernel, fun _ other => absurd rfl other⟩

/-- A timeout lowers no share, and a delivery of another type lowers one. -/
theorem shares_not_by_type :
    (queryTimedOut.outcome.reward < (0 : ℚ) ∧ 0 < evenlyShared.affinityFor "Query" ∧
      ¬ (evenlyShared.resolve (.forClass .edge) queryTimedOut).affinityFor "Query" <
        evenlyShared.affinityFor "Query") ∧
    (evenlyShared.resolve (.forClass .edge) dataDelivered).affinityFor "Query" ≠
      evenlyShared.affinityFor "Query" := by
  decide +kernel

end Sample
end OpenNtl
