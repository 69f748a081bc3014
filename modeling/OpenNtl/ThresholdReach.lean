import OpenNtl.LatencyGuard

/-! # Whether the threshold can be reached

Load raises the threshold to twice its base, while the potential is capped, every batch resets it,
and a rounded sum stops growing. Validation compares the cap with the base alone.
-/
namespace OpenNtl

variable {F : Type}

def GateCall.AdmitsOrDrains : GateCall F → Prop
  | .adjustForLoad _ => False
  | _ => True

variable [Scalar F]

/-- Gates that admits and drains lead to from the start, with the last reading of the clock. The
weights are finite and not negative, as the callers promise. -/
inductive Operated (config : ActivationConfig F) : ℕ → ActivationState F → Prop
  | new : Operated config 0 (.new config)
  | call {nowNs : ℕ} {g : ActivationState F} (call : GateCall F) (plain : call.AdmitsOrDrains)
      (weighted : (GateMoment.onGate call g).Weighted) (read : call.nowNs ≤ u64Max) :
      Operated config nowNs g → Operated config call.nowNs (GateMoment.onGate call g).after

/-- A signal of weight one, stamped when it is offered, which is past the refractory period and
not before some reading. -/
structure UnitOffer (g : ActivationState F) (sinceNs : ℕ) (signal : QueuedSignal F) (nowNs : ℕ) :
    Prop where
  weight : signal.weight = 1
  stamped : signal.enqueuedAtNs = nowNs
  later : sinceNs ≤ nowNs
  bounded : nowNs ≤ u64Max
  ready : g.refractoryUntilNs ≤ nowNs

/-- Some further offers over a synapse of weight one end in one that fires by its potential. -/
inductive CanReach : ℕ → ActivationState F → Prop
  | now {g : ActivationState F} {sinceNs nowNs : ℕ} {signal : QueuedSignal F} (rng : Rng)
      (offer : UnitOffer g sinceNs signal nowNs)
      (reaches : ((g.offered signal 1).evaluate rng).1 = true) : CanReach sinceNs g
  | later {g : ActivationState F} {sinceNs nowNs : ℕ} {signal : QueuedSignal F} (rng : Rng)
      (offer : UnitOffer g sinceNs signal nowNs)
      (rest : CanReach nowNs (g.admitSignal signal 1 nowNs rng).2.1) : CanReach sinceNs g

namespace ActivationConfig

/-- Whatever admits and drains came before, the threshold can be reached. -/
def CanReachThreshold (config : ActivationConfig F) : Prop :=
  ∀ nowNs g, Operated config nowNs g → CanReach nowNs g

def highestThreshold (config : ActivationConfig F) : F :=
  if config.dynamicThreshold then Scalar.lit 2 * config.baseThreshold else config.baseThreshold

/-- The highest threshold is within the cap and within what counting by one gets to, and the
latency guard cannot reset the potential each time before it is reached. -/
structure ThresholdInReach (config : ActivationConfig F) : Prop where
  capped : ¬ config.maxPotential < config.highestThreshold
  counted : ∃ n : ℕ, config.highestThreshold ≤ (· + 1)^[n] 0
  unguarded : config.maxQueueLatencyMs = 0 ∨ 2 ≤ config.fireBatchSize ∨
    config.maxQueueDepth = 1 ∨ config.highestThreshold ≤ 1

end ActivationConfig

/-- What admits and drains keep of a gate. -/
structure Steady (config : ActivationConfig F) (g : ActivationState F) : Prop
    extends Sized config g where
  base : g.baseThreshold = config.baseThreshold
  dynamic : g.dynamic = config.dynamicThreshold
  ceiling : g.maxPotential = config.maxPotential
  function : g.function = config.activationFunction
  batch : g.fireBatchSize = max config.fireBatchSize 1
  fixed : config.dynamicThreshold = false → g.threshold = config.baseThreshold
  deadline : g.refractoryUntilNs ≤ u64Max

namespace ActivationState

theorem offered_charges (g : ActivationState F) (signal : QueuedSignal F) (synapseWeight : F) :
    (g.offered signal synapseWeight).potential =
        min (g.potential + signal.weight * synapseWeight) g.maxPotential ∧
      (g.offered signal synapseWeight).refractoryUntilNs = g.refractoryUntilNs := by
  obtain ⟨threshold, queue, dropped, overflows, same⟩ := g.offered_keeps signal synapseWeight
  rw [same]
  exact ⟨rfl, rfl⟩

theorem offered_recomputes (g : ActivationState F) (signal : QueuedSignal F) (synapseWeight : F) :
    (g.offered signal synapseWeight).threshold =
      if g.dynamic then (g.offered signal synapseWeight).baseThreshold *
        (1 + (g.offered signal synapseWeight).loadFactor) else g.threshold := by
  obtain ⟨queue, dropped, overflows, filled⟩ :=
    (g.charged (signal.weight * synapseWeight)).enqueue_keeps signal
  have same : g.offered signal synapseWeight = _ :=
    congrArg (fun g => if g.dynamic then g.recomputeThreshold else g) filled
  by_cases dynamic : g.dynamic = true
  · rw [same.trans (if_pos dynamic), if_pos dynamic]
    rfl
  · rw [same.trans (if_neg dynamic), if_neg dynamic]
    rfl

theorem offered_ready {g : ActivationState F} {signal : QueuedSignal F} {nowNs : ℕ}
    (ready : g.refractoryUntilNs ≤ nowNs) : (g.offered signal 1).inRefractory nowNs = false := by
  rw [inRefractory_eq_false, (g.offered_charges signal 1).2]
  exact ready

theorem mem_offered {g : ActivationState F} {signal w : QueuedSignal F} {synapseWeight : F}
    (queued : w ∈ (g.offered signal synapseWeight).queue) : w = signal ∨ w ∈ g.queue := by
  rw [offered_queue] at queued
  have whole := (enqueue_perm (g.charged (signal.weight * synapseWeight)) signal).mem_iff.mp
    (List.mem_append_right _ queued)
  exact List.mem_cons.mp whole

theorem offered_queue_of_room {g : ActivationState F} (room : g.queue.length < g.maxQueueDepth)
    (signal : QueuedSignal F) (synapseWeight : F) :
    (g.offered signal synapseWeight).queue = g.queue ++ [signal] := by
  have enqueued : (g.charged (signal.weight * synapseWeight)).enqueue signal = _ := if_pos room
  rw [offered_queue, enqueued]
  rfl

theorem offered_length (g : ActivationState F) (signal : QueuedSignal F) (synapseWeight : F) :
    (g.offered signal synapseWeight).queue.length ≤ g.queue.length + 1 ∧
      min (g.queue.length + 1) g.maxQueueDepth ≤ (g.offered signal synapseWeight).queue.length := by
  have perm := (enqueue_perm (g.charged (signal.weight * synapseWeight)) signal).length_eq
  rw [List.length_append, List.length_cons, ← offered_queue] at perm
  have before : (g.charged (signal.weight * synapseWeight)).queue = g.queue := rfl
  rw [before] at perm
  by_cases room : g.queue.length < g.maxQueueDepth
  · have none := enqueue_room (g.charged (signal.weight * synapseWeight)) signal room
    rw [none, Option.toList_none, List.length_nil] at perm
    omega
  · have one :
        ((g.charged (signal.weight * synapseWeight)).enqueue signal).1.toList.length ≤ 1 := by
      cases ((g.charged (signal.weight * synapseWeight)).enqueue signal).1 <;> simp
    omega

end ActivationState

namespace Steady

variable {config : ActivationConfig F} {g : ActivationState F}

theorem new (config : ActivationConfig F) : Steady config (.new config) :=
  ⟨⟨rfl, rfl, Nat.zero_le _⟩, rfl, rfl, rfl, rfl, rfl, fun _ => rfl, Nat.zero_le _⟩

theorem offered (h : Steady config g) (signal : QueuedSignal F) (synapseWeight : F) :
    Steady config (g.offered signal synapseWeight) := by
  have sized := h.toSized.offered signal synapseWeight
  have fixed : config.dynamicThreshold = false →
      (g.offered signal synapseWeight).threshold = config.baseThreshold := by
    intro static
    rw [g.offered_recomputes, h.dynamic, static]
    exact h.fixed static
  obtain ⟨threshold, queue, dropped, overflows, same⟩ := g.offered_keeps signal synapseWeight
  rw [same] at sized fixed ⊢
  exact ⟨sized, h.base, h.dynamic, h.ceiling, h.function, h.batch, fixed, h.deadline⟩

theorem fire (h : Steady config g) (nowNs : ℕ) : Steady config (g.fire nowNs).2 :=
  ⟨h.toSized.fire nowNs, h.base, h.dynamic, h.ceiling, h.function, h.batch, h.fixed,
    saturatingAdd_le _ _⟩

omit [Scalar F] in
theorem depth_pos (h : Steady config g) : 0 < g.maxQueueDepth := by
  have depth := h.depth
  omega

end Steady

theorem Operated.bounded {config : ActivationConfig F} {g : ActivationState F} {nowNs : ℕ}
    (operated : Operated config nowNs g) : nowNs ≤ u64Max := by
  cases operated with
  | new => exact Nat.zero_le _
  | call call _ _ read => exact read

theorem Operated.steady {config : ActivationConfig F} {g : ActivationState F} {nowNs : ℕ}
    (operated : Operated config nowNs g) : Steady config g := by
  induction operated with
  | new => exact .new config
  | @call nowNs g call plain _ _ _ ih =>
    have poised : Steady config (call.poised g) := by
      cases call with
      | admitSignal signal synapseWeight nowNs rng => exact ih.offered signal synapseWeight
      | drainIfStarving nowNs => exact ih
      | drainBatch nowNs => exact ih
      | adjustForLoad loadFactor => exact plain.elim
    rcases GateMoment.onGate_spec ih.depth_pos call with ⟨-, after⟩ | ⟨-, -, after⟩
    · rw [after]
      exact poised
    · rw [after]
      exact poised.fire call.nowNs

namespace Steady

variable {config : ActivationConfig F} {g : ActivationState F} {signal : QueuedSignal F}

omit [Scalar F] in
theorem calm_of_stamped {nowNs : ℕ} (stamped : ∀ w ∈ g.queue, w.enqueuedAtNs = nowNs) :
    g.isStarving nowNs = false := by
  by_contra starving
  obtain ⟨guarded, w, queued, waited⟩ :=
    ActivationState.isStarving_iff.mp (eq_true_of_ne_false starving)
  rw [stamped w queued] at waited
  omega

theorem calm_offered (h : Steady config g) {synapseWeight : F} {nowNs : ℕ}
    (stamped : signal.enqueuedAtNs = nowNs) (calm : g.isStarving nowNs = false) :
    (g.offered signal synapseWeight).isStarving nowNs = false := by
  have latency : (g.offered signal synapseWeight).maxQueueLatencyNs = g.maxQueueLatencyNs :=
    (h.offered signal synapseWeight).latency.trans h.latency.symm
  by_contra starving
  obtain ⟨guarded, w, queued, waited⟩ :=
    ActivationState.isStarving_iff.mp (eq_true_of_ne_false starving)
  rw [latency] at guarded waited
  rcases ActivationState.mem_offered queued with rfl | before
  · omega
  · have starved : g.isStarving nowNs = true :=
      ActivationState.isStarving_iff.mpr ⟨guarded, w, before, waited⟩
    rw [starved] at calm
    cases calm

variable [RoundedScalar F]

theorem load_within (h : Steady config g) (depth : config.maxQueueDepth ≤ u64Max) :
    0 ≤ g.loadFactor ∧ g.loadFactor ≤ 1 := by
  have some := h.depth_pos
  have size := h.depth
  have bound := h.queue
  apply RoundedScalar.clamp_unit
  apply RoundedScalar.ratio_number _ some
  · unfold u64Max at depth
    omega
  · omega

theorem offered_within (h : Steady config g) (depth : config.maxQueueDepth ≤ u64Max)
    (positive : 0 < config.baseThreshold) (signal : QueuedSignal F) (synapseWeight : F) :
    config.baseThreshold ≤ (g.offered signal synapseWeight).threshold ∧
      (g.offered signal synapseWeight).threshold ≤ config.highestThreshold := by
  have steady := h.offered signal synapseWeight
  unfold ActivationConfig.highestThreshold
  by_cases dynamic : config.dynamicThreshold = true
  · obtain ⟨low, high⟩ := steady.load_within depth
    have least : (1 : F) ≤ 1 + (g.offered signal synapseWeight).loadFactor := by
      have grown := RoundedScalar.one_add_le_one_add low
      rwa [RoundedScalar.one_add_zero] at grown
    have above := RoundedScalar.mul_le_mul_left positive (FloatScalar.number_left least) least
    rw [RoundedScalar.mul_one] at above
    rw [if_pos dynamic, g.offered_recomputes, if_pos (h.dynamic.trans dynamic), steady.base,
      ← RoundedScalar.mul_one_add_one]
    exact ⟨above, RoundedScalar.mul_le_mul_left positive least
      (RoundedScalar.one_add_le_one_add high)⟩
  · have number := FloatScalar.number_right (RoundedScalar.le_of_lt positive)
    rw [if_neg dynamic, steady.fixed (Bool.eq_false_of_not_eq_true dynamic)]
    exact ⟨number, number⟩

theorem offered_highest (h : Steady config g) (depth : config.maxQueueDepth ≤ u64Max)
    {synapseWeight : F} (full : g.maxQueueDepth ≤ g.queue.length + 1) :
    (g.offered signal synapseWeight).threshold = config.highestThreshold := by
  have steady := h.offered signal synapseWeight
  unfold ActivationConfig.highestThreshold
  by_cases dynamic : config.dynamicThreshold = true
  · have size := steady.depth
    have length : (g.offered signal synapseWeight).queue.length =
        (g.offered signal synapseWeight).maxQueueDepth := by
      have before := h.depth
      have bound := steady.queue
      have filled := (g.offered_length signal synapseWeight).2
      omega
    have load : (g.offered signal synapseWeight).loadFactor = 1 := by
      unfold ActivationState.loadFactor
      rw [length, RoundedScalar.ratio_self steady.depth_pos (by unfold u64Max at depth; omega)]
      exact RoundedScalar.clamp_one
    rw [if_pos dynamic, g.offered_recomputes, if_pos (h.dynamic.trans dynamic), steady.base, load,
      RoundedScalar.mul_one_add_one]
  · rw [if_neg dynamic, steady.fixed (Bool.eq_false_of_not_eq_true dynamic)]

theorem offered_potential (h : Steady config g) (weight : signal.weight = 1) :
    (g.offered signal 1).potential = min (g.potential + 1) config.maxPotential := by
  rw [(g.offered_charges signal 1).1, h.ceiling, weight, RoundedScalar.mul_one]

theorem offered_charged (h : Steady config g) (room : ¬ config.maxPotential < 0)
    (charged : 0 ≤ g.potential) {synapseWeight : F}
    (finite : Scalar.isFinite signal.weight = true ∧ Scalar.isFinite synapseWeight = true)
    (weights : 0 ≤ signal.weight ∧ 0 ≤ synapseWeight) :
    0 ≤ (g.offered signal synapseWeight).potential := by
  rw [(g.offered_charges signal synapseWeight).1, h.ceiling]
  apply RoundedScalar.le_min_of_not_lt _ room
  exact FloatScalar.add_nonneg charged
    (FloatScalar.mul_nonneg finite.1 finite.2 weights.1 weights.2)

omit [RoundedScalar F] in
theorem evaluate_iff (h : Steady config g) (step : config.activationFunction = .step)
    {synapseWeight : F} (rng : Rng) :
    ((g.offered signal synapseWeight).evaluate rng).1 = true ↔
      (g.offered signal synapseWeight).threshold ≤ (g.offered signal synapseWeight).potential := by
  have steady := h.offered signal synapseWeight
  have waits : (g.offered signal synapseWeight).queue.isEmpty = false := by
    have filled := (g.offered_length signal synapseWeight).2
    have depth := h.depth_pos
    rw [List.isEmpty_eq_false_iff_exists_mem]
    apply List.exists_mem_of_length_pos
    omega
  unfold ActivationState.evaluate
  rw [waits, steady.function, step]
  simp

/-- A base that is no number makes a threshold that nothing reaches. -/
theorem base_number (h : Steady config g) {synapseWeight p : F}
    (reached : (g.offered signal synapseWeight).threshold ≤ p) :
    config.baseThreshold ≤ config.baseThreshold := by
  by_cases dynamic : config.dynamicThreshold = true
  · rw [g.offered_recomputes, if_pos (h.dynamic.trans dynamic), (h.offered _ _).base] at reached
    exact (RoundedScalar.number_of_mul reached).1
  · rw [(h.offered signal synapseWeight).fixed (Bool.eq_false_of_not_eq_true dynamic)] at reached
    exact FloatScalar.number_left reached

theorem not_reaches_zero (h : Steady config g) (depth : config.maxQueueDepth ≤ u64Max)
    (positive : ¬ config.baseThreshold ≤ 0) {synapseWeight p : F} (low : p ≤ 0) :
    ¬ (g.offered signal synapseWeight).threshold ≤ p := by
  intro reached
  have above := FloatScalar.lt_of_not_le FloatScalar.zero_le_zero (h.base_number reached) positive
  exact positive (FloatScalar.le_trans (h.offered_within depth above signal synapseWeight).1
    (FloatScalar.le_trans reached low))

end Steady

theorem ActivationConfig.highest_number [RoundedScalar F] {config : ActivationConfig F} {p : F}
    (reached : config.highestThreshold ≤ p) : config.baseThreshold ≤ config.baseThreshold := by
  unfold highestThreshold at reached
  split at reached
  · exact (RoundedScalar.number_of_mul reached).2
  · exact FloatScalar.number_left reached

/-- Validation leaves no negative cap over a base that is a number. -/
theorem ActivationConfig.cap_nonneg [RoundedScalar F] {config : ActivationConfig F}
    (positive : 0 < config.baseThreshold) (ceiling : ¬ config.maxPotential < config.baseThreshold) :
    ¬ config.maxPotential < 0 := by
  intro negative
  have below := RoundedScalar.le_of_lt negative
  have above := RoundedScalar.le_of_lt positive
  apply ceiling
  apply FloatScalar.lt_of_not_le (FloatScalar.number_left below) (FloatScalar.number_right above)
  intro within
  exact FloatScalar.not_lt_of_le (FloatScalar.le_trans within below) positive

theorem Operated.charged [RoundedScalar F] {config : ActivationConfig F} {g : ActivationState F}
    {nowNs : ℕ} (operated : Operated config nowNs g) (room : ¬ config.maxPotential < 0) :
    0 ≤ g.potential := by
  induction operated with
  | new => exact FloatScalar.zero_le_zero
  | @call nowNs g call plain weighted _ before ih =>
    have poised : 0 ≤ (call.poised g).potential := by
      cases call with
      | admitSignal signal synapseWeight nowNs rng =>
        obtain ⟨finite, weights⟩ := weighted
        exact before.steady.offered_charged room ih finite weights
      | drainIfStarving nowNs => exact ih
      | drainBatch nowNs => exact ih
      | adjustForLoad loadFactor => exact plain.elim
    rcases GateMoment.onGate_spec before.steady.depth_pos call with ⟨-, after⟩ | ⟨-, -, after⟩
    · rw [after]
      exact poised
    · rw [after]
      exact FloatScalar.zero_le_zero

def unitSignal (nowNs : ℕ) : QueuedSignal F := ⟨⟨0⟩, ⟨[1]⟩, 1, .acknowledged, nowNs⟩

theorem UnitOffer.available {config : ActivationConfig F} {g : ActivationState F}
    (h : Steady config g) {sinceNs : ℕ} (time : sinceNs ≤ u64Max) :
    ∃ signal nowNs, UnitOffer g sinceNs signal nowNs :=
  ⟨unitSignal (max sinceNs g.refractoryUntilNs), _, rfl, rfl, le_max_left _ _,
    max_le time h.deadline, le_max_right _ _⟩

section Reach

variable [RoundedScalar F] {config : ActivationConfig F} {g : ActivationState F}
  (step : config.activationFunction = .step) (depth : config.maxQueueDepth ≤ u64Max)
  (positive : 0 < config.baseThreshold)

include step depth positive

theorem Steady.reaches (h : Steady config g) {signal : QueuedSignal F}
    (charged : config.highestThreshold ≤ (g.offered signal 1).potential) (rng : Rng) :
    ((g.offered signal 1).evaluate rng).1 = true := by
  rw [h.evaluate_iff step]
  exact FloatScalar.le_trans (h.offered_within depth positive signal 1).2 charged

variable (capped : ¬ config.maxPotential < config.highestThreshold)

include capped

/-- While nothing is overdue each offer charges one, and they reach the threshold if counting by
one from some lower potential gets there. -/
theorem canReach_calm (k : ℕ) {nowNs : ℕ} (time : nowNs ≤ u64Max) (h : Steady config g)
    (ready : g.refractoryUntilNs ≤ nowNs) (calm : g.isStarving nowNs = false) {q : F}
    (low : q ≤ g.potential) (near : config.highestThreshold ≤ (· + 1)^[k] q) :
    CanReach nowNs g := by
  induction k generalizing g q with
  | zero =>
    have offer : UnitOffer g nowNs (unitSignal nowNs) nowNs := ⟨rfl, rfl, le_refl _, time, ready⟩
    apply CanReach.now .maximal offer
    apply h.reaches step depth positive
    rw [h.offered_potential rfl]
    apply RoundedScalar.le_min_of_not_lt _ capped
    exact FloatScalar.le_trans near
      (FloatScalar.le_trans low (RoundedScalar.le_add_one (FloatScalar.number_right low)))
  | succ k ih =>
    have offer : UnitOffer g nowNs (unitSignal nowNs) nowNs := ⟨rfl, rfl, le_refl _, time, ready⟩
    by_cases reaches : ((g.offered (unitSignal nowNs) 1).evaluate .maximal).1 = true
    · exact .now .maximal offer reaches
    · have still : (g.offered (unitSignal nowNs) 1).isStarving nowNs = false :=
        h.calm_offered rfl calm
      have quiet : (((g.offered (unitSignal nowNs) 1).evaluate .maximal).1 ||
          (g.offered (unitSignal nowNs) 1).isStarving nowNs) = false := by
        rw [Bool.eq_false_of_not_eq_true reaches, still]
        rfl
      apply CanReach.later .maximal offer
      rw [(ActivationState.admitSignal_of_still (Or.inr quiet)).2]
      refine ih (h.offered _ _) ?_ still ?_ near
      · rw [(g.offered_charges _ _).2]
        exact ready
      · have grown := RoundedScalar.add_one_le_add_one low
        rw [h.offered_potential rfl]
        apply RoundedScalar.le_min_of_not_lt grown
        intro less
        -- A cap that the count has passed is itself enough.
        have within : config.highestThreshold ≤ config.maxPotential :=
          FloatScalar.numbers.not_lt (FloatScalar.number_left (RoundedScalar.le_of_lt less))
            (FloatScalar.number_left near) capped
        apply reaches
        apply h.reaches step depth positive
        rw [h.offered_potential rfl]
        apply RoundedScalar.le_min_of_not_lt _ capped
        exact FloatScalar.le_trans within (FloatScalar.le_trans (RoundedScalar.le_of_lt less) grown)

variable (counted : ∃ n : ℕ, config.highestThreshold ≤ (· + 1)^[n] 0)
  (room : ¬ config.maxPotential < 0)

include counted room

/-- What one offer does: the threshold can be reached with it, or the guard fires. -/
theorem canReach_or_guardFires (h : Steady config g) (charged : 0 ≤ g.potential) {sinceNs : ℕ}
    (time : sinceNs ≤ u64Max) :
    CanReach sinceNs g ∨ ∃ signal nowNs, UnitOffer g sinceNs signal nowNs ∧
      config.maxQueueLatencyNs ≠ 0 ∧ g.queue ≠ [] ∧
      (g.admitSignal signal 1 nowNs .maximal).2.1 = ((g.offered signal 1).fire nowNs).2 := by
  obtain ⟨signal, nowNs, offer⟩ := UnitOffer.available h time
  by_cases reaches : ((g.offered signal 1).evaluate .maximal).1 = true
  · exact Or.inl (.now .maximal offer reaches)
  · by_cases starving : (g.offered signal 1).isStarving nowNs = true
    · right
      refine ⟨signal, nowNs, offer, ?_, ?_, ?_⟩
      · rw [← (h.offered signal 1).latency]
        exact (ActivationState.isStarving_iff.mp starving).1
      · intro empty
        have calm : g.isStarving nowNs = false := Steady.calm_of_stamped (by simp [empty])
        rw [h.calm_offered offer.stamped calm] at starving
        cases starving
      · apply (ActivationState.admitSignal_of_fires (ActivationState.offered_ready offer.ready)
          ?_).2
        rw [starving, Bool.or_true]
    · left
      have still := Bool.eq_false_of_not_eq_true starving
      have quiet : (((g.offered signal 1).evaluate .maximal).1 ||
          (g.offered signal 1).isStarving nowNs) = false := by
        rw [Bool.eq_false_of_not_eq_true reaches, still]
        rfl
      apply CanReach.later .maximal offer
      rw [(ActivationState.admitSignal_of_still (Or.inr quiet)).2]
      obtain ⟨n, near⟩ := counted
      refine canReach_calm step depth positive capped n offer.bounded (h.offered _ _) ?_ still
        (h.offered_charged room charged ?_ ?_) near
      · rw [(g.offered_charges _ _).2]
        exact offer.ready
      · rw [offer.weight]
        exact ⟨RoundedScalar.finite_one, RoundedScalar.finite_one⟩
      · rw [offer.weight]
        exact ⟨RoundedScalar.le_of_lt RoundedScalar.zero_lt_one,
          RoundedScalar.le_of_lt RoundedScalar.zero_lt_one⟩

/-- A guard that takes two signals at a time, or all there can be, empties the queue. -/
theorem canReach_draining (drains : 2 ≤ config.fireBatchSize ∨ config.maxQueueDepth = 1) (n : ℕ)
    (h : Steady config g) (charged : 0 ≤ g.potential) (length : g.queue.length ≤ n) {sinceNs : ℕ}
    (time : sinceNs ≤ u64Max) : CanReach sinceNs g := by
  induction n generalizing g sinceNs with
  | zero =>
    rcases canReach_or_guardFires step depth positive capped counted room h charged time with
      done | ⟨-, -, -, -, waits, -⟩
    · exact done
    · exact absurd (List.length_eq_zero_iff.mp (Nat.le_zero.mp length)) waits
  | succ n ih =>
    rcases canReach_or_guardFires step depth positive capped counted room h charged time with
      done | ⟨signal, nowNs, offer, -, waits, after⟩
    · exact done
    · apply CanReach.later .maximal offer
      rw [after]
      apply ih ((h.offered signal 1).fire nowNs) FloatScalar.zero_le_zero _ offer.bounded
      have some := List.length_pos_iff.mpr waits
      have grown := (g.offered_length signal 1).1
      have bound := (h.offered signal 1).queue
      have batch := (h.offered signal 1).batch
      show ((sortBy ActivationState.fireCmp (g.offered signal 1).queue).drop _).length ≤ n
      rw [List.length_drop, length_sortBy]
      omega

theorem canReach_low (low : config.highestThreshold ≤ 1) (h : Steady config g)
    (charged : 0 ≤ g.potential) {sinceNs : ℕ} (time : sinceNs ≤ u64Max) : CanReach sinceNs g := by
  rcases canReach_or_guardFires step depth positive capped counted room h charged time with
    done | ⟨signal, nowNs, offer, -, -, after⟩
  · exact done
  · have fired := (h.offered signal 1).fire nowNs
    obtain ⟨next, later, second⟩ := UnitOffer.available fired offer.bounded
    apply CanReach.later .maximal offer
    rw [after]
    apply CanReach.now .maximal second
    apply fired.reaches step depth positive
    have reset : ((g.offered signal 1).fire nowNs).2.potential = 0 := rfl
    rw [fired.offered_potential second.weight, reset, RoundedScalar.zero_add_one]
    exact RoundedScalar.le_min_of_not_lt low capped

omit positive capped counted room in
theorem reachable_of_inReach (low : ¬ config.baseThreshold ≤ 0)
    (ceiling : ¬ config.maxPotential < config.baseThreshold)
    (inReach : config.ThresholdInReach) : config.CanReachThreshold := by
  obtain ⟨capped, counted, unguarded⟩ := inReach
  obtain ⟨n, near⟩ := counted
  have positive := FloatScalar.lt_of_not_le FloatScalar.zero_le_zero
    (ActivationConfig.highest_number near) low
  have room := ActivationConfig.cap_nonneg positive ceiling
  intro nowNs g operated
  have time := operated.bounded
  have h := operated.steady
  have charged := operated.charged room
  rcases unguarded with off | pair | one | low
  · rcases canReach_or_guardFires step depth positive capped ⟨n, near⟩ room h charged time with
      done | ⟨-, -, -, guarded, -⟩
    · exact done
    · unfold ActivationConfig.maxQueueLatencyNs at guarded
      rw [off] at guarded
      exact absurd rfl guarded
  · exact canReach_draining step depth positive capped ⟨n, near⟩ room (Or.inl pair) _ h charged
      (le_refl _) time
  · exact canReach_draining step depth positive capped ⟨n, near⟩ room (Or.inr one) _ h charged
      (le_refl _) time
  · exact canReach_low step depth positive capped ⟨n, near⟩ room low h charged time

end Reach

/-- Signals that weigh nothing, all stamped alike, and no potential. -/
structure Idling (g : ActivationState F) (stampNs : ℕ) : Prop where
  weightless : ∀ w ∈ g.queue, w.weight = 0
  stamped : ∀ w ∈ g.queue, w.enqueuedAtNs = stampNs
  potential : g.potential ≤ 0

theorem ActivationState.fire_heaviest [FloatScalar F] {g : ActivationState F}
    {signal : QueuedSignal F} {light : List (QueuedSignal F)} (queue : g.queue = light ++ [signal])
    (single : g.fireBatchSize = 1) (number : signal.weight ≤ signal.weight)
    (lighter : ∀ w ∈ light, w.weight ≤ w.weight ∧ w.weight < signal.weight) (nowNs : ℕ) :
    (g.fire nowNs).2.queue.Perm light := by
  have each : ∀ w ∈ g.queue, w.weight ≤ w.weight := by
    intro w hw
    rw [queue] at hw
    rcases List.mem_append.mp hw with before | last
    · exact (lighter w before).1
    · rw [List.mem_singleton.mp last]
      exact number
  obtain ⟨-, -, heaviest⟩ := g.fire_batch FloatScalar.numbers nowNs each
  have perm := (g.fire_perm nowNs).trans
    ((List.Perm.of_eq queue).trans (List.perm_append_singleton signal light))
  have one : (g.fire nowNs).1.length = 1 := by
    unfold fire
    rw [List.length_take, length_sortBy, queue, List.length_append, List.length_singleton, single]
    omega
  obtain ⟨q, fired⟩ := List.length_eq_one_iff.mp one
  rw [fired, List.singleton_append] at perm
  by_cases same : q = signal
  · rw [same] at perm
    exact perm.cons_inv
  · have taken : q ∈ light :=
      (List.mem_cons.mp (perm.mem_iff.mp List.mem_cons_self)).resolve_left same
    have left : signal ∈ (g.fire nowNs).2.queue :=
      (List.mem_cons.mp (perm.mem_iff.mpr List.mem_cons_self)).resolve_left (Ne.symm same)
    have least := heaviest q (by rw [fired]; exact List.mem_singleton_self q) signal left
    exact absurd (lighter q taken).2 (FloatScalar.not_lt_of_le least)

def idleSignal (nowNs : ℕ) : QueuedSignal F := ⟨⟨0⟩, ⟨[1]⟩, 0, .acknowledged, nowNs⟩

section Stuck

variable [RoundedScalar F] {config : ActivationConfig F} {g : ActivationState F}
  (step : config.activationFunction = .step) (depth : config.maxQueueDepth ≤ u64Max)
  (positive : ¬ config.baseThreshold ≤ 0)

include step depth positive

theorem exists_idling {stampNs : ℕ} (time : stampNs ≤ u64Max) (k : ℕ)
    (room : k ≤ max config.maxQueueDepth 1) :
    ∃ g, Operated config (if k = 0 then 0 else stampNs) g ∧ Idling g stampNs ∧
      g.queue.length = k ∧ g.refractoryUntilNs = 0 := by
  induction k with
  | zero =>
    refine ⟨.new config, .new, ⟨?_, ?_, FloatScalar.zero_le_zero⟩, rfl, rfl⟩
    · intro w hw
      cases hw
    · intro w hw
      cases hw
  | succ k ih =>
    obtain ⟨g, operated, idling, length, deadline⟩ := ih (by omega)
    have h := operated.steady
    have space : g.queue.length < g.maxQueueDepth := by
      rw [length, h.depth]
      omega
    have queue := ActivationState.offered_queue_of_room space (idleSignal stampNs) (1 : F)
    have idle : Idling (g.offered (idleSignal stampNs) 1) stampNs := by
      constructor
      · intro w hw
        rcases ActivationState.mem_offered hw with rfl | before
        · rfl
        · exact idling.weightless w before
      · intro w hw
        rcases ActivationState.mem_offered hw with rfl | before
        · rfl
        · exact idling.stamped w before
      · have weightless : (idleSignal stampNs : QueuedSignal F).weight = 0 := rfl
        have kept := FloatScalar.le_trans
          (RoundedScalar.add_zero_le (FloatScalar.number_left idling.potential)) idling.potential
        rw [(g.offered_charges _ _).1, weightless, RoundedScalar.mul_one]
        exact FloatScalar.le_trans
          (RoundedScalar.min_le_left _ (FloatScalar.number_left kept)) kept
    have short : ¬ ((g.offered (idleSignal stampNs) 1).evaluate .maximal).1 = true := by
      rw [h.evaluate_iff step]
      exact h.not_reaches_zero depth positive idle.potential
    have quiet : (((g.offered (idleSignal stampNs) 1).evaluate .maximal).1 ||
        (g.offered (idleSignal stampNs) 1).isStarving stampNs) = false := by
      rw [Bool.eq_false_of_not_eq_true short, Steady.calm_of_stamped idle.stamped]
      rfl
    have after : (GateMoment.onGate (.admitSignal (idleSignal stampNs) 1 stampNs .maximal)
        g).after = g.offered (idleSignal stampNs) 1 :=
      (ActivationState.admitSignal_of_still (Or.inr quiet)).2
    refine ⟨g.offered (idleSignal stampNs) 1, ?_, idle, ?_, ?_⟩
    · rw [← after, if_neg (Nat.succ_ne_zero k)]
      have weighted : (GateMoment.onGate (.admitSignal (idleSignal stampNs) 1 stampNs .maximal)
          g).Weighted :=
        ⟨⟨RoundedScalar.finite_zero, RoundedScalar.finite_one⟩, FloatScalar.zero_le_zero,
          RoundedScalar.le_of_lt RoundedScalar.zero_lt_one⟩
      exact .call (.admitSignal (idleSignal stampNs) 1 stampNs .maximal) trivial weighted time
        operated
    · rw [queue, List.length_append, length, List.length_singleton]
    · rw [(g.offered_charges _ _).2, deadline]

omit positive in
/-- A full gate stays full where the guard cannot fire: it is off, or there is no time left. So a
bound that each offer keeps, and that is under the highest threshold, stays under it. -/
theorem not_canReach_bounded {P : F → Prop}
    (keeps : ∀ p, P p → P (min (p + 1) config.maxPotential))
    (short : ∀ p, P p → ¬ config.highestThreshold ≤ min (p + 1) config.maxPotential)
    {sinceNs : ℕ} (h : Steady config g) (full : g.maxQueueDepth ≤ g.queue.length + 1)
    (calm : config.maxQueueLatencyNs = 0 ∨
      sinceNs = u64Max ∧ ∀ w ∈ g.queue, w.enqueuedAtNs = u64Max) (bounded : P g.potential) :
    ¬ CanReach sinceNs g := by
  intro reach
  induction reach with
  | @now g sinceNs nowNs signal rng offer reaches =>
    rw [h.evaluate_iff step, h.offered_highest depth full, h.offered_potential offer.weight]
      at reaches
    exact short _ bounded reaches
  | @later g sinceNs nowNs signal rng offer rest ih =>
    have under : ¬ ((g.offered signal 1).evaluate rng).1 = true := by
      rw [h.evaluate_iff step, h.offered_highest depth full, h.offered_potential offer.weight]
      exact short _ bounded
    have steady := h.offered signal 1
    have calm' : config.maxQueueLatencyNs = 0 ∨
        nowNs = u64Max ∧ ∀ w ∈ (g.offered signal 1).queue, w.enqueuedAtNs = u64Max := by
      rcases calm with off | ⟨last, stamped⟩
      · exact Or.inl off
      · have now : nowNs = u64Max := by
          have later := offer.later
          have bounded := offer.bounded
          omega
        refine Or.inr ⟨now, ?_⟩
        intro w hw
        rcases ActivationState.mem_offered hw with rfl | before
        · exact offer.stamped.trans now
        · exact stamped w before
    have still : (g.offered signal 1).isStarving nowNs = false := by
      rcases calm' with off | ⟨last, stamped⟩
      · by_contra starving
        apply (ActivationState.isStarving_iff.mp (eq_true_of_ne_false starving)).1
        exact steady.latency.trans off
      · rw [last]
        exact Steady.calm_of_stamped stamped
    have quiet : (((g.offered signal 1).evaluate rng).1 ||
        (g.offered signal 1).isStarving nowNs) = false := by
      rw [Bool.eq_false_of_not_eq_true under, still]
      rfl
    rw [(ActivationState.admitSignal_of_still (Or.inr quiet)).2] at ih
    apply ih steady _ calm'
    · rw [h.offered_potential offer.weight]
      exact keeps _ bounded
    · have filled := (g.offered_length signal 1).2
      have size := h.depth
      have size' := steady.depth
      omega

theorem not_reachable_of_bounded {P : F → Prop}
    (keeps : ∀ p, P p → P (min (p + 1) config.maxPotential))
    (short : ∀ p, P p → ¬ config.highestThreshold ≤ min (p + 1) config.maxPotential)
    (idle : ∀ p, p ≤ 0 → P p) : ¬ config.CanReachThreshold := by
  intro reachable
  obtain ⟨g, operated, idling, length, -⟩ :=
    exists_idling step depth positive (le_refl u64Max) _ (le_refl _)
  rw [if_neg (by omega)] at operated
  apply not_canReach_bounded step depth keeps short operated.steady _
    (Or.inr ⟨rfl, idling.stamped⟩) (idle _ idling.potential) (reachable _ g operated)
  rw [length, operated.steady.depth]
  omega

omit step depth positive in
theorem short_of_cap (under : config.maxPotential < config.highestThreshold) (p : F) :
    ¬ config.highestThreshold ≤ min (p + 1) config.maxPotential := by
  intro reached
  have number := FloatScalar.number_left (RoundedScalar.le_of_lt under)
  exact FloatScalar.not_lt_of_le
    (FloatScalar.le_trans reached (FloatScalar.min_le_right _ number)) under

theorem capped_of_canReach (reachable : config.CanReachThreshold) :
    ¬ config.maxPotential < config.highestThreshold := by
  intro under
  exact not_reachable_of_bounded step depth positive (P := fun _ => True) (fun _ _ => trivial)
    (fun p _ => short_of_cap under p) (fun _ _ => trivial) reachable

theorem counted_of_canReach (reachable : config.CanReachThreshold) :
    ∃ n : ℕ, config.highestThreshold ≤ (· + 1)^[n] 0 := by
  by_contra beyond
  have step_le : ∀ p : F, (∃ n : ℕ, p ≤ (· + 1)^[n] 0) →
      ∃ n : ℕ, min (p + 1) config.maxPotential ≤ (· + 1)^[n] 0 := by
    rintro p ⟨n, low⟩
    have grown := RoundedScalar.add_one_le_add_one low
    refine ⟨n + 1, ?_⟩
    rw [Function.iterate_succ_apply']
    exact FloatScalar.le_trans (RoundedScalar.min_le_left _ (FloatScalar.number_left grown)) grown
  refine not_reachable_of_bounded step depth positive step_le ?_ (fun p low => ⟨0, low⟩) reachable
  intro p low reached
  obtain ⟨n, next⟩ := step_le p low
  exact beyond ⟨n, FloatScalar.le_trans reached next⟩

omit positive in
/-- A guard that takes one signal at a time takes each offer, while what starved stays. -/
theorem not_canReach_guarded (above : ¬ config.highestThreshold ≤ 1)
    (guarded : config.maxQueueLatencyNs ≠ 0) (single : config.fireBatchSize ≤ 1) {sinceNs : ℕ}
    (h : Steady config g) (idling : Idling g 0) (waits : g.queue ≠ [])
    (length : g.queue.length + 1 = g.maxQueueDepth)
    (late : config.maxQueueLatencyNs ≤ g.refractoryUntilNs) : ¬ CanReach sinceNs g := by
  intro reach
  induction reach with
  | @now g sinceNs nowNs signal rng offer reaches =>
    rw [h.evaluate_iff step, h.offered_highest depth length.ge, h.offered_potential offer.weight]
      at reaches
    have grown := RoundedScalar.add_one_le_add_one idling.potential
    rw [RoundedScalar.zero_add_one] at grown
    exact above (FloatScalar.le_trans reaches
      (FloatScalar.le_trans (RoundedScalar.min_le_left _ (FloatScalar.number_left grown)) grown))
  | @later g sinceNs nowNs signal rng offer rest ih =>
    have steady := h.offered signal 1
    have queue := ActivationState.offered_queue_of_room (g := g) (by omega) signal 1
    have starving : (g.offered signal 1).isStarving nowNs = true := by
      obtain ⟨w, queued⟩ := List.exists_mem_of_ne_nil _ waits
      apply ActivationState.isStarving_iff.mpr
      rw [steady.latency, queue]
      refine ⟨guarded, w, List.mem_append_left _ queued, ?_⟩
      have ready := offer.ready
      rw [idling.stamped w queued]
      omega
    have fires : (((g.offered signal 1).evaluate rng).1 ||
        (g.offered signal 1).isStarving nowNs) = true := by
      rw [starving, Bool.or_true]
    have after := (ActivationState.admitSignal_of_fires
      (ActivationState.offered_ready offer.ready) fires).2
    have perm : ((g.offered signal 1).fire nowNs).2.queue.Perm g.queue := by
      apply ActivationState.fire_heaviest queue
      · have batch := steady.batch
        omega
      · rw [offer.weight]
        exact FloatScalar.number_right (RoundedScalar.le_of_lt RoundedScalar.zero_lt_one)
      · intro w hw
        rw [idling.weightless w hw, offer.weight]
        exact ⟨FloatScalar.zero_le_zero, RoundedScalar.zero_lt_one⟩
    rw [after] at ih
    apply ih (steady.fire nowNs)
    · constructor
      · intro w hw
        exact idling.weightless w (perm.mem_iff.mp hw)
      · intro w hw
        exact idling.stamped w (perm.mem_iff.mp hw)
      · exact FloatScalar.zero_le_zero
    · intro empty
      rw [empty] at perm
      exact waits perm.symm.eq_nil
    · have size := h.depth
      have size' := (steady.fire nowNs).depth
      rw [perm.length_eq]
      omega
    · have ready := offer.ready
      have bounded := offer.bounded
      show config.maxQueueLatencyNs ≤ min (nowNs + _) u64Max
      omega

/-- A gate full of signals that weigh nothing is drained of one when the guard lets it. -/
theorem exists_starving (guarded : config.maxQueueLatencyNs ≠ 0)
    (single : config.fireBatchSize ≤ 1) (deep : 1 < config.maxQueueDepth) {nowNs : ℕ}
    (time : nowNs ≤ u64Max) (late : config.maxQueueLatencyNs ≤ nowNs) :
    ∃ g, Operated config nowNs g ∧ Idling g 0 ∧ g.queue ≠ [] ∧
      g.queue.length + 1 = g.maxQueueDepth ∧ config.maxQueueLatencyNs ≤ g.refractoryUntilNs := by
  obtain ⟨g, operated, idling, length, deadline⟩ :=
    exists_idling step depth positive (Nat.zero_le u64Max) _ (le_refl _)
  have h := operated.steady
  have starving : g.isStarving nowNs = true := by
    obtain ⟨w, queued⟩ := List.exists_mem_of_length_pos (l := g.queue) (by omega)
    apply ActivationState.isStarving_iff.mpr
    rw [h.latency]
    refine ⟨guarded, w, queued, ?_⟩
    rw [idling.stamped w queued]
    exact late
  have past : g.inRefractory nowNs = false := by
    rw [ActivationState.inRefractory_eq_false, deadline]
    exact Nat.zero_le _
  have guard : (GateCall.drainIfStarving nowNs).guardFires g = true := by
    show (!g.inRefractory nowNs && g.isStarving nowNs) = true
    rw [starving, past]
    rfl
  obtain ⟨-, -, after⟩ := GateCall.guardFires_spec guard
  have drained := operated.call (.drainIfStarving nowNs) trivial trivial time
  rw [after] at drained
  have left : (g.fire nowNs).2.queue.length + 1 = g.queue.length := by
    have batch := h.batch
    show ((sortBy ActivationState.fireCmp g.queue).drop _).length + 1 = _
    rw [List.length_drop, length_sortBy]
    omega
  have stays : ∀ w ∈ (g.fire nowNs).2.queue, w ∈ g.queue := by
    intro w hw
    exact (g.fire_perm nowNs).mem_iff.mp (List.mem_append_right _ hw)
  refine ⟨(g.fire nowNs).2, drained, ⟨?_, ?_, FloatScalar.zero_le_zero⟩, ?_, ?_, ?_⟩
  · intro w hw
    exact idling.weightless w (stays w hw)
  · intro w hw
    exact idling.stamped w (stays w hw)
  · apply List.ne_nil_of_length_pos
    omega
  · have size := (h.fire nowNs).depth
    omega
  · show config.maxQueueLatencyNs ≤ min (nowNs + _) u64Max
    omega

theorem unguarded_of_canReach (reachable : config.CanReachThreshold) :
    config.maxQueueLatencyMs = 0 ∨ 2 ≤ config.fireBatchSize ∨ config.maxQueueDepth ≤ 1 ∨
      config.highestThreshold ≤ 1 := by
  by_contra none
  obtain ⟨on, single, deep, above⟩ : config.maxQueueLatencyMs ≠ 0 ∧ config.fireBatchSize ≤ 1 ∧
      1 < config.maxQueueDepth ∧ ¬ config.highestThreshold ≤ 1 := by
    push Not at none
    exact ⟨none.1, by omega, none.2.2.1, none.2.2.2⟩
  have guarded : config.maxQueueLatencyNs ≠ 0 := by
    unfold ActivationConfig.maxQueueLatencyNs saturatingMul u64Max
    omega
  obtain ⟨g, operated, idling, waits, length, late⟩ := exists_starving step depth positive guarded
    single deep (min_le_right _ _) (le_refl config.maxQueueLatencyNs)
  exact not_canReach_guarded step depth above guarded single operated.steady idling waits length
    late (reachable _ g operated)

end Stuck

/-- An accepted gate with the step function can always reach its threshold exactly if its cap is
not under the highest threshold, counting by one gets there, and its guard does not take each
offer. -/
theorem threshold_reachable_iff [RoundedScalar F] {config : ActivationConfig F}
    (checked : config.validate = .ok ()) (depth : config.maxQueueDepth ≤ u64Max)
    (step : config.activationFunction = .step) :
    config.CanReachThreshold ↔ config.ThresholdInReach := by
  obtain ⟨-, some, positive, ceiling, -⟩ := config.validate_iff.mp checked
  constructor
  · intro reachable
    constructor
    · exact capped_of_canReach step depth positive reachable
    · exact counted_of_canReach step depth positive reachable
    · rcases unguarded_of_canReach step depth positive reachable with off | pair | one | low
      · exact Or.inl off
      · exact Or.inr (Or.inl pair)
      · exact Or.inr (Or.inr (Or.inl (by omega)))
      · exact Or.inr (Or.inr (Or.inr low))
  · exact reachable_of_inReach step depth positive ceiling

/-! A gate as deep as one signal, whose load is always full, and one whose guard takes every
offer. -/

section Sample

def thinConfig : ActivationConfig ℚ :=
  { ActivationConfig.forClass .edge with
    maxPotential := 3 / 4, maxQueueDepth := 1, maxQueueLatencyMs := 0 }

theorem thin_gate_never_reaches :
    thinConfig.validate = .ok () ∧ thinConfig.activationFunction = .step ∧
    (∀ sinceNs, ¬ CanReach sinceNs (.new thinConfig)) ∧ ¬ thinConfig.CanReachThreshold ∧
    singleConfig.validate = .ok () ∧ singleConfig.activationFunction = .step ∧
    ¬ singleConfig.CanReachThreshold := by
  have never : ∀ sinceNs, ¬ CanReach sinceNs (.new thinConfig) := by
    intro sinceNs
    have under : thinConfig.maxPotential < thinConfig.highestThreshold := by decide +kernel
    exact not_canReach_bounded rfl (by decide) (P := fun _ => True) (fun _ _ => trivial)
      (fun p _ => short_of_cap under p) (.new _) (by decide) (Or.inl (by decide)) trivial
  have stuck : ¬ singleConfig.CanReachThreshold := by
    intro reachable
    have unguarded := unguarded_of_canReach rfl (by decide) (by decide +kernel) reachable
    revert unguarded
    decide +kernel
  refine ⟨?_, rfl, never, ?_, ?_, rfl, stuck⟩
  · rw [ActivationConfig.validate_iff]
    decide +kernel
  · intro reachable
    exact never 0 (reachable _ _ .new)
  · rw [ActivationConfig.validate_iff]
    decide +kernel

theorem edge_can_reach : (ActivationConfig.forClass .edge (F := ℚ)).CanReachThreshold := by
  apply (threshold_reachable_iff (ActivationConfig.validate_forClass .edge) (by decide) rfl).mpr
  constructor
  · decide +kernel
  · exact ⟨1, by decide +kernel⟩
  · exact Or.inr (Or.inl (by decide))

end Sample

end OpenNtl
