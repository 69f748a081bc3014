import OpenNtl.ActivationRun

/-! # Restarting the activation gate

A snapshot may come from another configuration or another clock. Its potential is clamped to the
new ceiling; its threshold and its refractory deadline stand until the gate computes its own.
-/
namespace OpenNtl

open OrderedScalar SignedScalar

variable {F : Type}

/-- The clock reading a call is made with. Adjusting for load reads none, and never fires. -/
def GateCall.nowNs : GateCall F → ℕ
  | .admitSignal _ _ nowNs _ => nowNs
  | .drainIfStarving nowNs => nowNs
  | .drainBatch nowNs => nowNs
  | .adjustForLoad _ => 0

def GateCall.recomputes : GateCall F → Bool
  | .admitSignal _ _ _ _ => true
  | .adjustForLoad _ => true
  | _ => false

def ActivationConfig.refractoryPeriodNs (config : ActivationConfig F) : ℕ :=
  saturatingMul config.refractoryPeriodMs 1000000

def GateMoment.deadline (config : ActivationConfig F) (before : ℕ) (m : GateMoment F) : ℕ :=
  if m.fired.isEmpty then before else saturatingAdd m.call.nowNs config.refractoryPeriodNs

/-- The deadline that a snapshot and the calls since its restore leave. -/
def deadlineAfter (config : ActivationConfig F) (snapshot : ActivationSnapshot F)
    (ms : List (GateMoment F)) : ℕ :=
  ms.foldl (fun before m => m.deadline config before) snapshot.refractoryUntilNs

variable [Scalar F]

def ActivationConfig.Effective (config : ActivationConfig F) (threshold : F) : Prop :=
  if config.dynamicThreshold then
    config.baseThreshold ≤ threshold ∧ threshold ≤ Scalar.lit 2 * config.baseThreshold
  else threshold = config.baseThreshold

/-- The calls on a gate since it was restored, oldest first, and the state they left. -/
inductive RestoredRun (config : ActivationConfig F) (snapshot : ActivationSnapshot F) :
    List (GateMoment F) → ActivationState F → Prop
  | start : RestoredRun config snapshot [] ((ActivationState.new config).restore snapshot)
  | call {ms : List (GateMoment F)} {g : ActivationState F} (call : GateCall F) :
      RestoredRun config snapshot ms g →
        RestoredRun config snapshot (ms ++ [.onGate call g]) (GateMoment.onGate call g).after

/-- The gates of one configuration through any number of restarts from their own snapshots, none
of whose calls has read the clock past a reading. -/
inductive Lifetime (config : ActivationConfig F) (nowNs : ℕ) : ActivationState F → Prop
  | start : Lifetime config nowNs (.new config)
  | call {g : ActivationState F} (call : GateCall F) (read : call.nowNs ≤ nowNs) :
      Lifetime config nowNs g → Lifetime config nowNs (GateMoment.onGate call g).after
  | restart {g : ActivationState F} (takenAtNs : ℕ) :
      Lifetime config nowNs g →
        Lifetime config nowNs ((ActivationState.new config).restore (g.snapshot takenAtNs))

/-- Restarting keeps the gate within its configuration: in every state since, and in the wait that
is left at the restart. -/
def KeepsConfiguration (config : ActivationConfig F) (snapshot : ActivationSnapshot F)
    (nowNs : ℕ) : Prop :=
  (∀ ms g, RestoredRun config snapshot ms g → (∀ m ∈ ms, m.Weighted) →
    config.Effective g.threshold ∧ 0 ≤ g.potential ∧ g.potential ≤ config.maxPotential) ∧
  ((ActivationState.new config).restore snapshot).refractoryUntilNs - nowNs ≤
    config.refractoryPeriodNs

/-- What holds after a restart from any snapshot. -/
structure Restarted (config : ActivationConfig F) (snapshot : ActivationSnapshot F)
    (ms : List (GateMoment F)) (g : ActivationState F) : Prop where
  capped : g.potential ≤ config.maxPotential
  charged : (∀ m ∈ ms, m.Weighted) → 0 ≤ g.potential
  threshold : (config.Effective snapshot.threshold ∨
    config.dynamicThreshold = true ∧ ∃ m ∈ ms, m.call.recomputes = true) →
      config.Effective g.threshold
  deadline : g.refractoryUntilNs = deadlineAfter config snapshot ms

/-- The gate is set up as its configuration has it. -/
structure Tuned (config : ActivationConfig F) (g : ActivationState F) : Prop where
  base : g.baseThreshold = config.baseThreshold
  dynamic : g.dynamic = config.dynamicThreshold
  period : g.refractoryPeriodNs = config.refractoryPeriodNs
  ceiling : g.maxPotential = config.maxPotential
  batch : 0 < g.fireBatchSize
  depth : 0 < g.maxQueueDepth

namespace ActivationState

variable {g : ActivationState F}

theorem fire_nonempty (waiting : g.queue ≠ []) (batch : 0 < g.fireBatchSize) (nowNs : ℕ) :
    (g.fire nowNs).1 ≠ [] := by
  have sorted := (sortBy_perm fireCmp g.queue).length_eq
  have some := List.length_pos_iff.mpr waiting
  apply List.ne_nil_of_length_pos
  simp only [fire, List.length_take]
  omega

theorem enqueue_waits (depth : 0 < g.maxQueueDepth) (signal : QueuedSignal F) :
    (g.enqueue signal).2.queue ≠ [] := by
  have perm := (g.enqueue_perm signal).length_eq
  rw [List.length_append, List.length_cons] at perm
  apply List.ne_nil_of_length_pos
  by_cases room : g.queue.length < g.maxQueueDepth
  · rw [g.enqueue_room signal room, Option.toList_none, List.length_nil] at perm
    omega
  · have one : (g.enqueue signal).1.toList.length ≤ 1 := by
      cases (g.enqueue signal).1 <;> simp
    omega

omit [Scalar F] in
theorem isStarving_waits {nowNs : ℕ} (starving : g.isStarving nowNs = true) : g.queue ≠ [] := by
  obtain ⟨-, s, queued, -⟩ := isStarving_iff.mp starving
  exact List.ne_nil_of_mem queued

theorem offered_eq_adjustForLoad (g : ActivationState F) (signal : QueuedSignal F)
    (synapseWeight : F) : ∃ load, g.offered signal synapseWeight =
      ((g.charged (signal.weight * synapseWeight)).enqueue signal).2.adjustForLoad load :=
  ⟨_, rfl⟩

theorem adjustForLoad_keeps (g : ActivationState F) (load : F) :
    ∃ threshold, g.adjustForLoad load = { g with threshold := threshold } := by
  unfold adjustForLoad
  split
  · exact ⟨_, rfl⟩
  · exact ⟨g.threshold, rfl⟩

end ActivationState

def GateCall.poised (call : GateCall F) (g : ActivationState F) : ActivationState F :=
  match call with
  | .admitSignal signal synapseWeight _ _ => g.offered signal synapseWeight
  | .adjustForLoad loadFactor => g.adjustForLoad loadFactor
  | _ => g

theorem GateMoment.onGate_spec {g : ActivationState F} (depth : 0 < g.maxQueueDepth)
    (call : GateCall F) :
    ((onGate call g).fired = [] ∧ (onGate call g).after = call.poised g) ∨
      ((call.poised g).queue ≠ [] ∧
        (onGate call g).fired = ((call.poised g).fire call.nowNs).1 ∧
        (onGate call g).after = ((call.poised g).fire call.nowNs).2) := by
  cases call with
  | admitSignal signal synapseWeight nowNs rng =>
    have waits : (g.offered signal synapseWeight).queue ≠ [] := by
      rw [ActivationState.offered_queue]
      have room : 0 < (g.charged (signal.weight * synapseWeight)).maxQueueDepth := depth
      exact ActivationState.enqueue_waits room signal
    rcases g.admitSignal_spec signal synapseWeight nowNs rng with ⟨out, gate⟩ | ⟨out, gate⟩
    · exact Or.inl ⟨congrArg AdmitOutcome.fired out, gate⟩
    · exact Or.inr ⟨waits, congrArg AdmitOutcome.fired out, gate⟩
  | drainIfStarving nowNs =>
    simp only [onGate, GateCall.poised, GateCall.nowNs]
    rcases g.drainIfStarving_cases nowNs with held | ⟨starving, fires⟩
    · rw [held]
      exact Or.inl ⟨rfl, rfl⟩
    · rw [fires]
      exact Or.inr ⟨ActivationState.isStarving_waits starving, rfl, rfl⟩
  | drainBatch nowNs =>
    simp only [onGate, GateCall.poised, GateCall.nowNs, ActivationState.drainBatch]
    by_cases empty : g.queue.isEmpty = true
    · rw [if_pos empty]
      exact Or.inl ⟨rfl, rfl⟩
    · rw [if_neg empty]
      exact Or.inr ⟨fun none => empty (List.isEmpty_iff.mpr none), rfl, rfl⟩
  | adjustForLoad loadFactor => exact Or.inl ⟨rfl, rfl⟩

namespace Tuned

variable {config : ActivationConfig F} {g : ActivationState F}

theorem adjustForLoad (h : Tuned config g) (load : F) : Tuned config (g.adjustForLoad load) := by
  unfold ActivationState.adjustForLoad
  split
  · exact ⟨h.base, h.dynamic, h.period, h.ceiling, h.batch, h.depth⟩
  · exact h

theorem fire (h : Tuned config g) (nowNs : ℕ) : Tuned config (g.fire nowNs).2 :=
  ⟨h.base, h.dynamic, h.period, h.ceiling, h.batch, h.depth⟩

theorem enqueue (h : Tuned config g) (signal : QueuedSignal F) :
    Tuned config (g.enqueue signal).2 := by
  obtain ⟨queue, dropped, overflows, same⟩ := g.enqueue_keeps signal
  rw [same]
  exact ⟨h.base, h.dynamic, h.period, h.ceiling, h.batch, h.depth⟩

theorem charged (h : Tuned config g) (contribution : F) :
    Tuned config (g.charged contribution) :=
  ⟨h.base, h.dynamic, h.period, h.ceiling, h.batch, h.depth⟩

theorem poised (h : Tuned config g) (call : GateCall F) : Tuned config (call.poised g) := by
  cases call with
  | admitSignal signal synapseWeight nowNs rng =>
    obtain ⟨threshold, queue, dropped, overflows, same⟩ := g.offered_keeps signal synapseWeight
    have poised : (GateCall.admitSignal signal synapseWeight nowNs rng).poised g = _ := same
    rw [poised]
    exact ⟨h.base, h.dynamic, h.period, h.ceiling, h.batch, h.depth⟩
  | drainIfStarving nowNs => exact h
  | drainBatch nowNs => exact h
  | adjustForLoad loadFactor => exact h.adjustForLoad loadFactor

theorem after_of (h : Tuned config g) (call : GateCall F) {P : ActivationState F → Prop}
    (poised : P (call.poised g))
    (fires : P (call.poised g) → P ((call.poised g).fire call.nowNs).2) :
    P (GateMoment.onGate call g).after := by
  rcases GateMoment.onGate_spec h.depth call with ⟨-, still⟩ | ⟨-, -, fired⟩
  · rw [still]
    exact poised
  · rw [fired]
    exact fires poised

theorem after (h : Tuned config g) (call : GateCall F) :
    Tuned config (GateMoment.onGate call g).after :=
  h.after_of call (h.poised call) fun poised => poised.fire call.nowNs

theorem restore (h : Tuned config g) (snapshot : ActivationSnapshot F) :
    Tuned config (g.restore snapshot) :=
  ⟨h.base, h.dynamic, h.period, h.ceiling, h.batch, h.depth⟩

theorem new (config : ActivationConfig F) : Tuned config (ActivationState.new config) where
  base := rfl
  dynamic := rfl
  period := rfl
  ceiling := rfl
  batch := Nat.lt_of_lt_of_le Nat.zero_lt_one (le_max_right _ _)
  depth := Nat.lt_of_lt_of_le Nat.zero_lt_one (le_max_right _ _)

end Tuned

/-- Before it fires, a call moves no deadline, and the potential only by what is offered. -/
theorem GateCall.poised_keeps (call : GateCall F) (g : ActivationState F) :
    (call.poised g).refractoryUntilNs = g.refractoryUntilNs ∧
      ((call.poised g).potential = g.potential ∨
        ∃ signal synapseWeight nowNs rng, call = .admitSignal signal synapseWeight nowNs rng ∧
          (call.poised g).potential =
            min (g.potential + signal.weight * synapseWeight) g.maxPotential) := by
  cases call with
  | admitSignal signal synapseWeight nowNs rng =>
    obtain ⟨threshold, queue, dropped, overflows, same⟩ := g.offered_keeps signal synapseWeight
    have poised : (admitSignal signal synapseWeight nowNs rng).poised g = _ := same
    rw [poised]
    exact ⟨rfl, Or.inr ⟨signal, synapseWeight, nowNs, rng, rfl, rfl⟩⟩
  | drainIfStarving nowNs => exact ⟨rfl, Or.inl rfl⟩
  | drainBatch nowNs => exact ⟨rfl, Or.inl rfl⟩
  | adjustForLoad loadFactor =>
    obtain ⟨threshold, adjusted⟩ := g.adjustForLoad_keeps loadFactor
    have poised : (adjustForLoad loadFactor).poised g = _ := adjusted
    rw [poised]
    exact ⟨rfl, Or.inl rfl⟩

@[simp] theorem GateMoment.onGate_call (call : GateCall F) (g : ActivationState F) :
    (onGate call g).call = call := by
  cases call <;> rfl

omit [Scalar F] in
theorem deadlineAfter_append (config : ActivationConfig F) (snapshot : ActivationSnapshot F)
    (ms : List (GateMoment F)) (m : GateMoment F) :
    deadlineAfter config snapshot (ms ++ [m]) =
      m.deadline config (deadlineAfter config snapshot ms) := by
  simp [deadlineAfter]

section Runs

variable [MonotoneScalar F] {config : ActivationConfig F} {snapshot : ActivationSnapshot F}
  {g : ActivationState F}

theorem scaled_within {base : F} (positive : 0 ≤ base) (load : F) :
    base ≤ base * (1 + Scalar.clamp load 0 1) ∧
      base * (1 + Scalar.clamp load 0 1) ≤ Scalar.lit 2 * base := by
  have low : 0 ≤ Scalar.clamp load 0 1 := le_clamp zero_le_one
  have high : Scalar.clamp load 0 1 ≤ 1 := clamp_le zero_le_one
  constructor
  · calc base = base * (1 + 0) := by rw [MonotoneScalar.one_add_zero, MonotoneScalar.mul_one]
      _ ≤ base * (1 + Scalar.clamp load 0 1) :=
        MonotoneScalar.mul_le_mul_left positive (MonotoneScalar.add_le_add_left 1 low)
  · rw [← MonotoneScalar.mul_one_add_one]
    exact MonotoneScalar.mul_le_mul_left positive (MonotoneScalar.add_le_add_left 1 high)

theorem ActivationConfig.effective_base (positive : 0 ≤ config.baseThreshold) :
    config.Effective config.baseThreshold := by
  unfold Effective
  split
  · obtain ⟨low, high⟩ := scaled_within positive (0 : F)
    exact ⟨OrderedScalar.le_refl _, OrderedScalar.le_trans low high⟩
  · rfl

namespace Tuned

theorem effective_adjusted (h : Tuned config g) (positive : 0 ≤ config.baseThreshold) (load : F)
    (known : config.Effective g.threshold ∨ config.dynamicThreshold = true) :
    config.Effective (g.adjustForLoad load).threshold := by
  unfold ActivationState.adjustForLoad
  by_cases dynamic : config.dynamicThreshold = true
  · rw [if_pos (h.dynamic.trans dynamic)]
    show config.Effective (g.baseThreshold * (1 + Scalar.clamp load 0 1))
    rw [h.base, ActivationConfig.Effective, if_pos dynamic]
    exact scaled_within positive load
  · rw [h.dynamic, if_neg dynamic]
    exact known.resolve_right dynamic

theorem effective_after (h : Tuned config g) (positive : 0 ≤ config.baseThreshold)
    (call : GateCall F) (known : config.Effective g.threshold ∨
      config.dynamicThreshold = true ∧ call.recomputes = true) :
    config.Effective (GateMoment.onGate call g).after.threshold := by
  refine h.after_of call (P := fun g => config.Effective g.threshold) ?_ fun poised => poised
  cases call with
  | admitSignal signal synapseWeight nowNs rng =>
    obtain ⟨load, offered⟩ := g.offered_eq_adjustForLoad signal synapseWeight
    obtain ⟨queue, dropped, overflows, filled⟩ :=
      (g.charged (signal.weight * synapseWeight)).enqueue_keeps signal
    have tuned := (h.charged (signal.weight * synapseWeight)).enqueue signal
    have adjusted := tuned.effective_adjusted positive load
    rw [← offered, filled] at adjusted
    exact adjusted (known.imp_right And.left)
  | drainIfStarving nowNs => exact known.resolve_right fun dynamic => by cases dynamic.2
  | drainBatch nowNs => exact known.resolve_right fun dynamic => by cases dynamic.2
  | adjustForLoad loadFactor =>
    exact h.effective_adjusted positive loadFactor (known.imp_right And.left)

end Tuned

theorem Restarted.start (ceiling : 0 ≤ config.maxPotential) :
    Restarted config snapshot [] ((ActivationState.new config).restore snapshot) where
  capped := clamp_le ceiling
  charged := fun _ => le_clamp ceiling
  threshold := by
    rintro (same | ⟨-, m, none, -⟩)
    · exact same
    · cases none
  deadline := rfl

theorem Restarted.call {ms : List (GateMoment F)} (positive : 0 ≤ config.baseThreshold)
    (ceiling : 0 ≤ config.maxPotential) (tuned : Tuned config g)
    (h : Restarted config snapshot ms g) (call : GateCall F) :
    Restarted config snapshot (ms ++ [.onGate call g]) (GateMoment.onGate call g).after := by
  obtain ⟨sameDeadline, charge⟩ := call.poised_keeps g
  constructor
  · refine tuned.after_of call (P := fun g => g.potential ≤ config.maxPotential) ?_ fun _ => ceiling
    rcases charge with same | ⟨signal, synapseWeight, nowNs, rng, -, offered⟩
    · rw [same]
      exact h.capped
    · rw [offered, tuned.ceiling]
      exact OrderedScalar.min_le_right _ _
  · intro weighted
    have before := h.charged fun m hm => weighted m (List.mem_append_left _ hm)
    refine tuned.after_of call (P := fun g => 0 ≤ g.potential) ?_ fun _ => OrderedScalar.le_refl 0
    rcases charge with same | ⟨signal, synapseWeight, nowNs, rng, rfl, offered⟩
    · rw [same]
      exact before
    · rw [offered, tuned.ceiling]
      obtain ⟨-, weight, synapse⟩ := weighted _ (List.mem_append_right _ (List.mem_singleton_self _))
      exact OrderedScalar.le_min (OrderedScalar.add_nonneg before
        (OrderedScalar.mul_nonneg weight synapse)) ceiling
  · intro known
    apply tuned.effective_after positive call
    rcases known with same | ⟨dynamic, m, hm, recomputes⟩
    · exact Or.inl (h.threshold (Or.inl same))
    · rcases List.mem_append.mp hm with hm | hm
      · exact Or.inl (h.threshold (Or.inr ⟨dynamic, m, hm, recomputes⟩))
      · rw [List.mem_singleton.mp hm, GateMoment.onGate_call] at recomputes
        exact Or.inr ⟨dynamic, recomputes⟩
  · rw [deadlineAfter_append, ← h.deadline, GateMoment.deadline, GateMoment.onGate_call]
    rcases GateMoment.onGate_spec tuned.depth call with ⟨none, still⟩ | ⟨waits, fired, after⟩
    · rw [none, still, sameDeadline]
      rfl
    · have some := ActivationState.fire_nonempty waits (tuned.poised call).batch call.nowNs
      rw [fired, after, if_neg fun empty => some (List.isEmpty_iff.mp empty)]
      exact congrArg (saturatingAdd call.nowNs) (tuned.poised call).period

theorem run_restarted (positive : 0 ≤ config.baseThreshold) (ceiling : 0 ≤ config.maxPotential)
    {ms : List (GateMoment F)} (run : RestoredRun config snapshot ms g) :
    Tuned config g ∧ Restarted config snapshot ms g := by
  induction run with
  | start => exact ⟨(Tuned.new config).restore snapshot, .start ceiling⟩
  | call call run ih => exact ⟨ih.1.after call, ih.2.call positive ceiling ih.1 call⟩

/-- Through restarts of its own, a gate keeps its threshold, and no deadline is more than a
refractory period ahead of the clock. -/
theorem Lifetime.within {nowNs : ℕ} (positive : 0 ≤ config.baseThreshold)
    (alive : Lifetime config nowNs g) :
    Tuned config g ∧ config.Effective g.threshold ∧
      g.refractoryUntilNs ≤ saturatingAdd nowNs config.refractoryPeriodNs := by
  induction alive with
  | start => exact ⟨.new config, ActivationConfig.effective_base positive, Nat.zero_le _⟩
  | @call g call read alive ih =>
    obtain ⟨tuned, effective, deadline⟩ := ih
    refine ⟨tuned.after call, tuned.effective_after positive call (Or.inl effective), ?_⟩
    rcases GateMoment.onGate_spec tuned.depth call with ⟨-, still⟩ | ⟨-, -, after⟩
    · rw [still, (call.poised_keeps g).1]
      exact deadline
    · have moved : (GateMoment.onGate call g).after.refractoryUntilNs =
          saturatingAdd call.nowNs (call.poised g).refractoryPeriodNs := by
        rw [after]
        rfl
      rw [moved, (tuned.poised call).period]
      unfold saturatingAdd
      omega
  | restart takenAtNs alive ih =>
    obtain ⟨-, effective, deadline⟩ := ih
    exact ⟨(Tuned.new config).restore _, effective, deadline⟩

/-- After a restart from any snapshot the potential is within its bounds, the threshold is the
configured one unless it was carried over, and the deadline holds until the gate fires. From a
snapshot of its own the gate is within its configuration. -/
theorem restart_keeps_gate (checked : config.validate = .ok ()) (snapshot : ActivationSnapshot F) :
    (∀ ms g, RestoredRun config snapshot ms g → Restarted config snapshot ms g) ∧
    ∀ nowNs takenAtNs source, Lifetime config nowNs source →
      snapshot = source.snapshot takenAtNs → KeepsConfiguration config snapshot nowNs := by
  obtain ⟨-, -, base, potential, -⟩ := config.validate_iff.mp checked
  have positive : 0 ≤ config.baseThreshold := le_of_lt (lt_iff.mpr base)
  have ceiling : 0 ≤ config.maxPotential :=
    OrderedScalar.le_trans positive (OrderedScalar.not_lt potential)
  constructor
  · intro ms g run
    exact (run_restarted positive ceiling run).2
  · rintro nowNs takenAtNs source alive rfl
    obtain ⟨-, effective, deadline⟩ := alive.within positive
    constructor
    · intro ms g run weighted
      have restarted := (run_restarted positive ceiling run).2
      exact ⟨restarted.threshold (Or.inl effective), restarted.charged weighted, restarted.capped⟩
    · show source.refractoryUntilNs - nowNs ≤ config.refractoryPeriodNs
      unfold saturatingAdd at deadline
      omega

end Runs

/-! A gate without a refractory period is restored from a snapshot that has one running. -/

section Sample

def heldConfig : ActivationConfig ℚ :=
  { ActivationConfig.forClass .edge with
    refractoryPeriodMs := 0, dynamicThreshold := false, fireBatchSize := 4, maxQueueDepth := 8
    maxQueueLatencyMs := 0 }

def heldSnapshot : ActivationSnapshot ℚ := ⟨0, 1 / 2, 50000000, 7, 10000000⟩

theorem held_past_period :
    heldConfig.validate = .ok () ∧ ¬ KeepsConfiguration heldConfig heldSnapshot 20000000 := by
  constructor
  · rw [ActivationConfig.validate_iff]
    decide +kernel
  · rintro ⟨-, wait⟩
    exact absurd wait (by decide)

theorem light_restart_keeps :
    (∀ ms g, RestoredRun (.forClass .edge) (lightOffered.after.snapshot 5) ms g →
      Restarted (.forClass .edge) (lightOffered.after.snapshot 5) ms g) ∧
    KeepsConfiguration (.forClass .edge) (lightOffered.after.snapshot 5) 10 := by
  have restart := restart_keeps_gate (ActivationConfig.validate_forClass .edge)
    (lightOffered.after.snapshot 5)
  refine ⟨restart.1, restart.2 10 5 lightOffered.after (Lifetime.start.call _ ?_) rfl⟩
  decide

end Sample

end OpenNtl
