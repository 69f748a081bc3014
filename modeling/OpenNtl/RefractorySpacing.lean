import OpenNtl.ActivationRestore

/-! # The refractory period

Admission and the latency guard both look at the deadline before they fire, so batches are a
period apart, whatever the clock does in between.
-/
namespace OpenNtl

variable {F : Type}

def GateCall.Guarded : GateCall F → Prop
  | .admitSignal _ _ _ _ => True
  | .drainIfStarving _ => True
  | _ => False

/-- A call that takes a signal in, if it does anything: nothing leaves the queue but what
overflow displaces, and only an offer adds to the potential. -/
structure GateMoment.StandsStill [Scalar F] (m : GateMoment F) : Prop where
  fired : m.fired = []
  deadline : m.after.refractoryUntilNs = m.before.refractoryUntilNs
  potential : m.after.potential = m.before.potential ∨
    ∃ signal synapseWeight nowNs rng, m.call = .admitSignal signal synapseWeight nowNs rng ∧
      m.after.potential =
        min (m.before.potential + signal.weight * synapseWeight) m.before.maxPotential
  queue : (m.dropped.toList ++ m.after.queue).Perm (m.offered ++ m.before.queue)
  overflow : m.dropped ≠ none → m.before.maxQueueDepth ≤ m.before.queue.length

variable [Scalar F]

/-- Gates that are new, or restored from some snapshot, and the calls made on them before. -/
inductive Reached (config : ActivationConfig F) : ActivationState F → Prop
  | new : Reached config (.new config)
  | restore {g : ActivationState F} (snapshot : ActivationSnapshot F) :
      Reached config g → Reached config (g.restore snapshot)
  | call {g : ActivationState F} (call : GateCall F) :
      Reached config g → Reached config (GateMoment.onGate call g).after

/-- Guarded calls on a gate, oldest first, and the state they left. -/
inductive GuardedRun (config : ActivationConfig F) :
    List (GateMoment F) → ActivationState F → Prop
  | start {g : ActivationState F} (reached : Reached config g) : GuardedRun config [] g
  | call {ms : List (GateMoment F)} {g : ActivationState F} (call : GateCall F)
      (guarded : call.Guarded) : GuardedRun config ms g →
        GuardedRun config (ms ++ [.onGate call g]) (GateMoment.onGate call g).after

/-- Batches are a refractory period apart, and a call before the deadline stands still. -/
structure KeepsRefractory (config : ActivationConfig F) (ms : List (GateMoment F)) : Prop where
  spaced : ms.Pairwise fun m m' => m.fired ≠ [] → m'.fired ≠ [] →
    saturatingAdd m.call.nowNs config.refractoryPeriodNs ≤ m'.call.nowNs
  still : ms.Pairwise fun m m' => m.fired ≠ [] →
    m'.call.nowNs < saturatingAdd m.call.nowNs config.refractoryPeriodNs → m'.StandsStill
  held : ∀ m ∈ ms, m.call.nowNs < m.before.refractoryUntilNs → m.StandsStill

theorem Reached.tuned {config : ActivationConfig F} {g : ActivationState F}
    (reached : Reached config g) : Tuned config g := by
  induction reached with
  | new => exact .new config
  | restore snapshot _ ih => exact ih.restore snapshot
  | call call _ ih => exact ih.after call

@[simp] theorem GateMoment.onGate_before (call : GateCall F) (g : ActivationState F) :
    (onGate call g).before = g := by
  cases call <;> rfl

namespace GateCall

variable {call : GateCall F} {g : ActivationState F}

theorem Guarded.held (guarded : call.Guarded) (early : call.nowNs < g.refractoryUntilNs) :
    (GateMoment.onGate call g).fired = [] ∧ (GateMoment.onGate call g).after = call.poised g := by
  cases call with
  | admitSignal signal synapseWeight nowNs rng =>
    have sameDeadline :=
      ((admitSignal signal synapseWeight nowNs rng).poised_keeps g).1
    have refractory : (g.offered signal synapseWeight).inRefractory nowNs = true :=
      ActivationState.inRefractory_iff.mpr (Nat.lt_of_lt_of_eq early sameDeadline.symm)
    obtain ⟨out, gate⟩ : _ ∧ (g.admitSignal signal synapseWeight nowNs rng).2.1 = _ :=
      ActivationState.admitSignal_of_still (Or.inl refractory)
    exact ⟨congrArg AdmitOutcome.fired out, gate⟩
  | drainIfStarving nowNs =>
    have still : g.drainIfStarving nowNs = ([], g) := ActivationState.drainIfStarving_of_held
      (Or.inl (ActivationState.inRefractory_iff.mpr early))
    constructor
    · exact congrArg Prod.fst still
    · exact congrArg Prod.snd still
  | drainBatch nowNs => exact guarded.elim
  | adjustForLoad loadFactor => exact guarded.elim

theorem dropped_overflow (call : GateCall F) (g : ActivationState F)
    (dropped : (GateMoment.onGate call g).dropped ≠ none) :
    g.maxQueueDepth ≤ g.queue.length := by
  cases call with
  | admitSignal signal synapseWeight nowNs rng =>
    by_contra room
    apply dropped
    have kept : g.displaced signal synapseWeight = none :=
      ActivationState.enqueue_room _ signal (Nat.lt_of_not_le room)
    rcases g.admitSignal_spec signal synapseWeight nowNs rng with ⟨out, -⟩ | ⟨out, -⟩
    · exact (congrArg AdmitOutcome.dropped out).trans kept
    · exact (congrArg AdmitOutcome.dropped out).trans kept
  | drainIfStarving nowNs => exact absurd rfl dropped
  | drainBatch nowNs => exact absurd rfl dropped
  | adjustForLoad loadFactor => exact absurd rfl dropped

theorem Guarded.standsStill (guarded : call.Guarded) (early : call.nowNs < g.refractoryUntilNs) :
    (GateMoment.onGate call g).StandsStill := by
  obtain ⟨none, after⟩ := guarded.held early
  obtain ⟨sameDeadline, charge⟩ := call.poised_keeps g
  have overflow := call.dropped_overflow g
  constructor
  · exact none
  · rw [after, GateMoment.onGate_before, sameDeadline]
  · rw [after, GateMoment.onGate_before, GateMoment.onGate_call]
    exact charge
  · cases call with
    | admitSignal signal synapseWeight nowNs rng =>
      have perm := g.admitSignal_perm signal synapseWeight nowNs rng
      have noneFired : (g.admitSignal signal synapseWeight nowNs rng).1.fired = [] := none
      rw [noneFired, List.nil_append] at perm
      exact perm
    | drainIfStarving nowNs =>
      have perm := g.drainIfStarving_perm nowNs
      have noneFired : (g.drainIfStarving nowNs).1 = [] := none
      rw [noneFired, List.nil_append] at perm
      exact perm
    | drainBatch nowNs => exact guarded.elim
    | adjustForLoad loadFactor => exact guarded.elim
  · rw [GateMoment.onGate_before]
    exact overflow

end GateCall

section Runs

variable {config : ActivationConfig F} {ms : List (GateMoment F)} {g : ActivationState F}

/-- A call that fires leaves its own deadline, and does so only past the one before. -/
theorem GateCall.Guarded.fires {call : GateCall F} (guarded : call.Guarded)
    (tuned : Tuned config g) (fired : (GateMoment.onGate call g).fired ≠ []) :
    g.refractoryUntilNs ≤ call.nowNs ∧ (GateMoment.onGate call g).after.refractoryUntilNs =
      saturatingAdd call.nowNs config.refractoryPeriodNs := by
  constructor
  · by_contra early
    exact fired (guarded.held (Nat.lt_of_not_le early)).1
  · rcases GateMoment.onGate_spec tuned.depth call with ⟨none, -⟩ | ⟨-, -, after⟩
    · exact absurd none fired
    · rw [after]
      exact congrArg (saturatingAdd call.nowNs) (tuned.poised call).period

theorem GateCall.Guarded.keeps_deadline {call : GateCall F} (guarded : call.Guarded)
    (tuned : Tuned config g) {deadline : ℕ} (bounded : deadline ≤ u64Max)
    (set : deadline ≤ g.refractoryUntilNs) :
    deadline ≤ (GateMoment.onGate call g).after.refractoryUntilNs := by
  by_cases fired : (GateMoment.onGate call g).fired = []
  · rcases GateMoment.onGate_spec tuned.depth call with ⟨-, after⟩ | ⟨waits, batch, -⟩
    · rw [after, (call.poised_keeps g).1]
      exact set
    · rw [batch] at fired
      exact absurd fired (ActivationState.fire_nonempty waits (tuned.poised call).batch _)
  · obtain ⟨past, moved⟩ := guarded.fires tuned fired
    rw [moved]
    unfold saturatingAdd
    omega

theorem refractory_spacing (run : GuardedRun config ms g) : KeepsRefractory config ms := by
  -- Beside what is claimed: no batch's deadline is ahead of the gate's own.
  have main : KeepsRefractory config ms ∧ Tuned config g ∧ ∀ m ∈ ms, m.fired ≠ [] →
      saturatingAdd m.call.nowNs config.refractoryPeriodNs ≤ g.refractoryUntilNs := by
    induction run with
    | start reached =>
      refine ⟨⟨List.Pairwise.nil, List.Pairwise.nil, ?_⟩, reached.tuned, ?_⟩
      · intro m hm
        cases hm
      · intro m hm
        cases hm
    | @call ms g call guarded run ih =>
      obtain ⟨keeps, tuned, deadlines⟩ := ih
      refine ⟨⟨?_, ?_, ?_⟩, tuned.after call, ?_⟩
      · refine List.pairwise_append.mpr ⟨keeps.spaced, List.pairwise_singleton _ _, ?_⟩
        intro m hm m' hm' fired fired'
        obtain rfl := List.mem_singleton.mp hm'
        rw [GateMoment.onGate_call]
        exact (deadlines m hm fired).trans (guarded.fires tuned fired').1
      · refine List.pairwise_append.mpr ⟨keeps.still, List.pairwise_singleton _ _, ?_⟩
        intro m hm m' hm' fired early
        obtain rfl := List.mem_singleton.mp hm'
        rw [GateMoment.onGate_call] at early
        exact guarded.standsStill (Nat.lt_of_lt_of_le early (deadlines m hm fired))
      · intro m hm early
        rcases List.mem_append.mp hm with hm | hm
        · exact keeps.held m hm early
        · obtain rfl := List.mem_singleton.mp hm
          rw [GateMoment.onGate_call, GateMoment.onGate_before] at early
          exact guarded.standsStill early
      · intro m hm fired
        rcases List.mem_append.mp hm with hm | hm
        · exact guarded.keeps_deadline tuned (saturatingAdd_le _ _) (deadlines m hm fired)
        · obtain rfl := List.mem_singleton.mp hm
          rw [GateMoment.onGate_call]
          exact Nat.le_of_eq (guarded.fires tuned fired).2.symm
  exact main.1

end Runs

/-- Another heavy signal within the refractory period of the first batch, and one when it ends. -/
def earlyOffered : GateMoment ℚ :=
  .onGate (.admitSignal { heavyQueued with id := ⟨3⟩ } 1 5000000 .maximal) heavyOffered.after

def readyOffered : GateMoment ℚ :=
  .onGate (.admitSignal { heavyQueued with id := ⟨4⟩ } 1 10000000 .maximal) earlyOffered.after

theorem light_then_heavy_spaced :
    [lightOffered, heavyOffered, earlyOffered, readyOffered].map (fun m => m.fired.length) =
      [0, 2, 0, 2] ∧
    KeepsRefractory (.forClass .edge) [lightOffered, heavyOffered, earlyOffered, readyOffered] := by
  refine ⟨by decide +kernel, ?_⟩
  refine refractory_spacing
    (((((GuardedRun.start .new).call _ ?_).call _ ?_).call _ ?_).call _ ?_)
  · trivial
  · trivial
  · trivial
  · trivial

end OpenNtl
