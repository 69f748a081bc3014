import OpenNtl.RefractorySpacing
import OpenNtl.Ranking

/-! # The latency guard

The guard fires because of a signal's age and the batch is drained by weight, so the signal that
starved is served only if it is heavy enough.
-/
namespace OpenNtl

variable {F : Type}

def ActivationConfig.maxQueueLatencyNs (config : ActivationConfig F) : ℕ :=
  saturatingMul config.maxQueueLatencyMs 1000000

def ActivationConfig.Overdue (config : ActivationConfig F) (nowNs : ℕ) (s : QueuedSignal F) :
    Prop := config.maxQueueLatencyNs ≤ nowNs - s.enqueuedAtNs

instance ActivationConfig.Overdue.decide (config : ActivationConfig F) (nowNs : ℕ)
    (s : QueuedSignal F) : Decidable (config.Overdue nowNs s) :=
  inferInstanceAs (Decidable (config.maxQueueLatencyNs ≤ nowNs - s.enqueuedAtNs))

variable [Scalar F]

def GateCall.guardFires (call : GateCall F) (g : ActivationState F) : Bool :=
  match call with
  | .admitSignal signal synapseWeight nowNs rng =>
    !(g.offered signal synapseWeight).inRefractory nowNs &&
      !((g.offered signal synapseWeight).evaluate rng).1 &&
      (g.offered signal synapseWeight).isStarving nowNs
  | .drainIfStarving nowNs => !g.inRefractory nowNs && g.isStarving nowNs
  | _ => false

def GateMoment.guardFired (m : GateMoment F) : Bool := m.call.guardFires m.before

def gateMoments : List (GateCall F) → ActivationState F → List (GateMoment F)
  | [], _ => []
  | call :: calls, g => .onGate call g :: gateMoments calls (GateMoment.onGate call g).after

/-- Of two queued signals with their positions, the one that fires first: the heavier, then the one
with the smaller identifier, then the one queued first. -/
def FiresAhead (a b : QueuedSignal F × ℕ) : Prop :=
  stableCmp ActivationState.fireCmp a b = .lt

instance FiresAhead.decide : DecidableRel (FiresAhead (F := F)) :=
  fun a b => inferInstanceAs (Decidable (stableCmp ActivationState.fireCmp a b = .lt))

/-- A queued signal that the next batch takes: fewer are ahead of it than a batch holds. -/
def ActivationState.InReach (g : ActivationState F) (s : QueuedSignal F × ℕ) : Prop :=
  s ∈ g.queue.zipIdx ∧ rank FiresAhead g.queue.zipIdx s < g.fireBatchSize

def ActivationState.OldestInReach (g : ActivationState F) : Prop :=
  ∃ s, g.InReach s ∧ ∀ w ∈ g.queue, s.1.enqueuedAtNs ≤ w.enqueuedAtNs

def OverdueInReach (config : ActivationConfig F) (nowNs : ℕ) (g : ActivationState F) : Prop :=
  ∃ s, g.InReach s ∧ config.Overdue nowNs s.1

omit [Scalar F] in
def ServesOverdue (config : ActivationConfig F) (m : GateMoment F) : Prop :=
  ∃ s ∈ m.fired, config.Overdue m.call.nowNs s

/-- A run whose guard serves who starved: every batch it fires has an overdue signal, and while a
signal waits and none is offered with a stamp as old, it fires no more often than the queue is
deep. -/
structure GuardServes (config : ActivationConfig F) (ms : List (GateMoment F)) : Prop where
  served : ∀ m ∈ ms, m.guardFired = true → ServesOverdue config m
  bounded : ∀ s, (∀ m ∈ ms, s ∈ m.before.queue) →
    (∀ m ∈ ms, ∀ a ∈ m.offered, s.enqueuedAtNs < a.enqueuedAtNs) →
      ms.countP GateMoment.guardFired ≤ max config.maxQueueDepth 1

/-- The gate keeps its latency bound and its depth, and its queue is within it. -/
structure Sized (config : ActivationConfig F) (g : ActivationState F) : Prop where
  latency : g.maxQueueLatencyNs = config.maxQueueLatencyNs
  depth : g.maxQueueDepth = max config.maxQueueDepth 1
  queue : g.queue.length ≤ max config.maxQueueDepth 1

namespace Sized

variable {config : ActivationConfig F} {g : ActivationState F}

theorem adjustForLoad (h : Sized config g) (load : F) : Sized config (g.adjustForLoad load) := by
  obtain ⟨threshold, same⟩ := g.adjustForLoad_keeps load
  rw [same]
  exact ⟨h.latency, h.depth, h.queue⟩

theorem offered (h : Sized config g) (signal : QueuedSignal F) (synapseWeight : F) :
    Sized config (g.offered signal synapseWeight) := by
  have length := (g.charged (signal.weight * synapseWeight)).enqueue_length signal h.queue h.depth
  rw [← ActivationState.offered_queue] at length
  obtain ⟨threshold, queue, dropped, overflows, same⟩ := g.offered_keeps signal synapseWeight
  rw [same] at length ⊢
  exact ⟨h.latency, h.depth, length⟩

theorem fire (h : Sized config g) (nowNs : ℕ) : Sized config (g.fire nowNs).2 := by
  refine ⟨h.latency, h.depth, ?_⟩
  have perm := (g.fire_perm nowNs).length_eq
  rw [List.length_append] at perm
  have before := h.queue
  omega

theorem poised (h : Sized config g) (call : GateCall F) : Sized config (call.poised g) := by
  cases call with
  | admitSignal signal synapseWeight nowNs rng => exact h.offered signal synapseWeight
  | drainIfStarving nowNs => exact h
  | drainBatch nowNs => exact h
  | adjustForLoad loadFactor => exact h.adjustForLoad loadFactor

end Sized

theorem Reached.sized {config : ActivationConfig F} {g : ActivationState F}
    (reached : Reached config g) : Sized config g := by
  induction reached with
  | new => exact ⟨rfl, rfl, Nat.zero_le _⟩
  | restore snapshot _ ih => exact ⟨ih.latency, ih.depth, ih.queue⟩
  | call call reached ih =>
    exact reached.tuned.after_of call (ih.poised call) fun poised => poised.fire call.nowNs

namespace GateCall

/-- What overflow displaces and what is queued before a call fires are together what was queued
and what is offered. -/
theorem poised_perm (call : GateCall F) (g : ActivationState F) :
    ((GateMoment.onGate call g).dropped.toList ++ (call.poised g).queue).Perm
      ((GateMoment.onGate call g).offered ++ g.queue) := by
  cases call with
  | admitSignal signal synapseWeight nowNs rng =>
    have perm := (g.charged (signal.weight * synapseWeight)).enqueue_perm signal
    rw [← ActivationState.offered_queue] at perm
    have dropped : (g.admitSignal signal synapseWeight nowNs rng).1.dropped =
        g.displaced signal synapseWeight := by
      rcases g.admitSignal_spec signal synapseWeight nowNs rng with ⟨out, -⟩ | ⟨out, -⟩
      · exact congrArg AdmitOutcome.dropped out
      · exact congrArg AdmitOutcome.dropped out
    show ((g.admitSignal signal synapseWeight nowNs rng).1.dropped.toList ++ _).Perm _
    rw [dropped]
    exact perm
  | drainIfStarving nowNs => exact List.Perm.refl _
  | drainBatch nowNs => exact List.Perm.refl _
  | adjustForLoad loadFactor =>
    obtain ⟨threshold, same⟩ := g.adjustForLoad_keeps loadFactor
    have queue : (g.adjustForLoad loadFactor).queue = g.queue := by rw [same]
    exact List.Perm.of_eq queue

theorem fired_perm {config : ActivationConfig F} {g : ActivationState F} (tuned : Tuned config g)
    (call : GateCall F) :
    ((GateMoment.onGate call g).fired ++ (GateMoment.onGate call g).after.queue).Perm
      (call.poised g).queue := by
  rcases GateMoment.onGate_spec tuned.depth call with ⟨fired, after⟩ | ⟨-, fired, after⟩
  · rw [fired, after]
    exact List.Perm.refl _
  · rw [fired, after]
    exact (call.poised g).fire_perm call.nowNs

theorem guardFires_spec {call : GateCall F} {g : ActivationState F}
    (guard : call.guardFires g = true) : (call.poised g).isStarving call.nowNs = true ∧
      (GateMoment.onGate call g).fired = ((call.poised g).fire call.nowNs).1 ∧
      (GateMoment.onGate call g).after = ((call.poised g).fire call.nowNs).2 := by
  cases call with
  | admitSignal signal synapseWeight nowNs rng =>
    simp only [guardFires, Bool.and_eq_true, Bool.not_eq_true'] at guard
    obtain ⟨⟨past, -⟩, starving⟩ := guard
    have fires : (((g.offered signal synapseWeight).evaluate rng).1 ||
        (g.offered signal synapseWeight).isStarving nowNs) = true := by
      rw [starving, Bool.or_true]
    obtain ⟨out, gate⟩ := ActivationState.admitSignal_of_fires past fires
    exact ⟨starving, congrArg AdmitOutcome.fired out, gate⟩
  | drainIfStarving nowNs =>
    simp only [guardFires, Bool.and_eq_true, Bool.not_eq_true'] at guard
    obtain ⟨past, starving⟩ := guard
    have drains := ActivationState.drainIfStarving_of_fires past starving
    exact ⟨starving, congrArg Prod.fst drains, congrArg Prod.snd drains⟩
  | drainBatch nowNs => cases guard
  | adjustForLoad loadFactor => cases guard

end GateCall

section Reach

variable [OrderedScalar F]

omit [OrderedScalar F] in
theorem FiresAhead.asymm (lawful : Std.TransCmp (ActivationState.fireCmp (F := F)))
    (a b : QueuedSignal F × ℕ) (ahead : FiresAhead a b) : ¬ FiresAhead b a := by
  intro behind
  have := stableCmp_trans lawful
  have swapped : stableCmp ActivationState.fireCmp b a = .gt := Std.OrientedCmp.gt_of_lt ahead
  unfold FiresAhead at behind
  rw [swapped] at behind
  cases behind

theorem fireCmp_trans : Std.TransCmp (ActivationState.fireCmp (F := F)) :=
  transCmp_on OrderedScalar.ordered.fireCmp_trans fun q => ⟨q, trivial⟩

theorem ActivationState.mem_fire_iff (g : ActivationState F) (nowNs : ℕ) (s : QueuedSignal F) :
    s ∈ (g.fire nowNs).1 ↔ ∃ i, g.InReach (s, i) := by
  have sorted := stable_sorted fireCmp_trans g.queue
  have perm := sortBy_perm (stableCmp fireCmp) g.queue.zipIdx
  have batch : (g.fire nowNs).1 =
      ((sortBy (stableCmp fireCmp) g.queue.zipIdx).take g.fireBatchSize).map Prod.fst := by
    rw [List.map_take, sortBy_stable, fire]
    simp only [List.take_eq_take_iff]
    omega
  have reach : ∀ w ∈ g.queue.zipIdx, w ∈ (sortBy (stableCmp fireCmp) g.queue.zipIdx).take
      g.fireBatchSize ↔ rank FiresAhead g.queue.zipIdx w < g.fireBatchSize := by
    intro w here
    rw [← rank_perm FiresAhead perm]
    exact mem_take_iff_rank FiresAhead (fun a _ b _ => FiresAhead.asymm fireCmp_trans a b) sorted
      (perm.mem_iff.mpr here) _
  rw [batch, List.mem_map]
  constructor
  · rintro ⟨⟨w, i⟩, taken, rfl⟩
    have here := perm.mem_iff.mp (List.mem_of_mem_take taken)
    exact ⟨i, here, (reach _ here).mp taken⟩
  · rintro ⟨i, here, few⟩
    exact ⟨(s, i), (reach _ here).mpr few, rfl⟩

theorem ActivationState.oldestInReach_of_batch {g : ActivationState F} (waits : g.queue ≠ [])
    (whole : g.queue.length ≤ g.fireBatchSize) : g.OldestInReach := by
  obtain ⟨v, i, found⟩ := lowest_exists ageCmp waits
  have queued : v ∈ g.queue := by
    obtain ⟨-, here⟩ := List.mem_zipIdx' (minBy_mem found)
    rw [here]
    exact List.getElem_mem _
  have batch : v ∈ (g.fire 0).1 := by
    unfold fire
    dsimp only
    rw [length_sortBy, Nat.min_eq_right whole, ← length_sortBy fireCmp, List.take_length]
    exact mem_sortBy.mpr queued
  obtain ⟨j, reach⟩ := (g.mem_fire_iff 0 v).mp batch
  refine ⟨(v, j), reach, ?_⟩
  intro w hw
  obtain ⟨k, hk⟩ := getElem_zipIdx hw
  rcases notYounger_of_ageCmp (minBy_least ageCmp_trans found (w, k) hk) with older | ⟨same, -⟩
  · exact Nat.le_of_lt older
  · exact Nat.le_of_eq same

variable {config : ActivationConfig F} {g : ActivationState F} {call : GateCall F}

theorem GateCall.serves_iff (guard : call.guardFires g = true) :
    ServesOverdue config (.onGate call g) ↔ OverdueInReach config call.nowNs (call.poised g) := by
  obtain ⟨-, fired, -⟩ := guardFires_spec guard
  unfold ServesOverdue OverdueInReach
  rw [fired, GateMoment.onGate_call]
  constructor
  · rintro ⟨s, batch, overdue⟩
    obtain ⟨i, reach⟩ := ((call.poised g).mem_fire_iff _ s).mp batch
    exact ⟨(s, i), reach, overdue⟩
  · rintro ⟨⟨s, i⟩, reach, overdue⟩
    exact ⟨s, ((call.poised g).mem_fire_iff _ s).mpr ⟨i, reach⟩, overdue⟩

omit [OrderedScalar F] in
/-- If any signal is overdue when the guard fires, the one that waited longest is. -/
theorem GateCall.oldest_overdue (reached : Reached config g) (guard : call.guardFires g = true)
    (oldest : (call.poised g).OldestInReach) :
    OverdueInReach config call.nowNs (call.poised g) := by
  obtain ⟨starving, -⟩ := guardFires_spec guard
  obtain ⟨s, reach, first⟩ := oldest
  obtain ⟨-, w, queued, waited⟩ := ActivationState.isStarving_iff.mp starving
  rw [(reached.sized.poised call).latency] at waited
  have earlier := first w queued
  refine ⟨s, reach, ?_⟩
  unfold ActivationConfig.Overdue
  omega

end Reach

/-- How many queued signals have waited at least as long as this one. -/
def ActivationState.elders (g : ActivationState F) (s : QueuedSignal F) : ℕ :=
  g.queue.countP fun w => w.enqueuedAtNs ≤ s.enqueuedAtNs

section Runs

variable {config : ActivationConfig F} {g : ActivationState F} {call : GateCall F}
  {s : QueuedSignal F}

/-- What a call drops or fires is no longer among the elders, and an offer adds none. -/
theorem elders_call (tuned : Tuned config g) (call : GateCall F)
    (young : ∀ a ∈ (GateMoment.onGate call g).offered, s.enqueuedAtNs < a.enqueuedAtNs) :
    ((GateMoment.onGate call g).dropped.toList.countP fun w => w.enqueuedAtNs ≤ s.enqueuedAtNs) +
      ((GateMoment.onGate call g).fired.countP fun w => w.enqueuedAtNs ≤ s.enqueuedAtNs) +
      (GateMoment.onGate call g).after.elders s = g.elders s := by
  have offered := (call.poised_perm g).countP_eq fun w => w.enqueuedAtNs ≤ s.enqueuedAtNs
  have fired := (call.fired_perm tuned).countP_eq fun w => w.enqueuedAtNs ≤ s.enqueuedAtNs
  have none : ((GateMoment.onGate call g).offered.countP fun w =>
      w.enqueuedAtNs ≤ s.enqueuedAtNs) = 0 := by
    apply List.countP_eq_zero.mpr
    intro a ha old
    have later := young a ha
    have earlier : a.enqueuedAtNs ≤ s.enqueuedAtNs := by simpa using old
    omega
  rw [List.countP_append, List.countP_append] at offered
  rw [List.countP_append] at fired
  unfold ActivationState.elders
  omega

/-- A guard fire with the oldest in reach takes an elder of every signal that waits. -/
theorem elders_guardFires [OrderedScalar F] (tuned : Tuned config g)
    (guard : call.guardFires g = true) (oldest : (call.poised g).OldestInReach)
    (waits : s ∈ g.queue)
    (young : ∀ a ∈ (GateMoment.onGate call g).offered, s.enqueuedAtNs < a.enqueuedAtNs) :
    (GateMoment.onGate call g).after.elders s + 1 ≤ g.elders s := by
  have counted := elders_call tuned call young
  have left : 0 < ((GateMoment.onGate call g).dropped.toList.countP fun w =>
        w.enqueuedAtNs ≤ s.enqueuedAtNs) +
      ((GateMoment.onGate call g).fired.countP fun w => w.enqueuedAtNs ≤ s.enqueuedAtNs) := by
    have whole : s ∈ (GateMoment.onGate call g).dropped.toList ++ (call.poised g).queue :=
      (call.poised_perm g).mem_iff.mpr (List.mem_append_right _ waits)
    -- Either overflow displaces the signal itself, or it is there when the batch is drained.
    rcases List.mem_append.mp whole with dropped | queued
    · apply Nat.add_pos_left
      apply List.countP_pos_iff.mpr
      exact ⟨s, dropped, decide_eq_true (Nat.le_refl _)⟩
    · apply Nat.add_pos_right
      obtain ⟨⟨o, i⟩, reach, first⟩ := oldest
      obtain ⟨-, fired, -⟩ := GateCall.guardFires_spec guard
      apply List.countP_pos_iff.mpr
      refine ⟨o, ?_, decide_eq_true (first s queued)⟩
      rw [fired]
      exact ((call.poised g).mem_fire_iff _ o).mpr ⟨i, reach⟩
  omega

theorem guardFires_le_elders [OrderedScalar F] {calls : List (GateCall F)}
    (reached : Reached config g)
    (oldest : ∀ m ∈ gateMoments calls g, m.guardFired = true →
      (m.call.poised m.before).OldestInReach)
    (waits : ∀ m ∈ gateMoments calls g, s ∈ m.before.queue)
    (young : ∀ m ∈ gateMoments calls g, ∀ a ∈ m.offered, s.enqueuedAtNs < a.enqueuedAtNs) :
    (gateMoments calls g).countP GateMoment.guardFired ≤ g.elders s := by
  induction calls generalizing g with
  | nil => exact Nat.zero_le _
  | cons call calls ih =>
    have rest := ih (reached.call call)
      (fun m hm => oldest m (List.mem_cons_of_mem _ hm))
      (fun m hm => waits m (List.mem_cons_of_mem _ hm))
      (fun m hm => young m (List.mem_cons_of_mem _ hm))
    have first : GateMoment.onGate call g ∈ gateMoments (call :: calls) g := List.mem_cons_self
    have youngNow := young _ first
    have waitsNow := waits _ first
    rw [GateMoment.onGate_before] at waitsNow
    by_cases guard : (GateMoment.onGate call g).guardFired = true
    · have reach := oldest _ first guard
      rw [GateMoment.onGate_call, GateMoment.onGate_before] at reach
      have guardNow : call.guardFires g = true := by
        unfold GateMoment.guardFired at guard
        rwa [GateMoment.onGate_call, GateMoment.onGate_before] at guard
      have taken := elders_guardFires reached.tuned guardNow reach waitsNow youngNow
      rw [gateMoments, List.countP_cons_of_pos guard]
      omega
    · have kept := elders_call reached.tuned call youngNow
      rw [gateMoments, List.countP_cons_of_neg guard]
      omega

theorem gateMoments_reached {calls : List (GateCall F)} (reached : Reached config g)
    {m : GateMoment F} (hm : m ∈ gateMoments calls g) :
    ∃ call h, Reached config h ∧ m = .onGate call h := by
  induction calls generalizing g with
  | nil => cases hm
  | cons call calls ih =>
    rcases List.mem_cons.mp hm with rfl | later
    · exact ⟨call, g, reached, rfl⟩
    · exact ih (reached.call call) later

/-- A guard fire serves an overdue signal exactly if one is in reach, and in a run whose guard
fires all have the oldest signal in reach, they serve it and are bounded. -/
theorem guard_serves_iff [OrderedScalar F] (reached : Reached config g) :
    (∀ call : GateCall F, call.guardFires g = true →
      (ServesOverdue config (.onGate call g) ↔
        OverdueInReach config call.nowNs (call.poised g))) ∧
    ∀ calls : List (GateCall F), (∀ m ∈ gateMoments calls g, m.guardFired = true →
      (m.call.poised m.before).OldestInReach) → GuardServes config (gateMoments calls g) := by
  constructor
  · intro call guard
    exact GateCall.serves_iff guard
  · intro calls oldest
    constructor
    · intro m hm guard
      have reach := oldest m hm guard
      obtain ⟨call, h, reachedNow, rfl⟩ := gateMoments_reached reached hm
      rw [GateMoment.onGate_call, GateMoment.onGate_before] at reach
      unfold GateMoment.guardFired at guard
      rw [GateMoment.onGate_call, GateMoment.onGate_before] at guard
      exact (GateCall.serves_iff guard).mpr
        (GateCall.oldest_overdue reachedNow guard reach)
    · intro s waits young
      calc (gateMoments calls g).countP GateMoment.guardFired ≤ g.elders s :=
          guardFires_le_elders reached oldest waits young
        _ ≤ g.queue.length := List.countP_le_length
        _ ≤ max config.maxQueueDepth 1 := reached.sized.queue

end Runs

/-! A gate that fires one signal at a time keeps a light one while heavy ones pass it. -/

section Sample

def singleConfig : ActivationConfig ℚ :=
  { ActivationConfig.forClass .edge with
    baseThreshold := 100, maxPotential := 200, refractoryPeriodMs := 0
    dynamicThreshold := false, fireBatchSize := 1 }

def lightHeld : ActivationState ℚ :=
  (GateMoment.onGate (.admitSignal lightQueued 1 0 .maximal) (.new singleConfig)).after

def heavyAt (ulid : BitVec 128) (nowNs : ℕ) : QueuedSignal ℚ :=
  ⟨⟨ulid⟩, ⟨[1]⟩, 1, .acknowledged, nowNs⟩

def heavyJustBefore : ActivationState ℚ :=
  (GateMoment.onGate (.admitSignal (heavyAt 1 999000000) 1 999000000 .maximal) lightHeld).after

def heavyOffers (ulids : List (BitVec 128)) : List (GateCall ℚ) :=
  ulids.map fun ulid => .admitSignal (heavyAt ulid 1000000000) 1 1000000000 .maximal

/-- A gate that holds these, whatever was charged and fired before. -/
def holding (queue : List (QueuedSignal ℚ)) (potential : ℚ) (deadline fired : ℕ) :
    ActivationState ℚ :=
  { ActivationState.new singleConfig with
    potential := potential, refractoryUntilNs := deadline, queue := queue, signalsFired := fired }

def HoldsLight (g : ActivationState ℚ) : Prop :=
  ∃ potential deadline fired, potential ≤ 1 ∧ deadline ≤ 1000000000 ∧
    g = holding [lightQueued] potential deadline fired

theorem lightHeld_holds : HoldsLight lightHeld := by
  have quiet : ((((ActivationState.new singleConfig).offered lightQueued 1).evaluate .maximal).1 ||
      ((ActivationState.new singleConfig).offered lightQueued 1).isStarving 0) = false := by
    decide +kernel
  have charged : min ((0 : ℚ) + 1 / 10 * 1) 200 ≤ 1 := by norm_num
  exact ⟨_, 0, 0, charged, Nat.zero_le _, (ActivationState.admitSignal_of_still (Or.inr quiet)).2⟩

theorem heavyAt_first (ulid : BitVec 128) (nowNs : ℕ) :
    sortBy ActivationState.fireCmp [lightQueued, heavyAt ulid nowNs] =
      [heavyAt ulid nowNs, lightQueued] := by
  have heavier : Scalar.partialCmp (1 : ℚ) (1 / 10) = .gt := by decide +kernel
  have behind : ActivationState.fireCmp lightQueued (heavyAt ulid nowNs) = .gt :=
    congrArg (Ordering.then · _) heavier
  have second : (sortBy ActivationState.fireCmp [heavyAt ulid nowNs]) = [heavyAt ulid nowNs] := rfl
  unfold sortBy at second ⊢
  rw [List.insertionSort_cons, second, List.orderedInsert_of_not_le _ _ fun ahead => ahead behind]
  rfl

theorem holding_fire (potential : ℚ) (deadline fired : ℕ) (ulid : BitVec 128) :
    ((holding [lightQueued, heavyAt ulid 1000000000] potential deadline fired).fire 1000000000).2 =
      holding [lightQueued] 0 1000000000 (fired + 1) := by
  have drained : ∀ queue, sortBy ActivationState.fireCmp [lightQueued, heavyAt ulid 1000000000] =
      queue → ((holding [lightQueued, heavyAt ulid 1000000000] potential deadline fired).fire
        1000000000).2 = holding (queue.drop (min 1 queue.length)) 0 1000000000
          (fired + (queue.take (min 1 queue.length)).length) := by
    rintro queue rfl
    rfl
  exact drained _ (heavyAt_first ulid 1000000000)

/-- A heavy signal that arrives late makes the guard fire, and the light one stays. -/
theorem heavy_passes {g : ActivationState ℚ} (holds : HoldsLight g) (ulid : BitVec 128) :
    (GateMoment.onGate (.admitSignal (heavyAt ulid 1000000000) 1 1000000000 .maximal)
        g).guardFired = true ∧
      HoldsLight (GateMoment.onGate
        (.admitSignal (heavyAt ulid 1000000000) 1 1000000000 .maximal) g).after := by
  obtain ⟨potential, deadline, fired, low, past, rfl⟩ := holds
  have offered : (holding [lightQueued] potential deadline fired).offered
      (heavyAt ulid 1000000000) 1 = holding [lightQueued, heavyAt ulid 1000000000]
        (min (potential + 1 * 1) 200) deadline fired := rfl
  have under : ¬ (100 : ℚ) ≤ min (potential + 1 * 1) 200 := by
    rw [not_le, min_lt_iff]
    left
    linarith
  have ready : ((holding [lightQueued] potential deadline fired).offered
      (heavyAt ulid 1000000000) 1).inRefractory 1000000000 = false :=
    decide_eq_false (Nat.not_lt.mpr past)
  have short : (((holding [lightQueued] potential deadline fired).offered
      (heavyAt ulid 1000000000) 1).evaluate .maximal).1 = false := decide_eq_false under
  have starving : ((holding [lightQueued] potential deadline fired).offered
      (heavyAt ulid 1000000000) 1).isStarving 1000000000 = true := rfl
  constructor
  · rw [GateMoment.guardFired, GateMoment.onGate_before, GateMoment.onGate_call,
      GateCall.guardFires, ready, short, starving]
    rfl
  · have fires : ((((holding [lightQueued] potential deadline fired).offered
        (heavyAt ulid 1000000000) 1).evaluate .maximal).1 ||
        ((holding [lightQueued] potential deadline fired).offered
          (heavyAt ulid 1000000000) 1).isStarving 1000000000) = true := by
      rw [starving, Bool.or_true]
    obtain ⟨-, after⟩ := ActivationState.admitSignal_of_fires ready fires
    rw [offered, holding_fire] at after
    exact ⟨0, 1000000000, fired + 1, by norm_num, Nat.le_refl _, after⟩

theorem heavies_pass {g : ActivationState ℚ} (holds : HoldsLight g) (ulids : List (BitVec 128)) :
    (gateMoments (heavyOffers ulids) g).countP GateMoment.guardFired = ulids.length ∧
      ∀ m ∈ gateMoments (heavyOffers ulids) g, m.call.nowNs = 1000000000 ∧
        m.before.queue = [lightQueued] ∧ ∀ a ∈ m.offered, a.enqueuedAtNs = 1000000000 := by
  induction ulids generalizing g with
  | nil =>
    refine ⟨rfl, ?_⟩
    intro m hm
    cases hm
  | cons ulid ulids ih =>
    obtain ⟨guard, after⟩ := heavy_passes holds ulid
    obtain ⟨counted, rest⟩ := ih after
    constructor
    · exact (List.countP_cons_of_pos guard).trans (congrArg (· + 1) counted)
    · intro m hm
      rcases List.mem_cons.mp hm with rfl | later
      · obtain ⟨potential, deadline, fired, -, -, rfl⟩ := holds
        refine ⟨rfl, rfl, ?_⟩
        intro a ha
        rw [List.mem_singleton.mp ha]
        rfl
      · exact rest m later

/-- The guard drains a signal that came a millisecond before, and then one that just came, any
number of times, while the light one waits. -/
theorem light_starves :
    singleConfig.validate = .ok () ∧ Reached singleConfig heavyJustBefore ∧
    (GateMoment.onGate (.drainIfStarving 1000000000) heavyJustBefore).guardFired = true ∧
    ¬ ServesOverdue singleConfig (.onGate (.drainIfStarving 1000000000) heavyJustBefore) ∧
    ∀ n, ∃ calls, (gateMoments calls lightHeld).countP GateMoment.guardFired = n ∧
      ∀ m ∈ gateMoments calls lightHeld,
        lightQueued ∈ m.before.queue ∧ singleConfig.Overdue m.call.nowNs lightQueued ∧
        ∀ a ∈ m.offered, lightQueued.enqueuedAtNs < a.enqueuedAtNs := by
  refine ⟨?_, (Reached.new.call _).call _, by decide +kernel, ?_, ?_⟩
  · rw [ActivationConfig.validate_iff]
    decide +kernel
  · have batch : (GateMoment.onGate (.drainIfStarving 1000000000) heavyJustBefore).fired =
        [heavyAt 1 999000000] := by
      decide +kernel
    rintro ⟨s, fired, overdue⟩
    rw [batch, List.mem_singleton] at fired
    subst fired
    exact absurd overdue (by decide)
  · intro n
    obtain ⟨counted, waits⟩ := heavies_pass lightHeld_holds (List.replicate n 3)
    refine ⟨_, counted.trans (List.length_replicate), ?_⟩
    intro m hm
    obtain ⟨now, queue, stamped⟩ := waits m hm
    rw [now, queue]
    refine ⟨List.mem_singleton_self _, by decide, ?_⟩
    intro a ha
    rw [stamped a ha]
    decide

/-- An edge gate takes eight, so its guard serves a light signal that waits alone. -/
theorem edge_serves_light :
    ServesOverdue (.forClass .edge) (.onGate (.drainIfStarving 1000000000) lightOffered.after) ∧
    GuardServes (.forClass .edge)
      (gateMoments [.drainIfStarving 1000000000] lightOffered.after) := by
  have reached : Reached (.forClass .edge) lightOffered.after := Reached.new.call _
  have oldest : lightOffered.after.OldestInReach :=
    ActivationState.oldestInReach_of_batch (by decide +kernel) (by decide +kernel)
  have serves := guard_serves_iff reached
  constructor
  · apply (serves.1 (.drainIfStarving 1000000000) (by decide +kernel)).mpr
    exact GateCall.oldest_overdue reached (by decide +kernel) oldest
  · apply serves.2
    intro m hm _
    rw [gateMoments, gateMoments, List.mem_singleton] at hm
    subst hm
    exact oldest

end Sample

end OpenNtl
