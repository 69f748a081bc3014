import OpenNtl.Activation
import Mathlib.Data.Multiset.AddSub

/-! # Runs of the activation gate -/
namespace OpenNtl

variable {F : Type}

/-- The calls that touch the queue or the potential of a gate. -/
inductive GateCall (F : Type) where
  | admitSignal (signal : QueuedSignal F) (synapseWeight : F) (nowNs : ℕ) (rng : Rng)
  | drainIfStarving (nowNs : ℕ)
  | drainBatch (nowNs : ℕ)
  | adjustForLoad (loadFactor : F)

/-- One call on a gate, with the states around it and the signals that left. -/
structure GateMoment (F : Type) where
  call : GateCall F
  before : ActivationState F
  fired : List (QueuedSignal F)
  dropped : Option (QueuedSignal F)
  after : ActivationState F

namespace GateMoment

def offered (m : GateMoment F) : List (QueuedSignal F) :=
  match m.call with
  | .admitSignal signal _ _ _ => [signal]
  | _ => []

variable [Scalar F]

def onGate (call : GateCall F) (g : ActivationState F) : GateMoment F :=
  match call with
  | .admitSignal signal synapseWeight nowNs rng =>
    let (out, after, _) := g.admitSignal signal synapseWeight nowNs rng
    ⟨call, g, out.fired, out.dropped, after⟩
  | .drainIfStarving nowNs =>
    ⟨call, g, (g.drainIfStarving nowNs).1, none, (g.drainIfStarving nowNs).2⟩
  | .drainBatch nowNs => ⟨call, g, (g.drainBatch nowNs).1, none, (g.drainBatch nowNs).2⟩
  | .adjustForLoad loadFactor => ⟨call, g, [], none, g.adjustForLoad loadFactor⟩

def Weighted (m : GateMoment F) : Prop :=
  match m.call with
  | .admitSignal signal synapseWeight _ _ =>
    (Scalar.isFinite signal.weight = true ∧ Scalar.isFinite synapseWeight = true) ∧
      0 ≤ signal.weight ∧ 0 ≤ synapseWeight
  | _ => True

end GateMoment

/-- The calls on a gate since it was built, oldest first, and the state they left. -/
inductive GateRun [Scalar F] (config : ActivationConfig F) :
    List (GateMoment F) → ActivationState F → Prop
  | start : GateRun config [] (.new config)
  | call {ms : List (GateMoment F)} {g : ActivationState F} (call : GateCall F) :
      GateRun config ms g → GateRun config (ms ++ [.onGate call g]) (GateMoment.onGate call g).after

section Promises

variable [Scalar F] (config : ActivationConfig F)

/-- The order of a fired batch: weight descending, then identifier. -/
def FiresBefore (a b : QueuedSignal F) : Prop :=
  b.weight < a.weight ∨ (b.weight ≤ a.weight ∧ ¬ b.id < a.id)

/-- The older of two signals, then the one with the smaller identifier. -/
def NotYounger (a b : QueuedSignal F) : Prop :=
  a.enqueuedAtNs < b.enqueuedAtNs ∨ (a.enqueuedAtNs = b.enqueuedAtNs ∧ ¬ b.id < a.id)

structure BatchInOrder (m : GateMoment F) : Prop where
  size : m.fired.length ≤ config.fireBatchSize
  order : m.fired.Pairwise FiresBefore
  heaviest : ∀ q ∈ m.fired, ∀ w ∈ m.after.queue, w.weight ≤ q.weight

/-- The signal the policy names when this one arrives at this full queue. -/
inductive NamedByPolicy (queue : List (QueuedSignal F)) (arrival : QueuedSignal F) :
    OverflowPolicy → QueuedSignal F → Prop
  | newest : NamedByPolicy queue arrival .dropNewest arrival
  | oldest {v : QueuedSignal F} (queued : v ∈ queue) (first : ∀ w ∈ queue, NotYounger v w) :
      NamedByPolicy queue arrival .dropOldest v
  | lightest {v : QueuedSignal F} (queued : v ∈ queue) (lighter : v.weight < arrival.weight)
      (least : ∀ w ∈ queue, v.weight ≤ w.weight) : NamedByPolicy queue arrival .dropLowestWeight v
  | arrival (least : ∀ w ∈ queue, arrival.weight ≤ w.weight) :
      NamedByPolicy queue arrival .dropLowestWeight arrival

/-- Only an offer to a full queue drops anything, and then what the policy names. -/
inductive DropsAsNamed (m : GateMoment F) : Prop
  | none (kept : m.dropped = none)
      (room : ∀ signal weight nowNs rng, m.call = .admitSignal signal weight nowNs rng →
        m.before.queue.length < config.maxQueueDepth) : DropsAsNamed m
  | overflow {signal d : QueuedSignal F} {weight : F} {nowNs : ℕ} {rng : Rng}
      (offer : m.call = .admitSignal signal weight nowNs rng)
      (full : config.maxQueueDepth ≤ m.before.queue.length) (dropped : m.dropped = some d)
      (named : NamedByPolicy m.before.queue signal config.overflowPolicy d) : DropsAsNamed m

/-- The gate still has its configuration, and is within its bounds. -/
structure WithinBounds (g : ActivationState F) : Prop where
  batch : g.fireBatchSize = config.fireBatchSize
  depth : g.maxQueueDepth = config.maxQueueDepth
  policy : g.overflowPolicy = config.overflowPolicy
  ceiling : g.maxPotential = config.maxPotential
  queue : g.queue.length ≤ config.maxQueueDepth
  finite : ∀ w ∈ g.queue, Scalar.isFinite w.weight = true
  charged : 0 ≤ g.potential
  capped : g.potential ≤ config.maxPotential

/-- Over a run nothing is lost or made up, the bounds hold, fired batches are in order and overflow
drops what the policy names. -/
structure GateConserves (ms : List (GateMoment F)) (g : ActivationState F) : Prop where
  conserved : (ms.flatMap GateMoment.offered).Perm (ms.flatMap GateMoment.fired ++
    ms.flatMap (fun m => m.dropped.toList) ++ g.queue)
  depth : g.queue.length ≤ config.maxQueueDepth
  potential : 0 ≤ g.potential ∧ g.potential ≤ config.maxPotential
  batches : ∀ m ∈ ms, BatchInOrder config m
  drops : ∀ m ∈ ms, DropsAsNamed config m

end Promises

section Orders

variable [Scalar F] {P : F → Prop}

theorem OrderedOn.fireCmp_trans (order : OrderedOn P) : Std.TransCmp
    fun a b : {q : QueuedSignal F // P q.weight} => ActivationState.fireCmp a.1 b.1 := by
  have weight : Std.TransCmp fun a b : {q : QueuedSignal F // P q.weight} =>
      Scalar.partialCmp b.1.weight a.1.weight :=
    have := transCmp_on order.partialCmp_trans fun q : {q : QueuedSignal F // P q.weight} =>
      (⟨q.1.weight, q.2⟩ : Subtype P)
    Std.TransCmp.opposite
  have id := transCmp_on SignalId.cmp_trans fun q : {q : QueuedSignal F // P q.weight} => q.1.id
  exact inferInstanceAs (Std.TransCmp (compareLex
    (fun a b : {q : QueuedSignal F // P q.weight} =>
      Scalar.partialCmp b.1.weight a.1.weight) fun a b => a.1.id.cmp b.1.id))

omit [Scalar F] in
theorem ageCmp_trans : Std.TransCmp (ActivationState.ageCmp (F := F)) := by
  have age := transCmp_on (inferInstance : Std.TransCmp fun a b : ℕ => compare a b)
    fun w : QueuedSignal F × ℕ => w.1.enqueuedAtNs
  have id := transCmp_on SignalId.cmp_trans fun w : QueuedSignal F × ℕ => w.1.id
  exact inferInstanceAs (Std.TransCmp (compareLex
    (fun a b : QueuedSignal F × ℕ => compare a.1.enqueuedAtNs b.1.enqueuedAtNs)
    fun a b => a.1.id.cmp b.1.id))

theorem OrderedOn.weightCmp_trans (order : OrderedOn P) : Std.TransCmp
    fun a b : {w : QueuedSignal F × ℕ // P w.1.weight} => ActivationState.weightCmp a.1 b.1 :=
  transCmp_on order.partialCmp_trans fun w : {w : QueuedSignal F × ℕ // P w.1.weight} =>
    (⟨w.1.1.weight, w.2⟩ : Subtype P)

theorem OrderedOn.firesBefore_of_fireCmp (order : OrderedOn P) {a b : QueuedSignal F}
    (ha : P a.weight) (hb : P b.weight) (h : ActivationState.fireCmp a b ≠ .gt) :
    FiresBefore a b := by
  rcases Ordering.isLE_then_iff_or.mp (Ordering.ne_gt_iff_isLE.mp h) with heavier | ⟨same, id⟩
  · exact Or.inl (OrderedScalar.partialCmp_eq_lt.mp heavier)
  · exact Or.inr ⟨(order.isLE_partialCmp hb ha).mp (by rw [same]; rfl), SignalId.isLE_cmp.mp id⟩

omit [Scalar F] in
theorem notYounger_of_ageCmp {a b : QueuedSignal F × ℕ}
    (h : ActivationState.ageCmp a b ≠ .gt) : NotYounger a.1 b.1 := by
  rcases Ordering.isLE_then_iff_or.mp (Ordering.ne_gt_iff_isLE.mp h) with older | ⟨same, id⟩
  · exact Or.inl (Nat.compare_eq_lt.mp older)
  · exact Or.inr ⟨Nat.compare_eq_eq.mp same, SignalId.isLE_cmp.mp id⟩

end Orders

namespace ActivationState

variable [Scalar F] {P : F → Prop}

theorem fire_batch (order : OrderedOn P) (g : ActivationState F) (nowNs : ℕ)
    (each : ∀ w ∈ g.queue, P w.weight) :
    (g.fire nowNs).1.length ≤ g.fireBatchSize ∧ (g.fire nowNs).1.Pairwise FiresBefore ∧
      ∀ q ∈ (g.fire nowNs).1, ∀ w ∈ (g.fire nowNs).2.queue, w.weight ≤ q.weight := by
  have sorted : (sortBy fireCmp g.queue).Pairwise FiresBefore := by
    refine List.Pairwise.imp_of_mem ?_ (sortBy_sorted_on order.fireCmp_trans each)
    intro a b ha hb before
    exact order.firesBefore_of_fireCmp (each a (mem_sortBy.mp ha)) (each b (mem_sortBy.mp hb)) before
  rw [← List.take_append_drop (min g.fireBatchSize (sortBy fireCmp g.queue).length)
    (sortBy fireCmp g.queue), List.pairwise_append] at sorted
  obtain ⟨batch, -, across⟩ := sorted
  refine ⟨?_, batch, fun q hq w hw => ?_⟩
  · simp only [fire, List.length_take]
    omega
  · rcases across q hq w hw with heavier | ⟨least, -⟩
    · have kept : ∀ {q}, q ∈ (g.fire nowNs).1 ++ (g.fire nowNs).2.queue → P q.weight :=
        fun hq => each _ ((g.fire_perm nowNs).mem_iff.mp hq)
      exact order.le_of_lt (kept (List.mem_append_right _ hw)) (kept (List.mem_append_left _ hq))
        heavier
    · exact least

omit [Scalar F] in
theorem getElem_zipIdx {queue : List (QueuedSignal F)} {w : QueuedSignal F} (hw : w ∈ queue) :
    ∃ j, (w, j) ∈ queue.zipIdx := by
  obtain ⟨j, here⟩ := List.mem_iff_getElem?.mp hw
  exact ⟨j, List.mk_mem_zipIdx_iff_getElem?.mpr here⟩

omit [Scalar F] in
theorem lowest_exists (cmp : QueuedSignal F × ℕ → QueuedSignal F × ℕ → Ordering)
    {queue : List (QueuedSignal F)} (waiting : queue ≠ []) :
    ∃ v i, minBy cmp queue.zipIdx = some (v, i) := by
  have any : queue.zipIdx ≠ [] := by
    intro none
    exact waiting (List.length_eq_zero_iff.mp (by rw [← List.length_zipIdx, none]; rfl))
  obtain ⟨⟨v, i⟩, found⟩ := minBy_isSome any
  exact ⟨v, i, found⟩

theorem enqueue_full (order : OrderedOn P) (g : ActivationState F) {signal : QueuedSignal F}
    (arrival : P signal.weight) (each : ∀ w ∈ g.queue, P w.weight) (waiting : g.queue ≠ [])
    (full : g.maxQueueDepth ≤ g.queue.length) :
    ∃ d, (g.enqueue signal).1 = some d ∧ NamedByPolicy g.queue signal g.overflowPolicy d := by
  have noRoom : ¬ g.queue.length < g.maxQueueDepth := by omega
  have queued : ∀ {cmp v i}, minBy cmp g.queue.zipIdx = some (v, i) → v ∈ g.queue :=
    fun found => List.mem_of_getElem? (List.mk_mem_zipIdx_iff_getElem?.mp (minBy_mem found))
  have dropped : (g.enqueue signal).1 = some ((g.victim signal).elim signal Prod.fst) := by
    unfold enqueue
    rw [if_neg noRoom]
    cases g.victim signal with
    | none => rfl
    | some w => rfl
  refine ⟨_, dropped, ?_⟩
  unfold victim
  cases policy : g.overflowPolicy with
  | dropNewest => exact .newest
  | dropOldest =>
    obtain ⟨v, i, found⟩ := lowest_exists ageCmp waiting
    have first := minBy_least ageCmp_trans found
    simp only [found, Option.elim_some]
    refine .oldest (queued found) fun w hw => ?_
    obtain ⟨j, hj⟩ := getElem_zipIdx hw
    exact notYounger_of_ageCmp (first (w, j) hj)
  | dropLowestWeight =>
    obtain ⟨v, i, found⟩ := lowest_exists weightCmp waiting
    have placed : ∀ w ∈ g.queue.zipIdx, P w.1.weight := fun w hw =>
      each w.1 (List.mem_of_getElem? (List.mk_mem_zipIdx_iff_getElem?.mp hw))
    have least : ∀ w ∈ g.queue, v.weight ≤ w.weight := by
      intro w hw
      obtain ⟨j, hj⟩ := getElem_zipIdx hw
      have first := minBy_least_on order.weightCmp_trans placed found (w, j) hj
      exact (order.isLE_partialCmp (each v (queued found)) (each w hw)).mp
        (Ordering.ne_gt_iff_isLE.mp first)
    by_cases lighter : v.weight < signal.weight
    · simp only [found, Option.filter_some, lighter, decide_true, if_true, Option.elim_some]
      exact .lightest (queued found) lighter least
    · simp only [found, Option.filter_some, lighter, decide_false]
      have heavier := order.not_lt (each v (queued found)) arrival lighter
      exact .arrival fun w hw => order.le_trans arrival (each v (queued found)) (each w hw) heavier
        (least w hw)

theorem enqueue_room (g : ActivationState F) (signal : QueuedSignal F)
    (room : g.queue.length < g.maxQueueDepth) : (g.enqueue signal).1 = none := by
  unfold enqueue
  rw [if_pos room]

theorem enqueue_keeps (g : ActivationState F) (signal : QueuedSignal F) :
    ∃ queue dropped overflows, (g.enqueue signal).2 =
      { g with queue := queue, signalsDropped := dropped, overflowEvents := overflows } := by
  unfold enqueue
  split
  · exact ⟨_, _, _, rfl⟩
  · dsimp only
    split
    · exact ⟨_, _, _, rfl⟩
    · exact ⟨_, _, _, rfl⟩

/-- An offer charges the potential; besides, only the threshold and the queue with its counters
change. -/
theorem offered_keeps (g : ActivationState F) (signal : QueuedSignal F) (synapseWeight : F) :
    ∃ threshold queue dropped overflows, g.offered signal synapseWeight =
      { g with
        potential := min (g.potential + signal.weight * synapseWeight) g.maxPotential
        threshold := threshold, queue := queue
        signalsDropped := dropped, overflowEvents := overflows } := by
  obtain ⟨queue, dropped, overflows, filled⟩ :=
    (g.charged (signal.weight * synapseWeight)).enqueue_keeps signal
  have same : g.offered signal synapseWeight = _ :=
    congrArg (fun g => if g.dynamic then g.recomputeThreshold else g) filled
  rw [same]
  dsimp only
  split
  · exact ⟨_, _, _, _, rfl⟩
  · exact ⟨g.threshold, _, _, _, rfl⟩

theorem enqueue_length (g : ActivationState F) (signal : QueuedSignal F) {depth : ℕ}
    (within : g.queue.length ≤ depth) (bound : g.maxQueueDepth = depth) :
    (g.enqueue signal).2.queue.length ≤ depth := by
  have perm := (enqueue_perm g signal).length_eq
  rw [List.length_append, List.length_cons] at perm
  by_cases room : g.queue.length < g.maxQueueDepth
  · omega
  · have one : (g.enqueue signal).1.toList.length = 1 := by
      unfold enqueue
      rw [if_neg room]
      cases g.victim signal with
      | none => rfl
      | some w => rfl
    omega

end ActivationState

namespace WithinBounds

variable [Scalar F] [FloatScalar F] {config : ActivationConfig F} {g : ActivationState F}

theorem ceiling_nonneg (h : WithinBounds config g) : 0 ≤ config.maxPotential :=
  FloatScalar.le_trans h.charged h.capped

theorem offered (h : WithinBounds config g) {signal : QueuedSignal F} {synapseWeight : F}
    (finite : Scalar.isFinite signal.weight = true ∧ Scalar.isFinite synapseWeight = true)
    (weight : 0 ≤ signal.weight) (synapse : 0 ≤ synapseWeight) :
    WithinBounds config (g.offered signal synapseWeight) := by
  let full := g.charged (signal.weight * synapseWeight)
  have length := full.enqueue_length signal h.queue h.depth
  have weights : ∀ w ∈ (full.enqueue signal).2.queue, Scalar.isFinite w.weight = true := by
    intro w hw
    have here := (full.enqueue_perm signal).mem_iff.mp (List.mem_append_right _ hw)
    rcases List.mem_cons.mp here with rfl | queued
    · exact finite.1
    · exact h.finite w queued
  rw [← ActivationState.offered_queue] at length weights
  obtain ⟨threshold, queue, dropped, overflows, same⟩ := g.offered_keeps signal synapseWeight
  rw [same] at length weights ⊢
  have ceiling := h.ceiling_nonneg
  refine ⟨h.batch, h.depth, h.policy, h.ceiling, length, weights, ?_, ?_⟩
  · exact FloatScalar.le_min (FloatScalar.add_nonneg h.charged
      (FloatScalar.mul_nonneg finite.1 finite.2 weight synapse)) (h.ceiling ▸ ceiling)
  · show min (g.potential + signal.weight * synapseWeight) g.maxPotential ≤ config.maxPotential
    rw [h.ceiling]
    exact FloatScalar.min_le_right _ (FloatScalar.number_right ceiling)

theorem fire (h : WithinBounds config g) (nowNs : ℕ) : WithinBounds config (g.fire nowNs).2 where
  batch := h.batch
  depth := h.depth
  policy := h.policy
  ceiling := h.ceiling
  queue := by
    have perm := (ActivationState.fire_perm g nowNs).length_eq
    rw [List.length_append] at perm
    have := h.queue
    omega
  finite := by
    intro w hw
    exact h.finite w ((ActivationState.fire_perm g nowNs).mem_iff.mp (List.mem_append_right _ hw))
  charged := FloatScalar.zero_le_zero
  capped := h.ceiling_nonneg

end WithinBounds

/-- What one call keeps and promises. -/
structure GateStep [Scalar F] (config : ActivationConfig F) (m : GateMoment F) : Prop where
  bounds : WithinBounds config m.after
  batch : BatchInOrder config m
  drop : DropsAsNamed config m
  conserved : (m.fired ++ m.dropped.toList ++ m.after.queue).Perm (m.offered ++ m.before.queue)

section Runs

variable [Scalar F] {config : ActivationConfig F}

theorem BatchInOrder.of_none {m : GateMoment F} (none : m.fired = []) :
    BatchInOrder config m := by
  constructor
  · rw [none]
    exact Nat.zero_le _
  · rw [none]
    exact List.Pairwise.nil
  · rw [none]
    intro q hq
    cases hq

variable [FloatScalar F]

theorem BatchInOrder.of_fire {m : GateMoment F} {g : ActivationState F} {nowNs : ℕ}
    (h : WithinBounds config g) (fired : m.fired = (g.fire nowNs).1)
    (after : m.after = (g.fire nowNs).2) : BatchInOrder config m := by
  obtain ⟨length, order, heaviest⟩ := g.fire_batch FiniteOrder.ordered nowNs h.finite
  constructor
  · rw [fired, ← h.batch]
    exact length
  · rw [fired]
    exact order
  · rw [fired, after]
    exact heaviest

theorem GateStep.of_drain {call : GateCall F} {g : ActivationState F} (nowNs : ℕ)
    (h : WithinBounds config g) (plain : ∀ signal weight now rng,
      call ≠ .admitSignal signal weight now rng)
    {fired : List (QueuedSignal F)} {after : ActivationState F}
    (cases : fired = [] ∧ after = g ∨ fired = (g.fire nowNs).1 ∧ after = (g.fire nowNs).2) :
    GateStep config ⟨call, g, fired, none, after⟩ := by
  have offered : (⟨call, g, fired, none, after⟩ : GateMoment F).offered = [] := by
    cases call with
    | admitSignal signal weight now rng => exact absurd rfl (plain signal weight now rng)
    | drainIfStarving nowNs => rfl
    | drainBatch nowNs => rfl
    | adjustForLoad loadFactor => rfl
  rcases cases with ⟨rfl, rfl⟩ | ⟨rfl, rfl⟩
  · refine ⟨h, .of_none rfl, .none rfl fun _ _ _ _ same => absurd same (plain _ _ _ _), ?_⟩
    rw [offered]
    exact List.Perm.refl _
  · refine ⟨h.fire nowNs, .of_fire h rfl rfl,
      .none rfl fun _ _ _ _ same => absurd same (plain _ _ _ _), ?_⟩
    rw [offered]
    simpa using g.fire_perm nowNs

theorem offer_dropsAsNamed {g : ActivationState F} (h : WithinBounds config g)
    (depth : 0 < config.maxQueueDepth) {signal : QueuedSignal F} {synapseWeight : F} {nowNs : ℕ}
    (finite : Scalar.isFinite signal.weight = true) {rng : Rng} {m : GateMoment F}
    (call : m.call = .admitSignal signal synapseWeight nowNs rng)
    (before : m.before = g) (dropped : m.dropped = g.displaced signal synapseWeight) :
    DropsAsNamed config m := by
  subst before
  have sameDepth := h.depth
  by_cases room : m.before.queue.length < config.maxQueueDepth
  · refine .none (dropped.trans ?_) fun _ _ _ _ _ => room
    refine ActivationState.enqueue_room _ _ ?_
    rw [show (m.before.charged (signal.weight * synapseWeight)).maxQueueDepth = _ from sameDepth]
    exact room
  · have full : config.maxQueueDepth ≤ m.before.queue.length := Nat.le_of_not_lt room
    have waiting : m.before.queue ≠ [] := by
      intro none
      rw [none, List.length_nil] at full
      omega
    obtain ⟨d, out, named⟩ := ActivationState.enqueue_full FiniteOrder.ordered
      (m.before.charged (signal.weight * synapseWeight)) finite h.finite waiting (sameDepth ▸ full)
    exact .overflow call full (dropped.trans out) (h.policy ▸ named)

theorem gateStep {g : ActivationState F} (h : WithinBounds config g)
    (depth : 0 < config.maxQueueDepth) (call : GateCall F)
    (weighted : (GateMoment.onGate call g).Weighted) :
    GateStep config (GateMoment.onGate call g) := by
  cases call with
  | admitSignal signal synapseWeight nowNs rng =>
    obtain ⟨finite, weight, synapse⟩ := weighted
    have offered := h.offered finite weight synapse
    have conserved := g.admitSignal_perm signal synapseWeight nowNs rng
    have swapped : ((g.admitSignal signal synapseWeight nowNs rng).1.fired ++
        (g.admitSignal signal synapseWeight nowNs rng).1.dropped.toList ++
        (g.admitSignal signal synapseWeight nowNs rng).2.1.queue).Perm (signal :: g.queue) := by
      refine List.Perm.trans ?_ conserved
      rw [← List.append_assoc]
      exact (List.perm_append_comm).append_right _
    rcases g.admitSignal_spec signal synapseWeight nowNs rng with ⟨out, gate⟩ | ⟨out, gate⟩
    · refine ⟨?_, .of_none (congrArg AdmitOutcome.fired out), ?_, swapped⟩
      · show WithinBounds config (g.admitSignal signal synapseWeight nowNs rng).2.1
        rw [gate]
        exact offered
      · exact offer_dropsAsNamed h depth finite.1 rfl rfl (congrArg AdmitOutcome.dropped out)
    · refine ⟨?_, .of_fire offered (congrArg AdmitOutcome.fired out) gate, ?_, swapped⟩
      · show WithinBounds config (g.admitSignal signal synapseWeight nowNs rng).2.1
        rw [gate]
        exact offered.fire nowNs
      · exact offer_dropsAsNamed h depth finite.1 rfl rfl (congrArg AdmitOutcome.dropped out)
  | drainIfStarving nowNs =>
    refine .of_drain nowNs h (by simp) ?_
    rcases g.drainIfStarving_cases nowNs with held | ⟨-, fires⟩
    · rw [held]
      exact Or.inl ⟨rfl, rfl⟩
    · rw [fires]
      exact Or.inr ⟨rfl, rfl⟩
  | drainBatch nowNs =>
    refine .of_drain nowNs h (by simp) ?_
    unfold ActivationState.drainBatch
    split
    · exact Or.inl ⟨rfl, rfl⟩
    · exact Or.inr ⟨rfl, rfl⟩
  | adjustForLoad loadFactor =>
    have queue : (g.adjustForLoad loadFactor).queue = g.queue := by
      unfold ActivationState.adjustForLoad
      split <;> rfl
    refine ⟨?_, .of_none rfl, .none rfl fun _ _ _ _ same => (by cases same), ?_⟩
    · show WithinBounds config (g.adjustForLoad loadFactor)
      unfold ActivationState.adjustForLoad
      split
      · exact ⟨h.batch, h.depth, h.policy, h.ceiling, h.queue, h.finite, h.charged, h.capped⟩
      · exact h
    · exact List.Perm.of_eq queue

theorem WithinBounds.start (batch : config.fireBatchSize ≠ 0) (depth : config.maxQueueDepth ≠ 0)
    (ceiling : 0 ≤ config.maxPotential) : WithinBounds config (.new config) where
  batch := Nat.max_eq_left (Nat.one_le_iff_ne_zero.mpr batch)
  depth := Nat.max_eq_left (Nat.one_le_iff_ne_zero.mpr depth)
  policy := rfl
  ceiling := rfl
  queue := Nat.zero_le _
  finite := by
    intro w hw
    cases hw
  charged := FloatScalar.zero_le_zero
  capped := ceiling

omit [Scalar F] [FloatScalar F] in
theorem conserved_append {offered fired queue new out left : List (QueuedSignal F)}
    (before : offered.Perm (fired ++ queue)) (step : (out ++ left).Perm (new ++ queue)) :
    (offered ++ new).Perm (fired ++ out ++ left) := by
  have swapped : (offered ++ new).Perm (fired ++ (new ++ queue)) := by
    refine (before.append_right new).trans ?_
    rw [List.append_assoc]
    exact (List.perm_append_comm).append_left fired
  refine (swapped.trans (step.symm.append_left fired)).trans ?_
  rw [List.append_assoc]

def leftGate (ms : List (GateMoment F)) : List (QueuedSignal F) :=
  ms.flatMap fun m => m.fired ++ m.dropped.toList

theorem run_steps (batch : config.fireBatchSize ≠ 0) (depth : config.maxQueueDepth ≠ 0)
    (ceiling : 0 ≤ config.maxPotential) {ms : List (GateMoment F)} {g : ActivationState F}
    (run : GateRun config ms g) (weighted : ∀ m ∈ ms, m.Weighted) :
    WithinBounds config g ∧ (∀ m ∈ ms, GateStep config m) ∧
      (ms.flatMap GateMoment.offered).Perm (leftGate ms ++ g.queue) := by
  induction run with
  | start =>
    refine ⟨.start batch depth ceiling, fun m hm => ?_, List.Perm.refl _⟩
    cases hm
  | @call ms g call run ih =>
    obtain ⟨bounds, steps, conserved⟩ := ih fun m hm => weighted m (List.mem_append_left _ hm)
    have step := gateStep bounds (Nat.pos_of_ne_zero depth) call (weighted _ (by simp))
    have before : (GateMoment.onGate call g).before = g := by cases call <;> rfl
    refine ⟨step.bounds, fun m hm => ?_, ?_⟩
    · rcases List.mem_append.mp hm with hm | hm
      · exact steps m hm
      · rw [List.mem_singleton.mp hm]
        exact step
    · unfold leftGate
      rw [List.flatMap_append, List.flatMap_append, List.flatMap_singleton, List.flatMap_singleton]
      have exchanged := step.conserved
      rw [before] at exchanged
      exact conserved_append conserved exchanged

/-- An accepted configuration is kept over every run from the start of the gate exactly where the cap
on the potential is a number, and no negative one. -/
theorem gate_conserves_iff (checked : config.validate = .ok ()) :
    (∀ (ms : List (GateMoment F)) (g : ActivationState F), GateRun config ms g →
      (∀ m ∈ ms, m.Weighted) → GateConserves config ms g) ↔ 0 ≤ config.maxPotential := by
  obtain ⟨batch, depth, -⟩ := config.validate_iff.mp checked
  constructor
  · intro conserves
    have weighted : ∀ m ∈ ([] : List (GateMoment F)), m.Weighted := by
      intro m hm
      cases hm
    exact (conserves [] _ .start weighted).potential.2
  · intro ceiling ms g run weighted
    obtain ⟨bounds, steps, conserved⟩ := run_steps batch depth ceiling run weighted
    constructor
    · exact conserved.trans ((List.flatMap_append_perm _ _ _).symm.append_right _)
    · exact bounds.queue
    · exact ⟨bounds.charged, bounds.capped⟩
    · intro m hm
      exact (steps m hm).batch
    · intro m hm
      exact (steps m hm).drop

end Runs

/-! A faint signal waits at an edge gate until a heavy one fires both. -/

section Sample

def lightQueued : QueuedSignal ℚ := ⟨⟨2⟩, ⟨[1]⟩, 1 / 10, .acknowledged, 0⟩

def heavyQueued : QueuedSignal ℚ := ⟨⟨1⟩, ⟨[1]⟩, 1, .acknowledged, 0⟩

def lightOffered : GateMoment ℚ :=
  .onGate (.admitSignal lightQueued 1 0 .maximal) (.new (.forClass .edge))

def heavyOffered : GateMoment ℚ :=
  .onGate (.admitSignal heavyQueued 1 0 .maximal) lightOffered.after

theorem both_conserved :
    GateConserves (.forClass .edge) [lightOffered, heavyOffered] heavyOffered.after := by
  have conserves := (gate_conserves_iff (F := ℚ) (ActivationConfig.validate_forClass .edge)).mpr
    (by decide +kernel)
  apply conserves _ _ ((GateRun.start.call _).call _)
  intro m hm
  rcases List.mem_cons.mp hm with rfl | hm
  · show (true = true ∧ true = true) ∧ (0 : ℚ) ≤ 1 / 10 ∧ (0 : ℚ) ≤ 1
    norm_num
  · rw [List.mem_singleton.mp hm]
    show (true = true ∧ true = true) ∧ (0 : ℚ) ≤ 1 ∧ (0 : ℚ) ≤ 1
    norm_num

def uncappedConfig : ActivationConfig NanRational :=
  { ActivationConfig.forClass .edge with maxPotential := .nan }

def wholeQueued : QueuedSignal NanRational := ⟨⟨1⟩, ⟨[1]⟩, .num 1, .acknowledged, 0⟩

def wholeOffered : GateMoment NanRational :=
  .onGate (.admitSignal wholeQueued (.num 1) 0 .maximal) (.new uncappedConfig)

/-- It is accepted, and the potential is within no bound. -/
theorem uncapped_not_conserved : ¬ ∀ config : ActivationConfig NanRational,
    config.validate = .ok () → ∀ ms g, GateRun config ms g → (∀ m ∈ ms, m.Weighted) →
      GateConserves config ms g := by
  intro conserves
  have checked : uncappedConfig.validate = .ok () := by
    rw [ActivationConfig.validate_iff]
    decide +kernel
  have weighted : ∀ m ∈ [wholeOffered], m.Weighted := by
    intro m hm
    rw [List.mem_singleton.mp hm]
    show (_ ∧ _) ∧ (0 : NanRational) ≤ .num 1 ∧ (0 : NanRational) ≤ .num 1
    decide +kernel
  have bounded := conserves uncappedConfig checked [wholeOffered] _ (GateRun.start.call _) weighted
  exact absurd bounded.potential.2 (by decide +kernel)

end Sample

end OpenNtl
