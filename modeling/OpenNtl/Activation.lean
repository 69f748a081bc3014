import OpenNtl.Records
import OpenNtl.Rng

/-! # The activation gate: admission, overflow and batched firing -/
namespace OpenNtl

inductive ActivationFunction where
  | step | sigmoid | leaky
  deriving DecidableEq, Repr

/-- Hardware class of a node, selecting activation defaults. -/
inductive NodeClass where
  | edge | standard | server | infrastructure
  deriving DecidableEq, Repr

inductive OverflowPolicy where
  | dropLowestWeight | dropNewest | dropOldest
  deriving DecidableEq, Repr

structure ActivationConfig (F : Type) where
  baseThreshold : F
  activationFunction : ActivationFunction
  refractoryPeriodMs : ℕ
  maxPotential : F
  dynamicThreshold : Bool
  fireBatchSize : ℕ
  maxQueueDepth : ℕ
  overflowPolicy : OverflowPolicy
  leakRate : F
  /-- Longest wait before the gate fires anyway. `0` disables the guard. -/
  maxQueueLatencyMs : ℕ

structure QueuedSignal (F : Type) where
  id : SignalId
  origin : NodeId
  weight : F
  delivery : DeliveryClass
  enqueuedAtNs : ℕ
  deriving DecidableEq, Repr

structure AdmitOutcome (F : Type) where
  fired : List (QueuedSignal F)
  dropped : Option (QueuedSignal F)
  dropReason : Option RejectReason

structure ActivationState (F : Type) where
  potential : F
  threshold : F
  baseThreshold : F
  refractoryUntilNs : ℕ
  refractoryPeriodNs : ℕ
  function : ActivationFunction
  maxPotential : F
  dynamic : Bool
  fireBatchSize : ℕ
  maxQueueDepth : ℕ
  overflowPolicy : OverflowPolicy
  leakRate : F
  maxQueueLatencyNs : ℕ
  queue : List (QueuedSignal F)
  signalsFired : ℕ
  signalsDropped : ℕ
  overflowEvents : ℕ

inductive ActivationConfigError (F : Type) where
  | fireBatchSize
  | maxQueueDepth
  | baseThreshold (got : F)
  | maxPotential (potential threshold : F)
  | leakRate (got : F)
  | maxQueueLatencyMs (latencyMs refractoryMs : ℕ)

def ActivationConfigError.message {F : Type} (display : F → String) :
    ActivationConfigError F → String
  | .fireBatchSize => "fire_batch_size must be at least 1, or the node can never process anything"
  | .maxQueueDepth => "max_queue_depth must be at least 1"
  | .baseThreshold got => "base_threshold must be positive, got " ++ display got
  | .maxPotential potential threshold =>
    "max_potential (" ++ display potential ++ ") must be at least base_threshold (" ++
      display threshold ++ "), or the node can never reach its threshold"
  | .leakRate got => "leak_rate must be in [0, 1], got " ++ display got
  | .maxQueueLatencyMs latencyMs refractoryMs =>
    "max_queue_latency_ms (" ++ toString latencyMs ++ ") must be at least refractory_period_ms (" ++
      toString refractoryMs ++ "),                  or the guard can never fire"

variable {F : Type} [Scalar F]

def ActivationConfig.validate (c : ActivationConfig F) : Except (ActivationConfigError F) Unit :=
  if c.fireBatchSize = 0 then .error .fireBatchSize
  else if c.maxQueueDepth = 0 then .error .maxQueueDepth
  else if c.baseThreshold ≤ 0 then .error (.baseThreshold c.baseThreshold)
  else if c.maxPotential < c.baseThreshold then
    .error (.maxPotential c.maxPotential c.baseThreshold)
  else if ¬ (0 ≤ c.leakRate ∧ c.leakRate ≤ 1) then .error (.leakRate c.leakRate)
  else if 0 < c.maxQueueLatencyMs ∧ c.maxQueueLatencyMs < c.refractoryPeriodMs then
    .error (.maxQueueLatencyMs c.maxQueueLatencyMs c.refractoryPeriodMs)
  else .ok ()

def ActivationConfig.forClass (nodeClass : NodeClass) : ActivationConfig F :=
  let (refractoryMs, batch, depth, maxPotential, latencyGuardMs) :=
    match nodeClass with
    | .edge => (10, 8, 256, (10 : ℚ), 1000)
    | .standard => (1, 16, 1024, 10, 500)
    | .server => (0, 64, 8192, 50, 250)
    | .infrastructure => (0, 128, 32768, 100, 100)
  { baseThreshold := Scalar.lit (1 / 2)
    activationFunction := .step
    refractoryPeriodMs := refractoryMs
    maxPotential := Scalar.lit maxPotential
    dynamicThreshold := true
    fireBatchSize := batch
    maxQueueDepth := depth
    overflowPolicy := .dropLowestWeight
    leakRate := Scalar.lit (1 / 100)
    maxQueueLatencyMs := latencyGuardMs }

theorem ActivationConfig.validate_iff (c : ActivationConfig F) : c.validate = .ok () ↔
    c.fireBatchSize ≠ 0 ∧ c.maxQueueDepth ≠ 0 ∧ ¬ c.baseThreshold ≤ 0 ∧
      ¬ c.maxPotential < c.baseThreshold ∧ (0 ≤ c.leakRate ∧ c.leakRate ≤ 1) ∧
      ¬ (0 < c.maxQueueLatencyMs ∧ c.maxQueueLatencyMs < c.refractoryPeriodMs) := by
  unfold ActivationConfig.validate
  split_ifs with batch depth base potential leak latency
  · simp [batch]
  · simp [depth]
  · simp [base]
  · simp [potential]
  · simp [latency]
  · simp [batch, depth, base, potential, leak, latency]
  · refine iff_of_false (by simp) ?_
    rintro ⟨-, -, -, -, leaks, -⟩
    exact leak leaks

theorem ActivationConfig.validate_forClass (nodeClass : NodeClass) :
    (ActivationConfig.forClass nodeClass (F := ℚ)).validate = .ok () := by
  rw [ActivationConfig.validate_iff]
  cases nodeClass <;> decide +kernel

namespace ActivationState

def new (config : ActivationConfig F) : ActivationState F where
  potential := 0
  threshold := config.baseThreshold
  baseThreshold := config.baseThreshold
  refractoryUntilNs := 0
  refractoryPeriodNs := saturatingMul config.refractoryPeriodMs 1000000
  function := config.activationFunction
  maxPotential := config.maxPotential
  dynamic := config.dynamicThreshold
  fireBatchSize := max config.fireBatchSize 1
  maxQueueDepth := max config.maxQueueDepth 1
  overflowPolicy := config.overflowPolicy
  leakRate := config.leakRate
  maxQueueLatencyNs := saturatingMul config.maxQueueLatencyMs 1000000
  queue := []
  signalsFired := 0
  signalsDropped := 0
  overflowEvents := 0

def restore (g : ActivationState F) (snapshot : ActivationSnapshot F) : ActivationState F :=
  { g with
    potential := Scalar.clamp snapshot.potential 0 g.maxPotential
    threshold := snapshot.threshold
    refractoryUntilNs := snapshot.refractoryUntilNs
    signalsFired := snapshot.signalsFired }

omit [Scalar F] in
def snapshot (g : ActivationState F) (nowNs : ℕ) : ActivationSnapshot F where
  potential := g.potential
  threshold := g.threshold
  refractoryUntilNs := g.refractoryUntilNs
  signalsFired := g.signalsFired
  takenAtNs := nowNs

def loadFactor (g : ActivationState F) : F :=
  Scalar.clamp (Scalar.lit g.queue.length / Scalar.lit g.maxQueueDepth) 0 1

def recomputeThreshold (g : ActivationState F) : ActivationState F :=
  { g with threshold := g.baseThreshold * (1 + g.loadFactor) }

omit [Scalar F] in
def isStarving (g : ActivationState F) (nowNs : ℕ) : Bool :=
  g.maxQueueLatencyNs ≠ 0 &&
    g.queue.any fun s => decide (g.maxQueueLatencyNs ≤ nowNs - s.enqueuedAtNs)

omit [Scalar F] in
def inRefractory (g : ActivationState F) (nowNs : ℕ) : Bool := nowNs < g.refractoryUntilNs

omit [Scalar F] in
def ageCmp (a b : QueuedSignal F × ℕ) : Ordering :=
  (compare a.1.enqueuedAtNs b.1.enqueuedAtNs).then (a.1.id.cmp b.1.id)

def weightCmp (a b : QueuedSignal F × ℕ) : Ordering := Scalar.partialCmp a.1.weight b.1.weight

/-- The victim of an overflow, if it is not the arrival, with its place in the queue. -/
def victim (g : ActivationState F) (signal : QueuedSignal F) : Option (QueuedSignal F × ℕ) :=
  match g.overflowPolicy with
  | .dropNewest => none
  | .dropOldest => minBy ageCmp g.queue.zipIdx
  | .dropLowestWeight =>
    -- Ties drop the arrival, so equal weights cannot displace what is committed.
    (minBy weightCmp g.queue.zipIdx).filter fun w => w.1.weight < signal.weight

def enqueue (g : ActivationState F) (signal : QueuedSignal F) :
    Option (QueuedSignal F) × ActivationState F :=
  if g.queue.length < g.maxQueueDepth then (none, { g with queue := g.queue ++ [signal] })
  else
    let counted := { g with
      overflowEvents := g.overflowEvents + 1, signalsDropped := g.signalsDropped + 1 }
    match g.victim signal with
    | some (evicted, idx) =>
      (some evicted, { counted with queue := g.queue.eraseIdx idx ++ [signal] })
    | none => (some signal, counted)

def fireCmp (a b : QueuedSignal F) : Ordering :=
  (Scalar.partialCmp b.weight a.weight).then (a.id.cmp b.id)

def fire (g : ActivationState F) (nowNs : ℕ) : List (QueuedSignal F) × ActivationState F :=
  let queue := sortBy fireCmp g.queue
  let take := min g.fireBatchSize queue.length
  (queue.take take, { g with
    queue := queue.drop take
    potential := 0
    refractoryUntilNs := saturatingAdd nowNs g.refractoryPeriodNs
    signalsFired := g.signalsFired + (queue.take take).length })

def evaluate (g : ActivationState F) (rng : Rng) : Bool × Rng :=
  if g.queue.isEmpty then (false, rng)
  else
    match g.function with
    | .step => (decide (g.threshold ≤ g.potential), rng)
    | .sigmoid =>
      let probability := 1 / (1 + Scalar.exp (Scalar.lit (-10) * (g.potential - g.threshold)))
      let (draw, rng) := rng.nextF32 (F := F)
      (decide (draw < probability), rng)
    | .leaky =>
      if g.threshold ≤ g.potential then (true, rng)
      else
        let (draw, rng) := rng.nextF32 (F := F)
        (decide (draw < g.leakRate), rng)

/-- Offer a signal to the gate: enqueue it, add its contribution, and fire if the activation
function or the latency guard says so. The refractory period always wins. -/
def admitSignal (g : ActivationState F) (signal : QueuedSignal F) (synapseWeight : F) (nowNs : ℕ)
    (rng : Rng) : AdmitOutcome F × ActivationState F × Rng :=
  let contribution := signal.weight * synapseWeight
  let g := { g with potential := min (g.potential + contribution) g.maxPotential }
  let (dropped, g) := g.enqueue signal
  let dropReason := dropped.map fun _ => RejectReason.queueFull
  let g := if g.dynamic then g.recomputeThreshold else g
  if g.inRefractory nowNs then (⟨[], dropped, dropReason⟩, g, rng)
  else
    let (fires, rng) := g.evaluate rng
    if fires || g.isStarving nowNs then
      let (fired, g) := g.fire nowNs
      (⟨fired, dropped, dropReason⟩, g, rng)
    else (⟨[], dropped, dropReason⟩, g, rng)

def drainIfStarving (g : ActivationState F) (nowNs : ℕ) :
    List (QueuedSignal F) × ActivationState F :=
  if g.inRefractory nowNs || !g.isStarving nowNs then ([], g) else g.fire nowNs

def drainBatch (g : ActivationState F) (nowNs : ℕ) : List (QueuedSignal F) × ActivationState F :=
  if g.queue.isEmpty then ([], g) else g.fire nowNs

def adjustForLoad (g : ActivationState F) (loadFactor : F) : ActivationState F :=
  if g.dynamic then
    { g with threshold := g.baseThreshold * (1 + Scalar.clamp loadFactor 0 1) }
  else g

omit [Scalar F] in
theorem isStarving_iff {g : ActivationState F} {nowNs : ℕ} : g.isStarving nowNs = true ↔
    g.maxQueueLatencyNs ≠ 0 ∧ ∃ s ∈ g.queue, g.maxQueueLatencyNs ≤ nowNs - s.enqueuedAtNs := by
  simp [isStarving]

omit [Scalar F] in
theorem inRefractory_iff {g : ActivationState F} {nowNs : ℕ} :
    g.inRefractory nowNs = true ↔ nowNs < g.refractoryUntilNs := decide_eq_true_iff

omit [Scalar F] in
theorem inRefractory_eq_false {g : ActivationState F} {nowNs : ℕ} :
    g.inRefractory nowNs = false ↔ g.refractoryUntilNs ≤ nowNs := by
  rw [← Bool.not_eq_true, inRefractory_iff, Nat.not_lt]

theorem drainIfStarving_of_held {g : ActivationState F} {nowNs : ℕ}
    (held : g.inRefractory nowNs = true ∨ g.isStarving nowNs = false) :
    g.drainIfStarving nowNs = ([], g) := by
  apply if_pos
  rcases held with refractory | calm
  · rw [refractory, Bool.true_or]
  · rw [calm, Bool.not_false, Bool.or_true]

theorem drainIfStarving_of_fires {g : ActivationState F} {nowNs : ℕ}
    (past : g.inRefractory nowNs = false) (starving : g.isStarving nowNs = true) :
    g.drainIfStarving nowNs = g.fire nowNs := by
  apply if_neg
  rw [past, starving]
  exact Bool.false_ne_true

theorem fire_perm (g : ActivationState F) (nowNs : ℕ) :
    ((g.fire nowNs).1 ++ (g.fire nowNs).2.queue).Perm g.queue := by
  simp only [fire, List.take_append_drop]
  exact sortBy_perm fireCmp g.queue

theorem drainIfStarving_cases (g : ActivationState F) (nowNs : ℕ) :
    g.drainIfStarving nowNs = ([], g) ∨
      g.isStarving nowNs = true ∧ g.drainIfStarving nowNs = g.fire nowNs := by
  cases refractory : g.inRefractory nowNs with
  | true => exact Or.inl (drainIfStarving_of_held (Or.inl refractory))
  | false =>
    cases starving : g.isStarving nowNs with
    | false => exact Or.inl (drainIfStarving_of_held (Or.inr starving))
    | true => exact Or.inr ⟨rfl, drainIfStarving_of_fires refractory starving⟩

theorem drainIfStarving_perm (g : ActivationState F) (nowNs : ℕ) :
    ((g.drainIfStarving nowNs).1 ++ (g.drainIfStarving nowNs).2.queue).Perm g.queue := by
  rcases g.drainIfStarving_cases nowNs with held | ⟨-, fires⟩
  · rw [held]
    exact List.Perm.refl _
  · rw [fires]
    exact fire_perm g nowNs

@[simp] theorem fire_signalsFired (g : ActivationState F) (nowNs : ℕ) :
    (g.fire nowNs).2.signalsFired = g.signalsFired + (g.fire nowNs).1.length := rfl

theorem victim_mem {g : ActivationState F} {signal : QueuedSignal F} {v : QueuedSignal F} {i : ℕ}
    (h : g.victim signal = some (v, i)) : g.queue[i]? = some v := by
  have ofMin : ∀ {cmp}, minBy cmp g.queue.zipIdx = some (v, i) → g.queue[i]? = some v :=
    fun hm => List.mk_mem_zipIdx_iff_getElem?.mp (minBy_mem hm)
  unfold victim at h
  split at h
  · cases h
  · exact ofMin h
  · exact ofMin (Option.filter_eq_some_iff.mp h).1

@[simp] theorem enqueue_signalsFired (g : ActivationState F) (signal : QueuedSignal F) :
    (g.enqueue signal).2.signalsFired = g.signalsFired := by
  unfold enqueue
  split
  · rfl
  · dsimp only
    split <;> rfl

theorem enqueue_perm (g : ActivationState F) (signal : QueuedSignal F) :
    ((g.enqueue signal).1.toList ++ (g.enqueue signal).2.queue).Perm (signal :: g.queue) := by
  by_cases room : g.queue.length < g.maxQueueDepth
  · simp only [enqueue, if_pos room, Option.toList_none, List.nil_append]
    exact List.perm_append_singleton signal g.queue
  · cases hv : g.victim signal with
    | none => simp [enqueue, if_neg room, hv]
    | some w =>
      obtain ⟨evicted, idx⟩ := w
      obtain ⟨inRange, here⟩ := List.getElem?_eq_some_iff.mp (victim_mem hv)
      have taken : (evicted :: g.queue.eraseIdx idx).Perm g.queue := by
        rw [← here]
        exact List.getElem_cons_eraseIdx_perm inRange
      simp only [enqueue, if_neg room, hv, Option.toList_some, List.singleton_append]
      exact (taken.append_right [signal]).trans (List.perm_append_singleton signal g.queue)

def charged (g : ActivationState F) (contribution : F) : ActivationState F :=
  { g with potential := min (g.potential + contribution) g.maxPotential }

/-- The gate once the arrival is enqueued and before it is decided whether to fire. -/
def offered (g : ActivationState F) (signal : QueuedSignal F) (synapseWeight : F) :
    ActivationState F :=
  let full := ((g.charged (signal.weight * synapseWeight)).enqueue signal).2
  if full.dynamic then full.recomputeThreshold else full

def displaced (g : ActivationState F) (signal : QueuedSignal F) (synapseWeight : F) :
    Option (QueuedSignal F) := ((g.charged (signal.weight * synapseWeight)).enqueue signal).1

section Offer

variable {g : ActivationState F} {signal : QueuedSignal F} {synapseWeight : F} {nowNs : ℕ}
  {rng : Rng}

/-- An offer only enqueues within the refractory period, and while neither the activation function
nor the guard fires. -/
theorem admitSignal_of_still (still : (g.offered signal synapseWeight).inRefractory nowNs = true ∨
      (((g.offered signal synapseWeight).evaluate rng).1 ||
        (g.offered signal synapseWeight).isStarving nowNs) = false) :
    (g.admitSignal signal synapseWeight nowNs rng).1 = ⟨[], g.displaced signal synapseWeight,
        (g.displaced signal synapseWeight).map fun _ => .queueFull⟩ ∧
      (g.admitSignal signal synapseWeight nowNs rng).2.1 = g.offered signal synapseWeight := by
  by_cases refractory : (g.offered signal synapseWeight).inRefractory nowNs = true
  · have held : g.admitSignal signal synapseWeight nowNs rng = _ := if_pos refractory
    rw [held]
    exact ⟨rfl, rfl⟩
  · have quiet := ne_true_of_eq_false (still.resolve_left refractory)
    have ready : g.admitSignal signal synapseWeight nowNs rng = _ := if_neg refractory
    rw [ready.trans (if_neg quiet)]
    exact ⟨rfl, rfl⟩

/-- Past the refractory period it fires if the activation function or the guard says so. -/
theorem admitSignal_of_fires (past : (g.offered signal synapseWeight).inRefractory nowNs = false)
    (fires : (((g.offered signal synapseWeight).evaluate rng).1 ||
      (g.offered signal synapseWeight).isStarving nowNs) = true) :
    (g.admitSignal signal synapseWeight nowNs rng).1 =
        ⟨((g.offered signal synapseWeight).fire nowNs).1, g.displaced signal synapseWeight,
          (g.displaced signal synapseWeight).map fun _ => .queueFull⟩ ∧
      (g.admitSignal signal synapseWeight nowNs rng).2.1 =
        ((g.offered signal synapseWeight).fire nowNs).2 := by
  have ready : g.admitSignal signal synapseWeight nowNs rng = _ :=
    if_neg (ne_true_of_eq_false past)
  rw [ready.trans (if_pos fires)]
  exact ⟨rfl, rfl⟩

end Offer

/-- Everything an offer can do once the arrival is enqueued: the gate keeps still or fires. -/
theorem admitSignal_spec (g : ActivationState F) (signal : QueuedSignal F) (synapseWeight : F)
    (nowNs : ℕ) (rng : Rng) :
    ((g.admitSignal signal synapseWeight nowNs rng).1 = ⟨[], g.displaced signal synapseWeight,
          (g.displaced signal synapseWeight).map fun _ => .queueFull⟩ ∧
        (g.admitSignal signal synapseWeight nowNs rng).2.1 = g.offered signal synapseWeight) ∨
      ((g.admitSignal signal synapseWeight nowNs rng).1 =
          ⟨((g.offered signal synapseWeight).fire nowNs).1, g.displaced signal synapseWeight,
            (g.displaced signal synapseWeight).map fun _ => .queueFull⟩ ∧
        (g.admitSignal signal synapseWeight nowNs rng).2.1 =
          ((g.offered signal synapseWeight).fire nowNs).2) := by
  cases past : (g.offered signal synapseWeight).inRefractory nowNs with
  | true => exact Or.inl (admitSignal_of_still (Or.inl past))
  | false =>
    cases fires : ((g.offered signal synapseWeight).evaluate rng).1 ||
        (g.offered signal synapseWeight).isStarving nowNs with
    | false => exact Or.inl (admitSignal_of_still (Or.inr fires))
    | true => exact Or.inr (admitSignal_of_fires past fires)

@[simp] theorem offered_queue (g : ActivationState F) (signal : QueuedSignal F)
    (synapseWeight : F) : (g.offered signal synapseWeight).queue =
      ((g.charged (signal.weight * synapseWeight)).enqueue signal).2.queue := by
  unfold offered
  dsimp only
  split <;> rfl

@[simp] theorem offered_signalsFired (g : ActivationState F) (signal : QueuedSignal F)
    (synapseWeight : F) : (g.offered signal synapseWeight).signalsFired = g.signalsFired := by
  have kept := enqueue_signalsFired (g.charged (signal.weight * synapseWeight)) signal
  unfold offered
  dsimp only
  split
  · exact kept
  · exact kept

/-- The arrival is enqueued, with what overflow displaced, and then the gate either keeps still
or fires. -/
theorem admitSignal_cases (g : ActivationState F) (signal : QueuedSignal F) (synapseWeight : F)
    (nowNs : ℕ) (rng : Rng) :
    ∃ (dropped : Option (QueuedSignal F)) (h : ActivationState F),
      (dropped.toList ++ h.queue).Perm (signal :: g.queue) ∧ h.signalsFired = g.signalsFired ∧
      ((g.admitSignal signal synapseWeight nowNs rng).1 =
          ⟨[], dropped, dropped.map fun _ => .queueFull⟩ ∧
        (g.admitSignal signal synapseWeight nowNs rng).2.1 = h ∨
       (g.admitSignal signal synapseWeight nowNs rng).1 =
          ⟨(h.fire nowNs).1, dropped, dropped.map fun _ => .queueFull⟩ ∧
        (g.admitSignal signal synapseWeight nowNs rng).2.1 = (h.fire nowNs).2) := by
  refine ⟨g.displaced signal synapseWeight, g.offered signal synapseWeight, ?_,
    offered_signalsFired g signal synapseWeight, g.admitSignal_spec signal synapseWeight nowNs rng⟩
  rw [offered_queue]
  exact enqueue_perm _ signal

/-- An offer loses nothing: what was dropped, what fired and what waits are together the old
queue and the arrival. -/
theorem admitSignal_perm (g : ActivationState F) (signal : QueuedSignal F) (synapseWeight : F)
    (nowNs : ℕ) (rng : Rng) :
    ((g.admitSignal signal synapseWeight nowNs rng).1.dropped.toList ++
      ((g.admitSignal signal synapseWeight nowNs rng).1.fired ++
        (g.admitSignal signal synapseWeight nowNs rng).2.1.queue)).Perm (signal :: g.queue) := by
  obtain ⟨dropped, h, perm, -, ⟨out, gate⟩ | ⟨out, gate⟩⟩ :=
    admitSignal_cases g signal synapseWeight nowNs rng
  · rw [out, gate]
    exact perm
  · rw [out, gate]
    exact ((fire_perm h nowNs).append_left _).trans perm

theorem admitSignal_signalsFired (g : ActivationState F) (signal : QueuedSignal F)
    (synapseWeight : F) (nowNs : ℕ) (rng : Rng) :
    (g.admitSignal signal synapseWeight nowNs rng).2.1.signalsFired =
      g.signalsFired + (g.admitSignal signal synapseWeight nowNs rng).1.fired.length := by
  obtain ⟨dropped, h, -, counted, ⟨out, gate⟩ | ⟨out, gate⟩⟩ :=
    admitSignal_cases g signal synapseWeight nowNs rng
  · rw [out, gate, counted]
    rfl
  · rw [out, gate, fire_signalsFired, counted]

end ActivationState
end OpenNtl
