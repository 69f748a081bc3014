import OpenNtl.Synapse

/-! # Propagation: scoring, selection and the rules that gate a signal -/
namespace OpenNtl

structure ScoringWeights (F : Type) where
  weightFactor : F
  latencyFactor : F
  affinityFactor : F
  recencyFactor : F

structure PropagationConfig (F : Type) where
  maxAcceptedTtl : ℕ
  minPropagationWeight : F
  attenuationFactor : F
  /-- Maximum synapses to propagate to per hop. -/
  maxFanout : ℕ
  dedupCacheSeconds : ℕ
  scoring : ScoringWeights F
  exploration : ExplorationPolicy F

variable {F : Type} [Scalar F]

def ScoringWeights.default : ScoringWeights F where
  weightFactor := Scalar.lit (4 / 10)
  latencyFactor := Scalar.lit (2 / 10)
  affinityFactor := Scalar.lit (3 / 10)
  recencyFactor := Scalar.lit (1 / 10)

def PropagationConfig.default : PropagationConfig F where
  maxAcceptedTtl := 32
  minPropagationWeight := Scalar.lit (1 / 100)
  attenuationFactor := Scalar.lit (9 / 10)
  maxFanout := 5
  dedupCacheSeconds := 300
  scoring := .default
  exploration := .softmax

def scoreSynapse (s : Synapse F) (signalType : String) (nowNs : ℕ) (weights : ScoringWeights F) :
    F :=
  let latencyScore : F :=
    if s.avgLatencyNs = 0 then 1
    else 1 / (1 + Scalar.lit s.avgLatencyNs / Scalar.lit 1000000)
  let hoursSinceActive : F :=
    if s.lastActiveNs < nowNs then
      Scalar.lit (nowNs - s.lastActiveNs : ℕ) / Scalar.lit 3600000000000
    else 0
  let recencyScore := 1 / (1 + hoursSinceActive)
  s.weight * weights.weightFactor + latencyScore * weights.latencyFactor
    + s.affinityFor signalType * weights.affinityFactor + recencyScore * weights.recencyFactor

structure Chosen (F : Type) where
  synapse : Synapse F
  score : F
  explored : Bool

/-- A synapse the signal may take: not the one it came in on, able to carry, and above the
floor that a weighted scope sets. -/
def isEligible (scope : PropagationScope F) (arrivalSynapse : Option SynapseId) (s : Synapse F) :
    Bool :=
  arrivalSynapse ≠ some s.id && s.state.canCarry &&
    match scope with
    | .weighted minSynapseWeight => decide (minSynapseWeight ≤ s.weight)
    | _ => true

def selectSynapses (synapses : List (Synapse F)) (scope : PropagationScope F)
    (signalType : String) (arrivalSynapse : Option SynapseId) (config : PropagationConfig F)
    (learning : LearningConfig F) (nowNs : ℕ) (rng : Rng) : List (Chosen F) × Rng :=
  let eligible := synapses.filter (isEligible scope arrivalSynapse)
  let score (s : Synapse F) := scoreSynapse s signalType nowNs config.scoring
  let scores := eligible.map score
  let sampled (k : ℕ) : List (Chosen F) × Rng :=
    let (selections, rng) := samplePaths scores k config.exploration learning rng
    (selections.filterMap fun sel =>
      eligible[sel.index]?.map fun s =>
        { synapse := s, score := sel.score, explored := sel.explored }, rng)
  if eligible.isEmpty then ([], rng)
  else
    match scope with
    | .targeted destination =>
      -- A direct synapse to the destination is not a routing guess.
      match eligible.find? fun s => s.remoteNode = destination with
      | some direct => ([{ synapse := direct, score := score direct, explored := false }], rng)
      | none => sampled 1
    | .flood _ =>
      (sortBy (fun a b => Scalar.partialCmp b.score a.score)
        (eligible.map fun s => { synapse := s, score := score s, explored := false }), rng)
    | .weighted _ | .gradient _ => sampled config.maxFanout

def checkPropagable (signal : Signal F) (localNode : NodeId) (config : PropagationConfig F) :
    Except RejectReason Unit :=
  if signal.ttl = 0 then .error .ttlExhausted
  else if signal.hasVisited localNode then .error .noRoute
  else if signal.weight < config.minPropagationWeight then .error .belowThreshold
  else .ok ()

structure HeaderClamp where
  weightClamped : Bool
  ttlClamped : Bool
  deriving DecidableEq, Repr

/-- Enforce this node's own bounds on the header fields that no signature covers. -/
def clampInboundHeaders (signal : Signal F) (config : PropagationConfig F) :
    HeaderClamp × Signal F :=
  let weightOut := decide (signal.weight < 0 ∨ 1 < signal.weight)
  let ttlOver := decide (config.maxAcceptedTtl < signal.ttl)
  (⟨weightOut, ttlOver⟩, { signal with
    weight := if weightOut then Scalar.clamp signal.weight 0 1 else signal.weight
    ttl := if ttlOver then config.maxAcceptedTtl else signal.ttl })

omit [Scalar F] in
def floodDepthReached (signal : Signal F) : Bool :=
  match signal.scope with
  | .flood maxHops => decide (maxHops ≤ signal.trace.length)
  | _ => false

end OpenNtl
