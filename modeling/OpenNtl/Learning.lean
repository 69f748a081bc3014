import OpenNtl.Records
import OpenNtl.Rng

/-! # The online routing model: rewards, decay, normalisation and exploration -/
namespace OpenNtl

inductive DeploymentClass where
  | edge | fullNode | highTraffic
  deriving DecidableEq, Repr

structure LearningConfig (F : Type) where
  enabled : Bool
  learningRate : F
  decayHalfLifeHours : F
  explorationTemperature : F
  minTemperature : F
  receiptWindowSecs : ℕ
  minWeight : F
  maxWeight : F
  maxTotalOutboundWeight : F
  influenceCapPerPeer : F
  influenceWindowSecs : ℕ
  signatureFailurePenalty : F
  signatureFailurePruneThreshold : ℕ
  signatureFailureCooldownSecs : ℕ

structure WeightUpdate (F : Type) where
  before : F
  after : F
  /-- The delta actually applied, after clamping and capping. -/
  appliedDelta : F
  capped : Bool

inductive LearningConfigError (F : Type) where
  | learningRate (got : F)
  | decayHalfLifeHours (got : F)
  | minTemperature
  | minWeight (min max : F)
  | maxTotalOutboundWeight (budget max : F)
  | influenceCapPerPeer
  | signatureFailurePenalty (got : F)

def LearningConfigError.message {F : Type} (display : F → String) :
    LearningConfigError F → String
  | .learningRate got => "learning_rate must be in (0, 1], got " ++ display got
  | .decayHalfLifeHours got => "decay_half_life_hours must be positive, got " ++ display got
  | .minTemperature =>
    "min_temperature must be positive: a node that stops exploring stops learning"
  | .minWeight min max =>
    "require 0 < min_weight < max_weight, got " ++ display min ++ " and " ++ display max
  | .maxTotalOutboundWeight budget max =>
    "max_total_outbound_weight (" ++ display budget ++ ") must exceed max_weight (" ++
      display max ++ "), or a single synapse could never reach its bound"
  | .influenceCapPerPeer => "influence_cap_per_peer must be positive"
  | .signatureFailurePenalty got =>
    "signature_failure_penalty must be in (0, 1], got " ++ display got

variable {F : Type} [Scalar F]

namespace LearningConfig

def validate (c : LearningConfig F) : Except (LearningConfigError F) Unit :=
  if ¬ (0 < c.learningRate ∧ c.learningRate ≤ 1) then .error (.learningRate c.learningRate)
  else if c.decayHalfLifeHours ≤ 0 then .error (.decayHalfLifeHours c.decayHalfLifeHours)
  else if c.minTemperature ≤ 0 then .error .minTemperature
  else if c.minWeight ≤ 0 ∨ c.maxWeight ≤ c.minWeight then
    .error (.minWeight c.minWeight c.maxWeight)
  else if c.maxTotalOutboundWeight ≤ c.maxWeight then
    .error (.maxTotalOutboundWeight c.maxTotalOutboundWeight c.maxWeight)
  else if c.influenceCapPerPeer ≤ 0 then .error .influenceCapPerPeer
  else if ¬ (0 < c.signatureFailurePenalty ∧ c.signatureFailurePenalty ≤ 1) then
    .error (.signatureFailurePenalty c.signatureFailurePenalty)
  else .ok ()

theorem of_validate {c : LearningConfig F} (checked : c.validate = .ok ()) :
    0 < c.learningRate ∧ ¬ c.minWeight ≤ 0 ∧ ¬ c.maxWeight ≤ c.minWeight ∧
      ¬ c.maxTotalOutboundWeight ≤ c.maxWeight ∧ 0 < c.signatureFailurePenalty ∧
      c.signatureFailurePenalty ≤ 1 ∧ ¬ c.influenceCapPerPeer ≤ 0 := by
  unfold validate at checked
  split_ifs at checked with rate halfLife temperature floor budget cap penalty
  exact ⟨rate.1, fun low => floor (Or.inl low), fun low => floor (Or.inr low), budget,
    penalty.1, penalty.2, cap⟩

def forClass (deployment : DeploymentClass) : LearningConfig F :=
  let (rate, halfLife, temp, minTemp, window, budget, cap) :=
    match deployment with
    | .edge => ((5 / 100, 168, 15 / 100, 2 / 100, 30, 8, 20 / 100) : ℚ × ℚ × ℚ × ℚ × ℕ × ℚ × ℚ)
    | .fullNode => (2 / 100, 72, 10 / 100, 2 / 100, 15, 32, 10 / 100)
    | .highTraffic => (1 / 100, 24, 5 / 100, 1 / 100, 5, 128, 5 / 100)
  { enabled := true
    learningRate := Scalar.lit rate
    decayHalfLifeHours := Scalar.lit halfLife
    explorationTemperature := Scalar.lit temp
    minTemperature := Scalar.lit minTemp
    receiptWindowSecs := window
    minWeight := Scalar.lit (1 / 1000)
    maxWeight := Scalar.lit 1
    maxTotalOutboundWeight := Scalar.lit budget
    influenceCapPerPeer := Scalar.lit cap
    influenceWindowSecs := 3600
    signatureFailurePenalty := Scalar.lit (1 / 2)
    signatureFailurePruneThreshold := 5
    signatureFailureCooldownSecs := 3600 }

def effectiveTemperature (c : LearningConfig F) : F :=
  max c.explorationTemperature c.minTemperature

omit [Scalar F] in
def influenceWindowStart (c : LearningConfig F) (nowNs : ℕ) : ℕ :=
  nowNs - saturatingMul c.influenceWindowSecs nanosPerSec

omit [Scalar F] in
def receiptDeadline (c : LearningConfig F) (nowNs : ℕ) : ℕ :=
  nowNs - saturatingMul c.receiptWindowSecs nanosPerSec

end LearningConfig

/-- The Hebbian update for one resolved decision. The influence cap bounds positive updates
only. -/
def applyReward (weight : F) (outcome : Outcome) (signalWeight peerInfluenceUsed : F)
    (config : LearningConfig F) : WeightUpdate F :=
  let rawDelta := config.learningRate * outcome.reward * Scalar.clamp signalWeight 0 1
  let (delta, capped) :=
    if 0 < rawDelta ∧ config.influenceCapPerPeer ≤ peerInfluenceUsed then ((0 : F), true)
    else if 0 < rawDelta then
      let headroom := config.influenceCapPerPeer - peerInfluenceUsed
      if headroom < rawDelta then (headroom, true) else (rawDelta, false)
    else (rawDelta, false)
  let after := Scalar.clamp (weight + delta) config.minWeight config.maxWeight
  { before := weight, after := after, appliedDelta := after - weight, capped := capped }

def applySignaturePenalty (weight : F) (config : LearningConfig F) : F :=
  max (weight * (1 - config.signatureFailurePenalty)) config.minWeight

def applyAffinityUpdate (affinity : F) (outcome : Outcome) (config : LearningConfig F) : F :=
  Scalar.clamp (affinity + config.learningRate * outcome.reward) 0 1

def nsToHours (ns : ℕ) : F := Scalar.lit (ns / (3600 * nanosPerSec : ℕ))

/-- Decay a weight by half-life from its last activity, down to the weight floor. -/
def decayedWeight (weight : F) (lastActiveNs nowNs : ℕ) (config : LearningConfig F) : F :=
  if nowNs ≤ lastActiveNs then weight
  else
    let elapsedHours : F := nsToHours (nowNs - lastActiveNs)
    let exponent := -elapsedHours / config.decayHalfLifeHours
    max (weight * Scalar.exp2 exponent) config.minWeight

/-- Rescale weights whose total exceeds the outbound budget, and return the factor. -/
def normalizeOutbound (weights : List F) (config : LearningConfig F) : Option (F × List F) :=
  let total := Scalar.sum weights
  if total ≤ config.maxTotalOutboundWeight ∨ total ≤ 0 then none
  else
    let factor := config.maxTotalOutboundWeight / total
    some (factor, weights.map fun w => max (w * factor) config.minWeight)

inductive ExplorationPolicy (F : Type) where
  | softmax
  | epsilonGreedy (epsilon : F)

structure Selection (F : Type) where
  /-- Index into the scores. -/
  index : ℕ
  score : F
  explored : Bool

def argmax (scores : List F) : Option ℕ :=
  (scores.zipIdx.foldl (fun acc (s, i) =>
    match acc with
    | some (j, best) => if s ≤ best then some (j, best) else some (i, s)
    | none => some (i, s)) none).map Prod.fst

/-- The first slot at which the running total reaches `target`, else the last slot. -/
def pickSlot (target : F) : List F → F → ℕ → ℕ
  | [], _, slot => slot - 1
  | w :: ws, acc, slot => if target ≤ acc + w then slot else pickSlot target ws (acc + w) (slot + 1)

/-- One softmax draw: a position in `remaining`, by the distribution or, where it is
degenerate, uniformly. -/
def softmaxPick (scores : List F) (temperature : F) (remaining : List ℕ) (rng : Rng) : ℕ × Rng :=
  let score (i : ℕ) : F := scores.getD i 0
  let maxScore := remaining.tail.foldl (fun m i => max m (score i)) (score (remaining.headD 0))
  let weights := remaining.map fun i => Scalar.exp ((score i - maxScore) / temperature)
  let total := Scalar.sum weights
  if 0 < total ∧ Scalar.isFinite total then
    let (draw, rng) := rng.nextF32 (F := F)
    (pickSlot (draw * total) weights 0 0, rng)
  else
    let (pick, rng) := rng.nextBelow remaining.length
    (pick.getD 0, rng)

/-- Softmax sampling without replacement: `k` draws, each removing what it picks. -/
def softmaxSample (scores : List F) (temperature : F) (best : Option ℕ) :
    ℕ → List ℕ → Rng → List (Selection F) × Rng
  | 0, _, rng => ([], rng)
  | k + 1, remaining, rng =>
    if remaining.isEmpty then ([], rng)
    else
      let (pick, rng) := softmaxPick scores temperature remaining rng
      let index := remaining.getD pick 0
      let (rest, rng) := softmaxSample scores temperature best k (swapRemove remaining pick) rng
      ({ index := index, score := scores.getD index 0, explored := some index ≠ best } :: rest, rng)

/-- Top `k`, where a uniform pick from the rest sometimes replaces the weakest. -/
def epsilonGreedySample (scores : List F) (k : ℕ) (epsilon : F) (rng : Rng) :
    List (Selection F) × Rng :=
  let k := min k scores.length
  let order := sortBy (fun a b => (Scalar.partialCmp (scores.getD b 0) (scores.getD a 0)).then
    (compare a b)) (List.range scores.length)
  let chosen := order.take k
  let (draw, rng) := rng.nextF32 (F := F)
  let (chosen, exploredIndex, rng) :=
    if draw < epsilon ∧ k < order.length then
      let pool := order.drop k
      let (pick, rng) := rng.nextBelow pool.length
      match pick with
      | some pick =>
        let swappedIn := pool.getD pick 0
        (chosen.set (k - 1) swappedIn, some swappedIn, rng)
      | none => (chosen, none, rng)
    else (chosen, none, rng)
  (chosen.map fun index =>
    { index := index, score := scores.getD index 0, explored := some index = exploredIndex }, rng)

/-- Sample up to `k` candidates without replacement, best score first. -/
def samplePaths (scores : List F) (k : ℕ) (policy : ExplorationPolicy F)
    (config : LearningConfig F) (rng : Rng) : List (Selection F) × Rng :=
  if scores.isEmpty ∨ k = 0 then ([], rng)
  else
    let (out, rng) :=
      match policy with
      | .softmax => softmaxSample scores config.effectiveTemperature (argmax scores)
          (min k scores.length) (List.range scores.length) rng
      | .epsilonGreedy epsilon => epsilonGreedySample scores k epsilon rng
    (sortBy (fun a b => Scalar.partialCmp b.score a.score) out, rng)

end OpenNtl
