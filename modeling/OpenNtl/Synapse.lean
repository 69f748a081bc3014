import OpenNtl.Learning

/-! # Synapses and their lifecycle -/
namespace OpenNtl

structure SynapseConfig (F : Type) where
  initialWeight : F
  maxWeight : F
  activeThreshold : F
  dormancyThreshold : F
  maxSynapses : ℕ
  attenuationFactor : F

/-- A live synapse: the persisted record, with the bounds that come from configuration. -/
structure Synapse (F : Type) where
  id : SynapseId
  remoteNode : NodeId
  weight : F
  state : SynapseState
  establishedAtNs : ℕ
  lastActiveNs : ℕ
  signalsTransmitted : ℕ
  signalsReceived : ℕ
  avgLatencyNs : ℕ
  errorRate : F
  maxWeight : F
  activeThreshold : F
  dormancyThreshold : F
  attenuationFactor : F
  signatureFailures : ℕ
  failureWindowStartNs : ℕ
  typeAffinity : HashMap String ℕ

structure SignatureFailureOutcome where
  failuresInWindow : ℕ
  pruned : Bool
  deriving DecidableEq, Repr

variable {F : Type} [Scalar F]

def SynapseConfig.default : SynapseConfig F where
  initialWeight := Scalar.lit (1 / 10)
  maxWeight := Scalar.lit 1
  activeThreshold := Scalar.lit (1 / 10)
  dormancyThreshold := Scalar.lit (1 / 100)
  maxSynapses := 1000
  attenuationFactor := Scalar.lit (9 / 10)

namespace Synapse

def newWith (remote : NodeId) (config : SynapseConfig F) (nowNs : ℕ) (rng : Rng) :
    Synapse F × Rng :=
  let (high, rng) := rng.nextU64
  let (low, rng) := rng.nextU64
  ({ id := ⟨ulidToString (ulidFromParts (nowNs / 1000000) (high * 2 ^ 64 + low))⟩
     remoteNode := remote
     weight := config.initialWeight
     state := .forming
     establishedAtNs := nowNs
     lastActiveNs := nowNs
     signalsTransmitted := 0
     signalsReceived := 0
     avgLatencyNs := 0
     errorRate := 0
     maxWeight := config.maxWeight
     activeThreshold := config.activeThreshold
     dormancyThreshold := config.dormancyThreshold
     attenuationFactor := config.attenuationFactor
     signatureFailures := 0
     failureWindowStartNs := 0
     typeAffinity := ∅ }, rng)

def affinityFor (s : Synapse F) (signalType : String) : F :=
  let total := s.typeAffinity.values.sum
  if total = 0 then 0
  else Scalar.lit ((s.typeAffinity.lookup signalType).getD 0) / Scalar.lit total

/-- State from weight. `Pruned` and `Forming` are not weight-derived and are left alone. -/
def updateState (s : Synapse F) : Synapse F :=
  if s.state = .pruned ∨ s.state = .forming then s
  else if s.activeThreshold ≤ s.weight then { s with state := .active }
  else if s.dormancyThreshold ≤ s.weight then { s with state := .weakening }
  else { s with state := .dormant }

def activate (s : Synapse F) : Synapse F :=
  if s.state = .forming then { s with state := .active } else s

def reactivate (s : Synapse F) (config : SynapseConfig F) : Synapse F :=
  if s.state = .dormant then { s with weight := config.initialWeight, state := .active } else s

def toRecord (s : Synapse F) : SynapseRecord F where
  id := s.id
  peer := s.remoteNode
  weight := s.weight
  attenuationFactor := s.attenuationFactor
  state := s.state
  typeAffinity := s.typeAffinity
  establishedAtNs := s.establishedAtNs
  lastActiveNs := s.lastActiveNs
  signalsTransmitted := s.signalsTransmitted
  signalsReceived := s.signalsReceived
  avgLatencyNs := s.avgLatencyNs
  errorRate := s.errorRate
  signatureFailures := s.signatureFailures
  failureWindowStartNs := s.failureWindowStartNs

def fromRecord (r : SynapseRecord F) (config : SynapseConfig F) : Synapse F where
  id := r.id
  remoteNode := r.peer
  weight := r.weight
  state := r.state
  establishedAtNs := r.establishedAtNs
  lastActiveNs := r.lastActiveNs
  signalsTransmitted := r.signalsTransmitted
  signalsReceived := r.signalsReceived
  avgLatencyNs := r.avgLatencyNs
  errorRate := r.errorRate
  maxWeight := config.maxWeight
  activeThreshold := config.activeThreshold
  dormancyThreshold := config.dormancyThreshold
  attenuationFactor := r.attenuationFactor
  signatureFailures := r.signatureFailures
  failureWindowStartNs := r.failureWindowStartNs
  typeAffinity := r.typeAffinity

def applyOutcome (s : Synapse F) (outcome : Outcome) (signalWeight : F) (signalType : String)
    (peerInfluenceUsed : F) (learning : LearningConfig F) : WeightUpdate F × Synapse F :=
  let update := applyReward s.weight outcome signalWeight peerInfluenceUsed learning
  let affinity := s.affinityFor signalType
  let updated := applyAffinityUpdate affinity outcome learning
  -- Affinity is stored as counts; a positive outcome adds evidence.
  let typeAffinity :=
    if affinity < updated then
      s.typeAffinity.insert signalType ((s.typeAffinity.lookup signalType).getD 0 + 1)
    else s.typeAffinity
  (update, updateState
    { s with weight := min update.after s.maxWeight, typeAffinity := typeAffinity })

/-- Apply the signature-failure penalty. Failures count within one influence window; at the
threshold the synapse is pruned and `last_active_ns` starts the cooldown. -/
def applySignatureFailure (s : Synapse F) (nowNs : ℕ) (learning : LearningConfig F) :
    SignatureFailureOutcome × Synapse F :=
  let windowStart := learning.influenceWindowStart nowNs
  let fresh := s.failureWindowStartNs < windowStart
  let s := { s with
    weight := applySignaturePenalty s.weight learning
    failureWindowStartNs := if fresh then nowNs else s.failureWindowStartNs
    signatureFailures := if fresh then 1 else min (s.signatureFailures + 1) (2 ^ 32 - 1) }
  if learning.signatureFailurePruneThreshold ≤ s.signatureFailures then
    (⟨s.signatureFailures, true⟩, { s with state := .pruned, lastActiveNs := nowNs })
  else (⟨s.signatureFailures, false⟩, s.updateState)

def decayedWeight (s : Synapse F) (nowNs : ℕ) (learning : LearningConfig F) : F :=
  OpenNtl.decayedWeight s.weight s.lastActiveNs nowNs learning

def applyDecay (s : Synapse F) (nowNs : ℕ) (learning : LearningConfig F) : Synapse F :=
  updateState { s with weight := s.decayedWeight nowNs learning }

/-! What an update leaves alone. -/

def penalized (s : Synapse F) (nowNs : ℕ) (learning : LearningConfig F) : Synapse F :=
  let fresh := s.failureWindowStartNs < learning.influenceWindowStart nowNs
  { s with
    weight := applySignaturePenalty s.weight learning
    failureWindowStartNs := if fresh then nowNs else s.failureWindowStartNs
    signatureFailures := if fresh then 1 else min (s.signatureFailures + 1) (2 ^ 32 - 1) }

theorem applySignatureFailure_eq (s : Synapse F) (nowNs : ℕ) (learning : LearningConfig F) :
    s.applySignatureFailure nowNs learning =
      if learning.signatureFailurePruneThreshold ≤ (s.penalized nowNs learning).signatureFailures
      then (⟨(s.penalized nowNs learning).signatureFailures, true⟩,
        { s.penalized nowNs learning with state := .pruned, lastActiveNs := nowNs })
      else (⟨(s.penalized nowNs learning).signatureFailures, false⟩,
        (s.penalized nowNs learning).updateState) := rfl

@[simp] theorem updateState_id (s : Synapse F) : s.updateState.id = s.id := by
  unfold updateState
  split_ifs <;> rfl

@[simp] theorem updateState_remoteNode (s : Synapse F) :
    s.updateState.remoteNode = s.remoteNode := by
  unfold updateState
  split_ifs <;> rfl

@[simp] theorem updateState_weight (s : Synapse F) : s.updateState.weight = s.weight := by
  unfold updateState
  split_ifs <;> rfl

@[simp] theorem updateState_lastActiveNs (s : Synapse F) :
    s.updateState.lastActiveNs = s.lastActiveNs := by
  unfold updateState
  split_ifs <;> rfl

theorem updateState_eq (s : Synapse F) :
    ∃ state, s.updateState = { s with state := state } ∧ (state = .pruned ↔ s.state = .pruned) := by
  unfold updateState
  split_ifs with kept active weakening
  · exact ⟨s.state, rfl, Iff.rfl⟩
  · exact ⟨.active, rfl, by simpa using fun h => kept (Or.inl h)⟩
  · exact ⟨.weakening, rfl, by simpa using fun h => kept (Or.inl h)⟩
  · exact ⟨.dormant, rfl, by simpa using fun h => kept (Or.inl h)⟩

omit [Scalar F] in
@[simp] theorem toRecord_fromRecord (r : SynapseRecord F) (config : SynapseConfig F) :
    (fromRecord r config).toRecord = r := rfl

end Synapse
end OpenNtl
