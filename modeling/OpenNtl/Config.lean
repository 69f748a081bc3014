import OpenNtl.Node

/-! # The check of a whole configuration -/
namespace OpenNtl

/-- The retry policy, of which the check reads the deadline only. -/
structure RetryPolicy where
  totalDeadlineSecs : ℕ
  deriving DecidableEq, Repr

def RetryPolicy.requiredDedupSecs (p : RetryPolicy) : ℕ := p.totalDeadlineSecs

/-- A configuration, with the fields that only its check reads. -/
structure NodeSettings (F : Type) extends NodeConfig F where
  defaultTtl : ℕ
  retry : RetryPolicy
  cryptoModule : String

inductive PropagationConfigError (F : Type) where
  | maxFanout
  | defaultTtl
  | minPropagationWeight (got : F)
  | attenuationFactor (got : F)
  | dedupCacheSeconds (got deadline : ℕ)

inductive NodeConfigError (F : Type) where
  | activation (e : ActivationConfigError F)
  | learning (e : LearningConfigError F)
  | propagation (e : PropagationConfigError F)
  | cryptoModule (got : String) (supported : List String)
  | synapseMaxWeight (got max : F)

section Messages

variable {F : Type} (display : F → String)

def PropagationConfigError.message : PropagationConfigError F → String
  | .maxFanout => "max_fanout must be at least 1"
  | .defaultTtl => "default_ttl must be at least 1"
  | .minPropagationWeight got => "min_propagation_weight must be in [0, 1), got " ++ display got
  | .attenuationFactor got => "attenuation_factor must be in [0, 1], got " ++ display got
  | .dedupCacheSeconds got deadline =>
    "dedup_cache_seconds (" ++ toString got ++ ") must be at least the sender retry deadline (" ++
      toString deadline ++ "s), or a late retry is processed as a new signal"

def NodeConfigError.message : NodeConfigError F → String
  | .activation e => e.message display
  | .learning e => e.message display
  | .propagation e => e.message display
  | .cryptoModule got supported =>
    if supported.isEmpty then
      "crypto_module is " ++ got.quote ++ ", but this build has no crypto module compiled in. " ++
        "Enable the `classical-crypto` feature."
    else
      "crypto_module " ++ got.quote ++ " is not supported by this build. Supported: " ++
        ", ".intercalate supported ++ "."
  | .synapseMaxWeight got max =>
    "synapse.max_weight (" ++ display got ++ ") exceeds learning.max_weight (" ++ display max ++ ")"

end Messages

variable {F : Type} [Scalar F]

def PropagationConfig.validate (c : PropagationConfig F) (defaultTtl retryDeadlineSecs : ℕ) :
    Except (PropagationConfigError F) Unit :=
  if c.maxFanout = 0 then .error .maxFanout
  else if defaultTtl = 0 then .error .defaultTtl
  else if ¬ (0 ≤ c.minPropagationWeight ∧ c.minPropagationWeight < 1) then
    .error (.minPropagationWeight c.minPropagationWeight)
  else if ¬ (0 ≤ c.attenuationFactor ∧ c.attenuationFactor ≤ 1) then
    .error (.attenuationFactor c.attenuationFactor)
  else if c.dedupCacheSeconds < retryDeadlineSecs then
    .error (.dedupCacheSeconds c.dedupCacheSeconds retryDeadlineSecs)
  else .ok ()

namespace NodeSettings

/-- Validate the whole configuration, for a build that supports these crypto modules. -/
def validate (c : NodeSettings F) (supportedModules : List String) :
    Except (NodeConfigError F) Unit := do
  c.activation.validate.mapError .activation
  c.learning.validate.mapError .learning
  (c.propagation.validate c.defaultTtl c.retry.requiredDedupSecs).mapError .propagation
  if c.cryptoModule ∉ supportedModules then
    throw (.cryptoModule c.cryptoModule supportedModules)
  if c.learning.maxWeight < c.synapse.maxWeight then
    throw (.synapseMaxWeight c.synapse.maxWeight c.learning.maxWeight)

def forClass (deployment : DeploymentClass) : NodeSettings F where
  toNodeConfig := .forClass deployment
  defaultTtl := 10
  retry := ⟨300⟩
  cryptoModule := "classical-v1"

/-- What the check of a configuration promises. -/
structure Checked (c : NodeSettings F) (supportedModules : List String) : Prop where
  activation : c.activation.validate = .ok ()
  learning : c.learning.validate = .ok ()
  propagation : c.propagation.validate c.defaultTtl c.retry.requiredDedupSecs = .ok ()
  cryptoModule : c.cryptoModule ∈ supportedModules
  synapseMaxWeight : ¬ c.learning.maxWeight < c.synapse.maxWeight

theorem validate_iff (c : NodeSettings F) (supportedModules : List String) :
    c.validate supportedModules = .ok () ↔ c.Checked supportedModules := by
  have checked : c.Checked supportedModules ↔
      c.activation.validate = .ok () ∧ c.learning.validate = .ok () ∧
        c.propagation.validate c.defaultTtl c.retry.requiredDedupSecs = .ok () ∧
        c.cryptoModule ∈ supportedModules ∧ ¬ c.learning.maxWeight < c.synapse.maxWeight :=
    ⟨fun h => ⟨h.1, h.2, h.3, h.4, h.5⟩, fun ⟨a, l, p, m, w⟩ => ⟨a, l, p, m, w⟩⟩
  rw [checked]
  unfold validate
  cases c.activation.validate with
  | error e => simp [Except.mapError, bind, Except.bind]
  | ok _ =>
    cases c.learning.validate with
    | error e => simp [Except.mapError, bind, Except.bind]
    | ok _ =>
      cases c.propagation.validate c.defaultTtl c.retry.requiredDedupSecs with
      | error e => simp [Except.mapError, bind, Except.bind]
      | ok _ =>
        by_cases supported : c.cryptoModule ∈ supportedModules
        · by_cases high : c.learning.maxWeight < c.synapse.maxWeight
          · simp [Except.mapError, bind, Except.bind, supported, high, throw, throwThe,
              MonadExceptOf.throw]
          · simp [Except.mapError, bind, Except.bind, supported, high, pure, Except.pure]
        · simp [Except.mapError, bind, Except.bind, supported, throw, throwThe,
            MonadExceptOf.throw]

theorem validate_forClass (deployment : DeploymentClass) :
    (forClass (F := ℚ) deployment).validate ["classical-v1"] = .ok () := by
  rw [validate_iff]
  constructor
  · cases deployment <;> exact ActivationConfig.validate_forClass _
  · cases deployment <;> norm_num [forClass, NodeConfig.forClass, LearningConfig.forClass,
      LearningConfig.validate, Scalar.lit]
  · cases deployment <;> norm_num [forClass, NodeConfig.forClass, PropagationConfig.default,
      PropagationConfig.validate, RetryPolicy.requiredDedupSecs, Scalar.lit]
  · simp [forClass]
  · cases deployment <;> norm_num [forClass, NodeConfig.forClass, LearningConfig.forClass,
      SynapseConfig.default, Scalar.lit]

end NodeSettings
end OpenNtl
