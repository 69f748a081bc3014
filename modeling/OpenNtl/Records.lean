import OpenNtl.Signal

/-! # What a node persists: synapse, peer, activation and journal records -/
namespace OpenNtl

structure SynapseId where
  text : String
  deriving DecidableEq, Repr

inductive SynapseState where
  | forming | active | weakening | dormant | pruned
  deriving DecidableEq, Repr

/-- Whether a synapse in this state may be chosen to carry a signal. -/
def SynapseState.canCarry : SynapseState → Bool
  | .active | .weakening => true
  | _ => false

structure SynapseRecord (F : Type) where
  id : SynapseId
  peer : NodeId
  weight : F
  attenuationFactor : F
  state : SynapseState
  typeAffinity : HashMap String ℕ
  establishedAtNs : ℕ
  lastActiveNs : ℕ
  signalsTransmitted : ℕ
  signalsReceived : ℕ
  avgLatencyNs : ℕ
  errorRate : F
  signatureFailures : ℕ
  failureWindowStartNs : ℕ

structure SynapseFilter (F : Type) where
  /-- Empty means any state. -/
  states : List SynapseState := []
  minWeight : Option F := none
  lastActiveBeforeNs : Option ℕ := none
  limit : Option ℕ := none

def SynapseFilter.eligible {F : Type} : SynapseFilter F := { states := [.active, .weakening] }

inductive PeerSource where
  | configured | bootstrap | discovered | observed
  deriving DecidableEq, Repr

structure PeerRecord where
  id : NodeId
  addresses : List String
  region : Option String
  advertisedTypes : List String
  lastSeenNs : ℕ
  source : PeerSource
  deriving DecidableEq, Repr

structure ActivationSnapshot (F : Type) where
  potential : F
  threshold : F
  refractoryUntilNs : ℕ
  signalsFired : ℕ
  takenAtNs : ℕ

structure JournalId where
  id : ℕ
  deriving DecidableEq, Repr

inductive Outcome where
  | pending | delivered | rejected | timedOut | transportFailure | signatureFailure
  deriving DecidableEq, Repr

namespace Outcome

def reward {F : Type} [Scalar F] : Outcome → F
  | .delivered => Scalar.lit 1
  | .pending => Scalar.lit 0
  | .timedOut => Scalar.lit (-1 / 4)
  | .rejected => Scalar.lit (-1 / 2)
  | .transportFailure => Scalar.lit (-1 / 2)
  | .signatureFailure => Scalar.lit (-1)

def isResolved : Outcome → Bool
  | .pending => false
  | _ => true

theorem isResolved_iff {o : Outcome} : o.isResolved = true ↔ o ≠ .pending := by
  cases o <;> simp [isResolved]

@[simp] theorem isResolved_eq_false {o : Outcome} : o.isResolved = false ↔ o = .pending := by
  cases o <;> simp [isResolved]

end Outcome

def Receipt.outcome (r : Receipt) : Outcome :=
  match r.status with
  | .delivered => .delivered
  | .rejected _ => .rejected

theorem Receipt.outcome_isResolved (r : Receipt) : r.outcome.isResolved = true := by
  unfold Receipt.outcome
  cases r.status <;> rfl

structure JournalEntry (F : Type) where
  /-- Assigned by the store on append. -/
  id : Option JournalId
  signal : SignalId
  signalType : SignalType
  synapse : SynapseId
  peer : NodeId
  score : F
  signalWeight : F
  explored : Bool
  decidedAtNs : ℕ
  outcome : Outcome
  resolvedAtNs : Option ℕ

inductive StoreError where
  | unavailable (reason : String)
  | migration (version : ℕ) (reason : String)
  | corrupt (table reason : String)
  | write (reason : String)
  | unsupported (what : String)
  deriving DecidableEq, Repr

def StoreError.display : StoreError → String
  | .unavailable r => "storage backend unavailable: " ++ r
  | .migration v r => "migration failed at version " ++ toString v ++ ": " ++ r
  | .corrupt t r => "corrupt record in " ++ t ++ ": " ++ r
  | .write r => "write failed: " ++ r
  | .unsupported w => "operation not supported by this backend: " ++ w

end OpenNtl
