import OpenNtl.Scalar
import OpenNtl.Collections

/-! # Signals, delivery classes and receipts -/
namespace OpenNtl

abbrev Bytes := List UInt8

/-- A node identifier, derived from the node's public key. -/
structure NodeId where
  bytes : Bytes
  deriving DecidableEq, Repr

def hexByte (b : UInt8) : String :=
  String.ofList [Nat.digitChar (b.toNat / 16), Nat.digitChar (b.toNat % 16)]

def NodeId.display (n : NodeId) : String :=
  "ntl:" ++ String.join ((n.bytes.take 8).map hexByte) ++ "..."

/-- `Ulid::from_parts`: 48 bits of time over 80 bits of randomness. -/
def ulidFromParts (timestampMs randomness : ℕ) : BitVec 128 :=
  BitVec.ofNat 128 ((timestampMs % 2 ^ 48) * 2 ^ 80 + randomness % 2 ^ 80)

def crockford : List Char := "0123456789ABCDEFGHJKMNPQRSTVWXYZ".toList

/-- The 26 Crockford base-32 digits of a ULID, most significant first. -/
def ulidToString (u : BitVec 128) : String :=
  String.ofList ((List.range 26).map fun i => crockford.getD (u.toNat / 32 ^ (25 - i) % 32) '0')

structure SignalId where
  ulid : BitVec 128
  deriving DecidableEq, Repr

instance : LT SignalId := ⟨fun a b => a.ulid < b.ulid⟩
instance : DecidableLT SignalId := fun a b => inferInstanceAs (Decidable (a.ulid < b.ulid))

def SignalId.generate (nowNs high low : ℕ) : SignalId :=
  ⟨ulidFromParts (nowNs / 1000000) (high * 2 ^ 64 + low)⟩

def SignalId.cmp (a b : SignalId) : Ordering := if a < b then .lt else if b < a then .gt else .eq

theorem SignalId.lt_iff {a b : SignalId} : a < b ↔ a.ulid.toNat < b.ulid.toNat := BitVec.lt_def

theorem SignalId.isLE_cmp {a b : SignalId} : (a.cmp b).isLE = true ↔ ¬ b < a := by
  unfold SignalId.cmp
  split_ifs with less more
  · rw [SignalId.lt_iff] at less ⊢
    simp only [Ordering.isLE_lt, true_iff]
    omega
  · simpa using more
  · simpa using more

theorem SignalId.cmp_trans : Std.TransCmp SignalId.cmp where
  eq_swap {a b} := by
    unfold SignalId.cmp
    split_ifs with less more more
    · rw [SignalId.lt_iff] at less more
      omega
    · rfl
    · rfl
    · rfl
  isLE_trans {a b c} := by
    intro h h'
    rw [SignalId.isLE_cmp, SignalId.lt_iff] at h h' ⊢
    omega

inductive SignalType where
  | data | query | event | command | heartbeat | discovery | receipt
  | custom (name : String)
  deriving DecidableEq, Repr

def SignalType.canBeAcknowledged : SignalType → Bool
  | .receipt => false
  | _ => true

/-- The affinity key of a signal type: its debug form, or the application's own name. -/
def signalTypeNameOf : SignalType → String
  | .data => "Data"
  | .query => "Query"
  | .event => "Event"
  | .command => "Command"
  | .heartbeat => "Heartbeat"
  | .discovery => "Discovery"
  | .receipt => "Receipt"
  | .custom name => name

inductive DeliveryClass where
  | bestEffort
  | acknowledged
  deriving DecidableEq, Repr

/-- Whether a node must report failure rather than dropping silently. -/
def DeliveryClass.requiresReceipt : DeliveryClass → Bool
  | .acknowledged => true
  | .bestEffort => false

inductive RejectReason where
  | belowThreshold | ttlExhausted | noRoute | transportFailure | queueFull | unsupportedType
  | refused
  deriving DecidableEq, Repr

def RejectReason.isTransient : RejectReason → Bool
  | .noRoute | .queueFull | .belowThreshold | .transportFailure => true
  | .ttlExhausted | .unsupportedType | .refused => false

inductive ReceiptStatus where
  | delivered
  | rejected (reason : RejectReason)
  deriving DecidableEq, Repr

structure Receipt where
  correlationId : SignalId
  status : ReceiptStatus
  hops : ℕ
  deriving DecidableEq, Repr

namespace Receipt

def delivered (correlationId : SignalId) (hops : ℕ) : Receipt := ⟨correlationId, .delivered, hops⟩

def rejected (correlationId : SignalId) (reason : RejectReason) (hops : ℕ) : Receipt :=
  ⟨correlationId, .rejected reason, hops⟩

def isDelivered (r : Receipt) : Bool := r.status = .delivered

end Receipt

inductive Value where
  | null
  | bool (b : Bool)
  | number (n : ℤ)
  /-- A number that is not an integer, by the bits of its `f64`. -/
  | float (bits : BitVec 64)
  | string (s : String)
  | array (xs : List Value)
  | object (fields : List (String × Value))

def Value.get : Value → String → Option Value
  | .object fields, field => fields.lookup field
  | _, _ => none

def Value.toByte? : Value → Option UInt8
  | .number n => if 0 ≤ n ∧ n < 256 then some (UInt8.ofNat n.toNat) else none
  | _ => none

def Value.toBytes? : Value → Option Bytes
  | .array xs => xs.mapM Value.toByte?
  | _ => none

def Value.ofBytes (bs : Bytes) : Value := .array (bs.map fun b => .number b.toNat)

@[simp] theorem Value.toBytes_ofBytes (bs : Bytes) : (Value.ofBytes bs).toBytes? = some bs := by
  have byte : ∀ b : UInt8, Value.toByte? (.number b.toNat) = some b := by
    intro b
    have := b.toNat_lt
    simp only [Value.toByte?]
    rw [if_pos (by omega)]
    simp
  simp only [Value.ofBytes, Value.toBytes?]
  induction bs with
  | nil => rfl
  | cons b bs ih => simp [byte, ih]

variable (F : Type)

inductive PropagationScope where
  | flood (maxHops : ℕ)
  | weighted (minSynapseWeight : F)
  | targeted (destination : NodeId)
  | gradient (signalType : String)
  deriving DecidableEq, Repr

inductive Encoding where
  | cbor | protobuf | raw
  deriving DecidableEq, Repr

structure Signal where
  id : SignalId
  signalType : SignalType
  version : ℕ
  origin : NodeId
  signature : Bytes
  timestamp : ℕ
  payload : Value
  encoding : Encoding
  weight : F
  /-- Time to live in hops. -/
  ttl : ℕ
  scope : PropagationScope F
  correlationId : Option SignalId
  /-- The nodes this signal has traversed, in order. -/
  trace : List NodeId
  tags : List String
  delivery : DeliveryClass

variable {F}

namespace Signal

variable [Scalar F]

/-- Decrement the TTL and add a node to the trace, which holds 64 entries at most. -/
def hop (s : Signal F) (nodeId : NodeId) : Signal F :=
  { s with
    ttl := s.ttl - 1
    trace := if s.trace.length < 64 then s.trace ++ [nodeId] else s.trace }

def attenuate (s : Signal F) (factor : F) : Signal F :=
  { s with weight := Scalar.clamp (s.weight * factor) 0 1 }

def hasVisited (s : Signal F) (nodeId : NodeId) : Bool := s.trace.contains nodeId

def requiresReceipt (s : Signal F) : Bool := s.delivery.requiresReceipt

def hops (s : Signal F) : ℕ := asU16 s.trace.length

/-- Attenuate for a hop. An acknowledged signal stays at the floor while TTL remains. -/
def attenuateForHop (s : Signal F) (factor minPropagationWeight : F) : Signal F :=
  let attenuated := s.weight * factor
  let floored := if s.requiresReceipt ∧ 0 < s.ttl then max attenuated minPropagationWeight
    else attenuated
  { s with weight := Scalar.clamp floored 0 1 }

/-- What an origin signature covers: everything but the four fields a hop changes. -/
def unsigned (s : Signal F) : Signal F :=
  { s with signature := [], trace := [], ttl := 0, weight := 0 }

end Signal

structure SignalBuilder (F : Type) where
  signalType : SignalType
  topic : String
  payload : Value
  weight : F
  ttl : ℕ
  scope : PropagationScope F
  correlationId : Option SignalId
  tags : List String
  delivery : DeliveryClass

namespace SignalBuilder

variable [Scalar F]

def new (signalType : SignalType) (topic : String) : SignalBuilder F where
  signalType := signalType
  topic := topic
  payload := .null
  weight := Scalar.lit (1 / 2)
  ttl := 10
  scope := .weighted 0
  correlationId := none
  tags := []
  delivery := .bestEffort

def withWeight (b : SignalBuilder F) (weight : F) : SignalBuilder F :=
  { b with weight := Scalar.clamp weight 0 1 }

def acknowledged (b : SignalBuilder F) : SignalBuilder F :=
  if b.signalType.canBeAcknowledged then { b with delivery := .acknowledged } else b

/-- The clock is read twice, for the timestamp and inside `SignalId::generate`; `id` is what
the latter gives. -/
def buildUnsignedWith (b : SignalBuilder F) (origin : NodeId) (now : ℕ) (id : SignalId) :
    Signal F where
  id := id
  signalType := b.signalType
  version := 1
  origin := origin
  signature := []
  timestamp := now
  payload := b.payload
  encoding := .cbor
  weight := b.weight
  ttl := b.ttl
  scope := b.scope
  correlationId := b.correlationId
  trace := []
  tags := if b.topic.isEmpty then b.tags else b.topic :: b.tags
  delivery := b.delivery

end SignalBuilder
end OpenNtl
