import OpenNtl.Copies
import OpenNtl.FrameStream

/-! # What an origin signature covers

Everything of a signal but its signature, trace, hops and weight: what changes in transit is
exactly what the signature leaves out.
-/
namespace OpenNtl

variable {ι F : Type}

namespace Signal

/-- The signals agree on every field but `signature`, `trace`, `ttl` and `weight`. -/
structure SameBody (s t : Signal F) : Prop where
  id : s.id = t.id
  signalType : s.signalType = t.signalType
  version : s.version = t.version
  origin : s.origin = t.origin
  timestamp : s.timestamp = t.timestamp
  payload : s.payload = t.payload
  encoding : s.encoding = t.encoding
  scope : s.scope = t.scope
  correlationId : s.correlationId = t.correlationId
  tags : s.tags = t.tags
  delivery : s.delivery = t.delivery

variable [Scalar F]

theorem unsigned_eq_iff {s t : Signal F} : s.unsigned = t.unsigned ↔ s.SameBody t := by
  constructor
  · intro same
    constructor
    · exact (congrArg Signal.id same :)
    · exact (congrArg Signal.signalType same :)
    · exact (congrArg Signal.version same :)
    · exact (congrArg Signal.origin same :)
    · exact (congrArg Signal.timestamp same :)
    · exact (congrArg Signal.payload same :)
    · exact (congrArg Signal.encoding same :)
    · exact (congrArg Signal.scope same :)
    · exact (congrArg Signal.correlationId same :)
    · exact (congrArg Signal.tags same :)
    · exact (congrArg Signal.delivery same :)
  · rintro ⟨id, signalType, version, origin, timestamp, payload, encoding, scope, correlationId,
      tags, delivery⟩
    unfold unsigned
    rw [id, signalType, version, origin, timestamp, payload, encoding, scope, correlationId, tags,
      delivery]

inductive Mutation (F : Type) where
  | hop (nodeId : NodeId)
  | attenuate (factor : F)
  | attenuateForHop (factor minPropagationWeight : F)
  | clampInboundHeaders (config : PropagationConfig F)

def mutate (s : Signal F) : Mutation F → Signal F
  | .hop nodeId => s.hop nodeId
  | .attenuate factor => s.attenuate factor
  | .attenuateForHop factor minPropagationWeight => s.attenuateForHop factor minPropagationWeight
  | .clampInboundHeaders config => (OpenNtl.clampInboundHeaders s config).2

def transit (s : Signal F) (mutations : List (Mutation F)) : Signal F := mutations.foldl mutate s

theorem mutate_keeps (s : Signal F) (mutation : Mutation F) :
    (s.mutate mutation).unsigned = s.unsigned ∧ (s.mutate mutation).signature = s.signature := by
  cases mutation with
  | hop nodeId => exact ⟨rfl, rfl⟩
  | attenuate factor => exact ⟨rfl, rfl⟩
  | attenuateForHop factor minPropagationWeight => exact ⟨rfl, rfl⟩
  | clampInboundHeaders config => exact ⟨rfl, rfl⟩

theorem transit_keeps (s : Signal F) (mutations : List (Mutation F)) :
    (s.transit mutations).unsigned = s.unsigned ∧
      (s.transit mutations).signature = s.signature := by
  induction mutations generalizing s with
  | nil => exact ⟨rfl, rfl⟩
  | cons mutation rest ih =>
    obtain ⟨body, signature⟩ := ih (s.mutate mutation)
    obtain ⟨body', signature'⟩ := s.mutate_keeps mutation
    exact ⟨body.trans body', signature.trans signature'⟩

end Signal

variable [Scalar F]

theorem Crypto.verifySignal_congr (c : Crypto F) {s t : Signal F} (body : s.unsigned = t.unsigned)
    (signature : s.signature = t.signature) (key : Bytes) :
    c.verifySignal s key = c.verifySignal t key := by
  unfold Crypto.verifySignal Crypto.signingBytes
  rw [body, signature]

/-- Every copy in a network carries the signature of its origin over the same body. -/
theorem Network.Lineage.keeps {net : Network ι F} {origin : ι} {s₀ : Signal F} {senders : List ι}
    {c : Copy ι F} (lineage : net.Lineage origin s₀ senders c) :
    c.Carries fun s => s.unsigned = s₀.unsigned ∧ s.signature = s₀.signature :=
  lineage.holds (P := fun _ s => s.unsigned = s₀.unsigned ∧ s.signature = s₀.signature) ⟨rfl, rfl⟩
    (fun _ _ _ _ _ same => same) fun _ _ _ same => same

/-- What is signed of a signal stays the same in transit, so that it verifies wherever it verified
at first, and two signals are signed alike if and only if their bodies agree. -/
structure Crypto.CoversBody (c : Crypto F) : Prop where
  transit : ∀ (s : Signal F) mutations,
    c.signingBytes (s.transit mutations) = c.signingBytes s
  verifies : ∀ (s : Signal F) mutations key,
    c.verifySignal (s.transit mutations) key = c.verifySignal s key
  onward : ∀ {ι : Type} (net : Network ι F) origin s₀ senders copy,
    net.Lineage origin s₀ senders copy →
      copy.Carries fun s => ∀ key, c.verifySignal s key = c.verifySignal s₀ key
  exact : ∀ (s t : Signal F) bytes, c.signingBytes s = .ok bytes →
    (c.signingBytes t = .ok bytes ↔ s.SameBody t)
  alike : ∀ s t : Signal F, s.SameBody t → c.signingBytes s = c.signingBytes t

theorem signature_covers_body (c : Crypto F)
    (injective : ∀ x y bytes, c.toVec x = .ok bytes → c.toVec y = .ok bytes → x = y) :
    c.CoversBody := by
  have alike : ∀ s t : Signal F, s.SameBody t → c.signingBytes s = c.signingBytes t := by
    intro s t same
    unfold Crypto.signingBytes
    rw [Signal.unsigned_eq_iff.mpr same]
  constructor
  · intro s mutations
    exact congrArg c.toVec (s.transit_keeps mutations).1
  · intro s mutations key
    obtain ⟨body, signature⟩ := s.transit_keeps mutations
    exact c.verifySignal_congr body signature key
  · intro ι net origin s₀ senders copy lineage
    have kept := lineage.keeps
    cases copy with
    | frame i peer s => exact fun key => c.verifySignal_congr kept.1 kept.2 key
    | hand i s => exact fun key => c.verifySignal_congr kept.1 kept.2 key
    | body i s => exact fun key => c.verifySignal_congr kept.1 kept.2 key
    | duty => trivial
  · intro s t bytes encoded
    constructor
    · intro encoded'
      exact Signal.unsigned_eq_iff.mp (injective _ _ bytes encoded encoded')
    · intro same
      rw [← alike s t same]
      exact encoded
  · exact alike

def bareCrypto : Crypto ℚ := { plainCrypto with toVec := bareCbor.toVec }

theorem bare_signature_covers_body :
    bareCrypto.CoversBody ∧
      (bareCrypto.signSignal { bare ⟨7⟩ with ttl := 5, weight := 1 } [0]).toOption.any fun s =>
        (bareCrypto.verifySignal s [0]).toOption = some true ∧
        (bareCrypto.verifySignal (s.transit [.hop ⟨[1]⟩, .attenuate (1 / 2), .hop ⟨[2]⟩])
          [0]).toOption = some true := by
  refine ⟨signature_covers_body bareCrypto ?_, by decide +kernel⟩
  intro x y bytes encoded encoded'
  exact bareCbor_lawful.injective encoded encoded'

end OpenNtl
