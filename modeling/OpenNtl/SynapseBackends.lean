import OpenNtl.NodeFrame
import OpenNtl.SqliteStore

/-! # The methods that write synapses, over any backend

The node reaches its store through an interface. The four methods that write synapses are
written here against that interface, one atomic step a call. Over the in-memory store they are
the methods of the node; SQLite's tables are the second backend.
-/
namespace OpenNtl

open AtomicProgram SqlTable NodeM

/-- The calls these methods make. `putFormed` is `put_synapse` of a synapse that is new. -/
structure SynapseBackend (σ F : Type) where
  now : σ → ℕ × σ
  draw : (Rng → Synapse F × Rng) → σ → Synapse F × σ
  synapseForPeer : NodeId → σ → Except StoreError (Option (SynapseRecord F)) × σ
  getSynapse : SynapseId → σ → Except StoreError (Option (SynapseRecord F)) × σ
  /-- `list_synapses` with the default filter. -/
  listSynapses : σ → Except StoreError (List (SynapseRecord F)) × σ
  putSynapse : SynapseRecord F → σ → Except StoreError Unit × σ
  putFormed : SynapseRecord F → σ → Except StoreError Unit × σ
  putPeer : PeerRecord → σ → Except StoreError Unit × σ
  influenceSince : NodeId → ℕ → σ → Except StoreError F × σ
  recordInfluence : NodeId → F → ℕ → ℕ → σ → Except StoreError F × σ

def storeCall {σ α : Type} (f : σ → Except StoreError α × σ) : Prog σ NodeError α := do
  let r ← .act f
  .ofExcept (serialized r)

namespace Node

variable {σ F : Type} [Scalar F] (node : Node F) (B : SynapseBackend σ F)

/-- Register or update the synapse to a peer whose handshake has just completed. -/
def upsertSynapseOn (peer : NodeId) : Prog σ NodeError (SynapseRecord F) := do
  let now ← .act B.now
  let found ← storeCall (B.synapseForPeer peer)
  match found with
  | some existing =>
    if existing.state = .pruned then
      let cooldownNs := saturatingMul node.config.learning.signatureFailureCooldownSecs nanosPerSec
      let cooldownEnd := saturatingAdd existing.lastActiveNs cooldownNs
      if now < cooldownEnd then .throw (.invalidSignal (cooldownMessage peer (cooldownEnd - now)))
      else
        let record := node.reform existing now
        storeCall (B.putSynapse record)
        return record
    else if existing.state = .dormant then
      let record := ((Synapse.fromRecord existing node.config.synapse).reactivate
        node.config.synapse).toRecord
      storeCall (B.putSynapse record)
      return record
    else return existing
  | none =>
    let synapse ← .act (B.draw (Synapse.newWith peer node.config.synapse now))
    let record := synapse.activate.toRecord
    storeCall (B.putFormed record)
    storeCall (B.putPeer
      { id := peer
        addresses := []
        region := none
        advertisedTypes := []
        lastSeenNs := now
        source := .observed })
    return record

/-- Penalise a synapse whose peer presented an unverifiable signature. -/
def penalizeSignatureFailureOn (synapseId : SynapseId) :
    Prog σ NodeError (Option SignatureFailureOutcome) := do
  let now ← .act B.now
  let found ← storeCall (B.getSynapse synapseId)
  match found with
  | none => return none
  | some record =>
    let (outcome, synapse) :=
      (Synapse.fromRecord record node.config.synapse).applySignatureFailure now node.config.learning
    storeCall (B.putSynapse synapse.toRecord)
    return some outcome

def normalizeOutboundWeightsOn : Prog σ NodeError (Option F) := do
  let records ← storeCall B.listSynapses
  if records.isEmpty then return none
  else
    match normalizeOutbound (records.map SynapseRecord.weight) node.config.learning with
    | none => return none
    | some (factor, weights) => do
      (records.zip weights).forM fun (r, w) => storeCall (B.putSynapse { r with weight := w })
      return some factor

/-- Weigh an outcome into its synapse, within the influence cap, and renormalise. -/
def updateSynapseOn (entry : JournalEntry F) (outcome : Outcome) (nowNs : ℕ) :
    Prog σ NodeError (WeightUpdate F) := do
  let windowStart := node.config.learning.influenceWindowStart nowNs
  let influenceUsed ← storeCall (B.influenceSince entry.peer windowStart)
  let found ← storeCall (B.getSynapse entry.synapse)
  match found with
  | none => return { before := 0, after := 0, appliedDelta := 0, capped := false }
  | some record => do
    let (update, synapse) := (Synapse.fromRecord record node.config.synapse).applyOutcome outcome
      (Scalar.clamp entry.signalWeight 0 1) (signalTypeNameOf entry.signalType) influenceUsed
      node.config.learning
    if Charged update then
      let _ ← storeCall (B.recordInfluence entry.peer update.appliedDelta nowNs windowStart)
    storeCall (B.putSynapse { synapse with lastActiveNs := nowNs }.toRecord)
    let _ ← node.normalizeOutboundWeightsOn B
    return update

end Node

section Memory

variable {F : Type} [Scalar F]

def memoryCall {α : Type} (op : MemoryStore F → α × MemoryStore F) (s : NodeState F) :
    Except StoreError α × NodeState F :=
  match nextFault s with
  | some e => (.error e, { s with faults := s.faults.tail })
  | none => (.ok (op s.store).1, { s with store := (op s.store).2, faults := s.faults.tail })

def memoryBackend : SynapseBackend (NodeState F) F where
  now s := (s.clock, s)
  draw f s := ((f s.rng).1, { s with rng := (f s.rng).2 })
  synapseForPeer peer := memoryCall fun st => (st.synapseForPeer peer, st)
  getSynapse id := memoryCall fun st => (st.getSynapse id, st)
  listSynapses := memoryCall fun st => (st.listSynapses {}, st)
  putSynapse r := memoryCall fun st => ((), st.putSynapse r)
  putFormed r := memoryCall fun st => ((), st.putSynapse r)
  putPeer r := memoryCall fun st => ((), st.putPeer r)
  influenceSince peer start := memoryCall fun st => (st.influenceSince peer start, st)
  recordInfluence peer magnitude now start := memoryCall fun st =>
    st.recordInfluence peer magnitude now start

namespace Node

variable (node : Node F)

theorem upsertSynapseOn_memory (peer : NodeId) :
    node.upsertSynapseOn memoryBackend peer = node.upsertSynapse peer := rfl

theorem penalizeSignatureFailureOn_memory (id : SynapseId) :
    node.penalizeSignatureFailureOn memoryBackend id = node.penalizeSignatureFailure id := rfl

theorem normalizeOutboundWeightsOn_memory :
    node.normalizeOutboundWeightsOn memoryBackend = node.normalizeOutboundWeights := rfl

theorem updateSynapseOn_memory (entry : JournalEntry F) (outcome : Outcome) (nowNs : ℕ) :
    node.updateSynapseOn memoryBackend entry outcome nowNs =
      node.updateSynapse entry outcome nowNs := rfl

end Node

end Memory

section Sqlite

variable {F : Type}

def stateToStr : SynapseState → String
  | .forming => "forming"
  | .active => "active"
  | .weakening => "weakening"
  | .dormant => "dormant"
  | .pruned => "pruned"

def stateFromStr : String → Except StoreError SynapseState
  | "forming" => .ok .forming
  | "active" => .ok .active
  | "weakening" => .ok .weakening
  | "dormant" => .ok .dormant
  | "pruned" => .ok .pruned
  | other => .error (corrupt "synapses" ("unknown state " ++ other.quote))

def sourceToStr : PeerSource → String
  | .configured => "configured"
  | .bootstrap => "bootstrap"
  | .discovered => "discovered"
  | .observed => "observed"

/-- A row of the `synapses` table. The affinity counts are JSON text, kept as they are. -/
structure SynapseRow (F : Type) where
  id : String
  peer : NodeId
  weight : F
  attenuationFactor : F
  state : String
  typeAffinity : HashMap String ℕ
  establishedAtNs : ℤ
  lastActiveNs : ℤ
  signalsTransmitted : ℤ
  signalsReceived : ℤ
  avgLatencyNs : ℤ
  errorRate : F
  signatureFailures : ℤ
  failureWindowStartNs : ℤ

/-- A row of the `peers` table, with its two JSON columns kept as they are. -/
structure PeerRow where
  id : NodeId
  addresses : List String
  region : Option String
  advertisedTypes : List String
  lastSeenNs : ℤ
  source : String

structure InfluenceRow (F : Type) where
  peer : NodeId
  magnitude : F
  atNs : ℤ

/-- The tables these methods use, beside the clock and the random source of their node. -/
structure SqliteNode (F : Type) where
  synapses : HashMap SynapseId (SynapseRow F)
  peers : HashMap NodeId PeerRow
  influence : List (InfluenceRow F)
  rng : Rng
  clock : ℕ

def synapseRow (r : SynapseRecord F) : SynapseRow F where
  id := r.id.text
  peer := r.peer
  weight := r.weight
  attenuationFactor := r.attenuationFactor
  state := stateToStr r.state
  typeAffinity := r.typeAffinity
  establishedAtNs := toI64 r.establishedAtNs
  lastActiveNs := toI64 r.lastActiveNs
  signalsTransmitted := toI64 r.signalsTransmitted
  signalsReceived := toI64 r.signalsReceived
  avgLatencyNs := toI64 r.avgLatencyNs
  errorRate := r.errorRate
  signatureFailures := r.signatureFailures
  failureWindowStartNs := toI64 r.failureWindowStartNs

def peerRow (r : PeerRecord) : PeerRow where
  id := r.id
  addresses := r.addresses
  region := r.region
  advertisedTypes := r.advertisedTypes
  lastSeenNs := toI64 r.lastSeenNs
  source := sourceToStr r.source

def rowToSynapse (row : SynapseRow F) : Except StoreError (SynapseRecord F) := do
  let state ← stateFromStr row.state
  return {
    id := ⟨row.id⟩
    peer := row.peer
    weight := row.weight
    attenuationFactor := row.attenuationFactor
    state := state
    typeAffinity := row.typeAffinity
    establishedAtNs := fromI64 row.establishedAtNs
    lastActiveNs := fromI64 row.lastActiveNs
    signalsTransmitted := fromI64 row.signalsTransmitted
    signalsReceived := fromI64 row.signalsReceived
    avgLatencyNs := fromI64 row.avgLatencyNs
    errorRate := row.errorRate
    -- `signature_failures.max(0) as u32`
    signatureFailures := row.signatureFailures.toNat % 2 ^ 32
    failureWindowStartNs := fromI64 row.failureWindowStartNs }

def peerTaken : StoreError := .write "UNIQUE constraint failed: synapses.peer"

/-- `INSERT … ON CONFLICT(id)`, where no number is NULL. The unique index on `peer` makes the second
of two synapses of one peer fail. -/
def writeSynapse (synapses : HashMap SynapseId (SynapseRow F)) (r : SynapseRecord F) :
    Except StoreError (HashMap SynapseId (SynapseRow F)) :=
  match upsertUnique synapses SynapseRow.peer r.id (synapseRow r) with
  | some synapses => .ok synapses
  | none => .error peerTaken

namespace SqliteNode

/-- A put that the store does not refuse for a number in it. -/
def putSynapse (r : SynapseRecord F) (s : SqliteNode F) : Except StoreError Unit × SqliteNode F :=
  match writeSynapse s.synapses r with
  | .ok synapses => (.ok (), { s with synapses := synapses })
  | .error e => (.error e, s)

theorem putSynapse_cases (r : SynapseRecord F) (s : SqliteNode F) :
    (putSynapse r s =
        (.ok (), { s with synapses := s.synapses.insert r.id (synapseRow r) }) ∧
      (UniqueOn s.synapses SynapseRow.peer →
        UniqueOn (s.synapses.insert r.id (synapseRow r)) SynapseRow.peer)) ∨
    (putSynapse r s = (.error peerTaken, s) ∧
      ∃ id row, id ≠ r.id ∧ s.synapses.lookup id = some row ∧ row.peer = r.peer) := by
  unfold putSynapse writeSynapse
  rcases upsertUnique_cases s.synapses SynapseRow.peer r.id (synapseRow r) with
    ⟨written, -⟩ | ⟨refused, conflict⟩
  · rw [written]
    exact Or.inl ⟨rfl, fun unique => unique.upsert written⟩
  · rw [refused]
    exact Or.inr ⟨rfl, conflict⟩

def getSynapse (id : SynapseId) (s : SqliteNode F) :
    Except StoreError (Option (SynapseRecord F)) × SqliteNode F :=
  ((s.synapses.lookup id).mapM rowToSynapse, s)

def synapseForPeer (peer : NodeId) (s : SqliteNode F) :
    Except StoreError (Option (SynapseRecord F)) × SqliteNode F :=
  ((s.synapses.values.find? fun row => row.peer = peer).mapM rowToSynapse, s)

variable [Scalar F]

def rowCmp (a b : SynapseRow F) : Ordering :=
  (Scalar.partialCmp b.weight a.weight).then (compare a.id b.id)

def listSynapses (s : SqliteNode F) : Except StoreError (List (SynapseRecord F)) × SqliteNode F :=
  ((sortBy rowCmp s.synapses.values).mapM rowToSynapse, s)

omit [Scalar F] in
def putPeer (r : PeerRecord) (s : SqliteNode F) : Except StoreError Unit × SqliteNode F :=
  (.ok (), { s with peers := s.peers.insert r.id (peerRow r) })

def influenceSince (peer : NodeId) (windowStartNs : ℕ) (s : SqliteNode F) :
    Except StoreError F × SqliteNode F :=
  (.ok (Scalar.sum ((s.influence.filter fun i => i.peer = peer &&
    decide (toI64 windowStartNs ≤ i.atNs)).map InfluenceRow.magnitude)), s)

def recordInfluence (peer : NodeId) (magnitude : F) (nowNs windowStartNs : ℕ) (s : SqliteNode F) :
    Except StoreError F × SqliteNode F :=
  influenceSince peer windowStartNs
    { s with influence := s.influence ++ [⟨peer, Scalar.abs magnitude, toI64 nowNs⟩] }

end SqliteNode

def sqliteBackend [Scalar F] : SynapseBackend (SqliteNode F) F where
  now s := (s.clock, s)
  draw f s := ((f s.rng).1, { s with rng := (f s.rng).2 })
  synapseForPeer := SqliteNode.synapseForPeer
  getSynapse := SqliteNode.getSynapse
  listSynapses := SqliteNode.listSynapses
  putSynapse := SqliteNode.putSynapse
  putFormed := SqliteNode.putSynapse
  putPeer := SqliteNode.putPeer
  influenceSince := SqliteNode.influenceSince
  recordInfluence := SqliteNode.recordInfluence

theorem stateFromStr_stateToStr (state : SynapseState) :
    stateFromStr (stateToStr state) = .ok state := by
  cases state <;> rfl

theorem rowToSynapse_synapseRow (r : SynapseRecord F) :
    ∃ read, rowToSynapse (synapseRow r) = .ok read ∧ read.id = r.id ∧ read.peer = r.peer := by
  unfold rowToSynapse synapseRow
  simp only [stateFromStr_stateToStr]
  exact ⟨_, rfl, rfl, rfl⟩

end Sqlite

end OpenNtl
