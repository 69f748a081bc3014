import OpenNtl.AtomicProgram
import OpenNtl.Activation
import OpenNtl.MemoryStore
import OpenNtl.Propagation

/-! # The node: admission, planning and the learning loop

Every method is a program of atomic steps. One step is one store call, one clock reading, or
one block under the locks of the gate and the random source.
-/
namespace OpenNtl

open AtomicProgram

structure NodeConfig (F : Type) where
  synapse : SynapseConfig F
  propagation : PropagationConfig F
  activation : ActivationConfig F
  learning : LearningConfig F

/-- Activation and learning parameters chosen consistently for a deployment class. -/
def NodeConfig.forClass {F : Type} [Scalar F] (deployment : DeploymentClass) : NodeConfig F :=
  let (nodeClass, fanout) :=
    match deployment with
    | .edge => (NodeClass.edge, 3)
    | .fullNode => (.standard, 5)
    | .highTraffic => (.server, 8)
  { synapse := .default
    propagation := { PropagationConfig.default with maxFanout := fanout }
    activation := .forClass nodeClass
    learning := .forClass deployment }

inductive NodeError where
  | invalidSignal (message : String)
  | serialization (message : String)
  deriving DecidableEq, Repr

structure NodeState (F : Type) where
  store : MemoryStore F
  activation : ActivationState F
  rng : Rng
  /-- What the next clock reading gives. -/
  clock : ℕ
  /-- The failures of the coming store calls. Past the end none fails. -/
  faults : List (Option StoreError)
  /-- History variable: every call into `applyOutcomeToSynapse`, with its decision. -/
  learned : List (Option JournalId × Outcome)

abbrev NodeM (F : Type) := Prog (NodeState F) NodeError

structure Node (F : Type) where
  identity : NodeId
  config : NodeConfig F

structure Forward where
  synapse : SynapseId
  peer : NodeId
  journalId : JournalId
  explored : Bool
  deriving DecidableEq, Repr

/-- A queued signal displaced by a later arrival. -/
structure Evicted (F : Type) where
  signal : QueuedSignal F
  reason : RejectReason

def Evicted.needsReceipt {F : Type} (e : Evicted F) : Bool := e.signal.delivery.requiresReceipt

structure Disposition (F : Type) where
  forwardTo : List Forward
  handleLocally : List (QueuedSignal F)
  receipt : Option Receipt
  rejected : Option RejectReason
  evicted : Option (Evicted F)
  queued : Bool

variable {F : Type}

def without (fired : List (QueuedSignal F)) (refused : SignalId) : List (QueuedSignal F) :=
  fired.filter fun q => q.id ≠ refused

namespace Disposition

def nothing : Disposition F where
  forwardTo := []
  handleLocally := []
  receipt := none
  rejected := none
  evicted := none
  queued := false

def refuse (signal : Signal F) (reason : RejectReason) (hops : ℕ) : Disposition F where
  forwardTo := []
  handleLocally := []
  receipt :=
    if signal.delivery.requiresReceipt then some (.rejected signal.id reason hops) else none
  rejected := some reason
  evicted := none
  queued := false

end Disposition

namespace NodeM

def now : NodeM F ℕ := .read NodeState.clock

def nextFault (s : NodeState F) : Option StoreError := s.faults.head?.join

def tryStore {α : Type} (op : MemoryStore F → α × MemoryStore F) : NodeM F (Except StoreError α) :=
  .act fun s =>
    match nextFault s with
    | some e => (.error e, { s with faults := s.faults.tail })
    | none => (.ok (op s.store).1, { s with store := (op s.store).2, faults := s.faults.tail })

def serialized {α : Type} (r : Except StoreError α) : Except NodeError α :=
  r.mapError fun e => .serialization e.display

def callStore {α : Type} (op : MemoryStore F → α × MemoryStore F) : NodeM F α := do
  let r ← tryStore op
  .ofExcept (serialized r)

def readStore {α : Type} (op : MemoryStore F → α) : NodeM F α := callStore fun s => (op s, s)

def writeStore (op : MemoryStore F → MemoryStore F) : NodeM F Unit := callStore fun s => ((), op s)

def withRng {α : Type} (f : Rng → α × Rng) : NodeM F α :=
  .act fun s => ((f s.rng).1, { s with rng := (f s.rng).2 })

def withGate {α : Type} (f : ActivationState F → α × ActivationState F) : NodeM F α :=
  .act fun s => ((f s.activation).1, { s with activation := (f s.activation).2 })

def withGateAndRng {α : Type} (f : ActivationState F → Rng → α × ActivationState F × Rng) :
    NodeM F α :=
  .act fun s =>
    let (a, gate, rng) := f s.activation s.rng
    (a, { s with activation := gate, rng := rng })

end NodeM

open NodeM

namespace Node

variable [Scalar F] (node : Node F)

/-- Build a signal for emission. It is marked seen, so the node never processes its own. -/
def emit (builder : SignalBuilder F) : NodeM F (Signal F) := do
  let now ← NodeM.now
  let timestamp ← NodeM.now
  let idTime ← NodeM.now
  let draws ← withRng fun rng =>
    let (high, rng) := rng.nextU64
    let (low, rng) := rng.nextU64
    ((high, low), rng)
  let signal := builder.buildUnsignedWith node.identity timestamp
    (SignalId.generate idTime draws.1 draws.2)
  let _ ← callStore fun st =>
    st.checkAndSetSeen signal.id now node.config.propagation.dedupCacheSeconds
  return signal

def rehydrate (nowNs : ℕ) (r : SynapseRecord F) : Synapse F :=
  let s := Synapse.fromRecord r node.config.synapse
  { s with weight := s.decayedWeight nowNs node.config.learning }

omit [Scalar F] in
def decisionFor (signal : Signal F) (nowNs : ℕ) (c : Chosen F) : JournalEntry F where
  id := none
  signal := signal.id
  signalType := signal.signalType
  synapse := c.synapse.id
  peer := c.synapse.remoteNode
  score := c.score
  signalWeight := signal.weight
  explored := c.explored
  decidedAtNs := nowNs
  outcome := .pending
  resolvedAtNs := none

omit [Scalar F] in
def journalChoice (signal : Signal F) (nowNs : ℕ) (c : Chosen F) : NodeM F Forward := do
  let journalId ← callStore fun st => st.appendDecision (decisionFor signal nowNs c)
  return {
    synapse := c.synapse.id
    peer := c.synapse.remoteNode
    journalId := journalId
    explored := c.explored }

def planForwarding (signal : Signal F) (arrivalSynapse : Option SynapseId) (nowNs : ℕ) :
    NodeM F (List Forward) :=
  if floodDepthReached signal then return []
  else do
    let records ← readStore fun st => st.listSynapses .eligible
    if records.isEmpty then return []
    else do
      let chosen ← withRng (selectSynapses (records.map (node.rehydrate nowNs)) signal.scope
        (signalTypeNameOf signal.signalType) arrivalSynapse node.config.propagation
        node.config.learning nowNs)
      chosen.mapM (journalChoice signal nowNs)

def receiveLocal (signal : Signal F) : NodeM F (Disposition F) := do
  let now ← NodeM.now
  match checkPropagable signal node.identity node.config.propagation with
  | .error reason => return .refuse signal reason signal.hops
  | .ok () =>
    let forwardTo ← node.planForwarding signal none now
    if forwardTo.isEmpty ∧ signal.requiresReceipt then return .refuse signal .noRoute signal.hops
    else return { Disposition.nothing with forwardTo := forwardTo }

/-- The weight of the synapse a signal arrived on. A failed lookup counts as no synapse. -/
def arrivalWeight (arrivalSynapse : Option SynapseId) : NodeM F F :=
  match arrivalSynapse with
  | none => return 1
  | some id => do
    let r ← tryStore fun st => (st.getSynapse id, st)
    match r with
    | .ok (some record) => return record.weight
    | _ => return 1

def afterAdmission (signal : Signal F) (arrivalSynapse : Option SynapseId) (nowNs : ℕ)
    (admitted : AdmitOutcome F) : NodeM F (Disposition F) :=
  let reason := admitted.dropReason.getD .queueFull
  if admitted.dropped.any fun d => d.id = signal.id then
    -- The arrival itself was shed. What its contribution fired is still handled.
    return { Disposition.refuse signal reason signal.hops with
      handleLocally := without admitted.fired signal.id }
  else do
    let evicted := admitted.dropped.map fun d => { signal := d, reason := reason }
    let firedHere := admitted.fired.any fun q => q.id = signal.id
    -- Only a signal that is leaving now needs a route.
    let forwardTo ← if firedHere then node.planForwarding signal arrivalSynapse nowNs else pure []
    if firedHere ∧ forwardTo.isEmpty ∧ signal.requiresReceipt then
      return { Disposition.refuse signal .noRoute signal.hops with
        handleLocally := without admitted.fired signal.id, evicted := evicted }
    else
      return {
        forwardTo := forwardTo
        handleLocally := admitted.fired
        receipt := none
        rejected := none
        evicted := evicted
        queued := !firedHere }

omit [Scalar F] in
def queuedSignalOf (signal : Signal F) (nowNs : ℕ) : QueuedSignal F where
  id := signal.id
  origin := signal.origin
  weight := signal.weight
  delivery := signal.delivery
  enqueuedAtNs := nowNs

/-- Deduplication, the propagation rules and admission: an answer, or what the gate did and at
which reading. -/
def admission (signal : Signal F) (arrivalSynapse : Option SynapseId) :
    NodeM F (Disposition F ⊕ ℕ × AdmitOutcome F) := do
  let now ← NodeM.now
  let seen ← callStore fun st =>
    st.checkAndSetSeen signal.id now node.config.propagation.dedupCacheSeconds
  if seen then return .inl .nothing
  else
    match checkPropagable signal node.identity node.config.propagation with
    | .error reason => return .inl (.refuse signal reason signal.hops)
    | .ok () => do
      let synapseWeight ← arrivalWeight arrivalSynapse
      let admitted ← withGateAndRng fun gate rng =>
        gate.admitSignal (queuedSignalOf signal now) synapseWeight now rng
      return .inr (now, admitted)

def receive (signal : Signal F) (arrivalSynapse : Option SynapseId) : NodeM F (Disposition F) := do
  match ← node.admission signal arrivalSynapse with
  | .inl disposition => return disposition
  | .inr (now, admitted) => node.afterAdmission signal arrivalSynapse now admitted

def planRelease (signal : Signal F) (arrivalSynapse : Option SynapseId) :
    NodeM F (List Forward) := do
  let now ← NodeM.now
  node.planForwarding signal arrivalSynapse now

def normalizeOutboundWeights : NodeM F (Option F) := do
  let records ← readStore fun st => st.listSynapses {}
  if records.isEmpty then return none
  else
    match normalizeOutbound (records.map SynapseRecord.weight) node.config.learning with
    | none => return none
    | some (factor, weights) => do
      (records.zip weights).forM fun (r, w) =>
        writeStore fun st => st.putSynapse { r with weight := w }
      return some factor

def Charged (update : WeightUpdate F) : Prop := Scalar.epsilon < Scalar.abs update.appliedDelta

instance (update : WeightUpdate F) : Decidable (Charged update) :=
  inferInstanceAs (Decidable (_ < _))

/-- Weigh an outcome into its synapse, within the influence cap, and renormalise. -/
def updateSynapse (entry : JournalEntry F) (outcome : Outcome) (nowNs : ℕ) :
    NodeM F (WeightUpdate F) := do
  let windowStart := node.config.learning.influenceWindowStart nowNs
  let influenceUsed ← readStore fun st => st.influenceSince entry.peer windowStart
  let found ← readStore fun st => st.getSynapse entry.synapse
  match found with
  -- The synapse was deleted while the decision was in flight.
  | none => return { before := 0, after := 0, appliedDelta := 0, capped := false }
  | some record => do
    let (update, synapse) := (Synapse.fromRecord record node.config.synapse).applyOutcome outcome
      (Scalar.clamp entry.signalWeight 0 1) (signalTypeNameOf entry.signalType) influenceUsed
      node.config.learning
    if Charged update then
      let _ ← callStore fun st =>
        st.recordInfluence entry.peer update.appliedDelta nowNs windowStart
    writeStore fun st => st.putSynapse { synapse with lastActiveNs := nowNs }.toRecord
    let _ ← node.normalizeOutboundWeights
    return update

/-- Apply one resolved outcome. The call is noted before anything else happens. -/
def applyOutcomeToSynapse (entry : JournalEntry F) (outcome : Outcome) (nowNs : ℕ) :
    NodeM F (WeightUpdate F) := do
  .modify fun s => { s with learned := s.learned ++ [(entry.id, outcome)] }
  node.updateSynapse entry outcome nowNs

/-- Learn from a decision if this call is the one that resolved it. That is inferred from the
timestamp: the store returns resolved entries unchanged. -/
def learnIfResolvedNow (resolved : Option (JournalEntry F)) (outcome : Outcome) (nowNs : ℕ) :
    NodeM F (Option (WeightUpdate F)) :=
  match resolved with
  | none => return none
  | some entry =>
    if entry.resolvedAtNs = some nowNs then some <$> node.applyOutcomeToSynapse entry outcome nowNs
    else return none

/-- Resolve one decision and learn from it, as the three callers below do. -/
def settle (journalId : JournalId) (outcome : Outcome) (nowNs : ℕ) :
    NodeM F (Option (WeightUpdate F)) := do
  let resolved ← callStore fun st => st.resolveDecision journalId outcome nowNs
  node.learnIfResolvedNow resolved outcome nowNs

def failForward (journalId : JournalId) : NodeM F (Option (WeightUpdate F)) := do
  let now ← NodeM.now
  node.settle journalId .transportFailure now

/-- Resolve the decision a receipt answers and update its synapse. An unmatched receipt is
discarded. -/
def applyReceipt (receipt : Receipt) (fromPeer : NodeId) : NodeM F (Option (WeightUpdate F)) := do
  let now ← NodeM.now
  let pending ← readStore fun st => st.pendingDecisionFor receipt.correlationId fromPeer
  match pending.bind JournalEntry.id with
  | none => return none
  | some journalId =>
    node.settle journalId receipt.outcome now

/-- Time out one expired decision, and say whether it was resolved here. -/
def sweepOne (nowNs : ℕ) (entry : JournalEntry F) : NodeM F ℕ :=
  match entry.id with
  | none => return 0
  | some id => do
    let learned ← node.settle id .timedOut nowNs
    return if learned.isSome then 1 else 0

/-- Convert decisions past their deadline into `TimedOut` and learn from them. -/
def sweepTimeouts (limit : ℕ) : NodeM F ℕ := do
  let now ← NodeM.now
  let deadline := node.config.learning.receiptDeadline now
  let expired ← readStore fun st => st.expiredDecisions deadline limit
  expired.foldlM (fun resolved entry => (resolved + ·) <$> node.sweepOne now entry) 0

/-- Penalise a synapse whose peer presented an unverifiable signature. -/
def penalizeSignatureFailure (synapseId : SynapseId) :
    NodeM F (Option SignatureFailureOutcome) := do
  let now ← NodeM.now
  let found ← readStore fun st => st.getSynapse synapseId
  match found with
  | none => return none
  | some record =>
    let (outcome, synapse) :=
      (Synapse.fromRecord record node.config.synapse).applySignatureFailure now node.config.learning
    writeStore fun st => st.putSynapse synapse.toRecord
    return some outcome

/-- A pruned synapse whose cooldown is served, formed again from scratch. -/
def reform (existing : SynapseRecord F) (nowNs : ℕ) : SynapseRecord F :=
  let synapse := { Synapse.fromRecord existing node.config.synapse with
    weight := node.config.synapse.initialWeight
    signatureFailures := 0
    failureWindowStartNs := 0
    state := .forming }
  { synapse.activate with lastActiveNs := nowNs }.toRecord

def cooldownMessage (peer : NodeId) (remainingNs : ℕ) : String :=
  "synapse to " ++ peer.display ++ " was pruned and is in cooldown for another " ++
    toString (remainingNs / nanosPerSec) ++ "s"

/-- Register or update the synapse to a peer whose handshake has just completed. -/
def upsertSynapse (peer : NodeId) : NodeM F (SynapseRecord F) := do
  let now ← NodeM.now
  let found ← readStore fun st => st.synapseForPeer peer
  match found with
  | some existing =>
    if existing.state = .pruned then
      let cooldownNs := saturatingMul node.config.learning.signatureFailureCooldownSecs nanosPerSec
      let cooldownEnd := saturatingAdd existing.lastActiveNs cooldownNs
      if now < cooldownEnd then .throw (.invalidSignal (cooldownMessage peer (cooldownEnd - now)))
      else
        let record := node.reform existing now
        writeStore fun st => st.putSynapse record
        return record
    else if existing.state = .dormant then
      let record := ((Synapse.fromRecord existing node.config.synapse).reactivate
        node.config.synapse).toRecord
      writeStore fun st => st.putSynapse record
      return record
    else return existing
  | none =>
    let synapse ← withRng (Synapse.newWith peer node.config.synapse now)
    let record := synapse.activate.toRecord
    writeStore fun st => st.putSynapse record
    writeStore fun st => st.putPeer
      { id := peer
        addresses := []
        region := none
        advertisedTypes := []
        lastSeenNs := now
        source := .observed }
    return record

omit [Scalar F] in
def synapseForPeer (peer : NodeId) : NodeM F (Except StoreError (Option (SynapseRecord F))) :=
  tryStore fun st => (st.synapseForPeer peer, st)

/-- Release what the activation queue has held past its latency guard. -/
def pollActivation : NodeM F (List (QueuedSignal F)) := do
  let now ← NodeM.now
  withGate fun gate => gate.drainIfStarving now

omit [Scalar F] in
/-- Persist the activation snapshot and forget expired deduplication entries. -/
def checkpoint : NodeM F Unit := do
  let now ← NodeM.now
  let snapshot ← withGate fun gate => (gate.snapshot now, gate)
  writeStore fun st => st.saveActivation snapshot
  let _ ← callStore fun st => st.purgeExpiredSeen now
  -- `flush` of the in-memory store.
  writeStore id

def build (store : MemoryStore F) (rng : Rng) (clock : ℕ) (faults : List (Option StoreError)) :
    NodeState F :=
  let fresh := ActivationState.new node.config.activation
  { store := store
    activation := match store.activation with
      | some snapshot => fresh.restore snapshot
      | none => fresh
    rng := rng
    clock := clock
    faults := faults
    learned := [] }

end Node
end OpenNtl
