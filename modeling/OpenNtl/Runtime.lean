import OpenNtl.NodeRun

/-! # The runtime: sessions, the body cache and the release path

A task is a program over the state all tasks share. One step is one call into the node, one
acquisition of a lock, or one event. Hashing, signatures and the wire encoding are third-party
code and are parameters.
-/
namespace OpenNtl

open AtomicProgram

structure Crypto (F : Type) where
  /-- `serde_cbor::to_vec` on an unsigned signal. -/
  toVec : Signal F → Except String Bytes
  sign : Bytes → Bytes → Except String Bytes
  /-- Of data, signature and public key. -/
  verify : Bytes → Bytes → Bytes → Except String Bool
  nodeIdFromPublicKey : Bytes → NodeId
  receiptToValue : Receipt → Value
  receiptFromValue : Value → Option Receipt

structure Identity where
  publicKey : Bytes
  privateKey : Bytes
  nodeId : NodeId
  deriving DecidableEq, Repr

structure PeerIdentity where
  nodeId : NodeId
  publicKey : Bytes
  deriving DecidableEq, Repr

structure Session (F : Type) where
  /-- Frames queued for the writer pump. -/
  outbound : List (Signal F)
  /-- The pump has ended. -/
  closed : Bool
  publicKey : Bytes

inductive Event (F : Type) where
  | handled (signal : Signal F)
  | forwarded (signalId : SignalId) (peers : ℕ) (explored : Bool)
  | released (signalId : SignalId) (signal : Option (Signal F))
  | refused (signalId : SignalId) (reason : RejectReason)
  | receiptApplied (peer : NodeId) (delivered : Bool) (weightDelta : F)
  | signatureFailed (peer : NodeId) (pruned : Bool)
  | headersClamped (peer : NodeId) (signalId : SignalId) (clamp : HeaderClamp)
  | originKeyUnknown (peer origin : NodeId)
  /-- The reason says that this weight is not a finite number. -/
  | malformed (peer : NodeId) (weight : F)

inductive RuntimeError where
  | node (e : NodeError)
  | crypto (message : String)
  | handshake (message : String)
  deriving DecidableEq, Repr

inductive Mark where
  | received (id : SignalId) (ok : Bool)
  | fetched (id : SignalId) (found : Bool)
  | remembered (id : SignalId)
  | answered (receipt : Receipt) (origin : NodeId)
  deriving DecidableEq, Repr

structure RuntimeState (F : Type) where
  node : NodeState F
  sessions : HashMap NodeId (Session F)
  /-- Bodies of signals that wait in the activation queue. -/
  pending : HashMap SignalId (Signal F)
  events : List (Event F)
  /-- History variable: arrivals, body lookups and receipts. -/
  log : List Mark
  /-- History variable: ids queued by an arrival whose body is not stored yet. -/
  unstored : List SignalId

abbrev RuntimeM (F : Type) := Prog (RuntimeState F) RuntimeError

structure Runtime (F : Type) where
  node : Node F
  identity : Identity
  crypto : Crypto F
  same : node.identity = identity.nodeId

variable {F : Type}

def peerQueueDepth : ℕ := 256

def Session.trySend (s : Session F) (signal : Signal F) : Option (Session F) :=
  if s.closed ∨ peerQueueDepth ≤ s.outbound.length then none
  else some { s with outbound := s.outbound ++ [signal] }

namespace RuntimeM

def callNode {α : Type} (p : NodeM F α) : RuntimeM F (Except NodeError α) :=
  .act fun s => ((p.run s.node).1, { s with node := (p.run s.node).2 })

def notify (e : Event F) : RuntimeM F Unit := .modify fun s => { s with events := s.events ++ [e] }

def mark (m : Mark) : RuntimeM F Unit := .modify fun s => { s with log := s.log ++ [m] }

def takeBody (id : SignalId) : RuntimeM F (Option (Signal F)) :=
  .act fun s => (s.pending.lookup id, { s with
    pending := s.pending.erase id
    log := s.log ++ [.fetched id (s.pending.lookup id).isSome] })

def trySendTo (sessions : HashMap NodeId (Session F)) (peer : NodeId) (signal : Signal F) :
    Bool × HashMap NodeId (Session F) :=
  match (sessions.lookup peer).bind fun session => session.trySend signal with
  | some session => (true, sessions.insert peer session)
  | none => (false, sessions)

/-- Queue a frame for each of the forwards in turn, and split them by whether it was taken. -/
def sendAll (outbound : Signal F) :
    List Forward → HashMap NodeId (Session F) →
      (List Forward × List Forward) × HashMap NodeId (Session F)
  | [], sessions => (([], []), sessions)
  | forward :: rest, sessions =>
    let (taken, sessions) := trySendTo sessions forward.peer outbound
    let ((sent, failed), sessions) := sendAll outbound rest sessions
    (if taken then (forward :: sent, failed) else (sent, forward :: failed), sessions)

end RuntimeM

open RuntimeM

variable [Scalar F]

def Crypto.receiptSignal (c : Crypto F) (receipt : Receipt) (origin : NodeId) : SignalBuilder F :=
  { SignalBuilder.new .receipt "receipt" with
    correlationId := some receipt.correlationId
    scope := .targeted origin
    payload := c.receiptToValue receipt }

def Crypto.signingBytes (c : Crypto F) (signal : Signal F) : Except String Bytes :=
  c.toVec signal.unsigned

def Crypto.signSignal (c : Crypto F) (signal : Signal F) (privateKey : Bytes) :
    Except String (Signal F) := do
  let bytes ← c.signingBytes signal
  let signature ← c.sign bytes privateKey
  return { signal with signature := signature }

def Crypto.verifySignal (c : Crypto F) (signal : Signal F) (publicKey : Bytes) :
    Except String Bool := do
  let bytes ← c.signingBytes signal
  c.verify bytes signal.signature publicKey

namespace Runtime

variable (rt : Runtime F)

def outbound (signal : Signal F) : Signal F :=
  (signal.hop rt.identity.nodeId).attenuateForHop rt.node.config.propagation.attenuationFactor
    rt.node.config.propagation.minPropagationWeight

def route (signal : Signal F) : RuntimeM F Unit := do
  match ← callNode (rt.node.receiveLocal signal) with
  | .error e => .throw (.node e)
  | .ok disposition =>
    let explored := disposition.forwardTo.any Forward.explored
    let sent ← (.act fun s =>
      let ((sent, _), sessions) := sendAll (rt.outbound signal) disposition.forwardTo s.sessions
      (sent.length, { s with sessions := sessions }) : RuntimeM F ℕ)
    notify (.forwarded signal.id sent explored)

def emit (builder : SignalBuilder F) : RuntimeM F (Signal F) := do
  match ← callNode (rt.node.emit builder) with
  | .error e => .throw (.node e)
  | .ok signal =>
    match rt.crypto.signSignal signal rt.identity.privateKey with
    | .error e => .throw (.crypto e)
    | .ok signal => do
      rt.route signal
      return signal

/-- Transmit a signal over the chosen synapses. A decision whose peer takes no frame is resolved
as a transport failure. Returns whether any peer took it. -/
def forwardSignal (signal : Signal F) (forwards : List Forward) : RuntimeM F Bool :=
  if forwards.isEmpty then return false
  else do
    let explored := forwards.any Forward.explored
    let split ← (.act fun s =>
      let (split, sessions) := sendAll (rt.outbound signal) forwards s.sessions
      (split, { s with sessions := sessions }) : RuntimeM F (List Forward × List Forward))
    split.2.forM fun forward => do
      let _ ← callNode (rt.node.failForward forward.journalId)
    notify (.forwarded signal.id split.1.length explored)
    return decide (0 < split.1.length)

def makeReceipt (receipt : Receipt) (origin : NodeId) : RuntimeM F (Option (Signal F)) := do
  mark (.answered receipt origin)
  match ← callNode (rt.node.emit (rt.crypto.receiptSignal receipt origin)) with
  | .error _ => return none
  | .ok signal => return (rt.crypto.signSignal signal rt.identity.privateKey).toOption

def sendReceiptTo (receipt : Receipt) (origin : NodeId) : RuntimeM F Bool := do
  match ← rt.makeReceipt receipt origin with
  | none => return false
  | some signal =>
    .act fun s =>
      let (taken, sessions) := trySendTo s.sessions origin signal
      (taken, { s with sessions := sessions })

/-- Send a receipt to the origin, or else back to the peer the signal came from. -/
def sendReceipt (receipt : Receipt) (origin : NodeId) (via : PeerIdentity) : RuntimeM F Unit := do
  match ← rt.makeReceipt receipt origin with
  | none => return ()
  | some signal =>
    .modify fun s =>
      let target := if (s.sessions.lookup origin).isSome then origin else via.nodeId
      { s with sessions := (trySendTo s.sessions target signal).2 }

inductive Release where
  | threshold | guard
  deriving DecidableEq, Repr

def releaseReceipt (signalId : SignalId) (body : Signal F) (forwards : List Forward)
    (delivered : Bool) : Receipt :=
  if forwards.isEmpty || delivered then .delivered signalId body.hops
  else .rejected signalId .transportFailure body.hops

/-- The synapse over which a body came in, by the last entry of its trace. -/
def arrivalOf (body : Signal F) : RuntimeM F (Option SynapseId) :=
  match body.trace.getLast? with
  | none => return none
  | some hop => do
    match ← callNode (Node.synapseForPeer hop) with
    | .ok (.ok found) => return found.map SynapseRecord.id
    | _ => return none

/-- The plan of an arrival, or a fresh one. Planning that fails counts as an empty plan. -/
def releasePlan (body : Signal F) (arrival : Option SynapseId) (plan : Option (List Forward)) :
    RuntimeM F (List Forward) :=
  match plan with
  | some forwards => return forwards
  | none => do
    match ← callNode (rt.node.planRelease body arrival) with
    | .ok forwards => return forwards
    | .error _ => return []

/-- Transmit a released body, and tell its origin if that is owed a receipt. -/
def finishRelease (signalId : SignalId) (body : Signal F) (forwards : List Forward) :
    RuntimeM F Unit := do
  let delivered ← rt.forwardSignal body forwards
  if body.requiresReceipt then
    let _ ← rt.sendReceiptTo (releaseReceipt signalId body forwards delivered) body.origin

def releaseSignal (signalId : SignalId) (body : Option (Signal F)) (plan : Option (List Forward))
    (how : Release) : RuntimeM F Unit :=
  match body with
  | none => notify (.released signalId none)
  | some body => do
    notify (match how with
      | .threshold => .handled body
      | .guard => .released signalId (some body))
    let arrival ← arrivalOf body
    let forwards ← rt.releasePlan body arrival plan
    rt.finishRelease signalId body forwards

/-- Cache a body while the gate holds its signal. At twice the queue depth the oldest goes. -/
def rememberBody (signal : Signal F) : RuntimeM F Unit :=
  .modify fun s =>
    let queueDepth := max rt.node.config.activation.maxQueueDepth 1
    let room := if saturatingMul queueDepth 2 ≤ s.pending.entries.length then
        match minBy SignalId.cmp s.pending.keys with
        | some oldest => s.pending.erase oldest
        | none => s.pending
      else s.pending
    { s with
      pending := room.insert signal.id signal
      log := s.log ++ [.remembered signal.id]
      unstored := s.unstored.erase signal.id }

def callReceive (signal : Signal F) (arrival : Option SynapseId) :
    RuntimeM F (Except NodeError (Disposition F)) :=
  .act fun s =>
    let (result, node) := (rt.node.receive signal arrival).run s.node
    let queued := match result with
      | .ok d => d.queued
      | .error _ => false
    (result, { s with
      node := node
      log := s.log ++ [.received signal.id result.isOk]
      unstored := if queued then s.unstored ++ [signal.id] else s.unstored })

def reportEvicted (ev : Evicted F) : RuntimeM F Unit := do
  let body ← takeBody ev.signal.id
  notify (.refused ev.signal.id ev.reason)
  if ev.needsReceipt then
    let hops := body.elim 0 Signal.hops
    let _ ← rt.sendReceiptTo (.rejected ev.signal.id ev.reason hops) ev.signal.origin

def reportRefusal (signal : Signal F) (peer : PeerIdentity) (d : Disposition F) :
    RuntimeM F Unit := do
  d.receipt.forM fun receipt => rt.sendReceipt receipt signal.origin peer
  d.rejected.forM fun reason => notify (.refused signal.id reason)

/-- Release everything the arrival fired. Only its own body is in hand. -/
def releaseFired (signal : Signal F) (d : Disposition F) : RuntimeM F Unit :=
  d.handleLocally.forM fun released =>
    if released.id = signal.id then
      rt.releaseSignal released.id (some signal) (some d.forwardTo) .threshold
    else do
      let body ← takeBody released.id
      rt.releaseSignal released.id body none .threshold

def handleArrival (signal : Signal F) (peer : PeerIdentity) : RuntimeM F Unit := do
  let arrival ← (do
    match ← callNode (Node.synapseForPeer peer.nodeId) with
    | .ok (.ok found) => return found.map SynapseRecord.id
    | _ => return none : RuntimeM F (Option SynapseId))
  match ← rt.callReceive signal arrival with
  | .error _ => return ()
  | .ok d => do
    d.evicted.forM rt.reportEvicted
    rt.reportRefusal signal peer d
    rt.releaseFired signal d
    if d.queued then rt.rememberBody signal

def handleReceipt (signal : Signal F) (peer : PeerIdentity) : RuntimeM F Unit :=
  match rt.crypto.receiptFromValue signal.payload with
  | none => return ()
  | some receipt => do
    match ← callNode (rt.node.applyReceipt receipt peer.nodeId) with
    | .ok (some update) =>
      notify (.receiptApplied peer.nodeId receipt.isDelivered update.appliedDelta)
    | _ => return ()

/-- A frame whose signature did not verify costs the peer that handed it over. -/
def handleBadSignature (peer : PeerIdentity) : RuntimeM F Unit := do
  let pruned ← (do
    match ← callNode (Node.synapseForPeer peer.nodeId) with
    | .ok (.ok (some record)) =>
      match ← callNode (rt.node.penalizeSignatureFailure record.id) with
      | .ok (some outcome) => return outcome.pruned
      | _ => return false
    | _ => return false : RuntimeM F Bool)
  notify (.signatureFailed peer.nodeId pruned)
  if pruned then
    .throw (.handshake (peer.nodeId.display ++
      " exceeded the signature-failure threshold; synapse pruned"))

/-- The key to check a frame with: the peer's own, or that of the origin's session. -/
def originKey (signal : Signal F) (peer : PeerIdentity) : RuntimeM F (Option Bytes) :=
  if signal.origin = peer.nodeId then return some peer.publicKey
  else .read fun s => (s.sessions.lookup signal.origin).map Session.publicKey

def handleFrame (peer : PeerIdentity) (signal : Signal F) : RuntimeM F Unit := do
  match ← originKey signal peer with
  | none => notify (.originKeyUnknown peer.nodeId signal.origin)
  | some key =>
    if (rt.crypto.verifySignal signal key).toOption.getD false = false then
      rt.handleBadSignature peer
    else if Scalar.isFinite signal.weight = false then
      notify (.malformed peer.nodeId signal.weight)
    else
      let (clamp, signal) := clampInboundHeaders signal rt.node.config.propagation
      if clamp.weightClamped || clamp.ttlClamped then
        notify (.headersClamped peer.nodeId signal.id clamp)
      if signal.signalType = .receipt then rt.handleReceipt signal peer
      else rt.handleArrival signal peer

def maintenanceIntervalSecs : ℕ := 5

def activationPollIntervalMs : ℕ := 50

def pollRelease : RuntimeM F Unit := do
  match ← callNode Node.pollActivation with
  | .error _ => return ()
  | .ok released =>
    released.forM fun queued => do
      let body ← takeBody queued.id
      rt.releaseSignal queued.id body none .guard

/-- One round of the maintenance task. The heavier work runs less often. -/
def maintenanceTick (ticks : ℕ) : RuntimeM F Unit := do
  rt.pollRelease
  let perSweep := maintenanceIntervalSecs * 1000 / activationPollIntervalMs
  if ticks % max perSweep 1 ≠ 0 then return ()
  else
    let _ ← callNode (rt.node.sweepTimeouts 256)
    let _ ← callNode (Node.checkpoint (F := F))

end Runtime

def plainCrypto : Crypto ℚ where
  toVec signal := .ok ((List.range 16).map fun i => UInt8.ofNat (signal.id.ulid.toNat / 256 ^ i))
  sign data key := .ok (key ++ data)
  verify data signature key := .ok (signature = key ++ data)
  nodeIdFromPublicKey key := ⟨key⟩
  receiptToValue receipt := .array [.number receipt.correlationId.ulid.toNat,
    .bool receipt.isDelivered, .number receipt.hops]
  receiptFromValue
    | .array [.number id, .bool delivered, .number hops] =>
      some ⟨⟨BitVec.ofInt 128 id⟩, if delivered then .delivered else .rejected .refused, hops.toNat⟩
    | _ => none

def edgeRuntime : Runtime ℚ := ⟨edgeNode, ⟨[0], [0], ⟨[0]⟩⟩, plainCrypto, rfl⟩

end OpenNtl
