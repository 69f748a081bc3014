import OpenNtl.BodyMirror
import OpenNtl.Config
import OpenNtl.Copies

/-! # A network of runtimes

Each node's callers, read loops and maintenance task run side by side with those of every other
node, one atomic step at a time. A frame crosses a link when the pump of the sender's session
writes it and the read loop of the receiver takes it.
-/
namespace OpenNtl

open AtomicProgram RuntimeM

variable {ι F : Type}

structure Crossing (ι F : Type) where
  source : ι
  target : ι
  frame : Signal F

structure NetState (ι F : Type) where
  nodes : ι → RuntimeState F
  /-- History variable: the signals emitted, each with its node. -/
  emissions : List (ι × Signal F)
  /-- History variable: the frames that have crossed a link. -/
  crossings : List (Crossing ι F)

abbrev NetM (ι F : Type) := Prog (NetState ι F) RuntimeError

inductive NetTask (ι : Type) where
  | application (node : ι) (caller : ℕ)
  | readLoop (source target : ι) (session : ℕ)
  | maintenance (node : ι)
  deriving DecidableEq

namespace Runtime

variable [Scalar F] (rt : Runtime F)

def signed (builder : SignalBuilder F) : RuntimeM F (Signal F) := do
  match ← callNode (rt.node.emit builder) with
  | .error e => .throw (.node e)
  | .ok signal =>
    match rt.crypto.signSignal signal rt.identity.privateKey with
    | .error e => .throw (.crypto e)
    | .ok signal => return signal

/-- What `handleFrame` does with a frame whose signature is right. -/
def handleVerified (peer : PeerIdentity) (signal : Signal F) : RuntimeM F Unit :=
  if Scalar.isFinite signal.weight = false then notify (.malformed peer.nodeId signal.weight)
  else do
    let (clamp, signal) := clampInboundHeaders signal rt.node.config.propagation
    if clamp.weightClamped || clamp.ttlClamped then
      notify (.headersClamped peer.nodeId signal.id clamp)
    if signal.signalType = .receipt then rt.handleReceipt signal peer
    else rt.handleArrival signal peer

/-- What `handleFrame` does once it knows the key to check with, if there is one. -/
def handleKeyed (peer : PeerIdentity) (signal : Signal F) : Option Bytes → RuntimeM F Unit
  | none => notify (.originKeyUnknown peer.nodeId signal.origin)
  | some key =>
    if (rt.crypto.verifySignal signal key).toOption.getD false = false then
      rt.handleBadSignature peer
    else rt.handleVerified peer signal

theorem handleFrame_eq (peer : PeerIdentity) (signal : Signal F) :
    rt.handleFrame peer signal = originKey signal peer >>= rt.handleKeyed peer signal := by
  unfold handleFrame
  refine bind_congr fun key => ?_
  cases key with
  | none => rfl
  | some key => rfl

end Runtime

variable [DecidableEq ι]

namespace NetState

def setNode (w : NetState ι F) (i : ι) (s : RuntimeState F) : NetState ι F :=
  { w with nodes := Function.update w.nodes i s }

def popFrame (s : RuntimeState F) (peer : NodeId) : Option (Signal F × RuntimeState F) :=
  match s.sessions.lookup peer with
  | none => none
  | some session =>
    match session.outbound with
    | [] => none
    | frame :: rest =>
      some (frame, { s with sessions := s.sessions.insert peer { session with outbound := rest } })

end NetState

def onNode {α : Type} (i : ι) (p : RuntimeM F α) : NetM ι F α :=
  p.focus (fun w => w.nodes i) fun w s => w.setNode i s

namespace Network

variable [Scalar F] (net : Network ι F)

def peerOf (i : ι) : PeerIdentity := ⟨(net i).identity.nodeId, (net i).identity.publicKey⟩

def emitAt (i : ι) (builder : SignalBuilder F) : NetM ι F Unit := do
  let signal ← onNode i ((net i).signed builder)
  .modify fun w => { w with emissions := w.emissions ++ [(i, signal)] }
  onNode i ((net i).route signal)

def transmit (i j : ι) : NetM ι F (Option (Signal F)) :=
  .act fun w =>
    match NetState.popFrame (w.nodes i) (net j).identity.nodeId with
    | none => (none, w)
    | some (frame, s) =>
      (some frame, { w.setNode i s with crossings := w.crossings ++ [⟨i, j, frame⟩] })

def readFrame (i j : ι) : NetM ι F Unit := do
  match ← net.transmit i j with
  | none => return ()
  | some frame => onNode j ((net j).handleFrame (net.peerOf i) frame)

def readVerified (i j : ι) : NetM ι F Unit := do
  match ← net.transmit i j with
  | none => return ()
  | some frame => onNode j ((net j).handleVerified (net.peerOf i) frame)

def Menu : NetTask ι → NetM ι F Unit → Prop
  | .application i _, p => ∃ builder, p = net.emitAt i builder
  | .readLoop i j _, p => p = net.readFrame i j ∨ p = net.readVerified i j
  | .maintenance i, p => ∃ ticks, p = onNode i ((net i).maintenanceTick ticks)

end Network

/-- What else may happen to a node: as to one that runs alone, and no frame is queued. -/
structure NodeOutside (s s' : RuntimeState F) : Prop extends Outside s s' where
  sessions : ∀ peer session', s'.sessions.lookup peer = some session' → session'.outbound = [] ∨
    ∃ session, s.sessions.lookup peer = some session ∧ session'.outbound = session.outbound

/-- Time passes, sessions come and go, stores change or fail. -/
structure NetOutside (w w' : NetState ι F) : Prop where
  nodes : ∀ i, NodeOutside (w.nodes i) (w'.nodes i)
  emissions : w'.emissions = w.emissions
  crossings : w'.crossings = w.crossings

omit [DecidableEq ι] in
theorem NetOutside.refl (w : NetState ι F) : NetOutside w w where
  nodes _ := ⟨⟨rfl, rfl, rfl, rfl⟩, fun _ session there => Or.inr ⟨session, there, rfl⟩⟩
  emissions := rfl
  crossings := rfl

abbrev NetPool (ι F : Type) := Pool (NetTask ι) (NetState ι F) RuntimeError Unit

/-- No signal is under way and no history made. -/
structure Deployed (P : NetPool ι F) : Prop where
  idle : P.Quiescent
  queue : ∀ i, (P.state.nodes i).node.activation.queue = []
  pending : ∀ i, (P.state.nodes i).pending = ∅
  outbound : ∀ i peer session, (P.state.nodes i).sessions.lookup peer = some session →
    session.outbound = []
  emissions : P.state.emissions = []
  crossings : P.state.crossings = []

abbrev Network.Step [Scalar F] (net : Network ι F) : NetPool ι F → NetPool ι F → Prop :=
  Pool.Step net.Menu NetOutside

abbrev Network.Run [Scalar F] (net : Network ι F) : NetPool ι F → NetPool ι F → Prop :=
  Pool.Run net.Menu NetOutside fun _ _ => True

def nameOf (k : ℕ) : NodeId := ⟨[UInt8.ofNat k]⟩

def patientEdge : NodeSettings ℚ :=
  { NodeSettings.forClass .edge with
    propagation := { PropagationConfig.default with
      maxFanout := 3, maxAcceptedTtl := 100, attenuationFactor := 1 } }

theorem patientEdge_checked : patientEdge.validate ["classical-v1"] = .ok () := by
  rw [NodeSettings.validate_iff]
  obtain ⟨activation, learning, -, crypto, weights⟩ :=
    (NodeSettings.validate_iff _ _).mp (NodeSettings.validate_forClass .edge)
  refine ⟨activation, learning, ?_, crypto, weights⟩
  norm_num [patientEdge, NodeSettings.forClass, PropagationConfig.default,
    PropagationConfig.validate, RetryPolicy.requiredDedupSecs, Scalar.lit]

def edgeNetwork (n : ℕ) : Network (Fin n) ℚ := fun k =>
  ⟨⟨nameOf k, patientEdge.toNodeConfig⟩, ⟨[UInt8.ofNat k], [UInt8.ofNat k], nameOf k⟩,
    plainCrypto, rfl⟩

def synapseTo (peer : NodeId) : SynapseRecord ℚ where
  id := ⟨peer.display⟩
  peer := peer
  weight := 1
  attenuationFactor := 9 / 10
  state := .active
  typeAffinity := ∅
  establishedAtNs := 0
  lastActiveNs := 0
  signalsTransmitted := 0
  signalsReceived := 0
  avgLatencyNs := 0
  errorRate := 0
  signatureFailures := 0
  failureWindowStartNs := 0

/-- A node with a synapse to each of its peers and a session with it. -/
def wiredTo {n : ℕ} (k : Fin n) (peers : List (Fin n)) : RuntimeState ℚ where
  node := (edgeNetwork n k).node.build
    (peers.foldl (fun st (j : Fin n) => st.putSynapse (synapseTo (nameOf j))) .new) .maximal 0 []
  sessions := peers.foldl (fun m (j : Fin n) => m.insert (nameOf j) ⟨[], false, [UInt8.ofNat j]⟩) ∅
  pending := ∅
  events := []
  log := []
  unstored := []

def wired {n : ℕ} (links : Fin n → List (Fin n)) : NetPool (Fin n) ℚ :=
  ⟨fun _ => .pure (), ⟨fun k => wiredTo k (links k), [], []⟩⟩

theorem wired_deployed {n : ℕ} (links : Fin n → List (Fin n)) : Deployed (wired links) where
  idle _ := trivial
  queue k := by
    have fresh : ∀ (peers : List (Fin n)) (st : MemoryStore ℚ),
        (peers.foldl (fun st (j : Fin n) => st.putSynapse (synapseTo (nameOf j))) st).activation =
          st.activation := by
      intro peers
      induction peers with
      | nil => exact fun _ => rfl
      | cons j rest ih => exact fun st => ih _
    unfold wired wiredTo Node.build
    dsimp only
    rw [fresh]
    rfl
  pending _ := rfl
  outbound k := by
    have empty : ∀ (peers : List (Fin n)) (m : HashMap NodeId (Session ℚ)),
        (∀ peer session, m.lookup peer = some session → session.outbound = []) →
        ∀ peer session, (peers.foldl (fun m (j : Fin n) =>
          m.insert (nameOf j) ⟨[], false, [UInt8.ofNat j]⟩) m).lookup peer = some session →
            session.outbound = [] := by
      intro peers
      induction peers with
      | nil => exact fun _ known => known
      | cons j rest ih =>
        refine fun m known => ih _ fun peer session found => ?_
        by_cases same : peer = nameOf j
        · rw [same, AList.lookup_insert] at found
          rw [← Option.some.inj found]
        · rw [AList.lookup_insert_ne same] at found
          exact known peer session found
    exact empty (links k) ∅ fun peer session found => nomatch found
  emissions := rfl
  crossings := rfl

def kite : Fin 4 → List (Fin 4)
  | 0 => [1, 2]
  | 1 => [0, 2]
  | 2 => [0, 1, 3]
  | 3 => [2]

def flooding (maxHops ttl : ℕ) : SignalBuilder ℚ :=
  { (SignalBuilder.new .data "").withWeight 1 with scope := .flood maxHops, ttl := ttl }

namespace Network

abbrev after {n : ℕ} (links : Fin n → List (Fin n))
    (jobs : List (NetTask (Fin n) × NetM (Fin n) ℚ Unit)) : NetState (Fin n) ℚ :=
  jobs.foldl (fun w job => (job.2.run w).2) (wired links).state

theorem reaches_after {n : ℕ} (links : Fin n → List (Fin n))
    (jobs : List (NetTask (Fin n) × NetM (Fin n) ℚ Unit))
    (offered : ∀ job ∈ jobs, (edgeNetwork n).Menu job.1 job.2) :
    ∃ P, (edgeNetwork n).Run (wired links) P ∧ P.Quiescent ∧ P.state = after links jobs :=
  Pool.Run.performAll (fun _ _ => trivial) .refl (wired_deployed links).idle jobs offered

/-- Node `0` floods the kite two hops deep. The copy that goes by `1` is the first at `2`. -/
def kiteFlood : List (NetTask (Fin 4) × NetM (Fin 4) ℚ Unit) :=
  [(.application 0 0, (edgeNetwork 4).emitAt 0 (flooding 2 10)),
    (.readLoop 0 1 0, (edgeNetwork 4).readVerified 0 1),
    (.readLoop 1 2 0, (edgeNetwork 4).readVerified 1 2),
    (.readLoop 0 2 0, (edgeNetwork 4).readVerified 0 2)]

theorem kiteFlood_offered : ∀ job ∈ kiteFlood, (edgeNetwork 4).Menu job.1 job.2 := by
  intro job here
  unfold kiteFlood at here
  simp only [List.mem_cons, List.not_mem_nil, or_false] at here
  rcases here with rfl | rfl | rfl | rfl
  · exact ⟨_, rfl⟩
  · exact Or.inr rfl
  · exact Or.inr rfl
  · exact Or.inr rfl

/-- Node `0` of the kite emits a signal with one hop, which node `1` takes. -/
def oneHopFlood : List (NetTask (Fin 4) × NetM (Fin 4) ℚ Unit) :=
  [(.application 0 0, (edgeNetwork 4).emitAt 0 (flooding 5 1)),
    (.readLoop 0 1 0, (edgeNetwork 4).readVerified 0 1)]

theorem oneHopFlood_offered : ∀ job ∈ oneHopFlood, (edgeNetwork 4).Menu job.1 job.2 := by
  intro job here
  unfold oneHopFlood at here
  simp only [List.mem_cons, List.not_mem_nil, or_false] at here
  rcases here with rfl | rfl
  · exact ⟨_, rfl⟩
  · exact Or.inr rfl

/-- The same from an emitter that asks for receipts, with more hops. -/
def acknowledgedFlood : List (NetTask (Fin 4) × NetM (Fin 4) ℚ Unit) :=
  [(.application 0 0, (edgeNetwork 4).emitAt 0 (flooding 5 10).acknowledged),
    (.readLoop 0 1 0, (edgeNetwork 4).readVerified 0 1)]

theorem acknowledgedFlood_offered : ∀ job ∈ acknowledgedFlood, (edgeNetwork 4).Menu job.1 job.2 := by
  intro job here
  unfold acknowledgedFlood at here
  simp only [List.mem_cons, List.not_mem_nil, or_false] at here
  rcases here with rfl | rfl
  · exact ⟨_, rfl⟩
  · exact Or.inr rfl

end Network

end OpenNtl
