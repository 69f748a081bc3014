import OpenNtl.ArrivalCopies
import OpenNtl.SessionTable
import OpenNtl.SignedBody

/-! # The handshake

Any number of connections between honest nodes and a network that reads, delays, replays and
invents frames. Both sides of a connection send a signed hello with their key and a challenge,
and then a signed proof that repeats the challenge of the other side.
-/
namespace OpenNtl

open AtomicProgram RuntimeM

variable {ι κ F : Type}

inductive Inbound (F : Type) where
  | timedOut
  | failed (e : FrameError)
  | frame (signal : Signal F)

inductive SessionError where
  | runtime (e : RuntimeError)
  | frame (e : FrameError)
  deriving DecidableEq, Repr

/-- What the history of the handshakes records. A run of a handshake is named by its node and the
challenge that it has drawn. -/
inductive Deed (ι F : Type) where
  | drew (node : ι) (challenge : Bytes)
  /-- A hello was signed. -/
  | helloed (node : ι) (challenge : Bytes) (frame : Signal F)
  /-- The hello of a peer was verified. -/
  | greeted (node : ι) (challenge : Bytes) (hello : Signal F)
  /-- A proof was signed. -/
  | proved (node : ι) (challenge : Bytes) (frame : Signal F)
  | completed (node : ι) (challenge : Bytes) (peer : PeerIdentity) (proof : Signal F)
  /-- Any other signal was signed. -/
  | emitted (node : ι) (frame : Signal F)

structure HandState (ι κ F : Type) where
  nodes : ι → RuntimeState F
  /-- What the next read of each connection is going to give. -/
  inbox : κ → Inbound F
  /-- Whether the next write to it is going to fail. -/
  writeFault : κ → Option FrameError
  /-- What the random source of the operating system is going to give. -/
  entropy : Bytes
  /-- History variable. -/
  history : List (Deed ι F)

def HandState.setNode [DecidableEq ι] (w : HandState ι κ F) (i : ι) (s : RuntimeState F) :
    HandState ι κ F :=
  { w with nodes := Function.update w.nodes i s }

section SetNode

variable [DecidableEq ι] (w : HandState ι κ F) {i j : ι} (s : RuntimeState F)

@[simp] theorem HandState.setNode_self : (w.setNode i s).nodes i = s := by
  rw [HandState.setNode]
  exact Function.update_self ..

theorem HandState.setNode_other (other : j ≠ i) : (w.setNode i s).nodes j = w.nodes j := by
  rw [HandState.setNode]
  exact Function.update_of_ne other ..

end SetNode

abbrev HandM (ι κ F : Type) := Prog (HandState ι κ F) SessionError

def challengeLen : ℕ := 32

def classicalModuleId : String := "classical-v1"

def payloadBytes (signal : Signal F) (field : String) : Except RuntimeError Bytes :=
  match (signal.payload.get field).bind Value.toBytes? with
  | some bytes => .ok bytes
  | none => .error (.handshake ("handshake has no " ++ field))

def SignalType.debug : SignalType → String
  | .custom name => "Custom(" ++ name.quote ++ ")"
  | signalType => signalTypeNameOf signalType

def helloPayload (publicKey challenge : Bytes) : Value :=
  .object [("challenge", .ofBytes challenge), ("module", .string classicalModuleId),
    ("public_key", .ofBytes publicKey)]

def proofPayload (theirChallenge : Bytes) : Value :=
  .object [("proof_for", .ofBytes theirChallenge)]

variable [Scalar F]

namespace Runtime

variable (rt : Runtime F)

/-- Check that a handshake frame is a signed Discovery from `expected`. -/
def verifyHandshakeFrame (signal : Signal F) (key : Bytes) (expected : NodeId) (what : String) :
    Except RuntimeError Unit :=
  if signal.signalType ≠ .discovery then
    .error (.handshake ("expected a Discovery signal for the " ++ what ++ ", got " ++
      signal.signalType.debug))
  else if signal.origin ≠ expected then
    .error (.handshake ("the " ++ what ++ " came from a different identity than the hello"))
  else
    match rt.crypto.verifySignal signal key with
    | .error e => .error (.crypto e)
    | .ok false => .error (.handshake ("the " ++ what ++ " signature did not verify"))
    | .ok true => .ok ()

/-- The checks of a peer's hello: who it is, and what it wants to be proven. -/
def checkHello (theirHello : Signal F) : Except RuntimeError (PeerIdentity × Bytes) := do
  let publicKey ← payloadBytes theirHello "public_key"
  let derived := rt.crypto.nodeIdFromPublicKey publicKey
  if derived ≠ theirHello.origin then
    .error (.handshake "claimed identity does not match the handshake public key")
  else
    rt.verifyHandshakeFrame theirHello publicKey derived "hello"
    -- A reflected hello of its own.
    if derived = rt.identity.nodeId then
      .error (.handshake "the peer presented this node's own identity")
    else
      let theirChallenge ← payloadBytes theirHello "challenge"
      if theirChallenge.length ≠ challengeLen then
        .error (.handshake ("challenge is " ++ toString theirChallenge.length ++
          " bytes, expected " ++ toString challengeLen))
      else return (⟨derived, publicKey⟩, theirChallenge)

def checkProof (peer : PeerIdentity) (challenge : Bytes) (theirProof : Signal F) :
    Except RuntimeError Unit := do
  rt.verifyHandshakeFrame theirProof peer.publicKey peer.nodeId "proof"
  let echoed ← payloadBytes theirProof "proof_for"
  if echoed ≠ challenge then
    .error (.handshake ("the peer's proof did not echo our challenge, so it did not demonstrate " ++
      "possession of the key it claimed"))
  else return ()

end Runtime

namespace HandM

variable [DecidableEq ι]

def callAt {α : Type} (i : ι) (p : NodeM F α) : HandM ι κ F (Except NodeError α) :=
  .act fun w =>
    let (r, node) := p.run (w.nodes i).node
    (r, w.setNode i { w.nodes i with node := node })

omit [Scalar F] [DecidableEq ι] in
def note (d : Deed ι F) : HandM ι κ F Unit :=
  .modify fun w => { w with history := w.history ++ [d] }

omit [Scalar F] [DecidableEq ι] in
def checked {α : Type} (r : Except RuntimeError α) : HandM ι κ F α :=
  .ofExcept (r.mapError SessionError.runtime)

def fillBytes (i : ι) : HandM ι κ F Bytes :=
  .act fun w => (w.entropy, { w with history := w.history ++ [.drew i w.entropy] })

def readHandshakeFrame (t : κ) (what : String) : HandM ι κ F (Signal F) := do
  match ← .read fun w => w.inbox t with
  | .timedOut => .throw (.runtime (.handshake ("timed out waiting for the peer's " ++ what)))
  | .failed e => .throw (.frame e)
  | .frame signal => return signal

end HandM

namespace Network

open HandM

variable [DecidableEq ι] (net : Network ι F) (home : κ → ι)

/-- Sign and send one framed signal. It is out once it is signed, whether the write fails or not. -/
def writeHandshakeFrame (t : κ) (payload : Value) (deed : Signal F → Deed ι F) :
    HandM ι κ F Unit := do
  let rt := net (home t)
  match ← callAt (home t) (rt.node.emit
      { SignalBuilder.new .discovery "discovery" with payload := payload }) with
  | .error e => .throw (.runtime (.node e))
  | .ok signal =>
    match rt.crypto.signSignal signal rt.identity.privateKey with
    | .error e => .throw (.runtime (.crypto e))
    | .ok signal => do
      note (deed signal)
      match ← .read fun w => w.writeFault t with
      | some e => .throw (.frame e)
      | none => return ()

def handshake (t : κ) : HandM ι κ F (Bytes × PeerIdentity × Signal F) := do
  let rt := net (home t)
  let challenge ← fillBytes (home t)
  net.writeHandshakeFrame home t (helloPayload rt.identity.publicKey challenge)
    (.helloed (home t) challenge)
  let theirHello ← readHandshakeFrame t "hello"
  let (peer, theirChallenge) ← checked (rt.checkHello theirHello)
  note (.greeted (home t) challenge theirHello)
  net.writeHandshakeFrame home t (proofPayload theirChallenge) (.proved (home t) challenge)
  let theirProof ← readHandshakeFrame t "proof"
  checked (rt.checkProof peer challenge theirProof)
  match ← callAt (home t) (rt.node.upsertSynapse peer.nodeId) with
  | .error e => .throw (.runtime (.node e))
  | .ok _ => do
    note (.completed (home t) challenge peer theirProof)
    return (challenge, peer, theirProof)

/-- `run_session` up to the reader loop: the handshake, and the entry into the session table. -/
def openSession (t : κ) : HandM ι κ F Unit := do
  let (_, peer, _) ← net.handshake home t
  let refused ← (.act fun w =>
    let s := w.nodes (home t)
    let register := w.setNode (home t)
      { s with sessions := s.sessions.insert peer.nodeId ⟨[], false, peer.publicKey⟩ }
    match s.sessions.lookup peer.nodeId with
    | some existing => if existing.closed = false then (true, w) else (false, register)
    | none => (false, register) : HandM ι κ F Bool)
  if refused then
    .throw (.runtime (.handshake (SessionTable.duplicateMessage peer.nodeId)))
  else return ()

end Network
end OpenNtl
