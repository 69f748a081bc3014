import OpenNtl.RuntimeCopies
import OpenNtl.SignedBody

/-! # What gets past the signature check

Sessions may bring any frames at all, in any order and on any number of read loops. What a runtime
hands over, keeps or passes on still carries a signature that is right under a key whose digest is
the origin of the signal.
-/
namespace OpenNtl

open AtomicProgram NodeM RuntimeM

variable {F : Type}

def Event.body : Event F → Option (Signal F)
  | .handled signal => some signal
  | .released _ signal => signal
  | _ => none

variable [Scalar F]

/-- The signature is right under a key whose digest is the origin. -/
def Crypto.Vouched (c : Crypto F) (s : Signal F) : Prop :=
  ∃ key, c.nodeIdFromPublicKey key = s.origin ∧ c.verifySignal s key = .ok true

theorem Crypto.Vouched.congr {c : Crypto F} {s t : Signal F} (vouched : c.Vouched s)
    (body : t.unsigned = s.unsigned) (signature : t.signature = s.signature) : c.Vouched t := by
  obtain ⟨key, digest, verified⟩ := vouched
  have origin : t.origin = s.origin := (Signal.unsigned_eq_iff.mp body).origin
  refine ⟨key, digest.trans origin.symm, ?_⟩
  rw [c.verifySignal_congr body signature]
  exact verified

theorem Crypto.signSignal_eq_ok {c : Crypto F} {s frame : Signal F} {privateKey : Bytes}
    (signed : c.signSignal s privateKey = .ok frame) : frame.origin = s.origin ∧
      ∃ data, c.signingBytes frame = .ok data ∧ c.sign data privateKey = .ok frame.signature := by
  obtain ⟨signature, rfl⟩ := Crypto.signSignal_signs signed
  refine ⟨rfl, ?_⟩
  rw [signSignal] at signed
  cases encoded : c.signingBytes s with
  | error e =>
    rw [encoded] at signed
    cases signed
  | ok data =>
    rw [encoded] at signed
    change (c.sign data privateKey >>= fun made => .ok { s with signature := made }) = _ at signed
    cases made : c.sign data privateKey with
    | error e =>
      rw [made] at signed
      cases signed
    | ok signature' =>
      rw [made] at signed
      have same : signature' = signature := congrArg Signal.signature (Except.ok.inj signed)
      exact ⟨data, encoded, same ▸ made⟩

namespace Runtime

variable (rt : Runtime F)

def Own (s : Signal F) : Prop :=
  s.origin = rt.identity.nodeId ∧ ∃ data, rt.crypto.signingBytes s = .ok data ∧
    rt.crypto.sign data rt.identity.privateKey = .ok s.signature

def Passable (s : Signal F) : Prop := rt.crypto.Vouched s ∨ rt.Own s

/-- Every session is with the owner of its key, and has only such frames to write. -/
def SoundSessions (sessions : HashMap NodeId (Session F)) : Prop :=
  ∀ peer session, sessions.lookup peer = some session →
    rt.crypto.nodeIdFromPublicKey session.publicKey = peer ∧
      ∀ frame ∈ session.outbound, rt.Passable frame

/-- Nothing in the runtime has got past the signature check without a signature. -/
structure SoundTraffic (s : RuntimeState F) : Prop where
  sessions : rt.SoundSessions s.sessions
  pending : ∀ id body, s.pending.lookup id = some body → rt.crypto.Vouched body
  events : ∀ e ∈ s.events, ∀ body, e.body = some body → rt.crypto.Vouched body
  received : ∀ id ok, .received id ok ∈ s.log →
    ∃ signal : Signal F, signal.id = id ∧ rt.crypto.Vouched signal

/-- A step that takes no signal in, or is `Node::receive` of one that is vouched for. -/
inductive Admits (s s' : RuntimeState F) : Prop
  | quiet (marks : List Mark) (log : s'.log = s.log ++ marks)
      (none : ∀ id ok, .received id ok ∉ marks)
  | receive (signal : Signal F) (arrival : Option SynapseId) (vouched : rt.crypto.Vouched signal)
      (node : s'.node = ((rt.node.receive signal arrival).run s.node).2)
      (log : s'.log = s.log ++
        [.received signal.id ((rt.node.receive signal arrival).run s.node).1.isOk])

abbrev LetsNothingPast {α : Type} (R : α → Prop) (p : RuntimeM F α) : Prop :=
  p.Maintains rt.SoundTraffic rt.Admits R

end Runtime

omit [Scalar F] in
theorem lookup_trySendTo {sessions : HashMap NodeId (Session F)} {peer other : NodeId}
    {frame : Signal F} {session' : Session F}
    (there : (trySendTo sessions peer frame).2.lookup other = some session') :
    ∃ session, sessions.lookup other = some session ∧ session'.publicKey = session.publicKey ∧
      ∀ f ∈ session'.outbound, f ∈ session.outbound ∨ f = frame := by
  rw [trySendTo] at there
  cases found : sessions.lookup peer with
  | none =>
    rw [found] at there
    exact ⟨session', there, rfl, fun f member => Or.inl member⟩
  | some session =>
    rw [found, Option.bind_some] at there
    cases taken : session.trySend frame with
    | none =>
      rw [taken] at there
      exact ⟨session', there, rfl, fun f member => Or.inl member⟩
    | some after =>
      rw [taken] at there
      have sent : after = { session with outbound := session.outbound ++ [frame] } := by
        rw [Session.trySend] at taken
        by_cases full : session.closed ∨ peerQueueDepth ≤ session.outbound.length
        · rw [if_pos full] at taken
          cases taken
        · rw [if_neg full] at taken
          exact (Option.some.inj taken).symm
      by_cases same : other = peer
      · subst same
        obtain rfl := Option.some.inj ((AList.lookup_insert sessions).symm.trans there)
        subst sent
        refine ⟨session, found, rfl, fun f member => ?_⟩
        exact (List.mem_append.mp member).imp id List.mem_singleton.mp
      · have here := (AList.lookup_insert_ne same).symm.trans there
        exact ⟨session', here, rfl, fun f member => Or.inl member⟩

namespace Runtime

omit [Scalar F] in
/-- Whatever is in the cache once a body has been stored there is that body or an older one. -/
theorem lookup_rememberBody (rt : Runtime F) (signal : Signal F) (s : RuntimeState F)
    {id : SignalId} {body : Signal F}
    (there : ((rt.rememberBody signal).run s).2.pending.lookup id = some body) :
    (signal.id = id ∧ signal = body) ∨ s.pending.lookup id = some body := by
  have stored : ∀ room : HashMap SignalId (Signal F),
      (room.insert signal.id signal).lookup id = some body →
      (signal.id = id ∧ signal = body) ∨ room.lookup id = some body := by
    intro room found
    by_cases same : id = signal.id
    · subst same
      exact Or.inl ⟨rfl, Option.some.inj ((AList.lookup_insert room).symm.trans found)⟩
    · exact Or.inr ((AList.lookup_insert_ne same).symm.trans found)
  -- the oldest body may have gone to make room
  refine (stored _ there).imp_right fun kept => ?_
  split at kept
  · split at kept
    · exact HashMap.lookup_of_erase kept
    · exact kept
  · exact kept

variable {rt : Runtime F}

theorem Passable.outbound {s : Signal F} (passable : rt.Passable s) :
    rt.Passable (rt.outbound s) := by
  rcases passable with vouched | ⟨origin, data, encoded, signed⟩
  · exact Or.inl (vouched.congr rfl rfl)
  · exact Or.inr ⟨origin, data, encoded, signed⟩

theorem SoundSessions.trySendTo {sessions : HashMap NodeId (Session F)}
    (sound : rt.SoundSessions sessions) (peer : NodeId) {frame : Signal F}
    (passable : rt.Passable frame) : rt.SoundSessions (trySendTo sessions peer frame).2 := by
  intro other session' there
  obtain ⟨session, here, key, frames⟩ := lookup_trySendTo there
  obtain ⟨digest, known⟩ := sound other session here
  refine ⟨key ▸ digest, fun f member => ?_⟩
  rcases frames f member with old | rfl
  · exact known f old
  · exact passable

theorem SoundSessions.sendAll {sessions : HashMap NodeId (Session F)}
    (sound : rt.SoundSessions sessions) {frame : Signal F} (passable : rt.Passable frame)
    (forwards : List Forward) : rt.SoundSessions (sendAll frame forwards sessions).2 := by
  induction forwards generalizing sessions with
  | nil => exact sound
  | cons forward rest ih => exact ih (sound.trySendTo forward.peer passable)

namespace LetsNothingPast

variable {α : Type} {R : α → Prop}

theorem unmarked {f : RuntimeState F → α × RuntimeState F} (log : ∀ s, (f s).2.log = s.log)
    (keeps : ∀ s, rt.SoundTraffic s → rt.SoundTraffic (f s).2 ∧ R (f s).1) :
    rt.LetsNothingPast R (.act f) :=
  .act fun s sound => ⟨⟨(keeps s sound).1, .quiet [] (by rw [log, List.append_nil]) (by simp)⟩,
    (keeps s sound).2⟩

theorem callNode {p : NodeM F α} {R : Except NodeError α → Prop} (known : ∀ s, R (p.run s).1) :
    rt.LetsNothingPast R (RuntimeM.callNode p) :=
  unmarked (fun _ => rfl) fun s sound =>
    ⟨⟨sound.sessions, sound.pending, sound.events, sound.received⟩, known s.node⟩

theorem call {p : NodeM F α} : rt.LetsNothingPast (fun _ => True) (RuntimeM.callNode p) :=
  callNode fun _ => trivial

theorem notify {e : Event F} (vouched : ∀ body, e.body = some body → rt.crypto.Vouched body) :
    rt.LetsNothingPast (fun _ => True) (RuntimeM.notify e) := by
  refine unmarked (fun _ => rfl) fun s sound =>
    ⟨{ sound with events := fun e' member => ?_ }, trivial⟩
  rcases List.mem_append.mp member with old | new
  · exact sound.events e' old
  · exact List.mem_singleton.mp new ▸ vouched

theorem report {e : Event F} (bare : e.body = none) :
    rt.LetsNothingPast (fun _ => True) (RuntimeM.notify e) := by
  refine notify fun body carried => ?_
  rw [bare] at carried
  cases carried

theorem mark {m : Mark} (noted : ∀ id ok, m ≠ .received id ok) :
    rt.LetsNothingPast (fun _ => True) (RuntimeM.mark m) := by
  have other : ∀ id ok, .received id ok ∉ [m] := fun id ok member =>
    noted id ok (List.mem_singleton.mp member).symm
  refine .act fun s sound => ⟨⟨{ sound with received := fun id ok member => ?_ },
    .quiet [m] rfl other⟩, trivial⟩
  rcases List.mem_append.mp member with old | new
  · exact sound.received id ok old
  · exact absurd new (other id ok)

theorem takeBody (id : SignalId) : rt.LetsNothingPast
    (fun found => ∀ body, found = some body → rt.crypto.Vouched body) (RuntimeM.takeBody id) := by
  refine .act fun s sound => ⟨⟨{ sound with pending := ?_, received := ?_ },
    .quiet _ rfl (by simp)⟩, sound.pending id⟩
  · exact fun other body there => sound.pending other body (HashMap.lookup_of_erase there)
  · intro other ok member
    rcases List.mem_append.mp member with old | new
    · exact sound.received other ok old
    · cases List.mem_singleton.mp new

theorem callReceive {signal : Signal F} (vouched : rt.crypto.Vouched signal)
    (arrival : Option SynapseId) :
    rt.LetsNothingPast (fun _ => True) (rt.callReceive signal arrival) := by
  refine .act fun s sound => ⟨⟨⟨sound.sessions, sound.pending, sound.events, ?_⟩,
    .receive signal arrival vouched rfl rfl⟩, trivial⟩
  intro id ok member
  rcases List.mem_append.mp member with old | new
  · exact sound.received id ok old
  · cases List.mem_singleton.mp new
    exact ⟨signal, rfl, vouched⟩

theorem rememberBody {signal : Signal F} (vouched : rt.crypto.Vouched signal) :
    rt.LetsNothingPast (fun _ => True) (rt.rememberBody signal) := by
  refine .act fun s sound => ⟨⟨{ sound with pending := ?_, received := ?_ },
    .quiet _ rfl (by simp)⟩, trivial⟩
  · intro id body there
    rcases rt.lookup_rememberBody signal s there with ⟨-, rfl⟩ | old
    · exact vouched
    · exact sound.pending id body old
  · intro id ok member
    rcases List.mem_append.mp member with old | new
    · exact sound.received id ok old
    · cases List.mem_singleton.mp new

end LetsNothingPast

variable (rt)

theorem makeReceipt_own (receipt : Receipt) (origin : NodeId) :
    rt.LetsNothingPast (fun made => ∀ frame, made = some frame → rt.Own frame)
      (rt.makeReceipt receipt origin) := by
  have emitted : rt.LetsNothingPast (fun r => ∀ signal, r = .ok signal →
      signal.origin = rt.identity.nodeId)
      (callNode (rt.node.emit (rt.crypto.receiptSignal receipt origin))) := by
    refine LetsNothingPast.callNode fun s signal made => ?_
    rcases run : (rt.node.emit (rt.crypto.receiptSignal receipt origin)).run s with ⟨r, t⟩
    rw [run] at made
    obtain rfl : r = .ok signal := made
    obtain ⟨now, id, rfl⟩ := rt.node.emit_builds run
    exact rt.same
  have noted : rt.LetsNothingPast (fun _ => True) (mark (.answered receipt origin)) :=
    .mark fun _ _ => Mark.noConfusion
  refine noted.bind fun _ _ => emitted.bind fun r known => ?_
  cases r with
  | error e =>
    refine .pure fun frame made => ?_
    cases made
  | ok signal =>
    refine .pure fun frame made => ?_
    cases signed : rt.crypto.signSignal signal rt.identity.privateKey with
    | error e =>
      rw [signed] at made
      cases made
    | ok frame' =>
      rw [signed] at made
      obtain rfl := Option.some.inj made
      obtain ⟨origin, data⟩ := Crypto.signSignal_eq_ok signed
      exact ⟨origin.trans (known signal rfl), data⟩

theorem sendReceiptTo_letsNothingPast (receipt : Receipt) (origin : NodeId) :
    rt.LetsNothingPast (fun _ => True) (rt.sendReceiptTo receipt origin) := by
  refine (rt.makeReceipt_own receipt origin).bind fun made own => ?_
  cases made with
  | none => exact .pure trivial
  | some frame =>
    refine LetsNothingPast.unmarked (fun _ => rfl) fun s sound =>
      ⟨{ sound with sessions := ?_ }, trivial⟩
    exact sound.sessions.trySendTo origin (Or.inr (own frame rfl))

theorem sendReceipt_letsNothingPast (receipt : Receipt) (origin : NodeId) (via : PeerIdentity) :
    rt.LetsNothingPast (fun _ => True) (rt.sendReceipt receipt origin via) := by
  refine (rt.makeReceipt_own receipt origin).bind fun made own => ?_
  cases made with
  | none => exact .pure trivial
  | some frame =>
    refine LetsNothingPast.unmarked (fun _ => rfl) fun s sound =>
      ⟨{ sound with sessions := ?_ }, trivial⟩
    exact sound.sessions.trySendTo _ (Or.inr (own frame rfl))

theorem forwardSignal_letsNothingPast {body : Signal F} (passable : rt.Passable body)
    (forwards : List Forward) :
    rt.LetsNothingPast (fun _ => True) (rt.forwardSignal body forwards) := by
  rw [forwardSignal]
  by_cases none : forwards.isEmpty = true
  · rw [if_pos none]
    exact .pure trivial
  · rw [if_neg none]
    have sent : rt.LetsNothingPast (fun _ => True) (.act fun s =>
        ((sendAll (rt.outbound body) forwards s.sessions).1,
          { s with sessions := (sendAll (rt.outbound body) forwards s.sessions).2 })) :=
      LetsNothingPast.unmarked (fun _ => rfl) fun s sound =>
        ⟨{ sound with sessions := sound.sessions.sendAll passable.outbound forwards }, trivial⟩
    refine Prog.Maintains.bind sent fun split _ => ?_
    refine Prog.Maintains.bind (R := fun _ => True) ?_ fun _ _ => ?_
    · exact .forM fun forward _ => LetsNothingPast.call.bind fun _ _ => .pure trivial
    · exact (LetsNothingPast.report rfl).bind fun _ _ => .pure trivial

theorem arrivalOf_letsNothingPast (body : Signal F) :
    rt.LetsNothingPast (fun _ => True) (Runtime.arrivalOf body) := by
  rw [arrivalOf]
  cases body.trace.getLast? with
  | none => exact .pure trivial
  | some hop =>
    refine LetsNothingPast.call.bind fun found _ => ?_
    split
    · exact .pure trivial
    · exact .pure trivial

theorem releasePlan_letsNothingPast (body : Signal F) (arrival : Option SynapseId)
    (plan : Option (List Forward)) :
    rt.LetsNothingPast (fun _ => True) (rt.releasePlan body arrival plan) := by
  cases plan with
  | some forwards => exact .pure trivial
  | none =>
    refine LetsNothingPast.call.bind fun r _ => ?_
    cases r with
    | error e => exact .pure trivial
    | ok forwards => exact .pure trivial

theorem releaseSignal_letsNothingPast (id : SignalId) {body : Option (Signal F)}
    (vouched : ∀ s, body = some s → rt.crypto.Vouched s) (plan : Option (List Forward))
    (how : Release) : rt.LetsNothingPast (fun _ => True) (rt.releaseSignal id body plan how) := by
  cases body with
  | none => exact LetsNothingPast.report rfl
  | some body =>
    have mine : rt.crypto.Vouched body := vouched body rfl
    refine Prog.Maintains.bind (LetsNothingPast.notify fun s carried => ?_) fun _ _ => ?_
    · cases how with
      | threshold => exact Option.some.inj carried ▸ mine
      | guard => exact Option.some.inj carried ▸ mine
    refine (rt.arrivalOf_letsNothingPast body).bind fun arrival _ => ?_
    refine (rt.releasePlan_letsNothingPast body arrival plan).bind fun forwards _ => ?_
    refine (rt.forwardSignal_letsNothingPast (Or.inl mine) forwards).bind fun delivered _ => ?_
    split
    · exact (rt.sendReceiptTo_letsNothingPast _ _).bind fun _ _ => .pure trivial
    · exact .pure trivial

theorem reportEvicted_letsNothingPast (ev : Evicted F) :
    rt.LetsNothingPast (fun _ => True) (rt.reportEvicted ev) := by
  refine (LetsNothingPast.takeBody ev.signal.id).bind fun body _ => ?_
  refine (LetsNothingPast.report rfl).bind fun _ _ => ?_
  split
  · exact (rt.sendReceiptTo_letsNothingPast _ _).bind fun _ _ => .pure trivial
  · exact .pure trivial

theorem reportRefusal_letsNothingPast (signal : Signal F) (peer : PeerIdentity)
    (d : Disposition F) :
    rt.LetsNothingPast (fun _ => True) (rt.reportRefusal signal peer d) := by
  refine Prog.Maintains.bind (R := fun _ => True) ?_ fun _ _ => ?_
  · exact .optional fun receipt _ => rt.sendReceipt_letsNothingPast receipt signal.origin peer
  · exact .optional fun reason _ => LetsNothingPast.report rfl

theorem releaseFired_letsNothingPast {signal : Signal F} (vouched : rt.crypto.Vouched signal)
    (d : Disposition F) : rt.LetsNothingPast (fun _ => True) (rt.releaseFired signal d) := by
  refine .forM fun released _ => ?_
  by_cases own : released.id = signal.id
  · rw [if_pos own]
    exact rt.releaseSignal_letsNothingPast _ (fun s mine => Option.some.inj mine ▸ vouched) _ _
  · rw [if_neg own]
    exact (LetsNothingPast.takeBody released.id).bind fun body known =>
      rt.releaseSignal_letsNothingPast _ known _ _

theorem handleArrival_letsNothingPast {signal : Signal F} (vouched : rt.crypto.Vouched signal)
    (peer : PeerIdentity) :
    rt.LetsNothingPast (fun _ => True) (rt.handleArrival signal peer) := by
  refine Prog.Maintains.bind (R := fun _ => True) ?_ fun arrival _ => ?_
  · refine LetsNothingPast.call.bind fun r _ => ?_
    split
    · exact .pure trivial
    · exact .pure trivial
  refine (LetsNothingPast.callReceive vouched arrival).bind fun result _ => ?_
  cases result with
  | error e => exact .pure trivial
  | ok d =>
    refine Prog.Maintains.bind (R := fun _ => True) ?_ fun _ _ => ?_
    · exact .optional fun ev _ => rt.reportEvicted_letsNothingPast ev
    refine (rt.reportRefusal_letsNothingPast signal peer d).bind fun _ _ => ?_
    refine (rt.releaseFired_letsNothingPast vouched d).bind fun _ _ => ?_
    by_cases queued : d.queued = true
    · rw [if_pos queued]
      exact LetsNothingPast.rememberBody vouched
    · rw [if_neg queued]
      exact .pure trivial

theorem handleReceipt_letsNothingPast (signal : Signal F) (peer : PeerIdentity) :
    rt.LetsNothingPast (fun _ => True) (rt.handleReceipt signal peer) := by
  rw [handleReceipt]
  cases rt.crypto.receiptFromValue signal.payload with
  | none => exact .pure trivial
  | some receipt =>
    refine LetsNothingPast.call.bind fun r _ => ?_
    split
    · exact LetsNothingPast.report rfl
    · exact .pure trivial

theorem handleBadSignature_letsNothingPast (peer : PeerIdentity) :
    rt.LetsNothingPast (fun _ => True) (rt.handleBadSignature peer) := by
  refine Prog.Maintains.bind (R := fun _ => True) ?_ fun pruned _ => ?_
  · refine LetsNothingPast.call.bind fun r _ => ?_
    split
    · refine LetsNothingPast.call.bind fun outcome _ => ?_
      split
      · exact .pure trivial
      · exact .pure trivial
    · exact .pure trivial
  · refine (LetsNothingPast.report rfl).bind fun _ _ => ?_
    split
    · exact .throw _
    · exact .pure trivial

theorem originKey_belongs {peer : PeerIdentity}
    (owner : rt.crypto.nodeIdFromPublicKey peer.publicKey = peer.nodeId) (signal : Signal F) :
    rt.LetsNothingPast
      (fun found => ∀ key, found = some key → rt.crypto.nodeIdFromPublicKey key = signal.origin)
      (originKey signal peer) := by
  rw [originKey]
  by_cases direct : signal.origin = peer.nodeId
  · rw [if_pos direct]
    refine .pure fun key found => ?_
    rw [← Option.some.inj found, owner, direct]
  · rw [if_neg direct]
    refine LetsNothingPast.unmarked (fun _ => rfl) fun s sound => ⟨sound, fun key found => ?_⟩
    obtain ⟨session, there, rfl⟩ := Option.map_eq_some_iff.mp found
    exact (sound.sessions signal.origin session there).1

theorem handleVerified_letsNothingPast {signal : Signal F} (vouched : rt.crypto.Vouched signal)
    (peer : PeerIdentity) :
    rt.LetsNothingPast (fun _ => True) (rt.handleVerified peer signal) := by
  have clamped : rt.crypto.Vouched
      (clampInboundHeaders signal rt.node.config.propagation).2 := vouched.congr rfl rfl
  rw [handleVerified]
  by_cases malformed : Scalar.isFinite signal.weight = false
  · rw [if_pos malformed]
    exact LetsNothingPast.report rfl
  · rw [if_neg malformed]
    have next : rt.LetsNothingPast (fun _ => True)
        (if (clampInboundHeaders signal rt.node.config.propagation).2.signalType = .receipt then
          rt.handleReceipt (clampInboundHeaders signal rt.node.config.propagation).2 peer
        else rt.handleArrival (clampInboundHeaders signal rt.node.config.propagation).2 peer) := by
      split
      · exact rt.handleReceipt_letsNothingPast _ peer
      · exact rt.handleArrival_letsNothingPast clamped peer
    dsimp only
    split
    · exact (LetsNothingPast.report rfl).bind fun _ _ => next
    · exact next

theorem handleFrame_letsNothingPast {peer : PeerIdentity}
    (owner : rt.crypto.nodeIdFromPublicKey peer.publicKey = peer.nodeId) (signal : Signal F) :
    rt.LetsNothingPast (fun _ => True) (rt.handleFrame peer signal) := by
  rw [handleFrame_eq]
  refine (rt.originKey_belongs owner signal).bind fun found belongs => ?_
  cases found with
  | none => exact LetsNothingPast.report rfl
  | some key =>
    rw [handleKeyed]
    by_cases bad : (rt.crypto.verifySignal signal key).toOption.getD false = false
    · rw [if_pos bad]
      exact rt.handleBadSignature_letsNothingPast peer
    · rw [if_neg bad]
      have verified : rt.crypto.verifySignal signal key = .ok true := by
        cases checked : rt.crypto.verifySignal signal key with
        | error e =>
          rw [checked] at bad
          exact absurd rfl bad
        | ok right =>
          rw [checked] at bad
          exact congrArg Except.ok (Bool.eq_true_of_not_eq_false bad)
      exact rt.handleVerified_letsNothingPast ⟨key, belongs key rfl, verified⟩ peer

theorem maintenanceTick_letsNothingPast (ticks : ℕ) :
    rt.LetsNothingPast (fun _ => True) (rt.maintenanceTick ticks) := by
  refine Prog.Maintains.bind (R := fun _ => True) ?_ fun _ _ => ?_
  · refine LetsNothingPast.call.bind fun r _ => ?_
    cases r with
    | error e => exact .pure trivial
    | ok released =>
      refine .forM fun queued _ => ?_
      exact (LetsNothingPast.takeBody queued.id).bind fun body known =>
        rt.releaseSignal_letsNothingPast _ known _ _
  · dsimp only
    split
    · exact .pure trivial
    · exact LetsNothingPast.call.bind fun _ _ => LetsNothingPast.call.bind fun _ _ => .pure trivial

theorem emit_letsNothingPast (builder : SignalBuilder F) :
    rt.LetsNothingPast (fun _ => True) (rt.emit builder) := by
  have built : rt.LetsNothingPast (fun r => ∀ signal, r = .ok signal →
      signal.origin = rt.identity.nodeId) (callNode (rt.node.emit builder)) := by
    refine LetsNothingPast.callNode fun s signal made => ?_
    rcases run : (rt.node.emit builder).run s with ⟨r, t⟩
    rw [run] at made
    obtain rfl : r = .ok signal := made
    obtain ⟨now, id, rfl⟩ := rt.node.emit_builds run
    exact rt.same
  rw [emit]
  refine built.bind fun r known => ?_
  cases r with
  | error e => exact .throw _
  | ok signal =>
    dsimp only
    cases signed : rt.crypto.signSignal signal rt.identity.privateKey with
    | error e => exact .throw _
    | ok frame =>
      obtain ⟨origin, data⟩ := Crypto.signSignal_eq_ok signed
      have own : rt.Own frame := ⟨origin.trans (known signal rfl), data⟩
      have passable : rt.Passable frame := Or.inr own
      refine Prog.Maintains.bind (R := fun _ => True) ?_ fun _ _ => .pure trivial
      rw [route]
      refine LetsNothingPast.call.bind fun r _ => ?_
      cases r with
      | error e => exact .throw _
      | ok d =>
        have sent : rt.LetsNothingPast (fun _ => True) (.act fun s =>
            ((sendAll (rt.outbound frame) d.forwardTo s.sessions).1.1.length,
              { s with sessions := (sendAll (rt.outbound frame) d.forwardTo s.sessions).2 })) :=
          LetsNothingPast.unmarked (fun _ => rfl) fun s sound =>
            ⟨{ sound with sessions := sound.sessions.sendAll passable.outbound d.forwardTo },
              trivial⟩
        exact Prog.Maintains.bind sent fun _ _ => LetsNothingPast.report rfl

end Runtime

inductive RuntimeTask where
  | application (caller : ℕ)
  | readLoop (session : ℕ)
  | maintenance
  deriving DecidableEq

namespace Runtime

variable (rt : Runtime F)

/-- What a task runs from one emission, frame or tick to the next. A handshake has made sure that
the identifier of a peer is the digest of its key; of a frame nothing is known. -/
def Offers : RuntimeTask → RuntimeM F Unit → Prop
  | .application _, p => ∃ builder, p = rt.emit builder >>= fun _ => pure ()
  | .readLoop _, p => ∃ peer signal,
    rt.crypto.nodeIdFromPublicKey peer.publicKey = peer.nodeId ∧ p = rt.handleFrame peer signal
  | .maintenance, p => ∃ ticks, p = rt.maintenanceTick ticks

omit [Scalar F] in
/-- What everything else may do between two steps: sessions begin with nothing to write, write
frames and end, the application takes its events, time passes, the store changes or fails. -/
structure Elsewhere (s s' : RuntimeState F) : Prop where
  sessions : ∀ peer session', s'.sessions.lookup peer = some session' →
    (rt.crypto.nodeIdFromPublicKey session'.publicKey = peer ∧ session'.outbound = []) ∨
      ∃ session, s.sessions.lookup peer = some session ∧
        session'.publicKey = session.publicKey ∧ session'.outbound ⊆ session.outbound
  pending : s'.pending = s.pending
  events : s'.events ⊆ s.events
  log : s'.log = s.log

abbrev RunsTo (P₀ P : Pool RuntimeTask (RuntimeState F) RuntimeError Unit) : Prop :=
  Pool.Run rt.Offers rt.Elsewhere (fun _ _ => True) P₀ P

end Runtime

omit [Scalar F] in
/-- A runtime without sessions, bodies or events, and no task under way. -/
structure Booted (P : Pool RuntimeTask (RuntimeState F) RuntimeError Unit) : Prop where
  idle : P.Quiescent
  sessions : P.state.sessions = ∅
  pending : P.state.pending = ∅
  events : P.state.events = []
  log : P.state.log = []

namespace Runtime

variable {rt : Runtime F} {P₀ P : Pool RuntimeTask (RuntimeState F) RuntimeError Unit}

theorem SoundTraffic.elsewhere {s s' : RuntimeState F} (sound : rt.SoundTraffic s)
    (change : rt.Elsewhere s s') : rt.SoundTraffic s' where
  sessions := fun peer session' there => by
    rcases change.sessions peer session' there with ⟨digest, empty⟩ | ⟨session, here, key, less⟩
    · refine ⟨digest, fun frame member => ?_⟩
      rw [empty] at member
      cases member
    · obtain ⟨digest, frames⟩ := sound.sessions peer session here
      exact ⟨key ▸ digest, fun frame member => frames frame (less member)⟩
  pending := change.pending ▸ sound.pending
  events := fun e member => sound.events e (change.events member)
  received := change.log ▸ sound.received

theorem Booted.sound (start : Booted P₀) : rt.SoundTraffic P₀.state where
  sessions := fun peer session there => by
    rw [start.sessions] at there
    cases there
  pending := fun id body there => by
    rw [start.pending] at there
    cases there
  events := fun e member => by
    rw [start.events] at member
    cases member
  received := fun id ok member => by
    rw [start.log] at member
    cases member

theorem RunsTo.sound (start : Booted P₀) (run : rt.RunsTo P₀ P) : rt.SoundTraffic P.state ∧
    ∀ task, ¬ (P.task task).Finished → rt.Admits P.state (P.advance task).state := by
  refine run.maintains (fun task p offered => ?_) (fun s s' sound => sound.elsewhere)
    (Booted.sound start) start.idle
  cases task with
  | application caller =>
    obtain ⟨builder, rfl⟩ := offered
    exact (rt.emit_letsNothingPast builder).bind fun _ _ => .pure trivial
  | readLoop session =>
    obtain ⟨peer, signal, owner, rfl⟩ := offered
    exact rt.handleFrame_letsNothingPast owner signal
  | maintenance =>
    obtain ⟨ticks, rfl⟩ := offered
    exact rt.maintenanceTick_letsNothingPast ticks

end Runtime

/-- The owner of a key has signed these signals and no others, and nobody else can sign with it. -/
structure Crypto.SignedOnly (c : Crypto F) (key : Bytes) (signed : Signal F → Prop) : Prop where
  unforged : ∀ data signature, c.verify data signature key = .ok true →
    ∃ s, signed s ∧ c.signingBytes s = .ok data
  apart : ∀ key', c.nodeIdFromPublicKey key' = c.nodeIdFromPublicKey key → key' = key
  injective : ∀ x y bytes, c.toVec x = .ok bytes → c.toVec y = .ok bytes → x = y

theorem Crypto.SignedOnly.genuine {c : Crypto F} {key : Bytes} {signed : Signal F → Prop}
    (only : c.SignedOnly key signed) {body : Signal F} (vouched : c.Vouched body)
    (claims : body.origin = c.nodeIdFromPublicKey key) : ∃ s, signed s ∧ s.SameBody body := by
  obtain ⟨key', digest, verified⟩ := vouched
  obtain rfl := only.apart key' (digest.trans claims)
  rw [verifySignal] at verified
  cases encoded : c.signingBytes body with
  | error e =>
    rw [encoded] at verified
    cases verified
  | ok data =>
    rw [encoded] at verified
    obtain ⟨s, mine, same⟩ := only.unforged data body.signature verified
    exact ⟨s, mine, Signal.unsigned_eq_iff.mp (only.injective _ _ data same encoded)⟩

omit [Scalar F] in
/-- A body that has been handed to the application, waits in the cache, or is queued for a peer. -/
inductive RuntimeState.InHands (s : RuntimeState F) (body : Signal F) : Prop
  | given {e : Event F} (member : e ∈ s.events) (carried : e.body = some body)
  | kept {id : SignalId} (cached : s.pending.lookup id = some body)
  | queued {peer : NodeId} {session : Session F} (live : s.sessions.lookup peer = some session)
      (frame : body ∈ session.outbound)

/-- Whatever frames arrive and however the tasks interleave, all that a runtime handed over, kept or
passed on carries a signature that is right under a key whose digest is the origin it claims, its
own frames apart; and so does the signal in any step that calls `Node::receive`. Where a key cannot
be forged, its owner has signed it. -/
theorem traffic_is_genuine {rt : Runtime F}
    {P₀ P : Pool RuntimeTask (RuntimeState F) RuntimeError Unit} (start : Booted P₀)
    (run : rt.RunsTo P₀ P) :
    rt.SoundTraffic P.state ∧
      (∀ task, ¬ (P.task task).Finished → rt.Admits P.state (P.advance task).state) ∧
      ∀ key signed, rt.crypto.SignedOnly key signed →
        rt.crypto.nodeIdFromPublicKey key ≠ rt.identity.nodeId →
        ∀ body, P.state.InHands body ∨ rt.crypto.Vouched body →
          body.origin = rt.crypto.nodeIdFromPublicKey key → ∃ s, signed s ∧ s.SameBody body := by
  obtain ⟨sound, admits⟩ := run.sound start
  refine ⟨sound, admits, fun key signed only other body known claims => only.genuine ?_ claims⟩
  rcases known with hands | vouched
  swap
  · exact vouched
  cases hands with
  | given member carried => exact sound.events _ member body carried
  | kept cached => exact sound.pending _ body cached
  | queued live frame =>
    rcases (sound.sessions _ _ live).2 body frame with vouched | own
    · exact vouched
    · exact absurd (claims.symm.trans own.1) other

/-! The one signal that a key has signed, after a read loop has seen it. -/

section Sample

def onlySigned : Signal ℚ := { bare ⟨7⟩ with weight := 1 / 10, ttl := 5 }

def onceCrypto : Crypto ℚ := { bareCrypto with
  verify := fun data signature key =>
    .ok (decide (signature = key ++ data ∧ bareCrypto.signingBytes onlySigned = .ok data)) }

def onceRuntime : Runtime ℚ := { edgeRuntime with crypto := onceCrypto }

def booted : Pool RuntimeTask (RuntimeState ℚ) RuntimeError Unit :=
  ⟨fun _ => .pure (), ⟨edgeNode.build .new .maximal 0 [], ∅, ∅, [], [], []⟩⟩

def bareSender : PeerIdentity := ⟨⟨[]⟩, []⟩

def bareFrame : Signal ℚ := { onlySigned with signature := toBeBytes 16 7 }

theorem once_signed : onceCrypto.SignedOnly [] (fun s => s = onlySigned) where
  unforged := fun _ _ verified =>
    ⟨onlySigned, rfl, (of_decide_eq_true (Except.ok.inj verified)).2⟩
  apart := fun _ same => congrArg NodeId.bytes same
  injective := fun _ _ _ encoded encoded' => bareCbor_lawful.injective encoded encoded'

theorem bare_frame_is_genuine : ∃ P body, onceRuntime.RunsTo booted P ∧
    P.state.pending.lookup ⟨7⟩ = some body ∧ onlySigned.SameBody body := by
  have start : Booted booted := ⟨fun _ => trivial, rfl, rfl, rfl, rfl⟩
  have begun : onceRuntime.RunsTo booted booted := .refl
  have offered : onceRuntime.Offers (.readLoop 0) (onceRuntime.handleFrame bareSender bareFrame) :=
    ⟨bareSender, bareFrame, rfl, rfl⟩
  obtain ⟨P, run, state, -⟩ := Pool.Run.perform (fun _ _ => trivial) begun start.idle offered
  have cached : (P.state.pending.lookup ⟨7⟩).map Signal.origin =
      some (onceCrypto.nodeIdFromPublicKey []) := by
    rw [state]
    decide +kernel
  obtain ⟨body, found, claims⟩ := Option.map_eq_some_iff.mp cached
  obtain ⟨s, rfl, same⟩ := (traffic_is_genuine start run).2.2 [] _ once_signed (by decide) body
    (Or.inl (.kept found)) claims
  exact ⟨P, body, run, found, same⟩

end Sample
end OpenNtl
