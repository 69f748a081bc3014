import OpenNtl.Planning
import OpenNtl.Receive
import OpenNtl.Runtime

/-! # The receipt of a released signal, now or later

The gate lets an arrival go on its own arrival, or holds it and lets it go later. Two pieces of
code then decide which receipt its origin gets.
-/
namespace OpenNtl

open AtomicProgram NodeM RuntimeM

variable {F : Type}

def Takes (sessions : HashMap NodeId (Session F)) (peer : NodeId) : Prop :=
  ∃ session ∈ sessions.lookup peer,
    session.closed = false ∧ session.outbound.length < peerQueueDepth

theorem trySend_isSome_iff (session : Session F) (signal : Signal F) :
    (session.trySend signal).isSome = true ↔
      session.closed = false ∧ session.outbound.length < peerQueueDepth := by
  unfold Session.trySend
  by_cases full : session.closed = true ∨ peerQueueDepth ≤ session.outbound.length
  · rw [if_pos full]
    simp only [Option.isSome_none, Bool.false_eq_true, false_iff]
    rintro ⟨open', room⟩
    rcases full with closed | full
    · rw [open'] at closed
      cases closed
    · omega
  · rw [if_neg full]
    simp only [Option.isSome_some, true_iff]
    push Not at full
    exact ⟨by simpa using full.1, full.2⟩

/-- A frame is taken exactly when the session takes one, and one that is not changes nothing. -/
theorem trySendTo_cases (sessions : HashMap NodeId (Session F)) (peer : NodeId)
    (signal : Signal F) :
    (Takes sessions peer ∧ (trySendTo sessions peer signal).1 = true) ∨
    (¬ Takes sessions peer ∧ trySendTo sessions peer signal = (false, sessions)) := by
  unfold trySendTo Takes
  cases found : sessions.lookup peer with
  | none => exact Or.inr ⟨by simp, rfl⟩
  | some session =>
    have takes := trySend_isSome_iff session signal
    cases sent : session.trySend signal with
    | none =>
      rw [sent] at takes
      refine Or.inr ⟨?_, by simp [sent]⟩
      rintro ⟨session', same, room⟩
      cases same
      exact Bool.false_ne_true (takes.mpr room)
    | some after =>
      rw [sent] at takes
      exact Or.inl ⟨⟨session, rfl, takes.mp rfl⟩, by simp [sent]⟩

/-- Some forward is taken exactly when the session of some chosen peer takes a frame. -/
theorem sendAll_sent_iff (signal : Signal F) (forwards : List Forward)
    (sessions : HashMap NodeId (Session F)) :
    0 < (sendAll signal forwards sessions).1.1.length ↔
      ∃ f ∈ forwards, Takes sessions f.peer := by
  induction forwards with
  | nil => simp [sendAll]
  | cons f rest ih =>
    unfold sendAll
    rcases trySendTo_cases sessions f.peer signal with ⟨takes, sent⟩ | ⟨none, failed⟩
    · simp only [sent, if_true]
      exact ⟨fun _ => ⟨f, List.mem_cons_self, takes⟩, fun _ => Nat.succ_pos _⟩
    · simp only [failed, Bool.false_eq_true, if_false, ih, List.mem_cons, exists_eq_or_imp, none,
        false_or]

theorem callNode_run {α : Type} (p : NodeM F α) (s : RuntimeState F) :
    (callNode p).run s = (.ok (p.run s.node).1, { s with node := (p.run s.node).2 }) := rfl

variable [Scalar F]

namespace Runtime

variable (rt : Runtime F)

theorem failForwards_run (failed : List Forward) (s : RuntimeState F) :
    ∃ node, ((failed.forM fun forward => do
      let _ ← callNode (rt.node.failForward forward.journalId)) : RuntimeM F PUnit).run s =
        (.ok ⟨⟩, { s with node := node }) := by
  induction failed generalizing s with
  | nil => exact ⟨s.node, rfl⟩
  | cons f rest ih => exact ih _

theorem forwardSignal_run (signal : Signal F) (forwards : List Forward) (s : RuntimeState F) :
    ∃ sent t, (rt.forwardSignal signal forwards).run s = (.ok sent, t) ∧ t.log = s.log ∧
      (sent = true ↔ ∃ f ∈ forwards, Takes s.sessions f.peer) := by
  unfold forwardSignal
  by_cases empty : forwards.isEmpty = true
  · rw [if_pos empty, List.isEmpty_iff.mp empty]
    exact ⟨false, s, rfl, rfl, by simp⟩
  · rw [if_neg empty]
    let split := sendAll (rt.outbound signal) forwards s.sessions
    obtain ⟨node, recorded⟩ := rt.failForwards_run split.1.2 { s with sessions := split.2 }
    refine ⟨decide (0 < split.1.1.length), _, Prog.run_bind_ok recorded, rfl, ?_⟩
    rw [decide_eq_true_eq]
    exact sendAll_sent_iff _ _ _

/-- A receipt is noted before it is made, and neither failure nor success says more. -/
theorem makeReceipt_run (receipt : Receipt) (origin : NodeId) (s : RuntimeState F) :
    ∃ signal t, (rt.makeReceipt receipt origin).run s = (.ok signal, t) ∧
      t.log = s.log ++ [.answered receipt origin] ∧ t.sessions = s.sessions := by
  let emitted := (rt.node.emit (rt.crypto.receiptSignal receipt origin)).run s.node
  let after : RuntimeState F :=
    { s with node := emitted.2, log := s.log ++ [.answered receipt origin] }
  have noted : (mark (.answered receipt origin)).run s =
      (.ok (), { s with log := s.log ++ [.answered receipt origin] }) := rfl
  unfold makeReceipt
  rw [Prog.run_bind_ok noted, Prog.run_bind_ok (callNode_run _ _)]
  cases result : ((rt.node.emit (rt.crypto.receiptSignal receipt origin)).run s.node).1 with
  | error e => exact ⟨none, after, rfl, rfl, rfl⟩
  | ok signal => exact ⟨_, after, rfl, rfl, rfl⟩

theorem sendReceiptTo_run (receipt : Receipt) (origin : NodeId) (s : RuntimeState F) :
    ∃ taken t, (rt.sendReceiptTo receipt origin).run s = (.ok taken, t) ∧
      t.log = s.log ++ [.answered receipt origin] := by
  obtain ⟨signal, t, made, log, -⟩ := rt.makeReceipt_run receipt origin s
  cases signal with
  | none => exact ⟨false, t, Prog.run_bind_ok made, log⟩
  | some signal =>
    have next : (rt.sendReceiptTo receipt origin).run s = _ := Prog.run_bind_ok made
    exact ⟨_, _, next, log⟩

theorem sendReceipt_run (receipt : Receipt) (origin : NodeId) (via : PeerIdentity)
    (s : RuntimeState F) :
    ∃ t, (rt.sendReceipt receipt origin via).run s = (.ok (), t) ∧
      t.log = s.log ++ [.answered receipt origin] := by
  obtain ⟨signal, t, made, log, -⟩ := rt.makeReceipt_run receipt origin s
  cases signal with
  | none => exact ⟨t, Prog.run_bind_ok made, log⟩
  | some signal =>
    have next : (rt.sendReceipt receipt origin via).run s = _ := Prog.run_bind_ok made
    exact ⟨_, next, log⟩

def arrivedOver (body : Signal F) (s : NodeState F) : Option SynapseId :=
  match body.trace.getLast? with
  | none => none
  | some hop =>
    if nextFault s = none then (s.store.synapseForPeer hop).map SynapseRecord.id else none

def lookedUp (body : Signal F) (s : NodeState F) : NodeState F :=
  match body.trace.getLast? with
  | none => s
  | some _ => s.stored s.store

omit [Scalar F] in
theorem arrivalOf_run (body : Signal F) (s : RuntimeState F) :
    (arrivalOf body).run s =
      (.ok (arrivedOver body s.node), { s with node := lookedUp body s.node }) := by
  unfold arrivalOf arrivedOver lookedUp
  cases body.trace.getLast? with
  | none => rfl
  | some hop =>
    dsimp only
    rw [Prog.run_bind_ok (callNode_run _ s)]
    cases fault : nextFault s.node with
    | none => simp [Node.synapseForPeer, tryStore, fault, NodeState.stored]
    | some f => simp [Node.synapseForPeer, tryStore, fault, NodeState.stored]

theorem releasePlan_run (body : Signal F) (arrival : Option SynapseId) (s : RuntimeState F) :
    ∃ forwards t, (rt.releasePlan body arrival none).run s = (.ok forwards, t) ∧
      t.sessions = s.sessions ∧ t.log = s.log ∧
      ((StoreAnswers s.node (rt.node.planCalls body arrival s.node.clock s.node.store s.node.rng) ∧
        forwards.map Forward.peer = (rt.node.onward body arrival s.node.clock s.node.store
          s.node.rng).map fun c => c.synapse.remoteNode) ∨
       (¬ StoreAnswers s.node
          (rt.node.planCalls body arrival s.node.clock s.node.store s.node.rng) ∧
        forwards = [])) := by
  have planned : (rt.node.planRelease body arrival).run s.node =
      (rt.node.planForwarding body arrival s.node.clock).run s.node := rfl
  have next : (rt.releasePlan body arrival none).run s = _ :=
    Prog.run_bind_ok (callNode_run (rt.node.planRelease body arrival) s)
  rw [next, planned]
  rcases rt.node.planForwarding_outcome body arrival s.node.clock s.node with
    ⟨answers, forwards, node, run, peers⟩ | ⟨fails, e, node, run⟩
  · rw [run]
    exact ⟨forwards, _, rfl, rfl, rfl, Or.inl ⟨answers, peers⟩⟩
  · rw [run]
    exact ⟨[], _, rfl, rfl, rfl, Or.inr ⟨fails, rfl⟩⟩

theorem finishRelease_run {body : Signal F} (owed : body.requiresReceipt = true) (id : SignalId)
    (forwards : List Forward) (s : RuntimeState F) :
    ∃ sent t, (rt.finishRelease id body forwards).run s = (.ok (), t) ∧
      (sent = true ↔ ∃ f ∈ forwards, Takes s.sessions f.peer) ∧
      t.log = s.log ++ [.answered (releaseReceipt id body forwards sent) body.origin] := by
  obtain ⟨sent, t, forwarded, log, taken⟩ := rt.forwardSignal_run body forwards s
  obtain ⟨b, u, answered, history⟩ :=
    rt.sendReceiptTo_run (releaseReceipt id body forwards sent) body.origin t
  refine ⟨sent, u, ?_, taken, by rw [history, log]⟩
  unfold finishRelease
  rw [Prog.run_bind_ok forwarded, if_pos owed, Prog.run_bind_ok answered]
  rfl

/-- The state once a release has been reported and its way in looked up. -/
def reported (id : SignalId) (body : Signal F) (how : Release) (s : RuntimeState F) :
    RuntimeState F :=
  { s with
    node := lookedUp body s.node
    events := s.events ++ [match how with
      | .threshold => .handled body
      | .guard => .released id (some body)] }

theorem releaseSignal_run (id : SignalId) (body : Signal F) (plan : Option (List Forward))
    (how : Release) (s : RuntimeState F) :
    (rt.releaseSignal id (some body) plan how).run s =
      (rt.releasePlan body (arrivedOver body s.node) plan >>= rt.finishRelease id body).run
        (reported id body how s) := by
  let noted : RuntimeState F := { s with
    events := s.events ++ [match how with
      | .threshold => .handled body
      | .guard => .released id (some body)] }
  have next : (rt.releaseSignal id (some body) plan how).run s =
      (arrivalOf body >>= fun arrival =>
        rt.releasePlan body arrival plan >>= rt.finishRelease id body).run noted := rfl
  rw [next, Prog.run_bind_ok (arrivalOf_run body noted)]
  rfl

theorem releaseSignal_planned {body : Signal F} (owed : body.requiresReceipt = true)
    (id : SignalId) (forwards : List Forward) (how : Release) (s : RuntimeState F) :
    ∃ sent t, (rt.releaseSignal id (some body) (some forwards) how).run s = (.ok (), t) ∧
      (sent = true ↔ ∃ f ∈ forwards, Takes s.sessions f.peer) ∧
      t.log = s.log ++ [.answered (releaseReceipt id body forwards sent) body.origin] := by
  rw [releaseSignal_run]
  exact rt.finishRelease_run owed id forwards (reported id body how s)

theorem releaseSignal_unplanned {body : Signal F} (owed : body.requiresReceipt = true)
    (id : SignalId) (how : Release) (s : RuntimeState F) :
    ∃ forwards sent t, (rt.releaseSignal id (some body) none how).run s = (.ok (), t) ∧
      (sent = true ↔ ∃ f ∈ forwards, Takes s.sessions f.peer) ∧
      t.log = s.log ++ [.answered (releaseReceipt id body forwards sent) body.origin] ∧
      ((StoreAnswers (lookedUp body s.node) (rt.node.planCalls body (arrivedOver body s.node)
          s.node.clock s.node.store s.node.rng) ∧
        forwards.map Forward.peer = (rt.node.onward body (arrivedOver body s.node) s.node.clock
          s.node.store s.node.rng).map fun c => c.synapse.remoteNode) ∨
       (¬ StoreAnswers (lookedUp body s.node) (rt.node.planCalls body (arrivedOver body s.node)
          s.node.clock s.node.store s.node.rng) ∧
        forwards = [])) := by
  have same : (lookedUp body s.node).clock = s.node.clock ∧
      (lookedUp body s.node).store = s.node.store ∧ (lookedUp body s.node).rng = s.node.rng := by
    unfold lookedUp
    cases body.trace.getLast? with
    | none => exact ⟨rfl, rfl, rfl⟩
    | some hop => exact ⟨rfl, rfl, rfl⟩
  obtain ⟨clock, store, rng⟩ := same
  obtain ⟨forwards, planned, plan, sessions, log, chosen⟩ := rt.releasePlan_run body
    (arrivedOver body s.node) (reported id body how s)
  obtain ⟨sent, t, finish, taken, history⟩ := rt.finishRelease_run owed id forwards planned
  refine ⟨forwards, sent, t, ?_, ?_, ?_, ?_⟩
  · rw [releaseSignal_run, Prog.run_bind_ok plan, finish]
  · rw [sessions] at taken
    exact taken
  · rw [history, log]
    rfl
  · simp only [reported, clock, store, rng] at chosen
    exact chosen

/-- Whether the first receipt made for the origin says that the signal was delivered. -/
def firstAnswer (origin : NodeId) (p : RuntimeM F Unit) (s : RuntimeState F) : Option Bool :=
  (((p.run { s with log := [] }).2.log.findSome? fun
    | .answered receipt target => if target = origin then some receipt else none
    | _ => none)).map Receipt.isDelivered

/-- What the origin is told if the gate lets the arrival go at once. This is what the read loop
does with the answer of `receive`, for the arrival alone. -/
def statusOnArrival (signal : Signal F) (peer : PeerIdentity) (arrival : Option SynapseId)
    (s : NodeState F) (u : RuntimeState F) : Option Bool :=
  match ((rt.node.receive signal arrival).run s).1 with
  | .error _ => none
  | .ok d =>
    firstAnswer signal.origin (do
      rt.reportRefusal signal peer d
      rt.releaseFired signal
        { d with handleLocally := d.handleLocally.filter fun q => q.id = signal.id }) u

def statusOnRelease (signal : Signal F) (how : Release) (v : RuntimeState F) : Option Bool :=
  firstAnswer signal.origin (rt.releaseSignal signal.id (some signal) none how) v

/-- Some choice made over these tables with these draws has a session that takes a frame. -/
def Reaches (signal : Signal F) (arrival : Option SynapseId) (nowNs : ℕ) (st : MemoryStore F)
    (rng : Rng) (sessions : HashMap NodeId (Session F)) : Prop :=
  ∃ c ∈ rt.node.onward signal arrival nowNs st rng, Takes sessions c.synapse.remoteNode

omit [Scalar F] in
theorem reach_congr {forwards : List Forward} {chosen : List (Chosen F)}
    (peers : forwards.map Forward.peer = chosen.map fun c => c.synapse.remoteNode)
    (sessions : HashMap NodeId (Session F)) :
    (∃ f ∈ forwards, Takes sessions f.peer) ↔
      ∃ c ∈ chosen, Takes sessions c.synapse.remoteNode := by
  have left : (∃ f ∈ forwards, Takes sessions f.peer) ↔
      ∃ p ∈ forwards.map Forward.peer, Takes sessions p := by simp
  rw [left, peers]
  simp

omit [Scalar F] in
theorem empty_congr {forwards : List Forward} {chosen : List (Chosen F)}
    (peers : forwards.map Forward.peer = chosen.map fun c => c.synapse.remoteNode) :
    forwards = [] ↔ chosen = [] := by
  rw [← List.map_eq_nil_iff (f := Forward.peer), peers, List.map_eq_nil_iff]

omit [Scalar F] in
theorem releaseReceipt_isDelivered (id : SignalId) (body : Signal F) (forwards : List Forward)
    (sent : Bool) :
    (releaseReceipt id body forwards sent).isDelivered = true ↔ forwards = [] ∨ sent = true := by
  unfold releaseReceipt
  cases forwards with
  | nil => simp [Receipt.isDelivered, Receipt.delivered]
  | cons f rest =>
    cases sent with
    | true => simp [Receipt.isDelivered, Receipt.delivered]
    | false => simp [Receipt.isDelivered, Receipt.rejected]

omit [Scalar F] in
theorem firstAnswer_eq {origin : NodeId} {p : RuntimeM F Unit} {s t : RuntimeState F}
    {r : Except RuntimeError Unit} {receipt : Receipt} (more : List Mark)
    (run : p.run { s with log := [] } = (r, t)) (log : t.log = .answered receipt origin :: more) :
    firstAnswer origin p s = some receipt.isDelivered := by
  unfold firstAnswer
  rw [run, log]
  simp

/-- Later, the origin is told of a delivery unless a plan was made and none of its peers takes a
frame. -/
theorem statusOnRelease_eq {signal : Signal F} (owed : signal.requiresReceipt = true)
    (how : Release) (v : RuntimeState F) :
    ∃ delivered, rt.statusOnRelease signal how v = some delivered ∧
      (delivered = true ↔
        (StoreAnswers (lookedUp signal v.node) (rt.node.planCalls signal
          (arrivedOver signal v.node) v.node.clock v.node.store v.node.rng) →
        rt.node.onward signal (arrivedOver signal v.node) v.node.clock v.node.store
          v.node.rng ≠ [] →
        rt.Reaches signal (arrivedOver signal v.node) v.node.clock v.node.store v.node.rng
          v.sessions)) := by
  obtain ⟨forwards, sent, t, run, taken, log, chosen⟩ :=
    rt.releaseSignal_unplanned owed signal.id how { v with log := [] }
  refine ⟨_, firstAnswer_eq [] run log, ?_⟩
  rw [releaseReceipt_isDelivered, taken]
  rcases chosen with ⟨answers, peers⟩ | ⟨fails, rfl⟩
  · rw [reach_congr peers, empty_congr peers]
    constructor
    · rintro (empty | reaches) - some
      · exact absurd empty some
      · exact reaches
    · intro reaches
      by_cases empty : rt.node.onward signal (arrivedOver signal v.node) v.node.clock
          v.node.store v.node.rng = []
      · exact Or.inl empty
      · exact Or.inr (reaches answers empty)
  · exact ⟨fun _ answers => absurd answers fails, fun _ => Or.inl rfl⟩

theorem releaseOwn_run {signal : Signal F} (owed : signal.requiresReceipt = true)
    (d : Disposition F) {released : List (QueuedSignal F)}
    (own : ∀ q ∈ released, q.id = signal.id) (s : RuntimeState F) :
    ∃ t more, (rt.releaseFired signal { d with handleLocally := released }).run s = (.ok (), t) ∧
      t.log = s.log ++ more := by
  induction released generalizing s with
  | nil => exact ⟨s, [], rfl, (List.append_nil _).symm⟩
  | cons q rest ih =>
    obtain ⟨sent, t, release, -, log⟩ :=
      rt.releaseSignal_planned owed q.id d.forwardTo .threshold s
    obtain ⟨u, more, later, history⟩ := ih (fun q hq => own q (List.mem_cons_of_mem _ hq)) t
    have next : (rt.releaseFired signal { d with handleLocally := q :: rest }).run s =
        ((if q.id = signal.id then
            rt.releaseSignal q.id (some signal) (some d.forwardTo) .threshold
          else do
            let body ← takeBody q.id
            rt.releaseSignal q.id body none .threshold) >>= fun _ =>
          rt.releaseFired signal { d with handleLocally := rest }).run s := rfl
    refine ⟨u, _, ?_, by rw [history, log, List.append_assoc]⟩
    rw [next, if_pos (own q List.mem_cons_self), Prog.run_bind_ok release, later]

theorem releaseOwn_answer {signal : Signal F} (owed : signal.requiresReceipt = true)
    (d : Disposition F) {q : QueuedSignal F} {rest : List (QueuedSignal F)}
    (own : ∀ p ∈ q :: rest, p.id = signal.id) (s : RuntimeState F) :
    ∃ delivered, firstAnswer signal.origin
        (rt.releaseFired signal { d with handleLocally := q :: rest }) s = some delivered ∧
      (delivered = true ↔ d.forwardTo = [] ∨ ∃ f ∈ d.forwardTo, Takes s.sessions f.peer) := by
  obtain ⟨sent, t, release, taken, log⟩ :=
    rt.releaseSignal_planned owed q.id d.forwardTo .threshold { s with log := [] }
  obtain ⟨u, more, later, history⟩ :=
    rt.releaseOwn_run owed d (fun p hp => own p (List.mem_cons_of_mem _ hp)) t
  have next : (rt.releaseFired signal { d with handleLocally := q :: rest }).run
      { s with log := [] } =
      ((if q.id = signal.id then
          rt.releaseSignal q.id (some signal) (some d.forwardTo) .threshold
        else do
          let body ← takeBody q.id
          rt.releaseSignal q.id body none .threshold) >>= fun _ =>
        rt.releaseFired signal { d with handleLocally := rest }).run { s with log := [] } := rfl
  rw [if_pos (own q List.mem_cons_self), Prog.run_bind_ok release, later] at next
  have first : u.log =
      .answered (releaseReceipt q.id signal d.forwardTo sent) signal.origin :: more := by
    rw [history, log]
    rfl
  refine ⟨_, firstAnswer_eq _ next first, ?_⟩
  rw [releaseReceipt_isDelivered, taken]

theorem releasedArrival_answer {signal : Signal F} (owed : signal.requiresReceipt = true)
    (peer : PeerIdentity) {d : Disposition F} (receipt : d.receipt = none)
    (rejected : d.rejected = none) (fired : ∃ q ∈ d.handleLocally, q.id = signal.id)
    (u : RuntimeState F) :
    ∃ delivered, firstAnswer signal.origin (do
        rt.reportRefusal signal peer d
        rt.releaseFired signal
          { d with handleLocally := d.handleLocally.filter fun q => q.id = signal.id }) u =
        some delivered ∧
      (delivered = true ↔ d.forwardTo = [] ∨ ∃ f ∈ d.forwardTo, Takes u.sessions f.peer) := by
  have silent : rt.reportRefusal signal peer d = pure () := by
    unfold reportRefusal
    rw [receipt, rejected]
    rfl
  rw [silent, pure_bind]
  obtain ⟨q, hq, same⟩ := fired
  have mine : q ∈ d.handleLocally.filter fun q => q.id = signal.id := by simp [hq, same]
  have own : ∀ p ∈ d.handleLocally.filter fun q => q.id = signal.id, p.id = signal.id := by
    intro p hp
    simpa using (List.mem_filter.mp hp).2
  generalize d.handleLocally.filter (fun q => q.id = signal.id) = released at mine own
  cases released with
  | nil => cases mine
  | cons p rest => exact rt.releaseOwn_answer owed d own u

theorem reportRefusal_run (signal : Signal F) (peer : PeerIdentity) {d : Disposition F}
    {receipt : Receipt} (refused : d.receipt = some receipt) (s : RuntimeState F) :
    ∃ t, (rt.reportRefusal signal peer d).run s = (.ok (), t) ∧
      t.log = s.log ++ [.answered receipt signal.origin] := by
  obtain ⟨t, sent, log⟩ := rt.sendReceipt_run receipt signal.origin peer s
  have next : (rt.reportRefusal signal peer d).run s =
      (d.rejected.forM fun reason => notify (F := F) (.refused signal.id reason)).run t := by
    unfold reportRefusal
    simp only [refused]
    exact Prog.run_bind_ok sent
  rw [next]
  cases d.rejected with
  | none => exact ⟨t, rfl, log⟩
  | some reason => exact ⟨_, rfl, log⟩

theorem refusedArrival_answer {signal : Signal F} (peer : PeerIdentity) {d : Disposition F}
    {receipt : Receipt} (refused : d.receipt = some receipt)
    (gone : d.handleLocally.filter (fun q => q.id = signal.id) = []) (u : RuntimeState F) :
    firstAnswer signal.origin (do
        rt.reportRefusal signal peer d
        rt.releaseFired signal
          { d with handleLocally := d.handleLocally.filter fun q => q.id = signal.id }) u =
      some receipt.isDelivered := by
  obtain ⟨t, report, log⟩ := rt.reportRefusal_run signal peer refused { u with log := [] }
  have answered := Prog.run_bind_ok (f := fun _ =>
    rt.releaseFired signal { d with handleLocally := [] }) report
  rw [gone]
  exact firstAnswer_eq [] answered log

/-- At once, the origin is told nothing if planning fails, and else of a delivery exactly when a
chosen peer takes a frame. -/
theorem statusOnArrival_eq {signal : Signal F} (owed : signal.requiresReceipt = true)
    (peer : PeerIdentity) {arrival : Option SynapseId} {s t : NodeState F} {now : ℕ}
    {admitted : AdmitOutcome F}
    (passed : (rt.node.admission signal arrival).run s = (.ok (.inr (now, admitted)), t))
    (kept : ∀ q ∈ admitted.dropped, q.id ≠ signal.id) (fired : Node.FiredHere signal admitted)
    (u : RuntimeState F) :
    (¬ StoreAnswers t (rt.node.planCalls signal arrival now t.store t.rng) ∧
      rt.statusOnArrival signal peer arrival s u = none) ∨
    (StoreAnswers t (rt.node.planCalls signal arrival now t.store t.rng) ∧
      ∃ delivered, rt.statusOnArrival signal peer arrival s u = some delivered ∧
        (delivered = true ↔ rt.Reaches signal arrival now t.store t.rng u.sessions)) := by
  have receive : (rt.node.receive signal arrival).run s =
      (rt.node.afterAdmission signal arrival now admitted).run t := Prog.run_bind_ok passed
  have disposal := rt.node.afterAdmission_spec signal arrival now admitted t
  have outcome := rt.node.planForwarding_outcome signal arrival now t
  rcases result : (rt.node.afterAdmission signal arrival now admitted).run t with ⟨r, w⟩
  unfold statusOnArrival
  rw [receive, result]
  rw [result] at disposal
  cases disposal with
  | shed itself reason =>
    obtain ⟨q, dropped, same⟩ := itself
    exact absurd same (kept q dropped)
  | held other stays => exact absurd fired stays
  | unplanned other fired plan =>
    rcases outcome with ⟨-, forwards, x, run, -⟩ | ⟨fails, -⟩
    · rw [plan] at run
      cases run
    · exact Or.inl ⟨fails, rfl⟩
  | routeless other fired plan ack evicted same =>
    rcases outcome with ⟨answers, forwards, x, run, peers⟩ | ⟨-, e, x, run⟩
    · rw [plan] at run
      cases run
      refine Or.inr ⟨answers, false, ?_, ?_⟩
      · have class' : signal.delivery.requiresReceipt = true := owed
        have refused : (Disposition.refuse signal .noRoute signal.hops).receipt =
            some (.rejected signal.id .noRoute signal.hops) := by
          simp [Disposition.refuse, class']
        have gone : (without admitted.fired signal.id).filter (fun q => q.id = signal.id) = [] := by
          simp [without]
        exact rt.refusedArrival_answer (d := { Disposition.refuse signal .noRoute signal.hops with
          handleLocally := without admitted.fired signal.id, evicted := evicted }) peer refused gone u
      · have nobody := (empty_congr peers).mp rfl
        simp [Reaches, nobody]
    · rw [plan] at run
      cases run
  | @released other fired forwards y plan routed evicted same =>
    rcases outcome with ⟨answers, forwards', x, run, peers⟩ | ⟨-, e, x, run⟩
    · rw [plan] at run
      cases run
      have some' : forwards ≠ [] := by
        intro empty
        rw [routed empty] at owed
        cases owed
      obtain ⟨delivered, answered, taken⟩ := rt.releasedArrival_answer owed peer
        (d := { (Disposition.nothing : Disposition F) with
          forwardTo := forwards, handleLocally := admitted.fired, evicted := evicted }) rfl rfl
        fired u
      refine Or.inr ⟨answers, delivered, answered, ?_⟩
      rw [taken, reach_congr peers]
      exact ⟨fun h => h.resolve_left some', Or.inr⟩
    · rw [plan] at run
      cases run

end Runtime

/-- The origin is told the same, now or later, exactly when planning on arrival meets no store
failure and this holds: a peer chosen on arrival takes a frame if and only if at release planning
fails, nobody can be chosen, or a peer chosen then takes a frame. -/
theorem release_answer_same_iff {rt : Runtime F} {signal : Signal F}
    (owed : signal.requiresReceipt = true) (peer : PeerIdentity) (how : Runtime.Release)
    {arrival : Option SynapseId} {s t : NodeState F} {now : ℕ} {admitted : AdmitOutcome F}
    (passed : (rt.node.admission signal arrival).run s = (.ok (.inr (now, admitted)), t))
    (kept : ∀ q ∈ admitted.dropped, q.id ≠ signal.id) (fired : Node.FiredHere signal admitted)
    {u v : RuntimeState F} (store : v.node.store = t.store) (rng : v.node.rng = t.rng)
    (sessions : v.sessions = u.sessions) :
    rt.statusOnArrival signal peer arrival s u = rt.statusOnRelease signal how v ↔
      StoreAnswers t (rt.node.planCalls signal arrival now t.store t.rng) ∧
      (rt.Reaches signal arrival now t.store t.rng u.sessions ↔
        (StoreAnswers (Runtime.lookedUp signal v.node) (rt.node.planCalls signal
          (Runtime.arrivedOver signal v.node) v.node.clock t.store t.rng) →
        rt.node.onward signal (Runtime.arrivedOver signal v.node) v.node.clock t.store
          t.rng ≠ [] →
        rt.Reaches signal (Runtime.arrivedOver signal v.node) v.node.clock t.store t.rng
          u.sessions)) := by
  obtain ⟨later, release, told⟩ := rt.statusOnRelease_eq owed how v
  rw [store, rng, sessions] at told
  rw [release, ← told]
  rcases rt.statusOnArrival_eq owed peer passed kept fired u with
    ⟨fails, silent⟩ | ⟨answers, atOnce, arrived, reaches⟩
  · rw [silent]
    constructor
    · intro same
      cases same
    · rintro ⟨answers, -⟩
      exact absurd answers fails
  · rw [arrived, ← reaches, Option.some.injEq, Bool.eq_iff_iff]
    exact ⟨fun same => ⟨answers, same⟩, fun both => both.2⟩

/-- With the same clock reading, way in and store failures, the two answers are the same exactly
when there is a way on and no store call of planning fails. -/
theorem release_answer_same_iff_onward {rt : Runtime F} {signal : Signal F}
    (owed : signal.requiresReceipt = true) (peer : PeerIdentity) (how : Runtime.Release)
    {arrival : Option SynapseId} {s t : NodeState F} {now : ℕ} {admitted : AdmitOutcome F}
    (passed : (rt.node.admission signal arrival).run s = (.ok (.inr (now, admitted)), t))
    (kept : ∀ q ∈ admitted.dropped, q.id ≠ signal.id) (fired : Node.FiredHere signal admitted)
    {u v : RuntimeState F} (store : v.node.store = t.store) (rng : v.node.rng = t.rng)
    (sessions : v.sessions = u.sessions) (clock : v.node.clock = now)
    (way : Runtime.arrivedOver signal v.node = arrival)
    (failures : (Runtime.lookedUp signal v.node).faults = t.faults) :
    rt.statusOnArrival signal peer arrival s u = rt.statusOnRelease signal how v ↔
      0 < rt.node.waysOn signal arrival now t.store ∧
        StoreAnswers t (rt.node.waysOn signal arrival now t.store + 1) := by
  have general := release_answer_same_iff owed peer how passed kept fired store rng sessions
  have alike : ∀ n, StoreAnswers (Runtime.lookedUp signal v.node) n ↔ StoreAnswers t n := by
    intro n
    rw [StoreAnswers, StoreAnswers, failures]
  rw [clock, way, alike] at general
  rw [general]
  have onward := rt.node.onward_ne_nil_iff_waysOn signal arrival now t.store t.rng
  constructor
  · rintro ⟨answers, same⟩
    have some : rt.node.onward signal arrival now t.store t.rng ≠ [] := by
      intro none
      obtain ⟨c, chosen, -⟩ := same.mpr fun _ some => absurd none some
      rw [none] at chosen
      cases chosen
    rw [rt.node.planCalls_of_onward signal arrival now some] at answers
    exact ⟨onward.mp some, answers⟩
  · rintro ⟨ways, answers⟩
    have some := onward.mpr ways
    rw [rt.node.planCalls_of_onward signal arrival now some]
    exact ⟨answers, fun reached _ _ => reached, fun reached => reached answers some⟩

/-! An arrival that nobody can carry on, let go at once and let go later. -/

section NoRoute

def beforeArrival : NodeState ℚ := edgeNode.build .new .maximal 0 []

def firedAlone : AdmitOutcome ℚ := (Node.offered unroutable beforeArrival 1).1

def atPlanning : NodeState ℚ := ((edgeNode.admission unroutable none).run beforeArrival).2

def alone : RuntimeState ℚ := ⟨atPlanning, ∅, ∅, [], [], []⟩

theorem unroutable_passed : (edgeNode.admission unroutable none).run beforeArrival =
    (.ok (.inr (0, firedAlone)), atPlanning) := by
  have passed := edgeNode.admission_passed unroutable (s := beforeArrival) rfl
    (by decide +kernel) (by decide +kernel)
  unfold atPlanning
  rw [passed]
  rfl

/-- Let go at once, the signal is rejected for want of a route. Let go later, with nothing
changed, it is delivered. -/
theorem answer_depends_on_release :
    edgeRuntime.statusOnArrival unroutable ⟨⟨[1]⟩, [1]⟩ none beforeArrival alone = some false ∧
    ¬ ∀ (rt : Runtime ℚ) (signal : Signal ℚ) (peer : PeerIdentity) (how : Runtime.Release)
      (arrival : Option SynapseId) (s t : NodeState ℚ) (now : ℕ) (admitted : AdmitOutcome ℚ)
      (u v : RuntimeState ℚ), signal.requiresReceipt = true →
      (rt.node.admission signal arrival).run s = (.ok (.inr (now, admitted)), t) →
      (∀ q ∈ admitted.dropped, q.id ≠ signal.id) → Node.FiredHere signal admitted →
      v.node.store = t.store → v.node.rng = t.rng → v.sessions = u.sessions →
      rt.statusOnArrival signal peer arrival s u = rt.statusOnRelease signal how v := by
  have atOnce : edgeRuntime.statusOnArrival unroutable ⟨⟨[1]⟩, [1]⟩ none beforeArrival alone =
      some false := by decide +kernel
  have later : edgeRuntime.statusOnRelease unroutable .threshold alone = some true := by
    decide +kernel
  refine ⟨atOnce, fun same => ?_⟩
  have equal := same edgeRuntime unroutable ⟨⟨[1]⟩, [1]⟩ .threshold none beforeArrival atPlanning 0
    firedAlone alone alone rfl unroutable_passed (by decide +kernel) (by decide +kernel) rfl rfl rfl
  rw [atOnce, later] at equal
  cases equal

theorem unroutable_answer_same_iff :
    edgeRuntime.statusOnArrival unroutable ⟨⟨[1]⟩, [1]⟩ none beforeArrival alone =
      edgeRuntime.statusOnRelease unroutable .threshold alone ↔
      0 < edgeNode.waysOn unroutable none 0 atPlanning.store ∧
        StoreAnswers atPlanning (edgeNode.waysOn unroutable none 0 atPlanning.store + 1) :=
  @release_answer_same_iff_onward ℚ _ edgeRuntime unroutable rfl ⟨⟨[1]⟩, [1]⟩ .threshold none
    beforeArrival atPlanning 0 firedAlone unroutable_passed (by decide +kernel)
    (by decide +kernel) alone alone rfl rfl rfl (by decide +kernel) (by decide +kernel)
    (by decide +kernel)

end NoRoute

end OpenNtl
