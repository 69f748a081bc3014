import OpenNtl.ArrivalCopies

/-! # The programs of a runtime, copy by copy -/
namespace OpenNtl

open AtomicProgram Descent NodeM RuntimeM

variable {ι F : Type} [Scalar F]

namespace Network

variable {net : Network ι F} {i : ι} {signal : Signal F}

theorem makeReceipt_yields (receipt : Receipt) (origin : NodeId) :
    net.Yields i 0 ((net i).makeReceipt receipt origin) (fun made => ∀ frame, made = some frame →
      frame.signalType = .receipt ∧ frame.correlationId = some receipt.correlationId)
      fun _ => 0 := by
  have emitted : net.Yields i 0 (callNode ((net i).node.emit
      ((net i).crypto.receiptSignal receipt origin))) (fun r => ∀ signal, r = .ok signal →
        signal.signalType = .receipt ∧ signal.correlationId = some receipt.correlationId)
      fun _ => 0 := by
    refine Spends.callNode_knows ((net i).node.emit_sameGate _) fun s signal made => ?_
    rcases run : ((net i).node.emit ((net i).crypto.receiptSignal receipt origin)).run s with ⟨r, t⟩
    rw [run] at made
    obtain rfl : r = .ok signal := made
    obtain ⟨now, id, rfl⟩ := (net i).node.emit_builds run
    exact ⟨rfl, rfl⟩
  have noted : net.Spends i 0 (mark (.answered receipt origin)) :=
    Spends.still (fun _ => rfl) (fun _ => rfl) fun _ => rfl
  refine Yields.bind noted fun _ _ => emitted.bind fun r known => ?_
  cases r with
  | error e => exact Yields.pure (fun frame none => nomatch none) (Evolves.refl _)
  | ok signal =>
    refine Yields.pure (fun frame made => ?_) (Evolves.refl _)
    obtain ⟨kind, about⟩ := known signal rfl
    cases signed : (net i).crypto.signSignal signal (net i).identity.privateKey with
    | error e =>
      rw [signed] at made
      cases made
    | ok frame' =>
      rw [signed] at made
      obtain rfl := Option.some.inj made
      obtain ⟨signature, rfl⟩ := Crypto.signSignal_signs signed
      exact ⟨kind, about⟩

theorem answers {id : SignalId} {frame : Signal F} (kind : frame.signalType = .receipt)
    (about : frame.correlationId = some id) (peer : NodeId) (taken : Bool) :
    Evolves net.Child {.duty i id} (if taken then {.frame i peer frame} else 0) := by
  refine Evolves.of_children fun c here => ?_
  cases taken with
  | true =>
    obtain rfl := Multiset.mem_singleton.mp here
    exact .answered kind about
  | false => exact absurd here (Multiset.notMem_zero c)

theorem trySendTo_answers {id : SignalId} {frame : Signal F} (kind : frame.signalType = .receipt)
    (about : frame.correlationId = some id) (peer : NodeId) (s : RuntimeState F) :
    Evolves net.Child ({.duty i id} + copiesAt i s)
      (0 + copiesAt i { s with sessions := (trySendTo s.sessions peer frame).2 }) := by
  refine queues (framesAt_trySendTo i s.sessions peer frame) rfl rfl ?_
  rw [zero_add]
  exact answers kind about _ _

theorem makeReceipt_spends {α : Type} (receipt : Receipt) (origin : NodeId)
    {f : Option (Signal F) → RuntimeM F α}
    (unmade : net.Spends i {.duty i receipt.correlationId} (f none))
    (made : ∀ frame, frame.signalType = .receipt →
      frame.correlationId = some receipt.correlationId →
      net.Spends i {.duty i receipt.correlationId} (f (some frame))) :
    net.Spends i {.duty i receipt.correlationId} ((net i).makeReceipt receipt origin >>= f) := by
  refine ((makeReceipt_yields receipt origin).keeping _).bind fun o known => ?_
  cases o with
  | none => exact unmade
  | some frame =>
    obtain ⟨kind, about⟩ := known frame rfl
    exact made frame kind about

theorem sendReceiptTo_spends (receipt : Receipt) (origin : NodeId) :
    net.Spends i {.duty i receipt.correlationId} ((net i).sendReceiptTo receipt origin) := by
  refine makeReceipt_spends receipt origin (Spends.pure _) fun frame kind about => ?_
  exact Yields.act fun s held => ⟨trivial, held, trySendTo_answers kind about _ s⟩

theorem sendReceipt_spends (receipt : Receipt) (origin : NodeId) (via : PeerIdentity) :
    net.Spends i {.duty i receipt.correlationId} ((net i).sendReceipt receipt origin via) := by
  refine makeReceipt_spends receipt origin (Spends.pure _) fun frame kind about => ?_
  exact Yields.act fun s held => ⟨trivial, held, trySendTo_answers kind about _ s⟩

theorem forwardSignal_yields {body : Signal F} (holds : net.Holds i body) {forwards : List Forward}
    (onward : forwards ≠ [] → floodDepthReached body = false) :
    net.Yields i {.body i body} ((net i).forwardSignal body forwards) (fun _ => True)
      fun _ => {.duty i body.id} := by
  have duty : net.Child (.duty i body.id) (.body i body) := .finished holds.relayed
  unfold Runtime.forwardSignal
  split
  · refine Yields.pure trivial (Evolves.of_children fun c here => ?_)
    exact Multiset.mem_singleton.mp here ▸ duty
  · have sent : net.Yields i {.body i body} (.act fun s =>
        ((sendAll ((net i).outbound body) forwards s.sessions).1,
          { s with sessions := (sendAll ((net i).outbound body) forwards s.sessions).2 }))
        (fun _ => True) fun _ => {.duty i body.id} := by
      refine Yields.act fun s held => ⟨trivial, held, ?_⟩
      refine queues (framesAt_sendAll i _ forwards s.sessions) rfl rfl ?_
      refine Evolves.of_children fun c here => ?_
      rcases Multiset.mem_add.mp here with first | frame
      · exact Multiset.mem_singleton.mp first ▸ duty
      · refine relays holds.accepts (fun some => onward ?_) c frame
        obtain ⟨forward, sent⟩ := List.exists_mem_of_ne_nil _ some
        exact sendAll_nil_sent sent
    refine Yields.bind sent fun split _ => ?_
    have recorded : net.Spends i 0 (split.2.forM fun forward => do
        let _ ← callNode ((net i).node.failForward forward.journalId)) := by
      refine Spends.each fun f _ => ?_
      exact (Spends.callNode ((net i).node.failForward_sameGate f.journalId)).before
        fun _ => Spends.pure _
    refine (recorded.keeping _).bind fun _ _ => ?_
    refine ((Spends.notify _).keeping _).bind fun _ _ => ?_
    exact Yields.pure trivial (Evolves.refl _)

theorem synapseOf_spends (peer : NodeId) :
    net.Spends i 0 (callNode (Node.synapseForPeer (F := F) peer)) :=
  Spends.callNode (SameGate.tryStore _)

theorem arrivalOf_spends (body : Signal F) : net.Spends i 0 (Runtime.arrivalOf body) := by
  unfold Runtime.arrivalOf
  cases body.trace.getLast? with
  | none => exact Spends.pure _
  | some hop =>
    refine (synapseOf_spends hop).before fun found => ?_
    split
    · exact Spends.pure _
    · exact Spends.pure _

theorem releasePlan_yields {body : Signal F} (arrival : Option SynapseId)
    {plan : Option (List Forward)}
    (onward : ∀ forwards, plan = some forwards → forwards ≠ [] → floodDepthReached body = false) :
    net.Yields i 0 ((net i).releasePlan body arrival plan)
      (fun forwards => forwards ≠ [] → floodDepthReached body = false) fun _ => 0 := by
  cases plan with
  | some forwards => exact Yields.pure (onward forwards rfl) (Evolves.refl _)
  | none =>
    have planned : net.Yields i 0 (callNode ((net i).node.planRelease body arrival))
        (fun r => ∀ forwards, r = .ok forwards → forwards ≠ [] → floodDepthReached body = false)
        fun _ => 0 := by
      refine Spends.callNode_knows ((net i).node.planRelease_sameGate body arrival)
        fun s forwards made some => ?_
      rcases run : ((net i).node.planRelease body arrival).run s with ⟨r, t⟩
      rw [run] at made
      obtain rfl : r = .ok forwards := made
      exact (net i).node.planRelease_onward run some
    refine planned.bind fun r known => ?_
    cases r with
    | error e => exact Yields.pure (fun some => absurd rfl some) (Evolves.refl _)
    | ok forwards => exact Yields.pure (known forwards rfl) (Evolves.refl _)

omit [Scalar F] in
theorem correlation_releaseReceipt (id : SignalId) (body : Signal F) (forwards : List Forward)
    (delivered : Bool) :
    (Runtime.releaseReceipt id body forwards delivered).correlationId = id := by
  unfold Runtime.releaseReceipt
  split
  · rfl
  · rfl

theorem finishRelease_spends {body : Signal F} (holds : net.Holds i body) {forwards : List Forward}
    (onward : forwards ≠ [] → floodDepthReached body = false) :
    net.Spends i {.body i body} ((net i).finishRelease body.id body forwards) := by
  refine (forwardSignal_yields holds onward).bind fun delivered _ => ?_
  split
  · have told := net.sendReceiptTo_spends (i := i)
      (Runtime.releaseReceipt body.id body forwards delivered) body.origin
    rw [correlation_releaseReceipt] at told
    exact told.after fun _ => Spends.pure _
  · exact Spends.pure _

theorem releaseSignal_spends {body : Signal F} (holds : net.Holds i body)
    {plan : Option (List Forward)} (how : Runtime.Release)
    (onward : ∀ forwards, plan = some forwards → forwards ≠ [] → floodDepthReached body = false) :
    net.Spends i {.body i body} ((net i).releaseSignal body.id (some body) plan how) := by
  refine (Spends.notify _).before fun _ => (arrivalOf_spends body).before fun arrival => ?_
  refine ((releasePlan_yields arrival onward).keeping _).bind fun forwards known => ?_
  exact finishRelease_spends holds known

theorem takeBody_yields (id : SignalId) :
    net.Yields i 0 (takeBody id)
      (fun found => ∀ body, found = some body → net.Holds i body ∧ body.id = id)
      fun found => found.elim 0 fun body => {.body i body} := by
  refine Yields.act fun s held => ⟨held id, fun k body there => ?_, Evolves.of_le ?_⟩
  · exact held k body (HashMap.lookup_of_erase there)
  · have taken : (s.pending.lookup id).elim 0 (fun body => {.body i body}) +
        bodiesAt i (s.pending.erase id) ≤ bodiesAt i s.pending := by
      cases found : s.pending.lookup id with
      | none =>
        rw [Option.elim_none, zero_add]
        exact HashMap.contents_erase_le
      | some body => exact (HashMap.contents_of_lookup found).ge
    rw [zero_add]
    unfold copiesAt
    calc _ = framesAt i s.sessions + ((s.pending.lookup id).elim 0 (fun body => {.body i body}) +
          bodiesAt i (s.pending.erase id)) + dutiesAt i s.node.activation.queue := by
            dsimp only
            abel
      _ ≤ _ := add_le_add (add_le_add le_rfl taken) le_rfl

theorem takeBody_released (id : SignalId) (how : Runtime.Release) :
    net.Spends i 0 (takeBody id >>= fun body => (net i).releaseSignal id body none how) := by
  refine (takeBody_yields id).bind fun found known => ?_
  cases found with
  | none => exact Spends.notify _
  | some body =>
    obtain ⟨holds, rfl⟩ := known body rfl
    exact releaseSignal_spends holds how fun forwards none => nomatch none

theorem takeBody_dropped {α : Type} {need : Multiset (Copy ι F)} (id : SignalId)
    {f : Option (Signal F) → RuntimeM F α} (hf : ∀ body, net.Spends i need (f body)) :
    net.Spends i need (takeBody id >>= f) := by
  have taken := (net.takeBody_yields (i := i) id).frame need
  rw [zero_add] at taken
  refine taken.bind fun body _ => ?_
  exact (hf body).mono (Evolves.of_le (Multiset.le_add_left _ _)) (fun _ known => known)
    fun _ _ => Evolves.refl _

theorem reportEvicted_spends (ev : Evicted F) :
    net.Spends i {.duty i ev.signal.id} ((net i).reportEvicted ev) := by
  refine takeBody_dropped ev.signal.id fun body => (Spends.notify _).before fun _ => ?_
  split
  · have told := net.sendReceiptTo_spends (i := i)
      (.rejected ev.signal.id ev.reason (body.elim 0 Signal.hops)) ev.signal.origin
    exact told.after fun _ => Spends.pure _
  · exact Spends.pure _

theorem reportRefusal_spends (peer : PeerIdentity) {d : Disposition F}
    (receipt : ∀ r, d.receipt = some r → r.correlationId = signal.id) :
    net.Spends i (receiptDuty i signal.id d.receipt)
      ((net i).reportRefusal signal peer d) := by
  refine Spends.after (Spends.optional fun r earned => ?_) fun _ => ?_
  · rw [← receipt r earned]
    exact sendReceipt_spends r signal.origin peer
  · cases rejected : d.rejected with
    | none => exact Spends.pure _
    | some reason => exact Spends.notify _

theorem releaseFired_spends {d : Disposition F}
    (holds : ∀ q ∈ d.handleLocally, q.id = signal.id → net.Holds i signal)
    (onward : d.forwardTo ≠ [] → floodDepthReached signal = false) :
    net.Spends i (ownBodies i signal d.handleLocally) ((net i).releaseFired signal d) := by
  refine Spends.forM fun released here => ?_
  by_cases own : released.id = signal.id
  · rw [if_pos own, if_pos own, own]
    refine releaseSignal_spends (holds released here own) .threshold fun forwards plan => ?_
    obtain rfl := Option.some.inj plan
    exact onward
  · rw [if_neg own, if_neg own]
    exact takeBody_released released.id .threshold

theorem rememberBody_spends (holds : net.Holds i signal) :
    net.Spends i {.body i signal} ((net i).rememberBody signal) := by
  refine Yields.act fun s held => ⟨trivial, ?_⟩
  have stored : ∀ room : HashMap SignalId (Signal F),
      (∀ id body, room.lookup id = some body → s.pending.lookup id = some body) →
      bodiesAt i room ≤ (bodiesAt i s.pending : Multiset (Copy ι F)) →
      (∀ id body, (room.insert signal.id signal).lookup id = some body →
        net.Holds i body ∧ body.id = id) ∧
      bodiesAt i (room.insert signal.id signal) ≤
        ({.body i signal} + bodiesAt i s.pending : Multiset (Copy ι F)) := by
    intro room kept less
    refine ⟨fun id body there => ?_, ?_⟩
    · by_cases same : id = signal.id
      · subst same
        rw [AList.lookup_insert] at there
        obtain rfl := Option.some.inj there
        exact ⟨holds, rfl⟩
      · rw [AList.lookup_insert_ne same] at there
        exact held id body (kept id body there)
    · exact add_le_add le_rfl (HashMap.contents_erase_le.trans less)
  have fits : ∀ (room : HashMap SignalId (Signal F)) (log : List Mark) (unstored : List SignalId),
      (∀ id body, room.lookup id = some body → s.pending.lookup id = some body) →
      bodiesAt i room ≤ (bodiesAt i s.pending : Multiset (Copy ι F)) →
      net.BodiesHeld i { s with
        pending := room.insert signal.id signal, log := log, unstored := unstored } ∧
      Evolves net.Child ({.body i signal} + copiesAt i s) (0 + copiesAt i { s with
        pending := room.insert signal.id signal, log := log, unstored := unstored }) := by
    intro room log unstored kept less
    obtain ⟨held', more⟩ := stored room kept less
    refine ⟨held', Evolves.of_le ?_⟩
    rw [zero_add]
    unfold copiesAt
    calc _ ≤ framesAt i s.sessions + ({.body i signal} + bodiesAt i s.pending) +
          dutiesAt i s.node.activation.queue := add_le_add (add_le_add le_rfl more) le_rfl
      _ = _ := by abel
  dsimp only
  split
  · split
    · exact fits _ _ _ (fun _ _ there => HashMap.lookup_of_erase there) HashMap.contents_erase_le
    · exact fits _ _ _ (fun _ _ there => there) le_rfl
  · exact fits _ _ _ (fun _ _ there => there) le_rfl

theorem callReceive_yields (relayed : signal.signalType ≠ .receipt)
    (arrival : Option SynapseId) :
    net.Yields i {.hand i signal} ((net i).callReceive signal arrival)
      (fun r => ∀ d, r = .ok d → (net i).node.Answers signal d) (leaves i signal) := by
  refine Yields.act fun s held => ⟨fun d made => ?_, held, ?_⟩
  · rcases run : ((net i).node.receive signal arrival).run s.node with ⟨r, t⟩
    dsimp only at made
    rw [run] at made
    obtain rfl : r = .ok d := made
    exact (net i).node.receive_answers run
  · have step := (net.receive_leaves (i := i) relayed arrival s.node).add_right
      (framesAt i s.sessions + bodiesAt i s.pending)
    unfold copiesAt
    dsimp only
    convert step using 1
    · abel
    · abel

theorem handleArrival_spends (relayed : signal.signalType ≠ .receipt) (peer : PeerIdentity) :
    net.Spends i {.hand i signal} ((net i).handleArrival signal peer) := by
  refine Spends.before ((synapseOf_spends peer.nodeId).before fun r => ?_) fun arrival => ?_
  · split
    · exact Spends.pure _
    · exact Spends.pure _
  refine (callReceive_yields relayed arrival).bind fun result known => ?_
  cases result with
  | error e => exact Spends.pure _
  | ok d =>
    have answers := known d rfl
    have holds : (d.queued = true ∨ ∃ q ∈ d.handleLocally, q.id = signal.id) →
        net.Holds i signal := fun kept => ⟨answers.accepted kept, relayed⟩
    refine Spends.bind (Spends.optional fun ev _ => reportEvicted_spends ev) fun _ => ?_
    refine (reportRefusal_spends peer answers.receipt).bind fun _ => ?_
    refine (releaseFired_spends (fun q here own => holds (Or.inr ⟨q, here, own⟩))
      answers.onward).bind fun _ => ?_
    by_cases queued : d.queued = true
    · rw [if_pos queued, if_pos queued]
      exact rememberBody_spends (holds (Or.inl queued))
    · rw [if_neg queued, if_neg queued]
      exact Spends.pure _

theorem handleReceipt_spends (frame : Signal F) (peer : PeerIdentity) :
    net.Spends i 0 ((net i).handleReceipt frame peer) := by
  unfold Runtime.handleReceipt
  cases (net i).crypto.receiptFromValue frame.payload with
  | none => exact Spends.pure _
  | some receipt =>
    refine (Spends.callNode ((net i).node.applyReceipt_sameGate receipt peer.nodeId)).before
      fun r => ?_
    split
    · exact Spends.notify _
    · exact Spends.pure _

theorem handleBadSignature_spends (peer : PeerIdentity) :
    net.Spends i 0 ((net i).handleBadSignature peer) := by
  refine Spends.before ((synapseOf_spends peer.nodeId).before fun r => ?_) fun pruned => ?_
  · split
    · refine (Spends.callNode ((net i).node.penalizeSignatureFailure_sameGate _)).before
        fun outcome => ?_
      split
      · exact Spends.pure _
      · exact Spends.pure _
    · exact Spends.pure _
  · refine (Spends.notify _).before fun _ => ?_
    split
    · exact Yields.throw _
    · exact Spends.pure _

def arrivals (net : Network ι F) (j : ι) (frame : Signal F) : Multiset (Copy ι F) :=
  if frame.signalType = .receipt then 0 else {.hand j (net.arriving j frame)}

theorem handleVerified_spends (peer : PeerIdentity) (frame : Signal F) :
    net.Spends i (net.arrivals i frame) ((net i).handleVerified peer frame) := by
  unfold Runtime.handleVerified
  split
  · exact (Spends.notify _).more
  · have next : net.Spends i (net.arrivals i frame)
        (if (net.arriving i frame).signalType = .receipt then
          (net i).handleReceipt (net.arriving i frame) peer
        else (net i).handleArrival (net.arriving i frame) peer) := by
      unfold arrivals
      by_cases receipt : frame.signalType = .receipt
      · have same : (net.arriving i frame).signalType = .receipt := receipt
        rw [if_pos receipt, if_pos same]
        exact handleReceipt_spends _ peer
      · have same : (net.arriving i frame).signalType ≠ .receipt := receipt
        rw [if_neg receipt, if_neg same]
        exact handleArrival_spends same peer
    dsimp only
    split
    · exact (Spends.notify _).before fun _ => next
    · exact next

theorem handleFrame_spends (peer : PeerIdentity) (frame : Signal F) :
    net.Spends i (net.arrivals i frame) ((net i).handleFrame peer frame) := by
  rw [Runtime.handleFrame_eq]
  have key : net.Spends i 0 (Runtime.originKey frame peer) := by
    unfold Runtime.originKey
    split
    · exact Spends.pure _
    · exact Spends.still (fun _ => rfl) (fun _ => rfl) fun _ => rfl
  refine key.before fun found => ?_
  cases found with
  | none => exact (Spends.notify _).more
  | some key =>
    simp only [Runtime.handleKeyed]
    split
    · exact (handleBadSignature_spends peer).more
    · exact handleVerified_spends peer frame

theorem pollRelease_spends : net.Spends i 0 (net i).pollRelease := by
  have poll : net.Spends i 0 (callNode (Node.pollActivation (F := F))) := by
    refine Yields.act fun s held => ⟨trivial, held, Evolves.of_le ?_⟩
    have perm := (ActivationState.drainIfStarving_perm s.node.activation s.node.clock).map
      QueuedSignal.id
    rw [List.map_append] at perm
    have left : dutiesAt i ((Node.pollActivation (F := F)).run s.node).2.activation.queue ≤
        (dutiesAt i s.node.activation.queue : Multiset (Copy ι F)) := by
      rw [dutiesAt_eq, dutiesAt_eq, ← dutiesOf_perm perm, dutiesOf_append]
      exact Multiset.le_add_left _ _
    rw [zero_add, zero_add]
    exact add_le_add le_rfl left
  refine poll.before fun result => ?_
  cases result with
  | error e => exact Spends.pure _
  | ok released => exact Spends.each fun queued _ => takeBody_released queued.id .guard

theorem maintenanceTick_spends (ticks : ℕ) : net.Spends i 0 ((net i).maintenanceTick ticks) := by
  refine pollRelease_spends.before fun _ => ?_
  dsimp only
  split
  · exact Spends.pure _
  · refine (Spends.callNode ((net i).node.sweepTimeouts_sameGate 256)).before fun _ => ?_
    exact (Spends.callNode Node.checkpoint_sameGate).before fun _ => Spends.pure _

theorem signed_yields (builder : SignalBuilder F) :
    net.Yields i 0 ((net i).signed builder) (fun signal => signal.trace = []) fun _ => 0 := by
  have built : net.Yields i 0 (callNode ((net i).node.emit builder))
      (fun r => ∀ signal, r = .ok signal → signal.trace = []) fun _ => 0 := by
    refine Spends.callNode_knows ((net i).node.emit_sameGate builder) fun s signal made => ?_
    rcases run : ((net i).node.emit builder).run s with ⟨r, t⟩
    rw [run] at made
    obtain rfl : r = .ok signal := made
    obtain ⟨now, id, rfl⟩ := (net i).node.emit_builds run
    rfl
  refine built.bind fun r known => ?_
  cases r with
  | error e => exact Yields.throw _
  | ok signal =>
    dsimp only
    cases made : (net i).crypto.signSignal signal (net i).identity.privateKey with
    | error e => exact Yields.throw _
    | ok frame =>
      obtain ⟨signature, rfl⟩ := Crypto.signSignal_signs made
      exact Yields.pure (known signal rfl) (Evolves.refl _)

theorem route_spends : net.Spends i {.hand i signal} ((net i).route signal) := by
  have planned : net.Yields i 0 (callNode ((net i).node.receiveLocal signal))
      (fun r => ∀ d, r = .ok d → d.forwardTo ≠ [] →
        net.Accepts i signal ∧ floodDepthReached signal = false) fun _ => 0 := by
    refine Spends.callNode_knows ((net i).node.receiveLocal_sameGate signal) fun s d made some => ?_
    rcases run : ((net i).node.receiveLocal signal).run s with ⟨r, t⟩
    rw [run] at made
    obtain rfl : r = .ok d := made
    exact (net i).node.receiveLocal_onward run some
  refine (planned.keeping _).bind fun r known => ?_
  cases r with
  | error e => exact Yields.throw _
  | ok d =>
    have sent : net.Spends i {.hand i signal} (.act fun s =>
        ((sendAll ((net i).outbound signal) d.forwardTo s.sessions).1.1.length,
          { s with sessions := (sendAll ((net i).outbound signal) d.forwardTo s.sessions).2 })) := by
      refine Yields.act fun s held => ⟨trivial, held, ?_⟩
      refine queues (framesAt_sendAll i _ d.forwardTo s.sessions) rfl rfl ?_
      rw [zero_add]
      by_cases some : d.forwardTo = []
      · rw [some]
        exact Evolves.of_le (Multiset.zero_le _)
      · obtain ⟨accepts, onward⟩ := known d rfl some
        have body : Evolves net.Child {.hand i signal} {.body i signal} :=
          Evolves.of_children fun c here => Multiset.mem_singleton.mp here ▸ .accepted accepts
        exact body.trans (Evolves.of_children (relays accepts fun _ => onward))
    exact sent.after fun _ => Spends.notify _

end Network
end OpenNtl
