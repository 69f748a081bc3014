import OpenNtl.ReceiptClaims

/-! # Receipts tell the truth

A receipt of delivery resolves a decision at the node that made it and strengthens a synapse there.
The node that sent the receipt has handed the signal to its application, whatever the other tasks
of the two nodes, and of all others, did in between.
-/
namespace OpenNtl

open AtomicProgram NodeM RuntimeM

variable {ι F : Type} [DecidableEq ι]

namespace Network

variable [Scalar F] {net : Network ι F} {i : ι} (readable : net.ReadsReceipts)

include readable

omit [Scalar F] [DecidableEq ι] in
theorem reports_receipt {frame : Signal F} {receipt : Receipt}
    (payload : frame.payload = (net i).crypto.receiptToValue receipt) :
    net.reports i frame ⊆ receipt.claims i := by
  rintro x ⟨-, j, read, found, done, rfl⟩
  rw [payload] at found
  obtain ⟨correlationId, status⟩ := readable i j receipt read found
  exact ⟨status ▸ done, congrArg (Prod.mk i) correlationId⟩

theorem makeReceipt_truthful (receipt : Receipt) (origin : NodeId) :
    net.TellsNothing i (fun made => ∀ frame, made = some frame →
      net.reports i frame ⊆ receipt.claims i) ((net i).makeReceipt receipt origin) := by
  have emitted : net.TellsNothing i (fun r => ∀ signal, r = .ok signal →
      signal.payload = (net i).crypto.receiptToValue receipt)
      (callNode ((net i).node.emit ((net i).crypto.receiptSignal receipt origin))) := by
    refine StaysTruthful.callNode (.emit _) rfl (fun _ _ same => by cases same)
      fun s signal made => ?_
    rcases run : ((net i).node.emit ((net i).crypto.receiptSignal receipt origin)).run s with ⟨r, t⟩
    rw [run] at made
    obtain rfl : r = .ok signal := made
    obtain ⟨now, id, rfl⟩ := (net i).node.emit_builds run
    rfl
  refine (StaysTruthful.mark _).before fun _ _ => emitted.before fun r known => ?_
  cases r with
  | error e =>
    refine .pure (fun frame made => ?_) subset_rfl
    cases made
  | ok signal =>
    refine .pure (fun frame made => ?_) subset_rfl
    cases signed : (net i).crypto.signSignal signal (net i).identity.privateKey with
    | error e =>
      rw [signed] at made
      cases made
    | ok frame' =>
      rw [signed] at made
      obtain rfl := Option.some.inj made
      obtain ⟨signature, rfl⟩ := Crypto.signSignal_signs signed
      exact reports_receipt readable (known signal rfl)

theorem sendReceiptTo_truthful {receipt : Receipt} {need : Set (ι × SignalId)}
    (enough : receipt.claims i ⊆ need) (origin : NodeId) :
    net.StaysTruthful i need ((net i).sendReceiptTo receipt origin) (fun _ => True)
      fun _ => ∅ := by
  refine (makeReceipt_truthful readable receipt origin).before fun made honest => ?_
  cases made with
  | none => exact .pure trivial (Set.empty_subset _)
  | some frame =>
    refine .still (fun _ => rfl) fun s D truthful => ⟨trivial, fun known => ?_⟩
    have told : net.reports i frame ⊆ D := (honest frame rfl).trans (enough.trans known)
    exact { truthful with queued := queued_trySendTo truthful.queued origin told }

theorem sendReceipt_truthful {receipt : Receipt} {need : Set (ι × SignalId)}
    (enough : receipt.claims i ⊆ need) (origin : NodeId) (via : PeerIdentity) :
    net.StaysTruthful i need ((net i).sendReceipt receipt origin via) (fun _ => True)
      fun _ => ∅ := by
  refine (makeReceipt_truthful readable receipt origin).before fun made honest => ?_
  cases made with
  | none => exact .pure trivial (Set.empty_subset _)
  | some frame =>
    refine .still (fun _ => rfl) fun s D truthful => ⟨trivial, fun known => ?_⟩
    have told : net.reports i frame ⊆ D := (honest frame rfl).trans (enough.trans known)
    exact { truthful with queued := queued_trySendTo truthful.queued _ told }

omit readable

theorem sendAll_truthful {α : Type} {body : Signal F} (relayed : body.signalType ≠ .receipt)
    (forwards : List Forward) (answer : RuntimeState F → α) :
    net.TellsNothing i (fun _ => True) (.act fun s => (answer s,
      { s with sessions := (sendAll ((net i).outbound body) forwards s.sessions).2 })) := by
  refine .still (fun _ => rfl) fun s D truthful => ⟨trivial, fun _ => ?_⟩
  have silent : net.reports i ((net i).outbound body) = ∅ := reports_relayed relayed
  refine { truthful with queued := queued_sendAll truthful.queued forwards ?_ }
  rw [silent]
  exact Set.empty_subset D

theorem forwardSignal_truthful {body : Signal F} (relayed : body.signalType ≠ .receipt)
    (forwards : List Forward) :
    net.TellsNothing i (fun _ => True) ((net i).forwardSignal body forwards) := by
  rw [Runtime.forwardSignal]
  by_cases none : forwards.isEmpty = true
  · rw [if_pos none]
    exact .pure trivial subset_rfl
  · rw [if_neg none]
    refine StaysTruthful.before (sendAll_truthful relayed forwards _) fun split _ => ?_
    refine StaysTruthful.before (R := fun _ => True) ?_ fun _ _ => ?_
    · refine .forM fun forward _ => ?_
      have failed : net.TellsNothing i (fun _ => True)
          (callNode ((net i).node.failForward forward.journalId)) :=
        .callNode (.failForward _) rfl (fun _ _ same => by cases same) fun _ => trivial
      exact failed.before fun _ _ => .pure trivial subset_rfl
    · exact StaysTruthful.report.before fun _ _ => .pure trivial subset_rfl

theorem arrivalOf_truthful (body : Signal F) :
    net.TellsNothing i (fun _ => True) (Runtime.arrivalOf body) := by
  rw [Runtime.arrivalOf]
  cases body.trace.getLast? with
  | none => exact .pure trivial subset_rfl
  | some hop =>
    have found : net.TellsNothing i (fun _ => True) (callNode (Node.synapseForPeer (F := F) hop)) :=
      .callNode (.synapseForPeer hop) rfl (fun _ _ same => by cases same) fun _ => trivial
    refine found.before fun found _ => ?_
    split
    · exact .pure trivial subset_rfl
    · exact .pure trivial subset_rfl

theorem releasePlan_truthful (body : Signal F) (arrival : Option SynapseId)
    (plan : Option (List Forward)) :
    net.TellsNothing i (fun _ => True) ((net i).releasePlan body arrival plan) := by
  cases plan with
  | some forwards => exact .pure trivial subset_rfl
  | none =>
    have planned : net.TellsNothing i (fun _ => True)
        (callNode ((net i).node.planRelease body arrival)) :=
      .callNode (.planRelease body arrival) rfl (fun _ _ same => by cases same) fun _ => trivial
    refine planned.before fun r _ => ?_
    cases r with
    | error e => exact .pure trivial subset_rfl
    | ok forwards => exact .pure trivial subset_rfl

include readable

theorem releaseSignal_truthful {body : Option (Signal F)} {id : SignalId}
    (known : ∀ b, body = some b → b.id = id ∧ b.signalType ≠ .receipt)
    (plan : Option (List Forward)) (how : Runtime.Release) :
    net.TellsNothing i (fun _ => True) ((net i).releaseSignal id body plan how) := by
  cases body with
  | none => exact StaysTruthful.report
  | some body =>
    obtain ⟨rfl, relayed⟩ := known body rfl
    refine StaysTruthful.bind StaysTruthful.notify fun _ _ => ?_
    refine (arrivalOf_truthful body).before fun arrival _ => ?_
    refine (releasePlan_truthful body arrival plan).before fun forwards _ => ?_
    refine (forwardSignal_truthful relayed forwards).before fun delivered _ => ?_
    by_cases owed : body.requiresReceipt = true
    · rw [if_pos owed]
      refine (sendReceiptTo_truthful readable ?_ body.origin).bind fun _ _ => ?_
      · rintro x ⟨-, rfl⟩
        rw [correlation_releaseReceipt]
        refine Or.inr ⟨body, ?_, rfl⟩
        cases how with
        | threshold => rfl
        | guard => rfl
      · exact .pure trivial (Set.empty_subset _)
    · rw [if_neg owed]
      exact .pure trivial (Set.empty_subset _)

theorem reportEvicted_truthful (ev : Evicted F) :
    net.TellsNothing i (fun _ => True) ((net i).reportEvicted ev) := by
  refine (StaysTruthful.takeBody ev.signal.id).before fun body _ => ?_
  refine StaysTruthful.report.before fun _ _ => ?_
  by_cases owed : ev.needsReceipt = true
  · rw [if_pos owed]
    refine (sendReceiptTo_truthful readable (claims_rejection rfl) _).before fun _ _ => ?_
    exact .pure trivial subset_rfl
  · rw [if_neg owed]
    exact .pure trivial subset_rfl

theorem reportRefusal_truthful (signal : Signal F) (peer : PeerIdentity) {d : Disposition F}
    (rejects : ∀ receipt, d.receipt = some receipt → receipt.isDelivered = false) :
    net.TellsNothing i (fun _ => True) ((net i).reportRefusal signal peer d) := by
  have answered : net.TellsNothing i (fun _ => True)
      (d.receipt.forM fun receipt => (net i).sendReceipt receipt signal.origin peer) :=
    .optional fun receipt earned =>
      sendReceipt_truthful readable (claims_rejection (rejects receipt earned)) signal.origin peer
  exact answered.before fun _ _ => .optional fun reason _ => StaysTruthful.report

theorem releaseFired_truthful {signal : Signal F} (relayed : signal.signalType ≠ .receipt)
    (d : Disposition F) :
    net.TellsNothing i (fun _ => True) ((net i).releaseFired signal d) := by
  refine .forM fun released _ => ?_
  by_cases own : released.id = signal.id
  · rw [if_pos own]
    refine releaseSignal_truthful readable (fun b here => ?_) _ _
    obtain rfl := Option.some.inj here
    exact ⟨own.symm, relayed⟩
  · rw [if_neg own]
    exact (StaysTruthful.takeBody released.id).before fun body known =>
      releaseSignal_truthful readable known _ _

omit readable

omit [Scalar F] in
theorem rememberBody_truthful {signal : Signal F} (relayed : signal.signalType ≠ .receipt) :
    net.TellsNothing i (fun _ => True) ((net i).rememberBody signal) := by
  refine .still (fun _ => rfl) fun s D truthful => ⟨trivial, fun _ => ?_⟩
  refine { truthful with pending := fun id body there => ?_ }
  rcases (net i).lookup_rememberBody signal s there with ⟨rfl, rfl⟩ | old
  · exact ⟨rfl, relayed⟩
  · exact truthful.pending id body old

theorem callReceive_truthful (signal : Signal F) (arrival : Option SynapseId) :
    net.TellsNothing i
      (fun r => ∀ d, r = .ok d →
        ∀ receipt, d.receipt = some receipt → receipt.isDelivered = false)
      ((net i).callReceive signal arrival) := by
  refine .still (fun _ => rfl) fun s D truthful => ⟨fun d made => ?_, fun _ => ?_⟩
  · rcases run : ((net i).node.receive signal arrival).run s.node with ⟨r, t⟩
    dsimp only at made
    rw [run] at made
    obtain rfl : r = .ok d := made
    exact (net i).node.receive_rejects run
  · have called := truthful.called (.receive signal arrival) fun _ _ same => by cases same
    rw [Node.perform, Prog.run_map] at called
    exact { called with queued := called.queued }

theorem synapseOf_truthful (peer : NodeId) :
    net.TellsNothing i (fun _ => True) (callNode (Node.synapseForPeer (F := F) peer)) :=
  .callNode (.synapseForPeer peer) rfl (fun _ _ same => by cases same) fun _ => trivial

include readable in
theorem handleArrival_truthful {signal : Signal F} (relayed : signal.signalType ≠ .receipt)
    (peer : PeerIdentity) :
    net.TellsNothing i (fun _ => True) ((net i).handleArrival signal peer) := by
  refine StaysTruthful.before (R := fun _ => True) ?_ fun arrival _ => ?_
  · refine (synapseOf_truthful peer.nodeId).before fun r _ => ?_
    split
    · exact .pure trivial subset_rfl
    · exact .pure trivial subset_rfl
  · refine (callReceive_truthful signal arrival).before fun result known => ?_
    cases result with
    | error e => exact .pure trivial subset_rfl
    | ok d =>
      have evicted : net.TellsNothing i (fun _ => True) (d.evicted.forM (net i).reportEvicted) :=
        .optional fun ev _ => reportEvicted_truthful readable ev
      refine evicted.before fun _ _ => ?_
      refine (reportRefusal_truthful readable signal peer (known d rfl)).before fun _ _ => ?_
      refine (releaseFired_truthful readable relayed d).before fun _ _ => ?_
      by_cases queued : d.queued = true
      · rw [if_pos queued]
        exact rememberBody_truthful relayed
      · rw [if_neg queued]
        exact .pure trivial subset_rfl

theorem handleReceipt_truthful {frame : Signal F} (kind : frame.signalType = .receipt) (k : ι) :
    net.StaysTruthful i (net.reports k frame) ((net i).handleReceipt frame (net.peerOf k))
      (fun _ => True) fun _ => ∅ := by
  rw [Runtime.handleReceipt]
  cases read : (net i).crypto.receiptFromValue frame.payload with
  | none => exact .pure trivial (Set.empty_subset _)
  | some receipt =>
    have applied : net.StaysTruthful i (net.reports k frame)
        (callNode ((net i).node.applyReceipt receipt (net.peerOf k).nodeId)) (fun _ => True)
        fun _ => ∅ := by
      refine .still (fun _ => rfl) fun s D truthful => ⟨trivial, fun known => ?_⟩
      have told : receipt.claims k ⊆ D := fun x claimed => known ⟨kind, i, receipt, read, claimed⟩
      have called := truthful.receipt told
      rw [Node.perform, Prog.run_map] at called
      exact called
    refine applied.bind fun r _ => StaysTruthful.unneeded ?_
    split
    · exact StaysTruthful.report
    · exact .pure trivial subset_rfl

theorem handleBadSignature_truthful (peer : PeerIdentity) :
    net.TellsNothing i (fun _ => True) ((net i).handleBadSignature peer) := by
  refine StaysTruthful.before (R := fun _ => True) ?_ fun pruned _ => ?_
  · refine (synapseOf_truthful peer.nodeId).before fun r _ => ?_
    split
    · rename_i record
      have penalized : net.TellsNothing i (fun _ => True)
          (callNode ((net i).node.penalizeSignatureFailure record.id)) :=
        .callNode (.penalizeSignatureFailure _) rfl (fun _ _ same => by cases same) fun _ => trivial
      refine penalized.before fun outcome _ => ?_
      split
      · exact .pure trivial subset_rfl
      · exact .pure trivial subset_rfl
    · exact .pure trivial subset_rfl
  · refine StaysTruthful.report.before fun _ _ => ?_
    split
    · exact Prog.Gathers.throw _
    · exact .pure trivial subset_rfl

include readable in
theorem handleFrame_truthful (k : ι) (frame : Signal F) :
    net.StaysTruthful i (net.reports k frame) ((net i).handleFrame (net.peerOf k) frame)
      (fun _ => True) fun _ => ∅ := by
  have keyed : net.TellsNothing i (fun _ => True) (Runtime.originKey frame (net.peerOf k)) := by
    rw [Runtime.originKey]
    by_cases direct : frame.origin = (net.peerOf k).nodeId
    · rw [if_pos direct]
      exact .pure trivial subset_rfl
    · rw [if_neg direct]
      exact .still (fun _ => rfl) fun s D truthful => ⟨trivial, fun _ => truthful⟩
  rw [Runtime.handleFrame_eq]
  refine keyed.before fun found _ => ?_
  cases found with
  | none => exact .unneeded .report
  | some key =>
    rw [Runtime.handleKeyed]
    by_cases bad : ((net i).crypto.verifySignal frame key).toOption.getD false = false
    · rw [if_pos bad]
      exact .unneeded (handleBadSignature_truthful _)
    · rw [if_neg bad, Runtime.handleVerified]
      by_cases malformed : Scalar.isFinite frame.weight = false
      · rw [if_pos malformed]
        exact .unneeded .report
      · rw [if_neg malformed]
        -- clamping the headers leaves the type and the payload alone
        let clamped := (clampInboundHeaders frame (net i).node.config.propagation).2
        have next : net.StaysTruthful i (net.reports k frame)
            (if clamped.signalType = .receipt then (net i).handleReceipt clamped (net.peerOf k)
              else (net i).handleArrival clamped (net.peerOf k)) (fun _ => True) fun _ => ∅ := by
          by_cases kind : clamped.signalType = .receipt
          · rw [if_pos kind]
            exact handleReceipt_truthful kind k
          · rw [if_neg kind]
            exact .unneeded (handleArrival_truthful readable kind _)
        dsimp only
        split
        · exact StaysTruthful.report.before fun _ _ => next
        · exact next

include readable in
theorem maintenanceTick_truthful (ticks : ℕ) :
    net.TellsNothing i (fun _ => True) ((net i).maintenanceTick ticks) := by
  have polled : net.TellsNothing i (fun _ => True) (callNode (Node.pollActivation (F := F))) :=
    .callNode .pollActivation rfl (fun _ _ same => by cases same) fun _ => trivial
  have swept : net.TellsNothing i (fun _ => True) (callNode ((net i).node.sweepTimeouts 256)) :=
    .callNode (.sweepTimeouts 256) rfl (fun _ _ same => by cases same) fun _ => trivial
  have saved : net.TellsNothing i (fun _ => True) (callNode (Node.checkpoint (F := F))) :=
    have made : (net i).node.perform .checkpoint = (fun _ => .done) <$> Node.checkpoint := rfl
    .callNode .checkpoint made (fun _ _ same => by cases same) fun _ => trivial
  refine StaysTruthful.before (R := fun _ => True) ?_ fun _ _ => ?_
  · refine polled.before fun r _ => ?_
    cases r with
    | error e => exact .pure trivial subset_rfl
    | ok released =>
      refine .forM fun queued _ => ?_
      exact (StaysTruthful.takeBody queued.id).before fun body known =>
        releaseSignal_truthful readable known _ _
  · dsimp only
    split
    · exact .pure trivial subset_rfl
    · exact swept.before fun _ _ => saved.before fun _ _ => .pure trivial subset_rfl

theorem emitAt_truthful {builder : SignalBuilder F} (relayed : builder.signalType ≠ .receipt) :
    (net.emitAt i builder).Gathers net.Truthful NetState.delivered ∅ (fun _ => True)
      fun _ => ∅ := by
  have signed : net.TellsNothing i (fun signal => signal.signalType ≠ .receipt)
      ((net i).signed builder) := by
    have emitted : net.TellsNothing i (fun r => ∀ signal, r = .ok signal →
        signal.signalType ≠ .receipt) (callNode ((net i).node.emit builder)) := by
      refine .callNode (.emit _) rfl (fun _ _ same => by cases same) fun s signal made => ?_
      rcases run : ((net i).node.emit builder).run s with ⟨r, t⟩
      rw [run] at made
      obtain rfl : r = .ok signal := made
      obtain ⟨now, id, rfl⟩ := (net i).node.emit_builds run
      exact relayed
    refine emitted.before fun r known => ?_
    cases r with
    | error e => exact Prog.Gathers.throw _
    | ok signal =>
      dsimp only
      cases signed : (net i).crypto.signSignal signal (net i).identity.privateKey with
      | error e => exact Prog.Gathers.throw _
      | ok frame =>
        obtain ⟨signature, rfl⟩ := Crypto.signSignal_signs signed
        exact .pure (known signal rfl) subset_rfl
  refine Prog.Gathers.before signed fun signal relayed => ?_
  refine Prog.Gathers.before (R := fun _ => True) ?_ fun _ _ => ?_
  · exact Prog.Gathers.act fun w truthful =>
      ⟨trivial, fun _ => ⟨truthful, subset_rfl, Set.empty_subset _⟩⟩
  · have routed : net.TellsNothing i (fun _ => True)
        (callNode ((net i).node.receiveLocal signal)) :=
      .callNode (.receiveLocal signal) rfl (fun _ _ same => by cases same) fun _ => trivial
    refine StaysTruthful.before routed fun r _ => ?_
    cases r with
    | error e => exact Prog.Gathers.throw _
    | ok d =>
      exact StaysTruthful.before (sendAll_truthful relayed d.forwardTo _) fun _ _ => .report

omit [Scalar F] in
theorem transmit_truthful (i j : ι) :
    (net.transmit i j).Gathers net.Truthful NetState.delivered ∅ (fun _ => True)
      fun o => o.elim ∅ (net.reports i) := by
  refine Prog.Gathers.act fun w truthful => ⟨trivial, fun _ => ?_⟩
  cases found : (w.nodes i).sessions.lookup (net j).identity.nodeId with
  | none =>
    rw [NetState.popFrame, found]
    exact ⟨truthful, subset_rfl, Set.empty_subset _⟩
  | some session =>
    cases queue : session.outbound with
    | nil =>
      simp only [NetState.popFrame, found, queue]
      exact ⟨truthful, subset_rfl, Set.empty_subset _⟩
    | cons frame rest =>
      simp only [NetState.popFrame, found, queue]
      have told : net.reports i frame ⊆ w.delivered :=
        (truthful i).queued _ session found frame (queue ▸ List.mem_cons_self)
      let shorter : Session F := { session with outbound := rest }
      let s' : RuntimeState F := { w.nodes i with
        sessions := (w.nodes i).sessions.insert (net j).identity.nodeId shorter }
      have more : w.delivered ⊆ (w.setNode i s').delivered := delivered_setNode fun _ here => here
      refine ⟨fun k => ?_, more, told.trans more⟩
      by_cases same : k = i
      · subst same
        change net.TruthfulAt (w.setNode k s').delivered k ((Function.update w.nodes k s') k)
        rw [Function.update_self]
        refine { (truthful k).mono more with queued := fun peer session' there f member => ?_ }
        by_cases peers : peer = (net j).identity.nodeId
        · subst peers
          obtain rfl := Option.some.inj ((AList.lookup_insert _).symm.trans there)
          exact ((truthful k).queued _ session found f
            (queue ▸ List.mem_cons_of_mem frame member)).trans more
        · exact ((truthful k).queued peer session'
            ((AList.lookup_insert_ne peers).symm.trans there) f member).trans more
      · change net.TruthfulAt (w.setNode i s').delivered k ((Function.update w.nodes i s') k)
        rw [Function.update_of_ne same]
        exact (truthful k).mono more

include readable in
theorem readFrame_truthful (i j : ι) :
    (net.readFrame i j).Gathers net.Truthful NetState.delivered ∅ (fun _ => True)
      fun _ => ∅ := by
  refine (transmit_truthful i j).bind fun o _ => ?_
  rw [Set.empty_union]
  cases o with
  | none => exact .pure trivial subset_rfl
  | some frame => exact handleFrame_truthful readable i frame

/-- Applications emit anything but receipts, and read loops check every frame. -/
def HonestMenu (net : Network ι F) : NetTask ι → NetM ι F Unit → Prop
  | .application i _, p => ∃ builder, builder.signalType ≠ .receipt ∧ p = net.emitAt i builder
  | .readLoop i j _, p => p = net.readFrame i j
  | .maintenance i, p => ∃ ticks, p = onNode i ((net i).maintenanceTick ticks)

end Network

/-- Time passes, sessions come and go, stores change or fail, but for the journals. The events are
everything that the application has been handed. -/
structure Interlude (w w' : NetState ι F) : Prop extends NetOutside w w' where
  events : ∀ i, (w'.nodes i).events = (w.nodes i).events
  journal : ∀ i, (w'.nodes i).node.store.journal = (w.nodes i).node.store.journal
  numbering : ∀ i, (w'.nodes i).node.store.nextJournalId = (w.nodes i).node.store.nextJournalId
  learned : ∀ i, (w'.nodes i).node.learned = (w.nodes i).node.learned

namespace Network

variable [Scalar F] {net : Network ι F}

abbrev HonestRun (net : Network ι F) : NetPool ι F → NetPool ι F → Prop :=
  Pool.Run net.HonestMenu Interlude fun _ _ => True

omit [Scalar F] [DecidableEq ι] in
theorem Truthful.interlude {w w' : NetState ι F} (truthful : net.Truthful w)
    (change : Interlude w w') : net.Truthful w' ∧ w.delivered ⊆ w'.delivered := by
  have more : w.delivered ⊆ w'.delivered := by
    rintro ⟨k, id⟩ ⟨e, member, handed⟩
    exact ⟨e, change.events k ▸ member, handed⟩
  refine ⟨fun i => ⟨fun peer session there frame member => ?_, ?_, ?_, ?_, ?_⟩, more⟩
  · rcases (change.nodes i).sessions peer session there with empty | ⟨session', here, same⟩
    · rw [empty] at member
      cases member
    · exact ((truthful i).queued peer session' here frame (same ▸ member)).trans more
  · rw [(change.nodes i).pending]
    exact (truthful i).pending
  · rw [JournalOrdered, change.journal i, change.numbering i]
    exact (truthful i).ordered
  · rw [change.journal i]
    exact ((truthful i).mono more).earned
  · rw [change.journal i, change.learned i]
    exact (truthful i).taught

end Network

/-- No decision has been acknowledged, and none taught. -/
structure Unacknowledged (s : NodeState F) : Prop where
  ordered : JournalOrdered s.store
  delivered : ∀ e ∈ s.store.journal, e.outcome ≠ .delivered
  learned : s.learned = []

namespace Network

variable [Scalar F] {net : Network ι F}

theorem HonestRun.truthful {P₀ P : NetPool ι F} (readable : net.ReadsReceipts)
    (start : Deployed P₀) (new : ∀ i, Unacknowledged (P₀.state.nodes i).node)
    (run : net.HonestRun P₀ P) : net.Truthful P.state := by
  refine Pool.Run.gathers (fun t p offered => ?_)
    (fun w w' truthful change => truthful.interlude change) (fun i => ?_) start.idle run
  · cases t with
    | application i caller =>
      obtain ⟨builder, relayed, rfl⟩ := offered
      exact emitAt_truthful relayed
    | readLoop i j session =>
      obtain rfl : p = net.readFrame i j := offered
      exact readFrame_truthful readable i j
    | maintenance i =>
      obtain ⟨ticks, rfl⟩ := offered
      exact maintenanceTick_truthful readable ticks
  · refine ⟨fun peer session there frame member => ?_, fun id body there => ?_, (new i).ordered,
      fun e member done => absurd done ((new i).delivered e member), fun id taught => ?_⟩
    · rw [start.outbound i peer session there] at member
      cases member
    · rw [start.pending i] at there
      cases there
    · rw [(new i).learned] at taught
      cases taught

end Network

/-- However the tasks of all nodes interleave, a decision counts as delivered, and is rewarded as
such, only if the peer that the signal was routed to has handed it to its application. -/
theorem receipts_are_truthful {net : Network ι F} [Scalar F] {P₀ P : NetPool ι F}
    (readable : net.ReadsReceipts) (start : Deployed P₀)
    (new : ∀ i, Unacknowledged (P₀.state.nodes i).node) (run : net.HonestRun P₀ P) (i : ι) :
    (∀ e ∈ (P.state.nodes i).node.store.journal, e.outcome = .delivered →
      ∃ k, (net k).identity.nodeId = e.peer ∧ e.signal ∈ (P.state.nodes k).handed) ∧
    ∀ id, (some id, Outcome.delivered) ∈ (P.state.nodes i).node.learned →
      ∃ e ∈ (P.state.nodes i).node.store.journal, e.id = some id ∧ e.outcome = .delivered := by
  have truthful := run.truthful readable start new
  exact ⟨(truthful i).earned, (truthful i).taught⟩

/-! A neighbour hands a signal to its application and acknowledges it. -/

section Sample

def acknowledgedOnce {n : ℕ} (i j : Fin n) : List (NetTask (Fin n) × NetM (Fin n) ℚ Unit) :=
  [(.application i 0, (edgeNetwork n).emitAt i (flooding 5 10).acknowledged),
    (.readLoop i j 0, (edgeNetwork n).readFrame i j),
    (.readLoop j i 0, (edgeNetwork n).readFrame j i)]

theorem edgeNetwork_readsReceipts (n : ℕ) : (edgeNetwork n).ReadsReceipts := by
  intro i j receipt read found
  obtain ⟨correlationId, status, hops⟩ := receipt
  obtain rfl := Option.some.inj found
  refine ⟨?_, ?_⟩
  · simp
  · cases status with
    | delivered => rfl
    | rejected reason => rfl

theorem wired_unacknowledged {n : ℕ} (links : Fin n → List (Fin n)) (k : Fin n) :
    Unacknowledged ((wired links).state.nodes k).node := by
  have fresh : ∀ (peers : List (Fin n)) (st : MemoryStore ℚ),
      (peers.foldl (fun st (j : Fin n) => st.putSynapse (synapseTo (nameOf j))) st).journal =
        st.journal ∧
      (peers.foldl (fun st (j : Fin n) => st.putSynapse (synapseTo (nameOf j))) st).nextJournalId =
        st.nextJournalId := by
    intro peers
    induction peers with
    | nil => exact fun _ => ⟨rfl, rfl⟩
    | cons j rest ih => exact fun st => ih _
  obtain ⟨journal, numbering⟩ := fresh (links k) .new
  have empty : ((wired links).state.nodes k).node.store.journal = [] := journal
  refine ⟨?_, fun e member => ?_, rfl⟩
  · rw [JournalOrdered, empty, show ((wired links).state.nodes k).node.store.nextJournalId = 0 from
      numbering]
    rfl
  · rw [empty] at member
    cases member

theorem acknowledged_means_handed : ∃ P, (edgeNetwork 4).HonestRun (wired kite) P ∧
    ∃ e ∈ (P.state.nodes 0).node.store.journal, e.outcome = .delivered ∧
      ∃ k, (edgeNetwork 4 k).identity.nodeId = e.peer ∧ e.signal ∈ (P.state.nodes k).handed := by
  have offered : ∀ job ∈ acknowledgedOnce 0 1, (edgeNetwork 4).HonestMenu job.1 job.2 := by
    intro job here
    simp only [acknowledgedOnce, List.mem_cons, List.not_mem_nil, or_false] at here
    rcases here with rfl | rfl | rfl
    · exact ⟨(flooding 5 10).acknowledged, nofun, rfl⟩
    · exact rfl
    · exact rfl
  have begun : (edgeNetwork 4).HonestRun (wired kite) (wired kite) := .refl
  obtain ⟨P, run, -, state⟩ := begun.performAll (fun _ _ => trivial) (wired_deployed kite).idle
    (acknowledgedOnce 0 1) offered
  have acknowledged : ((P.state.nodes 0).node.store.journal.any
      fun e => decide (e.outcome = .delivered)) = true := by
    rw [state]
    decide +kernel
  obtain ⟨e, member, done⟩ := List.any_eq_true.mp acknowledged
  refine ⟨P, run, e, member, of_decide_eq_true done, ?_⟩
  exact (receipts_are_truthful (edgeNetwork_readsReceipts 4) (wired_deployed kite)
    (wired_unacknowledged kite) run 0).1 e member (of_decide_eq_true done)

end Sample
end OpenNtl
