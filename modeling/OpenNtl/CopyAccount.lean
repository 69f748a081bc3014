import OpenNtl.Credit
import OpenNtl.LiveClaims
import OpenNtl.VouchedTraffic

/-! # Copies and what allows them

A copy of a signal is in the queue or in the application's hands. What the claims allow bounds how
many there are, and each program of the runtime keeps within it, next to any others.
-/
namespace OpenNtl

open AtomicProgram NodeM RuntimeM

variable {F : Type}

def Event.hands (id : SignalId) (e : Event F) : Bool := decide (e.body.map Signal.id = some id)

def handings (id : SignalId) (events : List (Event F)) : ℕ := events.countP (Event.hands id)

def Runtime.dedupWindow (rt : Runtime F) : ℕ :=
  saturatingMul rt.node.config.propagation.dedupCacheSeconds nanosPerSec

/-- The clock does not run backwards, nor beyond the limit. -/
structure NodeState.TimePasses (limit : ℕ) (s s' : NodeState F) : Prop where
  forward : s.clock ≤ s'.clock
  within : s'.clock ≤ limit

/-- Time passes, no claim is taken back and nothing is queued. -/
structure NodeState.Onward (limit : ℕ) (s s' : NodeState F) : Prop
    extends NodeState.TimePasses limit s s' where
  claims : ∀ id, max (claimEnd id s.store) s.clock ≤ max (claimEnd id s'.store) s'.clock
  queue : ∀ q ∈ s'.activation.queue, q ∈ s.activation.queue

/-- How many copies of an id there may be, in the states that `holds` of. Only an arrival adds one,
and it is allowed. -/
structure Allowance [Scalar F] (rt : Runtime F) (id : SignalId) (limit : ℕ) where
  holds : NodeState F → Prop
  issued : NodeState F → ℕ
  kept : ∀ s s', holds s → s.Onward limit s' → holds s' ∧ issued s ≤ issued s'
  received : ∀ signal arrival s, holds s →
    s.TimePasses limit ((rt.node.receive signal arrival).run s).2 →
    holds ((rt.node.receive signal arrival).run s).2 ∧
      Node.releases id ((rt.node.receive signal arrival).run s).1 +
        copiesOf id ((rt.node.receive signal arrival).run s).2.activation.queue + issued s ≤
      copiesOf id s.activation.queue + issued ((rt.node.receive signal arrival).run s).2

namespace Allowance

variable [Scalar F] {rt : Runtime F} {id : SignalId} {limit : ℕ}

def account (c : Allowance rt id limit) : Account (RuntimeState F) where
  issued s := c.issued s.node
  used s := copiesOf id s.node.activation.queue + handings id s.events

/-- Bodies are cached under their own identifiers. -/
structure Running (c : Allowance rt id limit) (s : RuntimeState F) : Prop where
  keyed : ∀ id body, s.pending.lookup id = some body → body.id = id
  holds : c.holds s.node

/-- A program with credit for `need` copies that leaves credit for `gain`. -/
abbrev Copying (c : Allowance rt id limit) {α : Type} (need : ℕ) (p : RuntimeM F α)
    (R : α → Prop) (gain : α → ℕ) : Prop :=
  p.Affords c.account c.Running (fun s s' => s.node.TimePasses limit s'.node) need R gain

abbrev CopiesNothing (c : Allowance rt id limit) {α : Type} (R : α → Prop) (p : RuntimeM F α) :
    Prop := c.Copying 0 p R fun _ => 0

variable {c : Allowance rt id limit} {α : Type}

theorem CopiesNothing.still {f : RuntimeState F → α × RuntimeState F} {R : α → Prop}
    (h : ∀ s, c.Running s → R (f s).1 ∧
      ∀ id body, (f s).2.pending.lookup id = some body → body.id = id)
    (node : ∀ s, (f s).2.node = s.node) (events : ∀ s, (f s).2.events = s.events) :
    c.CopiesNothing R (.act f) := by
  refine .act fun s runs => ⟨(h s runs).1, fun _ => ⟨⟨(h s runs).2, ?_⟩, ?_⟩⟩
  · rw [node]
    exact runs.holds
  · rw [account]
    dsimp only
    rw [node, events]

theorem CopiesNothing.mark (m : Mark) : c.CopiesNothing (fun _ => True) (RuntimeM.mark m) :=
  .still (fun _ runs => ⟨trivial, runs.keyed⟩) (fun _ => rfl) fun _ => rfl

theorem Copying.notify (e : Event F) : c.Copying (if e.hands id then 1 else 0)
    (RuntimeM.notify e) (fun _ => True) fun _ => 0 := by
  refine .act fun s runs => ⟨trivial, fun _ => ⟨⟨runs.keyed, runs.holds⟩, ?_⟩⟩
  change 0 + (copiesOf id s.node.activation.queue + handings id (s.events ++ [e])) +
    c.issued s.node ≤ _ + (copiesOf id s.node.activation.queue + handings id s.events) +
      c.issued s.node
  rw [handings, List.countP_append, List.countP_singleton, handings]
  omega

theorem Copying.handing {e : Event F} {body : Signal F} (carried : e.body = some body) :
    c.Copying (if body.id = id then 1 else 0) (RuntimeM.notify e) (fun _ => True) fun _ => 0 := by
  refine (Copying.notify e).mono ?_ (fun _ holds => holds) fun _ _ => le_rfl
  simp [Event.hands, carried]

theorem CopiesNothing.report {e : Event F} (bare : e.body = none) :
    c.CopiesNothing (fun _ => True) (RuntimeM.notify e) := by
  have free : c.Copying (if e.hands id then 1 else 0) (RuntimeM.notify e) (fun _ => True)
    fun _ => 0 := .notify e
  rw [Event.hands, bare] at free
  exact free

theorem CopiesNothing.takeBody (key : SignalId) : c.CopiesNothing
    (fun found => ∀ body, found = some body → body.id = key) (RuntimeM.takeBody key) := by
  refine .still (fun s runs => ⟨runs.keyed key, fun other body there => ?_⟩) (fun _ => rfl)
    fun _ => rfl
  exact runs.keyed other body (HashMap.lookup_of_erase there)

theorem CopiesNothing.callNode {p : NodeM F α} (call : Call F) {reply : α → Reply F}
    (made : rt.node.perform call = reply <$> p) (gate : p.Within SameGate) :
    c.CopiesNothing (fun _ => True) (RuntimeM.callNode p) := by
  refine .act fun s runs => ⟨trivial, fun time => ?_⟩
  have queue : (p.run s.node).2.activation = s.node.activation :=
    gate.run SameGate.refl .trans s.node
  have onward : s.node.Onward limit (p.run s.node).2 := by
    refine { time with claims := fun key => ?_, queue := fun q waits => queue ▸ waits }
    have performed := rt.node.perform_claimEnd key call s.node
    rw [made, Prog.run_map] at performed
    exact performed time.forward
  obtain ⟨holds, issued⟩ := c.kept s.node _ runs.holds onward
  refine ⟨⟨runs.keyed, holds⟩, ?_⟩
  change 0 + (copiesOf id (p.run s.node).2.activation.queue + handings id s.events) +
    c.issued s.node ≤ 0 + (copiesOf id s.node.activation.queue + handings id s.events) +
      c.issued (p.run s.node).2
  rw [queue]
  omega

theorem Copying.pollActivation :
    c.Copying 0 (RuntimeM.callNode (Node.pollActivation (F := F))) (fun _ => True)
      fun r => r.toOption.elim 0 (copiesOf id) := by
  refine .act fun s runs => ⟨trivial, fun time => ?_⟩
  have perm := s.node.activation.drainIfStarving_perm s.node.clock
  have onward : s.node.Onward limit ((Node.pollActivation (F := F)).run s.node).2 := {
    time with
    claims := fun _ => le_rfl
    queue := fun q waits => perm.mem_iff.mp (List.mem_append_right _ waits) }
  obtain ⟨holds, issued⟩ := c.kept s.node _ runs.holds onward
  refine ⟨⟨runs.keyed, holds⟩, ?_⟩
  have count : copiesOf id (s.node.activation.drainIfStarving s.node.clock).1 +
      copiesOf id (s.node.activation.drainIfStarving s.node.clock).2.queue =
        copiesOf id s.node.activation.queue := by
    rw [← copiesOf_append]
    exact perm.countP_eq _
  change copiesOf id (s.node.activation.drainIfStarving s.node.clock).1 +
    (copiesOf id (s.node.activation.drainIfStarving s.node.clock).2.queue + handings id s.events) +
      c.issued s.node ≤ 0 + (copiesOf id s.node.activation.queue + handings id s.events) +
        c.issued ((Node.pollActivation (F := F)).run s.node).2
  omega

theorem Copying.callReceive (signal : Signal F) (arrival : Option SynapseId) :
    c.Copying 0 (rt.callReceive signal arrival) (fun _ => True) (Node.releases id) := by
  refine .act fun s runs => ⟨trivial, fun time => ?_⟩
  obtain ⟨holds, arrived⟩ := c.received signal arrival s.node runs.holds time
  refine ⟨⟨runs.keyed, holds⟩, ?_⟩
  change Node.releases id ((rt.node.receive signal arrival).run s.node).1 +
    (copiesOf id ((rt.node.receive signal arrival).run s.node).2.activation.queue +
      handings id s.events) + c.issued s.node ≤
    0 + (copiesOf id s.node.activation.queue + handings id s.events) +
      c.issued ((rt.node.receive signal arrival).run s.node).2
  omega

end Allowance

theorem copiesOf_eq_sum (id : SignalId) (qs : List (QueuedSignal F)) :
    copiesOf id qs = (qs.map fun q => if q.id = id then 1 else 0).sum := by
  induction qs with
  | nil => rfl
  | cons q qs ih => rw [copiesOf_cons, List.map_cons, List.sum_cons, ih, Nat.add_comm]

namespace Runtime

open Allowance

variable [Scalar F] {rt : Runtime F} {id : SignalId} {limit : ℕ} {c : Allowance rt id limit}

theorem makeReceipt_copies (receipt : Receipt) (origin : NodeId) :
    c.CopiesNothing (fun _ => True) (rt.makeReceipt receipt origin) := by
  have emitted : c.CopiesNothing (fun _ => True)
      (callNode (rt.node.emit (rt.crypto.receiptSignal receipt origin))) :=
    .callNode (.emit _) rfl (rt.node.emit_sameGate _)
  refine (CopiesNothing.mark _).before fun _ _ => emitted.before fun r _ => ?_
  cases r with
  | error e => exact .pure trivial le_rfl
  | ok signal => exact .pure trivial le_rfl

theorem sendReceiptTo_copies (receipt : Receipt) (origin : NodeId) :
    c.CopiesNothing (fun _ => True) (rt.sendReceiptTo receipt origin) := by
  refine (makeReceipt_copies receipt origin).before fun made _ => ?_
  cases made with
  | none => exact .pure trivial le_rfl
  | some frame =>
    exact CopiesNothing.still (fun _ runs => ⟨trivial, runs.keyed⟩) (fun _ => rfl) fun _ => rfl

theorem sendReceipt_copies (receipt : Receipt) (origin : NodeId) (via : PeerIdentity) :
    c.CopiesNothing (fun _ => True) (rt.sendReceipt receipt origin via) := by
  refine (makeReceipt_copies receipt origin).before fun made _ => ?_
  cases made with
  | none => exact .pure trivial le_rfl
  | some frame =>
    exact CopiesNothing.still (fun _ runs => ⟨trivial, runs.keyed⟩) (fun _ => rfl) fun _ => rfl

theorem forwardSignal_copies (body : Signal F) (forwards : List Forward) :
    c.CopiesNothing (fun _ => True) (rt.forwardSignal body forwards) := by
  rw [forwardSignal]
  by_cases none : forwards.isEmpty = true
  · rw [if_pos none]
    exact .pure trivial le_rfl
  · rw [if_neg none]
    have sent : c.CopiesNothing (fun _ => True) (.act fun s : RuntimeState F =>
        ((sendAll (rt.outbound body) forwards s.sessions).1,
          { s with sessions := (sendAll (rt.outbound body) forwards s.sessions).2 })) :=
      CopiesNothing.still (fun _ runs => ⟨trivial, runs.keyed⟩) (fun _ => rfl) fun _ => rfl
    refine Prog.Affords.before sent fun split _ => ?_
    refine Prog.Affords.before (R := fun _ => True) ?_ fun _ _ => ?_
    · have failed : ∀ f : Forward, c.CopiesNothing (fun _ => True)
          (callNode (rt.node.failForward f.journalId)) := fun f =>
        .callNode (.failForward _) rfl (rt.node.failForward_sameGate f.journalId)
      refine (Prog.Affords.forM (fun _ => 0) fun f _ =>
        (failed f).before fun _ _ => .pure trivial le_rfl).mono ?_ (fun _ holds => holds)
          fun _ _ => le_rfl
      rw [List.map_const', List.sum_replicate, smul_zero]
    · exact (CopiesNothing.report rfl).before fun _ _ => .pure trivial le_rfl

theorem synapseOf_copies (peer : NodeId) :
    c.CopiesNothing (fun _ => True)
      (callNode (Node.synapseForPeer (F := F) peer)) := by
  have made : rt.node.perform (.synapseForPeer peer) =
    .found <$> Node.synapseForPeer peer := rfl
  exact .callNode (.synapseForPeer peer) made (SameGate.tryStore _)

theorem arrivalOf_copies (body : Signal F) :
    c.CopiesNothing (fun _ => True) (Runtime.arrivalOf body) := by
  rw [arrivalOf]
  cases body.trace.getLast? with
  | none => exact .pure trivial le_rfl
  | some hop =>
    refine (synapseOf_copies hop).before fun found _ => ?_
    split
    · exact .pure trivial le_rfl
    · exact .pure trivial le_rfl

theorem releasePlan_copies (body : Signal F) (arrival : Option SynapseId)
    (plan : Option (List Forward)) :
    c.CopiesNothing (fun _ => True) (rt.releasePlan body arrival plan) := by
  cases plan with
  | some forwards => exact .pure trivial le_rfl
  | none =>
    have planned : c.CopiesNothing (fun _ => True)
        (callNode (rt.node.planRelease body arrival)) :=
      .callNode (.planRelease body arrival) rfl
        (rt.node.planRelease_sameGate body arrival)
    refine planned.before fun r _ => ?_
    cases r with
    | error e => exact .pure trivial le_rfl
    | ok forwards => exact .pure trivial le_rfl

theorem releaseSignal_copies {key : SignalId} {body : Option (Signal F)}
    (known : ∀ b, body = some b → b.id = key) (plan : Option (List Forward)) (how : Release) :
    c.Copying (if key = id then 1 else 0) (rt.releaseSignal key body plan how)
      (fun _ => True) fun _ => 0 := by
  cases body with
  | none =>
    exact (CopiesNothing.report rfl).mono (Nat.zero_le _) (fun _ holds => holds) fun _ _ => le_rfl
  | some body =>
    obtain rfl := known body rfl
    refine Prog.Affords.bind (Copying.handing ?_) fun _ _ => ?_
    · cases how with
      | threshold => rfl
      | guard => rfl
    refine (arrivalOf_copies body).before fun arrival _ => ?_
    refine (releasePlan_copies body arrival plan).before fun forwards _ => ?_
    refine (forwardSignal_copies body forwards).before fun delivered _ => ?_
    by_cases owed : body.requiresReceipt = true
    · rw [if_pos owed]
      exact (sendReceiptTo_copies _ _).before fun _ _ => .pure trivial le_rfl
    · rw [if_neg owed]
      exact .pure trivial le_rfl

theorem takeBody_released_copies (key : SignalId) (how : Release) :
    c.Copying (if key = id then 1 else 0)
      (takeBody key >>= fun body => rt.releaseSignal key body none how) (fun _ => True)
      fun _ => 0 :=
  (CopiesNothing.takeBody key).before fun _ known => releaseSignal_copies known _ _

theorem reportEvicted_copies (ev : Evicted F) :
    c.CopiesNothing (fun _ => True) (rt.reportEvicted ev) := by
  refine (CopiesNothing.takeBody ev.signal.id).before fun body _ => ?_
  refine (CopiesNothing.report rfl).before fun _ _ => ?_
  by_cases owed : ev.needsReceipt = true
  · rw [if_pos owed]
    exact (sendReceiptTo_copies _ _).before fun _ _ => .pure trivial le_rfl
  · rw [if_neg owed]
    exact .pure trivial le_rfl

theorem reportRefusal_copies (signal : Signal F) (peer : PeerIdentity) (d : Disposition F) :
    c.CopiesNothing (fun _ => True) (rt.reportRefusal signal peer d) := by
  have answered : c.CopiesNothing (fun _ => True)
      (d.receipt.forM fun receipt => rt.sendReceipt receipt signal.origin peer) :=
    .optional fun receipt _ => sendReceipt_copies receipt signal.origin peer
  exact answered.before fun _ _ => .optional fun reason _ => CopiesNothing.report rfl

theorem releaseFired_copies (signal : Signal F) (d : Disposition F) :
    c.Copying (copiesOf id d.handleLocally) (rt.releaseFired signal d)
      (fun _ => True) fun _ => 0 := by
  rw [copiesOf_eq_sum]
  refine .forM _ fun released _ => ?_
  by_cases own : released.id = signal.id
  · rw [if_pos own]
    exact releaseSignal_copies (fun b here => Option.some.inj here ▸ own.symm) _ _
  · rw [if_neg own]
    exact takeBody_released_copies released.id _

theorem rememberBody_copies (signal : Signal F) :
    c.CopiesNothing (fun _ => True) (rt.rememberBody signal) := by
  refine CopiesNothing.still (fun s runs => ⟨trivial, fun id body there => ?_⟩) (fun _ => rfl)
    fun _ => rfl
  rcases rt.lookup_rememberBody signal s there with ⟨rfl, rfl⟩ | old
  · rfl
  · exact runs.keyed id body old

theorem handleArrival_copies (signal : Signal F) (peer : PeerIdentity) :
    c.CopiesNothing (fun _ => True) (rt.handleArrival signal peer) := by
  refine Prog.Affords.before (R := fun _ => True) ?_ fun arrival _ => ?_
  · refine (synapseOf_copies peer.nodeId).before fun r _ => ?_
    split
    · exact .pure trivial le_rfl
    · exact .pure trivial le_rfl
  · refine (Allowance.Copying.callReceive signal arrival).bind fun result _ => ?_
    cases result with
    | error e => exact .pure trivial le_rfl
    | ok d =>
      have evicted : c.CopiesNothing (fun _ => True)
          (d.evicted.forM rt.reportEvicted) :=
        .optional fun ev _ => reportEvicted_copies ev
      refine evicted.before fun _ _ => ?_
      refine (reportRefusal_copies signal peer d).before fun _ _ => ?_
      refine (releaseFired_copies signal d).bind fun _ _ => ?_
      by_cases queued : d.queued = true
      · rw [if_pos queued]
        exact rememberBody_copies signal
      · rw [if_neg queued]
        exact .pure trivial le_rfl

theorem handleFrame_copies (peer : PeerIdentity) (signal : Signal F) :
    c.CopiesNothing (fun _ => True) (rt.handleFrame peer signal) := by
  have keyed : c.CopiesNothing (fun _ => True) (originKey signal peer) := by
    rw [originKey]
    by_cases direct : signal.origin = peer.nodeId
    · rw [if_pos direct]
      exact .pure trivial le_rfl
    · rw [if_neg direct]
      exact CopiesNothing.still (fun _ runs => ⟨trivial, runs.keyed⟩) (fun _ => rfl) fun _ => rfl
  have applied : ∀ s : Signal F,
      c.CopiesNothing (fun _ => True) (rt.handleReceipt s peer) := by
    intro s
    rw [handleReceipt]
    cases rt.crypto.receiptFromValue s.payload with
    | none => exact .pure trivial le_rfl
    | some receipt =>
      have called : c.CopiesNothing (fun _ => True)
          (callNode (rt.node.applyReceipt receipt peer.nodeId)) :=
        .callNode (.applyReceipt _ _) rfl
          (rt.node.applyReceipt_sameGate receipt peer.nodeId)
      refine called.before fun r _ => ?_
      split
      · exact CopiesNothing.report rfl
      · exact .pure trivial le_rfl
  have punished : c.CopiesNothing (fun _ => True) (rt.handleBadSignature peer) := by
    refine Prog.Affords.before (R := fun _ => True) ?_ fun pruned _ => ?_
    · refine (synapseOf_copies peer.nodeId).before fun r _ => ?_
      split
      · rename_i record
        have penalized : c.CopiesNothing (fun _ => True)
            (callNode (rt.node.penalizeSignatureFailure record.id)) :=
          .callNode (.penalizeSignatureFailure _) rfl
            (rt.node.penalizeSignatureFailure_sameGate record.id)
        refine penalized.before fun outcome _ => ?_
        split
        · exact .pure trivial le_rfl
        · exact .pure trivial le_rfl
      · exact .pure trivial le_rfl
    · refine (CopiesNothing.report rfl).before fun _ _ => ?_
      split
      · exact .throw _
      · exact .pure trivial le_rfl
  rw [handleFrame_eq]
  refine keyed.before fun found _ => ?_
  cases found with
  | none => exact CopiesNothing.report rfl
  | some key =>
    rw [handleKeyed]
    by_cases bad : (rt.crypto.verifySignal signal key).toOption.getD false = false
    · rw [if_pos bad]
      exact punished
    · rw [if_neg bad, handleVerified]
      by_cases malformed : Scalar.isFinite signal.weight = false
      · rw [if_pos malformed]
        exact CopiesNothing.report rfl
      · rw [if_neg malformed]
        have next : ∀ s : Signal F, c.CopiesNothing (fun _ => True)
            (if s.signalType = .receipt then rt.handleReceipt s peer
              else rt.handleArrival s peer) := by
          intro s
          split
          · exact applied s
          · exact handleArrival_copies s peer
        dsimp only
        split
        · exact (CopiesNothing.report rfl).before fun _ _ => next _
        · exact next _

theorem maintenanceTick_copies (ticks : ℕ) :
    c.CopiesNothing (fun _ => True) (rt.maintenanceTick ticks) := by
  refine Prog.Affords.before (R := fun _ => True) ?_ fun _ _ => ?_
  · refine Copying.pollActivation.bind fun r _ => ?_
    cases r with
    | error e => exact .pure trivial le_rfl
    | ok released =>
      change c.Copying (copiesOf id released) _ _ _
      rw [copiesOf_eq_sum]
      exact .forM _ fun queued _ => takeBody_released_copies queued.id _
  · have swept : c.CopiesNothing (fun _ => True)
        (callNode (rt.node.sweepTimeouts 256)) :=
      .callNode (.sweepTimeouts 256) rfl (rt.node.sweepTimeouts_sameGate 256)
    have saved : c.CopiesNothing (fun _ => True)
        (callNode (Node.checkpoint (F := F))) :=
      have made : rt.node.perform .checkpoint = (fun _ => .done) <$> Node.checkpoint := rfl
      .callNode .checkpoint made Node.checkpoint_sameGate
    dsimp only
    split
    · exact .pure trivial le_rfl
    · exact swept.before fun _ _ => saved.before fun _ _ => .pure trivial le_rfl

theorem emit_copies (builder : SignalBuilder F) :
    c.CopiesNothing (fun _ => True) (rt.emit builder) := by
  have emitted : c.CopiesNothing (fun _ => True) (callNode (rt.node.emit builder)) :=
    .callNode (.emit builder) rfl (rt.node.emit_sameGate builder)
  rw [emit]
  refine emitted.before fun r _ => ?_
  cases r with
  | error e => exact .throw _
  | ok signal =>
    dsimp only
    cases rt.crypto.signSignal signal rt.identity.privateKey with
    | error e => exact .throw _
    | ok frame =>
      refine Prog.Affords.before (R := fun _ => True) ?_ fun _ _ => .pure trivial le_rfl
      have routed : c.CopiesNothing (fun _ => True)
          (callNode (rt.node.receiveLocal frame)) :=
        .callNode (.receiveLocal frame) rfl (rt.node.receiveLocal_sameGate frame)
      rw [route]
      refine routed.before fun r _ => ?_
      cases r with
      | error e => exact .throw _
      | ok d =>
        have sent : c.CopiesNothing (fun _ => True) (.act fun s : RuntimeState F =>
            ((sendAll (rt.outbound frame) d.forwardTo s.sessions).1.1.length,
              { s with sessions := (sendAll (rt.outbound frame) d.forwardTo s.sessions).2 })) :=
          CopiesNothing.still (fun _ runs => ⟨trivial, runs.keyed⟩) (fun _ => rfl) fun _ => rfl
        exact Prog.Affords.before sent fun _ _ => CopiesNothing.report rfl

end Runtime
end OpenNtl
