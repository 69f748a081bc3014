import OpenNtl.Knowledge
import OpenNtl.LateReceipts
import OpenNtl.RuntimeCopies
import OpenNtl.VouchedTraffic

/-! # What receipts claim

A node says that it has delivered a signal when it queues a receipt for a peer, and believes that a
peer has when it resolves a decision. Both are true of what the applications have been handed.
-/
namespace OpenNtl

open AtomicProgram NodeM RuntimeM

variable {ι F : Type}

def RuntimeState.handed (s : RuntimeState F) : Set SignalId :=
  {id | ∃ e ∈ s.events, ∃ body, e.body = some body ∧ body.id = id}

def NetState.delivered (w : NetState ι F) : Set (ι × SignalId) :=
  {x | x.2 ∈ (w.nodes x.1).handed}

def Receipt.claims (i : ι) (receipt : Receipt) : Set (ι × SignalId) :=
  {x | receipt.isDelivered = true ∧ x = (i, receipt.correlationId)}

theorem Receipt.isDelivered_iff (receipt : Receipt) :
    receipt.isDelivered = true ↔ receipt.outcome = .delivered := by
  rw [Receipt.isDelivered, Receipt.outcome, decide_eq_true_eq]
  cases receipt.status with
  | delivered => exact iff_of_true rfl rfl
  | rejected reason =>
    refine iff_of_false (fun none => ?_) fun none => ?_
    · cases none
    · cases none

theorem claims_rejection {i : ι} {receipt : Receipt} (rejects : receipt.isDelivered = false) :
    receipt.claims i ⊆ ∅ := by
  rintro x ⟨delivered, -⟩
  rw [rejects] at delivered
  cases delivered

/-- Receipts are read with the signal and the status that they were written with. -/
def Network.ReadsReceipts (net : Network ι F) : Prop :=
  ∀ i j receipt read, (net j).crypto.receiptFromValue ((net i).crypto.receiptToValue receipt) =
    some read → read.correlationId = receipt.correlationId ∧ read.isDelivered = receipt.isDelivered

def Network.reports (net : Network ι F) (i : ι) (frame : Signal F) : Set (ι × SignalId) :=
  {x | frame.signalType = .receipt ∧ ∃ j receipt,
    (net j).crypto.receiptFromValue frame.payload = some receipt ∧ x ∈ receipt.claims i}

/-- Node `i` says and believes only what is true. -/
structure Network.TruthfulAt (net : Network ι F) (delivered : Set (ι × SignalId)) (i : ι)
    (s : RuntimeState F) : Prop where
  queued : ∀ peer session, s.sessions.lookup peer = some session → ∀ frame ∈ session.outbound,
    net.reports i frame ⊆ delivered
  pending : ∀ id body, s.pending.lookup id = some body → body.id = id ∧ body.signalType ≠ .receipt
  ordered : JournalOrdered s.node.store
  earned : ∀ e ∈ s.node.store.journal, e.outcome = .delivered →
    ∃ k, (net k).identity.nodeId = e.peer ∧ (k, e.signal) ∈ delivered
  taught : ∀ id, (some id, Outcome.delivered) ∈ s.node.learned →
    ∃ e ∈ s.node.store.journal, e.id = some id ∧ e.outcome = .delivered

def Network.Truthful (net : Network ι F) (w : NetState ι F) : Prop :=
  ∀ i, net.TruthfulAt w.delivered i (w.nodes i)

variable [DecidableEq ι]

/-- A program of node `i`, after which the node is as truthful as before. It may be run by a task
that knows of the deliveries in `need`. `R` holds of its answer, after which the task knows of those
in `gain`, too. -/
abbrev Network.StaysTruthful {α : Type} (net : Network ι F) (i : ι) (need : Set (ι × SignalId))
    (p : RuntimeM F α) (R : α → Prop) (gain : α → Set (ι × SignalId)) : Prop :=
  (onNode i p).Gathers net.Truthful NetState.delivered need R gain

abbrev Network.TellsNothing {α : Type} (net : Network ι F) (i : ι) (R : α → Prop)
    (p : RuntimeM F α) : Prop := net.StaysTruthful i ∅ p R fun _ => ∅

namespace Network

variable {net : Network ι F} {i : ι}

omit [DecidableEq ι] in
theorem TruthfulAt.mono {D D' : Set (ι × SignalId)} {s : RuntimeState F}
    (truthful : net.TruthfulAt D i s) (more : D ⊆ D') : net.TruthfulAt D' i s where
  queued := fun peer session there frame member =>
    (truthful.queued peer session there frame member).trans more
  pending := truthful.pending
  ordered := truthful.ordered
  earned := fun e member done => by
    obtain ⟨k, peer, known⟩ := truthful.earned e member done
    exact ⟨k, peer, more known⟩
  taught := truthful.taught

theorem delivered_setNode {w : NetState ι F} {s' : RuntimeState F}
    (kept : (w.nodes i).handed ⊆ s'.handed) : w.delivered ⊆ (w.setNode i s').delivered := by
  rintro ⟨k, id⟩ here
  change id ∈ ((Function.update w.nodes i s') k).handed
  by_cases same : k = i
  · subst same
    rw [Function.update_self]
    exact kept here
  · rw [Function.update_of_ne same]
    exact here

namespace StaysTruthful

variable {α β : Type} {need : Set (ι × SignalId)} {R : α → Prop} {gain : α → Set (ι × SignalId)}

theorem pure {a : α} (holds : R a) (known : gain a ⊆ need) :
    net.StaysTruthful i need (Pure.pure a) R gain :=
  Prog.Gathers.pure holds known

theorem bind {p : RuntimeM F α} {f : α → RuntimeM F β} {S : β → Prop}
    {gain' : β → Set (ι × SignalId)} (hp : net.StaysTruthful i need p R gain)
    (hf : ∀ a, R a → net.StaysTruthful i (need ∪ gain a) (f a) S gain') :
    net.StaysTruthful i need (p >>= f) S gain' := by
  rw [StaysTruthful, onNode, Prog.focus_bind]
  exact Prog.Gathers.bind hp hf

theorem before {p : RuntimeM F α} {f : α → RuntimeM F β} {S : β → Prop}
    {gain' : β → Set (ι × SignalId)} (hp : net.TellsNothing i R p)
    (hf : ∀ a, R a → net.StaysTruthful i need (f a) S gain') :
    net.StaysTruthful i need (p >>= f) S gain' := by
  rw [StaysTruthful, onNode, Prog.focus_bind]
  exact Prog.Gathers.before hp hf

theorem unneeded {p : RuntimeM F α} (hp : net.TellsNothing i R p) :
    net.StaysTruthful i need p R fun _ => ∅ :=
  hp.mono (Set.empty_subset need) (fun _ holds => holds) fun _ _ => Set.empty_subset _

theorem forM {xs : List β} {f : β → RuntimeM F PUnit}
    (body : ∀ x ∈ xs, net.TellsNothing i (fun _ => True) (f x)) :
    net.TellsNothing i (fun _ => True) (xs.forM f) := by
  induction xs with
  | nil => exact pure trivial subset_rfl
  | cons x xs ih =>
    refine (body x List.mem_cons_self).before fun _ _ => ?_
    exact ih fun y later => body y (List.mem_cons_of_mem x later)

theorem optional {o : Option β} {f : β → RuntimeM F PUnit}
    (body : ∀ x, o = some x → net.TellsNothing i (fun _ => True) (f x)) :
    net.TellsNothing i (fun _ => True) (o.forM f) := by
  cases o with
  | none => exact pure trivial subset_rfl
  | some x => exact body x rfl

/-- One step, at a node that is truthful about any deliveries that include its own. -/
theorem act {f : RuntimeState F → α × RuntimeState F} (kept : ∀ s, s.handed ⊆ (f s).2.handed)
    (h : ∀ s D, net.TruthfulAt D i s → R (f s).1 ∧ (need ⊆ D →
      (∀ id ∈ (f s).2.handed, (i, id) ∈ D) → net.TruthfulAt D i (f s).2 ∧ gain (f s).1 ⊆ D)) :
    net.StaysTruthful i need (.act f) R gain := by
  refine Prog.Gathers.act fun w truthful => ?_
  refine ⟨(h _ _ (truthful i)).1, fun known => ?_⟩
  have more := delivered_setNode (kept (w.nodes i))
  have own : ∀ id ∈ (f (w.nodes i)).2.handed,
      (i, id) ∈ (w.setNode i (f (w.nodes i)).2).delivered := by
    intro id here
    change id ∈ ((Function.update w.nodes i _) i).handed
    rw [Function.update_self]
    exact here
  obtain ⟨truthful', gained⟩ :=
    (h _ _ ((truthful i).mono more)).2 (known.trans more) own
  refine ⟨fun k => ?_, more, gained⟩
  by_cases same : k = i
  · subst same
    change net.TruthfulAt _ k ((Function.update w.nodes k _) k)
    rw [Function.update_self]
    exact truthful'
  · change net.TruthfulAt _ k ((Function.update w.nodes i _) k)
    rw [Function.update_of_ne same]
    exact (truthful k).mono more

theorem still {f : RuntimeState F → α × RuntimeState F} (events : ∀ s, (f s).2.events = s.events)
    (h : ∀ s D, net.TruthfulAt D i s → R (f s).1 ∧
      (need ⊆ D → net.TruthfulAt D i (f s).2)) :
    net.StaysTruthful i need (.act f) R fun _ => ∅ := by
  refine act (fun s id here => ?_) fun s D truthful => ⟨(h s D truthful).1, fun known _ => ?_⟩
  · rw [RuntimeState.handed, Set.mem_ofPred_eq, events]
    exact here
  · exact ⟨(h s D truthful).2 known, Set.empty_subset D⟩

theorem mark (m : Mark) : net.TellsNothing i (fun _ => True) (RuntimeM.mark m) :=
  still (fun _ => rfl) fun _ _ truthful =>
    ⟨trivial, fun _ => ⟨truthful.queued, truthful.pending, truthful.ordered, truthful.earned,
      truthful.taught⟩⟩

theorem notify {e : Event F} : net.StaysTruthful i ∅ (RuntimeM.notify e) (fun _ => True)
    fun _ => {x | ∃ body, e.body = some body ∧ x = (i, body.id)} := by
  refine act (fun s id here => ?_) fun s D truthful => ⟨trivial, fun _ own => ⟨?_, ?_⟩⟩
  · obtain ⟨e', member, handed⟩ := here
    exact ⟨e', List.mem_append_left _ member, handed⟩
  · exact ⟨truthful.queued, truthful.pending, truthful.ordered, truthful.earned, truthful.taught⟩
  · rintro x ⟨body, carried, rfl⟩
    exact own body.id ⟨e, List.mem_append_right _ (List.mem_singleton_self e), body, carried, rfl⟩

theorem report {e : Event F} : net.TellsNothing i (fun _ => True) (RuntimeM.notify e) :=
  notify.mono subset_rfl (fun _ holds => holds) fun _ _ => Set.empty_subset _

theorem takeBody (id : SignalId) : net.TellsNothing i
    (fun found => ∀ body, found = some body → body.id = id ∧ body.signalType ≠ .receipt)
    (RuntimeM.takeBody id) := by
  refine still (fun _ => rfl) fun s D truthful => ⟨truthful.pending id, fun _ => ?_⟩
  refine ⟨truthful.queued, fun other body there => ?_, truthful.ordered, truthful.earned,
    truthful.taught⟩
  exact truthful.pending other body (HashMap.lookup_of_erase there)

end StaysTruthful

omit [DecidableEq ι] in
theorem reports_relayed {frame : Signal F} (relayed : frame.signalType ≠ .receipt) :
    net.reports i frame = ∅ :=
  Set.eq_empty_of_forall_notMem fun _ told => relayed told.1

omit [DecidableEq ι] in
theorem queued_trySendTo {D : Set (ι × SignalId)} {sessions : HashMap NodeId (Session F)}
    (queued : ∀ peer session, sessions.lookup peer = some session →
      ∀ frame ∈ session.outbound, net.reports i frame ⊆ D)
    (peer : NodeId) {frame : Signal F} (known : net.reports i frame ⊆ D) :
    ∀ other session, (trySendTo sessions peer frame).2.lookup other = some session →
      ∀ f ∈ session.outbound, net.reports i f ⊆ D := by
  intro other session' there f member
  obtain ⟨session, here, -, frames⟩ := lookup_trySendTo there
  rcases frames f member with old | rfl
  · exact queued other session here f old
  · exact known

omit [DecidableEq ι] in
theorem queued_sendAll {D : Set (ι × SignalId)} {sessions : HashMap NodeId (Session F)}
    (queued : ∀ peer session, sessions.lookup peer = some session →
      ∀ frame ∈ session.outbound, net.reports i frame ⊆ D)
    (forwards : List Forward) {frame : Signal F} (known : net.reports i frame ⊆ D) :
    ∀ other session, (sendAll frame forwards sessions).2.lookup other = some session →
      ∀ f ∈ session.outbound, net.reports i f ⊆ D := by
  induction forwards generalizing sessions with
  | nil => exact queued
  | cons forward rest ih => exact ih (queued_trySendTo queued forward.peer known)

variable [Scalar F]

omit [DecidableEq ι] in
theorem TruthfulAt.called {D : Set (ι × SignalId)} {s : RuntimeState F}
    (truthful : net.TruthfulAt D i s) (call : Call F)
    (other : ∀ receipt peer, call ≠ .applyReceipt receipt peer) :
    net.TruthfulAt D i { s with node := (((net i).node.perform call).run s.node).2 } := by
  have kept := (net i).node.perform_journalKept call s.node
  have none := ((net i).node.perform_rewardsNone other).run .refl .trans s.node
  refine ⟨truthful.queued, truthful.pending, kept.ordered truthful.ordered, fun e member done => ?_,
    fun id learned => ?_⟩
  · exact truthful.earned e (none.journal e member done) done
  · exact taught_kept kept (truthful.taught id (none.learned id learned))

omit [DecidableEq ι] in
/-- A receipt is believed by the decision that its signal went to the sender with. -/
theorem TruthfulAt.receipt {D : Set (ι × SignalId)} {s : RuntimeState F}
    (truthful : net.TruthfulAt D i s) {k : ι} {receipt : Receipt} (known : receipt.claims k ⊆ D) :
    net.TruthfulAt D i { s with node := (((net i).node.perform
      (.applyReceipt receipt (net k).identity.nodeId)).run s.node).2 } := by
  let m := (net i).node.momentAt (.applyReceipt receipt (net k).identity.nodeId) s.node
  have kept : JournalKept m.before.store m.after.store :=
    (net i).node.perform_journalKept m.call m.before
  have ordered := kept.ordered truthful.ordered
  change net.TruthfulAt D i { s with node := m.after }
  have believed : ∀ e ∈ m.before.store.journal, e.outcome = .delivered →
      ∃ k, (net k).identity.nodeId = e.peer ∧ (k, e.signal) ∈ D := truthful.earned
  have remembered : ∀ id, (some id, Outcome.delivered) ∈ m.before.learned →
      ∃ e ∈ m.after.store.journal, e.id = some id ∧ e.outcome = .delivered :=
    fun id learned => taught_kept kept (truthful.taught id learned)
  rcases receipt_cases (m := m) rfl truthful.ordered rfl with
    ⟨store, learned, -⟩ | ⟨e, pre, post, found, before, after, learned⟩
  · refine ⟨truthful.queued, truthful.pending, ordered, ?_, ?_⟩
    · exact fun x member => believed x (store ▸ member)
    · exact fun id taught => remembered id (learned ▸ taught)
  · obtain ⟨-, signal, peer, -⟩ := pendingDecisionFor_some found
    refine ⟨truthful.queued, truthful.pending, ordered, fun x member done => ?_,
      fun id taught => ?_⟩
    · have old : x ∈ pre ∨ x ∈ post → x ∈ m.before.store.journal := by
        rw [before, List.mem_append, List.mem_cons]
        tauto
      rw [after] at member
      rcases List.mem_append.mp member with first | rest
      · exact believed x (old (Or.inl first)) done
      · rcases List.mem_cons.mp rest with rfl | last
        · refine ⟨k, peer.symm, known ⟨receipt.isDelivered_iff.mpr done, ?_⟩⟩
          exact congrArg (Prod.mk k) signal
        · exact believed x (old (Or.inr last)) done
    · rw [learned] at taught
      rcases List.mem_append.mp taught with old | new
      · exact remembered id old
      · obtain ⟨named, outcome⟩ := Prod.mk.inj (List.mem_singleton.mp new)
        refine ⟨MemoryStore.resolved receipt.outcome m.before.clock e, ?_, named.symm,
          outcome.symm⟩
        rw [after]
        exact List.mem_append_right pre List.mem_cons_self

namespace StaysTruthful

variable {α : Type} {R : Except NodeError α → Prop}

theorem callNode {p : NodeM F α} (call : Call F) {reply : α → Reply F}
    (made : (net i).node.perform call = reply <$> p)
    (other : ∀ receipt peer, call ≠ .applyReceipt receipt peer) (known : ∀ s, R (p.run s).1) :
    net.TellsNothing i R (RuntimeM.callNode p) := by
  refine still (fun _ => rfl) fun s D truthful => ⟨known s.node, fun _ => ?_⟩
  have called := truthful.called call other
  rw [made, Prog.run_map] at called
  exact called

end StaysTruthful
end Network

namespace Node

variable [Scalar F] (node : Node F)

theorem receive_rejects {signal : Signal F} {arrival : Option SynapseId} {s t : NodeState F}
    {d : Disposition F} (run : (node.receive signal arrival).run s = (.ok d, t)) :
    ∀ receipt, d.receipt = some receipt → receipt.isDelivered = false := by
  have refusal : ∀ reason receipt, (Disposition.refuse signal reason signal.hops).receipt =
      some receipt → receipt.isDelivered = false := by
    intro reason receipt earned
    rw [Disposition.refuse] at earned
    by_cases owed : signal.delivery.requiresReceipt = true
    · rw [if_pos owed] at earned
      obtain rfl := Option.some.inj earned
      rfl
    · rw [if_neg owed] at earned
      cases earned
  have nothing : ∀ receipt, (Disposition.nothing : Disposition F).receipt = some receipt →
      receipt.isDelivered = false := by
    intro receipt earned
    cases earned
  have spec := node.admission_spec signal arrival s
  rcases result : (node.admission signal arrival).run s with ⟨r, u⟩
  rw [result] at spec
  cases spec with
  | failed fault =>
    have failed : (node.receive signal arrival).run s = _ := Prog.run_bind_error result
    cases failed.symm.trans run
  | duplicate fault live =>
    have done : (node.receive signal arrival).run s = _ := Prog.run_bind_ok result
    obtain rfl := Except.ok.inj (Prod.mk.inj (done.symm.trans run)).1
    exact nothing
  | refused fault fresh reason check =>
    have done : (node.receive signal arrival).run s = _ := Prog.run_bind_ok result
    obtain rfl := Except.ok.inj (Prod.mk.inj (done.symm.trans run)).1
    exact refusal reason
  | admitted fault fresh check weight faults =>
    have next : (node.receive signal arrival).run s = _ := Prog.run_bind_ok result
    have disposal := node.afterAdmission_spec signal arrival s.clock (offered signal s weight).1
      { s with
        store := node.claimed signal s
        activation := (offered signal s weight).2.1
        rng := (offered signal s weight).2.2
        faults := faults }
    rw [next.symm.trans run] at disposal
    cases disposal with
    | shed itself reason => exact refusal reason
    | held => exact nothing
    | routeless => exact refusal .noRoute
    | released => exact nothing

end Node

end OpenNtl
