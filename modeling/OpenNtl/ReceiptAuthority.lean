import OpenNtl.JournalHistory

/-! # A receipt counts only from the peer its signal was routed to -/
namespace OpenNtl

open AtomicProgram NodeM

variable {F : Type}

/-- A decision for this signal and peer that no outcome is known of yet. -/
def PendingFor (receipt : Receipt) (peer : NodeId) (e : JournalEntry F) : Prop :=
  e.signal = receipt.correlationId ∧ e.peer = peer ∧ e.outcome = .pending

/-- What a receipt does to the store: nothing, or resolve one decision that waited for it. -/
inductive ReceiptEffect (m : Moment F) (receipt : Receipt) (peer : NodeId) : Prop
  | nothing (unchanged : m.after.store = m.before.store)
      (unmatched : m.failed = false → ∀ e ∈ m.before.store.journal, ¬ PendingFor receipt peer e)
  | resolves {pre post : List (JournalEntry F)} {e : JournalEntry F}
      (before : m.before.store.journal = pre ++ e :: post) (pending : PendingFor receipt peer e)
      (after : m.after.store.journal =
        pre ++ MemoryStore.resolved receipt.outcome m.before.clock e :: post)

def ResolvedForever (st st' : MemoryStore F) : Prop :=
  ∀ (i : ℕ) (e : JournalEntry F), st.journal[i]? = some e → e.outcome.isResolved = true →
    st'.journal[i]? = some e

theorem JournalKept.resolvedForever {st st' : MemoryStore F} (h : JournalKept st st') :
    ResolvedForever st st' := by
  intro i e here done
  obtain ⟨e', there, advances⟩ := h.entries i e here
  rw [there, advances.of_resolved done]

theorem pendingDecisionFor_none {st : MemoryStore F} {receipt : Receipt} {peer : NodeId} :
    st.pendingDecisionFor receipt.correlationId peer = none ↔
      ∀ e ∈ st.journal, ¬ PendingFor receipt peer e := by
  unfold MemoryStore.pendingDecisionFor PendingFor
  rw [List.find?_eq_none]
  simp [and_assoc]

theorem pendingDecisionFor_some {st : MemoryStore F} {receipt : Receipt} {peer : NodeId}
    {e : JournalEntry F} (found : st.pendingDecisionFor receipt.correlationId peer = some e) :
    e ∈ st.journal ∧ PendingFor receipt peer e := by
  have matched := List.find?_some found
  simp only [Bool.and_eq_true, decide_eq_true_eq, Bool.not_eq_true',
    Outcome.isResolved_eq_false] at matched
  exact ⟨List.mem_of_find?_eq_some found, matched.1.1, matched.1.2, matched.2⟩

variable [Scalar F] {node : Node F}

section Receipt

variable {receipt : Receipt} {peer : NodeId} {s : NodeState F}

theorem applyReceipt_unmatched
    (none : s.store.pendingDecisionFor receipt.correlationId peer = none) :
    Resumes s ((node.applyReceipt receipt peer).run s).2 := by
  simp only [Node.applyReceipt, now_bind_run]
  cases fault : nextFault s with
  | some f =>
    rw [Prog.run_bind_error (readStore_run_error fault)]
    exact ⟨rfl, rfl, rfl, rfl⟩
  | none =>
    rw [Prog.run_bind_ok (readStore_run_ok fault), none]
    exact ⟨rfl, rfl, rfl, rfl⟩

theorem settle_resolves (node : Node F) {id : JournalId} (outcome : Outcome) (nowNs : ℕ)
    {e : JournalEntry F}
    (found : s.store.decision id = some e) (pending : e.outcome = .pending) :
    ((∃ x, ((node.settle id outcome nowNs).run s).1 = .error x) ∧
      ((node.settle id outcome nowNs).run s).2.store = s.store ∧
      ((node.settle id outcome nowNs).run s).2.learned = s.learned) ∨
    ∃ pre post, s.store.journal = pre ++ e :: post ∧
      ((node.settle id outcome nowNs).run s).2.store.journal =
        pre ++ MemoryStore.resolved outcome nowNs e :: post ∧
      ((node.settle id outcome nowNs).run s).2.learned = s.learned ++ [(e.id, outcome)] := by
  have spec := node.settle_spec id outcome nowNs s
  generalize (node.settle id outcome nowNs).run s = r at spec ⊢
  cases spec with
  | failed fault => exact Or.inl ⟨⟨_, rfl⟩, rfl, rfl⟩
  | unknown fault missing =>
    rw [found] at missing
    cases missing
  | earlier fault found' done before =>
    obtain rfl := Option.some.inj (found.symm.trans found')
    rw [pending] at done
    cases done
  | again fault found' done now =>
    obtain rfl := Option.some.inj (found.symm.trans found')
    rw [pending] at done
    cases done
  | learns fault found' open' =>
    obtain rfl := Option.some.inj (found.symm.trans found')
    obtain ⟨pre, post, split, updated⟩ :=
      updateFirst_of_find? (f := MemoryStore.resolved outcome nowNs) found
    obtain ⟨learned, journal, -⟩ := node.applyOutcomeToSynapse_learned
      (MemoryStore.resolved outcome nowNs e) outcome nowNs (Node.afterResolve id outcome nowNs s)
    refine Or.inr ⟨pre, post, split, journal.trans (Eq.trans ?_ updated), learned⟩
    simp [Node.afterResolve, MemoryStore.resolveDecision, found,
      Outcome.isResolved_eq_false.mpr pending]

/-- A receipt either changes nothing, or resolves the decision it is matched with and teaches it. -/
theorem receipt_cases {m : Moment F} (performed : m.Performed node)
    (ordered : JournalOrdered m.before.store) (call : m.call = .applyReceipt receipt peer) :
    (m.after.store = m.before.store ∧ m.after.learned = m.before.learned ∧ (m.failed = false →
      m.before.store.pendingDecisionFor receipt.correlationId peer = none)) ∨
    ∃ e pre post, m.before.store.pendingDecisionFor receipt.correlationId peer = some e ∧
      m.before.store.journal = pre ++ e :: post ∧
      m.after.store.journal =
        pre ++ MemoryStore.resolved receipt.outcome m.before.clock e :: post ∧
      m.after.learned = m.before.learned ++ [(e.id, receipt.outcome)] := by
  have after : m.after = ((node.applyReceipt receipt peer).run m.before).2 := by
    rw [moment_after performed, call]
    simp only [Node.perform, Prog.run_map]
  have reply : m.reply = ((node.applyReceipt receipt peer).run m.before).1.map .update := by
    have result := performed
    unfold Moment.Performed at result
    rw [call] at result
    simp only [Node.perform, Prog.run_map] at result
    exact (Prod.mk.inj result).1.symm
  have unreturned : ∀ {x}, m.reply = .error x → m.failed ≠ false := by
    intro x error returned
    have failed := Moment.failed_iff.mpr ⟨x, error⟩
    rw [returned] at failed
    cases failed
  cases found : m.before.store.pendingDecisionFor receipt.correlationId peer with
  | none =>
    have quiet : Resumes m.before ((node.applyReceipt receipt peer).run m.before).2 :=
      applyReceipt_unmatched found
    rw [← after] at quiet
    exact Or.inl ⟨quiet.store, quiet.learned, fun _ => rfl⟩
  | some e =>
    obtain ⟨here, pending⟩ := pendingDecisionFor_some found
    obtain ⟨id, named⟩ := ordered.named here
    simp only [Node.applyReceipt, now_bind_run] at after reply
    cases fault : nextFault m.before with
    | some f =>
      rw [Prog.run_bind_error (readStore_run_error fault)] at after reply
      exact Or.inl ⟨by rw [after]; rfl, by rw [after]; rfl, fun ok => absurd ok (unreturned reply)⟩
    | none =>
      rw [Prog.run_bind_ok (readStore_run_ok fault)] at after reply
      simp only [found, Option.bind_some, named] at after reply
      have decision : (m.before.stored m.before.store).store.decision id = some e :=
        ordered.decision_of_mem here named
      rcases settle_resolves node receipt.outcome m.before.clock decision pending.2.2 with
        ⟨⟨x, error⟩, same, unlearned⟩ | ⟨pre, post, before, resolved, learned⟩
      · rw [error] at reply
        refine Or.inl ⟨?_, ?_, fun ok => absurd ok (unreturned reply)⟩
        · exact (congrArg NodeState.store after).trans same
        · exact (congrArg NodeState.learned after).trans unlearned
      · refine Or.inr ⟨e, pre, post, rfl, before, ?_, ?_⟩
        · exact (congrArg (·.store.journal) after).trans resolved
        · exact (congrArg NodeState.learned after).trans learned

theorem receipt_effect {m : Moment F} (performed : m.Performed node)
    (ordered : JournalOrdered m.before.store) (call : m.call = .applyReceipt receipt peer) :
    ReceiptEffect m receipt peer := by
  rcases receipt_cases performed ordered call with
    ⟨same, -, unmatched⟩ | ⟨e, pre, post, found, before, after, -⟩
  · exact .nothing same fun ok => pendingDecisionFor_none.mp (unmatched ok)
  · exact .resolves before (pendingDecisionFor_some found).2 after

end Receipt

/-- One thing that happens to a node: a call, at a reading and under some failures, or a
restart. -/
inductive RunEvent (F : Type) where
  | call (call : Call F) (clock : ℕ) (faults : List (Option StoreError))
  | restart (rng : Rng) (clock : ℕ) (faults : List (Option StoreError))

def Node.playOne (node : Node F) (s : NodeState F) : RunEvent F → NodeState F
  | .call call clock faults =>
    (node.momentAt call { s with clock := clock, faults := faults }).after
  | .restart rng clock faults =>
    { node.build s.store rng clock faults with learned := s.learned }

def Node.play (node : Node F) (s : NodeState F) (events : List (RunEvent F)) : NodeState F :=
  events.foldl node.playOne s

omit [Scalar F] in
/-- Whether the event is anything but a receipt from a peer the signal was never routed to. -/
def routedIn (st : MemoryStore F) : RunEvent F → Bool
  | .call (.applyReceipt receipt peer) _ _ =>
    st.journal.any fun e => e.signal = receipt.correlationId && e.peer = peer
  | _ => true

section Play

omit [Scalar F] in
theorem Resumes.refl (s : NodeState F) : Resumes s s := ⟨rfl, rfl, rfl, rfl⟩

theorem playOne_journalKept (s : NodeState F) (event : RunEvent F) :
    JournalKept s.store (node.playOne s event).store := by
  cases event with
  | call call clock faults =>
    exact node.perform_journalKept call { s with clock := clock, faults := faults }
  | restart rng clock faults => exact .refl _

theorem play_journalKept (s : NodeState F) (events : List (RunEvent F)) :
    JournalKept s.store (node.play s events).store := by
  induction events generalizing s with
  | nil => exact .refl _
  | cons event events ih => exact (playOne_journalKept s event).trans (ih _)

theorem playOne_unrouted {s : NodeState F} {event : RunEvent F} {last : MemoryStore F}
    (kept : JournalKept s.store last) (unrouted : routedIn last event = false) :
    Resumes s (node.playOne s event) := by
  unfold routedIn at unrouted
  split at unrouted
  · rename_i receipt peer clock faults
    have none : s.store.pendingDecisionFor receipt.correlationId peer = none := by
      refine pendingDecisionFor_none.mpr fun e here pending => ?_
      obtain ⟨i, place⟩ := List.mem_iff_getElem?.mp here
      obtain ⟨e', there, advances⟩ := kept.entries i e place
      obtain ⟨-, signal, peer', -⟩ := advances.keys
      have other := List.any_eq_false.mp unrouted e' (List.mem_of_getElem? there)
      simp [signal, peer', pending.1, pending.2.1] at other
    have quiet : Resumes { s with clock := clock, faults := faults } ((node.applyReceipt receipt
        peer).run { s with clock := clock, faults := faults }).2 := applyReceipt_unmatched none
    have after : node.playOne s (.call (.applyReceipt receipt peer) clock faults) =
        ((node.applyReceipt receipt peer).run { s with clock := clock, faults := faults }).2 := by
      simp only [Node.playOne, Node.momentAt, Node.perform, Prog.run_map]
    rw [after]
    exact ⟨quiet.store, quiet.activation, quiet.rng, quiet.learned⟩
  · cases unrouted

theorem playOne_congr {s t : NodeState F} (same : Resumes s t) (event : RunEvent F) :
    node.playOne t event = node.playOne s event := by
  obtain ⟨store, activation, rng, learned⟩ := same
  cases event with
  | call call clock faults =>
    have start : ({ t with clock := clock, faults := faults } : NodeState F) =
        { s with clock := clock, faults := faults } := by
      simp only [store, activation, rng, learned]
    simp only [Node.playOne, start]
  | restart rng' clock faults => simp only [Node.playOne, store, learned]

theorem play_filter {last : MemoryStore F} (events : List (RunEvent F)) {s t : NodeState F}
    (same : Resumes s t) (kept : JournalKept (node.play s events).store last) :
    Resumes (node.play s events) (node.play t (events.filter (routedIn last))) := by
  induction events generalizing s t with
  | nil => exact same
  | cons event events ih =>
    cases routed : routedIn last event with
    | true =>
      rw [List.filter_cons_of_pos routed]
      simp only [Node.play, List.foldl_cons]
      rw [playOne_congr same]
      exact ih (.refl _) kept
    | false =>
      rw [List.filter_cons_of_neg (by simp [routed])]
      have all : JournalKept s.store last := (play_journalKept s (event :: events)).trans kept
      have quiet : Resumes s (node.playOne s event) := playOne_unrouted all routed
      refine ih ⟨?_, ?_, ?_, ?_⟩ kept
      · exact same.store.trans quiet.store.symm
      · exact same.activation.trans quiet.activation.symm
      · exact same.rng.trans quiet.rng.symm
      · exact same.learned.trans quiet.learned.symm

end Play

theorem run_journalKept {ms : List (Moment F)} {s : NodeState F} (run : NodeRun node ms s) :
    ms.Pairwise (fun m m' => JournalKept m.after.store m'.after.store) ∧
      ∀ m ∈ ms, JournalKept m.after.store s.store := by
  induction run with
  | start => exact ⟨.nil, fun m hm => (by cases hm)⟩
  | restart _ restarts ih =>
    obtain ⟨rng, clock, faults, rfl⟩ := restarts.built
    exact ih
  | @call ms s m _ resumes performed ih =>
    have step : JournalKept s.store m.after.store := by
      rw [moment_after performed, ← resumes.store]
      exact node.perform_journalKept m.call m.before
    refine ⟨List.pairwise_append.mpr ⟨ih.1, List.pairwise_singleton _ _, fun m' hm' x hx => ?_⟩,
      fun m' hm' => ?_⟩
    · rw [List.mem_singleton.mp hx]
      exact (ih.2 m' hm').trans step
    · rcases List.mem_append.mp hm' with hm' | hm'
      · exact (ih.2 m' hm').trans step
      · rw [List.mem_singleton.mp hm']
        exact .refl _

/-- A receipt resolves one decision that was routed to its sender and still pends, or changes
nothing; resolved decisions stay as they are; and receipts from peers a signal was never routed to
make no difference to where a run ends. -/
theorem receipt_authority (node : Node F) :
    (∀ (ms : List (Moment F)) (s : NodeState F), NodeRun node ms s →
      (∀ m ∈ ms, ∀ receipt peer, m.call = .applyReceipt receipt peer →
        ReceiptEffect m receipt peer) ∧
      ms.Pairwise (fun m m' => ResolvedForever m.after.store m'.after.store) ∧
      ∀ m ∈ ms, ResolvedForever m.after.store s.store) ∧
    ∀ (s : NodeState F) (a b : List (RunEvent F)),
      a.filter (routedIn (node.play s a).store) = b.filter (routedIn (node.play s b).store) →
        (node.play s a).store = (node.play s b).store := by
  refine ⟨fun ms s run => ⟨fun m hm receipt peer call => ?_, ?_, fun m hm => ?_⟩,
    fun s a b same => ?_⟩
  · exact receipt_effect (run.performed m hm) (run.journalOrdered.2 m hm) call
  · exact (run_journalKept run).1.imp JournalKept.resolvedForever
  · exact ((run_journalKept run).2 m hm).resolvedForever
  · have left := (play_filter a (.refl s) (.refl (node.play s a).store)).store
    have right := (play_filter b (.refl s) (.refl (node.play s b).store)).store
    rw [← left, ← right, same]

/-! A stranger claims that a signal routed to the neighbour was delivered. -/

section Stranger

def stranger : NodeId := ⟨[9]⟩

def routing : List (RunEvent ℚ) :=
  [.call (.upsertSynapse neighbour) 0 [], .call (.receiveLocal direct) 0 []]

def meddled : List (RunEvent ℚ) :=
  routing ++ [.call (.applyReceipt (.delivered direct.id 0) stranger) 5 []]

theorem routed_delivered : NodeRun edgeNode [connected, planned, delivered] delivered.after :=
  decided.next (.applyReceipt (.delivered direct.id 0) neighbour) 0 []

theorem stranger_has_no_say :
    ReceiptEffect delivered (.delivered direct.id 0) neighbour ∧
    (edgeNode.play (edgeNode.build .new .maximal 0 []) meddled).store =
      (edgeNode.play (edgeNode.build .new .maximal 0 []) routing).store := by
  refine ⟨((receipt_authority edgeNode).1 _ _ routed_delivered).1 delivered (by simp) _ _ rfl,
    (receipt_authority edgeNode).2 _ _ _ ?_⟩
  rw [meddled, List.filter_append]
  have dropped : [RunEvent.call (.applyReceipt (.delivered direct.id 0) stranger) 5 []].filter
      (routedIn (edgeNode.play (edgeNode.build .new .maximal 0 []) meddled).store) = [] := by
    rw [List.filter_cons_of_neg (by decide +kernel)]
    rfl
  rw [← meddled, dropped, List.append_nil]
  rfl

end Stranger

end OpenNtl
