import OpenNtl.AcknowledgedDelivery
import OpenNtl.Settle

/-! # What a call that failed leaves behind -/
namespace OpenNtl

open AtomicProgram NodeM

variable {F : Type} [Scalar F]

/-- A failed arrival left no trace. Nothing was reported, so nothing may have left the queue. -/
structure NothingHalfDone (id : SignalId) (before after : NodeState F) : Prop where
  queue : ∀ q ∈ before.activation.queue, q.id ≠ id → q ∈ after.activation.queue
  unclaimed : HasLiveClaim after id → HasLiveClaim before id
  uncounted : after.activation.signalsFired = before.activation.signalsFired
  settled : ∀ e ∈ after.store.journal, e.outcome = .pending → e ∈ before.store.journal

omit [Scalar F] in
theorem nothingHalfDone_of_fault (id : SignalId) (s : NodeState F) :
    NothingHalfDone id s (s.stored s.store) :=
  ⟨fun _ hq _ => hq, fun h => h, rfl, fun _ he _ => he⟩

/-- A failure after the claim comes from planning, when the arrival has fired already. -/
theorem failed_after_claim_counts (node : Node F) {signal : Signal F} {arrival : Option SynapseId}
    {s s' : NodeState F} {e : NodeError} (fault : nextFault s = none)
    (run : (node.receive signal arrival).run s = (.error e, s')) :
    s.activation.signalsFired < s'.activation.signalsFired := by
  rcases node.receive_cases signal arrival s with
    ⟨f, failed, -⟩ | ⟨-, -, result⟩ | ⟨-, -, reason, result⟩ | ⟨-, -, weight, faults, disposal⟩
  · exact absurd (fault.symm.trans failed) (by simp)
  · rw [result] at run
    cases run
  · rw [result] at run
    cases run
  · rw [run] at disposal
    cases disposal with
    | unplanned other fired plan =>
      have frame := node.planForwarding_run signal arrival s.clock
        { s with
          store := node.claimed signal s
          activation := (Node.offered signal s weight).2.1
          rng := (Node.offered signal s weight).2.2
          faults := faults }
      rw [plan] at frame
      have counted := ActivationState.admitSignal_signalsFired s.activation
        (Node.queuedSignalOf signal s.clock) weight s.clock s.rng
      have some : 0 < (Node.offered signal s weight).1.fired.length := by
        obtain ⟨q, hq, -⟩ := fired
        exact List.length_pos_of_mem hq
      have gate : s'.activation.signalsFired =
          (Node.offered signal s weight).2.1.signalsFired := by rw [frame.activation]
      have total : (Node.offered signal s weight).2.1.signalsFired =
          s.activation.signalsFired + (Node.offered signal s weight).1.fired.length := counted
      omega

/-- In every run, a failed arrival leaves no trace exactly when the store call that failed is
the claim, its first. -/
theorem failed_receive_leaves_nothing_iff {node : Node F} {ms : List (Moment F)} {s : NodeState F}
    (run : NodeRun node ms s) {m : Moment F} (hm : m ∈ ms) {signal : Signal F}
    {arrival : Option SynapseId} {e : NodeError} (call : m.call = .receive signal arrival)
    (err : m.reply = .error e) :
    NothingHalfDone signal.id m.before m.after ↔ nextFault m.before ≠ none := by
  obtain ⟨after, reply⟩ := perform_receive (run.performed m hm) call
  cases fault : nextFault m.before with
  | some f =>
    rw [receive_fault node fault] at after
    refine ⟨fun _ => by simp, fun _ => ?_⟩
    rw [← after]
    exact nothingHalfDone_of_fault signal.id m.before
  | none =>
    refine ⟨fun clean => ?_, fun h => absurd rfl h⟩
    rcases result : (node.receive signal arrival).run m.before with ⟨e' | d, t⟩
    · rw [result] at after
      obtain rfl : t = m.after := after
      have counted := failed_after_claim_counts node fault result
      have same := clean.uncounted
      omega
    · rw [err, result] at reply
      cases reply

section LostBatch

def faint : Signal ℚ := { unroutable with id := ⟨8⟩, weight := 1 / 10 }

def faintArrival : Moment ℚ :=
  edgeNode.momentAt (.receive faint none) (edgeNode.build .new .maximal 0 [])

/-- The arrival that fires the gate, at a node whose store fails once the id is claimed. -/
def failedArrival : Moment ℚ :=
  edgeNode.momentAt (.receive unroutable none)
    { faintArrival.after with
      clock := 0, faults := [none, some (.unavailable "backend unreachable")] }

theorem batch_lost : NodeRun edgeNode [faintArrival, failedArrival] failedArrival.after :=
  ((NodeRun.start .maximal 0 []).next (.receive faint none) 0 []).next
    (.receive unroutable none) 0 _

theorem failedArrival_failed : ∃ e, failedArrival.reply = .error e :=
  Moment.failed_iff.mp (by decide +kernel)

/-- The failed arrival is left claimed, and the signal that waited before it is gone. -/
theorem failed_receive_loses_batch :
    HasLiveClaim failedArrival.after unroutable.id ∧
    IsWaiting failedArrival.before faint.id ∧ ¬ IsWaiting failedArrival.after faint.id ∧
    ¬ ∀ (ms : List (Moment ℚ)) (s : NodeState ℚ), NodeRun edgeNode ms s → ∀ m ∈ ms,
      ∀ (signal : Signal ℚ) (arrival : Option SynapseId) (e : NodeError),
        m.call = .receive signal arrival → m.reply = .error e →
        NothingHalfDone signal.id m.before m.after := by
  refine ⟨by decide +kernel, by decide +kernel, by decide +kernel, fun always => ?_⟩
  obtain ⟨e, err⟩ := failedArrival_failed
  have clean := always _ _ batch_lost failedArrival (by simp) unroutable none e rfl err
  have counted : failedArrival.after.activation.signalsFired ≠
      failedArrival.before.activation.signalsFired := by decide +kernel
  exact counted clean.uncounted

theorem failedArrival_leaves_nothing_iff :
    NothingHalfDone unroutable.id failedArrival.before failedArrival.after ↔
      nextFault failedArrival.before ≠ none := by
  obtain ⟨e, err⟩ := failedArrival_failed
  exact failed_receive_leaves_nothing_iff batch_lost (by simp) rfl err

end LostBatch

/-- The decision is still pending and nothing was learned from it. -/
structure Unapplied (id : JournalId) (before after : NodeState F) : Prop where
  pending : ∃ e, after.store.decision id = some e ∧ e.outcome = .pending
  influence : ∀ peer start, after.store.influenceSince peer start =
    before.store.influenceSince peer start
  synapses : after.store.synapses = before.store.synapses

/-- The decision is pending and the store call that is to resolve it fails. -/
def ResolveFails (id : JournalId) (t : NodeState F) : Prop :=
  (∃ e, t.store.decision id = some e ∧ e.outcome = .pending) ∧ nextFault t ≠ none

theorem applyOutcomeToSynapse_decision (node : Node F) (entry : JournalEntry F) (outcome : Outcome)
    (nowNs : ℕ) (t : NodeState F) (id : JournalId) :
    ((node.applyOutcomeToSynapse entry outcome nowNs).run t).2.store.decision id =
      t.store.decision id := by
  rw [Node.applyOutcomeToSynapse_run]
  exact MemoryStore.decision_congr (node.updateSynapse_run entry outcome nowNs _).store.journal id

/-- A settlement that failed is unapplied exactly when the resolving call is what failed. -/
theorem failed_settle_iff (node : Node F) {id : JournalId} {outcome : Outcome} {nowNs : ℕ}
    {t t' : NodeState F} {e : NodeError} (resolves : outcome.isResolved = true)
    (failed : (node.settle id outcome nowNs).run t = (.error e, t')) :
    Unapplied id t t' ↔ ResolveFails id t := by
  have spec := node.settle_spec id outcome nowNs t
  rw [failed] at spec
  constructor
  · intro clean
    obtain ⟨x, found, pending⟩ := clean.pending
    generalize result : (Except.error e, t') = r at spec
    cases spec with
    | failed fault =>
      obtain ⟨-, rfl⟩ := Prod.mk.inj result
      exact ⟨⟨x, found, pending⟩, by simp [fault]⟩
    | unknown => cases result
    | earlier => cases result
    | again fault prior done now =>
      rw [(Prod.mk.inj result).2, applyOutcomeToSynapse_decision] at found
      obtain rfl := Option.some.inj (prior.symm.trans found)
      rw [pending] at done
      cases done
    | learns fault prior open' =>
      rw [(Prod.mk.inj result).2, applyOutcomeToSynapse_decision] at found
      have now : (t.store.resolveDecision id outcome nowNs).2.decision id =
          some (MemoryStore.resolved outcome nowNs _) := MemoryStore.decision_resolved prior open'
      obtain rfl := Option.some.inj (now.symm.trans found)
      have : outcome = .pending := pending
      rw [this] at resolves
      cases resolves
  · rintro ⟨pending, fault⟩
    obtain ⟨f, fault⟩ := Option.ne_none_iff_exists'.mp fault
    have result : (node.settle id outcome nowNs).run t = _ :=
      Prog.run_bind_error (callStore_run_error fault)
    rw [result] at failed
    obtain rfl := (Prod.mk.inj failed).2
    exact ⟨pending, fun _ _ => rfl, rfl⟩

/-- The call failed while it settled this decision, which it began to do in state `t`. -/
def FailsOn (node : Node F) (m : Moment F) (id : JournalId) (t : NodeState F) : Prop :=
  ∃ outcome e, node.Settles m id outcome t ∧
    (node.settle id outcome m.before.clock).run t = (.error e, m.after)

theorem Node.Settles.isResolved {node : Node F} {m : Moment F} {id : JournalId} {outcome : Outcome}
    {t : NodeState F} (h : node.Settles m id outcome t) : outcome.isResolved = true := by
  cases h with
  | forward => rfl
  | receipt => exact Receipt.outcome_isResolved _
  | sweep => rfl

section Fails

variable {node : Node F} {m : Moment F} {e : NodeError}

theorem applyReceipt_failed {receipt : Receipt} {peer : NodeId}
    (call : m.call = .applyReceipt receipt peer)
    (failed : (node.applyReceipt receipt peer).run m.before = (.error e, m.after)) :
    m.after.store = m.before.store ∨ ∃ id t, FailsOn node m id t := by
  cases fault : nextFault m.before with
  | some f =>
    have lookup : (node.applyReceipt receipt peer).run m.before = _ :=
      (now_bind_run _ _).trans (Prog.run_bind_error (readStore_run_error fault))
    rw [failed] at lookup
    refine Or.inl ?_
    rw [(Prod.mk.inj lookup).2]
    rfl
  | none =>
    have looked : (node.applyReceipt receipt peer).run m.before = _ :=
      (now_bind_run _ _).trans (Prog.run_bind_ok (readStore_run_ok fault))
    rw [looked] at failed
    cases matched : (m.before.store.pendingDecisionFor receipt.correlationId peer).bind
      JournalEntry.id with
    | none =>
      rw [matched] at failed
      cases (Prod.mk.inj failed).1
    | some id =>
      rw [matched] at failed
      obtain ⟨pending, found, named⟩ := Option.bind_eq_some_iff.mp matched
      exact Or.inr ⟨id, _, receipt.outcome, e, .receipt call fault found named, failed⟩

/-- A sweep that failed on its lookup changed nothing. Otherwise one decision stopped it. -/
theorem sweepTimeouts_failed {limit : ℕ} (call : m.call = .sweepTimeouts limit)
    (failed : (node.sweepTimeouts limit).run m.before = (.error e, m.after)) :
    m.after.store = m.before.store ∨ ∃ id t, FailsOn node m id t := by
  cases fault : nextFault m.before with
  | some f =>
    have lookup : (node.sweepTimeouts limit).run m.before = _ :=
      (now_bind_run _ _).trans (Prog.run_bind_error (readStore_run_error fault))
    rw [failed] at lookup
    refine Or.inl ?_
    rw [(Prod.mk.inj lookup).2]
    rfl
  | none =>
    have looked : (node.sweepTimeouts limit).run m.before = _ :=
      (now_bind_run _ _).trans (Prog.run_bind_ok (readStore_run_ok fault))
    rw [looked] at failed
    obtain ⟨swept, x, rest, count, u, expired, done, stopped⟩ := Prog.run_foldlM_error failed
    cases named : x.id with
    | none =>
      simp only [Node.sweepOne, named] at stopped
      cases stopped
    | some id =>
      simp only [Node.sweepOne, named] at stopped
      rcases Prog.run_bind_eq_error.mp (Prog.run_map_eq_error.mp stopped) with
        settled | ⟨o, v, -, counted⟩
      · exact Or.inr ⟨id, u, .timedOut, e, .sweep call fault expired named done, settled⟩
      · cases (Prod.mk.inj counted).1

theorem failed_learning_call_cases (performed : m.Performed node) (learns : m.call.Learns)
    (err : m.reply = .error e) :
    m.after.store = m.before.store ∨ ∃ id t, FailsOn node m id t := by
  have run : (node.perform m.call).run m.before = (m.reply, m.after) := performed
  rw [err] at run
  generalize call : m.call = c at learns run
  cases learns with
  | forward id =>
    have failed : (node.failForward id).run m.before = _ := Prog.run_map_eq_error.mp run
    exact Or.inr ⟨id, m.before, .transportFailure, e, .forward call, failed⟩
  | receipt receipt peer => exact applyReceipt_failed call (Prog.run_map_eq_error.mp run)
  | sweep limit => exact sweepTimeouts_failed call (Prog.run_map_eq_error.mp run)

end Fails

/-- In every run, a learning call that failed on a decision has left it pending and unlearned
exactly when what failed is the store call that was to resolve it. A call that failed on no
decision changed nothing. -/
theorem failed_learning_call_unapplied_iff {node : Node F} {ms : List (Moment F)}
    {s : NodeState F} (run : NodeRun node ms s) {m : Moment F} (hm : m ∈ ms)
    (learns : m.call.Learns) {e : NodeError} (err : m.reply = .error e) :
    (m.after.store = m.before.store ∨ ∃ id t, FailsOn node m id t) ∧
      ∀ id t, FailsOn node m id t → (Unapplied id t m.after ↔ ResolveFails id t) := by
  refine ⟨failed_learning_call_cases (run.performed m hm) learns err, ?_⟩
  rintro id t ⟨outcome, e', settles, failed⟩
  exact failed_settle_iff node settles.isResolved failed

section HalfLearned

def failedReceipt : Moment ℚ :=
  edgeNode.momentAt (.applyReceipt (.delivered direct.id 0) neighbour)
    { planned.after with
      clock := 0, faults := [none, none, none, none, none, some (.write "disk full")] }

theorem half_learned : NodeRun edgeNode [connected, planned, failedReceipt] failedReceipt.after :=
  decided.next (.applyReceipt (.delivered direct.id 0) neighbour) 0 _

theorem failedReceipt_failed : ∃ e, failedReceipt.reply = .error e :=
  Moment.failed_iff.mp (by decide +kernel)

/-- The decision is resolved and the peer is charged, though the weight was never written. -/
theorem failed_receipt_stays_resolved :
    (failedReceipt.after.store.decision ⟨1⟩).map JournalEntry.outcome = some .delivered ∧
    failedReceipt.after.store.influenceSince neighbour 0 = 1 / 20 ∧
    ¬ ∀ (ms : List (Moment ℚ)) (s : NodeState ℚ), NodeRun edgeNode ms s → ∀ m ∈ ms,
      m.call.Learns → ∀ e, m.reply = .error e → ∀ id t, FailsOn edgeNode m id t →
        Unapplied id t m.after := by
  refine ⟨by decide +kernel, by decide +kernel, fun always => ?_⟩
  obtain ⟨e, err⟩ := failedReceipt_failed
  have resolved : ∀ x ∈ failedReceipt.after.store.journal, x.outcome ≠ .pending := by
    have all : (failedReceipt.after.store.journal.all fun x => x.outcome ≠ .pending) = true := by
      decide +kernel
    simpa using all
  have changed : failedReceipt.after.store.journal.map JournalEntry.outcome ≠
      failedReceipt.before.store.journal.map JournalEntry.outcome := by decide +kernel
  rcases failed_learning_call_cases (edgeNode.momentAt_performed _ _) (.receipt _ _) err with
    same | ⟨id, t, fails⟩
  · exact changed (by rw [show failedReceipt.after.store = _ from same]; rfl)
  · obtain ⟨x, found, pending⟩ :=
      (always _ _ half_learned failedReceipt (by simp) (.receipt _ _) e err id t fails).pending
    exact resolved x (MemoryStore.decision_mem found) pending

theorem failedReceipt_unapplied_iff :
    (failedReceipt.after.store = failedReceipt.before.store ∨
        ∃ id t, FailsOn edgeNode failedReceipt id t) ∧
      ∀ id t, FailsOn edgeNode failedReceipt id t →
        (Unapplied id t failedReceipt.after ↔ ResolveFails id t) := by
  obtain ⟨e, err⟩ := failedReceipt_failed
  exact failed_learning_call_unapplied_iff half_learned (by simp) (.receipt _ _) err

end HalfLearned

end OpenNtl
