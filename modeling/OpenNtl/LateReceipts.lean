import OpenNtl.ReceiptAuthority
import OpenNtl.Sweep

/-! # Receipts after their window -/
namespace OpenNtl

open AtomicProgram NodeM

variable {F : Type}

/-- The receipt window of the decision had closed by this reading. -/
def Late (node : Node F) (e : JournalEntry F) (nowNs : ℕ) : Prop :=
  e.decidedAtNs + node.config.learning.receiptWindowSecs * nanosPerSec < nowNs

instance (node : Node F) (e : JournalEntry F) (nowNs : ℕ) : Decidable (Late node e nowNs) :=
  inferInstanceAs (Decidable (_ < _))

/-- A receipt of delivery from the decision's own peer came within its window, at the reading the
journal has for it. -/
def DeliveredInTime (node : Node F) (ms : List (Moment F)) (e : JournalEntry F) : Prop :=
  ∃ m ∈ ms, ∃ receipt, m.call = .applyReceipt receipt e.peer ∧
    receipt.correlationId = e.signal ∧ receipt.outcome = .delivered ∧
    ¬ Late node e m.before.clock ∧ e.resolvedAtNs = some m.before.clock

/-- A receipt after the window changes nothing, and finds its decision resolved already. -/
def LateDiscarded (node : Node F) (m : Moment F) : Prop :=
  ∀ receipt peer, m.call = .applyReceipt receipt peer →
    (∀ e ∈ m.before.store.journal, e.signal = receipt.correlationId → e.peer = peer →
      Late node e m.before.clock) →
    m.after.store = m.before.store ∧
      ∀ e ∈ m.before.store.journal, e.signal = receipt.correlationId → e.peer = peer →
        e.outcome.isResolved = true

/-- Only receipts within the window earn anything. -/
structure LateEarnsNothing (node : Node F) (ms : List (Moment F)) (s : NodeState F) : Prop where
  delivered : ∀ e ∈ s.store.journal, e.outcome = .delivered → DeliveredInTime node ms e
  taught : ∀ id, (some id, Outcome.delivered) ∈ s.learned →
    ∃ e ∈ s.store.journal, e.id = some id ∧ e.outcome = .delivered
  discarded : ∀ m ∈ ms, LateDiscarded node m

/-- A sweep with an answering store, whose limit reaches this decision among those that had expired
by then. -/
def SweepReaches (node : Node F) (w : Moment F) (id : Option JournalId) : Prop :=
  w.before.faults = [] ∧ ∃ limit, w.call = .sweepTimeouts limit ∧
    ∃ x ∈ (w.before.store.journal.filter fun x => decide (x.outcome = .pending ∧
      x.decidedAtNs < node.config.learning.receiptDeadline w.before.clock)).take limit, x.id = id

/-- The decision was over within its window, or with a failed transmission. -/
def ClosedInTime (node : Node F) (e : JournalEntry F) : Prop :=
  e.outcome = .transportFailure ∨
    (e.outcome.isResolved = true ∧ ∀ t ∈ e.resolvedAtNs, ¬ Late node e t)

/-- When a receipt comes after the window of a decision that it could match, the decision was over
within its window, or a sweep has reached it since. -/
def SweptBefore (node : Node F) (earlier : List (Moment F)) (m : Moment F) : Prop :=
  ∀ receipt peer, m.call = .applyReceipt receipt peer →
    ∀ e ∈ m.before.store.journal, e.signal = receipt.correlationId → e.peer = peer →
      Late node e m.before.clock →
      ClosedInTime node e ∨ ∃ w ∈ earlier, SweepReaches node w e.id

/-- No receipt meets a decision that is still pending past its window. -/
def NoneOverdue (node : Node F) (m : Moment F) : Prop :=
  ∀ receipt peer, m.call = .applyReceipt receipt peer →
    ∀ e ∈ m.before.store.pendingDecisionFor receipt.correlationId peer,
      ¬ Late node e m.before.clock

/-- No decision becomes delivered, and none is taught so. -/
structure RewardsNone (s s' : NodeState F) : Prop where
  journal : ∀ e ∈ s'.store.journal, e.outcome = .delivered → e ∈ s.store.journal
  learned : ∀ id, (some id, Outcome.delivered) ∈ s'.learned →
    (some id, Outcome.delivered) ∈ s.learned

namespace RewardsNone

theorem refl (s : NodeState F) : RewardsNone s s := ⟨fun _ he _ => he, fun _ hid => hid⟩

theorem trans {s t u : NodeState F} (h : RewardsNone s t) (k : RewardsNone t u) :
    RewardsNone s u where
  journal := fun e he done => h.journal e (k.journal e he done) done
  learned := fun id hid => h.learned id (k.learned id hid)

theorem of_same {s s' : NodeState F} (journal : s'.store.journal = s.store.journal)
    (learned : s'.learned = s.learned) : RewardsNone s s' where
  journal := fun _ he _ => journal ▸ he
  learned := fun _ hid => learned ▸ hid

theorem of_quiet {s s' : NodeState F} (h : Quiet JournalGrows s s') : RewardsNone s s' where
  journal := fun e he done => by
    obtain ⟨new, journal, fresh, -⟩ := h.store
    rw [journal] at he
    rcases List.mem_append.mp he with old | added
    · exact old
    · rw [fresh.pending e added] at done
      cases done
  learned := fun id hid => h.learned ▸ hid

end RewardsNone

namespace Node

variable [Scalar F] (node : Node F)

omit [Scalar F] in
theorem resolve_rewardsNone (id : JournalId) {outcome : Outcome} (other : outcome ≠ .delivered)
    (nowNs : ℕ) : (callStore fun st => st.resolveDecision id outcome nowNs).Within
      (RewardsNone (F := F)) := by
  refine Prog.Within.bind (Prog.Within.of_act fun s => ?_) fun _ => Prog.Within.of_ofExcept _
  cases nextFault s with
  | some f => exact .of_same rfl rfl
  | none =>
    rcases s.store.resolveDecision_cases id outcome nowNs with ⟨-, r⟩ | ⟨e, -, -, r⟩ | ⟨e, -, -, r⟩
    · exact .of_same (by simp only [r]) rfl
    · exact .of_same (by simp only [r]) rfl
    · refine ⟨fun x hx done => ?_, fun _ hid => hid⟩
      simp only [r] at hx
      rcases mem_updateFirst hx with old | ⟨y, -, rfl⟩
      · exact old
      · exact absurd done other

theorem settle_rewardsNone (id : JournalId) {outcome : Outcome} (other : outcome ≠ .delivered)
    (nowNs : ℕ) : (node.settle id outcome nowNs).Within RewardsNone := by
  refine node.settle_within id nowNs (resolve_rewardsNone id other nowNs) (fun s about => ?_)
    fun s s' h => .of_same h.store.journal h.learned
  refine ⟨fun e he _ => he, fun id hid => ?_⟩
  rcases List.mem_append.mp hid with old | new
  · exact old
  · obtain ⟨-, same⟩ := Prod.mk.inj (List.mem_singleton.mp new)
    exact absurd same.symm other

theorem perform_rewardsNone {call : Call F}
    (other : ∀ receipt peer, call ≠ .applyReceipt receipt peer) :
    (node.perform call).Within RewardsNone := by
  refine node.perform_within (fun _ _ => .of_quiet) fun id outcome nowNs lesson => ?_
  refine node.settle_rewardsNone id (fun delivered => ?_) nowNs
  cases call with
  | applyReceipt receipt peer => exact other receipt peer rfl
  | _ => simp [delivered, Call.lesson] at lesson

end Node

section Runs

variable [Scalar F] {node : Node F} {ms : List (Moment F)} {m : Moment F}

omit [Scalar F] in
theorem DeliveredInTime.append {e : JournalEntry F} (h : DeliveredInTime node ms e) :
    DeliveredInTime node (ms ++ [m]) e := by
  obtain ⟨m', hm', rest⟩ := h
  exact ⟨m', List.mem_append_left _ hm', rest⟩

omit [Scalar F] in
theorem taught_kept {st st' : MemoryStore F} (kept : JournalKept st st') {id : JournalId}
    (h : ∃ e ∈ st.journal, e.id = some id ∧ e.outcome = .delivered) :
    ∃ e ∈ st'.journal, e.id = some id ∧ e.outcome = .delivered := by
  obtain ⟨e, he, named, done⟩ := h
  obtain ⟨i, here⟩ := List.mem_iff_getElem?.mp he
  have resolved : e.outcome.isResolved = true := by
    rw [done]
    rfl
  exact ⟨e, List.mem_of_getElem? (kept.resolvedForever i e here resolved), named, done⟩

theorem lateDiscarded (performed : m.Performed node) (ordered : JournalOrdered m.before.store)
    (inTime : NoneOverdue node m) : LateDiscarded node m := by
  intro receipt peer call late
  have none : m.before.store.pendingDecisionFor receipt.correlationId peer = none := by
    cases found : m.before.store.pendingDecisionFor receipt.correlationId peer with
    | none => rfl
    | some e =>
      obtain ⟨here, signal, same, -⟩ := pendingDecisionFor_some found
      exact absurd (late e here signal same) (inTime receipt peer call e found)
  refine ⟨?_, fun e he signal same => ?_⟩
  · rcases receipt_cases performed ordered call with ⟨store, -⟩ | ⟨e, pre, post, found, -⟩
    · exact store
    · rw [none] at found
      cases found
  · have settled := pendingDecisionFor_none.mp none e he
    rw [Outcome.isResolved_iff]
    intro pending
    exact settled ⟨signal, same, pending⟩

theorem LateEarnsNothing.step (performed : m.Performed node)
    (ordered : JournalOrdered m.before.store) (h : LateEarnsNothing node ms m.before)
    (inTime : NoneOverdue node m) : LateEarnsNothing node (ms ++ [m]) m.after := by
  have kept : JournalKept m.before.store m.after.store := by
    rw [moment_after performed]
    exact node.perform_journalKept m.call m.before
  have discarded : ∀ m' ∈ ms ++ [m], LateDiscarded node m' := by
    intro m' hm'
    rcases List.mem_append.mp hm' with hm' | hm'
    · exact h.discarded m' hm'
    · rw [List.mem_singleton.mp hm']
      exact lateDiscarded performed ordered inTime
  have unrewarded : RewardsNone m.before m.after → LateEarnsNothing node (ms ++ [m]) m.after :=
    fun none => ⟨fun e he done => (h.delivered e (none.journal e he done) done).append,
      fun id hid => taught_kept kept (h.taught id (none.learned id hid)), discarded⟩
  by_cases receipts : ∃ receipt peer, m.call = .applyReceipt receipt peer
  · obtain ⟨receipt, peer, call⟩ := receipts
    rcases receipt_cases performed ordered call with
      ⟨store, learned, -⟩ | ⟨e, pre, post, found, before, after, learned⟩
    · exact unrewarded (.of_same (congrArg MemoryStore.journal store) learned)
    · obtain ⟨here, signal, same, -⟩ := pendingDecisionFor_some found
      have early : ¬ Late node e m.before.clock := inTime receipt peer call e found
      have resolved : MemoryStore.resolved receipt.outcome m.before.clock e ∈
          m.after.store.journal := by simp [after]
      refine ⟨fun x hx done => ?_, fun id hid => ?_, discarded⟩
      · rw [after] at hx
        rcases List.mem_append.mp hx with old | rest
        · exact (h.delivered x (by simp [before, old]) done).append
        · rcases List.mem_cons.mp rest with rfl | old
          · refine ⟨m, by simp, receipt, ?_, signal.symm, done, early, rfl⟩
            rw [call, ← same]
            rfl
          · exact (h.delivered x (by simp [before, old]) done).append
      · rw [learned] at hid
        rcases List.mem_append.mp hid with old | new
        · exact taught_kept kept (h.taught id old)
        · obtain ⟨named, outcome⟩ := Prod.mk.inj (List.mem_singleton.mp new)
          exact ⟨_, resolved, named.symm, outcome.symm⟩
  · refine unrewarded ?_
    rw [moment_after performed]
    refine (node.perform_rewardsNone fun receipt peer call => ?_).run .refl .trans m.before
    exact receipts ⟨receipt, peer, call⟩

theorem sweep_resolves {w : Moment F} (performed : w.Performed node)
    (ordered : JournalOrdered w.before.store) {id : Option JournalId}
    (reached : SweepReaches node w id) : ∃ (i : ℕ) (y : JournalEntry F),
      w.after.store.journal[i]? = some y ∧ y.id = id ∧ y.outcome.isResolved = true := by
  obtain ⟨none, limit, call, x, found, named⟩ := reached
  have lawful := memory_sweeps (F := F) w.before.clock
  have swept := (sweeps_exactly node lawful ⟨none, ordered.numbered⟩ (le_refl _) limit).exact _
    ((node.sweepsTimeouts_memory limit w.before _).mpr rfl)
  obtain ⟨es, swept⟩ := swept
  -- what the sweep works on is what its query finds
  have asked : (Except.ok es, w.before) = memoryCall (fun st : MemoryStore F =>
      (st.expiredDecisions (node.config.learning.receiptDeadline w.before.clock) limit, st))
      w.before := swept.asked
  rw [memoryCall_ok none] at asked
  have mine : x ∈ es := by
    rw [Except.ok.inj (Prod.mk.inj asked).1]
    unfold MemoryStore.expiredDecisions
    refine cast (congrArg (fun p => x ∈ (w.before.store.journal.filter p).take limit) ?_) found
    funext e
    rw [Bool.decide_and, Bool.eq_iff_iff]
    simp [Outcome.isResolved_eq_false]
  have after : w.after = ((node.sweepTimeouts limit).run w.before).2 := by
    rw [moment_after performed, call]
    exact congrArg Prod.snd (Prog.run_map _ _ _)
  obtain ⟨i, here⟩ := List.mem_iff_getElem?.mp (swept.expired x mine).1
  refine ⟨i, timedOutAt w.before.clock es x, ?_, ?_, ?_⟩
  · have journal : w.after.store.journal =
        w.before.store.journal.map (timedOutAt w.before.clock es) := by
      rw [after]
      exact swept.journal
    have before : w.before.store.journal[i]? = some x := here
    rw [journal, List.getElem?_map, before]
    rfl
  · rw [← named]
    unfold timedOutAt
    split_ifs
    · rfl
    · rfl
  · have here : x.id ∈ es.map JournalEntry.id := List.mem_map_of_mem mine
    unfold timedOutAt
    rw [if_pos here]
    rfl

theorem NodeRun.noneOverdue {s : NodeState F} (run : NodeRun node ms s) (resumes : Resumes s m.before)
    (swept : SweptBefore node ms m) : NoneOverdue node m := by
  intro receipt peer call e found late
  obtain ⟨here, signal, same, pending⟩ := pendingDecisionFor_some found
  have waits : ¬ e.outcome.isResolved = true := by
    rw [pending]
    exact Bool.false_ne_true
  rcases swept receipt peer call e here signal same late with (failed | ⟨done, -⟩) | ⟨w, member, reached⟩
  · rw [failed] at waits
    exact waits rfl
  · exact waits done
  · obtain ⟨i, y, there, named, done⟩ :=
      sweep_resolves (run.performed w member) (run.journalOrdered.2 w member) reached
    -- what is over stays so
    have kept := ((run_journalKept run).2 w member).resolvedForever i y there done
    rw [← resumes.store] at kept
    have ordered : JournalOrdered m.before.store := by
      rw [resumes.store]
      exact run.journalOrdered.1
    have equal : y = e := List.inj_on_of_nodup_map ordered.nodup (List.mem_of_getElem? kept) here named
    exact waits (equal ▸ done)

/-- In every run in which a sweep comes between the window of a decision and a later receipt, only
receipts within the window earn anything. -/
theorem late_receipts_earn_nothing {s : NodeState F} (run : NodeRun node ms s)
    (swept : ∀ i m, ms[i]? = some m → SweptBefore node (ms.take i) m) :
    LateEarnsNothing node ms s := by
  induction run with
  | start => exact ⟨fun e he => (by cases he), fun id hid => (by cases hid), fun m hm => (by cases hm)⟩
  | restart _ restarts ih =>
    obtain ⟨rng, clock, faults, rfl⟩ := restarts.built
    obtain ⟨delivered, taught, discarded⟩ := ih swept
    exact ⟨delivered, taught, discarded⟩
  | @call ms s m run resumes performed ih =>
    obtain ⟨delivered, taught, discarded⟩ := ih fun i m' here => by
      have short := (List.getElem?_eq_some_iff.mp here).1
      have once := swept i m' (by rw [List.getElem?_append_left short, here])
      rwa [List.take_append_of_le_length short.le] at once
    have before : LateEarnsNothing node ms m.before := by
      refine ⟨?_, ?_, discarded⟩
      · rw [resumes.store]
        exact delivered
      · rw [resumes.store, resumes.learned]
        exact taught
    have ordered : JournalOrdered m.before.store := by
      rw [resumes.store]
      exact run.journalOrdered.1
    have last := swept ms.length m (by simp)
    rw [List.take_left] at last
    exact before.step performed ordered (run.noneOverdue resumes last)

end Runs

/-! A receipt comes a second after the window, before any sweep. -/

section Sample

def lateDelivered : Moment ℚ :=
  edgeNode.momentAt (.applyReceipt (.delivered direct.id 0) neighbour)
    { planned.after with clock := 31000000000, faults := [] }

theorem ranLate : NodeRun edgeNode [connected, planned, lateDelivered] lateDelivered.after :=
  decided.next (.applyReceipt (.delivered direct.id 0) neighbour) 31000000000 []

/-- The decision was made at reading zero and its window is thirty seconds. -/
theorem late_receipt_is_rewarded :
    (some ⟨1⟩, Outcome.delivered) ∈ lateDelivered.after.learned ∧
    ¬ ∀ (ms : List (Moment ℚ)) (s : NodeState ℚ), NodeRun edgeNode ms s →
      LateEarnsNothing edgeNode ms s := by
  refine ⟨by decide +kernel, fun always => ?_⟩
  have discarded := (always _ _ ranLate).discarded lateDelivered (by simp) _ _ rfl
  have late : ∀ e ∈ lateDelivered.before.store.journal, Late edgeNode e 31000000000 := by
    decide +kernel
  have waiting : ¬ ∀ e ∈ lateDelivered.before.store.journal, e.outcome.isResolved = true := by
    decide +kernel
  refine waiting fun e he => (discarded fun e he _ _ => late e he).2 e he ?_ ?_
  · revert e
    decide +kernel
  · revert e
    decide +kernel

def sweptLate : Moment ℚ :=
  edgeNode.momentAt (.sweepTimeouts 1) { planned.after with clock := 31000000000, faults := [] }

def overtaken : Moment ℚ :=
  edgeNode.momentAt (.applyReceipt (.delivered direct.id 0) neighbour)
    { sweptLate.after with clock := 32000000000, faults := [] }

theorem overtaken_earns_nothing :
    LateEarnsNothing edgeNode [connected, planned, sweptLate, overtaken] overtaken.after := by
  have run : NodeRun edgeNode [connected, planned, sweptLate, overtaken] overtaken.after :=
    (decided.next (.sweepTimeouts 1) 31000000000 []).next
      (.applyReceipt (.delivered direct.id 0) neighbour) 32000000000 []
  have reached : ∀ e ∈ overtaken.before.store.journal, SweepReaches edgeNode sweptLate e.id :=
    fun e here => ⟨rfl, 1, rfl, by revert e; decide +kernel⟩
  refine late_receipts_earn_nothing run fun i m here receipt peer call e held _ _ _ => ?_
  -- only the fourth call is a receipt
  rcases i with _ | _ | _ | _ | i
  · obtain rfl := Option.some.inj here
    cases call
  · obtain rfl := Option.some.inj here
    cases call
  · obtain rfl := Option.some.inj here
    cases call
  · obtain rfl := Option.some.inj here
    exact Or.inr ⟨sweptLate, by simp, reached e held⟩
  · cases here

end Sample

end OpenNtl
