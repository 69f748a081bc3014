import OpenNtl.NodeRun

/-! # How a decision is settled, and what each call adds to the learning history -/
namespace OpenNtl

open AtomicProgram NodeM

variable {F : Type} [Scalar F]

namespace Node

variable (node : Node F)

theorem applyOutcomeToSynapse_run (entry : JournalEntry F) (outcome : Outcome) (nowNs : ℕ)
    (s : NodeState F) :
    (node.applyOutcomeToSynapse entry outcome nowNs).run s =
      (node.updateSynapse entry outcome nowNs).run
        { s with learned := s.learned ++ [(entry.id, outcome)] } := rfl

def afterResolve (id : JournalId) (outcome : Outcome) (nowNs : ℕ) (s : NodeState F) : NodeState F :=
  s.stored (s.store.resolveDecision id outcome nowNs).2

inductive Settling (id : JournalId) (outcome : Outcome) (nowNs : ℕ) (s : NodeState F) :
    Except NodeError (Option (WeightUpdate F)) × NodeState F → Prop
  | failed {f : StoreError} (fault : nextFault s = some f) :
      Settling id outcome nowNs s (.error (.serialization f.display), s.stored s.store)
  | unknown (fault : nextFault s = none) (missing : s.store.decision id = none) :
      Settling id outcome nowNs s (.ok none, s.stored s.store)
  | earlier (fault : nextFault s = none) {e : JournalEntry F} (found : s.store.decision id = some e)
      (done : e.outcome.isResolved = true) (before : e.resolvedAtNs ≠ some nowNs) :
      Settling id outcome nowNs s (.ok none, s.stored s.store)
  /-- The entry was resolved before, at a reading that happens to be the current one. -/
  | again (fault : nextFault s = none) {e : JournalEntry F} (found : s.store.decision id = some e)
      (done : e.outcome.isResolved = true) (now : e.resolvedAtNs = some nowNs) :
      Settling id outcome nowNs s
        (((node.applyOutcomeToSynapse e outcome nowNs).run (s.stored s.store)).1.map some,
          ((node.applyOutcomeToSynapse e outcome nowNs).run (s.stored s.store)).2)
  | learns (fault : nextFault s = none) {e : JournalEntry F} (found : s.store.decision id = some e)
      (pending : e.outcome = .pending) :
      Settling id outcome nowNs s
        (((node.applyOutcomeToSynapse (MemoryStore.resolved outcome nowNs e) outcome nowNs).run
            (afterResolve id outcome nowNs s)).1.map some,
          ((node.applyOutcomeToSynapse (MemoryStore.resolved outcome nowNs e) outcome nowNs).run
            (afterResolve id outcome nowNs s)).2)

theorem settle_spec (id : JournalId) (outcome : Outcome) (nowNs : ℕ) (s : NodeState F) :
    node.Settling id outcome nowNs s ((node.settle id outcome nowNs).run s) := by
  cases fault : nextFault s with
  | some f =>
    have failed : (node.settle id outcome nowNs).run s = _ :=
      Prog.run_bind_error (callStore_run_error fault)
    rw [failed]
    exact .failed fault
  | none =>
    have resolved : (node.settle id outcome nowNs).run s = _ :=
      Prog.run_bind_ok (callStore_run_ok fault)
    rw [resolved]
    rcases s.store.resolveDecision_cases id outcome nowNs with
      ⟨missing, result⟩ | ⟨e, found, done, result⟩ | ⟨e, found, pending, result⟩
    · rw [result]
      exact .unknown fault missing
    · rw [result]
      by_cases now : e.resolvedAtNs = some nowNs
      · simp only [learnIfResolvedNow, if_pos now, Prog.run_map]
        exact .again fault found done now
      · simp only [learnIfResolvedNow, if_neg now]
        exact .earlier fault found done now
    · have now : (MemoryStore.resolved outcome nowNs e).resolvedAtNs = some nowNs := rfl
      have after : afterResolve id outcome nowNs s =
          s.stored { s.store with
            journal := updateFirst (MemoryStore.hasId id)
              (MemoryStore.resolved outcome nowNs) s.store.journal } := by
        unfold afterResolve
        rw [result]
      have learns : node.Settling id outcome nowNs s _ := .learns fault found pending
      rw [after] at learns
      rw [result]
      simp only [learnIfResolvedNow, if_pos now, Prog.run_map]
      exact learns

/-- Whether a call of the three learning methods comes to settle a decision, with which outcome
and in which state. -/
inductive Settles (m : Moment F) : JournalId → Outcome → NodeState F → Prop
  | forward {id : JournalId} (call : m.call = .failForward id) :
      Settles m id .transportFailure m.before
  | receipt {receipt : Receipt} {peer : NodeId} {e : JournalEntry F} {id : JournalId}
      (call : m.call = .applyReceipt receipt peer) (fault : nextFault m.before = none)
      (pending : m.before.store.pendingDecisionFor receipt.correlationId peer = some e)
      (named : e.id = some id) :
      Settles m id receipt.outcome (m.before.stored m.before.store)
  | sweep {limit : ℕ} {swept rest : List (JournalEntry F)} {e : JournalEntry F} {id : JournalId}
      {count : ℕ} {t : NodeState F}
      (call : m.call = .sweepTimeouts limit) (fault : nextFault m.before = none)
      (expired : m.before.store.expiredDecisions
        (node.config.learning.receiptDeadline m.before.clock) limit = swept ++ e :: rest)
      (named : e.id = some id)
      (done : (swept.foldlM (fun n e => (n + ·) <$> node.sweepOne m.before.clock e) 0).run
        (m.before.stored m.before.store) = (.ok count, t)) :
      Settles m id .timedOut t

end Node
end OpenNtl
