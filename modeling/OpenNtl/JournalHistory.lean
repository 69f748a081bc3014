import OpenNtl.TeachingOnce

/-! # What becomes of a journal entry

Entries stay where they were appended. A pending one is resolved at most once, and a resolved
one never changes.
-/
namespace OpenNtl

open AtomicProgram NodeM

variable {F : Type}

inductive Advances (e : JournalEntry F) : JournalEntry F → Prop
  | same : Advances e e
  | resolved {outcome : Outcome} {nowNs : ℕ} (pending : e.outcome = .pending)
      (resolves : outcome.isResolved = true) : Advances e (MemoryStore.resolved outcome nowNs e)

namespace Advances

variable {e e' e'' : JournalEntry F}

theorem trans (h : Advances e e') (k : Advances e' e'') : Advances e e'' := by
  cases h with
  | same => exact k
  | @resolved outcome nowNs pending resolves =>
    cases k with
    | same => exact .resolved pending resolves
    | resolved again _ =>
      have open' : outcome = .pending := again
      rw [open'] at resolves
      cases resolves

theorem of_resolved (h : Advances e e') (done : e.outcome.isResolved = true) : e' = e := by
  cases h with
  | same => rfl
  | resolved pending _ =>
    rw [pending] at done
    cases done

theorem keys (h : Advances e e') : e'.id = e.id ∧ e'.signal = e.signal ∧ e'.peer = e.peer ∧
    e'.synapse = e.synapse ∧ e'.decidedAtNs = e.decidedAtNs := by
  cases h with
  | same => exact ⟨rfl, rfl, rfl, rfl, rfl⟩
  | resolved _ _ => exact ⟨rfl, rfl, rfl, rfl, rfl⟩

end Advances

/-- Every entry stays in its place and advances at most. -/
structure JournalKept (st st' : MemoryStore F) : Prop where
  entries : ∀ (i : ℕ) (e : JournalEntry F), st.journal[i]? = some e →
    ∃ e', st'.journal[i]? = some e' ∧ Advances e e'
  ordered : JournalOrdered st → JournalOrdered st'

namespace JournalKept

theorem refl (st : MemoryStore F) : JournalKept st st :=
  ⟨fun _ e here => ⟨e, here, .same⟩, id⟩

theorem trans {a b c : MemoryStore F} (hab : JournalKept a b) (hbc : JournalKept b c) :
    JournalKept a c := by
  refine ⟨fun i e here => ?_, hbc.ordered ∘ hab.ordered⟩
  obtain ⟨e', there, first⟩ := hab.entries i e here
  obtain ⟨e'', last, second⟩ := hbc.entries i e' there
  exact ⟨e'', last, first.trans second⟩

theorem of_grows {st st' : MemoryStore F} (h : JournalGrows st st') : JournalKept st st' := by
  refine ⟨fun i e here => ⟨e, ?_, .same⟩, fun ordered => ordered.grows h⟩
  obtain ⟨new, journal, -, -⟩ := h
  rw [journal, List.getElem?_append_left (List.getElem?_eq_some_iff.mp here).1]
  exact here

theorem resolve (st : MemoryStore F) (id : JournalId) {outcome : Outcome}
    (resolves : outcome.isResolved = true) (nowNs : ℕ) :
    JournalKept st (st.resolveDecision id outcome nowNs).2 := by
  refine ⟨fun i x here => ?_, fun ordered => ordered.resolve id outcome nowNs⟩
  rcases st.resolveDecision_cases id outcome nowNs with ⟨-, r⟩ | ⟨e, -, -, r⟩ | ⟨e, found, open', r⟩
  · rw [r]
    exact ⟨x, here, .same⟩
  · rw [r]
    exact ⟨x, here, .same⟩
  · obtain ⟨pre, post, split, updated⟩ :=
      updateFirst_of_find? (f := MemoryStore.resolved outcome nowNs) found
    rw [r]
    dsimp only
    rw [updated]
    rw [split] at here
    rcases Nat.lt_trichotomy i pre.length with lt | rfl | gt
    · rw [List.getElem?_append_left lt] at here ⊢
      exact ⟨x, here, .same⟩
    · obtain rfl : e = x := by simpa using here
      exact ⟨MemoryStore.resolved outcome nowNs e, by simp, .resolved open' resolves⟩
    · rw [List.getElem?_append_right (Nat.le_of_lt gt), List.getElem?_cons, if_neg (by omega)]
        at here ⊢
      exact ⟨x, here, .same⟩

end JournalKept

def KeepsJournal (s s' : NodeState F) : Prop := JournalKept s.store s'.store

namespace Node

variable [Scalar F] (node : Node F)

theorem settle_keepsJournal (id : JournalId) {outcome : Outcome}
    (resolves : outcome.isResolved = true) (nowNs : ℕ) :
    (node.settle id outcome nowNs).Within KeepsJournal := by
  refine node.settle_within id nowNs (Prog.Within.bind (Prog.Within.of_act fun s => ?_)
    fun _ => Prog.Within.of_ofExcept _) (fun s _ => JournalKept.refl s.store) fun s s' h => ?_
  · cases nextFault s with
    | none => exact JournalKept.resolve s.store id resolves nowNs
    | some f => exact JournalKept.refl s.store
  · exact JournalKept.of_grows (.of_same h.store.journal h.store.nextJournalId)

omit [Scalar F] in
theorem lesson_isResolved {call : Call F} {outcome : Outcome} (h : call.lesson = some outcome) :
    outcome.isResolved = true := by
  cases call with
  | failForward id =>
    cases h
    rfl
  | applyReceipt receipt peer =>
    cases h
    exact receipt.outcome_isResolved
  | sweepTimeouts limit =>
    cases h
    rfl
  | _ => cases h

theorem perform_keepsJournal (call : Call F) : (node.perform call).Within KeepsJournal :=
  node.perform_within (fun _ _ h => JournalKept.of_grows h.store)
    fun id _ nowNs lesson => node.settle_keepsJournal id (lesson_isResolved lesson) nowNs

theorem perform_journalKept (call : Call F) (s : NodeState F) :
    JournalKept s.store ((node.perform call).run s).2.store :=
  (node.perform_keepsJournal call).run (fun s => JournalKept.refl s.store) .trans s

end Node

theorem NodeRun.journalOrdered [Scalar F] {node : Node F} {ms : List (Moment F)} {s : NodeState F}
    (run : NodeRun node ms s) :
    JournalOrdered s.store ∧ ∀ m ∈ ms, JournalOrdered m.before.store := by
  refine run.invariant (I := fun st _ => JournalOrdered st) rfl fun m performed ordered => ?_
  rw [moment_after performed]
  exact (node.perform_journalKept m.call m.before).ordered ordered

end OpenNtl
