import OpenNtl.JournalHistory
import OpenNtl.JournalBackends
import OpenNtl.SynapseUniqueness

/-! # A sweep, over any backend

Timing decisions out reads and writes the journal, and learning from each writes the synapses.
-/
namespace OpenNtl

open AtomicProgram SqlTable NodeM

/-- The calls of a sweep, with what is observed of a state: the journal as it reads, and the calls
of `applyOutcomeToSynapse` that `note` adds to. -/
structure SweepBackend (σ F : Type) extends SynapseBackend σ F where
  resolveDecision : JournalId → Outcome → ℕ → σ → Except StoreError (Option (JournalEntry F)) × σ
  /-- What `expired_decisions` may answer, and the state it leaves. -/
  ExpiredDecisions : ℕ → ℕ → σ → Except StoreError (List (JournalEntry F)) × σ → Prop
  note : Option JournalId × Outcome → σ → σ
  journal : σ → List (JournalEntry F)
  learned : σ → List (Option JournalId × Outcome)

namespace Node

variable {σ F : Type} [Scalar F] (node : Node F) (B : SweepBackend σ F)

def applyOutcomeOn (entry : JournalEntry F) (outcome : Outcome) (nowNs : ℕ) :
    Prog σ NodeError (WeightUpdate F) := do
  .modify (B.note (entry.id, outcome))
  node.updateSynapseOn B.toSynapseBackend entry outcome nowNs

def learnIfResolvedNowOn (resolved : Option (JournalEntry F)) (outcome : Outcome) (nowNs : ℕ) :
    Prog σ NodeError (Option (WeightUpdate F)) :=
  match resolved with
  | none => return none
  | some entry =>
    if entry.resolvedAtNs = some nowNs then some <$> node.applyOutcomeOn B entry outcome nowNs
    else return none

def settleOn (journalId : JournalId) (outcome : Outcome) (nowNs : ℕ) :
    Prog σ NodeError (Option (WeightUpdate F)) := do
  let resolved ← storeCall (B.resolveDecision journalId outcome nowNs)
  node.learnIfResolvedNowOn B resolved outcome nowNs

def sweepOneOn (nowNs : ℕ) (entry : JournalEntry F) : Prog σ NodeError ℕ :=
  match entry.id with
  | none => return 0
  | some id => do
    let learned ← node.settleOn B id .timedOut nowNs
    return if learned.isSome then 1 else 0

def sweepAllOn (nowNs : ℕ) (expired : List (JournalEntry F)) : Prog σ NodeError ℕ :=
  expired.foldlM (fun resolved entry => (resolved + ·) <$> node.sweepOneOn B nowNs entry) 0

/-- What `sweep_timeouts` may return, and the state it leaves. -/
inductive SweepsTimeouts (limit : ℕ) (s : σ) : Except NodeError ℕ × σ → Prop
  | unavailable {e : StoreError} {s' : σ}
      (asked : B.ExpiredDecisions (node.config.learning.receiptDeadline (B.now s).1) limit
        (B.now s).2 (.error e, s')) :
      SweepsTimeouts limit s (.error (.serialization e.display), s')
  | swept {expired : List (JournalEntry F)} {s' : σ}
      (asked : B.ExpiredDecisions (node.config.learning.receiptDeadline (B.now s).1) limit
        (B.now s).2 (.ok expired, s')) :
      SweepsTimeouts limit s ((node.sweepAllOn B (B.now s).1 expired).run s')

end Node

section Memory

variable {F : Type} [Scalar F]

def memorySweep : SweepBackend (NodeState F) F where
  toSynapseBackend := memoryBackend
  resolveDecision id outcome nowNs := memoryCall fun st => st.resolveDecision id outcome nowNs
  ExpiredDecisions deadlineNs limit s r :=
    r = memoryCall (fun st => (st.expiredDecisions deadlineNs limit, st)) s
  note lesson s := { s with learned := s.learned ++ [lesson] }
  journal s := s.store.journal
  learned := NodeState.learned

namespace Node

variable (node : Node F)

theorem sweepOneOn_memory (nowNs : ℕ) (entry : JournalEntry F) :
    node.sweepOneOn memorySweep nowNs entry = node.sweepOne nowNs entry := by
  rfl

theorem sweepsTimeouts_memory (limit : ℕ) (s : NodeState F) (r : Except NodeError ℕ × NodeState F) :
    node.SweepsTimeouts memorySweep limit s r ↔ r = (node.sweepTimeouts limit).run s := by
  let deadlineNs := node.config.learning.receiptDeadline s.clock
  cases fault : nextFault s with
  | some f =>
    have call : memoryCall (fun st : MemoryStore F => (st.expiredDecisions deadlineNs limit, st)) s =
        (.error f, s.stored s.store) := by
      unfold memoryCall
      rw [fault]
      rfl
    have method : (node.sweepTimeouts limit).run s =
        (.error (.serialization f.display), s.stored s.store) := by
      simp only [sweepTimeouts, now_bind_run]
      rw [Prog.run_bind_error (readStore_run_error fault)]
    rw [method]
    constructor
    · intro sweeps
      cases sweeps with
      | unavailable asked =>
        obtain ⟨error, rfl⟩ := Prod.mk.inj (asked.trans call)
        rw [Except.error.inj error]
      | swept asked => cases (Prod.mk.inj (asked.trans call)).1
    · rintro rfl
      exact .unavailable call.symm
  | none =>
    have call : memoryCall (fun st : MemoryStore F => (st.expiredDecisions deadlineNs limit, st)) s =
        (.ok (s.store.expiredDecisions deadlineNs limit), s.stored s.store) := by
      unfold memoryCall
      rw [fault]
      rfl
    have method : (node.sweepTimeouts limit).run s =
        (node.sweepAllOn memorySweep s.clock (s.store.expiredDecisions deadlineNs limit)).run
          (s.stored s.store) := by
      simp only [sweepTimeouts, now_bind_run]
      rw [Prog.run_bind_ok (readStore_run_ok fault)]
      rfl
    rw [method]
    constructor
    · intro sweeps
      cases sweeps with
      | unavailable asked => cases (Prod.mk.inj (asked.trans call)).1
      | swept asked =>
        obtain ⟨ok, rfl⟩ := Prod.mk.inj (asked.trans call)
        rw [Except.ok.inj ok]
        rfl
    · rintro rfl
      exact .swept call.symm

end Node

end Memory

section Sqlite

variable {F α : Type}

/-- The tables of a node, and its learning history. -/
structure SqliteWorld (F : Type) where
  journal : SqliteStore F
  tables : SqliteNode F
  learned : List (Option JournalId × Outcome)

def onTables (f : SqliteNode F → α × SqliteNode F) (w : SqliteWorld F) : α × SqliteWorld F :=
  ((f w.tables).1, { w with tables := (f w.tables).2 })

def SqliteStore.entries (q : SqliteStore F) : List (JournalEntry F) :=
  q.journal.filterMap fun row => (rowToJournal row).toOption

def sqliteSweep [Scalar F] : SweepBackend (SqliteWorld F) F where
  now := onTables sqliteBackend.now
  draw f := onTables (sqliteBackend.draw f)
  synapseForPeer peer := onTables (sqliteBackend.synapseForPeer peer)
  getSynapse id := onTables (sqliteBackend.getSynapse id)
  listSynapses := onTables sqliteBackend.listSynapses
  putSynapse r := onTables (sqliteBackend.putSynapse r)
  putFormed r := onTables (sqliteBackend.putFormed r)
  putPeer r := onTables (sqliteBackend.putPeer r)
  influenceSince peer start := onTables (sqliteBackend.influenceSince peer start)
  recordInfluence peer magnitude nowNs start :=
    onTables (sqliteBackend.recordInfluence peer magnitude nowNs start)
  resolveDecision id outcome nowNs w :=
    ((w.journal.resolveDecision id outcome nowNs).1,
      { w with journal := (w.journal.resolveDecision id outcome nowNs).2 })
  ExpiredDecisions deadlineNs limit w r :=
    w.journal.ExpiredDecisions deadlineNs limit r.1 ∧ r.2 = w
  note lesson w := { w with learned := w.learned ++ [lesson] }
  journal w := w.journal.entries
  learned := SqliteWorld.learned

end Sqlite

section Reached

variable {F : Type}

/-- An in-memory store after any calls of the journal, and anything else that leaves the journal
alone. -/
inductive MemoryStore.Reached : MemoryStore F → Prop
  | start {st : MemoryStore F} (empty : st.journal = []) : Reached st
  | call {st : MemoryStore F} (c : JournalCall F) : Reached st → Reached (st.journalCall c).2
  | other {st st' : MemoryStore F} (journal : st'.journal = st.journal)
      (next : st'.nextJournalId = st.nextJournalId) : Reached st → Reached st'

/-- Tables after any calls of the journal, any synapses put, and anything else that leaves the
journal alone and adds no synapse. -/
inductive SqliteWorld.Reached [Scalar F] : SqliteWorld F → Prop
  | start {w : SqliteWorld F} (empty : w.journal.journal = []) (unused : w.journal.sequence = 0)
      (none : w.tables.synapses = ∅) : Reached w
  | call {w : SqliteWorld F} {c : JournalCall F} {r : Except StoreError (JournalReply F)}
      {q : SqliteStore F} (step : w.journal.JournalStep c r q) :
      Reached w → Reached { w with journal := q }
  | putSynapse {w : SqliteWorld F} (r : SynapseRecord F) :
      Reached w → Reached { w with tables := (SqliteNode.putSynapse r w.tables).2 }
  | other {w w' : SqliteWorld F} (journal : w'.journal.journal = w.journal.journal)
      (sequence : w'.journal.sequence = w.journal.sequence)
      (kept : ∀ id row, w'.tables.synapses.lookup id = some row →
        w.tables.synapses.lookup id = some row) : Reached w → Reached w'

end Reached

end OpenNtl
