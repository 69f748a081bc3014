import OpenNtl.Records

/-! # The in-memory store

The reference backend that every other one is checked against. Each operation is one
indivisible step on the tables. Failures of a backend are injected by the node's own state.
-/
namespace OpenNtl

structure Influence (F : Type) where
  peer : NodeId
  magnitude : F
  atNs : ℕ

structure MemoryStore (F : Type) where
  synapses : HashMap SynapseId (SynapseRecord F)
  peers : HashMap NodeId PeerRecord
  /-- Signal identifier to expiry. -/
  seen : HashMap SignalId ℕ
  activation : Option (ActivationSnapshot F)
  journal : List (JournalEntry F)
  nextJournalId : ℕ
  influence : List (Influence F)

variable {F : Type}

namespace MemoryStore

def new : MemoryStore F where
  synapses := ∅
  peers := ∅
  seen := ∅
  activation := none
  journal := []
  nextJournalId := 0
  influence := []

def putSynapse (s : MemoryStore F) (record : SynapseRecord F) : MemoryStore F :=
  { s with synapses := s.synapses.insert record.id record }

def getSynapse (s : MemoryStore F) (id : SynapseId) : Option (SynapseRecord F) :=
  s.synapses.lookup id

def synapseForPeer (s : MemoryStore F) (peer : NodeId) : Option (SynapseRecord F) :=
  s.synapses.values.find? fun r => r.peer = peer

def synapseCmp [Scalar F] (a b : SynapseRecord F) : Ordering :=
  (Scalar.partialCmp b.weight a.weight).then (compare a.id.text b.id.text)

def matchesFilter [Scalar F] (filter : SynapseFilter F) (r : SynapseRecord F) : Bool :=
  (filter.states.isEmpty || filter.states.contains r.state) &&
    (filter.minWeight.all fun least => decide (least ≤ r.weight)) &&
    filter.lastActiveBeforeNs.all fun before => decide (r.lastActiveNs < before)

def listSynapses [Scalar F] (s : MemoryStore F) (filter : SynapseFilter F) :
    List (SynapseRecord F) :=
  let out := sortBy synapseCmp (s.synapses.values.filter (matchesFilter filter))
  match filter.limit with
  | some limit => out.take limit
  | none => out

def putPeer (s : MemoryStore F) (record : PeerRecord) : MemoryStore F :=
  { s with peers := s.peers.insert record.id record }

def checkAndSetSeen (s : MemoryStore F) (id : SignalId) (nowNs ttlSecs : ℕ) :
    Bool × MemoryStore F :=
  let expires := saturatingAdd nowNs (saturatingMul ttlSecs nanosPerSec)
  match s.seen.lookup id with
  | some exp =>
    if nowNs < exp then (true, s) else (false, { s with seen := s.seen.insert id expires })
  | none => (false, { s with seen := s.seen.insert id expires })

def hasSeen (s : MemoryStore F) (id : SignalId) (nowNs : ℕ) : Bool :=
  (s.seen.lookup id).any fun exp => decide (nowNs < exp)

def purgeExpiredSeen (s : MemoryStore F) (nowNs : ℕ) : ℕ × MemoryStore F :=
  let kept := HashMap.retain s.seen fun _ exp => decide (nowNs < exp)
  (s.seen.entries.length - kept.entries.length, { s with seen := kept })

def saveActivation (s : MemoryStore F) (snapshot : ActivationSnapshot F) : MemoryStore F :=
  { s with activation := some snapshot }

def appendDecision (s : MemoryStore F) (entry : JournalEntry F) : JournalId × MemoryStore F :=
  let id : JournalId := ⟨s.nextJournalId + 1⟩
  (id, { s with
    nextJournalId := s.nextJournalId + 1
    journal := s.journal ++ [{ entry with id := some id }] })

def hasId (id : JournalId) (e : JournalEntry F) : Bool := e.id = some id

def decision (s : MemoryStore F) (id : JournalId) : Option (JournalEntry F) :=
  s.journal.find? (hasId id)

def resolved (outcome : Outcome) (nowNs : ℕ) (e : JournalEntry F) : JournalEntry F :=
  { e with outcome := outcome, resolvedAtNs := some nowNs }

/-- The first outcome wins: an entry that is resolved already is returned as it is. -/
def resolveDecision (s : MemoryStore F) (id : JournalId) (outcome : Outcome) (nowNs : ℕ) :
    Option (JournalEntry F) × MemoryStore F :=
  match s.decision id with
  | none => (none, s)
  | some entry =>
    if entry.outcome.isResolved then (some entry, s)
    else
      (some (resolved outcome nowNs entry),
        { s with journal := updateFirst (hasId id) (resolved outcome nowNs) s.journal })

def pendingDecisionFor (s : MemoryStore F) (signal : SignalId) (peer : NodeId) :
    Option (JournalEntry F) :=
  s.journal.find? fun e => e.signal = signal && e.peer = peer && !e.outcome.isResolved

def expiredDecisions (s : MemoryStore F) (deadlineNs limit : ℕ) : List (JournalEntry F) :=
  (s.journal.filter fun e => !e.outcome.isResolved && decide (e.decidedAtNs < deadlineNs)).take
    limit

/-- Newest first. Entries decided at the same reading stay in insertion order. -/
def recentDecisions (s : MemoryStore F) (signalType : Option SignalType) (limit : ℕ) :
    List (JournalEntry F) :=
  (sortBy (fun a b => compare b.decidedAtNs a.decidedAtNs) (s.journal.filter fun e =>
    signalType.all fun want => decide (e.signalType = want))).take limit

def trimJournal (s : MemoryStore F) (olderThanNs : ℕ) : ℕ × MemoryStore F :=
  let kept := s.journal.filter fun e => decide (olderThanNs ≤ e.decidedAtNs)
  (s.journal.length - kept.length, { s with journal := kept })

variable [Scalar F]

def influenceSince (s : MemoryStore F) (peer : NodeId) (windowStartNs : ℕ) : F :=
  Scalar.sum ((s.influence.filter fun i => i.peer = peer && decide (windowStartNs ≤ i.atNs)).map
    Influence.magnitude)

def recordInfluence (s : MemoryStore F) (peer : NodeId) (magnitude : F)
    (nowNs windowStartNs : ℕ) : F × MemoryStore F :=
  let s := { s with influence := s.influence ++ [⟨peer, Scalar.abs magnitude, nowNs⟩] }
  (s.influenceSince peer windowStartNs, s)

section Frame

variable (s : MemoryStore F)

omit [Scalar F] in
@[simp] theorem putSynapse_seen (r : SynapseRecord F) : (s.putSynapse r).seen = s.seen := rfl

omit [Scalar F] in
@[simp] theorem putSynapse_journal (r : SynapseRecord F) :
    (s.putSynapse r).journal = s.journal := rfl

omit [Scalar F] in
@[simp] theorem putSynapse_influence (r : SynapseRecord F) :
    (s.putSynapse r).influence = s.influence := rfl

omit [Scalar F] in
@[simp] theorem appendDecision_synapses (e : JournalEntry F) :
    (s.appendDecision e).2.synapses = s.synapses := rfl

omit [Scalar F] in
@[simp] theorem appendDecision_seen (e : JournalEntry F) :
    (s.appendDecision e).2.seen = s.seen := rfl

@[simp] theorem recordInfluence_synapses (peer : NodeId) (m : F) (now start : ℕ) :
    (s.recordInfluence peer m now start).2.synapses = s.synapses := rfl

@[simp] theorem recordInfluence_journal (peer : NodeId) (m : F) (now start : ℕ) :
    (s.recordInfluence peer m now start).2.journal = s.journal := rfl

@[simp] theorem recordInfluence_seen (peer : NodeId) (m : F) (now start : ℕ) :
    (s.recordInfluence peer m now start).2.seen = s.seen := rfl

omit [Scalar F] in
@[simp] theorem resolveDecision_synapses (id : JournalId) (o : Outcome) (now : ℕ) :
    (s.resolveDecision id o now).2.synapses = s.synapses := by
  unfold resolveDecision
  split
  · rfl
  · split <;> rfl

omit [Scalar F] in
@[simp] theorem resolveDecision_influence (id : JournalId) (o : Outcome) (now : ℕ) :
    (s.resolveDecision id o now).2.influence = s.influence := by
  unfold resolveDecision
  split
  · rfl
  · split <;> rfl

omit [Scalar F] in
@[simp] theorem checkAndSetSeen_synapses (id : SignalId) (now ttl : ℕ) :
    (s.checkAndSetSeen id now ttl).2.synapses = s.synapses := by
  unfold checkAndSetSeen
  split
  · split <;> rfl
  · rfl

omit [Scalar F] in
@[simp] theorem checkAndSetSeen_journal (id : SignalId) (now ttl : ℕ) :
    (s.checkAndSetSeen id now ttl).2.journal = s.journal := by
  unfold checkAndSetSeen
  split
  · split <;> rfl
  · rfl

end Frame

section Dedup

omit [Scalar F]

variable (s : MemoryStore F) (id : SignalId) (nowNs ttlSecs : ℕ)

@[simp] theorem checkAndSetSeen_fst :
    (s.checkAndSetSeen id nowNs ttlSecs).1 = s.hasSeen id nowNs := by
  unfold checkAndSetSeen hasSeen
  cases s.seen.lookup id with
  | none => rfl
  | some exp => by_cases h : nowNs < exp <;> simp [h]

theorem checkAndSetSeen_of_seen (h : s.hasSeen id nowNs = true) :
    (s.checkAndSetSeen id nowNs ttlSecs).2 = s := by
  unfold hasSeen at h
  unfold checkAndSetSeen
  cases hl : s.seen.lookup id with
  | none => simp [hl] at h
  | some exp =>
    have live : nowNs < exp := by simpa [hl] using h
    simp [live]

theorem checkAndSetSeen_of_unseen (h : s.hasSeen id nowNs = false) :
    (s.checkAndSetSeen id nowNs ttlSecs).2 =
      { s with
        seen := s.seen.insert id (saturatingAdd nowNs (saturatingMul ttlSecs nanosPerSec)) } := by
  unfold hasSeen at h
  unfold checkAndSetSeen
  cases hl : s.seen.lookup id with
  | none => rfl
  | some exp =>
    have expired : ¬ nowNs < exp := by simpa [hl] using h
    simp [expired]

end Dedup

section Journal

omit [Scalar F]

variable {s : MemoryStore F} {id : JournalId} {outcome : Outcome} {nowNs : ℕ}

/-- Everything `resolveDecision` can do: nothing, or turn one pending entry into a resolved
one. -/
theorem resolveDecision_cases (s : MemoryStore F) (id : JournalId) (outcome : Outcome)
    (nowNs : ℕ) :
    (s.decision id = none ∧ s.resolveDecision id outcome nowNs = (none, s)) ∨
    (∃ e, s.decision id = some e ∧ e.outcome.isResolved = true ∧
      s.resolveDecision id outcome nowNs = (some e, s)) ∨
    (∃ e, s.decision id = some e ∧ e.outcome = .pending ∧
      s.resolveDecision id outcome nowNs =
        (some (resolved outcome nowNs e),
          { s with journal := updateFirst (hasId id) (resolved outcome nowNs) s.journal })) := by
  unfold resolveDecision
  cases h : s.decision id with
  | none => exact Or.inl ⟨rfl, rfl⟩
  | some e =>
    cases hr : e.outcome.isResolved with
    | true => exact Or.inr (Or.inl ⟨e, rfl, hr, by simp [hr]⟩)
    | false => exact Or.inr (Or.inr ⟨e, rfl, Outcome.isResolved_eq_false.mp hr, by simp [hr]⟩)

theorem resolveDecision_nextJournalId (s : MemoryStore F) (id : JournalId) (outcome : Outcome)
    (nowNs : ℕ) : (s.resolveDecision id outcome nowNs).2.nextJournalId = s.nextJournalId := by
  rcases resolveDecision_cases s id outcome nowNs with ⟨-, r⟩ | ⟨e, -, -, r⟩ | ⟨e, -, -, r⟩
  · rw [r]
  · rw [r]
  · rw [r]

theorem decision_id {e : JournalEntry F} (h : s.decision id = some e) : e.id = some id := by
  simpa [hasId] using List.find?_some h

theorem decision_mem {e : JournalEntry F} (h : s.decision id = some e) : e ∈ s.journal :=
  List.mem_of_find?_eq_some h

theorem decision_congr {t : MemoryStore F} (h : t.journal = s.journal) (id : JournalId) :
    t.decision id = s.decision id := by
  unfold decision
  rw [h]

theorem decision_resolved {e : JournalEntry F} (h : s.decision id = some e)
    (pending : e.outcome = .pending) :
    (s.resolveDecision id outcome nowNs).2.decision id = some (resolved outcome nowNs e) := by
  have open' := Outcome.isResolved_eq_false.mpr pending
  have keeps : ∀ x : JournalEntry F, hasId id x = true →
      hasId id (resolved outcome nowNs x) = true := fun x hx => hx
  have found := find?_updateFirst keeps s.journal
  simp only [resolveDecision, h, open', Bool.false_eq_true, if_false]
  exact found.trans (congrArg _ h)

theorem resolveDecision_of_resolved {e : JournalEntry F} (h : s.decision id = some e)
    (done : e.outcome.isResolved = true) :
    s.resolveDecision id outcome nowNs = (some e, s) := by
  simp only [resolveDecision, h, done, if_true]

theorem decision_resolve_other {other : JournalId} (ne : other ≠ id) :
    (s.resolveDecision id outcome nowNs).2.decision other = s.decision other := by
  rcases resolveDecision_cases s id outcome nowNs with ⟨-, h⟩ | ⟨e, -, -, h⟩ | ⟨e, -, -, h⟩
  · rw [h]
  · rw [h]
  · rw [h]
    refine find?_updateFirst_other (fun x hx => ?_) s.journal
    have hid : x.id = some id := by simpa [hasId] using hx
    simp [hasId, resolved, hid, Ne.symm ne]

theorem resolveDecision_congr {t : MemoryStore F} (same : t.journal = s.journal)
    (id : JournalId) (outcome : Outcome) (nowNs : ℕ) :
    t.resolveDecision id outcome nowNs = ((s.resolveDecision id outcome nowNs).1,
      { t with journal := (s.resolveDecision id outcome nowNs).2.journal }) := by
  unfold resolveDecision
  rw [decision_congr same]
  cases s.decision id with
  | none => rw [← same]
  | some e =>
    by_cases done : e.outcome.isResolved = true
    · simp only [if_pos done]
      rw [← same]
    · simp only [if_neg done]
      rw [same]

end Journal

end MemoryStore

/-- Every entry has an identifier of its own. -/
structure Numbered (es : List (JournalEntry F)) : Prop where
  named : ∀ e ∈ es, ∃ id, e.id = some id
  distinct : (es.map JournalEntry.id).Nodup

namespace Numbered

variable {es : List (JournalEntry F)}

theorem unique (h : Numbered es) {a b : JournalEntry F} (ha : a ∈ es) (hb : b ∈ es)
    (same : a.id = b.id) : a = b := List.inj_on_of_nodup_map h.distinct ha hb same

theorem find (h : Numbered es) {e : JournalEntry F} (he : e ∈ es) {id : JournalId}
    (named : e.id = some id) : es.find? (MemoryStore.hasId id) = some e := by
  cases found : es.find? (MemoryStore.hasId id) with
  | none =>
    have missing := List.find?_eq_none.mp found e he
    simp [MemoryStore.hasId, named] at missing
  | some x =>
    have mine : x.id = some id := by simpa [MemoryStore.hasId] using List.find?_some found
    rw [h.unique (List.mem_of_find?_eq_some found) he (mine.trans named.symm)]

end Numbered
end OpenNtl
