import OpenNtl.SqliteStore

/-! # When the journal is the same on both stores -/
namespace OpenNtl

open SqlTable

variable {F : Type}

inductive JournalCall (F : Type) where
  | appendDecision (entry : JournalEntry F)
  | resolveDecision (id : JournalId) (outcome : Outcome) (nowNs : ℕ)
  | pendingDecisionFor (signal : SignalId) (peer : NodeId)
  | expiredDecisions (deadlineNs limit : ℕ)
  | recentDecisions (signalType : Option SignalType) (limit : ℕ)
  | trimJournal (olderThanNs : ℕ)

inductive JournalReply (F : Type) where
  | appended (id : JournalId)
  | entry (e : Option (JournalEntry F))
  | entries (es : List (JournalEntry F))
  | removed (count : ℕ)

def MemoryStore.journalCall (s : MemoryStore F) : JournalCall F → JournalReply F × MemoryStore F
  | .appendDecision entry => (.appended (s.appendDecision entry).1, (s.appendDecision entry).2)
  | .resolveDecision id outcome nowNs =>
    (.entry (s.resolveDecision id outcome nowNs).1, (s.resolveDecision id outcome nowNs).2)
  | .pendingDecisionFor signal peer => (.entry (s.pendingDecisionFor signal peer), s)
  | .expiredDecisions deadlineNs limit => (.entries (s.expiredDecisions deadlineNs limit), s)
  | .recentDecisions signalType limit => (.entries (s.recentDecisions signalType limit), s)
  | .trimJournal olderThanNs => (.removed (s.trimJournal olderThanNs).1, (s.trimJournal olderThanNs).2)

/-- What a call may answer over SQLite, and the tables it leaves. -/
inductive SqliteStore.JournalStep [Scalar F] (q : SqliteStore F) :
    JournalCall F → Except StoreError (JournalReply F) → SqliteStore F → Prop
  | appendDecision (entry : JournalEntry F) :
      JournalStep q (.appendDecision entry) ((q.appendDecision entry).1.map .appended)
        (q.appendDecision entry).2
  | resolveDecision (id : JournalId) (outcome : Outcome) (nowNs : ℕ) :
      JournalStep q (.resolveDecision id outcome nowNs)
        ((q.resolveDecision id outcome nowNs).1.map .entry) (q.resolveDecision id outcome nowNs).2
  | pendingDecisionFor {signal : SignalId} {peer : NodeId}
      {answer : Except StoreError (Option (JournalEntry F))}
      (allowed : q.PendingDecisionFor signal peer answer) :
      JournalStep q (.pendingDecisionFor signal peer) (answer.map .entry) q
  | expiredDecisions {deadlineNs limit : ℕ} {answer : Except StoreError (List (JournalEntry F))}
      (allowed : q.ExpiredDecisions deadlineNs limit answer) :
      JournalStep q (.expiredDecisions deadlineNs limit) (answer.map .entries) q
  | recentDecisions {signalType : Option SignalType} {limit : ℕ}
      {answer : Except StoreError (List (JournalEntry F))}
      (allowed : q.RecentDecisions signalType limit answer) :
      JournalStep q (.recentDecisions signalType limit) (answer.map .entries) q
  | trimJournal (olderThanNs : ℕ) :
      JournalStep q (.trimJournal olderThanNs) (.ok (.removed (q.trimJournal olderThanNs).1))
        (q.trimJournal olderThanNs).2

/-- One call made on both stores, and what each of them answered. -/
structure JournalMoment (F : Type) where
  call : JournalCall F
  before : MemoryStore F
  memory : JournalReply F
  sqlite : Except StoreError (JournalReply F)

/-- The same calls made on both stores since they were empty, oldest first. -/
inductive JournalRun [Scalar F] : List (JournalMoment F) → MemoryStore F → SqliteStore F → Prop
  | start : JournalRun [] .new .new
  | call {ms : List (JournalMoment F)} {m : MemoryStore F} {q q' : SqliteStore F}
      {c : JournalCall F} {r : Except StoreError (JournalReply F)} :
      JournalRun ms m q → q.JournalStep c r q' →
      JournalRun (ms ++ [⟨c, m, (m.journalCall c).1, r⟩]) (m.journalCall c).2 q'

def ofType (signalType : Option SignalType) (e : JournalEntry F) : Bool :=
  signalType.all fun want => decide (e.signalType = want)

def expiredBy (deadlineNs : ℕ) (e : JournalEntry F) : Bool :=
  !e.outcome.isResolved && decide (e.decidedAtNs < deadlineNs)

def awaits (signal : SignalId) (peer : NodeId) (e : JournalEntry F) : Bool :=
  e.signal = signal && e.peer = peer && !e.outcome.isResolved

/-- The best of the candidates, best first. -/
structure Ranks (better : JournalEntry F → JournalEntry F → Prop)
    (candidates es : List (JournalEntry F)) : Prop where
  ranked : es.Pairwise better
  best : ∀ e ∈ candidates, e ∉ es → ∀ x ∈ es, better x e

/-- Recent decisions come newest first, and expired ones oldest first. -/
def InOrder (m : MemoryStore F) : JournalCall F → JournalReply F → Prop
  | .recentDecisions signalType _, .entries es =>
    Ranks (fun a b => b.decidedAtNs ≤ a.decidedAtNs) (m.journal.filter (ofType signalType)) es
  | .expiredDecisions deadlineNs _, .entries es =>
    Ranks (fun a b => a.decidedAtNs ≤ b.decidedAtNs) (m.journal.filter (expiredBy deadlineNs)) es
  | _, _ => True

namespace JournalMoment

/-- Both stores gave the same answer, in the right order. -/
structure Agrees (x : JournalMoment F) : Prop where
  same : x.sqlite = .ok x.memory
  ordered : InOrder x.before x.call x.memory

def Dated (x : JournalMoment F) : Prop :=
  match x.call with
  | .appendDecision entry => entry.decidedAtNs ≤ i64Max
  | _ => True

/-- The readings fit a signed integer, the numbers are numbers, and the reading of each decision
settles where the query puts it. -/
def Unambiguous [Scalar F] (x : JournalMoment F) : Prop :=
  match x.call with
  | .appendDecision entry =>
    (∀ t ∈ entry.resolvedAtNs, t ≤ i64Max) ∧ x.before.nextJournalId + 1 < i64Max ∧
      entry.score ≤ entry.score ∧ entry.signalWeight ≤ entry.signalWeight
  | .resolveDecision id _ nowNs =>
    ∀ e, x.before.decision id = some e → e.outcome = .pending → nowNs ≤ i64Max
  | .pendingDecisionFor signal peer =>
    ∀ first rest, x.before.journal.filter (awaits signal peer) = first :: rest →
      ∀ e ∈ rest, first.decidedAtNs < e.decidedAtNs
  | .expiredDecisions deadlineNs _ =>
    (deadlineNs ≤ i64Max ∨ ∀ e ∈ x.before.journal, e.decidedAtNs < i64Max) ∧
      (x.before.journal.filter (expiredBy deadlineNs)).Pairwise fun a b =>
        a.decidedAtNs < b.decidedAtNs
  | .recentDecisions signalType _ =>
    (x.before.journal.filter (ofType signalType)).Pairwise fun a b =>
      a.decidedAtNs ≠ b.decidedAtNs
  | .trimJournal olderThanNs =>
    olderThanNs ≤ i64Max ∨ ∀ e ∈ x.before.journal, e.decidedAtNs < i64Max

end JournalMoment

def keyOf (e : JournalEntry F) : ℕ := (e.id.map JournalId.id).getD 0

def rowOf (e : JournalEntry F) : JournalRow F := journalRow (keyOf e) e

/-- The journal table reads as these entries. -/
structure JournalReads (q : SqliteStore F) (es : List (JournalEntry F)) : Prop where
  rows : q.journal = es.map rowOf
  keyed : ∀ e ∈ es, e.id = some ⟨keyOf e⟩ ∧ keyOf e ≤ q.sequence
  distinct : (es.map keyOf).Nodup
  within : q.sequence ≤ i64Max
  size : es.length ≤ q.sequence
  dated : ∀ e ∈ es, e.decidedAtNs ≤ i64Max ∧ ∀ t ∈ e.resolvedAtNs, t ≤ i64Max

namespace JournalReads

variable {q : SqliteStore F} {es : List (JournalEntry F)}

theorem decode (h : JournalReads q es) {e : JournalEntry F} (he : e ∈ es) :
    rowToJournal (rowOf e) = .ok e := by
  obtain ⟨decided, resolved⟩ := h.dated e he
  have back : rowToJournal (journalRow (keyOf e) e) = _ :=
    rowToJournal_journalRow decided resolved
  rwa [← (h.keyed e he).1] at back

theorem decodeAll (h : JournalReads q es) {xs : List (JournalEntry F)} (sub : ∀ e ∈ xs, e ∈ es) :
    (xs.map rowOf).mapM rowToJournal = .ok xs := by
  induction xs with
  | nil => rfl
  | cons e xs ih =>
    rw [List.map_cons, List.mapM_cons, h.decode (sub e List.mem_cons_self),
      ih fun x hx => sub x (List.mem_cons_of_mem e hx)]
    rfl

theorem filter_rows (h : JournalReads q es) {wanted : JournalRow F → Bool}
    {p : JournalEntry F → Bool} (same : ∀ e ∈ es, wanted (rowOf e) = p e) :
    q.journal.filter wanted = (es.filter p).map rowOf := by
  rw [h.rows, List.filter_map]
  exact congrArg (List.map rowOf) (List.filter_congr same)

theorem numbered (h : JournalReads q es) : Numbered es := by
  refine ⟨fun e he => ⟨_, (h.keyed e he).1⟩, ?_⟩
  have ids : es.map JournalEntry.id = (es.map keyOf).map fun key => some ⟨key⟩ := by
    rw [List.map_map]
    exact List.map_congr_left fun e he => (h.keyed e he).1
  rw [ids]
  refine h.distinct.map fun a b same => ?_
  simpa using same

end JournalReads

/-- The journal table holds the journal, entry by entry. -/
structure JournalMirrors (m : MemoryStore F) (q : SqliteStore F) : Prop where
  rows : q.journal = m.journal.map rowOf
  sequence : q.sequence = m.nextJournalId
  keyed : ∀ e ∈ m.journal, e.id = some ⟨keyOf e⟩ ∧ keyOf e ≤ m.nextJournalId
  distinct : (m.journal.map keyOf).Nodup
  room : m.nextJournalId < i64Max
  size : m.journal.length ≤ m.nextJournalId
  dated : ∀ e ∈ m.journal, e.decidedAtNs ≤ i64Max ∧ ∀ t ∈ e.resolvedAtNs, t ≤ i64Max

namespace JournalMirrors

variable {m : MemoryStore F} {q : SqliteStore F}

theorem reads (h : JournalMirrors m q) : JournalReads q m.journal where
  rows := h.rows
  keyed e he := h.sequence ▸ h.keyed e he
  distinct := h.distinct
  within := by
    rw [h.sequence]
    exact h.room.le
  size := by
    rw [h.sequence]
    exact h.size
  dated := h.dated

theorem decode (h : JournalMirrors m q) {e : JournalEntry F} (he : e ∈ m.journal) :
    rowToJournal (rowOf e) = .ok e := h.reads.decode he

theorem decodeAll (h : JournalMirrors m q) {es : List (JournalEntry F)}
    (sub : ∀ e ∈ es, e ∈ m.journal) : (es.map rowOf).mapM rowToJournal = .ok es :=
  h.reads.decodeAll sub

theorem unique (h : JournalMirrors m q) {a b : JournalEntry F} (ha : a ∈ m.journal)
    (hb : b ∈ m.journal) {id : JournalId} (first : a.id = some id) (second : b.id = some id) :
    a = b := by
  have same : keyOf a = keyOf b := by
    unfold keyOf
    rw [first, second]
  exact List.inj_on_of_nodup_map h.distinct ha hb same

theorem filter_rows (h : JournalMirrors m q) {wanted : JournalRow F → Bool}
    {p : JournalEntry F → Bool} (same : ∀ e ∈ m.journal, wanted (rowOf e) = p e) :
    q.journal.filter wanted = (m.journal.filter p).map rowOf := h.reads.filter_rows same

theorem take_limit (h : JournalMirrors m q) {es : List (JournalEntry F)}
    (short : es.length ≤ m.journal.length) (limit : ℕ) : es.take (toI64 limit).toNat = es.take limit := by
  have room := h.room
  have size := h.size
  have bound : (toI64 limit).toNat = min limit i64Max := rfl
  rw [bound]
  by_cases small : limit ≤ i64Max
  · rw [Nat.min_eq_left small]
  · rw [List.take_of_length_le (by omega), List.take_of_length_le (by omega)]

end JournalMirrors

theorem pending_text (e : JournalEntry F) :
    decide ((rowOf e).outcome = "pending") = !e.outcome.isResolved := by
  have text : (rowOf e).outcome = outcomeToStr e.outcome := rfl
  rw [text]
  cases done : e.outcome.isResolved with
  | false => simpa using outcomeToStr_eq_pending.mpr done
  | true =>
    have other : outcomeToStr e.outcome ≠ "pending" := by
      intro same
      rw [outcomeToStr_eq_pending.mp same] at done
      cases done
    simpa using other

theorem stored_lt {decided bound : ℕ} (inRange : decided ≤ i64Max)
    (fits : bound ≤ i64Max ∨ decided < i64Max) : toI64 decided < toI64 bound ↔ decided < bound := by
  unfold toI64
  rw [Int.ofNat_lt]
  omega

theorem stored_key {key id : ℕ} (small : key < i64Max) : (key : ℤ) = toI64 id ↔ key = id := by
  unfold toI64
  rw [Int.ofNat_inj]
  omega

theorem ranks_of_sorted {better : JournalEntry F → JournalEntry F → Prop}
    {candidates sorted : List (JournalEntry F)} (perm : sorted.Perm candidates)
    (ordered : sorted.Pairwise better) (limit : ℕ) :
    Ranks better candidates (sorted.take limit) := by
  refine ⟨ordered.sublist (List.take_sublist limit sorted), fun e he out x hx => ?_⟩
  rw [← List.take_append_drop limit sorted, List.pairwise_append] at ordered
  have split := perm.mem_iff.mpr he
  rw [← List.take_append_drop limit sorted, List.mem_append] at split
  exact ordered.2.2 x hx e (split.resolve_left out)

/-- Both answers of a call, and the stores it leaves. -/
structure StepAgrees (m : MemoryStore F) (c : JournalCall F) (r : Except StoreError (JournalReply F))
    (q' : SqliteStore F) : Prop where
  same : r = .ok (m.journalCall c).1
  ordered : InOrder m c (m.journalCall c).1
  mirrors : JournalMirrors (m.journalCall c).2 q'

namespace JournalMirrors

variable {m : MemoryStore F} {q : SqliteStore F}

theorem appendDecision [Scalar F] (h : JournalMirrors m q) {entry : JournalEntry F}
    (dated : entry.decidedAtNs ≤ i64Max) (resolved : ∀ t ∈ entry.resolvedAtNs, t ≤ i64Max)
    (room : m.nextJournalId + 1 < i64Max) (score : entry.score ≤ entry.score)
    (weight : entry.signalWeight ≤ entry.signalWeight) :
    StepAgrees m (.appendDecision entry) ((q.appendDecision entry).1.map .appended)
      (q.appendDecision entry).2 := by
  have free : q.sequence < i64Max := h.sequence ▸ h.room
  have added : q.appendDecision entry = (.ok ⟨m.nextJournalId + 1⟩, { q with
      journal := q.journal ++ [journalRow (m.nextJournalId + 1) entry]
      sequence := m.nextJournalId + 1 }) := by
    have bound : firstNull (journalNumbers entry) = none := by
      refine firstNull_eq_none.mpr fun c hc => ?_
      rcases List.mem_pair.mp hc with rfl | rfl
      · exact score
      · exact weight
    unfold SqliteStore.appendDecision
    rw [if_pos free, h.sequence, bound]
  rw [added]
  refine ⟨rfl, trivial, ?_⟩
  refine ⟨?_, rfl, fun e he => ?_, ?_, room, ?_, fun e he => ?_⟩
  · show q.journal ++ _ = (m.journal ++ _).map rowOf
    rw [h.rows, List.map_append]
    rfl
  · rcases List.mem_append.mp he with old | new
    · obtain ⟨named, bound⟩ := h.keyed e old
      exact ⟨named, Nat.le_succ_of_le bound⟩
    · rw [List.mem_singleton.mp new]
      exact ⟨rfl, Nat.le_refl _⟩
  · show ((m.journal ++ [_]).map keyOf).Nodup
    rw [List.map_append, List.map_singleton, ← List.concat_eq_append]
    refine h.distinct.concat fun here => ?_
    obtain ⟨e, he, same⟩ := List.mem_map.mp here
    have bound := (h.keyed e he).2
    change keyOf e = m.nextJournalId + 1 at same
    omega
  · have size := h.size
    show (m.journal ++ [_]).length ≤ m.nextJournalId + 1
    rw [List.length_append, List.length_singleton]
    omega
  · rcases List.mem_append.mp he with old | new
    · exact h.dated e old
    · rw [List.mem_singleton.mp new]
      exact ⟨dated, resolved⟩

theorem trimJournal (h : JournalMirrors m q) {olderThanNs : ℕ}
    (fits : olderThanNs ≤ i64Max ∨ ∀ e ∈ m.journal, e.decidedAtNs < i64Max) :
    StepAgrees m (.trimJournal olderThanNs) (.ok (.removed (q.trimJournal olderThanNs).1))
      (q.trimJournal olderThanNs).2 := by
  have older : ∀ e ∈ m.journal, decide ((rowOf e).decidedAtNs < toI64 olderThanNs) =
      decide (e.decidedAtNs < olderThanNs) := by
    intro e he
    have stored : (rowOf e).decidedAtNs = toI64 e.decidedAtNs := rfl
    rw [stored]
    exact decide_eq_decide.mpr
      (stored_lt (h.dated e he).1 (fits.imp_right fun all => all e he))
  have kept : (q.trimJournal olderThanNs).2.journal =
      (m.trimJournal olderThanNs).2.journal.map rowOf := by
    show q.journal.filter _ = (m.journal.filter _).map rowOf
    refine h.filter_rows fun e he => ?_
    show (!decide ((rowOf e).decidedAtNs < toI64 olderThanNs)) = _
    rw [older e he]
    by_cases old : e.decidedAtNs < olderThanNs
    · simp [old]
    · simp [old, Nat.le_of_not_lt old]
  have sizes := deleteWhere_length q.journal fun r => decide (r.decidedAtNs < toI64 olderThanNs)
  have sub : (m.trimJournal olderThanNs).2.journal.Sublist m.journal := List.filter_sublist
  have counted : (q.trimJournal olderThanNs).1 = (m.trimJournal olderThanNs).1 := by
    have before := congrArg List.length h.rows
    have after := congrArg List.length kept
    rw [List.length_map] at before after
    change (q.trimJournal olderThanNs).1 + (q.trimJournal olderThanNs).2.journal.length = _ at sizes
    have removed : (m.trimJournal olderThanNs).1 =
        m.journal.length - (m.trimJournal olderThanNs).2.journal.length := rfl
    omega
  refine ⟨by rw [counted]; rfl, trivial, ?_⟩
  exact ⟨kept, h.sequence, fun e he => h.keyed e (sub.subset he), h.distinct.sublist (sub.map keyOf),
    h.room, sub.length_le.trans h.size, fun e he => h.dated e (sub.subset he)⟩

theorem pendingDecisionFor (h : JournalMirrors m q) {signal : SignalId} {peer : NodeId}
    (first : ∀ first rest, m.journal.filter (awaits signal peer) = first :: rest →
      ∀ e ∈ rest, first.decidedAtNs < e.decidedAtNs)
    {answer : Except StoreError (Option (JournalEntry F))}
    (allowed : q.PendingDecisionFor signal peer answer) :
    StepAgrees m (.pendingDecisionFor signal peer) (answer.map .entry) q := by
  obtain ⟨rows, selects, rfl⟩ := allowed
  have matched : q.journal.filter (fun r => decide (r.signal = signal) && decide (r.peer = peer) &&
      decide (r.outcome = "pending")) = (m.journal.filter (awaits signal peer)).map rowOf := by
    refine h.filter_rows fun e _ => ?_
    rw [pending_text]
    rfl
  have found : m.pendingDecisionFor signal peer = (m.journal.filter (awaits signal peer)).head? :=
    (List.head?_filter).symm
  refine ⟨?_, trivial, h⟩
  show _ = Except.ok (JournalReply.entry (m.pendingDecisionFor signal peer))
  rw [found]
  cases split : m.journal.filter (awaits signal peer) with
  | nil =>
    rw [split] at matched
    rw [selects.eq_nil matched]
    rfl
  | cons e rest =>
    have least : ∀ r ∈ rest.map rowOf, SqliteStore.OlderFirst (rowOf e) r := by
      intro r hr
      obtain ⟨x, hx, rfl⟩ := List.mem_map.mp hr
      have here : x ∈ m.journal := List.mem_of_mem_filter (split ▸ List.mem_cons_of_mem e hx)
      have there : e ∈ m.journal := List.mem_of_mem_filter (split ▸ List.mem_cons_self)
      have earlier := first e rest split x hx
      have later := (h.dated x here).1
      exact (stored_lt (h.dated e there).1 (Or.inl later)).mpr earlier
    rw [split] at matched
    rw [selects.eq_singleton matched least]
    have there : e ∈ m.journal := List.mem_of_mem_filter (split ▸ List.mem_cons_self)
    show ((some (rowOf e)).mapM rowToJournal).map JournalReply.entry = _
    rw [Option.mapM_some, h.decode there]
    rfl

theorem expiredDecisions (h : JournalMirrors m q) {deadlineNs limit : ℕ}
    (fits : deadlineNs ≤ i64Max ∨ ∀ e ∈ m.journal, e.decidedAtNs < i64Max)
    (settled : (m.journal.filter (expiredBy deadlineNs)).Pairwise fun a b =>
      a.decidedAtNs < b.decidedAtNs)
    {answer : Except StoreError (List (JournalEntry F))}
    (allowed : q.ExpiredDecisions deadlineNs limit answer) :
    StepAgrees m (.expiredDecisions deadlineNs limit) (answer.map .entries) q := by
  obtain ⟨rows, selects, rfl⟩ := allowed
  have matched : q.journal.filter (fun r => decide (r.outcome = "pending") &&
      decide (r.decidedAtNs < toI64 deadlineNs)) =
        (m.journal.filter (expiredBy deadlineNs)).map rowOf := by
    refine h.filter_rows fun e he => ?_
    have stored : (rowOf e).decidedAtNs = toI64 e.decidedAtNs := rfl
    rw [pending_text, stored]
    exact congrArg _ (decide_eq_decide.mpr
      (stored_lt (h.dated e he).1 (fits.imp_right fun all => all e he)))
  have separated : ((m.journal.filter (expiredBy deadlineNs)).map rowOf).Pairwise
      SqliteStore.OlderFirst := by
    refine List.pairwise_map.mpr (List.Pairwise.imp_of_mem (fun ha hb earlier => ?_) settled)
    have early := (h.dated _ (List.mem_of_mem_filter ha)).1
    have late := (h.dated _ (List.mem_of_mem_filter hb)).1
    exact (stored_lt early (Or.inl late)).mpr earlier
  have only := selects.eq_take (by rw [matched]) separated
  refine ⟨?_, ?_, h⟩
  · rw [only, ← List.map_take, h.take_limit (List.length_filter_le _ _), h.decodeAll fun e he =>
      List.mem_of_mem_filter (List.mem_of_mem_take he)]
    rfl
  · exact ranks_of_sorted (List.Perm.refl _) (settled.imp Nat.le_of_lt) limit

theorem recentDecisions (h : JournalMirrors m q) {signalType : Option SignalType} {limit : ℕ}
    (settled : (m.journal.filter (ofType signalType)).Pairwise fun a b =>
      a.decidedAtNs ≠ b.decidedAtNs)
    {answer : Except StoreError (List (JournalEntry F))}
    (allowed : q.RecentDecisions signalType limit answer) :
    StepAgrees m (.recentDecisions signalType limit) (answer.map .entries) q := by
  obtain ⟨rows, selects, rfl⟩ := allowed
  have matched : q.journal.filter (fun r => signalType.all fun want =>
      decide (r.signalType = signalTypeToStr want)) =
        (m.journal.filter (ofType signalType)).map rowOf := by
    refine h.filter_rows fun e _ => ?_
    have stored : (rowOf e).signalType = signalTypeToStr e.signalType := rfl
    unfold ofType
    simp only [stored, signalTypeToStr_inj]
  have newest : Std.TransCmp fun a b : JournalEntry F =>
      compare b.decidedAtNs a.decidedAtNs := by
    have dates : Std.TransCmp fun a b : JournalEntry F =>
        compare a.decidedAtNs b.decidedAtNs :=
      transCmp_on (inferInstance : Std.TransCmp fun a b : ℕ => compare a b) JournalEntry.decidedAtNs
    exact Std.TransCmp.opposite
  have perm := sortBy_perm (fun a b : JournalEntry F => compare b.decidedAtNs a.decidedAtNs)
    (m.journal.filter (ofType signalType))
  have sorted := (sortBy_sorted newest (m.journal.filter (ofType signalType))).imp
    fun {a b : JournalEntry F} (h : compare b.decidedAtNs a.decidedAtNs ≠ .gt) =>
      Nat.le_of_not_lt fun lt => h (Nat.compare_eq_gt.mpr lt)
  have apart := (perm.pairwise_iff fun {a b : JournalEntry F}
    (h : a.decidedAtNs ≠ b.decidedAtNs) => h.symm).mpr settled
  have separated : ((sortBy (fun a b => compare b.decidedAtNs a.decidedAtNs)
      (m.journal.filter (ofType signalType))).map rowOf).Pairwise SqliteStore.NewerFirst := by
    refine List.pairwise_map.mpr (List.Pairwise.imp_of_mem (fun {a b} ha hb later => ?_)
      (sorted.and apart))
    have dates : ∀ x ∈ sortBy (fun a b : JournalEntry F => compare b.decidedAtNs a.decidedAtNs)
        (m.journal.filter (ofType signalType)), x.decidedAtNs ≤ i64Max := fun x hx =>
      (h.dated x (List.mem_of_mem_filter (perm.mem_iff.mp hx))).1
    refine Or.inl ((stored_lt (dates b hb) (Or.inl (dates a ha))).mpr ?_)
    exact Nat.lt_of_le_of_ne later.1 later.2.symm
  have only := selects.eq_take (by rw [matched]; exact perm.map rowOf) separated
  refine ⟨?_, ranks_of_sorted perm sorted limit, h⟩
  rw [only, ← List.map_take, h.take_limit (perm.length_eq.trans_le (List.length_filter_le _ _)),
    h.decodeAll fun e he => List.mem_of_mem_filter (perm.mem_iff.mp (List.mem_of_mem_take he))]
  rfl

theorem key_matches (h : JournalMirrors m q) {e : JournalEntry F} (he : e ∈ m.journal)
    (id : JournalId) : decide ((rowOf e).id = toI64 id.id) = MemoryStore.hasId id e := by
  obtain ⟨named, bound⟩ := h.keyed e he
  have room := h.room
  have stored : (rowOf e).id = (keyOf e : ℤ) := rfl
  have small : keyOf e < i64Max := by omega
  unfold MemoryStore.hasId
  rw [stored, named]
  refine decide_eq_decide.mpr ((stored_key small).trans ?_)
  cases id
  simp

def resolvedIf (id : JournalId) (outcome : Outcome) (nowNs : ℕ) (e : JournalEntry F) :
    JournalEntry F :=
  if MemoryStore.hasId id e && !e.outcome.isResolved then MemoryStore.resolved outcome nowNs e else e

theorem resolvedIf_id (id : JournalId) (outcome : Outcome) (nowNs : ℕ) (e : JournalEntry F) :
    (resolvedIf id outcome nowNs e).id = e.id := by
  unfold resolvedIf
  split
  · rfl
  · rfl

theorem resolvedIf_key (id : JournalId) (outcome : Outcome) (nowNs : ℕ) (e : JournalEntry F) :
    (rowOf (resolvedIf id outcome nowNs e)).id = (rowOf e).id := by
  have same : keyOf (resolvedIf id outcome nowNs e) = keyOf e := by
    unfold keyOf
    rw [resolvedIf_id]
  exact congrArg Int.ofNat same

theorem resolvedIf_pending {id : JournalId} {e : JournalEntry F} (named : e.id = some id)
    (pending : e.outcome = .pending) (outcome : Outcome) (nowNs : ℕ) :
    resolvedIf id outcome nowNs e = MemoryStore.resolved outcome nowNs e := by
  simp [resolvedIf, MemoryStore.hasId, named, pending, Outcome.isResolved]

theorem resolvedIf_other {id : JournalId} {e : JournalEntry F} (other : e.id ≠ some id)
    (outcome : Outcome) (nowNs : ℕ) : resolvedIf id outcome nowNs e = e := by
  simp [resolvedIf, MemoryStore.hasId, other]

theorem updated_rows (h : JournalMirrors m q) (id : JournalId) (outcome : Outcome) (nowNs : ℕ) :
    (q.resolveDecision id outcome nowNs).2.journal =
      (m.journal.map (resolvedIf id outcome nowNs)).map rowOf := by
  show updateWhere q.journal _ _ = _
  unfold updateWhere
  rw [h.rows, List.map_map, List.map_map]
  refine List.map_congr_left fun e he => ?_
  have wanted : (decide ((rowOf e).id = toI64 id.id) && decide ((rowOf e).outcome = "pending")) =
      (MemoryStore.hasId id e && !e.outcome.isResolved) := by
    rw [h.key_matches he, pending_text]
  simp only [Function.comp_apply, wanted, resolvedIf]
  split <;> rfl

theorem updated_search (h : JournalMirrors m q) (id : JournalId) (outcome : Outcome) (nowNs : ℕ) :
    (q.resolveDecision id outcome nowNs).1 =
      (((m.decision id).map (resolvedIf id outcome nowNs)).map rowOf).mapM rowToJournal := by
  have answer : (q.resolveDecision id outcome nowNs).1 =
      ((q.resolveDecision id outcome nowNs).2.journal.find? fun r =>
        decide (r.id = toI64 id.id)).mapM rowToJournal := rfl
  rw [answer, h.updated_rows, List.map_map, List.find?_map]
  have same : m.journal.find? ((fun r : JournalRow F => decide (r.id = toI64 id.id)) ∘
      (rowOf ∘ resolvedIf id outcome nowNs)) = m.decision id := by
    refine List.find?_congr fun e he => ?_
    simp only [Function.comp_apply, resolvedIf_key]
    exact h.key_matches he id
  rw [same, Option.map_map]

end JournalMirrors

section

open JournalMirrors

/-- Where identifiers name one entry, the search and the update meet the same ones. -/
theorem Numbered.resolveDecision {m : MemoryStore F} (h : Numbered m.journal) (id : JournalId)
    (outcome : Outcome) (nowNs : ℕ) : (m.resolveDecision id outcome nowNs).2.journal =
      m.journal.map (resolvedIf id outcome nowNs) ∧
    (m.resolveDecision id outcome nowNs).1 =
      (m.decision id).map (resolvedIf id outcome nowNs) := by
  rcases m.resolveDecision_cases id outcome nowNs with
    ⟨missing, r⟩ | ⟨e, found, done, r⟩ | ⟨e, found, pending, r⟩
  · rw [r, missing]
    refine ⟨(List.map_id m.journal).symm.trans (List.map_congr_left fun e he => ?_), rfl⟩
    have other : MemoryStore.hasId id e = false := by
      simpa using List.find?_eq_none.mp missing e he
    simp [resolvedIf, other]
  · have here := MemoryStore.decision_mem found
    rw [r, found]
    refine ⟨(List.map_id m.journal).symm.trans (List.map_congr_left fun x hx => ?_), ?_⟩
    · by_cases mine : MemoryStore.hasId id x = true
      · have named : x.id = some id := by simpa [MemoryStore.hasId] using mine
        obtain rfl : x = e := h.unique hx here (named.trans (MemoryStore.decision_id found).symm)
        simp [resolvedIf, done]
      · simp [resolvedIf, mine]
    · simp [resolvedIf, done]
  · have named := MemoryStore.decision_id found
    obtain ⟨pre, post, split, updated⟩ :=
      updateFirst_of_find? (f := MemoryStore.resolved outcome nowNs) found
    have resolves := resolvedIf_pending named pending outcome nowNs
    have others : ∀ x ∈ pre ++ post, resolvedIf id outcome nowNs x = x := by
      intro x hx
      have distinct := h.distinct
      rw [split, List.map_append, List.map_cons, List.nodup_middle, ← List.map_append] at distinct
      refine resolvedIf_other (fun mine => ?_) outcome nowNs
      exact (List.nodup_cons.mp distinct).1 (named.trans mine.symm ▸ List.mem_map_of_mem hx)
    rw [r, found]
    refine ⟨?_, congrArg some resolves.symm⟩
    dsimp only
    rw [updated, split, List.map_append, List.map_cons, resolves,
      List.map_congr_left fun x hx => others x (List.mem_append_left post hx),
      List.map_congr_left fun x hx => others x (List.mem_append_right pre hx)]
    simp

end

namespace JournalMirrors

variable {m : MemoryStore F} {q : SqliteStore F}

theorem resolved_journal (h : JournalMirrors m q) (id : JournalId) (outcome : Outcome)
    (nowNs : ℕ) : (m.resolveDecision id outcome nowNs).2.journal =
      m.journal.map (resolvedIf id outcome nowNs) ∧
    (m.resolveDecision id outcome nowNs).1 =
      (m.decision id).map (resolvedIf id outcome nowNs) :=
  h.reads.numbered.resolveDecision id outcome nowNs

theorem resolveDecision (h : JournalMirrors m q) (id : JournalId) (outcome : Outcome) {nowNs : ℕ}
    (fits : ∀ e, m.decision id = some e → e.outcome = .pending → nowNs ≤ i64Max) :
    StepAgrees m (.resolveDecision id outcome nowNs)
      ((q.resolveDecision id outcome nowNs).1.map .entry)
      (q.resolveDecision id outcome nowNs).2 := by
  obtain ⟨journal, answer⟩ := h.resolved_journal id outcome nowNs
  have next := m.resolveDecision_nextJournalId id outcome nowNs
  have keys := resolvedIf_id (F := F) id outcome nowNs
  have dated : ∀ e ∈ m.journal, (resolvedIf id outcome nowNs e).decidedAtNs ≤ i64Max ∧
      ∀ t ∈ (resolvedIf id outcome nowNs e).resolvedAtNs, t ≤ i64Max := by
    intro e he
    unfold resolvedIf
    split
    · rename_i mine
      rw [Bool.and_eq_true, Bool.not_eq_true'] at mine
      refine ⟨(h.dated e he).1, fun t ht => ?_⟩
      obtain rfl : nowNs = t := Option.some.inj ht
      cases found : m.decision id with
      | none =>
        have missing := List.find?_eq_none.mp found e he
        exact absurd mine.1 missing
      | some x =>
        obtain rfl : e = x := h.unique he (MemoryStore.decision_mem found)
          (by simpa [MemoryStore.hasId] using mine.1) (MemoryStore.decision_id found)
        exact fits e found (Outcome.isResolved_eq_false.mp mine.2)
    · exact h.dated e he
  refine ⟨?_, trivial, ?_⟩
  · rw [h.updated_search]
    simp only [MemoryStore.journalCall, answer]
    cases found : m.decision id with
    | none => rfl
    | some e =>
      have here := MemoryStore.decision_mem found
      obtain ⟨decided, resolved⟩ := dated e here
      have back : rowToJournal (journalRow (keyOf (resolvedIf id outcome nowNs e))
          (resolvedIf id outcome nowNs e)) = _ := rowToJournal_journalRow decided resolved
      have named : (resolvedIf id outcome nowNs e).id =
          some ⟨keyOf (resolvedIf id outcome nowNs e)⟩ := by
        unfold keyOf
        rw [keys, (h.keyed e here).1]
        rfl
      rw [← named] at back
      simp only [Option.map_some, Option.mapM_some]
      rw [show rowToJournal (rowOf (resolvedIf id outcome nowNs e)) = _ from back]
      rfl
  · simp only [MemoryStore.journalCall]
    refine ⟨?_, h.sequence.trans next.symm, fun e he => ?_, ?_, next ▸ h.room, ?_, fun e he => ?_⟩
    · rw [journal]
      exact h.updated_rows id outcome nowNs
    · rw [journal] at he
      obtain ⟨x, hx, rfl⟩ := List.mem_map.mp he
      obtain ⟨named, bound⟩ := h.keyed x hx
      have same : keyOf (resolvedIf id outcome nowNs x) = keyOf x := by
        unfold keyOf
        rw [keys]
      rw [keys, same, next]
      exact ⟨named, bound⟩
    · rw [journal, List.map_map]
      have same : (keyOf ∘ resolvedIf id outcome nowNs : JournalEntry F → ℕ) = keyOf := by
        funext x
        simp only [Function.comp_apply, keyOf, keys]
      rw [same]
      exact h.distinct
    · rw [journal, List.length_map, next]
      exact h.size
    · rw [journal] at he
      obtain ⟨x, hx, rfl⟩ := List.mem_map.mp he
      exact dated x hx

end JournalMirrors

theorem journalStep_agrees [Scalar F] {m : MemoryStore F} {q q' : SqliteStore F} (h : JournalMirrors m q)
    {x : JournalMoment F} (before : x.before = m) (step : q.JournalStep x.call x.sqlite q')
    (dated : x.Dated) (plain : x.Unambiguous) : StepAgrees m x.call x.sqlite q' := by
  subst before
  obtain ⟨c, m, memory, r⟩ := x
  cases step with
  | appendDecision entry =>
    obtain ⟨resolved, room, score, weight⟩ := plain
    exact h.appendDecision dated resolved room score weight
  | resolveDecision id outcome nowNs => exact h.resolveDecision id outcome plain
  | pendingDecisionFor allowed => exact h.pendingDecisionFor plain allowed
  | expiredDecisions allowed => exact h.expiredDecisions plain.1 plain.2 allowed
  | recentDecisions allowed => exact h.recentDecisions plain allowed
  | trimJournal olderThanNs => exact h.trimJournal plain

theorem run_mirrors [Scalar F] {ms : List (JournalMoment F)} {m : MemoryStore F} {q : SqliteStore F}
    (run : JournalRun ms m q) (dated : ∀ x ∈ ms, x.Dated) (plain : ∀ x ∈ ms, x.Unambiguous) :
    JournalMirrors m q ∧ ∀ x ∈ ms, x.Agrees := by
  induction run with
  | start =>
    have room : 0 < i64Max := by decide
    refine ⟨⟨rfl, rfl, ?_, .nil, room, Nat.le_refl 0, ?_⟩, ?_⟩
    · intro e he
      cases he
    · intro e he
      cases he
    · intro x hx
      cases hx
  | @call ms m q q' c r run step ih =>
    obtain ⟨mirrors, agreed⟩ := ih (fun x hx => dated x (List.mem_append_left _ hx))
      fun x hx => plain x (List.mem_append_left _ hx)
    have last := List.mem_append_right ms
      (List.mem_singleton_self (⟨c, m, (m.journalCall c).1, r⟩ : JournalMoment F))
    have agrees := journalStep_agrees mirrors rfl step (dated _ last) (plain _ last)
    refine ⟨agrees.mirrors, fun x hx => ?_⟩
    rcases List.mem_append.mp hx with hx | hx
    · exact agreed x hx
    · rw [List.mem_singleton.mp hx]
      exact ⟨agrees.same, agrees.ordered⟩

/-- In every run in which the readings settle every order asked for, the two stores give the same
answers, recent decisions newest first and expired ones oldest first. -/
theorem journals_agree [Scalar F] {ms : List (JournalMoment F)} {m : MemoryStore F} {q : SqliteStore F}
    (run : JournalRun ms m q) (dated : ∀ x ∈ ms, x.Dated) (plain : ∀ x ∈ ms, x.Unambiguous) :
    ∀ x ∈ ms, x.Agrees := (run_mirrors run dated plain).2

/-! A decision dated before the one appended ahead of it, as after a clock step. -/

section Sample

def pendingSince (nowNs : ℕ) : JournalEntry ℚ where
  id := none
  signal := ⟨7⟩
  signalType := .data
  synapse := ⟨"s"⟩
  peer := ⟨[1]⟩
  score := 1
  signalWeight := 1
  explored := false
  decidedAtNs := nowNs
  outcome := .pending
  resolvedAtNs := none

def steppedMemory : MemoryStore ℚ :=
  ((MemoryStore.new.appendDecision (pendingSince 2)).2.appendDecision (pendingSince 1)).2

def steppedSqlite : SqliteStore ℚ :=
  ((SqliteStore.new.appendDecision (pendingSince 2)).2.appendDecision (pendingSince 1)).2

def steppedBack : List (JournalMoment ℚ) :=
  [⟨.appendDecision (pendingSince 2), .new, .appended ⟨1⟩, .ok (.appended ⟨1⟩)⟩,
    ⟨.appendDecision (pendingSince 1), (MemoryStore.new.appendDecision (pendingSince 2)).2,
      .appended ⟨2⟩, .ok (.appended ⟨2⟩)⟩]

theorem stepped_back : JournalRun steppedBack steppedMemory steppedSqlite :=
  (JournalRun.start.call (.appendDecision (pendingSince 2))).call (.appendDecision (pendingSince 1))

theorem stepped_expired : steppedSqlite.ExpiredDecisions 10 1
    (.ok [{ pendingSince 1 with id := some ⟨2⟩ }]) := by
  refine ⟨[journalRow 2 (pendingSince 1)],
    ⟨[journalRow 2 (pendingSince 1), journalRow 1 (pendingSince 2)], ?_, ?_, rfl⟩, ?_⟩
  · have both : steppedSqlite.journal.filter (fun r => decide (r.outcome = "pending") &&
        decide (r.decidedAtNs < toI64 10)) =
          [journalRow 1 (pendingSince 2), journalRow 2 (pendingSince 1)] := by
      rfl
    rw [both]
    exact List.Perm.swap _ _ _
  · refine .cons ?_ (List.pairwise_singleton _ _)
    intro r hr
    rw [List.mem_singleton.mp hr]
    show ¬ toI64 2 < toI64 1
    decide
  · have back : rowToJournal (journalRow 2 (pendingSince 1)) = _ :=
      rowToJournal_journalRow (by decide) (fun t ht => (by cases ht))
    rw [List.mapM_cons, back]
    rfl

/-- The memory store answers with the one appended first, which is the newer. -/
theorem clock_step_splits_backends :
    ¬ ∀ (ms : List (JournalMoment ℚ)) (m : MemoryStore ℚ) (q : SqliteStore ℚ), JournalRun ms m q →
      (∀ x ∈ ms, x.Dated) → ∀ x ∈ ms, x.Agrees := by
  intro always
  have run := stepped_back.call (.expiredDecisions stepped_expired)
  have dated : ∀ x ∈ steppedBack ++ [⟨.expiredDecisions 10 1, steppedMemory,
      (steppedMemory.journalCall (.expiredDecisions 10 1)).1,
      (Except.ok [{ pendingSince 1 with id := some ⟨2⟩ }]).map .entries⟩], x.Dated := by
    intro x hx
    simp only [steppedBack, List.cons_append, List.nil_append, List.mem_cons, List.not_mem_nil,
      or_false] at hx
    rcases hx with rfl | rfl | rfl
    · show 2 ≤ i64Max
      decide
    · show 1 ≤ i64Max
      decide
    · trivial
  have agrees := (always _ _ _ run dated _ (List.mem_append_right _ (List.mem_singleton_self _))).same
  have ids : ∀ es es' : List (JournalEntry ℚ),
      (Except.ok (.entries es) : Except StoreError (JournalReply ℚ)) = .ok (.entries es') →
        es.map JournalEntry.id = es'.map JournalEntry.id := by
    intro es es' same
    rw [JournalReply.entries.inj (Except.ok.inj same)]
  have first := ids _ _ agrees
  revert first
  decide

theorem stepped_back_agrees : steppedBack.Forall JournalMoment.Agrees := by
  refine List.forall_iff_forall_mem.mpr (journals_agree stepped_back (fun x hx => ?_) fun x hx => ?_)
  · simp only [steppedBack, List.mem_cons, List.not_mem_nil, or_false] at hx
    rcases hx with rfl | rfl
    · show 2 ≤ i64Max
      decide
    · show 1 ≤ i64Max
      decide
  · simp only [steppedBack, List.mem_cons, List.not_mem_nil, or_false] at hx
    rcases hx with rfl | rfl
    · refine ⟨fun t ht => (by cases ht), ?_, le_rfl, le_rfl⟩
      show 0 + 1 < i64Max
      decide
    · refine ⟨fun t ht => (by cases ht), ?_, le_rfl, le_rfl⟩
      show 1 + 1 < i64Max
      decide

end Sample
end OpenNtl
