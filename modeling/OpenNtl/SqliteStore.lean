import OpenNtl.MemoryStore
import OpenNtl.SqlTable

/-! # The SQLite store: deduplication and the journal

Each method is the statements it runs. A query may answer anything that its clauses allow.
-/
namespace OpenNtl

open SqlTable

def i64Max : ℕ := 2 ^ 63 - 1

/-- SQLite integers are signed; timestamps are not. Saturating keeps the far future far. -/
def toI64 (v : ℕ) : ℤ := (min v i64Max : ℕ)

def fromI64 (v : ℤ) : ℕ := v.toNat

def corrupt (table reason : String) : StoreError := .corrupt table reason

def outcomeToStr : Outcome → String
  | .pending => "pending"
  | .delivered => "delivered"
  | .rejected => "rejected"
  | .timedOut => "timed_out"
  | .transportFailure => "transport_failure"
  | .signatureFailure => "signature_failure"

def outcomeFromStr : String → Except StoreError Outcome
  | "pending" => .ok .pending
  | "delivered" => .ok .delivered
  | "rejected" => .ok .rejected
  | "timed_out" => .ok .timedOut
  | "transport_failure" => .ok .transportFailure
  | "signature_failure" => .ok .signatureFailure
  | other => .error (corrupt "journal" ("unknown outcome " ++ other.quote))

def signalTypeToStr : SignalType → String
  | .custom name => "custom:" ++ name
  | .data => "Data"
  | .query => "Query"
  | .event => "Event"
  | .command => "Command"
  | .heartbeat => "Heartbeat"
  | .discovery => "Discovery"
  | .receipt => "Receipt"

def stripPrefix (head s : String) : Option String :=
  if head.toList.isPrefixOf s.toList then some (String.ofList (s.toList.drop head.length))
  else none

def signalTypeFromStr (s : String) : Except StoreError SignalType :=
  match stripPrefix "custom:" s with
  | some name => .ok (.custom name)
  | none =>
    match s with
    | "Data" => .ok .data
    | "Query" => .ok .query
    | "Event" => .ok .event
    | "Command" => .ok .command
    | "Heartbeat" => .ok .heartbeat
    | "Discovery" => .ok .discovery
    | "Receipt" => .ok .receipt
    | other => .error (corrupt "journal" ("unknown signal type " ++ other.quote))

/-- A row of the `journal` table. The signal and the peer are blobs of their bytes. -/
structure JournalRow (F : Type) where
  id : ℤ
  signal : SignalId
  signalType : String
  synapse : String
  peer : NodeId
  score : F
  signalWeight : F
  explored : ℤ
  decidedAtNs : ℤ
  outcome : String
  resolvedAtNs : Option ℤ

structure SqliteStore (F : Type) where
  /-- `seen_signals`: identifier to `expires_ns`. -/
  seen : HashMap SignalId ℤ
  journal : List (JournalRow F)
  /-- The largest key `AUTOINCREMENT` has given out. -/
  sequence : ℕ

variable {F : Type}

def rowToJournal (row : JournalRow F) : Except StoreError (JournalEntry F) := do
  let signalType ← signalTypeFromStr row.signalType
  let outcome ← outcomeFromStr row.outcome
  return {
    id := some ⟨fromI64 row.id⟩
    signal := row.signal
    signalType := signalType
    synapse := ⟨row.synapse⟩
    peer := row.peer
    score := row.score
    signalWeight := row.signalWeight
    explored := row.explored ≠ 0
    decidedAtNs := fromI64 row.decidedAtNs
    outcome := outcome
    resolvedAtNs := row.resolvedAtNs.map fromI64 }

def journalRow (id : ℕ) (entry : JournalEntry F) : JournalRow F where
  id := id
  signal := entry.signal
  signalType := signalTypeToStr entry.signalType
  synapse := entry.synapse.text
  peer := entry.peer
  score := entry.score
  signalWeight := entry.signalWeight
  explored := if entry.explored then 1 else 0
  decidedAtNs := toI64 entry.decidedAtNs
  outcome := outcomeToStr entry.outcome
  resolvedAtNs := entry.resolvedAtNs.map toI64

section Numbers

variable [Scalar F]

def isNull (x : F) : Bool := !decide (x ≤ x)

def firstNull (columns : List (String × F)) : Option StoreError :=
  (columns.find? fun c => isNull c.2).map fun c =>
    .write ("NOT NULL constraint failed: " ++ c.1)

def journalNumbers (entry : JournalEntry F) : List (String × F) := [
  ("journal.score", entry.score),
  ("journal.signal_weight", entry.signalWeight)]

theorem firstNull_eq_none {columns : List (String × F)} :
    firstNull columns = none ↔ ∀ c ∈ columns, c.2 ≤ c.2 := by
  unfold firstNull
  rw [Option.map_eq_none_iff, List.find?_eq_none]
  simp [isNull]

end Numbers

namespace SqliteStore

def new : SqliteStore F where
  seen := ∅
  journal := []
  sequence := 0

def checkAndSetSeen (s : SqliteStore F) (id : SignalId) (nowNs ttlSecs : ℕ) :
    Bool × SqliteStore F :=
  let expires := saturatingAdd nowNs (saturatingMul ttlSecs nanosPerSec)
  let (changed, seen) := upsertWhere s.seen id (toI64 expires) fun exp => decide (exp ≤ toI64 nowNs)
  (changed == 0, { s with seen := seen })

def hasSeen (s : SqliteStore F) (id : SignalId) (nowNs : ℕ) : Bool :=
  (s.seen.lookup id).any fun exp => decide (toI64 nowNs < exp)

def purgeExpiredSeen (s : SqliteStore F) (nowNs : ℕ) : ℕ × SqliteStore F :=
  let kept := HashMap.retain s.seen fun _ exp => !decide (exp ≤ toI64 nowNs)
  (s.seen.entries.countP fun e => decide (e.2 ≤ toI64 nowNs), { s with seen := kept })

/-- `AUTOINCREMENT` refuses to reuse a key, and fails when there is none left. -/
def appendDecision [Scalar F] (s : SqliteStore F) (entry : JournalEntry F) :
    Except StoreError JournalId × SqliteStore F :=
  if s.sequence < i64Max then
    match firstNull (journalNumbers entry) with
    | some e => (.error e, s)
    | none => (.ok ⟨s.sequence + 1⟩, { s with
        journal := s.journal ++ [journalRow (s.sequence + 1) entry]
        sequence := s.sequence + 1 })
  else (.error (.write "database or disk is full"), s)

def resolveDecision (s : SqliteStore F) (id : JournalId) (outcome : Outcome) (nowNs : ℕ) :
    Except StoreError (Option (JournalEntry F)) × SqliteStore F :=
  let journal := updateWhere s.journal
    (fun r => decide (r.id = toI64 id.id) && decide (r.outcome = "pending"))
    fun r => { r with outcome := outcomeToStr outcome, resolvedAtNs := some (toI64 nowNs) }
  ((journal.find? fun r => decide (r.id = toI64 id.id)).mapM rowToJournal,
    { s with journal := journal })

def trimJournal (s : SqliteStore F) (olderThanNs : ℕ) : ℕ × SqliteStore F :=
  let (removed, kept) := deleteWhere s.journal fun r => decide (r.decidedAtNs < toI64 olderThanNs)
  (removed, { s with journal := kept })

def OlderFirst (a b : JournalRow F) : Prop := a.decidedAtNs < b.decidedAtNs

def NewerFirst (a b : JournalRow F) : Prop :=
  b.decidedAtNs < a.decidedAtNs ∨ (a.decidedAtNs = b.decidedAtNs ∧ b.id < a.id)

def PendingDecisionFor (s : SqliteStore F) (signal : SignalId) (peer : NodeId)
    (answer : Except StoreError (Option (JournalEntry F))) : Prop :=
  ∃ rows, Selects s.journal (fun r => decide (r.signal = signal) && decide (r.peer = peer) &&
      decide (r.outcome = "pending")) OlderFirst 1 rows ∧ answer = rows.head?.mapM rowToJournal

def ExpiredDecisions (s : SqliteStore F) (deadlineNs limit : ℕ)
    (answer : Except StoreError (List (JournalEntry F))) : Prop :=
  ∃ rows, Selects s.journal (fun r => decide (r.outcome = "pending") &&
      decide (r.decidedAtNs < toI64 deadlineNs)) OlderFirst (toI64 limit).toNat rows ∧
    answer = rows.mapM rowToJournal

def RecentDecisions (s : SqliteStore F) (signalType : Option SignalType) (limit : ℕ)
    (answer : Except StoreError (List (JournalEntry F))) : Prop :=
  ∃ rows, Selects s.journal (fun r => signalType.all fun want =>
      decide (r.signalType = signalTypeToStr want)) NewerFirst (toI64 limit).toNat rows ∧
    answer = rows.mapM rowToJournal

end SqliteStore

theorem outcomeFromStr_outcomeToStr (outcome : Outcome) :
    outcomeFromStr (outcomeToStr outcome) = .ok outcome := by
  cases outcome <;> rfl

theorem outcomeToStr_eq_pending {outcome : Outcome} :
    outcomeToStr outcome = "pending" ↔ outcome.isResolved = false := by
  cases outcome <;> simp [outcomeToStr, Outcome.isResolved]

theorem stripPrefix_append (head s : String) : stripPrefix head (head ++ s) = some s := by
  unfold stripPrefix
  have prefixed : head.toList.isPrefixOf (head ++ s).toList = true := by
    rw [String.toList_append, List.isPrefixOf_iff_prefix]
    exact List.prefix_append _ _
  rw [if_pos prefixed, String.toList_append, ← String.length_toList, List.drop_left,
    String.ofList_toList]

theorem signalTypeFromStr_signalTypeToStr (t : SignalType) :
    signalTypeFromStr (signalTypeToStr t) = .ok t := by
  cases t with
  | custom name =>
    unfold signalTypeFromStr signalTypeToStr
    rw [stripPrefix_append]
  | data | query | event | command | heartbeat | discovery | receipt => rfl

theorem signalTypeToStr_inj {t t' : SignalType} : signalTypeToStr t = signalTypeToStr t' ↔ t = t' := by
  refine ⟨fun same => ?_, fun same => congrArg _ same⟩
  have decoded := signalTypeFromStr_signalTypeToStr t
  rw [same, signalTypeFromStr_signalTypeToStr] at decoded
  exact (Except.ok.inj decoded).symm

theorem toI64_of_le {v : ℕ} (h : v ≤ i64Max) : toI64 v = v := by
  unfold toI64
  rw [Nat.min_eq_left h]

theorem fromI64_toI64 {v : ℕ} (h : v ≤ i64Max) : fromI64 (toI64 v) = v := by
  rw [toI64_of_le h]
  rfl

theorem rowToJournal_journalRow {id : ℕ} {entry : JournalEntry F}
    (decided : entry.decidedAtNs ≤ i64Max) (resolved : ∀ t ∈ entry.resolvedAtNs, t ≤ i64Max) :
    rowToJournal (journalRow id entry) = .ok { entry with id := some ⟨id⟩ } := by
  have explored : decide ((if entry.explored then (1 : ℤ) else 0) ≠ 0) = entry.explored := by
    cases entry.explored <;> rfl
  have at' : (entry.resolvedAtNs.map toI64).map fromI64 = entry.resolvedAtNs := by
    cases same : entry.resolvedAtNs with
    | none => rfl
    | some t => exact congrArg some (fromI64_toI64 (resolved t same))
  unfold rowToJournal journalRow
  simp only [signalTypeFromStr_signalTypeToStr, outcomeFromStr_outcomeToStr,
    fromI64_toI64 decided, at', explored]
  rfl

end OpenNtl
