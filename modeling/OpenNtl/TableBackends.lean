import OpenNtl.NodeTables

/-! # When the other tables are the same on both stores

What SQLite stores is what the in-memory store would, had it been given readings that fit an `i64`,
except that it refuses some writes.
-/
namespace OpenNtl

open SqlTable

namespace HashMap

variable {κ ν ν' : Type}

theorem Related.erase [DecidableEq κ] {R : ν → ν' → Prop} {m : HashMap κ ν} {m' : HashMap κ ν'}
    (h : Related R m m') (k : κ) : Related R (m.erase k) (m'.erase k) := by
  change List.Forall₂ _ (m.entries.kerase k) (m'.entries.kerase k)
  unfold Related at h
  generalize m.entries = xs at h
  generalize m'.entries = ys at h
  induction h with
  | nil => exact .nil
  | @cons a b as bs head tail ih =>
    by_cases same : k = a.1
    · rw [List.kerase_cons_eq same, List.kerase_cons_eq (same.trans head.1)]
      exact tail
    · rw [List.kerase_cons_ne same, List.kerase_cons_ne fun h => same (h.trans head.1.symm)]
      exact .cons head ih

/-- The same keys in the same order, with the images of the values. -/
def Mapped (f : ν → ν') : HashMap κ ν → HashMap κ ν' → Prop := Related fun v w => w = f v

variable {f : ν → ν'} {m : HashMap κ ν} {m' : HashMap κ ν'}

theorem Mapped.values (h : Mapped f m m') : m'.values = m.values.map f := by
  have lists := Related.values h
  generalize m.values = xs at lists
  generalize m'.values = ys at lists
  induction lists with
  | nil => rfl
  | cons head _ ih => rw [List.map_cons, head, ih]

theorem Mapped.lookup [DecidableEq κ] (h : Mapped f m m') (k : κ) :
    m'.lookup k = (m.lookup k).map f := by
  generalize m'.lookup k = y, m.lookup k = x, Related.lookup h k = related
  cases related with
  | none => rfl
  | some image => exact congrArg some image

theorem Mapped.any (h : Mapped f m m') {p : (Σ _ : κ, ν) → Bool} {p' : (Σ _ : κ, ν') → Bool}
    (same : ∀ k v, p' ⟨k, f v⟩ = p ⟨k, v⟩) : m'.entries.any p' = m.entries.any p := by
  change List.Forall₂ _ m.entries m'.entries at h
  generalize m.entries = xs at h
  generalize m'.entries = ys at h
  induction h with
  | nil => rfl
  | @cons a b _ _ head _ ih =>
    obtain ⟨k, v⟩ := a
    obtain ⟨k', w⟩ := b
    obtain ⟨rfl, rfl⟩ := head
    rw [List.any_cons, List.any_cons, ih, same k v]

def Each (P : κ → ν → Prop) (m : HashMap κ ν) : Prop := ∀ e ∈ m.entries, P e.1 e.2

namespace Each

variable {P : κ → ν → Prop}

theorem empty : Each P (∅ : HashMap κ ν) := fun _ member => absurd member List.not_mem_nil

variable [DecidableEq κ]

theorem of_lookup (h : Each P m) {k : κ} {v : ν} (found : m.lookup k = some v) : P k v :=
  h ⟨k, v⟩ (AList.mem_lookup_iff.mp found)

theorem erase (h : Each P m) (k : κ) : Each P (m.erase k) := fun e member =>
  h e (List.kerase_sublist k m.entries |>.subset member)

theorem insert (h : Each P m) {k : κ} {v : ν} (new : P k v) : Each P (m.insert k v) := by
  intro e member
  rcases List.mem_cons.mp member with rfl | old
  · exact new
  · exact h.erase k e old

end Each
end HashMap

def clampNs (v : ℕ) : ℕ := fromI64 (toI64 v)

theorem clampNs_eq (v : ℕ) : clampNs v = min v i64Max := rfl

@[simp] theorem clampNs_clampNs (v : ℕ) : clampNs (clampNs v) = clampNs v := by
  simp only [clampNs_eq, min_assoc, min_self]

@[simp] theorem toI64_clampNs (v : ℕ) : toI64 (clampNs v) = toI64 v := by
  simp only [clampNs_eq, toI64, min_assoc, min_self]

variable {F : Type}

def SynapseRecord.clamp (r : SynapseRecord F) : SynapseRecord F :=
  { r with
    establishedAtNs := clampNs r.establishedAtNs
    lastActiveNs := clampNs r.lastActiveNs
    signalsTransmitted := clampNs r.signalsTransmitted
    signalsReceived := clampNs r.signalsReceived
    avgLatencyNs := clampNs r.avgLatencyNs
    failureWindowStartNs := clampNs r.failureWindowStartNs }

def PeerRecord.clamp (r : PeerRecord) : PeerRecord := { r with lastSeenNs := clampNs r.lastSeenNs }

def ActivationSnapshot.clamp (s : ActivationSnapshot F) : ActivationSnapshot F :=
  { s with
    refractoryUntilNs := clampNs s.refractoryUntilNs
    signalsFired := clampNs s.signalsFired
    takenAtNs := clampNs s.takenAtNs }

def SynapseFilter.clamp (filter : SynapseFilter F) : SynapseFilter F :=
  { filter with
    lastActiveBeforeNs := filter.lastActiveBeforeNs.map clampNs
    limit := filter.limit.map clampNs }

def TableCall.clamp : TableCall F → TableCall F
  | .putSynapse record => .putSynapse record.clamp
  | .listSynapses filter => .listSynapses filter.clamp
  | .putPeer record => .putPeer record.clamp
  | .listPeers region limit => .listPeers region (clampNs limit)
  | .saveActivation snapshot => .saveActivation snapshot.clamp
  | .recordInfluence peer magnitude nowNs windowStartNs =>
    .recordInfluence peer magnitude (clampNs nowNs) (clampNs windowStartNs)
  | .influenceSince peer windowStartNs => .influenceSince peer (clampNs windowStartNs)
  | .purgeInfluence olderThanNs => .purgeInfluence (clampNs olderThanNs)
  | .putSignalHistory id body nowNs => .putSignalHistory id body (clampNs nowNs)
  | c => c

def TableCall.Typed : TableCall F → Prop
  | .putSynapse record => record.signatureFailures < 2 ^ 32
  | _ => True

theorem synapseRow_clamp (r : SynapseRecord F) : synapseRow r.clamp = synapseRow r := by
  simp only [synapseRow, SynapseRecord.clamp, toI64_clampNs]

theorem peerRow_clamp (r : PeerRecord) : peerRow r.clamp = peerRow r := by
  simp only [peerRow, PeerRecord.clamp, toI64_clampNs]

theorem rowToSynapse_clamp {r : SynapseRecord F} (typed : r.signatureFailures < 2 ^ 32) :
    rowToSynapse (synapseRow r) = .ok r.clamp := by
  have failures : (r.signatureFailures : ℤ).toNat % 2 ^ 32 = r.signatureFailures := by
    rw [Int.toNat_natCast, Nat.mod_eq_of_lt typed]
  simp only [rowToSynapse, synapseRow, stateFromStr_stateToStr, failures]
  rfl

theorem sourceToStr_inj {a b : PeerSource} : sourceToStr a = sourceToStr b ↔ a = b := by
  refine ⟨fun same => ?_, congrArg sourceToStr⟩
  have decoded := sourceFromStr_sourceToStr a
  rw [same, sourceFromStr_sourceToStr] at decoded
  exact (Except.ok.inj decoded).symm

theorem stateToStr_inj {a b : SynapseState} : stateToStr a = stateToStr b ↔ a = b := by
  refine ⟨fun same => ?_, congrArg stateToStr⟩
  have decoded := stateFromStr_stateToStr a
  rw [same, stateFromStr_stateToStr] at decoded
  exact (Except.ok.inj decoded).symm

theorem rowToPeer_clamp (r : PeerRecord) : rowToPeer (peerRow r) = .ok r.clamp := by
  simp only [rowToPeer, peerRow, sourceFromStr_sourceToStr]
  rfl

theorem rowToActivation_clamp (s : ActivationSnapshot F) :
    rowToActivation (activationRow s) = s.clamp := rfl

theorem mapM_rows {ρ r : Type} {toRow : r → ρ} {ofRow : ρ → Except StoreError r} {rs : List r}
    (each : ∀ x ∈ rs, ofRow (toRow x) = .ok x) : (rs.map toRow).mapM ofRow = .ok rs := by
  induction rs with
  | nil => rfl
  | cons x xs ih =>
    rw [List.map_cons, List.mapM_cons, each x List.mem_cons_self,
      ih fun y later => each y (List.mem_cons_of_mem _ later)]
    rfl

theorem sortBy_strict {α γ : Type} {P : α → Prop} {cmp : α → α → Ordering}
    (lawful : Std.TransCmp fun a b : Subtype P => cmp a.1 b.1) {key : α → γ}
    (separates : ∀ a b, cmp a b = .eq → key a = key b) {xs : List α} (each : ∀ a ∈ xs, P a)
    (distinct : (xs.map key).Nodup) : (sortBy cmp xs).Pairwise fun a b => cmp a b = .lt := by
  have sorted := sortBy_sorted_on lawful each
  have apart : (sortBy cmp xs).Pairwise fun a b => key a ≠ key b :=
    List.pairwise_map.mp ((sortBy_perm cmp xs).map key |>.nodup_iff.mpr distinct)
  refine (sorted.and apart).imp fun both => ?_
  obtain ⟨notAfter, differ⟩ := both
  cases here : cmp _ _ with
  | lt => rfl
  | eq => exact absurd (separates _ _ here) differ
  | gt => exact absurd here notAfter

theorem selects_rows {α ρ : Type} {toRow : α → ρ} {records : List α} {wanted : ρ → Bool}
    {p : α → Bool} {before : ρ → ρ → Prop} {cmp : α → α → Ordering} {limit : ℕ} {rows : List ρ}
    (selects : SqlTable.Selects (records.map toRow) wanted before limit rows)
    (same : ∀ r ∈ records, wanted (toRow r) = p r)
    (alike : ∀ a ∈ records, ∀ b ∈ records, cmp a b = .lt → before (toRow a) (toRow b))
    (strict : (sortBy cmp (records.filter p)).Pairwise fun a b => cmp a b = .lt) :
    rows = ((sortBy cmp (records.filter p)).take limit).map toRow := by
  have filtered : (records.map toRow).filter wanted = (records.filter p).map toRow := by
    rw [List.filter_map]
    exact congrArg (List.map toRow) (List.filter_congr same)
  have mine : ∀ {r}, r ∈ sortBy cmp (records.filter p) → r ∈ records := fun member =>
    (List.mem_filter.mp (mem_sortBy.mp member)).1
  rw [List.map_take]
  refine selects.eq_take ?_ (List.pairwise_map.mpr (strict.imp_of_mem fun ha hb =>
    alike _ (mine ha) _ (mine hb)))
  rw [filtered]
  exact (sortBy_perm cmp _).map toRow

variable [Scalar F]

/-- Weights that are no NaN are ordered, so synapses with different identifiers are, too. -/
theorem synapseCmp_lawful (order : OrderedOn fun x : F => x ≤ x) : Std.TransCmp
    fun a b : { r : SynapseRecord F // r.weight ≤ r.weight } =>
      MemoryStore.synapseCmp a.1 b.1 := by
  have weight := transCmp_on order.partialCmp_trans
    fun a : { r : SynapseRecord F // r.weight ≤ r.weight } => ⟨a.1.weight, a.2⟩
  have flipped := @Std.TransCmp.opposite _ _ weight
  have id := transCmp_on (inferInstance : Std.TransCmp fun a b : String => compare a b)
    fun a : { r : SynapseRecord F // r.weight ≤ r.weight } => a.1.id.text
  exact inferInstanceAs (Std.TransCmp (compareLex
    (fun a b : { r : SynapseRecord F // r.weight ≤ r.weight } =>
      Scalar.partialCmp b.1.weight a.1.weight)
    fun a b => compare a.1.id.text b.1.id.text))

theorem synapseCmp_separates (a b : SynapseRecord F) (same : MemoryStore.synapseCmp a b = .eq) :
    a.id = b.id := by
  have texts := (Ordering.then_eq_eq.mp same).2
  have equal : a.id.text = b.id.text := Std.LawfulEqCmp.eq_of_compare texts
  cases ha : a.id
  cases hb : b.id
  rw [ha, hb] at equal
  exact congrArg SynapseId.mk equal

omit [Scalar F] in
theorem compare_natCast (a b : ℕ) : compare (a : ℤ) (b : ℤ) = compare a b := by
  rw [Int.compare_eq_ite_lt, Nat.compare_eq_ite_lt]
  simp only [Int.ofNat_lt]

omit [Scalar F] in
theorem peerCmp_lawful : Std.TransCmp fun a b : { _p : PeerRecord // True } =>
    MemoryTables.peerCmp a.1 b.1 := by
  have seen := transCmp_on (inferInstance : Std.TransCmp fun a b : ℕ => compare a b)
    fun a : { _p : PeerRecord // True } => a.1.lastSeenNs
  have flipped := @Std.TransCmp.opposite _ _ seen
  have id := transCmp_on (inferInstance : Std.TransCmp fun a b : Bytes => compare a b)
    fun a : { _p : PeerRecord // True } => a.1.id.bytes
  exact inferInstanceAs (Std.TransCmp (compareLex
    (fun a b : { _p : PeerRecord // True } => compare b.1.lastSeenNs a.1.lastSeenNs)
    fun a b => compare a.1.id.bytes b.1.id.bytes))

omit [Scalar F] in
theorem peerCmp_separates (a b : PeerRecord) (same : MemoryTables.peerCmp a b = .eq) :
    a.id = b.id := by
  have bytes := (Ordering.then_eq_eq.mp same).2
  have equal : a.id.bytes = b.id.bytes := Std.LawfulEqCmp.eq_of_compare bytes
  cases ha : a.id
  cases hb : b.id
  rw [ha, hb] at equal
  exact congrArg NodeId.mk equal

/-- The error of a write that SQLite refuses and the in-memory store accepts. -/
def refused (m : MemoryTables F) : TableCall F → Option StoreError
  | .putSynapse r =>
    match firstNull (synapseNumbers r) with
    | some e => some e
    | none =>
      if m.synapses.entries.any fun e => e.1 ≠ r.id && e.2.peer = r.peer then some peerTaken
      else none
  | .saveActivation snapshot => firstNull (activationNumbers snapshot)
  | .recordInfluence _ magnitude _ _ => firstNull (influenceNumbers magnitude)
  | _ => none

/-- The in-memory store, with these writes refused and all integers in range. -/
def guarded (m : MemoryTables F) (c : TableCall F) :
    Except StoreError (TableReply F) × MemoryTables F :=
  match refused m c with
  | some e => (.error e, m)
  | none => m.perform c.clamp

def MemoryTables.amounts (m : MemoryTables F) (peer : NodeId) (windowStartNs : ℕ) : List F :=
  (m.influence.filter fun i => i.peer = peer && decide (windowStartNs ≤ i.atNs)).map
    Influence.magnitude

/-- The amounts that a call asks to be added up, its integers in range. -/
def window (m : MemoryTables F) : TableCall F → List F
  | .recordInfluence peer magnitude nowNs windowStartNs =>
    (m.perform (.recordInfluence peer magnitude (clampNs nowNs) windowStartNs)).2.amounts peer
      (clampNs windowStartNs)
  | .influenceSince peer windowStartNs => m.amounts peer (clampNs windowStartNs)
  | _ => []

/-- SQLite answers as the in-memory store does. A total is the `SUM` of the amounts which that
store adds up one by one, taken in some order. -/
inductive SameAnswer (sqlSum : List F → F) (amounts : List F) :
    Except StoreError (TableReply F) → Except StoreError (TableReply F) → Prop
  | refl (r : Except StoreError (TableReply F)) : SameAnswer sqlSum amounts r r
  | total {ys : List F} (perm : ys.Perm amounts) :
      SameAnswer sqlSum amounts (.ok (.total (Scalar.sum amounts)))
        (.ok (.total (SqliteTables.sqlTotal sqlSum ys)))

/-- `SUM` comes to what adding these amounts one by one comes to, in whatever order. -/
def AddsUp (sqlSum : List F → F) (amounts : List F) : Prop :=
  ∀ ys, ys.Perm amounts → SqliteTables.sqlTotal sqlSum ys = Scalar.sum amounts

variable {sqlSum : List F → F}

/-- Both stores hold the same. -/
structure TablesMirror (m : MemoryTables F) (q : SqliteTables F) : Prop where
  synapses : HashMap.Mapped synapseRow m.synapses q.synapses
  stored : HashMap.Each (fun id r => r.id = id ∧ r.clamp = r ∧ r.signatureFailures < 2 ^ 32 ∧
    r.weight ≤ r.weight) m.synapses
  unique : UniqueOn m.synapses SynapseRecord.peer
  peers : HashMap.Mapped peerRow m.peers q.peers
  known : HashMap.Each (fun id p => p.id = id ∧ p.clamp = p) m.peers
  activation : q.activation = m.activation.map activationRow
  snapshot : ∀ snapshot ∈ m.activation, snapshot.clamp = snapshot
  influence : q.influence = m.influence.map influenceRow
  dated : ∀ i ∈ m.influence, clampNs i.atNs = i.atNs
  metadata : q.metadata = m.metadata
  history : HashMap.Mapped Prod.fst q.history m.history
  retain : q.retainHistory = m.retainHistory

theorem mirror_new (retain : Bool) :
    TablesMirror (F := F) (MemoryTables.new retain) (SqliteTables.new retain) where
  synapses := .nil
  stored := .empty
  unique := fun key _ value _ found => absurd found (by simp [MemoryTables.new, MemoryStore.new])
  peers := .nil
  known := .empty
  activation := rfl
  snapshot := fun _ member => by cases member
  influence := rfl
  dated := fun _ member => absurd member List.not_mem_nil
  metadata := rfl
  history := .nil
  retain := rfl

/-- What one call over SQLite answers and leaves, beside the guarded call in memory. -/
structure CallMirrors (sqlSum : List F → F) (m : MemoryTables F) (c : TableCall F)
    (r : Except StoreError (TableReply F)) (q' : SqliteTables F) : Prop where
  same : SameAnswer sqlSum (window m c) (guarded m c).1 r
  mirrors : TablesMirror (guarded m c).2 q'

namespace TablesMirror

variable {m : MemoryTables F} {q : SqliteTables F}

theorem record_of_lookup (h : TablesMirror m q) {id : SynapseId} {r : SynapseRecord F}
    (found : m.synapses.lookup id = some r) : rowToSynapse (synapseRow r) = .ok r := by
  obtain ⟨-, clamped, typed, -⟩ := h.stored.of_lookup found
  rw [rowToSynapse_clamp typed, clamped]

theorem record_of_values (h : TablesMirror m q) {r : SynapseRecord F}
    (member : r ∈ m.synapses.values) : rowToSynapse (synapseRow r) = .ok r := by
  obtain ⟨e, entry, rfl⟩ := List.mem_map.mp member
  exact h.record_of_lookup (AList.mem_lookup_iff.mpr entry)

theorem putSynapse (h : TablesMirror m q) {r : SynapseRecord F}
    (typed : r.signatureFailures < 2 ^ 32) :
    CallMirrors sqlSum m (.putSynapse r) ((q.putSynapse r).1.map fun _ => .done)
      (q.putSynapse r).2 := by
  cases null : firstNull (synapseNumbers r) with
  | some e =>
    have there : q.putSynapse r = (.error e, q) := by
      simp only [SqliteTables.putSynapse, null]
    have here : guarded m (.putSynapse r) = (.error e, m) := by
      simp only [guarded, refused, null]
    constructor
    · rw [here, there]
      exact .refl _
    · rw [here, there]
      exact h
  | none =>
    have conflicts :
        (q.synapses.entries.any fun e => e.1 ≠ r.id && e.2.peer = (synapseRow r).peer) =
          m.synapses.entries.any fun e => e.1 ≠ r.id && e.2.peer = r.peer :=
      h.synapses.any fun k v => rfl
    by_cases taken : (m.synapses.entries.any fun e => e.1 ≠ r.id && e.2.peer = r.peer) = true
    · have there : q.putSynapse r = (.error peerTaken, q) := by
        simp only [SqliteTables.putSynapse, null, writeSynapse, upsertUnique]
        rw [if_pos (conflicts.trans taken)]
      have here : guarded m (.putSynapse r) = (.error peerTaken, m) := by
        simp only [guarded, refused, null]
        rw [if_pos taken]
      constructor
      · rw [here, there]
        exact .refl _
      · rw [here, there]
        exact h
    · have there : q.putSynapse r =
          (.ok (), { q with synapses := q.synapses.insert r.id (synapseRow r) }) := by
        simp only [SqliteTables.putSynapse, null, writeSynapse, upsertUnique]
        rw [if_neg (conflicts ▸ taken)]
      have here : guarded m (.putSynapse r) = (.ok .done, m.putSynapse r.clamp) := by
        simp only [guarded, refused, null]
        rw [if_neg taken]
        rfl
      have written : upsertUnique m.synapses SynapseRecord.peer r.id r.clamp =
          some (m.synapses.insert r.id r.clamp) := if_neg taken
      have weight : r.weight ≤ r.weight :=
        firstNull_eq_none.mp null ("synapses.weight", r.weight) List.mem_cons_self
      constructor
      · rw [here, there]
        exact .refl _
      · rw [here, there]
        exact { h with
          synapses := HashMap.Related.insert h.synapses r.id (synapseRow_clamp r).symm
          stored := h.stored.insert ⟨rfl, by simp [SynapseRecord.clamp], typed, weight⟩
          unique := h.unique.upsert written }

theorem getSynapse (h : TablesMirror m q) (id : SynapseId) :
    CallMirrors sqlSum m (.getSynapse id) ((q.getSynapse id).map .synapse) q := by
  refine ⟨?_, h⟩
  have read : q.getSynapse id = .ok (m.synapses.lookup id) := by
    rw [SqliteTables.getSynapse, h.synapses.lookup]
    cases found : m.synapses.lookup id with
    | none => rfl
    | some r =>
      simp only [Option.map_some, Option.mapM_some, h.record_of_lookup found]
      rfl
  rw [read]
  exact .refl _

theorem synapseForPeer (h : TablesMirror m q) {peer : NodeId}
    {answer : Except StoreError (Option (SynapseRecord F))}
    (allowed : q.SynapseForPeer peer answer) :
    CallMirrors sqlSum m (.synapseForPeer peer) (answer.map .synapse) q := by
  refine ⟨?_, h⟩
  obtain ⟨rows, ⟨sorted, perm, -, rfl⟩, rfl⟩ := allowed
  have filtered : q.synapses.values.filter (fun r => decide (r.peer = peer)) =
      (m.synapses.values.filter fun r => decide (r.peer = peer)).map synapseRow := by
    rw [h.synapses.values, List.filter_map]
    rfl
  rw [filtered] at perm
  have found : (sorted.take 1).head?.mapM rowToSynapse = .ok (m.synapseForPeer peer) := by
    rw [MemoryStore.synapseForPeer]
    cases hit : m.synapses.values.find? fun r => decide (r.peer = peer) with
    | none =>
      have none : m.synapses.values.filter (fun r => decide (r.peer = peer)) = [] :=
        List.filter_eq_nil_iff.mpr (List.find?_eq_none.mp hit)
      rw [none] at perm
      rw [perm.eq_nil]
      rfl
    | some r =>
      have mine := List.mem_of_find?_eq_some hit
      have reaches : r.peer = peer := by simpa using List.find?_some hit
      cases sorted with
      | nil =>
        have here : synapseRow r ∈ (m.synapses.values.filter fun r => decide (r.peer = peer)).map
            synapseRow :=
          List.mem_map_of_mem (List.mem_filter.mpr ⟨mine, decide_eq_true reaches⟩)
        exact absurd (perm.symm.subset here) List.not_mem_nil
      | cons top rest =>
        obtain ⟨r', member, rfl⟩ := List.mem_map.mp (perm.subset List.mem_cons_self)
        obtain ⟨mine', reaches'⟩ := List.mem_filter.mp member
        obtain ⟨e, entry, rfl⟩ := List.mem_map.mp mine
        obtain ⟨e', entry', rfl⟩ := List.mem_map.mp mine'
        have found := AList.mem_lookup_iff.mpr entry
        have found' := AList.mem_lookup_iff.mpr entry'
        have same := h.unique _ _ _ _ found' found
          ((of_decide_eq_true reaches').trans reaches.symm)
        rw [same] at found'
        have equal : e'.2 = e.2 := Option.some.inj (found'.symm.trans found)
        simp only [List.take_succ_cons, List.head?_cons, Option.mapM_some, equal,
          h.record_of_lookup found]
        rfl
  rw [found]
  exact .refl _

theorem filterRow_synapseRow (filter : SynapseFilter F) {r : SynapseRecord F}
    (clamped : r.clamp = r) : SqliteTables.filterRow filter (synapseRow r) =
      MemoryStore.matchesFilter filter.clamp r := by
  have states : (filter.states.map stateToStr).contains (stateToStr r.state) =
      filter.states.contains r.state := by
    rw [Bool.eq_iff_iff, List.contains_iff_mem, List.contains_iff_mem, List.mem_map]
    constructor
    · rintro ⟨state, member, same⟩
      rw [← stateToStr_inj.mp same]
      exact member
    · exact fun member => ⟨r.state, member, rfl⟩
  have active : r.lastActiveNs = clampNs r.lastActiveNs :=
    (congrArg SynapseRecord.lastActiveNs clamped).symm
  have since : (filter.lastActiveBeforeNs.all fun before =>
      decide ((synapseRow r).lastActiveNs < toI64 before)) =
      ((filter.lastActiveBeforeNs.map clampNs).all fun before =>
        decide (r.lastActiveNs < before)) := by
    cases filter.lastActiveBeforeNs with
    | none => rfl
    | some before =>
      have less : toI64 r.lastActiveNs < toI64 before ↔ r.lastActiveNs < clampNs before := by
        rw [active, toI64_clampNs, clampNs_eq, clampNs_eq, toI64, toI64, Int.ofNat_lt]
      exact decide_eq_decide.mpr less
  rw [SqliteTables.filterRow, MemoryStore.matchesFilter]
  exact congrArg₂ and (congrArg₂ and (congrArg₂ or rfl states) rfl) since

theorem ids_nodup (h : TablesMirror m q) : (m.synapses.values.map SynapseRecord.id).Nodup := by
  have keys : m.synapses.values.map SynapseRecord.id = m.synapses.entries.keys := by
    rw [HashMap.values, List.map_map]
    exact List.map_congr_left fun e member => (h.stored e member).1
  rw [keys]
  exact m.synapses.nodupKeys

theorem listSynapses (h : TablesMirror m q) (order : OrderedOn fun x : F => x ≤ x)
    {filter : SynapseFilter F} {answer : Except StoreError (List (SynapseRecord F))}
    (allowed : q.ListSynapses filter answer) :
    CallMirrors sqlSum m (.listSynapses filter) (answer.map .synapses) q := by
  refine ⟨?_, h⟩
  obtain ⟨rows, selects, rfl⟩ := allowed
  rw [h.synapses.values] at selects
  have each : ∀ r ∈ m.synapses.values.filter (MemoryStore.matchesFilter filter.clamp),
      r.weight ≤ r.weight := by
    intro r member
    obtain ⟨e, entry, rfl⟩ := List.mem_map.mp (List.mem_filter.mp member).1
    exact (h.stored e entry).2.2.2
  have distinct : ((m.synapses.values.filter
      (MemoryStore.matchesFilter filter.clamp)).map SynapseRecord.id).Nodup :=
    h.ids_nodup.sublist (List.filter_sublist.map _)
  have strict := sortBy_strict (synapseCmp_lawful order) synapseCmp_separates each distinct
  have clauses : ∀ r ∈ m.synapses.values, SqliteTables.filterRow filter (synapseRow r) =
      MemoryStore.matchesFilter filter.clamp r := by
    intro r member
    obtain ⟨e, entry, rfl⟩ := List.mem_map.mp member
    exact filterRow_synapseRow filter (h.stored e entry).2.1
  have only : rows = ((sortBy MemoryStore.synapseCmp (m.synapses.values.filter
      (MemoryStore.matchesFilter filter.clamp))).take (filter.limit.elim
        (m.synapses.values.map synapseRow).length fun limit => (toI64 limit).toNat)).map
          synapseRow := selects_rows selects clauses (fun _ _ _ _ less => less) strict
  have limited : (sortBy MemoryStore.synapseCmp (m.synapses.values.filter
      (MemoryStore.matchesFilter filter.clamp))).take (filter.limit.elim
        (m.synapses.values.map synapseRow).length fun limit => (toI64 limit).toNat) =
      m.listSynapses filter.clamp := by
    rw [MemoryStore.listSynapses, SynapseFilter.clamp]
    cases filter.limit with
    | none =>
      refine List.take_of_length_le ?_
      rw [length_sortBy, Option.elim_none, List.length_map]
      exact List.length_filter_le _ _
    | some limit => rfl
  rw [only, limited, mapM_rows fun r member => h.record_of_values ?_]
  · exact .refl _
  · rw [← limited] at member
    exact (List.mem_filter.mp (mem_sortBy.mp (List.mem_of_mem_take member))).1

omit [Scalar F] in
theorem UniqueOn.erase {κ ν γ : Type} [DecidableEq κ] {rows : HashMap κ ν} {column : ν → γ}
    (unique : UniqueOn rows column) (key : κ) : UniqueOn (rows.erase key) column := by
  intro a b va vb ha hb same
  have kept : ∀ k v, (rows.erase key).lookup k = some v → rows.lookup k = some v := by
    intro k v found
    by_cases here : k = key
    · rw [here, AList.lookup_erase] at found
      cases found
    · rwa [AList.lookup_erase_ne here] at found
  exact unique a b va vb (kept a va ha) (kept b vb hb) same

theorem deleteSynapse (h : TablesMirror m q) (id : SynapseId) :
    CallMirrors sqlSum m (.deleteSynapse id) (.ok .done) (q.deleteSynapse id) where
  same := .refl _
  mirrors := { h with
    synapses := HashMap.Related.erase h.synapses id
    stored := h.stored.erase id
    unique := UniqueOn.erase h.unique id }

theorem peer_of_lookup (h : TablesMirror m q) {id : NodeId} {p : PeerRecord}
    (found : m.peers.lookup id = some p) : rowToPeer (peerRow p) = .ok p := by
  rw [rowToPeer_clamp, (h.known.of_lookup found).2]

theorem seen_of_values (h : TablesMirror m q) {p : PeerRecord} (member : p ∈ m.peers.values) :
    toI64 p.lastSeenNs = p.lastSeenNs := by
  obtain ⟨e, entry, rfl⟩ := List.mem_map.mp member
  have clamped : clampNs e.2.lastSeenNs = e.2.lastSeenNs :=
    congrArg PeerRecord.lastSeenNs (h.known e entry).2
  rw [clampNs_eq] at clamped
  exact congrArg Nat.cast clamped

theorem putPeer (h : TablesMirror m q) (r : PeerRecord) :
    CallMirrors sqlSum m (.putPeer r) (.ok .done) (q.putPeer r) where
  same := .refl _
  mirrors := { h with
    peers := HashMap.Related.insert h.peers r.id (peerRow_clamp r).symm
    known := h.known.insert ⟨rfl, by simp [PeerRecord.clamp]⟩ }

theorem getPeer (h : TablesMirror m q) (id : NodeId) :
    CallMirrors sqlSum m (.getPeer id) ((q.getPeer id).map .peer) q := by
  refine ⟨?_, h⟩
  have read : q.getPeer id = .ok (m.peers.lookup id) := by
    rw [SqliteTables.getPeer, h.peers.lookup]
    cases found : m.peers.lookup id with
    | none => rfl
    | some r =>
      simp only [Option.map_some, Option.mapM_some, h.peer_of_lookup found]
      rfl
  rw [read]
  exact .refl _

theorem peerIds_nodup (h : TablesMirror m q) : (m.peers.values.map PeerRecord.id).Nodup := by
  have keys : m.peers.values.map PeerRecord.id = m.peers.entries.keys := by
    rw [HashMap.values, List.map_map]
    exact List.map_congr_left fun e member => (h.known e member).1
  rw [keys]
  exact m.peers.nodupKeys

theorem listPeers (h : TablesMirror m q) {region : Option String} {limit : ℕ}
    {answer : Except StoreError (List PeerRecord)} (allowed : q.ListPeers region limit answer) :
    CallMirrors sqlSum m (.listPeers region limit) (answer.map .peers) q := by
  refine ⟨?_, h⟩
  obtain ⟨rows, selects, rfl⟩ := allowed
  rw [h.peers.values] at selects
  have distinct : ((m.peers.values.filter (MemoryTables.inRegion region)).map
      PeerRecord.id).Nodup := h.peerIds_nodup.sublist (List.filter_sublist.map _)
  have strict := sortBy_strict peerCmp_lawful peerCmp_separates (fun _ _ => trivial) distinct
  have alike : ∀ a ∈ m.peers.values, ∀ b ∈ m.peers.values, MemoryTables.peerCmp a b = .lt →
      SqliteTables.peerRowCmp (peerRow a) (peerRow b) = .lt := by
    intro a ha b hb less
    rw [SqliteTables.peerRowCmp, peerRow, peerRow, h.seen_of_values ha, h.seen_of_values hb,
      compare_natCast]
    exact less
  have only := selects_rows selects (fun _ _ => rfl) alike strict
  rw [only, mapM_rows fun p member => ?_]
  · exact .refl _
  · have mine := (List.mem_filter.mp (mem_sortBy.mp (List.mem_of_mem_take member))).1
    obtain ⟨e, entry, rfl⟩ := List.mem_map.mp mine
    exact h.peer_of_lookup (AList.mem_lookup_iff.mpr entry)

theorem countPeers (h : TablesMirror m q) (source : PeerSource) :
    CallMirrors sqlSum m (.countPeers source) (.ok (.count (q.countPeers source))) q := by
  refine ⟨?_, h⟩
  have count : q.countPeers source = m.countPeers source := by
    rw [SqliteTables.countPeers, h.peers.values, List.countP_map, fromI64, Int.toNat_natCast]
    exact List.countP_congr fun p _ => by
      simp only [Function.comp_apply, decide_eq_true_eq, peerRow, sourceToStr_inj]
  rw [count]
  exact .refl _

theorem saveActivation (h : TablesMirror m q) (snapshot : ActivationSnapshot F) :
    CallMirrors sqlSum m (.saveActivation snapshot)
      ((q.saveActivation snapshot).1.map fun _ => .done) (q.saveActivation snapshot).2 := by
  cases null : firstNull (activationNumbers snapshot) with
  | some e =>
    have there : q.saveActivation snapshot = (.error e, q) := by
      simp only [SqliteTables.saveActivation, null]
    have here : guarded m (.saveActivation snapshot) = (.error e, m) := by
      simp only [guarded, refused, null]
    constructor
    · rw [here, there]
      exact .refl _
    · rw [here, there]
      exact h
  | none =>
    have there : q.saveActivation snapshot =
        (.ok (), { q with activation := some (activationRow snapshot) }) := by
      simp only [SqliteTables.saveActivation, null]
    have here : guarded m (.saveActivation snapshot) =
        (.ok .done, m.saveActivation snapshot.clamp) := by
      simp only [guarded, refused, null]
      rfl
    have row : activationRow snapshot.clamp = activationRow snapshot := by
      simp only [activationRow, ActivationSnapshot.clamp, toI64_clampNs]
    constructor
    · rw [here, there]
      exact .refl _
    · rw [here, there]
      exact { h with
        activation := congrArg some row.symm
        snapshot := fun s saved => by
          obtain rfl := Option.some.inj saved
          simp [ActivationSnapshot.clamp] }

theorem loadActivation (h : TablesMirror m q) :
    CallMirrors sqlSum m .loadActivation (.ok (.activation q.loadActivation)) q := by
  refine ⟨?_, h⟩
  have read : q.loadActivation = m.loadActivation := by
    rw [SqliteTables.loadActivation, MemoryTables.loadActivation, h.activation]
    cases saved : m.activation with
    | none => rfl
    | some s => exact congrArg some ((rowToActivation_clamp s).trans (h.snapshot s saved))
  rw [read]
  exact .refl _

theorem at_of_influence (h : TablesMirror m q) {i : Influence F} (member : i ∈ m.influence) :
    (influenceRow i).atNs = i.atNs := by
  have clamped := h.dated i member
  rw [clampNs_eq] at clamped
  exact congrArg Nat.cast clamped

theorem amounts (h : TablesMirror m q) (peer : NodeId) (windowStartNs : ℕ) :
    (q.influence.filter fun i => i.peer = peer && decide (toI64 windowStartNs ≤ i.atNs)).map
        InfluenceRow.magnitude = m.amounts peer (clampNs windowStartNs) := by
  unfold MemoryTables.amounts
  rw [h.influence, List.filter_map, List.map_map]
  have clauses : ∀ i ∈ m.influence, ((fun i : InfluenceRow F => decide (i.peer = peer) &&
      decide (toI64 windowStartNs ≤ i.atNs)) ∘ influenceRow) i =
      (decide (i.peer = peer) && decide (clampNs windowStartNs ≤ i.atNs)) := by
    intro i member
    have since : toI64 windowStartNs ≤ (influenceRow i).atNs ↔
        clampNs windowStartNs ≤ i.atNs := by
      rw [h.at_of_influence member]
      exact Int.ofNat_le
    rw [Function.comp_apply, decide_eq_decide.mpr since]
    rfl
  rw [List.filter_congr clauses]
  rfl

theorem influenceSince (h : TablesMirror m q) {peer : NodeId} {windowStartNs : ℕ} {total : F}
    (allowed : q.InfluenceSince sqlSum peer windowStartNs total) :
    CallMirrors sqlSum m (.influenceSince peer windowStartNs) (.ok (.total total)) q := by
  refine ⟨?_, h⟩
  obtain ⟨magnitudes, perm, rfl⟩ := allowed
  rw [h.amounts] at perm
  exact .total perm

theorem recordInfluence (h : TablesMirror m q) {peer : NodeId} {magnitude : F}
    {nowNs windowStartNs : ℕ} {total : F}
    (bound : firstNull (influenceNumbers magnitude) = none)
    (allowed : ({ q with influence := q.influence ++
      [⟨peer, Scalar.abs magnitude, toI64 nowNs⟩] } : SqliteTables F).InfluenceSince sqlSum
        peer windowStartNs total) :
    CallMirrors sqlSum m (.recordInfluence peer magnitude nowNs windowStartNs) (.ok (.total total))
      { q with influence := q.influence ++ [⟨peer, Scalar.abs magnitude, toI64 nowNs⟩] } := by
  let added : MemoryTables F :=
    { m with influence := m.influence ++ [⟨peer, Scalar.abs magnitude, clampNs nowNs⟩] }
  have mirrors : TablesMirror added
      { q with influence := q.influence ++ [⟨peer, Scalar.abs magnitude, toI64 nowNs⟩] } :=
    { h with
      influence := by
        rw [List.map_append, ← h.influence]
        simp only [List.map_cons, List.map_nil, influenceRow, toI64_clampNs]
      dated := fun i member => by
        rcases List.mem_append.mp member with old | new
        · exact h.dated i old
        · rw [List.mem_singleton.mp new, clampNs_clampNs] }
  have here : guarded m (.recordInfluence peer magnitude nowNs windowStartNs) =
      (.ok (.total (added.influenceSince peer (clampNs windowStartNs))), added) := by
    simp only [guarded, refused, bound]
    rfl
  constructor
  · rw [here]
    exact (mirrors.influenceSince allowed).same
  · rw [here]
    exact mirrors

theorem influenceRefused (h : TablesMirror m q) {peer : NodeId} {magnitude : F}
    {nowNs windowStartNs : ℕ} {e : StoreError}
    (null : firstNull (influenceNumbers magnitude) = some e) :
    CallMirrors sqlSum m (.recordInfluence peer magnitude nowNs windowStartNs) (.error e) q := by
  have here : guarded m (.recordInfluence peer magnitude nowNs windowStartNs) =
      (.error e, m) := by
    simp only [guarded, refused, null]
  constructor
  · rw [here]
    exact .refl _
  · rw [here]
    exact h

theorem purgeInfluence (h : TablesMirror m q) (olderThanNs : ℕ) :
    CallMirrors sqlSum m (.purgeInfluence olderThanNs)
      (.ok (.count (q.purgeInfluence olderThanNs).1)) (q.purgeInfluence olderThanNs).2 := by
  have kept : (q.purgeInfluence olderThanNs).2.influence =
      (m.purgeInfluence (clampNs olderThanNs)).2.influence.map influenceRow := by
    show q.influence.filter _ = (m.influence.filter _).map influenceRow
    rw [h.influence, List.filter_map]
    refine congrArg (List.map influenceRow) (List.filter_congr fun i member => ?_)
    have older : (influenceRow i).atNs < toI64 olderThanNs ↔ ¬ clampNs olderThanNs ≤ i.atNs := by
      rw [h.at_of_influence member, not_le]
      exact Int.ofNat_lt
    show (!decide ((influenceRow i).atNs < toI64 olderThanNs)) = _
    rw [decide_eq_decide.mpr older, decide_not, Bool.not_not]
  have sizes := deleteWhere_length q.influence fun i => decide (i.atNs < toI64 olderThanNs)
  have counted : (q.purgeInfluence olderThanNs).1 =
      (m.purgeInfluence (clampNs olderThanNs)).1 := by
    have before := congrArg List.length h.influence
    have after := congrArg List.length kept
    rw [List.length_map] at before after
    change (q.purgeInfluence olderThanNs).1 +
      (q.purgeInfluence olderThanNs).2.influence.length = _ at sizes
    have removed : (m.purgeInfluence (clampNs olderThanNs)).1 = m.influence.length -
        (m.purgeInfluence (clampNs olderThanNs)).2.influence.length := rfl
    omega
  constructor
  · rw [counted]
    exact .refl _
  · exact { h with
      influence := kept
      dated := fun i member => h.dated i (List.mem_filter.mp member).1 }

theorem putMeta (h : TablesMirror m q) (key : String) (value : Bytes) :
    CallMirrors sqlSum m (.putMeta key value) (.ok .done) (q.putMeta key value) where
  same := .refl _
  mirrors := { h with metadata := congrArg (fun rows => rows.insert key value) h.metadata }

theorem getMeta (h : TablesMirror m q) (key : String) :
    CallMirrors sqlSum m (.getMeta key) (.ok (.value (q.getMeta key))) q := by
  refine ⟨?_, h⟩
  rw [SqliteTables.getMeta, h.metadata]
  exact .refl _

theorem putSignalHistory (h : TablesMirror m q) (id : SignalId) (body : Bytes) (nowNs : ℕ) :
    CallMirrors sqlSum m (.putSignalHistory id body nowNs)
      ((q.putSignalHistory id body nowNs).1.map fun _ => .done)
      (q.putSignalHistory id body nowNs).2 := by
  have here : guarded m (.putSignalHistory id body nowNs) =
      ((m.putSignalHistory id body).1.map fun _ => .done, (m.putSignalHistory id body).2) := rfl
  by_cases retain : m.retainHistory = true
  · have there : q.retainHistory = true := h.retain.trans retain
    rw [MemoryTables.putSignalHistory, if_pos retain] at here
    rw [SqliteTables.putSignalHistory, if_pos there]
    constructor
    · rw [here]
      exact .refl _
    · rw [here]
      exact { h with history := HashMap.Related.insert h.history id rfl }
  · have there : ¬ q.retainHistory = true := fun yes => retain (h.retain.symm.trans yes)
    rw [MemoryTables.putSignalHistory, if_neg retain] at here
    rw [SqliteTables.putSignalHistory, if_neg there]
    constructor
    · rw [here]
      exact .refl _
    · rw [here]
      exact h

theorem getSignalHistory (h : TablesMirror m q) (id : SignalId) :
    CallMirrors sqlSum m (.getSignalHistory id) ((q.getSignalHistory id).map .value) q := by
  refine ⟨?_, h⟩
  have read : q.getSignalHistory id = m.getSignalHistory id := by
    rw [SqliteTables.getSignalHistory, MemoryTables.getSignalHistory, h.retain, h.history.lookup]
  rw [read]
  exact .refl _

theorem answers (h : TablesMirror m q) (order : OrderedOn fun x : F => x ≤ x) {c : TableCall F}
    (typed : c.Typed) {r : Except StoreError (TableReply F)} {q' : SqliteTables F}
    (answers : q.Answers sqlSum c r q') : CallMirrors sqlSum m c r q' := by
  cases answers with
  | putSynapse record => exact h.putSynapse typed
  | getSynapse id => exact h.getSynapse id
  | synapseForPeer allowed => exact h.synapseForPeer allowed
  | listSynapses allowed => exact h.listSynapses order allowed
  | deleteSynapse id => exact h.deleteSynapse id
  | putPeer record => exact h.putPeer record
  | getPeer id => exact h.getPeer id
  | listPeers allowed => exact h.listPeers allowed
  | countPeers source => exact h.countPeers source
  | saveActivation snapshot => exact h.saveActivation snapshot
  | loadActivation => exact h.loadActivation
  | influenceRefused null => exact h.influenceRefused null
  | recordInfluence bound allowed => exact h.recordInfluence bound allowed
  | influenceSince allowed => exact h.influenceSince allowed
  | purgeInfluence olderThanNs => exact h.purgeInfluence olderThanNs
  | putMeta key value => exact h.putMeta key value
  | getMeta key => exact h.getMeta key
  | putSignalHistory id body nowNs => exact h.putSignalHistory id body nowNs
  | getSignalHistory id => exact h.getSignalHistory id

end TablesMirror

/-- What SQLite may answer to one call after another. -/
inductive SqliteTables.Runs (sqlSum : List F → F) : SqliteTables F →
    List (TableCall F × Except StoreError (TableReply F)) → SqliteTables F → Prop
  | done (q : SqliteTables F) : Runs sqlSum q [] q
  | call {q q' q'' : SqliteTables F} {c : TableCall F} {r : Except StoreError (TableReply F)}
      {later : List (TableCall F × Except StoreError (TableReply F))}
      (answers : q.Answers sqlSum c r q') (rest : Runs sqlSum q' later q'') :
      Runs sqlSum q ((c, r) :: later) q''

/-- What a store that performs calls this way answers to one after another. -/
def answersOf (perform : MemoryTables F → TableCall F →
    Except StoreError (TableReply F) × MemoryTables F) :
    MemoryTables F → List (TableCall F) → List (Except StoreError (TableReply F))
  | _, [] => []
  | m, c :: later => (perform m c).1 :: answersOf perform (perform m c).2 later

/-- SQLite has answered each of these calls as the guarded in-memory store does. -/
def AnsweredAlike (sqlSum : List F → F) : MemoryTables F →
    List (TableCall F × Except StoreError (TableReply F)) → Prop
  | _, [] => True
  | m, (c, r) :: later =>
    SameAnswer sqlSum (window m c) (guarded m c).1 r ∧ AnsweredAlike sqlSum (guarded m c).2 later

def Accepted : MemoryTables F → List (TableCall F) → Prop
  | _, [] => True
  | m, c :: later => refused m c = none ∧ Accepted (m.perform c).2 later

/-- `SUM` adds up what each of these calls asks for as the in-memory store does. -/
def SumsAlike (sqlSum : List F → F) : MemoryTables F → List (TableCall F) → Prop
  | _, [] => True
  | m, c :: later => AddsUp sqlSum (window m c) ∧ SumsAlike sqlSum (m.perform c).2 later

theorem SameAnswer.error {e : StoreError} {amounts : List F}
    {r : Except StoreError (TableReply F)} (same : SameAnswer sqlSum amounts (.error e) r) :
    r = .error e := by
  cases same with
  | refl => rfl

theorem SameAnswer.eq {amounts : List F} {r r' : Except StoreError (TableReply F)}
    (same : SameAnswer sqlSum amounts r r') (sums : AddsUp sqlSum amounts) : r = r' := by
  cases same with
  | refl => rfl
  | total perm => rw [sums _ perm]

theorem perform_of_refused {m : MemoryTables F} {c : TableCall F} {e : StoreError}
    (rejects : refused m c = some e) : (m.perform c).1 ≠ .error e := by
  intro error
  cases c with
  | putSynapse | saveActivation | recordInfluence => cases error
  | _ => cases rejects

theorem guarded_of_accepted {m : MemoryTables F} {c : TableCall F} (accepts : refused m c = none)
    (inRange : c.clamp = c) : guarded m c = m.perform c := by
  simp only [guarded, accepts, inRange]

/-- Over the same calls, the in-memory store keeps up with its guarded self until a refusal. -/
theorem accepted_iff {m : MemoryTables F}
    {log : List (TableCall F × Except StoreError (TableReply F))}
    (inRange : ∀ x ∈ log, x.1.clamp = x.1) (sums : SumsAlike sqlSum m (log.map Prod.fst))
    (same : AnsweredAlike sqlSum m log) :
    answersOf MemoryTables.perform m (log.map Prod.fst) = log.map Prod.snd ↔
      Accepted m (log.map Prod.fst) := by
  induction log generalizing m with
  | nil => exact ⟨fun _ => trivial, fun _ => rfl⟩
  | cons x later ih =>
    obtain ⟨c, r⟩ := x
    obtain ⟨head, tail⟩ := same
    have here : c.clamp = c := inRange (c, r) List.mem_cons_self
    have there : ∀ x ∈ later, x.1.clamp = x.1 := fun x hx => inRange x (List.mem_cons_of_mem _ hx)
    cases verdict : refused m c with
    | some e =>
      have refusal : guarded m c = (.error e, m) := by simp only [guarded, verdict]
      rw [refusal] at head
      have answer : r = .error e := head.error
      constructor
      · intro agree
        have first : (m.perform c).1 = r := (List.cons.inj agree).1
        exact absurd (first.trans answer) (perform_of_refused verdict)
      · intro accepts
        have passes : refused m c = none := accepts.1
        rw [passes] at verdict
        cases verdict
    | none =>
      rw [guarded_of_accepted verdict here] at head tail
      have first : (m.perform c).1 = r := head.eq sums.1
      have later := ih there sums.2 tail
      constructor
      · exact fun agree => ⟨verdict, later.mp (List.cons.inj agree).2⟩
      · exact fun accepts => congrArg₂ List.cons first (later.mpr accepts.2)

theorem TablesMirror.runs {m : MemoryTables F} {q q' : SqliteTables F}
    {log : List (TableCall F × Except StoreError (TableReply F))} (h : TablesMirror m q)
    (order : OrderedOn fun x : F => x ≤ x) (run : q.Runs sqlSum log q')
    (typed : ∀ x ∈ log, x.1.Typed) : AnsweredAlike sqlSum m log := by
  induction run generalizing m with
  | done => trivial
  | call answers _ ih =>
    have mirrors := h.answers order (typed _ List.mem_cons_self) answers
    exact ⟨mirrors.same, ih mirrors.mirrors fun x hx => typed x (List.mem_cons_of_mem _ hx)⟩

/-- SQLite answers every run as the in-memory store does that refuses these writes and keeps its
integers in range, and adds the same amounts up. Where the integers are in range and `SUM` adds up as
the in-memory store does, that store as it is answers the same exactly as long as no write is
refused. -/
theorem tables_agree (order : OrderedOn fun x : F => x ≤ x) {retain : Bool} {q : SqliteTables F}
    {log : List (TableCall F × Except StoreError (TableReply F))}
    (run : (SqliteTables.new retain).Runs sqlSum log q) (typed : ∀ x ∈ log, x.1.Typed) :
    AnsweredAlike sqlSum (MemoryTables.new retain) log ∧
    ((∀ x ∈ log, x.1.clamp = x.1) →
      SumsAlike sqlSum (MemoryTables.new retain) (log.map Prod.fst) →
      (answersOf MemoryTables.perform (MemoryTables.new retain) (log.map Prod.fst) =
          log.map Prod.snd ↔
        Accepted (MemoryTables.new retain) (log.map Prod.fst))) := by
  have same := (mirror_new retain).runs order run typed
  exact ⟨same, fun inRange sums => accepted_iff inRange sums same⟩

theorem SqliteTables.Answers.of_putSynapse {q q' : SqliteTables F} {record : SynapseRecord F}
    {r : Except StoreError Unit} (written : q.putSynapse record = (r, q')) :
    q.Answers sqlSum (.putSynapse record) (r.map fun _ => .done) q' := by
  have answers : q.Answers sqlSum _ _ _ := .putSynapse record
  rw [written] at answers
  exact answers

section Sample

theorem addsUp_sum [ExactScalar F] (amounts : List F) : AddsUp Scalar.sum amounts := by
  intro ys perm
  apply ExactScalar.toReal_injective
  have total : SqliteTables.sqlTotal Scalar.sum ys = Scalar.sum ys := by
    cases ys with
    | nil => rfl
    | cons => rfl
  rw [total, ExactScalar.toReal_sum, ExactScalar.toReal_sum]
  exact (perm.map _).sum_eq

def parallelSynapse (id : String) : SynapseRecord ℚ where
  id := ⟨id⟩
  peer := ⟨[7]⟩
  weight := 1 / 2
  state := .active
  typeAffinity := ∅
  establishedAtNs := 1
  lastActiveNs := 2
  signalsTransmitted := 0
  signalsReceived := 0
  avgLatencyNs := 0
  errorRate := 0
  attenuationFactor := 1
  signatureFailures := 0
  failureWindowStartNs := 0

def parallelWrites : List (TableCall ℚ × Except StoreError (TableReply ℚ)) := [
  (.recordInfluence ⟨[7]⟩ (1 / 4) 1 0, .ok (.total (1 / 4))),
  (.recordInfluence ⟨[7]⟩ (1 / 2) 2 0, .ok (.total (3 / 4))),
  (.putSynapse (parallelSynapse "a"), .ok .done),
  (.putSynapse (parallelSynapse "b"), .error peerTaken),
  (.getSynapse ⟨"b"⟩, .ok (.synapse none))]

def quarterCharged : SqliteTables ℚ :=
  { (SqliteTables.new false : SqliteTables ℚ) with influence := [⟨⟨[7]⟩, 1 / 4, 1⟩] }

def bothCharged : SqliteTables ℚ :=
  { quarterCharged with influence := [⟨⟨[7]⟩, 1 / 4, 1⟩, ⟨⟨[7]⟩, 1 / 2, 2⟩] }

def firstSynapse : SqliteTables ℚ :=
  { bothCharged with
    synapses := bothCharged.synapses.insert ⟨"a"⟩ (synapseRow (parallelSynapse "a")) }

theorem parallel_bound (id : String) : firstNull (synapseNumbers (parallelSynapse id)) = none := by
  simp [firstNull, synapseNumbers, isNull]

theorem charges_run : (SqliteTables.new false).Answers (Scalar.sum (F := ℚ))
      (.recordInfluence ⟨[7]⟩ (1 / 4) 1 0) (.ok (.total (1 / 4))) quarterCharged ∧
    quarterCharged.Answers (Scalar.sum (F := ℚ))
      (.recordInfluence ⟨[7]⟩ (1 / 2) 2 0) (.ok (.total (3 / 4))) bothCharged := by
  have bound : ∀ x : ℚ, firstNull (influenceNumbers x) = none := by
    intro x
    simp [firstNull, influenceNumbers, isNull]
  have quarter : Scalar.abs (1 / 4 : ℚ) = 1 / 4 := by decide +kernel
  have half : Scalar.abs (1 / 2 : ℚ) = 1 / 2 := by decide +kernel
  constructor
  · have answers : (SqliteTables.new (F := ℚ) false).Answers Scalar.sum
        (.recordInfluence ⟨[7]⟩ (1 / 4) 1 0) (.ok (.total (1 / 4))) _ :=
      .recordInfluence (bound _) ⟨[1 / 4], by rw [quarter]; exact .refl _, by decide +kernel⟩
    rw [quarter] at answers
    exact answers
  · have answers : quarterCharged.Answers Scalar.sum
        (.recordInfluence ⟨[7]⟩ (1 / 2) 2 0) (.ok (.total (3 / 4))) _ :=
      .recordInfluence (bound _) ⟨[1 / 4, 1 / 2], by rw [half]; exact .refl _, by decide +kernel⟩
    rw [half] at answers
    exact answers

theorem parallel_runs : (SqliteTables.new false).Runs Scalar.sum parallelWrites firstSynapse := by
  have accepts : bothCharged.putSynapse (parallelSynapse "a") = (.ok (), firstSynapse) := by
    simp only [SqliteTables.putSynapse, parallel_bound]
    rfl
  have refuses : firstSynapse.putSynapse (parallelSynapse "b") =
      (.error peerTaken, firstSynapse) := by
    simp only [SqliteTables.putSynapse, parallel_bound]
    rfl
  have third : firstSynapse.Answers Scalar.sum (.getSynapse ⟨"b"⟩) (.ok (.synapse none))
      firstSynapse := .getSynapse ⟨"b"⟩
  exact .call charges_run.1 (.call charges_run.2 (.call (.of_putSynapse accepts)
    (.call (.of_putSynapse refuses) (.call third (.done firstSynapse)))))

/-- Both stores come to the same totals, but the in-memory store keeps both synapses. -/
theorem parallel_writes_disagree :
    answersOf MemoryTables.perform (MemoryTables.new false) (parallelWrites.map Prod.fst) ≠
      parallelWrites.map Prod.snd := by
  have order : OrderedOn fun x : ℚ => x ≤ x := {
    le_trans := fun _ _ _ => le_trans
    le_total := fun _ _ => le_total _ _
    lt_iff := fun _ _ => lt_iff_not_ge }
  have typed : ∀ x ∈ parallelWrites, x.1.Typed := by
    simp [parallelWrites, TableCall.Typed, parallelSynapse]
  have inRange : ∀ x ∈ parallelWrites, x.1.clamp = x.1 := by
    simp [parallelWrites, TableCall.clamp, SynapseRecord.clamp, parallelSynapse, clampNs_eq, i64Max]
  have sums : SumsAlike Scalar.sum (MemoryTables.new false) (parallelWrites.map Prod.fst) :=
    ⟨addsUp_sum _, addsUp_sum _, addsUp_sum _, addsUp_sum _, addsUp_sum _, trivial⟩
  have exactly := (tables_agree order parallel_runs typed).2 inRange sums
  intro same
  have accepted := exactly.mp same
  have fourth : refused (F := ℚ) _ _ = none := accepted.2.2.2.1
  have taken : ∀ m : MemoryTables ℚ, refused (m.putSynapse (parallelSynapse "a"))
      (.putSynapse (parallelSynapse "b")) = some peerTaken := by
    intro m
    simp only [refused, parallel_bound]
    rfl
  exact absurd ((taken _).symm.trans fourth) (by simp)

end Sample
end OpenNtl
