import OpenNtl.Provenance

/-! # The other tables of a node, on both stores

Synapses, peers, the activation snapshot, influence, metadata and signal history. The journal and
the deduplication cache are modelled apart.
-/
namespace OpenNtl

open SqlTable

variable {F : Type}

structure MemoryTables (F : Type) extends MemoryStore F where
  metadata : HashMap String Bytes
  history : HashMap SignalId Bytes
  retainHistory : Bool

def historyDisabled : StoreError := .unsupported "signal history"

namespace MemoryTables

def new (retainHistory : Bool) : MemoryTables F where
  toMemoryStore := MemoryStore.new
  metadata := ∅
  history := ∅
  retainHistory := retainHistory

def putSynapse (s : MemoryTables F) (record : SynapseRecord F) : MemoryTables F :=
  { s with toMemoryStore := s.toMemoryStore.putSynapse record }

def deleteSynapse (s : MemoryTables F) (id : SynapseId) : MemoryTables F :=
  { s with synapses := s.synapses.erase id }

def putPeer (s : MemoryTables F) (record : PeerRecord) : MemoryTables F :=
  { s with toMemoryStore := s.toMemoryStore.putPeer record }

def getPeer (s : MemoryTables F) (id : NodeId) : Option PeerRecord := s.peers.lookup id

def peerCmp (a b : PeerRecord) : Ordering :=
  (compare b.lastSeenNs a.lastSeenNs).then (compare a.id.bytes b.id.bytes)

def inRegion (region : Option String) (p : PeerRecord) : Bool :=
  region.all fun want => p.region = some want

def listPeers (s : MemoryTables F) (region : Option String) (limit : ℕ) : List PeerRecord :=
  (sortBy peerCmp (s.peers.values.filter (inRegion region))).take limit

def countPeers (s : MemoryTables F) (source : PeerSource) : ℕ :=
  s.peers.values.countP fun p => p.source = source

def saveActivation (s : MemoryTables F) (snapshot : ActivationSnapshot F) : MemoryTables F :=
  { s with toMemoryStore := s.toMemoryStore.saveActivation snapshot }

def loadActivation (s : MemoryTables F) : Option (ActivationSnapshot F) := s.activation

def purgeInfluence (s : MemoryTables F) (olderThanNs : ℕ) : ℕ × MemoryTables F :=
  let kept := s.influence.filter fun i => decide (olderThanNs ≤ i.atNs)
  (s.influence.length - kept.length, { s with influence := kept })

def putMeta (s : MemoryTables F) (key : String) (value : Bytes) : MemoryTables F :=
  { s with metadata := s.metadata.insert key value }

def getMeta (s : MemoryTables F) (key : String) : Option Bytes := s.metadata.lookup key

def putSignalHistory (s : MemoryTables F) (id : SignalId) (body : Bytes) :
    Except StoreError Unit × MemoryTables F :=
  if s.retainHistory then (.ok (), { s with history := s.history.insert id body })
  else (.error historyDisabled, s)

def getSignalHistory (s : MemoryTables F) (id : SignalId) : Except StoreError (Option Bytes) :=
  if s.retainHistory then .ok (s.history.lookup id) else .error historyDisabled

end MemoryTables

def rowToPeer (row : PeerRow) : Except StoreError PeerRecord := do
  let source ← sourceFromStr row.source
  return {
    id := row.id
    addresses := row.addresses
    region := row.region
    advertisedTypes := row.advertisedTypes
    lastSeenNs := fromI64 row.lastSeenNs
    source := source }

structure ActivationRow (F : Type) where
  potential : F
  threshold : F
  refractoryUntilNs : ℤ
  signalsFired : ℤ
  takenAtNs : ℤ

def activationRow (snapshot : ActivationSnapshot F) : ActivationRow F where
  potential := snapshot.potential
  threshold := snapshot.threshold
  refractoryUntilNs := toI64 snapshot.refractoryUntilNs
  signalsFired := toI64 snapshot.signalsFired
  takenAtNs := toI64 snapshot.takenAtNs

def rowToActivation (row : ActivationRow F) : ActivationSnapshot F where
  potential := row.potential
  threshold := row.threshold
  refractoryUntilNs := fromI64 row.refractoryUntilNs
  signalsFired := fromI64 row.signalsFired
  takenAtNs := fromI64 row.takenAtNs

def influenceRow (i : Influence F) : InfluenceRow F := ⟨i.peer, i.magnitude, toI64 i.atNs⟩

structure SqliteTables (F : Type) where
  synapses : HashMap SynapseId (SynapseRow F)
  peers : HashMap NodeId PeerRow
  activation : Option (ActivationRow F)
  influence : List (InfluenceRow F)
  metadata : HashMap String Bytes
  /-- `signal_history`: identifier to `body` and `added_ns`. -/
  history : HashMap SignalId (Bytes × ℤ)
  retainHistory : Bool

section Numbers

variable [Scalar F]

def synapseNumbers (r : SynapseRecord F) : List (String × F) := [
  ("synapses.weight", r.weight),
  ("synapses.attenuation_factor", r.attenuationFactor),
  ("synapses.error_rate", r.errorRate)]

def activationNumbers (snapshot : ActivationSnapshot F) : List (String × F) := [
  ("activation.potential", snapshot.potential),
  ("activation.threshold", snapshot.threshold)]

def influenceNumbers (magnitude : F) : List (String × F) :=
  [("influence.magnitude", Scalar.abs magnitude)]

end Numbers

namespace SqliteTables

def new (retainHistory : Bool) : SqliteTables F where
  synapses := ∅
  peers := ∅
  activation := none
  influence := []
  metadata := ∅
  history := ∅
  retainHistory := retainHistory

section Writes

variable [Scalar F]

def putSynapse (s : SqliteTables F) (r : SynapseRecord F) :
    Except StoreError Unit × SqliteTables F :=
  match firstNull (synapseNumbers r) with
  | some e => (.error e, s)
  | none =>
    match writeSynapse s.synapses r with
    | .ok synapses => (.ok (), { s with synapses := synapses })
    | .error e => (.error e, s)

omit [Scalar F] in
def deleteSynapse (s : SqliteTables F) (id : SynapseId) : SqliteTables F :=
  { s with synapses := s.synapses.erase id }

omit [Scalar F] in
def putPeer (s : SqliteTables F) (r : PeerRecord) : SqliteTables F :=
  { s with peers := s.peers.insert r.id (peerRow r) }

def saveActivation (s : SqliteTables F) (snapshot : ActivationSnapshot F) :
    Except StoreError Unit × SqliteTables F :=
  match firstNull (activationNumbers snapshot) with
  | some e => (.error e, s)
  | none => (.ok (), { s with activation := some (activationRow snapshot) })

omit [Scalar F] in
def purgeInfluence (s : SqliteTables F) (olderThanNs : ℕ) : ℕ × SqliteTables F :=
  let (removed, kept) := deleteWhere s.influence fun i => decide (i.atNs < toI64 olderThanNs)
  (removed, { s with influence := kept })

omit [Scalar F] in
def putMeta (s : SqliteTables F) (key : String) (value : Bytes) : SqliteTables F :=
  { s with metadata := s.metadata.insert key value }

omit [Scalar F] in
def putSignalHistory (s : SqliteTables F) (id : SignalId) (body : Bytes) (nowNs : ℕ) :
    Except StoreError Unit × SqliteTables F :=
  if s.retainHistory then (.ok (), { s with history := s.history.insert id (body, toI64 nowNs) })
  else (.error historyDisabled, s)

end Writes

section Queries

def getSynapse (s : SqliteTables F) (id : SynapseId) :
    Except StoreError (Option (SynapseRecord F)) := (s.synapses.lookup id).mapM rowToSynapse

def SynapseForPeer (s : SqliteTables F) (peer : NodeId)
    (answer : Except StoreError (Option (SynapseRecord F))) : Prop :=
  ∃ rows, SqlTable.Selects s.synapses.values (fun r => decide (r.peer = peer))
      (fun _ _ => False) 1 rows ∧
    answer = rows.head?.mapM rowToSynapse

def filterRow [Scalar F] (filter : SynapseFilter F) (r : SynapseRow F) : Bool :=
  (filter.states.isEmpty || (filter.states.map stateToStr).contains r.state) &&
    (filter.minWeight.all fun least => decide (least ≤ r.weight)) &&
    filter.lastActiveBeforeNs.all fun before => decide (r.lastActiveNs < toI64 before)

/-- What `list_synapses` may answer: without a `LIMIT`, all that match. -/
def ListSynapses [Scalar F] (s : SqliteTables F) (filter : SynapseFilter F)
    (answer : Except StoreError (List (SynapseRecord F))) : Prop :=
  ∃ rows, SqlTable.Selects s.synapses.values (filterRow filter)
      (fun a b => SqliteNode.rowCmp a b = .lt)
      (filter.limit.elim s.synapses.values.length fun limit => (toI64 limit).toNat) rows ∧
    answer = rows.mapM rowToSynapse

def getPeer (s : SqliteTables F) (id : NodeId) : Except StoreError (Option PeerRecord) :=
  (s.peers.lookup id).mapM rowToPeer

def peerRowCmp (a b : PeerRow) : Ordering :=
  (compare b.lastSeenNs a.lastSeenNs).then (compare a.id.bytes b.id.bytes)

def ListPeers (s : SqliteTables F) (region : Option String) (limit : ℕ)
    (answer : Except StoreError (List PeerRecord)) : Prop :=
  ∃ rows, SqlTable.Selects s.peers.values (fun p => region.all fun want => p.region = some want)
      (fun a b => peerRowCmp a b = .lt) (toI64 limit).toNat rows ∧
    answer = rows.mapM rowToPeer

def countPeers (s : SqliteTables F) (source : PeerSource) : ℕ :=
  fromI64 (s.peers.values.countP fun p => p.source = sourceToStr source : ℕ)

def loadActivation (s : SqliteTables F) : Option (ActivationSnapshot F) :=
  s.activation.map rowToActivation

/-- `SUM(magnitude)` over the selected rows, which is `NULL` where there are none, and the
`unwrap_or(0.0)` of its readers. -/
def sqlTotal [Scalar F] (sqlSum : List F → F) : List F → F
  | [] => 0
  | magnitudes => sqlSum magnitudes

/-- What `influence_since` may answer: `SUM` takes the rows in any order. -/
def InfluenceSince [Scalar F] (s : SqliteTables F) (sqlSum : List F → F) (peer : NodeId)
    (windowStartNs : ℕ) (total : F) : Prop :=
  ∃ magnitudes, List.Perm magnitudes ((s.influence.filter fun i =>
      i.peer = peer && decide (toI64 windowStartNs ≤ i.atNs)).map InfluenceRow.magnitude) ∧
    total = sqlTotal sqlSum magnitudes

def getMeta (s : SqliteTables F) (key : String) : Option Bytes := s.metadata.lookup key

def getSignalHistory (s : SqliteTables F) (id : SignalId) : Except StoreError (Option Bytes) :=
  if s.retainHistory then .ok ((s.history.lookup id).map Prod.fst) else .error historyDisabled

end Queries

end SqliteTables

inductive TableCall (F : Type) where
  | putSynapse (record : SynapseRecord F)
  | getSynapse (id : SynapseId)
  | synapseForPeer (peer : NodeId)
  | listSynapses (filter : SynapseFilter F)
  | deleteSynapse (id : SynapseId)
  | putPeer (record : PeerRecord)
  | getPeer (id : NodeId)
  | listPeers (region : Option String) (limit : ℕ)
  | countPeers (source : PeerSource)
  | saveActivation (snapshot : ActivationSnapshot F)
  | loadActivation
  | recordInfluence (peer : NodeId) (magnitude : F) (nowNs windowStartNs : ℕ)
  | influenceSince (peer : NodeId) (windowStartNs : ℕ)
  | purgeInfluence (olderThanNs : ℕ)
  | putMeta (key : String) (value : Bytes)
  | getMeta (key : String)
  | putSignalHistory (id : SignalId) (body : Bytes) (nowNs : ℕ)
  | getSignalHistory (id : SignalId)

inductive TableReply (F : Type) where
  | done
  | synapse (r : Option (SynapseRecord F))
  | synapses (rs : List (SynapseRecord F))
  | peer (p : Option PeerRecord)
  | peers (ps : List PeerRecord)
  | count (n : ℕ)
  | activation (snapshot : Option (ActivationSnapshot F))
  | total (x : F)
  | value (bytes : Option Bytes)

variable [Scalar F]

def MemoryTables.perform (s : MemoryTables F) :
    TableCall F → Except StoreError (TableReply F) × MemoryTables F
  | .putSynapse record => (.ok .done, s.putSynapse record)
  | .getSynapse id => (.ok (.synapse (s.getSynapse id)), s)
  | .synapseForPeer peer => (.ok (.synapse (s.synapseForPeer peer)), s)
  | .listSynapses filter => (.ok (.synapses (s.listSynapses filter)), s)
  | .deleteSynapse id => (.ok .done, s.deleteSynapse id)
  | .putPeer record => (.ok .done, s.putPeer record)
  | .getPeer id => (.ok (.peer (s.getPeer id)), s)
  | .listPeers region limit => (.ok (.peers (s.listPeers region limit)), s)
  | .countPeers source => (.ok (.count (s.countPeers source)), s)
  | .saveActivation snapshot => (.ok .done, s.saveActivation snapshot)
  | .loadActivation => (.ok (.activation s.loadActivation), s)
  | .recordInfluence peer magnitude nowNs windowStartNs =>
    let (total, store) := s.toMemoryStore.recordInfluence peer magnitude nowNs windowStartNs
    (.ok (.total total), { s with toMemoryStore := store })
  | .influenceSince peer windowStartNs => (.ok (.total (s.influenceSince peer windowStartNs)), s)
  | .purgeInfluence olderThanNs =>
    (.ok (.count (s.purgeInfluence olderThanNs).1), (s.purgeInfluence olderThanNs).2)
  | .putMeta key value => (.ok .done, s.putMeta key value)
  | .getMeta key => (.ok (.value (s.getMeta key)), s)
  | .putSignalHistory id body _ =>
    ((s.putSignalHistory id body).1.map fun _ => .done, (s.putSignalHistory id body).2)
  | .getSignalHistory id => ((s.getSignalHistory id).map .value, s)

/-- What a call may answer over SQLite, and the tables it leaves. -/
inductive SqliteTables.Answers (q : SqliteTables F) (sqlSum : List F → F) :
    TableCall F → Except StoreError (TableReply F) → SqliteTables F → Prop
  | putSynapse (record : SynapseRecord F) :
      Answers q sqlSum (.putSynapse record) ((q.putSynapse record).1.map fun _ => .done)
        (q.putSynapse record).2
  | getSynapse (id : SynapseId) :
      Answers q sqlSum (.getSynapse id) ((q.getSynapse id).map .synapse) q
  | synapseForPeer {peer : NodeId} {answer : Except StoreError (Option (SynapseRecord F))}
      (allowed : q.SynapseForPeer peer answer) :
      Answers q sqlSum (.synapseForPeer peer) (answer.map .synapse) q
  | listSynapses {filter : SynapseFilter F} {answer : Except StoreError (List (SynapseRecord F))}
      (allowed : q.ListSynapses filter answer) :
      Answers q sqlSum (.listSynapses filter) (answer.map .synapses) q
  | deleteSynapse (id : SynapseId) :
      Answers q sqlSum (.deleteSynapse id) (.ok .done) (q.deleteSynapse id)
  | putPeer (record : PeerRecord) :
      Answers q sqlSum (.putPeer record) (.ok .done) (q.putPeer record)
  | getPeer (id : NodeId) : Answers q sqlSum (.getPeer id) ((q.getPeer id).map .peer) q
  | listPeers {region : Option String} {limit : ℕ} {answer : Except StoreError (List PeerRecord)}
      (allowed : q.ListPeers region limit answer) :
      Answers q sqlSum (.listPeers region limit) (answer.map .peers) q
  | countPeers (source : PeerSource) :
      Answers q sqlSum (.countPeers source) (.ok (.count (q.countPeers source))) q
  | saveActivation (snapshot : ActivationSnapshot F) :
      Answers q sqlSum (.saveActivation snapshot) ((q.saveActivation snapshot).1.map fun _ => .done)
        (q.saveActivation snapshot).2
  | loadActivation : Answers q sqlSum .loadActivation (.ok (.activation q.loadActivation)) q
  | influenceRefused {peer : NodeId} {magnitude : F} {nowNs windowStartNs : ℕ} {e : StoreError}
      (null : firstNull (influenceNumbers magnitude) = some e) :
      Answers q sqlSum (.recordInfluence peer magnitude nowNs windowStartNs) (.error e) q
  | recordInfluence {peer : NodeId} {magnitude : F} {nowNs windowStartNs : ℕ} {total : F}
      (bound : firstNull (influenceNumbers magnitude) = none)
      (allowed : ({ q with influence := q.influence ++
        [⟨peer, Scalar.abs magnitude, toI64 nowNs⟩] } : SqliteTables F).InfluenceSince
          sqlSum peer windowStartNs total) :
      Answers q sqlSum (.recordInfluence peer magnitude nowNs windowStartNs) (.ok (.total total))
        { q with influence := q.influence ++ [⟨peer, Scalar.abs magnitude, toI64 nowNs⟩] }
  | influenceSince {peer : NodeId} {windowStartNs : ℕ} {total : F}
      (allowed : q.InfluenceSince sqlSum peer windowStartNs total) :
      Answers q sqlSum (.influenceSince peer windowStartNs) (.ok (.total total)) q
  | purgeInfluence (olderThanNs : ℕ) :
      Answers q sqlSum (.purgeInfluence olderThanNs) (.ok (.count (q.purgeInfluence olderThanNs).1))
        (q.purgeInfluence olderThanNs).2
  | putMeta (key : String) (value : Bytes) :
      Answers q sqlSum (.putMeta key value) (.ok .done) (q.putMeta key value)
  | getMeta (key : String) : Answers q sqlSum (.getMeta key) (.ok (.value (q.getMeta key))) q
  | putSignalHistory (id : SignalId) (body : Bytes) (nowNs : ℕ) :
      Answers q sqlSum (.putSignalHistory id body nowNs)
        ((q.putSignalHistory id body nowNs).1.map fun _ => .done)
        (q.putSignalHistory id body nowNs).2
  | getSignalHistory (id : SignalId) :
      Answers q sqlSum (.getSignalHistory id) ((q.getSignalHistory id).map .value) q

end OpenNtl
