import OpenNtl.OneSynapse

/-! # One synapse for each peer, in both stores -/
namespace OpenNtl

open AtomicProgram SqlTable

variable {F : Type}

/-- No call fails, and records are stored under their own identifiers. -/
def MemoryInOrder (s : NodeState F) : Prop := s.faults = [] ∧ Filed s.store

def memoryOwner (s : NodeState F) : Owners := fun id =>
  (s.store.getSynapse id).map SynapseRecord.peer

theorem memoryOwner_put (s : NodeState F) (r : SynapseRecord F) :
    memoryOwner { s with store := s.store.putSynapse r } =
      Function.update (memoryOwner s) r.id (some r.peer) := by
  funext id
  unfold memoryOwner
  by_cases same : id = r.id
  · subst id
    rw [Function.update_self, MemoryStore.getSynapse_put_same]
    rfl
  · rw [Function.update_of_ne same, MemoryStore.getSynapse_put_other same]

theorem memoryOwner_congr {s s' : NodeState F} (same : s'.store.synapses = s.store.synapses) :
    memoryOwner s' = memoryOwner s := by
  funext id
  unfold memoryOwner
  rw [MemoryStore.getSynapse_congr same]

variable [Scalar F]

omit [Scalar F] in
theorem memoryCall_ok {α : Type} {s : NodeState F} (none : s.faults = [])
    (op : MemoryStore F → α × MemoryStore F) :
    memoryCall op s = (.ok (op s.store).1, { s with store := (op s.store).2 }) := by
  have fault : NodeM.nextFault s = .none := by simp [NodeM.nextFault, none]
  unfold memoryCall
  rw [fault, none]
  simp only [List.tail_nil]

omit [Scalar F] in
theorem memoryCall_up {α : Type} {s : NodeState F} (hs : MemoryInOrder s)
    (op : MemoryStore F → α × MemoryStore F) :
    memoryCall op s = (.ok (op s.store).1, { s with store := (op s.store).2 }) :=
  memoryCall_ok hs.1 op

theorem memory_lawful : (memoryBackend (F := F)).Lawful MemoryInOrder memoryOwner where
  now s hs := ⟨hs, rfl⟩
  draw f s hs := ⟨⟨hs, rfl⟩, s.rng, rfl⟩
  find peer s hs := by
    have call : memoryBackend.synapseForPeer peer s = (.ok (s.store.synapseForPeer peer), s) :=
      memoryCall_up hs _
    rw [call]
    refine ⟨rfl, _, rfl, fun r hr => ?_, fun missing id owned => ?_⟩
    · obtain ⟨listed, reached⟩ := MemoryStore.synapseForPeer_some hr
      refine ⟨reached, r.id, ?_⟩
      have read : memoryBackend.getSynapse r.id s = (.ok (s.store.getSynapse r.id), s) :=
        memoryCall_up hs _
      rw [read, hs.2.find listed]
    · obtain ⟨r, found, reached⟩ := Option.map_eq_some_iff.mp owned
      exact MemoryStore.synapseForPeer_none missing found reached
  get id s hs := by
    have call : memoryBackend.getSynapse id s = (.ok (s.store.getSynapse id), s) :=
      memoryCall_up hs _
    rw [call]
    refine ⟨rfl, _, rfl, fun r hr => ⟨hs.2 id r hr, ?_⟩, fun missing => ?_⟩
    · unfold memoryOwner
      rw [Option.mem_def.mp hr]
      rfl
    · unfold memoryOwner
      rw [missing]
      rfl
  list s hs := by
    have call : memoryBackend.listSynapses s = (.ok (s.store.listSynapses {}), s) :=
      memoryCall_up hs _
    rw [call]
    refine ⟨rfl, _, rfl, fun r hr => ⟨r.id, ?_⟩⟩
    have read : memoryBackend.getSynapse r.id s = (.ok (s.store.getSynapse r.id), s) :=
      memoryCall_up hs _
    rw [read, hs.2.find (mem_sortBy.mp hr |> List.mem_of_mem_filter)]
  put r s hs := by
    have call : memoryBackend.putSynapse r s =
        (.ok (), { s with store := s.store.putSynapse r }) :=
      memoryCall_up hs fun st => ((), st.putSynapse r)
    rw [call]
    exact ⟨⟨hs.1, hs.2.put r⟩, Or.inl ⟨rfl, memoryOwner_put s r⟩⟩
  form := rfl
  peer r s hs := by
    have call : memoryBackend.putPeer r s = (.ok (), { s with store := s.store.putPeer r }) :=
      memoryCall_up hs fun st => ((), st.putPeer r)
    rw [call]
    exact ⟨⟨hs.1, hs.2.of_same rfl⟩, memoryOwner_congr rfl, rfl⟩
  used peer start s hs := by
    show (memoryCall _ s).2 = s
    rw [memoryCall_up hs]
  charge peer magnitude now start s hs := by
    show MemoryInOrder (memoryCall _ s).2 ∧ memoryOwner (memoryCall _ s).2 = _
    rw [memoryCall_up hs]
    exact ⟨⟨hs.1, hs.2.of_same rfl⟩, memoryOwner_congr rfl⟩

/-- Every row was written by `put_synapse`, under its own identifier. -/
def SqliteInOrder (s : SqliteNode F) : Prop :=
  ∀ id row, s.synapses.lookup id = some row → row.id = id.text ∧ ∃ r, row = synapseRow r

def sqliteOwner (s : SqliteNode F) : Owners := fun id =>
  (s.synapses.lookup id).map SynapseRow.peer

section Rows

omit [Scalar F]

variable {s : SqliteNode F}

theorem SqliteInOrder.read (hs : SqliteInOrder s) {id : SynapseId} {row : SynapseRow F}
    (here : s.synapses.lookup id = some row) :
    ∃ r, rowToSynapse row = .ok r ∧ r.id = id ∧ r.peer = row.peer ∧
      SqliteNode.getSynapse r.id s = (.ok (some r), s) := by
  obtain ⟨named, x, rfl⟩ := hs id row here
  obtain ⟨r, read, kept, peer⟩ := rowToSynapse_synapseRow x
  have same : r.id = id := by
    rw [kept]
    exact congrArg SynapseId.mk named
  refine ⟨r, read, same, peer, ?_⟩
  unfold SqliteNode.getSynapse
  rw [same, here]
  show (Option.mapM rowToSynapse (some (synapseRow x)), s) = _
  simp only [Option.mapM_some, read]
  rfl

theorem lookup_of_mem_rows {row : SynapseRow F} (listed : row ∈ s.synapses.values) :
    ∃ id, s.synapses.lookup id = some row := by
  obtain ⟨⟨id, x⟩, entry, rfl⟩ := List.mem_map.mp listed
  exact ⟨id, AList.mem_lookup_iff.mpr entry⟩

theorem rows_read {rows : List (SynapseRow F)} {P : SynapseRecord F → Prop}
    (each : ∀ row ∈ rows, ∃ r, rowToSynapse row = .ok r ∧ P r) :
    ∃ rs, rows.mapM rowToSynapse = .ok rs ∧ ∀ r ∈ rs, P r := by
  induction rows with
  | nil => exact ⟨[], rfl, fun r hr => by cases hr⟩
  | cons row rows ih =>
    obtain ⟨r, read, holds⟩ := each row List.mem_cons_self
    obtain ⟨rs, others, all⟩ := ih fun x hx => each x (List.mem_cons_of_mem _ hx)
    refine ⟨r :: rs, ?_, fun x hx => ?_⟩
    · rw [List.mapM_cons, read, others]
      rfl
    · rcases List.mem_cons.mp hx with rfl | hx
      · exact holds
      · exact all x hx

theorem SqliteInOrder.put (hs : SqliteInOrder s) (r : SynapseRecord F) :
    SqliteInOrder { s with synapses := s.synapses.insert r.id (synapseRow r) } := by
  intro id row here
  by_cases same : id = r.id
  · subst id
    rw [AList.lookup_insert] at here
    obtain rfl := Option.some.inj here
    exact ⟨rfl, r, rfl⟩
  · rw [AList.lookup_insert_ne same] at here
    exact hs id row here

theorem sqliteOwner_put (s : SqliteNode F) (r : SynapseRecord F) :
    sqliteOwner { s with synapses := s.synapses.insert r.id (synapseRow r) } =
      Function.update (sqliteOwner s) r.id (some r.peer) := by
  funext id
  unfold sqliteOwner
  by_cases same : id = r.id
  · subst id
    rw [Function.update_self, AList.lookup_insert]
    rfl
  · rw [Function.update_of_ne same, AList.lookup_insert_ne same]

end Rows

theorem sqlite_lawful : (sqliteBackend (F := F)).Lawful SqliteInOrder sqliteOwner where
  now s hs := ⟨hs, rfl⟩
  draw f s hs := ⟨⟨hs, rfl⟩, s.rng, rfl⟩
  find peer s hs := by
    refine ⟨rfl, ?_⟩
    show ∃ found, (s.synapses.values.find? fun row => row.peer = peer).mapM rowToSynapse = .ok found ∧
      _
    cases hit : s.synapses.values.find? fun row => row.peer = peer with
    | none =>
      refine ⟨none, rfl, ⟨fun r hr => ?_, fun _ id owned => ?_⟩⟩
      · cases hr
      obtain ⟨row, here, reached⟩ := Option.map_eq_some_iff.mp owned
      have listed : row ∈ s.synapses.values := List.mem_map_of_mem (AList.mem_lookup_iff.mp here)
      exact absurd reached (by simpa using List.find?_eq_none.mp hit row listed)
    | some row =>
      obtain ⟨id, here⟩ := lookup_of_mem_rows (List.mem_of_find?_eq_some hit)
      obtain ⟨r, read, -, reached, stored⟩ := hs.read here
      refine ⟨some r, by simp only [Option.mapM_some, read]; rfl, fun x hx => ?_, fun none => ?_⟩
      · obtain rfl := Option.some.inj hx
        refine ⟨?_, r.id, congrArg Prod.fst stored⟩
        rw [reached]
        simpa using List.find?_some hit
      · cases none
  get id s hs := by
    refine ⟨rfl, ?_⟩
    show ∃ found, (s.synapses.lookup id).mapM rowToSynapse = .ok found ∧ _
    unfold sqliteOwner
    cases here : s.synapses.lookup id with
    | none =>
      refine ⟨none, rfl, ⟨fun r hr => ?_, fun _ => rfl⟩⟩
      cases hr
    | some row =>
      obtain ⟨r, read, same, reached, -⟩ := hs.read here
      refine ⟨some r, by simp only [Option.mapM_some, read]; rfl, fun x hx => ?_, fun none => ?_⟩
      · obtain rfl := Option.some.inj hx
        refine ⟨same, ?_⟩
        rw [reached]
        rfl
      · cases none
  list s hs := by
    refine ⟨rfl, rows_read fun row hrow => ?_⟩
    obtain ⟨id, here⟩ := lookup_of_mem_rows (mem_sortBy.mp hrow)
    obtain ⟨r, read, -, -, stored⟩ := hs.read here
    exact ⟨r, read, r.id, congrArg Prod.fst stored⟩
  put r s hs := by
    rcases SqliteNode.putSynapse_cases r s with
      ⟨written, -⟩ | ⟨refused, id, row, other, here, reached⟩
    · have call : sqliteBackend.putSynapse r s = _ := written
      rw [call]
      exact ⟨hs.put r, Or.inl ⟨rfl, sqliteOwner_put s r⟩⟩
    · have call : sqliteBackend.putSynapse r s = _ := refused
      rw [call]
      refine ⟨hs, Or.inr ⟨⟨_, rfl⟩, rfl, id, other, ?_⟩⟩
      unfold sqliteOwner
      rw [here]
      exact congrArg some reached
  form := rfl
  peer r s hs := ⟨hs, rfl, rfl⟩
  used _ _ _ _ := rfl
  charge _ _ _ _ _ hs := ⟨hs, rfl⟩

/-- In both stores, if no two upserts form a synapse for one peer at a time and no identifier in
use is given to another peer, a peer has one record at most, a lookup finds it, and every upsert
that the cooldown does not refuse returns it. -/
theorem one_synapse_per_peer (node : Node F) {ι : Type} [DecidableEq ι] :
    (∀ start P : Pool ι (SynapseWorld (NodeState F) F) NodeError Unit,
      SynapseRun node memoryBackend MemoryInOrder memoryOwner start P →
        OneSynapseEach memoryBackend P.state) ∧
    ∀ start P : Pool ι (SynapseWorld (SqliteNode F) F) NodeError Unit,
      SynapseRun node sqliteBackend SqliteInOrder sqliteOwner start P →
        OneSynapseEach sqliteBackend P.state :=
  ⟨fun _ _ run => run.oneSynapseEach memory_lawful, fun _ _ run => run.oneSynapseEach sqlite_lawful⟩

/-! Two handshakes of one peer that finish at once, and one after the other. -/

section Race

variable {σ : Type}

def unasked (s : σ) : Pool (Fin 2) (SynapseWorld σ ℚ) NodeError Unit :=
  ⟨fun _ => .pure (), ⟨s, [], []⟩⟩

def handshakes (B : SynapseBackend σ ℚ) (s : σ) : Pool (Fin 2) (SynapseWorld σ ℚ) NodeError Unit :=
  ((unasked s).begin 0 (edgeNode.synapseProgram B (.upsert neighbour))).begin 1
    (edgeNode.synapseProgram B (.upsert neighbour))

/-- Both look the peer up, the second a little later, and then each writes. -/
def race (B : SynapseBackend σ ℚ) (s : σ) (later : σ → σ) :
    Option (Pool (Fin 2) (SynapseWorld σ ℚ) NodeError Unit) := do
  let looked ← (handshakes B s).follow (fun _ _ => true) [0, 0]
  Pool.follow (fun _ _ => true)
    ⟨looked.task, { looked.state with node := later looked.state.node }⟩
    [1, 1, 0, 0, 0, 0, 1, 1, 1]

theorem handshakes_run (B : SynapseBackend σ ℚ) (s : σ)
    {outside clean : SynapseWorld σ ℚ → SynapseWorld σ ℚ → Prop} (still : clean ⟨s, [], []⟩ ⟨s, [], []⟩) :
    Pool.Run (SynapseMenu edgeNode B) outside clean (unasked s) (handshakes B s) :=
  (Pool.Run.refl.step (.start (Prog.isFinished_eq_true rfl) ⟨.upsert neighbour, rfl⟩)
    still).step (.start (Prog.isFinished_eq_true rfl) ⟨.upsert neighbour, rfl⟩) still

theorem race_run {B : SynapseBackend σ ℚ} {s : σ} {later : σ → σ}
    {outside : SynapseWorld σ ℚ → SynapseWorld σ ℚ → Prop}
    (passes : ∀ w, outside w { w with node := later w.node })
    {P : Pool (Fin 2) (SynapseWorld σ ℚ) NodeError Unit} (ran : race B s later = some P) :
    Pool.Run (SynapseMenu edgeNode B) outside (fun _ _ => True) (unasked s) P := by
  unfold race at ran
  obtain ⟨looked, first, rest⟩ := Option.bind_eq_some_iff.mp ran
  have started : Pool.Run (SynapseMenu edgeNode B) outside (fun _ _ => True) _ _ :=
    handshakes_run B s trivial
  have ran := started.follow (fun _ _ _ => trivial) first
  exact (ran.step (.outside (passes looked.state)) trivial).follow (fun _ _ _ => trivial) rest

def memoryLater (s : NodeState ℚ) : NodeState ℚ := { s with clock := s.clock + 1000000 }

def sqliteLater (s : SqliteNode ℚ) : SqliteNode ℚ := { s with clock := s.clock + 1000000 }

def emptySqlite : SqliteNode ℚ := ⟨∅, ∅, [], .maximal, 0⟩

def Doubled (w : SynapseWorld (NodeState ℚ) ℚ) : Bool :=
  w.node.faults.isEmpty && (w.node.store.synapses.values.map SynapseRecord.peer =
    [neighbour, neighbour]) && decide (w.node.store.synapses.values.map SynapseRecord.id).Nodup

theorem Doubled.not_each {w : SynapseWorld (NodeState ℚ) ℚ} (h : Doubled w = true) :
    ¬ OneSynapseEach memoryBackend w := by
  intro each
  have facts : (w.node.faults = [] ∧ w.node.store.synapses.values.map SynapseRecord.peer =
      [neighbour, neighbour]) ∧ (w.node.store.synapses.values.map SynapseRecord.id).Nodup := by
    simpa [Doubled] using h
  obtain ⟨⟨up, peers⟩, ids⟩ := facts
  have stored : ∀ r ∈ w.node.store.synapses.values, memoryBackend.Stored w.node r := by
    intro r hr
    obtain ⟨⟨id, x⟩, entry, rfl⟩ := List.mem_map.mp hr
    refine ⟨id, ?_⟩
    have fault : NodeM.nextFault w.node = none := by simp [NodeM.nextFault, up]
    show (memoryCall (fun st => (st.getSynapse id, st)) w.node).1 = _
    unfold memoryCall
    rw [fault]
    exact congrArg Except.ok (AList.mem_lookup_iff.mpr entry)
  cases values : w.node.store.synapses.values with
  | nil =>
    rw [values] at peers
    cases peers
  | cons r rest =>
    rw [values] at peers ids stored
    cases rest with
    | nil => simp at peers
    | cons r' rest =>
      obtain ⟨here, there⟩ := List.cons.inj peers
      have same := each.once r r' (stored r List.mem_cons_self)
        (stored r' (List.mem_cons_of_mem _ List.mem_cons_self))
        (here.trans (List.cons.inj there).1.symm)
      rw [same] at ids
      simp at ids

def refusalOf (a : NodeId × Except NodeError (SynapseRecord ℚ)) : Option NodeError :=
  match a.2 with
  | .ok _ => none
  | .error e => some e

theorem taken_not_each {σ : Type} {B : SynapseBackend σ ℚ} {w : SynapseWorld σ ℚ}
    (taken : some (.serialization peerTaken.display) ∈ w.answers.map refusalOf) :
    ¬ OneSynapseEach B w := by
  intro each
  obtain ⟨a, ha, refused⟩ := List.mem_map.mp taken
  rcases each.answered a ha with ⟨record, stored, ok, -⟩ | ⟨e, error, remaining, cools⟩
  · rw [refusalOf, ok] at refused
    cases refused
  · rw [refusalOf, error, cools] at refused
    cases Option.some.inj refused

/-- In memory the peer gets two records, and in SQLite the second upsert fails. -/
theorem racing_upserts_clash :
    (∃ P, race memoryBackend (edgeNode.build .new .maximal 0 []) memoryLater = some P ∧
      P.state.node.store.synapses.values.map SynapseRecord.peer = [neighbour, neighbour]) ∧
    (∃ P, race sqliteBackend emptySqlite sqliteLater = some P ∧
      P.state.answers.map refusalOf = [none, some (.serialization peerTaken.display)]) ∧
    ¬ (∀ P, Pool.Run (SynapseMenu edgeNode memoryBackend)
        (SynapseOutside MemoryInOrder memoryOwner) (fun _ _ => True)
        (unasked (edgeNode.build .new .maximal 0 [])) P → OneSynapseEach memoryBackend P.state) ∧
    ¬ ∀ P, Pool.Run (SynapseMenu edgeNode sqliteBackend)
        (SynapseOutside SqliteInOrder sqliteOwner) (fun _ _ => True) (unasked emptySqlite) P →
      OneSynapseEach sqliteBackend P.state := by
  have inMemory : ((race memoryBackend (edgeNode.build .new .maximal 0 []) memoryLater).map
      fun P => (Doubled P.state, P.state.node.store.synapses.values.map SynapseRecord.peer)) =
        some (true, [neighbour, neighbour]) := by
    decide +kernel
  have inSqlite : ((race sqliteBackend emptySqlite sqliteLater).map fun P =>
      P.state.answers.map refusalOf) =
        some [none, some (.serialization peerTaken.display)] := by
    decide +kernel
  obtain ⟨P, raced, doubled⟩ := Option.map_eq_some_iff.mp inMemory
  obtain ⟨P', raced', answers⟩ := Option.map_eq_some_iff.mp inSqlite
  obtain ⟨twice, peers⟩ := Prod.mk.inj doubled
  refine ⟨⟨P, raced, peers⟩, ⟨P', raced', answers⟩, fun always => ?_, fun always => ?_⟩
  · exact Doubled.not_each twice
      (always P (race_run (fun w => ⟨fun up => up, rfl, rfl, rfl⟩) raced))
  · refine taken_not_each ?_ (always P' (race_run (fun w => ⟨fun up => up, rfl, rfl, rfl⟩) raced'))
    rw [answers]
    exact List.mem_cons_of_mem _ List.mem_cons_self

def apartCheck {σ : Type} (owner : σ → Owners) (ids : σ → List SynapseId)
    (w w' : SynapseWorld σ ℚ) : Bool :=
  decide w'.forming.Nodup &&
    (ids w.node).all fun id => decide (owner w'.node id = owner w.node id)

theorem apartCheck_sound {σ : Type} {owner : σ → Owners} {ids : σ → List SynapseId}
    (complete : ∀ s id p, owner s id = some p → id ∈ ids s) (w w' : SynapseWorld σ ℚ)
    (passed : apartCheck owner ids w w' = true) : FormsApart owner w w' := by
  unfold apartCheck at passed
  obtain ⟨alone, kept⟩ := Bool.and_eq_true_iff.mp passed
  refine ⟨of_decide_eq_true alone, fun id p owned => ?_⟩
  have same := of_decide_eq_true (List.all_eq_true.mp kept id (complete w.node id p owned))
  rw [same]
  exact owned

def memoryIds (s : NodeState ℚ) : List SynapseId := s.store.synapses.keys

def sqliteIds (s : SqliteNode ℚ) : List SynapseId := s.synapses.keys

theorem memoryIds_complete (s : NodeState ℚ) (id : SynapseId) (p : NodeId)
    (owned : memoryOwner s id = some p) : id ∈ memoryIds s := by
  obtain ⟨r, found, -⟩ := Option.map_eq_some_iff.mp owned
  exact AList.mem_keys.mpr (AList.lookup_isSome.mp (Option.isSome_of_eq_some found))

theorem sqliteIds_complete (s : SqliteNode ℚ) (id : SynapseId) (p : NodeId)
    (owned : sqliteOwner s id = some p) : id ∈ sqliteIds s := by
  obtain ⟨row, found, -⟩ := Option.map_eq_some_iff.mp owned
  exact AList.mem_keys.mpr (AList.lookup_isSome.mp (Option.isSome_of_eq_some found))

def inTurn {σ : Type} (B : SynapseBackend σ ℚ) (owner : σ → Owners) (ids : σ → List SynapseId)
    (s : σ) : Option (Pool (Fin 2) (SynapseWorld σ ℚ) NodeError Unit) :=
  (handshakes B s).follow (apartCheck owner ids) [0, 0, 0, 0, 0, 0, 1, 1, 1]

theorem upserts_in_turn :
    (∃ P, inTurn memoryBackend memoryOwner memoryIds (edgeNode.build .new .maximal 0 []) = some P ∧
      P.state.answers.length = 2 ∧ OneSynapseEach memoryBackend P.state) ∧
    ∃ P, inTurn sqliteBackend sqliteOwner sqliteIds emptySqlite = some P ∧
      P.state.answers.length = 2 ∧ OneSynapseEach sqliteBackend P.state := by
  have inMemory : (inTurn memoryBackend memoryOwner memoryIds
      (edgeNode.build .new .maximal 0 [])).map (fun P => P.state.answers.length) = some 2 := by
    decide +kernel
  have inSqlite : (inTurn sqliteBackend sqliteOwner sqliteIds emptySqlite).map
      (fun P => P.state.answers.length) = some 2 := by
    decide +kernel
  obtain ⟨P, followed, answers⟩ := Option.map_eq_some_iff.mp inMemory
  obtain ⟨P', followed', answers'⟩ := Option.map_eq_some_iff.mp inSqlite
  have memoryRun : Pool.Run (SynapseMenu edgeNode memoryBackend)
      (SynapseOutside MemoryInOrder memoryOwner) (FormsApart memoryOwner)
      (unasked (edgeNode.build .new .maximal 0 [])) P :=
    (handshakes_run _ _ ⟨List.nodup_nil, fun _ _ owned => owned⟩).follow
      (apartCheck_sound memoryIds_complete) followed
  have sqliteRun : Pool.Run (SynapseMenu edgeNode sqliteBackend)
      (SynapseOutside SqliteInOrder sqliteOwner) (FormsApart sqliteOwner) (unasked emptySqlite) P' :=
    (handshakes_run _ _ ⟨List.nodup_nil, fun _ _ owned => owned⟩).follow
      (apartCheck_sound sqliteIds_complete) followed'
  refine ⟨⟨P, followed, answers, (one_synapse_per_peer edgeNode).1 _ P ⟨?_, ⟨rfl, ?_⟩, ?_, rfl, rfl,
    memoryRun⟩⟩, P', followed', answers', (one_synapse_per_peer edgeNode).2 _ P' ⟨?_, ?_, ?_, rfl,
      rfl, sqliteRun⟩⟩
  · exact fun _ => trivial
  · intro id r found
    cases found
  · intro a b p owned
    cases owned
  · exact fun _ => trivial
  · intro id row found
    cases found
  · intro a b p owned
    cases owned

end Race

end OpenNtl
