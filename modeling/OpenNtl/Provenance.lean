import OpenNtl.Config
import OpenNtl.OneSynapse
import OpenNtl.TableChange

/-! # The provenance of a peer

Forming a synapse replaces the record of the peer by one that was merely observed, whatever the
record said before. Configured and bootstrap peers keep theirs where no synapse is formed to them.
-/
namespace OpenNtl

open AtomicProgram NodeM

variable {F : Type}

/-- What a peer record says of how the peer is known and reached. -/
structure Provenance where
  source : PeerSource
  addresses : List String
  advertisedTypes : List String
  deriving DecidableEq

def PeerRecord.provenance (r : PeerRecord) : Provenance :=
  ⟨r.source, r.addresses, r.advertisedTypes⟩

def PeerSource.Trusted (source : PeerSource) : Prop := source = .configured ∨ source = .bootstrap

def Retains (known known' : NodeId → Option Provenance) : Prop :=
  ∀ id p, known id = some p → p.source.Trusted → known' id = some p

namespace Retains

variable {known known' known'' : NodeId → Option Provenance}

theorem refl (known : NodeId → Option Provenance) : Retains known known := fun _ _ here _ => here

theorem trans (first : Retains known known') (second : Retains known' known'') :
    Retains known known'' :=
  fun id p here trusted => second id p (first id p here trusted) trusted

theorem update_iff {peer : NodeId} {new : Provenance} (untrusted : ¬ new.source.Trusted) :
    Retains known (Function.update known peer (some new)) ↔
      ∀ p, known peer = some p → ¬ p.source.Trusted := by
  constructor
  · intro retains p here trusted
    have kept := retains peer p here trusted
    rw [Function.update_self] at kept
    rw [Option.some.inj kept] at untrusted
    exact untrusted trusted
  · intro spared id p here trusted
    by_cases replaced : id = peer
    · subst replaced
      exact absurd trusted (spared p here)
    · rw [Function.update_of_ne replaced]
      exact here

end Retains

/-- Entries that satisfy a condition and have a counterpart under the same key are no more than
those. -/
theorem HashMap.countP_values_le {κ ν ν' : Type} [DecidableEq κ] {m : HashMap κ ν}
    {m' : HashMap κ ν'} {p : ν → Bool} {p' : ν' → Bool}
    (kept : ∀ k v, m.lookup k = some v → p v = true → ∃ v', m'.lookup k = some v' ∧ p' v' = true) :
    m.values.countP p ≤ m'.values.countP p' := by
  have keys : ∀ {μ : Type} (t : HashMap κ μ) (q : μ → Bool),
      t.values.countP q = ((t.entries.filter fun e => q e.2).map Sigma.fst).length := by
    intro μ t q
    unfold values
    rw [List.countP_map, List.countP_eq_length_filter, List.length_map]
    rfl
  rw [keys, keys]
  apply (List.subperm_of_subset _ _).length_le
  · exact m.nodupKeys.sublist List.filter_sublist
  · intro k member
    obtain ⟨⟨_, v⟩, entry, rfl⟩ := List.mem_map.mp member
    obtain ⟨listed, holds⟩ := List.mem_filter.mp entry
    obtain ⟨v', found, holds'⟩ := kept _ v (AList.mem_lookup_iff.mpr listed) holds
    apply List.mem_map.mpr
    exact ⟨⟨_, v'⟩, List.mem_filter.mpr ⟨AList.mem_lookup_iff.mp found, holds'⟩, rfl⟩

def observedPeer (peer : NodeId) (nowNs : ℕ) : PeerRecord where
  id := peer
  addresses := []
  region := none
  advertisedTypes := []
  lastSeenNs := nowNs
  source := .observed

theorem observedPeer_untrusted (peer : NodeId) (nowNs : ℕ) :
    ¬ (observedPeer peer nowNs).provenance.source.Trusted := by
  rintro (same | same) <;> cases same

namespace MemoryStore

def provenance (st : MemoryStore F) (id : NodeId) : Option Provenance :=
  (st.peers.lookup id).map PeerRecord.provenance

def countPeers (st : MemoryStore F) (source : PeerSource) : ℕ :=
  st.peers.values.countP fun p => p.source = source

theorem provenance_congr {st st' : MemoryStore F} (same : st'.peers = st.peers) :
    st'.provenance = st.provenance := by
  funext id
  unfold provenance
  rw [same]

theorem provenance_insert {st st' : MemoryStore F} {r : PeerRecord}
    (after : st'.peers = st.peers.insert r.id r) :
    st'.provenance = Function.update st.provenance r.id (some r.provenance) := by
  funext id
  unfold provenance
  rw [after]
  by_cases here : id = r.id
  · subst here
    rw [AList.lookup_insert, Function.update_self]
    rfl
  · rw [AList.lookup_insert_ne here, Function.update_of_ne here]

theorem countPeers_le {st st' : MemoryStore F} (retains : Retains st.provenance st'.provenance)
    {source : PeerSource} (trusted : source.Trusted) :
    st.countPeers source ≤ st'.countPeers source := by
  apply HashMap.countP_values_le
  intro id r found same
  obtain rfl := of_decide_eq_true same
  have here : st.provenance id = some r.provenance := congrArg (Option.map _) found
  obtain ⟨r', found', same'⟩ := Option.map_eq_some_iff.mp (retains id _ here trusted)
  refine ⟨r', found', decide_eq_true ?_⟩
  exact congrArg Provenance.source same'

end MemoryStore

/-- Connecting to the peer writes a record of it: it has no synapse, and no store call fails. -/
def NodeState.Registers (s : NodeState F) (peer : NodeId) : Prop :=
  s.store.synapseForPeer peer = none ∧ ∀ f ∈ s.faults.take 3, f = none

theorem unfaulted_iff (faults : List (Option StoreError)) :
    (∀ f ∈ faults.take 3, f = none) ↔
      faults.head?.join = none ∧ faults.tail.head?.join = none ∧
        faults.tail.tail.head?.join = none := by
  rcases faults with _ | ⟨a, _ | ⟨b, _ | ⟨c, rest⟩⟩⟩ <;> simp

variable [Scalar F]

namespace Node

variable (node : Node F)

omit [Scalar F] in
theorem callStore_bind_faults {α β : Type} {s : NodeState F}
    {op : MemoryStore F → α × MemoryStore F} {k : α → NodeM F β} {P : NodeState F → Prop}
    (failed : nextFault s ≠ none → P (s.stored s.store))
    (done : nextFault s = none → P ((k (op s.store).1).run (s.stored (op s.store).2)).2) :
    P ((callStore op >>= k).run s).2 := by
  cases fault : nextFault s with
  | none =>
    rw [Prog.run_bind_ok (callStore_run_ok fault)]
    exact done fault
  | some f =>
    rw [Prog.run_bind_error (callStore_run_error fault)]
    exact failed (by rw [fault]; exact Option.some_ne_none f)

theorem upsertSynapse_peers (peer : NodeId) (s : NodeState F) :
    (s.Registers peer → ((node.upsertSynapse peer).run s).2.store.peers =
      s.store.peers.insert peer (observedPeer peer s.clock)) ∧
    (¬ s.Registers peer → ((node.upsertSynapse peer).run s).2.store.peers = s.store.peers) := by
  let P (t : NodeState F) : Prop :=
    (s.Registers peer → t.store.peers = s.store.peers.insert peer (observedPeer peer s.clock)) ∧
    (¬ s.Registers peer → t.store.peers = s.store.peers)
  -- A failure among the first three store calls.
  have early : ∀ {t : NodeState F}, t.store.peers = s.store.peers → ¬ s.Registers peer → P t :=
    fun same no => ⟨fun yes => absurd yes no, fun _ => same⟩
  have faults := unfaulted_iff s.faults
  refine callStore_bind_faults (P := P) (fun fault => early rfl fun yes => fault ?_) fun first => ?_
  · exact (faults.mp yes.2).1
  dsimp only
  cases found : s.store.synapseForPeer peer with
  | some r =>
    have known : ¬ s.Registers peer := by
      intro registers
      rw [registers.1] at found
      cases found
    dsimp only
    split_ifs with pruned cooling dormant
    · exact early rfl known
    · exact callStore_bind_leaves (P := P) (early rfl known) (early rfl known)
    · exact callStore_bind_leaves (P := P) (early rfl known) (early rfl known)
    · exact early rfl known
  | none =>
    dsimp only
    rw [withRng_bind_run]
    refine callStore_bind_faults (P := P) (fun fault => early rfl fun yes => fault ?_) fun second => ?_
    · exact (faults.mp yes.2).2.1
    refine callStore_bind_faults (P := P) (fun fault => early rfl fun yes => fault ?_) fun third => ?_
    · exact (faults.mp yes.2).2.2
    refine ⟨fun _ => rfl, fun no => absurd ⟨found, ?_⟩ no⟩
    exact faults.mpr ⟨first, second, third⟩

end Node

def KeepsPeerTable (st st' : MemoryStore F) : Prop := st'.peers = st.peers

omit [Scalar F] in
theorem keepsPeerTable_reads : HoldsAcrossReads (KeepsPeerTable (F := F)) where
  same := fun _ => rfl
  claims := by
    intro st id nowNs ttlSecs
    unfold MemoryStore.checkAndSetSeen
    split
    · split <;> rfl
    · rfl
  plans := fun h => h.peers
  saves := fun _ _ => rfl
  purges := fun _ _ => rfl

omit [Scalar F] in
theorem keepsPeerTable_outcomes : HoldsAcrossOutcomes (KeepsPeerTable (F := F)) where
  same := fun _ => rfl
  resolves := by
    intro st id outcome nowNs
    rcases st.resolveDecision_cases id outcome nowNs with ⟨-, r⟩ | ⟨e, -, -, r⟩ | ⟨e, -, -, r⟩
    all_goals
      rw [r]
      rfl
  reweighs := fun h => h.peers

theorem moment_peers {node : Node F} {m : Moment F} (performed : m.Performed node)
    (other : ∀ peer, m.call ≠ .upsertSynapse peer) :
    m.after.store.peers = m.before.store.peers := by
  rw [moment_after performed]
  have within : (node.perform m.call).Within (StoreWithin (KeepsPeerTable (F := F))) := by
    rcases m.call.reads_or_writes with reads | writes
    · exact (node.reads_quiet keepsPeerTable_reads reads).mono fun s t h => h.store
    · exact node.outcomes_storeWithin keepsPeerTable_outcomes writes other
  exact Prog.Within.run (R := StoreWithin KeepsPeerTable) (fun _ => rfl) (fun hs ht => Eq.trans ht hs)
    within m.before

def Moment.Spares (m : Moment F) : Prop :=
  ∀ peer, m.call = .upsertSynapse peer → m.before.Registers peer →
    ∀ p, m.before.store.provenance peer = some p → ¬ p.source.Trusted

theorem moment_retains_iff {node : Node F} {m : Moment F} (performed : m.Performed node) :
    Retains m.before.store.provenance m.after.store.provenance ↔ m.Spares := by
  by_cases connects : ∃ peer, m.call = .upsertSynapse peer ∧ m.before.Registers peer
  · obtain ⟨peer, call, registers⟩ := connects
    have after : m.after.store.provenance = Function.update m.before.store.provenance peer
        (some (observedPeer peer m.before.clock).provenance) := by
      apply MemoryStore.provenance_insert (r := observedPeer peer m.before.clock)
      rw [moment_after performed, call]
      unfold Node.perform
      rw [Prog.run_map]
      exact (node.upsertSynapse_peers peer m.before).1 registers
    rw [after, Retains.update_iff (observedPeer_untrusted peer m.before.clock)]
    constructor
    · intro spared peer' call' _
      obtain rfl : peer' = peer := by simpa using call'.symm.trans call
      exact spared
    · intro spares
      exact spares peer call registers
  · have same : m.after.store.peers = m.before.store.peers := by
      by_cases upserts : ∃ peer, m.call = .upsertSynapse peer
      · obtain ⟨peer, call⟩ := upserts
        rw [moment_after performed, call]
        unfold Node.perform
        rw [Prog.run_map]
        exact (node.upsertSynapse_peers peer m.before).2 fun registers =>
          connects ⟨peer, call, registers⟩
      · exact moment_peers performed fun peer call => upserts ⟨peer, call⟩
    rw [MemoryStore.provenance_congr same]
    constructor
    · intro _ peer call registers
      exact absurd ⟨peer, call, registers⟩ connects
    · intro _
      exact .refl _

/-- A run that begins with the node built over this store. -/
inductive SeededRun (node : Node F) (seed : MemoryStore F) : List (Moment F) → NodeState F → Prop
  | start (rng : Rng) (clock : ℕ) (faults : List (Option StoreError)) :
      SeededRun node seed [] (node.build seed rng clock faults)
  | restart {ms : List (Moment F)} {s s' : NodeState F} :
      SeededRun node seed ms s → Restarts node s s' → SeededRun node seed ms s'
  | call {ms : List (Moment F)} {s : NodeState F} {m : Moment F} :
      SeededRun node seed ms s → Resumes s m.before → m.Performed node →
      SeededRun node seed (ms ++ [m]) m.after

theorem NodeRun.seeded {node : Node F} {ms : List (Moment F)} {s : NodeState F}
    (run : NodeRun node ms s) : SeededRun node .new ms s := by
  induction run with
  | start rng clock faults => exact .start rng clock faults
  | restart _ restarts ih => exact ih.restart restarts
  | call _ resumes performed ih => exact ih.call resumes performed

namespace SeededRun

variable {node : Node F} {seed : MemoryStore F} {ms : List (Moment F)} {s : NodeState F}

theorem performed (run : SeededRun node seed ms s) : ∀ m ∈ ms, m.Performed node := by
  induction run with
  | start => intro m hm; cases hm
  | restart _ _ ih => exact ih
  | call _ _ performed ih =>
    intro m hm
    rcases List.mem_append.mp hm with hm | hm
    · exact ih m hm
    · rw [List.mem_singleton.mp hm]
      exact performed

theorem keeps {R : MemoryStore F → MemoryStore F → Prop} (refl : ∀ st, R st st)
    (trans : ∀ {a b c}, R a b → R b c → R a c) (run : SeededRun node seed ms s)
    (each : ∀ m ∈ ms, R m.before.store m.after.store) : R seed s.store := by
  induction run with
  | start => exact refl seed
  | restart _ restarts ih =>
    obtain ⟨rng, clock, faults, rfl⟩ := restarts.built
    exact ih each
  | @call ms s m _ resumes _ ih =>
    have before := ih fun y hy => each y (List.mem_append_left _ hy)
    rw [← resumes.store] at before
    exact trans before (each m (List.mem_append_right _ (List.mem_singleton_self m)))

end SeededRun

def sourceFromStr : String → Except StoreError PeerSource
  | "configured" => .ok .configured
  | "bootstrap" => .ok .bootstrap
  | "discovered" => .ok .discovered
  | "observed" => .ok .observed
  | other => .error (corrupt "peers" ("unknown source " ++ other.quote))

theorem sourceFromStr_sourceToStr (source : PeerSource) :
    sourceFromStr (sourceToStr source) = .ok source := by
  cases source <;> rfl

theorem sourceToStr_of_sourceFromStr {text : String} {source : PeerSource}
    (read : sourceFromStr text = .ok source) : text = sourceToStr source := by
  unfold sourceFromStr at read
  split at read <;> cases read <;> rfl

def PeerRow.provenance (row : PeerRow) : Option Provenance :=
  match sourceFromStr row.source with
  | .ok source => some ⟨source, row.addresses, row.advertisedTypes⟩
  | .error _ => none

theorem peerRow_provenance (r : PeerRecord) : (peerRow r).provenance = some r.provenance := by
  unfold PeerRow.provenance peerRow
  dsimp only
  rw [sourceFromStr_sourceToStr]
  rfl

namespace SqliteNode

def provenance (s : SqliteNode F) (id : NodeId) : Option Provenance :=
  (s.peers.lookup id).bind PeerRow.provenance

def countPeers (s : SqliteNode F) (source : PeerSource) : ℕ :=
  s.peers.values.countP fun row => row.source = sourceToStr source

omit [Scalar F] in
theorem provenance_insert {s t : SqliteNode F} {r : PeerRecord}
    (after : t.peers = s.peers.insert r.id (peerRow r)) :
    t.provenance = Function.update s.provenance r.id (some r.provenance) := by
  funext id
  unfold provenance
  rw [after]
  by_cases here : id = r.id
  · subst here
    rw [AList.lookup_insert, Function.update_self]
    exact peerRow_provenance r
  · rw [AList.lookup_insert_ne here, Function.update_of_ne here]

omit [Scalar F] in
theorem provenance_congr {s t : SqliteNode F} (same : t.peers = s.peers) :
    t.provenance = s.provenance := by
  funext id
  unfold provenance
  rw [same]

omit [Scalar F] in
theorem countPeers_le {s t : SqliteNode F} (retains : Retains s.provenance t.provenance)
    {source : PeerSource} (trusted : source.Trusted) :
    s.countPeers source ≤ t.countPeers source := by
  apply HashMap.countP_values_le
  intro id row found same
  have text := of_decide_eq_true same
  have here : s.provenance id = some ⟨source, row.addresses, row.advertisedTypes⟩ := by
    unfold provenance PeerRow.provenance
    rw [found, Option.bind_some, text, sourceFromStr_sourceToStr]
  obtain ⟨row', found', same'⟩ := Option.bind_eq_some_iff.mp (retains id _ here trusted)
  refine ⟨row', found', decide_eq_true ?_⟩
  unfold PeerRow.provenance at same'
  cases read : sourceFromStr row'.source with
  | error e =>
    rw [read] at same'
    cases same'
  | ok source' =>
    rw [read] at same'
    obtain rfl : source' = source := congrArg Provenance.source (Option.some.inj same')
    exact sourceToStr_of_sourceFromStr read

def KeepsPeerRows (s t : SqliteNode F) : Prop := t.peers = s.peers

omit [Scalar F] in
theorem storeCall_keepsPeerRows {α : Type} {f : SqliteNode F → Except StoreError α × SqliteNode F}
    (keeps : ∀ s, (f s).2.peers = s.peers) : (storeCall f).Within KeepsPeerRows :=
  (Prog.Within.of_act keeps).bind fun _ => Prog.Within.of_ofExcept _

omit [Scalar F] in
theorem putSynapse_peers (r : SynapseRecord F) (s : SqliteNode F) :
    (putSynapse r s).2.peers = s.peers := by
  rcases putSynapse_cases r s with ⟨written, -⟩ | ⟨refused, -⟩
  · rw [written]
  · rw [refused]

end SqliteNode

def Node.taskOn {σ : Type} (node : Node F) (B : SynapseBackend σ F) :
    SynapseTask F → Prog σ NodeError Unit
  | .upsert peer => do
    let _ ← node.upsertSynapseOn B peer
  | .penalize id => do
    let _ ← node.penalizeSignatureFailureOn B id
  | .update entry outcome nowNs => do
    let _ ← node.updateSynapseOn B entry outcome nowNs
  | .normalize => do
    let _ ← node.normalizeOutboundWeightsOn B

section Sqlite

variable (node : Node F)

open SqliteNode

theorem normalize_keepsPeerRows :
    (node.normalizeOutboundWeightsOn sqliteBackend).Within (KeepsPeerRows (F := F)) := by
  refine (storeCall_keepsPeerRows fun _ => rfl).bind fun records => ?_
  split
  · exact Prog.Within.of_pure _
  · split
    · exact Prog.Within.of_pure _
    · refine (Prog.Within.forM (fun rw => ?_) _).bind fun _ => Prog.Within.of_pure _
      exact storeCall_keepsPeerRows (putSynapse_peers _)

theorem taskOn_keepsPeerRows {task : SynapseTask F} (other : ∀ peer, task ≠ .upsert peer) :
    (node.taskOn sqliteBackend task).Within (KeepsPeerRows (F := F)) := by
  have now : (Prog.act (sqliteBackend (F := F)).now : Prog _ NodeError ℕ).Within KeepsPeerRows :=
    Prog.Within.of_act fun _ => rfl
  cases task with
  | upsert peer => exact absurd rfl (other peer)
  | penalize id =>
    refine Prog.Within.bind (now.bind fun n => ?_) fun _ => Prog.Within.of_pure _
    refine (storeCall_keepsPeerRows fun _ => rfl).bind fun found => ?_
    split
    · exact Prog.Within.of_pure _
    · exact (storeCall_keepsPeerRows (putSynapse_peers _)).bind fun _ => Prog.Within.of_pure _
  | normalize => exact (normalize_keepsPeerRows node).bind fun _ => Prog.Within.of_pure _
  | update entry outcome nowNs =>
    refine Prog.Within.bind ?_ fun _ => Prog.Within.of_pure _
    refine (storeCall_keepsPeerRows fun _ => rfl).bind fun used => ?_
    refine (storeCall_keepsPeerRows fun _ => rfl).bind fun found => ?_
    split
    · exact Prog.Within.of_pure _
    · have write : ∀ (r : SynapseRecord F) (u : WeightUpdate F), (do
          storeCall (sqliteBackend.putSynapse r)
          let _ ← node.normalizeOutboundWeightsOn sqliteBackend
          return u : Prog _ NodeError _).Within KeepsPeerRows := by
        intro r u
        refine (storeCall_keepsPeerRows (putSynapse_peers _)).bind fun _ => ?_
        exact (normalize_keepsPeerRows node).bind fun _ => Prog.Within.of_pure _
      dsimp only
      split
      · exact (storeCall_keepsPeerRows fun _ => rfl).bind fun _ => write _ _
      · exact write _ _

def SqliteNode.Registers (s : SqliteNode F) (peer : NodeId) : Prop :=
  (s.synapseForPeer peer).1 = .ok none

omit [Scalar F] in
theorem putSynapse_first {s : SqliteNode F} {r : SynapseRecord F} (free : s.Registers r.peer) :
    (putSynapse r s).1 = .ok () := by
  have missing : s.synapses.values.find? (fun row => row.peer = r.peer) = none := by
    unfold Registers SqliteNode.synapseForPeer at free
    cases found : s.synapses.values.find? (fun row => row.peer = r.peer) with
    | none => rfl
    | some row =>
      rw [found] at free
      dsimp only [Option.mapM_some] at free
      cases read : rowToSynapse row with
      | error e =>
        rw [read] at free
        cases free
      | ok x =>
        rw [read] at free
        cases free
  rcases putSynapse_cases r s with ⟨written, -⟩ | ⟨-, id, row, -, found, same⟩
  · rw [written]
  · have listed : row ∈ s.synapses.values := HashMap.mem_values_of_lookup found
    have other := List.find?_eq_none.mp missing row listed
    have apart : row.peer ≠ r.peer := by simpa using other
    exact absurd same apart

omit [Scalar F] in
theorem storeCall_bind_leaves {σ α β : Type} {f : σ → Except StoreError α × σ}
    {k : α → Prog σ NodeError β} {P : σ → Prop} {s : σ}
    (failed : ∀ e, (f s).1 = .error e → P (f s).2)
    (done : ∀ a, (f s).1 = .ok a → P ((k a).run (f s).2).2) :
    P ((storeCall f >>= k).run s).2 := by
  rcases result : f s with ⟨e | a, t⟩
  · have ran : (storeCall f).run s = (.error (.serialization e.display), t) := by
      unfold storeCall
      simp [Prog.run_bind, result, serialized, Except.mapError]
    rw [Prog.run_bind_error ran]
    rw [result] at failed
    exact failed e rfl
  · have ran : (storeCall f).run s = (.ok a, t) := by
      unfold storeCall
      simp [Prog.run_bind, result, serialized, Except.mapError]
    rw [Prog.run_bind_ok ran]
    rw [result] at done
    exact done a rfl

theorem upsertSynapseOn_peers (peer : NodeId) (s : SqliteNode F) :
    (s.Registers peer → ((node.taskOn sqliteBackend (.upsert peer)).run s).2.peers =
      s.peers.insert peer (peerRow (observedPeer peer s.clock))) ∧
    (¬ s.Registers peer →
      ((node.taskOn sqliteBackend (.upsert peer)).run s).2.peers = s.peers) := by
  let P (t : SqliteNode F) : Prop :=
    (s.Registers peer → t.peers = s.peers.insert peer (peerRow (observedPeer peer s.clock))) ∧
    (¬ s.Registers peer → t.peers = s.peers)
  have early : ∀ {t : SqliteNode F}, t.peers = s.peers → ¬ s.Registers peer → P t :=
    fun same no => ⟨fun yes => absurd yes no, fun _ => same⟩
  show P _
  unfold Node.taskOn
  dsimp only
  rw [Prog.run_bind_pure_snd]
  refine storeCall_bind_leaves (P := P) (s := s) (fun e failed => early rfl fun registers => ?_)
    fun found read => ?_
  · exact absurd (registers.symm.trans failed) (by simp)
  cases found with
  | some r =>
    have known : ¬ s.Registers peer := fun registers =>
      absurd (registers.symm.trans read) (by simp)
    have written : ∀ (record : SynapseRecord F) {t : SqliteNode F}, t.peers = s.peers →
        P ((do
          storeCall (sqliteBackend.putSynapse record)
          return record : Prog _ NodeError _).run t).2 := by
      intro record t same
      refine storeCall_bind_leaves (P := P) (fun _ _ => early ?_ known) fun _ _ => early ?_ known
      · exact (putSynapse_peers record t).trans same
      · exact (putSynapse_peers record t).trans same
    dsimp only
    split_ifs with pruned cooling dormant
    · exact early rfl known
    · exact written _ rfl
    · exact written _ rfl
    · exact early rfl known
  | none =>
    have registers : s.Registers peer := read
    have drawn : ∀ {t : SqliteNode F} {r : SynapseRecord F},
        t = { s with rng := t.rng } → r.peer = peer → (putSynapse r t).1 = .ok () := by
      intro t r same reached
      apply putSynapse_first
      rw [reached]
      unfold SqliteNode.Registers SqliteNode.synapseForPeer at registers ⊢
      rw [same]
      exact registers
    have written : ∀ t : SqliteNode F, t.peers = s.peers →
        P (SqliteNode.putPeer (observedPeer peer s.clock) t).2 := by
      intro t same
      refine ⟨fun _ => ?_, fun no => absurd registers no⟩
      unfold SqliteNode.putPeer
      rw [same]
      rfl
    let t : SqliteNode F := { s with rng := (Synapse.newWith peer node.config.synapse s.clock s.rng).2 }
    refine storeCall_bind_leaves (P := P) (s := t) (fun e failed => ?_) fun _ _ => ?_
    · have ok := drawn (t := t) (r := node.formedRecord peer s.clock s.rng) rfl rfl
      exact absurd (ok.symm.trans failed) (by simp)
    · refine storeCall_bind_leaves (P := P) (fun _ _ => ?_) fun _ _ => ?_
      · exact written _ (putSynapse_peers _ t)
      · exact written _ (putSynapse_peers _ t)

/-- Calls of these methods one after another over one database, with the state each began in.
Between two calls the clock and the random source may show anything. -/
inductive SqliteRun (s₀ : SqliteNode F) : List (SqliteNode F × SynapseTask F) → SqliteNode F → Prop
  | start : SqliteRun s₀ [] s₀
  | later {log : List (SqliteNode F × SynapseTask F)} {s : SqliteNode F} (rng : Rng) (clock : ℕ) :
      SqliteRun s₀ log s → SqliteRun s₀ log { s with rng := rng, clock := clock }
  | call {log : List (SqliteNode F × SynapseTask F)} {s : SqliteNode F} (task : SynapseTask F) :
      SqliteRun s₀ log s →
      SqliteRun s₀ (log ++ [(s, task)]) ((node.taskOn sqliteBackend task).run s).2

def SparesRow (x : SqliteNode F × SynapseTask F) : Prop :=
  ∀ peer, x.2 = .upsert peer → x.1.Registers peer →
    ∀ p, x.1.provenance peer = some p → ¬ p.source.Trusted

theorem task_retains_iff (task : SynapseTask F) (s : SqliteNode F) :
    Retains s.provenance ((node.taskOn sqliteBackend task).run s).2.provenance ↔
      SparesRow (s, task) := by
  by_cases connects : ∃ peer, task = .upsert peer ∧ s.Registers peer
  · obtain ⟨peer, rfl, registers⟩ := connects
    have after := provenance_insert (r := observedPeer peer s.clock)
      ((upsertSynapseOn_peers node peer s).1 registers)
    rw [after, Retains.update_iff (observedPeer_untrusted peer s.clock)]
    constructor
    · intro spared peer' task _
      obtain rfl : peer' = peer := by simpa using task.symm
      exact spared
    · intro spares
      exact spares peer rfl registers
  · have same : ((node.taskOn sqliteBackend task).run s).2.peers = s.peers := by
      by_cases upserts : ∃ peer, task = .upsert peer
      · obtain ⟨peer, rfl⟩ := upserts
        exact (upsertSynapseOn_peers node peer s).2 fun registers => connects ⟨peer, rfl, registers⟩
      · exact Prog.Within.run (R := KeepsPeerRows) (fun _ => rfl) (fun hs ht => Eq.trans ht hs)
          (taskOn_keepsPeerRows node fun peer same => upserts ⟨peer, same⟩) s
    rw [provenance_congr same]
    constructor
    · intro _ peer task registers
      exact absurd ⟨peer, task, registers⟩ connects
    · intro _
      exact .refl _

theorem SqliteRun.retains {s₀ s : SqliteNode F} {log : List (SqliteNode F × SynapseTask F)}
    (run : SqliteRun node s₀ log s) (spares : ∀ x ∈ log, SparesRow x) :
    Retains s₀.provenance s.provenance := by
  induction run with
  | start => exact .refl _
  | later rng clock _ ih => exact ih spares
  | call task _ ih =>
    have before := ih fun x hx => spares x (List.mem_append_left _ hx)
    apply before.trans
    apply (task_retains_iff node task _).mpr
    exact spares _ (List.mem_append_right _ (List.mem_singleton_self _))

end Sqlite

/-- In every run over any tables, a call keeps what the operator vouches for exactly if it forms no
synapse to such a peer; and where no call does, the run keeps all of it. -/
theorem provenance_kept_iff (node : Node F) :
    (∀ {seed : MemoryStore F} {ms : List (Moment F)} {s : NodeState F},
      SeededRun node seed ms s →
        ((∀ m ∈ ms, Retains m.before.store.provenance m.after.store.provenance) ↔
          ∀ m ∈ ms, m.Spares) ∧
        ((∀ m ∈ ms, m.Spares) → Retains seed.provenance s.store.provenance ∧
          ∀ source : PeerSource, source.Trusted →
            seed.countPeers source ≤ s.store.countPeers source)) ∧
    (∀ {s₀ s : SqliteNode F} {log : List (SqliteNode F × SynapseTask F)},
      SqliteRun node s₀ log s →
        ((∀ x ∈ log, Retains x.1.provenance
          ((node.taskOn sqliteBackend x.2).run x.1).2.provenance) ↔ ∀ x ∈ log, SparesRow x) ∧
        ((∀ x ∈ log, SparesRow x) → Retains s₀.provenance s.provenance ∧
          ∀ source : PeerSource, source.Trusted → s₀.countPeers source ≤ s.countPeers source)) := by
  constructor
  · intro seed ms s run
    have each : ∀ m ∈ ms, Retains m.before.store.provenance m.after.store.provenance ↔ m.Spares :=
      fun m hm => moment_retains_iff (run.performed m hm)
    refine ⟨forall₂_congr each, fun spares => ?_⟩
    have kept : Retains seed.provenance s.store.provenance :=
      run.keeps (R := fun st st' => Retains st.provenance st'.provenance) (fun _ => .refl _)
        Retains.trans fun m hm => (each m hm).mpr (spares m hm)
    exact ⟨kept, fun source trusted => MemoryStore.countPeers_le kept trusted⟩
  · intro s₀ s log run
    refine ⟨forall₂_congr fun x _ => task_retains_iff node x.2 x.1, fun spares => ?_⟩
    have kept := run.retains node spares
    exact ⟨kept, fun source trusted => SqliteNode.countPeers_le kept trusted⟩

def configuredPeer (peer : NodeId) : PeerRecord where
  id := peer
  addresses := ["ntl://10.0.0.1:4433"]
  region := none
  advertisedTypes := ["Data"]
  lastSeenNs := 0
  source := .configured

def configuredStore : MemoryStore ℚ := MemoryStore.new.putPeer (configuredPeer neighbour)

def greeted (peer : NodeId) : Moment ℚ :=
  edgeNode.momentAt (.upsertSynapse peer) (edgeNode.build configuredStore .maximal 0 [])

theorem greeted_run (peer : NodeId) :
    SeededRun edgeNode configuredStore [greeted peer] (greeted peer).after :=
  (SeededRun.start .maximal 0 []).call ⟨rfl, rfl, rfl, rfl⟩ (edgeNode.momentAt_performed _ _)

theorem stranger_spares_configured :
    Retains configuredStore.provenance (greeted ⟨[2]⟩).after.store.provenance := by
  refine (((provenance_kept_iff edgeNode).1 (greeted_run ⟨[2]⟩)).2 ?_).1
  intro m hm peer call _ p known
  obtain rfl := List.mem_singleton.mp hm
  obtain rfl : (⟨[2]⟩ : NodeId) = peer := by simpa [greeted, Node.momentAt] using call
  have unknown : (greeted ⟨[2]⟩).before.store.provenance ⟨[2]⟩ = none := by decide +kernel
  rw [unknown] at known
  cases known

/-- The first connection of a configured peer turns it into an observed one without addresses. -/
theorem connecting_downgrades_configured :
    ¬ ∀ (settings : NodeSettings ℚ) (identity : NodeId) (seed : MemoryStore ℚ)
      (ms : List (Moment ℚ)) (s : NodeState ℚ), settings.validate ["classical-v1"] = .ok () →
      SeededRun ⟨identity, settings.toNodeConfig⟩ seed ms s →
      Retains seed.provenance s.store.provenance := by
  intro always
  have kept := always (NodeSettings.forClass .edge) ⟨[0]⟩ configuredStore [greeted neighbour] _
    (NodeSettings.validate_forClass .edge) (greeted_run neighbour) neighbour
    (configuredPeer neighbour).provenance rfl (Or.inl rfl)
  have after : (greeted neighbour).after.store.provenance neighbour =
      some (observedPeer neighbour 0).provenance := by
    decide +kernel
  rw [after] at kept
  cases kept

end OpenNtl
