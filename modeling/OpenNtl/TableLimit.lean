import OpenNtl.OutboundBudget

/-! # The size of the synapse table

Nothing reads `max_synapses`. The live synapses stay within it where each connection that forms or
re-forms one finds room.
-/
namespace OpenNtl

open AtomicProgram NodeM

variable {F : Type} [Scalar F]

namespace MemoryStore

variable {st st' : MemoryStore F}

omit [Scalar F]

theorem mem_live_ids (filed : Filed st) {id : SynapseId} :
    id ∈ st.live.map SynapseRecord.id ↔ ∃ r, st.getSynapse id = some r ∧ r.state ≠ .pruned := by
  constructor
  · intro member
    obtain ⟨r, listed, rfl⟩ := List.mem_map.mp member
    obtain ⟨here, state⟩ := List.mem_filter.mp listed
    exact ⟨r, filed.find here, of_decide_eq_true state⟩
  · rintro ⟨r, found, state⟩
    apply List.mem_map.mpr
    refine ⟨r, ?_, filed id r found⟩
    exact List.mem_filter.mpr ⟨mem_values_of_getSynapse found, decide_eq_true state⟩

theorem live_ids_nodup (filed : Filed st) : (st.live.map SynapseRecord.id).Nodup :=
  filed.nodup_ids.sublist (List.filter_sublist.map _)

theorem live_le (filed : Filed st) (filed' : Filed st') (new : List SynapseId)
    (old : ∀ id r', st'.getSynapse id = some r' → r'.state ≠ .pruned → id ∉ new →
      ∃ r, st.getSynapse id = some r ∧ r.state ≠ .pruned) :
    st'.live.length ≤ st.live.length + new.length := by
  have covered : st'.live.map SynapseRecord.id ⊆ st.live.map SynapseRecord.id ++ new := by
    intro id member
    obtain ⟨r', found, state⟩ := (mem_live_ids filed').mp member
    by_cases added : id ∈ new
    · exact List.mem_append_right _ added
    · exact List.mem_append_left _ ((mem_live_ids filed).mpr (old id r' found state added))
  have count := (List.subperm_of_subset (live_ids_nodup filed') covered).length_le
  rwa [List.length_append, List.length_map, List.length_map] at count

variable {r : SynapseRecord F} (filed : Filed st)
  (after : st'.synapses = (st.putSynapse r).synapses)

include filed after

theorem live_le_of_put
    (was : r.state ≠ .pruned → ∃ x, st.getSynapse r.id = some x ∧ x.state ≠ .pruned) :
    st'.live.length ≤ st.live.length := by
  apply live_le filed ((filed.put r).of_same after) []
  intro id r' found state _
  rcases found_put after found with ⟨rfl, rfl⟩ | ⟨-, before⟩
  · exact was state
  · exact ⟨r', before, state⟩

theorem live_le_succ_of_put : st'.live.length ≤ st.live.length + 1 := by
  apply live_le filed ((filed.put r).of_same after) [r.id]
  intro id r' found state other
  rw [put_getSynapse_other after (by simpa using other)] at found
  exact ⟨r', found, state⟩

end MemoryStore

namespace Node

variable (node : Node F)

/-- Connecting to the peer adds a live synapse: there is none, or it was pruned and has served its
cooldown. -/
def Adds (peer : NodeId) (s : NodeState F) : Prop :=
  ∀ r, s.store.synapseForPeer peer = some r →
    r.state = .pruned ∧ node.cooldownEnd r.lastActiveNs ≤ s.clock

def FindsRoom (m : Moment F) : Prop :=
  ∀ peer, m.call = .upsertSynapse peer → node.Adds peer m.before →
    m.before.store.live.length < node.config.synapse.maxSynapses

end Node

theorem Node.Reweighed.live_le {node : Node F} {nowNs : ℕ} {applies : SynapseId → Outcome → Prop}
    {st st' : MemoryStore F} (records : node.Reweighed nowNs applies st st') (filed : Filed st) :
    st'.live.length ≤ st.live.length := by
  apply MemoryStore.live_le filed (records.filed filed) []
  intro id r' found state _
  obtain ⟨r, before, rewritten⟩ := records.was found
  have kept := Node.Reweigh.keepStanding rewritten
  exact ⟨r, before, fun pruned => state (kept.pruned.mpr pruned)⟩

/-- One call keeps the live synapses within a limit if it finds room for what it adds. -/
theorem moment_live {node : Node F} {m : Moment F} (performed : m.Performed node)
    (filed : Filed m.before.store) (room : node.FindsRoom m)
    (within : m.before.store.live.length ≤ node.config.synapse.maxSynapses) :
    m.after.store.live.length ≤ node.config.synapse.maxSynapses := by
  cases table_change performed filed with
  | reweighs other records => exact (records.live_le filed).trans within
  | @penalizes r call found reply after =>
    refine (MemoryStore.live_le_of_put filed after fun state => ?_).trans within
    rw [node.penalizedRecord_id]
    refine ⟨r, found, fun pruned => state ?_⟩
    rcases node.penalizedRecord_cases m.before.clock r with ⟨-, -, same⟩ | ⟨-, -, _, kept, same⟩
    · rw [same]
    · rw [same]
      exact kept.mpr pruned
  | @upserts peer call change =>
    cases change with
    | kept same =>
      unfold MemoryStore.live
      rw [same]
      exact within
    | @reactivated r found dormant after =>
      refine (MemoryStore.live_le_of_put filed after fun _ => ?_).trans within
      refine ⟨r, filed.forPeer found, ?_⟩
      rw [dormant]
      decide
    | @reformed r found pruned served after =>
      have free := room peer call (by
        intro r' found'
        obtain rfl := Option.some.inj (found.symm.trans found')
        exact ⟨pruned, served⟩)
      have one := MemoryStore.live_le_succ_of_put filed after
      omega
    | formed missing after =>
      have free := room peer call (by
        intro r found
        rw [missing] at found
        cases found)
      have one := MemoryStore.live_le_succ_of_put filed after
      omega

/-- In every run in which each connection that adds a live synapse finds room for it, the live
synapses are never more than the limit. -/
theorem synapse_table_bounded {node : Node F} {ms : List (Moment F)} {s : NodeState F}
    (run : NodeRun node ms s) (room : ∀ m ∈ ms, node.FindsRoom m) :
    s.store.live.length ≤ node.config.synapse.maxSynapses ∧
      ∀ m ∈ ms, m.before.store.live.length ≤ node.config.synapse.maxSynapses := by
  have filed := run.filed.2
  induction run with
  | start => exact ⟨Nat.zero_le _, fun m hm => (by cases hm)⟩
  | restart _ restarts ih =>
    obtain ⟨rng, clock, faults, rfl⟩ := restarts.built
    exact ih room filed
  | @call ms s m _ resumes performed ih =>
    obtain ⟨now, earlier⟩ := ih (fun y hy => room y (List.mem_append_left _ hy))
      (fun y hy => filed y (List.mem_append_left _ hy))
    have last : m ∈ ms ++ [m] := List.mem_append_right _ (List.mem_singleton_self m)
    rw [← resumes.store] at now
    refine ⟨moment_live performed (filed m last) (room m last) now, fun y hy => ?_⟩
    rcases List.mem_append.mp hy with hy | hy
    · exact earlier y hy
    · rw [List.mem_singleton.mp hy]
      exact now

/-- Two peers fill a table of two, and the first connects again. -/
def twoSeatNode : Node ℚ :=
  ⟨⟨[0]⟩, { edgeNode.config with synapse := { SynapseConfig.default with maxSynapses := 2 } }⟩

def seating : List (Call ℚ) :=
  [.upsertSynapse neighbour, .upsertSynapse ⟨[2]⟩, .upsertSynapse neighbour]

def seated : List (Moment ℚ) × NodeState ℚ :=
  runOf twoSeatNode (twoSeatNode.build .new .maximal 0 []) 0 seating

theorem first_connection_finds_room :
    seated.2.store.live.length = twoSeatNode.config.synapse.maxSynapses ∧
    seated.2.store.live.length ≤ twoSeatNode.config.synapse.maxSynapses ∧
      ∀ m ∈ seated.1, m.before.store.live.length ≤ twoSeatNode.config.synapse.maxSynapses := by
  have run : NodeRun twoSeatNode seated.1 seated.2 :=
    runOf_run (NodeRun.start .maximal 0 [] : NodeRun twoSeatNode [] _) 0 seating
  refine ⟨by decide +kernel, synapse_table_bounded run fun m hm peer call adds => ?_⟩
  rcases List.mem_cons.mp hm with rfl | hm
  · decide +kernel
  · rcases List.mem_cons.mp hm with rfl | hm
    · decide +kernel
    · have last := List.mem_singleton.mp hm
      subst last
      cases call
      have known : (seated.1.getD 2 connected).before.store.synapseForPeer neighbour |>.any
          fun r => decide (r.state ≠ .pruned) := by decide +kernel
      obtain ⟨r, found, live⟩ := (Option.any_eq_true _ _).mp known
      exact absurd (adds r found).1 (of_decide_eq_true live)

def smallTable : NodeSettings ℚ :=
  { NodeSettings.forClass .edge with synapse := { SynapseConfig.default with maxSynapses := 1 } }

theorem smallTable_checked : smallTable.validate ["classical-v1"] = .ok () := by
  rw [NodeSettings.validate_iff]
  obtain ⟨activation, learning, propagation, crypto, synapse⟩ :=
    (NodeSettings.validate_iff _ _).mp (NodeSettings.validate_forClass .edge)
  exact ⟨activation, learning, propagation, crypto, synapse⟩

def smallNode : Node ℚ := ⟨⟨[0]⟩, smallTable.toNodeConfig⟩

def twoPeers : List (Call ℚ) := [.upsertSynapse neighbour, .upsertSynapse ⟨[2]⟩]

def twoJoin : List (Moment ℚ) × NodeState ℚ :=
  runOf smallNode (smallNode.build .new .maximal 0 []) 0 twoPeers

/-- Two peers connect to a node that is configured for one synapse. -/
theorem second_peer_passes_limit :
    ¬ ∀ (settings : NodeSettings ℚ) (identity : NodeId) (ms : List (Moment ℚ)) (s : NodeState ℚ),
      settings.validate ["classical-v1"] = .ok () →
      NodeRun ⟨identity, settings.toNodeConfig⟩ ms s →
      s.store.live.length ≤ settings.synapse.maxSynapses := by
  intro always
  have run : NodeRun smallNode twoJoin.1 twoJoin.2 :=
    runOf_run (NodeRun.start .maximal 0 [] : NodeRun smallNode [] _) 0 twoPeers
  have within := always smallTable ⟨[0]⟩ twoJoin.1 twoJoin.2 smallTable_checked run
  have two : twoJoin.2.store.live.length = 2 := by decide +kernel
  rw [two] at within
  exact absurd within (by decide)

end OpenNtl
