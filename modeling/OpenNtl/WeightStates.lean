import OpenNtl.Settlements
import OpenNtl.WeightBounds

/-! # The state that a weight prescribes

Outcomes and penalties derive the state of a synapse again from its weight. Connecting makes it
active at the initial weight, and normalisation rescales weights and leaves the states.
-/
namespace OpenNtl

open AtomicProgram NodeM

variable {F : Type} [Scalar F]

namespace Node

variable (node : Node F)

def prescribed (weight : F) : SynapseState :=
  if node.config.synapse.activeThreshold ≤ weight then .active
  else if node.config.synapse.dormancyThreshold ≤ weight then .weakening
  else .dormant

/-- A synapse that is neither forming nor pruned is in the state its weight prescribes. -/
def FollowsWeight (r : SynapseRecord F) : Prop :=
  r.state ≠ .forming → r.state ≠ .pruned → r.state = node.prescribed r.weight

def outboundTotal (st : MemoryStore F) : F :=
  Scalar.sum ((st.listSynapses {}).map SynapseRecord.weight)

def Exceeds (st : MemoryStore F) : Prop :=
  ¬ (outboundTotal st ≤ node.config.learning.maxTotalOutboundWeight ∨ outboundTotal st ≤ 0)

/-- If normalisation rescales this table, it takes no weight across a threshold. -/
def ScalesWithin (st : MemoryStore F) : Prop :=
  let c := node.config.learning
  node.Exceeds st → ∀ r ∈ st.listSynapses {}, r.state ≠ .forming → r.state ≠ .pruned →
    node.prescribed (max (r.weight * (c.maxTotalOutboundWeight / outboundTotal st)) c.minWeight) =
      node.prescribed r.weight

end Node

/-- The table with the record that a settlement rewrites, if it finds one. -/
def Settlement.table (node : Node F) (nowNs : ℕ) (x : Settlement F) : Option (MemoryStore F) :=
  (x.state.store.getSynapse x.entry.synapse).map fun r =>
    x.state.store.putSynapse
      (node.reweighed x.entry x.outcome nowNs (node.usedBy x.entry nowNs x.state) r)

inductive Moment.Normalises (node : Node F) (m : Moment F) : MemoryStore F → Prop
  | called (call : m.call = .normalizeOutboundWeights) : Normalises node m m.before.store
  | settled {x : Settlement F} {st : MemoryStore F} (settles : x ∈ m.settlements node)
      (table : x.table node m.before.clock = some st) : Normalises node m st

namespace Node

variable {node : Node F} {r : SynapseRecord F}

theorem ScalesWithin.of_same {st st' : MemoryStore F} (h : node.ScalesWithin st)
    (same : st'.synapses = st.synapses) : node.ScalesWithin st' := by
  have list := MemoryStore.listSynapses_congr same {}
  have total : outboundTotal st' = outboundTotal st := by
    unfold outboundTotal
    rw [list]
  unfold ScalesWithin Exceeds
  rw [list, total]
  exact h

theorem updateState_followsWeight {s : Synapse F}
    (active : s.activeThreshold = node.config.synapse.activeThreshold)
    (dormancy : s.dormancyThreshold = node.config.synapse.dormancyThreshold) :
    node.FollowsWeight s.updateState.toRecord := by
  intro forming pruned
  unfold Synapse.updateState Synapse.toRecord at *
  rw [active, dormancy] at *
  split_ifs at * with kept up mid
  · rcases kept with kept | kept
    · exact absurd kept pruned
    · exact absurd kept forming
  · simp [prescribed, up]
  · simp [prescribed, up, mid]
  · simp [prescribed, up, mid]

theorem reweighed_followsWeight (entry : JournalEntry F) (o : Outcome) (nowNs : ℕ) (used : F) :
    node.FollowsWeight (node.reweighed entry o nowNs used r) :=
  updateState_followsWeight rfl rfl

theorem penalizedRecord_followsWeight (nowNs : ℕ) :
    node.FollowsWeight (node.penalizedRecord nowNs r) := by
  unfold penalizedRecord
  rw [Synapse.applySignatureFailure_eq]
  split_ifs with reached
  · intro forming pruned
    exact absurd rfl pruned
  · exact updateState_followsWeight rfl rfl

theorem active_followsWeight
    (initial : node.config.synapse.activeThreshold ≤ node.config.synapse.initialWeight)
    (state : r.state = .active) (weight : r.weight = node.config.synapse.initialWeight) :
    node.FollowsWeight r := by
  intro _ _
  rw [state, weight]
  unfold prescribed
  rw [if_pos initial]

end Node

section Call

variable {node : Node F} {s : NodeState F} {m : Moment F}

theorem rescale_stored {P : SynapseRecord F → Prop} {total : F} (records : List (SynapseRecord F))
    (each : ∀ r ∈ records, P (node.rescaled total r)) (h : Stored P s.store) :
    Stored P (((records.map fun r => (r, (node.rescaled total r).weight)).forM fun (r, w) =>
      writeStore fun st => st.putSynapse { r with weight := w }).run s).2.store := by
  induction records generalizing s with
  | nil => exact h
  | cons r rest ih =>
    apply Node.callStore_bind_leaves (P := fun t => Stored P t.store)
    · exact h
    · apply ih
      · exact fun x hx => each x (List.mem_cons_of_mem r hx)
      · exact h.put (each r List.mem_cons_self)

theorem normalize_stored {P : SynapseRecord F → Prop}
    (each : node.Exceeds s.store → ∀ r ∈ s.store.listSynapses {},
      P (node.rescaled (Node.outboundTotal s.store) r)) (h : Stored P s.store) :
    Stored P (node.normalizeOutboundWeights.run s).2.store := by
  refine Node.callStore_bind_leaves (P := fun t => Stored P t.store) h ?_
  dsimp only
  split
  · exact h
  · unfold normalizeOutbound
    dsimp only
    split_ifs with fits
    · exact h
    · dsimp only
      rw [List.map_map, ← List.map_prod_left_eq_zip, Prog.run_bind_pure_snd]
      exact rescale_stored (s := s.stored s.store) _ (each fits) h

theorem normalize_followsWeight (level : node.ScalesWithin s.store) (filed : Filed s.store)
    (h : Stored node.FollowsWeight s.store) :
    Stored node.FollowsWeight (node.normalizeOutboundWeights.run s).2.store := by
  refine normalize_stored (fun exceeds r listed forming pruned => ?_) h
  have state := h r.id r (filed.find (Node.mem_listSynapses listed).1) forming pruned
  exact state.trans (level exceeds r listed forming pruned).symm

/-- The table of this settlement may be normalised without taking a weight across a threshold. -/
def Settlement.Level (node : Node F) (nowNs : ℕ) (x : Settlement F) : Prop :=
  ∀ st, x.table node nowNs = some st → node.ScalesWithin st

theorem update_followsWeight {nowNs : ℕ} {x : Settlement F} (level : x.Level node nowNs)
    (filed : Filed x.state.store) (h : Stored node.FollowsWeight x.state.store) :
    Stored node.FollowsWeight
      ((node.updateSynapse x.entry x.outcome nowNs).run x.state).2.store := by
  apply node.updateSynapse_keeps (I := Stored node.FollowsWeight) h
  · exact fun _ synapses _ => h.of_same synapses
  · intro t r found synapses _
    apply normalize_followsWeight
    · refine (level _ ?_).of_same synapses
      unfold Settlement.table
      rw [found]
      rfl
    · exact (filed.put _).of_same synapses
    · exact (h.put (Node.reweighed_followsWeight _ _ _ _)).of_same synapses

theorem learning_followsWeight (performed : m.Performed node) (learns : m.call.Learns)
    (filed : Filed m.before.store)
    (level : ∀ x ∈ m.settlements node, x.Level node m.before.clock)
    (h : Stored node.FollowsWeight m.before.store) :
    Stored node.FollowsWeight m.after.store := by
  refine learning_keeps performed learns filed (I := Stored node.FollowsWeight) ?_ ?_ level h
  · exact fun synapses _ h => h.of_same synapses
  · exact fun x level filed h => update_followsWeight level filed h

theorem moment_followsWeight (performed : m.Performed node)
    (initial : node.config.synapse.activeThreshold ≤ node.config.synapse.initialWeight)
    (filed : Filed m.before.store) (level : ∀ st, m.Normalises node st → node.ScalesWithin st)
    (h : Stored node.FollowsWeight m.before.store) :
    Stored node.FollowsWeight m.after.store := by
  by_cases learns : m.call.Learns
  · refine learning_followsWeight performed learns filed (fun x settles st table => ?_) h
    exact level st (.settled settles table)
  · rcases m.call.reads_or_writes with reads | writes
    · exact h.of_same (reads_keepSynapses performed reads)
    · rw [moment_after performed]
      generalize same : m.call = call at learns writes
      unfold Node.perform
      cases writes with
      | failForward id => exact absurd (.forward id) learns
      | applyReceipt receipt peer => exact absurd (.receipt receipt peer) learns
      | sweepTimeouts limit => exact absurd (.sweep limit) learns
      | normalizeOutboundWeights =>
        rw [Prog.run_map]
        exact normalize_followsWeight (level _ (.called same)) filed h
      | penalizeSignatureFailure id =>
        rw [Prog.run_map]
        rcases node.penalizeSignatureFailure_ends id m.before with ⟨kept, -⟩ | ⟨r, found, -, after⟩
        · dsimp only
          rwa [kept]
        · dsimp only
          rw [after]
          exact h.put (Node.penalizedRecord_followsWeight _)
      | upsertSynapse peer =>
        rw [Prog.run_map]
        apply h.upserted filed (node.upsertSynapse_ends peer m.before)
        · exact fun r _ _ => Node.active_followsWeight initial rfl rfl
        · exact fun r nowNs _ => Node.active_followsWeight initial rfl rfl
        · exact fun nowNs rng => Node.active_followsWeight initial rfl rfl

end Call

/-- The state of every synapse follows from its weight in a run where new synapses are not below
the active threshold and no normalisation takes a weight across a threshold. -/
theorem states_follow_weights {node : Node F} {ms : List (Moment F)} {s : NodeState F}
    (initial : node.config.synapse.activeThreshold ≤ node.config.synapse.initialWeight)
    (run : NodeRun node ms s)
    (level : ∀ m ∈ ms, ∀ st, m.Normalises node st → node.ScalesWithin st) :
    Stored node.FollowsWeight s.store := by
  induction run with
  | start => exact Stored.new
  | restart run restarts ih =>
    obtain ⟨rng, clock, faults, rfl⟩ := restarts.built
    exact ih level
  | @call ms s m run resumes performed ih =>
    have before := ih fun m' hm' => level m' (List.mem_append_left _ hm')
    rw [← resumes.store] at before
    have filed : Filed m.before.store := by
      rw [resumes.store]
      exact run.filed.1
    exact moment_followsWeight performed initial filed (level m (by simp)) before

def tightBudget : NodeSettings ℚ :=
  { NodeSettings.forClass .edge with
    synapse := { SynapseConfig.default with maxWeight := 1 / 10 }
    learning := { LearningConfig.forClass .edge with
      maxWeight := 1 / 10, maxTotalOutboundWeight := 3 / 20 } }

theorem tightBudget_checked : tightBudget.validate ["classical-v1"] = .ok () := by
  rw [NodeSettings.validate_iff]
  obtain ⟨activation, -, propagation, crypto, -⟩ :=
    (NodeSettings.validate_iff _ _).mp (NodeSettings.validate_forClass .edge)
  refine ⟨activation, ?_, propagation, crypto, ?_⟩
  · norm_num [tightBudget, LearningConfig.forClass, LearningConfig.validate, Scalar.lit]
  · norm_num [tightBudget, SynapseConfig.default]

def tightNode : Node ℚ := ⟨⟨[0]⟩, tightBudget.toNodeConfig⟩

def firstJoin : Moment ℚ :=
  tightNode.momentAt (.upsertSynapse ⟨[1]⟩) (tightNode.build .new .maximal 0 [])

def secondJoin : Moment ℚ :=
  tightNode.momentAt (.upsertSynapse ⟨[2]⟩) { firstJoin.after with clock := 1000000, faults := [] }

def squeezed : Moment ℚ :=
  tightNode.momentAt .normalizeOutboundWeights { secondJoin.after with clock := 0, faults := [] }

theorem squeezed_run : NodeRun tightNode [firstJoin, secondJoin, squeezed] squeezed.after :=
  (((NodeRun.start .maximal 0 []).next (.upsertSynapse ⟨[1]⟩) 0 []).next
    (.upsertSynapse ⟨[2]⟩) 1000000 []).next .normalizeOutboundWeights 0 []

/-- Below the active threshold, and active. -/
theorem rescaled_stays_active :
    tightBudget.validate ["classical-v1"] = .ok () ∧
    NodeRun tightNode [firstJoin, secondJoin, squeezed] squeezed.after ∧
    (squeezed.after.store.synapseForPeer ⟨[1]⟩).map (fun r => (r.weight, r.state)) =
      some (3 / 40, .active) ∧
    ¬ Stored tightNode.FollowsWeight squeezed.after.store := by
  have left : (squeezed.after.store.synapseForPeer ⟨[1]⟩).map (fun r => (r.weight, r.state)) =
      some (3 / 40, .active) := by decide +kernel
  refine ⟨tightBudget_checked, squeezed_run, left, fun follows => ?_⟩
  obtain ⟨r, found, same⟩ := Option.map_eq_some_iff.mp left
  obtain ⟨weight, state⟩ := Prod.mk.inj same
  have prescribed := follows.forPeer squeezed_run.filed.1 found (by simp [state]) (by simp [state])
  rw [state, weight] at prescribed
  exact absurd prescribed (by decide +kernel)

/-- Two neighbours at a fifth come to more than the budget as well, and are still active at three
twentieths. -/
def roomyBudget : NodeSettings ℚ :=
  { NodeSettings.forClass .edge with
    synapse := { SynapseConfig.default with initialWeight := 1 / 5, maxWeight := 1 / 5 }
    learning := { LearningConfig.forClass .edge with
      maxWeight := 1 / 5, maxTotalOutboundWeight := 3 / 10 } }

def roomyNode : Node ℚ := ⟨⟨[0]⟩, roomyBudget.toNodeConfig⟩

def roomyFirst : Moment ℚ :=
  roomyNode.momentAt (.upsertSynapse ⟨[1]⟩) (roomyNode.build .new .maximal 0 [])

def roomySecond : Moment ℚ :=
  roomyNode.momentAt (.upsertSynapse ⟨[2]⟩) { roomyFirst.after with clock := 1000000, faults := [] }

def fitted : Moment ℚ :=
  roomyNode.momentAt .normalizeOutboundWeights { roomySecond.after with clock := 0, faults := [] }

theorem fitted_state_follows_weight :
    NodeRun roomyNode [roomyFirst, roomySecond, fitted] fitted.after ∧
    roomyNode.Exceeds fitted.before.store ∧
    (fitted.after.store.synapseForPeer ⟨[1]⟩).map (fun r => (r.weight, r.state)) =
      some (3 / 20, .active) ∧
    Stored roomyNode.FollowsWeight fitted.after.store := by
  have run : NodeRun roomyNode [roomyFirst, roomySecond, fitted] fitted.after :=
    (((NodeRun.start .maximal 0 []).next (.upsertSynapse ⟨[1]⟩) 0 []).next
      (.upsertSynapse ⟨[2]⟩) 1000000 []).next .normalizeOutboundWeights 0 []
  have within : roomyNode.ScalesWithin fitted.before.store := by
    have each : ∀ r ∈ fitted.before.store.listSynapses {},
        roomyNode.prescribed (max (r.weight * (3 / 10 / Node.outboundTotal fitted.before.store))
          roomyNode.config.learning.minWeight) = roomyNode.prescribed r.weight := by
      decide +kernel
    exact fun _ r listed _ _ => each r listed
  refine ⟨run, ?_, by decide +kernel, states_follow_weights (by decide +kernel) run ?_⟩
  · rintro (fits | nothing)
    · exact absurd fits (by decide +kernel)
    · exact absurd nothing (by decide +kernel)
  · intro m hm st normalises
    cases normalises with
    | called call =>
      rcases List.mem_cons.mp hm with rfl | hm
      · cases call
      · rcases List.mem_cons.mp hm with rfl | hm
        · cases call
        · rw [List.mem_singleton.mp hm]
          exact within
    | @settled x st settles table =>
      have none : m.settlements roomyNode = [] := by
        refine settlements_nil fun learns => ?_
        rcases List.mem_cons.mp hm with rfl | hm
        · cases learns
        · rcases List.mem_cons.mp hm with rfl | hm
          · cases learns
          · rw [List.mem_singleton.mp hm] at learns
            cases learns
      rw [none] at settles
      cases settles

end OpenNtl
