import OpenNtl.Config
import OpenNtl.NoAmnesty

/-! # The bounds of a weight

Outcomes, penalties and normalisation each have a floor or a ceiling of their own. Connecting
writes the initial weight as it is.
-/
namespace OpenNtl

open AtomicProgram NodeM

variable {F : Type} [Scalar F]

def Node.InBounds (node : Node F) (r : SynapseRecord F) : Prop :=
  node.config.learning.minWeight ≤ r.weight ∧ r.weight ≤ node.config.synapse.maxWeight

section Writes

variable [SignedScalar F] {node : Node F} {r r' : SynapseRecord F}
  (checked : node.config.learning.validate = .ok ())
  (room : node.config.learning.minWeight ≤ node.config.synapse.maxWeight)

open OrderedScalar SignedScalar

omit [SignedScalar F] in
theorem applyReward_after (weight : F) (o : Outcome) (sw used : F) (c : LearningConfig F) :
    ∃ x, (applyReward weight o sw used c).after = Scalar.clamp x c.minWeight c.maxWeight :=
  ⟨_, rfl⟩

include checked room

theorem reweigh_inBounds {nowNs : ℕ} {applies : SynapseId → Outcome → Prop}
    (rewritten : node.Reweigh nowNs applies r r') (h : node.InBounds r) : node.InBounds r' := by
  obtain ⟨-, -, ceiling, -⟩ := LearningConfig.of_validate checked
  cases rewritten with
  | rescale excess => exact ⟨le_max_right _ _, rescaled_bounded checked ⟨room, h.2⟩ excess⟩
  | outcome entry used applied =>
    unfold Node.InBounds
    rw [Node.reweighed_weight]
    obtain ⟨x, after⟩ := applyReward_after r.weight _ (Scalar.clamp entry.signalWeight 0 1) used
      node.config.learning
    rw [after]
    constructor
    · apply OrderedScalar.le_min
      · exact le_clamp (le_of_lt (lt_iff.mpr ceiling))
      · exact room
    · exact OrderedScalar.min_le_right _ _

theorem penalized_inBounds (nowNs : ℕ) (h : node.InBounds r) :
    node.InBounds (node.penalizedRecord nowNs r) := by
  unfold Node.InBounds
  rw [penalizedRecord_weight]
  constructor
  · exact le_max_right _ _
  · exact penalty_bounded checked ⟨room, h.2⟩

end Writes

section Run

variable [SignedScalar F] {node : Node F} {ms : List (Moment F)} {s : NodeState F}

theorem moment_inBounds (checked : node.config.learning.validate = .ok ())
    (initial : node.config.learning.minWeight ≤ node.config.synapse.initialWeight ∧
      node.config.synapse.initialWeight ≤ node.config.synapse.maxWeight) {m : Moment F}
    (change : TableChange node m) (filed : Filed m.before.store)
    (h : Stored node.InBounds m.before.store) : Stored node.InBounds m.after.store := by
  have room := OrderedScalar.le_trans initial.1 initial.2
  cases change with
  | reweighs other records =>
    exact h.reweighed records fun rewritten => reweigh_inBounds checked room rewritten
  | @penalizes r call found reply after =>
    exact (h.put (penalized_inBounds checked room m.before.clock (h _ r found))).of_same after
  | upserts call change =>
    apply h.upserted filed change
    · exact fun _ _ _ => initial
    · exact fun _ _ _ => initial
    · exact fun _ _ => initial

theorem NodeRun.inBounds (checked : node.config.learning.validate = .ok ())
    (initial : node.config.learning.minWeight ≤ node.config.synapse.initialWeight ∧
      node.config.synapse.initialWeight ≤ node.config.synapse.maxWeight)
    (run : NodeRun node ms s) : Stored node.InBounds s.store := by
  have both := run.tableInvariant (I := Stored node.InBounds) Stored.new fun m change filed h =>
    moment_inBounds checked initial change filed h
  exact both.1.2

omit [SignedScalar F] in
theorem first_connection_stores (node : Node F) (peer : NodeId) :
    ∃ ms s id r, NodeRun node ms s ∧ s.store.getSynapse id = some r ∧
      r.weight = node.config.synapse.initialWeight ∧ r.state = .active := by
  refine ⟨_, _, (node.formedRecord peer 0 .maximal).id, node.formedRecord peer 0 .maximal,
    (NodeRun.start .maximal 0 []).next (.upsertSynapse peer) 0 [], ?_, rfl, rfl⟩
  exact MemoryStore.getSynapse_put_same .new (node.formedRecord peer 0 .maximal)

/-- Every run keeps every weight within its bounds exactly when the initial weight is. -/
theorem weights_in_bounds_iff (identity : NodeId) {settings : NodeSettings F}
    {supportedModules : List String} (checked : settings.validate supportedModules = .ok ()) :
    (∀ ms s, NodeRun ⟨identity, settings.toNodeConfig⟩ ms s →
      ∀ id r, s.store.getSynapse id = some r →
        settings.learning.minWeight ≤ r.weight ∧ r.weight ≤ settings.synapse.maxWeight) ↔
    settings.learning.minWeight ≤ settings.synapse.initialWeight ∧
      settings.synapse.initialWeight ≤ settings.synapse.maxWeight := by
  constructor
  · intro bounded
    obtain ⟨ms, s, id, r, run, found, weight, -⟩ :=
      first_connection_stores ⟨identity, settings.toNodeConfig⟩ identity
    rw [← weight]
    exact bounded ms s run id r found
  · intro initial ms s run
    exact run.inBounds ((settings.validate_iff supportedModules).mp checked).learning initial

end Run

def lowInitial : NodeSettings ℚ :=
  { NodeSettings.forClass .edge with
    synapse := { SynapseConfig.default with initialWeight := 1 / 2000 } }

theorem lowInitial_checked : lowInitial.validate ["classical-v1"] = .ok () := by
  rw [NodeSettings.validate_iff]
  obtain ⟨activation, learning, propagation, crypto, -⟩ :=
    (NodeSettings.validate_iff _ _).mp (NodeSettings.validate_forClass .edge)
  refine ⟨activation, learning, propagation, crypto, ?_⟩
  norm_num [lowInitial, NodeSettings.forClass, NodeConfig.forClass, LearningConfig.forClass,
    SynapseConfig.default, Scalar.lit]

/-- A checked configuration under which the first connection stores a weight below the floor. -/
theorem first_weight_below_floor :
    ∃ (settings : NodeSettings ℚ) (modules : List String) (ms : List (Moment ℚ)) (s : NodeState ℚ)
      (id : SynapseId) (r : SynapseRecord ℚ),
      settings.validate modules = .ok () ∧
      NodeRun ⟨neighbour, settings.toNodeConfig⟩ ms s ∧ s.store.getSynapse id = some r ∧
      r.weight < settings.learning.minWeight := by
  obtain ⟨ms, s, id, r, run, found, weight, -⟩ :=
    first_connection_stores ⟨neighbour, lowInitial.toNodeConfig⟩ ⟨[0]⟩
  refine ⟨lowInitial, _, ms, s, id, r, lowInitial_checked, run, found, ?_⟩
  rw [weight]
  norm_num [lowInitial, NodeSettings.forClass, NodeConfig.forClass, LearningConfig.forClass,
    Scalar.lit]

theorem edge_weights_in_bounds :
    (NodeSettings.forClass (F := ℚ) .edge).validate ["classical-v1"] = .ok () ∧
    ∀ ms s, NodeRun ⟨neighbour, (NodeSettings.forClass (F := ℚ) .edge).toNodeConfig⟩ ms s →
      ∀ id r, s.store.getSynapse id = some r →
        (NodeSettings.forClass (F := ℚ) .edge).learning.minWeight ≤ r.weight ∧
          r.weight ≤ (NodeSettings.forClass (F := ℚ) .edge).synapse.maxWeight := by
  refine ⟨NodeSettings.validate_forClass .edge,
    (weights_in_bounds_iff neighbour (NodeSettings.validate_forClass .edge)).mpr ?_⟩
  norm_num [NodeSettings.forClass, NodeConfig.forClass, LearningConfig.forClass,
    SynapseConfig.default, Scalar.lit]

end OpenNtl
