import OpenNtl.OutboundBudget

/-! # What normalisation leaves alone

Pruned synapses take part in normalisation: their weights count towards the budget, and they are
rescaled with the others.
-/
namespace OpenNtl

open AtomicProgram ExactScalar

variable {F : Type} [Scalar F]

section Scaling

variable {w f m b A L : ℝ}

theorem max_scaled_eq_self_iff (pos : 0 < f) (shrinks : f < 1) (floor : 0 < m) :
    max (w * f) m = w ↔ w = m := by
  constructor
  · intro fixed
    by_cases low : w * f ≤ m
    · rw [max_eq_right low] at fixed
      exact fixed.symm
    · rw [max_eq_left (not_le.mp low).le] at fixed
      nlinarith
  · rintro rfl
    apply max_eq_right
    nlinarith

/-- Scaling from two totals comes to the same if the totals are the same or the floor hides it. -/
theorem max_scaled_eq_iff (floor : 0 < m) (budget : 0 < b) (all : 0 < A) (live : 0 < L) :
    max (w * (b / A)) m = max (w * (b / L)) m ↔
      A = L ∨ w * (b / A) ≤ m ∧ w * (b / L) ≤ m := by
  constructor
  · intro same
    by_cases low : w * (b / A) ≤ m
    · rw [max_eq_right low] at same
      exact Or.inr ⟨low, max_eq_right_iff.mp same.symm⟩
    · have high := not_le.mp low
      rw [max_eq_left high.le] at same
      have other : ¬ w * (b / L) ≤ m := by
        intro less
        rw [max_eq_right less] at same
        exact low same.le
      rw [max_eq_left (not_le.mp other).le] at same
      have weight : w ≠ 0 := by
        rintro rfl
        rw [zero_mul] at high
        linarith
      have factors := mul_left_cancel₀ weight same
      rw [div_eq_div_iff all.ne' live.ne'] at factors
      exact Or.inl (mul_left_cancel₀ budget.ne' factors).symm
  · rintro (rfl | ⟨lowA, lowL⟩)
    · rfl
    · rw [max_eq_right lowA, max_eq_right lowL]

end Scaling

namespace Node

variable (node : Node F)

def Due (st : MemoryStore F) : Prop :=
  node.config.learning.maxTotalOutboundWeight < st.liveTotal

instance decidableDue (st : MemoryStore F) : Decidable (node.Due st) :=
  inferInstanceAs (Decidable (_ < _))

/-- Normalisation as it is meant: after an outcome has been written to its synapse, the live
weights are scaled if they exceed the budget, and nothing else changes. -/
structure RescalesOnlyDue (x : Settlement F) (st after : MemoryStore F) : Prop where
  fits : ¬ node.Due st → ∀ id, id ≠ x.entry.synapse →
    after.getSynapse id = x.state.store.getSynapse id
  due : node.Due st → ∀ id r, id ≠ x.entry.synapse → x.state.store.getSynapse id = some r →
    r.state ≠ .pruned → ∃ r', after.getSynapse id = some r' ∧
      r'.weight = max (r.weight * (node.config.learning.maxTotalOutboundWeight / st.liveTotal))
        node.config.learning.minWeight ∧
      { r' with weight := r.weight, state := r.state } = r
  pruned : ∀ id r, st.getSynapse id = some r → r.state = .pruned → after.getSynapse id = some r

/-- Counting the pruned synapses makes no difference to a record: the weights fit the budget with
them and without them, or the floor hides what they do. -/
structure Undisturbed (x : Settlement F) (st : MemoryStore F) : Prop where
  pruned : node.Exceeds st → ∀ id r, st.getSynapse id = some r → r.state = .pruned →
    r.weight = node.config.learning.minWeight
  early : node.Exceeds st → ¬ node.Due st → ∀ id r, id ≠ x.entry.synapse →
    st.getSynapse id = some r → r.state ≠ .pruned → r.weight = node.config.learning.minWeight
  missed : ¬ node.Exceeds st → node.Due st → ∀ id r, id ≠ x.entry.synapse →
    st.getSynapse id = some r → r.state ≠ .pruned → r.weight = node.config.learning.minWeight
  shared : node.Exceeds st → node.Due st → outboundTotal st = st.liveTotal ∨
    ∀ id r, id ≠ x.entry.synapse → st.getSynapse id = some r → r.state ≠ .pruned →
      r.weight * (node.config.learning.maxTotalOutboundWeight / outboundTotal st) ≤
          node.config.learning.minWeight ∧
        r.weight * (node.config.learning.maxTotalOutboundWeight / st.liveTotal) ≤
          node.config.learning.minWeight

variable {node}

section Difference

variable [ExactDivision F] {st after : MemoryStore F} {x : Settlement F}

theorem floor_and_budget (checked : node.config.learning.validate = .ok ()) :
    0 < toReal node.config.learning.minWeight ∧
      0 < toReal node.config.learning.maxTotalOutboundWeight := by
  obtain ⟨-, floor, ceiling, budget, -⟩ := LearningConfig.of_validate checked
  rw [← toReal_le, not_le] at floor ceiling budget
  rw [toReal_zero] at floor
  exact ⟨floor, by linarith⟩

theorem Exceeds.toReal (exceeds : node.Exceeds st) :
    ExactScalar.toReal node.config.learning.maxTotalOutboundWeight <
      ExactScalar.toReal (outboundTotal st) := by
  rw [← not_le, toReal_le]
  exact fun fits => exceeds (Or.inl fits)

theorem toReal_rescaled (total : F) (r : SynapseRecord F) :
    toReal (node.rescaled total r).weight =
      max (toReal r.weight * (toReal node.config.learning.maxTotalOutboundWeight / toReal total))
        (toReal node.config.learning.minWeight) := by
  unfold rescaled
  simp only [toReal_max, toReal_mul, ExactDivision.toReal_div]

/-- Rescaling from a total above the budget moves every weight but that of the floor. -/
theorem rescaled_weight_iff (checked : node.config.learning.validate = .ok ()) {total : F}
    (above : toReal node.config.learning.maxTotalOutboundWeight < toReal total)
    (r : SynapseRecord F) :
    (node.rescaled total r).weight = r.weight ↔ r.weight = node.config.learning.minWeight := by
  obtain ⟨floor, budget⟩ := floor_and_budget checked
  have positive := budget.trans above
  refine (toReal_injective.eq_iff).symm.trans (Iff.trans ?_ toReal_injective.eq_iff)
  rw [toReal_rescaled]
  exact max_scaled_eq_self_iff (div_pos budget positive) ((div_lt_one positive).mpr above) floor

theorem rescaled_eq_self_iff (checked : node.config.learning.validate = .ok ())
    (exceeds : node.Exceeds st) (r : SynapseRecord F) :
    node.rescaled (outboundTotal st) r = r ↔ r.weight = node.config.learning.minWeight := by
  rw [← rescaled_weight_iff checked exceeds.toReal r]
  constructor
  · intro same
    rw [same]
  · intro same
    unfold rescaled at same ⊢
    dsimp only at same ⊢
    rw [same]

theorem rescaled_agree_iff (checked : node.config.learning.validate = .ok ())
    (exceeds : node.Exceeds st) (due : node.Due st) (r : SynapseRecord F) :
    (node.rescaled (outboundTotal st) r).weight = (node.rescaled st.liveTotal r).weight ↔
      outboundTotal st = st.liveTotal ∨
        r.weight * (node.config.learning.maxTotalOutboundWeight / outboundTotal st) ≤
            node.config.learning.minWeight ∧
          r.weight * (node.config.learning.maxTotalOutboundWeight / st.liveTotal) ≤
            node.config.learning.minWeight := by
  obtain ⟨floor, budget⟩ := floor_and_budget checked
  have all := budget.trans exceeds.toReal
  have live := budget.trans (toReal_lt.mpr due)
  rw [← toReal_injective.eq_iff, toReal_rescaled, toReal_rescaled,
    max_scaled_eq_iff floor budget all live, toReal_injective.eq_iff]
  simp only [← toReal_le (F := F), toReal_mul, ExactDivision.toReal_div]

/-- Normalisation leaves a record as it is, unless it rescales one that is above the floor. -/
theorem normalised_eq_self_iff (checked : node.config.learning.validate = .ok ())
    (r : SynapseRecord F) : node.normalised st r = r ↔
      (node.Exceeds st → r.weight = node.config.learning.minWeight) := by
  unfold normalised
  split_ifs with exceeds
  · rw [rescaled_eq_self_iff checked exceeds]
    exact ⟨fun floor _ => floor, fun floor => floor exceeds⟩
  · exact iff_of_true rfl fun h => absurd h exceeds

/-- Where the live weights are due, it leaves a weight as rescaling by them would. -/
theorem normalised_due_iff (checked : node.config.learning.validate = .ok ())
    (due : node.Due st) (r : SynapseRecord F) :
    (node.normalised st r).weight = (node.rescaled st.liveTotal r).weight ↔
      (¬ node.Exceeds st → r.weight = node.config.learning.minWeight) ∧
        (node.Exceeds st → outboundTotal st = st.liveTotal ∨
          r.weight * (node.config.learning.maxTotalOutboundWeight / outboundTotal st) ≤
              node.config.learning.minWeight ∧
            r.weight * (node.config.learning.maxTotalOutboundWeight / st.liveTotal) ≤
              node.config.learning.minWeight) := by
  unfold normalised
  split_ifs with exceeds
  · rw [rescaled_agree_iff checked exceeds due]
    exact ⟨fun agree => ⟨fun fits => absurd exceeds fits, fun _ => agree⟩, fun h => h.2 exceeds⟩
  · rw [eq_comm, rescaled_weight_iff checked (toReal_lt.mpr due)]
    exact ⟨fun floor => ⟨fun _ => floor, fun h => absurd h exceeds⟩, fun h => h.1 exceeds⟩

omit [ExactDivision F] in
theorem normalised_keeps (r : SynapseRecord F) :
    { node.normalised st r with weight := r.weight, state := r.state } = r := by
  unfold normalised
  split_ifs
  · rfl
  · rfl

/-- What normalisation leaves of a table is as meant exactly if counting the pruned synapses makes
no difference. -/
theorem rescalesOnlyDue_iff (checked : node.config.learning.validate = .ok ())
    (others : ∀ id, id ≠ x.entry.synapse → st.getSynapse id = x.state.store.getSynapse id)
    (left : ∀ id, after.getSynapse id = (st.getSynapse id).map (node.normalised st)) :
    node.RescalesOnlyDue x st after ↔ node.Undisturbed x st := by
  have found : ∀ id r, st.getSynapse id = some r →
      after.getSynapse id = some (node.normalised st r) := by
    intro id r here
    rw [left, here]
    rfl
  constructor
  · intro meant
    -- A record other than the updated one, rescaled because the live weights are due.
    have rescaled : node.Due st → ∀ id r, id ≠ x.entry.synapse → st.getSynapse id = some r →
        r.state ≠ .pruned →
          (node.normalised st r).weight = (node.rescaled st.liveTotal r).weight := by
      intro due id r other here state
      obtain ⟨r', there, weight, -⟩ :=
        meant.due due id r other ((others id other).symm.trans here) state
      obtain rfl := Option.some.inj ((found id r here).symm.trans there)
      exact weight
    constructor
    · intro exceeds id r here state
      have same := (found id r here).symm.trans (meant.pruned id r here state)
      exact (normalised_eq_self_iff checked r).mp (Option.some.inj same) exceeds
    · intro exceeds fits id r other here _
      have kept := (meant.fits fits id other).trans ((others id other).symm.trans here)
      have same := (found id r here).symm.trans kept
      exact (normalised_eq_self_iff checked r).mp (Option.some.inj same) exceeds
    · intro fits due id r other here state
      exact ((normalised_due_iff checked due r).mp (rescaled due id r other here state)).1 fits
    · intro exceeds due
      refine or_iff_not_imp_left.mpr fun differ id r other here state => ?_
      have agree := (normalised_due_iff checked due r).mp (rescaled due id r other here state)
      exact (agree.2 exceeds).resolve_left differ
  · intro undisturbed
    constructor
    · intro fits id other
      rw [← others id other]
      cases here : st.getSynapse id with
      | none => rw [left, here, Option.map_none]
      | some r =>
        rw [found id r here, (normalised_eq_self_iff checked r).mpr fun exceeds => ?_]
        by_cases state : r.state = .pruned
        · exact undisturbed.pruned exceeds id r here state
        · exact undisturbed.early exceeds fits id r other here state
    · intro due id r other before state
      have here := (others id other).trans before
      refine ⟨_, found id r here, (normalised_due_iff checked due r).mpr ⟨?_, ?_⟩,
        normalised_keeps r⟩
      · exact fun fits => undisturbed.missed fits due id r other here state
      · intro exceeds
        exact (undisturbed.shared exceeds due).imp_right fun low => low id r other here state
    · intro id r here state
      rw [found id r here, (normalised_eq_self_iff checked r).mpr fun exceeds => ?_]
      exact undisturbed.pruned exceeds id r here state

end Difference
end Node

section Outcomes

variable {node : Node F} {m : Moment F}

theorem settlements_filed (performed : m.Performed node) (filed : Filed m.before.store) :
    ∀ x ∈ m.settlements node, Filed x.state.store :=
  settlements_each performed (K := fun s => Filed s.store) (fun _ filed => filed)
    (fun id outcome _ filed => Node.settle_filed filed id outcome _)
    (fun by' filed => filed.of_same by'.synapses) filed

/-- Whenever an outcome has been weighed in, nothing but an exceeded live budget has rescaled the
other synapses if and only if counting the pruned ones makes no difference. -/
theorem rescales_only_due_iff [ExactDivision F] {ms : List (Moment F)} {s : NodeState F}
    (run : NodeRun node ms s) (checked : node.config.learning.validate = .ok ()) (here : m ∈ ms)
    {x : Settlement F} (settles : x ∈ m.settlements node) {update : WeightUpdate F}
    {t : NodeState F}
    (weighed : (node.updateSynapse x.entry x.outcome m.before.clock).run x.state =
      (.ok update, t)) :
    (x.table node m.before.clock = none → t.store.synapses = x.state.store.synapses) ∧
    ∀ st, x.table node m.before.clock = some st →
      (node.RescalesOnlyDue x st t.store ↔ node.Undisturbed x st) := by
  have filed := settlements_filed (run.performed m here) (run.filed.2 m here) x settles
  have cases := update_completes filed weighed
  refine ⟨fun missing => ?_, fun st table => ?_⟩
  · rcases cases with ⟨-, same⟩ | ⟨st, table, -⟩
    · exact same
    · rw [missing] at table
      cases table
  · rcases cases with ⟨missing, -⟩ | ⟨st', table', left⟩
    · rw [missing] at table
      cases table
    · obtain rfl := Option.some.inj (table'.symm.trans table)
      refine Node.rescalesOnlyDue_iff checked (fun id other => ?_) left
      obtain ⟨r, found, rfl⟩ := Option.map_eq_some_iff.mp table
      refine MemoryStore.getSynapse_put_other ?_
      rw [node.reweighed_id, filed _ r found]
      exact other

end Outcomes

/-- Two weights of a tenth fit this budget. A first bad signature prunes. -/
def crowdedBudget : NodeSettings ℚ :=
  { NodeSettings.forClass .edge with
    synapse := { SynapseConfig.default with maxWeight := 1 / 10 }
    learning := { LearningConfig.forClass .edge with
      maxWeight := 1 / 10, maxTotalOutboundWeight := 1 / 5, signatureFailurePruneThreshold := 1 } }

theorem crowdedBudget_checked : crowdedBudget.validate ["classical-v1"] = .ok () := by
  rw [NodeSettings.validate_iff]
  obtain ⟨activation, -, propagation, crypto, -⟩ :=
    (NodeSettings.validate_iff _ _).mp (NodeSettings.validate_forClass .edge)
  refine ⟨activation, ?_, propagation, crypto, ?_⟩
  · norm_num [crowdedBudget, LearningConfig.forClass, LearningConfig.validate, Scalar.lit]
  · norm_num [crowdedBudget, SynapseConfig.default]

def crowdedNode : Node ℚ := ⟨⟨[0]⟩, crowdedBudget.toNodeConfig⟩

/-- Three live synapses come to more than the budget after a failed transmission over the first. -/
def filling : List (Call ℚ) :=
  [.upsertSynapse neighbour, .upsertSynapse ⟨[2]⟩, .upsertSynapse ⟨[3]⟩, .receiveLocal direct,
    .failForward ⟨1⟩]

def overfull : List (Moment ℚ) × NodeState ℚ :=
  runOf crowdedNode (crowdedNode.build .new .maximal 0 []) 0 filling

theorem overfull_run : NodeRun crowdedNode overfull.1 overfull.2 :=
  runOf_run (NodeRun.start .maximal 0 [] : NodeRun crowdedNode [] _) 0 filling

theorem uncrowded_rescales_only_due :
    ∃ (m : Moment ℚ) (x : Settlement ℚ) (st : MemoryStore ℚ) (update : WeightUpdate ℚ)
      (t : NodeState ℚ), m ∈ overfull.1 ∧ x ∈ m.settlements crowdedNode ∧
      (crowdedNode.updateSynapse x.entry x.outcome m.before.clock).run x.state = (.ok update, t) ∧
      crowdedNode.Due st ∧ crowdedNode.RescalesOnlyDue x st t.store := by
  have last : overfull.1[4]? = some (overfull.1.getD 4 connected) := rfl
  have here := List.mem_of_getElem? last
  have facts : ((overfull.1.getD 4 connected).settlements crowdedNode).any (fun x =>
      ((crowdedNode.updateSynapse x.entry x.outcome (overfull.1.getD 4 connected).before.clock).run
        x.state).1.isOk &&
      (x.table crowdedNode (overfull.1.getD 4 connected).before.clock).any fun st =>
        decide (crowdedNode.Exceeds st ∧ crowdedNode.Due st ∧
          Node.outboundTotal st = st.liveTotal ∧
          ∀ r ∈ st.synapses.values, r.state ≠ .pruned)) = true := by
    decide +kernel
  obtain ⟨x, settles, fact⟩ := List.any_eq_true.mp facts
  obtain ⟨ok, fact⟩ := Bool.and_eq_true_iff.mp fact
  obtain ⟨st, table, fits⟩ := (Option.any_eq_true _ _).mp fact
  obtain ⟨exceeds, due, same, live⟩ := of_decide_eq_true fits
  rcases weighed : (crowdedNode.updateSynapse x.entry x.outcome
    (overfull.1.getD 4 connected).before.clock).run x.state with ⟨_ | update, t⟩
  · rw [weighed] at ok
    cases ok
  · refine ⟨_, x, st, update, t, here, settles, weighed, due, ?_⟩
    have checked : crowdedNode.config.learning.validate = .ok () :=
      ((NodeSettings.validate_iff _ _).mp crowdedBudget_checked).learning
    refine ((rescales_only_due_iff overfull_run checked here settles weighed).2 st table).mpr ?_
    constructor
    · intro _ id r found pruned
      exact absurd pruned (live r (HashMap.mem_values_of_lookup found))
    · exact fun _ fits => absurd due fits
    · exact fun fits => absurd exceeds fits
    · exact fun _ _ => Or.inl same

/-- Three synapses, of which the last is pruned, and a failed transmission over the first. -/
def pruning : List (Call ℚ) :=
  [.upsertSynapse neighbour, .upsertSynapse ⟨[2]⟩, .upsertSynapse ⟨[3]⟩,
    .penalizeSignatureFailure (crowdedNode.formedRecord ⟨[3]⟩ 2000000 .maximal).id,
    .receiveLocal direct, .failForward ⟨1⟩]

def thinned : List (Moment ℚ) × NodeState ℚ :=
  runOf crowdedNode (crowdedNode.build .new .maximal 0 []) 0 pruning

theorem thinned_run : NodeRun crowdedNode thinned.1 thinned.2 :=
  runOf_run (NodeRun.start .maximal 0 [] : NodeRun crowdedNode [] _) 0 pruning

/-- The live weights fit the budget, and the synapse that nothing has happened to loses weight. -/
theorem pruned_synapse_rescales_others :
    ¬ ∀ (settings : NodeSettings ℚ) (identity : NodeId) (ms : List (Moment ℚ)) (s : NodeState ℚ),
      settings.validate ["classical-v1"] = .ok () →
      NodeRun ⟨identity, settings.toNodeConfig⟩ ms s → ∀ m ∈ ms,
      ∀ x ∈ m.settlements ⟨identity, settings.toNodeConfig⟩, ∀ update t,
      (Node.updateSynapse ⟨identity, settings.toNodeConfig⟩ x.entry x.outcome m.before.clock).run
        x.state = (.ok update, t) →
      ∀ st, x.table ⟨identity, settings.toNodeConfig⟩ m.before.clock = some st →
        Node.RescalesOnlyDue ⟨identity, settings.toNodeConfig⟩ x st t.store := by
  intro always
  have last : thinned.1[5]? = some (thinned.1.getD 5 connected) := rfl
  have facts : ((thinned.1.getD 5 connected).settlements crowdedNode).any (fun x =>
      (x.table crowdedNode (thinned.1.getD 5 connected).before.clock).any fun st =>
        decide (¬ crowdedNode.Due st ∧
          ((crowdedNode.updateSynapse x.entry x.outcome
            (thinned.1.getD 5 connected).before.clock).run x.state).1.isOk = true ∧
          (crowdedNode.formedRecord ⟨[2]⟩ 1000000 .maximal).id ≠ x.entry.synapse ∧
          (((crowdedNode.updateSynapse x.entry x.outcome
            (thinned.1.getD 5 connected).before.clock).run x.state).2.store.getSynapse
              (crowdedNode.formedRecord ⟨[2]⟩ 1000000 .maximal).id).map SynapseRecord.weight ≠
            (x.state.store.getSynapse
              (crowdedNode.formedRecord ⟨[2]⟩ 1000000 .maximal).id).map SynapseRecord.weight)) =
      true := by
    decide +kernel
  obtain ⟨x, settles, fact⟩ := List.any_eq_true.mp facts
  obtain ⟨st, table, fact⟩ := (Option.any_eq_true _ _).mp fact
  obtain ⟨due, ok, other, differs⟩ := of_decide_eq_true fact
  rcases weighed : (crowdedNode.updateSynapse x.entry x.outcome
    (thinned.1.getD 5 connected).before.clock).run x.state with ⟨_ | update, t⟩
  · rw [weighed] at ok
    cases ok
  · have meant := always crowdedBudget ⟨[0]⟩ thinned.1 thinned.2 crowdedBudget_checked thinned_run _
      (List.mem_of_getElem? last) x settles update t weighed st table
    rw [weighed] at differs
    rw [meant.fits due _ other] at differs
    exact differs rfl

end OpenNtl
