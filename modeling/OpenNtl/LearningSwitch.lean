import OpenNtl.BudgetFrame
import OpenNtl.InfluenceCap

/-! # The switch for learning

Nothing reads `enabled`. What a node does is the same with learning on and off, and with learning
off it changes nothing only where there is nothing left to learn.
-/
namespace OpenNtl

open AtomicProgram NodeM ExactScalar

variable {F : Type} [Scalar F]

def Node.withLearning (node : Node F) (enabled : Bool) : Node F :=
  { node with config :=
    { node.config with learning := { node.config.learning with enabled := enabled } } }

theorem Node.withLearning_perform (node : Node F) (enabled : Bool) (call : Call F) :
    (node.withLearning enabled).perform call = node.perform call := by
  cases call <;> rfl

theorem NodeRun.withLearning {node : Node F} {ms : List (Moment F)} {s : NodeState F}
    (run : NodeRun node ms s) (enabled : Bool) : NodeRun (node.withLearning enabled) ms s := by
  induction run with
  | start rng clock faults => exact .start rng clock faults
  | restart _ restarts ih =>
    apply ih.restart
    obtain ⟨rng, clock, faults, built⟩ := restarts.built
    exact ⟨rng, clock, faults, built⟩
  | @call ms s m _ resumes performed ih =>
    apply ih.call resumes
    unfold Moment.Performed
    rw [node.withLearning_perform]
    exact performed

def SynapseRecord.lesson (r : SynapseRecord F) : F × HashMap String ℕ × SynapseState :=
  (r.weight, r.typeAffinity, r.state)

/-- The same synapses with the same weight, affinity and state, and no peer charged. -/
structure Unlearned (st st' : MemoryStore F) : Prop where
  lessons : ∀ id, (st'.getSynapse id).map SynapseRecord.lesson =
    (st.getSynapse id).map SynapseRecord.lesson
  influence : st'.influence = st.influence

namespace Unlearned

variable {st st' st'' : MemoryStore F}

omit [Scalar F]

theorem of_same (synapses : st'.synapses = st.synapses) (influence : st'.influence = st.influence) :
    Unlearned st st' :=
  ⟨fun id => by rw [MemoryStore.getSynapse_congr synapses], influence⟩

theorem refl (st : MemoryStore F) : Unlearned st st := of_same rfl rfl

theorem trans (first : Unlearned st st') (second : Unlearned st' st'') : Unlearned st st'' :=
  ⟨fun id => (second.lessons id).trans (first.lessons id), second.influence.trans first.influence⟩

theorem put (h : Unlearned st st') {r s : SynapseRecord F} (found : st.getSynapse s.id = some r)
    (same : s.lesson = r.lesson) : Unlearned st (st'.putSynapse s) := by
  refine ⟨fun id => ?_, h.influence⟩
  by_cases here : id = s.id
  · subst here
    rw [MemoryStore.getSynapse_put_same, found, Option.map_some, Option.map_some, same]
  · rw [MemoryStore.getSynapse_put_other here]
    exact h.lessons id

end Unlearned

namespace Node

variable (node : Node F)

/-- The signal weight is a number, and the record already is where the outcome would take it: a
delivery finds no reward to give, an exhausted influence or the highest weight, and evidence for all
of the type, and a failure finds no loss to inflict or the lowest weight. -/
structure Saturated (entry : JournalEntry F) (outcome : Outcome) (used : F)
    (r : SynapseRecord F) : Prop where
  number : Scalar.isFinite entry.signalWeight = true
  floor : node.config.learning.minWeight ≤ r.weight
  ceiling : r.weight ≤ node.config.learning.maxWeight
  lid : r.weight ≤ node.config.synapse.maxWeight
  state : node.FollowsWeight r
  delivered : outcome = .delivered →
    (entry.signalWeight ≤ 0 ∨ node.config.learning.influenceCapPerPeer ≤ used ∨
        node.config.learning.maxWeight ≤ r.weight) ∧
      1 ≤ (Synapse.fromRecord r node.config.synapse).affinityFor (signalTypeNameOf entry.signalType)
  failed : outcome ≠ .delivered →
    entry.signalWeight ≤ 0 ∨ r.weight ≤ node.config.learning.minWeight

variable {node} [ExactDivision F] {entry : JournalEntry F} {outcome : Outcome} {used : F}
  {r : SynapseRecord F}

omit [ExactDivision F] in
theorem clamp_unit_spent [ExactScalar F] {x : F} (spent : x ≤ 0) :
    toReal (Scalar.clamp x 0 (1 : F)) = 0 := by
  have spent' := toReal_le.mpr spent
  rw [toReal_zero] at spent'
  rw [toReal_clamp zero_le_one_exact, toReal_zero, toReal_one, min_eq_right (by linarith),
    max_eq_left spent']

/-- The rule does not move the weight of a saturated record, moves it up at the ceiling, or moves
it down at the floor. -/
theorem Saturated.moves (checked : Checked node.config.learning)
    (saturated : node.Saturated entry outcome used r) :
    ∃ delta, toReal (node.updateOf entry outcome used r).after =
        max (toReal node.config.learning.minWeight)
          (min (toReal node.config.learning.maxWeight) (toReal r.weight + delta)) ∧
      (delta = 0 ∨ 0 ≤ delta ∧ toReal node.config.learning.maxWeight ≤ toReal r.weight ∨
        delta ≤ 0 ∧ toReal r.weight ≤ toReal node.config.learning.minWeight) := by
  obtain ⟨delta, after, -, cases⟩ := updateOf_exact checked entry outcome used r
  refine ⟨delta, after, ?_⟩
  have signal := clamp_unit_nonneg entry.signalWeight
  have rate := checked.rate
  simp only [toReal_mul] at cases
  have none : entry.signalWeight ≤ 0 → delta = 0 := by
    intro spent
    rw [clamp_unit_spent spent, mul_zero] at cases
    rcases cases with ⟨-, same⟩ | ⟨up, -⟩ | ⟨up, -⟩
    · exact same
    · exact absurd up (lt_irrefl 0)
    · exact absurd up (lt_irrefl 0)
  by_cases delivery : outcome = .delivered
  · have gain : 0 ≤ toReal node.config.learning.learningRate * toReal (outcome.reward (F := F)) *
        toReal (Scalar.clamp entry.signalWeight 0 1) := by
      rw [delivery, Outcome.reward, toReal_lit]
      norm_num
      exact mul_nonneg rate.le signal
    rcases (saturated.delivered delivery).1 with spent | exhausted | top
    · exact Or.inl (none spent)
    · have exhausted' := toReal_le.mpr exhausted
      left
      rcases cases with ⟨low, same⟩ | ⟨-, -, same⟩ | ⟨-, left, -⟩
      · exact same.trans (le_antisymm low gain)
      · exact same
      · linarith
    · refine Or.inr (Or.inl ⟨?_, toReal_le.mpr top⟩)
      rcases cases with ⟨-, same⟩ | ⟨-, -, same⟩ | ⟨up, left, same⟩
      · exact gain.trans same.ge
      · exact same.ge
      · rw [same]
        exact le_min up.le left.le
  · rcases saturated.failed delivery with spent | bottom
    · exact Or.inl (none spent)
    · have loss := mul_nonpos_of_nonpos_of_nonneg
        (mul_nonpos_of_nonneg_of_nonpos rate.le (reward_nonpos_exact (F := F) delivery)) signal
      refine Or.inr (Or.inr ⟨?_, toReal_le.mpr bottom⟩)
      rcases cases with ⟨low, same⟩ | ⟨up, -⟩ | ⟨up, -⟩
      · exact same.le.trans low
      · exact absurd up (not_lt.mpr loss)
      · exact absurd up (not_lt.mpr loss)

theorem Saturated.weight (checked : Checked node.config.learning)
    (saturated : node.Saturated entry outcome used r) :
    (node.updateOf entry outcome used r).after = r.weight := by
  obtain ⟨delta, after, moves⟩ := saturated.moves checked
  have floor := toReal_le.mpr saturated.floor
  have ceiling := toReal_le.mpr saturated.ceiling
  apply toReal_injective
  rw [after]
  rcases moves with same | ⟨up, top⟩ | ⟨down, bottom⟩
  · rw [same, add_zero, min_eq_right ceiling, max_eq_right floor]
  · rw [min_eq_left (by linarith), max_eq_right (by linarith)]
    linarith
  · rw [min_eq_right (by linarith), max_eq_left (by linarith)]
    linarith

theorem Saturated.uncharged (checked : Checked node.config.learning)
    (saturated : node.Saturated entry outcome used r) :
    ¬ Charged (node.updateOf entry outcome used r) := by
  obtain ⟨delta, -, applied, -⟩ := updateOf_exact checked entry outcome used r
  unfold Charged Scalar.epsilon
  rw [← toReal_lt, toReal_lit, toReal_abs, applied, saturated.weight checked, sub_self, abs_zero]
  norm_num

theorem Saturated.affinity (checked : Checked node.config.learning)
    (saturated : node.Saturated entry outcome used r) :
    ¬ (Synapse.fromRecord r node.config.synapse).affinityFor (signalTypeNameOf entry.signalType) <
      applyAffinityUpdate
        ((Synapse.fromRecord r node.config.synapse).affinityFor (signalTypeNameOf entry.signalType))
        outcome node.config.learning := by
  have nonneg : 0 ≤ toReal ((Synapse.fromRecord r node.config.synapse).affinityFor
      (signalTypeNameOf entry.signalType)) := by
    unfold Synapse.affinityFor
    dsimp only
    split_ifs
    · rw [toReal_zero]
    · rw [ExactDivision.toReal_div, toReal_lit, toReal_lit]
      positivity
  by_cases delivery : outcome = .delivered
  · have whole := toReal_le.mpr (saturated.delivered delivery).2
    rw [toReal_one] at whole
    unfold applyAffinityUpdate
    rw [← toReal_lt, toReal_clamp zero_le_one_exact, toReal_zero, toReal_one, not_lt]
    exact max_le nonneg ((min_le_left _ _).trans whole)
  · unfold applyAffinityUpdate
    rw [← toReal_lt, toReal_clamp zero_le_one_exact, toReal_zero, toReal_one, not_lt]
    apply max_le nonneg
    apply (min_le_right _ _).trans
    rw [toReal_add, toReal_mul]
    have loss := mul_nonpos_of_nonneg_of_nonpos checked.rate.le (reward_nonpos_exact (F := F) delivery)
    linarith

omit [ExactDivision F] in
theorem FollowsWeight.updateState (follows : node.FollowsWeight r) :
    (Synapse.fromRecord r node.config.synapse).updateState =
      Synapse.fromRecord r node.config.synapse := by
  have derived : ∀ {state}, r.state = state →
      { Synapse.fromRecord r node.config.synapse with state := state } =
        Synapse.fromRecord r node.config.synapse := by
    rintro state rfl
    rfl
  unfold Synapse.updateState
  split_ifs with kept active weakening
  · rfl
  all_goals
    have state := follows (fun h => kept (Or.inr h)) (fun h => kept (Or.inl h))
    unfold prescribed at state
    apply derived
  · exact state.trans (if_pos active)
  · exact state.trans ((if_neg active).trans (if_pos weakening))
  · exact state.trans ((if_neg active).trans (if_neg weakening))

theorem Saturated.lesson (checked : Checked node.config.learning) (nowNs : ℕ)
    (saturated : node.Saturated entry outcome used r) :
    (node.reweighed entry outcome nowNs used r).lesson = r.lesson := by
  have weight : min (node.updateOf entry outcome used r).after node.config.synapse.maxWeight =
      r.weight := by
    rw [saturated.weight checked]
    apply toReal_injective
    rw [toReal_min, min_eq_left (toReal_le.mpr saturated.lid)]
  unfold reweighed Synapse.applyOutcome
  dsimp only
  rw [if_neg (saturated.affinity checked)]
  have kept : { Synapse.fromRecord r node.config.synapse with
      weight := min (node.updateOf entry outcome used r).after node.config.synapse.maxWeight } =
      Synapse.fromRecord r node.config.synapse := by
    rw [weight]
    rfl
  have step := congrArg Synapse.updateState kept
  rw [saturated.state.updateState] at step
  exact congrArg (fun y => ({ y with lastActiveNs := nowNs } : Synapse F).toRecord.lesson) step

omit [ExactDivision F] in
theorem rescale_unlearned {st : MemoryStore F} {total : F} (records : List (SynapseRecord F))
    (each : ∀ r ∈ records, st.getSynapse r.id = some r ∧ node.rescaled total r = r)
    {s : NodeState F} (h : Unlearned st s.store) :
    Unlearned st (((records.map fun r => (r, (node.rescaled total r).weight)).forM fun (r, w) =>
      writeStore fun st => st.putSynapse { r with weight := w }).run s).2.store := by
  induction records generalizing s with
  | nil => exact h
  | cons r rest ih =>
    apply callStore_bind_leaves (P := fun t => Unlearned st t.store)
    · exact h
    · apply ih
      · exact fun x hx => each x (List.mem_cons_of_mem r hx)
      · obtain ⟨found, same⟩ := each r List.mem_cons_self
        exact h.put (s := { r with weight := (node.rescaled total r).weight }) found
          (congrArg SynapseRecord.lesson same)

/-- A table in the budget, or at the floor throughout, is normalised to the same weights. -/
theorem normalize_unlearned (checked : node.config.learning.validate = .ok ()) {s : NodeState F}
    (filed : Filed s.store)
    (floor : node.Exceeds s.store → ∀ id r, s.store.getSynapse id = some r →
      r.weight = node.config.learning.minWeight) :
    Unlearned s.store (node.normalizeOutboundWeights.run s).2.store := by
  refine callStore_bind_leaves (P := fun t => Unlearned s.store t.store) (.refl _) ?_
  dsimp only
  split
  · exact .refl _
  · unfold normalizeOutbound
    dsimp only
    split_ifs with fits
    · exact .refl _
    · dsimp only
      rw [List.map_map, ← List.map_prod_left_eq_zip, Prog.run_bind_pure_snd]
      refine rescale_unlearned (s := s.stored s.store) _ (fun r listed => ?_) (.refl _)
      have found := filed.find (mem_listSynapses listed).1
      exact ⟨found, (rescaled_eq_self_iff checked fits r).mpr (floor fits r.id r found)⟩

end Node

theorem Node.Exceeds.of_same {node : Node F} {st st' : MemoryStore F} (h : node.Exceeds st)
    (same : st'.synapses = st.synapses) : node.Exceeds st' := by
  have list := MemoryStore.listSynapses_congr same {}
  unfold Node.Exceeds Node.outboundTotal
  rw [list]
  exact h

/-- The outcome finds no record, or a record and a table that it leaves as they are. -/
structure Settlement.Futile (node : Node F) (nowNs : ℕ) (x : Settlement F) : Prop where
  record : ∀ r, x.state.store.getSynapse x.entry.synapse = some r →
    node.Saturated x.entry x.outcome (node.usedBy x.entry nowNs x.state) r
  table : ∀ st, x.table node nowNs = some st → node.Exceeds st →
    ∀ id r, st.getSynapse id = some r → r.weight = node.config.learning.minWeight

section Calls

variable [ExactDivision F] {node : Node F} {m : Moment F}

theorem update_unlearned (checked : node.config.learning.validate = .ok ()) {nowNs : ℕ}
    {x : Settlement F} (futile : x.Futile node nowNs) (filed : Filed x.state.store) :
    Unlearned x.state.store
      ((node.updateSynapse x.entry x.outcome nowNs).run x.state).2.store := by
  have uncharged : ∀ {r}, x.state.store.getSynapse x.entry.synapse = some r →
      ∀ {influence}, Node.chargedTo x.entry (node.updateOf x.entry x.outcome
        (node.usedBy x.entry nowNs x.state) r) nowNs influence = influence :=
    fun found => if_neg ((futile.record _ found).uncharged (.of_validate checked))
  apply node.updateSynapse_keeps (I := Unlearned x.state.store) (.refl _)
  · intro t r found synapses influence
    rw [uncharged found] at influence
    exact .of_same synapses influence
  · intro t r found synapses influence
    rw [uncharged found] at influence
    have kept : Unlearned x.state.store t.store := by
      refine (Unlearned.put (.refl _) ?_ ((futile.record r found).lesson (.of_validate checked)
        nowNs)).trans (.of_same synapses influence)
      rw [node.reweighed_id, filed _ r found]
      exact found
    refine kept.trans (Node.normalize_unlearned checked ?_ ?_)
    · exact (filed.put _).of_same synapses
    · intro exceeds id r' found'
      rw [MemoryStore.getSynapse_congr synapses] at found'
      refine futile.table _ ?_ (exceeds.of_same synapses.symm) id r' found'
      unfold Settlement.table
      rw [found]
      rfl

theorem learning_unlearned (checked : node.config.learning.validate = .ok ())
    (performed : m.Performed node) (filed : Filed m.before.store) (learns : m.call.Learns)
    (futile : ∀ x ∈ m.settlements node, x.Futile node m.before.clock) :
    Unlearned m.before.store m.after.store := by
  refine learning_keeps performed learns filed (I := Unlearned m.before.store) ?_ ?_ futile
    (.refl _)
  · exact fun synapses influence h => h.trans (.of_same synapses influence)
  · exact fun x futile filed h => h.trans (update_unlearned checked futile filed)

omit [ExactDivision F] in
theorem reading_unlearned (performed : m.Performed node) (reads : m.call.Reads) :
    Unlearned m.before.store m.after.store := by
  apply Unlearned.of_same (reads_keepSynapses performed reads)
  have other : ¬ m.call.Learns := by
    intro learns
    generalize m.call = call at reads learns
    cases learns <;> cases reads
  rw [moment_after performed]
  exact KeepsInfluence.run (node.perform_keepsInfluence other) m.before

end Calls

theorem NodeRun.stretch {node : Node F} {R : MemoryStore F → MemoryStore F → Prop}
    (trans : ∀ {a b c}, R a b → R b c → R a c) {before ms : List (Moment F)} {m : Moment F}
    {s : NodeState F} (run : NodeRun node (before ++ m :: ms) s)
    (each : ∀ y ∈ m :: ms, R y.before.store y.after.store) : R m.before.store s.store := by
  generalize same : before ++ m :: ms = all at run
  induction run generalizing ms with
  | start rng clock faults => simp at same
  | restart _ restarts ih =>
    obtain ⟨rng, clock, faults, rfl⟩ := restarts.built
    exact ih each same
  | @call earlier s last _ resumes performed ih =>
    rcases ms.eq_nil_or_concat with rfl | ⟨ms', y, rfl⟩
    · obtain rfl := List.singleton_inj.mp (List.append_inj' same rfl).2
      exact each m List.mem_cons_self
    · rw [List.concat_eq_append, ← List.cons_append, ← List.append_assoc] at same
      obtain ⟨rfl, here⟩ := List.append_inj' same rfl
      obtain rfl := List.singleton_inj.mp here
      have first := ih (fun z hz => each z (by simp at hz ⊢; tauto)) rfl
      rw [← resumes.store] at first
      exact trans first (each y (by simp))

def Call.Routes (call : Call F) : Prop := call.Reads ∨ call.Learns

/-- A stretch of routing in which no outcome has anything to teach. -/
def Futile (node : Node F) (ms : List (Moment F)) : Prop :=
  ∀ m ∈ ms, ∀ x ∈ m.settlements node, x.Futile node m.before.clock

/-- With learning switched off each decision is journalled and resolved as with learning on, and
nothing is learned where nothing is left to learn. -/
theorem nothing_learned_while_off [ExactDivision F] {node : Node F}
    (checked : node.config.learning.validate = .ok ()) {before ms : List (Moment F)} {m : Moment F}
    {s : NodeState F} (run : NodeRun (node.withLearning false) (before ++ m :: ms) s)
    (routes : ∀ y ∈ m :: ms, y.call.Routes)
    (futile : Futile (node.withLearning false) (m :: ms)) :
    Unlearned m.before.store s.store ∧
      NodeRun (node.withLearning true) (before ++ m :: ms) s := by
  have valid : (node.withLearning false).config.learning.validate = .ok () := checked
  constructor
  · refine run.stretch (R := Unlearned) Unlearned.trans fun y hy => ?_
    have member : y ∈ before ++ m :: ms := List.mem_append_right _ hy
    have performed := run.performed y member
    rcases routes y hy with reads | learns
    · exact reading_unlearned performed reads
    · exact learning_unlearned valid performed (run.filed.2 y member) learns (futile y hy)
  · exact run.withLearning true

namespace Node

variable (node : Node ℚ)

def joining : Moment ℚ := node.momentAt (.upsertSynapse neighbour) (node.build .new .maximal 0 [])

def routing : Moment ℚ :=
  node.momentAt (.receiveLocal direct) { node.joining.after with clock := 0, faults := [] }

def losing : Moment ℚ :=
  node.momentAt (.failForward ⟨1⟩) { node.routing.after with clock := 0, faults := [] }

theorem losing_run : NodeRun node ([node.joining] ++ node.routing :: [node.losing])
    node.losing.after :=
  (((NodeRun.start .maximal 0 []).next (.upsertSynapse neighbour) 0 []).next
    (.receiveLocal direct) 0 []).next (.failForward ⟨1⟩) 0 []

theorem losing_routes : ∀ m ∈ node.routing :: [node.losing], m.call.Routes := by
  intro m hm
  rcases List.mem_pair.mp hm with rfl | rfl
  · exact Or.inl (.receiveLocal direct)
  · exact Or.inr (.forward ⟨1⟩)

end Node

def flooring : NodeSettings ℚ :=
  { NodeSettings.forClass .edge with
    synapse := { SynapseConfig.default with
      initialWeight := 1 / 1000, activeThreshold := 1 / 1000, dormancyThreshold := 1 / 2000 } }

def flooringNode : Node ℚ := ⟨⟨[0]⟩, flooring.toNodeConfig⟩

/-- A failed transmission over a synapse at the floor is weighed in and changes nothing. -/
theorem failure_at_floor_teaches_nothing :
    ((flooringNode.withLearning false).losing.settlements (flooringNode.withLearning false)) ≠ [] ∧
    Unlearned (flooringNode.withLearning false).routing.before.store
      (flooringNode.withLearning false).losing.after.store := by
  let node := flooringNode.withLearning false
  have checked : flooringNode.config.learning.validate = .ok () := edgeNode_checked
  have facts : (node.losing.settlements node).all (fun x =>
      (x.state.store.getSynapse x.entry.synapse).all (fun r =>
        decide (r.weight = node.config.learning.minWeight ∧
          node.config.learning.minWeight ≤ node.config.learning.maxWeight ∧
          node.config.learning.minWeight ≤ node.config.synapse.maxWeight ∧
          r.state = node.prescribed r.weight ∧ x.outcome ≠ .delivered ∧
          Scalar.isFinite x.entry.signalWeight = true)) &&
      (x.table node node.losing.before.clock).all fun st => decide ¬ node.Exceeds st) = true := by
    decide +kernel
  constructor
  · decide +kernel
  · refine (nothing_learned_while_off checked node.losing_run node.losing_routes ?_).1
    intro m hm x settles
    rcases List.mem_pair.mp hm with rfl | rfl
    · rw [settlements_nil (by intro learns; cases learns)] at settles
      cases settles
    · obtain ⟨record, table⟩ := Bool.and_eq_true_iff.mp (List.all_eq_true.mp facts x settles)
      constructor
      · intro r found
        obtain ⟨weight, ceiling, lid, state, other, finite⟩ :=
          of_decide_eq_true ((Option.all_eq_true _ _).mp record r found)
        constructor
        · exact finite
        · exact weight.ge
        · exact weight.le.trans ceiling
        · exact weight.le.trans lid
        · exact fun _ _ => state
        · exact fun delivery => absurd delivery other
        · exact fun _ => Or.inr weight.le
      · intro st same exceeds
        exact absurd exceeds (of_decide_eq_true ((Option.all_eq_true _ _).mp table st same))

def switchedOff : NodeSettings ℚ :=
  { NodeSettings.forClass .edge with
    learning := { LearningConfig.forClass .edge with enabled := false } }

theorem switchedOff_checked : switchedOff.validate ["classical-v1"] = .ok () := by
  rw [NodeSettings.validate_iff]
  obtain ⟨activation, learning, propagation, crypto, synapse⟩ :=
    (NodeSettings.validate_iff _ _).mp (NodeSettings.validate_forClass .edge)
  exact ⟨activation, learning, propagation, crypto, synapse⟩

/-- A failed transmission takes weight off the synapse of a node that does not learn. -/
theorem failure_teaches_while_off :
    ¬ ∀ (settings : NodeSettings ℚ) (identity : NodeId) (before ms : List (Moment ℚ))
      (m : Moment ℚ) (s : NodeState ℚ), settings.validate ["classical-v1"] = .ok () →
      settings.learning.enabled = false →
      NodeRun ⟨identity, settings.toNodeConfig⟩ (before ++ m :: ms) s →
      (∀ y ∈ m :: ms, y.call.Routes) → Unlearned m.before.store s.store := by
  intro always
  let node : Node ℚ := ⟨⟨[0]⟩, switchedOff.toNodeConfig⟩
  have unlearned := always switchedOff ⟨[0]⟩ [node.joining] [node.losing] node.routing
    node.losing.after switchedOff_checked rfl node.losing_run node.losing_routes
  have same := unlearned.lessons (node.formedRecord neighbour 0 .maximal).id
  have changed : (node.losing.after.store.getSynapse
        (node.formedRecord neighbour 0 .maximal).id).map (fun r => r.lesson.1) ≠
      (node.routing.before.store.getSynapse
        (node.formedRecord neighbour 0 .maximal).id).map (fun r => r.lesson.1) := by
    decide +kernel
  apply changed
  have weights := congrArg (Option.map Prod.fst) same
  rw [Option.map_map, Option.map_map] at weights
  exact weights

end OpenNtl
