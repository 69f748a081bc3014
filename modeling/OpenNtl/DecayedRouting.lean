import OpenNtl.EagerDecay
import OpenNtl.ReturnPath

/-! # Dormancy by decayed weight

Planning lists synapses by the state that is stored, and decays their weights only then. So a
synapse left idle still routes on the state it had when it was last written.
-/
namespace OpenNtl

open AtomicProgram NodeM

variable {F : Type} [Scalar F]

namespace Synapse

/-- A decayed weight makes a synapse carry or not, unless its state says nothing of the weight. -/
theorem applyDecay_canCarry (s : Synapse F) (nowNs : ℕ) (learning : LearningConfig F) :
    (s.applyDecay nowNs learning).state.canCarry = true ↔
      s.state ≠ .pruned ∧ s.state ≠ .forming ∧
        (s.activeThreshold ≤ s.decayedWeight nowNs learning ∨
          s.dormancyThreshold ≤ s.decayedWeight nowNs learning) := by
  unfold applyDecay updateState
  by_cases kept : s.state = .pruned ∨ s.state = .forming
  · rw [if_pos kept]
    rcases kept with pruned | forming
    · simp [pruned, SynapseState.canCarry]
    · simp [forming, SynapseState.canCarry]
  · rw [if_neg kept]
    push Not at kept
    by_cases active : s.activeThreshold ≤ s.decayedWeight nowNs learning
    · simp [active, kept, SynapseState.canCarry]
    · by_cases live : s.dormancyThreshold ≤ s.decayedWeight nowNs learning
      · simp [active, live, kept, SynapseState.canCarry]
      · simp [active, live, kept, SynapseState.canCarry]

@[simp] theorem applyDecay_id (s : Synapse F) (nowNs : ℕ) (learning : LearningConfig F) :
    (s.applyDecay nowNs learning).id = s.id :=
  updateState_id _

@[simp] theorem applyDecay_weight (s : Synapse F) (nowNs : ℕ) (learning : LearningConfig F) :
    (s.applyDecay nowNs learning).weight = s.decayedWeight nowNs learning :=
  updateState_weight _

end Synapse

omit [Scalar F] in
theorem journalChoices_journal (signal : Signal F) (nowNs : ℕ) (chosen : List (Chosen F))
    (s : NodeState F) :
    ∃ made, ((chosen.mapM (Node.journalChoice signal nowNs)).run s).2.store.journal =
      s.store.journal ++ made ∧ ∀ e ∈ made, ∃ c ∈ chosen, (e.synapse, e.peer) = c.way := by
  induction chosen generalizing s with
  | nil => exact ⟨[], (List.append_nil _).symm, fun e he => by cases he⟩
  | cons c rest ih =>
    rw [List.mapM_cons]
    cases fault : nextFault s with
    | some f =>
      have first : (Node.journalChoice signal nowNs c).run s = _ :=
        Prog.run_bind_error (callStore_run_error fault)
      rw [Prog.run_bind_error first]
      exact ⟨[], (List.append_nil _).symm, fun e he => by cases he⟩
    | none =>
      let appended := s.store.appendDecision (Node.decisionFor signal nowNs c)
      have first : (Node.journalChoice signal nowNs c).run s =
          (.ok ⟨c.synapse.id, c.synapse.remoteNode, appended.1, c.explored⟩,
            s.stored appended.2) := Prog.run_bind_ok (callStore_run_ok fault)
      rw [Prog.run_bind_ok first]
      obtain ⟨made, journal, named⟩ := ih (s.stored appended.2)
      have rest' : ((rest.mapM (Node.journalChoice signal nowNs) >>= fun forwards =>
          pure (⟨c.synapse.id, c.synapse.remoteNode, appended.1, c.explored⟩ :: forwards)).run
            (s.stored appended.2)).2.store.journal =
          ((rest.mapM (Node.journalChoice signal nowNs)).run
            (s.stored appended.2)).2.store.journal := by
        rw [Prog.run_bind]
        rcases (rest.mapM (Node.journalChoice signal nowNs)).run (s.stored appended.2) with
          ⟨_ | _, u⟩ <;> rfl
      refine ⟨{ Node.decisionFor signal nowNs c with id := some appended.1 } :: made, ?_, ?_⟩
      · rw [rest', journal, NodeState.stored_store]
        simp [appended, MemoryStore.appendDecision]
      · intro e he
        rcases List.mem_cons.mp he with rfl | later
        · exact ⟨c, List.mem_cons_self, rfl⟩
        · obtain ⟨c', chosen', same⟩ := named e later
          exact ⟨c', List.mem_cons_of_mem _ chosen', same⟩

namespace Node

variable (node : Node F) (signal : Signal F) (arrival : Option SynapseId) (nowNs : ℕ)

theorem planForwarding_journal (s : NodeState F) :
    ∃ made, ((node.planForwarding signal arrival nowNs).run s).2.store.journal =
      s.store.journal ++ made ∧
        ∀ e ∈ made, ∃ c ∈ node.onward signal arrival nowNs s.store s.rng,
          (e.synapse, e.peer) = c.way := by
  have nothing : ∀ u : NodeState F, u.store.journal = s.store.journal →
      ∃ made, u.store.journal = s.store.journal ++ made ∧
        ∀ e ∈ made, ∃ c ∈ node.onward signal arrival nowNs s.store s.rng,
          (e.synapse, e.peer) = c.way :=
    fun u same => ⟨[], same.trans (List.append_nil _).symm, fun e he => by cases he⟩
  by_cases deep : floodDepthReached signal = true
  · unfold planForwarding
    rw [if_pos deep]
    exact nothing _ rfl
  · unfold planForwarding
    rw [if_neg deep]
    cases fault : nextFault s with
    | some f =>
      rw [Prog.run_bind_error (readStore_run_error fault)]
      exact nothing _ rfl
    | none =>
      rw [Prog.run_bind_ok (readStore_run_ok fault)]
      by_cases empty : (s.store.listSynapses .eligible).isEmpty = true
      · rw [if_pos empty]
        exact nothing _ rfl
      · rw [if_neg empty, withRng_bind_run, NodeState.stored_rng]
        have chosen : (selectSynapses ((s.store.listSynapses .eligible).map
            (node.rehydrate nowNs)) signal.scope (signalTypeNameOf signal.signalType) arrival
            node.config.propagation node.config.learning nowNs s.rng).1 =
            node.onward signal arrival nowNs s.store s.rng := by
          unfold onward
          rw [if_neg deep]
        rw [chosen]
        exact journalChoices_journal signal nowNs _ _

def chosenFrom (st : MemoryStore F) : Set (SynapseRecord F) :=
  {r | r ∈ st.listSynapses .eligible ∧ floodDepthReached signal = false ∧
    isEligible signal.scope arrival (node.rehydrate nowNs r) = true}

/-- Those it would choose from if every synapse had first been decayed and reclassified. -/
def chosenFromDecayed (st : MemoryStore F) : Set (SynapseRecord F) :=
  {r | r ∈ st.listSynapses {} ∧ floodDepthReached signal = false ∧
    isEligible signal.scope arrival
      ((Synapse.fromRecord r node.config.synapse).applyDecay nowNs node.config.learning) = true}

/-- The signal may take the record, as far as its state does not matter. -/
def MayTake (r : SynapseRecord F) : Prop :=
  floodDepthReached signal = false ∧ arrival ≠ some r.id ∧
    ∀ floor, signal.scope = .weighted floor → floor ≤ (node.rehydrate nowNs r).weight

/-- What a record's weight has decayed to reaches neither threshold. -/
def Faded (r : SynapseRecord F) : Prop :=
  ¬ (node.config.synapse.activeThreshold ≤ (node.rehydrate nowNs r).weight ∨
    node.config.synapse.dormancyThreshold ≤ (node.rehydrate nowNs r).weight)

/-- Of the synapses that the signal may take, those that have completed a handshake and are not
pruned are stored as dormant exactly if they have faded. -/
def StatesCurrent (st : MemoryStore F) : Prop :=
  ∀ r ∈ st.listSynapses {}, node.MayTake signal arrival nowNs r → r.state ≠ .pruned →
    r.state ≠ .forming → (r.state = .dormant ↔ node.Faded nowNs r)

variable {signal arrival nowNs}

omit node in
theorem mem_listed {st : MemoryStore F} {r : SynapseRecord F} :
    r ∈ st.listSynapses {} ↔ r ∈ st.synapses.values := by
  have sorted : r ∈ st.listSynapses {} ↔ r ∈ sortBy MemoryStore.synapseCmp
      (st.synapses.values.filter (MemoryStore.matchesFilter {})) := Iff.rfl
  rw [sorted, mem_sortBy, List.mem_filter]
  simp [MemoryStore.matchesFilter]

theorem mem_candidates_iff_chosenFrom {st : MemoryStore F} {s : Synapse F} :
    s ∈ node.candidates signal arrival nowNs st ↔
      ∃ r ∈ node.chosenFrom signal arrival nowNs st, node.rehydrate nowNs r = s := by
  unfold candidates chosenFrom
  cases floodDepthReached signal with
  | true => simp
  | false =>
    rw [if_neg Bool.false_ne_true, List.mem_filter, List.mem_map]
    constructor
    · rintro ⟨⟨r, listed, rfl⟩, carries⟩
      exact ⟨r, ⟨listed, rfl, carries⟩, rfl⟩
    · rintro ⟨r, ⟨listed, -, carries⟩, rfl⟩
      exact ⟨⟨r, listed, rfl⟩, carries⟩

theorem mem_chosenFrom {st : MemoryStore F} {r : SynapseRecord F} :
    r ∈ node.chosenFrom signal arrival nowNs st ↔ r ∈ st.listSynapses {} ∧
      node.MayTake signal arrival nowNs r ∧ r.state.canCarry = true := by
  unfold chosenFrom MayTake
  rw [Set.mem_ofPred_eq, mem_eligible, mem_listed, isEligible_iff]
  have state : (node.rehydrate nowNs r).state = r.state := rfl
  have id : (node.rehydrate nowNs r).id = r.id := rfl
  rw [state, id]
  tauto

theorem mem_chosenFromDecayed {st : MemoryStore F} {r : SynapseRecord F} :
    r ∈ node.chosenFromDecayed signal arrival nowNs st ↔ r ∈ st.listSynapses {} ∧
      node.MayTake signal arrival nowNs r ∧ r.state ≠ .pruned ∧ r.state ≠ .forming ∧
      ¬ node.Faded nowNs r := by
  unfold chosenFromDecayed MayTake Faded
  rw [Set.mem_ofPred_eq, isEligible_iff, Synapse.applyDecay_canCarry, Synapse.applyDecay_id,
    Synapse.applyDecay_weight]
  have weight : (Synapse.fromRecord r node.config.synapse).decayedWeight nowNs
      node.config.learning = (node.rehydrate nowNs r).weight := rfl
  have state : (Synapse.fromRecord r node.config.synapse).state = r.state := rfl
  have id : (Synapse.fromRecord r node.config.synapse).id = r.id := rfl
  have active : (Synapse.fromRecord r node.config.synapse).activeThreshold =
      node.config.synapse.activeThreshold := rfl
  have dormancy : (Synapse.fromRecord r node.config.synapse).dormancyThreshold =
      node.config.synapse.dormancyThreshold := rfl
  rw [weight, state, id, active, dormancy, not_not]
  tauto

theorem chosenFrom_eq_iff {st : MemoryStore F} :
    node.chosenFrom signal arrival nowNs st = node.chosenFromDecayed signal arrival nowNs st ↔
      node.StatesCurrent signal arrival nowNs st := by
  constructor
  · intro same r listed may notPruned notForming
    have both : r ∈ node.chosenFrom signal arrival nowNs st ↔
        r ∈ node.chosenFromDecayed signal arrival nowNs st := by rw [same]
    rw [mem_chosenFrom, mem_chosenFromDecayed] at both
    cases state : r.state with
    | pruned => exact absurd state notPruned
    | forming => exact absurd state notForming
    | active => simpa [state, listed, may, SynapseState.canCarry] using both
    | weakening => simpa [state, listed, may, SynapseState.canCarry] using both
    | dormant => simpa [state, listed, may, SynapseState.canCarry] using both
  · intro current
    ext r
    rw [mem_chosenFrom, mem_chosenFromDecayed]
    by_cases taken : r ∈ st.listSynapses {} ∧ node.MayTake signal arrival nowNs r
    · have now := current r taken.1 taken.2
      cases state : r.state <;> simp [state, taken, SynapseState.canCarry] at now ⊢ <;> exact now
    · tauto

/-- What is chosen or journalled is a record from the set that planning chooses from. -/
theorem onward_chosenFrom {st : MemoryStore F} {rng : Rng} {c : Chosen F}
    (chosen : c ∈ node.onward signal arrival nowNs st rng) :
    ∃ r ∈ node.chosenFrom signal arrival nowNs st, (r.id, r.peer) = c.way := by
  obtain ⟨r, from', same⟩ := node.mem_candidates_iff_chosenFrom.mp (node.onward_candidate chosen)
  refine ⟨r, from', ?_⟩
  unfold Chosen.way
  rw [← same]
  rfl

variable (signal arrival nowNs)

/-- Planning over these tables forwards over no synapse whose decayed weight is below the dormancy
threshold, journals none, and chooses from what it would choose from had every synapse been
decayed and reclassified first. -/
structure RespectsDormancy (st : MemoryStore F) : Prop where
  chosen : ∀ t forwards u, t.store = st →
    (node.planForwarding signal arrival nowNs).run t = (.ok forwards, u) → ∀ f ∈ forwards,
      ∃ r ∈ st.listSynapses {}, (r.id, r.peer) = f.way ∧
        ¬ (node.rehydrate nowNs r).weight < node.config.synapse.dormancyThreshold
  journalled : ∀ t, t.store = st → ∃ made,
    ((node.planForwarding signal arrival nowNs).run t).2.store.journal = st.journal ++ made ∧
      ∀ e ∈ made, ∃ r ∈ st.listSynapses {}, (r.id, r.peer) = (e.synapse, e.peer) ∧
        ¬ (node.rehydrate nowNs r).weight < node.config.synapse.dormancyThreshold
  sameSet : node.chosenFrom signal arrival nowNs st = node.chosenFromDecayed signal arrival nowNs st

/-- No synapse that the signal may take is stored as able to carry below the dormancy threshold. -/
def NoneBelow (st : MemoryStore F) : Prop :=
  ∀ r ∈ st.listSynapses {}, node.MayTake signal arrival nowNs r → r.state.canCarry = true →
    node.config.synapse.dormancyThreshold ≤ (node.rehydrate nowNs r).weight

variable [OrderedScalar F] {signal arrival nowNs}

theorem StatesCurrent.noneBelow {st : MemoryStore F}
    (current : node.StatesCurrent signal arrival nowNs st)
    (ordered : node.config.synapse.dormancyThreshold ≤ node.config.synapse.activeThreshold) :
    node.NoneBelow signal arrival nowNs st := by
  intro r listed may carries
  have kept : ¬ node.Faded nowNs r := by
    intro faded
    have now := current r listed may
    cases state : r.state <;> simp_all [SynapseState.canCarry]
  rcases not_not.mp kept with active | live
  · exact OrderedScalar.le_trans ordered active
  · exact live

theorem NoneBelow.respects {st : MemoryStore F} (none : node.NoneBelow signal arrival nowNs st)
    (current : node.StatesCurrent signal arrival nowNs st) :
    node.RespectsDormancy signal arrival nowNs st := by
  have above : ∀ r ∈ node.chosenFrom signal arrival nowNs st, r ∈ st.listSynapses {} ∧
      ¬ (node.rehydrate nowNs r).weight < node.config.synapse.dormancyThreshold := by
    intro r chosen
    obtain ⟨listed, may, carries⟩ := node.mem_chosenFrom.mp chosen
    exact ⟨listed, fun below => OrderedScalar.lt_iff.mp below (none r listed may carries)⟩
  constructor
  · rintro t forwards u rfl plan f forwarded
    have way := List.mem_map_of_mem (f := Forward.way) forwarded
    rw [node.planForwarding_chosen plan] at way
    obtain ⟨c, chosen, same⟩ := List.mem_map.mp way
    obtain ⟨r, from', here⟩ := node.onward_chosenFrom chosen
    exact ⟨r, (above r from').1, here.trans same, (above r from').2⟩
  · rintro t rfl
    obtain ⟨made, journal, named⟩ := node.planForwarding_journal signal arrival nowNs t
    refine ⟨made, journal, ?_⟩
    intro e he
    obtain ⟨c, chosen, same⟩ := named e he
    obtain ⟨r, from', here⟩ := node.onward_chosenFrom chosen
    exact ⟨r, (above r from').1, here.trans same.symm, (above r from').2⟩
  · exact node.chosenFrom_eq_iff.mpr current

end Node

/-- Planning respects decayed dormancy exactly when, of the synapses that the signal may take,
those stored as dormant are those that have faded. Where the active threshold lies below the
dormancy threshold it is enough besides that none of them carries below the latter. -/
theorem dormancy_respected_iff [OrderedScalar F] (node : Node F) (signal : Signal F)
    (arrival : Option SynapseId) (nowNs : ℕ) (st : MemoryStore F) :
    (node.RespectsDormancy signal arrival nowNs st → node.StatesCurrent signal arrival nowNs st) ∧
    (node.config.synapse.dormancyThreshold ≤ node.config.synapse.activeThreshold ∨
        node.NoneBelow signal arrival nowNs st →
      node.StatesCurrent signal arrival nowNs st →
      node.RespectsDormancy signal arrival nowNs st) := by
  constructor
  · intro respects
    exact node.chosenFrom_eq_iff.mp respects.sameSet
  · rintro (ordered | none) current
    · exact Node.NoneBelow.respects node (current.noneBelow node ordered) current
    · exact none.respects node current

section IdleSynapse

noncomputable def openFlood : Signal ℝ :=
  { ((SignalBuilder.new .data "").withWeight 1).buildUnsignedWith ⟨[2]⟩ 0 ⟨7⟩ with
    scope := .flood 3 }

noncomputable def leftIdle : NodeState ℝ :=
  exactEdge.build (MemoryStore.new.putSynapse (halfSynapse (Scalar.lit (1 / 10)) 0)) .maximal
    (4 * weekNs) []

theorem decayedWeight_month :
    decayedWeight (Scalar.lit (1 / 10) : ℝ) 0 (4 * weekNs) exactEdge.config.learning = 1 / 160 := by
  have passes : 0 < 4 * weekNs := by norm_num [weekNs, nanosPerSec]
  rw [decayedWeight_of_lt _ passes, Nat.sub_zero, retention_weeks, exactEdge_floor]
  norm_num [Scalar.lit]

theorem idle_synapse_chosen :
    ((exactEdge.planForwarding openFlood none (4 * weekNs)).run leftIdle).1.toOption.map
      (List.map Forward.way) = some [(⟨"s"⟩, neighbour)] ∧
    (exactEdge.rehydrate (4 * weekNs) (halfSynapse (Scalar.lit (1 / 10)) 0)).weight <
      exactEdge.config.synapse.dormancyThreshold ∧
    ¬ ∀ (node : Node ℝ) (signal : Signal ℝ) (arrival : Option SynapseId) (nowNs : ℕ)
      (st : MemoryStore ℝ), node.RespectsDormancy signal arrival nowNs st := by
  have onward : (exactEdge.onward openFlood none (4 * weekNs) leftIdle.store leftIdle.rng).map
      Chosen.way = [(⟨"s"⟩, neighbour)] := rfl
  have listed : leftIdle.store.listSynapses {} = [halfSynapse (Scalar.lit (1 / 10)) 0] := rfl
  have faded : (exactEdge.rehydrate (4 * weekNs) (halfSynapse (Scalar.lit (1 / 10)) 0)).weight <
      exactEdge.config.synapse.dormancyThreshold := by
    have weight : (exactEdge.rehydrate (4 * weekNs) (halfSynapse (Scalar.lit (1 / 10)) 0)).weight =
      1 / 160 := decayedWeight_month
    have threshold : exactEdge.config.synapse.dormancyThreshold = 1 / 100 := by
      norm_num [exactEdge, NodeConfig.forClass, SynapseConfig.default, Scalar.lit]
    rw [weight, threshold]
    norm_num
  rcases exactEdge.planForwarding_ways openFlood none (4 * weekNs) leftIdle with
    ⟨-, forwards, t, plan, ways⟩ | ⟨fails, -⟩
  · rw [onward] at ways
    refine ⟨?_, faded, fun always => ?_⟩
    · rw [plan]
      exact congrArg some ways
    · have respects := always exactEdge openFlood none (4 * weekNs) leftIdle.store
      have sent : ((⟨"s"⟩, neighbour) : SynapseId × NodeId) ∈ forwards.map Forward.way := by
        rw [ways]
        exact List.mem_cons_self
      obtain ⟨f, forwarded, -⟩ := List.mem_map.mp sent
      obtain ⟨r, here, -, above⟩ := respects.chosen leftIdle forwards t rfl plan f forwarded
      rw [listed, List.mem_singleton] at here
      rw [here] at above
      exact above faded
  · refine absurd ?_ fails
    intro f hf
    have quiet : leftIdle.faults = [] := rfl
    rw [quiet, List.take_nil] at hf
    cases hf

theorem fresh_synapse_respected :
    exactEdge.RespectsDormancy openFlood none 0 leftIdle.store := by
  have active : exactEdge.config.synapse.activeThreshold = 1 / 10 := by
    norm_num [exactEdge, NodeConfig.forClass, SynapseConfig.default, Scalar.lit]
  have dormancy : exactEdge.config.synapse.dormancyThreshold = 1 / 100 := by
    norm_num [exactEdge, NodeConfig.forClass, SynapseConfig.default, Scalar.lit]
  have weight : (exactEdge.rehydrate 0 (halfSynapse (Scalar.lit (1 / 10)) 0)).weight = 1 / 10 := by
    have undecayed : (exactEdge.rehydrate 0 (halfSynapse (Scalar.lit (1 / 10)) 0)).weight =
      decayedWeight (Scalar.lit (1 / 10)) 0 0 exactEdge.config.learning := rfl
    rw [undecayed, decayedWeight_of_le _ le_rfl]
    norm_num [Scalar.lit]
  have listed : leftIdle.store.listSynapses {} = [halfSynapse (Scalar.lit (1 / 10)) 0] := rfl
  refine (dormancy_respected_iff exactEdge openFlood none 0 leftIdle.store).2 (Or.inl ?_) ?_
  · rw [active, dormancy]
    norm_num
  · intro r here _ _ _
    rw [listed, List.mem_singleton] at here
    subst here
    unfold Node.Faded
    rw [weight, active]
    simp [halfSynapse]

end IdleSynapse

end OpenNtl
