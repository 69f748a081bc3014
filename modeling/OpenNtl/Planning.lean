import OpenNtl.NodeFrame
import OpenNtl.Selection

/-! # What planning chooses, and when it fails -/
namespace OpenNtl

open AtomicProgram NodeM

variable {F : Type}

def StoreAnswers (s : NodeState F) (n : ℕ) : Prop := ∀ f ∈ s.faults.take n, f = none

theorem storeAnswers_zero (s : NodeState F) : StoreAnswers s 0 := by
  intro f hf
  rw [List.take_zero] at hf
  cases hf

theorem storeAnswers_succ {s : NodeState F} {n : ℕ} (st : MemoryStore F) :
    StoreAnswers s (n + 1) ↔ nextFault s = none ∧ StoreAnswers (s.stored st) n := by
  unfold StoreAnswers nextFault
  rw [NodeState.stored_faults]
  cases s.faults with
  | nil => simp
  | cons f fs => simp

def Forward.way (f : Forward) : SynapseId × NodeId := (f.synapse, f.peer)

def Chosen.way (c : Chosen F) : SynapseId × NodeId := (c.synapse.id, c.synapse.remoteNode)

theorem journalChoices_run (signal : Signal F) (nowNs : ℕ) (chosen : List (Chosen F))
    (s : NodeState F) :
    (StoreAnswers s chosen.length ∧ ∃ forwards t,
      (chosen.mapM (Node.journalChoice signal nowNs)).run s = (.ok forwards, t) ∧
        forwards.map Forward.way = chosen.map Chosen.way) ∨
    (¬ StoreAnswers s chosen.length ∧ ∃ e t,
      (chosen.mapM (Node.journalChoice signal nowNs)).run s = (.error e, t)) := by
  induction chosen generalizing s with
  | nil => exact Or.inl ⟨storeAnswers_zero s, [], s, rfl, rfl⟩
  | cons c rest ih =>
    have step := storeAnswers_succ (s := s) (n := rest.length)
      (s.store.appendDecision (Node.decisionFor signal nowNs c)).2
    rw [List.length_cons, step, List.mapM_cons]
    cases fault : nextFault s with
    | some f =>
      have first : (Node.journalChoice signal nowNs c).run s = _ :=
        Prog.run_bind_error (callStore_run_error fault)
      refine Or.inr ⟨?_, _, _, Prog.run_bind_error first⟩
      rintro ⟨none, -⟩
      cases none
    | none =>
      let appended := s.store.appendDecision (Node.decisionFor signal nowNs c)
      let forward : Forward := ⟨c.synapse.id, c.synapse.remoteNode, appended.1, c.explored⟩
      have first : (Node.journalChoice signal nowNs c).run s = (.ok forward, s.stored appended.2) :=
        Prog.run_bind_ok (callStore_run_ok fault)
      rcases ih (s.stored (s.store.appendDecision (Node.decisionFor signal nowNs c)).2) with
        ⟨answers, forwards, t, later, ways⟩ | ⟨fails, e, t, later⟩
      · refine Or.inl ⟨⟨rfl, answers⟩, forward :: forwards, t, ?_, ?_⟩
        · rw [Prog.run_bind_ok first, Prog.run_bind_ok later]
          rfl
        · rw [List.map_cons, List.map_cons, ways]
          rfl
      · refine Or.inr ⟨fun answers => fails answers.2, e, t, ?_⟩
        rw [Prog.run_bind_ok first, Prog.run_bind_error later]

variable [Scalar F]

def Drawn (n : ℕ) (sels : List (Selection F)) : Prop := sels ≠ [] ∧ ∀ sel ∈ sels, sel.index < n

theorem samplePaths_drawn {scores : List F} (some : scores ≠ []) {k : ℕ} (k_pos : 0 < k)
    (policy : ExplorationPolicy F) (config : LearningConfig F) (rng : Rng) :
    Drawn scores.length (samplePaths scores k policy config rng).1 := by
  have sampled := samplePaths_sampled scores k policy config rng
  refine ⟨?_, sampled.inRange⟩
  rw [← List.length_pos_iff, sampled.count]
  exact lt_min k_pos (List.length_pos_iff.mpr some)

theorem sampled_ne_nil_iff {eligible : List (Synapse F)} (some : eligible ≠ [])
    (score : Synapse F → F) (k : ℕ) (policy : ExplorationPolicy F) (config : LearningConfig F)
    (rng : Rng) :
    ((samplePaths (eligible.map score) k policy config rng).1.filterMap fun sel =>
      eligible[sel.index]?.map fun s =>
        ({ synapse := s, score := sel.score, explored := sel.explored } : Chosen F)) ≠ [] ↔
      0 < k := by
  constructor
  · intro found
    by_contra none
    obtain rfl : k = 0 := by omega
    exact found (by simp [samplePaths])
  · intro pos
    have spec : Drawn (eligible.map score).length _ :=
      samplePaths_drawn (by simpa using some) pos policy config rng
    obtain ⟨drawn, inRange⟩ := spec
    obtain ⟨sel, hsel⟩ := List.exists_mem_of_ne_nil _ drawn
    have inRange : sel.index < eligible.length := by simpa using inRange sel hsel
    refine List.ne_nil_of_mem (a := ⟨eligible[sel.index], sel.score, sel.explored⟩)
      (List.mem_filterMap.mpr ⟨sel, hsel, ?_⟩)
    rw [List.getElem?_eq_getElem inRange]
    rfl

def PropagationScope.Samples (scope : PropagationScope F) (fanout : ℕ) : Prop :=
  match scope with
  | .weighted _ | .gradient _ => 0 < fanout
  | .targeted _ | .flood _ => True

/-- Selection finds somebody exactly when somebody is eligible and the fanout allows one. -/
theorem selectSynapses_ne_nil_iff (synapses : List (Synapse F)) (scope : PropagationScope F)
    (signalType : String) (arrival : Option SynapseId) (config : PropagationConfig F)
    (learning : LearningConfig F) (nowNs : ℕ) (rng : Rng) :
    (selectSynapses synapses scope signalType arrival config learning nowNs rng).1 ≠ [] ↔
      (∃ s ∈ synapses, isEligible scope arrival s = true) ∧ scope.Samples config.maxFanout := by
  have someone : (∃ s ∈ synapses, isEligible scope arrival s = true) ↔
      synapses.filter (isEligible scope arrival) ≠ [] := by
    rw [Ne, List.filter_eq_nil_iff]
    push Not
    rfl
  rw [someone]
  unfold selectSynapses
  generalize synapses.filter (isEligible scope arrival) = eligible
  by_cases empty : eligible.isEmpty = true
  · rw [if_pos empty]
    simp [List.isEmpty_iff.mp empty]
  · have nonempty : eligible ≠ [] := fun nil => empty (List.isEmpty_iff.mpr nil)
    rw [if_neg empty]
    have sampled := sampled_ne_nil_iff nonempty
      (fun s => scoreSynapse s signalType nowNs config.scoring)
    cases scope with
    | targeted destination =>
      cases direct : eligible.find? fun s => s.remoteNode = destination with
      | some s => simp [direct, nonempty, PropagationScope.Samples]
      | none =>
        simp only [direct]
        exact ⟨fun _ => ⟨nonempty, trivial⟩, fun _ => (sampled 1 _ _ _).mpr Nat.one_pos⟩
    | flood hops =>
      refine ⟨fun _ => ⟨nonempty, trivial⟩, fun _ => ?_⟩
      rw [← List.length_pos_iff, length_sortBy, List.length_map, List.length_pos_iff]
      exact nonempty
    | weighted floor => exact (sampled _ _ _ _).trans (and_iff_right nonempty).symm
    | gradient kind => exact (sampled _ _ _ _).trans (and_iff_right nonempty).symm

def PropagationScope.takes (scope : PropagationScope F) (fanout eligible : ℕ) : ℕ :=
  match scope with
  | .weighted _ | .gradient _ => min fanout eligible
  | .targeted _ => min 1 eligible
  | .flood _ => eligible

theorem selectSynapses_length (synapses : List (Synapse F)) (scope : PropagationScope F)
    (signalType : String) (arrival : Option SynapseId) (config : PropagationConfig F)
    (learning : LearningConfig F) (nowNs : ℕ) (rng : Rng) :
    (selectSynapses synapses scope signalType arrival config learning nowNs rng).1.length =
      scope.takes config.maxFanout (synapses.countP (isEligible scope arrival)) := by
  have spec := selectSynapses_spec synapses scope signalType arrival config learning nowNs rng
  have found := selectSynapses_ne_nil_iff synapses scope signalType arrival config learning nowNs
    rng
  generalize selectSynapses synapses scope signalType arrival config learning nowNs rng = out
    at spec found
  rw [← List.countP_pos_iff, ← List.length_pos_iff] at found
  rw [List.countP_eq_length_filter] at found ⊢
  cases scope with
  | weighted floor => exact spec.length_of_fanned (Or.inl ⟨floor, rfl⟩)
  | gradient kind => exact spec.length_of_fanned (Or.inr ⟨kind, rfl⟩)
  | targeted destination =>
    have one := spec.length_of_targeted
    have some : 0 < out.1.length ↔ _ := found.trans (and_iff_left trivial)
    unfold PropagationScope.takes
    dsimp only
    omega
  | flood hops =>
    have all := spec.all_of_flood.length_eq
    rwa [List.length_map] at all

theorem selectSynapses_mem {synapses : List (Synapse F)} {scope : PropagationScope F}
    {signalType : String} {arrival : Option SynapseId} {config : PropagationConfig F}
    {learning : LearningConfig F} {nowNs : ℕ} {rng : Rng} {c : Chosen F}
    (chosen : c ∈ (selectSynapses synapses scope signalType arrival config learning nowNs rng).1) :
    c.synapse ∈ synapses := by
  have spec := selectSynapses_spec synapses scope signalType arrival config learning nowNs rng
  exact List.mem_of_mem_filter (spec.taken.mem chosen).1

namespace Node

variable (node : Node F) (signal : Signal F) (arrival : Option SynapseId) (nowNs : ℕ)

/-- The choices planning makes over these tables with these draws. -/
def onward (st : MemoryStore F) (rng : Rng) : List (Chosen F) :=
  if floodDepthReached signal then []
  else
    (selectSynapses ((st.listSynapses .eligible).map (node.rehydrate nowNs)) signal.scope
      (signalTypeNameOf signal.signalType) arrival node.config.propagation node.config.learning
      nowNs rng).1

/-- Planning finds a way on exactly when the flood may go on, a synapse that can carry and is not
the one the signal came in on suits the scope, and the fanout allows one. -/
theorem onward_ne_nil_iff (st : MemoryStore F) (rng : Rng) :
    node.onward signal arrival nowNs st rng ≠ [] ↔
      floodDepthReached signal = false ∧
        (∃ r ∈ st.listSynapses .eligible,
          isEligible signal.scope arrival (node.rehydrate nowNs r) = true) ∧
        signal.scope.Samples node.config.propagation.maxFanout := by
  unfold onward
  cases floodDepthReached signal with
  | true => simp
  | false =>
    rw [if_neg Bool.false_ne_true, selectSynapses_ne_nil_iff]
    simp

/-- The ways on that a plan may take over these tables: as many as the scope takes of the synapses
that can carry, suit it and are not the one the signal came in on. -/
def waysOn (st : MemoryStore F) : ℕ :=
  if floodDepthReached signal then 0
  else signal.scope.takes node.config.propagation.maxFanout
    (((st.listSynapses .eligible).map (node.rehydrate nowNs)).countP
      (isEligible signal.scope arrival))

theorem length_onward (st : MemoryStore F) (rng : Rng) :
    (node.onward signal arrival nowNs st rng).length = node.waysOn signal arrival nowNs st := by
  unfold onward waysOn
  split
  · rfl
  · exact selectSynapses_length _ _ _ _ _ _ _ _

theorem onward_ne_nil_iff_waysOn (st : MemoryStore F) (rng : Rng) :
    node.onward signal arrival nowNs st rng ≠ [] ↔ 0 < node.waysOn signal arrival nowNs st := by
  rw [← node.length_onward signal arrival nowNs st rng, List.length_pos_iff]

theorem onward_listed {st : MemoryStore F} {rng : Rng} {c : Chosen F}
    (chosen : c ∈ node.onward signal arrival nowNs st rng) :
    ∃ r ∈ st.listSynapses .eligible, c.synapse = node.rehydrate nowNs r := by
  unfold onward at chosen
  split_ifs at chosen with deep
  · cases chosen
  · obtain ⟨r, listed, same⟩ := List.mem_map.mp (selectSynapses_mem chosen)
    exact ⟨r, listed, same.symm⟩

def planCalls (st : MemoryStore F) (rng : Rng) : ℕ :=
  if floodDepthReached signal then 0 else (node.onward signal arrival nowNs st rng).length + 1

theorem planCalls_of_onward {st : MemoryStore F} {rng : Rng}
    (some : node.onward signal arrival nowNs st rng ≠ []) :
    node.planCalls signal arrival nowNs st rng = node.waysOn signal arrival nowNs st + 1 := by
  obtain ⟨deep, -⟩ := (node.onward_ne_nil_iff signal arrival nowNs st rng).mp some
  rw [planCalls, if_neg (ne_true_of_eq_false deep), length_onward]

theorem planForwarding_ways (s : NodeState F) :
    (StoreAnswers s (node.planCalls signal arrival nowNs s.store s.rng) ∧ ∃ forwards t,
      (node.planForwarding signal arrival nowNs).run s = (.ok forwards, t) ∧
        forwards.map Forward.way =
          (node.onward signal arrival nowNs s.store s.rng).map Chosen.way) ∨
    (¬ StoreAnswers s (node.planCalls signal arrival nowNs s.store s.rng) ∧ ∃ e t,
      (node.planForwarding signal arrival nowNs).run s = (.error e, t)) := by
  unfold planForwarding planCalls onward
  by_cases deep : floodDepthReached signal = true
  · simp only [if_pos deep]
    exact Or.inl ⟨storeAnswers_zero s, [], s, rfl, rfl⟩
  · simp only [if_neg deep]
    rw [storeAnswers_succ s.store]
    cases fault : nextFault s with
    | some f =>
      refine Or.inr ⟨?_, _, _, Prog.run_bind_error (readStore_run_error fault)⟩
      rintro ⟨none, -⟩
      cases none
    | none =>
      rw [Prog.run_bind_ok (readStore_run_ok fault)]
      by_cases empty : (s.store.listSynapses .eligible).isEmpty = true
      · have noRecords := List.isEmpty_iff.mp empty
        refine Or.inl ⟨⟨rfl, ?_⟩, [], s.stored s.store, ?_, ?_⟩
        · rw [noRecords]
          exact storeAnswers_zero _
        · rw [if_pos empty]
          rfl
        · rw [noRecords]
          rfl
      · rw [if_neg empty]
        let chosen := selectSynapses ((s.store.listSynapses .eligible).map (node.rehydrate nowNs))
          signal.scope (signalTypeNameOf signal.signalType) arrival node.config.propagation
          node.config.learning nowNs s.rng
        rcases journalChoices_run signal nowNs chosen.1
            { s.stored s.store with rng := chosen.2 } with
          ⟨answers, forwards, t, run, ways⟩ | ⟨fails, e, t, run⟩
        · exact Or.inl ⟨⟨rfl, answers⟩, forwards, t, run, ways⟩
        · exact Or.inr ⟨fun answers => fails answers.2, e, t, run⟩

theorem planForwarding_outcome (s : NodeState F) :
    (StoreAnswers s (node.planCalls signal arrival nowNs s.store s.rng) ∧ ∃ forwards t,
      (node.planForwarding signal arrival nowNs).run s = (.ok forwards, t) ∧
        forwards.map Forward.peer =
          (node.onward signal arrival nowNs s.store s.rng).map fun c => c.synapse.remoteNode) ∨
    (¬ StoreAnswers s (node.planCalls signal arrival nowNs s.store s.rng) ∧ ∃ e t,
      (node.planForwarding signal arrival nowNs).run s = (.error e, t)) := by
  rcases node.planForwarding_ways signal arrival nowNs s with
    ⟨answers, forwards, t, run, ways⟩ | failed
  · refine Or.inl ⟨answers, forwards, t, run, ?_⟩
    have peers := congrArg (List.map Prod.snd) ways
    rw [List.map_map, List.map_map] at peers
    exact peers
  · exact Or.inr failed

theorem planForwarding_chosen {signal : Signal F} {arrival : Option SynapseId} {nowNs : ℕ}
    {s t : NodeState F} {forwards : List Forward}
    (plan : (node.planForwarding signal arrival nowNs).run s = (.ok forwards, t)) :
    forwards.map Forward.way =
      (node.onward signal arrival nowNs s.store s.rng).map Chosen.way := by
  rcases node.planForwarding_ways signal arrival nowNs s with
    ⟨-, forwards', t', run, ways⟩ | ⟨-, e, t', run⟩
  · rw [plan] at run
    obtain rfl := Except.ok.inj (Prod.mk.inj run).1
    exact ways
  · rw [plan] at run
    cases run

end Node
end OpenNtl
