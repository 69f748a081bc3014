import OpenNtl.EagerLockstep

/-! # Settlements and penalties on a lazy and an eager node -/
namespace OpenNtl

open AtomicProgram NodeM

namespace Node

variable (node : Node ℝ) {now : ℕ} {base : MemoryStore ℝ} {falls : Prop} {s t : NodeState ℝ}

theorem twins_weights {xs ys : List (SynapseRecord ℝ)} (twins : List.Forall₂ Twins xs ys) :
    ys.map SynapseRecord.weight = xs.map SynapseRecord.weight := by
  induction twins with
  | nil => rfl
  | cons head _ ih =>
    obtain ⟨state, rfl⟩ := head
    rw [List.map_cons, List.map_cons, ih]

/-- What is written for a record and for its twin when weights are rescaled. -/
structure RescaledAlike (xs : List (SynapseRecord ℝ)) (g : ℝ → ℝ)
    (x y : SynapseRecord ℝ × ℝ) : Prop where
  listed : x.1 ∈ xs
  twins : Twins x.1 y.1
  rescaled : x.2 = g x.1.weight
  alike : y.2 = x.2

theorem rescaled_alike (g : ℝ → ℝ) {xs ys : List (SynapseRecord ℝ)}
    (twins : List.Forall₂ Twins xs ys) :
    List.Forall₂ (RescaledAlike xs g) (xs.zip ((xs.map SynapseRecord.weight).map g))
      (ys.zip ((xs.map SynapseRecord.weight).map g)) := by
  induction twins with
  | nil => exact .nil
  | cons head _ ih =>
    refine .cons ⟨List.mem_cons_self, head, rfl, rfl⟩ (ih.imp fun x y both => ?_)
    exact ⟨List.mem_cons_of_mem _ both.listed, both.twins, both.rescaled, both.alike⟩

section Settlement

variable (h : Sound node.config.learning)
include h

theorem rescaled_le {total : ℝ} (excess : ¬ (total ≤ node.config.learning.maxTotalOutboundWeight ∨
    total ≤ 0)) {w : ℝ} (floored : node.config.learning.minWeight ≤ w) :
    max (w * (node.config.learning.maxTotalOutboundWeight / total))
      node.config.learning.minWeight ≤ w := by
  push Not at excess
  have factor : node.config.learning.maxTotalOutboundWeight / total ≤ 1 :=
    (div_le_one excess.2).mpr excess.1.le
  exact max_le (mul_le_of_le_one_right (h.floor.le.trans floored) factor) floored

theorem rescaled_undecayed {total : ℝ}
    (excess : ¬ (total ≤ node.config.learning.maxTotalOutboundWeight ∨ total ≤ 0)) {w : ℝ} {la : ℕ}
    (undecayed : Undecayed node.config.learning w la now) :
    Undecayed node.config.learning
      (max (w * (node.config.learning.maxTotalOutboundWeight / total))
        node.config.learning.minWeight) la now := by
  rcases undecayed with still | rfl
  · exact Or.inl still
  · push Not at excess
    refine Or.inr (max_eq_right (mul_le_of_le_one_right h.floor.le ?_))
    exact (div_le_one excess.2).mpr excess.1.le

theorem normalizeOutboundWeights_inStep (start : InStep node.config.learning now base falls s t)
    (level : Level node.config.learning now s.store.synapses) :
    Matched (InStep node.config.learning now base falls) (fun _ _ => True)
      (node.normalizeOutboundWeights.run s) (node.normalizeOutboundWeights.run t) := by
  refine start.bind_callStore fun _ => ?_
  have sums := listSynapses_weights_sum s.store
  have sums' := listSynapses_weights_sum t.store
  have lengths : (t.store.listSynapses {}).length = (s.store.listSynapses {}).length := by
    rw [MemoryStore.listSynapses_all, MemoryStore.listSynapses_all, length_sortBy, length_sortBy]
    exact start.tracks.synapses.values.length_eq.symm
  by_cases empty : (s.store.listSynapses {}).isEmpty = true
  · have empty' : (t.store.listSynapses {}).isEmpty = true := by
      rw [List.isEmpty_iff_length_eq_zero] at empty ⊢
      omega
    rw [if_pos empty, if_pos empty']
    exact .ok trivial start.unchanged
  have some' : ¬ (t.store.listSynapses {}).isEmpty = true := by
    rw [List.isEmpty_iff_length_eq_zero] at empty ⊢
    omega
  rw [if_neg empty, if_neg some']
  rcases level.fits with within | whole
  · have within' := (start.tracks.sum_le h level.floored).trans within
    rw [normalizeOutbound_none (sums.trans_le within), normalizeOutbound_none (sums'.trans_le within')]
    exact .ok trivial start.unchanged
  · have twins := start.tracks.list_twins h whole
    rw [twins_weights twins]
    by_cases within : Scalar.sum ((s.store.listSynapses {}).map SynapseRecord.weight) ≤
        node.config.learning.maxTotalOutboundWeight ∨
        Scalar.sum ((s.store.listSynapses {}).map SynapseRecord.weight) ≤ 0
    · simp only [normalizeOutbound, if_pos within]
      exact .ok trivial start.unchanged
    · simp only [normalizeOutbound, if_neg within]
      refine (Matched.forM (fun x y u v both states => ?_) (rescaled_alike _ twins)
        start.unchanged).bind fun _ _ _ _ _ _ states => .ok trivial states
      obtain ⟨state, same⟩ := both.twins
      have listed : x.1 ∈ s.store.synapses.values := by
        have member := both.listed
        rwa [MemoryStore.listSynapses_all, mem_sortBy] at member
      have fresh := node.rescaled_undecayed h within (whole x.1 listed)
      have le := node.rescaled_le h within (level.floored x.1 listed)
      refine states.writeStore (states.put ?_ ?_ fun falling => ?_)
      · rw [same]
      · rw [same, both.alike]
        refine Twins.follows ⟨state, rfl⟩ ?_
        rw [both.rescaled]
        exact fresh.decayedWeight_eq h
      · obtain ⟨r₀, found, below⟩ := start.lower falling x.1.id x.1 (start.keyed.find listed)
        refine ⟨r₀, found, le_trans ?_ below⟩
        rw [(whole x.1 listed).decayedWeight_eq h, both.rescaled, fresh.decayedWeight_eq h]
        exact le

/-- What has to hold of the synapses for an outcome to be weighed in without loss. -/
def Fits (used : ℝ) (entry : JournalEntry ℝ) (outcome : Outcome) (nowNs : ℕ)
    (st : MemoryStore ℝ) : Prop :=
  ∀ r, st.getSynapse entry.synapse = some r → Whole node.config.learning nowNs r ∧
    Level node.config.learning nowNs
      (st.synapses.insert r.id (node.weighed used entry outcome nowNs r))

theorem putWeighed_inStep {entry : JournalEntry ℝ} {outcome : Outcome} {used : ℝ}
    {r e : SynapseRecord ℝ} {γ : Type} {update : γ}
    (start : InStep node.config.learning now base falls s t)
    (found : s.store.getSynapse entry.synapse = some r) (whole : Whole node.config.learning now r)
    (level : Level node.config.learning now
      (s.store.synapses.insert r.id (node.weighed used entry outcome now r)))
    (twins : Twins r e) (negative : falls → outcome.reward (F := ℝ) < 0) :
    Matched (InStep node.config.learning now base falls) Eq
      ((do
        NodeM.writeStore fun st => st.putSynapse (node.weighed used entry outcome now r)
        let _ ← node.normalizeOutboundWeights
        return update).run s)
      ((do
        NodeM.writeStore fun st => st.putSynapse (node.weighed used entry outcome now e)
        let _ ← node.normalizeOutboundWeights
        return update).run t) := by
  have same : (node.weighed used entry outcome now e).id =
      (node.weighed used entry outcome now r).id := by
    obtain ⟨state, rfl⟩ := twins
    rw [weighed_id, weighed_id]
  refine start.bind_callStore fun _ => ?_
  have put := start.put same
    ((node.weighed_twins twins used entry outcome now).follows (decayedWeight_of_le _ (le_refl _)))
    fun falling => by
      obtain ⟨r₀, base, le⟩ := start.lower falling _ _ found
      refine ⟨r₀, ?_, le_trans ?_ le⟩
      · rw [weighed_id, start.keyed _ _ found]
        exact base
      · rw [weighed_lastActiveNs, decayedWeight_of_le _ (le_refl _),
          whole.undecayed.decayedWeight_eq h]
        exact node.weighed_weight_le h whole.floored (negative falling) _ _ _
  refine (node.normalizeOutboundWeights_inStep h put ?_).bind fun _ _ _ _ _ _ states =>
    .ok rfl states
  rw [← node.weighed_id used entry outcome now r] at level
  exact level

theorem updateSynapse_inStep {entry : JournalEntry ℝ} {outcome : Outcome}
    (start : InStep node.config.learning now base falls s t)
    (fits : node.Fits (s.store.influenceSince entry.peer
      (node.config.learning.influenceWindowStart now)) entry outcome now s.store)
    (negative : falls → outcome.reward (F := ℝ) < 0) :
    Matched (InStep node.config.learning now base falls) Eq
      ((node.updateSynapse entry outcome now).run s)
      ((node.updateSynapse entry outcome now).run t) := by
  have used : t.store.influenceSince entry.peer (node.config.learning.influenceWindowStart now) =
      s.store.influenceSince entry.peer (node.config.learning.influenceWindowStart now) := by
    unfold MemoryStore.influenceSince
    rw [start.tracks.influence]
  refine start.bind_callStore fun _ => start.unchanged.bind_callStore fun _ => ?_
  dsimp only [NodeState.stored_store]
  rw [used]
  have lookups : Option.Rel (Follows node.config.learning now)
      (s.store.getSynapse entry.synapse) (t.store.getSynapse entry.synapse) :=
    start.tracks.synapses.lookup entry.synapse
  generalize found : s.store.getSynapse entry.synapse = x at lookups ⊢
  generalize t.store.getSynapse entry.synapse = y at lookups ⊢
  cases lookups with
  | none => exact .ok rfl start.unchanged.unchanged
  | @some r e follows =>
    obtain ⟨whole, level⟩ := fits r found
    have twins := follows.twins h whole.undecayed
    obtain ⟨state, rfl⟩ := follows.twins h whole.undecayed
    -- Of a twin, only the state differs, and the update does not look at it.
    have twinCharged : Charged ((Synapse.fromRecord { r with state := state }
        node.config.synapse).applyOutcome outcome (Scalar.clamp entry.signalWeight 0 1)
        (signalTypeNameOf entry.signalType)
        (s.store.influenceSince entry.peer (node.config.learning.influenceWindowStart now))
        node.config.learning).1 ↔
      Charged ((Synapse.fromRecord r node.config.synapse).applyOutcome outcome
        (Scalar.clamp entry.signalWeight 0 1) (signalTypeNameOf entry.signalType)
        (s.store.influenceSince entry.peer (node.config.learning.influenceWindowStart now))
        node.config.learning).1 := Iff.rfl
    dsimp only
    split_ifs with charged charged' charged'
    · refine start.unchanged.unchanged.bind_callStore fun _ => ?_
      refine node.putWeighed_inStep h ?_ found whole level twins negative
      refine start.unchanged.unchanged.stored ⟨start.tracks.synapses, ?_, start.tracks.journal⟩
        start.keyed start.lower
      exact congrArg (· ++ [_]) start.tracks.influence
    · exact absurd (twinCharged.mpr charged) charged'
    · exact absurd (twinCharged.mp charged') charged
    · exact node.putWeighed_inStep h start.unchanged.unchanged found whole level twins negative

/-- Whether settling this decision here loses no decay: if it is learned from, the outcome fits. -/
def SettlesWhole (id : JournalId) (outcome : Outcome) (nowNs : ℕ) (s : NodeState ℝ) : Prop :=
  nextFault s = none → ∀ e, s.store.decision id = some e →
    e.outcome = .pending ∨ e.resolvedAtNs = some nowNs →
    node.Fits (s.store.influenceSince e.peer (node.config.learning.influenceWindowStart nowNs))
      e outcome nowNs s.store

theorem settle_inStep {id : JournalId} {outcome : Outcome}
    (start : InStep node.config.learning now base falls s t)
    (whole : node.SettlesWhole id outcome now s)
    (negative : falls → outcome.reward (F := ℝ) < 0) :
    Matched (InStep node.config.learning now base falls) Eq
      ((node.settle id outcome now).run s) ((node.settle id outcome now).run t) := by
  refine start.bind_callStore fun fault => ?_
  have resolved : InStep node.config.learning now base falls
      (s.stored (s.store.resolveDecision id outcome now).2)
      (t.stored (t.store.resolveDecision id outcome now).2) := by
    rw [MemoryStore.resolveDecision_congr start.tracks.journal]
    have synapses := s.store.resolveDecision_synapses id outcome now
    have influence := s.store.resolveDecision_influence id outcome now
    refine start.stored ⟨?_, ?_, rfl⟩ ?_ fun falling => ?_
    · rw [synapses]
      exact start.tracks.synapses
    · rw [influence]
      exact start.tracks.influence
    · exact start.keyed.of_same synapses
    · exact (start.lower falling).trans (.of_same synapses)
  have answer : (t.store.resolveDecision id outcome now).1 =
      (s.store.resolveDecision id outcome now).1 := by
    rw [MemoryStore.resolveDecision_congr start.tracks.journal]
  rw [answer]
  rcases s.store.resolveDecision_cases id outcome now with
    ⟨-, result⟩ | ⟨e, found, -, result⟩ | ⟨e, found, pending, result⟩
  · rw [result] at resolved ⊢
    exact .ok rfl resolved
  · rw [result] at resolved ⊢
    by_cases now' : e.resolvedAtNs = some now
    · simp only [learnIfResolvedNow, if_pos now']
      have fits := whole fault e found (Or.inr now')
      refine Matched.map ?_ fun a b same => congrArg some same
      exact node.updateSynapse_inStep h
        ⟨resolved.faults, resolved.tracks, resolved.keyed, resolved.lower⟩ fits negative
    · simp only [learnIfResolvedNow, if_neg now']
      exact .ok rfl resolved
  · have fits := whole fault e found (Or.inl pending)
    rw [result] at resolved ⊢
    have stamped : (MemoryStore.resolved outcome now e).resolvedAtNs = some now := rfl
    simp only [learnIfResolvedNow, if_pos stamped]
    refine Matched.map ?_ fun a b same => congrArg some same
    exact node.updateSynapse_inStep h
      ⟨resolved.faults, resolved.tracks, resolved.keyed, resolved.lower⟩ fits negative

/-- The call loses no decay: whatever it stamps as active, or rescales, carries its whole weight
already. -/
structure KeepsDecay (m : Moment ℝ) : Prop where
  settles : ∀ id outcome t, node.Settles m id outcome t →
    node.SettlesWhole id outcome m.before.clock t
  prunes : ∀ id r, m.call = .penalizeSignatureFailure id → m.before.store.getSynapse id = some r →
    ((Synapse.fromRecord r node.config.synapse).applySignatureFailure m.before.clock
      node.config.learning).1.pruned = true →
    Undecayed node.config.learning r.weight r.lastActiveNs m.before.clock

theorem sweep_inStep {m : Moment ℝ} {limit : ℕ} (call : m.call = .sweepTimeouts limit)
    (fault : nextFault m.before = none) (keeps : node.KeepsDecay m)
    {swept rest : List (JournalEntry ℝ)}
    (expired : m.before.store.expiredDecisions
      (node.config.learning.receiptDeadline m.before.clock) limit = swept ++ rest) {n : ℕ}
    (done : (swept.foldlM (fun n e => (n + ·) <$> node.sweepOne m.before.clock e) 0).run
      (m.before.stored m.before.store) = (.ok n, s))
    (start : InStep node.config.learning m.before.clock base falls s t) :
    Matched (InStep node.config.learning m.before.clock base falls) Eq
      ((rest.foldlM (fun n e => (n + ·) <$> node.sweepOne m.before.clock e) n).run s)
      ((rest.foldlM (fun n e => (n + ·) <$> node.sweepOne m.before.clock e) n).run t) := by
  induction rest generalizing swept n s t with
  | nil => exact .ok rfl start
  | cons x rest ih =>
    rw [List.foldlM_cons]
    have one : Matched (InStep node.config.learning m.before.clock base falls) Eq
        ((node.sweepOne m.before.clock x).run s) ((node.sweepOne m.before.clock x).run t) := by
      cases named : x.id with
      | none =>
        simp only [sweepOne, named]
        exact .ok rfl start
      | some id =>
        simp only [sweepOne, named]
        have whole := keeps.settles id .timedOut s (.sweep call fault expired named done)
        refine (node.settle_inStep h start whole fun _ => ?_).bind fun a b s' t' _ same states => ?_
        · norm_num [Outcome.reward, Scalar.lit]
        · rw [same]
          exact .ok rfl states
    refine (one.map fun a b same => congrArg (n + ·) same).bind fun a b s' t' ran same states => ?_
    subst same
    refine ih (expired.trans (List.append_cons _ _ _)) ?_ states
    rw [List.foldlM_append, Prog.run_bind_ok done]
    exact Prog.run_bind_ok ran

omit h in
theorem penalized_id (r : SynapseRecord ℝ) :
    ((Synapse.fromRecord r node.config.synapse).applySignatureFailure now
      node.config.learning).2.toRecord.id = r.id := by
  rw [Synapse.applySignatureFailure_eq]
  split_ifs
  · rfl
  · exact Synapse.updateState_id _

theorem penalized_follows {r e : SynapseRecord ℝ} (follows : Follows node.config.learning now r e)
    (prunes : ((Synapse.fromRecord r node.config.synapse).applySignatureFailure now
        node.config.learning).1.pruned = true →
      Undecayed node.config.learning r.weight r.lastActiveNs now) :
    ((Synapse.fromRecord e node.config.synapse).applySignatureFailure now
        node.config.learning).1 =
      ((Synapse.fromRecord r node.config.synapse).applySignatureFailure now
        node.config.learning).1 ∧
    Follows node.config.learning now
      ((Synapse.fromRecord r node.config.synapse).applySignatureFailure now
        node.config.learning).2.toRecord
      ((Synapse.fromRecord e node.config.synapse).applySignatureFailure now
        node.config.learning).2.toRecord := by
  obtain ⟨state, rfl⟩ := follows
  have counts : ((Synapse.fromRecord { r with
      weight := decayedWeight r.weight r.lastActiveNs now node.config.learning, state := state }
      node.config.synapse).penalized now node.config.learning).signatureFailures =
      ((Synapse.fromRecord r node.config.synapse).penalized now
        node.config.learning).signatureFailures := rfl
  rw [Synapse.applySignatureFailure_eq] at prunes ⊢
  rw [Synapse.applySignatureFailure_eq, counts]
  split_ifs at prunes ⊢ with pruned
  · refine ⟨rfl, .pruned, ?_⟩
    have undecayed := (prunes rfl).decayedWeight_eq h
    rw [undecayed]
    dsimp only [Synapse.toRecord]
    rw [decayedWeight_of_le _ (le_refl _)]
    rfl
  · refine ⟨rfl, ?_⟩
    obtain ⟨x, left⟩ := updateState_twin _
    obtain ⟨y, right⟩ := updateState_twin _
    rw [left, right]
    refine ⟨y, ?_⟩
    have weight : applySignaturePenalty
        (decayedWeight r.weight r.lastActiveNs now node.config.learning) node.config.learning =
        decayedWeight (applySignaturePenalty r.weight node.config.learning) r.lastActiveNs now
          node.config.learning :=
      (decayedWeight_scale h r.weight (sub_nonneg.mpr h.penalty_le)
        (sub_le_self 1 h.penalty.le) r.lastActiveNs now).symm
    dsimp only [Synapse.toRecord, Synapse.penalized, Synapse.fromRecord]
    rw [weight]

theorem penalizeSignatureFailure_inStep {id : SynapseId}
    (start : InStep node.config.learning s.clock base falls s t) (never : ¬ falls)
    (clock : t.clock = s.clock)
    (prunes : ∀ r, s.store.getSynapse id = some r →
      ((Synapse.fromRecord r node.config.synapse).applySignatureFailure s.clock
        node.config.learning).1.pruned = true →
      Undecayed node.config.learning r.weight r.lastActiveNs s.clock) :
    Matched (InStep node.config.learning s.clock base falls) Eq
      ((node.penalizeSignatureFailure id).run s) ((node.penalizeSignatureFailure id).run t) := by
  have opened : ∀ u : NodeState ℝ, (node.penalizeSignatureFailure id).run u = _ :=
    fun u => now_bind_run _ u
  rw [opened, opened, clock]
  refine start.bind_callStore fun _ => ?_
  dsimp only
  have lookups : Option.Rel (Follows node.config.learning s.clock)
      (s.store.getSynapse id) (t.store.getSynapse id) := start.tracks.synapses.lookup id
  generalize found : s.store.getSynapse id = x at lookups ⊢
  generalize t.store.getSynapse id = y at lookups ⊢
  cases lookups with
  | none => exact .ok rfl start.unchanged
  | @some r e follows =>
    obtain ⟨same, follow⟩ := node.penalized_follows h follows (prunes r found)
    have ids : e.id = r.id := by
      obtain ⟨state, rfl⟩ := follows
      rfl
    refine start.unchanged.bind_callStore fun _ => .ok (congrArg some same.symm) ?_
    refine start.unchanged.put ?_ follow fun falling => absurd falling never
    rw [penalized_id, penalized_id, ids]

end Settlement
end Node

end OpenNtl
