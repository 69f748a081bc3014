import OpenNtl.Decay
import OpenNtl.Lockstep
import OpenNtl.SynapseWrites

/-! # A node whose weights have been decayed already

The stored weights of a node are those of its last activity. Beside it runs the same code over a
store whose weights are decayed up to the current reading.
-/
namespace OpenNtl

open AtomicProgram NodeM

section Tracking

variable {c : LearningConfig ℝ} {now : ℕ}

/-- The second record has the decayed weight of the first. States may differ, since they follow
the weight. -/
def Follows (c : LearningConfig ℝ) (now : ℕ) (r e : SynapseRecord ℝ) : Prop :=
  ∃ state, e = { r with weight := decayedWeight r.weight r.lastActiveNs now c, state := state }

structure Tracks (c : LearningConfig ℝ) (now : ℕ) (st ref : MemoryStore ℝ) : Prop where
  synapses : HashMap.Related (Follows c now) st.synapses ref.synapses
  influence : ref.influence = st.influence
  journal : ref.journal = st.journal

/-- The record carries its whole weight: no decay has accrued since it was written. -/
structure Whole (c : LearningConfig ℝ) (now : ℕ) (r : SynapseRecord ℝ) : Prop where
  floored : c.minWeight ≤ r.weight
  undecayed : Undecayed c r.weight r.lastActiveNs now

/-- Either the stored weights are within the budget, or every one of them is whole. -/
structure Level (c : LearningConfig ℝ) (now : ℕ)
    (synapses : HashMap SynapseId (SynapseRecord ℝ)) : Prop where
  floored : ∀ r ∈ synapses.values, c.minWeight ≤ r.weight
  fits : (synapses.values.map SynapseRecord.weight).sum ≤ c.maxTotalOutboundWeight ∨
    ∀ r ∈ synapses.values, Undecayed c r.weight r.lastActiveNs now

theorem Follows.weight_eq (h : Sound c) {r e : SynapseRecord ℝ} (follows : Follows c now r e)
    (undecayed : Undecayed c r.weight r.lastActiveNs now) : e.weight = r.weight := by
  obtain ⟨state, rfl⟩ := follows
  exact undecayed.decayedWeight_eq h

theorem Follows.weight_le (h : Sound c) {r e : SynapseRecord ℝ} (follows : Follows c now r e)
    (floored : c.minWeight ≤ r.weight) : e.weight ≤ r.weight := by
  obtain ⟨state, rfl⟩ := follows
  exact decayedWeight_le h floored _ _

theorem scalarSum_eq (xs : List ℝ) : Scalar.sum xs = xs.sum := (List.sum_eq_foldl).symm

theorem listSynapses_weights_sum (st : MemoryStore ℝ) :
    Scalar.sum ((st.listSynapses {}).map SynapseRecord.weight) =
      (st.synapses.values.map SynapseRecord.weight).sum := by
  rw [scalarSum_eq, MemoryStore.listSynapses_all]
  exact ((sortBy_perm _ _).map _).sum_eq

theorem normalizeOutbound_none {weights : List ℝ}
    (fits : Scalar.sum weights ≤ c.maxTotalOutboundWeight) : normalizeOutbound weights c = none := by
  unfold normalizeOutbound
  rw [if_pos (Or.inl fits)]

theorem Tracks.sum_le (h : Sound c) {st ref : MemoryStore ℝ} (tracks : Tracks c now st ref)
    (floored : ∀ r ∈ st.synapses.values, c.minWeight ≤ r.weight) :
    (ref.synapses.values.map SynapseRecord.weight).sum ≤
      (st.synapses.values.map SynapseRecord.weight).sum := by
  have lists := tracks.synapses.values
  generalize st.synapses.values = xs at lists floored
  generalize ref.synapses.values = ys at lists
  induction lists with
  | nil => exact le_refl _
  | cons head _ ih =>
    rw [List.map_cons, List.map_cons, List.sum_cons, List.sum_cons]
    have first := head.weight_le h (floored _ List.mem_cons_self)
    have rest := ih fun r hr => floored r (List.mem_cons_of_mem _ hr)
    linarith

theorem synapseCmp_congr {a b a' b' : SynapseRecord ℝ} (ha : a'.weight = a.weight ∧ a'.id = a.id)
    (hb : b'.weight = b.weight ∧ b'.id = b.id) :
    MemoryStore.synapseCmp a b = MemoryStore.synapseCmp a' b' := by
  unfold MemoryStore.synapseCmp
  rw [ha.1, ha.2, hb.1, hb.2]

def Twins (r e : SynapseRecord ℝ) : Prop := ∃ state, e = { r with state := state }

theorem Follows.twins (h : Sound c) {r e : SynapseRecord ℝ} (follows : Follows c now r e)
    (undecayed : Undecayed c r.weight r.lastActiveNs now) : Twins r e := by
  have same := follows.weight_eq h undecayed
  obtain ⟨state, rfl⟩ := follows
  refine ⟨state, ?_⟩
  rw [show decayedWeight r.weight r.lastActiveNs now c = r.weight from same]

theorem Twins.follows {r e : SynapseRecord ℝ} (twins : Twins r e)
    (settled : decayedWeight r.weight r.lastActiveNs now c = r.weight) : Follows c now r e := by
  obtain ⟨state, rfl⟩ := twins
  refine ⟨state, ?_⟩
  rw [settled]

theorem Tracks.list_twins (h : Sound c) {st ref : MemoryStore ℝ} (tracks : Tracks c now st ref)
    (whole : ∀ r ∈ st.synapses.values, Undecayed c r.weight r.lastActiveNs now) :
    List.Forall₂ Twins (st.listSynapses {}) (ref.listSynapses {}) := by
  have twins : HashMap.Related Twins st.synapses ref.synapses :=
    tracks.synapses.mono fun r hr e follows => follows.twins h (whole r hr)
  rw [MemoryStore.listSynapses_all, MemoryStore.listSynapses_all]
  refine forall₂_sortBy (fun a b a' b' ha hb => ?_) twins.values
  obtain ⟨x, rfl⟩ := ha
  obtain ⟨y, rfl⟩ := hb
  exact synapseCmp_congr ⟨rfl, rfl⟩ ⟨rfl, rfl⟩

end Tracking

def Keyed (st : MemoryStore ℝ) : Prop := ∀ id r, st.getSynapse id = some r → r.id = id

theorem Keyed.find {st : MemoryStore ℝ} (h : Keyed st) {r : SynapseRecord ℝ}
    (listed : r ∈ st.synapses.values) : st.getSynapse r.id = some r := Filed.find h listed

theorem Keyed.put {st : MemoryStore ℝ} (h : Keyed st) (r : SynapseRecord ℝ) :
    Keyed (st.putSynapse r) := Filed.put h r

theorem Keyed.of_same {st st' : MemoryStore ℝ} (h : Keyed st)
    (same : st'.synapses = st.synapses) : Keyed st' := Filed.of_same h same

def NotAbove (c : LearningConfig ℝ) (now : ℕ) (st st' : MemoryStore ℝ) : Prop :=
  ∀ id r', st'.getSynapse id = some r' → ∃ r, st.getSynapse id = some r ∧
    decayedWeight r'.weight r'.lastActiveNs now c ≤ decayedWeight r.weight r.lastActiveNs now c

namespace NotAbove

variable {c : LearningConfig ℝ} {now : ℕ} {st st' st'' : MemoryStore ℝ}

theorem of_same (same : st'.synapses = st.synapses) : NotAbove c now st st' := by
  intro id r' found
  rw [MemoryStore.getSynapse_congr same] at found
  exact ⟨r', found, le_refl _⟩

theorem trans (first : NotAbove c now st st') (second : NotAbove c now st' st'') :
    NotAbove c now st st'' := by
  intro id r'' found
  obtain ⟨r', found', le'⟩ := second id r'' found
  obtain ⟨r, found, le⟩ := first id r' found'
  exact ⟨r, found, le'.trans le⟩

theorem put (h : NotAbove c now st st') {r' : SynapseRecord ℝ}
    (below : ∃ r, st.getSynapse r'.id = some r ∧ decayedWeight r'.weight r'.lastActiveNs now c ≤
      decayedWeight r.weight r.lastActiveNs now c) :
    NotAbove c now st (st'.putSynapse r') := by
  intro id x got
  rcases MemoryStore.found_put rfl got with ⟨rfl, rfl⟩ | ⟨-, before⟩
  · exact below
  · exact h id x before

end NotAbove

/-- Both nodes are at the same point: the second has the decayed weights of the first. `falls`
says that every outcome since `base` had a negative reward. -/
structure InStep (c : LearningConfig ℝ) (now : ℕ) (base : MemoryStore ℝ) (falls : Prop)
    (s t : NodeState ℝ) : Prop where
  faults : t.faults = s.faults
  tracks : Tracks c now s.store t.store
  keyed : Keyed s.store
  lower : falls → NotAbove c now base s.store

namespace InStep

variable {c : LearningConfig ℝ} {now : ℕ} {base : MemoryStore ℝ} {falls : Prop}
  {s t : NodeState ℝ} {α β γ : Type}

theorem stored (h : InStep c now base falls s t) {st ref : MemoryStore ℝ}
    (tracks : Tracks c now st ref) (keyed : Keyed st) (lower : falls → NotAbove c now base st) :
    InStep c now base falls (s.stored st) (t.stored ref) :=
  ⟨congrArg List.tail h.faults, tracks, keyed, lower⟩

theorem unchanged (h : InStep c now base falls s t) :
    InStep c now base falls (s.stored s.store) (t.stored t.store) :=
  h.stored h.tracks h.keyed h.lower

theorem nextFault_eq (h : InStep c now base falls s t) : nextFault t = nextFault s := by
  unfold nextFault
  rw [h.faults]

theorem bind_callStore {Q : β → γ → Prop} (h : InStep c now base falls s t)
    {op op' : MemoryStore ℝ → α × MemoryStore ℝ} {f : α → NodeM ℝ β} {g : α → NodeM ℝ γ}
    (next : nextFault s = none → Matched (InStep c now base falls) Q
      ((f (op s.store).1).run (s.stored (op s.store).2))
      ((g (op' t.store).1).run (t.stored (op' t.store).2))) :
    Matched (InStep c now base falls) Q ((callStore op >>= f).run s)
      ((callStore op' >>= g).run t) := by
  cases fault : nextFault s with
  | some e =>
    rw [Prog.run_bind_error (callStore_run_error fault),
      Prog.run_bind_error (callStore_run_error (h.nextFault_eq.trans fault))]
    exact .error h.unchanged
  | none =>
    rw [Prog.run_bind_ok (callStore_run_ok fault),
      Prog.run_bind_ok (callStore_run_ok (h.nextFault_eq.trans fault))]
    exact next fault

theorem writeStore (h : InStep c now base falls s t) {op op' : MemoryStore ℝ → MemoryStore ℝ}
    (after : InStep c now base falls (s.stored (op s.store)) (t.stored (op' t.store))) :
    Matched (InStep c now base falls) (fun _ _ => True) ((NodeM.writeStore op).run s)
      ((NodeM.writeStore op').run t) := by
  have both : Matched (InStep c now base falls) (fun _ _ => True)
      ((callStore (fun st => ((), op st)) >>= fun _ => pure ()).run s)
      ((callStore (fun st => ((), op' st)) >>= fun _ => pure ()).run t) :=
    h.bind_callStore fun _ => .ok trivial after
  rwa [bind_pure, bind_pure] at both

theorem put (h : InStep c now base falls s t) {r e : SynapseRecord ℝ} (same : e.id = r.id)
    (follows : Follows c now r e) (below : falls → ∃ r₀, base.getSynapse r.id = some r₀ ∧
      decayedWeight r.weight r.lastActiveNs now c ≤ decayedWeight r₀.weight r₀.lastActiveNs now c) :
    InStep c now base falls (s.stored (s.store.putSynapse r)) (t.stored (t.store.putSynapse e)) := by
  refine h.stored ⟨?_, h.tracks.influence, h.tracks.journal⟩ (h.keyed.put r) fun falling => ?_
  · have put := h.tracks.synapses.insert r.id follows
    rw [← same] at put
    simpa only [MemoryStore.putSynapse, same] using put
  · exact (h.lower falling).put (below falling)

end InStep

/-- A reward that is not positive is applied in full: the influence cap is for praise. -/
theorem applyReward_after_eq {c : LearningConfig ℝ} (h : Sound c) (w : ℝ) {outcome : Outcome}
    (negative : outcome.reward (F := ℝ) < 0) (signalWeight used : ℝ) :
    c.learningRate * outcome.reward * Scalar.clamp signalWeight 0 1 ≤ 0 ∧
    (applyReward w outcome signalWeight used c).after = Scalar.clamp
      (w + c.learningRate * outcome.reward * Scalar.clamp signalWeight 0 1)
      c.minWeight c.maxWeight := by
  have raw : c.learningRate * outcome.reward * Scalar.clamp signalWeight 0 1 ≤ 0 := by
    have step : c.learningRate * outcome.reward (F := ℝ) ≤ 0 :=
      mul_nonpos_of_nonneg_of_nonpos h.rate.le negative.le
    exact mul_nonpos_of_nonpos_of_nonneg step (OrderedScalar.le_clamp zero_le_one)
  have notPositive : ¬ 0 < c.learningRate * outcome.reward * Scalar.clamp signalWeight 0 1 :=
    not_lt.mpr raw
  refine ⟨raw, ?_⟩
  unfold applyReward
  simp only [notPositive, false_and, if_false]

theorem updateState_twin (s : Synapse ℝ) : ∃ state, s.updateState = { s with state := state } := by
  unfold Synapse.updateState
  split_ifs
  · exact ⟨s.state, rfl⟩
  · exact ⟨.active, rfl⟩
  · exact ⟨.weakening, rfl⟩
  · exact ⟨.dormant, rfl⟩

namespace Node

variable (node : Node ℝ)

/-- The record an outcome leaves, given the influence its peer has used up. -/
noncomputable def weighed (used : ℝ) (entry : JournalEntry ℝ) (outcome : Outcome) (nowNs : ℕ)
    (r : SynapseRecord ℝ) : SynapseRecord ℝ :=
  { ((Synapse.fromRecord r node.config.synapse).applyOutcome outcome
      (Scalar.clamp entry.signalWeight 0 1) (signalTypeNameOf entry.signalType) used
      node.config.learning).2 with lastActiveNs := nowNs }.toRecord

theorem weighed_id (used : ℝ) (entry : JournalEntry ℝ) (outcome : Outcome) (nowNs : ℕ)
    (r : SynapseRecord ℝ) : (node.weighed used entry outcome nowNs r).id = r.id :=
  Synapse.updateState_id _

theorem weighed_lastActiveNs (used : ℝ) (entry : JournalEntry ℝ) (outcome : Outcome) (nowNs : ℕ)
    (r : SynapseRecord ℝ) : (node.weighed used entry outcome nowNs r).lastActiveNs = nowNs := rfl

theorem weighed_weight (h : Sound node.config.learning) (r : SynapseRecord ℝ) {outcome : Outcome}
    (negative : outcome.reward (F := ℝ) < 0) (used : ℝ) (entry : JournalEntry ℝ) (nowNs : ℕ) :
    (node.weighed used entry outcome nowNs r).weight = min (Scalar.clamp
      (r.weight + node.config.learning.learningRate * outcome.reward *
        Scalar.clamp (Scalar.clamp entry.signalWeight 0 1) 0 1)
      node.config.learning.minWeight node.config.learning.maxWeight)
      node.config.synapse.maxWeight := by
  rw [← (applyReward_after_eq h r.weight negative _ used).2]
  exact Synapse.updateState_weight _

theorem weighed_weight_le (h : Sound node.config.learning) {r : SynapseRecord ℝ}
    (floored : node.config.learning.minWeight ≤ r.weight) {outcome : Outcome}
    (negative : outcome.reward (F := ℝ) < 0) (used : ℝ) (entry : JournalEntry ℝ) (nowNs : ℕ) :
    (node.weighed used entry outcome nowNs r).weight ≤ r.weight := by
  rw [node.weighed_weight h r negative]
  have delta := (applyReward_after_eq h r.weight negative
    (Scalar.clamp entry.signalWeight 0 1) used).1
  exact (min_le_left _ _).trans (OrderedScalar.clamp_le_of_le (by linarith) floored)

theorem weighed_twins {r e : SynapseRecord ℝ} (twins : Twins r e) (used : ℝ)
    (entry : JournalEntry ℝ) (outcome : Outcome) (nowNs : ℕ) :
    Twins (node.weighed used entry outcome nowNs r) (node.weighed used entry outcome nowNs e) := by
  obtain ⟨state, rfl⟩ := twins
  unfold weighed Synapse.applyOutcome
  dsimp only
  obtain ⟨x, left⟩ := updateState_twin _
  obtain ⟨y, right⟩ := updateState_twin _
  rw [left, right]
  exact ⟨y, rfl⟩

end Node
end OpenNtl
