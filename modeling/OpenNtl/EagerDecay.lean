import OpenNtl.CallFrame
import OpenNtl.EagerCalls

/-! # Lazy decay and eager decay -/
namespace OpenNtl

open AtomicProgram NodeM

/-- A node that decays its weights as time passes: they are what they were at `asOf`, and from
then on decay. -/
structure Eager where
  store : MemoryStore ℝ
  asOf : ℕ

noncomputable def Eager.decayedTo (c : LearningConfig ℝ) (e : Eager) (nowNs : ℕ) : MemoryStore ℝ :=
  { e.store with
    synapses := HashMap.mapValues (fun r =>
      { r with weight := decayedWeight r.weight (max e.asOf r.lastActiveNs) nowNs c })
      e.store.synapses }

/-- The calls that weigh outcomes and signature failures in. -/
inductive Call.Teaches : Call ℝ → Prop
  | learn {call : Call ℝ} (learns : call.Learns) : Teaches call
  | penalize (id : SynapseId) : Teaches (.penalizeSignatureFailure id)

/-- The outcomes of the call all have a negative reward. -/
inductive Call.OnlyLowers : Call ℝ → Prop
  | forward (id : JournalId) : OnlyLowers (.failForward id)
  | receipt {receipt : Receipt} {peer : NodeId}
      (negative : receipt.outcome.reward (F := ℝ) < 0) : OnlyLowers (.applyReceipt receipt peer)
  | sweep (limit : ℕ) : OnlyLowers (.sweepTimeouts limit)

namespace Node

variable (node : Node ℝ)

noncomputable def eagerly (m : Moment ℝ) (e : Eager) : Eager where
  store := ((node.perform m.call).run
    { m.before with store := e.decayedTo node.config.learning m.before.clock }).2.store
  asOf := m.before.clock

/-- The eager node over what a routing read has left. It has its own weights. -/
noncomputable def eagerlyRead (m : Moment ℝ) (e : Eager) : Eager where
  store := { m.after.store with
    synapses := (e.decayedTo node.config.learning m.before.clock).synapses }
  asOf := m.before.clock

/-- A run of outcomes, signature failures and routing reads at nondecreasing readings of the
clock, from any store whose records are filed under their own identifiers. Beside it, the eager
node that began with the same weights. -/
inductive EagerRun : List (Moment ℝ) → NodeState ℝ → Eager → Prop
  | start (s : NodeState ℝ) (keyed : Keyed s.store) : EagerRun [] s ⟨s.store, 0⟩
  | teach {ms : List (Moment ℝ)} {s : NodeState ℝ} {e : Eager} {m : Moment ℝ} :
      EagerRun ms s e → Resumes s m.before → e.asOf ≤ m.before.clock → m.call.Teaches →
      m.Performed node → EagerRun (ms ++ [m]) m.after (node.eagerly m e)
  | read {ms : List (Moment ℝ)} {s : NodeState ℝ} {e : Eager} {m : Moment ℝ} :
      EagerRun ms s e → Resumes s m.before → e.asOf ≤ m.before.clock → m.call.Reads →
      m.Performed node → EagerRun (ms ++ [m]) m.after (node.eagerlyRead m e)

end Node

theorem Tracks.decayedTo {c : LearningConfig ℝ} (h : Sound c) {st : MemoryStore ℝ} {e : Eager}
    (tracks : Tracks c e.asOf st e.store) {now : ℕ} (later : e.asOf ≤ now) :
    Tracks c now st (e.decayedTo c now) := by
  refine ⟨tracks.synapses.mapValues_right fun r x follows => ?_, tracks.influence, tracks.journal⟩
  obtain ⟨state, rfl⟩ := follows
  refine ⟨state, ?_⟩
  dsimp only
  rw [decayedWeight_decayedWeight h r.weight later]

namespace Node

variable {node : Node ℝ}

theorem teach_inStep (h : Sound node.config.learning) {m : Moment ℝ} (teaches : m.call.Teaches)
    (keeps : node.KeepsDecay m) {ref : MemoryStore ℝ}
    (tracks : Tracks node.config.learning m.before.clock m.before.store ref)
    (keyed : Keyed m.before.store) :
    Matched (InStep node.config.learning m.before.clock m.before.store m.call.OnlyLowers)
      Eq ((node.perform m.call).run m.before)
      ((node.perform m.call).run { m.before with store := ref }) := by
  have start : InStep node.config.learning m.before.clock m.before.store m.call.OnlyLowers
      m.before { m.before with store := ref } := ⟨rfl, tracks, keyed, fun _ => .of_same rfl⟩
  generalize call : m.call = c at teaches start ⊢
  cases teaches with
  | penalize id =>
    refine Matched.map ?_ fun a b same => congrArg Reply.penalty same
    refine node.penalizeSignatureFailure_inStep h start (fun falls => by cases falls) rfl ?_
    exact fun r found => keeps.prunes id r call found
  | learn learns =>
    cases learns with
    | forward id =>
      refine Matched.map ?_ fun a b same => congrArg Reply.update same
      refine node.settle_inStep h start (keeps.settles id _ _ (.forward call)) fun _ => ?_
      norm_num [Outcome.reward, Scalar.lit]
    | receipt receipt peer =>
      refine Matched.map ?_ fun a b same => congrArg Reply.update same
      refine start.bind_callStore fun fault => ?_
      have same : ref.pendingDecisionFor receipt.correlationId peer =
          m.before.store.pendingDecisionFor receipt.correlationId peer := by
        unfold MemoryStore.pendingDecisionFor
        rw [tracks.journal]
      dsimp only
      rw [same]
      cases pending : m.before.store.pendingDecisionFor receipt.correlationId peer with
      | none => exact .ok rfl start.unchanged
      | some x =>
        cases named : x.id with
        | none =>
          simp only [Option.bind_some, named]
          exact .ok rfl start.unchanged
        | some id =>
          simp only [Option.bind_some, named]
          refine node.settle_inStep h start.unchanged
            (keeps.settles id _ _ (.receipt call fault pending named)) fun falls => ?_
          cases falls with
          | receipt negative => exact negative
    | sweep limit =>
      refine Matched.map ?_ fun a b same => congrArg Reply.count same
      refine start.bind_callStore fun fault => ?_
      have same : ref.expiredDecisions (node.config.learning.receiptDeadline m.before.clock) limit =
          m.before.store.expiredDecisions (node.config.learning.receiptDeadline m.before.clock)
            limit := by
        unfold MemoryStore.expiredDecisions
        rw [tracks.journal]
      dsimp only
      rw [same]
      exact node.sweep_inStep h call fault keeps (List.nil_append _).symm rfl start.unchanged

/-- What a routing read keeps. -/
structure KeepsWeights (st st' : MemoryStore ℝ) : Prop where
  synapses : st'.synapses = st.synapses
  influence : st'.influence = st.influence

theorem keepsWeights_across : HoldsAcrossReads KeepsWeights where
  same := fun _ => ⟨rfl, rfl⟩
  claims := by
    intro st id nowNs ttlSecs
    refine ⟨st.checkAndSetSeen_synapses id nowNs ttlSecs, ?_⟩
    unfold MemoryStore.checkAndSetSeen
    split
    · split <;> rfl
    · rfl
  plans := fun appends => ⟨appends.synapses, appends.influence⟩
  saves := fun _ _ => ⟨rfl, rfl⟩
  purges := fun _ _ => ⟨rfl, rfl⟩

theorem read_keeps {m : Moment ℝ} (reads : m.call.Reads) (performed : m.Performed node) :
    KeepsWeights m.before.store m.after.store := by
  have quiet := (node.reads_quiet keepsWeights_across reads).run
    (Quiet.refl keepsWeights_across.same)
    (fun h k => h.trans (fun a b => ⟨b.1.trans a.1, b.2.trans a.2⟩) k) m.before
  unfold Moment.Performed at performed
  rw [performed] at quiet
  exact quiet.store

/-- In a run whose calls lose no decay, the eager node has the decayed weights of the lazy one,
and outcomes with a negative reward have raised none. -/
theorem EagerRun.tracks (h : Sound node.config.learning) {ms : List (Moment ℝ)} {s : NodeState ℝ}
    {e : Eager} (run : node.EagerRun ms s e) (keeps : ∀ m ∈ ms, node.KeepsDecay m) :
    Keyed s.store ∧ Tracks node.config.learning e.asOf s.store e.store ∧
      ∀ m ∈ ms, m.call.OnlyLowers →
        NotAbove node.config.learning m.before.clock m.before.store m.after.store := by
  induction run with
  | start s keyed =>
    refine ⟨keyed, ⟨HashMap.Related.refl fun r _ => ?_, rfl, rfl⟩, fun m hm => by cases hm⟩
    exact Twins.follows ⟨r.state, rfl⟩ (decayedWeight_of_le _ (Nat.zero_le _))
  | @teach ms s e m run resumes later teaches performed ih =>
    obtain ⟨keyed, tracks, lowers⟩ := ih fun m hm => keeps m (List.mem_append_left _ hm)
    rw [← resumes.store] at keyed tracks
    have matched := (teach_inStep h teaches (keeps m (by simp)) (tracks.decayedTo h later)
      keyed).states
    unfold Moment.Performed at performed
    rw [performed] at matched
    refine ⟨matched.keyed, matched.tracks, fun m' hm' falls => ?_⟩
    rcases List.mem_append.mp hm' with hm' | hm'
    · exact lowers m' hm' falls
    · obtain rfl := List.mem_singleton.mp hm'
      exact matched.lower falls
  | @read ms s e m run resumes later reads performed ih =>
    obtain ⟨keyed, tracks, lowers⟩ := ih fun m hm => keeps m (List.mem_append_left _ hm)
    rw [← resumes.store] at keyed tracks
    have same := read_keeps reads performed
    have after := tracks.decayedTo h later
    refine ⟨?_, ⟨?_, rfl, rfl⟩, fun m' hm' falls => ?_⟩
    · exact keyed.of_same same.synapses
    · rw [same.synapses]
      exact after.synapses
    · rcases List.mem_append.mp hm' with hm' | hm'
      · exact lowers m' hm' falls
      · obtain rfl := List.mem_singleton.mp hm'
        exact NotAbove.of_same same.synapses

noncomputable def effectiveWeight (node : Node ℝ) (st : MemoryStore ℝ) (nowNs : ℕ)
    (id : SynapseId) : Option ℝ :=
  (st.getSynapse id).map fun r => (node.rehydrate nowNs r).weight

noncomputable def eagerWeight (node : Node ℝ) (e : Eager) (nowNs : ℕ) (id : SynapseId) :
    Option ℝ :=
  ((e.decayedTo node.config.learning nowNs).getSynapse id).map SynapseRecord.weight

/-- Lazy decay cannot be told from eager decay, and no outcome with a negative reward has raised
a weight. -/
structure Indistinguishable (node : Node ℝ) (ms : List (Moment ℝ)) (s : NodeState ℝ)
    (e : Eager) : Prop where
  same : ∀ nowNs, e.asOf ≤ nowNs → ∀ id,
    node.effectiveWeight s.store nowNs id = node.eagerWeight e nowNs id
  lowers : ∀ m ∈ ms, m.call.OnlyLowers → ∀ id w w',
    node.effectiveWeight m.before.store m.before.clock id = some w →
    node.effectiveWeight m.after.store m.before.clock id = some w' → w' ≤ w

/-- In every run of outcomes, signature failures and routing reads whose calls stamp or rescale
only synapses that carry their whole weight, lazy decay is indistinguishable from eager decay. -/
theorem lazy_decay_is_eager {ms : List (Moment ℝ)} {s : NodeState ℝ} {e : Eager}
    (checked : node.config.learning.validate = .ok ()) (run : node.EagerRun ms s e)
    (keeps : ∀ m ∈ ms, node.KeepsDecay m) : node.Indistinguishable ms s e := by
  have h := Sound.of_validate checked
  obtain ⟨-, tracks, lowers⟩ := run.tracks h keeps
  constructor
  · intro now later id
    have lookups := (tracks.decayedTo h later).synapses.lookup id
    unfold effectiveWeight eagerWeight MemoryStore.getSynapse
    generalize AList.lookup id s.store.synapses = x at lookups ⊢
    generalize AList.lookup id (e.decayedTo node.config.learning now).synapses = y at lookups ⊢
    cases lookups with
    | none => rfl
    | some follows =>
      obtain ⟨state, rfl⟩ := follows
      rfl
  · intro m hm falls id w w' before after
    obtain ⟨r, found, rfl⟩ := Option.map_eq_some_iff.mp before
    obtain ⟨r', found', rfl⟩ := Option.map_eq_some_iff.mp after
    obtain ⟨r₀, found₀, le⟩ := lowers m hm falls id r' found'
    obtain rfl := Option.some.inj (found.symm.trans found₀)
    exact le

end Node

section Idle

namespace Node

variable (node : Node ℝ) {s : NodeState ℝ} {entry : JournalEntry ℝ} {r : SynapseRecord ℝ}

theorem normalizeOutboundWeights_fits (s : NodeState ℝ)
    (fits : (s.store.synapses.values.map SynapseRecord.weight).sum ≤
      node.config.learning.maxTotalOutboundWeight) :
    (node.normalizeOutboundWeights.run s).2.store = s.store := by
  cases fault : nextFault s with
  | some f =>
    have failed : node.normalizeOutboundWeights.run s = _ :=
      Prog.run_bind_error (readStore_run_error fault)
    rw [failed]
    rfl
  | none =>
    have listed : node.normalizeOutboundWeights.run s = _ :=
      Prog.run_bind_ok (readStore_run_ok fault)
    rw [listed]
    by_cases empty : (s.store.listSynapses {}).isEmpty = true
    · rw [if_pos empty]
      rfl
    · rw [if_neg empty, normalizeOutbound_none ((listSynapses_weights_sum _).trans_le fits)]
      rfl

theorem putWeighed_fits {w : SynapseRecord ℝ} {γ : Type} {update : γ} (quiet : s.faults = [])
    (fits : ((s.store.putSynapse w).synapses.values.map SynapseRecord.weight).sum ≤
      node.config.learning.maxTotalOutboundWeight) :
    ((do
      NodeM.writeStore fun st => st.putSynapse w
      let _ ← node.normalizeOutboundWeights
      return update).run s).2.store = s.store.putSynapse w := by
  rw [NodeM.writeStore, Prog.run_bind_ok (callStore_run_ok (nextFault_quiet quiet))]
  have kept := node.normalizeOutboundWeights_fits (s.stored (s.store.putSynapse w)) fits
  rw [bind_pure_comp, Prog.run_map]
  exact kept

theorem updateSynapse_fits {outcome : Outcome} {nowNs : ℕ} {w : SynapseRecord ℝ}
    (quiet : s.faults = []) (found : s.store.getSynapse entry.synapse = some r)
    (weighed : node.weighed (s.store.influenceSince entry.peer
      (node.config.learning.influenceWindowStart nowNs)) entry outcome nowNs r = w)
    (fits : ((s.store.putSynapse w).synapses.values.map SynapseRecord.weight).sum ≤
      node.config.learning.maxTotalOutboundWeight) :
    ((node.updateSynapse entry outcome nowNs).run s).2.store.synapses =
      (s.store.putSynapse w).synapses := by
  have first : (node.updateSynapse entry outcome nowNs).run s = _ :=
    Prog.run_bind_ok (readStore_run_ok (nextFault_quiet quiet))
  have quiet₁ : (s.stored s.store).faults = [] := congrArg List.tail quiet
  have quiet₂ : ((s.stored s.store).stored s.store).faults = [] := congrArg List.tail quiet₁
  rw [first, Prog.run_bind_ok (readStore_run_ok (nextFault_quiet quiet₁))]
  dsimp only [NodeState.stored_store]
  rw [found]
  subst weighed
  dsimp only
  split_ifs with charged
  · rw [Prog.run_bind_ok (callStore_run_ok (nextFault_quiet quiet₂))]
    refine (congrArg MemoryStore.synapses (node.putWeighed_fits ?_ ?_)).trans ?_
    · exact congrArg List.tail quiet₂
    · exact fits
    · rfl
  · exact congrArg MemoryStore.synapses (node.putWeighed_fits quiet₂ fits)

theorem failForward_fits {id : JournalId} {w : SynapseRecord ℝ} (quiet : s.faults = [])
    (pending : s.store.decision id = some entry) (unresolved : entry.outcome = .pending)
    (found : s.store.getSynapse entry.synapse = some r)
    (weighed : node.weighed (s.store.influenceSince entry.peer
      (node.config.learning.influenceWindowStart s.clock)) entry .transportFailure s.clock r = w)
    (fits : ((s.store.putSynapse w).synapses.values.map SynapseRecord.weight).sum ≤
      node.config.learning.maxTotalOutboundWeight) :
    ((node.perform (.failForward id)).run s).2.store.synapses =
      (s.store.putSynapse w).synapses := by
  have spec := node.settle_spec id .transportFailure s.clock s
  have performed : ((node.perform (.failForward id)).run s).2 =
      ((node.settle id .transportFailure s.clock).run s).2 := by
    simp only [perform, Prog.run_map]
    rfl
  rw [performed]
  generalize (node.settle id .transportFailure s.clock).run s = result at spec
  cases spec with
  | failed fault => rw [nextFault_quiet quiet] at fault; cases fault
  | unknown fault missing => rw [pending] at missing; cases missing
  | earlier fault prior done before =>
    obtain rfl := Option.some.inj (pending.symm.trans prior)
    rw [unresolved] at done
    cases done
  | again fault prior done now =>
    obtain rfl := Option.some.inj (pending.symm.trans prior)
    rw [unresolved] at done
    cases done
  | learns fault prior =>
    obtain rfl := Option.some.inj (pending.symm.trans prior)
    have synapses := s.store.resolveDecision_synapses id .transportFailure s.clock
    have influence := s.store.resolveDecision_influence id .transportFailure s.clock
    have put : ((afterResolve id .transportFailure s.clock s).store.putSynapse w).synapses =
        (s.store.putSynapse w).synapses := by
      simp only [MemoryStore.putSynapse, afterResolve, NodeState.stored_store, synapses]
    rw [applyOutcomeToSynapse_run, ← put]
    refine node.updateSynapse_fits (congrArg List.tail quiet) (r := r) ?_ ?_ ?_
    · exact (congrArg (fun m : HashMap SynapseId (SynapseRecord ℝ) => m.lookup entry.synapse)
        synapses).trans found
    · have used : (s.store.resolveDecision id .transportFailure s.clock).2.influenceSince entry.peer
          (node.config.learning.influenceWindowStart s.clock) = s.store.influenceSince entry.peer
          (node.config.learning.influenceWindowStart s.clock) := by
        unfold MemoryStore.influenceSince
        rw [influence]
      rw [← weighed, ← used]
      rfl
    · exact put ▸ fits

end Node

noncomputable def exactEdge : Node ℝ := ⟨⟨[0]⟩, .forClass .edge⟩

noncomputable def halfSynapse (weight : ℝ) (lastActiveNs : ℕ) : SynapseRecord ℝ where
  id := ⟨"s"⟩
  peer := neighbour
  weight := weight
  attenuationFactor := 9 / 10
  state := .active
  typeAffinity := ∅
  establishedAtNs := 0
  lastActiveNs := lastActiveNs
  signalsTransmitted := 0
  signalsReceived := 0
  avgLatencyNs := 0
  errorRate := 0
  signatureFailures := 0
  failureWindowStartNs := 0

noncomputable def openDecision (decidedAtNs : ℕ) : JournalEntry ℝ where
  id := some ⟨1⟩
  signal := ⟨7⟩
  signalType := .data
  synapse := ⟨"s"⟩
  peer := neighbour
  score := 1
  signalWeight := 1
  explored := false
  decidedAtNs := decidedAtNs
  outcome := .pending
  resolvedAtNs := none

def weekNs : ℕ := 168 * 3600 * nanosPerSec

/-- A node with one synapse, last active at reading 0, and one decision made at this one. -/
noncomputable def decidedAt (clock : ℕ) : NodeState ℝ :=
  exactEdge.build
    { MemoryStore.new.putSynapse (halfSynapse (Scalar.lit (1 / 2)) 0) with
      journal := [openDecision clock], nextJournalId := 1 } .maximal clock []

noncomputable def transmissionFailed (clock : ℕ) : Moment ℝ :=
  exactEdge.momentAt (.failForward ⟨1⟩) (decidedAt clock)

theorem exactEdge_checked : exactEdge.config.learning.validate = .ok () := forClass_validate .edge

theorem exactEdge_weighed (w : ℝ) (low : 1 / 10 ≤ w) (high : w ≤ 1) (la nowNs : ℕ) (used : ℝ)
    (clock : ℕ) :
    (exactEdge.weighed used (openDecision clock) .transportFailure nowNs
      (halfSynapse w la)).weight = w - 1 / 40 := by
  rw [exactEdge.weighed_weight (Sound.of_validate exactEdge_checked)]
  · have bounds : exactEdge.config.learning.minWeight = 1 / 1000 ∧
        exactEdge.config.learning.maxWeight = 1 ∧ exactEdge.config.synapse.maxWeight = 1 ∧
        exactEdge.config.learning.learningRate = 1 / 20 := by
      norm_num [exactEdge, NodeConfig.forClass, LearningConfig.forClass, SynapseConfig.default,
        Scalar.lit]
    rw [bounds.1, bounds.2.1, bounds.2.2.1, bounds.2.2.2]
    norm_num [openDecision, halfSynapse, Scalar.clamp, Outcome.reward, Scalar.lit]
    rw [if_neg (by linarith), if_neg (by linarith), min_eq_left (by linarith)]
    ring
  · norm_num [Outcome.reward, Scalar.lit]

theorem exactEdge_floor : exactEdge.config.learning.minWeight = 1 / 1000 := by
  norm_num [exactEdge, NodeConfig.forClass, LearningConfig.forClass, Scalar.lit]

theorem retention_weeks (n : ℕ) :
    retention exactEdge.config.learning (n * weekNs) = (1 / 2) ^ n := by
  have halfLife : exactEdge.config.learning.decayHalfLifeHours = 168 := by
    norm_num [exactEdge, NodeConfig.forClass, LearningConfig.forClass, Scalar.lit]
  have hours : nsToHours (F := ℝ) weekNs = 168 := by
    rw [nsToHours_eq]
    norm_num [weekNs, nanosPerSec]
  have week : retention exactEdge.config.learning weekNs = 1 / 2 := by
    rw [retention_eq, hours, halfLife]
    norm_num [Real.rpow_neg_one]
  induction n with
  | zero =>
    rw [Nat.zero_mul, retention_eq, nsToHours_eq]
    norm_num
  | succ n ih => rw [Nat.succ_mul, retention_add, ih, week, pow_succ]

theorem decayedWeight_week :
    decayedWeight (Scalar.lit (1 / 2) : ℝ) 0 weekNs exactEdge.config.learning = 1 / 4 := by
  have passes : 0 < weekNs := by norm_num [weekNs, nanosPerSec]
  have week := retention_weeks 1
  rw [Nat.one_mul] at week
  rw [decayedWeight_of_lt _ passes, Nat.sub_zero, week, exactEdge_floor]
  norm_num [Scalar.lit]

/-- Where there is the one synapse, a failed transmission costs it 1/40 and stamps it active. -/
theorem failed_transmission_leaves {s : NodeState ℝ} {w : ℝ} {la clock : ℕ} (quiet : s.faults = [])
    (journal : s.store.journal = [openDecision clock])
    (synapses : s.store.synapses = (MemoryStore.new.putSynapse (halfSynapse w la)).synapses)
    (low : 1 / 10 ≤ w) (high : w ≤ 1) :
    ∃ r, ((exactEdge.perform (.failForward ⟨1⟩)).run s).2.store.getSynapse ⟨"s"⟩ = some r ∧
      r.weight = w - 1 / 40 ∧ r.lastActiveNs = s.clock := by
  generalize weighed : exactEdge.weighed (s.store.influenceSince neighbour
    (exactEdge.config.learning.influenceWindowStart s.clock)) (openDecision clock)
    .transportFailure s.clock (halfSynapse w la) = r
  have id : r.id = ⟨"s"⟩ := by
    rw [← weighed, Node.weighed_id]
    rfl
  have weight : r.weight = w - 1 / 40 := by
    rw [← weighed]
    exact exactEdge_weighed w low high _ _ _ _
  have values : (s.store.putSynapse r).synapses.values = [r] := by
    unfold MemoryStore.putSynapse
    rw [synapses, id]
    rfl
  have pending : s.store.decision ⟨1⟩ = some (openDecision clock) := by
    unfold MemoryStore.decision
    rw [journal]
    rfl
  have found : s.store.getSynapse ⟨"s"⟩ = some (halfSynapse w la) :=
    MemoryStore.put_getSynapse_same synapses
  have left := exactEdge.failForward_fits quiet pending rfl found weighed (by
    rw [values]
    norm_num [weight, exactEdge, NodeConfig.forClass, LearningConfig.forClass, Scalar.lit]
    linarith)
  refine ⟨r, ?_, weight, ?_⟩
  · rw [← id]
    exact MemoryStore.put_getSynapse_same left
  · rw [← weighed]
    rfl

theorem transmission_failed (clock : ℕ) :
    exactEdge.EagerRun [transmissionFailed clock] (transmissionFailed clock).after
      (exactEdge.eagerly (transmissionFailed clock) ⟨(decidedAt clock).store, 0⟩) := by
  have empty : Keyed (MemoryStore.new : MemoryStore ℝ) := fun id r found => by cases found
  have keyed : Keyed (decidedAt clock).store := empty.put (halfSynapse (Scalar.lit (1 / 2)) 0)
  exact (Node.EagerRun.start _ keyed).teach ⟨rfl, rfl, rfl, rfl⟩ (Nat.zero_le _)
    (.learn (.forward _)) (exactEdge.momentAt_performed _ _)

/-- After an idle week the failure raises the weight from 1/4 to 19/40. Eagerly it is 9/40. -/
theorem idle_failure_raises_weight :
    exactEdge.effectiveWeight (decidedAt weekNs).store weekNs ⟨"s"⟩ = some (1 / 4) ∧
    exactEdge.effectiveWeight (transmissionFailed weekNs).after.store weekNs ⟨"s"⟩ =
      some (19 / 40) ∧
    exactEdge.eagerWeight (exactEdge.eagerly (transmissionFailed weekNs)
      ⟨(decidedAt weekNs).store, 0⟩) weekNs ⟨"s"⟩ = some (9 / 40) ∧
    ¬ ∀ (ms : List (Moment ℝ)) (s : NodeState ℝ) (e : Eager), exactEdge.EagerRun ms s e →
      exactEdge.Indistinguishable ms s e := by
  have before : exactEdge.effectiveWeight (decidedAt weekNs).store weekNs ⟨"s"⟩ = some (1 / 4) :=
    congrArg some decayedWeight_week
  have after : exactEdge.effectiveWeight (transmissionFailed weekNs).after.store weekNs ⟨"s"⟩ =
      some (19 / 40) := by
    obtain ⟨r, found, weight, active⟩ := failed_transmission_leaves (s := decidedAt weekNs)
      rfl rfl rfl (by norm_num [Scalar.lit]) (by norm_num [Scalar.lit])
    have here : (transmissionFailed weekNs).after.store.getSynapse ⟨"s"⟩ = some r := found
    unfold Node.effectiveWeight
    rw [here]
    refine congrArg some ((decayedWeight_of_le _ active.ge).trans ?_)
    show r.weight = _
    rw [weight]
    norm_num [Scalar.lit]
  refine ⟨before, after, ?_, fun always => ?_⟩
  · have decayed : (Eager.decayedTo exactEdge.config.learning ⟨(decidedAt weekNs).store, 0⟩
        weekNs).synapses = (MemoryStore.new.putSynapse (halfSynapse (1 / 4) 0)).synapses := by
      rw [← decayedWeight_week]
      rfl
    obtain ⟨r, found, weight, active⟩ := failed_transmission_leaves
      (s := { decidedAt weekNs with
        store := Eager.decayedTo exactEdge.config.learning ⟨(decidedAt weekNs).store, 0⟩ weekNs })
      rfl rfl decayed (by norm_num) (by norm_num)
    have here : (exactEdge.eagerly (transmissionFailed weekNs)
        ⟨(decidedAt weekNs).store, 0⟩).store.getSynapse ⟨"s"⟩ = some r := found
    unfold MemoryStore.getSynapse at here
    unfold Node.eagerWeight MemoryStore.getSynapse Eager.decayedTo
    rw [HashMap.lookup_mapValues, here]
    refine congrArg some ((decayedWeight_of_le _ (le_max_left _ _)).trans ?_)
    rw [weight]
    norm_num
  · have raised := (always _ _ _ (transmission_failed weekNs)).lowers _ (List.mem_singleton_self _)
      (.forward _) ⟨"s"⟩ _ _ before after
    norm_num at raised

theorem prompt_failure_keepsDecay : exactEdge.KeepsDecay (transmissionFailed 0) := by
  have floor : exactEdge.config.learning.minWeight = 1 / 1000 := by
    norm_num [exactEdge, NodeConfig.forClass, LearningConfig.forClass, Scalar.lit]
  constructor
  · intro id outcome t settles fault e found _ r record
    cases settles with
    | receipt call => cases call
    | sweep call => cases call
    | @forward id call =>
      obtain rfl : (⟨1⟩ : JournalId) = id := Call.failForward.inj call
      obtain rfl : openDecision 0 = e := Option.some.inj found
      obtain rfl : halfSynapse (Scalar.lit (1 / 2)) 0 = r := Option.some.inj record
      have budget : exactEdge.config.learning.maxTotalOutboundWeight = 8 := by
        norm_num [exactEdge, NodeConfig.forClass, LearningConfig.forClass, Scalar.lit]
      refine ⟨⟨?_, Or.inl (le_refl 0)⟩, ?_⟩
      · rw [floor]
        norm_num [halfSynapse, Scalar.lit]
      · generalize weighed : exactEdge.weighed _ _ _ _ (halfSynapse (Scalar.lit (1 / 2)) 0) = x
        have weight : x.weight = Scalar.lit (1 / 2) - 1 / 40 := by
          rw [← weighed]
          exact exactEdge_weighed _ (by norm_num [Scalar.lit]) (by norm_num [Scalar.lit]) _ _ _ _
        have values : HashMap.values ((transmissionFailed 0).before.store.synapses.insert
            (halfSynapse (Scalar.lit (1 / 2)) 0).id x) = [x] := rfl
        refine ⟨fun y hy => ?_, Or.inl ?_⟩
        · rw [values] at hy
          rw [List.mem_singleton.mp hy, weight, floor]
          norm_num [Scalar.lit]
        · rw [values, budget, List.map_singleton, List.sum_singleton, weight]
          norm_num [Scalar.lit]
  · intro id r call
    cases call

theorem prompt_failure_indistinguishable :
    exactEdge.Indistinguishable [transmissionFailed 0] (transmissionFailed 0).after
      (exactEdge.eagerly (transmissionFailed 0) ⟨(decidedAt 0).store, 0⟩) := by
  refine Node.lazy_decay_is_eager exactEdge_checked (transmission_failed 0) fun m hm => ?_
  rw [List.mem_singleton.mp hm]
  exact prompt_failure_keepsDecay

end Idle

end OpenNtl
