import OpenNtl.EagerDecay
import OpenNtl.TableChange

/-! # The weight that a handshake leaves

A handshake gives an absent, dormant or pruned synapse its initial weight. What routing makes of
that weight depends on the reading since which it decays.
-/
namespace OpenNtl

open AtomicProgram NodeM

variable {F : Type} [Scalar F]

theorem Synapse.updateState_of_below {s : Synapse F} (notPruned : s.state ≠ .pruned)
    (notForming : s.state ≠ .forming) (active : ¬ s.activeThreshold ≤ s.weight)
    (dormancy : ¬ s.dormancyThreshold ≤ s.weight) :
    s.updateState = { s with state := .dormant } := by
  unfold Synapse.updateState
  rw [if_neg (not_or.mpr ⟨notPruned, notForming⟩), if_neg active, if_neg dormancy]

namespace Node

variable (node : Node F) {peer : NodeId} {s : NodeState F} {r : SynapseRecord F}

def reactivatedRecord (r : SynapseRecord F) : SynapseRecord F :=
  { r with weight := node.config.synapse.initialWeight, state := .active }

/-- The record that a handshake with a peer returns, and the table it leaves. -/
inductive Joined (peer : NodeId) (s : NodeState F) (r : SynapseRecord F) (st' : MemoryStore F) :
    Prop
  | kept (found : s.store.synapseForPeer peer = some r) (notPruned : r.state ≠ .pruned)
      (notDormant : r.state ≠ .dormant)
  | reactivated {old : SynapseRecord F} (found : s.store.synapseForPeer peer = some old)
      (dormant : old.state = .dormant) (record : r = node.reactivatedRecord old)
      (after : st'.synapses = (s.store.putSynapse r).synapses)
  | reformed {old : SynapseRecord F} (found : s.store.synapseForPeer peer = some old)
      (pruned : old.state = .pruned) (served : node.cooldownEnd old.lastActiveNs ≤ s.clock)
      (record : r = node.reform old s.clock)
      (after : st'.synapses = (s.store.putSynapse r).synapses)
  | formed (missing : s.store.synapseForPeer peer = none)
      (record : r = node.formedRecord peer s.clock s.rng)
      (after : st'.synapses = (s.store.putSynapse r).synapses)

theorem upsertSynapse_joined (peer : NodeId) (s : NodeState F) :
    ∀ r, ((node.upsertSynapse peer).run s).1 = .ok r →
      node.Joined peer s r ((node.upsertSynapse peer).run s).2.store := by
  let P : Except NodeError (SynapseRecord F) × NodeState F → Prop :=
    fun x => ∀ r, x.1 = .ok r → node.Joined peer s r x.2.store
  have failed : ∀ (u : NodeState F) e, P (.error e, u) := fun u e r ok => by cases ok
  refine callStore_bind_ends (P := P) (failed _) ?_
  dsimp only
  cases found : s.store.synapseForPeer peer with
  | none =>
    dsimp only
    rw [withRng_bind_run]
    refine callStore_bind_ends (P := P) (failed _) ?_
    refine callStore_bind_ends (P := P) (failed _) ?_
    rintro r ok
    obtain rfl := Except.ok.inj ok
    exact .formed found rfl rfl
  | some old =>
    dsimp only
    split_ifs with pruned early dormant
    · exact failed _ _
    · refine callStore_bind_ends (P := P) (failed _) ?_
      rintro r ok
      obtain rfl := Except.ok.inj ok
      exact .reformed found pruned (not_lt.mp early) rfl rfl
    · refine callStore_bind_ends (P := P) (failed _) ?_
      rintro r ok
      obtain rfl := Except.ok.inj ok
      refine .reactivated found dormant ?_ rfl
      simp only [Synapse.reactivate, Synapse.fromRecord, dormant, if_true]
      rfl
    · rintro r ok
      obtain rfl := Except.ok.inj ok
      exact .kept found pruned dormant

theorem penalizeSignatureFailure_answered {id : SynapseId} (quiet : s.faults = [])
    (found : s.store.getSynapse id = some r) :
    ((node.penalizeSignatureFailure id).run s).2.store =
      s.store.putSynapse (node.penalizedRecord s.clock r) := by
  have fault := nextFault_quiet quiet
  have fault' : nextFault (s.stored s.store) = none := nextFault_quiet (congrArg List.tail quiet)
  have reading : (NodeM.now (F := F)).run s = (.ok s.clock, s) := rfl
  unfold penalizeSignatureFailure
  rw [Prog.run_bind_ok reading, Prog.run_bind_ok (readStore_run_ok fault), found]
  dsimp only
  unfold writeStore
  rw [Prog.run_bind_ok (callStore_run_ok fault')]
  rfl

theorem upsertSynapse_answered_dormant (quiet : s.faults = [])
    (found : s.store.synapseForPeer peer = some r) (dormant : r.state = .dormant) :
    ((node.upsertSynapse peer).run s).1 = .ok (node.reactivatedRecord r) := by
  have fault := nextFault_quiet quiet
  have fault' : nextFault (s.stored s.store) = none := nextFault_quiet (congrArg List.tail quiet)
  have reading : (NodeM.now (F := F)).run s = (.ok s.clock, s) := rfl
  have pruned : r.state ≠ .pruned := by
    rw [dormant]
    decide
  unfold upsertSynapse
  rw [Prog.run_bind_ok reading, Prog.run_bind_ok (readStore_run_ok fault), found]
  dsimp only
  rw [if_neg pruned, if_pos dormant]
  unfold writeStore
  rw [Prog.run_bind_ok (callStore_run_ok fault')]
  simp only [Synapse.reactivate, Synapse.fromRecord, dormant, if_true]
  rfl

/-- The record is on file, can carry, and weighs what a new one does. -/
structure Restored (nowNs : ℕ) (r : SynapseRecord F) (st : MemoryStore F) : Prop where
  filed : st.getSynapse r.id = some r
  carries : r.state.canCarry = true
  weight : (node.rehydrate nowNs r).weight = node.config.synapse.initialWeight

/-- What a handshake writes always carries and has the initial weight. It decays from now on,
except that a reactivated one decays from its last activity before it fell dormant. -/
theorem Joined.written {st' : MemoryStore F} (joined : node.Joined peer s r st')
    (away : ∀ old, s.store.synapseForPeer peer = some old →
      old.state = .dormant ∨ old.state = .pruned) :
    st'.getSynapse r.id = some r ∧ r.state.canCarry = true ∧
      r.weight = node.config.synapse.initialWeight ∧
      ((∃ old, s.store.synapseForPeer peer = some old ∧ old.state = .dormant ∧
          r.lastActiveNs = old.lastActiveNs) ∨
        (∀ old, s.store.synapseForPeer peer = some old → old.state ≠ .dormant) ∧
          r.lastActiveNs = s.clock) := by
  cases joined with
  | kept found notPruned notDormant =>
    rcases away r found with dormant | pruned
    · exact absurd dormant notDormant
    · exact absurd pruned notPruned
  | @reactivated old found dormant record after =>
    have filed := MemoryStore.put_getSynapse_same after
    subst record
    exact ⟨filed, rfl, rfl, Or.inl ⟨old, found, dormant, rfl⟩⟩
  | @reformed old found pruned served record after =>
    have filed := MemoryStore.put_getSynapse_same after
    subst record
    refine ⟨filed, rfl, rfl, Or.inr ⟨?_, rfl⟩⟩
    intro old' found' dormant
    rw [found] at found'
    obtain rfl := Option.some.inj found'
    rw [pruned] at dormant
    cases dormant
  | formed missing record after =>
    have filed := MemoryStore.put_getSynapse_same after
    subst record
    refine ⟨filed, rfl, rfl, Or.inr ⟨?_, rfl⟩⟩
    intro old found
    rw [missing] at found
    cases found

end Node

/-- A handshake with an absent, dormant or pruned peer restores its synapse exactly when that was
not dormant, or decay has nothing to take from its initial weight: the clock shows no later reading
than its last activity, or the initial weight is the least there is. -/
theorem handshake_restores_iff (node : Node ℝ) (checked : node.config.learning.validate = .ok ())
    (peer : NodeId) {s t : NodeState ℝ} {r : SynapseRecord ℝ}
    (away : ∀ old, s.store.synapseForPeer peer = some old →
      old.state = .dormant ∨ old.state = .pruned)
    (run : (node.upsertSynapse peer).run s = (.ok r, t)) :
    node.Restored s.clock r t.store ↔
      ∀ old, s.store.synapseForPeer peer = some old → old.state = .dormant →
        s.clock ≤ old.lastActiveNs ∨
          node.config.synapse.initialWeight = node.config.learning.minWeight := by
  have sound := Sound.of_validate checked
  have joined := node.upsertSynapse_joined peer s r (by rw [run])
  rw [run] at joined
  obtain ⟨filed, carries, weight, active⟩ := joined.written node away
  have decays : (node.rehydrate s.clock r).weight =
    decayedWeight r.weight r.lastActiveNs s.clock node.config.learning := rfl
  have restored : node.Restored s.clock r t.store ↔
      Undecayed node.config.learning node.config.synapse.initialWeight r.lastActiveNs s.clock := by
    rw [← decayedWeight_eq_iff sound, ← weight, ← decays, weight]
    constructor
    · intro whole
      exact whole.weight
    · intro same
      exact ⟨filed, carries, same⟩
  rw [restored]
  rcases active with ⟨old, found, dormant, same⟩ | ⟨other, same⟩
  · rw [same]
    constructor
    · intro undecayed old' found' _
      rw [found] at found'
      obtain rfl := Option.some.inj found'
      exact undecayed
    · intro always
      exact always old found dormant
  · rw [same]
    refine iff_of_true (Or.inl le_rfl) ?_
    intro old found dormant
    exact absurd dormant (other old found)

section BackAfterAWeek

/-- An edge node that a bad signature costs all but the least weight. -/
noncomputable def harshEdge : Node ℝ :=
  { exactEdge with config := { exactEdge.config with
      learning := { exactEdge.config.learning with signatureFailurePenalty := 1 } } }

theorem harshEdge_checked : harshEdge.config.learning.validate = .ok () := by
  norm_num [harshEdge, exactEdge, NodeConfig.forClass, LearningConfig.forClass,
    LearningConfig.validate, Scalar.lit]

noncomputable def acquainted : Moment ℝ :=
  harshEdge.momentAt (.upsertSynapse neighbour) (harshEdge.build .new .maximal 0 [])

noncomputable def firstRecord : SynapseRecord ℝ := harshEdge.formedRecord neighbour 0 .maximal

noncomputable def blamed : Moment ℝ :=
  harshEdge.momentAt (.penalizeSignatureFailure firstRecord.id)
    { acquainted.after with clock := 0, faults := [] }

noncomputable def awayForAWeek : NodeState ℝ := { blamed.after with clock := weekNs, faults := [] }

theorem blamed_run : NodeRun harshEdge [acquainted, blamed] blamed.after :=
  ((NodeRun.start .maximal 0 []).next (.upsertSynapse neighbour) 0 []).next
    (.penalizeSignatureFailure firstRecord.id) 0 []

theorem acquainted_store :
    acquainted.after.store.synapses = (MemoryStore.new.putSynapse firstRecord).synapses := rfl

theorem blamed_store : blamed.after.store =
    acquainted.after.store.putSynapse (harshEdge.penalizedRecord 0 firstRecord) :=
  harshEdge.penalizeSignatureFailure_answered rfl (MemoryStore.put_getSynapse_same acquainted_store)

theorem harshEdge_values : harshEdge.config.synapse.activeThreshold = 1 / 10 ∧
    harshEdge.config.synapse.dormancyThreshold = 1 / 100 ∧
    harshEdge.config.synapse.initialWeight = 1 / 10 ∧
    harshEdge.config.learning.minWeight = 1 / 1000 := by
  norm_num [harshEdge, exactEdge, NodeConfig.forClass, LearningConfig.forClass,
    SynapseConfig.default, Scalar.lit]

theorem firstRecord_penalized : (harshEdge.penalizedRecord 0 firstRecord).state = .dormant ∧
    (harshEdge.penalizedRecord 0 firstRecord).peer = neighbour ∧
    (harshEdge.penalizedRecord 0 firstRecord).lastActiveNs = 0 := by
  obtain ⟨active, dormancy, initial, floor⟩ := harshEdge_values
  have least : applySignaturePenalty firstRecord.weight harshEdge.config.learning = 1 / 1000 := by
    have weight : firstRecord.weight = harshEdge.config.synapse.initialWeight := rfl
    have penalty : harshEdge.config.learning.signatureFailurePenalty = 1 := rfl
    unfold applySignaturePenalty
    rw [weight, penalty, initial, floor]
    norm_num
  have counted : harshEdge.penalizedRecord 0 firstRecord =
      ((Synapse.fromRecord firstRecord harshEdge.config.synapse).penalized 0
        harshEdge.config.learning).updateState.toRecord := by
    unfold Node.penalizedRecord
    rw [Synapse.applySignatureFailure_eq, if_neg (by decide)]
  have state : ((Synapse.fromRecord firstRecord harshEdge.config.synapse).penalized 0
      harshEdge.config.learning).state = .active := rfl
  rw [counted, Synapse.updateState_of_below]
  · exact ⟨rfl, rfl, rfl⟩
  · rw [state]
    decide
  · rw [state]
    decide
  · intro reached
    have over' : harshEdge.config.synapse.activeThreshold ≤
      applySignaturePenalty firstRecord.weight harshEdge.config.learning := reached
    rw [least, active] at over'
    norm_num at over'
  · intro reached
    have over' : harshEdge.config.synapse.dormancyThreshold ≤
      applySignaturePenalty firstRecord.weight harshEdge.config.learning := reached
    rw [least, dormancy] at over'
    norm_num at over'

theorem found_dormant : awayForAWeek.store.synapseForPeer neighbour =
    some (harshEdge.penalizedRecord 0 firstRecord) := by
  have table : awayForAWeek.store.synapses.values = [harshEdge.penalizedRecord 0 firstRecord] := by
    have after : awayForAWeek.store = _ := blamed_store
    have once : (acquainted.after.store.putSynapse
        (harshEdge.penalizedRecord 0 firstRecord)).synapses =
        AList.insert firstRecord.id (harshEdge.penalizedRecord 0 firstRecord) ∅ := by
      unfold MemoryStore.putSynapse
      rw [harshEdge.penalizedRecord_id, acquainted_store]
      exact AList.insert_insert _
    rw [after, once]
    rfl
  unfold MemoryStore.synapseForPeer
  rw [table, List.find?_cons_of_pos]
  simp [firstRecord_penalized.2.1]

/-- A dormant neighbour is connected again a half-life after its last activity: its weight has
decayed by half as soon as it is restored. -/
theorem back_at_half_weight :
    NodeRun harshEdge [acquainted, blamed] blamed.after ∧
    ((harshEdge.upsertSynapse neighbour).run awayForAWeek).1.toOption.map
      (fun r => (harshEdge.rehydrate weekNs r).weight) = some (1 / 20) ∧
    ¬ ∀ (node : Node ℝ) (ms : List (Moment ℝ)) (s t : NodeState ℝ) (clock : ℕ) (peer : NodeId)
      (r : SynapseRecord ℝ), node.config.learning.validate = .ok () → NodeRun node ms s →
      (∀ old, s.store.synapseForPeer peer = some old →
        old.state = .dormant ∨ old.state = .pruned) →
      (node.upsertSynapse peer).run { s with clock := clock, faults := [] } = (.ok r, t) →
      node.Restored clock r t.store := by
  obtain ⟨dormant, -, active⟩ := firstRecord_penalized
  have back := harshEdge.upsertSynapse_answered_dormant rfl found_dormant dormant
  have halved : (harshEdge.rehydrate weekNs (harshEdge.reactivatedRecord
      (harshEdge.penalizedRecord 0 firstRecord))).weight = 1 / 20 := by
    have passes : 0 < weekNs := by norm_num [weekNs, nanosPerSec]
    have week : retention harshEdge.config.learning (1 * weekNs) = (1 / 2) ^ 1 := retention_weeks 1
    have decays : (harshEdge.rehydrate weekNs (harshEdge.reactivatedRecord
        (harshEdge.penalizedRecord 0 firstRecord))).weight =
        decayedWeight harshEdge.config.synapse.initialWeight
          (harshEdge.penalizedRecord 0 firstRecord).lastActiveNs weekNs
          harshEdge.config.learning := rfl
    obtain ⟨-, -, initial, floor⟩ := harshEdge_values
    rw [Nat.one_mul] at week
    rw [decays, active, decayedWeight_of_lt _ passes, Nat.sub_zero, week, initial, floor]
    norm_num
  refine ⟨blamed_run, ?_, fun always => ?_⟩
  · rw [back]
    exact congrArg some halved
  · rcases result : (harshEdge.upsertSynapse neighbour).run awayForAWeek with ⟨r, t⟩
    rw [result] at back
    subst back
    have away : ∀ old, blamed.after.store.synapseForPeer neighbour = some old →
        old.state = .dormant ∨ old.state = .pruned := by
      intro old found
      have same : some (harshEdge.penalizedRecord 0 firstRecord) = some old :=
        found_dormant.symm.trans found
      rw [← Option.some.inj same]
      exact Or.inl dormant
    have whole := (always harshEdge _ _ t weekNs neighbour _ harshEdge_checked blamed_run away
      result).weight
    rw [halved, harshEdge_values.2.2.1] at whole
    norm_num at whole

theorem first_contact_restores_iff :
    harshEdge.Restored 0 firstRecord acquainted.after.store ↔
      ∀ old, (MemoryStore.new (F := ℝ)).synapseForPeer neighbour = some old →
        old.state = .dormant → 0 ≤ old.lastActiveNs ∨
          harshEdge.config.synapse.initialWeight = harshEdge.config.learning.minWeight :=
  handshake_restores_iff harshEdge harshEdge_checked neighbour
    (s := harshEdge.build .new .maximal 0 []) (fun old found => by cases found) rfl

end BackAfterAWeek

end OpenNtl
