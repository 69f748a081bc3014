import OpenNtl.ReceiptAuthority
import OpenNtl.SignatureWindow

/-! # Recovery from a signature failure

After a failure only a delivered receipt raises the weight of a synapse above what the failure
left, with one exception that the node makes on purpose: a completed handshake with a dormant
peer restores the initial weight.
-/
namespace OpenNtl

open AtomicProgram NodeM Relation

variable {F : Type}

/-- A delivered receipt for a decision that sent a signal over this synapse. -/
def Moment.Delivers (m : Moment F) (id : SynapseId) : Prop :=
  ∃ receipt peer e, m.call = .applyReceipt receipt peer ∧ receipt.outcome = .delivered ∧
    m.before.store.pendingDecisionFor receipt.correlationId peer = some e ∧ e.synapse = id

def Moment.Reactivates (m : Moment F) (id : SynapseId) : Prop :=
  ∃ peer r, m.call = .upsertSynapse peer ∧ m.before.store.synapseForPeer peer = some r ∧
    r.id = id ∧ r.state = .dormant

variable [Scalar F]

section Weights

variable [SignedScalar F] {c : LearningConfig F}

open OrderedScalar SignedScalar

/-- The weight is at most a bound that is at least the floor. -/
structure Bounded (c : LearningConfig F) (bound w : F) : Prop where
  floor : c.minWeight ≤ bound
  weight : w ≤ bound

theorem reward_nonpos {o : Outcome} (other : o ≠ .delivered) : o.reward (F := F) ≤ 0 := by
  cases o with
  | delivered => exact absurd rfl other
  | _ => exact lit_nonpos (by norm_num)

theorem applyReward_le (checked : c.validate = .ok ()) {bound w : F} (h : Bounded c bound w)
    {o : Outcome} (other : o ≠ .delivered) (sw used : F) :
    (applyReward w o sw used c).after ≤ bound := by
  obtain ⟨rate, -⟩ := LearningConfig.of_validate checked
  have raw : c.learningRate * o.reward * Scalar.clamp sw 0 1 ≤ 0 :=
    mul_nonpos_left (mul_nonpos_right (le_of_lt rate) (reward_nonpos other)) (le_clamp zero_le_one)
  have still : ¬ 0 < c.learningRate * o.reward * Scalar.clamp sw 0 1 :=
    fun up => OrderedScalar.lt_irrefl up raw
  unfold applyReward
  dsimp only
  rw [if_neg (fun up => still up.1), if_neg still]
  exact clamp_le_of_le (OrderedScalar.le_trans (add_le_of_nonpos raw) h.weight) h.floor

theorem scaled_le {bound w f : F} (h : Bounded c bound w) (positive : 0 ≤ c.minWeight)
    (nonneg : 0 ≤ f) (le_one : f ≤ 1) : max (w * f) c.minWeight ≤ bound := by
  refine SignedScalar.max_le ?_ h.floor
  rcases OrderedScalar.le_total 0 w with up | down
  · exact OrderedScalar.le_trans (mul_le_of_le_one up le_one) h.weight
  · exact OrderedScalar.le_trans (mul_nonpos_left down nonneg)
      (OrderedScalar.le_trans positive h.floor)

end Weights

section Step

variable [SignedScalar F] {node : Node F} {m : Moment F} {id : SynapseId} {bound : F}

theorem rescaled_bounded (checked : node.config.learning.validate = .ok ()) {r : SynapseRecord F}
    (h : Bounded node.config.learning bound r.weight) {total : F}
    (excess : ¬ (total ≤ node.config.learning.maxTotalOutboundWeight ∨ total ≤ 0)) :
    (node.rescaled total r).weight ≤ bound := by
  obtain ⟨-, floor, ceiling, budget, -⟩ := LearningConfig.of_validate checked
  have floor' := OrderedScalar.le_of_lt (OrderedScalar.lt_iff.mpr floor)
  have ceiling' := OrderedScalar.le_of_lt (OrderedScalar.lt_iff.mpr ceiling)
  have budget' := OrderedScalar.le_of_lt (OrderedScalar.lt_iff.mpr budget)
  have positive : 0 < total := OrderedScalar.lt_iff.mpr fun low => excess (Or.inr low)
  have above : node.config.learning.maxTotalOutboundWeight ≤ total :=
    OrderedScalar.le_of_lt (OrderedScalar.lt_iff.mpr fun low => excess (Or.inl low))
  refine scaled_le h floor' (SignedScalar.div_nonneg ?_ positive)
    (SignedScalar.div_le_one positive above)
  exact OrderedScalar.le_trans floor' (OrderedScalar.le_trans ceiling' budget')

theorem penalty_bounded (checked : node.config.learning.validate = .ok ()) {w : F}
    (h : Bounded node.config.learning bound w) :
    applySignaturePenalty w node.config.learning ≤ bound := by
  obtain ⟨-, floor, -, -, penalty, penalty_le, -⟩ := LearningConfig.of_validate checked
  exact scaled_le h (OrderedScalar.le_of_lt (OrderedScalar.lt_iff.mpr floor))
    (SignedScalar.sub_nonneg penalty_le) (SignedScalar.sub_le (OrderedScalar.le_of_lt penalty))

omit [SignedScalar F] in
theorem penalizedRecord_weight (node : Node F) (nowNs : ℕ) (r : SynapseRecord F) :
    (node.penalizedRecord nowNs r).weight =
      applySignaturePenalty r.weight node.config.learning := by
  rcases node.penalizedRecord_cases nowNs r with ⟨-, -, same⟩ | ⟨-, -, state, -, same⟩
  · rw [same]
  · rw [same]

omit [Scalar F] [SignedScalar F] in
theorem applies_delivered (ordered : JournalOrdered m.before.store) {o : Outcome}
    (applied : Node.Applies m id o) (delivered : o = .delivered) : m.Delivers id := by
  cases applied with
  | forward call => cases delivered
  | sweep call => cases delivered
  | @receipt receipt peer pending e journalId call matched named found =>
    have same := ordered.decision_of_mem (pendingDecisionFor_some matched).1 named
    rw [found] at same
    obtain rfl := Option.some.inj same
    exact ⟨receipt, peer, _, call, delivered, matched, rfl⟩

theorem reweighed_bounded (checked : node.config.learning.validate = .ok ())
    {applies : SynapseId → Outcome → Prop} {nowNs : ℕ} {r r' : SynapseRecord F}
    (other : ∀ o, applies r.id o → o ≠ .delivered)
    (h : Bounded node.config.learning bound r.weight)
    (rewritten : ReflTransGen (node.Reweigh nowNs applies) r r') :
    Bounded node.config.learning bound r'.weight := by
  induction rewritten with
  | refl => exact h
  | @tail x y before last ih =>
    refine ⟨h.floor, ?_⟩
    cases last with
    | rescale excess => exact rescaled_bounded checked ih excess
    | outcome entry used applied =>
      rw [Node.reweighed_weight]
      rw [Node.Reweigh.ids_eq before] at applied
      exact OrderedScalar.le_trans (OrderedScalar.min_le_left _ _)
        (applyReward_le checked ih (other _ applied) _ _)

/-- A call without a delivery leaves the bound, unless it restores the initial weight. -/
theorem weight_step (checked : node.config.learning.validate = .ok ())
    (change : TableChange node m) (fresh : node.FreshId m) (filed : Filed m.before.store)
    (ordered : JournalOrdered m.before.store) (undelivered : ¬ m.Delivers id)
    {r : SynapseRecord F} (found : m.before.store.getSynapse id = some r)
    (alive : r.state ≠ .pruned) (h : Bounded node.config.learning bound r.weight) :
    ∃ r', m.after.store.getSynapse id = some r' ∧
      (r'.weight ≤ bound ∨
        m.Reactivates id ∧ r'.weight = node.config.synapse.initialWeight) := by
  have own : r.id = id := filed id r found
  obtain ⟨r', after, became⟩ := change.became fresh filed found
  refine ⟨r', after, ?_⟩
  cases became with
  | same => exact Or.inl h.weight
  | reweighed rewritten =>
    refine Or.inl (reweighed_bounded checked ?_ h rewritten).weight
    intro o applied delivered
    rw [own] at applied
    exact undelivered (applies_delivered ordered applied delivered)
  | penalized call =>
    left
    rw [penalizedRecord_weight]
    exact penalty_bounded checked h
  | @reactivated peer call foundFor dormant =>
    exact Or.inr ⟨⟨peer, r, call, foundFor, own, dormant⟩, rfl⟩
  | reformed call foundFor pruned served => exact absurd pruned alive

end Step

section Run

variable [SignedScalar F] {node : Node F} {ms : List (Moment F)} {s : NodeState F}
  {id : SynapseId}

theorem penalized_floor {m : Moment F} (change : TableChange node m) (penalizes : m.Penalizes id)
    {r : SynapseRecord F} (found : m.after.store.getSynapse id = some r) :
    node.config.learning.minWeight ≤ r.weight := by
  cases change with
  | reweighs other records => exact absurd penalizes (other id)
  | upserts call change =>
    have same := penalizes.1
    rw [call] at same
    cases same
  | @penalizes x call foundX reply after =>
    have same := penalizes.1
    rw [call] at same
    obtain rfl := Call.penalizeSignatureFailure.inj same
    rw [node.penalizedRecord_found after] at found
    rw [← Option.some.inj found, penalizedRecord_weight]
    exact SignedScalar.le_max_right _ _

/-- The weight of a synapse since a failure left it at `least`: not above that, unless a handshake
has found it dormant. -/
def RecoversByDelivery (node : Node F) (id : SynapseId) (seg : List (Moment F)) (left : F)
    (st : MemoryStore F) : Prop :=
  ∃ r, st.getSynapse id = some r ∧
    (r.weight ≤ left ∨
      (∃ m ∈ seg, m.Reactivates id) ∧ r.weight ≤ max left node.config.synapse.initialWeight)

/-- Between a signature failure and the next delivered receipt, as long as the synapse is not
pruned, its weight stays at what the failure left, or at the initial weight once a completed
handshake has found it dormant. -/
theorem recovery_is_earned (checked : node.config.learning.validate = .ok ())
    (run : NodeRun node ms s) (fresh : ∀ m ∈ ms, node.FreshId m) :
    ∀ pre m₀ seg r₀, ms = pre ++ m₀ :: seg → m₀.Penalizes id →
      m₀.after.store.getSynapse id = some r₀ → (∀ m ∈ seg, ¬ m.Delivers id) →
      (∀ m ∈ seg, ∀ r, m.before.store.getSynapse id = some r → r.state ≠ .pruned) →
      RecoversByDelivery node id seg r₀.weight s.store := by
  induction run with
  | start =>
    intro pre m₀ seg r₀ same
    exact absurd same.symm (by simp)
  | restart run restarts ih =>
    obtain ⟨rng, clock, faults, rfl⟩ := restarts.built
    exact ih fresh
  | @call ms s m run resumes performed ih =>
    intro pre m₀ seg r₀ same penalizes found undelivered alive
    have filed : Filed m.before.store := by
      rw [resumes.store]
      exact run.filed.1
    have change := table_change performed filed
    rcases seg.eq_nil_or_concat with rfl | ⟨seg, last, rfl⟩
    · -- The failure is the last call.
      obtain ⟨-, last⟩ := List.append_inj' same rfl
      obtain rfl : m = m₀ := List.head_eq_of_cons_eq last
      exact ⟨r₀, found, Or.inl (OrderedScalar.le_refl _)⟩
    · rw [List.concat_eq_append, ← List.cons_append, ← List.append_assoc] at same
      obtain ⟨split, last_eq⟩ := List.append_inj' same rfl
      obtain rfl : m = last := List.head_eq_of_cons_eq last_eq
      simp only [List.concat_eq_append, List.mem_append, List.mem_singleton] at undelivered alive
      obtain ⟨r, before, bounded⟩ := ih (fun m' hm' => fresh m' (by simp [hm'])) pre m₀ seg r₀ split
        penalizes found (fun m' hm' => undelivered m' (Or.inl hm'))
        fun m' hm' => alive m' (Or.inl hm')
      rw [← resumes.store] at before
      have floor : node.config.learning.minWeight ≤ r₀.weight := by
        have here : m₀ ∈ ms := by
          rw [split]
          simp
        exact penalized_floor (run.table_change here) penalizes found
      have ordered : JournalOrdered m.before.store := by
        rw [resumes.store]
        exact run.journalOrdered.1
      have step : ∀ {bound : F}, Bounded node.config.learning bound r.weight → _ :=
        fun h => weight_step checked change (fresh m (by simp)) filed ordered
          (undelivered m (Or.inr rfl)) before (alive m (Or.inr rfl) r before) h
      have above := SignedScalar.le_max_left r₀.weight node.config.synapse.initialWeight
      have initial := SignedScalar.le_max_right r₀.weight node.config.synapse.initialWeight
      rcases bounded with low | ⟨⟨m', hm', reactivates⟩, low⟩
      · obtain ⟨r', after, low' | ⟨reactivates, restored⟩⟩ := step ⟨floor, low⟩
        · exact ⟨r', after, Or.inl low'⟩
        · refine ⟨r', after, Or.inr ⟨⟨m, by simp, reactivates⟩, ?_⟩⟩
          rw [restored]
          exact initial
      · have again : ∃ x ∈ seg.concat m, x.Reactivates id := ⟨m', by simp [hm'], reactivates⟩
        obtain ⟨r', after, low' | ⟨-, restored⟩⟩ :=
          step ⟨OrderedScalar.le_trans floor above, low⟩
        · exact ⟨r', after, Or.inr ⟨again, low'⟩⟩
        · refine ⟨r', after, Or.inr ⟨again, ?_⟩⟩
          rw [restored]
          exact initial

end Run

def reconnected : Moment ℚ :=
  edgeNode.momentAt (.upsertSynapse neighbour)
    { afterFailing connected.after [0, 0, 0, 0] with clock := 1, faults := [] }

theorem handshake_restores_weight :
    NodeRun edgeNode (struckAt [0, 0, 0, 0] ++ [reconnected]) reconnected.after ∧
    (∃ m₀, (struckAt [0, 0, 0, 0]).getLast? = some m₀ ∧ m₀.Penalizes edgeSynapse ∧
      (m₀.after.store.getSynapse edgeSynapse).map SynapseRecord.weight = some (1 / 160)) ∧
    ¬ reconnected.Delivers edgeSynapse ∧
    (reconnected.before.store.getSynapse edgeSynapse).map SynapseRecord.state = some .dormant ∧
    (reconnected.after.store.getSynapse edgeSynapse).map SynapseRecord.weight = some (1 / 10) := by
  refine ⟨(struck_run _).next (.upsertSynapse neighbour) 1 [],
    ⟨_, rfl, by decide +kernel, by decide +kernel⟩, ?_, by decide +kernel, by decide +kernel⟩
  rintro ⟨receipt, peer, e, call, -⟩
  cases call

def firstFailure : Moment ℚ :=
  edgeNode.momentAt (.penalizeSignatureFailure edgeSynapse)
    { connected.after with clock := 0, faults := [] }

def secondFailure : Moment ℚ :=
  edgeNode.momentAt (.penalizeSignatureFailure edgeSynapse)
    { firstFailure.after with clock := 0, faults := [] }

theorem second_failure_recovers_nothing :
    (firstFailure.after.store.getSynapse edgeSynapse).map SynapseRecord.weight = some (1 / 20) ∧
    RecoversByDelivery edgeNode edgeSynapse [secondFailure] (1 / 20)
      (afterFailing connected.after [0, 0]).store := by
  have halved : (firstFailure.after.store.getSynapse edgeSynapse).map SynapseRecord.weight =
      some (1 / 20) := by decide +kernel
  refine ⟨halved, ?_⟩
  obtain ⟨r₀, found, weight⟩ := Option.map_eq_some_iff.mp halved
  have alive : (secondFailure.before.store.getSynapse edgeSynapse).map SynapseRecord.state =
      some .weakening := by decide +kernel
  rw [← weight]
  refine recovery_is_earned edgeNode_checked (struck_run [0, 0]) (struck_fresh _)
    [connected] firstFailure [secondFailure] r₀ rfl (by decide +kernel) found ?_ ?_
  · rintro m hm ⟨receipt, peer, e, call, -⟩
    rw [List.mem_singleton.mp hm] at call
    cases call
  · intro m hm r here pruned
    rw [List.mem_singleton.mp hm] at here
    rw [here, Option.map_some, pruned] at alive
    cases alive

end OpenNtl
