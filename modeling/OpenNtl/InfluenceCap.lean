import OpenNtl.Settlements
import OpenNtl.SlidingBudget

/-! # What one peer can gain in an influence window

Exact arithmetic. Every rise that is charged fits under the cap. A rise of at most `f32::EPSILON`
is not charged, and any number of those go beyond it.
-/
namespace OpenNtl

open AtomicProgram NodeM SlidingBudget ExactScalar

variable {F : Type} [Scalar F]

/-- How far a synapse to the peer went up from one table to another. -/
def riseBetween (peer : NodeId) (id : SynapseId) (st st' : MemoryStore F) : F :=
  match st.getSynapse id, st'.getSynapse id with
  | some r, some r' => if r.peer = peer then max (r'.weight - r.weight) 0 else 0
  | _, _ => 0

namespace Settlement

variable (node : Node F) (nowNs : ℕ) (x : Settlement F)

def weighed : MemoryStore F := ((node.weighIn x.entry x.outcome nowNs).run x.state).2.store

def rise (peer : NodeId) : F :=
  riseBetween peer x.entry.synapse x.state.store (x.weighed node nowNs)

def FallsInFull : Prop :=
  ∀ r u t, x.state.store.getSynapse x.entry.synapse = some r →
    (node.weighIn x.entry x.outcome nowNs).run x.state = (.ok u, t) →
    ∃ r', t.store.getSynapse x.entry.synapse = some r' ∧
      let c := node.config.learning
      let fallen := max (r.weight + c.learningRate * x.outcome.reward *
        Scalar.clamp x.entry.signalWeight 0 1) c.minWeight
      r'.weight ≤ fallen ∧
        (c.minWeight ≤ r.weight → r.weight ≤ c.maxWeight →
          r.weight ≤ node.config.synapse.maxWeight → r'.weight = fallen)

/-- The weight is at the floor or above, and a delivery cannot raise it, or raises it by more than
is left uncharged. -/
def Metered : Prop :=
  ∀ r, x.state.store.getSynapse x.entry.synapse = some r →
    let c := node.config.learning
    let used := node.usedBy x.entry nowNs x.state
    let earned := c.learningRate * Scalar.clamp x.entry.signalWeight 0 1
    c.minWeight ≤ r.weight ∧
      (x.outcome = .delivered →
        earned ≤ 0 ∨ c.influenceCapPerPeer ≤ used ∨ c.maxWeight ≤ r.weight ∨
          node.config.synapse.maxWeight ≤ r.weight ∨
          Scalar.epsilon < earned ∧ Scalar.epsilon < c.influenceCapPerPeer - used ∧
            Scalar.epsilon < c.maxWeight - r.weight)

end Settlement

instance (node : Node F) (nowNs : ℕ) (x : Settlement F) : Decidable (x.Metered node nowNs) :=
  inferInstanceAs (Decidable (∀ r ∈ x.state.store.getSynapse x.entry.synapse, _ ∧ (_ → _)))

def risesWithin (node : Node F) (peer : NodeId) (startNs stopNs : ℕ) (ms : List (Moment F)) : F :=
  Scalar.sum ((ms.filter fun m => startNs ≤ m.before.clock ∧ m.before.clock ≤ stopNs).flatMap
    fun m => (m.settlements node).map fun x => x.rise node m.before.clock peer)

/-- In every influence window each peer gains at most the cap, and no negative outcome is spared. -/
structure InfluenceCapped (node : Node F) (ms : List (Moment F)) : Prop where
  rises : ∀ peer startNs,
    risesWithin node peer startNs
        (startNs + node.config.learning.influenceWindowSecs * nanosPerSec) ms ≤
      node.config.learning.influenceCapPerPeer
  falls : ∀ m ∈ ms, ∀ x ∈ m.settlements node, x.outcome.reward < (0 : F) →
    x.FallsInFull node m.before.clock

section Update

variable [ExactScalar F]

theorem clamp_unit_idem (x : F) :
    Scalar.clamp (Scalar.clamp x 0 1) 0 1 = Scalar.clamp x 0 (1 : F) := by
  apply toReal_injective
  have inner := clamp_unit_nonneg x
  rw [toReal_clamp zero_le_one_exact, toReal_zero, toReal_one, max_eq_right]
  · apply min_eq_right
    rw [toReal_clamp zero_le_one_exact, toReal_zero, toReal_one]
    exact max_le zero_le_one (min_le_left _ _)
  · exact le_min zero_le_one inner

theorem reward_nonpos_exact {o : Outcome} (other : o ≠ .delivered) :
    toReal (o.reward (F := F)) ≤ 0 := by
  cases o with
  | delivered => exact absurd rfl other
  | _ =>
    unfold Outcome.reward
    rw [toReal_lit]
    norm_num

/-- A checked configuration, over the reals. -/
structure Checked (c : LearningConfig F) : Prop where
  rate : 0 < toReal c.learningRate
  bounds : toReal c.minWeight < toReal c.maxWeight
  cap : 0 < toReal c.influenceCapPerPeer

theorem Checked.of_validate {c : LearningConfig F} (checked : c.validate = .ok ()) :
    Checked c := by
  obtain ⟨rate, -, bounds, -, -, -, cap⟩ := LearningConfig.of_validate checked
  constructor
  · rw [← toReal_zero (F := F)]
    exact toReal_lt.mpr rate
  · exact not_le.mp fun h => bounds (toReal_le.mp h)
  · rw [← toReal_zero (F := F)]
    exact not_le.mp fun h => cap (toReal_le.mp h)

variable {node : Node F}

/-- What an update comes to: the weight moves by `delta` within its bounds, and `delta` is what was
earned, cut down to what is left of the cap if it is positive. -/
theorem updateOf_exact (checked : Checked node.config.learning) (entry : JournalEntry F)
    (o : Outcome) (used : F) (r : SynapseRecord F) :
    ∃ delta : ℝ,
      toReal (node.updateOf entry o used r).after =
        max (toReal node.config.learning.minWeight)
          (min (toReal node.config.learning.maxWeight) (toReal r.weight + delta)) ∧
      toReal (node.updateOf entry o used r).appliedDelta =
        toReal (node.updateOf entry o used r).after - toReal r.weight ∧
      let earned := toReal (node.config.learning.learningRate * o.reward *
        Scalar.clamp entry.signalWeight 0 1)
      let left := toReal node.config.learning.influenceCapPerPeer - toReal used
      (earned ≤ 0 ∧ delta = earned ∨ 0 < earned ∧ left ≤ 0 ∧ delta = 0 ∨
        0 < earned ∧ 0 < left ∧ delta = min earned left) := by
  have order : node.config.learning.minWeight ≤ node.config.learning.maxWeight :=
    toReal_le.mp checked.bounds.le
  have positive : ∀ {x : F}, 0 < x ↔ 0 < toReal x := by
    intro x
    rw [← toReal_lt, toReal_zero]
  unfold Node.updateOf applyReward
  rw [clamp_unit_idem]
  dsimp only
  generalize node.config.learning.learningRate * o.reward *
    Scalar.clamp entry.signalWeight 0 1 = earned
  split_ifs with spent up excess
  · refine ⟨0, ?_, toReal_sub _ _, Or.inr (Or.inl ⟨positive.mp spent.1, ?_, rfl⟩)⟩
    · rw [toReal_clamp order, toReal_add, toReal_zero]
    · have := toReal_le.mpr spent.2
      linarith
  · have left : toReal used < toReal node.config.learning.influenceCapPerPeer :=
      not_le.mp fun h => spent ⟨up, toReal_le.mp h⟩
    have cut := toReal_lt.mpr excess
    rw [toReal_sub] at cut
    refine ⟨_, ?_, toReal_sub _ _, Or.inr (Or.inr ⟨positive.mp up, by linarith,
      (min_eq_right cut.le).symm⟩)⟩
    rw [toReal_clamp order, toReal_add, toReal_sub]
  · have left : toReal used < toReal node.config.learning.influenceCapPerPeer :=
      not_le.mp fun h => spent ⟨up, toReal_le.mp h⟩
    have fits := not_lt.mp fun h => excess (toReal_lt.mp h)
    rw [toReal_sub] at fits
    refine ⟨_, ?_, toReal_sub _ _, Or.inr (Or.inr ⟨positive.mp up, by linarith,
      (min_eq_left fits).symm⟩)⟩
    rw [toReal_clamp order, toReal_add]
  · refine ⟨_, ?_, toReal_sub _ _, Or.inl ⟨?_, rfl⟩⟩
    · rw [toReal_clamp order, toReal_add]
    · exact not_lt.mp fun h => up (positive.mpr h)

theorem bounded_le_of_nonpos {floor ceiling weight delta : ℝ} (above : floor ≤ weight)
    (nonpos : delta ≤ 0) : max floor (min ceiling (weight + delta)) ≤ weight := by
  apply max_le above
  exact (min_le_right _ _).trans (by linarith)

theorem updateOf_fits (checked : Checked node.config.learning) (entry : JournalEntry F)
    (o : Outcome) (used : F) {r : SynapseRecord F}
    (floor : node.config.learning.minWeight ≤ r.weight) :
    toReal (node.updateOf entry o used r).after ≤ toReal r.weight ∨
      toReal (node.updateOf entry o used r).after - toReal r.weight ≤
        toReal node.config.learning.influenceCapPerPeer - toReal used := by
  obtain ⟨delta, after, -, cases⟩ := updateOf_exact checked entry o used r
  rw [after]
  have floor' := toReal_le.mpr floor
  rcases cases with ⟨nonpos, rfl⟩ | ⟨-, -, rfl⟩ | ⟨earned, left, same⟩
  · exact Or.inl (bounded_le_of_nonpos floor' nonpos)
  · exact Or.inl (bounded_le_of_nonpos floor' le_rfl)
  · right
    have up : 0 < delta := by
      rw [same]
      exact lt_min earned left
    have within : max (toReal node.config.learning.minWeight)
        (min (toReal node.config.learning.maxWeight) (toReal r.weight + delta)) ≤
        toReal r.weight + delta := by
      apply max_le
      · linarith
      · exact min_le_right _ _
    have share : delta ≤ toReal node.config.learning.influenceCapPerPeer - toReal used := by
      rw [same]
      exact min_le_right _ _
    linarith

/-- An outcome that earns nothing, or finds nothing left of the cap, does not raise a weight. -/
theorem updateOf_unraised (checked : Checked node.config.learning) (entry : JournalEntry F)
    (o : Outcome) (used : F) {r : SynapseRecord F}
    (floor : node.config.learning.minWeight ≤ r.weight)
    (spare : toReal (node.config.learning.learningRate * o.reward *
        Scalar.clamp entry.signalWeight 0 1) ≤ 0 ∨
      toReal node.config.learning.influenceCapPerPeer ≤ toReal used) :
    toReal (node.updateOf entry o used r).after ≤ toReal r.weight := by
  obtain ⟨delta, after, -, cases⟩ := updateOf_exact checked entry o used r
  rw [after]
  apply bounded_le_of_nonpos (toReal_le.mpr floor)
  rcases cases with ⟨nonpos, rfl⟩ | ⟨-, -, rfl⟩ | ⟨earned, left, -⟩
  · exact nonpos
  · exact le_rfl
  · rcases spare with none | spent
    · linarith
    · linarith

theorem toReal_delivered_earned (rate weight : F) :
    toReal (rate * Outcome.delivered.reward * weight) = toReal (rate * weight) := by
  rw [Outcome.reward, toReal_mul, toReal_mul, toReal_lit, toReal_mul]
  norm_num

theorem failure_earns_nothing (checked : Checked node.config.learning) (entry : JournalEntry F)
    {o : Outcome} (other : o ≠ .delivered) :
    toReal (node.config.learning.learningRate * o.reward *
      Scalar.clamp entry.signalWeight 0 1) ≤ 0 := by
  rw [toReal_mul, toReal_mul]
  apply mul_nonpos_of_nonpos_of_nonneg
  · exact mul_nonpos_of_nonneg_of_nonpos checked.rate.le (reward_nonpos_exact other)
  · exact clamp_unit_nonneg _

/-- A delivery is charged if what it earns, what is left of the cap and the way to the ceiling are
each large enough. -/
theorem updateOf_charged_of_room (checked : Checked node.config.learning) (entry : JournalEntry F)
    (used : F) {r : SynapseRecord F}
    (large : Scalar.epsilon <
      node.config.learning.learningRate * Scalar.clamp entry.signalWeight 0 1)
    (room : Scalar.epsilon < node.config.learning.influenceCapPerPeer - used)
    (headroom : Scalar.epsilon < node.config.learning.maxWeight - r.weight) :
    Node.Charged (node.updateOf entry .delivered used r) := by
  obtain ⟨delta, after, applied, cases⟩ := updateOf_exact checked entry .delivered used r
  dsimp only at cases
  rw [toReal_delivered_earned] at cases
  have large' := toReal_lt.mpr large
  have room' := toReal_lt.mpr room
  have headroom' := toReal_lt.mpr headroom
  rw [toReal_sub] at room' headroom'
  have positive : 0 < toReal (Scalar.epsilon : F) := by
    unfold Scalar.epsilon
    rw [toReal_lit]
    norm_num
  have moves : toReal (Scalar.epsilon : F) < delta := by
    rcases cases with ⟨nonpos, -⟩ | ⟨-, nonpos, -⟩ | ⟨-, -, same⟩
    · linarith
    · linarith
    · rw [same]
      exact lt_min large' room'
  have moved : toReal r.weight + toReal (Scalar.epsilon : F) <
      toReal (node.updateOf entry .delivered used r).after := by
    rw [after]
    apply lt_max_of_lt_right
    apply lt_min
    · linarith
    · linarith
  apply toReal_lt.mp
  rw [toReal_abs, applied]
  apply lt_of_lt_of_le _ (le_abs_self _)
  linarith

theorem updateOf_charged (checked : Checked node.config.learning) {nowNs : ℕ} {x : Settlement F}
    (metered : x.Metered node nowNs) {r : SynapseRecord F}
    (found : x.state.store.getSynapse x.entry.synapse = some r) :
    let u := node.updateOf x.entry x.outcome (node.usedBy x.entry nowNs x.state) r
    min (toReal u.after) (toReal node.config.synapse.maxWeight) ≤ toReal r.weight ∨
      Node.Charged u := by
  obtain ⟨floor, delivery⟩ := metered r found
  have unraised := updateOf_unraised checked x.entry x.outcome
    (node.usedBy x.entry nowNs x.state) floor
  by_cases delivered : x.outcome = .delivered
  · rcases delivery delivered with none | spent | top | lid | ⟨large, room, headroom⟩
    · refine Or.inl ((min_le_left _ _).trans (unraised (Or.inl ?_)))
      rw [delivered, toReal_delivered_earned, ← toReal_zero (F := F)]
      exact toReal_le.mpr none
    · exact Or.inl ((min_le_left _ _).trans (unraised (Or.inr (toReal_le.mpr spent))))
    · obtain ⟨delta, after, -, -⟩ := updateOf_exact checked x.entry x.outcome
        (node.usedBy x.entry nowNs x.state) r
      refine Or.inl ((min_le_left _ _).trans ?_)
      rw [after]
      exact max_le (toReal_le.mpr floor) ((min_le_left _ _).trans (toReal_le.mpr top))
    · exact Or.inl ((min_le_right _ _).trans (toReal_le.mpr lid))
    · right
      rw [delivered]
      exact updateOf_charged_of_room checked x.entry _ large room headroom
  · exact Or.inl ((min_le_left _ _).trans
      (unraised (Or.inl (failure_earns_nothing checked x.entry delivered))))

end Update

section Account

variable [ExactScalar F] {node : Node F} {peer : NodeId} {nowNs : ℕ} {log : List (Spending ℝ)}
  {st st' : MemoryStore F}

/-- What a peer has gained so far fits the cap, and the store has all of it on record. -/
structure OnAccount (node : Node F) (peer : NodeId) (log : List (Spending ℝ)) (nowNs : ℕ)
    (st : MemoryStore F) : Prop where
  budgeted : Budgeted (toReal node.config.learning.influenceCapPerPeer)
    (saturatingMul node.config.learning.influenceWindowSecs nanosPerSec) log
  tally : ∀ start, spentSince start log ≤ toReal (st.influenceSince peer start)
  past : ∀ y ∈ log, y.time ≤ nowNs

omit [ExactScalar F] in
theorem influenceSince_congr (same : st'.influence = st.influence) (start : ℕ) :
    st'.influenceSince peer start = st.influenceSince peer start := by
  unfold MemoryStore.influenceSince
  rw [same]

theorem influenceSince_charged {entry : JournalEntry F} {u : WeightUpdate F}
    (charge : st'.influence = Node.chargedTo entry u nowNs st.influence) (start : ℕ) :
    toReal (st'.influenceSince peer start) = toReal (st.influenceSince peer start) +
      if Node.Charged u ∧ entry.peer = peer ∧ start ≤ nowNs then |toReal u.appliedDelta| else 0 := by
  by_cases charged : Node.Charged u
  · rw [Node.chargedTo, if_pos charged] at charge
    unfold MemoryStore.influenceSince
    rw [charge, List.filter_append, List.map_append, toReal_sum, toReal_sum, List.map_append,
      List.sum_append]
    congr 1
    by_cases counts : entry.peer = peer ∧ start ≤ nowNs
    · rw [if_pos ⟨charged, counts⟩]
      simp [counts.1, counts.2]
    · rw [if_neg fun h => counts h.2]
      have out : ¬ (decide (entry.peer = peer) && decide (start ≤ nowNs)) = true := by
        simpa using counts
      simp [out]
  · rw [Node.chargedTo, if_neg charged] at charge
    rw [influenceSince_congr charge, if_neg fun h => charged h.1, add_zero]

theorem charge_nonneg {entry : JournalEntry F} {u : WeightUpdate F} (start : ℕ) :
    0 ≤ if Node.Charged u ∧ entry.peer = peer ∧ start ≤ nowNs then |toReal u.appliedDelta|
      else 0 := by
  split_ifs
  · exact abs_nonneg _
  · exact le_rfl

theorem riseBetween_same (same : st'.synapses = st.synapses) (id : SynapseId) :
    toReal (riseBetween peer id st st') = 0 := by
  unfold riseBetween
  rw [MemoryStore.getSynapse_congr same]
  cases st.getSynapse id with
  | none => exact toReal_zero
  | some r =>
    dsimp only
    split_ifs
    · rw [toReal_max, toReal_sub, sub_self, toReal_zero, max_self]
    · exact toReal_zero

namespace OnAccount

theorem later (h : OnAccount node peer log nowNs st) {now' : ℕ} (le : nowNs ≤ now') :
    OnAccount node peer log now' st :=
  ⟨h.budgeted, h.tally, fun y hy => (h.past y hy).trans le⟩

theorem of_influence (h : OnAccount node peer log nowNs st) (same : st'.influence = st.influence) :
    OnAccount node peer log nowNs st' := by
  refine ⟨h.budgeted, fun start => ?_, h.past⟩
  rw [influenceSince_congr same]
  exact h.tally start

theorem past_append (h : OnAccount node peer log nowNs st) (d : ℝ) :
    ∀ y ∈ log ++ [⟨nowNs, d⟩], y.time ≤ nowNs := by
  intro y hy
  rcases List.mem_append.mp hy with hy | hy
  · exact h.past y hy
  · rw [List.mem_singleton.mp hy]

theorem free (h : OnAccount node peer log nowNs st)
    (grows : ∀ start, toReal (st.influenceSince peer start) ≤ toReal (st'.influenceSince peer start)) :
    OnAccount node peer (log ++ [⟨nowNs, 0⟩]) nowNs st' := by
  refine ⟨.free h.budgeted rfl, fun start => ?_, h.past_append 0⟩
  rw [spentSince_append, spentSince_singleton, ite_self, add_zero]
  exact (h.tally start).trans (grows start)

theorem spend (h : OnAccount node peer log nowNs st) {d : ℝ} (nonneg : 0 ≤ d)
    (fits : d ≤ toReal node.config.learning.influenceCapPerPeer -
      toReal (st.influenceSince peer (node.config.learning.influenceWindowStart nowNs)))
    (recorded : ∀ start, toReal (st.influenceSince peer start) + (if start ≤ nowNs then d else 0) ≤
      toReal (st'.influenceSince peer start)) :
    OnAccount node peer (log ++ [⟨nowNs, d⟩]) nowNs st' := by
  refine ⟨.spend h.budgeted h.past nonneg ?_, fun start => ?_, h.past_append d⟩
  · have used := h.tally (node.config.learning.influenceWindowStart nowNs)
    dsimp only
    unfold LearningConfig.influenceWindowStart at used fits
    linarith
  · rw [spentSince_append, spentSince_singleton]
    exact (add_le_add (h.tally start) le_rfl).trans (recorded start)

theorem move (h : OnAccount node peer log nowNs st) {entry : JournalEntry F} (mine : entry.peer = peer)
    {u : WeightUpdate F} (charge : st'.influence = Node.chargedTo entry u nowNs st.influence)
    {before after : ℝ} (applied : toReal u.appliedDelta = toReal u.after - before)
    (capped : after ≤ toReal u.after) (charged : after ≤ before ∨ Node.Charged u) {used : F}
    (spent : used = st.influenceSince peer (node.config.learning.influenceWindowStart nowNs))
    (fits : toReal u.after ≤ before ∨ toReal u.after - before ≤
      toReal node.config.learning.influenceCapPerPeer - toReal used) :
    OnAccount node peer (log ++ [⟨nowNs, max (after - before) 0⟩]) nowNs st' := by
  by_cases up : before < after
  · rw [max_eq_left (by linarith)]
    have made := charged.resolve_left (not_le.mpr up)
    apply h.spend
    · linarith
    · have room := fits.resolve_left (by linarith)
      rw [spent] at room
      linarith
    · intro start
      rw [influenceSince_charged charge]
      apply add_le_add le_rfl
      by_cases counts : start ≤ nowNs
      · rw [if_pos counts, if_pos ⟨made, mine, counts⟩, applied]
        have := le_abs_self (toReal u.after - before)
        linarith
      · rw [if_neg counts, if_neg fun h => counts h.2.2]
  · rw [max_eq_right (by linarith)]
    apply h.free
    intro start
    rw [influenceSince_charged charge]
    exact le_add_of_nonneg_right (charge_nonneg start)

theorem weighIn (checked : Checked node.config.learning) {x : Settlement F}
    (metered : x.Metered node nowNs) (placed : x.Placed)
    (h : OnAccount node peer log nowNs x.state.store) :
    OnAccount node peer (log ++ [⟨nowNs, toReal (x.rise node nowNs peer)⟩]) nowNs
      (x.weighed node nowNs) := by
  have ends := node.weighIn_ends x.entry x.outcome nowNs x.state
  unfold Settlement.rise Settlement.weighed
  generalize (node.weighIn x.entry x.outcome nowNs).run x.state = result at ends
  cases ends with
  | unread same =>
    dsimp only
    rw [same, riseBetween_same rfl]
    exact h.free fun start => le_rfl
  | missing missing same =>
    dsimp only
    rw [same, riseBetween_same rfl]
    exact h.free fun start => le_rfl
  | unwritten found synapses influence =>
    dsimp only
    rw [riseBetween_same synapses]
    apply h.free
    intro start
    rw [influenceSince_charged influence]
    exact le_add_of_nonneg_right (charge_nonneg start)
  | @written t r found synapses influence =>
    obtain ⟨r₀, found₀, leads⟩ := placed.found
    rw [found] at found₀
    obtain rfl := Option.some.inj found₀
    have after := Node.getSynapse_written placed.filed found (node.reweighed_id _ _ _ _ r) synapses
    dsimp only
    unfold riseBetween
    rw [found, after]
    dsimp only
    by_cases mine : r.peer = peer
    · rw [if_pos mine, toReal_max, toReal_sub, toReal_zero, Node.reweighed_weight, toReal_min]
      obtain ⟨-, -, applied, -⟩ := updateOf_exact checked x.entry x.outcome
        (node.usedBy x.entry nowNs x.state) r
      have fits := updateOf_fits checked x.entry x.outcome (node.usedBy x.entry nowNs x.state)
        (metered r found).1
      have same : x.entry.peer = peer := leads.symm.trans mine
      apply h.move same influence applied (min_le_left _ _) (updateOf_charged checked metered found)
        _ fits
      rw [Node.usedBy, same]
    · rw [if_neg mine, toReal_zero]
      apply h.free
      intro start
      rw [influenceSince_charged influence]
      exact le_add_of_nonneg_right (charge_nonneg start)

end OnAccount

def risesOf (node : Node F) (peer : NodeId) (nowNs : ℕ) (xs : List (Settlement F)) :
    List (Spending ℝ) :=
  xs.map fun x => ⟨nowNs, toReal (x.rise node nowNs peer)⟩

def risesLog (node : Node F) (peer : NodeId) (ms : List (Moment F)) : List (Spending ℝ) :=
  ms.flatMap fun m => risesOf node peer m.before.clock (m.settlements node)

theorem settle_account (checked : Checked node.config.learning) {id : JournalId}
    {outcome : Outcome} {s : NodeState F} (kept : Kept s)
    (metered : ∀ x ∈ Node.settled id outcome nowNs s, x.Metered node nowNs)
    (h : OnAccount node peer log nowNs s.store) :
    OnAccount node peer (log ++ risesOf node peer nowNs (Node.settled id outcome nowNs s)) nowNs
      ((node.settle id outcome nowNs).run s).2.store := by
  rcases node.settle_cases id outcome nowNs s with ⟨none, after⟩ | ⟨x, one, by'⟩
  · rw [none, after, risesOf, List.map_nil, List.append_nil]
    exact h
  · rw [one] at metered ⊢
    have weighed := (h.of_influence by'.influence).weighIn checked
      (metered x (List.mem_singleton_self x)) (by'.placed kept)
    rw [by'.after]
    exact weighed.of_influence (node.updateSynapse_influence x.entry x.outcome nowNs x.state)

theorem call_account (checked : Checked node.config.learning) {m : Moment F}
    (performed : m.Performed node) (kept : Kept m.before)
    (metered : ∀ x ∈ m.settlements node, x.Metered node m.before.clock)
    (h : OnAccount node peer log m.before.clock m.before.store) :
    OnAccount node peer (log ++ risesOf node peer m.before.clock (m.settlements node))
      m.before.clock m.after.store := by
  by_cases learns : m.call.Learns
  · refine (moment_settles performed (I := fun done s => Kept s ∧
      ((∀ x ∈ done, x.Metered node m.before.clock) → OnAccount node peer
        (log ++ risesOf node peer m.before.clock done) m.before.clock s.store)) ?_ ?_ learns
        ⟨kept, fun _ => ?_⟩).2 metered
    · intro id outcome done s both
      refine ⟨settle_kept node id outcome _ both.1, fun metered => ?_⟩
      have before := both.2 fun x hx => metered x (List.mem_append_left _ hx)
      have after := settle_account checked both.1
        (fun x hx => metered x (List.mem_append_right _ hx)) before
      rw [List.append_assoc] at after
      rw [risesOf, List.map_append]
      exact after
    · exact fun s both => both
    · rw [risesOf, List.map_nil, List.append_nil]
      exact h
  · rw [settlements_nil learns, risesOf, List.map_nil, List.append_nil, moment_after performed]
    exact h.of_influence (KeepsInfluence.run (node.perform_keepsInfluence learns) m.before)

variable {ms : List (Moment F)} {s : NodeState F}

theorem run_account (run : NodeRun node ms s) (checked : Checked node.config.learning)
    (forward : ms.Pairwise fun a b => a.before.clock ≤ b.before.clock)
    (fresh : ∀ m ∈ ms, node.FreshId m)
    (metered : ∀ m ∈ ms, ∀ x ∈ m.settlements node, x.Metered node m.before.clock)
    (past : ∀ m ∈ ms, m.before.clock ≤ nowNs) :
    OnAccount node peer (risesLog node peer ms) nowNs s.store := by
  induction run generalizing nowNs with
  | start =>
    refine ⟨.nil, fun start => ?_, fun y hy => by cases hy⟩
    exact le_of_eq toReal_zero.symm
  | restart _ restarts ih =>
    obtain ⟨rng, clock, faults, rfl⟩ := restarts.built
    exact ih forward fresh metered past
  | @call ms s m run resumes performed ih =>
    obtain ⟨forward, -, later⟩ := List.pairwise_append.mp forward
    have earlier : ∀ m' ∈ ms, m'.before.clock ≤ m.before.clock := fun m' hm' =>
      later m' hm' m (List.mem_singleton_self m)
    have fresh' : ∀ m' ∈ ms, node.FreshId m' := fun m' hm' => fresh m' (by simp [hm'])
    have before := ih forward fresh' (fun m' hm' => metered m' (by simp [hm'])) earlier
    rw [← resumes.store] at before
    have kept : Kept m.before :=
      (run.kept fresh').1.of_same (by rw [resumes.store]) (by rw [resumes.store])
    have after := call_account checked performed kept (metered m (by simp)) before
    rw [risesLog, List.flatMap_append, List.flatMap_singleton]
    exact after.later (past m (by simp))

theorem toReal_risesWithin (node : Node F) (peer : NodeId) (startNs stopNs : ℕ)
    (ms : List (Moment F)) :
    toReal (risesWithin node peer startNs stopNs ms) =
      spentWithin startNs stopNs (risesLog node peer ms) := by
  unfold risesWithin risesLog
  rw [toReal_sum]
  induction ms with
  | nil => rfl
  | cons m ms ih =>
    rw [List.flatMap_cons, spentWithin_append, ← ih, List.filter_cons]
    by_cases counts : startNs ≤ m.before.clock ∧ m.before.clock ≤ stopNs
    · rw [if_pos (by simpa using counts), List.flatMap_cons, List.map_append, List.sum_append]
      congr 1
      simp [spentWithin, risesOf, List.filter_map, Function.comp_def, counts]
    · rw [if_neg (by simpa using counts)]
      have none : spentWithin startNs stopNs
          (risesOf node peer m.before.clock (m.settlements node)) = 0 := by
        have out : ∀ y ∈ risesOf node peer m.before.clock (m.settlements node),
            ¬ (startNs ≤ y.time ∧ y.time ≤ stopNs) := by
          intro y hy
          obtain ⟨x, -, rfl⟩ := List.mem_map.mp hy
          exact counts
        rw [spentWithin, List.filter_eq_nil_iff.mpr (by simpa using out)]
        rfl
      rw [none, zero_add]

theorem spentWithin_saturated {secs startNs : ℕ} (small : ∀ y ∈ log, y.time ≤ u64Max) :
    spentWithin startNs (startNs + secs * nanosPerSec) log =
      spentWithin startNs (startNs + saturatingMul secs nanosPerSec) log := by
  unfold spentWithin
  congr 2
  apply List.filter_congr
  intro y hy
  have := small y hy
  unfold saturatingMul
  simp only [decide_eq_decide]
  omega

theorem falls_in_full (checked : Checked node.config.learning) {x : Settlement F}
    (placed : x.Placed) (negative : x.outcome.reward < (0 : F)) : x.FallsInFull node nowNs := by
  intro r u t found run
  have ends := node.weighIn_ends x.entry x.outcome nowNs x.state
  rw [run] at ends
  cases ends with
  | missing missing same =>
    rw [found] at missing
    cases missing
  | @written _ r₀ found₀ synapses influence =>
    rw [found] at found₀
    obtain rfl := Option.some.inj found₀
    refine ⟨_, Node.getSynapse_written placed.filed found (node.reweighed_id _ _ _ _ r) synapses, ?_⟩
    obtain ⟨delta, after, -, cases⟩ := updateOf_exact checked x.entry x.outcome
      (node.usedBy x.entry nowNs x.state) r
    have nonpos : toReal (node.config.learning.learningRate * x.outcome.reward *
        Scalar.clamp x.entry.signalWeight 0 1) ≤ 0 := by
      have fallen := toReal_lt.mpr negative
      rw [toReal_zero] at fallen
      rw [toReal_mul, toReal_mul]
      apply mul_nonpos_of_nonpos_of_nonneg
      · exact (mul_neg_of_pos_of_neg checked.rate fallen).le
      · exact clamp_unit_nonneg _
    have full : delta = toReal (node.config.learning.learningRate * x.outcome.reward *
        Scalar.clamp x.entry.signalWeight 0 1) := by
      rcases cases with ⟨-, same⟩ | ⟨earned, -, -⟩ | ⟨earned, -, -⟩
      · exact same
      · linarith
      · linarith
    rw [Node.reweighed_weight]
    change toReal (applyReward _ _ _ _ _).after = _ at after
    rw [full] at after
    dsimp only
    constructor
    · apply toReal_le.mp
      rw [toReal_min, after, toReal_max, toReal_add]
      apply (min_le_left _ _).trans
      apply max_le
      · exact le_max_right _ _
      · exact (min_le_right _ _).trans (le_max_left _ _)
    · intro floor ceiling lid
      have floor' := toReal_le.mpr floor
      have ceiling' := toReal_le.mpr ceiling
      have lid' := toReal_le.mpr lid
      have uncut : min (toReal node.config.learning.maxWeight) (toReal r.weight +
          toReal (node.config.learning.learningRate * x.outcome.reward *
            Scalar.clamp x.entry.signalWeight 0 1)) = _ := min_eq_right (by linarith)
      apply toReal_injective
      rw [toReal_min, after, toReal_max, toReal_add, uncut, max_comm]
      apply min_eq_left
      apply max_le
      · linarith
      · linarith

/-- In every run of a checked configuration whose clock never goes back, whose new synapses have
new identifiers and whose outcomes are all metered, each peer's influence is capped. -/
theorem influence_capped (run : NodeRun node ms s) (valid : node.config.learning.validate = .ok ())
    (forward : ms.Pairwise fun a b => a.before.clock ≤ b.before.clock)
    (representable : ∀ m ∈ ms, m.before.clock ≤ u64Max) (fresh : ∀ m ∈ ms, node.FreshId m)
    (metered : ∀ m ∈ ms, ∀ x ∈ m.settlements node, x.Metered node m.before.clock) :
    InfluenceCapped node ms := by
  have checked := Checked.of_validate valid
  constructor
  · intro peer startNs
    have account : OnAccount node peer (risesLog node peer ms) u64Max s.store :=
      run_account run checked forward fresh metered representable
    apply toReal_le.mp
    rw [toReal_risesWithin, spentWithin_saturated account.past]
    exact account.budgeted.window checked.cap.le startNs
  · intro m hm x hx negative
    have kept := (run.kept fresh).2 m hm
    exact falls_in_full checked (settlements_placed (run.performed m hm) kept x hx) negative

end Account

def sentWith (id : ℕ) (weight : ℚ) : Signal ℚ :=
  { ((SignalBuilder.new .data "").withWeight weight).acknowledged.buildUnsignedWith ⟨[0]⟩ 0
      ⟨id⟩ with
    scope := .targeted neighbour }

def sending (s : NodeState ℚ) (id : ℕ) (weight : ℚ) : Moment ℚ :=
  edgeNode.momentAt (.receiveLocal (sentWith id weight)) { s with clock := 0, faults := [] }

def acknowledging (s : NodeState ℚ) (id : ℕ) : Moment ℚ :=
  edgeNode.momentAt (.applyReceipt (.delivered ⟨id⟩ 0) neighbour)
    { s with clock := 0, faults := [] }

/-- Signals of these weights, each sent to the neighbour and acknowledged. -/
def exchanges : NodeState ℚ → ℕ → List ℚ → List (Moment ℚ)
  | _, _, [] => []
  | s, id, weight :: rest =>
    let sent := sending s id weight
    let acknowledged := acknowledging sent.after id
    sent :: acknowledged :: exchanges acknowledged.after (id + 1) rest

def exchanged (weights : List ℚ) : List (Moment ℚ) :=
  connected :: exchanges connected.after 0 weights

theorem exchanges_run {ms : List (Moment ℚ)} {s : NodeState ℚ} (run : NodeRun edgeNode ms s)
    (id : ℕ) (weights : List ℚ) : ∃ t, NodeRun edgeNode (ms ++ exchanges s id weights) t := by
  induction weights generalizing ms s id with
  | nil =>
    rw [exchanges, List.append_nil]
    exact ⟨s, run⟩
  | cons weight rest ih =>
    have sent := run.next (.receiveLocal (sentWith id weight)) 0 []
    have next := ih (sent.next (.applyReceipt (.delivered ⟨id⟩ 0) neighbour) 0 []) (id + 1)
    rw [List.append_assoc, List.append_assoc] at next
    exact next

theorem exchanged_run (weights : List ℚ) : ∃ t, NodeRun edgeNode (exchanged weights) t :=
  exchanges_run ((NodeRun.start .maximal 0 []).next (.upsertSynapse neighbour) 0 []) 0 weights

theorem exchanged_fresh (weights : List ℚ) : ∀ m ∈ exchanged weights, edgeNode.FreshId m := by
  have calls : ∀ (weights : List ℚ) (s : NodeState ℚ) (id : ℕ), ∀ m ∈ exchanges s id weights,
      ∀ peer, m.call ≠ .upsertSynapse peer := by
    intro weights
    induction weights with
    | nil =>
      intro s id m hm
      cases hm
    | cons weight rest ih =>
      intro s id m hm peer
      rcases List.mem_cons.mp hm with rfl | hm
      · rintro ⟨⟩
      · rcases List.mem_cons.mp hm with rfl | hm
        · rintro ⟨⟩
        · exact ih _ _ m hm peer
  intro m hm peer call missing
  rcases List.mem_cons.mp hm with rfl | hm
  · rfl
  · exact absurd call (calls weights _ _ m hm peer)

theorem ordinary_deliveries_capped : InfluenceCapped edgeNode (exchanged [1, 1]) := by
  obtain ⟨t, run⟩ := exchanged_run [1, 1]
  exact influence_capped run edgeNode_checked (by decide +kernel) (by decide +kernel)
    (exchanged_fresh _) (by decide +kernel)

/-- The last two of these deliveries take the neighbour over its cap. -/
theorem uncharged_deliveries_pass_cap :
    ¬ ∀ (node : Node ℚ) (ms : List (Moment ℚ)) (s : NodeState ℚ), NodeRun node ms s →
      node.config.learning.validate = .ok () →
      (ms.Pairwise fun a b => a.before.clock ≤ b.before.clock) →
      (∀ m ∈ ms, m.before.clock ≤ u64Max) → (∀ m ∈ ms, node.FreshId m) →
      InfluenceCapped node ms := by
  intro claim
  obtain ⟨t, run⟩ := exchanged_run [1, 1, 1, 999998 / 1000000, 1, 1]
  have capped := claim edgeNode _ t run edgeNode_checked (by decide +kernel) (by decide +kernel)
    (exchanged_fresh _)
  have excess : edgeNode.config.learning.influenceCapPerPeer <
      risesWithin edgeNode neighbour 0
        (0 + edgeNode.config.learning.influenceWindowSecs * nanosPerSec)
        (exchanged [1, 1, 1, 999998 / 1000000, 1, 1]) := by decide +kernel
  exact absurd (capped.rises neighbour 0) (not_le.mpr excess)

end OpenNtl
