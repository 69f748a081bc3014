import OpenNtl.InfluenceCap
import OpenNtl.OutboundBudget

/-! # Whether the update reported is the one made

`apply_reward` works out the report and the charge from its own bounds. The synapse is then held to
its own ceiling as well, and a move of at most `f32::EPSILON` is charged to nobody. Exact
arithmetic.
-/
namespace OpenNtl

open AtomicProgram NodeM ExactScalar

section Bounds

variable {lo hi w e : ℝ}

theorem held_iff (order : lo ≤ hi) :
    max lo (min hi (w + e)) = w ↔
      lo ≤ w ∧ w ≤ hi ∧ (e = 0 ∨ w = lo ∧ e ≤ 0 ∨ w = hi ∧ 0 ≤ e) := by
  rw [le_antisymm_iff, max_le_iff, min_le_iff, le_max_iff, le_min_iff]
  constructor
  · rintro ⟨⟨floor, top | down⟩, bottom | ⟨ceiling, up⟩⟩
    · have full : lo = hi := le_antisymm order (top.trans bottom)
      rcases le_total e 0 with down | up
      · exact ⟨floor, bottom.trans order, Or.inr (Or.inl ⟨le_antisymm bottom floor, down⟩)⟩
      · exact ⟨floor, bottom.trans order,
          Or.inr (Or.inr ⟨full ▸ le_antisymm bottom floor, up⟩)⟩
    · exact ⟨floor, ceiling, Or.inr (Or.inr ⟨le_antisymm ceiling top, by linarith⟩)⟩
    · exact ⟨floor, bottom.trans order,
        Or.inr (Or.inl ⟨le_antisymm bottom floor, by linarith⟩)⟩
    · exact ⟨floor, ceiling, Or.inl (by linarith)⟩
  · rintro ⟨floor, ceiling, none | ⟨bottom, down⟩ | ⟨top, up⟩⟩
    · exact ⟨⟨floor, Or.inr (by linarith)⟩, Or.inr ⟨ceiling, by linarith⟩⟩
    · exact ⟨⟨floor, Or.inr (by linarith)⟩, Or.inl bottom.le⟩
    · exact ⟨⟨floor, Or.inl top.ge⟩, Or.inr ⟨ceiling, by linarith⟩⟩

theorem moves_more_iff {d : ℝ} :
    d < |max lo (min hi (w + e)) - w| ↔
      w + d < lo ∨ (w + d < hi ∧ d < e) ∨ (lo + d < w ∧ (hi + d < w ∨ e < -d)) := by
  have up : d < max lo (min hi (w + e)) - w ↔ w + d < lo ∨ w + d < hi ∧ d < e := by
    rw [lt_sub_iff_add_lt', lt_max_iff, lt_min_iff, add_lt_add_iff_left]
  have down : d < -(max lo (min hi (w + e)) - w) ↔ lo + d < w ∧ (hi + d < w ∨ e < -d) := by
    rw [neg_sub, lt_sub_comm, max_lt_iff, min_lt_iff, lt_sub_iff_add_lt, lt_sub_iff_add_lt]
    refine and_congr_right fun _ => or_congr_right ?_
    constructor
    · intro h
      linarith
    · intro h
      linarith
  rw [lt_abs, up, down, or_assoc]

end Bounds

variable {F : Type} [Scalar F]

def chargedBetween (peer : NodeId) (st st' : MemoryStore F) : F :=
  Scalar.sum (((st'.influence.drop st.influence.length).filter fun i => i.peer = peer).map
    Influence.magnitude)

/-- The report of a call is what it did to the record and to the peer's account. -/
structure Moment.Reports (node : Node F) (m : Moment F) (x : Settlement F) (r : SynapseRecord F)
    (u : WeightUpdate F) : Prop where
  before : u.before = r.weight
  written : ∃ r', (x.weighed node m.before.clock).getSynapse x.entry.synapse = some r' ∧
    u.after = r'.weight ∧ u.appliedDelta = r'.weight - r.weight ∧
    chargedBetween x.entry.peer m.before.store m.after.store = Scalar.abs (r'.weight - r.weight)

namespace Settlement

variable (node : Node F) (nowNs : ℕ) (x : Settlement F)

/-- What the outcome is worth, a reward being cut to what is left of the peer's cap. -/
def worth : F :=
  let c := node.config.learning
  let raw := c.learningRate * x.outcome.reward * Scalar.clamp x.entry.signalWeight 0 1
  if 0 < raw then min raw (max 0 (c.influenceCapPerPeer - node.usedBy x.entry nowNs x.state))
  else raw

def UnderCeiling (r : SynapseRecord F) : Prop :=
  let c := node.config.learning
  c.minWeight ≤ node.config.synapse.maxWeight ∧
    (c.maxWeight ≤ node.config.synapse.maxWeight ∨
      r.weight + x.worth node nowNs ≤ node.config.synapse.maxWeight)

def Holds (r : SynapseRecord F) : Prop :=
  let c := node.config.learning
  let worth := x.worth node nowNs
  c.minWeight ≤ r.weight ∧ r.weight ≤ c.maxWeight ∧
    (worth = 0 ∨ r.weight = c.minWeight ∧ worth ≤ 0 ∨ r.weight = c.maxWeight ∧ 0 ≤ worth)

/-- The weight has more than `f32::EPSILON` to go, and goes there. -/
def MovesFar (r : SynapseRecord F) : Prop :=
  let c := node.config.learning
  let worth := x.worth node nowNs
  r.weight + Scalar.epsilon < c.minWeight ∨
    (r.weight + Scalar.epsilon < c.maxWeight ∧ Scalar.epsilon < worth) ∨
    (c.minWeight + Scalar.epsilon < r.weight ∧
      (c.maxWeight + Scalar.epsilon < r.weight ∨ worth < -Scalar.epsilon))

instance decidableUnderCeiling (r : SynapseRecord F) : Decidable (x.UnderCeiling node nowNs r) :=
  inferInstanceAs (Decidable (_ ≤ _ ∧ (_ ≤ _ ∨ _ ≤ _)))

instance decidableMovesFar (r : SynapseRecord F) : Decidable (x.MovesFar node nowNs r) :=
  inferInstanceAs (Decidable (_ < _ ∨ (_ < _ ∧ _ < _) ∨ (_ < _ ∧ (_ < _ ∨ _ < _))))

end Settlement

def Moment.reported (m : Moment F) : Option (WeightUpdate F) :=
  match m.reply with
  | .ok (.update u) => u
  | _ => none

omit [Scalar F] in
theorem Moment.reply_of_reported {m : Moment F} {u : WeightUpdate F} (h : m.reported = some u) :
    m.reply = .ok (.update (some u)) := by
  unfold Moment.reported at h
  split at h
  · rename_i v reply
    rw [reply, h]
  · cases h

section Replies

variable {node : Node F} {u : WeightUpdate F}

theorem ok_of_map_eq_ok {ε α β : Type} {f : α → β} (injective : Function.Injective f)
    {result : Except ε α} {a : α} (same : result.map f = .ok (f a)) : result = .ok a := by
  cases result with
  | error e => cases same
  | ok b => exact congrArg Except.ok (injective (Except.ok.inj same))

theorem Node.settle_reported {id : JournalId} {outcome : Outcome} {nowNs : ℕ} {s : NodeState F}
    (reply : ((node.settle id outcome nowNs).run s).1 = .ok (some u)) :
    ∃ x, Node.settled id outcome nowNs s = [x] ∧ node.SettlesBy id outcome nowNs s x ∧
      ((node.updateSynapse x.entry x.outcome nowNs).run x.state).1 = .ok u := by
  have one : ∃ x, Node.settled id outcome nowNs s = [x] ∧
      ((node.updateSynapse x.entry x.outcome nowNs).run x.state).1 = .ok u := by
    unfold Node.settled
    cases fault : nextFault s with
    | some f =>
      have failed : (node.settle id outcome nowNs).run s = _ :=
        Prog.run_bind_error (callStore_run_error fault)
      rw [failed] at reply
      cases reply
    | none =>
      have resolved : (node.settle id outcome nowNs).run s = _ :=
        Prog.run_bind_ok (callStore_run_ok fault)
      rw [callStore_run_ok fault]
      rw [resolved] at reply
      generalize s.store.resolveDecision id outcome nowNs = answer at reply
      obtain ⟨_ | entry, st⟩ := answer
      · cases reply
      · dsimp only at reply ⊢
        by_cases now : entry.resolvedAtNs = some nowNs
        · rw [Node.learnIfResolvedNow, if_pos now, Prog.run_map] at reply
          exact ⟨_, if_pos now, ok_of_map_eq_ok (Option.some_injective _) reply⟩
        · rw [Node.learnIfResolvedNow, if_neg now] at reply
          cases reply
  obtain ⟨x, settled, update⟩ := one
  rcases node.settle_cases id outcome nowNs s with ⟨none, -⟩ | ⟨y, settled', by'⟩
  · rw [none] at settled
    cases settled
  · obtain rfl : y = x := by simpa [settled'] using settled
    exact ⟨y, settled', by', update⟩

/-- A transmission failure or a receipt reports the update of the one outcome that it weighs in. -/
theorem reported_settlement {m : Moment F} (performed : m.Performed node)
    (reply : m.reply = .ok (.update (some u))) :
    ∃ id outcome s x, s.store = m.before.store ∧ m.settlements node = [x] ∧
      node.SettlesBy id outcome m.before.clock s x ∧
      ((node.updateSynapse x.entry x.outcome m.before.clock).run x.state).1 = .ok u ∧
      m.after = ((node.updateSynapse x.entry x.outcome m.before.clock).run x.state).2 := by
  have run : (node.perform m.call).run m.before = (m.reply, m.after) := performed
  rw [reply] at run
  unfold Moment.settlements
  generalize m.call = call at run
  have update : Function.Injective (Reply.update (F := F)) := fun _ _ => Reply.update.inj
  have other : ∀ {α : Type} {f : α → Reply F}, (∀ a, f a ≠ .update (some u)) →
      ∀ result : Except NodeError α, result.map f ≠ .ok (.update (some u)) := by
    intro α f no result same
    cases result with
    | error e => cases same
    | ok a => exact no a (Except.ok.inj same)
  unfold Node.perform at run
  cases call with
  | failForward id =>
    rw [Prog.run_map] at run
    obtain ⟨answer, after⟩ := Prod.mk.inj run
    obtain ⟨x, settled, by', returned⟩ :=
      Node.settle_reported (s := m.before) (ok_of_map_eq_ok update answer)
    exact ⟨id, _, m.before, x, rfl, settled, by', returned, after.symm.trans by'.after⟩
  | applyReceipt receipt peer =>
    rw [Prog.run_map, Node.applyReceipt, now_bind_run] at run
    dsimp only at run ⊢
    cases fault : nextFault m.before with
    | some f =>
      rw [Prog.run_bind_error (readStore_run_error fault)] at run
      cases (Prod.mk.inj run).1
    | none =>
      rw [readStore_run_ok fault]
      rw [Prog.run_bind_ok (readStore_run_ok fault)] at run
      dsimp only at run ⊢
      cases named : (m.before.store.pendingDecisionFor receipt.correlationId peer).bind
        JournalEntry.id with
      | none =>
        rw [named] at run
        have none := Reply.update.inj (Except.ok.inj (Prod.mk.inj run).1)
        cases none
      | some id =>
        rw [named] at run
        obtain ⟨answer, after⟩ := Prod.mk.inj run
        obtain ⟨x, settled, by', returned⟩ := Node.settle_reported (ok_of_map_eq_ok update answer)
        exact ⟨id, _, m.before.stored m.before.store, x, rfl, settled, by', returned,
          after.symm.trans by'.after⟩
  | _ =>
    rw [Prog.run_map] at run
    refine absurd (Prod.mk.inj run).1 (other ?_ _)
    rintro _ ⟨⟩

end Replies

section Exact

variable [ExactScalar F] {node : Node F}

theorem toReal_chargedTo (entry : JournalEntry F) (u : WeightUpdate F) {nowNs : ℕ}
    {st st' : MemoryStore F} (influence : st'.influence = Node.chargedTo entry u nowNs st.influence) :
    toReal (chargedBetween entry.peer st st') =
      if Node.Charged u then |toReal u.appliedDelta| else 0 := by
  unfold chargedBetween
  rw [influence, Node.chargedTo]
  by_cases charged : Node.Charged u
  · rw [if_pos charged, if_pos charged, List.drop_left, toReal_sum]
    simp
  · rw [if_neg charged, if_neg charged, List.drop_length, toReal_sum]
    simp

theorem toReal_worth (nowNs : ℕ) (x : Settlement F) :
    toReal (x.worth node nowNs) =
      let raw := toReal (node.config.learning.learningRate * x.outcome.reward *
        Scalar.clamp x.entry.signalWeight 0 1)
      let left := toReal node.config.learning.influenceCapPerPeer -
        toReal (node.usedBy x.entry nowNs x.state)
      if 0 < raw then min raw (max 0 left) else raw := by
  unfold Settlement.worth
  dsimp only
  generalize node.config.learning.learningRate * x.outcome.reward *
    Scalar.clamp x.entry.signalWeight 0 1 = raw
  have positive : 0 < raw ↔ 0 < toReal raw := by
    rw [← toReal_lt, toReal_zero]
  by_cases up : 0 < raw
  · rw [if_pos up, if_pos (positive.mp up), toReal_min, toReal_max, toReal_zero, toReal_sub]
  · rw [if_neg up, if_neg fun h => up (positive.mpr h)]

theorem updateOf_worth (checked : Checked node.config.learning) (nowNs : ℕ) (x : Settlement F)
    (r : SynapseRecord F) :
    let u := node.updateOf x.entry x.outcome (node.usedBy x.entry nowNs x.state) r
    toReal u.after = max (toReal node.config.learning.minWeight)
        (min (toReal node.config.learning.maxWeight)
          (toReal r.weight + toReal (x.worth node nowNs))) ∧
      toReal u.appliedDelta = toReal u.after - toReal r.weight := by
  obtain ⟨delta, after, applied, cases⟩ := updateOf_exact checked x.entry x.outcome
    (node.usedBy x.entry nowNs x.state) r
  refine ⟨?_, applied⟩
  rw [after, toReal_worth]
  dsimp only at cases ⊢
  congr 3
  rcases cases with ⟨nonpos, rfl⟩ | ⟨earned, spent, rfl⟩ | ⟨earned, left, rfl⟩
  · rw [if_neg (not_lt.mpr nonpos)]
  · rw [if_pos earned, max_eq_left spent, min_eq_right earned.le]
  · rw [if_pos earned, max_eq_right left.le]

theorem uncut_iff (checked : Checked node.config.learning) (nowNs : ℕ) (x : Settlement F)
    (r : SynapseRecord F) :
    toReal (node.updateOf x.entry x.outcome (node.usedBy x.entry nowNs x.state) r).after ≤
        toReal node.config.synapse.maxWeight ↔ x.UnderCeiling node nowNs r := by
  rw [(updateOf_worth checked nowNs x r).1, max_le_iff, min_le_iff, ← toReal_add, toReal_le,
    toReal_le, toReal_le]
  rfl

theorem charged_iff (checked : Checked node.config.learning) (nowNs : ℕ) (x : Settlement F)
    (r : SynapseRecord F) :
    Node.Charged (node.updateOf x.entry x.outcome (node.usedBy x.entry nowNs x.state) r) ↔
      x.MovesFar node nowNs r := by
  obtain ⟨after, applied⟩ := updateOf_worth checked nowNs x r
  unfold Node.Charged Settlement.MovesFar
  have lt : ∀ {a b : F}, a < b ↔ toReal a < toReal b := toReal_lt.symm
  rw [lt, toReal_abs, applied, after, moves_more_iff]
  simp only [lt, toReal_add, toReal_neg]

theorem holds_iff (checked : Checked node.config.learning) (nowNs : ℕ) (x : Settlement F)
    (r : SynapseRecord F) :
    toReal (node.updateOf x.entry x.outcome (node.usedBy x.entry nowNs x.state) r).after =
      toReal r.weight ↔ x.Holds node nowNs r := by
  rw [(updateOf_worth checked nowNs x r).1, held_iff checked.bounds.le]
  have le : ∀ {a b : F}, a ≤ b ↔ toReal a ≤ toReal b := toReal_le.symm
  have eq : ∀ {a b : F}, a = b ↔ toReal a = toReal b := toReal_injective.eq_iff.symm
  unfold Settlement.Holds
  simp only [le, eq, toReal_zero]

omit [ExactScalar F] in
/-- An update that is reported of a stored record is the rule's, and its record is written. -/
theorem Node.updateSynapse_reported {x : Settlement F} {nowNs : ℕ} {u : WeightUpdate F}
    {r : SynapseRecord F} (filed : Filed x.state.store)
    (found : x.state.store.getSynapse x.entry.synapse = some r)
    (reply : ((node.updateSynapse x.entry x.outcome nowNs).run x.state).1 = .ok u) :
    u = node.updateOf x.entry x.outcome (node.usedBy x.entry nowNs x.state) r ∧
      (x.weighed node nowNs).getSynapse x.entry.synapse = some
        (node.reweighed x.entry x.outcome nowNs (node.usedBy x.entry nowNs x.state) r) ∧
      ((node.updateSynapse x.entry x.outcome nowNs).run x.state).2.store.influence =
        Node.chargedTo x.entry u nowNs x.state.store.influence := by
  have ends := node.weighIn_ends x.entry x.outcome nowNs x.state
  rw [Node.updateSynapse_influence]
  rw [Node.updateSynapse_eq, Prog.run_bind] at reply
  unfold Settlement.weighed
  generalize (node.weighIn x.entry x.outcome nowNs).run x.state = result at ends reply ⊢
  cases ends with
  | unread same => cases reply
  | missing missing same =>
    rw [found] at missing
    cases missing
  | unwritten found' synapses influence => cases reply
  | @written t r' found' synapses influence =>
    rw [found] at found'
    obtain rfl := Option.some.inj found'
    have same : node.updateOf x.entry x.outcome (node.usedBy x.entry nowNs x.state) r = u := by
      dsimp only at reply
      rw [Prog.run_bind] at reply
      rcases rescaled : node.normalizeOutboundWeights.run t with ⟨e | factor, t'⟩
      · rw [rescaled] at reply
        cases reply
      · rw [rescaled] at reply
        exact Except.ok.inj reply
    refine ⟨same.symm, Node.getSynapse_written filed found (node.reweighed_id _ _ _ _ r) synapses, ?_⟩
    rw [← same]
    exact influence

/-- An update is right about the weight that was written under a ceiling, and about the charge, if
the ceiling has not cut it and it moves nothing or is charged. -/
theorem agrees_iff {u : WeightUpdate F} {written ceiling charge : F}
    (move : toReal u.appliedDelta = toReal u.after - toReal u.before)
    (cut : toReal written = min (toReal u.after) (toReal ceiling))
    (charged : toReal charge = if Node.Charged u then |toReal u.appliedDelta| else 0) :
    (u.after = written ∧ u.appliedDelta = written - u.before ∧
        charge = Scalar.abs (written - u.before)) ↔
      toReal u.after ≤ toReal ceiling ∧ (toReal u.after = toReal u.before ∨ Node.Charged u) := by
  constructor
  · rintro ⟨rfl, -, account⟩
    refine ⟨min_eq_left_iff.mp cut.symm, ?_⟩
    by_cases moves : Node.Charged u
    · exact Or.inr moves
    · rw [if_neg moves, account, toReal_abs, toReal_sub, abs_eq_zero] at charged
      exact Or.inl (sub_eq_zero.mp charged)
  · rintro ⟨uncut, moves⟩
    rw [min_eq_left uncut] at cut
    refine ⟨toReal_injective cut.symm, toReal_injective ?_, toReal_injective ?_⟩
    · rw [move, toReal_sub, cut]
    · rw [charged, toReal_abs, toReal_sub, cut, move]
      by_cases far : Node.Charged u
      · rw [if_pos far]
      · rw [if_neg far, moves.resolve_right far, sub_self, abs_zero]

theorem Moment.reports_iff (checked : Checked node.config.learning) {m : Moment F}
    (performed : m.Performed node) (filed : Filed m.before.store) {u : WeightUpdate F}
    (reply : m.reply = .ok (.update (some u))) :
    ∃ x, m.settlements node = [x] ∧ ∀ r, m.before.store.getSynapse x.entry.synapse = some r →
      (m.Reports node x r u ↔ x.UnderCeiling node m.before.clock r ∧
        (x.Holds node m.before.clock r ∨ x.MovesFar node m.before.clock r)) := by
  obtain ⟨id, outcome, s, x, same, settled, by', update, after⟩ :=
    reported_settlement performed reply
  refine ⟨x, settled, fun r found => ?_⟩
  have synapses : x.state.store.synapses = m.before.store.synapses := by
    rw [by'.synapses, same]
  have found' : x.state.store.getSynapse x.entry.synapse = some r := by
    rw [MemoryStore.getSynapse_congr synapses]
    exact found
  obtain ⟨rfl, written, influence⟩ :=
    Node.updateSynapse_reported (filed.of_same synapses) found' update
  rw [← after, by'.influence, same] at influence
  rw [← uncut_iff checked, ← holds_iff checked, ← charged_iff checked]
  have cut : toReal (node.reweighed x.entry x.outcome m.before.clock
      (node.usedBy x.entry m.before.clock x.state) r).weight =
      min (toReal (node.updateOf x.entry x.outcome (node.usedBy x.entry m.before.clock x.state)
        r).after) (toReal node.config.synapse.maxWeight) := by
    rw [Node.reweighed_weight, toReal_min]
    rfl
  have agrees := agrees_iff (updateOf_worth checked m.before.clock x r).2 cut
    (toReal_chargedTo x.entry _ influence)
  refine Iff.trans ⟨?_, fun report => ⟨rfl, _, written, report⟩⟩ agrees
  rintro ⟨-, r', written', report⟩
  rw [written] at written'
  obtain rfl := Option.some.inj written'
  exact report

/-- What is reported is what happened exactly when the synapse's own ceiling does not cut the
weight, and the weight stays or moves by enough to be charged. -/
theorem reported_update_iff {settings : NodeSettings F} {supportedModules : List String}
    {identity : NodeId} {ms : List (Moment F)} {s : NodeState F}
    (valid : settings.validate supportedModules = .ok ())
    (run : NodeRun ⟨identity, settings.toNodeConfig⟩ ms s) {m : Moment F} (hm : m ∈ ms)
    {u : WeightUpdate F} (reply : m.reply = .ok (.update (some u))) :
    ∃ x, m.settlements ⟨identity, settings.toNodeConfig⟩ = [x] ∧
      ∀ r, m.before.store.getSynapse x.entry.synapse = some r →
        (m.Reports ⟨identity, settings.toNodeConfig⟩ x r u ↔
          x.UnderCeiling ⟨identity, settings.toNodeConfig⟩ m.before.clock r ∧
            (x.Holds ⟨identity, settings.toNodeConfig⟩ m.before.clock r ∨
              x.MovesFar ⟨identity, settings.toNodeConfig⟩ m.before.clock r)) := by
  have checked : Checked settings.learning :=
    Checked.of_validate ((settings.validate_iff supportedModules).mp valid).learning
  exact Moment.reports_iff checked (run.performed m hm) (run.filed.2 m hm) reply

end Exact

def lowCeiling : NodeSettings ℚ :=
  { NodeSettings.forClass .edge with
    synapse := { SynapseConfig.default with maxWeight := 1 / 10 } }

theorem lowCeiling_checked : lowCeiling.validate ["classical-v1"] = .ok () := by
  rw [NodeSettings.validate_iff]
  obtain ⟨activation, learning, propagation, crypto, -⟩ :=
    (NodeSettings.validate_iff _ _).mp (NodeSettings.validate_forClass .edge)
  refine ⟨activation, learning, propagation, crypto, ?_⟩
  norm_num [lowCeiling, NodeSettings.forClass, NodeConfig.forClass, LearningConfig.forClass,
    SynapseConfig.default, Scalar.lit]

/-- A node connects, sends to its neighbour, and is told of the delivery. -/
def acknowledged : List (Call ℚ) :=
  [.upsertSynapse neighbour, .receiveLocal direct,
    .applyReceipt (.delivered direct.id 0) neighbour]

def acknowledgedSending (settings : NodeSettings ℚ) : List (Moment ℚ) × NodeState ℚ :=
  runOf ⟨⟨[0]⟩, settings.toNodeConfig⟩
    (Node.build ⟨⟨[0]⟩, settings.toNodeConfig⟩ .new .maximal 0 []) 0 acknowledged

theorem acknowledgedSending_run (settings : NodeSettings ℚ) :
    NodeRun ⟨⟨[0]⟩, settings.toNodeConfig⟩ (acknowledgedSending settings).1
      (acknowledgedSending settings).2 :=
  runOf_run (NodeRun.start .maximal 0 [] : NodeRun ⟨⟨[0]⟩, settings.toNodeConfig⟩ [] _) 0
    acknowledged

def acknowledgement (settings : NodeSettings ℚ) : Moment ℚ :=
  (acknowledgedSending settings).1.getD 2 connected

theorem acknowledgement_mem (settings : NodeSettings ℚ) :
    acknowledgement settings ∈ (acknowledgedSending settings).1 :=
  List.mem_of_getElem? (i := 2) rfl

theorem acknowledgement_reported :
    ∃ u x r, (acknowledgement (.forClass .edge)).settlements edgeNode = [x] ∧
      (acknowledgement (.forClass .edge)).before.store.getSynapse x.entry.synapse = some r ∧
      (acknowledgement (.forClass .edge)).Reports edgeNode x r u := by
  have facts : (acknowledgement (.forClass .edge)).reported.any (fun _ =>
      ((acknowledgement (.forClass .edge)).settlements edgeNode).all fun x =>
        ((acknowledgement (.forClass .edge)).before.store.getSynapse x.entry.synapse).any fun r =>
          decide (x.UnderCeiling edgeNode 2000000 r ∧ x.MovesFar edgeNode 2000000 r)) = true := by
    decide +kernel
  obtain ⟨u, reported, facts⟩ := (Option.any_eq_true _ _).mp facts
  obtain ⟨x, settled, iff⟩ := reported_update_iff (NodeSettings.validate_forClass .edge)
    (acknowledgedSending_run (.forClass .edge)) (acknowledgement_mem (.forClass .edge))
    (Moment.reply_of_reported reported)
  change (acknowledgement (.forClass .edge)).settlements edgeNode = [x] at settled
  rw [settled, List.all_cons, List.all_nil, Bool.and_true] at facts
  obtain ⟨r, found, condition⟩ := (Option.any_eq_true _ _).mp facts
  obtain ⟨uncut, far⟩ := of_decide_eq_true condition
  exact ⟨u, x, r, settled, found, (iff r found).mpr ⟨uncut, Or.inr far⟩⟩

/-- The weight stays at the ceiling, and the report is of a twentieth more. -/
theorem low_ceiling_misreports :
    ¬ ∀ (settings : NodeSettings ℚ) (identity : NodeId) (ms : List (Moment ℚ)) (s : NodeState ℚ),
      settings.validate ["classical-v1"] = .ok () →
      NodeRun ⟨identity, settings.toNodeConfig⟩ ms s → ∀ m ∈ ms, ∀ u,
      m.reply = .ok (.update (some u)) →
      ∃ x, m.settlements ⟨identity, settings.toNodeConfig⟩ = [x] ∧
        ∀ r, m.before.store.getSynapse x.entry.synapse = some r →
          m.Reports ⟨identity, settings.toNodeConfig⟩ x r u := by
  intro always
  have facts : (acknowledgement lowCeiling).reported.any (fun u =>
      ((acknowledgement lowCeiling).settlements ⟨⟨[0]⟩, lowCeiling.toNodeConfig⟩).all fun x =>
        ((acknowledgement lowCeiling).before.store.getSynapse x.entry.synapse).isSome &&
        decide (u.after = 3 / 20 ∧ ((x.weighed ⟨⟨[0]⟩, lowCeiling.toNodeConfig⟩ 2000000).getSynapse
          x.entry.synapse).map SynapseRecord.weight = some (1 / 10))) = true := by
    decide +kernel
  obtain ⟨u, reported, facts⟩ := (Option.any_eq_true _ _).mp facts
  obtain ⟨x, settled, reports⟩ := always lowCeiling ⟨[0]⟩ _ _ lowCeiling_checked
    (acknowledgedSending_run lowCeiling) _ (acknowledgement_mem lowCeiling) u
    (Moment.reply_of_reported reported)
  rw [settled, List.all_cons, List.all_nil, Bool.and_true, Bool.and_eq_true] at facts
  obtain ⟨r, found⟩ := Option.isSome_iff_exists.mp facts.1
  obtain ⟨after, stored⟩ := of_decide_eq_true facts.2
  obtain ⟨-, r', written, same, -⟩ := reports r found
  have clock : (acknowledgement lowCeiling).before.clock = 2000000 := rfl
  rw [clock] at written
  rw [written, Option.map_some, ← same, after] at stored
  revert stored
  decide +kernel

end OpenNtl
