import OpenNtl.WeightFloor

/-! # Which factor attenuates a signal

Each synapse has an attenuation factor, which is stored with it. Both sending loops use the one of
the node's propagation settings instead. Exact arithmetic.
-/
namespace OpenNtl

open ExactScalar

/-- What each further element of a list keeps or breaks, all its initial segments do. -/
theorem forall_prefix_iff {α : Type} {A : List α → Prop} {Step : List α → α → Prop} (start : A [])
    (step : ∀ p a, A p → (A (p ++ [a]) ↔ Step p a)) (path : List α) :
    (∀ p, p <+: path → A p) ↔ ∀ p a, p ++ [a] <+: path → Step p a := by
  constructor
  · intro all p a within
    exact (step p a (all p ((List.prefix_append p [a]).trans within))).mp (all _ within)
  · intro steps p
    induction p using List.reverseRecOn with
    | nil => exact fun _ => start
    | append_singleton p a ih =>
      intro within
      exact (step p a (ih ((List.prefix_append p [a]).trans within))).mpr (steps p a within)

variable {ι F : Type}

/-- One hop of a path: a node sends to another over a synapse that it has to it. -/
structure Hop (ι F : Type) where
  sender : ι
  target : ι
  synapse : SynapseRecord F

def Hop.link (h : Hop ι F) : ι × ι := (h.sender, h.target)

def Joins : ι → List (ι × ι) → ι → Prop
  | i, [], j => i = j
  | i, (a, b) :: rest, j => i = a ∧ Joins b rest j

theorem joins_concat {i j k : ι} {links : List (ι × ι)} (joins : Joins i links j) :
    Joins i (links ++ [(j, k)]) k := by
  induction links generalizing i with
  | nil =>
    obtain rfl : i = j := joins
    exact ⟨rfl, rfl⟩
  | cons link rest ih => exact ⟨joins.1, ih joins.2⟩

variable [Scalar F]

namespace Network

variable (net : Network ι F)

/-- A signal sent over a link, as the target takes it from the wire. -/
def across (s : Signal F) (link : ι × ι) : Signal F :=
  net.arriving link.2 ((net link.1).outbound s)

def travel (links : List (ι × ι)) (s : Signal F) : Signal F := links.foldl net.across s

/-- The weight that is due after a hop, by the factor of its synapse. -/
def dueAfter (s : Signal F) (w : F) (h : Hop ι F) : F :=
  if s.requiresReceipt ∧ 1 < s.ttl then
    max (w * h.synapse.attenuationFactor) (net h.sender).node.config.propagation.minPropagationWeight
  else w * h.synapse.attenuationFactor

def due (path : List (Hop ι F)) (s : Signal F) : F :=
  (path.foldl (fun x h => (net.across x.1 h.link, net.dueAfter x.1 x.2 h)) (s, s.weight)).2

theorem travel_concat (links : List (ι × ι)) (link : ι × ι) (s : Signal F) :
    net.travel (links ++ [link]) s = net.across (net.travel links s) link := by
  unfold travel
  rw [List.foldl_append]
  rfl

theorem due_concat (p : List (Hop ι F)) (h : Hop ι F) (s : Signal F) :
    net.due (p ++ [h]) s = net.dueAfter (net.travel (p.map Hop.link) s) (net.due p s) h := by
  have travelled : ∀ (p : List (Hop ι F)) (s : Signal F) (w : F),
      (p.foldl (fun x h => (net.across x.1 h.link, net.dueAfter x.1 x.2 h)) (s, w)).1 =
        net.travel (p.map Hop.link) s := by
    intro p
    induction p with
    | nil => exact fun _ _ => rfl
    | cons h p ih => exact fun s w => ih _ _
  unfold due
  rw [List.foldl_append, ← travelled p s s.weight]
  rfl

variable {net}

def Travelled (net : Network ι F) (origin : ι) (s₀ : Signal F) : Copy ι F → Prop
  | .frame i _ s => ∃ links, Joins origin links i ∧ s = (net i).outbound (net.travel links s₀)
  | .hand i s | .body i s => ∃ links, Joins origin links i ∧ s = net.travel links s₀
  | .duty _ _ => True

theorem Lineage.travelled {origin : ι} {s₀ : Signal F} {senders : List ι} {c : Copy ι F}
    (lineage : net.Lineage origin s₀ senders c) : net.Travelled origin s₀ c := by
  induction lineage with
  | emitted => exact ⟨[], rfl, rfl⟩
  | accepted _ _ ih => exact ih
  | forwarded _ _ _ ih =>
    obtain ⟨links, joins, rfl⟩ := ih
    exact ⟨links, joins, rfl⟩
  | @crossed senders i j s _ ih =>
    obtain ⟨links, joins, rfl⟩ := ih
    refine ⟨links ++ [(i, j)], joins_concat joins, ?_⟩
    rw [travel_concat]
    rfl

theorem max_eq_max_right_iff {x y m : ℝ} : max x m = max y m ↔ x = y ∨ (x ≤ m ∧ y ≤ m) := by
  constructor
  · intro same
    rcases le_total x m with low | high
    · rw [max_eq_right low] at same
      exact Or.inr ⟨low, max_eq_right_iff.mp same.symm⟩
    · rw [max_eq_left high] at same
      rcases le_total y m with low | high'
      · rw [max_eq_right low] at same
        exact Or.inr ⟨same.le, low⟩
      · rw [max_eq_left high'] at same
        exact Or.inl same
  · rintro (rfl | ⟨low, low'⟩)
    · rfl
    · rw [max_eq_right low, max_eq_right low']

section Exact

variable [ExactScalar F]

/-- A checked configuration's propagation settings, over the reals. -/
structure PropagationSound (c : PropagationConfig F) : Prop where
  factor : 0 ≤ toReal c.attenuationFactor ∧ toReal c.attenuationFactor ≤ 1
  floor : 0 ≤ toReal c.minPropagationWeight ∧ toReal c.minPropagationWeight < 1

theorem PropagationSound.of_validate {settings : NodeSettings F} {supportedModules : List String}
    (valid : settings.validate supportedModules = .ok ()) : PropagationSound settings.propagation := by
  have checked := ((settings.validate_iff supportedModules).mp valid).propagation
  unfold PropagationConfig.validate at checked
  split_ifs at checked with fanout ttl floor factor
  constructor
  · rw [← toReal_zero (F := F), ← toReal_one (F := F), toReal_le, toReal_le]
    exact factor
  · rw [← toReal_zero (F := F), ← toReal_one (F := F), toReal_le, toReal_lt]
    exact floor

def InUnit (w : F) : Prop := 0 ≤ toReal w ∧ toReal w ≤ 1

theorem inUnit_iff {w : F} : InUnit w ↔ 0 ≤ w ∧ w ≤ 1 := by
  have le : ∀ {a b : F}, a ≤ b ↔ toReal a ≤ toReal b := toReal_le.symm
  rw [le, le, toReal_zero, toReal_one]
  rfl

theorem arriving_weight (j : ι) {s : Signal F} (unit : InUnit s.weight) :
    (net.arriving j s).weight = s.weight := by
  unfold arriving clampInboundHeaders
  dsimp only
  rw [if_neg]
  rw [decide_eq_true_eq]
  rintro (low | high)
  · have low' := toReal_lt.mpr low
    rw [toReal_zero] at low'
    exact not_lt.mpr unit.1 low'
  · have high' := toReal_lt.mpr high
    rw [toReal_one] at high'
    exact not_lt.mpr unit.2 high'

theorem across_weight (sound : ∀ i, PropagationSound (net i).node.config.propagation)
    {s : Signal F} (unit : InUnit s.weight) (link : ι × ι) :
    InUnit (net.across s link).weight ∧ toReal (net.across s link).weight =
      if s.requiresReceipt ∧ 1 < s.ttl then
        max (toReal s.weight * toReal (net link.1).node.config.propagation.attenuationFactor)
          (toReal (net link.1).node.config.propagation.minPropagationWeight)
      else toReal s.weight * toReal (net link.1).node.config.propagation.attenuationFactor := by
  obtain ⟨⟨nonneg, le_one⟩, floor, under⟩ := sound link.1
  have low : 0 ≤ toReal s.weight *
      toReal (net link.1).node.config.propagation.attenuationFactor := mul_nonneg unit.1 nonneg
  have high : toReal s.weight *
      toReal (net link.1).node.config.propagation.attenuationFactor ≤ 1 :=
    mul_le_one₀ unit.2 nonneg le_one
  have sent : toReal ((net link.1).outbound s).weight =
      if s.requiresReceipt ∧ 1 < s.ttl then
        max (toReal s.weight * toReal (net link.1).node.config.propagation.attenuationFactor)
          (toReal (net link.1).node.config.propagation.minPropagationWeight)
      else toReal s.weight * toReal (net link.1).node.config.propagation.attenuationFactor := by
    have left : (s.hop (net link.1).identity.nodeId).requiresReceipt = true ∧
        0 < (s.hop (net link.1).identity.nodeId).ttl ↔ s.requiresReceipt = true ∧ 1 < s.ttl :=
      and_congr_right fun _ => Nat.sub_pos_iff_lt
    have same : (s.hop (net link.1).identity.nodeId).weight = s.weight := rfl
    unfold Runtime.outbound Signal.attenuateForHop
    dsimp only
    rw [toReal_clamp zero_le_one_exact, toReal_zero, toReal_one, same]
    by_cases floored : s.requiresReceipt = true ∧ 1 < s.ttl
    · rw [if_pos (left.mpr floored), if_pos floored, toReal_max, toReal_mul,
        min_eq_right (max_le high under.le), max_eq_right (le_max_of_le_left low)]
    · rw [if_neg fun h => floored (left.mp h), if_neg floored, toReal_mul, min_eq_right high,
        max_eq_right low]
  have unit' : InUnit ((net link.1).outbound s).weight := by
    unfold InUnit
    rw [sent]
    split_ifs
    · exact ⟨le_max_of_le_left low, max_le high under.le⟩
    · exact ⟨low, high⟩
  unfold across
  rw [arriving_weight link.2 unit']
  exact ⟨unit', sent⟩

theorem travel_inUnit (sound : ∀ i, PropagationSound (net i).node.config.propagation)
    (links : List (ι × ι)) {s : Signal F} (unit : InUnit s.weight) :
    InUnit (net.travel links s).weight := by
  induction links generalizing s with
  | nil => exact unit
  | cons link rest ih => exact ih (across_weight sound unit link).1

end Exact

variable (net)

/-- The weight is the one due, at the end of the path and of each of its initial segments. -/
def WeightsDue (path : List (Hop ι F)) (s : Signal F) : Prop :=
  ∀ p, p <+: path → (net.travel (p.map Hop.link) s).weight = net.due p s

/-- After these hops the next one attenuates as its synapse would: the factor is the same, or the
weight due is nothing anyway, or the floor takes its place under either factor. -/
def HopAgrees (s : Signal F) (p : List (Hop ι F)) (h : Hop ι F) : Prop :=
  let c := (net h.sender).node.config.propagation
  let w := net.due p s
  let s' := net.travel (p.map Hop.link) s
  c.attenuationFactor = h.synapse.attenuationFactor ∨ w = 0 ∨
    (s'.requiresReceipt = true ∧ 1 < s'.ttl ∧ w * c.attenuationFactor ≤ c.minPropagationWeight ∧
      w * h.synapse.attenuationFactor ≤ c.minPropagationWeight)

variable {net}

theorem hop_due_iff [ExactScalar F]
    (sound : ∀ i, PropagationSound (net i).node.config.propagation) {s : Signal F}
    (unit : InUnit s.weight) (p : List (Hop ι F)) (h : Hop ι F)
    (before : (net.travel (p.map Hop.link) s).weight = net.due p s) :
    (net.travel ((p ++ [h]).map Hop.link) s).weight = net.due (p ++ [h]) s ↔
      net.HopAgrees s p h := by
  have links : (p ++ [h]).map Hop.link = p.map Hop.link ++ [h.link] := List.map_append
  have here := travel_inUnit sound (p.map Hop.link) unit
  obtain ⟨-, sent⟩ := across_weight sound here h.link
  rw [links, travel_concat, due_concat, ← toReal_injective.eq_iff, sent]
  unfold HopAgrees dueAfter
  rw [← before]
  generalize net.travel (p.map Hop.link) s = s' at here ⊢
  have le : ∀ {a b : F}, a ≤ b ↔ toReal a ≤ toReal b := toReal_le.symm
  have eq : ∀ {a b : F}, a = b ↔ toReal a = toReal b := toReal_injective.eq_iff.symm
  have product : toReal s'.weight *
        toReal (net h.sender).node.config.propagation.attenuationFactor =
      toReal s'.weight * toReal h.synapse.attenuationFactor ↔
      (net h.sender).node.config.propagation.attenuationFactor = h.synapse.attenuationFactor ∨
        s'.weight = 0 := by
    rw [mul_eq_mul_left_iff, eq, eq, toReal_zero]
  dsimp only [Hop.link]
  by_cases floored : s'.requiresReceipt = true ∧ 1 < s'.ttl
  · rw [if_pos floored, if_pos floored, toReal_max, toReal_mul, max_eq_max_right_iff, product,
      or_assoc, le, le, toReal_mul, toReal_mul]
    simp only [floored.1, floored.2, true_and]
  · rw [if_neg floored, if_neg floored, toReal_mul, product]
    refine or_congr_right (or_iff_left ?_).symm
    exact fun both => floored ⟨both.1, both.2.1⟩

/-- On every path over checked nodes the weights are those of the synapses' factors exactly when
each hop agrees. -/
theorem weightsDue_iff [ExactScalar F]
    (sound : ∀ i, PropagationSound (net i).node.config.propagation) {s : Signal F}
    (unit : InUnit s.weight) (path : List (Hop ι F)) :
    net.WeightsDue path s ↔ ∀ p h, p ++ [h] <+: path → net.HopAgrees s p h :=
  forall_prefix_iff (A := fun p => (net.travel (p.map Hop.link) s).weight = net.due p s) rfl
    (hop_due_iff sound unit) path

/-- What is relayed has travelled from its emission, and how its weight compares with the one due. -/
structure Attenuates (net : Network ι F) (w : NetState ι F) : Prop where
  travelled : ∀ x ∈ w.crossings, x.frame.signalType ≠ .receipt → ∃ e ∈ w.emissions, ∃ links,
    Joins e.1 links x.target ∧ net.arriving x.target x.frame = net.travel links e.2
  weights : ∀ s : Signal F, 0 ≤ s.weight → s.weight ≤ 1 → ∀ path,
    net.WeightsDue path s ↔ ∀ p h, p ++ [h] <+: path → net.HopAgrees s p h

/-- In every run of checked nodes, whatever synapses lie along the paths of the signals. -/
theorem attenuates_iff [DecidableEq ι] [ExactScalar F] {supportedModules : List String}
    (valid : ∀ i, ∃ settings : NodeSettings F, settings.validate supportedModules = .ok () ∧
      (net i).node.config = settings.toNodeConfig) {P₀ P : NetPool ι F} (start : Deployed P₀)
    (run : net.Run P₀ P) : net.Attenuates P.state := by
  have sound : ∀ i, PropagationSound (net i).node.config.propagation := by
    intro i
    obtain ⟨settings, checked, same⟩ := valid i
    rw [same]
    exact .of_validate checked
  constructor
  · intro x crossed relayed
    obtain ⟨h, past⟩ := run.history start
    obtain ⟨e, emitted, senders, lineage⟩ := past.relayed crossed relayed
    exact ⟨e, emitted, lineage.crossed.travelled⟩
  · intro s nonneg le_one path
    exact weightsDue_iff sound (inUnit_iff.mpr ⟨nonneg, le_one⟩) path

/-- A one-hop path over the synapse that node `0` of the kite has to node `1`. -/
def firstHop : Hop (Fin 4) ℚ := ⟨⟨0, by decide⟩, ⟨1, by decide⟩, synapseTo (nameOf 1)⟩

theorem kite_attenuates : ∃ P : NetPool (Fin 4) ℚ, (edgeNetwork 4).Run (wired kite) P ∧
    P.state.crossings ≠ [] ∧ (edgeNetwork 4).Attenuates P.state := by
  obtain ⟨P, run, -, state⟩ := reaches_after kite kiteFlood kiteFlood_offered
  refine ⟨P, run, ?_, attenuates_iff (fun _ => ⟨patientEdge, patientEdge_checked, rfl⟩)
    (wired_deployed kite) run⟩
  rw [state]
  decide +kernel

/-- The synapse takes a tenth off, and the signal arrives with all its weight. -/
theorem first_hop_keeps_weight :
    ∃ P : NetPool (Fin 4) ℚ, (edgeNetwork 4).Run (wired kite) P ∧
      ∃ x ∈ P.state.crossings, ∃ e ∈ P.state.emissions, x.source = 0 ∧ x.target = 1 ∧
        x.frame.id = e.2.id ∧ e.2.weight = 1 ∧ x.frame.weight = 1 ∧
        ((P.state.nodes 0).node.store.synapseForPeer (nameOf 1)).map
          SynapseRecord.attenuationFactor = some firstHop.synapse.attenuationFactor ∧
        (edgeNetwork 4).due [firstHop] e.2 = 9 / 10 ∧
        ¬ (edgeNetwork 4).WeightsDue [firstHop] e.2 := by
  obtain ⟨P, run, -, state⟩ := reaches_after kite kiteFlood kiteFlood_offered
  have facts : (P.state.crossings.any fun x => P.state.emissions.any fun e => decide (
      x.source = 0 ∧ x.target = 1 ∧ x.frame.id = e.2.id ∧ e.2.weight = 1 ∧ x.frame.weight = 1 ∧
      ((P.state.nodes 0).node.store.synapseForPeer (nameOf 1)).map
        SynapseRecord.attenuationFactor = some firstHop.synapse.attenuationFactor ∧
      (edgeNetwork 4).due [firstHop] e.2 = 9 / 10 ∧
      ((edgeNetwork 4).travel [firstHop.link] e.2).weight = 1)) = true := by
    rw [state]
    decide +kernel
  obtain ⟨x, crossed, facts⟩ := List.any_eq_true.mp facts
  obtain ⟨e, emitted, facts⟩ := List.any_eq_true.mp facts
  obtain ⟨source, target, same, weight, arrives, factor, due, travels⟩ := of_decide_eq_true facts
  refine ⟨P, run, x, crossed, e, emitted, source, target, same, weight, arrives, factor, due, ?_⟩
  intro claim
  have whole := claim [firstHop] (List.prefix_refl _)
  rw [due] at whole
  have whole' : (1 : ℚ) = 9 / 10 := travels.symm.trans whole
  norm_num at whole'

end Network
end OpenNtl
