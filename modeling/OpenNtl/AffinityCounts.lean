import OpenNtl.Affinity
import OpenNtl.TableChange

/-! # Which successes are counted

The count of the first type delivered stops at one until another type is delivered. Exact
arithmetic.
-/
namespace OpenNtl

open ExactScalar

variable {F : Type} [Scalar F]

/-- The outcomes resolved for a synapse since it was formed, oldest first, by the affinity key of
their signals, and the record they left. -/
inductive Node.AffinityHistory (node : Node F) : List (String × Outcome) → SynapseRecord F → Prop
  | formed {r : SynapseRecord F} (fresh : r.typeAffinity = ∅) : AffinityHistory node [] r
  | resolved {xs : List (String × Outcome)} {r : SynapseRecord F} (entry : JournalEntry F)
      (o : Outcome) (nowNs : ℕ) (used : F) : AffinityHistory node xs r →
      AffinityHistory node (xs ++ [(signalTypeNameOf entry.signalType, o)])
        (node.reweighed entry o nowNs used r)
  /-- Normalisation, penalties and reconnecting leave the counts alone. -/
  | rewritten {xs : List (String × Outcome)} {r r' : SynapseRecord F} :
      AffinityHistory node xs r → r'.typeAffinity = r.typeAffinity → AffinityHistory node xs r'

def deliveries (xs : List (String × Outcome)) : List String :=
  (xs.filter fun x => x.2 = .delivered).map Prod.fst

def successes (xs : List (String × Outcome)) (t : String) : ℕ := xs.count (t, .delivered)

theorem count_deliveries (xs : List (String × Outcome)) (t : String) :
    (deliveries xs).count t = successes xs t := by
  induction xs with
  | nil => rfl
  | cons x xs ih =>
    obtain ⟨u, o⟩ := x
    unfold deliveries successes at ih ⊢
    by_cases delivery : o = .delivered
    · subst delivery
      by_cases same : u = t
      · simp [same, ih]
      · simp [same, ih]
    · simp [delivery, ih]

theorem deliveries_concat (xs : List (String × Outcome)) (t : String) (o : Outcome) :
    deliveries (xs ++ [(t, o)]) = deliveries xs ++ if o = .delivered then [t] else [] := by
  unfold deliveries
  by_cases delivery : o = .delivered
  · simp [delivery]
  · simp [delivery]

/-- The counts of a synapse are those of a list of types. -/
structure Tallies (s : Synapse F) (types : List String) : Prop where
  counts : ∀ t, s.typeAffinity.count t = types.count t
  total : s.typeAffinity.total = types.length

section Exact

variable [ExactDivision F] {learning : LearningConfig F} {s : Synapse F} {x : Resolution F}

omit [ExactDivision F] in
theorem Tallies.resolve {types : List String} (h : Tallies s types) :
    Tallies (s.resolve learning x)
      (types ++ if s.Counts learning x then [x.signalType] else []) := by
  constructor
  · intro t
    rw [Synapse.resolve_count, h.counts, List.count_append]
    by_cases counts : s.Counts learning x
    · rw [if_pos counts]
      by_cases own : t = x.signalType
      · rw [if_pos ⟨counts, own⟩, own, List.count_singleton_self]
      · have none : [x.signalType].count t = 0 := List.count_eq_zero_of_not_mem (by simpa using own)
        rw [if_neg fun both => own both.2, none]
    · rw [if_neg counts, if_neg fun both => counts both.1]
      rfl
  · rw [Synapse.resolve_total, h.total, List.length_append]
    by_cases counts : s.Counts learning x
    · rw [if_pos counts, if_pos counts]
      rfl
    · rw [if_neg counts, if_neg counts]
      rfl

theorem Tallies.counts_iff {types : List String} (checked : Checked learning)
    (h : Tallies s (dropRepeats types)) :
    s.Counts learning x ↔
      x.outcome = .delivered ∧ ¬ (types ≠ [] ∧ ∀ a ∈ types, a = x.signalType) := by
  rw [OpenNtl.counts_iff checked, h.counts, h.total]
  refine and_congr_right fun _ => ?_
  have whole : (dropRepeats types).count x.signalType = (dropRepeats types).length ↔
      ∀ a ∈ types, a = x.signalType := by
    rw [List.count_eq_length]
    simp only [mem_dropRepeats, eq_comm]
  have empty : (dropRepeats types).length = 0 ↔ types = [] := by
    rw [List.length_eq_zero_iff, List.eq_nil_iff_forall_not_mem, List.eq_nil_iff_forall_not_mem]
    simp only [mem_dropRepeats]
  have bound := List.count_le_length (l := dropRepeats types) (a := x.signalType)
  rw [← whole, Ne, ← empty]
  omega

theorem Node.AffinityHistory.tallies {node : Node F} (checked : Checked node.config.learning)
    {xs : List (String × Outcome)} {r : SynapseRecord F} (h : node.AffinityHistory xs r) :
    Tallies (Synapse.fromRecord r node.config.synapse) (dropRepeats (deliveries xs)) := by
  induction h with
  | @formed r fresh =>
    have none : (Synapse.fromRecord r node.config.synapse).typeAffinity = ∅ := fresh
    constructor
    · intro t
      rw [none]
      rfl
    · rw [none]
      rfl
  | @rewritten xs r r' _ same ih =>
    have same' : (Synapse.fromRecord r' node.config.synapse).typeAffinity =
        (Synapse.fromRecord r node.config.synapse).typeAffinity := same
    constructor
    · intro t
      rw [same']
      exact ih.counts t
    · rw [same']
      exact ih.total
  | @resolved xs r entry o nowNs used _ ih =>
    let x : Resolution F :=
      ⟨o, Scalar.clamp entry.signalWeight 0 1, signalTypeNameOf entry.signalType, used⟩
    have counted := ih.counts_iff checked (x := x)
    have types : dropRepeats (deliveries (xs ++ [(x.signalType, o)])) =
        dropRepeats (deliveries xs) ++
          if (Synapse.fromRecord r node.config.synapse).Counts node.config.learning x then
            [x.signalType] else [] := by
      rw [deliveries_concat]
      by_cases delivery : o = .delivered
      · rw [if_pos delivery, dropRepeats_concat]
        congr 1
        by_cases full : deliveries xs ≠ [] ∧ ∀ a ∈ deliveries xs, a = x.signalType
        · rw [if_pos full, if_neg fun counts => (counted.mp counts).2 full]
        · rw [if_neg full, if_pos (counted.mpr ⟨delivery, full⟩)]
      · rw [if_neg delivery, List.append_nil, if_neg fun counts => delivery (counted.mp counts).1,
          List.append_nil]
    have after : Tallies
        ((Synapse.fromRecord r node.config.synapse).resolve node.config.learning x) _ := ih.resolve
    rw [← types] at after
    exact ⟨after.counts, after.total⟩

end Exact

/-- The counts are success counts exactly when the first two deliveries are of different types. -/
theorem affinity_counts_iff [ExactDivision F] {node : Node F}
    (valid : node.config.learning.validate = .ok ()) {xs : List (String × Outcome)}
    {r : SynapseRecord F} (h : node.AffinityHistory xs r) :
    (∀ t, (r.typeAffinity.lookup t).getD 0 = successes xs t) ↔
      ∀ t rest, deliveries xs ≠ t :: t :: rest := by
  rw [← count_dropRepeats_eq_iff]
  refine forall_congr' fun t => ?_
  have counts : (r.typeAffinity.lookup t).getD 0 = _ :=
    (h.tallies (Checked.of_validate valid)).counts t
  rw [counts, count_deliveries]

theorem Became.affinityHistory {node : Node F} {m : Moment F} {id : SynapseId}
    {r r' : SynapseRecord F} (became : Became node m id r r')
    (h : ∃ xs, node.AffinityHistory xs r) : ∃ xs, node.AffinityHistory xs r' := by
  cases became with
  | same => exact h
  | reweighed rewritten =>
    induction rewritten with
    | refl => exact h
    | tail _ last ih =>
      obtain ⟨xs, history⟩ := ih
      cases last with
      | outcome entry used applied => exact ⟨_, history.resolved entry _ _ used⟩
      | rescale excess => exact ⟨xs, history.rewritten rfl⟩
  | penalized call =>
    obtain ⟨xs, history⟩ := h
    refine ⟨xs, history.rewritten ?_⟩
    rcases node.penalizedRecord_cases m.before.clock r with ⟨-, -, same⟩ | ⟨-, -, state, -, same⟩
    · rw [same]
    · rw [same]
  | reactivated call found dormant =>
    obtain ⟨xs, history⟩ := h
    exact ⟨xs, history.rewritten rfl⟩
  | reformed call found pruned served =>
    obtain ⟨xs, history⟩ := h
    exact ⟨xs, history.rewritten rfl⟩

theorem NodeRun.affinityHistory {node : Node F} {ms : List (Moment F)} {s : NodeState F}
    (run : NodeRun node ms s) : Stored (fun r => ∃ xs, node.AffinityHistory xs r) s.store := by
  have both := run.tableInvariant (I := Stored fun r => ∃ xs, node.AffinityHistory xs r) Stored.new
    fun m change filed h id r' found' => by
      rcases change.was filed found' with ⟨r, found, became⟩ | ⟨peer, -, rfl⟩
      · exact became.affinityHistory (h id r found)
      · exact ⟨[], .formed rfl⟩
  exact both.1.2

section Sample

def queryDecision : JournalEntry ℚ where
  id := none
  signal := ⟨7⟩
  signalType := .query
  synapse := ⟨"s"⟩
  peer := neighbour
  score := 1
  signalWeight := 1
  explored := false
  decidedAtNs := 0
  outcome := .pending
  resolvedAtNs := none

def formedToNeighbour : SynapseRecord ℚ := edgeNode.formedRecord neighbour 0 .maximal

def twiceDelivered : SynapseRecord ℚ :=
  edgeNode.reweighed queryDecision .delivered 2 0
    (edgeNode.reweighed queryDecision .delivered 1 0 formedToNeighbour)

theorem twice_delivered_history : edgeNode.AffinityHistory
    [("Query", .delivered), ("Query", .delivered)] twiceDelivered :=
  ((Node.AffinityHistory.formed rfl).resolved queryDecision .delivered 1 0).resolved
    queryDecision .delivered 2 0

/-- Two delivered queries count as one. -/
theorem second_success_uncounted :
    edgeNode.AffinityHistory [("Query", .delivered), ("Query", .delivered)] twiceDelivered ∧
      (twiceDelivered.typeAffinity.lookup "Query").getD 0 = 1 ∧
      successes [("Query", .delivered), ("Query", .delivered)] "Query" = 2 :=
  ⟨twice_delivered_history, by decide +kernel, by decide⟩

def queryThenEvent : SynapseRecord ℚ :=
  edgeNode.reweighed { queryDecision with signalType := .event } .delivered 2 0
    (edgeNode.reweighed queryDecision .delivered 1 0 formedToNeighbour)

theorem query_then_event_history : edgeNode.AffinityHistory
    [("Query", .delivered), ("Event", .delivered)] queryThenEvent :=
  ((Node.AffinityHistory.formed rfl).resolved queryDecision .delivered 1 0).resolved
    { queryDecision with signalType := .event } .delivered 2 0

/-- A delivered query and then a delivered event are both counted, and nothing else is. -/
theorem query_then_event_counted :
    successes [("Query", .delivered), ("Event", .delivered)] "Event" = 1 ∧
    ∀ t, (queryThenEvent.typeAffinity.lookup t).getD 0 =
      successes [("Query", .delivered), ("Event", .delivered)] t := by
  refine ⟨by decide, (affinity_counts_iff edgeNode_checked query_then_event_history).mpr ?_⟩
  rintro t rest repeated
  have first : t = "Query" := ((List.cons.inj repeated).1).symm
  have second : t = "Event" := ((List.cons.inj (List.cons.inj repeated).2).1).symm
  rw [first] at second
  exact absurd second (by decide)

end Sample
end OpenNtl
