import OpenNtl.Propagation
import OpenNtl.Sampling
import Mathlib.Data.List.NodupEquivFin

/-! # What selection returns -/
namespace OpenNtl

variable {F : Type}

/-- The choice is the synapse at a place of the list, with its own score. -/
def TakenAt (synapses : List (Synapse F)) (score : Synapse F → F) (c : Chosen F) (i : ℕ) : Prop :=
  synapses[i]? = some c.synapse ∧ c.score = score c.synapse

def TakenFrom (synapses : List (Synapse F)) (score : Synapse F → F) (chosen : List (Chosen F)) :
    Prop :=
  ∃ positions : List ℕ, positions.Nodup ∧
    List.Forall₂ (TakenAt synapses score) chosen positions

def choicesOf (eligible : List (Synapse F)) (sels : List (Selection F)) : List (Chosen F) :=
  sels.filterMap fun sel => eligible[sel.index]?.map fun s => ⟨s, sel.score, sel.explored⟩

namespace TakenFrom

variable {synapses : List (Synapse F)} {score : Synapse F → F} {chosen chosen' : List (Chosen F)}

theorem perm (taken : TakenFrom synapses score chosen) (same : chosen'.Perm chosen) :
    TakenFrom synapses score chosen' := by
  obtain ⟨positions, nodup, places⟩ := taken
  obtain ⟨positions', places', reordered⟩ := List.perm_comp_forall₂ same places
  exact ⟨positions', reordered.nodup_iff.mpr nodup, places'⟩

theorem sublist {synapses' : List (Synapse F)} (taken : TakenFrom synapses score chosen)
    (part : synapses.Sublist synapses') : TakenFrom synapses' score chosen := by
  obtain ⟨positions, nodup, places⟩ := taken
  obtain ⟨f, same⟩ := List.sublist_iff_exists_orderEmbedding_getElem?_eq.mp part
  refine ⟨positions.map f, nodup.map f.injective, List.forall₂_map_right_iff.mpr (places.imp ?_)⟩
  rintro c i ⟨here, scored⟩
  exact ⟨(same i).symm.trans here, scored⟩

theorem mem (taken : TakenFrom synapses score chosen) {c : Chosen F} (hc : c ∈ chosen) :
    c.synapse ∈ synapses ∧ c.score = score c.synapse := by
  obtain ⟨positions, -, places⟩ := taken
  induction places with
  | nil => cases hc
  | cons head _ ih =>
    rcases List.mem_cons.mp hc with rfl | hc
    · exact ⟨List.mem_of_getElem? head.1, head.2⟩
    · exact ih hc

theorem all (synapses : List (Synapse F)) (score : Synapse F → F) (explored : Bool) :
    TakenFrom synapses score (synapses.map fun s => ⟨s, score s, explored⟩) := by
  refine ⟨List.range synapses.length, List.nodup_range, ?_⟩
  refine List.forall₂_iff_get.mpr ⟨by simp, fun i hi hi' => ?_⟩
  simp only [List.length_map] at hi
  simp only [List.get_eq_getElem, List.getElem_map, List.getElem_range]
  exact ⟨List.getElem?_eq_getElem hi, rfl⟩

end TakenFrom

variable [Scalar F]

theorem choicesOf_takenAt {eligible : List (Synapse F)} {score : Synapse F → F}
    {sels : List (Selection F)}
    (inRange : ∀ sel ∈ sels, sel.index < (eligible.map score).length)
    (scored : ∀ sel ∈ sels, sel.score = (eligible.map score).getD sel.index 0) :
    List.Forall₂ (TakenAt eligible score) (choicesOf eligible sels)
      (sels.map Selection.index) := by
  induction sels with
  | nil => exact .nil
  | cons sel sels ih =>
    have inside : sel.index < eligible.length := by
      simpa using inRange sel List.mem_cons_self
    have value : sel.score = score eligible[sel.index] := by
      rw [scored sel List.mem_cons_self]
      simp [List.getD_eq_getElem?_getD, inside]
    unfold choicesOf
    rw [List.filterMap_cons, List.getElem?_eq_getElem inside]
    exact .cons ⟨List.getElem?_eq_getElem inside, value⟩
      (ih (fun s hs => inRange s (List.mem_cons_of_mem sel hs))
        fun s hs => scored s (List.mem_cons_of_mem sel hs))

theorem choicesOf_sampled {eligible : List (Synapse F)} {score : Synapse F → F} {count : ℕ}
    {sels : List (Selection F)} (drawn : SampledFrom (eligible.map score) count sels) :
    TakenFrom eligible score (choicesOf eligible sels) ∧
      (choicesOf eligible sels).length = count := by
  have taken := choicesOf_takenAt drawn.inRange drawn.scored
  refine ⟨⟨_, drawn.distinct, taken⟩, ?_⟩
  rw [taken.length_eq, List.length_map, drawn.count]

omit [Scalar F] in
theorem choicesOf_pairwise {eligible : List (Synapse F)} {R : F → F → Prop}
    {sels : List (Selection F)} (sorted : sels.Pairwise fun a b => R a.score b.score) :
    (choicesOf eligible sels).Pairwise fun a b => R a.score b.score := by
  refine List.Pairwise.filterMap _ ?_ sorted
  intro a b order c hc d hd
  obtain ⟨s, -, rfl⟩ := Option.map_eq_some_iff.mp hc
  obtain ⟨t, -, rfl⟩ := Option.map_eq_some_iff.mp hd
  exact order

/-- Everything selection can return for the synapses that are eligible. -/
inductive Selects (eligible : List (Synapse F)) (scope : PropagationScope F)
    (score : Synapse F → F) (config : PropagationConfig F) (learning : LearningConfig F)
    (rng : Rng) : List (Chosen F) × Rng → Prop
  | nobody (empty : eligible = []) : Selects eligible scope score config learning rng ([], rng)
  | direct {destination : NodeId} {s : Synapse F} (targeted : scope = .targeted destination)
      (found : (eligible.find? fun s => s.remoteNode = destination) = some s) :
      Selects eligible scope score config learning rng ([⟨s, score s, false⟩], rng)
  | flooded {hops : ℕ} (flood : scope = .flood hops) :
      Selects eligible scope score config learning rng
        (sortBy (fun a b => Scalar.partialCmp b.score a.score)
          (eligible.map fun s => ⟨s, score s, false⟩), rng)
  | sampled {k : ℕ} (nonempty : eligible ≠ [])
      (size : (∃ destination, scope = .targeted destination ∧
          (∀ s ∈ eligible, s.remoteNode ≠ destination) ∧ k = 1) ∨
        ((∃ floor, scope = .weighted floor) ∨ ∃ kind, scope = .gradient kind) ∧
          k = config.maxFanout) :
      Selects eligible scope score config learning rng
        (choicesOf eligible (samplePaths (eligible.map score) k config.exploration learning rng).1,
          (samplePaths (eligible.map score) k config.exploration learning rng).2)

namespace Selects

variable {eligible : List (Synapse F)} {scope : PropagationScope F} {score : Synapse F → F}
  {config : PropagationConfig F} {learning : LearningConfig F} {rng : Rng}
  {out : List (Chosen F) × Rng}

theorem taken (h : Selects eligible scope score config learning rng out) :
    TakenFrom eligible score out.1 := by
  cases h with
  | nobody empty => exact ⟨[], List.nodup_nil, .nil⟩
  | direct targeted found =>
    obtain ⟨i, here⟩ := List.mem_iff_getElem?.mp (List.mem_of_find?_eq_some found)
    exact ⟨[i], List.nodup_singleton i, .cons ⟨here, rfl⟩ .nil⟩
  | flooded flood => exact (TakenFrom.all eligible score false).perm (sortBy_perm _ _)
  | sampled nonempty size => exact (choicesOf_sampled (samplePaths_sampled _ _ _ _ _)).1

theorem sorted {P : F → Prop} (order : OrderedOn P) (each : ∀ s ∈ eligible, P (score s))
    (h : Selects eligible scope score config learning rng out) :
    out.1.Pairwise fun a b => b.score ≤ a.score := by
  cases h with
  | nobody empty => exact List.Pairwise.nil
  | direct targeted found => exact List.pairwise_singleton _ _
  | flooded flood =>
    refine order.sortBy_descending Chosen.score fun c hc => ?_
    obtain ⟨s, hs, rfl⟩ := List.mem_map.mp hc
    exact each s hs
  | sampled nonempty size =>
    have scored : ∀ i < (eligible.map score).length, P ((eligible.map score).getD i 0) := by
      intro i inside
      rw [List.length_map] at inside
      have here : (eligible.map score).getD i 0 = score eligible[i] := by
        simp [List.getD_eq_getElem?_getD, inside]
      rw [here]
      exact each _ (List.getElem_mem inside)
    exact choicesOf_pairwise (R := fun a b => b ≤ a) (order.samplePaths_sorted scored _ _ _ _)

theorem all_of_flood {hops : ℕ}
    (h : Selects eligible (.flood hops) score config learning rng out) :
    (out.1.map Chosen.synapse).Perm eligible := by
  cases h with
  | nobody empty => rw [empty, List.map_nil]
  | direct targeted found => cases targeted
  | flooded flood =>
    have each := (sortBy_perm (fun a b : Chosen F => Scalar.partialCmp b.score a.score)
      (eligible.map fun s => ⟨s, score s, false⟩)).map Chosen.synapse
    simpa [Function.comp_def] using each
  | sampled nonempty size =>
    rcases size with ⟨_, targeted, -⟩ | ⟨⟨_, weighted⟩ | ⟨_, gradient⟩, -⟩
    · cases targeted
    · cases weighted
    · cases gradient

theorem direct_of_targeted {destination : NodeId}
    (h : Selects eligible (.targeted destination) score config learning rng out) {s : Synapse F}
    (hs : s ∈ eligible) (there : s.remoteNode = destination) :
    ∃ c, out.1 = [c] ∧ c.synapse.remoteNode = destination ∧ c.explored = false := by
  cases h with
  | nobody empty =>
    rw [empty] at hs
    cases hs
  | direct targeted found =>
    cases targeted
    exact ⟨_, rfl, by simpa using List.find?_some found, rfl⟩
  | flooded flood => cases flood
  | sampled nonempty size =>
    rcases size with ⟨_, targeted, others, -⟩ | ⟨⟨_, weighted⟩ | ⟨_, gradient⟩, -⟩
    · cases targeted
      exact absurd there (others s hs)
    · cases weighted
    · cases gradient

theorem length_of_targeted {destination : NodeId}
    (h : Selects eligible (.targeted destination) score config learning rng out) :
    out.1.length ≤ 1 := by
  cases h with
  | nobody empty => exact Nat.zero_le _
  | direct targeted found => exact Nat.le_refl _
  | flooded flood => cases flood
  | sampled nonempty size =>
    rw [(choicesOf_sampled (samplePaths_sampled _ _ _ _ _)).2]
    rcases size with ⟨_, -, -, one⟩ | ⟨⟨_, weighted⟩ | ⟨_, gradient⟩, -⟩
    · omega
    · cases weighted
    · cases gradient

theorem length_of_fanned (h : Selects eligible scope score config learning rng out)
    (fanned : (∃ floor, scope = .weighted floor) ∨ ∃ kind, scope = .gradient kind) :
    out.1.length = min config.maxFanout eligible.length := by
  cases h with
  | nobody empty => simp [empty]
  | direct targeted found => simp [targeted] at fanned
  | flooded flood => simp [flood] at fanned
  | sampled nonempty size =>
    rw [(choicesOf_sampled (samplePaths_sampled _ _ _ _ _)).2, List.length_map]
    rcases size with ⟨destination, targeted, -⟩ | ⟨-, fanout⟩
    · simp [targeted] at fanned
    · rw [fanout]

end Selects

section

variable (synapses : List (Synapse F)) (scope : PropagationScope F) (signalType : String)
  (arrival : Option SynapseId) (config : PropagationConfig F) (learning : LearningConfig F)
  (nowNs : ℕ) (rng : Rng)

theorem selectSynapses_spec :
    Selects (synapses.filter (isEligible scope arrival)) scope
      (fun s => scoreSynapse s signalType nowNs config.scoring) config learning rng
      (selectSynapses synapses scope signalType arrival config learning nowNs rng) := by
  unfold selectSynapses
  generalize synapses.filter (isEligible scope arrival) = eligible
  by_cases empty : eligible.isEmpty = true
  · rw [if_pos empty]
    exact .nobody (List.isEmpty_iff.mp empty)
  · have nonempty : eligible ≠ [] := fun none => empty (List.isEmpty_iff.mpr none)
    rw [if_neg empty]
    cases scope with
    | targeted destination =>
      cases found : eligible.find? fun s => s.remoteNode = destination with
      | some s =>
        simp only [found]
        exact .direct rfl found
      | none =>
        simp only [found]
        refine .sampled nonempty (Or.inl ⟨destination, rfl, fun s hs => ?_, rfl⟩)
        simpa using List.find?_eq_none.mp found s hs
    | flood hops => exact .flooded rfl
    | weighted floor => exact .sampled nonempty (Or.inr ⟨Or.inl ⟨floor, rfl⟩, rfl⟩)
    | gradient kind => exact .sampled nonempty (Or.inr ⟨Or.inr ⟨kind, rfl⟩, rfl⟩)

theorem isEligible_iff (s : Synapse F) : isEligible scope arrival s = true ↔
    s.state.canCarry = true ∧ arrival ≠ some s.id ∧
      ∀ floor, scope = .weighted floor → floor ≤ s.weight := by
  unfold isEligible
  cases scope <;> simp [and_comm, and_assoc]

end

end OpenNtl
