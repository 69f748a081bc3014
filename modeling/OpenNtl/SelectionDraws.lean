import OpenNtl.Selection
import OpenNtl.WithoutReplacement

/-! # Selection over any source

`select_synapses` as a program that draws from a source. It fails no check, and where it returns,
what it returns is sound. -/
namespace OpenNtl

open StreamReader Drawing

variable {F : Type} [Scalar F]

namespace Drawing

def chosenOf (eligible : List (Synapse F)) (sels : List (Selection F)) : Drawing (List (Chosen F)) :=
  sels.mapM fun sel => do
    return { synapse := ← readAt eligible sel.index, score := sel.score, explored := sel.explored }

def selectSynapses (synapses : List (Synapse F)) (scope : PropagationScope F) (signalType : String)
    (arrivalSynapse : Option SynapseId) (config : PropagationConfig F)
    (learning : LearningConfig F) (nowNs : ℕ) : Drawing (List (Chosen F)) :=
  let eligible := synapses.filter (isEligible scope arrivalSynapse)
  let score (s : Synapse F) := scoreSynapse s signalType nowNs config.scoring
  let sampled (k : ℕ) : Drawing (List (Chosen F)) := do
    chosenOf eligible (← samplePaths (eligible.map score) k config.exploration learning)
  if eligible.isEmpty then return []
  else
    match scope with
    | .targeted destination =>
      match eligible.find? fun s => s.remoteNode = destination with
      | some direct => return [{ synapse := direct, score := score direct, explored := false }]
      | none => sampled 1
    | .flood _ =>
      return sortBy (fun a b => Scalar.partialCmp b.score a.score)
        (eligible.map fun s => { synapse := s, score := score s, explored := false })
    | .weighted _ | .gradient _ => sampled config.maxFanout

omit [Scalar F] in
theorem chosenOf_eq {eligible : List (Synapse F)} {sels : List (Selection F)}
    (inRange : ∀ sel ∈ sels, sel.index < eligible.length) :
    chosenOf eligible sels = pure (choicesOf eligible sels) := by
  induction sels with
  | nil => rfl
  | cons sel sels ih =>
    have inside := inRange sel List.mem_cons_self
    have rest := ih fun s hs => inRange s (List.mem_cons_of_mem sel hs)
    unfold chosenOf choicesOf at rest ⊢
    rw [List.mapM_cons, rest, readAt, List.filterMap_cons, List.getElem?_eq_getElem inside]
    rfl

section

variable (synapses : List (Synapse F)) (scope : PropagationScope F) (signalType : String)
  (arrival : Option SynapseId) (config : PropagationConfig F) (learning : LearningConfig F)
  (nowNs : ℕ)

theorem sampled_follows (eligible : List (Synapse F)) (score : Synapse F → F) (k : ℕ) :
    Follows (do chosenOf eligible (← samplePaths (eligible.map score) k config.exploration learning))
      (fun r =>
        (choicesOf eligible
          (OpenNtl.samplePaths (eligible.map score) k config.exploration learning r).1,
        (OpenNtl.samplePaths (eligible.map score) k config.exploration learning r).2))
      eligible.length := by
  let choose (sels : List (Selection F)) (r : Rng) := (choicesOf eligible sels, r)
  have drawn := samplePaths_follows (eligible.map score) k config.exploration learning
  rw [List.length_map] at drawn
  apply drawn.bind (g := choose)
  rintro sels ⟨r, rfl⟩
  have inRange := (samplePaths_sampled (eligible.map score) k config.exploration learning r).inRange
  simp only [List.length_map] at inRange
  rw [chosenOf_eq inRange]
  exact follows_pure _ _

theorem selectSynapses_follows :
    Follows (selectSynapses synapses scope signalType arrival config learning nowNs)
      (OpenNtl.selectSynapses synapses scope signalType arrival config learning nowNs)
      (synapses.countP (isEligible scope arrival)) := by
  let score (s : Synapse F) := scoreSynapse s signalType nowNs config.scoring
  rw [List.countP_eq_length_filter]
  unfold selectSynapses OpenNtl.selectSynapses
  generalize synapses.filter (isEligible scope arrival) = eligible
  by_cases empty : eligible.isEmpty = true
  · simp only [if_pos empty]
    exact follows_pure [] _
  · simp only [if_neg empty]
    cases scope with
    | targeted destination =>
      cases found : eligible.find? fun s => s.remoteNode = destination with
      | some s =>
        simp only [found]
        exact follows_pure _ _
      | none =>
        simp only [found]
        exact sampled_follows config learning eligible score 1
    | flood hops => exact follows_pure _ _
    | weighted floor => exact sampled_follows config learning eligible score config.maxFanout
    | gradient kind => exact sampled_follows config learning eligible score config.maxFanout

end

end Drawing

section

variable (synapses : List (Synapse F)) (scope : PropagationScope F) (signalType : String)
  (arrival : Option SynapseId) (config : PropagationConfig F) (learning : LearningConfig F)
  (nowNs : ℕ)

/-- What selection promises of what it returns. -/
structure SelectionSound (out : List (Chosen F)) : Prop where
  places : TakenFrom synapses (fun s => scoreSynapse s signalType nowNs config.scoring) out
  carries : ∀ c ∈ out, c.synapse.state.canCarry = true
  onward : ∀ c ∈ out, arrival ≠ some c.synapse.id
  floor : ∀ floor, scope = .weighted floor → ∀ c ∈ out, floor ≤ c.synapse.weight
  sorted : out.Pairwise fun a b => b.score ≤ a.score
  flood : ∀ hops, scope = .flood hops →
    (out.map Chosen.synapse).Perm (synapses.filter (isEligible scope arrival))
  direct : ∀ destination, scope = .targeted destination →
    (∃ s ∈ synapses, isEligible scope arrival s = true ∧ s.remoteNode = destination) →
      ∃ c, out = [c] ∧ c.synapse.remoteNode = destination ∧ c.explored = false
  guess : ∀ destination, scope = .targeted destination → out.length ≤ 1
  fanned : (∃ floor, scope = .weighted floor) ∨ (∃ kind, scope = .gradient kind) →
    out.length = min config.maxFanout (synapses.countP (isEligible scope arrival))

def NeedsNoDraw : Prop :=
  (∃ hops, scope = .flood hops) ∨
    ∃ destination, scope = .targeted destination ∧
      ∃ s ∈ synapses, isEligible scope arrival s = true ∧ s.remoteNode = destination

def FiniteScores : Prop :=
  ∀ s ∈ synapses, Scalar.isFinite (scoreSynapse s signalType nowNs config.scoring) = true

variable {synapses scope signalType arrival config nowNs}

theorem selectSynapses_sound [FiniteOrder F] (finite : FiniteScores synapses signalType config nowNs)
    (rng : Rng) : SelectionSound synapses scope signalType arrival config nowNs
      (selectSynapses synapses scope signalType arrival config learning nowNs rng).1 := by
  have spec := selectSynapses_spec synapses scope signalType arrival config learning nowNs rng
  generalize selectSynapses synapses scope signalType arrival config learning nowNs rng = out
    at spec ⊢
  have eligible : ∀ c ∈ out.1, c.synapse.state.canCarry = true ∧ arrival ≠ some c.synapse.id ∧
      ∀ floor, scope = .weighted floor → floor ≤ c.synapse.weight := by
    intro c hc
    exact (isEligible_iff scope arrival _).mp (List.of_mem_filter (spec.taken.mem hc).1)
  constructor
  · exact spec.taken.sublist List.filter_sublist
  · intro c hc
    exact (eligible c hc).1
  · intro c hc
    exact (eligible c hc).2.1
  · intro floor weighted c hc
    exact (eligible c hc).2.2 floor weighted
  · exact spec.sorted FiniteOrder.ordered fun s hs => finite s (List.mem_of_mem_filter hs)
  · rintro hops rfl
    exact spec.all_of_flood
  · rintro destination rfl ⟨s, hs, carries, there⟩
    exact spec.direct_of_targeted (List.mem_filter.mpr ⟨hs, carries⟩) there
  · rintro destination rfl
    exact spec.length_of_targeted
  · rw [List.countP_eq_length_filter]
    exact spec.length_of_fanned

theorem selectSynapses_pure (none : NeedsNoDraw synapses scope arrival) :
    ∃ out, Drawing.selectSynapses synapses scope signalType arrival config learning nowNs =
        pure out ∧
      ∀ rng, selectSynapses synapses scope signalType arrival config learning nowNs rng =
        (out, rng) := by
  unfold Drawing.selectSynapses selectSynapses
  dsimp only
  by_cases empty : (synapses.filter (isEligible scope arrival)).isEmpty = true
  · exact ⟨[], if_pos empty, fun rng => if_pos empty⟩
  · simp only [if_neg empty]
    rcases none with ⟨hops, rfl⟩ | ⟨destination, rfl, s, hs, carries, there⟩
    · exact ⟨_, rfl, fun rng => rfl⟩
    · cases found : (synapses.filter (isEligible (.targeted destination) arrival)).find? fun s =>
          s.remoteNode = destination with
      | some direct =>
        simp only [found]
        exact ⟨_, rfl, fun rng => rfl⟩
      | none =>
        have missed := List.find?_eq_none.mp found s (List.mem_filter.mpr ⟨hs, carries⟩)
        simp [there] at missed

/-- Over any source selection makes no access out of range, and either it returns what is sound or it
is inside a draw whose rejection loop never ends. -/
theorem selection_sound [FiniteOrder F] (finite : FiniteScores synapses signalType config nowNs)
    (source : ℕ → Word) :
    let select := Drawing.selectSynapses synapses scope signalType arrival config learning nowNs
    let Sound := SelectionSound synapses scope signalType arrival config nowNs
    (∀ i, select.run (first i source) ≠ .error .panics) ∧
    (NeedsNoDraw synapses scope arrival → ∃ out, Returns select source 0 out ∧ Sound out) ∧
    ((∃ m out, Returns select source m out ∧ Sound out) ∨
      Rejects select source (synapses.countP (isEligible scope arrival))) := by
  have sound : ∀ rng, SelectionSound synapses scope signalType arrival config nowNs
      (selectSynapses synapses scope signalType arrival config learning nowNs rng).1 :=
    selectSynapses_sound learning finite
  have follows := selectSynapses_follows synapses scope signalType arrival config learning nowNs
    source
  refine ⟨?_, fun none => ?_, ?_⟩
  · rcases follows with ⟨m, out, returns, -⟩ | rejects
    · exact returns.safe
    · exact rejects.safe
  · obtain ⟨out, now, same⟩ := @selectSynapses_pure F _ synapses scope signalType arrival config
      learning nowNs none
    have kept := sound Rng.maximal
    rw [same] at kept
    rw [now]
    exact ⟨out, returns_pure out source, kept⟩
  · rcases follows with ⟨m, out, returns, value⟩ | rejects
    · have kept := sound (Rng.maximal.prepend (first m source))
      rw [value] at kept
      exact Or.inl ⟨m, out, returns, kept⟩
    · exact Or.inr rejects

end

/-! Four synapses, of which one is chosen. -/

section Sample

def rankedSynapse (place : ℕ) : Synapse ℚ where
  id := ⟨toString place⟩
  remoteNode := ⟨[UInt8.ofNat place]⟩
  weight := (4 - place) / 4
  state := .active
  establishedAtNs := 0
  lastActiveNs := 0
  signalsTransmitted := 0
  signalsReceived := 0
  avgLatencyNs := 0
  errorRate := 0
  maxWeight := 1
  activeThreshold := 1 / 10
  dormancyThreshold := 1 / 100
  attenuationFactor := 9 / 10
  signatureFailures := 0
  failureWindowStartNs := 0
  typeAffinity := ∅

def ranked : List (Synapse ℚ) := (List.range 4).map rankedSynapse

def oneChoice : PropagationConfig ℚ :=
  { PropagationConfig.default with
    maxFanout := 1
    scoring := ⟨4, 0, 0, 0⟩
    exploration := .epsilonGreedy (1 / 10) }

theorem ranked_finite : FiniteScores ranked "text" oneChoice 0 := fun _ _ => rfl

theorem largest_selects : ∃ m out,
    Returns (Drawing.selectSynapses ranked (.weighted (1 / 2)) "text" (some ⟨"0"⟩) oneChoice
      (.forClass .edge) 0) (fixedRng [BitVec.allOnes 64]) m out ∧
    SelectionSound ranked (.weighted (1 / 2)) "text" (some ⟨"0"⟩) oneChoice 0 out := by
  obtain ⟨-, -, returns | rejects⟩ := @selection_sound ℚ _ ranked (.weighted (1 / 2)) "text"
    (some ⟨"0"⟩) oneChoice (.forClass .edge) 0 _ ranked_finite (fixedRng [BitVec.allOnes 64])
  · exact returns
  · exact absurd rejects largest_never_rejects

/-- On a source of zeros selection never returns. -/
theorem zeros_select_nothing :
    ¬ ∀ (synapses : List (Synapse ℚ)) (scope : PropagationScope ℚ) (signalType : String)
      (arrival : Option SynapseId) (config : PropagationConfig ℚ) (learning : LearningConfig ℚ)
      (nowNs : ℕ) (source : ℕ → Word), FiniteScores synapses signalType config nowNs →
      ∃ m out, Returns (Drawing.selectSynapses synapses scope signalType arrival config learning
          nowNs) source m out ∧
        SelectionSound synapses scope signalType arrival config nowNs out := by
  intro always
  obtain ⟨m, out, returns, -⟩ := always ranked (.weighted 0) "text" none oneChoice (.forClass .edge)
    0 (fixedRng [0]) ranked_finite
  have eligible : ranked.filter (isEligible (.weighted 0) none) = ranked :=
    List.filter_eq_self.mpr (by decide +kernel)
  have scores : ranked.map (fun s => scoreSynapse s "text" 0 oneChoice.scoring) = [4, 3, 2, 1] := by
    decide +kernel
  have program : Drawing.selectSynapses ranked (.weighted 0) "text" none oneChoice (.forClass .edge)
      0 = Drawing.samplePaths [4, 3, 2, 1] 1 (.epsilonGreedy (1 / 10)) (.forClass .edge) >>=
        chosenOf ranked := by
    rw [Drawing.selectSynapses]
    dsimp only
    rw [eligible, scores]
    rfl
  obtain ⟨b, waiting⟩ := zeros_always_wait m
  have result := returns.result []
  rw [List.append_nil, program, run_bind_error waiting] at result
  cases result

end Sample

end OpenNtl
