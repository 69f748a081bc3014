import OpenNtl.HopBudget
import OpenNtl.WeightBounds

/-! # The weight floor of acknowledged signals

The sender floors the weight after it has taken a hop off, so what arrives with hops left is at
the floor or above, and what arrives without is refused for that.
-/
namespace OpenNtl

open AtomicProgram NodeM OrderedScalar SignedScalar

variable {ι F : Type} [Scalar F]

section Weights

variable [SignedScalar F] {s : Signal F} {factor least : F}

/-- An acknowledged signal with hops left is at the floor, and no signal is above one. -/
def Signal.AboveFloor (least : F) (s : Signal F) : Prop :=
  0 < s.ttl → least ≤ s.weight ∧ s.weight ≤ 1

theorem attenuateForHop_aboveFloor (acknowledged : s.requiresReceipt = true) (under : least ≤ 1) :
    (s.attenuateForHop factor least).AboveFloor least := by
  intro left
  unfold Signal.attenuateForHop
  dsimp only
  rw [if_pos ⟨acknowledged, left⟩]
  exact ⟨le_clamp_of_le (le_max_right _ _) under, clamp_le zero_le_one⟩

theorem clampInboundHeaders_aboveFloor {config : PropagationConfig F} (under : least ≤ 1)
    (above : s.AboveFloor least) : (clampInboundHeaders s config).2.AboveFloor least := by
  intro left
  unfold clampInboundHeaders at left ⊢
  dsimp only at left ⊢
  have before : 0 < s.ttl := by
    split at left
    · rename_i more
      exact Nat.zero_lt_of_lt (of_decide_eq_true more)
    · exact left
  obtain ⟨floor, ceiling⟩ := above before
  split
  · exact ⟨le_clamp_of_le floor under, clamp_le zero_le_one⟩
  · exact ⟨floor, ceiling⟩

omit [SignedScalar F] in
theorem checkPropagable_belowThreshold_iff {localNode : NodeId} {config : PropagationConfig F} :
    checkPropagable s localNode config = .error .belowThreshold ↔
      s.ttl ≠ 0 ∧ s.hasVisited localNode = false ∧ s.weight < config.minPropagationWeight := by
  unfold checkPropagable
  split_ifs with spent visited weak
  · exact iff_of_false (by simp) fun low => low.1 spent
  · exact iff_of_false (by simp) fun low => by simp [low.2.1] at visited
  · exact iff_of_true rfl ⟨spent, by simpa using visited, weak⟩
  · exact iff_of_false (by simp) fun low => weak low.2.2

end Weights

namespace Network

variable {net : Network ι F} [DecidableEq ι]

omit [DecidableEq ι] in
/-- Every copy of an acknowledged signal on its way through nodes that share a configuration. -/
theorem Lineage.aboveFloor [SignedScalar F] {config : PropagationConfig F} {origin : ι}
    {s₀ : Signal F} {senders : List ι} {c : Copy ι F} (lineage : net.Lineage origin s₀ senders c)
    (shared : ∀ k ∈ c.node :: senders, (net k).node.config.propagation = config)
    (under : config.minPropagationWeight ≤ 1) (acknowledged : s₀.requiresReceipt = true)
    (start : s₀.AboveFloor config.minPropagationWeight) :
    c.Carries (Signal.AboveFloor config.minPropagationWeight) := by
  let P (s : Signal F) : Prop :=
    s.requiresReceipt = true ∧ s.AboveFloor config.minPropagationWeight
  have both : c.Meets P P := by
    refine lineage.meets (R := fun k => (net k).node.config.propagation = config)
      (P := fun _ => P) (Q := fun _ => P) ⟨acknowledged, start⟩ ?_ ?_ shared
    · intro senders i s same accepts onward before
      refine ⟨before.1, ?_⟩
      unfold Runtime.outbound
      rw [same]
      exact attenuateForHop_aboveFloor before.1 under
    · intro senders j s same before
      exact ⟨before.1, clampInboundHeaders_aboveFloor under before.2⟩
  cases c with
  | frame => exact both.2
  | hand => exact both.2
  | body => exact both.2
  | duty => trivial

/-- Acknowledged signals keep to the floor on every path whose nodes share this configuration. -/
structure FloorHeld (net : Network ι F) (config : PropagationConfig F) (w : NetState ι F) :
    Prop where
  /-- What is relayed over a link is a copy on a path from its emission. -/
  traced : ∀ x ∈ w.crossings, x.frame.signalType ≠ .receipt → ∃ e ∈ w.emissions, ∃ senders,
    net.Lineage e.1 e.2 senders (.hand x.target (net.arriving x.target x.frame))
  /-- In transit and at every node the weight is within bounds while hops are left. -/
  weights : ∀ e ∈ w.emissions, e.2.requiresReceipt = true → 0 ≤ e.2.weight → e.2.weight ≤ 1 →
    net.Accepts e.1 e.2 → ∀ senders c, net.Lineage e.1 e.2 senders c →
    (∀ k ∈ c.node :: senders, (net k).node.config.propagation = config) →
      c.Carries (Signal.AboveFloor config.minPropagationWeight)
  /-- No node refuses the signal for its weight. -/
  refused : ∀ e ∈ w.emissions, e.2.requiresReceipt = true → 0 ≤ e.2.weight → e.2.weight ≤ 1 →
    net.Accepts e.1 e.2 → ∀ senders j s, net.Lineage e.1 e.2 senders (.hand j s) →
    (∀ k ∈ j :: senders, (net k).node.config.propagation = config) →
      ∀ arrival st d st', ((net j).node.receive s arrival).run st = (.ok d, st') →
        d.rejected ≠ some .belowThreshold

omit [DecidableEq ι] in
theorem Lineage.origin_mem {origin : ι} {s₀ : Signal F} {senders : List ι} {c : Copy ι F}
    (lineage : net.Lineage origin s₀ senders c) : origin ∈ c.node :: senders := by
  induction lineage with
  | emitted => exact List.mem_cons_self
  | accepted _ _ ih => exact ih
  | forwarded _ _ _ ih => exact List.mem_cons_of_mem _ ih
  | @crossed senders i j s before ih =>
    have sender : i ∈ senders := by
      cases before
      exact List.mem_cons_self
    rcases List.mem_cons.mp ih with rfl | earlier
    · exact List.mem_cons_of_mem _ sender
    · exact List.mem_cons_of_mem _ earlier

omit [DecidableEq ι] in
theorem Accepts.aboveFloor [SignedScalar F] {i : ι} {s : Signal F} (accepts : net.Accepts i s)
    (ceiling : s.weight ≤ 1) :
    s.AboveFloor (net i).node.config.propagation.minPropagationWeight := by
  intro _
  refine ⟨?_, ceiling⟩
  unfold Accepts checkPropagable at accepts
  split_ifs at accepts with spent visited weak
  exact OrderedScalar.not_lt weak

theorem acknowledged_keep_floor [SignedScalar F] {P₀ P : NetPool ι F} (start : Deployed P₀)
    (run : net.Run P₀ P) {config : PropagationConfig F}
    (valid : config.minPropagationWeight < 1) : net.FloorHeld config P.state := by
  have under := le_of_lt valid
  have weights : ∀ e ∈ P.state.emissions, e.2.requiresReceipt = true → e.2.weight ≤ 1 →
      net.Accepts e.1 e.2 → ∀ senders c, net.Lineage e.1 e.2 senders c →
      (∀ k ∈ c.node :: senders, (net k).node.config.propagation = config) →
        c.Carries (Signal.AboveFloor config.minPropagationWeight) := by
    intro e _ acknowledged ceiling accepts senders c lineage shared
    apply lineage.aboveFloor shared under acknowledged
    rw [← shared e.1 lineage.origin_mem]
    exact accepts.aboveFloor ceiling
  obtain ⟨h, past⟩ := run.history start
  constructor
  · intro x crossed relayed
    obtain ⟨e, emitted, senders, lineage⟩ := past.relayed crossed relayed
    exact ⟨e, emitted, senders, lineage.crossed⟩
  · intro e emitted acknowledged _ ceiling accepts
    exact weights e emitted acknowledged ceiling accepts
  · intro e emitted acknowledged _ ceiling accepts senders j s lineage shared arrival st d st' run
    have above : s.AboveFloor config.minPropagationWeight :=
      weights e emitted acknowledged ceiling accepts senders _ lineage shared
    intro rejected
    rcases Node.answered_cases run with ⟨-, rfl⟩ | ⟨-, reason, check, rfl⟩ | ⟨-, -, reasons⟩
    · cases rejected
    · obtain rfl := Option.some.inj rejected
      obtain ⟨left, -, weak⟩ := checkPropagable_belowThreshold_iff.mp check
      rw [shared j List.mem_cons_self] at weak
      exact OrderedScalar.lt_irrefl weak (above (Nat.pos_of_ne_zero left)).1
    · rcases reasons _ rejected with other | other
      · cases other
      · cases other

theorem kite_keeps_floor : ∃ P : NetPool (Fin 4) ℚ, (edgeNetwork 4).Run (wired kite) P ∧
    (P.state.crossings.any fun x => x.frame.requiresReceipt && decide (0 < x.frame.ttl)) = true ∧
    (edgeNetwork 4).FloorHeld patientEdge.propagation P.state := by
  obtain ⟨P, run, -, state⟩ := reaches_after kite acknowledgedFlood acknowledgedFlood_offered
  refine ⟨P, run, ?_, acknowledged_keep_floor (wired_deployed kite) run ?_⟩
  · rw [state]
    decide +kernel
  · decide +kernel

end Network
end OpenNtl
