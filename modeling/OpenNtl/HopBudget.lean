import OpenNtl.NetworkCopies

/-! # How far its hops take a signal

A sender takes one hop off before it sends, and a receiver refuses what has none left.
-/
namespace OpenNtl

open AtomicProgram NodeM

variable {ι F : Type} [Scalar F]

namespace Node

variable {node : Node F} {signal : Signal F}

theorem checkPropagable_ttlExhausted_iff {localNode : NodeId} {config : PropagationConfig F} :
    checkPropagable signal localNode config = .error .ttlExhausted ↔ signal.ttl = 0 := by
  unfold checkPropagable
  split_ifs with spent visited weak
  · exact iff_of_true rfl spent
  · exact iff_of_false (by simp) spent
  · exact iff_of_false (by simp) spent
  · exact iff_of_false (by simp) spent

/-- Past its checks, an arrival is refused for a full queue or for want of a route. -/
theorem afterAdmission_rejected {arrival : Option SynapseId} {nowNs : ℕ}
    {admitted : AdmitOutcome F} {s t : NodeState F} {d : Disposition F}
    (full : ∀ reason ∈ admitted.dropReason, reason = .queueFull)
    (run : (node.afterAdmission signal arrival nowNs admitted).run s = (.ok d, t)) :
    ∀ reason ∈ d.rejected, reason = .queueFull ∨ reason = .noRoute := by
  by_cases itself : ∃ q ∈ admitted.dropped, q.id = signal.id
  · have shed := dropped_any itself
    have reason : admitted.dropReason.getD .queueFull = .queueFull := by
      cases dropped : admitted.dropReason with
      | none => rfl
      | some reason => exact full reason dropped
    simp only [afterAdmission, shed, if_true, reason] at run
    obtain ⟨made, -⟩ := Prod.mk.inj run
    obtain rfl := Except.ok.inj made
    intro reason same
    exact Or.inl (Option.some.inj same).symm
  · have spec := node.afterAdmission_spec signal arrival nowNs admitted s
    rw [run] at spec
    cases spec with
    | shed shed => exact absurd shed itself
    | held =>
      intro reason same
      cases same
    | routeless =>
      intro reason same
      exact Or.inr (Option.some.inj same).symm
    | released =>
      intro reason same
      cases same

/-- How an arrival is answered: it is a duplicate, it fails a check, or it passes them all. -/
theorem answered_cases {arrival : Option SynapseId} {s t : NodeState F} {d : Disposition F}
    (run : (node.receive signal arrival).run s = (.ok d, t)) :
    (HasLiveClaim s signal.id ∧ d = .nothing) ∨
    (¬ HasLiveClaim s signal.id ∧ ∃ reason,
      checkPropagable signal node.identity node.config.propagation = .error reason ∧
      d = .refuse signal reason signal.hops) ∨
    (¬ HasLiveClaim s signal.id ∧
      checkPropagable signal node.identity node.config.propagation = .ok () ∧
      ∀ reason ∈ d.rejected, reason = .queueFull ∨ reason = .noRoute) := by
  have spec := node.admission_spec signal arrival s
  rcases result : (node.admission signal arrival).run s with ⟨r, u⟩
  rw [result] at spec
  unfold receive at run
  cases spec with
  | failed =>
    rw [Prog.run_bind_error result] at run
    cases run
  | duplicate _ live =>
    rw [Prog.run_bind_ok result] at run
    exact Or.inl ⟨live, (Except.ok.inj (Prod.mk.inj run).1).symm⟩
  | refused _ fresh reason check =>
    rw [Prog.run_bind_ok result] at run
    exact Or.inr (Or.inl ⟨fresh, reason, check, (Except.ok.inj (Prod.mk.inj run).1).symm⟩)
  | admitted _ fresh check weight faults =>
    rw [Prog.run_bind_ok result] at run
    refine Or.inr (Or.inr ⟨fresh, check, ?_⟩)
    refine afterAdmission_rejected (fun reason dropped => ?_) run
    rcases s.activation.admitSignal_spec (queuedSignalOf signal s.clock) weight s.clock s.rng with
      ⟨out, -⟩ | ⟨out, -⟩
    all_goals
      rw [show (offered signal s weight).1 = _ from out] at dropped
      obtain ⟨_, -, rfl⟩ := Option.map_eq_some_iff.mp dropped
      rfl

/-- An arrival that is not forgotten is refused for want of hops exactly when it has none left. -/
theorem receive_ttlExhausted_iff {arrival : Option SynapseId} {s t : NodeState F}
    {d : Disposition F} (run : (node.receive signal arrival).run s = (.ok d, t)) :
    d.rejected = some .ttlExhausted ↔ signal.ttl = 0 ∧ ¬ HasLiveClaim s signal.id := by
  rcases answered_cases run with ⟨live, rfl⟩ | ⟨fresh, reason, check, rfl⟩ | ⟨fresh, check, reasons⟩
  · refine iff_of_false ?_ fun spent => spent.2 live
    intro same
    cases same
  · refine Iff.trans ?_ (and_iff_left fresh).symm
    rw [← checkPropagable_ttlExhausted_iff, check]
    simp [Disposition.refuse]
  · refine iff_of_false (fun same => ?_) fun spent => ?_
    · rcases reasons _ same with other | other
      · cases other
      · cases other
    · rw [checkPropagable_ttlExhausted_iff.mpr spent.1] at check
      cases check

theorem receive_spent {arrival : Option SynapseId} {s t : NodeState F} {d : Disposition F}
    (spent : signal.ttl = 0) (run : (node.receive signal arrival).run s = (.ok d, t)) :
    d.handleLocally = [] ∧ d.forwardTo = [] ∧ d.queued = false := by
  rcases answered_cases run with ⟨-, rfl⟩ | ⟨-, reason, -, rfl⟩ | ⟨-, check, -⟩
  · exact ⟨rfl, rfl, rfl⟩
  · exact ⟨rfl, rfl, rfl⟩
  · rw [checkPropagable_ttlExhausted_iff.mpr spent] at check
    cases check

end Node

namespace Network

variable {net : Network ι F} [DecidableEq ι]

/-- How far a signal's hops take it, where every node on the way accepts as many as it was
emitted with. -/
structure HopsReach (net : Network ι F) (w : NetState ι F) : Prop where
  /-- What is relayed over a link is a copy on a path from its emission. -/
  traced : ∀ x ∈ w.crossings, x.frame.signalType ≠ .receipt → ∃ e ∈ w.emissions, ∃ senders,
    net.Lineage e.1 e.2 senders (.hand x.target (net.arriving x.target x.frame))
  /-- Each link takes exactly one hop. -/
  links : ∀ e ∈ w.emissions, ∀ senders j s, net.Lineage e.1 e.2 senders (.hand j s) →
    (∀ k ∈ j :: senders, e.2.ttl ≤ (net k).node.config.propagation.maxAcceptedTtl) →
      s.ttl + senders.length = e.2.ttl
  /-- A node refuses the copy for want of hops exactly if as many links lie behind it. -/
  refused : ∀ e ∈ w.emissions, ∀ senders j s, net.Lineage e.1 e.2 senders (.hand j s) →
    (∀ k ∈ j :: senders, e.2.ttl ≤ (net k).node.config.propagation.maxAcceptedTtl) →
      ∀ arrival st d st', ((net j).node.receive s arrival).run st = (.ok d, st') →
        (d.rejected = some .ttlExhausted ↔ senders.length = e.2.ttl ∧ ¬ HasLiveClaim st s.id)
  /-- What has no hops left is neither handled nor forwarded, and refused unless a duplicate. -/
  spent : ∀ (j : ι) (s : Signal F) arrival st d st', s.ttl = 0 →
    ((net j).node.receive s arrival).run st = (.ok d, st') →
      d.handleLocally = [] ∧ d.forwardTo = [] ∧ d.queued = false ∧
        (¬ HasLiveClaim st s.id → d.rejected = some .ttlExhausted)

theorem hops_reach {P₀ P : NetPool ι F} (start : Deployed P₀) (run : net.Run P₀ P) :
    net.HopsReach P.state := by
  obtain ⟨h, past⟩ := run.history start
  constructor
  · intro x crossed relayed
    obtain ⟨e, emitted, senders, lineage⟩ := past.relayed crossed relayed
    exact ⟨e, emitted, senders, lineage.crossed⟩
  · intro e _ senders j s lineage enough
    exact lineage.ttl_eq enough
  · intro e _ senders j s lineage enough arrival st d st' answered
    have links : s.ttl + senders.length = e.2.ttl := lineage.ttl_eq enough
    rw [Node.receive_ttlExhausted_iff answered]
    refine and_congr_left fun _ => ?_
    omega
  · intro j s arrival st d st' none answered
    obtain ⟨handled, forwarded, queued⟩ := Node.receive_spent none answered
    refine ⟨handled, forwarded, queued, fun fresh => ?_⟩
    exact (Node.receive_ttlExhausted_iff answered).mpr ⟨none, fresh⟩

theorem kite_hops_reach : ∃ P : NetPool (Fin 4) ℚ, (edgeNetwork 4).Run (wired kite) P ∧
    P.state.crossings.length = 1 ∧ (edgeNetwork 4).HopsReach P.state := by
  obtain ⟨P, run, -, state⟩ := reaches_after kite oneHopFlood oneHopFlood_offered
  refine ⟨P, run, ?_, hops_reach (wired_deployed kite) run⟩
  rw [state]
  decide +kernel

/-- One hop takes a signal over one link, but the node behind it refuses the copy. -/
theorem last_hop_is_refused :
    (¬ ∀ (n : ℕ) (net : Network (Fin n) ℚ) (P₀ P : NetPool (Fin n) ℚ), Deployed P₀ →
      net.Run P₀ P → ∀ e ∈ P.state.emissions, ∀ senders j s,
        net.Lineage e.1 e.2 senders (.hand j s) → senders.length ≤ e.2.ttl →
        (∀ k ∈ j :: senders, e.2.ttl ≤ (net k).node.config.propagation.maxAcceptedTtl) →
        ∀ arrival st d st', ((net j).node.receive s arrival).run st = (.ok d, st') →
          d.rejected ≠ some .ttlExhausted) ∧
    ¬ ∀ (node : Node ℚ) (s : Signal ℚ) arrival st d st', s.ttl = 0 → ¬ HasLiveClaim st s.id →
      (node.receive s arrival).run st = (.ok d, st') → d.handleLocally ≠ [] := by
  obtain ⟨P, run, -, state⟩ := reaches_after kite oneHopFlood oneHopFlood_offered
  have facts : (P.state.emissions.all fun e => e.2.ttl = 1) ∧ P.state.crossings.any fun x =>
      x.frame.signalType ≠ .receipt ∧ x.frame.ttl = 0 ∧
        (((edgeNetwork 4 x.target).node.receive ((edgeNetwork 4).arriving x.target x.frame) none).run
          ((wired kite).state.nodes x.target).node).1.toOption.any fun d =>
            d.rejected = some .ttlExhausted := by
    rw [state]
    decide +kernel
  obtain ⟨emissions, crossings⟩ := facts
  obtain ⟨x, crossed, frame⟩ := List.any_eq_true.mp crossings
  obtain ⟨relayed, last, answer⟩ := of_decide_eq_true frame
  rcases answered : ((edgeNetwork 4 x.target).node.receive ((edgeNetwork 4).arriving x.target
    x.frame) none).run ((wired kite).state.nodes x.target).node with ⟨_ | d, t⟩
  · rw [answered] at answer
    cases answer
  · rw [answered] at answer
    have rejected : d.rejected = some .ttlExhausted := of_decide_eq_true answer
    have spent : ((edgeNetwork 4).arriving x.target x.frame).ttl = 0 := by
      rw [arriving_ttl, last, Nat.zero_min]
    constructor
    · intro always
      obtain ⟨h, past⟩ := run.history (wired_deployed kite)
      obtain ⟨e, emitted, senders, lineage⟩ := past.relayed crossed relayed
      have one : e.2.ttl = 1 := of_decide_eq_true (List.all_eq_true.mp emissions e emitted)
      have enough : ∀ k : Fin 4, e.2.ttl ≤ (edgeNetwork 4 k).node.config.propagation.maxAcceptedTtl :=
        fun k => one.le.trans (by decide : 1 ≤ 100)
      have links : x.frame.ttl + senders.length = e.2.ttl := lineage.ttl_eq fun k _ => enough k
      exact always 4 _ _ P (wired_deployed kite) run e emitted senders _ _ lineage.crossed
        (by omega) (fun k _ => enough k) none _ d t answered rejected
    · intro always
      obtain ⟨-, fresh⟩ := (Node.receive_ttlExhausted_iff answered).mp rejected
      exact always _ _ none _ d t spent fresh answered (Node.receive_spent spent answered).1

end Network
end OpenNtl
