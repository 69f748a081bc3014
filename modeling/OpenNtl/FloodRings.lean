import OpenNtl.NetworkCopies

/-! # The rings of a flood

A node tells the depth of a flood by the length of its trace, which stops at 64.
-/
namespace OpenNtl

open AtomicProgram

variable {ι F : Type} [Scalar F]

namespace Network

variable {net : Network ι F}

/-- No copy of the flood can get further than `maxHops` links: its trace tells when it is there,
or it has run out of hops by then. -/
def Contained (net : Network ι F) (maxHops : ℕ) (s : Signal F) : Prop :=
  maxHops ≤ 64 ∨ s.ttl ≤ maxHops ∨
    ∀ k, (net k).node.config.propagation.maxAcceptedTtl < maxHops

theorem Lineage.links_le_depth {origin : ι} {s₀ : Signal F} {senders : List ι} {c : Copy ι F}
    {maxHops : ℕ} (fresh : s₀.trace = []) (flood : s₀.scope = .flood maxHops)
    (traced : maxHops ≤ 64) (lineage : net.Lineage origin s₀ senders c) :
    senders.length ≤ maxHops := by
  induction lineage with
  | emitted => exact Nat.zero_le _
  | accepted _ _ ih => exact ih
  | crossed _ ih => exact ih
  | @forwarded senders i peer s before accepts onward ih =>
    have scope : s.scope = .flood maxHops :=
      (sameSigned (show s.unsigned = s₀.unsigned from before.unsigned)).scope.trans flood
    have hops : s.trace.length = min senders.length 64 := before.trace_length fresh
    unfold floodDepthReached at onward
    rw [scope] at onward
    have short : ¬ maxHops ≤ s.trace.length := of_decide_eq_false onward
    rw [List.length_cons]
    omega

/-- Where a copy has at least one hop less for each link, it stays within the rings. -/
theorem Lineage.links_le_of_contained {origin : ι} {s₀ : Signal F} {senders : List ι}
    {c : Copy ι F} {maxHops : ℕ} (fresh : s₀.trace = []) (flood : s₀.scope = .flood maxHops)
    (contained : net.Contained maxHops s₀) (lineage : net.Lineage origin s₀ senders c) :
    senders.length ≤ maxHops := by
  rcases contained with traced | short | refused
  · exact lineage.links_le_depth fresh flood traced
  · have hops := lineage.ttl_add_links
    cases c with
    | duty => cases lineage
    | _ => exact (Nat.le_of_add_left_le hops).trans short
  · have pos : 0 < maxHops := (Nat.zero_le _).trans_lt (refused origin)
    have accepted := lineage.ttl_le_accepted (M := maxHops - 1) fun k _ =>
      Nat.le_sub_one_of_lt (refused k)
    cases c with
    | duty => cases lineage
    | frame =>
      rcases accepted with first | left
      · omega
      · omega
    | _ =>
      rcases accepted with rfl | left
      · exact Nat.zero_le _
      · omega

def OnItsWay (net : Network ι F) (w : NetState ι F) (c : Copy ι F) : Prop :=
  (∃ x ∈ w.crossings, c = .frame x.source (net x.target).identity.nodeId x.frame) ∨
    ∃ i, c ∈ framesAt i (w.nodes i).sessions

/-- No copy of a flood is sent over more links than the flood asks for: none that a node accepts
has crossed more, and no node that many links away forwards one. -/
def FloodsStayWithin (net : Network ι F) (w : NetState ι F) : Prop :=
  ∀ e ∈ w.emissions, ∀ maxHops, e.2.scope = .flood maxHops → ∀ senders c, net.OnItsWay w c →
    net.Lineage e.1 e.2 senders c → senders.length ≤ maxHops

variable [DecidableEq ι]

/-- In a run that only emits contained floods, every frame that crosses a link or is queued for
one comes from an emission, or is a node's own receipt, and stays within the rings. -/
theorem floods_stay_within {P₀ P : NetPool ι F} (start : Deployed P₀) (run : net.Run P₀ P)
    (contained : ∀ e ∈ P.state.emissions, ∀ maxHops, e.2.scope = .flood maxHops →
      net.Contained maxHops e.2) :
    (∀ c, net.OnItsWay P.state c → net.Traced P.state.emissions c) ∧
      net.FloodsStayWithin P.state := by
  obtain ⟨h, past⟩ := run.history start
  constructor
  · rintro c (⟨x, crossed, rfl⟩ | ⟨i, queued⟩)
    · exact past.crossed x crossed
    · refine past.traced c (Or.inr ⟨i, ?_⟩)
      exact Multiset.mem_add.mpr (Or.inl (Multiset.mem_add.mpr (Or.inl queued)))
  · intro e emitted maxHops flood senders c _ lineage
    exact lineage.links_le_of_contained (past.fresh e emitted) flood
      (contained e emitted maxHops flood)

theorem kite_flood_stays_within : ∃ P : NetPool (Fin 4) ℚ, (edgeNetwork 4).Run (wired kite) P ∧
    (P.state.crossings.length = 3 ∧
      P.state.emissions.all fun e => e.2.scope = .flood 2) ∧
    (∀ c, (edgeNetwork 4).OnItsWay P.state c → (edgeNetwork 4).Traced P.state.emissions c) ∧
      (edgeNetwork 4).FloodsStayWithin P.state := by
  obtain ⟨P, run, -, state⟩ := reaches_after kite kiteFlood kiteFlood_offered
  have facts : P.state.crossings.length = 3 ∧
      P.state.emissions.all fun e => e.2.scope = .flood 2 := by
    rw [state]
    decide +kernel
  refine ⟨P, run, facts, floods_stay_within (wired_deployed kite) run ?_⟩
  intro e emitted maxHops flood
  have two : e.2.scope = .flood 2 := of_decide_eq_true (List.all_eq_true.mp facts.2 e emitted)
  rw [two] at flood
  obtain rfl := PropagationScope.flood.inj flood
  exact Or.inl (by omega)

def line : Fin 67 → List (Fin 67) := fun k => if k = 66 then [] else [k + 1]

/-- Node `0` floods a line of nodes, and each of them hands the signal on to the next. -/
def lineFlood : List (NetTask (Fin 67) × NetM (Fin 67) ℚ Unit) :=
  (.application 0 0, (edgeNetwork 67).emitAt 0 (flooding 65 100)) ::
    (List.range 66).map fun k => (.readLoop (Fin.ofNat 67 k) (Fin.ofNat 67 (k + 1)) 0,
      (edgeNetwork 67).readVerified (Fin.ofNat 67 k) (Fin.ofNat 67 (k + 1)))

theorem lineFlood_offered : ∀ job ∈ lineFlood, (edgeNetwork 67).Menu job.1 job.2 := by
  intro job here
  rcases List.mem_cons.mp here with rfl | hop
  · exact ⟨_, rfl⟩
  · obtain ⟨k, -, rfl⟩ := List.mem_map.mp hop
    exact Or.inr rfl

/-- The flood is to go 65 hops deep, and a copy of it crosses the 66th link of the line. -/
theorem long_flood_leaves_its_rings :
    ¬ ∀ (n : ℕ) (net : Network (Fin n) ℚ) (P₀ P : NetPool (Fin n) ℚ),
      (∀ k, ∃ settings : NodeSettings ℚ, settings.validate ["classical-v1"] = .ok () ∧
        (net k).node.config = settings.toNodeConfig) →
      Deployed P₀ → net.Run P₀ P → net.FloodsStayWithin P.state := by
  intro always
  obtain ⟨P, run, -, state⟩ := reaches_after line lineFlood lineFlood_offered
  have within := always 67 (edgeNetwork 67) _ P (fun _ => ⟨patientEdge, patientEdge_checked, rfl⟩)
    (wired_deployed line) run
  obtain ⟨h, past⟩ := run.history (wired_deployed line)
  have facts : (P.state.emissions.all fun e => e.2.scope = .flood 65 ∧ e.2.ttl = 100) ∧
      P.state.crossings.any fun x => x.frame.signalType ≠ .receipt ∧ x.frame.ttl = 34 := by
    rw [state]
    decide +kernel
  obtain ⟨emissions, crossings⟩ := facts
  obtain ⟨x, crossed, frame⟩ := List.any_eq_true.mp crossings
  obtain ⟨relayed, hops⟩ := of_decide_eq_true frame
  obtain ⟨e, emitted, senders, lineage⟩ := past.relayed crossed relayed
  obtain ⟨flood, full⟩ := of_decide_eq_true (List.all_eq_true.mp emissions e emitted)
  have links : x.frame.ttl + senders.length = e.2.ttl := by
    refine lineage.ttl_eq fun k _ => ?_
    rw [full]
    exact le_rfl
  have bounded := within e emitted 65 flood senders _ (Or.inl ⟨x, crossed, rfl⟩) lineage
  omega

end Network
end OpenNtl
