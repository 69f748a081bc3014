import OpenNtl.RuntimeCopies

/-! # Where the copies in a network come from

Whatever the order of steps, every copy in a network has a lineage that starts with an emission,
or is about a receipt that a node has made itself.
-/
namespace OpenNtl

open AtomicProgram Descent

variable {ι F : Type} [Scalar F]

namespace Network

variable (net : Network ι F)

def OwnMade : Copy ι F → Prop
  | .duty _ _ => True
  | .frame _ _ s => s.signalType = .receipt
  | _ => False

def Traced (emissions : List (ι × Signal F)) (c : Copy ι F) : Prop :=
  OwnMade c ∨ ∃ e ∈ emissions, ∃ senders, net.Lineage e.1 e.2 senders c

variable {net} {emissions : List (ι × Signal F)}

theorem Traced.more {e : ι × Signal F} {c : Copy ι F} (traced : net.Traced emissions c) :
    net.Traced (emissions ++ [e]) c := by
  rcases traced with own | ⟨e', here, lineage⟩
  · exact Or.inl own
  · exact Or.inr ⟨e', List.mem_append_left _ here, lineage⟩

theorem Traced.child {c c' : Copy ι F} (traced : net.Traced emissions c)
    (child : net.Child c' c) : net.Traced emissions c' := by
  cases child with
  | refused => exact Or.inl trivial
  | finished => exact Or.inl trivial
  | answered receipt => exact Or.inl receipt
  | crossed relayed =>
    rcases traced with own | ⟨e, here, senders, lineage⟩
    · exact absurd own relayed
    · exact Or.inr ⟨e, here, senders, .crossed lineage⟩
  | accepted accepts =>
    rcases traced with own | ⟨e, here, senders, lineage⟩
    · exact absurd own id
    · exact Or.inr ⟨e, here, senders, .accepted lineage accepts⟩
  | @forwarded i peer s accepts onward =>
    rcases traced with own | ⟨e, here, senders, lineage⟩
    · exact absurd own id
    · exact Or.inr ⟨e, here, i :: senders, .forwarded lineage accepts onward⟩

theorem Traced.evolved {M N : Multiset (Copy ι F)} (step : Evolves net.Child M N)
    (traced : ∀ c ∈ M, net.Traced emissions c) : ∀ c ∈ N, net.Traced emissions c :=
  step.inherits (fun _ _ past child => past.child child) traced

variable [DecidableEq ι]

/-- What one step may do to the copies a task has in hand and to the network. -/
inductive NetMove (net : Network ι F) : Multiset (Copy ι F) → NetState ι F →
    Multiset (Copy ι F) → NetState ι F → Prop
  | still {l : Multiset (Copy ι F)} {w : NetState ι F} : NetMove net l w l w
  | node {i : ι} {l l' : Multiset (Copy ι F)} {w : NetState ι F} {s' : RuntimeState F}
      (move : net.CopyMove i l (w.nodes i) l' s') : NetMove net l w l' (w.setNode i s')
  | emission {i : ι} {s : Signal F} {l : Multiset (Copy ι F)} {w : NetState ι F}
      (fresh : s.trace = []) :
      NetMove net l w ({.hand i s} + l) { w with emissions := w.emissions ++ [(i, s)] }
  | crossing {i j : ι} {frame : Signal F} {l : Multiset (Copy ι F)} {w : NetState ι F}
      {s' : RuntimeState F}
      (popped : NetState.popFrame (w.nodes i) (net j).identity.nodeId = some (frame, s')) :
      NetMove net l w (net.arrivals j frame + l)
        { w.setNode i s' with crossings := w.crossings ++ [⟨i, j, frame⟩] }

def AllHeld (net : Network ι F) (w : NetState ι F) : Prop :=
  ∀ i, net.BodiesHeld i (w.nodes i)

/-- A program of the network all of whose steps are moves, from any copies in hand. -/
def Moves (net : Network ι F) (p : NetM ι F Unit) : Prop :=
  ∀ l, p.ObeysUnder net.AllHeld net.NetMove (fun _ => True) (fun _ _ => True) l

theorem onNode_moves {α : Type} {i : ι} {need : Multiset (Copy ι F)} {p : RuntimeM F α}
    {R : α → Prop} {gain : α → Multiset (Copy ι F)} (hp : net.Yields i need p R gain)
    {K l : Multiset (Copy ι F)} (hand : Evolves net.Child l (need + K)) :
    (onNode i p).ObeysUnder net.AllHeld net.NetMove (fun _ => True)
      (fun a l' => R a ∧ Evolves net.Child l' (gain a + K)) l :=
  (hp K l hand).focus (fun _ held => held i) fun _ _ _ _ _ move => .node move

theorem emitAt_moves (i : ι) (builder : SignalBuilder F) : net.Moves (net.emitAt i builder) := by
  intro l
  have start : Evolves net.Child l (0 + l) := by
    rw [zero_add]
    exact Evolves.refl l
  refine (onNode_moves (signed_yields builder) start).bind fun signal l' known => ?_
  have noted : (Prog.modify fun w : NetState ι F =>
      { w with emissions := w.emissions ++ [(i, signal)] } : NetM ι F Unit).ObeysUnder
        net.AllHeld net.NetMove (fun _ => True) (fun _ l'' => l'' = {.hand i signal} + l') l' :=
    Prog.ObeysUnder.of_act fun w _ => ⟨_, .emission known.1, rfl⟩
  refine noted.bind fun _ l'' hand => ?_
  rw [hand]
  exact (onNode_moves route_spends (Evolves.refl _)).mono fun _ _ _ => trivial

theorem transmit_moves (i j : ι) (l : Multiset (Copy ι F)) :
    (net.transmit i j).ObeysUnder net.AllHeld net.NetMove (fun _ => True)
      (fun o l' => ∀ frame, o = some frame → l' = net.arrivals j frame + l) l := by
  refine Prog.ObeysUnder.of_act fun w _ => ?_
  cases popped : NetState.popFrame (w.nodes i) (net j).identity.nodeId with
  | none => exact ⟨l, .still, fun frame none => nomatch none⟩
  | some found =>
    obtain ⟨frame, s'⟩ := found
    refine ⟨_, .crossing popped, fun frame' same => ?_⟩
    obtain rfl := Option.some.inj same
    rfl

theorem readFrame_moves (i j : ι) : net.Moves (net.readFrame i j) := by
  refine fun l => (transmit_moves i j l).bind fun o l' known => ?_
  cases o with
  | none => exact trivial
  | some frame =>
    rw [known frame rfl]
    exact (onNode_moves (handleFrame_spends _ frame) (Evolves.refl _)).mono fun _ _ _ => trivial

theorem readVerified_moves (i j : ι) : net.Moves (net.readVerified i j) := by
  refine fun l => (transmit_moves i j l).bind fun o l' known => ?_
  cases o with
  | none => exact trivial
  | some frame =>
    rw [known frame rfl]
    exact (onNode_moves (handleVerified_spends _ frame) (Evolves.refl _)).mono fun _ _ _ => trivial

theorem menu_moves {t : NetTask ι} {p : NetM ι F Unit} (offered : net.Menu t p) : net.Moves p := by
  cases t with
  | application i caller =>
    obtain ⟨builder, rfl⟩ := offered
    exact emitAt_moves i builder
  | readLoop i j session =>
    rcases offered with rfl | rfl
    · exact readFrame_moves i j
    · exact readVerified_moves i j
  | maintenance i =>
    obtain ⟨ticks, rfl⟩ := offered
    intro l
    have start : Evolves net.Child l (0 + l) := by
      rw [zero_add]
      exact Evolves.refl l
    exact (onNode_moves (maintenanceTick_spends ticks) start).mono fun _ _ _ => trivial

omit [Scalar F] [DecidableEq ι] in
theorem copiesAt_popFrame {i : ι} {s s' : RuntimeState F} {peer : NodeId} {frame : Signal F}
    (popped : NetState.popFrame s peer = some (frame, s')) :
    copiesAt i s = {.frame i peer frame} + copiesAt i s' ∧ s'.pending = s.pending := by
  unfold NetState.popFrame at popped
  cases found : s.sessions.lookup peer with
  | none =>
    rw [found] at popped
    cases popped
  | some session =>
    rw [found] at popped
    cases queue : session.outbound with
    | nil =>
      simp only [queue] at popped
      cases popped
    | cons first rest =>
      simp only [queue] at popped
      obtain ⟨rfl, rfl⟩ := Prod.mk.inj (Option.some.inj popped)
      refine ⟨?_, rfl⟩
      have split : framesAt i s.sessions = {.frame i peer first} +
          framesAt i (s.sessions.insert peer { session with outbound := rest }) := by
        unfold framesAt
        rw [HashMap.contents_of_lookup found, HashMap.contents_insert, queue, List.map_cons,
          ← add_assoc]
        rfl
      unfold copiesAt
      rw [split]
      dsimp only
      abel

omit [Scalar F] [DecidableEq ι] in
theorem copiesAt_outside {i : ι} {s s' : RuntimeState F} (outside : NodeOutside s s') :
    (copiesAt i s' : Multiset (Copy ι F)) ≤ copiesAt i s := by
  unfold copiesAt
  rw [outside.pending, outside.gate]
  refine add_le_add (add_le_add (HashMap.contents_le fun peer session' there => ?_) le_rfl) le_rfl
  rcases outside.sessions peer session' there with none | ⟨session, here, same⟩
  · rw [none]
    exact Or.inl rfl
  · refine Or.inr ⟨session, here, ?_⟩
    rw [same]

def Somewhere (h : NetTask ι → Multiset (Copy ι F)) (w : NetState ι F) (c : Copy ι F) : Prop :=
  (∃ t, c ∈ h t) ∨ ∃ i, c ∈ copiesAt i (w.nodes i)

/-- Nodes hold what they have accepted, and every copy there is or was has a past. -/
structure History (net : Network ι F) (h : NetTask ι → Multiset (Copy ι F))
    (w : NetState ι F) : Prop where
  held : net.AllHeld w
  fresh : ∀ e ∈ w.emissions, e.2.trace = []
  traced : ∀ c, Somewhere h w c → net.Traced w.emissions c
  crossed : ∀ x ∈ w.crossings,
    net.Traced w.emissions (.frame x.source (net x.target).identity.nodeId x.frame)

omit [DecidableEq ι] in
theorem History.relayed {h : NetTask ι → Multiset (Copy ι F)} {w : NetState ι F}
    (past : net.History h w) {x : Crossing ι F} (crossed : x ∈ w.crossings)
    (relayed : x.frame.signalType ≠ .receipt) : ∃ e ∈ w.emissions, ∃ senders,
      net.Lineage e.1 e.2 senders (.frame x.source (net x.target).identity.nodeId x.frame) := by
  rcases past.crossed x crossed with own | traced
  · exact absurd own relayed
  · exact traced

omit [Scalar F] in
theorem Somewhere.of_setNode {h : NetTask ι → Multiset (Copy ι F)} {w : NetState ι F} {i : ι}
    {s' : RuntimeState F} {t : NetTask ι} {l : Multiset (Copy ι F)} {c : Copy ι F}
    (there : Somewhere (Function.update h t l) (w.setNode i s') c) :
    c ∈ l + copiesAt i s' ∨ Somewhere h w c := by
  rcases there with ⟨t', here⟩ | ⟨i', here⟩
  · by_cases same : t' = t
    · subst same
      rw [Function.update_self] at here
      exact Or.inl (Multiset.mem_add.mpr (Or.inl here))
    · rw [Function.update_of_ne same] at here
      exact Or.inr (Or.inl ⟨t', here⟩)
  · by_cases same : i' = i
    · subst same
      simp only [NetState.setNode, Function.update_self] at here
      exact Or.inl (Multiset.mem_add.mpr (Or.inr here))
    · simp only [NetState.setNode, Function.update_of_ne same] at here
      exact Or.inr (Or.inr ⟨i', here⟩)

theorem AllHeld.setNode {w : NetState ι F} (held : net.AllHeld w) {i : ι} {s' : RuntimeState F}
    (here : net.BodiesHeld i s') : net.AllHeld (w.setNode i s') := by
  intro j
  by_cases same : j = i
  · subst same
    simp only [NetState.setNode, Function.update_self]
    exact here
  · simp only [NetState.setNode, Function.update_of_ne same]
    exact held j

namespace History

variable {h : NetTask ι → Multiset (Copy ι F)} {w : NetState ι F} {t : NetTask ι} {i : ι}
  {s' : RuntimeState F}

theorem node (past : net.History h w) {l : Multiset (Copy ι F)}
    (move : net.CopyMove i (h t) (w.nodes i) l s') :
    net.History (Function.update h t l) (w.setNode i s') := by
  refine ⟨past.held.setNode move.held, past.fresh, fun c there => ?_, past.crossed⟩
  rcases there.of_setNode with here | elsewhere
  · refine Traced.evolved move.evolves (fun c' known => ?_) c here
    rcases Multiset.mem_add.mp known with hand | kept
    · exact past.traced c' (Or.inl ⟨t, hand⟩)
    · exact past.traced c' (Or.inr ⟨i, kept⟩)
  · exact past.traced c elsewhere

theorem emission (past : net.History h w) {s : Signal F} (fresh : s.trace = []) :
    net.History (Function.update h t ({.hand i s} + h t))
      { w with emissions := w.emissions ++ [(i, s)] } := by
  refine ⟨past.held, fun e he => ?_, fun c there => ?_, fun x hx => (past.crossed x hx).more⟩
  · rcases List.mem_append.mp he with he | he
    · exact past.fresh e he
    · rw [List.mem_singleton.mp he]
      exact fresh
  · rcases there with ⟨t', here⟩ | elsewhere
    · by_cases same : t' = t
      · subst same
        rw [Function.update_self] at here
        rcases Multiset.mem_add.mp here with new | old
        · obtain rfl := Multiset.mem_singleton.mp new
          exact Or.inr ⟨(i, s), by simp, [], .emitted⟩
        · exact (past.traced c (Or.inl ⟨t', old⟩)).more
      · rw [Function.update_of_ne same] at here
        exact (past.traced c (Or.inl ⟨t', here⟩)).more
    · exact (past.traced c (Or.inr elsewhere)).more

theorem crossing (past : net.History h w) {j : ι} {frame : Signal F}
    (popped : NetState.popFrame (w.nodes i) (net j).identity.nodeId = some (frame, s')) :
    net.History (Function.update h t (net.arrivals j frame + h t))
      { w.setNode i s' with crossings := w.crossings ++ [⟨i, j, frame⟩] } := by
  obtain ⟨split, pending⟩ := copiesAt_popFrame (i := i) popped
  have sent : net.Traced w.emissions (.frame i (net j).identity.nodeId frame) := by
    refine past.traced _ (Or.inr ⟨i, ?_⟩)
    rw [split]
    exact Multiset.mem_add.mpr (Or.inl (Multiset.mem_singleton_self _))
  have held : net.BodiesHeld i s' := by
    unfold BodiesHeld
    rw [pending]
    exact past.held i
  refine ⟨past.held.setNode held, past.fresh, fun c there => ?_, fun x hx => ?_⟩
  · rcases Somewhere.of_setNode there with here | elsewhere
    · rcases Multiset.mem_add.mp here with hand | kept
      · rcases Multiset.mem_add.mp hand with arrived | old
        · unfold arrivals at arrived
          split at arrived
          · exact absurd arrived (Multiset.notMem_zero c)
          · rename_i relayed
            obtain rfl := Multiset.mem_singleton.mp arrived
            exact sent.child (.crossed relayed)
        · exact past.traced c (Or.inl ⟨t, old⟩)
      · refine past.traced c (Or.inr ⟨i, ?_⟩)
        rw [split]
        exact Multiset.mem_add.mpr (Or.inr kept)
    · exact past.traced c elsewhere
  · rcases List.mem_append.mp hx with hx | hx
    · exact past.crossed x hx
    · rw [List.mem_singleton.mp hx]
      exact sent

theorem move (past : net.History h w) {w' : NetState ι F} {l : Multiset (Copy ι F)}
    (move : net.NetMove (h t) w l w') : net.History (Function.update h t l) w' := by
  generalize before : h t = hand at move
  cases move with
  | still =>
    rw [← before, Function.update_eq_self]
    exact past
  | node move =>
    subst before
    exact past.node move
  | emission fresh =>
    subst before
    exact past.emission fresh
  | crossing popped =>
    subst before
    exact past.crossing popped

end History

omit [DecidableEq ι] in
theorem History.outside {h : NetTask ι → Multiset (Copy ι F)} {w w' : NetState ι F}
    (past : net.History h w) (change : NetOutside w w') : net.History h w' := by
  have same := change.emissions
  refine ⟨fun i => ?_, ?_, fun c there => ?_, ?_⟩
  · unfold BodiesHeld
    rw [(change.nodes i).pending]
    exact past.held i
  · rw [same]
    exact past.fresh
  · rw [same]
    rcases there with hand | ⟨i, here⟩
    · exact past.traced c (Or.inl hand)
    · exact past.traced c (Or.inr ⟨i, Multiset.mem_of_le (copiesAt_outside (change.nodes i)) here⟩)
  · rw [same, change.crossings]
    exact past.crossed

theorem history_inductive (net : Network ι F) :
    Pool.InductiveUnder net.Menu NetOutside (fun _ _ => True) net.AllHeld net.NetMove
      (fun _ => True) net.History where
  within _ _ past := past.held
  obeys _ _ offered l _ := menu_moves offered l
  moves _ _ _ _ _ past move _ := past.move move
  changes _ _ _ past change _ := past.outside change

omit [Scalar F] [DecidableEq ι] in
theorem copiesAt_deployed {P : NetPool ι F} (start : Deployed P) (i : ι) :
    (copiesAt i (P.state.nodes i) : Multiset (Copy ι F)) = 0 := by
  have frames : framesAt i (P.state.nodes i).sessions = (0 : Multiset (Copy ι F)) := by
    refine Multiset.le_zero.mp ?_
    refine HashMap.contents_le (m := ∅) fun peer session there => Or.inl ?_
    rw [start.outbound i peer session there]
    rfl
  unfold copiesAt bodiesAt dutiesAt
  rw [frames, start.pending i, start.queue i]
  rfl

omit [DecidableEq ι] in
theorem History.initial {P : NetPool ι F} (start : Deployed P) :
    net.History (fun _ => 0) P.state := by
  refine ⟨fun i id body there => ?_, ?_, fun c there => ?_, ?_⟩
  · rw [start.pending i] at there
    cases there
  · rw [start.emissions]
    exact fun e he => nomatch he
  · rcases there with ⟨t, hand⟩ | ⟨i, here⟩
    · exact absurd hand (Multiset.notMem_zero c)
    · rw [copiesAt_deployed start i] at here
      exact absurd here (Multiset.notMem_zero c)
  · rw [start.crossings]
    exact fun x hx => nomatch hx

theorem Run.history {P₀ P : NetPool ι F} (start : Deployed P₀) (run : net.Run P₀ P) :
    ∃ h, net.History h P.state := by
  obtain ⟨h, past, -⟩ := Pool.Run.invariantUnder (history_inductive net)
    (History.initial start) start.idle (fun _ => trivial) run
  exact ⟨h, past⟩

end Network
end OpenNtl
