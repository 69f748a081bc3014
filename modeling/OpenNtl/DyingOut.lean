import OpenNtl.NetworkCopies
import Mathlib.Algebra.BigOperators.Group.Finset.Basic
import Mathlib.Algebra.Order.BigOperators.Group.Finset
import Mathlib.Algebra.Order.Group.Multiset
import Mathlib.Data.Fintype.Basic

/-! # Every emission dies out

Each step replaces copies by copies of lower rank, so the ranks of all the copies about a signal
go down in the multiset order with every frame that crosses a link.
-/
namespace OpenNtl

open AtomicProgram Descent

variable {ι F : Type} [Scalar F]

namespace Network

variable {net : Network ι F}

def mostAccepted (net : Network ι F) (path : List ι) : ℕ :=
  path.foldr (fun i most => max (net i).node.config.propagation.maxAcceptedTtl most) 0

omit [Scalar F] in
theorem le_mostAccepted {path : List ι} {k : ι} (on : k ∈ path) :
    (net k).node.config.propagation.maxAcceptedTtl ≤ net.mostAccepted path := by
  induction path with
  | nil => cases on
  | cons i rest ih =>
    rcases List.mem_cons.mp on with rfl | later
    · exact le_max_left _ _
    · exact (ih later).trans (le_max_right _ _)

/-- The links crossed by a copy are bounded by its own hops and by those its nodes accept. -/
theorem Lineage.links_le {origin : ι} {s₀ s : Signal F} {senders : List ι} {i : ι} {peer : NodeId}
    (lineage : net.Lineage origin s₀ senders (.frame i peer s)) :
    senders.length ≤ min s₀.ttl (1 + net.mostAccepted senders) := by
  have sender : i ∈ senders := by
    cases lineage
    exact List.mem_cons_self
  have hops : s.ttl + senders.length ≤ s₀.ttl := lineage.ttl_add_links
  have accepted := lineage.ttl_le_accepted (M := net.mostAccepted senders) fun k hk => by
    rcases List.mem_cons.mp hk with rfl | hk
    · exact le_mostAccepted sender
    · exact le_mostAccepted hk
  rcases accepted with short | left
  · omega
  · omega

/-- The copy is of this emission, or belongs to a receipt about it. -/
def ComesOf (net : Network ι F) (e : ι × Signal F) (c : Copy ι F) : Prop :=
  net.Traced [e] c ∧ c.subject = e.2.subject

theorem ComesOf.child {e : ι × Signal F} {c c' : Copy ι F} (comes : net.ComesOf e c)
    (child : net.Child c' c) : net.ComesOf e c' :=
  ⟨comes.1.child child, child.subject.trans comes.2⟩

def sent (net : Network ι F) (x : Crossing ι F) : Copy ι F :=
  .frame x.source (net x.target).identity.nodeId x.frame

def Emitted (w : NetState ι F) (k : ℕ) (P : ι × Signal F → Prop) : Prop :=
  ∃ e, w.emissions[k]? = some e ∧ P e

omit [Scalar F] in
theorem Emitted.later {w w' : NetState ι F} {k : ℕ} {P : ι × Signal F → Prop}
    (known : Emitted w k P) (prefixed : w.emissions <+: w'.emissions) : Emitted w' k P := by
  obtain ⟨e, here, holds⟩ := known
  obtain ⟨more, same⟩ := prefixed
  refine ⟨e, ?_, holds⟩
  rw [← same, List.getElem?_append_left (List.getElem?_eq_some_iff.mp here).1]
  exact here

omit [Scalar F] in
theorem Emitted.lt {w : NetState ι F} {k : ℕ} {P : ι × Signal F → Prop} (known : Emitted w k P) :
    k < w.emissions.length := by
  obtain ⟨e, here, -⟩ := known
  exact (List.getElem?_eq_some_iff.mp here).1

variable [DecidableEq ι]

section Totals

variable [Fintype ι]

def Totals (h : NetTask ι → Multiset (Copy ι F)) (nodes : ι → RuntimeState F)
    (M : Multiset (Copy ι F)) : Prop :=
  ∃ T : Finset (NetTask ι), (∀ t, t ∉ T → h t = 0) ∧
    M = ∑ t ∈ T, h t + ∑ i, copiesAt i (nodes i)

variable {h : NetTask ι → Multiset (Copy ι F)} {nodes : ι → RuntimeState F}
  {M : Multiset (Copy ι F)}

omit [Scalar F] in
theorem Totals.split (total : Totals h nodes M) (t : NetTask ι) (i : ι) :
    ∃ K, M = h t + copiesAt i (nodes i) + K ∧ ∀ l s', Totals (Function.update h t l)
      (Function.update nodes i s') (l + copiesAt i s' + K) := by
  obtain ⟨T, outside, rfl⟩ := total
  have node : ∑ j, copiesAt j (nodes j) = copiesAt i (nodes i) +
      ∑ j ∈ Finset.univ.erase i, copiesAt j (nodes j) :=
    (Finset.add_sum_erase _ (fun j => copiesAt j (nodes j)) (Finset.mem_univ i)).symm
  have task : ∑ t' ∈ T, h t' = h t + ∑ t' ∈ T.erase t, h t' := by
    by_cases inside : t ∈ T
    · exact (Finset.add_sum_erase _ h inside).symm
    · rw [outside t inside, zero_add, Finset.erase_eq_of_notMem inside]
  refine ⟨∑ t' ∈ T.erase t, h t' + ∑ j ∈ Finset.univ.erase i, copiesAt j (nodes j), ?_, ?_⟩
  · rw [node, task]
    abel
  · intro l s'
    refine ⟨insert t (T.erase t), fun t' out => ?_, ?_⟩
    · have apart : t' ≠ t := fun same => out (same ▸ Finset.mem_insert_self _ _)
      rw [Function.update_of_ne apart]
      refine outside t' fun inside => out ?_
      exact Finset.mem_insert_of_mem (Finset.mem_erase.mpr ⟨apart, inside⟩)
    · rw [Finset.sum_insert (Finset.notMem_erase t T), Function.update_self,
        ← Finset.add_sum_erase _ _ (Finset.mem_univ i), Function.update_self]
      have tasks : ∑ t' ∈ T.erase t, Function.update h t l t' = ∑ t' ∈ T.erase t, h t' :=
        Finset.sum_congr rfl fun t' ht' => Function.update_of_ne (Finset.ne_of_mem_erase ht') _ _
      have others : ∑ j ∈ Finset.univ.erase i, copiesAt j (Function.update nodes i s' j) =
          ∑ j ∈ Finset.univ.erase i, copiesAt j (nodes j) := by
        refine Finset.sum_congr rfl fun j hj => ?_
        rw [Function.update_of_ne (Finset.ne_of_mem_erase hj)]
      rw [tasks, others]
      abel

/-- How much can still happen to the copies that come of one emission. -/
def left (k : ℕ) (M : Multiset (Copy ι F × ℕ)) : Multiset ℕ :=
  ranks (fun c => c.1.rank) (fun c => c.2 = k) M

/-- Every copy and every crossing is put down to an emission, which is named by its place in the
history. -/
structure Attributed (net : Network ι F) (h : NetTask ι → Multiset (Copy ι F)) (w : NetState ι F)
    (M : Multiset (Copy ι F × ℕ)) (causes : List ℕ) : Prop where
  total : Totals h w.nodes (M.map Prod.fst)
  copies : ∀ c ∈ M, Emitted w c.2 fun e => net.ComesOf e c.1
  crossed : List.Forall₂ (fun x k => Emitted w k fun e => net.ComesOf e (net.sent x))
    w.crossings causes

/-- What a step does about the emissions there have been: whenever a frame crosses a link, less
is left of the emission it comes of, and nothing makes more. -/
structure RunsDown (w w' : NetState ι F) (M M' : Multiset (Copy ι F × ℕ)) (causes causes' : List ℕ) :
    Prop where
  emissions : w.emissions <+: w'.emissions
  known : causes <+: causes'
  lower : ∀ k < w.emissions.length, left k M' = left k M ∧ causes'.count k = causes.count k ∨
    (left k M').IsDershowitzMannaLT (left k M)

variable {w w' : NetState ι F} {N : Multiset (Copy ι F × ℕ)} {causes : List ℕ}

omit [DecidableEq ι] in
theorem Attributed.cause_lt (attributed : net.Attributed h w N causes) :
    ∀ k ∈ causes, k < w.emissions.length := by
  have crossed := attributed.crossed
  clear attributed
  generalize w.crossings = crossings at crossed
  induction crossed with
  | nil => exact fun k here => nomatch here
  | cons cause _ ih =>
    intro k here
    rcases List.mem_cons.mp here with rfl | later
    · exact cause.lt
    · exact ih k later

omit [Fintype ι] [DecidableEq ι] in
theorem labels_lower (k : ℕ) : Lowers (Labelled net.Child)
    (fun c : Copy ι F × ℕ => c.1.rank) fun c => c.2 = k :=
  Lowers.label (fun c c' (born : net.Child c' c) => born.rank_lt) k

omit [Fintype ι] [DecidableEq ι] in
theorem left_evolved {N' : Multiset (Copy ι F × ℕ)} (step : Evolves (Labelled net.Child) N N')
    (k : ℕ) : left k N' = left k N ∨ (left k N').IsDershowitzMannaLT (left k N) :=
  ranks_evolved (labels_lower k) step

omit [DecidableEq ι] in
theorem Attributed.evolve {h' : NetTask ι → Multiset (Copy ι F)} {M' : Multiset (Copy ι F)}
    (attributed : net.Attributed h w N causes) (emissions : w'.emissions = w.emissions)
    (crossings : w'.crossings = w.crossings) (step : Evolves net.Child (N.map Prod.fst) M')
    (total : Totals h' w'.nodes M') :
    ∃ N', net.Attributed h' w' N' causes ∧ RunsDown w w' N N' causes causes := by
  obtain ⟨N', rfl, labelled⟩ := step.labelled rfl
  have same : ∀ {k : ℕ} {P : ι × Signal F → Prop}, Emitted w k P → Emitted w' k P := fun known =>
    known.later (emissions ▸ List.prefix_refl _)
  refine ⟨N', ⟨total, ?_, ?_⟩, emissions ▸ List.prefix_refl _, List.prefix_refl _, ?_⟩
  · intro c here
    refine same (labelled.inherits (P := fun c => Emitted w c.2 fun e => net.ComesOf e c.1)
      (fun c c' comes born => ?_) attributed.copies c here)
    obtain ⟨e, known, comes⟩ := comes
    rw [← born.2] at known
    exact ⟨e, known, comes.child born.1⟩
  · rw [crossings]
    exact attributed.crossed.imp fun _ _ known => same known
  · intro k _
    rcases left_evolved labelled k with still | lower
    · exact Or.inl ⟨still, rfl⟩
    · exact Or.inr lower

theorem Attributed.emit {t : NetTask ι} {i : ι} {s : Signal F}
    (attributed : net.Attributed h w N causes) :
    ∃ N', net.Attributed (Function.update h t ({.hand i s} + h t))
      { w with emissions := w.emissions ++ [(i, s)] } N' causes ∧
        RunsDown w { w with emissions := w.emissions ++ [(i, s)] } N N' causes causes := by
  have prefixed : w.emissions <+: w.emissions ++ [(i, s)] := List.prefix_append _ _
  refine ⟨(.hand i s, w.emissions.length) ::ₘ N, ⟨?_, ?_, ?_⟩, prefixed, List.prefix_refl _, ?_⟩
  · obtain ⟨K, same, updated⟩ := attributed.total.split t i
    have next := updated ({.hand i s} + h t) (w.nodes i)
    rw [Function.update_eq_self] at next
    rw [Multiset.map_cons, same, ← Multiset.singleton_add, ← add_assoc, ← add_assoc]
    exact next
  · intro c here
    rcases Multiset.mem_cons.mp here with rfl | old
    · exact ⟨(i, s), by simp, Or.inr ⟨(i, s), List.mem_singleton_self _, [], .emitted⟩, rfl⟩
    · exact (attributed.copies c old).later prefixed
  · exact attributed.crossed.imp fun _ _ known => known.later prefixed
  · intro k past
    refine Or.inl ⟨?_, rfl⟩
    unfold left ranks
    rw [Multiset.filter_cons_of_neg _ (by simp only; omega)]

theorem Attributed.cross {t : NetTask ι} {i j : ι} {frame : Signal F} {s' : RuntimeState F}
    (attributed : net.Attributed h w N causes)
    (popped : NetState.popFrame (w.nodes i) (net j).identity.nodeId = some (frame, s')) :
    ∃ N' causes', net.Attributed (Function.update h t (net.arrivals j frame + h t))
      { w.setNode i s' with crossings := w.crossings ++ [⟨i, j, frame⟩] } N' causes' ∧
        RunsDown w { w.setNode i s' with crossings := w.crossings ++ [⟨i, j, frame⟩] } N N'
          causes causes' := by
  obtain ⟨K, total, updated⟩ := attributed.total.split t i
  obtain ⟨split, -⟩ := copiesAt_popFrame (i := i) popped
  have was : N.map Prod.fst =
      net.sent ⟨i, j, frame⟩ ::ₘ (h t + copiesAt i s' + K) := by
    rw [total, split, ← Multiset.singleton_add]
    unfold sent
    abel
  -- The frame bears the label of an emission.
  obtain ⟨⟨c, k⟩, inside, same⟩ := Multiset.mem_map.mp (was.symm ▸ Multiset.mem_cons_self _ _)
  obtain rfl : c = net.sent ⟨i, j, frame⟩ := same
  obtain ⟨N₀, rfl⟩ := Multiset.exists_cons_of_mem inside
  rw [Multiset.map_cons, Multiset.cons_inj_right] at was
  have born : ∀ c ∈ (net.arrivals j frame).map (fun c => (c, k)),
      Labelled net.Child c (net.sent ⟨i, j, frame⟩, k) := by
    intro c there
    obtain ⟨arrived, here, rfl⟩ := Multiset.mem_map.mp there
    refine ⟨?_, rfl⟩
    clear there
    unfold arrivals at here
    split at here
    · exact absurd here (Multiset.notMem_zero arrived)
    · rename_i relayed
      obtain rfl := Multiset.mem_singleton.mp here
      exact .crossed relayed
  have cause := attributed.copies _ inside
  refine ⟨(net.arrivals j frame).map (fun c => (c, k)) + N₀, causes ++ [k], ⟨?_, ?_, ?_⟩,
    List.prefix_refl _, List.prefix_append _ _, ?_⟩
  · have now : ((net.arrivals j frame).map (fun c => (c, k)) + N₀).map Prod.fst =
        net.arrivals j frame + h t + copiesAt i s' + K := by
      rw [Multiset.map_add, was, Multiset.map_map, add_assoc, add_assoc, add_assoc]
      exact congrArg (· + _) (Multiset.map_id _)
    rw [now]
    exact updated _ s'
  · intro c here
    rcases Multiset.mem_add.mp here with new | old
    · obtain ⟨child, label⟩ := born c new
      obtain ⟨e, known, comes⟩ := cause
      exact ⟨e, label ▸ known, comes.child child⟩
    · exact attributed.copies c (Multiset.mem_cons_of_mem old)
  · exact List.rel_append attributed.crossed (.cons cause .nil)
  · intro k' _
    by_cases same : k = k'
    · exact Or.inr (ranks_lt_of_replaced (labels_lower k') same born)
    · rcases left_evolved (Relation.ReflTransGen.single (.replace born)) k' with still | lower
      · refine Or.inl ⟨still, ?_⟩
        rw [List.count_append, List.count_singleton, if_neg (by simpa using same), add_zero]
      · exact Or.inr lower

theorem NetMove.runsDown {t : NetTask ι} {l : Multiset (Copy ι F)}
    (move : net.NetMove (h t) w l w') (attributed : net.Attributed h w N causes) :
    ∃ N' causes', net.Attributed (Function.update h t l) w' N' causes' ∧
      RunsDown w w' N N' causes causes' := by
  generalize before : h t = l₀ at move
  cases move with
  | still =>
    rw [← before, Function.update_eq_self]
    obtain ⟨N', next⟩ := attributed.evolve rfl rfl (Evolves.refl _) attributed.total
    exact ⟨N', causes, next⟩
  | @node i _ _ _ s' move =>
    obtain ⟨K, same, updated⟩ := attributed.total.split t i
    have step := move.evolves.add_right K
    rw [← before, ← same] at step
    have next : ∃ N', net.Attributed (Function.update h t l) (w.setNode i s') N' causes ∧
        RunsDown w (w.setNode i s') N N' causes causes :=
      attributed.evolve rfl rfl step (updated l s')
    obtain ⟨N', next⟩ := next
    exact ⟨N', causes, next⟩
  | emission =>
    rw [← before]
    obtain ⟨N', next⟩ := attributed.emit
    exact ⟨N', causes, next⟩
  | crossing popped =>
    rw [← before]
    exact attributed.cross popped

omit [DecidableEq ι] in
theorem Attributed.outside (attributed : net.Attributed h w N causes)
    (change : NetOutside w w') :
    ∃ N', net.Attributed h w' N' causes ∧ RunsDown w w' N N' causes causes := by
  obtain ⟨T, none, total⟩ := attributed.total
  refine attributed.evolve change.emissions change.crossings (Evolves.of_le ?_) ⟨T, none, rfl⟩
  rw [total]
  exact add_le_add le_rfl (Finset.sum_le_sum fun i _ => copiesAt_outside (change.nodes i))

end Totals

structure Endless (net : Network ι F) (P : ℕ → NetPool ι F) : Prop where
  start : Deployed (P 0)
  steps : ∀ n, net.Step (P n) (P (n + 1))

theorem Run.endless {P₀ P : NetPool ι F} (start : Deployed P₀) (run : net.Run P₀ P) :
    ∃ Q : ℕ → NetPool ι F, net.Endless Q ∧ ∃ n, Q n = P := by
  have waits : ∀ P : NetPool ι F, net.Step P P := fun P =>
    .outside (s := P.state) (NetOutside.refl P.state)
  suffices reach : ∃ Q : ℕ → NetPool ι F, Q 0 = P₀ ∧ (∀ n, net.Step (Q n) (Q (n + 1))) ∧
      ∃ n, ∀ m, n ≤ m → Q m = P by
    obtain ⟨Q, first, steps, n, last⟩ := reach
    exact ⟨Q, ⟨first ▸ start, steps⟩, n, last n le_rfl⟩
  induction run with
  | refl => exact ⟨fun _ => P₀, rfl, fun _ => waits P₀, 0, fun _ _ => rfl⟩
  | @step P P' _ step _ ih =>
    obtain ⟨Q, first, steps, n, last⟩ := ih
    refine ⟨fun m => if m ≤ n then Q m else P', (if_pos n.zero_le).trans first, fun m => ?_,
      n + 1, fun m later => if_neg (by omega)⟩
    dsimp only
    by_cases before : m + 1 ≤ n
    · rw [if_pos before, if_pos (by omega)]
      exact steps m
    · rw [if_neg before]
      by_cases now : m ≤ n
      · rw [if_pos now, last m (by omega)]
        exact step
      · rw [if_neg now]
        exact waits P'

variable [Fintype ι]

omit [DecidableEq ι] in
theorem Attributed.initial {P : NetPool ι F} (start : Deployed P) :
    net.Attributed (fun _ => 0) P.state 0 [] := by
  refine ⟨⟨∅, fun _ _ => rfl, ?_⟩, fun c here => absurd here (Multiset.notMem_zero c), ?_⟩
  · rw [Finset.sum_empty, zero_add]
    exact (Finset.sum_eq_zero fun i _ => copiesAt_deployed start i).symm
  · rw [start.crossings]
    exact .nil

/-- What is known after each step of a run: which copies there are, and where they come from. -/
structure Ghost (ι F : Type) where
  held : NetTask ι → Multiset (Copy ι F)
  copies : Multiset (Copy ι F × ℕ)
  causes : List ℕ

structure Ghost.Of (net : Network ι F) (P : NetPool ι F) (g : Ghost ι F) : Prop where
  past : net.History g.held P.state
  obeys : ∀ t, (P.task t).ObeysUnder net.AllHeld net.NetMove (fun _ => True)
    (fun _ _ => True) (g.held t)
  attributed : net.Attributed g.held P.state g.copies g.causes

theorem Attributed.tracks {h h' : NetTask ι → Multiset (Copy ι F)} {w w' : NetState ι F}
    {N : Multiset (Copy ι F × ℕ)} {causes : List ℕ}
    (tracks : Pool.Tracks NetOutside net.NetMove h w h' w')
    (attributed : net.Attributed h w N causes) : ∃ N' causes',
      net.Attributed h' w' N' causes' ∧ RunsDown w w' N N' causes causes' := by
  cases tracks with
  | start =>
    obtain ⟨N', next⟩ := attributed.outside (NetOutside.refl w)
    exact ⟨N', causes, next⟩
  | move moved => exact moved.runsDown attributed
  | outside change =>
    obtain ⟨N', next⟩ := attributed.outside change
    exact ⟨N', causes, next⟩

theorem Ghost.Of.step {P P' : NetPool ι F} {g : Ghost ι F} (known : g.Of net P)
    (step : net.Step P P') : ∃ g' : Ghost ι F, g'.Of net P' ∧
      RunsDown P.state P'.state g.copies g'.copies g.causes g'.causes := by
  obtain ⟨held, tracks, past, obeys⟩ :=
    Pool.Step.tracks (history_inductive net) known.past known.obeys step trivial
  obtain ⟨copies, causes, attributed, down⟩ := Attributed.tracks tracks known.attributed
  exact ⟨⟨held, copies, causes⟩, ⟨past, obeys, attributed⟩, down⟩

omit [Fintype ι] in
/-- Every crossing is put down for good to an emission that it comes of, and only finitely many
crossings to each emission. -/
def DieOut (net : Network ι F) (P : ℕ → NetPool ι F) : Prop :=
  ∃ causes : ℕ → List ℕ, (∀ n, causes n <+: causes (n + 1)) ∧
    (∀ n, List.Forall₂ (fun x k => Emitted (P n).state k fun e => net.ComesOf e (net.sent x))
      (P n).state.crossings (causes n)) ∧
    ∀ k, ∃ bound, ∀ n, (causes n).count k ≤ bound

/-- No copy crosses more links than its signal was emitted with hops, or than one more than the
nodes on its path accept, and every emission dies out. -/
theorem emissions_die_out {P : ℕ → NetPool ι F} (endless : net.Endless P) :
    (∀ (e : ι × Signal F) (senders : List ι) (i : ι) (peer : NodeId) (s : Signal F),
      net.Lineage e.1 e.2 senders (.frame i peer s) →
        senders.length ≤ min e.2.ttl (1 + net.mostAccepted senders)) ∧ net.DieOut P := by
  refine ⟨fun e senders i peer s lineage => lineage.links_le, ?_⟩
  have begins : Ghost.Of net (P 0) ⟨fun _ => 0, 0, []⟩ :=
    ⟨.initial endless.start, endless.start.idle.obeysUnder fun _ => trivial,
      .initial endless.start⟩
  obtain ⟨g, -, known⟩ := exists_sequence (I := fun n g => Ghost.Of net (P n) g)
    (R := fun n g g' => RunsDown (P n).state (P (n + 1)).state g.copies g'.copies g.causes g'.causes)
    begins fun n g known => known.step (endless.steps n)
  have grows : ∀ n, (g n).causes <+: (g (n + 1)).causes := fun n => (known n).2.known
  refine ⟨fun n => (g n).causes, grows, fun n => (known n).1.attributed.crossed, fun k => ?_⟩
  by_cases ever : ∃ n, k < (P n).state.emissions.length
  · -- From its emission on, every crossing put down to it leaves less to happen.
    obtain ⟨start, emitted⟩ := ever
    have later : ∀ n, start ≤ n → k < (P n).state.emissions.length := by
      intro n after
      induction n, after using Nat.le_induction with
      | base => exact emitted
      | succ n _ ih => exact ih.trans_le (known n).2.emissions.length_le
    refine bounded_of_running_down (fun n m => left k (g n).copies = m)
      Multiset.wellFounded_isDershowitzMannaLT
      (monotone_nat_of_le_succ fun n => (grows n).sublist.count_le k) (fun n after m now => ?_)
      (rfl : left k (g start).copies = _)
    refine ⟨left k (g (n + 1)).copies, rfl, ?_⟩
    rw [← now]
    exact (known n).2.lower k (later n after)
  · refine ⟨0, fun n => Nat.le_zero.mpr (List.count_eq_zero.mpr fun here => ?_)⟩
    exact ever ⟨n, (known n).1.attributed.cause_lt k here⟩

theorem kite_flood_dies_out : ∃ P : ℕ → NetPool (Fin 4) ℚ, (edgeNetwork 4).Endless P ∧
    (∃ n, (P n).state.crossings.length = 3) ∧
    (∀ (e : Fin 4 × Signal ℚ) (senders : List (Fin 4)) (i : Fin 4) (peer : NodeId) (s : Signal ℚ),
      (edgeNetwork 4).Lineage e.1 e.2 senders (.frame i peer s) →
        senders.length ≤ min e.2.ttl (1 + (edgeNetwork 4).mostAccepted senders)) ∧
      (edgeNetwork 4).DieOut P := by
  obtain ⟨Q, run, -, state⟩ := reaches_after kite kiteFlood kiteFlood_offered
  obtain ⟨P, endless, n, reached⟩ := Run.endless (wired_deployed kite) run
  refine ⟨P, endless, ⟨n, ?_⟩, emissions_die_out endless⟩
  rw [reached, state]
  decide +kernel

end Network
end OpenNtl
