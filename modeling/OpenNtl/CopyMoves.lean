import OpenNtl.Descent
import OpenNtl.Network
import Mathlib.Algebra.Order.Group.Multiset

/-! # What a runtime does with copies

Every step of a node's programs turns copies into children of theirs, or lets copies go. A task's
ghost value holds the copies it has in hand.
-/
namespace OpenNtl

open AtomicProgram Descent NodeM RuntimeM

namespace HashMap

variable {κ ν α : Type}

def contents (f : κ → ν → Multiset α) (m : HashMap κ ν) : Multiset α :=
  (m.entries.map fun e => f e.1 e.2).sum

variable {f : κ → ν → Multiset α} {m : HashMap κ ν} {k : κ} {v : ν}

variable [DecidableEq κ]

theorem contents_insert : contents f (m.insert k v) = f k v + contents f (m.erase k) := rfl

theorem contents_of_lookup (found : m.lookup k = some v) :
    contents f m = f k v + contents f (m.erase k) := by
  unfold AList.lookup at found
  unfold contents AList.erase
  dsimp only
  generalize m.entries = es at found ⊢
  induction es with
  | nil => cases found
  | cons e es ih =>
    by_cases same : k = e.1
    · obtain ⟨k', v'⟩ := e
      obtain rfl : k = k' := same
      rw [List.dlookup_cons_eq] at found
      cases found
      have gone : List.kerase k ((⟨k, v⟩ : Σ _ : κ, ν) :: es) = es := List.kerase_cons_eq rfl
      rw [gone, List.map_cons, List.sum_cons]
    · rw [List.dlookup_cons_ne _ _ same] at found
      rw [List.kerase_cons_ne same, List.map_cons, List.map_cons, List.sum_cons, List.sum_cons,
        ih found, add_left_comm]

theorem contents_erase_le : contents f (m.erase k) ≤ contents f m := by
  cases found : m.lookup k with
  | some v =>
    rw [contents_of_lookup found]
    exact Multiset.le_add_left _ _
  | none =>
    have absent := List.dlookup_eq_none.mp found
    have same : m.erase k = m := AList.ext (List.kerase_of_notMem_keys absent)
    rw [same]

theorem contents_replace {v' : ν} {extra : Multiset α} (found : m.lookup k = some v)
    (more : f k v' = f k v + extra) : contents f (m.insert k v') = contents f m + extra := by
  rw [contents_insert, contents_of_lookup found, more]
  exact add_right_comm _ _ _

theorem contents_le {m' : HashMap κ ν}
    (less : ∀ k v', m'.lookup k = some v' →
      f k v' = 0 ∨ ∃ v, m.lookup k = some v ∧ f k v' ≤ f k v) :
    contents f m' ≤ contents f m := by
  obtain ⟨es, nodup⟩ := m'
  induction es generalizing m with
  | nil => exact Multiset.zero_le _
  | cons e es ih =>
    obtain ⟨k, v'⟩ := e
    obtain ⟨fresh, rest⟩ := List.nodupKeys_cons.mp nodup
    have other : ∀ {k₁ v₁}, (⟨es, rest⟩ : HashMap κ ν).lookup k₁ = some v₁ → k₁ ≠ k := by
      intro k₁ v₁ found same
      have isIn : (es.dlookup k₁).isSome := by
        rw [show es.dlookup k₁ = some v₁ from found]
        rfl
      exact fresh (same ▸ List.dlookup_isSome.mp isIn)
    have below : ∀ k₁ v₁, (⟨es, rest⟩ : HashMap κ ν).lookup k₁ = some v₁ →
        f k₁ v₁ = 0 ∨ ∃ v, m.lookup k₁ = some v ∧ f k₁ v₁ ≤ f k₁ v := by
      intro k₁ v₁ found
      refine less k₁ v₁ ?_
      exact (List.dlookup_cons_ne es ⟨k, v'⟩ (other found)).trans found
    have split : contents f (⟨⟨k, v'⟩ :: es, nodup⟩ : HashMap κ ν) =
        f k v' + contents f (⟨es, rest⟩ : HashMap κ ν) := rfl
    rw [split]
    rcases less k v' (List.dlookup_cons_eq es k v') with none | ⟨v, found, here⟩
    · rw [none, zero_add]
      exact ih rest below
    · rw [contents_of_lookup found]
      refine add_le_add here (ih rest fun k₁ v₁ there => ?_)
      rw [AList.lookup_erase_ne (other there)]
      exact below k₁ v₁ there
end HashMap

variable {ι F : Type} [Scalar F]

def framesAt (i : ι) (sessions : HashMap NodeId (Session F)) : Multiset (Copy ι F) :=
  HashMap.contents (fun peer session => Multiset.ofList (session.outbound.map (Copy.frame i peer)))
    sessions

def bodiesAt (i : ι) (pending : HashMap SignalId (Signal F)) : Multiset (Copy ι F) :=
  HashMap.contents (fun _ body => {Copy.body i body}) pending

def dutiesAt (i : ι) (queue : List (QueuedSignal F)) : Multiset (Copy ι F) :=
  Multiset.ofList (queue.map fun q => Copy.duty i q.id)

/-- What is queued for peers, what the body cache holds, and what waits at the gate. -/
def copiesAt (i : ι) (s : RuntimeState F) : Multiset (Copy ι F) :=
  framesAt i s.sessions + bodiesAt i s.pending + dutiesAt i s.node.activation.queue

namespace Network

variable (net : Network ι F) (i : ι)

/-- A body that node `i` may hold. -/
structure Holds (s : Signal F) : Prop where
  accepts : net.Accepts i s
  relayed : s.signalType ≠ .receipt

def BodiesHeld (s : RuntimeState F) : Prop :=
  ∀ id body, s.pending.lookup id = some body → net.Holds i body ∧ body.id = id

/-- What one step of node `i` may do to the copies in hand and those the node holds. -/
structure CopyMove (l : Multiset (Copy ι F)) (s : RuntimeState F) (l' : Multiset (Copy ι F))
    (s' : RuntimeState F) : Prop where
  evolves : Evolves net.Child (l + copiesAt i s) (l' + copiesAt i s')
  held : net.BodiesHeld i s'

/-- With the copies `need` in hand, the program runs, and leaves an answer of which `R` holds and
the copies `gain` in hand. -/
def Yields {α : Type} (need : Multiset (Copy ι F)) (p : RuntimeM F α) (R : α → Prop)
    (gain : α → Multiset (Copy ι F)) : Prop :=
  ∀ K l, Evolves net.Child l (need + K) →
    p.ObeysUnder (net.BodiesHeld i) (net.CopyMove i) (fun _ => True)
      (fun a l' => R a ∧ Evolves net.Child l' (gain a + K)) l

/-- The same, with no copies left and nothing known of the answer. -/
def Spends {α : Type} (need : Multiset (Copy ι F)) (p : RuntimeM F α) : Prop :=
  net.Yields i need p (fun _ => True) fun _ => 0

variable {net i}

namespace Yields

variable {α β γ : Type} {need : Multiset (Copy ι F)} {R : α → Prop}
  {gain : α → Multiset (Copy ι F)} {p : RuntimeM F α}

theorem pure {a : α} (holds : R a) (enough : Evolves net.Child need (gain a)) :
    net.Yields i need (Pure.pure a) R gain :=
  fun K _ hand => ⟨holds, hand.trans (enough.add_right K)⟩

theorem throw (e : RuntimeError) : net.Yields i need (.throw e) R gain := fun _ _ _ => trivial

theorem bind {S : β → Prop} {gain' : β → Multiset (Copy ι F)} {f : α → RuntimeM F β}
    (hp : net.Yields i need p R gain) (hf : ∀ a, R a → net.Yields i (gain a) (f a) S gain') :
    net.Yields i need (p >>= f) S gain' :=
  fun K l hand => (hp K l hand).bind fun a l' known => hf a known.1 K l' known.2

theorem mono {S : α → Prop} {need' : Multiset (Copy ι F)} {gain' : α → Multiset (Copy ι F)}
    (hp : net.Yields i need p R gain) (more : Evolves net.Child need' need)
    (sub : ∀ a, R a → S a) (less : ∀ a, R a → Evolves net.Child (gain a) (gain' a)) :
    net.Yields i need' p S gain' :=
  fun K l hand => (hp K l (hand.trans (more.add_right K))).mono fun a _ known =>
    ⟨sub a known.1, known.2.trans ((less a known.1).add_right K)⟩

theorem frame (hp : net.Yields i need p R gain) (extra : Multiset (Copy ι F)) :
    net.Yields i (need + extra) p R fun a => gain a + extra := by
  intro K l hand
  rw [add_assoc] at hand
  refine (hp (extra + K) l hand).mono fun a l' known => ⟨known.1, ?_⟩
  rw [add_assoc]
  exact known.2

theorem keeping (hp : net.Yields i 0 p R fun _ => 0) (need : Multiset (Copy ι F)) :
    net.Yields i need p R fun _ => need := by
  have both := hp.frame need
  rwa [zero_add] at both

theorem act {f : RuntimeState F → α × RuntimeState F}
    (h : ∀ s, net.BodiesHeld i s → R (f s).1 ∧ net.BodiesHeld i (f s).2 ∧
      Evolves net.Child (need + copiesAt i s) (gain (f s).1 + copiesAt i (f s).2)) :
    net.Yields i need (.act f) R gain := by
  intro K l hand
  refine Prog.ObeysUnder.of_act fun s held => ?_
  obtain ⟨known, held', step⟩ := h s held
  refine ⟨gain (f s).1 + K, ⟨?_, held'⟩, known, Evolves.refl _⟩
  refine (hand.add_right _).trans ?_
  rw [add_right_comm, add_right_comm (gain (f s).1)]
  exact step.add_right K

end Yields

namespace Spends

variable {α β γ : Type} {need : Multiset (Copy ι F)}

theorem pure (a : α) : net.Spends i need (Pure.pure a) :=
  Yields.pure trivial (Evolves.of_le (Multiset.zero_le need))

theorem bind {p : RuntimeM F α} {f : α → RuntimeM F β} {later : Multiset (Copy ι F)}
    (hp : net.Spends i need p) (hf : ∀ a, net.Spends i later (f a)) :
    net.Spends i (need + later) (p >>= f) := by
  refine (hp.frame later).bind fun a _ => ?_
  rw [zero_add]
  exact hf a

theorem before {p : RuntimeM F α} {f : α → RuntimeM F β}
    (hp : net.Spends i 0 p) (hf : ∀ a, net.Spends i need (f a)) :
    net.Spends i need (p >>= f) := by
  have both := hp.bind hf
  rwa [zero_add] at both

theorem after {p : RuntimeM F α} {f : α → RuntimeM F β}
    (hp : net.Spends i need p) (hf : ∀ a, net.Spends i 0 (f a)) :
    net.Spends i need (p >>= f) := by
  have both := hp.bind hf
  rwa [add_zero] at both

theorem more {p : RuntimeM F α} (hp : net.Spends i 0 p) : net.Spends i need p :=
  hp.mono (Evolves.of_le (Multiset.zero_le need)) (fun _ => id) fun _ _ => Evolves.refl _

theorem forM {f : γ → RuntimeM F PUnit} {cost : γ → Multiset (Copy ι F)} {xs : List γ}
    (hf : ∀ x ∈ xs, net.Spends i (cost x) (f x)) :
    net.Spends i (xs.map cost).sum (xs.forM f) := by
  induction xs with
  | nil => exact pure _
  | cons x xs ih =>
    rw [List.map_cons, List.sum_cons]
    exact (hf x List.mem_cons_self).bind fun _ =>
      ih fun y hy => hf y (List.mem_cons_of_mem x hy)

theorem each {f : γ → RuntimeM F PUnit} {xs : List γ}
    (hf : ∀ x ∈ xs, net.Spends i 0 (f x)) : net.Spends i 0 (xs.forM f) := by
  have none : net.Spends i (xs.map fun _ => (0 : Multiset (Copy ι F))).sum (xs.forM f) := forM hf
  have zero : (xs.map fun _ => (0 : Multiset (Copy ι F))).sum = 0 :=
    List.sum_eq_zero fun c here => by
      obtain ⟨x, -, rfl⟩ := List.mem_map.mp here
      rfl
  rwa [zero] at none

theorem optional {f : γ → RuntimeM F PUnit} {cost : γ → Multiset (Copy ι F)} {o : Option γ}
    (hf : ∀ x, o = some x → net.Spends i (cost x) (f x)) :
    net.Spends i (o.elim 0 cost) (o.forM f) := by
  cases o with
  | none => exact pure _
  | some x => exact hf x rfl

theorem still {f : RuntimeState F → α × RuntimeState F}
    (sessions : ∀ s, (f s).2.sessions = s.sessions) (pending : ∀ s, (f s).2.pending = s.pending)
    (queue : ∀ s, (f s).2.node.activation.queue = s.node.activation.queue) :
    net.Spends i 0 (.act f) := by
  refine Yields.act fun s held => ⟨trivial, ?_, ?_⟩
  · unfold BodiesHeld
    rw [pending]
    exact held
  · unfold copiesAt
    rw [sessions, pending, queue]
    exact Evolves.refl _

theorem notify (e : Event F) : net.Spends i 0 (RuntimeM.notify e) :=
  still (fun _ => rfl) (fun _ => rfl) fun _ => rfl

/-- A call into the node that leaves the gate alone, and what is known of its answer. -/
theorem callNode_knows {p : NodeM F α} {R : Except NodeError α → Prop} (hp : p.Within SameGate)
    (known : ∀ s, R (p.run s).1) :
    net.Yields i 0 (RuntimeM.callNode p) R fun _ => 0 := by
  refine Yields.act fun s held => ⟨known s.node, held, ?_⟩
  have same : SameGate s.node (p.run s.node).2 :=
    hp.run SameGate.refl (fun hs ht => SameGate.trans hs ht) s.node
  have queue := congrArg ActivationState.queue same
  unfold copiesAt
  dsimp only
  rw [queue]
  exact Evolves.refl _

theorem callNode {p : NodeM F α} (hp : p.Within SameGate) :
    net.Spends i 0 (RuntimeM.callNode p) := callNode_knows hp fun _ => trivial

end Spends
end Network

omit [Scalar F] in
theorem framesAt_trySendTo (i : ι) (sessions : HashMap NodeId (Session F)) (peer : NodeId)
    (signal : Signal F) : framesAt i (trySendTo sessions peer signal).2 =
      framesAt i sessions + if (trySendTo sessions peer signal).1 then {.frame i peer signal}
        else 0 := by
  unfold trySendTo
  cases found : sessions.lookup peer with
  | none => exact (add_zero _).symm
  | some session =>
    cases taken : session.trySend signal with
    | none =>
      simp only [Option.bind_some, taken]
      exact (add_zero _).symm
    | some session' =>
      have after : session'.outbound = session.outbound ++ [signal] := by
        unfold Session.trySend at taken
        split at taken
        · cases taken
        · cases taken
          rfl
      simp only [Option.bind_some, taken, if_true]
      refine HashMap.contents_replace found ?_
      rw [after, List.map_append, ← Multiset.coe_add]
      rfl

def framesFor (i : ι) (signal : Signal F) (sent : List Forward) : Multiset (Copy ι F) :=
  Multiset.ofList (sent.map fun forward => .frame i forward.peer signal)

omit [Scalar F] in
theorem framesAt_sendAll (i : ι) (signal : Signal F) (forwards : List Forward)
    (sessions : HashMap NodeId (Session F)) :
    framesAt i (sendAll signal forwards sessions).2 =
      framesAt i sessions + framesFor i signal (sendAll signal forwards sessions).1.1 := by
  induction forwards generalizing sessions with
  | nil => exact (add_zero _).symm
  | cons forward rest ih =>
    have first := framesAt_trySendTo i sessions forward.peer signal
    simp only [sendAll]
    rw [ih, first, add_assoc]
    cases (trySendTo sessions forward.peer signal).1 with
    | true => rfl
    | false => exact congrArg _ (zero_add _)

omit [Scalar F] in
theorem sendAll_nil_sent {signal : Signal F} {forwards : List Forward}
    {sessions : HashMap NodeId (Session F)} {forward : Forward}
    (sent : forward ∈ (sendAll signal forwards sessions).1.1) : forwards ≠ [] := by
  rintro rfl
  cases sent

namespace Network

variable {net : Network ι F} {i : ι}

theorem relays {s : Signal F} (accepts : net.Accepts i s) {sent : List Forward}
    (onward : sent ≠ [] → floodDepthReached s = false) :
    ∀ c ∈ framesFor i ((net i).outbound s) sent, net.Child c (.body i s) := by
  intro c here
  obtain ⟨forward, there, rfl⟩ := List.mem_map.mp (Multiset.mem_coe.mp here)
  exact .forwarded accepts (onward (List.ne_nil_of_mem there))

theorem queues {need gain frames : Multiset (Copy ι F)} {s s' : RuntimeState F}
    (sessions : framesAt i s'.sessions = framesAt i s.sessions + frames)
    (pending : s'.pending = s.pending)
    (queue : s'.node.activation.queue = s.node.activation.queue)
    (step : Evolves net.Child need (gain + frames)) :
    Evolves net.Child (need + copiesAt i s) (gain + copiesAt i s') := by
  have same : gain + copiesAt i s' = gain + frames + copiesAt i s := by
    unfold copiesAt
    rw [sessions, pending, queue]
    abel
  rw [same]
  exact step.add_right _

end Network
end OpenNtl
