import OpenNtl.Runtime

/-! # The copies of a signal in a network

A copy is a frame queued for a peer, a frame handed to a node, or a body that a node has
accepted. A lineage says which nodes have sent a copy on since its emission, newest first, so its
length is the number of links the copy has crossed, a queued frame's next link included.
-/
namespace OpenNtl

variable {ι F : Type}

abbrev Network (ι F : Type) := ι → Runtime F

inductive Copy (ι F : Type) where
  | frame (node : ι) (peer : NodeId) (signal : Signal F)
  | hand (node : ι) (signal : Signal F)
  | body (node : ι) (signal : Signal F)
  /-- A receipt that may still be sent about a signal. -/
  | duty (node : ι) (id : SignalId)

def Signal.subject (s : Signal F) : SignalId :=
  if s.signalType = .receipt then s.correlationId.getD s.id else s.id

namespace Copy

def subject : Copy ι F → SignalId
  | .frame _ _ s | .hand _ s | .body _ s => s.subject
  | .duty _ id => id

def rank : Copy ι F → ℕ
  | .frame _ _ s => if s.signalType = .receipt then 0 else 3 * s.ttl + 4
  | .hand _ s => 3 * s.ttl + 3
  | .body _ s => 3 * s.ttl + 2
  | .duty _ _ => 1

def node : Copy ι F → ι
  | .frame i _ _ | .hand i _ | .body i _ | .duty i _ => i

def Meets (P Q : Signal F → Prop) : Copy ι F → Prop
  | .frame _ _ s => P s
  | .hand _ s | .body _ s => Q s
  | .duty _ _ => True

def Carries (P : Signal F → Prop) (c : Copy ι F) : Prop := c.Meets P P

end Copy

variable [Scalar F]

namespace Network

variable (net : Network ι F)

def arriving (j : ι) (s : Signal F) : Signal F :=
  (clampInboundHeaders s (net j).node.config.propagation).2

def Accepts (i : ι) (s : Signal F) : Prop :=
  checkPropagable s (net i).node.identity (net i).node.config.propagation = .ok ()

inductive Child : Copy ι F → Copy ι F → Prop
  | crossed {i j : ι} {s : Signal F} (relayed : s.signalType ≠ .receipt) :
      Child (.hand j (net.arriving j s)) (.frame i (net j).identity.nodeId s)
  | accepted {i : ι} {s : Signal F} (accepts : net.Accepts i s) : Child (.body i s) (.hand i s)
  | forwarded {i : ι} {peer : NodeId} {s : Signal F} (accepts : net.Accepts i s)
      (onward : floodDepthReached s = false) :
      Child (.frame i peer ((net i).outbound s)) (.body i s)
  | refused {i : ι} {s : Signal F} (relayed : s.signalType ≠ .receipt) :
      Child (.duty i s.id) (.hand i s)
  | finished {i : ι} {s : Signal F} (relayed : s.signalType ≠ .receipt) :
      Child (.duty i s.id) (.body i s)
  | answered {i : ι} {peer : NodeId} {id : SignalId} {s : Signal F}
      (receipt : s.signalType = .receipt) (about : s.correlationId = some id) :
      Child (.frame i peer s) (.duty i id)

/-- The copies of the signal `s₀` that node `origin` emits, each with the nodes that have sent it
on. -/
inductive Lineage (origin : ι) (s₀ : Signal F) : List ι → Copy ι F → Prop
  | emitted : Lineage origin s₀ [] (.hand origin s₀)
  | accepted {senders : List ι} {i : ι} {s : Signal F}
      (before : Lineage origin s₀ senders (.hand i s)) (accepts : net.Accepts i s) :
      Lineage origin s₀ senders (.body i s)
  | forwarded {senders : List ι} {i : ι} {peer : NodeId} {s : Signal F}
      (before : Lineage origin s₀ senders (.body i s)) (accepts : net.Accepts i s)
      (onward : floodDepthReached s = false) :
      Lineage origin s₀ (i :: senders) (.frame i peer ((net i).outbound s))
  | crossed {senders : List ι} {i j : ι} {s : Signal F}
      (before : Lineage origin s₀ senders (.frame i (net j).identity.nodeId s)) :
      Lineage origin s₀ senders (.hand j (net.arriving j s))

variable {net}

theorem arriving_ttl (j : ι) (s : Signal F) : (net.arriving j s).ttl =
    min s.ttl (net j).node.config.propagation.maxAcceptedTtl := by
  unfold arriving clampInboundHeaders
  dsimp only
  split
  · rename_i more
    rw [decide_eq_true_eq] at more
    exact (min_eq_right more.le).symm
  · rename_i less
    rw [decide_eq_true_eq] at less
    exact (min_eq_left (Nat.le_of_not_lt less)).symm

theorem outbound_ttl (i : ι) (s : Signal F) : ((net i).outbound s).ttl = s.ttl - 1 := rfl

theorem outbound_trace (i : ι) (s : Signal F) : ((net i).outbound s).trace =
    if s.trace.length < 64 then s.trace ++ [(net i).identity.nodeId] else s.trace := rfl

/-- A hop changes nothing that the origin has signed. -/
structure SameSigned (s t : Signal F) : Prop where
  id : s.id = t.id
  signalType : s.signalType = t.signalType
  scope : s.scope = t.scope
  correlationId : s.correlationId = t.correlationId

theorem sameSigned {s t : Signal F} (same : s.unsigned = t.unsigned) : SameSigned s t :=
  ⟨(congrArg Signal.id same :), (congrArg Signal.signalType same :),
    (congrArg Signal.scope same :), (congrArg Signal.correlationId same :)⟩

theorem subject_of_unsigned {s t : Signal F} (same : s.unsigned = t.unsigned) :
    s.subject = t.subject := by
  have signed := sameSigned same
  unfold Signal.subject
  rw [signed.signalType, signed.id, signed.correlationId]

theorem Accepts.ttl_pos {i : ι} {s : Signal F} (accepts : net.Accepts i s) : 0 < s.ttl := by
  unfold Accepts checkPropagable at accepts
  by_contra none
  rw [if_pos (by omega)] at accepts
  cases accepts

theorem Child.subject {c c' : Copy ι F} (child : net.Child c' c) : c'.subject = c.subject := by
  cases child with
  | crossed => exact subject_of_unsigned rfl
  | accepted => rfl
  | forwarded => exact subject_of_unsigned rfl
  | refused relayed => exact (if_neg relayed).symm
  | finished relayed => exact (if_neg relayed).symm
  | answered receipt about =>
    refine (if_pos receipt).trans ?_
    rw [about]
    rfl

theorem Child.rank_lt {c c' : Copy ι F} (child : net.Child c' c) : c'.rank < c.rank := by
  cases child with
  | @crossed i j s relayed =>
    have less : (net.arriving j s).ttl ≤ s.ttl := by
      rw [arriving_ttl]
      exact min_le_left _ _
    simp only [Copy.rank, if_neg relayed]
    omega
  | accepted => exact Nat.lt_succ_self _
  | @forwarded i peer s accepts =>
    have pos := accepts.ttl_pos
    simp only [Copy.rank, outbound_ttl]
    split
    · omega
    · omega
  | refused =>
    simp only [Copy.rank]
    omega
  | finished =>
    simp only [Copy.rank]
    omega
  | answered receipt =>
    simp only [Copy.rank, if_pos receipt]
    exact Nat.zero_lt_one

namespace Lineage

variable {origin : ι} {s₀ : Signal F} {R : ι → Prop} {P Q : List ι → Signal F → Prop}

theorem meets (start : Q [] s₀)
    (sent : ∀ senders i s, R i → net.Accepts i s → floodDepthReached s = false → Q senders s →
      P (i :: senders) ((net i).outbound s))
    (arrives : ∀ senders j s, R j → P senders s → Q senders (net.arriving j s))
    {senders : List ι} {c : Copy ι F} (lineage : net.Lineage origin s₀ senders c)
    (along : ∀ k ∈ c.node :: senders, R k) : c.Meets (P senders) (Q senders) := by
  induction lineage with
  | emitted => exact start
  | accepted _ _ ih => exact ih along
  | @forwarded senders i peer s _ accepts onward ih =>
    have before := ih fun k hk => along k (List.mem_cons_of_mem _ hk)
    exact sent senders i s (along i List.mem_cons_self) accepts onward before
  | @crossed senders i j s before ih =>
    -- The node that sent the frame is among the senders.
    have sender : i ∈ senders := by
      cases before
      exact List.mem_cons_self
    have sent := ih fun k hk => by
      rcases List.mem_cons.mp hk with rfl | hk
      · exact along _ (List.mem_cons_of_mem _ sender)
      · exact along k (List.mem_cons_of_mem _ hk)
    exact arrives senders j s (along j List.mem_cons_self) sent

variable {senders : List ι} {c : Copy ι F}

theorem holds {P : List ι → Signal F → Prop} (start : P [] s₀)
    (sent : ∀ senders i s, net.Accepts i s → floodDepthReached s = false → P senders s →
      P (i :: senders) ((net i).outbound s))
    (arrives : ∀ senders j s, P senders s → P senders (net.arriving j s))
    (lineage : net.Lineage origin s₀ senders c) : c.Carries (P senders) := by
  refine lineage.meets (R := fun _ => True) start (fun senders i s _ => sent senders i s)
    (fun senders j s _ => arrives senders j s) fun _ _ => trivial

theorem unsigned (lineage : net.Lineage origin s₀ senders c) :
    c.Carries fun s => s.unsigned = s₀.unsigned :=
  lineage.holds (P := fun _ s => s.unsigned = s₀.unsigned) rfl (fun _ _ _ _ _ same => same) fun _ _ _ same => same

theorem trace_length (fresh : s₀.trace = []) (lineage : net.Lineage origin s₀ senders c) :
    c.Carries fun s => s.trace.length = min senders.length 64 := by
  refine lineage.holds (P := fun senders s => s.trace.length = min senders.length 64)
    (by simp [fresh]) (fun senders i s _ _ traced => ?_)
    fun senders j s traced => traced
  rw [outbound_trace]
  by_cases room : s.trace.length < 64
  · rw [if_pos room, List.length_append, List.length_singleton, List.length_cons]
    omega
  · rw [if_neg room, List.length_cons]
    omega

theorem ttl_add_links (lineage : net.Lineage origin s₀ senders c) :
    c.Carries fun s => s.ttl + senders.length ≤ s₀.ttl := by
  refine lineage.holds (P := fun senders s => s.ttl + senders.length ≤ s₀.ttl) (by simp)
    (fun senders i s accepts _ left => ?_) fun senders j s left => ?_
  · have pos := accepts.ttl_pos
    rw [outbound_ttl, List.length_cons]
    omega
  · rw [arriving_ttl]
    omega

theorem ttl_le_accepted {M : ℕ} (lineage : net.Lineage origin s₀ senders c)
    (along : ∀ k ∈ c.node :: senders, (net k).node.config.propagation.maxAcceptedTtl ≤ M) :
    c.Meets (fun s => senders.length ≤ 1 ∨ s.ttl + senders.length ≤ M + 1)
      fun s => senders = [] ∨ s.ttl + senders.length ≤ M + 1 := by
  refine lineage.meets (P := fun senders s => senders.length ≤ 1 ∨ s.ttl + senders.length ≤ M + 1)
    (Q := fun senders s => senders = [] ∨ s.ttl + senders.length ≤ M + 1)
    (Or.inl rfl) (fun senders i s _ accepts _ before => ?_) (fun senders j s most before => ?_) along
  · have pos := accepts.ttl_pos
    rw [outbound_ttl, List.length_cons]
    rcases before with rfl | left
    · exact Or.inl le_rfl
    · exact Or.inr (by omega)
  · rw [arriving_ttl]
    rcases before with short | left
    · exact Or.inr (by omega)
    · exact Or.inr (by omega)

/-- Where every node accepts as many hops as the signal has, each link costs exactly one. -/
theorem ttl_eq (lineage : net.Lineage origin s₀ senders c)
    (along : ∀ k ∈ c.node :: senders,
      s₀.ttl ≤ (net k).node.config.propagation.maxAcceptedTtl) :
    c.Carries fun s => s.ttl + senders.length = s₀.ttl := by
  refine lineage.meets (P := fun senders s => s.ttl + senders.length = s₀.ttl)
    (Q := fun senders s => s.ttl + senders.length = s₀.ttl)
    (by simp) (fun senders i s _ accepts _ left => ?_) (fun senders j s enough left => ?_) along
  · have pos := accepts.ttl_pos
    rw [outbound_ttl, List.length_cons]
    omega
  · rw [arriving_ttl]
    omega

end Lineage
end Network
end OpenNtl
