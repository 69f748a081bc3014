import OpenNtl.ReleaseTiming
import OpenNtl.SynapseWrites

/-! # The way back

An arrival is planned without the synapse it came in on. A later release finds that synapse by
the last entry of the trace, which the peer that sent the signal could write as it liked.
-/
namespace OpenNtl

open AtomicProgram NodeM RuntimeM

variable {F : Type} [Scalar F]

namespace Node

variable (node : Node F) (signal : Signal F) (arrival : Option SynapseId) (nowNs : ℕ)

def candidates (st : MemoryStore F) : List (Synapse F) :=
  if floodDepthReached signal then []
  else ((st.listSynapses .eligible).map (node.rehydrate nowNs)).filter
    (isEligible signal.scope arrival)

/-- A synapse that can carry the signal, were it not for where it came from. -/
def Suits (r : SynapseRecord F) : Prop :=
  floodDepthReached signal = false ∧ isEligible signal.scope none (node.rehydrate nowNs r) = true

variable {signal arrival nowNs}

theorem onward_candidate {st : MemoryStore F} {rng : Rng} {c : Chosen F}
    (chosen : c ∈ node.onward signal arrival nowNs st rng) :
    c.synapse ∈ node.candidates signal arrival nowNs st := by
  unfold onward at chosen
  unfold candidates
  by_cases deep : floodDepthReached signal = true
  · rw [if_pos deep] at chosen
    cases chosen
  · rw [if_neg deep] at chosen ⊢
    exact ((selectSynapses_spec _ _ _ _ _ _ _ _).taken.mem chosen).1

omit [Scalar F] in
theorem isEligible_from [Scalar F] (scope : PropagationScope F) (a : Option SynapseId)
    (s : Synapse F) :
    isEligible scope a s = true ↔ isEligible scope none s = true ∧ a ≠ some s.id := by
  rw [isEligible_iff, isEligible_iff]
  constructor
  · rintro ⟨carries, other, floor⟩
    exact ⟨⟨carries, by simp, floor⟩, other⟩
  · rintro ⟨⟨carries, -, floor⟩, other⟩
    exact ⟨carries, other, floor⟩

theorem mem_candidates {st : MemoryStore F} {s : Synapse F} :
    s ∈ node.candidates signal arrival nowNs st ↔ ∃ r ∈ st.listSynapses .eligible,
      node.Suits signal nowNs r ∧ arrival ≠ some r.id ∧ node.rehydrate nowNs r = s := by
  unfold candidates Suits
  cases floodDepthReached signal with
  | true => simp
  | false =>
    rw [if_neg Bool.false_ne_true, List.mem_filter, List.mem_map]
    constructor
    · rintro ⟨⟨r, listed, rfl⟩, carries⟩
      obtain ⟨suits, other⟩ := (isEligible_from _ _ _).mp carries
      exact ⟨r, listed, ⟨rfl, suits⟩, other, rfl⟩
    · rintro ⟨r, listed, ⟨-, suits⟩, other, rfl⟩
      exact ⟨⟨r, listed, rfl⟩, (isEligible_from _ _ _).mpr ⟨suits, other⟩⟩

/-- Two ways in leave the same choice exactly when they exclude the same of the synapses that
suit. -/
theorem candidates_eq_iff {st : MemoryStore F} {a b : Option SynapseId} :
    node.candidates signal a nowNs st = node.candidates signal b nowNs st ↔
      ∀ r ∈ st.listSynapses .eligible, node.Suits signal nowNs r →
        (a = some r.id ↔ b = some r.id) := by
  have excluded : ∀ {x : Option SynapseId} {r : SynapseRecord F}, r ∈ st.listSynapses .eligible →
      node.Suits signal nowNs r →
      (node.rehydrate nowNs r ∈ node.candidates signal x nowNs st ↔ x ≠ some r.id) := by
    intro x r listed suits
    rw [mem_candidates]
    constructor
    · rintro ⟨r', -, -, other, same⟩
      have id : r'.id = r.id := congrArg Synapse.id same
      rw [← id]
      exact other
    · intro other
      exact ⟨r, listed, suits, other, rfl⟩
  constructor
  · intro same r listed suits
    have both := excluded (x := a) listed suits
    rw [same, excluded listed suits] at both
    exact not_iff_not.mp both.symm
  · intro alike
    unfold candidates
    by_cases deep : floodDepthReached signal = true
    · rw [if_pos deep, if_pos deep]
    · rw [if_neg deep, if_neg deep]
      apply List.filter_congr
      intro x hx
      obtain ⟨r, listed, rfl⟩ := List.mem_map.mp hx
      rw [Bool.eq_iff_iff, isEligible_from _ a, isEligible_from _ b]
      constructor
      · rintro ⟨suits, other⟩
        exact ⟨suits, fun same => other ((alike r listed ⟨by simpa using deep, suits⟩).mpr same)⟩
      · rintro ⟨suits, other⟩
        exact ⟨suits, fun same => other ((alike r listed ⟨by simpa using deep, suits⟩).mp same)⟩

omit [Scalar F] in
theorem candidate_ne [Scalar F] {node : Node F} {signal : Signal F} {nowNs : ℕ}
    {st : MemoryStore F} {s : SynapseId} {c : Synapse F}
    (candidate : c ∈ node.candidates signal (some s) nowNs st) : c.id ≠ s := by
  obtain ⟨r, -, -, other, rfl⟩ := node.mem_candidates.mp candidate
  intro same
  exact other (congrArg some same.symm)

theorem planForwarding_candidate {t u : NodeState F} {forwards : List Forward}
    (plan : (node.planForwarding signal arrival nowNs).run t = (.ok forwards, u)) :
    ∀ f ∈ forwards, ∃ c ∈ node.candidates signal arrival nowNs t.store, c.id = f.synapse := by
  intro f forwarded
  have way := List.mem_map_of_mem (f := Forward.way) forwarded
  rw [node.planForwarding_chosen plan] at way
  obtain ⟨c, chosen, same⟩ := List.mem_map.mp way
  exact ⟨c.synapse, node.onward_candidate chosen, (Prod.mk.inj same).1⟩

theorem candidates_trace (trace : List NodeId) (st : MemoryStore F)
    (depth : floodDepthReached { signal with trace := trace } = floodDepthReached signal) :
    node.candidates { signal with trace := trace } arrival nowNs st =
      node.candidates signal arrival nowNs st := by
  unfold candidates
  rw [depth]

theorem receive_candidate {t u : NodeState F} {d : Disposition F}
    (run : (node.receive signal arrival).run t = (.ok d, u)) :
    ∀ f ∈ d.forwardTo, ∃ c ∈ node.candidates signal arrival t.clock t.store, c.id = f.synapse := by
  have nothing : ∀ f ∈ ([] : List Forward),
      ∃ c ∈ node.candidates signal arrival t.clock t.store, c.id = f.synapse := by
    intro f forwarded
    cases forwarded
  rcases node.receive_cases signal arrival t with
    ⟨f, -, result⟩ | ⟨-, -, result⟩ | ⟨-, -, reason, result⟩ | ⟨-, -, weight, faults, disposal⟩
  · rw [result] at run
    cases run
  · rw [result] at run
    obtain rfl := Except.ok.inj (Prod.mk.inj run).1
    exact nothing
  · rw [result] at run
    obtain rfl := Except.ok.inj (Prod.mk.inj run).1
    exact nothing
  · rw [run] at disposal
    cases disposal with
    | shed itself reason => exact nothing
    | held other stays evicted same => exact nothing
    | routeless other fired plan owed evicted same => exact nothing
    | released other fired plan routed evicted same =>
      have planned := node.planForwarding_candidate plan
      have listed : (node.claimed signal t).listSynapses .eligible =
          t.store.listSynapses .eligible :=
        MemoryStore.listSynapses_congr (t.store.checkAndSetSeen_synapses _ _ _) _
      unfold candidates at planned ⊢
      dsimp only at planned
      rw [listed] at planned
      exact planned

end Node

namespace Runtime

variable (rt : Runtime F) (body : Signal F) (s : SynapseId)

def wayOf (peer : NodeId) (u : NodeState F) : Option SynapseId :=
  if nextFault u = none then (u.store.synapseForPeer peer).map SynapseRecord.id else none

def arrivalForwards (found : Option SynapseId) (w : NodeState F) (forwards : List Forward) : Prop :=
  ∃ rng faults d u, (rt.node.receive body found).run { w with rng := rng, faults := faults } =
    (.ok d, u) ∧ d.forwardTo = forwards

def laterForwards (found : Option SynapseId) (w : NodeState F) (forwards : List Forward) : Prop :=
  ∃ rng faults u, (rt.node.planRelease body found).run { w with rng := rng, faults := faults } =
    (.ok forwards, u)

/-- A release that takes `found` for the way in stays off the synapse that the signal came in
over, and chooses from the same synapses as one that knows it. -/
structure KeepsFromSender (may : List Forward → Prop) (found : Option SynapseId)
    (w : NodeState F) : Prop where
  spared : ∀ forwards, may forwards → ∀ f ∈ forwards, f.synapse ≠ s
  sameSet : rt.node.candidates body found w.clock w.store =
    rt.node.candidates body (some s) w.clock w.store

/-- Of the synapses that suit the signal, the way found excludes the one it came in over and no
other. -/
def LeadsBack (found : Option SynapseId) (w : NodeState F) : Prop :=
  ∀ r ∈ w.store.listSynapses .eligible, rt.node.Suits body w.clock r →
    (found = some r.id ↔ some s = some r.id)

/-- Releases over candidates only keep from the sender exactly if the way found leads back. -/
theorem keepsFromSender_iff {may : List Forward → Prop} {found : Option SynapseId}
    {w : NodeState F}
    (chosen : ∀ forwards, may forwards → ∀ f ∈ forwards,
      ∃ c ∈ rt.node.candidates body found w.clock w.store, c.id = f.synapse) :
    rt.KeepsFromSender body s may found w ↔ rt.LeadsBack body s found w := by
  constructor
  · intro keeps
    exact rt.node.candidates_eq_iff.mp keeps.sameSet
  · intro leads
    have same := rt.node.candidates_eq_iff.mpr leads
    refine ⟨?_, same⟩
    intro forwards sent f forwarded
    obtain ⟨c, candidate, via⟩ := chosen forwards sent f forwarded
    rw [← via]
    exact Node.candidate_ne (same ▸ candidate)

end Runtime

/-- A release keeps from the sender exactly when the way in that it finds leads back, as far as
the synapses go that could carry the signal. On arrival the lookup of the sending peer finds it
whatever the trace; later the last entry of the trace does, and two traces leave the same choice
exactly when they lead back to the same of these synapses. -/
theorem kept_from_sender_iff (rt : Runtime F) (body : Signal F) (s : SynapseId) :
    (∀ (peer : NodeId) (u w : NodeState F),
      (rt.KeepsFromSender body s (rt.arrivalForwards body (Runtime.wayOf peer u) w)
        (Runtime.wayOf peer u) w ↔ rt.LeadsBack body s (Runtime.wayOf peer u) w) ∧
      (Runtime.wayOf peer u = some s → rt.LeadsBack body s (Runtime.wayOf peer u) w)) ∧
    (∀ v w : NodeState F,
      rt.KeepsFromSender body s (rt.laterForwards body (Runtime.arrivedOver body v) w)
        (Runtime.arrivedOver body v) w ↔ rt.LeadsBack body s (Runtime.arrivedOver body v) w) ∧
    ∀ trace, floodDepthReached { body with trace := trace } = floodDepthReached body →
      (∀ found nowNs st, rt.node.candidates { body with trace := trace } found nowNs st =
        rt.node.candidates body found nowNs st) ∧
      ∀ v w : NodeState F,
        rt.node.candidates { body with trace := trace }
            (Runtime.arrivedOver { body with trace := trace } v) w.clock w.store =
          rt.node.candidates body (Runtime.arrivedOver body v) w.clock w.store ↔
        ∀ r ∈ w.store.listSynapses .eligible, rt.node.Suits body w.clock r →
          (Runtime.arrivedOver { body with trace := trace } v = some r.id ↔
            Runtime.arrivedOver body v = some r.id) := by
  refine ⟨?_, ?_, ?_⟩
  · intro peer u w
    constructor
    · apply rt.keepsFromSender_iff
      rintro forwards ⟨rng, faults, d, v, run, rfl⟩
      have candidate := rt.node.receive_candidate run
      exact candidate
    · intro known r listed suits
      rw [known]
  · intro v w
    apply rt.keepsFromSender_iff
    rintro forwards ⟨rng, faults, u, plan⟩
    have planned : (rt.node.planForwarding body (Runtime.arrivedOver body v) w.clock).run
      { w with rng := rng, faults := faults } = (.ok forwards, u) := plan
    have candidate := rt.node.planForwarding_candidate planned
    exact candidate
  · intro trace depth
    constructor
    · intro found nowNs st
      exact rt.node.candidates_trace trace st depth
    · intro v w
      rw [rt.node.candidates_trace trace w.store depth]
      exact rt.node.candidates_eq_iff

section ForgedTrace

/-- A light flood whose trace ends with a peer that this node does not know. -/
def forgedFlood : Signal ℚ :=
  { unroutable with
    origin := ⟨[2]⟩
    trace := [⟨[9]⟩]
    scope := .flood 3
    weight := 1 / 10 }

def wayIn : SynapseId := (Runtime.wayOf neighbour connected.after).getD ⟨""⟩

def forgedArrival : Except NodeError (Disposition ℚ) × NodeState ℚ :=
  (edgeNode.receive forgedFlood (Runtime.wayOf neighbour connected.after)).run connected.after

def forgedPoll : Except NodeError (List (QueuedSignal ℚ)) × NodeState ℚ :=
  (Node.pollActivation).run { forgedArrival.2 with clock := 60000000000 }

/-- It is sent back to the neighbour. -/
theorem forged_flood_sent_back :
    Runtime.wayOf neighbour connected.after = some wayIn ∧
    forgedArrival.1.toOption.map Disposition.queued = some true ∧
    forgedPoll.1.toOption.map (List.map QueuedSignal.id) = some [forgedFlood.id] ∧
    ((edgeNode.planRelease forgedFlood (Runtime.arrivedOver forgedFlood forgedPoll.2)).run
      forgedPoll.2).1.toOption.map (List.map Forward.synapse) = some [wayIn] ∧
    ¬ ∀ (rt : Runtime ℚ) (body : Signal ℚ) (s : SynapseId) (peer : NodeId) (t u v : NodeState ℚ)
      (d : Disposition ℚ) (released : List (QueuedSignal ℚ)),
      Runtime.wayOf peer t = some s → (rt.node.receive body (some s)).run t = (.ok d, u) →
      d.queued = true →
      (Node.pollActivation).run { u with clock := 60000000000 } = (.ok released, v) →
      body.id ∈ released.map QueuedSignal.id →
      rt.KeepsFromSender body s (rt.laterForwards body (Runtime.arrivedOver body v) v)
        (Runtime.arrivedOver body v) v := by
  have known : Runtime.wayOf neighbour connected.after = some wayIn := by decide +kernel
  have held : forgedArrival.1.toOption.map Disposition.queued = some true := by decide +kernel
  have polled : forgedPoll.1.toOption.map (List.map QueuedSignal.id) = some [forgedFlood.id] := by
    decide +kernel
  have back : ((edgeNode.planRelease forgedFlood
      (Runtime.arrivedOver forgedFlood forgedPoll.2)).run forgedPoll.2).1.toOption.map
        (List.map Forward.synapse) = some [wayIn] := by decide +kernel
  refine ⟨known, held, polled, back, fun always => ?_⟩
  rcases arrived : forgedArrival with ⟨_ | d, u⟩
  · rw [arrived] at held
    cases held
  rcases taken : forgedPoll with ⟨_ | released, v⟩
  · rw [taken] at polled
    cases polled
  have arrival : (edgeNode.receive forgedFlood (some wayIn)).run connected.after = (.ok d, u) := by
    rw [← known]
    exact arrived
  have poll : (Node.pollActivation).run { u with clock := 60000000000 } = (.ok released, v) := by
    rw [← taken]
    unfold forgedPoll
    rw [arrived]
  have ids : released.map QueuedSignal.id = [forgedFlood.id] := by
    rw [taken] at polled
    exact Option.some.inj polled
  have keeps := always edgeRuntime forgedFlood wayIn neighbour connected.after u v d released known
    arrival (by rw [arrived] at held; exact Option.some.inj held) poll (by rw [ids]; simp)
  rw [taken] at back
  rcases plan : (edgeNode.planRelease forgedFlood (Runtime.arrivedOver forgedFlood v)).run v with
    ⟨_ | forwards, w⟩
  · rw [plan] at back
    cases back
  · rw [plan] at back
    have via : forwards.map Forward.synapse = [wayIn] := Option.some.inj back
    have sent : wayIn ∈ forwards.map Forward.synapse := by rw [via]; exact List.mem_cons_self
    obtain ⟨f, forwarded, same⟩ := List.mem_map.mp sent
    exact keeps.spared forwards ⟨v.rng, v.faults, w, plan⟩ f forwarded same

end ForgedTrace

end OpenNtl
