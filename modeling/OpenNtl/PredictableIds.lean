import OpenNtl.AcknowledgedDelivery
import OpenNtl.ArrivalCopies
import OpenNtl.SeenBackends
import OpenNtl.SplitMix

/-! # Predictable identifiers

A node whose identifiers come from the statistical generator. Whoever sees one of them knows every
later one, and can have a relay take the node's next signal for one it has already seen.
-/
namespace OpenNtl

open AtomicProgram NodeM

namespace SplitMix64

def generateId (r : SplitMix64) (nowNs : ℕ) : SignalId × SplitMix64 :=
  let (high, r) := r.nextU64
  let (low, r) := r.nextU64
  (.generate nowNs high.toNat low.toNat, r)

/-- The generator that has just given an identifier. Its last draw is the low half. -/
def generatorOf (id : SignalId) : SplitMix64 := ⟨stateOf (id.ulid.setWidth 64)⟩

/-- The identifier that comes at this time, `others` draws after one that was seen. -/
def predictedId (seen : SignalId) (others nowNs : ℕ) : SignalId :=
  (((generatorOf seen).advance others).generateId nowNs).1

theorem low_half (nowNs high : ℕ) (low : Word) :
    (SignalId.generate nowNs high low.toNat).ulid.setWidth 64 = low := by
  refine BitVec.eq_of_toNat_eq ?_
  have small := low.isLt
  simp only [SignalId.generate, ulidFromParts, BitVec.toNat_setWidth, BitVec.toNat_ofNat]
  omega

theorem generatorOf_generateId (r : SplitMix64) (nowNs : ℕ) :
    generatorOf (r.generateId nowNs).1 = (r.generateId nowNs).2 := by
  simp only [generatorOf, generateId, low_half, nextU64, stateOf_output]

end SplitMix64

open SplitMix64

variable {F : Type} [Scalar F]

omit [Scalar F] in
theorem Node.emit_generates {node : Node F} {builder : SignalBuilder F} {s t : NodeState F}
    {signal : Signal F} {r : SplitMix64} (seeded : s.rng = r.source)
    (run : (node.emit builder).run s = (.ok signal, t)) :
    signal.id = (r.generateId s.clock).1 ∧ t.rng = (r.generateId s.clock).2.source := by
  unfold emit at run
  rw [now_bind_run, now_bind_run, now_bind_run] at run
  obtain ⟨draws, t₁, drawn, run⟩ := Prog.run_bind_eq_ok.mp run
  obtain ⟨seen, t₂, claim, run⟩ := Prog.run_bind_eq_ok.mp run
  obtain ⟨built, rfl⟩ := Prod.mk.inj run
  obtain ⟨pair, rfl⟩ := Prod.mk.inj drawn
  obtain rfl := Except.ok.inj pair
  obtain rfl := Except.ok.inj built
  obtain ⟨-, -, rfl⟩ := callStore_eq_ok.mp claim
  have taken : s.rng.nextU64.2.nextU64 = (r.nextU64.2.nextU64.1.toNat,
      r.nextU64.2.nextU64.2.source) := by
    rw [seeded, source_nextU64]
    exact source_nextU64 _
  constructor
  · show SignalId.generate s.clock s.rng.nextU64.1 s.rng.nextU64.2.nextU64.1 = _
    rw [taken, seeded, source_nextU64]
    rfl
  · exact congrArg Prod.snd taken

omit [Scalar F] in
theorem Node.emit_predicted {node : Node F} {builder later : SignalBuilder F}
    {s t u v : NodeState F} {seen next : Signal F} {r : SplitMix64} {others : ℕ}
    (seeded : s.rng = r.source) (first : (node.emit builder).run s = (.ok seen, t))
    (meanwhile : u.rng = t.rng.skip others) (second : (node.emit later).run u = (.ok next, v)) :
    next.id = predictedId seen.id others u.clock := by
  obtain ⟨known, rng⟩ := emit_generates seeded first
  rw [rng, source_skip] at meanwhile
  obtain ⟨drawn, -⟩ := emit_generates meanwhile second
  rw [drawn, predictedId, known, generatorOf_generateId]

/-- A signal that a relay takes for one it has let through before. -/
structure Suppressed (m : Moment F) : Prop where
  nothing : m.reply = .ok (.disposition .nothing)
  unchanged : m.after = m.before.stored m.before.store

/-- Whoever has seen one identifier of the node can have a relay drop any later signal of it, for
as long as the relay remembers the signal that was planted there. -/
theorem predicted_identifier_suppresses {victim relay : Node F} {builder later : SignalBuilder F}
    {s t u v : NodeState F} {seen next : Signal F} {r : SplitMix64} {others : ℕ}
    (seeded : s.rng = r.source) (first : (victim.emit builder).run s = (.ok seen, t))
    (meanwhile : u.rng = t.rng.skip others) (second : (victim.emit later).run u = (.ok next, v))
    {ms : List (Moment F)} {w : NodeState F} (run : NodeRun relay ms w)
    (timely : Timely (ms.map fun m => m.before.clock)) {planted arrival : Moment F}
    (order : [planted, arrival].Sublist ms)
    (claimed : planted.Processes (predictedId seen.id others u.clock)) {copy : Signal F}
    {via : Option SynapseId} (call : arrival.call = .receive copy via)
    (same : copy.id = next.id) (fault : nextFault arrival.before = none)
    (window : arrival.before.clock <
      planted.before.clock + relay.config.propagation.dedupCacheSeconds * nanosPerSec) :
    next.id = predictedId seen.id others u.clock ∧ Suppressed arrival := by
  obtain ⟨here, there⟩ : planted ∈ ms ∧ arrival ∈ ms :=
    ⟨order.subset (by simp), order.subset (by simp)⟩
  have known : next.id = predictedId seen.id others u.clock :=
    Node.emit_predicted seeded first meanwhile second
  have live : HasLiveClaim arrival.before copy.id := by
    by_contra fresh
    have processed : arrival.Processes copy.id := ⟨copy, via, call, rfl, fault, fresh⟩
    rw [same, known] at processed
    have apart := (run_processes_apart run timely).sublist order
    have later := List.rel_of_pairwise_cons apart List.mem_cons_self _ claimed processed
    omega
  obtain ⟨after, reply⟩ := perform_receive (run.performed arrival there) call
  rw [receive_duplicate relay fault live] at after reply
  exact ⟨known, reply, after.symm⟩

/-! A relay that was sent the next identifier of its neighbour. -/

section Planted

def salutation : SignalBuilder ℚ := SignalBuilder.new .data ""

def seededNode : NodeState ℚ :=
  { edgeNode.build .new .maximal 0 [] with rng := (SplitMix64.seeded 0).source }

def saluted : NodeState ℚ := ((edgeNode.emit salutation).run seededNode).2

def salutations : Signal ℚ × Signal ℚ :=
  let (first, r) := (SplitMix64.seeded 0).generateId 0
  let (second, _) := r.generateId 0
  (salutation.buildUnsignedWith ⟨[0]⟩ 0 first, salutation.buildUnsignedWith ⟨[0]⟩ 0 second)

def planting : Moment ℚ :=
  edgeNode.momentAt (.receive { unroutable with id := predictedId salutations.1.id 0 0 } none)
    (edgeNode.build .new .maximal 0 [])

def suppressed : Moment ℚ :=
  edgeNode.momentAt (.receive salutations.2 none) { planting.after with clock := 0, faults := [] }

theorem planted_identifier_suppresses :
    salutations.2.id = predictedId salutations.1.id 0 saluted.clock ∧ Suppressed suppressed := by
  have first : (edgeNode.emit salutation).run seededNode = (.ok salutations.1, saluted) := rfl
  have second : ∃ v, (edgeNode.emit salutation).run saluted = (.ok salutations.2, v) := ⟨_, rfl⟩
  have run : NodeRun edgeNode [planting, suppressed] suppressed.after :=
    ((NodeRun.start .maximal 0 []).next (.receive _ none) 0 []).next
      (.receive salutations.2 none) 0 []
  have claimed : planting.Processes (predictedId salutations.1.id 0 0) :=
    ⟨_, none, rfl, rfl, rfl, by decide +kernel⟩
  have meanwhile : saluted.rng = saluted.rng.skip 0 := by
    rw [(Node.emit_generates rfl first).2, source_skip]
    rfl
  obtain ⟨v, second⟩ := second
  exact predicted_identifier_suppresses rfl first meanwhile second run
    ⟨by decide +kernel, by decide +kernel⟩ (List.Sublist.refl _) claimed rfl rfl rfl
    (by decide +kernel)

end Planted
end OpenNtl
