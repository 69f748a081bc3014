import OpenNtl.NodeRun

/-! # What the calls that teach nothing leave alone -/
namespace OpenNtl

open AtomicProgram NodeM

variable {F : Type}

/-- Nothing is learned, and the tables of the store change as `R` says. -/
structure Quiet (R : MemoryStore F → MemoryStore F → Prop) (s s' : NodeState F) : Prop where
  learned : s'.learned = s.learned
  store : R s.store s'.store

namespace Quiet

variable {R : MemoryStore F → MemoryStore F → Prop} {α : Type}

theorem refl (h : ∀ st, R st st) (s : NodeState F) : Quiet R s s := ⟨rfl, h s.store⟩

theorem trans (h : ∀ {a b c}, R a b → R b c → R a c) {s t u : NodeState F} (hs : Quiet R s t)
    (ht : Quiet R t u) : Quiet R s u :=
  ⟨ht.learned.trans hs.learned, h hs.store ht.store⟩

theorem of_storeOnly {T : MemoryStore F → MemoryStore F → Prop} {s s' : NodeState F}
    (sub : ∀ {st st'}, T st st' → R st st') (h : StoreOnly T s s') : Quiet R s s' :=
  ⟨h.learned, sub h.store⟩

variable (same : ∀ st, R st st)
include same

theorem tryStore {op : MemoryStore F → α × MemoryStore F} (h : ∀ st, R st (op st).2) :
    (tryStore op).Within (Quiet R) := by
  refine Prog.Within.of_act fun s => ?_
  cases nextFault s with
  | none => exact ⟨rfl, h s.store⟩
  | some f => exact ⟨rfl, same s.store⟩

theorem callStore {op : MemoryStore F → α × MemoryStore F} (h : ∀ st, R st (op st).2) :
    (callStore op).Within (Quiet R) :=
  (tryStore same h).bind fun _ => Prog.Within.of_ofExcept _

theorem readStore {op : MemoryStore F → α} : (readStore op).Within (Quiet R) :=
  callStore same same

theorem withRng {f : Rng → α × Rng} : (withRng (F := F) f).Within (Quiet R) :=
  Prog.Within.of_act fun s => ⟨rfl, same s.store⟩

theorem withGate {f : ActivationState F → α × ActivationState F} :
    (withGate f).Within (Quiet R) :=
  Prog.Within.of_act fun s => ⟨rfl, same s.store⟩

theorem withGateAndRng {f : ActivationState F → Rng → α × ActivationState F × Rng} :
    (withGateAndRng f).Within (Quiet R) :=
  Prog.Within.of_act fun s => ⟨rfl, same s.store⟩

theorem now : (NodeM.now (F := F)).Within (Quiet R) :=
  Prog.Within.of_act fun s => ⟨rfl, same s.store⟩

end Quiet

/-- A relation that holds across every change that routing makes to the tables. -/
structure HoldsAcrossRouting (R : MemoryStore F → MemoryStore F → Prop) : Prop where
  same : ∀ st, R st st
  claims : ∀ st id nowNs ttlSecs, R st (st.checkAndSetSeen id nowNs ttlSecs).2
  plans : ∀ {st st'}, Appends st st' → R st st'

/-- The same for the checkpoint as well. -/
structure HoldsAcrossReads (R : MemoryStore F → MemoryStore F → Prop) : Prop
    extends HoldsAcrossRouting R where
  saves : ∀ st snapshot, R st (st.saveActivation snapshot)
  purges : ∀ st nowNs, R st (st.purgeExpiredSeen nowNs).2

/-- The calls that neither learn nor write a synapse. -/
inductive Call.Reads : Call F → Prop
  | emit (builder : SignalBuilder F) : Reads (.emit builder)
  | receiveLocal (signal : Signal F) : Reads (.receiveLocal signal)
  | receive (signal : Signal F) (arrival : Option SynapseId) : Reads (.receive signal arrival)
  | planRelease (signal : Signal F) (arrival : Option SynapseId) :
      Reads (.planRelease signal arrival)
  | synapseForPeer (peer : NodeId) : Reads (.synapseForPeer peer)
  | pollActivation : Reads .pollActivation
  | checkpoint : Reads .checkpoint

variable [Scalar F] {R : MemoryStore F → MemoryStore F → Prop}

namespace Node

variable (node : Node F) (across : HoldsAcrossRouting R)

omit [Scalar F] in
theorem emit_claims (same : ∀ st, R st st)
    (claims : ∀ st id nowNs ttlSecs, R st (st.checkAndSetSeen id nowNs ttlSecs).2)
    (builder : SignalBuilder F) : (node.emit builder).Within (Quiet R) := by
  refine (Quiet.now same).bind fun now => (Quiet.now same).bind fun timestamp => ?_
  refine (Quiet.now same).bind fun idTime => (Quiet.withRng same).bind fun draws => ?_
  refine (Quiet.callStore same fun st => ?_).bind fun _ => Prog.Within.of_pure _
  exact claims st _ _ _

section Reads

include across

theorem planForwarding_quiet (signal : Signal F) (arrival : Option SynapseId) (nowNs : ℕ) :
    (node.planForwarding signal arrival nowNs).Within (Quiet R) :=
  (node.planForwarding_within signal arrival nowNs).mono fun _ _ h =>
    Quiet.of_storeOnly across.plans h

omit [Scalar F] in
theorem emit_quiet (builder : SignalBuilder F) : (node.emit builder).Within (Quiet R) :=
  node.emit_claims across.same across.claims builder

theorem receiveLocal_quiet (signal : Signal F) :
    (node.receiveLocal signal).Within (Quiet R) := by
  refine (Quiet.now across.same).bind fun now => ?_
  split
  · exact Prog.Within.of_pure _
  · refine (node.planForwarding_quiet across signal none now).bind fun forwardTo => ?_
    split
    · exact Prog.Within.of_pure _
    · exact Prog.Within.of_pure _

theorem arrivalWeight_quiet (arrival : Option SynapseId) :
    (arrivalWeight (F := F) arrival).Within (Quiet R) := by
  cases arrival with
  | none => exact Prog.Within.of_pure _
  | some id =>
    refine (Quiet.tryStore across.same across.same).bind fun r => ?_
    split
    · exact Prog.Within.of_pure _
    · exact Prog.Within.of_pure _

theorem admission_quiet (signal : Signal F) (arrival : Option SynapseId) :
    (node.admission signal arrival).Within (Quiet R) := by
  refine (Quiet.now across.same).bind fun now => ?_
  refine (Quiet.callStore across.same fun st => across.claims st _ _ _).bind fun seen => ?_
  split
  · exact Prog.Within.of_pure _
  · split
    · exact Prog.Within.of_pure _
    · refine (arrivalWeight_quiet across arrival).bind fun weight => ?_
      exact (Quiet.withGateAndRng across.same).bind fun admitted => Prog.Within.of_pure _

theorem afterAdmission_quiet (signal : Signal F) (arrival : Option SynapseId) (nowNs : ℕ)
    (admitted : AdmitOutcome F) :
    (node.afterAdmission signal arrival nowNs admitted).Within (Quiet R) := by
  unfold afterAdmission
  dsimp only
  split
  · exact Prog.Within.of_pure _
  · split
    · refine (node.planForwarding_quiet across signal arrival nowNs).bind fun forwardTo => ?_
      split
      · exact Prog.Within.of_pure _
      · exact Prog.Within.of_pure _
    · refine (Prog.Within.of_pure []).bind fun forwardTo => ?_
      split
      · exact Prog.Within.of_pure _
      · exact Prog.Within.of_pure _

theorem receive_quiet (signal : Signal F) (arrival : Option SynapseId) :
    (node.receive signal arrival).Within (Quiet R) := by
  refine (node.admission_quiet across signal arrival).bind fun r => ?_
  split
  · exact Prog.Within.of_pure _
  · exact node.afterAdmission_quiet across signal arrival _ _

theorem routes_quiet {call : Call F} (reads : call.Reads) (other : call ≠ .checkpoint) :
    (node.perform call).Within (Quiet R) := by
  cases reads with
  | emit builder => exact (node.emit_quiet across builder).map _
  | receiveLocal signal => exact (node.receiveLocal_quiet across signal).map _
  | receive signal arrival => exact (node.receive_quiet across signal arrival).map _
  | planRelease signal arrival =>
    exact ((Quiet.now across.same).bind fun now =>
      node.planForwarding_quiet across signal arrival now).map _
  | synapseForPeer peer => exact (Quiet.tryStore across.same across.same).map _
  | pollActivation =>
    exact ((Quiet.now across.same).bind fun now => Quiet.withGate across.same).map _
  | checkpoint => exact absurd rfl other

end Reads

omit [Scalar F] in
theorem checkpoint_quiet (across : HoldsAcrossReads R) :
    (checkpoint (F := F)).Within (Quiet R) := by
  refine (Quiet.now across.same).bind fun now => (Quiet.withGate across.same).bind fun taken => ?_
  refine (Quiet.callStore across.same fun st => across.saves st _).bind fun _ => ?_
  refine (Quiet.callStore across.same fun st => across.purges st _).bind fun _ => ?_
  exact Quiet.callStore across.same across.same

theorem reads_quiet (across : HoldsAcrossReads R) {call : Call F} (reads : call.Reads) :
    (node.perform call).Within (Quiet R) := by
  by_cases checkpoint : call = .checkpoint
  · subst checkpoint
    exact (checkpoint_quiet across).map _
  · exact node.routes_quiet across.toHoldsAcrossRouting reads checkpoint

end Node

/-- A relation that holds across what is learned and across connecting. -/
structure HoldsAcrossLearning (R : MemoryStore F → MemoryStore F → Prop) : Prop where
  same : ∀ st, R st st
  resolves : ∀ st id outcome nowNs, R st (st.resolveDecision id outcome nowNs).2
  reweighs : ∀ {st st'}, Reweighs st st' → R st st'
  peers : ∀ st record, R st (st.putPeer record)

/-- A relation that holds across what is learned. -/
structure HoldsAcrossOutcomes (R : MemoryStore F → MemoryStore F → Prop) : Prop where
  same : ∀ st, R st st
  resolves : ∀ st id outcome nowNs, R st (st.resolveDecision id outcome nowNs).2
  reweighs : ∀ {st st'}, Reweighs st st' → R st st'

omit [Scalar F] in
theorem HoldsAcrossLearning.outcomes (across : HoldsAcrossLearning R) : HoldsAcrossOutcomes R :=
  ⟨across.same, across.resolves, across.reweighs⟩

/-- The same for routing as well. -/
structure HoldsAcrossWrites (R : MemoryStore F → MemoryStore F → Prop) : Prop
    extends HoldsAcrossRouting R, HoldsAcrossLearning R

inductive Call.Writes : Call F → Prop
  | failForward (id : JournalId) : Writes (.failForward id)
  | applyReceipt (receipt : Receipt) (peer : NodeId) : Writes (.applyReceipt receipt peer)
  | sweepTimeouts (limit : ℕ) : Writes (.sweepTimeouts limit)
  | normalizeOutboundWeights : Writes .normalizeOutboundWeights
  | penalizeSignatureFailure (id : SynapseId) : Writes (.penalizeSignatureFailure id)
  | upsertSynapse (peer : NodeId) : Writes (.upsertSynapse peer)

/-- The outcome under which a call settles decisions, if it settles any. -/
def Call.lesson : Call F → Option Outcome
  | .failForward _ => some .transportFailure
  | .applyReceipt receipt _ => some receipt.outcome
  | .sweepTimeouts _ => some .timedOut
  | _ => none

omit [Scalar F] in
theorem Call.reads_or_writes (call : Call F) : call.Reads ∨ call.Writes := by
  cases call with
  | emit builder => exact Or.inl (.emit builder)
  | receiveLocal signal => exact Or.inl (.receiveLocal signal)
  | receive signal arrival => exact Or.inl (.receive signal arrival)
  | planRelease signal arrival => exact Or.inl (.planRelease signal arrival)
  | synapseForPeer peer => exact Or.inl (.synapseForPeer peer)
  | pollActivation => exact Or.inl .pollActivation
  | checkpoint => exact Or.inl .checkpoint
  | failForward id => exact Or.inr (.failForward id)
  | applyReceipt receipt peer => exact Or.inr (.applyReceipt receipt peer)
  | sweepTimeouts limit => exact Or.inr (.sweepTimeouts limit)
  | normalizeOutboundWeights => exact Or.inr .normalizeOutboundWeights
  | penalizeSignatureFailure id => exact Or.inr (.penalizeSignatureFailure id)
  | upsertSynapse peer => exact Or.inr (.upsertSynapse peer)

def StoreWithin (R : MemoryStore F → MemoryStore F → Prop) (s s' : NodeState F) : Prop :=
  R s.store s'.store

namespace Node

variable (node : Node F)

section Lessons

variable {Q : NodeState F → NodeState F → Prop}

/-- Settling a decision records its outcome, notes the lesson and rewrites synapses. -/
theorem settle_within (id : JournalId) {outcome : Outcome} (nowNs : ℕ)
    (resolves : (callStore fun st => st.resolveDecision id outcome nowNs).Within Q)
    (notes : ∀ (s : NodeState F) (about : Option JournalId),
      Q s { s with learned := s.learned ++ [(about, outcome)] })
    (reweighs : ∀ s s', StoreOnly Reweighs s s' → Q s s') :
    (node.settle id outcome nowNs).Within Q := by
  refine resolves.bind fun resolved => ?_
  unfold learnIfResolvedNow
  split
  · exact Prog.Within.of_pure _
  · split
    · refine Prog.Within.map _ (Prog.Within.bind (Prog.Within.of_act fun s => notes s _) fun _ => ?_)
      exact (node.updateSynapse_within _ _ _).mono reweighs
    · exact Prog.Within.of_pure _

theorem learns_within {call : Call F} (learns : call.Learns)
    (reads : ∀ s s', Quiet Eq s s' → Q s s')
    (settles : ∀ id outcome nowNs, call.lesson = some outcome →
      (node.settle id outcome nowNs).Within Q) :
    (node.perform call).Within Q := by
  have now : (NodeM.now (F := F)).Within Q := (Quiet.now fun _ => rfl).mono reads
  have read : ∀ {α : Type} {op : MemoryStore F → α}, (readStore op).Within Q :=
    (Quiet.readStore fun _ => rfl).mono reads
  cases learns with
  | forward id => exact (now.bind fun time => settles id _ time rfl).map _
  | receipt receipt peer =>
    refine (now.bind fun time => read.bind fun pending => ?_).map _
    split
    · exact Prog.Within.of_pure _
    · exact settles _ _ time rfl
  | sweep limit =>
    refine (now.bind fun time => read.bind fun expired => ?_).map _
    refine Prog.Within.foldlM (fun n x => Prog.Within.map _ ?_) 0 expired
    unfold sweepOne
    split
    · exact Prog.Within.of_pure _
    · exact (settles _ _ time rfl).bind fun _ => Prog.Within.of_pure _

end Lessons

section Outcomes

variable (across : HoldsAcrossOutcomes R)
include across

omit [Scalar F] in
theorem callStore_storeWithin {α : Type} {op : MemoryStore F → α × MemoryStore F}
    (h : ∀ st, R st (op st).2) : (callStore op).Within (StoreWithin R) := by
  refine Prog.Within.bind (Prog.Within.of_act fun s => ?_) fun _ => Prog.Within.of_ofExcept _
  cases nextFault s with
  | none => exact h s.store
  | some f => exact across.same s.store

theorem settle_storeWithin (id : JournalId) (outcome : Outcome) (nowNs : ℕ) :
    (node.settle id outcome nowNs).Within (StoreWithin R) :=
  node.settle_within id nowNs
    (callStore_storeWithin across fun st => across.resolves st id outcome nowNs)
    (fun s _ => across.same s.store) fun _ _ h => across.reweighs h.store

omit [Scalar F] in
theorem putSynapse_storeWithin (r : SynapseRecord F) :
    (writeStore fun st => st.putSynapse r).Within (StoreWithin R) :=
  callStore_storeWithin across fun st => across.reweighs (Reweighs.putSynapse st r)

theorem outcomes_storeWithin {call : Call F} (writes : call.Writes)
    (other : ∀ peer, call ≠ .upsertSynapse peer) :
    (node.perform call).Within (StoreWithin R) := by
  have read : ∀ {α : Type} {f : NodeState F → α}, (Prog.read f : NodeM F α).Within
      (StoreWithin R) := fun {α f} => Prog.Within.of_act fun s => across.same s.store
  have reads : ∀ s s' : NodeState F, Quiet Eq s s' → StoreWithin R s s' := by
    intro s s' h
    unfold StoreWithin
    rw [← h.store]
    exact across.same s.store
  have learns : ∀ {call : Call F}, call.Learns → (node.perform call).Within (StoreWithin R) :=
    fun learns => node.learns_within learns reads
      fun id outcome nowNs _ => node.settle_storeWithin across id outcome nowNs
  cases writes with
  | failForward id => exact learns (.forward id)
  | applyReceipt receipt peer => exact learns (.receipt receipt peer)
  | sweepTimeouts limit => exact learns (.sweep limit)
  | normalizeOutboundWeights =>
    exact (node.normalizeOutboundWeights_within.mono fun s s' h => across.reweighs h.store).map _
  | penalizeSignatureFailure id =>
    refine (read.bind fun now =>
      (callStore_storeWithin across across.same).bind fun found => ?_).map _
    split
    · exact Prog.Within.of_pure _
    · exact (putSynapse_storeWithin across _).bind fun _ => Prog.Within.of_pure _
  | upsertSynapse peer => exact absurd rfl (other peer)

end Outcomes

section Writes

variable (across : HoldsAcrossLearning R)
include across

theorem upsertSynapse_storeWithin (peer : NodeId) :
    (node.upsertSynapse peer).Within (StoreWithin R) := by
  have read : ∀ {α : Type} {f : NodeState F → α}, (Prog.read f : NodeM F α).Within
      (StoreWithin R) := fun {α f} => Prog.Within.of_act fun s => across.same s.store
  refine read.bind fun now => ?_
  refine (callStore_storeWithin across.outcomes across.same).bind fun found => ?_
  split
  · split
    · dsimp only
      split
      · exact Prog.Within.of_throw _
      · exact (putSynapse_storeWithin across.outcomes _).bind fun _ => Prog.Within.of_pure _
    · split
      · exact (putSynapse_storeWithin across.outcomes _).bind fun _ => Prog.Within.of_pure _
      · exact Prog.Within.of_pure _
  · refine (Prog.Within.of_act fun s => across.same s.store).bind fun synapse => ?_
    refine (putSynapse_storeWithin across.outcomes _).bind fun _ => ?_
    refine (callStore_storeWithin across.outcomes ?_).bind fun _ => Prog.Within.of_pure _
    exact fun st => across.peers st _

theorem writes_storeWithin {call : Call F} (writes : call.Writes) :
    (node.perform call).Within (StoreWithin R) := by
  by_cases connects : ∃ peer, call = .upsertSynapse peer
  · obtain ⟨peer, rfl⟩ := connects
    exact (node.upsertSynapse_storeWithin across peer).map _
  · exact node.outcomes_storeWithin across.outcomes writes fun peer same => connects ⟨peer, same⟩

end Writes

theorem perform_storeWithin (across : HoldsAcrossWrites R) (call : Call F)
    (other : call ≠ .checkpoint) : (node.perform call).Within (StoreWithin R) := by
  rcases call.reads_or_writes with reads | writes
  · exact (node.routes_quiet across.toHoldsAcrossRouting reads other).mono fun s s' h => h.store
  · exact node.writes_storeWithin across.toHoldsAcrossLearning writes

end Node
end OpenNtl
