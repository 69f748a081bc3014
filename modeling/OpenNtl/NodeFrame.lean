import OpenNtl.Node

/-! # What each method of the node can change -/
namespace OpenNtl

open AtomicProgram NodeM

variable {F : Type}

namespace NodeState

def stored (s : NodeState F) (st : MemoryStore F) : NodeState F :=
  { s with store := st, faults := s.faults.tail }

variable (s : NodeState F) (st : MemoryStore F)

@[simp] theorem stored_store : (s.stored st).store = st := rfl
@[simp] theorem stored_activation : (s.stored st).activation = s.activation := rfl
@[simp] theorem stored_rng : (s.stored st).rng = s.rng := rfl
@[simp] theorem stored_clock : (s.stored st).clock = s.clock := rfl
@[simp] theorem stored_faults : (s.stored st).faults = s.faults.tail := rfl
@[simp] theorem stored_learned : (s.stored st).learned = s.learned := rfl

end NodeState

theorem now_bind_run {α : Type} (f : ℕ → NodeM F α) (s : NodeState F) :
    (NodeM.now >>= f).run s = (f s.clock).run s := rfl

section StoreCall

variable {α : Type} {op : MemoryStore F → α × MemoryStore F} {s s' : NodeState F}

theorem nextFault_quiet (quiet : s.faults = []) : nextFault s = none := by
  unfold nextFault
  rw [quiet]
  rfl

theorem callStore_run_ok (h : nextFault s = none) :
    (callStore op).run s = (.ok (op s.store).1, s.stored (op s.store).2) := by
  simp [callStore, tryStore, Prog.run_bind, h, serialized, Except.mapError, NodeState.stored]

theorem callStore_run_error {f : StoreError} (h : nextFault s = some f) :
    (callStore op).run s = (.error (.serialization f.display), s.stored s.store) := by
  simp [callStore, tryStore, Prog.run_bind, h, serialized, Except.mapError, NodeState.stored]

theorem readStore_run_ok {op : MemoryStore F → α} (h : nextFault s = none) :
    (readStore op).run s = (.ok (op s.store), s.stored s.store) := callStore_run_ok h

theorem readStore_run_error {op : MemoryStore F → α} {f : StoreError} (h : nextFault s = some f) :
    (readStore op).run s = (.error (.serialization f.display), s.stored s.store) :=
  callStore_run_error h

theorem callStore_eq_ok {a : α} :
    (callStore op).run s = (.ok a, s') ↔
      nextFault s = none ∧ a = (op s.store).1 ∧ s' = s.stored (op s.store).2 := by
  cases h : nextFault s with
  | none =>
    rw [callStore_run_ok h]
    simp [eq_comm]
  | some f =>
    rw [callStore_run_error h]
    simp

end StoreCall

/-- Only the tables of the store change, as `R` says, beside the random source and the
failures used up. -/
structure StoreOnly (R : MemoryStore F → MemoryStore F → Prop) (s s' : NodeState F) : Prop where
  activation : s'.activation = s.activation
  clock : s'.clock = s.clock
  learned : s'.learned = s.learned
  store : R s.store s'.store

namespace StoreOnly

variable {R : MemoryStore F → MemoryStore F → Prop}

theorem refl (h : ∀ st, R st st) (s : NodeState F) : StoreOnly R s s := ⟨rfl, rfl, rfl, h s.store⟩

theorem trans {s t u : NodeState F} (hs : StoreOnly R s t) (ht : StoreOnly R t u)
    (h : ∀ {a b c}, R a b → R b c → R a c) : StoreOnly R s u :=
  ⟨ht.activation.trans hs.activation, ht.clock.trans hs.clock, ht.learned.trans hs.learned,
    h hs.store ht.store⟩

variable {α : Type}

theorem callStore {op : MemoryStore F → α × MemoryStore F} (refl : ∀ st, R st st)
    (h : ∀ st, R st (op st).2) : (callStore op).Within (StoreOnly R) := by
  refine Prog.Within.bind (Prog.Within.of_act fun s => ?_) fun r => Prog.Within.of_ofExcept _
  cases hf : nextFault s with
  | none => exact ⟨rfl, rfl, rfl, h s.store⟩
  | some f => exact ⟨rfl, rfl, rfl, refl s.store⟩

theorem readStore {op : MemoryStore F → α} (refl : ∀ st, R st st) :
    (readStore op).Within (StoreOnly R) := callStore refl refl

theorem withRng {f : Rng → α × Rng} (refl : ∀ st, R st st) :
    (withRng (F := F) f).Within (StoreOnly R) :=
  Prog.Within.of_act fun s => ⟨rfl, rfl, rfl, refl s.store⟩

theorem now (refl : ∀ st, R st st) : (NodeM.now (F := F)).Within (StoreOnly R) :=
  Prog.Within.of_act fun s => ⟨rfl, rfl, rfl, refl s.store⟩

end StoreOnly

/-- `new` are pending entries under the identifiers that follow `next`. -/
structure FreshEntries (next : ℕ) (new : List (JournalEntry F)) : Prop where
  ids : new.map JournalEntry.id = (List.range new.length).map fun i => some ⟨next + i + 1⟩
  pending : ∀ e ∈ new, e.outcome = .pending
  unresolved : ∀ e ∈ new, e.resolvedAtNs = none

def JournalGrows (st st' : MemoryStore F) : Prop :=
  ∃ new, st'.journal = st.journal ++ new ∧ FreshEntries st.nextJournalId new ∧
    st'.nextJournalId = st.nextJournalId + new.length

namespace JournalGrows

theorem of_same {st st' : MemoryStore F} (journal : st'.journal = st.journal)
    (next : st'.nextJournalId = st.nextJournalId) : JournalGrows st st' :=
  ⟨[], journal.trans (List.append_nil _).symm, ⟨rfl, by simp, by simp⟩, next⟩

theorem refl (st : MemoryStore F) : JournalGrows st st := of_same rfl rfl

theorem trans {a b c : MemoryStore F} (hab : JournalGrows a b) (hbc : JournalGrows b c) :
    JournalGrows a c := by
  obtain ⟨new, journal, fresh, next⟩ := hab
  obtain ⟨new', journal', fresh', next'⟩ := hbc
  refine ⟨new ++ new', ?_, ⟨?_, ?_, ?_⟩, ?_⟩
  · rw [journal', journal, List.append_assoc]
  · rw [List.map_append, fresh.ids, fresh'.ids, List.length_append, List.range_add,
      List.map_append, List.map_map, next]
    congr 1
    refine List.map_congr_left fun i _ => ?_
    simp only [Function.comp_apply, Nat.add_assoc]
  · intro e he
    rcases List.mem_append.mp he with he | he
    · exact fresh.pending e he
    · exact fresh'.pending e he
  · intro e he
    rcases List.mem_append.mp he with he | he
    · exact fresh.unresolved e he
    · exact fresh'.unresolved e he
  · rw [next', next, List.length_append, Nat.add_assoc]

theorem appendDecision (st : MemoryStore F) {e : JournalEntry F} (pending : e.outcome = .pending)
    (unresolved : e.resolvedAtNs = none) : JournalGrows st (st.appendDecision e).2 := by
  refine ⟨[{ e with id := some ⟨st.nextJournalId + 1⟩ }], rfl, ⟨rfl, ?_, ?_⟩, rfl⟩
  · intro x hx
    rw [List.mem_singleton.mp hx]
    exact pending
  · intro x hx
    rw [List.mem_singleton.mp hx]
    exact unresolved

end JournalGrows

/-- Nothing changes but the journal, which grows by fresh decisions. -/
structure Appends (st st' : MemoryStore F) : Prop where
  synapses : st'.synapses = st.synapses
  peers : st'.peers = st.peers
  seen : st'.seen = st.seen
  influence : st'.influence = st.influence
  journal : JournalGrows st st'

namespace Appends

theorem refl (st : MemoryStore F) : Appends st st := ⟨rfl, rfl, rfl, rfl, JournalGrows.refl st⟩

theorem trans {a b c : MemoryStore F} (hab : Appends a b) (hbc : Appends b c) : Appends a c :=
  ⟨hbc.synapses.trans hab.synapses, hbc.peers.trans hab.peers, hbc.seen.trans hab.seen,
    hbc.influence.trans hab.influence, hab.journal.trans hbc.journal⟩

theorem appendDecision (st : MemoryStore F) {e : JournalEntry F} (pending : e.outcome = .pending)
    (unresolved : e.resolvedAtNs = none) : Appends st (st.appendDecision e).2 :=
  ⟨rfl, rfl, rfl, rfl, JournalGrows.appendDecision st pending unresolved⟩

end Appends

namespace Node

variable [Scalar F] (node : Node F)

theorem planForwarding_within (signal : Signal F) (arrival : Option SynapseId) (nowNs : ℕ) :
    (node.planForwarding signal arrival nowNs).Within (StoreOnly Appends) := by
  unfold planForwarding
  split
  · exact Prog.Within.of_pure []
  · refine (StoreOnly.readStore Appends.refl).bind fun records => ?_
    split
    · exact Prog.Within.of_pure []
    · refine (StoreOnly.withRng Appends.refl).bind fun chosen => Prog.Within.mapM (fun c => ?_) _
      refine (StoreOnly.callStore Appends.refl fun st => ?_).bind fun id => Prog.Within.of_pure _
      exact Appends.appendDecision st rfl rfl

theorem planForwarding_run (signal : Signal F) (arrival : Option SynapseId) (nowNs : ℕ)
    (s : NodeState F) :
    StoreOnly Appends s ((node.planForwarding signal arrival nowNs).run s).2 :=
  (node.planForwarding_within signal arrival nowNs).run (StoreOnly.refl Appends.refl)
    (fun hs ht => hs.trans ht Appends.trans) s

end Node

/-- Only synapses and influence change. -/
structure Reweighs (st st' : MemoryStore F) : Prop where
  peers : st'.peers = st.peers
  seen : st'.seen = st.seen
  journal : st'.journal = st.journal
  nextJournalId : st'.nextJournalId = st.nextJournalId

namespace Reweighs

theorem refl (st : MemoryStore F) : Reweighs st st := ⟨rfl, rfl, rfl, rfl⟩

theorem trans {a b c : MemoryStore F} (hab : Reweighs a b) (hbc : Reweighs b c) : Reweighs a c :=
  ⟨hbc.peers.trans hab.peers, hbc.seen.trans hab.seen, hbc.journal.trans hab.journal,
    hbc.nextJournalId.trans hab.nextJournalId⟩

theorem putSynapse (st : MemoryStore F) (r : SynapseRecord F) : Reweighs st (st.putSynapse r) :=
  ⟨rfl, rfl, rfl, rfl⟩

end Reweighs

namespace Node

variable [Scalar F] (node : Node F)

theorem normalizeOutboundWeights_within :
    node.normalizeOutboundWeights.Within (StoreOnly Reweighs) := by
  refine (StoreOnly.readStore Reweighs.refl).bind fun records => ?_
  split
  · exact Prog.Within.of_pure _
  · split
    · exact Prog.Within.of_pure _
    · refine (Prog.Within.forM (fun rw => ?_) _).bind fun _ => Prog.Within.of_pure _
      exact StoreOnly.callStore Reweighs.refl fun st => Reweighs.putSynapse st _

theorem updateSynapse_within (entry : JournalEntry F) (outcome : Outcome) (nowNs : ℕ) :
    (node.updateSynapse entry outcome nowNs).Within (StoreOnly Reweighs) := by
  refine (StoreOnly.readStore Reweighs.refl).bind fun used =>
    (StoreOnly.readStore Reweighs.refl).bind fun found => ?_
  cases found with
  | none => exact Prog.Within.of_pure _
  | some record =>
    have write : ∀ r : SynapseRecord F,
        (writeStore fun st => st.putSynapse r).Within (StoreOnly Reweighs) :=
      fun r => StoreOnly.callStore Reweighs.refl fun st => Reweighs.putSynapse st r
    have finish : ∀ (r : SynapseRecord F) (u : WeightUpdate F), ((do
        writeStore fun st => st.putSynapse r
        let _ ← node.normalizeOutboundWeights
        return u) : NodeM F _).Within (StoreOnly Reweighs) := fun r u =>
      (write r).bind fun _ => node.normalizeOutboundWeights_within.bind fun _ =>
        Prog.Within.of_pure _
    dsimp only
    split
    · refine (StoreOnly.callStore Reweighs.refl fun st => ?_).bind fun _ => finish _ _
      exact ⟨rfl, rfl, rfl, rfl⟩
    · exact finish _ _

theorem updateSynapse_run (entry : JournalEntry F) (outcome : Outcome) (nowNs : ℕ)
    (s : NodeState F) :
    StoreOnly Reweighs s ((node.updateSynapse entry outcome nowNs).run s).2 :=
  (node.updateSynapse_within entry outcome nowNs).run (StoreOnly.refl Reweighs.refl)
    (fun hs ht => hs.trans ht Reweighs.trans) s

end Node
end OpenNtl
