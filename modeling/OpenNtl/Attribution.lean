import OpenNtl.Planning
import OpenNtl.TableChange

/-! # Whose synapse a decision is about

Every journal entry names a stored synapse, and the peer of that synapse.
-/
namespace OpenNtl

open AtomicProgram NodeM

variable {F : Type}

def Attributed (st : MemoryStore F) : Prop :=
  ∀ e ∈ st.journal, ∃ r, st.getSynapse e.synapse = some r ∧ r.peer = e.peer

def KeepsPeers (st st' : MemoryStore F) : Prop :=
  ∀ id r, st.getSynapse id = some r → ∃ r', st'.getSynapse id = some r' ∧ r'.peer = r.peer

/-- Every entry is about a synapse and a peer that an entry was about before. -/
def KeepsTargets (st st' : MemoryStore F) : Prop :=
  ∀ e' ∈ st'.journal, ∃ e ∈ st.journal, e'.synapse = e.synapse ∧ e'.peer = e.peer

theorem KeepsPeers.of_same {st st' : MemoryStore F} (same : st'.synapses = st.synapses) :
    KeepsPeers st st' := by
  intro id r found
  refine ⟨r, ?_, rfl⟩
  rw [MemoryStore.getSynapse_congr same]
  exact found

namespace KeepsTargets

theorem of_same {st st' : MemoryStore F} (same : st'.journal = st.journal) :
    KeepsTargets st st' := by
  intro e he
  rw [same] at he
  exact ⟨e, he, rfl, rfl⟩

theorem trans {a b c : MemoryStore F} (first : KeepsTargets a b) (second : KeepsTargets b c) :
    KeepsTargets a c := by
  intro e₂ h₂
  obtain ⟨e₁, h₁, synapse₁, peer₁⟩ := second e₂ h₂
  obtain ⟨e₀, h₀, synapse₀, peer₀⟩ := first e₁ h₁
  exact ⟨e₀, h₀, synapse₁.trans synapse₀, peer₁.trans peer₀⟩

theorem resolve (st : MemoryStore F) (id : JournalId) (outcome : Outcome) (nowNs : ℕ) :
    KeepsTargets st (st.resolveDecision id outcome nowNs).2 := by
  rcases st.resolveDecision_cases id outcome nowNs with ⟨-, r⟩ | ⟨e, -, -, r⟩ | ⟨e, found, -, r⟩
  · rw [r]
    exact of_same rfl
  · rw [r]
    exact of_same rfl
  · rw [r]
    intro x hx
    rcases mem_updateFirst hx with hx | ⟨y, hy, rfl⟩
    · exact ⟨x, hx, rfl, rfl⟩
    · exact ⟨y, List.mem_of_find?_eq_some hy, rfl, rfl⟩

theorem across : HoldsAcrossLearning (KeepsTargets (F := F)) where
  same := fun _ => of_same rfl
  resolves := resolve
  reweighs := fun h => of_same h.journal
  peers := fun _ _ => of_same rfl

end KeepsTargets

namespace Attributed

theorem step {st st' : MemoryStore F} (h : Attributed st) (peers : KeepsPeers st st')
    (targets : KeepsTargets st st') : Attributed st' := by
  intro e' he'
  obtain ⟨e, he, synapse, peer⟩ := targets e' he'
  obtain ⟨r, found, leads⟩ := h e he
  obtain ⟨r', found', kept⟩ := peers _ r found
  refine ⟨r', ?_, ?_⟩
  · rw [synapse]
    exact found'
  · rw [kept, leads, peer]

theorem appendDecision {st : MemoryStore F} (h : Attributed st) {e : JournalEntry F}
    {r : SynapseRecord F} (found : st.getSynapse e.synapse = some r) (leads : r.peer = e.peer) :
    Attributed (st.appendDecision e).2 := by
  intro x hx
  rcases List.mem_append.mp hx with hx | hx
  · exact h x hx
  · rw [List.mem_singleton.mp hx]
    exact ⟨r, found, leads⟩

end Attributed

def Kept (s : NodeState F) : Prop := Filed s.store ∧ Attributed s.store

theorem Kept.of_same {s s' : NodeState F} (h : Kept s)
    (synapses : s'.store.synapses = s.store.synapses) (journal : s'.store.journal = s.store.journal) :
    Kept s' :=
  ⟨h.1.of_same synapses, h.2.step (.of_same synapses) (.of_same journal)⟩

section Planning

theorem keeps_read {α : Type} {f : NodeState F → α} :
    (Prog.read f : NodeM F α).Keeps Kept := fun _ h => h

theorem keeps_callStore {α : Type} {op : MemoryStore F → α × MemoryStore F}
    (synapses : ∀ st, (op st).2.synapses = st.synapses)
    (journal : ∀ st, (op st).2.journal = st.journal) : (callStore op).Keeps Kept := by
  apply Prog.Keeps.bind
  · apply Prog.Keeps.of_act
    intro s h
    cases nextFault s with
    | none => exact h.of_same (synapses s.store) (journal s.store)
    | some f => exact h.of_same rfl rfl
  · intro r
    exact Prog.Keeps.of_ofExcept _

theorem journalChoices_keep (signal : Signal F) (nowNs : ℕ) (chosen : List (Chosen F))
    {s : NodeState F} (h : Kept s)
    (stored : ∀ c ∈ chosen, ∃ r, s.store.getSynapse c.synapse.id = some r ∧
      r.peer = c.synapse.remoteNode) :
    Kept ((chosen.mapM (Node.journalChoice signal nowNs)).run s).2 := by
  induction chosen generalizing s with
  | nil => exact h
  | cons c rest ih =>
    rw [List.mapM_cons]
    unfold Node.journalChoice
    rw [Prog.bind_bind]
    refine Node.callStore_bind_leaves h ?_
    obtain ⟨r, found, leads⟩ := stored c List.mem_cons_self
    have appended : Kept (s.stored (s.store.appendDecision (Node.decisionFor signal nowNs c)).2) :=
      ⟨h.1.of_same rfl, h.2.appendDecision found leads⟩
    have later := ih appended fun x hx => stored x (List.mem_cons_of_mem c hx)
    rw [pure_bind, Prog.run_bind_pure_snd]
    exact later

variable [Scalar F] (node : Node F)

theorem planForwarding_keeps (signal : Signal F) (arrival : Option SynapseId) (nowNs : ℕ) :
    (node.planForwarding signal arrival nowNs).Keeps Kept := by
  intro s h
  unfold Node.planForwarding
  split_ifs with deep
  · exact h
  refine Node.callStore_bind_leaves h ?_
  dsimp only
  split_ifs with empty
  · exact h
  rw [Node.withRng_bind_run]
  apply journalChoices_keep
  · exact h
  · intro c chosen
    obtain ⟨r, listed, same⟩ := List.mem_map.mp (selectSynapses_mem chosen)
    refine ⟨r, ?_, ?_⟩
    · rw [← same]
      exact h.1.find (Node.mem_listSynapses listed).1
    · rw [← same]
      rfl

omit [Scalar F] in
theorem emit_keeps (builder : SignalBuilder F) : (node.emit builder).Keeps Kept := by
  refine keeps_read.bind fun now => keeps_read.bind fun timestamp => keeps_read.bind fun idTime => ?_
  refine Prog.Keeps.bind (Prog.Keeps.of_act fun s h => h) fun draws => ?_
  apply Prog.Keeps.bind
  · apply keeps_callStore
    · intro st
      exact st.checkAndSetSeen_synapses _ _ _
    · intro st
      exact st.checkAndSetSeen_journal _ _ _
  · intro seen
    exact Prog.Keeps.of_pure _

theorem receiveLocal_keeps (signal : Signal F) : (node.receiveLocal signal).Keeps Kept := by
  refine keeps_read.bind fun now => ?_
  split
  · exact Prog.Keeps.of_pure _
  · refine (planForwarding_keeps node signal none now).bind fun forwardTo => ?_
    split_ifs
    · exact Prog.Keeps.of_pure _
    · exact Prog.Keeps.of_pure _

theorem arrivalWeight_keeps (arrival : Option SynapseId) :
    (Node.arrivalWeight (F := F) arrival).Keeps Kept := by
  cases arrival with
  | none => exact Prog.Keeps.of_pure _
  | some id =>
    apply Prog.Keeps.bind
    · apply Prog.Keeps.of_act
      intro s h
      cases nextFault s with
      | none => exact h
      | some f => exact h
    · intro r
      split
      · exact Prog.Keeps.of_pure _
      · exact Prog.Keeps.of_pure _

theorem receive_keeps (signal : Signal F) (arrival : Option SynapseId) :
    (node.receive signal arrival).Keeps Kept := by
  have admission : (node.admission signal arrival).Keeps Kept := by
    refine keeps_read.bind fun now => ?_
    refine (keeps_callStore (fun st => st.checkAndSetSeen_synapses _ _ _)
      fun st => st.checkAndSetSeen_journal _ _ _).bind fun seen => ?_
    split
    · exact Prog.Keeps.of_pure _
    · split
      · exact Prog.Keeps.of_pure _
      · refine (arrivalWeight_keeps arrival).bind fun weight => ?_
        exact Prog.Keeps.bind (Prog.Keeps.of_act fun s h => h) fun admitted =>
          Prog.Keeps.of_pure _
  refine admission.bind fun r => ?_
  split
  · exact Prog.Keeps.of_pure _
  · unfold Node.afterAdmission
    dsimp only
    split_ifs with shed fired
    · exact Prog.Keeps.of_pure _
    · refine (planForwarding_keeps node signal arrival _).bind fun forwardTo => ?_
      split_ifs
      · exact Prog.Keeps.of_pure _
      · exact Prog.Keeps.of_pure _
    · refine (Prog.Keeps.of_pure []).bind fun forwardTo => ?_
      split_ifs
      · exact Prog.Keeps.of_pure _
      · exact Prog.Keeps.of_pure _

omit [Scalar F] in
theorem checkpoint_keeps : (Node.checkpoint (F := F)).Keeps Kept := by
  refine keeps_read.bind fun now => Prog.Keeps.bind (Prog.Keeps.of_act fun s h => h) fun taken => ?_
  refine (keeps_callStore (fun st => rfl) fun st => rfl).bind fun _ => ?_
  refine (keeps_callStore (fun st => rfl) fun st => rfl).bind fun _ => ?_
  exact keeps_callStore (fun st => rfl) fun st => rfl

theorem reads_keep {call : Call F} (reads : call.Reads) : (node.perform call).Keeps Kept := by
  cases reads with
  | emit builder => exact (emit_keeps node builder).map _
  | receiveLocal signal => exact (receiveLocal_keeps node signal).map _
  | receive signal arrival => exact (receive_keeps node signal arrival).map _
  | planRelease signal arrival =>
    exact (keeps_read.bind fun now => planForwarding_keeps node signal arrival now).map _
  | synapseForPeer peer =>
    refine Prog.Keeps.map _ (Prog.Keeps.of_act fun s h => ?_)
    cases nextFault s with
    | none => exact h
    | some f => exact h
  | pollActivation =>
    exact (keeps_read.bind fun now => Prog.Keeps.of_act fun s h => h).map _
  | checkpoint => exact checkpoint_keeps.map _

end Planning

variable [Scalar F] {node : Node F} {m : Moment F}

theorem KeepsPeers.of_reweighed {nowNs : ℕ} {applies : SynapseId → Outcome → Prop}
    {st st' : MemoryStore F} (records : node.Reweighed nowNs applies st st') :
    KeepsPeers st st' := by
  intro id r found
  obtain ⟨r', found', rewritten⟩ := records.became found
  exact ⟨r', found', (Node.Reweigh.keepStanding rewritten).peer⟩

/-- Synapses stay where they are, given that a new one gets an identifier of its own. -/
theorem TableChange.keepsPeers (change : TableChange node m) (fresh : node.FreshId m)
    (filed : Filed m.before.store) : KeepsPeers m.before.store m.after.store := by
  intro id r found
  obtain ⟨r', after, became⟩ := change.became fresh filed found
  exact ⟨r', after, became.descends.peer⟩

variable (node) in
theorem settle_kept (id : JournalId) (outcome : Outcome) (nowNs : ℕ) {s : NodeState F}
    (h : Kept s) : Kept ((node.settle id outcome nowNs).run s).2 := by
  have records : node.Reweighed nowNs (fun _ _ => True) s.store
      ((node.settle id outcome nowNs).run s).2.store :=
    Node.settle_reweighs h.1 fun _ _ => trivial
  refine ⟨records.filed h.1, h.2.step (.of_reweighed records) ?_⟩
  have within := node.settle_storeWithin KeepsTargets.across.outcomes id outcome nowNs
  exact within.run (R := StoreWithin KeepsTargets) (fun s => KeepsTargets.of_same rfl)
    (fun hs ht => KeepsTargets.trans hs ht) s

theorem perform_kept (performed : m.Performed node) (fresh : node.FreshId m)
    (h : Kept m.before) : Kept m.after := by
  rcases m.call.reads_or_writes with reads | writes
  · rw [moment_after performed]
    exact reads_keep node reads m.before h
  · have change := table_change performed h.1
    refine ⟨change.filed h.1, h.2.step (change.keepsPeers fresh h.1) ?_⟩
    rw [moment_after performed]
    have within := node.writes_storeWithin KeepsTargets.across writes
    exact within.run (R := StoreWithin KeepsTargets) (fun s => KeepsTargets.of_same rfl)
      (fun hs ht => KeepsTargets.trans hs ht) m.before

/-- In every run whose synapses get identifiers of their own, decisions are about the synapses of
the peers they name. -/
theorem NodeRun.kept {ms : List (Moment F)} {s : NodeState F} (run : NodeRun node ms s)
    (fresh : ∀ m ∈ ms, node.FreshId m) : Kept s ∧ ∀ m ∈ ms, Kept m.before := by
  induction run with
  | start =>
    refine ⟨⟨?_, ?_⟩, fun m hm => by cases hm⟩
    · intro id r found
      cases found
    · intro e he
      cases he
  | restart _ restarts ih =>
    obtain ⟨rng, clock, faults, rfl⟩ := restarts.built
    exact ih fresh
  | @call ms s m run resumes performed ih =>
    obtain ⟨last, earlier⟩ := ih fun m' hm' => fresh m' (by simp [hm'])
    have before : Kept m.before := last.of_same (by rw [resumes.store]) (by rw [resumes.store])
    constructor
    · exact perform_kept performed (fresh m (by simp)) before
    · intro m' hm'
      rcases List.mem_append.mp hm' with hm' | hm'
      · exact earlier m' hm'
      · rw [List.mem_singleton.mp hm']
        exact before

end OpenNtl
