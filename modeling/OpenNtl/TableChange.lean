import OpenNtl.SynapseWrites

/-! # What each call does to the synapse table

Learning and normalisation rewrite records in place, a signature failure penalises one record,
and connecting reactivates, re-forms or forms one.
-/
namespace OpenNtl

open AtomicProgram NodeM Relation

variable {F : Type} [Scalar F]

namespace Node

/-- A call that may apply this outcome to this synapse. -/
inductive Applies (m : Moment F) : SynapseId → Outcome → Prop
  | forward {journalId : JournalId} {id : SynapseId} (call : m.call = .failForward journalId) :
      Applies m id .transportFailure
  | receipt {receipt : Receipt} {peer : NodeId} {pending e : JournalEntry F}
      {journalId : JournalId} (call : m.call = .applyReceipt receipt peer)
      (matched : m.before.store.pendingDecisionFor receipt.correlationId peer = some pending)
      (named : pending.id = some journalId) (found : m.before.store.decision journalId = some e) :
      Applies m e.synapse receipt.outcome
  | sweep {limit : ℕ} {id : SynapseId} (call : m.call = .sweepTimeouts limit) :
      Applies m id .timedOut

end Node

def Moment.Penalizes (m : Moment F) (id : SynapseId) : Prop :=
  m.call = .penalizeSignatureFailure id ∧ ∃ o, m.reply = .ok (.penalty (some o))

/-- The end of the cooldown of a synapse that was pruned at its last activity. -/
def Node.cooldownEnd (node : Node F) (lastActiveNs : ℕ) : ℕ :=
  saturatingAdd lastActiveNs
    (saturatingMul node.config.learning.signatureFailureCooldownSecs nanosPerSec)

/-- What connecting to a peer does to the synapse table. -/
inductive Node.Upserted (node : Node F) (peer : NodeId) (s : NodeState F) (st' : MemoryStore F) :
    Prop
  | kept (same : st'.synapses = s.store.synapses)
  | reactivated {r : SynapseRecord F} (found : s.store.synapseForPeer peer = some r)
      (dormant : r.state = .dormant)
      (after : st'.synapses = (s.store.putSynapse
        { r with weight := node.config.synapse.initialWeight, state := .active }).synapses)
  | reformed {r : SynapseRecord F} (found : s.store.synapseForPeer peer = some r)
      (pruned : r.state = .pruned) (served : node.cooldownEnd r.lastActiveNs ≤ s.clock)
      (after : st'.synapses = (s.store.putSynapse (node.reform r s.clock)).synapses)
  | formed (missing : s.store.synapseForPeer peer = none)
      (after : st'.synapses =
        (s.store.putSynapse (node.formedRecord peer s.clock s.rng)).synapses)

/-- What a call did to the synapse table. -/
inductive TableChange (node : Node F) (m : Moment F) : Prop
  | reweighs (other : ∀ id, ¬ m.Penalizes id)
      (records : node.Reweighed m.before.clock (Node.Applies m) m.before.store m.after.store)
  | penalizes {r : SynapseRecord F} (call : m.call = .penalizeSignatureFailure r.id)
      (found : m.before.store.getSynapse r.id = some r)
      (reply : m.reply = .ok (.penalty (some (node.penalty m.before.clock r))))
      (after : m.after.store.synapses =
        (m.before.store.putSynapse (node.penalizedRecord m.before.clock r)).synapses)
  | upserts {peer : NodeId} (call : m.call = .upsertSynapse peer)
      (change : node.Upserted peer m.before m.after.store)

def KeepsSynapses (st st' : MemoryStore F) : Prop := st'.synapses = st.synapses

omit [Scalar F] in
theorem keepsSynapses_across : HoldsAcrossReads (KeepsSynapses (F := F)) where
  same := fun _ => rfl
  claims := fun st id nowNs ttlSecs => MemoryStore.checkAndSetSeen_synapses st id nowNs ttlSecs
  plans := fun h => h.synapses
  saves := fun _ _ => rfl
  purges := fun _ _ => rfl

theorem reads_keepSynapses {node : Node F} {m : Moment F} (performed : m.Performed node)
    (reads : m.call.Reads) : m.after.store.synapses = m.before.store.synapses := by
  rw [moment_after performed]
  have trans : ∀ {a b c : MemoryStore F}, KeepsSynapses a b → KeepsSynapses b c →
      KeepsSynapses a c := fun hab hbc => Eq.trans hbc hab
  exact ((node.reads_quiet keepsSynapses_across reads).run
    (Quiet.refl keepsSynapses_across.same) (fun hs ht => Quiet.trans (R := KeepsSynapses) trans hs ht) m.before).store

namespace Node

variable (node : Node F)

theorem penalizeSignatureFailure_ends (id : SynapseId) (s : NodeState F) :
    (((node.penalizeSignatureFailure id).run s).2.store = s.store ∧
      ∀ o, ((node.penalizeSignatureFailure id).run s).1 ≠ .ok (some o)) ∨
    ∃ r, s.store.getSynapse id = some r ∧
      ((node.penalizeSignatureFailure id).run s).1 = .ok (some (node.penalty s.clock r)) ∧
      ((node.penalizeSignatureFailure id).run s).2.store =
        s.store.putSynapse (node.penalizedRecord s.clock r) := by
  let P (x : Except NodeError (Option SignatureFailureOutcome) × NodeState F) : Prop :=
    (x.2.store = s.store ∧ ∀ o, x.1 ≠ .ok (some o)) ∨
    ∃ r, s.store.getSynapse id = some r ∧ x.1 = .ok (some (node.penalty s.clock r)) ∧
      x.2.store = s.store.putSynapse (node.penalizedRecord s.clock r)
  refine callStore_bind_ends (P := P) (fun e => Or.inl ⟨rfl, by simp⟩) ?_
  dsimp only
  cases found : s.store.getSynapse id with
  | none => exact Or.inl ⟨rfl, by simp⟩
  | some r =>
    refine callStore_bind_ends (P := P) (fun e => Or.inl ⟨rfl, by simp⟩) ?_
    exact Or.inr ⟨r, found, rfl, rfl⟩

theorem upsertSynapse_ends (peer : NodeId) (s : NodeState F) :
    node.Upserted peer s ((node.upsertSynapse peer).run s).2.store := by
  refine callStore_bind_leaves (P := fun t => node.Upserted peer s t.store) (.kept rfl) ?_
  dsimp only
  cases found : s.store.synapseForPeer peer with
  | none =>
    dsimp only
    rw [withRng_bind_run]
    refine callStore_bind_leaves (P := fun t => node.Upserted peer s t.store) (.kept rfl) ?_
    refine callStore_bind_leaves (P := fun t => node.Upserted peer s t.store) ?_ ?_
    · exact .formed found rfl
    · exact .formed found rfl
  | some r =>
    dsimp only
    split_ifs with pruned early dormant
    · exact .kept rfl
    · refine callStore_bind_leaves (P := fun t => node.Upserted peer s t.store) (.kept rfl) ?_
      exact .reformed found pruned (not_lt.mp early) rfl
    · refine callStore_bind_leaves (P := fun t => node.Upserted peer s t.store) (.kept rfl) ?_
      refine .reactivated found dormant ?_
      simp only [Synapse.reactivate, Synapse.fromRecord, dormant, if_true]
      rfl
    · exact .kept rfl

section Calls

variable {node} {m : Moment F} (filed : Filed m.before.store)
include filed

theorem applyReceipt_reweighs {receipt : Receipt} {peer : NodeId}
    (call : m.call = .applyReceipt receipt peer) :
    node.Reweighed m.before.clock (Applies m) m.before.store
      ((node.applyReceipt receipt peer).run m.before).2.store := by
  refine callStore_bind_leaves
    (P := fun t => node.Reweighed m.before.clock (Applies m) m.before.store t.store)
    (.of_same rfl) ?_
  dsimp only
  cases matched : (m.before.store.pendingDecisionFor receipt.correlationId peer).bind
    JournalEntry.id with
  | none => exact .of_same rfl
  | some id =>
    obtain ⟨pending, found, named⟩ := Option.bind_eq_some_iff.mp matched
    refine settle_reweighs (s := m.before.stored m.before.store) filed fun e decided => ?_
    exact .receipt call found named decided

theorem sweepTimeouts_reweighs {limit : ℕ} (call : m.call = .sweepTimeouts limit) :
    node.Reweighed m.before.clock (Applies m) m.before.store
      ((node.sweepTimeouts limit).run m.before).2.store := by
  refine callStore_bind_leaves
    (P := fun t => node.Reweighed m.before.clock (Applies m) m.before.store t.store)
    (.of_same rfl) ?_
  exact sweep_reweighs (s := m.before.stored m.before.store) (fun id => .sweep call) _ 0 filed

theorem penalizeSignatureFailure_change (performed : m.Performed node) {id : SynapseId}
    (call : m.call = .penalizeSignatureFailure id) : TableChange node m := by
  have run : (node.perform m.call).run m.before = (m.reply, m.after) := performed
  rw [call] at run
  obtain ⟨reply, last⟩ := Prod.mk.inj ((Prog.run_map _ _ _).symm.trans run)
  rcases node.penalizeSignatureFailure_ends id m.before with ⟨kept, silent⟩ | written
  · rw [last] at kept
    refine .reweighs (fun id' penalizes => ?_) (.of_same (by rw [kept]))
    obtain ⟨o, penalty⟩ := penalizes.2
    rw [← reply] at penalty
    cases result : ((node.penalizeSignatureFailure id).run m.before).1 with
    | error e =>
      rw [result] at penalty
      cases penalty
    | ok x =>
      rw [result] at penalty silent
      have same : x = some o := by simpa [Except.map] using penalty
      exact silent o (congrArg _ same)
  · obtain ⟨r, found, reported, kept⟩ := written
    obtain rfl : r.id = id := filed _ r found
    rw [reported] at reply
    rw [last] at kept
    exact .penalizes call found reply.symm (by rw [kept])

end Calls

end Node

theorem table_change {node : Node F} {m : Moment F} (performed : m.Performed node)
    (filed : Filed m.before.store) : TableChange node m := by
  have other : (∀ id, m.call ≠ .penalizeSignatureFailure id) → ∀ id, ¬ m.Penalizes id :=
    fun other id penalizes => other id penalizes.1
  -- A call that learns or normalises.
  have learns : ∀ {call : Call F}, m.call = call → (∀ id, call ≠ .penalizeSignatureFailure id) →
      node.Reweighed m.before.clock (Node.Applies m) m.before.store
        ((node.perform call).run m.before).2.store → TableChange node m := by
    intro call same no records
    refine .reweighs (other (same ▸ no)) ?_
    rw [moment_after performed, same]
    exact records
  rcases m.call.reads_or_writes with reads | writes
  · refine .reweighs (other ?_) (.of_same (reads_keepSynapses performed reads))
    intro id call
    rw [call] at reads
    cases reads
  · generalize call : m.call = c at writes
    cases writes with
    | failForward id =>
      refine learns call (by simp) ?_
      rw [Node.perform, Prog.run_map]
      exact Node.settle_reweighs filed fun e _ => .forward call
    | applyReceipt receipt peer =>
      refine learns call (by simp) ?_
      rw [Node.perform, Prog.run_map]
      exact Node.applyReceipt_reweighs filed call
    | sweepTimeouts limit =>
      refine learns call (by simp) ?_
      rw [Node.perform, Prog.run_map]
      exact Node.sweepTimeouts_reweighs filed call
    | normalizeOutboundWeights =>
      refine learns call (by simp) ?_
      rw [Node.perform, Prog.run_map]
      exact Node.normalizeOutboundWeights_reweighs node _ _ filed
    | penalizeSignatureFailure id =>
      exact Node.penalizeSignatureFailure_change filed performed call
    | upsertSynapse peer =>
      refine .upserts call ?_
      rw [moment_after performed, call, Node.perform, Prog.run_map]
      exact node.upsertSynapse_ends peer m.before

def Stored (P : SynapseRecord F → Prop) (st : MemoryStore F) : Prop :=
  ∀ id r, st.getSynapse id = some r → P r

namespace Stored

variable {P : SynapseRecord F → Prop} {st st' : MemoryStore F}

omit [Scalar F] in
theorem new : Stored P (.new : MemoryStore F) := by
  intro id r found
  cases found

omit [Scalar F] in
theorem of_same (h : Stored P st) (same : st'.synapses = st.synapses) : Stored P st' := by
  intro id r found
  rw [MemoryStore.getSynapse_congr same] at found
  exact h id r found

omit [Scalar F] in
theorem put (h : Stored P st) {r : SynapseRecord F} (holds : P r) : Stored P (st.putSynapse r) := by
  intro id x found
  rcases MemoryStore.found_put rfl found with ⟨-, rfl⟩ | ⟨-, before⟩
  · exact holds
  · exact h id x before

omit [Scalar F] in
theorem forPeer (h : Stored P st) (filed : Filed st) {peer : NodeId} {r : SynapseRecord F}
    (found : st.synapseForPeer peer = some r) : P r :=
  h r.id r (filed.forPeer found)

theorem reweighed {node : Node F} {nowNs : ℕ} {applies : SynapseId → Outcome → Prop}
    (h : Stored P st) (records : node.Reweighed nowNs applies st st')
    (rewrites : ∀ {r r'}, node.Reweigh nowNs applies r r' → P r → P r') : Stored P st' := by
  intro id r' found
  obtain ⟨r, before, rewritten⟩ := records.was found
  have holds := h id r before
  clear found before
  induction rewritten with
  | refl => exact holds
  | tail _ last ih => exact rewrites last ih

theorem upserted {node : Node F} {peer : NodeId} {s : NodeState F} (h : Stored P s.store)
    (filed : Filed s.store) (change : node.Upserted peer s st')
    (reactivates : ∀ r, r.state = .dormant → P r →
      P { r with weight := node.config.synapse.initialWeight, state := .active })
    (reforms : ∀ r nowNs, P r → P (node.reform r nowNs))
    (forms : ∀ nowNs rng, P (node.formedRecord peer nowNs rng)) : Stored P st' := by
  cases change with
  | kept same => exact h.of_same same
  | reactivated found dormant after =>
    exact (h.put (reactivates _ dormant (h.forPeer filed found))).of_same after
  | reformed found pruned served after =>
    exact (h.put (reforms _ _ (h.forPeer filed found))).of_same after
  | formed missing after => exact (h.put (forms _ _)).of_same after

end Stored

namespace MemoryStore

omit [Scalar F]

variable {st : MemoryStore F} {peer : NodeId} {r : SynapseRecord F}

theorem synapseForPeer_some (found : st.synapseForPeer peer = some r) :
    r ∈ st.synapses.values ∧ r.peer = peer :=
  ⟨List.mem_of_find?_eq_some found, by simpa using List.find?_some found⟩

theorem synapseForPeer_none {id : SynapseId} (missing : st.synapseForPeer peer = none)
    (found : st.getSynapse id = some r) : r.peer ≠ peer := by
  have other := List.find?_eq_none.mp missing r (mem_values_of_getSynapse found)
  simpa using other

end MemoryStore

theorem Node.formedRecord_peer (node : Node F) (peer : NodeId) (nowNs : ℕ) (rng : Rng) :
    (node.formedRecord peer nowNs rng).peer = peer := rfl

/-- The identifier drawn for a new synapse, if the call draws one, names no other synapse. -/
def Node.FreshId (node : Node F) (m : Moment F) : Prop :=
  ∀ peer, m.call = .upsertSynapse peer → m.before.store.synapseForPeer peer = none →
    m.before.store.getSynapse (node.formedRecord peer m.before.clock m.before.rng).id = none

/-- What a call makes of a record that it does not form. -/
structure Descends (nowNs : ℕ) (r r' : SynapseRecord F) : Prop where
  peer : r'.peer = r.peer
  lastActiveNs : r'.lastActiveNs = r.lastActiveNs ∨ r'.lastActiveNs = nowNs

/-- What a call makes of the record stored under an identifier. -/
inductive Became (node : Node F) (m : Moment F) (id : SynapseId) (r : SynapseRecord F) :
    SynapseRecord F → Prop
  | same : Became node m id r r
  | reweighed {r' : SynapseRecord F}
      (rewritten : ReflTransGen (node.Reweigh m.before.clock (Node.Applies m)) r r') :
      Became node m id r r'
  | penalized (call : m.call = .penalizeSignatureFailure id) :
      Became node m id r (node.penalizedRecord m.before.clock r)
  | reactivated {peer : NodeId} (call : m.call = .upsertSynapse peer)
      (found : m.before.store.synapseForPeer peer = some r) (dormant : r.state = .dormant) :
      Became node m id r { r with weight := node.config.synapse.initialWeight, state := .active }
  | reformed {peer : NodeId} (call : m.call = .upsertSynapse peer)
      (found : m.before.store.synapseForPeer peer = some r) (pruned : r.state = .pruned)
      (served : node.cooldownEnd r.lastActiveNs ≤ m.before.clock) :
      Became node m id r (node.reform r m.before.clock)

theorem Became.descends {node : Node F} {m : Moment F} {id : SynapseId} {r r' : SynapseRecord F}
    (became : Became node m id r r') : Descends m.before.clock r r' := by
  cases became with
  | same => exact ⟨rfl, Or.inl rfl⟩
  | reweighed rewritten =>
    have kept := Node.Reweigh.keepStanding rewritten
    exact ⟨kept.peer, kept.lastActiveNs⟩
  | penalized call =>
    rcases node.penalizedRecord_cases m.before.clock r with ⟨-, -, same⟩ | ⟨-, -, state, -, same⟩
    · rw [same]
      exact ⟨rfl, Or.inr rfl⟩
    · rw [same]
      exact ⟨rfl, Or.inl rfl⟩
  | reactivated call found dormant => exact ⟨rfl, Or.inl rfl⟩
  | reformed call found pruned served => exact ⟨rfl, Or.inr rfl⟩

namespace TableChange

variable {node : Node F} {m : Moment F} (change : TableChange node m)
include change

theorem filed (filed : Filed m.before.store) : Filed m.after.store := by
  cases change with
  | reweighs other records => exact records.filed filed
  | penalizes call found reply after => exact (filed.put _).of_same after
  | upserts call change =>
    cases change with
    | kept same => exact filed.of_same same
    | reactivated found dormant after => exact (filed.put _).of_same after
    | reformed found pruned served after => exact (filed.put _).of_same after
    | formed missing after => exact (filed.put _).of_same after

/-- Every record that was there is still there, given that a new one gets an identifier of its
own. -/
theorem became (fresh : node.FreshId m) (filed : Filed m.before.store) {id : SynapseId}
    {r : SynapseRecord F} (found : m.before.store.getSynapse id = some r) :
    ∃ r', m.after.store.getSynapse id = some r' ∧ Became node m id r r' := by
  -- A record written over this one, or another one.
  have written : ∀ {x : SynapseRecord F},
      m.after.store.synapses = (m.before.store.putSynapse x).synapses →
      (x.id = id → Became node m id r x) →
      ∃ r', m.after.store.getSynapse id = some r' ∧ Became node m id r r' := by
    intro x after next
    by_cases here : x.id = id
    · subst here
      exact ⟨x, MemoryStore.put_getSynapse_same after, next rfl⟩
    · refine ⟨r, ?_, .same⟩
      rw [MemoryStore.put_getSynapse_other after (Ne.symm here)]
      exact found
  have same_record : ∀ {x : SynapseRecord F}, m.before.store.getSynapse x.id = some x →
      x.id = id → x = r := by
    rintro x stored rfl
    exact Option.some.inj (stored.symm.trans found)
  cases change with
  | reweighs other records =>
    obtain ⟨r', after, rewritten⟩ := records.became found
    exact ⟨r', after, .reweighed rewritten⟩
  | @penalizes x call stored reply after =>
    refine written after fun here => ?_
    rw [node.penalizedRecord_id] at here
    obtain rfl := same_record stored here
    exact .penalized (here ▸ call)
  | @upserts peer call change =>
    cases change with
    | kept same => exact ⟨r, (MemoryStore.getSynapse_congr same id).trans found, .same⟩
    | @reactivated x foundFor dormant after =>
      refine written after fun here => ?_
      obtain rfl := same_record (filed.forPeer foundFor) here
      exact .reactivated call foundFor dormant
    | @reformed x foundFor pruned served after =>
      refine written after fun here => ?_
      obtain rfl := same_record (filed.forPeer foundFor) here
      exact .reformed call foundFor pruned served
    | formed missing after =>
      refine written after fun here => ?_
      have unused := fresh peer call missing
      rw [here, found] at unused
      cases unused

theorem was (filed : Filed m.before.store) {id : SynapseId} {r' : SynapseRecord F}
    (found' : m.after.store.getSynapse id = some r') :
    (∃ r, m.before.store.getSynapse id = some r ∧ Became node m id r r') ∨
    ∃ peer, m.before.store.synapseForPeer peer = none ∧
      r' = node.formedRecord peer m.before.clock m.before.rng := by
  -- A record written over one that was there.
  have written : ∀ {r x : SynapseRecord F},
      m.after.store.synapses = (m.before.store.putSynapse x).synapses →
      m.before.store.getSynapse r.id = some r → x.id = r.id → Became node m r.id r x →
      ∃ r, m.before.store.getSynapse id = some r ∧ Became node m id r r' := by
    intro r x after found same became
    rcases MemoryStore.found_put after found' with ⟨rfl, rfl⟩ | ⟨-, before⟩
    · rw [same]
      exact ⟨r, found, became⟩
    · exact ⟨r', before, .same⟩
  cases change with
  | reweighs other records =>
    obtain ⟨r, before, rewritten⟩ := records.was found'
    exact Or.inl ⟨r, before, .reweighed rewritten⟩
  | penalizes call found reply after =>
    exact Or.inl (written after found (node.penalizedRecord_id _ _) (.penalized call))
  | @upserts peer call change =>
    cases change with
    | kept same =>
      rw [MemoryStore.getSynapse_congr same] at found'
      exact Or.inl ⟨r', found', .same⟩
    | reactivated found dormant after =>
      exact Or.inl (written after (filed.forPeer found) rfl (.reactivated call found dormant))
    | reformed found pruned served after =>
      exact Or.inl (written after (filed.forPeer found) rfl (.reformed call found pruned served))
    | formed missing after =>
      rcases MemoryStore.found_put after found' with ⟨-, formed⟩ | ⟨-, before⟩
      · exact Or.inr ⟨peer, missing, formed⟩
      · exact Or.inl ⟨r', before, .same⟩

theorem origin (filed : Filed m.before.store) {id : SynapseId} {r' : SynapseRecord F}
    (found' : m.after.store.getSynapse id = some r') :
    (∃ r, m.before.store.getSynapse id = some r ∧ Descends m.before.clock r r') ∨
    ∃ peer, m.before.store.synapseForPeer peer = none ∧
      r' = node.formedRecord peer m.before.clock m.before.rng := by
  rcases change.was filed found' with ⟨r, before, became⟩ | formed
  · exact Or.inl ⟨r, before, became.descends⟩
  · exact Or.inr formed

end TableChange

namespace NodeRun

variable {node : Node F} {ms : List (Moment F)} {s : NodeState F}

theorem tableInvariant {I : MemoryStore F → Prop} (init : I .new)
    (keeps : ∀ m : Moment F, TableChange node m → Filed m.before.store → I m.before.store →
      I m.after.store) (run : NodeRun node ms s) :
    (Filed s.store ∧ I s.store) ∧ ∀ m ∈ ms, Filed m.before.store ∧ I m.before.store := by
  refine run.invariant (I := fun st _ => Filed st ∧ I st) ⟨?_, init⟩ ?_
  · intro id r found
    cases found
  · rintro m performed ⟨filed, holds⟩
    have change := table_change performed filed
    exact ⟨change.filed filed, keeps m change filed holds⟩

theorem filed (run : NodeRun node ms s) :
    Filed s.store ∧ ∀ m ∈ ms, Filed m.before.store := by
  have both := run.tableInvariant (I := fun _ => True) trivial fun _ _ _ _ => trivial
  exact ⟨both.1.1, fun m hm => (both.2 m hm).1⟩

theorem table_change (run : NodeRun node ms s) {m : Moment F} (hm : m ∈ ms) :
    TableChange node m :=
  OpenNtl.table_change (run.performed m hm) (run.filed.2 m hm)

end NodeRun
end OpenNtl
