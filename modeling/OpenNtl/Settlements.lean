import OpenNtl.Attribution

/-! # The outcomes a call weighs in

A failed transmission and a receipt weigh in at most one outcome, a sweep one for each decision it
times out. Each outcome moves one record and charges one peer.
-/
namespace OpenNtl

open AtomicProgram NodeM

variable {F : Type} [Scalar F]

/-- An outcome about to be weighed in: the decision as it stands resolved, and the state. -/
structure Settlement (F : Type) where
  entry : JournalEntry F
  outcome : Outcome
  state : NodeState F

namespace Node

variable (node : Node F)

def weighIn (entry : JournalEntry F) (outcome : Outcome) (nowNs : ℕ) :
    NodeM F (Option (WeightUpdate F)) := do
  let windowStart := node.config.learning.influenceWindowStart nowNs
  let influenceUsed ← readStore fun st => st.influenceSince entry.peer windowStart
  let found ← readStore fun st => st.getSynapse entry.synapse
  match found with
  | none => return none
  | some record => do
    let (update, synapse) := (Synapse.fromRecord record node.config.synapse).applyOutcome outcome
      (Scalar.clamp entry.signalWeight 0 1) (signalTypeNameOf entry.signalType) influenceUsed
      node.config.learning
    if Charged update then
      let _ ← callStore fun st =>
        st.recordInfluence entry.peer update.appliedDelta nowNs windowStart
    writeStore fun st => st.putSynapse { synapse with lastActiveNs := nowNs }.toRecord
    return some update

theorem updateSynapse_eq (entry : JournalEntry F) (outcome : Outcome) (nowNs : ℕ) :
    node.updateSynapse entry outcome nowNs = node.weighIn entry outcome nowNs >>= fun weighed =>
      match weighed with
      | none => return { before := 0, after := 0, appliedDelta := 0, capped := false }
      | some update => do
        let _ ← node.normalizeOutboundWeights
        return update := by
  unfold updateSynapse weighIn
  simp only [bind_assoc]
  congr 1
  funext used
  congr 1
  funext found
  cases found with
  | none => rfl
  | some record =>
    dsimp only
    split_ifs with charged
    · simp only [bind_assoc, pure_bind]
    · simp only [bind_assoc, pure_bind]

def usedBy (entry : JournalEntry F) (nowNs : ℕ) (s : NodeState F) : F :=
  s.store.influenceSince entry.peer (node.config.learning.influenceWindowStart nowNs)

def updateOf (entry : JournalEntry F) (outcome : Outcome) (used : F) (r : SynapseRecord F) :
    WeightUpdate F :=
  applyReward r.weight outcome (Scalar.clamp entry.signalWeight 0 1) used node.config.learning

/-- The influence table after an update, which is charged to the peer if it is large enough. -/
def chargedTo (entry : JournalEntry F) (update : WeightUpdate F) (nowNs : ℕ)
    (influence : List (Influence F)) : List (Influence F) :=
  if Charged update then influence ++ [⟨entry.peer, Scalar.abs update.appliedDelta, nowNs⟩]
  else influence

inductive Weighing (entry : JournalEntry F) (outcome : Outcome) (nowNs : ℕ) (s : NodeState F) :
    Except NodeError (Option (WeightUpdate F)) × NodeState F → Prop
  | unread {e : NodeError} {t : NodeState F} (same : t.store = s.store) :
      Weighing entry outcome nowNs s (.error e, t)
  | missing {t : NodeState F} (missing : s.store.getSynapse entry.synapse = none)
      (same : t.store = s.store) : Weighing entry outcome nowNs s (.ok none, t)
  | unwritten {e : NodeError} {t : NodeState F} {r : SynapseRecord F}
      (found : s.store.getSynapse entry.synapse = some r)
      (synapses : t.store.synapses = s.store.synapses)
      (influence : t.store.influence = chargedTo entry
        (node.updateOf entry outcome (node.usedBy entry nowNs s) r) nowNs s.store.influence) :
      Weighing entry outcome nowNs s (.error e, t)
  | written {t : NodeState F} {r : SynapseRecord F}
      (found : s.store.getSynapse entry.synapse = some r)
      (synapses : t.store.synapses = (s.store.putSynapse
        (node.reweighed entry outcome nowNs (node.usedBy entry nowNs s) r)).synapses)
      (influence : t.store.influence = chargedTo entry
        (node.updateOf entry outcome (node.usedBy entry nowNs s) r) nowNs s.store.influence) :
      Weighing entry outcome nowNs s
        (.ok (some (node.updateOf entry outcome (node.usedBy entry nowNs s) r)), t)

theorem weighIn_ends (entry : JournalEntry F) (outcome : Outcome) (nowNs : ℕ) (s : NodeState F) :
    node.Weighing entry outcome nowNs s ((node.weighIn entry outcome nowNs).run s) := by
  refine callStore_bind_ends (fun _ => .unread rfl) ?_
  refine callStore_bind_ends (fun _ => .unread rfl) ?_
  simp only [NodeState.stored_store]
  cases found : s.store.getSynapse entry.synapse with
  | none => exact .missing found rfl
  | some r =>
    -- The write, from any state where the charge has been made.
    have write : ∀ t : NodeState F, t.store.synapses = s.store.synapses →
        t.store.influence = chargedTo entry
          (node.updateOf entry outcome (node.usedBy entry nowNs s) r) nowNs s.store.influence →
        node.Weighing entry outcome nowNs s ((do
          writeStore fun st => st.putSynapse
            (node.reweighed entry outcome nowNs (node.usedBy entry nowNs s) r)
          return some (node.updateOf entry outcome (node.usedBy entry nowNs s) r) :
            NodeM F _).run t) := by
      intro t synapses influence
      refine callStore_bind_ends (fun _ => .unwritten found synapses influence) ?_
      refine .written found ?_ influence
      unfold MemoryStore.putSynapse
      dsimp only [NodeState.stored_store]
      rw [synapses]
    dsimp only
    split
    · rename_i charged
      refine callStore_bind_ends (fun _ => .unread rfl) (write _ rfl ?_)
      exact (if_pos charged).symm
    · rename_i uncharged
      exact write _ rfl (if_neg uncharged).symm

theorem updateSynapse_keeps {entry : JournalEntry F} {outcome : Outcome} {nowNs : ℕ}
    {s : NodeState F} {I : MemoryStore F → Prop} (h : I s.store)
    (unwritten : ∀ {t : NodeState F} {r : SynapseRecord F},
      s.store.getSynapse entry.synapse = some r → t.store.synapses = s.store.synapses →
      t.store.influence = chargedTo entry
        (node.updateOf entry outcome (node.usedBy entry nowNs s) r) nowNs s.store.influence →
      I t.store)
    (written : ∀ {t : NodeState F} {r : SynapseRecord F},
      s.store.getSynapse entry.synapse = some r →
      t.store.synapses = (s.store.putSynapse
        (node.reweighed entry outcome nowNs (node.usedBy entry nowNs s) r)).synapses →
      t.store.influence = chargedTo entry
        (node.updateOf entry outcome (node.usedBy entry nowNs s) r) nowNs s.store.influence →
      I (node.normalizeOutboundWeights.run t).2.store) :
    I ((node.updateSynapse entry outcome nowNs).run s).2.store := by
  rw [updateSynapse_eq, Prog.run_bind]
  have weighing := node.weighIn_ends entry outcome nowNs s
  generalize (node.weighIn entry outcome nowNs).run s = result at weighing
  cases weighing with
  | unread same =>
    dsimp only
    rwa [same]
  | missing missing same =>
    dsimp only
    rwa [Prog.run_pure, same]
  | unwritten found synapses influence => exact unwritten found synapses influence
  | written found synapses influence =>
    dsimp only
    rw [Prog.run_bind_pure_snd]
    exact written found synapses influence

omit [Scalar F] in
theorem getSynapse_written {st st' : MemoryStore F} {id : SynapseId} {r w : SynapseRecord F}
    (filed : Filed st) (found : st.getSynapse id = some r) (same : w.id = r.id)
    (synapses : st'.synapses = (st.putSynapse w).synapses) : st'.getSynapse id = some w := by
  rw [← filed id r found, ← same]
  exact MemoryStore.put_getSynapse_same synapses

def settled (id : JournalId) (outcome : Outcome) (nowNs : ℕ) (s : NodeState F) :
    List (Settlement F) :=
  match (callStore fun st => st.resolveDecision id outcome nowNs).run s with
  | (.ok (some entry), t) =>
    if entry.resolvedAtNs = some nowNs then
      [⟨entry, outcome, { t with learned := t.learned ++ [(entry.id, outcome)] }⟩]
    else []
  | _ => []

def sweepSettled (nowNs : ℕ) : List (JournalEntry F) → NodeState F → List (Settlement F)
  | [], _ => []
  | e :: rest, s =>
    let here := match e.id with
      | none => []
      | some id => settled id .timedOut nowNs s
    match (node.sweepOne nowNs e).run s with
    | (.ok _, t) => here ++ sweepSettled nowNs rest t
    | (.error _, _) => here

end Node

def Moment.settlements (node : Node F) (m : Moment F) : List (Settlement F) :=
  let nowNs := m.before.clock
  match m.call with
  | .failForward id => Node.settled id .transportFailure nowNs m.before
  | .applyReceipt receipt peer =>
    match (readStore fun st => st.pendingDecisionFor receipt.correlationId peer).run m.before with
    | (.ok pending, t) =>
      match pending.bind JournalEntry.id with
      | none => []
      | some id => Node.settled id receipt.outcome nowNs t
    | (.error _, _) => []
  | .sweepTimeouts limit =>
    match (readStore fun st => st.expiredDecisions
        (node.config.learning.receiptDeadline nowNs) limit).run m.before with
    | (.ok expired, t) => node.sweepSettled nowNs expired t
    | (.error _, _) => []
  | _ => []

theorem settlements_nil {node : Node F} {m : Moment F} (other : ¬ m.call.Learns) :
    m.settlements node = [] := by
  unfold Moment.settlements
  cases call : m.call with
  | failForward id => exact absurd (call ▸ .forward id) other
  | applyReceipt receipt peer => exact absurd (call ▸ .receipt receipt peer) other
  | sweepTimeouts limit => exact absurd (call ▸ .sweep limit) other
  | _ => rfl

def KeepsInfluence (s s' : NodeState F) : Prop := s'.store.influence = s.store.influence

namespace KeepsInfluence

omit [Scalar F]

theorem callStore {α : Type} {op : MemoryStore F → α × MemoryStore F}
    (same : ∀ st, (op st).2.influence = st.influence) : (callStore op).Within KeepsInfluence := by
  apply Prog.Within.bind
  · apply Prog.Within.of_act
    intro s
    unfold KeepsInfluence
    cases nextFault s with
    | none => exact same s.store
    | some f => rfl
  · intro r
    exact Prog.Within.of_ofExcept _

theorem read {α : Type} {f : NodeState F → α} : (Prog.read f : NodeM F α).Within KeepsInfluence :=
  Prog.Within.of_act fun _ => rfl

theorem putSynapse (r : SynapseRecord F) :
    (writeStore fun st => st.putSynapse r).Within KeepsInfluence := callStore fun _ => rfl

theorem run {α : Type} {p : NodeM F α} (within : p.Within KeepsInfluence) (s : NodeState F) :
    (p.run s).2.store.influence = s.store.influence :=
  Prog.Within.run (R := KeepsInfluence) (fun _ => rfl) (fun hs ht => Eq.trans ht hs) within s

end KeepsInfluence

namespace Node

variable (node : Node F)

theorem normalizeOutboundWeights_keepsInfluence :
    node.normalizeOutboundWeights.Within KeepsInfluence := by
  apply Prog.Within.bind
  · exact KeepsInfluence.callStore fun _ => rfl
  · intro records
    split
    · exact Prog.Within.of_pure _
    · split
      · exact Prog.Within.of_pure _
      · apply Prog.Within.bind
        · exact Prog.Within.forM (fun rw => KeepsInfluence.putSynapse _) _
        · intro _
          exact Prog.Within.of_pure _

theorem updateSynapse_influence (entry : JournalEntry F) (outcome : Outcome) (nowNs : ℕ)
    (s : NodeState F) :
    ((node.updateSynapse entry outcome nowNs).run s).2.store.influence =
      ((node.weighIn entry outcome nowNs).run s).2.store.influence := by
  rw [updateSynapse_eq, Prog.run_bind]
  rcases (node.weighIn entry outcome nowNs).run s with ⟨e | weighed, t⟩
  · rfl
  · cases weighed with
    | none => rfl
    | some update =>
      dsimp only
      rw [Prog.run_bind_pure_snd]
      exact KeepsInfluence.run node.normalizeOutboundWeights_keepsInfluence t

theorem upsertSynapse_keepsInfluence (peer : NodeId) :
    (node.upsertSynapse peer).Within KeepsInfluence := by
  refine KeepsInfluence.read.bind fun now => (KeepsInfluence.callStore fun _ => rfl).bind fun found => ?_
  split
  · split
    · dsimp only
      split
      · exact Prog.Within.of_throw _
      · exact (KeepsInfluence.putSynapse _).bind fun _ => Prog.Within.of_pure _
    · split
      · exact (KeepsInfluence.putSynapse _).bind fun _ => Prog.Within.of_pure _
      · exact Prog.Within.of_pure _
  · have drawn : (withRng (Synapse.newWith peer node.config.synapse now)).Within
        (KeepsInfluence (F := F)) := Prog.Within.of_act fun _ => rfl
    refine drawn.bind fun synapse => ?_
    refine (KeepsInfluence.putSynapse _).bind fun _ => ?_
    exact (KeepsInfluence.callStore fun _ => rfl).bind fun _ => Prog.Within.of_pure _

theorem penalizeSignatureFailure_keepsInfluence (id : SynapseId) :
    (node.penalizeSignatureFailure id).Within KeepsInfluence := by
  refine KeepsInfluence.read.bind fun now => (KeepsInfluence.callStore fun _ => rfl).bind fun found => ?_
  split
  · exact Prog.Within.of_pure _
  · exact (KeepsInfluence.putSynapse _).bind fun _ => Prog.Within.of_pure _

end Node

omit [Scalar F] in
theorem sameInfluence_across :
    HoldsAcrossReads fun st st' : MemoryStore F => st'.influence = st.influence where
  same := fun _ => rfl
  claims := by
    intro st id nowNs ttlSecs
    unfold MemoryStore.checkAndSetSeen
    split
    · split <;> rfl
    · rfl
  plans := fun h => h.influence
  saves := fun _ _ => rfl
  purges := fun _ _ => rfl

theorem Node.perform_keepsInfluence (node : Node F) {call : Call F} (other : ¬ call.Learns) :
    (node.perform call).Within KeepsInfluence := by
  rcases call.reads_or_writes with reads | writes
  · exact (node.reads_quiet sameInfluence_across reads).mono fun s t h => h.store
  · cases writes with
    | normalizeOutboundWeights => exact node.normalizeOutboundWeights_keepsInfluence.map _
    | penalizeSignatureFailure id => exact (node.penalizeSignatureFailure_keepsInfluence id).map _
    | upsertSynapse peer => exact (node.upsertSynapse_keepsInfluence peer).map _
    | failForward id => exact absurd (.forward id) other
    | applyReceipt receipt peer => exact absurd (.receipt receipt peer) other
    | sweepTimeouts limit => exact absurd (.sweep limit) other

/-- `settle` comes down to this weighing in of a decision in the journal. -/
structure Node.SettlesBy (node : Node F) (id : JournalId) (outcome : Outcome) (nowNs : ℕ)
    (s : NodeState F) (x : Settlement F) : Prop where
  outcome_eq : x.outcome = outcome
  journalled : ∃ e ∈ s.store.journal, x.entry.synapse = e.synapse ∧ x.entry.peer = e.peer
  synapses : x.state.store.synapses = s.store.synapses
  influence : x.state.store.influence = s.store.influence
  learned : x.state.learned = s.learned ++ [(x.entry.id, outcome)]
  after : ((node.settle id outcome nowNs).run s).2 =
    ((node.updateSynapse x.entry x.outcome nowNs).run x.state).2

/-- `settle` weighs in one outcome, or none and touches nothing that matters to one. -/
theorem Node.settle_cases (node : Node F) (id : JournalId) (outcome : Outcome) (nowNs : ℕ)
    (s : NodeState F) :
    (Node.settled id outcome nowNs s = [] ∧
      ((node.settle id outcome nowNs).run s).2 = s.stored s.store) ∨
    ∃ x, Node.settled id outcome nowNs s = [x] ∧ node.SettlesBy id outcome nowNs s x := by
  unfold Node.settled
  cases fault : nextFault s with
  | some f =>
    have failed : (node.settle id outcome nowNs).run s = _ :=
      Prog.run_bind_error (callStore_run_error fault)
    rw [callStore_run_error fault, failed]
    exact Or.inl ⟨rfl, rfl⟩
  | none =>
    have resolved : (node.settle id outcome nowNs).run s = _ :=
      Prog.run_bind_ok (callStore_run_ok fault)
    rw [callStore_run_ok fault]
    rcases s.store.resolveDecision_cases id outcome nowNs with
      ⟨missing, result⟩ | ⟨e, found, done, result⟩ | ⟨e, found, pending, result⟩
    · rw [resolved, result]
      exact Or.inl ⟨rfl, rfl⟩
    · rw [result] at resolved ⊢
      by_cases now : e.resolvedAtNs = some nowNs
      · simp only [learnIfResolvedNow, if_pos now, Prog.run_map] at resolved
        refine Or.inr ⟨_, if_pos now, rfl, ⟨e, MemoryStore.decision_mem found, rfl, rfl⟩, rfl, rfl,
          rfl, ?_⟩
        rw [resolved]
        rfl
      · simp only [learnIfResolvedNow, if_neg now] at resolved
        rw [resolved]
        exact Or.inl ⟨if_neg now, rfl⟩
    · have now : (MemoryStore.resolved outcome nowNs e).resolvedAtNs = some nowNs := rfl
      rw [result] at resolved ⊢
      simp only [learnIfResolvedNow, if_pos now, Prog.run_map] at resolved
      refine Or.inr ⟨_, if_pos now, rfl, ⟨e, MemoryStore.decision_mem found, rfl, rfl⟩, rfl, rfl,
        rfl, ?_⟩
      rw [resolved]
      rfl

section Induction

variable {node : Node F} {nowNs : ℕ} {I : List (Settlement F) → NodeState F → Prop}
  (settles : ∀ (id : JournalId) (outcome : Outcome) (done : List (Settlement F)) (s : NodeState F),
    I done s → I (done ++ Node.settled id outcome nowNs s) ((node.settle id outcome nowNs).run s).2)
include settles

theorem sweep_settles (expired : List (JournalEntry F)) (done : List (Settlement F)) (count : ℕ)
    (s : NodeState F) (h : I done s) :
    I (done ++ node.sweepSettled nowNs expired s)
      ((expired.foldlM (fun n e => (n + ·) <$> node.sweepOne nowNs e) count).run s).2 := by
  induction expired generalizing done count s with
  | nil =>
    rw [Node.sweepSettled, List.append_nil]
    exact h
  | cons e rest ih =>
    have one : I (done ++ (match e.id with
        | none => []
        | some id => Node.settled id .timedOut nowNs s)) ((node.sweepOne nowNs e).run s).2 := by
      unfold Node.sweepOne
      cases e.id with
      | none =>
        rw [List.append_nil]
        exact h
      | some id =>
        dsimp only
        rw [Prog.run_bind_pure_snd]
        exact settles id .timedOut done s h
    rw [List.foldlM_cons, Prog.run_bind, Prog.run_map, Node.sweepSettled]
    rcases run : (node.sweepOne nowNs e).run s with ⟨x | n, t⟩
    · rw [run] at one
      exact one
    · rw [run] at one
      dsimp only [Except.map]
      rw [← List.append_assoc]
      exact ih _ _ t one

end Induction

theorem moment_settles {node : Node F} {m : Moment F} (performed : m.Performed node)
    {I : List (Settlement F) → NodeState F → Prop}
    (settles : ∀ (id : JournalId) (outcome : Outcome) (done : List (Settlement F))
      (s : NodeState F), I done s →
      I (done ++ Node.settled id outcome m.before.clock s)
        ((node.settle id outcome m.before.clock).run s).2)
    (reads : ∀ s, I [] s → I [] (s.stored s.store)) (learns : m.call.Learns)
    (h : I [] m.before) : I (m.settlements node) m.after := by
  have after := moment_after performed
  rw [after]
  unfold Moment.settlements
  generalize m.call = call at learns
  cases learns with
  | forward id =>
    unfold Node.perform
    rw [Prog.run_map]
    exact settles id .transportFailure [] m.before h
  | receipt receipt peer =>
    unfold Node.perform
    rw [Prog.run_map, Node.applyReceipt, now_bind_run]
    dsimp only
    cases fault : nextFault m.before with
    | some f =>
      rw [readStore_run_error fault, Prog.run_bind_error (readStore_run_error fault)]
      exact reads _ h
    | none =>
      rw [readStore_run_ok fault, Prog.run_bind_ok (readStore_run_ok fault)]
      dsimp only
      cases (m.before.store.pendingDecisionFor receipt.correlationId peer).bind JournalEntry.id with
      | none => exact reads _ h
      | some id => exact settles id _ [] _ (reads _ h)
  | sweep limit =>
    unfold Node.perform
    rw [Prog.run_map, Node.sweepTimeouts, now_bind_run]
    dsimp only
    cases fault : nextFault m.before with
    | some f =>
      rw [readStore_run_error fault, Prog.run_bind_error (readStore_run_error fault)]
      exact reads _ h
    | none =>
      rw [readStore_run_ok fault, Prog.run_bind_ok (readStore_run_ok fault)]
      exact sweep_settles settles _ [] 0 _ (reads _ h)

/-- What holds of every outcome that is weighed in, holds of the settlements of a call. -/
theorem settlements_each {node : Node F} {m : Moment F} (performed : m.Performed node)
    {K : NodeState F → Prop} {P : Settlement F → Prop}
    (reads : ∀ s, K s → K (s.stored s.store))
    (keeps : ∀ id outcome s, K s → K ((node.settle id outcome m.before.clock).run s).2)
    (each : ∀ {id outcome s x}, node.SettlesBy id outcome m.before.clock s x → K s → P x)
    (h : K m.before) : ∀ x ∈ m.settlements node, P x := by
  by_cases learns : m.call.Learns
  · refine (moment_settles performed (I := fun done s => K s ∧ ∀ x ∈ done, P x) ?_
      (fun s both => ⟨reads s both.1, both.2⟩) learns ⟨h, fun x hx => (by cases hx)⟩).2
    intro id outcome done s both
    refine ⟨keeps id outcome s both.1, fun x hx => ?_⟩
    rcases List.mem_append.mp hx with hx | hx
    · exact both.2 x hx
    · rcases node.settle_cases id outcome m.before.clock s with ⟨none, -⟩ | ⟨y, one, by'⟩
      · rw [none] at hx
        cases hx
      · rw [one] at hx
        rw [List.mem_singleton.mp hx]
        exact each by' both.1
  · intro x hx
    rw [settlements_nil learns] at hx
    cases hx

theorem learning_keeps {node : Node F} {m : Moment F} (performed : m.Performed node)
    (learns : m.call.Learns) (filed : Filed m.before.store)
    {I : MemoryStore F → Prop} {P : Settlement F → Prop}
    (same : ∀ {st st'}, st'.synapses = st.synapses → st'.influence = st.influence → I st → I st')
    (update : ∀ x, P x → Filed x.state.store → I x.state.store →
      I ((node.updateSynapse x.entry x.outcome m.before.clock).run x.state).2.store)
    (all : ∀ x ∈ m.settlements node, P x) (h : I m.before.store) : I m.after.store := by
  refine (moment_settles performed (I := fun done s => (∀ x ∈ done, P x) →
    Filed s.store ∧ I s.store) ?_ (fun _ both => both) learns (fun _ => ⟨filed, h⟩) all).2
  intro id outcome done s ih all
  obtain ⟨filed, h⟩ := ih fun x hx => all x (List.mem_append_left _ hx)
  refine ⟨Node.settle_filed filed id outcome _, ?_⟩
  rcases node.settle_cases id outcome m.before.clock s with ⟨none, after⟩ | ⟨x, one, by'⟩
  · rw [after]
    exact h
  · rw [by'.after]
    apply update x
    · exact all x (by simp [one])
    · exact filed.of_same by'.synapses
    · exact same by'.synapses by'.influence h

/-- An outcome is weighed into a stored synapse, to the peer of the decision. -/
structure Settlement.Placed (x : Settlement F) : Prop where
  filed : Filed x.state.store
  found : ∃ r, x.state.store.getSynapse x.entry.synapse = some r ∧ r.peer = x.entry.peer

theorem Node.SettlesBy.placed {node : Node F} {id : JournalId} {outcome : Outcome} {nowNs : ℕ}
    {s : NodeState F} {x : Settlement F} (by' : node.SettlesBy id outcome nowNs s x) (h : Kept s) :
    x.Placed := by
  obtain ⟨e, he, synapse, peer⟩ := by'.journalled
  obtain ⟨r, found, leads⟩ := h.2 e he
  refine ⟨h.1.of_same by'.synapses, r, ?_, ?_⟩
  · rw [MemoryStore.getSynapse_congr by'.synapses, synapse]
    exact found
  · rw [leads, peer]

theorem settlements_placed {node : Node F} {m : Moment F} (performed : m.Performed node)
    (h : Kept m.before) : ∀ x ∈ m.settlements node, x.Placed :=
  settlements_each performed (fun _ kept => kept)
    (fun id outcome _ kept => settle_kept node id outcome _ kept)
    (fun by' kept => by'.placed kept) h

end OpenNtl
