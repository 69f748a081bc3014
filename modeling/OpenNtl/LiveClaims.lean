import OpenNtl.ArrivalFates
import OpenNtl.BodyCache
import OpenNtl.CallFrame

/-! # How long claims are good for

Time is cut into deduplication windows. Each claim on an identifier takes it from one window into
the next, and nothing takes it back. Only the arrival that makes a claim adds a copy to the queue.
-/
namespace OpenNtl

open AtomicProgram NodeM

variable {F : Type}

def claimEnd (id : SignalId) (st : MemoryStore F) : ℕ :=
  min ((st.seen.lookup id).getD 0) u64Max

/-- The windows of length `window` from `start` up to now or to the end of the claim on the id, if
there is one. No claim reaches beyond the next window. -/
def NodeState.windows (id : SignalId) (start window : ℕ) (s : NodeState F) : ℕ :=
  min ((max (claimEnd id s.store) s.clock - start) / window) ((s.clock - start) / window + 1)

def NodeState.Covered (window : ℕ) (s : NodeState F) : Prop :=
  ∀ q ∈ s.activation.queue, q.enqueuedAtNs + window ≤ max (claimEnd q.id s.store) s.clock

section Store

variable {id : SignalId}

theorem claimEnd_of_seen {st st' : MemoryStore F} (same : st'.seen = st.seen) :
    claimEnd id st' = claimEnd id st := by
  rw [claimEnd, same, claimEnd]

theorem claimEnd_insert (st : MemoryStore F) (id : SignalId) (exp : ℕ) :
    claimEnd id ({ st with seen := st.seen.insert id exp } : MemoryStore F) =
      min exp u64Max := by
  rw [claimEnd, AList.lookup_insert, Option.getD_some]

theorem claimEnd_insert_ne (st : MemoryStore F) {id other : SignalId} (apart : id ≠ other)
    (exp : ℕ) : claimEnd id ({ st with seen := st.seen.insert other exp } : MemoryStore F) =
      claimEnd id st := by
  rw [claimEnd, AList.lookup_insert_ne apart, claimEnd]

theorem claimEnd_le_of_unseen {st : MemoryStore F} {nowNs : ℕ}
    (unseen : st.hasSeen id nowNs = false) : claimEnd id st ≤ nowNs := by
  rw [MemoryStore.hasSeen] at unseen
  rw [claimEnd]
  cases found : st.seen.lookup id with
  | none =>
    rw [Option.getD_none]
    omega
  | some exp =>
    rw [found, Option.any_some, decide_eq_false_iff_not] at unseen
    rw [Option.getD_some]
    omega

theorem claimEnd_le_claim (st : MemoryStore F) (other : SignalId) (nowNs ttlSecs : ℕ) :
    claimEnd id st ≤ claimEnd id (st.checkAndSetSeen other nowNs ttlSecs).2 := by
  by_cases seen : st.hasSeen other nowNs = true
  · rw [MemoryStore.checkAndSetSeen_of_seen st other nowNs ttlSecs seen]
  · have unseen := Bool.eq_false_of_not_eq_true seen
    rw [MemoryStore.checkAndSetSeen_of_unseen st other nowNs ttlSecs unseen]
    by_cases same : id = other
    · subst same
      have out := claimEnd_le_of_unseen unseen
      have capped : claimEnd id st ≤ u64Max := min_le_right _ _
      rw [claimEnd_insert, saturatingAdd]
      omega
    · rw [claimEnd_insert_ne st same]

theorem claimEnd_purge (st : MemoryStore F) (nowNs : ℕ) :
    max (claimEnd id st) nowNs ≤ max (claimEnd id (st.purgeExpiredSeen nowNs).2) nowNs := by
  rw [claimEnd, claimEnd, MemoryStore.purgeExpiredSeen, HashMap.lookup_retain]
  cases found : st.seen.lookup id with
  | none =>
    rw [Option.filter_none]
  | some exp =>
    by_cases live : nowNs < exp
    · rw [Option.filter_some, if_pos (decide_eq_true live)]
    · rw [Option.getD_some]
      omega

end Store

namespace Node

variable [Scalar F] (node : Node F) {id : SignalId} {start : ℕ}

omit [Scalar F] in
theorem checkpoint_claimEnd (id : SignalId) (s : NodeState F) :
    max (claimEnd id s.store) s.clock ≤
      max (claimEnd id ((checkpoint (F := F)).run s).2.store) s.clock := by
  let Later (st st' : MemoryStore F) : Prop :=
    max (claimEnd id st) s.clock ≤ max (claimEnd id st') s.clock
  have refl : ∀ st, Later st st := fun _ => le_rfl
  have trans : ∀ {a b c}, Later a b → Later b c → Later a c := fun h k => le_trans h k
  rw [checkpoint, now_bind_run]
  refine (Prog.Within.run (R := Quiet Later) (Quiet.refl refl)
    (Quiet.trans (R := Later) trans) ?_ s).store
  refine (Quiet.withGate refl).bind fun taken => ?_
  refine (Quiet.callStore refl fun st => le_rfl).bind fun _ => ?_
  refine (Quiet.callStore refl fun st => claimEnd_purge st s.clock).bind fun _ => ?_
  exact Quiet.callStore refl refl

omit [Scalar F] in
theorem windows_le {s s' : NodeState F} {window : ℕ}
    (later : max (claimEnd id s.store) s.clock ≤ max (claimEnd id s'.store) s'.clock)
    (forward : s.clock ≤ s'.clock) : s.windows id start window ≤ s'.windows id start window := by
  rw [NodeState.windows, NodeState.windows]
  have far := Nat.div_le_div_right (c := window) (Nat.sub_le_sub_right later start)
  have near := Nat.div_le_div_right (c := window) (Nat.sub_le_sub_right forward start)
  omega

/-- No call takes a claim back before it has run out, if the clock does not run backwards. -/
theorem perform_claimEnd (id : SignalId) (call : Call F) (s : NodeState F)
    (forward : s.clock ≤ ((node.perform call).run s).2.clock) :
    max (claimEnd id s.store) s.clock ≤
      max (claimEnd id ((node.perform call).run s).2.store) ((node.perform call).run s).2.clock := by
  by_cases checkpoint : call = .checkpoint
  · subst checkpoint
    have kept := checkpoint_claimEnd id s
    rw [Node.perform, Prog.run_map] at forward ⊢
    exact kept.trans (max_le_max le_rfl forward)
  · have across : HoldsAcrossWrites
        (fun st st' : MemoryStore F => claimEnd id st ≤ claimEnd id st') := {
      same := fun _ => le_rfl
      claims := claimEnd_le_claim
      plans := fun h => (claimEnd_of_seen h.seen).ge
      resolves := fun st id' outcome nowNs => (claimEnd_of_seen (by
        rcases st.resolveDecision_cases id' outcome nowNs with ⟨-, r⟩ | ⟨e, -, -, r⟩ | ⟨e, -, -, r⟩
        · rw [r]
        · rw [r]
        · rw [r])).ge
      reweighs := fun h => (claimEnd_of_seen h.seen).ge
      peers := fun _ _ => le_rfl }
    have kept := (node.perform_storeWithin across call checkpoint).run
      (fun s => le_refl (claimEnd id s.store)) (fun h k => h.trans k) s
    exact max_le_max kept forward

theorem receive_claimEnd (id : SignalId) (signal : Signal F) (arrival : Option SynapseId)
    (s : NodeState F) (forward : s.clock ≤ ((node.receive signal arrival).run s).2.clock) :
    max (claimEnd id s.store) s.clock ≤
      max (claimEnd id ((node.receive signal arrival).run s).2.store)
        ((node.receive signal arrival).run s).2.clock := by
  have performed := node.perform_claimEnd id (.receive signal arrival) s
  rw [Node.perform, Prog.run_map] at performed
  exact performed forward

def releases (id : SignalId) : Except NodeError (Disposition F) → ℕ
  | .ok d => copiesOf id d.handleLocally
  | .error _ => 0

omit [Scalar F] in
theorem copiesOf_without_le (id : SignalId) (fired : List (QueuedSignal F)) (refused : SignalId) :
    copiesOf id (without fired refused) ≤ copiesOf id fired := by
  rw [copiesOf_without]
  by_cases same : id = refused
  · rw [if_pos same]
    omega
  · rw [if_neg same]

theorem Disposal.releases_le {signal : Signal F} {arrival : Option SynapseId} {nowNs : ℕ}
    {admitted : AdmitOutcome F} {t u : NodeState F} {r : Except NodeError (Disposition F)}
    (disposal : node.Disposal signal arrival nowNs admitted t (r, u)) (id : SignalId) :
    releases id r ≤ copiesOf id admitted.fired ∧ u.activation = t.activation ∧
      u.store.seen = t.store.seen := by
  have planned : ∀ {r : Except NodeError (List Forward)} {v : NodeState F},
      (node.planForwarding signal arrival nowNs).run t = (r, v) →
        v.activation = t.activation ∧ v.store.seen = t.store.seen := by
    intro r v plan
    have frame := node.planForwarding_run signal arrival nowNs t
    rw [plan] at frame
    exact ⟨frame.activation, frame.store.seen⟩
  cases disposal with
  | shed itself reason => exact ⟨copiesOf_without_le id _ _, rfl, rfl⟩
  | held => exact ⟨le_rfl, rfl, rfl⟩
  | unplanned other fired plan => exact ⟨Nat.zero_le _, planned plan⟩
  | routeless other fired plan => exact ⟨copiesOf_without_le id _ _, planned plan⟩
  | released other fired plan => exact ⟨le_rfl, planned plan⟩

/-- An arrival either adds nothing to the queue, or it is what the claim that it makes is for. -/
theorem receive_adds (signal : Signal F) (arrival : Option SynapseId) (id : SignalId)
    (s : NodeState F) :
    (releases id ((node.receive signal arrival).run s).1 = 0 ∧
      ((node.receive signal arrival).run s).2.activation = s.activation) ∨
    (¬ HasLiveClaim s signal.id ∧
      ((node.receive signal arrival).run s).2.store.seen = (node.claimed signal s).seen ∧
      ∃ (dropped : Option (QueuedSignal F)) (fired : List (QueuedSignal F)),
        releases id ((node.receive signal arrival).run s).1 ≤ copiesOf id fired ∧
        (dropped.toList ++ (fired ++ ((node.receive signal arrival).run s).2.activation.queue)).Perm
          (queuedSignalOf signal s.clock :: s.activation.queue)) := by
  have spec := node.admission_spec signal arrival s
  rcases result : (node.admission signal arrival).run s with ⟨r, t⟩
  rw [result] at spec
  cases spec with
  | failed fault =>
    have run : (node.receive signal arrival).run s = _ := Prog.run_bind_error result
    rw [run]
    exact Or.inl ⟨rfl, NodeState.stored_activation _ _⟩
  | duplicate fault live =>
    have run : (node.receive signal arrival).run s = _ := Prog.run_bind_ok result
    rw [run]
    exact Or.inl ⟨rfl, rfl⟩
  | refused fault fresh reason check =>
    have run : (node.receive signal arrival).run s = _ := Prog.run_bind_ok result
    rw [run]
    exact Or.inl ⟨rfl, rfl⟩
  | admitted fault fresh check weight faults =>
    have run : (node.receive signal arrival).run s = _ := Prog.run_bind_ok result
    rw [run]
    have disposal := node.afterAdmission_spec signal arrival s.clock (offered signal s weight).1
      { s with
        store := node.claimed signal s
        activation := (offered signal s weight).2.1
        rng := (offered signal s weight).2.2
        faults := faults }
    dsimp only
    rcases answer : (node.afterAdmission signal arrival s.clock
      (offered signal s weight).1).run _ with ⟨r, u⟩
    rw [answer] at disposal
    obtain ⟨less, gate, seen⟩ := disposal.releases_le node id
    refine Or.inr ⟨fresh, seen, (offered signal s weight).1.dropped,
      (offered signal s weight).1.fired, less, ?_⟩
    rw [gate]
    exact ActivationState.admitSignal_perm s.activation (queuedSignalOf signal s.clock) weight
      s.clock s.rng

omit [Scalar F] in
theorem claimEnd_claimed {signal : Signal F} {window : ℕ}
    (length : window = saturatingMul node.config.propagation.dedupCacheSeconds nanosPerSec)
    {s u : NodeState F} (fresh : ¬ HasLiveClaim s signal.id) (room : s.clock + window ≤ u64Max)
    (seen : u.store.seen = (node.claimed signal s).seen) :
    claimEnd signal.id u.store = s.clock + window := by
  have unseen : s.store.hasSeen signal.id s.clock = false := Bool.eq_false_of_not_eq_true fresh
  rw [claimEnd_of_seen seen, claimed, MemoryStore.checkAndSetSeen_of_unseen _ _ _ _ unseen,
    claimEnd_insert, ← length, saturatingAdd]
  omega

omit [Scalar F] in
theorem claimEnd_le_of_fresh {s : NodeState F} (fresh : ¬ HasLiveClaim s id) :
    claimEnd id s.store ≤ s.clock :=
  claimEnd_le_of_unseen (Bool.eq_false_of_not_eq_true fresh)

omit [Scalar F] in
theorem claimed_windows {signal : Signal F} {window : ℕ} (positive : 0 < window)
    (length : window = saturatingMul node.config.propagation.dedupCacheSeconds nanosPerSec)
    {s u : NodeState F} (fresh : ¬ HasLiveClaim s signal.id) (early : start ≤ s.clock)
    (forward : s.clock ≤ u.clock) (room : s.clock + window ≤ u64Max)
    (seen : u.store.seen = (node.claimed signal s).seen) :
    s.windows signal.id start window + 1 ≤ u.windows signal.id start window := by
  have claim := node.claimEnd_claimed length fresh room seen
  have next : (s.clock + window - start) / window = (s.clock - start) / window + 1 := by
    rw [Nat.sub_add_comm early, Nat.add_div_right _ positive]
  have far : (s.clock + window - start) / window ≤
      (max (claimEnd signal.id u.store) u.clock - start) / window :=
    Nat.div_le_div_right (Nat.sub_le_sub_right (claim ▸ le_max_left _ _) start)
  have near := Nat.div_le_div_right (c := window) (Nat.sub_le_sub_right forward start)
  rw [NodeState.windows, NodeState.windows, max_eq_right (claimEnd_le_of_fresh fresh)]
  omega

/-- An arrival adds a copy of its id only with a claim that takes the id into the next window. -/
theorem receive_copies (id : SignalId) (signal : Signal F) (arrival : Option SynapseId)
    {window : ℕ} (positive : 0 < window)
    (length : window = saturatingMul node.config.propagation.dedupCacheSeconds nanosPerSec)
    {s : NodeState F} (early : start ≤ s.clock)
    (forward : s.clock ≤ ((node.receive signal arrival).run s).2.clock)
    (room : s.clock + window ≤ u64Max) :
    releases id ((node.receive signal arrival).run s).1 +
      copiesOf id ((node.receive signal arrival).run s).2.activation.queue +
        s.windows id start window ≤
      copiesOf id s.activation.queue +
        ((node.receive signal arrival).run s).2.windows id start window := by
  have kept : s.windows id start window ≤
      ((node.receive signal arrival).run s).2.windows id start window :=
    windows_le (node.receive_claimEnd id signal arrival s forward) forward
  rcases node.receive_adds signal arrival id s with
    ⟨none, gate⟩ | ⟨fresh, seen, dropped, fired, less, perm⟩
  · rw [none, gate]
    omega
  · have count := copies_of_perm perm id
    by_cases mine : signal.id = id
    · subst mine
      have later := node.claimed_windows positive length fresh early forward room seen
      rw [if_pos rfl] at count
      omega
    · rw [if_neg mine] at count
      omega

/-- What has waited for less than a window is still claimed after an arrival, too. -/
theorem receive_covered (signal : Signal F) (arrival : Option SynapseId) {window : ℕ}
    (length : window = saturatingMul node.config.propagation.dedupCacheSeconds nanosPerSec)
    {s : NodeState F} (covered : s.Covered window)
    (forward : s.clock ≤ ((node.receive signal arrival).run s).2.clock)
    (room : s.clock + window ≤ u64Max) :
    ((node.receive signal arrival).run s).2.Covered window := by
  have claims := fun id => node.receive_claimEnd id signal arrival s forward
  intro q waits
  rcases node.receive_adds signal arrival q.id s with
    ⟨-, gate⟩ | ⟨fresh, seen, dropped, fired, -, perm⟩
  · rw [gate] at waits
    exact (covered q waits).trans (claims q.id)
  · have either : q ∈ queuedSignalOf signal s.clock :: s.activation.queue :=
      perm.mem_iff.mp (List.mem_append_right _ (List.mem_append_right _ waits))
    rcases List.mem_cons.mp either with rfl | old
    · have claim := node.claimEnd_claimed length fresh room seen
      exact (claim.symm.le : s.clock + window ≤ _).trans (le_max_left _ _)
    · exact (covered q old).trans (claims q.id)

end Node
end OpenNtl
