import OpenNtl.TableChange

/-! # Pruning by the rate of signature failures

A synapse keeps one count and the start of one window, not the times of its failures. While no
window that is opened has a failure within its length before it, the count misses none that
could complete a burst.
-/
namespace OpenNtl

open AtomicProgram NodeM

variable {F : Type}

/-- Whether the call counted a signature failure against this synapse. -/
def Moment.penalizes (m : Moment F) (id : SynapseId) : Bool :=
  match m.call, m.reply with
  | .penalizeSignatureFailure id', .ok (.penalty (some _)) => id' = id
  | _, _ => false

theorem Moment.penalizes_iff {m : Moment F} {id : SynapseId} :
    m.penalizes id = true ↔ m.Penalizes id := by
  constructor
  · intro h
    unfold Moment.penalizes at h
    split at h
    · rename_i id' o call reply
      obtain rfl : id' = id := by simpa using h
      exact ⟨call, o, reply⟩
    · cases h
  · rintro ⟨call, o, reply⟩
    simp [Moment.penalizes, call, reply]

instance (m : Moment F) (id : SynapseId) : Decidable (m.Penalizes id) :=
  decidable_of_iff _ Moment.penalizes_iff

/-- Whether the synapse is in the store as `Pruned` once the call is over. -/
def Moment.LeavesPruned (m : Moment F) (id : SynapseId) : Prop :=
  (m.after.store.getSynapse id).any (fun r => r.state = .pruned) = true

instance (m : Moment F) (id : SynapseId) : Decidable (m.LeavesPruned id) :=
  inferInstanceAs (Decidable (_ = _))

/-- The readings of the failures counted since one last left the synapse pruned. -/
def failuresSince (id : SynapseId) (ms : List (Moment F)) : List ℕ :=
  ms.foldl (fun times m =>
    if m.Penalizes id then if m.LeavesPruned id then [] else times ++ [m.before.clock]
    else times) []

/-- Every burst is answered: among any failures as many as the threshold that lie in an interval
of the length of the influence window, one leaves the synapse pruned. -/
def PrunesByRate (node : Node F) (id : SynapseId) (ms : List (Moment F)) : Prop :=
  ∀ pre seg post startNs, ms = pre ++ seg ++ post →
    node.config.learning.signatureFailurePruneThreshold ≤ seg.countP (fun m => m.Penalizes id) →
    (∀ m ∈ seg, m.Penalizes id → startNs ≤ m.before.clock ∧
      m.before.clock ≤ startNs + node.config.learning.influenceWindowSecs * nanosPerSec) →
    ∃ m ∈ seg, m.Penalizes id ∧ m.LeavesPruned id

/-- No failure that opens a window has an earlier one, since the synapse was last pruned, within
the length of the window before it. -/
def WindowsApart (node : Node F) (id : SynapseId) (ms : List (Moment F)) : Prop :=
  ∀ pre m post, ms = pre ++ m :: post → m.Penalizes id →
    ∀ r, m.before.store.getSynapse id = some r →
      r.failureWindowStartNs < node.config.learning.influenceWindowStart m.before.clock →
      ∀ t ∈ failuresSince id pre, t < node.config.learning.influenceWindowStart m.before.clock

section Times

variable {id : SynapseId} {ms : List (Moment F)} {m : Moment F}

theorem failuresSince_other (other : ¬ m.Penalizes id) :
    failuresSince id (ms ++ [m]) = failuresSince id ms := by
  simp [failuresSince, List.foldl_append, other]

theorem failuresSince_pruned (penalizes : m.Penalizes id) (pruned : m.LeavesPruned id) :
    failuresSince id (ms ++ [m]) = [] := by
  simp [failuresSince, List.foldl_append, penalizes, pruned]

theorem failuresSince_counted (penalizes : m.Penalizes id) (spared : ¬ m.LeavesPruned id) :
    failuresSince id (ms ++ [m]) = failuresSince id ms ++ [m.before.clock] := by
  simp [failuresSince, List.foldl_append, penalizes, spared]

theorem failuresSince_le {t : ℕ} (past : ∀ m ∈ ms, m.before.clock ≤ t) :
    ∀ x ∈ failuresSince id ms, x ≤ t := by
  induction ms using List.reverseRecOn with
  | nil =>
    intro x hx
    cases hx
  | append_singleton ms m ih =>
    intro x hx
    have before := ih fun m' hm' => past m' (by simp [hm'])
    by_cases penalizes : m.Penalizes id
    · by_cases pruned : m.LeavesPruned id
      · rw [failuresSince_pruned penalizes pruned] at hx
        cases hx
      · rw [failuresSince_counted penalizes pruned] at hx
        rcases List.mem_append.mp hx with hx | hx
        · exact before x hx
        · rw [List.mem_singleton.mp hx]
          exact past m (by simp)
    · rw [failuresSince_other penalizes] at hx
      exact before x hx

theorem failuresSince_append {seg : List (Moment F)}
    (spared : ∀ m ∈ seg, m.Penalizes id → ¬ m.LeavesPruned id) :
    failuresSince id (ms ++ seg) = failuresSince id ms ++
      (seg.filter fun m => m.Penalizes id).map fun m => m.before.clock := by
  induction seg using List.reverseRecOn with
  | nil => simp
  | append_singleton seg m ih =>
    have before := ih fun m' hm' => spared m' (by simp [hm'])
    rw [← List.append_assoc, List.filter_append, List.map_append, ← List.append_assoc, ← before]
    by_cases penalizes : m.Penalizes id
    · rw [failuresSince_counted penalizes (spared m (by simp) penalizes)]
      simp [penalizes]
    · rw [failuresSince_other penalizes]
      simp [penalizes]

end Times

variable [Scalar F]

/-- What the count of a synapse says of the failures since it was last pruned. -/
structure CountsFailures (node : Node F) (times : List ℕ) (r : SynapseRecord F) : Prop where
  counted : times.countP (fun t => r.failureWindowStartNs ≤ t) ≤ r.signatureFailures
  dropped : ∀ t ∈ times, t < r.failureWindowStartNs →
    t < node.config.learning.influenceWindowStart r.failureWindowStartNs
  started : r.state ≠ .pruned → r.failureWindowStartNs = 0 ∨ r.failureWindowStartNs ∈ times
  below : r.state ≠ .pruned →
    r.signatureFailures < node.config.learning.signatureFailurePruneThreshold
  pruned : r.state = .pruned → times = []

/-- The same of whatever the store holds under the identifier. -/
structure FailuresCounted (node : Node F) (id : SynapseId) (times : List ℕ)
    (st : MemoryStore F) : Prop where
  present : ∀ r, st.getSynapse id = some r → CountsFailures node times r
  absent : st.getSynapse id = none → times = []

namespace CountsFailures

variable {node : Node F} {times : List ℕ} {r r' : SynapseRecord F}

omit [Scalar F]

theorem congr (h : CountsFailures node times r)
    (failures : r'.signatureFailures = r.signatureFailures)
    (start : r'.failureWindowStartNs = r.failureWindowStartNs)
    (pruned : r'.state = .pruned ↔ r.state = .pruned) : CountsFailures node times r' where
  counted := by
    rw [failures, start]
    exact h.counted
  dropped := by
    rw [start]
    exact h.dropped
  started := by
    rw [start]
    exact fun alive => h.started (mt pruned.mpr alive)
  below := by
    rw [failures]
    exact fun alive => h.below (mt pruned.mpr alive)
  pruned := fun dead => h.pruned (pruned.mp dead)

theorem clean (threshold : 1 ≤ node.config.learning.signatureFailurePruneThreshold)
    (none : times = []) (failures : r.signatureFailures = 0) (start : r.failureWindowStartNs = 0) :
    CountsFailures node times r := by
  subst none
  refine ⟨by simp, by simp, fun _ => Or.inl start, fun _ => ?_, fun _ => rfl⟩
  omega

end CountsFailures

section Step

variable {node : Node F} {times : List ℕ} {r : SynapseRecord F} {nowNs : ℕ}

omit [Scalar F] in
theorem CountsFailures.opened (past : ∀ t ∈ times, t < nowNs)
    (far : ∀ t ∈ times, t < node.config.learning.influenceWindowStart nowNs)
    {r' : SynapseRecord F} (failures : r'.signatureFailures = 1)
    (start : r'.failureWindowStartNs = nowNs) (alive : r'.state ≠ .pruned)
    (below : r'.signatureFailures < node.config.learning.signatureFailurePruneThreshold) :
    CountsFailures node (times ++ [nowNs]) r' := by
  refine ⟨?_, ?_, fun _ => Or.inr (by simp [start]), fun _ => below, fun dead => absurd dead alive⟩
  · have none : times.countP (fun t => nowNs ≤ t) = 0 := by
      refine List.countP_eq_zero.mpr fun t ht => ?_
      have := past t ht
      simp only [decide_eq_true_eq]
      omega
    rw [failures, start, List.countP_append, none]
    simp
  · intro t ht before
    rw [start] at before ⊢
    rcases List.mem_append.mp ht with ht | ht
    · exact far t ht
    · rw [List.mem_singleton.mp ht] at before
      exact absurd before (lt_irrefl _)

omit [Scalar F] in
theorem CountsFailures.continued (h : CountsFailures node times r)
    (past : ∀ t ∈ times, t ≤ nowNs) (alive : r.state ≠ .pruned) {r' : SynapseRecord F}
    (failures : r'.signatureFailures = r.signatureFailures + 1)
    (start : r'.failureWindowStartNs = r.failureWindowStartNs) (alive' : r'.state ≠ .pruned)
    (below : r'.signatureFailures < node.config.learning.signatureFailurePruneThreshold) :
    CountsFailures node (times ++ [nowNs]) r' := by
  refine ⟨?_, ?_, fun _ => ?_, fun _ => below, fun dead => absurd dead alive'⟩
  · have counted := h.counted
    have one : [nowNs].countP (fun t => r.failureWindowStartNs ≤ t) ≤ 1 := List.countP_le_length
    rw [failures, start, List.countP_append]
    omega
  · intro t ht before
    rw [start] at before ⊢
    rcases List.mem_append.mp ht with ht | ht
    · exact h.dropped t ht before
    · rw [List.mem_singleton.mp ht] at before
      rcases h.started alive with zero | recorded
      · omega
      · have := past _ recorded
        omega
  · rw [start]
    rcases h.started alive with zero | recorded
    · exact Or.inl zero
    · exact Or.inr (List.mem_append_left _ recorded)

omit [Scalar F] in
theorem CountsFailures.counts (h : CountsFailures node times r)
    (small : node.config.learning.signatureFailurePruneThreshold < 2 ^ 32)
    (past : ∀ t ∈ times, t ≤ nowNs) (alive : r.state ≠ .pruned)
    (apart : r.failureWindowStartNs < node.config.learning.influenceWindowStart nowNs →
      ∀ t ∈ times, t < node.config.learning.influenceWindowStart nowNs)
    (below : node.failuresAt nowNs r < node.config.learning.signatureFailurePruneThreshold)
    {r' : SynapseRecord F} (failures : r'.signatureFailures = node.failuresAt nowNs r)
    (start : r'.failureWindowStartNs = node.failureWindowAt nowNs r) (alive' : r'.state ≠ .pruned) :
    CountsFailures node (times ++ [nowNs]) r' := by
  rw [← failures] at below
  unfold Node.failuresAt at failures
  unfold Node.failureWindowAt at start
  by_cases opens : r.failureWindowStartNs < node.config.learning.influenceWindowStart nowNs
  · rw [if_pos opens] at failures start
    have far := apart opens
    have now_le : node.config.learning.influenceWindowStart nowNs ≤ nowNs := Nat.sub_le _ _
    exact .opened (fun t ht => Nat.lt_of_lt_of_le (far t ht) now_le) far failures start alive' below
  · rw [if_neg opens] at failures start
    have room := h.below alive
    have next : r'.signatureFailures = r.signatureFailures + 1 := by
      rw [failures]
      omega
    exact h.continued past alive next start alive' below

omit [Scalar F] in
theorem CountsFailures.burst {old struck : List ℕ} (h : CountsFailures node (old ++ struck) r)
    (alive : r.state ≠ .pruned) (later : ∀ t ∈ old, ∀ t' ∈ struck, t ≤ t') {startNs : ℕ}
    (within : ∀ t ∈ struck, startNs ≤ t ∧ t ≤ u64Max ∧
      t ≤ startNs + node.config.learning.influenceWindowSecs * nanosPerSec) :
    struck.length ≤ r.signatureFailures := by
  rcases struck.eq_nil_or_concat with rfl | ⟨rest, first, rfl⟩
  · exact Nat.zero_le _
  rw [List.concat_eq_append] at *
  have last := List.mem_append_right rest (List.mem_singleton_self first)
  -- The current window began no later than the interval ends.
  have opened : r.failureWindowStartNs ≤ u64Max ∧ r.failureWindowStartNs ≤
      startNs + node.config.learning.influenceWindowSecs * nanosPerSec := by
    have inside := within first last
    rcases h.started alive with zero | began
    · omega
    · rcases List.mem_append.mp began with before | new
      · have := later _ before first last
        omega
      · exact (within _ new).2
  have all : (rest ++ [first]).countP (fun t => r.failureWindowStartNs ≤ t) =
      (rest ++ [first]).length := by
    refine List.countP_eq_length.mpr fun t ht => ?_
    rw [decide_eq_true_eq]
    by_contra before
    have dropped := h.dropped t (List.mem_append_right _ ht) (not_le.mp before)
    have := within t ht
    unfold LearningConfig.influenceWindowStart saturatingMul at dropped
    omega
  have counted := h.counted
  rw [List.countP_append, all] at counted
  omega

omit [Scalar F] in
theorem FailuresCounted.of_same {id : SynapseId} {st st' : MemoryStore F}
    (h : FailuresCounted node id times st) (same : st'.getSynapse id = st.getSynapse id) :
    FailuresCounted node id times st' where
  present := by
    rw [same]
    exact h.present
  absent := by
    rw [same]
    exact h.absent

omit [Scalar F] in
theorem FailuresCounted.of_found {id : SynapseId} {st : MemoryStore F}
    (found : st.getSynapse id = some r) (counts : CountsFailures node times r) :
    FailuresCounted node id times st where
  present := by
    intro x foundX
    rw [found] at foundX
    rwa [← Option.some.inj foundX]
  absent := by
    intro missing
    rw [found] at missing
    cases missing

variable {m : Moment F} {ms : List (Moment F)} {id : SynapseId}

omit [Scalar F] in
theorem leavesPruned_iff {r' : SynapseRecord F} (found : m.after.store.getSynapse id = some r') :
    m.LeavesPruned id ↔ r'.state = .pruned := by
  simp [Moment.LeavesPruned, found]

omit [Scalar F] in
theorem FailuresCounted.prunes {r' : SynapseRecord F} (penalizes : m.Penalizes id)
    (found : m.after.store.getSynapse id = some r') (pruned : r'.state = .pruned) :
    FailuresCounted node id (failuresSince id (ms ++ [m])) m.after.store := by
  rw [failuresSince_pruned penalizes ((leavesPruned_iff found).mpr pruned)]
  refine .of_found found ⟨by simp, by simp, fun alive => absurd pruned alive,
    fun alive => absurd pruned alive, fun _ => rfl⟩

omit [Scalar F] in
theorem penalizes_same {id' : SynapseId} (call : m.call = .penalizeSignatureFailure id')
    (penalizes : m.Penalizes id) : id' = id :=
  Call.penalizeSignatureFailure.inj (call.symm.trans penalizes.1)

namespace FailuresCounted

theorem reweighed {applies : SynapseId → Outcome → Prop} {st st' : MemoryStore F}
    (h : FailuresCounted node id times st) (records : node.Reweighed nowNs applies st st') :
    FailuresCounted node id times st' := by
  constructor
  · intro r' after
    obtain ⟨r, before, rewritten⟩ := records.was after
    have kept := Node.Reweigh.keepStanding rewritten
    exact (h.present r before).congr kept.signatureFailures kept.failureWindowStartNs kept.pruned
  · intro missing
    refine h.absent (Option.eq_none_iff_forall_ne_some.mpr fun r before => ?_)
    obtain ⟨r', after, -⟩ := records.became before
    rw [missing] at after
    cases after

omit [Scalar F] in
theorem put {st st' : MemoryStore F} (h : FailuresCounted node id times st) {x : SynapseRecord F}
    (after : st'.synapses = (st.putSynapse x).synapses)
    (own : x.id = id → CountsFailures node times x) : FailuresCounted node id times st' := by
  by_cases here : x.id = id
  · subst here
    exact .of_found (MemoryStore.put_getSynapse_same after) (own rfl)
  · exact h.of_same (MemoryStore.put_getSynapse_other after (Ne.symm here))

theorem upserted {peer : NodeId} {s : NodeState F} {st' : MemoryStore F} (filed : Filed s.store)
    (threshold : 1 ≤ node.config.learning.signatureFailurePruneThreshold)
    (change : node.Upserted peer s st')
    (fresh : s.store.synapseForPeer peer = none →
      s.store.getSynapse (node.formedRecord peer s.clock s.rng).id = none)
    (h : FailuresCounted node id times s.store) : FailuresCounted node id times st' := by
  cases change with
  | kept same => exact h.of_same (MemoryStore.getSynapse_congr same id)
  | @reactivated x found dormant after =>
    refine h.put after fun here => ?_
    refine (h.present x (here ▸ filed.forPeer found)).congr rfl rfl ?_
    simp [dormant]
  | @reformed x found pruned served after =>
    refine h.put after fun here => ?_
    exact .clean threshold ((h.present x (here ▸ filed.forPeer found)).pruned pruned) rfl rfl
  | formed missing after =>
    refine h.put after fun here => ?_
    have unused := fresh missing
    rw [here] at unused
    exact .clean threshold (h.absent unused) rfl rfl

theorem penalized {x : SynapseRecord F} (penalizes : m.Penalizes x.id)
    (found : m.before.store.getSynapse x.id = some x)
    (after : m.after.store.synapses =
      (m.before.store.putSynapse (node.penalizedRecord m.before.clock x)).synapses)
    (small : node.config.learning.signatureFailurePruneThreshold < 2 ^ 32)
    (past : ∀ t ∈ failuresSince x.id ms, t ≤ m.before.clock)
    (apart : x.failureWindowStartNs < node.config.learning.influenceWindowStart m.before.clock →
      ∀ t ∈ failuresSince x.id ms, t < node.config.learning.influenceWindowStart m.before.clock)
    (h : FailuresCounted node x.id (failuresSince x.id ms) m.before.store) :
    FailuresCounted node x.id (failuresSince x.id (ms ++ [m])) m.after.store := by
  have found' := node.penalizedRecord_found after
  rcases node.penalizedRecord_cases m.before.clock x with
    ⟨-, -, written⟩ | ⟨below, -, state, kept, written⟩
  · exact .prunes penalizes found' (by rw [written])
  · by_cases dead : x.state = .pruned
    · exact .prunes penalizes found' (by rw [written]; exact kept.mpr dead)
    · have alive' : (node.penalizedRecord m.before.clock x).state ≠ .pruned := by
        rw [written]
        exact mt kept.mp dead
      rw [failuresSince_counted penalizes (mt (leavesPruned_iff found').mp alive')]
      refine .of_found found' ((h.present x found).counts small past dead apart below ?_ ?_ alive')
      · rw [written]
      · rw [written]

theorem step (change : TableChange node m) (fresh : node.FreshId m)
    (filed : Filed m.before.store)
    (threshold : 1 ≤ node.config.learning.signatureFailurePruneThreshold)
    (small : node.config.learning.signatureFailurePruneThreshold < 2 ^ 32)
    (past : ∀ t ∈ failuresSince id ms, t ≤ m.before.clock)
    (apart : m.Penalizes id → ∀ r, m.before.store.getSynapse id = some r →
      r.failureWindowStartNs < node.config.learning.influenceWindowStart m.before.clock →
      ∀ t ∈ failuresSince id ms, t < node.config.learning.influenceWindowStart m.before.clock)
    (h : FailuresCounted node id (failuresSince id ms) m.before.store) :
    FailuresCounted node id (failuresSince id (ms ++ [m])) m.after.store := by
  cases change with
  | reweighs other records =>
    rw [failuresSince_other (other id)]
    exact h.reweighed records
  | @penalizes x call found reply after =>
    by_cases here : x.id = id
    · subst here
      have penalizes : m.Penalizes x.id := ⟨call, _, reply⟩
      exact h.penalized penalizes found after small past (apart penalizes x found)
    · rw [failuresSince_other fun penalizes => here (penalizes_same call penalizes)]
      refine h.of_same (MemoryStore.put_getSynapse_other after ?_)
      rw [node.penalizedRecord_id]
      exact Ne.symm here
  | @upserts peer call change =>
    have other : ¬ m.Penalizes id := by
      intro penalizes
      have same := penalizes.1
      rw [call] at same
      cases same
    rw [failuresSince_other other]
    exact h.upserted filed threshold change (fresh peer call)

end FailuresCounted

end Step

section Run

variable {node : Node F} {ms : List (Moment F)} {s : NodeState F} {id : SynapseId}

omit [Scalar F] in
theorem WindowsApart.init {m : Moment F} (h : WindowsApart node id (ms ++ [m])) :
    WindowsApart node id ms := by
  rintro pre x post rfl
  exact h pre x (post ++ [m]) (by simp)

theorem failures_counted (run : NodeRun node ms s)
    (forward : ms.Pairwise fun a b => a.before.clock ≤ b.before.clock)
    (fresh : ∀ m ∈ ms, node.FreshId m)
    (threshold : 1 ≤ node.config.learning.signatureFailurePruneThreshold)
    (small : node.config.learning.signatureFailurePruneThreshold < 2 ^ 32)
    (apart : WindowsApart node id ms) : FailuresCounted node id (failuresSince id ms) s.store := by
  induction run with
  | start => exact ⟨fun r found => (by cases found), fun _ => rfl⟩
  | restart run restarts ih =>
    obtain ⟨rng, clock, faults, rfl⟩ := restarts.built
    exact ih forward fresh apart
  | @call ms s m run resumes performed ih =>
    obtain ⟨forward, -, later⟩ := List.pairwise_append.mp forward
    have before := ih forward (fun m' hm' => fresh m' (by simp [hm'])) apart.init
    rw [← resumes.store] at before
    have filed : Filed m.before.store := by
      rw [resumes.store]
      exact run.filed.1
    refine before.step (table_change performed filed) (fresh m (by simp)) filed threshold small ?_ ?_
    · exact failuresSince_le fun m' hm' => later m' hm' m (List.mem_singleton_self m)
    · exact fun penalizes r found opens => apart ms m [] rfl penalizes r found opens

/-- In a run whose clock never goes back, whose new synapses have new identifiers and whose
counting windows lie apart, every burst of signature failures prunes. -/
theorem bursts_prune (run : NodeRun node ms s)
    (forward : ms.Pairwise fun a b => a.before.clock ≤ b.before.clock)
    (representable : ∀ m ∈ ms, m.before.clock ≤ u64Max) (fresh : ∀ m ∈ ms, node.FreshId m)
    (threshold : 1 ≤ node.config.learning.signatureFailurePruneThreshold)
    (small : node.config.learning.signatureFailurePruneThreshold < 2 ^ 32)
    (apart : WindowsApart node id ms) : PrunesByRate node id ms := by
  rintro pre seg post startNs rfl many within
  by_contra none
  have spared : ∀ m ∈ seg, m.Penalizes id → ¬ m.LeavesPruned id :=
    fun m hm penalizes pruned => none ⟨m, hm, penalizes, pruned⟩
  obtain ⟨t, run⟩ := run.taken
  have forward := (List.pairwise_append.mp forward).1
  have apart : WindowsApart node id (pre ++ seg) := by
    intro before m after same
    exact apart before m (after ++ post) (by rw [same]; simp)
  have counted := failures_counted run forward (fun m hm => fresh m (List.mem_append_left _ hm))
    threshold small apart
  rw [failuresSince_append spared] at counted
  let struck := (seg.filter fun m => m.Penalizes id).map fun m => m.before.clock
  have length : seg.countP (fun m => m.Penalizes id) = struck.length := by
    rw [List.length_map, List.countP_eq_length_filter]
  have within' : ∀ t ∈ struck, startNs ≤ t ∧ t ≤ u64Max ∧
      t ≤ startNs + node.config.learning.influenceWindowSecs * nanosPerSec := by
    intro t ht
    obtain ⟨m, hm, rfl⟩ := List.mem_map.mp ht
    obtain ⟨hm, penalizes⟩ := List.mem_filter.mp hm
    have inside := within m hm (by simpa using penalizes)
    exact ⟨inside.1, representable m (by simp [hm]), inside.2⟩
  have later : ∀ t ∈ failuresSince id pre, ∀ t' ∈ struck, t ≤ t' := by
    intro t ht t' ht'
    obtain ⟨m, hm, rfl⟩ := List.mem_map.mp ht'
    have hm := (List.mem_filter.mp hm).1
    exact failuresSince_le (fun m' hm' => (List.pairwise_append.mp forward).2.2 m' hm' m hm) t ht
  have recorded : failuresSince id pre ++ struck ≠ [] := by
    have some : struck ≠ [] := List.ne_nil_of_length_pos (by omega)
    simp [some]
  cases found : t.store.getSynapse id with
  | none => exact recorded (counted.absent found)
  | some r =>
    have counts : CountsFailures node (failuresSince id pre ++ struck) r := counted.present r found
    have alive : r.state ≠ .pruned := mt counts.pruned recorded
    have enough := counts.burst alive later within'
    have below := counts.below alive
    omega

end Run

def edgeSynapse : SynapseId := (edgeNode.formedRecord neighbour 0 .maximal).id

def failing : NodeState ℚ → List ℕ → List (Moment ℚ)
  | _, [] => []
  | s, t :: ts =>
    let m := edgeNode.momentAt (.penalizeSignatureFailure edgeSynapse)
      { s with clock := t, faults := [] }
    m :: failing m.after ts

def struckAt (readings : List ℕ) : List (Moment ℚ) := connected :: failing connected.after readings

def afterFailing : NodeState ℚ → List ℕ → NodeState ℚ
  | s, [] => s
  | s, t :: ts => afterFailing (edgeNode.momentAt (.penalizeSignatureFailure edgeSynapse)
      { s with clock := t, faults := [] }).after ts

theorem failing_run {ms : List (Moment ℚ)} {s : NodeState ℚ} (run : NodeRun edgeNode ms s)
    (readings : List ℕ) :
    NodeRun edgeNode (ms ++ failing s readings) (afterFailing s readings) := by
  induction readings generalizing ms s with
  | nil =>
    rw [failing, List.append_nil]
    exact run
  | cons reading rest ih =>
    have next := ih (run.next (.penalizeSignatureFailure edgeSynapse) reading [])
    rw [failing, List.append_cons]
    exact next

theorem struck_run (readings : List ℕ) :
    NodeRun edgeNode (struckAt readings) (afterFailing connected.after readings) :=
  failing_run ((NodeRun.start .maximal 0 []).next (.upsertSynapse neighbour) 0 []) readings

theorem struck_fresh (readings : List ℕ) : ∀ m ∈ struckAt readings, edgeNode.FreshId m := by
  have penalties : ∀ (readings : List ℕ) (s : NodeState ℚ), ∀ m ∈ failing s readings,
      m.call = .penalizeSignatureFailure edgeSynapse := by
    intro readings
    induction readings with
    | nil =>
      intro s m hm
      cases hm
    | cons reading rest ih =>
      intro s m hm
      rcases List.mem_cons.mp hm with rfl | hm
      · rfl
      · exact ih _ m hm
  intro m hm peer call missing
  rcases List.mem_cons.mp hm with rfl | hm
  · rfl
  · rw [penalties readings _ m hm] at call
    cases call

theorem five_at_once_prune : PrunesByRate edgeNode edgeSynapse (struckAt [0, 0, 0, 0, 0]) := by
  have early : ∀ m ∈ struckAt [0, 0, 0, 0, 0], m.before.clock = 0 := by decide +kernel
  refine bursts_prune (struck_run _) (by decide +kernel) (by decide +kernel) (struck_fresh _)
    (by decide +kernel) (by decide +kernel) ?_
  intro pre m post same penalizes r found opens
  have here : m ∈ struckAt [0, 0, 0, 0, 0] := by
    rw [same]
    simp
  rw [early m here] at opens
  exact absurd opens (by simp [LearningConfig.influenceWindowStart])

def hourNs : ℕ := 3600 * nanosPerSec

/-- One failure, three an hour later, and two a nanosecond after those. -/
def straddling : List ℕ :=
  [2 * hourNs, 3 * hourNs, 3 * hourNs, 3 * hourNs, 3 * hourNs + 1, 3 * hourNs + 1]

theorem straddling_burst_spared :
    (∃ t, NodeRun edgeNode (struckAt straddling) t) ∧
    ((struckAt straddling).Pairwise fun a b => a.before.clock ≤ b.before.clock) ∧
    (∀ m ∈ struckAt straddling, edgeNode.FreshId m) ∧
    ¬ PrunesByRate edgeNode edgeSynapse (struckAt straddling) := by
  refine ⟨⟨_, struck_run straddling⟩, by decide +kernel, struck_fresh straddling, ?_⟩
  intro prunes
  have spared : ∀ m ∈ (struckAt straddling).drop 2, ¬ m.LeavesPruned edgeSynapse := by
    decide +kernel
  have split : struckAt straddling =
      (struckAt straddling).take 2 ++ (struckAt straddling).drop 2 ++ [] := by
    rw [List.append_nil, List.take_append_drop]
  obtain ⟨m, hm, -, pruned⟩ := prunes _ _ _ (3 * hourNs) split (by decide +kernel)
    (by decide +kernel)
  exact spared m hm pruned

end OpenNtl
