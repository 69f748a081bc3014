import OpenNtl.CallFrame
import OpenNtl.Settle

/-! # Each decision teaches once

The history variable lists the calls into `applyOutcomeToSynapse`. While no transport failure
names a decision that was resolved at the very reading of the clock, it lists each resolved
decision once, under the outcome the journal has for it.
-/
namespace OpenNtl

open AtomicProgram NodeM

variable {F : Type} [Scalar F]

def JournalOrdered (st : MemoryStore F) : Prop :=
  st.journal.map JournalEntry.id = (List.range st.nextJournalId).map fun i => some ⟨i + 1⟩

namespace JournalOrdered

variable {st st' : MemoryStore F}

omit [Scalar F]

theorem nodup (h : JournalOrdered st) : (st.journal.map JournalEntry.id).Nodup := by
  rw [h]
  refine List.nodup_range.map fun i j same => ?_
  simpa using same

theorem named (h : JournalOrdered st) {e : JournalEntry F} (he : e ∈ st.journal) :
    ∃ id, e.id = some id := by
  have numbered : e.id ∈ st.journal.map JournalEntry.id := List.mem_map_of_mem he
  rw [h] at numbered
  obtain ⟨i, -, same⟩ := List.mem_map.mp numbered
  exact ⟨_, same.symm⟩

theorem numbered (h : JournalOrdered st) : Numbered st.journal :=
  ⟨fun _ he => h.named he, h.nodup⟩

theorem decision_of_mem (h : JournalOrdered st) {e : JournalEntry F} (he : e ∈ st.journal)
    {id : JournalId} (named : e.id = some id) : st.decision id = some e :=
  h.numbered.find he named

theorem grows (h : JournalOrdered st) (g : JournalGrows st st') : JournalOrdered st' := by
  obtain ⟨new, journal, fresh, next⟩ := g
  unfold JournalOrdered
  rw [journal, next, List.map_append, h, fresh.ids, List.range_add, List.map_append, List.map_map]
  rfl

theorem resolve (h : JournalOrdered st) (id : JournalId) (outcome : Outcome) (nowNs : ℕ) :
    JournalOrdered (st.resolveDecision id outcome nowNs).2 := by
  rcases st.resolveDecision_cases id outcome nowNs with ⟨-, r⟩ | ⟨e, -, -, r⟩ | ⟨e, -, -, r⟩
  · rwa [r]
  · rwa [r]
  · rw [r]
    have same : (updateFirst (MemoryStore.hasId id) (MemoryStore.resolved outcome nowNs)
        st.journal).map JournalEntry.id = st.journal.map JournalEntry.id := by
      apply map_updateFirst
      intro x
      rfl
    exact same.trans h

end JournalOrdered

omit [Scalar F] in
theorem claim_grows (id : SignalId) (nowNs ttlSecs : ℕ) (st : MemoryStore F) :
    JournalGrows st (st.checkAndSetSeen id nowNs ttlSecs).2 := by
  refine .of_same (MemoryStore.checkAndSetSeen_journal st id nowNs ttlSecs) ?_
  unfold MemoryStore.checkAndSetSeen
  split
  · split <;> rfl
  · rfl

omit [Scalar F] in
theorem journalGrows_across : HoldsAcrossReads (JournalGrows (F := F)) where
  same := JournalGrows.refl
  claims := fun st id nowNs ttlSecs => claim_grows id nowNs ttlSecs st
  plans := Appends.journal
  saves := fun _ _ => .of_same rfl rfl
  purges := fun _ _ => .of_same rfl rfl

namespace Node

variable (node : Node F)

theorem normalizeOutboundWeights_quiet :
    node.normalizeOutboundWeights.Within (Quiet JournalGrows) :=
  node.normalizeOutboundWeights_within.mono fun _ _ h =>
    Quiet.of_storeOnly (fun r => .of_same r.journal r.nextJournalId) h

omit [Scalar F] in
theorem putSynapse_quiet (r : SynapseRecord F) :
    (writeStore fun st => st.putSynapse r).Within (Quiet JournalGrows) :=
  Quiet.callStore JournalGrows.refl fun _ => .of_same rfl rfl

theorem penalizeSignatureFailure_quiet (id : SynapseId) :
    (node.penalizeSignatureFailure id).Within (Quiet JournalGrows) := by
  refine (Quiet.now JournalGrows.refl).bind fun now => ?_
  refine (Quiet.readStore JournalGrows.refl).bind fun found => ?_
  split
  · exact Prog.Within.of_pure _
  · exact (putSynapse_quiet _).bind fun _ => Prog.Within.of_pure _

theorem upsertSynapse_quiet (peer : NodeId) :
    (node.upsertSynapse peer).Within (Quiet JournalGrows) := by
  refine (Quiet.now JournalGrows.refl).bind fun now => ?_
  refine (Quiet.readStore JournalGrows.refl).bind fun found => ?_
  split
  · split
    · dsimp only
      split
      · exact Prog.Within.of_throw _
      · exact (putSynapse_quiet _).bind fun _ => Prog.Within.of_pure _
    · split
      · exact (putSynapse_quiet _).bind fun _ => Prog.Within.of_pure _
      · exact Prog.Within.of_pure _
  · refine (Quiet.withRng JournalGrows.refl).bind fun synapse => ?_
    refine (putSynapse_quiet _).bind fun _ => ?_
    refine (Quiet.callStore JournalGrows.refl ?_).bind fun _ => Prog.Within.of_pure _
    exact fun st => .of_same rfl rfl

theorem perform_quiet (call : Call F) (other : ¬ call.Learns) :
    (node.perform call).Within (Quiet JournalGrows) := by
  cases call with
  | failForward id => exact absurd (.forward id) other
  | applyReceipt receipt peer => exact absurd (.receipt receipt peer) other
  | sweepTimeouts limit => exact absurd (.sweep limit) other
  | normalizeOutboundWeights => exact node.normalizeOutboundWeights_quiet.map _
  | penalizeSignatureFailure id => exact (node.penalizeSignatureFailure_quiet id).map _
  | upsertSynapse peer => exact (node.upsertSynapse_quiet peer).map _
  | emit builder => exact node.reads_quiet journalGrows_across (.emit builder)
  | receiveLocal signal => exact node.reads_quiet journalGrows_across (.receiveLocal signal)
  | receive signal arrival =>
    exact node.reads_quiet journalGrows_across (.receive signal arrival)
  | planRelease signal arrival =>
    exact node.reads_quiet journalGrows_across (.planRelease signal arrival)
  | synapseForPeer peer => exact node.reads_quiet journalGrows_across (.synapseForPeer peer)
  | pollActivation => exact node.reads_quiet journalGrows_across .pollActivation
  | checkpoint => exact node.reads_quiet journalGrows_across .checkpoint

/-- A call is within `Q` if quiet calls are, and the settlements under its lesson. -/
theorem perform_within {Q : NodeState F → NodeState F → Prop} {call : Call F}
    (quiet : ∀ s s', Quiet JournalGrows s s' → Q s s')
    (settles : ∀ id outcome nowNs, call.lesson = some outcome →
      (node.settle id outcome nowNs).Within Q) :
    (node.perform call).Within Q := by
  by_cases learns : call.Learns
  · refine node.learns_within learns (fun s s' h => quiet s s' ⟨h.learned, ?_⟩) settles
    rw [← h.store]
    exact JournalGrows.refl s.store
  · exact (node.perform_quiet call learns).mono quiet

end Node

def lessons (learned : List (Option JournalId × Outcome)) (id : JournalId) : List Outcome :=
  (learned.filter fun l => l.1 = some id).map Prod.snd

omit [Scalar F] in
/-- What should have been taught: the recorded outcome of a resolved decision, once. -/
def recorded (st : MemoryStore F) (id : JournalId) : List Outcome :=
  match st.decision id with
  | some e => if e.outcome.isResolved then [e.outcome] else []
  | none => []

/-- A decision has caused at most one weight update, under its recorded outcome. -/
def TeachesOnce (s : NodeState F) : Prop :=
  ∀ id, (lessons s.learned id).length ≤ 1 ∧
    ∀ o ∈ lessons s.learned id, ∃ e, s.store.decision id = some e ∧ e.outcome = o

structure Ledger (st : MemoryStore F) (learned : List (Option JournalId × Outcome)) : Prop where
  ordered : JournalOrdered st
  exact : ∀ id, lessons learned id = recorded st id

theorem lessons_append (learned : List (Option JournalId × Outcome)) (id : JournalId)
    (outcome : Outcome) (other : JournalId) :
    lessons (learned ++ [(some id, outcome)]) other =
      lessons learned other ++ if other = id then [outcome] else [] := by
  by_cases same : other = id
  · subst same
    simp [lessons]
  · simp [lessons, same, Ne.symm same]

namespace Ledger

variable {st st' : MemoryStore F} {learned : List (Option JournalId × Outcome)}

omit [Scalar F]

theorem initial : Ledger (.new : MemoryStore F) [] := ⟨rfl, fun _ => rfl⟩

theorem teachesOnce {s : NodeState F} (h : Ledger s.store s.learned) : TeachesOnce s := by
  intro id
  rw [h.exact id]
  unfold recorded
  cases found : s.store.decision id with
  | none => simp
  | some e =>
    by_cases done : e.outcome.isResolved = true
    · simp [done]
    · simp [done]

theorem grows (h : Ledger st learned) (g : JournalGrows st st') : Ledger st' learned := by
  refine ⟨h.ordered.grows g, fun id => ?_⟩
  obtain ⟨new, journal, fresh, -⟩ := g
  have search : st'.decision id = (st.decision id).or (new.find? (MemoryStore.hasId id)) := by
    unfold MemoryStore.decision
    rw [journal, List.find?_append]
  rw [h.exact id]
  unfold recorded
  rw [search]
  cases known : st.decision id with
  | some e => rfl
  | none =>
    cases found : new.find? (MemoryStore.hasId id) with
    | none => rfl
    | some e => simp [fresh.pending e (List.mem_of_find?_eq_some found), Outcome.isResolved]

theorem teach (h : Ledger st learned) {id : JournalId} {e : JournalEntry F} {outcome : Outcome}
    {nowNs : ℕ} (found : st.decision id = some e) (pending : e.outcome = .pending)
    (resolves : outcome.isResolved = true)
    (same : st'.journal = (st.resolveDecision id outcome nowNs).2.journal)
    (next : st'.nextJournalId = (st.resolveDecision id outcome nowNs).2.nextJournalId) :
    Ledger st' (learned ++ [(e.id, outcome)]) := by
  have ordered : JournalOrdered (st.resolveDecision id outcome nowNs).2 :=
    h.ordered.resolve id outcome nowNs
  refine ⟨?_, fun other => ?_⟩
  · unfold JournalOrdered at ordered ⊢
    rwa [same, next]
  · rw [MemoryStore.decision_id found, lessons_append, h.exact other]
    unfold recorded
    rw [MemoryStore.decision_congr same other]
    by_cases eq : other = id
    · subst eq
      have now : (st.resolveDecision other outcome nowNs).2.decision other =
          some (MemoryStore.resolved outcome nowNs e) := MemoryStore.decision_resolved found pending
      have unresolved : e.outcome.isResolved = false := Outcome.isResolved_eq_false.mpr pending
      simp [found, unresolved, now, MemoryStore.resolved, resolves]
    · rw [MemoryStore.decision_resolve_other eq]
      simp [eq]

end Ledger

/-- The decision is resolved already, at a reading that equals the current one. -/
def ResolvedAt (st : MemoryStore F) (id : JournalId) (nowNs : ℕ) : Prop :=
  ∃ e, st.decision id = some e ∧ e.outcome.isResolved = true ∧ e.resolvedAtNs = some nowNs

namespace Node

variable (node : Node F)

theorem applyOutcomeToSynapse_learned (entry : JournalEntry F) (outcome : Outcome) (nowNs : ℕ)
    (s : NodeState F) :
    ((node.applyOutcomeToSynapse entry outcome nowNs).run s).2.learned =
        s.learned ++ [(entry.id, outcome)] ∧
      ((node.applyOutcomeToSynapse entry outcome nowNs).run s).2.store.journal = s.store.journal ∧
      ((node.applyOutcomeToSynapse entry outcome nowNs).run s).2.store.nextJournalId =
        s.store.nextJournalId := by
  rw [applyOutcomeToSynapse_run]
  have frame := node.updateSynapse_run entry outcome nowNs
    { s with learned := s.learned ++ [(entry.id, outcome)] }
  exact ⟨frame.learned, frame.store.journal, frame.store.nextJournalId⟩

theorem settle_ledger {id : JournalId} {outcome : Outcome} {nowNs : ℕ} {s : NodeState F}
    (resolves : outcome.isResolved = true) (h : Ledger s.store s.learned)
    (first : nextFault s = none → ¬ ResolvedAt s.store id nowNs) :
    Ledger ((node.settle id outcome nowNs).run s).2.store
      ((node.settle id outcome nowNs).run s).2.learned := by
  have spec := node.settle_spec id outcome nowNs s
  generalize (node.settle id outcome nowNs).run s = r at spec ⊢
  cases spec with
  | failed fault => exact h
  | unknown fault missing => exact h
  | earlier fault found done before => exact h
  | again fault found done now => exact absurd ⟨_, found, done, now⟩ (first fault)
  | @learns fault e found pending =>
    obtain ⟨noted, journal, next⟩ := node.applyOutcomeToSynapse_learned
      (MemoryStore.resolved outcome nowNs e) outcome nowNs (afterResolve id outcome nowNs s)
    dsimp only
    rw [noted]
    show Ledger _ (s.learned ++ [(e.id, outcome)])
    exact h.teach found pending resolves journal next

theorem settle_other {id other : JournalId} (ne : other ≠ id) (outcome : Outcome) (nowNs : ℕ)
    (s : NodeState F) :
    ((node.settle id outcome nowNs).run s).2.store.decision other = s.store.decision other := by
  have spec := node.settle_spec id outcome nowNs s
  generalize (node.settle id outcome nowNs).run s = r at spec ⊢
  cases spec with
  | failed fault => rfl
  | unknown fault missing => rfl
  | earlier fault found done before => rfl
  | @again fault e found done now =>
    obtain ⟨-, journal, -⟩ := node.applyOutcomeToSynapse_learned e outcome nowNs (s.stored s.store)
    exact MemoryStore.decision_congr journal other
  | @learns fault e found pending =>
    obtain ⟨-, journal, -⟩ := node.applyOutcomeToSynapse_learned
      (MemoryStore.resolved outcome nowNs e) outcome nowNs (afterResolve id outcome nowNs s)
    exact (MemoryStore.decision_congr journal other).trans
      (MemoryStore.decision_resolve_other ne)

theorem settle_again {id : JournalId} {outcome : Outcome} {nowNs : ℕ} {s : NodeState F}
    (fault : nextFault s = none) (again : ResolvedAt s.store id nowNs) :
    ((node.settle id outcome nowNs).run s).2.learned = s.learned ++ [(some id, outcome)] := by
  obtain ⟨e, found, done, now⟩ := again
  have resolved : (node.settle id outcome nowNs).run s = _ :=
    Prog.run_bind_ok (callStore_run_ok fault)
  rw [resolved, MemoryStore.resolveDecision_of_resolved found done]
  simp only [learnIfResolvedNow, if_pos now, Prog.run_map]
  rw [(node.applyOutcomeToSynapse_learned e outcome nowNs (s.stored s.store)).1,
    MemoryStore.decision_id found]
  rfl

/-- Decisions still to be swept, each of them pending and each a different one. -/
structure Awaiting (st : MemoryStore F) (rest : List (JournalEntry F)) : Prop where
  distinct : (rest.map JournalEntry.id).Nodup
  pending : ∀ x ∈ rest, ∀ id, x.id = some id → ∃ e, st.decision id = some e ∧ e.outcome = .pending

omit [Scalar F] in
theorem awaiting_expired {st : MemoryStore F} (ordered : JournalOrdered st) (deadlineNs limit : ℕ) :
    Awaiting st (st.expiredDecisions deadlineNs limit) := by
  have sub : (st.expiredDecisions deadlineNs limit).Sublist st.journal :=
    (List.take_sublist _ _).trans List.filter_sublist
  refine ⟨ordered.nodup.sublist (sub.map _), fun x hx id named => ?_⟩
  refine ⟨x, ordered.decision_of_mem (sub.subset hx) named, ?_⟩
  have expired := List.of_mem_filter (List.mem_of_mem_take hx)
  simp only [Bool.and_eq_true, Bool.not_eq_true'] at expired
  exact Outcome.isResolved_eq_false.mp expired.1

theorem sweepOne_ledger {nowNs : ℕ} {x : JournalEntry F} {rest : List (JournalEntry F)}
    {s : NodeState F} (h : Ledger s.store s.learned) (awaiting : Awaiting s.store (x :: rest)) :
    Ledger ((node.sweepOne nowNs x).run s).2.store ((node.sweepOne nowNs x).run s).2.learned ∧
      Awaiting ((node.sweepOne nowNs x).run s).2.store rest := by
  have distinct := List.nodup_cons.mp awaiting.distinct
  cases named : x.id with
  | none =>
    simp only [sweepOne, named, Prog.run_pure]
    exact ⟨h, distinct.2, fun y hy => awaiting.pending y (List.mem_cons_of_mem x hy)⟩
  | some id =>
    have state : ((node.sweepOne nowNs x).run s).2 = ((node.settle id .timedOut nowNs).run s).2 := by
      simp only [sweepOne, named, bind_pure_comp, Prog.run_map]
    rw [state]
    obtain ⟨e, found, pending⟩ := awaiting.pending x List.mem_cons_self id named
    refine ⟨node.settle_ledger rfl h fun _ again => ?_, distinct.2, fun y hy other hother => ?_⟩
    · obtain ⟨e', found', done, -⟩ := again
      obtain rfl := Option.some.inj (found.symm.trans found')
      rw [pending] at done
      cases done
    · have ne : other ≠ id := by
        rintro rfl
        exact distinct.1 (named ▸ hother ▸ List.mem_map_of_mem hy)
      rw [node.settle_other ne]
      exact awaiting.pending y (List.mem_cons_of_mem x hy) other hother

theorem sweep_ledger {nowNs : ℕ} {rest : List (JournalEntry F)} {s : NodeState F} (n : ℕ)
    (h : Ledger s.store s.learned) (awaiting : Awaiting s.store rest) :
    Ledger ((rest.foldlM (fun n e => (n + ·) <$> node.sweepOne nowNs e) n).run s).2.store
      ((rest.foldlM (fun n e => (n + ·) <$> node.sweepOne nowNs e) n).run s).2.learned := by
  induction rest generalizing s n with
  | nil => exact h
  | cons x rest ih =>
    obtain ⟨ledger, awaits⟩ :
        Ledger ((node.sweepOne nowNs x).run s).2.store ((node.sweepOne nowNs x).run s).2.learned ∧
          Awaiting ((node.sweepOne nowNs x).run s).2.store rest := node.sweepOne_ledger h awaiting
    rw [List.foldlM_cons, Prog.run_bind, Prog.run_map]
    generalize (node.sweepOne nowNs x).run s = r at ledger awaits ⊢
    rcases r with ⟨e | k, t⟩
    · exact ledger
    · exact ih (n + k) ledger awaits

end Node

/-- A transport failure is recorded for a decision that was resolved at the current reading. -/
def RepeatsLesson (m : Moment F) : Prop :=
  ∃ id, m.call = .failForward id ∧ nextFault m.before = none ∧
    ResolvedAt m.before.store id m.before.clock

theorem lessons_prefix {l l' : List (Option JournalId × Outcome)} (h : l <+: l') (id : JournalId) :
    (lessons l id).length ≤ (lessons l' id).length := by
  obtain ⟨t, rfl⟩ := h
  unfold lessons
  simp

namespace Node

variable (node : Node F)

def NotesGrow (s s' : NodeState F) : Prop := s.learned <+: s'.learned

omit [Scalar F] in
theorem NotesGrow.of_same {s s' : NodeState F} (h : s'.learned = s.learned) : NotesGrow s s' := by
  unfold NotesGrow
  rw [h]

theorem settle_notes (id : JournalId) (outcome : Outcome) (nowNs : ℕ) :
    (node.settle id outcome nowNs).Within NotesGrow := by
  have only : ∀ {R} (s s' : NodeState F), StoreOnly R s s' → NotesGrow s s' :=
    fun s s' h => .of_same h.learned
  refine node.settle_within id nowNs ?_ (fun s _ => List.prefix_append s.learned _) only
  exact Prog.Within.mono only (StoreOnly.callStore (R := fun _ _ => True)
    (fun _ => trivial) fun _ => trivial)

theorem perform_notes (call : Call F) : (node.perform call).Within NotesGrow :=
  node.perform_within (fun _ _ h => .of_same h.learned)
    fun id outcome nowNs _ => node.settle_notes id outcome nowNs

end Node

variable {node : Node F} {m : Moment F}

theorem moment_notes (performed : m.Performed node) : m.before.learned <+: m.after.learned := by
  rw [moment_after performed]
  exact (node.perform_notes m.call).run (fun s => List.prefix_refl s.learned)
    (fun h k => h.trans k) m.before

theorem step_preserves_ledger (performed : m.Performed node)
    (h : Ledger m.before.store m.before.learned) (once : ¬ RepeatsLesson m) :
    Ledger m.after.store m.after.learned := by
  rw [moment_after performed]
  by_cases learns : m.call.Learns
  · generalize call : m.call = c at learns ⊢
    cases learns with
    | forward id =>
      have first : nextFault m.before = none → ¬ ResolvedAt m.before.store id m.before.clock :=
        fun fault again => once ⟨id, call, fault, again⟩
      simp only [Node.perform, Prog.run_map, Node.failForward, now_bind_run]
      exact node.settle_ledger rfl h first
    | receipt receipt peer =>
      simp only [Node.perform, Prog.run_map, Node.applyReceipt, now_bind_run]
      cases fault : nextFault m.before with
      | some f =>
        rw [Prog.run_bind_error (readStore_run_error fault)]
        exact h
      | none =>
        rw [Prog.run_bind_ok (readStore_run_ok fault)]
        cases found : m.before.store.pendingDecisionFor receipt.correlationId peer with
        | none => exact h
        | some e =>
          cases named : e.id with
          | none =>
            simp only [Option.bind_some, named]
            exact h
          | some id =>
            simp only [Option.bind_some, named]
            have matched := List.find?_some found
            simp only [Bool.and_eq_true, Bool.not_eq_true'] at matched
            have pending := Outcome.isResolved_eq_false.mp matched.2
            have known := h.ordered.decision_of_mem (List.mem_of_find?_eq_some found) named
            refine node.settle_ledger receipt.outcome_isResolved h fun _ again => ?_
            obtain ⟨e', found', done, -⟩ := again
            obtain rfl := Option.some.inj (known.symm.trans found')
            rw [pending] at done
            cases done
    | sweep limit =>
      simp only [Node.perform, Prog.run_map, Node.sweepTimeouts, now_bind_run]
      cases fault : nextFault m.before with
      | some f =>
        rw [Prog.run_bind_error (readStore_run_error fault)]
        exact h
      | none =>
        rw [Prog.run_bind_ok (readStore_run_ok fault)]
        exact node.sweep_ledger 0 h (Node.awaiting_expired h.ordered _ _)
  · have quiet := (node.perform_quiet m.call learns).run (Quiet.refl JournalGrows.refl)
      (fun h k => h.trans .trans k) m.before
    rw [quiet.learned]
    exact h.grows quiet.store

theorem repeated_lesson (performed : m.Performed node)
    (h : Ledger m.before.store m.before.learned) (repeats : RepeatsLesson m) :
    ∃ id, 2 ≤ (lessons m.after.learned id).length := by
  obtain ⟨id, call, fault, again⟩ := repeats
  have after : m.after.learned = m.before.learned ++ [(some id, .transportFailure)] := by
    rw [moment_after performed, call]
    simp only [Node.perform, Prog.run_map, Node.failForward, now_bind_run]
    exact node.settle_again fault again
  obtain ⟨e, found, done, -⟩ := again
  refine ⟨id, ?_⟩
  rw [after, lessons_append, h.exact id]
  simp [recorded, found, done]

/-- In every run, each decision has taught at most once and under its recorded outcome, exactly
when no transport failure was recorded for a decision resolved at that very reading. -/
theorem decisions_teach_once_iff {ms : List (Moment F)} {s : NodeState F}
    (run : NodeRun node ms s) : TeachesOnce s ↔ ∀ m ∈ ms, ¬ RepeatsLesson m := by
  have main : ((∀ m ∈ ms, ¬ RepeatsLesson m) ∧ Ledger s.store s.learned) ∨
      ((∃ m ∈ ms, RepeatsLesson m) ∧ ∃ id, 2 ≤ (lessons s.learned id).length) := by
    induction run with
    | start => exact Or.inl ⟨fun m hm => (List.not_mem_nil hm).elim, Ledger.initial⟩
    | restart _ restarts ih =>
      obtain ⟨rng, clock, faults, rfl⟩ := restarts.built
      exact ih
    | @call ms s m _ resumes performed ih =>
      rcases ih with ⟨once, ledger⟩ | ⟨⟨m', hm', repeats⟩, id, twice⟩
      · have before : Ledger m.before.store m.before.learned := by
          rw [resumes.store, resumes.learned]
          exact ledger
        by_cases repeats : RepeatsLesson m
        · exact Or.inr ⟨⟨m, by simp, repeats⟩, repeated_lesson performed before repeats⟩
        · refine Or.inl ⟨fun m' hm' => ?_, step_preserves_ledger performed before repeats⟩
          rcases List.mem_append.mp hm' with hm' | hm'
          · exact once m' hm'
          · rw [List.mem_singleton.mp hm']
            exact repeats
      · refine Or.inr ⟨⟨m', List.mem_append_left _ hm', repeats⟩, id, twice.trans ?_⟩
        rw [← resumes.learned]
        exact lessons_prefix (moment_notes performed) id
  rcases main with ⟨once, ledger⟩ | ⟨⟨m, hm, repeats⟩, id, twice⟩
  · exact ⟨fun _ => once, fun _ => ledger.teachesOnce⟩
  · refine ⟨fun teaches => ?_, fun once => absurd repeats (once m hm)⟩
    have atMost := (teaches id).1
    omega

section TaughtTwice

def delivered : Moment ℚ :=
  edgeNode.momentAt (.applyReceipt (.delivered direct.id 0) neighbour)
    { planned.after with clock := 0, faults := [] }

/-- The transport reports a failure for the decision at the reading that resolved it. -/
def failureReported : Moment ℚ :=
  edgeNode.momentAt (.failForward ⟨1⟩) { delivered.after with clock := 0, faults := [] }

theorem taught_twice :
    NodeRun edgeNode [connected, planned, delivered, failureReported] failureReported.after :=
  (decided.next (.applyReceipt (.delivered direct.id 0) neighbour) 0 []).next
    (.failForward ⟨1⟩) 0 []

/-- The decision is recorded as delivered, and taught as delivered and as a transport failure. -/
theorem decision_taught_twice :
    lessons failureReported.after.learned ⟨1⟩ = [.delivered, .transportFailure] ∧
    recorded failureReported.after.store ⟨1⟩ = [.delivered] ∧
    ¬ ∀ (ms : List (Moment ℚ)) (s : NodeState ℚ), NodeRun edgeNode ms s → TeachesOnce s := by
  have both : lessons failureReported.after.learned ⟨1⟩ = [.delivered, .transportFailure] := by
    decide +kernel
  refine ⟨both, by decide +kernel, fun always => ?_⟩
  have atMost := (always _ _ taught_twice ⟨1⟩).1
  rw [both] at atMost
  simp at atMost

theorem taught_twice_iff :
    TeachesOnce failureReported.after ↔
      ∀ m ∈ [connected, planned, delivered, failureReported], ¬ RepeatsLesson m :=
  decisions_teach_once_iff taught_twice

end TaughtTwice

end OpenNtl
