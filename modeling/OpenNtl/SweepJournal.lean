import OpenNtl.SweepBackends

/-! # The journal under a sweep

In every store that can be reached the entries have identifiers of their own. Those that a sweep
times out are no longer expired after it, and the others are.
-/
namespace OpenNtl

open SqlTable
open JournalMirrors (resolvedIf resolvedIf_id resolvedIf_key resolvedIf_pending resolvedIf_other)

variable {F : Type}

def timedOutAt (nowNs : ℕ) (es : List (JournalEntry F)) (e : JournalEntry F) : JournalEntry F :=
  if e.id ∈ es.map JournalEntry.id then MemoryStore.resolved .timedOut nowNs e else e

@[simp] theorem timedOutAt_nil (nowNs : ℕ) (e : JournalEntry F) : timedOutAt nowNs [] e = e := by
  simp [timedOutAt]

theorem timedOutAt_cons {journal : List (JournalEntry F)} (numbered : Numbered journal) {nowNs : ℕ}
    {x : JournalEntry F} {rest : List (JournalEntry F)} (mem : x ∈ journal)
    (pending : x.outcome = .pending) {id : JournalId} (named : x.id = some id)
    (apart : x.id ∉ rest.map JournalEntry.id) {e : JournalEntry F} (he : e ∈ journal) :
    timedOutAt nowNs rest (resolvedIf id .timedOut nowNs e) = timedOutAt nowNs (x :: rest) e := by
  by_cases mine : e.id = x.id
  · obtain rfl := numbered.unique he mem mine
    have same : (MemoryStore.resolved .timedOut nowNs e).id = e.id := rfl
    rw [resolvedIf_pending named pending, timedOutAt, if_neg (by rwa [same]), timedOutAt,
      if_pos (by simp)]
  · rw [resolvedIf_other (named ▸ mine)]
    unfold timedOutAt
    simp [mine]

theorem expiredBy_timedOutAt (nowNs deadlineNs : ℕ) (es : List (JournalEntry F))
    (e : JournalEntry F) : expiredBy deadlineNs (timedOutAt nowNs es e) =
      (decide (e.id ∉ es.map JournalEntry.id) && expiredBy deadlineNs e) := by
  unfold timedOutAt
  by_cases mem : e.id ∈ es.map JournalEntry.id
  · simp [mem, expiredBy, MemoryStore.resolved, Outcome.isResolved]
  · simp [mem]

section Expired

variable {journal es rest : List (JournalEntry F)} {deadlineNs : ℕ}

theorem pending_of_expired (split : (es ++ rest).Perm (journal.filter (expiredBy deadlineNs)))
    {e : JournalEntry F} (he : e ∈ es) :
    e ∈ journal ∧ e.outcome = .pending ∧ e.decidedAtNs < deadlineNs := by
  have found := split.mem_iff.mp (List.mem_append_left rest he)
  obtain ⟨held, old⟩ := List.mem_filter.mp found
  obtain ⟨waits, early⟩ := Bool.and_eq_true_iff.mp old
  exact ⟨held, Outcome.isResolved_eq_false.mp (by simpa using waits), of_decide_eq_true early⟩

theorem expired_distinct (numbered : Numbered journal)
    (split : (es ++ rest).Perm (journal.filter (expiredBy deadlineNs))) :
    ((es ++ rest).map JournalEntry.id).Nodup := by
  rw [(split.map JournalEntry.id).nodup_iff]
  exact numbered.distinct.sublist (List.filter_sublist.map _)

theorem timedOutAt_early (numbered : Numbered journal) (nowNs : ℕ)
    (split : (es ++ rest).Perm (journal.filter (expiredBy deadlineNs)))
    {e : JournalEntry F} (he : e ∈ journal) (late : deadlineNs ≤ e.decidedAtNs) :
    timedOutAt nowNs es e = e := by
  unfold timedOutAt
  rw [if_neg]
  intro listed
  obtain ⟨x, hx, same⟩ := List.mem_map.mp listed
  obtain ⟨held, -, early⟩ := pending_of_expired split hx
  rw [numbered.unique held he same] at early
  omega

theorem expired_timedOutAt (numbered : Numbered journal) (nowNs : ℕ)
    (split : (es ++ rest).Perm (journal.filter (expiredBy deadlineNs))) :
    ((journal.map (timedOutAt nowNs es)).filter (expiredBy deadlineNs)).length = rest.length := by
  have distinct := expired_distinct numbered split
  rw [List.map_append, List.nodup_append] at distinct
  have gone : es.filter (fun e => decide (e.id ∉ es.map JournalEntry.id)) = [] := by
    rw [List.filter_eq_nil_iff]
    intro e he
    simpa using ⟨e, he, rfl⟩
  have stays : rest.filter (fun e => decide (e.id ∉ es.map JournalEntry.id)) = rest := by
    rw [List.filter_eq_self]
    intro e he
    rw [decide_eq_true_eq]
    intro here
    exact distinct.2.2 _ here _ (List.mem_map_of_mem he) rfl
  calc ((journal.map (timedOutAt nowNs es)).filter (expiredBy deadlineNs)).length
    _ = (journal.filter fun e =>
          decide (e.id ∉ es.map JournalEntry.id) && expiredBy deadlineNs e).length := by
        rw [List.filter_map, List.length_map]
        exact congrArg List.length
          (List.filter_congr fun e _ => expiredBy_timedOutAt nowNs deadlineNs es e)
    _ = ((journal.filter (expiredBy deadlineNs)).filter fun e =>
          decide (e.id ∉ es.map JournalEntry.id)).length := by
        rw [List.filter_filter]
    _ = ((es ++ rest).filter fun e => decide (e.id ∉ es.map JournalEntry.id)).length :=
        (split.symm.filter _).length_eq
    _ = rest.length := by rw [List.filter_append, gone, stays, List.nil_append]

end Expired

section Memory

variable {st : MemoryStore F}

/-- Entries under identifiers of their own, none of which is still to be given out. -/
structure JournalNumbered (st : MemoryStore F) : Prop where
  numbered : Numbered st.journal
  given : ∀ e ∈ st.journal, ∀ id ∈ e.id, id.id ≤ st.nextJournalId

theorem Numbered.sublist {es es' : List (JournalEntry F)} (h : Numbered es) (sub : es'.Sublist es) :
    Numbered es' :=
  ⟨fun e he => h.named e (sub.subset he), h.distinct.sublist (sub.map _)⟩

theorem Numbered.map {es : List (JournalEntry F)} (h : Numbered es)
    {f : JournalEntry F → JournalEntry F} (same : ∀ e, (f e).id = e.id) : Numbered (es.map f) := by
  constructor
  · intro e he
    obtain ⟨x, hx, rfl⟩ := List.mem_map.mp he
    rw [same]
    exact h.named x hx
  · have ids : (es.map f).map JournalEntry.id = es.map JournalEntry.id := by
      rw [List.map_map]
      exact List.map_congr_left fun e _ => same e
    rw [ids]
    exact h.distinct

theorem JournalNumbered.call (h : JournalNumbered st) (c : JournalCall F) :
    JournalNumbered (st.journalCall c).2 := by
  cases c with
  | appendDecision entry =>
    let appended : JournalEntry F := { entry with id := some ⟨st.nextJournalId + 1⟩ }
    have fresh : appended.id ∉ st.journal.map JournalEntry.id := by
      intro here
      obtain ⟨e, he, same⟩ := List.mem_map.mp here
      have bound := h.given e he ⟨st.nextJournalId + 1⟩ same
      simp only at bound
      omega
    refine ⟨⟨?_, ?_⟩, ?_⟩
    · intro e he
      rcases List.mem_append.mp he with old | new
      · exact h.numbered.named e old
      · rw [List.mem_singleton.mp new]
        exact ⟨_, rfl⟩
    · show ((st.journal ++ [appended]).map JournalEntry.id).Nodup
      rw [List.map_append, List.map_singleton, ← List.concat_eq_append]
      exact h.numbered.distinct.concat fresh
    · intro e he id named
      show id.id ≤ st.nextJournalId + 1
      rcases List.mem_append.mp he with old | new
      · have bound := h.given e old id named
        omega
      · rw [List.mem_singleton.mp new] at named
        obtain rfl := Option.some.inj named
        exact le_rfl
  | resolveDecision id outcome nowNs =>
    obtain ⟨journal, -⟩ := h.numbered.resolveDecision id outcome nowNs
    refine ⟨?_, ?_⟩
    · show Numbered (st.resolveDecision id outcome nowNs).2.journal
      rw [journal]
      exact h.numbered.map (resolvedIf_id id outcome nowNs)
    · show ∀ e ∈ (st.resolveDecision id outcome nowNs).2.journal, ∀ i ∈ e.id,
        i.id ≤ (st.resolveDecision id outcome nowNs).2.nextJournalId
      rw [journal, st.resolveDecision_nextJournalId]
      intro e he i named
      obtain ⟨x, hx, rfl⟩ := List.mem_map.mp he
      rw [resolvedIf_id] at named
      exact h.given x hx i named
  | pendingDecisionFor signal peer => exact h
  | expiredDecisions deadlineNs limit => exact h
  | recentDecisions signalType limit => exact h
  | trimJournal olderThanNs =>
    have sub : (st.trimJournal olderThanNs).2.journal.Sublist st.journal := List.filter_sublist
    exact ⟨h.numbered.sublist sub, fun e he => h.given e (sub.subset he)⟩

theorem MemoryStore.Reached.numbered (h : st.Reached) : JournalNumbered st := by
  induction h with
  | start empty =>
    refine ⟨⟨?_, ?_⟩, ?_⟩
    · simp [empty]
    · simp [empty]
    · simp [empty]
  | call c _ ih => exact ih.call c
  | other journal next _ ih =>
    refine ⟨?_, ?_⟩
    · rw [journal]
      exact ih.numbered
    · rw [journal, next]
      exact ih.given

end Memory

section Sqlite

variable {q q' : SqliteStore F} {es : List (JournalEntry F)}

def asStored (key : ℕ) (entry : JournalEntry F) : JournalEntry F :=
  { entry with
    id := some ⟨key⟩
    decidedAtNs := min entry.decidedAtNs i64Max
    resolvedAtNs := entry.resolvedAtNs.map fun t => min t i64Max }

theorem toI64_min (v : ℕ) : toI64 (min v i64Max) = toI64 v := by
  unfold toI64
  rw [Nat.min_assoc, Nat.min_self]

theorem rowOf_asStored (key : ℕ) (entry : JournalEntry F) :
    rowOf (asStored key entry) = journalRow key entry := by
  have resolved : (entry.resolvedAtNs.map fun t => min t i64Max).map toI64 =
      entry.resolvedAtNs.map toI64 := by
    rw [Option.map_map]
    exact congrArg (fun f => entry.resolvedAtNs.map f) (funext toI64_min)
  unfold rowOf asStored journalRow keyOf
  simp only [Option.map_some, Option.getD_some, toI64_min, resolved]

theorem JournalReads.appendDecision [Scalar F] (h : JournalReads q es) (entry : JournalEntry F) :
    ∃ es', JournalReads (q.appendDecision entry).2 es' := by
  unfold SqliteStore.appendDecision
  by_cases free : q.sequence < i64Max
  · rw [if_pos free]
    cases firstNull (journalNumbers entry) with
    | some e => exact ⟨es, h⟩
    | none =>
    refine ⟨es ++ [asStored (q.sequence + 1) entry], ?_, ?_, ?_, free, ?_, ?_⟩
    · rw [List.map_append, List.map_singleton, rowOf_asStored, h.rows]
    · intro e he
      rcases List.mem_append.mp he with old | new
      · obtain ⟨named, bound⟩ := h.keyed e old
        exact ⟨named, Nat.le_succ_of_le bound⟩
      · rw [List.mem_singleton.mp new]
        exact ⟨rfl, le_rfl⟩
    · rw [List.map_append, List.map_singleton, ← List.concat_eq_append]
      refine h.distinct.concat fun here => ?_
      obtain ⟨e, he, same⟩ := List.mem_map.mp here
      have bound := (h.keyed e he).2
      change keyOf e = q.sequence + 1 at same
      omega
    · rw [List.length_append, List.length_singleton]
      exact Nat.succ_le_succ h.size
    · intro e he
      rcases List.mem_append.mp he with old | new
      · exact h.dated e old
      · rw [List.mem_singleton.mp new]
        refine ⟨Nat.min_le_right _ _, ?_⟩
        intro t ht
        obtain ⟨t', -, rfl⟩ := Option.map_eq_some_iff.mp ht
        exact Nat.min_le_right _ _
  · rw [if_neg free]
    exact ⟨es, h⟩

theorem JournalReads.update (h : JournalReads q es) (wanted : JournalRow F → Bool)
    (outcome : Outcome) (nowNs : ℕ) :
    JournalReads { q with journal := updateWhere q.journal wanted fun r =>
        { r with outcome := outcomeToStr outcome, resolvedAtNs := some (toI64 nowNs) } }
      (es.map fun e => if wanted (rowOf e) then
        MemoryStore.resolved outcome (min nowNs i64Max) e else e) := by
  have key : ∀ e : JournalEntry F, keyOf (if wanted (rowOf e) then
      MemoryStore.resolved outcome (min nowNs i64Max) e else e) = keyOf e := by
    intro e
    split
    · rfl
    · rfl
  refine ⟨?_, ?_, ?_, h.within, ?_, ?_⟩
  · show updateWhere q.journal _ _ = _
    unfold updateWhere
    rw [h.rows, List.map_map, List.map_map]
    refine List.map_congr_left fun e _ => ?_
    simp only [Function.comp_apply]
    split
    · rw [← toI64_min nowNs]
      rfl
    · rfl
  · intro e he
    obtain ⟨x, hx, rfl⟩ := List.mem_map.mp he
    rw [key]
    obtain ⟨named, bound⟩ := h.keyed x hx
    refine ⟨?_, bound⟩
    split
    · exact named
    · exact named
  · rw [List.map_map]
    have same : es.map (keyOf ∘ fun e => if wanted (rowOf e) then
        MemoryStore.resolved outcome (min nowNs i64Max) e else e) = es.map keyOf :=
      List.map_congr_left fun e _ => key e
    rw [same]
    exact h.distinct
  · rw [List.length_map]
    exact h.size
  · intro e he
    obtain ⟨x, hx, rfl⟩ := List.mem_map.mp he
    split
    · refine ⟨(h.dated x hx).1, ?_⟩
      intro t ht
      obtain rfl := Option.some.inj ht
      exact Nat.min_le_right _ _
    · exact h.dated x hx

theorem JournalReads.step [Scalar F] (h : JournalReads q es) {c : JournalCall F}
    {r : Except StoreError (JournalReply F)} (step : q.JournalStep c r q') :
    ∃ es', JournalReads q' es' := by
  cases step with
  | appendDecision entry => exact h.appendDecision entry
  | resolveDecision id outcome nowNs => exact ⟨_, h.update _ outcome nowNs⟩
  | pendingDecisionFor allowed => exact ⟨es, h⟩
  | expiredDecisions allowed => exact ⟨es, h⟩
  | recentDecisions allowed => exact ⟨es, h⟩
  | trimJournal olderThanNs =>
    let kept (r : JournalRow F) : Bool := !decide (r.decidedAtNs < toI64 olderThanNs)
    have sub : (es.filter fun e => kept (rowOf e)).Sublist es := List.filter_sublist
    exact ⟨es.filter fun e => kept (rowOf e), h.filter_rows fun _ _ => rfl,
      fun e he => h.keyed e (sub.subset he), h.distinct.sublist (sub.map _), h.within,
      sub.length_le.trans h.size, fun e he => h.dated e (sub.subset he)⟩

theorem JournalReads.entries (h : JournalReads q es) : q.entries = es := by
  unfold SqliteStore.entries
  rw [h.rows, List.filterMap_map]
  have read : ∀ e ∈ es, ((fun row => (rowToJournal row).toOption) ∘ rowOf) e = some e := by
    intro e he
    simp only [Function.comp_apply, h.decode he]
    rfl
  rw [List.filterMap_congr read, List.filterMap_some]

/-- A query sorts the expired entries, one way or another, and cuts them off at the limit. -/
theorem JournalReads.expiredDecisions (h : JournalReads q es) {deadlineNs : ℕ}
    (fits : deadlineNs ≤ i64Max) {limit : ℕ} {answer : Except StoreError (List (JournalEntry F))}
    (allowed : q.ExpiredDecisions deadlineNs limit answer) :
    ∃ sorted : List (JournalEntry F), sorted.Perm (es.filter (expiredBy deadlineNs)) ∧
      answer = .ok (sorted.take limit) := by
  obtain ⟨rows, ⟨sortedRows, perm, -, rfl⟩, rfl⟩ := allowed
  have matched : q.journal.filter (fun r => decide (r.outcome = "pending") &&
      decide (r.decidedAtNs < toI64 deadlineNs)) = (es.filter (expiredBy deadlineNs)).map rowOf := by
    refine h.filter_rows fun e he => ?_
    have stored : (rowOf e).decidedAtNs = toI64 e.decidedAtNs := rfl
    rw [pending_text, stored]
    exact congrArg _ (decide_eq_decide.mpr (stored_lt (h.dated e he).1 (.inl fits)))
  rw [matched] at perm
  have lifted : Relation.Comp (· = List.map rowOf ·) List.Perm sortedRows
      (es.filter (expiredBy deadlineNs)) := by
    rw [List.eq_map_comp_perm]
    exact perm
  obtain ⟨sorted, rfl, perm'⟩ := lifted
  have short : sorted.length ≤ i64Max := by
    have length := perm'.length_eq
    have filtered := List.length_filter_le (expiredBy deadlineNs) es
    have size := h.size
    have within := h.within
    omega
  have limited : sorted.take (toI64 limit).toNat = sorted.take limit := by
    have bound : (toI64 limit).toNat = min limit i64Max := rfl
    rw [bound, ← List.take_take, List.take_of_length_le (i := i64Max) short]
  refine ⟨sorted, perm', ?_⟩
  rw [← List.map_take, limited]
  exact h.decodeAll fun e he =>
    List.mem_of_mem_filter (perm'.mem_iff.mp (List.mem_of_mem_take he))

theorem expiredDecisions_answer (q : SqliteStore F) (deadlineNs limit : ℕ) :
    ∃ answer, q.ExpiredDecisions deadlineNs limit answer := by
  let byDate (a b : JournalRow F) : Ordering := compare a.decidedAtNs b.decidedAtNs
  let wanted (r : JournalRow F) : Bool :=
    decide (r.outcome = "pending") && decide (r.decidedAtNs < toI64 deadlineNs)
  have lawful : Std.TransCmp byDate :=
    transCmp_on (inferInstance : Std.TransCmp fun a b : ℤ => compare a b) JournalRow.decidedAtNs
  refine ⟨_, _, ⟨sortBy byDate (q.journal.filter wanted), sortBy_perm _ _, ?_, rfl⟩, rfl⟩
  refine (sortBy_sorted lawful (q.journal.filter wanted)).imp fun ordered later => ?_
  exact ordered (compare_gt_iff_gt.mpr later)

/-- A pending entry of the journal is resolved under its identifier, and no other entry is. -/
theorem JournalReads.resolveDecision (h : JournalReads q es) {e : JournalEntry F} (he : e ∈ es)
    {id : JournalId} (named : e.id = some id) (pending : e.outcome = .pending) {outcome : Outcome}
    {nowNs : ℕ} (fits : nowNs ≤ i64Max) :
    (q.resolveDecision id outcome nowNs).1 = .ok (some (MemoryStore.resolved outcome nowNs e)) ∧
      JournalReads (q.resolveDecision id outcome nowNs).2
        (es.map (resolvedIf id outcome nowNs)) := by
  have key : ∀ x ∈ es, decide ((rowOf x).id = toI64 id.id) = MemoryStore.hasId id x := by
    intro x hx
    have stored : (rowOf x).id = (keyOf x : ℤ) := rfl
    have mine : id.id = keyOf e := by
      unfold keyOf
      rw [named]
      rfl
    have held : id.id ≤ i64Max := by
      rw [mine]
      exact (h.keyed e he).2.trans h.within
    rw [stored, toI64_of_le held, MemoryStore.hasId, (h.keyed x hx).1]
    refine decide_eq_decide.mpr (Int.ofNat_inj.trans ?_)
    cases id
    simp
  have updated : JournalReads (q.resolveDecision id outcome nowNs).2
      (es.map (resolvedIf id outcome nowNs)) := by
    have reads := h.update (fun r => decide (r.id = toI64 id.id) && decide (r.outcome = "pending"))
      outcome nowNs
    rw [Nat.min_eq_left fits] at reads
    have same : es.map (resolvedIf id outcome nowNs) = es.map fun x =>
        if (decide ((rowOf x).id = toI64 id.id) && decide ((rowOf x).outcome = "pending")) = true
          then MemoryStore.resolved outcome nowNs x else x := by
      refine List.map_congr_left fun x hx => ?_
      rw [key x hx, pending_text]
      rfl
    rw [same]
    exact reads
  refine ⟨?_, updated⟩
  have resolves := resolvedIf_pending named pending outcome nowNs
  have found : es.find? (fun x => decide ((rowOf (resolvedIf id outcome nowNs x)).id = toI64 id.id)) =
      some e := by
    rw [← h.numbered.find he named]
    refine List.find?_congr fun x hx => ?_
    rw [resolvedIf_key]
    exact key x hx
  have here : MemoryStore.resolved outcome nowNs e ∈ es.map (resolvedIf id outcome nowNs) :=
    List.mem_map.mpr ⟨e, he, resolves⟩
  show ((q.resolveDecision id outcome nowNs).2.journal.find? fun r =>
    decide (r.id = toI64 id.id)).mapM rowToJournal = _
  rw [updated.rows, List.map_map, List.find?_map]
  simp only [Function.comp_def, found, Option.map_some, Option.mapM_some, resolves]
  rw [updated.decode here]
  rfl

end Sqlite

end OpenNtl
