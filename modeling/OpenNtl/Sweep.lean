import OpenNtl.SweepJournal

/-! # A sweep times out what is expired, up to its limit

Whatever the store is, each decision found is resolved and weighed in once, and nothing that this
does to the synapses reaches the journal.
-/
namespace OpenNtl

open AtomicProgram SqlTable
open JournalMirrors (resolvedIf resolvedIf_id resolvedIf_pending)

variable {σ F : Type}

namespace SweepBackend

variable (B : SweepBackend σ F)

/-- Neither the journal nor the history nor the clock has changed. -/
structure Frame (s s' : σ) : Prop where
  journal : B.journal s' = B.journal s
  learned : B.learned s' = B.learned s
  clock : (B.now s').1 = (B.now s).1

variable (up : σ → Prop) (owns : σ → SynapseId → NodeId → Prop)

/-- A step outside of the journal, after which the store is still in order. -/
structure Goes (s s' : σ) : Prop where
  up : up s'
  frame : B.Frame s s'
  owns : ∀ id peer, owns s id peer → owns s' id peer

/-- A store in order, which takes readings up to the latest. It takes every record back that it gave
out, and a query may sort what is expired in any way. -/
structure Lawful (latest : ℕ) : Prop where
  now : ∀ s, up s → (B.now s).2 = s
  used : ∀ peer start s, up s → ∃ used, B.influenceSince peer start s = (.ok used, s)
  get : ∀ id s, up s → ∃ found, B.getSynapse id s = (.ok found, s) ∧
    ∀ r ∈ found, owns s r.id r.peer
  list : ∀ s, up s → ∃ rs, B.listSynapses s = (.ok rs, s) ∧ ∀ r ∈ rs, owns s r.id r.peer
  charge : ∀ peer magnitude nowNs start s, up s → ∃ used s',
    B.recordInfluence peer magnitude nowNs start s = (.ok used, s') ∧ B.Goes up owns s s'
  put : ∀ r s, up s → owns s r.id r.peer → ∃ s', B.putSynapse r s = (.ok (), s') ∧
    B.Goes up owns s s'
  numbered : ∀ s, up s → Numbered (B.journal s)
  resolve : ∀ s e id nowNs, up s → e ∈ B.journal s → e.id = some id → e.outcome = .pending →
    nowNs ≤ latest → ∃ s', B.resolveDecision id .timedOut nowNs s =
      (.ok (some (MemoryStore.resolved .timedOut nowNs e)), s') ∧ up s' ∧
      B.journal s' = (B.journal s).map (resolvedIf id .timedOut nowNs) ∧
      B.learned s' = B.learned s ∧ (B.now s').1 = (B.now s).1
  note : ∀ lesson s, up s → up (B.note lesson s) ∧ B.journal (B.note lesson s) = B.journal s ∧
    B.learned (B.note lesson s) = B.learned s ++ [lesson] ∧
    (B.now (B.note lesson s)).1 = (B.now s).1
  answers : ∀ deadlineNs limit s, up s → ∃ r, B.ExpiredDecisions deadlineNs limit s r
  expired : ∀ deadlineNs limit s r, up s → deadlineNs ≤ latest →
    B.ExpiredDecisions deadlineNs limit s r → ∃ sorted : List (JournalEntry F),
      sorted.Perm ((B.journal s).filter (expiredBy deadlineNs)) ∧
      r = (.ok (sorted.take limit), s)

variable {B up owns} {s s' s'' : σ}

theorem Goes.refl (hs : up s) : B.Goes up owns s s :=
  ⟨hs, ⟨rfl, rfl, rfl⟩, fun _ _ held => held⟩

theorem Goes.trans (h : B.Goes up owns s s') (k : B.Goes up owns s' s'') :
    B.Goes up owns s s'' where
  up := k.up
  frame := ⟨k.frame.journal.trans h.frame.journal, k.frame.learned.trans h.frame.learned,
    k.frame.clock.trans h.frame.clock⟩
  owns id peer held := k.owns id peer (h.owns id peer held)

end SweepBackend

theorem storeCall_run {α : Type} {f : σ → Except StoreError α × σ} {s s' : σ} {a : α}
    (call : f s = (.ok a, s')) : (storeCall f).run s = (.ok a, s') := by
  unfold storeCall
  rw [Prog.run_bind, Prog.run_act, call]
  rfl

section Update

variable [Scalar F] (node : Node F) {B : SweepBackend σ F} {up : σ → Prop}
  {owns : σ → SynapseId → NodeId → Prop} {latest : ℕ} {s : σ}

omit [Scalar F] in
theorem writes_go (lawful : B.Lawful up owns latest) (l : List (SynapseRecord F × F)) (hs : up s)
    (held : ∀ e ∈ l, owns s e.1.id e.1.peer) :
    ∃ s', ((l.forM fun (r, w) => storeCall (B.putSynapse { r with weight := w })) :
      Prog σ NodeError PUnit).run s = (.ok (), s') ∧ B.Goes up owns s s' := by
  induction l generalizing s with
  | nil => exact ⟨s, rfl, .refl hs⟩
  | cons e l ih =>
    obtain ⟨s₁, put, first⟩ := lawful.put { e.1 with weight := e.2 } s hs
      (held e List.mem_cons_self)
    obtain ⟨s₂, run, rest⟩ := ih first.up fun x hx =>
      first.owns _ _ (held x (List.mem_cons_of_mem e hx))
    refine ⟨s₂, ?_, first.trans rest⟩
    exact (Prog.run_bind_ok (storeCall_run put)).trans run

theorem normalize_goes (lawful : B.Lawful up owns latest) (hs : up s) :
    ∃ factor s', (node.normalizeOutboundWeightsOn B.toSynapseBackend).run s = (.ok factor, s') ∧
      B.Goes up owns s s' := by
  obtain ⟨rs, listed, held⟩ := lawful.list s hs
  unfold Node.normalizeOutboundWeightsOn
  rw [Prog.run_bind_ok (storeCall_run listed)]
  split
  · exact ⟨none, s, rfl, .refl hs⟩
  · split
    · exact ⟨none, s, rfl, .refl hs⟩
    · rename_i factor weights _
      obtain ⟨s', run, goes⟩ := writes_go lawful (rs.zip weights) hs fun e he =>
        held e.1 (List.of_mem_zip he).1
      refine ⟨some factor, s', ?_, goes⟩
      rw [Prog.run_bind_ok run]
      rfl

theorem update_goes (lawful : B.Lawful up owns latest) (hs : up s) (entry : JournalEntry F)
    (outcome : Outcome) (nowNs : ℕ) :
    ∃ update s', (node.updateSynapseOn B.toSynapseBackend entry outcome nowNs).run s =
        (.ok update, s') ∧ B.Goes up owns s s' ∧
      ((B.getSynapse entry.synapse s).1 = .ok none → s' = s) := by
  obtain ⟨used, usedBy⟩ :=
    lawful.used entry.peer (node.config.learning.influenceWindowStart nowNs) s hs
  obtain ⟨found, got, held⟩ := lawful.get entry.synapse s hs
  unfold Node.updateSynapseOn
  dsimp only
  rw [Prog.run_bind_ok (storeCall_run usedBy), Prog.run_bind_ok (storeCall_run got), got]
  cases found with
  | none => exact ⟨_, s, rfl, .refl hs, fun _ => rfl⟩
  | some r =>
    have finish : ∀ (u : WeightUpdate F) t, B.Goes up owns s t → ∃ s', (do
        storeCall (B.putSynapse (node.reweighed entry outcome nowNs used r))
        let _ ← node.normalizeOutboundWeightsOn B.toSynapseBackend
        return u : Prog σ NodeError (WeightUpdate F)).run t = (.ok u, s') ∧
          B.Goes up owns s s' := by
      intro u t goes
      have peer : (node.reweighed entry outcome nowNs used r).peer = r.peer :=
        Synapse.updateState_remoteNode _
      obtain ⟨t₁, put, first⟩ := lawful.put (node.reweighed entry outcome nowNs used r) t goes.up
        (by
          rw [node.reweighed_id, peer]
          exact goes.owns _ _ (held r rfl))
      obtain ⟨factor, t₂, run, rest⟩ := normalize_goes node lawful first.up
      refine ⟨t₂, ?_, (goes.trans first).trans rest⟩
      rw [Prog.run_bind_ok (storeCall_run put), Prog.run_bind_ok run]
      rfl
    let update := ((Synapse.fromRecord r node.config.synapse).applyOutcome outcome
      (Scalar.clamp entry.signalWeight 0 1) (signalTypeNameOf entry.signalType) used
      node.config.learning).1
    have missing : ∀ s' : σ, (Except.ok (some r) : Except StoreError (Option (SynapseRecord F))) =
        .ok none → s' = s := fun _ absurd => nomatch absurd
    by_cases charged : Node.Charged update
    · obtain ⟨total, t, recorded, first⟩ := lawful.charge entry.peer update.appliedDelta nowNs
        (node.config.learning.influenceWindowStart nowNs) s hs
      obtain ⟨s', run, goes⟩ := finish update t first
      refine ⟨update, s', ?_, goes, missing s'⟩
      dsimp only
      rw [if_pos charged]
      exact (Prog.run_bind_ok (storeCall_run recorded)).trans run
    · obtain ⟨s', run, goes⟩ := finish update s (.refl hs)
      refine ⟨update, s', ?_, goes, missing s'⟩
      dsimp only
      rw [if_neg charged]
      exact run

variable (B)

/-- A decision is resolved as timed out, and its call noted. Then its synapse is weighed once, if
the store still has it, and otherwise nothing is done. -/
inductive Node.TimesOutOne (nowNs : ℕ) (s : σ) (e : JournalEntry F) : σ → Prop
  | gone {id : JournalId} {s₁ : σ} (named : e.id = some id)
      (resolves : B.resolveDecision id .timedOut nowNs s =
        (.ok (some (MemoryStore.resolved .timedOut nowNs e)), s₁))
      (missing : (B.getSynapse e.synapse (B.note (e.id, .timedOut) s₁)).1 = .ok none) :
      TimesOutOne nowNs s e (B.note (e.id, .timedOut) s₁)
  | weighed {id : JournalId} {s₁ s₂ : σ} {record : SynapseRecord F} {update : WeightUpdate F}
      (named : e.id = some id)
      (resolves : B.resolveDecision id .timedOut nowNs s =
        (.ok (some (MemoryStore.resolved .timedOut nowNs e)), s₁))
      (found : (B.getSynapse e.synapse (B.note (e.id, .timedOut) s₁)).1 = .ok (some record))
      (updates : (node.updateSynapseOn B.toSynapseBackend (MemoryStore.resolved .timedOut nowNs e)
        .timedOut nowNs).run (B.note (e.id, .timedOut) s₁) = (.ok update, s₂)) :
      TimesOutOne nowNs s e s₂

inductive Node.TimesOut (nowNs : ℕ) : σ → List (JournalEntry F) → σ → Prop
  | done (s : σ) : TimesOut nowNs s [] s
  | next {s s' s'' : σ} {e : JournalEntry F} {rest : List (JournalEntry F)}
      (first : node.TimesOutOne B nowNs s e s') (onward : TimesOut nowNs s' rest s'') :
      TimesOut nowNs s (e :: rest) s''

/-- What the journal and the history are after these decisions timed out. -/
structure SweepBackend.TimedOut (up : σ → Prop) (nowNs : ℕ) (s : σ) (es : List (JournalEntry F))
    (s' : σ) : Prop where
  up : up s'
  journal : B.journal s' = (B.journal s).map (timedOutAt nowNs es)
  learned : B.learned s' = B.learned s ++ es.map fun e => (e.id, .timedOut)
  clock : (B.now s').1 = (B.now s).1

variable {B}

theorem sweepOne_goes (lawful : B.Lawful up owns latest) (hs : up s) {nowNs : ℕ} (inRange : nowNs ≤ latest)
    {e : JournalEntry F} (he : e ∈ B.journal s) (pending : e.outcome = .pending) :
    ∃ s', (node.sweepOneOn B nowNs e).run s = (.ok 1, s') ∧ B.TimedOut up nowNs s [e] s' ∧
      node.TimesOutOne B nowNs s e s' := by
  have numbered := lawful.numbered s hs
  obtain ⟨id, named⟩ := numbered.named e he
  obtain ⟨s₁, resolves, hs₁, journal, learned, clock⟩ :=
    lawful.resolve s e id nowNs hs he named pending inRange
  obtain ⟨hs₂, journal', learned', clock'⟩ := lawful.note (e.id, .timedOut) s₁ hs₁
  obtain ⟨update, s', run, goes, gone⟩ := update_goes node lawful hs₂
    (MemoryStore.resolved .timedOut nowNs e) .timedOut nowNs
  have swept : (node.sweepOneOn B nowNs e).run s = (.ok 1, s') := by
    have noted : (node.applyOutcomeOn B (MemoryStore.resolved .timedOut nowNs e) .timedOut
        nowNs).run s₁ = (.ok update, s') := run
    have learns : (node.learnIfResolvedNowOn B (some (MemoryStore.resolved .timedOut nowNs e))
        .timedOut nowNs).run s₁ = (.ok (some update), s') := by
      have mine : (MemoryStore.resolved .timedOut nowNs e).resolvedAtNs = some nowNs := rfl
      simp only [Node.learnIfResolvedNowOn, if_pos mine, Prog.run_map, noted, Except.map]
    have settles : (node.settleOn B id .timedOut nowNs).run s = (.ok (some update), s') := by
      unfold Node.settleOn
      rw [Prog.run_bind_ok (storeCall_run resolves), learns]
    unfold Node.sweepOneOn
    rw [named]
    dsimp only
    rw [Prog.run_bind_ok settles]
    rfl
  refine ⟨s', swept, ⟨goes.up, ?_, ?_, goes.frame.clock.trans (clock'.trans clock)⟩, ?_⟩
  · rw [goes.frame.journal, journal', journal]
    refine List.map_congr_left fun x hx => ?_
    rw [← timedOutAt_cons numbered he pending named (by simp) hx, timedOutAt_nil]
  · rw [goes.frame.learned, learned', learned]
    rfl
  · obtain ⟨found, got, -⟩ := lawful.get e.synapse _ hs₂
    cases found with
    | none =>
      have missing := congrArg Prod.fst got
      obtain rfl := gone missing
      exact .gone named resolves missing
    | some record => exact .weighed named resolves (congrArg Prod.fst got) run

theorem sweepAll_goes (lawful : B.Lawful up owns latest) {nowNs : ℕ} (inRange : nowNs ≤ latest)
    {es : List (JournalEntry F)} (hs : up s)
    (pending : ∀ e ∈ es, e ∈ B.journal s ∧ e.outcome = .pending)
    (distinct : (es.map JournalEntry.id).Nodup) (n : ℕ) :
    ∃ s', ((es.foldlM (fun resolved e => (resolved + ·) <$> node.sweepOneOn B nowNs e) n :
        Prog σ NodeError ℕ)).run s = (.ok (n + es.length), s') ∧ B.TimedOut up nowNs s es s' ∧
      node.TimesOut B nowNs s es s' := by
  induction es generalizing s n with
  | nil =>
    refine ⟨s, rfl, ⟨hs, ?_, by simp, rfl⟩, .done s⟩
    simp only [funext (timedOutAt_nil nowNs), List.map_id_fun', id_eq]
  | cons e rest ih =>
    obtain ⟨here, open'⟩ := pending e List.mem_cons_self
    obtain ⟨apart, distinct⟩ := List.nodup_cons.mp distinct
    obtain ⟨s₁, first, timedOut, step⟩ := sweepOne_goes node lawful hs inRange here open'
    have onward : ∀ x ∈ rest, x ∈ B.journal s₁ ∧ x.outcome = .pending := by
      intro x hx
      obtain ⟨held, waits⟩ := pending x (List.mem_cons_of_mem e hx)
      refine ⟨?_, waits⟩
      rw [timedOut.journal]
      refine List.mem_map.mpr ⟨x, held, ?_⟩
      have other : x.id ≠ e.id := fun same => apart (same ▸ List.mem_map_of_mem hx)
      simp [timedOutAt, other]
    obtain ⟨s', run, all, steps⟩ := ih timedOut.up onward distinct (n + 1)
    refine ⟨s', ?_, ⟨all.up, ?_, ?_, all.clock.trans timedOut.clock⟩, .next step steps⟩
    · rw [List.foldlM_cons, Prog.run_bind, Prog.run_map, first]
      simp only [Except.map]
      rw [run, List.length_cons, Nat.add_assoc, Nat.add_comm 1]
    · obtain ⟨id, named⟩ := (lawful.numbered s hs).named e here
      rw [all.journal, timedOut.journal, List.map_map]
      refine List.map_congr_left fun x hx => ?_
      have numbered := lawful.numbered s hs
      rw [← timedOutAt_cons numbered here open' named apart hx, Function.comp_apply,
        ← timedOutAt_cons numbered here open' named (by simp) hx, timedOutAt_nil]
    · rw [all.learned, timedOut.learned, List.map_cons, List.append_assoc]
      rfl

variable (B)

def Node.deadlineAt (s : σ) : ℕ := node.config.learning.receiptDeadline (B.now s).1

def Node.expiredAt (s : σ) : List (JournalEntry F) :=
  (B.journal s).filter (expiredBy (node.deadlineAt B s))

/-- What a sweep did, which timed out these decisions. -/
structure Node.Swept (limit : ℕ) (s : σ) (es : List (JournalEntry F))
    (r : Except NodeError ℕ × σ) : Prop where
  returned : r.1 = .ok es.length
  asked : B.ExpiredDecisions (node.deadlineAt B s) limit s (.ok es, s)
  count : es.length = min limit (node.expiredAt B s).length
  distinct : (es.map JournalEntry.id).Nodup
  expired : ∀ e ∈ es, e ∈ B.journal s ∧ e.outcome = .pending ∧
    e.decidedAtNs < node.deadlineAt B s
  steps : node.TimesOut B (B.now s).1 s es r.2
  journal : B.journal r.2 = (B.journal s).map (timedOutAt (B.now s).1 es)
  untouched : ∀ e ∈ B.journal s, node.deadlineAt B s ≤ e.decidedAtNs →
    timedOutAt (B.now s).1 es e = e
  learned : B.learned r.2 = B.learned s ++ es.map fun e => (e.id, .timedOut)
  clock : (B.now r.2).1 = (B.now s).1
  left : (node.expiredAt B r.2).length = (node.expiredAt B s).length - limit

/-- So many sweeps that returned, one right after the other. -/
inductive Node.SweepsInRow (limit : ℕ) : ℕ → σ → σ → Prop
  | none (s : σ) : SweepsInRow limit 0 s s
  | next {k n : ℕ} {s s' s'' : σ} (before : SweepsInRow limit k s s')
      (sweeps : node.SweepsTimeouts B limit s' (.ok n, s'')) : SweepsInRow limit (k + 1) s s''

/-- A sweep returns and is exact, and as many sweeps as there are expired decisions leave none. -/
structure Node.SweepsExactly (limit : ℕ) (s : σ) : Prop where
  returns : ∃ r, node.SweepsTimeouts B limit s r
  exact : ∀ r, node.SweepsTimeouts B limit s r → ∃ es, node.Swept B limit s es r
  repeats : ∀ k, ∃ s', node.SweepsInRow B limit k s s'
  finishes : 1 ≤ limit → ∀ k s', (node.expiredAt B s).length ≤ k →
    node.SweepsInRow B limit k s s' → node.expiredAt B s' = []

variable {B}

theorem sweep_returns (lawful : B.Lawful up owns latest) (hs : up s) (limit : ℕ) :
    ∃ r, node.SweepsTimeouts B limit s r := by
  obtain ⟨⟨answer, s'⟩, asked⟩ := lawful.answers (node.deadlineAt B s) limit s hs
  have called : B.ExpiredDecisions (node.deadlineAt B s) limit (B.now s).2 (answer, s') := by
    rw [lawful.now s hs]
    exact asked
  cases answer with
  | error e => exact ⟨_, .unavailable called⟩
  | ok es => exact ⟨_, .swept called⟩

theorem sweep_exact (lawful : B.Lawful up owns latest) (hs : up s) (inRange : (B.now s).1 ≤ latest)
    {limit : ℕ} {r : Except NodeError ℕ × σ} (sweeps : node.SweepsTimeouts B limit s r) :
    ∃ es, node.Swept B limit s es r ∧ up r.2 := by
  have deadline : node.deadlineAt B s ≤ latest := (Nat.sub_le _ _).trans inRange
  have still := lawful.now s hs
  cases sweeps with
  | unavailable asked =>
    rw [still] at asked
    obtain ⟨sorted, -, answer⟩ := lawful.expired _ limit s _ hs deadline asked
    cases (Prod.mk.inj answer).1
  | @swept es s' asked =>
    rw [still] at asked
    obtain ⟨sorted, perm, answer⟩ := lawful.expired _ limit s _ hs deadline asked
    obtain ⟨found, rfl⟩ := Prod.mk.inj answer
    obtain rfl := Except.ok.inj found
    have numbered := lawful.numbered s' hs
    have split : (sorted.take limit ++ sorted.drop limit).Perm (node.expiredAt B s') := by
      rw [List.take_append_drop]
      exact perm
    have expired := fun e (he : e ∈ sorted.take limit) => pending_of_expired split he
    have distinct : ((sorted.take limit).map JournalEntry.id).Nodup := by
      have all := expired_distinct numbered split
      rw [List.map_append] at all
      exact all.sublist (List.sublist_append_left _ _)
    obtain ⟨s'', run, timedOut, steps⟩ := sweepAll_goes node lawful inRange hs
      (fun e he => ⟨(expired e he).1, (expired e he).2.1⟩) distinct 0
    rw [Nat.zero_add] at run
    have length : sorted.length = (node.expiredAt B s').length := perm.length_eq
    refine ⟨sorted.take limit, ?_, ?_⟩
    · unfold Node.sweepAllOn
      rw [run]
      refine ⟨rfl, asked, ?_, distinct, expired, steps, timedOut.journal, ?_, timedOut.learned,
        timedOut.clock, ?_⟩
      · rw [List.length_take, length]
      · exact fun e he late => timedOutAt_early numbered _ split he late
      · have after := expired_timedOutAt numbered (B.now s').1 split
        have deadline' : node.deadlineAt B s'' = node.deadlineAt B s' := by
          unfold Node.deadlineAt
          rw [timedOut.clock]
        unfold Node.expiredAt at length ⊢
        rw [deadline', timedOut.journal, after, List.length_drop, length]
    · unfold Node.sweepAllOn
      rw [run]
      exact timedOut.up

theorem sweeps_in_row (lawful : B.Lawful up owns latest) (hs : up s) (inRange : (B.now s).1 ≤ latest)
    {limit k : ℕ} {s' : σ} (sweeps : node.SweepsInRow B limit k s s') :
    up s' ∧ (B.now s').1 = (B.now s).1 ∧
      (node.expiredAt B s').length = (node.expiredAt B s).length - k * limit := by
  induction sweeps with
  | none s => exact ⟨hs, rfl, by simp⟩
  | next _ sweep ih =>
    obtain ⟨hs', clock, left⟩ := ih hs inRange
    obtain ⟨es, swept, up⟩ := sweep_exact node lawful hs' (clock.trans_le inRange) sweep
    refine ⟨up, swept.clock.trans clock, ?_⟩
    rw [swept.left, left, Nat.sub_sub, Nat.succ_mul]

theorem sweeps_exactly (lawful : B.Lawful up owns latest) (hs : up s) (inRange : (B.now s).1 ≤ latest)
    (limit : ℕ) : node.SweepsExactly B limit s where
  returns := sweep_returns node lawful hs limit
  exact r sweeps := by
    obtain ⟨es, swept, -⟩ := sweep_exact node lawful hs inRange sweeps
    exact ⟨es, swept⟩
  repeats k := by
    induction k with
    | zero => exact ⟨s, .none s⟩
    | succ k ih =>
      obtain ⟨s', before⟩ := ih
      obtain ⟨hs', clock, -⟩ := sweeps_in_row node lawful hs inRange before
      obtain ⟨⟨answer, s''⟩, sweep⟩ := sweep_returns node lawful hs' limit
      obtain ⟨es, swept, -⟩ := sweep_exact node lawful hs' (clock.trans_le inRange) sweep
      have returned : answer = .ok es.length := swept.returned
      rw [returned] at sweep
      exact ⟨s'', before.next sweep⟩
  finishes some k s' enough sweeps := by
    obtain ⟨-, -, left⟩ := sweeps_in_row node lawful hs inRange sweeps
    have covered : k ≤ k * limit := Nat.le_mul_of_pos_right k some
    apply List.eq_nil_of_length_eq_zero
    omega

end Update

/-- No call fails, and the decisions have identifiers of their own. -/
def MemorySwept (s : NodeState F) : Prop := s.faults = [] ∧ Numbered s.store.journal

section Memory

variable [Scalar F] {s : NodeState F}

theorem memory_sweeps (latest : ℕ) :
    (memorySweep (F := F)).Lawful MemorySwept (fun _ _ _ => True) latest where
  now s hs := rfl
  used peer start s hs := ⟨_, memoryCall_ok hs.1 _⟩
  get id s hs := ⟨_, memoryCall_ok hs.1 _, fun _ _ => trivial⟩
  list s hs := ⟨_, memoryCall_ok hs.1 _, fun _ _ => trivial⟩
  charge peer magnitude nowNs start s hs := by
    have call : memorySweep.recordInfluence peer magnitude nowNs start s =
        (.ok (s.store.recordInfluence peer magnitude nowNs start).1,
          { s with store := (s.store.recordInfluence peer magnitude nowNs start).2 }) :=
      memoryCall_ok hs.1 fun st => st.recordInfluence peer magnitude nowNs start
    exact ⟨_, _, call, hs, ⟨rfl, rfl, rfl⟩, fun _ _ _ => trivial⟩
  put r s hs _ := by
    have call : memorySweep.putSynapse r s = (.ok (), { s with store := s.store.putSynapse r }) :=
      memoryCall_ok hs.1 fun st => ((), st.putSynapse r)
    exact ⟨_, call, hs, ⟨rfl, rfl, rfl⟩, fun _ _ _ => trivial⟩
  numbered s hs := hs.2
  resolve s e id nowNs hs he named pending _ := by
    obtain ⟨journal, answer⟩ := hs.2.resolveDecision id .timedOut nowNs
    have call : memorySweep.resolveDecision id .timedOut nowNs s =
        (.ok (s.store.resolveDecision id .timedOut nowNs).1,
          { s with store := (s.store.resolveDecision id .timedOut nowNs).2 }) :=
      memoryCall_ok hs.1 fun st => st.resolveDecision id .timedOut nowNs
    have found : s.store.decision id = some e := hs.2.find he named
    rw [answer, found, Option.map_some, resolvedIf_pending named pending] at call
    refine ⟨_, call, ⟨hs.1, ?_⟩, journal, rfl, rfl⟩
    show Numbered (s.store.resolveDecision id .timedOut nowNs).2.journal
    rw [journal]
    exact hs.2.map (resolvedIf_id id .timedOut nowNs)
  note lesson s hs := ⟨hs, rfl, rfl, rfl⟩
  answers deadlineNs limit s hs := ⟨_, rfl⟩
  expired deadlineNs limit s r hs _ asked := by
    refine ⟨s.store.journal.filter (expiredBy deadlineNs), .refl _, ?_⟩
    exact Eq.trans asked (memoryCall_ok hs.1 _)

end Memory

/-- The journal can be read, the rows of synapses are as they were written, and no two of them
have one peer. -/
structure SqliteSwept (w : SqliteWorld F) : Prop where
  reads : ∃ es, JournalReads w.journal es
  filed : SqliteInOrder w.tables
  unique : UniqueOn w.tables.synapses SynapseRow.peer

section Sqlite

variable [Scalar F] {w : SqliteWorld F}

omit [Scalar F] in
theorem sqlitePut_owned {r : SynapseRecord F} {s : SqliteNode F} (filed : SqliteInOrder s)
    (unique : UniqueOn s.synapses SynapseRow.peer) (mine : sqliteOwner s r.id = some r.peer) :
    ∃ s', SqliteNode.putSynapse r s = (.ok (), s') ∧ SqliteInOrder s' ∧
      UniqueOn s'.synapses SynapseRow.peer ∧ (s'.clock = s.clock) ∧
      sqliteOwner s' = sqliteOwner s := by
  obtain ⟨row, here, reached⟩ := Option.map_eq_some_iff.mp mine
  rcases SqliteNode.putSynapse_cases r s with
    ⟨written, kept⟩ | ⟨-, id, other, ne, there, same⟩
  · refine ⟨_, written, filed.put r, kept unique, rfl, ?_⟩
    rw [sqliteOwner_put, ← mine, Function.update_eq_self]
  · exact absurd (unique id r.id other row there here (same.trans reached.symm)) ne

theorem sqlite_sweeps : (sqliteSweep (F := F)).Lawful SqliteSwept
    (fun w id peer => sqliteOwner w.tables id = some peer) i64Max where
  now w hs := rfl
  used peer start w hs := ⟨_, rfl⟩
  get id w hs := by
    obtain ⟨still, found, got, mine, -⟩ := sqlite_lawful.get id w.tables hs.filed
    refine ⟨found, ?_, ?_⟩
    · show ((sqliteBackend.getSynapse id w.tables).1,
        { w with tables := (sqliteBackend.getSynapse id w.tables).2 }) = _
      rw [still, got]
    · intro r hr
      obtain ⟨same, owned⟩ := mine r hr
      rw [same]
      exact owned
  list w hs := by
    obtain ⟨still, rs, listed, stored⟩ := sqlite_lawful.list w.tables hs.filed
    refine ⟨rs, ?_, ?_⟩
    · show ((sqliteBackend.listSynapses w.tables).1,
        { w with tables := (sqliteBackend.listSynapses w.tables).2 }) = _
      rw [still, listed]
    · exact fun r hr => sqlite_lawful.owned hs.filed (stored r hr)
  charge peer magnitude nowNs start w hs :=
    ⟨_, _, rfl, ⟨hs.reads, hs.filed, hs.unique⟩, ⟨rfl, rfl, rfl⟩, fun _ _ held => held⟩
  put r w hs mine := by
    obtain ⟨tables, put, filed, unique, clock, owner⟩ := sqlitePut_owned hs.filed hs.unique mine
    have call : sqliteSweep.putSynapse r w = (.ok (), { w with tables := tables }) := by
      show ((SqliteNode.putSynapse r w.tables).1,
        { w with tables := (SqliteNode.putSynapse r w.tables).2 }) = _
      rw [put]
    refine ⟨_, call, ⟨hs.reads, filed, unique⟩, ⟨rfl, rfl, clock⟩, ?_⟩
    intro id peer held
    show sqliteOwner tables id = some peer
    rw [owner]
    exact held
  numbered w hs := by
    obtain ⟨es, reads⟩ := hs.reads
    show Numbered w.journal.entries
    rw [reads.entries]
    exact reads.numbered
  resolve w e id nowNs hs he named pending inRange := by
    obtain ⟨es, reads⟩ := hs.reads
    change e ∈ w.journal.entries at he
    rw [reads.entries] at he
    obtain ⟨answer, updated⟩ : (w.journal.resolveDecision id .timedOut nowNs).1 =
        .ok (some (MemoryStore.resolved .timedOut nowNs e)) ∧
        JournalReads (w.journal.resolveDecision id .timedOut nowNs).2
          (es.map (resolvedIf id .timedOut nowNs)) :=
      reads.resolveDecision he named pending inRange
    refine ⟨{ w with journal := (w.journal.resolveDecision id .timedOut nowNs).2 }, ?_,
      ⟨⟨_, updated⟩, hs.filed, hs.unique⟩, ?_, rfl, rfl⟩
    · show ((w.journal.resolveDecision id .timedOut nowNs).1, _) = _
      rw [answer]
    · show (w.journal.resolveDecision id .timedOut nowNs).2.entries = w.journal.entries.map _
      rw [updated.entries, reads.entries]
  note lesson w hs := ⟨⟨hs.reads, hs.filed, hs.unique⟩, rfl, rfl, rfl⟩
  answers deadlineNs limit w hs := by
    obtain ⟨answer, allowed⟩ := expiredDecisions_answer w.journal deadlineNs limit
    exact ⟨(answer, w), allowed, rfl⟩
  expired deadlineNs limit w r hs fits asked := by
    obtain ⟨es, reads⟩ := hs.reads
    obtain ⟨sorted, perm, answer⟩ := reads.expiredDecisions fits asked.1
    refine ⟨sorted, ?_, Prod.ext answer asked.2⟩
    show sorted.Perm (w.journal.entries.filter (expiredBy deadlineNs))
    rw [reads.entries]
    exact perm

theorem SqliteWorld.Reached.swept (h : w.Reached) : SqliteSwept w := by
  induction h with
  | @start w empty unused none =>
    refine ⟨⟨[], by simp [empty], by simp, by simp, by simp [unused], by simp, by simp⟩, ?_, ?_⟩
    · intro id row here
      rw [none] at here
      cases here
    · intro id id' row row' here
      rw [none] at here
      cases here
  | call step _ ih =>
    obtain ⟨es, reads⟩ := ih.reads
    exact ⟨reads.step step, ih.filed, ih.unique⟩
  | @putSynapse w r _ ih =>
    rcases SqliteNode.putSynapse_cases r w.tables with ⟨written, kept⟩ | ⟨refused, -⟩
    · rw [written]
      exact ⟨ih.reads, ih.filed.put r, kept ih.unique⟩
    · rw [refused]
      exact ih
  | @other w w' journal sequence kept _ ih =>
    obtain ⟨es, reads⟩ := ih.reads
    refine ⟨⟨es, ?_, ?_, reads.distinct, ?_, ?_, reads.dated⟩, ?_, ?_⟩
    · rw [journal]
      exact reads.rows
    · rw [sequence]
      exact reads.keyed
    · rw [sequence]
      exact reads.within
    · rw [sequence]
      exact reads.size
    · intro id row here
      exact ih.filed id row (kept id row here)
    · intro id id' row row' here there
      exact ih.unique id id' row row' (kept id row here) (kept id' row' there)

end Sqlite

/-- In every store that can be reached, while no call fails and the clock fits a signed integer, a
sweep times out exactly the decisions it should, and finitely many leave none. -/
theorem sweeping_is_exact [Scalar F] (node : Node F) (limit : ℕ) :
    (∀ s : NodeState F, s.store.Reached → s.faults = [] → s.clock ≤ i64Max →
      node.SweepsTimeouts memorySweep limit s ((node.sweepTimeouts limit).run s) ∧
      node.SweepsExactly memorySweep limit s) ∧
    ∀ w : SqliteWorld F, w.Reached → w.tables.clock ≤ i64Max →
      node.SweepsExactly sqliteSweep limit w := by
  constructor
  · intro s reached none inRange
    refine ⟨(node.sweepsTimeouts_memory limit s _).mpr rfl, ?_⟩
    exact sweeps_exactly node (memory_sweeps i64Max) ⟨none, reached.numbered.numbered⟩ inRange limit
  · intro w reached inRange
    exact sweeps_exactly node sqlite_sweeps reached.swept inRange limit

theorem NodeRun.sweepsExactly [Scalar F] {node : Node F} {ms : List (Moment F)} {s : NodeState F}
    (run : NodeRun node ms s) (none : s.faults = []) (inRange : s.clock ≤ i64Max) (limit : ℕ) :
    ∃ es, node.Swept memorySweep limit s es ((node.sweepTimeouts limit).run s) := by
  have exactly : node.SweepsExactly memorySweep limit s :=
    sweeps_exactly node (memory_sweeps i64Max) ⟨none, run.journalOrdered.1.numbered⟩ inRange limit
  exact exactly.exact _ ((node.sweepsTimeouts_memory limit s _).mpr rfl)

/-! Two decisions that have expired, and a limit of one. -/

section Sample

def lateNs : ℕ := 1000000000000000000

def storedSynapse : SynapseRecord ℚ :=
  { edgeNode.formedRecord neighbour 0 .maximal with id := (pendingSince 1).synapse }

def lateMemory : NodeState ℚ :=
  edgeNode.build (steppedMemory.putSynapse storedSynapse) .maximal lateNs []

def lateSqlite : SqliteWorld ℚ :=
  ⟨steppedSqlite, (SqliteNode.putSynapse storedSynapse { emptySqlite with clock := lateNs }).2, []⟩

theorem two_expired_swept :
    (edgeNode.expiredAt memorySweep lateMemory).length = 2 ∧
    (((edgeNode.sweepTimeouts 1).run lateMemory).2.store.getSynapse storedSynapse.id).map
      SynapseRecord.weight = some (7 / 80) ∧
    edgeNode.SweepsTimeouts memorySweep 1 lateMemory ((edgeNode.sweepTimeouts 1).run lateMemory) ∧
    edgeNode.SweepsExactly memorySweep 1 lateMemory ∧
    (edgeNode.expiredAt sqliteSweep lateSqlite).length = 2 ∧
    edgeNode.SweepsExactly sqliteSweep 1 lateSqlite := by
  have journalled : steppedMemory.Reached :=
    .call (.appendDecision (pendingSince 1)) (.call (.appendDecision (pendingSince 2)) (.start rfl))
  have memory : (steppedMemory.putSynapse storedSynapse).Reached := by
    refine .other ?_ ?_ journalled
    · rfl
    · rfl
  have sqlite : lateSqlite.Reached := by
    have first : SqliteWorld.Reached
        (⟨SqliteStore.new, { emptySqlite with clock := lateNs }, []⟩ : SqliteWorld ℚ) :=
      .start rfl rfl rfl
    exact ((first.putSynapse storedSynapse).call (.appendDecision (pendingSince 2))).call
      (.appendDecision (pendingSince 1))
  obtain ⟨inMemory, inSqlite⟩ := sweeping_is_exact edgeNode 1
  obtain ⟨method, exactly⟩ := inMemory lateMemory memory rfl (by decide +kernel)
  exact ⟨by decide +kernel, by decide +kernel, method, exactly, by decide +kernel,
    inSqlite lateSqlite sqlite (by decide +kernel)⟩

end Sample

end OpenNtl
