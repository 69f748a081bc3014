import OpenNtl.CallFrame
import OpenNtl.Settle

/-! # How outcomes, normalisation and penalties rewrite synapse records

Every write to the synapse table goes through `putSynapse`.
-/
namespace OpenNtl

open AtomicProgram NodeM Relation

variable {F : Type}

def Filed (st : MemoryStore F) : Prop := ∀ id r, st.getSynapse id = some r → r.id = id

namespace MemoryStore

variable {st : MemoryStore F}

theorem getSynapse_put_same (st : MemoryStore F) (r : SynapseRecord F) :
    (st.putSynapse r).getSynapse r.id = some r := AList.lookup_insert _

theorem getSynapse_put_other {id : SynapseId} {r : SynapseRecord F} (other : id ≠ r.id) :
    (st.putSynapse r).getSynapse id = st.getSynapse id := AList.lookup_insert_ne other

theorem getSynapse_congr {st' : MemoryStore F} (same : st'.synapses = st.synapses)
    (id : SynapseId) : st'.getSynapse id = st.getSynapse id := by
  unfold getSynapse
  rw [same]

section Listed

variable [Scalar F]

theorem listSynapses_congr {st' : MemoryStore F} (same : st'.synapses = st.synapses)
    (filter : SynapseFilter F) : st'.listSynapses filter = st.listSynapses filter := by
  unfold listSynapses
  rw [same]

theorem listSynapses_all (st : MemoryStore F) :
    st.listSynapses {} = sortBy synapseCmp st.synapses.values := by
  have all : st.synapses.values.filter (matchesFilter {}) = st.synapses.values :=
    List.filter_eq_self.mpr fun r _ => rfl
  unfold listSynapses
  rw [all]

end Listed

section Written

variable {st' : MemoryStore F} {r : SynapseRecord F} {id : SynapseId}
  (after : st'.synapses = (st.putSynapse r).synapses)

include after

theorem put_getSynapse_same : st'.getSynapse r.id = some r := by
  rw [getSynapse_congr after]
  exact getSynapse_put_same st r

theorem put_getSynapse_other (other : id ≠ r.id) : st'.getSynapse id = st.getSynapse id := by
  rw [getSynapse_congr after]
  exact getSynapse_put_other other

theorem found_put {x : SynapseRecord F} (found : st'.getSynapse id = some x) :
    (id = r.id ∧ x = r) ∨ (id ≠ r.id ∧ st.getSynapse id = some x) := by
  by_cases here : id = r.id
  · subst here
    rw [put_getSynapse_same after] at found
    exact Or.inl ⟨rfl, (Option.some.inj found).symm⟩
  · rw [put_getSynapse_other after here] at found
    exact Or.inr ⟨here, found⟩

end Written

theorem mem_values_of_getSynapse {id : SynapseId} {r : SynapseRecord F}
    (found : st.getSynapse id = some r) : r ∈ st.synapses.values :=
  List.mem_map_of_mem (AList.mem_lookup_iff.mp found)

end MemoryStore

namespace Filed

variable {st : MemoryStore F}

theorem find (h : Filed st) {r : SynapseRecord F} (listed : r ∈ st.synapses.values) :
    st.getSynapse r.id = some r := by
  obtain ⟨⟨id, x⟩, entry, rfl⟩ := List.mem_map.mp listed
  have found : st.getSynapse id = some x := AList.mem_lookup_iff.mpr entry
  rw [h id x found]
  exact found

/-- The record that connecting to a peer finds is stored under its own identifier. -/
theorem forPeer (h : Filed st) {peer : NodeId} {r : SynapseRecord F}
    (found : st.synapseForPeer peer = some r) : st.getSynapse r.id = some r :=
  h.find (List.mem_of_find?_eq_some found)

theorem put (h : Filed st) (r : SynapseRecord F) : Filed (st.putSynapse r) := by
  intro id x found
  rcases MemoryStore.found_put rfl found with ⟨rfl, rfl⟩ | ⟨-, before⟩
  · rfl
  · exact h id x before

theorem of_same (h : Filed st) {st' : MemoryStore F} (same : st'.synapses = st.synapses) :
    Filed st' := by
  intro id r found
  rw [MemoryStore.getSynapse_congr same] at found
  exact h id r found

theorem nodup_ids (h : Filed st) : (st.synapses.values.map SynapseRecord.id).Nodup := by
  have keys : st.synapses.values.map SynapseRecord.id = st.synapses.entries.map Sigma.fst := by
    unfold HashMap.values
    rw [List.map_map]
    refine List.map_congr_left fun e entry => ?_
    exact h e.1 e.2 (AList.mem_lookup_iff.mpr entry)
  rw [keys]
  exact st.synapses.nodupKeys

end Filed

variable [Scalar F]

namespace Node

variable (node : Node F)

/-- The record an outcome leaves, given the influence its peer has used up. -/
def reweighed (entry : JournalEntry F) (outcome : Outcome) (nowNs : ℕ) (used : F)
    (r : SynapseRecord F) : SynapseRecord F :=
  { ((Synapse.fromRecord r node.config.synapse).applyOutcome outcome
      (Scalar.clamp entry.signalWeight 0 1) (signalTypeNameOf entry.signalType) used
      node.config.learning).2 with lastActiveNs := nowNs }.toRecord

theorem reweighed_id (entry : JournalEntry F) (o : Outcome) (nowNs : ℕ) (used : F)
    (r : SynapseRecord F) : (node.reweighed entry o nowNs used r).id = r.id :=
  Synapse.updateState_id _

theorem reweighed_weight (entry : JournalEntry F) (o : Outcome) (nowNs : ℕ) (used : F)
    (r : SynapseRecord F) :
    (node.reweighed entry o nowNs used r).weight =
      min (applyReward r.weight o (Scalar.clamp entry.signalWeight 0 1) used
        node.config.learning).after node.config.synapse.maxWeight :=
  Synapse.updateState_weight _

def penalty (nowNs : ℕ) (r : SynapseRecord F) : SignatureFailureOutcome :=
  ((Synapse.fromRecord r node.config.synapse).applySignatureFailure nowNs node.config.learning).1

def penalizedRecord (nowNs : ℕ) (r : SynapseRecord F) : SynapseRecord F :=
  ((Synapse.fromRecord r node.config.synapse).applySignatureFailure nowNs
    node.config.learning).2.toRecord

def formedRecord (peer : NodeId) (nowNs : ℕ) (rng : Rng) : SynapseRecord F :=
  (Synapse.newWith peer node.config.synapse nowNs rng).1.activate.toRecord

/-- The record normalisation leaves, where the outbound weights come to `total`. -/
def rescaled (total : F) (r : SynapseRecord F) : SynapseRecord F :=
  let c := node.config.learning
  { r with weight := max (r.weight * (c.maxTotalOutboundWeight / total)) c.minWeight }

/-- One record rewritten by an outcome that may be applied to it, or by normalisation. -/
inductive Reweigh (nowNs : ℕ) (applies : SynapseId → Outcome → Prop) :
    SynapseRecord F → SynapseRecord F → Prop
  | outcome (r : SynapseRecord F) (entry : JournalEntry F) {o : Outcome} (used : F)
      (applied : applies r.id o) : Reweigh nowNs applies r (node.reweighed entry o nowNs used r)
  | rescale (r : SynapseRecord F) {total : F}
      (excess : ¬ (total ≤ node.config.learning.maxTotalOutboundWeight ∨ total ≤ 0)) :
      Reweigh nowNs applies r (node.rescaled total r)

/-- The same identifiers, and under each a record rewritten any number of times. -/
def Reweighed (nowNs : ℕ) (applies : SynapseId → Outcome → Prop) (st st' : MemoryStore F) : Prop :=
  ∀ id, Option.Rel (ReflTransGen (node.Reweigh nowNs applies)) (st.getSynapse id)
    (st'.getSynapse id)

variable {node} {nowNs : ℕ} {applies : SynapseId → Outcome → Prop}

theorem Reweigh.id_eq {r r' : SynapseRecord F} (h : node.Reweigh nowNs applies r r') :
    r'.id = r.id := by
  cases h with
  | outcome entry used applied => exact node.reweighed_id entry _ nowNs used r
  | rescale excess => rfl

theorem Reweigh.ids_eq {r r' : SynapseRecord F}
    (h : ReflTransGen (node.Reweigh nowNs applies) r r') : r'.id = r.id := by
  induction h with
  | refl => rfl
  | tail _ last ih => exact last.id_eq.trans ih

namespace Reweighed

variable {st st' st'' : MemoryStore F}

theorem of_same (same : st'.synapses = st.synapses) : node.Reweighed nowNs applies st st' := by
  intro id
  rw [MemoryStore.getSynapse_congr same]
  cases st.getSynapse id with
  | none => exact .none
  | some r => exact .some .refl

theorem trans (first : node.Reweighed nowNs applies st st')
    (second : node.Reweighed nowNs applies st' st'') : node.Reweighed nowNs applies st st'' := by
  intro id
  generalize st.getSynapse id = x, st'.getSynapse id = y, st''.getSynapse id = z,
    first id = left, second id = right
  cases left with
  | none =>
    cases right
    exact .none
  | some first =>
    cases right with
    | some second => exact .some (first.trans second)

theorem put {r r' : SynapseRecord F} (found : st.getSynapse r.id = some r)
    (rewritten : node.Reweigh nowNs applies r r') :
    node.Reweighed nowNs applies st (st.putSynapse r') := by
  intro id
  by_cases same : id = r.id
  · subst same
    rw [found, ← rewritten.id_eq, MemoryStore.getSynapse_put_same]
    exact .some (.single rewritten)
  · rw [MemoryStore.getSynapse_put_other (by rwa [rewritten.id_eq])]
    cases st.getSynapse id with
    | none => exact .none
    | some x => exact .some .refl

theorem became (h : node.Reweighed nowNs applies st st') {id : SynapseId} {r : SynapseRecord F}
    (found : st.getSynapse id = some r) :
    ∃ r', st'.getSynapse id = some r' ∧ ReflTransGen (node.Reweigh nowNs applies) r r' := by
  have related := h id
  rw [found] at related
  generalize st'.getSynapse id = y at related
  cases related with
  | some rewritten => exact ⟨_, rfl, rewritten⟩

theorem was (h : node.Reweighed nowNs applies st st') {id : SynapseId} {r' : SynapseRecord F}
    (found : st'.getSynapse id = some r') :
    ∃ r, st.getSynapse id = some r ∧ ReflTransGen (node.Reweigh nowNs applies) r r' := by
  have related := h id
  rw [found] at related
  generalize st.getSynapse id = x at related
  cases related with
  | some rewritten => exact ⟨_, rfl, rewritten⟩

theorem filed (h : node.Reweighed nowNs applies st st') (filed : Filed st) : Filed st' := by
  intro id r' found'
  obtain ⟨r, found, rewritten⟩ := h.was found'
  exact (Reweigh.ids_eq rewritten).trans (filed id r found)

end Reweighed

section Programs

variable {α β : Type} {s : NodeState F}

omit [Scalar F] in
/-- A store call followed by more: it fails and nothing has changed, or the rest goes on. -/
theorem callStore_bind_ends {op : MemoryStore F → α × MemoryStore F} {k : α → NodeM F β}
    {P : Except NodeError β × NodeState F → Prop} (failed : ∀ e, P (.error e, s.stored s.store))
    (done : P ((k (op s.store).1).run (s.stored (op s.store).2))) :
    P ((callStore op >>= k).run s) := by
  cases fault : nextFault s with
  | none =>
    rw [Prog.run_bind_ok (callStore_run_ok fault)]
    exact done
  | some f =>
    rw [Prog.run_bind_error (callStore_run_error fault)]
    exact failed _

omit [Scalar F] in
theorem callStore_bind_leaves {op : MemoryStore F → α × MemoryStore F} {k : α → NodeM F β}
    {P : NodeState F → Prop} (kept : P (s.stored s.store))
    (done : P ((k (op s.store).1).run (s.stored (op s.store).2)).2) :
    P ((callStore op >>= k).run s).2 :=
  callStore_bind_ends (P := fun x => P x.2) (fun _ => kept) done

omit [Scalar F] in
theorem withRng_bind_run (f : Rng → α × Rng) (k : α → NodeM F β) (s : NodeState F) :
    (withRng f >>= k).run s = (k (f s.rng).1).run { s with rng := (f s.rng).2 } := rfl

theorem mem_listSynapses {st : MemoryStore F} {filter : SynapseFilter F} {r : SynapseRecord F}
    (listed : r ∈ st.listSynapses filter) :
    r ∈ st.synapses.values ∧ MemoryStore.matchesFilter filter r = true := by
  unfold MemoryStore.listSynapses at listed
  have sorted : r ∈ sortBy MemoryStore.synapseCmp
      (st.synapses.values.filter (MemoryStore.matchesFilter filter)) := by
    cases limit : filter.limit with
    | none => simpa only [limit] using listed
    | some n =>
      simp only [limit] at listed
      exact List.mem_of_mem_take listed
  exact List.mem_filter.mp (mem_sortBy.mp sorted)

theorem mem_eligible {st : MemoryStore F} {r : SynapseRecord F} :
    r ∈ st.listSynapses .eligible ↔ r ∈ st.synapses.values ∧ r.state.canCarry = true := by
  have sorted : r ∈ st.listSynapses .eligible ↔ r ∈ sortBy MemoryStore.synapseCmp
      (st.synapses.values.filter (MemoryStore.matchesFilter .eligible)) := Iff.rfl
  rw [sorted, mem_sortBy, List.mem_filter]
  cases state : r.state <;>
    simp [MemoryStore.matchesFilter, SynapseFilter.eligible, SynapseState.canCarry, state]

theorem listSynapses_nodup {st : MemoryStore F} (filed : Filed st) :
    ((st.listSynapses {}).map SynapseRecord.id).Nodup := by
  have sub : (st.synapses.values.filter (MemoryStore.matchesFilter {})).Sublist
      st.synapses.values := List.filter_sublist
  exact (((sortBy_perm _ _).map _).nodup_iff).mpr (filed.nodup_ids.sublist (sub.map _))

theorem rescale_reweighs {total : F}
    (excess : ¬ (total ≤ node.config.learning.maxTotalOutboundWeight ∨ total ≤ 0))
    (records : List (SynapseRecord F)) (distinct : (records.map SynapseRecord.id).Nodup)
    (listed : ∀ r ∈ records, s.store.getSynapse r.id = some r) :
    node.Reweighed nowNs applies s.store
      (((records.map fun r => (r, (node.rescaled total r).weight)).forM fun (r, w) =>
        writeStore fun st => st.putSynapse { r with weight := w }).run s).2.store := by
  induction records generalizing s with
  | nil => exact .of_same rfl
  | cons r rest ih =>
    obtain ⟨first, others⟩ := List.nodup_cons.mp distinct
    refine callStore_bind_leaves (P := fun t => node.Reweighed nowNs applies s.store t.store)
      (.of_same rfl) ?_
    have written : node.Reweighed nowNs applies s.store
        (s.store.putSynapse (node.rescaled total r)) :=
      .put (listed r List.mem_cons_self) (.rescale r excess)
    refine written.trans (ih (s := s.stored (s.store.putSynapse (node.rescaled total r))) others ?_)
    intro x hx
    rw [NodeState.stored_store, MemoryStore.getSynapse_put_other]
    · exact listed x (List.mem_cons_of_mem r hx)
    · intro same
      exact first (List.mem_map.mpr ⟨x, hx, same⟩)

variable (node nowNs applies) in
theorem normalizeOutboundWeights_reweighs (filed : Filed s.store) :
    node.Reweighed nowNs applies s.store (node.normalizeOutboundWeights.run s).2.store := by
  refine callStore_bind_leaves (P := fun t => node.Reweighed nowNs applies s.store t.store)
    (.of_same rfl) ?_
  dsimp only
  split
  · exact .of_same rfl
  · unfold normalizeOutbound
    dsimp only
    split_ifs with fits
    · exact .of_same rfl
    · dsimp only
      rw [List.map_map, ← List.map_prod_left_eq_zip, Prog.run_bind_pure_snd]
      refine rescale_reweighs (s := s.stored s.store) fits _ (listSynapses_nodup filed) ?_
      intro r listed
      exact filed.find (mem_listSynapses listed).1

theorem updateSynapse_reweighs (filed : Filed s.store) (entry : JournalEntry F) {outcome : Outcome}
    (applied : applies entry.synapse outcome) :
    node.Reweighed nowNs applies s.store
      ((node.updateSynapse entry outcome nowNs).run s).2.store := by
  refine callStore_bind_leaves (P := fun t => node.Reweighed nowNs applies s.store t.store)
    (.of_same rfl) ?_
  refine callStore_bind_leaves (P := fun t => node.Reweighed nowNs applies s.store t.store)
    (.of_same rfl) ?_
  simp only [NodeState.stored_store]
  cases found : s.store.getSynapse entry.synapse with
  | none => exact .of_same rfl
  | some r =>
    have own : r.id = entry.synapse := filed _ r found
    rw [← own] at found applied
    generalize node.config.learning.influenceWindowStart nowNs = windowStart
    generalize s.store.influenceSince entry.peer windowStart = used
    have rewritten : node.Reweigh nowNs applies r (node.reweighed entry outcome nowNs used r) :=
      .outcome r entry used applied
    -- The write and what follows it, from any state with the same synapses.
    have finish : ∀ (t : NodeState F) (u : WeightUpdate F), t.store.synapses = s.store.synapses →
        node.Reweighed nowNs applies s.store (((do
          writeStore fun st => st.putSynapse (node.reweighed entry outcome nowNs used r)
          let _ ← node.normalizeOutboundWeights
          return u) : NodeM F _).run t).2.store := by
      intro t u same
      refine callStore_bind_leaves (P := fun t => node.Reweighed nowNs applies s.store t.store)
        (.of_same same) ?_
      have found' : t.store.getSynapse r.id = some r :=
        (MemoryStore.getSynapse_congr same r.id).trans found
      have written : node.Reweighed nowNs applies s.store (t.store.putSynapse
          (node.reweighed entry outcome nowNs used r)) :=
        (Reweighed.of_same same).trans (.put found' rewritten)
      rw [Prog.run_bind_pure_snd]
      exact written.trans (normalizeOutboundWeights_reweighs node nowNs applies
        (s := t.stored (t.store.putSynapse (node.reweighed entry outcome nowNs used r)))
        (written.filed filed))
    dsimp only
    split
    · refine callStore_bind_leaves (P := fun t => node.Reweighed nowNs applies s.store t.store)
        (.of_same rfl) ?_
      exact finish _ _ rfl
    · exact finish _ _ rfl

theorem settle_reweighs (filed : Filed s.store) {id : JournalId} {outcome : Outcome}
    (applied : ∀ e, s.store.decision id = some e → applies e.synapse outcome) :
    node.Reweighed nowNs applies s.store ((node.settle id outcome nowNs).run s).2.store := by
  have spec := node.settle_spec id outcome nowNs s
  generalize (node.settle id outcome nowNs).run s = x at spec
  cases spec with
  | failed fault => exact .of_same rfl
  | unknown fault missing => exact .of_same rfl
  | earlier fault found done before => exact .of_same rfl
  | @again fault e found done now =>
    exact updateSynapse_reweighs (s := { s.stored s.store with
      learned := s.learned ++ [(e.id, outcome)] }) filed e (applied e found)
  | @learns fault e found pending =>
    have same : (s.store.resolveDecision id outcome nowNs).2.synapses = s.store.synapses :=
      MemoryStore.resolveDecision_synapses _ _ _ _
    refine (Reweighed.of_same same).trans ?_
    exact updateSynapse_reweighs (s := { afterResolve id outcome nowNs s with
      learned := s.learned ++ [(e.id, outcome)] }) (filed.of_same same)
      (MemoryStore.resolved outcome nowNs e) (applied e found)

theorem settle_filed (filed : Filed s.store) (id : JournalId) (outcome : Outcome) (nowNs : ℕ) :
    Filed ((node.settle id outcome nowNs).run s).2.store := by
  have records : node.Reweighed nowNs (fun _ _ => True) s.store
      ((node.settle id outcome nowNs).run s).2.store :=
    settle_reweighs filed fun _ _ => trivial
  exact records.filed filed

theorem sweep_reweighs (timesOut : ∀ id, applies id .timedOut) (expired : List (JournalEntry F))
    (count : ℕ) (filed : Filed s.store) :
    node.Reweighed nowNs applies s.store
      ((expired.foldlM (fun n e => (n + ·) <$> node.sweepOne nowNs e) count).run s).2.store := by
  induction expired generalizing s count with
  | nil => exact .of_same rfl
  | cons e rest ih =>
    rw [List.foldlM_cons, Prog.run_bind]
    have one : node.Reweighed nowNs applies s.store
        (((count + ·) <$> node.sweepOne nowNs e).run s).2.store := by
      rw [Prog.run_map]
      unfold sweepOne
      cases named : e.id with
      | none => exact .of_same rfl
      | some id =>
        dsimp only
        rw [Prog.run_bind_pure_snd]
        exact settle_reweighs filed fun e' _ => timesOut e'.synapse
    rcases run : ((count + ·) <$> node.sweepOne nowNs e).run s with ⟨r, t⟩
    rw [run] at one
    cases r with
    | error x => exact one
    | ok n => exact one.trans (ih n (one.filed filed))

end Programs

/-- What outcomes and normalisation leave alone. -/
structure KeepsStanding (nowNs : ℕ) (r r' : SynapseRecord F) : Prop where
  id : r'.id = r.id
  peer : r'.peer = r.peer
  signatureFailures : r'.signatureFailures = r.signatureFailures
  failureWindowStartNs : r'.failureWindowStartNs = r.failureWindowStartNs
  pruned : r'.state = .pruned ↔ r.state = .pruned
  lastActiveNs : r'.lastActiveNs = r.lastActiveNs ∨ r'.lastActiveNs = nowNs

theorem Reweigh.keepsStanding {r r' : SynapseRecord F} (h : node.Reweigh nowNs applies r r') :
    KeepsStanding nowNs r r' := by
  cases h with
  | rescale excess => exact ⟨rfl, rfl, rfl, rfl, Iff.rfl, Or.inl rfl⟩
  | outcome entry used applied =>
    unfold reweighed Synapse.applyOutcome
    dsimp only
    obtain ⟨state, same, pruned⟩ := Synapse.updateState_eq (F := F) _
    rw [same]
    exact ⟨rfl, rfl, rfl, rfl, pruned, Or.inr rfl⟩

theorem Reweigh.keepStanding {r r' : SynapseRecord F}
    (h : ReflTransGen (node.Reweigh nowNs applies) r r') : KeepsStanding nowNs r r' := by
  induction h with
  | refl => exact ⟨rfl, rfl, rfl, rfl, Iff.rfl, Or.inl rfl⟩
  | tail _ last ih =>
    have step := last.keepsStanding
    refine ⟨step.id.trans ih.id, step.peer.trans ih.peer,
      step.signatureFailures.trans ih.signatureFailures,
      step.failureWindowStartNs.trans ih.failureWindowStartNs, step.pruned.trans ih.pruned, ?_⟩
    rcases step.lastActiveNs with kept | now
    · rw [kept]
      exact ih.lastActiveNs
    · exact Or.inr now

variable (node)

def failuresAt (nowNs : ℕ) (r : SynapseRecord F) : ℕ :=
  if r.failureWindowStartNs < node.config.learning.influenceWindowStart nowNs then 1
  else min (r.signatureFailures + 1) (2 ^ 32 - 1)

def failureWindowAt (nowNs : ℕ) (r : SynapseRecord F) : ℕ :=
  if r.failureWindowStartNs < node.config.learning.influenceWindowStart nowNs then nowNs
  else r.failureWindowStartNs

/-- A signature failure prunes the synapse at the threshold. Below it, it only counts. -/
theorem penalizedRecord_cases (nowNs : ℕ) (r : SynapseRecord F) :
    (node.config.learning.signatureFailurePruneThreshold ≤ node.failuresAt nowNs r ∧
      (node.penalty nowNs r).pruned = true ∧
      node.penalizedRecord nowNs r = { r with
        weight := applySignaturePenalty r.weight node.config.learning
        failureWindowStartNs := node.failureWindowAt nowNs r
        signatureFailures := node.failuresAt nowNs r
        state := .pruned
        lastActiveNs := nowNs }) ∨
    (node.failuresAt nowNs r < node.config.learning.signatureFailurePruneThreshold ∧
      (node.penalty nowNs r).pruned = false ∧
      ∃ state, (state = .pruned ↔ r.state = .pruned) ∧
        node.penalizedRecord nowNs r = { r with
          weight := applySignaturePenalty r.weight node.config.learning
          failureWindowStartNs := node.failureWindowAt nowNs r
          signatureFailures := node.failuresAt nowNs r
          state := state }) := by
  have count : ((Synapse.fromRecord r node.config.synapse).penalized nowNs
      node.config.learning).signatureFailures = node.failuresAt nowNs r := rfl
  unfold penalizedRecord penalty
  rw [Synapse.applySignatureFailure_eq, count]
  split_ifs with reached
  · exact Or.inl ⟨reached, rfl, rfl⟩
  · obtain ⟨state, same, pruned⟩ := ((Synapse.fromRecord r node.config.synapse).penalized nowNs
      node.config.learning).updateState_eq
    refine Or.inr ⟨not_le.mp reached, rfl, state, pruned, ?_⟩
    dsimp only
    rw [same]
    rfl

theorem penalizedRecord_id (nowNs : ℕ) (r : SynapseRecord F) :
    (node.penalizedRecord nowNs r).id = r.id := by
  rcases node.penalizedRecord_cases nowNs r with ⟨-, -, same⟩ | ⟨-, -, state, -, same⟩
  · rw [same]
  · rw [same]

theorem penalizedRecord_found {nowNs : ℕ} {r : SynapseRecord F} {st st' : MemoryStore F}
    (after : st'.synapses = (st.putSynapse (node.penalizedRecord nowNs r)).synapses) :
    st'.getSynapse r.id = some (node.penalizedRecord nowNs r) := by
  rw [← node.penalizedRecord_id nowNs r]
  exact MemoryStore.put_getSynapse_same after

end Node
end OpenNtl
