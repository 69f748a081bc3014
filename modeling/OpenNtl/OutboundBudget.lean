import OpenNtl.WeightStates

/-! # The outbound budget

Normalisation scales all weights so that they come to the budget, and then lifts what has fallen
below the floor. Pruned synapses are scaled and counted like the others.
-/
namespace OpenNtl

open AtomicProgram NodeM ExactScalar

variable {F : Type} [Scalar F]

namespace MemoryStore

def live (st : MemoryStore F) : List (SynapseRecord F) :=
  st.synapses.values.filter fun r => r.state ≠ .pruned

def pruned (st : MemoryStore F) : List (SynapseRecord F) :=
  st.synapses.values.filter fun r => r.state = .pruned

def liveTotal (st : MemoryStore F) : F := Scalar.sum (st.live.map SynapseRecord.weight)

end MemoryStore

namespace Node

variable (node : Node F)

instance decidableExceeds (st : MemoryStore F) : Decidable (node.Exceeds st) :=
  inferInstanceAs (Decidable (¬ (_ ∨ _)))

def scaled (total : F) (r : SynapseRecord F) : F :=
  r.weight * (node.config.learning.maxTotalOutboundWeight / total)

/-- By how much the scaled weights of the synapses that are not pruned miss the floor. -/
def lift (st : MemoryStore F) : F :=
  if node.Exceeds st then
    Scalar.sum (st.live.map fun r =>
      max 0 (node.config.learning.minWeight - node.scaled (outboundTotal st) r))
  else 0

/-- What is left of the budget beside them: what the weights leave unused, and what the pruned
synapses hold. -/
def slack (st : MemoryStore F) : F :=
  if node.Exceeds st then Scalar.sum (st.pruned.map (node.scaled (outboundTotal st)))
  else node.config.learning.maxTotalOutboundWeight - outboundTotal st +
    Scalar.sum (st.pruned.map SynapseRecord.weight)

def normalised (st : MemoryStore F) (r : SynapseRecord F) : SynapseRecord F :=
  if node.Exceeds st then node.rescaled (outboundTotal st) r else r

end Node

theorem listSynapses_perm (st : MemoryStore F) :
    (st.listSynapses {}).Perm st.synapses.values := by
  rw [MemoryStore.listSynapses_all]
  exact sortBy_perm _ _

section Normalise

variable {node : Node F} {s t : NodeState F}

omit [Scalar F] in
theorem writeStore_bind_ok {α : Type} {op : MemoryStore F → MemoryStore F} {k : Unit → NodeM F α}
    {a : α} (run : (writeStore op >>= k).run s = (.ok a, t)) :
    (k ()).run (s.stored (op s.store)) = (.ok a, t) := by
  obtain ⟨_, u, first, later⟩ := Prog.run_bind_eq_ok.mp run
  obtain ⟨-, -, rfl⟩ := callStore_eq_ok.mp first
  exact later

theorem rescale_ok {total : F} (records : List (SynapseRecord F))
    (distinct : (records.map SynapseRecord.id).Nodup)
    (listed : ∀ r ∈ records, s.store.getSynapse r.id = some r)
    (run : ((records.map fun r => (r, (node.rescaled total r).weight)).forM fun (r, w) =>
      writeStore fun st => st.putSynapse { r with weight := w }).run s = (.ok (), t)) (id : SynapseId) :
    t.store.getSynapse id =
      if id ∈ records.map SynapseRecord.id then
        (s.store.getSynapse id).map (node.rescaled total)
      else s.store.getSynapse id := by
  induction records generalizing s with
  | nil =>
    obtain ⟨-, rfl⟩ := Prod.mk.inj run
    simp
  | cons r rest ih =>
    obtain ⟨first, others⟩ := List.nodup_cons.mp distinct
    have later := writeStore_bind_ok run
    have kept : ∀ x ∈ rest, (s.store.putSynapse (node.rescaled total r)).getSynapse x.id = some x := by
      intro x hx
      rw [MemoryStore.getSynapse_put_other]
      · exact listed x (List.mem_cons_of_mem r hx)
      · intro same
        exact first (List.mem_map.mpr ⟨x, hx, same⟩)
    rw [ih (s := s.stored (s.store.putSynapse (node.rescaled total r))) others kept later]
    rw [NodeState.stored_store, List.map_cons]
    by_cases here : id = r.id
    · subst here
      have written : (s.store.putSynapse (node.rescaled total r)).getSynapse r.id =
          some (node.rescaled total r) :=
        MemoryStore.getSynapse_put_same s.store (node.rescaled total r)
      rw [if_neg first, written, if_pos List.mem_cons_self, listed r List.mem_cons_self]
      rfl
    · have other : (s.store.putSynapse (node.rescaled total r)).getSynapse id =
          s.store.getSynapse id := MemoryStore.getSynapse_put_other here
      rw [other]
      simp only [List.mem_cons, here, false_or]

theorem normalize_ok (filed : Filed s.store) {factor : Option F}
    (run : node.normalizeOutboundWeights.run s = (.ok factor, t)) (id : SynapseId) :
    t.store.getSynapse id = (s.store.getSynapse id).map (node.normalised s.store) := by
  obtain ⟨records, u, read, later⟩ := Prog.run_bind_eq_ok.mp run
  obtain ⟨-, rfl, rfl⟩ := callStore_eq_ok.mp read
  have listed : ∀ r, s.store.getSynapse id = some r → r ∈ s.store.listSynapses {} := fun r found =>
    (listSynapses_perm s.store).mem_iff.mpr (MemoryStore.mem_values_of_getSynapse found)
  dsimp only at later
  split at later
  · -- Nothing is stored.
    rename_i empty
    obtain ⟨-, rfl⟩ := Prod.mk.inj later
    cases found : s.store.getSynapse id with
    | none => exact found
    | some r =>
      have here := listed r found
      rw [List.isEmpty_iff.mp empty] at here
      cases here
  · unfold normalizeOutbound at later
    dsimp only at later
    split_ifs at later with fits
    · obtain ⟨-, rfl⟩ := Prod.mk.inj later
      have same : node.normalised s.store = fun r => r := funext fun r => if_neg (not_not.mpr fits)
      rw [same, Option.map_id']
      rfl
    · have same : node.normalised s.store = node.rescaled (Node.outboundTotal s.store) :=
        funext fun r => if_pos fits
      dsimp only at later
      rw [List.map_map, ← List.map_prod_left_eq_zip] at later
      obtain ⟨_, v, loop, returned⟩ := Prog.run_bind_eq_ok.mp later
      obtain ⟨-, rfl⟩ := Prod.mk.inj returned
      rw [same]
      have rewritten := rescale_ok (s := s.stored s.store) _ (Node.listSynapses_nodup filed)
        (fun r hr => filed.find (Node.mem_listSynapses hr).1) loop id
      rw [rewritten]
      split_ifs with here
      · rfl
      · cases found : s.store.getSynapse id with
        | none => exact found
        | some r =>
          refine absurd ?_ here
          rw [← filed id r found]
          exact List.mem_map_of_mem (listed r found)

end Normalise

section Tables

variable {st st' : MemoryStore F}

omit [Scalar F] in
theorem values_perm {f : SynapseRecord F → SynapseRecord F}
    (same : ∀ id, st'.getSynapse id = (st.getSynapse id).map f) :
    st'.synapses.values.Perm (st.synapses.values.map f) := by
  have entries : st'.synapses.entries.Perm (HashMap.mapValues f st.synapses).entries := by
    apply List.lookup_ext st'.synapses.nodupKeys (HashMap.mapValues f st.synapses).nodupKeys
    intro id r
    have here := same id
    unfold MemoryStore.getSynapse at here
    rw [← HashMap.lookup_mapValues] at here
    unfold AList.lookup at here
    rw [here]
  have mapped : (HashMap.mapValues f st.synapses).values = st.synapses.values.map f := by
    unfold HashMap.values HashMap.mapValues
    simp
  rw [← mapped]
  exact entries.map Sigma.snd

omit [Scalar F] in
theorem sum_live_pruned (st : MemoryStore F) (g : SynapseRecord F → ℝ) :
    (st.live.map g).sum + (st.pruned.map g).sum = (st.synapses.values.map g).sum := by
  have split : (st.pruned ++ st.live).Perm st.synapses.values := by
    have parts := List.filter_append_perm (fun r => decide (r.state = .pruned)) st.synapses.values
    simpa [MemoryStore.live, MemoryStore.pruned] using parts
  rw [← (split.map g).sum_eq, List.map_append, List.sum_append, add_comm]

omit [Scalar F] in
theorem live_perm {f : SynapseRecord F → SynapseRecord F} (state : ∀ r, (f r).state = r.state)
    (same : ∀ id, st'.getSynapse id = (st.getSynapse id).map f) :
    st'.live.Perm (st.live.map f) := by
  have kept : (st.synapses.values.map f).filter (fun r => decide (r.state ≠ .pruned)) =
      st.live.map f := by
    rw [List.filter_map]
    unfold MemoryStore.live
    congr 2
    funext r
    simp [state]
  rw [← kept]
  exact (values_perm same).filter _

variable {node : Node F}

theorem normalised_state (r : SynapseRecord F) : (node.normalised st r).state = r.state := by
  unfold Node.normalised
  split_ifs
  · rfl
  · rfl

variable [ExactDivision F]

theorem toReal_outboundTotal (st : MemoryStore F) :
    toReal (Node.outboundTotal st) = (st.synapses.values.map fun r => toReal r.weight).sum := by
  unfold Node.outboundTotal
  rw [toReal_sum, List.map_map]
  exact ((listSynapses_perm st).map _).sum_eq

theorem toReal_liveTotal (st : MemoryStore F) :
    toReal st.liveTotal = (st.live.map fun r => toReal r.weight).sum := by
  unfold MemoryStore.liveTotal
  rw [toReal_sum, List.map_map]
  rfl

theorem toReal_rescaled (total : F) (r : SynapseRecord F) :
    toReal (node.rescaled total r).weight =
      toReal (max 0 (node.config.learning.minWeight - node.scaled total r)) +
        toReal (node.scaled total r) := by
  have floored : (node.rescaled total r).weight =
      max (node.scaled total r) node.config.learning.minWeight := rfl
  rw [floored, toReal_max, toReal_max, toReal_sub, toReal_zero,
    ← max_add_add_right, zero_add, sub_add_cancel]

/-- What normalisation leaves is within the budget if and only if the floor lifts the live weights by no
more than the slack. -/
theorem normalised_within_iff
    (same : ∀ id, st'.getSynapse id = (st.getSynapse id).map (node.normalised st)) :
    st'.liveTotal ≤ node.config.learning.maxTotalOutboundWeight ↔ node.lift st ≤ node.slack st := by
  have after : toReal st'.liveTotal =
      (st.live.map fun r => toReal (node.normalised st r).weight).sum := by
    rw [toReal_liveTotal, ((live_perm normalised_state same).map _).sum_eq, List.map_map]
    rfl
  have total := toReal_outboundTotal st
  refine (toReal_le (F := F)).symm.trans (Iff.trans ?_ (toReal_le (F := F)))
  rw [after]
  unfold Node.lift Node.slack Node.normalised
  by_cases exceeds : node.Exceeds st
  · simp only [if_pos exceeds]
    rw [toReal_sum, toReal_sum, List.map_map, List.map_map]
    simp only [Function.comp_def]
    -- Scaling alone comes to the budget.
    have positive : toReal (Node.outboundTotal st) ≠ 0 := by
      intro zero
      refine exceeds (Or.inr ?_)
      rw [← toReal_le, toReal_zero, zero]
    have scaled : (st.live.map fun r => toReal (node.scaled (Node.outboundTotal st) r)).sum +
        (st.pruned.map fun r => toReal (node.scaled (Node.outboundTotal st) r)).sum =
          toReal node.config.learning.maxTotalOutboundWeight := by
      rw [sum_live_pruned]
      unfold Node.scaled
      simp only [toReal_mul, ExactDivision.toReal_div]
      rw [List.sum_map_mul_right, ← total, mul_div_cancel₀ _ positive]
    have lifted : (st.live.map fun r => toReal (node.rescaled (Node.outboundTotal st) r).weight).sum =
        (st.live.map fun r => toReal (max 0 (node.config.learning.minWeight -
          node.scaled (Node.outboundTotal st) r))).sum +
        (st.live.map fun r => toReal (node.scaled (Node.outboundTotal st) r)).sum := by
      rw [← List.sum_map_add]
      simp only [toReal_rescaled]
    constructor
    · intro within
      linarith
    · intro within
      linarith
  · simp only [if_neg exceeds]
    rw [← sum_live_pruned] at total
    rw [toReal_zero, toReal_add, toReal_sub, toReal_sum, List.map_map, total]
    simp only [Function.comp_def]
    constructor
    · intro within
      linarith
    · intro within
      linarith

end Tables

def Settlement.Completes (node : Node F) (nowNs : ℕ) (x : Settlement F) : Prop :=
  ∃ update t, (node.updateSynapse x.entry x.outcome nowNs).run x.state = (.ok update, t)

def Moment.lastNormalised (node : Node F) (m : Moment F) : Option (MemoryStore F) :=
  ((m.settlements node).filterMap (Settlement.table node m.before.clock)).getLast?

section Completion

variable {node : Node F} {nowNs : ℕ} {s : NodeState F}

theorem settled_result {id : JournalId} {outcome : Outcome} {x : Settlement F}
    (here : x ∈ Node.settled id outcome nowNs s) :
    (node.settle id outcome nowNs).run s =
      (((node.updateSynapse x.entry x.outcome nowNs).run x.state).1.map some,
        ((node.updateSynapse x.entry x.outcome nowNs).run x.state).2) := by
  unfold Node.settled at here
  rcases resolved : (callStore fun st => st.resolveDecision id outcome nowNs).run s with
    ⟨e | found, t⟩
  · rw [resolved] at here
    cases here
  · have goes : (node.settle id outcome nowNs).run s =
        (node.learnIfResolvedNow found outcome nowNs).run t := Prog.run_bind_ok resolved
    rw [resolved] at here
    cases found with
    | none => cases here
    | some entry =>
      dsimp only at here
      split_ifs at here with now
      · rw [List.mem_singleton.mp here, goes]
        unfold Node.learnIfResolvedNow
        dsimp only
        rw [if_pos now, Prog.run_map]
        rfl
      · cases here

theorem settle_completes {id : JournalId} {outcome : Outcome} {u : Option (WeightUpdate F)}
    {t : NodeState F} (run : (node.settle id outcome nowNs).run s = (.ok u, t)) :
    ∀ x ∈ Node.settled id outcome nowNs s, x.Completes node nowNs := by
  intro x here
  have result := (settled_result here).symm.trans run
  rcases update : (node.updateSynapse x.entry x.outcome nowNs).run x.state with ⟨e | u, v⟩
  · rw [update] at result
    cases result
  · exact ⟨u, v, update⟩

theorem sweep_completes {expired : List (JournalEntry F)} {count n : ℕ} {t : NodeState F}
    (run : (expired.foldlM (fun n e => (n + ·) <$> node.sweepOne nowNs e) count).run s =
      (.ok n, t)) :
    ∀ x ∈ node.sweepSettled nowNs expired s, x.Completes node nowNs := by
  induction expired generalizing count s with
  | nil =>
    intro x here
    cases here
  | cons e rest ih =>
    rw [List.foldlM_cons] at run
    obtain ⟨k, u, first, later⟩ := Prog.run_bind_eq_ok.mp run
    rw [Prog.run_map] at first
    rcases one : (node.sweepOne nowNs e).run s with ⟨x | j, v⟩
    · rw [one] at first
      cases first
    · rw [one] at first
      obtain ⟨-, rfl⟩ := Prod.mk.inj first
      intro x here
      rw [Node.sweepSettled, one] at here
      rcases List.mem_append.mp here with here | here
      · unfold Node.sweepOne at one
        cases named : e.id with
        | none =>
          rw [named] at here
          cases here
        | some id =>
          rw [named] at here one
          obtain ⟨learned, w, settled, -⟩ := Prog.run_bind_eq_ok.mp one
          exact settle_completes settled x here
      · exact ih later x here

theorem settlements_complete {m : Moment F} (performed : m.Performed node) {r : Reply F}
    (ok : m.reply = .ok r) : ∀ x ∈ m.settlements node, x.Completes node m.before.clock := by
  have run : (node.perform m.call).run m.before = (.ok r, m.after) := by
    rw [← ok]
    exact performed
  by_cases learns : m.call.Learns
  · unfold Moment.settlements
    generalize m.call = call at learns run
    unfold Node.perform at run
    cases learns with
    | forward id =>
      rw [Prog.run_map] at run
      rcases settled : (node.settle id .transportFailure m.before.clock).run m.before with ⟨e | u, t⟩
      · have failed : (node.failForward id).run m.before = (.error e, t) := settled
        rw [failed] at run
        cases run
      · exact settle_completes settled
    | receipt receipt peer =>
      rw [Prog.run_map] at run
      rcases applied : (node.applyReceipt receipt peer).run m.before with ⟨e | u, t⟩
      · rw [applied] at run
        cases run
      · obtain ⟨pending, v, read, later⟩ := Prog.run_bind_eq_ok.mp
          ((now_bind_run _ _).symm.trans applied)
        dsimp only
        rw [read]
        dsimp only
        cases named : pending.bind JournalEntry.id with
        | none =>
          intro x here
          cases here
        | some id =>
          rw [named] at later
          exact settle_completes later
    | sweep limit =>
      rw [Prog.run_map] at run
      rcases swept : (node.sweepTimeouts limit).run m.before with ⟨e | n, t⟩
      · rw [swept] at run
        cases run
      · obtain ⟨expired, v, read, later⟩ := Prog.run_bind_eq_ok.mp
          ((now_bind_run _ _).symm.trans swept)
        dsimp only
        rw [read]
        exact sweep_completes later
  · intro x here
    rw [settlements_nil learns] at here
    cases here

end Completion

section Budget

variable {node : Node F} {nowNs : ℕ}

theorem normalised_congr {st st' : MemoryStore F} (same : st'.synapses = st.synapses) :
    node.normalised st' = node.normalised st := by
  have list := MemoryStore.listSynapses_congr same {}
  have total : Node.outboundTotal st' = Node.outboundTotal st := by
    unfold Node.outboundTotal
    rw [list]
  have exceeds : node.Exceeds st' ↔ node.Exceeds st := by
    unfold Node.Exceeds
    rw [total]
  funext r
  unfold Node.normalised
  simp only [exceeds, total]

theorem update_completes {x : Settlement F} (filed : Filed x.state.store) {u : WeightUpdate F}
    {t : NodeState F}
    (run : (node.updateSynapse x.entry x.outcome nowNs).run x.state = (.ok u, t)) :
    (x.table node nowNs = none ∧ t.store.synapses = x.state.store.synapses) ∨
    ∃ st, x.table node nowNs = some st ∧
      ∀ id, t.store.getSynapse id = (st.getSynapse id).map (node.normalised st) := by
  rw [Node.updateSynapse_eq] at run
  obtain ⟨weighed, v, first, later⟩ := Prog.run_bind_eq_ok.mp run
  have weighing := node.weighIn_ends x.entry x.outcome nowNs x.state
  rw [first] at weighing
  unfold Settlement.table
  cases weighing with
  | missing missing same =>
    obtain ⟨-, rfl⟩ := Prod.mk.inj later
    refine Or.inl ⟨?_, by rw [same]⟩
    rw [missing]
    rfl
  | @written _ r found synapses influence =>
    obtain ⟨factor, w, normalises, returned⟩ := Prog.run_bind_eq_ok.mp later
    obtain ⟨-, rfl⟩ := Prod.mk.inj returned
    refine Or.inr ⟨_, by rw [found]; rfl, fun id => ?_⟩
    rw [normalize_ok ((filed.put _).of_same synapses) normalises,
      MemoryStore.getSynapse_congr synapses, normalised_congr synapses]

def LeftBy (node : Node F) (nowNs : ℕ) (done : List (Settlement F)) (st' : MemoryStore F) : Prop :=
  ∀ st, (done.filterMap (Settlement.table node nowNs)).getLast? = some st →
    ∀ id, st'.getSynapse id = (st.getSynapse id).map (node.normalised st)

theorem call_leaves {m : Moment F} (performed : m.Performed node) (filed : Filed m.before.store)
    {reply : Reply F} (ok : m.reply = .ok reply) {st : MemoryStore F}
    (updated : m.lastNormalised node = some st) (id : SynapseId) :
    m.after.store.getSynapse id = (st.getSynapse id).map (node.normalised st) := by
  have learns : m.call.Learns := by
    by_contra other
    unfold Moment.lastNormalised at updated
    rw [settlements_nil other] at updated
    cases updated
  have complete := settlements_complete performed ok
  refine (moment_settles performed (I := fun done s =>
    (∀ x ∈ done, x.Completes node m.before.clock) →
      Filed s.store ∧ LeftBy node m.before.clock done s.store) ?_ (fun _ both => both) learns
    (fun _ => ⟨filed, fun st none => (by cases none)⟩) complete).2 st updated id
  intro journalId outcome done s ih completes
  obtain ⟨filed, left⟩ := ih fun x hx => completes x (List.mem_append_left _ hx)
  refine ⟨Node.settle_filed filed journalId outcome _, ?_⟩
  rcases node.settle_cases journalId outcome m.before.clock s with ⟨none, after⟩ | ⟨x, one, by'⟩
  · rw [none, after, List.append_nil]
    exact left
  · obtain ⟨u, t, run⟩ := completes x (by simp [one])
    rw [one, by'.after, run]
    intro st last id
    rw [List.filterMap_append] at last
    rcases update_completes (filed.of_same by'.synapses) run with ⟨missing, same⟩ |
      ⟨st', table, normalised⟩
    · simp only [List.filterMap_cons, missing, List.filterMap_nil, List.append_nil] at last
      rw [MemoryStore.getSynapse_congr (same.trans by'.synapses)]
      exact left st last id
    · simp only [List.filterMap_cons, table, List.filterMap_nil, List.getLast?_concat] at last
      obtain rfl := Option.some.inj last
      exact normalised id

/-- After a call that updated a synapse and returned, the live weights are within the budget if and
only if the floor lifts the table it normalised last by no more than the slack there. -/
theorem outbound_within_budget_iff [ExactDivision F] {ms : List (Moment F)} {s : NodeState F}
    (run : NodeRun node ms s) {m : Moment F} (here : m ∈ ms) {reply : Reply F}
    (ok : m.reply = .ok reply) {st : MemoryStore F} (updated : m.lastNormalised node = some st) :
    m.after.store.liveTotal ≤ node.config.learning.maxTotalOutboundWeight ↔
      node.lift st ≤ node.slack st :=
  normalised_within_iff (call_leaves (run.performed m here) (run.filed.2 m here) ok updated)

end Budget

def highFloor : NodeSettings ℚ :=
  { NodeSettings.forClass .edge with
    synapse := { SynapseConfig.default with initialWeight := 1 / 2 }
    learning := { LearningConfig.forClass .edge with
      minWeight := 1 / 2, maxTotalOutboundWeight := 11 / 10 } }

theorem highFloor_checked : highFloor.validate ["classical-v1"] = .ok () := by
  rw [NodeSettings.validate_iff]
  obtain ⟨activation, -, propagation, crypto, -⟩ :=
    (NodeSettings.validate_iff _ _).mp (NodeSettings.validate_forClass .edge)
  refine ⟨activation, ?_, propagation, crypto, ?_⟩
  · norm_num [highFloor, LearningConfig.forClass, LearningConfig.validate, Scalar.lit]
  · norm_num [highFloor, SynapseConfig.default, LearningConfig.forClass, Scalar.lit]

def flooredNode : Node ℚ := ⟨⟨[0]⟩, highFloor.toNodeConfig⟩

/-- The moments of a run of these calls, each at a millisecond of its own. -/
def runOf (node : Node ℚ) (s : NodeState ℚ) (clock : ℕ) :
    List (Call ℚ) → List (Moment ℚ) × NodeState ℚ
  | [] => ([], s)
  | call :: rest =>
    let m := node.momentAt call { s with clock := clock, faults := [] }
    let (ms, t) := runOf node m.after (clock + 1000000) rest
    (m :: ms, t)

theorem runOf_run {node : Node ℚ} {ms : List (Moment ℚ)} {s : NodeState ℚ}
    (run : NodeRun node ms s) (clock : ℕ) (calls : List (Call ℚ)) :
    NodeRun node (ms ++ (runOf node s clock calls).1) (runOf node s clock calls).2 := by
  induction calls generalizing ms s clock with
  | nil =>
    rw [runOf, List.append_nil]
    exact run
  | cons call rest ih =>
    have later := ih (run.next call clock []) (clock + 1000000)
    rw [List.append_assoc] at later
    exact later

def crowding : List (Call ℚ) :=
  [.upsertSynapse neighbour, .upsertSynapse ⟨[2]⟩, .upsertSynapse ⟨[3]⟩, .receiveLocal direct,
    .failForward ⟨1⟩]

def crowded : List (Moment ℚ) × NodeState ℚ :=
  runOf flooredNode (flooredNode.build .new .maximal 0 []) 0 crowding

theorem crowded_run : NodeRun flooredNode crowded.1 crowded.2 :=
  runOf_run (NodeRun.start .maximal 0 [] : NodeRun flooredNode [] _) 0 crowding

/-- A failed transmission is weighed in and the call returns, with the weights over the budget. -/
theorem floor_exceeds_budget :
    highFloor.validate ["classical-v1"] = .ok () ∧ NodeRun flooredNode crowded.1 crowded.2 ∧
    ∃ m, crowded.1[4]? = some m ∧ m.call = .failForward ⟨1⟩ ∧ m.reply.isOk = true ∧
      (m.lastNormalised flooredNode).isSome = true ∧ m.after.store.liveTotal = 3 / 2 ∧
      flooredNode.config.learning.maxTotalOutboundWeight = 11 / 10 := by
  refine ⟨highFloor_checked, crowded_run, _, rfl, rfl, ?_, ?_, ?_, ?_⟩
  · decide +kernel
  · decide +kernel
  · decide +kernel
  · decide +kernel

def uncrowding : List (Call ℚ) :=
  [.upsertSynapse neighbour, .upsertSynapse ⟨[2]⟩, .receiveLocal direct, .failForward ⟨1⟩]

def uncrowded : List (Moment ℚ) × NodeState ℚ :=
  runOf edgeNode (edgeNode.build .new .maximal 0 []) 0 uncrowding

theorem uncrowded_run : NodeRun edgeNode uncrowded.1 uncrowded.2 :=
  runOf_run (NodeRun.start .maximal 0 [] : NodeRun edgeNode [] _) 0 uncrowding

theorem uncrowded_within_budget :
    ∃ m, uncrowded.1[3]? = some m ∧ m.after.store.liveTotal ≤
      edgeNode.config.learning.maxTotalOutboundWeight := by
  have last : uncrowded.1[3]? = some (uncrowded.1.getD 3 connected) := rfl
  have ok : (uncrowded.1.getD 3 connected).reply.isOk = true := by decide +kernel
  have within : ((uncrowded.1.getD 3 connected).lastNormalised edgeNode).any
      (fun st => decide (edgeNode.lift st ≤ edgeNode.slack st)) = true := by decide +kernel
  refine ⟨_, last, ?_⟩
  obtain ⟨st, updated, fits⟩ := (Option.any_eq_true _ _).mp within
  cases reply : (uncrowded.1.getD 3 connected).reply with
  | error e =>
    rw [reply] at ok
    cases ok
  | ok r =>
    refine (outbound_within_budget_iff uncrowded_run (List.mem_of_getElem? last) reply updated).mpr ?_
    exact of_decide_eq_true fits

end OpenNtl
