import OpenNtl.ReleaseTiming
import OpenNtl.SynapseWrites

/-! # Signals that end at this node

A flood at its depth and a signal meant for this node go no further. Planning finds no way on
for the first, and knows nothing of the second.
-/
namespace OpenNtl

open AtomicProgram NodeM RuntimeM

variable {F : Type} [Scalar F]

namespace Node

variable (node : Node F) (signal : Signal F) (arrival : Option SynapseId)

def ReleasedOnArrival (s : NodeState F) : Prop :=
  ∃ nowNs admitted t, (node.admission signal arrival).run s = (.ok (.inr (nowNs, admitted)), t) ∧
    (∀ q ∈ admitted.dropped, q.id ≠ signal.id) ∧ FiredHere signal admitted

/-- The arrival is handled here, is not refused, and goes nowhere else. -/
structure HandledOnly (d : Disposition F) : Prop where
  handled : ∃ q ∈ d.handleLocally, q.id = signal.id
  accepted : d.rejected = none
  quiet : d.receipt = none
  nowhere : d.forwardTo = []

def admissionCalls (arrival : Option SynapseId) : ℕ :=
  match arrival with
  | none => 1
  | some _ => 2

theorem arrivalWeight_faults (s : NodeState F) :
    ((arrivalWeight arrival).run s).2.faults = s.faults.drop (admissionCalls arrival - 1) := by
  cases arrival with
  | none => rfl
  | some id =>
    have used : ((arrivalWeight (some id)).run s).2.faults = s.faults.tail := by
      cases fault : nextFault s with
      | some f => simp [arrivalWeight, tryStore, Prog.run_bind, fault]
      | none =>
        cases found : s.store.getSynapse id <;>
          simp [arrivalWeight, tryStore, Prog.run_bind, fault, found]
    rw [used, ← List.drop_one]
    rfl

theorem admission_admitted {s t : NodeState F} {nowNs : ℕ} {admitted : AdmitOutcome F}
    (run : (node.admission signal arrival).run s = (.ok (.inr (nowNs, admitted)), t)) :
    nowNs = s.clock ∧ t.store = node.claimed signal s ∧
      t.faults = s.faults.drop (admissionCalls arrival) := by
  have spec := node.admission_spec signal arrival s
  rw [run] at spec
  have faults : t.faults = s.faults.drop (admissionCalls arrival) := by
    obtain ⟨seen, u, claim, later⟩ := Prog.run_bind_eq_ok.mp (show ((callStore fun st =>
      st.checkAndSetSeen signal.id s.clock node.config.propagation.dedupCacheSeconds) >>=
        fun seen => _).run s = _ from run)
    obtain ⟨-, -, rfl⟩ := callStore_eq_ok.mp claim
    split at later
    · cases later
    · split at later
      · cases later
      · obtain ⟨weight, v, lookup, gate⟩ := Prog.run_bind_eq_ok.mp later
        have used := arrivalWeight_faults arrival (s.stored (node.claimed signal s))
        have same : (s.stored (node.claimed signal s)).faults = s.faults.drop 1 := by
          rw [NodeState.stored_faults, List.drop_one]
        have left : t.faults = v.faults := by
          obtain ⟨-, rfl⟩ := Prod.mk.inj gate
          rfl
        rw [same, List.drop_drop] at used
        rw [left, ← congrArg (fun r => r.2.faults) lookup]
        refine used.trans (congrArg (fun n => s.faults.drop n) ?_)
        cases arrival <;> rfl
  cases spec with
  | admitted fault fresh check weight faults' => exact ⟨rfl, rfl, faults⟩

/-- How a released arrival comes out of `receive`, by the plan that is made for it. -/
theorem receive_released {s : NodeState F} (released : node.ReleasedOnArrival signal arrival s) :
    ∃ t, t.store = node.claimed signal s ∧ t.faults = s.faults.drop (admissionCalls arrival) ∧
      (∀ e u, (node.planForwarding signal arrival s.clock).run t = (.error e, u) →
        (node.receive signal arrival).run s = (.error e, u)) ∧
      ∀ forwards u, (node.planForwarding signal arrival s.clock).run t = (.ok forwards, u) →
        ∃ d, (node.receive signal arrival).run s = (.ok d, u) ∧
          (forwards = [] ∧ signal.requiresReceipt = true ∧ d.rejected = some .noRoute ∨
            (forwards = [] → signal.requiresReceipt = false) ∧
            (∃ q ∈ d.handleLocally, q.id = signal.id) ∧ d.rejected = none ∧ d.receipt = none ∧
            d.forwardTo = forwards) := by
  obtain ⟨nowNs, admitted, t, run, other, fired⟩ := released
  obtain ⟨rfl, store, faults⟩ := node.admission_admitted signal arrival run
  have next : (node.receive signal arrival).run s = _ := Prog.run_bind_ok run
  have disposal := node.afterAdmission_spec signal arrival s.clock admitted t
  refine ⟨t, store, faults, ?_⟩
  rw [next]
  generalize ((node.afterAdmission signal arrival s.clock admitted).run t) = result at disposal ⊢
  cases disposal with
  | shed itself reason =>
    obtain ⟨q, hq, same⟩ := itself
    exact absurd same (other q hq)
  | held _ stays evicted same => exact absurd fired stays
  | unplanned _ _ plan =>
    rw [plan]
    constructor
    · rintro e u same
      obtain ⟨failure, rfl⟩ := Prod.mk.inj same
      obtain rfl := Except.error.inj failure
      rfl
    · rintro forwards u same
      cases same
  | routeless _ _ plan owed evicted same =>
    rw [plan]
    constructor
    · rintro e u same
      cases same
    · rintro forwards u same
      cases same
      exact ⟨_, rfl, Or.inl ⟨rfl, owed, rfl⟩⟩
  | released _ _ plan routed evicted same =>
    rw [plan]
    constructor
    · rintro e u same
      cases same
    · rintro forwards u same
      cases same
      exact ⟨_, rfl, Or.inr ⟨routed, fired, rfl, rfl, rfl⟩⟩

end Node

omit [Scalar F] in
theorem requiresReceipt_eq_false {signal : Signal F} :
    signal.requiresReceipt = false ↔ signal.delivery = .bestEffort := by
  unfold Signal.requiresReceipt
  cases signal.delivery <;> simp [DeliveryClass.requiresReceipt]

/-- A spent flood that the gate lets out is handled here and goes no further exactly when it is
best-effort. -/
theorem spent_flood_handled_iff (node : Node F) {signal : Signal F} {maxHops : ℕ}
    (flood : signal.scope = .flood maxHops) (spent : maxHops ≤ signal.trace.length)
    {arrival : Option SynapseId} {s : NodeState F}
    (released : node.ReleasedOnArrival signal arrival s) :
    (∃ d t, (node.receive signal arrival).run s = (.ok d, t) ∧ Node.HandledOnly signal d) ↔
      signal.delivery = .bestEffort := by
  have deep : floodDepthReached signal = true := by
    unfold floodDepthReached
    rw [flood]
    exact decide_eq_true spent
  obtain ⟨t, -, -, -, planned⟩ := node.receive_released signal arrival released
  have plan : (node.planForwarding signal arrival s.clock).run t = (.ok [], t) := by
    unfold Node.planForwarding
    rw [if_pos deep]
    rfl
  rw [← requiresReceipt_eq_false]
  obtain ⟨d, handled, ⟨-, owed, noRoute⟩ | ⟨routed, here, accepted, quiet, same⟩⟩ :=
    planned [] t plan
  · constructor
    · rintro ⟨d', t', result, only⟩
      rw [handled] at result
      obtain rfl := Except.ok.inj (Prod.mk.inj result).1
      rw [only.accepted] at noRoute
      cases noRoute
    · intro free
      rw [free] at owed
      cases owed
  · constructor
    · intro _
      exact routed rfl
    · intro _
      exact ⟨d, t, handled, here, accepted, quiet, same⟩

section SpentFlood

def spentFlood : Signal ℚ := { unroutable with scope := .flood 1 }

def spentProbe : Signal ℚ := { spentFlood with delivery := .bestEffort }

def idleEdge : NodeState ℚ := edgeNode.build .new .maximal 0 []

theorem released_at_once {signal : Signal ℚ} {s : NodeState ℚ} (fault : nextFault s = none)
    (fresh : ¬ HasLiveClaim s signal.id)
    (check : checkPropagable signal edgeNode.identity edgeNode.config.propagation = .ok ())
    (kept : ∀ q ∈ (Node.offered signal s 1).1.dropped, q.id ≠ signal.id)
    (fired : Node.FiredHere signal (Node.offered signal s 1).1) :
    edgeNode.ReleasedOnArrival signal none s :=
  ⟨_, _, _, edgeNode.admission_passed signal fault fresh check, kept, fired⟩

theorem spent_flood_refused :
    edgeNode.ReleasedOnArrival spentFlood none idleEdge ∧
    ((edgeNode.receive spentFlood none).run idleEdge).1.toOption.bind Disposition.rejected =
      some .noRoute ∧
    ¬ ∀ (node : Node ℚ) (signal : Signal ℚ) (maxHops : ℕ) (arrival : Option SynapseId)
      (s : NodeState ℚ), signal.scope = .flood maxHops → maxHops ≤ signal.trace.length →
      node.ReleasedOnArrival signal arrival s →
      ∃ d t, (node.receive signal arrival).run s = (.ok d, t) ∧ Node.HandledOnly signal d := by
  have released : edgeNode.ReleasedOnArrival spentFlood none idleEdge :=
    released_at_once rfl (by decide +kernel) (by decide +kernel) (by decide +kernel)
      (by decide +kernel)
  have refused : ((edgeNode.receive spentFlood none).run idleEdge).1.toOption.bind
      Disposition.rejected = some .noRoute := by decide +kernel
  refine ⟨released, refused, fun always => ?_⟩
  obtain ⟨d, t, result, only⟩ := always edgeNode spentFlood 1 none idleEdge rfl (by decide) released
  rw [result] at refused
  have noRoute : d.rejected = some .noRoute := refused
  rw [only.accepted] at noRoute
  cases noRoute

theorem spent_probe_handled :
    (∃ d t, (edgeNode.receive spentProbe none).run idleEdge = (.ok d, t) ∧
      Node.HandledOnly spentProbe d) ↔ spentProbe.delivery = .bestEffort :=
  @spent_flood_handled_iff ℚ _ edgeNode spentProbe 1 rfl (by decide)
    none idleEdge (released_at_once rfl (by decide +kernel) (by decide +kernel)
      (by decide +kernel) (by decide +kernel))

end SpentFlood

namespace Node

variable (node : Node F) {signal : Signal F} {destination : NodeId}

/-- The one way on for a targeted signal is a synapse other than the one it came in on. -/
theorem onward_targeted_nil_iff (targeted : signal.scope = .targeted destination)
    (arrival : Option SynapseId) (nowNs : ℕ) (st : MemoryStore F) (rng : Rng) :
    node.onward signal arrival nowNs st rng = [] ↔
      ∀ r ∈ st.listSynapses .eligible, arrival = some r.id := by
  have shallow : floodDepthReached signal = false := by
    unfold floodDepthReached
    rw [targeted]
  have found := node.onward_ne_nil_iff signal arrival nowNs st rng
  rw [targeted] at found
  constructor
  · intro none r listed
    by_contra other
    refine found.mpr ⟨shallow, ⟨r, listed, ?_⟩, trivial⟩ none
    exact (isEligible_iff _ _ _).mpr ⟨(mem_eligible.mp listed).2, other, by simp⟩
  · intro same
    by_contra some
    obtain ⟨-, ⟨r, listed, carries⟩, -⟩ := found.mp some
    exact ((isEligible_iff _ _ _).mp carries).2.1 (same r listed)

theorem planForwarding_targeted (targeted : signal.scope = .targeted destination)
    (arrival : Option SynapseId) (nowNs : ℕ) (s : NodeState F) :
    (node.onward signal arrival nowNs s.store s.rng = [] ∧ StoreAnswers s 1 ∧
      ∃ t, (node.planForwarding signal arrival nowNs).run s = (.ok [], t) ∧ t.store = s.store) ∨
    (node.onward signal arrival nowNs s.store s.rng ≠ [] ∧ StoreAnswers s 2 ∧
      ∃ f t, (node.planForwarding signal arrival nowNs).run s = (.ok [f], t)) ∨
    (¬ StoreAnswers s 2 ∧
      (node.onward signal arrival nowNs s.store s.rng = [] → ¬ StoreAnswers s 1) ∧
      ∃ e t, (node.planForwarding signal arrival nowNs).run s = (.error e, t) ∧
        t.store = s.store) := by
  have shallow : ¬ floodDepthReached signal = true := by
    unfold floodDepthReached
    rw [targeted]
    exact Bool.false_ne_true
  have one := storeAnswers_succ (s := s) (n := 0) s.store
  have two := storeAnswers_succ (s := s) (n := 1) s.store
  unfold planForwarding onward
  rw [if_neg shallow, if_neg shallow]
  cases fault : nextFault s with
  | some f =>
    rw [fault] at one two
    refine Or.inr (Or.inr ⟨fun answers => ?_, fun _ answers => ?_, _, _,
      Prog.run_bind_error (readStore_run_error fault), rfl⟩)
    · cases (two.mp answers).1
    · cases (one.mp answers).1
  | none =>
    rw [Prog.run_bind_ok (readStore_run_ok fault)]
    by_cases empty : (s.store.listSynapses .eligible).isEmpty = true
    · refine Or.inl ⟨?_, one.mpr ⟨fault, storeAnswers_zero _⟩, s.stored s.store, ?_, rfl⟩
      · rw [List.isEmpty_iff.mp empty]
        rfl
      · rw [if_pos empty]
        rfl
    · rw [if_neg empty, withRng_bind_run, NodeState.stored_rng]
      have few := (selectSynapses_spec ((s.store.listSynapses .eligible).map
        (node.rehydrate nowNs)) signal.scope (signalTypeNameOf signal.signalType) arrival
        node.config.propagation node.config.learning nowNs s.rng)
      rw [targeted] at few ⊢
      replace few := few.length_of_targeted
      generalize selectSynapses ((s.store.listSynapses .eligible).map
        (node.rehydrate nowNs)) (.targeted destination) (signalTypeNameOf signal.signalType)
        arrival node.config.propagation node.config.learning nowNs s.rng = drawn at few ⊢
      obtain ⟨chosen, rng⟩ := drawn
      rcases chosen with _ | ⟨c, _ | ⟨c', rest⟩⟩
      · exact Or.inl ⟨rfl, one.mpr ⟨fault, storeAnswers_zero _⟩, _, rfl, rfl⟩
      · have second := storeAnswers_succ (s := { s.stored s.store with rng := rng }) (n := 0) s.store
        rw [List.mapM_cons]
        unfold journalChoice
        rw [Prog.bind_bind]
        cases journalled : nextFault { s.stored s.store with rng := rng } with
        | none =>
          refine Or.inr (Or.inl ⟨List.cons_ne_nil _ _, two.mpr ⟨fault, ?_⟩, ?_⟩)
          · exact second.mpr ⟨journalled, storeAnswers_zero _⟩
          · rw [Prog.run_bind_ok (callStore_run_ok journalled)]
            exact ⟨_, _, rfl⟩
        | some f =>
          rw [journalled] at second
          refine Or.inr (Or.inr ⟨fun answers => ?_, fun none => ?_, _, _,
            Prog.run_bind_error (callStore_run_error journalled), rfl⟩)
          · cases (second.mp (two.mp answers).2).1
          · cases none
      · simp only [List.length_cons] at few
        omega

end Node

def SameJournal {F : Type} (st st' : MemoryStore F) : Prop := st'.journal = st.journal

omit [Scalar F] in
theorem SameJournal.refl (st : MemoryStore F) : SameJournal st st := rfl

omit [Scalar F] in
theorem SameJournal.trans {a b c : MemoryStore F} (h : SameJournal a b) (h' : SameJournal b c) :
    SameJournal a c := Eq.trans h' h

namespace Runtime

variable (rt : Runtime F) (id : SignalId) (body : Signal F) (how : Release)

/-- A release that ends here: it is reported, nobody is chosen or journalled, and an origin that
is owed a receipt learns that the signal was delivered. -/
structure EndsHere (s t : RuntimeState F) : Prop where
  reported : t.events = (reported id body how s).events
  unjournalled : t.node.store.journal = s.node.store.journal
  answered : t.log = s.log ++
    if body.requiresReceipt then [.answered (.delivered id body.hops) body.origin] else []

theorem sendReceiptTo_keeps (receipt : Receipt) (origin : NodeId) (events : List (Event F))
    (journal : List (JournalEntry F)) :
    (rt.sendReceiptTo receipt origin).Keeps fun s =>
      s.events = events ∧ s.node.store.journal = journal := by
  have emits : ∀ builder, (callNode (rt.node.emit builder)).Keeps fun s : RuntimeState F =>
      s.events = events ∧ s.node.store.journal = journal := by
    rintro builder s ⟨told, same⟩
    have claims : (rt.node.emit builder).Within (Quiet SameJournal) :=
      rt.node.emit_claims SameJournal.refl (fun st _ _ _ => st.checkAndSetSeen_journal _ _ _) builder
    have quiet := claims.run (Quiet.refl SameJournal.refl)
      (fun h h' => Quiet.trans (R := SameJournal) SameJournal.trans h h') s.node
    exact ⟨told, Eq.trans quiet.store same⟩
  have makes : (rt.makeReceipt receipt origin).Keeps fun s =>
      s.events = events ∧ s.node.store.journal = journal := by
    refine Prog.Keeps.bind (Prog.Keeps.of_act fun s h => h) fun _ => (emits _).bind fun made => ?_
    cases made with
    | error e => exact Prog.Keeps.of_pure _
    | ok signal => exact Prog.Keeps.of_pure _
  refine makes.bind fun made => ?_
  cases made with
  | none => exact Prog.Keeps.of_pure _
  | some signal => exact Prog.Keeps.of_act fun s h => h

theorem finishRelease_nil (s : RuntimeState F) :
    ((rt.finishRelease id body []).run s).2.events = s.events ∧
      ((rt.finishRelease id body []).run s).2.node.store.journal = s.node.store.journal ∧
      ((rt.finishRelease id body []).run s).2.log = s.log ++
        if body.requiresReceipt then [.answered (.delivered id body.hops) body.origin] else [] := by
  have nobody : (rt.forwardSignal body []).run s = (.ok false, s) := rfl
  unfold finishRelease
  rw [Prog.run_bind_ok nobody]
  by_cases owed : body.requiresReceipt = true
  · rw [if_pos owed, if_pos owed]
    obtain ⟨taken, t, sent, log⟩ :=
      rt.sendReceiptTo_run (releaseReceipt id body [] false) body.origin s
    have kept := rt.sendReceiptTo_keeps (releaseReceipt id body [] false) body.origin s.events
      s.node.store.journal s ⟨rfl, rfl⟩
    rw [sent] at kept
    rw [Prog.run_bind_ok sent]
    exact ⟨kept.1, kept.2, log⟩
  · rw [if_neg owed, if_neg owed, List.append_nil]
    exact ⟨rfl, rfl, rfl⟩

theorem finishRelease_forwarded {forwards : List Forward} (some : forwards ≠ [])
    (s : RuntimeState F) :
    ((rt.finishRelease id body forwards).run s).2.events ≠ s.events := by
  have forwarded : ∃ sent t n explored, (rt.forwardSignal body forwards).run s = (.ok sent, t) ∧
      t.events = s.events ++ [.forwarded body.id n explored] := by
    unfold forwardSignal
    rw [if_neg fun empty => some (List.isEmpty_iff.mp empty)]
    let split := sendAll (rt.outbound body) forwards s.sessions
    obtain ⟨node, recorded⟩ := rt.failForwards_run split.1.2 { s with sessions := split.2 }
    exact ⟨_, _, _, _, Prog.run_bind_ok recorded, rfl⟩
  obtain ⟨sent, t, n, explored, run, told⟩ := forwarded
  have longer : ((rt.finishRelease id body forwards).run s).2.events = t.events := by
    unfold finishRelease
    rw [Prog.run_bind_ok run]
    by_cases owed : body.requiresReceipt = true
    · rw [if_pos owed]
      refine (Prog.Keeps.bind (rt.sendReceiptTo_keeps _ _ t.events t.node.store.journal)
        (fun _ => Prog.Keeps.of_pure _) t ⟨rfl, rfl⟩).1
    · rw [if_neg owed]
      rfl
  rw [longer, told]
  simp

omit [Scalar F] in
theorem lookedUp_store (s : NodeState F) : (lookedUp body s).store = s.store := by
  unfold lookedUp
  cases body.trace.getLast? <;> rfl

theorem releaseSignal_planned_ends (forwards : List Forward) (s : RuntimeState F) :
    EndsHere id body how s ((rt.releaseSignal id (some body) (some forwards) how).run s).2 ↔
      forwards = [] := by
  have run : (rt.releaseSignal id (some body) (some forwards) how).run s =
      (rt.finishRelease id body forwards).run (reported id body how s) :=
    rt.releaseSignal_run id body (some forwards) how s
  rw [run]
  constructor
  · intro ends
    by_contra some
    exact rt.finishRelease_forwarded id body some _ ends.reported
  · rintro rfl
    obtain ⟨events, journal, log⟩ := rt.finishRelease_nil id body (reported id body how s)
    exact ⟨events, journal.trans (congrArg MemoryStore.journal (lookedUp_store body s.node)), log⟩

theorem releaseSignal_unplanned_ends {s : RuntimeState F} {r : Except NodeError (List Forward)}
    {t : NodeState F}
    (plan : (rt.node.planForwarding body (arrivedOver body s.node) (lookedUp body s.node).clock).run
      (lookedUp body s.node) = (r, t)) :
    (r.toOption.getD [] = [] → t.store = s.node.store →
      EndsHere id body how s ((rt.releaseSignal id (some body) none how).run s).2) ∧
    (r.toOption.getD [] ≠ [] →
      ¬ EndsHere id body how s ((rt.releaseSignal id (some body) none how).run s).2) := by
  have planned : (rt.releasePlan body (arrivedOver body s.node) none).run (reported id body how s) =
      (.ok (r.toOption.getD []), { reported id body how s with node := t }) := by
    have next : (rt.releasePlan body (arrivedOver body s.node) none).run (reported id body how s) =
      _ := Prog.run_bind_ok (callNode_run (rt.node.planRelease body (arrivedOver body s.node)) _)
    have same : (rt.node.planRelease body (arrivedOver body s.node)).run
        (reported id body how s).node = (r, t) := plan
    rw [next, same]
    cases r <;> rfl
  rw [rt.releaseSignal_run, Prog.run_bind_ok planned]
  constructor
  · intro none store
    rw [none]
    obtain ⟨events, journal, log⟩ :=
      rt.finishRelease_nil id body { reported id body how s with node := t }
    exact ⟨events, journal.trans (congrArg MemoryStore.journal store), log⟩
  · intro some ends
    exact rt.finishRelease_forwarded id body some _ ends.reported

/-- On its own arrival the signal is handled here only, and its release ends here. -/
def StopsOnArrival (signal : Signal F) (arrival : Option SynapseId) (s : NodeState F) : Prop :=
  ∃ d t, (rt.node.receive signal arrival).run s = (.ok d, t) ∧ Node.HandledOnly signal d ∧
    t.store.journal = s.store.journal ∧ ∀ u, EndsHere signal.id signal .threshold u
      ((rt.releaseSignal signal.id (some signal) (some d.forwardTo) .threshold).run u).2

def StopsLater (s : RuntimeState F) : Prop :=
  EndsHere id body how s ((rt.releaseSignal id (some body) none how).run s).2

end Runtime

/-- The store call that lists the synapses for an arrival does not fail. -/
def ListingAnswers (s : NodeState F) (arrival : Option SynapseId) : Prop :=
  s.faults[Node.admissionCalls arrival]?.join = none

theorem listing_after_admission {node : Node F} {signal : Signal F} {arrival : Option SynapseId}
    {s t : NodeState F} (store : t.store = node.claimed signal s)
    (faults : t.faults = s.faults.drop (Node.admissionCalls arrival)) :
    t.store.listSynapses .eligible = s.store.listSynapses .eligible ∧
      t.store.journal = s.store.journal ∧ (StoreAnswers t 1 ↔ ListingAnswers s arrival) := by
  refine ⟨?_, ?_, ?_⟩
  · have same : t.store.synapses = s.store.synapses := by
      rw [store]
      exact s.store.checkAndSetSeen_synapses _ _ _
    exact MemoryStore.listSynapses_congr same _
  · rw [store]
    exact s.store.checkAndSetSeen_journal _ _ _
  · have first := storeAnswers_succ (s := t) (n := 0) t.store
    have next : nextFault t = s.faults[Node.admissionCalls arrival]?.join := by
      unfold nextFault
      rw [faults, List.head?_drop]
    rw [first, next]
    exact ⟨fun both => both.1, fun listed => ⟨listed, storeAnswers_zero _⟩⟩

section Meant

variable (rt : Runtime F) {signal : Signal F}
  (meant : signal.scope = .targeted rt.node.identity)
include meant

theorem stopsOnArrival_iff {arrival : Option SynapseId} {s : NodeState F}
    (released : rt.node.ReleasedOnArrival signal arrival s) :
    rt.StopsOnArrival signal arrival s ↔ signal.delivery = .bestEffort ∧
      ListingAnswers s arrival ∧ ∀ r ∈ s.store.listSynapses .eligible, arrival = some r.id := by
  obtain ⟨t, store, faults, refused, planned⟩ :=
    rt.node.receive_released signal arrival released
  obtain ⟨listed, journal, answers⟩ := listing_after_admission store faults
  have nowhere := rt.node.onward_targeted_nil_iff meant arrival s.clock t.store t.rng
  rw [listed] at nowhere
  rw [← requiresReceipt_eq_false, ← answers, ← nowhere]
  rcases rt.node.planForwarding_targeted meant arrival s.clock t with
    ⟨none, listing, u, plan, same⟩ | ⟨some, -, f, u, plan⟩ | ⟨-, fails, e, u, plan, -⟩
  · obtain ⟨d, handled, ⟨-, owed, noRoute⟩ | ⟨routed, here, accepted, quiet, onward⟩⟩ :=
      planned [] u plan
    · constructor
      · rintro ⟨d', v, result, only, -⟩
        rw [handled] at result
        obtain rfl := Except.ok.inj (Prod.mk.inj result).1
        rw [only.accepted] at noRoute
        cases noRoute
      · rintro ⟨free, -⟩
        rw [free] at owed
        cases owed
    · refine iff_of_true ⟨d, u, handled, ⟨here, accepted, quiet, onward⟩, ?_, fun w => ?_⟩
        ⟨routed rfl, listing, none⟩
      · rw [same, journal]
      · exact (rt.releaseSignal_planned_ends _ _ _ _ w).mpr onward
  · refine iff_of_false ?_ fun both => some both.2.2
    rintro ⟨d', v, result, only, -⟩
    obtain ⟨d, handled, ⟨none, -⟩ | ⟨-, -, -, -, onward⟩⟩ := planned [f] u plan
    · cases none
    · rw [handled] at result
      obtain rfl := Except.ok.inj (Prod.mk.inj result).1
      cases onward.symm.trans only.nowhere
  · refine iff_of_false ?_ fun both => fails both.2.2 both.2.1
    rintro ⟨d, v, result, -⟩
    rw [refused e u plan] at result
    cases result

theorem stopsLater_iff (id : SignalId) (how : Runtime.Release) (s : RuntimeState F) :
    rt.StopsLater id signal how s ↔
      (∀ r ∈ s.node.store.listSynapses .eligible,
        Runtime.arrivedOver signal s.node = some r.id) ∨
      ¬ StoreAnswers (Runtime.lookedUp signal s.node) 2 := by
  have nowhere := rt.node.onward_targeted_nil_iff meant (Runtime.arrivedOver signal s.node)
    (Runtime.lookedUp signal s.node).clock (Runtime.lookedUp signal s.node).store
    (Runtime.lookedUp signal s.node).rng
  have store := Runtime.lookedUp_store signal s.node
  rw [store] at nowhere
  rcases rt.node.planForwarding_targeted meant (Runtime.arrivedOver signal s.node)
      (Runtime.lookedUp signal s.node).clock (Runtime.lookedUp signal s.node) with
    ⟨none, -, t, plan, same⟩ | ⟨some, answers, f, t, plan⟩ | ⟨fails, -, e, t, plan, same⟩
  · rw [store] at none
    exact iff_of_true ((rt.releaseSignal_unplanned_ends id signal how plan).1 rfl
      (same.trans store)) (Or.inl (nowhere.mp none))
  · rw [store] at some
    refine iff_of_false ((rt.releaseSignal_unplanned_ends id signal how plan).2
      (List.cons_ne_nil f [])) ?_
    rintro (none | fails)
    · exact some (nowhere.mpr none)
    · exact fails answers
  · exact iff_of_true ((rt.releaseSignal_unplanned_ends id signal how plan).1 rfl
      (same.trans store)) (Or.inr fails)

end Meant

/-- A signal meant for this node stops here on arrival exactly when it is best-effort and no
synapse but the one it came in on can carry it; let go later it stops exactly when none but the
one that its trace names can, or the store fails. -/
theorem targeted_here_stops_iff (rt : Runtime F) {signal : Signal F}
    (meant : signal.scope = .targeted rt.node.identity) :
    (∀ arrival s, rt.node.ReleasedOnArrival signal arrival s →
      (rt.StopsOnArrival signal arrival s ↔ signal.delivery = .bestEffort ∧
        ListingAnswers s arrival ∧ ∀ r ∈ s.store.listSynapses .eligible, arrival = some r.id)) ∧
    ∀ id how s, rt.StopsLater id signal how s ↔
      (∀ r ∈ s.node.store.listSynapses .eligible,
        Runtime.arrivedOver signal s.node = some r.id) ∨
      ¬ StoreAnswers (Runtime.lookedUp signal s.node) 2 := by
  constructor
  · intro arrival s released
    exact stopsOnArrival_iff rt meant released
  · intro id how s
    exact stopsLater_iff rt meant id how s

section MeantForHere

/-- An acknowledged signal that has reached the node it is meant for. -/
def meantForEdge : Signal ℚ :=
  { unroutable with origin := ⟨[2]⟩, trace := [⟨[2]⟩], scope := .targeted ⟨[0]⟩ }

def besideNeighbour : NodeState ℚ := { connected.after with clock := 0, faults := [] }

/-- It is sent on to the neighbour. -/
theorem meant_for_edge_sent_on :
    edgeNode.ReleasedOnArrival meantForEdge none besideNeighbour ∧
    ((edgeNode.receive meantForEdge none).run besideNeighbour).1.toOption.map
      (fun d => d.forwardTo.map Forward.peer) = some [neighbour] ∧
    ¬ ∀ (rt : Runtime ℚ) (signal : Signal ℚ) (arrival : Option SynapseId) (s : NodeState ℚ),
      signal.scope = .targeted rt.node.identity → rt.node.ReleasedOnArrival signal arrival s →
      rt.StopsOnArrival signal arrival s := by
  have released : edgeNode.ReleasedOnArrival meantForEdge none besideNeighbour :=
    released_at_once (by decide +kernel) (by decide +kernel) (by decide +kernel)
      (by decide +kernel) (by decide +kernel)
  have sent : ((edgeNode.receive meantForEdge none).run besideNeighbour).1.toOption.map
      (fun d => d.forwardTo.map Forward.peer) = some [neighbour] := by decide +kernel
  refine ⟨released, sent, fun always => ?_⟩
  obtain ⟨d, t, result, only, -⟩ :=
    always edgeRuntime meantForEdge none besideNeighbour rfl released
  have here : (edgeNode.receive meantForEdge none).run besideNeighbour = (.ok d, t) := result
  rw [here] at sent
  have onward : d.forwardTo.map Forward.peer = [neighbour] := Option.some.inj sent
  rw [only.nowhere] at onward
  cases onward

theorem meant_for_edge_stops_iff :
    (∀ arrival s, edgeNode.ReleasedOnArrival meantForEdge arrival s →
      (edgeRuntime.StopsOnArrival meantForEdge arrival s ↔ meantForEdge.delivery = .bestEffort ∧
        ListingAnswers s arrival ∧ ∀ r ∈ s.store.listSynapses .eligible, arrival = some r.id)) ∧
    ∀ id how s, edgeRuntime.StopsLater id meantForEdge how s ↔
      (∀ r ∈ s.node.store.listSynapses .eligible,
        Runtime.arrivedOver meantForEdge s.node = some r.id) ∨
      ¬ StoreAnswers (Runtime.lookedUp meantForEdge s.node) 2 :=
  targeted_here_stops_iff edgeRuntime rfl

end MeantForHere

end OpenNtl
