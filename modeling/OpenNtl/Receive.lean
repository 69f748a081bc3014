import OpenNtl.NodeRun

/-! # What becomes of an arrival -/
namespace OpenNtl

open AtomicProgram NodeM

variable {F : Type} [Scalar F]

def IsWaiting (s : NodeState F) (id : SignalId) : Prop := ∃ q ∈ s.activation.queue, q.id = id

/-- An earlier copy of the id is remembered and not yet forgotten. -/
def HasLiveClaim (s : NodeState F) (id : SignalId) : Prop := s.store.hasSeen id s.clock = true

instance (s : NodeState F) (id : SignalId) : Decidable (IsWaiting s id) :=
  inferInstanceAs (Decidable (∃ q ∈ s.activation.queue, q.id = id))

instance (s : NodeState F) (id : SignalId) : Decidable (HasLiveClaim s id) :=
  inferInstanceAs (Decidable (_ = _))

namespace Node

variable (node : Node F) (signal : Signal F)

def claimed (s : NodeState F) : MemoryStore F :=
  (s.store.checkAndSetSeen signal.id s.clock node.config.propagation.dedupCacheSeconds).2

def offered (s : NodeState F) (weight : F) : AdmitOutcome F × ActivationState F × Rng :=
  s.activation.admitSignal (queuedSignalOf signal s.clock) weight s.clock s.rng

/-- Everything the part of `receive` before planning can do. -/
inductive Admission (s : NodeState F) :
    Except NodeError (Disposition F ⊕ ℕ × AdmitOutcome F) × NodeState F → Prop
  | failed {f : StoreError} (fault : nextFault s = some f) :
      Admission s (.error (.serialization f.display), s.stored s.store)
  | duplicate (fault : nextFault s = none) (live : HasLiveClaim s signal.id) :
      Admission s (.ok (.inl .nothing), s.stored s.store)
  | refused (fault : nextFault s = none) (fresh : ¬ HasLiveClaim s signal.id) (reason : RejectReason)
      (check : checkPropagable signal node.identity node.config.propagation = .error reason) :
      Admission s (.ok (.inl (.refuse signal reason signal.hops)),
        s.stored (node.claimed signal s))
  | admitted (fault : nextFault s = none) (fresh : ¬ HasLiveClaim s signal.id)
      (check : checkPropagable signal node.identity node.config.propagation = .ok ())
      (weight : F) (faults : List (Option StoreError)) :
      Admission s (.ok (.inr (s.clock, (offered signal s weight).1)),
        { s with
          store := node.claimed signal s
          activation := (offered signal s weight).2.1
          rng := (offered signal s weight).2.2
          faults := faults })

theorem arrivalWeight_run (arrival : Option SynapseId) (s : NodeState F) :
    ∃ weight faults, (arrivalWeight arrival).run s = (.ok weight, { s with faults := faults }) := by
  cases arrival with
  | none => exact ⟨1, s.faults, rfl⟩
  | some id =>
    cases fault : nextFault s with
    | some f => exact ⟨1, s.faults.tail, by simp [arrivalWeight, tryStore, Prog.run_bind, fault]⟩
    | none =>
      cases found : s.store.getSynapse id with
      | none =>
        exact ⟨1, s.faults.tail, by simp [arrivalWeight, tryStore, Prog.run_bind, fault, found]⟩
      | some r =>
        exact ⟨r.weight, s.faults.tail,
          by simp [arrivalWeight, tryStore, Prog.run_bind, fault, found]⟩

theorem admission_spec (arrival : Option SynapseId) (s : NodeState F) :
    node.Admission signal s ((node.admission signal arrival).run s) := by
  have begin : (node.admission signal arrival).run s =
      ((callStore fun st => st.checkAndSetSeen signal.id s.clock
        node.config.propagation.dedupCacheSeconds) >>= fun seen => _).run s := rfl
  cases fault : nextFault s with
  | some f =>
    rw [begin, Prog.run_bind_error (callStore_run_error fault)]
    exact .failed fault
  | none =>
    rw [begin, Prog.run_bind_ok (callStore_run_ok fault), MemoryStore.checkAndSetSeen_fst]
    by_cases live : s.store.hasSeen signal.id s.clock = true
    · have same : (s.store.checkAndSetSeen signal.id s.clock
          node.config.propagation.dedupCacheSeconds).2 = s.store :=
        MemoryStore.checkAndSetSeen_of_seen s.store signal.id s.clock _ live
      rw [if_pos live, same]
      exact .duplicate fault live
    · rw [if_neg live]
      cases check : checkPropagable signal node.identity node.config.propagation with
      | error reason => exact .refused fault live reason check
      | ok u =>
        obtain ⟨weight, faults, lookup⟩ :=
          arrivalWeight_run arrival (s.stored (node.claimed signal s))
        have through := Admission.admitted (s := s) fault live check weight faults
        change node.Admission signal s (Prog.run _ (s.stored (node.claimed signal s)))
        dsimp only
        rw [Prog.run_bind_ok lookup]
        exact through

/-- An arrival over no synapse that passes every check goes to the gate with full weight. -/
theorem admission_passed {s : NodeState F} (fault : nextFault s = none)
    (fresh : ¬ HasLiveClaim s signal.id)
    (check : checkPropagable signal node.identity node.config.propagation = .ok ()) :
    (node.admission signal none).run s = (.ok (.inr (s.clock, (offered signal s 1).1)),
      { s with
        store := node.claimed signal s
        activation := (offered signal s 1).2.1
        rng := (offered signal s 1).2.2
        faults := s.faults.tail }) := by
  have begin : (node.admission signal none).run s =
      ((callStore fun st => st.checkAndSetSeen signal.id s.clock
        node.config.propagation.dedupCacheSeconds) >>= fun seen => _).run s := rfl
  unfold HasLiveClaim at fresh
  rw [begin, Prog.run_bind_ok (callStore_run_ok fault), MemoryStore.checkAndSetSeen_fst,
    if_neg fresh, check]
  rfl

def FiredHere (admitted : AdmitOutcome F) : Prop := ∃ q ∈ admitted.fired, q.id = signal.id

instance (admitted : AdmitOutcome F) : Decidable (FiredHere signal admitted) :=
  inferInstanceAs (Decidable (∃ q ∈ admitted.fired, q.id = signal.id))

/-- Everything the part of `receive` after admission can do. -/
inductive Disposal (arrival : Option SynapseId) (nowNs : ℕ) (admitted : AdmitOutcome F)
    (t : NodeState F) : Except NodeError (Disposition F) × NodeState F → Prop
  | shed (itself : ∃ q ∈ admitted.dropped, q.id = signal.id) (reason : RejectReason) :
      Disposal arrival nowNs admitted t
        (.ok { Disposition.refuse signal reason signal.hops with
          handleLocally := without admitted.fired signal.id }, t)
  | held (other : ∀ q ∈ admitted.dropped, q.id ≠ signal.id) (stays : ¬ FiredHere signal admitted)
      (evicted : Option (Evicted F)) (same : evicted.map Evicted.signal = admitted.dropped) :
      Disposal arrival nowNs admitted t
        (.ok { (Disposition.nothing : Disposition F) with
          handleLocally := admitted.fired, evicted := evicted, queued := true }, t)
  | unplanned (other : ∀ q ∈ admitted.dropped, q.id ≠ signal.id) (fired : FiredHere signal admitted)
      {e : NodeError} {u : NodeState F}
      (plan : (node.planForwarding signal arrival nowNs).run t = (.error e, u)) :
      Disposal arrival nowNs admitted t (.error e, u)
  | routeless (other : ∀ q ∈ admitted.dropped, q.id ≠ signal.id) (fired : FiredHere signal admitted)
      {u : NodeState F} (plan : (node.planForwarding signal arrival nowNs).run t = (.ok [], u))
      (owed : signal.requiresReceipt = true) (evicted : Option (Evicted F))
      (same : evicted.map Evicted.signal = admitted.dropped) :
      Disposal arrival nowNs admitted t
        (.ok { Disposition.refuse signal .noRoute signal.hops with
          handleLocally := without admitted.fired signal.id, evicted := evicted }, u)
  | released (other : ∀ q ∈ admitted.dropped, q.id ≠ signal.id) (fired : FiredHere signal admitted)
      {forwardTo : List Forward} {u : NodeState F}
      (plan : (node.planForwarding signal arrival nowNs).run t = (.ok forwardTo, u))
      (routed : forwardTo = [] → signal.requiresReceipt = false) (evicted : Option (Evicted F))
      (same : evicted.map Evicted.signal = admitted.dropped) :
      Disposal arrival nowNs admitted t
        (.ok { (Disposition.nothing : Disposition F) with
          forwardTo := forwardTo, handleLocally := admitted.fired, evicted := evicted }, u)

omit [Scalar F] in
theorem dropped_any {dropped : Option (QueuedSignal F)} {id : SignalId}
    (itself : ∃ q ∈ dropped, q.id = id) : (dropped.any fun q => q.id = id) = true := by
  obtain ⟨q, hq, same⟩ := itself
  rw [Option.mem_def.mp hq]
  simpa using same

theorem afterAdmission_spec (arrival : Option SynapseId) (nowNs : ℕ) (admitted : AdmitOutcome F)
    (t : NodeState F) :
    node.Disposal signal arrival nowNs admitted t
      ((node.afterAdmission signal arrival nowNs admitted).run t) := by
  by_cases itself : ∃ q ∈ admitted.dropped, q.id = signal.id
  · have shed := dropped_any itself
    simp only [afterAdmission, shed, if_true]
    exact .shed itself _
  · have other : ∀ q ∈ admitted.dropped, q.id ≠ signal.id := by
      intro q hq same
      exact itself ⟨q, hq, same⟩
    have kept : (admitted.dropped.any fun d => d.id = signal.id) = false := by
      cases dropped : admitted.dropped with
      | none => rfl
      | some q => simpa using other q dropped
    have evictedOf : ((admitted.dropped.map fun d =>
        ({ signal := d, reason := admitted.dropReason.getD .queueFull } : Evicted F)).map
          Evicted.signal) = admitted.dropped := by
      cases admitted.dropped <;> rfl
    by_cases fired : FiredHere signal admitted
    · have here : (admitted.fired.any fun q => q.id = signal.id) = true := by
        simpa [FiredHere] using fired
      rcases plan : (node.planForwarding signal arrival nowNs).run t with ⟨e | forwardTo, u⟩
      · simp only [afterAdmission, kept, here, Bool.false_eq_true, if_false, if_true,
          Prog.run_bind_error plan]
        exact .unplanned other fired plan
      · simp only [afterAdmission, kept, here, Bool.false_eq_true, if_false, if_true,
          Prog.run_bind_ok plan, true_and]
        by_cases routeless : forwardTo.isEmpty = true ∧ signal.requiresReceipt = true
        · obtain rfl := List.isEmpty_iff.mp routeless.1
          rw [if_pos routeless]
          exact .routeless other fired plan routeless.2 _ evictedOf
        · rw [if_neg routeless]
          have routed : forwardTo = [] → signal.requiresReceipt = false := by
            intro empty
            by_contra owed
            exact routeless ⟨List.isEmpty_iff.mpr empty, by simpa using owed⟩
          exact .released other fired plan routed _ evictedOf
    · have stays : (admitted.fired.any fun q => q.id = signal.id) = false := by
        simpa [FiredHere] using fired
      simp only [afterAdmission, kept, stays, Bool.false_eq_true, if_false, pure_bind, false_and]
      exact .held other fired _ evictedOf

/-- A call to `receive` either settles the arrival before planning or goes through the gate. -/
theorem receive_cases (arrival : Option SynapseId) (s : NodeState F) :
    (∃ f, nextFault s = some f ∧ (node.receive signal arrival).run s =
      (.error (.serialization f.display), s.stored s.store)) ∨
    (nextFault s = none ∧ HasLiveClaim s signal.id ∧
      (node.receive signal arrival).run s = (.ok .nothing, s.stored s.store)) ∨
    (nextFault s = none ∧ ¬ HasLiveClaim s signal.id ∧ ∃ reason,
      (node.receive signal arrival).run s =
        (.ok (.refuse signal reason signal.hops), s.stored (node.claimed signal s))) ∨
    (nextFault s = none ∧ ¬ HasLiveClaim s signal.id ∧ ∃ weight faults,
      node.Disposal signal arrival s.clock (offered signal s weight).1
        { s with
          store := node.claimed signal s
          activation := (offered signal s weight).2.1
          rng := (offered signal s weight).2.2
          faults := faults }
        ((node.receive signal arrival).run s)) := by
  have spec := node.admission_spec signal arrival s
  rcases result : (node.admission signal arrival).run s with ⟨r, t⟩
  rw [result] at spec
  cases spec with
  | failed fault =>
    exact Or.inl ⟨_, fault, Prog.run_bind_error result⟩
  | duplicate fault live =>
    exact Or.inr (Or.inl ⟨fault, live, Prog.run_bind_ok result⟩)
  | refused fault fresh reason check =>
    exact Or.inr (Or.inr (Or.inl ⟨fault, fresh, reason, Prog.run_bind_ok result⟩))
  | admitted fault fresh check weight faults =>
    refine Or.inr (Or.inr (Or.inr ⟨fault, fresh, weight, faults, ?_⟩))
    have next : (node.receive signal arrival).run s = _ := Prog.run_bind_ok result
    rw [next]
    exact node.afterAdmission_spec signal arrival s.clock _ _

end Node

theorem perform_receive {node : Node F} {m : Moment F} {signal : Signal F}
    {arrival : Option SynapseId} (performed : m.Performed node)
    (call : m.call = .receive signal arrival) :
    ((node.receive signal arrival).run m.before).2 = m.after ∧
      m.reply = ((node.receive signal arrival).run m.before).1.map .disposition := by
  unfold Moment.Performed at performed
  rw [call] at performed
  simp only [Node.perform, Prog.run_map] at performed
  exact ⟨(Prod.mk.inj performed).2, (Prod.mk.inj performed).1.symm⟩

end OpenNtl
