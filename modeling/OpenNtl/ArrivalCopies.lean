import OpenNtl.CopyMoves

/-! # What becomes of the copy that arrives -/
namespace OpenNtl

open AtomicProgram Descent NodeM RuntimeM

variable {ι F : Type} [Scalar F]

namespace Node

variable (node : Node F)

theorem planForwarding_onward {signal : Signal F} {arrival : Option SynapseId} {nowNs : ℕ}
    {s t : NodeState F} {forwards : List Forward}
    (plan : (node.planForwarding signal arrival nowNs).run s = (.ok forwards, t))
    (some : forwards ≠ []) : floodDepthReached signal = false := by
  cases deep : floodDepthReached signal with
  | false => rfl
  | true =>
    unfold planForwarding at plan
    rw [if_pos deep] at plan
    cases plan
    exact absurd rfl some

theorem planRelease_onward {signal : Signal F} {arrival : Option SynapseId} {s t : NodeState F}
    {forwards : List Forward}
    (plan : (node.planRelease signal arrival).run s = (.ok forwards, t)) (some : forwards ≠ []) :
    floodDepthReached signal = false := by
  unfold planRelease at plan
  rw [now_bind_run] at plan
  exact node.planForwarding_onward plan some

theorem receiveLocal_sameGate (signal : Signal F) :
    (node.receiveLocal signal).Within SameGate := by
  refine SameGate.now.bind fun now => ?_
  split
  · exact Prog.Within.of_pure _
  · have plans := (node.planForwarding_within signal none now).mono fun s t only => only.activation
    refine Prog.Within.bind (R := SameGate) plans fun forwardTo => ?_
    split
    · exact Prog.Within.of_pure _
    · exact Prog.Within.of_pure _

theorem receiveLocal_onward {signal : Signal F} {s t : NodeState F} {d : Disposition F}
    (run : (node.receiveLocal signal).run s = (.ok d, t)) (some : d.forwardTo ≠ []) :
    checkPropagable signal node.identity node.config.propagation = .ok () ∧
      floodDepthReached signal = false := by
  have refused : ∀ reason hops, d ≠ .refuse signal reason hops := by
    rintro reason hops rfl
    exact some rfl
  unfold receiveLocal at run
  rw [now_bind_run] at run
  split at run
  · exact absurd (Except.ok.inj (Prod.mk.inj run).1).symm (refused _ _)
  · rename_i passed
    obtain ⟨forwards, t', plan, rest⟩ := Prog.run_bind_eq_ok.mp run
    split at rest
    · exact absurd (Except.ok.inj (Prod.mk.inj rest).1).symm (refused _ _)
    · obtain rfl := Except.ok.inj (Prod.mk.inj rest).1
      exact ⟨passed, node.planForwarding_onward plan some⟩

omit [Scalar F] in
theorem emit_builds {builder : SignalBuilder F} {s t : NodeState F} {signal : Signal F}
    (run : (node.emit builder).run s = (.ok signal, t)) :
    ∃ now id, signal = builder.buildUnsignedWith node.identity now id := by
  unfold emit at run
  rw [now_bind_run, now_bind_run, now_bind_run] at run
  obtain ⟨draws, t₁, -, run⟩ := Prog.run_bind_eq_ok.mp run
  obtain ⟨seen, t₂, -, run⟩ := Prog.run_bind_eq_ok.mp run
  exact ⟨_, _, (Except.ok.inj (Prod.mk.inj run).1).symm⟩

/-- What an answer to an arrival says about the arrival. -/
structure Answers (signal : Signal F) (d : Disposition F) : Prop where
  receipt : ∀ r, d.receipt = some r → r.correlationId = signal.id
  onward : d.forwardTo ≠ [] → floodDepthReached signal = false
  accepted : (d.queued = true ∨ ∃ q ∈ d.handleLocally, q.id = signal.id) →
    checkPropagable signal node.identity node.config.propagation = .ok ()

theorem answers_nothing (signal : Signal F) : node.Answers signal (Disposition.nothing) where
  receipt r earned := nomatch earned
  onward some := absurd rfl some
  accepted kept := by
    rcases kept with queued | ⟨q, here, -⟩
    · cases queued
    · cases here

theorem answers_refuse (signal : Signal F) (reason : RejectReason) (hops : ℕ)
    {fired : List (QueuedSignal F)} (others : ∀ q ∈ fired, q.id ≠ signal.id)
    (evicted : Option (Evicted F)) :
    node.Answers signal { Disposition.refuse signal reason hops with
      handleLocally := fired, evicted := evicted } where
  receipt := by
    intro r earned
    simp only [Disposition.refuse] at earned
    split at earned
    · obtain rfl := Option.some.inj earned
      rfl
    · cases earned
  onward some := absurd rfl some
  accepted kept := by
    rcases kept with queued | ⟨q, here, own⟩
    · cases queued
    · exact absurd own (others q here)

theorem receive_answers {signal : Signal F} {arrival : Option SynapseId} {s t : NodeState F}
    {d : Disposition F} (run : (node.receive signal arrival).run s = (.ok d, t)) :
    node.Answers signal d := by
  have others : ∀ fired : List (QueuedSignal F), ∀ q ∈ without fired signal.id, q.id ≠ signal.id :=
    fun fired q hq => by simpa using (List.mem_filter.mp hq).2
  have spec := node.admission_spec signal arrival s
  rcases result : (node.admission signal arrival).run s with ⟨r, u⟩
  rw [result] at spec
  cases spec with
  | failed fault =>
    have failed : (node.receive signal arrival).run s = _ := Prog.run_bind_error result
    cases failed.symm.trans run
  | duplicate fault live =>
    have done : (node.receive signal arrival).run s = _ := Prog.run_bind_ok result
    obtain rfl := Except.ok.inj (Prod.mk.inj (done.symm.trans run)).1
    exact node.answers_nothing signal
  | refused fault fresh reason check =>
    have done : (node.receive signal arrival).run s = _ := Prog.run_bind_ok result
    obtain rfl := Except.ok.inj (Prod.mk.inj (done.symm.trans run)).1
    exact node.answers_refuse signal reason _ (fun q here => absurd here List.not_mem_nil) _
  | admitted fault fresh check weight faults =>
    have next : (node.receive signal arrival).run s = _ := Prog.run_bind_ok result
    have disposal := node.afterAdmission_spec signal arrival s.clock (offered signal s weight).1
      { s with
        store := node.claimed signal s
        activation := (offered signal s weight).2.1
        rng := (offered signal s weight).2.2
        faults := faults }
    rw [next.symm.trans run] at disposal
    cases disposal with
    | shed itself reason => exact node.answers_refuse signal reason _ (others _) _
    | held =>
      exact ⟨(node.answers_nothing signal).receipt, fun some => absurd rfl some, fun _ => check⟩
    | routeless => exact node.answers_refuse signal .noRoute _ (others _) _
    | released other fired plan =>
      exact ⟨(node.answers_nothing signal).receipt, node.planForwarding_onward plan, fun _ => check⟩

end Node

theorem Crypto.signSignal_signs {c : Crypto F} {signal frame : Signal F} {key : Bytes}
    (signed : c.signSignal signal key = .ok frame) :
    ∃ signature, frame = { signal with signature := signature } := by
  unfold signSignal at signed
  cases bytes : c.signingBytes signal with
  | error e =>
    rw [bytes] at signed
    cases signed
  | ok b =>
    rw [bytes] at signed
    cases signature : c.sign b key with
    | error e =>
      have failed : (c.sign b key >>= fun signature =>
          Except.ok { signal with signature := signature }) = .ok frame := signed
      rw [signature] at failed
      cases failed
    | ok sig =>
      have done : (c.sign b key >>= fun signature =>
          Except.ok { signal with signature := signature }) = .ok frame := signed
      rw [signature] at done
      exact ⟨sig, (Except.ok.inj done).symm⟩

namespace Network

variable {net : Network ι F} {i : ι} {signal : Signal F}

def ownBodies (i : ι) (signal : Signal F) (fired : List (QueuedSignal F)) :
    Multiset (Copy ι F) :=
  (fired.map fun q => if q.id = signal.id then {Copy.body i signal} else 0).sum

def evictedDuty (i : ι) (evicted : Option (Evicted F)) : Multiset (Copy ι F) :=
  evicted.elim 0 fun ev => {.duty i ev.signal.id}

def receiptDuty (i : ι) (id : SignalId) (receipt : Option Receipt) : Multiset (Copy ι F) :=
  receipt.elim 0 fun _ => {.duty i id}

def leaves (i : ι) (signal : Signal F) :
    Except NodeError (Disposition F) → Multiset (Copy ι F)
  | .error _ => 0
  | .ok d => evictedDuty i d.evicted + (receiptDuty i signal.id d.receipt +
      (ownBodies i signal d.handleLocally + if d.queued then {.body i signal} else 0))

omit [Scalar F] in
theorem mem_ownBodies {fired : List (QueuedSignal F)} {c : Copy ι F}
    (here : c ∈ ownBodies i signal fired) : c = .body i signal := by
  unfold ownBodies at here
  induction fired with
  | nil => exact absurd here (Multiset.notMem_zero c)
  | cons q rest ih =>
    rw [List.map_cons, List.sum_cons] at here
    rcases Multiset.mem_add.mp here with first | later
    · split at first
      · exact Multiset.mem_singleton.mp first
      · exact absurd first (Multiset.notMem_zero c)
    · exact ih later

omit [Scalar F] in
theorem ownBodies_of_absent {fired : List (QueuedSignal F)}
    (absent : ∀ q ∈ fired, q.id ≠ signal.id) : ownBodies i signal fired = 0 := by
  unfold ownBodies
  induction fired with
  | nil => rfl
  | cons q rest ih =>
    rw [List.map_cons, List.sum_cons, if_neg (absent q List.mem_cons_self), zero_add]
    exact ih fun q' hq' => absent q' (List.mem_cons_of_mem q hq')

omit [Scalar F] in
theorem ownBodies_without (fired : List (QueuedSignal F)) :
    ownBodies i signal (without fired signal.id) = 0 := by
  refine ownBodies_of_absent fun q hq => ?_
  simpa using (List.mem_filter.mp hq).2

def dutiesOf (i : ι) (ids : List SignalId) : Multiset (Copy ι F) :=
  Multiset.ofList (ids.map (Copy.duty i))

omit [Scalar F] in
theorem dutiesAt_eq (queue : List (QueuedSignal F)) :
    dutiesAt i queue = dutiesOf i (queue.map QueuedSignal.id) := by
  unfold dutiesAt dutiesOf
  rw [List.map_map]
  rfl

omit [Scalar F] in
theorem dutiesOf_append (ids more : List SignalId) :
    (dutiesOf i (ids ++ more) : Multiset (Copy ι F)) = dutiesOf i ids + dutiesOf i more := by
  unfold dutiesOf
  rw [List.map_append, Multiset.coe_add]

omit [Scalar F] in
theorem dutiesOf_perm {ids more : List SignalId} (perm : ids.Perm more) :
    (dutiesOf i ids : Multiset (Copy ι F)) = dutiesOf i more :=
  Multiset.coe_eq_coe.mpr (perm.map _)

/-- An arrival gives way to its place in the queue and to children that go elsewhere. The ids
displaced by it take their duties along. -/
theorem admits {dropped fired kept waiting : List SignalId} {gain mine : Multiset (Copy ι F)}
    (relayed : signal.signalType ≠ .receipt) (own : ∀ c ∈ mine, net.Child c (.hand i signal))
    (perm : (dropped ++ (fired ++ kept)).Perm (signal.id :: waiting))
    (less : gain ≤ dutiesOf i dropped + mine) :
    Evolves net.Child ({.hand i signal} + dutiesOf i waiting) (gain + dutiesOf i kept) := by
  have spawns : Evolves net.Child {Copy.hand i signal} (dutiesOf i [signal.id] + mine) := by
    refine Evolves.of_children fun c here => ?_
    rcases Multiset.mem_add.mp here with duty | child
    · obtain rfl := List.mem_singleton.mp (Multiset.mem_coe.mp duty)
      exact .refused relayed
    · exact own c child
  refine (spawns.add_right _).trans (Evolves.of_le ?_)
  have total : dutiesOf i [signal.id] + mine + dutiesOf i waiting =
      dutiesOf i dropped + mine + dutiesOf i kept + dutiesOf i fired := by
    have joined := dutiesOf_perm (F := F) (i := i) perm
    rw [dutiesOf_append, dutiesOf_append] at joined
    have front : (dutiesOf i (signal.id :: waiting) : Multiset (Copy ι F)) =
        dutiesOf i [signal.id] + dutiesOf i waiting := dutiesOf_append [signal.id] waiting
    rw [add_right_comm, ← front, ← joined]
    abel
  rw [total]
  exact (Multiset.add_le_add_right less).trans (Multiset.le_add_right _ _)

omit [Scalar F] in
theorem evictedDuty_eq {evicted : Option (Evicted F)} {dropped : Option (QueuedSignal F)}
    (same : evicted.map Evicted.signal = dropped) :
    (evictedDuty i evicted : Multiset (Copy ι F)) =
      dutiesOf i (dropped.toList.map QueuedSignal.id) := by
  subst same
  cases evicted with
  | none => rfl
  | some ev => rfl

theorem child_of_receiptDuty (relayed : signal.signalType ≠ .receipt)
    (receipt : Option Receipt) {c : Copy ι F} (here : c ∈ receiptDuty i signal.id receipt) :
    net.Child c (.hand i signal) := by
  cases receipt with
  | none => exact absurd here (Multiset.notMem_zero c)
  | some r =>
    obtain rfl := Multiset.mem_singleton.mp here
    exact .refused relayed

theorem receive_leaves (relayed : signal.signalType ≠ .receipt) (arrival : Option SynapseId)
    (s : NodeState F) :
    Evolves net.Child ({.hand i signal} + dutiesAt i s.activation.queue)
      (leaves i signal (((net i).node.receive signal arrival).run s).1 +
        dutiesAt i (((net i).node.receive signal arrival).run s).2.activation.queue) := by
  have drop : Evolves net.Child ({.hand i signal} + dutiesAt i s.activation.queue)
      (0 + dutiesAt i s.activation.queue) := by
    rw [zero_add]
    exact Evolves.of_le (Multiset.le_add_left _ _)
  have spec := (net i).node.admission_spec signal arrival s
  rcases result : ((net i).node.admission signal arrival).run s with ⟨r, t⟩
  rw [result] at spec
  cases spec with
  | failed fault =>
    have run : ((net i).node.receive signal arrival).run s = _ := Prog.run_bind_error result
    rw [run]
    exact drop
  | duplicate fault live =>
    have run : ((net i).node.receive signal arrival).run s = _ := Prog.run_bind_ok result
    rw [run]
    exact drop
  | refused fault fresh reason check =>
    have run : ((net i).node.receive signal arrival).run s = _ := Prog.run_bind_ok result
    rw [run]
    refine Evolves.add_right (Evolves.of_children fun c here => ?_) _
    have duty : c ∈ receiptDuty i signal.id
        (Disposition.refuse signal reason signal.hops).receipt := by
      simpa [leaves, evictedDuty, ownBodies, Disposition.refuse] using here
    exact child_of_receiptDuty relayed _ duty
  | admitted fault fresh check weight faults =>
    have run : ((net i).node.receive signal arrival).run s = _ := Prog.run_bind_ok result
    rw [run]
    have ids := offered_ids signal s weight
    have body : net.Child (.body i signal) (.hand i signal) := .accepted check
    have disposal := (net i).node.afterAdmission_spec signal arrival s.clock
      (Node.offered signal s weight).1 { s with
        store := (net i).node.claimed signal s
        activation := (Node.offered signal s weight).2.1
        rng := (Node.offered signal s weight).2.2
        faults := faults }
    dsimp only
    rcases answer : ((net i).node.afterAdmission signal arrival s.clock
      (Node.offered signal s weight).1).run _ with ⟨r, u⟩
    rw [answer] at disposal
    rw [dutiesAt_eq, dutiesAt_eq]
    cases disposal with
    | shed itself reason =>
      refine admits relayed (fun c => child_of_receiptDuty relayed
        (Disposition.refuse signal reason signal.hops).receipt) ids ?_
      simp [leaves, evictedDuty, ownBodies_without, Disposition.refuse]
    | held other stays evicted same =>
      have mine : ∀ c ∈ ({.body i signal} : Multiset (Copy ι F)), net.Child c (.hand i signal) :=
        fun c here => Multiset.mem_singleton.mp here ▸ body
      refine admits relayed mine ids ?_
      have absent : ∀ q ∈ (Node.offered signal s weight).1.fired, q.id ≠ signal.id :=
        fun q hq own => stays ⟨q, hq, own⟩
      simp [leaves, evictedDuty_eq same, ownBodies_of_absent absent, receiptDuty, Disposition.nothing]
    | unplanned other fired plan =>
      rw [(net i).node.planForwarding_activation plan]
      exact admits relayed (fun c here => absurd here (Multiset.notMem_zero c)) ids
        (Multiset.zero_le _)
    | routeless other fired plan owed evicted same =>
      rw [(net i).node.planForwarding_activation plan]
      refine admits relayed (fun c => child_of_receiptDuty relayed
        (Disposition.refuse signal .noRoute signal.hops).receipt) ids ?_
      simp [leaves, evictedDuty_eq same, ownBodies_without, Disposition.refuse]
    | released other fired plan routed evicted same =>
      rw [(net i).node.planForwarding_activation plan]
      have mine : ∀ c ∈ ownBodies i signal (Node.offered signal s weight).1.fired,
          net.Child c (.hand i signal) := fun c here => mem_ownBodies here ▸ body
      refine admits relayed mine ids ?_
      simp [leaves, evictedDuty_eq same, receiptDuty, Disposition.nothing]

end Network
end OpenNtl
