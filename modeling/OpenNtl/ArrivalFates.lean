import OpenNtl.Receive

/-! # Every accepted arrival has one fate -/
namespace OpenNtl

open AtomicProgram NodeM

variable {F : Type}

def copiesOf (id : SignalId) (qs : List (QueuedSignal F)) : ℕ := qs.countP fun q => q.id = id

namespace Moment

def answer (m : Moment F) : Option (Disposition F) :=
  match m.reply with
  | .ok (.disposition d) => some d
  | _ => none

def handled (m : Moment F) : List (QueuedSignal F) :=
  match m.reply with
  | .ok (.disposition d) => d.handleLocally
  | .ok (.released qs) => qs
  | _ => []

def evicted (m : Moment F) : List (QueuedSignal F) :=
  match m.reply with
  | .ok (.disposition d) => (d.evicted.map Evicted.signal).toList
  | _ => []

variable [Scalar F]

/-- The arrival of the call, if it passes deduplication and the propagation rules. -/
def accepted (node : Node F) (m : Moment F) : Option (Signal F) :=
  match m.call with
  | .receive signal _ =>
    if HasLiveClaim m.before signal.id then none
    else
      match checkPropagable signal node.identity node.config.propagation with
      | .ok () => some signal
      | .error _ => none
  | _ => none

def accepts (node : Node F) (id : SignalId) (m : Moment F) : Bool :=
  (m.accepted node).any fun signal => signal.id = id

def refuses (node : Node F) (id : SignalId) (m : Moment F) : Bool :=
  m.accepts node id && m.answer.any fun d => d.rejected.isSome

def NoCopyWaits (node : Node F) (m : Moment F) : Prop :=
  ∀ signal ∈ m.accepted node, ¬ IsWaiting m.before signal.id

instance (node : Node F) (m : Moment F) : Decidable (m.NoCopyWaits node) :=
  inferInstanceAs (Decidable (∀ signal ∈ m.accepted node, ¬ IsWaiting m.before signal.id))

def QueuedTold (node : Node F) (m : Moment F) : Prop :=
  ∀ d, m.answer = some d → (d.queued = true ↔ ∃ signal, m.accepted node = some signal ∧
    Node.queuedSignalOf signal m.before.clock ∈ m.after.activation.queue)

/-- A refused arrival is not handled, and does not wait to be handled later. -/
def RefusedApart (node : Node F) (m : Moment F) : Prop :=
  ∀ id, m.refuses node id = true →
    copiesOf id m.handled = 0 ∧ copiesOf id m.after.activation.queue = 0

end Moment

/-- Every accepted arrival is handled, evicted, refused or still waiting, exactly once, and its
answer says so. -/
structure OneFate [Scalar F] (node : Node F) (ms : List (Moment F)) (s : NodeState F) : Prop where
  counts : ∀ id, ms.countP (Moment.accepts node id) =
    copiesOf id (ms.flatMap Moment.handled) + copiesOf id (ms.flatMap Moment.evicted) +
      ms.countP (Moment.refuses node id) + copiesOf id s.activation.queue
  queued : ∀ m ∈ ms, m.QueuedTold node
  apart : ∀ m ∈ ms, m.RefusedApart node

/-- The calls that put signals through the gate. -/
inductive Call.Gated : Call F → Prop
  | receive (signal : Signal F) (arrival : Option SynapseId) : Gated (.receive signal arrival)
  | pollActivation : Gated .pollActivation

/-- Arrivals and releases since the gate was empty, oldest first. Between two of them anything
but the gate may change. -/
inductive ArrivalRun [Scalar F] (node : Node F) : List (Moment F) → NodeState F → Prop
  | start {s : NodeState F} (idle : s.activation.queue = []) : ArrivalRun node [] s
  | call {ms : List (Moment F)} {s : NodeState F} {m : Moment F} : ArrivalRun node ms s →
      m.before.activation = s.activation → m.call.Gated → m.Performed node → m.failed = false →
      ArrivalRun node (ms ++ [m]) m.after

section Copies

variable (id : SignalId)

@[simp] theorem copiesOf_nil : copiesOf (F := F) id [] = 0 := rfl

@[simp] theorem copiesOf_append (a b : List (QueuedSignal F)) :
    copiesOf id (a ++ b) = copiesOf id a + copiesOf id b := List.countP_append

@[simp] theorem copiesOf_cons (q : QueuedSignal F) (qs : List (QueuedSignal F)) :
    copiesOf id (q :: qs) = copiesOf id qs + if q.id = id then 1 else 0 := by
  simp [copiesOf, List.countP_cons]

theorem copiesOf_eq_zero {qs : List (QueuedSignal F)} :
    copiesOf id qs = 0 ↔ ∀ q ∈ qs, q.id ≠ id := by
  simp [copiesOf, List.countP_eq_zero]

theorem copiesOf_pos {qs : List (QueuedSignal F)} :
    0 < copiesOf id qs ↔ ∃ q ∈ qs, q.id = id := by
  simp [copiesOf, List.countP_pos_iff]

theorem copiesOf_without (fired : List (QueuedSignal F)) (refused : SignalId) :
    copiesOf id (without fired refused) = if id = refused then 0 else copiesOf id fired := by
  unfold without copiesOf
  rw [List.countP_filter]
  split_ifs with same
  · rw [List.countP_eq_zero]
    intro q _
    simp [same]
  · refine List.countP_congr fun q _ => ?_
    have other : q.id = id → q.id ≠ refused := by
      intro here
      rw [here]
      exact same
    simpa using other

end Copies

/-- The disposition of an admitted arrival accounts for every copy. -/
structure Exchange (signal : Signal F) (nowNs : ℕ) (d : Disposition F)
    (before after : List (QueuedSignal F)) : Prop where
  copies : ∀ id, (if signal.id = id then 1 else 0) + copiesOf id before =
    copiesOf id d.handleLocally + copiesOf id (d.evicted.map Evicted.signal).toList +
      (if signal.id = id ∧ d.rejected.isSome = true then 1 else 0) + copiesOf id after
  queued : d.queued = true ↔ Node.queuedSignalOf signal nowNs ∈ after
  apart : d.rejected.isSome = true →
    copiesOf signal.id d.handleLocally = 0 ∧ copiesOf signal.id after = 0

section Arrival

variable {signal : Signal F} {nowNs : ℕ} {before after fired : List (QueuedSignal F)}
  {dropped : Option (QueuedSignal F)}

theorem copies_of_perm
    (perm : (dropped.toList ++ (fired ++ after)).Perm (Node.queuedSignalOf signal nowNs :: before))
    (id : SignalId) : copiesOf id dropped.toList + copiesOf id fired + copiesOf id after =
      (if signal.id = id then 1 else 0) + copiesOf id before := by
  have same := perm.countP_eq fun q => decide (q.id = id)
  change copiesOf id _ = copiesOf id _ at same
  rw [copiesOf_append, copiesOf_append, copiesOf_cons] at same
  change _ = _ + (if signal.id = id then 1 else 0) at same
  omega

theorem copiesOf_option {d : Option (QueuedSignal F)} {id : SignalId}
    (other : ∀ q ∈ d, q.id ≠ id) : copiesOf id d.toList = 0 :=
  (copiesOf_eq_zero id).mpr fun q hq => other q (Option.mem_toList.mp hq)

theorem not_queued (none : copiesOf signal.id after = 0) :
    Node.queuedSignalOf signal nowNs ∉ after := by
  intro here
  exact (copiesOf_eq_zero _).mp none _ here rfl

theorem Exchange.shed (reason : RejectReason) (alone : copiesOf signal.id before = 0)
    (perm : (dropped.toList ++ (fired ++ after)).Perm (Node.queuedSignalOf signal nowNs :: before))
    (itself : ∃ q ∈ dropped, q.id = signal.id) :
    Exchange signal nowNs { Disposition.refuse signal reason signal.hops with
      handleLocally := without fired signal.id } before after := by
  have count := copies_of_perm perm
  obtain ⟨q, rfl, same⟩ := itself
  have gone : copiesOf signal.id after = 0 := by
    have here := count signal.id
    simp only [Option.toList_some, copiesOf_cons, copiesOf_nil, same, if_true] at here
    omega
  refine ⟨fun id => ?_, ⟨fun queued => (by cases queued), fun here => absurd here (not_queued gone)⟩,
    fun _ => ⟨?_, gone⟩⟩
  · have here := count id
    simp only [Option.toList_some, copiesOf_cons, copiesOf_nil, same] at here
    rw [copiesOf_without]
    by_cases mine : signal.id = id
    · subst mine
      simp [Disposition.refuse, alone, gone]
    · have other : ¬ id = signal.id := fun h => mine h.symm
      simp only [mine, if_false] at here
      simp [Disposition.refuse, mine, other]
      omega
  · rw [copiesOf_without, if_pos rfl]

theorem Exchange.held (perm : (dropped.toList ++ (fired ++ after)).Perm
      (Node.queuedSignalOf signal nowNs :: before))
    (other : ∀ q ∈ dropped, q.id ≠ signal.id) (stays : ¬ ∃ q ∈ fired, q.id = signal.id)
    {evicted : Option (Evicted F)} (same : evicted.map Evicted.signal = dropped) :
    Exchange signal nowNs { (Disposition.nothing : Disposition F) with
      handleLocally := fired, evicted := evicted, queued := true } before after := by
  have waits : Node.queuedSignalOf signal nowNs ∈ after := by
    rcases List.mem_append.mp (perm.mem_iff.mpr List.mem_cons_self) with out | rest
    · exact absurd rfl (other _ (Option.mem_toList.mp out))
    · exact (List.mem_append.mp rest).resolve_left fun out => stays ⟨_, out, rfl⟩
  refine ⟨fun id => ?_, ⟨fun _ => waits, fun _ => rfl⟩, fun refused => (by cases refused)⟩
  have count := copies_of_perm perm id
  simp only [Disposition.nothing, same, Option.isSome_none, Bool.false_eq_true, and_false,
    if_false]
  omega

theorem gone_of_fired (alone : copiesOf signal.id before = 0)
    (perm : (dropped.toList ++ (fired ++ after)).Perm (Node.queuedSignalOf signal nowNs :: before))
    (here : ∃ q ∈ fired, q.id = signal.id) : copiesOf signal.id after = 0 := by
  have fired := (copiesOf_pos signal.id).mpr here
  have count := copies_of_perm perm signal.id
  rw [if_pos rfl] at count
  omega

theorem Exchange.released (alone : copiesOf signal.id before = 0)
    (perm : (dropped.toList ++ (fired ++ after)).Perm (Node.queuedSignalOf signal nowNs :: before))
    (here : ∃ q ∈ fired, q.id = signal.id) {evicted : Option (Evicted F)}
    (same : evicted.map Evicted.signal = dropped) (forwardTo : List Forward) :
    Exchange signal nowNs { (Disposition.nothing : Disposition F) with
      forwardTo := forwardTo, handleLocally := fired, evicted := evicted } before after := by
  have gone := gone_of_fired alone perm here
  refine ⟨fun id => ?_, ⟨fun queued => (by cases queued), fun here => absurd here (not_queued gone)⟩,
    fun refused => (by cases refused)⟩
  have count := copies_of_perm perm id
  simp only [Disposition.nothing, same, Option.isSome_none, Bool.false_eq_true, and_false,
    if_false]
  omega

theorem Exchange.routeless (alone : copiesOf signal.id before = 0)
    (perm : (dropped.toList ++ (fired ++ after)).Perm (Node.queuedSignalOf signal nowNs :: before))
    (other : ∀ q ∈ dropped, q.id ≠ signal.id) (here : ∃ q ∈ fired, q.id = signal.id)
    {evicted : Option (Evicted F)} (same : evicted.map Evicted.signal = dropped) :
    Exchange signal nowNs { Disposition.refuse signal .noRoute signal.hops with
      handleLocally := without fired signal.id, evicted := evicted } before after := by
  have out := (copiesOf_pos signal.id).mpr here
  have kept := copiesOf_option other
  have gone := gone_of_fired alone perm here
  refine ⟨fun id => ?_, ⟨fun queued => (by cases queued), fun here => absurd here (not_queued gone)⟩,
    fun _ => ⟨?_, gone⟩⟩
  · have count := copies_of_perm perm id
    rw [copiesOf_without]
    by_cases mine : signal.id = id
    · subst mine
      simp [Disposition.refuse, same, kept, alone, gone]
    · have apart : ¬ id = signal.id := fun h => mine h.symm
      simp only [mine, if_false] at count
      simp only [Disposition.refuse, same, mine, apart, false_and, if_false]
      omega
  · rw [copiesOf_without, if_pos rfl]

end Arrival

section Call

variable [Scalar F] {node : Node F} {signal : Signal F} {arrival : Option SynapseId}

theorem Exchange.of_disposal {nowNs : ℕ} {before : List (QueuedSignal F)} {admitted : AdmitOutcome F}
    {t u : NodeState F} {d : Disposition F} (alone : copiesOf signal.id before = 0)
    (perm : (admitted.dropped.toList ++ (admitted.fired ++ t.activation.queue)).Perm
      (Node.queuedSignalOf signal nowNs :: before))
    (disposal : node.Disposal signal arrival nowNs admitted t (.ok d, u)) :
    Exchange signal nowNs d before u.activation.queue := by
  have gate : ∀ {r : Except NodeError (List Forward)} {v : NodeState F},
      (node.planForwarding signal arrival nowNs).run t = (r, v) →
        v.activation.queue = t.activation.queue := by
    intro r v plan
    have frame := (node.planForwarding_run signal arrival nowNs t).activation
    rw [plan] at frame
    exact congrArg ActivationState.queue frame
  cases disposal with
  | shed itself reason => exact .shed reason alone perm itself
  | held other stays evicted same => exact .held perm other stays same
  | routeless other fired plan owed evicted same =>
    rw [gate plan]
    exact .routeless alone perm other fired same
  | released other fired plan routed evicted same =>
    rw [gate plan]
    exact .released alone perm fired same _

theorem receive_exchange {s s' : NodeState F} {d : Disposition F}
    (run : (node.receive signal arrival).run s = (.ok d, s')) :
    ((HasLiveClaim s signal.id ∨
        ∃ reason, checkPropagable signal node.identity node.config.propagation = .error reason) ∧
      s'.activation = s.activation ∧ d.handleLocally = [] ∧ d.evicted = none ∧
        d.queued = false) ∨
    ((¬ HasLiveClaim s signal.id ∧
        checkPropagable signal node.identity node.config.propagation = .ok ()) ∧
      (copiesOf signal.id s.activation.queue = 0 →
        Exchange signal s.clock d s.activation.queue s'.activation.queue)) := by
  have spec := node.admission_spec signal arrival s
  obtain ⟨r, t, admission, rest⟩ := Prog.run_bind_eq_ok.mp run
  rw [admission] at spec
  cases spec with
  | duplicate fault live =>
    obtain ⟨rfl, rfl⟩ := Prod.mk.inj rest |>.imp Except.ok.inj id
    exact Or.inl ⟨Or.inl live, rfl, rfl, rfl, rfl⟩
  | refused fault fresh reason check =>
    obtain ⟨rfl, rfl⟩ := Prod.mk.inj rest |>.imp Except.ok.inj id
    exact Or.inl ⟨Or.inr ⟨reason, check⟩, rfl, rfl, rfl, rfl⟩
  | admitted fault fresh check weight faults =>
    refine Or.inr ⟨⟨fresh, check⟩, fun alone => ?_⟩
    have disposal := node.afterAdmission_spec signal arrival s.clock (Node.offered signal s weight).1
      { s with
        store := node.claimed signal s
        activation := (Node.offered signal s weight).2.1
        rng := (Node.offered signal s weight).2.2
        faults := faults }
    rw [show (node.afterAdmission signal arrival s.clock _).run _ = _ from rest] at disposal
    exact .of_disposal alone (ActivationState.admitSignal_perm _ _ weight s.clock s.rng) disposal

namespace Moment

variable {m : Moment F}

theorem accepted_none (call : m.call = .receive signal arrival)
    (turned : HasLiveClaim m.before signal.id ∨
      ∃ reason, checkPropagable signal node.identity node.config.propagation = .error reason) :
    m.accepted node = none := by
  simp only [accepted, call]
  rcases turned with live | ⟨reason, check⟩
  · rw [if_pos live]
  · rw [check]
    split <;> rfl

theorem accepted_some (call : m.call = .receive signal arrival)
    (fresh : ¬ HasLiveClaim m.before signal.id)
    (check : checkPropagable signal node.identity node.config.propagation = .ok ()) :
    m.accepted node = some signal := by
  simp only [accepted, call]
  rw [if_neg fresh, check]

/-- Every copy is accounted for, and the answer tells what became of the arrival. -/
structure FatesBalance (node : Node F) (m : Moment F) : Prop where
  copies : ∀ id, (m.accepts node id).toNat + copiesOf id m.before.activation.queue =
    copiesOf id m.handled + copiesOf id m.evicted + (m.refuses node id).toNat +
      copiesOf id m.after.activation.queue
  queued : m.QueuedTold node
  apart : m.RefusedApart node

theorem FatesBalance.of_turned (turned : m.accepted node = none)
    (gate : m.after.activation = m.before.activation) (handled : m.handled = [])
    (evicted : m.evicted = []) (unqueued : ∀ d, m.answer = some d → d.queued = false) :
    m.FatesBalance node where
  copies := fun id => by simp [accepts, refuses, turned, gate, handled, evicted]
  queued := fun d answer => by simp [turned, unqueued d answer]
  apart := fun id refused => by simp [refuses, accepts, turned] at refused

theorem FatesBalance.of_exchange {d : Disposition F} (accepted : m.accepted node = some signal)
    (reply : m.reply = .ok (.disposition d))
    (exchange : Exchange signal m.before.clock d m.before.activation.queue
      m.after.activation.queue) : m.FatesBalance node := by
  have answer : m.answer = some d := by simp [Moment.answer, reply]
  have handled : m.handled = d.handleLocally := by simp [Moment.handled, reply]
  have evicted : m.evicted = (d.evicted.map Evicted.signal).toList := by
    simp [Moment.evicted, reply]
  have takes : ∀ id, m.accepts node id = decide (signal.id = id) := by
    intro id
    simp [accepts, accepted]
  have turns : ∀ id, m.refuses node id = (decide (signal.id = id) && d.rejected.isSome) := by
    intro id
    simp [refuses, takes, answer]
  constructor
  · intro id
    have copies := exchange.copies id
    rw [takes, turns, handled, evicted]
    by_cases mine : signal.id = id
    · cases refused : d.rejected.isSome <;> simp_all
    · simp_all
  · intro d' same
    obtain rfl : d = d' := Option.some.inj (answer.symm.trans same)
    simp only [accepted, Option.some.injEq, exists_eq_left']
    exact exchange.queued
  · intro id refused
    rw [turns, Bool.and_eq_true, decide_eq_true_eq] at refused
    obtain ⟨rfl, refused⟩ := refused
    rw [handled]
    exact exchange.apart refused

theorem FatesBalance.of_performed (gated : m.call.Gated) (performed : m.Performed node)
    (returned : m.failed = false) (alone : m.NoCopyWaits node) : m.FatesBalance node := by
  have unfailed : ∀ e, m.reply ≠ .error e := by
    intro e error
    have failed := Moment.failed_iff.mpr ⟨e, error⟩
    rw [returned] at failed
    cases failed
  cases call : m.call with
  | receive signal arrival =>
    obtain ⟨after, reply⟩ := perform_receive performed call
    rcases result : (node.receive signal arrival).run m.before with ⟨e | d, s'⟩
    · rw [result] at reply
      exact absurd reply (unfailed e)
    · rw [result] at after reply
      obtain rfl : s' = m.after := after
      change m.reply = .ok (.disposition d) at reply
      rcases receive_exchange result with
        ⟨turned, gate, handled, evicted, unqueued⟩ | ⟨⟨fresh, check⟩, exchange⟩
      · refine .of_turned (accepted_none call turned) gate ?_ ?_ ?_
        · simp [Moment.handled, reply, handled]
        · simp [Moment.evicted, reply, evicted]
        · intro d' answer
          simp only [Moment.answer, reply, Option.some.injEq] at answer
          rw [← answer]
          exact unqueued
      · have taken := accepted_some call fresh check
        refine .of_exchange taken reply (exchange ?_)
        rw [copiesOf_eq_zero]
        intro q hq same
        exact alone signal taken ⟨q, hq, same⟩
  | pollActivation =>
    have run := performed
    unfold Moment.Performed at run
    rw [call] at run
    obtain ⟨reply, after⟩ := Prod.mk.inj run
    have turned : m.accepted node = none := by simp [accepted, call]
    have perm := m.before.activation.drainIfStarving_perm m.before.clock
    change Except.ok (Reply.released (m.before.activation.drainIfStarving m.before.clock).1) =
      m.reply at reply
    refine ⟨fun id => ?_, fun d answer => ?_, fun id refused => ?_⟩
    · have same := perm.countP_eq fun q => decide (q.id = id)
      change copiesOf id _ = copiesOf id _ at same
      rw [copiesOf_append] at same
      simp only [accepts, refuses, turned, Moment.handled, Moment.evicted, ← reply, ← after]
      change 0 + _ = _ + 0 + 0 + _
      rw [← same]
      simp only [Nat.zero_add, Nat.add_zero]
    · simp [Moment.answer, ← reply] at answer
    · simp [refuses, accepts, turned] at refused
  | emit _ | receiveLocal _ | planRelease _ _ | failForward _ | applyReceipt _ _
  | sweepTimeouts _ | normalizeOutboundWeights | penalizeSignatureFailure _ | upsertSynapse _
  | synapseForPeer _ | checkpoint =>
    rw [call] at gated
    cases gated

end Moment

/-- In every run whose accepted arrivals find no copy of themselves waiting, every accepted
arrival has exactly one fate. -/
theorem accepted_arrival_has_one_fate {ms : List (Moment F)} {s : NodeState F}
    (run : ArrivalRun node ms s) (alone : ∀ m ∈ ms, m.NoCopyWaits node) : OneFate node ms s := by
  induction run with
  | start idle =>
    refine ⟨fun id => ?_, fun m hm => (by cases hm), fun m hm => (by cases hm)⟩
    rw [idle]
    rfl
  | @call ms s m run kept gated performed returned ih =>
    have fate := ih fun m hm => alone m (List.mem_append_left _ hm)
    have step := Moment.FatesBalance.of_performed gated performed returned (alone m (by simp))
    refine ⟨fun id => ?_, fun m' hm => ?_, fun m' hm => ?_⟩
    · have before := fate.counts id
      have here := step.copies id
      rw [kept] at here
      have counted : ∀ p : Moment F → Bool, [m].countP p = (p m).toNat := by
        intro p
        cases h : p m <;> simp [h]
      simp only [List.countP_append, counted, List.flatMap_append, List.flatMap_singleton,
        copiesOf_append]
      omega
    · rcases List.mem_append.mp hm with hm | hm
      · exact fate.queued m' hm
      · rw [List.mem_singleton.mp hm]
        exact step.queued
    · rcases List.mem_append.mp hm with hm | hm
      · exact fate.apart m' hm
      · rw [List.mem_singleton.mp hm]
        exact step.apart

end Call

/-! A signal waits out a refractory period, and its retransmission after the deduplication window
fires both copies at a node with no route. -/

section Retransmission

def opener : Signal ℚ := { unroutable with id := ⟨8⟩ }

def opening : Moment ℚ :=
  edgeNode.momentAt (.receive opener none) (edgeNode.build .new .maximal 0 [])

def waiting : Moment ℚ :=
  edgeNode.momentAt (.receive unroutable none)
    { opening.after with clock := 1000000, faults := [] }

def retransmitted : Moment ℚ :=
  edgeNode.momentAt (.receive unroutable none)
    { waiting.after with clock := 400000000000, faults := [] }

theorem waited : ArrivalRun edgeNode [opening, waiting] waiting.after :=
  ((ArrivalRun.start rfl).call rfl (.receive _ _) (edgeNode.momentAt_performed _ _)
    (by decide +kernel)).call rfl (.receive _ _) (edgeNode.momentAt_performed _ _)
    (by decide +kernel)

/-- Two arrivals are accepted, one is refused, and nothing else is ever said of either. -/
theorem retransmission_loses_a_copy :
    ¬ ∀ (ms : List (Moment ℚ)) (s : NodeState ℚ), ArrivalRun edgeNode ms s →
      OneFate edgeNode ms s := by
  intro always
  have run : ArrivalRun edgeNode [opening, waiting, retransmitted] retransmitted.after :=
    waited.call rfl (.receive _ _) (edgeNode.momentAt_performed _ _) (by decide +kernel)
  have counts := (always _ _ run).counts unroutable.id
  revert counts
  decide +kernel

theorem waiting_has_one_fate : OneFate edgeNode [opening, waiting] waiting.after :=
  accepted_arrival_has_one_fate waited (by decide +kernel)

end Retransmission

end OpenNtl
