import OpenNtl.Receive

/-! # Acknowledged delivery: which arrivals get an answer -/
namespace OpenNtl

open AtomicProgram NodeM

variable {F : Type} [Scalar F]

def Moment.receipt (m : Moment F) : Option Receipt :=
  match m.reply with
  | .ok (.disposition d) => d.receipt
  | _ => none

/-- The disposition says where the signal went, and the node bears it out. -/
def Accounted (d : Disposition F) (after : NodeState F) (id : SignalId) : Prop :=
  (d.queued = true ∧ IsWaiting after id) ∨ (∃ q ∈ d.handleLocally, q.id = id) ∨
    ∃ r ∈ d.receipt, r.correlationId = id

/-- An acknowledged arrival that got an answer is accounted for, or an earlier copy of it was
still waiting. -/
def NeverSilent (m : Moment F) : Prop :=
  ∀ signal arrival d, m.call = .receive signal arrival → signal.requiresReceipt = true →
    m.reply = .ok (.disposition d) →
    Accounted d m.after signal.id ∨ IsWaiting m.before signal.id

/-- An acknowledged arrival is new to the deduplication cache, unless an earlier copy waits. -/
def ClaimsOnlyWaiting (m : Moment F) : Prop :=
  ∀ signal arrival, m.call = .receive signal arrival → signal.requiresReceipt = true →
    nextFault m.before = none → HasLiveClaim m.before signal.id → IsWaiting m.before signal.id

omit [Scalar F] in
theorem refuse_accounts {signal : Signal F} (ack : signal.requiresReceipt = true)
    (reason : RejectReason) (hops : ℕ) :
    ∃ r ∈ (Disposition.refuse signal reason hops).receipt, r.correlationId = signal.id := by
  refine ⟨.rejected signal.id reason hops, ?_, rfl⟩
  have owed : signal.delivery.requiresReceipt = true := ack
  simp [Disposition.refuse, owed]

theorem held_waits {signal : Signal F} {s : NodeState F} {weight : F}
    (other : ∀ q ∈ (Node.offered signal s weight).1.dropped, q.id ≠ signal.id)
    (stays : ¬ Node.FiredHere signal (Node.offered signal s weight).1) :
    ∃ q ∈ (Node.offered signal s weight).2.1.queue, q.id = signal.id := by
  have perm := ActivationState.admitSignal_perm s.activation (Node.queuedSignalOf signal s.clock)
    weight s.clock s.rng
  have arrival := perm.mem_iff.mpr List.mem_cons_self
  refine ⟨Node.queuedSignalOf signal s.clock, ?_, rfl⟩
  rcases List.mem_append.mp arrival with dropped | rest
  · exact absurd rfl (other _ (Option.mem_toList.mp dropped))
  · rcases List.mem_append.mp rest with fired | waits
    · exact absurd ⟨_, fired, rfl⟩ stays
    · exact waits

theorem receive_accounts (node : Node F) {signal : Signal F} {arrival : Option SynapseId}
    {s s' : NodeState F} {d : Disposition F} (ack : signal.requiresReceipt = true)
    (fresh : ¬ HasLiveClaim s signal.id)
    (run : (node.receive signal arrival).run s = (.ok d, s')) : Accounted d s' signal.id := by
  rcases node.receive_cases signal arrival s with
    ⟨f, -, failed⟩ | ⟨-, live, -⟩ | ⟨-, -, reason, refused⟩ | ⟨-, -, weight, faults, disposal⟩
  · rw [failed] at run
    cases run
  · exact absurd live fresh
  · rw [refused] at run
    obtain ⟨rfl, -⟩ := Prod.mk.inj run |>.imp (Except.ok.inj ·) id
    exact Or.inr (Or.inr (refuse_accounts ack reason _))
  · rw [run] at disposal
    cases disposal with
    | shed itself reason => exact Or.inr (Or.inr (refuse_accounts ack reason _))
    | held other stays evicted same => exact Or.inl ⟨rfl, held_waits other stays⟩
    | routeless other fired plan owed evicted same =>
      exact Or.inr (Or.inr (refuse_accounts ack .noRoute _))
    | released other fired plan routed evicted same => exact Or.inr (Or.inl fired)

theorem receive_fault (node : Node F) {signal : Signal F} {arrival : Option SynapseId}
    {s : NodeState F} {f : StoreError} (fault : nextFault s = some f) :
    (node.receive signal arrival).run s =
      (.error (.serialization f.display), s.stored s.store) := by
  rcases node.receive_cases signal arrival s with
    ⟨f', fault', result⟩ | ⟨none, -⟩ | ⟨none, -⟩ | ⟨none, -⟩
  · obtain rfl : f = f' := Option.some.inj (fault.symm.trans fault')
    exact result
  · exact absurd (fault.symm.trans none) (by simp)
  · exact absurd (fault.symm.trans none) (by simp)
  · exact absurd (fault.symm.trans none) (by simp)

theorem receive_duplicate (node : Node F) {signal : Signal F} {arrival : Option SynapseId}
    {s : NodeState F} (fault : nextFault s = none) (live : HasLiveClaim s signal.id) :
    (node.receive signal arrival).run s = (.ok .nothing, s.stored s.store) := by
  rcases node.receive_cases signal arrival s with
    ⟨f, failed, -⟩ | ⟨-, -, result⟩ | ⟨-, fresh, -⟩ | ⟨-, fresh, -⟩
  · rw [fault] at failed
    cases failed
  · exact result
  · exact absurd live fresh
  · exact absurd live fresh

/-- In every run, an acknowledged arrival is answered exactly when it is new to the
deduplication cache or an earlier copy of it still waits. -/
theorem acknowledged_arrival_answered_iff {node : Node F} {ms : List (Moment F)}
    {s : NodeState F} (run : NodeRun node ms s) {m : Moment F} (hm : m ∈ ms) :
    NeverSilent m ↔ ClaimsOnlyWaiting m := by
  have performed := run.performed m hm
  constructor
  · intro answered signal arrival call ack fault live
    obtain ⟨after, reply⟩ := perform_receive performed call
    rw [receive_duplicate node fault live] at after reply
    rcases answered signal arrival .nothing call ack reply with accounted | waits
    · rcases accounted with ⟨queued, -⟩ | ⟨q, handled, -⟩ | ⟨r, receipt, -⟩
      · cases queued
      · cases handled
      · cases receipt
    · exact waits
  · intro considered signal arrival d call ack ok
    obtain ⟨after, reply⟩ := perform_receive performed call
    rw [ok] at reply
    rcases result : (node.receive signal arrival).run m.before with ⟨e | d', t⟩
    · rw [result] at reply
      cases reply
    · rw [result] at after reply
      obtain rfl : d = d' := by simpa [Except.map] using reply
      obtain rfl : t = m.after := after
      by_cases live : HasLiveClaim m.before signal.id
      · cases fault : nextFault m.before with
        | none => exact Or.inr (considered signal arrival call ack fault live)
        | some f =>
          rw [receive_fault node fault] at result
          cases result
      · exact Or.inl (receive_accounts node ack live result)

/-! A retry that follows a transient refusal. -/

section Silence

def firstArrival : Moment ℚ :=
  edgeNode.momentAt (.receive unroutable none) (edgeNode.build .new .maximal 0 [])

def retry : Moment ℚ :=
  edgeNode.momentAt (.receive unroutable none) { firstArrival.after with clock := 0, faults := [] }

theorem retried : NodeRun edgeNode [firstArrival, retry] retry.after :=
  ((NodeRun.start .maximal 0 []).next (.receive unroutable none) 0 []).next
    (.receive unroutable none) 0 []

/-- The first arrival is refused for want of a route, which is transient, and its retry is
answered with nothing at all. -/
theorem retry_after_refusal_is_silent :
    firstArrival.receipt = some (.rejected unroutable.id .noRoute 1) ∧
    RejectReason.noRoute.isTransient = true ∧
    ¬ ∀ (ms : List (Moment ℚ)) (s : NodeState ℚ), NodeRun edgeNode ms s →
      ∀ m ∈ ms, NeverSilent m := by
  refine ⟨by decide +kernel, rfl, fun always => ?_⟩
  have fault : nextFault retry.before = none := rfl
  have live : HasLiveClaim retry.before unroutable.id := by decide +kernel
  have gone : ¬ IsWaiting retry.before unroutable.id := by decide +kernel
  have reply : retry.reply = .ok (.disposition .nothing) := by
    show ((Reply.disposition <$> edgeNode.receive unroutable none).run retry.before).1 = _
    rw [Prog.run_map, receive_duplicate edgeNode fault live]
    rfl
  rcases always _ _ retried retry (by simp) unroutable none .nothing rfl rfl reply with
    accounted | waits
  · rcases accounted with ⟨queued, -⟩ | ⟨q, handled, -⟩ | ⟨r, receipt, -⟩
    · cases queued
    · cases handled
    · cases receipt
  · exact gone waits

theorem retry_answered_iff : NeverSilent retry ↔ ClaimsOnlyWaiting retry :=
  acknowledged_arrival_answered_iff retried (by simp)

end Silence

end OpenNtl
