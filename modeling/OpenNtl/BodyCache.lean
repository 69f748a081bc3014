import OpenNtl.Interleaving
import OpenNtl.Receive
import OpenNtl.Runtime

/-! # The body cache mirrors the activation queue

Any number of read loops and a maintenance task run side by side. Each call into the node and
each acquisition of the cache's lock is one step.
-/
namespace OpenNtl

open AtomicProgram NodeM RuntimeM

variable {F : Type}

def SameGate (s s' : NodeState F) : Prop := s'.activation = s.activation

namespace SameGate

theorem refl (s : NodeState F) : SameGate s s := rfl

theorem trans {s t u : NodeState F} (hs : SameGate s t) (ht : SameGate t u) : SameGate s u :=
  Eq.trans ht hs

theorem tryStore {α : Type} (op : MemoryStore F → α × MemoryStore F) :
    (tryStore op).Within SameGate := by
  refine Prog.Within.of_act fun s => ?_
  cases nextFault s with
  | none => rfl
  | some f => rfl

theorem callStore {α : Type} (op : MemoryStore F → α × MemoryStore F) :
    (callStore op).Within SameGate :=
  (tryStore op).bind fun _ => Prog.Within.of_ofExcept _

theorem withRng {α : Type} (f : Rng → α × Rng) : (withRng (F := F) f).Within SameGate :=
  Prog.Within.of_act fun _ => rfl

theorem now : (NodeM.now (F := F)).Within SameGate := Prog.Within.of_act fun _ => rfl

end SameGate

variable [Scalar F]

namespace Node

variable (node : Node F)

omit [Scalar F] in
theorem emit_sameGate (builder : SignalBuilder F) : (node.emit builder).Within SameGate := by
  refine SameGate.now.bind fun now => SameGate.now.bind fun timestamp => ?_
  refine SameGate.now.bind fun idTime => ?_
  refine (SameGate.withRng _).bind fun draws => ?_
  exact (SameGate.callStore _).bind fun _ => Prog.Within.of_pure _

theorem planForwarding_activation {signal : Signal F} {arrival : Option SynapseId} {nowNs : ℕ}
    {s t : NodeState F} {r : Except NodeError (List Forward)}
    (plan : (node.planForwarding signal arrival nowNs).run s = (r, t)) :
    t.activation = s.activation := by
  have kept := (node.planForwarding_run signal arrival nowNs s).activation
  rw [plan] at kept
  exact kept

theorem planRelease_sameGate (signal : Signal F) (arrival : Option SynapseId) :
    (node.planRelease signal arrival).Within SameGate := by
  refine SameGate.now.bind fun now => ?_
  exact (node.planForwarding_within signal arrival now).mono fun s t only => only.activation

theorem applyOutcomeToSynapse_sameGate (entry : JournalEntry F) (outcome : Outcome) (nowNs : ℕ) :
    (node.applyOutcomeToSynapse entry outcome nowNs).Within SameGate := by
  refine Prog.Within.bind (Prog.Within.of_act (R := SameGate) fun s => rfl) fun _ => ?_
  exact (node.updateSynapse_within entry outcome nowNs).mono fun s t only => only.activation

theorem settle_sameGate (id : JournalId) (outcome : Outcome) (nowNs : ℕ) :
    (node.settle id outcome nowNs).Within SameGate := by
  refine (SameGate.callStore _).bind fun resolved => ?_
  unfold learnIfResolvedNow
  cases resolved with
  | none => exact Prog.Within.of_pure _
  | some entry =>
    dsimp only
    split
    · exact Prog.Within.map _ (node.applyOutcomeToSynapse_sameGate entry outcome nowNs)
    · exact Prog.Within.of_pure _

theorem failForward_sameGate (id : JournalId) : (node.failForward id).Within SameGate :=
  SameGate.now.bind fun now => node.settle_sameGate id .transportFailure now

theorem applyReceipt_sameGate (receipt : Receipt) (peer : NodeId) :
    (node.applyReceipt receipt peer).Within SameGate := by
  refine SameGate.now.bind fun now => (SameGate.callStore _).bind fun pending => ?_
  cases pending.bind JournalEntry.id with
  | none => exact Prog.Within.of_pure _
  | some id => exact node.settle_sameGate id receipt.outcome now

theorem sweepTimeouts_sameGate (limit : ℕ) : (node.sweepTimeouts limit).Within SameGate := by
  refine SameGate.now.bind fun now => (SameGate.callStore _).bind fun expired => ?_
  refine Prog.Within.foldlM (fun count entry => Prog.Within.map _ ?_) 0 expired
  unfold sweepOne
  cases entry.id with
  | none => exact Prog.Within.of_pure _
  | some id =>
    exact (node.settle_sameGate id .timedOut now).bind fun learned => Prog.Within.of_pure _

theorem penalizeSignatureFailure_sameGate (id : SynapseId) :
    (node.penalizeSignatureFailure id).Within SameGate := by
  refine SameGate.now.bind fun now => (SameGate.callStore _).bind fun found => ?_
  cases found with
  | none => exact Prog.Within.of_pure _
  | some record => exact (SameGate.callStore _).bind fun _ => Prog.Within.of_pure _

omit [Scalar F] in
theorem checkpoint_sameGate : (Node.checkpoint (F := F)).Within SameGate := by
  refine SameGate.now.bind fun now => ?_
  refine Prog.Within.bind (Prog.Within.of_act fun s => rfl) fun snapshot => ?_
  refine (SameGate.callStore _).bind fun _ => (SameGate.callStore _).bind fun _ => ?_
  exact SameGate.callStore _

end Node

/-- The ids whose bodies a task has yet to take out of the cache, and the one whose body it has
yet to put in. -/
structure Holding where
  owed : List SignalId
  storing : Option SignalId

def Holding.nothing : Holding := ⟨[], none⟩

def AtRest (l : Holding) : Prop := l = .nothing

def queuedIds (s : RuntimeState F) : List SignalId := s.node.activation.queue.map QueuedSignal.id

/-- What a step must avoid for the cache to keep up with the queue. -/
structure KeepsStep (rt : Runtime F) (s s' : RuntimeState F) : Prop where
  /-- The gate lets no signal go whose body is not stored yet. -/
  waits : ∀ id ∈ s.unstored, id ∈ queuedIds s → id ∈ queuedIds s'
  /-- An arrival that is new to the deduplication cache is new to the queue and the body cache. -/
  fresh : ∀ id ok, s'.log = s.log ++ [.received id ok] → ¬ HasLiveClaim s.node id →
    id ∉ queuedIds s ∧ id ∉ s.pending
  /-- A `receive` that fails has not moved the queue. -/
  failed : ∀ id, s'.log = s.log ++ [.received id false] → (queuedIds s').Perm (queuedIds s)
  /-- The body cache has not reached twice the queue depth when a body goes in. -/
  room : ∀ id, s'.log = s.log ++ [.remembered id] →
    s.pending.entries.length < saturatingMul (max rt.node.config.activation.maxQueueDepth 1) 2

/-- Nothing about the queue or the cache changes. -/
structure Still (s s' : RuntimeState F) : Prop where
  queue : s'.node.activation.queue = s.node.activation.queue
  pending : s'.pending = s.pending
  unstored : s'.unstored = s.unstored
  fetched : ∀ id found, .fetched id found ∈ s'.log → .fetched id found ∈ s.log

/-- Everything one step of a task can do to the queue and the cache. -/
inductive Move (rt : Runtime F) : Holding → RuntimeState F → Holding → RuntimeState F → Prop
  | still {l : Holding} {s s' : RuntimeState F} (same : Still s s') : Move rt l s l s'
  /-- The gate lets some signals go, which the task must now see to. -/
  | release {owed : List SignalId} {s s' : RuntimeState F} (pending : s'.pending = s.pending)
      (unstored : s'.unstored = s.unstored)
      (fetched : ∀ id found, .fetched id found ∈ s'.log → .fetched id found ∈ s.log)
      (leaves : KeepsStep rt s s' → (owed ++ queuedIds s').Perm (queuedIds s)) :
      Move rt .nothing s ⟨owed, none⟩ s'
  /-- The gate takes an arrival, and may let others go. -/
  | take {id : SignalId} {owed : List SignalId} {s s' : RuntimeState F}
      (pending : s'.pending = s.pending) (unstored : s'.unstored = s.unstored ++ [id])
      (fetched : ∀ id found, .fetched id found ∈ s'.log → .fetched id found ∈ s.log)
      (fresh : KeepsStep rt s s' → id ∉ queuedIds s ∧ id ∉ s.pending)
      (leaves : (owed ++ queuedIds s').Perm (id :: queuedIds s)) (waits : id ∈ queuedIds s') :
      Move rt .nothing s ⟨owed, some id⟩ s'
  | fetch {id : SignalId} {owed : List SignalId} {storing : Option SignalId}
      {s : RuntimeState F} :
      Move rt ⟨id :: owed, storing⟩ s ⟨owed, storing⟩ { s with
        pending := s.pending.erase id
        log := s.log ++ [.fetched id (s.pending.lookup id).isSome] }
  | remember {body : Signal F} {s s' : RuntimeState F}
      (queue : s'.node.activation.queue = s.node.activation.queue)
      (unstored : s'.unstored = s.unstored.erase body.id)
      (fetched : ∀ id found, .fetched id found ∈ s'.log → .fetched id found ∈ s.log)
      (pending : KeepsStep rt s s' → s'.pending = s.pending.insert body.id body) :
      Move rt ⟨[], some body.id⟩ s .nothing s'

/-- A program that neither touches the queue or the cache nor throws. -/
def Neutral (rt : Runtime F) {α : Type} (p : RuntimeM F α) : Prop :=
  ∀ l, p.Obeys (Move rt) AtRest (fun _ l' => l' = l) l

namespace Neutral

variable {rt : Runtime F} {α β : Type}

omit [Scalar F] in
theorem pure (a : α) : Neutral rt (Pure.pure a : RuntimeM F α) := fun _ => rfl

omit [Scalar F] in
theorem bind {p : RuntimeM F α} {f : α → RuntimeM F β} (hp : Neutral rt p)
    (hf : ∀ a, Neutral rt (f a)) : Neutral rt (p >>= f) := by
  intro l
  refine (hp l).bind fun a l' same => ?_
  subst same
  exact hf a l'

omit [Scalar F] in
theorem act {f : RuntimeState F → α × RuntimeState F} (h : ∀ s, Still s (f s).2) :
    Neutral rt (.act f) := fun l s => ⟨l, .still (h s), rfl⟩

omit [Scalar F] in
theorem forM {f : α → RuntimeM F PUnit} (hf : ∀ a, Neutral rt (f a)) (xs : List α) :
    Neutral rt (xs.forM f) := by
  induction xs with
  | nil => exact pure _
  | cons x xs ih => exact (hf x).bind fun _ => ih

omit [Scalar F] in
theorem optional {f : α → RuntimeM F PUnit} (hf : ∀ a, Neutral rt (f a)) (o : Option α) :
    Neutral rt (o.forM f) := by
  cases o with
  | none => exact pure _
  | some a => exact hf a

omit [Scalar F] in
theorem callNode {p : NodeM F α} (hp : p.Within SameGate) : Neutral rt (callNode p) := by
  refine act fun s => ⟨?_, rfl, rfl, fun _ _ noted => noted⟩
  have same : SameGate s.node (p.run s.node).2 :=
    hp.run SameGate.refl (fun hs ht => SameGate.trans hs ht) s.node
  exact congrArg ActivationState.queue same

omit [Scalar F] in
theorem notify (e : Event F) : Neutral rt (RuntimeM.notify e) :=
  act fun _ => ⟨rfl, rfl, rfl, fun _ _ noted => noted⟩

omit [Scalar F] in
theorem answered (receipt : Receipt) (origin : NodeId) :
    Neutral rt (mark (.answered receipt origin) : RuntimeM F Unit) := by
  refine act fun s => ⟨rfl, rfl, rfl, fun id found noted => ?_⟩
  rcases List.mem_append.mp noted with noted | noted
  · exact noted
  · cases List.mem_singleton.mp noted

end Neutral

namespace Runtime

variable (rt : Runtime F)

theorem makeReceipt_neutral (receipt : Receipt) (origin : NodeId) :
    Neutral rt (rt.makeReceipt receipt origin) := by
  refine (Neutral.answered receipt origin).bind fun _ => ?_
  refine (Neutral.callNode (rt.node.emit_sameGate _)).bind fun emitted => ?_
  cases emitted with
  | error e => exact Neutral.pure _
  | ok signal => exact Neutral.pure _

theorem sendReceiptTo_neutral (receipt : Receipt) (origin : NodeId) :
    Neutral rt (rt.sendReceiptTo receipt origin) := by
  refine (rt.makeReceipt_neutral receipt origin).bind fun made => ?_
  cases made with
  | none => exact Neutral.pure _
  | some signal => exact Neutral.act fun _ => ⟨rfl, rfl, rfl, fun _ _ noted => noted⟩

theorem sendReceipt_neutral (receipt : Receipt) (origin : NodeId) (via : PeerIdentity) :
    Neutral rt (rt.sendReceipt receipt origin via) := by
  refine (rt.makeReceipt_neutral receipt origin).bind fun made => ?_
  cases made with
  | none => exact Neutral.pure _
  | some signal => exact Neutral.act fun _ => ⟨rfl, rfl, rfl, fun _ _ noted => noted⟩

theorem forwardSignal_neutral (signal : Signal F) (forwards : List Forward) :
    Neutral rt (rt.forwardSignal signal forwards) := by
  unfold forwardSignal
  split
  · exact Neutral.pure _
  · refine Neutral.bind (Neutral.act fun _ => ⟨rfl, rfl, rfl, fun _ _ noted => noted⟩) fun split => ?_
    refine (Neutral.forM (fun f => ?_) _).bind fun _ => (Neutral.notify _).bind fun _ => Neutral.pure _
    exact (Neutral.callNode (rt.node.failForward_sameGate f.journalId)).bind fun _ => Neutral.pure _

omit [Scalar F] in
theorem synapseOf_neutral (peer : NodeId) : Neutral rt (callNode (Node.synapseForPeer (F := F) peer)) :=
  Neutral.callNode (SameGate.tryStore _)

omit [Scalar F] in
theorem arrivalOf_neutral (body : Signal F) : Neutral rt (arrivalOf body) := by
  unfold arrivalOf
  cases body.trace.getLast? with
  | none => exact Neutral.pure _
  | some hop =>
    refine (rt.synapseOf_neutral hop).bind fun found => ?_
    split
    · exact Neutral.pure _
    · exact Neutral.pure _

theorem releasePlan_neutral (body : Signal F) (arrival : Option SynapseId)
    (plan : Option (List Forward)) : Neutral rt (rt.releasePlan body arrival plan) := by
  cases plan with
  | some forwards => exact Neutral.pure _
  | none =>
    refine (Neutral.callNode (rt.node.planRelease_sameGate body arrival)).bind fun planned => ?_
    cases planned with
    | error e => exact Neutral.pure _
    | ok forwards => exact Neutral.pure _

theorem finishRelease_neutral (id : SignalId) (body : Signal F) (forwards : List Forward) :
    Neutral rt (rt.finishRelease id body forwards) := by
  refine (rt.forwardSignal_neutral body forwards).bind fun delivered => ?_
  split
  · exact (rt.sendReceiptTo_neutral _ _).bind fun _ => Neutral.pure _
  · exact Neutral.pure _

theorem releaseSignal_neutral (id : SignalId) (body : Option (Signal F))
    (plan : Option (List Forward)) (how : Release) :
    Neutral rt (rt.releaseSignal id body plan how) := by
  cases body with
  | none => exact Neutral.notify _
  | some body =>
    refine (Neutral.notify _).bind fun _ => (rt.arrivalOf_neutral body).bind fun arrival => ?_
    exact (rt.releasePlan_neutral body arrival plan).bind fun forwards =>
      rt.finishRelease_neutral id body forwards

theorem reportRefusal_neutral (signal : Signal F) (peer : PeerIdentity) (d : Disposition F) :
    Neutral rt (rt.reportRefusal signal peer d) := by
  refine (Neutral.optional (fun receipt => ?_) _).bind fun _ => Neutral.optional (fun reason => ?_) _
  · exact rt.sendReceipt_neutral receipt signal.origin peer
  · exact Neutral.notify _

theorem handleReceipt_neutral (signal : Signal F) (peer : PeerIdentity) :
    Neutral rt (rt.handleReceipt signal peer) := by
  unfold handleReceipt
  cases rt.crypto.receiptFromValue signal.payload with
  | none => exact Neutral.pure _
  | some receipt =>
    refine (Neutral.callNode (rt.node.applyReceipt_sameGate receipt peer.nodeId)).bind fun r => ?_
    split
    · exact Neutral.notify _
    · exact Neutral.pure _

omit [Scalar F] in
theorem takeBody_obeys {α : Type} (id : SignalId) {f : Option (Signal F) → RuntimeM F α}
    (hf : ∀ body, Neutral rt (f body)) (owed : List SignalId) (storing : Option SignalId) :
    (takeBody id >>= f).Obeys (Move rt) AtRest (fun _ l => l = ⟨owed, storing⟩)
      ⟨id :: owed, storing⟩ :=
  fun _ => ⟨⟨owed, storing⟩, .fetch, hf _ _⟩

/-- The ids that a batch makes the read loop look up: all but the arrival's own. -/
def lookups (signal : Signal F) (released : List (QueuedSignal F)) : List SignalId :=
  (released.filter fun q => q.id ≠ signal.id).map QueuedSignal.id

theorem releaseFired_obeys (signal : Signal F) (d : Disposition F) (storing : Option SignalId) :
    (rt.releaseFired signal d).Obeys (Move rt) AtRest (fun _ l => l = ⟨[], storing⟩)
      ⟨lookups signal d.handleLocally, storing⟩ := by
  refine Prog.Obeys.forM (I := fun rest (l : Holding) => l = ⟨lookups signal rest, storing⟩)
    ?_ rfl
  rintro q rest _ rfl
  by_cases own : q.id = signal.id
  · rw [if_pos own]
    have same : lookups signal (q :: rest) = lookups signal rest := by simp [lookups, own]
    rw [same]
    exact rt.releaseSignal_neutral _ _ _ _ _
  · rw [if_neg own]
    have more : lookups signal (q :: rest) = q.id :: lookups signal rest := by
      simp [lookups, own]
    rw [more]
    exact rt.takeBody_obeys q.id (fun body => rt.releaseSignal_neutral _ _ _ _) _ _

theorem reportEvicted_obeys (ev : Evicted F) (owed : List SignalId) (storing : Option SignalId) :
    (rt.reportEvicted ev).Obeys (Move rt) AtRest (fun _ l => l = ⟨owed, storing⟩)
      ⟨ev.signal.id :: owed, storing⟩ := by
  refine rt.takeBody_obeys ev.signal.id (fun body => ?_) owed storing
  refine (Neutral.notify _).bind fun _ => ?_
  split
  · exact (rt.sendReceiptTo_neutral _ _).bind fun _ => Neutral.pure _
  · exact Neutral.pure _

omit [Scalar F] in
theorem rememberBody_obeys (signal : Signal F) :
    (rt.rememberBody signal).Obeys (Move rt) AtRest (fun _ => AtRest) ⟨[], some signal.id⟩ := by
  refine Prog.Obeys.of_act fun s => ⟨.nothing, .remember rfl rfl ?_ ?_, rfl⟩
  · intro id found noted
    rcases List.mem_append.mp noted with noted | noted
    · exact noted
    · cases List.mem_singleton.mp noted
  · intro keeps
    have room := keeps.room signal.id rfl
    simp only [if_neg (Nat.not_le.mpr room)]

def owedAfter (signal : Signal F) : Except NodeError (Disposition F) → Holding
  | .error _ => .nothing
  | .ok d => ⟨(d.evicted.toList.map fun ev => ev.signal.id) ++ lookups signal d.handleLocally,
      if d.queued then some signal.id else none⟩

omit [Scalar F] in
theorem lookups_of_absent {signal : Signal F} {released : List (QueuedSignal F)}
    (absent : signal.id ∉ released.map QueuedSignal.id) :
    lookups signal released = released.map QueuedSignal.id := by
  unfold lookups
  rw [List.filter_eq_self.mpr]
  intro q hq
  rw [decide_eq_true_eq]
  intro same
  exact absent (same ▸ List.mem_map_of_mem hq)

omit [Scalar F] in
theorem lookups_without (signal : Signal F) (released : List (QueuedSignal F)) :
    lookups signal (without released signal.id) = lookups signal released := by
  simp [lookups, without]

omit [Scalar F] in
theorem lookups_perm {signal : Signal F} {released : List (QueuedSignal F)}
    (once : (released.map QueuedSignal.id).count signal.id = 1) :
    (signal.id :: lookups signal released).Perm (released.map QueuedSignal.id) := by
  have kept : lookups signal released =
      (released.map QueuedSignal.id).filter fun id => id ≠ signal.id := by
    unfold lookups
    rw [List.filter_map]
    rfl
  rw [kept, List.perm_iff_count]
  intro id
  by_cases own : id = signal.id
  · subst id
    rw [List.count_cons_self, once, List.count_eq_zero.mpr]
    intro there
    simpa using (List.mem_filter.mp there).2
  · rw [List.count_cons_of_ne (Ne.symm own), List.count_filter (by simpa using own)]

end Runtime

/-- The ids an offer displaces, fires and keeps are the old queue's and the arrival's. -/
theorem offered_ids (signal : Signal F) (s : NodeState F) (weight : F) :
    (((Node.offered signal s weight).1.dropped.toList.map QueuedSignal.id) ++
      ((Node.offered signal s weight).1.fired.map QueuedSignal.id ++
        (Node.offered signal s weight).2.1.queue.map QueuedSignal.id)).Perm
      (signal.id :: s.activation.queue.map QueuedSignal.id) := by
  have perm := ActivationState.admitSignal_perm s.activation (Node.queuedSignalOf signal s.clock)
    weight s.clock s.rng
  have ids := perm.map QueuedSignal.id
  simp only [List.map_append, List.map_cons] at ids
  exact ids

omit [Scalar F] in
/-- What stays in the queue and what the read loop looks up are the old queue, if the arrival was
new to it and has left it again. -/
theorem leaves_of_gone {signal : Signal F} {dropped : List SignalId}
    {fired : List (QueuedSignal F)} {kept waiting : List SignalId}
    (perm : (dropped ++ (fired.map QueuedSignal.id ++ kept)).Perm (signal.id :: waiting))
    (fresh : signal.id ∉ waiting) (gone : signal.id ∈ fired.map QueuedSignal.id) :
    (dropped ++ Runtime.lookups signal fired ++ kept).Perm waiting := by
  have total : (dropped ++ (fired.map QueuedSignal.id ++ kept)).count signal.id = 1 := by
    rw [perm.count_eq, List.count_cons_self, List.count_eq_zero.mpr fresh]
  have once : (fired.map QueuedSignal.id).count signal.id = 1 := by
    have some := List.count_pos_iff.mpr gone
    rw [List.count_append, List.count_append] at total
    omega
  have split := Runtime.lookups_perm once
  have front : (signal.id :: (dropped ++ Runtime.lookups signal fired ++ kept)).Perm
      (dropped ++ (fired.map QueuedSignal.id ++ kept)) := by
    rw [List.append_assoc]
    exact (List.perm_middle.symm).trans ((split.append_right kept).append_left dropped)
  exact (front.trans perm).cons_inv

theorem offered_leaves {signal : Signal F} {s : NodeState F} {weight : F}
    (fresh : signal.id ∉ s.activation.queue.map QueuedSignal.id)
    (fired : Node.FiredHere signal (Node.offered signal s weight).1) {node : NodeState F}
    (gate : node.activation = (Node.offered signal s weight).2.1) :
    ((Node.offered signal s weight).1.dropped.toList.map QueuedSignal.id ++
      Runtime.lookups signal (Node.offered signal s weight).1.fired ++
      node.activation.queue.map QueuedSignal.id).Perm (s.activation.queue.map QueuedSignal.id) := by
  rw [gate]
  obtain ⟨q, hq, own⟩ := fired
  exact leaves_of_gone (offered_ids signal s weight) fresh (List.mem_map.mpr ⟨q, hq, own⟩)

/-- The state of the runtime once `receive` has run with this result. -/
def noteReceived (signal : Signal F) (s : RuntimeState F)
    (result : Except NodeError (Disposition F) × NodeState F) : RuntimeState F :=
  let queued := match result.1 with
    | .ok d => d.queued
    | .error _ => false
  { s with
    node := result.2
    log := s.log ++ [.received signal.id result.1.isOk]
    unstored := if queued then s.unstored ++ [signal.id] else s.unstored }

omit [Scalar F] in
theorem noteReceived_fetched {signal : Signal F} {s : RuntimeState F}
    {result : Except NodeError (Disposition F) × NodeState F} {id : SignalId} {found : Bool}
    (noted : .fetched id found ∈ (noteReceived signal s result).log) :
    .fetched id found ∈ s.log := by
  rcases List.mem_append.mp noted with noted | noted
  · exact noted
  · cases List.mem_singleton.mp noted

omit [Scalar F] in
theorem evicted_ids {evicted : Option (Evicted F)} {dropped : Option (QueuedSignal F)}
    (same : evicted.map Evicted.signal = dropped) :
    (evicted.toList.map fun ev => ev.signal.id) = dropped.toList.map QueuedSignal.id := by
  subst same
  cases evicted with
  | none => rfl
  | some ev => rfl

theorem receive_moves (rt : Runtime F) (signal : Signal F) (arrival : Option SynapseId)
    (s : RuntimeState F) :
    Move rt .nothing s
      (Runtime.owedAfter signal ((rt.node.receive signal arrival).run s.node).1)
      (noteReceived signal s ((rt.node.receive signal arrival).run s.node)) := by
  rcases rt.node.receive_cases signal arrival s.node with
    ⟨f, -, result⟩ | ⟨-, -, result⟩ | ⟨-, -, reason, result⟩ | ⟨-, fresh, weight, faults, disposal⟩
  · rw [result]
    exact .release rfl rfl (fun _ _ => noteReceived_fetched) fun _ => List.Perm.refl _
  · rw [result]
    exact .release rfl rfl (fun _ _ => noteReceived_fetched) fun _ => List.Perm.refl _
  · rw [result]
    exact .release rfl rfl (fun _ _ => noteReceived_fetched) fun _ => List.Perm.refl _
  · have ids := offered_ids signal s.node weight
    rcases result : (rt.node.receive signal arrival).run s.node with ⟨r, node⟩
    rw [result] at disposal
    cases disposal with
    | shed itself reason =>
      obtain ⟨q, dropped, same⟩ := itself
      refine .release rfl rfl (fun _ _ => noteReceived_fetched) fun keeps => ?_
      have absent := (keeps.fresh signal.id true rfl fresh).1
      rw [Option.mem_def.mp dropped] at ids
      have rest := List.Perm.cons_inv (a := signal.id) (by simpa [same] using ids)
      have unfired : signal.id ∉
          (Node.offered signal s.node weight).1.fired.map QueuedSignal.id := by
        intro fired
        exact absent (rest.subset (List.mem_append_left _ fired))
      rw [Runtime.lookups_without, Runtime.lookups_of_absent unfired]
      exact rest
    | held other stays evicted same =>
      have unfired : signal.id ∉
          (Node.offered signal s.node weight).1.fired.map QueuedSignal.id := by
        intro fired
        obtain ⟨q, hq, own⟩ := List.mem_map.mp fired
        exact stays ⟨q, hq, own⟩
      refine .take rfl rfl (fun _ _ => noteReceived_fetched)
        (fun keeps => keeps.fresh signal.id true rfl fresh) ?_ ?_
      · rw [evicted_ids same, Runtime.lookups_of_absent unfired, List.append_assoc]
        exact ids
      · rcases List.mem_append.mp (ids.symm.subset List.mem_cons_self) with dropped | rest
        · obtain ⟨q, hq, own⟩ := List.mem_map.mp dropped
          exact absurd own (other q (Option.mem_toList.mp hq))
        · exact (List.mem_append.mp rest).resolve_left unfired
    | unplanned other fired plan =>
      refine .release rfl rfl (fun _ _ => noteReceived_fetched) fun keeps => ?_
      exact keeps.failed signal.id rfl
    | routeless other fired plan ack evicted same =>
      refine .release rfl rfl (fun _ _ => noteReceived_fetched) fun keeps => ?_
      rw [evicted_ids same, Runtime.lookups_without]
      exact offered_leaves (keeps.fresh signal.id true rfl fresh).1 fired
        (rt.node.planForwarding_activation plan)
    | released other fired plan routed evicted same =>
      refine .release rfl rfl (fun _ _ => noteReceived_fetched) fun keeps => ?_
      rw [evicted_ids same]
      exact offered_leaves (keeps.fresh signal.id true rfl fresh).1 fired
        (rt.node.planForwarding_activation plan)

namespace Runtime

variable (rt : Runtime F)

theorem callReceive_obeys (signal : Signal F) (arrival : Option SynapseId) :
    (rt.callReceive signal arrival).Obeys (Move rt) AtRest (fun r l => l = owedAfter signal r)
      .nothing :=
  fun s => ⟨_, receive_moves rt signal arrival s, rfl⟩

theorem handleArrival_obeys (signal : Signal F) (peer : PeerIdentity) :
    (rt.handleArrival signal peer).Obeys (Move rt) AtRest (fun _ => AtRest) .nothing := by
  have found := rt.synapseOf_neutral peer.nodeId
  refine ((found.bind fun r => ?_) .nothing).bind fun arrival l same => ?_
  · split
    · exact Neutral.pure _
    · exact Neutral.pure _
  subst same
  refine (rt.callReceive_obeys signal arrival).bind fun result l same => ?_
  subst same
  cases result with
  | error e => exact rfl
  | ok d =>
    let storing := if d.queued then some signal.id else none
    have evicted : ∀ o : Option (Evicted F), (o.forM rt.reportEvicted).Obeys (Move rt) AtRest
        (fun _ l => l = ⟨lookups signal d.handleLocally, storing⟩)
        ⟨(o.toList.map fun ev => ev.signal.id) ++ lookups signal d.handleLocally, storing⟩ := by
      intro o
      cases o with
      | none => exact rfl
      | some ev => exact rt.reportEvicted_obeys ev _ storing
    refine (evicted d.evicted).bind fun _ l same => ?_
    subst same
    refine (rt.reportRefusal_neutral signal peer d _).bind fun _ l same => ?_
    subst same
    refine (rt.releaseFired_obeys signal d storing).bind fun _ l same => ?_
    subst same
    by_cases queued : d.queued = true
    · simp only [storing, queued, if_true]
      exact rt.rememberBody_obeys signal
    · simp only [storing, queued]
      exact rfl

theorem handleBadSignature_obeys (peer : PeerIdentity) :
    (rt.handleBadSignature peer).Obeys (Move rt) AtRest (fun _ => AtRest) .nothing := by
  have found := rt.synapseOf_neutral peer.nodeId
  refine ((found.bind fun r => ?_) .nothing).bind fun pruned l same => ?_
  · split
    · refine (Neutral.callNode (rt.node.penalizeSignatureFailure_sameGate _)).bind fun outcome => ?_
      split
      · exact Neutral.pure _
      · exact Neutral.pure _
    · exact Neutral.pure _
  subst same
  refine (Neutral.notify _ _).bind fun _ l same => ?_
  subst same
  split
  · exact rfl
  · exact rfl

omit [Scalar F] in
theorem originKey_neutral (signal : Signal F) (peer : PeerIdentity) :
    Neutral rt (originKey signal peer) := by
  unfold originKey
  split
  · exact Neutral.pure _
  · exact Neutral.act fun _ => ⟨rfl, rfl, rfl, fun _ _ noted => noted⟩

theorem handleFrame_obeys (peer : PeerIdentity) (signal : Signal F) :
    (rt.handleFrame peer signal).Obeys (Move rt) AtRest (fun _ => AtRest) .nothing := by
  refine (rt.originKey_neutral signal peer _).bind fun key l same => ?_
  subst same
  cases key with
  | none => exact (Neutral.notify _ _).mono fun _ _ same => same
  | some key =>
    dsimp only
    split
    · exact rt.handleBadSignature_obeys peer
    · split
      · exact (Neutral.notify _ _).mono fun _ _ same => same
      · generalize clampInboundHeaders signal rt.node.config.propagation = clamped
        obtain ⟨clamp, signal⟩ := clamped
        have next : (if signal.signalType = .receipt then rt.handleReceipt signal peer
            else rt.handleArrival signal peer).Obeys (Move rt) AtRest (fun _ => AtRest)
            .nothing := by
          split
          · exact (rt.handleReceipt_neutral signal peer _).mono fun _ _ same => same
          · exact rt.handleArrival_obeys signal peer
        dsimp only
        split
        · refine (Neutral.notify _ _).bind fun _ l same => ?_
          subst same
          exact next
        · exact next

theorem pollRelease_obeys :
    rt.pollRelease.Obeys (Move rt) AtRest (fun _ => AtRest) .nothing := by
  have poll : (callNode (Node.pollActivation (F := F))).Obeys (Move rt) AtRest (fun r l => l =
      ⟨match r with | .ok released => released.map QueuedSignal.id | .error _ => [], none⟩)
      .nothing := by
    refine Prog.Obeys.of_act fun s => ⟨_, .release rfl rfl (fun _ _ noted => noted) fun _ => ?_, rfl⟩
    have perm := (ActivationState.drainIfStarving_perm s.node.activation s.node.clock).map
      QueuedSignal.id
    rw [List.map_append] at perm
    exact perm
  refine poll.bind fun result l same => ?_
  subst same
  cases result with
  | error e => exact rfl
  | ok released =>
    refine Prog.Obeys.forM (I := fun rest (l : Holding) => l = ⟨rest.map QueuedSignal.id, none⟩)
      ?_ rfl
    rintro q rest _ rfl
    exact rt.takeBody_obeys q.id (fun body => rt.releaseSignal_neutral _ _ _ _) _ _

theorem maintenanceTick_obeys (ticks : ℕ) :
    (rt.maintenanceTick ticks).Obeys (Move rt) AtRest (fun _ => AtRest) .nothing := by
  refine rt.pollRelease_obeys.bind fun _ l rest => ?_
  obtain rfl : l = .nothing := rest
  dsimp only
  split
  · exact rfl
  · refine (Neutral.callNode (rt.node.sweepTimeouts_sameGate 256) _).bind fun _ l same => ?_
    subst same
    refine (Neutral.callNode Node.checkpoint_sameGate _).bind fun _ l same => ?_
    subst same
    exact rfl

end Runtime

end OpenNtl
