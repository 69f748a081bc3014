import OpenNtl.NodeFrame

/-! # Runs of a node: its methods called one after another

Between two calls the clock may show anything, and so may the failures to come. A node may
also be restarted over its store.
-/
namespace OpenNtl

open AtomicProgram NodeM

inductive Call (F : Type) where
  | emit (builder : SignalBuilder F)
  | receiveLocal (signal : Signal F)
  | receive (signal : Signal F) (arrivalSynapse : Option SynapseId)
  | planRelease (signal : Signal F) (arrivalSynapse : Option SynapseId)
  | failForward (journalId : JournalId)
  | applyReceipt (receipt : Receipt) (fromPeer : NodeId)
  | sweepTimeouts (limit : ℕ)
  | normalizeOutboundWeights
  | penalizeSignatureFailure (synapseId : SynapseId)
  | upsertSynapse (peer : NodeId)
  | synapseForPeer (peer : NodeId)
  | pollActivation
  | checkpoint

/-- The three methods that learn from a decision. -/
inductive Call.Learns {F : Type} : Call F → Prop
  | forward (id : JournalId) : Learns (.failForward id)
  | receipt (receipt : Receipt) (peer : NodeId) : Learns (.applyReceipt receipt peer)
  | sweep (limit : ℕ) : Learns (.sweepTimeouts limit)

inductive Reply (F : Type) where
  | signal (s : Signal F)
  | disposition (d : Disposition F)
  | forwards (fs : List Forward)
  | update (u : Option (WeightUpdate F))
  | count (n : ℕ)
  | factor (f : Option F)
  | penalty (o : Option SignatureFailureOutcome)
  | record (r : SynapseRecord F)
  | found (r : Except StoreError (Option (SynapseRecord F)))
  | released (qs : List (QueuedSignal F))
  | done

/-- One call, with the states around it and what it returned. -/
structure Moment (F : Type) where
  call : Call F
  before : NodeState F
  reply : Except NodeError (Reply F)
  after : NodeState F

variable {F : Type} [Scalar F]

def Node.perform (node : Node F) : Call F → NodeM F (Reply F)
  | .emit builder => .signal <$> node.emit builder
  | .receiveLocal signal => .disposition <$> node.receiveLocal signal
  | .receive signal arrival => .disposition <$> node.receive signal arrival
  | .planRelease signal arrival => .forwards <$> node.planRelease signal arrival
  | .failForward id => .update <$> node.failForward id
  | .applyReceipt receipt peer => .update <$> node.applyReceipt receipt peer
  | .sweepTimeouts limit => .count <$> node.sweepTimeouts limit
  | .normalizeOutboundWeights => .factor <$> node.normalizeOutboundWeights
  | .penalizeSignatureFailure id => .penalty <$> node.penalizeSignatureFailure id
  | .upsertSynapse peer => .record <$> node.upsertSynapse peer
  | .synapseForPeer peer => .found <$> Node.synapseForPeer peer
  | .pollActivation => .released <$> Node.pollActivation
  | .checkpoint => (fun _ => .done) <$> Node.checkpoint

def Moment.Performed (node : Node F) (m : Moment F) : Prop :=
  (node.perform m.call).run m.before = (m.reply, m.after)

def Node.momentAt (node : Node F) (call : Call F) (s : NodeState F) : Moment F where
  call := call
  before := s
  reply := ((node.perform call).run s).1
  after := ((node.perform call).run s).2

theorem Node.momentAt_performed (node : Node F) (call : Call F) (s : NodeState F) :
    (node.momentAt call s).Performed node := rfl

theorem moment_after {node : Node F} {m : Moment F} (performed : m.Performed node) :
    m.after = ((node.perform m.call).run m.before).2 := by
  unfold Moment.Performed at performed
  rw [performed]

def Moment.failed (m : Moment F) : Bool := !m.reply.isOk

omit [Scalar F] in
theorem Moment.failed_iff {m : Moment F} : m.failed = true ↔ ∃ e, m.reply = .error e := by
  unfold Moment.failed
  cases m.reply with
  | error e => simp [Except.isOk, Except.toBool]
  | ok r => simp [Except.isOk, Except.toBool]

/-- The node as the next call finds it. -/
structure Resumes (s s' : NodeState F) : Prop where
  store : s'.store = s.store
  activation : s'.activation = s.activation
  rng : s'.rng = s.rng
  learned : s'.learned = s.learned

/-- A node built again over the store another life of it has left. -/
structure Restarts (node : Node F) (s s' : NodeState F) : Prop where
  built : ∃ rng clock faults, s' = { node.build s.store rng clock faults with learned := s.learned }

/-- The calls of a run so far, oldest first, and the state they left. It begins with an empty
store. -/
inductive NodeRun (node : Node F) : List (Moment F) → NodeState F → Prop
  | start (rng : Rng) (clock : ℕ) (faults : List (Option StoreError)) :
      NodeRun node [] (node.build .new rng clock faults)
  | restart {ms : List (Moment F)} {s s' : NodeState F} :
      NodeRun node ms s → Restarts node s s' → NodeRun node ms s'
  | call {ms : List (Moment F)} {s : NodeState F} {m : Moment F} :
      NodeRun node ms s → Resumes s m.before → m.Performed node → NodeRun node (ms ++ [m]) m.after

namespace NodeRun

variable {node : Node F}

theorem next {ms : List (Moment F)} {s : NodeState F} (run : NodeRun node ms s) (call : Call F)
    (clock : ℕ) (faults : List (Option StoreError)) :
    NodeRun node (ms ++ [node.momentAt call { s with clock := clock, faults := faults }])
      (node.momentAt call { s with clock := clock, faults := faults }).after :=
  run.call ⟨rfl, rfl, rfl, rfl⟩ (node.momentAt_performed call _)

theorem performed {ms : List (Moment F)} {s : NodeState F} (run : NodeRun node ms s) :
    ∀ m ∈ ms, m.Performed node := by
  induction run with
  | start => intro m hm; cases hm
  | restart _ _ ih => exact ih
  | call _ _ performed ih =>
    intro m hm
    rcases List.mem_append.mp hm with hm | hm
    · exact ih m hm
    · rw [List.mem_singleton.mp hm]
      exact performed

theorem taken {ms ms' : List (Moment F)} {s : NodeState F} (run : NodeRun node (ms ++ ms') s) :
    ∃ t, NodeRun node ms t := by
  generalize same : ms ++ ms' = all at run
  induction run generalizing ms' with
  | start rng clock faults =>
    obtain rfl := (List.append_eq_nil_iff.mp same).1
    exact ⟨_, .start rng clock faults⟩
  | restart run restarts ih => exact ih same
  | @call before s m run resumes performed ih =>
    rcases ms'.eq_nil_or_concat with rfl | ⟨ms', last, rfl⟩
    · rw [List.append_nil] at same
      subst same
      exact ⟨_, run.call resumes performed⟩
    · rw [List.concat_eq_append, ← List.append_assoc] at same
      exact ih (List.append_inj_left' same rfl)

/-- An invariant of the store and the learning history, kept by every call, holds at the end of
a run and around each of its calls. -/
theorem invariant {I : MemoryStore F → List (Option JournalId × Outcome) → Prop}
    (init : I .new [])
    (keeps : ∀ m : Moment F, m.Performed node → I m.before.store m.before.learned →
      I m.after.store m.after.learned)
    {ms : List (Moment F)} {s : NodeState F} (run : NodeRun node ms s) :
    I s.store s.learned ∧ ∀ m ∈ ms, I m.before.store m.before.learned := by
  induction run with
  | start => exact ⟨init, fun m hm => by cases hm⟩
  | restart _ restarts ih =>
    obtain ⟨rng, clock, faults, rfl⟩ := restarts.built
    exact ih
  | @call ms s m _ resumes performed ih =>
    have before : I m.before.store m.before.learned := by
      rw [resumes.store, resumes.learned]
      exact ih.1
    refine ⟨keeps m performed before, fun m' hm => ?_⟩
    rcases List.mem_append.mp hm with hm | hm
    · exact ih.2 m' hm
    · rw [List.mem_singleton.mp hm]
      exact before

end NodeRun

def edgeNode : Node ℚ := ⟨⟨[0]⟩, .forClass .edge⟩

theorem edgeNode_checked : edgeNode.config.learning.validate = .ok () := by
  norm_num [edgeNode, NodeConfig.forClass, LearningConfig.forClass, LearningConfig.validate,
    Scalar.lit]

def neighbour : NodeId := ⟨[1]⟩

def direct : Signal ℚ :=
  { ((SignalBuilder.new .data "").withWeight 1).acknowledged.buildUnsignedWith ⟨[0]⟩ 0 ⟨7⟩ with
    scope := .targeted neighbour }

/-- An acknowledged signal that a node with no synapses cannot route. -/
def unroutable : Signal ℚ :=
  { ((SignalBuilder.new .data "").withWeight 1).acknowledged.buildUnsignedWith ⟨[1]⟩ 0 ⟨7⟩ with
    trace := [⟨[1]⟩] }

def connected : Moment ℚ :=
  edgeNode.momentAt (.upsertSynapse neighbour) (edgeNode.build .new .maximal 0 [])

def planned : Moment ℚ :=
  edgeNode.momentAt (.receiveLocal direct) { connected.after with clock := 0, faults := [] }

theorem decided : NodeRun edgeNode [connected, planned] planned.after :=
  ((NodeRun.start .maximal 0 []).next (.upsertSynapse neighbour) 0 []).next
    (.receiveLocal direct) 0 []

end OpenNtl
