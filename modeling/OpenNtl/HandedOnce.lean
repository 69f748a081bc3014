import OpenNtl.CopyAccount

/-! # No signal is handed over twice in a window

Sessions may bring any frames, any number of times and on any number of read loops, and the node
may be killed at any step and started again. From one deduplication window to the next the
application is handed each signal at most once. Of the signals that are in the queue when the node
is killed it is handed none, whatever is sent again, until their windows are over.
-/
namespace OpenNtl

open AtomicProgram NodeM RuntimeM

variable {F : Type} [Scalar F]

namespace Allowance

variable (rt : Runtime F) (id : SignalId) {limit : ℕ}

def perWindow (start : ℕ) (positive : 0 < rt.dedupWindow) (room : limit + rt.dedupWindow ≤ u64Max) :
    Allowance rt id limit where
  holds s := start ≤ s.clock ∧ s.Covered rt.dedupWindow
  issued s := s.windows id start rt.dedupWindow
  kept s s' := by
    rintro ⟨late, covered⟩ onward
    refine ⟨⟨late.trans onward.forward, fun q waits => ?_⟩, ?_⟩
    · exact (covered q (onward.queue q waits)).trans (onward.claims q.id)
    · exact Node.windows_le (onward.claims id) onward.forward
  received signal arrival s := by
    rintro ⟨late, covered⟩ time
    have far : s.clock + rt.dedupWindow ≤ u64Max :=
      (Nat.add_le_add_right (time.forward.trans time.within) _).trans room
    refine ⟨⟨late.trans time.forward, ?_⟩, ?_⟩
    · exact rt.node.receive_covered signal arrival rfl covered time.forward far
    · exact rt.node.receive_copies id signal arrival positive rfl late time.forward far

def whileClaimed {claimed : ℕ} (early : limit < claimed) : Allowance rt id limit where
  holds s := claimed ≤ claimEnd id s.store
  issued _ := 0
  kept s s' := by
    intro reaches onward
    have later := onward.claims id
    have within := onward.within
    exact ⟨by omega, le_rfl⟩
  received signal arrival s := by
    intro reaches time
    have later := rt.node.receive_claimEnd id signal arrival s time.forward
    have forward := time.forward
    have within := time.within
    refine ⟨by omega, ?_⟩
    rcases rt.node.receive_adds signal arrival id s with
      ⟨none, gate⟩ | ⟨fresh, -, dropped, fired, less, perm⟩
    · rw [none, gate]
      omega
    · have count := copies_of_perm perm id
      by_cases mine : signal.id = id
      · subst mine
        have out := Node.claimEnd_le_of_fresh fresh
        omega
      · rw [if_neg mine] at count
        omega

end Allowance

omit [Scalar F] in
theorem NodeState.covered_of_empty {window : ℕ} {s : NodeState F}
    (empty : s.activation.queue = []) : s.Covered window := by
  intro q waits
  rw [empty] at waits
  cases waits

namespace Runtime

variable (rt : Runtime F)

/-- What a task runs from one emission, frame or tick to the next. Of a frame nothing is known. -/
def Jobs : RuntimeTask → RuntimeM F Unit → Prop
  | .application _, p => ∃ builder, p = rt.emit builder >>= fun _ => pure ()
  | .readLoop _, p => ∃ peer signal, p = rt.handleFrame peer signal
  | .maintenance, p => ∃ ticks, p = rt.maintenanceTick ticks

end Runtime

/-- What everything else may do between two steps: time passes, sessions come and go, tables other
than that of the claims change, calls fail. The events are all that there have been. -/
structure Meanwhile (s s' : RuntimeState F) : Prop where
  gate : s'.node.activation = s.node.activation
  claims : s'.node.store.seen = s.node.store.seen
  pending : s'.pending = s.pending
  events : s'.events = s.events

namespace Runtime

variable (rt : Runtime F)

/-- What a life of the node can come to, while the clock does not run backwards. -/
abbrev WorksTo (P₀ P : Pool RuntimeTask (RuntimeState F) RuntimeError Unit) : Prop :=
  Pool.Run rt.Jobs Meanwhile (fun s s' => s.node.clock ≤ s'.node.clock) P₀ P

/-- The node has been started over these claims, no earlier than at this reading. -/
structure Started (store : MemoryStore F) (nowNs : ℕ)
    (P : Pool RuntimeTask (RuntimeState F) RuntimeError Unit) : Prop where
  idle : P.Quiescent
  built : ∃ store' rng clock faults, store'.seen = store.seen ∧ nowNs ≤ clock ∧
    P.state.node = rt.node.build store' rng clock faults
  pending : P.state.pending = ∅
  events : P.state.events = []

/-- Lives of a node, each cut off at any step: the tables and the reading that the last one left,
and the events of all of them. -/
inductive Lived (store₀ : MemoryStore F) (start : ℕ) :
    MemoryStore F → ℕ → List (Event F) → Prop
  | installed : Lived store₀ start store₀ start []
  | life {store : MemoryStore F} {nowNs : ℕ} {past : List (Event F)}
      {P₀ P : Pool RuntimeTask (RuntimeState F) RuntimeError Unit} :
      Lived store₀ start store nowNs past → rt.Started store nowNs P₀ → rt.WorksTo P₀ P →
      Lived store₀ start P.state.node.store P.state.node.clock (past ++ P.state.events)

variable {rt} {id : SignalId} {limit start : ℕ}
  {P₀ P : Pool RuntimeTask (RuntimeState F) RuntimeError Unit}

theorem WorksTo.forward (run : rt.WorksTo P₀ P) : P₀.state.node.clock ≤ P.state.node.clock := by
  induction run with
  | refl => exact le_rfl
  | step _ _ forward ih => exact ih.trans forward

theorem WorksTo.within (run : rt.WorksTo P₀ P) (late : P.state.node.clock ≤ limit) :
    Pool.Run rt.Jobs Meanwhile (fun s s' => s.node.TimePasses limit s'.node) P₀ P := by
  induction run with
  | refl => exact .refl
  | step _ step forward ih => exact (ih (forward.trans late)).step step ⟨forward, late⟩

omit [Scalar F] in
theorem onward_of_seen {s s' : NodeState F} (time : s.TimePasses limit s')
    (seen : s'.store.seen = s.store.seen)
    (queue : ∀ q ∈ s'.activation.queue, q ∈ s.activation.queue) : s.Onward limit s' := by
  refine { time with claims := fun id => ?_, queue := queue }
  exact max_le_max (claimEnd_of_seen seen).ge time.forward

theorem WorksTo.copies (c : Allowance rt id limit) (holds : c.holds P₀.state.node)
    (empty : P₀.state.pending = ∅) (quiet : P₀.Quiescent) (run : rt.WorksTo P₀ P)
    (late : P.state.node.clock ≤ limit) : c.holds P.state.node ∧
      copiesOf id P.state.node.activation.queue + handings id P.state.events +
          c.issued P₀.state.node ≤
        copiesOf id P₀.state.node.activation.queue + handings id P₀.state.events +
          c.issued P.state.node := by
  have init : c.Running P₀.state := by
    refine ⟨fun id body there => ?_, holds⟩
    rw [empty] at there
    cases there
  have afforded := Pool.Run.affords c.account (J := c.Running) (fun task p offered => ?_)
    (fun s s' runs change time => ?_) init quiet (run.within late)
  · exact ⟨afforded.1.holds, afforded.2⟩
  · cases task with
    | application caller =>
      obtain ⟨builder, rfl⟩ := offered
      exact (emit_copies builder).before fun _ _ => .pure trivial le_rfl
    | readLoop session =>
      obtain ⟨peer, signal, rfl⟩ := offered
      exact handleFrame_copies peer signal
    | maintenance =>
      obtain ⟨ticks, rfl⟩ := offered
      exact maintenanceTick_copies ticks
  · obtain ⟨holds', issued⟩ := c.kept s.node s'.node runs.holds
      (onward_of_seen time change.claims fun q waits => change.gate ▸ waits)
    refine ⟨⟨change.pending ▸ runs.keyed, holds'⟩, ?_⟩
    change copiesOf id s'.node.activation.queue + handings id s'.events + c.issued s.node ≤
      copiesOf id s.node.activation.queue + handings id s.events + c.issued s'.node
    rw [change.gate, change.events]
    omega

theorem build_queue (node : Node F) (store : MemoryStore F) (rng : Rng) (clock : ℕ)
    (faults : List (Option StoreError)) :
    (node.build store rng clock faults).activation.queue = [] := by
  rw [Node.build]
  cases store.activation with
  | none => rfl
  | some snapshot => rfl

theorem Started.queue {store : MemoryStore F} {nowNs : ℕ} (started : rt.Started store nowNs P₀) :
    P₀.state.node.activation.queue = [] := by
  obtain ⟨store', rng, clock, faults, -, -, built⟩ := started.built
  rw [built]
  exact build_queue _ _ _ _ _

theorem Started.opened {store : MemoryStore F} {nowNs : ℕ} (started : rt.Started store nowNs P₀) :
    P₀.state.node.store.seen = store.seen ∧ nowNs ≤ P₀.state.node.clock := by
  obtain ⟨store', rng, clock, faults, seen, later, built⟩ := started.built
  rw [built]
  exact ⟨seen, later⟩

theorem Lived.copies (c : Allowance rt id limit) {store₀ store : MemoryStore F} {nowNs : ℕ}
    {events : List (Event F)} (lived : rt.Lived store₀ start store nowNs events)
    (late : nowNs ≤ limit)
    (init : ∀ s : NodeState F, s.store.seen = store₀.seen → start ≤ s.clock → s.clock ≤ limit →
      s.activation.queue = [] → c.holds s) :
    ∀ s : NodeState F, s.store.seen = store.seen → nowNs ≤ s.clock → s.clock ≤ limit →
      s.activation.queue = [] → c.holds s ∧ handings id events ≤ c.issued s := by
  induction lived with
  | installed =>
    exact fun s seen later early empty => ⟨init s seen later early empty, Nat.zero_le _⟩
  | @life store nowNs past P₀ P _ started run ih =>
    obtain ⟨seen, later⟩ := started.opened
    have forward := run.forward
    obtain ⟨holds, before⟩ := ih (later.trans (forward.trans late)) P₀.state.node seen later
      (forward.trans late) started.queue
    obtain ⟨holds', copies⟩ := run.copies c holds started.pending started.idle late
    rw [started.queue, started.events] at copies
    change _ ≤ 0 + 0 + c.issued P.state.node at copies
    intro s same clock_le early empty
    have restarted : P.state.node.Onward limit s :=
      onward_of_seen ⟨clock_le, early⟩ same fun q waits => by
        rw [empty] at waits
        cases waits
    obtain ⟨holds'', issued⟩ := c.kept _ s holds' restarted
    refine ⟨holds'', ?_⟩
    rw [handings, List.countP_append]
    change handings id past + handings id P.state.events ≤ _
    omega

theorem Lived.forward {store₀ store : MemoryStore F} {nowNs : ℕ} {events : List (Event F)}
    (lived : rt.Lived store₀ start store nowNs events) : start ≤ nowNs := by
  induction lived with
  | installed => exact le_rfl
  | life _ started run ih => exact ih.trans (started.opened.2.trans run.forward)

end Runtime

/-- Whatever frames arrive, however the tasks interleave and however often the node is killed and
started again, the application is handed no signal more often than once for each deduplication
window that has begun. -/
theorem handed_once_a_window {rt : Runtime F} (positive : 0 < rt.dedupWindow)
    {store₀ store : MemoryStore F} {start nowNs : ℕ} {events : List (Event F)}
    (lived : rt.Lived store₀ start store nowNs events)
    (room : nowNs + rt.dedupWindow ≤ u64Max) (id : SignalId) :
    handings id events ≤ (nowNs - start) / rt.dedupWindow + 1 := by
  let next := rt.node.build store .maximal nowNs []
  have empty : next.activation.queue = [] := Runtime.build_queue _ _ _ _ _
  obtain ⟨-, copies⟩ := lived.copies (.perWindow rt id start positive room) le_rfl
    (fun s _ later _ empty => ⟨later, NodeState.covered_of_empty empty⟩) next rfl le_rfl le_rfl empty
  exact copies.trans (min_le_right _ _)

/-- What is claimed when the node is killed is not handed over until the claim has run out. -/
theorem Runtime.Lived.none_claimed {rt : Runtime F} {store₀ store : MemoryStore F}
    {start nowNs : ℕ} {events : List (Event F)}
    (lived : rt.Lived store₀ start store nowNs events) {id : SignalId}
    (early : nowNs < claimEnd id store₀) : handings id events = 0 := by
  let next := rt.node.build store .maximal nowNs []
  have empty : next.activation.queue = [] := Runtime.build_queue _ _ _ _ _
  obtain ⟨-, copies⟩ := lived.copies (.whileClaimed rt id early) le_rfl
    (fun s seen _ _ _ => (claimEnd_of_seen seen).ge) next rfl le_rfl le_rfl empty
  exact Nat.le_zero.mp copies

/-- What is in the queue when the node is killed is lost. However often it is sent again, it is not
handed over until a window has passed since it was queued. -/
theorem queue_is_lost {rt : Runtime F} (positive : 0 < rt.dedupWindow)
    {store₀ store : MemoryStore F} {start nowNs : ℕ}
    {P₀ P : Pool RuntimeTask (RuntimeState F) RuntimeError Unit} {events : List (Event F)}
    {q : QueuedSignal F} (started : rt.Started store₀ start P₀) (run : rt.WorksTo P₀ P)
    (waits : q ∈ P.state.node.activation.queue)
    (room : P.state.node.clock + rt.dedupWindow ≤ u64Max)
    (lived : rt.Lived P.state.node.store P.state.node.clock store nowNs events)
    (early : nowNs < q.enqueuedAtNs + rt.dedupWindow) : handings q.id events = 0 := by
  obtain ⟨⟨-, covered⟩, -⟩ := run.copies (.perWindow rt q.id start positive room)
    ⟨started.opened.2, NodeState.covered_of_empty started.queue⟩ started.pending started.idle le_rfl
  have claimed : q.enqueuedAtNs + rt.dedupWindow ≤
    max (claimEnd q.id P.state.node.store) P.state.node.clock := covered q waits
  have forward := lived.forward
  exact lived.none_claimed (by omega)

/-! A frame comes over two sessions at once, and over both again after a restart. -/

section Sample

def repeated (weight : ℚ) : Signal ℚ :=
  { bareFrame with
    weight := weight
    signature := (List.range 16).map fun i => UInt8.ofNat (7 / 256 ^ i) }

def startedOver (store : MemoryStore ℚ) : Pool RuntimeTask (RuntimeState ℚ) RuntimeError Unit :=
  ⟨fun _ => .pure (), ⟨edgeNode.build store .maximal 0 [], ∅, ∅, [], [], []⟩⟩

def bothReading (frame : Signal ℚ) (store : MemoryStore ℚ) :
    Pool RuntimeTask (RuntimeState ℚ) RuntimeError Unit :=
  ((startedOver store).begin (.readLoop 0) (edgeRuntime.handleFrame bareSender frame)).begin
    (.readLoop 1) (edgeRuntime.handleFrame bareSender frame)

def forwardOnly (s s' : RuntimeState ℚ) : Bool := decide (s.node.clock ≤ s'.node.clock)

def alternately (frame : Signal ℚ) (steps : ℕ) (store : MemoryStore ℚ) :
    Option (Pool RuntimeTask (RuntimeState ℚ) RuntimeError Unit) :=
  (bothReading frame store).follow forwardOnly ((List.range steps).map fun i => .readLoop (i % 2))

theorem startedOver_started (store : MemoryStore ℚ) :
    edgeRuntime.Started store 0 (startedOver store) :=
  ⟨fun _ => trivial, ⟨store, .maximal, 0, [], rfl, le_rfl, rfl⟩, rfl, rfl⟩

theorem alternately_works {frame : Signal ℚ} {steps : ℕ} {store : MemoryStore ℚ}
    {P : Pool RuntimeTask (RuntimeState ℚ) RuntimeError Unit}
    (reached : alternately frame steps store = some P) :
    edgeRuntime.WorksTo (startedOver store) P := by
  have first : edgeRuntime.WorksTo (startedOver store)
      ((startedOver store).begin (.readLoop 0) (edgeRuntime.handleFrame bareSender frame)) :=
    Pool.Run.refl.step (.start (Prog.isFinished_eq_true rfl) ⟨bareSender, frame, rfl⟩) le_rfl
  have reading : edgeRuntime.WorksTo (startedOver store) (bothReading frame store) :=
    first.step (.start (Prog.isFinished_eq_true rfl) ⟨bareSender, frame, rfl⟩) le_rfl
  exact reading.follow (fun _ _ => of_decide_eq_true) reached

theorem repeated_frame_handed_once : ∃ store events,
    edgeRuntime.Lived .new 0 store 0 events ∧ handings ⟨7⟩ events = 1 := by
  have first : (alternately (repeated 1) 5 .new).any (fun P => P.state.node.clock = 0 ∧
      handings ⟨7⟩ P.state.events = 1 ∧
      (alternately (repeated 1) 4 P.state.node.store).any
        fun P' => P'.state.node.clock = 0) = true := by
    decide +kernel
  obtain ⟨P, reached, holds⟩ := (Option.any_eq_true _ _).mp first
  obtain ⟨now, handed, again⟩ := of_decide_eq_true holds
  obtain ⟨P', resumed, later⟩ := (Option.any_eq_true _ _).mp again
  have lived := Runtime.Lived.installed.life (startedOver_started .new) (alternately_works reached)
  rw [now] at lived
  have lived' := lived.life (startedOver_started _) (alternately_works resumed)
  rw [of_decide_eq_true later] at lived'
  refine ⟨_, _, lived', le_antisymm ?_ ?_⟩
  · exact handed_once_a_window (by decide +kernel) lived' (by decide +kernel) ⟨7⟩
  · rw [handings, List.countP_append]
    have one : (P.state.events.countP (Event.hands ⟨7⟩)) = 1 := handed
    simp only [List.nil_append, one]
    omega

/-- The frame is light enough to wait. Sent again after the restart it would not have to. -/
theorem light_frame_is_lost : ∃ P q store events,
    edgeRuntime.WorksTo (startedOver .new) P ∧ q ∈ P.state.node.activation.queue ∧
    edgeRuntime.Lived P.state.node.store 0 store 0 events ∧ handings q.id events = 0 := by
  have first : (alternately (repeated (1 / 10)) 4 .new).any (fun P => P.state.node.clock = 0 ∧
      (∃ q ∈ P.state.node.activation.queue, q.enqueuedAtNs = 0) ∧
      (alternately (repeated 1) 4 P.state.node.store).any
        fun P' => P'.state.node.clock = 0) = true := by
    decide +kernel
  obtain ⟨P, reached, holds⟩ := (Option.any_eq_true _ _).mp first
  obtain ⟨now, ⟨q, waits, since⟩, again⟩ := of_decide_eq_true holds
  obtain ⟨P', resumed, later⟩ := (Option.any_eq_true _ _).mp again
  have lived : edgeRuntime.Lived P.state.node.store P.state.node.clock _ _ _ :=
    Runtime.Lived.installed.life (now ▸ startedOver_started _) (alternately_works resumed)
  rw [of_decide_eq_true later] at lived
  have lost := queue_is_lost (by decide +kernel) (startedOver_started .new)
    (alternately_works reached) waits (by rw [now]; decide +kernel) lived
    (by rw [since]; decide +kernel)
  rw [now] at lived
  exact ⟨P, q, _, _, alternately_works reached, waits, lived, lost⟩

end Sample
end OpenNtl
