import OpenNtl.ReleaseTiming
import OpenNtl.TeachingOnce

/-! # Forwards that no session takes

An emitted signal and a relayed one are sent by two separate loops. Only the second resolves
the decisions whose peer took no frame.
-/
namespace OpenNtl

open AtomicProgram NodeM RuntimeM

variable {F : Type}

/-- Every forward finds the session of its peer open, with room for all the frames meant for
that peer. -/
def TakesAll (forwards : List Forward) (sessions : HashMap NodeId (Session F)) : Prop :=
  ∀ f ∈ forwards, ∃ session, sessions.lookup f.peer = some session ∧ session.closed = false ∧
    session.outbound.length + forwards.countP (fun g => g.peer = f.peer) ≤ peerQueueDepth

theorem trySendTo_of_open {sessions : HashMap NodeId (Session F)} {peer : NodeId}
    {session : Session F} (found : sessions.lookup peer = some session)
    (opened : session.closed = false) (room : session.outbound.length < peerQueueDepth)
    (signal : Signal F) :
    trySendTo sessions peer signal = (true,
      sessions.insert peer { session with outbound := session.outbound ++ [signal] }) := by
  have free : ¬ (session.closed = true ∨ peerQueueDepth ≤ session.outbound.length) := by
    rintro (closed | full)
    · rw [opened] at closed
      cases closed
    · omega
  simp [trySendTo, found, Session.trySend, free]

theorem takesAll_cons {f : Forward} {rest : List Forward}
    {sessions : HashMap NodeId (Session F)} {session : Session F}
    (found : sessions.lookup f.peer = some session) (opened : session.closed = false)
    (room : session.outbound.length < peerQueueDepth) (signal : Signal F) :
    TakesAll (f :: rest) sessions ↔ TakesAll rest (sessions.insert f.peer
      { session with outbound := session.outbound ++ [signal] }) := by
  constructor
  · intro takes g hg
    obtain ⟨session', found', opened', room'⟩ := takes g (List.mem_cons_of_mem f hg)
    by_cases same : g.peer = f.peer
    · rw [same] at found' room' ⊢
      obtain rfl := Option.some.inj (found.symm.trans found')
      refine ⟨_, AList.lookup_insert _, opened, ?_⟩
      rw [List.countP_cons_of_pos (by simp)] at room'
      rw [List.length_append, List.length_singleton]
      omega
    · refine ⟨session', ?_, opened', ?_⟩
      · rw [AList.lookup_insert_ne same]
        exact found'
      · rw [List.countP_cons_of_neg (by simpa using Ne.symm same)] at room'
        exact room'
  · intro takes g hg
    by_cases same : g.peer = f.peer
    · rw [same]
      refine ⟨session, found, opened, ?_⟩
      rw [List.countP_cons_of_pos (by simp)]
      by_cases more : ∃ h ∈ rest, h.peer = f.peer
      · obtain ⟨h, hh, toward⟩ := more
        obtain ⟨session', found', -, room'⟩ := takes h hh
        rw [toward, AList.lookup_insert] at found'
        obtain rfl := Option.some.inj found'
        rw [toward, List.length_append, List.length_singleton] at room'
        omega
      · have zero : rest.countP (fun h => decide (h.peer = f.peer)) = 0 := by
          apply List.countP_eq_zero.mpr
          intro h hh
          simpa using fun toward => more ⟨h, hh, toward⟩
        omega
    · have later : g ∈ rest := by
        rcases List.mem_cons.mp hg with rfl | later
        · exact absurd rfl same
        · exact later
      obtain ⟨session', found', opened', room'⟩ := takes g later
      rw [AList.lookup_insert_ne same] at found'
      refine ⟨session', found', opened', ?_⟩
      rw [List.countP_cons_of_neg (by simpa using Ne.symm same)]
      exact room'

theorem sendAll_failed_nil_iff (signal : Signal F) (forwards : List Forward)
    (sessions : HashMap NodeId (Session F)) :
    (sendAll signal forwards sessions).1.2 = [] ↔ TakesAll forwards sessions := by
  induction forwards generalizing sessions with
  | nil =>
    refine ⟨fun _ f hf => ?_, fun _ => rfl⟩
    cases hf
  | cons f rest ih =>
    unfold sendAll
    rcases trySendTo_cases sessions f.peer signal with ⟨takes, -⟩ | ⟨closed, failed⟩
    · obtain ⟨session, found, opened, room⟩ := takes
      rw [trySendTo_of_open found opened room, takesAll_cons found opened room signal, ← ih]
      rfl
    · rw [failed]
      refine ⟨fun empty => ?_, fun takes => absurd ?_ closed⟩
      · cases empty
      · obtain ⟨session, found, opened, room⟩ := takes f List.mem_cons_self
        rw [List.countP_cons_of_pos (by simp)] at room
        exact ⟨session, found, opened, by omega⟩

theorem sendAll_perm (signal : Signal F) (forwards : List Forward)
    (sessions : HashMap NodeId (Session F)) :
    ((sendAll signal forwards sessions).1.1 ++ (sendAll signal forwards sessions).1.2).Perm
      forwards := by
  induction forwards generalizing sessions with
  | nil => exact List.Perm.nil
  | cons f rest ih =>
    unfold sendAll
    rcases trySendTo sessions f.peer signal with ⟨taken, after⟩
    cases taken with
    | true => exact (ih after).cons f
    | false => exact List.perm_middle.trans ((ih after).cons f)

theorem sendAll_sent_nil {signal : Signal F} {forwards : List Forward}
    {sessions : HashMap NodeId (Session F)} (none : (sendAll signal forwards sessions).1.1 = []) :
    sendAll signal forwards sessions = (([], forwards), sessions) := by
  induction forwards generalizing sessions with
  | nil => rfl
  | cons f rest ih =>
    rcases trySendTo_cases sessions f.peer signal with ⟨-, sent⟩ | ⟨-, failed⟩
    · unfold sendAll at none
      simp only [sent, if_true] at none
      cases none
    · unfold sendAll at none ⊢
      rw [failed] at none ⊢
      simp only [Bool.false_eq_true, if_false] at none ⊢
      rw [ih none]

def outcomeOf (s : NodeState F) (id : JournalId) : Option Outcome :=
  (s.store.decision id).map JournalEntry.outcome

def Waits (s : NodeState F) (f : Forward) : Prop := outcomeOf s f.journalId = some .pending

theorem outcomeOf_of_mem {s : NodeState F} (ordered : JournalOrdered s.store)
    {e : JournalEntry F} (he : e ∈ s.store.journal) {id : JournalId} (named : e.id = some id) :
    outcomeOf s id = some e.outcome := by
  unfold outcomeOf
  rw [ordered.decision_of_mem he named]
  rfl

theorem outcomeOf_congr {s t : NodeState F} (same : t.store.journal = s.store.journal)
    (id : JournalId) : outcomeOf t id = outcomeOf s id :=
  congrArg (Option.map JournalEntry.outcome) (MemoryStore.decision_congr same id)

theorem journalChoices_frame (signal : Signal F) (nowNs : ℕ) (chosen : List (Chosen F))
    (s : NodeState F) :
    StoreOnly Appends s ((chosen.mapM (Node.journalChoice signal nowNs)).run s).2 := by
  have each : ∀ c, (Node.journalChoice signal nowNs c).Within (StoreOnly Appends) := by
    intro c
    refine (StoreOnly.callStore Appends.refl fun st => ?_).bind fun id => Prog.Within.of_pure _
    exact Appends.appendDecision st rfl rfl
  exact (Prog.Within.mapM each chosen).run (StoreOnly.refl Appends.refl)
    (fun hs ht => hs.trans ht Appends.trans) s

theorem outcomeOf_grows {s t : NodeState F} (grown : JournalGrows s.store t.store)
    {id : JournalId} {o : Outcome} (known : outcomeOf s id = some o) :
    outcomeOf t id = some o := by
  obtain ⟨new, journal, -⟩ := grown
  obtain ⟨e, found, rfl⟩ := Option.map_eq_some_iff.mp known
  unfold outcomeOf MemoryStore.decision
  unfold MemoryStore.decision at found
  rw [journal, List.find?_append, found]
  rfl

theorem journalChoices_pending (signal : Signal F) (nowNs : ℕ) {chosen : List (Chosen F)}
    {s t : NodeState F} {forwards : List Forward}
    (run : (chosen.mapM (Node.journalChoice signal nowNs)).run s = (.ok forwards, t)) :
    ∀ f ∈ forwards, ∃ e ∈ t.store.journal, e.id = some f.journalId ∧ e.outcome = .pending := by
  induction chosen generalizing s forwards with
  | nil =>
    obtain ⟨rfl, -⟩ := Prod.mk.inj run |>.imp Except.ok.inj id
    intro f hf
    cases hf
  | cons c rest ih =>
    rw [List.mapM_cons] at run
    obtain ⟨f, s₁, first, later⟩ := Prog.run_bind_eq_ok.mp run
    obtain ⟨fs, s₂, others, last⟩ := Prog.run_bind_eq_ok.mp later
    obtain ⟨rfl, rfl⟩ := Prod.mk.inj last |>.imp Except.ok.inj id
    obtain ⟨id, s₃, appended, made⟩ := Prog.run_bind_eq_ok.mp first
    obtain ⟨-, rfl, rfl⟩ := callStore_eq_ok.mp appended
    obtain ⟨rfl, rfl⟩ := Prod.mk.inj made |>.imp Except.ok.inj id
    have grown := journalChoices_frame signal nowNs rest
      (s.stored (s.store.appendDecision (Node.decisionFor signal nowNs c)).2)
    rw [others] at grown
    obtain ⟨new, journal, -⟩ := grown.store.journal
    intro g hg
    rcases List.mem_cons.mp hg with rfl | hg
    · refine ⟨{ Node.decisionFor signal nowNs c with id := some _ }, ?_, rfl, rfl⟩
      rw [journal]
      exact List.mem_append_left _ (List.mem_append_right _ List.mem_cons_self)
    · exact ih others g hg

variable [Scalar F]

namespace Node

variable (node : Node F)

theorem planForwarding_pending {signal : Signal F} {arrival : Option SynapseId} {nowNs : ℕ}
    {s t : NodeState F} {forwards : List Forward}
    (run : (node.planForwarding signal arrival nowNs).run s = (.ok forwards, t)) :
    ∀ f ∈ forwards, ∃ e ∈ t.store.journal, e.id = some f.journalId ∧ e.outcome = .pending := by
  have nothing : forwards = [] → ∀ f ∈ forwards,
      ∃ e ∈ t.store.journal, e.id = some f.journalId ∧ e.outcome = .pending := by
    rintro rfl f hf
    cases hf
  unfold planForwarding at run
  split at run
  · exact nothing (Except.ok.inj (Prod.mk.inj run).1).symm
  · obtain ⟨records, s₁, -, later⟩ := Prog.run_bind_eq_ok.mp run
    split at later
    · exact nothing (Except.ok.inj (Prod.mk.inj later).1).symm
    · obtain ⟨chosen, s₂, -, journalled⟩ := Prog.run_bind_eq_ok.mp later
      exact journalChoices_pending signal nowNs journalled

theorem receiveLocal_waits {signal : Signal F} {s t : NodeState F} {d : Disposition F}
    (ordered : JournalOrdered s.store)
    (run : (node.receiveLocal signal).run s = (.ok d, t)) : ∀ f ∈ d.forwardTo, Waits t f := by
  have kept := (node.receiveLocal_quiet journalGrows_across.toHoldsAcrossRouting signal).run
    (Quiet.refl JournalGrows.refl) (fun hs ht => Quiet.trans (R := JournalGrows) JournalGrows.trans hs ht) s
  rw [run] at kept
  have refused : ∀ reason hops, d = .refuse signal reason hops → ∀ f ∈ d.forwardTo, Waits t f := by
    rintro reason hops rfl f hf
    cases hf
  unfold receiveLocal at run
  rw [now_bind_run] at run
  split at run
  · exact refused _ _ (Except.ok.inj (Prod.mk.inj run).1).symm
  · obtain ⟨forwards, s₁, planned, later⟩ := Prog.run_bind_eq_ok.mp run
    split at later
    · exact refused _ _ (Except.ok.inj (Prod.mk.inj later).1).symm
    · obtain ⟨rfl, rfl⟩ := Prod.mk.inj later |>.imp Except.ok.inj id
      intro f hf
      obtain ⟨e, he, named, pending⟩ := node.planForwarding_pending planned f hf
      exact (outcomeOf_of_mem (ordered.grows kept.store) he named).trans (congrArg some pending)

/-- The transport failures of a list of forwards, recorded one after another. -/
def failAll (failed : List Forward) (s : NodeState F) : NodeState F :=
  failed.foldl (fun t f => ((node.failForward f.journalId).run t).2) s

end Node

namespace Runtime

variable (rt : Runtime F)

theorem failForwards_state (failed : List Forward) (s : RuntimeState F) :
    ((failed.forM fun forward => do
      let _ ← callNode (rt.node.failForward forward.journalId)) : RuntimeM F PUnit).run s =
        (.ok ⟨⟩, { s with node := rt.node.failAll failed s.node }) := by
  induction failed generalizing s with
  | nil => rfl
  | cons f rest ih => exact ih _

theorem route_run {signal : Signal F} {s : RuntimeState F} {t : NodeState F} {d : Disposition F}
    (planned : (rt.node.receiveLocal signal).run s.node = (.ok d, t)) :
    ∃ events, (rt.route signal).run s = (.ok (), { s with
      node := t
      sessions := (sendAll (rt.outbound signal) d.forwardTo s.sessions).2
      events := events }) := by
  unfold route
  rw [Prog.run_bind_ok (callNode_run _ _), planned]
  exact ⟨_, rfl⟩

/-- A relayed signal is sent to those who take it, and the rest is recorded as failed. -/
theorem forwardSignal_state (signal : Signal F) (forwards : List Forward) (s : RuntimeState F) :
    ∃ events, (rt.forwardSignal signal forwards).run s =
      (.ok (decide (0 < (sendAll (rt.outbound signal) forwards s.sessions).1.1.length)), { s with
        node := rt.node.failAll (sendAll (rt.outbound signal) forwards s.sessions).1.2 s.node
        sessions := (sendAll (rt.outbound signal) forwards s.sessions).2
        events := events }) := by
  unfold forwardSignal
  by_cases empty : forwards.isEmpty = true
  · rw [if_pos empty, List.isEmpty_iff.mp empty]
    exact ⟨s.events, rfl⟩
  · rw [if_neg empty]
    let split := sendAll (rt.outbound signal) forwards s.sessions
    have recorded := rt.failForwards_state split.1.2 { s with sessions := split.2 }
    exact ⟨_, Prog.run_bind_ok recorded⟩

end Runtime

def queuedFor (s : RuntimeState F) (peer : NodeId) : List (Signal F) :=
  ((s.sessions.lookup peer).map Session.outbound).getD []

/-- The call ends with an error, or its origin is sent a negative receipt. -/
def Reported (rt : Runtime F) (signal : Signal F) (s : RuntimeState F)
    (after : Except RuntimeError Unit × RuntimeState F) : Prop :=
  (∃ e, after.1 = .error e) ∨
    ∃ sent, queuedFor after.2 signal.origin = queuedFor s signal.origin ++ sent ∧
      ∃ frame ∈ sent, frame.signalType = .receipt ∧ ∃ receipt : Receipt,
        frame.payload = rt.crypto.receiptToValue receipt ∧
          receipt.correlationId = signal.id ∧ receipt.isDelivered = false

/-- Every forward that no session took is resolved as a transport failure, every other one is
pending, and an acknowledged signal that no session took is reported. -/
structure SendsAccounted (rt : Runtime F) (signal : Signal F) (forwards : List Forward)
    (s : RuntimeState F) (after : Except RuntimeError Unit × RuntimeState F) : Prop where
  failed : ∀ f ∈ (sendAll (rt.outbound signal) forwards s.sessions).1.2,
    outcomeOf after.2.node f.journalId = some .transportFailure
  pending : ∀ f ∈ (sendAll (rt.outbound signal) forwards s.sessions).1.1, Waits after.2.node f
  reported : signal.requiresReceipt = true →
    (sendAll (rt.outbound signal) forwards s.sessions).1.1 = [] → Reported rt signal s after

def RuntimeState.planned (s : RuntimeState F) (t : NodeState F) : RuntimeState F :=
  { s with node := t }

/-- The same plan, sent as an emission and sent as a relayed signal. The relayed signal's origin
is told by `finishRelease`, from what `forwardSignal` returns. -/
structure BothPathsAccount (rt : Runtime F) (signal : Signal F) (d : Disposition F)
    (s : RuntimeState F) (t : NodeState F) : Prop where
  emitted : SendsAccounted rt signal d.forwardTo s ((rt.route signal).run s)
  relayed : SendsAccounted rt signal d.forwardTo (s.planned t)
    ((rt.finishRelease signal.id signal d.forwardTo).run (s.planned t))
  journal : ((rt.route signal).run s).2.node.store.journal =
    ((rt.forwardSignal signal d.forwardTo).run (s.planned t)).2.node.store.journal

namespace Runtime

variable (rt : Runtime F)

theorem makeReceipt_outcome (receipt : Receipt) (origin : NodeId) {s : RuntimeState F}
    {id : JournalId} {o : Outcome} (known : outcomeOf s.node id = some o) :
    outcomeOf ((rt.makeReceipt receipt origin).run s).2.node id = some o := by
  have quiet := (rt.node.emit_quiet journalGrows_across.toHoldsAcrossRouting
    (rt.crypto.receiptSignal receipt origin)).run (Quiet.refl JournalGrows.refl)
      (fun hs ht => Quiet.trans (R := JournalGrows) JournalGrows.trans hs ht) s.node
  have grown := outcomeOf_grows quiet.store known
  have noted : (mark (.answered receipt origin)).run s =
      (.ok (), { s with log := s.log ++ [.answered receipt origin] }) := rfl
  unfold makeReceipt
  rw [Prog.run_bind_ok noted, Prog.run_bind_ok (callNode_run _ _)]
  cases ((rt.node.emit (rt.crypto.receiptSignal receipt origin)).run s.node).1 with
  | error e => exact grown
  | ok signal => exact grown

theorem sendReceiptTo_outcome (receipt : Receipt) (origin : NodeId) {s : RuntimeState F}
    {id : JournalId} {o : Outcome} (known : outcomeOf s.node id = some o) :
    outcomeOf ((rt.sendReceiptTo receipt origin).run s).2.node id = some o := by
  obtain ⟨made, t, run, -, -⟩ := rt.makeReceipt_run receipt origin s
  have grown := rt.makeReceipt_outcome receipt origin known
  rw [run] at grown
  unfold sendReceiptTo
  rw [Prog.run_bind_ok run]
  cases made with
  | none => exact grown
  | some signal => exact grown

theorem finishRelease_outcome (signal : Signal F) (forwards : List Forward) {s : RuntimeState F}
    {id : JournalId} {o : Outcome}
    (known : outcomeOf (rt.node.failAll
      (sendAll (rt.outbound signal) forwards s.sessions).1.2 s.node) id = some o) :
    outcomeOf ((rt.finishRelease signal.id signal forwards).run s).2.node id = some o := by
  obtain ⟨events, sent⟩ := rt.forwardSignal_state signal forwards s
  unfold finishRelease
  rw [Prog.run_bind_ok sent]
  by_cases owed : signal.requiresReceipt = true
  · rw [if_pos owed]
    have told := rt.sendReceiptTo_outcome (releaseReceipt signal.id signal forwards
      (decide (0 < (sendAll (rt.outbound signal) forwards s.sessions).1.1.length))) signal.origin
      (s := { s with
        node := rt.node.failAll (sendAll (rt.outbound signal) forwards s.sessions).1.2 s.node
        sessions := (sendAll (rt.outbound signal) forwards s.sessions).2
        events := events }) known
    rw [Prog.run_bind_pure_snd]
    exact told
  · rw [if_neg owed]
    exact known

end Runtime

/-- A plan that is taken whole, and is not empty where a receipt is owed, is accounted for. -/
theorem taken_plan_accounted (rt : Runtime F) {signal : Signal F} {s : RuntimeState F}
    {d : Disposition F} {t : NodeState F} (ordered : JournalOrdered s.node.store)
    (planned : (rt.node.receiveLocal signal).run s.node = (.ok d, t))
    (takes : TakesAll d.forwardTo s.sessions)
    (routed : signal.requiresReceipt = true → d.forwardTo ≠ []) :
    BothPathsAccount rt signal d s t := by
  have waits := rt.node.receiveLocal_waits ordered planned
  have split := sendAll_perm (rt.outbound signal) d.forwardTo s.sessions
  obtain ⟨events, sent⟩ := rt.route_run planned
  have empty := (sendAll_failed_nil_iff (rt.outbound signal) d.forwardTo s.sessions).mpr takes
  have some : signal.requiresReceipt = true →
      (sendAll (rt.outbound signal) d.forwardTo s.sessions).1.1 ≠ [] := by
    intro owed none
    rw [empty, none] at split
    exact routed owed split.symm.eq_nil
  have kept : rt.node.failAll
      (sendAll (rt.outbound signal) d.forwardTo (s.planned t).sessions).1.2
      (s.planned t).node = t := by
    show rt.node.failAll (sendAll (rt.outbound signal) d.forwardTo s.sessions).1.2 t = t
    rw [empty]
    rfl
  have taken : ∀ f ∈ (sendAll (rt.outbound signal) d.forwardTo s.sessions).1.1, Waits t f :=
    fun f hf => waits f (split.subset (List.mem_append_left _ hf))
  refine ⟨⟨?_, ?_, ?_⟩, ⟨?_, ?_, ?_⟩, ?_⟩
  · intro f hf
    rw [empty] at hf
    cases hf
  · intro f hf
    rw [sent]
    exact taken f hf
  · exact fun owed none => absurd none (some owed)
  · intro f hf
    rw [show (s.planned t).sessions = s.sessions from rfl, empty] at hf
    cases hf
  · intro f hf
    apply rt.finishRelease_outcome
    rw [kept]
    exact taken f hf
  · exact fun owed none => absurd none (some owed)
  · obtain ⟨events', relayed⟩ :=
      rt.forwardSignal_state signal d.forwardTo (s.planned t)
    rw [sent, relayed, kept]

/-- The two paths account for a plan, and alike, exactly when every forward of it is taken and an
acknowledged signal has one. -/
theorem unsent_forwards_accounted_iff (rt : Runtime F) {signal : Signal F} {s : RuntimeState F}
    {d : Disposition F} {t : NodeState F} (ordered : JournalOrdered s.node.store)
    (planned : (rt.node.receiveLocal signal).run s.node = (.ok d, t)) :
    BothPathsAccount rt signal d s t ↔
      TakesAll d.forwardTo s.sessions ∧ (signal.requiresReceipt = true → d.forwardTo ≠ []) := by
  have waits := rt.node.receiveLocal_waits ordered planned
  have split := sendAll_perm (rt.outbound signal) d.forwardTo s.sessions
  have allTaken := sendAll_failed_nil_iff (rt.outbound signal) d.forwardTo s.sessions
  obtain ⟨events, sent⟩ := rt.route_run planned
  constructor
  · intro accounts
    constructor
    · apply allTaken.mp
      apply List.eq_nil_iff_forall_not_mem.mpr
      intro f hf
      have failed := accounts.emitted.failed f hf
      have pending := waits f (split.subset (List.mem_append_right _ hf))
      rw [sent] at failed
      exact absurd (failed.symm.trans pending) (by simp)
    · intro owed empty
      have none : (sendAll (rt.outbound signal) d.forwardTo s.sessions).1.1 = [] := by
        rw [empty]
        rfl
      have told := accounts.emitted.reported owed none
      rw [sent] at told
      rcases told with ⟨e, failed⟩ | ⟨extra, queued, frame, hframe, -⟩
      · cases failed
      · have same : queuedFor s signal.origin = queuedFor s signal.origin ++ extra := by
          simpa [empty, sendAll, queuedFor] using queued
        rw [List.self_eq_append_right.mp same] at hframe
        cases hframe
  · rintro ⟨takes, routed⟩
    exact taken_plan_accounted rt ordered planned takes routed

/-! An emission whose only chosen peer has gone, and one whose peer is still there. -/

section Emission

def emission : Disposition ℚ :=
  ((edgeNode.receiveLocal direct).run planned.before).1.toOption.getD .nothing

theorem emission_planned :
    (edgeNode.receiveLocal direct).run planned.before = (.ok emission, planned.after) := by
  have returned : ((edgeNode.receiveLocal direct).run planned.before).1.isOk = true := by
    decide +kernel
  have after : planned.after = ((edgeNode.receiveLocal direct).run planned.before).2 := by
    show ((Reply.disposition <$> edgeNode.receiveLocal direct).run planned.before).2 = _
    rw [Prog.run_map]
  refine Prod.ext ?_ after.symm
  unfold emission
  cases result : ((edgeNode.receiveLocal direct).run planned.before).1 with
  | error e =>
    rw [result] at returned
    cases returned
  | ok d => rfl

def abandoned : RuntimeState ℚ := ⟨planned.before, ∅, ∅, [], [], []⟩

def attended : RuntimeState ℚ :=
  { abandoned with sessions := (∅ : HashMap NodeId (Session ℚ)).insert neighbour ⟨[], false, [1]⟩ }

/-- The decision of an emission that reached nobody stays pending, and the emitter of an
acknowledged signal learns nothing of it. -/
theorem unsent_emission_stays_pending :
    ((edgeRuntime.route direct).run abandoned).1.isOk = true ∧
    outcomeOf ((edgeRuntime.route direct).run abandoned).2.node ⟨1⟩ = some .pending ∧
    ¬ ∀ (rt : Runtime ℚ) (signal : Signal ℚ) (s : RuntimeState ℚ) (d : Disposition ℚ)
      (t : NodeState ℚ), JournalOrdered s.node.store →
      (rt.node.receiveLocal signal).run s.node = (.ok d, t) → BothPathsAccount rt signal d s t := by
  refine ⟨by decide +kernel, by decide +kernel, fun always => ?_⟩
  have accounts := always edgeRuntime direct abandoned emission planned.after rfl emission_planned
  have left : (sendAll (edgeRuntime.outbound direct) emission.forwardTo abandoned.sessions).1.2.map
      Forward.journalId = [⟨1⟩] := by decide +kernel
  have pending : outcomeOf ((edgeRuntime.route direct).run abandoned).2.node ⟨1⟩ =
      some .pending := by decide +kernel
  obtain ⟨f, hf, named⟩ := List.mem_map.mp (left ▸ List.mem_singleton_self _ :
    (⟨1⟩ : JournalId) ∈ _)
  have failed := accounts.emitted.failed f hf
  rw [named, pending] at failed
  cases failed

theorem attended_emission_accounted :
    emission.forwardTo.map Forward.peer = [neighbour] ∧
      BothPathsAccount edgeRuntime direct emission attended planned.after := by
  have peers : emission.forwardTo.map Forward.peer = [neighbour] := by decide +kernel
  refine ⟨peers, (unsent_forwards_accounted_iff edgeRuntime (s := attended) rfl emission_planned).mpr
    ⟨fun f hf => ?_, fun _ none => ?_⟩⟩
  · have only : f.peer = neighbour := by simpa [peers] using List.mem_map_of_mem (f := Forward.peer) hf
    refine ⟨⟨[], false, [1]⟩, ?_, rfl, ?_⟩
    · rw [only]
      exact AList.lookup_insert _
    · have few := List.countP_le_length (p := fun g => decide (g.peer = f.peer))
        (l := emission.forwardTo)
      have one := congrArg List.length peers
      rw [List.length_map, List.length_singleton] at one
      rw [one] at few
      have room : 1 ≤ peerQueueDepth := by decide
      rw [List.length_nil, Nat.zero_add]
      omega
  · rw [none] at peers
    cases peers

end Emission

def StaysUp (s s' : NodeState F) : Prop := s.faults = [] → s'.faults = []

namespace StaysUp

omit [Scalar F]

theorem callStore {α : Type} (op : MemoryStore F → α × MemoryStore F) :
    (callStore op).Within StaysUp := by
  refine (Prog.Within.of_act fun s up => ?_).bind fun r => Prog.Within.of_ofExcept _
  cases nextFault s with
  | none => simp [up]
  | some f => simp [up]

theorem now : (NodeM.now (F := F)).Within StaysUp := Prog.Within.of_act fun _ => id

theorem run {α : Type} {p : NodeM F α} (within : p.Within StaysUp) {s : NodeState F}
    (up : s.faults = []) : (p.run s).2.faults = [] :=
  within.run (fun _ => id) (fun hs ht h => ht (hs h)) s up

end StaysUp

namespace Node

variable (node : Node F)

theorem normalizeOutboundWeights_staysUp : node.normalizeOutboundWeights.Within StaysUp := by
  refine (StaysUp.callStore _).bind fun records => ?_
  split
  · exact Prog.Within.of_pure _
  · split
    · exact Prog.Within.of_pure _
    · refine Prog.Within.bind (Prog.Within.forM (fun _ => ?_) _) fun _ => Prog.Within.of_pure _
      exact StaysUp.callStore _

theorem updateSynapse_staysUp (entry : JournalEntry F) (outcome : Outcome) (nowNs : ℕ) :
    (node.updateSynapse entry outcome nowNs).Within StaysUp := by
  refine (StaysUp.callStore _).bind fun used => (StaysUp.callStore _).bind fun found => ?_
  split
  · exact Prog.Within.of_pure _
  · have finish : ∀ (r : SynapseRecord F) (u : WeightUpdate F), ((do
        writeStore fun st => st.putSynapse r
        let _ ← node.normalizeOutboundWeights
        return u) : NodeM F _).Within StaysUp := fun r u =>
      (StaysUp.callStore _).bind fun _ => node.normalizeOutboundWeights_staysUp.bind fun _ =>
        Prog.Within.of_pure _
    dsimp only
    split
    · exact (StaysUp.callStore _).bind fun _ => finish _ _
    · exact finish _ _

theorem failForward_staysUp (id : JournalId) : (node.failForward id).Within StaysUp := by
  refine StaysUp.now.bind fun now => (StaysUp.callStore _).bind fun resolved => ?_
  unfold learnIfResolvedNow
  split
  · exact Prog.Within.of_pure _
  · split
    · refine Prog.Within.map _ (Prog.Within.bind (Prog.Within.of_act fun _ up => up) fun _ => ?_)
      exact node.updateSynapse_staysUp _ _ _
    · exact Prog.Within.of_pure _

theorem failForward_resolves {id : JournalId} {s : NodeState F} (up : s.faults = [])
    (waits : outcomeOf s id = some .pending) :
    outcomeOf ((node.failForward id).run s).2 id = some .transportFailure := by
  obtain ⟨e, found, pending⟩ := Option.map_eq_some_iff.mp waits
  have fault : nextFault s = none := by simp [nextFault, up]
  have spec := node.settle_spec id .transportFailure s.clock s
  have run : (node.failForward id).run s = (node.settle id .transportFailure s.clock).run s := rfl
  rw [run]
  generalize (node.settle id .transportFailure s.clock).run s = r at spec ⊢
  cases spec with
  | failed failed =>
    rw [fault] at failed
    cases failed
  | unknown _ missing =>
    rw [found] at missing
    cases missing
  | earlier _ found' done _ =>
    obtain rfl := Option.some.inj (found.symm.trans found')
    rw [pending] at done
    cases done
  | again _ found' done _ =>
    obtain rfl := Option.some.inj (found.symm.trans found')
    rw [pending] at done
    cases done
  | @learns _ e' found' _ =>
    obtain ⟨-, journal, -⟩ := node.applyOutcomeToSynapse_learned
      (MemoryStore.resolved .transportFailure s.clock e') .transportFailure s.clock
      (afterResolve id .transportFailure s.clock s)
    rw [outcomeOf_congr journal]
    exact congrArg (Option.map JournalEntry.outcome) (MemoryStore.decision_resolved found' ‹_›)

theorem failForward_other {id other : JournalId} (ne : other ≠ id) (s : NodeState F) :
    outcomeOf ((node.failForward id).run s).2 other = outcomeOf s other :=
  congrArg (Option.map JournalEntry.outcome) (node.settle_other ne .transportFailure s.clock s)

theorem failAll_other (failed : List Forward) {id : JournalId}
    (other : ∀ f ∈ failed, id ≠ f.journalId) (s : NodeState F) :
    outcomeOf (node.failAll failed s) id = outcomeOf s id := by
  induction failed generalizing s with
  | nil => rfl
  | cons f rest ih =>
    have later := ih (fun g hg => other g (List.mem_cons_of_mem f hg))
      ((node.failForward f.journalId).run s).2
    exact later.trans (node.failForward_other (other f List.mem_cons_self) s)

theorem failAll_resolves {failed : List Forward} {s : NodeState F} (up : s.faults = [])
    (distinct : (failed.map Forward.journalId).Nodup) (waits : ∀ f ∈ failed, Waits s f) :
    ∀ f ∈ failed, outcomeOf (node.failAll failed s) f.journalId = some .transportFailure := by
  induction failed generalizing s with
  | nil =>
    intro f hf
    cases hf
  | cons f rest ih =>
    have apart := List.nodup_cons.mp distinct
    have first := node.failForward_resolves up (waits f List.mem_cons_self)
    intro g hg
    rcases List.mem_cons.mp hg with rfl | hg
    · have kept := node.failAll_other rest
        (fun h hh (same : g.journalId = h.journalId) =>
          apart.1 (same ▸ List.mem_map_of_mem hh))
        ((node.failForward g.journalId).run s).2
      exact kept.trans first
    · refine ih (StaysUp.run (node.failForward_staysUp f.journalId) up) apart.2 (fun h hh => ?_) g hg
      have ne : h.journalId ≠ f.journalId := fun same => apart.1 (same ▸ List.mem_map_of_mem hh)
      exact (node.failForward_other ne s).trans (waits h (List.mem_cons_of_mem f hh))

theorem failAll_staysUp (failed : List Forward) {s : NodeState F} (up : s.faults = []) :
    (node.failAll failed s).faults = [] := by
  induction failed generalizing s with
  | nil => exact up
  | cons f rest ih => exact ih (StaysUp.run (node.failForward_staysUp f.journalId) up)

omit [Scalar F] in
theorem emit_run (builder : SignalBuilder F) {s : NodeState F} (fault : nextFault s = none) :
    ∃ id t, (node.emit builder).run s =
      (.ok (builder.buildUnsignedWith node.identity s.clock id), t) := by
  unfold emit
  rw [now_bind_run, now_bind_run, now_bind_run]
  refine ⟨_, _, Prog.run_bind_ok rfl |>.trans (Prog.run_bind_ok (callStore_run_ok ?_))⟩
  exact fault

end Node

omit [Scalar F] in
theorem trySendTo_queued {s : RuntimeState F} {peer : NodeId} (takes : Takes s.sessions peer)
    (frame : Signal F) :
    queuedFor { s with sessions := (trySendTo s.sessions peer frame).2 } peer =
      queuedFor s peer ++ [frame] := by
  obtain ⟨session, found, opened, room⟩ := takes
  rw [trySendTo_of_open found opened room]
  simp only [queuedFor, AList.lookup_insert]
  rw [Option.mem_def.mp found]
  rfl

theorem Crypto.signSignal_ok (c : Crypto F) {signal : Signal F} {key bytes signature : Bytes}
    (encoded : c.toVec signal.unsigned = .ok bytes) (signed : c.sign bytes key = .ok signature) :
    c.signSignal signal key = .ok { signal with signature := signature } := by
  unfold signSignal signingBytes
  rw [encoded]
  show (c.sign bytes key >>= _) = _
  rw [signed]
  rfl

namespace Runtime

variable (rt : Runtime F)

/-- While no store call fails and signatures can be made, a receipt reaches the session of its
origin, if that takes a frame. -/
theorem sendReceiptTo_queues (receipt : Receipt) (origin : NodeId) {s : RuntimeState F}
    (up : s.node.faults = []) (encodes : ∀ x, ∃ b, rt.crypto.toVec x = .ok b)
    (signs : ∀ b, ∃ sig, rt.crypto.sign b rt.identity.privateKey = .ok sig)
    (takes : Takes s.sessions origin) :
    ∃ frame, queuedFor ((rt.sendReceiptTo receipt origin).run s).2 origin =
        queuedFor s origin ++ [frame] ∧
      frame.signalType = .receipt ∧ frame.payload = rt.crypto.receiptToValue receipt := by
  have fault : nextFault s.node = none := by simp [nextFault, up]
  obtain ⟨id, t, emitted⟩ := rt.node.emit_run (rt.crypto.receiptSignal receipt origin) fault
  obtain ⟨bytes, encoded⟩ := encodes ((rt.crypto.receiptSignal receipt origin).buildUnsignedWith
    rt.node.identity s.node.clock id).unsigned
  obtain ⟨signature, signed⟩ := signs bytes
  have noted : (mark (.answered receipt origin)).run s =
      (.ok (), { s with log := s.log ++ [.answered receipt origin] }) := rfl
  have made : (rt.makeReceipt receipt origin).run s =
      (.ok (some { (rt.crypto.receiptSignal receipt origin).buildUnsignedWith rt.node.identity
          s.node.clock id with signature := signature }),
        { s with node := t, log := s.log ++ [.answered receipt origin] }) := by
    unfold makeReceipt
    rw [Prog.run_bind_ok noted, Prog.run_bind_ok (callNode_run _ _)]
    simp only [emitted]
    rw [rt.crypto.signSignal_ok encoded signed]
    rfl
  unfold sendReceiptTo
  rw [Prog.run_bind_ok made]
  refine ⟨_, trySendTo_queued (s := { s with
    node := t, log := s.log ++ [.answered receipt origin] }) takes _, rfl, rfl⟩

/-- A relayed signal is accounted for, whatever the sessions take, while no store call fails,
the plan is pending, and the origin can be told of a failure. -/
theorem relayed_forwards_accounted {signal : Signal F} {forwards : List Forward}
    {s : RuntimeState F} (up : s.node.faults = [])
    (distinct : (forwards.map Forward.journalId).Nodup) (waits : ∀ f ∈ forwards, Waits s.node f)
    (encodes : ∀ x, ∃ b, rt.crypto.toVec x = .ok b)
    (signs : ∀ b, ∃ sig, rt.crypto.sign b rt.identity.privateKey = .ok sig)
    (told : signal.requiresReceipt = true → forwards ≠ [] ∧ Takes s.sessions signal.origin) :
    SendsAccounted rt signal forwards s ((rt.finishRelease signal.id signal forwards).run s) := by
  have split := sendAll_perm (rt.outbound signal) forwards s.sessions
  have apart : ((sendAll (rt.outbound signal) forwards s.sessions).1.1.map Forward.journalId ++
      (sendAll (rt.outbound signal) forwards s.sessions).1.2.map Forward.journalId).Nodup := by
    rw [← List.map_append]
    exact (split.map _).nodup_iff.mpr distinct
  have resolved := rt.node.failAll_resolves up (List.nodup_append.mp apart).2.1
    fun f hf => waits f (split.subset (List.mem_append_right _ hf))
  constructor
  · intro f hf
    apply rt.finishRelease_outcome
    exact resolved f hf
  · intro f hf
    apply rt.finishRelease_outcome
    rw [rt.node.failAll_other _ fun g hg same => (List.nodup_append.mp apart).2.2 _
      (List.mem_map_of_mem hf) _ (List.mem_map_of_mem hg) same]
    exact waits f (split.subset (List.mem_append_left _ hf))
  · intro owed none
    obtain ⟨routed, takes⟩ := told owed
    have untouched := sendAll_sent_nil none
    obtain ⟨events, sent⟩ := rt.forwardSignal_state signal forwards s
    rw [untouched] at sent
    have some : forwards.isEmpty = false := by simpa using routed
    obtain ⟨frame, queued, kind, payload⟩ := rt.sendReceiptTo_queues
      (releaseReceipt signal.id signal forwards false) signal.origin
      (s := { s with node := rt.node.failAll forwards s.node, events := events })
      (rt.node.failAll_staysUp forwards up) encodes signs takes
    refine Or.inr ⟨[frame], ?_, frame, List.mem_cons_self, kind, _, payload, ?_, ?_⟩
    · unfold finishRelease
      rw [Prog.run_bind_ok sent, if_pos owed, Prog.run_bind_pure_snd]
      exact queued
    · simp [releaseReceipt, some, Receipt.rejected]
    · simp [releaseReceipt, some, Receipt.rejected, Receipt.isDelivered]

end Runtime

end OpenNtl
