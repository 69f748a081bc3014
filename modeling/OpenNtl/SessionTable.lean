import OpenNtl.Runtime

/-! # Session tasks

Any number of tasks each drive one connection. A task checks the table and inserts its session
under one write lock. Its writer pump and its reader end independently of each other. When the
reader has ended the task removes, under the write lock again, what is registered for its peer.
-/
namespace OpenNtl

inductive SessionTask where
  | connecting
  | handshaken (peer : PeerIdentity)
  | reading (peer : PeerIdentity)
  | leaving (peer : PeerIdentity)
  | removed
  | refused (e : RuntimeError)
  | ended

namespace SessionTask

/-- The peer whose session the task has registered and not yet removed. -/
def held : SessionTask → Option PeerIdentity
  | .reading peer | .leaving peer => some peer
  | _ => none

def begun : SessionTask → Bool
  | .reading _ | .leaving _ | .removed | .ended => true
  | _ => false

end SessionTask

/-- A registered session. Its sender belongs to the channel that the task `outbound` made. -/
structure SessionEntry (ι : Type) where
  outbound : ι
  publicKey : Bytes
  deriving DecidableEq, Repr

structure SessionTable (ι : Type) where
  sessions : HashMap NodeId (SessionEntry ι)
  /-- The writer pump of this task has ended, and with it the receiver of its channel. -/
  closed : ι → Bool
  task : ι → SessionTask

inductive SessionEvent (ι : Type) where
  | handshake (i : ι) (peer : PeerIdentity)
  | register (i : ι)
  | pumpEnds (i : ι)
  | readerEnds (i : ι)
  | remove (i : ι)
  | abort (i : ι)
  deriving DecidableEq, Repr

variable {ι : Type} [DecidableEq ι]

namespace SessionTable

omit [DecidableEq ι] in
def new : SessionTable ι := ⟨∅, fun _ => false, fun _ => .connecting⟩

def duplicateMessage (peer : NodeId) : String :=
  peer.display ++ " already has a live session; refusing the duplicate"

def refusal (peer : NodeId) : SessionTask := .refused (.handshake (duplicateMessage peer))

/-- The block under the write lock: refuse rather than replace, unless the sender is closed. -/
def checkAndInsert (s : SessionTable ι) (i : ι) (peer : PeerIdentity) : SessionTable ι :=
  let insert : SessionTable ι :=
    { s with
      sessions := s.sessions.insert peer.nodeId ⟨i, peer.publicKey⟩
      task := Function.update s.task i (.reading peer) }
  match s.sessions.lookup peer.nodeId with
  | some existing =>
    if s.closed existing.outbound = false then
      { s with task := Function.update s.task i (refusal peer.nodeId) }
    else insert
  | none => insert

def step (s : SessionTable ι) : SessionEvent ι → Option (SessionTable ι)
  | .handshake i peer =>
    match s.task i with
    | .connecting => some { s with task := Function.update s.task i (.handshaken peer) }
    | _ => none
  | .register i =>
    match s.task i with
    | .handshaken peer => some (s.checkAndInsert i peer)
    | _ => none
  | .pumpEnds i =>
    match s.task i with
    | .reading _ | .leaving _ | .removed =>
      some { s with closed := Function.update s.closed i true }
    | _ => none
  | .readerEnds i =>
    match s.task i with
    | .reading peer => some { s with task := Function.update s.task i (.leaving peer) }
    | _ => none
  | .remove i =>
    match s.task i with
    | .leaving peer =>
      some { s with
        sessions := s.sessions.erase peer.nodeId
        task := Function.update s.task i .removed }
    | _ => none
  | .abort i =>
    match s.task i with
    | .removed =>
      some { s with
        closed := Function.update s.closed i true
        task := Function.update s.task i .ended }
    | _ => none

def Registered (s : SessionTable ι) (i : ι) (peer : NodeId) : Prop :=
  (s.sessions.lookup peer).map SessionEntry.outbound = some i

instance (s : SessionTable ι) (i : ι) (peer : NodeId) : Decidable (s.Registered i peer) :=
  inferInstanceAs (Decidable (_ = _))

/-- Registered, with a writer that is alive. -/
structure Live (s : SessionTable ι) (i : ι) (peer : NodeId) : Prop where
  registered : s.Registered i peer
  writes : s.closed i = false

end SessionTable

structure SessionMoment (ι : Type) where
  before : SessionTable ι
  event : SessionEvent ι
  after : SessionTable ι

namespace SessionMoment

/-- A check-and-insert that finds a session whose writer has died, and puts its own in its place. -/
def Replaces (m : SessionMoment ι) : Prop :=
  ∃ i j peer, m.event = .register i ∧ m.before.task i = .handshaken peer ∧
    m.before.Registered j peer.nodeId ∧ m.before.closed j = true

/-- A step removes no entry but that of the task that takes it, and a live session stays. -/
structure Undisturbed (m : SessionMoment ι) : Prop where
  own : ∀ i, m.event = .remove i → ∀ j peer, j ≠ i → m.before.Registered j peer →
    m.after.Registered j peer
  stays : ∀ i peer, m.before.Live i peer → m.event ≠ .remove i → m.after.Registered i peer

end SessionMoment

/-- The steps taken so far, oldest first, and the table they left. -/
inductive SessionRun : List (SessionMoment ι) → SessionTable ι → Prop
  | start : SessionRun [] .new
  | step {ms : List (SessionMoment ι)} {s s' : SessionTable ι} {e : SessionEvent ι} :
      SessionRun ms s → s.step e = some s' → SessionRun (ms ++ [⟨s, e, s'⟩]) s'

def SessionTable.follow (s : SessionTable ι) :
    List (SessionEvent ι) → Option (List (SessionMoment ι) × SessionTable ι)
  | [] => some ([], s)
  | e :: es => (s.step e).bind fun s' =>
    (s'.follow es).map fun (ms, t) => (⟨s, e, s'⟩ :: ms, t)

def SessionTable.outcome (es : List (SessionEvent ι)) :
    List (SessionMoment ι) × SessionTable ι := (SessionTable.new.follow es).getD ([], .new)

namespace SessionTable

variable {s s' : SessionTable ι} {i j : ι} {peer : NodeId}

inductive Steps (s s' : SessionTable ι) : SessionEvent ι → Prop
  | handshake {i : ι} {p : PeerIdentity} (task : s.task i = .connecting)
      (after : s' = { s with task := Function.update s.task i (.handshaken p) }) :
      Steps s s' (.handshake i p)
  | refused {i j : ι} {p : PeerIdentity} (task : s.task i = .handshaken p)
      (found : s.Registered j p.nodeId) (writes : s.closed j = false)
      (after : s' = { s with task := Function.update s.task i (refusal p.nodeId) }) :
      Steps s s' (.register i)
  | inserted {i : ι} {p : PeerIdentity} (task : s.task i = .handshaken p)
      (free : ∀ j, s.Registered j p.nodeId → s.closed j = true)
      (after : s' = { s with
        sessions := s.sessions.insert p.nodeId ⟨i, p.publicKey⟩
        task := Function.update s.task i (.reading p) }) : Steps s s' (.register i)
  | pumpEnds {i : ι} (begun : (s.task i).begun = true)
      (after : s' = { s with closed := Function.update s.closed i true }) :
      Steps s s' (.pumpEnds i)
  | readerEnds {i : ι} {p : PeerIdentity} (task : s.task i = .reading p)
      (after : s' = { s with task := Function.update s.task i (.leaving p) }) :
      Steps s s' (.readerEnds i)
  | removes {i : ι} {p : PeerIdentity} (task : s.task i = .leaving p)
      (after : s' = { s with
        sessions := s.sessions.erase p.nodeId
        task := Function.update s.task i .removed }) : Steps s s' (.remove i)
  | aborts {i : ι} (task : s.task i = .removed)
      (after : s' = { s with
        closed := Function.update s.closed i true
        task := Function.update s.task i .ended }) : Steps s s' (.abort i)

theorem step_cases {e : SessionEvent ι} (h : s.step e = some s') : Steps s s' e := by
  cases e with
  | handshake i p =>
    unfold step at h
    cases task : s.task i <;> simp only [task] at h <;> cases h
    exact .handshake task rfl
  | register i =>
    unfold step at h
    cases task : s.task i <;> simp only [task] at h <;> cases h
    rename_i p
    unfold checkAndInsert
    cases found : s.sessions.lookup p.nodeId with
    | none =>
      refine .inserted task (fun j registered => ?_) rfl
      unfold Registered at registered
      rw [found] at registered
      cases registered
    | some existing =>
      have owner : s.Registered existing.outbound p.nodeId := by
        unfold Registered
        rw [found]
        rfl
      dsimp only
      split_ifs with writes
      · exact .refused task owner writes rfl
      · refine .inserted task (fun j registered => ?_) rfl
        have same : existing.outbound = j := Option.some.inj (owner.symm.trans registered)
        rw [← same]
        simpa using writes
  | pumpEnds i =>
    unfold step at h
    cases task : s.task i <;> simp only [task] at h <;> cases h
    all_goals exact .pumpEnds (by rw [task]; rfl) rfl
  | readerEnds i =>
    unfold step at h
    cases task : s.task i <;> simp only [task] at h <;> cases h
    exact .readerEnds task rfl
  | remove i =>
    unfold step at h
    cases task : s.task i <;> simp only [task] at h <;> cases h
    exact .removes task rfl
  | abort i =>
    unfold step at h
    cases task : s.task i <;> simp only [task] at h <;> cases h
    exact .aborts task rfl

omit [DecidableEq ι]

theorem Registered.inj (h : s.Registered i peer) (h' : s.Registered j peer) : i = j :=
  Option.some.inj (h.symm.trans h')

theorem registered_insert {key : Bytes} (after : s'.sessions = s.sessions.insert peer ⟨i, key⟩) :
    s'.Registered i peer := by
  unfold Registered
  rw [after, AList.lookup_insert]
  rfl

theorem registered_insert_other {entry : SessionEntry ι} {q : NodeId}
    (after : s'.sessions = s.sessions.insert q entry) (other : peer ≠ q) :
    s'.Registered j peer ↔ s.Registered j peer := by
  unfold Registered
  rw [after, AList.lookup_insert_ne other]

theorem registered_erase {q : NodeId} (after : s'.sessions = s.sessions.erase q) :
    s'.Registered j peer ↔ peer ≠ q ∧ s.Registered j peer := by
  unfold Registered
  rw [after]
  by_cases same : peer = q
  · subst same
    simp
  · rw [AList.lookup_erase_ne same]
    simp [same]

theorem registered_congr (same : s'.sessions = s.sessions) :
    s'.Registered j peer ↔ s.Registered j peer := by
  unfold Registered
  rw [same]

/-- Only a task that has registered its session has lost its writer. -/
def Started (s : SessionTable ι) : Prop := ∀ i, s.closed i = true → (s.task i).begun = true

def Owned (s : SessionTable ι) : Prop :=
  ∀ i peer, s.Registered i peer → ∃ p, (s.task i).held = some p ∧ p.nodeId = peer

def Intact (s : SessionTable ι) : Prop :=
  ∀ i p, (s.task i).held = some p → s.Registered i p.nodeId

variable [DecidableEq ι]

theorem begun_update {state : SessionTask}
    (grows : (s.task i).begun = true → state.begun = true) (begun : (s.task j).begun = true) :
    (Function.update s.task i state j).begun = true := by
  by_cases same : j = i
  · subst same
    simpa using grows begun
  · simpa [Function.update_of_ne same] using begun

theorem Started.step (started : s.Started) {e : SessionEvent ι} (steps : Steps s s' e) :
    s'.Started := by
  intro j closed
  cases steps with
  | handshake task after =>
    subst after
    exact begun_update (by simp [task, SessionTask.begun]) (started j closed)
  | refused task found writes after =>
    subst after
    exact begun_update (by simp [task, SessionTask.begun]) (started j closed)
  | inserted task free after =>
    subst after
    exact begun_update (by simp [SessionTask.begun]) (started j closed)
  | @pumpEnds i begun after =>
    subst after
    by_cases same : j = i
    · subst same
      exact begun
    · exact started j (by simpa [Function.update_of_ne same] using closed)
  | readerEnds task after =>
    subst after
    exact begun_update (by simp [SessionTask.begun]) (started j closed)
  | removes task after =>
    subst after
    exact begun_update (by simp [SessionTask.begun]) (started j closed)
  | @aborts i task after =>
    subst after
    by_cases same : j = i
    · subst same
      simp [SessionTask.begun]
    · simpa [Function.update_of_ne same] using
        started j (by simpa [Function.update_of_ne same] using closed)

theorem held_update {state : SessionTask} {p : PeerIdentity}
    (kept : (s.task i).held = some p → state.held = some p) (held : (s.task j).held = some p) :
    (Function.update s.task i state j).held = some p := by
  by_cases same : j = i
  · subst same
    simpa using kept held
  · simpa [Function.update_of_ne same] using held

theorem Owned.step (owned : s.Owned) {e : SessionEvent ι} (steps : Steps s s' e) : s'.Owned := by
  intro j peer registered
  cases steps with
  | handshake task after =>
    subst after
    obtain ⟨p, held, same⟩ := owned j peer registered
    exact ⟨p, held_update (by simp [task, SessionTask.held]) held, same⟩
  | refused task found writes after =>
    subst after
    obtain ⟨p, held, same⟩ := owned j peer registered
    exact ⟨p, held_update (by simp [task, SessionTask.held]) held, same⟩
  | @inserted i p task free after =>
    subst after
    by_cases here : peer = p.nodeId
    · -- The entry is the one just written.
      subst here
      obtain rfl := registered.inj (registered_insert (s := s) rfl)
      exact ⟨p, by simp [SessionTask.held], rfl⟩
    · obtain ⟨q, held, same⟩ :=
        owned j peer ((registered_insert_other (s := s) rfl here).mp registered)
      exact ⟨q, held_update (by simp [task, SessionTask.held]) held, same⟩
  | pumpEnds begun after =>
    subst after
    exact owned j peer registered
  | @readerEnds i p task after =>
    subst after
    obtain ⟨q, held, same⟩ := owned j peer registered
    exact ⟨q, held_update (by simp [task, SessionTask.held]) held, same⟩
  | @removes i p task after =>
    subst after
    obtain ⟨elsewhere, before⟩ := (registered_erase (s := s) rfl).mp registered
    obtain ⟨q, held, same⟩ := owned j peer before
    have other : j ≠ i := by
      rintro rfl
      obtain rfl : p = q := by simpa [task, SessionTask.held] using held
      exact elsewhere same.symm
    exact ⟨q, by simpa [Function.update_of_ne other] using held, same⟩
  | aborts task after =>
    subst after
    obtain ⟨p, held, same⟩ := owned j peer registered
    exact ⟨p, held_update (by simp [task, SessionTask.held]) held, same⟩

theorem held_of_update {state : SessionTask} {p : PeerIdentity}
    (held : (Function.update s.task i state j).held = some p) :
    (j = i ∧ state.held = some p) ∨ (j ≠ i ∧ (s.task j).held = some p) := by
  by_cases same : j = i
  · subst same
    exact Or.inl ⟨rfl, by simpa using held⟩
  · exact Or.inr ⟨same, by simpa [Function.update_of_ne same] using held⟩

theorem Intact.step (intact : s.Intact) {e : SessionEvent ι} (steps : Steps s s' e)
    (clean : ¬ SessionMoment.Replaces ⟨s, e, s'⟩) : s'.Intact := by
  intro j q held
  cases steps with
  | handshake task after =>
    subst after
    rcases held_of_update held with ⟨-, none⟩ | ⟨-, before⟩
    · cases none
    · exact intact j q before
  | refused task found writes after =>
    subst after
    rcases held_of_update held with ⟨-, none⟩ | ⟨-, before⟩
    · cases none
    · exact intact j q before
  | @inserted i p task free after =>
    subst after
    rcases held_of_update held with ⟨rfl, new⟩ | ⟨other, before⟩
    · obtain rfl := Option.some.inj new
      exact registered_insert rfl
    · have registered := intact j q before
      by_cases here : q.nodeId = p.nodeId
      · rw [here] at registered
        exact absurd ⟨i, j, p, rfl, task, registered, free j registered⟩ clean
      · exact (registered_insert_other (s := s) rfl here).mpr registered
  | pumpEnds begun after =>
    subst after
    exact intact j q held
  | @readerEnds i p task after =>
    subst after
    rcases held_of_update held with ⟨rfl, new⟩ | ⟨other, before⟩
    · obtain rfl := Option.some.inj new
      exact intact j p (by rw [task]; rfl)
    · exact intact j q before
  | @removes i p task after =>
    subst after
    rcases held_of_update held with ⟨-, none⟩ | ⟨other, before⟩
    · cases none
    · have registered := intact j q before
      refine (registered_erase (s := s) rfl).mpr ⟨fun here => ?_, registered⟩
      rw [here] at registered
      exact other (registered.inj (intact i p (by rw [task]; rfl)))
  | aborts task after =>
    subst after
    rcases held_of_update held with ⟨-, none⟩ | ⟨-, before⟩
    · cases none
    · exact intact j q before

theorem Intact.undisturbed (intact : s.Intact) {e : SessionEvent ι} (steps : Steps s s' e) :
    SessionMoment.Undisturbed ⟨s, e, s'⟩ := by
  have kept : s'.sessions = s.sessions → SessionMoment.Undisturbed ⟨s, e, s'⟩ := fun same =>
    ⟨fun _ _ _ _ _ registered => (registered_congr same).mpr registered,
      fun _ _ live _ => (registered_congr same).mpr live.registered⟩
  cases steps with
  | handshake task after => exact kept (by rw [after])
  | refused task found writes after => exact kept (by rw [after])
  | pumpEnds begun after => exact kept (by rw [after])
  | readerEnds task after => exact kept (by rw [after])
  | aborts task after => exact kept (by rw [after])
  | @inserted i p task free after =>
    subst after
    refine ⟨fun k remove => (by cases remove), fun j peer live _ => ?_⟩
    by_cases here : peer = p.nodeId
    · -- Only a session without a writer is replaced.
      subst here
      exact absurd live.writes (by simp [free j live.registered])
    · exact (registered_insert_other (s := s) rfl here).mpr live.registered
  | @removes i p task after =>
    subst after
    have own : s.Registered i p.nodeId := intact i p (by rw [task]; rfl)
    have others : ∀ j peer, j ≠ i → s.Registered j peer →
        SessionTable.Registered { s with
          sessions := s.sessions.erase p.nodeId
          task := Function.update s.task i .removed } j peer := by
      intro j peer other registered
      refine (registered_erase (s := s) rfl).mpr ⟨?_, registered⟩
      rintro rfl
      exact other (registered.inj own)
    refine ⟨fun k remove j peer other registered => ?_, fun j peer live notOwn => ?_⟩
    · obtain rfl : i = k := by simpa using remove
      exact others j peer other registered
    · exact others j peer (fun same => notOwn (by rw [same])) live.registered

end SessionTable

namespace SessionRun

variable {ms : List (SessionMoment ι)} {s : SessionTable ι}

theorem owned (run : SessionRun ms s) : s.Owned ∧ s.Started := by
  induction run with
  | start => exact ⟨fun i peer registered => (by cases registered), fun i closed => (by cases closed)⟩
  | step _ step ih =>
    exact ⟨ih.1.step (SessionTable.step_cases step), ih.2.step (SessionTable.step_cases step)⟩

theorem intact (run : SessionRun ms s) (clean : ∀ m ∈ ms, ¬ m.Replaces) : s.Intact := by
  induction run with
  | start =>
    intro i p held
    cases held
  | step _ step ih =>
    refine (ih fun m hm => clean m (by simp [hm])).step (SessionTable.step_cases step) ?_
    exact clean _ (by simp)

theorem follow {es : List (SessionEvent ι)} {more : List (SessionMoment ι)} {t : SessionTable ι}
    (run : SessionRun ms s) (followed : s.follow es = some (more, t)) :
    SessionRun (ms ++ more) t := by
  induction es generalizing ms s more with
  | nil =>
    obtain ⟨rfl, rfl⟩ : [] = more ∧ s = t := by simpa [SessionTable.follow] using followed
    rw [List.append_nil]
    exact run
  | cons e es ih =>
    unfold SessionTable.follow at followed
    obtain ⟨s', step, followed⟩ := Option.bind_eq_some_iff.mp followed
    obtain ⟨⟨rest, u⟩, later, same⟩ := Option.map_eq_some_iff.mp followed
    obtain ⟨rfl, rfl⟩ := Prod.mk.inj same
    have done := ih (run.step step) later
    rw [List.append_assoc] at done
    exact done

theorem of_events {es : List (SessionEvent ι)}
    (possible : (SessionTable.new.follow es).isSome = true) :
    SessionRun (SessionTable.outcome es).1 (SessionTable.outcome es).2 := by
  obtain ⟨⟨more, t⟩, followed⟩ := Option.isSome_iff_exists.mp possible
  unfold SessionTable.outcome
  rw [followed]
  exact SessionRun.start.follow followed

end SessionRun

/-- As long as no session is put in the place of one that has lost its writer, no two live sessions
are registered for one identity, a task removes its own entry only, and a live session stays
registered until its task removes it. -/
theorem live_sessions_stay {ms : List (SessionMoment ι)} {s : SessionTable ι}
    (run : SessionRun ms s) (clean : ∀ m ∈ ms, ¬ m.Replaces) :
    (∀ i j peer, s.Live i peer → s.Live j peer → i = j) ∧ ∀ m ∈ ms, m.Undisturbed := by
  refine ⟨fun i j peer first second => first.registered.inj second.registered, ?_⟩
  induction run with
  | start =>
    intro m hm
    cases hm
  | step run step ih =>
    have earlier := fun m hm => clean m (List.mem_append_left _ hm)
    intro m hm
    rcases List.mem_append.mp hm with hm | hm
    · exact ih earlier m hm
    · rw [List.mem_singleton.mp hm]
      exact (run.intact earlier).undisturbed (SessionTable.step_cases step)

theorem remove_evicts {s : SessionTable ι} {i j : ι} {p : PeerIdentity}
    (task : s.task j = .leaving p) (live : s.Live i p.nodeId) (other : j ≠ i) :
    ∃ s', s.step (.remove j) = some s' ∧ ¬ SessionMoment.Undisturbed ⟨s, .remove j, s'⟩ := by
  refine ⟨{ s with
    sessions := s.sessions.erase p.nodeId
    task := Function.update s.task j .removed }, by simp [SessionTable.step, task], ?_⟩
  intro undisturbed
  have stays := undisturbed.stays i p.nodeId live (by simpa using other)
  exact ((SessionTable.registered_erase (s := s) rfl).mp stays).1 rfl

/-- Once a session has been put in the place of one that lost its writer, the task of the latter
can end next, and takes the new session with it. -/
theorem replaced_session_evicts {ms : List (SessionMoment ι)} {s s' : SessionTable ι}
    {e : SessionEvent ι} (run : SessionRun ms s) (step : s.step e = some s')
    (replaces : SessionMoment.Replaces ⟨s, e, s'⟩) :
    ∃ es more t, s'.follow es = some (more, t) ∧ ∃ m ∈ more, ¬ m.Undisturbed := by
  obtain ⟨i, j, p, rfl, task, registered, closed⟩ := replaces
  obtain ⟨owned, started⟩ := run.owned
  obtain ⟨q, held, same⟩ := owned j p.nodeId registered
  have other : j ≠ i := by
    rintro rfl
    rw [task] at held
    cases held
  have writes : s.closed i = false := by
    refine Bool.eq_false_iff.mpr fun dead => ?_
    have begun := started i dead
    rw [task] at begun
    cases begun
  cases SessionTable.step_cases step with
  | @refused i k p' task' found alive after =>
    obtain rfl : p = p' := by simpa using task.symm.trans task'
    obtain rfl : k = j := SessionTable.Registered.inj found registered
    exact absurd (alive.symm.trans closed) (by simp)
  | @inserted i p' task' free after =>
    obtain rfl : p = p' := by simpa using task.symm.trans task'
    have live : s'.Live i q.nodeId := by
      subst after
      rw [same]
      exact ⟨SessionTable.registered_insert rfl, writes⟩
    have unmoved : s'.task j = s.task j := by
      subst after
      simp [Function.update_of_ne other]
    cases phase : s.task j with
    | reading r =>
      obtain rfl : r = q := by simpa [phase, SessionTask.held] using held
      -- Its reader ends first.
      let t : SessionTable ι := { s' with task := Function.update s'.task j (.leaving r) }
      have ends : s'.step (.readerEnds j) = some t := by
        simp [SessionTable.step, unmoved, phase, t]
      obtain ⟨u, removes, disturbed⟩ := remove_evicts (s := t) (j := j) (by simp [t])
        ⟨live.registered, live.writes⟩ other
      refine ⟨[.readerEnds j, .remove j], [⟨s', .readerEnds j, t⟩, ⟨t, .remove j, u⟩], u, ?_, ?_⟩
      · simp [SessionTable.follow, ends, removes]
      · exact ⟨_, by simp, disturbed⟩
    | leaving r =>
      obtain rfl : r = q := by simpa [phase, SessionTask.held] using held
      obtain ⟨u, removes, disturbed⟩ := remove_evicts (unmoved.trans phase) live other
      refine ⟨[.remove j], [⟨s', .remove j, u⟩], u, ?_, ?_⟩
      · simp [SessionTable.follow, removes]
      · exact ⟨_, by simp, disturbed⟩
    | connecting | handshaken | removed | refused | ended =>
      rw [phase] at held
      cases held

def reconnecting : PeerIdentity := ⟨neighbour, [1]⟩

def halfClosed : List (SessionEvent Bool) :=
  [.handshake false reconnecting, .register false, .pumpEnds false, .handshake true reconnecting,
    .register true, .readerEnds false, .remove false]

/-- The end of the first task removes the second session, which is registered and alive. -/
theorem first_task_removes_second_session :
    ∃ ms s m, SessionRun ms s ∧ m ∈ ms ∧ m.event = .remove false ∧ m.before.Live true neighbour ∧
      m.before.task true = .reading reconnecting ∧ ¬ m.after.Registered true neighbour := by
  have removal : (SessionTable.outcome halfClosed).1[6]? = some _ := rfl
  have run : SessionRun (SessionTable.outcome halfClosed).1 (SessionTable.outcome halfClosed).2 :=
    SessionRun.of_events rfl
  exact ⟨_, _, _, run, List.mem_of_getElem? removal, rfl, ⟨by decide, rfl⟩, rfl, by decide⟩

def refusedDuplicate : List (SessionEvent Bool) :=
  [.handshake false reconnecting, .register false, .handshake true reconnecting, .register true]

theorem duplicate_leaves_live_session :
    (SessionTable.outcome refusedDuplicate).2.Live false neighbour ∧
    (SessionTable.outcome refusedDuplicate).2.task true = SessionTable.refusal neighbour ∧
    ((∀ i j peer, (SessionTable.outcome refusedDuplicate).2.Live i peer →
        (SessionTable.outcome refusedDuplicate).2.Live j peer → i = j) ∧
      ∀ m ∈ (SessionTable.outcome refusedDuplicate).1, m.Undisturbed) := by
  have writes : (SessionTable.outcome refusedDuplicate).1.map (fun m =>
      (m.before.closed false, m.before.closed true)) = List.replicate 4 (false, false) := rfl
  refine ⟨⟨by decide, rfl⟩, rfl, live_sessions_stay (SessionRun.of_events rfl) fun m hm => ?_⟩
  rintro ⟨i, j, p, -, -, -, closed⟩
  have here := List.eq_of_mem_replicate (writes ▸ List.mem_map_of_mem hm)
  obtain ⟨first, second⟩ := Prod.mk.inj here
  cases j with
  | false => exact absurd (first.symm.trans closed) (by simp)
  | true => exact absurd (second.symm.trans closed) (by simp)

end OpenNtl
