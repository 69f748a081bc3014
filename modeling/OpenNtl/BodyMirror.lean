import OpenNtl.BodyCache

/-! # Every interleaving in which the body cache mirrors the queue -/
namespace OpenNtl

open AtomicProgram NodeM RuntimeM

variable {F : Type} [Scalar F]

inductive Task where
  | readLoop (session : ℕ)
  | maintenance
  deriving DecidableEq

def Menu (rt : Runtime F) : Task → RuntimeM F Unit → Prop
  | .readLoop _, p => ∃ peer signal, p = rt.handleFrame peer signal
  | .maintenance, p => ∃ ticks, p = rt.maintenanceTick ticks

omit [Scalar F] in
/-- What everything else may do between two steps: time passes, sessions come and go, the store
changes or fails, but only these tasks use the gate and the body cache. -/
structure Outside (s s' : RuntimeState F) : Prop where
  gate : s'.node.activation = s.node.activation
  pending : s'.pending = s.pending
  log : s'.log = s.log
  unstored : s'.unstored = s.unstored

/-- A runtime that has just started. -/
structure Launched (P : Pool Task (RuntimeState F) RuntimeError Unit) : Prop where
  idle : P.Quiescent
  queue : P.state.node.activation.queue = []
  pending : P.state.pending = ∅
  log : P.state.log = []
  unstored : P.state.unstored = []

/-- Who knows of which id: a body is cached while its signal waits and has been stored, or some
task is about to fetch it. -/
structure Mirrors (h : Task → Holding) (queue : List SignalId) (cached : SignalId → Prop)
    (unstored : List SignalId) (log : List Mark) : Prop where
  found : ∀ id, .fetched id false ∉ log
  queue_nodup : queue.Nodup
  unstored_nodup : unstored.Nodup
  storing_iff : ∀ id, id ∈ unstored ↔ ∃ i, (h i).storing = some id
  storing_unique : ∀ i j id, (h i).storing = some id → (h j).storing = some id → i = j
  unstored_waits : ∀ id ∈ unstored, id ∈ queue ∧ ¬ cached id
  cached_iff : ∀ id, cached id ↔ (id ∈ queue ∧ id ∉ unstored) ∨ ∃ i, id ∈ (h i).owed
  owed_nodup : ∀ i, (h i).owed.Nodup
  owed_apart : ∀ i j id, id ∈ (h i).owed → id ∈ (h j).owed → i = j
  owed_gone : ∀ i, ∀ id ∈ (h i).owed, id ∉ queue

def MirrorsIn (h : Task → Holding) (s : RuntimeState F) : Prop :=
  Mirrors h (queuedIds s) (· ∈ s.pending) s.unstored s.log

namespace Mirrors

theorem initial : Mirrors (fun _ => .nothing) [] (fun _ => False) [] [] := by
  constructor <;> simp [Holding.nothing]

variable {h : Task → Holding} {queue queue' unstored : List SignalId} {cached : SignalId → Prop}
  {log log' : List Mark} {i : Task}

theorem noted (m : Mirrors h queue cached unstored log)
    (fetched : ∀ id found, .fetched id found ∈ log' → .fetched id found ∈ log) :
    Mirrors h queue cached unstored log' :=
  { m with found := fun id there => m.found id (fetched id false there) }

theorem release (m : Mirrors h queue cached unstored log) {storing : Option SignalId}
    (free : h i = ⟨[], storing⟩) {owed : List SignalId} (leaves : (owed ++ queue').Perm queue)
    (waits : ∀ id ∈ unstored, id ∈ queue') :
    Mirrors (Function.update h i ⟨owed, storing⟩) queue' cached unstored log := by
  have apart := List.nodup_append.mp (leaves.nodup_iff.mpr m.queue_nodup)
  have gone : ∀ id ∈ owed, id ∉ queue' := fun id ho hq => apart.2.2 id ho id hq rfl
  have was : ∀ id ∈ owed, id ∈ queue := fun id ho =>
    leaves.subset (List.mem_append_left _ ho)
  have kept : ∀ id ∈ queue', id ∈ queue := fun id hq =>
    leaves.subset (List.mem_append_right _ hq)
  have stored : ∀ id ∈ owed, id ∉ unstored := fun id ho hu => gone id ho (waits id hu)
  have others : ∀ j, (Function.update h i ⟨owed, storing⟩ j).storing = (h j).storing :=
    update_part Holding.storing (by rw [free])
  have charge : ∀ j id, id ∈ (Function.update h i ⟨owed, storing⟩ j).owed ↔
      (j = i ∧ id ∈ owed) ∨ id ∈ (h j).owed := by
    intro j id
    by_cases same : j = i
    · subst j
      simp [free]
    · simp [same]
  constructor
  · exact m.found
  · exact apart.2.1
  · exact m.unstored_nodup
  · intro id
    simp only [others]
    exact m.storing_iff id
  · intro j k id hj hk
    rw [others] at hj hk
    exact m.storing_unique j k id hj hk
  · intro id hu
    exact ⟨waits id hu, (m.unstored_waits id hu).2⟩
  · intro id
    rw [m.cached_iff]
    simp only [charge]
    constructor
    · rintro (⟨queued, hu⟩ | ⟨j, ho⟩)
      · rcases List.mem_append.mp (leaves.symm.subset queued) with ho | hq
        · exact Or.inr ⟨i, Or.inl ⟨rfl, ho⟩⟩
        · exact Or.inl ⟨hq, hu⟩
      · exact Or.inr ⟨j, Or.inr ho⟩
    · rintro (⟨hq, hu⟩ | ⟨j, ⟨-, ho⟩ | ho⟩)
      · exact Or.inl ⟨kept id hq, hu⟩
      · exact Or.inl ⟨was id ho, stored id ho⟩
      · exact Or.inr ⟨j, ho⟩
  · rw [Function.forall_update_iff h fun _ l => l.owed.Nodup]
    exact ⟨apart.1, fun j _ => m.owed_nodup j⟩
  · intro j k id hj hk
    rcases (charge j id).mp hj with ⟨rfl, mine⟩ | mine
    · rcases (charge k id).mp hk with ⟨rfl, -⟩ | theirs
      · rfl
      · exact absurd (was id mine) (m.owed_gone k id theirs)
    · rcases (charge k id).mp hk with ⟨rfl, theirs⟩ | theirs
      · exact absurd (was id theirs) (m.owed_gone j id mine)
      · exact m.owed_apart j k id mine theirs
  · intro j id ho hq
    rcases (charge j id).mp ho with ⟨-, ho⟩ | ho
    · exact gone id ho hq
    · exact m.owed_gone j id ho (kept id hq)

theorem enqueue (m : Mirrors h queue cached unstored log) (idle : h i = .nothing) {id : SignalId}
    (absent : id ∉ queue) (uncached : ¬ cached id) :
    Mirrors (Function.update h i ⟨[], some id⟩) (id :: queue) cached (unstored ++ [id]) log := by
  have known : ∀ x ∈ unstored, x ≠ id := by
    rintro x hx rfl
    exact absent (m.unstored_waits x hx).1
  have unowed : ∀ j, (Function.update h i ⟨[], some id⟩ j).owed = (h j).owed :=
    update_part Holding.owed (by rw [idle, Holding.nothing])
  have stores : ∀ j x, (Function.update h i ⟨[], some id⟩ j).storing = some x ↔
      (j = i ∧ x = id) ∨ (h j).storing = some x := by
    intro j x
    by_cases same : j = i
    · subst j
      simp [idle, Holding.nothing, eq_comm]
    · simp [same]
  constructor
  · exact m.found
  · exact List.nodup_cons.mpr ⟨absent, m.queue_nodup⟩
  · rw [List.nodup_append]
    refine ⟨m.unstored_nodup, List.nodup_singleton id, fun x hx y hy => ?_⟩
    rw [List.mem_singleton.mp hy]
    exact known x hx
  · intro x
    rw [List.mem_append, List.mem_singleton, m.storing_iff]
    simp only [stores]
    constructor
    · rintro (⟨j, hj⟩ | rfl)
      · exact ⟨j, Or.inr hj⟩
      · exact ⟨i, Or.inl ⟨rfl, rfl⟩⟩
    · rintro ⟨j, ⟨-, rfl⟩ | hj⟩
      · exact Or.inr rfl
      · exact Or.inl ⟨j, hj⟩
  · intro j k x hj hk
    have fresh : ∀ n, (h n).storing ≠ some id := fun n hn =>
      known id ((m.storing_iff id).mpr ⟨n, hn⟩) rfl
    rcases (stores j x).mp hj with ⟨rfl, rfl⟩ | mine
    · rcases (stores k x).mp hk with ⟨rfl, -⟩ | theirs
      · rfl
      · exact absurd theirs (fresh k)
    · rcases (stores k x).mp hk with ⟨rfl, rfl⟩ | theirs
      · exact absurd mine (fresh j)
      · exact m.storing_unique j k x mine theirs
  · intro x hx
    rcases List.mem_append.mp hx with hx | hx
    · exact ⟨List.mem_cons_of_mem _ (m.unstored_waits x hx).1, (m.unstored_waits x hx).2⟩
    · rw [List.mem_singleton.mp hx]
      exact ⟨List.mem_cons_self, uncached⟩
  · intro x
    simp only [unowed, m.cached_iff]
    by_cases same : x = id
    · subst x
      have unheld : ¬ ∃ j, id ∈ (h j).owed := fun held =>
        uncached ((m.cached_iff id).mpr (Or.inr held))
      simp [absent, unheld]
    · simp [same]
  · intro j
    rw [unowed]
    exact m.owed_nodup j
  · intro j k x hj hk
    rw [unowed] at hj hk
    exact m.owed_apart j k x hj hk
  · intro j x ho
    rw [unowed] at ho
    intro queued
    rcases List.mem_cons.mp queued with rfl | queued
    · exact uncached ((m.cached_iff x).mpr (Or.inr ⟨j, ho⟩))
    · exact m.owed_gone j x ho queued

theorem fetch (m : Mirrors h queue cached unstored log) {id : SignalId} {owed : List SignalId}
    {storing : Option SignalId} (charge : h i = ⟨id :: owed, storing⟩) :
    cached id ∧ Mirrors (Function.update h i ⟨owed, storing⟩) queue
      (fun x => x ≠ id ∧ cached x) unstored (log ++ [.fetched id true]) := by
  have mine : id ∈ (h i).owed := by
    rw [charge]
    exact List.mem_cons_self
  have there : cached id := (m.cached_iff id).mpr (Or.inr ⟨i, mine⟩)
  have nodup := m.owed_nodup i
  rw [charge] at nodup
  have nodup := List.nodup_cons.mp nodup
  have others : ∀ j, (Function.update h i ⟨owed, storing⟩ j).storing = (h j).storing :=
    update_part Holding.storing (by rw [charge])
  have rest : ∀ j x, x ∈ (Function.update h i ⟨owed, storing⟩ j).owed ↔ x ≠ id ∧ x ∈ (h j).owed := by
    intro j x
    by_cases same : j = i
    · subst j
      rw [Function.update_self, charge]
      constructor
      · intro hx
        refine ⟨?_, List.mem_cons_of_mem _ hx⟩
        rintro rfl
        exact nodup.1 hx
      · rintro ⟨other, hx⟩
        exact (List.mem_cons.mp hx).resolve_left other
    · rw [Function.update_of_ne same]
      refine ⟨fun hx => ⟨?_, hx⟩, fun hx => hx.2⟩
      rintro rfl
      exact same (m.owed_apart j i x hx mine)
  refine ⟨there, ?_⟩
  constructor
  · intro x noted
    rcases List.mem_append.mp noted with noted | noted
    · exact m.found x noted
    · cases List.mem_singleton.mp noted
  · exact m.queue_nodup
  · exact m.unstored_nodup
  · intro x
    simp only [others]
    exact m.storing_iff x
  · intro j k x hj hk
    rw [others] at hj hk
    exact m.storing_unique j k x hj hk
  · intro x hx
    exact ⟨(m.unstored_waits x hx).1, fun held => (m.unstored_waits x hx).2 held.2⟩
  · intro x
    simp only [rest, m.cached_iff]
    constructor
    · rintro ⟨other, waiting | ⟨j, ho⟩⟩
      · exact Or.inl waiting
      · exact Or.inr ⟨j, other, ho⟩
    · rintro (waiting | ⟨j, other, ho⟩)
      · refine ⟨?_, Or.inl waiting⟩
        rintro rfl
        exact m.owed_gone i x mine waiting.1
      · exact ⟨other, Or.inr ⟨j, ho⟩⟩
  · rw [Function.forall_update_iff h fun _ l => l.owed.Nodup]
    exact ⟨nodup.2, fun j _ => m.owed_nodup j⟩
  · intro j k x hj hk
    exact m.owed_apart j k x ((rest j x).mp hj).2 ((rest k x).mp hk).2
  · intro j x ho
    exact m.owed_gone j x ((rest j x).mp ho).2

theorem remember (m : Mirrors h queue cached unstored log) {id : SignalId}
    (charge : h i = ⟨[], some id⟩) :
    Mirrors (Function.update h i .nothing) queue (fun x => x = id ∨ cached x)
      (unstored.erase id) log := by
  have waiting : id ∈ unstored := (m.storing_iff id).mpr ⟨i, by rw [charge]⟩
  have erased : ∀ x, x ∈ unstored.erase id ↔ x ≠ id ∧ x ∈ unstored :=
    fun x => m.unstored_nodup.mem_erase_iff
  have unowed : ∀ j, (Function.update h i .nothing j).owed = (h j).owed :=
    update_part Holding.owed (by rw [charge, Holding.nothing])
  have stores : ∀ j x, (Function.update h i .nothing j).storing = some x ↔
      x ≠ id ∧ (h j).storing = some x := by
    intro j x
    by_cases same : j = i
    · subst j
      rw [Function.update_self, charge]
      simp [Holding.nothing, eq_comm]
    · rw [Function.update_of_ne same]
      refine ⟨fun hx => ⟨?_, hx⟩, fun hx => hx.2⟩
      rintro rfl
      exact same (m.storing_unique j i x hx (by rw [charge]))
  constructor
  · exact m.found
  · exact m.queue_nodup
  · exact m.unstored_nodup.erase id
  · intro x
    rw [erased, m.storing_iff]
    simp only [stores]
    exact ⟨fun ⟨other, j, hj⟩ => ⟨j, other, hj⟩, fun ⟨j, other, hj⟩ => ⟨other, j, hj⟩⟩
  · intro j k x hj hk
    exact m.storing_unique j k x ((stores j x).mp hj).2 ((stores k x).mp hk).2
  · intro x hx
    obtain ⟨other, hx⟩ := (erased x).mp hx
    refine ⟨(m.unstored_waits x hx).1, ?_⟩
    rintro (same | held)
    · exact other same
    · exact (m.unstored_waits x hx).2 held
  · intro x
    simp only [unowed, erased, m.cached_iff]
    by_cases same : x = id
    · subst x
      simp [(m.unstored_waits id waiting).1]
    · simp [same]
  · intro j
    rw [unowed]
    exact m.owed_nodup j
  · intro j k x hj hk
    rw [unowed] at hj hk
    exact m.owed_apart j k x hj hk
  · intro j x ho
    rw [unowed] at ho
    exact m.owed_gone j x ho

end Mirrors

omit [Scalar F] in
theorem move_mirrors {rt : Runtime F} {h : Task → Holding} {i : Task} {l : Holding}
    {s s' : RuntimeState F} (m : MirrorsIn h s) (move : Move rt (h i) s l s')
    (keeps : KeepsStep rt s s') : MirrorsIn (Function.update h i l) s' := by
  unfold MirrorsIn at m ⊢
  generalize before : h i = l₀ at move
  cases move with
  | still same =>
    rw [← before, Function.update_eq_self]
    have queue : queuedIds s' = queuedIds s := congrArg (List.map QueuedSignal.id) same.queue
    rw [queue, same.pending, same.unstored]
    exact m.noted same.fetched
  | release pending unstored fetched leaves =>
    rw [pending, unstored]
    refine (m.release before (leaves keeps) fun id hu => ?_).noted fetched
    exact keeps.waits id hu (m.unstored_waits id hu).1
  | @take id owed _ _ pending unstored fetched fresh leaves waits =>
    obtain ⟨absent, uncached⟩ := fresh keeps
    have joined := m.enqueue before absent uncached
    have gone := joined.release (i := i) (Function.update_self i _ h) leaves ?_
    · rw [Function.update_idem] at gone
      rw [pending, unstored]
      exact gone.noted fetched
    · intro x hx
      rcases List.mem_append.mp hx with hx | hx
      · exact keeps.waits x hx (m.unstored_waits x hx).1
      · rw [List.mem_singleton.mp hx]
        exact waits
  | @fetch id owed storing =>
    obtain ⟨there, mirrored⟩ := m.fetch before
    have found : (s.pending.lookup id).isSome = true := AList.lookup_isSome.mpr there
    rw [found]
    simpa only [queuedIds, AList.mem_erase] using mirrored
  | @remember body _ _ queue unstored fetched pending =>
    have stored := m.remember before
    have same : queuedIds s' = queuedIds s := congrArg (List.map QueuedSignal.id) queue
    rw [same, pending keeps, unstored]
    simp only [AList.mem_insert]
    exact stored.noted fetched

theorem mirror_inductive (rt : Runtime F) :
    Pool.Inductive (Menu rt) Outside (KeepsStep rt) (Move rt) AtRest MirrorsIn where
  obeys := by
    rintro (session | _) p offered l rfl
    · obtain ⟨peer, signal, rfl⟩ := offered
      exact rt.handleFrame_obeys peer signal
    · obtain ⟨ticks, rfl⟩ := offered
      exact rt.maintenanceTick_obeys ticks
  moves := fun h i l s s' m move keeps => move_mirrors m move keeps
  changes := by
    intro h s s' m outside keeps
    unfold MirrorsIn at m ⊢
    have queue : queuedIds s' = queuedIds s :=
      congrArg (fun g => List.map QueuedSignal.id (ActivationState.queue g)) outside.gate
    rw [queue, outside.pending, outside.unstored, outside.log]
    exact m

/-- In every run whose steps all keep up, every body that is looked up is found, and between two
steps of no task the cached ids are the queued ones. -/
theorem body_cache_mirrors_queue {rt : Runtime F}
    {P₀ P : Pool Task (RuntimeState F) RuntimeError Unit} (start : Launched P₀)
    (run : Pool.Run (Menu rt) Outside (KeepsStep rt) P₀ P) :
    (∀ id, .fetched id false ∉ P.state.log) ∧
      (P.Quiescent → ∀ id, id ∈ P.state.pending ↔ id ∈ queuedIds P.state) := by
  have init : MirrorsIn (fun _ => .nothing) P₀.state := by
    unfold MirrorsIn queuedIds
    rw [start.queue, start.pending, start.log, start.unstored]
    simpa using Mirrors.initial
  obtain ⟨h, m, obeys⟩ := run.invariant (mirror_inductive rt) init start.idle fun _ => rfl
  refine ⟨m.found, fun quiet id => ?_⟩
  have idle : ∀ i, h i = .nothing := fun i => quiet.rests obeys i
  have stored : id ∉ P.state.unstored := by
    intro hu
    obtain ⟨i, storing⟩ := (m.storing_iff id).mp hu
    rw [idle i] at storing
    cases storing
  have unowed : ¬ ∃ i, id ∈ (h i).owed := by
    rintro ⟨i, owed⟩
    rw [idle i] at owed
    cases owed
  rw [m.cached_iff]
  simp [stored, unowed]

def keepsCheck (rt : Runtime F) (s s' : RuntimeState F) : Bool :=
  decide (∀ id ∈ s.unstored, id ∈ queuedIds s → id ∈ queuedIds s') &&
  match s'.log.drop s.log.length with
  | [.received id ok] =>
    decide (HasLiveClaim s.node id ∨ id ∉ queuedIds s ∧ id ∉ s.pending) &&
      (ok || decide ((queuedIds s').Perm (queuedIds s)))
  | [.remembered _] =>
    decide (s.pending.entries.length <
      saturatingMul (max rt.node.config.activation.maxQueueDepth 1) 2)
  | _ => true

omit [Scalar F] in
theorem keepsCheck_sound {rt : Runtime F} {s s' : RuntimeState F}
    (passed : keepsCheck rt s s' = true) : KeepsStep rt s s' := by
  unfold keepsCheck at passed
  rw [Bool.and_eq_true, decide_eq_true_eq] at passed
  obtain ⟨waits, noted⟩ := passed
  have last : ∀ m, s'.log = s.log ++ [m] → s'.log.drop s.log.length = [m] := by
    intro m grown
    rw [grown, List.drop_left]
  constructor
  · exact waits
  · intro id ok grown fresh
    rw [last _ grown] at noted
    obtain ⟨new, -⟩ := Bool.and_eq_true_iff.mp noted
    exact (of_decide_eq_true new).resolve_left fresh
  · intro id grown
    rw [last _ grown] at noted
    obtain ⟨-, perm⟩ := Bool.and_eq_true_iff.mp noted
    simpa using perm
  · intro id grown
    rw [last _ grown] at noted
    simpa using noted

/-! A body that is stored too late, and one that is stored in time. -/

section Race

def light : Signal ℚ :=
  let signal : Signal ℚ :=
    { ((SignalBuilder.new .data "").withWeight (1 / 10)).buildUnsignedWith neighbour 0 ⟨8⟩ with
      trace := [neighbour] }
  { signal with signature := [1] ++ (List.range 16).map fun i =>
      UInt8.ofNat (signal.id.ulid.toNat / 256 ^ i) }

def sender : PeerIdentity := ⟨neighbour, [1]⟩

def launched : Pool Task (RuntimeState ℚ) RuntimeError Unit :=
  ⟨fun _ => .pure (), ⟨edgeNode.build .new .maximal 0 [], ∅, ∅, [], [], []⟩⟩

theorem launched_fresh : Launched launched := ⟨fun _ => trivial, rfl, rfl, rfl, rfl⟩

def framed : Pool Task (RuntimeState ℚ) RuntimeError Unit :=
  launched.begin (.readLoop 0) (edgeRuntime.handleFrame sender light)

def enqueued : Pool Task (RuntimeState ℚ) RuntimeError Unit :=
  (framed.advance (.readLoop 0)).advance (.readLoop 0)

def polling : Pool Task (RuntimeState ℚ) RuntimeError Unit :=
  (⟨enqueued.task, { enqueued.state with
      node := { enqueued.state.node with clock := 2 * nanosPerSec } }⟩ :
    Pool Task (RuntimeState ℚ) RuntimeError Unit).begin .maintenance (edgeRuntime.maintenanceTick 1)

def polled : Pool Task (RuntimeState ℚ) RuntimeError Unit :=
  (polling.advance .maintenance).advance .maintenance

abbrev Anyhow (P : Pool Task (RuntimeState ℚ) RuntimeError Unit) : Prop :=
  Pool.Run (Menu edgeRuntime) Outside (fun _ _ => True) launched P

theorem reach_enqueued : Anyhow enqueued := by
  have begun : Anyhow framed :=
    Pool.Run.refl.step (.start trivial ⟨sender, light, rfl⟩) trivial
  refine (begun.step (.advance ?_) trivial).step (.advance ?_) trivial
  · exact Prog.isFinished_eq_false (by decide +kernel)
  · exact Prog.isFinished_eq_false (by decide +kernel)

theorem reach_polled : Anyhow polled := by
  have later := reach_enqueued.step (.outside (s := { enqueued.state with
    node := { enqueued.state.node with clock := 2 * nanosPerSec } }) ⟨rfl, rfl, rfl, rfl⟩) trivial
  have idle : (enqueued.task .maintenance).Finished := Prog.isFinished_eq_true (by decide +kernel)
  have begun : Anyhow polling := later.step (.start idle ⟨1, rfl⟩) trivial
  refine (begun.step (.advance ?_) trivial).step (.advance ?_) trivial
  · exact Prog.isFinished_eq_false (by decide +kernel)
  · exact Prog.isFinished_eq_false (by decide +kernel)

/-- The latency guard lets the signal go before the read loop has stored its body. -/
theorem released_body_is_missing :
    polled.state.log = [.received light.id true, .fetched light.id false] ∧
    ¬ ∀ (rt : Runtime ℚ) (P₀ P : Pool Task (RuntimeState ℚ) RuntimeError Unit), Launched P₀ →
      Pool.Run (Menu rt) Outside (fun _ _ => True) P₀ P →
      (∀ id, .fetched id false ∉ P.state.log) ∧
        (P.Quiescent → ∀ id, id ∈ P.state.pending ↔ id ∈ queuedIds P.state) := by
  have log : polled.state.log = [.received light.id true, .fetched light.id false] := by
    decide +kernel
  refine ⟨log, fun always => ?_⟩
  have found := (always edgeRuntime launched polled launched_fresh reach_polled).1 light.id
  rw [log] at found
  exact found (by simp)

def storedInTime : Option (Pool Task (RuntimeState ℚ) RuntimeError Unit) :=
  framed.follow (keepsCheck edgeRuntime) [.readLoop 0, .readLoop 0, .readLoop 0]

theorem stored_mirrors : ∃ P, storedInTime = some P ∧
    (∀ id, .fetched id false ∉ P.state.log) ∧
      (P.Quiescent → ∀ id, id ∈ P.state.pending ↔ id ∈ queuedIds P.state) := by
  have done : storedInTime.isSome = true := by decide +kernel
  obtain ⟨P, followed⟩ := Option.isSome_iff_exists.mp done
  have begun : Pool.Run (Menu edgeRuntime) Outside (KeepsStep edgeRuntime) launched framed :=
    Pool.Run.refl.step (.start trivial ⟨sender, light, rfl⟩) (keepsCheck_sound (by decide +kernel))
  exact ⟨P, followed, body_cache_mirrors_queue launched_fresh
    (begun.follow (fun _ _ => keepsCheck_sound) followed)⟩

end Race

end OpenNtl
