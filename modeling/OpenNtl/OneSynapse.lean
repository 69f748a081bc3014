import OpenNtl.Interleaving
import OpenNtl.Cooldown
import OpenNtl.SynapseBackends

/-! # One synapse for each peer

Any number of upserts, penalties, learning updates and normalisations run side by side on one
store. A peer gets a second record, or an upsert fails, only if two calls look the peer up
before either has written, or if a synapse is given an identifier that is in use.
-/
namespace OpenNtl

open AtomicProgram

variable {σ F : Type}

structure SynapseWorld (σ F : Type) where
  node : σ
  /-- History variable: peers that an upsert found no synapse for, while it has not written one. -/
  forming : List NodeId
  /-- History variable: what the upserts returned. -/
  answers : List (NodeId × Except NodeError (SynapseRecord F))

def SynapseWorld.unnoted {α : Type} (f : σ → α × σ) (w : SynapseWorld σ F) :
    α × SynapseWorld σ F := ((f w.node).1, { w with node := (f w.node).2 })

def foundNone : Except StoreError (Option (SynapseRecord F)) → Bool
  | .ok none => true
  | _ => false

def SynapseBackend.noted (B : SynapseBackend σ F) : SynapseBackend (SynapseWorld σ F) F where
  now := SynapseWorld.unnoted B.now
  draw f := SynapseWorld.unnoted (B.draw f)
  synapseForPeer peer w :=
    let (r, s) := B.synapseForPeer peer w.node
    (r, { w with node := s, forming := w.forming ++ if foundNone r then [peer] else [] })
  getSynapse id := SynapseWorld.unnoted (B.getSynapse id)
  listSynapses := SynapseWorld.unnoted B.listSynapses
  putSynapse r := SynapseWorld.unnoted (B.putSynapse r)
  putFormed r w :=
    let (result, s) := B.putFormed r w.node
    (result, { w with node := s, forming := w.forming.erase r.peer })
  putPeer r := SynapseWorld.unnoted (B.putPeer r)
  influenceSince peer start := SynapseWorld.unnoted (B.influenceSince peer start)
  recordInfluence peer magnitude now start :=
    SynapseWorld.unnoted (B.recordInfluence peer magnitude now start)

inductive SynapseTask (F : Type) where
  | upsert (peer : NodeId)
  | penalize (id : SynapseId)
  | update (entry : JournalEntry F) (outcome : Outcome) (nowNs : ℕ)
  | normalize

def Node.synapseProgram [Scalar F] (node : Node F) (B : SynapseBackend σ F) :
    SynapseTask F → Prog (SynapseWorld σ F) NodeError Unit
  | .upsert peer => do
    let answer ← (node.upsertSynapseOn B.noted peer).attempt
    .modify fun w => { w with answers := w.answers ++ [(peer, answer)] }
  | .penalize id => do
    let _ ← node.penalizeSignatureFailureOn B.noted id
  | .update entry outcome nowNs => do
    let _ ← node.updateSynapseOn B.noted entry outcome nowNs
  | .normalize => do
    let _ ← node.normalizeOutboundWeightsOn B.noted

def SynapseMenu [Scalar F] {ι : Type} (node : Node F) (B : SynapseBackend σ F) :
    ι → Prog (SynapseWorld σ F) NodeError Unit → Prop :=
  fun _ p => ∃ task, p = node.synapseProgram B task

def SynapseBackend.Stored (B : SynapseBackend σ F) (s : σ) (r : SynapseRecord F) : Prop :=
  ∃ id, (B.getSynapse id s).1 = .ok (some r)

def CoolsDown (peer : NodeId) (e : NodeError) : Prop :=
  ∃ remaining, e = .invalidSignal (Node.cooldownMessage peer remaining)

/-- A peer has one record at most, a lookup finds it, and every upsert returned it or was refused
by the cooldown. -/
structure OneSynapseEach (B : SynapseBackend σ F) (w : SynapseWorld σ F) : Prop where
  once : ∀ r r', B.Stored w.node r → B.Stored w.node r' → r.peer = r'.peer → r = r'
  found : ∀ r, B.Stored w.node r → (B.synapseForPeer r.peer w.node).1 = .ok (some r)
  answered : ∀ a ∈ w.answers,
    (∃ record stored, a.2 = .ok record ∧
      (B.synapseForPeer a.1 w.node).1 = .ok (some stored) ∧ stored.id = record.id) ∨
    ∃ e, a.2 = .error e ∧ CoolsDown a.1 e

abbrev Owners := SynapseId → Option NodeId

def OwnedOnce (owner : Owners) : Prop :=
  ∀ a b p, owner a = some p → owner b = some p → a = b

theorem OwnedOnce.update {owner : Owners} (once : OwnedOnce owner) {id : SynapseId} {p : NodeId}
    (absent : ∀ a, owner a ≠ some p) : OwnedOnce (Function.update owner id (some p)) := by
  have other : ∀ a q, Function.update owner id (some p) a = some q →
      a = id ∧ q = p ∨ a ≠ id ∧ owner a = some q := by
    intro a q owned
    by_cases here : a = id
    · subst a
      rw [Function.update_self] at owned
      exact Or.inl ⟨rfl, (Option.some.inj owned).symm⟩
    · rw [Function.update_of_ne here] at owned
      exact Or.inr ⟨here, owned⟩
  intro a b q ha hb
  rcases other a q ha with ⟨rfl, rfl⟩ | ⟨-, before⟩
  · rcases other b q hb with ⟨rfl, -⟩ | ⟨-, before⟩
    · rfl
    · exact absurd before (absent b)
  · rcases other b q hb with ⟨-, rfl⟩ | ⟨-, before'⟩
    · exact absurd before (absent a)
    · exact once a b q before before'

/-- What each call does to the table, in states the store can be in. -/
structure SynapseBackend.Lawful (B : SynapseBackend σ F) (up : σ → Prop) (owner : σ → Owners) :
    Prop where
  now : ∀ s, up s → up (B.now s).2 ∧ owner (B.now s).2 = owner s
  draw : ∀ f s, up s → (up (B.draw f s).2 ∧ owner (B.draw f s).2 = owner s) ∧
    ∃ rng, (B.draw f s).1 = (f rng).1
  find : ∀ peer s, up s → (B.synapseForPeer peer s).2 = s ∧
    ∃ found, (B.synapseForPeer peer s).1 = .ok found ∧
      (∀ r ∈ found, r.peer = peer ∧ B.Stored s r) ∧ (found = none → ∀ id, owner s id ≠ some peer)
  get : ∀ id s, up s → (B.getSynapse id s).2 = s ∧
    ∃ found, (B.getSynapse id s).1 = .ok found ∧
      (∀ r ∈ found, r.id = id ∧ owner s id = some r.peer) ∧ (found = none → owner s id = none)
  list : ∀ s, up s → (B.listSynapses s).2 = s ∧
    ∃ rs, (B.listSynapses s).1 = .ok rs ∧ ∀ r ∈ rs, B.Stored s r
  put : ∀ r s, up s → up (B.putSynapse r s).2 ∧
    (((B.putSynapse r s).1 = .ok () ∧
      owner (B.putSynapse r s).2 = Function.update (owner s) r.id (some r.peer)) ∨
    ((∃ e, (B.putSynapse r s).1 = .error e) ∧ owner (B.putSynapse r s).2 = owner s ∧
      ∃ id, id ≠ r.id ∧ owner s id = some r.peer))
  form : B.putFormed = B.putSynapse
  peer : ∀ r s, up s → up (B.putPeer r s).2 ∧ owner (B.putPeer r s).2 = owner s ∧
    (B.putPeer r s).1 = .ok ()
  used : ∀ peer start s, up s → (B.influenceSince peer start s).2 = s
  charge : ∀ peer magnitude now start s, up s →
    up (B.recordInfluence peer magnitude now start s).2 ∧
      owner (B.recordInfluence peer magnitude now start s).2 = owner s

/-- Identifiers a task knows the peers of, and the peer it is forming a synapse for. -/
structure Knowing where
  known : List (SynapseId × NodeId)
  forming : Option NodeId
  /-- A write of the task has been refused. -/
  refused : Bool

def Knowing.AtRest (l : Knowing) : Prop := l.forming = none

def Says (l : Knowing) (peer : NodeId) (answer : Except NodeError (SynapseRecord F)) : Prop :=
  (∃ record, answer = .ok record ∧ (record.id, peer) ∈ l.known) ∨
    (∃ e, answer = .error e ∧ CoolsDown peer e) ∨ l.refused = true

/-- What one step of one task can do to the table and the history. -/
inductive SynapseMove (owner : σ → Owners) (l : Knowing) (w : SynapseWorld σ F) :
    Knowing → SynapseWorld σ F → Prop
  | learns {known : List (SynapseId × NodeId)} {w' : SynapseWorld σ F}
      (table : owner w'.node = owner w.node) (forming : w'.forming = w.forming)
      (answers : w'.answers = w.answers)
      (learnt : ∀ k ∈ known, k ∈ l.known ∨ owner w.node k.1 = some k.2) :
      SynapseMove owner l w { l with known := known } w'
  | misses {p : NodeId} {w' : SynapseWorld σ F} (idle : l.forming = none)
      (absent : ∀ id, owner w.node id ≠ some p) (table : owner w'.node = owner w.node)
      (forming : w'.forming = w.forming ++ [p]) (answers : w'.answers = w.answers) :
      SynapseMove owner l w { l with forming := some p } w'
  | rewrites {k : SynapseId × NodeId} {w' : SynapseWorld σ F} (held : k ∈ l.known)
      (table : owner w'.node = Function.update (owner w.node) k.1 (some k.2))
      (forming : w'.forming = w.forming) (answers : w'.answers = w.answers) :
      SynapseMove owner l w l w'
  | forms {id : SynapseId} {p : NodeId} {w' : SynapseWorld σ F} (mine : l.forming = some p)
      (table : owner w'.node = Function.update (owner w.node) id (some p))
      (forming : w'.forming = w.forming.erase p) (answers : w'.answers = w.answers) :
      SynapseMove owner l w ⟨(id, p) :: l.known, none, l.refused⟩ w'
  /-- A write is refused, since another identifier has the peer. -/
  | conflicts {k : SynapseId × NodeId} {id : SynapseId} {w' : SynapseWorld σ F}
      (held : k ∈ l.known) (other : id ≠ k.1) (taken : owner w.node id = some k.2) :
      SynapseMove owner l w { l with refused := true } w'
  | collides {p : NodeId} {id : SynapseId} {w' : SynapseWorld σ F} (mine : l.forming = some p)
      (taken : owner w.node id = some p) : SynapseMove owner l w ⟨l.known, none, true⟩ w'
  | answers {peer : NodeId} {answer : Except NodeError (SynapseRecord F)} {w' : SynapseWorld σ F}
      (told : Says l peer answer) (table : owner w'.node = owner w.node)
      (forming : w'.forming = w.forming) (answers : w'.answers = w.answers ++ [(peer, answer)]) :
      SynapseMove owner l w l w'

def SynapseStep (up : σ → Prop) (owner : σ → Owners) (l : Knowing) (w : SynapseWorld σ F)
    (l' : Knowing) (w' : SynapseWorld σ F) : Prop :=
  up w'.node ∧ SynapseMove owner l w l' w'

section Steps

variable {up : σ → Prop} {owner : σ → Owners} {B : SynapseBackend σ F}

abbrev Minds (up : σ → Prop) (owner : σ → Owners) {α : Type} (Q : α → Knowing → Prop)
    (p : Prog (SynapseWorld σ F) NodeError α) (l : Knowing) : Prop :=
  p.ObeysUnder (fun w => up w.node) (SynapseStep up owner) Knowing.AtRest Q l

theorem storeCall_minds {α : Type} {f : SynapseWorld σ F → Except StoreError α × SynapseWorld σ F}
    {Q : α → Knowing → Prop} {l : Knowing}
    (h : Minds up owner (fun r l' => l'.AtRest ∧ ∀ a, r = .ok a → Q a l') (.act f) l) :
    Minds up owner Q (storeCall f) l := by
  apply h.bind
  intro r l' holds
  cases r with
  | error e => exact Prog.ObeysUnder.of_throw holds.1
  | ok a => exact Prog.ObeysUnder.of_pure (holds.2 a rfl)

theorem storeCall_attempt_minds {α : Type}
    {f : SynapseWorld σ F → Except StoreError α × SynapseWorld σ F}
    {Q : Except NodeError α → Knowing → Prop} {l : Knowing}
    (h : Minds up owner (fun r l' => Q (NodeM.serialized r) l') (.act f) l) :
    Minds up owner Q (storeCall f).attempt l := by
  intro w hw
  obtain ⟨l', moved, holds⟩ := h w hw
  refine ⟨l', moved, ?_⟩
  cases r : (f w).1 with
  | error e =>
    rw [r] at holds
    exact holds
  | ok a =>
    rw [r] at holds
    exact holds

theorem act_attempt_minds {α : Type} {f : SynapseWorld σ F → α × SynapseWorld σ F}
    {Q : Except NodeError α → Knowing → Prop} {l : Knowing}
    (h : Minds up owner (fun a l' => Q (.ok a) l') (.act f) l) :
    Minds up owner Q (Prog.act f).attempt l := h

theorem unnoted_minds {α : Type} {f : σ → α × σ} {Q : α → Knowing → Prop} {l : Knowing}
    (keeps : ∀ s, up s → up (f s).2 ∧ owner (f s).2 = owner s)
    (post : ∀ s, up s → ∃ known, (∀ k ∈ known, k ∈ l.known ∨ owner s k.1 = some k.2) ∧
      Q (f s).1 { l with known := known }) :
    Minds up owner Q (.act (SynapseWorld.unnoted (F := F) f)) l := by
  intro w hw
  obtain ⟨known, learnt, holds⟩ := post w.node hw
  exact ⟨_, ⟨(keeps w.node hw).1, .learns (keeps w.node hw).2 rfl rfl learnt⟩, holds⟩

variable (lawful : B.Lawful up owner)

include lawful

theorem SynapseBackend.Lawful.owned {s : σ} (hs : up s) {r : SynapseRecord F}
    (stored : B.Stored s r) : owner s r.id = some r.peer := by
  obtain ⟨id, read⟩ := stored
  obtain ⟨-, found, same, some, -⟩ := lawful.get id s hs
  obtain rfl := Except.ok.inj (read.symm.trans same)
  obtain ⟨named, owned⟩ := some r rfl
  rw [named]
  exact owned

theorem getSynapse_minds (id : SynapseId) {Q : Option (SynapseRecord F) → Knowing → Prop}
    {l : Knowing} (rest : l.AtRest)
    (post : ∀ found l', l'.forming = l.forming → (∀ r ∈ found, (r.id, r.peer) ∈ l'.known) →
      Q found l') :
    Minds up owner Q (storeCall (B.noted.getSynapse id)) l := by
  apply storeCall_minds
  apply unnoted_minds
  · intro s hs
    rw [(lawful.get id s hs).1]
    exact ⟨hs, rfl⟩
  · intro s hs
    obtain ⟨-, found, result, some, -⟩ := lawful.get id s hs
    refine ⟨(found.map fun r => (r.id, r.peer)).toList ++ l.known, ?_, rest, ?_⟩
    · intro k hk
      rcases List.mem_append.mp hk with read | held
      · obtain ⟨r, hr, rfl⟩ := Option.map_eq_some_iff.mp (Option.mem_toList.mp read)
        obtain ⟨named, owned⟩ := some r hr
        rw [← named] at owned
        exact Or.inr owned
      · exact Or.inl held
    · intro a ok
      obtain rfl := Except.ok.inj (result.symm.trans ok)
      refine post _ _ rfl fun r hr => List.mem_append_left _ ?_
      exact Option.mem_toList.mpr (Option.mem_map_of_mem _ hr)

theorem listSynapses_minds {Q : List (SynapseRecord F) → Knowing → Prop} {l : Knowing}
    (rest : l.AtRest)
    (post : ∀ rs l', l'.forming = l.forming → (∀ r ∈ rs, (r.id, r.peer) ∈ l'.known) → Q rs l') :
    Minds up owner Q (storeCall B.noted.listSynapses) l := by
  apply storeCall_minds
  apply unnoted_minds
  · intro s hs
    rw [(lawful.list s hs).1]
    exact ⟨hs, rfl⟩
  · intro s hs
    obtain ⟨-, rs, result, stored⟩ := lawful.list s hs
    refine ⟨rs.map (fun r => (r.id, r.peer)) ++ l.known, ?_, rest, ?_⟩
    · intro k hk
      rcases List.mem_append.mp hk with read | held
      · obtain ⟨r, hr, rfl⟩ := List.mem_map.mp read
        exact Or.inr (lawful.owned hs (stored r hr))
      · exact Or.inl held
    · intro a ok
      obtain rfl := Except.ok.inj (result.symm.trans ok)
      exact post _ _ rfl fun r hr => List.mem_append_left _ (List.mem_map_of_mem hr)

theorem putSynapse_minds {r : SynapseRecord F} {l : Knowing} (held : (r.id, r.peer) ∈ l.known)
    {Q : Except StoreError Unit → Knowing → Prop} (ok : Q (.ok ()) l)
    (error : ∀ e, Q (.error e) { l with refused := true }) :
    Minds up owner Q (.act (B.noted.putSynapse r)) l := by
  intro w hw
  obtain ⟨hw', ⟨result, table⟩ | ⟨⟨e, result⟩, table, id, other, taken⟩⟩ := lawful.put r w.node hw
  · refine ⟨l, ⟨hw', .rewrites held table rfl rfl⟩, ?_⟩
    show Q (B.putSynapse r w.node).1 l
    rw [result]
    exact ok
  · refine ⟨{ l with refused := true }, ⟨hw', .conflicts held other taken⟩, ?_⟩
    show Q (B.putSynapse r w.node).1 _
    rw [result]
    exact error e

theorem rewrite_minds {r : SynapseRecord F} {l : Knowing} (rest : l.AtRest)
    (held : (r.id, r.peer) ∈ l.known) :
    Minds up owner (fun _ l' => l' = l) (storeCall (B.noted.putSynapse r)) l := by
  apply storeCall_minds
  apply putSynapse_minds lawful held
  · exact ⟨rest, fun _ _ => rfl⟩
  · intro e
    refine ⟨rest, fun a ok => ?_⟩
    cases ok

/-- The lookup of an upsert: its task knows the record it found, or forms one from now on. -/
theorem synapseForPeer_minds {peer : NodeId} {l : Knowing} (rest : l.AtRest)
    {Q : Except StoreError (Option (SynapseRecord F)) → Knowing → Prop}
    (hit : ∀ r l', l'.AtRest → r.peer = peer → (r.id, r.peer) ∈ l'.known → Q (.ok (some r)) l')
    (miss : Q (.ok none) { l with forming := some peer }) :
    Minds up owner Q (.act (B.noted.synapseForPeer peer)) l := by
  intro w hw
  obtain ⟨same, found, result, stored, absent⟩ := lawful.find peer w.node hw
  have after : (B.noted.synapseForPeer peer w).2 = { w with
      forming := w.forming ++ if foundNone (B.synapseForPeer peer w.node).1 then [peer] else [] } := by
    show ({ w with node := (B.synapseForPeer peer w.node).2, forming := _ } : SynapseWorld σ F) = _
    rw [same]
  have answer : (B.noted.synapseForPeer peer w).1 = .ok found := result
  rw [after, answer, result]
  cases found with
  | none =>
    exact ⟨_, ⟨hw, .misses rest (absent rfl) rfl rfl rfl⟩, miss⟩
  | some r =>
    obtain ⟨reached, stores⟩ := stored r rfl
    refine ⟨{ l with known := (r.id, r.peer) :: l.known }, ⟨hw, .learns rfl ?_ rfl ?_⟩, ?_⟩
    · exact List.append_nil _
    · intro k hk
      rcases List.mem_cons.mp hk with rfl | hk
      · exact Or.inr (lawful.owned hw stores)
      · exact Or.inl hk
    · exact hit r _ rest reached List.mem_cons_self

/-- The first write of a synapse ends its forming, whether it is taken or refused. -/
theorem putFormed_minds {r : SynapseRecord F} {l : Knowing} (mine : l.forming = some r.peer)
    {Q : Except StoreError Unit → Knowing → Prop}
    (ok : Q (.ok ()) ⟨(r.id, r.peer) :: l.known, none, l.refused⟩)
    (error : ∀ e, Q (.error e) ⟨l.known, none, true⟩) :
    Minds up owner Q (.act (B.noted.putFormed r)) l := by
  intro w hw
  have put := lawful.put r w.node hw
  rw [← lawful.form] at put
  obtain ⟨hw', ⟨result, table⟩ | ⟨⟨e, result⟩, table, id, other, taken⟩⟩ := put
  · refine ⟨⟨(r.id, r.peer) :: l.known, none, l.refused⟩, ⟨hw', .forms mine table rfl rfl⟩, ?_⟩
    show Q (B.putFormed r w.node).1 _
    rw [result]
    exact ok
  · refine ⟨⟨l.known, none, true⟩, ⟨hw', .collides mine taken⟩, ?_⟩
    show Q (B.putFormed r w.node).1 _
    rw [result]
    exact error e

variable [Scalar F] (node : Node F)

omit [Scalar F] in
theorem now_minds {Q : ℕ → Knowing → Prop} {l : Knowing} (post : ∀ now, Q now l) :
    Minds up owner Q (.act B.noted.now) l := by
  apply unnoted_minds lawful.now
  intro s _
  exact ⟨l.known, fun k hk => Or.inl hk, post _⟩

theorem penalize_minds (id : SynapseId) {l : Knowing} (rest : l.AtRest) :
    Minds up owner (fun _ => Knowing.AtRest) (node.penalizeSignatureFailureOn B.noted id) l := by
  apply Prog.ObeysUnder.bind (now_minds lawful fun _ => rest)
  intro now l rest
  apply Prog.ObeysUnder.bind (getSynapse_minds (Q := fun found l' => l'.AtRest ∧
    ∀ r ∈ found, (r.id, r.peer) ∈ l'.known) lawful id rest fun found l' same held =>
      ⟨same.trans rest, held⟩)
  rintro found l ⟨rest, held⟩
  cases found with
  | none => exact rest
  | some r =>
    have kept : (node.penalizedRecord now r).id = r.id ∧
        (node.penalizedRecord now r).peer = r.peer := by
      unfold Node.penalizedRecord
      rw [Synapse.applySignatureFailure_eq]
      split
      · exact ⟨rfl, rfl⟩
      · exact ⟨Synapse.updateState_id _, Synapse.updateState_remoteNode _⟩
    have written := rewrite_minds lawful (r := node.penalizedRecord now r) rest (by
      rw [kept.1, kept.2]
      exact held r rfl)
    refine written.bind fun _ l' same => ?_
    rw [same]
    exact Prog.ObeysUnder.of_pure rest

theorem normalize_minds {l : Knowing} (rest : l.AtRest) :
    Minds up owner (fun _ => Knowing.AtRest) (node.normalizeOutboundWeightsOn B.noted) l := by
  apply Prog.ObeysUnder.bind (listSynapses_minds (Q := fun rs l' => l'.AtRest ∧
    ∀ r ∈ rs, (r.id, r.peer) ∈ l'.known) lawful rest fun rs l' same held =>
      ⟨same.trans rest, held⟩)
  rintro rs l ⟨rest, held⟩
  split
  · exact rest
  · split
    · exact rest
    · refine Prog.ObeysUnder.bind (Prog.ObeysUnder.forM (I := fun left (l' : Knowing) =>
        l'.AtRest ∧ ∀ e ∈ left, (e.1.id, e.1.peer) ∈ l'.known) ?_ ?_) ?_
      · rintro ⟨r, w⟩ left l ⟨rest, held⟩
        have written := rewrite_minds lawful (r := { r with weight := w }) rest
          (held (r, w) List.mem_cons_self)
        refine written.mono fun _ l' same => ?_
        rw [same]
        exact ⟨rest, fun e he => held e (List.mem_cons_of_mem _ he)⟩
      · exact ⟨rest, fun e he => held e.1 (List.of_mem_zip he).1⟩
      · intro _ l' after
        exact Prog.ObeysUnder.of_pure after.1

theorem update_minds (entry : JournalEntry F) (outcome : Outcome) (nowNs : ℕ) {l : Knowing}
    (rest : l.AtRest) :
    Minds up owner (fun _ => Knowing.AtRest)
      (node.updateSynapseOn B.noted entry outcome nowNs) l := by
  refine Prog.ObeysUnder.bind (R := fun _ => Knowing.AtRest) (storeCall_minds ?_) ?_
  · refine unnoted_minds (fun s hs => ?_) fun s _ =>
      ⟨l.known, fun k hk => Or.inl hk, rest, fun _ _ => rest⟩
    rw [lawful.used _ _ s hs]
    exact ⟨hs, rfl⟩
  intro used l rest
  apply Prog.ObeysUnder.bind (getSynapse_minds (Q := fun found l' => l'.AtRest ∧
    ∀ r ∈ found, (r.id, r.peer) ∈ l'.known) lawful entry.synapse rest fun found l' same held =>
      ⟨same.trans rest, held⟩)
  rintro found l ⟨rest, held⟩
  cases found with
  | none => exact rest
  | some r =>
    have finish : ∀ (u : WeightUpdate F) l, l.AtRest → (r.id, r.peer) ∈ l.known →
        Minds up owner (fun _ => Knowing.AtRest) (do
          storeCall (B.noted.putSynapse (node.reweighed entry outcome nowNs used r))
          let _ ← node.normalizeOutboundWeightsOn B.noted
          return u) l := by
      intro u l rest held
      have peer : (node.reweighed entry outcome nowNs used r).peer = r.peer :=
        Synapse.updateState_remoteNode _
      have written := rewrite_minds lawful (r := node.reweighed entry outcome nowNs used r) rest (by
        rw [node.reweighed_id, peer]
        exact held)
      refine written.bind fun _ l' same => ?_
      rw [same]
      exact (normalize_minds lawful node rest).bind fun _ l' rest => Prog.ObeysUnder.of_pure rest
    dsimp only
    split
    · refine Prog.ObeysUnder.bind (R := fun _ l' => l' = l) (storeCall_minds ?_) ?_
      · exact unnoted_minds (fun s hs => lawful.charge _ _ _ _ s hs) fun s _ =>
          ⟨l.known, fun k hk => Or.inl hk, rest, fun _ _ => rfl⟩
      · intro _ l' same
        rw [same]
        exact finish _ l rest (held r rfl)
    · exact finish _ l rest (held r rfl)

theorem form_minds (peer : NodeId) (now : ℕ) {l : Knowing} (mine : l.forming = some peer) :
    Minds up owner (fun answer l' => l'.AtRest ∧ Says l' peer answer) (do
      let synapse ← .act (B.noted.draw (Synapse.newWith peer node.config.synapse now))
      let record := synapse.activate.toRecord
      storeCall (B.noted.putFormed record)
      storeCall (B.noted.putPeer
        { id := peer
          addresses := []
          region := none
          advertisedTypes := []
          lastSeenNs := now
          source := .observed })
      return record : Prog (SynapseWorld σ F) NodeError (SynapseRecord F)).attempt l := by
  refine Prog.ObeysUnder.attempt_bind (R := fun r l' => l' = l ∧
    ∃ synapse : Synapse F, r = .ok synapse ∧ synapse.activate.toRecord.peer = peer) ?_ ?_ ?_
  · apply act_attempt_minds
    refine unnoted_minds (fun s hs => (lawful.draw _ s hs).1) fun s hs =>
      ⟨l.known, fun k hk => Or.inl hk, rfl, _, rfl, ?_⟩
    obtain ⟨-, rng, drawn⟩ := lawful.draw (Synapse.newWith peer node.config.synapse now) s hs
    rw [drawn]
    exact node.formedRecord_peer peer now rng
  · rintro synapse _ ⟨rfl, _, same, reached⟩
    obtain rfl := Except.ok.inj same
    refine Prog.ObeysUnder.attempt_bind (R := fun r l' => l'.AtRest ∧
      ((r = .ok () ∧ (synapse.activate.toRecord.id, peer) ∈ l'.known) ∨
        l'.refused = true)) ?_ ?_ ?_
    · apply storeCall_attempt_minds
      apply putFormed_minds lawful (by rw [reached, mine])
      · rw [reached]
        exact ⟨rfl, Or.inl ⟨rfl, List.mem_cons_self⟩⟩
      · exact fun e => ⟨rfl, Or.inr rfl⟩
    · rintro _ l' ⟨rest, known⟩
      have said : Says l' peer (.ok synapse.activate.toRecord) := by
        rcases known with ⟨-, known⟩ | refused
        · exact Or.inl ⟨_, rfl, known⟩
        · exact Or.inr (Or.inr refused)
      refine Prog.ObeysUnder.attempt_bind (R := fun r l'' => l'' = l' ∧ r = .ok ()) ?_ ?_ ?_
      · apply storeCall_attempt_minds
        refine unnoted_minds (fun s hs => ⟨(lawful.peer _ s hs).1, (lawful.peer _ s hs).2.1⟩)
          fun s hs => ⟨l'.known, fun k hk => Or.inl hk, rfl, ?_⟩
        rw [(lawful.peer _ s hs).2.2]
        rfl
      · rintro _ _ ⟨rfl, -⟩
        exact ⟨rest, said⟩
      · rintro e _ ⟨-, same⟩
        cases same
    · rintro e l' ⟨rest, ⟨same, -⟩ | refused⟩
      · cases same
      · exact ⟨rest, Or.inr (Or.inr refused)⟩
  · rintro e _ ⟨-, synapse, same, -⟩
    cases same

omit [Scalar F] in
theorem answered_minds {peer : NodeId} {existing record : SynapseRecord F} {l : Knowing}
    (rest : l.AtRest) (held : (existing.id, existing.peer) ∈ l.known)
    (reached : existing.peer = peer) (id : record.id = existing.id)
    (peer' : record.peer = existing.peer) :
    Minds up owner (fun answer l' => l'.AtRest ∧ Says l' peer answer) (do
      storeCall (B.noted.putSynapse record)
      return record : Prog (SynapseWorld σ F) NodeError (SynapseRecord F)).attempt l := by
  have known : (record.id, record.peer) ∈ l.known := by
    rw [id, peer']
    exact held
  refine Prog.ObeysUnder.attempt_bind (R := fun r l' => l'.AtRest ∧
    ((r = .ok () ∧ l' = l) ∨ l'.refused = true)) ?_ ?_ ?_
  · apply storeCall_attempt_minds
    exact putSynapse_minds lawful known ⟨rest, Or.inl ⟨rfl, rfl⟩⟩ fun e => ⟨rest, Or.inr rfl⟩
  · rintro _ l' ⟨rest', ⟨-, rfl⟩ | refused⟩
    · rw [peer', reached] at known
      exact ⟨rest', Or.inl ⟨record, rfl, known⟩⟩
    · exact ⟨rest', Or.inr (Or.inr refused)⟩
  · rintro e l' ⟨rest', ⟨ok, -⟩ | refused⟩
    · cases ok
    · exact ⟨rest', Or.inr (Or.inr refused)⟩

/-- An upsert answers with a record it knows the peer of, unless the peer is cooling down or a
write of it was refused. -/
theorem upsert_minds (peer : NodeId) {l : Knowing} (rest : l.AtRest) :
    Minds up owner (fun answer l' => l'.AtRest ∧ Says l' peer answer)
      (node.upsertSynapseOn B.noted peer).attempt l := by
  refine Prog.ObeysUnder.attempt_bind (R := fun r l' => l'.AtRest ∧ ∃ now, r = .ok now) ?_ ?_ ?_
  · apply act_attempt_minds
    exact now_minds lawful fun now => ⟨rest, now, rfl⟩
  · rintro now l ⟨rest, -⟩
    refine Prog.ObeysUnder.attempt_bind (R := fun r l' => ∃ found, r = .ok found ∧
      (∀ r ∈ found, l'.AtRest ∧ r.peer = peer ∧ (r.id, r.peer) ∈ l'.known) ∧
      (found = none → l'.forming = some peer)) ?_ ?_ ?_
    · apply storeCall_attempt_minds
      apply synapseForPeer_minds lawful rest
      · intro r l' rest reached held
        refine ⟨some r, rfl, fun x hx => ?_, fun none => ?_⟩
        · obtain rfl := Option.some.inj hx
          exact ⟨rest, reached, held⟩
        · cases none
      · refine ⟨none, rfl, fun x hx => ?_, fun _ => rfl⟩
        cases hx
    · rintro found l ⟨_, same, hit, miss⟩
      obtain rfl := Except.ok.inj same
      cases found with
      | none => exact form_minds lawful node peer now (miss rfl)
      | some existing =>
        obtain ⟨rest, reached, held⟩ := hit existing rfl
        have kept : ((Synapse.fromRecord existing node.config.synapse).reactivate
              node.config.synapse).toRecord.id = existing.id ∧
            ((Synapse.fromRecord existing node.config.synapse).reactivate
              node.config.synapse).toRecord.peer = existing.peer := by
          unfold Synapse.reactivate
          split
          · exact ⟨rfl, rfl⟩
          · exact ⟨rfl, rfl⟩
        dsimp only
        split
        · split
          · exact ⟨rest, Or.inr (Or.inl ⟨_, rfl, _, rfl⟩)⟩
          · exact answered_minds lawful rest held reached rfl rfl
        · split
          · exact answered_minds lawful rest held reached kept.1 kept.2
          · rw [reached] at held
            exact ⟨rest, Or.inl ⟨existing, rfl, held⟩⟩
    · rintro e l ⟨_, same, -⟩
      cases same
  · rintro e l ⟨-, now, same⟩
    cases same

theorem synapseProgram_minds (task : SynapseTask F) {l : Knowing} (rest : l.AtRest) :
    Minds up owner (fun _ => Knowing.AtRest) (node.synapseProgram B task) l := by
  have discarded : ∀ {α : Type} {p : Prog (SynapseWorld σ F) NodeError α},
      Minds up owner (fun _ => Knowing.AtRest) p l →
      Minds up owner (fun _ => Knowing.AtRest) (do let _ ← p) l :=
    fun minds => minds.bind fun _ _ rest => Prog.ObeysUnder.of_pure rest
  cases task with
  | upsert peer =>
    refine (upsert_minds lawful node peer rest).bind fun answer l' said => ?_
    exact fun w hw => ⟨l', ⟨hw, .answers said.2 rfl rfl rfl⟩, said.1⟩
  | penalize id => exact discarded (penalize_minds lawful node id rest)
  | update entry outcome nowNs => exact discarded (update_minds lawful node entry outcome nowNs rest)
  | normalize => exact discarded (normalize_minds lawful node rest)

end Steps

/-- What may happen between two steps: anything but to the synapse table. -/
def SynapseOutside (up : σ → Prop) (owner : σ → Owners) (w w' : SynapseWorld σ F) : Prop :=
  (up w.node → up w'.node) ∧ owner w'.node = owner w.node ∧ w'.forming = w.forming ∧
    w'.answers = w.answers

/-- No two upserts form a synapse for one peer at a time, and no identifier in use is given to
another peer. -/
structure FormsApart (owner : σ → Owners) (w w' : SynapseWorld σ F) : Prop where
  alone : w'.forming.Nodup
  unused : ∀ id p, owner w.node id = some p → owner w'.node id = some p

def Fits (owner : Owners) (a : NodeId × Except NodeError (SynapseRecord F)) : Prop :=
  (∃ record, a.2 = .ok record ∧ owner record.id = some a.1) ∨ ∃ e, a.2 = .error e ∧ CoolsDown a.1 e

structure OneEach {ι : Type} (up : σ → Prop) (owner : σ → Owners) (h : ι → Knowing)
    (w : SynapseWorld σ F) : Prop where
  inOrder : up w.node
  once : OwnedOnce (owner w.node)
  known : ∀ i, ∀ k ∈ (h i).known, owner w.node k.1 = some k.2
  forming : ∀ i p, (h i).forming = some p → p ∈ w.forming
  alone : ∀ i j p, (h i).forming = some p → (h j).forming = some p → i = j
  absent : ∀ p ∈ w.forming, ∀ id, owner w.node id ≠ some p
  nodup : w.forming.Nodup
  unrefused : ∀ i, (h i).refused = false
  answers : ∀ a ∈ w.answers, Fits (owner w.node) a

namespace OneEach

variable {ι : Type} [DecidableEq ι] {up : σ → Prop} {owner : σ → Owners} {h : ι → Knowing}
  {w w' : SynapseWorld σ F}

/-- The invariant, when the table and the history are as before and one task knows more. -/
theorem learn (holds : OneEach up owner h w) (inOrder : up w'.node)
    (table : owner w'.node = owner w.node) (forming : w'.forming = w.forming)
    (answers : ∀ a ∈ w'.answers, Fits (owner w.node) a) {i : ι} {l : Knowing}
    (same : l.forming = (h i).forming) (refused : l.refused = (h i).refused)
    (learnt : ∀ k ∈ l.known, k ∈ (h i).known ∨ owner w.node k.1 = some k.2) :
    OneEach up owner (Function.update h i l) w' := by
  have forms : ∀ j, (Function.update h i l j).forming = (h j).forming :=
    update_part Knowing.forming same
  constructor
  · exact inOrder
  · rw [table]
    exact holds.once
  · rw [table, Function.forall_update_iff h fun _ l => ∀ k ∈ l.known, owner w.node k.1 = some k.2]
    refine ⟨fun k hk => ?_, fun j _ => holds.known j⟩
    rcases learnt k hk with held | owned
    · exact holds.known i k held
    · exact owned
  · intro j p mine
    rw [forming]
    rw [forms] at mine
    exact holds.forming j p mine
  · intro j j' p mine mine'
    rw [forms] at mine mine'
    exact holds.alone j j' p mine mine'
  · rw [forming, table]
    exact holds.absent
  · rw [forming]
    exact holds.nodup
  · exact fun j => (update_part Knowing.refused refused j).trans (holds.unrefused j)
  · rw [table]
    exact answers

theorem miss (holds : OneEach up owner h w) (inOrder : up w'.node)
    (table : owner w'.node = owner w.node) {i : ι} {p : NodeId}
    (absent : ∀ id, owner w.node id ≠ some p) (forming : w'.forming = w.forming ++ [p])
    (answers : w'.answers = w.answers) (apart : w'.forming.Nodup) :
    OneEach up owner (Function.update h i { h i with forming := some p }) w' := by
  have fresh : p ∉ w.forming := by
    rw [forming] at apart
    intro here
    exact (List.nodup_append.mp apart).2.2 p here p (List.mem_singleton_self p) rfl
  -- The task itself forms one for `p`, and the others what they formed before.
  have forms : ∀ {j q}, (Function.update h i { h i with forming := some p } j).forming = some q →
      j = i ∧ q = p ∨ j ≠ i ∧ (h j).forming = some q := by
    intro j q mine
    by_cases here : j = i
    · subst j
      rw [Function.update_self] at mine
      exact Or.inl ⟨rfl, (Option.some.inj mine).symm⟩
    · rw [Function.update_of_ne here] at mine
      exact Or.inr ⟨here, mine⟩
  constructor
  · exact inOrder
  · rw [table]
    exact holds.once
  · rw [table, Function.forall_update_iff h fun _ l => ∀ k ∈ l.known, owner w.node k.1 = some k.2]
    exact ⟨holds.known i, fun j _ => holds.known j⟩
  · intro j q mine
    rw [forming]
    rcases forms mine with ⟨-, rfl⟩ | ⟨-, before⟩
    · exact List.mem_append_right _ (List.mem_singleton_self q)
    · exact List.mem_append_left _ (holds.forming j q before)
  · intro j j' q mine mine'
    rcases forms mine with ⟨rfl, rfl⟩ | ⟨-, before⟩
    · rcases forms mine' with ⟨there, -⟩ | ⟨-, before⟩
      · exact there.symm
      · exact absurd (holds.forming j' q before) fresh
    · rcases forms mine' with ⟨-, rfl⟩ | ⟨-, before'⟩
      · exact absurd (holds.forming j q before) fresh
      · exact holds.alone j j' q before before'
  · intro q hq
    rw [forming] at hq
    rw [table]
    rcases List.mem_append.mp hq with hq | hq
    · exact holds.absent q hq
    · rw [List.mem_singleton.mp hq]
      exact absent
  · exact apart
  · rw [Function.forall_update_iff h fun _ l => l.refused = false]
    exact ⟨holds.unrefused i, fun j _ => holds.unrefused j⟩
  · rw [answers, table]
    exact holds.answers

theorem form (holds : OneEach up owner h w) (inOrder : up w'.node) {i : ι} {id : SynapseId}
    {p : NodeId} (mine : (h i).forming = some p)
    (table : owner w'.node = Function.update (owner w.node) id (some p))
    (forming : w'.forming = w.forming.erase p) (answers : w'.answers = w.answers)
    (unused : ∀ id p, owner w.node id = some p → owner w'.node id = some p) :
    OneEach up owner
      (Function.update h i ⟨(id, p) :: (h i).known, none, (h i).refused⟩) w' := by
  have absent := holds.absent p (holds.forming i p mine)
  have mineNow : owner w'.node id = some p := by
    rw [table, Function.update_self]
  -- The task itself is done forming one.
  have forms : ∀ {j q}, (Function.update h i ⟨(id, p) :: (h i).known, none, (h i).refused⟩
      j).forming = some q → j ≠ i ∧ (h j).forming = some q := by
    intro j q mine'
    by_cases here : j = i
    · subst j
      rw [Function.update_self] at mine'
      cases mine'
    · rw [Function.update_of_ne here] at mine'
      exact ⟨here, mine'⟩
  constructor
  · exact inOrder
  · rw [table]
    exact holds.once.update absent
  · rw [Function.forall_update_iff h fun _ l => ∀ k ∈ l.known, owner w'.node k.1 = some k.2]
    refine ⟨fun k hk => ?_, fun j _ k hk => unused _ _ (holds.known j k hk)⟩
    rcases List.mem_cons.mp hk with rfl | hk
    · exact mineNow
    · exact unused _ _ (holds.known i k hk)
  · intro j q mine'
    obtain ⟨other, before⟩ := forms mine'
    have ne : q ≠ p := by
      rintro rfl
      exact other (holds.alone j i q before mine)
    rw [forming]
    exact (List.mem_erase_of_ne ne).mpr (holds.forming j q before)
  · exact fun j j' q mine' mine'' => holds.alone j j' q (forms mine').2 (forms mine'').2
  · intro q hq a owned
    rw [forming] at hq
    obtain ⟨ne, hq⟩ := (holds.nodup.mem_erase_iff).mp hq
    by_cases here : a = id
    · subst a
      exact ne (Option.some.inj (mineNow.symm.trans owned)).symm
    · rw [table, Function.update_of_ne here] at owned
      exact holds.absent q hq a owned
  · rw [forming]
    exact holds.nodup.erase p
  · rw [Function.forall_update_iff h fun _ l => l.refused = false]
    exact ⟨holds.unrefused i, fun j _ => holds.unrefused j⟩
  · intro a ha
    rw [answers] at ha
    rcases holds.answers a ha with ⟨record, same, owned⟩ | refused
    · exact Or.inl ⟨record, same, unused _ _ owned⟩
    · exact Or.inr refused

omit [DecidableEq ι] in
theorem fits (holds : OneEach up owner h w) {i : ι} {peer : NodeId}
    {answer : Except NodeError (SynapseRecord F)} (told : Says (h i) peer answer) :
    Fits (owner w.node) (peer, answer) := by
  rcases told with ⟨record, same, held⟩ | refusal | refused
  · exact Or.inl ⟨record, same, holds.known i _ held⟩
  · exact Or.inr refusal
  · rw [holds.unrefused i] at refused
    cases refused

theorem move (holds : OneEach up owner h w) {i : ι} {l : Knowing}
    (step : SynapseStep up owner (h i) w l w') (apart : FormsApart owner w w') :
    OneEach up owner (Function.update h i l) w' := by
  obtain ⟨inOrder, moved⟩ := step
  cases moved with
  | learns table forming answers learnt =>
    refine holds.learn inOrder table forming ?_ rfl rfl learnt
    rw [answers]
    exact holds.answers
  | misses idle absent table forming answers =>
    exact holds.miss inOrder table absent forming answers apart.alone
  | @rewrites k _ held table forming answers =>
    have same : owner w'.node = owner w.node := by
      rw [table]
      apply Function.update_eq_self_iff.mpr
      exact (holds.known i k held).symm
    refine holds.learn inOrder same forming ?_ rfl rfl fun k hk => Or.inl hk
    rw [answers]
    exact holds.answers
  | forms mine table forming answers =>
    exact holds.form inOrder mine table forming answers apart.unused
  | @conflicts k id _ held other taken =>
    exact absurd (holds.once id k.1 k.2 taken (holds.known i k held)) other
  | @collides p id _ mine taken =>
    exact absurd taken (holds.absent p (holds.forming i p mine) id)
  | answers told table forming answers =>
    refine holds.learn inOrder table forming ?_ rfl rfl fun k hk => Or.inl hk
    rw [answers]
    intro a ha
    rcases List.mem_append.mp ha with ha | ha
    · exact holds.answers a ha
    · rw [List.mem_singleton.mp ha]
      exact holds.fits told

end OneEach

theorem oneEach_inductive [Scalar F] {ι : Type} [DecidableEq ι] {up : σ → Prop}
    {owner : σ → Owners} {B : SynapseBackend σ F} (lawful : B.Lawful up owner) (node : Node F) :
    Pool.InductiveUnder (SynapseMenu (ι := ι) node B) (SynapseOutside up owner) (FormsApart owner)
      (fun w => up w.node) (SynapseStep up owner) Knowing.AtRest (OneEach up owner) where
  within _ _ holds := holds.inOrder
  obeys i p offered l rest := by
    obtain ⟨task, rfl⟩ := offered
    exact synapseProgram_minds lawful node task rest
  moves h i l w w' holds step apart := holds.move step apart
  changes h w w' holds outside _ := by
    obtain ⟨inOrder, table, forming, answers⟩ := outside
    exact ⟨inOrder holds.inOrder, table ▸ holds.once, table ▸ holds.known, forming ▸ holds.forming,
      holds.alone, table ▸ forming ▸ holds.absent, forming ▸ holds.nodup, holds.unrefused,
      table ▸ answers ▸ holds.answers⟩

/-- A run of these calls from rest, on a store in order that has one synapse a peer at most. -/
structure SynapseRun [Scalar F] {ι : Type} [DecidableEq ι] (node : Node F) (B : SynapseBackend σ F)
    (up : σ → Prop) (owner : σ → Owners)
    (start P : Pool ι (SynapseWorld σ F) NodeError Unit) : Prop where
  quiet : start.Quiescent
  inOrder : up start.state.node
  once : OwnedOnce (owner start.state.node)
  forming : start.state.forming = []
  answers : start.state.answers = []
  run : Pool.Run (SynapseMenu node B) (SynapseOutside up owner) (FormsApart owner) start P

theorem SynapseRun.init [Scalar F] {ι : Type} [DecidableEq ι] {node : Node F}
    {B : SynapseBackend σ F} {up : σ → Prop} {owner : σ → Owners}
    {start P : Pool ι (SynapseWorld σ F) NodeError Unit} (run : SynapseRun node B up owner start P) :
    OneEach up owner (fun _ : ι => ⟨[], none, false⟩) start.state := by
  constructor
  · exact run.inOrder
  · exact run.once
  · intro i k hk
    cases hk
  · intro i p mine
    cases mine
  · intro i j p mine
    cases mine
  · intro p hp
    rw [run.forming] at hp
    cases hp
  · rw [run.forming]
    exact List.nodup_nil
  · exact fun _ => rfl
  · intro a ha
    rw [run.answers] at ha
    cases ha

section Lookups

variable {B : SynapseBackend σ F} {up : σ → Prop} {owner : σ → Owners} {s : σ}

theorem SynapseBackend.Lawful.reads (lawful : B.Lawful up owner) (inOrder : up s)
    {r : SynapseRecord F} (stored : B.Stored s r) : (B.getSynapse r.id s).1 = .ok (some r) := by
  obtain ⟨id, read⟩ := stored
  obtain ⟨-, found, same, some, -⟩ := lawful.get id s inOrder
  obtain rfl := Except.ok.inj (read.symm.trans same)
  rw [(some r rfl).1]
  exact read

theorem SynapseBackend.Lawful.once (lawful : B.Lawful up owner) (inOrder : up s)
    (once : OwnedOnce (owner s)) {r r' : SynapseRecord F} (stored : B.Stored s r)
    (stored' : B.Stored s r') (same : r.peer = r'.peer) : r = r' := by
  have owned := lawful.owned inOrder stored
  rw [same] at owned
  have ids := once r.id r'.id r'.peer owned (lawful.owned inOrder stored')
  have read := lawful.reads inOrder stored
  rw [ids, lawful.reads inOrder stored'] at read
  exact (Option.some.inj (Except.ok.inj read)).symm

theorem SynapseBackend.Lawful.finds (lawful : B.Lawful up owner) (inOrder : up s) {id : SynapseId}
    {peer : NodeId} (owned : owner s id = some peer) : ∃ stored,
      (B.synapseForPeer peer s).1 = .ok (some stored) ∧ stored.peer = peer ∧ B.Stored s stored := by
  obtain ⟨-, found, result, hit, miss⟩ := lawful.find peer s inOrder
  cases found with
  | none => exact absurd owned (miss rfl id)
  | some stored => exact ⟨stored, result, hit stored rfl⟩

theorem OneEach.oneSynapseEach (lawful : B.Lawful up owner) {ι : Type} {h : ι → Knowing}
    {w : SynapseWorld σ F} (holds : OneEach up owner h w) : OneSynapseEach B w := by
  constructor
  · exact fun r r' hr hr' => lawful.once holds.inOrder holds.once hr hr'
  · intro r hr
    obtain ⟨stored, result, same, here⟩ :=
      lawful.finds holds.inOrder (lawful.owned holds.inOrder hr)
    rw [result, lawful.once holds.inOrder holds.once here hr same]
  · intro a ha
    rcases holds.answers a ha with ⟨record, same, owned⟩ | refused
    · obtain ⟨stored, result, reached, here⟩ := lawful.finds holds.inOrder owned
      have mine := lawful.owned holds.inOrder here
      rw [reached] at mine
      exact Or.inl ⟨record, stored, same, result, holds.once _ _ _ mine owned⟩
    · exact Or.inr refused

end Lookups

theorem SynapseRun.oneSynapseEach [Scalar F] {ι : Type} [DecidableEq ι] {node : Node F}
    {B : SynapseBackend σ F} {up : σ → Prop} {owner : σ → Owners} (lawful : B.Lawful up owner)
    {start P : Pool ι (SynapseWorld σ F) NodeError Unit}
    (run : SynapseRun node B up owner start P) : OneSynapseEach B P.state := by
  obtain ⟨h, holds, -⟩ := run.run.invariantUnder (oneEach_inductive lawful node) run.init run.quiet
    fun _ => rfl
  exact holds.oneSynapseEach lawful

end OpenNtl
