import OpenNtl.Planning
import OpenNtl.Receive
import OpenNtl.TableChange

/-! # A pruned peer stays out until its cooldown ends -/
namespace OpenNtl

open AtomicProgram NodeM

variable {F : Type}

def Moment.forwards (m : Moment F) : List Forward :=
  match m.reply with
  | .ok (.disposition d) => d.forwardTo
  | .ok (.forwards fs) => fs
  | _ => []

def Moment.Prunes (m : Moment F) (peer : NodeId) : Prop :=
  ∃ id r o, m.call = .penalizeSignatureFailure id ∧ m.before.store.getSynapse id = some r ∧
    r.peer = peer ∧ m.reply = .ok (.penalty (some o)) ∧ o.pruned = true

/-- There are synapses to the peer, and each has been pruned, with a cooldown that began at
`sinceNs` or later. -/
structure PrunedSince (peer : NodeId) (sinceNs : ℕ) (st : MemoryStore F) : Prop where
  known : ∃ id r, st.getSynapse id = some r ∧ r.peer = peer
  pruned : ∀ id r, st.getSynapse id = some r → r.peer = peer →
    r.state = .pruned ∧ sinceNs ≤ r.lastActiveNs

variable [Scalar F]

/-- A call that finds the peer pruned and leaves it so. -/
structure StaysOut (node : Node F) (peer : NodeId) (sinceNs : ℕ) (m : Moment F) : Prop where
  before : PrunedSince peer sinceNs m.before.store
  after : PrunedSince peer sinceNs m.after.store
  /-- No synapse of the store that can carry leads to the peer. -/
  carries : ∀ r ∈ m.before.store.synapses.values ++ m.after.store.synapses.values,
    r.state.canCarry = true → r.peer ≠ peer
  forwards : ∀ f ∈ m.forwards, f.peer ≠ peer
  cooldown : ∀ id r, m.before.store.getSynapse id = some r → r.peer = peer →
    ∃ r', m.after.store.getSynapse id = some r' ∧
      node.cooldownEnd r.lastActiveNs ≤ node.cooldownEnd r'.lastActiveNs

section Routing

variable {node : Node F}

/-- Each of these goes over a synapse of the store that can carry. -/
def CarriedOver (st : MemoryStore F) (fs : List Forward) : Prop :=
  ∀ f ∈ fs, ∃ r ∈ st.synapses.values, r.state.canCarry = true ∧ r.peer = f.peer

omit [Scalar F] in
theorem carriedOver_nil {st : MemoryStore F} : CarriedOver st [] :=
  fun _ hf => absurd hf List.not_mem_nil

theorem planForwarding_carries {signal : Signal F} {arrival : Option SynapseId} {nowNs : ℕ}
    {s t : NodeState F} {fs : List Forward}
    (plan : (node.planForwarding signal arrival nowNs).run s = (.ok fs, t)) :
    CarriedOver s.store fs := by
  intro f hf
  have chosen : f.way ∈ fs.map Forward.way := List.mem_map_of_mem hf
  rw [node.planForwarding_chosen plan] at chosen
  obtain ⟨c, hc, same⟩ := List.mem_map.mp chosen
  obtain ⟨r, listed, rehydrated⟩ := node.onward_listed signal arrival nowNs hc
  obtain ⟨stored, carries⟩ := Node.mem_eligible.mp listed
  refine ⟨r, stored, carries, ?_⟩
  have peer : c.synapse.remoteNode = f.peer := congrArg Prod.snd same
  rw [← peer, rehydrated]
  rfl

theorem planRelease_carries {signal : Signal F} {arrival : Option SynapseId}
    {s : NodeState F} {fs : List Forward}
    (done : ((node.planRelease signal arrival).run s).1 = .ok fs) : CarriedOver s.store fs := by
  rw [Node.planRelease, now_bind_run] at done
  exact planForwarding_carries (Prod.ext done rfl)

theorem receiveLocal_carries {signal : Signal F} {s : NodeState F} {d : Disposition F}
    (done : ((node.receiveLocal signal).run s).1 = .ok d) : CarriedOver s.store d.forwardTo := by
  rw [Node.receiveLocal, now_bind_run] at done
  cases check : checkPropagable signal node.identity node.config.propagation with
  | error reason =>
    rw [check] at done
    cases done
    exact carriedOver_nil
  | ok u =>
    rw [check] at done
    rcases plan : (node.planForwarding signal none s.clock).run s with ⟨e | fs, t⟩
    · dsimp only at done
      rw [Prog.run_bind_error plan] at done
      cases done
    · dsimp only at done
      rw [Prog.run_bind_ok plan] at done
      split_ifs at done with routeless
      · cases done
        exact carriedOver_nil
      · cases done
        exact planForwarding_carries plan

theorem receive_carries {signal : Signal F} {arrival : Option SynapseId} {s : NodeState F}
    {d : Disposition F} (done : ((node.receive signal arrival).run s).1 = .ok d) :
    CarriedOver s.store d.forwardTo := by
  rcases node.receive_cases signal arrival s with
    ⟨e, -, run⟩ | ⟨-, -, run⟩ | ⟨-, -, reason, run⟩ | ⟨-, -, weight, faults, disposal⟩
  · rw [run] at done
    cases done
  · rw [run] at done
    cases done
    exact carriedOver_nil
  · rw [run] at done
    cases done
    exact carriedOver_nil
  · generalize (node.receive signal arrival).run s = x at disposal done
    cases disposal with
    | shed itself reason =>
      cases done
      exact carriedOver_nil
    | held other stays evicted same =>
      cases done
      exact carriedOver_nil
    | unplanned other fired plan => cases done
    | routeless other fired plan owed evicted same =>
      cases done
      exact carriedOver_nil
    | released other fired plan routed evicted same =>
      cases done
      intro f hf
      obtain ⟨r, stored, carries, peer⟩ := planForwarding_carries plan f hf
      refine ⟨r, ?_, carries, peer⟩
      have kept : (Node.claimed node signal s).synapses = s.store.synapses :=
        MemoryStore.checkAndSetSeen_synapses _ _ _ _
      rw [← kept]
      exact stored

/-- A call that fails forwards nothing; one that returns replies with what it returned. -/
theorem Moment.carries_of_reply {m : Moment F} (performed : m.Performed node) {α : Type}
    {p : NodeM F α} {C : α → Reply F} (call : node.perform m.call = C <$> p)
    (returned : ∀ a, (p.run m.before).1 = .ok a → m.reply = .ok (C a) →
      CarriedOver m.before.store m.forwards) :
    CarriedOver m.before.store m.forwards := by
  have reply : m.reply = ((node.perform m.call).run m.before).1 := by rw [performed]
  rw [call, Prog.run_map] at reply
  cases result : (p.run m.before).1 with
  | error e =>
    rw [result] at reply
    have none : m.forwards = [] := by rw [Moment.forwards, reply]; rfl
    rw [none]
    exact carriedOver_nil
  | ok a =>
    rw [result] at reply
    exact returned a result reply

theorem Moment.forwards_carry {m : Moment F} (performed : m.Performed node) :
    CarriedOver m.before.store m.forwards := by
  -- The calls that route nothing.
  have silent : ∀ {α : Type} {p : NodeM F α} {C : α → Reply F}, node.perform m.call = C <$> p →
      (∀ a, ({ m with reply := .ok (C a) } : Moment F).forwards = []) →
      CarriedOver m.before.store m.forwards := by
    intro α p C call nothing
    refine m.carries_of_reply performed call fun a _ reply => ?_
    have none : m.forwards = [] := by rw [← nothing a, Moment.forwards, reply, Moment.forwards]
    rw [none]
    exact carriedOver_nil
  cases call : m.call with
  | receiveLocal signal =>
    refine m.carries_of_reply performed (by rw [call]; rfl) fun d done reply => ?_
    rw [Moment.forwards, reply]
    exact receiveLocal_carries done
  | receive signal arrival =>
    refine m.carries_of_reply performed (by rw [call]; rfl) fun d done reply => ?_
    rw [Moment.forwards, reply]
    exact receive_carries done
  | planRelease signal arrival =>
    refine m.carries_of_reply performed (by rw [call]; rfl) fun fs done reply => ?_
    rw [Moment.forwards, reply]
    exact planRelease_carries done
  | emit builder => exact silent (by rw [call]; rfl) fun _ => rfl
  | failForward id => exact silent (by rw [call]; rfl) fun _ => rfl
  | applyReceipt receipt peer => exact silent (by rw [call]; rfl) fun _ => rfl
  | sweepTimeouts limit => exact silent (by rw [call]; rfl) fun _ => rfl
  | normalizeOutboundWeights => exact silent (by rw [call]; rfl) fun _ => rfl
  | penalizeSignatureFailure id => exact silent (by rw [call]; rfl) fun _ => rfl
  | upsertSynapse peer => exact silent (by rw [call]; rfl) fun _ => rfl
  | synapseForPeer peer => exact silent (by rw [call]; rfl) fun _ => rfl
  | pollActivation => exact silent (by rw [call]; rfl) fun _ => rfl
  | checkpoint => exact silent (by rw [call]; rfl) fun _ => rfl

end Routing

section Step

variable {node : Node F} {m : Moment F}

omit [Scalar F] in
theorem saturatingAdd_mono {a b : ℕ} (c : ℕ) (h : a ≤ b) : saturatingAdd a c ≤ saturatingAdd b c :=
  min_le_min_right _ (Nat.add_le_add_right h c)

theorem pruned_kept (change : TableChange node m) (fresh : node.FreshId m)
    (filed : Filed m.before.store) {id : SynapseId} {r : SynapseRecord F}
    (found : m.before.store.getSynapse id = some r) (pruned : r.state = .pruned)
    (early : m.before.clock < node.cooldownEnd r.lastActiveNs) :
    ∃ r', m.after.store.getSynapse id = some r' ∧ r'.peer = r.peer ∧ r'.state = .pruned ∧
      (r'.lastActiveNs = r.lastActiveNs ∨ r'.lastActiveNs = m.before.clock) := by
  obtain ⟨r', after, became⟩ := change.became fresh filed found
  refine ⟨r', after, became.descends.peer, ?_, became.descends.lastActiveNs⟩
  cases became with
  | same => exact pruned
  | reweighed rewritten => exact (Node.Reweigh.keepStanding rewritten).pruned.mpr pruned
  | penalized call =>
    rcases node.penalizedRecord_cases m.before.clock r with ⟨-, -, same⟩ | ⟨-, -, state, kept, same⟩
    · rw [same]
    · rw [same]
      exact kept.mpr pruned
  | reactivated call found dormant =>
    rw [pruned] at dormant
    cases dormant
  | reformed call found _ served => exact absurd early (not_lt.mpr served)

omit [Scalar F] in
theorem PrunedSince.noneCarries {peer : NodeId} {sinceNs : ℕ} {st : MemoryStore F}
    (h : PrunedSince peer sinceNs st) (filed : Filed st) {r : SynapseRecord F}
    (stored : r ∈ st.synapses.values) (carries : r.state.canCarry = true) : r.peer ≠ peer := by
  intro same
  rw [(h.pruned r.id r (filed.find stored) same).1] at carries
  cases carries

theorem staysOut_step (performed : m.Performed node) (fresh : node.FreshId m)
    (filed : Filed m.before.store) {peer : NodeId} {sinceNs : ℕ}
    (before : PrunedSince peer sinceNs m.before.store)
    (dated : ∀ id r, m.before.store.getSynapse id = some r → r.lastActiveNs ≤ m.before.clock)
    (early : m.before.clock < node.cooldownEnd sinceNs) :
    StaysOut node peer sinceNs m := by
  have change := table_change performed filed
  have kept : ∀ id r, m.before.store.getSynapse id = some r → r.peer = peer →
      ∃ r', m.after.store.getSynapse id = some r' ∧ r'.peer = peer ∧ r'.state = .pruned ∧
        r.lastActiveNs ≤ r'.lastActiveNs := by
    intro id r found same
    obtain ⟨pruned, since⟩ := before.pruned id r found same
    have waits : m.before.clock < node.cooldownEnd r.lastActiveNs :=
      lt_of_lt_of_le early (saturatingAdd_mono _ since)
    obtain ⟨r', found', samePeer, pruned', lastActive⟩ :=
      pruned_kept change fresh filed found pruned waits
    refine ⟨r', found', samePeer.trans same, pruned', ?_⟩
    have := dated id r found
    omega
  have after : PrunedSince peer sinceNs m.after.store := by
    constructor
    · obtain ⟨id, r, found, same⟩ := before.known
      obtain ⟨r', found', same', -⟩ := kept id r found same
      exact ⟨id, r', found', same'⟩
    · intro id r' found' same
      rcases change.origin filed found' with ⟨r, found, descends⟩ | ⟨peer', missing, formed⟩
      · have samePeer : r.peer = peer := descends.peer.symm.trans same
        obtain ⟨x, foundX, -, pruned, later⟩ := kept id r found samePeer
        rw [found'] at foundX
        obtain rfl := Option.some.inj foundX
        exact ⟨pruned, (before.pruned id r found samePeer).2.trans later⟩
      · -- The peer was known, so no synapse to it was formed.
        have reached : peer' = peer := by
          rw [← same, formed]
          rfl
        rw [reached] at missing
        obtain ⟨id', r, found, known⟩ := before.known
        exact absurd known (MemoryStore.synapseForPeer_none missing found)
  refine ⟨before, after, ?_, ?_, ?_⟩
  · intro r stored carries
    rcases List.mem_append.mp stored with stored | stored
    · exact before.noneCarries filed stored carries
    · exact after.noneCarries (change.filed filed) stored carries
  · intro f hf same
    obtain ⟨r, stored, carries, reached⟩ := m.forwards_carry performed f hf
    exact before.noneCarries filed stored carries (reached.trans same)
  · intro id r found same
    obtain ⟨r', found', -, -, later⟩ := kept id r found same
    exact ⟨r', found', saturatingAdd_mono _ later⟩

end Step

section Run

variable {node : Node F} {ms : List (Moment F)} {s : NodeState F}

def OnePerPeer (st : MemoryStore F) : Prop :=
  ∀ id id' r r', st.getSynapse id = some r → st.getSynapse id' = some r' → r.peer = r'.peer →
    id = id'

theorem OnePerPeer.step {m : Moment F} (change : TableChange node m) (filed : Filed m.before.store)
    (h : OnePerPeer m.before.store) : OnePerPeer m.after.store := by
  intro id id' r r' found found' same
  have own := change.filed filed id r found
  have own' := change.filed filed id' r' found'
  rcases change.origin filed found with ⟨x, foundX, descends⟩ | ⟨peer, missing, formed⟩
  · rcases change.origin filed found' with ⟨x', foundX', descends'⟩ | ⟨peer', missing', formed'⟩
    · exact h id id' x x' foundX foundX' (by rw [← descends.peer, ← descends'.peer, same])
    · have reached : x.peer = peer' := by
        rw [← descends.peer, same, formed']
        rfl
      exact absurd reached (MemoryStore.synapseForPeer_none missing' foundX)
  · rcases change.origin filed found' with ⟨x', foundX', descends'⟩ | ⟨peer', missing', formed'⟩
    · have reached : x'.peer = peer := by
        rw [← descends'.peer, ← same, formed]
        rfl
      exact absurd reached (MemoryStore.synapseForPeer_none missing foundX')
    · rw [← own, ← own', formed, formed']
      rfl

theorem NodeRun.onePerPeer (run : NodeRun node ms s) : OnePerPeer s.store ∧
    ∀ m ∈ ms, OnePerPeer m.before.store := by
  have both := run.tableInvariant (I := OnePerPeer)
    (fun id id' r r' found => (by cases found)) fun m change filed one => one.step change filed
  exact ⟨both.1.2, fun m hm => (both.2 m hm).2⟩

theorem NodeRun.dated (run : NodeRun node ms s) {t : ℕ} (past : ∀ m ∈ ms, m.before.clock ≤ t) :
    ∀ id r, s.store.getSynapse id = some r → r.lastActiveNs ≤ t := by
  induction run with
  | start =>
    intro id r found
    cases found
  | restart run restarts ih =>
    obtain ⟨rng, clock, faults, rfl⟩ := restarts.built
    exact ih past
  | @call ms s m run resumes performed ih =>
    intro id r' found'
    have filed : Filed m.before.store := by
      rw [resumes.store]
      exact run.filed.1
    have now : m.before.clock ≤ t := past m (by simp)
    rcases (OpenNtl.table_change performed filed).origin filed found' with
      ⟨r, found, descends⟩ | ⟨peer, missing, formed⟩
    · rw [resumes.store] at found
      have earlier := ih (fun m' hm' => past m' (by simp [hm'])) id r found
      have := descends.lastActiveNs
      omega
    · rw [formed]
      exact now

theorem pruned_at {m : Moment F} (performed : m.Performed node) (filed : Filed m.before.store)
    (one : OnePerPeer m.before.store) {peer : NodeId} (prunes : m.Prunes peer) :
    PrunedSince peer m.before.clock m.after.store := by
  obtain ⟨id, r, o, call, found, reached, reply, pruned⟩ := prunes
  cases OpenNtl.table_change performed filed with
  | reweighs other records => exact absurd ⟨call, o, reply⟩ (other id)
  | upserts call' change =>
    rw [call] at call'
    cases call'
  | @penalizes x call' foundX reply' after =>
    have same : id = x.id := by
      rw [call] at call'
      exact Call.penalizeSignatureFailure.inj call'
    have record : x = r := by
      rw [← same, found] at foundX
      exact (Option.some.inj foundX).symm
    subst record
    have outcome : o = node.penalty m.before.clock x := by
      rw [reply] at reply'
      simpa using reply'
    rw [outcome] at pruned
    rcases node.penalizedRecord_cases m.before.clock x with ⟨-, -, written⟩ | ⟨-, spared, -⟩
    · have here := node.penalizedRecord_found after
      refine ⟨⟨x.id, _, here, ?_⟩, ?_⟩
      · rw [written]
        exact reached
      · intro id' y foundY samePeer
        by_cases this_one : id' = x.id
        · rw [this_one, here] at foundY
          rw [← Option.some.inj foundY, written]
          exact ⟨rfl, le_rfl⟩
        · rw [MemoryStore.put_getSynapse_other after (by rwa [node.penalizedRecord_id])] at foundY
          exact absurd (one id' x.id y x foundY foundX (samePeer.trans reached.symm)) this_one
    · rw [spared] at pruned
      cases pruned

/-- In a run whose clock never goes back, a peer that has been pruned stays out until the cooldown
ends. -/
theorem pruned_peer_stays_out (run : NodeRun node ms s)
    (forward : ms.Pairwise fun a b => a.before.clock ≤ b.before.clock)
    (fresh : ∀ m ∈ ms, node.FreshId m) :
    (ms.Pairwise fun x m => ∀ peer, x.Prunes peer →
      m.before.clock < node.cooldownEnd x.before.clock → StaysOut node peer x.before.clock m) ∧
    ∀ x ∈ ms, ∀ peer, x.Prunes peer →
      (∀ m ∈ ms, m.before.clock < node.cooldownEnd x.before.clock) →
        PrunedSince peer x.before.clock s.store := by
  induction run with
  | start => exact ⟨.nil, fun x hx => by cases hx⟩
  | restart run restarts ih =>
    obtain ⟨rng, clock, faults, rfl⟩ := restarts.built
    exact ih forward fresh
  | @call ms s m run resumes performed ih =>
    obtain ⟨forward, -, later⟩ := List.pairwise_append.mp forward
    obtain ⟨out, open'⟩ := ih forward fun m' hm' => fresh m' (by simp [hm'])
    have earlier : ∀ m' ∈ ms, m'.before.clock ≤ m.before.clock := fun m' hm' =>
      later m' hm' m (List.mem_singleton_self m)
    have filed : Filed m.before.store := by
      rw [resumes.store]
      exact run.filed.1
    have stays : ∀ x ∈ ms, ∀ peer, x.Prunes peer →
        m.before.clock < node.cooldownEnd x.before.clock →
          StaysOut node peer x.before.clock m := by
      intro x hx peer prunes early
      have before := open' x hx peer prunes fun m' hm' => lt_of_le_of_lt (earlier m' hm') early
      rw [← resumes.store] at before
      have dated := run.dated earlier
      rw [← resumes.store] at dated
      exact staysOut_step performed (fresh m (by simp)) filed before dated early
    constructor
    · refine List.pairwise_append.mpr ⟨out, List.pairwise_singleton _ _, ?_⟩
      intro x hx m' hm'
      rw [List.mem_singleton.mp hm']
      exact stays x hx
    · intro x hx peer prunes early
      rcases List.mem_append.mp hx with hx | hx
      · exact (stays x hx peer prunes (early m (by simp))).after
      · obtain rfl := List.mem_singleton.mp hx
        refine pruned_at performed filed ?_ prunes
        rw [resumes.store]
        exact run.onePerPeer.1

end Run

def strictNode : Node ℚ :=
  { edgeNode with config := { edgeNode.config with
      learning := { edgeNode.config.learning with signatureFailurePruneThreshold := 1 } } }

def joined (clock : ℕ) : Moment ℚ :=
  strictNode.momentAt (.upsertSynapse neighbour) (strictNode.build .new .maximal clock [])

def joinedId (clock : ℕ) : SynapseId :=
  (strictNode.formedRecord neighbour clock .maximal).id

def forged (clock : ℕ) : Moment ℚ :=
  strictNode.momentAt (.penalizeSignatureFailure (joinedId clock))
    { (joined clock).after with clock := clock, faults := [] }

def rejoined (clock later : ℕ) : Moment ℚ :=
  strictNode.momentAt (.upsertSynapse neighbour)
    { (forged clock).after with clock := later, faults := [] }

theorem rejoins (clock later : ℕ) :
    NodeRun strictNode [joined clock, forged clock, rejoined clock later]
      (rejoined clock later).after := by
  have first : NodeRun strictNode [joined clock] (joined clock).after :=
    (NodeRun.start .maximal clock []).next (.upsertSynapse neighbour) clock []
  have second : NodeRun strictNode [joined clock, forged clock] (forged clock).after :=
    first.next (.penalizeSignatureFailure (joinedId clock)) clock []
  exact second.next (.upsertSynapse neighbour) later []

def reportsPruning : Except NodeError (Reply ℚ) → Bool
  | .ok (.penalty (some o)) => o.pruned
  | _ => false

theorem prunes_of_report {m : Moment ℚ} {id : SynapseId} {peer : NodeId}
    (call : m.call = .penalizeSignatureFailure id)
    (found : (m.before.store.getSynapse id).map SynapseRecord.peer = some peer)
    (reported : reportsPruning m.reply = true) : m.Prunes peer := by
  obtain ⟨r, here, peer⟩ := Option.map_eq_some_iff.mp found
  unfold reportsPruning at reported
  split at reported
  · rename_i o reply
    exact ⟨id, r, o, call, here, peer, reply, reported⟩
  · cases reported

theorem handshake_in_cooldown_refused :
    StaysOut strictNode neighbour 0 (rejoined 0 5) := by
  have out := (pruned_peer_stays_out (rejoins 0 5) (by decide +kernel) (by
    have first : (MemoryStore.new (F := ℚ)).getSynapse (joinedId 0) = none := rfl
    have known : ((rejoined 0 5).before.store.synapseForPeer neighbour).isSome = true := by
      decide +kernel
    intro m hm peer call missing
    simp only [List.mem_cons, List.not_mem_nil, or_false] at hm
    rcases hm with rfl | rfl | rfl
    · obtain rfl : neighbour = peer := Call.upsertSynapse.inj call
      exact first
    · cases call
    · obtain rfl : neighbour = peer := Call.upsertSynapse.inj call
      rw [missing] at known
      cases known)).1
  have pair := (List.pairwise_cons.mp (List.pairwise_cons.mp out).2).1 (rejoined 0 5) (by simp)
  exact pair neighbour (prunes_of_report rfl (by decide +kernel) (by decide +kernel)) (by decide +kernel)

/-- The cooldown ends at a saturating sum: a pruning near the end of the clock is forgiven at the
last reading, before the cooldown has passed. -/
theorem last_reading_ends_cooldown :
    NodeRun strictNode [joined (u64Max - 5), forged (u64Max - 5), rejoined (u64Max - 5) u64Max]
      (rejoined (u64Max - 5) u64Max).after ∧
    (forged (u64Max - 5)).Prunes neighbour ∧
    (forged (u64Max - 5)).before.clock ≤ (rejoined (u64Max - 5) u64Max).before.clock ∧
    (rejoined (u64Max - 5) u64Max).before.clock < (forged (u64Max - 5)).before.clock +
      strictNode.config.learning.signatureFailureCooldownSecs * nanosPerSec ∧
    ∃ r ∈ (rejoined (u64Max - 5) u64Max).after.store.synapses.values,
      r.peer = neighbour ∧ r.state.canCarry = true := by
  refine ⟨rejoins _ _, prunes_of_report rfl (by decide +kernel) (by decide +kernel),
    by decide +kernel, by decide +kernel, ?_⟩
  decide +kernel

end OpenNtl
