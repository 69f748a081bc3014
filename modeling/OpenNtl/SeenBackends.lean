import OpenNtl.CallFrame
import OpenNtl.Receive
import OpenNtl.SqliteStore

/-! # Deduplication is the same on both stores -/
namespace OpenNtl

open AtomicProgram NodeM SqlTable

variable {F : Type}

inductive SeenCall where
  | checkAndSetSeen (id : SignalId) (nowNs ttlSecs : ℕ)
  | hasSeen (id : SignalId) (nowNs : ℕ)
  | purgeExpiredSeen (nowNs : ℕ)
  deriving DecidableEq

inductive SeenReply where
  | seen (before : Bool)
  | removed (count : ℕ)
  deriving DecidableEq

namespace SeenCall

def nowNs : SeenCall → ℕ
  | .checkAndSetSeen _ nowNs _ => nowNs
  | .hasSeen _ nowNs => nowNs
  | .purgeExpiredSeen nowNs => nowNs

def isPurge : SeenCall → Bool
  | .checkAndSetSeen _ _ _ => false
  | .hasSeen _ _ => false
  | .purgeExpiredSeen _ => true

end SeenCall

def MemoryStore.seenCall (s : MemoryStore F) : SeenCall → SeenReply × MemoryStore F
  | .checkAndSetSeen id nowNs ttlSecs =>
    (.seen (s.checkAndSetSeen id nowNs ttlSecs).1, (s.checkAndSetSeen id nowNs ttlSecs).2)
  | .hasSeen id nowNs => (.seen (s.hasSeen id nowNs), s)
  | .purgeExpiredSeen nowNs => (.removed (s.purgeExpiredSeen nowNs).1, (s.purgeExpiredSeen nowNs).2)

def SqliteStore.seenCall (s : SqliteStore F) : SeenCall → SeenReply × SqliteStore F
  | .checkAndSetSeen id nowNs ttlSecs =>
    (.seen (s.checkAndSetSeen id nowNs ttlSecs).1, (s.checkAndSetSeen id nowNs ttlSecs).2)
  | .hasSeen id nowNs => (.seen (s.hasSeen id nowNs), s)
  | .purgeExpiredSeen nowNs => (.removed (s.purgeExpiredSeen nowNs).1, (s.purgeExpiredSeen nowNs).2)

def MemoryStore.seenCalls (s : MemoryStore F) : List SeenCall → List (SeenCall × SeenReply)
  | [] => []
  | c :: cs => (c, (s.seenCall c).1) :: (s.seenCall c).2.seenCalls cs

def SqliteStore.seenCalls (s : SqliteStore F) : List SeenCall → List (SeenCall × SeenReply)
  | [] => []
  | c :: cs => (c, (s.seenCall c).1) :: (s.seenCall c).2.seenCalls cs

/-- The clock never goes back, and stays below the largest signed reading. -/
structure Timely (readings : List ℕ) : Prop where
  forward : readings.Pairwise (· ≤ ·)
  below : ∀ t ∈ readings, t < i64Max

theorem Timely.cons {t : ℕ} {ts : List ℕ} (h : Timely (t :: ts)) :
    (∀ t' ∈ ts, t ≤ t') ∧ Timely ts := by
  obtain ⟨first, forward⟩ := List.pairwise_cons.mp h.forward
  exact ⟨first, forward, fun t' ht => h.below t' (List.mem_cons_of_mem _ ht)⟩

/-- Whether a call and its answer are a claim that found the identifier unseen. -/
def Claims (id : SignalId) (nowNs ttlSecs : ℕ) (c : SeenCall × SeenReply) : Prop :=
  c = (.checkAndSetSeen id nowNs ttlSecs, .seen false)

/-- The rows hold the same expiries, as far as a signed integer goes. -/
def SameSeen (m : MemoryStore F) (q : SqliteStore F) : Prop :=
  HashMap.Related (fun exp exp' => exp' = toI64 exp) m.seen q.seen

theorem toI64_lt {nowNs exp : ℕ} (below : nowNs < i64Max) : toI64 nowNs < toI64 exp ↔ nowNs < exp := by
  unfold toI64
  rw [Int.ofNat_lt]
  omega

section Agreement

variable {m : MemoryStore F} {q : SqliteStore F}

theorem SameSeen.claim (h : SameSeen m q) (id : SignalId) {nowNs : ℕ} (ttlSecs : ℕ)
    (below : nowNs < i64Max) :
    (m.checkAndSetSeen id nowNs ttlSecs).1 = (q.checkAndSetSeen id nowNs ttlSecs).1 ∧
      SameSeen (m.checkAndSetSeen id nowNs ttlSecs).2 (q.checkAndSetSeen id nowNs ttlSecs).2 := by
  have claimed := HashMap.Related.insert h id
    (v := saturatingAdd nowNs (saturatingMul ttlSecs nanosPerSec)) rfl
  have found := HashMap.Related.lookup h id
  unfold MemoryStore.checkAndSetSeen SqliteStore.checkAndSetSeen upsertWhere
  generalize m.seen.lookup id = x, q.seen.lookup id = y at found
  cases found with
  | none => exact ⟨rfl, claimed⟩
  | @some exp exp' same =>
    subst same
    by_cases live : nowNs < exp
    · have kept : ¬ toI64 exp ≤ toI64 nowNs := Int.not_le.mpr ((toI64_lt below).mpr live)
      simp only [live, kept, if_true, decide_false, Bool.false_eq_true, if_false]
      exact ⟨rfl, h⟩
    · have expired : toI64 exp ≤ toI64 nowNs := by
        by_contra no
        exact live ((toI64_lt below).mp (Int.not_le.mp no))
      simp only [live, expired, if_false, decide_true, if_true]
      exact ⟨rfl, claimed⟩

theorem SameSeen.hasSeen (h : SameSeen m q) (id : SignalId) {nowNs : ℕ} (below : nowNs < i64Max) :
    m.hasSeen id nowNs = q.hasSeen id nowNs := by
  have found := HashMap.Related.lookup h id
  unfold MemoryStore.hasSeen SqliteStore.hasSeen
  generalize m.seen.lookup id = x, q.seen.lookup id = y at found
  cases found with
  | none => rfl
  | some same =>
    subst same
    simp only [Option.any_some, toI64_lt below]

theorem SameSeen.purge (h : SameSeen m q) {nowNs : ℕ} (below : nowNs < i64Max) :
    (m.purgeExpiredSeen nowNs).1 = (q.purgeExpiredSeen nowNs).1 ∧
      SameSeen (m.purgeExpiredSeen nowNs).2 (q.purgeExpiredSeen nowNs).2 := by
  have alike : ∀ exp exp' : _, exp' = toI64 exp →
      decide (nowNs < exp) = !decide (exp' ≤ toI64 nowNs) := by
    intro exp exp' same
    subst same
    have : toI64 nowNs < toI64 exp ↔ nowNs < exp := toI64_lt below
    by_cases live : nowNs < exp
    · simp [live, Int.not_le.mpr (this.mpr live)]
    · simp [live, Int.not_lt.mp fun lt => live (this.mp lt)]
  have kept : SameSeen (m.purgeExpiredSeen nowNs).2 (q.purgeExpiredSeen nowNs).2 :=
    HashMap.Related.retain h fun _ exp exp' same => alike exp exp' same
  refine ⟨?_, kept⟩
  have sizes := h.length_eq
  have rest : (m.purgeExpiredSeen nowNs).2.seen.entries.length =
      (q.purgeExpiredSeen nowNs).2.seen.entries.length := kept.length_eq
  have counted : (q.purgeExpiredSeen nowNs).1 + (q.purgeExpiredSeen nowNs).2.seen.entries.length =
      q.seen.entries.length :=
    deleteWhere_length q.seen.entries fun e => decide (e.2 ≤ toI64 nowNs)
  have removed : (m.purgeExpiredSeen nowNs).1 =
      m.seen.entries.length - (m.purgeExpiredSeen nowNs).2.seen.entries.length := rfl
  omega

theorem SameSeen.call (h : SameSeen m q) {c : SeenCall} (below : c.nowNs < i64Max) :
    (m.seenCall c).1 = (q.seenCall c).1 ∧ SameSeen (m.seenCall c).2 (q.seenCall c).2 := by
  cases c with
  | checkAndSetSeen id nowNs ttlSecs =>
    obtain ⟨answer, same⟩ := h.claim id ttlSecs below
    exact ⟨congrArg SeenReply.seen answer, same⟩
  | hasSeen id nowNs => exact ⟨congrArg SeenReply.seen (h.hasSeen id below), h⟩
  | purgeExpiredSeen nowNs =>
    obtain ⟨answer, same⟩ := h.purge below
    exact ⟨congrArg SeenReply.removed answer, same⟩

theorem SameSeen.calls (h : SameSeen m q) {cs : List SeenCall}
    (below : ∀ c ∈ cs, c.nowNs < i64Max) : m.seenCalls cs = q.seenCalls cs := by
  induction cs generalizing m q with
  | nil => rfl
  | cons c cs ih =>
    obtain ⟨answer, same⟩ := h.call (below c List.mem_cons_self)
    unfold MemoryStore.seenCalls SqliteStore.seenCalls
    rw [answer, ih same fun c' hc => below c' (List.mem_cons_of_mem c hc)]

end Agreement

def AlikeFrom (nowNs : ℕ) (s t : MemoryStore F) : Prop :=
  ∀ id later, nowNs ≤ later → s.hasSeen id later = t.hasSeen id later

section Purge

variable {s t : MemoryStore F} {nowNs : ℕ}

theorem purge_alike (s : MemoryStore F) (nowNs : ℕ) :
    AlikeFrom nowNs (s.purgeExpiredSeen nowNs).2 s := by
  intro id later after
  unfold MemoryStore.purgeExpiredSeen MemoryStore.hasSeen
  dsimp only
  rw [HashMap.lookup_retain]
  cases s.seen.lookup id with
  | none => rfl
  | some exp =>
    by_cases live : nowNs < exp
    · simp [Option.filter, live]
    · have expired : ¬ later < exp := by omega
      simp [Option.filter, live, expired]

theorem AlikeFrom.claim (h : AlikeFrom nowNs s t) (id : SignalId) {now : ℕ} (after : nowNs ≤ now)
    (ttlSecs : ℕ) :
    (s.checkAndSetSeen id now ttlSecs).1 = (t.checkAndSetSeen id now ttlSecs).1 ∧
      AlikeFrom now (s.checkAndSetSeen id now ttlSecs).2 (t.checkAndSetSeen id now ttlSecs).2 := by
  have same := h id now after
  rw [MemoryStore.checkAndSetSeen_fst, MemoryStore.checkAndSetSeen_fst]
  refine ⟨same, fun other later hlater => ?_⟩
  cases seen : s.hasSeen id now with
  | true =>
    rw [MemoryStore.checkAndSetSeen_of_seen s id now ttlSecs seen,
      MemoryStore.checkAndSetSeen_of_seen t id now ttlSecs (same ▸ seen)]
    exact h other later (after.trans hlater)
  | false =>
    rw [MemoryStore.checkAndSetSeen_of_unseen s id now ttlSecs seen,
      MemoryStore.checkAndSetSeen_of_unseen t id now ttlSecs (same ▸ seen)]
    by_cases mine : other = id
    · subst mine
      unfold MemoryStore.hasSeen
      rw [AList.lookup_insert, AList.lookup_insert]
    · have kept := h other later (after.trans hlater)
      unfold MemoryStore.hasSeen at kept ⊢
      rwa [AList.lookup_insert_ne mine, AList.lookup_insert_ne mine]

theorem AlikeFrom.calls (h : AlikeFrom nowNs s t) {cs : List SeenCall}
    (forward : (nowNs :: cs.map SeenCall.nowNs).Pairwise (· ≤ ·)) :
    (s.seenCalls cs).filter (fun c => !c.1.isPurge) =
      t.seenCalls (cs.filter fun c => !c.isPurge) := by
  induction cs generalizing s t nowNs with
  | nil => rfl
  | cons c cs ih =>
    rw [List.map_cons] at forward
    obtain ⟨first, rest⟩ := List.pairwise_cons.mp forward
    have first : nowNs ≤ c.nowNs := first _ List.mem_cons_self
    cases c with
    | checkAndSetSeen id now ttlSecs =>
      have after : nowNs ≤ now := first
      obtain ⟨answer, alike⟩ := h.claim id after ttlSecs
      rw [List.filter_cons_of_pos (by rfl), MemoryStore.seenCalls, MemoryStore.seenCalls,
        List.filter_cons_of_pos (by rfl)]
      simp only [MemoryStore.seenCall]
      rw [ih alike rest, answer]
    | hasSeen id now =>
      have after : nowNs ≤ now := first
      have alike : AlikeFrom now s t := fun other later hlater =>
        h other later (after.trans hlater)
      rw [List.filter_cons_of_pos (by rfl), MemoryStore.seenCalls, MemoryStore.seenCalls,
        List.filter_cons_of_pos (by rfl)]
      simp only [MemoryStore.seenCall]
      rw [ih alike rest, h id now after]
    | purgeExpiredSeen now =>
      have after : nowNs ≤ now := first
      have alike : AlikeFrom now (s.purgeExpiredSeen now).2 t := fun other later hlater =>
        (purge_alike s now other later hlater).trans (h other later (after.trans hlater))
      rw [List.filter_cons_of_neg (by simp [SeenCall.isPurge]), MemoryStore.seenCalls,
        List.filter_cons_of_neg (by simp [SeenCall.isPurge])]
      exact ih alike rest

end Purge

def ClaimedUntil (id : SignalId) (untilNs : ℕ) (s : MemoryStore F) : Prop :=
  ∃ exp, s.seen.lookup id = some exp ∧ untilNs ≤ exp

section Claimed

variable {s : MemoryStore F} {id : SignalId} {untilNs : ℕ}

theorem ClaimedUntil.seen (h : ClaimedUntil id untilNs s) {nowNs : ℕ} (early : nowNs < untilNs) :
    s.hasSeen id nowNs = true := by
  obtain ⟨exp, found, late⟩ := h
  unfold MemoryStore.hasSeen
  rw [found]
  simp only [Option.any_some, decide_eq_true_eq]
  omega

theorem ClaimedUntil.claim (h : ClaimedUntil id untilNs s) (inRange : untilNs ≤ u64Max)
    (other : SignalId) (nowNs ttlSecs : ℕ) :
    ClaimedUntil id untilNs (s.checkAndSetSeen other nowNs ttlSecs).2 := by
  cases seen : s.hasSeen other nowNs with
  | true => rwa [MemoryStore.checkAndSetSeen_of_seen s other nowNs ttlSecs seen]
  | false =>
    rw [MemoryStore.checkAndSetSeen_of_unseen s other nowNs ttlSecs seen]
    obtain ⟨exp, found, late⟩ := h
    by_cases mine : id = other
    · subst mine
      refine ⟨_, AList.lookup_insert s.seen, ?_⟩
      have expired : exp ≤ nowNs := by
        simpa [MemoryStore.hasSeen, found] using seen
      unfold saturatingAdd
      omega
    · exact ⟨exp, (AList.lookup_insert_ne mine).trans found, late⟩

theorem ClaimedUntil.purge (h : ClaimedUntil id untilNs s) {nowNs : ℕ} (early : nowNs < untilNs) :
    ClaimedUntil id untilNs (s.purgeExpiredSeen nowNs).2 := by
  obtain ⟨exp, found, late⟩ := h
  refine ⟨exp, ?_, late⟩
  unfold MemoryStore.purgeExpiredSeen
  dsimp only
  rw [HashMap.lookup_retain, found]
  have live : nowNs < exp := by omega
  simp [Option.filter, live]

theorem claimedUntil_of_unseen (s : MemoryStore F) {nowNs : ℕ} (ttlSecs : ℕ)
    (unseen : s.hasSeen id nowNs = false) :
    ClaimedUntil id (saturatingAdd nowNs (saturatingMul ttlSecs nanosPerSec))
      (s.checkAndSetSeen id nowNs ttlSecs).2 := by
  rw [MemoryStore.checkAndSetSeen_of_unseen s id nowNs ttlSecs unseen]
  exact ⟨_, AList.lookup_insert s.seen, Nat.le_refl _⟩

theorem ClaimedUntil.call (h : ClaimedUntil id untilNs s) (inRange : untilNs ≤ u64Max)
    {c : SeenCall} (early : c.nowNs < untilNs) : ClaimedUntil id untilNs (s.seenCall c).2 := by
  cases c with
  | checkAndSetSeen other nowNs ttlSecs => exact h.claim inRange other nowNs ttlSecs
  | hasSeen other nowNs => exact h
  | purgeExpiredSeen nowNs => exact h.purge early

theorem mem_of_seenCalls {s : MemoryStore F} {cs : List SeenCall} {c : SeenCall × SeenReply}
    (here : c ∈ s.seenCalls cs) : c.1 ∈ cs := by
  induction cs generalizing s with
  | nil => cases here
  | cons d ds ih =>
    rcases List.mem_cons.mp here with rfl | here
    · exact List.mem_cons_self
    · exact List.mem_cons_of_mem d (ih here)

theorem ClaimedUntil.calls (h : ClaimedUntil id untilNs s) (inRange : untilNs ≤ u64Max)
    {cs : List SeenCall} (forward : (cs.map SeenCall.nowNs).Pairwise (· ≤ ·))
    {nowNs ttlSecs : ℕ} {c : SeenCall × SeenReply} (here : c ∈ s.seenCalls cs)
    (claims : Claims id nowNs ttlSecs c) : untilNs ≤ nowNs := by
  induction cs generalizing s with
  | nil => cases here
  | cons c' cs ih =>
    obtain ⟨first, rest⟩ := List.pairwise_cons.mp forward
    rcases List.mem_cons.mp here with rfl | here
    · by_contra early
      obtain ⟨rfl, unseen⟩ := Prod.mk.inj claims
      have seen := h.seen (Nat.lt_of_not_le early)
      simp only [MemoryStore.seenCall, MemoryStore.checkAndSetSeen_fst, seen] at unseen
      cases unseen
    · by_cases early : c'.nowNs < untilNs
      · exact ih (h.call inRange early) rest here
      · have timed := first _ (List.mem_map_of_mem (mem_of_seenCalls here))
        rw [claims] at timed
        change c'.nowNs ≤ nowNs at timed
        omega

theorem le_of_saturated {nowNs ttlSecs later : ℕ}
    (h : saturatingAdd nowNs (saturatingMul ttlSecs nanosPerSec) ≤ later) (below : later < i64Max) :
    nowNs + ttlSecs * nanosPerSec ≤ later := by
  have small : i64Max < u64Max := by decide
  unfold saturatingAdd saturatingMul at h
  omega

theorem seenCalls_apart (s : MemoryStore F) {cs : List SeenCall}
    (timely : Timely (cs.map SeenCall.nowNs)) :
    (s.seenCalls cs).Pairwise fun a b => ∀ id nowNs ttlSecs later ttlSecs',
      Claims id nowNs ttlSecs a → Claims id later ttlSecs' b →
        nowNs + ttlSecs * nanosPerSec ≤ later := by
  induction cs generalizing s with
  | nil => exact .nil
  | cons c cs ih =>
    obtain ⟨-, rest⟩ := timely.cons
    refine .cons (fun b hb id nowNs ttlSecs later ttlSecs' first second => ?_) (ih _ rest)
    obtain ⟨rfl, unseen⟩ := Prod.mk.inj first
    simp only [MemoryStore.seenCall, MemoryStore.checkAndSetSeen_fst, SeenReply.seen.injEq]
      at unseen
    have claimed := claimedUntil_of_unseen s ttlSecs unseen
    have reached := claimed.calls (saturatingAdd_le _ _) rest.forward hb second
    refine le_of_saturated reached (rest.below later ?_)
    have listed := List.mem_map_of_mem (f := SeenCall.nowNs) (mem_of_seenCalls hb)
    rw [second] at listed
    exact listed

end Claimed

/-- The call is an arrival of this signal that deduplication lets through. -/
def Moment.Processes (id : SignalId) (m : Moment F) : Prop :=
  ∃ signal arrival, m.call = .receive signal arrival ∧ signal.id = id ∧
    nextFault m.before = none ∧ ¬ HasLiveClaim m.before id

section Arrivals

variable [Scalar F] {node : Node F} {id : SignalId} {untilNs : ℕ}

omit [Scalar F] in
theorem claimedUntil_of_seen {st st' : MemoryStore F} (same : st'.seen = st.seen)
    (h : ClaimedUntil id untilNs st) : ClaimedUntil id untilNs st' := by
  unfold ClaimedUntil
  rw [same]
  exact h

omit [Scalar F] in
theorem claimedUntil_across (inRange : untilNs ≤ u64Max) :
    HoldsAcrossWrites (F := F) fun st st' =>
      ClaimedUntil id untilNs st → ClaimedUntil id untilNs st' where
  same := fun _ h => h
  claims := fun _ other nowNs ttlSecs h => h.claim inRange other nowNs ttlSecs
  plans := fun appends => claimedUntil_of_seen appends.seen
  resolves := fun st id' outcome nowNs => claimedUntil_of_seen (by
    unfold MemoryStore.resolveDecision
    split
    · rfl
    · split <;> rfl)
  reweighs := fun reweighs => claimedUntil_of_seen reweighs.seen
  peers := fun _ _ => claimedUntil_of_seen rfl

theorem perform_claimed {m : Moment F} (performed : m.Performed node) (inRange : untilNs ≤ u64Max)
    (early : m.before.clock < untilNs) (h : ClaimedUntil id untilNs m.before.store) :
    ClaimedUntil id untilNs m.after.store := by
  rw [moment_after performed]
  have keeps : ∀ {α : Type} {p : NodeM F α}, p.Within (StoreWithin fun st st' =>
      ClaimedUntil id untilNs st → ClaimedUntil id untilNs st') →
      ClaimedUntil id untilNs (p.run m.before).2.store := fun within =>
    within.run (fun _ h => h) (fun hst htu h => htu (hst h)) m.before h
  by_cases checkpoint : m.call = .checkpoint
  · have across : HoldsAcrossLearning (F := F) fun st st' =>
        ClaimedUntil id untilNs st → ClaimedUntil id untilNs st' :=
      (claimedUntil_across inRange).toHoldsAcrossLearning
    have begin : ((node.perform m.call).run m.before).2 =
        (((withGate fun gate => (gate.snapshot m.before.clock, gate)) >>= fun snapshot =>
          (writeStore fun st => st.saveActivation snapshot) >>= fun _ =>
          (callStore fun st => st.purgeExpiredSeen m.before.clock) >>= fun _ =>
          (writeStore fun st => st) : NodeM F Unit).run m.before).2 := by
      rw [checkpoint]
      simp only [Node.perform, Prog.run_map]
      rfl
    rw [begin]
    refine keeps ((Prog.Within.of_act fun s h => h).bind fun snapshot => ?_)
    refine (Node.callStore_storeWithin across.outcomes fun st h => h).bind fun _ => ?_
    refine (Node.callStore_storeWithin across.outcomes fun st h => h.purge early).bind fun _ => ?_
    exact Node.callStore_storeWithin across.outcomes fun st h => h
  · exact keeps (node.perform_storeWithin (claimedUntil_across inRange) m.call checkpoint)

theorem processes_claims {m : Moment F} (performed : m.Performed node) (here : m.Processes id) :
    ClaimedUntil id (saturatingAdd m.before.clock
      (saturatingMul node.config.propagation.dedupCacheSeconds nanosPerSec)) m.after.store := by
  obtain ⟨signal, arrival, call, rfl, fault, fresh⟩ := here
  have claimed : ClaimedUntil signal.id (saturatingAdd m.before.clock
      (saturatingMul node.config.propagation.dedupCacheSeconds nanosPerSec))
      (node.claimed signal m.before) :=
    claimedUntil_of_unseen m.before.store _ (Bool.not_eq_true _ ▸ fresh)
  obtain ⟨after, -⟩ := perform_receive performed call
  rw [← after]
  have planned : ∀ {t u : NodeState F} {r : Except NodeError (List Forward)},
      (node.planForwarding signal arrival m.before.clock).run t = (r, u) →
        t.store = node.claimed signal m.before →
          u.store.seen = (node.claimed signal m.before).seen := by
    intro t u r plan same
    have frame := (node.planForwarding_run signal arrival m.before.clock t).store.seen
    rwa [plan, same] at frame
  rcases node.receive_cases signal arrival m.before with
    ⟨f, failed, -⟩ | ⟨-, live, -⟩ | ⟨-, -, reason, refused⟩ | ⟨-, -, weight, faults, disposal⟩
  · rw [fault] at failed
    cases failed
  · exact absurd live fresh
  · rw [refused]
    exact claimed
  · generalize (node.receive signal arrival).run m.before = r at disposal ⊢
    cases disposal with
    | shed itself reason => exact claimed
    | held other stays evicted same => exact claimed
    | unplanned other fired plan =>
      exact claimedUntil_of_seen (planned plan rfl) claimed
    | routeless other fired plan owed evicted same =>
      exact claimedUntil_of_seen (planned plan rfl) claimed
    | released other fired plan routed evicted same =>
      exact claimedUntil_of_seen (planned plan rfl) claimed

theorem run_claimed {ms : List (Moment F)} {s : NodeState F} (run : NodeRun node ms s) :
    ∀ m ∈ ms, ∀ id, m.Processes id →
      (∀ m' ∈ ms, m'.before.clock < saturatingAdd m.before.clock
        (saturatingMul node.config.propagation.dedupCacheSeconds nanosPerSec)) →
      ClaimedUntil id (saturatingAdd m.before.clock
        (saturatingMul node.config.propagation.dedupCacheSeconds nanosPerSec)) s.store := by
  induction run with
  | start => exact fun m hm => (by cases hm)
  | restart _ restarts ih =>
    obtain ⟨rng, clock, faults, rfl⟩ := restarts.built
    exact ih
  | @call ms s m run resumes performed ih =>
    intro m' hm' id first all
    rcases List.mem_append.mp hm' with old | new
    · have held := ih m' old id first fun m'' hm'' => all m'' (List.mem_append_left _ hm'')
      rw [← resumes.store] at held
      exact perform_claimed performed (saturatingAdd_le _ _) (all m (by simp)) held
    · rw [List.mem_singleton.mp new] at first ⊢
      exact processes_claims performed first

theorem run_processes_apart {ms : List (Moment F)} {s : NodeState F} (run : NodeRun node ms s)
    (timely : Timely (ms.map fun m => m.before.clock)) :
    ms.Pairwise fun m m' => ∀ id, m.Processes id → m'.Processes id →
      m.before.clock + node.config.propagation.dedupCacheSeconds * nanosPerSec ≤
        m'.before.clock := by
  induction run with
  | start => exact .nil
  | restart _ _ ih => exact ih timely
  | @call ms s m run resumes performed ih =>
    rw [List.map_append] at timely
    obtain ⟨before, -, across⟩ := List.pairwise_append.mp timely.forward
    have below : m.before.clock < i64Max := timely.below _ (by simp)
    have earlier : ∀ m' ∈ ms, m'.before.clock ≤ m.before.clock := fun m' hm' =>
      across _ (List.mem_map_of_mem hm') _ (by simp)
    have apart := ih ⟨before, fun t ht => timely.below t (List.mem_append_left _ ht)⟩
    refine List.pairwise_append.mpr ⟨apart, List.pairwise_singleton _ _,
      fun m' hm' x hx id first second => ?_⟩
    rw [List.mem_singleton.mp hx] at second ⊢
    refine le_of_saturated (Nat.le_of_not_lt fun early => ?_) below
    have held := run_claimed run m' hm' id first fun m'' hm'' =>
      Nat.lt_of_le_of_lt (earlier m'' hm'') early
    obtain ⟨signal, arrival, -, -, -, fresh⟩ := second
    refine fresh ?_
    unfold HasLiveClaim
    rw [resumes.store]
    exact held.seen early

/-- Both stores give the same answers, purging changes none of the others, claims that find an
identifier unseen are a lifetime apart, and so are the arrivals a node processes. -/
theorem deduplication_agrees (node : Node F) :
    (∀ cs : List SeenCall, Timely (cs.map SeenCall.nowNs) →
      (MemoryStore.new : MemoryStore F).seenCalls cs =
        (SqliteStore.new : SqliteStore F).seenCalls cs ∧
      ((MemoryStore.new : MemoryStore F).seenCalls cs).filter (fun c => !c.1.isPurge) =
        (MemoryStore.new : MemoryStore F).seenCalls (cs.filter fun c => !c.isPurge) ∧
      ((MemoryStore.new : MemoryStore F).seenCalls cs).Pairwise fun a b =>
        ∀ id nowNs ttlSecs later ttlSecs', Claims id nowNs ttlSecs a → Claims id later ttlSecs' b →
          nowNs + ttlSecs * nanosPerSec ≤ later) ∧
    ∀ (ms : List (Moment F)) (s : NodeState F), NodeRun node ms s →
      Timely (ms.map fun m => m.before.clock) →
      ms.Pairwise fun m m' => ∀ id, m.Processes id → m'.Processes id →
        m.before.clock + node.config.propagation.dedupCacheSeconds * nanosPerSec ≤
          m'.before.clock := by
  refine ⟨fun cs timely => ⟨?_, ?_, seenCalls_apart _ timely⟩,
    fun ms s run timely => run_processes_apart run timely⟩
  · have start : SameSeen (MemoryStore.new : MemoryStore F) (SqliteStore.new : SqliteStore F) := .nil
    exact start.calls fun c hc => timely.below _ (List.mem_map_of_mem hc)
  · have start : AlikeFrom 0 (MemoryStore.new : MemoryStore F) .new := fun _ _ _ => rfl
    refine start.calls (List.pairwise_cons.mpr ⟨fun t _ => Nat.zero_le t, timely.forward⟩)

end Arrivals

section Sample

/-- A claim, a purge before it expires, and the same claim at its expiry. -/
def claimedTwice : List SeenCall :=
  [.checkAndSetSeen ⟨7⟩ 0 1, .purgeExpiredSeen 500000000, .hasSeen ⟨7⟩ 999999999,
    .checkAndSetSeen ⟨7⟩ 1000000000 1]

example : (SqliteStore.new : SqliteStore ℚ).seenCalls claimedTwice =
    claimedTwice.zip [.seen false, .removed 0, .seen true, .seen false] := by decide +kernel

theorem claimed_twice_agrees :
    (MemoryStore.new : MemoryStore ℚ).seenCalls claimedTwice =
      (SqliteStore.new : SqliteStore ℚ).seenCalls claimedTwice ∧
    [connected, planned].Pairwise fun m m' => ∀ id, m.Processes id → m'.Processes id →
      m.before.clock + edgeNode.config.propagation.dedupCacheSeconds * nanosPerSec ≤
        m'.before.clock :=
  ⟨((deduplication_agrees edgeNode).1 claimedTwice ⟨by decide, by decide⟩).1,
    (deduplication_agrees edgeNode).2 _ _ decided ⟨by decide +kernel, by decide +kernel⟩⟩

end Sample
end OpenNtl
