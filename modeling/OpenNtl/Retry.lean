import OpenNtl.Config
import OpenNtl.SeenBackends

/-! # When retries are sent

The deadline is checked when a failure is observed, and the backoff is waited out after that. So a
retry can be sent later than the deadline, by as much as the backoff.
-/
namespace OpenNtl

/-- The retry policy, with the fields that the sender reads. -/
structure RetrySchedule extends RetryPolicy where
  baseMs : ℕ
  capMs : ℕ
  maxAttempts : ℕ

/-- A failed attempt, as the sender learns of it. -/
structure FailedAttempt where
  atNs : ℕ
  lastReason : Option RejectReason

/-- Transient failures, one after the other. -/
structure TransientFailures (startNs : ℕ) (failures : List FailedAttempt) : Prop where
  forward : (startNs :: failures.map FailedAttempt.atNs).Pairwise (· ≤ ·)
  reasons : ∀ f ∈ failures, ∀ reason ∈ f.lastReason, reason.isTransient = true

theorem TransientFailures.tail {startNs : ℕ} {f : FailedAttempt} {rest : List FailedAttempt}
    (h : TransientFailures startNs (f :: rest)) : TransientFailures startNs rest := by
  refine ⟨h.forward.sublist ?_, fun f' hf' => h.reasons f' (List.mem_cons_of_mem _ hf')⟩
  exact List.Sublist.cons_cons _ (List.sublist_cons_self _ _)

theorem TransientFailures.le {startNs : ℕ} {f f' : FailedAttempt} {rest : List FailedAttempt}
    (h : TransientFailures startNs (f :: rest)) (later : f' ∈ f :: rest) : f.atNs ≤ f'.atNs := by
  have forward := (List.pairwise_cons.mp (List.pairwise_cons.mp h.forward).2).1
  rcases List.mem_cons.mp later with rfl | later
  · exact le_rfl
  · exact forward _ (List.mem_map_of_mem later)

def nanosPerMilli : ℕ := 1000000

namespace RetrySchedule

variable (p : RetrySchedule)

def default : RetrySchedule where
  totalDeadlineSecs := 300
  baseMs := 1000
  capMs := 30000
  maxAttempts := 5

def ceilingMs (attempt : ℕ) : ℕ :=
  max (min (saturatingMul p.baseMs (1 <<< min (attempt - 2) 31)) p.capMs) 1

/-- Backoff before `attempt`, with full jitter. The first attempt has no delay. -/
def backoffMs (attempt : ℕ) (rng : Rng) : ℕ × Rng :=
  if attempt ≤ 1 then (0, rng)
  else ((rng.nextBelow (p.ceilingMs attempt)).1.getD 0, (rng.nextBelow (p.ceilingMs attempt)).2)

def shouldRetry (attemptsMade elapsedSecs : ℕ) (lastReason : Option RejectReason) : Bool :=
  if lastReason.any fun reason => !reason.isTransient then false
  else decide (attemptsMade < p.maxAttempts ∧ elapsedSecs < p.totalDeadlineSecs)

/-- When the sender retries, after `made` attempts of which the first was at `startNs`: on each
failure it asks whether it may, and then waits. -/
def retriesAfter (startNs made : ℕ) (rng : Rng) : List FailedAttempt → List ℕ
  | [] => []
  | f :: rest =>
    if p.shouldRetry made ((f.atNs - startNs) / nanosPerSec) f.lastReason then
      (f.atNs + (p.backoffMs (made + 1) rng).1 * nanosPerMilli) ::
        retriesAfter startNs (made + 1) (p.backoffMs (made + 1) rng).2 rest
    else []

def attempts (startNs : ℕ) (rng : Rng) (failures : List FailedAttempt) : List ℕ :=
  startNs :: p.retriesAfter startNs 1 rng failures

def deadlineNs (startNs : ℕ) : ℕ := startNs + p.totalDeadlineSecs * nanosPerSec

/-- The longest backoff after the failures that permit a retry ends before the deadline. -/
def Fits (startNs : ℕ) (failures : List FailedAttempt) : Prop :=
  ∀ k f, failures[k]? = some f → k + 1 < p.maxAttempts →
    (f.atNs - startNs) / nanosPerSec < p.totalDeadlineSecs →
    f.atNs + (p.ceilingMs (k + 2) - 1) * nanosPerMilli < p.deadlineNs startNs

end RetrySchedule

/-- Every attempt is within the deadline and the budget, and is recognised by a node that let the
first one through. The last reading of a `u64` clock is before no expiry. -/
structure RetriesCovered {F : Type} [Scalar F] (p : RetrySchedule) (settings : NodeSettings F)
    (startNs : ℕ) (sent : List ℕ) : Prop where
  inTime : ∀ t ∈ sent, t < p.deadlineNs startNs
  bounded : sent.length ≤ p.maxAttempts
  remembered : ∀ t ∈ sent, t < u64Max →
    ∀ (identity : NodeId) (ms : List (Moment F)) (s : NodeState F),
      NodeRun ⟨identity, settings.toNodeConfig⟩ ms s → (∀ m ∈ ms, m.before.clock ≤ t) →
      ∀ m ∈ ms, ∀ id, m.Processes id → startNs ≤ m.before.clock → s.store.hasSeen id t = true

namespace RetrySchedule

variable {p : RetrySchedule} {startNs : ℕ}

theorem ceilingMs_pos (attempt : ℕ) : 0 < p.ceilingMs attempt :=
  Nat.lt_of_lt_of_le Nat.zero_lt_one (le_max_right _ _)

theorem ceilingMs_lt (attempt : ℕ) : p.ceilingMs attempt < 2 ^ 64 := by
  have product : saturatingMul p.baseMs (1 <<< min (attempt - 2) 31) ≤ u64Max := min_le_right _ _
  have small : u64Max < 2 ^ 64 := by decide
  unfold ceilingMs
  omega

theorem backoffMs_lt {made : ℕ} (later : 1 ≤ made) (rng : Rng) :
    (p.backoffMs (made + 1) rng).1 < p.ceilingMs (made + 1) := by
  unfold backoffMs
  rw [if_neg (by omega)]
  dsimp only
  rcases drawn : rng.nextBelow (p.ceilingMs (made + 1)) with ⟨_ | x, rng'⟩
  · exact ceilingMs_pos _
  · exact Rng.nextBelow_lt drawn

end RetrySchedule

namespace Rng

theorem nextBelow_maximal {n : ℕ} (pos : 0 < n) (small : n < 2 ^ 64) :
    maximal.nextBelow n = (some (n - 1), maximal) := by
  have accepted : AcceptsDraw n (2 ^ 64 - 1) := by
    obtain ⟨i, accepts⟩ := maximal.accepting n pos small 0
    exact accepts
  have first : Nat.find (maximal.accepting n pos small 0) = 0 :=
    (Nat.find_eq_zero _).mpr accepted
  have high : (2 ^ 64 - 1) * n / 2 ^ 64 = n - 1 := by omega
  unfold nextBelow
  rw [dif_pos ⟨pos, small⟩]
  dsimp only
  rw [first]
  exact congrArg (fun x => (some x, maximal)) high

end Rng

namespace RetrySchedule

variable {p : RetrySchedule} {startNs : ℕ}

theorem backoffMs_maximal {made : ℕ} (later : 1 ≤ made) :
    p.backoffMs (made + 1) .maximal = (p.ceilingMs (made + 1) - 1, .maximal) := by
  unfold backoffMs
  rw [if_neg (by omega), Rng.nextBelow_maximal (ceilingMs_pos _) (ceilingMs_lt _)]
  rfl

theorem shouldRetry_iff {made elapsed : ℕ} {reason : Option RejectReason}
    (transient : ∀ r ∈ reason, r.isTransient = true) :
    p.shouldRetry made elapsed reason = true ↔
      made < p.maxAttempts ∧ elapsed < p.totalDeadlineSecs := by
  have recoverable : ¬ reason.any (fun r => !r.isTransient) = true := by
    cases reason with
    | none => exact Bool.false_ne_true
    | some r => simp [transient r rfl]
  unfold shouldRetry
  rw [if_neg recoverable]
  exact decide_eq_true_iff

theorem retriesAfter_length (made : ℕ) (rng : Rng) (failures : List FailedAttempt) :
    (p.retriesAfter startNs made rng failures).length ≤ p.maxAttempts - made := by
  induction failures generalizing made rng with
  | nil => exact Nat.zero_le _
  | cons f rest ih =>
    unfold retriesAfter
    split
    · rename_i permitted
      have budget : made < p.maxAttempts := by
        unfold shouldRetry at permitted
        split at permitted
        · cases permitted
        · exact (of_decide_eq_true permitted).1
      have later := ih (made + 1) (p.backoffMs (made + 1) rng).2
      rw [List.length_cons]
      omega
    · exact Nat.zero_le _

/-- Every retry follows a permitted failure by less than the ceiling of its backoff. -/
theorem mem_retriesAfter {made : ℕ} (later : 1 ≤ made) {rng : Rng} {failures : List FailedAttempt}
    (transient : ∀ f ∈ failures, ∀ reason ∈ f.lastReason, reason.isTransient = true) {t : ℕ}
    (sent : t ∈ p.retriesAfter startNs made rng failures) :
    ∃ k f, failures[k]? = some f ∧ made + k < p.maxAttempts ∧
      (f.atNs - startNs) / nanosPerSec < p.totalDeadlineSecs ∧
      t ≤ f.atNs + (p.ceilingMs (made + k + 1) - 1) * nanosPerMilli := by
  induction failures generalizing made rng with
  | nil => cases sent
  | cons f rest ih =>
    unfold retriesAfter at sent
    split at sent
    · rename_i permitted
      obtain ⟨budget, elapsed⟩ := (shouldRetry_iff (transient f (by simp))).mp permitted
      rcases List.mem_cons.mp sent with rfl | sent
      · have draw := backoffMs_lt later rng (p := p)
        refine ⟨0, f, rfl, budget, elapsed, ?_⟩
        rw [Nat.add_zero]
        exact Nat.add_le_add_left (Nat.mul_le_mul_right _ (by omega)) _
      · obtain ⟨k, f', found, budget', elapsed', bound⟩ :=
          ih (by omega) (fun f' hf' => transient f' (by simp [hf'])) sent
        refine ⟨k + 1, f', found, by omega, elapsed', ?_⟩
        rw [show made + (k + 1) + 1 = made + 1 + k + 1 by omega]
        exact bound
    · cases sent

theorem maximal_mem_retriesAfter {made : ℕ} (later : 1 ≤ made) {failures : List FailedAttempt}
    (transient : TransientFailures startNs failures) {k : ℕ} {f : FailedAttempt}
    (found : failures[k]? = some f) (budget : made + k < p.maxAttempts)
    (elapsed : (f.atNs - startNs) / nanosPerSec < p.totalDeadlineSecs) :
    f.atNs + (p.ceilingMs (made + k + 1) - 1) * nanosPerMilli ∈
      p.retriesAfter startNs made .maximal failures := by
  induction failures generalizing made k with
  | nil => cases found
  | cons g rest ih =>
    -- An earlier failure permits a retry if a later one does.
    have permitted : p.shouldRetry made ((g.atNs - startNs) / nanosPerSec) g.lastReason = true := by
      rw [shouldRetry_iff (transient.reasons g List.mem_cons_self)]
      have before := transient.le (List.mem_of_getElem? found)
      refine ⟨by omega, Nat.lt_of_le_of_lt (Nat.div_le_div_right ?_) elapsed⟩
      omega
    unfold retriesAfter
    rw [if_pos permitted, backoffMs_maximal later]
    cases k with
    | zero =>
      obtain rfl : g = f := by simpa using found
      exact List.mem_cons_self
    | succ k =>
      refine List.mem_cons_of_mem _ ?_
      rw [show made + (k + 1) + 1 = made + 1 + k + 1 by omega]
      exact ih (by omega) transient.tail found (by omega)

end RetrySchedule

theorem dedup_covers {F : Type} [Scalar F] {settings : NodeSettings F}
    {supportedModules : List String} (valid : settings.validate supportedModules = .ok ()) :
    settings.retry.totalDeadlineSecs ≤ settings.propagation.dedupCacheSeconds := by
  have checked := ((settings.validate_iff supportedModules).mp valid).propagation
  unfold PropagationConfig.validate at checked
  split_ifs at checked with fanout ttl floor factor short
  exact not_lt.mp short

theorem remembered_in_time {F : Type} [Scalar F] {p : RetrySchedule} {settings : NodeSettings F}
    {supportedModules : List String} (valid : settings.validate supportedModules = .ok ())
    (own : settings.retry = p.toRetryPolicy) {startNs t : ℕ} (early : t < p.deadlineNs startNs)
    (last : t < u64Max) {identity : NodeId} {ms : List (Moment F)} {s : NodeState F}
    (run : NodeRun ⟨identity, settings.toNodeConfig⟩ ms s) (past : ∀ m ∈ ms, m.before.clock ≤ t)
    {m : Moment F} (hm : m ∈ ms) {id : SignalId} (first : m.Processes id)
    (after : startNs ≤ m.before.clock) : s.store.hasSeen id t = true := by
  have covers := dedup_covers valid
  rw [own] at covers
  have window : p.totalDeadlineSecs * nanosPerSec ≤
      settings.propagation.dedupCacheSeconds * nanosPerSec := Nat.mul_le_mul_right _ covers
  have live : t < saturatingAdd m.before.clock
      (saturatingMul settings.propagation.dedupCacheSeconds nanosPerSec) := by
    unfold RetrySchedule.deadlineNs at early
    unfold saturatingAdd saturatingMul
    omega
  have claimed := run_claimed run m hm id first fun m' hm' => Nat.lt_of_le_of_lt (past m' hm') live
  exact claimed.seen live

/-- Whatever the draws, all attempts are covered exactly when the policy has a deadline and an
attempt to spend, and the longest backoff fits wherever a retry is permitted. -/
theorem retries_covered_iff {F : Type} [Scalar F] {p : RetrySchedule} {settings : NodeSettings F}
    {supportedModules : List String} (valid : settings.validate supportedModules = .ok ())
    (own : settings.retry = p.toRetryPolicy) {startNs : ℕ} {failures : List FailedAttempt}
    (transient : TransientFailures startNs failures) :
    (∀ rng, RetriesCovered p settings startNs (p.attempts startNs rng failures)) ↔
      0 < p.totalDeadlineSecs ∧ 0 < p.maxAttempts ∧ p.Fits startNs failures := by
  constructor
  · intro covered
    have all := covered .maximal
    refine ⟨?_, ?_, ?_⟩
    · have first := all.inTime startNs List.mem_cons_self
      unfold RetrySchedule.deadlineNs at first
      by_contra none
      have zero : p.totalDeadlineSecs = 0 := by omega
      rw [zero] at first
      omega
    · have some' := all.bounded
      unfold RetrySchedule.attempts at some'
      rw [List.length_cons] at some'
      omega
    · intro k f found budget elapsed
      refine all.inTime _ (List.mem_cons_of_mem _ ?_)
      have sent := RetrySchedule.maximal_mem_retriesAfter (p := p) (Nat.le_refl 1) transient found
        (by omega) elapsed
      rw [show 1 + k + 1 = k + 2 by omega] at sent
      exact sent
  · rintro ⟨deadline, budget, fits⟩ rng
    have inTime : ∀ t ∈ p.attempts startNs rng failures, t < p.deadlineNs startNs := by
      intro t sent
      rcases List.mem_cons.mp sent with rfl | retried
      · unfold RetrySchedule.deadlineNs
        have := Nat.mul_pos deadline (show 0 < nanosPerSec by decide)
        omega
      · obtain ⟨k, f, found, left, elapsed, bound⟩ :=
          RetrySchedule.mem_retriesAfter (Nat.le_refl 1) transient.reasons retried
        rw [show 1 + k + 1 = k + 2 by omega] at bound
        exact Nat.lt_of_le_of_lt bound (fits k f found (by omega) elapsed)
    refine ⟨inTime, ?_, fun t sent last identity ms s run past m hm id first after =>
      remembered_in_time valid own (inTime t sent) last run past hm first after⟩
    have length : (p.retriesAfter startNs 1 rng failures).length ≤ p.maxAttempts - 1 :=
      RetrySchedule.retriesAfter_length 1 rng failures
    unfold RetrySchedule.attempts
    rw [List.length_cons]
    omega

/-- The first attempt at zero, and a failure a millisecond before the deadline. -/
def lastMoment : List FailedAttempt := [⟨299999000000, none⟩]

theorem lastMoment_transient : TransientFailures 0 lastMoment := by
  refine ⟨by decide, fun f hf reason hr => ?_⟩
  rw [List.mem_singleton.mp hf] at hr
  cases hr

/-- The default policy permits a retry, and sends it almost a second after the deadline. -/
theorem retry_after_deadline :
    (NodeSettings.forClass (F := ℚ) .edge).validate ["classical-v1"] = .ok () ∧
    (NodeSettings.forClass (F := ℚ) .edge).retry = RetrySchedule.default.toRetryPolicy ∧
    RetrySchedule.default.attempts 0 .maximal lastMoment = [0, 300998000000] ∧
    RetrySchedule.default.deadlineNs 0 = 300000000000 ∧
    ¬ ∀ (settings : NodeSettings ℚ) (p : RetrySchedule) (startNs : ℕ)
      (failures : List FailedAttempt) (rng : Rng), settings.validate ["classical-v1"] = .ok () →
      settings.retry = p.toRetryPolicy → TransientFailures startNs failures →
      RetriesCovered p settings startNs (p.attempts startNs rng failures) := by
  have sent : RetrySchedule.default.attempts 0 .maximal lastMoment = [0, 300998000000] := by
    unfold RetrySchedule.attempts lastMoment RetrySchedule.retriesAfter
    rw [if_pos (by decide), RetrySchedule.backoffMs_maximal (Nat.le_refl 1)]
    rfl
  refine ⟨NodeSettings.validate_forClass .edge, rfl, sent, rfl, fun always => ?_⟩
  have covered := always (.forClass .edge) .default 0 lastMoment .maximal
    (NodeSettings.validate_forClass .edge) rfl lastMoment_transient
  rw [sent] at covered
  exact absurd (covered.inTime 300998000000 (by decide)) (by decide)

theorem early_retry_covered :
    RetriesCovered .default (NodeSettings.forClass (F := ℚ) .edge) 0
      (RetrySchedule.default.attempts 0 .maximal [⟨1000000000, some .queueFull⟩]) := by
  refine (retries_covered_iff (p := .default) (NodeSettings.validate_forClass .edge) rfl
    ⟨by decide, ?_⟩).mpr ⟨by decide, by decide, ?_⟩ .maximal
  · intro f hf reason hr
    rw [List.mem_singleton.mp hf] at hr
    rw [← Option.some.inj hr]
    rfl
  · intro k f found budget elapsed
    cases k with
    | zero =>
      obtain rfl := Option.some.inj found
      decide
    | succ k => cases found

end OpenNtl
