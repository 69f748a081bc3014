import OpenNtl.Affinity
import OpenNtl.SqliteStore

/-! # The two names of a signal type

The journal prefixes the name of a custom type. The affinity key does not, so a custom type can
take the key of a built-in one.
-/
namespace OpenNtl

open ExactScalar SqlTable

variable {F : Type}

def MemoryStore.without (m : MemoryStore F) (t : SignalType) : MemoryStore F :=
  { m with journal := m.journal.filter fun e => e.signalType ≠ t }

def SqliteStore.without (q : SqliteStore F) (t : SignalType) : SqliteStore F :=
  { q with journal := q.journal.filter fun r => r.signalType ≠ signalTypeToStr t }

theorem eq_custom_of_signalTypeNameOf_eq {a b : SignalType}
    (same : signalTypeNameOf a = signalTypeNameOf b) :
    a = b ∨ a = .custom (signalTypeNameOf b) ∨ b = .custom (signalTypeNameOf a) := by
  cases a with
  | custom name => exact Or.inr (Or.inl (congrArg _ same))
  | _ =>
    cases b with
    | custom name => exact Or.inr (Or.inr (congrArg _ same.symm))
    | _ => first | exact Or.inl rfl | exact absurd same (by decide)

theorem MemoryStore.recentDecisions_without {a b : SignalType} (other : a ≠ b)
    (m : MemoryStore F) (limit : ℕ) :
    (m.without b).recentDecisions (some a) limit = m.recentDecisions (some a) limit := by
  have listed : (m.without b).journal.filter (fun e => decide (e.signalType = a)) =
      m.journal.filter fun e => decide (e.signalType = a) := by
    unfold without
    rw [List.filter_filter]
    refine List.filter_congr fun e _ => ?_
    by_cases wanted : e.signalType = a
    · simp [wanted, other]
    · simp [wanted]
  unfold recentDecisions
  simp only [Option.all_some, listed]

theorem SqliteStore.recentDecisions_without {a b : SignalType}
    (other : signalTypeToStr a ≠ signalTypeToStr b) (q : SqliteStore F) (limit : ℕ)
    (answer : Except StoreError (List (JournalEntry F))) :
    (q.without b).RecentDecisions (some a) limit answer ↔
      q.RecentDecisions (some a) limit answer := by
  have listed : (q.without b).journal.filter (fun r => decide (r.signalType = signalTypeToStr a)) =
      q.journal.filter fun r => decide (r.signalType = signalTypeToStr a) := by
    unfold without
    rw [List.filter_filter]
    refine List.filter_congr fun r _ => ?_
    by_cases wanted : r.signalType = signalTypeToStr a
    · simp [wanted, other]
    · simp [wanted]
  unfold RecentDecisions SqlTable.Selects
  simp only [Option.all_some, listed]

variable [Scalar F]

namespace Synapse

variable {learning : LearningConfig F}

theorem resolveAll_count_other {t : String} {xs : List (Resolution F)}
    (others : ∀ x ∈ xs, x.signalType ≠ t) (s : Synapse F) :
    (s.resolveAll learning xs).typeAffinity.count t = s.typeAffinity.count t := by
  induction xs generalizing s with
  | nil => rfl
  | cons x xs ih =>
    have first : (s.resolve learning x).typeAffinity.count t = s.typeAffinity.count t := by
      rw [resolve_count, if_neg fun h => others x List.mem_cons_self h.2.symm]
      rfl
    rw [← first]
    exact ih (fun y hy => others y (List.mem_cons_of_mem x hy)) _

end Synapse

/-- What is kept of one type has nothing to do with another. -/
structure KeptApart (F : Type) [Scalar F] (a b : SignalType) : Prop where
  keys : signalTypeNameOf a ≠ signalTypeNameOf b
  encodings : signalTypeToStr a ≠ signalTypeToStr b
  decodes : signalTypeFromStr (signalTypeToStr a) = .ok a
  /-- Outcomes of the other type move no count of this one. -/
  counts : ∀ (learning : LearningConfig F) (s : Synapse F) (xs : List (Resolution F)),
    (∀ x ∈ xs, x.signalType = signalTypeNameOf b) →
    (s.resolveAll learning xs).typeAffinity.count (signalTypeNameOf a) =
      s.typeAffinity.count (signalTypeNameOf a)
  /-- Decisions about the other type are not listed as of this one. -/
  memory : ∀ (m : MemoryStore F) limit,
    (m.without b).recentDecisions (some a) limit = m.recentDecisions (some a) limit
  sqlite : ∀ (q : SqliteStore F) limit answer,
    (q.without b).RecentDecisions (some a) limit answer ↔
      q.RecentDecisions (some a) limit answer

/-- Two types are kept apart unless one is a custom type with the name of the other. -/
theorem kept_apart_iff {a b : SignalType} (other : a ≠ b) :
    KeptApart F a b ↔ a ≠ .custom (signalTypeNameOf b) ∧ b ≠ .custom (signalTypeNameOf a) := by
  constructor
  · intro apart
    constructor
    · rintro same
      apply apart.keys
      rw [same]
      rfl
    · rintro same
      apply apart.keys
      rw [same]
      rfl
  · rintro ⟨left, right⟩
    have keys : signalTypeNameOf a ≠ signalTypeNameOf b := by
      intro same
      rcases eq_custom_of_signalTypeNameOf_eq same with equal | custom | custom
      · exact other equal
      · exact left custom
      · exact right custom
    have encodings : signalTypeToStr a ≠ signalTypeToStr b := fun same =>
      other (signalTypeToStr_inj.mp same)
    refine ⟨keys, encodings, signalTypeFromStr_signalTypeToStr a, ?_, ?_, ?_⟩
    · intro learning s xs ofOther
      refine Synapse.resolveAll_count_other (fun x hx => ?_) s
      rw [ofOther x hx]
      exact keys.symm
    · exact fun m limit => m.recentDecisions_without other limit
    · exact fun q limit answer => q.recentDecisions_without encodings limit answer

theorem query_and_ping_apart : KeptApart ℚ .query (.custom "Ping") :=
  (kept_apart_iff (by decide)).mpr (by decide)

section Sample

def unseen : Synapse ℚ := (Synapse.newWith ⟨[1]⟩ .default 0 .maximal).1

def namesakeDelivered : Resolution ℚ := ⟨.delivered, 1, signalTypeNameOf (.custom "Query"), 0⟩

/-- A custom type named as a built-in one earns affinity for it. -/
theorem namesake_shares_key :
    SignalType.custom "Query" ≠ .query ∧
      signalTypeNameOf (.custom "Query") = signalTypeNameOf .query ∧
      unseen.affinityFor (signalTypeNameOf .query) = 0 ∧
      (unseen.resolveAll (.forClass .edge) [namesakeDelivered]).affinityFor
        (signalTypeNameOf .query) = 1 := by
  decide +kernel

end Sample
end OpenNtl
