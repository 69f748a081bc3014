import Mathlib.Algebra.Order.BigOperators.Group.List
import Mathlib.Algebra.Order.Group.Nat

/-! # A budget over a sliding window

Amounts are spent as time goes on. If each fits under the cap together with what was spent in the
window that ends with it, then no window of that width sees more than the cap.
-/
namespace SlidingBudget

structure Spending (α : Type*) where
  time : ℕ
  amount : α

variable {α : Type*} [AddCommMonoid α]

def spentSince (start : ℕ) (log : List (Spending α)) : α :=
  ((log.filter fun x => start ≤ x.time).map Spending.amount).sum

def spentWithin (start stop : ℕ) (log : List (Spending α)) : α :=
  ((log.filter fun x => start ≤ x.time ∧ x.time ≤ stop).map Spending.amount).sum

theorem spentSince_append (start : ℕ) (log more : List (Spending α)) :
    spentSince start (log ++ more) = spentSince start log + spentSince start more := by
  simp [spentSince]

theorem spentWithin_append (start stop : ℕ) (log more : List (Spending α)) :
    spentWithin start stop (log ++ more) =
      spentWithin start stop log + spentWithin start stop more := by
  simp [spentWithin]

theorem spentSince_singleton (start : ℕ) (x : Spending α) :
    spentSince start [x] = if start ≤ x.time then x.amount else 0 := by
  by_cases h : start ≤ x.time
  · simp [spentSince, h]
  · simp [spentSince, h]

theorem spentWithin_singleton (start stop : ℕ) (x : Spending α) :
    spentWithin start stop [x] =
      if start ≤ x.time ∧ x.time ≤ stop then x.amount else 0 := by
  by_cases h : start ≤ x.time ∧ x.time ≤ stop
  · simp [spentWithin, h]
  · simp [spentWithin, h]

variable [PartialOrder α]

/-- Spending in the order of time, each amount within what the window that ends with it leaves of
the cap. -/
inductive Budgeted (cap : α) (width : ℕ) : List (Spending α) → Prop
  | nil : Budgeted cap width []
  | free {log : List (Spending α)} {x : Spending α} (earlier : Budgeted cap width log)
      (zero : x.amount = 0) : Budgeted cap width (log ++ [x])
  | spend {log : List (Spending α)} {x : Spending α} (earlier : Budgeted cap width log)
      (ordered : ∀ y ∈ log, y.time ≤ x.time) (nonneg : 0 ≤ x.amount)
      (fits : spentSince (x.time - width) log + x.amount ≤ cap) : Budgeted cap width (log ++ [x])

namespace Budgeted

variable {cap : α} {width : ℕ} {log : List (Spending α)}

theorem nonneg (h : Budgeted cap width log) : ∀ x ∈ log, 0 ≤ x.amount := by
  induction h with
  | nil =>
    intro x hx
    cases hx
  | free _ zero ih =>
    intro y hy
    rcases List.mem_append.mp hy with hy | hy
    · exact ih y hy
    · rw [List.mem_singleton.mp hy, zero]
  | spend _ _ nonneg _ ih =>
    intro y hy
    rcases List.mem_append.mp hy with hy | hy
    · exact ih y hy
    · rw [List.mem_singleton.mp hy]
      exact nonneg

end Budgeted

variable [IsOrderedAddMonoid α]

theorem spentSince_anti {log : List (Spending α)} (nonneg : ∀ x ∈ log, 0 ≤ x.amount)
    {early late : ℕ} (later : early ≤ late) : spentSince late log ≤ spentSince early log := by
  induction log with
  | nil => exact le_rfl
  | cons x log ih =>
    have rest := ih fun y hy => nonneg y (List.mem_cons_of_mem x hy)
    have split : ∀ start, spentSince start (x :: log) =
        spentSince start [x] + spentSince start log := fun start => spentSince_append start [x] log
    rw [split, split, spentSince_singleton, spentSince_singleton]
    refine add_le_add ?_ rest
    by_cases counts : late ≤ x.time
    · rw [if_pos counts, if_pos (later.trans counts)]
    · rw [if_neg counts]
      split_ifs
      · exact nonneg x List.mem_cons_self
      · exact le_rfl

theorem spentWithin_le_spentSince {log : List (Spending α)} (nonneg : ∀ x ∈ log, 0 ≤ x.amount)
    (start stop : ℕ) : spentWithin start stop log ≤ spentSince start log := by
  have part : (log.filter fun x => start ≤ x.time ∧ x.time ≤ stop).Sublist
      (log.filter fun x => start ≤ x.time) := by
    refine List.monotone_filter_right log fun x counts => ?_
    simp only [decide_eq_true_eq] at counts ⊢
    exact counts.1
  apply (part.map Spending.amount).sum_le_sum
  intro a ha
  obtain ⟨x, hx, rfl⟩ := List.mem_map.mp ha
  exact nonneg x (List.mem_of_mem_filter hx)

theorem Budgeted.window {cap : α} {width : ℕ} {log : List (Spending α)}
    (h : Budgeted cap width log) (cap_nonneg : 0 ≤ cap) (start : ℕ) :
    spentWithin start (start + width) log ≤ cap := by
  induction h with
  | nil => simpa [spentWithin] using cap_nonneg
  | free _ zero ih =>
    rw [spentWithin_append, spentWithin_singleton, zero, ite_self, add_zero]
    exact ih
  | @spend log x earlier ordered nonneg fits ih =>
    rw [spentWithin_append, spentWithin_singleton]
    by_cases counts : start ≤ x.time ∧ x.time ≤ start + width
    · rw [if_pos counts]
      -- The window that ends with the last amount begins no later than this one.
      have begins : x.time - width ≤ start := by omega
      have earlier' : spentWithin start (start + width) log ≤ spentSince (x.time - width) log :=
        (spentWithin_le_spentSince earlier.nonneg _ _).trans (spentSince_anti earlier.nonneg begins)
      exact (add_le_add_left earlier' _).trans fits
    · rw [if_neg counts, add_zero]
      exact ih

end SlidingBudget
