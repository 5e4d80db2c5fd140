import Composable.Vesting.Model
import Mathlib.Order.Interval.Finset.Nat
import Mathlib.Order.Monotone.Defs

/-!
# `Vesting.Schedules` — what a schedule releases, and when

Embeds `VestingSchedule::{end, total_amount, locked_amount}` of
`frame/composable-traits/src/vesting.rs` for block numbers and balances of any width. The count of
the periods is a `u32`, and the number of full periods, a block number, is converted to one by a
conversion that stops at `u32::MAX`.

What a schedule is for does not mention divisions: period `k` is completed in block
`start + (k + 1) * period`, and `perPeriod` is locked for each period that is `pending`. The pending
periods are those from the quotient on (`pending_eq`), so `locked_amount` counts them
(`lockedAmountIn_eq`), and they run out in block `end` (`pending_eq_empty`).
-/

namespace Composable
namespace Vesting
namespace VestingSchedule

/-- The locked amount at a time in balances up to `maxBalance`; `none` is a panic, on a
    schedule that is not valid. -/
def lockedAmountIn (maxBalance : Nat) (v : VestingSchedule) (time : Nat) : Option Nat :=
  if v.period = 0 then none
  else
    let full := (time - v.start) / v.period
    -- `unique_saturated_into` and `saturating_sub`, both in `u32`.
    let unrealized := v.periodCount - min full u32Max
    if v.perPeriod * unrealized ≤ maxBalance then some (v.perPeriod * unrealized) else none

/-- The periods that are not completed at a time. -/
def pending (v : VestingSchedule) (time : Nat) : Finset Nat :=
  (Finset.range v.periodCount).filter fun k => time < v.start + (k + 1) * v.period

variable {v : VestingSchedule} {t t' total end_ maxBalance maxBlockNumber : Nat}

/-! ## The pending periods -/

/-- A period is pending from the number of full periods on. -/
theorem pending_eq (h : v.period ≠ 0) :
    v.pending t = Finset.Ico ((t - v.start) / v.period) v.periodCount := by
  ext k
  simp only [pending, Finset.mem_filter, Finset.mem_range, Finset.mem_Ico]
  have hfull : (t - v.start) / v.period ≤ k ↔ t < v.start + (k + 1) * v.period := by
    rw [← Nat.lt_add_one_iff, Nat.div_lt_iff_lt_mul (Nat.pos_of_ne_zero h)]
    have hpos : 0 < (k + 1) * v.period := Nat.mul_pos (Nat.succ_pos k) (Nat.pos_of_ne_zero h)
    omega
  rw [hfull, and_comm]

theorem card_pending (h : v.period ≠ 0) :
    (v.pending t).card = v.periodCount - (t - v.start) / v.period := by
  rw [pending_eq h, Nat.card_Ico]

/-- Periods only get completed. -/
theorem pending_antitone (ht : t ≤ t') : v.pending t' ⊆ v.pending t := by
  intro k hk
  simp only [pending, Finset.mem_filter] at hk ⊢
  exact ⟨hk.1, by omega⟩

/-- Before the first period is completed they are all pending. -/
theorem pending_eq_range (h : t < v.start + v.period) : v.pending t = Finset.range v.periodCount := by
  apply Finset.filter_true_of_mem
  intro k _
  have hfirst : v.period ≤ (k + 1) * v.period := Nat.le_mul_of_pos_left _ (Nat.succ_pos k)
  omega

/-- Once the last period is completed, and not before, none is pending. -/
theorem pending_eq_empty (h : v.period ≠ 0) (hcount : v.periodCount ≠ 0) :
    v.pending t = ∅ ↔ v.period * v.periodCount + v.start ≤ t := by
  have hpos : 0 < v.period * v.periodCount :=
    Nat.mul_pos (Nat.pos_of_ne_zero h) (Nat.pos_of_ne_zero hcount)
  rw [pending_eq h, Finset.Ico_eq_empty_iff, Nat.not_lt, Nat.le_div_iff_mul_le (Nat.pos_of_ne_zero h),
    Nat.mul_comm v.periodCount]
  omega

/-! ## The amounts -/

theorem totalAmountIn_eq_some : v.totalAmountIn maxBalance = some total ↔
    v.perPeriod * v.periodCount ≤ maxBalance ∧ total = v.perPeriod * v.periodCount := by
  rw [totalAmountIn, Option.ite_none_right_eq_some, Option.some.injEq, eq_comm (a := total)]

theorem end?_eq_some (h : v.end? maxBlockNumber = some end_) :
    end_ = v.period * v.periodCount + v.start := by
  rw [end?, Option.ite_none_right_eq_some, Option.some.injEq] at h
  exact h.2.symm

/-- The conversion to `u32` stops at a number that no count of periods exceeds. -/
theorem sub_min_u32Max (hwidth : v.periodCount ≤ u32Max) (full : Nat) :
    v.periodCount - min full u32Max = v.periodCount - full := by
  omega

/-- **No `expect` fails**, and what is locked is locked for the pending periods. -/
theorem lockedAmountIn_eq (h : v.period ≠ 0) (hwidth : v.periodCount ≤ u32Max)
    (htotal : v.perPeriod * v.periodCount ≤ maxBalance) :
    v.lockedAmountIn maxBalance t = some (v.perPeriod * (v.pending t).card) := by
  have hle : v.perPeriod * (v.pending t).card ≤ maxBalance := by
    rw [card_pending h]
    exact (Nat.mul_le_mul_left _ (Nat.sub_le _ _)).trans htotal
  simp only [lockedAmountIn, if_neg h, sub_min_u32Max hwidth, ← card_pending h, if_pos hle]

/-- The pallet's balances are `u128`, and the conversion to `u32` does not show in them. -/
theorem lockedAmountIn_u128Max (hwidth : v.periodCount ≤ u32Max) :
    v.lockedAmountIn u128Max t = v.lockedAmount t ∧ v.totalAmountIn u128Max = v.totalAmount := by
  constructor
  · simp only [lockedAmountIn, lockedAmount, sub_min_u32Max hwidth]
  · rfl

/-- The amounts that a schedule locks over the blocks, with its total and the block it ends in. -/
structure Releases (v : VestingSchedule) (total end_ : Nat) (locked : Nat → Nat) : Prop where
  antitone : Antitone locked
  /-- Nothing is released in the first period. -/
  atFirst : ∀ t, t < v.start + v.period → locked t = total
  /-- Every period that is completed releases the same amount. -/
  between : ∀ t, locked t = v.perPeriod * (v.pending t).card
  atLast : 0 < v.perPeriod → ∀ t, locked t = 0 ↔ end_ ≤ t

/-- **A schedule releases correctly at every block**: what it locks can be computed at all
    times, is the total until the first period is completed, falls by `perPeriod` with each of
    them, and is zero from `end` on. -/
theorem locked_releases (hperiod : v.period ≠ 0) (hcount : v.periodCount ≠ 0)
    (hwidth : v.periodCount ≤ u32Max)
    (hend : v.end? maxBlockNumber = some end_) (htotal : v.totalAmountIn maxBalance = some total) :
    ∃ locked : Nat → Nat, (∀ t, v.lockedAmountIn maxBalance t = some (locked t)) ∧
      v.Releases total end_ locked := by
  obtain ⟨hfits, rfl⟩ := totalAmountIn_eq_some.mp htotal
  obtain rfl := end?_eq_some hend
  -- What is locked is the amount of a period times the number of periods still pending.
  refine ⟨fun t => v.perPeriod * (v.pending t).card,
    fun t => lockedAmountIn_eq hperiod hwidth hfits, ?_⟩
  constructor
  · intro t t' ht
    exact Nat.mul_le_mul_left _ (Finset.card_le_card (pending_antitone ht))
  · intro t ht
    simp only [pending_eq_range ht, Finset.card_range]
  · intro t
    rfl
  · intro hpos t
    rw [mul_eq_zero, or_iff_right hpos.ne', Finset.card_eq_zero]
    exact pending_eq_empty hperiod hcount

/-- Three periods of ten blocks from block 5 on. -/
theorem locked_releases_of_three : ∃ locked : Nat → Nat,
    (∀ t, (⟨5, 10, 3, 7⟩ : VestingSchedule).lockedAmountIn u128Max t = some (locked t)) ∧
      (⟨5, 10, 3, 7⟩ : VestingSchedule).Releases 21 35 locked := by
  have hend : (⟨5, 10, 3, 7⟩ : VestingSchedule).end? u32Max = some 35 := by decide
  exact locked_releases (by decide) (by decide) (by decide) hend (by decide)

end VestingSchedule
end Vesting
end Composable
