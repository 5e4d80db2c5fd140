import Mathlib.Algebra.Order.Ring.Nat

/-!
# `Support.Bucket` — a leaky bucket meters a flow

A bucket leaks a constant amount per unit of time, never below empty, and is topped up now and then.
Only its level after the last pouring is kept, and yet that level knows all the past it has to know:
whether more fits under a brim `B` is whether it fits into **every** window up to now, of which one
that started at `start` holds `B + rate * (now - start)` (`Meters.fits_iff`).

* `Meters` relates the level to what was poured since each time: no window has more, and one has as
  much.
* `Meters.pour` keeps it, whatever was there before.
-/

namespace Composable

/-- The level of a bucket after the last pouring, and when that was. -/
structure Bucket where
  level : Nat
  last : Nat
deriving DecidableEq, Repr

namespace Bucket

variable {rate now amount brim : Nat} {total : Nat → Nat} {b : Bucket}

/-- What has not leaked yet. -/
def drained (rate : Nat) (b : Bucket) (now : Nat) : Nat := b.level - rate * (now - b.last)

def pour (rate : Nat) (b : Bucket) (now amount : Nat) : Bucket := ⟨b.drained rate now + amount, now⟩

@[simp] theorem pour_level : (b.pour rate now amount).level = b.drained rate now + amount := rfl

@[simp] theorem pour_last : (b.pour rate now amount).last = now := rfl

theorem drained_le : b.drained rate now ≤ b.level := Nat.sub_le _ _

/-- What leaks between two times after the last pouring is what leaks from the last pouring on. -/
theorem leak_split {start : Nat} (hstart : start ≤ b.last) (hnow : b.last ≤ now) :
    rate * (now - start) = rate * (now - b.last) + rate * (b.last - start) := by
  rw [← Nat.mul_add]
  congr 1
  omega

/-- Pouring nothing changes nothing of what is there later. -/
theorem drained_pour_zero {later : Nat} (hnow : b.last ≤ now) (hlater : now ≤ later) :
    (b.pour rate now 0).drained rate later = b.drained rate later := by
  show b.level - rate * (now - b.last) + 0 - rate * (later - now) = b.level - rate * (later - b.last)
  have hsplit : rate * (later - b.last) = rate * (now - b.last) + rate * (later - now) := by
    rw [← Nat.mul_add]
    congr 1
    omega
  omega

/-- The level is that of `total`, where `total start` is what was poured at the time `start` or
    later. -/
structure Meters (rate : Nat) (total : Nat → Nat) (b : Bucket) : Prop where
  le : ∀ start, start ≤ b.last → total start ≤ b.level + rate * (b.last - start)
  attained : b.level = 0 ∨ ∃ start, start ≤ b.last ∧ total start = b.level + rate * (b.last - start)
  later : ∀ start, b.last < start → total start = 0

/-- An empty bucket into which nothing was poured. -/
theorem Meters.nothing (hlevel : b.level = 0) (htotal : ∀ start, total start = 0) :
    Meters rate total b where
  le start _ := by
    rw [htotal]
    exact Nat.zero_le _
  attained := .inl hlevel
  later start _ := htotal start

/-- **Pouring keeps the meter right.** -/
theorem Meters.pour (h : Meters rate total b) (hnow : b.last ≤ now) :
    Meters rate (fun start => total start + if start ≤ now then amount else 0)
      (b.pour rate now amount) where
  le start hstart := by
    have hstart' : start ≤ now := hstart
    show total start + (if start ≤ now then amount else 0) ≤
      b.drained rate now + amount + rate * (now - start)
    rw [if_pos hstart', drained]
    by_cases hold : start ≤ b.last
    · have hle := h.le start hold
      rw [leak_split hold hnow]
      omega
    · rw [h.later start (Nat.lt_of_not_le hold)]
      omega
  attained := by
    show b.drained rate now + amount = 0 ∨ ∃ start, start ≤ now ∧
      total start + (if start ≤ now then amount else 0) =
        b.drained rate now + amount + rate * (now - start)
    rcases Nat.eq_zero_or_pos (b.drained rate now) with hempty | hleft
    · -- Nothing is left: the window that starts now has as much.
      have hnone : total now = 0 := by
        rcases Nat.eq_or_lt_of_le hnow with heq | hlt
        · have hle := h.le now heq.symm.le
          rw [drained, ← heq, Nat.sub_self, Nat.mul_zero, Nat.sub_zero] at hempty
          rw [← heq, Nat.sub_self, Nat.mul_zero, hempty] at hle
          rw [← heq]
          omega
        · exact h.later now hlt
      refine .inr ⟨now, le_rfl, ?_⟩
      rw [if_pos le_rfl, hnone, hempty, Nat.sub_self, Nat.mul_zero, Nat.add_zero]
    · -- Something is left: the window that had as much before still has.
      rw [drained] at hleft ⊢
      rcases h.attained with hzero | ⟨start, hold, heq⟩
      · omega
      · refine .inr ⟨start, hold.trans hnow, ?_⟩
        rw [if_pos (hold.trans hnow), heq, leak_split hold hnow]
        omega
  later start hstart := by
    have hlate : now < start := hstart
    show total start + (if start ≤ now then amount else 0) = 0
    rw [h.later start (Nat.lt_of_le_of_lt hnow hlate), if_neg (Nat.not_le.mpr hlate)]

/-- **What fits under the brim is what fits into every window up to now.** -/
theorem Meters.fits_iff (h : Meters rate total b) (hnow : b.last ≤ now) :
    b.drained rate now + amount ≤ brim ↔
      ∀ start, start ≤ now → total start + amount ≤ brim + rate * (now - start) := by
  constructor
  · intro hfits start hstart
    rw [drained] at hfits
    by_cases hold : start ≤ b.last
    · have hle := h.le start hold
      rw [leak_split hold hnow]
      omega
    · rw [h.later start (Nat.lt_of_not_le hold)]
      omega
  · intro hwindows
    rcases Nat.eq_zero_or_pos (b.drained rate now) with hempty | hleft
    · have hlast := hwindows now le_rfl
      rw [Nat.sub_self, Nat.mul_zero] at hlast
      omega
    · rw [drained] at hleft ⊢
      rcases h.attained with hzero | ⟨start, hold, heq⟩
      · omega
      · have hwindow := hwindows start (hold.trans hnow)
        rw [heq, leak_split hold hnow] at hwindow
        omega

end Bucket
end Composable
