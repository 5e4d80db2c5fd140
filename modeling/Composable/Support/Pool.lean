import Mathlib.Algebra.Order.Field.Rat
import Mathlib.Algebra.Order.Field.Basic
import Mathlib.Tactic.Ring
import Mathlib.Tactic.Linarith

/-!
# `Support.Pool` — pools of assets held by shares

A pool owns assets and has issued shares on them. Shares are minted to whoever brings assets and
redeemed for a part of them; both are rounded in the pool's favour, which is all that `Pool.Step`
says about the amounts. The price of a share is a rational number, compared by cross-multiplication.

Where a payment may be rounded up instead, `Leaves` counts by how many half units at most, and these
add up over all who leave (`AllLeave.mul_le`).
-/

namespace Composable

/-- The assets of a pool and the shares issued on them. -/
structure Pool where
  assets : Nat
  shares : Nat
deriving DecidableEq, Repr

namespace Pool

/-- What one share is worth. -/
def price (p : Pool) : ℚ := p.assets / p.shares

/-- Joining mints at most the share of the new assets in the old; leaving pays at most the share of
    the burnt tokens in the assets. -/
inductive Step : Pool → Pool → Prop where
  | join {p : Pool} (amount minted : Nat) (hround : minted * p.assets ≤ amount * p.shares) :
      Step p ⟨p.assets + amount, p.shares + minted⟩
  | leave {p : Pool} (burnt paid : Nat) (hburnt : burnt ≤ p.shares) (hpaid : paid ≤ p.assets)
      (hround : paid * p.shares ≤ burnt * p.assets) :
      Step p ⟨p.assets - paid, p.shares - burnt⟩

variable {p q : Pool}

/-- A step does not lower the price, cross-multiplied. -/
theorem Step.mul_le (h : Step p q) : p.assets * q.shares ≤ q.assets * p.shares := by
  cases h with
  | join amount minted hround =>
      calc p.assets * (p.shares + minted) = p.assets * p.shares + minted * p.assets := by ring
        _ ≤ p.assets * p.shares + amount * p.shares := Nat.add_le_add_left hround _
        _ = (p.assets + amount) * p.shares := by ring
  | leave burnt paid hburnt hpaid hround =>
      show p.assets * (p.shares - burnt) ≤ (p.assets - paid) * p.shares
      rw [Nat.mul_sub, Nat.sub_mul, Nat.mul_comm p.assets burnt]
      exact Nat.sub_le_sub_left hround _

/-- **A step does not lower the price of a share.** -/
theorem Step.price_le (h : Step p q) (hp : 0 < p.shares) (hq : 0 < q.shares) :
    p.price ≤ q.price := by
  unfold price
  rw [div_le_div_iff₀ (by exact_mod_cast hp) (by exact_mod_cast hq)]
  exact_mod_cast h.mul_le

/-- What the minted shares pay right after joining is at most what was brought, even where that was
    rounded down for them: a whole number does not exceed it by less than a unit. -/
theorem paid_le_of_join_lt {amount minted paid : Nat}
    (hjoin : minted * p.assets < (amount + 1) * p.shares + minted)
    (hleave : paid * (p.shares + minted) ≤ minted * (p.assets + amount)) : paid ≤ amount := by
  have hmul : paid * (p.shares + minted) < (amount + 1) * (p.shares + minted) := by
    calc paid * (p.shares + minted) ≤ minted * p.assets + minted * amount := by
          rw [← Nat.mul_add]
          exact hleave
      _ < (amount + 1) * p.shares + minted + minted * amount := Nat.add_lt_add_right hjoin _
      _ = (amount + 1) * (p.shares + minted) := by ring
  exact Nat.lt_succ_iff.mp (Nat.lt_of_mul_lt_mul_right hmul)

/-- What the minted shares pay right after joining, when both are rounded to the nearest, exceeds
    what was brought by what they were minted in excess, and half a unit. -/
theorem paid_lt_of_join {amount minted paid slack : Nat}
    (hjoin : 2 * (minted * p.assets) ≤ 2 * (amount * p.shares) + slack)
    (hleave : 2 * (paid * (p.shares + minted)) < 2 * (minted * (p.assets + amount)) +
      (p.shares + minted)) :
    2 * (paid * (p.shares + minted)) < (2 * amount + 1) * (p.shares + minted) + slack := by
  calc 2 * (paid * (p.shares + minted))
    _ < 2 * (minted * (p.assets + amount)) + (p.shares + minted) := hleave
    _ = 2 * (minted * p.assets) + (2 * (minted * amount) + (p.shares + minted)) := by ring
    _ ≤ 2 * (amount * p.shares) + slack + (2 * (minted * amount) + (p.shares + minted)) :=
      Nat.add_le_add_right hjoin _
    _ = (2 * amount + 1) * (p.shares + minted) + slack := by ring

/-- **A round trip never gains**: what the minted shares pay right after joining is at most what was
    brought. -/
theorem paid_le_of_join_leave {amount minted paid : Nat}
    (hjoin : minted * p.assets ≤ amount * p.shares)
    (hleave : paid * (p.shares + minted) ≤ minted * (p.assets + amount))
    (hpos : 0 < p.shares + minted) : paid ≤ amount := by
  refine paid_le_of_join_lt ?_ hleave
  rw [Nat.succ_mul]
  omega

/-! ## Pools that are empty on both sides or on none -/

/-- There are assets exactly when there are shares. -/
def Balanced (p : Pool) : Prop := p.assets = 0 ↔ p.shares = 0

instance : Decidable p.Balanced := inferInstanceAs (Decidable (_ ↔ _))

theorem Balanced.join {amount minted : Nat} (ha : 0 < amount) (hm : 0 < minted) :
    Balanced ⟨p.assets + amount, p.shares + minted⟩ :=
  iff_of_false (by simp; omega) (by simp; omega)

/-- Redeeming that pays everything to the last shares, and leaves something while shares remain. -/
theorem Balanced.leave {burnt paid : Nat} (h : p.Balanced) (hpos : 0 < burnt)
    (hburnt : burnt ≤ p.shares)
    (hall : burnt = p.shares → paid = p.assets)
    (hsome : burnt < p.shares → 0 < p.assets → paid < p.assets) :
    Balanced ⟨p.assets - paid, p.shares - burnt⟩ := by
  have hshares : 0 < p.shares := Nat.lt_of_lt_of_le hpos hburnt
  have hassets : 0 < p.assets := Nat.pos_of_ne_zero fun h0 => hshares.ne' (h.mp h0)
  rcases Nat.eq_or_lt_of_le hburnt with heq | hlt
  · refine iff_of_true ?_ ?_
    · show p.assets - paid = 0
      rw [hall heq, Nat.sub_self]
    · show p.shares - burnt = 0
      rw [heq, Nat.sub_self]
  · have hleft := hsome hlt hassets
    exact iff_of_false (by simp; omega) (by simp; omega)

/-! ## Pools that are only left -/

/-- Some shares leave with what they are paid: everything for the last ones, and else their part of
    the assets, which may be exceeded by so many half units. -/
structure Leaves (slack : Nat) (p : Pool) (burnt paid : Nat) : Prop where
  burnt_le : burnt ≤ p.shares
  paid_le : paid ≤ p.assets
  nothing : burnt = 0 → paid = 0
  everything : 0 < p.shares → burnt = p.shares → paid = p.assets
  round : 2 * (paid * p.shares) ≤ 2 * (burnt * p.assets) + slack * p.shares

/-- Shares leave one after the other, with the slack of all. -/
inductive AllLeave : Nat → Pool → Pool → Prop
  | nobody {p : Pool} : AllLeave 0 p p
  | next {k slack burnt paid : Nat} {p q : Pool} (hfirst : AllLeave k p q)
      (hlast : Leaves slack q burnt paid) :
      AllLeave (k + slack) p ⟨q.assets - paid, q.shares - burnt⟩

variable {k slack burnt paid : Nat}

/-- Those who stay lose no more than the slack, all together. -/
theorem Leaves.mul_le (h : Leaves slack p burnt paid) :
    2 * (p.assets * (p.shares - burnt)) ≤ (2 * (p.assets - paid) + slack) * p.shares := by
  have hround := h.round
  have hpart : burnt * p.assets ≤ p.shares * p.assets := Nat.mul_le_mul_right _ h.burnt_le
  have hpaid : paid * p.shares ≤ p.assets * p.shares := Nat.mul_le_mul_right _ h.paid_le
  rw [Nat.mul_sub, Nat.add_mul, Nat.mul_assoc, Nat.sub_mul, Nat.mul_comm p.assets burnt]
  rw [Nat.mul_comm p.shares] at hpart
  omega

theorem AllLeave.shares_le (h : AllLeave k p q) : q.shares ≤ p.shares := by
  induction h with
  | nobody => exact Nat.le_refl _
  | next _ _ ih => exact (Nat.sub_le _ _).trans ih

/-- **Those who stay lose no more than the slack of all who leave**, all together and
    however many these are. -/
theorem AllLeave.mul_le (h : AllLeave k p q) :
    2 * (p.assets * q.shares) ≤ (2 * q.assets + k) * p.shares := by
  induction h with
  | nobody => exact (Nat.mul_assoc _ _ _).symm.le
  | @next k slack burnt paid p q hfirst hlast ih =>
      rcases Nat.eq_zero_or_pos q.shares with hzero | hpos
      · show 2 * (p.assets * (q.shares - burnt)) ≤ _
        simp [hzero]
      · -- Compare after multiplying with the shares in between.
        refine Nat.le_of_mul_le_mul_right (c := q.shares) ?_ hpos
        calc 2 * (p.assets * (q.shares - burnt)) * q.shares
          _ = 2 * (p.assets * q.shares) * (q.shares - burnt) := by ring
          _ ≤ (2 * q.assets + k) * p.shares * (q.shares - burnt) := Nat.mul_le_mul_right _ ih
          _ = 2 * (q.assets * (q.shares - burnt)) * p.shares +
            k * (p.shares * (q.shares - burnt)) := by ring
          _ ≤ (2 * (q.assets - paid) + slack) * q.shares * p.shares + k * (p.shares * q.shares) :=
              Nat.add_le_add (Nat.mul_le_mul_right _ hlast.mul_le)
                (Nat.mul_le_mul_left _ (Nat.mul_le_mul_left _ (Nat.sub_le _ _)))
          _ = (2 * (q.assets - paid) + (k + slack)) * p.shares * q.shares := by ring

/-- There may be slack that nobody uses. -/
theorem AllLeave.idle (h : AllLeave k p q) : AllLeave (k + slack) p q := by
  have hnobody : Leaves slack q 0 0 := by
    refine ⟨Nat.zero_le _, Nat.zero_le _, fun _ => rfl, fun hpos hzero => absurd hzero hpos.ne, ?_⟩
    simp
  exact h.next hnobody

/-- When all have left, nothing is left. -/
theorem AllLeave.emptied (h : AllLeave k p q) (hp : p.shares = 0 → p.assets = 0)
    (hq : q.shares = 0) : q.assets = 0 := by
  induction h with
  | nobody => exact hp hq
  | @next k slack burnt paid p q hfirst hlast ih =>
      show q.assets - paid = 0
      rcases Nat.eq_zero_or_pos q.shares with hzero | hpos
      · rw [ih hp hzero, Nat.zero_sub]
      · rw [hlast.everything hpos (Nat.le_antisymm hlast.burnt_le (Nat.le_of_sub_eq_zero hq)),
          Nat.sub_self]

/-- Who does not take shares out takes no assets either. -/
theorem AllLeave.eq (h : AllLeave k p q) (hshares : q.shares = p.shares) : q = p := by
  induction h with
  | nobody => rfl
  | @next k slack burnt paid p q hfirst hlast ih =>
      have hless := hfirst.shares_le
      have hsame : q.shares - burnt = p.shares := hshares
      have hburnt := hlast.burnt_le
      obtain rfl : burnt = 0 := by omega
      rw [← ih hsame, hlast.nothing rfl]
      rfl

end Pool
end Composable
