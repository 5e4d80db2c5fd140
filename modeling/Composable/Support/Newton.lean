import Composable.Support.Fixed
import Mathlib.Logic.Function.Iterate
import Mathlib.Tactic.Linarith

/-!
# `Support.Newton` — integer iterations that converge

An iteration on natural numbers is run until two neighbours differ by at most one (`converge`). What
it then returns is one step away from a number next to it (`converge_ok`), which is all that is
known of it: whether the iteration comes near a fixed point otherwise, or settles at all, does not
matter. It returns exactly when it settles in time (`converge_ok_iff`).

For Newton's iteration on a quadratic equation with truncating division that is enough: where it
settles, the equation is solved up to one unit (`Newton.le_of_settled`, `Newton.ge_of_settled`).
-/

namespace Composable

variable {ε : Type} {f : Nat → Except ε Nat} {fail : ε} {i x y : Nat}

/-- Iterate `f` from `x`, at most `i` times, until a step changes the value by at most one. -/
def converge (f : Nat → Except ε Nat) (fail : ε) : Nat → Nat → Except ε Nat
  | 0, _ => .error fail
  | i + 1, x => do
      let y ← f x
      if y - x ≤ 1 ∧ x - y ≤ 1 then .ok y else converge f fail i y

/-- What an iteration settles at is next to a number that it comes from. -/
theorem converge_ok (h : converge f fail i x = .ok y) : ∃ p, f p = .ok y ∧ y ≤ p + 1 ∧ p ≤ y + 1 := by
  induction i generalizing x with
  | zero => cases h
  | succ i ih =>
      rw [converge, exceptBind_ok] at h
      obtain ⟨z, hz, hrest⟩ := h
      by_cases hnear : z - x ≤ 1 ∧ x - z ≤ 1
      · rw [if_pos hnear] at hrest
        obtain rfl := Except.ok.inj hrest
        exact ⟨x, hz, by omega, by omega⟩
      · rw [if_neg hnear] at hrest
        exact ih hrest

/-- Two numbers differ by at most one. -/
def Near (x y : Nat) : Prop := y - x ≤ 1 ∧ x - y ≤ 1

instance (x y : Nat) : Decidable (Near x y) := inferInstanceAs (Decidable (_ ∧ _))

/-- The iteration of `g` from `x` takes its first small step after `k` others, all of them
    defined. -/
def SettlesAt (g : Nat → Nat) (Defined : Nat → Prop) (x k : Nat) : Prop :=
  (∀ j ≤ k, Defined (g^[j] x)) ∧ (∀ j < k, ¬ Near (g^[j] x) (g^[j + 1] x)) ∧
    Near (g^[k] x) (g^[k + 1] x)

/-- **An iteration converges exactly when it settles** in the rounds it is given. -/
theorem converge_ok_iff {g : Nat → Nat} {Defined : Nat → Prop}
    (hf : ∀ x y, f x = .ok y ↔ Defined x ∧ y = g x) :
    converge f fail i x = .ok y ↔ ∃ k < i, SettlesAt g Defined x k ∧ y = g^[k + 1] x := by
  induction i generalizing x with
  | zero => exact ⟨nofun, fun ⟨k, hk, _⟩ => absurd hk (Nat.not_lt_zero k)⟩
  | succ i ih =>
      have hround : converge f fail (i + 1) x = .ok y ↔
          Defined x ∧ (if Near x (g x) then .ok (g x) else converge f fail i (g x)) = .ok y := by
        rw [converge, exceptBind_ok]
        simp only [hf]
        exact ⟨fun ⟨z, ⟨hx, hz⟩, h⟩ => ⟨hx, hz ▸ h⟩, fun ⟨hx, h⟩ => ⟨g x, ⟨hx, rfl⟩, h⟩⟩
      rw [hround]
      by_cases hnear : Near x (g x)
      · -- The first round is the last.
        rw [if_pos hnear, Except.ok.injEq]
        constructor
        · rintro ⟨hx, rfl⟩
          refine ⟨0, Nat.succ_pos i,
            ⟨fun j hj => ?_, fun j hj => absurd hj (Nat.not_lt_zero j), hnear⟩, rfl⟩
          obtain rfl := Nat.le_zero.mp hj
          exact hx
        · rintro ⟨k, -, ⟨hdefined, hfar, -⟩, rfl⟩
          cases k with
          | zero => exact ⟨hdefined 0 (Nat.le_refl 0), rfl⟩
          | succ k => exact absurd hnear (hfar 0 (Nat.succ_pos k))
      · rw [if_neg hnear, ih]
        constructor
        · rintro ⟨hx, k, hk, ⟨hdefined, hfar, hsettled⟩, rfl⟩
          refine ⟨k + 1, Nat.succ_lt_succ hk, ⟨fun j hj => ?_, fun j hj => ?_, hsettled⟩, rfl⟩
          · cases j with
            | zero => exact hx
            | succ j => exact hdefined j (Nat.le_of_succ_le_succ hj)
          · cases j with
            | zero => exact hnear
            | succ j => exact hfar j (Nat.lt_of_succ_lt_succ hj)
        · rintro ⟨k, hk, ⟨hdefined, hfar, hsettled⟩, rfl⟩
          cases k with
          | zero => exact absurd hsettled hnear
          | succ k =>
              refine ⟨hdefined 0 (Nat.zero_le _), k, Nat.lt_of_succ_lt_succ hk,
                ⟨fun j hj => ?_, fun j hj => ?_, hsettled⟩, rfl⟩
              · exact hdefined (j + 1) (Nat.succ_le_succ hj)
              · exact hfar (j + 1) (Nat.succ_lt_succ hj)

namespace Newton

variable {p b c d : Nat}

/-- Newton's step for `y * y + b * y = d * y + c`; a slope of zero is read as one. -/
def step (b c d p : Nat) : Nat := (p * p + c) / max (2 * p + b - d) 1

section Settled

variable (hslope : d ≤ 2 * p + b) (hy : y = step b c d p) (hle : y ≤ p + 1) (hge : p ≤ y + 1)
include hslope hy hle hge

/-- Where the slope is zero the step is `p * p + c`, and only small values converge. -/
theorem settled_of_flat (hflat : 2 * p + b = d) :
    y * y + b * y ≤ d * y + c + 1 ∧ d * (y + 1) + c ≤ (y + 1) * (y + 1) + b * (y + 1) := by
  rw [step, Nat.sub_eq_zero_of_le hflat.le, Nat.zero_max, Nat.div_one] at hy
  subst hflat
  have hsmall : p ≤ 1 := by
    by_contra hlarge
    have hsquare : 2 * p ≤ p * p := Nat.mul_le_mul_right p (by omega)
    omega
  obtain rfl | rfl : p = 0 ∨ p = 1 := by omega
  · subst hy
    constructor
    · nlinarith
    · nlinarith
  · have hc : c ≤ 1 := by omega
    obtain rfl | rfl : c = 0 ∨ c = 1 := by omega
    · subst hy
      constructor <;> omega
    · subst hy
      constructor <;> omega

/-- A settled value is not too large. -/
theorem le_of_settled : y * y + b * y ≤ d * y + c + 1 := by
  rcases Nat.eq_or_lt_of_le hslope with hflat | hsteep
  · exact (settled_of_flat hslope hy hle hge hflat.symm).1
  · rw [step, max_eq_left (by omega)] at hy
    have hdiv : y * (2 * p + b - d) ≤ p * p + c := hy ▸ Nat.div_mul_le_self _ _
    zify [hslope] at hdiv hle hge ⊢
    have hnear : ((y : ℤ) - p) * (y - p) ≤ 1 := by nlinarith
    nlinarith

/-- The value after it is large enough. -/
theorem ge_of_settled : d * (y + 1) + c ≤ (y + 1) * (y + 1) + b * (y + 1) := by
  rcases Nat.eq_or_lt_of_le hslope with hflat | hsteep
  · exact (settled_of_flat hslope hy hle hge hflat.symm).2
  · rw [step, max_eq_left (by omega)] at hy
    have hdiv : p * p + c < (y + 1) * (2 * p + b - d) := by
      rw [hy]
      exact (Nat.lt_mul_div_succ _ (Nat.sub_pos_of_lt hsteep)).trans_eq (Nat.mul_comm _ _)
    zify [hslope] at hdiv ⊢
    nlinarith [mul_self_nonneg ((y : ℤ) + 1 - p)]

end Settled

end Newton

end Composable
