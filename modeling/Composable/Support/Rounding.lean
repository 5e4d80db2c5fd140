import Mathlib.Algebra.Order.Floor.Div
import Mathlib.Algebra.Order.Ring.Nat
import Mathlib.Tactic.Ring

/-!
# `Support.Rounding` — quotients of natural numbers, rounded

`nearest n c` is `n / c` rounded to the nearest integer, an exact half down. Like every faithful
rounding it lies between the two integers around the exact quotient, which is all that an integer
bound can see: `nearest n c ≤ k` follows from `n ≤ k * c`, and `k ≤ nearest n c` from `k * c ≤ n`.
What is lost or gained against the exact quotient is less than half of it (`two_mul_nearest_mul_lt`,
`le_two_mul_nearest_mul`). No statement mentions a remainder.
-/

namespace Composable
namespace Rounding

/-- `n / c` rounded to the nearest integer, an exact half down. -/
def nearest (n c : Nat) : Nat := n / c + if c / 2 < n % c then 1 else 0

variable {n n' c c' k : Nat}

theorem div_le_nearest : n / c ≤ nearest n c := Nat.le_add_right _ _

@[simp] theorem nearest_zero : nearest 0 c = 0 := by simp [nearest]

/-- What is rounded up is less than half a unit below. -/
theorem two_mul_nearest_mul_lt (hc : 0 < c) : 2 * (nearest n c * c) < 2 * n + c := by
  have hsplit : c * (n / c) + n % c = n := Nat.div_add_mod n c
  unfold nearest
  split
  next hup =>
      rw [Nat.add_mul, Nat.mul_comm (n / c)]
      omega
  next =>
      rw [Nat.add_zero, Nat.mul_comm (n / c)]
      omega

/-- What is rounded down is at most half a unit above. -/
theorem le_two_mul_nearest_mul (hc : 0 < c) : 2 * n ≤ 2 * (nearest n c * c) + c := by
  have hsplit : c * (n / c) + n % c = n := Nat.div_add_mod n c
  have hrest : n % c < c := Nat.mod_lt _ hc
  unfold nearest
  split
  next hup =>
      rw [Nat.add_mul, Nat.mul_comm (n / c)]
      omega
  next hdown =>
      rw [Nat.add_zero, Nat.mul_comm (n / c)]
      omega

/-- An integer that is at least the exact quotient is at least the rounded one. -/
theorem nearest_le (h : n ≤ k * c) : nearest n c ≤ k := by
  rcases Nat.eq_zero_or_pos c with rfl | hc
  · obtain rfl : n = 0 := Nat.le_zero.mp h
    simp
  · apply Nat.le_of_lt_succ
    apply Nat.lt_of_mul_lt_mul_right (a := 2 * c)
    have hlt := two_mul_nearest_mul_lt (n := n) hc
    calc nearest n c * (2 * c) = 2 * (nearest n c * c) := by ring
      _ < 2 * n + c := hlt
      _ ≤ 2 * (k * c) + c := Nat.add_le_add_right (Nat.mul_le_mul_left 2 h) c
      _ ≤ (k + 1) * (2 * c) := by
          rw [Nat.add_mul, Nat.mul_left_comm]
          omega

/-- The rounded quotient is the integer within half a unit of the exact one. -/
theorem nearest_eq_iff (hc : 0 < c) :
    nearest n c = k ↔ 2 * (k * c) < 2 * n + c ∧ 2 * n ≤ 2 * (k * c) + c := by
  have hbelow := two_mul_nearest_mul_lt (n := n) hc
  have habove := le_two_mul_nearest_mul (n := n) hc
  constructor
  · rintro rfl
    exact ⟨hbelow, habove⟩
  · rintro ⟨hlow, hhigh⟩
    have hle : ∀ {i j : Nat}, 2 * (i * c) < 2 * (j * c) + c + c → i ≤ j := by
      intro i j h
      apply Nat.le_of_lt_succ
      apply Nat.lt_of_mul_lt_mul_right (a := 2 * c)
      calc i * (2 * c) = 2 * (i * c) := by ring
        _ < 2 * (j * c) + c + c := h
        _ = (j + 1) * (2 * c) := by ring
    exact Nat.le_antisymm (hle (by omega)) (hle (by omega))

/-- Whole numbers come out as they are. -/
theorem nearest_add_mul (hc : 0 < c) : nearest (n + k * c) c = nearest n c + k := by
  rw [nearest, nearest, Nat.add_mul_div_right _ _ hc, Nat.add_mul_mod_self_right]
  omega

/-- More is not rounded to less. -/
theorem nearest_mono (h : n ≤ n') : nearest n c ≤ nearest n' c := by
  rcases Nat.eq_zero_or_pos c with rfl | hc
  · simp only [nearest, Nat.div_zero, Nat.mod_zero, Nat.zero_add]
    split_ifs <;> omega
  · apply Nat.le_of_lt_succ
    apply Nat.lt_of_mul_lt_mul_right (a := 2 * c)
    have hlt := two_mul_nearest_mul_lt (n := n) hc
    have hle := le_two_mul_nearest_mul (n := n') hc
    calc nearest n c * (2 * c) = 2 * (nearest n c * c) := by ring
      _ < 2 * n' + c := by omega
      _ ≤ 2 * (nearest n' c * c) + c + c := Nat.add_le_add_right hle c
      _ = (nearest n' c + 1) * (2 * c) := by ring

/-- A larger divisor leaves no more. -/
theorem nearest_anti (hc : 0 < c') (h : c' ≤ c) : nearest n c ≤ nearest n c' := by
  rcases Nat.eq_zero_or_pos (nearest n c) with hzero | hpos
  · exact hzero ▸ Nat.zero_le _
  · have hlt := two_mul_nearest_mul_lt (n := n) (hc.trans_le h)
    have hle := le_two_mul_nearest_mul (n := n) hc
    generalize nearest n c = k at hpos hlt
    -- By the larger divisor, all but a half of the quotient is below `n`; by the
    -- smaller one it is less.
    have hhalf : (2 * k - 1) * c' ≤ (2 * k - 1) * c := Nat.mul_le_mul_left _ h
    have hsplit : ∀ i, 2 * (k * i) = (2 * k - 1) * i + i := fun i => by
      rw [← Nat.succ_mul, ← Nat.mul_assoc]
      congr 1
      omega
    rw [hsplit] at hlt
    apply Nat.le_of_lt_succ
    apply Nat.lt_of_mul_lt_mul_right (a := 2 * c')
    calc k * (2 * c') = 2 * (k * c') := by ring
      _ < 2 * (nearest n c' * c') + c' + c' := by
          rw [hsplit]
          omega
      _ = (nearest n c' + 1) * (2 * c') := by ring

end Rounding
end Composable
