import Composable.Dex.StableSwap

/-!
# `Dex.Invariants` — when a pool has an invariant

`compute_d` iterates Newton's method from the sum of the reserves. A division of its loop is refused
if the divisor has several limbs and the dividend has not more, and the loop gives up after 255
rounds. `computeD_iff` says that an invariant is computed exactly when the iteration settles in time
and without such a division, and fits.

No amplification is safe from that. For reserves that are equal the condition is a bound
(`computeD_balanced`): a hundredfold amplification has no invariant between five million and a
hundred million units each. For a reserve from `2 ^ 31` on and a sum below `2 ^ 32` there is none
either, whatever the amplification (`computeD_short`).
-/

namespace Composable
namespace Dex

variable {base quote amp d y : Nat}

/-! ## Limbs -/

namespace BigUint

variable {a b n k : Nat}

theorem len_le_iff (hk : 0 < k) : len n ≤ k ↔ n < 2 ^ (32 * k) := by
  unfold len
  by_cases hn : n = 0
  · subst hn
    exact iff_of_true (by rw [Nat.log2_zero]; omega) (Nat.pow_pos (by decide))
  · rw [← Nat.log2_lt hn]
    omega

/-- `div` takes these numbers, or `div_unit` does. -/
def Divides (a b : Nat) : Prop := len b = 1 ∨ len b < len a

instance (a b : Nat) : Decidable (Divides a b) := inferInstanceAs (Decidable (_ ∨ _))

/-- A number of several limbs divides its square. -/
theorem divides_square (n : Nat) : Divides (n * n) n := by
  by_cases hone : len n = 1
  · exact .inl hone
  · right
    obtain ⟨k, hk⟩ : ∃ k, len n = k + 2 := ⟨len n - 2, by unfold len at hone ⊢; omega⟩
    have hlong : 2 ^ (32 * (k + 1)) ≤ n :=
      Nat.not_lt.mp fun hlt => absurd ((len_le_iff (Nat.succ_pos k)).mpr hlt) (by omega)
    have hsquare : 2 ^ (32 * (k + 2)) ≤ n * n :=
      calc
        2 ^ (32 * (k + 2)) ≤ 2 ^ (32 * (k + 1) + 32 * (k + 1)) :=
          Nat.pow_le_pow_right (by decide) (by omega)
        _ = 2 ^ (32 * (k + 1)) * 2 ^ (32 * (k + 1)) := Nat.pow_add ..
        _ ≤ n * n := Nat.mul_le_mul hlong hlong
    rw [hk, ← Nat.not_le, len_le_iff (by omega)]
    exact Nat.not_lt.mpr hsquare

/-- A number of two limbs divides none of two limbs. -/
theorem not_divides (hb : 2 ^ 32 ≤ b) (ha : a < 2 ^ 64) : ¬ Divides a b := by
  have hdivisor : ¬ len b ≤ 1 := fun h => absurd ((len_le_iff Nat.one_pos).mp h) (Nat.not_lt.mpr hb)
  have hdividend : len a ≤ 2 := (len_le_iff Nat.two_pos).mpr ha
  rintro (hone | hlong)
  · exact hdivisor hone.le
  · omega

end BigUint

open BigUint (Divides)

theorem safeDiv_ok_iff {a b q : Nat} : safeDiv a b = .ok q ↔ Divides a b ∧ q = a / max b 1 := by
  unfold safeDiv Divides
  by_cases hone : BigUint.len b = 1
  · rw [if_pos hone, Except.ok.injEq, and_iff_right (.inl hone)]
    exact eq_comm
  · have htwo : 2 ≤ BigUint.len b := by
      unfold BigUint.len at hone ⊢
      omega
    rw [if_neg hone, BigUint.div]
    by_cases hlong : BigUint.len b < BigUint.len a
    · have hpos : max b 1 = b := max_eq_left (Nat.pos_of_ne_zero fun hzero => hone (hzero ▸ rfl))
      rw [if_pos ⟨htwo, hlong⟩, hpos, and_iff_right (.inr hlong)]
      show Except.ok _ = Except.ok q ↔ _
      rw [Except.ok.injEq]
      exact eq_comm
    · rw [if_neg fun h => hlong h.2]
      refine iff_of_false ?_ fun h => absurd h.1 (not_or.mpr ⟨hone, hlong⟩)
      intro hok
      cases hok

/-! ## The iteration -/

/-- `D ^ 3 / (4 * x * y)`, rounded down twice. -/
def cubic (base quote d : Nat) : Nat := d * d / (2 * base) * d / (2 * quote)

/-- One round, over the unbounded integers. -/
def newton (amp base quote d : Nat) : Nat :=
  (4 * amp * (base + quote) + 2 * cubic base quote d) * d /
    ((4 * amp - 1) * d + 3 * cubic base quote d)

/-- The three divisions of a round are taken. -/
def Defined (amp base quote d : Nat) : Prop :=
  Divides (d * d) (2 * base) ∧ Divides (d * d / (2 * base) * d) (2 * quote) ∧
    Divides ((4 * amp * (base + quote) + 2 * cubic base quote d) * d)
      ((4 * amp - 1) * d + 3 * cubic base quote d)

instance (amp base quote d : Nat) : Decidable (Defined amp base quote d) :=
  inferInstanceAs (Decidable (_ ∧ _ ∧ _))

/-- There is an amplification, and the iteration from the sum of the reserves settles within 255
rounds, without a division that is not taken, at a number that fits. -/
def Computable (amp base quote : Nat) : Prop :=
  0 < amp ∧ ∃ k < 255, SettlesAt (newton amp base quote) (Defined amp base quote) (base + quote) k ∧
    (newton amp base quote)^[k + 1] (base + quote) ≤ u128Max

/-- A round of the code is one over the integers, as long as its divisions are taken. -/
theorem nextD_ok_iff (hamp : 0 < amp) (hbase : 0 < base) (hquote : 0 < quote) :
    nextD (amp * 2 * 2) (amp * 2 * 2 - 1) (base + quote) (base * 2) (quote * 2) d = .ok y ↔
      Defined amp base quote d ∧ y = newton amp base quote d := by
  have hann : amp * 2 * 2 = 4 * amp := by ring
  have hbase' : max (2 * base) 1 = 2 * base := max_eq_left (by omega)
  have hquote' : max (2 * quote) 1 = 2 * quote := max_eq_left (by omega)
  -- Only at nothing is the divisor nothing, and so is the dividend then.
  have hlast : (4 * amp * (base + quote) + 2 * cubic base quote d) * d /
      max ((4 * amp - 1) * d + 3 * cubic base quote d) 1 = newton amp base quote d := by
    unfold newton
    rcases Nat.eq_zero_or_pos d with hzero | hpos
    · rw [hzero, Nat.mul_zero, Nat.zero_div, Nat.zero_div]
    · have hdivisor : 0 < (4 * amp - 1) * d := Nat.mul_pos (by omega) hpos
      rw [max_eq_left (by omega)]
  have hfirst : (2 + 1) * cubic base quote d = 3 * cubic base quote d := rfl
  rw [Nat.mul_comm base, Nat.mul_comm quote, hann]
  simp only [nextD, exceptBind_ok, safeDiv_ok_iff, hbase', hquote']
  rw [Defined, ← hlast]
  constructor
  · rintro ⟨_, ⟨h₁, rfl⟩, _, ⟨h₂, rfl⟩, h₃, rfl⟩
    rw [Nat.mul_comm d (4 * amp - 1), Nat.mul_comm _ 2] at h₃ ⊢
    exact ⟨⟨h₁, h₂, h₃⟩, rfl⟩
  · rintro ⟨⟨h₁, h₂, h₃⟩, rfl⟩
    refine ⟨_, ⟨h₁, rfl⟩, _, ⟨h₂, rfl⟩, ?_⟩
    rw [Nat.mul_comm d (4 * amp - 1), Nat.mul_comm _ 2]
    exact ⟨h₃, rfl⟩

/-- **An invariant is computed exactly when the iteration settles.** -/
theorem computeD_iff (hbase : 0 < base) (hquote : 0 < quote) :
    (∃ d, computeD base quote amp = .ok d) ↔ Computable amp base quote := by
  have hsum : base + quote ≠ 0 := by omega
  unfold computeD Computable
  simp only [if_neg hsum, exceptBind_ok, exceptMapError_ok, Fixed.checkedSub_ok, BigUint.toU128,
    Fixed.checked_ok]
  by_cases hamp : 0 < amp
  · have hann : 1 ≤ amp * 2 * 2 := by omega
    have hround := fun d y => nextD_ok_iff (d := d) (y := y) hamp hbase hquote
    constructor
    · rintro ⟨d, _, ⟨-, rfl⟩, settled, hsettled, hfits, rfl⟩
      obtain ⟨k, hk, hat, rfl⟩ := (converge_ok_iff hround).mp hsettled
      exact ⟨hamp, k, hk, hat, hfits⟩
    · rintro ⟨-, k, hk, hat, hfits⟩
      exact ⟨_, _, ⟨hann, rfl⟩, _, (converge_ok_iff hround).mpr ⟨k, hk, hat, rfl⟩, hfits, rfl⟩
  · refine iff_of_false ?_ fun h => hamp h.1
    rintro ⟨_, _, ⟨hann, -⟩, -⟩
    omega

/-! ## Pools without an invariant -/

/-- A large base reserve in a small pool: the first division is not taken. -/
theorem computeD_short (hbase : 2 ^ 31 ≤ base) (hquote : 0 < quote) (hsum : base + quote < 2 ^ 32) :
    ¬ ∃ d, computeD base quote amp = .ok d := by
  rw [computeD_iff (by omega) hquote]
  rintro ⟨-, k, -, ⟨hdefined, -, -⟩, -⟩
  have hfirst : Divides ((base + quote) * (base + quote)) (2 * base) := (hdefined 0 (Nat.zero_le k)).1
  have hsquare : (base + quote) * (base + quote) < 2 ^ 32 * 2 ^ 32 := Nat.mul_lt_mul'' hsum hsum
  exact BigUint.not_divides (by omega) (by omega) hfirst

variable {x : Nat}

/-- With equal reserves the sum is the invariant at once. -/
theorem cubic_balanced (hx : 0 < x) : cubic x x (x + x) = 2 * x := by
  have hdouble : x + x = 2 * x := (Nat.two_mul x).symm
  have hpos : 0 < 2 * x := by omega
  rw [cubic, hdouble, Nat.mul_div_cancel _ hpos, Nat.mul_div_cancel _ hpos]

theorem dividend_balanced (amp x : Nat) :
    (4 * amp * (x + x) + 2 * (2 * x)) * (x + x) = (4 * amp + 2) * (2 * x) * (2 * x) := by
  ring

theorem divisor_balanced (hamp : 0 < amp) (x : Nat) :
    (4 * amp - 1) * (x + x) + 3 * (2 * x) = (4 * amp + 2) * (2 * x) := by
  have hann : 4 * amp + 2 = 4 * amp - 1 + 3 := by omega
  rw [hann]
  ring

theorem newton_balanced (hamp : 0 < amp) (hx : 0 < x) : newton amp x x (x + x) = x + x := by
  rw [newton, cubic_balanced hx, dividend_balanced, divisor_balanced hamp,
    Nat.mul_div_cancel_left _ (Nat.mul_pos (by omega) (by omega))]
  exact Nat.two_mul x

/-- **Equal reserves have an invariant exactly when the one division takes its numbers**, of which
one is longer than the other by the invariant itself. -/
theorem computeD_balanced (hx : 0 < x) (hfits : x + x ≤ u128Max) : (∃ d, computeD x x amp = .ok d) ↔
    0 < amp ∧ Divides ((4 * amp + 2) * (2 * x) * (2 * x)) ((4 * amp + 2) * (2 * x)) := by
  rw [computeD_iff hx hx]
  refine and_congr_right fun hamp => ?_
  have hfixed := newton_balanced hamp hx
  have hdouble : x + x = 2 * x := (Nat.two_mul x).symm
  have hpos : 0 < 2 * x := by omega
  have hdefined : Defined amp x x (x + x) ↔
      Divides ((4 * amp + 2) * (2 * x) * (2 * x)) ((4 * amp + 2) * (2 * x)) := by
    rw [Defined, cubic_balanced hx, dividend_balanced, divisor_balanced hamp, hdouble,
      Nat.mul_div_cancel _ hpos]
    exact ⟨fun h => h.2.2, fun h => ⟨BigUint.divides_square _, BigUint.divides_square _, h⟩⟩
  rw [← hdefined]
  constructor
  · rintro ⟨k, -, ⟨hall, -, -⟩, -⟩
    exact hall 0 (Nat.zero_le k)
  · intro h
    refine ⟨0, by decide, ⟨fun j hj => ?_, fun j hj => absurd hj (Nat.not_lt_zero j), ?_⟩, ?_⟩
    · obtain rfl := Nat.le_zero.mp hj
      exact h
    · show Near (x + x) (newton amp x x (x + x))
      rw [hfixed]
      unfold Near
      omega
    · show newton amp x x (x + x) ≤ u128Max
      rw [hfixed]
      exact hfits

/-- **When an invariant can be computed**: exactly when the iteration settles; with equal reserves
exactly when one division takes its numbers; and with no amplification for all reserves. -/
theorem computeD_computable (amp : Nat) :
    (∀ base quote, 0 < base → 0 < quote →
      ((∃ d, computeD base quote amp = .ok d) ↔ Computable amp base quote)) ∧
    (∀ x, 0 < x → x + x ≤ u128Max → ((∃ d, computeD x x amp = .ok d) ↔
      0 < amp ∧ Divides ((4 * amp + 2) * (2 * x) * (2 * x)) ((4 * amp + 2) * (2 * x)))) ∧
    ¬ ∀ base quote, 0 < base → 0 < quote → base + quote ≤ u128Max →
      ∃ d, computeD base quote amp = .ok d := by
  refine ⟨fun base quote hbase hquote => computeD_iff hbase hquote,
    fun x hx hfits => computeD_balanced hx hfits, fun hall => ?_⟩
  -- Reserves of `2 ^ 31` and one fail at the first division, at any amplification.
  have hcomputed := hall (2 ^ 31) 1 (by decide) (by decide) (by decide)
  exact computeD_short (by decide) (by decide) (by decide) hcomputed

/-- Twenty units of each asset are an invariant of forty. -/
example : computeD 20 20 100 = .ok 40 := by decide

/-- **Ten million units of each asset** have no invariant in a pool that is created with an
amplification of a hundred. -/
theorem computeD_stuck : ¬ ∀ amp base quote : Nat, (∃ (s s' : State Nat Nat Nat) (id : Nat),
    Curve.doCreatePool sample 8 ⟨1, 2⟩ amp 0 0 s = (.ok id, s')) → 0 < base → 0 < quote →
      base + quote ≤ u128Max →
      ∃ d, computeD base quote amp = .ok d := by
  intro hall
  have hcreated : ∃ (s s' : State Nat Nat Nat) (id : Nat),
      Curve.doCreatePool sample 8 ⟨1, 2⟩ 100 0 0 s = (.ok id, s') :=
        ⟨State.genesis (Ledger.ofList []) 8, _, 0, rfl⟩
  obtain ⟨d, hd⟩ := hall 100 (10 ^ 7) (10 ^ 7) hcreated (by decide) (by decide) (by decide)
  have hstuck : computeD (10 ^ 7) (10 ^ 7) 100 = .error (.arithmetic .overflow) := by decide
  rw [hstuck] at hd
  cases hd

end Dex
end Composable
