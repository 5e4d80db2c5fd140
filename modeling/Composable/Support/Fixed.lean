import Mathlib.Algebra.Order.Floor.Div
import Mathlib.Algebra.Order.Ring.Nat
import Mathlib.Tactic.Ring
import Composable.Support.Call
import Composable.Support.Rounding

/-!
# `Support.Fixed` — bounded unsigned arithmetic

Amounts are natural numbers below `2 ^ 128`. Checked operations return the error of the arithmetic
traits; saturating ones stop at the bound.

`FixedU128`, the `PerThing`s and `multiply_by_rational` are those of `sp-arithmetic` 4.0.0, which
the lock file pins: a product within 128 bits is divided as it is, rounded down; a larger one is
divided as a big number, and then rounded to the nearest unless the divisor is a single limb of 32
bits. `quotient` is the value without the bound, and its lemmas say what a share computation can
rely on: it lies between the integers around the exact quotient, and grows with the product.
-/

namespace Composable

/-- `u128::MAX`. -/
def u128Max : Nat := 2 ^ 128 - 1

/-- `u64::MAX`. -/
def u64Max : Nat := 2 ^ 64 - 1

/-- `u32::MAX`. -/
def u32Max : Nat := 2 ^ 32 - 1

/-- Inversion of a computation that can fail. -/
theorem exceptBind_ok {ε α β : Type} {x : Except ε α} {f : α → Except ε β} {b : β} :
    (x >>= f) = .ok b ↔ ∃ a, x = .ok a ∧ f a = .ok b := by
  cases x with
  | error e => exact ⟨nofun, nofun⟩
  | ok a =>
      constructor
      · intro h
        exact ⟨a, rfl, h⟩
      · rintro ⟨_, ha, h⟩
        cases ha
        exact h

/-- A computation fails with the first of its errors. -/
theorem exceptBind_error {ε α β : Type} {x : Except ε α} {f : α → Except ε β} {e : ε} :
    (x >>= f) = .error e ↔ x = .error e ∨ ∃ a, x = .ok a ∧ f a = .error e := by
  cases x with
  | error e' =>
      constructor
      · intro h
        exact .inl (congrArg _ (Except.error.inj h))
      · rintro (h | ⟨_, ha, -⟩)
        · exact congrArg _ (Except.error.inj h)
        · cases ha
  | ok a =>
      constructor
      · intro h
        exact .inr ⟨a, rfl, h⟩
      · rintro (h | ⟨_, ha, h⟩)
        · cases h
        · cases ha
          exact h

/-- A result with its error translated. -/
theorem exceptMapError_ok {ε ε' α : Type} {x : Except ε α} {f : ε → ε'} {a : α} :
    x.mapError f = .ok a ↔ x = .ok a := by
  cases x with
  | error e => exact ⟨nofun, nofun⟩
  | ok b => exact ⟨fun h => congrArg _ (Except.ok.inj h), fun h => congrArg _ (Except.ok.inj h)⟩

namespace Fixed

/-- The value, if it fits into 128 bits. -/
def checked (n : Nat) : Except ArithmeticError Nat :=
  if n ≤ u128Max then .ok n else .error .overflow

theorem checked_ok {n m : Nat} : checked n = .ok m ↔ n ≤ u128Max ∧ m = n := by
  unfold checked
  split
  · simp only [Except.ok.injEq, ‹n ≤ u128Max›, true_and]
    exact eq_comm
  · simp [‹¬n ≤ u128Max›]

/-- `x?` on a checked value, with every error mapped to an overflow. -/
theorem checked_bind {α : Type} (n : Nat) (f : Nat → Except ArithmeticError α) :
    ((checked n).mapError fun _ => ArithmeticError.overflow) >>= f =
      if n ≤ u128Max then f n else .error .overflow := by
  unfold checked
  split
  · rfl
  · rfl

/-- `checked_sub` / `safe_sub`. -/
def checkedSub (n m : Nat) : Except ArithmeticError Nat :=
  if m ≤ n then .ok (n - m) else .error .underflow

theorem checkedSub_ok {n m d : Nat} : checkedSub n m = .ok d ↔ m ≤ n ∧ d = n - m := by
  unfold checkedSub
  split
  · simp only [Except.ok.injEq, ‹m ≤ n›, true_and]
    exact eq_comm
  · simp [‹¬m ≤ n›]

/-- `saturating_add` and `saturating_mul` of a value computed exactly. -/
def saturated (n : Nat) : Nat := min n u128Max

/-! ## `multiply_by_rational` -/

/-- The division of a product beyond 128 bits, by one limb of 32 bits or by more. -/
def wideQuotient (n c : Nat) : Nat := if c < 2 ^ 32 then n / c else Rounding.nearest n c

/-- `multiply_by_rational(a, b, c)`, with `c = 0` read as `1`. A factor that `c`
    divides is divided first. -/
def multiplyByRational (a b c : Nat) : Except ArithmeticError Nat :=
  let c := max c 1
  let (a, b, c) := if a % c = 0 then (a / c, b, 1) else if b % c = 0 then (a, b / c, 1) else (a, b, c)
  if a * b ≤ u128Max then .ok (a * b / c) else checked (wideQuotient (a * b) c)

/-- What `multiply_by_rational` computes, whether it fits or not. -/
def quotient (a b c : Nat) : Nat := if a * b ≤ u128Max then a * b / c else wideQuotient (a * b) c

section Quotient

variable {a a' b b' c m k n : Nat}

theorem div_le_wideQuotient : n / c ≤ wideQuotient n c := by
  unfold wideQuotient
  split
  · exact Nat.le_refl _
  · exact Rounding.div_le_nearest

theorem wideQuotient_le (h : n ≤ k * c) : wideQuotient n c ≤ k := by
  unfold wideQuotient
  split
  · exact Nat.div_le_of_le_mul (Nat.mul_comm k c ▸ h)
  · exact Rounding.nearest_le h

/-- A product within 128 bits is rounded down. -/
theorem quotient_eq_div (h : a * b ≤ u128Max) : quotient a b c = a * b / c := if_pos h

theorem div_le_quotient : a * b / c ≤ quotient a b c := by
  unfold quotient
  split
  · exact Nat.le_refl _
  · exact div_le_wideQuotient

/-- An integer that is at least the exact quotient is at least the computed one. -/
theorem quotient_le (h : a * b ≤ k * c) : quotient a b c ≤ k := by
  unfold quotient
  split
  · exact Nat.div_le_of_le_mul (Nat.mul_comm k c ▸ h)
  · exact wideQuotient_le h

/-- An integer that is at most the exact quotient is at most the computed one. -/
theorem le_quotient (hc : 0 < c) (h : k * c ≤ a * b) : k ≤ quotient a b c :=
  ((Nat.le_div_iff_mul_le hc).mpr h).trans div_le_quotient

/-- A whole quotient is exact. -/
theorem quotient_eq (hc : 0 < c) (h : a * b = k * c) : quotient a b c = k :=
  Nat.le_antisymm (quotient_le h.le) (le_quotient hc h.ge)

theorem quotient_self (hc : 0 < c) : quotient c b c = b := quotient_eq hc (Nat.mul_comm c b)

@[simp] theorem zero_quotient : quotient 0 b c = 0 := by simp [quotient]

@[simp] theorem quotient_zero : quotient a 0 c = 0 := by simp [quotient]

/-- What is computed exceeds the exact quotient by less than a half. -/
theorem two_mul_quotient_mul_lt (hc : 0 < c) : 2 * (quotient a b c * c) < 2 * (a * b) + c := by
  have hfloor : ∀ n, 2 * (n / c * c) < 2 * n + c := fun n => by
    have := Nat.div_mul_le_self n c
    omega
  unfold quotient wideQuotient
  split
  · exact hfloor _
  · split
    · exact hfloor _
    · exact Rounding.two_mul_nearest_mul_lt hc

/-- The exact quotient exceeds what is computed by less than one. -/
theorem lt_quotient_add_one_mul (hc : 0 < c) : a * b < (quotient a b c + 1) * c :=
  Nat.lt_mul_of_div_lt (Nat.lt_succ_of_le div_le_quotient) hc

/-- The computed quotient grows with the product. -/
theorem quotient_mono (h : a * b ≤ a' * b') : quotient a b c ≤ quotient a' b' c := by
  by_cases hfits : a * b ≤ u128Max
  · rw [quotient_eq_div hfits]
    exact (Nat.div_le_div_right h).trans div_le_quotient
  · have hfits' : ¬ a' * b' ≤ u128Max := fun hle => hfits (h.trans hle)
    rw [quotient, quotient, if_neg hfits, if_neg hfits']
    unfold wideQuotient
    split
    · exact Nat.div_le_div_right h
    · exact Rounding.nearest_mono h

/-- The product is rounded down: it is within 128 bits, or the divisor is a single limb. -/
def RoundedDown (a b c : Nat) : Prop := a * b ≤ u128Max ∨ c < 2 ^ 32

instance (a b c : Nat) : Decidable (RoundedDown a b c) := inferInstanceAs (Decidable (_ ∨ _))

theorem RoundedDown.eq_div (h : RoundedDown a b c) : quotient a b c = a * b / c := by
  unfold quotient wideQuotient
  rcases h with hfits | hlimb
  · rw [if_pos hfits]
  · rw [if_pos hlimb, ite_self]

theorem quotient_eq_nearest (h : ¬ RoundedDown a b c) :
    quotient a b c = Rounding.nearest (a * b) c := by
  obtain ⟨hfits, hlimb⟩ := not_or.mp h
  rw [quotient, wideQuotient, if_neg hfits, if_neg hlimb]

theorem quotient_le_nearest : quotient a b c ≤ Rounding.nearest (a * b) c := by
  by_cases h : RoundedDown a b c
  · rw [h.eq_div]
    exact Rounding.div_le_nearest
  · rw [quotient_eq_nearest h]

/-- What is added and worth `n` adds `n`. -/
theorem quotient_add_le_quotient (hc : 0 < c) (h : n * c ≤ a' * b) :
    quotient a b c + n ≤ quotient (a + a') b c := by
  have hsum : a * b + n * c ≤ (a + a') * b := by
    rw [Nat.add_mul]
    exact Nat.add_le_add_left h _
  by_cases hdown : RoundedDown (a + a') b c
  · have hfirst : RoundedDown a b c :=
      hdown.imp_left (Nat.mul_le_mul_right b (Nat.le_add_right a a')).trans
    rw [hdown.eq_div, hfirst.eq_div, ← Nat.add_mul_div_right _ _ hc]
    exact Nat.div_le_div_right hsum
  · rw [quotient_eq_nearest hdown]
    calc quotient a b c + n ≤ Rounding.nearest (a * b) c + n :=
      Nat.add_le_add_right quotient_le_nearest n
      _ = Rounding.nearest (a * b + n * c) c := (Rounding.nearest_add_mul hc).symm
      _ ≤ _ := Rounding.nearest_mono hsum

/-- The computed quotient is the integer below the exact one, or the one next to it. -/
theorem quotient_eq_iff (hc : 0 < c) : quotient a b c = k ↔
    if RoundedDown a b c then k * c ≤ a * b ∧ a * b < (k + 1) * c
    else 2 * (k * c) < 2 * (a * b) + c ∧ 2 * (a * b) ≤ 2 * (k * c) + c := by
  split
  next h =>
      rw [h.eq_div, ← Nat.le_div_iff_mul_le hc, ← Nat.div_lt_iff_lt_mul hc, Nat.lt_succ_iff]
      exact ⟨fun heq => ⟨heq.ge, heq.le⟩, fun hboth => Nat.le_antisymm hboth.2 hboth.1⟩
  next h => rw [quotient_eq_nearest h, Rounding.nearest_eq_iff hc]

/-- The computed quotient is below an integer if the exact one is, by a half where it is
    rounded to the nearest. -/
theorem quotient_lt_iff (hc : 0 < c) : quotient a b c < k ↔
    a * b < k * c ∧ (RoundedDown a b c ∨ 2 * (a * b) + c ≤ 2 * (k * c)) := by
  constructor
  · intro hlt
    have hexact : a * b < k * c := (lt_quotient_add_one_mul hc).trans_le (Nat.mul_le_mul_right c hlt)
    refine ⟨hexact, or_iff_not_imp_left.mpr fun hwide => ?_⟩
    have hnear := (quotient_eq_iff (k := quotient a b c) hc).mp rfl
    rw [if_neg hwide] at hnear
    have hstep : (quotient a b c + 1) * c ≤ k * c := Nat.mul_le_mul_right c hlt
    rw [Nat.succ_mul] at hstep
    omega
  · rintro ⟨hexact, hdown | hhalf⟩
    · rw [hdown.eq_div]
      exact Nat.div_lt_of_lt_mul (Nat.mul_comm k c ▸ hexact)
    · have hnear := two_mul_quotient_mul_lt (a := a) (b := b) hc
      have hlt : 2 * (quotient a b c * c) < 2 * (k * c) := by omega
      exact Nat.lt_of_mul_lt_mul_right (Nat.lt_of_mul_lt_mul_left hlt)

/-- A larger divisor leaves no more, unless the smaller one is a single limb. -/
theorem quotient_anti {c' : Nat} (hlimb : 2 ^ 32 ≤ c') (h : c' ≤ c) :
    quotient a b c ≤ quotient a b c' := by
  have hpos : 0 < c' := Nat.lt_of_lt_of_le (by decide) hlimb
  unfold quotient wideQuotient
  split
  · exact Nat.div_le_div_left h hpos
  · rw [if_neg (by omega), if_neg (by omega)]
    exact Rounding.nearest_anti hpos h

/-- What is at most a product over a factor, leaves the factor at least when it divides the product.
    Where the first quotient is rounded up, the factor has to be no larger than the second. -/
theorem le_quotient_of_le_quotient {k : Nat} (hlimb : 2 ^ 32 ≤ k)
    (hround : RoundedDown a b c ∨ c * c ≤ a * b) (h : k ≤ quotient a b c) : c ≤ quotient a b k := by
  have hk : 0 < k := Nat.lt_of_lt_of_le (by decide) hlimb
  rcases Nat.eq_zero_or_pos c with rfl | hc
  · exact Nat.zero_le _
  by_cases hexact : c * k ≤ a * b
  · exact le_quotient hk hexact
  · have hwide : ¬ RoundedDown a b c := by
      intro hdown
      rw [hdown.eq_div, Nat.le_div_iff_mul_le hc, Nat.mul_comm] at h
      exact hexact h
    have hsquare := hround.resolve_left hwide
    have hless : c ≤ k := (Nat.lt_of_mul_lt_mul_left (hsquare.trans_lt (Nat.lt_of_not_le hexact))).le
    have hwide' : ¬ RoundedDown a b k := fun hdown => hwide (.inl (hdown.resolve_right (by omega)))
    -- Both are rounded to the nearest: half of the factor is at most half of what it leaves.
    have hup := two_mul_quotient_mul_lt (a := a) (b := b) hc
    have hdown := Rounding.le_two_mul_nearest_mul (n := a * b) hk
    rw [← quotient_eq_nearest hwide'] at hdown
    have hproduct : k * c ≤ quotient a b c * c := Nat.mul_le_mul_right c h
    have hlt : 2 * (c * k) < 2 * ((quotient a b k + 1) * k) := by
      rw [Nat.add_mul, Nat.one_mul, Nat.mul_comm c]
      omega
    exact Nat.le_of_lt_succ (Nat.lt_of_mul_lt_mul_right (Nat.lt_of_mul_lt_mul_left hlt))

/-- Two quotients exceed that of the sum by one at most. -/
theorem quotient_add_quotient_le : quotient a b c + quotient a' b c ≤ quotient (a + a') b c + 1 := by
  rcases Nat.eq_zero_or_pos c with rfl | hc
  · simp [quotient, wideQuotient]
  · have hfirst := two_mul_quotient_mul_lt (a := a) (b := b) hc
    have hsecond := two_mul_quotient_mul_lt (a := a') (b := b) hc
    have hsum := lt_quotient_add_one_mul (a := a + a') (b := b) hc
    rw [Nat.add_mul a a' b] at hsum
    have hlt : (quotient a b c + quotient a' b c) * c < (quotient (a + a') b c + 2) * c := by
      rw [Nat.succ_mul] at hsum
      rw [Nat.add_mul, Nat.add_mul]
      omega
    exact Nat.lt_succ_iff.mp (Nat.lt_of_mul_lt_mul_right hlt)

/-- They lack two at most. -/
theorem quotient_add_le : quotient (a + a') b c ≤ quotient a b c + quotient a' b c + 2 := by
  rcases Nat.eq_zero_or_pos c with rfl | hc
  · simp [quotient, wideQuotient]
  · have hfirst := lt_quotient_add_one_mul (a := a) (b := b) hc
    have hsecond := lt_quotient_add_one_mul (a := a') (b := b) hc
    have hsum := two_mul_quotient_mul_lt (a := a + a') (b := b) hc
    rw [Nat.add_mul a a' b] at hsum
    have hlt : quotient (a + a') b c * c < (quotient a b c + quotient a' b c + 3) * c := by
      rw [Nat.succ_mul] at hfirst hsecond
      rw [Nat.add_mul, Nat.add_mul]
      omega
    exact Nat.lt_succ_iff.mp (Nat.lt_of_mul_lt_mul_right hlt)

/-- Dividing a factor first changes nothing but the way. -/
theorem multiplyByRational_eq : multiplyByRational a b c = checked (quotient a b (max c 1)) := by
  have hc : 0 < max c 1 := Nat.lt_of_lt_of_le Nat.one_pos (Nat.le_max_right c 1)
  have hone : ∀ n, wideQuotient n 1 = n := fun n => by simp [wideQuotient]
  have hwhole :
      ∀ n m, (if n * m ≤ u128Max then Except.ok (n * m / 1) else checked (wideQuotient (n * m) 1)) =
      checked (n * m) := by
    intro n m
    rw [hone, Nat.div_one, checked]
    split <;> rfl
  unfold multiplyByRational
  by_cases ha : a % max c 1 = 0
  · simp only [if_pos ha]
    rw [hwhole, quotient_eq hc]
    rw [Nat.mul_right_comm, Nat.div_mul_cancel (Nat.dvd_of_mod_eq_zero ha)]
  · by_cases hb : b % max c 1 = 0
    · simp only [if_neg ha, if_pos hb]
      rw [hwhole, quotient_eq hc]
      rw [Nat.mul_assoc, Nat.div_mul_cancel (Nat.dvd_of_mod_eq_zero hb)]
    · simp only [if_neg ha, if_neg hb]
      unfold quotient
      by_cases hfits : a * b ≤ u128Max
      · rw [if_pos hfits, if_pos hfits, checked, if_pos ((Nat.div_le_self _ _).trans hfits)]
      · rw [if_neg hfits, if_neg hfits]

theorem multiplyByRational_ok (hc : 0 < c) :
    multiplyByRational a b c = .ok m ↔ quotient a b c ≤ u128Max ∧ m = quotient a b c := by
  rw [multiplyByRational_eq, checked_ok, max_eq_left (Nat.one_le_iff_ne_zero.mpr hc.ne')]

end Quotient

/-! ## `FixedU128` -/

/-- `FixedU128::DIV`: the inner value of one. -/
def div : Nat := 10 ^ 18

/-- `checked_from_integer`. -/
def fromInteger (n : Nat) : Option Nat := if n * div ≤ u128Max then some (n * div) else none

/-- `checked_from_integer(n).ok_or(e)?`. -/
theorem fromInteger_elim_ok {n m : Nat} {e : ArithmeticError} :
    (fromInteger n).elim (Except.error e) Except.ok = .ok m ↔ n * div ≤ u128Max ∧ m = n * div := by
  unfold fromInteger
  by_cases hfits : n * div ≤ u128Max
  · rw [if_pos hfits]
    show Except.ok _ = Except.ok m ↔ _
    rw [Except.ok.injEq, and_iff_right hfits, eq_comm]
  · rw [if_neg hfits]
    exact ⟨nofun, fun h => absurd h.1 hfits⟩

/-- `saturating_from_integer`. -/
def ofInteger (n : Nat) : Nat := saturated (n * div)

theorem ofInteger_eq {n : Nat} (h : n * div ≤ u128Max) : ofInteger n = n * div := Nat.min_eq_left h

/-- `safe_add` of fixed-point numbers, on inner values. -/
def safeAdd (a b : Nat) : Except ArithmeticError Nat := checked (a + b)

/-- `safe_mul` of fixed-point numbers, on inner values. -/
def safeMul (a b : Nat) : Except ArithmeticError Nat := multiplyByRational a b div

/-- `safe_div` of fixed-point numbers, on inner values. -/
def safeDiv (a b : Nat) : Except ArithmeticError Nat :=
  if b = 0 then .error .divisionByZero else multiplyByRational a div b

theorem safeMul_ok {a b p : Nat} :
    safeMul a b = .ok p ↔ quotient a b div ≤ u128Max ∧ p = quotient a b div :=
  multiplyByRational_ok (by decide)

theorem safeDiv_ok {a b q : Nat} :
    safeDiv a b = .ok q ↔ 0 < b ∧ quotient a div b ≤ u128Max ∧ q = quotient a div b := by
  unfold safeDiv
  by_cases hb : b = 0
  · rw [if_pos hb, hb]
    exact ⟨nofun, fun h => absurd h.1 (Nat.lt_irrefl 0)⟩
  · have hpos : 0 < b := Nat.pos_of_ne_zero hb
    rw [if_neg hb, multiplyByRational_ok hpos]
    exact ⟨fun h => ⟨hpos, h⟩, And.right⟩

/-- `checked_mul_int(n)` into an integer type with greatest value `bound`. -/
def mulInt (a n bound : Nat) : Option Nat :=
  if quotient a n div ≤ bound then some (quotient a n div) else none

/-- The whole units of a fixed-point number. -/
theorem mulInt_one {a n bound : Nat} (ha : a ≤ u128Max) (h : mulInt a 1 bound = some n) :
    n = a / div := by
  have hfits : a * 1 ≤ u128Max := by rwa [Nat.mul_one]
  rw [mulInt, quotient_eq_div hfits, Nat.mul_one] at h
  split at h
  next => exact (Option.some.inj h).symm
  next => cases h

theorem mulInt_le {a n m bound : Nat} (h : mulInt a n bound = some m) : m ≤ bound := by
  unfold mulInt at h
  split at h
  next hle => exact Option.some.inj h ▸ hle
  next => cases h

/-- `saturating_mul` of fixed-point numbers, on inner values. -/
def saturatingMul (a b : Nat) : Nat := saturated (quotient a b div)

/-- `saturating_from_rational(n, d)`, for a denominator that is not zero. -/
def saturatingFromRational (n d : Nat) : Nat := saturated (quotient n div d)

/-- `saturating_mul_int(n)` into `u128`. -/
def saturatingMulInt (a n : Nat) : Nat := saturated (quotient a n div)

theorem saturated_le {n : Nat} : saturated n ≤ u128Max := Nat.min_le_right _ _

theorem saturated_mono {n m : Nat} (h : n ≤ m) : saturated n ≤ saturated m := min_le_min_right _ h

theorem saturated_eq {n : Nat} (h : n ≤ u128Max) : saturated n = n := Nat.min_eq_left h

theorem saturatingMul_le {a b : Nat} : saturatingMul a b ≤ u128Max := saturated_le

@[simp] theorem saturated_zero : saturated 0 = 0 := rfl

@[simp] theorem zero_saturatingMul {b : Nat} : saturatingMul 0 b = 0 := by simp [saturatingMul]

@[simp] theorem saturatingMul_zero {a : Nat} : saturatingMul a 0 = 0 := by simp [saturatingMul]

theorem saturatingMul_mono {a a' b b' : Nat} (ha : a ≤ a') (hb : b ≤ b') :
    saturatingMul a b ≤ saturatingMul a' b' :=
  saturated_mono (quotient_mono (Nat.mul_le_mul ha hb))

/-! ## `PerThing` -/

/-- `Permill::ACCURACY`: the parts of one. -/
def permill : Nat := 10 ^ 6

/-- The loop of `PerThing::pow`: one bit of the exponent a turn. -/
def powLoop (one : Nat) : (turns result base exponent : Nat) → Nat
  | 0, result, _, _ => result
  | turns + 1, result, base, exponent =>
      if exponent = 0 then result
      else powLoop one turns (if exponent % 2 = 1 then result * base / one else result)
        (base * base / one)
        (exponent / 2)

/-- `PerThing::saturating_pow`, of `cut` parts out of `one`: by squaring, each product rounded down
    to a part. The exponent is spent before as many turns. -/
def perThingPow (one cut n : Nat) : Nat := if n = 0 ∨ cut = one then one else powLoop one n one cut n

/-- A part of what is at most one is at most one. -/
theorem part_le_one {one a b : Nat} (ha : a ≤ one) (hb : b ≤ one) : a * b / one ≤ one :=
  Nat.div_le_of_le_mul (Nat.mul_le_mul ha hb)

theorem powLoop_le {one turns result base exponent : Nat} (hresult : result ≤ one)
    (hbase : base ≤ one) : powLoop one turns result base exponent ≤ one := by
  induction turns generalizing result base exponent with
  | zero => exact hresult
  | succ turns ih =>
      simp only [powLoop]
      split
      · exact hresult
      · refine ih ?_ (part_le_one hbase hbase)
        split
        · exact part_le_one hresult hbase
        · exact hresult

/-- A power of a part of one is at most one. -/
theorem perThingPow_le {one cut n : Nat} (h : cut ≤ one) : perThingPow one cut n ≤ one := by
  unfold perThingPow
  split
  · exact Nat.le_refl _
  · exact powLoop_le (Nat.le_refl _) h

def permillPow (cut : Nat) (n : Nat) : Nat := perThingPow permill cut n

/-- Nineteen parts of twenty, to the hundredth power. -/
example : permillPow 950000 100 = 5920 := by decide +kernel

/-- `PerThing::mul_floor` of `parts` out of `one`. -/
def mulFloor (one parts n : Nat) : Nat := n * parts / one

/-- `Mul` of `parts` out of `one` and a number: rounded to the nearest, and an exact half down. -/
def mulNearest (one parts n : Nat) : Nat := Rounding.nearest (n * parts) one

/-- A part of a number is at most the number. -/
theorem mulNearest_le {one parts n : Nat} (h : parts ≤ one) : mulNearest one parts n ≤ n :=
  Rounding.nearest_le (Nat.mul_le_mul_left _ h)

/-- `PerThing::from_rational`, in parts of `one`: both numbers are first divided by a factor after
    which neither is more than `one`. -/
def perThingFromRational (one p q : Nat) : Nat :=
  let q := max q 1
  let factor := max (q ⌈/⌉ one) 1
  min p q / factor * one / (q / factor)

/-- `Percent::from_rational`, in percent. -/
def percentFromRational (p q : Nat) : Nat := perThingFromRational 100 p q

/-- A larger part of the same whole is not a smaller share. -/
theorem perThingFromRational_mono {one p p' q : Nat} (h : p ≤ p') :
    perThingFromRational one p q ≤ perThingFromRational one p' q :=
  Nat.div_le_div_right (Nat.mul_le_mul_right _ (Nat.div_le_div_right (min_le_min_right _ h)))

@[simp] theorem zero_perThingFromRational {one q : Nat} : perThingFromRational one 0 q = 0 := by
  simp [perThingFromRational]

/-- All of a whole is one. -/
theorem perThingFromRational_self {one q : Nat} (hone : 0 < one) (hq : 0 < q) :
    perThingFromRational one q q = one := by
  have hle : q ⌈/⌉ one ≤ q := by
    rw [ceilDiv_le_iff_le_mul hone]
    exact Nat.le_mul_of_pos_left q hone
  have hwhole : 0 < q / max (q ⌈/⌉ one) 1 := Nat.div_pos (Nat.max_le.mpr ⟨hle, hq⟩) (by omega)
  have hpositive : max q 1 = q := Nat.max_eq_left hq
  simp only [perThingFromRational, hpositive, Nat.min_self]
  exact Nat.mul_div_cancel_left _ hwhole

/-- The shares of two parts of a whole are together at most one. -/
theorem perThingFromRational_add_le {one p q n : Nat} (h : p + q ≤ n) :
    perThingFromRational one p n + perThingFromRational one q n ≤ one := by
  have hp : min p (max n 1) = p := Nat.min_eq_left (by omega)
  have hq : min q (max n 1) = q := Nat.min_eq_left (by omega)
  have hsum : p + q ≤ max n 1 := h.trans (Nat.le_max_left n 1)
  unfold perThingFromRational
  simp only [hp, hq]
  generalize max (max n 1 ⌈/⌉ one) 1 = factor
  generalize max n 1 = whole at hsum ⊢
  have hreduced : p / factor + q / factor ≤ whole / factor :=
    Nat.div_add_div_le_add_div.trans (Nat.div_le_div_right hsum)
  calc p / factor * one / (whole / factor) + q / factor * one / (whole / factor)
      ≤ (p / factor * one + q / factor * one) / (whole / factor) := Nat.div_add_div_le_add_div
    _ = (p / factor + q / factor) * one / (whole / factor) := by rw [Nat.add_mul]
    _ ≤ one := Nat.div_le_of_le_mul (Nat.mul_le_mul_right _ hreduced)

/-- A hundredth of a whole has a share. -/
theorem one_le_percentFromRational {p q : Nat} (hq : 0 < q) (h : q ≤ 100 * p) :
    1 ≤ percentFromRational p q := by
  have hwhole : max q 1 = q := Nat.max_eq_left hq
  simp only [percentFromRational, perThingFromRational, hwhole]
  generalize hfactor : max (q ⌈/⌉ 100) 1 = factor
  have hpart : factor ≤ min p q := by
    rw [← hfactor, Nat.max_le, ceilDiv_le_iff_le_mul (by decide)]
    omega
  have hpos : 0 < factor := by omega
  have hreduced : 0 < q / factor := Nat.div_pos (hpart.trans (Nat.min_le_right p q)) hpos
  rw [Nat.one_le_div_iff hreduced]
  have hle : q / factor ≤ 100 := by
    refine Nat.div_le_of_le_mul ?_
    rw [Nat.mul_comm]
    refine (le_smul_ceilDiv (b := q) (show 0 < 100 by decide)).trans (Nat.mul_le_mul_left 100 ?_)
    omega
  exact hle.trans (Nat.le_mul_of_pos_left 100 (Nat.div_pos hpart hpos))

/-- All but less than a hundredth of a whole has at least half of it. -/
theorem fifty_le_percentFromRational {p q : Nat} (hq : 1 < q) (hle : p ≤ q) (h : 100 * (q - p) < q) :
    50 ≤ percentFromRational p q := by
  have hwhole : max q 1 = q := Nat.max_eq_left hq.le
  have hpart : min p q = p := Nat.min_eq_left hle
  simp only [percentFromRational, perThingFromRational, hwhole, hpart]
  generalize hfactor : max (q ⌈/⌉ 100) 1 = factor
  have hhalf : factor ≤ q / 2 := by
    rw [← hfactor, Nat.max_le, ceilDiv_le_iff_le_mul (by decide)]
    omega
  have hrest : q - p < factor := by
    rw [← hfactor, lt_max_iff, ← not_le, ceilDiv_le_iff_le_mul (by decide)]
    omega
  have hpos : 0 < factor := by omega
  have htwo : 2 ≤ q / factor := by
    rw [Nat.le_div_iff_mul_le hpos]
    omega
  have hnext : q / factor ≤ p / factor + 1 := by
    rw [← Nat.add_div_right p hpos]
    exact Nat.div_le_div_right (by omega)
  rw [Nat.le_div_iff_mul_le (by omega)]
  omega

/-- A hundred and forty-seven out of a hundred and fifty: both are halved first. -/
example : percentFromRational 147 150 = 97 := by decide +kernel

/-- The fixed-point number of a percentage. -/
def ofPercent (percent : Nat) : Nat := percent * (div / 100)

/-! ## Shares in percent -/

/-- A percentage of a fixed-point number. -/
theorem mul_ofPercent (n p : Nat) : n * ofPercent p / div = n * p / 100 := by
  have hdiv : div = 100 * (div / 100) := by decide
  rw [ofPercent, ← Nat.mul_assoc]
  conv_lhs => rw [hdiv]
  exact Nat.mul_div_mul_right _ _ (by decide)

/-- A fixed-point number as a share of a percentage. -/
theorem div_ofPercent (n p : Nat) : n * div / ofPercent p = n * 100 / p := by
  have hdiv : 100 * (div / 100) = div := by decide
  have hpos : 0 < div / 100 := by decide
  rw [ofPercent]
  calc n * div / (p * (div / 100)) = n * 100 * (div / 100) / (p * (div / 100)) := by
        rw [Nat.mul_assoc n 100, hdiv]
    _ = n * 100 / p := Nat.mul_div_mul_right _ _ hpos

/-- The shares of two amounts are together at most one. -/
theorem percent_add_le (p q : Nat) :
    percentFromRational q (p + q) + percentFromRational p (p + q) ≤ 100 :=
  perThingFromRational_add_le (Nat.add_comm q p).le

end Fixed
end Composable
