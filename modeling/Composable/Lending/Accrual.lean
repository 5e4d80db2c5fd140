import Composable.Lending.Effect
import Mathlib.Data.Nat.ModEq

/-!
# `Lending.Accrual` — accruing at once and in two steps

`accrue_interest_internal` as a call on any interest rate model. Without an overflow it computes two
closed terms, the index `grown` and the interest `interest`, each with two or three roundings.

Both never fall with the time, and the interest not with the borrows either. In two steps the
index can only lose the rounding of one step, since the second step starts from a larger one. The
rate over a time (`overYear`) is rounded down while its product fits into 128 bits, and to the
nearest from there on: as long as it is rounded down, the interest of two steps is never more than
that of one. A time whose product does not fit, split into two whose products do, changes the
rounding, and the interest either way.
-/

namespace Composable
namespace Lending

/-! ## `accrue_interest_internal` -/

section Internal

variable {M : Type} {getBorrowRate : Nat → Call M (DispatchError Empty) (Option Nat)} {m m' : M}
variable {utilization index deltaTime borrows : Nat}

/-- A model that an answer does not change. -/
def Stateless (getBorrowRate : Nat → Call M (DispatchError Empty) (Option Nat)) (m : M) : Prop :=
  ∀ utilization, (getBorrowRate utilization m).2 = m

/-- All models but the controller are stateless. -/
theorem stateless_of_ne {model : InterestRateModel} (h : ∀ pid, model ≠ .dynamicPIDController pid) :
    Stateless InterestRateModel.getBorrowRate model := by
  intro utilization
  cases model with
  | dynamicPIDController pid => exact absurd rfl (h pid)
  | _ => rfl

theorem stateless_curve (model : CurveModel) :
    Stateless InterestRateModel.getBorrowRate (.curve model) :=
  stateless_of_ne nofun

/-- A stateless model stays as it is. -/
theorem Stateless.model_eq (h : Stateless getBorrowRate m) {r : Nat × Nat}
    (hr : accrueInterestInternal getBorrowRate utilization index deltaTime borrows m =
      (.ok r, m')) : m' = m := by
  obtain ⟨rate, hrate, -⟩ := accrueInterestInternal_ok.mp hr
  have hsame := h utilization
  rw [hrate] at hsame
  exact hsame

/-- It answers the same rate again. -/
theorem Stateless.rate_eq (h : Stateless getBorrowRate m) {rate rate' : Nat} {m₁ m₂ : M}
    (hrate : getBorrowRate utilization m = (.ok (some rate), m₁))
    (hrate' : getBorrowRate utilization m₁ = (.ok (some rate'), m₂)) : rate' = rate := by
  have hsame := h utilization
  rw [hrate] at hsame
  rw [show m₁ = m from hsame, hrate] at hrate'
  exact (Option.some.inj (Except.ok.inj (congrArg Prod.fst hrate'))).symm

end Internal

/-! ## Closed terms -/

/-- The part of a year's amount in a second's terms: `n` by the seconds of a year. -/
def overYear (n : Nat) : Nat := Fixed.quotient n Fixed.div (Fixed.ofInteger secondsPerYearNaive)

/-- The borrow index after a time. -/
def grown (rate index deltaTime : Nat) : Nat :=
  index + overYear (Fixed.quotient rate index Fixed.div * deltaTime)

/-- The interest on the borrows after a time. -/
def interest (rate deltaTime borrows : Nat) : Nat := borrows * overYear (rate * deltaTime) / Fixed.div

section Closed

variable {rate index deltaTime deltaTime' borrows borrows' n n' lost : Nat}

theorem ofInteger_seconds (h : deltaTime ≤ u64Max) :
    Fixed.ofInteger deltaTime = deltaTime * Fixed.div :=
  Fixed.ofInteger_eq ((Nat.mul_le_mul_right _ h).trans (by decide))

/-- A rate over a time. -/
theorem safeMul_seconds {q : Nat} (htime : deltaTime ≤ u64Max)
    (h : Fixed.safeMul rate (Fixed.ofInteger deltaTime) = .ok q) : q = rate * deltaTime := by
  obtain ⟨-, rfl⟩ := Fixed.safeMul_ok.mp h
  rw [ofInteger_seconds htime]
  exact Fixed.quotient_eq (by decide) (Nat.mul_assoc rate deltaTime Fixed.div).symm

theorem incrementIndex_eq (htime : deltaTime ≤ u64Max)
    (h : incrementIndex rate index deltaTime = .ok n) : n = grown rate index deltaTime := by
  simp only [incrementIndex, exceptBind_ok] at h
  obtain ⟨scaled, hscaled, overTime, htimes, increment, hincrement, hsum⟩ := h
  obtain ⟨-, rfl⟩ := Fixed.safeMul_ok.mp hscaled
  obtain rfl := safeMul_seconds htime htimes
  obtain ⟨-, -, rfl⟩ := Fixed.safeDiv_ok.mp hincrement
  rw [(Fixed.checked_ok.mp hsum).2, Nat.add_comm, grown, overYear]

theorem accruedIncrement_eq (htime : deltaTime ≤ u64Max)
    (h : accruedIncrement rate deltaTime borrows = .ok n) :
    n = interest rate deltaTime borrows := by
  have hdiv : 0 < Fixed.div := by decide
  simp only [accruedIncrement, exceptBind_ok] at h
  obtain ⟨overTime, htimes, delta, hdelta, total, htotal, increment, hincrement, hn⟩ := h
  obtain rfl := safeMul_seconds htime htimes
  obtain ⟨-, -, rfl⟩ := Fixed.safeDiv_ok.mp hdelta
  obtain ⟨-, rfl⟩ := Fixed.fromInteger_elim_ok.mp htotal
  obtain ⟨-, rfl⟩ := Fixed.safeMul_ok.mp hincrement
  rw [← Except.ok.inj hn, interest, overYear]
  exact congrArg (· / Fixed.div) (Fixed.quotient_eq hdiv (Nat.mul_right_comm _ _ _))

/-! ## Monotonicity -/

theorem overYear_mono (h : n ≤ n') : overYear n ≤ overYear n' :=
  Fixed.quotient_mono (Nat.mul_le_mul_right _ h)

theorem grown_mono (h : deltaTime ≤ deltaTime') :
    grown rate index deltaTime ≤ grown rate index deltaTime' :=
  Nat.add_le_add_left (overYear_mono (Nat.mul_le_mul_left _ h)) _

theorem interest_mono (htime : deltaTime ≤ deltaTime') (hborrows : borrows ≤ borrows') :
    interest rate deltaTime borrows ≤ interest rate deltaTime' borrows' :=
  Nat.div_le_div_right (Nat.mul_le_mul hborrows (overYear_mono (Nat.mul_le_mul_left _ htime)))

/-! ## Two steps -/

/-- What two parts lack against the whole: two where only the parts are rounded down. -/
theorem overYear_add_le (n n' : Nat) : overYear (n + n') ≤ overYear n + overYear n' + 2 :=
  Fixed.quotient_add_le

/-- What they exceed it by, where the parts are rounded to the nearest. -/
theorem overYear_add_overYear_le (n n' : Nat) : overYear n + overYear n' ≤ overYear (n + n') + 1 :=
  Fixed.quotient_add_quotient_le

/-- The second step grows a larger index, and only the roundings are lost. -/
theorem grown_split (rate index deltaTime deltaTime' : Nat) :
    grown rate index (deltaTime + deltaTime') ≤
    grown rate (grown rate index deltaTime) deltaTime' + 2 := by
  have hscaled : Fixed.quotient rate index Fixed.div ≤
      Fixed.quotient rate (grown rate index deltaTime) Fixed.div :=
    Fixed.quotient_mono (Nat.mul_le_mul_left _ (Nat.le_add_right _ _))
  have hsecond := overYear_mono (Nat.mul_le_mul_right deltaTime' hscaled)
  calc grown rate index (deltaTime + deltaTime')
      = index + overYear (Fixed.quotient rate index Fixed.div * deltaTime +
          Fixed.quotient rate index Fixed.div * deltaTime') := by rw [grown, Nat.mul_add]
    _ ≤ index + (overYear (Fixed.quotient rate index Fixed.div * deltaTime) +
          overYear (Fixed.quotient rate index Fixed.div * deltaTime') + 2) :=
        Nat.add_le_add_left (overYear_add_le _ _) _
    _ = grown rate index deltaTime + overYear (Fixed.quotient rate index Fixed.div * deltaTime') +
        2 := by
        rw [grown]
        omega
    _ ≤ grown rate (grown rate index deltaTime) deltaTime' + 2 :=
        Nat.add_le_add_right (Nat.add_le_add_left hsecond _) _

/-- Units of the rate, on all the borrows. -/
theorem mul_add_div_le (borrows k lost : Nat) :
    borrows * (k + lost) / Fixed.div ≤ borrows * k / Fixed.div + lost * borrows ⌈/⌉ Fixed.div := by
  have hdiv : 0 < Fixed.div := by decide
  have hlost : lost * borrows ≤ (lost * borrows ⌈/⌉ Fixed.div) * Fixed.div := by
    rw [Nat.mul_comm _ Fixed.div]
    exact le_smul_ceilDiv hdiv
  calc borrows * (k + lost) / Fixed.div
      ≤ (borrows * k + (lost * borrows ⌈/⌉ Fixed.div) * Fixed.div) / Fixed.div := by
        rw [Nat.mul_add, Nat.mul_comm borrows lost]
        exact Nat.div_le_div_right (Nat.add_le_add_left hlost _)
    _ = borrows * k / Fixed.div + lost * borrows ⌈/⌉ Fixed.div := Nat.add_mul_div_right _ _ hdiv

variable (borrows) in
/-- What two steps accrue beyond one, for what their rates exceed its by. -/
theorem interest_split_le (h : overYear (rate * deltaTime) + overYear (rate * deltaTime') ≤
      overYear (rate * (deltaTime + deltaTime')) + lost) :
    interest rate deltaTime borrows + interest rate deltaTime' borrows ≤
      interest rate (deltaTime + deltaTime') borrows + lost * borrows ⌈/⌉ Fixed.div :=
  calc interest rate deltaTime borrows + interest rate deltaTime' borrows
      ≤ (borrows * overYear (rate * deltaTime) + borrows * overYear (rate * deltaTime')) /
          Fixed.div :=
        Nat.div_add_div_le_add_div
    _ ≤ borrows * (overYear (rate * (deltaTime + deltaTime')) + lost) / Fixed.div := by
        rw [← Nat.mul_add]
        exact Nat.div_le_div_right (Nat.mul_le_mul_left _ h)
    _ ≤ _ := mul_add_div_le _ _ _

variable (borrows) in
/-- What they lack: units of the rate on all the borrows, and a unit of the interest. -/
theorem interest_le_split (h : overYear (rate * (deltaTime + deltaTime')) ≤
      overYear (rate * deltaTime) + overYear (rate * deltaTime') + lost) :
    interest rate (deltaTime + deltaTime') borrows ≤
      interest rate deltaTime borrows + interest rate deltaTime' borrows +
        (1 + lost * borrows ⌈/⌉ Fixed.div) :=
  calc interest rate (deltaTime + deltaTime') borrows
      ≤ borrows * (overYear (rate * deltaTime) + overYear (rate * deltaTime') + lost) / Fixed.div :=
        Nat.div_le_div_right (Nat.mul_le_mul_left _ h)
    _ ≤ borrows * (overYear (rate * deltaTime) + overYear (rate * deltaTime')) / Fixed.div +
          lost * borrows ⌈/⌉ Fixed.div := mul_add_div_le _ _ _
    _ ≤ interest rate deltaTime borrows + interest rate deltaTime' borrows + 1 +
        lost * borrows ⌈/⌉ Fixed.div := by
        rw [Nat.mul_add]
        exact Nat.add_le_add_right (Nat.add_div_le_div_add_div_add_one _ _ _) _
    _ = _ := Nat.add_assoc _ _ _

/-- Rounded down, the parts are never more than the whole, and lack at most one. -/
theorem overYear_add_of_fits (h : (n + n') * Fixed.div ≤ u128Max) :
    overYear n + overYear n' ≤ overYear (n + n') ∧
      overYear (n + n') ≤ overYear n + overYear n' + 1 := by
  have hfirst : n * Fixed.div ≤ u128Max := (Nat.mul_le_mul_right _ (Nat.le_add_right n n')).trans h
  have hsecond : n' * Fixed.div ≤ u128Max := (Nat.mul_le_mul_right _ (Nat.le_add_left n' n)).trans h
  rw [overYear, overYear, overYear, Fixed.quotient_eq_div hfirst, Fixed.quotient_eq_div hsecond,
    Fixed.quotient_eq_div h, Nat.add_mul]
  exact ⟨Nat.div_add_div_le_add_div, Nat.add_div_le_div_add_div_add_one _ _ _⟩

end Closed

/-! ## The two accruals -/

/-- **Accruals are monotone, and additive up to rounding.** With a stateless model and without an
    overflow, more time and more borrows never give a smaller index or less interest; and accruing
    twice gives at least the index of accruing at once but two, and interest that exceeds that of
    accruing at once by the borrows over `10 ^ 18` at most, rounded up, and lacks at most one and
    twice that. While the rate over the whole time is within 128 bits, the interest of two steps is
    never more, and lacks at most one and the borrows over `10 ^ 18`, rounded up. -/
theorem accruals_monotone_additive {M : Type}
    {getBorrowRate : Nat → Call M (DispatchError Empty) (Option Nat)}
    {m : M} (hstateless : Stateless getBorrowRate m) (utilization index : Nat) :
    (∀ t t' borrows borrows' r r' m₁ m₂, t ≤ t' → t' ≤ u64Max → borrows ≤ borrows' →
      accrueInterestInternal getBorrowRate utilization index t borrows m = (.ok r, m₁) →
      accrueInterestInternal getBorrowRate utilization index t' borrows' m = (.ok r', m₂) →
      r.1 ≤ r'.1 ∧ r.2 ≤ r'.2) ∧
    (∀ t₁ t₂ borrows r₁ r₂ r m₁ m₂ m₃, t₁ + t₂ ≤ u64Max →
      accrueInterestInternal getBorrowRate utilization index t₁ borrows m = (.ok r₁, m₁) →
      accrueInterestInternal getBorrowRate utilization r₁.2 t₂ borrows m₁ = (.ok r₂, m₂) →
      accrueInterestInternal getBorrowRate utilization index (t₁ + t₂) borrows m = (.ok r, m₃) →
      r.2 ≤ r₂.2 + 2 ∧
      r₁.1 + r₂.1 ≤ r.1 + borrows ⌈/⌉ Fixed.div ∧
      r.1 ≤ r₁.1 + r₂.1 + (1 + 2 * borrows ⌈/⌉ Fixed.div) ∧
      (∀ rate, getBorrowRate utilization m = (.ok (some rate), m₁) →
        rate * (t₁ + t₂) * Fixed.div ≤ u128Max →
        r₁.1 + r₂.1 ≤ r.1 ∧ r.1 ≤ r₁.1 + r₂.1 + (1 + borrows ⌈/⌉ Fixed.div))) := by
  refine ⟨?_, ?_⟩
  · intro t t' borrows borrows' r r' m₁ m₂ hle htime hborrows hr hr'
    obtain ⟨rate, hrate, hindex, hinterest⟩ := accrueInterestInternal_ok.mp hr
    obtain ⟨rate', hrate', hindex', hinterest'⟩ := accrueInterestInternal_ok.mp hr'
    obtain rfl := hstateless.model_eq hr
    obtain rfl := hstateless.rate_eq hrate hrate'
    rw [incrementIndex_eq (hle.trans htime) hindex, incrementIndex_eq htime hindex',
      accruedIncrement_eq (hle.trans htime) hinterest, accruedIncrement_eq htime hinterest']
    exact ⟨interest_mono hle hborrows, grown_mono hle⟩
  · intro t₁ t₂ borrows r₁ r₂ r m₁ m₂ m₃ htime hr₁ hr₂ hr
    obtain ⟨rate, hrate, hindex₁, hinterest₁⟩ := accrueInterestInternal_ok.mp hr₁
    obtain ⟨rate₂, hrate₂, hindex₂, hinterest₂⟩ := accrueInterestInternal_ok.mp hr₂
    obtain ⟨rate₃, hrate₃, hindex, hinterest⟩ := accrueInterestInternal_ok.mp hr
    obtain rfl := hstateless.model_eq hr₁
    obtain rfl := hstateless.rate_eq hrate hrate₂
    obtain rfl := hstateless.rate_eq hrate hrate₃
    have htime₁ : t₁ ≤ u64Max := (Nat.le_add_right _ _).trans htime
    have htime₂ : t₂ ≤ u64Max := (Nat.le_add_left _ _).trans htime
    rw [incrementIndex_eq htime hindex, accruedIncrement_eq htime hinterest,
      incrementIndex_eq htime₂ hindex₂, accruedIncrement_eq htime₂ hinterest₂,
      accruedIncrement_eq htime₁ hinterest₁, incrementIndex_eq htime₁ hindex₁]
    -- The rate over the whole time against its two parts, in general and where it is rounded down.
    have hover := overYear_add_overYear_le (rate₃ * t₁) (rate₃ * t₂)
    have hunder := overYear_add_le (rate₃ * t₁) (rate₃ * t₂)
    rw [← Nat.mul_add] at hover hunder
    have hmore := interest_split_le borrows hover
    have hless := interest_le_split borrows hunder
    rw [Nat.one_mul] at hmore
    refine ⟨grown_split rate₃ index t₁ t₂, hmore, hless, ?_⟩
    -- While the product fits, both parts are floors, and the sum of floors is at most the floor.
    intro rate hrate₃' hfits
    obtain rfl : rate = rate₃ :=
      Option.some.inj (Except.ok.inj (congrArg Prod.fst (hrate₃'.symm.trans hrate)))
    rw [Nat.mul_add] at hfits
    obtain ⟨hbelow, habove⟩ := overYear_add_of_fits hfits
    rw [← Nat.mul_add] at hbelow habove
    have hnever := interest_split_le borrows (hbelow.trans (Nat.le_add_right _ 0))
    have hlacks := interest_le_split borrows habove
    rw [Nat.zero_mul, zero_ceilDiv, Nat.add_zero] at hnever
    rw [Nat.one_mul] at hlacks
    exact ⟨hnever, hlacks⟩

/-- Ten percent on a hundred units of `10 ^ 18`, for 1001 seconds and for 2003 more. -/
theorem accruals_monotone_additive_sample : ∃ r₁ r₂ r,
    accrueInterestInternal InterestRateModel.getBorrowRate 50 Fixed.div 1001 (10 ^ 20)
      (.curve ⟨Fixed.div / 10⟩) = (.ok r₁, .curve ⟨Fixed.div / 10⟩) ∧
    accrueInterestInternal InterestRateModel.getBorrowRate 50 r₁.2 2003 (10 ^ 20)
      (.curve ⟨Fixed.div / 10⟩) = (.ok r₂, .curve ⟨Fixed.div / 10⟩) ∧
    accrueInterestInternal InterestRateModel.getBorrowRate 50 Fixed.div 3004 (10 ^ 20)
      (.curve ⟨Fixed.div / 10⟩) = (.ok r, .curve ⟨Fixed.div / 10⟩) ∧
    (r₁.1 ≤ r.1 ∧ r₁.2 ≤ r.2) ∧ r.2 ≤ r₂.2 + 2 ∧
      r₁.1 + r₂.1 ≤ r.1 ∧ r.1 ≤ r₁.1 + r₂.1 + (1 + 10 ^ 20 ⌈/⌉ Fixed.div) := by
  have hfirst : accrueInterestInternal InterestRateModel.getBorrowRate 50 Fixed.div 1001 (10 ^ 20)
      (.curve ⟨Fixed.div / 10⟩) = (.ok (317415017757400, 1000003174150177574),
        .curve ⟨Fixed.div / 10⟩) := by decide +kernel
  have hsecond :
      accrueInterestInternal InterestRateModel.getBorrowRate 50 1000003174150177574 2003 (10 ^ 20)
      (.curve ⟨Fixed.div / 10⟩) = (.ok (635147133434800, 1000009525641672445),
        .curve ⟨Fixed.div / 10⟩) := by decide +kernel
  have honce : accrueInterestInternal InterestRateModel.getBorrowRate 50 Fixed.div 3004 (10 ^ 20)
      (.curve ⟨Fixed.div / 10⟩) = (.ok (952562151192200, 1000009525621511922),
        .curve ⟨Fixed.div / 10⟩) := by decide +kernel
  have haccruals := accruals_monotone_additive (stateless_curve ⟨Fixed.div / 10⟩) 50 Fixed.div
  obtain ⟨hindex, -, -, hfits⟩ := haccruals.2 1001 2003 _ _ _ _ _ _ _ (by decide) hfirst hsecond honce
  exact ⟨_, _, _, hfirst, hsecond, honce,
    haccruals.1 1001 3004 _ _ _ _ _ _ (by decide) (by decide) (Nat.le_refl _) hfirst honce,
    hindex, hfits (Fixed.div / 10) (by decide +kernel) (by decide)⟩

/-- Without the bound both fail. On one unit of `10 ^ 18`, 3407 seconds round up, and twice 3407 do
    not; on two units, 3200 and 3206 seconds are rounded down, and 6406 seconds up. -/
theorem accruals_not_additive :
    ¬ (∀ t₁ t₂ borrows r₁ r₂ r, t₁ + t₂ ≤ u64Max →
      (accrueInterestInternal InterestRateModel.getBorrowRate 0 Fixed.div t₁ borrows
        (.curve ⟨Fixed.div / 10⟩)).1 = .ok r₁ →
      (accrueInterestInternal InterestRateModel.getBorrowRate 0 r₁.2 t₂ borrows
        (.curve ⟨Fixed.div / 10⟩)).1 = .ok r₂ →
      (accrueInterestInternal InterestRateModel.getBorrowRate 0 Fixed.div (t₁ + t₂) borrows
        (.curve ⟨Fixed.div / 10⟩)).1 = .ok r →
      r₁.1 + r₂.1 ≤ r.1) ∧
    ¬ (∀ t₁ t₂ borrows r₁ r₂ r, t₁ + t₂ ≤ u64Max →
      (accrueInterestInternal InterestRateModel.getBorrowRate 0 Fixed.div t₁ borrows
        (.curve ⟨Fixed.div / 10⟩)).1 = .ok r₁ →
      (accrueInterestInternal InterestRateModel.getBorrowRate 0 r₁.2 t₂ borrows
        (.curve ⟨Fixed.div / 10⟩)).1 = .ok r₂ →
      (accrueInterestInternal InterestRateModel.getBorrowRate 0 Fixed.div (t₁ + t₂) borrows
        (.curve ⟨Fixed.div / 10⟩)).1 = .ok r →
      r.1 ≤ r₁.1 + r₂.1 + (1 + borrows ⌈/⌉ Fixed.div)) := by
  refine ⟨fun hnever => ?_, fun hlacks => ?_⟩
  · have h := hnever 3407 3407 (10 ^ 18) (10803526128869, 1000010803526128869)
      (10803526128869, 1000021607168973914) (21607052257737, 1000021607052257737) (by decide)
        (by decide +kernel) (by decide +kernel)
      (by decide +kernel)
    exact absurd h (by decide)
  · have h :=
      hlacks 3200 3206 (2 * 10 ^ 18) (20294266869608, 1000010147133434804) (20332318619988,
        1000020313395902173)
      (40626585489600, 1000020313292744800) (by decide) (by decide +kernel) (by decide +kernel)
        (by decide +kernel)
    exact absurd h (by decide +kernel)

end Lending
end Composable
