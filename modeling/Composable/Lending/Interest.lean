import Composable.Support.Fixed

/-!
# `Lending.Interest` — interest rate models and accrual

Embeds `frame/composable-traits/src/lending/math.rs` and `accrue_interest_internal` of
`frame/lending/src/lib.rs`. Rates and indexes are inner values of `FixedU128`, utilisations are in
percent, and the parameters of the PID controller are inner values of `FixedI128`.

`get_borrow_rate` takes its model by mutable reference, so it is a call on the model. Unchecked
arithmetic that overflows is a panic.
-/

namespace Composable
namespace Lending

/-! ## `FixedI128` -/

def i128Max : Int := 2 ^ 127 - 1

def i128Min : Int := -2 ^ 127

/-- The value, if it fits into a signed 128-bit integer. -/
def checkedSigned (n : Int) : Option Int := if i128Min ≤ n ∧ n ≤ i128Max then some n else none

/-- `checked_mul` of `FixedI128`, on inner values: the sign, and the product of the magnitudes. -/
def signedMul (a b : Int) : Option Int :=
  checkedSigned (a.sign * b.sign * Fixed.quotient a.natAbs b.natAbs Fixed.div)

/-- `try_into().unwrap_or(0_i128)`. -/
def toSigned (n : Nat) : Int := if (n : Int) ≤ i128Max then n else 0

/-! ## Interest rate models -/

structure JumpModel where
  /-- The base interest rate when utilization rate is 0. -/
  baseRate : Nat
  /-- The interest rate on jump utilization point. -/
  jumpRate : Nat
  /-- The max interest rate when utilization rate is 100%. -/
  fullRate : Nat
  /-- The utilization point at which the `jumpRate` is applied, in percent. -/
  targetUtilization : Nat
deriving DecidableEq, Repr

namespace JumpModel

def maxBaseRate : Nat := Fixed.div * 10 / 100

def maxJumpRate : Nat := Fixed.div * 30 / 100

def maxFullRate : Nat := Fixed.div * 50 / 100

/-- The checks of `JumpModel::new`. -/
def Valid (m : JumpModel) : Prop :=
  m.baseRate ≤ maxBaseRate ∧ m.jumpRate ≤ maxJumpRate ∧ m.fullRate ≤ maxFullRate ∧
    m.baseRate ≤ m.jumpRate ∧ m.jumpRate ≤ m.fullRate

/-- `span * share / whole + base`, with the checks of the fixed-point operations. -/
def interpolate (upper lower share whole : Nat) : Option Nat := do
  let span ← (Fixed.checkedSub upper lower).toOption
  let scaled := Fixed.saturatingMul span (Fixed.ofPercent share)
  let part ← (Fixed.safeDiv scaled (Fixed.ofPercent whole)).toOption
  (Fixed.safeAdd part lower).toOption

def getBorrowRate (m : JumpModel) (utilization : Nat) : Option Nat :=
  if utilization < m.targetUtilization then
    interpolate m.jumpRate m.baseRate utilization m.targetUtilization
  else if utilization = m.targetUtilization then some m.jumpRate
  else
    interpolate m.fullRate m.jumpRate (utilization - m.targetUtilization) (100 - m.targetUtilization)

end JumpModel

structure CurveModel where
  baseRate : Nat
deriving DecidableEq, Repr

namespace CurveModel

def maxBaseRate : Nat := Fixed.div / 100 * 10

/-- The check of `CurveModel::new`. -/
def Valid (m : CurveModel) : Prop := m.baseRate ≤ maxBaseRate

def getBorrowRate (m : CurveModel) (utilization : Nat) : Option Nat :=
  (Fixed.safeAdd (Fixed.ofPercent (Fixed.perThingPow 100 utilization 9)) m.baseRate).toOption

end CurveModel

/-- The dynamic interest rate curve based on control theory. -/
structure DynamicPIDControllerModel where
  proportionalParameter : Int
  integralParameter : Int
  derivativeParameter : Int
  previousErrorValue : Int
  previousIntegralTerm : Int
  previousInterestRate : Nat
  targetUtilization : Nat
deriving DecidableEq, Repr

namespace DynamicPIDControllerModel

/-- What `DynamicPIDControllerModel::new` accepts and starts with. -/
def Valid (m : DynamicPIDControllerModel) : Prop :=
  m.targetUtilization ≤ Fixed.div ∧ m.previousErrorValue = 0 ∧ m.previousIntegralTerm = 0

/-- The rate after the control value `ut`. -/
def adjusted (rate : Nat) (ut : Int) : Nat :=
  if ut < 0 then rate - (-ut).toNat else Fixed.saturated (rate + ut.toNat)

def getOutputUtilizationRatio (utilizationRatio : Nat) :
    Call DynamicPIDControllerModel (DispatchError Empty) Nat := do
  let m ← Call.get
  -- `et = uo - ut`
  let et := toSigned m.targetUtilization - toSigned utilizationRatio
  -- `pt = kp * et`
  let pt ← Call.ofOption (signedMul m.proportionalParameter et) (.arithmetic .overflow)
  -- `it = it_1 + ki * et`
  let increment ← Call.ofOption (signedMul m.integralParameter et) (.arithmetic .overflow)
  let it ← Call.ofOption (checkedSigned (m.previousIntegralTerm + increment)) (.arithmetic .overflow)
  Call.modify fun m => { m with previousIntegralTerm := it }
  -- `dt = kd * (et - et_1)`
  let change ← Call.ofOption (checkedSigned (et - m.previousErrorValue)) .panic
  let dt ← Call.ofOption (signedMul m.derivativeParameter change) (.arithmetic .overflow)
  Call.modify fun m => { m with previousErrorValue := et }
  -- `ut = pt + it + dt`
  let partial_ ← Call.ofOption (checkedSigned (pt + it)) .panic
  let ut ← Call.ofOption (checkedSigned (partial_ + dt)) .panic
  Call.ensure (i128Min < ut) .panic
  Call.modify fun m => { m with previousInterestRate := adjusted m.previousInterestRate ut }
  pure (adjusted m.previousInterestRate ut)

end DynamicPIDControllerModel

/-- Interest based on a polynomial of the utilization of the market. -/
structure DoubleExponentModel where
  coefficients : List Nat
deriving DecidableEq, Repr

namespace DoubleExponentModel

/-- Sixteen bytes. -/
def WellFormed (m : DoubleExponentModel) : Prop :=
  m.coefficients.length = 16 ∧ ∀ c ∈ m.coefficients, c < 256

/-- The check of `DoubleExponentModel::new`. -/
def Valid (m : DoubleExponentModel) : Prop := m.WellFormed ∧ m.coefficients.sum = 100

/-- The rate so far and the power of the utilization, after one more coefficient. -/
def addTerm (acc : Nat × Nat) (coefficient : Nat) : Nat × Nat :=
  let polynomial := Fixed.quotient acc.2 acc.2 Fixed.div
  (acc.1 + Fixed.quotient (Fixed.ofInteger coefficient) polynomial Fixed.div, polynomial)

/-- The coefficients and powers are so small that nothing overflows. -/
def getBorrowRate (m : DoubleExponentModel) (utilization : Nat) : Nat :=
  let start := (Fixed.ofInteger (m.coefficients.headD 0), Fixed.ofPercent utilization)
  Fixed.quotient (m.coefficients.tail.foldl addTerm start).1 Fixed.div (Fixed.ofInteger 100)

end DoubleExponentModel

inductive InterestRateModel where
  | jump (model : JumpModel)
  | curve (model : CurveModel)
  | dynamicPIDController (model : DynamicPIDControllerModel)
  | doubleExponent (model : DoubleExponentModel)
deriving DecidableEq, Repr

namespace InterestRateModel

/-- `InteresteRateModelIsValid`: what the constructor of the model accepts. -/
def Valid : InterestRateModel → Prop
  | .jump m => m.Valid
  | .curve m => m.Valid
  | .dynamicPIDController m => m.Valid
  | .doubleExponent m => m.Valid

/-- Calculates the current borrow interest rate; `none` when the model cannot. -/
def getBorrowRate (utilization : Nat) : Call InterestRateModel (DispatchError Empty) (Option Nat) :=
  fun m =>
  match m with
  | .jump model => (.ok (model.getBorrowRate utilization), m)
  | .curve model => (.ok (model.getBorrowRate utilization), m)
  | .dynamicPIDController pid =>
      match DynamicPIDControllerModel.getOutputUtilizationRatio (Fixed.ofPercent utilization) pid with
      | (.ok rate, pid') => (.ok (some rate), .dynamicPIDController pid')
      | (.error .panic, pid') => (.error .panic, .dynamicPIDController pid')
      | (.error _, pid') => (.ok none, .dynamicPIDController pid')
  | .doubleExponent model => (.ok (some (model.getBorrowRate utilization)), m)

end InterestRateModel

/-! ## Accrual -/

/-- `utilization_ratio = total_borrows / (total_cash + total_borrows)`, in percent. -/
def calcUtilizationRatio (cash borrows : Nat) : Except ArithmeticError Nat :=
  if borrows = 0 then .ok 0
  else do
    let total ← Fixed.safeAdd cash borrows
    -- `.expect("above checks prove it cannot error")`
    let ratio := Fixed.quotient borrows Fixed.div total
    let utilization ← (Fixed.mulInt ratio 100 255).elim (.error .overflow) .ok
    pure (min utilization 100)

/-- `SECONDS_PER_YEAR_NAIVE`. -/
def secondsPerYearNaive : Nat := 365 * 24 * 60 * 60

/-- Compounding increment of borrow index. -/
def incrementIndex (borrowRate index deltaTime : Nat) : Except ArithmeticError Nat := do
  let scaled ← Fixed.safeMul borrowRate index
  let overTime ← Fixed.safeMul scaled (Fixed.ofInteger deltaTime)
  let increment ← Fixed.safeDiv overTime (Fixed.ofInteger secondsPerYearNaive)
  Fixed.safeAdd increment index

/-- The interest on `totalBorrows` in `deltaTime` at a rate, as
    `accrue_interest_internal` rounds it. -/
def accruedIncrement (borrowRate deltaTime totalBorrows : Nat) : Except ArithmeticError Nat := do
  let overTime ← Fixed.safeMul borrowRate (Fixed.ofInteger deltaTime)
  let deltaInterestRate ← Fixed.safeDiv overTime (Fixed.ofInteger secondsPerYearNaive)
  let total ← (Fixed.fromInteger totalBorrows).elim (.error .overflow) .ok
  let increment ← Fixed.safeMul total deltaInterestRate
  pure (increment / Fixed.div)

/-- A borrow index never falls. -/
theorem le_incrementIndex {borrowRate index deltaTime index' : Nat}
    (h : incrementIndex borrowRate index deltaTime = .ok index') : index ≤ index' := by
  simp only [incrementIndex, exceptBind_ok] at h
  obtain ⟨_, -, _, -, increment, -, hsum⟩ := h
  obtain ⟨-, rfl⟩ := Fixed.checked_ok.mp hsum
  exact Nat.le_add_left _ _

end Lending
end Composable
