import Composable.Lending.Interest
import Composable.Liquidations.Model
import Composable.Vault.Model

/-!
# `Lending.Model` — the lending pallet

Embeds `frame/lending/src/{lib,models}.rs` over the models of the vault, the auction and the
liquidation engine, all acting on one ledger. The oracle and the clock are inputs of a call (`Env`).

Debt is a token of its own for each market: the principal of a borrower is what it holds of it, and
the interest accrued by all borrowers together is the balance of the market's account. Events and
weights are left out; the fee for liquidating `n` borrowers, of which the rent of a borrow is taken,
is a constant of the runtime. Unchecked arithmetic that overflows is a panic.
-/

namespace Composable
namespace Lending

open DutchAuction (CurrencyPair Sell SellOrder TakeOrder)
open Vault (FundsAvailability)

/-! ## Data -/

/-- The part of a market's configuration which can be changed. Factors are
    inner values of `FixedU128`. -/
structure UpdateInput where
  collateralFactor : Nat
  underCollaterizedWarnPercent : Nat
  /-- Liquidation engine ids. -/
  liquidators : List Nat
  interestRateModel : InterestRateModel

structure CreateInput (X : Type) where
  updatable : UpdateInput
  /-- Collateral is base and borrow is quote. -/
  currencyPair : CurrencyPair X
  /-- Reserve factor of market borrow vault, as parts of a `Perquintill`. -/
  reservedFactor : Nat

namespace CreateInput

def borrowAsset {X : Type} (input : CreateInput X) : X := input.currencyPair.quote

def collateralAsset {X : Type} (input : CreateInput X) : X := input.currencyPair.base

/-- `MarketModelValid` and `CurrencyPairIsNotSame`, which decoding the extrinsic checks. -/
structure Valid {X : Type} (input : CreateInput X) : Prop where
  collateralFactor : Fixed.div ≤ input.updatable.collateralFactor
  interestRateModel : input.updatable.interestRateModel.Valid
  pair : input.currencyPair.base ≠ input.currencyPair.quote

end CreateInput

structure MarketConfig (A X : Type) where
  manager : A
  /-- The vault of the borrow asset. -/
  borrow : Nat
  collateral : X
  collateralFactor : Nat
  interestRateModel : InterestRateModel
  underCollaterizedWarnPercent : Nat
  liquidators : List Nat

inductive Error where
  | overflow
  | underflow
  | vaultNotFound
  | assetNotSupportedByOracle
  | assetPriceNotFound
  | marketDoesNotExist
  | collateralDepositFailed
  | marketCollateralWasNotDepositedByAccount
  | collateralFactorIsLessOrEqualOne
  | marketAndAccountPairNotFound
  | notEnoughCollateralToBorrowAmount
  | marketIsClosing
  | invalidTimestampOnBorrowRequest
  | notEnoughBorrowAsset
  | notEnoughCollateral
  | transferFailed
  | cannotWithdrawFromProvidedBorrowAccount
  | cannotRepayMoreThanBorrowAmount
  | borrowRateDoesNotExist
  | borrowIndexDoesNotExist
  | borrowAndRepayInSameBlockIsNotSupported
  | borrowDoesNotExist
  | repayAmountMustBeGraterThanZero
  | exceedLendingCount
  | liquidationFailed
  | borrowerDataCalculationFailed
  | unauthorized
  | notEnoughRent
  | priceOfInitialBorrowVaultShouldBeGreaterThanZero
deriving DecidableEq, Repr

/-- The errors of the pallets that a lending call goes through. -/
inductive PalletError where
  | lending (error : Error)
  | vault (error : Vault.Error)
  | liquidations (error : Liquidations.Error)
deriving DecidableEq, Repr

/-- What the oracle answers, in normalised currency. -/
structure Oracle (X : Type) where
  isSupported : X → Except (DispatchError Empty) Bool
  getPrice : X → Nat → Except (DispatchError Empty) Nat
  getPriceInverse : X → Nat → Except (DispatchError Empty) Nat
  /-- How much of the second asset for a unit of the first, as the inner value of a `FixedU128`. -/
  getRatio : X → X → Except (DispatchError Empty) Nat

/-- The clock and the oracle at the time of a call. -/
structure Env (X : Type) where
  now : Nat
  oracle : Oracle X

structure Config (A X F : Type) where
  vault : Vault.Config A X F
  liquidations : Liquidations.Config A X
  same_currency : liquidations.auction.currency = vault.currency
  same_native : liquidations.auction.nativeAsset = vault.nativeAsset
  /-- `MayBeAssetId::default()`. -/
  defaultAsset : X
  maxLendingCount : Nat
  oracleMarketCreationStake : Nat
  /-- `WeightToFee::calc(&WeightInfo::liquidate(n))`. -/
  liquidateFee : Nat → Nat
  iteration : List Nat → List Nat
  iteration_perm : ∀ keys, (iteration keys).Perm keys
  accountId : Nat → A
  /-- The accounts of different markets, of vaults and of the auction are
      derived from different data. -/
  accountId_injective : Set.InjOn accountId (Set.Iic maxLendingCount)
  accountId_ne_vault : ∀ market vaultId, accountId market ≠ vault.accountId vaultId
  accountId_ne_treasury : ∀ market, accountId market ≠ liquidations.auction.treasury

/-- The auction moves the funds of the vaults. -/
instance (cfg : Config A X F) : cfg.liquidations.auction.currency.Exact :=
  cfg.same_currency ▸ cfg.vault.currency_exact

/-- The pallet's storage, with that of the vault (and its ledger) and of the auction. -/
structure State (A X F : Type) where
  vault : Vault.State A X F
  ordersIndex : Nat
  sellOrders : StorageMap Nat (SellOrder A X)
  takes : StorageMap Nat (List (TakeOrder A))
  lendingCount : Nat
  markets : StorageMap Nat (MarketConfig A X)
  /-- The debt token of each market. -/
  debtMarkets : Nat → Option X
  /-- At which borrow index of the market an account did borrow. -/
  debtIndex : StorageDoubleMap Nat A Nat
  borrowTimestamp : StorageDoubleMap Nat A Nat
  borrowRent : StorageDoubleMap Nat A Nat
  borrowIndex : Nat → Option Nat
  accountCollateral : StorageDoubleMap Nat A Nat
  lastBlockTimestamp : Nat

variable {A X F : Type}

namespace State

def ledger (s : State A X F) : Ledger A X := s.vault.ledger

def withLedger (s : State A X F) (l : Ledger A X) : State A X F :=
  { s with vault := { s.vault with ledger := l } }

@[simp] theorem ledger_withLedger (s : State A X F) (l : Ledger A X) :
    (s.withLedger l).ledger = l := rfl

/-- The storage as the auction sees it. -/
def auction (s : State A X F) : DutchAuction.State A X :=
  ⟨s.vault.ledger, s.ordersIndex, s.sellOrders, s.takes⟩

def withAuction (s : State A X F) (t : DutchAuction.State A X) : State A X F :=
  { s with
    vault := { s.vault with ledger := t.ledger }
    ordersIndex := t.ordersIndex
    sellOrders := t.sellOrders
    takes := t.takes }

end State

/-- A call of the pallet. -/
abbrev LendingCall (A X F α : Type) : Type := Call (State A X F) (DispatchError PalletError) α

/-- An error of this pallet. -/
abbrev err (e : Error) : DispatchError PalletError := .module (.lending e)

/-- A ledger operation of the pallet. -/
def onLedger {α : Type} (f : TokenError → DispatchError PalletError)
    (x : Call (Ledger A X) TokenError α) : LendingCall A X F α :=
  Call.zoom State.ledger (fun l s => s.withLedger l) f x

/-- A call of the vault pallet. -/
def onVault {α : Type} (x : Vault.VaultCall A X F α) : LendingCall A X F α :=
  Call.zoom State.vault (fun v s => { s with vault := v }) (DispatchError.map .vault) x

/-- A call of the liquidation engine. -/
def onLiquidations {α : Type} (x : Liquidations.LiquidationCall A X α) : LendingCall A X F α :=
  Call.zoom State.auction (fun t s => s.withAuction t) (DispatchError.map .liquidations) x

/-- `r?` on an arithmetic result. -/
def arithmetic {α : Type} (r : Except ArithmeticError α) : LendingCall A X F α :=
  Call.ofExcept (r.mapError .arithmetic)

/-- An answer of the oracle. -/
def answer {α : Type} (r : Except (DispatchError Empty) α) : LendingCall A X F α :=
  Call.ofExcept (r.mapError (DispatchError.map Empty.elim))

/-- Unchecked arithmetic: the value fits into 128 bits. -/
def trap (n : Nat) : LendingCall A X F Nat := do
  Call.ensure (n ≤ u128Max) .panic
  pure n

/-! ## Borrowers (`models.rs`) -/

structure BorrowerData where
  collateralBalanceValue : Nat
  borrowBalanceValue : Nat
  collateralFactor : Nat
  underCollaterizedWarnPercent : Nat
deriving DecidableEq, Repr

namespace BorrowerData

/-- `BorrowerData::new`. -/
def ofValues (collateralValue borrowValue collateralFactor underCollaterizedWarnPercent : Nat) :
    BorrowerData :=
  ⟨Fixed.ofInteger collateralValue, Fixed.ofInteger borrowValue, collateralFactor,
    underCollaterizedWarnPercent⟩

/-- The maximum borrowable amount, taking into account the current borrowed amount and interests. -/
def borrowForCollateral (b : BorrowerData) : Except ArithmeticError Nat := do
  let maxBorrow ← Fixed.safeDiv b.collateralBalanceValue b.collateralFactor
  pure (maxBorrow - b.borrowBalanceValue)

def currentCollateralRatio (b : BorrowerData) : Except ArithmeticError Nat :=
  Fixed.safeDiv b.collateralBalanceValue b.borrowBalanceValue

/-- Determines whether the loan should trigger a liquidation. -/
def shouldLiquidate (b : BorrowerData) : Except ArithmeticError Bool :=
  if b.borrowBalanceValue = 0 then .ok false
  else do
    let ratio ← b.currentCollateralRatio
    pure (decide (ratio < b.collateralFactor))

end BorrowerData

variable [DecidableEq A] [DecidableEq X] (cfg : Config A X F)

/-! ## Queries -/

/-- `DebtMarkets::get`, a `ValueQuery`. -/
def State.debtAsset (s : State A X F) (market : Nat) : X :=
  (s.debtMarkets market).getD cfg.defaultAsset

def getMarket (market : Nat) : LendingCall A X F (MarketConfig A X) := do
  let s ← Call.get
  Call.ofOption (s.markets.lookup market) (err .marketDoesNotExist)

def getBorrowIndex (market : Nat) : LendingCall A X F Nat := do
  let s ← Call.get
  Call.ofOption (s.borrowIndex market) (err .marketDoesNotExist)

/-- `T::Vault::asset_id`. -/
def assetId (vaultId : Nat) : LendingCall A X F X := do
  let vault ← onVault (Vault.vaultInfo vaultId)
  pure vault.assetId

def getPrice (env : Env X) (asset : X) (amount : Nat) : LendingCall A X F Nat :=
  Call.ofExcept ((env.oracle.getPrice asset amount).mapError fun _ => err .assetPriceNotFound)

/-- If the principal is zero then the borrow index is likely also zero, so nothing is computed. -/
def borrowFromPrincipal (principal marketIndex accountIndex : Nat) :
    Except ArithmeticError (Option Nat) :=
  if principal = 0 then .ok none
  else do
    let fromStart ← (Fixed.safeMul (Fixed.ofInteger principal) marketIndex).mapError fun _ =>
      .overflow
    let balance ← (Fixed.safeDiv fromStart accountIndex).mapError fun _ => .overflow
    let amount ← (Fixed.mulInt balance 1 u64Max).elim (.error .overflow) .ok
    pure (some amount)

def borrowBalanceCurrent (market : Nat) (account : A) : LendingCall A X F (Option Nat) := do
  let s ← Call.get
  let debtAsset ← Call.ofOption (s.debtMarkets market) (err .marketDoesNotExist)
  match s.debtIndex.get market account with
  | some accountIndex => do
      let marketIndex ← getBorrowIndex market
      arithmetic (borrowFromPrincipal (s.ledger.reserved debtAsset account) marketIndex accountIndex)
  -- No active borrow on the market for the account.
  | none => pure (some 0)

def totalBorrows (market : Nat) : LendingCall A X F Nat := do
  let s ← Call.get
  let debtAsset := s.debtAsset cfg market
  let accrued := s.ledger.balance debtAsset (cfg.accountId market)
  Call.ensure (accrued ≤ s.ledger.issuance debtAsset) .panic
  pure (s.ledger.issuance debtAsset - accrued)

def totalInterest (market : Nat) : LendingCall A X F Nat := do
  let s ← Call.get
  pure (s.ledger.balance (s.debtAsset cfg market) (cfg.accountId market))

def totalCash (market : Nat) : LendingCall A X F Nat := do
  let config ← getMarket market
  let borrowAsset ← assetId config.borrow
  let s ← Call.get
  pure (s.ledger.balance borrowAsset (cfg.accountId market))

def collateralOfAccount (market : Nat) (account : A) : LendingCall A X F Nat := do
  let s ← Call.get
  Call.ofOption (s.accountCollateral.get market account)
    (err .marketCollateralWasNotDepositedByAccount)

def createBorrowerData (env : Env X) (market : Nat) (account : A) :
    LendingCall A X F BorrowerData := do
  let config ← getMarket market
  let collateral ← collateralOfAccount market account
  let collateralValue ← getPrice env config.collateral collateral
  let borrowAsset ← assetId config.borrow
  let owed ← borrowBalanceCurrent market account
  let borrowValue ← getPrice env borrowAsset (owed.getD 0)
  pure (.ofValues collateralValue borrowValue config.collateralFactor
    config.underCollaterizedWarnPercent)

def shouldLiquidate (env : Env X) (market : Nat) (account : A) : LendingCall A X F Bool := do
  let borrower ← createBorrowerData env market account
  arithmetic borrower.shouldLiquidate

def getBorrowLimit (env : Env X) (market : Nat) (account : A) : LendingCall A X F Nat := do
  let s ← Call.get
  if 0 < (s.accountCollateral.get market account).getD 0 then do
    let borrower ← createBorrowerData env market account
    let limit ← Call.ofExcept (borrower.borrowForCollateral.mapError fun _ =>
      err .borrowerDataCalculationFailed)
    Call.ofOption (Fixed.mulInt limit 1 u64Max) (.arithmetic .overflow)
  else pure 0

/-! ## Markets -/

/-- The storage with one more market, under the next id. -/
def State.addMarket (s : State A X F) (config : MarketConfig A X) (debtAsset : X) (factory : F) :
    State A X F :=
  let market := s.lendingCount + 1
  { s with
    vault := { s.vault with factory := factory }
    lendingCount := market
    markets := s.markets.insert market config
    debtMarkets := Function.update s.debtMarkets market (some debtAsset)
    borrowIndex := Function.update s.borrowIndex market (some Fixed.div) }

/-- The vault of a new market: the market is its only strategy. -/
def vaultConfig (manager : A) (input : CreateInput X) (market : Nat) : Vault.VaultConfig A X where
  assetId := input.borrowAsset
  reserved := input.reservedFactor
  manager := manager
  strategies := (∅ : StorageMap A Nat).insert (cfg.accountId market)
    (Vault.perquintillOne - input.reservedFactor)

/-- `Lending::create`. -/
def create (env : Env X) (manager : A) (input : CreateInput X) : LendingCall A X F (Nat × Nat) := do
  Call.ensure (Fixed.div < input.updatable.collateralFactor) (err .collateralFactorIsLessOrEqualOne)
  let collateralSupported ← answer (env.oracle.isSupported input.collateralAsset)
  let borrowSupported ← answer (env.oracle.isSupported input.borrowAsset)
  Call.ensure (collateralSupported = true ∧ borrowSupported = true) (err .assetNotSupportedByOracle)
  let s ← Call.get
  let market := s.lendingCount + 1
  Call.ensure (market < 2 ^ 32) .panic
  Call.ensure (market ≤ cfg.maxLendingCount) (err .exceedLendingCount)
  let vaultId ← onVault (Vault.create cfg.vault .existential (vaultConfig cfg manager input market))
  let initialPoolSize ← answer
    (env.oracle.getPriceInverse input.borrowAsset cfg.oracleMarketCreationStake)
  Call.ensure (0 < initialPoolSize) (err .priceOfInitialBorrowVaultShouldBeGreaterThanZero)
  onLedger .token (cfg.vault.currency.transfer input.borrowAsset manager (cfg.accountId market)
    initialPoolSize false)
  let t ← Call.get
  let (debtAsset, factory) ← answer (cfg.vault.currencyFactory.create t.vault.factory .lpTokens)
  Call.modify fun s => s.addMarket
    ⟨manager, vaultId, input.collateralAsset, input.updatable.collateralFactor,
      input.updatable.interestRateModel, input.updatable.underCollaterizedWarnPercent,
      input.updatable.liquidators⟩ debtAsset factory
  pure (market, vaultId)

/-- The extrinsic `create_market`. -/
def createMarket (env : Env X) (origin : RawOrigin A) (input : CreateInput X) :
    LendingCall A X F Unit :=
  Call.transactional do
    let who ← ensureSigned origin
    let _ ← create cfg env who input

/-- A market after an update by its manager. -/
def MarketConfig.update (config : MarketConfig A X) (input : UpdateInput) : MarketConfig A X :=
  { config with
    collateralFactor := input.collateralFactor
    interestRateModel := input.interestRateModel
    underCollaterizedWarnPercent := input.underCollaterizedWarnPercent
    liquidators := input.liquidators }

/-- The extrinsic `update_market`. -/
def updateMarket (origin : RawOrigin A) (market : Nat) (input : UpdateInput) :
    LendingCall A X F Unit :=
  Call.transactional do
    let who ← ensureSigned origin
    let config ← getMarket market
    Call.ensure (who = config.manager) (err .unauthorized)
    Call.modify fun s => { s with markets := s.markets.insert market (config.update input) }

/-! ## Collateral -/

/-- `Lending::deposit_collateral`. -/
def depositCollateralInternal (market : Nat) (account : A) (amount : Nat) :
    LendingCall A X F Unit := do
  let config ← getMarket market
  let s ← Call.get
  Call.ensure (cfg.vault.currency.canWithdraw config.collateral account amount s.ledger = true)
    (err .transferFailed)
  Call.ensure (cfg.vault.currency.canDeposit config.collateral (cfg.accountId market) amount
    s.ledger = true)
    (err .transferFailed)
  let collateral := (s.accountCollateral.get market account).getD 0
  Call.ensure (collateral + amount ≤ u128Max) (err .overflow)
  Call.modify fun s => { s with
    accountCollateral := s.accountCollateral.put market account (collateral + amount) }
  -- `.expect("impossible; qed;")`
  onLedger (fun _ => .panic)
    (cfg.vault.currency.transfer config.collateral account (cfg.accountId market) amount true)

/-- The extrinsic `deposit_collateral`. -/
def depositCollateral (origin : RawOrigin A) (market amount : Nat) : LendingCall A X F Unit :=
  Call.transactional do
    let sender ← ensureSigned origin
    depositCollateralInternal cfg market sender amount

/-- `Lending::withdraw_collateral`. -/
def withdrawCollateralInternal (env : Env X) (market : Nat) (account : A) (amount : Nat) :
    LendingCall A X F Unit := do
  let config ← getMarket market
  let s ← Call.get
  let collateral := (s.accountCollateral.get market account).getD 0
  Call.ensure (amount ≤ collateral) (err .notEnoughCollateral)
  let borrowAsset ← assetId config.borrow
  let owed ← borrowBalanceCurrent market account
  let borrowValue ← getPrice env borrowAsset (owed.getD 0)
  let rest ← arithmetic (Fixed.checkedSub collateral amount)
  let collateralValue ← getPrice env config.collateral rest
  let critical ← arithmetic (BorrowerData.ofValues collateralValue borrowValue config.collateralFactor
    config.underCollaterizedWarnPercent).shouldLiquidate
  Call.ensure (critical = false) (err .notEnoughCollateral)
  Call.ensure (cfg.vault.currency.canDeposit config.collateral account amount s.ledger = true)
    (err .transferFailed)
  Call.ensure
    (cfg.vault.currency.canWithdraw config.collateral (cfg.accountId market) amount s.ledger = true)
    (err .transferFailed)
  Call.modify fun s => { s with
    accountCollateral := s.accountCollateral.put market account (collateral - amount) }
  -- `.expect("impossible; qed;")`
  onLedger (fun _ => .panic)
    (cfg.vault.currency.transfer config.collateral (cfg.accountId market) account amount true)

/-- The extrinsic `withdraw_collateral`. -/
def withdrawCollateral (env : Env X) (origin : RawOrigin A) (market amount : Nat) :
    LendingCall A X F Unit :=
  Call.transactional do
    let sender ← ensureSigned origin
    withdrawCollateralInternal cfg env market sender amount

/-! ## Borrowing -/

/-- The index of an account after borrowing `amount` on top of `existing`: the two indexes weighted
    by the shares of the two amounts, in whole percent. -/
def calcUpdatedAccountInterestIndex (marketIndex amount existing accountIndex : Nat) :
    LendingCall A X F Nat := do
  let total ← arithmetic (Fixed.checked (existing + amount))
  let newPart ← trap
    (Fixed.quotient marketIndex (Fixed.ofPercent (Fixed.percentFromRational amount total)) Fixed.div)
  let oldPart ← trap
    (Fixed.quotient accountIndex (Fixed.ofPercent (Fixed.percentFromRational existing total))
      Fixed.div)
  trap (newPart + oldPart)

def updatedAccountInterestIndex (market : Nat) (debtOwner : A) (amount : Nat) (debtAsset : X) :
    LendingCall A X F Nat := do
  let marketIndex ← getBorrowIndex market
  let s ← Call.get
  calcUpdatedAccountInterestIndex marketIndex amount (s.ledger.balance debtAsset debtOwner)
    ((s.debtIndex.get market debtOwner).getD 0)

def canBorrow (env : Env X) (market : Nat) (debtOwner : A) (amount : Nat)
    (config : MarketConfig A X) : LendingCall A X F Unit := do
  let s ← Call.get
  Call.ensure ((s.borrowTimestamp.get market debtOwner).all (· < s.lastBlockTimestamp) = true)
    (err .invalidTimestampOnBorrowRequest)
  let borrowAsset ← assetId config.borrow
  let limit ← getBorrowLimit env market debtOwner
  let amountValue ← getPrice env borrowAsset amount
  Call.ensure (amountValue ≤ limit) (err .notEnoughCollateralToBorrowAmount)
  Call.ensure (cfg.vault.currency.canWithdraw borrowAsset (cfg.accountId market) amount
    s.ledger = true)
    (err .notEnoughBorrowAsset)
  Call.when ((s.borrowRent.get market debtOwner).isNone = true)
    (Call.ensure (cfg.vault.currency.canWithdraw cfg.vault.nativeAsset debtOwner (cfg.liquidateFee 1)
      s.ledger = true) (err .notEnoughRent))
  let funds ← onVault (Vault.availableFunds cfg.vault config.borrow (cfg.accountId market))
  Call.ensure (funds ≠ .mustLiquidate) (err .marketIsClosing)

/-- The rent of a borrow is taken once, as long as it is recorded. -/
def payRent (market : Nat) (debtOwner : A) : LendingCall A X F Unit := do
  let s ← Call.get
  Call.when ((s.borrowRent.get market debtOwner).isNone = true) do
    let deposit := cfg.liquidateFee 2
    onLedger .token (cfg.vault.currency.transfer cfg.vault.nativeAsset debtOwner
      (cfg.accountId market) deposit true)
    Call.modify fun s => { s with borrowRent := s.borrowRent.put market debtOwner deposit }

/-- `Lending::borrow`. -/
def borrowInternal (env : Env X) (market : Nat) (debtOwner : A) (amount : Nat) :
    LendingCall A X F Unit := do
  let config ← getMarket market
  let borrowAsset ← assetId config.borrow
  canBorrow cfg env market debtOwner amount config
  let s ← Call.get
  let debtAsset := s.debtAsset cfg market
  let index ← updatedAccountInterestIndex market debtOwner amount debtAsset
  onLedger .token (cfg.vault.currency.mintInto debtAsset debtOwner amount)
  onLedger .token (cfg.vault.currency.hold debtAsset debtOwner amount)
  onLedger .token
    (cfg.vault.currency.transfer borrowAsset (cfg.accountId market) debtOwner amount true)
  Call.modify fun s => { s with
    debtIndex := s.debtIndex.put market debtOwner index
    borrowTimestamp := s.borrowTimestamp.put market debtOwner s.lastBlockTimestamp }
  payRent cfg market debtOwner

/-- The extrinsic `borrow`. -/
def borrow (env : Env X) (origin : RawOrigin A) (market amount : Nat) : LendingCall A X F Unit :=
  Call.transactional do
    let sender ← ensureSigned origin
    borrowInternal cfg env market sender amount

def canRepayBorrow (market : Nat) (payer beneficiary : A) (amount owed : Nat) (borrowAsset : X) :
    LendingCall A X F Unit := do
  let s ← Call.get
  let timestamp ← Call.ofOption (s.borrowTimestamp.get market beneficiary) (err .borrowDoesNotExist)
  Call.ensure (timestamp ≠ s.lastBlockTimestamp) (err .borrowAndRepayInSameBlockIsNotSupported)
  Call.ensure (0 < amount) (err .repayAmountMustBeGraterThanZero)
  Call.ensure (amount ≤ owed) (err .cannotRepayMoreThanBorrowAmount)
  Call.ensure (cfg.vault.currency.canWithdraw borrowAsset payer amount s.ledger = true)
    (err .cannotWithdrawFromProvidedBorrowAccount)
  Call.ensure (cfg.vault.currency.canDeposit borrowAsset (cfg.accountId market) amount
    s.ledger = true)
    (err .transferFailed)

/-- What is repaid beyond the principal is burnt from the interest of the market; the interest that
    is left, and the principal to release. -/
def repayInterest (market : Nat) (debtAsset : X) (amount principal : Nat) :
    LendingCall A X F (Nat × Nat) := do
  let s ← Call.get
  let interest := s.ledger.balance debtAsset (cfg.accountId market)
  if amount ≤ principal then pure (interest, amount)
  else do
    let remaining ← arithmetic (Fixed.checkedSub interest (amount - principal))
    onLedger .token (cfg.vault.currency.burnFrom debtAsset (cfg.accountId market)
      (amount - principal))
    pure (remaining, principal)

/-- The records of a borrow go, and its rent is paid back. The rent stays recorded. -/
def closeBorrow (market : Nat) (beneficiary : A) : LendingCall A X F Unit := do
  Call.modify fun s => { s with
    borrowTimestamp := s.borrowTimestamp.remove market beneficiary
    debtIndex := s.debtIndex.remove market beneficiary }
  let s ← Call.get
  match s.borrowRent.get market beneficiary with
  | some rent => onLedger .token (cfg.vault.currency.transfer cfg.vault.nativeAsset
      (cfg.accountId market) beneficiary rent false)
  | none => pure ()

/-- `Lending::repay_borrow`: all that is owed if no amount is given. -/
def repayBorrowInternal (market : Nat) (payer beneficiary : A) (repayAmount : Option Nat) :
    LendingCall A X F Unit := do
  let config ← getMarket market
  let owed? ← borrowBalanceCurrent market beneficiary
  match owed? with
  | none => pure ()
  | some owed => do
      let amount := repayAmount.getD owed
      let borrowAsset ← assetId config.borrow
      canRepayBorrow cfg market payer beneficiary amount owed borrowAsset
      let s ← Call.get
      let debtAsset := s.debtAsset cfg market
      let (remaining, principal) ← repayInterest cfg market debtAsset amount
        (s.ledger.balance debtAsset beneficiary)
      let _ ← onLedger .token (Currency.release debtAsset beneficiary principal true)
      onLedger .token (cfg.vault.currency.burnFrom debtAsset beneficiary principal)
      onLedger .token (cfg.vault.currency.transfer borrowAsset payer (cfg.accountId market)
        principal false)
      -- The interest left is that of all borrowers of the market.
      Call.when (remaining = 0) (closeBorrow cfg market beneficiary)

/-- The extrinsic `repay_borrow`. -/
def repayBorrow (origin : RawOrigin A) (market : Nat) (beneficiary : A) (amount : Nat) :
    LendingCall A X F Unit :=
  Call.transactional do
    let sender ← ensureSigned origin
    repayBorrowInternal cfg market sender beneficiary (some amount)

/-! ## Liquidation -/

/-- The body of the loop of `liquidate_internal`. -/
def liquidateAccount (env : Env X) (liquidator : A) (market : Nat) (account : A) :
    LendingCall A X F Unit := do
  let critical ← shouldLiquidate env market account
  Call.when (critical = true) do
    let config ← getMarket market
    let borrowAsset ← assetId config.borrow
    let collateral ← collateralOfAccount market account
    let unitPrice ← answer (env.oracle.getRatio config.collateral borrowAsset)
    let _ ← onLiquidations (Liquidations.liquidate cfg.liquidations env.now (cfg.accountId market)
      ⟨⟨config.collateral, borrowAsset⟩, ⟨collateral, unitPrice⟩⟩ config.liquidators)
    let s ← Call.get
    match s.borrowRent.get market account with
    | some deposit => onLedger .token (cfg.vault.currency.transfer cfg.vault.nativeAsset
        (cfg.accountId market) liquidator deposit false)
    | none => pure ()

/-- The extrinsic `liquidate`. -/
def liquidate (env : Env X) (origin : RawOrigin A) (market : Nat) (borrowers : List A) :
    LendingCall A X F Unit :=
  Call.transactional do
    let sender ← ensureSigned origin
    Call.forEach borrowers (liquidateAccount cfg env sender market)

/-! ## Blocks -/

/-- `accrue_interest_internal`: the interest on the borrows and the new index. -/
def accrueInterestInternal {M : Type}
    (getBorrowRate : Nat → Call M (DispatchError Empty) (Option Nat))
    (utilizationRatio borrowIndex deltaTime totalBorrows : Nat) :
    Call M (DispatchError PalletError) (Nat × Nat) := do
  let rate? ← Call.zoom id (fun m _ => m) (DispatchError.map Empty.elim)
    (getBorrowRate utilizationRatio)
  let borrowRate ← Call.ofOption rate? (err .borrowRateDoesNotExist)
  let borrowIndexNew ← Call.ofExcept
    ((incrementIndex borrowRate borrowIndex deltaTime).mapError .arithmetic)
  let accrueIncrement ← Call.ofExcept
    ((accruedIncrement borrowRate deltaTime totalBorrows).mapError .arithmetic)
  pure (accrueIncrement, borrowIndexNew)

def accrueInterest (market now : Nat) : LendingCall A X F Unit := do
  let borrows ← totalBorrows cfg market
  let cash ← totalCash cfg market
  let utilization ← arithmetic (calcUtilizationRatio (Fixed.ofInteger cash) (Fixed.ofInteger borrows))
  let config ← getMarket market
  let s ← Call.get
  Call.ensure (s.lastBlockTimestamp ≤ now) (err .underflow)
  let deltaTime := now - s.lastBlockTimestamp
  let index ← getBorrowIndex market
  -- The model is a copy of the stored one, and is not written back.
  let accrued ← Call.ofExcept
    (accrueInterestInternal InterestRateModel.getBorrowRate utilization index
    deltaTime borrows config.interestRateModel).1
  Call.modify fun s => { s with borrowIndex := Function.update s.borrowIndex market (some accrued.2) }
  onLedger .token
    (cfg.vault.currency.mintInto (s.debtAsset cfg market) (cfg.accountId market) accrued.1)

/-- Return to the vault at most `balance`, or all there is. -/
def handleDepositable (config : MarketConfig A X) (market : Nat) (balance : Option Nat) :
    LendingCall A X F Unit := do
  let borrowAsset ← assetId config.borrow
  let s ← Call.get
  let reducible := cfg.vault.currency.reducible s.ledger borrowAsset (cfg.accountId market) false
  onVault (Vault.strategyDeposit cfg.vault config.borrow (cfg.accountId market)
    (balance.elim reducible (min reducible)))

/-- The body of the loop of `initialize_block`. -/
def initializeMarket (now market : Nat) : LendingCall A X F Unit := do
  let config ← getMarket market
  accrueInterest cfg market now
  let funds ← onVault (Vault.availableFunds cfg.vault config.borrow (cfg.accountId market))
  match funds with
  | .withdrawable balance =>
      onVault (Vault.strategyWithdraw cfg.vault config.borrow (cfg.accountId market) balance)
  | .depositable balance => handleDepositable cfg config market (some balance)
  | .mustLiquidate => handleDepositable cfg config market none

/-- The loop of `initialize_block`, with the errors it collects. -/
def initializeMarkets (now : Nat) : List Nat → LendingCall A X F (List (DispatchError PalletError))
  | [] => pure []
  | market :: rest => do
      let error ← Call.attempt (initializeMarket cfg now market)
      let errors ← initializeMarkets now rest
      pure (error.toList ++ errors)

/-- `initialize_block`: any error rolls back the whole block start. -/
def initializeBlock (now : Nat) : LendingCall A X F Unit := fun s =>
  match initializeMarkets cfg now (cfg.iteration s.markets.keys) s with
  | (.ok [], s') => (.ok (), { s' with lastBlockTimestamp := now })
  | (.ok _, _) => (.ok (), s)
  | (.error e, _) => (.error e, s)

/-! ## A small market -/

/-- Asset `0` is native. Vault `n` owns account `1000 + 2 * n`, and market `m` the account after it.
    A market starts with `1000` of its borrow asset, and liquidations go to an auction. -/
def sample : Config Nat Nat Nat where
  vault := { Vault.sample with
    accountId := fun n => 1000 + 2 * n
    accountId_injective :=
      fun _ _ _ _ h => Nat.eq_of_mul_eq_mul_left (by decide) (Nat.add_left_cancel h) }
  liquidations := ⟨DutchAuction.sample fun _ => 1, fun id => if id = 0 then some (.dutchAuction
    DutchAuction.sampleCurve) else none, 0⟩
  same_currency := rfl
  same_native := rfl
  defaultAsset := 0
  maxLendingCount := 10
  oracleMarketCreationStake := 1000
  liquidateFee n := n
  iteration keys := keys
  iteration_perm keys := .refl keys
  accountId m := 1001 + 2 * m
  accountId_injective :=
    fun _ _ _ _ h => Nat.eq_of_mul_eq_mul_left (by decide) (Nat.add_left_cancel h)
  accountId_ne_vault := by
    intro market vaultId h
    simp only at h
    omega
  accountId_ne_treasury := by
    intro market h
    simp only [DutchAuction.sample] at h
    omega

/-- Small numbers are accounts of users. -/
theorem sample_user (a : Nat) (h : a < 1000) (m : Nat) : a ≠ sample.accountId m := by
  show a ≠ 1001 + 2 * m
  omega

/-- Every asset is worth `price` for a unit. -/
def sampleOracle (price : Nat → Nat) : Oracle Nat where
  isSupported _ := .ok true
  getPrice x n := .ok (price x * n)
  getPriceInverse _ n := .ok n
  getRatio _ _ := .ok Fixed.div

/-- Asset `1` is collateral for asset `2`, at twice its value; the interest is ten percent a
    year. -/
def sampleInput : CreateInput Nat where
  updatable := ⟨2 * Fixed.div, 10, [], .curve ⟨Fixed.div / 10⟩⟩
  currencyPair := ⟨1, 2⟩
  reservedFactor := 10 ^ 17

theorem sampleInput_valid : sampleInput.Valid where
  collateralFactor := by decide
  interestRateModel := show Fixed.div / 10 ≤ CurveModel.maxBaseRate by decide
  pair := by decide

/-- Account `7` manages markets, accounts `1` and `2` have collateral, account `3` has asset `2`. -/
def sampleLedger : Ledger Nat Nat :=
  Ledger.ofList [(0, 1, 100), (0, 2, 100), (0, 3, 100), (0, 9, 100), (1, 1, 1000), (1, 2, 1000),
    (2, 3, 1000), (2, 7, 10000)]

end Lending
end Composable
