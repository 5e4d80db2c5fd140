import Composable.Support.Fixed
import Composable.Support.StorageMap
import Composable.Traits.Currency
import Mathlib.Algebra.Group.Basic
import Mathlib.Data.Set.Function
import Mathlib.Order.Interval.Set.Defs

/-!
# `Vault.Model` — the vault pallet

Embeds `frame/vault/src/{lib,rent,capabilities,models,validation}.rs`: the storage, the extrinsics,
and the `Vault`, `StrategicVault` and `ReportableStrategicVault` interfaces that other pallets call.

Amounts and block numbers are natural numbers. The build is one that checks for overflows, in which
an unchecked `+` on balances or ids traps when it leaves its type; a build without the checks goes
on with the sum wrapped. `create` is `#[transactional]`; of all the others a failure keeps what was
written before it, which matters for `withdraw` (the burn precedes the transfer) and `deposit` (the
transfer precedes the mint). A closure of `try_mutate` or `try_mutate_exists` that fails writes
nothing to its own entry. Events and weights are left out.
-/

namespace Composable
namespace Vault

/-! ## Data model -/

/-- The deposit that keeps a vault alive. -/
inductive Deposit where
  | existential
  /-- The amount left in the deposit and the last block at which payment was performed. -/
  | rent (amount at_ : Nat)
deriving DecidableEq, Repr

/-- Capabilities (or more accurately, `incapabilities`): the four flags of the bit set. -/
structure Capabilities where
  tombstoned : Bool
  stopped : Bool
  withdrawalsStopped : Bool
  depositsStopped : Bool
deriving DecidableEq, Repr

namespace Capabilities

def default : Capabilities := ⟨false, false, false, false⟩

def isStopped (c : Capabilities) : Bool := c.stopped

def isTombstoned (c : Capabilities) : Bool := c.tombstoned

def isInactive (c : Capabilities) : Bool := c.tombstoned || c.isStopped

def setTombstoned (c : Capabilities) : Capabilities := { c with tombstoned := true }

def untombstone (c : Capabilities) : Capabilities := { c with tombstoned := false }

def setStopped (c : Capabilities) : Capabilities := { c with stopped := true }

def start (c : Capabilities) : Capabilities := { c with stopped := false }

def withdrawalsAllowed (c : Capabilities) : Bool := !(c.withdrawalsStopped || c.isStopped)

def depositsAllowed (c : Capabilities) : Bool := !(c.depositsStopped || c.isInactive)

end Capabilities

structure VaultInfo (A X : Type) where
  assetId : X
  lpTokenId : X
  manager : A
  deposit : Deposit
  capabilities : Capabilities
deriving DecidableEq

/-- What a strategy holds of a vault; the allocation is in parts of `10 ^ 18`. -/
structure StrategyOverview where
  allocation : Nat
  /-- The reported balance of the strategy. -/
  balance : Nat
  lifetimeWithdrawn : Nat
  lifetimeDeposited : Nat
deriving DecidableEq, Repr

/-- The `Default` that a `ValueQuery` read of an absent entry returns. -/
def StrategyOverview.default : StrategyOverview := ⟨0, 0, 0, 0⟩

def StrategyOverview.withBalance (overview : StrategyOverview) (balance : Nat) : StrategyOverview :=
  { overview with balance := balance }

structure VaultConfig (A X : Type) where
  assetId : X
  /-- Idle amount of assets for withdraw. -/
  reserved : Nat
  manager : A
  strategies : StorageMap A Nat

inductive FundsAvailability where
  | withdrawable (amount : Nat)
  | depositable (amount : Nat)
  | mustLiquidate
deriving DecidableEq, Repr

inductive Error where
  | accountIsNotManager
  | cannotCreateAsset
  | transferFromFailed
  | mintFailed
  | insufficientLpTokens
  | vaultDoesNotExist
  | noFreeVaultAllocation
  | allocationMustSumToOne
  | tooManyStrategies
  | insufficientFunds
  | amountMustGteMinimumDeposit
  | amountMustGteMinimumWithdrawal
  | notEnoughLiquidity
  | insufficientCreationDeposit
  | invalidSurchargeClaim
  | notVaultLpToken
  | depositsHalted
  | withdrawalsHalted
  | vaultNotTombstoned
  | tombstoneDurationNotExceeded
  | invalidAddSurcharge
deriving DecidableEq, Repr

/-- The pallet's constants, the ledger and the factory it is wired to, and its derived accounts. -/
structure Config (A X F : Type) where
  currency : Currency A X
  /-- Its operations take their amounts and nothing else. -/
  currency_exact : currency.Exact
  nativeAsset : X
  currencyFactory : CurrencyFactory F X
  maxStrategies : Nat
  minimumDeposit : Nat
  minimumWithdrawal : Nat
  creationDeposit : Nat
  existentialDeposit : Nat
  tombstoneDuration : Nat
  rentPerBlock : Nat
  /-- `multiply_by_rational` of the arithmetic library. -/
  multiplyByRational : Nat → Nat → Nat → Except ArithmeticError Nat
  accountId : Nat → A
  rentAccount : Nat → A
  deletionRewardAccount : Nat → A
  /-- Vault ids are counted in 64 bits. -/
  accountId_injective : Set.InjOn accountId (Set.Iic u64Max)

attribute [instance] Config.currency_exact

/-- The pallet's storage, with the ledger and the factory state it acts on. -/
structure State (A X F : Type) where
  ledger : Ledger A X
  factory : F
  vaultCount : Nat
  vaults : Nat → Option (VaultInfo A X)
  lpTokensToVaults : X → Option Nat
  capitalStructure : Nat → StorageMap A StrategyOverview

variable {A X F : Type} [DecidableEq A] [DecidableEq X]

/-- A call of the pallet. -/
abbrev VaultCall (A X F α : Type) : Type := Call (State A X F) (DispatchError Error) α

/-- An error of this pallet. -/
abbrev err (e : Error) : DispatchError Error := .module e

/-- A ledger operation of the pallet; `f` is the `map_err` around it. -/
def onLedger {α : Type} (f : TokenError → DispatchError Error)
    (x : Call (Ledger A X) TokenError α) : VaultCall A X F α :=
  Call.zoom State.ledger (fun l s => { s with ledger := l }) f x

/-! ## Rent (`rent.rs`) -/

inductive Verdict where
  | exempt
  | charge (remaining payable : Nat)
  | evict
deriving DecidableEq, Repr

variable (cfg : Config A X F)

def depositFromBalance (now amount : Nat) : Deposit :=
  if cfg.existentialDeposit < amount then .existential else .rent amount now

def evaluateDeletion (now : Nat) : Deposit → Bool
  | .existential => false
  | .rent _ at_ => cfg.tombstoneDuration ≤ now - at_

def evaluateEviction (now : Nat) : Deposit → Verdict
  | .existential => .exempt
  | .rent amount at_ =>
      -- Rent was already paid this block.
      if now ≤ at_ then .exempt
      else
        let numBlocks := min (now - at_) (2 ^ 32 - 1)
        let rentDue := Fixed.saturated (cfg.rentPerBlock * numBlocks)
        if amount ≤ rentDue then .evict else .charge (amount - rentDue) rentDue

/-! ## Queries -/

def vaultInfo (id : Nat) : VaultCall A X F (VaultInfo A X) := do
  let s ← Call.get
  Call.ofOption (s.vaults id) (err .vaultDoesNotExist)

/-- What all strategies of a vault report together. -/
def outstanding (s : State A X F) (id : Nat) : Nat :=
  (s.capitalStructure id).total fun _ overview => overview.balance

/-- The assets a vault controls: its own balance and what its strategies report. -/
def assets (s : State A X F) (id : Nat) (vault : VaultInfo A X) : Nat :=
  s.ledger.balance vault.assetId (cfg.accountId id) + outstanding s id

/-- Computes the sum of all the assets that the vault currently controls. -/
def doAssetsUnderManagement (id : Nat) (vault : VaultInfo A X) : VaultCall A X F Nat := do
  let s ← Call.get
  Call.ensure (assets cfg s id vault ≤ u128Max) .panic
  pure (assets cfg s id vault)

def assetsUnderManagement (id : Nat) : VaultCall A X F Nat := do
  let vault ← vaultInfo id
  doAssetsUnderManagement cfg id vault

/-- The value of LP tokens: `lp * aum / issuance`. -/
def doLpShareValue (id : Nat) (vault : VaultInfo A X) (lpAmount : Nat) : VaultCall A X F Nat := do
  let aum ← doAssetsUnderManagement cfg id vault
  let s ← Call.get
  match cfg.multiplyByRational lpAmount aum (s.ledger.issuance vault.lpTokenId) with
  | .ok value => pure value
  | .error _ => Call.fail (.arithmetic .overflow)

def tokenVault (token : X) : VaultCall A X F Nat := do
  let s ← Call.get
  Call.ofOption (s.lpTokensToVaults token) (err .notVaultLpToken)

/-! ## Creation -/

/-- The parts of all allocations together, as long as they fit into 64 bits. -/
def allocationSum (config : VaultConfig A X) : Option Nat :=
  config.strategies.entries.foldl
    (fun sum e => sum.bind fun n => if n + e.2 ≤ u64Max then some (n + e.2) else none)
    (some config.reserved)

/-- `Perquintill::one().deconstruct()`. -/
def perquintillOne : Nat := 10 ^ 18

/-- The capital structure a vault starts with, on top of what is stored under its id. -/
def withStrategies (strategies : StorageMap A Nat) (m : StorageMap A StrategyOverview) :
    StorageMap A StrategyOverview :=
  strategies.entries.foldl (fun m e => m.insert e.1 ⟨e.2, 0, 0, 0⟩) m

/-- The storage with one more vault, under the id that the counter reaches. -/
def State.addVault (s : State A X F) (lpTokenId : X) (factory : F) (deposit : Deposit)
    (config : VaultConfig A X) : State A X F :=
  let id := s.vaultCount + 1
  { s with
    factory := factory
    vaultCount := id
    vaults := Function.update s.vaults id
      (some ⟨config.assetId, lpTokenId, config.manager, deposit, .default⟩)
    lpTokensToVaults := Function.update s.lpTokensToVaults lpTokenId (some id)
    capitalStructure := Function.update s.capitalStructure id
      (withStrategies config.strategies (s.capitalStructure id)) }

def doCreateVault (deposit : Deposit) (config : VaultConfig A X) : VaultCall A X F Nat := do
  let s ← Call.get
  Call.ensure (s.vaultCount < u64Max) .panic
  let sum ← Call.ofOption (allocationSum config) (err .allocationMustSumToOne)
  Call.ensure (sum = perquintillOne) (err .allocationMustSumToOne)
  match cfg.currencyFactory.create s.factory .lpTokens with
  | .error _ => Call.fail (err .cannotCreateAsset)
  | .ok (lpTokenId, factory) =>
      Call.modify fun s => s.addVault lpTokenId factory deposit config
      pure (s.vaultCount + 1)

/-- `Vault::create`. -/
def create (deposit : Deposit) (config : VaultConfig A X) : VaultCall A X F Nat := do
  Call.ensure (config.strategies.entries.length ≤ cfg.maxStrategies) (err .tooManyStrategies)
  doCreateVault cfg deposit config

/-- The extrinsic `create`. -/
def createExtrinsic (now : Nat) (origin : RawOrigin A) (config : VaultConfig A X)
    (depositAmount : Nat) : VaultCall A X F Unit :=
  Call.transactional do
    let sender ← ensureSigned origin
    Call.ensure (cfg.creationDeposit ≤ depositAmount) (err .insufficientCreationDeposit)
    let amount := depositAmount - cfg.creationDeposit
    let id ← create cfg (depositFromBalance cfg now amount) config
    onLedger .token (cfg.currency.transfer cfg.nativeAsset sender (cfg.deletionRewardAccount id)
      cfg.creationDeposit true)
    onLedger .token (cfg.currency.transfer cfg.nativeAsset sender (cfg.rentAccount id) amount true)

/-! ## Deposits and withdrawals of users -/

def doWithdraw (id : Nat) (recipient : A) (lpAmount : Nat) : VaultCall A X F Nat := do
  let vault ← vaultInfo id
  Call.ensure (vault.capabilities.withdrawalsAllowed = true) (err .withdrawalsHalted)
  let value ← doLpShareValue cfg id vault lpAmount
  let s ← Call.get
  Call.ensure (value ≤ s.ledger.balance vault.assetId (cfg.accountId id)) (err .notEnoughLiquidity)
  Call.ensure (cfg.currency.canWithdraw vault.lpTokenId recipient lpAmount s.ledger = true)
    (err .insufficientLpTokens)
  Call.ensure (cfg.currency.canWithdraw vault.assetId (cfg.accountId id) value s.ledger = true)
    (err .transferFromFailed)
  onLedger (fun _ => err .insufficientLpTokens)
    (cfg.currency.burnFrom vault.lpTokenId recipient lpAmount)
  onLedger (fun _ => err .transferFromFailed)
    (cfg.currency.transfer vault.assetId (cfg.accountId id) recipient value true)
  pure value

/-- The LP tokens for a deposit: the amount itself while nothing is under management, else the share
    of the deposit in the assets, which must not round to nothing. -/
def lpForDeposit (s : State A X F) (vault : VaultInfo A X) (aum amount : Nat) : VaultCall A X F Nat :=
  if aum = 0 then pure amount
  else
    match cfg.multiplyByRational amount (s.ledger.issuance vault.lpTokenId) aum with
    | .error _ => Call.fail (err .noFreeVaultAllocation)
    | .ok lp => do
        Call.ensure (0 < lp) (err .insufficientCreationDeposit)
        pure lp

def doDeposit (id : Nat) (sender : A) (amount : Nat) : VaultCall A X F Nat := do
  let vault ← vaultInfo id
  Call.ensure (vault.capabilities.depositsAllowed = true) (err .depositsHalted)
  let s ← Call.get
  Call.ensure (cfg.currency.canWithdraw vault.assetId sender amount s.ledger = true)
    (err .transferFromFailed)
  let aum ← assetsUnderManagement cfg id
  let lp ← lpForDeposit cfg s vault aum amount
  Call.ensure (cfg.currency.canDeposit vault.lpTokenId sender lp s.ledger = true) (err .mintFailed)
  onLedger (fun _ => err .transferFromFailed)
    (cfg.currency.transfer vault.assetId sender (cfg.accountId id) amount true)
  onLedger (fun _ => err .mintFailed) (cfg.currency.mintInto vault.lpTokenId sender lp)
  pure lp

/-- `Vault::deposit`. -/
def deposit (id : Nat) (sender : A) (amount : Nat) : VaultCall A X F Nat := do
  Call.ensure (cfg.minimumDeposit < amount) (err .amountMustGteMinimumDeposit)
  doDeposit cfg id sender amount

/-- `Vault::withdraw`. -/
def withdraw (id : Nat) (recipient : A) (lpAmount : Nat) : VaultCall A X F Nat := do
  Call.ensure (cfg.minimumWithdrawal < lpAmount) (err .amountMustGteMinimumWithdrawal)
  doWithdraw cfg id recipient lpAmount

def depositExtrinsic (origin : RawOrigin A) (id amount : Nat) : VaultCall A X F Nat := do
  let sender ← ensureSigned origin
  deposit cfg id sender amount

def withdrawExtrinsic (origin : RawOrigin A) (id lpAmount : Nat) : VaultCall A X F Nat := do
  let recipient ← ensureSigned origin
  withdraw cfg id recipient lpAmount

/-! ## Rent, tombstones and deletion -/

/-- Who receives the reward of a surcharge or deletion claim. -/
def rewardAddress : RawOrigin A → Option A → Option A
  | .signed account, none => some account
  | .none, some address => some address
  | _, _ => none

/-- Write one vault's information. -/
def State.putVault (s : State A X F) (id : Nat) (vault : VaultInfo A X) : State A X F :=
  { s with vaults := Function.update s.vaults id (some vault) }

/-- Substracts rent from a vault, rewarding the caller if successful with a small fee and possibly
    tombstoning the vault. -/
def claimSurcharge (now : Nat) (origin : RawOrigin A) (id : Nat) (address : Option A) :
    VaultCall A X F Unit := do
  let reward ← Call.ofOption (rewardAddress origin address) (err .invalidSurchargeClaim)
  let vault ← vaultInfo id
  match evaluateEviction cfg now vault.deposit with
  | .exempt => pure ()
  | .evict => do
      let s ← Call.get
      onLedger .token (cfg.currency.transfer cfg.nativeAsset (cfg.rentAccount id) reward
        (cfg.currency.reducible s.ledger cfg.nativeAsset (cfg.rentAccount id) false) false)
      Call.modify fun s => s.putVault id
        { vault with deposit := .rent 0 now, capabilities := vault.capabilities.setTombstoned }
  | .charge remaining payable => do
      onLedger .token (cfg.currency.transfer cfg.nativeAsset (cfg.rentAccount id) reward payable true)
      Call.modify fun s => s.putVault id { vault with deposit := .rent remaining now }

def addSurcharge (now : Nat) (origin : RawOrigin A) (id amount : Nat) : VaultCall A X F Unit := do
  let sender ← ensureSigned origin
  Call.ensure (cfg.creationDeposit ≤ amount) (.other "Insufficent Creation Deposit")
  let vault ← vaultInfo id
  match vault.deposit with
  | .existential => Call.fail (err .invalidAddSurcharge)
  | .rent current _ => do
      onLedger .token (cfg.currency.transfer cfg.nativeAsset sender (cfg.rentAccount id) amount false)
      Call.ensure (amount + current ≤ u128Max) .panic
      Call.modify fun s => s.putVault id
        { vault with
          deposit := depositFromBalance cfg now (amount + current)
          capabilities := vault.capabilities.untombstone }

/-- The storage without a deleted vault. The index entry that goes is the one of the vault's
    underlying asset. -/
def State.removeVault (s : State A X F) (id : Nat) (vault : VaultInfo A X) : State A X F :=
  { s with
    vaults := Function.update s.vaults id none
    lpTokensToVaults := Function.update s.lpTokensToVaults vault.assetId none }

def deleteTombstoned (now : Nat) (origin : RawOrigin A) (id : Nat) (address : Option A) :
    VaultCall A X F Unit := do
  let reward ← Call.ofOption (rewardAddress origin address) (err .invalidSurchargeClaim)
  let vault ← vaultInfo id
  Call.ensure (vault.capabilities.isTombstoned = true) (err .vaultNotTombstoned)
  Call.ensure (evaluateDeletion cfg now vault.deposit = true) (err .tombstoneDurationNotExceeded)
  let s ← Call.get
  -- No need to keep `deletionRewardAccount` alive: the vault has no associated data anymore.
  onLedger .token (cfg.currency.transfer cfg.nativeAsset (cfg.deletionRewardAccount id) reward
    (cfg.currency.reducible s.ledger cfg.nativeAsset (cfg.deletionRewardAccount id) false) false)
  Call.modify fun s => s.removeVault id vault

/-! ## Capabilities -/

/-- `CapabilityVault::stop`. -/
def stop (id : Nat) : VaultCall A X F Unit := do
  let s ← Call.get
  let vault ← Call.ofOption (s.vaults id) .cannotLookup
  Call.ensure (vault.capabilities.isTombstoned = false) (.other "cannot stop a tombstoned vault")
  Call.modify fun s => s.putVault id { vault with capabilities := vault.capabilities.setStopped }

/-- `CapabilityVault::start`. -/
def start (id : Nat) : VaultCall A X F Unit := do
  let s ← Call.get
  let vault ← Call.ofOption (s.vaults id) .cannotLookup
  Call.ensure (vault.capabilities.isTombstoned = false) (.other "cannot start a tombstoned vault")
  Call.modify fun s => s.putVault id { vault with capabilities := vault.capabilities.start }

def emergencyShutdown (origin : RawOrigin A) (id : Nat) : VaultCall A X F Unit := do
  ensureRoot origin
  stop id

def startExtrinsic (origin : RawOrigin A) (id : Nat) : VaultCall A X F Unit := do
  ensureRoot origin
  start id

/-! ## Strategies -/

/-- The overview of one strategy, or the default when there is none. -/
def State.strategy (s : State A X F) (id : Nat) (strategy : A) : StrategyOverview :=
  (s.capitalStructure id).getD strategy .default

/-- Write the overview of one strategy. -/
def State.putStrategy (s : State A X F) (id : Nat) (strategy : A) (overview : StrategyOverview) :
    State A X F :=
  { s with capitalStructure :=
      Function.update s.capitalStructure id ((s.capitalStructure id).insert strategy overview) }

/-- Remove the overview of one strategy. -/
def State.eraseStrategy (s : State A X F) (id : Nat) (strategy : A) : State A X F :=
  { s with capitalStructure :=
      Function.update s.capitalStructure id ((s.capitalStructure id).erase strategy) }

/-- `StrategicVault::available_funds`. -/
def availableFunds (id : Nat) (account : A) : VaultCall A X F FundsAvailability := do
  let s ← Call.get
  match s.vaults id, (s.capitalStructure id).lookup account with
  | some vault, some overview =>
      if vault.capabilities.isStopped = false ∧ vault.capabilities.isTombstoned = false then do
        let aum ← assetsUnderManagement cfg id
        let maxAllowed := aum * overview.allocation / perquintillOne
        pure (if maxAllowed ≤ overview.balance then .depositable (overview.balance - maxAllowed)
          else .withdrawable (maxAllowed - overview.balance))
      else pure .mustLiquidate
  | _, _ => pure .mustLiquidate

/-- `StrategicVault::withdraw`. -/
def strategyWithdraw (id : Nat) (recipient : A) (amount : Nat) : VaultCall A X F Unit := do
  let vault ← vaultInfo id
  let s ← Call.get
  let state := s.strategy id recipient
  Call.ensure (state.balance + amount ≤ u128Max) (.arithmetic .overflow)
  Call.ensure (state.lifetimeWithdrawn + amount ≤ u128Max) (.arithmetic .overflow)
  onLedger (fun _ => err .insufficientFunds)
    (cfg.currency.transfer vault.assetId (cfg.accountId id) recipient amount true)
  Call.modify fun s => s.putStrategy id recipient
    { state with
      balance := state.balance + amount
      lifetimeWithdrawn := state.lifetimeWithdrawn + amount }

/-- `StrategicVault::deposit`. A strategy can return more than it has withdrawn through profits. -/
def strategyDeposit (id : Nat) (sender : A) (amount : Nat) : VaultCall A X F Unit := do
  let vault ← vaultInfo id
  let s ← Call.get
  let state := s.strategy id sender
  Call.ensure (state.lifetimeDeposited + amount ≤ u128Max) (.arithmetic .overflow)
  onLedger (fun _ => err .insufficientFunds)
    (cfg.currency.transfer vault.assetId sender (cfg.accountId id) amount true)
  Call.modify fun s => s.putStrategy id sender
    { state with
      balance := state.balance - amount
      lifetimeDeposited := state.lifetimeDeposited + amount }

/-- `ReportableStrategicVault::update_strategy_report`. -/
def updateStrategyReport (id : Nat) (strategy : A) (report : Nat) : VaultCall A X F Unit :=
  Call.modify fun s =>
    s.putStrategy id strategy ((s.strategy id strategy).withBalance report)

/-- Turns a strategy into a liquidation state. Only the vault's manager will be able to call this
    method; the strategy's entry is removed. -/
def liquidateStrategy (origin : RawOrigin A) (id : Nat) (strategy : A) : VaultCall A X F Nat := do
  let sender ← ensureSigned origin
  let vault ← vaultInfo id
  Call.ensure (vault.manager = sender) (err .accountIsNotManager)
  let s ← Call.get
  let overview ← Call.ofOption ((s.capitalStructure id).lookup strategy) .cannotLookup
  Call.modify fun s => s.eraseStrategy id strategy
  pure overview.balance

/-! ## A concrete configuration -/

theorem sample_exact : (Currency.existential fun _ => 1 : Currency Nat Nat).Exact :=
  Currency.existential_exact _

/-- Accounts and assets are numbers, asset `0` is native, and the existential deposit of every asset
    is one. Vault `n` owns account `1000 + n`. -/
def sample : Config Nat Nat Nat where
  currency := Currency.existential fun _ => 1
  currency_exact := sample_exact
  nativeAsset := 0
  currencyFactory := CurrencyFactory.counter
  maxStrategies := 10
  minimumDeposit := 0
  minimumWithdrawal := 0
  creationDeposit := 10
  existentialDeposit := 1000
  tombstoneDuration := 5
  rentPerBlock := 1
  multiplyByRational := Fixed.multiplyByRational
  accountId n := 1000 + n
  rentAccount n := 2000 + n
  deletionRewardAccount n := 3000 + n
  accountId_injective := fun _ _ _ _ h => Nat.add_left_cancel h

/-- A vault over asset `1` with one strategy, account `8`, and manager `7`. -/
def sampleVault : VaultConfig Nat Nat where
  assetId := 1
  reserved := 10 ^ 17
  manager := 7
  strategies := (∅ : StorageMap Nat Nat).insert 8 (9 * 10 ^ 17)

end Vault
end Composable
