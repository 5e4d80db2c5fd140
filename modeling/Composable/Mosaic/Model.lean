import Composable.Mosaic.SubAccount
import Composable.Support.Fixed
import Composable.Support.StorageMap
import Composable.Traits.Currency

/-!
# `Mosaic.Model` — the bridge pallet

Embeds `frame/mosaic/src/{lib,decay,relayer}.rs`: the storage, the extrinsics, the relayer with its
scheduled rotation and the decaying penalty on its minting budget.

The block number is read from the system pallet and is part of the storage here. Funds in flight sit
in custody accounts, one per user and direction; `Config.subAccountId` derives them. Which of the
derived ids coincide is the subject of `Mosaic.SubAccount`, and nothing is assumed about it here.

A closure of `try_mutate_exists` that fails writes nothing to its entry. `transferTo`,
`acceptTransfer`, `claimStaleTo`, `setBudget` and `rescindTimelockedMint` are `#[transactional]`.
Events, their ids and weights are left out.
-/

namespace Composable
namespace Mosaic

/-! ## Relayer (`relayer.rs`) -/

/-- Next relayer configuration to be used. -/
structure Next (A : Type) where
  ttl : Nat
  account : A
deriving DecidableEq

/-- Configuration for the relayer account, with the scheduled update of the account. -/
structure RelayerConfig (A : Type) where
  current : A
  next : Option (Next A)
deriving DecidableEq

namespace RelayerConfig

variable {A : Type}

/-- `StaleRelayer::new`: no new account is scheduled. -/
def new (account : A) : RelayerConfig A := ⟨account, none⟩

def rejig (relayer : RelayerConfig A) (current : Nat) : RelayerConfig A :=
  match relayer.next with
  | none => relayer
  | some next =>
      if next.ttl ≤ current then ⟨next.account, none⟩ else ⟨relayer.current, some next⟩

/-- `StaleRelayer::update` enforces the relayer's TTL. -/
def update (relayer : RelayerConfig A) (now : Nat) : RelayerConfig A := relayer.rejig now

def rotate (relayer : RelayerConfig A) (account : A) (ttl : Nat) : RelayerConfig A :=
  { relayer with next := some ⟨ttl, account⟩ }

end RelayerConfig

/-! ## Decay (`decay.rs`) -/

/-- The decay function of a penalty. -/
inductive BudgetPenaltyDecayer where
  /-- Decreases every block by the factor. -/
  | linear (factor : Nat)
deriving DecidableEq, Repr

/-- `None` if the reduction overflows. -/
def BudgetPenaltyDecayer.checkedDecay :
    BudgetPenaltyDecayer → (amount current last : Nat) → Option Nat
  | .linear factor, amount, current, last =>
      if (current - last) * factor ≤ u128Max then some (amount - (current - last) * factor) else none

/-! ## Data model -/

/-- The information required for an assets to be transferred between chains. -/
structure AssetInfo where
  lastMintBlock : Nat
  budget : Nat
  penalty : Nat
  penaltyDecayer : BudgetPenaltyDecayer
deriving DecidableEq, Repr

/-- The network informations, used for rate limitting. -/
structure NetworkInfo where
  enabled : Bool
  maxTransferSize : Nat
deriving DecidableEq, Repr

inductive Error where
  | relayerNotSet
  | badTTL
  | badTimelockPeriod
  | unsupportedAsset
  | networkDisabled
  | unsupportedNetwork
  | overflow
  | noStaleTransactions
  | insufficientBudget
  | exceedsMaxTransferSize
  | noClaimableTx
  | txStillLocked
  | noOutgoingTx
  | amountMismatch
  | assetNotMapped
deriving DecidableEq, Repr

/-- The pallet's constants, the ledger it is wired to and its derived accounts. -/
structure Config (A X : Type) where
  currency : Currency A X
  minimumTTL : Nat
  minimumTimeLockPeriod : Nat
  /-- The largest block number. -/
  maxBlock : Nat
  controlOrigin : RawOrigin A → Bool
  subAccountId : TransactionType → A → A

/-- The pallet's storage, with the ledger it acts on and the block number. -/
structure State (A X N R : Type) where
  ledger : Ledger A X
  block : Nat
  relayer : Option (RelayerConfig A)
  assetsInfo : X → Option AssetInfo
  networkInfos : N → Option NetworkInfo
  timeLockPeriod : Option Nat
  nonce : Nat
  /-- Locked outgoing tx out of Picasso, that a relayer needs to process. -/
  outgoingTransactions : StorageDoubleMap A X (Nat × Nat)
  /-- Locked incoming tx into Picasso that the user needs to claim. -/
  incomingTransactions : StorageDoubleMap A X (Nat × Nat)
  localToRemoteAsset : StorageDoubleMap X N R
  remoteToLocalAsset : StorageDoubleMap R N X

variable {A X N R : Type}

/-- A call of the pallet. -/
abbrev MosaicCall (A X N R α : Type) : Type := Call (State A X N R) (DispatchError Error) α

/-- An error of this pallet. -/
abbrev err (e : Error) : DispatchError Error := .module e

/-- A ledger operation of the pallet. -/
def onLedger {α : Type} (x : Call (Ledger A X) TokenError α) : MosaicCall A X N R α :=
  Call.zoom State.ledger (fun l s => { s with ledger := l }) .token x

variable [DecidableEq A] [DecidableEq X] [DecidableEq N] [DecidableEq R] (cfg : Config A X)

/-- `T::ControlOrigin::ensure_origin`. -/
def ensureControl (origin : RawOrigin A) : MosaicCall A X N R Unit :=
  Call.ensure (cfg.controlOrigin origin = true) .badOrigin

/-- The account of the current relayer. -/
def relayerAccountId : MosaicCall A X N R A := do
  let s ← Call.get
  let stale ← Call.ofOption s.relayer (err .relayerNotSet)
  pure (stale.update s.block).current

/-- The relayer's configuration, and the block. -/
def ensureRelayer (origin : RawOrigin A) : MosaicCall A X N R (RelayerConfig A × Nat) := do
  let acc ← ensureSigned origin
  let s ← Call.get
  let stale ← Call.ofOption s.relayer (err .relayerNotSet)
  let relayer := stale.update s.block
  Call.ensure (relayer.current = acc) .badOrigin
  pure (relayer, s.block)

def getLocalMapping (remoteAssetId : R) (networkId : N) : MosaicCall A X N R X := do
  let s ← Call.get
  Call.ofOption (s.remoteToLocalAsset.get remoteAssetId networkId) (err .assetNotMapped)

def getRemoteMapping (assetId : X) (networkId : N) : MosaicCall A X N R R := do
  let s ← Call.get
  Call.ofOption (s.localToRemoteAsset.get assetId networkId) (err .assetNotMapped)

/-! ## Governance -/

/-- Sets the current relayer configuration. -/
def setRelayer (origin : RawOrigin A) (relayer : A) : MosaicCall A X N R Unit := do
  ensureControl cfg origin
  Call.modify fun s => { s with relayer := some (.new relayer) }

/-- Rotates the relayer account. -/
def rotateRelayer (origin : RawOrigin A) (new : A) (ttl : Nat) : MosaicCall A X N R Unit := do
  Call.ensure (cfg.minimumTTL < ttl) (err .badTTL)
  let (relayer, current) ← ensureRelayer origin
  Call.modify fun s =>
    { s with relayer := some (relayer.rotate new (min (current + ttl) cfg.maxBlock)) }

/-- Sets supported networks and maximum transaction sizes accepted by the relayer. -/
def setNetwork (origin : RawOrigin A) (networkId : N) (info : NetworkInfo) :
    MosaicCall A X N R Unit := do
  let _ ← ensureRelayer origin
  Call.modify fun s => { s with networkInfos := Function.update s.networkInfos networkId (some info) }

/-- The asset info with a new budget; the current penalty is not reset. -/
def budgeted (block amount : Nat) (decay : BudgetPenaltyDecayer) : Option AssetInfo → AssetInfo
  | some info => { info with budget := amount, penaltyDecayer := decay }
  | none => ⟨block, amount, 0, decay⟩

/-- Sets the relayer budget for incoming transactions for specific assets. -/
def setBudget (origin : RawOrigin A) (assetId : X) (amount : Nat) (decay : BudgetPenaltyDecayer) :
    MosaicCall A X N R Unit :=
  Call.transactional do
    ensureControl cfg origin
    Call.modify fun s => { s with
      assetsInfo := Function.update s.assetsInfo assetId
        (some (budgeted s.block amount decay (s.assetsInfo assetId))) }

def setTimelockDuration (origin : RawOrigin A) (period : Nat) : MosaicCall A X N R Unit := do
  ensureControl cfg origin
  Call.ensure (cfg.minimumTimeLockPeriod < period) (err .badTimelockPeriod)
  Call.modify fun s => { s with timeLockPeriod := some period }

/-- Both directions of a mapping, after the remote id of a local asset was set or removed. -/
def State.mapAsset (s : State A X N R) (assetId : X) (networkId : N) (remoteAssetId : Option R) :
    State A X N R :=
  match s.localToRemoteAsset.get assetId networkId, remoteAssetId with
  -- Remove an non-existent entry.
  | none, none => s
  -- Insert a new entry.
  | none, some remote =>
      { s with
        localToRemoteAsset := s.localToRemoteAsset.put assetId networkId remote
        remoteToLocalAsset := s.remoteToLocalAsset.put remote networkId assetId }
  -- Remove an existing entry.
  | some remote, none =>
      { s with
        localToRemoteAsset := s.localToRemoteAsset.remove assetId networkId
        remoteToLocalAsset := s.remoteToLocalAsset.remove remote networkId }
  -- Update an existing entry.
  | some old, some new =>
      { s with
        localToRemoteAsset := s.localToRemoteAsset.put assetId networkId new
        remoteToLocalAsset := (s.remoteToLocalAsset.remove old networkId).put new networkId assetId }

/-- Update a network asset mapping. -/
def updateAssetMapping (origin : RawOrigin A) (assetId : X) (networkId : N)
    (remoteAssetId : Option R) : MosaicCall A X N R Unit := do
  ensureControl cfg origin
  let s ← Call.get
  let _ ← Call.ofOption (s.networkInfos networkId) (err .unsupportedNetwork)
  Call.modify fun s => s.mapAsset assetId networkId remoteAssetId

/-! ## Outgoing transactions -/

/-- The custody account for transfers out of this chain. -/
def Config.outgoing (a : A) : A := cfg.subAccountId .outgoing a

/-- The custody account for transfers into this chain. -/
def Config.incoming (a : A) : A := cfg.subAccountId .incoming a

/-- `generate_id` takes the next nonce; the id only goes into an event. -/
def generateId : MosaicCall A X N R Unit :=
  Call.modify fun s => { s with nonce := (s.nonce + 1) % 2 ^ 128 }

/-- Creates an outgoing transaction request, locking the funds locally until
    picked up by the relayer. -/
def transferTo (origin : RawOrigin A) (networkId : N) (assetId : X) (amount : Nat)
    (keepAlive : Bool) : MosaicCall A X N R Unit :=
  Call.transactional do
    let caller ← ensureSigned origin
    let s ← Call.get
    Call.ensure ((s.assetsInfo assetId).isSome = true) (err .unsupportedAsset)
    let _ ← getRemoteMapping assetId networkId
    let network ← Call.ofOption (s.networkInfos networkId) (err .unsupportedNetwork)
    Call.ensure (network.enabled = true) (err .networkDisabled)
    Call.ensure (amount ≤ network.maxTransferSize) (err .exceedsMaxTransferSize)
    onLedger (cfg.currency.transfer assetId caller (cfg.outgoing caller) amount keepAlive)
    let lockUntil := s.block + s.timeLockPeriod.getD cfg.minimumTimeLockPeriod
    Call.ensure (lockUntil ≤ cfg.maxBlock) (.arithmetic .overflow)
    -- If we already have an outgoing tx, we update the lock time and add the amount.
    let already := ((s.outgoingTransactions.get caller assetId).map Prod.fst).getD 0
    Call.ensure (amount + already ≤ u128Max) (.arithmetic .overflow)
    Call.modify fun s => { s with
      outgoingTransactions :=
        s.outgoingTransactions.put caller assetId (amount + already, lockUntil) }
    generateId

/-- Called by the relayer to confirm that it will relay a transaction, disabling the user from
    reclaiming their tokens. -/
def acceptTransfer (origin : RawOrigin A) (from_ : A) (networkId : N) (remoteAssetId : R)
    (amount : Nat) : MosaicCall A X N R Unit :=
  Call.transactional do
    let _ ← ensureRelayer origin
    let assetId ← getLocalMapping remoteAssetId networkId
    let s ← Call.get
    let (balance, lockPeriod) ← Call.ofOption (s.outgoingTransactions.get from_ assetId)
      (err .noOutgoingTx)
    Call.ensure (amount ≤ balance) (err .amountMismatch)
    onLedger (cfg.currency.burnFrom assetId (cfg.outgoing from_) amount)
    Call.modify fun s => { s with
      -- Without remaining funds the storage item is deleted.
      outgoingTransactions :=
        if amount = balance then s.outgoingTransactions.remove from_ assetId
        else s.outgoingTransactions.put from_ assetId (balance - amount, lockPeriod) }

/-- Claims user funds from the `OutgoingTransactions`, in case that the relayer
    has not picked them up. -/
def claimStaleTo (origin : RawOrigin A) (assetId : X) (to_ : A) : MosaicCall A X N R Unit :=
  Call.transactional do
    let caller ← ensureSigned origin
    let s ← Call.get
    let (balance, lockTime) ← Call.ofOption (s.outgoingTransactions.get caller assetId)
      (err .noStaleTransactions)
    Call.ensure (lockTime < s.block) (err .txStillLocked)
    onLedger (cfg.currency.transfer assetId (cfg.outgoing caller) to_ balance false)
    Call.modify fun s =>
      { s with outgoingTransactions := s.outgoingTransactions.remove caller assetId }

/-! ## Incoming transactions -/

/-- The penalty at a block: what is left of it after the decay, and nothing if the decay
    overflows. -/
def AssetInfo.decayed (info : AssetInfo) (current : Nat) : Nat :=
  (info.penaltyDecayer.checkedDecay info.penalty current info.lastMintBlock).getD 0

/-- The asset info after `amount` was minted at the block `current`. -/
def AssetInfo.minted (info : AssetInfo) (current amount : Nat) : AssetInfo :=
  { info with
    lastMintBlock := current
    penalty := Fixed.saturated (info.decayed current + amount) }

/-- Mints new tokens into the pallet's wallet, ready for the user to be picked up after
    `lockTime` blocks have expired. -/
def timelockedMint (origin : RawOrigin A) (networkId : N) (remoteAssetId : R) (to_ : A)
    (amount lockTime : Nat) : MosaicCall A X N R Unit := do
  let (_, current) ← ensureRelayer origin
  let assetId ← getLocalMapping remoteAssetId networkId
  let s ← Call.get
  let info ← Call.ofOption (s.assetsInfo assetId) (err .unsupportedAsset)
  -- Check if the relayer has a sufficient budget to mint the requested amount.
  Call.ensure (amount ≤ info.budget - info.decayed current) (err .insufficientBudget)
  onLedger (cfg.currency.mintInto assetId (cfg.incoming to_) amount)
  let lockAt := min (current + lockTime) cfg.maxBlock
  let pending := ((s.incomingTransactions.get to_ assetId).map Prod.fst).getD 0
  Call.modify fun s => { s with
    incomingTransactions :=
      s.incomingTransactions.put to_ assetId (Fixed.saturated (pending + amount), lockAt)
    assetsInfo := Function.update s.assetsInfo assetId (some (info.minted current amount)) }

/-- Burns funds waiting in incoming transactions that are still unclaimed. May be used by the
    relayer in case of finality issues on the other side of the bridge. -/
def rescindTimelockedMint (origin : RawOrigin A) (networkId : N) (remoteAssetId : R) (account : A)
    (untrustedAmount : Nat) : MosaicCall A X N R Unit :=
  Call.transactional do
    let _ ← ensureRelayer origin
    let assetId ← getLocalMapping remoteAssetId networkId
    let s ← Call.get
    let (balance, lock) ← Call.ofOption (s.incomingTransactions.get account assetId)
      (err .noClaimableTx)
    onLedger (cfg.currency.burnFrom assetId (cfg.incoming account) untrustedAmount)
    Call.modify fun s => { s with
      -- Wipe the entire incoming transaction.
      incomingTransactions :=
        if balance = untrustedAmount then s.incomingTransactions.remove account assetId
        else s.incomingTransactions.put account assetId (balance - untrustedAmount, lock) }

/-- Collects funds deposited by the relayer into the owner's account. -/
def claimTo (origin : RawOrigin A) (assetId : X) (to_ : A) : MosaicCall A X N R Unit := do
  let caller ← ensureSigned origin
  let s ← Call.get
  let (amount, unlockAfter) ← Call.ofOption (s.incomingTransactions.get caller assetId)
    (err .noClaimableTx)
  Call.ensure (unlockAfter < s.block) (err .txStillLocked)
  onLedger (cfg.currency.transfer assetId (cfg.incoming caller) to_ amount false)
  -- Delete the deposit.
  Call.modify fun s => { s with incomingTransactions := s.incomingTransactions.remove caller assetId }

/-! ## A concrete configuration -/

/-- Accounts and assets are numbers, and `root` governs. The custody accounts of account `a` are
    `1000 + 2 * a` and the one after it. -/
def sample : Config Nat Nat where
  currency := (Currency.existential fun _ => 0).capped u128Max
  minimumTTL := 10
  minimumTimeLockPeriod := 20
  maxBlock := 2 ^ 32 - 1
  controlOrigin origin := decide (origin = .root)
  subAccountId
    | .incoming, a => 1000 + 2 * a
    | .outgoing, a => 1001 + 2 * a

/-- The same configuration over a ledger with an existential deposit of ten, in which accounts
    die. -/
def sampleReaping : Config Nat Nat :=
  { sample with
    currency :=
      (Currency.reaping (fun _ => 10)
        (Currency.byBalance (Currency.belowDeposit fun _ => 10))).capped u128Max }

end Mosaic
end Composable
