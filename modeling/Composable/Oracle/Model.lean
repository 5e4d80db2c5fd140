import Composable.Support.Fixed
import Composable.Support.Ledger
import Composable.Support.StorageMap
import Composable.Traits.Currency
import Mathlib.Data.List.Sort

/-!
# `Oracle.Model` — the price oracle pallet

Embeds `frame/oracle/src/{lib,validation}.rs`: the assets with their parameters, controllers and
the signers they stake for, submitted prices, and the aggregation of prices at the start of a
block with its rewards and slashes.

The pallet uses one currency, so its ledger has the one asset `()`. The block number is read from
the system pallet and is part of the storage here. Assets are iterated in the order of their hashed
keys, which is some fixed rearrangement of the keys (`Config.iteration`), and
`PerThing::from_rational` is an approximation that the model does not fix (`Config.fromRational`).
The build is one that checks for overflows, in which an unchecked sum of block numbers traps beyond
the largest one; a build without the checks wraps it. No extrinsic is transactional: what one wrote
before it failed stays. Events, weights, logs and the offchain worker are left out.
-/

namespace Composable
namespace Oracle

/-! ## Data model -/

/-- A stake that was taken out, and the block after which it can be reclaimed. -/
structure Withdraw where
  stake : Nat
  unlockBlock : Nat
deriving DecidableEq, Repr

/-- A submitted price, before aggregation. -/
structure PrePrice (A : Type) where
  price : Nat
  block : Nat
  who : A
deriving DecidableEq

structure Price where
  price : Nat
  block : Nat
deriving DecidableEq, Repr

/-- The threshold is in percent. -/
structure AssetInfo where
  threshold : Nat
  minAnswers : Nat
  maxAnswers : Nat
  blockInterval : Nat
  reward : Nat
  slash : Nat
deriving DecidableEq, Repr

inductive Error where
  | unknown
  | noPermission
  | noStake
  | stakeLocked
  | notEnoughStake
  | notEnoughFunds
  | invalidAssetId
  | alreadySubmitted
  | maxPrices
  | priceNotRequested
  | unsetSigner
  | alreadySet
  | unsetController
  | controllerUsed
  | signerUsed
  | avoidPanic
  | exceedMaxAnswers
  | invalidMinAnswers
  | maxAnswersLessThanMinAnswers
  | exceedThreshold
  | exceedAssetsCount
  | priceNotFound
  | exceedStake
  | mustSumTo100
  | depthTooLarge
  | arithmeticError
  | blockIntervalLength
  | transferError
  | maxHistory
  | maxPrePrices
deriving DecidableEq, Repr

/-- The pallet's constants, and the currency it is wired to. -/
structure Config (A X : Type) where
  currency : Currency A Unit
  /-- Its operations take their amounts and nothing else. -/
  currency_exact : currency.Exact
  addOracle : RawOrigin A → Bool
  minStake : Nat
  /-- The delay to withdraw stake as an oracle. -/
  stakeLock : Nat
  /-- Blocks until price is considered stale. -/
  stalePrice : Nat
  maxAnswerBound : Nat
  maxAssetsCount : Nat
  maxHistory : Nat
  maxPrePrices : Nat
  /-- The largest block number. -/
  maxBlock : Nat
  /-- A fraction in percent. -/
  fromRational : Nat → Nat → Nat
  iteration : List X → List X
  iteration_perm : ∀ keys, (iteration keys).Perm keys

attribute [instance] Config.currency_exact

/-- The pallet's storage, with the ledger it acts on and the block number. -/
structure State (A X : Type) where
  ledger : Ledger A Unit
  block : Nat
  assetsCount : Nat
  signerToController : A → Option A
  controllerToSigner : A → Option A
  declaredWithdraws : A → Option Withdraw
  oracleStake : A → Option Nat
  /-- Slash amounts currently in transit. -/
  answerInTransit : A → Option Nat
  prices : X → Option Price
  priceHistory : X → List Price
  prePrices : StorageMap X (List (PrePrice A))
  assetsInfo : StorageMap X AssetInfo

variable {A X : Type}

/-- A call of the pallet. -/
abbrev OracleCall (A X α : Type) : Type := Call (State A X) (DispatchError Error) α

/-- An error of this pallet. -/
abbrev err (e : Error) : DispatchError Error := .module e

/-- A ledger operation of the pallet. -/
def onLedger {α : Type} (x : Call (Ledger A Unit) TokenError α) : OracleCall A X α :=
  Call.zoom State.ledger (fun l s => { s with ledger := l }) .token x

variable [DecidableEq A] [DecidableEq X] (cfg : Config A X)

/-! ## Assets -/

/-- The validations that decoding the arguments of `add_asset_and_info` makes. -/
def validateInfo (info : AssetInfo) : OracleCall A X Unit := do
  Call.ensure (info.threshold < 100) (.other "INVALID_THRESHOLD")
  Call.ensure (0 < info.minAnswers) (.other "INVALID_MIN_ANSWERS")
  Call.ensure (info.maxAnswers ≤ cfg.maxAnswerBound) (.other "INVALID_MAX_ANSWER")
  Call.ensure (cfg.stalePrice < info.blockInterval) (.other "INVALID_BLOCK_INTERVAL_LENGTH")

/-- Permissioned call to add an asset, or to change one. -/
def addAssetAndInfo (origin : RawOrigin A) (assetId : X) (info : AssetInfo) :
    OracleCall A X Unit := do
  validateInfo cfg info
  Call.ensure (cfg.addOracle origin = true) .badOrigin
  Call.ensure (info.minAnswers ≤ info.maxAnswers) (err .maxAnswersLessThanMinAnswers)
  let s ← Call.get
  Call.ensure (s.assetsCount < cfg.maxAssetsCount) (err .exceedAssetsCount)
  Call.modify fun s => { s with
    assetsCount := if (s.assetsInfo.lookup assetId).isNone then s.assetsCount + 1 else s.assetsCount
    assetsInfo := s.assetsInfo.insert assetId info }

/-! ## Stake -/

def doAddStake (who signer : A) (stake : Nat) : OracleCall A X Unit := do
  let s ← Call.get
  let amountStaked := (s.oracleStake signer).getD 0 + stake
  Call.ensure (amountStaked ≤ u128Max) (err .exceedStake)
  onLedger (cfg.currency.transfer () who signer stake true)
  onLedger (cfg.currency.hold () signer stake)
  Call.modify fun s =>
    { s with oracleStake := Function.update s.oracleStake signer (some amountStaked) }

/-- Call for a signer to be set, called from controller, adds stake. -/
def setSigner (origin : RawOrigin A) (signer : A) : OracleCall A X Unit := do
  let who ← ensureSigned origin
  let s ← Call.get
  Call.ensure (s.controllerToSigner who = none) (err .controllerUsed)
  Call.ensure (s.signerToController signer = none) (err .signerUsed)
  doAddStake cfg who signer cfg.minStake
  Call.modify fun s => { s with
    controllerToSigner := Function.update s.controllerToSigner who (some signer)
    signerToController := Function.update s.signerToController signer (some who) }

/-- Call to add more stake from a controller. -/
def addStake (origin : RawOrigin A) (stake : Nat) : OracleCall A X Unit := do
  let who ← ensureSigned origin
  let s ← Call.get
  let signer ← Call.ofOption (s.controllerToSigner who) (err .unsetSigner)
  doAddStake cfg who signer stake

/-- Call to put in a claim to remove stake, called from controller. -/
def removeStake (origin : RawOrigin A) : OracleCall A X Unit := do
  let who ← ensureSigned origin
  let s ← Call.get
  let signer ← Call.ofOption (s.controllerToSigner who) (err .unsetSigner)
  let unlockBlock := s.block + cfg.stakeLock
  Call.ensure (unlockBlock ≤ cfg.maxBlock) .panic
  let stake ← Call.ofOption (s.oracleStake signer) (err .noStake)
  Call.modify fun s => { s with
    oracleStake := Function.update s.oracleStake signer none
    declaredWithdraws := Function.update s.declaredWithdraws signer (some ⟨stake, unlockBlock⟩) }

/-- Call to reclaim stake after proper time has passed, called from controller. -/
def reclaimStake (origin : RawOrigin A) : OracleCall A X Unit := do
  let who ← ensureSigned origin
  let s ← Call.get
  let signer ← Call.ofOption (s.controllerToSigner who) (err .unsetSigner)
  let withdrawal ← Call.ofOption (s.declaredWithdraws signer) (err .unknown)
  Call.ensure (withdrawal.unlockBlock < s.block) (err .stakeLocked)
  Call.modify fun s => { s with
    declaredWithdraws := Function.update s.declaredWithdraws signer none }
  onLedger (Currency.unreserve () signer withdrawal.stake)
  let result ← Call.attempt (onLedger (cfg.currency.transfer () signer who withdrawal.stake false))
  Call.ensure (result = none) (err .transferError)
  Call.modify fun s => { s with
    controllerToSigner := Function.update s.controllerToSigner who none
    signerToController := Function.update s.signerToController signer none }

/-! ## Submitted prices -/

/-- The slash of the asset is in transit for one more answer. -/
def State.addTransit (s : State A X) (who : A) (slash : Nat) : State A X :=
  { s with
    answerInTransit := Function.update s.answerInTransit who
      (some (Fixed.saturated ((s.answerInTransit who).getD 0 + slash))) }

/-- … and for one answer less. -/
def State.removeTransit (s : State A X) (who : A) (slash : Nat) : State A X :=
  { s with
    answerInTransit := Function.update s.answerInTransit who
      (some ((s.answerInTransit who).getD 0 - slash)) }

def removePriceInTransit (who : A) (info : AssetInfo) : OracleCall A X Unit :=
  Call.modify fun s => s.removeTransit who info.slash

/-- Whether a price of the asset is due. -/
def isRequested (priceId : X) : OracleCall A X Bool := do
  let s ← Call.get
  let lastUpdate := (s.prices priceId).getD ⟨0, 0⟩
  match s.assetsInfo.lookup priceId with
  | none => pure false
  | some info => do
      Call.ensure (lastUpdate.block + info.blockInterval ≤ cfg.maxBlock) .panic
      pure (decide (lastUpdate.block + info.blockInterval < s.block))

/-- Call to submit a price. -/
def submitPrice (origin : RawOrigin A) (price : Nat) (assetId : X) : OracleCall A X Unit := do
  let who ← ensureSigned origin
  let s ← Call.get
  let authorStake := (s.oracleStake who).getD 0
  let requested ← isRequested cfg assetId
  Call.ensure (requested = true) (err .priceNotRequested)
  Call.ensure (Fixed.saturated (cfg.minStake + (s.answerInTransit who).getD 0) ≤ authorStake)
    (err .notEnoughStake)
  let info ← Call.ofOption (s.assetsInfo.lookup assetId) (err .invalidAssetId)
  let currentPrices := s.prePrices.getD assetId []
  Call.ensure (currentPrices.length < info.maxAnswers) (err .maxPrices)
  Call.ensure (∀ candidate ∈ currentPrices, candidate.who ≠ who) (err .alreadySubmitted)
  Call.ensure (currentPrices.length < cfg.maxPrePrices) (err .maxPrePrices)
  Call.modify fun s => { s with
    prePrices := s.prePrices.insert assetId (currentPrices ++ [⟨price, s.block, who⟩]) }
  Call.modify fun s => s.addTransit who info.slash

/-! ## Aggregation -/

/-- The middle one of the prices, or the mean of the two in the middle. -/
def getMedianPrice (prices : List (PrePrice A)) : Option Nat :=
  let numbers := (prices.map PrePrice.price).insertionSort (· ≤ ·)
  let mid := numbers.length / 2
  if numbers.length = 0 then none
  else if numbers.length % 2 = 0 then
    some (Fixed.saturated (numbers.getD (mid - 1) 0 + numbers.getD mid 0) / 2)
  else some (numbers.getD mid 0)

/-- How close an answer is to the price, in percent. -/
def Config.accuracy (answer price : Nat) : Nat :=
  if answer < price then cfg.fromRational answer price
  else cfg.fromRational (price - (answer - price)) price

/-- The payout of one answer. -/
def payAnswer (price : Nat) (info : AssetInfo) (answer : PrePrice A) : OracleCall A X Unit := do
  let s ← Call.get
  (if cfg.accuracy answer.price price < info.threshold then
    onLedger (Currency.slash () answer.who info.slash)
  else
    let controller := (s.signerToController answer.who).getD answer.who
    -- A reward that cannot be deposited is only logged.
    Call.orElse (onLedger (cfg.currency.mintInto () controller info.reward) : OracleCall A X Unit)
      (pure ()) : OracleCall A X Unit)
  removePriceInTransit answer.who info

def handlePayout (prePrices : List (PrePrice A)) (price : Nat) (info : AssetInfo) :
    OracleCall A X Unit :=
  Call.forEach prePrices (payAnswer cfg price info)

/-- The block before which prices are stale. -/
def Config.staleBlock (block : Nat) : Nat := block - cfg.stalePrice

/-- The stale prices, and the fresh ones up to the most answers there can be. -/
def pruneOldPrePrices (info : AssetInfo) (prePrices : List (PrePrice A)) (block : Nat) :
    OracleCall A X (List (PrePrice A) × List (PrePrice A)) := do
  let staledPrices := prePrices.takeWhile fun p => p.block < cfg.staleBlock block
  let freshPrices := prePrices.dropWhile fun p => p.block < cfg.staleBlock block
  (match freshPrices.head? with
    | some prePrice => removePriceInTransit prePrice.who info
    | none => pure () : OracleCall A X Unit)
  if info.maxAnswers < freshPrices.length then
    let pruned := freshPrices.length - info.maxAnswers
    Call.forEach (freshPrices.drop pruned) fun price => removePriceInTransit price.who info
    pure (staledPrices, freshPrices.take info.maxAnswers)
  else
    pure (staledPrices, freshPrices)

/-- Drops what is stale, once there are enough answers; the length of what was dropped is left
    out. -/
def updatePrePrices (assetId : X) (info : AssetInfo) (block : Nat) :
    OracleCall A X (List (PrePrice A)) := do
  let s ← Call.get
  let prePrunedPrices := s.prePrices.getD assetId []
  if info.minAnswers ≤ prePrunedPrices.length then
    let (_, prePrices) ← pruneOldPrePrices cfg info prePrunedPrices block
    Call.ensure (prePrices.length ≤ cfg.maxPrePrices) (err .maxPrePrices)
    Call.modify fun s => { s with prePrices := s.prePrices.insert assetId prePrices }
    pure prePrices
  else
    pure []

/-- The history with one more price; the oldest one makes room for it. -/
def Config.pushHistory (history : List Price) (price : Price) :
    Except (DispatchError Error) (List Price) :=
  if cfg.maxHistory ≤ history.length ∧ history = [] then .error .panic
  else
    let kept := if cfg.maxHistory ≤ history.length then history.tail else history
    if price.block = 0 then .ok kept
    else if kept.length < cfg.maxHistory then .ok (kept ++ [price])
    else .error (err .maxHistory)

def updatePrice (assetId : X) (info : AssetInfo) (block : Nat) (prePrices : List (PrePrice A)) :
    OracleCall A X Unit :=
  if info.minAnswers ≤ prePrices.length then
    match getMedianPrice prePrices with
    | none => pure ()
    | some price => do
        Call.modify fun s =>
          { s with prices := Function.update s.prices assetId (some ⟨price, block⟩) }
        let s ← Call.get
        let history ← Call.ofExcept (cfg.pushHistory (s.priceHistory assetId) ⟨price, block⟩)
        Call.modify fun s => { s with priceHistory := Function.update s.priceHistory assetId history }
        Call.modify fun s => { s with prePrices := s.prePrices.erase assetId }
        handlePayout cfg prePrices price info
  else
    pure ()

/-- One turn of the loop over the assets; an error ends the turn and is ignored. -/
def updateAsset (block : Nat) (assetId : X) : OracleCall A X Unit := do
  let s ← Call.get
  match s.assetsInfo.lookup assetId with
  | none => pure ()
  | some info =>
      Call.orElse (do
        let prePrices ← updatePrePrices cfg assetId info block
        updatePrice cfg assetId info block prePrices : OracleCall A X Unit) (pure ())

def updatePrices (block : Nat) : OracleCall A X Unit := do
  let s ← Call.get
  Call.forEach (cfg.iteration s.assetsInfo.keys) (updateAsset cfg block)

/-- The block number advances, and `on_initialize` runs. -/
def initializeBlock : OracleCall A X Unit := do
  let s ← Call.get
  Call.ensure (s.block < cfg.maxBlock) (.arithmetic .overflow)
  Call.modify fun s => { s with block := s.block + 1 }
  updatePrices cfg (s.block + 1)

/-! ## A small oracle -/

/-- Accounts and assets are numbers, and `root` adds assets. The existential deposit is `1`. -/
def sample : Config Nat Nat where
  currency := (Currency.existential fun _ => 1).capped u128Max
  currency_exact := inferInstance
  addOracle origin := decide (origin = .root)
  minStake := 1
  stakeLock := 1
  stalePrice := 2
  maxAnswerBound := 5
  maxAssetsCount := 2
  maxHistory := 3
  maxPrePrices := 12
  maxBlock := 2 ^ 32 - 1
  fromRational := Fixed.percentFromRational
  iteration keys := keys
  iteration_perm keys := .refl keys

/-- Accounts `1`, `3` and `5` can stake. -/
def sampleLedger : Ledger Nat Unit := Ledger.ofList [((), 1, 100), ((), 3, 100), ((), 5, 100)]

end Oracle
end Composable
