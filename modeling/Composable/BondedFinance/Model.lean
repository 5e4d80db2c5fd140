import Composable.Vesting.Model

/-!
# `BondedFinance.Model` — bond offers

Embeds `frame/bonded-finance/src/lib.rs`, with the offers of
`frame/composable-traits/src/bonded_finance.rs`, over the model of the vesting pallet. Balances are
128-bit numbers, so the conversions for the computation of a reward are left out, as are events and
weights. The block number is an input of a call.
-/

namespace Composable
namespace BondedFinance

/-! ## Offers -/

inductive BondDuration where
  | finite (returnIn : Nat)
  /-- The protocol is now owning the liquidity. -/
  | infinite
deriving DecidableEq, Repr

structure BondOfferReward (X : Type) where
  asset : X
  /-- The total reward; that of the contracts not yet sold, once the offer is stored. -/
  amount : Nat
  maturity : Nat
deriving DecidableEq, Repr

structure BondOffer (A X : Type) where
  beneficiary : A
  asset : X
  bondPrice : Nat
  nbOfBonds : Nat
  maturity : BondDuration
  reward : BondOfferReward X
deriving DecidableEq, Repr

namespace BondOffer

variable {A X : Type}

/-- An offer is completed once all its contracts have been sold. -/
def completed (offer : BondOffer A X) : Bool := offer.nbOfBonds == 0

def totalPrice (offer : BondOffer A X) : Except ArithmeticError Nat :=
  Fixed.checked (offer.nbOfBonds * offer.bondPrice)

/-- Whether an offer can be submitted. -/
def valid (offer : BondOffer A X) (minTransfer minReward : Nat) : Bool :=
  let nonzeroMaturity := match offer.maturity with
    | .finite returnIn => returnIn != 0
    | .infinite => true
  let validPrice := decide (minTransfer ≤ offer.bondPrice)
  let nonzeroNbOfBonds := offer.nbOfBonds != 0
  -- A reward for no contracts counts as zero for each.
  let validReward := decide (minReward ≤ offer.reward.amount ∧
    minTransfer ≤ if offer.nbOfBonds = 0 then 0 else offer.reward.amount / offer.nbOfBonds)
  let nonzeroRewardMaturity := offer.reward.maturity != 0
  let validTotal := offer.totalPrice.toBool
  nonzeroMaturity && nonzeroNbOfBonds && validPrice && nonzeroRewardMaturity && validReward &&
    validTotal

end BondOffer

/-! ## The pallet -/

inductive Error where
  | bondOfferNotFound
  | invalidBondOffer
  | offerCompleted
  | invalidNumberOfBonds
deriving DecidableEq, Repr

/-- The errors of the pallets that a call goes through. -/
inductive PalletError where
  | bondedFinance (error : Error)
  | vesting (error : Vesting.Error)
deriving DecidableEq, Repr

structure Config (A X : Type) where
  vesting : Vesting.Config A X
  nativeAsset : X
  /-- The greatest offer id; ids saturate. -/
  maxBondOfferId : Nat
  /-- The native stake for an offer. -/
  stake : Nat
  minReward : Nat
  isAdmin : RawOrigin A → Bool
  /-- The account of an offer. -/
  accountId : Nat → A
  /-- The accounts of different offers are derived from different ids. -/
  accountId_injective : Set.InjOn accountId (Set.Iic maxBondOfferId)

/-- The pallet's storage, with that of the vesting pallet (and its ledger). -/
structure State (A X : Type) where
  vesting : Vesting.State A X
  bondOfferCount : Nat
  /-- The issuer of an offer, and what is left of it. -/
  bondOffers : Nat → Option (A × BondOffer A X)

/-- A call of the pallet. -/
abbrev BondCall (A X α : Type) : Type := Call (State A X) (DispatchError PalletError) α

/-- An error of this pallet. -/
abbrev err (e : Error) : DispatchError PalletError := .module (.bondedFinance e)

variable {A X : Type} [DecidableEq A] [DecidableEq X] (cfg : Config A X)

/-- A transfer, in the currency under the locks of the vesting pallet. -/
def transfer (asset : X) (source dest : A) (amount : Nat) (keepAlive : Bool) : BondCall A X Unit := do
  let s ← Call.get
  Call.zoom (fun s => s.vesting.ledger)
    (fun l s => { s with vesting := { s.vesting with ledger := l } }) .token
    ((cfg.vesting.currency s.vesting.locks).transfer asset source dest amount keepAlive)

/-- A vested transfer of one period. -/
def vest (now : Nat) (asset : X) (source dest : A) (period amount : Nat) : BondCall A X Unit :=
  Call.zoom State.vesting (fun v s => { s with vesting := v }) (DispatchError.map .vesting)
    (Vesting.vestedTransfer cfg.vesting now asset source dest ⟨now, period, 1, amount⟩)

def getOffer (offerId : Nat) : BondCall A X (A × BondOffer A X) := do
  let s ← Call.get
  Call.ofOption (s.bondOffers offerId) (err .bondOfferNotFound)

/-- What is left of an offer after a purchase. -/
def BondOffer.sold (offer : BondOffer A X) (nbOfBonds rewardShare : Nat) : BondOffer A X :=
  { offer with
    nbOfBonds := offer.nbOfBonds - nbOfBonds
    reward := { offer.reward with amount := offer.reward.amount - rewardShare } }

def doOffer (source : A) (offer : BondOffer A X) (keepAlive : Bool) : BondCall A X Nat :=
  Call.transactional do
    Call.ensure (offer.valid cfg.vesting.minVestedTransfer cfg.minReward = true)
      (err .invalidBondOffer)
    Call.modify fun s => { s with bondOfferCount := min (s.bondOfferCount + 1) cfg.maxBondOfferId }
    let s ← Call.get
    let offerId := s.bondOfferCount
    transfer cfg cfg.nativeAsset source (cfg.accountId offerId) cfg.stake keepAlive
    transfer cfg offer.reward.asset source (cfg.accountId offerId) offer.reward.amount keepAlive
    Call.modify fun s =>
      { s with bondOffers := Function.update s.bondOffers offerId (some (source, offer)) }
    pure offerId

/-- The extrinsic `offer`. -/
def offer (origin : RawOrigin A) (offer : BondOffer A X) (keepAlive : Bool) : BondCall A X Unit := do
  let source ← ensureSigned origin
  let _ ← doOffer cfg source offer keepAlive

/-- Returns the share of the reward, of which the rest is computed for the
    contracts that are left. -/
def doBond (now offerId : Nat) (source : A) (nbOfBonds : Nat) (keepAlive : Bool) : BondCall A X Nat :=
  Call.transactional do
    let (issuer, offer) ← getOffer offerId
    Call.ensure (0 < offer.nbOfBonds) (err .offerCompleted)
    Call.ensure (0 < nbOfBonds ∧ nbOfBonds ≤ offer.nbOfBonds) (err .invalidNumberOfBonds)
    let value := nbOfBonds * offer.bondPrice
    Call.ensure (value ≤ u128Max) .panic
    let rewardShare ← Call.ofExcept
      ((Fixed.multiplyByRational nbOfBonds offer.reward.amount offer.nbOfBonds).mapError fun _ =>
        .arithmetic .overflow)
    transfer cfg offer.asset source offer.beneficiary value keepAlive
    vest cfg now offer.reward.asset (cfg.accountId offerId) source offer.reward.maturity rewardShare
    match offer.maturity with
    | .finite returnIn => vest cfg now offer.asset offer.beneficiary source returnIn value
    | .infinite => pure ()
    Call.ensure (rewardShare ≤ offer.reward.amount) .panic
    Call.when ((offer.sold nbOfBonds rewardShare).completed = true)
      (transfer cfg cfg.nativeAsset (cfg.accountId offerId) issuer cfg.stake false)
    Call.modify fun s => { s with
      bondOffers :=
        Function.update s.bondOffers offerId (some (issuer, offer.sold nbOfBonds rewardShare)) }
    pure rewardShare

/-- The extrinsic `bond`. -/
def bond (now : Nat) (origin : RawOrigin A) (offerId nbOfBonds : Nat) (keepAlive : Bool) :
    BondCall A X Unit := do
  let source ← ensureSigned origin
  let _ ← doBond cfg now offerId source nbOfBonds keepAlive

/-- The extrinsic `cancel`: by the admin origin or the issuer. -/
def cancel (origin : RawOrigin A) (offerId : Nat) : BondCall A X Unit :=
  Call.transactional do
    let (issuer, offer) ← getOffer offerId
    Call.ensure (cfg.isAdmin origin = true ∨ origin = .signed issuer) .badOrigin
    transfer cfg cfg.nativeAsset (cfg.accountId offerId) issuer cfg.stake false
    transfer cfg offer.reward.asset (cfg.accountId offerId) issuer offer.reward.amount false
    Call.modify fun s => { s with bondOffers := Function.update s.bondOffers offerId none }

theorem sampleAccount_injective (n m : Nat) (h : 1000 + n = 1000 + m) : n = m := Nat.add_left_cancel h

/-- Asset `0` is native, and offer `n` owns account `1000 + n`. -/
def sample : Config Nat Nat where
  vesting := Vesting.sample
  nativeAsset := 0
  maxBondOfferId := 2 ^ 64 - 1
  stake := 100
  minReward := 50
  isAdmin origin := origin == .root
  accountId n := 1000 + n
  accountId_injective := fun _ _ _ _ h => sampleAccount_injective _ _ h

/-- Three contracts at a price of `20` of asset `1`, for a reward of `100` of asset `2`. -/
def sampleOffer : BondOffer Nat Nat :=
  ⟨2, 1, 20, 3, .finite 5, ⟨2, 100, 7⟩⟩

/-- Account `1` issues offers, accounts `3` and `4` buy contracts. -/
def State.sample : State Nat Nat where
  vesting :=
    ⟨Ledger.ofList [(0, 1, 500), (2, 1, 200), (1, 3, 100), (1, 4, 100)], fun _ _ => 0, fun _ _ => []⟩
  bondOfferCount := 0
  bondOffers _ := none

end BondedFinance
end Composable
