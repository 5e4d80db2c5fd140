import Composable.Support.Fixed
import Composable.Support.StorageMap
import Composable.Traits.Currency
import Mathlib.Data.List.Sort

/-!
# `DutchAuction.Model` — the dutch auction pallet

Embeds `frame/dutch-auction/src/{lib,math}.rs` and the order types of
`frame/composable-traits/src/{defi,time}.rs`: sell orders with a price that falls over time, takes
that are collected within a block, and `on_finalize`, which matches them and clears the block.

A storage map is iterated in the order of its hashed keys, which is some fixed rearrangement of the
keys (`Config.iteration`). `onFinalize` returns what it sold of each order; the code returns
nothing. Unchecked subtraction traps. Events and weights are left out, and the deposit for storing
an order is a constant of the runtime.
-/

namespace Composable
namespace DutchAuction

/-! ## Orders and takes -/

/-- An amount of `base`, and a limit price in `quote` per unit as the inner
    value of a `FixedU128`. -/
structure Take where
  amount : Nat
  limit : Nat
deriving DecidableEq, Repr

namespace Take

def isValid (t : Take) : Bool := 0 < t.amount && 0 < t.limit

/-- What `amount` of the base asset costs at the limit price. -/
def quote (t : Take) (amount : Nat) : Nat := Fixed.quotient amount t.limit Fixed.div

def quoteAmount (t : Take) (amount : Nat) : Except ArithmeticError Nat :=
  Fixed.multiplyByRational amount t.limit Fixed.div

def quoteLimitAmount (t : Take) : Except ArithmeticError Nat := t.quoteAmount t.amount

end Take

structure CurrencyPair (X : Type) where
  base : X
  quote : X
deriving DecidableEq

/-- Take `quote` currency and give `base` currency. -/
structure Sell (X : Type) where
  pair : CurrencyPair X
  take : Take
deriving DecidableEq

def Sell.isValid {X : Type} (order : Sell X) : Bool := order.take.isValid

/-- How the price of an auction falls; `cut` is in parts per million. -/
inductive TimeReleaseFunction where
  | linearDecrease (total : Nat)
  | stairstepExponentialDecrease (step cut : Nat)
deriving DecidableEq, Repr

/-- `AuctionTimeCurveModel::price`, on inner values of `FixedU128`. -/
def TimeReleaseFunction.price (initialPrice duration : Nat) :
    TimeReleaseFunction → Except ArithmeticError Nat
  | .linearDecrease total =>
      if total ≤ duration then .ok 0
      else do
        let left ← (Fixed.fromInteger (total - duration)).elim (.error .underflow) .ok
        let scaled ← Fixed.safeMul initialPrice left
        let whole ← (Fixed.fromInteger total).elim (.error .overflow) .ok
        Fixed.safeDiv scaled whole
  | .stairstepExponentialDecrease step cut =>
      if step = 0 then .error .divisionByZero
      else Fixed.safeMul initialPrice
        (Fixed.permillPow cut (duration / step) * (Fixed.div / Fixed.permill))

/-- A stored sell order, with the time it was added and the deposit taken for it. -/
structure SellOrder (A X : Type) where
  fromTo : A
  order : Sell X
  configuration : TimeReleaseFunction
  addedAt : Nat
  deposit : Nat
deriving DecidableEq

structure TakeOrder (A : Type) where
  fromTo : A
  take : Take
deriving DecidableEq

inductive Error where
  | requestedOrderDoesNotExists
  | orderParametersIsInvalid
  | takeParametersIsInvalid
  | takeLimitDoesNotSatisfiesOrder
  | orderNotFound
  | notEnoughNativeCurrentyToPayForAuction
deriving DecidableEq, Repr

/-- The ledger, the pallet's account, the deposit for one order and the iteration order of keys. -/
structure Config (A X : Type) where
  currency : Currency A X
  nativeAsset : X
  treasury : A
  orderDeposit : Nat
  iteration : List Nat → List Nat
  iteration_perm : ∀ keys, (iteration keys).Perm keys

/-- The pallet's storage and the ledger it acts on. -/
structure State (A X : Type) where
  ledger : Ledger A X
  ordersIndex : Nat
  sellOrders : StorageMap Nat (SellOrder A X)
  takes : StorageMap Nat (List (TakeOrder A))

variable {A X : Type}

/-- A call of the pallet. -/
abbrev AuctionCall (A X α : Type) : Type := Call (State A X) (DispatchError Error) α

/-- An error of this pallet. -/
abbrev err (e : Error) : DispatchError Error := .module e

/-- A ledger operation of the pallet; `f` is the `map_err` around it. -/
def onLedger {α : Type} (f : TokenError → DispatchError Error)
    (x : Call (Ledger A X) TokenError α) : AuctionCall A X α :=
  Call.zoom State.ledger (fun l s => { s with ledger := l }) f x

/-- `.expect(..)` on an arithmetic result. -/
def expect (r : Except ArithmeticError Nat) : AuctionCall A X Nat :=
  Call.ofExcept (r.mapError fun _ => .panic)

/-- `r?` on an arithmetic result. -/
def arithmetic (r : Except ArithmeticError Nat) : AuctionCall A X Nat :=
  Call.ofExcept (r.mapError .arithmetic)

/-! ## Selling -/

/-- `OrderId::next`: the successor, saturating at `u128::MAX`. -/
def nextOrderId (id : Nat) : Nat := Fixed.saturated (id + 1)

variable [DecidableEq A] [DecidableEq X] (cfg : Config A X)

/-- `SellEngine::ask`. -/
def ask (now : Nat) (fromTo : A) (order : Sell X) (configuration : TimeReleaseFunction) :
    AuctionCall A X Nat := do
  Call.ensure (order.isValid = true) (err .orderParametersIsInvalid)
  Call.modify fun s => { s with ordersIndex := nextOrderId s.ordersIndex }
  let s ← Call.get
  onLedger (fun _ => err .notEnoughNativeCurrentyToPayForAuction)
    (cfg.currency.transfer cfg.nativeAsset fromTo cfg.treasury cfg.orderDeposit true)
  onLedger .token (cfg.currency.hold order.pair.base fromTo order.take.amount)
  Call.modify fun t => { t with
    sellOrders :=
      t.sellOrders.insert s.ordersIndex ⟨fromTo, order, configuration, now, cfg.orderDeposit⟩ }
  pure s.ordersIndex

def askExtrinsic (now : Nat) (origin : RawOrigin A) (order : Sell X)
    (configuration : TimeReleaseFunction) : AuctionCall A X Nat := do
  let who ← ensureSigned origin
  ask cfg now who order configuration

/-- `SellEngine::take`: adds take to list, does not execute take immediately. -/
def take (now : Nat) (fromTo : A) (orderId : Nat) (take : Take) : AuctionCall A X Unit := do
  Call.ensure (take.isValid = true) (err .takeParametersIsInvalid)
  let s ← Call.get
  let order ← Call.ofOption (s.sellOrders.lookup orderId) (err .requestedOrderDoesNotExists)
  Call.ensure (order.order.take.limit ≤ take.limit) (err .takeLimitDoesNotSatisfiesOrder)
  Call.ensure (order.addedAt ≤ now) .panic
  let _ ← arithmetic (order.configuration.price order.order.take.limit (now - order.addedAt))
  let quoteAmount ← arithmetic take.quoteLimitAmount
  onLedger .token (cfg.currency.hold order.order.pair.quote fromTo quoteAmount)
  Call.modify fun s => { s with
    takes := s.takes.insert orderId (s.takes.getD orderId [] ++ [⟨fromTo, take⟩]) }

def takeExtrinsic (now : Nat) (origin : RawOrigin A) (orderId : Nat) (take : Take) :
    AuctionCall A X Unit := do
  let who ← ensureSigned origin
  DutchAuction.take cfg now who orderId take

/-- Allows to remove `orderId` from storage. -/
def liquidate (origin : RawOrigin A) (orderId : Nat) : AuctionCall A X Unit := do
  let who ← ensureSigned origin
  let s ← Call.get
  let order ← Call.ofOption (s.sellOrders.lookup orderId) (err .orderNotFound)
  Call.ensure (order.fromTo = who) .badOrigin
  onLedger .token (Currency.unreserve order.order.pair.base who order.order.take.amount)
  onLedger .token
    (cfg.currency.transfer cfg.nativeAsset cfg.treasury order.fromTo order.deposit true)
  Call.modify fun s => { s with sellOrders := s.sellOrders.erase orderId }

/-! ## Finalising a block -/

/-- Feesless exchange of reserved currencies. A refused transfer makes the caller panic. -/
def exchangeReserved (base : X) (seller : A) (takeAmount : Nat) (quote : X) (taker : A)
    (quoteAmount : Nat) : AuctionCall A X Unit := do
  onLedger .token (Currency.unreserve base seller takeAmount)
  onLedger .token (Currency.unreserve quote taker quoteAmount)
  onLedger (fun _ => .panic) (cfg.currency.transfer base seller taker takeAmount false)
  onLedger (fun _ => .panic) (cfg.currency.transfer quote taker seller quoteAmount false)

/-- `takes.sort_by(|a, b| b.take.limit.cmp(&a.take.limit))`: by descending limit, ties in order of
    arrival. -/
def sortTakes (takes : List (TakeOrder A)) : List (TakeOrder A) :=
  takes.insertionSort fun a b => b.take.limit ≤ a.take.limit

/-- The loop over the sorted takes of one order. It returns what is left of the order. -/
def fillTakes (pair : CurrencyPair X) (seller : A) : List (TakeOrder A) → Nat → AuctionCall A X Nat
  | [], left => pure left
  | t :: takes, left => do
      let quoteAmount ← expect t.take.quoteLimitAmount
      if left = 0 then do
        onLedger .token (Currency.unreserve pair.quote t.fromTo quoteAmount)
        fillTakes pair seller takes left
      else do
        let takeAmount := min t.take.amount left
        let realQuoteAmount ← expect (t.take.quoteAmount takeAmount)
        exchangeReserved cfg pair.base seller takeAmount pair.quote t.fromTo realQuoteAmount
        Call.when (realQuoteAmount < quoteAmount)
          (onLedger .token
            (Currency.unreserve pair.quote t.fromTo (quoteAmount - realQuoteAmount)))
        fillTakes pair seller takes (left - takeAmount)

/-- The body of the loop of `on_finalize`: the takes of one order. It returns what was sold. -/
def finalizeOrder (orderId : Nat) : AuctionCall A X Nat := do
  let s ← Call.get
  match s.takes.lookup orderId, s.sellOrders.lookup orderId with
  | some takes, some order => do
      let left ← fillTakes cfg order.order.pair order.fromTo (sortTakes takes) order.order.take.amount
      -- The order keeps its amount in storage, whatever was taken of it.
      Call.when (left = 0) (Call.modify fun s => { s with sellOrders := s.sellOrders.erase orderId })
      pure (order.order.take.amount - left)
  | _, _ => pure 0

/-- The loop of `on_finalize`, with the amount sold of each order. -/
def finalizeOrders : List Nat → AuctionCall A X (List (Nat × Nat))
  | [] => pure []
  | orderId :: rest => do
      let sold ← finalizeOrder cfg orderId
      let sales ← finalizeOrders rest
      pure ((orderId, sold) :: sales)

/-- This cleanups all takes added into block, so we never store takes. -/
def onFinalize : AuctionCall A X (List (Nat × Nat)) := do
  let s ← Call.get
  let sales ← finalizeOrders cfg (cfg.iteration s.takes.keys)
  Call.modify fun s => { s with takes := ∅ }
  pure sales

/-! ## A small market -/

/-- Asset `0` is native; account `9` is the treasury; orders cost a deposit of `1`. -/
def sample (ed : Nat → Nat) : Config Nat Nat where
  currency := Currency.existential ed
  nativeAsset := 0
  treasury := 9
  orderDeposit := 1
  iteration keys := keys
  iteration_perm keys := .refl keys

/-- Account `1` has `100` of asset `1` to sell, account `2` has `100` of asset `2` to pay with. -/
def sampleLedger : Ledger Nat Nat := Ledger.ofList [(0, 1, 10), (0, 9, 10), (1, 1, 100), (2, 2, 100)]

/-- Ten of asset `1` at a price of one of asset `2` each. -/
def sampleSell : Sell Nat := ⟨⟨1, 2⟩, ⟨10, Fixed.div⟩⟩

/-- A price that falls to nothing within a hundred seconds. -/
def sampleCurve : TimeReleaseFunction := .linearDecrease 100

end DutchAuction
end Composable
