import Composable.DutchAuction.Model
import Composable.Support.Run

/-!
# `Dex.Model` — pools and the router

Embeds the pools of `frame/curve-amm/src/lib.rs` and `frame/uniswap-v2/src/lib.rs` as far as trading
goes, and the router `frame/dex-router/src/lib.rs` over them. Events are left out; the liquidity of
the pools is in `Dex.Liquidity` and `Dex.StableLiquidity`.

What a trade is worth (`Pricing`) is a parameter: decimal powers come from another library, and what
the routes do does not depend on them.
-/

namespace Composable
namespace Dex

open DutchAuction (CurrencyPair)

variable {A X F : Type} [DecidableEq A] [DecidableEq X]

/-! ## Data model -/

/-- `PartialEq` of pairs: a swapped pair is equal. -/
def samePair (p q : CurrencyPair X) : Prop :=
  (p.base = q.base ∧ p.quote = q.quote) ∨ (p.base = q.quote ∧ p.quote = q.base)

instance (p q : CurrencyPair X) : Decidable (samePair p q) := inferInstanceAs (Decidable (_ ∨ _))

def swap (pair : CurrencyPair X) : CurrencyPair X := ⟨pair.quote, pair.base⟩

/-- Fees are in parts per million. -/
structure StableSwapPoolInfo (A X : Type) where
  owner : A
  pair : CurrencyPair X
  lpToken : X
  amplificationCoefficient : Nat
  fee : Nat
  protocolFee : Nat
deriving DecidableEq

structure ConstantProductPoolInfo (A X : Type) where
  owner : A
  pair : CurrencyPair X
  lpToken : X
  fee : Nat
  ownerFee : Nat
deriving DecidableEq

inductive DexRouteNode where
  | curve (poolId : Nat)
  | uniswap (poolId : Nat)
deriving DecidableEq, Repr

def DexRouteNode.poolId : DexRouteNode → Nat
  | .curve poolId => poolId
  | .uniswap poolId => poolId

inductive CurveError where
  | assetAmountMustBePositiveNumber
  | requiredAmountNotReached
  | invalidFees
  | invalidPair
  | poolNotFound
  | pairMismatch
  | cannotRespectMinimumRequested
deriving DecidableEq, Repr

inductive UniswapError where
  | invalidFees
  | invalidPair
  | poolNotFound
  | invalidAmount
  | missingAmount
  | pairMismatch
  | cannotRespectMinimumRequested
deriving DecidableEq, Repr

inductive RouterError where
  | maxHopsExceeded
  | poolDoesNotExist
  | noRouteFound
deriving DecidableEq, Repr

inductive Error where
  | curve (error : CurveError)
  | uniswap (error : UniswapError)
  | router (error : RouterError)
deriving DecidableEq, Repr

/-- The computations of `maths.rs` and `constant_product.rs`; both weights of a
    constant-product pool are a half. -/
structure Pricing where
  computeD : (base quote amplification : Nat) → Except (DispatchError Error) Nat
  computeBase : (quote amplification d : Nat) → Except (DispatchError Error) Nat
  computeOutGivenIn : (quoteBalance baseBalance quoteAmount : Nat) → Except ArithmeticError Nat
  computeInGivenOut : (quoteBalance baseBalance baseAmount : Nat) → Except ArithmeticError Nat

structure Config (A X F : Type) where
  assets : Currency A X
  /-- Its operations take their amounts and nothing else. -/
  assets_exact : assets.Exact
  currencyFactory : CurrencyFactory F X
  pricing : Pricing
  /-- The accounts of the pools, `account_id`. -/
  curveAccount : Nat → A
  uniswapAccount : Nat → A
  maxPoolId : Nat
  maxHopsInRoute : Nat

attribute [instance] Config.assets_exact

structure State (A X F : Type) where
  ledger : Ledger A X
  factory : F
  curvePools : Nat → Option (StableSwapPoolInfo A X)
  curvePoolCount : Nat
  uniswapPools : Nat → Option (ConstantProductPoolInfo A X)
  uniswapPoolCount : Nat
  dexRoutes : X → X → Option (List DexRouteNode)

abbrev DexCall (A X F : Type) (α : Type) : Type := Call (State A X F) (DispatchError Error) α

variable (cfg : Config A X F)

/-- No pools and no routes yet. -/
def State.genesis (ledger : Ledger A X) (factory : F) : State A X F :=
  ⟨ledger, factory, fun _ => none, 0, fun _ => none, 0, fun _ _ => none⟩

def State.withLedger (s : State A X F) (l : Ledger A X) : State A X F := { s with ledger := l }

def arithmetic {α : Type} (x : Except ArithmeticError α) : DexCall A X F α :=
  Call.ofExcept (x.mapError .arithmetic)

/-- `T::Assets::transfer`. -/
def transfer (x : X) (source dest : A) (amount : Nat) (keepAlive : Bool) : DexCall A X F Unit :=
  Call.zoom State.ledger (fun l s => s.withLedger l) .token
    (cfg.assets.transfer x source dest amount keepAlive)

/-- `checked_add` of two fees, which must stay below one. -/
def totalFees (fee ownerFee : Nat) (error : Error) : DexCall A X F Unit := do
  Call.ensure (fee + ownerFee ≤ Fixed.permill) (.arithmetic .overflow)
  Call.ensure (fee + ownerFee < Fixed.permill) (.module error)

/-- A new LP token. -/
def createLpToken : DexCall A X F X := do
  let s ← Call.get
  let (x, factory) ← Call.ofExcept
    ((cfg.currencyFactory.create s.factory .lpTokens).mapError (DispatchError.map Empty.elim))
  Call.modify fun s => { s with factory := factory }
  pure x

/-! ## StableSwap pools -/

namespace Curve

def getPool (poolId : Nat) : DexCall A X F (StableSwapPoolInfo A X) := do
  let s ← Call.get
  Call.ofOption (s.curvePools poolId) (.module (.curve .poolNotFound))

def poolExists (s : State A X F) (poolId : Nat) : Bool := (s.curvePools poolId).isSome

def currencyPair (poolId : Nat) : DexCall A X F (CurrencyPair X) := do
  let pool ← getPool poolId
  pure pool.pair

def getExchangeValue (poolId : Nat) (asset : X) (amount : Nat) : DexCall A X F Nat := do
  let pool ← getPool poolId
  let s ← Call.get
  let account := cfg.curveAccount poolId
  let pair := if asset = pool.pair.base then pool.pair else swap pool.pair
  let poolBaseAum := s.ledger.balance pair.base account
  let poolQuoteAum := s.ledger.balance pair.quote account
  let d ← Call.ofExcept (cfg.pricing.computeD poolBaseAum poolQuoteAum pool.amplificationCoefficient)
  let newQuoteAmount ← arithmetic (Fixed.checked (poolQuoteAum + amount))
  let newBaseAmount ← Call.ofExcept
    (cfg.pricing.computeBase newQuoteAmount pool.amplificationCoefficient d)
  arithmetic (Fixed.checkedSub poolBaseAum newBaseAmount)

/-- The base amount without fees, the quote amount, and the two fees. -/
def doComputeSwap (poolId : Nat) (pair : CurrencyPair X) (quoteAmount : Nat) (applyFees : Bool) :
    DexCall A X F (Nat × Nat × Nat × Nat) := do
  let pool ← getPool poolId
  let baseAmount ← getExchangeValue cfg poolId pair.base quoteAmount
  let lpFee := if applyFees then Fixed.mulFloor Fixed.permill pool.fee baseAmount else 0
  let protocolFee := if applyFees then Fixed.mulFloor Fixed.permill pool.protocolFee lpFee else 0
  let baseAmountExcludingFees ← arithmetic (Fixed.checkedSub baseAmount lpFee)
  pure (baseAmountExcludingFees, quoteAmount, lpFee, protocolFee)

def exchange (who : A) (poolId : Nat) (pair : CurrencyPair X) (quoteAmount minReceive : Nat)
    (keepAlive : Bool) : DexCall A X F Nat := Call.transactional do
  let pool ← getPool poolId
  Call.ensure (samePair pair pool.pair) (.module (.curve .pairMismatch))
  let (baseAmountExcludingFees, quoteAmount, lpFees, protocolFees) ← doComputeSwap cfg poolId pair
    quoteAmount true
  Call.ensure (minReceive ≤ baseAmountExcludingFees) (.module (.curve .cannotRespectMinimumRequested))
  let account := cfg.curveAccount poolId
  transfer cfg pair.quote who account quoteAmount keepAlive
  transfer cfg pair.base account pool.owner protocolFees false
  transfer cfg pair.base account who baseAmountExcludingFees false
  -- the fee of the event
  let _ ← arithmetic (Fixed.checked (lpFees + protocolFees))
  pure baseAmountExcludingFees

def doCreatePool (who : A) (pair : CurrencyPair X) (amplificationCoefficient fee protocolFee : Nat) :
    DexCall A X F Nat := Call.transactional do
  Call.ensure (pair.base ≠ pair.quote) (.module (.curve .invalidPair))
  totalFees fee protocolFee (.curve .invalidFees)
  let lpToken ← createLpToken cfg
  let s ← Call.get
  let poolId := s.curvePoolCount
  Call.modify fun s =>
    { s with
      curvePools := Function.update s.curvePools poolId
        (some ⟨who, pair, lpToken, amplificationCoefficient, fee, protocolFee⟩) }
  Call.ensure (poolId + 1 ≤ cfg.maxPoolId) (.arithmetic .overflow)
  Call.modify fun s => { s with curvePoolCount := poolId + 1 }
  pure poolId

end Curve

/-! ## Constant-product pools -/

namespace Uniswap

def getPool (poolId : Nat) : DexCall A X F (ConstantProductPoolInfo A X) := do
  let s ← Call.get
  Call.ofOption (s.uniswapPools poolId) (.module (.uniswap .poolNotFound))

def poolExists (s : State A X F) (poolId : Nat) : Bool := (s.uniswapPools poolId).isSome

def currencyPair (poolId : Nat) : DexCall A X F (CurrencyPair X) := do
  let pool ← getPool poolId
  pure pool.pair

def getExchangeValue (poolId : Nat) (asset : X) (amount : Nat) : DexCall A X F Nat := do
  let pool ← getPool poolId
  let s ← Call.get
  let account := cfg.uniswapAccount poolId
  let poolBaseAum := s.ledger.balance pool.pair.base account
  let poolQuoteAum := s.ledger.balance pool.pair.quote account
  if asset = pool.pair.quote then
    arithmetic (cfg.pricing.computeOutGivenIn poolQuoteAum poolBaseAum amount)
  else arithmetic (cfg.pricing.computeInGivenOut poolQuoteAum poolBaseAum amount)

/-- The base amount, the quote amount without fees, and the two fees. -/
def doComputeSwap (poolId : Nat) (pair : CurrencyPair X) (quoteAmount : Nat) (applyFees : Bool) :
    DexCall A X F (Nat × Nat × Nat × Nat) := do
  let pool ← getPool poolId
  let s ← Call.get
  let account := cfg.uniswapAccount poolId
  let poolBaseAum := s.ledger.balance pair.base account
  let poolQuoteAum := s.ledger.balance pair.quote account
  let lpFee := if applyFees then Fixed.mulFloor Fixed.permill pool.fee quoteAmount else 0
  let ownerFee := if applyFees then Fixed.mulFloor Fixed.permill pool.ownerFee quoteAmount else 0
  let afterLpFee ← arithmetic (Fixed.checkedSub quoteAmount lpFee)
  let quoteAmountExcludingFees ← arithmetic (Fixed.checkedSub afterLpFee ownerFee)
  let baseAmount ← arithmetic
    (cfg.pricing.computeOutGivenIn poolQuoteAum poolBaseAum quoteAmountExcludingFees)
  Call.ensure (0 < baseAmount ∧ 0 < quoteAmountExcludingFees) (.module (.uniswap .invalidAmount))
  pure (baseAmount, quoteAmountExcludingFees, lpFee, ownerFee)

def exchange (who : A) (poolId : Nat) (pair : CurrencyPair X) (quoteAmount minReceive : Nat)
    (keepAlive : Bool) : DexCall A X F Nat := Call.transactional do
  let pool ← getPool poolId
  Call.ensure (samePair pair pool.pair) (.module (.uniswap .pairMismatch))
  let (baseAmount, quoteAmount, lpFees, ownerFees) ← doComputeSwap cfg poolId pair quoteAmount true
  let totalFees ← arithmetic (Fixed.checked (lpFees + ownerFees))
  let quoteAmountIncludingFees ← arithmetic (Fixed.checked (quoteAmount + totalFees))
  Call.ensure (minReceive ≤ baseAmount) (.module (.uniswap .cannotRespectMinimumRequested))
  let account := cfg.uniswapAccount poolId
  transfer cfg pair.quote who account quoteAmountIncludingFees keepAlive
  transfer cfg pair.quote account pool.owner ownerFees false
  transfer cfg pair.base account who baseAmount false
  pure baseAmount

def doCreatePool (who : A) (pair : CurrencyPair X) (fee ownerFee : Nat) : DexCall A X F Nat :=
  Call.transactional do
  Call.ensure (pair.base ≠ pair.quote) (.module (.uniswap .invalidPair))
  totalFees fee ownerFee (.uniswap .invalidFees)
  let lpToken ← createLpToken cfg
  let s ← Call.get
  let poolId := s.uniswapPoolCount
  Call.modify fun s =>
    { s with uniswapPools := Function.update s.uniswapPools poolId (some ⟨who, pair, lpToken, fee,
      ownerFee⟩) }
  Call.ensure (poolId + 1 ≤ cfg.maxPoolId) (.arithmetic .overflow)
  Call.modify fun s => { s with uniswapPoolCount := poolId + 1 }
  pure poolId

end Uniswap

/-! ## The router -/

/-- `BoundedVec<DexRouteNode, MaxHopsInRoute>`. -/
abbrev Route (cfg : Config A X F) : Type :=
  {route : List DexRouteNode // route.length ≤ cfg.maxHopsInRoute}

/-- The pool of a node is there. -/
def nodeExists (s : State A X F) : DexRouteNode → Bool
  | .curve poolId => Curve.poolExists s poolId
  | .uniswap poolId => Uniswap.poolExists s poolId

def State.setRoute (s : State A X F) (pair : CurrencyPair X) (route : Option (List DexRouteNode)) :
    State A X F :=
  { s with
    dexRoutes :=
      Function.update s.dexRoutes pair.base
        (Function.update (s.dexRoutes pair.base) pair.quote route) }

def doUpdateRoute (pair : CurrencyPair X) (route : Route cfg) : DexCall A X F Unit := do
  Call.forEach route.val fun node => do
    let s ← Call.get
    Call.ensure (nodeExists s node = true) (.module (.router .poolDoesNotExist))
  Call.modify fun s => s.setRoute pair (some route.val)

def doDeleteRoute (pair : CurrencyPair X) : DexCall A X F Unit :=
  Call.modify fun s => s.setRoute pair none

def updateRoute (pair : CurrencyPair X) : Option (Route cfg) → DexCall A X F Unit
  | some route => doUpdateRoute cfg pair route
  | none => doDeleteRoute pair

def getRoute (s : State A X F) (pair : CurrencyPair X) : Option (List DexRouteNode) :=
  s.dexRoutes pair.base pair.quote

/-- The exchange of one node, of `dx` of the quote asset of its pool. -/
def nodeExchange (who : A) (node : DexRouteNode) (dx : Nat) : DexCall A X F Nat :=
  match node with
  | .curve poolId => do
      let pair ← Curve.currencyPair poolId
      Curve.exchange cfg who poolId pair dx 0 true
  | .uniswap poolId => do
      let pair ← Uniswap.currencyPair poolId
      Uniswap.exchange cfg who poolId pair dx 0 true

/-- The loop of `exchange`: what one node pays out, the next one takes. -/
def exchangeAlong (who : A) : List DexRouteNode → Nat → Nat → DexCall A X F Nat
  | [], _, dy => pure dy
  | node :: route, dx, _ => do
      let dy ← nodeExchange cfg who node dx
      exchangeAlong who route dy dy

def exchange (who : A) (pair : CurrencyPair X) (dx : Nat) : DexCall A X F Nat := do
  let s ← Call.get
  let route ← Call.ofOption (getRoute s pair) (.module (.router .noRouteFound))
  exchangeAlong cfg who route dx 0

def sell (who : A) (pair : CurrencyPair X) (amount : Nat) : DexCall A X F Nat :=
  exchange cfg who pair amount

/-- What one node costs, for `dy` of its base asset. -/
def nodeValue (node : DexRouteNode) (dy : Nat) : DexCall A X F Nat :=
  match node with
  | .curve poolId => do
      let pair ← Curve.currencyPair poolId
      Curve.getExchangeValue cfg poolId pair.base dy
  | .uniswap poolId => do
      let pair ← Uniswap.currencyPair poolId
      Uniswap.getExchangeValue cfg poolId pair.base dy

/-- The first loop of `buy`, over the reversed route. -/
def valueAlong : List DexRouteNode → Nat → Nat → DexCall A X F Nat
  | [], _, dx => pure dx
  | node :: route, dy, _ => do
      let dx ← nodeValue cfg node dy
      valueAlong route dx dx

/-- The second loop of `buy`. -/
def buyAlong (who : A) : List DexRouteNode → Nat → DexCall A X F Nat
  | [], dx => pure dx
  | node :: route, dx => do
      let dy ← nodeExchange cfg who node dx
      buyAlong who route dy

def buy (who : A) (pair : CurrencyPair X) (amount : Nat) : DexCall A X F Nat := do
  let s ← Call.get
  let route ← Call.ofOption (getRoute s pair) (.module (.router .noRouteFound))
  let dx ← valueAlong cfg route.reverse amount 0
  buyAlong cfg who route dx

/-! ## Runs -/

inductive Op (cfg : Config A X F) where
  | createCurve (who : A) (pair : CurrencyPair X) (amplificationCoefficient fee protocolFee : Nat)
  | createUniswap (who : A) (pair : CurrencyPair X) (fee ownerFee : Nat)
  | updateRoute (pair : CurrencyPair X) (route : Option (Route cfg))
  | exchange (who : A) (pair : CurrencyPair X) (dx : Nat)
  | sell (who : A) (pair : CurrencyPair X) (amount : Nat)
  | buy (who : A) (pair : CurrencyPair X) (amount : Nat)

def step (s : State A X F) : Op cfg → Option (State A X F)
  | .createCurve who pair amplificationCoefficient fee protocolFee =>
      some (dispatch (Curve.doCreatePool cfg who pair amplificationCoefficient fee protocolFee) s)
  | .createUniswap who pair fee ownerFee =>
      some (dispatch (Uniswap.doCreatePool cfg who pair fee ownerFee) s)
  | .updateRoute pair route => some (dispatch (updateRoute cfg pair route) s)
  | .exchange who pair dx => some (dispatch (exchange cfg who pair dx) s)
  | .sell who pair amount => some (dispatch (sell cfg who pair amount) s)
  | .buy who pair amount => some (dispatch (buy cfg who pair amount) s)

end Dex
end Composable
