import Composable.Dex.Liquidity
import Composable.Dex.Failures
import Composable.Dex.Purchases
import Composable.Dex.Invariants

/-!
# `Dex.StableLiquidity` — liquidity of a StableSwap pool

Embeds `add_liquidity`, `remove_liquidity` and `sell` of `frame/curve-amm/src/lib.rs`
and the extrinsics of the pallet.

A deposit need not be in the proportion of the reserves. What it is off by is charged as a swap
would be, half the fee on either side, and the shares are for the invariant of what is left
(`depositShares`); a withdrawal is in proportion and free.

* Withdrawals are `Pool.Leaves` in both assets, rounded up at most where their product has more than
  128 bits. So the shares that stay lose half a unit, all together, with each of those and nothing
  else for the withdrawals of others, and a pool is empty once the last share is gone, in runs that
  may do anything with the other pools (`shares_keep_worth`).
* A deposit does not dilute the shares there are, but for half a share where what is minted is not
  rounded down: measured by the invariants that the pallet computes, of the reserves before it and
  of those after it and all of its fees (`deposit_not_dilutes`).
* What has come into a pool without shares belongs to whoever deposits first (`first_takes_all`).
-/

namespace Composable
namespace Dex

open DutchAuction (CurrencyPair)

variable {A X F : Type} [DecidableEq A] [DecidableEq X]

/-! ## The pallet -/

namespace Curve

variable (cfg : Config A X F)

def sell (who : A) (poolId : Nat) (asset : X) (amount : Nat) (keepAlive : Bool) : DexCall A X F Nat :=
  Call.transactional do
    let pool ← getPool poolId
    let pair := if asset = pool.pair.base then swap pool.pair else pool.pair
    exchange cfg who poolId pair amount 0 keepAlive

def absDifference (newBalance oldBalance : Nat) : Except ArithmeticError Nat :=
  if newBalance < oldBalance then Fixed.checkedSub oldBalance newBalance
  else Fixed.checkedSub newBalance oldBalance

/-- `Permill::from_rational(2, 4)`. -/
def feeShare : Nat := 500000

/-- The fee on what one of the amounts is off by. -/
def imbalanceFee (fee : Nat) : Nat := fee * feeShare / Fixed.permill

/-- What is minted for a deposit that takes the invariant from `d0` to `d1`, and the fees of
    the owner on both sides. -/
def depositShares (pool : StableSwapPoolInfo A X)
    (lpIssued poolBaseAum poolQuoteAum newBaseAmount newQuoteAmount d0 d1 : Nat) :
    DexCall A X F (Nat × Nat × Nat) :=
  if 0 < lpIssued then do
    let fee := imbalanceFee pool.fee
    let idealBaseBalance ← arithmetic (Fixed.multiplyByRational d1 poolBaseAum d0)
    let idealQuoteBalance ← arithmetic (Fixed.multiplyByRational d1 poolQuoteAum d0)
    let baseDifference ← arithmetic (absDifference idealBaseBalance newBaseAmount)
    let quoteDifference ← arithmetic (absDifference idealQuoteBalance newQuoteAmount)
    let baseFee := Fixed.mulFloor Fixed.permill fee baseDifference
    let quoteFee := Fixed.mulFloor Fixed.permill fee quoteDifference
    let baseProtocolFee := Fixed.mulFloor Fixed.permill pool.protocolFee baseFee
    let quoteProtocolFee := Fixed.mulFloor Fixed.permill pool.protocolFee quoteFee
    let newBaseBalance ← arithmetic (Fixed.checkedSub newBaseAmount baseFee)
    let newQuoteBalance ← arithmetic (Fixed.checkedSub newQuoteAmount quoteFee)
    let d2 ← Call.ofExcept (cfg.pricing.computeD newBaseBalance newQuoteBalance
      pool.amplificationCoefficient)
    let gained ← arithmetic (Fixed.checkedSub d2 d0)
    let mintAmount ← arithmetic (Fixed.multiplyByRational lpIssued gained d0)
    pure (mintAmount, baseProtocolFee, quoteProtocolFee)
  else pure (d1, 0, 0)

def addLiquidity (who : A) (poolId baseAmount quoteAmount minMintAmount : Nat) (keepAlive : Bool) :
    DexCall A X F Unit :=
  Call.transactional do
    Call.ensure (0 < baseAmount) (.module (.curve .assetAmountMustBePositiveNumber))
    Call.ensure (0 < quoteAmount) (.module (.curve .assetAmountMustBePositiveNumber))
    let pool ← getPool poolId
    let s ← Call.get
    let account := cfg.curveAccount poolId
    let poolBaseAum := s.ledger.balance pool.pair.base account
    let poolQuoteAum := s.ledger.balance pool.pair.quote account
    let lpIssued := s.ledger.issuance pool.lpToken
    let d0 ← Call.ofExcept
      (cfg.pricing.computeD poolBaseAum poolQuoteAum pool.amplificationCoefficient)
    let newBaseAmount ← arithmetic (Fixed.checked (poolBaseAum + baseAmount))
    let newQuoteAmount ← arithmetic (Fixed.checked (poolQuoteAum + quoteAmount))
    let d1 ← Call.ofExcept (cfg.pricing.computeD newBaseAmount newQuoteAmount
      pool.amplificationCoefficient)
    Call.ensure (d0 < d1) (.module (.curve .assetAmountMustBePositiveNumber))
    let (mintAmount, baseProtocolFee, quoteProtocolFee) ←
      depositShares cfg pool lpIssued poolBaseAum poolQuoteAum newBaseAmount newQuoteAmount d0 d1
    Call.ensure (minMintAmount ≤ mintAmount) (.module (.curve .requiredAmountNotReached))
    transfer cfg pool.pair.base who account baseAmount keepAlive
    transfer cfg pool.pair.quote who account quoteAmount keepAlive
    -- The owner's fee is transferred upfront.
    transfer cfg pool.pair.base account pool.owner baseProtocolFee keepAlive
    transfer cfg pool.pair.quote account pool.owner quoteProtocolFee keepAlive
    mintInto cfg pool.lpToken who mintAmount

/-- No fees are charged: the invariant is not moved out of balance. -/
def removeLiquidity (who : A) (poolId lpAmount minBaseAmount minQuoteAmount : Nat) :
    DexCall A X F Unit :=
  Call.transactional do
    let pool ← getPool poolId
    let s ← Call.get
    let account := cfg.curveAccount poolId
    let poolBaseAum := s.ledger.balance pool.pair.base account
    let poolQuoteAum := s.ledger.balance pool.pair.quote account
    let lpIssued := s.ledger.issuance pool.lpToken
    let baseAmount ← arithmetic (Fixed.multiplyByRational lpAmount poolBaseAum lpIssued)
    let quoteAmount ← arithmetic (Fixed.multiplyByRational lpAmount poolQuoteAum lpIssued)
    Call.ensure (minBaseAmount ≤ baseAmount ∧ minQuoteAmount ≤ quoteAmount)
      (.module (.curve .cannotRespectMinimumRequested))
    -- the issuance of the event
    let _ ← arithmetic (Fixed.checkedSub lpIssued lpAmount)
    transfer cfg pool.pair.base account who baseAmount false
    transfer cfg pool.pair.quote account who quoteAmount false
    burnFrom cfg pool.lpToken who lpAmount

/-- The extrinsics. -/
inductive Op (A X : Type) where
  | create (origin : RawOrigin A) (pair : CurrencyPair X)
      (amplificationCoefficient fee ownerFee : Nat)
  | buy (origin : RawOrigin A) (poolId : Nat) (asset : X) (amount : Nat) (keepAlive : Bool)
  | sell (origin : RawOrigin A) (poolId : Nat) (asset : X) (amount : Nat) (keepAlive : Bool)
  | swap (origin : RawOrigin A) (poolId : Nat) (pair : CurrencyPair X)
      (quoteAmount minReceive : Nat) (keepAlive : Bool)

def Op.origin : Op A X → RawOrigin A
  | .create origin _ _ _ _ | .buy origin _ _ _ _ | .sell origin _ _ _ _
  | .swap origin _ _ _ _ _ => origin

/-- What an extrinsic does on behalf of the account that signs it. -/
def invokeAs (who : A) : Op A X → DexCall A X F Nat
  | .create _ pair amplificationCoefficient fee ownerFee =>
      doCreatePool cfg who pair amplificationCoefficient fee ownerFee
  | .buy _ poolId asset amount keepAlive => buy cfg who poolId asset amount keepAlive
  | .sell _ poolId asset amount keepAlive => sell cfg who poolId asset amount keepAlive
  | .swap _ poolId pair quoteAmount minReceive keepAlive =>
      exchange cfg who poolId pair quoteAmount minReceive keepAlive

def step (s : State A X F) (op : Op A X) : Option (State A X F) :=
  some (dispatch (ensureSigned op.origin >>= fun who => invokeAs cfg who op) s)

/-- What is done with the pools: their extrinsics, and the calls of other pallets
    on behalf of an account. -/
inductive PoolOp (A X : Type) where
  | trade (op : Op A X)
  | addLiquidity (who : A) (poolId baseAmount quoteAmount minMintAmount : Nat) (keepAlive : Bool)
  | removeLiquidity (who : A) (poolId lpAmount minBaseAmount minQuoteAmount : Nat)

def PoolOp.origin : PoolOp A X → RawOrigin A
  | .trade op => op.origin
  | .addLiquidity who _ _ _ _ _ | .removeLiquidity who _ _ _ _ => .signed who

def poolStep (s : State A X F) : PoolOp A X → Option (State A X F)
  | .trade op => step cfg s op
  | .addLiquidity who poolId baseAmount quoteAmount minMintAmount keepAlive =>
      some (dispatch (addLiquidity cfg who poolId baseAmount quoteAmount minMintAmount keepAlive) s)
  | .removeLiquidity who poolId lpAmount minBaseAmount minQuoteAmount =>
      some (dispatch (removeLiquidity cfg who poolId lpAmount minBaseAmount minQuoteAmount) s)

/-- The operation trades with the pool or adds to it. -/
def PoolOp.Moves (poolId : Nat) : PoolOp A X → Prop
  | .trade (.create _ _ _ _ _) | .removeLiquidity _ _ _ _ _ => False
  | .trade (.buy _ id _ _ _) | .trade (.sell _ id _ _ _) | .trade (.swap _ id _ _ _ _)
  | .addLiquidity _ id _ _ _ _ => id = poolId

end Curve

/-! ## What the calls do -/

open Relation (ReflTransGen)

variable {cfg : Config A X F} {s s' t : State A X F} {who c : A}
  {id base quote lp minMint minBase minQuote : Nat}
variable {pool : StableSwapPoolInfo A X} {x : X} {k : Bool} {u : Unit}

/-- What the account of a pool has of an asset, and the shares that are out. -/
def sharesOf (cfg : Config A X F) (id : Nat) (pool : StableSwapPoolInfo A X) (s : State A X F)
    (x : X) : Pool :=
  ⟨reserve cfg id s x, s.ledger.issuance pool.lpToken⟩

/-- What shares are paid of an asset. -/
def paidFor (cfg : Config A X F) (id : Nat) (pool : StableSwapPoolInfo A X) (s : State A X F)
    (lp : Nat) (x : X) : Nat :=
  Fixed.quotient lp (reserve cfg id s x) (max (s.ledger.issuance pool.lpToken) 1)

/-- Shares of an account are burnt for the two amounts from the account `c` of the pool. -/
structure Withdrawn (pool : StableSwapPoolInfo A X) (c who : A) (base quote lp : Nat)
    (s s' : State A X F) : Prop where
  balance : ∀ x a, s'.ledger.balance x a + (if a = c then amounts pool.pair base quote x else 0) +
      (if x = pool.lpToken ∧ a = who then lp else 0) =
    s.ledger.balance x a + if a = who then amounts pool.pair base quote x else 0
  issuance : ∀ x, s'.ledger.issuance x + (if x = pool.lpToken then lp else 0) = s.ledger.issuance x
  ledgerOnly : LedgerOnly s s'

/-- The two amounts go to the account `c` of the pool, some of both from there to the
    owner, and shares are minted. -/
structure Deposited (pool : StableSwapPoolInfo A X) (c who : A) (base quote baseFee quoteFee lp : Nat)
    (s s' : State A X F) : Prop where
  balance : ∀ x a, s'.ledger.balance x a + (if a = who then amounts pool.pair base quote x else 0) +
      (if a = c then amounts pool.pair baseFee quoteFee x else 0) =
    s.ledger.balance x a + (if a = c then amounts pool.pair base quote x else 0) +
      (if a = pool.owner then amounts pool.pair baseFee quoteFee x else 0) +
      (if x = pool.lpToken ∧ a = who then lp else 0)
  issuance : ∀ x, s'.ledger.issuance x = s.ledger.issuance x + if x = pool.lpToken then lp else 0
  ledgerOnly : LedgerOnly s s'

/-- What `remove_liquidity` does. -/
theorem Curve.removeLiquidity_ok
    (h : Curve.removeLiquidity cfg who id lp minBase minQuote s = (.ok u, s')) :
    ∃ pool, s.curvePools id = some pool ∧ lp ≤ s.ledger.issuance pool.lpToken ∧
      Withdrawn pool (cfg.curveAccount id) who (paidFor cfg id pool s lp pool.pair.base)
        (paidFor cfg id pool s lp pool.pair.quote) lp s s' := by
  simp only [Curve.removeLiquidity, Call.transactional_ok, Call.bind_ok, Call.ensure_ok,
    Curve.getPool_ok, Call.get_bind, arithmetic_ok, Fixed.multiplyByRational_eq, Fixed.checked_ok,
    Fixed.checkedSub_ok, transfer_ok, burnFrom_ok] at h
  obtain ⟨pool, t, ⟨hpool, rfl⟩, base, t, ⟨⟨-, rfl⟩, rfl⟩, quote, t, ⟨⟨-, rfl⟩, rfl⟩, _, t,
    ⟨-, rfl⟩, _, t,
    ⟨⟨hissued, -⟩, rfl⟩, _, t, ⟨hfirst, rfl⟩, _, t, ⟨hsecond, rfl⟩, hburnt, rfl⟩ := h
  refine ⟨pool, hpool, hissued, fun x a => ?_, fun x => ?_, rfl⟩
  · have htransfers := balance_of_transfers (x := x) (c := a) (cfg.assets.funded_of_transfer hfirst)
      (cfg.assets.funded_of_transfer hsecond)
    have hburn := Ledger.balance_burn_add (y := x) (c := a) (cfg.assets.funded_of_burn hburnt).1
    refine Eq.trans ?_ htransfers
    rw [Nat.add_right_comm]
    exact congrArg (· + _) hburn
  · show Ledger.issuance _ x - _ + _ = _
    split_ifs with hx
    · subst hx
      exact Nat.sub_add_cancel hissued
    · rfl

omit [DecidableEq A] [DecidableEq X] in
theorem Curve.depositShares_reads {issued newBase newQuote d0 d1 : Nat} :
    (Curve.depositShares cfg pool issued base quote newBase newQuote d0 d1).Reads := by
  unfold Curve.depositShares
  split
  · exact .bind (.ofExcept _) fun _ => .bind (.ofExcept _) fun _ => .bind (.ofExcept _) fun _ =>
      .bind (.ofExcept _) fun _ => .bind (.ofExcept _) fun _ => .bind (.ofExcept _) fun _ =>
      .bind (.ofExcept _) fun _ => .bind (.ofExcept _) fun _ => .bind (.ofExcept _) fun _ => .pure _
  · exact .pure _

/-- What `add_liquidity` does. -/
theorem Curve.addLiquidity_ok
    (h : Curve.addLiquidity cfg who id base quote minMint k s = (.ok u, s')) :
    ∃ pool d0 d1 mint baseFee quoteFee, s.curvePools id = some pool ∧ 0 < base ∧ 0 < quote ∧
      cfg.pricing.computeD (reserve cfg id s pool.pair.base) (reserve cfg id s pool.pair.quote)
        pool.amplificationCoefficient = .ok d0 ∧
      cfg.pricing.computeD (reserve cfg id s pool.pair.base + base)
        (reserve cfg id s pool.pair.quote + quote)
        pool.amplificationCoefficient = .ok d1 ∧ d0 < d1 ∧ minMint ≤ mint ∧
      Curve.depositShares cfg pool (s.ledger.issuance pool.lpToken) (reserve cfg id s pool.pair.base)
        (reserve cfg id s pool.pair.quote) (reserve cfg id s pool.pair.base + base)
        (reserve cfg id s pool.pair.quote + quote) d0 d1 s = (.ok (mint, baseFee, quoteFee), s) ∧
      Deposited pool (cfg.curveAccount id) who base quote baseFee quoteFee mint s s' := by
  simp only [Curve.addLiquidity, Call.transactional_ok, Call.bind_ok, Call.ensure_ok,
    Curve.getPool_ok, Call.get_bind, Call.ofExcept_ok, arithmetic_ok, Fixed.checked_ok, transfer_ok,
    mintInto_ok] at h
  obtain ⟨_, t, ⟨hbase, rfl⟩, _, t, ⟨hquote, rfl⟩, pool, t, ⟨hpool, rfl⟩, d0, t, ⟨hd0, rfl⟩, _, t,
    ⟨⟨-, rfl⟩, rfl⟩, _, t,
    ⟨⟨-, rfl⟩, rfl⟩, d1, t, ⟨hd1, rfl⟩, _, t, ⟨hlt, rfl⟩, ⟨mint, baseFee, quoteFee⟩, t, hshares, _,
      t', ⟨hmin, rfl⟩,
    _, t', ⟨hfirst, rfl⟩, _, t', ⟨hsecond, rfl⟩, _, t', ⟨hthird, rfl⟩, _, t', ⟨hfourth, rfl⟩,
      -, rfl⟩ := h
  obtain rfl := Curve.depositShares_reads.ok hshares
  refine ⟨pool, d0, d1, mint, baseFee, quoteFee, hpool, hbase, hquote, hd0, hd1, hlt, hmin, hshares,
    fun x a => ?_, fun x => rfl, rfl⟩
  have hin := balance_of_transfers (x := x) (c := a) (cfg.assets.funded_of_transfer hfirst)
    (cfg.assets.funded_of_transfer hsecond)
  have hout := balance_of_transfers (x := x) (c := a) (cfg.assets.funded_of_transfer hthird)
    (cfg.assets.funded_of_transfer hfourth)
  simp only [State.withLedger] at hin hout ⊢
  rw [Ledger.balance_mint]
  omega

/-- A call on behalf of an account that leaves everything alone but the account,
    the pool and its owner. -/
structure Touches (cfg : Config A X F) (id : Nat) (who : A) (s s' : State A X F) : Prop where
  pool : ∃ pool, s.curvePools id = some pool ∧
    (∀ x a, a ≠ who → a ≠ cfg.curveAccount id → a ≠ pool.owner →
      s'.ledger.balance x a = s.ledger.balance x a) ∧
    ∀ x, x ≠ pool.lpToken → s'.ledger.issuance x = s.ledger.issuance x
  ledgerOnly : LedgerOnly s s'

theorem Touches.of_exchange {pair : CurrencyPair X} {q minReceive out : Nat}
    (h : Curve.exchange cfg who id pair q minReceive k s = (.ok out, s')) :
    Touches cfg id who s s' := by
  obtain ⟨pool, value, fee, hpool, -, -, -, -, -, -, -, rfl⟩ := Curve.exchange_ok h
  refine ⟨⟨pool, hpool, fun x a hwho hc howner => ?_, fun x _ => rfl⟩, rfl⟩
  show Ledger.balance (Ledger.move _ _ _ _ _) x a = _
  rw [Ledger.balance_move_of_ne hc hwho, Ledger.balance_move_of_ne hc howner,
    Ledger.balance_move_of_ne hwho hc]

theorem Deposited.touches {baseFee quoteFee : Nat} (hpool : s.curvePools id = some pool)
    (h : Deposited pool (cfg.curveAccount id) who base quote baseFee quoteFee lp s s') :
    Touches cfg id who s s' := by
  refine ⟨⟨pool, hpool, fun x a hwho hc howner => ?_, fun x hx => ?_⟩, h.ledgerOnly⟩
  · have hbalance := h.balance x a
    rwa [if_neg hwho, if_neg hc, if_neg hc, if_neg howner, if_neg fun h => hwho h.2] at hbalance
  · rw [h.issuance, if_neg hx, Nat.add_zero]

theorem Withdrawn.touches (hpool : s.curvePools id = some pool)
    (h : Withdrawn pool (cfg.curveAccount id) who base quote lp s s') : Touches cfg id who s s' := by
  refine ⟨⟨pool, hpool, fun x a hwho hc _ => ?_, fun x hx => ?_⟩, h.ledgerOnly⟩
  · have hbalance := h.balance x a
    rwa [if_neg hc, if_neg hwho, if_neg fun h => hwho h.2] at hbalance
  · have hissuance := h.issuance x
    rwa [if_neg hx] at hissuance

theorem Curve.sell_ok {amount got : Nat} (h : Curve.sell cfg who id x amount k s = (.ok got, s')) :
    ∃ pair, Curve.exchange cfg who id pair amount 0 k s = (.ok got, s') := by
  simp only [Curve.sell, Call.transactional_ok, Call.bind_ok, Curve.getPool_ok] at h
  obtain ⟨pool, t, ⟨-, rfl⟩, hexchange⟩ := h
  exact ⟨_, hexchange⟩

/-- A call that fails has written nothing. -/
theorem Curve.invokeAs_clean {op : Curve.Op A X} :
    Call.Outcome (fun _ _ => True) (fun _ t => t = s) (Curve.invokeAs cfg who op s) := by
  cases op <;>
    exact Call.outcome_transactional.mpr
      (Call.outcome_iff.mpr ⟨fun _ _ _ => trivial, fun _ _ _ => rfl⟩)

/-- An extrinsic creates a pool, touches the one it names, or changes nothing. -/
theorem Curve.step_cases {op : Curve.Op A X} (h : Curve.step cfg s op = some s') :
    s' = s ∨ ∃ who, op.origin = .signed who ∧
      ((∃ pair amp fee ownerFee id, Curve.doCreatePool cfg who pair amp fee ownerFee s =
        (.ok id, s')) ∨ ∃ id, Curve.PoolOp.Moves id (.trade op) ∧ Touches cfg id who s s') := by
  obtain rfl := Option.some.inj h
  rcases dispatch_cases (ensureSigned op.origin >>= fun who => Curve.invokeAs cfg who op) s with
    ⟨out, hok⟩ | ⟨-, hidle | ⟨e, herror⟩⟩
  · right
    obtain ⟨who, t, hsigned, hok⟩ := Call.bind_ok.mp hok
    obtain ⟨hwho, rfl⟩ := ensureSigned_ok.mp hsigned
    refine ⟨who, hwho, ?_⟩
    cases op with
    | create origin pair amp fee ownerFee => exact .inl ⟨pair, amp, fee, ownerFee, out, hok⟩
    | buy origin id x q k =>
        obtain ⟨pool, value, out', -, -, hexchange, -⟩ := Curve.buy_ok hok
        exact .inr ⟨id, rfl, .of_exchange hexchange⟩
    | sell origin id x q k =>
        obtain ⟨pair, hexchange⟩ := Curve.sell_ok hok
        exact .inr ⟨id, rfl, .of_exchange hexchange⟩
    | swap origin id pair q minReceive k => exact .inr ⟨id, rfl, .of_exchange hok⟩
  · exact .inl hidle
  · left
    have hclean : Call.Outcome (fun _ _ => True) (fun _ t => t = s)
        ((ensureSigned op.origin >>= fun who => Curve.invokeAs cfg who op) s) := by
      rw [Call.outcome_bind, ensureSigned_outcome]
      exact ⟨fun who _ => Curve.invokeAs_clean, fun _ => rfl⟩
    exact (Call.outcome_iff.mp hclean).2 e _ herror

/-- A step creates a pool, touches the one it names, removes liquidity, or changes nothing. -/
theorem Curve.poolStep_cases {op : Curve.PoolOp A X} (h : Curve.poolStep cfg s op = some s') :
    s' = s ∨ ∃ who, op.origin = .signed who ∧
      ((∃ pair amp fee ownerFee id, Curve.doCreatePool cfg who pair amp fee ownerFee s =
        (.ok id, s')) ∨ (∃ id, op.Moves id ∧ Touches cfg id who s s') ∨
        ∃ id lp minBase minQuote, op = .removeLiquidity who id lp minBase minQuote ∧
          Curve.removeLiquidity cfg who id lp minBase minQuote s = (.ok (), s')) := by
  cases op with
  | trade op =>
      rcases Curve.step_cases h with hidle | ⟨who, hwho, hcreate | htouch⟩
      · exact .inl hidle
      · exact .inr ⟨who, hwho, .inl hcreate⟩
      · exact .inr ⟨who, hwho, .inr (.inl htouch)⟩
  | addLiquidity who id base quote minMint k =>
      obtain rfl := Option.some.inj h
      rcases dispatch_transactional _ s with hidle | ⟨u, hadd⟩
      · exact .inl hidle
      · obtain ⟨pool, _, _, lp, _, _, hpool, -, -, -, -, -, -, -, hd⟩ :=
          Curve.addLiquidity_ok (Call.transactional_ok.mpr hadd)
        exact .inr ⟨who, rfl, .inr (.inl ⟨id, rfl, hd.touches hpool⟩)⟩
  | removeLiquidity who id lp minBase minQuote =>
      obtain rfl := Option.some.inj h
      rcases dispatch_transactional _ s with hidle | ⟨u, hremove⟩
      · exact .inl hidle
      · exact .inr ⟨who, rfl,
          .inr (.inr ⟨id, lp, minBase, minQuote, rfl, Call.transactional_ok.mpr hremove⟩)⟩

/-! ## Runs -/

/-- The pools that were created, by accounts that are not themselves pools, each
    with a token of its own. -/
structure Curve.Managed (cfg : Config A X F) (s : State A X F) : Prop where
  within : s.curvePoolCount ≤ cfg.maxPoolId
  below : ∀ {id pool}, s.curvePools id = some pool → id < s.curvePoolCount
  pair_ne : ∀ {id pool}, s.curvePools id = some pool → pool.pair.base ≠ pool.pair.quote
  owner_ne : ∀ {id pool}, s.curvePools id = some pool → ∀ id', pool.owner ≠ cfg.curveAccount id'
  inUse : ∀ {id pool}, s.curvePools id = some pool → cfg.currencyFactory.inUse s.factory pool.lpToken
  lpToken_ne : ∀ {id id' pool pool'}, s.curvePools id = some pool → s.curvePools id' = some pool' →
    id ≠ id' →
    pool.lpToken ≠ pool'.lpToken

namespace Curve.Managed

omit [DecidableEq A] [DecidableEq X] in
theorem genesis (ledger : Ledger A X) (factory : F) : Managed cfg (State.genesis ledger factory) := by
  refine ⟨Nat.zero_le _, ?_, ?_, ?_, ?_, ?_⟩ <;> intros <;> contradiction

omit [DecidableEq A] [DecidableEq X] in
/-- Ids of pools are in the range of their type. -/
theorem id_le (h : Managed cfg s) (hpool : s.curvePools id = some pool) : id ≤ cfg.maxPoolId :=
  (h.below hpool).le.trans h.within

omit [DecidableEq A] [DecidableEq X] in
theorem of_ledgerOnly (h : Managed cfg s) (honly : LedgerOnly s s') : Managed cfg s' := by
  rw [honly]
  exact ⟨h.within, h.below, h.pair_ne, h.owner_ne, h.inUse, h.lpToken_ne⟩

omit [DecidableEq A] in
/-- A new pool has a new token, and the others stay what they are. -/
theorem create (h : Managed cfg s) {pair : CurrencyPair X} {amp fee ownerFee : Nat}
    (hwho : ∀ id, who ≠ cfg.curveAccount id)
    (hok : doCreatePool cfg who pair amp fee ownerFee s = (.ok id, s')) :
    Managed cfg s' ∧ s'.ledger = s.ledger ∧ ∀ {id pool}, s.curvePools id = some pool →
      s'.curvePools id = some pool := by
  obtain ⟨hpair, -, hcount, lpToken, factory, hcreate, rfl⟩ := doCreatePool_ok hok
  -- A pool is the new one or one of those before.
  have hcases : ∀ {id pool}, Function.update s.curvePools s.curvePoolCount
        (some ⟨who, pair, lpToken, amp, fee, ownerFee⟩) id = some pool →
      (id = s.curvePoolCount ∧ pool = ⟨who, pair, lpToken, amp, fee, ownerFee⟩) ∨
        s.curvePools id = some pool := by
    intro id pool hpool
    rw [Function.update_apply] at hpool
    split at hpool
    · exact .inl ⟨‹_›, (Option.some.inj hpool).symm⟩
    · exact .inr hpool
  have hnew : ∀ {id pool}, s.curvePools id = some pool → pool.lpToken ≠ lpToken := by
    intro id pool hpool heq
    exact cfg.currencyFactory.fresh hcreate (heq ▸ h.inUse hpool)
  refine ⟨⟨hcount, fun hpool => ?_, fun hpool => ?_, fun hpool => ?_, fun hpool => ?_,
    fun hpool hpool' hne => ?_⟩, rfl, fun {id pool} hpool => ?_⟩
  · rcases hcases hpool with ⟨rfl, -⟩ | hold
    · exact Nat.lt_succ_self _
    · exact Nat.lt_succ_of_lt (h.below hold)
  · rcases hcases hpool with ⟨-, rfl⟩ | hold
    · exact hpair
    · exact h.pair_ne hold
  · rcases hcases hpool with ⟨-, rfl⟩ | hold
    · exact hwho
    · exact h.owner_ne hold
  · rcases hcases hpool with ⟨-, rfl⟩ | hold
    · exact (cfg.currencyFactory.inUse_create hcreate).mpr (.inl rfl)
    · exact (cfg.currencyFactory.inUse_create hcreate).mpr (.inr (h.inUse hold))
  · rcases hcases hpool with ⟨rfl, rfl⟩ | hold
    · rcases hcases hpool' with ⟨rfl, -⟩ | hold'
      · exact absurd rfl hne
      · exact (hnew hold').symm
    · rcases hcases hpool' with ⟨-, rfl⟩ | hold'
      · exact hnew hold
      · exact h.lpToken_ne hold hold' hne
  · show Function.update _ _ _ _ = _
    rw [Function.update_of_ne (Nat.ne_of_lt (h.below hpool)), hpool]

theorem step (h : Managed cfg s) {op : PoolOp A X}
    (hsigner : ∀ id, op.origin ≠ .signed (cfg.curveAccount id))
    (hstep : poolStep cfg s op = some s') : Managed cfg s' := by
  rcases poolStep_cases hstep with rfl | ⟨who, hwho, ⟨_, _, _, _, _, hcreate⟩ | ⟨id, -, htouch⟩ |
    ⟨_, _, _, _, _, hremove⟩⟩
  · exact h
  · exact (h.create (fun id heq => hsigner id (heq ▸ hwho)) hcreate).1
  · exact h.of_ledgerOnly htouch.ledgerOnly
  · obtain ⟨_, -, -, hw⟩ := removeLiquidity_ok hremove
    exact h.of_ledgerOnly hw.ledgerOnly

end Curve.Managed

omit [DecidableEq A] [DecidableEq X] in
theorem LedgerOnly.curvePools (h : LedgerOnly s s') : s'.curvePools = s.curvePools := by
  rw [h]
  rfl

omit [DecidableEq A] [DecidableEq X] in
/-- What touches one pool is nothing to another. -/
theorem Touches.sharesOf_eq (haccounts : Set.InjOn cfg.curveAccount (Set.Iic cfg.maxPoolId))
    (hs : Curve.Managed cfg s)
    (hwho : ∀ id, who ≠ cfg.curveAccount id) {id' : Nat} (h : Touches cfg id' who s s')
    (hid : id ≠ id')
    (hpool : s.curvePools id = some pool) : sharesOf cfg id pool s' x = sharesOf cfg id pool s x := by
  obtain ⟨pool', hpool', hbalance, hissuance⟩ := h.pool
  have hreserve : reserve cfg id s' x = reserve cfg id s x :=
    hbalance x _ (hwho id).symm (fun heq => hid (haccounts (hs.id_le hpool) (hs.id_le hpool') heq))
      (hs.owner_ne hpool' id).symm
  rw [sharesOf, sharesOf, hreserve, hissuance _ (hs.lpToken_ne hpool hpool' hid)]

/-- A withdrawal from the pool that goes through, of so many shares, for which the amount of the
    asset need not be rounded down: the product has more than 128 bits. -/
def Curve.PoolOp.wide (cfg : Config A X F) (id : Nat) (pool : StableSwapPoolInfo A X) (x : X)
    (s : State A X F) : Curve.PoolOp A X → Option Nat
  | .removeLiquidity who poolId lpAmount minBaseAmount minQuoteAmount =>
      if poolId = id ∧
        ¬ Fixed.RoundedDown lpAmount (reserve cfg id s x) (s.ledger.issuance pool.lpToken) then
        (Call.success (Curve.removeLiquidity cfg who poolId lpAmount minBaseAmount minQuoteAmount)
          s).map fun _ => lpAmount
      else none
  | .trade _ | .addLiquidity _ _ _ _ _ _ => none

omit [DecidableEq A] [DecidableEq X] in
/-- Shares leave with what they are paid. -/
theorem paidFor_leaves (hissued : lp ≤ s.ledger.issuance pool.lpToken) :
    (sharesOf cfg id pool s x).Leaves
      (if Fixed.RoundedDown lp (reserve cfg id s x) (s.ledger.issuance pool.lpToken) then 0 else 1) lp
      (paidFor cfg id pool s lp x) := by
  unfold paidFor sharesOf
  rcases Nat.eq_zero_or_pos (s.ledger.issuance pool.lpToken) with hzero | hpos
  · obtain rfl : lp = 0 := by omega
    constructor <;> simp [hzero]
  · rw [Nat.max_eq_left hpos]
    refine ⟨hissued, ?_, ?_, ?_, ?_⟩
    · exact Fixed.quotient_le (Nat.mul_comm lp _ ▸ Nat.mul_le_mul_left _ hissued)
    · rintro rfl
      exact Fixed.zero_quotient
    · rintro - rfl
      exact Fixed.quotient_self hpos
    · show 2 * (Fixed.quotient lp _ _ * _) ≤ 2 * (lp * _) + _ * _
      split
      next hdown =>
          rw [hdown.eq_div, Nat.zero_mul, Nat.add_zero]
          exact Nat.mul_le_mul_left _ (Nat.div_mul_le_self _ _)
      next =>
          rw [Nat.one_mul]
          exact (Fixed.two_mul_quotient_mul_lt hpos).le

/-- Who withdraws leaves the pool, in both assets. -/
theorem Withdrawn.sharesOf_eq (hne : pool.pair.base ≠ pool.pair.quote)
    (hwho : who ≠ cfg.curveAccount id)
    (h : Withdrawn pool (cfg.curveAccount id) who (paidFor cfg id pool s lp pool.pair.base)
      (paidFor cfg id pool s lp pool.pair.quote) lp s s') (hx :
      x = pool.pair.base ∨ x = pool.pair.quote) :
    sharesOf cfg id pool s' x =
      ⟨reserve cfg id s x - paidFor cfg id pool s lp x, s.ledger.issuance pool.lpToken - lp⟩ := by
  have hbalance : reserve cfg id s' x + amounts pool.pair (paidFor cfg id pool s lp pool.pair.base)
      (paidFor cfg id pool s lp pool.pair.quote) x = reserve cfg id s x := by
    have hpaid := h.balance x (cfg.curveAccount id)
    rwa [if_pos rfl, if_neg fun h => hwho h.2.symm, if_neg hwho.symm] at hpaid
  have hpaid : amounts pool.pair (paidFor cfg id pool s lp pool.pair.base)
      (paidFor cfg id pool s lp pool.pair.quote) x =
      paidFor cfg id pool s lp x := by
    rcases hx with rfl | rfl
    · rw [amounts, if_pos rfl, if_neg hne, Nat.add_zero]
    · rw [amounts, if_neg hne.symm, if_pos rfl, Nat.zero_add]
  have hburnt := h.issuance pool.lpToken
  rw [if_pos rfl] at hburnt
  rw [hpaid] at hbalance
  exact congrArg₂ Pool.mk (Nat.eq_sub_of_add_eq hbalance) (Nat.eq_sub_of_add_eq hburnt)

/-- **A step that neither trades with a pool nor adds to it** leaves its shares
    alone, or some of them leave. -/
theorem Curve.Managed.leaves_step (haccounts : Set.InjOn cfg.curveAccount (Set.Iic cfg.maxPoolId))
    (hs : Curve.Managed cfg s) {op : Curve.PoolOp A X}
    (hsigner : ∀ id, op.origin ≠ .signed (cfg.curveAccount id))
    (hleft : ¬ op.Moves id) (hpool : s.curvePools id = some pool)
    (hstep : Curve.poolStep cfg s op = some s') (hx : x = pool.pair.base ∨ x = pool.pair.quote) :
    s'.curvePools id = some pool ∧ (sharesOf cfg id pool s' x = sharesOf cfg id pool s x ∨
      ∃ lp, (sharesOf cfg id pool s x).Leaves (op.wide cfg id pool x s).toList.length lp
        (paidFor cfg id pool s lp x) ∧
        sharesOf cfg id pool s' x =
          ⟨reserve cfg id s x - paidFor cfg id pool s lp x,
            s.ledger.issuance pool.lpToken - lp⟩) := by
  rcases Curve.poolStep_cases hstep with
    rfl | ⟨who, hwho, ⟨_, _, _, _, _, hcreate⟩ | ⟨id', hmoves, htouch⟩ |
    ⟨id', lp, minBase, minQuote, hop, hremove⟩⟩
  · exact ⟨hpool, .inl rfl⟩
  · obtain ⟨-, hledger, hkept⟩ := hs.create (fun id heq => hsigner id (heq ▸ hwho)) hcreate
    refine ⟨hkept hpool, .inl ?_⟩
    rw [sharesOf, sharesOf, reserve, reserve, hledger]
  · have hne : ∀ id, who ≠ cfg.curveAccount id := fun id heq => hsigner id (heq ▸ hwho)
    have hid : id ≠ id' := by
      intro heq
      subst heq
      exact hleft hmoves
    exact ⟨(congrFun htouch.ledgerOnly.curvePools id).trans hpool,
      .inl (htouch.sharesOf_eq haccounts hs hne hid hpool)⟩
  · obtain ⟨pool', hpool', hissued, hw⟩ := Curve.removeLiquidity_ok hremove
    have hne : ∀ id, who ≠ cfg.curveAccount id := fun id heq => hsigner id (heq ▸ hwho)
    refine ⟨(congrFun hw.ledgerOnly.curvePools id).trans hpool, ?_⟩
    by_cases hid : id = id'
    · subst hid
      obtain rfl := Option.some.inj (hpool.symm.trans hpool')
      refine .inr ⟨lp, ?_, hw.sharesOf_eq (hs.pair_ne hpool) (hne id) hx⟩
      have hleaves : (sharesOf cfg id pool s x).Leaves
          (if Fixed.RoundedDown lp (reserve cfg id s x) (s.ledger.issuance pool.lpToken) then 0
            else 1) lp
          (paidFor cfg id pool s lp x) := paidFor_leaves hissued
      have hslack : (op.wide cfg id pool x s).toList.length =
          if Fixed.RoundedDown lp (reserve cfg id s x) (s.ledger.issuance pool.lpToken) then
            0 else 1 := by
        have hgoes := Call.success_eq_some.mpr ⟨(), hremove⟩
        simp only [hop, Curve.PoolOp.wide, true_and, hgoes, Option.map_some]
        split_ifs <;> rfl
      rwa [hslack]
    · exact .inl ((hw.touches hpool').sharesOf_eq haccounts hs hne hid hpool)

/-- **Shares keep their worth.** In every run of the pallet, as long as nobody trades with a pool or
    adds to it, whoever withdraws from it and whatever happens to other pools: the shares that are
    still out lose at most half a unit of either asset, all together, with each withdrawal that need
    not be rounded down, and nothing with any other; nothing leaves the pool without shares, and
    with the last one everything has. -/
theorem shares_keep_worth (cfg : Config A X F)
    (haccounts : Set.InjOn cfg.curveAccount (Set.Iic cfg.maxPoolId))
    (ledger : Ledger A X) (factory : F) {before ops : List (Curve.PoolOp A X)}
    (hsigners : ∀ op ∈ before ++ ops, ∀ id, op.origin ≠ .signed (cfg.curveAccount id))
    (hbefore : run (Curve.poolStep cfg) (State.genesis ledger factory) before = some s)
    (hpool : s.curvePools id = some pool) (hleft : ∀ op ∈ ops, ¬ op.Moves id)
    (hrun : run (Curve.poolStep cfg) s ops = some s')
    (hx : x = pool.pair.base ∨ x = pool.pair.quote) :
    2 * (reserve cfg id s x * s'.ledger.issuance pool.lpToken) ≤
        (2 * reserve cfg id s' x +
          (history (Curve.poolStep cfg) (Curve.PoolOp.wide cfg id pool x) s ops).length) *
            s.ledger.issuance pool.lpToken ∧
      (s'.ledger.issuance pool.lpToken = s.ledger.issuance pool.lpToken →
        reserve cfg id s' x = reserve cfg id s x) ∧
      (0 < s.ledger.issuance pool.lpToken → s'.ledger.issuance pool.lpToken = 0 →
        reserve cfg id s' x = 0) := by
  have hmanaged : Curve.Managed cfg s :=
    run_invariant (fun h hop hstep => h.step hop.1 hstep) (Curve.Managed.genesis ledger factory)
      ((along_true _ _).and_forall fun op hop => hsigners op (List.mem_append_left _ hop)) hbefore
  -- From the state `s` on, the shares only leave.
  have hstep : ∀ {t op t'} {found : List Nat}, (Curve.Managed cfg t ∧ t.curvePools id = some pool ∧
        Pool.AllLeave found.length (sharesOf cfg id pool s x) (sharesOf cfg id pool t x)) →
      ((∀ id, op.origin ≠ .signed (cfg.curveAccount id)) ∧ ¬ op.Moves id) ∧ True →
        Curve.poolStep cfg t op = some t' →
      Curve.Managed cfg t' ∧ t'.curvePools id = some pool ∧
        Pool.AllLeave (found ++ (Curve.PoolOp.wide cfg id pool x t op).toList).length
          (sharesOf cfg id pool s x)
          (sharesOf cfg id pool t' x) := by
    rintro t op t' found ⟨ht, hkept, hleaves⟩ ⟨⟨hsigner, hop⟩, -⟩ hstep
    obtain ⟨hpool', hsame | ⟨lp, hlast, hshares⟩⟩ :=
      ht.leaves_step haccounts hsigner hop hkept hstep hx
    · refine ⟨ht.step hsigner hstep, hpool', ?_⟩
      rw [hsame, List.length_append]
      exact hleaves.idle
    · refine ⟨ht.step hsigner hstep, hpool', ?_⟩
      rw [hshares, List.length_append]
      exact hleaves.next hlast
  have halong : Along (Curve.poolStep cfg)
      (fun _ op => ((∀ id, op.origin ≠ .signed (cfg.curveAccount id)) ∧ ¬ op.Moves id) ∧
        True) s ops :=
    (along_true _ _).and_forall fun op hop =>
      ⟨hsigners op (List.mem_append_right _ hop), hleft op hop⟩
  have hnobody : Curve.Managed cfg s ∧ s.curvePools id = some pool ∧
      Pool.AllLeave ([] : List Nat).length (sharesOf cfg id pool s x) (sharesOf cfg id pool s x) :=
    ⟨hmanaged, hpool, .nobody⟩
  obtain ⟨-, -, hleaves⟩ := history_collect
    (J := fun t found => Curve.Managed cfg t ∧ t.curvePools id = some pool ∧
      Pool.AllLeave found.length (sharesOf cfg id pool s x) (sharesOf cfg id pool t x))
    hstep hnobody halong hrun
  refine ⟨hleaves.mul_le, fun hsame => ?_, fun hsome hnone => ?_⟩
  · exact congrArg Pool.assets (hleaves.eq hsame)
  · exact hleaves.emptied (fun hzero => absurd hzero hsome.ne') hnone

/-- Account `9` creates a pool, `8` and `9` add to it in different proportions, and `9`
    exchanges. -/
def stableOps : List (Curve.PoolOp Nat Nat) :=
  [.trade (.create (.signed 9) ⟨1, 2⟩ 100 10000 100000), .addLiquidity 8 0 1000 3000 0 true,
    .addLiquidity 9 0 500 100 0 true, .trade (.swap (.signed 9) 0 ⟨1, 2⟩ 300 0 true)]

/-- The last withdrawal is of more than is left and fails. -/
def leavingOps : List (Curve.PoolOp Nat Nat) :=
  [.removeLiquidity 8 0 1000 0 0, .removeLiquidity 9 0 200 0 0, .removeLiquidity 8 0 2000 0 0,
    .removeLiquidity 8 0 4000 0 0]

/-- The states before and after the withdrawals. -/
def leavingTrip : Option (State Nat Nat Nat × State Nat Nat Nat) :=
  (run (Curve.poolStep sample.withNewton) (State.genesis liquidityLedger 7) stableOps).bind fun s =>
    (run (Curve.poolStep sample.withNewton) s leavingOps).map fun s' => (s, s')

theorem shares_keep_worth_sample : ∃ s s', leavingTrip = some (s, s') ∧ s.ledger.issuance 7 = 4596 ∧
    s'.ledger.issuance 7 = 1396 ∧ reserve sample.withNewton 0 s 1 * s'.ledger.issuance 7 ≤
      reserve sample.withNewton 0 s' 1 * s.ledger.issuance 7 := by
  obtain ⟨⟨s, s'⟩, htrip, hview⟩ := Option.map_eq_some_iff.mp
    (show leavingTrip.map (fun trip => decide (trip.1.ledger.issuance 7 = 4596 ∧
        trip.2.ledger.issuance 7 = 1396 ∧
        trip.1.curvePools 0 = some ⟨9, ⟨1, 2⟩, 7, 100, 10000, 100000⟩ ∧
        (history (Curve.poolStep sample.withNewton)
          (Curve.PoolOp.wide sample.withNewton 0 ⟨9, ⟨1, 2⟩, 7, 100, 10000, 100000⟩ 1) trip.1
            leavingOps).length = 0)) =
      some true by decide +kernel)
  obtain ⟨hissued, hleft, hpool, hnarrow⟩ := of_decide_eq_true hview
  obtain ⟨_, hbefore, h⟩ := Option.bind_eq_some_iff.mp htrip
  obtain ⟨_, hrun, h⟩ := Option.map_eq_some_iff.mp h
  cases h
  have haccounts : Set.InjOn sample.withNewton.curveAccount (Set.Iic sample.withNewton.maxPoolId) :=
    (add_right_injective 1000).injOn
  have hsigners : ∀ op ∈ stableOps ++ leavingOps, ∀ id,
      op.origin ≠ .signed (sample.withNewton.curveAccount id) := by
    have hsmall : ∀ op ∈ stableOps ++ leavingOps, op.origin = .signed 8 ∨
      op.origin = .signed 9 := by decide
    intro op hop id heq
    have haccount : sample.withNewton.curveAccount id = 1000 + id := rfl
    rcases hsmall op hop with h | h
    · have h8 := RawOrigin.signed.inj (h.symm.trans heq)
      omega
    · have h9 := RawOrigin.signed.inj (h.symm.trans heq)
      omega
  have hmoves : ∀ op ∈ leavingOps, ¬ op.Moves 0 := by
    simp [leavingOps, Curve.PoolOp.Moves]
  obtain ⟨hworth, -, -⟩ :=
    shares_keep_worth sample.withNewton haccounts liquidityLedger 7 hsigners hbefore hpool hmoves
    hrun (.inl rfl)
  rw [hnarrow, Nat.add_zero, Nat.mul_assoc] at hworth
  exact ⟨s, s', htrip, hissued, hleft, Nat.le_of_mul_le_mul_left hworth (by decide)⟩

/-! ## Deposits -/

section Deposits

variable {issued newBase newQuote d0 d1 mint baseFee quoteFee : Nat}

/-- What an amount is off by from the share `d1 / d0` of the old reserve. -/
def imbalance (d0 d1 old new : Nat) : Nat :=
  (new - Fixed.quotient d1 old (max d0 1)) + (Fixed.quotient d1 old (max d0 1) - new)

/-- The fee on it. -/
def depositFee (pool : StableSwapPoolInfo A X) (d0 d1 old new : Nat) : Nat :=
  Fixed.mulFloor Fixed.permill (Curve.imbalanceFee pool.fee) (imbalance d0 d1 old new)

theorem absDifference_ok {n m d : Nat} (h : Curve.absDifference n m = .ok d) :
    d = (m - n) + (n - m) := by
  unfold Curve.absDifference at h
  split at h <;> rw [Fixed.checkedSub_ok] at h <;> omega

omit [DecidableEq A] [DecidableEq X] in
/-- Without shares the deposit is worth the invariant, and free. -/
theorem Curve.depositShares_first
    (h : Curve.depositShares cfg pool 0 base quote newBase newQuote d0 d1 s =
      (.ok (mint, baseFee, quoteFee), s')) :
    mint = d1 ∧ baseFee = 0 ∧ quoteFee = 0 := by
  rw [Curve.depositShares, if_neg (Nat.lt_irrefl 0), Call.pure_ok] at h
  simpa only [Prod.mk.injEq] using h.1

omit [DecidableEq A] [DecidableEq X] in
/-- With shares it is worth what the invariant gains on what is left of it. -/
theorem Curve.depositShares_further (hissued : 0 < issued)
    (h : Curve.depositShares cfg pool issued base quote newBase newQuote d0 d1 s =
      (.ok (mint, baseFee, quoteFee), s')) :
    ∃ d2, cfg.pricing.computeD (newBase - depositFee pool d0 d1 base newBase)
        (newQuote - depositFee pool d0 d1 quote newQuote) pool.amplificationCoefficient = .ok d2 ∧
      depositFee pool d0 d1 base newBase ≤ newBase ∧ depositFee pool d0 d1 quote newQuote ≤ newQuote ∧
      baseFee = Fixed.mulFloor Fixed.permill pool.protocolFee (depositFee pool d0 d1 base newBase) ∧
      quoteFee = Fixed.mulFloor Fixed.permill pool.protocolFee
        (depositFee pool d0 d1 quote newQuote) ∧
      d0 ≤ d2 ∧ mint = Fixed.quotient issued (d2 - d0) (max d0 1) := by
  rw [Curve.depositShares, if_pos hissued] at h
  simp only [Call.bind_ok, arithmetic_ok, Fixed.multiplyByRational_eq, Fixed.checked_ok,
    Fixed.checkedSub_ok, Call.ofExcept_ok, Call.pure_ok, Prod.mk.injEq] at h
  obtain ⟨_, t, ⟨⟨-, rfl⟩, rfl⟩, _, t, ⟨⟨-, rfl⟩, rfl⟩, _, t, ⟨hbase, rfl⟩, _, t, ⟨hquote, rfl⟩, _, t,
    ⟨⟨hbaseFee, rfl⟩, rfl⟩, _, t, ⟨⟨hquoteFee, rfl⟩, rfl⟩, d2, t, ⟨hd2, rfl⟩, _, t,
      ⟨⟨hle, rfl⟩, rfl⟩, _, t,
    ⟨⟨-, rfl⟩, rfl⟩, ⟨rfl, rfl, rfl⟩, rfl⟩ := h
  obtain rfl := absDifference_ok hbase
  obtain rfl := absDifference_ok hquote
  exact ⟨d2, hd2, hbaseFee, hquoteFee, rfl, rfl, hle, rfl⟩

theorem mulFloor_le {one parts n : Nat} (h : parts ≤ one) : Fixed.mulFloor one parts n ≤ n := by
  rw [Fixed.mulFloor]
  exact Nat.div_le_of_le_mul (Nat.mul_comm one n ▸ Nat.mul_le_mul_left n h)

/-- What the owner does not get of the fees stays in the pool. -/
theorem Deposited.reserve_eq (hne : pool.pair.base ≠ pool.pair.quote)
    (hwho : who ≠ cfg.curveAccount id) (howner : pool.owner ≠ cfg.curveAccount id)
    (h : Deposited pool (cfg.curveAccount id) who base quote baseFee quoteFee lp s s') :
    reserve cfg id s' pool.pair.base + baseFee = reserve cfg id s pool.pair.base + base ∧
      reserve cfg id s' pool.pair.quote + quoteFee = reserve cfg id s pool.pair.quote + quote := by
  constructor
  · have hbalance := h.balance pool.pair.base (cfg.curveAccount id)
    rwa [if_neg hwho.symm, if_pos rfl, if_pos rfl, if_neg howner.symm,
      if_neg fun h => hwho h.2.symm, amounts, amounts,
      if_pos rfl, if_neg hne, if_pos rfl, if_neg hne] at hbalance
  · have hbalance := h.balance pool.pair.quote (cfg.curveAccount id)
    rw [if_neg hwho.symm, if_pos rfl, if_pos rfl, if_neg howner.symm, if_neg fun h => hwho h.2.symm,
      amounts, amounts, if_pos rfl, if_neg hne.symm, if_pos rfl, if_neg hne.symm] at hbalance
    unfold reserve
    simpa only [Nat.zero_add, Nat.add_zero] using hbalance

/-- **A deposit does not dilute the shares there are**, but for less than half a share where what is
    minted is not rounded down, measured by the invariant that the pallet computes: of the reserves
    before the deposit and of those it counts after it, which the pool has at least. What it does
    not count are the fees on both sides, of which the pool keeps all but the owner's part. -/
theorem deposit_not_dilutes (cfg : Config A X F) (hpool : s.curvePools id = some pool)
    (hne : pool.pair.base ≠ pool.pair.quote) (hfees : pool.protocolFee ≤ Fixed.permill)
    (hwho : who ≠ cfg.curveAccount id) (howner : pool.owner ≠ cfg.curveAccount id)
    (hissued : 0 < s.ledger.issuance pool.lpToken)
    (h : Curve.addLiquidity cfg who id base quote minMint k s = (.ok u, s')) :
    ∃ d0 d2 countedBase countedQuote,
      cfg.pricing.computeD (reserve cfg id s pool.pair.base) (reserve cfg id s pool.pair.quote)
        pool.amplificationCoefficient = .ok d0 ∧
      cfg.pricing.computeD countedBase countedQuote pool.amplificationCoefficient = .ok d2 ∧
      countedBase ≤ reserve cfg id s' pool.pair.base ∧
      countedQuote ≤ reserve cfg id s' pool.pair.quote ∧
      2 * (s'.ledger.issuance pool.lpToken * d0) ≤ 2 * (s.ledger.issuance pool.lpToken * d2) + d0 ∧
      (Fixed.RoundedDown (s.ledger.issuance pool.lpToken) (d2 - d0) d0 →
        s'.ledger.issuance pool.lpToken * d0 ≤ s.ledger.issuance pool.lpToken * d2) := by
  obtain ⟨pool', d0, d1, mint, baseFee, quoteFee, hpool', -, -, hd0, -, -, -, hshares, hd⟩ :=
    Curve.addLiquidity_ok h
  obtain rfl := Option.some.inj (hpool.symm.trans hpool')
  obtain ⟨d2, hd2, hbaseFee, hquoteFee, rfl, rfl, hle, rfl⟩ :=
    Curve.depositShares_further hissued hshares
  obtain ⟨hbase, hquote⟩ := hd.reserve_eq hne hwho howner
  have hminted : s'.ledger.issuance pool.lpToken = s.ledger.issuance pool.lpToken +
      Fixed.quotient (s.ledger.issuance pool.lpToken) (d2 - d0) (max d0 1) := by
    rw [hd.issuance, if_pos rfl]
  -- The shares minted are to those issued as the growth of the invariant is to the invariant.
  have hsplit : s.ledger.issuance pool.lpToken * (d2 - d0) + s.ledger.issuance pool.lpToken * d0 =
      s.ledger.issuance pool.lpToken * d2 := by
    rw [← Nat.mul_add, Nat.sub_add_cancel hle]
  have hone : 0 < max d0 1 := lt_max_of_lt_right Nat.zero_lt_one
  refine ⟨d0, d2, _, _, hd0, hd2, ?_, ?_, ?_, fun hdown => ?_⟩
  · have hkept := mulFloor_le (n := depositFee pool d0 d1 (reserve cfg id s pool.pair.base)
      (reserve cfg id s pool.pair.base + base)) hfees
    omega
  · have hkept := mulFloor_le (n := depositFee pool d0 d1 (reserve cfg id s pool.pair.quote)
      (reserve cfg id s pool.pair.quote + quote)) hfees
    omega
  · rw [hminted, Nat.add_mul]
    rcases Nat.eq_zero_or_pos d0 with rfl | hpos
    · simp
    · have hround :=
        Fixed.two_mul_quotient_mul_lt (a := s.ledger.issuance pool.lpToken) (b := d2 - d0) hpos
      rw [Nat.max_eq_left hpos]
      omega
  · have hlimb : Fixed.RoundedDown (s.ledger.issuance pool.lpToken) (d2 - d0) (max d0 1) :=
      hdown.imp_right fun hlt => max_lt hlt (by decide)
    have hmint : s.ledger.issuance pool.lpToken * (d2 - d0) / max d0 1 * d0 ≤
        s.ledger.issuance pool.lpToken * (d2 - d0) :=
      (Nat.mul_le_mul_left _ (Nat.le_max_left d0 1)).trans (Nat.div_mul_le_self _ _)
    rw [hminted, hlimb.eq_div, Nat.add_mul]
    omega

/-- The states before and after the deposit of `9` that is out of proportion. -/
def depositTrip : Option (State Nat Nat Nat × State Nat Nat Nat) :=
  (run (Curve.poolStep sample.withNewton) (State.genesis liquidityLedger 7) (stableOps.take 2)).bind
      fun s =>
    (Call.success (Curve.addLiquidity sample.withNewton 9 0 500 100 0 true) s).map fun s' => (s, s')

theorem deposit_not_dilutes_sample : ∃ s s' d0 d2 base quote, depositTrip = some (s, s') ∧
    (s.ledger.issuance 7, s'.ledger.issuance 7) = (3996, 4596) ∧ computeD base quote 100 = .ok d2 ∧
    computeD 1000 3000 100 = .ok d0 ∧ s'.ledger.issuance 7 * d0 ≤ s.ledger.issuance 7 * d2 := by
  obtain ⟨⟨s, s'⟩, htrip, hview⟩ := Option.map_eq_some_iff.mp
    (show depositTrip.map (fun trip =>
        decide ((trip.1.ledger.issuance 7, trip.2.ledger.issuance 7) = (3996, 4596) ∧
        trip.1.curvePools 0 = some ⟨9, ⟨1, 2⟩, 7, 100, 10000, 100000⟩ ∧ 0 < trip.1.ledger.issuance 7 ∧
        reserve sample.withNewton 0 trip.1 1 = 1000 ∧
        reserve sample.withNewton 0 trip.1 2 = 3000)) = some true by
      decide +kernel)
  obtain ⟨hissued, hpool, hpos, hbase, hquote⟩ := of_decide_eq_true hview
  obtain ⟨_, -, h⟩ := Option.bind_eq_some_iff.mp htrip
  obtain ⟨_, hadd, h⟩ := Option.map_eq_some_iff.mp h
  cases h
  obtain ⟨_, hadd⟩ := Call.success_eq_some.mp hadd
  obtain ⟨d0, d2, base, quote, hd0, hd2, -, -, -, hle⟩ :=
    deposit_not_dilutes sample.withNewton hpool (by decide) (by decide)
    (by decide) (by decide) hpos hadd
  rw [hbase, hquote] at hd0
  obtain rfl : d0 = 3996 :=
    Except.ok.inj (hd0.symm.trans (show computeD 1000 3000 100 = .ok 3996 by decide +kernel))
  exact ⟨s, s', 3996, d2, base, quote, htrip, hissued, hd2, hd0, hle (.inr (by decide))⟩

end Deposits

/-! ## Pools without shares -/

/-- **Whoever deposits first owns all of the pool**: removing all shares gives back the deposit with
    everything that was in a pool without shares, and leaves nothing. -/
theorem first_takes_all (cfg : Config A X F) (hpool : s.curvePools id = some pool)
    (hne : pool.pair.base ≠ pool.pair.quote) (hwho : who ≠ cfg.curveAccount id)
    (hnone : s.ledger.issuance pool.lpToken = 0)
    (hadd : Curve.addLiquidity cfg who id base quote minMint k s = (.ok u, t))
    (hremove : Curve.removeLiquidity cfg who id (t.ledger.issuance pool.lpToken) minBase minQuote
      t = (.ok u, s')) :
    0 < t.ledger.issuance pool.lpToken ∧ s'.ledger.issuance pool.lpToken = 0 ∧
      ∀ x, x = pool.pair.base ∨ x = pool.pair.quote → reserve cfg id s' x = 0 ∧
        s'.ledger.balance x who = s.ledger.balance x who + reserve cfg id s x := by
  obtain ⟨pool', d0, d1, mint, baseFee, quoteFee, hpool', -, -, -, -, hgains, -, hshares, hd⟩ :=
    Curve.addLiquidity_ok hadd
  obtain rfl := Option.some.inj (hpool.symm.trans hpool')
  rw [hnone] at hshares
  obtain ⟨rfl, rfl, rfl⟩ := Curve.depositShares_first hshares
  obtain ⟨pool', hpool'', hissued, hw⟩ := Curve.removeLiquidity_ok hremove
  rw [hd.ledgerOnly.curvePools] at hpool''
  obtain rfl := Option.some.inj (hpool.symm.trans hpool'')
  have hminted : t.ledger.issuance pool.lpToken = mint := by
    rw [hd.issuance, if_pos rfl, hnone, Nat.zero_add]
  have hpos : 0 < t.ledger.issuance pool.lpToken := by omega
  have hburnt := hw.issuance pool.lpToken
  rw [if_pos rfl] at hburnt
  refine ⟨hpos, by omega, fun x hx => ?_⟩
  have hall : ∀ y, paidFor cfg id pool t (t.ledger.issuance pool.lpToken) y = reserve cfg id t y :=
    fun y => by
    rw [paidFor, Nat.max_eq_left hpos, Fixed.quotient_self hpos]
  have hpaid :
      amounts pool.pair (paidFor cfg id pool t (t.ledger.issuance pool.lpToken) pool.pair.base)
      (paidFor cfg id pool t (t.ledger.issuance pool.lpToken) pool.pair.quote) x =
        reserve cfg id t x := by
    rw [hall, hall]
    rcases hx with rfl | rfl
    · rw [amounts, if_pos rfl, if_neg hne, Nat.add_zero]
    · rw [amounts, if_neg hne.symm, if_pos rfl, Nat.zero_add]
  have hnofee : amounts pool.pair 0 0 x = 0 := by
    simp [amounts]
  -- What the pool and the account have after the deposit, and after the withdrawal.
  have hin := hd.balance x (cfg.curveAccount id)
  have hin' := hd.balance x who
  have hout := hw.balance x (cfg.curveAccount id)
  have hout' := hw.balance x who
  rw [hnofee, ite_self, ite_self, if_neg hwho.symm, if_pos rfl, if_neg fun h => hwho h.2.symm] at hin
  rw [hnofee, ite_self, ite_self, if_pos rfl, if_neg hwho, ← hminted] at hin'
  rw [hpaid, if_pos rfl, if_neg (fun h => hwho h.2.symm), if_neg hwho.symm] at hout
  rw [hpaid, if_pos rfl, if_neg hwho] at hout'
  unfold reserve at *
  omega

/-- The pool takes three hundred of `9` while it is empty, which `8` has in the end. -/
def emptyTrip : Option (State Nat Nat Nat × State Nat Nat Nat × State Nat Nat Nat) :=
  (run (Curve.poolStep sample.withNewton) (State.genesis liquidityLedger 7)
    [.trade (.create (.signed 9) ⟨1, 2⟩ 100 10000 100000),
        .trade (.swap (.signed 9) 0 ⟨1, 2⟩ 300 0 true)]).bind fun s =>
      (Call.success (Curve.addLiquidity sample.withNewton 8 0 1000 1000 0 true) s).bind fun t =>
        (Call.success (Curve.removeLiquidity sample.withNewton 8 0 (t.ledger.issuance 7) 0 0) t).map
          fun s' => (s, t, s')

theorem first_takes_all_sample :
    ∃ s t s', emptyTrip = some (s, t, s') ∧ s.ledger.balance 2 8 = 100000 ∧
    s'.ledger.balance 2 8 = 100300 := by
  obtain ⟨⟨s, t, s'⟩, htrip, hview⟩ := Option.map_eq_some_iff.mp
    (show emptyTrip.map (fun trip =>
        decide (trip.1.curvePools 0 = some ⟨9, ⟨1, 2⟩, 7, 100, 10000, 100000⟩ ∧
        trip.1.ledger.issuance 7 = 0 ∧ trip.1.ledger.balance 2 8 = 100000 ∧
        reserve sample.withNewton 0 trip.1 2 = 300)) = some true by decide +kernel)
  obtain ⟨hpool, hnone, hbefore, htook⟩ := of_decide_eq_true hview
  obtain ⟨_, -, h⟩ := Option.bind_eq_some_iff.mp htrip
  obtain ⟨_, hadd, h⟩ := Option.bind_eq_some_iff.mp h
  obtain ⟨_, hremove, h⟩ := Option.map_eq_some_iff.mp h
  cases h
  obtain ⟨_, hadd⟩ := Call.success_eq_some.mp hadd
  obtain ⟨_, hremove⟩ := Call.success_eq_some.mp hremove
  obtain ⟨-, -, htakes⟩ :=
    first_takes_all sample.withNewton hpool (by decide) (by decide) hnone hadd hremove
  obtain ⟨-, hhas⟩ := htakes 2 (.inr rfl)
  rw [hbefore, htook] at hhas
  exact ⟨s, t, s', htrip, hbefore, hhas⟩

end Dex
end Composable
