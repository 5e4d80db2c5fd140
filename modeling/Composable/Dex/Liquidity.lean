import Composable.Dex.ConstantProduct
import Composable.Support.Pool

/-!
# `Dex.Liquidity` — liquidity of a constant-product pool

Embeds `add_liquidity` and `remove_liquidity` of `frame/uniswap-v2/src/lib.rs`, which are no
extrinsics but for other pallets to call, with the shares of
`frame/composable-maths/src/dex/constant_product.rs`.

The shares of a deposit, what is taken of the quote asset and what shares give back are each
rounded, down while the products fit 128 bits and to the nearest beyond. So adding and removing at
once can gain, but less than half of what a share was worth, and half a unit for the amount that
comes back (`comesBack`). Where the shares are rounded down it gains nothing of the base asset; nor
of the quote asset, of which less than a unit is not taken, if what comes back is rounded down as
well (`shares_lt`). The first deposit sets its own shares and gets back the pool, so the pool has to
be empty before it. In every run it is: a pool has something only while shares are out (`Backed`).
-/

namespace Composable
namespace Dex

open DutchAuction (CurrencyPair)

variable {A X F : Type} [DecidableEq A] [DecidableEq X]

/-! ## Shares -/

/-- `compute_first_deposit_lp`. -/
def computeFirstDepositLp (baseAmount quoteAmount : Nat) : Except ArithmeticError Nat :=
  Fixed.checked (Nat.sqrt baseAmount * Nat.sqrt quoteAmount)

/-- `compute_deposit_lp`: the quote amount that is taken, and the shares for it. -/
def computeDepositLp (lpTotalIssuance baseAmount quoteAmount poolBaseAum poolQuoteAum : Nat) :
    Except ArithmeticError (Nat × Nat) :=
  if lpTotalIssuance = 0 then do
    let lpToMint ← computeFirstDepositLp baseAmount quoteAmount
    pure (quoteAmount, lpToMint)
  else do
    let quoteAmount ← Fixed.multiplyByRational poolQuoteAum baseAmount poolBaseAum
    let lpToMint ← Fixed.multiplyByRational lpTotalIssuance baseAmount poolBaseAum
    pure (quoteAmount, lpToMint)

/-! ## The pallet -/

section Pallet

variable (cfg : Config A X F)

/-- `T::Assets::mint_into`. -/
def mintInto (x : X) (who : A) (amount : Nat) : DexCall A X F Unit :=
  Call.zoom State.ledger (fun l s => s.withLedger l) .token (cfg.assets.mintInto x who amount)

/-- `T::Assets::burn_from`. -/
def burnFrom (x : X) (who : A) (amount : Nat) : DexCall A X F Unit :=
  Call.zoom State.ledger (fun l s => s.withLedger l) .token (cfg.assets.burnFrom x who amount)

namespace Uniswap

def addLiquidity (who : A) (poolId baseAmount quoteAmount minMintAmount : Nat) (keepAlive : Bool) :
    DexCall A X F Unit :=
  Call.transactional do
    Call.ensure (0 < baseAmount) (.module (.uniswap .invalidAmount))
    let pool ← getPool poolId
    let s ← Call.get
    let account := cfg.uniswapAccount poolId
    let poolBaseAum := s.ledger.balance pool.pair.base account
    let poolQuoteAum := s.ledger.balance pool.pair.quote account
    let lpTotalIssuance := s.ledger.issuance pool.lpToken
    let (quoteAmount, lpToMint) ←
      arithmetic (computeDepositLp lpTotalIssuance baseAmount quoteAmount poolBaseAum poolQuoteAum)
    Call.ensure (0 < quoteAmount) (.module (.uniswap .invalidAmount))
    Call.ensure (minMintAmount ≤ lpToMint) (.module (.uniswap .cannotRespectMinimumRequested))
    transfer cfg pool.pair.base who account baseAmount keepAlive
    transfer cfg pool.pair.quote who account quoteAmount keepAlive
    mintInto cfg pool.lpToken who lpToMint

def removeLiquidity (who : A) (poolId lpAmount minBaseAmount minQuoteAmount : Nat) :
    DexCall A X F Unit :=
  Call.transactional do
    let pool ← getPool poolId
    let s ← Call.get
    let account := cfg.uniswapAccount poolId
    let poolBaseAum := s.ledger.balance pool.pair.base account
    let poolQuoteAum := s.ledger.balance pool.pair.quote account
    let lpIssued := s.ledger.issuance pool.lpToken
    let baseAmount ← arithmetic (Fixed.multiplyByRational lpAmount poolBaseAum lpIssued)
    let quoteAmount ← arithmetic (Fixed.multiplyByRational lpAmount poolQuoteAum lpIssued)
    Call.ensure (minBaseAmount ≤ baseAmount ∧ minQuoteAmount ≤ quoteAmount)
      (.module (.uniswap .cannotRespectMinimumRequested))
    transfer cfg pool.pair.base account who baseAmount false
    transfer cfg pool.pair.quote account who quoteAmount false
    burnFrom cfg pool.lpToken who lpAmount
    -- the issuance of the event
    let _ ← arithmetic (Fixed.checkedSub lpIssued lpAmount)
    pure ()

/-- What is done with the pools: their extrinsics, and the calls of other pallets
    on behalf of an account. -/
inductive PoolOp (A X : Type) where
  | trade (op : Op A X)
  | addLiquidity (who : A) (poolId baseAmount quoteAmount minMintAmount : Nat) (keepAlive : Bool)
  | removeLiquidity (who : A) (poolId lpAmount minBaseAmount minQuoteAmount : Nat)

def PoolOp.origin : PoolOp A X → RawOrigin A
  | .trade op => op.origin
  | .addLiquidity who _ _ _ _ _ | .removeLiquidity who _ _ _ _ => .signed who

def poolStep (s : State A X F) : PoolOp A X → Option (State A X F)
  | .trade op => step cfg s op
  | .addLiquidity who poolId baseAmount quoteAmount minMintAmount keepAlive =>
      some (dispatch (addLiquidity cfg who poolId baseAmount quoteAmount minMintAmount keepAlive) s)
  | .removeLiquidity who poolId lpAmount minBaseAmount minQuoteAmount =>
      some (dispatch (removeLiquidity cfg who poolId lpAmount minBaseAmount minQuoteAmount) s)

end Uniswap

end Pallet

/-! ## Rounding -/

section Rounding

variable {issued b q base quote taken lp : Nat}

theorem computeDepositLp_first (h : computeDepositLp 0 b q base quote = .ok (taken, lp)) :
    taken = q ∧ lp = Nat.sqrt b * Nat.sqrt q := by
  rw [computeDepositLp, if_pos rfl, exceptBind_ok] at h
  obtain ⟨first, hfirst, hresult⟩ := h
  obtain ⟨rfl, rfl⟩ := Prod.mk.inj (Except.ok.inj hresult)
  exact ⟨rfl, (Fixed.checked_ok.mp hfirst).2⟩

theorem computeDepositLp_further (hissued : 0 < issued)
    (h : computeDepositLp issued b q base quote = .ok (taken, lp)) :
    taken = Fixed.quotient quote b (max base 1) ∧ lp = Fixed.quotient issued b (max base 1) := by
  simp only [computeDepositLp, if_neg hissued.ne', exceptBind_ok, Fixed.multiplyByRational_eq,
    Fixed.checked_ok] at h
  obtain ⟨taken', ⟨-, htaken⟩, lp', ⟨-, hlp⟩, hresult⟩ := h
  obtain ⟨rfl, rfl⟩ := Prod.mk.inj (Except.ok.inj hresult)
  exact ⟨htaken, hlp⟩

/-- After a deposit there are shares. -/
theorem issued_after (hb : 0 < b) (htaken : 0 < taken)
    (h : computeDepositLp issued b q base quote = .ok (taken, lp)) : 0 < issued + lp := by
  rcases Nat.eq_zero_or_pos issued with rfl | hissued
  · obtain ⟨rfl, rfl⟩ := computeDepositLp_first h
    rw [Nat.zero_add]
    exact Nat.mul_pos (Nat.sqrt_pos.mpr hb) (Nat.sqrt_pos.mpr htaken)
  · exact Nat.add_pos_left hissued lp

/-- What is taken of the quote asset is, but for less than a unit, the part of the
    deposit in the base asset. -/
theorem quote_lt_taken (hissued : 0 < issued)
    (h : computeDepositLp issued b q base quote = .ok (taken, lp)) :
    quote * b < (taken + 1) * max base 1 := by
  rw [(computeDepositLp_further hissued h).1]
  exact Fixed.lt_quotient_add_one_mul (lt_max_of_lt_right Nat.zero_lt_one)

/-- The shares of a deposit exceed its part of the base balance by at most a half, and so does what
    they are worth of the quote balance, but for the unit that may not have been taken. The first
    deposit adds to an empty pool. -/
theorem shares_slack (hempty : issued = 0 → base = 0 ∧ quote = 0)
    (h : computeDepositLp issued b q base quote = .ok (taken, lp)) :
    2 * (lp * base) ≤ 2 * (b * issued) + base ∧
      2 * (lp * quote) ≤ 2 * (taken * issued) + (2 * issued + quote) := by
  rcases Nat.eq_zero_or_pos issued with rfl | hissued
  · obtain ⟨rfl, rfl⟩ := hempty rfl
    simp
  · have hpos : 0 < max base 1 := lt_max_of_lt_right Nat.zero_lt_one
    have hquote := quote_lt_taken hissued h
    have hlp : 2 * (lp * max base 1) < 2 * (issued * b) + max base 1 := by
      rw [(computeDepositLp_further hissued h).2]
      exact Fixed.two_mul_quotient_mul_lt hpos
    constructor
    · rcases Nat.eq_zero_or_pos base with rfl | hbase
      · simp
      · rw [Nat.max_eq_left hbase, Nat.mul_comm issued] at hlp
        exact hlp.le
    · -- Both are shares of the deposit: compare them after multiplying with the balance.
      refine Nat.le_of_mul_le_mul_right (c := max base 1) ?_ hpos
      calc 2 * (lp * quote) * max base 1
        _ = 2 * (lp * max base 1) * quote := by ring
        _ ≤ (2 * (issued * b) + max base 1) * quote := Nat.mul_le_mul_right _ hlp.le
        _ = 2 * issued * (quote * b) + quote * max base 1 := by ring
        _ ≤ 2 * issued * ((taken + 1) * max base 1) + quote * max base 1 :=
            Nat.add_le_add_right (Nat.mul_le_mul_left _ hquote.le) _
        _ = (2 * (taken * issued) + (2 * issued + quote)) * max base 1 := by ring

/-- Shares that are rounded down are worth at most what the deposit adds to the pool,
    but for less than a unit. -/
theorem shares_lt (hempty : issued = 0 → base = 0 ∧ quote = 0)
    (hdown : Fixed.RoundedDown issued b base) (hb : 0 < b)
    (htaken : 0 < taken) (h : computeDepositLp issued b q base quote = .ok (taken, lp)) :
    lp * base ≤ b * issued ∧ lp * quote < (taken + 1) * issued + lp := by
  have hafter := issued_after hb htaken h
  rcases Nat.eq_zero_or_pos issued with rfl | hissued
  · obtain ⟨rfl, rfl⟩ := hempty rfl
    omega
  · have hpos : 0 < max base 1 := lt_max_of_lt_right Nat.zero_lt_one
    have hlimb : Fixed.RoundedDown issued b (max base 1) :=
      hdown.imp_right fun hlt => max_lt hlt (by decide)
    have hlp : lp * max base 1 ≤ issued * b := by
      rw [(computeDepositLp_further hissued h).2, hlimb.eq_div]
      exact Nat.div_mul_le_self _ _
    constructor
    · rw [Nat.mul_comm b]
      exact (Nat.mul_le_mul_left _ (Nat.le_max_left base 1)).trans hlp
    · refine Nat.lt_add_right _ (Nat.lt_of_mul_lt_mul_right (a := max base 1) ?_)
      calc lp * quote * max base 1
        _ = lp * max base 1 * quote := Nat.mul_right_comm _ _ _
        _ ≤ issued * b * quote := Nat.mul_le_mul_right _ hlp
        _ = issued * (quote * b) := by ring
        _ < issued * ((taken + 1) * max base 1) :=
          Nat.mul_lt_mul_of_pos_left (quote_lt_taken hissued h) hissued
        _ = (taken + 1) * issued * max base 1 := by ring

/-- What comes back of a deposit of `b` and `taken` into a pool with `issued` shares, `base` and
    `quote`, that minted `lp` shares and is withdrawn at once. -/
structure ComesBack (issued base quote b taken lp base' quote' : Nat) : Prop where
  base_lt : 2 * (base' * (issued + lp)) < (2 * b + 1) * (issued + lp) + base
  quote_lt : 2 * (quote' * (issued + lp)) < (2 * taken + 1) * (issued + lp) + (2 * issued + quote)
  base_le : Fixed.RoundedDown issued b base → base' ≤ b
  quote_le : Fixed.RoundedDown issued b base → Fixed.RoundedDown lp (quote + taken) (issued + lp) →
    quote' ≤ taken

theorem comesBack (hempty : issued = 0 → base = 0 ∧ quote = 0) (hb : 0 < b) (htaken : 0 < taken)
    (h : computeDepositLp issued b q base quote = .ok (taken, lp)) :
    ComesBack issued base quote b taken lp (Fixed.quotient lp (base + b) (issued + lp))
      (Fixed.quotient lp (quote + taken) (issued + lp)) := by
  have hpos := issued_after hb htaken h
  obtain ⟨hbase, hquote⟩ := shares_slack hempty h
  refine ⟨?_, ?_, fun hdown => ?_, fun hdown hback => ?_⟩
  · exact Pool.paid_lt_of_join (p := ⟨base, issued⟩) hbase (Fixed.two_mul_quotient_mul_lt hpos)
  · exact Pool.paid_lt_of_join (p := ⟨quote, issued⟩) hquote (Fixed.two_mul_quotient_mul_lt hpos)
  · refine Fixed.quotient_le ?_
    rw [Nat.mul_add, Nat.mul_add, Nat.mul_comm b lp]
    exact Nat.add_le_add_right (shares_lt hempty hdown hb htaken h).1 _
  · rw [hback.eq_div]
    exact Pool.paid_le_of_join_lt (p := ⟨quote, issued⟩) (shares_lt hempty hdown hb htaken h).2
      (Nat.div_mul_le_self _ _)

/-- All shares give back everything. -/
theorem returned_all {had : Nat} (hpos : 0 < issued) :
    Fixed.quotient issued had (max issued 1) = had := by
  rw [Nat.max_eq_left hpos, Fixed.quotient_self hpos]

end Rounding

/-! ## Deposits and withdrawals -/

variable {cfg : Config A X F} {m : DecimalMath} {s s' t : State A X F} {who c : A}
  {id base quote taken lp : Nat}
variable {pool : ConstantProductPoolInfo A X} {x : X} {k : Bool} {minMint minBase minQuote : Nat}
  {u : Unit}

theorem burnFrom_ok : burnFrom cfg x who lp s = (.ok u, s') ↔
    cfg.assets.burnRefused s.ledger x who lp = none ∧ s' = s.withLedger (s.ledger.burn x who lp) := by
  simp only [burnFrom, Call.zoom_ok, Currency.burnFrom_ok, and_assoc, exists_and_left, exists_eq_left]

theorem mintInto_ok : mintInto cfg x who lp s = (.ok u, s') ↔
    cfg.assets.mintRefused s.ledger x who lp = none ∧ s' = s.withLedger (s.ledger.mint x who lp) := by
  simp only [mintInto, Call.zoom_ok, Currency.mintInto_ok, and_assoc, exists_and_left, exists_eq_left]

/-- The two amounts of a pair of different assets, by asset. -/
def amounts (pair : CurrencyPair X) (base quote : Nat) (x : X) : Nat :=
  (if x = pair.base then base else 0) + (if x = pair.quote then quote else 0)

/-- An account deposits the two amounts into the account `c` of the pool, and
    new shares are its own. -/
structure Deposit (pool : ConstantProductPoolInfo A X) (c who : A) (base quote lp : Nat)
    (s s' : State A X F) : Prop where
  balance : ∀ x a, s'.ledger.balance x a + (if a = who then amounts pool.pair base quote x else 0) =
    s.ledger.balance x a + (if a = c then amounts pool.pair base quote x else 0) +
      (if x = pool.lpToken ∧ a = who then lp else 0)
  issuance : ∀ x, s'.ledger.issuance x = s.ledger.issuance x + if x = pool.lpToken then lp else 0
  ledgerOnly : LedgerOnly s s'

/-- A withdrawal is a deposit backwards. -/
def Withdrawal (pool : ConstantProductPoolInfo A X) (c who : A) (base quote lp : Nat)
    (s s' : State A X F) : Prop :=
  Deposit pool c who base quote lp s' s

/-- Two transfers, one for each asset. -/
theorem balance_of_transfers {l : Ledger A X} {pair : CurrencyPair X} {a b : A}
    (hbase : a ≠ b → base ≤ l.free pair.base a)
    (hquote : a ≠ b → quote ≤ (l.move pair.base a b base).free pair.quote a) :
    ((l.move pair.base a b base).move pair.quote a b quote).balance x c +
        (if c = a then amounts pair base quote x else 0) =
      l.balance x c + if c = b then amounts pair base quote x else 0 := by
  have hfirst := Ledger.balance_move_add (x := x) (c := c) hbase
  have hsecond := Ledger.balance_move_add (x := x) (c := c) hquote
  have hsplit : ∀ d : A, (if c = d then amounts pair base quote x else 0) =
      (if x = pair.base ∧ c = d then base else 0) + if x = pair.quote ∧ c = d then quote else 0 := by
    intro d
    by_cases hd : c = d
    · simp only [hd, if_true, and_true, amounts]
    · simp only [hd, if_false, and_false]
  rw [hsplit, hsplit]
  omega

omit [DecidableEq A] in
theorem of_amounts_pos {pair : CurrencyPair X} (h : 0 < amounts pair base quote x) :
    x = pair.base ∨ x = pair.quote := by
  by_contra hx
  obtain ⟨hbase, hquote⟩ := not_or.mp hx
  simp only [amounts, hbase, hquote, if_false, Nat.lt_irrefl] at h

namespace Deposit

variable {a : A}

theorem balance_pool (h : Deposit pool c who base quote lp s s') (hwho : who ≠ c) :
    s'.ledger.balance x c = s.ledger.balance x c + amounts pool.pair base quote x := by
  have hbalance := h.balance x c
  rwa [if_neg hwho.symm, if_pos rfl, if_neg fun h => hwho h.2.symm] at hbalance

theorem balance_other (h : Deposit pool c who base quote lp s s') (ha : a ≠ who) (hc : a ≠ c) :
    s'.ledger.balance x a = s.ledger.balance x a := by
  have hbalance := h.balance x a
  rwa [if_neg ha, if_neg hc, if_neg fun h => ha h.2] at hbalance

theorem issuance_lpToken (h : Deposit pool c who base quote lp s s') :
    s'.ledger.issuance pool.lpToken = s.ledger.issuance pool.lpToken + lp := by
  rw [h.issuance, if_pos rfl]

theorem issuance_other (h : Deposit pool c who base quote lp s s') (hx : x ≠ pool.lpToken) :
    s'.ledger.issuance x = s.ledger.issuance x := by
  rw [h.issuance, if_neg hx, Nat.add_zero]

theorem le_issuance (h : Deposit pool c who base quote lp s s') :
    s.ledger.issuance x ≤ s'.ledger.issuance x := by
  rw [h.issuance]
  exact Nat.le_add_right _ _

end Deposit

/-- What `add_liquidity` does. -/
theorem Uniswap.addLiquidity_ok
    (h : Uniswap.addLiquidity cfg who id base quote minMint k s = (.ok u, s')) :
    ∃ pool taken lp, s.uniswapPools id = some pool ∧ 0 < base ∧ 0 < taken ∧
      computeDepositLp (s.ledger.issuance pool.lpToken) base quote
        (s.ledger.balance pool.pair.base (cfg.uniswapAccount id))
        (s.ledger.balance pool.pair.quote (cfg.uniswapAccount id)) = .ok (taken, lp) ∧
      Deposit pool (cfg.uniswapAccount id) who base taken lp s s' := by
  simp only [Uniswap.addLiquidity, Call.transactional_ok, Call.bind_ok, Call.ensure_ok,
    Uniswap.getPool_ok, Call.get_bind, arithmetic_ok, transfer_ok, mintInto_ok] at h
  obtain ⟨_, t, ⟨hbase, rfl⟩, pool, t, ⟨hpool, rfl⟩, ⟨taken, lp⟩, t, ⟨hlp, rfl⟩, _, t,
    ⟨htaken, rfl⟩, _, t, ⟨-, rfl⟩, _, t, ⟨hfirst, rfl⟩, _, t, ⟨hsecond, rfl⟩, -, rfl⟩ := h
  refine ⟨pool, taken, lp, hpool, hbase, htaken, hlp, fun x a => ?_, fun x => rfl, rfl⟩
  have htransfers := balance_of_transfers (x := x) (c := a) (cfg.assets.funded_of_transfer hfirst)
    (cfg.assets.funded_of_transfer hsecond)
  show Ledger.balance (Ledger.mint _ _ _ _) x a + _ = _
  rw [Ledger.balance_mint, Nat.add_right_comm]
  exact congrArg (· + _) htransfers

/-- What `remove_liquidity` does. -/
theorem Uniswap.removeLiquidity_ok
    (h : Uniswap.removeLiquidity cfg who id lp minBase minQuote s = (.ok u, s')) :
    ∃ pool, s.uniswapPools id = some pool ∧ Withdrawal pool (cfg.uniswapAccount id) who
      (Fixed.quotient lp (s.ledger.balance pool.pair.base (cfg.uniswapAccount id))
        (max (s.ledger.issuance pool.lpToken) 1))
      (Fixed.quotient lp (s.ledger.balance pool.pair.quote (cfg.uniswapAccount id))
        (max (s.ledger.issuance pool.lpToken) 1)) lp
      s s' := by
  simp only [Uniswap.removeLiquidity, Call.transactional_ok, Call.bind_ok, Call.ensure_ok,
    Uniswap.getPool_ok, Call.get_bind, arithmetic_ok, Fixed.multiplyByRational_eq, Fixed.checked_ok,
    Fixed.checkedSub_ok, transfer_ok, burnFrom_ok, Call.pure_ok] at h
  obtain ⟨pool, t, ⟨hpool, rfl⟩, base, t, ⟨⟨-, rfl⟩, rfl⟩, quote, t, ⟨⟨-, rfl⟩, rfl⟩, _, t,
    ⟨-, rfl⟩, _, t,
    ⟨hfirst, rfl⟩, _, t, ⟨hsecond, rfl⟩, _, t, ⟨hburnt, rfl⟩, _, t, ⟨⟨hissued, -⟩, rfl⟩, -, rfl⟩ := h
  refine ⟨pool, hpool, fun x a => ?_, fun x => ?_, rfl⟩
  · have htransfers := balance_of_transfers (x := x) (c := a) (cfg.assets.funded_of_transfer hfirst)
      (cfg.assets.funded_of_transfer hsecond)
    have hburn := Ledger.balance_burn_add (y := x) (c := a) (cfg.assets.funded_of_burn hburnt).1
    refine htransfers.symm.trans (Eq.trans (congrArg (· + _) hburn.symm) ?_)
    exact Nat.add_right_comm _ _ _
  · show _ = Ledger.issuance _ x - _ + _
    split_ifs with hx
    · subst hx
      exact (Nat.sub_add_cancel hissued).symm
    · rfl

/-! ## Runs -/

/-- The pools that were created, by accounts that are not themselves pools, each
    with a token of its own. -/
structure Registered (cfg : Config A X F) (s : State A X F) : Prop where
  created : Created cfg s
  owner_ne : ∀ {id pool}, s.uniswapPools id = some pool → ∀ id', pool.owner ≠ cfg.uniswapAccount id'
  inUse :
    ∀ {id pool}, s.uniswapPools id = some pool → cfg.currencyFactory.inUse s.factory pool.lpToken
  lpToken_ne : ∀ {id id' pool pool'}, s.uniswapPools id = some pool →
    s.uniswapPools id' = some pool' → id ≠ id' →
    pool.lpToken ≠ pool'.lpToken

omit [DecidableEq A] [DecidableEq X] in
theorem LedgerOnly.symm (h : LedgerOnly s s') : LedgerOnly s' s := by
  rw [LedgerOnly, h]
  rfl

omit [DecidableEq A] [DecidableEq X] in
theorem LedgerOnly.registered (h : LedgerOnly s s') (hs : Registered cfg s) : Registered cfg s' := by
  have hcreated := h.created hs.created
  rw [h] at hcreated ⊢
  exact ⟨hcreated, hs.owner_ne, hs.inUse, hs.lpToken_ne⟩

/-- The account of a pool has something only of the assets of the pool, and
    only while shares are out. -/
structure Backed (cfg : Config A X F) (s : State A X F) : Prop extends Registered cfg s where
  shares : ∀ {id x}, id ≤ cfg.maxPoolId → 0 < s.ledger.balance x (cfg.uniswapAccount id) →
    ∃ pool, s.uniswapPools id = some pool ∧ (x = pool.pair.base ∨ x = pool.pair.quote) ∧
      0 < s.ledger.issuance pool.lpToken

omit [DecidableEq A] [DecidableEq X] in
theorem Backed.genesis {ledger : Ledger A X} {factory : F}
    (hempty : ∀ id x, ledger.balance x (cfg.uniswapAccount id) = 0) :
    Backed cfg (State.genesis ledger factory) :=
  ⟨⟨Created.genesis _ _, nofun, nofun, nofun⟩, fun {id x} _ hpos => absurd (hempty id x) hpos.ne'⟩

omit [DecidableEq A] [DecidableEq X] in
/-- The prices take no part in it. -/
theorem backed_withDecimals : Backed (cfg.withDecimals m) s ↔ Backed cfg s :=
  ⟨fun h => ⟨⟨⟨h.created.within, h.created.below, h.created.pair_ne⟩, h.owner_ne, h.inUse,
    h.lpToken_ne⟩, h.shares⟩,
    fun h => ⟨⟨⟨h.created.within, h.created.below, h.created.pair_ne⟩, h.owner_ne, h.inUse,
      h.lpToken_ne⟩, h.shares⟩⟩

omit [DecidableEq A] [DecidableEq X] in
/-- Without shares a pool has nothing. -/
theorem Backed.empty (h : Backed cfg s) (hpool : s.uniswapPools id = some pool)
    (hissued : s.ledger.issuance pool.lpToken = 0) :
    s.ledger.balance x (cfg.uniswapAccount id) = 0 := by
  refine Nat.eq_zero_of_not_pos fun hpos => ?_
  obtain ⟨pool', hpool', -, hshares⟩ := h.shares (h.created.id_le hpool) hpos
  obtain rfl := Option.some.inj (hpool.symm.trans hpool')
  omega

omit [DecidableEq A] in
/-- A new pool has a new token, and its account has nothing yet. -/
theorem Backed.create (h : Backed cfg s) {pair : CurrencyPair X} {fee ownerFee : Nat}
    (hwho : ∀ id, who ≠ cfg.uniswapAccount id)
    (hok : Uniswap.doCreatePool cfg who pair fee ownerFee s = (.ok id, s')) : Backed cfg s' := by
  obtain ⟨hcreated, hledger, hkept⟩ := h.created.create hok
  obtain ⟨-, -, -, lpToken, factory, hcreate, rfl⟩ := Uniswap.doCreatePool_ok hok
  -- A pool is the new one or one of those before.
  have hcases : ∀ {id pool},
      Function.update s.uniswapPools s.uniswapPoolCount (some ⟨who, pair, lpToken, fee, ownerFee⟩)
        id = some pool →
        (id = s.uniswapPoolCount ∧ pool = ⟨who, pair, lpToken, fee, ownerFee⟩) ∨
          s.uniswapPools id = some pool := by
    intro id pool hpool
    rw [Function.update_apply] at hpool
    split at hpool
    · exact .inl ⟨‹_›, (Option.some.inj hpool).symm⟩
    · exact .inr hpool
  have hnew : ∀ {id pool}, s.uniswapPools id = some pool → pool.lpToken ≠ lpToken := by
    intro id pool hpool heq
    exact cfg.currencyFactory.fresh hcreate (heq ▸ h.inUse hpool)
  refine ⟨⟨hcreated, fun hpool => ?_, fun hpool => ?_, fun hpool hpool' hne => ?_⟩,
    fun hid hpos => ?_⟩
  · rcases hcases hpool with ⟨-, rfl⟩ | hpool
    · exact hwho
    · exact h.owner_ne hpool
  · rcases hcases hpool with ⟨-, rfl⟩ | hpool
    · exact (cfg.currencyFactory.inUse_create hcreate).mpr (.inl rfl)
    · exact (cfg.currencyFactory.inUse_create hcreate).mpr (.inr (h.inUse hpool))
  · rcases hcases hpool with ⟨rfl, rfl⟩ | hold
    · rcases hcases hpool' with ⟨rfl, -⟩ | hold'
      · exact absurd rfl hne
      · exact (hnew hold').symm
    · rcases hcases hpool' with ⟨-, rfl⟩ | hold'
      · exact hnew hold
      · exact h.lpToken_ne hold hold' hne
  · obtain ⟨pool, hpool, hx, hissued⟩ := h.shares hid hpos
    exact ⟨pool, hkept hpool, hx, hissued⟩

/-- A pool that pays anything out has shares. -/
theorem Backed.exchange (haccounts : Set.InjOn cfg.uniswapAccount (Set.Iic cfg.maxPoolId))
    (h : Backed cfg s) {pair : CurrencyPair X}
    {q minReceive out : Nat} (hwho : ∀ id, who ≠ cfg.uniswapAccount id)
    (hok : Uniswap.exchange (cfg.withDecimals m) who id pair q minReceive k s = (.ok out, s')) :
    Backed cfg s' := by
  obtain ⟨pool, net, lpFee, ownerFee, hpool, hsame, -, -, hprice, hout, -, rfl⟩ :=
    Uniswap.exchange_ok hok
  have hshares : 0 < s.ledger.issuance pool.lpToken := by
    refine Nat.pos_of_ne_zero fun hissued => ?_
    have hbase : s.ledger.balance pair.base (cfg.uniswapAccount id) = 0 := h.empty hpool hissued
    have hnothing : out = s.ledger.balance pair.base (cfg.uniswapAccount id) * net / _ :=
      computeOutGivenIn_eq hprice
    rw [hbase, Nat.zero_mul, Nat.zero_div] at hnothing
    omega
  refine ⟨LedgerOnly.registered rfl h.toRegistered, fun {id' x} hle hpos => ?_⟩
  by_cases hid : id' = id
  · subst hid
    by_cases hx : x = pool.pair.base ∨ x = pool.pair.quote
    · exact ⟨pool, hpool, hx, hshares⟩
    · have hne : x ≠ pair.base ∧ x ≠ pair.quote := by
        rcases hsame with ⟨hbase, hquote⟩ | ⟨hbase, hquote⟩
        · rw [hbase, hquote]
          exact not_or.mp hx
        · rw [hbase, hquote]
          exact (not_or.mp hx).symm
      refine h.shares hle (lt_of_lt_of_eq hpos ?_)
      exact (Ledger.balance_move_of_ne_asset hne.1).trans
        ((Ledger.balance_move_of_ne_asset hne.2).trans
        (Ledger.balance_move_of_ne_asset hne.2))
  · have hother : cfg.uniswapAccount id' ≠ cfg.uniswapAccount id := fun heq =>
      hid (haccounts hle (h.created.id_le hpool) heq)
    refine h.shares hle (lt_of_lt_of_eq hpos ?_)
    exact (Ledger.balance_move_of_ne hother (hwho id').symm).trans
      ((Ledger.balance_move_of_ne hother (h.owner_ne hpool id').symm).trans
        (Ledger.balance_move_of_ne (hwho id').symm hother))

theorem Backed.deposit (haccounts : Set.InjOn cfg.uniswapAccount (Set.Iic cfg.maxPoolId))
    (h : Backed cfg s)
    (hwho : ∀ id, who ≠ cfg.uniswapAccount id) (hpool : s.uniswapPools id = some pool)
    (hissued : 0 < s.ledger.issuance pool.lpToken + lp)
    (hd : Deposit pool (cfg.uniswapAccount id) who base quote lp s s') : Backed cfg s' := by
  refine ⟨hd.ledgerOnly.registered h.toRegistered, fun {id' x} hle hpos => ?_⟩
  rw [hd.ledgerOnly.uniswapPools]
  have hold : 0 < s.ledger.balance x (cfg.uniswapAccount id') →
      ∃ pool, s.uniswapPools id' = some pool ∧
      (x = pool.pair.base ∨ x = pool.pair.quote) ∧ 0 < s'.ledger.issuance pool.lpToken := by
    intro hbefore
    obtain ⟨pool', hpool', hx, hissued'⟩ := h.shares hle hbefore
    exact ⟨pool', hpool', hx, hissued'.trans_le hd.le_issuance⟩
  by_cases hid : id' = id
  · subst hid
    rw [hd.balance_pool (hwho id')] at hpos
    rcases Nat.eq_zero_or_pos (s.ledger.balance x (cfg.uniswapAccount id')) with hzero | hbefore
    · rw [hzero, Nat.zero_add] at hpos
      exact ⟨pool, hpool, of_amounts_pos hpos, hissued.trans_eq hd.issuance_lpToken.symm⟩
    · exact hold hbefore
  · rw [hd.balance_other (hwho id').symm fun heq =>
      hid (haccounts hle (h.created.id_le hpool) heq)] at hpos
    exact hold hpos

/-- Shares that are left leave something of both assets, or nothing of them:
    the last ones take all. -/
theorem Backed.withdraw (haccounts : Set.InjOn cfg.uniswapAccount (Set.Iic cfg.maxPoolId))
    (h : Backed cfg s)
    (hwho : ∀ id, who ≠ cfg.uniswapAccount id) (hpool : s.uniswapPools id = some pool)
    (hw : Withdrawal pool (cfg.uniswapAccount id) who
      (Fixed.quotient lp (s.ledger.balance pool.pair.base (cfg.uniswapAccount id))
        (max (s.ledger.issuance pool.lpToken) 1))
      (Fixed.quotient lp (s.ledger.balance pool.pair.quote (cfg.uniswapAccount id))
        (max (s.ledger.issuance pool.lpToken) 1)) lp
      s s') : Backed cfg s' := by
  refine ⟨hw.ledgerOnly.symm.registered h.toRegistered, fun {id' x} hle hpos => ?_⟩
  rw [hw.ledgerOnly.symm.uniswapPools]
  by_cases hid : id' = id
  · subst hid
    have hbalance := hw.balance_pool (x := x) (hwho id')
    obtain ⟨pool', hpool', hx, hissued⟩ :=
      h.shares hle (Nat.lt_of_lt_of_eq (Nat.add_pos_left hpos _) hbalance.symm)
    obtain rfl := Option.some.inj (hpool.symm.trans hpool')
    refine ⟨pool, hpool, hx, Nat.pos_of_ne_zero fun hnone => ?_⟩
    -- No share is left, so all were returned.
    have hall : lp = s.ledger.issuance pool.lpToken := by
      rw [hw.issuance_lpToken, hnone, Nat.zero_add]
    rw [hall, returned_all hissued, returned_all hissued] at hbalance
    have htaken : s.ledger.balance x (cfg.uniswapAccount id') ≤ amounts pool.pair
        (s.ledger.balance pool.pair.base (cfg.uniswapAccount id'))
        (s.ledger.balance pool.pair.quote (cfg.uniswapAccount id')) x := by
      unfold amounts
      rcases hx with rfl | rfl
      · rw [if_pos rfl]
        exact Nat.le_add_right _ _
      · rw [if_pos rfl]
        exact Nat.le_add_left _ _
    omega
  · rw [← hw.balance_other (hwho id').symm fun heq =>
      hid (haccounts hle (h.created.id_le hpool) heq)] at hpos
    obtain ⟨pool', hpool', hx, hissued⟩ := h.shares hle hpos
    refine ⟨pool', hpool', hx, ?_⟩
    rw [← hw.issuance_other (h.lpToken_ne hpool' hpool hid)]
    exact hissued

/-- A step creates a pool, exchanges, adds or removes liquidity, or changes nothing. -/
theorem Uniswap.poolStep_cases {op : Uniswap.PoolOp A X} (h : Uniswap.poolStep cfg s op = some s') :
    s' = s ∨ ∃ who, op.origin = .signed who ∧
      ((∃ pair fee ownerFee id, Uniswap.doCreatePool cfg who pair fee ownerFee s = (.ok id, s')) ∨
        (∃ id pair q minReceive k out, Uniswap.exchange cfg who id pair q minReceive k s =
          (.ok out, s')) ∨
        (∃ id base quote minMint k, Uniswap.addLiquidity cfg who id base quote minMint k s =
          (.ok (), s')) ∨
        ∃ id lp minBase minQuote, Uniswap.removeLiquidity cfg who id lp minBase minQuote s =
          (.ok (), s')) := by
  cases op with
  | trade op =>
      rcases Uniswap.step_cases h with hidle | ⟨who, pair, fee, ownerFee, id, hwho, hcreate⟩ |
        ⟨who, id, pair, q, minReceive, k, out, hwho, hexchange⟩
      · exact .inl hidle
      · exact .inr ⟨who, hwho, .inl ⟨pair, fee, ownerFee, id, hcreate⟩⟩
      · exact .inr ⟨who, hwho, .inr (.inl ⟨id, pair, q, minReceive, k, out, hexchange⟩)⟩
  | addLiquidity who id base quote minMint k =>
      obtain rfl := Option.some.inj h
      rcases dispatch_transactional _ s with hidle | ⟨u, hadd⟩
      · exact .inl hidle
      · exact .inr ⟨who, rfl,
          .inr (.inr (.inl ⟨id, base, quote, minMint, k, Call.transactional_ok.mpr hadd⟩))⟩
  | removeLiquidity who id lp minBase minQuote =>
      obtain rfl := Option.some.inj h
      rcases dispatch_transactional _ s with hidle | ⟨u, hremove⟩
      · exact .inl hidle
      · exact .inr ⟨who, rfl,
          .inr (.inr (.inr ⟨id, lp, minBase, minQuote, Call.transactional_ok.mpr hremove⟩))⟩

theorem Backed.addLiquidity (haccounts : Set.InjOn cfg.uniswapAccount (Set.Iic cfg.maxPoolId))
    (h : Backed cfg s) (hwho : ∀ id, who ≠ cfg.uniswapAccount id)
    (hok : Uniswap.addLiquidity cfg who id base quote minMint k s = (.ok u, s')) : Backed cfg s' := by
  obtain ⟨pool, taken, lp, hpool, hbase, htaken, hlp, hd⟩ := Uniswap.addLiquidity_ok hok
  exact h.deposit haccounts hwho hpool (issued_after hbase htaken hlp) hd

theorem Backed.removeLiquidity (haccounts : Set.InjOn cfg.uniswapAccount (Set.Iic cfg.maxPoolId))
    (h : Backed cfg s) (hwho : ∀ id, who ≠ cfg.uniswapAccount id)
    (hok : Uniswap.removeLiquidity cfg who id lp minBase minQuote s = (.ok u, s')) :
    Backed cfg s' := by
  obtain ⟨pool, hpool, hw⟩ := Uniswap.removeLiquidity_ok hok
  exact h.withdraw haccounts hwho hpool hw

theorem Backed.step (haccounts : Set.InjOn cfg.uniswapAccount (Set.Iic cfg.maxPoolId))
    (h : Backed cfg s) {op : Uniswap.PoolOp A X}
    (hsigner : ∀ id, op.origin ≠ .signed (cfg.uniswapAccount id))
    (hstep : Uniswap.poolStep (cfg.withDecimals m) s op = some s') : Backed cfg s' := by
  rcases Uniswap.poolStep_cases hstep with rfl | ⟨who, hwho, hcases⟩
  · exact h
  · have hne : ∀ id, who ≠ cfg.uniswapAccount id := fun id heq => hsigner id (heq ▸ hwho)
    have hpriced : Backed (cfg.withDecimals m) s := backed_withDecimals.mpr h
    rcases hcases with
      ⟨pair, fee, ownerFee, id, hcreate⟩ | ⟨id, pair, q, minReceive, k, out, hexchange⟩ |
      ⟨id, base, quote, minMint, k, hadd⟩ | ⟨id, lp, minBase, minQuote, hremove⟩
    · exact backed_withDecimals.mp (hpriced.create hne hcreate)
    · exact h.exchange haccounts hne hexchange
    · exact backed_withDecimals.mp (hpriced.addLiquidity haccounts hne hadd)
    · exact backed_withDecimals.mp (hpriced.removeLiquidity haccounts hne hremove)

/-- By induction on the run. -/
theorem Backed.run (haccounts : Set.InjOn cfg.uniswapAccount (Set.Iic cfg.maxPoolId))
    (h : Backed cfg s)
    {ops : List (Uniswap.PoolOp A X)}
    (hsigners : ∀ op ∈ ops, ∀ id, op.origin ≠ .signed (cfg.uniswapAccount id))
    (hrun : Composable.run (Uniswap.poolStep (cfg.withDecimals m)) s ops = some s') : Backed cfg s' :=
  run_invariant (fun h hop hstep => h.step haccounts hop.1 hstep) h
    (Along.and_forall (along_true _ _) hsigners) hrun

/-! ## Adding and removing -/

/-- **What comes back of a deposit** that is withdrawn at once. -/
theorem Deposit.comesBack (hempty : s.ledger.issuance pool.lpToken = 0 →
      s.ledger.balance pool.pair.base c = 0 ∧ s.ledger.balance pool.pair.quote c = 0)
    (hne : pool.pair.base ≠ pool.pair.quote) (hwho : who ≠ c) (hbase : 0 < base) (htaken : 0 < taken)
    (hlp : computeDepositLp (s.ledger.issuance pool.lpToken) base quote
      (s.ledger.balance pool.pair.base c)
      (s.ledger.balance pool.pair.quote c) = .ok (taken, lp))
    (hd : Deposit pool c who base taken lp s s') :
    ComesBack (s.ledger.issuance pool.lpToken) (s.ledger.balance pool.pair.base c)
      (s.ledger.balance pool.pair.quote c) base taken lp
      (Fixed.quotient lp (s'.ledger.balance pool.pair.base c)
        (max (s'.ledger.issuance pool.lpToken) 1))
      (Fixed.quotient lp (s'.ledger.balance pool.pair.quote c)
        (max (s'.ledger.issuance pool.lpToken) 1)) := by
  have hpos := issued_after hbase htaken hlp
  have hamounts : amounts pool.pair base taken pool.pair.base = base ∧
      amounts pool.pair base taken pool.pair.quote = taken := by
    simp only [amounts, if_pos, hne, hne.symm, if_false, Nat.add_zero, Nat.zero_add, and_self]
  rw [hd.balance_pool hwho, hd.balance_pool hwho, hd.issuance_lpToken, hamounts.1, hamounts.2,
    Nat.max_eq_left hpos]
  exact Dex.comesBack hempty hbase htaken hlp

/-- If no more comes back, the account is left with no more of any asset. -/
theorem balance_le_of_withdrawn (hd : Deposit pool c who base quote lp s t) {base' quote' : Nat}
    (hw : Withdrawal pool c who base' quote' lp t s') (hwho : who ≠ c) (hbase : base' ≤ base)
    (hquote : quote' ≤ quote) : s'.ledger.balance x who ≤ s.ledger.balance x who := by
  have hpaid := hd.balance x who
  have hback := hw.balance x who
  rw [if_pos rfl, if_neg hwho] at hpaid hback
  have hamounts : amounts pool.pair base' quote' x ≤ amounts pool.pair base quote x := by
    unfold amounts
    split_ifs <;> omega
  omega

/-- **Adding and removing liquidity** gains by rounding only. In every run of the pools that
    starts with empty accounts of the pools, which none of their accounts signs, removing what a
    deposit has minted gives back at most what it took of each asset where the amounts are
    rounded down, and else exceeds it by less than half of what a share was worth, half a unit
    and, of the quote asset, the unit that was not taken. Removing all shares of a pool leaves
    nothing in its account. -/
theorem liquidity_comes_back (cfg : Config A X F) (m : DecimalMath) (ledger : Ledger A X)
    (factory : F) (haccounts : Set.InjOn cfg.uniswapAccount (Set.Iic cfg.maxPoolId))
    (hempty : ∀ id x, ledger.balance x (cfg.uniswapAccount id) = 0)
    {ops : List (Uniswap.PoolOp A X)}
    (hsigners : ∀ op ∈ ops, ∀ id, op.origin ≠ .signed (cfg.uniswapAccount id))
    (hrun : run (Uniswap.poolStep (cfg.withDecimals m)) (State.genesis ledger factory) ops = some s)
    (hpool : s.uniswapPools id = some pool) (hwho : ∀ id, who ≠ cfg.uniswapAccount id) :
    (∀ {base quote minMint k s₁ lp minBase minQuote s₂},
      Uniswap.addLiquidity (cfg.withDecimals m) who id base quote minMint k s = (.ok (), s₁) →
      s₁.ledger.issuance pool.lpToken = s.ledger.issuance pool.lpToken + lp →
      Uniswap.removeLiquidity (cfg.withDecimals m) who id lp minBase minQuote s₁ = (.ok (), s₂) →
      ∃ taken base' quote', Deposit pool (cfg.uniswapAccount id) who base taken lp s s₁ ∧
        Withdrawal pool (cfg.uniswapAccount id) who base' quote' lp s₁ s₂ ∧
        ComesBack (s.ledger.issuance pool.lpToken)
          (s.ledger.balance pool.pair.base (cfg.uniswapAccount id))
          (s.ledger.balance pool.pair.quote (cfg.uniswapAccount id)) base taken lp base' quote' ∧
        (base' ≤ base → quote' ≤ taken → ∀ x, s₂.ledger.balance x who ≤ s.ledger.balance x who)) ∧
      ∀ {minBase minQuote s'},
        Uniswap.removeLiquidity (cfg.withDecimals m) who id (s.ledger.issuance pool.lpToken) minBase
          minQuote s =
          (.ok (), s') →
        s'.ledger.issuance pool.lpToken = 0 ∧
          ∀ x, s'.ledger.balance x (cfg.uniswapAccount id) = 0 := by
  have hbacked : Backed cfg s := (Backed.genesis hempty).run haccounts hsigners hrun
  constructor
  · intro base quote minMint k s₁ lp minBase minQuote s₂ hadd hminted hremove
    obtain ⟨pool', taken, lp', hpool', hbase, htaken, hlp, hd⟩ := Uniswap.addLiquidity_ok hadd
    obtain rfl := Option.some.inj (hpool.symm.trans hpool')
    obtain rfl : lp' = lp := Nat.add_left_cancel (hd.issuance_lpToken.symm.trans hminted)
    -- The removal is of the pool that the deposit left.
    obtain ⟨pool', hpool', hw⟩ := Uniswap.removeLiquidity_ok hremove
    rw [hd.ledgerOnly.uniswapPools] at hpool'
    obtain rfl := Option.some.inj (hpool.symm.trans hpool')
    have hback :=
      hd.comesBack (fun hissued => ⟨hbacked.empty hpool hissued, hbacked.empty hpool hissued⟩)
      (hbacked.created.pair_ne hpool) (hwho id) hbase htaken hlp
    exact ⟨taken, _, _, hd, hw, hback, fun hbase' hquote' x =>
      balance_le_of_withdrawn hd hw (hwho id) hbase' hquote'⟩
  · intro minBase minQuote s' hremove
    obtain ⟨pool', hpool', hw⟩ := Uniswap.removeLiquidity_ok hremove
    obtain rfl := Option.some.inj (hpool.symm.trans hpool')
    -- Without shares a backed pool has nothing.
    have hnone : s'.ledger.issuance pool.lpToken = 0 :=
      Nat.add_eq_right.mp hw.issuance_lpToken.symm
    have hafter : Backed cfg s' := hbacked.withdraw haccounts hwho hpool hw
    rw [hw.ledgerOnly.uniswapPools] at hpool
    exact ⟨hnone, fun x => hafter.empty hpool hnone⟩

/-- Account `9` creates a pool, account `8` adds to it, and account `9` exchanges. -/
def liquidityOps : List (Uniswap.PoolOp Nat Nat) :=
  [.trade (.create (.signed 9) ⟨1, 2⟩ 10000 10000), .addLiquidity 8 0 1000 3001 0 true,
    .trade (.swap (.signed 9) 0 ⟨1, 2⟩ 500 0 true)]

def liquidityLedger : Ledger Nat Nat :=
  Ledger.ofList [(1, 8, 100000), (2, 8, 100000), (1, 9, 10000), (2, 9, 10000)]

/-- The states before and after account `8` deposits again, after it withdraws that, and after it
    withdraws what it had before instead. -/
def roundTrip :
    Option (State Nat Nat Nat × State Nat Nat Nat × State Nat Nat Nat × State Nat Nat Nat) :=
  (run (Uniswap.poolStep (sample.withDecimals firstPowers)) (State.genesis liquidityLedger 7)
      liquidityOps).bind fun s =>
    (Call.success (Uniswap.addLiquidity (sample.withDecimals firstPowers) 8 0 333 0 0 true) s).bind
        fun s₁ =>
      (Call.success (Uniswap.removeLiquidity (sample.withDecimals firstPowers) 8 0 648 0 0) s₁).bind
          fun s₂ =>
        (Call.success (Uniswap.removeLiquidity (sample.withDecimals firstPowers) 8 0 1674 0 0)
            s).map fun s₃ =>
          (s, s₁, s₂, s₃)

theorem sample_outsider {a : Nat} (ha : a < 2000) (id : Nat) : a ≠ sample.uniswapAccount id :=
  Nat.ne_of_lt (ha.trans_le (Nat.le_add_right 2000 id))

theorem liquidityLedger_empty (id x : Nat) :
    liquidityLedger.balance x (sample.uniswapAccount id) = 0 := by
  have h8 := sample_outsider (a := 8) (by decide) id
  have h9 := sample_outsider (a := 9) (by decide) id
  simp [liquidityLedger, Ledger.balance, Ledger.ofList, h8, h9]

/-- What account `8` has of both assets on the way, and the shares before and after the deposit. -/
def tripView : State Nat Nat Nat × State Nat Nat Nat × State Nat Nat Nat × State Nat Nat Nat →
    List Nat × List Nat
  | (s, s₁, s₂, _) =>
      ([s.ledger.balance 1 8, s₁.ledger.balance 1 8, s₂.ledger.balance 1 8, s.ledger.balance 2 8,
        s₁.ledger.balance 2 8, s₂.ledger.balance 2 8], [s.ledger.issuance 7, s₁.ledger.issuance 7])

/-- The deposit takes `333` and `1353`, of which `332` and `1353` come back. -/
theorem liquidity_comes_back_sample :
    ∃ s s₁ s₂ s₃, roundTrip = some (s, s₁, s₂, s₃) ∧
      tripView (s, s₁, s₂, s₃) = ([99000, 98667, 98999, 96999, 95646, 96999], [1674, 2322]) ∧
      (∀ x, s₂.ledger.balance x 8 ≤ s.ledger.balance x 8) ∧
      ∀ x, s₃.ledger.balance x (sample.uniswapAccount 0) = 0 := by
  have hview : (roundTrip.map fun trip => (tripView trip, trip.1.uniswapPools 0)) =
      some (([99000, 98667, 98999, 96999, 95646, 96999], [1674, 2322]), some samplePool) := by
    decide +kernel
  obtain ⟨⟨s, s₁, s₂, s₃⟩, htrip, hview⟩ := Option.map_eq_some_iff.mp hview
  obtain ⟨hview, hpool⟩ := Prod.mk.inj hview
  obtain ⟨hissued, hminted⟩ : s.ledger.issuance 7 = 1674 ∧ s₁.ledger.issuance 7 = 2322 := by
    simpa using (Prod.mk.inj hview).2
  obtain ⟨_, hrun, h⟩ := Option.bind_eq_some_iff.mp htrip
  obtain ⟨_, hadd, h⟩ := Option.bind_eq_some_iff.mp h
  obtain ⟨_, hremove, h⟩ := Option.bind_eq_some_iff.mp h
  obtain ⟨_, hall, h⟩ := Option.map_eq_some_iff.mp h
  cases h
  obtain ⟨_, hadd⟩ := Call.success_eq_some.mp hadd
  obtain ⟨_, hremove⟩ := Call.success_eq_some.mp hremove
  obtain ⟨_, hall⟩ := Call.success_eq_some.mp hall
  have haccounts : Set.InjOn sample.uniswapAccount (Set.Iic sample.maxPoolId) :=
    (add_right_injective 2000).injOn
  have hsigners : ∀ op ∈ liquidityOps, ∀ id, op.origin ≠ .signed (sample.uniswapAccount id) := by
    have hsmall : ∀ op ∈ liquidityOps, op.origin = .signed 8 ∨ op.origin = .signed 9 := by decide
    intro op hop id heq
    rcases hsmall op hop with h | h
    · exact sample_outsider (by decide) id (RawOrigin.signed.inj (h.symm.trans heq))
    · exact sample_outsider (by decide) id (RawOrigin.signed.inj (h.symm.trans heq))
  obtain ⟨htrips, hempties⟩ := liquidity_comes_back sample firstPowers liquidityLedger 7 haccounts
    liquidityLedger_empty hsigners hrun hpool (sample_outsider (a := 8) (by decide))
  have hshares : s₁.ledger.issuance samplePool.lpToken = s.ledger.issuance samplePool.lpToken + 648 :=
    hminted.trans (congrArg (· + 648) hissued.symm)
  obtain ⟨taken, base', quote', -, -, hback, hprofit⟩ := htrips hadd hshares hremove
  have hdown : Fixed.RoundedDown (s.ledger.issuance samplePool.lpToken) 333
      (s.ledger.balance samplePool.pair.base (sample.uniswapAccount 0)) := by
    refine .inl ?_
    rw [show s.ledger.issuance samplePool.lpToken = 1674 from hissued]
    decide
  have hlimb : s.ledger.issuance samplePool.lpToken + 648 < 2 ^ 32 := by
    rw [show s.ledger.issuance samplePool.lpToken = 1674 from hissued]
    decide
  have hall' : Uniswap.removeLiquidity (sample.withDecimals firstPowers) 8 0
    (s.ledger.issuance samplePool.lpToken)
      0 0 s = (.ok (), s₃) := by
    rw [show s.ledger.issuance samplePool.lpToken = 1674 from hissued]
    exact hall
  exact ⟨s, s₁, s₂, s₃, htrip, hview,
    hprofit (hback.base_le hdown) (hback.quote_le hdown (.inr hlimb)),
    (hempties hall').2⟩

/-- Account `8` brings `10 ^ 30` and `10 ^ 10` and gets `10 ^ 20` shares, each worth
    `10 ^ 10` of the base asset. -/
def richOps : List (Uniswap.PoolOp Nat Nat) :=
  [.trade (.create (.signed 9) ⟨1, 2⟩ 0 0), .addLiquidity 8 0 (10 ^ 30) (10 ^ 10) 0 true]

/-- The states before and after it adds `10 ^ 28 + 6 * 10 ^ 9` more, and after it
    removes the shares for that. -/
def richTrip : Option (State Nat Nat Nat × State Nat Nat Nat × State Nat Nat Nat) :=
  (run (Uniswap.poolStep (sample.withDecimals firstPowers))
    (State.genesis (Ledger.ofList [(1, 8, 10 ^ 31), (2, 8, 10 ^ 11)]) 7) richOps).bind fun s =>
      (Call.success (Uniswap.addLiquidity (sample.withDecimals firstPowers) 8 0
        (10 ^ 28 + 6 * 10 ^ 9) 0 0 true) s).bind
        fun s₁ => (Call.success (Uniswap.removeLiquidity (sample.withDecimals firstPowers) 8 0
          (s₁.ledger.issuance 7 - s.ledger.issuance 7) 0 0) s₁).map fun s₂ => (s, s₁, s₂)

/-- **Adding and removing liquidity profits**: six tenths of a share are rounded up to a share. -/
theorem liquidity_profits : ∃ s s₁ s₂, richTrip = some (s, s₁, s₂) ∧
    s₁.ledger.balance 1 8 + (10 ^ 28 + 6 * 10 ^ 9) = s.ledger.balance 1 8 ∧
    s.ledger.balance 1 8 + 3960396040 = s₂.ledger.balance 1 8 := by
  obtain ⟨⟨s, s₁, s₂⟩, htrip, hview⟩ := Option.map_eq_some_iff.mp
    (show richTrip.map (fun trip =>
        decide (trip.2.1.ledger.balance 1 8 + (10 ^ 28 + 6 * 10 ^ 9) = trip.1.ledger.balance 1 8 ∧
          trip.1.ledger.balance 1 8 + 3960396040 = trip.2.2.ledger.balance 1 8)) =
            some true by decide +kernel)
  exact ⟨s, s₁, s₂, htrip, of_decide_eq_true hview⟩

end Dex
end Composable
