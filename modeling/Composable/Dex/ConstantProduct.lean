import Composable.Dex.Routes
import Mathlib.Data.Rat.Floor
import Mathlib.Tactic.FieldSimp

/-!
# `Dex.ConstantProduct` — trades of a constant-product pool

Embeds `frame/composable-maths/src/dex/constant_product.rs` and the extrinsics of
`frame/uniswap-v2/src/lib.rs` that trade. Decimals are exact rationals here; of their powers it is
only used that the first power of a number is the number.

An exchange pays out `base * net / (quote + net)` rounded down, where `net` is what is left of the
amount after both fees, and at least `net` stays in the pool (`product_le_of_exchange`). So the
product of the balances of a pool never decreases, whoever trades and however large the trade is.
-/

namespace Composable
namespace Dex

open DutchAuction (CurrencyPair)

variable {A X F : Type} [DecidableEq A] [DecidableEq X]

/-! ## Decimals -/

/-- `Decimal::checked_powd`. -/
structure DecimalMath where
  checkedPowd : ℚ → ℚ → Option ℚ
  checkedPowd_one : ∀ x, checkedPowd x 1 = some x

namespace Decimal

/-- `Decimal::from_u128`: decimals have 96 bits. -/
def fromU128 (n : Nat) : Except ArithmeticError ℚ := if n < 2 ^ 96 then .ok n else .error .overflow

def safeDiv (x y : ℚ) : Except ArithmeticError ℚ :=
  if y = 0 then .error .divisionByZero else .ok (x / y)

/-- `to_u128` drops the fraction. -/
def toU128 (x : ℚ) : Except ArithmeticError Nat :=
  if 0 ≤ x ∧ x.floor ≤ u128Max then .ok x.floor.toNat else .error .overflow

theorem fromU128_ok {n : Nat} {x : ℚ} : fromU128 n = .ok x ↔ n < 2 ^ 96 ∧ x = n := by
  unfold fromU128
  by_cases hn : n < 2 ^ 96
  · rw [if_pos hn, Except.ok.injEq, eq_comm]
    exact ⟨fun h => ⟨hn, h⟩, And.right⟩
  · rw [if_neg hn]
    exact iff_of_false nofun fun h => hn h.1

theorem safeDiv_ok {x y z : ℚ} : safeDiv x y = .ok z ↔ y ≠ 0 ∧ z = x / y := by
  unfold safeDiv
  by_cases hy : y = 0
  · rw [if_pos hy]
    exact iff_of_false nofun fun h => h.1 hy
  · rw [if_neg hy, Except.ok.injEq, eq_comm]
    exact ⟨fun h => ⟨hy, h⟩, And.right⟩

/-- A quotient of integers loses its remainder. -/
theorem toU128_div {a b n : Nat} (h : toU128 ((a : ℚ) / (b : ℚ)) = .ok n) : n = a / b := by
  unfold toU128 at h
  split at h
  next hx =>
    obtain rfl := Except.ok.inj h
    have hfloor : ((a : ℚ) / (b : ℚ)).floor = ((a / b : Nat) : ℤ) := Rat.floor_natCast_div_natCast a b
    rw [hfloor, Int.toNat_natCast]
  next => cases h

end Decimal

/-! ## Pricing -/

/-- `Permill::from_percent(50)`. -/
def halfWeight : Nat := 500000

/-- `compute_out_given_in` for weights in parts of `one`. -/
def computeOutGivenIn (m : DecimalMath) (one wi wo bi bo ai : Nat) : Except ArithmeticError Nat :=
  if wi + wo ≠ one then .error .overflow
  else do
    let ai ← Decimal.fromU128 ai
    let bi ← Decimal.fromU128 bi
    let bo ← Decimal.fromU128 bo
    let weightPower ← Decimal.safeDiv wi wo
    let biDivBiPlusAi ← Decimal.safeDiv bi (bi + ai)
    let termToWeightPower ← (m.checkedPowd biDivBiPlusAi weightPower).elim (.error .overflow) .ok
    Decimal.toU128 (bo * (1 - termToWeightPower))

/-- `compute_in_given_out` for weights in parts of `one`. -/
def computeInGivenOut (m : DecimalMath) (one wi wo bi bo ao : Nat) : Except ArithmeticError Nat :=
  if wi + wo ≠ one then .error .overflow
  else do
    let ao ← Decimal.fromU128 ao
    let bi ← Decimal.fromU128 bi
    let bo ← Decimal.fromU128 bo
    let weightPower ← Decimal.safeDiv wo wi
    let boDivBoMinusAo ← Decimal.safeDiv bo (bo - ao)
    let termToWeightPower ← (m.checkedPowd boDivBoMinusAo weightPower).elim (.error .overflow) .ok
    Decimal.toU128 (bi * (termToWeightPower - 1))

/-- The pallet with the pricing of its pools, whose weights are a half. -/
def Config.withDecimals (cfg : Config A X F) (m : DecimalMath) : Config A X F :=
  { cfg with
    pricing := { cfg.pricing with
      computeOutGivenIn := computeOutGivenIn m Fixed.permill halfWeight halfWeight
      computeInGivenOut := computeInGivenOut m Fixed.permill halfWeight halfWeight } }

/-- With equal weights the share of the balance is paid out that the amount will have in the
    pool. -/
theorem computeOutGivenIn_eq {m : DecimalMath} {bi bo ai out : Nat}
    (h : computeOutGivenIn m Fixed.permill halfWeight halfWeight bi bo ai = .ok out) :
    out = bo * ai / (bi + ai) := by
  unfold computeOutGivenIn at h
  rw [if_neg (by decide)] at h
  simp only [exceptBind_ok, Decimal.fromU128_ok, Decimal.safeDiv_ok] at h
  obtain ⟨_, ⟨-, rfl⟩, _, ⟨-, rfl⟩, _, ⟨-, rfl⟩, _, ⟨hweight, rfl⟩, _, ⟨hsum, rfl⟩, term, hterm,
    hout⟩ := h
  rw [div_self hweight, m.checkedPowd_one, Option.elim_some] at hterm
  obtain rfl := Except.ok.inj hterm
  refine Decimal.toU128_div (Eq.trans (congrArg Decimal.toU128 ?_) hout)
  push_cast
  field_simp
  ring

/-- At most that share. -/
theorem computeOutGivenIn_mul_le {m : DecimalMath} {bi bo ai out : Nat}
    (h : computeOutGivenIn m Fixed.permill halfWeight halfWeight bi bo ai = .ok out) :
    out * (bi + ai) ≤ bo * ai := by
  rw [computeOutGivenIn_eq h]
  exact Nat.div_mul_le_self _ _

/-- What has to be paid for less than the balance, with equal weights. -/
theorem computeInGivenOut_eq {m : DecimalMath} {bi bo ao out : Nat} (hao : ao < bo)
    (h : computeInGivenOut m Fixed.permill halfWeight halfWeight bi bo ao = .ok out) :
    out = bi * ao / (bo - ao) := by
  unfold computeInGivenOut at h
  rw [if_neg (by decide)] at h
  simp only [exceptBind_ok, Decimal.fromU128_ok, Decimal.safeDiv_ok] at h
  obtain ⟨_, ⟨-, rfl⟩, _, ⟨-, rfl⟩, _, ⟨-, rfl⟩, _, ⟨hweight, rfl⟩, _, ⟨hrest, rfl⟩, term, hterm,
    hout⟩ := h
  rw [div_self hweight, m.checkedPowd_one, Option.elim_some] at hterm
  obtain rfl := Except.ok.inj hterm
  refine Decimal.toU128_div (Eq.trans (congrArg Decimal.toU128 ?_) hout)
  push_cast [hao.le]
  field_simp
  ring

/-! ## The pallet -/

namespace Uniswap

variable (cfg : Config A X F)

def buy (who : A) (poolId : Nat) (asset : X) (amount : Nat) (keepAlive : Bool) : DexCall A X F Nat :=
  Call.transactional do
    let pool ← getPool poolId
    let pair := if asset = pool.pair.base then pool.pair else swap pool.pair
    let quoteAmount ← getExchangeValue cfg poolId asset amount
    exchange cfg who poolId pair quoteAmount 0 keepAlive

def sell (who : A) (poolId : Nat) (asset : X) (amount : Nat) (keepAlive : Bool) : DexCall A X F Nat :=
  Call.transactional do
    let pool ← getPool poolId
    let pair := if asset = pool.pair.base then swap pool.pair else pool.pair
    exchange cfg who poolId pair amount 0 keepAlive

/-- The extrinsics of the pallet; `swap` is the exchange itself. -/
inductive Op (A X : Type) where
  | create (origin : RawOrigin A) (pair : CurrencyPair X) (fee ownerFee : Nat)
  | buy (origin : RawOrigin A) (poolId : Nat) (asset : X) (amount : Nat) (keepAlive : Bool)
  | sell (origin : RawOrigin A) (poolId : Nat) (asset : X) (amount : Nat) (keepAlive : Bool)
  | swap (origin : RawOrigin A) (poolId : Nat) (pair : CurrencyPair X)
      (quoteAmount minReceive : Nat) (keepAlive : Bool)

def Op.origin : Op A X → RawOrigin A
  | .create origin _ _ _ | .buy origin _ _ _ _ | .sell origin _ _ _ _
  | .swap origin _ _ _ _ _ => origin

/-- What an extrinsic does on behalf of the account that signs it. -/
def invokeAs (who : A) : Op A X → DexCall A X F Nat
  | .create _ pair fee ownerFee => doCreatePool cfg who pair fee ownerFee
  | .buy _ poolId asset amount keepAlive => buy cfg who poolId asset amount keepAlive
  | .sell _ poolId asset amount keepAlive => sell cfg who poolId asset amount keepAlive
  | .swap _ poolId pair quoteAmount minReceive keepAlive =>
      exchange cfg who poolId pair quoteAmount minReceive keepAlive

def step (s : State A X F) (op : Op A X) : Option (State A X F) :=
  some (dispatch (ensureSigned op.origin >>= fun who => invokeAs cfg who op) s)

end Uniswap

variable {cfg : Config A X F} {s s' : State A X F} {who : A} {pair : CurrencyPair X} {q out id : Nat}
variable {op : Uniswap.Op A X}

omit [DecidableEq A] in
theorem Uniswap.getExchangeValue_reads {x : X} {n : Nat} :
    (Uniswap.getExchangeValue cfg id x n).Reads := by
  refine .bind (.bind .get fun _ => .ofOption _ _) fun _ => .bind .get fun _ => ?_
  split
  · exact .ofExcept _
  · exact .ofExcept _

/-- A purchase and a sale are exchanges. -/
theorem Uniswap.buy_ok {x : X} {k : Bool} (h : Uniswap.buy cfg who id x q k s = (.ok out, s')) :
    ∃ pool quote, s.uniswapPools id = some pool ∧
      Uniswap.getExchangeValue cfg id x q s = (.ok quote, s) ∧
      Uniswap.exchange cfg who id (if x = pool.pair.base then pool.pair else swap pool.pair)
        quote 0 k s =
        (.ok out, s') := by
  simp only [Uniswap.buy, Call.transactional_ok, Call.bind_ok, Uniswap.getPool_ok] at h
  obtain ⟨pool, t, ⟨hpool, rfl⟩, quote, t', hvalue, hexchange⟩ := h
  obtain rfl := Uniswap.getExchangeValue_reads.ok hvalue
  exact ⟨pool, quote, hpool, hvalue, hexchange⟩

theorem Uniswap.sell_ok {x : X} {k : Bool} (h : Uniswap.sell cfg who id x q k s = (.ok out, s')) :
    ∃ pair, Uniswap.exchange cfg who id pair q 0 k s = (.ok out, s') := by
  simp only [Uniswap.sell, Call.transactional_ok, Call.bind_ok, Uniswap.getPool_ok] at h
  obtain ⟨pool, t, ⟨-, rfl⟩, hexchange⟩ := h
  exact ⟨_, hexchange⟩

/-- A call that fails has written nothing. -/
theorem Uniswap.invokeAs_clean :
    Call.Outcome (fun _ _ => True) (fun _ t => t = s) (Uniswap.invokeAs cfg who op s) := by
  cases op <;>
    exact Call.outcome_transactional.mpr
      (Call.outcome_iff.mpr ⟨fun _ _ _ => trivial, fun _ _ _ => rfl⟩)

/-- **A step creates a pool, exchanges, or changes nothing.** -/
theorem Uniswap.step_cases (h : Uniswap.step cfg s op = some s') :
    s' = s ∨ (∃ who pair fee ownerFee id, op.origin = .signed who ∧
        Uniswap.doCreatePool cfg who pair fee ownerFee s = (.ok id, s')) ∨
      ∃ who id pair q minReceive k out, op.origin = .signed who ∧
        Uniswap.exchange cfg who id pair q minReceive k s = (.ok out, s') := by
  obtain rfl := Option.some.inj h
  rcases dispatch_cases (ensureSigned op.origin >>= fun who => Uniswap.invokeAs cfg who op) s with
    ⟨out, hok⟩ | ⟨-, hidle | ⟨e, herror⟩⟩
  · right
    obtain ⟨who, t, hsigned, hok⟩ := Call.bind_ok.mp hok
    obtain ⟨hwho, rfl⟩ := ensureSigned_ok.mp hsigned
    cases op with
    | create origin pair fee ownerFee => exact .inl ⟨who, pair, fee, ownerFee, out, hwho, hok⟩
    | buy origin id x q k =>
        obtain ⟨pool, quote, -, -, hexchange⟩ := Uniswap.buy_ok hok
        exact .inr ⟨who, id, _, quote, 0, k, out, hwho, hexchange⟩
    | sell origin id x q k =>
        obtain ⟨pair, hexchange⟩ := Uniswap.sell_ok hok
        exact .inr ⟨who, id, pair, q, 0, k, out, hwho, hexchange⟩
    | swap origin id pair q minReceive k =>
        exact .inr ⟨who, id, pair, q, minReceive, k, out, hwho, hok⟩
  · exact .inl hidle
  · left
    have hclean : Call.Outcome (fun _ _ => True) (fun _ t => t = s)
        ((ensureSigned op.origin >>= fun who => Uniswap.invokeAs cfg who op) s) := by
      rw [Call.outcome_bind, ensureSigned_outcome]
      exact ⟨fun who _ => Uniswap.invokeAs_clean, fun _ => rfl⟩
    exact (Call.outcome_iff.mp hclean).2 e _ herror

/-! ## The product of the balances -/

/-- The product of what a pool has of two assets. -/
def product (cfg : Config A X F) (pair : CurrencyPair X) (id : Nat) (s : State A X F) : Nat :=
  s.ledger.balance pair.base (cfg.uniswapAccount id) * s.ledger.balance pair.quote
    (cfg.uniswapAccount id)

omit [DecidableEq A] [DecidableEq X] in
theorem product_of_samePair {pair' : CurrencyPair X} (h : samePair pair pair') :
    product cfg pair id s = product cfg pair' id s := by
  unfold product
  rcases h with ⟨hbase, hquote⟩ | ⟨hbase, hquote⟩
  · rw [hbase, hquote]
  · rw [hbase, hquote, Nat.mul_comm]

/-- What is paid out is no more than its share: with at least `net` in and at most `out` out, the
    product does not decrease. -/
theorem mul_le_mul_of_paid {base quote base' quote' net out : Nat}
    (hpaid : out * (quote + net) ≤ base * net)
    (hbase : base ≤ base' + out) (hquote : quote + net ≤ quote') : base * quote ≤ base' * quote' := by
  have hbefore : base * quote + base * net ≤ base' * (quote + net) + out * (quote + net) := by
    rw [← Nat.mul_add, ← Nat.add_mul]
    exact Nat.mul_le_mul_right _ hbase
  have hafter : base' * (quote + net) ≤ base' * quote' := Nat.mul_le_mul_left _ hquote
  omega

/-- The pools are those that were created, with two different assets each. -/
structure Created (cfg : Config A X F) (s : State A X F) : Prop where
  within : s.uniswapPoolCount ≤ cfg.maxPoolId
  below : ∀ {id pool}, s.uniswapPools id = some pool → id < s.uniswapPoolCount
  pair_ne : ∀ {id pool}, s.uniswapPools id = some pool → pool.pair.base ≠ pool.pair.quote

omit [DecidableEq A] [DecidableEq X] in
theorem Created.genesis (ledger : Ledger A X) (factory : F) :
    Created cfg (State.genesis ledger factory) :=
  ⟨Nat.zero_le _, nofun, nofun⟩

omit [DecidableEq A] [DecidableEq X] in
/-- Ids of pools are in the range of their type. -/
theorem Created.id_le (h : Created cfg s) {pool : ConstantProductPoolInfo A X}
    (hpool : s.uniswapPools id = some pool) :
    id ≤ cfg.maxPoolId := (h.below hpool).le.trans h.within

omit [DecidableEq A] [DecidableEq X] in
theorem LedgerOnly.uniswapPools (h : LedgerOnly s s') : s'.uniswapPools = s.uniswapPools := by
  rw [h]
  rfl

omit [DecidableEq A] [DecidableEq X] in
theorem LedgerOnly.created (h : LedgerOnly s s') (hs : Created cfg s) : Created cfg s' := by
  rw [h]
  exact ⟨hs.within, hs.below, hs.pair_ne⟩

omit [DecidableEq A] in
/-- A new pool joins the others, which stay. -/
theorem Created.create (h : Created cfg s) {fee ownerFee : Nat}
    (hok : Uniswap.doCreatePool cfg who pair fee ownerFee s = (.ok id, s')) :
    Created cfg s' ∧ s'.ledger = s.ledger ∧
      ∀ {id pool}, s.uniswapPools id = some pool → s'.uniswapPools id = some pool := by
  obtain ⟨hpair, -, hcount, lpToken, factory, -, rfl⟩ := Uniswap.doCreatePool_ok hok
  refine ⟨⟨hcount, fun {id pool} hpool => ?_, fun {id pool} hpool => ?_⟩, rfl,
    fun {id pool} hpool => ?_⟩
  · simp only [Function.update_apply] at hpool
    split at hpool
    · exact Nat.lt_succ_of_le (Nat.le_of_eq ‹_›)
    · exact Nat.lt_succ_of_lt (h.below hpool)
  · simp only [Function.update_apply] at hpool
    split at hpool
    · obtain rfl := Option.some.inj hpool
      exact hpair
    · exact h.pair_ne hpool
  · show Function.update _ _ _ _ = _
    rw [Function.update_of_ne (Nat.ne_of_lt (h.below hpool)), hpool]

variable {m : DecimalMath} {minReceive : Nat} {k : Bool}

/-- What the transfers of an exchange leave in the account of the pool. -/
theorem balance_of_moves {l : Ledger A X} {c owner : A} {base quote : X} {fee : Nat}
    (hne : base ≠ quote) (hwho : who ≠ c) :
    l.balance base c ≤ (((l.move quote who c q).move quote c owner fee).move base c who out).balance
      base c + out ∧
      l.balance quote c + q ≤
        (((l.move quote who c q).move quote c owner fee).move base c who out).balance quote
          c + fee := by
  constructor
  · have hsame :
        ((l.move quote who c q).move quote c owner fee).balance base c = l.balance base c := by
      rw [Ledger.balance_move_of_ne_asset hne, Ledger.balance_move_of_ne_asset hne]
    rw [← hsame]
    exact Ledger.le_balance_move
  · rw [Ledger.balance_move_of_ne_asset hne.symm, ← Ledger.balance_move_to hwho]
    exact Ledger.le_balance_move

variable {pool : ConstantProductPoolInfo A X}

/-- **An exchange of the pool** does not decrease the product of its balances. -/
theorem product_le_of_exchange (hcreated : Created cfg s) (hpool : s.uniswapPools id = some pool)
    (hwho : who ≠ cfg.uniswapAccount id)
    (h : Uniswap.exchange (cfg.withDecimals m) who id pair q minReceive k s = (.ok out, s')) :
    product cfg pool.pair id s ≤ product cfg pool.pair id s' := by
  obtain ⟨pool', net, lpFee, ownerFee, hpool', hsame, -, hsplit, hprice, -, -, rfl⟩ :=
    Uniswap.exchange_ok h
  obtain rfl := Option.some.inj (hpool.symm.trans hpool')
  have hne : pair.base ≠ pair.quote := by
    have hpair := hcreated.pair_ne hpool
    rcases hsame with ⟨hbase, hquote⟩ | ⟨hbase, hquote⟩
    · rwa [hbase, hquote]
    · rw [hbase, hquote]
      exact hpair.symm
  obtain ⟨hbase, hquote⟩ := balance_of_moves (l := s.ledger) (c := cfg.uniswapAccount id) hne hwho
  rw [← product_of_samePair hsame, ← product_of_samePair hsame]
  refine mul_le_mul_of_paid (computeOutGivenIn_mul_le hprice) hbase ?_
  -- Of the amount only the fee of the owner leaves the pool again.
  have hnet : s.ledger.balance pair.quote (cfg.uniswapAccount id) + net + ownerFee ≤
      s.ledger.balance pair.quote (cfg.uniswapAccount id) + q := by
    omega
  exact Nat.le_of_add_le_add_right (hnet.trans hquote)

/-- Another account that does not sign only gains by an exchange. -/
theorem balance_le_of_exchange {c : A} {x : X} (hwho : who ≠ c) (hother : cfg.uniswapAccount id ≠ c)
    (h : Uniswap.exchange cfg who id pair q minReceive k s = (.ok out, s')) :
    s.ledger.balance x c ≤ s'.ledger.balance x c := by
  obtain ⟨_, net, lpFee, ownerFee, -, -, -, -, -, -, -, rfl⟩ := Uniswap.exchange_ok h
  calc s.ledger.balance x c
    _ ≤ (s.ledger.move pair.quote who (cfg.uniswapAccount id) q).balance x c :=
      Ledger.le_balance_move_of_ne hwho.symm
    _ ≤ _ := Ledger.le_balance_move_of_ne hother.symm
    _ ≤ _ := Ledger.le_balance_move_of_ne hother.symm

/-- **The product never decreases.** From any state of the pools, over every sequence of purchases,
    sales and swaps, of this pool and others, that the account of the pool does not sign, the
    product of its balances stays or grows, whatever its fees are. -/
theorem product_never_decreases (cfg : Config A X F) (m : DecimalMath)
    (haccounts : Set.InjOn cfg.uniswapAccount (Set.Iic cfg.maxPoolId))
    (hcreated : Created cfg s) (hpool : s.uniswapPools id = some pool) {ops : List (Uniswap.Op A X)}
    (hsigners : ∀ op ∈ ops, op.origin ≠ .signed (cfg.uniswapAccount id))
    (hrun : run (Uniswap.step (cfg.withDecimals m)) s ops = some s') :
    product cfg pool.pair id s ≤ product cfg pool.pair id s' := by
  have hops : Along (Uniswap.step (cfg.withDecimals m))
      (fun _ op => op.origin ≠ .signed (cfg.uniswapAccount id) ∧ True) s ops :=
        Along.and_forall (along_true _ _) hsigners
  refine run_related (I := fun s => Created cfg s ∧ s.uniswapPools id = some pool)
    (R := fun s s' => product cfg pool.pair id s ≤ product cfg pool.pair id s')
      (fun _ => Nat.le_refl _) Nat.le_trans
    ?_ ⟨hcreated, hpool⟩ hops hrun
  rintro t op t' ⟨hcreated, hpool⟩ ⟨hsigner, -⟩ hstep
  rcases Uniswap.step_cases hstep with rfl | ⟨who, pair, fee, ownerFee, id', -, hcreate⟩ |
    ⟨who, id', pair, q, minReceive, k, out, hwho, hexchange⟩
  · exact ⟨⟨hcreated, hpool⟩, Nat.le_refl _⟩
  · obtain ⟨hcreated', hledger, hstored⟩ := hcreated.create hcreate
    refine ⟨⟨hcreated', hstored hpool⟩, ?_⟩
    rw [product, product, hledger]
  · have hne : who ≠ cfg.uniswapAccount id := fun heq => hsigner (heq ▸ hwho)
    obtain ⟨pool', hpool', honly⟩ : ∃ pool', t.uniswapPools id' = some pool' ∧ LedgerOnly t t' := by
      obtain ⟨pool', net, lpFee, ownerFee, hpool', -, -, -, -, -, -, rfl⟩ :=
        Uniswap.exchange_ok hexchange
      exact ⟨pool', hpool', rfl⟩
    refine ⟨⟨honly.created hcreated, honly.uniswapPools ▸ hpool⟩, ?_⟩
    -- A trade with another pool can only add to the funds of this one.
    by_cases heq : id' = id
    · subst heq
      exact product_le_of_exchange hcreated hpool hne hexchange
    · have hother : (cfg.withDecimals m).uniswapAccount id' ≠ cfg.uniswapAccount id := fun h =>
        heq (haccounts (hcreated.id_le hpool') (hcreated.id_le hpool) h)
      have hkept : ∀ x, t.ledger.balance x (cfg.uniswapAccount id) ≤
          t'.ledger.balance x (cfg.uniswapAccount id) := by
        intro x
        exact balance_le_of_exchange hne hother hexchange
      exact Nat.mul_le_mul (hkept _) (hkept _)

/-- First powers only. -/
def firstPowers : DecimalMath where
  checkedPowd x p := if p = 1 then some x else none
  checkedPowd_one _ := if_pos rfl

/-- A pool of account `9` with fees of a hundredth each. -/
def samplePool : ConstantProductPoolInfo Nat Nat := ⟨9, ⟨1, 2⟩, 7, 10000, 10000⟩

def samplePools : State Nat Nat Nat :=
  { State.genesis sampleLedger 8 with
    uniswapPools := fun id => if id = 0 then some samplePool else none
    uniswapPoolCount := 1 }

/-- Account `8` sells a thousand of asset `2`, and what it gets for them. -/
def sampleTrades : List (Uniswap.Op Nat Nat) :=
  [.sell (.signed 8) 0 2 1000 true, .swap (.signed 8) 0 ⟨2, 1⟩ 900 0 true]

theorem product_never_decreases_sample :
    ∃ s, run (Uniswap.step (sample.withDecimals firstPowers)) samplePools sampleTrades = some s ∧
      s.ledger.balance 1 8 = 89 ∧
        product sample ⟨1, 2⟩ 0 samplePools ≤ product sample ⟨1, 2⟩ 0 s := by
  have hview : (run (Uniswap.step (sample.withDecimals firstPowers)) samplePools sampleTrades).map
      (fun s => s.ledger.balance 1 8) = some 89 := by
    decide +kernel
  obtain ⟨s, hrun, hbalance⟩ := Option.map_eq_some_iff.mp hview
  have hpools : ∀ {id pool}, samplePools.uniswapPools id = some pool → id = 0 ∧
      pool = samplePool := by
    intro id pool hpool
    by_cases hid : id = 0
    · exact ⟨hid, (Option.some.inj ((if_pos hid).symm.trans hpool)).symm⟩
    · cases (if_neg hid).symm.trans hpool
  have hcreated : Created sample samplePools := by
    refine ⟨by decide, fun hpool => ?_, fun hpool => ?_⟩
    · rw [(hpools hpool).1]
      decide
    · rw [(hpools hpool).2]
      decide
  have haccounts : Set.InjOn sample.uniswapAccount (Set.Iic sample.maxPoolId) :=
    (add_right_injective 2000).injOn
  have hpool : samplePools.uniswapPools 0 = some samplePool := rfl
  exact ⟨s, hrun, hbalance, product_never_decreases sample firstPowers haccounts hcreated hpool
    (by decide) hrun⟩

end Dex
end Composable
