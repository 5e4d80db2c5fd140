import Composable.Dex.Model

/-!
# `Dex.Routes` — what routes are, and what trades along them do

A stored route is a list of pools that exist, no longer than the limit (`Stored`); whether they
lead anywhere is not asked when it is stored. A trade pays the quote asset of each pool and
receives its base asset, which is what the next pool takes. So where the pools do form a chain
(`Connects`), what an outsider trades along it is one asset against the other: everything in
between cancels (`Trade.trans`, `exchangeAlong_trade`). Fees go to the owners of the pools, who get
something back when they trade themselves.
-/

namespace Composable
namespace Dex

open DutchAuction (CurrencyPair)

variable {A X F : Type} [DecidableEq A] [DecidableEq X] {cfg : Config A X F}
variable {s s' t : State A X F} {who : A} {p m r : X} {q n out : Nat} {l l' l'' : Ledger A X}
variable {node : DexRouteNode} {route : List DexRouteNode} {poolId : Nat} {pair : CurrencyPair X}

/-! ## Trades -/

/-- The account pays `q` of the asset `p` and receives `out` of `r`, and
    nothing else changes for it. -/
def Trade (who : A) (p r : X) (q out : Nat) (l l' : Ledger A X) : Prop :=
  ∀ y, l'.balance y who + (if y = p then q else 0) = l.balance y who + (if y = r then out else 0)

omit [DecidableEq A] in
/-- What one trade pays out, and the next one takes, cancels. -/
theorem Trade.trans (h : Trade who p m q n l l') (h' : Trade who m r n out l' l'') :
    Trade who p r q out l l'' := by
  intro y
  have hfirst := h y
  have hnext := h' y
  omega

/-- The three transfers of an exchange: to the pool, a fee to its owner, and from the pool. -/
theorem trade_of_moves {account owner : A} {z : X} {fee : Nat} (haccount : who ≠ account)
    (howner : who ≠ owner) (hfunded : q ≤ l.free p who) :
    Trade who p r q out l (((l.move p who account q).move z account owner fee).move r account who
      out) := by
  intro y
  simp only [Ledger.balance, Ledger.free_move, Ledger.reserved_move, haccount, haccount.symm,
    howner, and_false, and_true, if_false]
  split_ifs with hp hr hr <;> subst_vars <;> omega

/-! ## Exchanges -/

omit [DecidableEq A] [DecidableEq X] in
theorem arithmetic_ok {α : Type} {x : Except ArithmeticError α} {a : α} :
    (arithmetic x : DexCall A X F α) s = (.ok a, s') ↔ x = .ok a ∧ s' = s := by
  rw [arithmetic, Call.ofExcept_ok, exceptMapError_ok]

theorem transfer_ok {x : X} {a b : A} {k : Bool} {u : Unit} :
    transfer cfg x a b n k s = (.ok u, s') ↔
      cfg.assets.transferRefused s.ledger x a b n k = none ∧
        s' = s.withLedger (s.ledger.move x a b n) := by
  simp only [transfer, Call.zoom_ok, Currency.transfer_ok]
  constructor
  · rintro ⟨_, ⟨hrefused, rfl⟩, rfl⟩
    exact ⟨hrefused, rfl⟩
  · rintro ⟨hrefused, rfl⟩
    exact ⟨_, ⟨hrefused, rfl⟩, rfl⟩

omit [DecidableEq A] [DecidableEq X] in
theorem Curve.getPool_ok {pool : StableSwapPoolInfo A X} :
    (Curve.getPool poolId : DexCall A X F _) s = (.ok pool, s') ↔ s.curvePools poolId = some pool ∧
      s' = s := by
  rw [Curve.getPool, Call.get_bind, Call.ofOption_ok]

omit [DecidableEq A] [DecidableEq X] in
theorem Uniswap.getPool_ok {pool : ConstantProductPoolInfo A X} :
    (Uniswap.getPool poolId : DexCall A X F _) s = (.ok pool, s') ↔
      s.uniswapPools poolId = some pool ∧ s' = s := by
  rw [Uniswap.getPool, Call.get_bind, Call.ofOption_ok]

omit [DecidableEq A] in
theorem Curve.getExchangeValue_reads {x : X} : (Curve.getExchangeValue cfg poolId x n).Reads :=
  .bind (.bind .get fun _ => .ofOption _ _) fun _ => .bind .get fun _ => .bind (.ofExcept _) fun _ =>
    .bind (.ofExcept _) fun _ => .bind (.ofExcept _) fun _ => .ofExcept _

omit [DecidableEq A] in
/-- A swap of a StableSwap pool takes the whole amount; the fees are of what it is worth. -/
theorem Curve.doComputeSwap_ok {base quote lpFee protocolFee : Nat}
    (h : Curve.doComputeSwap cfg poolId pair q true s = (.ok (base, quote, lpFee, protocolFee), s')) :
    ∃ pool value, s.curvePools poolId = some pool ∧
      Curve.getExchangeValue cfg poolId pair.base q s = (.ok value, s) ∧
      lpFee = Fixed.mulFloor Fixed.permill pool.fee value ∧
      protocolFee = Fixed.mulFloor Fixed.permill pool.protocolFee lpFee ∧ base = value - lpFee ∧
      quote = q ∧ s' = s := by
  simp only [Curve.doComputeSwap, Call.bind_ok, Curve.getPool_ok, arithmetic_ok,
    Fixed.checkedSub_ok, Call.pure_ok, Prod.mk.injEq] at h
  obtain ⟨pool, t, ⟨hpool, rfl⟩, value, t', hvalue, without, t'', ⟨⟨-, rfl⟩, rfl⟩,
    ⟨rfl, rfl, rfl, rfl⟩, rfl⟩ := h
  obtain rfl := Curve.getExchangeValue_reads.ok hvalue
  exact ⟨pool, value, hpool, hvalue, rfl, rfl, rfl, rfl, rfl⟩

omit [DecidableEq A] [DecidableEq X] in
/-- A swap of a constant-product pool splits the amount into fees and the rest, which is priced. -/
theorem Uniswap.doComputeSwap_ok {base quote lpFee ownerFee : Nat}
    (h : Uniswap.doComputeSwap cfg poolId pair q true s = (.ok (base, quote, lpFee, ownerFee), s')) :
    ∃ pool, s.uniswapPools poolId = some pool ∧ lpFee = Fixed.mulFloor Fixed.permill pool.fee q ∧
      ownerFee = Fixed.mulFloor Fixed.permill pool.ownerFee q ∧ quote + (lpFee + ownerFee) = q ∧
      cfg.pricing.computeOutGivenIn (s.ledger.balance pair.quote (cfg.uniswapAccount poolId))
        (s.ledger.balance pair.base (cfg.uniswapAccount poolId)) quote = .ok base ∧
          (0 < base ∧ 0 < quote) ∧ s' = s := by
  simp only [Uniswap.doComputeSwap, Call.bind_ok, Uniswap.getPool_ok, Call.get_bind, arithmetic_ok,
    Fixed.checkedSub_ok, Call.ensure_ok, Call.pure_ok, Prod.mk.injEq] at h
  obtain ⟨pool, t, ⟨hpool, rfl⟩, after, t, ⟨⟨hlp, rfl⟩, rfl⟩, rest, t, ⟨⟨howner, rfl⟩, rfl⟩, out, t,
    ⟨hout, rfl⟩, _, t, ⟨hpaid, rfl⟩, ⟨rfl, rfl, rfl, rfl⟩, rfl⟩ := h
  exact ⟨pool, hpool, rfl, rfl, by omega, hout, hpaid, rfl⟩

/-- The pair of the pool of a node. -/
def nodePair (s : State A X F) : DexRouteNode → Option (CurrencyPair X)
  | .curve poolId => (s.curvePools poolId).map StableSwapPoolInfo.pair
  | .uniswap poolId => (s.uniswapPools poolId).map ConstantProductPoolInfo.pair

/-- The account is neither that of the pool nor its owner. -/
def Outsider (cfg : Config A X F) (s : State A X F) (who : A) : DexRouteNode → Prop
  | .curve poolId =>
      who ≠ cfg.curveAccount poolId ∧ ∀ pool, s.curvePools poolId = some pool → who ≠ pool.owner
  | .uniswap poolId =>
      who ≠ cfg.uniswapAccount poolId ∧ ∀ pool, s.uniswapPools poolId = some pool → who ≠ pool.owner

/-- Only the ledger has changed. -/
def LedgerOnly (s s' : State A X F) : Prop := s' = s.withLedger s'.ledger

omit [DecidableEq A] [DecidableEq X] in
theorem LedgerOnly.refl (s : State A X F) : LedgerOnly s s := rfl

omit [DecidableEq A] [DecidableEq X] in
theorem LedgerOnly.trans (h : LedgerOnly s t) (h' : LedgerOnly t s') : LedgerOnly s s' := by
  rw [LedgerOnly, h', h]
  rfl

/-- What an exchange of a StableSwap pool does: the amount goes to the pool, a part of the fee in
    the base asset to its owner. -/
theorem Curve.exchange_ok {minReceive : Nat} {k : Bool}
    (h : Curve.exchange cfg who poolId pair q minReceive k s = (.ok out, s')) :
    ∃ pool value fee, s.curvePools poolId = some pool ∧ samePair pair pool.pair ∧
      Curve.getExchangeValue cfg poolId pair.base q s = (.ok value, s) ∧
      out = value - Fixed.mulFloor Fixed.permill pool.fee value ∧
      fee = Fixed.mulFloor Fixed.permill pool.protocolFee
        (Fixed.mulFloor Fixed.permill pool.fee value) ∧
      cfg.assets.transferRefused s.ledger pair.quote who (cfg.curveAccount poolId) q k = none ∧
      cfg.assets.transferRefused (s.ledger.move pair.quote who (cfg.curveAccount poolId) q) pair.base
        (cfg.curveAccount poolId) pool.owner fee false = none ∧
      cfg.assets.transferRefused
        ((s.ledger.move pair.quote who (cfg.curveAccount poolId) q).move pair.base
        (cfg.curveAccount poolId) pool.owner fee) pair.base (cfg.curveAccount poolId) who out
          false = none ∧
      s' = s.withLedger (((s.ledger.move pair.quote who (cfg.curveAccount poolId) q).move pair.base
        (cfg.curveAccount poolId) pool.owner fee).move pair.base (cfg.curveAccount poolId) who
          out) := by
  simp only [Curve.exchange, Call.transactional_ok, Call.bind_ok, Curve.getPool_ok, Call.ensure_ok,
    transfer_ok, arithmetic_ok, Call.pure_ok] at h
  obtain ⟨pool, t, ⟨hpool, rfl⟩, _, t, ⟨hpair, rfl⟩, ⟨base, quote, lpFee, protocolFee⟩, t',
    hswap, h⟩ := h
  obtain ⟨pool', value, hpool', hvalue, rfl, rfl, rfl, rfl, rfl⟩ := Curve.doComputeSwap_ok hswap
  obtain rfl := Option.some.inj (hpool.symm.trans hpool')
  obtain ⟨_, t, ⟨-, rfl⟩, _, t, ⟨hpaid, rfl⟩, _, t, ⟨hfee, rfl⟩, _, t, ⟨hsent, rfl⟩, _, t, ⟨-, rfl⟩,
    rfl, rfl⟩ := h
  exact ⟨pool, value, _, hpool, hpair, hvalue, rfl, rfl, hpaid, hfee, hsent, rfl⟩

/-- And one of a constant-product pool: the amount goes to the pool, a fee in the quote asset to its
    owner, and what is left without the fees is priced. -/
theorem Uniswap.exchange_ok {minReceive : Nat} {k : Bool}
    (h : Uniswap.exchange cfg who poolId pair q minReceive k s = (.ok out, s')) :
    ∃ pool net lpFee ownerFee, s.uniswapPools poolId = some pool ∧ samePair pair pool.pair ∧
      (lpFee = Fixed.mulFloor Fixed.permill pool.fee q ∧
        ownerFee = Fixed.mulFloor Fixed.permill pool.ownerFee q) ∧
      net + (lpFee + ownerFee) = q ∧
      cfg.pricing.computeOutGivenIn (s.ledger.balance pair.quote (cfg.uniswapAccount poolId))
        (s.ledger.balance pair.base (cfg.uniswapAccount poolId)) net = .ok out ∧ (0 < out ∧ 0 < net) ∧
      cfg.assets.transferRefused s.ledger pair.quote who (cfg.uniswapAccount poolId) q k = none ∧
      s' = s.withLedger (((s.ledger.move pair.quote who (cfg.uniswapAccount poolId) q).move pair.quote
        (cfg.uniswapAccount poolId) pool.owner ownerFee).move pair.base (cfg.uniswapAccount poolId)
          who out) := by
  simp only [Uniswap.exchange, Call.transactional_ok, Call.bind_ok, Uniswap.getPool_ok,
    Call.ensure_ok, transfer_ok, arithmetic_ok, Fixed.checked_ok, Call.pure_ok] at h
  obtain ⟨pool, t, ⟨hpool, rfl⟩, _, t, ⟨hpair, rfl⟩, ⟨base, quote, lpFee, ownerFee⟩, t',
    hswap, h⟩ := h
  obtain ⟨pool', hpool', hlpFee, hownerFee, rfl, hout, hpos, rfl⟩ := Uniswap.doComputeSwap_ok hswap
  obtain rfl := Option.some.inj (hpool.symm.trans hpool')
  obtain ⟨fees, t, ⟨⟨-, rfl⟩, rfl⟩, paid, t, ⟨⟨-, rfl⟩, rfl⟩, _, t, ⟨-, rfl⟩, _, t, ⟨hpaid, rfl⟩, _,
    t, ⟨-, rfl⟩, _, t, ⟨-, rfl⟩, rfl, rfl⟩ := h
  exact ⟨pool, quote, lpFee, ownerFee, hpool, hpair, ⟨hlpFee, hownerFee⟩, rfl, hout, hpos, hpaid, rfl⟩

/-- The exchange of a node that goes through is of the pair of its pool. -/
theorem nodeExchange_ok (h : nodeExchange cfg who node q s = (.ok out, s')) :
    ∃ pair, nodePair s node = some pair ∧ LedgerOnly s s' ∧
      (Outsider cfg s who node → Trade who pair.quote pair.base q out s.ledger s'.ledger) := by
  cases node with
  | curve poolId =>
      simp only [nodeExchange, Curve.currencyPair, Call.bind_ok, Curve.getPool_ok, Call.pure_ok] at h
      obtain ⟨pair, t, ⟨pool, t', ⟨hpool, rfl⟩, rfl, rfl⟩, hexchange⟩ := h
      obtain ⟨pool', value, fee, hpool', -, -, -, -, hpaid, -, -, rfl⟩ := Curve.exchange_ok hexchange
      refine ⟨pool.pair, by rw [nodePair, hpool]; rfl, rfl, fun hout => ?_⟩
      exact trade_of_moves hout.1 (hout.2 pool' hpool') (cfg.assets.funded_of_transfer hpaid hout.1)
  | uniswap poolId =>
      simp only [nodeExchange, Uniswap.currencyPair, Call.bind_ok, Uniswap.getPool_ok,
        Call.pure_ok] at h
      obtain ⟨pair, t, ⟨pool, t', ⟨hpool, rfl⟩, rfl, rfl⟩, hexchange⟩ := h
      obtain ⟨pool', net, lpFee, ownerFee, hpool', -, -, -, -, -, hpaid, rfl⟩ :=
        Uniswap.exchange_ok hexchange
      refine ⟨pool.pair, by rw [nodePair, hpool]; rfl, rfl, fun hout => ?_⟩
      exact trade_of_moves hout.1 (hout.2 pool' hpool') (cfg.assets.funded_of_transfer hpaid hout.1)

/-- The exchange of a node that fails changes nothing. -/
theorem nodeExchange_atomic (cfg : Config A X F) (who : A) (node : DexRouteNode) (q : Nat)
    (s : State A X F) : (nodeExchange cfg who node q).Atomic s := by
  cases node with
  | curve poolId =>
      have hreads : (Curve.currencyPair poolId : DexCall A X F _).Reads :=
        .bind (.bind .get fun _ => .ofOption _ _) fun _ => .pure _
      rw [nodeExchange, Call.atomic_bind hreads]
      exact fun pair _ e t ht => Call.transactional_error ht
  | uniswap poolId =>
      have hreads : (Uniswap.currencyPair poolId : DexCall A X F _).Reads :=
        .bind (.bind .get fun _ => .ofOption _ _) fun _ => .pure _
      rw [nodeExchange, Call.atomic_bind hreads]
      exact fun pair _ e t ht => Call.transactional_error ht

/-- The exchange of a node changes the ledger only, and not even that when it fails. -/
theorem nodeExchange_outcome (cfg : Config A X F) (who : A) (node : DexRouteNode) (q : Nat)
    (s : State A X F) :
    Call.Outcome (fun _ => LedgerOnly s) (fun _ => LedgerOnly s) (nodeExchange cfg who node q s) := by
  refine Call.outcome_iff.mpr ⟨fun out t ht => ?_, fun e t ht => ?_⟩
  · obtain ⟨pair, -, honly, -⟩ := nodeExchange_ok ht
    exact honly
  · rw [nodeExchange_atomic cfg who node q s e t ht]
    exact .refl s

/-! ## Chains -/

/-- The pools form a chain from the asset `p` to the asset `r`: each hop pays the quote asset of its
    pool and receives its base asset, which is what the next hop pays. -/
def Connects (s : State A X F) (p r : X) : List DexRouteNode → Prop
  | [] => p = r
  | node :: route =>
      ∃ pair, nodePair s node = some pair ∧ pair.quote = p ∧ Connects s pair.base r route

omit [DecidableEq A] [DecidableEq X] in
theorem LedgerOnly.connects (h : LedgerOnly s s') (hconnects : Connects s p r route) :
    Connects s' p r route := by
  rw [h]
  induction route generalizing p with
  | nil => exact hconnects
  | cons node route ih =>
      obtain ⟨pair, hpair, hquote, hrest⟩ := hconnects
      refine ⟨pair, ?_, hquote, ih hrest⟩
      cases node <;> exact hpair

omit [DecidableEq A] [DecidableEq X] in
theorem LedgerOnly.outsider (h : LedgerOnly s s') (hout : Outsider cfg s who node) :
    Outsider cfg s' who node := by
  rw [h]
  cases node <;> exact hout

/-- **A route that connects two assets** trades one against the other. By induction on the route:
    one hop, then the rest of it from what the hop has paid out. -/
theorem exchangeAlong_trade (hconnects : Connects s p r route)
    (hout : ∀ node ∈ route, Outsider cfg s who node)
    (hstart : route = [] → n = q) (h : exchangeAlong cfg who route q n s = (.ok out, s')) :
    Trade who p r q out s.ledger s'.ledger := by
  induction route generalizing s p q n with
  | nil =>
      obtain ⟨rfl, rfl⟩ := Call.pure_ok.mp h
      obtain rfl : p = r := hconnects
      rw [hstart rfl]
      exact fun y => rfl
  | cons node route ih =>
      obtain ⟨pair, hpair, rfl, hrest⟩ := hconnects
      simp only [exchangeAlong, Call.bind_ok] at h
      obtain ⟨dy, t, hhop, halong⟩ := h
      obtain ⟨pair', hpair', honly, htrade⟩ := nodeExchange_ok hhop
      obtain rfl := Option.some.inj (hpair.symm.trans hpair')
      have hlater := ih (honly.connects hrest)
        (fun node' hnode => honly.outsider (hout node' (List.mem_cons_of_mem node hnode)))
          (fun _ => rfl) halong
      exact (htrade (hout node List.mem_cons_self)).trans hlater

/-- Whatever a route is, trading along it changes the ledger only. -/
theorem exchangeAlong_outcome (cfg : Config A X F) (who : A) (route : List DexRouteNode) (q n : Nat)
    (honly : LedgerOnly t s) :
    Call.Outcome (fun _ => LedgerOnly t) (fun _ => LedgerOnly t)
      (exchangeAlong cfg who route q n s) := by
  induction route generalizing s q n with
  | nil => exact honly
  | cons node route ih =>
      rw [exchangeAlong, Call.outcome_bind]
      obtain ⟨hok, herror⟩ := Call.outcome_iff.mp (nodeExchange_outcome cfg who node q s)
      exact Call.outcome_iff.mpr ⟨fun dy t' ht => ih _ _ (honly.trans (hok dy t' ht)), fun e t' ht =>
        honly.trans (herror e t' ht)⟩

/-- The second loop of `buy` is that of `exchange`. -/
theorem buyAlong_eq : buyAlong cfg who route q = exchangeAlong cfg who route q q := by
  induction route generalizing q with
  | nil => rfl
  | cons node route ih =>
      rw [buyAlong, exchangeAlong]
      congr 1
      funext dy
      exact ih

/-! ## Stored routes -/

/-- The pair and the route of an update, if all pools of the route exist. -/
def updated (s : State A X F) : Op cfg → Option (CurrencyPair X × List DexRouteNode)
  | .updateRoute pair (some route) =>
      if ∀ node ∈ route.val, nodeExists s node = true then some (pair, route.val) else none
  | _ => none

/-- Stored routes are within the limit, their pools exist, and they are from an
    update made when they did. -/
structure Stored (cfg : Config A X F) (s : State A X F)
    (updates : List (CurrencyPair X × List DexRouteNode)) : Prop where
  length : ∀ pair route, getRoute s pair = some route → route.length ≤ cfg.maxHopsInRoute
  pools : ∀ pair route, getRoute s pair = some route → ∀ node ∈ route, nodeExists s node = true
  updated : ∀ pair route, getRoute s pair = some route → (pair, route) ∈ updates

/-- Routes are the same, and pools that existed still do, with the pairs they had. -/
structure Grows (s s' : State A X F) : Prop where
  routes : s'.dexRoutes = s.dexRoutes
  pools : ∀ node, nodeExists s node = true → nodeExists s' node = true

omit [DecidableEq A] [DecidableEq X] in
theorem LedgerOnly.grows (h : LedgerOnly s s') : Grows s s' := by
  rw [h]
  exact ⟨rfl, fun node hnode => by cases node <;> exact hnode⟩

variable {updates : List (CurrencyPair X × List DexRouteNode)}

omit [DecidableEq A] [DecidableEq X] in
theorem Stored.grows (h : Stored cfg s updates) (hgrows : Grows s s') : Stored cfg s' updates := by
  have hsame : ∀ pair, getRoute s' pair = getRoute s pair :=
    fun pair => by rw [getRoute, hgrows.routes, getRoute]
  refine ⟨fun pair route hroute => ?_, fun pair route hroute node hnode => ?_,
    fun pair route hroute => ?_⟩
  · exact h.length pair route (hsame pair ▸ hroute)
  · exact hgrows.pools node (h.pools pair route (hsame pair ▸ hroute) node hnode)
  · exact h.updated pair route (hsame pair ▸ hroute)

omit [DecidableEq A] [DecidableEq X] in
theorem createLpToken_ok {x : X} (h : createLpToken cfg s = (.ok x, s')) :
    ∃ factory, cfg.currencyFactory.create s.factory .lpTokens = .ok (x, factory) ∧
      s' = { s with factory := factory } := by
  simp only [createLpToken, Call.get_bind, Call.bind_ok, Call.ofExcept_ok, exceptMapError_ok,
    Call.modify_ok, Call.pure_ok] at h
  obtain ⟨⟨_, factory⟩, t, ⟨hcreated, rfl⟩, -, t', rfl, rfl, rfl⟩ := h
  exact ⟨factory, hcreated, rfl⟩

omit [DecidableEq A] [DecidableEq X] in
theorem totalFees_ok {fee ownerFee : Nat} {e : Error} {u : Unit}
    (h : totalFees fee ownerFee e s = (.ok u, s')) : fee + ownerFee < Fixed.permill ∧ s' = s := by
  simp only [totalFees, Call.bind_ok, Call.ensure_ok] at h
  obtain ⟨_, t, ⟨-, rfl⟩, hlt, rfl⟩ := h
  exact ⟨hlt, rfl⟩

omit [DecidableEq A] in
/-- A new pool is stored under the next id. -/
theorem Curve.doCreatePool_ok {amp fee protocolFee id : Nat}
    (h : Curve.doCreatePool cfg who pair amp fee protocolFee s = (.ok id, s')) :
    pair.base ≠ pair.quote ∧ fee + protocolFee < Fixed.permill ∧ s.curvePoolCount < cfg.maxPoolId ∧
      ∃ lpToken factory,
      cfg.currencyFactory.create s.factory .lpTokens = .ok (lpToken, factory) ∧ s' =
      { s with
        factory := factory
        curvePools :=
      Function.update s.curvePools s.curvePoolCount (some ⟨who, pair, lpToken, amp, fee, protocolFee⟩)
        curvePoolCount := s.curvePoolCount + 1 } := by
  simp only [Curve.doCreatePool, Call.transactional_ok, Call.bind_ok, Call.get_bind, Call.ensure_ok,
    Call.modify_ok, Call.pure_ok] at h
  obtain ⟨_, t, ⟨hpair, rfl⟩, _, t, hfees, x, t', hlp, _, t'', rfl, _, t₃, ⟨hcount, rfl⟩, _, t₄,
    rfl, -, rfl⟩ := h
  obtain ⟨hlt, rfl⟩ := totalFees_ok hfees
  obtain ⟨factory, hcreated, rfl⟩ := createLpToken_ok hlp
  exact ⟨hpair, hlt, hcount, x, factory, hcreated, rfl⟩

omit [DecidableEq A] in
theorem Curve.doCreatePool_grows {amp fee protocolFee id : Nat}
    (h : Curve.doCreatePool cfg who pair amp fee protocolFee s = (.ok id, s')) : Grows s s' := by
  obtain ⟨-, -, -, lpToken, factory, -, rfl⟩ := Curve.doCreatePool_ok h
  refine ⟨rfl, fun node hnode => ?_⟩
  cases node with
  | curve poolId =>
      simp only [nodeExists, Curve.poolExists, Function.update_apply] at hnode ⊢
      split
      · rfl
      · exact hnode
  | uniswap poolId => exact hnode

omit [DecidableEq A] in
theorem Uniswap.doCreatePool_ok {fee ownerFee id : Nat}
    (h : Uniswap.doCreatePool cfg who pair fee ownerFee s = (.ok id, s')) :
    pair.base ≠ pair.quote ∧ fee + ownerFee < Fixed.permill ∧ s.uniswapPoolCount < cfg.maxPoolId ∧
      ∃ lpToken factory,
      cfg.currencyFactory.create s.factory .lpTokens = .ok (lpToken, factory) ∧ s' =
      { s with
        factory := factory
        uniswapPools :=
      Function.update s.uniswapPools s.uniswapPoolCount (some ⟨who, pair, lpToken, fee, ownerFee⟩)
        uniswapPoolCount := s.uniswapPoolCount + 1 } := by
  simp only [Uniswap.doCreatePool, Call.transactional_ok, Call.bind_ok, Call.get_bind,
    Call.ensure_ok, Call.modify_ok, Call.pure_ok] at h
  obtain ⟨_, t, ⟨hpair, rfl⟩, _, t, hfees, x, t', hlp, _, t'', rfl, _, t₃, ⟨hcount, rfl⟩, _, t₄,
    rfl, -, rfl⟩ := h
  obtain ⟨hlt, rfl⟩ := totalFees_ok hfees
  obtain ⟨factory, hcreated, rfl⟩ := createLpToken_ok hlp
  exact ⟨hpair, hlt, hcount, x, factory, hcreated, rfl⟩

omit [DecidableEq A] in
theorem Uniswap.doCreatePool_grows {fee ownerFee id : Nat}
    (h : Uniswap.doCreatePool cfg who pair fee ownerFee s = (.ok id, s')) : Grows s s' := by
  obtain ⟨-, -, -, lpToken, factory, -, rfl⟩ := Uniswap.doCreatePool_ok h
  refine ⟨rfl, fun node hnode => ?_⟩
  cases node with
  | curve poolId => exact hnode
  | uniswap poolId =>
      simp only [nodeExists, Uniswap.poolExists, Function.update_apply] at hnode ⊢
      split
      · rfl
      · exact hnode

omit [DecidableEq A] in
theorem getRoute_setRoute {pair' : CurrencyPair X} {stored : Option (List DexRouteNode)} :
    getRoute (s.setRoute pair stored) pair' = if pair' = pair then stored else getRoute s pair' := by
  obtain ⟨base, quote⟩ := pair
  obtain ⟨base', quote'⟩ := pair'
  simp only [getRoute, State.setRoute, Function.update_apply, CurrencyPair.mk.injEq]
  by_cases hbase : base' = base
  · by_cases hquote : quote' = quote <;> simp [hbase, hquote]
  · simp [hbase]

omit [DecidableEq A] [DecidableEq X] in
/-- The checks of an update pass when all pools exist, and change nothing. -/
theorem checks_ok {u : Unit} :
    Call.forEach route (fun node => (do
      let s ← Call.get
      Call.ensure (nodeExists s node = true) (.module (.router .poolDoesNotExist)) :
          DexCall A X F Unit)) s = (.ok u, s') ↔
      (∀ node ∈ route, nodeExists s node = true) ∧ s' = s := by
  induction route generalizing s with
  | nil =>
      rw [Call.forEach]
      exact Call.pure_ok.trans ⟨fun h => ⟨nofun, h.2⟩, fun h => ⟨rfl, h.2⟩⟩
  | cons node route ih =>
      show (Call.ensure (nodeExists s node = true) _ >>= fun _ => Call.forEach route _) s = _ ↔ _
      simp only [Call.bind_ok, Call.ensure_ok, List.forall_mem_cons]
      constructor
      · rintro ⟨_, t, ⟨hnode, rfl⟩, hrest⟩
        obtain ⟨hroute, rfl⟩ := ih.mp hrest
        exact ⟨⟨hnode, hroute⟩, rfl⟩
      · rintro ⟨⟨hnode, hroute⟩, rfl⟩
        exact ⟨(), s', ⟨hnode, rfl⟩, ih.mpr ⟨hroute, rfl⟩⟩

omit [DecidableEq A] in
/-- **An update** stores the route if all of its pools exist, and changes nothing otherwise. -/
theorem doUpdateRoute_outcome (s : State A X F) (pair : CurrencyPair X) (route : Route cfg) :
    Call.Outcome (fun _ s' => (∀ node ∈ route.val, nodeExists s node = true) ∧
      s' = s.setRoute pair (some route.val))
      (fun _ s' => ¬ (∀ node ∈ route.val, nodeExists s node = true) ∧
        s' = s) (doUpdateRoute cfg pair route s) := by
  rw [doUpdateRoute, Call.outcome_bind]
  refine Call.outcome_iff.mpr ⟨fun u t ht => ?_, fun e t ht => ⟨fun hall => ?_, ?_⟩⟩
  · obtain ⟨hall, rfl⟩ := checks_ok.mp ht
    exact ⟨hall, rfl⟩
  · have hok := (checks_ok (u := ())).mpr ⟨hall, rfl⟩
    cases ht.symm.trans hok
  · exact Call.Reads.error (.forEach fun node => .bind .get fun _ => .ensure _ _) ht

omit [DecidableEq A] in
/-- Another route for the pair, of pools that exist. -/
theorem Stored.setRoute {stored : Option (List DexRouteNode)} (h : Stored cfg s updates)
    (hlength : ∀ route, stored = some route → route.length ≤ cfg.maxHopsInRoute)
    (hpools : ∀ route, stored = some route → ∀ node ∈ route, nodeExists s node = true) :
    Stored cfg (s.setRoute pair stored)
      (updates ++ (stored.map fun route => (pair, route)).toList) := by
  refine ⟨fun pair' route hroute => ?_, fun pair' route hroute node hnode => ?_,
    fun pair' route hroute => ?_⟩
  · rw [getRoute_setRoute] at hroute
    split at hroute
    · exact hlength route hroute
    · exact h.length pair' route hroute
  · have hexists : nodeExists s node = true := by
      rw [getRoute_setRoute] at hroute
      split at hroute
      · exact hpools route hroute node hnode
      · exact h.pools pair' route hroute node hnode
    cases node <;> exact hexists
  · rw [getRoute_setRoute] at hroute
    split at hroute
    next heq =>
      rw [heq, hroute]
      exact List.mem_append_right _ (List.mem_singleton_self _)
    next => exact List.mem_append_left _ (h.updated pair' route hroute)

omit [DecidableEq A] in
theorem Stored.updateRoute {update : Option (Route cfg)} (h : Stored cfg s updates) :
    Stored cfg (dispatch (updateRoute cfg pair update) s)
      (updates ++ (Dex.updated s (.updateRoute pair update : Op cfg)).toList) := by
  cases update with
  | none => exact h.setRoute nofun nofun
  | some route =>
      have houtcome := doUpdateRoute_outcome s pair route
      show Stored cfg (dispatch (doUpdateRoute cfg pair route) s) _
      rw [Dex.updated]
      unfold dispatch
      rcases hcall : doUpdateRoute cfg pair route s with ⟨e | u, t⟩
      · rw [hcall] at houtcome
        obtain ⟨hnot, rfl⟩ := houtcome
        rw [if_neg hnot, Option.toList_none, List.append_nil]
        cases e <;> exact h
      · rw [hcall] at houtcome
        obtain ⟨hall, rfl⟩ := houtcome
        rw [if_pos hall]
        refine h.setRoute (fun route' heq => ?_) fun route' heq => ?_
        · exact Option.some.inj heq ▸ route.property
        · exact Option.some.inj heq ▸ hall

/-! ## All runs -/

/-- Trading, also one that fails half-way, changes the ledger only. -/
theorem exchange_only (s : State A X F) (who : A) (pair : CurrencyPair X) (dx : Nat) :
    LedgerOnly s (dispatch (exchange cfg who pair dx) s) := by
  apply dispatch_of_outcome (I := LedgerOnly s) (.refl s)
  rw [exchange, Call.get_bind]
  simp only [Call.outcome_bind, Call.outcome_ofOption]
  refine ⟨fun route _ => ?_, fun _ => .inr rfl⟩
  obtain ⟨hok, herror⟩ := Call.outcome_iff.mp (exchangeAlong_outcome cfg who route dx 0 (.refl s))
  exact Call.outcome_iff.mpr ⟨hok, fun e t ht => .inr (herror e t ht)⟩

omit [DecidableEq A] in
theorem nodeValue_reads : (nodeValue cfg node q).Reads := by
  cases node with
  | curve poolId =>
      exact .bind (.bind (.bind .get fun _ => .ofOption _ _) fun _ => .pure _) fun _ =>
        Curve.getExchangeValue_reads
  | uniswap poolId =>
      refine .bind (.bind (.bind .get fun _ => .ofOption _ _) fun _ => .pure _) fun pair => ?_
      refine .bind (.bind .get fun _ => .ofOption _ _) fun pool => .bind .get fun s => ?_
      split
      · exact .ofExcept _
      · exact .ofExcept _

omit [DecidableEq A] in
theorem valueAlong_reads : (valueAlong cfg route q n).Reads := by
  induction route generalizing q n with
  | nil => exact .pure _
  | cons node route ih => exact .bind nodeValue_reads fun _ => ih

theorem buy_only (s : State A X F) (who : A) (pair : CurrencyPair X) (amount : Nat) :
    LedgerOnly s (dispatch (buy cfg who pair amount) s) := by
  apply dispatch_of_outcome (I := LedgerOnly s) (.refl s)
  rw [buy, Call.get_bind]
  simp only [Call.outcome_bind, Call.outcome_ofOption]
  refine ⟨fun route _ => Call.outcome_iff.mpr ⟨fun dx t ht => ?_, fun e t ht => .inr ?_⟩,
    fun _ => .inr rfl⟩
  · obtain rfl := valueAlong_reads.ok ht
    rw [buyAlong_eq]
    obtain ⟨hok, herror⟩ := Call.outcome_iff.mp (exchangeAlong_outcome cfg who route dx dx (.refl t))
    exact Call.outcome_iff.mpr ⟨hok, fun e t ht => .inr (herror e t ht)⟩
  · rw [valueAlong_reads.error ht]
    exact rfl

omit [DecidableEq A] [DecidableEq X] in
/-- Creating a pool goes through, or changes nothing. -/
theorem grows_of_created {x : DexCall A X F Nat} (hok : ∀ id t, x s = (.ok id, t) → Grows s t)
    (herror : ∀ e t, x s = (.error e, t) → t = s) : Grows s (dispatch x s) := by
  rcases dispatch_cases x s with ⟨id, hx⟩ | ⟨-, hsame | ⟨e, hx⟩⟩
  · exact hok id _ hx
  · rw [hsame]
    exact LedgerOnly.grows rfl
  · rw [herror e _ hx]
    exact LedgerOnly.grows rfl

/-- **Step lemma.** -/
theorem Stored.step {op : Op cfg} (h : Stored cfg s updates) (hstep : step cfg s op = some s') :
    Stored cfg s' (updates ++ (Dex.updated s op).toList) := by
  have hmore : ∀ {t}, Grows s t →
      Stored cfg t (updates ++ (none : Option (CurrencyPair X × List DexRouteNode)).toList) := by
    intro t hgrows
    rw [Option.toList_none, List.append_nil]
    exact h.grows hgrows
  cases op with
  | createCurve who pair amp fee protocolFee =>
      obtain rfl := Option.some.inj hstep
      exact hmore (grows_of_created (fun _ _ => Curve.doCreatePool_grows) fun _ _ =>
        Call.transactional_error)
  | createUniswap who pair fee ownerFee =>
      obtain rfl := Option.some.inj hstep
      exact hmore (grows_of_created (fun _ _ => Uniswap.doCreatePool_grows) fun _ _ =>
        Call.transactional_error)
  | updateRoute pair update =>
      obtain rfl := Option.some.inj hstep
      exact h.updateRoute
  | exchange who pair dx | sell who pair amount =>
      obtain rfl := Option.some.inj hstep
      exact hmore (exchange_only s who pair _).grows
  | buy who pair amount =>
      obtain rfl := Option.some.inj hstep
      exact hmore (buy_only s who pair amount).grows

/-- **Routes**: in a run of any calls, a stored route is within the limit, was stored by an update
    when all of its pools existed, and they still do. Where the pools form a chain from one asset to
    another, what an outsider trades along it is the amount of the one against what comes out of the
    other, and its other balances stay. -/
theorem routes_trade (cfg : Config A X F) (ledger : Ledger A X) (factory : F) {ops : List (Op cfg)}
    (hrun : run (step cfg) (State.genesis ledger factory) ops = some s)
    (hroute : getRoute s pair = some route) : (route.length ≤ cfg.maxHopsInRoute ∧
      (pair, route) ∈ history (step cfg) updated (State.genesis ledger factory) ops ∧
      ∀ node ∈ route, nodeExists s node = true) ∧
    ∀ p r who q out s', route ≠ [] → Connects s p r route →
      (∀ node ∈ route, Outsider cfg s who node) →
      exchange cfg who pair q s = (.ok out, s') → Trade who p r q out s.ledger s'.ledger := by
  constructor
  · have hstart : Stored cfg (State.genesis ledger factory) [] := ⟨nofun, nofun, nofun⟩
    have hend := history_collect (fun h _ hstep => h.step hstep) hstart (along_true _ _) hrun
    exact ⟨hend.length pair route hroute, hend.updated pair route hroute,
      hend.pools pair route hroute⟩
  · intro p r who q out s' hnonempty hconnects hout hexchange
    simp only [exchange, Call.get_bind, Call.bind_ok, Call.ofOption_ok] at hexchange
    -- The route that is exchanged along is the one that is stored.
    obtain ⟨route', t, ⟨hstored, rfl⟩, halong⟩ := hexchange
    obtain rfl := Option.some.inj (hroute.symm.trans hstored)
    exact exchangeAlong_trade hconnects hout (fun hempty => absurd hempty hnonempty) halong

/-! ## A small exchange -/

theorem sample_exact : (Currency.existential fun _ => 1 : Currency Nat Nat).Exact :=
  Currency.existential_exact _

/-- Accounts and assets are numbers. Constant-product pools pay `b * a / (q + a)` for `a`, and
    StableSwap pools keep the sum of their balances. -/
def sample : Config Nat Nat Nat where
  assets := Currency.existential fun _ => 1
  assets_exact := sample_exact
  currencyFactory := CurrencyFactory.counter
  pricing :=
    { computeD := fun base quote _ => .ok (base + quote)
      computeBase := fun quote _ d => .ok (d - quote)
      computeOutGivenIn :=
        fun quoteBalance baseBalance amount => .ok (baseBalance * amount / (quoteBalance + amount))
      computeInGivenOut :=
        fun quoteBalance baseBalance amount => .ok (quoteBalance * amount / (baseBalance - amount)) }
  curveAccount n := 1000 + n
  uniswapAccount n := 2000 + n
  maxPoolId := 100
  maxHopsInRoute := 4

/-- The pools have funds, and so have the accounts `8` and `9`. -/
def sampleLedger : Ledger Nat Nat :=
  Ledger.ofList [(1, 2000, 1000000), (2, 2000, 1000000), (1, 1000, 5000), (3, 1000, 5000), (1, 8, 10),
    (2, 8, 10000), (2, 9, 10000)]

/-- Account `9` creates a pool with an owner fee of a tenth, and one pool is stored as the route of
    its own pair, of a pair that it has nothing to do with, and nothing is stored for a third. -/
def sampleOps : List (Op sample) :=
  [.createUniswap 9 ⟨1, 2⟩ 0 100000, .updateRoute ⟨1, 2⟩ (some ⟨[.uniswap 0], by decide⟩),
    .updateRoute ⟨3, 4⟩ (some ⟨[.uniswap 0], by decide⟩), .updateRoute ⟨5, 6⟩ (some ⟨[], by decide⟩)]

/-- The stored routes need not connect their pairs, and may be empty; and the owner of a pool, who
    trades in it, gets the fee back. -/
theorem routes_lead_elsewhere :
    ∃ s, run (step sample) (State.genesis sampleLedger 7) sampleOps = some s ∧
      (getRoute s ⟨3, 4⟩ = some [.uniswap 0] ∧ nodePair s (.uniswap 0) = some ⟨1, 2⟩) ∧
      getRoute s ⟨5, 6⟩ = some [] ∧
      getRoute s ⟨1, 2⟩ = some [.uniswap 0] ∧
      ∃ out s', exchange sample 9 ⟨1, 2⟩ 1000 s = (.ok out, s') ∧
      ¬ Trade 9 2 1 1000 out s.ledger s'.ledger := by
  refine ⟨_, rfl, by decide, by decide, by decide, _, _, rfl, fun htrade => ?_⟩
  exact absurd (htrade 2) (by decide)

/-- Two hops, through a constant-product pool and a StableSwap pool. -/
def sampleHops : List (Op sample) :=
  [.createUniswap 9 ⟨1, 2⟩ 0 100000, .createCurve 9 ⟨3, 1⟩ 10 0 0,
    .updateRoute ⟨3, 2⟩ (some ⟨[.uniswap 0, .curve 0], by decide⟩)]

theorem routes_trade_sample :
    ∃ s out s', exchange sample 8 ⟨3, 2⟩ 1000 s = (.ok out, s') ∧
      Trade 8 2 3 1000 out s.ledger s'.ledger := by
  have hrun : ∃ s, run (step sample) (State.genesis sampleLedger 7) sampleHops = some s ∧
      getRoute s ⟨3, 2⟩ = some [.uniswap 0, .curve 0] ∧ Connects s 2 3 [.uniswap 0, .curve 0] ∧
      (∀ node ∈ [.uniswap 0, .curve 0], Outsider sample s 8 node) ∧
      ∃ out s', exchange sample 8 ⟨3, 2⟩ 1000 s = (.ok out, s') := by
    refine ⟨_, rfl, by decide, ⟨⟨1, 2⟩, by decide, rfl, ⟨3, 1⟩, by decide, rfl, rfl⟩, ?_, _, _, rfl⟩
    intro node hnode
    rcases List.mem_cons.mp hnode with rfl | hnode
    · refine ⟨by decide, fun pool hpool => ?_⟩
      obtain rfl := Option.some.inj hpool
      decide
    · rw [List.mem_singleton.mp hnode]
      refine ⟨by decide, fun pool hpool => ?_⟩
      obtain rfl := Option.some.inj hpool
      decide
  obtain ⟨s, hs, hroute, hconnects, hout, out, s', hexchange⟩ := hrun
  have htrades := (routes_trade sample sampleLedger 7 hs hroute).2
  exact ⟨s, out, s', hexchange, htrades 2 3 8 1000 out s' (by decide) hconnects hout hexchange⟩

end Dex
end Composable
