import Composable.Dex.ConstantProduct
import Composable.Dex.StableSwap
import Mathlib.Algebra.Order.Floor.Semifield

/-!
# `Dex.Purchases` — what a purchase delivers

`buy` is told the amount to receive, computes what to pay for it, and exchanges that. A StableSwap
pool computes it with the two assets exchanged: what an amount of the *other* asset would be worth.
Selling that much gives back the amount only if the curve is its own mirror image there
(`MirrorsAmount`), which `buy_delivers` compares with what is delivered. The amount that is returned
is the requested one in any case.

A constant-product pool has two formulas and takes the one of a sale for its quote asset. What is
paid is then less than the exact price, and `purchase_bounds_iff` says when it still buys enough;
the base asset is bought at the right price.
-/

namespace Composable
namespace Dex

open DutchAuction (CurrencyPair)

variable {A X F : Type} [DecidableEq A] [DecidableEq X]

/-- The pair of a pool in the order in which an asset of it is bought. -/
def boughtPair (pair : CurrencyPair X) (asset : X) : CurrencyPair X :=
  if asset = pair.base then pair else swap pair

/-- The asset is one of the pair. -/
def OfPair (pair : CurrencyPair X) (asset : X) : Prop := asset = pair.base ∨ asset = pair.quote

instance (pair : CurrencyPair X) (asset : X) : Decidable (OfPair pair asset) :=
  inferInstanceAs (Decidable (_ ∨ _))

variable {pair : CurrencyPair X} {asset : X}

theorem base_boughtPair (h : OfPair pair asset) : (boughtPair pair asset).base = asset := by
  unfold boughtPair
  by_cases hbase : asset = pair.base
  · rw [if_pos hbase, hbase]
  · rw [if_neg hbase]
    exact (h.resolve_left hbase).symm

theorem samePair_boughtPair : samePair (boughtPair pair asset) pair := by
  unfold boughtPair
  split
  · exact .inl ⟨rfl, rfl⟩
  · exact .inr ⟨rfl, rfl⟩

theorem boughtPair_ne (hne : pair.base ≠ pair.quote) :
    (boughtPair pair asset).base ≠ (boughtPair pair asset).quote := by
  unfold boughtPair
  split
  · exact hne
  · exact hne.symm

/-! ## StableSwap pools -/

namespace Curve

variable (cfg : Config A X F)

def buy (who : A) (poolId : Nat) (asset : X) (amount : Nat) (keepAlive : Bool) : DexCall A X F Nat :=
  Call.transactional do
    let pool ← getPool poolId
    let pair := if asset = pool.pair.base then pool.pair else swap pool.pair
    -- The price is computed as if the amount was sold.
    let dx ← getExchangeValue cfg poolId asset amount
    let _ ← exchange cfg who poolId pair dx 0 keepAlive
    pure amount

end Curve

variable {cfg : Config A X F} {s s' : State A X F} {who : A} {id amount got : Nat} {k : Bool}
variable {pool : StableSwapPoolInfo A X}

/-- A purchase is an exchange of what the amount would be worth, and returns the amount. -/
theorem Curve.buy_ok (h : Curve.buy cfg who id asset amount k s = (.ok got, s')) :
    ∃ pool value out, s.curvePools id = some pool ∧
      Curve.getExchangeValue cfg id asset amount s = (.ok value, s) ∧
      Curve.exchange cfg who id (boughtPair pool.pair asset) value 0 k s = (.ok out, s') ∧
      got = amount := by
  simp only [Curve.buy, Call.transactional_ok, Call.bind_ok, Curve.getPool_ok, Call.pure_ok] at h
  obtain ⟨pool, t, ⟨hpool, rfl⟩, value, t', hvalue, out, t'', hexchange, rfl, rfl⟩ := h
  obtain rfl := Curve.getExchangeValue_reads.ok hvalue
  exact ⟨pool, value, out, hpool, hvalue, hexchange, rfl⟩

/-- Without a fee who exchanges receives what the amount is worth. -/
theorem balance_of_exchange {pair : CurrencyPair X} {q out : Nat}
    (hpool : s.curvePools id = some pool)
    (hfee : pool.fee = 0) (hne : pair.base ≠ pair.quote) (hwho : who ≠ cfg.curveAccount id)
    (h : Curve.exchange cfg who id pair q 0 k s = (.ok out, s')) :
    Curve.getExchangeValue cfg id pair.base q s = (.ok out, s) ∧
      s'.ledger.balance pair.base who = s.ledger.balance pair.base who + out := by
  obtain ⟨pool', value, fee, hpool', -, hvalue, hout, hzero, -, -, -, rfl⟩ := Curve.exchange_ok h
  obtain rfl := Option.some.inj (hpool.symm.trans hpool')
  have hwhole : out = value ∧ fee = 0 := by
    simp [hout, hzero, hfee, Fixed.mulFloor]
  obtain ⟨rfl, rfl⟩ := hwhole
  refine ⟨hvalue, ?_⟩
  simp only [Ledger.move_zero, State.withLedger]
  rw [Ledger.balance_move_to hwho.symm, Ledger.balance_move_of_ne_asset hne]

/-- Two amounts differ by at most two units. -/
def CloseTo (n m : Nat) : Prop := n ≤ m + 2 ∧ m ≤ n + 2

instance (n m : Nat) : Decidable (CloseTo n m) := inferInstanceAs (Decidable (_ ∧ _))

/-- With reserves of `base` and `quote`, `value` is what `amount` would be worth, and `out` what
`value` is: each rounded to a point that solves the equation of the pool. -/
structure Mirrors (ann d base quote amount value out : Nat) : Prop where
  value_le : value ≤ base
  out_le : out ≤ base
  there : OnCurve ann d (quote + amount) (base - value)
  back : OnCurve ann d (quote + value) (base - out)

/-- Wherever the points are rounded to, the amount comes back up to two units. -/
def MirrorsAmount (ann d base quote amount : Nat) : Prop :=
  ∀ value out, Mirrors ann d base quote amount value out → CloseTo out amount

/-- What a purchase delivers is worth what the amount is worth. -/
theorem mirrors_of_buy (hpool : s.curvePools id = some pool) (hfee : pool.fee = 0)
    (hne : pool.pair.base ≠ pool.pair.quote) (hasset : OfPair pool.pair asset)
    (hwho : who ≠ cfg.curveAccount id)
    (h : Curve.buy cfg.withNewton who id asset amount k s = (.ok got, s')) :
    got = amount ∧ ∃ d value out,
      computeD (reserve cfg id s (boughtPair pool.pair asset).base)
        (reserve cfg id s (boughtPair pool.pair asset).quote)
        pool.amplificationCoefficient = .ok d ∧
      Mirrors (pool.amplificationCoefficient * 4) d
        (reserve cfg id s (boughtPair pool.pair asset).base)
        (reserve cfg id s (boughtPair pool.pair asset).quote) amount value out ∧
      s'.ledger.balance asset who = s.ledger.balance asset who + out := by
  obtain ⟨pool', value, out, hpool', hvalue, hexchange, rfl⟩ := Curve.buy_ok h
  obtain rfl := Option.some.inj (hpool.symm.trans hpool')
  have hbase := base_boughtPair hasset
  have hpair : samePair (boughtPair pool.pair asset) pool.pair := samePair_boughtPair
  have hwho' : who ≠ cfg.withNewton.curveAccount id := hwho
  obtain ⟨hout, hbalance⟩ := balance_of_exchange hpool hfee (boughtPair_ne hne) hwho' hexchange
  rw [hbase] at hbalance
  obtain ⟨d, y, hd, hy, hsum⟩ := getExchangeValue_ok hpool hne hpair (hbase.symm ▸ hvalue)
  obtain ⟨d', y', hd', hy', hsum'⟩ := getExchangeValue_ok hpool hne hpair hout
  obtain rfl := Except.ok.inj (hd.symm.trans hd')
  have hamp : 0 < pool.amplificationCoefficient ∨ d = 0 := (computeD_amplified hd).imp_right And.left
  have hthere := computeBase_onCurve hamp hy
  have hback := computeBase_onCurve hamp hy'
  rw [← Nat.sub_eq_of_eq_add' hsum.symm] at hthere
  rw [← Nat.sub_eq_of_eq_add' hsum'.symm] at hback
  exact ⟨rfl, d, value, out, hd, ⟨by omega, by omega, hthere, hback⟩, hbalance⟩

/-- **A purchase delivers the amount it returns, up to two units, where the curve mirrors the
amount**, and only where it does for some rounding. -/
theorem buy_delivers (cfg : Config A X F) (hpool : s.curvePools id = some pool) (hfee : pool.fee = 0)
    (hne : pool.pair.base ≠ pool.pair.quote) (hasset : OfPair pool.pair asset)
    (hwho : who ≠ cfg.curveAccount id)
    (h : Curve.buy cfg.withNewton who id asset amount k s = (.ok got, s')) :
    got = amount ∧ ∃ d,
      computeD (reserve cfg id s (boughtPair pool.pair asset).base)
        (reserve cfg id s (boughtPair pool.pair asset).quote)
        pool.amplificationCoefficient = .ok d ∧
      (MirrorsAmount (pool.amplificationCoefficient * 4) d
        (reserve cfg id s (boughtPair pool.pair asset).base)
        (reserve cfg id s (boughtPair pool.pair asset).quote) amount →
          CloseTo (s'.ledger.balance asset who) (s.ledger.balance asset who + amount)) ∧
      (CloseTo (s'.ledger.balance asset who) (s.ledger.balance asset who + amount) → ∃ value out,
        Mirrors (pool.amplificationCoefficient * 4) d
          (reserve cfg id s (boughtPair pool.pair asset).base)
          (reserve cfg id s (boughtPair pool.pair asset).quote) amount value out ∧
            CloseTo out amount) := by
  obtain ⟨hgot, d, value, out, hd, hmirrors, hbalance⟩ := mirrors_of_buy hpool hfee hne hasset hwho h
  -- The balance grew by what was got out, so that only that has to be compared.
  have hclose : CloseTo (s'.ledger.balance asset who) (s.ledger.balance asset who + amount) ↔
      CloseTo out amount := by
    unfold CloseTo
    omega
  refine ⟨hgot, d, hd, fun hall => hclose.mpr (hall value out hmirrors), fun hdelivered => ?_⟩
  exact ⟨value, out, hmirrors, hclose.mp hdelivered⟩

instance (ann d base quote amount : Nat) : Decidable (MirrorsAmount ann d base quote amount) :=
  decidable_of_iff
    (∀ value ≤ base, ∀ out ≤ base, OnCurve ann d (quote + amount) (base - value) →
      OnCurve ann d (quote + value) (base - out) → CloseTo out amount)
    ⟨fun h value out hm => h value hm.value_le out hm.out_le hm.there hm.back,
      fun h value hvalue out hout hthere hback => h value out ⟨hvalue, hout, hthere, hback⟩⟩

/-- What account `8` gets from a purchase of asset `1`, and what it has then. -/
def samplePurchase (s : State Nat Nat Nat) (n : Nat) : Option (Nat × Nat) :=
  match Curve.buy sample.withNewton 8 0 1 n true s with
  | (.ok got, s') => some (got, s'.ledger.balance 1 8)
  | (.error _, _) => none

/-- A small pool in balance. -/
def smallStable : State Nat Nat Nat :=
  { sampleStable with ledger := Ledger.ofList [(1, 1000, 20), (2, 1000, 20), (2, 8, 10)] }

theorem samplePurchase_ok {s : State Nat Nat Nat} {n got balance : Nat}
    (h : samplePurchase s n = some (got, balance)) :
    ∃ s', Curve.buy sample.withNewton 8 0 1 n true s = (.ok got, s') ∧
      s'.ledger.balance 1 8 = balance := by
  unfold samplePurchase at h
  split at h
  next heq =>
    obtain ⟨rfl, rfl⟩ := Prod.mk.inj (Option.some.inj h)
    exact ⟨_, heq, rfl⟩
  next => cases h

theorem buy_delivers_sample :
    ∃ s', Curve.buy sample.withNewton 8 0 1 5 true smallStable = (.ok 5, s') ∧
    CloseTo (s'.ledger.balance 1 8) 5 := by
  have hview : samplePurchase smallStable 5 = some (5, 5) := by decide +kernel
  obtain ⟨s', hbuy, -⟩ := samplePurchase_ok hview
  have hpool : smallStable.curvePools 0 = some ⟨9, ⟨1, 2⟩, 7, 100, 0, 0⟩ := rfl
  obtain ⟨-, d, hd, hdelivers, -⟩ :=
    buy_delivers sample hpool rfl (by decide) (by decide) (by decide) hbuy
  obtain rfl : 40 = d := Except.ok.inj (Eq.trans (by decide +kernel) hd)
  have hdelivered : CloseTo (s'.ledger.balance 1 8) (smallStable.ledger.balance 1 8 + 5) :=
    hdelivers (by decide +kernel)
  exact ⟨s', hbuy, hdelivered⟩

/-- **A pool with twice as much of one asset**: of a million bought, less than nine hundred and
ninety-two thousand are delivered. -/
theorem purchase_falls_short : ¬ ∀ (s s' : State Nat Nat Nat) (pool : StableSwapPoolInfo Nat Nat)
    (id asset amount got who : Nat) (k : Bool), s.curvePools id = some pool → pool.fee = 0 →
      pool.pair.base ≠ pool.pair.quote → OfPair pool.pair asset → who ≠ sample.curveAccount id →
      Curve.buy sample.withNewton who id asset amount k s = (.ok got, s') →
        CloseTo (s'.ledger.balance asset who) (s.ledger.balance asset who + amount) := by
  intro hall
  have hview : samplePurchase sampleStable 1000000 = some (1000000, 991661) := by decide +kernel
  obtain ⟨s', hbuy, hbalance⟩ := samplePurchase_ok hview
  have hpool : sampleStable.curvePools 0 = some ⟨9, ⟨1, 2⟩, 7, 100, 0, 0⟩ := rfl
  have hdelivered :=
    hall sampleStable s' _ 0 1 1000000 1000000 8 true hpool rfl (by decide) (by decide)
      (by decide) hbuy
  have hbefore : sampleStable.ledger.balance 1 8 = 0 := by decide
  rw [hbalance, hbefore] at hdelivered
  exact absurd hdelivered (by decide)

/-! ## Constant-product pools -/

section ConstantProduct

variable {m : DecimalMath} {pool : ConstantProductPoolInfo A X}

/-- Without fees who exchanges receives the share of the whole amount. -/
theorem received_of_exchange {pair : CurrencyPair X} {q out : Nat}
    (hpool : s.uniswapPools id = some pool)
    (hfees : pool.fee = 0 ∧ pool.ownerFee = 0) (hne : pair.base ≠ pair.quote)
    (hwho : who ≠ cfg.uniswapAccount id)
    (h : Uniswap.exchange (cfg.withDecimals m) who id pair q 0 k s = (.ok out, s')) :
    out = s.ledger.balance pair.base (cfg.uniswapAccount id) * q /
        (s.ledger.balance pair.quote (cfg.uniswapAccount id) + q) ∧
      s'.ledger.balance pair.base who = s.ledger.balance pair.base who + out := by
  obtain ⟨pool', net, lpFee, ownerFee, hpool', -, ⟨hlpFee, hownerFee⟩, hsplit, hprice, -, -, rfl⟩ :=
    Uniswap.exchange_ok h
  obtain rfl := Option.some.inj (hpool.symm.trans hpool')
  have hwhole : net = q ∧ ownerFee = 0 := by
    simp only [hfees.1, hfees.2, Fixed.mulFloor, Nat.mul_zero, Nat.zero_div] at hlpFee hownerFee
    omega
  obtain ⟨rfl, rfl⟩ := hwhole
  refine ⟨computeOutGivenIn_eq hprice, ?_⟩
  simp only [Ledger.move_zero, State.withLedger]
  exact (Ledger.balance_move_to hwho.symm).trans
    (congrArg (· + out) (Ledger.balance_move_of_ne_asset hne))

/-- What an amount costs exactly, for reserves of the asset that is paid and of
    the one that is bought. -/
def exactPrice (paid bought amount : Nat) : ℚ := paid * amount / (bought - amount)

/-- What a payment buys exactly. -/
def exactWorth (paid bought : Nat) (payment : ℚ) : ℚ := bought * payment / (paid + payment)

/-- What one unit less than the exact price buys, in whole units. -/
def leastReceived (paid bought amount : Nat) : Nat :=
  ⌊exactWorth paid bought (max (exactPrice paid bought amount - 1) 0)⌋₊

section Amounts

variable {paid bought amount : Nat}

/-- More buys more. -/
theorem exactWorth_mono (paid bought : Nat) {x y : ℚ} (hx : 0 ≤ x) (hxy : x ≤ y) :
    exactWorth paid bought x ≤ exactWorth paid bought y := by
  unfold exactWorth
  rcases hx.eq_or_lt with rfl | hpos
  · rw [mul_zero, zero_div]
    positivity
  · have hbought : (0 : ℚ) ≤ bought * paid := by positivity
    have hpos' : 0 < y := hpos.trans_le hxy
    have hcross : (bought : ℚ) * paid * x ≤ bought * paid * y := mul_le_mul_of_nonneg_left hxy hbought
    rw [div_le_div_iff₀ (by positivity) (by positivity)]
    linarith

/-- A whole payment buys its share. -/
theorem floor_exactWorth (paid bought q : Nat) :
    ⌊exactWorth paid bought q⌋₊ = bought * q / (paid + q) := by
  rw [exactWorth, ← Nat.floor_div_eq_div (K := ℚ)]
  push_cast
  rfl

/-- The same amount, in integers. -/
theorem leastReceived_eq (h : amount < bought) : leastReceived paid bought amount =
    bought * (paid * amount - (bought - amount)) / (paid * bought - (bought - amount)) := by
  have hrest : (0 : ℚ) < bought - amount := sub_pos.mpr (by exact_mod_cast h)
  unfold leastReceived exactPrice
  by_cases hprice : paid * amount ≤ bought - amount
  · -- A price of at most one unit.
    have hone : (paid * amount : ℚ) ≤ bought - amount := by
      rw [← Nat.cast_sub h.le]
      exact_mod_cast hprice
    have hnone : (paid * amount : ℚ) / (bought - amount) - 1 ≤ 0 :=
      sub_nonpos.mpr ((div_le_one hrest).mpr hone)
    rw [max_eq_right hnone, exactWorth, mul_zero, zero_div, Nat.floor_zero,
      Nat.sub_eq_zero_of_le hprice, Nat.mul_zero, Nat.zero_div]
  · have hlarge : bought - amount ≤ paid * amount := (Nat.lt_of_not_le hprice).le
    have hpaid : 0 < paid :=
      Nat.pos_of_ne_zero fun hzero => hprice (by rw [hzero, Nat.zero_mul]; exact Nat.zero_le _)
    have htotal : bought - amount ≤ paid * bought :=
      (Nat.sub_le _ _).trans (Nat.le_mul_of_pos_left _ hpaid)
    have hone : (1 : ℚ) ≤ paid * amount / (bought - amount) := by
      rw [one_le_div hrest, ← Nat.cast_sub h.le]
      exact_mod_cast hlarge
    rw [max_eq_left (sub_nonneg.mpr hone), exactWorth, ← Nat.floor_div_eq_div (K := ℚ)]
    congr 1
    push_cast [hlarge, htotal, h.le]
    have hunits : (paid : ℚ) + (paid * amount / (bought - amount) - 1) =
        (paid * bought - (bought - amount)) / (bought - amount) := by
      field_simp
      ring
    have hpayment : (paid * amount / (bought - amount) - 1 : ℚ) =
        (paid * amount - (bought - amount)) / (bought - amount) := by
      field_simp
    rw [hunits, hpayment, ← mul_div_assoc, div_div_div_cancel_right₀ hrest.ne']

/-- It is not more than the amount. -/
theorem leastReceived_le (h : amount < bought) : leastReceived paid bought amount ≤ amount := by
  rw [leastReceived_eq h]
  refine Nat.div_le_of_le_mul ?_
  obtain ⟨rest, rfl⟩ := Nat.exists_eq_add_of_lt h
  have hrest : amount + rest + 1 - amount = rest + 1 := by omega
  rw [hrest, Nat.mul_sub, Nat.sub_mul, Nat.mul_comm (amount + rest + 1) (paid * amount)]
  have hmore : (rest + 1) * amount ≤ (amount + rest + 1) * (rest + 1) := by nlinarith
  have hsame : paid * amount * (amount + rest + 1) = paid * (amount + rest + 1) * amount := by ring
  omega

/-- The smallest payment that buys it. -/
def leastPayment (paid bought amount : Nat) : Nat :=
  leastReceived paid bought amount * paid ⌈/⌉ (bought - leastReceived paid bought amount)

/-- What is computed for the quote asset buys enough exactly when it is not less
    than the smallest payment. -/
theorem leastReceived_le_iff (h : amount < bought) :
    leastReceived paid bought amount ≤
        bought * (paid * amount / (bought + amount)) / (paid + paid * amount / (bought + amount)) ↔
      leastPayment paid bought amount * (bought + amount) ≤ paid * amount := by
  have hle : leastReceived paid bought amount ≤ amount := leastReceived_le h
  have hzero : paid = 0 → leastReceived paid bought amount = 0 := by
    rintro rfl
    rw [leastReceived_eq h, Nat.zero_mul, Nat.zero_sub, Nat.mul_zero, Nat.zero_div]
  unfold leastPayment
  generalize leastReceived paid bought amount = least at hle hzero ⊢
  rcases Nat.eq_zero_or_pos least with hnone | hsome
  · rw [hnone, Nat.zero_mul, zero_ceilDiv, Nat.zero_mul]
    exact iff_of_true (Nat.zero_le _) (Nat.zero_le _)
  · have hpaid : 0 < paid := Nat.pos_of_ne_zero fun hnothing => hsome.ne' (hzero hnothing)
    have hsplit : bought = bought - least + least := by omega
    rw [← Nat.le_div_iff_mul_le (by omega), ceilDiv_le_iff_le_mul (by omega)]
    generalize paid * amount / (bought + amount) = q
    rw [Nat.le_div_iff_mul_le (by omega)]
    conv_lhs => rw [hsplit, Nat.mul_add, Nat.add_mul, Nat.mul_comm least q]
    rw [Nat.mul_comm q least, Nat.add_le_add_iff_right]

/-- What is computed for the base asset always does. -/
theorem leastReceived_le_base (h : amount < bought) : leastReceived paid bought amount ≤
    bought * (paid * amount / (bought - amount)) / (paid + paid * amount / (bought - amount)) := by
  rw [← floor_exactWorth, leastReceived]
  refine Nat.floor_le_floor
    (exactWorth_mono paid bought (le_max_right _ _) (max_le ?_ (Nat.cast_nonneg _)))
  have hprice : exactPrice paid bought amount =
      ((paid * amount : Nat) : ℚ) / ((bought - amount : Nat) : ℚ) := by
    push_cast [h.le]
    rfl
  rw [hprice, ← Nat.floor_div_eq_div (K := ℚ)]
  exact (sub_lt_iff_lt_add.mpr (Nat.lt_floor_add_one _)).le

/-- No more than the amount is received for a payment of at most the exact price. -/
theorem received_le {q : Nat} (h : q * (bought - amount) ≤ paid * amount) :
    bought * q / (paid + q) ≤ amount := by
  refine Nat.div_le_of_le_mul ?_
  have hexpand : q * (bought - amount) + q * amount ≥ q * bought := by
    rw [← Nat.mul_add]
    exact Nat.mul_le_mul_left q (by omega)
  calc
    bought * q = q * bought := Nat.mul_comm _ _
    _ ≤ paid * amount + q * amount := by omega
    _ = (paid + q) * amount := (Nat.add_mul ..).symm

/-- The price of a sale is no more than that. -/
theorem received_le_quote :
    bought * (paid * amount / (bought + amount)) / (paid + paid * amount / (bought + amount)) ≤
      amount := by
  have hless : bought - amount ≤ bought + amount := by omega
  exact received_le ((Nat.mul_le_mul_left _ hless).trans (Nat.div_mul_le_self _ _))

end Amounts

/-- **What a purchase of a constant-product pool delivers** is never more than the amount. It is at
least what one unit less than the exact price buys for the base asset, and for the quote asset
exactly when the least payment that buys this much is not above the price of a sale. -/
theorem purchase_bounds_iff (cfg : Config A X F) (m : DecimalMath)
    (hpool : s.uniswapPools id = some pool)
    (hfees : pool.fee = 0 ∧ pool.ownerFee = 0) (hne : pool.pair.base ≠ pool.pair.quote)
    (hasset : OfPair pool.pair asset) (hwho : who ≠ cfg.uniswapAccount id)
    (hbelow : amount < s.ledger.balance asset (cfg.uniswapAccount id))
    (h : Uniswap.buy (cfg.withDecimals m) who id asset amount k s = (.ok got, s')) :
    s'.ledger.balance asset who = s.ledger.balance asset who + got ∧
      ((got ≤ amount ∧ leastReceived
          (s.ledger.balance (boughtPair pool.pair asset).quote (cfg.uniswapAccount id))
          (s.ledger.balance asset (cfg.uniswapAccount id)) amount ≤ got) ↔
        asset = pool.pair.base ∨ leastPayment
            (s.ledger.balance (boughtPair pool.pair asset).quote (cfg.uniswapAccount id))
            (s.ledger.balance asset (cfg.uniswapAccount id)) amount *
          (s.ledger.balance asset (cfg.uniswapAccount id) + amount) ≤
            s.ledger.balance (boughtPair pool.pair asset).quote (cfg.uniswapAccount id) *
              amount) := by
  obtain ⟨pool', q, hpool', hvalue, hexchange⟩ := Uniswap.buy_ok h
  obtain rfl := Option.some.inj (hpool.symm.trans hpool')
  have hbase := base_boughtPair hasset
  obtain ⟨hgot, hbalance⟩ := received_of_exchange hpool hfees (boughtPair_ne hne) hwho hexchange
  rw [hbase] at hgot hbalance
  refine ⟨hbalance, ?_⟩
  simp only [Uniswap.getExchangeValue, Call.bind_ok, Uniswap.getPool_ok, Call.get_bind] at hvalue
  obtain ⟨pool', t, ⟨hpool', rfl⟩, hvalue⟩ := hvalue
  obtain rfl := Option.some.inj (hpool.symm.trans hpool')
  -- The base is bought by the formula for the amount in, the quote by the one for the amount out.
  by_cases hfirst : asset = pool.pair.base
  · have hpair : boughtPair pool.pair asset = pool.pair := if_pos hfirst
    have hother : asset ≠ pool.pair.quote := hfirst ▸ hne
    rw [if_neg hother, arithmetic_ok] at hvalue
    rw [hpair] at hgot ⊢
    rw [← hfirst] at hvalue
    obtain rfl := computeInGivenOut_eq hbelow hvalue.1
    refine iff_of_true ?_ (.inl hfirst)
    rw [hgot]
    exact ⟨received_le (Nat.div_mul_le_self _ _), leastReceived_le_base hbelow⟩
  · have hsecond : asset = pool.pair.quote := hasset.resolve_left hfirst
    have hpair : boughtPair pool.pair asset = swap pool.pair := if_neg hfirst
    have hquote : (boughtPair pool.pair asset).quote = pool.pair.base := by
      rw [hpair]
      rfl
    rw [if_pos hsecond, arithmetic_ok, ← hsecond, ← hquote] at hvalue
    obtain rfl := computeOutGivenIn_eq hvalue.1
    rw [hgot]
    exact ((and_iff_right received_le_quote).trans (leastReceived_le_iff hbelow)).trans
      (or_iff_right hfirst).symm

end ConstantProduct

/-- A pool without fees. -/
def freePools : State Nat Nat Nat :=
  { State.genesis (Ledger.ofList [(1, 2000, 1000), (2, 2000, 1000), (1, 8, 1000), (2, 8, 1000)])
      8 with
    uniswapPools := fun id => if id = 0 then some ⟨9, ⟨1, 2⟩, 7, 0, 0⟩ else none
    uniswapPoolCount := 1 }

/-- What account `8` receives from a purchase. -/
def freePurchase (asset n : Nat) : Option Nat :=
  match Uniswap.buy (sample.withDecimals firstPowers) 8 0 asset n true freePools with
  | (.ok got, _) => some got
  | (.error _, _) => none

theorem freePurchase_ok {x n got : Nat} (h : freePurchase x n = some got) :
    ∃ s', Uniswap.buy (sample.withDecimals firstPowers) 8 0 x n true freePools = (.ok got, s') := by
  unfold freePurchase at h
  split at h
  next heq =>
    obtain rfl := Option.some.inj h
    exact ⟨_, heq⟩
  next => cases h

theorem freePools_pool : freePools.uniswapPools 0 = some ⟨9, ⟨1, 2⟩, 7, 0, 0⟩ := rfl

theorem purchase_bounds_sample :
    freePurchase 1 300 = some 299 ∧ leastReceived 1000 1000 300 ≤ 299 := by
  have hview : freePurchase 1 300 = some 299 := by decide +kernel
  obtain ⟨s', hbuy⟩ := freePurchase_ok hview
  obtain ⟨-, hbounds⟩ :=
    purchase_bounds_iff sample firstPowers freePools_pool ⟨rfl, rfl⟩ (by decide) (by decide)
    (by decide) (by decide) hbuy
  exact ⟨hview, (hbounds.mpr (.inl rfl)).2⟩

/-- **Three hundred and ninety of the quote asset**, in a pool with a thousand of each: two hundred
and eighteen are delivered. -/
theorem purchase_of_quote : ¬ ∀ (s s' : State Nat Nat Nat) (pool : ConstantProductPoolInfo Nat Nat)
    (id asset amount got who : Nat) (k : Bool), s.uniswapPools id = some pool → pool.fee = 0 ∧
      pool.ownerFee = 0 →
      pool.pair.base ≠ pool.pair.quote → OfPair pool.pair asset → who ≠ sample.uniswapAccount id →
      amount < s.ledger.balance asset (sample.uniswapAccount id) →
      Uniswap.buy (sample.withDecimals firstPowers) who id asset amount k s = (.ok got, s') →
        got ≤ amount ∧
          leastReceived (s.ledger.balance (boughtPair pool.pair asset).quote
            (sample.uniswapAccount id))
          (s.ledger.balance asset (sample.uniswapAccount id)) amount ≤ got := by
  intro hall
  have hview : freePurchase 2 390 = some 218 := by decide +kernel
  obtain ⟨s', hbuy⟩ := freePurchase_ok hview
  have hleast : leastReceived 1000 1000 390 ≤ 218 :=
    (hall freePools s' _ 0 2 390 218 8 true freePools_pool ⟨rfl, rfl⟩ (by decide) (by decide)
      (by decide) (by decide)
      hbuy).2
  rw [leastReceived_eq (by decide)] at hleast
  exact absurd hleast (by decide)

end Dex
end Composable
