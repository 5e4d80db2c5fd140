import Composable.Dex.Routes
import Composable.Support.Newton

/-!
# `Dex.StableSwap` — what a StableSwap exchange pays

Embeds `frame/curve-amm/src/maths.rs`: the invariant of a pool of two assets and the
base reserve that keeps it, both by an integer Newton iteration that stops at a
difference of one. Numbers are big integers of 32-bit limbs; their long division needs a
divisor of two limbs and a longer dividend.

An exchange pays the difference between the old base reserve and the computed one, without a
correction for rounding. What it computes solves the equation of the old invariant up to one unit
(`Solves`, `exchange_solves`), on either side; the invariant computed from the new reserves can be
smaller, already by an exchange of nothing (`exchange_loses`).
-/

namespace Composable
namespace Dex

open DutchAuction (CurrencyPair)

variable {A X F : Type} [DecidableEq A] [DecidableEq X]

/-! ## Big integers -/

namespace BigUint

/-- The number of 32-bit limbs of a stripped number. -/
def len (n : Nat) : Nat := Nat.log2 n / 32 + 1

/-- `div_unit`: division by one limb; a limb of zero is read as one. -/
def divUnit (a b : Nat) : Nat := a / max b 1

/-- `div`: long division, by at least two limbs and of a longer number. -/
def div (a b : Nat) : Option Nat := if 2 ≤ len b ∧ len b < len a then some (a / b) else none

/-- `try_into` a balance. -/
def toU128 (a : Nat) : Except (DispatchError Error) Nat := (Fixed.checked a).mapError .arithmetic

end BigUint

/-! ## Maths -/

def safeDiv (a b : Nat) : Except (DispatchError Error) Nat :=
  if BigUint.len b = 1 then .ok (BigUint.divUnit a b)
  else (BigUint.div a b).elim (.error (.arithmetic .overflow)) .ok

/-- The body of the loop of `compute_d`. -/
def nextD (ann annOne sum baseN quoteN d : Nat) : Except (DispatchError Error) Nat := do
  let dP ← safeDiv (d * d) baseN
  let dP ← safeDiv (dP * d) quoteN
  safeDiv ((ann * sum + dP * 2) * d) (d * annOne + (2 + 1) * dP)

/-- `D` invariant calculation in non-overflowing integer operations iteratively. -/
def computeD (base quote amplification : Nat) : Except (DispatchError Error) Nat :=
  let sum := base + quote
  if sum = 0 then .ok 0
  else do
    let ann := amplification * 2 * 2
    let annOne ← (Fixed.checkedSub ann 1).mapError .arithmetic
    let d ← converge (nextD ann annOne sum (base * 2) (quote * 2)) (.other "could not compute d") 255 sum
    BigUint.toU128 d

/-- The body of the loop of `compute_base`. -/
def nextBase (b c d y : Nat) : Except (DispatchError Error) Nat := do
  let slope ← (Fixed.checkedSub (2 * y + b) d).mapError .arithmetic
  safeDiv (y * y + c) slope

/-- Done by solving a quadratic equation iteratively. -/
def computeBase (newQuote amplification d : Nat) : Except (DispatchError Error) Nat := do
  let ann := amplification * 2 * 2
  let dAnn ← safeDiv d ann
  let dN ← safeDiv d 2
  let b := newQuote + dAnn
  let c ← safeDiv (dAnn * dN * dN) newQuote
  let y ← converge (nextBase b c d) (.other "could not compute d") 255 d
  BigUint.toU128 y

/-- The pallet with the maths of its pools. -/
def Config.withNewton (cfg : Config A X F) : Config A X F :=
  { cfg with pricing := { cfg.pricing with computeD := computeD, computeBase := computeBase } }

/-! ## What is computed -/

/-- Division is by one at least. -/
theorem safeDiv_ok {a b q : Nat} (h : safeDiv a b = .ok q) : q = a / max b 1 := by
  unfold safeDiv at h
  by_cases hlen : BigUint.len b = 1
  · rw [if_pos hlen] at h
    exact (Except.ok.inj h).symm
  · rw [if_neg hlen, BigUint.div] at h
    by_cases hlong : 2 ≤ BigUint.len b ∧ BigUint.len b < BigUint.len a
    · rw [if_pos hlong, Option.elim_some] at h
      have hpos : 1 ≤ b := by
        by_contra hzero
        obtain rfl : b = 0 := by omega
        exact hlen rfl
      rw [max_eq_left hpos]
      exact (Except.ok.inj h).symm
    · rw [if_neg hlong] at h
      cases h

theorem toU128_ok {a n : Nat} (h : BigUint.toU128 a = .ok n) : n = a := by
  rw [BigUint.toU128, exceptMapError_ok, Fixed.checked_ok] at h
  exact h.2

/-- A step of `compute_base` is Newton's step. -/
theorem nextBase_ok {b c d p y : Nat} (h : nextBase b c d p = .ok y) :
    d ≤ 2 * p + b ∧ y = Newton.step b c d p := by
  simp only [nextBase, exceptBind_ok, exceptMapError_ok, Fixed.checkedSub_ok] at h
  obtain ⟨_, ⟨hslope, rfl⟩, hdiv⟩ := h
  exact ⟨hslope, safeDiv_ok hdiv⟩

/-- The base reserve `y` solves the equation of the invariant `d` for a quote reserve, up to one
    unit: `y * y + (quote + d / ann) * y = d * y + (d / ann) * (d / 2) ^ 2 / quote`, in integers. -/
structure Solves (ann d quote y : Nat) : Prop where
  le : y * y + (quote + d / ann) * y ≤ d * y + d / ann * (d / 2) * (d / 2) / quote + 1
  ge : d * (y + 1) + d / ann * (d / 2) * (d / 2) / quote ≤
    (y + 1) * (y + 1) + (quote + d / ann) * (y + 1)

/-- The same for any quote reserve; a reserve of nothing is divided by as one. -/
structure OnCurve (ann d quote y : Nat) : Prop where
  le : y * y + (quote + d / ann) * y ≤ d * y + d / ann * (d / 2) * (d / 2) / max quote 1 + 1
  ge : d * (y + 1) + d / ann * (d / 2) * (d / 2) / max quote 1 ≤
    (y + 1) * (y + 1) + (quote + d / ann) * (y + 1)

instance (ann d quote y : Nat) : Decidable (OnCurve ann d quote y) :=
  decidable_of_iff (_ ∧ _) ⟨fun h => ⟨h.1, h.2⟩, fun h => ⟨h.le, h.ge⟩⟩

theorem OnCurve.solves {ann d quote y : Nat} (h : OnCurve ann d quote y) (hquote : 0 < quote) :
    Solves ann d quote y := by
  obtain ⟨hle, hge⟩ := h
  rw [max_eq_left hquote] at hle hge
  exact ⟨hle, hge⟩

/-- **The computed base reserve is on the curve**, unless there is an invariant
    without an amplification. -/
theorem computeBase_onCurve {quote amplification d y : Nat} (hamp : 0 < amplification ∨ d = 0)
    (h : computeBase quote amplification d = .ok y) : OnCurve (amplification * 4) d quote y := by
  simp only [computeBase, exceptBind_ok] at h
  obtain ⟨dAnn, hdAnn, dN, hdN, c, hc, y', hsettle, hy⟩ := h
  obtain rfl := toU128_ok hy
  obtain ⟨p, hp, hle, hge⟩ := converge_ok hsettle
  obtain ⟨hslope, hstep⟩ := nextBase_ok hp
  have hann : dAnn = d / (amplification * 4) := by
    rw [safeDiv_ok hdAnn]
    rcases hamp with hpos | rfl
    · rw [max_eq_left (by omega), Nat.mul_assoc]
    · rw [Nat.zero_div, Nat.zero_div]
  have hhalf : dN = d / 2 := safeDiv_ok hdN
  have hconst : c = d / (amplification * 4) * (d / 2) * (d / 2) / max quote 1 := by
    rw [safeDiv_ok hc, hann, hhalf]
  subst hann hhalf hconst
  exact ⟨Newton.le_of_settled hslope hstep hle hge, Newton.ge_of_settled hslope hstep hle hge⟩

/-- **The computed base reserve solves the equation.** -/
theorem computeBase_solves {quote amplification d y : Nat} (hamp : 0 < amplification)
    (hquote : 0 < quote)
    (h : computeBase quote amplification d = .ok y) : Solves (amplification * 4) d quote y :=
  (computeBase_onCurve (.inl hamp) h).solves hquote

/-- There is an invariant without an amplification only where there is nothing. -/
theorem computeD_amplified {base quote amplification d : Nat}
    (h : computeD base quote amplification = .ok d) :
    0 < amplification ∨ d = 0 ∧ base + quote = 0 := by
  unfold computeD at h
  by_cases hsum : base + quote = 0
  · rw [if_pos hsum] at h
    exact .inr ⟨(Except.ok.inj h).symm, hsum⟩
  · rw [if_neg hsum] at h
    simp only [exceptBind_ok, exceptMapError_ok, Fixed.checkedSub_ok] at h
    obtain ⟨_, ⟨hann, -⟩, -⟩ := h
    exact .inl (by omega)

/-- A pool with reserves has an invariant only if it has an amplification. -/
theorem pos_of_computeD {base quote amplification d : Nat} (hquote : 0 < quote)
    (h : computeD base quote amplification = .ok d) : 0 < amplification :=
  (computeD_amplified h).resolve_right fun hnone => by omega

/-! ## Exchanges -/

variable {cfg : Config A X F} {s s' : State A X F} {who : A} {pair : CurrencyPair X}
  {pool : StableSwapPoolInfo A X}
variable {q out value minReceive id : Nat} {k : Bool}

/-- What a pool has of an asset. -/
def reserve (cfg : Config A X F) (id : Nat) (s : State A X F) (x : X) : Nat :=
  s.ledger.balance x (cfg.curveAccount id)

omit [DecidableEq A] in
/-- The pair of the pool, in the order in which it is traded. -/
theorem orderedPair {p : CurrencyPair X} (h : samePair pair p) (hne : p.base ≠ p.quote) :
    (if pair.base = p.base then p else swap p) = pair := by
  obtain ⟨base, quote⟩ := pair
  obtain ⟨hbase, hquote⟩ | ⟨hbase, hquote⟩ := h
  · subst hbase hquote
    exact if_pos rfl
  · subst hbase hquote
    exact if_neg hne.symm

omit [DecidableEq A] in
/-- The value of an amount is what the base reserve may lose for it. -/
theorem getExchangeValue_ok (hpool : s.curvePools id = some pool)
    (hne : pool.pair.base ≠ pool.pair.quote) (hpair : samePair pair pool.pair)
    (h : Curve.getExchangeValue cfg.withNewton id pair.base q s = (.ok value, s')) :
    ∃ d y, computeD (reserve cfg id s pair.base) (reserve cfg id s pair.quote)
      pool.amplificationCoefficient = .ok d ∧
      computeBase (reserve cfg id s pair.quote + q) pool.amplificationCoefficient d = .ok y ∧
      value + y = reserve cfg id s pair.base := by
  simp only [Curve.getExchangeValue, Call.bind_ok, Curve.getPool_ok, Call.get_bind,
    Call.ofExcept_ok, arithmetic_ok, Fixed.checked_ok, Fixed.checkedSub_ok] at h
  obtain ⟨pool', t, ⟨hpool', rfl⟩, d, t, ⟨hd, rfl⟩, _, t, ⟨⟨-, rfl⟩, rfl⟩, y, t, ⟨hy, rfl⟩,
    ⟨hle, rfl⟩, rfl⟩ := h
  obtain rfl := Option.some.inj (hpool.symm.trans hpool')
  rw [orderedPair hpair hne] at hd hy hle ⊢
  exact ⟨d, y, hd, hy, Nat.sub_add_cancel hle⟩

/-- **An exchange solves the equation of the pool up to one unit of the base asset**: with the
    invariant of the old reserves, the new reserves are a solution rounded to a neighbour. -/
theorem exchange_solves (cfg : Config A X F) (hpool : s.curvePools id = some pool)
    (hne : pool.pair.base ≠ pool.pair.quote) (hfee : pool.fee = 0) (hwho : who ≠ cfg.curveAccount id)
    (hquote : 0 < reserve cfg id s pair.quote)
    (h : Curve.exchange cfg.withNewton who id pair q minReceive k s = (.ok out, s')) :
    ∃ d, computeD (reserve cfg id s pair.base) (reserve cfg id s pair.quote)
      pool.amplificationCoefficient = .ok d ∧
      reserve cfg id s' pair.quote = reserve cfg id s pair.quote + q ∧
      reserve cfg id s' pair.base + out = reserve cfg id s pair.base ∧
      Solves (pool.amplificationCoefficient * 4) d (reserve cfg id s' pair.quote)
        (reserve cfg id s' pair.base) := by
  obtain ⟨pool', value, fee, hpool', hpair, hvalue, hout, hzero, -, -, hsent, hs'⟩ :=
    Curve.exchange_ok h
  obtain rfl := Option.some.inj (hpool.symm.trans hpool')
  obtain ⟨d, y, hd, hy, hsplit⟩ := getExchangeValue_ok hpool hne hpair hvalue
  have hwhole : out = value ∧ fee = 0 := by
    simp [hout, hzero, hfee, Fixed.mulFloor]
  obtain ⟨rfl, rfl⟩ := hwhole
  have hassets : pair.base ≠ pair.quote := by
    obtain ⟨hbase, hquote⟩ | ⟨hbase, hquote⟩ := hpair
    · rwa [hbase, hquote]
    · rw [hbase, hquote]
      exact hne.symm
  -- Without a fee two transfers are left, one of each asset.
  simp only [Ledger.move_zero] at hsent hs'
  have hpaid : out ≤ (s.ledger.move pair.quote who (cfg.curveAccount id) q).free pair.base
      (cfg.curveAccount id) :=
    cfg.assets.funded_of_transfer hsent hwho.symm
  have hledger : s'.ledger =
      (s.ledger.move pair.quote who (cfg.curveAccount id) q).move pair.base (cfg.curveAccount id)
        who out := by
    rw [hs']
    rfl
  have hbase : reserve cfg id s' pair.base = y := by
    rw [reserve, hledger, Ledger.balance_move_from hwho.symm hpaid,
      Ledger.balance_move_of_ne_asset hassets]
    show reserve cfg id s pair.base - out = y
    omega
  have hquote' : reserve cfg id s' pair.quote = reserve cfg id s pair.quote + q := by
    rw [reserve, hledger, Ledger.balance_move_of_ne_asset hassets.symm, Ledger.balance_move_to hwho]
    rfl
  refine ⟨d, hd, hquote', by omega, ?_⟩
  rw [hquote', hbase]
  exact computeBase_solves (pos_of_computeD hquote hd) (by omega) hy

/-- A pool without fees of account `9`, with an amplification of a hundred. -/
def sampleStable : State Nat Nat Nat :=
  { State.genesis (Ledger.ofList [(1, 1000, 10 ^ 21), (2, 1000, 2 * 10 ^ 21), (2, 8, 10 ^ 18)]) 8 with
    curvePools := fun id => if id = 0 then some ⟨9, ⟨1, 2⟩, 7, 100, 0, 0⟩ else none
    curvePoolCount := 1 }

/-- What an exchange of account `8` for asset `1` pays out, with the reserves after it. -/
def sampleExchange (q : Nat) : Option (Nat × State Nat Nat Nat) :=
  match Curve.exchange sample.withNewton 8 0 ⟨1, 2⟩ q 0 true sampleStable with
  | (.ok out, s) => some (out, s)
  | (.error _, _) => none

theorem sampleExchange_ok {s : State Nat Nat Nat} (h : sampleExchange q = some (out, s)) :
    Curve.exchange sample.withNewton 8 0 ⟨1, 2⟩ q 0 true sampleStable = (.ok out, s) := by
  unfold sampleExchange at h
  split at h
  next heq =>
    obtain ⟨rfl, rfl⟩ := h
    exact heq
  next => cases h

theorem exchange_solves_sample :
    ∃ s d, Curve.exchange sample.withNewton 8 0 ⟨1, 2⟩ 1000000 0 true sampleStable = (.ok 995822, s) ∧
      Solves 400 d (reserve sample 0 s 2) (reserve sample 0 s 1) := by
  have hview : (sampleExchange 1000000).map Prod.fst = some 995822 := by decide +kernel
  obtain ⟨⟨out, s⟩, hs, rfl⟩ := Option.map_eq_some_iff.mp hview
  have hexchange := sampleExchange_ok hs
  have hpool : sampleStable.curvePools 0 = some ⟨9, ⟨1, 2⟩, 7, 100, 0, 0⟩ := rfl
  obtain ⟨d, -, -, -, hsolves⟩ :=
    exchange_solves sample hpool (by decide) rfl (by decide) (by decide +kernel) hexchange
  exact ⟨s, d, hexchange, hsolves⟩

/-- **The invariant can drop**: an exchange of nothing pays out two units of the base asset, and the
    invariant of what is left is smaller by two. -/
theorem exchange_loses :
    ∃ s d d', Curve.exchange sample.withNewton 8 0 ⟨1, 2⟩ 0 0 true sampleStable = (.ok 2, s) ∧
      computeD (reserve sample 0 sampleStable 1) (reserve sample 0 sampleStable 2) 100 = .ok d ∧
      computeD (reserve sample 0 s 1) (reserve sample 0 s 2) 100 = .ok d' ∧ d' + 2 = d := by
  have hview :
      (sampleExchange 0).map (fun p => (p.1, reserve sample 0 p.2 1, reserve sample 0 p.2 2)) =
      some (2, 10 ^ 21 - 2, 2 * 10 ^ 21) := by
    decide +kernel
  obtain ⟨⟨out, s⟩, hs, hreserves⟩ := Option.map_eq_some_iff.mp hview
  obtain ⟨rfl, hreserves⟩ := Prod.mk.injEq .. ▸ hreserves
  obtain ⟨hbase, hquote⟩ := Prod.mk.injEq .. ▸ hreserves
  refine ⟨s, 2999068031122620559438, 2999068031122620559436, sampleExchange_ok hs, ?_, ?_, rfl⟩
  · decide +kernel
  · rw [hbase, hquote]
    decide +kernel

end Dex
end Composable
