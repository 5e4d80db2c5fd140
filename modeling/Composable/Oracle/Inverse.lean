import Composable.Oracle.Twap

/-!
# `Oracle.Inverse` — prices of amounts and amounts for prices

Embeds `get_price` and `get_price_inverse` of `frame/oracle/src/lib.rs`. A price is for
`10^decimals` of the asset's smallest units, and an amount of them costs its share of it, rounded.

The inverse asks for the price of a unit and divides by that. Its unit is `10 ^ decimals`, and
`^` is the exclusive or of the bits. Any unit would do if its price was exact; the price of so
small a unit is mostly not, and what its rounding makes of an amount can be told from the
remainders (`price_inverse_iff`).
-/

namespace Composable
namespace Oracle

variable {A X : Type}

/-! ## Units and prices -/

/-- `10_u128.checked_pow(exponent)`. -/
def checkedPow10 (exponent : Nat) : Option Nat :=
  if 10 ^ exponent ≤ u128Max then some (10 ^ exponent) else none

/-- `LocalAssets::decimals` is a parameter of the pallet. -/
def getPrice (decimals : X → Except (DispatchError Error) Nat) (assetId : X) (amount : Nat) :
    OracleCall A X Price := do
  let s ← Call.get
  let p ← Call.ofOption (s.prices assetId) (err .priceNotFound)
  let exponent ← Call.ofExcept (decimals assetId)
  let unit ← Call.ofOption (checkedPow10 exponent) (.arithmetic .overflow)
  let price ← Call.ofExcept ((Fixed.multiplyByRational p.price amount unit).mapError fun _ =>
    .arithmetic .overflow)
  pure ⟨price, p.block⟩

def getPriceInverse (decimals : X → Except (DispatchError Error) Nat) (assetId : X) (amount : Nat) :
    OracleCall A X Nat := do
  let exponent ← Call.ofExcept (decimals assetId)
  -- An exclusive or, where the power was meant.
  let priceAssetForUnit ← getPrice decimals assetId (10 ^^^ exponent)
  let result ← Call.ofExcept
    ((Fixed.multiplyByRational amount (10 ^^^ exponent) priceAssetForUnit.price).mapError
    fun _ => .other "result cannot fit in u128")
  Call.ensure (result ≤ u64Max) (.arithmetic .overflow)
  pure result

variable {decimals : X → Except (DispatchError Error) Nat} {s s' : State A X} {x : X} {n y : Nat}
  {p : Price}

theorem checkedPow10_eq_some {d unit : Nat} :
    checkedPow10 d = some unit ↔ 10 ^ d ≤ u128Max ∧ unit = 10 ^ d := by
  unfold checkedPow10
  split
  · rename_i hfits
    rw [Option.some.injEq]
    exact ⟨fun h => ⟨hfits, h.symm⟩, fun h => h.2.symm⟩
  · rename_i hlarge
    exact ⟨nofun, fun h => absurd h.1 hlarge⟩

/-- An amount costs its share of the price. -/
theorem getPrice_ok : getPrice decimals x n s = (.ok p, s') ↔
    ∃ quoted d, s.prices x = some quoted ∧ decimals x = .ok d ∧ 10 ^ d ≤ u128Max ∧
      Fixed.quotient quoted.price n (10 ^ d) ≤ u128Max ∧
      p = ⟨Fixed.quotient quoted.price n (10 ^ d), quoted.block⟩ ∧
      s' = s := by
  have hunit (d : Nat) : 0 < 10 ^ d := Nat.pow_pos (by decide)
  simp only [getPrice, Call.bind_ok, Call.get_ok, Call.ofOption_ok, Call.ofExcept_ok, Call.pure_ok,
    exceptMapError_ok, checkedPow10_eq_some]
  constructor
  · rintro ⟨_, _, ⟨rfl, rfl⟩, quoted, _, ⟨hquoted, rfl⟩, d, _, ⟨hd, rfl⟩, _, _, ⟨⟨hfits, rfl⟩, rfl⟩, price, _,
      ⟨hprice, rfl⟩, rfl, rfl⟩
    obtain ⟨hle, rfl⟩ := (Fixed.multiplyByRational_ok (hunit d)).mp hprice
    exact ⟨quoted, d, hquoted, hd, hfits, hle, rfl, rfl⟩
  · rintro ⟨quoted, d, hquoted, hd, hfits, hle, rfl, rfl⟩
    exact ⟨_, _, ⟨rfl, rfl⟩, quoted, _, ⟨hquoted, rfl⟩, d, _, ⟨hd, rfl⟩, _, _,
      ⟨⟨hfits, rfl⟩, rfl⟩, _, _,
      ⟨(Fixed.multiplyByRational_ok (hunit d)).mpr ⟨hle, rfl⟩, rfl⟩, rfl, rfl⟩

/-- **The inverse** divides by what the unit costs, or by one when that rounds to nothing. -/
theorem getPriceInverse_ok : getPriceInverse decimals x n s = (.ok y, s') ↔
    ∃ quoted d, s.prices x = some quoted ∧ decimals x = .ok d ∧ 10 ^ d ≤ u128Max ∧
      Fixed.quotient quoted.price (10 ^^^ d) (10 ^ d) ≤ u128Max ∧
      y = Fixed.quotient n (10 ^^^ d) (max (Fixed.quotient quoted.price (10 ^^^ d) (10 ^ d)) 1) ∧
      y ≤ u64Max ∧
      s' = s := by
  simp only [getPriceInverse, Call.bind_ok, Call.ofExcept_ok, Call.ensure_ok, Call.pure_ok,
    getPrice_ok, exceptMapError_ok, Fixed.multiplyByRational_eq, Fixed.checked_ok]
  constructor
  · rintro ⟨d, _, ⟨hd, rfl⟩, _, _, ⟨quoted, d', hquoted, hd', hfits, hle, rfl, rfl⟩, _, _, ⟨⟨-, rfl⟩, rfl⟩, _, _,
      ⟨hnarrow, rfl⟩, rfl, rfl⟩
    obtain rfl := Except.ok.inj (hd.symm.trans hd')
    exact ⟨quoted, d, hquoted, hd, hfits, hle, rfl, hnarrow, rfl⟩
  · rintro ⟨quoted, d, hquoted, hd, hfits, hle, rfl, hnarrow, rfl⟩
    have hwide : Fixed.quotient n (10 ^^^ d)
        (max (Fixed.quotient quoted.price (10 ^^^ d) (10 ^ d)) 1) ≤ u128Max :=
      hnarrow.trans (by decide)
    exact ⟨d, _, ⟨hd, rfl⟩, _, _, ⟨quoted, d, hquoted, hd, hfits, hle, rfl, rfl⟩, _, _,
      ⟨⟨hwide, rfl⟩, rfl⟩, (), _, ⟨hnarrow, rfl⟩, rfl, rfl⟩

/-! ## Rounding twice -/

/-- How far the exact value of `a * b / c` is above that of `n / p` rounded
    down, in parts of `c * p`. -/
def excess (a b c n p : Nat) : Int := a * b * p - c * (n - n % p)

/-- What `multiply_by_rational(a, b, c)` rounds to is the integer below `n / p`. -/
def RoundsAlike (a b c n p : Nat) : Prop :=
  if Fixed.RoundedDown a b c then 0 ≤ excess a b c n p ∧ excess a b c n p < c * p
  else -(c * p : Int) < 2 * excess a b c n p ∧ 2 * excess a b c n p ≤ c * p

instance (a b c n p : Nat) : Decidable (RoundsAlike a b c n p) := by
  unfold RoundsAlike
  split <;> infer_instance

theorem quotient_eq_div_iff {a b c n p : Nat} (hc : 0 < c) (hp : 0 < p) :
    Fixed.quotient a b c = n / p ↔ RoundsAlike a b c n p := by
  have hexcess : ((a * b * p : Nat) : Int) = ((n / p * c * p : Nat) : Int) + excess a b c n p := by
    have hwhole : ((n : Int) - (n % p : Nat)) = ((n / p * p : Nat) : Int) := by
      have hsplit := Nat.div_add_mod' n p
      omega
    rw [excess, ← Int.natCast_mod, hwhole]
    push_cast
    ring
  have hscale : ((c * p : Nat) : Int) = c * p := Int.natCast_mul c p
  rw [Fixed.quotient_eq_iff hc, RoundsAlike, ← hscale]
  generalize n / p = m at hexcess ⊢
  generalize excess a b c n p = gap at hexcess ⊢
  -- Each bound, times `p`.
  split
  · have hlow : m * c ≤ a * b ↔ m * c * p ≤ a * b * p := (Nat.mul_le_mul_right_iff hp).symm
    have hhigh : a * b < (m + 1) * c ↔ a * b * p < m * c * p + c * p := by
      rw [← Nat.mul_lt_mul_right hp, Nat.add_mul, Nat.one_mul, Nat.add_mul]
    rw [hlow, hhigh]
    omega
  · have hlow : 2 * (m * c) < 2 * (a * b) + c ↔ 2 * (m * c * p) < 2 * (a * b * p) + c * p := by
      rw [← Nat.mul_lt_mul_right hp, Nat.add_mul, Nat.mul_assoc 2, Nat.mul_assoc 2]
    have hhigh : 2 * (a * b) ≤ 2 * (m * c) + c ↔ 2 * (a * b * p) ≤ 2 * (m * c * p) + c * p := by
      rw [← Nat.mul_le_mul_right_iff hp, Nat.add_mul, Nat.mul_assoc 2, Nat.mul_assoc 2]
    rw [hlow, hhigh]
    omega

/-- Equal quotients round alike, unless a half or more is rounded up. -/
theorem roundsAlike_of_eq {a b c n p : Nat} (hc : 0 < c) (hp : 0 < p)
    (hround : Fixed.RoundedDown a b c ∨ 2 * (n % p) ≤ p) (h : a * b * p = n * c) :
    RoundsAlike a b c n p := by
  have hexcess : excess a b c n p = ((c * (n % p) : Nat) : Int) := by
    have hproduct : (a * b * p : Int) = n * c := by exact_mod_cast h
    rw [excess, hproduct, Nat.cast_mul, Int.natCast_mod]
    ring
  have hrest : c * (n % p) < c * p := Nat.mul_lt_mul_of_pos_left (Nat.mod_lt _ hp) hc
  have hscale : ((c * p : Nat) : Int) = c * p := Int.natCast_mul c p
  have hwhole : 0 < c * p := Nat.mul_pos hc hp
  rw [RoundsAlike, hexcess, ← hscale]
  split
  next => omega
  next hwide =>
      have hhalf : c * (2 * (n % p)) ≤ c * p := Nat.mul_le_mul_left _ (hround.resolve_left hwide)
      rw [Nat.mul_left_comm] at hhalf
      omega

/-- What is asked of the inverse: its amount costs (`getPrice_ok`) at most `amount` and one more
costs that, and it is the exact quotient rounded down. -/
def Inverts (price unit amount result : Nat) : Prop :=
  Fixed.quotient price result unit ≤ amount ∧ amount < Fixed.quotient price (result + 1) unit + 1 ∧
    result = amount * unit / price

/-- The exact quotient inverts the price. -/
theorem inverts_iff {price unit : Nat} (hprice : 0 < price) (hunit : 0 < unit) :
    Inverts price unit n y ↔ y = n * unit / price := by
  refine ⟨fun h => h.2.2, fun h => ⟨?_, ?_, h⟩⟩
  · apply Fixed.quotient_le
    rw [h, Nat.mul_comm]
    exact Nat.div_mul_le_self _ _
  · have hlt : n * unit < (y + 1) * price :=
      (Nat.div_lt_iff_lt_mul hprice).mp (h ▸ Nat.lt_succ_self y)
    apply Nat.lt_succ_of_le
    apply Fixed.le_quotient hunit
    rw [Nat.mul_comm price]
    exact hlt.le

/-- The rounded price of `u` units does for the division by the price of `unit` of them. -/
def UnitAgrees (price u unit amount : Nat) : Prop :=
  RoundsAlike amount u (max (Fixed.quotient price u unit) 1) (amount * unit) price

/-- A unit with an exact price does, unless a half or more is rounded up. -/
theorem unitAgrees_of_dvd {price u unit : Nat} (hprice : 0 < price) (hu : 0 < u) (hunit : 0 < unit)
    (h : unit ∣ price * u) (hround : n * u ≤ u128Max ∨ 2 * (n * unit % price) ≤ price) :
    UnitAgrees price u unit n := by
  obtain ⟨share, hshare⟩ := h
  have hpos : 0 < share := by
    apply Nat.pos_of_ne_zero
    rintro rfl
    exact (Nat.mul_pos hprice hu).ne' hshare
  have hexact : Fixed.quotient price u unit = share :=
    Fixed.quotient_eq hunit (by rw [hshare, Nat.mul_comm])
  rw [UnitAgrees, hexact, max_eq_left hpos]
  refine roundsAlike_of_eq hpos hprice (hround.imp_left .inl) ?_
  calc n * u * price = n * (price * u) := by ring
    _ = n * unit * share := by rw [hshare]; ring

/-- Every asset is priced at `price`. -/
def pricedState (price : Nat) : State Nat Nat :=
  { State.genesis sampleLedger with prices := fun _ => some ⟨price, 1⟩ }

end Oracle
end Composable
