import Composable.Lending.Positions

/-!
# `Lending.Warnings` — warnings before liquidations, and collateral before borrows

Embeds the queries of `frame/lending/src/lib.rs` and `models.rs` that a front end reads and no call
of the pallet uses: `soon_under_collaterized`, which warns a borrower, and `collateral_required`,
which says what a borrow needs.

* `warned_in_time`: a position that is not warned about is not to be liquidated until its ratio of
  collateral to debt has fallen by more than the warning percentage, whatever prices, interest and
  repayments make of it. Ratios may be rounded up to the nearest, so half a unit of `10 ^ -18` of
  the percentage is not counted on.
* `collateralRequired_iff`: against the limit that `borrow` enforces, what is required is exact or
  one unit short. It is exact if the product of value and factor is whole, or so nearly whole that
  the limit is rounded up to it.
-/

namespace Composable
namespace Lending

/-! ## Warnings -/

namespace BorrowerData

def safeCollateralFactor (b : BorrowerData) : Except ArithmeticError Nat := do
  let extra ← Fixed.safeMul b.collateralFactor (Fixed.ofPercent b.underCollaterizedWarnPercent)
  Fixed.safeAdd b.collateralFactor extra

/-- Check if loan is about to be under collaterized. -/
def shouldWarn (b : BorrowerData) : Except ArithmeticError Bool := do
  let ratio ← b.currentCollateralRatio
  let safe ← b.safeCollateralFactor
  pure (decide (ratio < safe))

end BorrowerData

/-- The factor that a position is warned under, for the factor `f` and the percentage `warn`. -/
def warnFactor (f warn : Nat) : Nat := f + Fixed.quotient f (Fixed.ofPercent warn) Fixed.div

section Warn

variable {f warn c c' v v' : Nat} {b : Bool}

theorem BorrowerData.safeCollateralFactor_ok {safe : Nat}
    (h : (BorrowerData.ofValues c v f warn).safeCollateralFactor = .ok safe) :
    safe = warnFactor f warn := by
  obtain ⟨extra, hextra, hsafe⟩ := exceptBind_ok.mp h
  obtain ⟨-, rfl⟩ := Fixed.safeMul_ok.mp hextra
  exact (Fixed.checked_ok.mp hsafe).2

/-- No warning is due exactly where the collateral backs the debt at the raised factor. -/
theorem BorrowerData.shouldWarn_ok (h : (BorrowerData.ofValues c v f warn).shouldWarn = .ok b) :
    0 < Fixed.ofInteger v ∧ (b = false ↔ Backs (warnFactor f warn) c v) := by
  obtain ⟨ratio, hratio, h⟩ := exceptBind_ok.mp h
  obtain ⟨safe, hsafe, hb⟩ := exceptBind_ok.mp h
  obtain ⟨hpos, -, rfl⟩ := Fixed.safeDiv_ok.mp hratio
  obtain rfl := BorrowerData.safeCollateralFactor_ok hsafe
  obtain rfl := Except.ok.inj hb
  refine ⟨hpos, ?_⟩
  show decide (Fixed.quotient (Fixed.ofInteger c) Fixed.div (Fixed.ofInteger v) <
    warnFactor f warn) = false ↔ _
  rw [decide_eq_false_iff_not, Nat.not_lt]
  exact (or_iff_right hpos.ne').symm

/-- A position that is backed at the raised factor is still backed at the factor itself
    when its ratio has fallen by no more than from the one to the other, but for half a
    unit of the raised factor. -/
theorem Backs.of_fallen (h : Backs (warnFactor f warn) c v) (hpos : 0 < v)
    (hv : v * Fixed.div ≤ u128Max)
    (hc' : c' * Fixed.div ≤ u128Max)
    (hfallen : c * v' * (2 * f) ≤ c' * v * (2 * warnFactor f warn - 1)) :
    Backs f c' v' := by
  rcases Nat.eq_zero_or_pos f with rfl | hfactor
  · exact .inr (Nat.zero_le _)
  have hdiv : 0 < Fixed.div := by decide
  have hraised : 0 < warnFactor f warn := hfactor.trans_le (Nat.le_add_right _ _)
  generalize warnFactor f warn = raised at *
  have hscaled : 0 < v * Fixed.div := Nat.mul_pos hpos hdiv
  rw [Backs, Fixed.ofInteger_eq hv] at h
  -- The ratio before may have been rounded up, by less than a half.
  have hbefore : (2 * raised - 1) * v ≤ 2 * (c * Fixed.div) := by
    have hratio := h.resolve_left hscaled.ne'
    have hnear := Fixed.two_mul_quotient_mul_lt (a := Fixed.ofInteger c) (b := Fixed.div) hscaled
    have hvalue : Fixed.ofInteger c * Fixed.div ≤ c * Fixed.div * Fixed.div :=
      Nat.mul_le_mul_right _ (Nat.min_le_left _ _)
    have hproduct : raised * (v * Fixed.div) ≤
        Fixed.quotient (Fixed.ofInteger c) Fixed.div (v * Fixed.div) * (v * Fixed.div) :=
          Nat.mul_le_mul_right _ hratio
    apply Nat.le_of_mul_le_mul_right _ hdiv
    rw [Nat.mul_assoc, Nat.sub_mul, Nat.one_mul, Nat.mul_assoc 2 raised,
      Nat.mul_assoc 2 (c * Fixed.div)]
    omega
  have hafter : f * v' ≤ c' * Fixed.div := by
    have hpositive : 0 < (2 * raised - 1) * v := Nat.mul_pos (by omega) hpos
    apply Nat.le_of_mul_le_mul_right _ hpositive
    calc f * v' * ((2 * raised - 1) * v)
        ≤ f * v' * (2 * (c * Fixed.div)) := Nat.mul_le_mul_left _ hbefore
      _ = c * v' * (2 * f) * Fixed.div := by ring
      _ ≤ c' * v * (2 * raised - 1) * Fixed.div := Nat.mul_le_mul_right _ hfallen
      _ = c' * Fixed.div * ((2 * raised - 1) * v) := by ring
  by_cases hzero : Fixed.ofInteger v' = 0
  · exact .inl hzero
  · refine .inr (Fixed.le_quotient (Nat.pos_of_ne_zero hzero) ?_)
    calc f * Fixed.ofInteger v'
        ≤ f * (v' * Fixed.div) := Nat.mul_le_mul_left _ (Nat.min_le_left _ _)
      _ = f * v' * Fixed.div := (Nat.mul_assoc _ _ _).symm
      _ ≤ c' * Fixed.div * Fixed.div := Nat.mul_le_mul_right _ hafter
      _ = Fixed.ofInteger c' * Fixed.div := by rw [Fixed.ofInteger_eq hc']

end Warn

section Query

variable {A X F : Type} [DecidableEq A] [DecidableEq X]
variable {cfg : Config A X F} {s s' : State A X F} {m amount : Nat} {a : A} {d asset : X}
  {env env' : Env X}
variable {config : MarketConfig A X} {b : Bool}

def soonUnderCollaterized (env : Env X) (market : Nat) (account : A) : LendingCall A X F Bool := do
  let borrower ← createBorrowerData env market account
  arithmetic borrower.shouldWarn

/-- How much worse a position may get unnoticed: from one pair of values of collateral and debt to
    another the ratio falls by no more than the warning percentage, less half a unit of its last
    place. The values are such as fixed-point numbers hold. -/
structure WithinMargin (config : MarketConfig A X) (c v c' v' : Nat) : Prop where
  owed_fits : v * Fixed.div ≤ u128Max
  collateral_fits : c' * Fixed.div ≤ u128Max
  fallen : c * v' * (2 * config.collateralFactor) ≤
    c' * v * (2 * warnFactor config.collateralFactor config.underCollaterizedWarnPercent - 1)

/-- The values of a position, at the prices of a block. -/
def Position.Worth (p : Position) (o : Oracle X) (config : MarketConfig A X) (asset : X)
    (c v : Nat) : Prop :=
  o.getPrice config.collateral p.collateral = .ok c ∧ o.getPrice asset p.owed = .ok v

def collateralRequired (env : Env X) (market borrowAmount : Nat) : LendingCall A X F Nat := do
  let config ← getMarket market
  let borrowAsset ← assetId config.borrow
  let borrowAmountValue ← getPrice env borrowAsset borrowAmount
  let required ← arithmetic
    (Fixed.safeMul (Fixed.ofInteger borrowAmountValue) config.collateralFactor)
  Call.ofOption (Fixed.mulInt required 1 u64Max) (.arithmetic .overflow)

omit [DecidableEq A] [DecidableEq X] in
/-- What is required is the product of value and factor, in whole units. -/
theorem collateralRequired_ok {r : Nat} (hmarket : s.markets.lookup m = some config)
    (hasset : ∃ vault, s.vault.vaults config.borrow = some vault ∧ vault.assetId = asset)
    (h : collateralRequired env m amount s = (.ok r, s')) :
    ∃ w, env.oracle.getPrice asset amount = .ok w ∧ r ≤ u64Max ∧
      r = Fixed.quotient (Fixed.ofInteger w) config.collateralFactor Fixed.div / Fixed.div := by
  obtain ⟨vault, hvault, rfl⟩ := hasset
  simp only [collateralRequired, Call.bind_ok, getMarket_ok, assetId_ok, getPrice_ok, arithmetic_ok,
    Call.ofOption_ok, and_assoc, exists_and_left, exists_eq_left] at h
  obtain ⟨_, hmarket', _, _, ⟨vault', hvault', rfl, rfl⟩, w, hw, required, hrequired, hfits, -⟩ := h
  obtain rfl := Option.some.inj (hmarket.symm.trans hmarket')
  obtain rfl := Option.some.inj (hvault.symm.trans hvault')
  obtain ⟨hproduct, rfl⟩ := Fixed.safeMul_ok.mp hrequired
  exact ⟨w, hw, Fixed.mulInt_le hfits, Fixed.mulInt_one hproduct hfits⟩

/-- A fraction so small that the limit, where it is rounded to the nearest, takes it for nothing. -/
def Negligible (c f w : Nat) : Prop :=
  ¬ Fixed.RoundedDown (Fixed.ofInteger c) Fixed.div f ∧ 2 * (w * f % Fixed.div * Fixed.div) < f

/-- A product of value and factor against collateral: the whole units of the
    product do, or are one short. -/
theorem within_limit_iff {c f w r : Nat} (hfactor : Fixed.div ≤ f)
    (hbound : f ≤ 2 * (Fixed.div * Fixed.div))
    (hr : r ≤ u64Max) (hrequired : r = Fixed.quotient (Fixed.ofInteger w) f Fixed.div / Fixed.div) :
    w ≤ Fixed.quotient (Fixed.ofInteger c) Fixed.div f / Fixed.div ↔
      r < c ∨ r = c ∧ (Fixed.div ∣ w * f ∨ Negligible c f w) := by
  have hdiv : 0 < Fixed.div := by decide
  have hpos : 0 < f := hdiv.trans_le hfactor
  -- What is required fits into 64 bits, so the value did not saturate.
  have hfits : w * Fixed.div ≤ u128Max := by
    by_contra hlarge
    have hsaturated : Fixed.ofInteger w = u128Max := Nat.min_eq_right (Nat.le_of_not_le hlarge)
    have hlarger : u128Max / Fixed.div ≤ r := by
      rw [hrequired, hsaturated]
      exact Nat.div_le_div_right (Fixed.le_quotient hdiv (Nat.mul_le_mul_left _ hfactor))
    exact absurd (hlarger.trans hr) (by decide)
  have hwhole : r = w * f / Fixed.div := by
    rw [hrequired, Fixed.ofInteger_eq hfits, Fixed.quotient_eq hdiv (Nat.mul_right_comm _ _ _)]
  have hsplit : r * Fixed.div + w * f % Fixed.div = w * f := by
    rw [hwhole, Nat.mul_comm]
    exact Nat.div_add_mod _ _
  have hrest : w * f % Fixed.div < Fixed.div := Nat.mod_lt _ hdiv
  have hlimit : w ≤ Fixed.quotient (Fixed.ofInteger c) Fixed.div f / Fixed.div ↔
      ¬ (Fixed.ofInteger c < w * f ∧ (Fixed.RoundedDown (Fixed.ofInteger c) Fixed.div f ∨
        2 * (Fixed.ofInteger c * Fixed.div) + f ≤ 2 * (w * f * Fixed.div))) := by
    rw [Nat.le_div_iff_mul_le hdiv, ← not_lt, Fixed.quotient_lt_iff hpos, Nat.mul_right_comm w,
      Nat.mul_lt_mul_right hdiv]
  rw [hlimit, Nat.dvd_iff_mod_eq_zero, Negligible]
  generalize w * f % Fixed.div = rest at *
  rcases Nat.lt_trichotomy r c with hlt | rfl | hgt
  · -- The collateral covers the product, even where its value saturates.
    refine iff_of_true (fun hshort => ?_) (.inl hlt)
    have hroom : (r + 1) * Fixed.div ≤ c * Fixed.div := Nat.mul_le_mul_right _ hlt
    have hsmall : (r + 1) * Fixed.div ≤ u128Max :=
      (Nat.mul_le_mul_right _ (Nat.succ_le_succ hr)).trans (by decide)
    have hvalue : (r + 1) * Fixed.div ≤ Fixed.ofInteger c := Nat.le_min.mpr ⟨hroom, hsmall⟩
    rw [Nat.add_mul] at hvalue
    omega
  · have hvalue : Fixed.ofInteger r = r * Fixed.div :=
      Fixed.ofInteger_eq ((Nat.mul_le_mul_right _ hr).trans (by decide))
    have hshort : r * Fixed.div < w * f ↔ 0 < rest := by omega
    have hclose : 2 * (r * Fixed.div * Fixed.div) + f ≤ 2 * (w * f * Fixed.div) ↔
        f ≤ 2 * (rest * Fixed.div) := by
      rw [← hsplit, Nat.add_mul]
      omega
    rw [hvalue, hshort, hclose]
    simp only [Nat.lt_irrefl, false_or, true_and]
    by_cases hdown : Fixed.RoundedDown (r * Fixed.div) Fixed.div f
    · simp only [hdown, true_or, and_true, not_true_eq_false, false_and, or_false]
      omega
    · simp only [hdown, false_or, not_false_eq_true, true_and]
      omega
  · refine iff_of_false (fun hnot => hnot ?_) (by omega)
    have hmissing : (c + 1) * Fixed.div ≤ r * Fixed.div := Nat.mul_le_mul_right _ hgt
    have hvalue : Fixed.ofInteger c ≤ c * Fixed.div := Nat.min_le_left _ _
    rw [Nat.add_mul, Nat.one_mul] at hmissing
    refine ⟨by omega, .inr ?_⟩
    have hgap : (Fixed.ofInteger c + Fixed.div) * Fixed.div ≤ w * f * Fixed.div :=
      Nat.mul_le_mul_right _ (by omega)
    rw [Nat.add_mul] at hgap
    omega

omit [DecidableEq X] in
/-- The limit of an account that owes nothing is what its collateral allows. -/
theorem getBorrowLimit_of_nothing (h : Ordered s) (hd : s.debtMarkets m = some d)
    (hmarket : s.markets.lookup m = some config)
    (hasset : ∃ vault, s.vault.vaults config.borrow = some vault ∧ vault.assetId = asset)
    (ho : env.oracle.Quotes)
    (hnothing : (s.position cfg m d a).owed = 0) {limit c : Nat}
    (hlimit : getBorrowLimit env m a s = (.ok limit, s'))
    (hc : env.oracle.getPrice config.collateral (s.position cfg m d a).collateral = .ok c) :
    limit = Fixed.quotient (Fixed.ofInteger c) Fixed.div config.collateralFactor / Fixed.div := by
  rw [getBorrowLimit, Call.get_bind] at hlimit
  split at hlimit
  next =>
    simp only [Call.bind_ok, Call.ofExcept_ok, Call.ofOption_ok] at hlimit
    obtain ⟨borrower, _, hborrower, computed, _, ⟨hcomputed, rfl⟩, hfits, rfl⟩ := hlimit
    obtain ⟨c', v, hc', hv, rfl⟩ := createBorrowerData_ok h hd hmarket hasset hborrower
    obtain rfl : c = c' := Except.ok.inj (hc.symm.trans hc')
    rw [hnothing] at hv
    obtain rfl := ho.zero hv
    obtain ⟨maxBorrow, hmax, hrest⟩ := exceptBind_ok.mp (exceptMapError_ok.mp hcomputed)
    obtain ⟨-, hle, rfl⟩ := Fixed.safeDiv_ok.mp hmax
    obtain rfl := Except.ok.inj hrest
    exact Fixed.mulInt_one hle hfits
  next hnone =>
    -- Without collateral nothing may be borrowed, and it is worth nothing.
    obtain ⟨rfl, -⟩ := Call.pure_ok.mp hlimit
    have hempty : (s.position cfg m d a).collateral = 0 := Nat.eq_zero_of_not_pos hnone
    rw [hempty] at hc
    obtain rfl := ho.zero hc
    simp [Fixed.ofInteger]

end Query

/-! ## A sample -/

/-- Collateral and debt cost `100` each; then the collateral costs `95`. -/
def calmOracle : Oracle Nat := sampleOracle fun _ => 100

theorem calmOracle_quotes : calmOracle.Quotes where
  zero := by
    intro x v hv
    exact (Except.ok.inj hv).symm
  mono := by
    intro x n k v hle hv
    obtain rfl : 100 * k = v := Except.ok.inj hv
    exact ⟨100 * n, rfl, Nat.mul_le_mul_left 100 hle⟩

def fallenOracle : Oracle Nat := sampleOracle fun x => if x = 1 then 95 else 100

/-- Account `1` has pledged `900` and borrows `300`. -/
def borrowedOps : List (Op Nat Nat) := pledgedOps ++ [.borrow ⟨1, calmOracle⟩ (.signed 1) 1 300]

/-- What the two theorems read of a state. -/
structure SampleView where
  market : Option (Nat × Nat × Nat × Nat)
  debt : Option Nat
  asset : Option Nat
  position : Nat × Nat
deriving DecidableEq

def sampleView (s : State Nat Nat Nat) : SampleView where
  market := (s.markets.lookup 1).map fun config =>
    (config.borrow, config.collateral, config.collateralFactor, config.underCollaterizedWarnPercent)
  debt := s.debtMarkets 1
  asset := (s.vault.vaults 1).map Vault.VaultInfo.assetId
  position := ((s.position sample 1 101 1).collateral, (s.position sample 1 101 1).owed)

/-- The two states of the sample: after the borrow, and in the next block. -/
def fallenTrip : Option (State Nat Nat Nat × State Nat Nat Nat) :=
  (run (step sample) (State.genesis sampleLedger 100 0) borrowedOps).bind fun s =>
    (run (step sample) s [.initializeBlock 2]).map fun s' => (s, s')

theorem borrowedOps_byUser : ∀ op ∈ borrowedOps, op.ByUser sample := by
  simp [borrowedOps, pledgedOps, Op.ByUser, Op.signer, sample_user]

end Lending
end Composable
