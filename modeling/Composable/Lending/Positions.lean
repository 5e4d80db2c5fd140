import Composable.Lending.Books
import Composable.Lending.Validity

/-!
# `Lending.Positions` — whether a borrower can make its own position liquidatable

A position is the collateral of an account and what it owes. `borrow` and `withdraw_collateral`
compare what the two are worth before they go through, `should_liquidate` compares it again, and at
fixed prices they agree on when collateral backs a debt (`Backs`). But `borrow` compares what was
owed and the amount, and only then mixes the index of the account with that of the market, in whole
percent: a second borrow can make more of the debt than was compared, and so the position of a
borrower within its limit is liquidatable (`borrow_liquidatable`).

The limit itself is rounded to the nearest where it does not fit, and so is the ratio that
it is compared with later. The two roundings agree as long as the collateral is worth the
square of the collateral factor.

`BorrowsWithin` says that a borrow does neither. Then the position is never to be liquidated,
whatever else its owner and all others do (`positions_stay_safe`).
-/

namespace Composable
namespace Lending

/-! ## What amounts are worth -/

/-- The oracle quotes at fixed prices: nothing is worth nothing, and more is not worth less. -/
structure Oracle.Quotes {X : Type} (o : Oracle X) : Prop where
  zero : ∀ {x v}, o.getPrice x 0 = .ok v → v = 0
  mono : ∀ {x n k v}, n ≤ k → o.getPrice x k = .ok v → ∃ w, o.getPrice x n = .ok w ∧ w ≤ v

/-- Collateral worth `c` backs a debt worth `v` at collateral factor `f`, by the ratio of the
    two. -/
def Backs (f c v : Nat) : Prop :=
  Fixed.ofInteger v = 0 ∨ f ≤ Fixed.quotient (Fixed.ofInteger c) Fixed.div (Fixed.ofInteger v)

/-- What may be borrowed on collateral worth `c` is rounded down, or else the collateral is worth
    the square of the factor. -/
def LimitFits (f c : Nat) : Prop :=
  Fixed.RoundedDown (Fixed.ofInteger c) Fixed.div f ∨ f * f ≤ Fixed.ofInteger c * Fixed.div

instance (f c : Nat) : Decidable (LimitFits f c) := inferInstanceAs (Decidable (_ ∨ _))

section Backs

variable {f c c' v v' w warn limit amount : Nat} {b : Bool}

theorem ofInteger_mono (h : v ≤ v') : Fixed.ofInteger v ≤ Fixed.ofInteger v' :=
  min_le_min_right _ (Nat.mul_le_mul_right _ h)

/-- A unit has more than one limb of 32 bits. -/
theorem limb_le_ofInteger (h : Fixed.ofInteger v ≠ 0) : 2 ^ 32 ≤ Fixed.ofInteger v := by
  rcases Nat.eq_zero_or_pos v with rfl | hv
  · exact absurd (by decide) h
  · calc 2 ^ 32 ≤ Fixed.ofInteger 1 := by decide
      _ ≤ Fixed.ofInteger v := ofInteger_mono hv

/-- More collateral backs what is worth less. -/
theorem Backs.of_le (h : Backs f c v) (hc : c ≤ c') (hv : Fixed.ofInteger v' ≤ Fixed.ofInteger v) :
    Backs f c' v' := by
  by_cases hzero : Fixed.ofInteger v' = 0
  · exact .inl hzero
  · right
    calc f ≤ Fixed.quotient (Fixed.ofInteger c) Fixed.div (Fixed.ofInteger v) :=
          h.resolve_left fun hv0 => hzero (Nat.le_zero.mp (hv0 ▸ hv))
      _ ≤ Fixed.quotient (Fixed.ofInteger c) Fixed.div (Fixed.ofInteger v') :=
          Fixed.quotient_anti (limb_le_ofInteger hzero) hv
      _ ≤ _ := Fixed.quotient_mono (Nat.mul_le_mul_right _ (ofInteger_mono hc))

/-- More collateral backs less debt. -/
theorem Backs.mono (h : Backs f c v) (hc : c ≤ c') (hv : v' ≤ v) : Backs f c' v' :=
  h.of_le hc (ofInteger_mono hv)

/-- Liquidation is due exactly where the collateral does not back the debt. -/
theorem BorrowerData.shouldLiquidate_ok
    (h : (BorrowerData.ofValues c v f warn).shouldLiquidate = .ok b) :
    b = false ↔ Backs f c v := by
  unfold BorrowerData.shouldLiquidate at h
  split at h
  next hzero =>
    obtain rfl := Except.ok.inj h
    exact iff_of_true rfl (.inl hzero)
  next hne =>
    obtain ⟨ratio, hratio, hb⟩ := exceptBind_ok.mp h
    obtain ⟨-, -, rfl⟩ := Fixed.safeDiv_ok.mp hratio
    obtain rfl := Except.ok.inj hb
    show decide (Fixed.quotient (Fixed.ofInteger c) Fixed.div (Fixed.ofInteger v) < f) = false ↔ _
    rw [decide_eq_false_iff_not, Nat.not_lt]
    exact (or_iff_right hne).symm

/-- A borrow within the limit leaves a debt that is backed, if that is worth no more than the
    debt before and the amount. -/
theorem Backs.borrow (h : Backs f c v) (hfits : LimitFits f c)
    (hlimit : (BorrowerData.ofValues c v f warn).borrowForCollateral = .ok limit)
    (hw : w ≤ limit / Fixed.div) (hv' : v' ≤ v + w) : Backs f c v' := by
  obtain ⟨maxBorrow, hmax, hrest⟩ := exceptBind_ok.mp hlimit
  obtain ⟨-, -, rfl⟩ := Fixed.safeDiv_ok.mp hmax
  obtain rfl := Except.ok.inj hrest
  have hgrown : Fixed.ofInteger v' ≤
      Fixed.ofInteger v + (Fixed.quotient (Fixed.ofInteger c) Fixed.div f - Fixed.ofInteger v) := by
    have hworth :
        w * Fixed.div ≤ Fixed.quotient (Fixed.ofInteger c) Fixed.div f - Fixed.ofInteger v :=
      (Nat.le_div_iff_mul_le (by decide)).mp hw
    have hsum : v' * Fixed.div ≤ v * Fixed.div + w * Fixed.div := by
      rw [← Nat.add_mul]
      exact Nat.mul_le_mul_right _ hv'
    calc Fixed.ofInteger v'
        ≤ min (v * Fixed.div + w * Fixed.div) u128Max := min_le_min_right _ hsum
      _ ≤ Fixed.ofInteger v + w * Fixed.div := by
          unfold Fixed.ofInteger Fixed.saturated
          omega
      _ ≤ _ := Nat.add_le_add_left hworth _
  -- Either there was room, and the debt is at most what the collateral allows, or nothing was
  -- added.
  rcases Nat.le_total (Fixed.ofInteger v) (Fixed.quotient (Fixed.ofInteger c) Fixed.div f) with
    hroom | hfull
  · rw [Nat.add_sub_cancel' hroom] at hgrown
    by_cases hzero : Fixed.ofInteger v' = 0
    · exact .inl hzero
    · exact .inr (Fixed.le_quotient_of_le_quotient (limb_le_ofInteger hzero) hfits hgrown)
  · rw [Nat.sub_eq_zero_of_le hfull, Nat.add_zero] at hgrown
    exact h.of_le (Nat.le_refl c) hgrown

end Backs

/-! ## Positions -/

structure Position where
  collateral : Nat
  owed : Nat

/-- What is owed has a price, and the collateral backs it. -/
structure Position.Safe {A X : Type} (o : Oracle X) (config : MarketConfig A X) (asset : X)
    (p : Position) : Prop where
  priced : 0 < p.owed → ∃ v, o.getPrice asset p.owed = .ok v
  backed : ∀ {c v}, o.getPrice config.collateral p.collateral = .ok c →
    o.getPrice asset p.owed = .ok v →
    Backs config.collateralFactor c v

section Safe

variable {A X : Type} {o : Oracle X} {config : MarketConfig A X} {asset : X} {p p' : Position}

/-- Without a debt it is. -/
theorem Position.Safe.of_nothing (ho : o.Quotes) (h : p.owed = 0) : p.Safe o config asset where
  priced hpos := absurd h hpos.ne'
  backed := by
    intro c v _ hv
    rw [h] at hv
    obtain rfl := ho.zero hv
    exact .inl (by decide)

/-- More collateral, and a smaller debt. -/
theorem Position.Safe.mono (ho : o.Quotes) (h : p.Safe o config asset)
    (hcollateral : p.collateral ≤ p'.collateral)
    (howed : p'.owed ≤ p.owed) : p'.Safe o config asset := by
  rcases Nat.eq_zero_or_pos p'.owed with hzero | hpos
  · exact .of_nothing ho hzero
  · obtain ⟨v, hv⟩ := h.priced (hpos.trans_le howed)
    obtain ⟨v', hv', hle⟩ := ho.mono howed hv
    refine ⟨fun _ => ⟨v', hv'⟩, fun {c' w} hc' hw => ?_⟩
    obtain ⟨c, hc, hcc⟩ := ho.mono hcollateral hc'
    obtain rfl : v' = w := Except.ok.inj (hv'.symm.trans hw)
    exact (h.backed hc hv).mono hcc hle

end Safe

variable {A X F : Type} [DecidableEq A] [DecidableEq X]
variable {cfg : Config A X F} {s s' : State A X F} {m amount : Nat} {a : A} {d asset : X}
  {o : Oracle X}
variable {config : MarketConfig A X} {u : Unit}

/-- The position of an account in market `m`, whose debt token is `d`. -/
def State.position (s : State A X F) (cfg : Config A X F) (m : Nat) (d : X) (a : A) : Position where
  collateral := (s.accountCollateral.get m a).getD 0
  owed := (s.book cfg m d).owed a

section Queries

variable {env : Env X} {owed : Option Nat} {b : Bool}

omit [DecidableEq A] [DecidableEq X] in
theorem getPrice_ok {v : Nat} :
    (getPrice env asset amount : LendingCall A X F Nat) s = (.ok v, s') ↔
      env.oracle.getPrice asset amount = .ok v ∧ s' = s := by
  rw [getPrice, Call.ofExcept_ok, exceptMapError_ok]

omit [DecidableEq X] in
/-- What is found to be owed is what is owed by the book. -/
theorem owed_position (h : Ordered s) (hd : s.debtMarkets m = some d)
    (howed : borrowBalanceCurrent m a s = (.ok owed, s)) :
    owed.getD 0 = (s.position cfg m d a).owed := by
  cases owed with
  | some owed => exact owed_book h hd howed
  | none =>
      obtain ⟨-, d', hd', ⟨-, hnone⟩ | ⟨i, j, -, hj, hfound⟩⟩ := borrowBalanceCurrent_ok.mp howed
      · cases hnone
      · obtain rfl := Option.some.inj (hd.symm.trans hd')
        show 0 = (s.debtIndex.get m a).elim 0 fun j =>
          debtOf (s.ledger.reserved d a) ((s.borrowIndex m).getD 0) j
        rw [hj, borrowFromPrincipal_none.mp hfound, Option.elim_some, zero_debtOf]

omit [DecidableEq X] in
/-- The values that a borrower is judged by are those of its position. -/
theorem createBorrowerData_ok {borrower : BorrowerData} (h : Ordered s)
    (hd : s.debtMarkets m = some d) (hmarket : s.markets.lookup m = some config)
    (hasset : ∃ vault, s.vault.vaults config.borrow = some vault ∧ vault.assetId = asset)
    (hborrower : createBorrowerData env m a s = (.ok borrower, s')) :
    ∃ c v, env.oracle.getPrice config.collateral (s.position cfg m d a).collateral = .ok c ∧
      env.oracle.getPrice asset (s.position cfg m d a).owed = .ok v ∧
      borrower = .ofValues c v config.collateralFactor config.underCollaterizedWarnPercent := by
  obtain ⟨vault, hvault, rfl⟩ := hasset
  simp only [createBorrowerData, collateralOfAccount, Call.bind_ok, getMarket_ok, Call.get_bind,
    Call.ofOption_ok, getPrice_ok, assetId_ok, Call.pure_ok, and_assoc, exists_and_left,
    exists_eq_left] at hborrower
  obtain ⟨_, hmarket', collateral, hcollateral, c, hc, _, _, ⟨vault', hvault', rfl, rfl⟩, owed, _,
    howed, v, hv, rfl, -⟩ := hborrower
  obtain rfl := borrowBalanceCurrent_reads.ok howed
  obtain rfl := Option.some.inj (hmarket.symm.trans hmarket')
  obtain rfl := Option.some.inj (hvault.symm.trans hvault')
  refine ⟨c, v, ?_, ?_, rfl⟩
  · rw [← hc, State.position, hcollateral, Option.getD_some]
  · rw [← owed_position h hd howed, hv]

omit [DecidableEq X] in
/-- A safe position is not to be liquidated. -/
theorem shouldLiquidate_of_safe (h : Ordered s) (hd : s.debtMarkets m = some d)
    (hmarket : s.markets.lookup m = some config)
    (hasset : ∃ vault, s.vault.vaults config.borrow = some vault ∧ vault.assetId = asset)
    (hsafe : (s.position cfg m d a).Safe env.oracle config asset)
    (hb : shouldLiquidate env m a s = (.ok b, s')) : b = false := by
  simp only [shouldLiquidate, Call.bind_ok, arithmetic_ok] at hb
  obtain ⟨borrower, _, hborrower, hb, -⟩ := hb
  obtain ⟨c, v, hc, hv, rfl⟩ := createBorrowerData_ok h hd hmarket hasset hborrower
  exact (BorrowerData.shouldLiquidate_ok hb).mpr (hsafe.backed hc hv)

/-- A withdrawal that goes through has looked at what is left. -/
theorem withdrawCollateral_backs (h : Ordered s) (hd : s.debtMarkets m = some d)
    (hmarket : s.markets.lookup m = some config)
    (hasset : ∃ vault, s.vault.vaults config.borrow = some vault ∧ vault.assetId = asset)
    (hwithdraw : withdrawCollateralInternal cfg env m a amount s = (.ok u, s')) :
    ∃ c v, env.oracle.getPrice config.collateral ((s.position cfg m d a).collateral - amount) =
      .ok c ∧
      env.oracle.getPrice asset (s.position cfg m d a).owed = .ok v ∧
      Backs config.collateralFactor c v := by
  obtain ⟨vault, hvault, rfl⟩ := hasset
  simp only [withdrawCollateralInternal, Call.bind_ok, getMarket_ok, Call.get_bind, Call.ensure_ok,
    getPrice_ok, assetId_ok, arithmetic_ok, Fixed.checkedSub_ok, and_assoc, exists_and_left,
    exists_eq_left, exists_const] at hwithdraw
  obtain ⟨_, hmarket', -, _, _, ⟨vault', hvault', rfl, rfl⟩, owed, _, howed, h'⟩ := hwithdraw
  obtain rfl := borrowBalanceCurrent_reads.ok howed
  obtain ⟨v, hv, -, c, hc, critical, hcritical, hnot, -⟩ := h'
  obtain rfl := Option.some.inj (hmarket.symm.trans hmarket')
  obtain rfl := Option.some.inj (hvault.symm.trans hvault')
  refine ⟨c, v, hc, ?_, (BorrowerData.shouldLiquidate_ok hcritical).mp hnot⟩
  rw [← owed_position h hd howed, hv]

/-- A borrow that goes through is within the limit. -/
theorem borrow_limit (hborrow : borrowInternal cfg env m a amount s = (.ok u, s'))
    (hmarket : s.markets.lookup m = some config)
    (hasset : ∃ vault, s.vault.vaults config.borrow = some vault ∧ vault.assetId = asset) :
    ∃ limit w, getBorrowLimit env m a s = (.ok limit, s) ∧
      env.oracle.getPrice asset amount = .ok w ∧ w ≤ limit := by
  obtain ⟨vault, hvault, rfl⟩ := hasset
  simp only [borrowInternal, canBorrow, Call.bind_ok, getMarket_ok, assetId_ok, Call.get_bind,
    Call.ensure_ok, getPrice_ok, and_assoc, exists_and_left, exists_eq_left, exists_const] at hborrow
  obtain ⟨_, hmarket', _, _, ⟨vault', -, rfl, rfl⟩, -, _,
    ⟨_, _, ⟨vault'', hvault'', rfl, rfl⟩, limit, _, hlimit, w, hw, hle, -⟩, -⟩ := hborrow
  obtain rfl := getBorrowLimit_reads.ok hlimit
  obtain rfl := Option.some.inj (hmarket.symm.trans hmarket')
  obtain rfl := Option.some.inj (hvault.symm.trans hvault'')
  exact ⟨limit, w, hlimit, hw, hle⟩

end Queries

omit [DecidableEq X] in
/-- The borrow limit of a position: nothing without collateral, else what
    `borrow_for_collateral` leaves. -/
theorem getBorrowLimit_ok {env : Env X} {l : Nat} (h : Ordered s) (hd : s.debtMarkets m = some d)
    (hmarket : s.markets.lookup m = some config)
    (hasset : ∃ vault, s.vault.vaults config.borrow = some vault ∧ vault.assetId = asset)
    (hlimit : getBorrowLimit env m a s = (.ok l, s')) :
    l = 0 ∨ ∃ c v limit, env.oracle.getPrice config.collateral (s.position cfg m d a).collateral =
      .ok c ∧
      env.oracle.getPrice asset (s.position cfg m d a).owed = .ok v ∧
      (BorrowerData.ofValues c v config.collateralFactor
        config.underCollaterizedWarnPercent).borrowForCollateral =
        .ok limit ∧ l = limit / Fixed.div := by
  rw [getBorrowLimit, Call.get_bind] at hlimit
  split at hlimit
  next =>
    simp only [Call.bind_ok, Call.ofExcept_ok, Call.ofOption_ok] at hlimit
    obtain ⟨borrower, _, hborrower, limit, _, ⟨hcomputed, rfl⟩, hfits, rfl⟩ := hlimit
    obtain ⟨c, v, hc, hv, rfl⟩ := createBorrowerData_ok h hd hmarket hasset hborrower
    have hlimit' := exceptMapError_ok.mp hcomputed
    refine .inr ⟨c, v, limit, hc, hv, hlimit', Fixed.mulInt_one ?_ hfits⟩
    obtain ⟨maxBorrow, hmax, hrest⟩ := exceptBind_ok.mp hlimit'
    obtain rfl := Except.ok.inj hrest
    obtain ⟨-, hle, rfl⟩ := Fixed.safeDiv_ok.mp hmax
    exact (Nat.sub_le _ _).trans hle
  next => exact .inl (Call.pure_ok.mp hlimit).1

/-! ## Steps -/

/-- An amount has a price, of at most the prices of two others together. -/
def Oracle.Within (o : Oracle X) (asset : X) (n owed amount : Nat) : Prop :=
  ∃ v ∈ (o.getPrice asset n).toOption,
    v ≤ (o.getPrice asset owed).toOption.getD 0 + (o.getPrice asset amount).toOption.getD 0

instance (o : Oracle X) (asset : X) (n owed amount : Nat) :
    Decidable (o.Within asset n owed amount) :=
  inferInstanceAs (Decidable (∃ v ∈ (o.getPrice asset n).toOption, _ ≤ _))

/-- What each borrow of the account on the market has to meet, in the state before it: by the
    mixed index the debt has a price, of at most the prices of the debt before and of the
    amount; and the limit fits. -/
def BorrowsWithin (cfg : Config A X F) (m : Nat) (a : A) (s : State A X F) : Op A X → Prop
  | .borrow env (.signed owner) market amount => owner = a ∧ market = m →
      ∀ config ∈ s.markets.lookup m, ∀ vault ∈ s.vault.vaults config.borrow, ∀ d ∈ s.debtMarkets m,
        ∀ marketIndex ∈ s.borrowIndex m,
          env.oracle.Within vault.assetId
            (((s.book cfg m d).borrow a amount (s.nextIndex cfg m a amount marketIndex)).owed a)
            ((s.book cfg m d).owed a) amount ∧
          ∀ c ∈ (env.oracle.getPrice config.collateral ((s.accountCollateral.get m a).getD 0)).toOption,
            LimitFits config.collateralFactor c
  | _ => True

instance (cfg : Config A X F) (m : Nat) (a : A) (s : State A X F) :
    (op : Op A X) → Decidable (BorrowsWithin cfg m a s op)
  | .borrow env (.signed owner) market amount => inferInstanceAs (Decidable (owner = a ∧ market = m →
      ∀ config ∈ s.markets.lookup m, ∀ vault ∈ s.vault.vaults config.borrow, ∀ d ∈ s.debtMarkets m,
        ∀ marketIndex ∈ s.borrowIndex m, env.oracle.Within vault.assetId _ _ amount ∧
          ∀ c ∈ (env.oracle.getPrice config.collateral ((s.accountCollateral.get m a).getD 0)).toOption,
            LimitFits config.collateralFactor c))
  | .borrow _ .root _ _ | .borrow _ .none _ _ | .createMarket .. | .updateMarket ..
  | .depositCollateral ..
  | .withdrawCollateral .. | .repayBorrow .. | .liquidate .. | .initializeBlock _ => .isTrue trivial

/-- A borrow that goes through keeps the position safe, if the debt is worth no
    more than was compared. -/
theorem Position.Safe.borrow {env : Env X} {owed' : Nat} (h : Ordered s)
    (hd : s.debtMarkets m = some d) (hmarket : s.markets.lookup m = some config)
    (hasset : ∃ vault, s.vault.vaults config.borrow = some vault ∧ vault.assetId = asset)
    (hsafe : (s.position cfg m d a).Safe env.oracle config asset)
    (hborrow : borrowInternal cfg env m a amount s = (.ok u, s'))
    (hwithin : env.oracle.Within asset owed' (s.position cfg m d a).owed amount)
    (hfits : ∀ c ∈ (env.oracle.getPrice config.collateral (s.position cfg m d a).collateral).toOption,
      LimitFits config.collateralFactor c) :
    Position.Safe env.oracle config asset ⟨(s.position cfg m d a).collateral, owed'⟩ := by
  obtain ⟨v', hv', hle⟩ := hwithin
  have hpriced : env.oracle.getPrice asset owed' = .ok v' := by
    cases hprice : env.oracle.getPrice asset owed' with
    | error e =>
        rw [hprice] at hv'
        cases hv'
    | ok v =>
        rw [hprice] at hv'
        exact congrArg _ (Option.some.inj hv')
  obtain ⟨l, w, hlimit, hw, hwl⟩ := borrow_limit hborrow hmarket hasset
  refine ⟨fun _ => ⟨v', hpriced⟩, fun {c z} hc hz => ?_⟩
  obtain rfl : v' = z := Except.ok.inj (hpriced.symm.trans hz)
  rw [hw] at hle
  rcases getBorrowLimit_ok h hd hmarket hasset hlimit with
    rfl | ⟨c', v, limit, hc', hv, hcomputed, rfl⟩
  · -- Nothing may be borrowed, so the amount is worth nothing.
    obtain rfl : w = 0 := Nat.le_zero.mp hwl
    cases hv : env.oracle.getPrice asset (s.position cfg m d a).owed with
    | error e =>
        rw [hv] at hle
        obtain rfl : v' = 0 := Nat.le_zero.mp hle
        exact .inl (by decide)
    | ok v =>
        rw [hv] at hle
        exact (hsafe.backed hc hv).mono (Nat.le_refl c) hle
  · obtain rfl : c' = c := Except.ok.inj (hc'.symm.trans hc)
    rw [hv] at hle
    have hlimits : LimitFits config.collateralFactor c' := hfits c' (by rw [hc]; rfl)
    exact (hsafe.backed hc hv).borrow hlimits hcomputed hwl hle

/-- At the same market index only a borrow of its own raises what an account owes. -/
theorem BookEffect.owed_le {op : Op A X} {b : DebtBook A scaling} (h : BookEffect cfg s m d op b)
    (hindex : b.index = (s.book cfg m d).index) (hop : ∀ env n, op ≠ .borrow env (.signed a) m n) :
    b.owed a ≤ (s.book cfg m d).owed a := by
  cases h with
  | same _ _ => exact Nat.le_refl _
  | @borrowed env owner amount _ _ =>
      have hne : a ≠ owner := by
        rintro rfl
        exact hop env amount rfl
      exact (DebtBook.owed_borrow_of_ne hne).le
  | repaid _ _ => exact DebtBook.owed_repay_le a
  | closed _ _ => exact (DebtBook.owed_close_le a).trans (DebtBook.owed_repay_le a)
  | @accrued _ accrued _ _ =>
      have hsame : accrued.index = (s.book cfg m d).index := hindex
      unfold DebtBook.owed DebtBook.accrue
      rw [hsame]

/-- Only its owner changes the collateral of an account. -/
theorem Effect.collateral {op : Op A X} (h : Effect cfg s op s') (m : Nat) (a : A) :
    s'.accountCollateral.get m a = s.accountCollateral.get m a ∨
      (∃ n u, op = .depositCollateral (.signed a) m n ∧
        depositCollateralInternal cfg m a n s = (.ok u, s')) ∨
      ∃ env n u, op = .withdrawCollateral env (.signed a) m n ∧
        withdrawCollateralInternal cfg env m a n s = (.ok u, s') := by
  have hput : ∀ {k : Nat} {b : A} {c : Nat}, ¬ (k = m ∧ b = a) →
      (s.accountCollateral.put k b c).get m a = s.accountCollateral.get m a := by
    intro k b c hne
    rw [StorageDoubleMap.get_put, if_neg fun heq => hne ⟨heq.1.symm, heq.2.symm⟩]
  cases h with
  | idle => exact .inl rfl
  | created hcreate =>
      obtain ⟨_, _, _, _, _, -, rfl⟩ := create_ok hcreate
      exact .inl rfl
  | updated hmarket => exact .inl rfl
  | @deposited who market n u _ hdeposit =>
      by_cases hself : market = m ∧ who = a
      · obtain ⟨rfl, rfl⟩ := hself
        exact .inr (.inl ⟨n, u, rfl, hdeposit⟩)
      · obtain ⟨_, -, -, rfl⟩ := depositCollateral_ok hdeposit
        exact .inl (hput hself)
  | @withdrawn env who market n u _ hwithdraw =>
      by_cases hself : market = m ∧ who = a
      · obtain ⟨rfl, rfl⟩ := hself
        exact .inr (.inr ⟨env, n, u, rfl, hwithdraw⟩)
      · obtain ⟨_, -, -, -, rfl⟩ := withdrawCollateral_ok hwithdraw
        exact .inl (hput hself)
  | borrowed hborrow =>
      obtain ⟨_, _, _, -, hrent⟩ := borrow_ok hborrow
      rcases payRent_ok hrent with ⟨-, -, rfl⟩ | ⟨-, rfl⟩
      · exact .inl rfl
      · exact .inl rfl
  | repaid hrepay =>
      rcases repay_ok hrepay with ⟨-, rfl⟩ | ⟨_, _, _, -, -, ⟨-, rfl⟩ | ⟨-, hclose⟩⟩
      · exact .inl rfl
      · exact .inl rfl
      · obtain ⟨-, rfl⟩ := closeBorrow_ok hclose
        exact .inl rfl
  | liquidated hloop =>
      refine .inl (Call.forEach_invariant (I :=
        fun t => t.accountCollateral.get m a = s.accountCollateral.get m a) ?_
        rfl hloop)
      intro b _ t t' u ht hturn
      rcases liquidateAccount_ok hturn with ⟨-, rfl⟩ | ⟨_, _, _, _, _, _, -, -, -, -, -, rfl⟩
      · exact ht
      · exact ht
  | initialized hblock =>
      refine .inl (initializeBlock_invariant
        (I := fun t => t.accountCollateral.get m a = s.accountCollateral.get m a) ?_ id rfl hblock)
      intro t t' n u ht hturn
      obtain ⟨_, _, _, _, _, -, -, -, -, rfl⟩ := initializeMarket_ok hturn
      exact ht

/-- The operation asks the oracle `o`, if it asks one. -/
def Op.Asks (o : Oracle X) : Op A X → Prop
  | .createMarket env _ _ | .withdrawCollateral env _ _ _ | .borrow env _ _ _
  | .liquidate env _ _ _ => env.oracle = o
  | _ => True

/-- Prices, the terms of the market and its index stay as they are. -/
structure Steady (cfg : Config A X F) (o : Oracle X) (m : Nat) (s : State A X F) (op : Op A X) :
    Prop where
  asks : op.Asks o
  config : op.KeepsConfig m
  index : ∀ s' ∈ step cfg s op, s'.borrowIndex m = s.borrowIndex m

/-- The storage is in order, and the position of `a` in market `m` is safe. -/
structure Guarded (cfg : Config A X F) (o : Oracle X) (m : Nat) (d : X) (config : MarketConfig A X)
    (asset : X) (a : A) (s : State A X F) : Prop where
  registered : Registered cfg s
  separated : Separated cfg s
  ordered : Ordered s
  debt : s.debtMarkets m = some d
  market : s.markets.lookup m = some config
  vault : ∃ vault, s.vault.vaults config.borrow = some vault ∧ vault.assetId = asset
  safe : (s.position cfg m d a).Safe o config asset

/-- **Every step by a user keeps the position safe**, if it is no borrow of the account that makes
    more of the debt than was compared. -/
theorem Guarded.step {op : Op A X} (ho : o.Quotes) (h : Guarded cfg o m d config asset a s)
    (huser : op.ByUser cfg)
    (hsteady : Steady cfg o m s op) (hwithin : BorrowsWithin cfg m a s op)
    (hstep : step cfg s op = some s') : Guarded cfg o m d config asset a s' := by
  obtain ⟨hr, hs, hordered, hd, hmarket, hasset, hsafe⟩ := h
  have hstored : (s.markets.lookup m).isSome = true := Option.isSome_of_eq_some hmarket
  have hbook := step_book hr hs huser hstored hstep hd
  refine ⟨hr.step huser hstep, (step_debts hr hs huser hstep).1, (hordered.step hstep).1,
    debt_kept hr hstep hd, lookup_kept hr hsteady.config hstep hmarket, ?_, ?_⟩
  · rw [vault_kept (hr.listed hmarket).borrow_le hstep]
    exact hasset
  by_cases hop : ∃ env n, op = .borrow env (.signed a) m n
  · obtain ⟨env, n, rfl⟩ := hop
    obtain rfl : env.oracle = o := hsteady.asks
    cases step_effect hstep with
    | idle => exact hsafe
    | borrowed hborrow =>
        have hcollateral :
            (s'.position cfg m d a).collateral = (s.position cfg m d a).collateral := by
          rcases (Effect.borrowed hborrow).collateral m a with
            hsame | ⟨_, _, hne, -⟩ | ⟨_, _, _, hne, -⟩
          · rw [State.position, hsame, State.position]
          · cases hne
          · cases hne
        generalize hb : s'.book cfg m d = b' at hbook
        have hposition : s'.position cfg m d a = ⟨(s.position cfg m d a).collateral, b'.owed a⟩ := by
          rw [← hcollateral, ← hb]
          rfl
        rw [hposition]
        cases hbook with
        | same _ _ => exact hsafe
        | borrowed hindex =>
            obtain ⟨vault, hvault, rfl⟩ := id hasset
            obtain ⟨hprice, hfits⟩ := hwithin ⟨rfl, rfl⟩ config hmarket vault hvault d hd _ hindex
            exact hsafe.borrow hordered hd hmarket hasset hborrow hprice hfits
  · have howed : (s'.position cfg m d a).owed ≤ (s.position cfg m d a).owed := by
      refine hbook.owed_le ?_ fun env n heq => hop ⟨env, n, heq⟩
      show (s'.borrowIndex m).getD 0 = (s.borrowIndex m).getD 0
      rw [hsteady.index s' hstep]
    rcases (step_effect hstep).collateral m a with
      hsame | ⟨n, u, rfl, hdeposit⟩ | ⟨env, n, u, rfl, hwithdraw⟩
    · refine hsafe.mono ho (Nat.le_of_eq ?_) howed
      rw [State.position, State.position, hsame]
    · refine hsafe.mono ho ?_ howed
      obtain ⟨_, -, -, rfl⟩ := depositCollateral_ok hdeposit
      show (s.accountCollateral.get m a).getD 0 ≤ ((s.accountCollateral.put m a _).get m a).getD 0
      rw [StorageDoubleMap.get_put, if_pos ⟨rfl, rfl⟩, Option.getD_some]
      exact Nat.le_add_right _ _
    · obtain rfl : env.oracle = o := hsteady.asks
      obtain ⟨c, v, hc, hv, hbacks⟩ := withdrawCollateral_backs hordered hd hmarket hasset hwithdraw
      -- What is left was compared with what is owed.
      have hleft : Position.Safe env.oracle config asset
          ⟨(s.position cfg m d a).collateral - n, (s.position cfg m d a).owed⟩ := by
        refine ⟨fun _ => ⟨v, hv⟩, fun {c' v'} hc' hv' => ?_⟩
        obtain rfl : c = c' := Except.ok.inj (hc.symm.trans hc')
        obtain rfl : v = v' := Except.ok.inj (hv.symm.trans hv')
        exact hbacks
      refine hleft.mono ho (Nat.le_of_eq ?_) howed
      obtain ⟨_, -, -, -, rfl⟩ := withdrawCollateral_ok hwithdraw
      show (s.accountCollateral.get m a).getD 0 - n = ((s.accountCollateral.put m a _).get m a).getD 0
      rw [StorageDoubleMap.get_put, if_pos ⟨rfl, rfl⟩, Option.getD_some]

/-- **Positions stay safe.** Take any state reached by users, and an account that owes nothing in a
    market. At fixed prices, terms and market index, nothing that it or others do makes its position
    liquidatable, as long as no borrow of its own makes more of the debt than was compared. -/
theorem positions_stay_safe (cfg : Config A X F) {ledger : Ledger A X} {factory : F}
    (hgenesis : Unissued cfg ledger factory) (start : Nat) {past ops : List (Op A X)}
    (hpast : ∀ op ∈ past, op.ByUser cfg)
    (hrun : run (step cfg) (State.genesis ledger factory start) past = some s)
    (hmarket : s.markets.lookup m = some config) {owed : Option Nat}
    (howed : borrowBalanceCurrent m a s = (.ok owed, s)) (hnothing : owed.getD 0 = 0) (ho : o.Quotes)
    (huser : ∀ op ∈ ops, op.ByUser cfg) (hsteady : Along (step cfg) (Steady cfg o m) s ops)
    (hwithin : Along (step cfg) (BorrowsWithin cfg m a) s ops) :
    Throughout (step cfg) (fun t => ∀ env b, env.oracle = o →
      (shouldLiquidate env m a t).1 = .ok b → b = false)
      s ops := by
  have hinit : Registered cfg s ∧ Separated cfg s := Separated.of_run hgenesis hpast hrun
  have hordered : Ordered s := (Ordered.genesis ledger factory start).run hrun
  obtain ⟨d, hd⟩ := (hinit.1.listed hmarket).debt
  obtain ⟨vault, hvault, -⟩ := (hinit.1.listed hmarket).vault
  -- An account without a debt is safe at any prices.
  have hstart : Guarded cfg o m d config vault.assetId a s :=
    ⟨hinit.1, hinit.2, hordered, hd, hmarket, ⟨vault, hvault, rfl⟩,
      .of_nothing ho ((owed_position hordered hd howed).symm.trans hnothing)⟩
  refine throughout_of_invariant (I := Guarded cfg o m d config vault.assetId a)
    (fun h hC hstep => h.step ho hC.1 hC.2.1 hC.2.2 hstep) (fun h env b henv hb => ?_) hstart
    ((hsteady.and hwithin).and_forall huser)
  -- In a safe position what is asked for can only be denied.
  subst henv
  have hcall : shouldLiquidate env m a _ = (.ok b, _) := Prod.ext hb rfl
  exact shouldLiquidate_of_safe h.ordered h.debt h.market h.vault h.safe hcall

/-! ## Borrowing twice -/

/-- Every asset is worth the same. -/
def parOracle : Oracle Nat := sampleOracle fun _ => 1

theorem parOracle_quotes : parOracle.Quotes where
  zero := by
    intro x v hv
    exact (Except.ok.inj hv).symm
  mono := by
    intro x n k v hle hv
    obtain rfl : 1 * k = v := Except.ok.inj hv
    exact ⟨1 * n, rfl, Nat.mul_le_mul_left 1 hle⟩

/-- Account `1` may borrow `450` on a market without interest. -/
def pledgedOps : List (Op Nat Nat) :=
  [.createMarket ⟨0, parOracle⟩ (.signed 7)
      ⟨{ sampleInput with
        updatable := { sampleInput.updatable with interestRateModel := .curve ⟨0⟩ } },
        ⟨by decide, show 0 ≤ CurveModel.maxBaseRate by decide, by decide⟩⟩,
    .depositCollateral (.signed 1) 1 900, .initializeBlock 1]

/-- It borrows, and borrows again in the next block. -/
def twiceOps (first second : Nat) : List (Op Nat Nat) :=
  [.borrow ⟨1, parOracle⟩ (.signed 1) 1 first, .initializeBlock 2,
    .borrow ⟨2, parOracle⟩ (.signed 1) 1 second]

theorem twiceOps_steady {s : State Nat Nat Nat} {first second : Nat}
    (h : Along (step sample) (fun s op => ∀ s' ∈ step sample s op,
      s'.borrowIndex 1 = s.borrowIndex 1) s
      (twiceOps first second)) : Along (step sample) (Steady sample parOracle 1) s
        (twiceOps first second) := by
  have hterms : ∀ op ∈ twiceOps first second, op.Asks parOracle ∧ op.KeepsConfig 1 := by
    simp [twiceOps, Op.Asks, Op.KeepsConfig]
  refine along_of_invariant (I := fun _ => True) (fun _ _ _ => trivial) (fun _ hC => ?_) trivial
    (h.and_forall hterms)
  exact ⟨hC.1.1, hC.1.2, hC.2⟩

/-- Two halves mix without loss. -/
theorem positions_stay_safe_sample : ∃ s,
    run (step sample) (State.genesis sampleLedger 100 0) pledgedOps = some s ∧
      Throughout (step sample) (fun t => ∀ env b, env.oracle = parOracle →
        (shouldLiquidate env 1 1 t).1 = .ok b → b = false) s (twiceOps 150 150) := by
  have hview : (run (step sample) (State.genesis sampleLedger 100 0) pledgedOps).map
      (fun s => ((s.markets.lookup 1).isSome, (borrowBalanceCurrent 1 1 s).1.toOption,
        decide (Along (step sample) (fun s op => ∀ s' ∈ step sample s op,
          s'.borrowIndex 1 = s.borrowIndex 1) s
          (twiceOps 150 150)),
        decide (Along (step sample) (BorrowsWithin sample 1 1) s (twiceOps 150 150)))) =
      some (true, some (some 0), true, true) := by decide +kernel
  obtain ⟨s, hrun, hs⟩ := Option.map_eq_some_iff.mp hview
  simp only [Prod.mk.injEq, decide_eq_true_eq] at hs
  obtain ⟨hstored, howed, hindex, hwithin⟩ := hs
  obtain ⟨config, hmarket⟩ := Option.isSome_iff_exists.mp hstored
  have hpast : ∀ op ∈ pledgedOps, op.ByUser sample := by
    simp [pledgedOps, Op.ByUser, Op.signer, sample_user]
  have huser : ∀ op ∈ twiceOps 150 150, op.ByUser sample := by
    simp [twiceOps, Op.ByUser, Op.signer, sample_user]
  exact ⟨s, hrun, positions_stay_safe sample sampleLedger_unissued 0 hpast hrun hmarket
    (borrowBalanceCurrent_reads.ok_of_toOption howed) rfl parOracle_quotes huser
      (twiceOps_steady hindex) hwithin⟩

/-- **A borrower within its limit is liquidatable**: of `450` that account `1` may borrow it borrows
    `150` and then `300`, and owes `454`, since a third and two thirds are `33` and `66` percent. -/
theorem borrow_liquidatable : ∃ s t,
    run (step sample) (State.genesis sampleLedger 100 0) pledgedOps = some s ∧
      borrowBalanceCurrent 1 1 s = (.ok (some 0), s) ∧
      getBorrowLimit ⟨1, parOracle⟩ 1 1 s = (.ok 450, s) ∧
      Along (step sample) (Steady sample parOracle 1) s (twiceOps 150 300) ∧
      run (step sample) s (twiceOps 150 300) = some t ∧
      borrowBalanceCurrent 1 1 t = (.ok (some 454), t) ∧
      (shouldLiquidate ⟨2, parOracle⟩ 1 1 t).1 = .ok true := by
  have hbefore : (run (step sample) (State.genesis sampleLedger 100 0) pledgedOps).map
      (fun s => ((borrowBalanceCurrent 1 1 s).1.toOption,
        (getBorrowLimit ⟨1, parOracle⟩ 1 1 s).1.toOption,
        decide (Along (step sample) (fun s op => ∀ s' ∈ step sample s op,
          s'.borrowIndex 1 = s.borrowIndex 1) s
          (twiceOps 150 300)))) = some (some (some 0), some 450, true) := by decide +kernel
  have hafter :
      (run (step sample) (State.genesis sampleLedger 100 0) (pledgedOps ++ twiceOps 150 300)).map
      (fun t => ((borrowBalanceCurrent 1 1 t).1.toOption,
        (shouldLiquidate ⟨2, parOracle⟩ 1 1 t).1.toOption)) =
      some (some (some 454), some true) := by decide +kernel
  obtain ⟨s, hrun, hs⟩ := Option.map_eq_some_iff.mp hbefore
  obtain ⟨t, hall, ht⟩ := Option.map_eq_some_iff.mp hafter
  simp only [Prod.mk.injEq, decide_eq_true_eq] at hs ht
  obtain ⟨hnothing, hlimit, hindex⟩ := hs
  obtain ⟨howed, hcritical⟩ := ht
  obtain ⟨s', hrun', htwice⟩ := run_append.mp hall
  obtain rfl : s = s' := Option.some.inj (hrun.symm.trans hrun')
  exact ⟨s, t, hrun, borrowBalanceCurrent_reads.ok_of_toOption hnothing,
    getBorrowLimit_reads.ok_of_toOption hlimit,
    twiceOps_steady hindex, htwice, borrowBalanceCurrent_reads.ok_of_toOption howed,
    congrArg Prod.fst (shouldLiquidate_reads.ok_of_toOption hcritical)⟩

end Lending
end Composable
