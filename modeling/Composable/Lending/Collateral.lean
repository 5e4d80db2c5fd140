import Composable.Lending.Markets

/-!
# `Lending.Collateral` — deposited collateral is in the market

`AccountCollateral` records what each account deposited; the tokens are in the account of
the market. The system here is the lending pallet together with the auction that its
liquidations go to (`SystemOp`).

A liquidation leaves the record of the borrower alone, so when the auction sells the collateral the
market no longer holds what it recorded (`collateral_lost`). Where the collateral is the native
asset, the market also pays deposits of auctions and rents from the same account. `Kept` says when a
step does neither, and `collateral_stays_backed` that the recorded collateral is then covered.
-/

namespace Composable
namespace Lending

variable {A X F : Type} [DecidableEq A] [DecidableEq X]
variable {cfg : Config A X F} {s s' : State A X F} {m : Nat}

/-! ## The system -/

/-- The operations of the pallet and of the auction. -/
inductive SystemOp (A X : Type) where
  | lending (op : Op A X)
  | auction (op : DutchAuction.Op A X)

def systemStep (cfg : Config A X F) (s : State A X F) : SystemOp A X → Option (State A X F)
  | .lending op => step cfg s op
  | .auction op => (DutchAuction.step cfg.liquidations.auction s.auction op).map s.withAuction

def SystemOp.ByUser (cfg : Config A X F) : SystemOp A X → Prop
  | .lending op => op.ByUser cfg
  | .auction op => ∀ a ∈ op.signer, ∀ m, a ≠ cfg.accountId m

/-! ## Collateral and rents -/

/-- All collateral recorded for a market. -/
def State.pledged (s : State A X F) (m : Nat) : Nat :=
  StorageMap.total (fun _ n => n) (s.accountCollateral m)

/-- The rents of the active borrows of a market. -/
def State.rents (s : State A X F) (m : Nat) : Nat :=
  StorageMap.total (fun a rent => if (s.borrowTimestamp.get m a).isSome then rent else 0)
    (s.borrowRent m)

/-- What the account of a market has to hold of the collateral. -/
def State.due (s : State A X F) (cfg : Config A X F) (m : Nat) (collateral : X) : Nat :=
  s.pledged m + if collateral = cfg.vault.nativeAsset then s.rents m else 0

structure Backed (cfg : Config A X F) (s : State A X F) : Prop where
  /-- No market has its own debt token as collateral. -/
  distinct : ∀ {m config}, s.markets.lookup m = some config → s.debtMarkets m ≠ some config.collateral
  /-- No market takes from an auction. -/
  takers : ∀ {id takes}, s.takes.lookup id = some takes → ∀ t ∈ takes, ∀ n, t.fromTo ≠ cfg.accountId n
  backed : ∀ {m config}, s.markets.lookup m = some config →
    s.due cfg m config.collateral ≤ s.ledger.balance config.collateral (cfg.accountId m)

/-- Operations of market `m` that take nothing from the others. -/
theorem Backed.of_local (h : Backed cfg s) (hlocal : Local m s s') (htakes : s'.takes = s.takes)
    (hle : ∀ {n c}, s.markets.lookup n = some c → n ≤ cfg.maxLendingCount)
    (hothers : ∀ n, n ≠ m → n ≤ cfg.maxLendingCount →
      ∀ x, s'.ledger.balance x (cfg.accountId n) = s.ledger.balance x (cfg.accountId n))
    (hm : ∀ {config}, s.markets.lookup m = some config →
      s'.due cfg m config.collateral ≤ s'.ledger.balance config.collateral (cfg.accountId m)) :
    Backed cfg s' where
  distinct := by
    rw [hlocal.markets, hlocal.debtMarkets]
    exact h.distinct
  takers := by
    rw [htakes]
    exact h.takers
  backed := by
    intro n config hn
    rw [hlocal.markets] at hn
    by_cases hnm : n = m
    · subst hnm
      exact hm hn
    · have hdue : s'.due cfg n config.collateral = s.due cfg n config.collateral := by
        unfold State.due State.pledged State.rents StorageDoubleMap.get
        rw [hlocal.accountCollateral n hnm, hlocal.borrowRent n hnm, hlocal.borrowTimestamp n hnm]
      rw [hdue, hothers n hnm (hle hn)]
      exact h.backed hn

/-! ## Deposits and withdrawals -/

/-- Writing the record of one account replaces its share. -/
theorem total_put {r : StorageDoubleMap Nat A Nat} {a : A} {v : Nat} :
    StorageMap.total (fun _ n => n) (r.put m a v m) + (r.get m a).getD 0 =
      StorageMap.total (fun _ n => n) (r m) + v := by
  have hshare : StorageMap.share (fun _ n => n) (r m) a = (r.get m a).getD 0 := by
    unfold StorageMap.share StorageDoubleMap.get
    cases (r m).lookup a <;> rfl
  rw [StorageDoubleMap.put_self, ← hshare, StorageMap.total_insert]

theorem pledged_deposited {config : MarketConfig A X} {account : A} {amount : Nat} :
    (s.deposited cfg config m account amount).pledged m = s.pledged m + amount := by
  have hput : (s.deposited cfg config m account amount).pledged m +
      (s.accountCollateral.get m account).getD 0 =
      s.pledged m + ((s.accountCollateral.get m account).getD 0 + amount) := total_put
  omega

theorem pledged_withdrawn {config : MarketConfig A X} {account : A} {amount : Nat}
    (hle : amount ≤ (s.accountCollateral.get m account).getD 0) :
    (s.withdrawn cfg config m account amount).pledged m + amount = s.pledged m := by
  have hput : (s.withdrawn cfg config m account amount).pledged m +
      (s.accountCollateral.get m account).getD 0 =
      s.pledged m + ((s.accountCollateral.get m account).getD 0 - amount) := total_put
  omega

theorem Backed.after_deposit {account : A} {amount : Nat} {u : Unit} (hr : Registered cfg s)
    (h : Backed cfg s) (huser : ∀ n, account ≠ cfg.accountId n)
    (hdeposit : depositCollateralInternal cfg m account amount s = (.ok u, s')) : Backed cfg s' := by
  obtain ⟨config, hmarket, -, rfl⟩ := depositCollateral_ok hdeposit
  refine h.of_local local_deposited rfl hr.le_max (fun n hn hle x => ?_) fun {c} hc => ?_
  · exact Ledger.balance_move_of_ne (huser n).symm (accountId_ne (hr.le_max hmarket) hle hn)
  · obtain rfl := Option.some.inj (hmarket.symm.trans hc)
    have hbalance : (s.deposited cfg config m account amount).ledger.balance config.collateral
        (cfg.accountId m) = s.ledger.balance config.collateral (cfg.accountId m) + amount :=
      Ledger.balance_move_to (huser m)
    have hrents : (s.deposited cfg config m account amount).rents m = s.rents m := rfl
    have hbacked := h.backed hmarket
    unfold State.due at hbacked ⊢
    rw [hbalance, pledged_deposited, hrents]
    omega

theorem Backed.after_withdraw {env : Env X} {account : A} {amount : Nat} {u : Unit}
    (hr : Registered cfg s) (h : Backed cfg s) (huser : ∀ n, account ≠ cfg.accountId n)
    (hwithdraw : withdrawCollateralInternal cfg env m account amount s = (.ok u, s')) :
    Backed cfg s' := by
  obtain ⟨config, hmarket, hle, hpaid, rfl⟩ := withdrawCollateral_ok hwithdraw
  refine h.of_local local_withdrawn rfl hr.le_max (fun n hn hmax x => ?_) fun {c} hc => ?_
  · exact Ledger.balance_move_of_ne (accountId_ne (hr.le_max hmarket) hmax hn) (huser n).symm
  · obtain rfl := Option.some.inj (hmarket.symm.trans hc)
    have hfree := cfg.vault.currency.funded_of_transfer hpaid (huser m).symm
    have hbalance : (s.withdrawn cfg config m account amount).ledger.balance config.collateral
        (cfg.accountId m) = s.ledger.balance config.collateral (cfg.accountId m) - amount :=
      Ledger.balance_move_from (huser m).symm hfree
    have hpledged : (s.withdrawn cfg config m account amount).pledged m + amount = s.pledged m :=
      pledged_withdrawn hle
    have hrents : (s.withdrawn cfg config m account amount).rents m = s.rents m := rfl
    have hbacked := h.backed hmarket
    unfold State.due at hbacked ⊢
    rw [hbalance, hrents]
    omega

/-! ## Rents -/

/-- The rents of a market after the time of a borrow was written: a rent that was kept from an
    earlier borrow counts again. -/
theorem rents_borrowed {asset : X} {owner : A} {amount index : Nat}
    (hfresh : (s.borrowRent.get m owner).isSome = true →
      (s.borrowTimestamp.get m owner).isSome = true) :
    (s.borrowed cfg asset m owner amount index).rents m = s.rents m := by
  unfold State.rents
  apply StorageMap.total_congr
  intro e (he : e ∈ (s.borrowRent m).entries)
  rw [isSome_borrowed]
  by_cases hself : e.1 = owner
  · have hrent : (s.borrowRent.get m owner).isSome = true := by
      rw [← hself, StorageDoubleMap.get, AList.mem_lookup_iff.mpr he]
      rfl
    rw [hself, hfresh hrent, Bool.or_true]
  · simp [hself]

/-- A new rent counts from now on. -/
theorem rents_rented {owner : A} (hnone : s.borrowRent.get m owner = none)
    (hactive : (s.borrowTimestamp.get m owner).isSome = true) :
    (s.rented cfg m owner).rents m = s.rents m + cfg.liquidateFee 2 := by
  have hinsert : (s.rented cfg m owner).rents m +
      StorageMap.share (fun a rent => if (s.borrowTimestamp.get m a).isSome then rent else 0)
        (s.borrowRent m)
        owner = s.rents m + if (s.borrowTimestamp.get m owner).isSome then cfg.liquidateFee 2
          else 0 := by
    unfold State.rents
    show StorageMap.total _ (s.borrowRent.put m owner _ m) + _ = _
    rw [StorageDoubleMap.put_self]
    exact StorageMap.total_insert
  rwa [StorageMap.share_of_lookup_none hnone, Nat.add_zero, if_pos hactive] at hinsert

omit [DecidableEq X] in
/-- The rent of a closed borrow no longer counts. -/
theorem rents_closed {a : A} {rent : Nat} (hrent : s.borrowRent.get m a = some rent)
    (hactive : (s.borrowTimestamp.get m a).isSome = true) :
    (s.closed m a).rents m + rent = s.rents m := by
  have hoff := StorageMap.total_of_eq_off (m := s.borrowRent m) (k := a)
    (f := fun c rent => if (s.borrowTimestamp.get m c).isSome then rent else 0)
    (g := fun c rent => if ((s.closed m a).borrowTimestamp.get m c).isSome then rent else 0) (by
      intro c hc rent
      simp [isSome_closed, hc])
  rw [StorageMap.share_of_lookup hrent, StorageMap.share_of_lookup hrent] at hoff
  have hself : ((s.closed m a).borrowTimestamp.get m a).isSome = false := by simp [isSome_closed]
  rw [if_pos hactive, hself, if_neg Bool.false_ne_true, Nat.add_zero] at hoff
  exact hoff

/-! ## Borrowing and repaying -/

section Ledgers

variable {d asset x : X} {b owner payer beneficiary c : A} {amount interest principal : Nat}
  {l : Ledger A X}

/-- A borrow leaves the balances of others alone. -/
theorem balance_borrowedLedger_of_ne (hb : c ≠ b) (howner : c ≠ owner) :
    (borrowedLedger d asset b owner amount l).balance x c = l.balance x c := by
  rw [borrowedLedger, Ledger.balance_move_of_ne hb howner, Ledger.balance_lock_of_ne howner,
    Ledger.balance_mint_of_ne howner]

/-- It takes from the market only the asset that is borrowed. -/
theorem balance_borrowedLedger_market (hb : b ≠ owner) (hx : x ≠ asset) :
    (borrowedLedger d asset b owner amount l).balance x b = l.balance x b := by
  rw [borrowedLedger, Ledger.balance_move_of_ne_asset hx, Ledger.balance_lock_of_ne hb,
    Ledger.balance_mint_of_ne hb]

theorem balance_repaidLedger_of_ne (hb : c ≠ b) (hpayer : c ≠ payer)
    (hbeneficiary : c ≠ beneficiary) :
    (repaidLedger d asset b payer beneficiary interest principal l).balance x c = l.balance x c := by
  rw [repaidLedger, Ledger.balance_move_of_ne hpayer hb, Ledger.balance_burn_of_ne hbeneficiary,
    Ledger.balance_unlock, Ledger.balance_burn_of_ne hb]

/-- A repayment takes from the market only its own debt token. -/
theorem balance_repaidLedger_market (hbeneficiary : b ≠ beneficiary) (hx : x ≠ asset) (hd : x ≠ d) :
    (repaidLedger d asset b payer beneficiary interest principal l).balance x b = l.balance x b := by
  rw [repaidLedger, Ledger.balance_move_of_ne_asset hx, Ledger.balance_burn_of_ne hbeneficiary,
    Ledger.balance_unlock, Ledger.balance_burn_of_ne_asset hd]

end Ledgers

omit [DecidableEq X] in
/-- The vault of a market is over another asset than its collateral. -/
theorem Registered.asset_ne (hr : Registered cfg s) {config : MarketConfig A X}
    {vault : Vault.VaultInfo A X}
    (hmarket : s.markets.lookup m = some config)
    (hvault : s.vault.vaults config.borrow = some vault) : config.collateral ≠ vault.assetId := by
  obtain ⟨v, hv, hne⟩ := (hr.listed hmarket).vault
  obtain rfl := Option.some.inj (hvault.symm.trans hv)
  exact hne.symm

/-- The rent of an earlier borrow is not taken for the rent of a new one. -/
def FreshRent (cfg : Config A X F) (s : State A X F) (market : Nat) (owner : A) : Prop :=
  ∀ config ∈ s.markets.lookup market, config.collateral = cfg.vault.nativeAsset →
    (s.borrowRent.get market owner).isSome = true → (s.borrowTimestamp.get market owner).isSome = true

instance (cfg : Config A X F) (s : State A X F) (market : Nat) (owner : A) :
    Decidable (FreshRent cfg s market owner) :=
  inferInstanceAs (Decidable (∀ config ∈ s.markets.lookup market, _ = cfg.vault.nativeAsset → _ → _))

theorem Backed.after_borrow {env : Env X} {owner : A} {amount : Nat} {u : Unit}
    (hr : Registered cfg s)
    (h : Backed cfg s) (howner : ∀ n, owner ≠ cfg.accountId n) (hfresh : FreshRent cfg s m owner)
    (hborrow : borrowInternal cfg env m owner amount s = (.ok u, s')) : Backed cfg s' := by
  obtain ⟨config, vault, marketIndex, hb, hrent⟩ := borrow_ok hborrow
  generalize s.nextIndex cfg m owner amount marketIndex = index at hrent
  have hborrowed : Backed cfg (s.borrowed cfg vault.assetId m owner amount index) := by
    refine h.of_local local_borrowed rfl hr.le_max (fun n hn hle x => ?_) fun {c} hc => ?_
    · exact balance_borrowedLedger_of_ne (accountId_ne (hr.le_max hb.market_eq) hle hn)
        (howner n).symm
    · obtain rfl := Option.some.inj (hb.market_eq.symm.trans hc)
      have hbalance :
          (s.borrowed cfg vault.assetId m owner amount index).ledger.balance config.collateral
          (cfg.accountId m) = s.ledger.balance config.collateral (cfg.accountId m) :=
        balance_borrowedLedger_market (howner m).symm (hr.asset_ne hb.market_eq hb.vault_eq)
      have hdue : (s.borrowed cfg vault.assetId m owner amount index).due cfg m config.collateral =
          s.due cfg m config.collateral := by
        unfold State.due
        split
        next hnative => rw [rents_borrowed (hfresh config hb.market_eq hnative)]; rfl
        next => rfl
      rw [hbalance, hdue]
      exact h.backed hb.market_eq
  rcases payRent_ok hrent with ⟨hnone, -, rfl⟩ | ⟨-, rfl⟩
  · refine hborrowed.of_local local_rented rfl hr.le_max (fun n hn hle x => ?_) fun {c} hc => ?_
    · exact Ledger.balance_move_of_ne (howner n).symm (accountId_ne (hr.le_max hb.market_eq) hle hn)
    · have hbacked := hborrowed.backed hc
      unfold State.due at hbacked ⊢
      rw [rents_rented hnone isSome_borrowed_self]
      show (s.borrowed cfg vault.assetId m owner amount index).pledged m + _ ≤
        Ledger.balance (Ledger.move _ _ _ _ _) _ _
      by_cases hnative : c.collateral = cfg.vault.nativeAsset
      · rw [if_pos hnative] at hbacked ⊢
        rw [hnative] at hbacked ⊢
        rw [Ledger.balance_move_to (howner m)]
        omega
      · rw [if_neg hnative] at hbacked ⊢
        rw [Ledger.balance_move_of_ne_asset hnative]
        exact hbacked
  · exact hborrowed

omit [DecidableEq X] in
theorem rents_closed_le {a : A} : (s.closed m a).rents m ≤ s.rents m := by
  apply StorageMap.total_le_total
  intro e _
  rw [isSome_closed]
  split
  next hboth => rw [if_pos (Bool.and_eq_true_iff.mp hboth).2]
  next => exact Nat.zero_le _

/-- A rent that is paid out comes from its market. -/
theorem balance_rentPaid_of_ne {account recipient : A} {x : X} {n : Nat}
    (huser : ∀ k, recipient ≠ cfg.accountId k)
    (hm : m ≤ cfg.maxLendingCount) (hle : n ≤ cfg.maxLendingCount) (hn : n ≠ m) :
    (s.rentPaid cfg m account recipient).balance x (cfg.accountId n) =
      s.ledger.balance x (cfg.accountId n) := by
  unfold State.rentPaid
  cases s.borrowRent.get m account with
  | none => rfl
  | some rent => exact Ledger.balance_move_of_ne (accountId_ne hm hle hn) (huser n).symm

/-- A borrow that is closed gets back the rent that counted for it. -/
theorem Backed.after_close {beneficiary : A} {u : Unit} (h : Backed cfg s)
    (hle : ∀ {n c}, s.markets.lookup n = some c → n ≤ cfg.maxLendingCount)
    (hm : m ≤ cfg.maxLendingCount) (huser : ∀ n, beneficiary ≠ cfg.accountId n)
    (hactive : (s.borrowTimestamp.get m beneficiary).isSome = true)
    (hclose : closeBorrow cfg m beneficiary s = (.ok u, s')) : Backed cfg s' := by
  obtain ⟨hpaid, rfl⟩ := closeBorrow_ok hclose
  refine h.of_local (local_closed.trans (local_withLedger _)) rfl hle
    (fun n hn hmax x => balance_rentPaid_of_ne huser hm hmax hn) fun {c} hc => ?_
  have hbacked := h.backed hc
  show s.pledged m + (if c.collateral = cfg.vault.nativeAsset then (s.closed m beneficiary).rents m
    else 0) ≤
    (s.rentPaid cfg m beneficiary beneficiary).balance c.collateral (cfg.accountId m)
  unfold State.due at hbacked
  unfold State.rentPaid
  cases hrent : s.borrowRent.get m beneficiary with
  | none =>
      have hle : (s.closed m beneficiary).rents m ≤ s.rents m := rents_closed_le
      refine (Nat.add_le_add_left ?_ _).trans hbacked
      split
      · exact hle
      · exact Nat.le_refl _
  | some rent =>
      have hfree := cfg.vault.currency.funded_of_transfer (hpaid rent hrent) (huser m).symm
      have hclosed : (s.closed m beneficiary).rents m + rent = s.rents m := rents_closed hrent hactive
      show _ ≤ (s.ledger.move _ _ _ _).balance _ _
      by_cases hnative : c.collateral = cfg.vault.nativeAsset
      · rw [if_pos hnative] at hbacked ⊢
        rw [hnative] at hbacked ⊢
        rw [Ledger.balance_move_from (huser m).symm hfree]
        omega
      · rw [if_neg hnative] at hbacked ⊢
        rw [Ledger.balance_move_of_ne_asset hnative]
        exact hbacked

theorem Backed.after_repay {payer beneficiary : A} {amount : Nat} {u : Unit} (hr : Registered cfg s)
    (h : Backed cfg s) (huser : ∀ n, payer ≠ cfg.accountId n)
    (hrepay : repayBorrowInternal cfg m payer beneficiary (some amount) s = (.ok u, s')) :
    Backed cfg s' := by
  rcases repay_ok hrepay with ⟨-, rfl⟩ | ⟨config, vault, owed, hrepaid, -, hcases⟩
  · exact h
  · obtain ⟨d, hd⟩ := (hr.listed hrepaid.market_eq).debt
    -- Markets do not borrow, so the beneficiary is none.
    have hbeneficiary : ∀ n, beneficiary ≠ cfg.accountId n := by
      rintro n rfl
      have hactive := hrepaid.active
      rw [hr.user m n] at hactive
      cases hactive
    have hkept : Backed cfg (s.repaid cfg vault.assetId m payer beneficiary amount) := by
      refine h.of_local local_repaid rfl hr.le_max (fun n hn hle x => ?_) fun {c} hc => ?_
      · exact balance_repaidLedger_of_ne (accountId_ne (hr.le_max hrepaid.market_eq) hle hn)
          (huser n).symm
          (hbeneficiary n).symm
      · obtain rfl := Option.some.inj (hrepaid.market_eq.symm.trans hc)
        have hne : config.collateral ≠ s.debtAsset cfg m := by
          rw [State.debtAsset_eq hd]
          exact fun heq => h.distinct hrepaid.market_eq (heq ▸ hd)
        have hbalance : (s.repaid cfg vault.assetId m payer beneficiary amount).ledger.balance
            config.collateral (cfg.accountId m) =
              s.ledger.balance config.collateral (cfg.accountId m) :=
          balance_repaidLedger_market (hbeneficiary m).symm
            (hr.asset_ne hrepaid.market_eq hrepaid.vault_eq) hne
        rw [hbalance]
        exact h.backed hrepaid.market_eq
    rcases hcases with ⟨-, rfl⟩ | ⟨-, hclose⟩
    · exact hkept
    · exact hkept.after_close hr.le_max (hr.le_max hrepaid.market_eq) hbeneficiary
        hrepaid.active hclose

/-! ## Blocks and markets -/

theorem Backed.after_initializeMarket {now : Nat} {u : Unit} (hr : Registered cfg s)
    (h : Backed cfg s) (hmarket : initializeMarket cfg now m s = (.ok u, s')) : Backed cfg s' := by
  obtain ⟨config, index, index', amount, v, hlookup, -, -, hfunds, rfl⟩ := initializeMarket_ok hmarket
  obtain ⟨vault, n, hvault, hmoved⟩ := hfunds.ledger
  have haccrued : Backed cfg (s.accrued cfg m index' amount) := by
    refine h.of_local local_accrued rfl hr.le_max (fun n hn hle x => ?_) fun {c} hc => ?_
    · exact Ledger.balance_mint_of_ne (accountId_ne (hr.le_max hlookup) hle hn)
    · have hle : s.ledger.balance c.collateral (cfg.accountId m) ≤
          (s.accrued cfg m index' amount).ledger.balance c.collateral (cfg.accountId m) := by
        show _ ≤ (s.ledger.mint _ _ _).balance _ _
        unfold Ledger.balance
        rw [Ledger.free_mint, Ledger.reserved_mint]
        omega
      exact (h.backed hc).trans hle
  have hother : ∀ k, k ≠ m → k ≤ cfg.maxLendingCount → ∀ x, v.ledger.balance x (cfg.accountId k) =
      (s.accrued cfg m index' amount).ledger.balance x (cfg.accountId k) := by
    intro k hk hle x
    have haccount : cfg.accountId k ≠ cfg.accountId m := accountId_ne (hr.le_max hlookup) hle hk
    rcases hmoved with hout | hin
    · rw [hout]
      exact Ledger.balance_move_of_ne (cfg.accountId_ne_vault k _) haccount
    · rw [hin]
      exact Ledger.balance_move_of_ne haccount (cfg.accountId_ne_vault k _)
  refine haccrued.of_local (local_fundsMoved hfunds) rfl hr.le_max hother fun {c} hc => ?_
  obtain rfl := Option.some.inj (hlookup.symm.trans hc)
  have hne : config.collateral ≠ vault.assetId := hr.asset_ne hlookup hvault
  have hbalance : v.ledger.balance config.collateral (cfg.accountId m) =
      (s.accrued cfg m index' amount).ledger.balance config.collateral (cfg.accountId m) := by
    rcases hmoved with hout | hin
    · rw [hout]
      exact Ledger.balance_move_of_ne_asset hne
    · rw [hin]
      exact Ledger.balance_move_of_ne_asset hne
  exact (haccrued.backed hlookup).trans hbalance.ge

theorem Backed.after_initializeBlock {now : Nat} {u : Unit} (hr : Registered cfg s) (h : Backed cfg s)
    (hblock : initializeBlock cfg now s = (.ok u, s')) : Backed cfg s' := by
  have hboth : Registered cfg s' ∧ Backed cfg s' := by
    refine initializeBlock_invariant (I := fun s => Registered cfg s ∧ Backed cfg s)
      (fun {s s' m u} hs hm => ?_) (fun {s} hs => ?_) ⟨hr, h⟩ hblock
    · exact ⟨initializeMarket_registered hs.1 hm, hs.2.after_initializeMarket hs.1 hm⟩
    · refine ⟨hs.1.of_same_borrows (local_stamped 0) (Nat.zero_le _) rfl rfl, ?_⟩
      exact hs.2.of_local (local_stamped 0) rfl hs.1.le_max (fun _ _ _ _ => rfl) fun hc =>
        hs.2.backed hc
  exact hboth.2

omit [DecidableEq A] in
theorem Backed.after_update [DecidableEq A] {config : MarketConfig A X} {input : UpdateInput}
    (h : Backed cfg s) (hmarket : s.markets.lookup m = some config) :
    Backed cfg { s with markets := s.markets.insert m (config.update input) } := by
  refine ⟨fun {n c} hn => ?_, h.takers, fun {n c} hn => ?_⟩
  · obtain ⟨c', hc', -, hcollateral⟩ := lookup_updated hmarket hn
    rw [hcollateral]
    exact h.distinct hc'
  · obtain ⟨c', hc', -, hcollateral⟩ := lookup_updated hmarket hn
    rw [hcollateral]
    exact h.backed hc'

/-- The debt token that the next market would get. -/
def State.nextDebtAsset (s : State A X F) (cfg : Config A X F) : Option X :=
  match cfg.vault.currencyFactory.create s.vault.factory .lpTokens with
  | .ok (_, factory) =>
      match cfg.vault.currencyFactory.create factory .lpTokens with
      | .ok (debtAsset, _) => some debtAsset
      | .error _ => none
  | .error _ => none

theorem Backed.after_create {env : Env X} {manager : A} {input : CreateInput X} {r : Nat × Nat}
    (hr : Registered cfg s) (h : Backed cfg s) (huser : ∀ n, manager ≠ cfg.accountId n)
    (hdebt : s.nextDebtAsset cfg ≠ some input.collateralAsset)
    (hcreate : create cfg env manager input s = (.ok r, s')) : Backed cfg s' := by
  obtain ⟨lpToken, debtAsset, factory, factory', poolSize, hc, rfl⟩ := create_ok hcreate
  have hnext : s.nextDebtAsset cfg = some debtAsset := by
    simp only [State.nextDebtAsset, hc.lpToken_eq, hc.debtAsset_eq]
  have hblank := hr.blank (Nat.lt_succ_self s.lendingCount)
  refine ⟨fun {n config} hn hd => ?_, h.takers, fun {n config} hn => ?_⟩
  · rcases lookup_created hn with ⟨rfl, -, hcollateral⟩ | hold
    · rcases debt_created.mp hd with ⟨-, heq⟩ | ⟨hne, -⟩
      · exact hdebt (by rw [hnext, ← heq, hcollateral])
      · exact hne rfl
    · rcases debt_created.mp hd with ⟨rfl, -⟩ | ⟨-, hd'⟩
      · exact absurd (hr.listed hold).le_count (Nat.not_succ_le_self _)
      · exact h.distinct hold hd'
  · rcases lookup_created hn with ⟨rfl, -, -⟩ | hold
    · -- Nothing is recorded of a new market.
      have hzero : s.due cfg (s.lendingCount + 1) config.collateral = 0 := by
        unfold State.due State.pledged State.rents
        rw [hblank.accountCollateral, hblank.borrowRent, StorageMap.total_empty,
          StorageMap.total_empty, ite_self]
      show s.due cfg (s.lendingCount + 1) config.collateral ≤ _
      rw [hzero]
      exact Nat.zero_le _
    · have hne : n ≠ s.lendingCount + 1 := (Nat.lt_succ_of_le (hr.listed hold).le_count).ne
      have hbalance :
          (s.created cfg manager input lpToken debtAsset factory factory' poolSize).ledger.balance
          config.collateral (cfg.accountId n) =
            s.ledger.balance config.collateral (cfg.accountId n) :=
        Ledger.balance_move_of_ne (huser n).symm (accountId_ne hc.count_lt (hr.le_max hold) hne)
      rw [hbalance]
      exact h.backed hold

/-! ## Liquidations -/

/-- What an auction for market `m` leaves alone: the other markets, and assets
    other than the native one. -/
structure Undisturbed (cfg : Config A X F) (m : Nat) (l l' : Ledger A X) : Prop where
  others : ∀ n, n ≠ m → n ≤ cfg.maxLendingCount →
    ∀ x, l'.balance x (cfg.accountId n) = l.balance x (cfg.accountId n)
  assets : ∀ x, x ≠ cfg.vault.nativeAsset →
    l'.balance x (cfg.accountId m) = l.balance x (cfg.accountId m)

omit [DecidableEq A] [DecidableEq X] in
theorem Undisturbed.of_balance {l l' l'' : Ledger A X} (h : Undisturbed cfg m l l')
    (heq : ∀ x c, l''.balance x c = l'.balance x c) : Undisturbed cfg m l l'' where
  others n hn hle x := (heq x _).trans (h.others n hn hle x)
  assets x hx := (heq x _).trans (h.assets x hx)

/-- The market pays in the native asset. -/
theorem Undisturbed.pay {l l' : Ledger A X} {recipient : A} {n : Nat} (h : Undisturbed cfg m l l')
    (hm : m ≤ cfg.maxLendingCount) (hrecipient : ∀ k, cfg.accountId k ≠ recipient) :
    Undisturbed cfg m l (l'.move cfg.vault.nativeAsset (cfg.accountId m) recipient n) where
  others k hk hle x :=
    (Ledger.balance_move_of_ne (accountId_ne hm hle hk) (hrecipient k)).trans (h.others k hk hle x)
  assets x hx := (Ledger.balance_move_of_ne_asset hx).trans (h.assets x hx)

/-- It pays the deposit of the auction, and the collateral goes on hold. -/
theorem ask_undisturbed {now : Nat} {order : DutchAuction.Sell X} {l : Ledger A X}
    {configuration : DutchAuction.TimeReleaseFunction} {t : DutchAuction.State A X}
    {takes : StorageMap Nat (List (DutchAuction.TakeOrder A))} (hm : m ≤ cfg.maxLendingCount)
    (ht : Undisturbed cfg m l t.ledger ∧ t.takes = takes) :
    Call.Outcome (fun _ t' => Undisturbed cfg m l t'.ledger ∧ t'.takes = takes)
      (fun _ t' => Undisturbed cfg m l t'.ledger ∧ t'.takes = takes)
      (DutchAuction.ask cfg.liquidations.auction now (cfg.accountId m) order configuration t) := by
  have hpaid :
      Undisturbed cfg m l (t.ledger.move cfg.liquidations.auction.nativeAsset (cfg.accountId m)
      cfg.liquidations.auction.treasury cfg.liquidations.auction.orderDeposit) := by
    rw [cfg.same_native]
    exact ht.1.pay hm cfg.accountId_ne_treasury
  refine Call.outcome_iff.mpr ⟨fun _ t' ht' => ?_, fun _ t' ht' => ?_⟩
  · obtain ⟨-, -, hheld, rfl⟩ := (Call.outcome_iff.mp DutchAuction.ask_outcome).1 _ _ ht'
    have hfree := cfg.liquidations.auction.currency.funded_of_hold hheld
    exact ⟨hpaid.of_balance fun x c => Ledger.balance_lock hfree, ht.2⟩
  · obtain ⟨-, htakes, -, hsame | ⟨who, hwho, -, hmoved⟩⟩ :=
      (Call.outcome_iff.mp DutchAuction.ask_outcome).2 _ _ ht'
    · rw [hsame]
      exact ⟨ht.1, htakes.trans ht.2⟩
    · obtain rfl := RawOrigin.signed.inj hwho
      rw [hmoved]
      exact ⟨hpaid, htakes.trans ht.2⟩

/-- A liquidation takes only the native asset from a market. -/
theorem Backed.after_liquidateAccount {env : Env X} {liquidator account : A} {u : Unit}
    (h : Backed cfg s)
    (hle : ∀ {n c}, s.markets.lookup n = some c → n ≤ cfg.maxLendingCount)
    (huser : ∀ n, liquidator ≠ cfg.accountId n)
    (hnative : ∀ config ∈ s.markets.lookup m, config.collateral ≠ cfg.vault.nativeAsset)
    (hliquidate : liquidateAccount cfg env liquidator m account s = (.ok u, s')) : Backed cfg s' := by
  rcases liquidateAccount_ok hliquidate with
    ⟨-, rfl⟩ | ⟨config, vault, collateral, unitPrice, orderId, t, -, hmarket, -, -, hauction, rfl⟩
  · exact h
  · obtain ⟨hkept, htakes⟩ : Undisturbed cfg m s.ledger t.ledger ∧ t.takes = s.takes :=
      Liquidations.liquidate_invariant hauction (fun _ _ ht => ask_undisturbed (hle hmarket) ht)
        ⟨⟨fun _ _ _ _ => rfl, fun _ _ => rfl⟩, rfl⟩
    have hpaid :
        Undisturbed cfg m s.ledger ((s.withAuction t).rentPaid cfg m account liquidator) := by
      unfold State.rentPaid
      cases (s.withAuction t).borrowRent.get m account with
      | none => exact hkept
      | some rent => exact hkept.pay (hle hmarket) fun k => (huser k).symm
    refine h.of_local (m := m) local_liquidated htakes hle hpaid.others fun {c} hc => ?_
    exact (h.backed hc).trans (hpaid.assets c.collateral (hnative c hc)).ge

/-- The collateral of the market is not the native asset, or none of the
    borrowers is to be liquidated. -/
def SparesNative (cfg : Config A X F) (s : State A X F) (env : Env X) (market : Nat)
    (borrowers : List A) : Prop :=
  ∀ config ∈ s.markets.lookup market, config.collateral = cfg.vault.nativeAsset →
    ∀ b ∈ borrowers, (shouldLiquidate env market b s).1.toOption ≠ some true

instance (cfg : Config A X F) (s : State A X F) (env : Env X) (market : Nat) (borrowers : List A) :
    Decidable (SparesNative cfg s env market borrowers) :=
  inferInstanceAs (Decidable (∀ config ∈ s.markets.lookup market, _ = cfg.vault.nativeAsset →
    ∀ b ∈ borrowers, _ ≠ _))

theorem liquidateAccount_idle {env : Env X} {liquidator account : A} {u : Unit}
    (hcritical : (shouldLiquidate env m account s).1.toOption ≠ some true)
    (h : liquidateAccount cfg env liquidator m account s = (.ok u, s')) : s' = s := by
  rcases liquidateAccount_ok h with ⟨-, rfl⟩ | ⟨_, _, _, _, _, _, htrue, -⟩
  · rfl
  · rw [htrue] at hcritical
    exact absurd rfl hcritical

/-- Nobody is liquidated. -/
theorem liquidateAccounts_idle {env : Env X} {liquidator : A} {borrowers : List A} {u : Unit}
    (hcritical : ∀ b ∈ borrowers, (shouldLiquidate env m b s).1.toOption ≠ some true)
    (h : Call.forEach borrowers (liquidateAccount cfg env liquidator m) s = (.ok u, s')) :
    s' = s := by
  refine Call.forEach_invariant (I := fun t => t = s) (fun b hb {t t' u} ht hturn => ?_) rfl h
  subst ht
  exact liquidateAccount_idle (hcritical b hb) hturn

theorem Backed.after_liquidate {env : Env X} {liquidator : A} {borrowers : List A} {u : Unit}
    (hr : Registered cfg s) (h : Backed cfg s) (huser : ∀ n, liquidator ≠ cfg.accountId n)
    (hspares : SparesNative cfg s env m borrowers)
    (hloop : Call.forEach borrowers (liquidateAccount cfg env liquidator m) s = (.ok u, s')) :
    Backed cfg s' := by
  by_cases hnative : ∃ config ∈ s.markets.lookup m, config.collateral = cfg.vault.nativeAsset
  · obtain ⟨config, hmarket, hnative⟩ := hnative
    rw [liquidateAccounts_idle (hspares config hmarket hnative) hloop]
    exact h
  · have hkept : Backed cfg s' ∧ s'.markets = s.markets := by
      refine Call.forEach_invariant (I := fun t => Backed cfg t ∧ t.markets = s.markets)
        (fun b _ {t t' u} ht hturn => ?_) ⟨h, rfl⟩ hloop
      refine ⟨ht.1.after_liquidateAccount (fun hn => hr.le_max (ht.2 ▸ hn)) huser ?_ hturn, ?_⟩
      · intro config hmarket heq
        rw [ht.2] at hmarket
        exact hnative ⟨config, hmarket, heq⟩
      · rcases liquidateAccount_ok hturn with ⟨-, rfl⟩ | ⟨_, _, _, _, _, _, -, -, -, -, -, rfl⟩
        · exact ht.2
        · exact ht.2
    exact hkept.1

/-! ## Auctions -/

/-- An operation of the auction that leaves the balances of all markets alone. -/
theorem Backed.of_auction (h : Backed cfg s) {t : DutchAuction.State A X}
    (htakers : ∀ {id takes}, t.takes.lookup id = some takes →
      ∀ o ∈ takes, ∀ n, o.fromTo ≠ cfg.accountId n)
    (hbalance : ∀ {m config}, s.markets.lookup m = some config →
      t.ledger.balance config.collateral (cfg.accountId m) =
        s.ledger.balance config.collateral (cfg.accountId m)) : Backed cfg (s.withAuction t) where
  distinct := h.distinct
  takers := htakers
  backed hm := (h.backed hm).trans (hbalance hm).ge

/-- No market is the seller of a lot that is sold at the end of the block. -/
def SellsNothing (cfg : Config A X F) (s : State A X F) : Prop :=
  ∀ id ∈ s.takes.keys, ∀ lot ∈ s.auction.lot id, ∀ m ∈ s.markets.keys,
    lot.order.fromTo ≠ cfg.accountId m

instance (cfg : Config A X F) (s : State A X F) : Decidable (SellsNothing cfg s) :=
  inferInstanceAs (Decidable (∀ id ∈ s.takes.keys, ∀ lot ∈ s.auction.lot id,
    ∀ m ∈ s.markets.keys, _ ≠ _))

theorem Backed.after_auction {op : DutchAuction.Op A X} {t : DutchAuction.State A X}
    (h : Backed cfg s) (huser : ∀ a ∈ op.signer, ∀ m, a ≠ cfg.accountId m)
    (hfinalize : op = .finalize → SellsNothing cfg s)
    (hstep : DutchAuction.step cfg.liquidations.auction s.auction op = some t) :
    Backed cfg (s.withAuction t) := by
  cases DutchAuction.step_effect hstep with
  | @askFailed _ origin _ _ _ hfailed _ =>
      refine h.of_auction (hfailed.takes ▸ h.takers) fun {m config} _ => ?_
      rcases hfailed.ledger with hsame | ⟨who, rfl, -, hmoved⟩
      · rw [hsame]
        rfl
      · rw [hmoved]
        exact Ledger.balance_move_of_ne (huser who rfl m).symm (cfg.accountId_ne_treasury m)
  | @asked _ who order _ _ _ _ =>
      refine h.of_auction h.takers fun {m config} _ => ?_
      refine (Ledger.balance_lock_of_ne (huser who rfl m).symm).trans ?_
      exact Ledger.balance_move_of_ne (huser who rfl m).symm (cfg.accountId_ne_treasury m)
  | takeFailed => exact h.of_auction h.takers fun _ => rfl
  | @taken _ who id take order =>
      refine h.of_auction (fun {id' takes} htakes o ho n => ?_) fun {m config} _ =>
        Ledger.balance_lock_of_ne (huser who rfl m).symm
      -- The new take is by a user, the others were there before.
      rcases DutchAuction.State.mem_taken htakes ho with ⟨old, hold, hwaiting⟩ | ⟨-, rfl⟩
      · exact h.takers hold o hwaiting n
      · exact huser who rfl n
  | liquidateFailed => exact h.of_auction h.takers fun _ => rfl
  | unlocked => exact h.of_auction h.takers fun _ => Ledger.balance_unlock ..
  | @liquidated id order _ _ =>
      refine h.of_auction h.takers fun {m config} _ => ?_
      refine (Ledger.balance_move_of_ne (cfg.accountId_ne_treasury m)
        (huser order.fromTo rfl m).symm).trans ?_
      exact Ledger.balance_unlock ..
  | @finalized sales _ hok =>
      have hafter := (DutchAuction.onFinalize_iff.mp hok).2.2.2
      refine h.of_auction (fun {id takes} hlookup => ?_) fun {m config} hm => ?_
      · rw [hafter] at hlookup
        cases hlookup
      · refine DutchAuction.onFinalize_balance (fun id lot hlot => ?_) hok
        obtain ⟨hlotTakes, -⟩ := DutchAuction.lot_eq_some.mp hlot
        have hid : id ∈ s.takes.keys := by
          refine AList.lookup_isSome.mp ?_
          rw [show s.takes.lookup id = _ from hlotTakes]
          rfl
        have hmkeys : m ∈ s.markets.keys := by
          refine AList.lookup_isSome.mp ?_
          rw [hm]
          rfl
        exact ⟨(hfinalize rfl id hid lot hlot m hmkeys).symm,
          fun o ho => (h.takers hlotTakes o ho m).symm⟩

/-! ## Runs -/

/-- What each step has to meet, in the state before it: no block sells the collateral of a market at
    its end; a market is not given its own debt token as collateral; and of markets with native
    collateral, no borrower is liquidated and nobody borrows on the rent of an earlier borrow. -/
def Kept (cfg : Config A X F) (s : State A X F) : SystemOp A X → Prop
  | .lending (.createMarket _ _ input) => s.nextDebtAsset cfg ≠ some input.1.collateralAsset
  | .lending (.borrow _ (.signed owner) market _) => FreshRent cfg s market owner
  | .lending (.liquidate env _ market borrowers) => SparesNative cfg s env market borrowers
  | .auction .finalize => SellsNothing cfg s
  | _ => True

instance (cfg : Config A X F) (s : State A X F) : (op : SystemOp A X) → Decidable (Kept cfg s op)
  | .lending (.createMarket _ _ _) => inferInstanceAs (Decidable (_ ≠ _))
  | .lending (.borrow _ (.signed owner) market _) =>
      inferInstanceAs (Decidable (FreshRent cfg s market owner))
  | .lending (.liquidate env _ market borrowers) =>
      inferInstanceAs (Decidable (SparesNative cfg s env market borrowers))
  | .auction .finalize => inferInstanceAs (Decidable (SellsNothing cfg s))
  | .lending (.borrow _ .root _ _) | .lending (.borrow _ .none _ _) | .lending (.updateMarket ..)
  | .lending (.depositCollateral ..) | .lending (.withdrawCollateral ..) | .lending (.repayBorrow ..)
  | .lending (.initializeBlock ..) | .auction (.ask ..) | .auction (.take ..)
  | .auction (.liquidate ..) =>
      inferInstanceAs (Decidable True)

/-- **Every step keeps the collateral backed.** -/
theorem Backed.step {op : SystemOp A X} (hr : Registered cfg s) (h : Backed cfg s)
    (huser : op.ByUser cfg)
    (hkept : Kept cfg s op) (hstep : systemStep cfg s op = some s') : Backed cfg s' := by
  cases op with
  | auction op =>
      obtain ⟨t, ht, rfl⟩ := Option.map_eq_some_iff.mp hstep
      refine h.after_auction huser (fun hfinalize => ?_) ht
      subst hfinalize
      exact hkept
  | lending op =>
      cases step_effect hstep with
      | idle => exact h
      | @created _ who _ _ _ hcreate => exact h.after_create hr (huser who rfl) hkept hcreate
      | updated hmarket => exact h.after_update hmarket
      | @deposited who _ _ _ _ hdeposit => exact h.after_deposit hr (huser who rfl) hdeposit
      | @withdrawn _ who _ _ _ _ hwithdraw => exact h.after_withdraw hr (huser who rfl) hwithdraw
      | @borrowed _ who _ _ _ _ hborrow => exact h.after_borrow hr (huser who rfl) hkept hborrow
      | @repaid who _ _ _ _ _ hrepay => exact h.after_repay hr (huser who rfl) hrepay
      | @liquidated _ who _ _ _ _ hloop => exact h.after_liquidate hr (huser who rfl) hkept hloop
      | initialized hblock => exact h.after_initializeBlock hr hblock

/-- The auction does not touch the register. -/
theorem Registered.systemStep {op : SystemOp A X} (hr : Registered cfg s) (huser : op.ByUser cfg)
    (hstep : systemStep cfg s op = some s') : Registered cfg s' := by
  cases op with
  | lending op => exact hr.step huser hstep
  | auction op =>
      obtain ⟨t, -, rfl⟩ := Option.map_eq_some_iff.mp hstep
      exact hr.of_same_borrows (m := 0) (local_liquidated (l := t.ledger)) (Nat.zero_le _) rfl rfl

theorem Backed.genesis (ledger : Ledger A X) (factory : F) (now : Nat) :
    Backed cfg (State.genesis ledger factory now) := ⟨nofun, nofun, nofun⟩

/-- Accounts `1` and `2` borrow against their collateral; asset `2` doubles in price and the
    collateral of account `1` goes to an auction. -/
def auctionedOps : List (SystemOp Nat Nat) :=
  [.lending (.createMarket ⟨0, sampleOracle fun _ => 1⟩ (.signed 7) ⟨sampleInput, sampleInput_valid⟩),
    .lending (.depositCollateral (.signed 1) 1 900), .lending (.depositCollateral (.signed 2) 1 900),
    .lending (.initializeBlock 1), .lending (.borrow ⟨1, sampleOracle fun _ => 1⟩ (.signed 1) 1 400),
    .lending (.borrow ⟨1, sampleOracle fun _ => 1⟩ (.signed 2) 1 10),
    .lending (.liquidate ⟨1, sampleOracle fun x => if x = 2 then 2 else 1⟩ (.signed 3) 1 [1])]

/-- Account `3` takes what is offered. -/
def takenOps : List (SystemOp Nat Nat) := auctionedOps ++
  [.auction (.take 1 (.signed 3) 1 ⟨900, Fixed.div⟩), .auction .finalize]

theorem auctionedOps_byUser : ∀ op ∈ auctionedOps, op.ByUser sample := by
  simp [auctionedOps, SystemOp.ByUser, Op.ByUser, Op.signer, sample_user]

end Lending
end Composable
