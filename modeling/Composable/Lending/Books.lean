import Composable.Lending.Assets
import Composable.Lending.Indexes
import Composable.Lending.Turns
import Composable.Support.Tally

/-!
# `Lending.Books` — the debts of a market as a book

The debt token of a market is one book: the principals are on hold, and the interest is the balance
of the market's account. Every step by a user does one of the operations of a book to it, or nothing
(`step_book`), so the book stays balanced: `total_borrows` is the sum of the principals, and
`total_interest` what was minted and not burnt (`total_borrows_eq_principals`).
-/

namespace Composable
namespace Lending

variable {A X F : Type} [DecidableEq A] [DecidableEq X]
variable {cfg : Config A X F} {s s' : State A X F} {m n now : Nat} {d : X} {u : Unit}

/-- The book of market `m`, whose debt token is `d`. -/
def State.book (s : State A X F) (cfg : Config A X F) (m : Nat) (d : X) : DebtBook A scaling where
  principal := s.ledger.reserved d
  start := s.debtIndex.get m
  index := (s.borrowIndex m).getD 0
  interest := s.ledger.balance d (cfg.accountId m)
  issued := s.ledger.issuance d

omit [DecidableEq X] in
/-- What is reported of a debt is what is owed by the book. -/
theorem owed_book {a : A} {owed : Nat} (h : Ordered s) (hd : s.debtMarkets m = some d)
    (howed : borrowBalanceCurrent m a s = (.ok (some owed), s)) : owed = (s.book cfg m d).owed a := by
  show owed = (s.debtIndex.get m a).elim 0 fun j =>
    debtOf (s.ledger.reserved d a) ((s.borrowIndex m).getD 0) j
  obtain ⟨-, d', hd', ⟨hj, hzero⟩ | ⟨i, j, -, hj, hfound⟩⟩ := borrowBalanceCurrent_ok.mp howed
  · rw [hj]
    exact Option.some.inj hzero
  · obtain rfl := Option.some.inj (hd.symm.trans hd')
    have hprincipal : 0 < s.ledger.reserved d a := by
      apply Nat.pos_of_ne_zero
      intro hzero
      rw [borrowFromPrincipal_none.mpr hzero] at hfound
      cases hfound
    obtain ⟨i', hi', -, -, -, rfl⟩ := (h.owed_iff hd hj hprincipal).mp howed
    rw [hj, hi', Option.elim_some, Option.getD_some]

/-! ## Interest minted and burnt -/

/-- The interest that an operation mints to market `m`: that of its accrual, if
    the block start is kept. -/
def interestMinted (cfg : Config A X F) (m : Nat) (s : State A X F) : Op A X → Nat
  | .initializeBlock now =>
      if (s.markets.lookup m).isSome = true ∧
        (run (turn cfg now) s (cfg.iteration s.markets.keys)).isSome = true then
        (accrual cfg m now s).1.toOption.elim 0 Accrual.interest
      else 0
  | _ => 0

/-- The interest of market `m` that an operation burns: what a repayment has beyond the principal.
    Where there is no principal, nothing is repaid. -/
def interestBurned (cfg : Config A X F) (m : Nat) (s : State A X F) : Op A X → Nat
  | .repayBorrow origin market beneficiary amount =>
      let principal := s.ledger.balance (s.debtAsset cfg m) beneficiary
      if market = m ∧ (repayBorrow cfg origin market beneficiary amount s).1.toBool = true ∧ 0 <
        principal then
        amount - principal
      else 0
  | _ => 0

/-! ## Operations of a market on its book, and on others -/

omit [DecidableEq X] in
theorem book_quiet (h : Quiet cfg s s') (hd : s.debtMarkets m = some d) :
    s'.book cfg m d = s.book cfg m d := by
  obtain ⟨hfree, hreserved⟩ := h.agree d (not_live_of_debt hd)
  unfold State.book Ledger.balance
  rw [hreserved, hfree, h.debtIndex, h.borrowIndex, h.issuance]

omit [DecidableEq X] in
/-- An operation of another market leaves the book alone if it moves nothing of the debt token. -/
theorem book_of_local (h : Local n s s') (hne : m ≠ n) (hfree : s'.ledger.free d (cfg.accountId m) =
      s.ledger.free d (cfg.accountId m)) (hreserved : s'.ledger.reserved d = s.ledger.reserved d)
    (hissuance : s'.ledger.issuance d = s.ledger.issuance d) : s'.book cfg m d = s.book cfg m d := by
  unfold State.book Ledger.balance
  have hget : s'.debtIndex.get m = s.debtIndex.get m := by
    funext a
    rw [StorageDoubleMap.get, h.debtIndex m hne, StorageDoubleMap.get]
  rw [hreserved, hfree, hget, h.borrowIndex m hne, hissuance]

section Ledgers

variable {asset x : X} {b owner payer beneficiary : A} {amount interest principal : Nat}
  {l : Ledger A X}

theorem issuance_borrowedLedger : (borrowedLedger d asset b owner amount l).issuance x =
    l.issuance x + if x = d then amount else 0 := rfl

theorem issuance_repaidLedger :
    (repaidLedger d asset b payer beneficiary interest principal l).issuance x =
    l.issuance x - (if x = d then interest else 0) - if x = d then principal else 0 := rfl

end Ledgers

variable {config : MarketConfig A X} {vault : Vault.VaultInfo A X} {owner payer beneficiary : A}
variable {amount index marketIndex owed : Nat}

theorem book_borrowed {asset : X} (hd : s.debtMarkets m = some d) (hasset : d ≠ asset)
    (howner : ∀ k, owner ≠ cfg.accountId k) :
    (s.borrowed cfg asset m owner amount index).book cfg m d =
      (s.book cfg m d).borrow owner amount index := by
  have hself : ∀ c, (s.borrowed cfg asset m owner amount index).ledger.reserved d c =
      s.ledger.reserved d c + if c = owner then amount else 0 := by
    intro c
    rw [State.borrowed, State.ledger_withLedger, reserved_borrowedLedger, State.debtAsset_eq hd]
    simp
  apply DebtBook.ext
  · -- The principals.
    funext c
    show (s.borrowed cfg asset m owner amount index).ledger.reserved d c =
      Function.update (s.ledger.reserved d) owner (s.ledger.reserved d owner + amount) c
    rw [hself]
    by_cases hc : c = owner
    · rw [hc, if_pos rfl, Function.update_self]
    · rw [if_neg hc, Function.update_of_ne hc, Nat.add_zero]
  · -- The indexes of the accounts.
    funext c
    show (s.debtIndex.put m owner index).get m c =
      Function.update (s.debtIndex.get m) owner (some index) c
    rw [StorageDoubleMap.get_put]
    by_cases hc : c = owner
    · rw [hc, if_pos ⟨rfl, rfl⟩, Function.update_self]
    · rw [if_neg fun h => hc h.2, Function.update_of_ne hc]
  · rfl
  · -- The debt token of the market's own account is its interest.
    show (s.borrowed cfg asset m owner amount index).ledger.balance d (cfg.accountId m) =
      s.ledger.balance d (cfg.accountId m)
    rw [Ledger.balance, hself, if_neg (howner m).symm, Nat.add_zero, State.borrowed,
      State.ledger_withLedger, free_borrowedLedger hasset, Ledger.balance]
  · show (s.borrowed cfg asset m owner amount index).ledger.issuance d = s.ledger.issuance d + amount
    rw [State.borrowed, State.ledger_withLedger, issuance_borrowedLedger, State.debtAsset_eq hd,
      if_pos rfl]

/-- A repayment releases and burns the principal, and burns the rest from the interest. -/
theorem book_repaid {asset : X} (hd : s.debtMarkets m = some d) (hasset : d ≠ asset)
    (hbeneficiary : ∀ k, beneficiary ≠ cfg.accountId k)
    (hbalance : s.ledger.balance d beneficiary = s.ledger.reserved d beneficiary)
    (hinterest : amount - s.ledger.reserved d beneficiary ≤ s.ledger.free d (cfg.accountId m)) :
    (s.repaid cfg asset m payer beneficiary amount).book cfg m d =
      (s.book cfg m d).repay beneficiary amount := by
  have hledger : (s.repaid cfg asset m payer beneficiary amount).ledger =
      repaidLedger d asset (cfg.accountId m) payer beneficiary
        (amount - s.ledger.reserved d beneficiary)
        (min amount (s.ledger.reserved d beneficiary)) s.ledger := by
    rw [State.repaid, State.ledger_withLedger, State.debtAsset_eq hd, hbalance]
  have hself : ∀ c, (s.repaid cfg asset m payer beneficiary amount).ledger.reserved d c =
      s.ledger.reserved d c - if c = beneficiary then min amount (s.ledger.reserved d beneficiary)
        else 0 := by
    intro c
    rw [hledger, reserved_repaidLedger]
    simp
  apply DebtBook.ext
  · -- Both subtract at most what there is.
    funext c
    show (s.repaid cfg asset m payer beneficiary amount).ledger.reserved d c =
      Function.update (s.ledger.reserved d) beneficiary (s.ledger.reserved d beneficiary - amount) c
    rw [hself]
    by_cases hc : c = beneficiary
    · rw [hc, if_pos rfl, Function.update_self]
      omega
    · rw [if_neg hc, Function.update_of_ne hc, Nat.sub_zero]
  · rfl
  · rfl
  · -- Nothing of the principal is on the market's own account.
    show (s.repaid cfg asset m payer beneficiary amount).ledger.balance d (cfg.accountId m) =
      s.ledger.balance d (cfg.accountId m) - (amount - s.ledger.reserved d beneficiary)
    have hne : ¬ (d = d ∧ cfg.accountId m = beneficiary) := fun h => hbeneficiary m h.2.symm
    rw [Ledger.balance, hself, if_neg (hbeneficiary m).symm, hledger, free_repaidLedger hasset,
      if_pos ⟨rfl, rfl⟩, if_neg hne, if_neg hne, Ledger.balance]
    omega
  · -- What is burnt of interest and principal is the amount.
    show (s.repaid cfg asset m payer beneficiary amount).ledger.issuance d =
      s.ledger.issuance d - amount
    rw [hledger, issuance_repaidLedger, if_pos rfl, if_pos rfl]
    omega

omit [DecidableEq X] in
theorem book_closed : (s.closed m beneficiary).book cfg m d = (s.book cfg m d).close beneficiary := by
  apply DebtBook.ext
  · rfl
  · funext c
    show (s.debtIndex.remove m beneficiary).get m c =
      Function.update (s.debtIndex.get m) beneficiary none c
    rw [StorageDoubleMap.get_remove]
    by_cases hc : c = beneficiary
    · rw [hc, if_pos ⟨rfl, rfl⟩, Function.update_self]
    · rw [if_neg fun h => hc h.2, Function.update_of_ne hc]
  · rfl
  · rfl
  · rfl

theorem book_accrued (hd : s.debtMarkets m = some d) :
    (s.accrued cfg m index amount).book cfg m d = (s.book cfg m d).accrue index amount := by
  apply DebtBook.ext
  · rfl
  · rfl
  · show (Function.update s.borrowIndex m (some index) m).getD 0 = index
    rw [Function.update_self, Option.getD_some]
  · show (s.ledger.mint (s.debtAsset cfg m) (cfg.accountId m) amount).balance d (cfg.accountId m) = _
    rw [State.debtAsset_eq hd, Ledger.balance, Ledger.free_mint, if_pos ⟨rfl, rfl⟩,
      Ledger.reserved_mint]
    show _ = s.ledger.balance d (cfg.accountId m) + amount
    rw [Ledger.balance]
    omega
  · show (s.ledger.mint (s.debtAsset cfg m) (cfg.accountId m) amount).issuance d = _
    rw [State.debtAsset_eq hd, Ledger.issuance_mint, if_pos rfl]
    rfl

/-! ## Operations of other markets -/

section Others

variable {dn asset : X}

theorem book_borrowed_of_ne (hd : s.debtMarkets n = some dn) (hne : m ≠ n) (hdn : d ≠ dn)
    (hasset : d ≠ asset) :
    (s.borrowed cfg asset n owner amount index).book cfg m d = s.book cfg m d := by
  apply book_of_local local_borrowed hne
  · rw [State.borrowed, State.ledger_withLedger, free_borrowedLedger hasset]
  · funext c
    rw [State.borrowed, State.ledger_withLedger, reserved_borrowedLedger, State.debtAsset_eq hd,
      if_neg fun h => hdn h.1, Nat.add_zero]
  · rw [State.borrowed, State.ledger_withLedger, issuance_borrowedLedger, State.debtAsset_eq hd,
      if_neg hdn, Nat.add_zero]

theorem book_repaid_of_ne (hd : s.debtMarkets n = some dn) (hne : m ≠ n) (hdn : d ≠ dn)
    (hasset : d ≠ asset) :
    (s.repaid cfg asset n payer beneficiary amount).book cfg m d = s.book cfg m d := by
  apply book_of_local local_repaid hne
  · rw [State.repaid, State.ledger_withLedger, free_repaidLedger hasset, State.debtAsset_eq hd]
    simp [hdn]
  · funext c
    rw [State.repaid, State.ledger_withLedger, reserved_repaidLedger, State.debtAsset_eq hd,
      if_neg fun h => hdn h.1, Nat.sub_zero]
  · rw [State.repaid, State.ledger_withLedger, issuance_repaidLedger, State.debtAsset_eq hd,
      if_neg hdn, if_neg hdn, Nat.sub_zero, Nat.sub_zero]

omit [DecidableEq X] in
theorem book_closed_of_ne (hne : m ≠ n) : (s.closed n beneficiary).book cfg m d = s.book cfg m d :=
  book_of_local local_closed hne rfl rfl rfl

end Others

/-! ## Steps -/

/-- What an operation does to the book of market `m`. -/
inductive BookEffect (cfg : Config A X F) (s : State A X F) (m : Nat) (d : X) :
    Op A X → DebtBook A scaling → Prop where
  | same {op} (hminted : interestMinted cfg m s op = 0) (hburned : interestBurned cfg m s op = 0) :
      BookEffect cfg s m d op (s.book cfg m d)
  | borrowed {env} {owner : A} {amount marketIndex : Nat}
      (hindex : s.borrowIndex m = some marketIndex) :
      BookEffect cfg s m d (.borrow env (.signed owner) m amount)
        ((s.book cfg m d).borrow owner amount (s.nextIndex cfg m owner amount marketIndex))
  | repaid {payer beneficiary : A} {amount owed : Nat} {config vault}
      (hr : Repaid cfg s m payer beneficiary amount config vault owed)
      (hburned : interestBurned cfg m s (.repayBorrow (.signed payer) m beneficiary amount) =
        amount - s.ledger.reserved d beneficiary) :
      BookEffect cfg s m d (.repayBorrow (.signed payer) m beneficiary amount)
        ((s.book cfg m d).repay beneficiary amount)
  | closed {payer beneficiary : A} {amount owed : Nat} {config vault}
      (hr : Repaid cfg s m payer beneficiary amount config vault owed)
      (hburned : interestBurned cfg m s (.repayBorrow (.signed payer) m beneficiary amount) =
        amount - s.ledger.reserved d beneficiary) :
      BookEffect cfg s m d (.repayBorrow (.signed payer) m beneficiary amount)
        (((s.book cfg m d).repay beneficiary amount).close beneficiary)
  | accrued {now : Nat} {a} (haccrual : accrual cfg m now s = (.ok a, s))
      (hminted : interestMinted cfg m s (.initializeBlock now) = a.interest) :
      BookEffect cfg s m d (.initializeBlock now) ((s.book cfg m d).accrue a.index a.interest)

/-- A market is created with a debt token that is not in use. -/
theorem book_created {manager : A} {input : CreateInput X} {lpToken debtAsset : X}
    {factory factory' : F}
    {poolSize : Nat} (hr : Registered cfg s) (h : Separated cfg s)
    (huser : ∀ k, manager ≠ cfg.accountId k)
    (hc : Created cfg s manager input lpToken debtAsset factory factory' poolSize)
    (hd : s.debtMarkets m = some d) :
    (s.created cfg manager input lpToken debtAsset factory factory' poolSize).book cfg m d =
      s.book cfg m d := by
  have hasset : d ≠ input.borrowAsset := fun heq => (hc.asset_live h huser).2 m (heq ▸ hd)
  have hm : m ≠ s.lendingCount + 1 := (Nat.lt_succ_of_le (hr.isSome_le hd)).ne
  apply DebtBook.ext
  · rfl
  · rfl
  · show (Function.update s.borrowIndex (s.lendingCount + 1) (some Fixed.div) m).getD 0 =
      (s.borrowIndex m).getD 0
    rw [Function.update_of_ne hm]
  · exact Ledger.balance_move_of_ne_asset hasset
  · rfl

/-- A repayment that returned, on any market. -/
theorem repaid_book {origin : RawOrigin A} (hr : Registered cfg s) (h : Separated cfg s)
    (hd : s.debtMarkets m = some d)
    (horigin : origin = .signed payer)
    (hreturned : (repayBorrow cfg origin n beneficiary amount s).1.toBool = true)
    (hrepay : repayBorrowInternal cfg n payer beneficiary (some amount) s = (.ok u, s')) :
    BookEffect cfg s m d (.repayBorrow origin n beneficiary amount) (s'.book cfg m d) := by
  subst horigin
  rcases repay_ok hrepay with ⟨hnone, rfl⟩ | ⟨config, vault, owed, hrepaid, -, hcases⟩
  · -- There was no principal.
    refine .same rfl (if_neg ?_)
    rintro ⟨rfl, -, hpos⟩
    obtain ⟨-, d', hd', ⟨-, hzero⟩ | ⟨i, j, -, hj, hfound⟩⟩ := borrowBalanceCurrent_ok.mp hnone
    · cases hzero
    · -- An account with an index has a borrow, and markets have none.
      have huser : ∀ k, beneficiary ≠ cfg.accountId k :=
        hr.user_of_index (Option.isSome_of_eq_some hj)
      rw [State.debtAsset_eq hd', h.balance_debt hd' huser,
        borrowFromPrincipal_none.mp hfound] at hpos
      exact Nat.lt_irrefl 0 hpos
  · obtain ⟨dn, hdn⟩ := (hr.listed hrepaid.market_eq).debt
    have hasset : d ≠ vault.assetId :=
      fun heq => (h.asset hrepaid.market_eq hrepaid.vault_eq).2 m (heq ▸ hd)
    have huser := hrepaid.user hr
    have hpaid :
        Quiet cfg ((s.repaid cfg vault.assetId n payer beneficiary amount).closed n beneficiary)
        (((s.repaid cfg vault.assetId n payer beneficiary amount).closed n beneficiary).withLedger
          ((s.repaid cfg vault.assetId n payer beneficiary amount).rentPaid cfg n beneficiary
            beneficiary)) :=
      (h.repaid hrepaid).closed.quiet_rentPaid
    by_cases hmn : m = n
    · subst hmn
      obtain rfl := Option.some.inj (hd.symm.trans hdn)
      have hbalance := h.balance_debt hd huser
      have hinterest := hrepaid.interest
      rw [State.debtAsset_eq hd, hbalance] at hinterest
      have hburned : interestBurned cfg m s (.repayBorrow (.signed payer) m beneficiary amount) =
          amount - s.ledger.reserved d beneficiary := by
        have hprincipal := hrepaid.principal_pos hd
        simp only [interestBurned, State.debtAsset_eq hd, hbalance]
        rw [if_pos ⟨trivial, hreturned, hprincipal⟩]
      have hbook : (s.repaid cfg vault.assetId m payer beneficiary amount).book cfg m d =
          (s.book cfg m d).repay beneficiary amount := book_repaid hd hasset huser hbalance hinterest
      rcases hcases with ⟨-, rfl⟩ | ⟨-, hclose⟩
      · rw [hbook]
        exact .repaid hrepaid hburned
      · obtain ⟨-, rfl⟩ := closeBorrow_ok hclose
        rw [book_quiet hpaid hd, book_closed, hbook]
        exact .closed hrepaid hburned
    · have hne : d ≠ dn := fun heq => hmn (h.distinct hd (heq ▸ hdn))
      have hbook :
          (s.repaid cfg vault.assetId n payer beneficiary amount).book cfg m d = s.book cfg m d :=
        book_repaid_of_ne hdn hmn hne hasset
      have hburned : interestBurned cfg m s (.repayBorrow (.signed payer) n beneficiary amount) = 0 :=
        if_neg fun hself => hmn hself.1.symm
      rcases hcases with ⟨-, rfl⟩ | ⟨-, hclose⟩
      · rw [hbook]
        exact .same rfl hburned
      · obtain ⟨-, rfl⟩ := closeBorrow_ok hclose
        rw [book_quiet hpaid hd, book_closed_of_ne hmn, hbook]
        exact .same rfl hburned

/-- A repayment through the extrinsic. -/
theorem repayBorrow_book {origin : RawOrigin A} (hr : Registered cfg s) (h : Separated cfg s)
    (hstep : step cfg s (.repayBorrow origin n beneficiary amount) = some s')
    (hd : s.debtMarkets m = some d) :
    BookEffect cfg s m d (.repayBorrow origin n beneficiary amount) (s'.book cfg m d) := by
  have hs' : dispatch (repayBorrow cfg origin n beneficiary amount) s = s' := Option.some.inj hstep
  rcases transactional_cases (do
      let sender ← ensureSigned origin
      repayBorrowInternal cfg n sender beneficiary (some amount)) s with ⟨hreturned, _,
        hok⟩ | ⟨hfailed, hidle⟩
  · simp only [Call.bind_ok, ensureSigned_ok] at hok
    obtain ⟨payer, _, ⟨horigin, rfl⟩, hrepay⟩ := hok
    rw [← hs']
    exact repaid_book hr h hd horigin hreturned hrepay
  · have hburned : interestBurned cfg m s (.repayBorrow origin n beneficiary amount) = 0 := by
      refine if_neg ?_
      rintro ⟨-, hreturned, -⟩
      rw [repayBorrow, hfailed] at hreturned
      cases hreturned
    obtain rfl : s = s' := hidle.symm.trans hs'
    exact .same rfl hburned

omit [DecidableEq X] in
theorem Separated.alone (hr : Registered cfg s) (h : Separated cfg s)
    (hd : s.debtMarkets m = some d) : Alone cfg s m := by
  intro k config hk hne
  refine ⟨accountId_ne (hr.le_max hk) ((hr.isSome_le hd).trans hr.counted) hne.symm, fun heq => ?_⟩
  obtain ⟨dk, hdk⟩ := (hr.listed hk).debt
  rw [State.debtAsset_eq hdk, State.debtAsset_eq hd] at heq
  exact hne (h.distinct hdk (heq ▸ hd))

/-- A turn of market `m` accrues interest on its book; its vault is over another asset. -/
theorem initializeMarket_book (h : Separated cfg s)
    (hturn : initializeMarket cfg now m s = (.ok u, s')) (hd : s.debtMarkets m = some d) :
    ∃ a, accrual cfg m now s = (.ok a, s) ∧
      s'.book cfg m d = (s.book cfg m d).accrue a.index a.interest := by
  obtain ⟨config, a, v, hmarket, haccrual, hfunds, rfl⟩ := initializeMarket_turn hturn
  have haccrued : Separated cfg (s.accrued cfg m a.index a.interest) := h.accrued hd
  refine ⟨a, haccrual, ?_⟩
  rw [book_quiet (haccrued.quiet_fundsMoved hmarket hfunds) hd, book_accrued hd]

omit [DecidableEq X] in
/-- The part of a book that a block start can change is the same in storages with the same
    accrual. -/
theorem Alike.book (h : Alike cfg m s s') (hd : s.debtMarkets m = some d) :
    s'.book cfg m d = { s.book cfg m d with
      principal := s'.ledger.reserved d, start := s'.debtIndex.get m } := by
  have hissuance := h.issuance
  rw [State.debtAsset_eq hd] at hissuance
  unfold State.book
  rw [h.index, h.own.balance, hissuance]

/-- The turn of a market in a block start that goes through accrues what it
    would at the very start. -/
theorem initializeBlock_accrual {config : MarketConfig A X} {t : State A X F} (hr : Registered cfg s)
    (h : Separated cfg s) (hmarket : s.markets.lookup m = some config)
    (hrun : run (turn cfg now) s (cfg.iteration s.markets.keys) = some t) :
    ∃ a r r', accrual cfg m now s = (.ok a, s) ∧ accrual cfg m now r = (.ok a, r) ∧
      Separated cfg r ∧ Alike cfg m s r ∧
      initializeMarket cfg now m r = (.ok (), r') ∧ Alike cfg m r' t := by
  obtain ⟨d, hd⟩ := (hr.listed hmarket).debt
  obtain ⟨r, r', ⟨-, hr'⟩, hbefore, hturn, hafter⟩ := initializeBlock_turn
    (I := fun r => Registered cfg r ∧ Separated cfg r)
    (fun hI hturn => ⟨initializeMarket_registered hI.1 hturn,
      hI.2.after_initializeMarket hI.1 hturn⟩) ⟨hr, h⟩ hmarket
    (h.alone hr hd) hrun
  obtain ⟨_, a, _, -, haccrual, -, -⟩ := initializeMarket_turn hturn
  refine ⟨a, r, r', ?_, haccrual, hr', hbefore, hturn, hafter⟩
  apply accrual_reads.ok_of_toOption
  rw [← hbefore.accrual.1, haccrual]
  rfl

/-- A block start accrues interest on every book, or does nothing. -/
theorem initializeBlock_book (hr : Registered cfg s) (h : Separated cfg s)
    (hstored : (s.markets.lookup m).isSome = true)
    (hstep : step cfg s (.initializeBlock now) = some s') (hd : s.debtMarkets m = some d) :
    BookEffect cfg s m d (.initializeBlock now) (s'.book cfg m d) := by
  obtain ⟨hdebts, hindexes, hreserved⟩ := Accrues.same (.inr ⟨now, hstep⟩)
  obtain ⟨_, hblock⟩ := Call.success_eq_some.mp hstep
  rcases initializeBlock_ok hblock with ⟨hnone, rfl⟩ | ⟨t, hrun, rfl⟩
  · refine .same ?_ rfl
    rw [interestMinted, hnone]
    exact if_neg fun hkept => Bool.false_ne_true hkept.2
  · obtain ⟨config, hmarket⟩ := Option.isSome_iff_exists.mp hstored
    obtain ⟨a, r, r', haccrual, haccrual', hr', hbefore, hturn, hafter⟩ :=
      initializeBlock_accrual hr h hmarket hrun
    have hdr : r.debtMarkets m = some d := hbefore.debt.trans hd
    obtain ⟨a', haccrual'', hbook⟩ := initializeMarket_book hr' hturn hdr
    obtain rfl := Call.ok_inj haccrual' haccrual''
    have hminted : interestMinted cfg m s (.initializeBlock now) = a.interest := by
      rw [interestMinted, hrun, if_pos ⟨hstored, rfl⟩, haccrual]
      rfl
    have hdr' : r'.debtMarkets m = some d := hafter.debt.symm.trans (hdebts ▸ hd)
    have hsame : State.book { t with lastBlockTimestamp := now } cfg m d =
        (s.book cfg m d).accrue a.index a.interest := by
      show t.book cfg m d = _
      rw [hafter.book hdr', hbook, hbefore.book hd]
      apply DebtBook.ext
      · exact congrFun hreserved d
      · show StorageDoubleMap.get t.debtIndex m = StorageDoubleMap.get s.debtIndex m
        rw [show t.debtIndex = s.debtIndex from hindexes]
      · rfl
      · rfl
      · rfl
    rw [hsame]
    exact .accrued haccrual hminted

/-- **Every step by a user is an operation of the book**, or leaves it alone. -/
theorem step_book {op : Op A X} (hr : Registered cfg s) (h : Separated cfg s) (huser : op.ByUser cfg)
    (hstored : (s.markets.lookup m).isSome = true) (hstep : step cfg s op = some s')
    (hd : s.debtMarkets m = some d) : BookEffect cfg s m d op (s'.book cfg m d) := by
  cases op with
  | repayBorrow origin n beneficiary amount => exact repayBorrow_book hr h hstep hd
  | initializeBlock now => exact initializeBlock_book hr h hstored hstep hd
  | createMarket env origin input =>
      obtain ⟨-, heffect⟩ := step_debts hr h huser hstep
      cases heffect with
      | quiet hquiet => exact book_quiet hquiet hd ▸ .same rfl rfl
      | @created _ who _ _ _ _ _ _ hc => exact book_created hr h (huser who rfl) hc hd ▸ .same rfl rfl
  | borrow env origin n amount =>
      obtain ⟨-, heffect⟩ := step_debts hr h huser hstep
      cases heffect with
      | quiet hquiet => exact book_quiet hquiet hd ▸ .same rfl rfl
      | @borrowed _ owner _ _ _ vault _ _ hb hquiet =>
          obtain ⟨dn, hdn⟩ := (hr.listed hb.market_eq).debt
          have hasset : d ≠ vault.assetId :=
            fun heq => (h.asset hb.market_eq hb.vault_eq).2 m (heq ▸ hd)
          rw [book_quiet hquiet hd]
          by_cases hmn : m = n
          · subst hmn
            rw [book_borrowed hd hasset (huser owner rfl)]
            exact .borrowed hb.index_eq
          · have hne : d ≠ dn := fun heq => hmn (h.distinct hd (heq ▸ hdn))
            rw [book_borrowed_of_ne hdn hmn hne hasset]
            exact .same rfl rfl
  | updateMarket origin n input =>
      obtain ⟨-, heffect⟩ := step_debts hr h huser hstep
      cases heffect with
      | quiet hquiet => exact book_quiet hquiet hd ▸ .same rfl rfl
      | updated _ => exact .same rfl rfl
  | depositCollateral origin n amount | withdrawCollateral env origin n amount
  | liquidate env origin n borrowers =>
      obtain ⟨-, heffect⟩ := step_debts hr h huser hstep
      cases heffect with
      | quiet hquiet => exact book_quiet hquiet hd ▸ .same rfl rfl

/-! ## Balance -/

omit [DecidableEq X] in
/-- A repayment takes from the interest only what is there. -/
theorem Repaid.interest_le {config : MarketConfig A X} {vault : Vault.VaultInfo A X}
    (hrepaid : Repaid cfg s m payer beneficiary amount config vault owed) (hr : Registered cfg s)
    (h : Separated cfg s) (hd : s.debtMarkets m = some d) :
    amount - (s.book cfg m d).principal beneficiary ≤ (s.book cfg m d).interest := by
  have hinterest := hrepaid.interest
  rw [State.debtAsset_eq hd, h.balance_debt hd (hrepaid.user hr)] at hinterest
  exact hinterest.trans (Nat.le_add_right _ _)

/-- The operations of a book keep it balanced. -/
theorem BookEffect.balanced {op : Op A X} {b : DebtBook A scaling}
    (heffect : BookEffect cfg s m d op b)
    (hr : Registered cfg s) (h : Separated cfg s) (hd : s.debtMarkets m = some d)
    (hb : (s.book cfg m d).Balanced) : b.Balanced := by
  cases heffect with
  | same _ _ => exact hb
  | borrowed _ => exact hb.borrow
  | repaid hrepaid _ => exact hb.repay (hrepaid.interest_le hr h hd)
  | closed hrepaid _ => exact (hb.repay (hrepaid.interest_le hr h hd)).close
  | accrued _ _ => exact hb.accrue

/-- Interest minted and burnt is what changes the interest of a book. -/
theorem BookEffect.interest {op : Op A X} {b : DebtBook A scaling}
    (heffect : BookEffect cfg s m d op b)
    (hr : Registered cfg s) (h : Separated cfg s) (hd : s.debtMarkets m = some d) :
    (s.book cfg m d).interest + interestMinted cfg m s op =
      b.interest + interestBurned cfg m s op := by
  have hrepay : ∀ {payer beneficiary : A} {amount owed : Nat} {config vault},
      Repaid cfg s m payer beneficiary amount config vault owed →
      (s.book cfg m d).interest =
        ((s.book cfg m d).repay beneficiary amount).interest +
          (amount - s.ledger.reserved d beneficiary) := by
    intro payer beneficiary amount owed config vault hrepaid
    exact (Nat.sub_add_cancel (hrepaid.interest_le hr h hd)).symm
  cases heffect with
  | same hminted hburned => rw [hminted, hburned]
  | borrowed _ => rfl
  | repaid hrepaid hburned =>
      rw [hburned]
      exact hrepay hrepaid
  | closed hrepaid hburned =>
      rw [hburned]
      exact hrepay hrepaid
  | accrued _ hminted =>
      rw [hminted]
      rfl

/-- Debt tokens belong to stored markets and are on hold for no market. Of an asset that is not
    in use nothing is issued. -/
structure Issued (cfg : Config A X F) (s : State A X F) : Prop where
  stored : ∀ {m d}, s.debtMarkets m = some d → (s.markets.lookup m).isSome = true
  own : ∀ {m d n}, s.debtMarkets m = some d → s.ledger.reserved d (cfg.accountId n) = 0
  unissued : ∀ {x}, ¬ cfg.vault.currencyFactory.inUse s.vault.factory x → s.ledger.issuance x = 0

namespace Issued

omit [DecidableEq A] [DecidableEq X] in
theorem of_same (h : Issued cfg s) (hmarkets : s'.markets = s.markets)
    (hdebts : s'.debtMarkets = s.debtMarkets) (hfactory : s'.vault.factory = s.vault.factory)
    (hown : ∀ {m d n}, s.debtMarkets m = some d → s'.ledger.reserved d (cfg.accountId n) = 0)
    (hunissued : ∀ {x}, ¬ cfg.vault.currencyFactory.inUse s.vault.factory x →
      s'.ledger.issuance x = 0) :
    Issued cfg s' where
  stored := by
    rw [hdebts, hmarkets]
    exact h.stored
  own := by
    rw [hdebts]
    exact hown
  unissued := by
    rw [hfactory]
    exact hunissued

omit [DecidableEq A] [DecidableEq X] in
theorem of_quiet (h : Issued cfg s) (hquiet : Quiet cfg s s') : Issued cfg s' := by
  refine h.of_same hquiet.markets hquiet.debtMarkets hquiet.factory (fun {m d n} hd => ?_)
    fun {x} hx => ?_
  · rw [(hquiet.agree d (not_live_of_debt hd)).2]
    exact h.own hd
  · rw [hquiet.issuance]
    exact h.unissued hx

theorem borrowed {asset : X} (h : Issued cfg s) (hd : s.debtMarkets m = some d)
    (hused : cfg.vault.currencyFactory.inUse s.vault.factory d)
    (howner : ∀ k, owner ≠ cfg.accountId k) :
    Issued cfg (s.borrowed cfg asset m owner amount index) := by
  refine h.of_same rfl rfl rfl (fun {n e k} he => ?_) fun {x} hx => ?_
  · rw [State.borrowed, State.ledger_withLedger, reserved_borrowedLedger, h.own he,
      if_neg fun heq => howner k heq.2.symm]
  · have hne : x ≠ d := fun heq => hx (heq ▸ hused)
    rw [State.borrowed, State.ledger_withLedger, issuance_borrowedLedger, State.debtAsset_eq hd,
      if_neg hne, h.unissued hx]

theorem repaid {asset : X} (h : Issued cfg s) :
    Issued cfg (s.repaid cfg asset m payer beneficiary amount) := by
  refine h.of_same rfl rfl rfl (fun {n e k} he => ?_) fun {x} hx => ?_
  · rw [State.repaid, State.ledger_withLedger, reserved_repaidLedger, h.own he, Nat.zero_sub]
  · rw [State.repaid, State.ledger_withLedger, issuance_repaidLedger, h.unissued hx, Nat.zero_sub,
      Nat.zero_sub]

omit [DecidableEq X] in
theorem closed (h : Issued cfg s) : Issued cfg (s.closed m beneficiary) :=
  ⟨h.stored, h.own, h.unissued⟩

/-- A turn mints a debt token, which is in use. -/
theorem after_initializeMarket (h : Issued cfg s) (hr : Registered cfg s) (hs : Separated cfg s)
    (hturn : initializeMarket cfg now m s = (.ok u, s')) : Issued cfg s' := by
  obtain ⟨config, a, v, hmarket, -, hfunds, rfl⟩ := initializeMarket_turn hturn
  obtain ⟨d, hd⟩ := (hr.listed hmarket).debt
  refine h.of_same rfl rfl hfunds.factory (fun {n e k} he => ?_) fun {x} hx => ?_
  · show v.ledger.reserved e (cfg.accountId k) = 0
    rw [hfunds.reserved]
    exact h.own he
  · have hne : x ≠ d := fun heq => hx (heq ▸ hs.debt hd)
    show v.ledger.issuance x = 0
    rw [hfunds.issuance]
    show (s.ledger.mint (s.debtAsset cfg m) (cfg.accountId m) a.interest).issuance x = 0
    rw [Ledger.issuance_mint, State.debtAsset_eq hd, if_neg hne, h.unissued hx]

theorem after_initializeBlock (h : Issued cfg s) (hr : Registered cfg s) (hs : Separated cfg s)
    (hblock : initializeBlock cfg now s = (.ok u, s')) : Issued cfg s' := by
  have hall :=
    initializeBlock_invariant (I := fun t => Registered cfg t ∧ Separated cfg t ∧ Issued cfg t)
    (fun {t t' n u} ht hturn => ?_) (fun {t} ht => ?_) ⟨hr, hs, h⟩ hblock
  · exact hall.2.2
  · obtain ⟨hrt, hst, hit⟩ := ht
    exact ⟨initializeMarket_registered hrt hturn, hst.after_initializeMarket hrt hturn,
      hit.after_initializeMarket hrt hst hturn⟩
  · obtain ⟨hrt, hst, hit⟩ := ht
    exact ⟨hrt.of_same_borrows (local_stamped 0) (Nat.zero_le _) rfl rfl,
      hst.of_local (local_stamped 0) hst.idle hst.unheld rfl,
      hit.of_same rfl rfl rfl hit.own hit.unissued⟩

variable {manager : A} {input : CreateInput X} {lpToken debtAsset : X} {factory factory' : F}
  {poolSize : Nat}

/-- A new debt token was not in use. -/
theorem created (h : Issued cfg s) (hs : Separated cfg s)
    (hc : Created cfg s manager input lpToken debtAsset factory factory' poolSize) :
    Issued cfg (s.created cfg manager input lpToken debtAsset factory factory' poolSize) where
  stored := by
    intro n e he
    rcases debt_created.mp he with ⟨rfl, -⟩ | ⟨hn, hold⟩
    · exact AList.lookup_isSome.mpr ((AList.mem_insert _).mpr (.inl rfl))
    · exact AList.lookup_isSome.mpr
        ((AList.mem_insert _).mpr (.inr (AList.lookup_isSome.mp (h.stored hold))))
  own := by
    intro n e k he
    show s.ledger.reserved e (cfg.accountId k) = 0
    rcases debt_created.mp he with ⟨-, rfl⟩ | ⟨-, hold⟩
    · exact hs.unheld hc.fresh
    · exact h.own hold
  unissued := by
    intro x hx
    show s.ledger.issuance x = 0
    exact h.unissued fun hused => hx (hc.inUse_iff.mpr (.inr (.inr hused)))

omit [DecidableEq A] [DecidableEq X] in
theorem updated {config : MarketConfig A X} {input : UpdateInput} (h : Issued cfg s) :
    Issued cfg { s with markets := s.markets.insert m (config.update input) } where
  stored := by
    intro n e he
    exact AList.lookup_isSome.mpr
      ((AList.mem_insert _).mpr (.inr (AList.lookup_isSome.mp (h.stored he))))
  own := h.own
  unissued := h.unissued

/-- **Every step by a user keeps the register of debt tokens.** -/
theorem step {op : Op A X} (h : Issued cfg s) (hr : Registered cfg s) (hs : Separated cfg s)
    (huser : op.ByUser cfg) (hstep : Lending.step cfg s op = some s') : Issued cfg s' := by
  obtain ⟨-, heffect⟩ := step_debts hr hs huser hstep
  cases heffect with
  | quiet hquiet => exact h.of_quiet hquiet
  | created hc => exact h.created hs hc
  | updated _ => exact h.updated
  | @borrowed _ owner _ _ _ _ _ _ hb hquiet =>
      obtain ⟨d, hd⟩ := (hr.listed hb.market_eq).debt
      exact (h.borrowed hd (hs.debt hd) (huser owner rfl)).of_quiet hquiet
  | repaid _ _ => exact h.repaid
  | closed _ _ hquiet => exact h.repaid.closed.of_quiet hquiet
  | initialized hblock => exact h.after_initializeBlock hr hs hblock

end Issued

/-- The storage is in order, and the books of all markets are balanced. -/
structure Booked (cfg : Config A X F) (s : State A X F) : Prop where
  registered : Registered cfg s
  separated : Separated cfg s
  issued : Issued cfg s
  balanced : ∀ {m d}, s.debtMarkets m = some d → (s.book cfg m d).Balanced

/-- The book of a new market is empty: its debt token was not in use. -/
theorem book_new {manager : A} {input : CreateInput X} {lpToken debtAsset : X}
    {factory factory' : F} {poolSize : Nat}
    (h : Separated cfg s) (hissued : Issued cfg s) (huser : ∀ k, manager ≠ cfg.accountId k)
    (hc : Created cfg s manager input lpToken debtAsset factory factory' poolSize) :
    ((s.created cfg manager input lpToken debtAsset factory factory' poolSize).book cfg m
      debtAsset).Empty := by
  have hfresh : ∀ {x}, cfg.vault.currencyFactory.inUse s.vault.factory x → debtAsset ≠ x :=
    fun hx heq =>
    hc.fresh (heq ▸ hx)
  have hprincipal : ∀ a, s.ledger.reserved debtAsset a = 0 := fun a => h.unheld hc.fresh
  refine ⟨hprincipal, ?_, hissued.unissued hc.fresh⟩
  show (s.ledger.move input.borrowAsset manager (cfg.accountId (s.lendingCount + 1))
    poolSize).balance debtAsset
    (cfg.accountId m) = 0
  rw [Ledger.balance_move_of_ne_asset (hfresh (hc.asset_live h huser).1), Ledger.balance,
    hprincipal, Nat.add_zero]
  exact h.idle (fun hlive => hc.fresh hlive.1) fun n hn => absurd rfl (hfresh (h.debt hn))

/-- A step keeps the debt tokens, and a new one has an empty book. -/
theorem step_debtMarkets {op : Op A X} (hr : Registered cfg s) (h : Separated cfg s)
    (hissued : Issued cfg s) (huser : op.ByUser cfg) (hstep : step cfg s op = some s') :
    (s.debtMarkets m = some d → s'.debtMarkets m = some d) ∧
      (s'.debtMarkets m = some d → s.debtMarkets m = some d ∨ s.debtMarkets m = none ∧
        (s'.book cfg m d).Empty) := by
  have hsame :
      s'.debtMarkets = s.debtMarkets → (s.debtMarkets m = some d → s'.debtMarkets m = some d) ∧
      (s'.debtMarkets m = some d → s.debtMarkets m = some d ∨ s.debtMarkets m = none ∧
        (s'.book cfg m d).Empty) := by
    intro heq
    rw [heq]
    exact ⟨id, .inl⟩
  obtain ⟨-, heffect⟩ := step_debts hr h huser hstep
  cases heffect with
  | quiet hquiet => exact hsame hquiet.debtMarkets
  | @created _ who _ _ _ _ _ _ hc =>
      refine ⟨fun hd => debt_created.mpr (.inr ⟨(Nat.lt_succ_of_le (hr.isSome_le hd)).ne, hd⟩),
        fun hd => ?_⟩
      rcases debt_created.mp hd with ⟨rfl, rfl⟩ | ⟨-, hd'⟩
      · exact .inr ⟨(hr.blank (Nat.lt_succ_self _)).debtMarkets,
          book_new h hissued (huser who rfl) hc⟩
      · exact .inl hd'
  | updated _ => exact hsame rfl
  | borrowed _ hquiet => exact hsame hquiet.debtMarkets
  | repaid _ _ => exact hsame rfl
  | closed _ _ hquiet => exact hsame hquiet.debtMarkets
  | initialized _ => exact hsame (Accrues.same (.inr ⟨_, hstep⟩)).1

/-- **Every step by a user keeps the books balanced.** -/
theorem Booked.step {op : Op A X} (h : Booked cfg s) (huser : op.ByUser cfg)
    (hstep : step cfg s op = some s') : Booked cfg s' := by
  obtain ⟨hr, hs, hissued, hbalanced⟩ := h
  refine ⟨hr.step huser hstep, (step_debts hr hs huser hstep).1, hissued.step hr hs huser hstep,
    fun {m d} hd => ?_⟩
  rcases (step_debtMarkets hr hs hissued huser hstep).2 hd with hold | ⟨-, hempty⟩
  · exact (step_book hr hs huser (hissued.stored hold) hstep hold).balanced hr hs hold
      (hbalanced hold)
  · exact hempty.balanced

omit [DecidableEq X] in
theorem Booked.genesis {ledger : Ledger A X} {factory : F} (h : Unissued cfg ledger factory)
    (hissuance : ∀ x, ¬ cfg.vault.currencyFactory.inUse factory x → ledger.issuance x = 0)
    (now : Nat) : Booked cfg (State.genesis ledger factory now) :=
  ⟨.genesis ledger factory now, .genesis h now, ⟨nofun, nofun, hissuance _⟩, nofun⟩

theorem Booked.run {ops : List (Op A X)} (h : Booked cfg s) (huser : ∀ op ∈ ops, op.ByUser cfg)
    (hrun : Composable.run (Lending.step cfg) s ops = some s') : Booked cfg s' :=
  run_invariant (I := Booked cfg) (fun h hop hstep => h.step hop.1 hstep) h
    ((along_true s ops).and_forall huser) hrun

/-! ## Totals -/

omit [DecidableEq X] in
/-- The totals of a market are those of its book. -/
theorem Booked.totalBorrows_eq (h : Booked cfg s) (hd : s.debtMarkets m = some d) :
    totalBorrows cfg m s = (.ok (∑ᶠ a, s.ledger.reserved d a), s) := by
  have hissued : s.ledger.issuance d = s.ledger.balance d (cfg.accountId m) + ∑ᶠ a,
      s.ledger.reserved d a :=
    (h.balanced hd).issued
  rw [totalBorrows, Call.get_bind, State.debtAsset_eq hd, hissued, Nat.add_sub_cancel_left]
  simp only [Call.bind_ok, Call.ensure_ok, Call.pure_ok]
  exact ⟨(), s, ⟨Nat.le_add_right _ _, rfl⟩, trivial, rfl⟩

theorem repayBorrow_stored {origin : RawOrigin A}
    (h : (repayBorrow cfg origin m beneficiary amount s).1.toBool = true) :
    (s.markets.lookup m).isSome = true := by
  rcases transactional_cases (do
      let sender ← ensureSigned origin
      repayBorrowInternal cfg m sender beneficiary (some amount)) s with ⟨-, _, hok⟩ | ⟨hfailed, -⟩
  · simp only [Call.bind_ok, ensureSigned_ok, repayBorrowInternal, getMarket_ok] at hok
    obtain ⟨_, _, ⟨-, rfl⟩, config, _, ⟨hmarket, -⟩, -⟩ := hok
    rw [hmarket]
    rfl
  · rw [repayBorrow, hfailed] at h
    cases h

/-- The interest of a market; nothing before it exists. -/
def State.interest (s : State A X F) (cfg : Config A X F) (m : Nat) : Nat :=
  (s.debtMarkets m).elim 0 fun d => s.ledger.balance d (cfg.accountId m)

omit [DecidableEq X] in
theorem interest_eq (hd : s.debtMarkets m = some d) :
    s.interest cfg m = (s.book cfg m d).interest := by
  rw [State.interest, hd]
  rfl

/-- Every step keeps the interest of a market in balance with what is minted and burnt. -/
theorem Booked.interest_step {op : Op A X} (h : Booked cfg s) (huser : op.ByUser cfg)
    (hstep : Lending.step cfg s op = some s') :
    s.interest cfg m + interestMinted cfg m s op = s'.interest cfg m + interestBurned cfg m s op := by
  obtain ⟨hr, hs, hissued, -⟩ := h
  have hdebts := fun d => step_debtMarkets (m := m) (d := d) hr hs hissued huser hstep
  cases hd : s.debtMarkets m with
  | some d =>
      rw [interest_eq hd, interest_eq ((hdebts d).1 hd)]
      exact (step_book hr hs huser (hissued.stored hd) hstep hd).interest hr hs hd
  | none =>
      -- No market: there is nothing to accrue on, and nothing to repay.
      have hunstored : s.markets.lookup m = none := by
        by_contra hne
        obtain ⟨config, hmarket⟩ := Option.ne_none_iff_exists'.mp hne
        obtain ⟨d, hsome⟩ := (hr.listed hmarket).debt
        rw [hd] at hsome
        cases hsome
      have hnone : ¬ (s.markets.lookup m).isSome = true := by simp [hunstored]
      have hminted : interestMinted cfg m s op = 0 := by
        cases op with
        | initializeBlock now => exact if_neg fun hkept => hnone hkept.1
        | _ => rfl
      have hburned : interestBurned cfg m s op = 0 := by
        cases op with
        | repayBorrow origin n beneficiary amount =>
            refine if_neg ?_
            rintro ⟨rfl, hreturned, -⟩
            exact hnone (repayBorrow_stored hreturned)
        | _ => rfl
      have hnothing : s.interest cfg m = 0 := by
        rw [State.interest, hd]
        rfl
      have hstill : s'.interest cfg m = 0 := by
        cases hd' : s'.debtMarkets m with
        | none =>
            rw [State.interest, hd']
            rfl
        | some d =>
            rcases (hdebts d).2 hd' with hold | ⟨-, hempty⟩
            · rw [hd] at hold
              cases hold
            · rw [interest_eq hd', hempty.interest]
      rw [hnothing, hminted, hstill, hburned]

/-- **`total_borrows` is the sum of the principals**, and `total_interest` what was minted and not
    burnt, in every state reached by users, for every market. -/
theorem total_borrows_eq_principals (cfg : Config A X F) {ledger : Ledger A X} {factory : F}
    (hgenesis : Unissued cfg ledger factory)
    (hissuance : ∀ x, ¬ cfg.vault.currencyFactory.inUse factory x → ledger.issuance x = 0) (now : Nat)
    {ops : List (Op A X)} (huser : ∀ op ∈ ops, op.ByUser cfg)
    (hrun : run (step cfg) (State.genesis ledger factory now) ops = some s) {m : Nat}
    {config : MarketConfig A X} (hmarket : s.markets.lookup m = some config) :
    ∃ d interest, s.debtMarkets m = some d ∧ (Function.support (s.ledger.reserved d)).Finite ∧
      totalBorrows cfg m s = (.ok (∑ᶠ a, s.ledger.reserved d a), s) ∧
      totalInterest cfg m s = (.ok interest, s) ∧
      tally (step cfg) (interestMinted cfg m) (State.genesis ledger factory now) ops =
        interest + tally (step cfg) (interestBurned cfg m)
          (State.genesis ledger factory now) ops := by
  have hstart : Booked cfg (State.genesis ledger factory now) := .genesis hgenesis hissuance now
  have h : Booked cfg s := hstart.run huser hrun
  obtain ⟨d, hd⟩ := (h.registered.listed hmarket).debt
  refine ⟨d, s.ledger.balance d (cfg.accountId m), hd, (h.balanced hd).finite,
    h.totalBorrows_eq hd, ?_, ?_⟩
  · rw [totalInterest, Call.get_bind, State.debtAsset_eq hd]
    rfl
  -- What the steps mint of the interest, less what they burn of it, is what there is.
  · have hbalanced :=
      run_balanced (P := fun s => s.interest cfg m) (C := fun _ op => op.ByUser cfg ∧ True)
      (fun h hop hstep => h.step hop.1 hstep) (fun h hop hstep => h.interest_step hop.1 hstep) hstart
      ((along_true _ ops).and_forall huser) hrun
    have hnothing : State.interest (State.genesis ledger factory now) cfg m = 0 := rfl
    rw [hnothing, Nat.zero_add, interest_eq hd] at hbalanced
    exact hbalanced

/-- Accounts `1` and `2` borrow, interest accrues for a year, and account `3`
    repays for account `1`. -/
def settledOps : List (Op Nat Nat) :=
  [.createMarket ⟨0, sampleOracle fun _ => 1⟩ (.signed 7) ⟨sampleInput, sampleInput_valid⟩,
    .depositCollateral (.signed 1) 1 900, .depositCollateral (.signed 2) 1 900, .initializeBlock 1,
    .borrow ⟨1, sampleOracle fun _ => 1⟩ (.signed 1) 1 100,
      .borrow ⟨1, sampleOracle fun _ => 1⟩ (.signed 2) 1 50,
    .initializeBlock (1 + secondsPerYearNaive), .repayBorrow (.signed 3) 1 1 105]

theorem settledOps_byUser : ∀ op ∈ settledOps, op.ByUser sample := by
  simp [settledOps, Op.ByUser, Op.signer, sample_user]

theorem sampleLedger_issuance :
    ∀ x, ¬ sample.vault.currencyFactory.inUse 100 x → sampleLedger.issuance x = 0 := by
  intro x hx
  have hlarge : 100 ≤ x := Nat.le_of_not_lt hx
  have hnone : ∀ y, y < 100 → ¬ y = x := fun y hy heq => absurd hlarge (by omega)
  simp [sampleLedger, Ledger.ofList, hnone]

theorem total_borrows_eq_principals_sample : ∃ s,
    run (step sample) (State.genesis sampleLedger 100 0) settledOps = some s ∧
      totalBorrows sample 1 s = (.ok 50, s) ∧ ∑ᶠ a, s.ledger.reserved 101 a = 50 ∧
      totalInterest sample 1 s = (.ok 10, s) ∧
      tally (step sample) (interestMinted sample 1) (State.genesis sampleLedger 100 0) settledOps =
        10 + tally (step sample) (interestBurned sample 1) (State.genesis sampleLedger 100 0)
          settledOps := by
  have hview : (run (step sample) (State.genesis sampleLedger 100 0) settledOps).map
      (fun s => ((s.markets.lookup 1).isSome, s.debtMarkets 1, (totalBorrows sample 1 s).1.toOption,
        (totalInterest sample 1 s).1.toOption)) =
          some (true, some 101, some 50, some 10) := by decide +kernel
  obtain ⟨s, hrun, hs⟩ := Option.map_eq_some_iff.mp hview
  simp only [Prod.mk.injEq] at hs
  obtain ⟨hstored, hd, hborrows, hinterest⟩ := hs
  obtain ⟨config, hmarket⟩ := Option.isSome_iff_exists.mp hstored
  obtain ⟨d, interest, hd', -, hborrows', hinterest', htally⟩ := total_borrows_eq_principals sample
    sampleLedger_unissued sampleLedger_issuance 0 settledOps_byUser hrun hmarket
  obtain rfl : 101 = d := Option.some.inj (hd.symm.trans hd')
  rw [hborrows'] at hborrows
  rw [hinterest'] at hinterest
  obtain rfl : interest = 10 := Option.some.inj hinterest
  have hsum : ∑ᶠ a, s.ledger.reserved 101 a = 50 := Option.some.inj hborrows
  exact ⟨s, hrun, hsum ▸ hborrows', hsum, hinterest', htally⟩

end Lending
end Composable
