import Composable.Lending.Model
import Composable.Vault.Effect

/-!
# `Lending.Effect` — what a call of the lending pallet does

The lending pallet as a system (`Op`, `step`). Its extrinsics are transactional, so an
extrinsic that fails changes nothing, and it is enough to say what each does when it
returns: `depositCollateral_ok`, `borrow_ok`, `repay_ok` and so on describe the storage
afterwards. Queries only read.
-/

namespace Composable
namespace Lending

variable {A X F : Type} [DecidableEq A] [DecidableEq X]
variable {cfg : Config A X F} {s s' : State A X F}

/-! ## The system -/

/-- The extrinsics of the pallet, with the clock and oracle they run against,
    and the start of a block. -/
inductive Op (A X : Type) where
  | createMarket (env : Env X) (origin : RawOrigin A)
      (input : { input : CreateInput X // input.Valid })
  | updateMarket (origin : RawOrigin A) (market : Nat) (input : UpdateInput)
  | depositCollateral (origin : RawOrigin A) (market amount : Nat)
  | withdrawCollateral (env : Env X) (origin : RawOrigin A) (market amount : Nat)
  | borrow (env : Env X) (origin : RawOrigin A) (market amount : Nat)
  | repayBorrow (origin : RawOrigin A) (market : Nat) (beneficiary : A) (amount : Nat)
  | liquidate (env : Env X) (origin : RawOrigin A) (market : Nat) (borrowers : List A)
  | initializeBlock (now : Nat)

/-- One operation; a block that panics at its start does not exist. -/
def step (cfg : Config A X F) (s : State A X F) : Op A X → Option (State A X F)
  | .createMarket env origin input => some (dispatch (createMarket cfg env origin input.1) s)
  | .updateMarket origin market input => some (dispatch (updateMarket origin market input) s)
  | .depositCollateral origin market amount =>
      some (dispatch (depositCollateral cfg origin market amount) s)
  | .withdrawCollateral env origin market amount =>
      some (dispatch (withdrawCollateral cfg env origin market amount) s)
  | .borrow env origin market amount => some (dispatch (borrow cfg env origin market amount) s)
  | .repayBorrow origin market beneficiary amount =>
      some (dispatch (repayBorrow cfg origin market beneficiary amount) s)
  | .liquidate env origin market borrowers =>
      some (dispatch (liquidate cfg env origin market borrowers) s)
  | .initializeBlock now => Call.success (initializeBlock cfg now) s

/-- No market exists yet. -/
def State.genesis (ledger : Ledger A X) (factory : F) (now : Nat) : State A X F where
  vault := ⟨ledger, factory, 0, fun _ => none, fun _ => none, fun _ => ∅⟩
  ordersIndex := 0
  sellOrders := ∅
  takes := ∅
  lendingCount := 0
  markets := ∅
  debtMarkets := fun _ => none
  debtIndex := fun _ => ∅
  borrowTimestamp := fun _ => ∅
  borrowRent := fun _ => ∅
  borrowIndex := fun _ => none
  accountCollateral := fun _ => ∅
  lastBlockTimestamp := now

/-- The account that signs an operation. -/
def Op.signer : Op A X → Option A
  | .createMarket _ (.signed a) _ | .updateMarket (.signed a) _ _ | .depositCollateral (.signed a) _ _
  | .withdrawCollateral _ (.signed a) _ _ | .borrow _ (.signed a) _ _ | .repayBorrow (.signed a) _ _ _
  | .liquidate _ (.signed a) _ _ => some a
  | _ => none

/-- The operation is not signed by an account of a market, for which there is no key. -/
def Op.ByUser (cfg : Config A X F) (op : Op A X) : Prop := ∀ a ∈ op.signer, ∀ m, a ≠ cfg.accountId m

/-! ## Queries -/

section Queries

variable {m n amount : Nat} {a : A} {x : X} {env : Env X} {config : MarketConfig A X}

omit [DecidableEq A] [DecidableEq X] in
theorem onLedger_ok {f : TokenError → DispatchError PalletError} {α : Type}
    {x : Call (Ledger A X) TokenError α} {v : α} :
    (onLedger f x : LendingCall A X F α) s = (.ok v, s') ↔
      ∃ l, x s.ledger = (.ok v, l) ∧ s' = s.withLedger l := Call.zoom_ok

omit [DecidableEq A] [DecidableEq X] in
theorem onVault_ok {α : Type} {x : Vault.VaultCall A X F α} {v : α} :
    onVault x s = (.ok v, s') ↔ ∃ t, x s.vault = (.ok v, t) ∧ s' = { s with vault := t } :=
  Call.zoom_ok

omit [DecidableEq A] [DecidableEq X] in
theorem onVault_reads {α : Type} {x : Vault.VaultCall A X F α} (h : x.Reads) : (onVault x).Reads :=
  Call.Reads.zoom (fun _ => rfl) h

omit [DecidableEq A] [DecidableEq X] in
theorem getMarket_ok :
    getMarket m s = (.ok config, s') ↔ s.markets.lookup m = some config ∧ s' = s := by
  simp only [getMarket, Call.get_bind, Call.ofOption_ok]

omit [DecidableEq A] [DecidableEq X] in
theorem getBorrowIndex_ok : getBorrowIndex m s = (.ok n, s') ↔ s.borrowIndex m = some n ∧ s' = s := by
  simp only [getBorrowIndex, Call.get_bind, Call.ofOption_ok]

omit [DecidableEq A] [DecidableEq X] in
theorem assetId_ok : assetId m s = (.ok x, s') ↔
    ∃ vault, s.vault.vaults m = some vault ∧ x = vault.assetId ∧ s' = s := by
  simp only [assetId, Vault.vaultInfo, Call.bind_ok, onVault_ok, Call.get_bind, Call.ofOption_ok,
    Call.pure_ok]
  constructor
  · rintro ⟨vault, _, ⟨_, ⟨hvault, rfl⟩, rfl⟩, rfl, rfl⟩
    exact ⟨vault, hvault, rfl, rfl⟩
  · rintro ⟨vault, hvault, rfl, rfl⟩
    exact ⟨vault, _, ⟨_, ⟨hvault, rfl⟩, rfl⟩, rfl, rfl⟩

omit [DecidableEq A] [DecidableEq X] in
theorem arithmetic_ok {α : Type} {r : Except ArithmeticError α} {v : α} :
    (arithmetic r : LendingCall A X F α) s = (.ok v, s') ↔ r = .ok v ∧ s' = s := by
  rw [arithmetic, Call.ofExcept_ok, exceptMapError_ok]

omit [DecidableEq A] [DecidableEq X] in
theorem answer_ok {α : Type} {r : Except (DispatchError Empty) α} {v : α} :
    (answer r : LendingCall A X F α) s = (.ok v, s') ↔ r = .ok v ∧ s' = s := by
  rw [answer, Call.ofExcept_ok, exceptMapError_ok]

omit [DecidableEq A] [DecidableEq X] in
theorem trap_ok {v : Nat} : (trap n : LendingCall A X F Nat) s = (.ok v, s') ↔
    n ≤ u128Max ∧ v = n ∧ s' = s := by
  simp only [trap, Call.bind_ok, Call.ensure_ok, Call.pure_ok]
  constructor
  · rintro ⟨_, _, ⟨h, rfl⟩, rfl, rfl⟩
    exact ⟨h, rfl, rfl⟩
  · rintro ⟨h, rfl, rfl⟩
    exact ⟨(), _, ⟨h, rfl⟩, rfl, rfl⟩

omit [DecidableEq A] [DecidableEq X] in
theorem getPrice_reads : (getPrice env x n : LendingCall A X F Nat).Reads := Call.Reads.ofExcept _

omit [DecidableEq A] [DecidableEq X] in
theorem getMarket_reads : (getMarket m : LendingCall A X F _).Reads := fun s =>
  Call.Reads.ofOption (s.markets.lookup m) (err .marketDoesNotExist) s

omit [DecidableEq A] [DecidableEq X] in
theorem getBorrowIndex_reads : (getBorrowIndex m : LendingCall A X F _).Reads := fun s =>
  Call.Reads.ofOption (s.borrowIndex m) (err .marketDoesNotExist) s

omit [DecidableEq A] [DecidableEq X] in
theorem assetId_reads : (assetId m : LendingCall A X F X).Reads :=
  (onVault_reads Vault.vaultInfo_reads).bind fun _ => Call.Reads.pure _

omit [DecidableEq X] in
theorem borrowBalanceCurrent_reads : (borrowBalanceCurrent m a : LendingCall A X F _).Reads := by
  refine Call.Reads.get.bind fun s => (Call.Reads.ofOption _ _).bind fun d => ?_
  cases s.debtIndex.get m a with
  | none => exact Call.Reads.pure _
  | some i => exact getBorrowIndex_reads.bind fun _ => Call.Reads.ofExcept _

omit [DecidableEq X] in
/-- An account owes by its index, if it has one. -/
theorem borrowBalanceCurrent_ok {owed : Option Nat} : borrowBalanceCurrent m a s = (.ok owed, s') ↔
    s' = s ∧ ∃ d, s.debtMarkets m = some d ∧ ((s.debtIndex.get m a = none ∧ owed = some 0) ∨
      ∃ i j, s.borrowIndex m = some i ∧ s.debtIndex.get m a = some j ∧
        borrowFromPrincipal (s.ledger.reserved d a) i j = .ok owed) := by
  simp only [borrowBalanceCurrent, Call.get_bind, Call.bind_ok, Call.ofOption_ok]
  constructor
  · rintro ⟨d, t, ⟨hd, ht⟩, h⟩
    subst ht
    cases hj : t.debtIndex.get m a with
    | none =>
        rw [hj] at h
        obtain ⟨rfl, rfl⟩ := Call.pure_ok.mp h
        exact ⟨rfl, d, hd, .inl ⟨rfl, rfl⟩⟩
    | some j =>
        simp only [hj, Call.bind_ok, getBorrowIndex_ok, arithmetic_ok] at h
        obtain ⟨i, _, ⟨hi, rfl⟩, howed, rfl⟩ := h
        exact ⟨rfl, d, hd, .inr ⟨i, j, hi, rfl, howed⟩⟩
  · rintro ⟨rfl, d, hd, ⟨hj, rfl⟩ | ⟨i, j, hi, hj, howed⟩⟩
    · refine ⟨d, s', ⟨hd, rfl⟩, ?_⟩
      rw [hj]
      exact Call.pure_ok.mpr ⟨rfl, rfl⟩
    · refine ⟨d, s', ⟨hd, rfl⟩, ?_⟩
      simp only [hj, Call.bind_ok, getBorrowIndex_ok, arithmetic_ok]
      exact ⟨i, s', ⟨hi, rfl⟩, howed, rfl⟩

omit [DecidableEq A] [DecidableEq X] in
/-- Nothing is found exactly where there is no principal. -/
theorem borrowFromPrincipal_none {principal marketIndex accountIndex : Nat} :
    borrowFromPrincipal principal marketIndex accountIndex = .ok none ↔ principal = 0 := by
  unfold borrowFromPrincipal
  split
  next hzero => exact iff_of_true rfl hzero
  next hpos =>
    refine iff_of_false (fun h => ?_) hpos
    simp only [exceptBind_ok] at h
    obtain ⟨_, -, _, -, _, -, hsome⟩ := h
    cases hsome

omit [DecidableEq X] in
/-- Who reports no debt has an index, and no principal. -/
theorem borrowBalanceCurrent_none {d : X} (hd : s.debtMarkets m = some d)
    (h : borrowBalanceCurrent m a s = (.ok none, s)) :
    (s.debtIndex.get m a).isSome = true ∧ s.ledger.reserved d a = 0 := by
  obtain ⟨-, d', hd', ⟨-, hzero⟩ | ⟨i, j, -, hj, hfound⟩⟩ := borrowBalanceCurrent_ok.mp h
  · cases hzero
  · obtain rfl := Option.some.inj (hd.symm.trans hd')
    rw [hj]
    exact ⟨rfl, borrowFromPrincipal_none.mp hfound⟩

omit [DecidableEq X] in
theorem collateralOfAccount_reads : (collateralOfAccount m a : LendingCall A X F _).Reads := fun s =>
  Call.Reads.ofOption (s.accountCollateral.get m a) (err .marketCollateralWasNotDepositedByAccount) s

omit [DecidableEq X] in
theorem createBorrowerData_reads : (createBorrowerData env m a : LendingCall A X F _).Reads :=
  getMarket_reads.bind fun _ => collateralOfAccount_reads.bind fun _ => getPrice_reads.bind fun _ =>
    assetId_reads.bind fun _ => borrowBalanceCurrent_reads.bind fun _ => getPrice_reads.bind fun _ =>
      Call.Reads.pure _

omit [DecidableEq X] in
theorem shouldLiquidate_reads : (shouldLiquidate env m a : LendingCall A X F _).Reads :=
  createBorrowerData_reads.bind fun _ => Call.Reads.ofExcept _

omit [DecidableEq X] in
theorem getBorrowLimit_reads : (getBorrowLimit env m a : LendingCall A X F _).Reads := by
  refine Call.Reads.get.bind fun s => ?_
  split
  · exact createBorrowerData_reads.bind fun _ => (Call.Reads.ofExcept _).bind fun _ =>
      Call.Reads.ofOption _ _
  · exact Call.Reads.pure _

omit [DecidableEq X] in
theorem availableFunds_reads : (Vault.availableFunds cfg.vault m a).Reads := by
  refine Call.Reads.get.bind fun s => ?_
  split
  · split
    · refine Call.Reads.bind ?_ fun _ => Call.Reads.pure _
      exact Vault.vaultInfo_reads.bind fun _ => Call.Reads.get.bind fun _ =>
        (Call.Reads.ensure _ _).bind fun _ => Call.Reads.pure _
    · exact Call.Reads.pure _
  · exact Call.Reads.pure _

omit [DecidableEq X] in
theorem canBorrow_reads : (canBorrow cfg env m a amount config).Reads :=
  Call.Reads.get.bind fun _ => (Call.Reads.ensure _ _).bind fun _ => assetId_reads.bind fun _ =>
    getBorrowLimit_reads.bind fun _ => getPrice_reads.bind fun _ =>
        (Call.Reads.ensure _ _).bind fun _ =>
      (Call.Reads.ensure _ _).bind fun _ => (Call.Reads.when (Call.Reads.ensure _ _)).bind fun _ =>
        (onVault_reads availableFunds_reads).bind fun _ => Call.Reads.ensure _ _

omit [DecidableEq X] in
theorem canRepayBorrow_ok {payer beneficiary : A} {owed : Nat} {u : Unit}
    (h : canRepayBorrow cfg m payer beneficiary amount owed x s = (.ok u, s')) :
    s' = s ∧ (s.borrowTimestamp.get m beneficiary).isSome = true ∧ 0 < amount ∧ amount ≤ owed := by
  simp only [canRepayBorrow, Call.get_bind, Call.bind_ok, Call.ofOption_ok, Call.ensure_ok] at h
  obtain ⟨_, _, ⟨htime, rfl⟩, _, _, ⟨-, rfl⟩, _, _, ⟨hpos, rfl⟩, _, _, ⟨hle, rfl⟩, _, _, ⟨-, rfl⟩,
    -, rfl⟩ := h
  exact ⟨rfl, by rw [htime]; rfl, hpos, hle⟩

end Queries

/-! ## Collateral -/

/-- The storage after `account` deposited collateral. -/
def State.deposited (s : State A X F) (cfg : Config A X F) (config : MarketConfig A X) (market : Nat)
    (account : A) (amount : Nat) : State A X F :=
  State.withLedger
    { s with
      accountCollateral := s.accountCollateral.put market account
        ((s.accountCollateral.get market account).getD 0 + amount) }
    (s.ledger.move config.collateral account (cfg.accountId market) amount)

theorem depositCollateral_ok {market amount : Nat} {account : A} {u : Unit}
    (h : depositCollateralInternal cfg market account amount s = (.ok u, s')) :
    ∃ config, s.markets.lookup market = some config ∧
      cfg.vault.currency.transferRefused s.ledger config.collateral account
        (cfg.accountId market) amount
        true = none ∧ s' = s.deposited cfg config market account amount := by
  simp only [depositCollateralInternal, Call.bind_ok, getMarket_ok, Call.get_bind, Call.ensure_ok,
    Call.modify_ok, onLedger_ok, Currency.transfer_ok, and_assoc, exists_and_left, exists_eq_left,
    exists_const] at h
  obtain ⟨config, hmarket, -, -, -, hpaid, rfl⟩ := h
  exact ⟨config, hmarket, hpaid, rfl⟩

/-- The storage after `account` withdrew collateral. -/
def State.withdrawn (s : State A X F) (cfg : Config A X F) (config : MarketConfig A X) (market : Nat)
    (account : A) (amount : Nat) : State A X F :=
  State.withLedger
    { s with
      accountCollateral := s.accountCollateral.put market account
        ((s.accountCollateral.get market account).getD 0 - amount) }
    (s.ledger.move config.collateral (cfg.accountId market) account amount)

theorem withdrawCollateral_ok {env : Env X} {market amount : Nat} {account : A} {u : Unit}
    (h : withdrawCollateralInternal cfg env market account amount s = (.ok u, s')) :
    ∃ config, s.markets.lookup market = some config ∧
      amount ≤ (s.accountCollateral.get market account).getD 0 ∧
      cfg.vault.currency.transferRefused s.ledger config.collateral (cfg.accountId market)
        account amount
        true = none ∧ s' = s.withdrawn cfg config market account amount := by
  simp only [withdrawCollateralInternal, Call.bind_ok, getMarket_ok, Call.get_bind, Call.ensure_ok,
    Call.modify_ok, onLedger_ok, Currency.transfer_ok, arithmetic_ok, and_assoc, exists_and_left,
    exists_eq_left, exists_const] at h
  obtain ⟨config, hmarket, hle, _, _, hasset, h⟩ := h
  -- The queries in between only read.
  obtain rfl := assetId_reads.ok hasset
  obtain ⟨_, _, howed, h⟩ := h
  obtain rfl := borrowBalanceCurrent_reads.ok howed
  obtain ⟨_, _, hborrow, _, -, h⟩ := h
  obtain rfl := getPrice_reads.ok hborrow
  obtain ⟨_, _, hvalue, h⟩ := h
  obtain rfl := getPrice_reads.ok hvalue
  obtain ⟨_, -, -, -, -, hpaid, rfl⟩ := h
  exact ⟨config, hmarket, hle, hpaid, rfl⟩

/-! ## Borrowing -/

/-- The index of an account after borrowing. -/
def updatedIndex (marketIndex amount existing accountIndex : Nat) : Nat :=
  Fixed.quotient marketIndex
    (Fixed.ofPercent (Fixed.percentFromRational amount (existing + amount))) Fixed.div +
    Fixed.quotient accountIndex
      (Fixed.ofPercent (Fixed.percentFromRational existing (existing + amount))) Fixed.div

omit [DecidableEq A] [DecidableEq X] in
theorem calcUpdatedAccountInterestIndex_ok {marketIndex amount existing accountIndex n : Nat}
    (h : calcUpdatedAccountInterestIndex marketIndex amount existing accountIndex s = (.ok n, s')) :
    n = updatedIndex marketIndex amount existing accountIndex ∧ s' = s := by
  simp only [calcUpdatedAccountInterestIndex, Call.bind_ok, arithmetic_ok, Fixed.checked_ok,
    trap_ok] at h
  obtain ⟨_, _, ⟨⟨-, rfl⟩, rfl⟩, _, _, ⟨-, rfl, rfl⟩, _, _, ⟨-, rfl, rfl⟩, -, rfl, rfl⟩ := h
  exact ⟨rfl, rfl⟩

/-- The ledger after `owner` borrowed: the debt token on hold, and the borrow asset paid out. -/
def borrowedLedger (debtAsset asset : X) (marketAccount owner : A) (amount : Nat) (l : Ledger A X) :
    Ledger A X :=
  ((l.mint debtAsset owner amount).lock debtAsset owner amount).move asset marketAccount owner amount

section

variable {d asset x : X} {b owner c : A} {amount : Nat} {l : Ledger A X}

theorem free_borrowedLedger (h : x ≠ asset) :
    (borrowedLedger d asset b owner amount l).free x c = l.free x c := by
  simp only [borrowedLedger, Ledger.free_move, Ledger.free_lock, Ledger.free_mint, h,
    false_and, if_false, Nat.sub_zero, Nat.add_zero, Nat.add_sub_cancel, ite_self]

theorem reserved_borrowedLedger : (borrowedLedger d asset b owner amount l).reserved x c =
    l.reserved x c + if x = d ∧ c = owner then amount else 0 := rfl

end

/-- The storage after `owner` borrowed, up to the rent. -/
def State.borrowed (s : State A X F) (cfg : Config A X F) (asset : X) (market : Nat) (owner : A)
    (amount index : Nat) : State A X F :=
  State.withLedger
    { s with
      debtIndex := s.debtIndex.put market owner index
      borrowTimestamp := s.borrowTimestamp.put market owner s.lastBlockTimestamp }
    (borrowedLedger (s.debtAsset cfg market) asset (cfg.accountId market) owner amount s.ledger)

/-- The storage after `owner` paid the rent. -/
def State.rented (s : State A X F) (cfg : Config A X F) (market : Nat) (owner : A) : State A X F :=
  State.withLedger
    { s with borrowRent := s.borrowRent.put market owner (cfg.liquidateFee 2) }
    (s.ledger.move cfg.vault.nativeAsset owner (cfg.accountId market) (cfg.liquidateFee 2))

theorem payRent_ok {market : Nat} {owner : A} {u : Unit}
    (h : payRent cfg market owner s = (.ok u, s')) :
    (s.borrowRent.get market owner = none ∧
      cfg.vault.currency.transferRefused s.ledger cfg.vault.nativeAsset owner (cfg.accountId market)
        (cfg.liquidateFee 2) true = none ∧ s' = s.rented cfg market owner) ∨
      ((s.borrowRent.get market owner).isSome = true ∧ s' = s) := by
  simp only [payRent, Call.get_bind, Call.when_ok, Call.bind_ok, onLedger_ok, Currency.transfer_ok,
    Call.modify_ok, Option.isNone_iff_eq_none] at h
  rcases h with ⟨hnone, _, _, ⟨_, ⟨hpaid, rfl⟩, rfl⟩, rfl⟩ | ⟨hsome, rfl⟩
  · exact .inl ⟨hnone, hpaid, rfl⟩
  · exact .inr ⟨Option.isSome_iff_ne_none.mpr hsome, rfl⟩

/-- A borrow by `owner` that went through, up to the rent. -/
structure Borrowed (cfg : Config A X F) (s : State A X F) (market : Nat) (owner : A) (amount : Nat)
    (config : MarketConfig A X) (vault : Vault.VaultInfo A X) (marketIndex : Nat) : Prop where
  market_eq : s.markets.lookup market = some config
  vault_eq : s.vault.vaults config.borrow = some vault
  index_eq : s.borrowIndex market = some marketIndex
  paid : cfg.vault.currency.transferRefused
    ((s.ledger.mint (s.debtAsset cfg market) owner amount).lock (s.debtAsset cfg market) owner amount)
    vault.assetId (cfg.accountId market) owner amount true = none

/-- The index that a borrow stores for its owner. -/
def State.nextIndex (s : State A X F) (cfg : Config A X F) (market : Nat) (owner : A)
    (amount marketIndex : Nat) : Nat :=
  updatedIndex marketIndex amount (s.ledger.balance (s.debtAsset cfg market) owner)
    ((s.debtIndex.get market owner).getD 0)

theorem borrow_ok {env : Env X} {market amount : Nat} {owner : A} {u : Unit}
    (h : borrowInternal cfg env market owner amount s = (.ok u, s')) :
    ∃ config vault marketIndex, Borrowed cfg s market owner amount config vault marketIndex ∧
      payRent cfg market owner (s.borrowed cfg vault.assetId market owner amount
        (s.nextIndex cfg market owner amount marketIndex)) = (.ok u, s') := by
  simp only [borrowInternal, Call.bind_ok, getMarket_ok, assetId_ok, Call.get_bind,
    updatedAccountInterestIndex, getBorrowIndex_ok, onLedger_ok, Currency.mintInto_ok,
    Currency.hold_ok, Currency.transfer_ok, Call.modify_ok, and_assoc, exists_and_left,
    exists_eq_left, exists_const] at h
  obtain ⟨config, hmarket, _, _, ⟨vault, hvault, rfl, rfl⟩, _, _, hcan, h⟩ := h
  obtain rfl := canBorrow_reads.ok hcan
  obtain ⟨index, _, ⟨marketIndex, hindex, hcalc⟩, -, -, hpaid, hrent⟩ := h
  obtain ⟨rfl, rfl⟩ := calcUpdatedAccountInterestIndex_ok hcalc
  exact ⟨config, vault, marketIndex, ⟨hmarket, hvault, hindex, hpaid⟩, hrent⟩

/-! ## Repaying -/

/-- The ledger with the debt tokens of a repayment burnt: `interest` from the market,
    `principal` from the borrower. -/
def burntLedger (debtAsset : X) (marketAccount beneficiary : A) (interest principal : Nat)
    (l : Ledger A X) : Ledger A X :=
  ((l.burn debtAsset marketAccount interest).unlock debtAsset beneficiary principal).burn debtAsset
    beneficiary principal

/-- The ledger after `payer` repaid: `interest` burnt from the market, and `principal` from the
    borrower against a payment. -/
def repaidLedger (debtAsset asset : X) (marketAccount payer beneficiary : A)
    (interest principal : Nat) (l : Ledger A X) : Ledger A X :=
  (((l.burn debtAsset marketAccount interest).unlock debtAsset beneficiary principal).burn debtAsset
    beneficiary principal).move asset payer marketAccount principal

section

variable {d asset x : X} {b payer beneficiary c : A} {interest principal : Nat} {l : Ledger A X}

theorem repaidLedger_eq : repaidLedger d asset b payer beneficiary interest principal l =
    (burntLedger d b beneficiary interest principal l).move asset payer b principal := rfl

theorem free_repaidLedger (h : x ≠ asset) :
    (repaidLedger d asset b payer beneficiary interest principal l).free x c =
      l.free x c - (if x = d ∧ c = b then interest else 0) +
        (if x = d ∧ c = beneficiary then min principal (l.reserved d beneficiary) else 0) -
        (if x = d ∧ c = beneficiary then principal else 0) := by
  simp only [repaidLedger, Ledger.free_move, Ledger.free_burn, Ledger.free_unlock,
    Ledger.reserved_burn, h, false_and, if_false, Nat.sub_zero, Nat.add_zero, ite_self]

theorem reserved_repaidLedger :
    (repaidLedger d asset b payer beneficiary interest principal l).reserved x c =
    l.reserved x c - if x = d ∧ c = beneficiary then principal else 0 := rfl

end

theorem repayInterest_ok {market amount principal : Nat} {debtAsset : X} {r : Nat × Nat}
    (h : repayInterest cfg market debtAsset amount principal s = (.ok r, s')) :
    r = (s.ledger.balance debtAsset (cfg.accountId market) - (amount - principal),
      min amount principal) ∧
      amount - principal ≤ s.ledger.free debtAsset (cfg.accountId market) ∧
      s' = s.withLedger (s.ledger.burn debtAsset (cfg.accountId market) (amount - principal)) := by
  simp only [repayInterest, Call.get_bind] at h
  split at h
  next hle =>
    obtain ⟨rfl, rfl⟩ := Call.pure_ok.mp h
    have hzero : amount - principal = 0 := Nat.sub_eq_zero_of_le hle
    rw [hzero, Ledger.burn_zero, Nat.min_eq_left hle]
    exact ⟨rfl, Nat.zero_le _, rfl⟩
  next hgt =>
    simp only [Call.bind_ok, arithmetic_ok, Fixed.checkedSub_ok, onLedger_ok, Currency.burnFrom_ok,
      Call.pure_ok] at h
    obtain ⟨_, _, ⟨⟨-, rfl⟩, rfl⟩, _, _, ⟨_, ⟨hburnt, rfl⟩, rfl⟩, rfl, rfl⟩ := h
    rw [Nat.min_eq_right (Nat.le_of_not_le hgt)]
    exact ⟨rfl, (cfg.vault.currency.funded_of_burn hburnt).1, rfl⟩

/-- The storage without the records of a borrow. -/
def State.closed (s : State A X F) (market : Nat) (beneficiary : A) : State A X F :=
  { s with
    borrowTimestamp := s.borrowTimestamp.remove market beneficiary
    debtIndex := s.debtIndex.remove market beneficiary }

/-- The ledger after the rent of a borrow was paid out to `recipient`, if one is recorded. -/
def State.rentPaid (s : State A X F) (cfg : Config A X F) (market : Nat) (account recipient : A) :
    Ledger A X :=
  (s.borrowRent.get market account).elim s.ledger fun rent =>
    s.ledger.move cfg.vault.nativeAsset (cfg.accountId market) recipient rent

theorem closeBorrow_ok {market : Nat} {beneficiary : A} {u : Unit}
    (h : closeBorrow cfg market beneficiary s = (.ok u, s')) :
    (∀ rent, s.borrowRent.get market beneficiary = some rent →
      cfg.vault.currency.transferRefused s.ledger cfg.vault.nativeAsset (cfg.accountId market)
        beneficiary
        rent false = none) ∧
      s' = (s.closed market beneficiary).withLedger
        (s.rentPaid cfg market beneficiary beneficiary) := by
  simp only [closeBorrow, Call.bind_ok, Call.modify_ok, Call.get_bind] at h
  obtain ⟨_, _, rfl, h⟩ := h
  unfold State.rentPaid
  simp only at h
  cases hrent : s.borrowRent.get market beneficiary with
  | none =>
      simp only [hrent] at h
      obtain ⟨-, rfl⟩ := Call.pure_ok.mp h
      refine ⟨fun rent hrent' => ?_, rfl⟩
      cases hrent'
  | some rent =>
      simp only [hrent, onLedger_ok, Currency.transfer_ok] at h
      obtain ⟨_, ⟨hpaid, rfl⟩, rfl⟩ := h
      refine ⟨fun rent' hrent' => ?_, rfl⟩
      cases hrent'
      exact hpaid

/-- A repayment of `amount` by `payer` that went through, up to closing the borrow. -/
structure Repaid (cfg : Config A X F) (s : State A X F) (market : Nat) (payer beneficiary : A)
    (amount : Nat) (config : MarketConfig A X) (vault : Vault.VaultInfo A X) (owed : Nat) : Prop where
  market_eq : s.markets.lookup market = some config
  vault_eq : s.vault.vaults config.borrow = some vault
  owed_eq : borrowBalanceCurrent market beneficiary s = (.ok (some owed), s)
  active : (s.borrowTimestamp.get market beneficiary).isSome = true
  pos : 0 < amount
  le_owed : amount ≤ owed
  interest : amount - s.ledger.balance (s.debtAsset cfg market) beneficiary ≤
    s.ledger.free (s.debtAsset cfg market) (cfg.accountId market)

omit [DecidableEq X] in
/-- Whoever repays something has a principal. -/
theorem Repaid.principal_pos {market amount owed : Nat} {payer beneficiary : A}
    {config : MarketConfig A X}
    {vault : Vault.VaultInfo A X} {d : X}
    (h : Repaid cfg s market payer beneficiary amount config vault owed)
    (hd : s.debtMarkets market = some d) : 0 < s.ledger.reserved d beneficiary := by
  obtain ⟨-, d', hd', ⟨-, hzero⟩ | ⟨i, j, -, -, howed⟩⟩ := borrowBalanceCurrent_ok.mp h.owed_eq
  · obtain rfl := Option.some.inj hzero
    exact absurd h.le_owed (Nat.not_le_of_lt h.pos)
  · obtain rfl := Option.some.inj (hd.symm.trans hd')
    apply Nat.pos_of_ne_zero
    intro hzero
    rw [borrowFromPrincipal_none.mpr hzero] at howed
    cases howed

/-- The storage after a repayment, up to closing the borrow. -/
def State.repaid (s : State A X F) (cfg : Config A X F) (asset : X) (market : Nat)
    (payer beneficiary : A) (amount : Nat) : State A X F :=
  let principal := s.ledger.balance (s.debtAsset cfg market) beneficiary
  s.withLedger (repaidLedger (s.debtAsset cfg market) asset (cfg.accountId market) payer beneficiary
    (amount - principal) (min amount principal) s.ledger)

/-- The interest that a repayment leaves on the market. -/
def State.interestLeft (s : State A X F) (cfg : Config A X F) (market : Nat) (beneficiary : A)
    (amount : Nat) : Nat :=
  s.ledger.balance (s.debtAsset cfg market) (cfg.accountId market) -
    (amount - s.ledger.balance (s.debtAsset cfg market) beneficiary)

/-- A repayment does nothing when nothing is on hold; else the payer pays what is released of the
    principal, and the borrow is closed when no interest is left on the market. -/
theorem repay_ok {market amount : Nat} {payer beneficiary : A} {u : Unit}
    (h : repayBorrowInternal cfg market payer beneficiary (some amount) s = (.ok u, s')) :
    (borrowBalanceCurrent market beneficiary s = (.ok none, s) ∧ s' = s) ∨
    ∃ config vault owed, Repaid cfg s market payer beneficiary amount config vault owed ∧
      (payer ≠ cfg.accountId market →
        min amount (s.ledger.balance (s.debtAsset cfg market) beneficiary) ≤
        (burntLedger (s.debtAsset cfg market) (cfg.accountId market) beneficiary
          (amount - s.ledger.balance (s.debtAsset cfg market) beneficiary)
          (min amount (s.ledger.balance (s.debtAsset cfg market) beneficiary)) s.ledger).free
            vault.assetId payer) ∧
      ((s.interestLeft cfg market beneficiary amount ≠ 0 ∧
          s' = s.repaid cfg vault.assetId market payer beneficiary amount) ∨
        (s.interestLeft cfg market beneficiary amount = 0 ∧ closeBorrow cfg market beneficiary
          (s.repaid cfg vault.assetId market payer beneficiary amount) = (.ok u, s'))) := by
  simp only [repayBorrowInternal, Call.bind_ok, getMarket_ok] at h
  obtain ⟨config, _, ⟨hmarket, rfl⟩, owed, _, howed, h⟩ := h
  obtain rfl := borrowBalanceCurrent_reads.ok howed
  cases owed with
  | none =>
      obtain ⟨-, rfl⟩ := Call.pure_ok.mp h
      exact .inl ⟨howed, rfl⟩
  | some owed =>
      simp only [Call.bind_ok, assetId_ok, Call.get_bind, Option.getD_some, onLedger_ok,
        Currency.release_ok, Currency.burnFrom_ok, Currency.transfer_ok, and_assoc, exists_and_left,
        exists_eq_left, exists_const] at h
      obtain ⟨_, _, ⟨vault, hvault, rfl, rfl⟩, _, _, hcan, h⟩ := h
      obtain ⟨rfl, hactive, hpos, hle⟩ := canRepayBorrow_ok hcan
      obtain ⟨r, _, hinterest, -, -, hpaid, hclose⟩ := h
      obtain ⟨rfl, hfree, rfl⟩ := repayInterest_ok hinterest
      refine .inr ⟨config, vault, owed, ⟨hmarket, hvault, howed, hactive, hpos, hle, hfree⟩,
        cfg.vault.currency.funded_of_transfer hpaid, ?_⟩
      rcases Call.when_ok.mp hclose with ⟨hzero, hclosed⟩ | ⟨hne, hs'⟩
      · exact .inr ⟨hzero, hclosed⟩
      · exact .inl ⟨hne, hs'⟩

/-! ## Liquidation -/

/-- The order by which the collateral of an account is sold. -/
def liquidationOrder (config : MarketConfig A X) (asset : X) (collateral unitPrice : Nat) :
    DutchAuction.Sell X := ⟨⟨config.collateral, asset⟩, ⟨collateral, unitPrice⟩⟩

/-- A healthy account is left alone; of another the collateral goes to the auction, and its
    rent to the liquidator. -/
theorem liquidateAccount_ok {env : Env X} {liquidator account : A} {market : Nat} {u : Unit}
    (h : liquidateAccount cfg env liquidator market account s = (.ok u, s')) :
    (shouldLiquidate env market account s = (.ok false, s) ∧ s' = s) ∨
      ∃ config vault collateral unitPrice orderId t,
      shouldLiquidate env market account s = (.ok true, s) ∧
      s.markets.lookup market = some config ∧ s.vault.vaults config.borrow = some vault ∧
      s.accountCollateral.get market account = some collateral ∧
      Liquidations.liquidate cfg.liquidations env.now (cfg.accountId market)
        (liquidationOrder config vault.assetId collateral unitPrice) config.liquidators s.auction =
          (.ok orderId, t) ∧
      s' = (s.withAuction t).withLedger
        ((s.withAuction t).rentPaid cfg market account liquidator) := by
  simp only [liquidateAccount, Call.bind_ok, Call.when_ok, getMarket_ok, assetId_ok,
    collateralOfAccount, Call.get_bind, Call.ofOption_ok, answer_ok, onLiquidations,
    Call.zoom_ok] at h
  obtain ⟨critical, _, hcritical, hrest⟩ := h
  obtain rfl := shouldLiquidate_reads.ok hcritical
  rcases hrest with ⟨rfl, config, _, ⟨hmarket, rfl⟩, _, _, ⟨vault, hvault, rfl, rfl⟩, collateral, _,
    ⟨hcollateral, rfl⟩, unitPrice, _, ⟨-, rfl⟩, orderId, _, ⟨t, hauction, rfl⟩,
      hrent⟩ | ⟨hhealthy, rfl⟩
  · right
    refine ⟨config, vault, collateral, unitPrice, orderId, t, hcritical, hmarket, hvault, hcollateral,
      hauction, ?_⟩
    unfold State.rentPaid
    cases hget : (State.withAuction _ t).borrowRent.get market account with
    | none =>
        simp only [hget] at hrent
        obtain ⟨-, rfl⟩ := Call.pure_ok.mp hrent
        rfl
    | some deposit =>
        simp only [hget, onLedger_ok, Currency.transfer_ok] at hrent
        obtain ⟨_, ⟨-, rfl⟩, rfl⟩ := hrent
        rfl
  · rw [Bool.not_eq_true] at hhealthy
    exact .inl ⟨hhealthy ▸ hcritical, rfl⟩

/-! ## Markets -/

/-- A market that was created by `manager`. -/
structure Created (cfg : Config A X F) (s : State A X F) (manager : A) (input : CreateInput X)
    (lpToken debtAsset : X) (factory factory' : F) (poolSize : Nat) : Prop where
  count_lt : s.lendingCount < cfg.maxLendingCount
  vaultCount_lt : s.vault.vaultCount < u64Max
  lpToken_eq : cfg.vault.currencyFactory.create s.vault.factory .lpTokens = .ok (lpToken, factory)
  debtAsset_eq : cfg.vault.currencyFactory.create factory .lpTokens = .ok (debtAsset, factory')
  pos : 0 < poolSize
  paid : cfg.vault.currency.transferRefused s.ledger input.borrowAsset manager
    (cfg.accountId (s.lendingCount + 1)) poolSize false = none

/-- The storage after a market was created. -/
def State.created (s : State A X F) (cfg : Config A X F) (manager : A) (input : CreateInput X)
    (lpToken debtAsset : X) (factory factory' : F) (poolSize : Nat) : State A X F :=
  let vault := s.vault.addVault lpToken factory .existential
    (vaultConfig cfg manager input (s.lendingCount + 1))
  let ledger := s.ledger.move input.borrowAsset manager (cfg.accountId (s.lendingCount + 1)) poolSize
  State.addMarket { s with vault := { vault with ledger := ledger } }
    ⟨manager, s.vault.vaultCount + 1, input.collateralAsset, input.updatable.collateralFactor,
      input.updatable.interestRateModel, input.updatable.underCollaterizedWarnPercent,
      input.updatable.liquidators⟩ debtAsset factory'

theorem vaultCreate_ok {t t' : Vault.State A X F} {deposit : Vault.Deposit}
    {config : Vault.VaultConfig A X} {id : Nat}
    (h : Vault.create cfg.vault deposit config t = (.ok id, t')) :
    t.vaultCount < u64Max ∧ id = t.vaultCount + 1 ∧ ∃ lpToken factory,
      cfg.vault.currencyFactory.create t.factory .lpTokens = .ok (lpToken, factory) ∧
      t' = t.addVault lpToken factory deposit config := by
  simp only [Vault.create, Vault.doCreateVault, Call.bind_ok, Call.ensure_ok, Call.get_bind,
    Call.ofOption_ok] at h
  obtain ⟨_, _, ⟨-, rfl⟩, _, _, ⟨hcount, rfl⟩, _, _, ⟨-, rfl⟩, _, t, ⟨-, rfl⟩, h⟩ := h
  cases hfactory : cfg.vault.currencyFactory.create t.factory .lpTokens with
  | error e => simp [hfactory] at h
  | ok r =>
      obtain ⟨lpToken, factory⟩ := r
      simp only [hfactory, Call.bind_ok, Call.modify_ok, Call.pure_ok] at h
      obtain ⟨_, _, rfl, rfl, rfl⟩ := h
      exact ⟨hcount, rfl, lpToken, factory, rfl, rfl⟩

theorem create_ok {env : Env X} {manager : A} {input : CreateInput X} {r : Nat × Nat}
    (h : create cfg env manager input s = (.ok r, s')) :
    ∃ lpToken debtAsset factory factory' poolSize,
      Created cfg s manager input lpToken debtAsset factory factory' poolSize ∧
      s' = s.created cfg manager input lpToken debtAsset factory factory' poolSize := by
  simp only [create, Call.bind_ok, Call.ensure_ok, answer_ok, Call.get_bind, onVault_ok, onLedger_ok,
    Currency.transfer_ok, Call.modify_ok, Call.pure_ok, and_assoc, exists_and_left, exists_eq_left,
    exists_const] at h
  obtain ⟨-, _, -, _, -, -, -, -, hcount, vaultId, _, ⟨t, hvault, rfl⟩, poolSize, -, hpos, hpaid,
    ⟨debtAsset, factory'⟩, hdebt, -, rfl⟩ := h
  obtain ⟨hvaults, rfl, lpToken, factory, hlp, rfl⟩ := vaultCreate_ok hvault
  exact ⟨lpToken, debtAsset, factory, factory', poolSize,
    ⟨hcount, hvaults, hlp, hdebt, hpos, hpaid⟩, rfl⟩

/-! ## Blocks -/

/-- The storage after interest was accrued on a market. -/
def State.accrued (s : State A X F) (cfg : Config A X F) (market index amount : Nat) : State A X F :=
  State.withLedger { s with borrowIndex := Function.update s.borrowIndex market (some index) }
    (s.ledger.mint (s.debtAsset cfg market) (cfg.accountId market) amount)

omit [DecidableEq A] [DecidableEq X] in
theorem totalBorrows_reads {market : Nat} : (totalBorrows cfg market).Reads :=
  Call.Reads.get.bind fun _ => (Call.Reads.ensure _ _).bind fun _ => Call.Reads.pure _

omit [DecidableEq A] [DecidableEq X] in
theorem totalCash_reads {market : Nat} : (totalCash cfg market).Reads :=
  getMarket_reads.bind fun _ => assetId_reads.bind fun _ => Call.Reads.get.bind fun _ =>
    Call.Reads.pure _

/-- Interest is accrued at the rate that the model answers. -/
theorem accrueInterestInternal_ok {M : Type}
    {getBorrowRate : Nat → Call M (DispatchError Empty) (Option Nat)}
    {utilization index deltaTime borrows : Nat} {r : Nat × Nat} {m m' : M} :
    accrueInterestInternal getBorrowRate utilization index deltaTime borrows m = (.ok r, m') ↔
      ∃ rate, getBorrowRate utilization m = (.ok (some rate), m') ∧
        incrementIndex rate index deltaTime = .ok r.2 ∧
          accruedIncrement rate deltaTime borrows = .ok r.1 := by
  simp only [accrueInterestInternal, Call.bind_ok, Call.zoom_ok, Call.ofOption_ok, Call.ofExcept_ok,
    Call.pure_ok, exceptMapError_ok]
  constructor
  · rintro ⟨_, _, ⟨_, hrate, rfl⟩, rate, _, ⟨rfl, rfl⟩, index', _, ⟨hindex, rfl⟩, interest, _, ⟨hinterest, rfl⟩,
      rfl, rfl⟩
    exact ⟨rate, hrate, hindex, hinterest⟩
  · rintro ⟨rate, hrate, hindex, hinterest⟩
    exact ⟨_, m', ⟨m', hrate, rfl⟩, rate, m', ⟨rfl, rfl⟩, r.2, m', ⟨hindex, rfl⟩, r.1, m',
      ⟨hinterest, rfl⟩, rfl, rfl⟩

/-- What a model that is dropped afterwards has answered. -/
theorem accrueInterestInternal_get {M : Type}
    {getBorrowRate : Nat → Call M (DispatchError Empty) (Option Nat)}
    {utilization index deltaTime borrows : Nat} {r : Nat × Nat} {m : M} :
    (accrueInterestInternal getBorrowRate utilization index deltaTime borrows m).1 = .ok r ↔
      ∃ rate, (getBorrowRate utilization m).1 = .ok (some rate) ∧
        incrementIndex rate index deltaTime = .ok r.2 ∧
          accruedIncrement rate deltaTime borrows = .ok r.1 := by
  constructor
  · intro h
    obtain ⟨rate, hrate, hinterest⟩ := accrueInterestInternal_ok.mp (Prod.ext h rfl)
    exact ⟨rate, congrArg Prod.fst hrate, hinterest⟩
  · rintro ⟨rate, hrate, hinterest⟩
    exact congrArg Prod.fst (accrueInterestInternal_ok.mpr ⟨rate, Prod.ext hrate rfl, hinterest⟩)

/-- Accruing interest raises the index of the market. -/
theorem accrueInterest_ok {market now : Nat} {u : Unit}
    (h : accrueInterest cfg market now s = (.ok u, s')) :
    ∃ index index' amount, s.borrowIndex market = some index ∧ index ≤ index' ∧
      s' = s.accrued cfg market index' amount := by
  simp only [accrueInterest, Call.bind_ok, arithmetic_ok, getMarket_ok, Call.get_bind, Call.ensure_ok,
    getBorrowIndex_ok, Call.ofExcept_ok, accrueInterestInternal_get, Call.modify_ok, onLedger_ok,
    Currency.mintInto_ok, and_assoc, exists_and_left, exists_eq_left, exists_const] at h
  obtain ⟨_, _, hborrows, h⟩ := h
  obtain rfl := totalBorrows_reads.ok hborrows
  obtain ⟨_, _, hcash, h⟩ := h
  obtain rfl := totalCash_reads.ok hcash
  obtain ⟨_, -, _, -, -, index, hindex, ⟨amount, index'⟩, ⟨_, -, hincrement, -⟩, -, rfl⟩ := h
  exact ⟨index, index', amount, hindex, le_incrementIndex hincrement, rfl⟩

/-- The vault after funds moved between it and a strategy. -/
structure FundsMoved (cfg : Config A X F) (t : Vault.State A X F) (id : Nat) (strategy : A)
    (t' : Vault.State A X F) : Prop where
  vaults : t'.vaults = t.vaults
  vaultCount : t'.vaultCount = t.vaultCount
  factory : t'.factory = t.factory
  ledger : ∃ vault amount, t.vaults id = some vault ∧
    (t'.ledger = t.ledger.move vault.assetId (cfg.vault.accountId id) strategy amount ∨
      t'.ledger = t.ledger.move vault.assetId strategy (cfg.vault.accountId id) amount)

/-- Moving funds reserves nothing. -/
theorem FundsMoved.reserved {t t' : Vault.State A X F} {id : Nat} {strategy : A}
    (h : FundsMoved cfg t id strategy t') : t'.ledger.reserved = t.ledger.reserved := by
  obtain ⟨_, _, -, hout | hin⟩ := h.ledger
  · rw [hout, Ledger.reserved_move]
  · rw [hin, Ledger.reserved_move]

/-- Nor does it issue anything. -/
theorem FundsMoved.issuance {t t' : Vault.State A X F} {id : Nat} {strategy : A}
    (h : FundsMoved cfg t id strategy t') : t'.ledger.issuance = t.ledger.issuance := by
  obtain ⟨_, _, -, hout | hin⟩ := h.ledger
  · rw [hout, Ledger.issuance_move]
  · rw [hin, Ledger.issuance_move]

/-- The vault pays a strategy, and writes its record. -/
theorem strategyWithdraw_ok {t t' : Vault.State A X F} {id amount : Nat} {strategy : A} {u : Unit}
    (h : Vault.strategyWithdraw cfg.vault id strategy amount t = (.ok u, t')) :
    ∃ vault overview, t.vaults id = some vault ∧
      t' =
        { t with
          ledger :=
        t.ledger.move vault.assetId (cfg.vault.accountId id) strategy amount }.putStrategy id
        strategy overview := by
  simp only [Vault.strategyWithdraw, Call.bind_ok, Vault.vaultInfo_ok, Call.get_bind, Call.ensure_ok,
    Vault.onLedger_ok, Currency.transfer_ok, Call.modify_ok, and_assoc, exists_and_left,
    exists_eq_left, exists_const] at h
  obtain ⟨vault, hvault, -, -, -, rfl⟩ := h
  exact ⟨vault, _, hvault, rfl⟩

/-- A strategy pays the vault. -/
theorem strategyDeposit_ok {t t' : Vault.State A X F} {id amount : Nat} {strategy : A} {u : Unit}
    (h : Vault.strategyDeposit cfg.vault id strategy amount t = (.ok u, t')) :
    ∃ vault overview, t.vaults id = some vault ∧
      t' =
        { t with
          ledger :=
        t.ledger.move vault.assetId strategy (cfg.vault.accountId id) amount }.putStrategy id
        strategy overview := by
  simp only [Vault.strategyDeposit, Call.bind_ok, Vault.vaultInfo_ok, Call.get_bind, Call.ensure_ok,
    Vault.onLedger_ok, Currency.transfer_ok, Call.modify_ok, and_assoc, exists_and_left,
    exists_eq_left, exists_const] at h
  obtain ⟨vault, hvault, -, -, rfl⟩ := h
  exact ⟨vault, _, hvault, rfl⟩

/-- The second half of the body of the loop of `initialize_block`. -/
def balanceFunds (cfg : Config A X F) (config : MarketConfig A X) (market : Nat) :
    LendingCall A X F Unit := do
  let funds ← onVault (Vault.availableFunds cfg.vault config.borrow (cfg.accountId market))
  match funds with
  | .withdrawable balance =>
      onVault (Vault.strategyWithdraw cfg.vault config.borrow (cfg.accountId market) balance)
  | .depositable balance => handleDepositable cfg config market (some balance)
  | .mustLiquidate => handleDepositable cfg config market none

theorem initializeMarket_eq {now market : Nat} : initializeMarket cfg now market = (do
    let config ← getMarket market
    accrueInterest cfg market now
    balanceFunds cfg config market) := rfl

theorem handleDepositable_ok {config : MarketConfig A X} {market : Nat} {balance : Option Nat}
    {u : Unit} (h : handleDepositable cfg config market balance s = (.ok u, s')) :
    ∃ vault v, s.vault.vaults config.borrow = some vault ∧
      Vault.strategyDeposit cfg.vault config.borrow (cfg.accountId market)
        (balance.elim (cfg.vault.currency.reducible s.ledger vault.assetId
          (cfg.accountId market) false)
          (min (cfg.vault.currency.reducible s.ledger vault.assetId (cfg.accountId market) false)))
            s.vault =
            (.ok u, v) ∧
      s' = { s with vault := v } := by
  simp only [handleDepositable, Call.bind_ok, assetId_ok, Call.get_bind, onVault_ok] at h
  obtain ⟨_, _, ⟨vault, hvault, rfl, rfl⟩, v, hv, rfl⟩ := h
  exact ⟨vault, v, hvault, hv, rfl⟩

/-- A market takes what its vault offers; or it returns what the vault asks
    for, at most what it has. -/
theorem balanceFunds_cases {config : MarketConfig A X} {market : Nat} {u : Unit}
    (h : balanceFunds cfg config market s = (.ok u, s')) :
    ∃ funds v, Vault.availableFunds cfg.vault config.borrow (cfg.accountId market) s.vault =
      (.ok funds, s.vault) ∧
      s' = { s with vault := v } ∧
      ((∃ balance, funds = .withdrawable balance ∧
          Vault.strategyWithdraw cfg.vault config.borrow (cfg.accountId market) balance s.vault =
            (.ok u, v)) ∨
        ∃ (vault : Vault.VaultInfo A X) (balance : Option Nat),
          s.vault.vaults config.borrow = some vault ∧
          funds = balance.elim Vault.FundsAvailability.mustLiquidate
            Vault.FundsAvailability.depositable ∧
          Vault.strategyDeposit cfg.vault config.borrow (cfg.accountId market)
            (balance.elim (cfg.vault.currency.reducible s.ledger vault.assetId
              (cfg.accountId market) false)
              (min (cfg.vault.currency.reducible s.ledger vault.assetId (cfg.accountId market)
                false))) s.vault =
                (.ok u, v)) := by
  simp only [balanceFunds, Call.bind_ok, onVault_ok] at h
  obtain ⟨funds, _, ⟨_, hfunds, rfl⟩, h⟩ := h
  obtain rfl := availableFunds_reads.ok hfunds
  cases funds with
  | withdrawable balance =>
      obtain ⟨v, hv, rfl⟩ := onVault_ok.mp h
      exact ⟨_, v, hfunds, rfl, .inl ⟨balance, rfl, hv⟩⟩
  | depositable balance =>
      obtain ⟨vault, v, hvault, hv, rfl⟩ := handleDepositable_ok h
      exact ⟨_, v, hfunds, rfl, .inr ⟨vault, some balance, hvault, rfl, hv⟩⟩
  | mustLiquidate =>
      obtain ⟨vault, v, hvault, hv, rfl⟩ := handleDepositable_ok h
      exact ⟨_, v, hfunds, rfl, .inr ⟨vault, none, hvault, rfl, hv⟩⟩

theorem balanceFunds_ok {config : MarketConfig A X} {market : Nat} {u : Unit}
    (h : balanceFunds cfg config market s = (.ok u, s')) :
    ∃ v, FundsMoved cfg s.vault config.borrow (cfg.accountId market) v ∧
      s' = { s with vault := v } := by
  obtain ⟨_, v, -, rfl, ⟨_, -, hv⟩ | ⟨_, _, -, -, hv⟩⟩ := balanceFunds_cases h
  · obtain ⟨vault, _, hvault, rfl⟩ := strategyWithdraw_ok hv
    refine ⟨_, ?_, rfl⟩
    exact ⟨rfl, rfl, rfl, vault, _, hvault, .inl rfl⟩
  · obtain ⟨vault, _, hvault, rfl⟩ := strategyDeposit_ok hv
    refine ⟨_, ?_, rfl⟩
    exact ⟨rfl, rfl, rfl, vault, _, hvault, .inr rfl⟩

/-- A market at the start of a block accrues interest and moves funds to or from its vault. -/
theorem initializeMarket_ok {now market : Nat} {u : Unit}
    (h : initializeMarket cfg now market s = (.ok u, s')) :
    ∃ config index index' amount v, s.markets.lookup market = some config ∧
      s.borrowIndex market = some index ∧ index ≤ index' ∧
      FundsMoved cfg (s.accrued cfg market index' amount).vault config.borrow
        (cfg.accountId market) v ∧
      s' = { s.accrued cfg market index' amount with vault := v } := by
  simp only [initializeMarket_eq, Call.bind_ok, getMarket_ok] at h
  obtain ⟨config, _, ⟨hmarket, rfl⟩, _, _, haccrue, hbalance⟩ := h
  obtain ⟨index, index', amount, hindex, hle, rfl⟩ := accrueInterest_ok haccrue
  obtain ⟨v, hfunds, rfl⟩ := balanceFunds_ok hbalance
  exact ⟨config, index, index', amount, v, hmarket, hindex, hle, hfunds, rfl⟩

/-- What the start of each market's block keeps, the start of the block keeps. -/
theorem initializeMarkets_invariant {I : State A X F → Prop} {now : Nat} {markets : List Nat}
    (hstep : ∀ {s s' market u}, I s → initializeMarket cfg now market s = (.ok u, s') → I s')
    (hs : I s) (h : initializeMarkets cfg now markets s = (.ok [], s')) : I s' := by
  induction markets generalizing s with
  | nil =>
      obtain ⟨-, rfl⟩ := Call.pure_ok.mp h
      exact hs
  | cons market rest ih =>
      simp only [initializeMarkets, Call.bind_ok, Call.pure_ok] at h
      obtain ⟨error, t, hfirst, errors, _, hrest, hnil, rfl⟩ := h
      obtain ⟨herror, rfl⟩ := List.append_eq_nil_iff.mp hnil.symm
      obtain ⟨_, hmarket⟩ := Call.attempt_ok (Option.toList_eq_nil_iff.mp herror ▸ hfirst)
      exact ih (hstep hs hmarket) hrest

theorem initializeBlock_invariant {I : State A X F → Prop} {now : Nat} {u : Unit}
    (hstep : ∀ {s s' market u}, I s → initializeMarket cfg now market s = (.ok u, s') → I s')
    (hstamp : ∀ {s}, I s → I { s with lastBlockTimestamp := now })
    (hs : I s) (h : initializeBlock cfg now s = (.ok u, s')) : I s' := by
  unfold initializeBlock at h
  split at h
  next hloop =>
    cases h
    exact hstamp (initializeMarkets_invariant hstep hs hloop)
  next =>
    cases h
    exact hs
  next => cases h

/-! ## Effects -/

/-- What an operation does to the storage: nothing, or what its inner function does when it
    returns. -/
inductive Effect (cfg : Config A X F) (s : State A X F) : Op A X → State A X F → Prop where
  | idle {op} : Effect cfg s op s
  | created {env who input r s'} (h : create cfg env who input.1 s = (.ok r, s')) :
      Effect cfg s (.createMarket env (.signed who) input) s'
  | updated {who market input config} (hmarket : s.markets.lookup market = some config) :
      Effect cfg s (.updateMarket (.signed who) market input)
        { s with markets := s.markets.insert market (config.update input) }
  | deposited {who market amount u s'} (h : depositCollateralInternal cfg market who amount s =
      (.ok u, s')) :
      Effect cfg s (.depositCollateral (.signed who) market amount) s'
  | withdrawn {env who market amount u s'}
      (h : withdrawCollateralInternal cfg env market who amount s = (.ok u, s')) :
      Effect cfg s (.withdrawCollateral env (.signed who) market amount) s'
  | borrowed {env who market amount u s'} (h : borrowInternal cfg env market who amount s =
      (.ok u, s')) :
      Effect cfg s (.borrow env (.signed who) market amount) s'
  | repaid {who market beneficiary amount u s'}
      (h : repayBorrowInternal cfg market who beneficiary (some amount) s = (.ok u, s')) :
      Effect cfg s (.repayBorrow (.signed who) market beneficiary amount) s'
  | liquidated {env who market borrowers u s'}
      (h : Call.forEach borrowers (liquidateAccount cfg env who market) s = (.ok u, s')) :
      Effect cfg s (.liquidate env (.signed who) market borrowers) s'
  | initialized {now u s'} (h : initializeBlock cfg now s = (.ok u, s')) :
      Effect cfg s (.initializeBlock now) s'

omit [DecidableEq A] [DecidableEq X] in
/-- A signed extrinsic is rolled back, or its body returned. -/
theorem signed_cases {α : Type} {origin : RawOrigin A} {body : A → LendingCall A X F α}
    (h : s' = dispatch (Call.transactional (do let who ← ensureSigned origin; body who)) s) :
    s' = s ∨ ∃ who v, origin = .signed who ∧ body who s = (.ok v, s') := by
  rcases dispatch_transactional (do let who ← ensureSigned origin; body who) s with hidle | ⟨v, hok⟩
  · exact .inl (h.trans hidle)
  · right
    simp only [Call.bind_ok, ensureSigned_ok] at hok
    obtain ⟨who, _, ⟨rfl, rfl⟩, hbody⟩ := hok
    exact ⟨who, v, rfl, h ▸ hbody⟩

/-- **Every step is one of the effects.** -/
theorem step_effect {op : Op A X} (h : step cfg s op = some s') : Effect cfg s op s' := by
  cases op with
  | createMarket env origin input =>
      rcases signed_cases (Option.some.inj h).symm with rfl | ⟨who, _, rfl, hbody⟩
      · exact .idle
      · simp only [Call.bind_ok, Call.pure_ok] at hbody
        obtain ⟨r, _, hcreate, -, rfl⟩ := hbody
        exact .created hcreate
  | updateMarket origin market input =>
      rcases signed_cases (Option.some.inj h).symm with rfl | ⟨who, _, rfl, hbody⟩
      · exact .idle
      · simp only [Call.bind_ok, getMarket_ok, Call.ensure_ok, Call.modify_ok] at hbody
        obtain ⟨config, _, ⟨hmarket, rfl⟩, _, _, ⟨-, rfl⟩, rfl⟩ := hbody
        exact .updated hmarket
  | depositCollateral origin market amount =>
      rcases signed_cases (Option.some.inj h).symm with rfl | ⟨who, _, rfl, hbody⟩
      · exact .idle
      · exact .deposited hbody
  | withdrawCollateral env origin market amount =>
      rcases signed_cases (Option.some.inj h).symm with rfl | ⟨who, _, rfl, hbody⟩
      · exact .idle
      · exact .withdrawn hbody
  | borrow env origin market amount =>
      rcases signed_cases (Option.some.inj h).symm with rfl | ⟨who, _, rfl, hbody⟩
      · exact .idle
      · exact .borrowed hbody
  | repayBorrow origin market beneficiary amount =>
      rcases signed_cases (Option.some.inj h).symm with rfl | ⟨who, _, rfl, hbody⟩
      · exact .idle
      · exact .repaid hbody
  | liquidate env origin market borrowers =>
      rcases signed_cases (Option.some.inj h).symm with rfl | ⟨who, _, rfl, hbody⟩
      · exact .idle
      · exact .liquidated hbody
  | initializeBlock now =>
      obtain ⟨_, hok⟩ := Call.success_eq_some.mp h
      exact .initialized hok

end Lending
end Composable
