import Composable.Lending.Effect

/-!
# `Lending.Panics` — the transfers of collateral that must not fail

`deposit_collateral` and `withdraw_collateral` ask the ledger with `can_withdraw` and `can_deposit`
before they write anything, and take the result of the transfer after that for granted. The transfer
keeps its sender alive, which neither question covers. So over a ledger with existential deposits
both calls panic exactly when all their checks passed and the transfer would leave the sender less
than that (`collateral_transfers_fail_iff`): a user who deposits the last of an asset, and a market
that pays out the last of its collateral.
-/

namespace Composable
namespace Lending

open Currency (KeepsAlive)

variable {A X F : Type} [DecidableEq A] [DecidableEq X]
variable {cfg : Config A X F} {s : State A X F} {market amount : Nat} {account : A} {env : Env X}
variable {config : MarketConfig A X} {ed : X → Nat}

/-- What `deposit_collateral` has checked before the transfer. -/
structure DepositChecked (cfg : Config A X F) (market : Nat) (account : A) (amount : Nat)
    (s : State A X F) (config : MarketConfig A X) : Prop where
  stored : s.markets.lookup market = some config
  canWithdraw : cfg.vault.currency.canWithdraw config.collateral account amount s.ledger = true
  canDeposit :
      cfg.vault.currency.canDeposit config.collateral (cfg.accountId market) amount s.ledger = true
  fits : (s.accountCollateral.get market account).getD 0 + amount ≤ u128Max

/-- What `withdraw_collateral` has checked before the transfer. -/
structure WithdrawChecked (cfg : Config A X F) (env : Env X) (market : Nat) (account : A)
    (amount : Nat) (s : State A X F) (config : MarketConfig A X) : Prop where
  stored : s.markets.lookup market = some config
  covered : amount ≤ (s.accountCollateral.get market account).getD 0
  /-- The collateral that is left is worth enough for the debt. -/
  healthy : ∃ borrowAsset owed borrowValue collateralValue,
    assetId config.borrow s = (.ok borrowAsset, s) ∧
      borrowBalanceCurrent market account s = (.ok owed, s) ∧
      getPrice env borrowAsset (owed.getD 0) s = (.ok borrowValue, s) ∧
      getPrice env config.collateral ((s.accountCollateral.get market account).getD 0 - amount) s =
        (.ok collateralValue, s) ∧
      (BorrowerData.ofValues collateralValue borrowValue config.collateralFactor
        config.underCollaterizedWarnPercent).shouldLiquidate = .ok false
  canDeposit : cfg.vault.currency.canDeposit config.collateral account amount s.ledger = true
  canWithdraw :
      cfg.vault.currency.canWithdraw config.collateral (cfg.accountId market) amount s.ledger = true

/-! ## Where the transfer is all that is left -/

omit [DecidableEq A] [DecidableEq X] in
/-- A check that passes. -/
theorem ensured {c : Prop} [Decidable c] {e : DispatchError PalletError} (h : c) :
    (Call.ensure c e : LendingCall A X F Unit) s = (.ok (), s) := Call.ensure_ok.mpr ⟨h, rfl⟩

/-- A transfer that must not fail is a panic if it is refused. -/
theorem expected_transfer {x : X} {a b : A} {l : Ledger A X} {t : State A X F} (hl : t.ledger = l) :
    (onLedger (fun _ => .panic) (cfg.vault.currency.transfer x a b amount true) t).1 =
      if cfg.vault.currency.transferRefused l x a b amount true = none then
        .ok () else .error .panic := by
  subst hl
  unfold onLedger Call.zoom Currency.transfer Currency.commit
  cases hrefused : cfg.vault.currency.transferRefused t.ledger x a b amount true with
  | none => simp only [hrefused, if_true]
  | some e => simp only [hrefused, reduceCtorEq, if_false]

theorem DepositChecked.result (h : DepositChecked cfg market account amount s config) :
    (depositCollateralInternal cfg market account amount s).1 =
      if cfg.vault.currency.transferRefused s.ledger config.collateral account
        (cfg.accountId market) amount
        true = none then .ok () else .error .panic := by
  unfold depositCollateralInternal
  rw [Call.bind_of_ok (getMarket_ok.mpr ⟨h.stored, rfl⟩), Call.get_bind,
    Call.bind_of_ok (ensured h.canWithdraw),
    Call.bind_of_ok (ensured h.canDeposit), Call.bind_of_ok (ensured h.fits)]
  exact expected_transfer rfl

theorem WithdrawChecked.result (h : WithdrawChecked cfg env market account amount s config) :
    (withdrawCollateralInternal cfg env market account amount s).1 =
      if cfg.vault.currency.transferRefused s.ledger config.collateral (cfg.accountId market)
        account amount
        true = none then .ok () else .error .panic := by
  obtain ⟨borrowAsset, owed, borrowValue, collateralValue, hasset, howed, hborrow, hvalue,
    hhealthy⟩ := h.healthy
  unfold withdrawCollateralInternal
  rw [Call.bind_of_ok (getMarket_ok.mpr ⟨h.stored, rfl⟩), Call.get_bind,
    Call.bind_of_ok (ensured h.covered), Call.bind_of_ok hasset, Call.bind_of_ok howed,
    Call.bind_of_ok hborrow,
      Call.bind_of_ok (arithmetic_ok.mpr ⟨Fixed.checkedSub_ok.mpr ⟨h.covered, rfl⟩, rfl⟩),
    Call.bind_of_ok hvalue, Call.bind_of_ok (arithmetic_ok.mpr ⟨hhealthy, rfl⟩),
    Call.bind_of_ok (ensured rfl), Call.bind_of_ok (ensured h.canDeposit),
    Call.bind_of_ok (ensured h.canWithdraw)]
  exact expected_transfer rfl

/-! ## A panic comes from the transfer -/

section Queries

variable {m n : Nat} {a : A} {x : X}

omit [DecidableEq A] [DecidableEq X] in
/-- A query that does not panic has answered before a panic. -/
theorem answered_of_panic {α β : Type} {x : LendingCall A X F α} {f : α → LendingCall A X F β}
    (havoids : x.Avoids .panic s) (hreads : x.Reads) (h : ((x >>= f) s).1 = .error .panic) :
    ∃ v, x s = (.ok v, s) ∧ (f v s).1 = .error .panic := havoids.bind_error hreads h

omit [DecidableEq A] [DecidableEq X] in
theorem checked_of_panic {α : Type} {c : Prop} [Decidable c] {e : Error}
    {f : Unit → LendingCall A X F α}
    (h : ((Call.ensure c (err e) >>= f) s).1 = .error .panic) : c ∧ (f () s).1 = .error .panic := by
  have havoids : (Call.ensure c (err e) : LendingCall A X F Unit).Avoids .panic s := .ensure nofun
  obtain ⟨_, hensured, h⟩ := havoids.bind_error (.ensure c (err e)) h
  exact ⟨(Call.ensure_ok.mp hensured).1, h⟩

omit [DecidableEq A] [DecidableEq X] in
theorem arithmetic_reads {α : Type} {r : Except ArithmeticError α} :
    (arithmetic r : LendingCall A X F α).Reads := Call.Reads.ofExcept _

omit [DecidableEq A] [DecidableEq X] in
theorem arithmetic_avoids_panic {α : Type} {r : Except ArithmeticError α} :
    (arithmetic r : LendingCall A X F α).Avoids .panic s := by
  cases r <;> exact nofun

omit [DecidableEq A] [DecidableEq X] in
theorem getMarket_avoids_panic : (getMarket m : LendingCall A X F _).Avoids .panic s :=
  Call.Avoids.get_bind (.ofOption nofun)

omit [DecidableEq A] [DecidableEq X] in
theorem getBorrowIndex_avoids_panic : (getBorrowIndex m : LendingCall A X F _).Avoids .panic s :=
  Call.Avoids.get_bind (.ofOption nofun)

omit [DecidableEq A] [DecidableEq X] in
theorem getPrice_avoids_panic : (getPrice env x n : LendingCall A X F Nat).Avoids .panic s := by
  unfold getPrice
  cases env.oracle.getPrice x n <;> exact nofun

omit [DecidableEq A] [DecidableEq X] in
theorem assetId_avoids_panic : (assetId m : LendingCall A X F X).Avoids .panic s := by
  refine .bind (.zoom fun e he => ?_) fun _ _ _ => .pure _
  unfold Vault.vaultInfo at he
  cases hvault : s.vault.vaults m with
  | none =>
      rw [Call.get_bind, hvault] at he
      obtain rfl := Except.error.inj he
      exact nofun
  | some vault =>
      rw [Call.get_bind, hvault] at he
      cases he

omit [DecidableEq X] in
theorem borrowBalanceCurrent_avoids_panic :
    (borrowBalanceCurrent m a : LendingCall A X F _).Avoids .panic s := by
  refine Call.Avoids.get_bind (.bind (.ofOption nofun) fun d t _ => ?_)
  cases s.debtIndex.get m a with
  | none => exact .pure _
  | some i => exact getBorrowIndex_avoids_panic.bind fun _ _ _ => arithmetic_avoids_panic

end Queries

/-- A deposit of collateral that panics has passed its checks. -/
theorem DepositChecked.of_panic
    (h : (depositCollateralInternal cfg market account amount s).1 = .error .panic) :
    ∃ config, DepositChecked cfg market account amount s config := by
  obtain ⟨config, hmarket, h⟩ := answered_of_panic getMarket_avoids_panic getMarket_reads h
  rw [Call.get_bind] at h
  obtain ⟨hwithdraw, h⟩ := checked_of_panic h
  obtain ⟨hdeposit, h⟩ := checked_of_panic h
  obtain ⟨hfits, -⟩ := checked_of_panic h
  exact ⟨config, (getMarket_ok.mp hmarket).1, hwithdraw, hdeposit, hfits⟩

omit [DecidableEq A] [DecidableEq X] in
/-- The collateral that is left after a withdrawal is checked before its transfer. -/
theorem healthy_of_panic {x : X} {n borrowValue factor percent : Nat} {g : LendingCall A X F Unit}
    (h : ((do
      let collateralValue ← getPrice env x n
      let critical ← arithmetic
        (BorrowerData.ofValues collateralValue borrowValue factor percent).shouldLiquidate
      Call.ensure (critical = false) (err .notEnoughCollateral)
      g : LendingCall A X F Unit) s).1 = .error .panic) :
    ∃ collateralValue, getPrice env x n s = (.ok collateralValue, s) ∧
      (BorrowerData.ofValues collateralValue borrowValue factor percent).shouldLiquidate = .ok false ∧
        (g s).1 = .error .panic := by
  obtain ⟨collateralValue, hvalue, h⟩ := answered_of_panic getPrice_avoids_panic getPrice_reads h
  obtain ⟨critical, hcritical, h⟩ := answered_of_panic arithmetic_avoids_panic arithmetic_reads h
  obtain ⟨hsafe, h⟩ := checked_of_panic h
  rw [hsafe] at hcritical
  exact ⟨collateralValue, hvalue, (arithmetic_ok.mp hcritical).1, h⟩

/-- A withdrawal of collateral that panics has passed its checks. -/
theorem WithdrawChecked.of_panic
    (h : (withdrawCollateralInternal cfg env market account amount s).1 = .error .panic) :
    ∃ config, WithdrawChecked cfg env market account amount s config := by
  obtain ⟨config, hmarket, h⟩ := answered_of_panic getMarket_avoids_panic getMarket_reads h
  rw [Call.get_bind] at h
  obtain ⟨hcovered, h⟩ := checked_of_panic h
  obtain ⟨borrowAsset, hasset, h⟩ := answered_of_panic assetId_avoids_panic assetId_reads h
  obtain ⟨owed, howed, h⟩ :=
    answered_of_panic borrowBalanceCurrent_avoids_panic borrowBalanceCurrent_reads h
  obtain ⟨borrowValue, hborrow, h⟩ := answered_of_panic getPrice_avoids_panic getPrice_reads h
  obtain ⟨rest, hrest, h⟩ := answered_of_panic arithmetic_avoids_panic arithmetic_reads h
  obtain ⟨collateralValue, hvalue, hhealthy, h⟩ := healthy_of_panic h
  obtain ⟨hdeposit, h⟩ := checked_of_panic h
  obtain ⟨hwithdraw, -⟩ := checked_of_panic h
  rw [(Fixed.checkedSub_ok.mp (arithmetic_ok.mp hrest).1).2] at hvalue
  exact ⟨config, (getMarket_ok.mp hmarket).1, hcovered,
    ⟨borrowAsset, owed, borrowValue, collateralValue, hasset,
    howed, hborrow, hvalue, hhealthy⟩, hdeposit, hwithdraw⟩

/-! ## When the transfer fails -/

omit [DecidableEq X] in
/-- A transfer that was checked is refused exactly when its sender would die. -/
theorem refused_iff {x : X} {a b : A} {l : Ledger A X}
    (hed : cfg.vault.currency = Currency.existential ed)
    (hwithdraw : cfg.vault.currency.canWithdraw x a amount l = true)
    (hdeposit : cfg.vault.currency.canDeposit x b amount l = true) :
    (if cfg.vault.currency.transferRefused l x a b amount true = none then Except.ok ()
      else .error .panic) =
        (.error .panic : Except (DispatchError PalletError) Unit) ↔
          ¬ KeepsAlive ed l x a b amount := by
  rw [hed] at hwithdraw hdeposit ⊢
  rw [← Currency.transfer_of_checked hwithdraw hdeposit]
  split_ifs with hrefused
  · exact iff_of_false nofun (not_not.mpr hrefused)
  · exact iff_of_true rfl hrefused

theorem DepositChecked.panics_iff (hed : cfg.vault.currency = Currency.existential ed)
    (h : DepositChecked cfg market account amount s config) :
    (depositCollateralInternal cfg market account amount s).1 = .error .panic ↔
      ¬ KeepsAlive ed s.ledger config.collateral account (cfg.accountId market) amount := by
  rw [h.result]
  exact refused_iff hed h.canWithdraw h.canDeposit

theorem WithdrawChecked.panics_iff (hed : cfg.vault.currency = Currency.existential ed)
    (h : WithdrawChecked cfg env market account amount s config) :
    (withdrawCollateralInternal cfg env market account amount s).1 = .error .panic ↔
      ¬ KeepsAlive ed s.ledger config.collateral (cfg.accountId market) account amount := by
  rw [h.result]
  exact refused_iff hed h.canWithdraw h.canDeposit

/-- **When the transfers of collateral fail.** Over a ledger with existential deposits, a deposit
    and a withdrawal of collateral never panic in a state exactly if, should all the checks pass
    there, the transfer moves nothing or leaves its sender the existential deposit. -/
theorem collateral_transfers_fail_iff (hed : cfg.vault.currency = Currency.existential ed)
    (s : State A X F) (env : Env X) (market : Nat) (account : A) (amount : Nat) :
    ((depositCollateralInternal cfg market account amount).Avoids .panic s ↔
      ∀ config, DepositChecked cfg market account amount s config →
        KeepsAlive ed s.ledger config.collateral account (cfg.accountId market) amount) ∧
    ((withdrawCollateralInternal cfg env market account amount).Avoids .panic s ↔
      ∀ config, WithdrawChecked cfg env market account amount s config →
        KeepsAlive ed s.ledger config.collateral (cfg.accountId market) account amount) := by
  -- A panic gets past all checks before the transfer, and then fails exactly where the account
  -- would die.
  refine ⟨⟨fun h config hchecked => ?_, fun h hpanic => ?_⟩, fun h config hchecked => ?_,
    fun h hpanic => ?_⟩
  · exact not_not.mp fun hdies => h ((hchecked.panics_iff hed).mpr hdies)
  · obtain ⟨config, hchecked⟩ := DepositChecked.of_panic hpanic
    exact (hchecked.panics_iff hed).mp hpanic (h config hchecked)
  · exact not_not.mp fun hdies => h ((hchecked.panics_iff hed).mpr hdies)
  · obtain ⟨config, hchecked⟩ := WithdrawChecked.of_panic hpanic
    exact (hchecked.panics_iff hed).mp hpanic (h config hchecked)

/-! ## The last of an asset -/

/-- Account `1` deposits some of its collateral. -/
def emptyingOps : List (Op Nat Nat) :=
  [.createMarket ⟨0, sampleOracle fun _ => 1⟩ (.signed 7) ⟨sampleInput, sampleInput_valid⟩,
    .depositCollateral (.signed 1) 1 900]

/-- It has a hundred left, and the market nothing but its nine hundred. -/
theorem emptying : ∃ s, run (step sample) (State.genesis sampleLedger 100 0) emptyingOps = some s ∧
    (depositCollateralInternal sample 1 1 99 s).1 = .ok () ∧
    (depositCollateralInternal sample 1 1 100 s).1 = .error .panic ∧
    (withdrawCollateralInternal sample ⟨1, sampleOracle fun _ => 1⟩ 1 1 899 s).1 = .ok () ∧
    (withdrawCollateralInternal sample ⟨1, sampleOracle fun _ => 1⟩ 1 1 900 s).1 = .error .panic := by
  have hview : (run (step sample) (State.genesis sampleLedger 100 0) emptyingOps).map (fun s =>
      ((depositCollateralInternal sample 1 1 99 s).1, (depositCollateralInternal sample 1 1 100 s).1,
        (withdrawCollateralInternal sample ⟨1, sampleOracle fun _ => 1⟩ 1 1 899 s).1,
        (withdrawCollateralInternal sample ⟨1, sampleOracle fun _ => 1⟩ 1 1 900 s).1)) =
      some (.ok (), .error .panic, .ok (), .error .panic) := by
    decide +kernel
  obtain ⟨s, hrun, hs⟩ := Option.map_eq_some_iff.mp hview
  simp only [Prod.mk.injEq] at hs
  exact ⟨s, hrun, hs⟩

theorem collateral_transfers_fail_sample : ∃ s,
    run (step sample) (State.genesis sampleLedger 100 0) emptyingOps = some s ∧
      (depositCollateralInternal sample 1 1 99 s).1 = .ok () ∧
      ∀ config, DepositChecked sample 1 1 99 s config →
        KeepsAlive (fun _ => 1) s.ledger config.collateral 1 (sample.accountId 1) 99 := by
  obtain ⟨s, hrun, hdeposit, -⟩ := emptying
  have havoids : (depositCollateralInternal sample 1 1 99).Avoids .panic s := by
    unfold Call.Avoids
    rw [hdeposit]
    exact nofun
  exact ⟨s, hrun, hdeposit,
    (collateral_transfers_fail_iff rfl s ⟨1, sampleOracle fun _ => 1⟩ 1 1 99).1.mp havoids⟩

/-- **The last of an asset panics**: all checks pass, and the transfer is refused. -/
theorem last_collateral_panics : ∃ s,
    run (step sample) (State.genesis sampleLedger 100 0) emptyingOps = some s ∧
      ((∃ config, DepositChecked sample 1 1 100 s config) ∧
        (depositCollateralInternal sample 1 1 100 s).1 = .error .panic) ∧
      (∃ config, WithdrawChecked sample ⟨1, sampleOracle fun _ => 1⟩ 1 1 900 s config) ∧
        (withdrawCollateralInternal sample ⟨1, sampleOracle fun _ => 1⟩ 1 1 900 s).1 =
          .error .panic := by
  obtain ⟨s, hrun, -, hdeposit, -, hwithdraw⟩ := emptying
  exact ⟨s, hrun, ⟨DepositChecked.of_panic hdeposit, hdeposit⟩,
    WithdrawChecked.of_panic hwithdraw, hwithdraw⟩

end Lending
end Composable
