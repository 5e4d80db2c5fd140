import Composable.Lending.Markets

/-!
# `Lending.Assets` — debt tokens do not change hands

`Live` assets are those in use that are not debt tokens; all transfers of the pallet are of live
assets, or of nothing (`Separated`). So the debts of the markets change only when somebody borrows
or repays, and when interest accrues; whatever else an operation does is `Quiet` about them.
`DebtEffect` lists what an operation does with that in mind, and `step_debts` says that every step
by a user from a state in order is on the list.
-/

namespace Composable
namespace Lending

variable {A X F : Type} [DecidableEq A] [DecidableEq X]
variable {cfg : Config A X F} {s s' : State A X F} {m : Nat}

/-! ## Assets that change hands -/

/-- The asset is in use, and is no debt token. -/
def Live (cfg : Config A X F) (s : State A X F) (x : X) : Prop :=
  cfg.vault.currencyFactory.inUse s.vault.factory x ∧ ∀ m, s.debtMarkets m ≠ some x

/-- Debt tokens are kept apart from the assets of the markets. Of an asset that is not live, only a
    market can have something free, and that only of its own debt token. -/
structure Separated (cfg : Config A X F) (s : State A X F) : Prop where
  native : Live cfg s cfg.vault.nativeAsset
  asset : ∀ {m config v}, s.markets.lookup m = some config → s.vault.vaults config.borrow = some v →
    Live cfg s v.assetId
  debt : ∀ {m d}, s.debtMarkets m = some d → cfg.vault.currencyFactory.inUse s.vault.factory d
  distinct : ∀ {m n d}, s.debtMarkets m = some d → s.debtMarkets n = some d → m = n
  idle : ∀ {x a}, ¬ Live cfg s x → (∀ m, s.debtMarkets m = some x → a ≠ cfg.accountId m) →
    s.ledger.free x a = 0
  unheld : ∀ {x a}, ¬ cfg.vault.currencyFactory.inUse s.vault.factory x → s.ledger.reserved x a = 0
  pledged : ∀ {m config a}, s.markets.lookup m = some config → ¬ Live cfg s config.collateral →
    (s.accountCollateral.get m a).getD 0 = 0

/-- `s'` differs from `s` only in live assets, the auction, collateral and rents. -/
structure Quiet (cfg : Config A X F) (s s' : State A X F) : Prop where
  vaults : s'.vault.vaults = s.vault.vaults
  factory : s'.vault.factory = s.vault.factory
  markets : s'.markets = s.markets
  debtMarkets : s'.debtMarkets = s.debtMarkets
  debtIndex : s'.debtIndex = s.debtIndex
  borrowTimestamp : s'.borrowTimestamp = s.borrowTimestamp
  borrowIndex : s'.borrowIndex = s.borrowIndex
  agree : Ledger.AgreeOn (fun x => ¬ Live cfg s x) s.ledger s'.ledger
  issuance : s'.ledger.issuance = s.ledger.issuance

omit [DecidableEq A] [DecidableEq X] in
theorem not_live_of_debt {d : X} (h : s.debtMarkets m = some d) : ¬ Live cfg s d :=
  fun hlive => hlive.2 m h

section Quiet

omit [DecidableEq A] [DecidableEq X] in
theorem live_iff (hfactory : s'.vault.factory = s.vault.factory)
    (hdebts : s'.debtMarkets = s.debtMarkets) {x : X} : Live cfg s' x ↔ Live cfg s x := by
  rw [Live, Live, hfactory, hdebts]

omit [DecidableEq A] [DecidableEq X] in
theorem Local.live_iff (h : Local m s s') {x : X} : Live cfg s' x ↔ Live cfg s x :=
  Lending.live_iff h.factory h.debtMarkets

omit [DecidableEq A] [DecidableEq X] in
theorem Quiet.live_iff (h : Quiet cfg s s') {x : X} : Live cfg s' x ↔ Live cfg s x :=
  Lending.live_iff h.factory h.debtMarkets

omit [DecidableEq A] [DecidableEq X] in
theorem Quiet.refl (s : State A X F) : Quiet cfg s s :=
  ⟨rfl, rfl, rfl, rfl, rfl, rfl, rfl, .refl _, rfl⟩

omit [DecidableEq A] [DecidableEq X] in
theorem Quiet.trans {t : State A X F} (h : Quiet cfg s t) (h' : Quiet cfg t s') : Quiet cfg s s' where
  vaults := h'.vaults.trans h.vaults
  factory := h'.factory.trans h.factory
  markets := h'.markets.trans h.markets
  debtMarkets := h'.debtMarkets.trans h.debtMarkets
  debtIndex := h'.debtIndex.trans h.debtIndex
  borrowTimestamp := h'.borrowTimestamp.trans h.borrowTimestamp
  borrowIndex := h'.borrowIndex.trans h.borrowIndex
  agree := h.agree.trans fun x hx => h'.agree x fun hlive => hx (h.live_iff.mp hlive)
  issuance := h'.issuance.trans h.issuance

omit [DecidableEq A] [DecidableEq X] in
/-- Operations of one market that leave the borrows alone and move live assets only. -/
theorem Local.quiet (h : Local m s s') (hindex : s'.debtIndex = s.debtIndex)
    (htime : s'.borrowTimestamp = s.borrowTimestamp) (hmarket : s'.borrowIndex = s.borrowIndex)
    (hagree : Ledger.AgreeOn (fun x => ¬ Live cfg s x) s.ledger s'.ledger)
    (hissuance : s'.ledger.issuance = s.ledger.issuance) : Quiet cfg s s' :=
  ⟨h.vaults, h.factory, h.markets, h.debtMarkets, hindex, htime, hmarket, hagree, hissuance⟩

end Quiet

namespace Separated

omit [DecidableEq X] in
/-- An operation of one market keeps the assets apart if it moves no asset that is not live. -/
theorem of_local (h : Separated cfg s) (hlocal : Local m s s')
    (hidle : ∀ {x a}, ¬ Live cfg s x → (∀ n, s.debtMarkets n = some x → a ≠ cfg.accountId n) →
      s'.ledger.free x a = 0)
    (hunheld : ∀ {x a}, ¬ cfg.vault.currencyFactory.inUse s.vault.factory x →
      s'.ledger.reserved x a = 0)
    (hpledged : s'.accountCollateral = s.accountCollateral) : Separated cfg s' where
  native := hlocal.live_iff.mpr h.native
  asset := by
    intro n config v hn hv
    rw [hlocal.markets] at hn
    rw [hlocal.vaults] at hv
    exact hlocal.live_iff.mpr (h.asset hn hv)
  debt := by
    rw [hlocal.debtMarkets, hlocal.factory]
    exact h.debt
  distinct := by
    rw [hlocal.debtMarkets]
    exact h.distinct
  idle := by
    intro x a hx ha
    rw [hlocal.debtMarkets] at ha
    exact hidle (fun hlive => hx (hlocal.live_iff.mpr hlive)) ha
  unheld := by
    rw [hlocal.factory]
    exact hunheld
  pledged := by
    intro n config a hn hx
    rw [hlocal.markets] at hn
    rw [hpledged]
    exact h.pledged hn fun hlive => hx (hlocal.live_iff.mpr hlive)

omit [DecidableEq X] in
/-- So does one that is quiet, if only live assets are pledged by it. -/
theorem of_quiet (h : Separated cfg s) (hquiet : Quiet cfg s s')
    (hpledged : ∀ {m config a}, s.markets.lookup m = some config → ¬ Live cfg s config.collateral →
      (s'.accountCollateral.get m a).getD 0 = 0) : Separated cfg s' where
  native := hquiet.live_iff.mpr h.native
  asset := by
    intro n config v hn hv
    rw [hquiet.markets] at hn
    rw [hquiet.vaults] at hv
    exact hquiet.live_iff.mpr (h.asset hn hv)
  debt := by
    rw [hquiet.debtMarkets, hquiet.factory]
    exact h.debt
  distinct := by
    rw [hquiet.debtMarkets]
    exact h.distinct
  idle := by
    intro x a hx ha
    have hdead : ¬ Live cfg s x := fun hlive => hx (hquiet.live_iff.mpr hlive)
    rw [hquiet.debtMarkets] at ha
    rw [(hquiet.agree x hdead).1]
    exact h.idle hdead ha
  unheld := by
    intro x a hx
    rw [hquiet.factory] at hx
    rw [(hquiet.agree x fun hlive => hx hlive.1).2]
    exact h.unheld hx
  pledged := by
    intro n config a hn hx
    rw [hquiet.markets] at hn
    exact hpledged hn fun hlive => hx (hquiet.live_iff.mpr hlive)

omit [DecidableEq X] in
/-- A user can pay only with live assets. -/
theorem payment (h : Separated cfg s) {x : X} {a b : A} {n : Nat} {k : Bool}
    (ha : ∀ m, a ≠ cfg.accountId m) (hab : a ≠ b)
    (hpaid : cfg.vault.currency.transferRefused s.ledger x a b n k = none) (hx : ¬ Live cfg s x) :
    n = 0 := by
  have hfunded := cfg.vault.currency.funded_of_transfer hpaid hab
  rw [h.idle hx fun m _ => ha m] at hfunded
  exact Nat.le_zero.mp hfunded

omit [DecidableEq X] in
/-- What a user holds of a debt token is on hold. -/
theorem balance_debt {d : X} {a : A} (h : Separated cfg s) (hd : s.debtMarkets m = some d)
    (ha : ∀ n, a ≠ cfg.accountId n) : s.ledger.balance d a = s.ledger.reserved d a := by
  rw [Ledger.balance, h.idle (not_live_of_debt hd) fun n _ => ha n, Nat.zero_add]

end Separated

/-! ## Quiet operations -/

/-- A payment in a live asset. -/
theorem quiet_pay {x : X} {a b : A} {n : Nat} (hx : Live cfg s x) :
    Quiet cfg s (s.withLedger (s.ledger.move x a b n)) :=
  (local_withLedger (m := 0) _).quiet rfl rfl rfl (Ledger.agreeOn_move fun hdead => hdead hx) rfl

namespace Separated

/-- The rent goes from the market, if there is one. -/
theorem quiet_rentPaid (h : Separated cfg s) {account recipient : A} :
    Quiet cfg s (s.withLedger (s.rentPaid cfg m account recipient)) := by
  unfold State.rentPaid
  cases s.borrowRent.get m account with
  | none => exact Quiet.refl s
  | some rent => exact quiet_pay h.native

theorem quiet_rented (h : Separated cfg s) {owner : A} : Quiet cfg s (s.rented cfg m owner) :=
  local_rented.quiet rfl rfl rfl (Ledger.agreeOn_move fun hdead => hdead h.native) rfl

theorem after_deposit {account : A} {amount : Nat} {u : Unit} (h : Separated cfg s)
    (huser : ∀ n, account ≠ cfg.accountId n)
    (hdeposit : depositCollateralInternal cfg m account amount s = (.ok u, s')) :
    Separated cfg s' ∧ Quiet cfg s s' := by
  obtain ⟨config, hmarket, hpaid, rfl⟩ := depositCollateral_ok hdeposit
  have hzero : ¬ Live cfg s config.collateral → amount = 0 := fun hx =>
    h.payment huser (huser m) hpaid hx
  have hquiet : Quiet cfg s (s.deposited cfg config m account amount) :=
    local_deposited.quiet rfl rfl rfl (Ledger.agreeOn_move_of_zero hzero) rfl
  refine ⟨h.of_quiet hquiet fun {n c a} hc hx => ?_, hquiet⟩
  show (StorageDoubleMap.get (s.accountCollateral.put m account _) n a).getD 0 = 0
  rw [StorageDoubleMap.get_put]
  split
  next hself =>
    obtain ⟨rfl, rfl⟩ := hself
    obtain rfl := Option.some.inj (hmarket.symm.trans hc)
    rw [Option.getD_some, h.pledged hmarket hx, hzero hx]
  next => exact h.pledged hc hx

theorem after_withdraw {env : Env X} {account : A} {amount : Nat} {u : Unit} (h : Separated cfg s)
    (hwithdraw : withdrawCollateralInternal cfg env m account amount s = (.ok u, s')) :
    Separated cfg s' ∧ Quiet cfg s s' := by
  obtain ⟨config, hmarket, hle, -, rfl⟩ := withdrawCollateral_ok hwithdraw
  have hzero : ¬ Live cfg s config.collateral → amount = 0 := by
    intro hx
    rw [h.pledged hmarket hx] at hle
    exact Nat.le_zero.mp hle
  have hquiet : Quiet cfg s (s.withdrawn cfg config m account amount) :=
    local_withdrawn.quiet rfl rfl rfl (Ledger.agreeOn_move_of_zero hzero) rfl
  refine ⟨h.of_quiet hquiet fun {n c a} hc hx => ?_, hquiet⟩
  show (StorageDoubleMap.get (s.accountCollateral.put m account _) n a).getD 0 = 0
  rw [StorageDoubleMap.get_put]
  split
  next hself =>
    obtain ⟨rfl, rfl⟩ := hself
    obtain rfl := Option.some.inj (hmarket.symm.trans hc)
    rw [Option.getD_some, h.pledged hmarket hx, Nat.zero_sub]
  next => exact h.pledged hc hx

/-- The auction takes its deposit, and what it puts on hold is live: an order of nothing is
    refused. -/
theorem ask_agrees {now collateral unitPrice : Nat} {seller account : A} {config : MarketConfig A X}
    {asset : X} (h : Separated cfg s) (hmarket : s.markets.lookup m = some config)
    (hcollateral : s.accountCollateral.get m account = some collateral)
    {configuration : DutchAuction.TimeReleaseFunction} {t : DutchAuction.State A X}
    (ht : Ledger.AgreeOn (fun x => ¬ Live cfg s x) s.ledger t.ledger ∧
      t.ledger.issuance = s.ledger.issuance) :
    Call.Outcome
      (fun _ t' => Ledger.AgreeOn (fun x => ¬ Live cfg s x) s.ledger t'.ledger ∧
        t'.ledger.issuance = s.ledger.issuance)
      (fun _ t' => Ledger.AgreeOn (fun x => ¬ Live cfg s x) s.ledger t'.ledger ∧
        t'.ledger.issuance = s.ledger.issuance)
      (DutchAuction.ask cfg.liquidations.auction now seller
        (liquidationOrder config asset collateral unitPrice) configuration t) := by
  have hnative : Live cfg s cfg.liquidations.auction.nativeAsset := cfg.same_native ▸ h.native
  refine Call.outcome_iff.mpr ⟨fun _ t' ht' => ?_, fun _ t' ht' => ?_⟩
  · obtain ⟨hvalid, -, -, rfl⟩ := (Call.outcome_iff.mp DutchAuction.ask_outcome).1 _ _ ht'
    have hpos : 0 < collateral := of_decide_eq_true (Bool.and_eq_true_iff.mp hvalid).1
    have hlive : Live cfg s config.collateral := by
      by_contra hx
      have hzero := h.pledged (a := account) hmarket hx
      rw [hcollateral, Option.getD_some] at hzero
      exact hpos.ne' hzero
    exact ⟨(ht.1.trans (Ledger.agreeOn_move fun hdead => hdead hnative)).trans
      (Ledger.agreeOn_lock fun hdead => hdead hlive), ht.2⟩
  · obtain ⟨-, -, -, hsame | ⟨_, -, -, hmoved⟩⟩ :=
      (Call.outcome_iff.mp DutchAuction.ask_outcome).2 _ _ ht'
    · rw [hsame]
      exact ht
    · rw [hmoved]
      exact ⟨ht.1.trans (Ledger.agreeOn_move fun hdead => hdead hnative), ht.2⟩

theorem after_liquidateAccount {env : Env X} {liquidator account : A} {u : Unit} (h : Separated cfg s)
    (hliquidate : liquidateAccount cfg env liquidator m account s = (.ok u, s')) :
    Separated cfg s' ∧ Quiet cfg s s' := by
  rcases liquidateAccount_ok hliquidate with
    ⟨-, rfl⟩ | ⟨config, vault, collateral, unitPrice, orderId, t, -, hmarket, -, hcollateral,
      hauction, rfl⟩
  · exact ⟨h, .refl s'⟩
  · obtain ⟨hagree, hissuance⟩ := Liquidations.liquidate_invariant hauction
      (fun _ _ ht => h.ask_agrees hmarket hcollateral ht) ⟨Ledger.AgreeOn.refl s.auction.ledger, rfl⟩
    have hasked : Quiet cfg s (s.withAuction t) :=
      (local_liquidated (m := m) (l := t.ledger)).quiet rfl rfl rfl hagree hissuance
    have hseparated : Separated cfg (s.withAuction t) := h.of_quiet hasked h.pledged
    have hpaid : Quiet cfg (s.withAuction t)
        ((s.withAuction t).withLedger ((s.withAuction t).rentPaid cfg m account liquidator)) :=
      hseparated.quiet_rentPaid
    have hquiet := hasked.trans hpaid
    exact ⟨h.of_quiet hquiet h.pledged, hquiet⟩

end Separated

/-! ## Borrowing, repaying and accruing -/

/-- A borrow puts the debt token on hold, so nothing of it is free. -/
theorem Separated.borrowed {config : MarketConfig A X} {vault : Vault.VaultInfo A X} {d : X}
    {owner : A}
    {amount index marketIndex : Nat} (h : Separated cfg s) (hd : s.debtMarkets m = some d)
    (hb : Borrowed cfg s m owner amount config vault marketIndex) :
    Separated cfg (s.borrowed cfg vault.assetId m owner amount index) := by
  have hlive : Live cfg s vault.assetId := h.asset hb.market_eq hb.vault_eq
  refine h.of_local local_borrowed (fun {x a} hx ha => ?_) (fun {x a} hx => ?_) rfl
  · have hne : x ≠ vault.assetId := fun heq => hx (heq ▸ hlive)
    rw [State.borrowed, State.ledger_withLedger, free_borrowedLedger hne]
    exact h.idle hx ha
  · have hne : x ≠ d := fun heq => hx (heq ▸ h.debt hd)
    rw [State.borrowed, State.ledger_withLedger, reserved_borrowedLedger, State.debtAsset_eq hd,
      if_neg fun heq => hne heq.1]
    exact h.unheld hx

/-- What is released of the principal is burnt at once. -/
theorem Separated.repaid {config : MarketConfig A X} {vault : Vault.VaultInfo A X}
    {payer beneficiary : A}
    {amount owed : Nat} (h : Separated cfg s)
    (hr : Repaid cfg s m payer beneficiary amount config vault owed) :
    Separated cfg (s.repaid cfg vault.assetId m payer beneficiary amount) := by
  have hlive : Live cfg s vault.assetId := h.asset hr.market_eq hr.vault_eq
  refine h.of_local local_repaid (fun {x a} hx ha => ?_) (fun {x a} hx => ?_) rfl
  · have hne : x ≠ vault.assetId := fun heq => hx (heq ▸ hlive)
    rw [State.repaid, State.ledger_withLedger, free_repaidLedger hne, h.idle hx ha, Nat.zero_sub,
      Nat.zero_add]
    split
    · exact Nat.sub_eq_zero_of_le (Nat.min_le_left _ _)
    · rfl
  · rw [State.repaid, State.ledger_withLedger, reserved_repaidLedger, h.unheld hx, Nat.zero_sub]

omit [DecidableEq X] in
theorem Separated.closed {a : A} (h : Separated cfg s) : Separated cfg (s.closed m a) :=
  h.of_local local_closed h.idle h.unheld rfl

/-- Accrued interest goes to the account of the market. -/
theorem Separated.accrued {d : X} {index amount : Nat} (h : Separated cfg s)
    (hd : s.debtMarkets m = some d) : Separated cfg (s.accrued cfg m index amount) := by
  refine h.of_local local_accrued (fun {x a} hx ha => ?_) h.unheld rfl
  have hother : ¬ (x = d ∧ a = cfg.accountId m) := fun heq => ha m (heq.1 ▸ hd) heq.2
  rw [State.accrued, State.ledger_withLedger, Ledger.free_mint, State.debtAsset_eq hd,
    if_neg hother, h.idle hx ha]

/-- The vault of a market is over a live asset. -/
theorem Separated.quiet_fundsMoved {config : MarketConfig A X} {v : Vault.State A X F}
    (h : Separated cfg s) (hmarket : s.markets.lookup m = some config)
    (hfunds : FundsMoved cfg s.vault config.borrow (cfg.accountId m) v) :
    Quiet cfg s { s with vault := v } := by
  obtain ⟨vault, n, hvault, hmoved⟩ := hfunds.ledger
  have hlive : Live cfg s vault.assetId := h.asset hmarket hvault
  refine (local_fundsMoved (m := m) hfunds).quiet rfl rfl rfl ?_ hfunds.issuance
  show Ledger.AgreeOn _ _ v.ledger
  rcases hmoved with hout | hin
  · rw [hout]
    exact Ledger.agreeOn_move fun hdead => hdead hlive
  · rw [hin]
    exact Ledger.agreeOn_move fun hdead => hdead hlive

theorem Separated.after_initializeMarket {now : Nat} {u : Unit} (hr : Registered cfg s)
    (h : Separated cfg s)
    (hmarket : initializeMarket cfg now m s = (.ok u, s')) : Separated cfg s' := by
  obtain ⟨config, index, index', amount, v, hlookup, -, -, hfunds, rfl⟩ := initializeMarket_ok hmarket
  obtain ⟨d, hd⟩ := (hr.listed hlookup).debt
  have haccrued : Separated cfg (s.accrued cfg m index' amount) := h.accrued hd
  exact haccrued.of_quiet (haccrued.quiet_fundsMoved hlookup hfunds) haccrued.pledged

theorem Separated.after_initializeBlock {now : Nat} {u : Unit} (hr : Registered cfg s)
    (h : Separated cfg s)
    (hblock : initializeBlock cfg now s = (.ok u, s')) : Separated cfg s' := by
  have hboth : Registered cfg s' ∧ Separated cfg s' := by
    refine initializeBlock_invariant (I := fun s => Registered cfg s ∧ Separated cfg s)
      (fun {s s' m u} hs hm => ?_) (fun {s} hs => ?_) ⟨hr, h⟩ hblock
    · exact ⟨initializeMarket_registered hs.1 hm, hs.2.after_initializeMarket hs.1 hm⟩
    · refine ⟨hs.1.of_same_borrows (local_stamped 0) (Nat.zero_le _) rfl rfl, ?_⟩
      exact hs.2.of_local (local_stamped 0) hs.2.idle hs.2.unheld rfl
  exact hboth.2

omit [DecidableEq X] in
theorem Separated.updated {config : MarketConfig A X} {input : UpdateInput} (h : Separated cfg s)
    (hmarket : s.markets.lookup m = some config) :
    Separated cfg { s with markets := s.markets.insert m (config.update input) } := by
  refine ⟨h.native, fun {n c v} hn hv => ?_, h.debt, h.distinct, h.idle, h.unheld,
    fun {n c a} hn hx => ?_⟩
  · obtain ⟨c', hc', hborrow, -⟩ := lookup_updated hmarket hn
    exact h.asset hc' (hborrow ▸ hv)
  · obtain ⟨c', hc', -, hcollateral⟩ := lookup_updated hmarket hn
    rw [hcollateral] at hx
    exact h.pledged hc' hx

section Create

variable {manager : A} {input : CreateInput X} {lpToken debtAsset : X} {factory factory' : F}
  {poolSize : Nat}

omit [DecidableEq A] [DecidableEq X] in
theorem Created.inUse_iff
    (hc : Created cfg s manager input lpToken debtAsset factory factory' poolSize)
    {x : X} : cfg.vault.currencyFactory.inUse factory' x ↔
      x = debtAsset ∨ x = lpToken ∨ cfg.vault.currencyFactory.inUse s.vault.factory x := by
  rw [cfg.vault.currencyFactory.inUse_create hc.debtAsset_eq,
    cfg.vault.currencyFactory.inUse_create hc.lpToken_eq]

omit [DecidableEq A] [DecidableEq X] in
theorem Created.fresh (hc : Created cfg s manager input lpToken debtAsset factory factory' poolSize) :
    ¬ cfg.vault.currencyFactory.inUse s.vault.factory debtAsset := by
  intro hused
  apply cfg.vault.currencyFactory.fresh hc.debtAsset_eq
  exact (cfg.vault.currencyFactory.inUse_create hc.lpToken_eq).mpr (.inr hused)

/-- What was live stays live: the new debt token was not in use. -/
theorem Created.live (hc : Created cfg s manager input lpToken debtAsset factory factory' poolSize)
    {x : X} (hx : Live cfg s x) :
    Live cfg (s.created cfg manager input lpToken debtAsset factory factory' poolSize) x := by
  refine ⟨hc.inUse_iff.mpr (.inr (.inr hx.1)), fun n hn => ?_⟩
  rcases debt_created.mp hn with ⟨-, rfl⟩ | ⟨-, hold⟩
  · exact hc.fresh hx.1
  · exact hx.2 n hold

omit [DecidableEq X] in
/-- The borrow asset is live, since the manager could pay with it. -/
theorem Created.asset_live
    (hc : Created cfg s manager input lpToken debtAsset factory factory' poolSize)
    (h : Separated cfg s) (huser : ∀ n, manager ≠ cfg.accountId n) :
    Live cfg s input.borrowAsset := by
  by_contra hx
  exact hc.pos.ne' (h.payment huser (huser _) hc.paid hx)

theorem Separated.after_create
    (hc : Created cfg s manager input lpToken debtAsset factory factory' poolSize)
    (hr : Registered cfg s) (h : Separated cfg s) (huser : ∀ n, manager ≠ cfg.accountId n) :
    Separated cfg (s.created cfg manager input lpToken debtAsset factory factory' poolSize) := by
  have hasset := hc.asset_live h huser
  have hagree : Ledger.AgreeOn (fun x => ¬ Live cfg s x) s.ledger
      (s.created cfg manager input lpToken debtAsset factory factory' poolSize).ledger :=
    Ledger.agreeOn_move fun hdead => hdead hasset
  refine ⟨hc.live h.native, fun {n config v} hn hv => ?_, fun {n d} hd => ?_, fun {n k d} hn hk => ?_,
    fun {x a} hx ha => ?_, fun {x a} hx => ?_, fun {n config a} hn hx => ?_⟩
  · apply hc.live
    rcases vault_created hr hn hv with hnew | ⟨hold, hv⟩
    · exact hnew ▸ hasset
    · exact h.asset hold hv
  · rcases debt_created.mp hd with ⟨-, rfl⟩ | ⟨-, hold⟩
    · exact hc.inUse_iff.mpr (.inl rfl)
    · exact hc.inUse_iff.mpr (.inr (.inr (h.debt hold)))
  · -- A debt token of an older market is in use, so it is not the new one.
    rcases debt_created.mp hn with ⟨rfl, rfl⟩ | ⟨-, hn'⟩
    · rcases debt_created.mp hk with ⟨rfl, -⟩ | ⟨-, hk'⟩
      · rfl
      · exact absurd (h.debt hk') hc.fresh
    · rcases debt_created.mp hk with ⟨-, rfl⟩ | ⟨-, hk'⟩
      · exact absurd (h.debt hn') hc.fresh
      · exact h.distinct hn' hk'
  · have hx' : ¬ Live cfg s x := fun hlive => hx (hc.live hlive)
    rw [(hagree x hx').1]
    apply h.idle hx'
    intro n hn
    exact ha n (debt_created.mpr (.inr ⟨(Nat.lt_succ_of_le (hr.isSome_le hn)).ne, hn⟩))
  · have hx' : ¬ cfg.vault.currencyFactory.inUse s.vault.factory x := fun hused =>
      hx (hc.inUse_iff.mpr (.inr (.inr hused)))
    rw [(hagree x fun hlive => hx' hlive.1).2]
    exact h.unheld hx'
  · rcases lookup_created hn with ⟨rfl, -⟩ | hold
    · show ((s.accountCollateral (s.lendingCount + 1)).lookup a).getD 0 = 0
      rw [(hr.blank (Nat.lt_succ_self _)).accountCollateral, AList.lookup_empty, Option.getD_none]
    · exact h.pledged hold fun hlive => hx (hc.live hlive)

end Create

/-! ## What an operation does to the debts -/

/-- What an operation does to the debts of the markets. -/
inductive DebtEffect (cfg : Config A X F) (s : State A X F) : Op A X → State A X F → Prop where
  | quiet {op s'} (h : Quiet cfg s s') : DebtEffect cfg s op s'
  | created {env who input lpToken debtAsset factory factory' poolSize}
      (hc : Created cfg s who input.1 lpToken debtAsset factory factory' poolSize) :
      DebtEffect cfg s (.createMarket env (.signed who) input)
        (s.created cfg who input.1 lpToken debtAsset factory factory' poolSize)
  | updated {who m input config} (hmarket : s.markets.lookup m = some config) :
      DebtEffect cfg s (.updateMarket (.signed who) m input)
        { s with markets := s.markets.insert m (config.update input) }
  | borrowed {env owner m amount config vault marketIndex s'}
      (hb : Borrowed cfg s m owner amount config vault marketIndex)
      (hquiet : Quiet cfg (s.borrowed cfg vault.assetId m owner amount
        (s.nextIndex cfg m owner amount marketIndex)) s') :
      DebtEffect cfg s (.borrow env (.signed owner) m amount) s'
  | repaid {payer m beneficiary amount config vault owed}
      (hr : Repaid cfg s m payer beneficiary amount config vault owed)
      (hleft : s.interestLeft cfg m beneficiary amount ≠ 0) :
      DebtEffect cfg s (.repayBorrow (.signed payer) m beneficiary amount)
        (s.repaid cfg vault.assetId m payer beneficiary amount)
  | closed {payer m beneficiary amount config vault owed s'}
      (hr : Repaid cfg s m payer beneficiary amount config vault owed)
      (hleft : s.interestLeft cfg m beneficiary amount = 0)
      (hquiet : Quiet cfg ((s.repaid cfg vault.assetId m payer beneficiary amount).closed m
        beneficiary) s') :
      DebtEffect cfg s (.repayBorrow (.signed payer) m beneficiary amount) s'
  | initialized {now u s'} (h : initializeBlock cfg now s = (.ok u, s')) :
      DebtEffect cfg s (.initializeBlock now) s'

/-- **Every step by a user** keeps the assets apart, and does one of these to the debts. -/
theorem step_debts {op : Op A X} (hr : Registered cfg s) (h : Separated cfg s) (huser : op.ByUser cfg)
    (hstep : step cfg s op = some s') : Separated cfg s' ∧ DebtEffect cfg s op s' := by
  cases step_effect hstep with
  | idle => exact ⟨h, .quiet (.refl s)⟩
  | @created _ who _ _ _ hcreate =>
      obtain ⟨lpToken, debtAsset, factory, factory', poolSize, hc, rfl⟩ := create_ok hcreate
      exact ⟨h.after_create hc hr (huser who rfl), .created hc⟩
  | updated hmarket => exact ⟨h.updated hmarket, .updated hmarket⟩
  | @deposited who _ _ _ _ hdeposit =>
      obtain ⟨hs', hquiet⟩ := h.after_deposit (huser who rfl) hdeposit
      exact ⟨hs', .quiet hquiet⟩
  | withdrawn hwithdraw =>
      obtain ⟨hs', hquiet⟩ := h.after_withdraw hwithdraw
      exact ⟨hs', .quiet hquiet⟩
  | @borrowed _ owner m amount _ _ hborrow =>
      obtain ⟨config, vault, marketIndex, hb, hrent⟩ := borrow_ok hborrow
      obtain ⟨d, hd⟩ := (hr.listed hb.market_eq).debt
      have hborrowed : Separated cfg (s.borrowed cfg vault.assetId m owner amount
          (s.nextIndex cfg m owner amount marketIndex)) := h.borrowed hd hb
      rcases payRent_ok hrent with ⟨-, -, rfl⟩ | ⟨-, rfl⟩
      · exact ⟨hborrowed.of_quiet hborrowed.quiet_rented hborrowed.pledged,
          .borrowed hb hborrowed.quiet_rented⟩
      · exact ⟨hborrowed, .borrowed hb (.refl _)⟩
  | @repaid payer m beneficiary amount _ _ hrepay =>
      rcases repay_ok hrepay with
        ⟨-, rfl⟩ | ⟨config, vault, owed, hrepaid, -, ⟨hleft, rfl⟩ | ⟨hleft, hclose⟩⟩
      · exact ⟨h, .quiet (.refl _)⟩
      · exact ⟨h.repaid hrepaid, .repaid hrepaid hleft⟩
      · obtain ⟨-, rfl⟩ := closeBorrow_ok hclose
        have hclosed : Separated cfg
            ((s.repaid cfg vault.assetId m payer beneficiary amount).closed m beneficiary) :=
          (h.repaid hrepaid).closed
        exact ⟨hclosed.of_quiet hclosed.quiet_rentPaid hclosed.pledged,
          .closed hrepaid hleft hclosed.quiet_rentPaid⟩
  | liquidated hloop =>
      have hboth := Call.forEach_invariant (I := fun t => Separated cfg t ∧ Quiet cfg s t)
        (fun _ _ _ _ _ ht hturn => ?_) ⟨h, .refl s⟩ hloop
      · exact ⟨hboth.1, .quiet hboth.2⟩
      · obtain ⟨ht', hquiet⟩ := ht.1.after_liquidateAccount hturn
        exact ⟨ht', ht.2.trans hquiet⟩
  | initialized hblock => exact ⟨h.after_initializeBlock hr hblock, .initialized hblock⟩

/-! ## Runs -/

/-- Before any market exists, nobody has anything of an asset that is not in use. -/
structure Unissued (cfg : Config A X F) (ledger : Ledger A X) (factory : F) : Prop where
  native : cfg.vault.currencyFactory.inUse factory cfg.vault.nativeAsset
  unused : ∀ x a, ¬ cfg.vault.currencyFactory.inUse factory x →
    ledger.free x a = 0 ∧ ledger.reserved x a = 0

omit [DecidableEq X] in
theorem Separated.genesis {ledger : Ledger A X} {factory : F} (h : Unissued cfg ledger factory)
    (now : Nat) : Separated cfg (State.genesis ledger factory now) where
  native := ⟨h.native, nofun⟩
  asset := nofun
  debt := nofun
  distinct := nofun
  idle := fun {x a} hx _ => (h.unused x a fun hused => hx ⟨hused, nofun⟩).1
  unheld := fun {x a} hx => (h.unused x a hx).2
  pledged := nofun

/-- Every run of users keeps the register, and keeps the assets apart. -/
theorem Separated.of_run {ledger : Ledger A X} {factory : F}
    (hgenesis : Unissued cfg ledger factory) {now : Nat}
    {ops : List (Op A X)} (huser : ∀ op ∈ ops, op.ByUser cfg)
    (hrun : run (step cfg) (State.genesis ledger factory now) ops = some s) :
    Registered cfg s ∧ Separated cfg s := by
  refine run_invariant (I := fun t => Registered cfg t ∧ Separated cfg t) (fun ht hop hstep => ?_)
    ⟨.genesis ledger factory now, .genesis hgenesis now⟩ ((along_true _ ops).and_forall huser) hrun
  exact ⟨ht.1.step hop.1 hstep, (step_debts ht.1 ht.2 hop.1 hstep).1⟩

theorem sampleLedger_unissued : Unissued sample sampleLedger 100 where
  native := show 0 < 100 by decide
  unused := by
    intro x a hx
    have hlarge : 100 ≤ x := Nat.le_of_not_lt hx
    refine ⟨?_, rfl⟩
    have hnone : ∀ y, y < 100 → ¬ y = x := fun y hy heq => absurd hlarge (by omega)
    simp [sampleLedger, Ledger.ofList, hnone]

end Lending
end Composable
