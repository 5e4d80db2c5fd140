import Composable.Lending.Effect

/-!
# `Lending.Closing` — what is left of the liquidation of a strategy

`liquidate_strategy` removes the entry of a strategy from the capital structure of its vault,
and `available_funds` answers `MustLiquidate` to a strategy without an entry. A lending market
that is the strategy returns its funds at every block start and refuses borrows as long as
that is the answer (`Closing`).

The entry is written again by every strategy operation that passes its checks, since these start
from the default when there is none: the very deposit with which the funds are returned ends the
liquidation. `closing_iff` says that nothing else does.
-/

namespace Composable
namespace Lending

open Vault (FundsAvailability)

variable {A X F : Type} [DecidableEq A] [DecidableEq X]
variable {cfg : Config A X F} {s s' : State A X F} {id : Nat} {strategy : A}

/-! ## After a liquidation -/

/-- What can happen to a vault and its strategies besides governance. -/
inductive ClosingOp (A : Type) where
  | strategyDeposit (id : Nat) (strategy : A) (amount : Nat)
  | strategyWithdraw (id : Nat) (strategy : A) (amount : Nat)
  | updateStrategyReport (id : Nat) (strategy : A) (report : Nat)
  | deposit (origin : RawOrigin A) (id amount : Nat)
  | withdraw (origin : RawOrigin A) (id lpAmount : Nat)
  | initializeBlock (now : Nat)

/-- An operation of the vault pallet, on the storage of both. -/
def vaultStep (cfg : Config A X F) (s : State A X F) (op : Vault.Op A X) : Option (State A X F) :=
  (Vault.step cfg.vault s.vault op).map fun v => { s with vault := v }

def closingStep (cfg : Config A X F) (s : State A X F) : ClosingOp A → Option (State A X F)
  | .strategyDeposit id strategy amount => vaultStep cfg s (.strategyDeposit id strategy amount)
  | .strategyWithdraw id strategy amount => vaultStep cfg s (.strategyWithdraw id strategy amount)
  | .updateStrategyReport id strategy report =>
      vaultStep cfg s (.updateStrategyReport id strategy report)
  | .deposit origin id amount => vaultStep cfg s (.deposit origin id amount)
  | .withdraw origin id lpAmount => vaultStep cfg s (.withdraw origin id lpAmount)
  | .initializeBlock now => step cfg s (.initializeBlock now)

/-- A vault that is neither stopped nor tombstoned. -/
def Active (vault : Vault.VaultInfo A X) : Prop :=
  vault.capabilities.isStopped = false ∧ vault.capabilities.isTombstoned = false

instance (vault : Vault.VaultInfo A X) : Decidable (Active vault) :=
  inferInstanceAs (Decidable (_ ∧ _))

omit [DecidableEq X] in
/-- `available_funds` answers `MustLiquidate` exactly when there is no entry, or the vault is not
    active. -/
theorem mustLiquidate_iff {t : Vault.State A X F} :
    Vault.availableFunds cfg.vault id strategy t = (.ok .mustLiquidate, t) ↔
      ∀ vault overview, t.vaults id = some vault →
        (t.capitalStructure id).lookup strategy = some overview →
        ¬ Active vault := by
  unfold Vault.availableFunds
  rw [Call.get_bind]
  cases hvault : t.vaults id with
  | none => exact iff_of_true rfl nofun
  | some vault =>
      cases hentry : (t.capitalStructure id).lookup strategy with
      | none => exact iff_of_true rfl nofun
      | some overview =>
          by_cases hactive : Active vault
          · dsimp only
            rw [if_pos (show vault.capabilities.isStopped = false ∧ _ from hactive)]
            refine iff_of_false (fun h => ?_) (fun h => h vault overview rfl rfl hactive)
            obtain ⟨aum, t', -, hpure⟩ := Call.bind_ok.mp h
            have hfunds := (Call.pure_ok.mp hpure).1
            split at hfunds <;> cases hfunds
          · dsimp only
            rw [if_neg (show ¬ (vault.capabilities.isStopped = false ∧ _) from hactive)]
            refine iff_of_true rfl fun v _ hv _ => ?_
            obtain rfl := Option.some.inj hv
            exact hactive

/-- All that `canBorrow` checks before it asks the vault for the funds of the market. -/
structure BorrowChecks (cfg : Config A X F) (env : Env X) (s : State A X F) (market : Nat) (owner : A)
    (amount : Nat) (config : MarketConfig A X) (vault : Vault.VaultInfo A X) (limit value : Nat) :
    Prop where
  timestamp : (s.borrowTimestamp.get market owner).all (· < s.lastBlockTimestamp) = true
  vault_eq : s.vault.vaults config.borrow = some vault
  limit_eq : getBorrowLimit env market owner s = (.ok limit, s)
  value_eq : getPrice env vault.assetId amount s = (.ok value, s)
  covered : value ≤ limit
  funded : cfg.vault.currency.canWithdraw vault.assetId (cfg.accountId market) amount s.ledger = true
  rent : (s.borrowRent.get market owner).isNone = true →
    cfg.vault.currency.canWithdraw cfg.vault.nativeAsset owner (cfg.liquidateFee 1) s.ledger = true

/-- The strategy has to return its funds, and a market that is this strategy does so at every block
    start and lends no more. -/
structure Closing (cfg : Config A X F) (id : Nat) (strategy : A) (s : State A X F) : Prop where
  funds : Vault.availableFunds cfg.vault id strategy s.vault = (.ok .mustLiquidate, s.vault)
  refuses : ∀ {market config}, s.markets.lookup market = some config → config.borrow = id →
    cfg.accountId market = strategy → ∀ env owner amount,
      (∀ u t, borrowInternal cfg env market owner amount s ≠ (.ok u, t)) ∧
      ∀ vault limit value, BorrowChecks cfg env s market owner amount config vault limit value →
        canBorrow cfg env market owner amount config s = (.error (err .marketIsClosing), s)
  returns : ∀ {market config}, s.markets.lookup market = some config → config.borrow = id →
    cfg.accountId market = strategy → ∀ {now u t}, initializeMarket cfg now market s = (.ok u, t) →
      ∃ t', accrueInterest cfg market now s = (.ok (), t') ∧
        handleDepositable cfg config market none t' = (.ok u, t)

section Market

variable {market amount : Nat} {config : MarketConfig A X} {env : Env X} {owner : A}

omit [DecidableEq X] in
theorem onVault_mustLiquidate
    (h : Vault.availableFunds cfg.vault id strategy s.vault = (.ok .mustLiquidate, s.vault)) :
    onVault (Vault.availableFunds cfg.vault id strategy) s = (.ok .mustLiquidate, s) :=
  onVault_ok.mpr ⟨s.vault, h, rfl⟩

/-- A market that must liquidate does not lend. -/
theorem borrow_refused (hmarket : s.markets.lookup market = some config)
    (h : Vault.availableFunds cfg.vault config.borrow (cfg.accountId market) s.vault =
      (.ok .mustLiquidate, s.vault)) {u : Unit} :
    borrowInternal cfg env market owner amount s ≠ (.ok u, s') := by
  intro hborrow
  simp only [borrowInternal, Call.bind_ok, getMarket_ok] at hborrow
  obtain ⟨c, _, ⟨hc, rfl⟩, _, _, hasset, _, _, hcan, -⟩ := hborrow
  obtain rfl := Option.some.inj (hmarket.symm.trans hc)
  obtain rfl := assetId_reads.ok hasset
  simp only [canBorrow, Call.get_bind, Call.bind_ok, Call.ensure_ok, and_assoc, exists_and_left,
    exists_eq_left, exists_const] at hcan
  obtain ⟨-, _, _, hasset', hcan⟩ := hcan
  obtain rfl := assetId_reads.ok hasset'
  obtain ⟨limit, _, hlimit, hcan⟩ := hcan
  obtain rfl := getBorrowLimit_reads.ok hlimit
  obtain ⟨_, _, hprice, -, -, hcan⟩ := hcan
  obtain rfl := getPrice_reads.ok hprice
  obtain ⟨_, _, hrent, funds, _, hfunds, hne, -⟩ := hcan
  obtain rfl := (Call.Reads.when (Call.Reads.ensure _ _)).ok hrent
  rw [onVault_mustLiquidate h] at hfunds
  cases hfunds
  exact hne rfl

omit [DecidableEq X] in
/-- It says why, when nothing else is wrong with the borrow. -/
theorem canBorrow_closing {vault : Vault.VaultInfo A X} {limit value : Nat}
    (h : Vault.availableFunds cfg.vault config.borrow (cfg.accountId market) s.vault =
      (.ok .mustLiquidate, s.vault))
    (hchecks : BorrowChecks cfg env s market owner amount config vault limit value) :
    canBorrow cfg env market owner amount config s = (.error (err .marketIsClosing), s) := by
  have hasset : assetId config.borrow s = (.ok vault.assetId, s) :=
    assetId_ok.mpr ⟨vault, hchecks.vault_eq, rfl, rfl⟩
  have hrent : Call.when ((s.borrowRent.get market owner).isNone = true)
      (Call.ensure (cfg.vault.currency.canWithdraw cfg.vault.nativeAsset owner (cfg.liquidateFee 1)
        s.ledger = true) (err .notEnoughRent)) s = (.ok (), s) := by
    rw [Call.when_ok]
    by_cases hnone : (s.borrowRent.get market owner).isNone = true
    · exact .inl ⟨hnone, Call.ensure_ok.mpr ⟨hchecks.rent hnone, rfl⟩⟩
    · exact .inr ⟨hnone, rfl⟩
  unfold canBorrow
  rw [Call.get_bind, Call.bind_of_ok ((Call.ensure_ok (u := ())).mpr ⟨hchecks.timestamp, rfl⟩),
    Call.bind_of_ok hasset, Call.bind_of_ok hchecks.limit_eq, Call.bind_of_ok hchecks.value_eq,
    Call.bind_of_ok ((Call.ensure_ok (u := ())).mpr ⟨hchecks.covered, rfl⟩),
    Call.bind_of_ok ((Call.ensure_ok (u := ())).mpr ⟨hchecks.funded, rfl⟩), Call.bind_of_ok hrent,
    Call.bind_of_ok (onVault_mustLiquidate h)]
  rfl

/-- At a block start it returns all it has. -/
theorem initializeMarket_closing {now : Nat} {u : Unit}
    (hmarket : s.markets.lookup market = some config)
    (h : Vault.availableFunds cfg.vault config.borrow (cfg.accountId market) s.vault =
      (.ok .mustLiquidate, s.vault))
    (hturn : initializeMarket cfg now market s = (.ok u, s')) :
    ∃ t, accrueInterest cfg market now s = (.ok (), t) ∧
      handleDepositable cfg config market none t = (.ok u, s') := by
  simp only [initializeMarket, Call.bind_ok, getMarket_ok] at hturn
  obtain ⟨c, s, ⟨hc, rfl⟩, _, t, haccrue, funds, _, hfunds, hmove⟩ := hturn
  obtain rfl := Option.some.inj (hmarket.symm.trans hc)
  refine ⟨t, haccrue, ?_⟩
  obtain ⟨index, index', accrued, -, -, rfl⟩ := accrueInterest_ok haccrue
  -- Interest is accrued in the ledger, which the vault does not look at for this answer.
  have hsame : Vault.availableFunds cfg.vault config.borrow (cfg.accountId market)
      (s.accrued cfg market index' accrued).vault = (.ok .mustLiquidate, _) :=
    mustLiquidate_iff.mpr ((mustLiquidate_iff (t := s.vault)).mp h)
  rw [onVault_mustLiquidate hsame] at hfunds
  cases hfunds
  exact hmove

end Market

/-- Once the vault answers `MustLiquidate`, the rest follows. -/
theorem Closing.of_funds
    (h : Vault.availableFunds cfg.vault id strategy s.vault = (.ok .mustLiquidate, s.vault)) :
    Closing cfg id strategy s where
  funds := h
  refuses := by
    rintro market config hmarket rfl rfl env owner amount
    exact ⟨fun u t => borrow_refused hmarket h, fun vault limit value => canBorrow_closing h⟩
  returns := by
    rintro market config hmarket rfl rfl now u t
    exact initializeMarket_closing hmarket h

/-! ## What ends it -/

/-- All that `strategyDeposit` checks of a vault. -/
def DepositPasses (cfg : Config A X F) (id : Nat) (strategy : A) (amount : Nat)
    (v : Vault.State A X F) (vault : Vault.VaultInfo A X) : Prop :=
  (v.strategy id strategy).lifetimeDeposited + amount ≤ u128Max ∧
    cfg.vault.currency.transferRefused v.ledger vault.assetId strategy (cfg.vault.accountId id) amount
      true = none

/-- All that `strategyWithdraw` checks of a vault. -/
def WithdrawPasses (cfg : Config A X F) (id : Nat) (strategy : A) (amount : Nat)
    (v : Vault.State A X F) (vault : Vault.VaultInfo A X) : Prop :=
  (v.strategy id strategy).balance + amount ≤ u128Max ∧
    (v.strategy id strategy).lifetimeWithdrawn + amount ≤ u128Max ∧
    cfg.vault.currency.transferRefused v.ledger vault.assetId (cfg.vault.accountId id) strategy amount
      true = none

/-- The operation writes an entry for the strategy: a report always does, a deposit or a
    withdrawal when it passes its checks, and a block start when it is not rolled back and some
    market is the strategy. -/
def Reopens (cfg : Config A X F) (id : Nat) (strategy : A) (vault : Vault.VaultInfo A X)
    (s : State A X F) : ClosingOp A → Prop
  | .strategyDeposit id' strategy' amount =>
      (id' = id ∧ strategy' = strategy) ∧ DepositPasses cfg id strategy amount s.vault vault
  | .strategyWithdraw id' strategy' amount =>
      (id' = id ∧ strategy' = strategy) ∧ WithdrawPasses cfg id strategy amount s.vault vault
  | .updateStrategyReport id' strategy' _ => id' = id ∧ strategy' = strategy
  | .deposit _ _ _ | .withdraw _ _ _ => False
  | .initializeBlock now =>
      (∃ market ∈ s.markets.keys, cfg.accountId market = strategy ∧
        (s.markets.lookup market).map (·.borrow) = some id) ∧
      (initializeMarkets cfg now (cfg.iteration s.markets.keys) s).1 = .ok []

/-- As long as the vault is active, the operation leaves the strategy without an entry. -/
def KeepsClosed (cfg : Config A X F) (id : Nat) (strategy : A) (s : State A X F)
    (op : ClosingOp A) : Prop :=
  ∀ vault, s.vault.vaults id = some vault → Active vault → ¬ Reopens cfg id strategy vault s op

/-- The vault exists, and the strategy has no entry in it unless the vault is not active. -/
def Detached (id : Nat) (strategy : A) (v : Vault.State A X F) : Prop :=
  ∃ vault, v.vaults id = some vault ∧ (Active vault → (v.capitalStructure id).lookup strategy = none)

omit [DecidableEq X] in
theorem Detached.closing (h : Detached id strategy s.vault) :
    Vault.availableFunds cfg.vault id strategy s.vault = (.ok .mustLiquidate, s.vault) := by
  obtain ⟨vault, hvault, hentry⟩ := h
  refine mustLiquidate_iff.mpr fun v overview hv hoverview hactive => ?_
  obtain rfl := Option.some.inj (hvault.symm.trans hv)
  rw [hentry hactive] at hoverview
  cases hoverview

/-- Funds that move between a vault and a strategy leave an entry for the strategy, and no other. -/
structure EntryWritten (id : Nat) (strategy : A) (v v' : Vault.State A X F) : Prop where
  vaults : v'.vaults = v.vaults
  entry : ∃ overview, v'.capitalStructure =
    Function.update v.capitalStructure id ((v.capitalStructure id).insert strategy overview)

section Written

variable {v v' : Vault.State A X F} {id' amount : Nat} {strategy' : A}

omit [DecidableEq X] in
theorem EntryWritten.lookup (h : EntryWritten id strategy v v') :
    ((v'.capitalStructure id).lookup strategy).isSome = true := by
  obtain ⟨overview, hentry⟩ := h.entry
  rw [hentry, Function.update_self, AList.lookup_insert]
  rfl

omit [DecidableEq X] in
theorem EntryWritten.lookup_of_ne (h : EntryWritten id' strategy' v v')
    (hne : ¬ (id' = id ∧ strategy' = strategy)) :
    (v'.capitalStructure id).lookup strategy = (v.capitalStructure id).lookup strategy := by
  obtain ⟨overview, hentry⟩ := h.entry
  rw [hentry]
  by_cases hid : id = id'
  · subst hid
    rw [Function.update_self]
    exact AList.lookup_insert_ne fun heq => hne ⟨rfl, heq.symm⟩
  · rw [Function.update_of_ne hid]

omit [DecidableEq X] in
/-- No entry is lost by it. -/
theorem EntryWritten.isSome (h : EntryWritten id' strategy' v v')
    (hsome : ((v.capitalStructure id).lookup strategy).isSome = true) :
    ((v'.capitalStructure id).lookup strategy).isSome = true := by
  by_cases heq : id' = id ∧ strategy' = strategy
  · obtain ⟨rfl, rfl⟩ := heq
    exact h.lookup
  · rw [h.lookup_of_ne heq]
    exact hsome

omit [DecidableEq X] in
/-- Writing another entry keeps the strategy detached. -/
theorem EntryWritten.detached (h : EntryWritten id' strategy' v v') (hv : Detached id strategy v)
    (hne : ∀ vault, v.vaults id = some vault → Active vault → ¬ (id' = id ∧ strategy' = strategy)) :
    Detached id strategy v' := by
  obtain ⟨vault, hvault, hentry⟩ := hv
  refine ⟨vault, h.vaults ▸ hvault, fun hactive => ?_⟩
  rw [h.lookup_of_ne (hne vault hvault hactive)]
  exact hentry hactive

/-- A strategy operation fails and writes nothing, or it passes its checks and leaves an entry. -/
def WritesEntry (passes : Vault.VaultInfo A X → Prop) (id : Nat) (strategy : A)
    (v v' : Vault.State A X F) : Prop :=
  v' = v ∨ ∃ vault, v.vaults id = some vault ∧ passes vault ∧ EntryWritten id strategy v v'

theorem strategyDeposit_writes :
    WritesEntry (DepositPasses cfg id strategy amount v) id strategy v
      (dispatch (Vault.strategyDeposit cfg.vault id strategy amount) v) := by
  refine dispatch_of_outcome (.inl rfl) ?_
  simp only [Vault.strategyDeposit, Call.outcome_bind, Vault.vaultInfo_outcome, Call.get_bind,
    Call.outcome_ensure, Vault.onLedger_outcome, Currency.transfer_outcome, Call.outcome_modify]
  refine ⟨fun vault hvault => ⟨fun hfits => ⟨fun hpaid => ?_, fun _ _ => .inr (.inl rfl)⟩,
    fun _ => .inr (.inl rfl)⟩, fun _ => .inr (.inl rfl)⟩
  exact .inr ⟨vault, hvault, ⟨hfits, hpaid⟩, rfl, _, rfl⟩

theorem strategyWithdraw_writes :
    WritesEntry (WithdrawPasses cfg id strategy amount v) id strategy v
      (dispatch (Vault.strategyWithdraw cfg.vault id strategy amount) v) := by
  refine dispatch_of_outcome (.inl rfl) ?_
  simp only [Vault.strategyWithdraw, Call.outcome_bind, Vault.vaultInfo_outcome, Call.get_bind,
    Call.outcome_ensure, Vault.onLedger_outcome, Currency.transfer_outcome, Call.outcome_modify]
  refine ⟨fun vault hvault =>
    ⟨fun hfits => ⟨fun hfits' => ⟨fun hpaid => ?_, fun _ _ => .inr (.inl rfl)⟩,
    fun _ => .inr (.inl rfl)⟩, fun _ => .inr (.inl rfl)⟩, fun _ => .inr (.inl rfl)⟩
  exact .inr ⟨vault, hvault, ⟨hfits, hfits', hpaid⟩, rfl, _, rfl⟩

omit [DecidableEq X] in
theorem updateStrategyReport_writes {report : Nat} :
    EntryWritten id strategy v (dispatch (Vault.updateStrategyReport id strategy report) v) :=
  ⟨rfl, _, rfl⟩

omit [DecidableEq X] in
/-- It keeps a strategy detached that it does not reopen. -/
theorem WritesEntry.detached {passes : Vault.VaultInfo A X → Prop}
    (h : WritesEntry passes id' strategy' v v') (hv : Detached id strategy v)
    (hkeeps : ∀ vault, v.vaults id = some vault → Active vault →
      ¬ ((id' = id ∧ strategy' = strategy) ∧ passes vault)) : Detached id strategy v' := by
  rcases h with rfl | ⟨vault', hvault', hpasses, hwritten⟩
  · exact hv
  · refine hwritten.detached hv fun vault hvault hactive heq => ?_
    have hsame : vault' = vault := by
      rw [heq.1, hvault] at hvault'
      exact (Option.some.inj hvault').symm
    exact hkeeps vault hvault hactive ⟨heq, hsame ▸ hpasses⟩

/-- A strategy deposit that passes its checks returns. -/
theorem strategyDeposit_passes {vault : Vault.VaultInfo A X} (hvault : v.vaults id = some vault)
    (h : DepositPasses cfg id strategy amount v vault) :
    EntryWritten id strategy v (dispatch (Vault.strategyDeposit cfg.vault id strategy amount) v) := by
  have hcall : ∃ t, Vault.strategyDeposit cfg.vault id strategy amount v = (.ok (), t) ∧
      EntryWritten id strategy v t := by
    simp only [Vault.strategyDeposit, Call.bind_ok, Vault.vaultInfo_ok, Call.get_bind, Call.ensure_ok,
      Vault.onLedger_ok, Currency.transfer_ok, Call.modify_ok]
    exact ⟨_, ⟨vault, v, ⟨hvault, rfl⟩, (), v, ⟨h.1, rfl⟩, (), _, ⟨_, ⟨h.2, rfl⟩, rfl⟩, rfl⟩,
      rfl, _, rfl⟩
  obtain ⟨t, ht, hwritten⟩ := hcall
  rw [dispatch, ht]
  exact hwritten

theorem strategyWithdraw_passes {vault : Vault.VaultInfo A X} (hvault : v.vaults id = some vault)
    (h : WithdrawPasses cfg id strategy amount v vault) :
    EntryWritten id strategy v
      (dispatch (Vault.strategyWithdraw cfg.vault id strategy amount) v) := by
  have hcall : ∃ t, Vault.strategyWithdraw cfg.vault id strategy amount v = (.ok (), t) ∧
      EntryWritten id strategy v t := by
    simp only [Vault.strategyWithdraw, Call.bind_ok, Vault.vaultInfo_ok, Call.get_bind,
      Call.ensure_ok, Vault.onLedger_ok, Currency.transfer_ok, Call.modify_ok]
    exact ⟨_, ⟨vault, v, ⟨hvault, rfl⟩, (), v, ⟨h.1, rfl⟩, (), v, ⟨h.2.1, rfl⟩, (), _,
      ⟨_, ⟨h.2.2, rfl⟩, rfl⟩, rfl⟩, rfl, _, rfl⟩
  obtain ⟨t, ht, hwritten⟩ := hcall
  rw [dispatch, ht]
  exact hwritten

theorem strategyDeposit_entry {u : Unit}
    (h : Vault.strategyDeposit cfg.vault id strategy amount v = (.ok u, v')) :
    EntryWritten id strategy v v' := by
  obtain ⟨_, _, -, rfl⟩ := strategyDeposit_ok h
  exact ⟨rfl, _, rfl⟩

theorem strategyWithdraw_entry {u : Unit}
    (h : Vault.strategyWithdraw cfg.vault id strategy amount v = (.ok u, v')) :
    EntryWritten id strategy v v' := by
  obtain ⟨_, _, -, rfl⟩ := strategyWithdraw_ok h
  exact ⟨rfl, _, rfl⟩

end Written

/-! ## Block starts -/

section Blocks

variable {now market : Nat} {u : Unit}

/-- The turn of a market, whatever the vault answers, leaves an entry for it. -/
theorem initializeMarket_entry (h : initializeMarket cfg now market s = (.ok u, s')) :
    ∃ config, s.markets.lookup market = some config ∧ s'.markets = s.markets ∧
      EntryWritten config.borrow (cfg.accountId market) s.vault s'.vault := by
  simp only [initializeMarket_eq, Call.bind_ok, getMarket_ok] at h
  obtain ⟨config, s, ⟨hmarket, rfl⟩, _, _, haccrue, hbalance⟩ := h
  obtain ⟨index, index', accrued, -, -, rfl⟩ := accrueInterest_ok haccrue
  refine ⟨config, hmarket, ?_⟩
  -- Accruing interest touches neither the vaults nor their capital structure.
  have hmove : ∀ {v}, EntryWritten config.borrow (cfg.accountId market)
      (s.accrued cfg market index' accrued).vault v →
        EntryWritten config.borrow (cfg.accountId market) s.vault v :=
    fun hv => ⟨hv.vaults, hv.entry⟩
  obtain ⟨_, v, -, rfl, ⟨_, -, hv⟩ | ⟨_, _, -, -, hv⟩⟩ := balanceFunds_cases hbalance
  · exact ⟨rfl, hmove (strategyWithdraw_entry hv)⟩
  · exact ⟨rfl, hmove (strategyDeposit_entry hv)⟩

/-- The loop leaves an entry for every market it visits. -/
theorem initializeMarkets_entry {markets : List Nat} {config : MarketConfig A X}
    (h : initializeMarkets cfg now markets s = (.ok [], s')) (hmem : market ∈ markets)
    (hmarket : s.markets.lookup market = some config) :
    ((s'.vault.capitalStructure config.borrow).lookup (cfg.accountId market)).isSome = true := by
  induction markets generalizing s with
  | nil => cases hmem
  | cons first rest ih =>
      simp only [initializeMarkets, Call.bind_ok, Call.pure_ok] at h
      obtain ⟨error, t, hfirst, errors, _, hrest, hnil, rfl⟩ := h
      obtain ⟨herror, rfl⟩ := List.append_eq_nil_iff.mp hnil.symm
      obtain ⟨_, hturn⟩ := Call.attempt_ok (Option.toList_eq_nil_iff.mp herror ▸ hfirst)
      obtain ⟨c, hc, hsame, hwritten⟩ := initializeMarket_entry hturn
      by_cases heq : market = first
      · subst heq
        obtain rfl := Option.some.inj (hmarket.symm.trans hc)
        -- Its entry is there after its turn, and the later turns keep it.
        refine initializeMarkets_invariant (I := fun s : State A X F =>
          ((s.vault.capitalStructure config.borrow).lookup (cfg.accountId market)).isSome = true)
          (fun hsome hlater => ?_) hwritten.lookup hrest
        obtain ⟨_, -, -, hlater'⟩ := initializeMarket_entry hlater
        exact hlater'.isSome hsome
      · exact ih hrest ((List.mem_cons.mp hmem).resolve_left heq) (hsame ▸ hmarket)

/-- A block start that does not visit the strategy keeps it detached. -/
theorem initializeMarkets_detached {markets : List Nat} (hs : Detached id strategy s.vault)
    (hother : ∀ vault, s.vault.vaults id = some vault → Active vault → ∀ market config,
      s.markets.lookup market = some config →
        ¬ (config.borrow = id ∧ cfg.accountId market = strategy))
    (h : initializeMarkets cfg now markets s = (.ok [], s')) : Detached id strategy s'.vault := by
  have hloop := initializeMarkets_invariant
    (I := fun t => t.markets = s.markets ∧ t.vault.vaults = s.vault.vaults ∧
      Detached id strategy t.vault)
    (fun {t t' m u} ht hturn => ?_) ⟨rfl, rfl, hs⟩ h
  · exact hloop.2.2
  · obtain ⟨hmarkets, hvaults, hdetached⟩ := ht
    obtain ⟨config, hconfig, hsame, hwritten⟩ := initializeMarket_entry hturn
    refine ⟨hsame.trans hmarkets, hwritten.vaults.trans hvaults, hwritten.detached hdetached ?_⟩
    intro vault hvault hactive
    exact hother vault (hvaults ▸ hvault) hactive m config (hmarkets ▸ hconfig)

end Blocks

/-! ## Runs -/

variable {op : ClosingOp A}

/-- **An operation that does not reopen the strategy keeps it detached.** -/
theorem Detached.step (hs : Detached id strategy s.vault) (hop : KeepsClosed cfg id strategy s op)
    (hstep : closingStep cfg s op = some s') : Detached id strategy s'.vault := by
  cases op with
  | strategyDeposit id' strategy' amount =>
      obtain rfl := Option.some.inj hstep
      refine strategyDeposit_writes.detached hs fun vault hvault hactive => ?_
      rintro ⟨⟨rfl, rfl⟩, hpasses⟩
      exact hop vault hvault hactive ⟨⟨rfl, rfl⟩, hpasses⟩
  | strategyWithdraw id' strategy' amount =>
      obtain rfl := Option.some.inj hstep
      refine strategyWithdraw_writes.detached hs fun vault hvault hactive => ?_
      rintro ⟨⟨rfl, rfl⟩, hpasses⟩
      exact hop vault hvault hactive ⟨⟨rfl, rfl⟩, hpasses⟩
  | updateStrategyReport id' strategy' report =>
      obtain rfl := Option.some.inj hstep
      exact updateStrategyReport_writes.detached hs hop
  | deposit origin id' amount =>
      have hvault : vaultStep cfg s (.deposit origin id' amount) = some s' := hstep
      obtain ⟨v, hv, rfl⟩ := Option.map_eq_some_iff.mp hvault
      cases Vault.step_effect hv <;> exact hs
  | withdraw origin id' lpAmount =>
      have hvault : vaultStep cfg s (.withdraw origin id' lpAmount) = some s' := hstep
      obtain ⟨v, hv, rfl⟩ := Option.map_eq_some_iff.mp hvault
      cases Vault.step_effect hv <;> exact hs
  | initializeBlock now =>
      obtain ⟨u, hblock⟩ := Call.success_eq_some.mp hstep
      unfold initializeBlock at hblock
      split at hblock
      next t hloop =>
        cases hblock
        have hkeeps : Detached id strategy t.vault → Detached id strategy
          { t with lastBlockTimestamp := now }.vault := fun ht => ht
        refine hkeeps (initializeMarkets_detached hs
          (fun vault hvault hactive market config hmarket heq => ?_)
          hloop)
        refine hop vault hvault hactive ⟨⟨market, ?_, heq.2, ?_⟩, congrArg Prod.fst hloop⟩
        · exact AList.lookup_isSome.mp (hmarket ▸ rfl)
        · rw [hmarket, Option.map_some, heq.1]
      next =>
        cases hblock
        exact hs
      next => cases hblock

/-- With an entry in an active vault the strategy need not liquidate. -/
theorem not_closing_of_entry {vault : Vault.VaultInfo A X} (hvault : s.vault.vaults id = some vault)
    (hactive : Active vault)
    (hentry : ((s.vault.capitalStructure id).lookup strategy).isSome = true) :
    ¬ Closing cfg id strategy s := by
  intro hclosing
  obtain ⟨overview, hoverview⟩ := Option.isSome_iff_exists.mp hentry
  exact mustLiquidate_iff.mp hclosing.funds vault overview hvault hoverview hactive

/-- An operation that reopens the strategy ends its liquidation. -/
theorem reopened (hop : ¬ KeepsClosed cfg id strategy s op) :
    ∃ s', closingStep cfg s op = some s' ∧ ¬ Closing cfg id strategy s' := by
  simp only [KeepsClosed, not_forall, not_not] at hop
  obtain ⟨vault, hvault, hactive, hreopens⟩ := hop
  have hwritten : ∀ {v}, EntryWritten id strategy s.vault v →
      ¬ Closing cfg id strategy { s with vault := v } :=
    fun hv => not_closing_of_entry (hv.vaults ▸ hvault) hactive hv.lookup
  cases op with
  | strategyDeposit id' strategy' amount =>
      obtain ⟨⟨rfl, rfl⟩, hpasses⟩ := hreopens
      exact ⟨_, rfl, hwritten (strategyDeposit_passes hvault hpasses)⟩
  | strategyWithdraw id' strategy' amount =>
      obtain ⟨⟨rfl, rfl⟩, hpasses⟩ := hreopens
      exact ⟨_, rfl, hwritten (strategyWithdraw_passes hvault hpasses)⟩
  | updateStrategyReport id' strategy' report =>
      obtain ⟨rfl, rfl⟩ := hreopens
      exact ⟨_, rfl, hwritten updateStrategyReport_writes⟩
  | deposit origin id' amount => exact absurd hreopens not_false
  | withdraw origin id' lpAmount => exact absurd hreopens not_false
  | initializeBlock now =>
      obtain ⟨⟨market, hmem, rfl, hborrow⟩, hok⟩ := hreopens
      obtain ⟨config, hmarket, rfl⟩ := Option.map_eq_some_iff.mp hborrow
      rcases hloop : initializeMarkets cfg now (cfg.iteration s.markets.keys) s with ⟨r, t⟩
      rw [hloop] at hok
      obtain rfl : r = .ok [] := hok
      have hblock : initializeBlock cfg now s = (.ok (), { t with lastBlockTimestamp := now }) := by
        rw [initializeBlock, hloop]
      have hvaults : t.vault.vaults = s.vault.vaults :=
        initializeMarkets_invariant (I := fun t => t.vault.vaults = s.vault.vaults)
          (fun hsame hturn => by
            obtain ⟨_, -, -, hturn'⟩ := initializeMarket_entry hturn
            exact hturn'.vaults.trans hsame) rfl hloop
      have hentry := initializeMarkets_entry hloop ((cfg.iteration_perm _).mem_iff.mpr hmem) hmarket
      exact ⟨_, Call.success_eq_some.mpr ⟨(), hblock⟩,
        not_closing_of_entry (hvaults ▸ hvault) hactive hentry⟩

omit [DecidableEq X] in
/-- A liquidation leaves the vault as it was, and the strategy without an entry. -/
theorem liquidateStrategy_detached {origin : RawOrigin A} {balance : Nat} {v : Vault.State A X F}
    (h : Vault.liquidateStrategy origin id strategy s.vault = (.ok balance, v)) :
    Detached id strategy v := by
  simp only [Vault.liquidateStrategy, Call.bind_ok, ensureSigned_ok, Vault.vaultInfo_ok,
    Call.ensure_ok, Call.get_bind, Call.ofOption_ok, Call.modify_ok, Call.pure_ok, and_assoc,
    exists_and_left, exists_eq_left, exists_const] at h
  obtain ⟨sender, rfl, vault, hvault, -, _, -, -, rfl⟩ := h
  refine ⟨vault, hvault, fun _ => ?_⟩
  show (Function.update s.vault.capitalStructure id ((s.vault.capitalStructure id).erase strategy)
    id).lookup
    strategy = none
  rw [Function.update_self, AList.lookup_erase]

/-- **A liquidated strategy stays liquidated exactly as long as no operation
    writes its entry again.** -/
theorem closing_iff {origin : RawOrigin A} {balance : Nat} {v : Vault.State A X F}
    (h : Vault.liquidateStrategy origin id strategy s.vault = (.ok balance, v))
    (ops : List (ClosingOp A)) :
    Throughout (closingStep cfg) (Closing cfg id strategy) { s with vault := v } ops ↔
      Along (closingStep cfg) (KeepsClosed cfg id strategy) { s with vault := v } ops :=
  throughout_iff_along (I := fun s => Detached id strategy s.vault) (fun hs => .of_funds hs.closing)
    (fun hs hop hstep => hs.step hop hstep) (fun _ hop => reopened hop) (liquidateStrategy_detached h)

/-- Account `7` has created a market over vault `1`, whose strategy is the
    market's account `1003`. -/
def marketOps : List (Op Nat Nat) :=
  [.createMarket ⟨0, sampleOracle fun _ => 1⟩ (.signed 7) ⟨sampleInput, sampleInput_valid⟩]

theorem closing_iff_sample :
    ∃ s v, run (step sample) (State.genesis sampleLedger 100 0) marketOps = some s ∧
    Vault.liquidateStrategy (.signed 7) 1 1003 s.vault = (.ok 0, v) ∧
    Throughout (closingStep sample) (Closing sample 1 1003) { s with vault := v }
      [.deposit (.signed 3) 1 100, .withdraw (.signed 3) 1 50] := by
  have hview : (run (step sample) (State.genesis sampleLedger 100 0) marketOps).map
      (fun s => (Vault.liquidateStrategy (.signed 7) 1 1003 s.vault).1.toOption) = some (some 0) := by
    decide +kernel
  obtain ⟨s, hrun, hs⟩ := Option.map_eq_some_iff.mp hview
  rcases hcall : Vault.liquidateStrategy (.signed 7) 1 1003 s.vault with ⟨_ | balance, v⟩
  · rw [hcall] at hs
    cases hs
  · rw [hcall] at hs
    obtain rfl : balance = 0 := Option.some.inj hs
    refine ⟨s, v, hrun, hcall, (closing_iff hcall _).mpr ?_⟩
    exact ⟨fun _ _ _ h => h, fun _ _ => ⟨fun _ _ _ h => h, fun _ _ => trivial⟩⟩

/-- **Returning funds ends the liquidation**: after the market has paid back a part, the vault
    answers that it may keep the rest. -/
theorem liquidation_undone : ¬ ∀ ops s balance v closingOps s',
    run (step sample) (State.genesis sampleLedger 100 0) ops = some s →
    Vault.liquidateStrategy (.signed 7) 1 1003 s.vault = (.ok balance, v) →
    run (closingStep sample) { s with vault := v } closingOps = some s' →
      Closing sample 1 1003 s' := by
  intro hall
  have hview : (run (step sample) (State.genesis sampleLedger 100 0) marketOps).map
      (fun s => ((Vault.liquidateStrategy (.signed 7) 1 1003 s.vault).1.toOption,
        (run (closingStep sample) { s with
          vault := (Vault.liquidateStrategy (.signed 7) 1 1003 s.vault).2 }
          [.strategyDeposit 1 1003 400]).map
          fun s' => (Vault.availableFunds sample.vault 1 1003 s'.vault).1.toOption)) =
      some (some 0, some (some (.depositable 0))) := by
    decide +kernel
  obtain ⟨s, hrun, hs⟩ := Option.map_eq_some_iff.mp hview
  rcases hcall : Vault.liquidateStrategy (.signed 7) 1 1003 s.vault with ⟨_ | balance, v⟩
  · rw [hcall] at hs
    cases hs
  · rw [hcall] at hs
    obtain ⟨s', hrun', hfunds⟩ := Option.map_eq_some_iff.mp (Prod.mk.inj hs).2
    rw [(hall _ s balance v _ s' hrun hcall hrun').funds] at hfunds
    cases hfunds

end Lending
end Composable
