import Composable.Vault.Backing

/-!
# `Vault.Strategies` — what strategies do to the value of shares

The assets of a vault are counted in two places, its own balance and the balances recorded for its
strategies. A strategy operation moves funds and corrects the record by as much, so the sum stays:
unless the strategy is the vault's own account, for which nothing moves.

`liquidate_strategy` removes the record and moves nothing, so the recorded balance drops out of the
sum until the strategy has returned it (`strategy_movements_conserve_iff`).
-/

namespace Composable
namespace Vault

variable {A X F : Type} [DecidableEq A] [DecidableEq X]
variable {cfg : Config A X F} {s s' t t' : State A X F} {id amount : Nat} {vault : VaultInfo A X}
  {strategy : A}

/-! ## The value of a vault -/

/-- The assets under management and the value of LP tokens are the same in both states. -/
def SameValue (cfg : Config A X F) (id : Nat) (vault : VaultInfo A X) (s s' : State A X F) : Prop :=
  assets cfg s' id vault = assets cfg s id vault ∧
    ∀ lpAmount, (doLpShareValue cfg id vault lpAmount s').1 =
      (doLpShareValue cfg id vault lpAmount s).1

omit [DecidableEq A] [DecidableEq X] in
/-- The value of LP tokens depends on the assets and the issuance only. -/
theorem doLpShareValue_fst {lpAmount : Nat} : (doLpShareValue cfg id vault lpAmount s).1 =
    if assets cfg s id vault ≤ u128Max then
      (cfg.multiplyByRational lpAmount (assets cfg s id vault)
        (s.ledger.issuance vault.lpTokenId)).mapError
        fun _ => .arithmetic .overflow
    else .error .panic := by
  by_cases hfits : assets cfg s id vault ≤ u128Max
  · have haum : doAssetsUnderManagement cfg id vault s = (.ok (assets cfg s id vault), s) := by
      simp [doAssetsUnderManagement, hfits]
    rw [if_pos hfits, doLpShareValue, Call.bind_of_ok haum, Call.get_bind]
    cases cfg.multiplyByRational lpAmount (assets cfg s id vault)
      (s.ledger.issuance vault.lpTokenId) <;> rfl
  · rw [if_neg hfits]
    refine Call.error_of_outcome ?_
    simp [doLpShareValue, doAssetsUnderManagement, hfits]

omit [DecidableEq A] [DecidableEq X] in
/-- As long as no LP tokens are minted or burned, the value is that of the assets. -/
theorem sameValue_iff (h : s'.ledger.issuance vault.lpTokenId = s.ledger.issuance vault.lpTokenId) :
    SameValue cfg id vault s s' ↔ assets cfg s' id vault = assets cfg s id vault := by
  refine ⟨And.left, fun hassets => ⟨hassets, fun lpAmount => ?_⟩⟩
  rw [doLpShareValue_fst, doLpShareValue_fst, hassets, h]

/-! ## Movements of funds -/

/-- The storage after a strategy withdrew. -/
def State.strategyWithdrew (s : State A X F) (cfg : Config A X F) (id : Nat) (vault : VaultInfo A X)
    (strategy : A) (amount : Nat) : State A X F :=
  State.putStrategy
    { s with ledger := s.ledger.move vault.assetId (cfg.accountId id) strategy amount } id strategy
    { s.strategy id strategy with
      balance := (s.strategy id strategy).balance + amount
      lifetimeWithdrawn := (s.strategy id strategy).lifetimeWithdrawn + amount }

/-- The storage after a strategy deposited. -/
def State.strategyDeposited (s : State A X F) (cfg : Config A X F) (id : Nat)
    (vault : VaultInfo A X) (strategy : A) (amount : Nat) : State A X F :=
  State.putStrategy
    { s with ledger := s.ledger.move vault.assetId strategy (cfg.accountId id) amount } id strategy
    { s.strategy id strategy with
      balance := (s.strategy id strategy).balance - amount
      lifetimeDeposited := (s.strategy id strategy).lifetimeDeposited + amount }

theorem strategyWithdraw_ok {u : Unit} (hvault : s.vaults id = some vault)
    (h : strategyWithdraw cfg id strategy amount s = (.ok u, s')) :
    cfg.currency.transferRefused s.ledger vault.assetId (cfg.accountId id) strategy amount
      true = none ∧
      s' = s.strategyWithdrew cfg id vault strategy amount := by
  simp only [strategyWithdraw, Call.bind_ok, vaultInfo_ok, Call.get_bind, Call.ensure_ok, onLedger_ok,
    Currency.transfer_ok, Call.modify_ok] at h
  obtain ⟨_, _, ⟨hv, rfl⟩, _, _, ⟨-, rfl⟩, _, _, ⟨-, rfl⟩, _, _, ⟨_, ⟨hpaid, rfl⟩, rfl⟩, rfl⟩ := h
  obtain rfl := Option.some.inj (hvault.symm.trans hv)
  exact ⟨hpaid, rfl⟩

theorem strategyDeposit_ok {u : Unit} (hvault : s.vaults id = some vault)
    (h : strategyDeposit cfg id strategy amount s = (.ok u, s')) :
    cfg.currency.transferRefused s.ledger vault.assetId strategy (cfg.accountId id) amount
      true = none ∧
      s' = s.strategyDeposited cfg id vault strategy amount := by
  simp only [strategyDeposit, Call.bind_ok, vaultInfo_ok, Call.get_bind, Call.ensure_ok, onLedger_ok,
    Currency.transfer_ok, Call.modify_ok] at h
  obtain ⟨_, _, ⟨hv, rfl⟩, _, _, ⟨-, rfl⟩, _, _, ⟨_, ⟨hpaid, rfl⟩, rfl⟩, rfl⟩ := h
  obtain rfl := Option.some.inj (hvault.symm.trans hv)
  exact ⟨hpaid, rfl⟩

omit [DecidableEq X] in
/-- The assets are what the ledger has and what is recorded. -/
theorem assets_putStrategy (l : Ledger A X) {overview : StrategyOverview} {balance : Nat}
    (hbalance : overview.balance = balance) :
    assets cfg (State.putStrategy { s with ledger := l } id strategy overview) id vault +
        (s.strategy id strategy).balance =
      l.balance vault.assetId (cfg.accountId id) + outstanding s id + balance := by
  subst hbalance
  have hout := outstanding_putStrategy { s with ledger := l } id strategy overview
  change _ + (s.strategy id strategy).balance = outstanding s id + overview.balance at hout
  unfold assets
  show l.balance vault.assetId (cfg.accountId id) + _ + _ = _
  omega

/-- A withdrawal by a strategy keeps the assets, unless the vault withdraws from itself. -/
theorem assets_strategyWithdrew
    (hpaid : cfg.currency.transferRefused s.ledger vault.assetId (cfg.accountId id)
      strategy amount true = none) :
    assets cfg (s.strategyWithdrew cfg id vault strategy amount) id vault =
      assets cfg s id vault + if strategy = cfg.accountId id then amount else 0 := by
  have hrecord : assets cfg (s.strategyWithdrew cfg id vault strategy amount) id vault +
      (s.strategy id strategy).balance =
    (s.ledger.move vault.assetId (cfg.accountId id) strategy amount).balance vault.assetId
      (cfg.accountId id) +
      outstanding s id + ((s.strategy id strategy).balance + amount) := assets_putStrategy _ rfl
  have hassets : assets cfg s id vault =
      s.ledger.balance vault.assetId (cfg.accountId id) + outstanding s id := rfl
  split_ifs with hself
  · rw [hself, Ledger.move_self] at hrecord
    rw [hself]
    omega
  · have hfunded := cfg.currency.funded_of_transfer hpaid (Ne.symm hself)
    have hle : s.ledger.free vault.assetId (cfg.accountId id) ≤
        s.ledger.balance vault.assetId (cfg.accountId id) := Nat.le_add_right _ _
    rw [Ledger.balance_move_from (Ne.symm hself) hfunded] at hrecord
    omega

/-- A return adds to the assets, unless the vault returns to itself, and is taken off the
    record as far as it goes. -/
theorem assets_returned (cfg : Config A X F) (s : State A X F) (id : Nat) (vault : VaultInfo A X)
    (strategy : A) (amount : Nat) :
    assets cfg (s.strategyDeposited cfg id vault strategy amount) id vault +
      (s.strategy id strategy).balance =
      assets cfg s id vault + ((s.strategy id strategy).balance - amount) +
        if strategy = cfg.accountId id then 0 else amount := by
  have hrecord : assets cfg (s.strategyDeposited cfg id vault strategy amount) id vault +
      (s.strategy id strategy).balance =
    (s.ledger.move vault.assetId strategy (cfg.accountId id) amount).balance vault.assetId
      (cfg.accountId id) +
      outstanding s id + ((s.strategy id strategy).balance - amount) := assets_putStrategy _ rfl
  have hassets : assets cfg s id vault =
      s.ledger.balance vault.assetId (cfg.accountId id) + outstanding s id := rfl
  split_ifs with hself
  · rw [hself, Ledger.move_self] at hrecord
    rw [hself]
    omega
  · rw [Ledger.balance_move_to hself] at hrecord
    omega

/-- A return of at most what is recorded keeps them, unless the vault returns it to itself. -/
theorem assets_strategyDeposited (hrecorded : amount ≤ (s.strategy id strategy).balance) :
    assets cfg (s.strategyDeposited cfg id vault strategy amount) id vault +
      (if strategy = cfg.accountId id then amount else 0) = assets cfg s id vault := by
  have hreturned := assets_returned cfg s id vault strategy amount
  split_ifs at hreturned ⊢ <;> omega

/-- What is returned beyond the record adds to the assets. -/
theorem assets_strategyDeposited_of_zero (hrecorded : (s.strategy id strategy).balance = 0) :
    assets cfg (s.strategyDeposited cfg id vault strategy amount) id vault =
      assets cfg s id vault + if strategy = cfg.accountId id then 0 else amount := by
  have hreturned := assets_returned cfg s id vault strategy amount
  rw [hrecorded, Nat.zero_sub] at hreturned
  exact hreturned

/-! ## Liquidations -/

omit [DecidableEq X] in
theorem liquidateStrategy_ok {origin : RawOrigin A} {balance : Nat}
    (h : liquidateStrategy origin id strategy s = (.ok balance, s')) :
    balance = (s.strategy id strategy).balance ∧
      (∃ overview, (s.capitalStructure id).lookup strategy = some overview) ∧
        s' = s.eraseStrategy id strategy := by
  simp only [liquidateStrategy, Call.bind_ok, ensureSigned_ok, vaultInfo_ok, Call.ensure_ok,
    Call.get_bind, Call.ofOption_ok, Call.modify_ok, Call.pure_ok] at h
  obtain ⟨_, _, ⟨-, rfl⟩, _, _, ⟨-, rfl⟩, _, _, ⟨-, rfl⟩, overview, _, ⟨hentry, rfl⟩, _, _, rfl,
    rfl, rfl⟩ := h
  refine ⟨?_, ⟨overview, hentry⟩, rfl⟩
  rw [State.strategy, StorageMap.getD, hentry]
  rfl

omit [DecidableEq X] in
/-- With its record a strategy takes its balance out of the assets. -/
theorem assets_eraseStrategy {overview : StrategyOverview}
    (hentry : (s.capitalStructure id).lookup strategy = some overview) :
    assets cfg (s.eraseStrategy id strategy) id vault + (s.strategy id strategy).balance =
      assets cfg s id vault := by
  have hout := outstanding_eraseStrategy hentry
  have hrecorded : (s.strategy id strategy).balance = overview.balance := by
    rw [State.strategy, StorageMap.getD, hentry]
    rfl
  show s.ledger.balance vault.assetId (cfg.accountId id) + _ + _ =
    s.ledger.balance vault.assetId (cfg.accountId id) + _
  omega

omit [DecidableEq X] in
/-- A strategy without a record has nothing recorded. -/
theorem strategy_of_lookup_none (h : (s.capitalStructure id).lookup strategy = none) :
    (s.strategy id strategy).balance = 0 := by
  rw [State.strategy, StorageMap.getD, h]
  rfl

/-! ## What conserves the value -/

theorem sameValue_strategyWithdrew
    (hpaid : cfg.currency.transferRefused s.ledger vault.assetId (cfg.accountId id)
      strategy amount true = none) :
    SameValue cfg id vault s (s.strategyWithdrew cfg id vault strategy amount) ↔
      amount = 0 ∨ strategy ≠ cfg.accountId id := by
  have hissued : (s.strategyWithdrew cfg id vault strategy amount).ledger.issuance vault.lpTokenId =
      s.ledger.issuance vault.lpTokenId := rfl
  rw [sameValue_iff hissued, assets_strategyWithdrew hpaid]
  split_ifs with hself <;> simp [hself]

theorem sameValue_strategyDeposited (hrecorded : amount ≤ (s.strategy id strategy).balance) :
    SameValue cfg id vault s (s.strategyDeposited cfg id vault strategy amount) ↔
      amount = 0 ∨ strategy ≠ cfg.accountId id := by
  have hissued : (s.strategyDeposited cfg id vault strategy amount).ledger.issuance vault.lpTokenId =
      s.ledger.issuance vault.lpTokenId := rfl
  rw [sameValue_iff hissued, ← assets_strategyDeposited hrecorded]
  split_ifs with hself
  · simp only [hself, ne_eq, not_true_eq_false, or_false]
    omega
  · simp [hself]

omit [DecidableEq X] in
theorem sameValue_eraseStrategy {overview : StrategyOverview}
    (hentry : (s.capitalStructure id).lookup strategy = some overview) :
    SameValue cfg id vault s (s.eraseStrategy id strategy) ↔
      (s.strategy id strategy).balance = 0 := by
  have hissued : (s.eraseStrategy id strategy).ledger.issuance vault.lpTokenId =
      s.ledger.issuance vault.lpTokenId := rfl
  have herased : assets cfg (s.eraseStrategy id strategy) id vault + _ = _ :=
    assets_eraseStrategy hentry
  rw [sameValue_iff hissued]
  omega

/-- What a strategy returns that has lost its record makes up for the record. -/
theorem sameValue_returned {overview : StrategyOverview}
    (hentry : (s.capitalStructure id).lookup strategy = some overview)
    (hgone : (t.capitalStructure id).lookup strategy = none)
    (hpool : pool cfg t id vault = pool cfg (s.eraseStrategy id strategy) id vault) :
    SameValue cfg id vault s
      (t.strategyDeposited cfg id vault strategy (s.strategy id strategy).balance) ↔
      (s.strategy id strategy).balance = 0 ∨ strategy ≠ cfg.accountId id := by
  obtain ⟨hassets, hissuance⟩ := Pool.mk.inj hpool
  have hissued :
      (t.strategyDeposited cfg id vault strategy (s.strategy id strategy).balance).ledger.issuance
      vault.lpTokenId = s.ledger.issuance vault.lpTokenId := hissuance
  have herased : assets cfg (s.eraseStrategy id strategy) id vault + _ = _ :=
    assets_eraseStrategy hentry
  rw [sameValue_iff hissued,
    assets_strategyDeposited_of_zero (strategy_of_lookup_none hgone), ← herased]
  split_ifs with hself
  · rw [or_iff_left (not_not_intro hself), hassets]
    omega
  · refine iff_of_true ?_ (.inr hself)
    omega

/-- **When strategies conserve the value of a vault.** A withdrawal of any amount and a return of at
    most the recorded balance do exactly if they are of nothing, or the strategy is not the vault's
    own account. A liquidation does exactly if nothing is recorded. With a return of just what was
    recorded, after which the vault is otherwise as the liquidation left it, the value is again what
    it was before, unless the vault returns something to itself. -/
theorem strategy_movements_conserve_iff (cfg : Config A X F) {s : State A X F} {id : Nat}
    {vault : VaultInfo A X} (hvault : s.vaults id = some vault) (strategy : A) :
    (∀ amount s', strategyWithdraw cfg id strategy amount s = (.ok (), s') →
      (SameValue cfg id vault s s' ↔ amount = 0 ∨ strategy ≠ cfg.accountId id)) ∧
    (∀ amount s', amount ≤ (s.strategy id strategy).balance →
      strategyDeposit cfg id strategy amount s = (.ok (), s') →
      (SameValue cfg id vault s s' ↔ amount = 0 ∨ strategy ≠ cfg.accountId id)) ∧
    ∀ origin balance s', liquidateStrategy origin id strategy s = (.ok balance, s') →
      (SameValue cfg id vault s s' ↔ (s.strategy id strategy).balance = 0) ∧
      ∀ t t', t.vaults id = some vault → (t.capitalStructure id).lookup strategy = none →
        pool cfg t id vault = pool cfg s' id vault →
        strategyDeposit cfg id strategy (s.strategy id strategy).balance t = (.ok (), t') →
        (SameValue cfg id vault s t' ↔
          (s.strategy id strategy).balance = 0 ∨ strategy ≠ cfg.accountId id) := by
  refine ⟨fun amount s' h => ?_, fun amount s' hrecorded h => ?_, fun origin balance s' h => ?_⟩
  · obtain ⟨hpaid, rfl⟩ := strategyWithdraw_ok hvault h
    exact sameValue_strategyWithdrew hpaid
  · obtain ⟨-, rfl⟩ := strategyDeposit_ok hvault h
    exact sameValue_strategyDeposited hrecorded
  · obtain ⟨-, ⟨overview, hentry⟩, rfl⟩ := liquidateStrategy_ok h
    -- A liquidated strategy is worth nothing until its funds are back.
    refine ⟨sameValue_eraseStrategy hentry, fun t t' hvault' hgone hpool hreturn => ?_⟩
    obtain ⟨-, rfl⟩ := strategyDeposit_ok hvault' hreturn
    exact sameValue_returned hentry hgone hpool

/-! ## A liquidation -/

/-- The strategy has withdrawn half of what was deposited. -/
def investedOps : List (Op Nat Nat) := [.deposit (.signed 7) 1 100, .strategyWithdraw 1 8 50]

theorem invested : ∃ s, run (step sampleFree) sampleFresh investedOps = some s ∧
    s.vaults 1 = some sampleFreshInfo ∧ (s.strategy 1 8).balance = 50 ∧
    assets sampleFree s 1 sampleFreshInfo = 100 ∧ ∃ s',
      liquidateStrategy (.signed 7) 1 8 s = (.ok 50, s') ∧
        assets sampleFree s' 1 sampleFreshInfo = 50 ∧
        (doLpShareValue sampleFree 1 sampleFreshInfo 100 s).1 = .ok 100 ∧
        (doLpShareValue sampleFree 1 sampleFreshInfo 100 s').1 = .ok 50 ∧
        s'.vaults 1 = some sampleFreshInfo ∧ (s'.capitalStructure 1).lookup 8 = none ∧
        ∃ t', strategyDeposit sampleFree 1 8 50 s' = (.ok (), t') := by
  have hview : (run (step sampleFree) sampleFresh investedOps).map (fun s =>
      let r := liquidateStrategy (.signed 7) 1 8 s
      decide ((s.vaults 1 = some sampleFreshInfo ∧ (s.strategy 1 8).balance = 50 ∧
        assets sampleFree s 1 sampleFreshInfo = 100) ∧ r.1 = .ok 50 ∧
        assets sampleFree r.2 1 sampleFreshInfo = 50 ∧
        (doLpShareValue sampleFree 1 sampleFreshInfo 100 s).1 = .ok 100 ∧
        (doLpShareValue sampleFree 1 sampleFreshInfo 100 r.2).1 = .ok 50 ∧
        r.2.vaults 1 = some sampleFreshInfo ∧
        ((r.2.capitalStructure 1).lookup 8).isNone = true ∧
        (strategyDeposit sampleFree 1 8 50 r.2).1 = .ok ())) =
      some true := by
    decide +kernel
  obtain ⟨s, hrun, hs⟩ := Option.map_eq_some_iff.mp hview
  simp only [decide_eq_true_eq, Option.isNone_iff_eq_none] at hs
  obtain ⟨⟨hvault, hrecorded, hassets⟩, hreturns, hleft, hworth, hworth', hvault', hgone, hpaid⟩ := hs
  exact ⟨s, hrun, hvault, hrecorded, hassets, _, Prod.ext hreturns rfl, hleft, hworth, hworth',
    hvault', hgone, _, Prod.ext hpaid rfl⟩

theorem strategy_movements_conserve_sample : ∃ s s' t',
    run (step sampleFree) sampleFresh investedOps = some s ∧
      liquidateStrategy (.signed 7) 1 8 s = (.ok 50, s') ∧
      strategyDeposit sampleFree 1 8 50 s' = (.ok (), t') ∧
      ¬ SameValue sampleFree 1 sampleFreshInfo s s' ∧
      SameValue sampleFree 1 sampleFreshInfo s t' := by
  obtain ⟨s, hrun, hvault, hrecorded, -, s', hliquidated, -, -, -, hvault', hgone, t', hreturned⟩ :=
    invested
  have hmovements :=
    (strategy_movements_conserve_iff sampleFree hvault 8).2.2 (.signed 7) 50 s' hliquidated
  rw [hrecorded] at hmovements
  refine ⟨s, s', t', hrun, hliquidated, hreturned,
    fun hsame => absurd (hmovements.1.mp hsame) (by decide), ?_⟩
  exact (hmovements.2 s' t' hvault' hgone rfl hreturned).mpr (.inr (by decide))

/-- **A liquidation halves the value of the shares**: the strategy still has the other half. -/
theorem liquidation_devalues : ∃ s s', run (step sampleFree) sampleFresh investedOps = some s ∧
    liquidateStrategy (.signed 7) 1 8 s = (.ok 50, s') ∧
    assets sampleFree s 1 sampleFreshInfo = 100 ∧ assets sampleFree s' 1 sampleFreshInfo = 50 ∧
    (doLpShareValue sampleFree 1 sampleFreshInfo 100 s).1 = .ok 100 ∧
    (doLpShareValue sampleFree 1 sampleFreshInfo 100 s').1 = .ok 50 := by
  obtain ⟨s, hrun, -, -, hassets, s', hliquidated, hleft, hworth, hworth', -⟩ := invested
  exact ⟨s, s', hrun, hliquidated, hassets, hleft, hworth, hworth'⟩

end Vault
end Composable
