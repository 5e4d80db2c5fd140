import Composable.Vault.Shares

/-!
# `Vault.Backing` — assets under management and issued LP tokens

`doDeposit` mints one LP token per unit when nothing is under management, on the assumption that
there are then no outstanding LP tokens. The assumption is that the pool of the vault is `Balanced`.

`Backed.step` goes through what a user, a strategy or the manager can do to the vault, and
`KeepsBacking` collects what each has to leave out: profits returned to a vault without LP tokens,
reports and strategy liquidations that write off everything while LP tokens are out, withdrawals of
nearly all LP tokens that are rounded up to everything, and calls that fail half-way in the ledger.
-/

namespace Composable
namespace Vault

variable {A X F : Type} [DecidableEq A] [DecidableEq X]
variable {cfg : Config A X F} {s s' : State A X F} {id : Nat} {vault : VaultInfo A X} {op : Op A X}

/-! ## Operations on the funds of vaults -/

/-- The operations of users, strategies and managers on the funds of vaults, by accounts other than
    that of vault `id`, so that nothing is donated to it. -/
def FundOp (cfg : Config A X F) (id : Nat) : Op A X → Prop
  | .deposit origin _ _ => origin ≠ .signed (cfg.accountId id)
  | .withdraw origin _ _ => origin ≠ .signed (cfg.accountId id)
  | .strategyWithdraw _ strategy _ => strategy ≠ cfg.accountId id
  | .strategyDeposit _ strategy _ => strategy ≠ cfg.accountId id
  | .updateStrategyReport _ _ _ => True
  | .liquidateStrategy _ _ _ => True
  | _ => False

/-- The value of some of the issued LP tokens is not rounded up to all the assets: it is rounded
    down, or what is left out is worth half a unit. -/
def LeavesAssets (lpAmount assets issuance : Nat) : Prop :=
  Fixed.RoundedDown lpAmount assets issuance ∨ issuance ≤ 2 * ((issuance - lpAmount) * assets)

instance (lpAmount assets issuance : Nat) : Decidable (LeavesAssets lpAmount assets issuance) :=
  inferInstanceAs (Decidable (_ ∨ _))

/-- What an operation on vault `id` has to leave out for its pool to stay balanced. -/
def KeepsBacking (cfg : Config A X F) (id : Nat) (vault : VaultInfo A X) (s : State A X F) :
    Op A X → Prop
  | .deposit (.signed sender) id' amount =>
      -- The first deposit is not kept without minting for it.
      id' = id → s.ledger.issuance vault.lpTokenId = 0 →
        cfg.currency.mintRefused (s.ledger.move vault.assetId sender (cfg.accountId id) amount)
          vault.lpTokenId sender amount = none
  | .withdraw (.signed recipient) id' lpAmount =>
      -- The last LP tokens are not burnt without paying for them, and fewer do not take everything.
      id' = id → (lpAmount = s.ledger.issuance vault.lpTokenId →
          cfg.currency.transferRefused (s.ledger.burn vault.lpTokenId recipient lpAmount)
            vault.assetId
            (cfg.accountId id) recipient (assets cfg s id vault) true = none) ∧
        (lpAmount < s.ledger.issuance vault.lpTokenId →
          LeavesAssets lpAmount (assets cfg s id vault) (s.ledger.issuance vault.lpTokenId))
  | .strategyDeposit id' _ amount => id' = id → s.ledger.issuance vault.lpTokenId = 0 → amount = 0
  | .updateStrategyReport id' strategy report =>
      id' = id → (s.ledger.issuance vault.lpTokenId = 0 → report = 0) ∧
        (0 < s.ledger.issuance vault.lpTokenId → report = 0 →
          (s.strategy id strategy).balance < assets cfg s id vault)
  | .liquidateStrategy origin id' strategy =>
      id' = id → 0 < s.ledger.issuance vault.lpTokenId → origin = .signed vault.manager →
        ∀ overview, (s.capitalStructure id).lookup strategy = some overview →
          overview.balance < assets cfg s id vault
  | _ => True

/-- **What is left out is not paid.** -/
theorem quotient_lt_iff {lpAmount assets issuance : Nat} (hlp : lpAmount < issuance)
    (hassets : 0 < assets) :
    Fixed.quotient lpAmount assets issuance < assets ↔ LeavesAssets lpAmount assets issuance := by
  have hpos : 0 < issuance := Nat.zero_lt_of_lt hlp
  have hless : lpAmount * assets < assets * issuance :=
    Nat.mul_comm issuance assets ▸ Nat.mul_lt_mul_of_pos_right hlp hassets
  have hat : Fixed.quotient lpAmount assets issuance = assets ↔
      ¬ LeavesAssets lpAmount assets issuance := by
    have hpart := Nat.mul_le_mul_right assets hlp.le
    rw [Nat.mul_comm issuance assets] at hpart
    rw [Fixed.quotient_eq_iff hpos, LeavesAssets, Nat.sub_mul, Nat.mul_comm issuance assets]
    split
    next hdown =>
      exact iff_of_false (fun h => absurd h.1 (Nat.not_le.mpr hless)) (not_not.mpr (.inl hdown))
    next hdown =>
        rw [not_or, and_iff_right hdown]
        omega
  have hle : Fixed.quotient lpAmount assets issuance ≤ assets := Fixed.quotient_le hless.le
  rw [hle.lt_iff_ne, Ne, hat, not_not]

/-- All but one of `2 * 10 ^ 20` LP tokens over `9 * 10 ^ 19` assets are paid everything. -/
example : Fixed.quotient (2 * 10 ^ 20 - 1) (9 * 10 ^ 19) (2 * 10 ^ 20) = 9 * 10 ^ 19 ∧
    ¬ LeavesAssets (2 * 10 ^ 20 - 1) (9 * 10 ^ 19) (2 * 10 ^ 20) := by
  decide +kernel

/-! ## The pool after each effect -/

omit [DecidableEq A] [DecidableEq X] in
/-- The pool over another ledger. -/
theorem pool_withLedger (l : Ledger A X) : pool cfg { s with ledger := l } id vault =
    ⟨l.balance vault.assetId (cfg.accountId id) + outstanding s id, l.issuance vault.lpTokenId⟩ := rfl

omit [DecidableEq A] [DecidableEq X] in
/-- A ledger that agrees on the vault's account and LP token gives the same pool. -/
theorem pool_frame {l : Ledger A X}
    (hbalance : l.balance vault.assetId (cfg.accountId id) =
      s.ledger.balance vault.assetId (cfg.accountId id))
    (hissuance : l.issuance vault.lpTokenId = s.ledger.issuance vault.lpTokenId) :
    pool cfg { s with ledger := l } id vault = pool cfg s id vault := by
  rw [pool_withLedger, hbalance, hissuance]
  rfl

omit [DecidableEq X] in
/-- Rewriting a strategy replaces its balance in the sum of the balances. -/
theorem outstanding_putStrategy (s : State A X F) (id : Nat) (strategy : A)
    (overview : StrategyOverview) :
    outstanding (s.putStrategy id strategy overview) id + (s.strategy id strategy).balance =
      outstanding s id + overview.balance := by
  have hshare : (s.strategy id strategy).balance =
      StorageMap.share (fun _ o => o.balance) (s.capitalStructure id) strategy := by
    unfold State.strategy StorageMap.getD StorageMap.share
    cases (s.capitalStructure id).lookup strategy <;> rfl
  have hself : (s.putStrategy id strategy overview).capitalStructure id =
      (s.capitalStructure id).insert strategy overview := Function.update_self ..
  rw [hshare, outstanding, hself]
  exact StorageMap.total_insert

omit [DecidableEq X] in
theorem outstanding_putStrategy_ne {id' : Nat} (h : id ≠ id') (s : State A X F) (strategy : A)
    (overview : StrategyOverview) :
    outstanding (s.putStrategy id' strategy overview) id = outstanding s id := by
  have hother : (s.putStrategy id' strategy overview).capitalStructure id = s.capitalStructure id :=
    Function.update_of_ne h ..
  rw [outstanding, hother, outstanding]

omit [DecidableEq X] in
/-- Removing a strategy takes its balance out of the sum. -/
theorem outstanding_eraseStrategy {strategy : A} {overview : StrategyOverview}
    (h : (s.capitalStructure id).lookup strategy = some overview) :
    outstanding (s.eraseStrategy id strategy) id + overview.balance = outstanding s id := by
  have hself : (s.eraseStrategy id strategy).capitalStructure id =
      (s.capitalStructure id).erase strategy := Function.update_self ..
  rw [outstanding, hself, ← StorageMap.share_of_lookup (f := fun _ o => o.balance) h]
  exact StorageMap.total_erase

omit [DecidableEq X] in
/-- One strategy holds at most what all hold. -/
theorem strategy_balance_le (s : State A X F) (id : Nat) (strategy : A) :
    (s.strategy id strategy).balance ≤ outstanding s id := by
  have h := outstanding_putStrategy s id strategy ⟨0, 0, 0, 0⟩
  simp only [Nat.add_zero] at h
  omega

/-- What a withdrawal by a strategy takes from the vault's account it adds to its own balance. -/
theorem pool_strategyWithdrew {strategy : A} {amount : Nat} {overview : StrategyOverview}
    (hne : strategy ≠ cfg.accountId id)
    (hfunded : amount ≤ s.ledger.free vault.assetId (cfg.accountId id))
    (hoverview : overview.balance = (s.strategy id strategy).balance + amount) :
    pool cfg (State.putStrategy
      { s with ledger := s.ledger.move vault.assetId (cfg.accountId id) strategy amount } id strategy
      overview) id vault = pool cfg s id vault := by
  have hout := outstanding_putStrategy
    { s with ledger := s.ledger.move vault.assetId (cfg.accountId id) strategy amount } id
      strategy overview
  have hold := strategy_balance_le s id strategy
  have hle : s.ledger.free vault.assetId (cfg.accountId id) ≤
      s.ledger.balance vault.assetId (cfg.accountId id) := Nat.le_add_right _ _
  simp only [pool, Pool.mk.injEq]
  refine ⟨?_, rfl⟩
  show (s.ledger.move vault.assetId (cfg.accountId id) strategy amount).balance vault.assetId
    (cfg.accountId id) + _ = _
  rw [Ledger.balance_move_from hne.symm hfunded]
  unfold assets
  change _ + (s.strategy id strategy).balance = outstanding s id + _ at hout
  omega

/-- What a strategy returns beyond its balance is profit of the pool. -/
theorem pool_strategyDeposited {strategy : A} {amount : Nat} {overview : StrategyOverview}
    (hne : strategy ≠ cfg.accountId id)
    (hoverview : overview.balance = (s.strategy id strategy).balance - amount) :
    pool cfg (State.putStrategy
      { s with ledger := s.ledger.move vault.assetId strategy (cfg.accountId id) amount } id strategy
      overview) id vault =
      ⟨assets cfg s id vault + (amount - (s.strategy id strategy).balance),
        s.ledger.issuance vault.lpTokenId⟩ := by
  have hout := outstanding_putStrategy
    { s with ledger := s.ledger.move vault.assetId strategy (cfg.accountId id) amount } id
      strategy overview
  have hold := strategy_balance_le s id strategy
  simp only [pool, Pool.mk.injEq]
  refine ⟨?_, rfl⟩
  show (s.ledger.move vault.assetId strategy (cfg.accountId id) amount).balance vault.assetId
    (cfg.accountId id) + _ = _
  rw [Ledger.balance_move_to hne]
  unfold assets
  change _ + (s.strategy id strategy).balance = outstanding s id + _ at hout
  omega

/-! ## Every step keeps the pool balanced -/

/-- What holds of vault `id` along a run of operations on funds. -/
structure Backed (cfg : Config A X F) (id : Nat) (vault : VaultInfo A X) (s : State A X F) :
    Prop where
  registered : Registered cfg s
  vault_eq : s.vaults id = some vault
  balanced : (pool cfg s id vault).Balanced

omit [DecidableEq A] [DecidableEq X] in
/-- The tokens minted for a positive amount are positive. -/
theorem LpMinted.pos {aum issuance amount lp : Nat} (h : LpMinted cfg aum issuance amount lp)
    (hamount : 0 < amount) : 0 < lp := by
  rcases h with ⟨-, rfl⟩ | ⟨-, hpos, -⟩
  · exact hamount
  · exact hpos

/-- A deposit, complete or not, keeps the pool of the vault balanced. -/
theorem Backed.after_deposit {sender : A} {amount : Nat} (h : Backed cfg id vault s) {id' : Nat}
    (hne : sender ≠ cfg.accountId id)
    (hkeep : KeepsBacking cfg id vault s (.deposit (.signed sender) id' amount))
    (heffect : Effect cfg s (.deposit (.signed sender) id' amount) s') :
    (pool cfg s' id vault).Balanced := by
  cases heffect with
  | idle => exact h.balanced
  | @deposited _ _ _ vault' lp hd =>
      by_cases hid : id' = id
      · subst hid
        obtain rfl : vault = vault' := Option.some.inj (h.vault_eq.symm.trans hd.vault_eq)
        rw [pool_depositedLedger s vault amount lp hne]
        have hpos : 0 < amount := Nat.zero_lt_of_lt hd.minimum
        exact Pool.Balanced.join (p := pool cfg s id' vault) hpos (hd.shares.pos hpos)
      · -- Another vault: neither the account nor the LP token is that of vault `id`.
        have hlp : vault.lpTokenId ≠ vault'.lpTokenId :=
          fun heq => hid (h.registered.distinct h.vault_eq hd.vault_eq heq).symm
        rw [pool_frame]
        · exact h.balanced
        · rw [depositedLedger, Ledger.balance_mint_of_ne hne.symm,
            Ledger.balance_move_of_ne hne.symm (h.registered.accountId_ne h.vault_eq hd.vault_eq hid)]
        · simp [depositedLedger, hlp]
  | @unminted _ _ _ vault' lp hmin hvault hlp hpaid hrefused =>
      by_cases hid : id' = id
      · subst hid
        obtain rfl : vault = vault' := Option.some.inj (h.vault_eq.symm.trans hvault)
        rw [pool_withLedger, Ledger.balance_move_to hne]
        -- With no LP token out there are no assets, so the refused mint was one of `amount`.
        have hissued : s.ledger.issuance vault.lpTokenId ≠ 0 := by
          intro hzero
          have haum : assets cfg s id' vault = 0 := h.balanced.mpr hzero
          rcases hlp with ⟨-, rfl⟩ | ⟨hpos, -⟩
          · exact hrefused (hkeep rfl hzero)
          · omega
        exact iff_of_false (by have := Nat.zero_lt_of_lt hmin; simp; omega) hissued
      · rw [pool_frame]
        · exact h.balanced
        · rw [Ledger.balance_move_of_ne hne.symm (h.registered.accountId_ne h.vault_eq hvault hid)]
        · rfl

/-- A withdrawal, complete or not, keeps the pool of the vault balanced. -/
theorem Backed.after_withdraw (hmul : cfg.multiplyByRational = Fixed.multiplyByRational)
    {recipient : A} {lpAmount : Nat} (h : Backed cfg id vault s) {id' : Nat}
    (hne : recipient ≠ cfg.accountId id)
    (hkeep : KeepsBacking cfg id vault s (.withdraw (.signed recipient) id' lpAmount))
    (heffect : Effect cfg s (.withdraw (.signed recipient) id' lpAmount) s') :
    (pool cfg s' id vault).Balanced := by
  cases heffect with
  | idle => exact h.balanced
  | @withdrawn _ _ _ vault' value hw =>
      by_cases hid : id' = id
      · subst hid
        obtain rfl : vault = vault' := Option.some.inj (h.vault_eq.symm.trans hw.vault_eq)
        rw [(pool_withdrawnLedger hne hw.paid).1]
        have hburnt := (cfg.currency.funded_of_burn hw.burnt).2
        have hpos : 0 < lpAmount := Nat.zero_lt_of_lt hw.minimum
        have hworth := hw.worth
        rw [hmul] at hworth
        obtain ⟨-, rfl⟩ := (Fixed.multiplyByRational_ok (Nat.lt_of_lt_of_le hpos hburnt)).mp hworth
        refine h.balanced.leave hpos hburnt (fun hall => ?_) fun hlt hassets => ?_
        · exact hall ▸ Fixed.quotient_self (Nat.lt_of_lt_of_le hpos hburnt)
        · exact (quotient_lt_iff hlt hassets).mpr ((hkeep rfl).2 hlt)
      · have hlp : vault.lpTokenId ≠ vault'.lpTokenId :=
          fun heq => hid (h.registered.distinct h.vault_eq hw.vault_eq heq).symm
        rw [pool_frame]
        · exact h.balanced
        · rw [withdrawnLedger,
            Ledger.balance_move_of_ne (h.registered.accountId_ne h.vault_eq hw.vault_eq hid) hne.symm,
            Ledger.balance_burn_of_ne hne.symm]
        · simp [withdrawnLedger, hlp]
  | @unpaid _ _ _ vault' value hmin hvault hworth hburnt hrefused =>
      by_cases hid : id' = id
      · subst hid
        obtain rfl : vault = vault' := Option.some.inj (h.vault_eq.symm.trans hvault)
        have hle := (cfg.currency.funded_of_burn hburnt).2
        have hpos : 0 < s.ledger.issuance vault.lpTokenId := by omega
        rw [hmul] at hworth
        have hvalue := ((Fixed.multiplyByRational_ok hpos).mp hworth).2
        -- The burnt tokens were not all there are: those are worth all assets and get paid.
        have hlt : lpAmount ≠ s.ledger.issuance vault.lpTokenId := by
          intro hall
          refine hrefused ?_
          rw [hvalue, hall, Fixed.quotient_self hpos, ← hall]
          exact (hkeep rfl).1 hall
        rw [pool_withLedger, Ledger.balance_burn_of_ne hne.symm]
        have hassets : assets cfg s id' vault ≠ 0 := fun h0 => hpos.ne' (h.balanced.mp h0)
        exact iff_of_false hassets (by simp; omega)
      · have hlp : vault.lpTokenId ≠ vault'.lpTokenId :=
          fun heq => hid (h.registered.distinct h.vault_eq hvault heq).symm
        rw [pool_frame]
        · exact h.balanced
        · rw [Ledger.balance_burn_of_ne hne.symm]
        · simp [hlp]

/-- A strategy that takes out funds moves them within the pool. -/
theorem Backed.after_strategyWithdraw {strategy : A} {amount : Nat} (h : Backed cfg id vault s)
    {id' : Nat} (hne : strategy ≠ cfg.accountId id)
    (heffect : Effect cfg s (.strategyWithdraw id' strategy amount) s') :
    (pool cfg s' id vault).Balanced := by
  cases heffect with
  | idle => exact h.balanced
  | @strategyWithdrew _ _ _ vault' hvault hpaid =>
      by_cases hid : id' = id
      · subst hid
        obtain rfl : vault = vault' := Option.some.inj (h.vault_eq.symm.trans hvault)
        rw [pool_strategyWithdrew hne (cfg.currency.funded_of_transfer hpaid hne.symm) rfl]
        exact h.balanced
      · have haccount := h.registered.accountId_ne h.vault_eq hvault hid
        have hout := outstanding_putStrategy_ne (Ne.symm hid)
          { s with ledger := s.ledger.move vault'.assetId (cfg.accountId id') strategy amount }
            strategy
        simp only [pool, assets, hout]
        show Pool.Balanced ⟨(s.ledger.move _ _ _ _).balance _ _ + outstanding s id, _⟩
        rw [Ledger.balance_move_of_ne haccount hne.symm]
        exact h.balanced

/-- A strategy that returns funds adds at most its profit, and only to a vault with LP tokens. -/
theorem Backed.after_strategyDeposit {strategy : A} {amount : Nat} (h : Backed cfg id vault s)
    {id' : Nat} (hne : strategy ≠ cfg.accountId id)
    (hkeep : KeepsBacking cfg id vault s (.strategyDeposit id' strategy amount))
    (heffect : Effect cfg s (.strategyDeposit id' strategy amount) s') :
    (pool cfg s' id vault).Balanced := by
  cases heffect with
  | idle => exact h.balanced
  | @strategyDeposited _ _ _ vault' hvault hpaid =>
      by_cases hid : id' = id
      · subst hid
        obtain rfl : vault = vault' := Option.some.inj (h.vault_eq.symm.trans hvault)
        rw [pool_strategyDeposited hne rfl]
        by_cases hzero : s.ledger.issuance vault.lpTokenId = 0
        · have haum : assets cfg s id' vault = 0 := h.balanced.mpr hzero
          obtain rfl := hkeep rfl hzero
          exact iff_of_true (by simp [haum]) hzero
        · have haum : assets cfg s id' vault ≠ 0 := fun h0 => hzero (h.balanced.mp h0)
          exact iff_of_false (by simp [haum]) hzero
      · have haccount := h.registered.accountId_ne h.vault_eq hvault hid
        have hout := outstanding_putStrategy_ne (Ne.symm hid)
          { s with ledger := s.ledger.move vault'.assetId strategy (cfg.accountId id') amount }
            strategy
        simp only [pool, assets, hout]
        show Pool.Balanced ⟨(s.ledger.move _ _ _ _).balance _ _ + outstanding s id, _⟩
        rw [Ledger.balance_move_of_ne hne.symm haccount]
        exact h.balanced

/-- A report replaces the strategy's balance in the assets. -/
theorem Backed.after_report {strategy : A} {report : Nat} (h : Backed cfg id vault s) {id' : Nat}
    (hkeep : KeepsBacking cfg id vault s (.updateStrategyReport id' strategy report))
    (heffect : Effect cfg s (.updateStrategyReport id' strategy report) s') :
    (pool cfg s' id vault).Balanced := by
  cases heffect with
  | idle => exact h.balanced
  | reported =>
      by_cases hid : id' = id
      · subst hid
        obtain ⟨hempty, hissued⟩ := hkeep rfl
        have hout :=
          outstanding_putStrategy s id' strategy ((s.strategy id' strategy).withBalance report)
        have hle := strategy_balance_le s id' strategy
        have hassets : (pool cfg (s.putStrategy id' strategy
            ((s.strategy id' strategy).withBalance report)) id' vault).assets +
            (s.strategy id' strategy).balance = assets cfg s id' vault + report := by
          show s.ledger.balance _ _ + outstanding _ id' + _ = s.ledger.balance _ _ + _ + _
          change _ = _ + report at hout
          omega
        by_cases hzero : s.ledger.issuance vault.lpTokenId = 0
        · have haum : assets cfg s id' vault = 0 := h.balanced.mpr hzero
          have hreport := hempty hzero
          exact iff_of_true (by omega) hzero
        · have hbal := hissued (Nat.pos_of_ne_zero hzero)
          refine iff_of_false (fun h0 => ?_) hzero
          have hle' : (s.strategy id' strategy).balance ≤ assets cfg s id' vault :=
            Nat.le_trans hle (Nat.le_add_left _ _)
          have := hbal (by omega)
          omega
      · have hout := outstanding_putStrategy_ne (Ne.symm hid) s strategy
        simp only [pool, assets, hout]
        exact h.balanced

/-- A strategy that is liquidated is written off the assets. -/
theorem Backed.after_liquidateStrategy {origin : RawOrigin A} {strategy : A}
    (h : Backed cfg id vault s)
    {id' : Nat} (hkeep : KeepsBacking cfg id vault s (.liquidateStrategy origin id' strategy))
    (heffect : Effect cfg s (.liquidateStrategy origin id' strategy) s') :
    (pool cfg s' id vault).Balanced := by
  cases heffect with
  | idle => exact h.balanced
  | @strategyLiquidated sender _ _ vault' overview hvault hmanager hoverview =>
      by_cases hid : id' = id
      · subst hid
        obtain rfl : vault = vault' := Option.some.inj (h.vault_eq.symm.trans hvault)
        have herase := outstanding_eraseStrategy hoverview
        have hassets : (pool cfg (s.eraseStrategy id' strategy) id' vault).assets + overview.balance =
            assets cfg s id' vault := by
          show s.ledger.balance _ _ + outstanding _ id' + _ = s.ledger.balance _ _ + _
          omega
        by_cases hzero : s.ledger.issuance vault.lpTokenId = 0
        · have haum : assets cfg s id' vault = 0 := h.balanced.mpr hzero
          exact iff_of_true (by omega) hzero
        · have hlt := hkeep rfl (Nat.pos_of_ne_zero hzero) (by rw [hmanager]) overview hoverview
          exact iff_of_false (by omega) hzero
      · have hother : (s.eraseStrategy id' strategy).capitalStructure id = s.capitalStructure id :=
          Function.update_of_ne (Ne.symm hid) ..
        simp only [pool, assets, outstanding, hother]
        exact h.balanced

/-- **A step on funds that leaves out what `KeepsBacking` excludes keeps the vault backed.** -/
theorem Backed.step (hmul : cfg.multiplyByRational = Fixed.multiplyByRational)
    (h : Backed cfg id vault s) (hfund : FundOp cfg id op)
    (hkeep : KeepsBacking cfg id vault s op) (hstep : Vault.step cfg s op = some s') :
    Backed cfg id vault s' := by
  have heffect := step_effect hstep
  refine ⟨h.registered.step hstep, ?_, ?_⟩
  · -- None of these operations touches the vaults.
    cases heffect <;> first | exact h.vault_eq | exact False.elim hfund
  · cases op with
    | deposit origin id' amount =>
        cases origin with
        | signed sender => exact h.after_deposit (fun heq => hfund (heq ▸ rfl)) hkeep heffect
        | _ => cases heffect; exact h.balanced
    | withdraw origin id' lpAmount =>
        cases origin with
        | signed recipient => exact h.after_withdraw hmul (fun heq => hfund (heq ▸ rfl)) hkeep heffect
        | _ => cases heffect; exact h.balanced
    | strategyWithdraw id' strategy amount => exact h.after_strategyWithdraw hfund heffect
    | strategyDeposit id' strategy amount => exact h.after_strategyDeposit hfund hkeep heffect
    | updateStrategyReport id' strategy report => exact h.after_report hkeep heffect
    | liquidateStrategy origin id' strategy => exact h.after_liquidateStrategy hkeep heffect
    | _ => exact False.elim hfund

/-! ## What the fast path rests on -/

/-- In a balanced vault without assets, the LP tokens of a deposit are worth the deposit. -/
theorem Backed.redeemable (hmul : cfg.multiplyByRational = Fixed.multiplyByRational) {user : A}
    {amount lp : Nat} {t : State A X F} (h : Backed cfg id vault s)
    (hne : user ≠ cfg.accountId id) (hamount : amount ≤ u128Max) (haum : assets cfg s id vault = 0)
    (hdeposit : deposit cfg id user amount s = (.ok lp, t)) :
    doLpShareValue cfg id vault lp t = (.ok amount, t) := by
  obtain ⟨vault', hd, rfl⟩ := deposit_ok.mp hdeposit
  obtain rfl : vault = vault' := Option.some.inj (h.vault_eq.symm.trans hd.vault_eq)
  have hissued : s.ledger.issuance vault.lpTokenId = 0 := h.balanced.mp haum
  have hpool := pool_depositedLedger s vault amount lp hne
  obtain rfl : lp = amount := by
    rcases hd.shares with ⟨-, hlp⟩ | ⟨hpos, -⟩
    · exact hlp
    · omega
  simp only [pool, Pool.mk.injEq, haum, hissued, Nat.zero_add] at hpool
  have hpos : 0 < lp := Nat.zero_lt_of_lt hd.minimum
  rw [doLpShareValue_ok, hpool.1, hpool.2, hmul, Fixed.multiplyByRational_ok hpos,
    Fixed.quotient_self hpos]
  exact ⟨⟨hamount, hamount, rfl⟩, rfl⟩

/-- A balanced vault without LP tokens accepts every deposit above the minimum that the ledger can
    carry out. -/
theorem Backed.accepts {user : A} {amount : Nat} (h : Backed cfg id vault s)
    (hissued : s.ledger.issuance vault.lpTokenId = 0) (hmin : cfg.minimumDeposit < amount)
    (hallowed : vault.capabilities.depositsAllowed = true)
    (havail : cfg.currency.canWithdraw vault.assetId user amount s.ledger = true)
    (hmintable : cfg.currency.canDeposit vault.lpTokenId user amount s.ledger = true)
    (hpaid : cfg.currency.transferRefused s.ledger vault.assetId user (cfg.accountId id) amount true
      = none)
    (hminted : cfg.currency.mintRefused (s.ledger.move vault.assetId user (cfg.accountId id) amount)
      vault.lpTokenId user amount = none) :
    ∃ t, deposit cfg id user amount s = (.ok amount, t) := by
  have haum : assets cfg s id vault = 0 := h.balanced.mpr hissued
  refine ⟨_, deposit_ok.mpr ⟨vault, ⟨hmin, h.vault_eq, hallowed, havail, ?_, ?_, hmintable, hpaid,
    hminted⟩, rfl⟩⟩
  · rw [haum]
    exact Nat.zero_le _
  · exact .inl ⟨haum, rfl⟩

/-- **A vault stays backed along every run that leaves out what `KeepsBacking` excludes.** From any
    reachable state in which it has assets exactly when it has LP tokens, the two stay together; a
    deposit made while nothing is under management can be redeemed in full, and a vault without LP
    tokens accepts deposits above the minimum. -/
theorem vault_stays_backed (cfg : Config A X F)
    (hmul : cfg.multiplyByRational = Fixed.multiplyByRational)
    (ledger : Ledger A X) (factory : F) {setup ops : List (Op A X)} {s s' : State A X F} {id : Nat}
    {vault : VaultInfo A X} (hsetup : run (step cfg) (State.genesis ledger factory) setup = some s)
    (hvault : s.vaults id = some vault)
    (hstart : assets cfg s id vault = 0 ↔ s.ledger.issuance vault.lpTokenId = 0)
    (hops : Along (step cfg) (fun t op => FundOp cfg id op ∧ KeepsBacking cfg id vault t op) s ops)
    (hrun : run (step cfg) s ops = some s') :
    (assets cfg s' id vault = 0 ↔ s'.ledger.issuance vault.lpTokenId = 0) ∧
      (∀ user amount lp t, user ≠ cfg.accountId id → amount ≤ u128Max → assets cfg s' id vault = 0 →
        deposit cfg id user amount s' = (.ok lp, t) →
        doLpShareValue cfg id vault lp t = (.ok amount, t)) ∧
      (∀ user amount, s'.ledger.issuance vault.lpTokenId = 0 → cfg.minimumDeposit < amount →
        vault.capabilities.depositsAllowed = true →
        cfg.currency.canWithdraw vault.assetId user amount s'.ledger = true →
        cfg.currency.canDeposit vault.lpTokenId user amount s'.ledger = true →
        cfg.currency.transferRefused s'.ledger vault.assetId user (cfg.accountId id) amount
          true = none →
        cfg.currency.mintRefused (s'.ledger.move vault.assetId user (cfg.accountId id) amount)
          vault.lpTokenId user amount = none →
        ∃ t, deposit cfg id user amount s' = (.ok amount, t)) := by
  have hregistered : Registered cfg s := Registered.of_run ledger factory hsetup
  have hbacked : Backed cfg id vault s' :=
    run_invariant (fun h hop hstep => h.step hmul hop.1 hop.2 hstep) ⟨hregistered, hvault,
      hstart⟩ hops hrun
  -- Both consequences are about the last state, in which the equivalence holds.
  exact ⟨hbacked.balanced, fun _ _ _ _ hne hamount haum hd =>
    hbacked.redeemable hmul hne hamount haum hd,
    fun _ _ hissued hmin hallowed havail hmintable hpaid hminted =>
      hbacked.accepts hissued hmin hallowed havail hmintable hpaid hminted⟩

/-- The configuration over a ledger without existential deposits. -/
def sampleFree : Config Nat Nat Nat :=
  { sample with
    currency := Currency.existential fun _ => 0
    currency_exact := inferInstance }

/-- A vault fresh from its creation. -/
def sampleFresh : State Nat Nat Nat :=
  (run (step sampleFree) sampleGenesis [.create 0 (.signed 7) sampleVault 15]).getD sampleGenesis

def sampleFreshInfo : VaultInfo Nat Nat := ⟨1, 100, 7, .rent 5 0, .default⟩

theorem run_sampleFresh :
    run (step sampleFree) sampleGenesis
      [.create 0 (.signed 7) sampleVault 15] = some sampleFresh := by
  have hsome : (run (step sampleFree) sampleGenesis
      [.create 0 (.signed 7) sampleVault 15]).isSome = true := by
    decide +kernel
  obtain ⟨s, hs⟩ := Option.isSome_iff_exists.mp hsome
  rw [sampleFresh, hs]
  rfl

/-- The first deposit, and a withdrawal of part of it. -/
theorem vault_stays_backed_sample :
    ∃ s', run (step sampleFree) sampleFresh
      [.deposit (.signed 7) 1 100, .withdraw (.signed 7) 1 30] = some s' ∧
      (assets sampleFree s' 1 sampleFreshInfo = 0 ↔
        s'.ledger.issuance sampleFreshInfo.lpTokenId = 0) := by
  have hsigner : RawOrigin.signed 7 ≠ .signed (sampleFree.accountId 1) := fun heq =>
    absurd (RawOrigin.signed.inj heq) (by decide)
  have hrun :
      run (step sampleFree) sampleFresh [.deposit (.signed 7) 1 100, .withdraw (.signed 7) 1 30] =
      some (dispatch (withdrawExtrinsic sampleFree (.signed 7) 1 30)
        (dispatch (depositExtrinsic sampleFree (.signed 7) 1 100) sampleFresh)) := rfl
  refine ⟨_, hrun, (vault_stays_backed sampleFree rfl _ _ run_sampleFresh ?_ ?_ ?_ hrun).1⟩
  · decide +kernel
  · decide +kernel
  · refine ⟨⟨hsigner, fun _ _ => by decide +kernel⟩, fun t ht => ⟨⟨hsigner, ?_⟩, fun _ _ => trivial⟩⟩
    obtain rfl := Option.some.inj ht
    exact fun _ => ⟨fun hall => absurd hall (by decide +kernel), fun _ => by decide +kernel⟩

/-- The strategy takes all that was deposited and is then liquidated by the manager. -/
def writeOffOps : List (Op Nat Nat) :=
  [.deposit (.signed 7) 1 100, .strategyWithdraw 1 8 100, .liquidateStrategy (.signed 7) 1 8]

/-- The vault then has no assets but `100` LP tokens, and a deposit of `100` is worth `50`. -/
theorem vault_unbacked :
    ¬ ∀ ops s, (∀ op ∈ ops, FundOp sampleFree 1 op) → run (step sampleFree) sampleFresh ops = some s →
      (assets sampleFree s 1 sampleFreshInfo = 0 ↔
        s.ledger.issuance sampleFreshInfo.lpTokenId = 0) ∧
      ∀ lp t, deposit sampleFree 1 7 100 s = (.ok lp, t) →
        doLpShareValue sampleFree 1 sampleFreshInfo lp t = (.ok 100, t) := by
  intro h
  have hview : (run (step sampleFree) sampleFresh writeOffOps).map
      (fun s => (assets sampleFree s 1 sampleFreshInfo,
        s.ledger.issuance sampleFreshInfo.lpTokenId)) =
      some (0, 100) := by
    decide +kernel
  obtain ⟨s, hs, hview⟩ := Option.map_eq_some_iff.mp hview
  rw [Prod.mk.injEq] at hview
  have hfund : ∀ op ∈ writeOffOps, FundOp sampleFree 1 op := by
    intro op hop
    simp only [writeOffOps, List.mem_cons, List.not_mem_nil, or_false] at hop
    rcases hop with rfl | rfl | rfl
    · exact fun heq => absurd (RawOrigin.signed.inj heq) (by decide)
    · exact fun heq => absurd heq (by decide)
    · trivial
  have hiff := (h writeOffOps s hfund hs).1
  omega

end Vault
end Composable
