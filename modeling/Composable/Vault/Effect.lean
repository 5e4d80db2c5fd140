import Composable.Support.Run
import Composable.Vault.Model

/-!
# `Vault.Effect` — what one operation of the vault pallet can do

The operations of the pallet as one step function, and `Effect`, the list of everything a step can
do to the storage: each constructor is one way a call ends, with the checks that were passed on the
way. `step_effect` is the only place where the calls are taken apart; the invariants of the pallet
are proved by cases on `Effect`.
-/

namespace Composable
namespace Vault

variable {A X F : Type}

/-! ## Operations -/

/-- One call on the pallet. Block numbers are those of the block the call is in; the strategy
    operations are those of the `StrategicVault` interface. -/
inductive Op (A X : Type) where
  | create (now : Nat) (origin : RawOrigin A) (config : VaultConfig A X) (amount : Nat)
  | deposit (origin : RawOrigin A) (id amount : Nat)
  | withdraw (origin : RawOrigin A) (id lpAmount : Nat)
  | claimSurcharge (now : Nat) (origin : RawOrigin A) (id : Nat) (address : Option A)
  | addSurcharge (now : Nat) (origin : RawOrigin A) (id amount : Nat)
  | deleteTombstoned (now : Nat) (origin : RawOrigin A) (id : Nat) (address : Option A)
  | emergencyShutdown (origin : RawOrigin A) (id : Nat)
  | start (origin : RawOrigin A) (id : Nat)
  | strategyWithdraw (id : Nat) (strategy : A) (amount : Nat)
  | strategyDeposit (id : Nat) (strategy : A) (amount : Nat)
  | updateStrategyReport (id : Nat) (strategy : A) (report : Nat)
  | liquidateStrategy (origin : RawOrigin A) (id : Nat) (strategy : A)

/-- The storage after one operation, whether it returned or failed. -/
def step [DecidableEq A] [DecidableEq X] (cfg : Config A X F) (s : State A X F) :
    Op A X → Option (State A X F)
  | .create now origin config amount =>
      some (dispatch (createExtrinsic cfg now origin config amount) s)
  | .deposit origin id amount => some (dispatch (depositExtrinsic cfg origin id amount) s)
  | .withdraw origin id lpAmount => some (dispatch (withdrawExtrinsic cfg origin id lpAmount) s)
  | .claimSurcharge now origin id address =>
      some (dispatch (claimSurcharge cfg now origin id address) s)
  | .addSurcharge now origin id amount => some (dispatch (addSurcharge cfg now origin id amount) s)
  | .deleteTombstoned now origin id address =>
      some (dispatch (deleteTombstoned cfg now origin id address) s)
  | .emergencyShutdown origin id => some (dispatch (emergencyShutdown origin id) s)
  | .start origin id => some (dispatch (startExtrinsic origin id) s)
  | .strategyWithdraw id strategy amount =>
      some (dispatch (strategyWithdraw cfg id strategy amount) s)
  | .strategyDeposit id strategy amount => some (dispatch (strategyDeposit cfg id strategy amount) s)
  | .updateStrategyReport id strategy report =>
      some (dispatch (updateStrategyReport id strategy report) s)
  | .liquidateStrategy origin id strategy => some (dispatch (liquidateStrategy origin id strategy) s)

/-! ## Rules for the building blocks -/

section Rules

variable {s s' : State A X F} {α : Type} {Q : DispatchError Error → State A X F → Prop}

@[simp] theorem onLedger_ok {f : TokenError → DispatchError Error}
    {x : Call (Ledger A X) TokenError α} {a : α} : onLedger f x s = (.ok a, s') ↔
      ∃ l, x s.ledger = (.ok a, l) ∧ s' = { s with ledger := l } := Call.zoom_ok

@[simp] theorem onLedger_outcome {f : TokenError → DispatchError Error}
    {x : Call (Ledger A X) TokenError α} {P : α → State A X F → Prop} :
    Call.Outcome P Q (onLedger f x s) ↔
      Call.Outcome (fun a l => P a { s with ledger := l }) (fun e l => Q (f e) { s with ledger := l })
        (x s.ledger) := Call.outcome_zoom

@[simp] theorem vaultInfo_ok {id : Nat} {vault : VaultInfo A X} :
    vaultInfo id s = (.ok vault, s') ↔ s.vaults id = some vault ∧ s' = s := by
  simp [vaultInfo]

theorem vaultInfo_reads {id : Nat} : (vaultInfo id : VaultCall A X F _).Reads := fun s =>
  Call.Reads.ofOption (s.vaults id) (err .vaultDoesNotExist) s

@[simp] theorem vaultInfo_outcome {id : Nat} {P : VaultInfo A X → State A X F → Prop} :
    Call.Outcome P Q (vaultInfo id s) ↔
      (∀ vault, s.vaults id = some vault → P vault s) ∧
        (s.vaults id = none → Q (err .vaultDoesNotExist) s) := by
  simp [vaultInfo]

/-- The LP tokens a deposit is worth, when it is accepted. -/
def LpMinted (cfg : Config A X F) (aum issuance amount lp : Nat) : Prop :=
  (aum = 0 ∧ lp = amount) ∨
    (0 < aum ∧ 0 < lp ∧ cfg.multiplyByRational amount issuance aum = .ok lp)

theorem lpForDeposit_outcome {vault : VaultInfo A X} {t : State A X F} {aum amount : Nat}
    {P : Nat → State A X F → Prop}
    (hok : ∀ lp, LpMinted cfg aum (t.ledger.issuance vault.lpTokenId) amount lp → P lp s)
    (herr : ∀ e, Q e s) :
    Call.Outcome P Q (lpForDeposit cfg t vault aum amount s) := by
  unfold lpForDeposit
  by_cases h0 : aum = 0
  · rw [if_pos h0]
    exact hok amount (.inl ⟨h0, rfl⟩)
  · rw [if_neg h0]
    cases hlp : cfg.multiplyByRational amount (t.ledger.issuance vault.lpTokenId) aum with
    | error e => exact herr _
    | ok lp =>
        simp only [Call.outcome_bind, Call.outcome_ensure, Call.outcome_pure]
        exact ⟨fun hlp0 => hok lp (.inr ⟨Nat.pos_of_ne_zero h0, hlp0, hlp⟩), fun _ => herr _⟩

theorem lpForDeposit_ok {vault : VaultInfo A X} {t : State A X F} {aum amount lp : Nat} :
    lpForDeposit cfg t vault aum amount s = (.ok lp, s') ↔
      LpMinted cfg aum (t.ledger.issuance vault.lpTokenId) amount lp ∧ s' = s := by
  unfold lpForDeposit LpMinted
  by_cases h0 : aum = 0
  · simp [h0]
  · rw [if_neg h0]
    cases hlp : cfg.multiplyByRational amount (t.ledger.issuance vault.lpTokenId) aum with
    | error e => simp [h0]
    | ok m =>
        simp only [Call.bind_ok, Call.ensure_ok, Call.pure_ok, h0, false_and, false_or,
          Nat.pos_of_ne_zero h0, true_and, Except.ok.injEq]
        constructor
        · rintro ⟨_, _, ⟨hpos, rfl⟩, rfl, rfl⟩
          exact ⟨⟨hpos, rfl⟩, rfl⟩
        · rintro ⟨⟨hpos, rfl⟩, rfl⟩
          exact ⟨(), _, ⟨hpos, rfl⟩, rfl, rfl⟩

end Rules

/-! ## Effects -/

variable [DecidableEq A] [DecidableEq X]

/-- The ledger after a user's deposit. -/
def depositedLedger (cfg : Config A X F) (l : Ledger A X) (id : Nat) (vault : VaultInfo A X)
    (sender : A) (amount lp : Nat) : Ledger A X :=
  (l.move vault.assetId sender (cfg.accountId id) amount).mint vault.lpTokenId sender lp

/-- The ledger after a user's withdrawal. -/
def withdrawnLedger (cfg : Config A X F) (l : Ledger A X) (id : Nat) (vault : VaultInfo A X)
    (recipient : A) (lpAmount value : Nat) : Ledger A X :=
  (l.burn vault.lpTokenId recipient lpAmount).move vault.assetId (cfg.accountId id) recipient value

/-- All that `deposit` checks before it returns. -/
structure Deposited (cfg : Config A X F) (s : State A X F) (id : Nat) (sender : A) (amount : Nat)
    (vault : VaultInfo A X) (lp : Nat) : Prop where
  minimum : cfg.minimumDeposit < amount
  vault_eq : s.vaults id = some vault
  allowed : vault.capabilities.depositsAllowed = true
  available : cfg.currency.canWithdraw vault.assetId sender amount s.ledger = true
  fits : assets cfg s id vault ≤ u128Max
  shares : LpMinted cfg (assets cfg s id vault) (s.ledger.issuance vault.lpTokenId) amount lp
  mintable : cfg.currency.canDeposit vault.lpTokenId sender lp s.ledger = true
  paid : cfg.currency.transferRefused s.ledger vault.assetId sender (cfg.accountId id) amount
    true = none
  minted : cfg.currency.mintRefused (s.ledger.move vault.assetId sender (cfg.accountId id) amount)
    vault.lpTokenId sender lp = none

/-- All that `withdraw` checks before it returns. -/
structure Withdrawn (cfg : Config A X F) (s : State A X F) (id : Nat) (recipient : A) (lpAmount : Nat)
    (vault : VaultInfo A X) (value : Nat) : Prop where
  minimum : cfg.minimumWithdrawal < lpAmount
  vault_eq : s.vaults id = some vault
  allowed : vault.capabilities.withdrawalsAllowed = true
  fits : assets cfg s id vault ≤ u128Max
  worth : cfg.multiplyByRational lpAmount (assets cfg s id vault)
    (s.ledger.issuance vault.lpTokenId) = .ok value
  liquid : value ≤ s.ledger.balance vault.assetId (cfg.accountId id)
  burnable : cfg.currency.canWithdraw vault.lpTokenId recipient lpAmount s.ledger = true
  available : cfg.currency.canWithdraw vault.assetId (cfg.accountId id) value s.ledger = true
  burnt : cfg.currency.burnRefused s.ledger vault.lpTokenId recipient lpAmount = none
  paid : cfg.currency.transferRefused (s.ledger.burn vault.lpTokenId recipient lpAmount) vault.assetId
    (cfg.accountId id) recipient value true = none

/-- What the deletion of a vault pays out. -/
def deletionReward (cfg : Config A X F) (s : State A X F) (id : Nat) : Nat :=
  cfg.currency.reducible s.ledger cfg.nativeAsset (cfg.deletionRewardAccount id) false

/-- The ledger after that payment. -/
def rewardedLedger (cfg : Config A X F) (s : State A X F) (id : Nat) (reward : A) : Ledger A X :=
  s.ledger.move cfg.nativeAsset (cfg.deletionRewardAccount id) reward (deletionReward cfg s id)

/-- All that `deleteTombstoned` checks before it deletes. -/
structure Deletable (cfg : Config A X F) (s : State A X F) (now : Nat) (origin : RawOrigin A)
    (id : Nat) (address : Option A) (vault : VaultInfo A X) (reward : A) : Prop where
  claimed : rewardAddress origin address = some reward
  vault_eq : s.vaults id = some vault
  tombstoned : vault.capabilities.isTombstoned = true
  expired : evaluateDeletion cfg now vault.deposit = true
  paid : cfg.currency.transferRefused s.ledger cfg.nativeAsset (cfg.deletionRewardAccount id) reward
    (deletionReward cfg s id) false = none

/-- What is left in the rent account when a vault is evicted. -/
def evictionReward (cfg : Config A X F) (s : State A X F) (id : Nat) : Nat :=
  cfg.currency.reducible s.ledger cfg.nativeAsset (cfg.rentAccount id) false

/-- The ledger after it has been paid out. -/
def evictedLedger (cfg : Config A X F) (s : State A X F) (id : Nat) (reward : A) : Ledger A X :=
  s.ledger.move cfg.nativeAsset (cfg.rentAccount id) reward (evictionReward cfg s id)

/-- All that `claimSurcharge` checks before it tombstones a vault. -/
structure Evictable (cfg : Config A X F) (s : State A X F) (now : Nat) (origin : RawOrigin A)
    (id : Nat) (address : Option A) (vault : VaultInfo A X) (reward : A) : Prop where
  claimed : rewardAddress origin address = some reward
  vault_eq : s.vaults id = some vault
  verdict : evaluateEviction cfg now vault.deposit = .evict
  paid : cfg.currency.transferRefused s.ledger cfg.nativeAsset (cfg.rentAccount id) reward
    (evictionReward cfg s id) false = none

/-- Everything an operation can do to the storage. -/
inductive Effect (cfg : Config A X F) (s : State A X F) : Op A X → State A X F → Prop where
  | idle {op} : Effect cfg s op s
  | created {now sender config amount lpTokenId factory} (deposit : Deposit) (rent : Nat)
      (hcount : s.vaultCount < u64Max)
      (hsum : allocationSum config = some perquintillOne)
      (hlp : cfg.currencyFactory.create s.factory .lpTokens = .ok (lpTokenId, factory)) :
      Effect cfg s (.create now (.signed sender) config amount)
        { s.addVault lpTokenId factory deposit config with
          ledger := (s.ledger.move cfg.nativeAsset sender
              (cfg.deletionRewardAccount (s.vaultCount + 1)) cfg.creationDeposit).move cfg.nativeAsset
            sender (cfg.rentAccount (s.vaultCount + 1)) rent }
  | deposited {sender id amount vault lp} (hdeposited : Deposited cfg s id sender amount vault lp) :
      Effect cfg s (.deposit (.signed sender) id amount)
        { s with ledger := depositedLedger cfg s.ledger id vault sender amount lp }
  | unminted {sender id amount vault lp}
      (hmin : cfg.minimumDeposit < amount)
      (hvault : s.vaults id = some vault)
      (hlp : LpMinted cfg (assets cfg s id vault) (s.ledger.issuance vault.lpTokenId) amount lp)
      (hpaid : cfg.currency.transferRefused s.ledger vault.assetId sender (cfg.accountId id)
        amount true = none)
      (hrefused : cfg.currency.mintRefused
        (s.ledger.move vault.assetId sender (cfg.accountId id) amount) vault.lpTokenId sender
          lp ≠ none) :
      Effect cfg s (.deposit (.signed sender) id amount)
        { s with ledger := s.ledger.move vault.assetId sender (cfg.accountId id) amount }
  | withdrawn {recipient id lpAmount vault value}
      (hwithdrawn : Withdrawn cfg s id recipient lpAmount vault value) :
      Effect cfg s (.withdraw (.signed recipient) id lpAmount)
        { s with ledger := withdrawnLedger cfg s.ledger id vault recipient lpAmount value }
  | unpaid {recipient id lpAmount vault value}
      (hmin : cfg.minimumWithdrawal < lpAmount)
      (hvault : s.vaults id = some vault)
      (hworth : cfg.multiplyByRational lpAmount (assets cfg s id vault)
        (s.ledger.issuance vault.lpTokenId) = .ok value)
      (hburnt : cfg.currency.burnRefused s.ledger vault.lpTokenId recipient lpAmount = none)
      (hrefused : cfg.currency.transferRefused (s.ledger.burn vault.lpTokenId recipient lpAmount)
        vault.assetId (cfg.accountId id) recipient value true ≠ none) :
      Effect cfg s (.withdraw (.signed recipient) id lpAmount)
        { s with ledger := s.ledger.burn vault.lpTokenId recipient lpAmount }
  | evicted {now origin id address vault reward}
      (hevictable : Evictable cfg s now origin id address vault reward) :
      Effect cfg s (.claimSurcharge now origin id address)
        (State.putVault { s with ledger := evictedLedger cfg s id reward } id
          { vault with deposit := .rent 0 now, capabilities := vault.capabilities.setTombstoned })
  | charged {now origin id address vault remaining payable} (reward : A)
      (hvault : s.vaults id = some vault)
      (hverdict : evaluateEviction cfg now vault.deposit = .charge remaining payable) :
      Effect cfg s (.claimSurcharge now origin id address)
        (State.putVault
          { s with ledger := s.ledger.move cfg.nativeAsset (cfg.rentAccount id) reward payable } id
          { vault with deposit := .rent remaining now })
  | surcharged {now sender id amount vault} (deposit : Deposit)
      (hvault : s.vaults id = some vault) :
      Effect cfg s (.addSurcharge now (.signed sender) id amount)
        (State.putVault
          { s with ledger := s.ledger.move cfg.nativeAsset sender (cfg.rentAccount id) amount } id
          { vault with deposit := deposit, capabilities := vault.capabilities.untombstone })
  | deleted {now origin id address vault reward}
      (hdeletable : Deletable cfg s now origin id address vault reward) :
      Effect cfg s (.deleteTombstoned now origin id address)
        (State.removeVault { s with ledger := rewardedLedger cfg s id reward } id vault)
  | stopped {id vault} (hvault : s.vaults id = some vault) :
      Effect cfg s (.emergencyShutdown .root id)
        (s.putVault id { vault with capabilities := vault.capabilities.setStopped })
  | started {id vault} (hvault : s.vaults id = some vault) :
      Effect cfg s (.start .root id)
        (s.putVault id { vault with capabilities := vault.capabilities.start })
  | strategyWithdrew {id strategy amount vault}
      (hvault : s.vaults id = some vault)
      (hpaid : cfg.currency.transferRefused s.ledger vault.assetId (cfg.accountId id) strategy amount
        true = none) :
      Effect cfg s (.strategyWithdraw id strategy amount)
        (State.putStrategy
          { s with ledger := s.ledger.move vault.assetId (cfg.accountId id) strategy amount }
            id strategy
          { s.strategy id strategy with
            balance := (s.strategy id strategy).balance + amount
            lifetimeWithdrawn := (s.strategy id strategy).lifetimeWithdrawn + amount })
  | strategyDeposited {id strategy amount vault}
      (hvault : s.vaults id = some vault)
      (hpaid : cfg.currency.transferRefused s.ledger vault.assetId strategy (cfg.accountId id) amount
        true = none) :
      Effect cfg s (.strategyDeposit id strategy amount)
        (State.putStrategy
          { s with ledger := s.ledger.move vault.assetId strategy (cfg.accountId id) amount }
            id strategy
          { s.strategy id strategy with
            balance := (s.strategy id strategy).balance - amount
            lifetimeDeposited := (s.strategy id strategy).lifetimeDeposited + amount })
  | reported {id strategy report} :
      Effect cfg s (.updateStrategyReport id strategy report)
        (s.putStrategy id strategy ((s.strategy id strategy).withBalance report))
  | strategyLiquidated {sender id strategy vault overview}
      (hvault : s.vaults id = some vault)
      (hmanager : vault.manager = sender)
      (hoverview : (s.capitalStructure id).lookup strategy = some overview) :
      Effect cfg s (.liquidateStrategy (.signed sender) id strategy) (s.eraseStrategy id strategy)

/-! ## Every step is an effect -/

variable {cfg : Config A X F} {s : State A X F}

/-- A failed call has an effect of the operation, unless it panicked. -/
def Failure (cfg : Config A X F) (s : State A X F) (op : Op A X) (e : DispatchError Error)
    (t : State A X F) : Prop :=
  e = .panic ∨ Effect cfg s op t

/-- A failure that has written nothing. -/
theorem Failure.idle {op : Op A X} {e : DispatchError Error} : Failure cfg s op e s := .inr .idle

/-- Both outcomes of a call are effects of the operation. -/
abbrev HasEffect (cfg : Config A X F) (s : State A X F) (op : Op A X) {α : Type}
    (r : Except (DispatchError Error) α × State A X F) : Prop :=
  Call.Outcome (fun _ => Effect cfg s op) (Failure cfg s op) r

theorem create_effect (now : Nat) (origin : RawOrigin A) (config : VaultConfig A X) (amount : Nat) :
    HasEffect cfg s (.create now origin config amount)
      (createExtrinsic cfg now origin config amount s) := by
  simp only [HasEffect, createExtrinsic, create, doCreateVault, Call.outcome_transactional,
    Call.outcome_bind, ensureSigned_outcome, Call.outcome_ensure, Call.get_bind,
    Call.outcome_ofOption]
  refine ⟨fun sender hsender => ?_, fun _ => .idle⟩
  refine ⟨fun _ => ⟨fun _ => ⟨fun hcount => ?_, fun _ => .idle⟩, fun _ => .idle⟩,
    fun _ => .idle⟩
  refine ⟨fun sum hsum => ⟨fun hone => ?_, fun _ => .idle⟩, fun _ => .idle⟩
  subst hsender hone
  cases hlp : cfg.currencyFactory.create s.factory .lpTokens with
  | error e => exact Failure.idle
  | ok r =>
      obtain ⟨lpTokenId, factory⟩ := r
      simp only [Call.outcome_bind, Call.outcome_modify, Call.outcome_pure, onLedger_outcome,
        Currency.transfer_outcome]
      refine ⟨fun _ => ⟨fun _ => ?_, fun _ _ => .idle⟩, fun _ _ => .idle⟩
      exact .created _ _ hcount hsum hlp

/-- `deposit` returns exactly when all its checks pass. -/
theorem deposit_ok {id amount lp : Nat} {sender : A} {s' : State A X F} :
    deposit cfg id sender amount s = (.ok lp, s') ↔
      ∃ vault, Deposited cfg s id sender amount vault lp ∧
        s' = { s with ledger := depositedLedger cfg s.ledger id vault sender amount lp } := by
  simp only [deposit, doDeposit, assetsUnderManagement, doAssetsUnderManagement, Call.bind_ok,
    Call.ensure_ok, Call.get_bind, vaultInfo_ok, Call.pure_ok, lpForDeposit_ok, onLedger_ok,
    Currency.transfer_ok, Currency.mintInto_ok, and_assoc, exists_and_left, exists_eq_left,
    exists_const]
  constructor
  · rintro ⟨hmin, vault, hvault, hallowed, havail, _, _, ⟨v, hv, hfits, rfl, rfl⟩, _, hlp, hmintable, hpaid,
      hminted, rfl, rfl⟩
    obtain rfl : vault = v := Option.some.inj (hvault.symm.trans hv)
    exact ⟨vault, ⟨hmin, hvault, hallowed, havail, hfits, hlp, hmintable, hpaid, hminted⟩, rfl⟩
  · rintro ⟨vault, h, rfl⟩
    exact ⟨h.minimum, vault, h.vault_eq, h.allowed, h.available, _, s,
      ⟨vault, h.vault_eq, h.fits, rfl, rfl⟩, lp, h.shares, h.mintable, h.paid, h.minted, rfl, rfl⟩

omit [DecidableEq A] [DecidableEq X] in
/-- The value of LP tokens, when the assets and the result fit. -/
theorem doLpShareValue_ok {id lpAmount value : Nat} {vault : VaultInfo A X} {s' : State A X F} :
    doLpShareValue cfg id vault lpAmount s = (.ok value, s') ↔
      (assets cfg s id vault ≤ u128Max ∧ cfg.multiplyByRational lpAmount (assets cfg s id vault)
        (s.ledger.issuance vault.lpTokenId) = .ok value) ∧ s' = s := by
  simp only [doLpShareValue, doAssetsUnderManagement, Call.bind_ok, Call.ensure_ok, Call.get_bind,
    Call.pure_ok]
  constructor
  · rintro ⟨_, _, ⟨_, _, ⟨hfits, rfl⟩, rfl, rfl⟩, hvalue⟩
    generalize hm : cfg.multiplyByRational _ _ _ = r at hvalue
    cases r with
    | error e => exact absurd hvalue Call.fail_ok
    | ok m =>
        obtain ⟨rfl, rfl⟩ := Call.pure_ok.mp hvalue
        exact ⟨⟨hfits, rfl⟩, rfl⟩
  · rintro ⟨⟨hfits, hvalue⟩, rfl⟩
    refine ⟨_, s', ⟨(), s', ⟨hfits, rfl⟩, rfl, rfl⟩, ?_⟩
    rw [hvalue]
    exact Call.pure_ok.mpr ⟨rfl, rfl⟩

/-- `withdraw` returns exactly when all its checks pass. -/
theorem withdraw_ok {id lpAmount value : Nat} {recipient : A} {s' : State A X F} :
    withdraw cfg id recipient lpAmount s = (.ok value, s') ↔
      ∃ vault, Withdrawn cfg s id recipient lpAmount vault value ∧
        s' = { s with ledger := withdrawnLedger cfg s.ledger id vault recipient lpAmount value } := by
  simp only [withdraw, doWithdraw, Call.bind_ok, Call.ensure_ok, Call.get_bind, vaultInfo_ok,
    doLpShareValue_ok, Call.pure_ok, onLedger_ok, Currency.burnFrom_ok, Currency.transfer_ok,
    and_assoc, exists_and_left, exists_eq_left, exists_const]
  constructor
  · rintro ⟨hmin, vault, hvault, hallowed, hfits, _, hworth, hliquid, hburnable, havail, hburnt, hpaid, rfl, rfl⟩
    exact ⟨vault, ⟨hmin, hvault, hallowed, hfits, hworth, hliquid, hburnable, havail, hburnt,
      hpaid⟩, rfl⟩
  · rintro ⟨vault, h, rfl⟩
    exact ⟨h.minimum, vault, h.vault_eq, h.allowed, h.fits, value, h.worth, h.liquid, h.burnable,
      h.available, h.burnt, h.paid, rfl, rfl⟩

theorem deposit_effect (origin : RawOrigin A) (id amount : Nat) :
    HasEffect cfg s (.deposit origin id amount) (depositExtrinsic cfg origin id amount s) := by
  simp only [HasEffect, depositExtrinsic, deposit, doDeposit, assetsUnderManagement,
    doAssetsUnderManagement, Call.outcome_bind, ensureSigned_outcome, Call.outcome_ensure,
    Call.get_bind, vaultInfo_outcome, Call.outcome_pure]
  refine ⟨fun sender hsender => ⟨fun hmin => ?_, fun _ => .idle⟩, fun _ => .idle⟩
  refine ⟨fun vault hvault => ⟨fun hallowed => ⟨fun havail => ?_, fun _ => .idle⟩, fun _ => .idle⟩,
    fun _ => .idle⟩
  refine ⟨fun v hv => ⟨fun hfits => ?_, fun _ => .idle⟩, fun _ => .idle⟩
  subst hsender
  -- The assets are computed for the vault as it was read at first.
  obtain rfl : vault = v := Option.some.inj (hvault.symm.trans hv)
  refine lpForDeposit_outcome (fun lp hlp => ?_) fun _ => .idle
  simp only [onLedger_outcome, Currency.transfer_outcome, Currency.mintInto_outcome]
  refine ⟨fun hmintable => ⟨fun hpaid => ⟨fun hminted => ?_, fun e hrefused => .inr ?_⟩,
    fun _ _ => .idle⟩, fun _ => .idle⟩
  · exact .deposited ⟨hmin, hvault, hallowed, havail, hfits, hlp, hmintable, hpaid, hminted⟩
  · exact .unminted hmin hvault hlp hpaid (by rw [hrefused]; simp)

theorem withdraw_effect (origin : RawOrigin A) (id lpAmount : Nat) :
    HasEffect cfg s (.withdraw origin id lpAmount) (withdrawExtrinsic cfg origin id lpAmount s) := by
  simp only [HasEffect, withdrawExtrinsic, withdraw, doWithdraw, doLpShareValue,
    doAssetsUnderManagement, Call.outcome_bind, ensureSigned_outcome, Call.outcome_ensure,
    Call.get_bind, vaultInfo_outcome, Call.outcome_pure]
  refine ⟨fun recipient hrecipient => ⟨fun hmin => ?_, fun _ => .idle⟩, fun _ => .idle⟩
  refine ⟨fun vault hvault => ⟨fun hallowed => ⟨fun hfits => ?_, fun _ => .idle⟩, fun _ => .idle⟩,
    fun _ => .idle⟩
  subst hrecipient
  cases hworth : cfg.multiplyByRational lpAmount (assets cfg s id vault)
      (s.ledger.issuance vault.lpTokenId) with
  | error e => exact Failure.idle
  | ok value =>
      simp only [Call.outcome_pure, onLedger_outcome, Currency.burnFrom_outcome,
        Currency.transfer_outcome]
      refine ⟨fun hliquid => ⟨fun hburnable => ⟨fun havail => ?_, fun _ => .idle⟩, fun _ => .idle⟩,
        fun _ => .idle⟩
      refine ⟨fun hburnt => ⟨fun hpaid => ?_, fun e hrefused => .inr ?_⟩, fun _ _ => .idle⟩
      · exact .withdrawn
          ⟨hmin, hvault, hallowed, hfits, hworth, hliquid, hburnable, havail, hburnt, hpaid⟩
      · exact .unpaid hmin hvault hworth hburnt (by rw [hrefused]; simp)

theorem claimSurcharge_effect (now : Nat) (origin : RawOrigin A) (id : Nat) (address : Option A) :
    HasEffect cfg s (.claimSurcharge now origin id address)
      (claimSurcharge cfg now origin id address s) := by
  simp only [HasEffect, claimSurcharge, Call.outcome_bind, Call.outcome_ofOption, vaultInfo_outcome]
  refine ⟨fun reward hreward => ⟨fun vault hvault => ?_, fun _ => .idle⟩, fun _ => .idle⟩
  cases hverdict : evaluateEviction cfg now vault.deposit with
  | exempt => exact .idle
  | evict =>
      simp only [Call.get_bind, Call.outcome_bind, onLedger_outcome, Currency.transfer_outcome,
        Call.outcome_modify]
      exact ⟨fun hpaid => .evicted ⟨hreward, hvault, hverdict, hpaid⟩, fun _ _ => .idle⟩
  | charge remaining payable =>
      simp only [Call.outcome_bind, onLedger_outcome, Currency.transfer_outcome, Call.outcome_modify]
      exact ⟨fun _ => .charged reward hvault hverdict, fun _ _ => .idle⟩

theorem addSurcharge_effect (now : Nat) (origin : RawOrigin A) (id amount : Nat) :
    HasEffect cfg s (.addSurcharge now origin id amount)
      (addSurcharge cfg now origin id amount s) := by
  simp only [HasEffect, addSurcharge, Call.outcome_bind, ensureSigned_outcome, Call.outcome_ensure,
    vaultInfo_outcome]
  refine ⟨fun sender hsender => ⟨fun _ => ⟨fun vault hvault => ?_, fun _ => .idle⟩,
    fun _ => .idle⟩, fun _ => .idle⟩
  subst hsender
  cases hdeposit : vault.deposit with
  | existential => exact Failure.idle
  | rent current at_ =>
      simp only [Call.outcome_bind, onLedger_outcome, Currency.transfer_outcome, Call.outcome_ensure,
        Call.outcome_modify]
      exact ⟨fun _ => ⟨fun _ => .surcharged _ hvault, fun _ => .inl rfl⟩, fun _ _ => .idle⟩

/-- `deleteTombstoned` returns exactly when all its checks pass. -/
theorem deleteTombstoned_ok {now : Nat} {origin : RawOrigin A} {id : Nat} {address : Option A}
    {u : Unit} {s' : State A X F} :
    deleteTombstoned cfg now origin id address s = (.ok u, s') ↔
      ∃ vault reward, Deletable cfg s now origin id address vault reward ∧
        s' = State.removeVault { s with ledger := rewardedLedger cfg s id reward } id vault := by
  simp only [deleteTombstoned, Call.bind_ok, Call.ofOption_ok, vaultInfo_ok, Call.ensure_ok,
    Call.get_bind, onLedger_ok, Currency.transfer_ok, Call.modify_ok, and_assoc, exists_and_left,
    exists_eq_left, exists_const]
  constructor
  · rintro ⟨reward, hreward, vault, hvault, htomb, hexp, hpaid, rfl⟩
    exact ⟨vault, reward, ⟨hreward, hvault, htomb, hexp, hpaid⟩, rfl⟩
  · rintro ⟨vault, reward, h, rfl⟩
    exact ⟨reward, h.claimed, vault, h.vault_eq, h.tombstoned, h.expired, h.paid, rfl⟩

theorem deleteTombstoned_effect (now : Nat) (origin : RawOrigin A) (id : Nat) (address : Option A) :
    HasEffect cfg s (.deleteTombstoned now origin id address)
      (deleteTombstoned cfg now origin id address s) := by
  simp only [HasEffect, deleteTombstoned, Call.outcome_bind, Call.outcome_ofOption, vaultInfo_outcome,
    Call.outcome_ensure, Call.get_bind, onLedger_outcome, Currency.transfer_outcome,
    Call.outcome_modify]
  refine ⟨fun reward hreward => ⟨fun vault hvault => ?_, fun _ => .idle⟩, fun _ => .idle⟩
  refine ⟨fun htombstoned => ⟨fun hexpired => ⟨fun hpaid => ?_, fun _ _ => .idle⟩,
    fun _ => .idle⟩, fun _ => .idle⟩
  exact .deleted ⟨hreward, hvault, htombstoned, hexpired, hpaid⟩

theorem emergencyShutdown_effect (origin : RawOrigin A) (id : Nat) :
    HasEffect cfg s (.emergencyShutdown origin id) (emergencyShutdown origin id s) := by
  simp only [HasEffect, emergencyShutdown, stop, Call.outcome_bind, ensureRoot_outcome, Call.get_bind,
    Call.outcome_ofOption, Call.outcome_ensure, Call.outcome_modify]
  refine ⟨fun horigin => ⟨fun vault hvault => ⟨fun _ => ?_, fun _ => .idle⟩, fun _ => .idle⟩,
    fun _ => .idle⟩
  subst horigin
  exact .stopped hvault

theorem start_effect (origin : RawOrigin A) (id : Nat) :
    HasEffect cfg s (.start origin id) (startExtrinsic origin id s) := by
  simp only [HasEffect, startExtrinsic, start, Call.outcome_bind, ensureRoot_outcome, Call.get_bind,
    Call.outcome_ofOption, Call.outcome_ensure, Call.outcome_modify]
  refine ⟨fun horigin => ⟨fun vault hvault => ⟨fun _ => ?_, fun _ => .idle⟩, fun _ => .idle⟩,
    fun _ => .idle⟩
  subst horigin
  exact .started hvault

theorem strategyWithdraw_effect (id : Nat) (strategy : A) (amount : Nat) :
    HasEffect cfg s (.strategyWithdraw id strategy amount)
      (strategyWithdraw cfg id strategy amount s) := by
  simp only [HasEffect, strategyWithdraw, Call.outcome_bind, vaultInfo_outcome, Call.get_bind,
    Call.outcome_ensure, onLedger_outcome, Currency.transfer_outcome, Call.outcome_modify]
  refine ⟨fun vault hvault => ?_, fun _ => .idle⟩
  refine ⟨fun _ => ⟨fun _ => ⟨fun hpaid => ?_, fun _ _ => .idle⟩, fun _ => .idle⟩,
    fun _ => .idle⟩
  exact .strategyWithdrew hvault hpaid

theorem strategyDeposit_effect (id : Nat) (strategy : A) (amount : Nat) :
    HasEffect cfg s (.strategyDeposit id strategy amount)
      (strategyDeposit cfg id strategy amount s) := by
  simp only [HasEffect, strategyDeposit, Call.outcome_bind, vaultInfo_outcome, Call.get_bind,
    Call.outcome_ensure, onLedger_outcome, Currency.transfer_outcome, Call.outcome_modify]
  refine ⟨fun vault hvault => ?_, fun _ => .idle⟩
  refine ⟨fun _ => ⟨fun hpaid => ?_, fun _ _ => .idle⟩, fun _ => .idle⟩
  exact .strategyDeposited hvault hpaid

theorem liquidateStrategy_effect (origin : RawOrigin A) (id : Nat) (strategy : A) :
    HasEffect cfg s (.liquidateStrategy origin id strategy)
      (liquidateStrategy origin id strategy s) := by
  simp only [HasEffect, liquidateStrategy, Call.outcome_bind, ensureSigned_outcome, vaultInfo_outcome,
    Call.outcome_ensure, Call.get_bind, Call.outcome_ofOption, Call.outcome_modify, Call.outcome_pure]
  refine ⟨fun sender hsender => ⟨fun vault hvault => ?_, fun _ => .idle⟩, fun _ => .idle⟩
  refine ⟨fun hmanager => ⟨fun overview hoverview => ?_, fun _ => .idle⟩, fun _ => .idle⟩
  subst hsender
  exact .strategyLiquidated hvault hmanager hoverview

/-- **Every step of the pallet is one of the effects.** -/
theorem step_effect {op : Op A X} {s' : State A X F} (h : step cfg s op = some s') :
    Effect cfg s op s' := by
  have hdispatch : ∀ {α : Type} {x : VaultCall A X F α}, HasEffect cfg s op (x s) →
      some (dispatch x s) = some s' → Effect cfg s op s' := by
    intro α x hx hs'
    exact Option.some.inj hs' ▸ dispatch_of_outcome .idle hx
  cases op with
  | create now origin config amount => exact hdispatch (create_effect now origin config amount) h
  | deposit origin id amount => exact hdispatch (deposit_effect origin id amount) h
  | withdraw origin id lpAmount => exact hdispatch (withdraw_effect origin id lpAmount) h
  | claimSurcharge now origin id address =>
      exact hdispatch (claimSurcharge_effect now origin id address) h
  | addSurcharge now origin id amount => exact hdispatch (addSurcharge_effect now origin id amount) h
  | deleteTombstoned now origin id address =>
      exact hdispatch (deleteTombstoned_effect now origin id address) h
  | emergencyShutdown origin id => exact hdispatch (emergencyShutdown_effect origin id) h
  | start origin id => exact hdispatch (start_effect origin id) h
  | strategyWithdraw id strategy amount =>
      exact hdispatch (strategyWithdraw_effect id strategy amount) h
  | strategyDeposit id strategy amount =>
      exact hdispatch (strategyDeposit_effect id strategy amount) h
  | updateStrategyReport id strategy report =>
      exact hdispatch (x := updateStrategyReport id strategy report) .reported h
  | liquidateStrategy origin id strategy =>
      exact hdispatch (liquidateStrategy_effect origin id strategy) h

end Vault
end Composable
