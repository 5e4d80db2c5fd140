import Composable.Vault.Registry

/-!
# `Vault.Atomicity` — deposits and withdrawals that fail

The extrinsics `deposit` and `withdraw` are not transactional: what they have written when they fail
stays. Each writes twice. A withdrawal burns the LP tokens and pays the assets out, a deposit takes
the assets and mints the LP tokens, and both ask the ledger before the first of the two.

Over a ledger with existential deposits the answers cover a deposit: a transfer that keeps its
sender alive leaves room for the tokens, even if they are those it was paid in. They do not cover a
withdrawal. Its payment keeps the vault's account alive and has to reach the recipient's
existential deposit, and nothing has asked for either; if it is refused, the LP tokens are burned
for nothing (`user_calls_atomic_iff`).
-/

namespace Composable
namespace Vault

open Currency (existentialWithdraw existentialTransfer_none existentialDeposit_none
  existentialWithdraw_none)

variable {A X F : Type} [DecidableEq A] [DecidableEq X]
variable {cfg : Config A X F} {s : State A X F} {id amount lpAmount value : Nat} {a b : A}
  {x : X} {n : Nat}
variable {vault : VaultInfo A X} {ed : X → Nat}

/-! ## Queries -/

omit [DecidableEq A] [DecidableEq X] in
theorem ensureSigned_reads {origin : RawOrigin A} :
    (ensureSigned origin : VaultCall A X F A).Reads := by
  intro s
  cases origin <;> rfl

omit [DecidableEq A] [DecidableEq X] in
theorem doAssetsUnderManagement_reads : (doAssetsUnderManagement cfg id vault).Reads := fun _ =>
  (Call.Reads.ensure _ _).bind (fun _ => Call.Reads.pure _) _

omit [DecidableEq A] [DecidableEq X] in
theorem assetsUnderManagement_reads : (assetsUnderManagement cfg id).Reads :=
  vaultInfo_reads.bind fun _ => doAssetsUnderManagement_reads

omit [DecidableEq A] [DecidableEq X] in
theorem doLpShareValue_reads : (doLpShareValue cfg id vault lpAmount).Reads := by
  refine doAssetsUnderManagement_reads.bind fun aum => Call.Reads.get.bind fun t => ?_
  cases cfg.multiplyByRational lpAmount aum (t.ledger.issuance vault.lpTokenId) with
  | error e => exact Call.Reads.fail _
  | ok value => exact Call.Reads.pure _

omit [DecidableEq A] [DecidableEq X] in
theorem lpForDeposit_reads {t : State A X F} {aum : Nat} :
    (lpForDeposit cfg t vault aum amount).Reads := by
  unfold lpForDeposit
  split
  · exact Call.Reads.pure _
  · cases cfg.multiplyByRational amount (t.ledger.issuance vault.lpTokenId) aum with
    | error e => exact Call.Reads.fail _
    | ok lp => exact (Call.Reads.ensure _ _).bind fun _ => Call.Reads.pure _

/-! ## Two writes -/

section Writes

variable {f g : TokenError → DispatchError Error} {refused refused' : Ledger A X → Option TokenError}
variable {effect effect' : Ledger A X → Ledger A X}

omit [DecidableEq A] [DecidableEq X] in
/-- Two operations of the ledger are atomic if the first changes nothing, or
    makes the second one pass. -/
theorem commit_commit_atomic :
    (onLedger f (Currency.commit refused effect) >>= fun _ =>
      (onLedger g (Currency.commit refused' effect') >>= fun _ =>
        pure value : VaultCall A X F Nat)).Atomic s ↔
    (refused s.ledger = none → effect s.ledger = s.ledger ∨ refused' (effect s.ledger) = none) := by
  have hsame : ∀ l : Ledger A X, ({ s with ledger := l } : State A X F) = s ↔ l = s.ledger := by
    intro l
    constructor
    · exact fun h => congrArg State.ledger h
    · rintro rfl
      rfl
  show (Call.bind (onLedger f (Currency.commit refused effect)) fun _ =>
    Call.bind (onLedger g (Currency.commit refused' effect')) fun _ => pure value).Atomic s ↔ _
  unfold Call.Atomic Call.bind onLedger Call.zoom Currency.commit
  cases hfirst : refused s.ledger with
  | some e =>
      -- Nothing has been written.
      simp only [reduceCtorEq, false_implies, iff_true, Prod.mk.injEq, and_imp]
      rintro _ _ - rfl
      exact (hsame _).mpr rfl
  | none =>
      cases hsecond : refused' (effect s.ledger) with
      | none =>
          simp only [hsecond, or_true, implies_true, iff_true]
          exact nofun
      | some e =>
          simp only [hsecond, true_implies, reduceCtorEq, or_false, Prod.mk.injEq,
            Except.error.injEq, and_imp]
          exact ⟨fun h => (hsame _).mp (h _ _ rfl rfl),
            fun h _ _ _ ht => ht.symm.trans ((hsame _).mpr h)⟩

end Writes

/-! ## Deposits -/

/-- All that `deposit` checks before it writes. -/
structure Depositable (cfg : Config A X F) (s : State A X F) (id : Nat) (sender : A) (amount : Nat)
    (vault : VaultInfo A X) (lp : Nat) : Prop where
  minimum : cfg.minimumDeposit < amount
  vault_eq : s.vaults id = some vault
  allowed : vault.capabilities.depositsAllowed = true
  available : cfg.currency.canWithdraw vault.assetId sender amount s.ledger = true
  fits : assets cfg s id vault ≤ u128Max
  shares : LpMinted cfg (assets cfg s id vault) (s.ledger.issuance vault.lpTokenId) amount lp
  mintable : cfg.currency.canDeposit vault.lpTokenId sender lp s.ledger = true

omit [DecidableEq A] [DecidableEq X] in
theorem assetsUnderManagement_ok (hvault : s.vaults id = some vault) {aum : Nat} :
    assetsUnderManagement cfg id s = (.ok aum, s) ↔ assets cfg s id vault ≤ u128Max ∧
      aum = assets cfg s id vault := by
  simp [assetsUnderManagement, doAssetsUnderManagement, hvault]

/-- A deposit is atomic if minting cannot be refused once the assets are there. -/
theorem deposit_atomic {origin : RawOrigin A} : (depositExtrinsic cfg origin id amount).Atomic s ↔
    ∀ sender vault lp, origin = .signed sender → Depositable cfg s id sender amount vault lp →
      cfg.currency.transferRefused s.ledger vault.assetId sender (cfg.accountId id) amount
        true = none →
      s.ledger.move vault.assetId sender (cfg.accountId id) amount = s.ledger ∨
        cfg.currency.mintRefused (s.ledger.move vault.assetId sender (cfg.accountId id) amount)
          vault.lpTokenId
          sender lp = none := by
  rw [depositExtrinsic, Call.atomic_bind ensureSigned_reads]
  simp only [ensureSigned_ok, and_true, deposit, doDeposit, Call.atomic_ensure_bind,
    Call.atomic_bind vaultInfo_reads, vaultInfo_ok, Call.atomic_get_bind,
    Call.atomic_bind assetsUnderManagement_reads, Call.atomic_bind lpForDeposit_reads,
    lpForDeposit_ok, Currency.transfer, Currency.mintInto, Currency.paid_exact,
    commit_commit_atomic]
  constructor
  · intro h sender vault lp hsigned hd hpaid
    have haum := (assetsUnderManagement_ok hd.vault_eq).mpr ⟨hd.fits, rfl⟩
    exact h sender hsigned hd.minimum vault hd.vault_eq hd.allowed hd.available _ haum lp hd.shares
      hd.mintable hpaid
  · intro h sender hsigned hmin vault hvault hallowed havail aum haum lp hlp hmintable hpaid
    obtain ⟨hfits, rfl⟩ := (assetsUnderManagement_ok hvault).mp haum
    exact h sender vault lp hsigned ⟨hmin, hvault, hallowed, havail, hfits, hlp, hmintable⟩ hpaid

/-- A transfer that keeps its sender alive leaves room for the LP tokens. -/
theorem deposit_atomic_existential (hed : cfg.currency = Currency.existential ed)
    {origin : RawOrigin A} : (depositExtrinsic cfg origin id amount).Atomic s := by
  refine deposit_atomic.mpr fun sender vault lp _ hd hpaid => ?_
  by_cases hself : sender = cfg.accountId id
  · exact .inl (by rw [hself]; exact Ledger.move_self _ _ _ _)
  have hmintable := hd.mintable
  rw [hed] at hpaid hmintable ⊢
  right
  refine existentialDeposit_none.mpr
    ((existentialDeposit_none.mp (Option.isNone_iff_eq_none.mp hmintable)).imp_right
    fun hroom => ?_)
  by_cases hasset : vault.lpTokenId = vault.assetId
  · -- The tokens are those the deposit was paid in, and the sender was left alive in them.
    rcases existentialTransfer_none.mp hpaid with hzero | hsame | ⟨hfunds, -, halive⟩
    · rw [hzero, Ledger.move_zero]
      exact hroom
    · exact absurd hsame hself
    · rw [hasset, Ledger.balance_move_from hself hfunds]
      exact (halive rfl).trans (Nat.le_add_right _ _)
  · rw [Ledger.balance_move_of_ne_asset hasset]
    exact hroom

/-! ## Withdrawals -/

/-- All that `withdraw` checks before it writes. -/
structure Redeemable (cfg : Config A X F) (s : State A X F) (id : Nat) (recipient : A)
    (lpAmount : Nat) (vault : VaultInfo A X) (value : Nat) : Prop where
  minimum : cfg.minimumWithdrawal < lpAmount
  vault_eq : s.vaults id = some vault
  allowed : vault.capabilities.withdrawalsAllowed = true
  fits : assets cfg s id vault ≤ u128Max
  worth : cfg.multiplyByRational lpAmount (assets cfg s id vault)
    (s.ledger.issuance vault.lpTokenId) = .ok value
  liquid : value ≤ s.ledger.balance vault.assetId (cfg.accountId id)
  burnable : cfg.currency.canWithdraw vault.lpTokenId recipient lpAmount s.ledger = true
  available : cfg.currency.canWithdraw vault.assetId (cfg.accountId id) value s.ledger = true

/-- A withdrawal is atomic if the payment cannot be refused once the LP tokens are burned. -/
theorem withdraw_atomic {origin : RawOrigin A} : (withdrawExtrinsic cfg origin id lpAmount).Atomic s ↔
    ∀ recipient vault value, origin = .signed recipient →
      Redeemable cfg s id recipient lpAmount vault value →
      cfg.currency.burnRefused s.ledger vault.lpTokenId recipient lpAmount = none →
      s.ledger.burn vault.lpTokenId recipient lpAmount = s.ledger ∨
        cfg.currency.transferRefused (s.ledger.burn vault.lpTokenId recipient lpAmount) vault.assetId
          (cfg.accountId id) recipient value true = none := by
  rw [withdrawExtrinsic, Call.atomic_bind ensureSigned_reads]
  simp only [ensureSigned_ok, and_true, withdraw, doWithdraw, Call.atomic_ensure_bind,
    Call.atomic_bind vaultInfo_reads, vaultInfo_ok, Call.atomic_get_bind,
    Call.atomic_bind doLpShareValue_reads, doLpShareValue_ok, Currency.burnFrom, Currency.transfer,
    Currency.burnt_exact, commit_commit_atomic]
  constructor
  · intro h recipient vault value hsigned hr hburnt
    exact h recipient hsigned hr.minimum vault hr.vault_eq hr.allowed value ⟨hr.fits, hr.worth⟩
      hr.liquid hr.burnable
      hr.available hburnt
  · intro h recipient hsigned hmin vault hvault hallowed value hworth hliquid hburnable havail hburnt
    exact h recipient vault value hsigned
      ⟨hmin, hvault, hallowed, hworth.1, hworth.2, hliquid, hburnable, havail⟩ hburnt

/-- The payment of a withdrawal is nothing, goes to the vault itself, or reaches the existential
    deposit of the recipient and leaves that of the vault's account. -/
def Payable (ed : X → Nat) (cfg : Config A X F) (s : State A X F) (id : Nat) (recipient : A)
    (lpAmount : Nat) (vault : VaultInfo A X) (value : Nat) : Prop :=
  value = 0 ∨ cfg.accountId id = recipient ∨
    (ed vault.assetId ≤ (s.ledger.burn vault.lpTokenId recipient lpAmount).balance vault.assetId
      recipient + value ∧
      ed vault.assetId ≤ s.ledger.balance vault.assetId (cfg.accountId id) - value)

/-- Burning takes nothing from the vault, unless it is the recipient itself. -/
theorem Redeemable.payable_iff {recipient : A} (hed : cfg.currency = Currency.existential ed)
    (h : Redeemable cfg s id recipient lpAmount vault value) :
    cfg.currency.transferRefused (s.ledger.burn vault.lpTokenId recipient lpAmount) vault.assetId
      (cfg.accountId id) recipient value true = none ↔
        Payable ed cfg s id recipient lpAmount vault value := by
  have havail := h.available
  rw [hed] at havail ⊢
  have hfunds := (existentialWithdraw_none.mp (Option.isNone_iff_eq_none.mp havail)).1
  refine existentialTransfer_none.trans (or_congr_right (or_congr_right' fun hne => ?_))
  rw [Ledger.balance_burn_of_ne hne]
  have hkept :
      (s.ledger.burn vault.lpTokenId recipient lpAmount).free vault.assetId (cfg.accountId id) =
      s.ledger.free vault.assetId (cfg.accountId id) := by
    rw [Ledger.free_burn, if_neg fun heq => hne heq.2, Nat.sub_zero]
  simp only [hkept, hfunds, true_and, true_implies]

theorem withdraw_atomic_existential (hed : cfg.currency = Currency.existential ed)
    {origin : RawOrigin A} : (withdrawExtrinsic cfg origin id lpAmount).Atomic s ↔
      ∀ recipient vault value, origin = .signed recipient →
        Redeemable cfg s id recipient lpAmount vault value →
        Payable ed cfg s id recipient lpAmount vault value := by
  rw [withdraw_atomic]
  refine forall_congr' fun recipient => forall_congr' fun vault => forall_congr' fun value =>
    forall_congr' fun _ => forall_congr' fun hr => ?_
  have hburnable := hr.burnable
  rw [hr.payable_iff hed]
  rw [hed] at hburnable ⊢
  have hburnt : existentialWithdraw s.ledger vault.lpTokenId recipient lpAmount = none :=
    Option.isNone_iff_eq_none.mp hburnable
  have hchanges : s.ledger.burn vault.lpTokenId recipient lpAmount ≠ s.ledger := by
    intro hsame
    have hfree := congrArg (fun l => Ledger.free l vault.lpTokenId recipient) hsame
    have hle := (existentialWithdraw_none.mp hburnt).1
    have hmin := hr.minimum
    simp only [Ledger.free_burn, and_self, if_true] at hfree
    omega
  exact ⟨fun h => (h hburnt).resolve_left hchanges, fun h _ => .inr h⟩

/-! ## Both -/

/-- **When a call of a user that fails changes nothing.** Over a ledger with existential deposits a
    deposit never changes anything if it fails, and a withdrawal does not exactly if, should all its
    checks pass, the payment is nothing, goes to the vault itself, or reaches the existential
    deposit of the recipient and leaves that of the vault's account. -/
theorem user_calls_atomic_iff (hed : cfg.currency = Currency.existential ed) (s : State A X F)
    (origin : RawOrigin A) (id : Nat) :
    (∀ amount, (depositExtrinsic cfg origin id amount).Atomic s) ∧
    ∀ lpAmount, (withdrawExtrinsic cfg origin id lpAmount).Atomic s ↔
      ∀ recipient vault value, origin = .signed recipient →
        Redeemable cfg s id recipient lpAmount vault value →
        Payable ed cfg s id recipient lpAmount vault value :=
  ⟨fun _ => deposit_atomic_existential hed, fun _ => withdraw_atomic_existential hed⟩

/-! ## The last LP tokens -/

/-- Account `7` is alone in its vault. -/
def fundedOps : List (Op Nat Nat) :=
  [.create 0 (.signed 7) sampleVault 15, .deposit (.signed 7) 1 100]

/-- It can withdraw all but one of its LP tokens; withdrawing all fails, and they are gone. -/
theorem funded : ∃ s, run (step sample) sampleGenesis fundedOps = some s ∧
    (withdrawExtrinsic sample (.signed 7) 1 99 s).1 = .ok 99 ∧ s.ledger.balance 100 7 = 100 ∧
    (withdrawExtrinsic sample (.signed 7) 1 100 s).1 = .error (err .transferFromFailed) ∧
    (withdrawExtrinsic sample (.signed 7) 1 100 s).2.ledger.balance 100 7 = 0 ∧
    (withdrawExtrinsic sample (.signed 7) 1 100 s).2.ledger.balance 1 7 = s.ledger.balance 1 7 := by
  have hview : (run (step sample) sampleGenesis fundedOps).map (fun s =>
      ((withdrawExtrinsic sample (.signed 7) 1 99 s).1, s.ledger.balance 100 7,
        (withdrawExtrinsic sample (.signed 7) 1 100 s).1,
        (withdrawExtrinsic sample (.signed 7) 1 100 s).2.ledger.balance 100 7,
        decide ((withdrawExtrinsic sample (.signed 7) 1 100 s).2.ledger.balance 1 7 =
          s.ledger.balance 1 7))) =
      some (.ok 99, 100, .error (err .transferFromFailed), 0, true) := by
    decide +kernel
  obtain ⟨s, hrun, hs⟩ := Option.map_eq_some_iff.mp hview
  simp only [Prod.mk.injEq, decide_eq_true_eq] at hs
  exact ⟨s, hrun, hs⟩

theorem user_calls_atomic_sample : ∃ s, run (step sample) sampleGenesis fundedOps = some s ∧
    (withdrawExtrinsic sample (.signed 7) 1 99 s).1 = .ok 99 ∧
    (∀ vault value, Redeemable sample s 1 7 99 vault value →
      Payable (fun _ => 1) sample s 1 7 99 vault value) ∧
    (depositExtrinsic sample (.signed 7) 1 1000).Atomic s := by
  obtain ⟨s, hrun, hreturns, -⟩ := funded
  have hatomic : (withdrawExtrinsic sample (.signed 7) 1 99).Atomic s := by
    intro e t ht
    rw [ht] at hreturns
    cases hreturns
  have hed : sample.currency = Currency.existential fun _ => 1 := rfl
  have hboth := user_calls_atomic_iff hed s (.signed 7) 1
  exact ⟨s, hrun, hreturns, fun vault value => (hboth.2 99).mp hatomic 7 vault value rfl,
    hboth.1 1000⟩

/-- **LP tokens are burned for nothing**: the withdrawal fails, and the LP tokens are gone. -/
theorem burned_for_nothing : ∃ s e t, run (step sample) sampleGenesis fundedOps = some s ∧
    withdrawExtrinsic sample (.signed 7) 1 100 s = (.error e, t) ∧
    s.ledger.balance 100 7 = 100 ∧ t.ledger.balance 100 7 = 0 ∧
    t.ledger.balance 1 7 = s.ledger.balance 1 7 := by
  obtain ⟨s, hrun, -, hheld, hfails, hburned, hunpaid⟩ := funded
  exact ⟨s, _, _, hrun, Prod.ext hfails rfl, hheld, hburned, hunpaid⟩

end Vault
end Composable
