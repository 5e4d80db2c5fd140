import Composable.Support.Pool
import Composable.Vault.Registry

/-!
# `Vault.Shares` — a vault as a pool of shares

The abstract side of a vault: its assets under management and the LP tokens issued on them form a
`Pool`. A user's deposit joins the pool and a withdrawal leaves it (`Deposited.pool_step`,
`Withdrawn.pool_step`), so what holds of pools holds of vaults: the price of a share never falls,
and nobody gains by a round trip. All of this is so for a division that rounds down (`Floors`), as
that of the library does while the products fit 128 bits.

The account of a vault is derived from the pallet id and signs nothing, so users are accounts other
than that one.
-/

namespace Composable
namespace Vault

variable {A X F : Type} [DecidableEq A] [DecidableEq X]
variable {cfg : Config A X F} {s s' : State A X F} {id : Nat} {vault : VaultInfo A X}

/-- The pool of a vault. -/
def pool (cfg : Config A X F) (s : State A X F) (id : Nat) (vault : VaultInfo A X) : Pool where
  assets := assets cfg s id vault
  shares := s.ledger.issuance vault.lpTokenId

/-! ## User operations as pool steps -/

/-- A deposit adds the amount to the assets and the minted tokens to the shares. -/
theorem pool_depositedLedger (s : State A X F) (vault : VaultInfo A X) {sender : A} (amount lp : Nat)
    (hne : sender ≠ cfg.accountId id) :
    pool cfg { s with ledger := depositedLedger cfg s.ledger id vault sender amount lp } id vault =
      ⟨assets cfg s id vault + amount, s.ledger.issuance vault.lpTokenId + lp⟩ := by
  have hbalance : (depositedLedger cfg s.ledger id vault sender amount lp).balance vault.assetId
      (cfg.accountId id) = s.ledger.balance vault.assetId (cfg.accountId id) + amount := by
    rw [depositedLedger, Ledger.balance_mint_of_ne hne.symm, Ledger.balance_move_to hne]
  have hissuance : (depositedLedger cfg s.ledger id vault sender amount lp).issuance vault.lpTokenId =
      s.ledger.issuance vault.lpTokenId + lp := by
    simp [depositedLedger]
  simp only [pool, assets, hbalance, hissuance, Pool.mk.injEq, and_true]
  show s.ledger.balance vault.assetId (cfg.accountId id) + amount + outstanding s id = _
  omega

/-- A withdrawal takes the value out of the assets and the burnt tokens out of the shares. -/
theorem pool_withdrawnLedger {recipient : A} {lpAmount value : Nat}
    (hne : recipient ≠ cfg.accountId id)
    (hpaid : cfg.currency.transferRefused (s.ledger.burn vault.lpTokenId recipient lpAmount)
      vault.assetId (cfg.accountId id) recipient value true = none) :
    pool cfg { s with ledger := withdrawnLedger cfg s.ledger id vault recipient lpAmount value }
      id vault =
        ⟨assets cfg s id vault - value, s.ledger.issuance vault.lpTokenId - lpAmount⟩ ∧
      value ≤ assets cfg s id vault := by
  have hburnt := cfg.currency.funded_of_transfer hpaid hne.symm
  have hfunded : value ≤ s.ledger.free vault.assetId (cfg.accountId id) := by
    simpa [hne.symm] using hburnt
  have hbalance :
      (withdrawnLedger cfg s.ledger id vault recipient lpAmount value).balance vault.assetId
      (cfg.accountId id) = s.ledger.balance vault.assetId (cfg.accountId id) - value := by
    rw [withdrawnLedger, Ledger.balance_move_from hne.symm hburnt, Ledger.balance_burn_of_ne hne.symm]
  have hissuance : (withdrawnLedger cfg s.ledger id vault recipient lpAmount value).issuance
      vault.lpTokenId = s.ledger.issuance vault.lpTokenId - lpAmount := by
    simp [withdrawnLedger]
  have hle : s.ledger.free vault.assetId (cfg.accountId id) ≤
      s.ledger.balance vault.assetId (cfg.accountId id) := Nat.le_add_right _ _
  refine ⟨?_, ?_⟩
  · simp only [pool, assets, hbalance, hissuance, Pool.mk.injEq, and_true]
    show s.ledger.balance vault.assetId (cfg.accountId id) - value + outstanding s id = _
    omega
  · unfold assets
    omega

/-- `multiply_by_rational(a, b, c) = floor(a * b / c)`. -/
def Floors (multiplyByRational : Nat → Nat → Nat → Except ArithmeticError Nat) : Prop :=
  ∀ {a b c m}, 0 < c → multiplyByRational a b c = .ok m → m = a * b / c

theorem Floors.mul_le {mul : Nat → Nat → Nat → Except ArithmeticError Nat} (hfloor : Floors mul)
    {a b c m : Nat} (hc : 0 < c) (h : mul a b c = .ok m) : m * c ≤ a * b := by
  rw [hfloor hc h]
  exact Nat.div_mul_le_self _ _

omit [DecidableEq A] [DecidableEq X] in
/-- The tokens minted for a deposit are at most its share of the assets. -/
theorem LpMinted.mul_le (hfloor : Floors cfg.multiplyByRational) {aum issuance amount lp : Nat}
    (h : LpMinted cfg aum issuance amount lp) : lp * aum ≤ amount * issuance := by
  rcases h with ⟨rfl, -⟩ | ⟨hpos, -, hlp⟩
  · exact Nat.zero_le _
  · exact hfloor.mul_le hpos hlp

/-- The value paid for LP tokens is at most their share of the assets. -/
theorem Withdrawn.mul_le (hfloor : Floors cfg.multiplyByRational) {recipient : A}
    {lpAmount value : Nat} (h : Withdrawn cfg s id recipient lpAmount vault value) :
    value * s.ledger.issuance vault.lpTokenId ≤ lpAmount * assets cfg s id vault := by
  have hpos : 0 < s.ledger.issuance vault.lpTokenId :=
    Nat.lt_of_lt_of_le (Nat.zero_lt_of_lt h.minimum) (cfg.currency.funded_of_burn h.burnt).2
  exact hfloor.mul_le hpos h.worth

/-- A deposit joins the pool. -/
theorem Deposited.pool_step (hfloor : Floors cfg.multiplyByRational) {sender : A} {amount lp : Nat}
    (h : Deposited cfg s id sender amount vault lp) (hne : sender ≠ cfg.accountId id) :
    Pool.Step (pool cfg s id vault)
      (pool cfg { s with ledger := depositedLedger cfg s.ledger id vault sender amount lp } id
        vault) := by
  rw [pool_depositedLedger s vault amount lp hne]
  exact Pool.Step.join (p := pool cfg s id vault) amount lp (h.shares.mul_le hfloor)

/-- A withdrawal leaves the pool. -/
theorem Withdrawn.pool_step (hfloor : Floors cfg.multiplyByRational) {recipient : A}
    {lpAmount value : Nat}
    (h : Withdrawn cfg s id recipient lpAmount vault value) (hne : recipient ≠ cfg.accountId id) :
    Pool.Step (pool cfg s id vault)
      (pool cfg { s with ledger := withdrawnLedger cfg s.ledger id vault recipient lpAmount value } id
        vault) := by
  obtain ⟨hpool, hle⟩ := pool_withdrawnLedger (s := s) hne h.paid
  rw [hpool]
  exact Pool.Step.leave (p := pool cfg s id vault) lpAmount value
    (cfg.currency.funded_of_burn h.burnt).2 hle (h.mul_le hfloor)

/-! ## Runs of deposits and withdrawals -/

/-- What a user does with one vault. -/
inductive UserOp (A : Type) where
  | deposit (user : A) (amount : Nat)
  | withdraw (user : A) (lpAmount : Nat)

def UserOp.user : UserOp A → A
  | .deposit user _ => user
  | .withdraw user _ => user

/-- A successful deposit into, or withdrawal from, the vault. -/
def userStep (cfg : Config A X F) (id : Nat) (s : State A X F) : UserOp A → Option (State A X F)
  | .deposit user amount => Call.success (deposit cfg id user amount) s
  | .withdraw user lpAmount => Call.success (withdraw cfg id user lpAmount) s

/-- The LP tokens issued by a vault. -/
def lpIssuance (s : State A X F) (id : Nat) : Nat :=
  (s.vaults id).elim 0 fun vault => s.ledger.issuance vault.lpTokenId

/-- Assets under management over LP issuance, as an exact rational. -/
def sharePrice (cfg : Config A X F) (s : State A X F) (id : Nat) : ℚ :=
  (s.vaults id).elim 0 fun vault => (pool cfg s id vault).price

/-- A successful operation of a user is a step of the vault's pool, and keeps the vault. -/
theorem userStep_pool (hfloor : Floors cfg.multiplyByRational) {op : UserOp A}
    (hne : op.user ≠ cfg.accountId id) (hstep : userStep cfg id s op = some s') :
    ∃ vault, s.vaults id = some vault ∧ s'.vaults id = some vault ∧
      Pool.Step (pool cfg s id vault) (pool cfg s' id vault) := by
  cases op with
  | deposit user amount =>
      obtain ⟨lp, hcall⟩ := Call.success_eq_some.mp hstep
      obtain ⟨vault, h, rfl⟩ := deposit_ok.mp hcall
      exact ⟨vault, h.vault_eq, h.vault_eq, h.pool_step hfloor hne⟩
  | withdraw user lpAmount =>
      obtain ⟨value, hcall⟩ := Call.success_eq_some.mp hstep
      obtain ⟨vault, h, rfl⟩ := withdraw_ok.mp hcall
      exact ⟨vault, h.vault_eq, h.vault_eq, h.pool_step hfloor hne⟩

/-- One successful operation does not lower the price of a share. -/
theorem sharePrice_le_of_userStep (hfloor : Floors cfg.multiplyByRational) {op : UserOp A}
    (hne : op.user ≠ cfg.accountId id)
    (hstep : userStep cfg id s op = some s') (hpos : 0 < lpIssuance s id)
    (hpos' : 0 < lpIssuance s' id) : sharePrice cfg s id ≤ sharePrice cfg s' id := by
  obtain ⟨vault, hv, hv', hpool⟩ := userStep_pool hfloor hne hstep
  simp only [lpIssuance, hv, hv', Option.elim_some] at hpos hpos'
  simp only [sharePrice, hv, hv', Option.elim_some]
  exact hpool.price_le hpos hpos'

/-- A run of user operations does not lower the price of a share. -/
theorem sharePrice_le_of_run (hfloor : Floors cfg.multiplyByRational) {ops : List (UserOp A)}
    (husers : ∀ op ∈ ops, op.user ≠ cfg.accountId id)
    (hpos : Throughout (userStep cfg id) (fun t => 0 < lpIssuance t id) s ops)
    (hrun : run (userStep cfg id) s ops = some s') : sharePrice cfg s id ≤ sharePrice cfg s' id := by
  induction ops generalizing s with
  | nil => rw [Option.some.inj hrun]
  | cons op ops ih =>
      obtain ⟨t, ht, hrest⟩ := run_cons.mp hrun
      have hpos' := hpos.2 t ht
      calc sharePrice cfg s id
          ≤ sharePrice cfg t id :=
            sharePrice_le_of_userStep hfloor (husers op List.mem_cons_self) ht hpos.1 hpos'.head
        _ ≤ sharePrice cfg s' id :=
            ih (fun o ho => husers o (List.mem_cons_of_mem _ ho)) hpos' hrest

/-- Depositing and withdrawing the minted tokens pays out at most the deposit. -/
theorem roundTrip_le (hfloor : Floors cfg.multiplyByRational) {user : A} {amount lp value : Nat}
    {t : State A X F} (hne : user ≠ cfg.accountId id)
    (hdeposit : deposit cfg id user amount s = (.ok lp, t))
    (hwithdraw : withdraw cfg id user lp t = (.ok value, s')) : value ≤ amount := by
  obtain ⟨vault, hd, rfl⟩ := deposit_ok.mp hdeposit
  obtain ⟨v, hw, -⟩ := withdraw_ok.mp hwithdraw
  obtain rfl : vault = v := Option.some.inj (hd.vault_eq.symm.trans hw.vault_eq)
  have hpool := pool_depositedLedger s vault amount lp hne
  simp only [pool, Pool.mk.injEq] at hpool
  have hleave := hw.mul_le hfloor
  rw [hpool.1, hpool.2] at hleave
  refine Pool.paid_le_of_join_leave (p := pool cfg s id vault) (hd.shares.mul_le hfloor) hleave ?_
  exact Nat.lt_of_lt_of_le (Nat.zero_lt_of_lt hw.minimum) (Nat.le_add_left _ _)

/-- **Users never dilute each other.** Along every run of successful deposits and withdrawals in
    which LP tokens stay issued, and with a division that rounds down, the assets per LP token do
    not decrease; and in the state reached, a deposit whose LP tokens are withdrawn at once pays out
    at most what was deposited. -/
theorem share_value_never_diluted (cfg : Config A X F) (hfloor : Floors cfg.multiplyByRational)
    (id : Nat)
    {s s' : State A X F} {ops : List (UserOp A)} (husers : ∀ op ∈ ops, op.user ≠ cfg.accountId id)
    (hpos : Throughout (userStep cfg id) (fun t => 0 < lpIssuance t id) s ops)
    (hrun : run (userStep cfg id) s ops = some s') :
    sharePrice cfg s id ≤ sharePrice cfg s' id ∧
      ∀ user amount lp value t t', user ≠ cfg.accountId id →
        deposit cfg id user amount s' = (.ok lp, t) →
        withdraw cfg id user lp t = (.ok value, t') → value ≤ amount :=
  ⟨sharePrice_le_of_run hfloor husers hpos hrun,
    fun _ _ _ _ _ _ hne hd hw => roundTrip_le hfloor hne hd hw⟩

/-- The sample with products of any length rounded down. -/
def sampleFloor : Config Nat Nat Nat :=
  { sample with multiplyByRational := fun a b c => Fixed.checked (a * b / max c 1) }

theorem sampleFloor_floors : Floors sampleFloor.multiplyByRational := by
  intro a b c m hc h
  rw [(Fixed.checked_ok.mp h).2, max_eq_left (Nat.one_le_iff_ne_zero.mpr hc.ne')]

/-- A vault whose one strategy reports a profit of `50` on deposits of `100`. -/
def sampleProfitable : State Nat Nat Nat :=
  (run (step sampleFloor) sampleGenesis [.create 0 (.signed 7) sampleVault 15,
    .deposit (.signed 7) 1 100, .updateStrategyReport 1 8 50]).getD sampleGenesis

/-- A deposit of `40` into it mints `26` LP tokens, and `30` of them are then withdrawn. -/
theorem share_value_never_diluted_sample :
    ∃ s', run (userStep sampleFloor 1) sampleProfitable [.deposit 7 40, .withdraw 7 30] = some s' ∧
      sharePrice sampleFloor sampleProfitable 1 ≤ sharePrice sampleFloor s' 1 := by
  have hsome : (run (userStep sampleFloor 1) sampleProfitable [.deposit 7 40,
      .withdraw 7 30]).isSome = true := by
    decide +kernel
  obtain ⟨s', hrun⟩ := Option.isSome_iff_exists.mp hsome
  exact ⟨s', hrun,
    (share_value_never_diluted sampleFloor sampleFloor_floors 1 (by decide +kernel)
      (by decide +kernel) hrun).1⟩

end Vault
end Composable
