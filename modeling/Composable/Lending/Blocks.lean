import Composable.Lending.Assets
import Composable.Lending.Closing
import Composable.Lending.Turns
import Composable.Lending.Validity

/-!
# `Lending.Blocks` — markets meet at the start of a block only to fail

The turn of a market reads and writes what is stored of that market, its own account and its own
vault (`SameMarket`). No two markets share any of it (`Apart`), so the turns are independent of each
other, and one that goes through does what it would do if its market were the only one.

But all turns are made in one transaction: when one of them fails, none of them counts.
So a market that is fine does not accrue because the vault of another one cannot be
drained (`block_start_lost`), and what holds is that a block start counts for every
market or for none (`block_starts_joint`).
-/

namespace Composable
namespace Lending

variable {A X F : Type} [DecidableEq A] [DecidableEq X]
variable {cfg : Config A X F} {s s' t t' : State A X F} {m n id now amount : Nat} {strategy : A}
  {u : Unit}

/-! ## The funds of a market -/

/-- The vault looks the same. -/
structure SameVault (cfg : Config A X F) (id : Nat) (v v' : Vault.State A X F) : Prop where
  vault : v'.vaults id = v.vaults id
  capital : v'.capitalStructure id = v.capitalStructure id
  idle : v.ledger.SameAt (cfg.vault.accountId id) v'.ledger

section Queries

variable {P : Vault.State A X F → Vault.State A X F → Prop} {v v' : Vault.State A X F}

omit [DecidableEq A] [DecidableEq X] in
theorem vaultInfo_related (hP : ∀ {v v'}, P v v' → SameVault cfg id v v') (h : P v v') :
    Call.Related P (Vault.vaultInfo id) (Vault.vaultInfo id) v v' :=
  Call.related_get (Call.related_ofOption (hP h).vault h)

omit [DecidableEq A] [DecidableEq X] in
theorem assetsUnderManagement_related (hP : ∀ {v v'}, P v v' → SameVault cfg id v v') (h : P v v') :
    Call.Related P (Vault.assetsUnderManagement cfg.vault id)
      (Vault.assetsUnderManagement cfg.vault id) v v' := by
  refine Call.related_bind (vaultInfo_related hP h) fun vault v v' h => ?_
  have hassets : Vault.assets cfg.vault v' id vault = Vault.assets cfg.vault v id vault := by
    unfold Vault.assets Vault.outstanding
    rw [(hP h).idle.balance, (hP h).capital]
  apply Call.related_get
  rw [hassets]
  exact Call.related_bind (Call.related_ensure Iff.rfl h) fun _ _ _ h => Call.related_pure h

omit [DecidableEq X] in
/-- What is available to a strategy is read off the vault alone. -/
theorem availableFunds_related (hP : ∀ {v v'}, P v v' → SameVault cfg id v v') (h : P v v') :
    Call.Related P (Vault.availableFunds cfg.vault id strategy)
      (Vault.availableFunds cfg.vault id strategy) v v' := by
  apply Call.related_get
  rw [(hP h).vault, (hP h).capital]
  cases v.vaults id with
  | none => exact Call.related_pure h
  | some vault =>
      cases (v.capitalStructure id).lookup strategy with
      | none => exact Call.related_pure h
      | some overview =>
          dsimp only
          split
          · exact Call.related_bind (assetsUnderManagement_related hP h) fun _ _ _ h =>
              Call.related_pure h
          · exact Call.related_pure h

end Queries

/-- The vault and the strategy look the same to each other. -/
structure SameFunds (cfg : Config A X F) (id : Nat) (strategy : A) (v v' : Vault.State A X F) :
    Prop where
  vault : v'.vaults id = v.vaults id
  capital : v'.capitalStructure id = v.capitalStructure id
  idle : v.ledger.SameAt (cfg.vault.accountId id) v'.ledger
  own : v.ledger.SameAt strategy v'.ledger

namespace SameFunds

variable {v v' : Vault.State A X F}

omit [DecidableEq A] [DecidableEq X] in
theorem sameVault (h : SameFunds cfg id strategy v v') : SameVault cfg id v v' :=
  ⟨h.vault, h.capital, h.idle⟩

/-- A transfer between the two. -/
theorem transfer {x : X} {a b : A} {k : Bool} {f : TokenError → DispatchError Vault.Error}
    (hparties : cfg.vault.currency.Parties) (ha : a = cfg.vault.accountId id ∨ a = strategy)
    (hb : b = cfg.vault.accountId id ∨ b = strategy) (h : SameFunds cfg id strategy v v') :
    Call.Related (SameFunds cfg id strategy)
      (Vault.onLedger f (cfg.vault.currency.transfer x a b amount k))
      (Vault.onLedger f (cfg.vault.currency.transfer x a b amount k)) v v' := by
  have hsame : ∀ c, c = cfg.vault.accountId id ∨ c = strategy → v.ledger.SameAt c v'.ledger := by
    rintro c (rfl | rfl)
    · exact h.idle
    · exact h.own
  apply Call.related_zoom (Q := fun l l' => l.SameAt (cfg.vault.accountId id) l' ∧
    l.SameAt strategy l')
  · apply Currency.related_commit
    · exact hparties.transfer (hsame a ha) (hsame b hb)
    · exact ⟨h.idle, h.own⟩
    · rw [Currency.paid_exact, Currency.paid_exact]
      exact ⟨h.idle.move, h.own.move⟩
  · rintro l l' ⟨hidle, hown⟩
    exact ⟨h.vault, h.capital, hidle, hown⟩

omit [DecidableEq X] in
theorem putStrategy {overview : Vault.StrategyOverview} (h : SameFunds cfg id strategy v v') :
    SameFunds cfg id strategy (v.putStrategy id strategy overview)
      (v'.putStrategy id strategy overview) := by
  refine ⟨h.vault, ?_, h.idle, h.own⟩
  show Function.update _ id _ id = Function.update _ id _ id
  rw [Function.update_self, Function.update_self, h.capital]

theorem strategyWithdraw (hparties : cfg.vault.currency.Parties)
    (h : SameFunds cfg id strategy v v') :
    Call.Related (SameFunds cfg id strategy) (Vault.strategyWithdraw cfg.vault id strategy amount)
      (Vault.strategyWithdraw cfg.vault id strategy amount) v v' := by
  refine Call.related_bind (vaultInfo_related sameVault h) fun vault v v' h => Call.related_get ?_
  have hentry : v'.strategy id strategy = v.strategy id strategy := by
    rw [Vault.State.strategy, h.capital, Vault.State.strategy]
  rw [hentry]
  refine Call.related_bind (Call.related_ensure Iff.rfl h) fun _ _ _ h => ?_
  refine Call.related_bind (Call.related_ensure Iff.rfl h) fun _ _ _ h => ?_
  refine Call.related_bind (h.transfer hparties (.inl rfl) (.inr rfl)) fun _ _ _ h => ?_
  exact Call.related_modify h.putStrategy

theorem strategyDeposit (hparties : cfg.vault.currency.Parties) (h : SameFunds cfg id strategy v v') :
    Call.Related (SameFunds cfg id strategy) (Vault.strategyDeposit cfg.vault id strategy amount)
      (Vault.strategyDeposit cfg.vault id strategy amount) v v' := by
  refine Call.related_bind (vaultInfo_related sameVault h) fun vault v v' h => Call.related_get ?_
  have hentry : v'.strategy id strategy = v.strategy id strategy := by
    rw [Vault.State.strategy, h.capital, Vault.State.strategy]
  rw [hentry]
  refine Call.related_bind (Call.related_ensure Iff.rfl h) fun _ _ _ h => ?_
  refine Call.related_bind (h.transfer hparties (.inr rfl) (.inl rfl)) fun _ _ _ h => ?_
  exact Call.related_modify h.putStrategy

end SameFunds

section Balance

variable {config : MarketConfig A X}

/-- Storages in which the funds of a market look the same. -/
def FundsAlike (cfg : Config A X F) (m id : Nat) (s t : State A X F) : Prop :=
  SameFunds cfg id (cfg.accountId m) s.vault t.vault

theorem handleDepositable_related {balance : Option Nat} (hparties : cfg.vault.currency.Parties)
    (h : FundsAlike cfg m config.borrow s t) :
    Call.Related (FundsAlike cfg m config.borrow) (handleDepositable cfg config m balance)
      (handleDepositable cfg config m balance) s t := by
  have hasset : Call.Related (FundsAlike cfg m config.borrow) (assetId config.borrow)
      (assetId config.borrow) s t :=
    Call.related_bind (Call.related_zoom (vaultInfo_related SameFunds.sameVault h) fun _ _ h => h)
      fun _ _ _ h => Call.related_pure h
  refine Call.related_bind hasset fun asset s t h => Call.related_get ?_
  have hreducible : cfg.vault.currency.reducible t.ledger asset (cfg.accountId m) false =
      cfg.vault.currency.reducible s.ledger asset (cfg.accountId m) false := hparties.reducible h.own
  rw [hreducible]
  exact Call.related_zoom (SameFunds.strategyDeposit hparties h) fun _ _ h => h

/-- Balancing the funds of a market does the same where they look the same. -/
theorem balanceFunds_related (hparties : cfg.vault.currency.Parties)
    (h : FundsAlike cfg m config.borrow s t) :
    Call.Related (FundsAlike cfg m config.borrow) (balanceFunds cfg config m)
      (balanceFunds cfg config m) s t := by
  refine Call.related_bind (Call.related_zoom (availableFunds_related SameFunds.sameVault h)
    fun _ _ h => h) fun funds s t h => ?_
  cases funds with
  | withdrawable balance =>
      exact Call.related_zoom (SameFunds.strategyWithdraw hparties h) fun _ _ h => h
  | depositable balance => exact handleDepositable_related hparties h
  | mustLiquidate => exact handleDepositable_related hparties h

end Balance

/-! ## Markets that look the same -/

/-- Whatever the turn of market `m`, over vault `id`, reads and writes is the same: its index,
    the issuance of its debt token, all that its account and the account of its vault hold, and
    the records of its vault. -/
structure SameMarket (cfg : Config A X F) (m id : Nat) (s t : State A X F) :
    Prop extends Alike cfg m s t where
  capital : t.vault.capitalStructure id = s.vault.capitalStructure id
  idle : s.ledger.SameAt (cfg.vault.accountId id) t.ledger

namespace SameMarket

omit [DecidableEq A] [DecidableEq X] in
theorem equivalence (cfg : Config A X F) (m id : Nat) : Equivalence (SameMarket cfg m id) where
  refl s := ⟨.refl s, rfl, .refl _ _⟩
  symm := by
    intro s t h
    refine ⟨⟨h.market.symm, h.vaults.symm, h.debt.symm, h.index.symm, h.stamp.symm, h.own.symm, ?_⟩,
      h.capital.symm, h.idle.symm⟩
    rw [h.debtAsset, h.issuance]
  trans := by
    intro s t t' h h'
    exact ⟨h.toAlike.trans h'.toAlike, h'.capital.trans h.capital, h.idle.trans h'.idle⟩

/-- The same accrual on both sides. -/
theorem accrued {index : Nat} (h : SameMarket cfg m id s t) :
    SameMarket cfg m id (s.accrued cfg m index amount) (t.accrued cfg m index amount) := by
  have hminted : ∀ {a}, s.ledger.SameAt a t.ledger → (s.accrued cfg m index amount).ledger.SameAt a
      (t.accrued cfg m index amount).ledger := by
    intro a ha
    show Ledger.SameAt a (s.ledger.mint (s.debtAsset cfg m) _ _)
      (t.ledger.mint (t.debtAsset cfg m) _ _)
    rw [h.debtAsset]
    exact ha.mint
  refine ⟨⟨h.market, h.vaults, h.debt, ?_, h.stamp, hminted h.own, ?_⟩, h.capital, hminted h.idle⟩
  · show Function.update _ m _ m = Function.update _ m _ m
    rw [Function.update_self, Function.update_self]
  · show (t.ledger.mint (t.debtAsset cfg m) _ _).issuance (s.debtAsset cfg m) =
      (s.ledger.mint (s.debtAsset cfg m) _ _).issuance (s.debtAsset cfg m)
    rw [h.debtAsset, Ledger.issuance_mint, Ledger.issuance_mint, h.issuance]

/-- Funds that were balanced alike. -/
theorem funds {v v' : Vault.State A X F} {strategy' : A} {id' : Nat} (h : SameMarket cfg m id s t)
    (hv : FundsMoved cfg s.vault id' strategy' v) (hv' : FundsMoved cfg t.vault id' strategy' v')
    (hsame : SameFunds cfg id (cfg.accountId m) v v') :
    SameMarket cfg m id { s with vault := v } { t with vault := v' } := by
  refine ⟨⟨h.market, ?_, h.debt, h.index, h.stamp, hsame.own, ?_⟩, hsame.capital, hsame.idle⟩
  · show v'.vaults = v.vaults
    rw [hv.vaults, hv'.vaults, h.vaults]
  · show v'.ledger.issuance _ = v.ledger.issuance _
    rw [hv.issuance, hv'.issuance]
    exact h.issuance

/-- **The turn of a market** does the same where the market looks the same. -/
theorem turn {config : MarketConfig A X} (hparties : cfg.vault.currency.Parties)
    (hmarket : s.markets.lookup m = some config) (h : SameMarket cfg m config.borrow s t)
    (hturn : turn cfg now s m = some s') :
    ∃ t', Lending.turn cfg now t m = some t' ∧ SameMarket cfg m config.borrow s' t' := by
  simp only [turn_eq_some, initializeMarket_eq, Call.bind_ok, getMarket_ok,
    accrueInterest_iff] at hturn ⊢
  obtain ⟨config', s, ⟨hmarket', rfl⟩, _, _, ⟨a, haccrual, hminted, rfl⟩, hbalance⟩ := hturn
  obtain rfl := Option.some.inj (hmarket'.symm.trans hmarket)
  have haccrual' : accrual cfg m now t = (.ok a, t) := by
    apply accrual_reads.ok_of_toOption
    rw [h.toAlike.accrual.1, haccrual]
    rfl
  have hminted' : cfg.vault.currency.mintRefused t.ledger (t.debtAsset cfg m) (cfg.accountId m)
      a.interest = none := by
    rw [h.debtAsset, hparties.mint h.own h.issuance, hminted]
  have haccrued : SameMarket cfg m config'.borrow (s.accrued cfg m a.index a.interest)
      (t.accrued cfg m a.index a.interest) := h.accrued
  have hfunds : FundsAlike cfg m config'.borrow _ _ :=
    ⟨congrFun haccrued.vaults _, haccrued.capital, haccrued.idle, haccrued.own⟩
  obtain ⟨t', hbalance', hsame⟩ := (balanceFunds_related hparties hfunds).ok hbalance
  obtain ⟨v, hv, rfl⟩ := balanceFunds_ok hbalance
  obtain ⟨v', hv', rfl⟩ := balanceFunds_ok hbalance'
  refine ⟨_, ⟨config', t, ⟨h.market.trans hmarket, rfl⟩, (), _, ⟨a, haccrual', hminted', rfl⟩,
    hbalance'⟩, ?_⟩
  exact haccrued.funds hv hv' hsame

end SameMarket

/-! ## Markets apart from each other -/

/-- No two markets have the same account, vault, account of the vault or debt token. -/
structure Apart (cfg : Config A X F) (s : State A X F) : Prop where
  account : ∀ {m n c c'}, s.markets.lookup m = some c → s.markets.lookup n = some c' →
    cfg.accountId m = cfg.accountId n → m = n
  vault : ∀ {m n c c'}, s.markets.lookup m = some c → s.markets.lookup n = some c' →
    c.borrow = c'.borrow → m = n
  vaultAccount : ∀ {m n c c'}, s.markets.lookup m = some c → s.markets.lookup n = some c' →
    cfg.vault.accountId c.borrow = cfg.vault.accountId c'.borrow → c.borrow = c'.borrow
  debt : ∀ {m n c c'}, s.markets.lookup m = some c → s.markets.lookup n = some c' →
    s.debtAsset cfg m = s.debtAsset cfg n → m = n

/-- The ids of markets and their vaults are counted, and their debt tokens are in use. -/
structure Numbered (cfg : Config A X F) (s : State A X F) : Prop extends Apart cfg s where
  within : s.lendingCount ≤ cfg.maxLendingCount ∧ s.vault.vaultCount ≤ u64Max
  counted : ∀ {m c}, s.markets.lookup m = some c → m ≤ s.lendingCount ∧ c.borrow ≤ s.vault.vaultCount
  issued : ∀ {m c}, s.markets.lookup m = some c →
    ∃ d, s.debtMarkets m = some d ∧ cfg.vault.currencyFactory.inUse s.vault.factory d

omit [DecidableEq A] [DecidableEq X] in
theorem Apart.of_register (h : Apart cfg s) (hmarkets : s'.markets = s.markets)
    (hdebts : s'.debtMarkets = s.debtMarkets) : Apart cfg s' := by
  constructor
  · rw [hmarkets]
    exact h.account
  · rw [hmarkets]
    exact h.vault
  · rw [hmarkets]
    exact h.vaultAccount
  · unfold State.debtAsset
    rw [hmarkets, hdebts]
    exact h.debt

omit [DecidableEq A] [DecidableEq X] in
/-- Ids that are counted have different accounts. -/
theorem accountId_eq_of_counted {count : Nat} (hwithin : count ≤ cfg.maxLendingCount) (hm : m ≤ count)
    (hn : n ≤ count) (heq : cfg.accountId m = cfg.accountId n) : m = n :=
  cfg.accountId_injective (hm.trans hwithin) (hn.trans hwithin) heq

omit [DecidableEq A] [DecidableEq X] in
theorem vaultAccountId_eq_of_counted {v v' : Nat} (hwithin : n ≤ u64Max) (hv : v ≤ n) (hv' : v' ≤ n)
    (heq : cfg.vault.accountId v = cfg.vault.accountId v') : v = v' :=
  cfg.vault.accountId_injective (hv.trans hwithin) (hv'.trans hwithin) heq

namespace Numbered

omit [DecidableEq A] [DecidableEq X] in
theorem of_register (h : Numbered cfg s) (hsame : SameRegister s s') : Numbered cfg s' where
  toApart := h.toApart.of_register hsame.markets hsame.debtMarkets
  within := by
    rw [hsame.lendingCount, hsame.vaultCount]
    exact h.within
  counted := by
    rw [hsame.markets, hsame.lendingCount, hsame.vaultCount]
    exact h.counted
  issued := by
    rw [hsame.markets, hsame.debtMarkets, hsame.factory]
    exact h.issued

omit [DecidableEq A] [DecidableEq X] in
theorem updated {config : MarketConfig A X} {input : UpdateInput} (h : Numbered cfg s)
    (hmarket : s.markets.lookup m = some config) :
    Numbered cfg { s with markets := s.markets.insert m (config.update input) } := by
  refine ⟨⟨fun hm hn heq => ?_, fun hm hn heq => ?_, fun hm hn heq => ?_, fun hm hn heq => ?_⟩,
    h.within, fun hm => ?_, fun hm => ?_⟩
  · obtain ⟨c, hc, -⟩ := lookup_updated hmarket hm
    obtain ⟨c', hc', -⟩ := lookup_updated hmarket hn
    exact h.account hc hc' heq
  · obtain ⟨c, hc, hborrow, -⟩ := lookup_updated hmarket hm
    obtain ⟨c', hc', hborrow', -⟩ := lookup_updated hmarket hn
    exact h.vault hc hc' (by rw [← hborrow, heq, hborrow'])
  · obtain ⟨c, hc, hborrow, -⟩ := lookup_updated hmarket hm
    obtain ⟨c', hc', hborrow', -⟩ := lookup_updated hmarket hn
    rw [hborrow, hborrow'] at heq ⊢
    exact h.vaultAccount hc hc' heq
  · obtain ⟨c, hc, -⟩ := lookup_updated hmarket hm
    obtain ⟨c', hc', -⟩ := lookup_updated hmarket hn
    exact h.debt hc hc' heq
  · obtain ⟨c, hc, hborrow, -⟩ := lookup_updated hmarket hm
    rw [hborrow]
    exact h.counted hc
  · obtain ⟨c, hc, -⟩ := lookup_updated hmarket hm
    exact h.issued hc

/-- A new market gets the next ids and a token that was not in use. -/
theorem created {manager : A} {input : CreateInput X} {lpToken debtAsset : X} {factory factory' : F}
    {poolSize : Nat} (h : Numbered cfg s)
    (hc : Created cfg s manager input lpToken debtAsset factory factory' poolSize) :
    Numbered cfg (s.created cfg manager input lpToken debtAsset factory factory' poolSize) := by
  have hnew : debtAsset =
    (s.created cfg manager input lpToken debtAsset factory factory' poolSize).debtAsset cfg
      (s.lendingCount + 1) := by
    rw [State.debtAsset, debt_created.mpr (.inl ⟨rfl, rfl⟩), Option.getD_some]
  have hold : ∀ {n c}, s.markets.lookup n = some c → ∃ d,
      (s.created cfg manager input lpToken debtAsset factory factory' poolSize).debtMarkets n =
        some d ∧
      s.debtMarkets n = some d ∧ cfg.vault.currencyFactory.inUse s.vault.factory d := by
    intro n c hn
    obtain ⟨d, hd, hused⟩ := h.issued hn
    have hne : n ≠ s.lendingCount + 1 := (Nat.lt_succ_of_le (h.counted hn).1).ne
    exact ⟨d, debt_created.mpr (.inr ⟨hne, hd⟩), hd, hused⟩
  -- The debt token of an older market was in use, so it is not the new one.
  have hfresh : ∀ {n c}, s.markets.lookup n = some c →
      (s.created cfg manager input lpToken debtAsset factory factory' poolSize).debtAsset cfg n ≠
        debtAsset := by
    intro n c hn heq
    obtain ⟨d, hd, -, hused⟩ := hold hn
    rw [State.debtAsset_eq hd] at heq
    exact hc.fresh (heq ▸ hused)
  have hcounted : ∀ {n c},
      (s.created cfg manager input lpToken debtAsset factory factory' poolSize).markets.lookup n =
      some c → n ≤ s.lendingCount + 1 ∧ c.borrow ≤ s.vault.vaultCount + 1 := by
    intro n c hn
    rcases lookup_created hn with ⟨rfl, hb, -⟩ | hn'
    · exact ⟨Nat.le_refl _, hb.le⟩
    · exact ⟨Nat.le_succ_of_le (h.counted hn').1, Nat.le_succ_of_le (h.counted hn').2⟩
  refine ⟨⟨fun hm hn heq => ?_, fun hm hn heq => ?_, fun hm hn heq => ?_, fun hm hn heq => ?_⟩,
    ⟨hc.count_lt, hc.vaultCount_lt⟩, hcounted, fun hm => ?_⟩
  · exact accountId_eq_of_counted hc.count_lt (hcounted hm).1 (hcounted hn).1 heq
  · rcases lookup_created hm with
      ⟨rfl, hb, -⟩ | hm' <;> rcases lookup_created hn with ⟨rfl, hb', -⟩ | hn'
    · rfl
    · have hle := (h.counted hn').2
      omega
    · have hle := (h.counted hm').2
      omega
    · exact h.vault hm' hn' heq
  · exact vaultAccountId_eq_of_counted hc.vaultCount_lt (hcounted hm).2 (hcounted hn).2 heq
  · rcases lookup_created hm with ⟨rfl, -⟩ | hm' <;> rcases lookup_created hn with ⟨rfl, -⟩ | hn'
    · rfl
    · exact absurd (heq.symm.trans hnew.symm) (hfresh hn')
    · exact absurd (heq.trans hnew.symm) (hfresh hm')
    · obtain ⟨d, hd, hd', -⟩ := hold hm'
      obtain ⟨e, he, he', -⟩ := hold hn'
      rw [State.debtAsset_eq hd, State.debtAsset_eq he] at heq
      apply h.debt hm' hn'
      rw [State.debtAsset_eq hd', State.debtAsset_eq he', heq]
  · rcases lookup_created hm with ⟨rfl, -⟩ | hm'
    · exact ⟨debtAsset, debt_created.mpr (.inl ⟨rfl, rfl⟩), hc.inUse_iff.mpr (.inl rfl)⟩
    · obtain ⟨d, hd, -, hused⟩ := hold hm'
      exact ⟨d, hd, hc.inUse_iff.mpr (.inr (.inr hused))⟩

theorem step {op : Op A X} (h : Numbered cfg s) (hstep : step cfg s op = some s') :
    Numbered cfg s' := by
  rcases (step_effect hstep).register with
    hsame | ⟨env, who, input, r, rfl, hcreate⟩ | ⟨who, market, input, rfl⟩
  · exact h.of_register hsame
  · obtain ⟨lpToken, debtAsset, factory, factory', poolSize, hc, rfl⟩ := create_ok hcreate
    exact h.created hc
  · rcases step_updateMarket hstep with rfl | ⟨config, hmarket, -, rfl⟩
    · exact h
    · exact h.updated hmarket

/-- **Markets are apart** in every state that is reached. -/
theorem of_run {ledger : Ledger A X} {factory : F} {start : Nat} {ops : List (Op A X)}
    (hrun : run (Lending.step cfg) (State.genesis ledger factory start) ops = some s) :
    Numbered cfg s := by
  have hgenesis : Numbered cfg (State.genesis ledger factory start) := by
    refine ⟨⟨?_, ?_, ?_, ?_⟩, ⟨Nat.zero_le _, Nat.zero_le _⟩, ?_, ?_⟩ <;> intros <;> contradiction
  refine run_invariant (C := fun _ _ => True) (fun ht _ hstep => ?_) hgenesis (along_true _ _) hrun
  exact ht.step hstep

end Numbered

/-! ## Independent turns -/

/-- The turn of another market leaves a market as it is. -/
theorem turn_frame {config config' : MarketConfig A X} (hne : n ≠ m)
    (hn : s.markets.lookup n = some config')
    (hm : s.markets.lookup m = some config) (hapart : Apart cfg s)
    (hturn : turn cfg now s n = some s') : SameMarket cfg m config.borrow s s' := by
  have hcall := turn_eq_some.mp hturn
  have hdebt : s.debtAsset cfg n ≠ s.debtAsset cfg m := fun heq => hne (hapart.debt hn hm heq)
  have hvault : config'.borrow ≠ config.borrow := fun heq => hne (hapart.vault hn hm heq)
  obtain ⟨c, hc, -, hwritten⟩ := initializeMarket_entry hcall
  obtain rfl := Option.some.inj (hn.symm.trans hc)
  obtain ⟨overview, hentry⟩ := hwritten.entry
  have haccount : cfg.accountId m ≠ cfg.accountId n := fun heq => hne (hapart.account hm hn heq).symm
  refine ⟨initializeMarket_alike hne haccount hdebt hcall, ?_, ?_⟩
  · rw [hentry, Function.update_of_ne hvault.symm]
  · obtain ⟨c, a, v, hc, -, hfunds, rfl⟩ := initializeMarket_turn hcall
    obtain rfl := Option.some.inj (hn.symm.trans hc)
    obtain ⟨vault, amount, -, hmoved⟩ := hfunds.ledger
    have hmarket : cfg.vault.accountId config.borrow ≠ cfg.accountId n :=
      (cfg.accountId_ne_vault n _).symm
    have hother : cfg.vault.accountId config.borrow ≠ cfg.vault.accountId config'.borrow := fun heq =>
      hvault (hapart.vaultAccount hm hn heq).symm
    have hminted : s.ledger.SameAt (cfg.vault.accountId config.borrow)
        (s.ledger.mint (s.debtAsset cfg n) (cfg.accountId n) a.interest) := Ledger.sameAt_mint hmarket
    refine hminted.trans ?_
    show Ledger.SameAt _ _ v.ledger
    rcases hmoved with hout | hin
    · rw [hout]
      exact Ledger.sameAt_move hother hmarket
    · rw [hin]
      exact Ledger.sameAt_move hmarket hother

/-- The turn of a market in a block start that goes through, between storages in which the market
    looks like in the first and like in the last one. -/
theorem initializeBlock_meets {config : MarketConfig A X} (hapart : Apart cfg s)
    (hm : s.markets.lookup m = some config)
    (h : run (turn cfg now) s (cfg.iteration s.markets.keys) = some s') :
    ∃ t t', (t.markets = s.markets ∧ t.debtMarkets = s.debtMarkets) ∧
      SameMarket cfg m config.borrow s t ∧
      turn cfg now t m = some t' ∧ SameMarket cfg m config.borrow t' s' := by
  have hkeeps : ∀ {r n r'}, (r.markets = s.markets ∧ r.debtMarkets = s.debtMarkets) →
      turn cfg now r n = some r' →
      r'.markets = s.markets ∧ r'.debtMarkets = s.debtMarkets := by
    rintro r n r' ⟨hmarkets, hdebts⟩ hturn
    obtain ⟨_, _, _, -, -, -, rfl⟩ := initializeMarket_turn (turn_eq_some.mp hturn)
    exact ⟨hmarkets, hdebts⟩
  have hperm := cfg.iteration_perm s.markets.keys
  have hmem : m ∈ cfg.iteration s.markets.keys := mem_iteration.mpr (Option.isSome_of_eq_some hm)
  refine run_meets_related (SameMarket.equivalence cfg m config.borrow).refl
    (SameMarket.equivalence cfg m config.borrow).trans hkeeps ?_
      (hperm.nodup_iff.mpr s.markets.keys_nodup) hmem
    ⟨rfl, rfl⟩ h
  rintro r n r' ⟨hmarkets, hdebts⟩ - hne hturn
  obtain ⟨config', _, _, hn, -⟩ := initializeMarket_turn (turn_eq_some.mp hturn)
  exact turn_frame hne hn (hmarkets ▸ hm) (hapart.of_register hmarkets hdebts) hturn

/-- **Turns do not interfere.** -/
theorem turn_independent (hparties : cfg.vault.currency.Parties) (hapart : Apart cfg s) :
    Independent (turn cfg now) (fun r => r.markets = s.markets ∧ r.debtMarkets = s.debtMarkets)
      (fun m => (s.markets.lookup m).isSome = true)
      (fun m r r' => ∀ config, s.markets.lookup m = some config →
        SameMarket cfg m config.borrow r r') where
  equiv := by
    intro m
    refine ⟨fun r config _ => (SameMarket.equivalence cfg m _).refl r, fun h config hc => ?_,
      fun h h' config hc => ?_⟩
    · exact (SameMarket.equivalence cfg m _).symm (h config hc)
    · exact (SameMarket.equivalence cfg m _).trans (h config hc) (h' config hc)
  keeps := by
    rintro r n r' ⟨hmarkets, hdebts⟩ hturn
    obtain ⟨_, _, _, -, -, -, rfl⟩ := initializeMarket_turn (turn_eq_some.mp hturn)
    exact ⟨hmarkets, hdebts⟩
  frame := by
    rintro r n r' m ⟨hmarkets, hdebts⟩ - hne hturn config hc
    obtain ⟨config', _, _, hn, -⟩ := initializeMarket_turn (turn_eq_some.mp hturn)
    exact turn_frame hne hn (hmarkets ▸ hc) (hapart.of_register hmarkets hdebts) hturn
  congr := by
    rintro r t m r' ⟨hmarkets, -⟩ hstored hsame hturn
    obtain ⟨config, hc⟩ := Option.isSome_iff_exists.mp hstored
    obtain ⟨t', ht', hsame'⟩ := (hsame config hc).turn hparties (hmarkets ▸ hc) hturn
    refine ⟨t', ht', fun c hc' => ?_⟩
    obtain rfl := Option.some.inj (hc.symm.trans hc')
    exact hsame'

/-! ## Block starts -/

theorem initializeBlock_kept (h : run (turn cfg now) s (cfg.iteration s.markets.keys) = some t) :
    initializeBlock cfg now s = (.ok (), { t with lastBlockTimestamp := now }) := by
  rw [initializeBlock, initializeMarkets_run.mpr h]

theorem initializeBlock_lost (h : run (turn cfg now) s (cfg.iteration s.markets.keys) = none) :
    (initializeBlock cfg now s).2 = s := by
  unfold initializeBlock
  split
  next hloop =>
    rw [initializeMarkets_run.mp hloop] at h
    cases h
  next => rfl
  next => rfl

/-- The storage with market `m` as the only one. -/
def State.only (s : State A X F) (m : Nat) : State A X F :=
  { s with
    markets := (s.markets.lookup m).elim ∅ fun config => (∅ : StorageMap Nat _).insert m config }

section Only

variable {config : MarketConfig A X}

omit [DecidableEq A] [DecidableEq X] in
theorem only_markets (hmarket : s.markets.lookup m = some config) :
    (s.only m).markets = (∅ : StorageMap Nat _).insert m config := by
  rw [State.only, hmarket, Option.elim_some]

omit [DecidableEq A] [DecidableEq X] in
theorem sameMarket_only (hmarket : s.markets.lookup m = some config) :
    SameMarket cfg m id s (s.only m) := by
  refine ⟨⟨?_, rfl, rfl, rfl, rfl, .refl _ _, rfl⟩, rfl, .refl _ _⟩
  rw [only_markets hmarket, AList.lookup_insert, hmarket]

omit [DecidableEq A] [DecidableEq X] in
theorem iteration_only (hmarket : s.markets.lookup m = some config) :
    cfg.iteration (s.only m).markets.keys = [m] := by
  have hkeys : (s.only m).markets.keys = [m] := by
    rw [only_markets hmarket]
    rfl
  rw [← List.perm_singleton, hkeys]
  exact cfg.iteration_perm [m]

omit [DecidableEq A] [DecidableEq X] in
/-- Both block starts write the time. -/
theorem SameMarket.stamped (h : SameMarket cfg m id s t) :
    SameMarket cfg m id { s with lastBlockTimestamp := now } { t with lastBlockTimestamp := now } :=
  ⟨⟨h.market, h.vaults, h.debt, h.index, rfl, h.own, h.issuance⟩, h.capital, h.idle⟩

/-- The block start of a market that is the only one. -/
theorem initializeBlock_only (hparties : cfg.vault.currency.Parties)
    (hmarket : s.markets.lookup m = some config) (hturn : turn cfg now s m = some t) :
    ∃ lone, initializeBlock cfg now (s.only m) = (.ok (), { lone with lastBlockTimestamp := now }) ∧
      SameMarket cfg m config.borrow t lone := by
  obtain ⟨lone, hlone, hsame⟩ := (sameMarket_only hmarket).turn hparties hmarket hturn
  refine ⟨lone, initializeBlock_kept ?_, hsame⟩
  rw [iteration_only hmarket]
  exact run_cons.mpr ⟨lone, hlone, rfl⟩

end Only

/-- **Block starts are joint.** Take any storage with the markets of a state that is reached,
    whatever else is in it. If the turn of every market goes through, the block start leaves of each
    what it would leave if it were the only one: index, minted interest, and the movement of funds
    from or to its vault. If the turn of any market fails, the block start changes nothing. -/
theorem block_starts_joint (hparties : cfg.vault.currency.Parties) {ledger : Ledger A X}
    {factory : F} {start : Nat} {ops : List (Op A X)} {r : State A X F}
    (hrun : run (step cfg) (State.genesis ledger factory start) ops = some r)
    (hmarkets : s.markets = r.markets) (hdebts : s.debtMarkets = r.debtMarkets) (now : Nat) :
    ((∀ m, (s.markets.lookup m).isSome = true → (turn cfg now s m).isSome = true) →
      ∃ s', initializeBlock cfg now s = (.ok (), s') ∧ ∀ m config, s.markets.lookup m = some config →
        ∃ lone, initializeBlock cfg now (s.only m) = (.ok (), lone) ∧
          SameMarket cfg m config.borrow lone s') ∧
    ((∃ m, (s.markets.lookup m).isSome = true ∧ turn cfg now s m = none) →
      (initializeBlock cfg now s).2 = s) := by
  -- A turn for one market neither sees nor touches what a turn for another does.
  have hturns : Independent (turn cfg now) _ _ _ := turn_independent hparties
    ((Numbered.of_run hrun).toApart.of_register hmarkets hdebts)
  have hnodup : (cfg.iteration s.markets.keys).Nodup :=
    (cfg.iteration_perm s.markets.keys).nodup_iff.mpr s.markets.keys_nodup
  have hstored : ∀ m ∈ cfg.iteration s.markets.keys, (s.markets.lookup m).isSome = true :=
    fun m hm => mem_iteration.mp hm
  constructor
  · intro hall
    obtain ⟨t, ht⟩ := hturns.run_of_alone hstored hnodup ⟨rfl, rfl⟩ fun m hm =>
      Option.isSome_iff_exists.mp (hall m (hstored m hm))
    refine ⟨_, initializeBlock_kept ht, fun m config hmarket => ?_⟩
    have hm : m ∈ cfg.iteration s.markets.keys := mem_iteration.mpr (Option.isSome_of_eq_some hmarket)
    obtain ⟨u, hu, hsame⟩ := hturns.alone_of_run hstored hnodup ⟨rfl, rfl⟩ ht hm
    obtain ⟨lone, hlone, halone⟩ := initializeBlock_only hparties hmarket hu
    refine ⟨_, hlone, SameMarket.stamped ?_⟩
    exact (SameMarket.equivalence cfg m _).trans ((SameMarket.equivalence cfg m _).symm halone)
      (hsame config hmarket)
  -- The turn that fails alone fails after the others, and the transaction undoes them.
  · rintro ⟨m, hm, hfails⟩
    apply initializeBlock_lost
    rw [Option.eq_none_iff_forall_ne_some]
    intro t ht
    obtain ⟨u, hu, -⟩ := hturns.alone_of_run hstored hnodup ⟨rfl, rfl⟩ ht (mem_iteration.mpr hm)
    rw [hfails] at hu
    cases hu

/-- A year, in seconds. -/
def year : Nat := 31536000

/-- Two markets, the second of them with a vault that reserves nothing. -/
def meetingOps : List (Op Nat Nat) :=
  [.createMarket ⟨0, sampleOracle fun _ => 1⟩ (.signed 7) ⟨sampleInput, sampleInput_valid⟩,
    .createMarket ⟨0, sampleOracle fun _ => 1⟩ (.signed 7) ⟨{ sampleInput with reservedFactor := 0 },
      ⟨by decide, sampleInput_valid.interestRateModel, by decide⟩⟩]

/-- A year later both turns go through. -/
theorem block_starts_joint_sample : ∃ r s',
    run (step sample) (State.genesis sampleLedger 100 0) meetingOps = some r ∧
      initializeBlock sample year r = (.ok (), s') ∧ ∀ m config, r.markets.lookup m = some config →
        ∃ lone, initializeBlock sample year (r.only m) = (.ok (), lone) ∧
          SameMarket sample m config.borrow lone s' := by
  have hview : (run (step sample) (State.genesis sampleLedger 100 0) meetingOps).map
      (fun r => r.markets.keys.all fun m => (turn sample year r m).isSome) = some true := by
        decide +kernel
  obtain ⟨r, hrun, hall⟩ := Option.map_eq_some_iff.mp hview
  have hjoint :=
    block_starts_joint (show sample.vault.currency.Parties from Currency.existential_parties _) hrun
      rfl
    rfl year
  obtain ⟨s', hblock, halone⟩ := hjoint.1 fun m hm =>
    List.all_eq_true.mp hall m (AList.mem_keys.mp (AList.lookup_isSome.mp hm))
  exact ⟨r, s', hrun, hblock, halone⟩

/-- Account `3` deposits to the vault of the second market, which is to withdraw all of it. -/
def drainedMarkets : Option (State Nat Nat Nat) :=
  (run (step sample) (State.genesis sampleLedger 100 0) meetingOps).map fun r =>
    { r with vault := dispatch (Vault.depositExtrinsic sample.vault (.signed 3) 2 500) r.vault }

/-- **A block start is lost**: the first market would accrue if it were the only one, and it does
    not, because the account of the second vault would not survive the withdrawal. -/
theorem block_start_lost : ∃ s, drainedMarkets = some s ∧ (turn sample year s 1).isSome = true ∧
    (initializeBlock sample year (s.only 1)).2.borrowIndex 1 = some (11 * 10 ^ 17) ∧
    (initializeBlock sample year s).2.borrowIndex 1 = some (10 ^ 18) := by
  have hview : drainedMarkets.map (fun s => ((turn sample year s 1).isSome,
      (initializeBlock sample year (s.only 1)).2.borrowIndex 1,
      (initializeBlock sample year s).2.borrowIndex 1)) =
      some (true, some (11 * 10 ^ 17), some (10 ^ 18)) := by decide +kernel
  obtain ⟨s, hrun, hs⟩ := Option.map_eq_some_iff.mp hview
  simp only [Prod.mk.injEq] at hs
  obtain ⟨hturn, halone, hjoint⟩ := hs
  exact ⟨s, hrun, hturn, halone, hjoint⟩

end Lending
end Composable
