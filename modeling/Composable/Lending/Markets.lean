import Composable.Lending.Effect

/-!
# `Lending.Markets` — the register of markets

What every run of the pallet keeps about its markets, whatever the ledger holds: a stored market has
an id that was given out, a debt token, and a vault for an asset other than its collateral
(`Listed`); ids that were not given out have no records; and a borrow is recorded with both its
index and its time, never for the account of a market (`Registered`).

An operation of one market leaves the records of the others alone (`Local`).
-/

namespace Composable
namespace Lending

variable {A X F : Type} [DecidableEq A] [DecidableEq X]
variable {cfg : Config A X F} {s s' : State A X F} {m : Nat}

/-- What holds of a stored market. -/
structure Listed (s : State A X F) (m : Nat) (config : MarketConfig A X) : Prop where
  le_count : m ≤ s.lendingCount
  debt : ∃ d, s.debtMarkets m = some d
  borrow_le : config.borrow ≤ s.vault.vaultCount
  vault : ∃ v, s.vault.vaults config.borrow = some v ∧ v.assetId ≠ config.collateral

/-- Nothing is recorded of a market. -/
structure Blank (s : State A X F) (m : Nat) : Prop where
  debtMarkets : s.debtMarkets m = none
  debtIndex : s.debtIndex m = ∅
  borrowTimestamp : s.borrowTimestamp m = ∅
  borrowRent : s.borrowRent m = ∅
  accountCollateral : s.accountCollateral m = ∅

/-- The records are in order: of stored markets, of ids without a market, and of borrows. -/
structure Registered (cfg : Config A X F) (s : State A X F) : Prop where
  counted : s.lendingCount ≤ cfg.maxLendingCount
  listed : ∀ {m config}, s.markets.lookup m = some config → Listed s m config
  blank : ∀ {m}, s.lendingCount < m → Blank s m
  dated : ∀ m a, (s.debtIndex.get m a).isSome = (s.borrowTimestamp.get m a).isSome
  user : ∀ m n, s.borrowTimestamp.get m (cfg.accountId n) = none

omit [DecidableEq X] in
theorem Registered.genesis (ledger : Ledger A X) (factory : F) (now : Nat) :
    Registered cfg (State.genesis ledger factory now) where
  counted := Nat.zero_le _
  listed h := by cases h
  blank _ := ⟨rfl, rfl, rfl, rfl, rfl⟩
  dated _ _ := rfl
  user _ _ := rfl

omit [DecidableEq X] in
theorem Registered.isSome_le (h : Registered cfg s) {d : X} (hd : s.debtMarkets m = some d) :
    m ≤ s.lendingCount := by
  by_contra hlt
  rw [(h.blank (Nat.lt_of_not_le hlt)).debtMarkets] at hd
  cases hd

omit [DecidableEq X] in
theorem Registered.le_max (h : Registered cfg s) {config : MarketConfig A X}
    (hm : s.markets.lookup m = some config) :
    m ≤ cfg.maxLendingCount := (h.listed hm).le_count.trans h.counted

omit [DecidableEq A] [DecidableEq X] in
/-- Different ids that can be given out have different accounts. -/
theorem accountId_ne {n : Nat} (hm : m ≤ cfg.maxLendingCount) (hn : n ≤ cfg.maxLendingCount)
    (hne : n ≠ m) :
    cfg.accountId n ≠ cfg.accountId m := fun heq => hne (cfg.accountId_injective hn hm heq)

omit [DecidableEq X] in
/-- No market has an index of its own. -/
theorem Registered.user_of_index (hr : Registered cfg s) {a : A}
    (h : (s.debtIndex.get m a).isSome = true) (n : Nat) : a ≠ cfg.accountId n := by
  rintro rfl
  rw [hr.dated, hr.user] at h
  cases h

omit [DecidableEq X] in
/-- No market repays a borrow of its own. -/
theorem Repaid.user {payer beneficiary : A} {amount owed : Nat} {config : MarketConfig A X}
    {vault : Vault.VaultInfo A X} (h : Repaid cfg s m payer beneficiary amount config vault owed)
    (hr : Registered cfg s) (n : Nat) : beneficiary ≠ cfg.accountId n := by
  rintro rfl
  have hactive := h.active
  rw [hr.user] at hactive
  cases hactive

omit [DecidableEq A] [DecidableEq X] in
theorem State.debtAsset_eq {d : X} (h : s.debtMarkets m = some d) : s.debtAsset cfg m = d := by
  rw [State.debtAsset, h, Option.getD_some]

/-! ## Operations of one market -/

/-- `s'` differs from `s` in the ledger, the auction and the records of market `m`. -/
structure Local (m : Nat) (s s' : State A X F) : Prop where
  vaults : s'.vault.vaults = s.vault.vaults
  vaultCount : s'.vault.vaultCount = s.vault.vaultCount
  factory : s'.vault.factory = s.vault.factory
  lendingCount : s'.lendingCount = s.lendingCount
  markets : s'.markets = s.markets
  debtMarkets : s'.debtMarkets = s.debtMarkets
  debtIndex : ∀ n, n ≠ m → s'.debtIndex n = s.debtIndex n
  borrowTimestamp : ∀ n, n ≠ m → s'.borrowTimestamp n = s.borrowTimestamp n
  borrowRent : ∀ n, n ≠ m → s'.borrowRent n = s.borrowRent n
  borrowIndex : ∀ n, n ≠ m → s'.borrowIndex n = s.borrowIndex n
  accountCollateral : ∀ n, n ≠ m → s'.accountCollateral n = s.accountCollateral n

omit [DecidableEq A] [DecidableEq X] in
theorem Local.refl (s : State A X F) : Local m s s :=
  ⟨rfl, rfl, rfl, rfl, rfl, rfl, fun _ _ => rfl, fun _ _ => rfl, fun _ _ => rfl, fun _ _ => rfl,
    fun _ _ => rfl⟩

/-- The register of markets, with the counters of ids, the debt tokens and the vaults, is the
    same. -/
structure SameRegister (s s' : State A X F) : Prop where
  vaults : s'.vault.vaults = s.vault.vaults
  vaultCount : s'.vault.vaultCount = s.vault.vaultCount
  factory : s'.vault.factory = s.vault.factory
  lendingCount : s'.lendingCount = s.lendingCount
  markets : s'.markets = s.markets
  debtMarkets : s'.debtMarkets = s.debtMarkets

omit [DecidableEq A] [DecidableEq X] in
theorem SameRegister.refl (s : State A X F) : SameRegister s s := ⟨rfl, rfl, rfl, rfl, rfl, rfl⟩

omit [DecidableEq A] [DecidableEq X] in
theorem SameRegister.trans {t : State A X F} (h : SameRegister s t) (h' : SameRegister t s') :
    SameRegister s s' where
  vaults := h'.vaults.trans h.vaults
  vaultCount := h'.vaultCount.trans h.vaultCount
  factory := h'.factory.trans h.factory
  lendingCount := h'.lendingCount.trans h.lendingCount
  markets := h'.markets.trans h.markets
  debtMarkets := h'.debtMarkets.trans h.debtMarkets

omit [DecidableEq A] [DecidableEq X] in
theorem Local.register (h : Local m s s') : SameRegister s s' :=
  ⟨h.vaults, h.vaultCount, h.factory, h.lendingCount, h.markets, h.debtMarkets⟩

omit [DecidableEq A] [DecidableEq X] in
theorem Local.trans {t : State A X F} (h : Local m s t) (h' : Local m t s') : Local m s s' where
  __ := h.register.trans h'.register
  debtIndex n hn := (h'.debtIndex n hn).trans (h.debtIndex n hn)
  borrowTimestamp n hn := (h'.borrowTimestamp n hn).trans (h.borrowTimestamp n hn)
  borrowRent n hn := (h'.borrowRent n hn).trans (h.borrowRent n hn)
  borrowIndex n hn := (h'.borrowIndex n hn).trans (h.borrowIndex n hn)
  accountCollateral n hn := (h'.accountCollateral n hn).trans (h.accountCollateral n hn)

/-- A record of market `m` is written. -/
theorem Local.put {V : Type} {r : StorageDoubleMap Nat A V} {a : A} {v : V} :
    ∀ n, n ≠ m → r.put m a v n = r n := fun _ hn => StorageDoubleMap.put_of_ne hn

theorem Local.remove {V : Type} {r : StorageDoubleMap Nat A V} {a : A} :
    ∀ n, n ≠ m → r.remove m a n = r n := fun _ hn => StorageDoubleMap.remove_of_ne hn

omit [DecidableEq X] in
/-- An operation of a stored market keeps the register if it keeps the records
    of the market in order. -/
theorem Registered.of_local (h : Registered cfg s) (hlocal : Local m s s') (hm : m ≤ s.lendingCount)
    (hdated : ∀ a, (s'.debtIndex.get m a).isSome = (s'.borrowTimestamp.get m a).isSome)
    (huser : ∀ n, s'.borrowTimestamp.get m (cfg.accountId n) = none) : Registered cfg s' where
  counted := hlocal.lendingCount.trans_le h.counted
  listed := by
    intro n config hn
    rw [hlocal.markets] at hn
    obtain ⟨hle, hdebt, hborrow, hvault⟩ := h.listed hn
    refine ⟨hlocal.lendingCount ▸ hle, ?_, hlocal.vaultCount ▸ hborrow, ?_⟩
    · rwa [hlocal.debtMarkets]
    · rwa [hlocal.vaults]
  blank := by
    intro n hn
    rw [hlocal.lendingCount] at hn
    have hne : n ≠ m := (hm.trans_lt hn).ne'
    obtain ⟨hdebt, hindex, htime, hrent, hcollateral⟩ := h.blank hn
    refine ⟨?_, ?_, ?_, ?_, ?_⟩
    · rw [hlocal.debtMarkets, hdebt]
    · rw [hlocal.debtIndex n hne, hindex]
    · rw [hlocal.borrowTimestamp n hne, htime]
    · rw [hlocal.borrowRent n hne, hrent]
    · rw [hlocal.accountCollateral n hne, hcollateral]
  dated := by
    intro n a
    by_cases hn : n = m
    · rw [hn, hdated]
    · unfold StorageDoubleMap.get
      rw [hlocal.debtIndex n hn, hlocal.borrowTimestamp n hn]
      exact h.dated n a
  user := by
    intro n k
    by_cases hn : n = m
    · rw [hn, huser]
    · unfold StorageDoubleMap.get
      rw [hlocal.borrowTimestamp n hn]
      exact h.user n k

omit [DecidableEq X] in
/-- So does one that leaves its borrows alone. -/
theorem Registered.of_same_borrows (h : Registered cfg s) (hlocal : Local m s s')
    (hm : m ≤ s.lendingCount)
    (hindex : s'.debtIndex = s.debtIndex) (htime : s'.borrowTimestamp = s.borrowTimestamp) :
    Registered cfg s' := by
  apply h.of_local hlocal hm
  · intro a
    rw [hindex, htime, h.dated]
  · intro n
    rw [htime, h.user]

/-! ## What each operation touches -/

section Touched

variable {config : MarketConfig A X} {asset : X} {a payer : A} {amount index : Nat}

omit [DecidableEq A] [DecidableEq X] in
theorem local_withLedger (l : Ledger A X) : Local m s (s.withLedger l) where
  __ := Local.refl (m := m) s

omit [DecidableEq A] [DecidableEq X] in
theorem local_stamped (m : Nat) {now : Nat} : Local m s { s with lastBlockTimestamp := now } where
  __ := Local.refl (m := m) s

theorem local_deposited : Local m s (s.deposited cfg config m a amount) where
  __ := Local.refl (m := m) s
  accountCollateral := Local.put

theorem local_withdrawn : Local m s (s.withdrawn cfg config m a amount) where
  __ := Local.refl (m := m) s
  accountCollateral := Local.put

theorem local_borrowed : Local m s (s.borrowed cfg asset m a amount index) where
  __ := Local.refl (m := m) s
  debtIndex := Local.put
  borrowTimestamp := Local.put

theorem local_rented : Local m s (s.rented cfg m a) where
  __ := Local.refl (m := m) s
  borrowRent := Local.put

theorem local_repaid : Local m s (s.repaid cfg asset m payer a amount) := local_withLedger _

omit [DecidableEq X] in
theorem local_closed : Local m s (s.closed m a) where
  __ := Local.refl (m := m) s
  debtIndex := Local.remove
  borrowTimestamp := Local.remove

theorem local_accrued : Local m s (s.accrued cfg m index amount) where
  __ := Local.refl (m := m) s
  borrowIndex := fun _ hn => Function.update_of_ne hn ..

omit [DecidableEq A] [DecidableEq X] in
theorem local_liquidated {t : DutchAuction.State A X} {l : Ledger A X} :
    Local m s ((s.withAuction t).withLedger l) where
  __ := Local.refl (m := m) s

omit [DecidableEq A] in
/-- Moving funds between a vault and a strategy leaves the register alone. -/
theorem local_fundsMoved [DecidableEq A] {v : Vault.State A X F} {id : Nat}
    (h : FundsMoved cfg s.vault id a v) : Local m s { s with vault := v } where
  __ := Local.refl (m := m) s
  vaults := h.vaults
  vaultCount := h.vaultCount
  factory := h.factory

end Touched

/-! ## Borrows -/

section Borrows

variable {asset : X} {a c : A} {amount index n : Nat}

theorem isSome_borrowed : ((s.borrowed cfg asset m a amount index).borrowTimestamp.get n c).isSome =
    (decide (n = m ∧ c = a) || (s.borrowTimestamp.get n c).isSome) := StorageDoubleMap.isSome_get_put

/-- Whoever borrows has a borrow. -/
theorem isSome_borrowed_self :
    ((s.borrowed cfg asset m a amount index).borrowTimestamp.get m a).isSome = true := by
  simp [isSome_borrowed]

omit [DecidableEq X] in
theorem isSome_closed : ((s.closed m a).borrowTimestamp.get n c).isSome =
    (!decide (n = m ∧ c = a) && (s.borrowTimestamp.get n c).isSome) :=
  StorageDoubleMap.isSome_get_remove

end Borrows

/-! ## Steps -/

/-- A borrow is recorded with its index and its time. -/
theorem borrow_registered {env : Env X} {owner : A} {amount : Nat} {u : Unit} (hs : Registered cfg s)
    (howner : ∀ n, owner ≠ cfg.accountId n)
    (h : borrowInternal cfg env m owner amount s = (.ok u, s')) : Registered cfg s' := by
  obtain ⟨config, vault, marketIndex, hborrow, hrent⟩ := borrow_ok h
  have hm := (hs.listed hborrow.market_eq).le_count
  generalize s.nextIndex cfg m owner amount marketIndex = index at hrent
  have hborrowed : Registered cfg (s.borrowed cfg vault.assetId m owner amount index) := by
    apply hs.of_local local_borrowed hm
    · intro a
      simp only [State.borrowed, State.withLedger, StorageDoubleMap.isSome_get_put, hs.dated]
    · intro n
      simp only [State.borrowed, State.withLedger, StorageDoubleMap.get_put]
      rw [if_neg fun heq => howner n heq.2.symm]
      exact hs.user m n
  rcases payRent_ok hrent with ⟨-, -, rfl⟩ | ⟨-, rfl⟩
  · exact hborrowed.of_same_borrows local_rented hm rfl rfl
  · exact hborrowed

/-- A repayment keeps both records of the borrow, or removes both. -/
theorem repay_registered {payer beneficiary : A} {amount : Nat} {u : Unit} (hs : Registered cfg s)
    (h : repayBorrowInternal cfg m payer beneficiary (some amount) s = (.ok u, s')) :
    Registered cfg s' := by
  rcases repay_ok h with ⟨-, rfl⟩ | ⟨config, vault, owed, hrepaid, -, hcases⟩
  · exact hs
  · have hm := (hs.listed hrepaid.market_eq).le_count
    have hkept : Registered cfg (s.repaid cfg vault.assetId m payer beneficiary amount) :=
      hs.of_same_borrows local_repaid hm rfl rfl
    rcases hcases with ⟨-, rfl⟩ | ⟨-, hclose⟩
    · exact hkept
    · obtain ⟨-, rfl⟩ := closeBorrow_ok hclose
      refine hkept.of_local (local_closed.trans (local_withLedger _)) hm (fun a => ?_) fun n => ?_
      · simp only [State.closed, State.withLedger, StorageDoubleMap.isSome_get_remove, hkept.dated]
      · simp only [State.closed, State.withLedger, StorageDoubleMap.get_remove]
        split
        · rfl
        · exact hkept.user m n

theorem liquidateAccount_registered {env : Env X} {liquidator account : A} {u : Unit}
    (hs : Registered cfg s) (h : liquidateAccount cfg env liquidator m account s = (.ok u, s')) :
    Registered cfg s' := by
  rcases liquidateAccount_ok h with ⟨-, rfl⟩ | ⟨config, _, _, _, _, t, -, hmarket, -, -, -, rfl⟩
  · exact hs
  · exact hs.of_same_borrows local_liquidated (hs.listed hmarket).le_count rfl rfl

theorem initializeMarket_registered {now : Nat} {u : Unit} (hs : Registered cfg s)
    (h : initializeMarket cfg now m s = (.ok u, s')) : Registered cfg s' := by
  obtain ⟨config, index, index', amount, v, hmarket, -, -, hfunds, rfl⟩ := initializeMarket_ok h
  exact hs.of_same_borrows (local_accrued.trans (local_fundsMoved hfunds))
    (hs.listed hmarket).le_count
    rfl rfl

section Create

variable {manager : A} {input : CreateInput X} {lpToken debtAsset : X} {factory factory' : F}
  {poolSize n : Nat}

/-- A new market goes under the next id, and its vault under the next vault id. -/
theorem lookup_created {config : MarketConfig A X}
    (h : (s.created cfg manager input lpToken debtAsset factory factory' poolSize).markets.lookup n =
      some config) :
    (n = s.lendingCount + 1 ∧ config.borrow = s.vault.vaultCount + 1 ∧
      config.collateral = input.collateralAsset) ∨ s.markets.lookup n = some config := by
  rcases StorageMap.lookup_insert_some.mp h with ⟨rfl, rfl⟩ | ⟨-, hold⟩
  · exact .inl ⟨rfl, rfl, rfl⟩
  · exact .inr hold

theorem debt_created {d : X} :
    (s.created cfg manager input lpToken debtAsset factory factory' poolSize).debtMarkets n = some d ↔
      (n = s.lendingCount + 1 ∧ d = debtAsset) ∨
        (n ≠ s.lendingCount + 1 ∧ s.debtMarkets n = some d) := by
  show Function.update s.debtMarkets (s.lendingCount + 1) (some debtAsset) n = some d ↔ _
  by_cases hn : n = s.lendingCount + 1
  · rw [hn, Function.update_self, Option.some_inj]
    simp [eq_comm]
  · simp [hn]

/-- The vault of a market is the new one of the new market, or as it was. -/
theorem vault_created {config : MarketConfig A X} {v : Vault.VaultInfo A X} (hs : Registered cfg s)
    (hmarket : (s.created cfg manager input lpToken debtAsset factory factory'
      poolSize).markets.lookup n = some config)
    (h : (s.created cfg manager input lpToken debtAsset factory factory' poolSize).vault.vaults
      config.borrow = some v) :
    v.assetId = input.borrowAsset ∨
      (s.markets.lookup n = some config ∧ s.vault.vaults config.borrow = some v) := by
  have hvault : (Function.update s.vault.vaults (s.vault.vaultCount + 1)
      (some ⟨input.borrowAsset, lpToken, manager, .existential, .default⟩)) config.borrow =
        some v := h
  rcases lookup_created hmarket with ⟨-, hborrow, -⟩ | hold
  · rw [hborrow, Function.update_self] at hvault
    obtain rfl := Option.some.inj hvault
    exact .inl rfl
  · have hne : config.borrow ≠ s.vault.vaultCount + 1 :=
      (Nat.lt_succ_of_le (hs.listed hold).borrow_le).ne
    rw [Function.update_of_ne hne] at hvault
    exact .inr ⟨hold, hvault⟩

theorem create_registered {env : Env X} {r : Nat × Nat} (hvalid : input.Valid) (hs : Registered cfg s)
    (h : create cfg env manager input s = (.ok r, s')) : Registered cfg s' := by
  obtain ⟨lpToken, debtAsset, factory, factory', poolSize, hc, rfl⟩ := create_ok h
  refine ⟨hc.count_lt, fun {m config} hm => ?_, fun {m} hm => ?_, hs.dated, hs.user⟩
  · rcases lookup_created hm with ⟨rfl, hborrow, hcollateral⟩ | hold
    · refine ⟨Nat.le_refl _, ⟨debtAsset, Function.update_self ..⟩, hborrow.le, ?_⟩
      rw [hborrow, hcollateral]
      exact ⟨_, Function.update_self .., hvalid.pair.symm⟩
    · obtain ⟨hle, ⟨d, hd⟩, hborrow, v, hv, hne⟩ := hs.listed hold
      have hnew : m ≠ s.lendingCount + 1 := (Nat.lt_succ_of_le hle).ne
      have hvault : config.borrow ≠ s.vault.vaultCount + 1 := (Nat.lt_succ_of_le hborrow).ne
      refine ⟨Nat.le_succ_of_le hle, ⟨d, ?_⟩, Nat.le_succ_of_le hborrow, v, ?_, hne⟩
      · exact (Function.update_of_ne hnew ..).trans hd
      · exact (Function.update_of_ne hvault ..).trans hv
  · have hlt : s.lendingCount + 1 < m := hm
    obtain ⟨hdebt, hindex, htime, hrent, hcollateral⟩ := hs.blank (Nat.lt_of_succ_lt hlt)
    exact ⟨(Function.update_of_ne hlt.ne' ..).trans hdebt, hindex, htime, hrent, hcollateral⟩

end Create

omit [DecidableEq A] [DecidableEq X] in
/-- An update changes neither the vault nor the collateral of a market. -/
theorem lookup_updated {config c : MarketConfig A X} {input : UpdateInput} {n : Nat}
    (hmarket : s.markets.lookup m = some config)
    (hn : (s.markets.insert m (config.update input)).lookup n = some c) :
    ∃ c', s.markets.lookup n = some c' ∧ c.borrow = c'.borrow ∧ c.collateral = c'.collateral := by
  rcases StorageMap.lookup_insert_some.mp hn with ⟨rfl, rfl⟩ | ⟨-, hold⟩
  · exact ⟨config, hmarket, rfl, rfl⟩
  · exact ⟨c, hold, rfl, rfl⟩

omit [DecidableEq X] in
theorem update_registered {config : MarketConfig A X} {input : UpdateInput} (hs : Registered cfg s)
    (hmarket : s.markets.lookup m = some config) :
    Registered cfg { s with markets := s.markets.insert m (config.update input) } := by
  refine ⟨hs.counted, fun {n c} hn => ?_, fun {n} hn => ?_, hs.dated, hs.user⟩
  · obtain ⟨c', hc', hborrow, hcollateral⟩ := lookup_updated hmarket hn
    obtain ⟨hle, hdebt, hborrowed, hvault⟩ := hs.listed hc'
    rw [← hborrow] at hborrowed
    rw [← hborrow, ← hcollateral] at hvault
    exact ⟨hle, hdebt, hborrowed, hvault⟩
  · obtain ⟨hdebt, hindex, htime, hrent, hcollateral⟩ := hs.blank hn
    exact ⟨hdebt, hindex, htime, hrent, hcollateral⟩

/-- **Every step keeps the register.** -/
theorem Registered.step {op : Op A X} (hs : Registered cfg s) (huser : op.ByUser cfg)
    (h : step cfg s op = some s') : Registered cfg s' := by
  cases step_effect h with
  | idle => exact hs
  | @created _ _ input _ _ hcreate => exact create_registered input.2 hs hcreate
  | updated hmarket => exact update_registered hs hmarket
  | deposited hdeposit =>
      obtain ⟨config, hmarket, -, rfl⟩ := depositCollateral_ok hdeposit
      exact hs.of_same_borrows local_deposited (hs.listed hmarket).le_count rfl rfl
  | withdrawn hwithdraw =>
      obtain ⟨config, hmarket, -, -, rfl⟩ := withdrawCollateral_ok hwithdraw
      exact hs.of_same_borrows local_withdrawn (hs.listed hmarket).le_count rfl rfl
  | @borrowed _ who _ _ _ _ hborrow => exact borrow_registered hs (huser who rfl) hborrow
  | repaid hrepay => exact repay_registered hs hrepay
  | liquidated hloop => exact Call.forEach_invariant (fun b _ => liquidateAccount_registered) hs hloop
  | initialized hblock =>
      exact initializeBlock_invariant initializeMarket_registered
        (fun ht => ht.of_same_borrows (local_stamped 0) (Nat.zero_le _) rfl rfl) hs hblock

end Lending
end Composable
