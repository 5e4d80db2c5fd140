import Composable.Lending.Markets
import Composable.Support.Relation

/-!
# `Lending.Turns` — the turns of the markets at the start of a block

`initialize_block` gives every market a turn and keeps what they did only if all of them went
through, so a block start that is kept is a run of turns (`initializeBlock_ok`). A turn begins with
an accrual, computed by `accrual` from what is stored of the market and what its account holds. The
turns of other markets leave that alone (`initializeMarket_alike`), so every market accrues what it
would accrue at the very start of the block (`initializeBlock_turn`).
-/

namespace Composable
namespace Lending

variable {A X F : Type} [DecidableEq A] [DecidableEq X]
variable {cfg : Config A X F} {s s' t t' : State A X F} {m n now : Nat} {u : Unit}

/-! ## Accruals -/

/-- What an accrual finds and computes. -/
structure Accrual where
  utilization : Nat
  rate : Nat
  /-- The new borrow index of the market. -/
  index : Nat
  /-- The interest minted to the market. -/
  interest : Nat
deriving DecidableEq, Repr

/-- The computation of `accrue_interest`, up to its writes. -/
def accrual (cfg : Config A X F) (market now : Nat) : LendingCall A X F Accrual := do
  let borrows ← totalBorrows cfg market
  let cash ← totalCash cfg market
  let utilization ← arithmetic (calcUtilizationRatio (Fixed.ofInteger cash) (Fixed.ofInteger borrows))
  let config ← getMarket market
  let s ← Call.get
  Call.ensure (s.lastBlockTimestamp ≤ now) (err .underflow)
  let index ← getBorrowIndex market
  let rate? ← answer (config.interestRateModel.getBorrowRate utilization).1
  let rate ← Call.ofOption rate? (err .borrowRateDoesNotExist)
  let index' ← arithmetic (incrementIndex rate index (now - s.lastBlockTimestamp))
  let interest ← arithmetic (accruedIncrement rate (now - s.lastBlockTimestamp) borrows)
  pure ⟨utilization, rate, index', interest⟩

omit [DecidableEq A] [DecidableEq X] in
theorem accrual_reads : (accrual cfg m now).Reads :=
  totalBorrows_reads.bind fun _ => totalCash_reads.bind fun _ => (Call.Reads.ofExcept _).bind fun _ =>
    getMarket_reads.bind fun _ => Call.Reads.get.bind fun _ => (Call.Reads.ensure _ _).bind fun _ =>
      getBorrowIndex_reads.bind fun _ => (Call.Reads.ofExcept _).bind fun _ =>
        (Call.Reads.ofOption _ _).bind
        fun _ => (Call.Reads.ofExcept _).bind fun _ => (Call.Reads.ofExcept _).bind fun _ =>
          Call.Reads.pure _

omit [DecidableEq A] [DecidableEq X] in
/-- How an accrual is computed. -/
theorem accrual_ok {a : Accrual} : accrual cfg m now s = (.ok a, s') ↔ s' = s ∧
    ∃ borrows cash config index, totalBorrows cfg m s = (.ok borrows, s) ∧
      totalCash cfg m s = (.ok cash, s) ∧
      s.markets.lookup m = some config ∧ s.borrowIndex m = some index ∧ s.lastBlockTimestamp ≤ now ∧
      calcUtilizationRatio (Fixed.ofInteger cash) (Fixed.ofInteger borrows) = .ok a.utilization ∧
      (config.interestRateModel.getBorrowRate a.utilization).1 = .ok (some a.rate) ∧
      incrementIndex a.rate index (now - s.lastBlockTimestamp) = .ok a.index ∧
      accruedIncrement a.rate (now - s.lastBlockTimestamp) borrows = .ok a.interest := by
  constructor
  · intro h
    simp only [accrual, Call.bind_ok, arithmetic_ok, getMarket_ok, Call.get_bind, Call.ensure_ok,
      getBorrowIndex_ok, answer_ok, Call.ofOption_ok, Call.pure_ok, and_assoc, exists_and_left,
      exists_eq_left, exists_const] at h
    obtain ⟨borrows, _, hborrows, cash, _, hcash, utilization, hutilization, config, hmarket, hnow,
      index, hindex, _, hrate, rate, rfl, index', hindex', interest, hinterest, rfl, rfl⟩ := h
    obtain rfl := totalBorrows_reads.ok hborrows
    obtain rfl := totalCash_reads.ok hcash
    exact ⟨rfl, borrows, cash, config, index, hborrows, hcash, hmarket, hindex, hnow,
      hutilization, hrate, hindex', hinterest⟩
  · rintro ⟨rfl, borrows, cash, config, index, hborrows, hcash, hmarket, hindex, hnow, hutilization, hrate, hindex',
      hinterest⟩
    simp only [accrual, Call.bind_ok, arithmetic_ok, getMarket_ok, Call.get_bind, Call.ensure_ok,
      getBorrowIndex_ok, answer_ok, Call.ofOption_ok, Call.pure_ok, and_assoc, exists_and_left,
      exists_eq_left, exists_const]
    exact ⟨borrows, _, hborrows, cash, _, hcash, a.utilization, hutilization, config, hmarket, hnow,
      index, hindex, _, hrate, a.rate, rfl, a.index, hindex', a.interest, hinterest, rfl, rfl⟩

/-- An accrual writes what it computes. -/
theorem accrueInterest_iff : accrueInterest cfg m now s = (.ok u, s') ↔
    ∃ a, accrual cfg m now s = (.ok a, s) ∧
      cfg.vault.currency.mintRefused s.ledger (s.debtAsset cfg m) (cfg.accountId m)
        a.interest = none ∧
      s' = s.accrued cfg m a.index a.interest := by
  simp only [accrual_ok, true_and]
  constructor
  · intro h
    simp only [accrueInterest, Call.bind_ok, arithmetic_ok, getMarket_ok, Call.get_bind,
      Call.ensure_ok, getBorrowIndex_ok, Call.ofExcept_ok, accrueInterestInternal_get,
      Call.modify_ok, onLedger_ok, Currency.mintInto_ok, and_assoc, exists_and_left, exists_eq_left,
      exists_const] at h
    obtain ⟨borrows, _, hborrows, cash, _, hcash, utilization, hutilization, config, hmarket, hnow,
      index, hindex, ⟨interest, index'⟩, ⟨rate, hrate, hindex', hinterest⟩, hminted, rfl⟩ := h
    obtain rfl := totalBorrows_reads.ok hborrows
    obtain rfl := totalCash_reads.ok hcash
    exact ⟨⟨utilization, rate, index', interest⟩,
      ⟨borrows, cash, config, index, hborrows, hcash, hmarket, hindex,
      hnow, hutilization, hrate, hindex', hinterest⟩, hminted, rfl⟩
  · rintro ⟨a, ⟨borrows, cash, config, index, hborrows, hcash, hmarket, hindex, hnow, hutilization, hrate, hindex',
      hinterest⟩, hminted, rfl⟩
    simp only [accrueInterest, Call.bind_ok, arithmetic_ok, getMarket_ok, Call.get_bind,
      Call.ensure_ok, getBorrowIndex_ok, Call.ofExcept_ok, accrueInterestInternal_get,
      Call.modify_ok, onLedger_ok, Currency.mintInto_ok, and_assoc, exists_and_left, exists_eq_left,
      exists_const]
    exact ⟨borrows, _, hborrows, cash, _, hcash, a.utilization, hutilization, config, hmarket, hnow,
      index, hindex, (a.interest, a.index), ⟨a.rate, hrate, hindex', hinterest⟩, hminted, rfl⟩

/-! ## Turns that look the same -/

/-- The accrual of market `m` finds the same in both storages. -/
structure Alike (cfg : Config A X F) (m : Nat) (s t : State A X F) : Prop where
  market : t.markets.lookup m = s.markets.lookup m
  vaults : t.vault.vaults = s.vault.vaults
  debt : t.debtMarkets m = s.debtMarkets m
  index : t.borrowIndex m = s.borrowIndex m
  stamp : t.lastBlockTimestamp = s.lastBlockTimestamp
  own : s.ledger.SameAt (cfg.accountId m) t.ledger
  issuance : t.ledger.issuance (s.debtAsset cfg m) = s.ledger.issuance (s.debtAsset cfg m)

namespace Alike

omit [DecidableEq A] [DecidableEq X]

theorem refl (s : State A X F) : Alike cfg m s s := ⟨rfl, rfl, rfl, rfl, rfl, .refl _ _, rfl⟩

theorem debtAsset (h : Alike cfg m s t) : t.debtAsset cfg m = s.debtAsset cfg m := by
  rw [State.debtAsset, h.debt, State.debtAsset]

theorem trans (h : Alike cfg m s t) (h' : Alike cfg m t t') : Alike cfg m s t' where
  market := h'.market.trans h.market
  vaults := h'.vaults.trans h.vaults
  debt := h'.debt.trans h.debt
  index := h'.index.trans h.index
  stamp := h'.stamp.trans h.stamp
  own := h.own.trans h'.own
  issuance := by
    rw [← h.debtAsset, h'.issuance, h.debtAsset, h.issuance]

theorem totalBorrows (h : Alike cfg m s t) :
    Call.Related (Alike cfg m) (Lending.totalBorrows cfg m) (Lending.totalBorrows cfg m) s t := by
  have hborrows : t.ledger.issuance (t.debtAsset cfg m) = s.ledger.issuance (s.debtAsset cfg m) := by
    rw [h.debtAsset, h.issuance]
  have hinterest : t.ledger.balance (t.debtAsset cfg m) (cfg.accountId m) =
      s.ledger.balance (s.debtAsset cfg m) (cfg.accountId m) := by
    rw [h.debtAsset, h.own.balance]
  refine Call.related_get (Call.related_bind (Call.related_ensure ?_ h) fun _ s' t' h' => ?_)
  · rw [hborrows, hinterest]
  · rw [hborrows, hinterest]
    exact Call.related_pure h'

theorem getMarket (h : Alike cfg m s t) :
    Call.Related (Alike cfg m) (Lending.getMarket m) (Lending.getMarket m) s t :=
  Call.related_get (Call.related_ofOption h.market h)

theorem getBorrowIndex (h : Alike cfg m s t) :
    Call.Related (Alike cfg m) (Lending.getBorrowIndex m) (Lending.getBorrowIndex m) s t :=
  Call.related_get (Call.related_ofOption h.index h)

theorem assetId {id : Nat} (h : Alike cfg m s t) :
    Call.Related (Alike cfg m) (Lending.assetId id) (Lending.assetId id) s t := by
  refine Call.related_bind ?_ fun _ _ _ h' => Call.related_pure h'
  apply Call.related_zoom (Q := fun v v' => Alike cfg m { s with vault := v } { t with vault := v' })
  · exact Call.related_get (Call.related_ofOption (congrFun h.vaults id) h)
  · exact fun _ _ h' => h'

theorem totalCash (h : Alike cfg m s t) :
    Call.Related (Alike cfg m) (Lending.totalCash cfg m) (Lending.totalCash cfg m) s t := by
  refine Call.related_bind h.getMarket fun config s t h =>
    Call.related_bind h.assetId fun x s t h => ?_
  apply Call.related_get
  rw [h.own.balance]
  exact Call.related_pure h

/-- It computes the same. -/
theorem accrual (h : Alike cfg m s t) :
    Call.Related (Alike cfg m) (Lending.accrual cfg m now) (Lending.accrual cfg m now) s t := by
  refine Call.related_bind h.totalBorrows fun borrows s t h => ?_
  refine Call.related_bind h.totalCash fun cash s t h => ?_
  refine Call.related_bind (Call.related_ofExcept rfl h) fun utilization s t h => ?_
  refine Call.related_bind h.getMarket fun config s t h => ?_
  apply Call.related_get
  rw [h.stamp]
  refine Call.related_bind (Call.related_ensure Iff.rfl h) fun _ s' t' h => ?_
  refine Call.related_bind h.getBorrowIndex fun index s' t' h => ?_
  refine Call.related_bind (Call.related_ofExcept rfl h) fun rate? s' t' h => ?_
  refine Call.related_bind (Call.related_ofOption rfl h) fun rate s' t' h => ?_
  refine Call.related_bind (Call.related_ofExcept rfl h) fun index' s' t' h => ?_
  refine Call.related_bind (Call.related_ofExcept rfl h) fun interest s' t' h => ?_
  exact Call.related_pure h

end Alike

/-! ## Turns -/

/-- The turn of a market, if it goes through. -/
def turn (cfg : Config A X F) (now : Nat) (s : State A X F) (market : Nat) : Option (State A X F) :=
  Call.success (initializeMarket cfg now market) s

theorem turn_eq_some : turn cfg now s m = some s' ↔ initializeMarket cfg now m s = (.ok (), s') := by
  rw [turn, Call.success_eq_some]
  exact ⟨fun ⟨(), h⟩ => h, fun h => ⟨(), h⟩⟩

/-- The loop collects no error exactly when all turns go through. -/
theorem initializeMarkets_run {markets : List Nat} :
    initializeMarkets cfg now markets s = (.ok [], s') ↔ run (turn cfg now) s markets = some s' := by
  induction markets generalizing s with
  | nil =>
      rw [run_nil, Option.some_inj, eq_comm (a := s)]
      exact ⟨fun h => (Call.pure_ok.mp h).2, fun h => Call.pure_ok.mpr ⟨rfl, h⟩⟩
  | cons market rest ih =>
      simp only [initializeMarkets, Call.bind_ok, Call.pure_ok, run_cons, turn_eq_some, ← ih]
      constructor
      · rintro ⟨error, t, hfirst, errors, _, hrest, hnil, rfl⟩
        obtain ⟨herror, rfl⟩ := List.append_eq_nil_iff.mp hnil.symm
        obtain ⟨_, hturn⟩ := Call.attempt_ok (Option.toList_eq_nil_iff.mp herror ▸ hfirst)
        exact ⟨t, hturn, hrest⟩
      · rintro ⟨t, hturn, hrest⟩
        have hfirst : Call.attempt (initializeMarket cfg now market) s = (.ok none, t) := by
          rw [Call.attempt, hturn]
        exact ⟨none, t, hfirst, [], s', hrest, rfl, rfl⟩

/-- A block start is a run of the turns of all markets, or changes nothing. -/
theorem initializeBlock_ok (h : initializeBlock cfg now s = (.ok u, s')) :
    (run (turn cfg now) s (cfg.iteration s.markets.keys) = none ∧ s' = s) ∨
      ∃ t, run (turn cfg now) s (cfg.iteration s.markets.keys) = some t ∧
        s' = { t with lastBlockTimestamp := now } := by
  unfold initializeBlock at h
  split at h
  next hloop =>
    cases h
    exact .inr ⟨_, initializeMarkets_run.mp hloop, rfl⟩
  next errors t hne hloop =>
    cases h
    refine .inl ⟨Option.eq_none_iff_forall_ne_some.mpr fun t' ht' => ?_, rfl⟩
    -- Without errors the loop would be such a run.
    rw [initializeMarkets_run.mpr ht'] at hloop
    cases hloop
    exact hne rfl
  next => cases h

/-- What a turn of a market does. -/
theorem initializeMarket_turn (h : initializeMarket cfg now m s = (.ok u, s')) :
    ∃ config a v, s.markets.lookup m = some config ∧ accrual cfg m now s = (.ok a, s) ∧
      FundsMoved cfg (s.accrued cfg m a.index a.interest).vault config.borrow (cfg.accountId m) v ∧
      s' = { s.accrued cfg m a.index a.interest with vault := v } := by
  simp only [initializeMarket_eq, Call.bind_ok, getMarket_ok, accrueInterest_iff] at h
  obtain ⟨config, _, ⟨hmarket, rfl⟩, _, _, ⟨a, haccrual, -, rfl⟩, hbalance⟩ := h
  obtain ⟨v, hfunds, rfl⟩ := balanceFunds_ok hbalance
  exact ⟨config, a, v, hmarket, haccrual, hfunds, rfl⟩

/-- The turn of another market, with another account and debt token, makes no
    difference to an accrual. -/
theorem initializeMarket_alike (hne : n ≠ m) (haccount : cfg.accountId m ≠ cfg.accountId n)
    (hdebt : s.debtAsset cfg n ≠ s.debtAsset cfg m)
    (h : initializeMarket cfg now n s = (.ok u, s')) : Alike cfg m s s' := by
  obtain ⟨config, a, v, -, -, hfunds, rfl⟩ := initializeMarket_turn h
  obtain ⟨vault, amount, -, hmoved⟩ := hfunds.ledger
  have hminted : s.ledger.SameAt (cfg.accountId m)
      (s.ledger.mint (s.debtAsset cfg n) (cfg.accountId n) a.interest) :=
    Ledger.sameAt_mint haccount
  refine ⟨rfl, hfunds.vaults, rfl, Function.update_of_ne hne.symm .., rfl, hminted.trans ?_, ?_⟩
  · show Ledger.SameAt _ _ v.ledger
    rcases hmoved with hout | hin
    · rw [hout]
      exact Ledger.sameAt_move (cfg.accountId_ne_vault m _) haccount
    · rw [hin]
      exact Ledger.sameAt_move haccount (cfg.accountId_ne_vault m _)
  · show v.ledger.issuance _ = _
    rw [hfunds.issuance]
    show (s.ledger.mint (s.debtAsset cfg n) (cfg.accountId n) a.interest).issuance _ = _
    rw [Ledger.issuance_mint, if_neg hdebt.symm, Nat.add_zero]

omit [DecidableEq A] [DecidableEq X] in
theorem mem_iteration : m ∈ cfg.iteration s.markets.keys ↔ (s.markets.lookup m).isSome = true := by
  rw [(cfg.iteration_perm s.markets.keys).mem_iff, ← AList.mem_keys, AList.lookup_isSome]

/-- Market `m` has its account and its debt token for itself. -/
def Alone (cfg : Config A X F) (s : State A X F) (m : Nat) : Prop :=
  ∀ n config, s.markets.lookup n = some config → n ≠ m →
    cfg.accountId m ≠ cfg.accountId n ∧ s.debtAsset cfg n ≠ s.debtAsset cfg m

/-- **The turn of a market** in a block start that goes through, between storages that the accrual
    of the market does not tell from the first and the last one. -/
theorem initializeBlock_turn {I : State A X F → Prop} {config : MarketConfig A X}
    (hstep : ∀ {s s' n u}, I s → initializeMarket cfg now n s = (.ok u, s') → I s')
    (hI : I s) (hmarket : s.markets.lookup m = some config) (halone : Alone cfg s m)
    (h : run (turn cfg now) s (cfg.iteration s.markets.keys) = some s') :
    ∃ t t', I t ∧ Alike cfg m s t ∧ initializeMarket cfg now m t = (.ok (), t') ∧
      Alike cfg m t' s' := by
  have hperm := cfg.iteration_perm s.markets.keys
  -- No turn changes the debt tokens, so the others stay apart from that of `m`.
  have hkeeps : ∀ {r n r'}, (I r ∧ r.debtMarkets = s.debtMarkets) → turn cfg now r n = some r' →
      I r' ∧ r'.debtMarkets = s.debtMarkets := by
    rintro r n r' ⟨hr, hsame⟩ hn
    obtain ⟨_, _, _, -, -, -, hr'⟩ := initializeMarket_turn (turn_eq_some.mp hn)
    refine ⟨hstep hr (turn_eq_some.mp hn), ?_⟩
    rw [hr', ← hsame]
    rfl
  have hother : ∀ {r n r'}, (I r ∧ r.debtMarkets = s.debtMarkets) →
      n ∈ cfg.iteration s.markets.keys → n ≠ m →
      turn cfg now r n = some r' → Alike cfg m r r' := by
    rintro r n r' hr hn hne hturn
    obtain ⟨c, hc⟩ := Option.isSome_iff_exists.mp (mem_iteration.mp hn)
    obtain ⟨haccount, hdebt⟩ := halone n c hc hne
    apply initializeMarket_alike hne haccount ?_ (turn_eq_some.mp hturn)
    rw [State.debtAsset, State.debtAsset, hr.2]
    exact hdebt
  obtain ⟨t, t', ht, hfirst, hturn, hlast⟩ := run_meets_related Alike.refl Alike.trans hkeeps hother
    (hperm.nodup_iff.mpr s.markets.keys_nodup)
      (mem_iteration.mpr (Option.isSome_of_eq_some hmarket)) ⟨hI, rfl⟩ h
  exact ⟨t, t', ht.1, hfirst, turn_eq_some.mp hturn, hlast⟩

end Lending
end Composable
