import Composable.Lending.Markets
import Composable.Support.DebtBook

/-!
# `Lending.Indexes` — borrow indexes, and what is owed by them

What an account owes is its principal scaled by the index of the market over the index stored for
the account. The index of a market starts at one and only grows, and the index of an account, a
mixture of the two in whole percent, stays below it (`Ordered`); so nobody owes less than its
principal, and an accrual lowers no debt (`borrow_indexes_monotone`).

The computation goes through 128-bit fixed-point numbers to a 64-bit integer, so it fails on debts
that fit a balance: `debts_never_freeze_iff` says on which, and `debt_frozen` is one.
-/

namespace Composable
namespace Lending

section Index

variable {marketIndex accountIndex amount existing : Nat}

/-- The index of an account stays below that of its market. -/
theorem updatedIndex_le (h : accountIndex ≤ marketIndex) :
    updatedIndex marketIndex amount existing accountIndex ≤ marketIndex := by
  have hdiv : 0 < Fixed.div := by decide
  have hwhole : 100 * (Fixed.div / 100) = Fixed.div := by decide
  have hshares := Fixed.percent_add_le existing amount
  unfold updatedIndex
  generalize Fixed.percentFromRational amount (existing + amount) = new at *
  generalize Fixed.percentFromRational existing (existing + amount) = old at *
  -- Each part exceeds its share by less than a half, so together they exceed
  -- the whole by less than one.
  have hnew := Fixed.two_mul_quotient_mul_lt (a := marketIndex) (b := Fixed.ofPercent new) hdiv
  have hold := Fixed.two_mul_quotient_mul_lt (a := accountIndex) (b := Fixed.ofPercent old) hdiv
  have hexact : marketIndex * Fixed.ofPercent new + accountIndex * Fixed.ofPercent old ≤
      marketIndex * Fixed.div := by
    calc marketIndex * Fixed.ofPercent new + accountIndex * Fixed.ofPercent old
        ≤ marketIndex * Fixed.ofPercent new + marketIndex * Fixed.ofPercent old :=
          Nat.add_le_add_left (Nat.mul_le_mul_right _ h) _
      _ = marketIndex * ((new + old) * (Fixed.div / 100)) := by
          rw [← Nat.mul_add, Fixed.ofPercent, Fixed.ofPercent, Nat.add_mul]
      _ ≤ marketIndex * (100 * (Fixed.div / 100)) :=
        Nat.mul_le_mul_left _ (Nat.mul_le_mul_right _ hshares)
      _ = marketIndex * Fixed.div := by rw [hwhole]
  have hlt : (Fixed.quotient marketIndex (Fixed.ofPercent new) Fixed.div +
      Fixed.quotient accountIndex (Fixed.ofPercent old) Fixed.div) * Fixed.div <
        (marketIndex + 1) * Fixed.div := by
    rw [Nat.add_mul, Nat.succ_mul]
    omega
  exact Nat.lt_succ_iff.mp (Nat.lt_of_mul_lt_mul_right hlt)

/-- A part of at least one is at least one. -/
theorem part_pos {index percent : Nat} (h : 100 ≤ index * percent) :
    0 < Fixed.quotient index (Fixed.ofPercent percent) Fixed.div := by
  refine Fixed.le_quotient (by decide) ?_
  calc 1 * Fixed.div = 100 * (Fixed.div / 100) := by decide
    _ ≤ index * percent * (Fixed.div / 100) := Nat.mul_le_mul_right _ h
    _ = index * Fixed.ofPercent percent := Nat.mul_assoc _ _ _

/-- The index of a borrower is positive, but for one that borrows less than a hundredth of its debt
    at the smallest positive index. -/
theorem updatedIndex_pos (hmarket : Fixed.div ≤ marketIndex) (hdebt : 0 < existing + amount)
    (haccount : 0 < existing → 0 < accountIndex)
    (hlast : ¬ (accountIndex = 1 ∧ 0 < amount ∧ 100 * amount < existing + amount)) :
    0 < updatedIndex marketIndex amount existing accountIndex := by
  unfold updatedIndex
  by_cases hnew : existing + amount ≤ 100 * amount
  · -- The new amount has a share of at least one percent.
    refine Nat.add_pos_left (part_pos ?_) _
    calc 100 ≤ Fixed.div * 1 := by decide
      _ ≤ _ := Nat.mul_le_mul hmarket (Fixed.one_le_percentFromRational hdebt hnew)
  · have hexisting : 0 < existing := by omega
    have hindex : 0 < accountIndex := haccount hexisting
    refine Nat.add_pos_right _ (part_pos ?_)
    by_cases hzero : amount = 0
    · rw [hzero, Nat.add_zero, Fixed.percentFromRational,
        Fixed.perThingFromRational_self (by decide) hexisting]
      exact Nat.le_mul_of_pos_left _ hindex
    · -- The rest is at least half, of an index that is not the smallest.
      have hshare : 50 ≤ Fixed.percentFromRational existing (existing + amount) :=
        Fixed.fifty_le_percentFromRational (by omega) (Nat.le_add_right _ _) (by omega)
      have htwo : 2 ≤ accountIndex := by omega
      calc 100 = 2 * 50 := rfl
        _ ≤ _ := Nat.mul_le_mul htwo hshare

/-! ### Debts -/

/-- The principal scaled by the two indexes: the product is exact, the quotient is rounded as a
    fixed-point number, and what is left below a unit is cut off. -/
def debtOf (principal marketIndex accountIndex : Nat) : Nat :=
  Fixed.quotient (principal * marketIndex) Fixed.div accountIndex / Fixed.div

section Debt

variable {principal principal' marketIndex' n : Nat}

theorem le_debtOf (haccount : 0 < accountIndex) (h : n * accountIndex ≤ principal * marketIndex) :
    n ≤ debtOf principal marketIndex accountIndex := by
  rw [debtOf, Nat.le_div_iff_mul_le (by decide)]
  refine Fixed.le_quotient haccount ?_
  rw [Nat.mul_right_comm]
  exact Nat.mul_le_mul_right _ h

theorem debtOf_mono (h : principal * marketIndex ≤ principal' * marketIndex') :
    debtOf principal marketIndex accountIndex ≤ debtOf principal' marketIndex' accountIndex :=
  Nat.div_le_div_right (Fixed.quotient_mono (Nat.mul_le_mul_right _ h))

theorem zero_debtOf (marketIndex accountIndex : Nat) : debtOf 0 marketIndex accountIndex = 0 := by
  rw [debtOf, Nat.zero_mul, Fixed.zero_quotient, Nat.zero_div]

theorem debtOf_mono_principal (h : principal ≤ principal') :
    debtOf principal marketIndex accountIndex ≤ debtOf principal' marketIndex accountIndex :=
  debtOf_mono (Nat.mul_le_mul_right _ h)

/-- A smaller principal has less interest. -/
theorem debtOf_sub_le (h : principal ≤ principal') (hle : accountIndex ≤ marketIndex) :
    debtOf principal marketIndex accountIndex - principal ≤
      debtOf principal' marketIndex accountIndex - principal' := by
  rcases Nat.eq_zero_or_pos accountIndex with rfl | haccount
  · simp [debtOf, Fixed.quotient, Fixed.wideQuotient]
  · obtain ⟨rest, rfl⟩ := Nat.exists_eq_add_of_le h
    -- What is added to the principal is owed at least.
    have hgrown : rest * Fixed.div * accountIndex ≤ rest * marketIndex * Fixed.div := by
      rw [Nat.mul_right_comm]
      exact Nat.mul_le_mul_right _ (Nat.mul_le_mul_left _ hle)
    have hadded := Fixed.quotient_add_le_quotient (a := principal * marketIndex) haccount hgrown
    rw [← Nat.add_mul] at hadded
    have hunits := Nat.div_le_div_right (c := Fixed.div) hadded
    rw [Nat.add_mul_div_right _ _ (by decide)] at hunits
    unfold debtOf
    omega

/-- Nobody owes less than its principal. -/
theorem principal_le_debtOf (haccount : 0 < accountIndex) (hle : accountIndex ≤ marketIndex) :
    principal ≤ debtOf principal marketIndex accountIndex :=
  le_debtOf haccount (Nat.mul_le_mul_left _ hle)

/-- How the pallet scales principals. -/
def scaling : Scaling where
  scale := debtOf
  scale_zero := zero_debtOf
  scale_mono := debtOf_mono_principal
  le_scale := principal_le_debtOf
  scale_sub_le := debtOf_sub_le

/-- A debt below a number, by the principal and the indexes. -/
theorem debtOf_lt_iff (haccount : 0 < accountIndex) : debtOf principal marketIndex accountIndex < n ↔
    principal * marketIndex < n * accountIndex ∧
      (Fixed.RoundedDown (principal * marketIndex) Fixed.div accountIndex ∨
        2 * (principal * marketIndex * Fixed.div) + accountIndex ≤
          2 * (n * Fixed.div * accountIndex)) := by
  have hdiv : 0 < Fixed.div := by decide
  have hscale : principal * marketIndex * Fixed.div < n * Fixed.div * accountIndex ↔
      principal * marketIndex < n * accountIndex := by
    rw [Nat.mul_right_comm n]
    exact Nat.mul_lt_mul_right hdiv
  rw [debtOf, Nat.div_lt_iff_lt_mul hdiv, Fixed.quotient_lt_iff haccount, hscale]

end Debt

theorem borrowFromPrincipal_steps {principal : Nat} (hprincipal : 0 < principal)
    (haccount : 0 < accountIndex) : borrowFromPrincipal principal marketIndex accountIndex =
      let fromStart := Fixed.quotient (Fixed.ofInteger principal) marketIndex Fixed.div
      let balance := Fixed.quotient fromStart Fixed.div accountIndex
      if fromStart ≤ u128Max ∧ balance ≤ u128Max ∧ balance / Fixed.div ≤ u64Max then
        .ok (some (balance / Fixed.div))
      else .error .overflow := by
  have hone : max Fixed.div 1 = Fixed.div := by decide
  have hmax : max accountIndex 1 = accountIndex := Nat.max_eq_left haccount
  rw [borrowFromPrincipal, if_neg hprincipal.ne', Fixed.safeMul, Fixed.multiplyByRational_eq, hone,
    Fixed.checked_bind]
  simp only [Fixed.safeDiv, if_neg haccount.ne', Fixed.multiplyByRational_eq, hmax,
    Fixed.checked_bind, Fixed.mulInt]
  generalize Fixed.quotient (Fixed.ofInteger principal) marketIndex Fixed.div = fromStart
  generalize Fixed.quotient fromStart Fixed.div accountIndex = balance
  by_cases hstart : fromStart ≤ u128Max
  · by_cases hbalance : balance ≤ u128Max
    · have hunit : Fixed.quotient balance 1 Fixed.div = balance / Fixed.div := by
        rw [Fixed.quotient_eq_div (by rwa [Nat.mul_one]), Nat.mul_one]
      rw [hunit]
      by_cases hamount : balance / Fixed.div ≤ u64Max
      · simp only [hstart, hbalance, hamount, if_true, and_self]
        rfl
      · simp only [hstart, hbalance, hamount, if_true, and_false, if_false]
        rfl
    · simp only [hstart, hbalance, if_true, if_false, false_and, and_false]
  · simp only [hstart, if_false, false_and]

/-- What an account owes, for indexes as they are kept: the principal scaled by the two
    indexes, as long as it fits. -/
theorem borrowFromPrincipal_eq {principal : Nat} (hprincipal : 0 < principal)
    (hmarket : Fixed.div ≤ marketIndex) (haccount : 0 < accountIndex)
    (hle : accountIndex ≤ marketIndex) : borrowFromPrincipal principal marketIndex accountIndex =
      if principal * marketIndex ≤ u128Max ∧ debtOf principal marketIndex accountIndex ≤ u64Max then
        .ok (some (debtOf principal marketIndex accountIndex))
      else .error .overflow := by
  have hdiv : 0 < Fixed.div := by decide
  rw [borrowFromPrincipal_steps hprincipal haccount]
  have hgrown : principal * Fixed.div ≤ principal * marketIndex := Nat.mul_le_mul_left _ hmarket
  by_cases hfits : principal * Fixed.div ≤ u128Max
  · have hstart : Fixed.quotient (Fixed.ofInteger principal) marketIndex Fixed.div =
        principal * marketIndex := by
      rw [Fixed.ofInteger_eq hfits]
      exact Fixed.quotient_eq hdiv (Nat.mul_right_comm ..)
    have hroom : debtOf principal marketIndex accountIndex ≤ u64Max →
        Fixed.quotient (principal * marketIndex) Fixed.div accountIndex ≤ u128Max := by
      intro hamount
      have hlt : Fixed.quotient (principal * marketIndex) Fixed.div accountIndex <
          (u64Max + 1) * Fixed.div :=
        (Nat.div_lt_iff_lt_mul hdiv).mp (Nat.lt_succ_of_le hamount)
      exact hlt.le.trans (by decide)
    rw [hstart]
    refine if_congr ?_ rfl rfl
    exact ⟨fun h => ⟨h.1, h.2.2⟩, fun h => ⟨h.1, hroom h.2, h.2⟩⟩
  · -- The principal saturates: nothing that large fits into 64 bits in the end.
    have hlarge : u128Max < principal * Fixed.div := Nat.lt_of_not_le hfits
    have hsaturated : Fixed.ofInteger principal = u128Max := by
      rw [Fixed.ofInteger, Fixed.saturated, Nat.min_eq_right hlarge.le]
    have hstart : (u64Max + 1) * marketIndex ≤
        Fixed.quotient (Fixed.ofInteger principal) marketIndex Fixed.div := by
      refine Fixed.le_quotient hdiv ?_
      rw [hsaturated, Nat.mul_right_comm]
      exact Nat.mul_le_mul_right _ (by decide)
    have hover :
        u64Max < Fixed.quotient (Fixed.quotient (Fixed.ofInteger principal) marketIndex Fixed.div)
        Fixed.div accountIndex / Fixed.div := by
      rw [← Nat.succ_le_iff, Nat.le_div_iff_mul_le hdiv]
      refine Fixed.le_quotient haccount ?_
      rw [Nat.mul_right_comm]
      exact Nat.mul_le_mul_right _ ((Nat.mul_le_mul_left _ hle).trans hstart)
    rw [if_neg fun h => absurd h.2.2 (Nat.not_le_of_lt hover),
      if_neg fun h => absurd (hgrown.trans h.1) hfits]

/-- What an account is found to owe, for indexes as they are kept. -/
theorem borrowFromPrincipal_ok {principal owed : Nat} (hprincipal : 0 < principal)
    (hmarket : Fixed.div ≤ marketIndex) (hle : accountIndex ≤ marketIndex) :
    borrowFromPrincipal principal marketIndex accountIndex = .ok (some owed) ↔
      0 < accountIndex ∧ principal * marketIndex ≤ u128Max ∧
        debtOf principal marketIndex accountIndex ≤ u64Max ∧
        owed = debtOf principal marketIndex accountIndex := by
  rcases Nat.eq_zero_or_pos accountIndex with rfl | haccount
  · -- Division by an index of zero fails.
    simp only [borrowFromPrincipal, if_neg hprincipal.ne', exceptBind_ok, Fixed.safeDiv, if_true]
    constructor
    · rintro ⟨_, -, _, hdiv, -⟩
      cases hdiv
    · rintro ⟨hpos, -⟩
      exact absurd hpos (Nat.lt_irrefl 0)
  · rw [borrowFromPrincipal_eq hprincipal hmarket haccount hle]
    split
    next hfits =>
      rw [Except.ok.injEq, Option.some_inj, eq_comm (a := debtOf principal marketIndex accountIndex)]
      exact ⟨fun h => ⟨haccount, hfits.1, hfits.2, h⟩, fun h => h.2.2.2⟩
    next hfits => exact ⟨nofun, fun h => absurd ⟨h.2.1, h.2.2.1⟩ hfits⟩

end Index

variable {A X F : Type} [DecidableEq A] [DecidableEq X]
variable {cfg : Config A X F} {s s' : State A X F} {m : Nat}

omit [DecidableEq X] in
theorem borrowBalanceCurrent_eq {d : X} {a : A} {marketIndex accountIndex : Nat}
    (hd : s.debtMarkets m = some d) (hmarket : s.borrowIndex m = some marketIndex)
    (haccount : s.debtIndex.get m a = some accountIndex) :
    borrowBalanceCurrent m a s =
      ((borrowFromPrincipal (s.ledger.reserved d a) marketIndex accountIndex).mapError .arithmetic,
        s) := by
  have hdebt : (Call.ofOption (s.debtMarkets m) (err .marketDoesNotExist) : LendingCall A X F X) s =
      (.ok d, s) := Call.ofOption_ok.mpr ⟨hd, rfl⟩
  have hindex : getBorrowIndex m s = (.ok marketIndex, s) := getBorrowIndex_ok.mpr ⟨hmarket, rfl⟩
  rw [borrowBalanceCurrent, Call.get_bind, Call.bind_of_ok hdebt, haccount]
  exact Call.bind_of_ok hindex

/-! ## The order of the indexes -/

/-- Indexes of markets are at least one, and those of accounts at most that of their market. Nothing
    is recorded under ids that were not given out. -/
structure Ordered (s : State A X F) : Prop where
  listed : ∀ {m config}, s.markets.lookup m = some config → m ≤ s.lendingCount
  indexed : ∀ {m config}, s.markets.lookup m = some config →
    ∃ i d, s.borrowIndex m = some i ∧ s.debtMarkets m = some d
  blank : ∀ {m}, s.lendingCount < m → s.debtIndex m = ∅ ∧ s.borrowIndex m = none
  one_le : ∀ {m i}, s.borrowIndex m = some i → Fixed.div ≤ i
  below : ∀ {m a j}, s.debtIndex.get m a = some j → ∃ i, s.borrowIndex m = some i ∧ j ≤ i

omit [DecidableEq X] in
theorem Ordered.genesis (ledger : Ledger A X) (factory : F) (now : Nat) :
    Ordered (State.genesis ledger factory now : State A X F) where
  listed := nofun
  indexed := nofun
  blank _ := ⟨rfl, rfl⟩
  one_le := nofun
  below := nofun

/-- No index of a market has fallen. -/
def Grown (s s' : State A X F) : Prop :=
  ∀ m i, s.borrowIndex m = some i → ∃ i', s'.borrowIndex m = some i' ∧ i ≤ i'

omit [DecidableEq A] [DecidableEq X] in
theorem Grown.of_same (h : s'.borrowIndex = s.borrowIndex) : Grown s s' :=
  fun _ i hi => ⟨i, by rw [h, hi], le_rfl⟩

omit [DecidableEq A] [DecidableEq X] in
theorem Grown.trans {t : State A X F} (h : Grown s t) (h' : Grown t s') : Grown s s' := by
  intro m i hi
  obtain ⟨j, hj, hij⟩ := h m i hi
  obtain ⟨k, hk, hjk⟩ := h' m j hj
  exact ⟨k, hk, hij.trans hjk⟩

omit [DecidableEq X] in
/-- An operation of a stored market keeps the order if it keeps that of the market. -/
theorem Ordered.of_local (h : Ordered s) (hlocal : Local m s s') (hm : m ≤ s.lendingCount)
    (hgrown : Grown s s') (hone : ∀ {i}, s'.borrowIndex m = some i → Fixed.div ≤ i)
    (hbelow : ∀ {a j}, s'.debtIndex.get m a = some j → ∃ i, s'.borrowIndex m = some i ∧ j ≤ i) :
    Ordered s' where
  listed := by
    rw [hlocal.markets, hlocal.lendingCount]
    exact h.listed
  indexed := by
    intro n config hn
    rw [hlocal.markets] at hn
    obtain ⟨i, d, hi, hd⟩ := h.indexed hn
    obtain ⟨i', hi', -⟩ := hgrown n i hi
    rw [hlocal.debtMarkets]
    exact ⟨i', d, hi', hd⟩
  blank := by
    intro n hn
    rw [hlocal.lendingCount] at hn
    have hne : n ≠ m := (hm.trans_lt hn).ne'
    rw [hlocal.debtIndex n hne, hlocal.borrowIndex n hne]
    exact h.blank hn
  one_le := by
    intro n i hi
    by_cases hn : n = m
    · subst hn
      exact hone hi
    · rw [hlocal.borrowIndex n hn] at hi
      exact h.one_le hi
  below := by
    intro n a j hj
    by_cases hn : n = m
    · subst hn
      exact hbelow hj
    · unfold StorageDoubleMap.get at hj
      rw [hlocal.debtIndex n hn] at hj
      rw [hlocal.borrowIndex n hn]
      exact h.below hj

omit [DecidableEq X] in
/-- So does one that leaves the indexes alone. -/
theorem Ordered.of_same (h : Ordered s) (hlocal : Local m s s') (hindex : s'.debtIndex = s.debtIndex)
    (hmarket : s'.borrowIndex = s.borrowIndex) : Ordered s' where
  listed := by
    rw [hlocal.markets, hlocal.lendingCount]
    exact h.listed
  indexed := by
    rw [hlocal.markets, hlocal.debtMarkets, hmarket]
    exact h.indexed
  blank := by
    rw [hlocal.lendingCount, hindex, hmarket]
    exact h.blank
  one_le := by
    rw [hmarket]
    exact h.one_le
  below := by
    rw [hindex, hmarket]
    exact h.below

/-! ## Steps -/

/-- A borrow mixes the index of the market into that of its owner. -/
theorem Ordered.after_borrow {env : Env X} {owner : A} {amount : Nat} {u : Unit} (h : Ordered s)
    (hborrow : borrowInternal cfg env m owner amount s = (.ok u, s')) :
    Ordered s' ∧ s'.borrowIndex = s.borrowIndex := by
  obtain ⟨config, vault, marketIndex, hb, hrent⟩ := borrow_ok hborrow
  have hm := h.listed hb.market_eq
  have hnext : s.nextIndex cfg m owner amount marketIndex ≤ marketIndex := by
    apply updatedIndex_le
    cases hget : s.debtIndex.get m owner with
    | none => exact Nat.zero_le _
    | some j =>
        obtain ⟨i, hi, hle⟩ := h.below hget
        obtain rfl := Option.some.inj (hb.index_eq.symm.trans hi)
        exact hle
  generalize s.nextIndex cfg m owner amount marketIndex = index at hrent hnext
  have hborrowed : Ordered (s.borrowed cfg vault.assetId m owner amount index) := by
    refine h.of_local local_borrowed hm (.of_same rfl) h.one_le fun {a j} hj => ?_
    have hput : (if m = m ∧ a = owner then some index else s.debtIndex.get m a) = some j :=
      StorageDoubleMap.get_put.symm.trans hj
    split at hput
    next =>
      obtain rfl := Option.some.inj hput
      exact ⟨marketIndex, hb.index_eq, hnext⟩
    next => exact h.below hput
  rcases payRent_ok hrent with ⟨-, -, rfl⟩ | ⟨-, rfl⟩
  · exact ⟨hborrowed.of_same local_rented rfl rfl, rfl⟩
  · exact ⟨hborrowed, rfl⟩

theorem Ordered.after_repay {payer beneficiary : A} {amount : Nat} {u : Unit} (h : Ordered s)
    (hrepay : repayBorrowInternal cfg m payer beneficiary (some amount) s = (.ok u, s')) :
    Ordered s' ∧ s'.borrowIndex = s.borrowIndex := by
  rcases repay_ok hrepay with ⟨-, rfl⟩ | ⟨config, vault, owed, hrepaid, -, hcases⟩
  · exact ⟨h, rfl⟩
  · have hm := h.listed hrepaid.market_eq
    have hkept : Ordered (s.repaid cfg vault.assetId m payer beneficiary amount) :=
      h.of_same local_repaid rfl rfl
    rcases hcases with ⟨-, rfl⟩ | ⟨-, hclose⟩
    · exact ⟨hkept, rfl⟩
    · obtain ⟨-, rfl⟩ := closeBorrow_ok hclose
      refine ⟨hkept.of_local (local_closed.trans (local_withLedger _)) hm (.of_same rfl) hkept.one_le
        fun {a j} hj => ?_, rfl⟩
      have hremove : (if m = m ∧ a = beneficiary then none else s.debtIndex.get m a) = some j :=
        StorageDoubleMap.get_remove.symm.trans hj
      split at hremove
      next => cases hremove
      next => exact h.below hremove

theorem Ordered.after_liquidateAccount {env : Env X} {liquidator account : A} {u : Unit}
    (h : Ordered s) (hliquidate : liquidateAccount cfg env liquidator m account s = (.ok u, s')) :
    Ordered s' ∧ s'.borrowIndex = s.borrowIndex := by
  rcases liquidateAccount_ok hliquidate with ⟨-, rfl⟩ | ⟨_, _, _, _, _, _, -, -, -, -, -, rfl⟩
  · exact ⟨h, rfl⟩
  · exact ⟨h.of_same (m := m) local_liquidated rfl rfl, rfl⟩

/-- The index of a market grows when interest accrues on it. -/
theorem Ordered.accrued {index index' amount : Nat} (h : Ordered s)
    (hindex : s.borrowIndex m = some index)
    (hle : index ≤ index') :
    Ordered (s.accrued cfg m index' amount) ∧ Grown s (s.accrued cfg m index' amount) := by
  have hself : Function.update s.borrowIndex m (some index') m = some index' :=
    Function.update_self ..
  have hm : m ≤ s.lendingCount := by
    by_contra hlt
    rw [(h.blank (Nat.lt_of_not_le hlt)).2] at hindex
    cases hindex
  have hgrown : Grown s (s.accrued cfg m index' amount) := by
    intro n i hi
    by_cases hn : n = m
    · subst hn
      obtain rfl := Option.some.inj (hindex.symm.trans hi)
      exact ⟨index', hself, hle⟩
    · exact ⟨i, (Function.update_of_ne hn ..).trans hi, le_rfl⟩
  refine ⟨h.of_local local_accrued hm hgrown (fun {i} hi => ?_) fun {a j} hj => ?_, hgrown⟩
  · obtain rfl := Option.some.inj (hself.symm.trans hi)
    exact (h.one_le hindex).trans hle
  · obtain ⟨i, hi, hbelow⟩ := h.below hj
    obtain rfl := Option.some.inj (hindex.symm.trans hi)
    exact ⟨index', hself, hbelow.trans hle⟩

theorem Ordered.after_initializeMarket {now : Nat} {u : Unit} (h : Ordered s)
    (hmarket : initializeMarket cfg now m s = (.ok u, s')) : Ordered s' ∧ Grown s s' := by
  obtain ⟨config, index, index', amount, v, -, hindex, hle, hfunds, rfl⟩ :=
    initializeMarket_ok hmarket
  have haccrued : Ordered (s.accrued cfg m index' amount) ∧ Grown s (s.accrued cfg m index' amount) :=
    h.accrued hindex hle
  exact ⟨haccrued.1.of_same (m := m) (local_fundsMoved hfunds) rfl rfl, haccrued.2⟩

/-- A new market starts with an index of one, and no accounts. -/
theorem Ordered.after_create {env : Env X} {manager : A} {input : CreateInput X} {r : Nat × Nat}
    (h : Ordered s)
    (hcreate : create cfg env manager input s = (.ok r, s')) : Ordered s' ∧ Grown s s' := by
  obtain ⟨lpToken, debtAsset, factory, factory', poolSize, -, rfl⟩ := create_ok hcreate
  have hself :
      Function.update s.borrowIndex (s.lendingCount + 1) (some Fixed.div) (s.lendingCount + 1) =
      some Fixed.div := Function.update_self ..
  have hother : ∀ n, n ≠ s.lendingCount + 1 →
      Function.update s.borrowIndex (s.lendingCount + 1) (some Fixed.div) n = s.borrowIndex n :=
    fun n hn => Function.update_of_ne hn ..
  obtain ⟨hnobody, hnoindex⟩ := h.blank (Nat.lt_succ_self s.lendingCount)
  refine ⟨⟨fun {m config} hm => ?_, fun {m config} hm => ?_, fun {m} hm => ?_, fun {m i} hi => ?_,
    fun {m a j} hj => ?_⟩, fun m i hi => ?_⟩
  · rcases lookup_created hm with ⟨rfl, -⟩ | hold
    · exact Nat.le_refl _
    · exact Nat.le_succ_of_le (h.listed hold)
  · rcases lookup_created hm with ⟨rfl, -⟩ | hold
    · exact ⟨Fixed.div, debtAsset, hself, Function.update_self ..⟩
    · obtain ⟨i, d, hi, hd⟩ := h.indexed hold
      have hm : m ≠ s.lendingCount + 1 := (Nat.lt_succ_of_le (h.listed hold)).ne
      exact ⟨i, d, (hother m hm).trans hi, (Function.update_of_ne hm ..).trans hd⟩
  · have hlt : s.lendingCount + 1 < m := hm
    obtain ⟨hindex, hmarket⟩ := h.blank (Nat.lt_of_succ_lt hlt)
    exact ⟨hindex, (hother m hlt.ne').trans hmarket⟩
  · by_cases hm : m = s.lendingCount + 1
    · subst hm
      obtain rfl := Option.some.inj (hself.symm.trans hi)
      exact Nat.le_refl _
    · exact h.one_le ((hother m hm).symm.trans hi)
  · -- No account has an index on the new market.
    have hm : m ≠ s.lendingCount + 1 := by
      rintro rfl
      have hlookup : (s.debtIndex (s.lendingCount + 1)).lookup a = some j := hj
      rw [hnobody, AList.lookup_empty] at hlookup
      cases hlookup
    obtain ⟨i, hi, hle⟩ := h.below hj
    exact ⟨i, (hother m hm).trans hi, hle⟩
  · have hm : m ≠ s.lendingCount + 1 := by
      rintro rfl
      rw [hnoindex] at hi
      cases hi
    exact ⟨i, (hother m hm).trans hi, le_rfl⟩

omit [DecidableEq X] in
theorem Ordered.after_update {config : MarketConfig A X} {input : UpdateInput} (h : Ordered s)
    (hmarket : s.markets.lookup m = some config) :
    Ordered { s with markets := s.markets.insert m (config.update input) } := by
  refine ⟨fun {n c} hn => ?_, fun {n c} hn => ?_, h.blank, h.one_le, h.below⟩
  · obtain ⟨c', hc', -, -⟩ := lookup_updated hmarket hn
    exact h.listed hc'
  · obtain ⟨c', hc', -, -⟩ := lookup_updated hmarket hn
    exact h.indexed hc'

/-- **Every step keeps the order of the indexes**, and lowers none of a market. -/
theorem Ordered.step {op : Op A X} (h : Ordered s) (hstep : step cfg s op = some s') :
    Ordered s' ∧ Grown s s' := by
  cases step_effect hstep with
  | idle => exact ⟨h, .of_same rfl⟩
  | created hcreate => exact h.after_create hcreate
  | updated hmarket => exact ⟨h.after_update hmarket, .of_same rfl⟩
  | deposited hdeposit =>
      obtain ⟨_, -, -, rfl⟩ := depositCollateral_ok hdeposit
      exact ⟨h.of_same local_deposited rfl rfl, .of_same rfl⟩
  | withdrawn hwithdraw =>
      obtain ⟨_, -, -, -, rfl⟩ := withdrawCollateral_ok hwithdraw
      exact ⟨h.of_same local_withdrawn rfl rfl, .of_same rfl⟩
  | borrowed hborrow =>
      obtain ⟨hs', hsame⟩ := h.after_borrow hborrow
      exact ⟨hs', .of_same hsame⟩
  | repaid hrepay =>
      obtain ⟨hs', hsame⟩ := h.after_repay hrepay
      exact ⟨hs', .of_same hsame⟩
  | liquidated hloop =>
      have hboth := Call.forEach_invariant (I := fun t => Ordered t ∧ t.borrowIndex = s.borrowIndex)
        (fun _ _ _ _ _ ht hturn => ?_) ⟨h, rfl⟩ hloop
      · exact ⟨hboth.1, .of_same hboth.2⟩
      · obtain ⟨ht', hsame⟩ := ht.1.after_liquidateAccount hturn
        exact ⟨ht', hsame.trans ht.2⟩
  | initialized hblock =>
      refine initializeBlock_invariant (I := fun t => Ordered t ∧ Grown s t) (fun ht hturn => ?_)
        (fun ht => ⟨ht.1.of_same (local_stamped 0) rfl rfl, ht.2⟩) ⟨h, .of_same rfl⟩ hblock
      obtain ⟨ht', hgrown⟩ := ht.1.after_initializeMarket hturn
      exact ⟨ht', ht.2.trans hgrown⟩

/-! ## Runs -/

theorem Ordered.run {ops : List (Op A X)} (h : Ordered s)
    (hrun : Composable.run (Lending.step cfg) s ops = some s') : Ordered s' :=
  run_invariant (I := Ordered) (fun h _ hstep => (h.step hstep).1) h (along_true s ops) hrun

theorem Grown.run {ops : List (Op A X)} (h : Ordered s)
    (hrun : Composable.run (Lending.step cfg) s ops = some s') : Grown s s' :=
  run_related (I := Ordered) (R := Grown) (fun _ => .of_same rfl) Grown.trans
    (fun h _ hstep => h.step hstep) h
    (along_true s ops) hrun

omit [DecidableEq X] in
/-- What `borrow_balance_current` reports of a principal on hold. -/
theorem Ordered.owed_iff {d : X} {a : A} {j owed : Nat} (h : Ordered s)
    (hd : s.debtMarkets m = some d)
    (hj : s.debtIndex.get m a = some j) (hprincipal : 0 < s.ledger.reserved d a) :
    borrowBalanceCurrent m a s = (.ok (some owed), s) ↔ ∃ i, s.borrowIndex m = some i ∧ 0 < j ∧
      s.ledger.reserved d a * i ≤ u128Max ∧ debtOf (s.ledger.reserved d a) i j ≤ u64Max ∧
        owed = debtOf (s.ledger.reserved d a) i j := by
  obtain ⟨i, hi, hle⟩ := h.below hj
  have hiff : borrowFromPrincipal (s.ledger.reserved d a) i j = .ok (some owed) ↔ _ :=
    borrowFromPrincipal_ok hprincipal (h.one_le hi) hle
  rw [borrowBalanceCurrent_eq hd hi hj, Prod.mk.injEq]
  constructor
  · rintro ⟨hok, -⟩
    cases hfrom : borrowFromPrincipal (s.ledger.reserved d a) i j with
    | error e =>
        rw [hfrom] at hok
        cases hok
    | ok value =>
        rw [hfrom] at hok hiff
        obtain rfl := Except.ok.inj hok
        exact ⟨i, hi, hiff.mp rfl⟩
  · rintro ⟨i', hi', hfits⟩
    obtain rfl := Option.some.inj (hi.symm.trans hi')
    rw [hiff.mpr hfits]
    exact ⟨rfl, rfl⟩

/-- Interest was accrued, on one market or at the start of a block. -/
def Accrues (cfg : Config A X F) (s s' : State A X F) : Prop :=
  (∃ m now u, accrueInterest cfg m now s = (.ok u, s')) ∨
    ∃ now, step cfg s (.initializeBlock now) = some s'

/-- Accruing interest leaves the principals and the indexes of the accounts alone. -/
theorem Accrues.same (h : Accrues cfg s s') :
    s'.debtMarkets = s.debtMarkets ∧ s'.debtIndex = s.debtIndex ∧
    s'.ledger.reserved = s.ledger.reserved := by
  rcases h with ⟨m, now, u, haccrue⟩ | ⟨now, hstep⟩
  · obtain ⟨_, _, _, -, -, rfl⟩ := accrueInterest_ok haccrue
    exact ⟨rfl, rfl, rfl⟩
  · cases step_effect hstep with
    | idle => exact ⟨rfl, rfl, rfl⟩
    | initialized hblock =>
        refine initializeBlock_invariant (I := fun t => t.debtMarkets = s.debtMarkets ∧
          t.debtIndex = s.debtIndex ∧
          t.ledger.reserved = s.ledger.reserved) ?_ id ⟨rfl, rfl, rfl⟩ hblock
        rintro t t' m u ⟨hd, hindex, hreserved⟩ hturn
        obtain ⟨_, _, _, _, v, -, -, -, hfunds, rfl⟩ := initializeMarket_ok hturn
        exact ⟨hd, hindex, hfunds.reserved.trans hreserved⟩

theorem Accrues.grown (haccrues : Accrues cfg s s') (h : Ordered s) : Ordered s' ∧ Grown s s' := by
  rcases haccrues with ⟨m, now, u, haccrue⟩ | ⟨now, hstep⟩
  · obtain ⟨_, _, _, hindex, hle, rfl⟩ := accrueInterest_ok haccrue
    exact h.accrued hindex hle
  · exact h.step hstep

/-- **Borrow indexes are monotone.** In every state reached, the index of a market is at least one
    and has not fallen later, that of an account is at most that of its market, and the debt that is
    reported of a principal on hold is at least that principal and is not lowered by an accrual. -/
theorem borrow_indexes_monotone (cfg : Config A X F) (ledger : Ledger A X) (factory : F) (now : Nat)
    {ops : List (Op A X)} (hrun : run (step cfg) (State.genesis ledger factory now) ops = some s) :
    (∀ m config, s.markets.lookup m = some config → ∃ i, s.borrowIndex m = some i ∧ Fixed.div ≤ i ∧
      ∀ later s', run (step cfg) s later = some s' → ∃ i', s'.borrowIndex m = some i' ∧ i ≤ i') ∧
    (∀ m a j, s.debtIndex.get m a = some j → ∃ i, s.borrowIndex m = some i ∧ j ≤ i) ∧
    ∀ m d a owed, s.debtMarkets m = some d →
      (s.debtIndex.get m a).isSome = true → 0 < s.ledger.reserved d a →
      borrowBalanceCurrent m a s = (.ok (some owed), s) → s.ledger.reserved d a ≤ owed ∧
        ∀ s' owed', Accrues cfg s s' → borrowBalanceCurrent m a s' = (.ok (some owed'), s') →
          owed ≤ owed' := by
  have h : Ordered s := (Ordered.genesis ledger factory now).run hrun
  refine ⟨fun m config hm => ?_, fun m a j hj => h.below hj,
    fun m d a owed hd hsome hprincipal howed => ?_⟩
  · obtain ⟨i, _, hi, -⟩ := h.indexed hm
    exact ⟨i, hi, h.one_le hi, fun later s' hlater => Grown.run h hlater m i hi⟩
  · obtain ⟨j, hj⟩ := Option.isSome_iff_exists.mp hsome
    obtain ⟨i, hi, hpos, -, -, rfl⟩ := (h.owed_iff hd hj hprincipal).mp howed
    refine ⟨?_, fun s' owed' haccrues howed' => ?_⟩
    · obtain ⟨i', hi', hle⟩ := h.below hj
      obtain rfl := Option.some.inj (hi.symm.trans hi')
      exact principal_le_debtOf hpos hle
    -- An accrual leaves the principal and the index of the account alone.
    · obtain ⟨hdebts, hindex, hreserved⟩ := haccrues.same
      obtain ⟨hs', hgrown⟩ := haccrues.grown h
      rw [← hdebts] at hd
      rw [← hindex] at hj
      rw [← hreserved] at hprincipal ⊢
      obtain ⟨i', hi', -, -, -, rfl⟩ := (hs'.owed_iff hd hj hprincipal).mp howed'
      obtain ⟨k, hk, hik⟩ := hgrown m i hi
      obtain rfl := Option.some.inj (hk.symm.trans hi')
      exact debtOf_mono (Nat.mul_le_mul_left _ hik)

/-- Account `1` borrows against its collateral, and interest accrues for a year. -/
def accruedOps : List (Op Nat Nat) :=
  [.createMarket ⟨0, sampleOracle fun _ => 1⟩ (.signed 7) ⟨sampleInput, sampleInput_valid⟩,
    .depositCollateral (.signed 1) 1 900, .initializeBlock 1,
    .borrow ⟨1, sampleOracle fun _ => 1⟩ (.signed 1) 1 100,
      .initializeBlock (1 + secondsPerYearNaive)]

theorem borrow_indexes_monotone_sample :
    ∃ s owed, run (step sample) (State.genesis sampleLedger 100 0) accruedOps =
    some s ∧ s.ledger.reserved 101 1 = 100 ∧ borrowBalanceCurrent 1 1 s = (.ok (some owed), s) ∧
      100 ≤ owed := by
  have hview : (run (step sample) (State.genesis sampleLedger 100 0) accruedOps).map
      (fun s => (s.debtMarkets 1, (s.debtIndex.get 1 1).isSome, s.ledger.reserved 101 1,
        (borrowBalanceCurrent 1 1 s).1.toOption)) =
          some (some 101, true, 100, some (some 109)) := by decide +kernel
  obtain ⟨s, hrun, hs⟩ := Option.map_eq_some_iff.mp hview
  simp only [Prod.mk.injEq] at hs
  obtain ⟨hd, hsome, hreserved, howed⟩ := hs
  have howed' : borrowBalanceCurrent 1 1 s = (.ok (some 109), s) :=
    borrowBalanceCurrent_reads.ok_of_toOption howed
  have hle := ((borrow_indexes_monotone sample sampleLedger 100 0 hrun).2.2 1 101 1 109 hd hsome
    (by rw [hreserved]; decide) howed').1
  rw [hreserved] at hle
  exact ⟨s, 109, hrun, hreserved, howed', hle⟩

/-! ## Frozen debts -/

/-- `C` holds of principal, index of the market and index of the account, where there is a debt. -/
def OfDebt (C : Nat → Nat → Nat → Prop) (s : State A X F) (m : Nat) (a : A) : Prop :=
  ∀ d i j, s.debtMarkets m = some d → s.borrowIndex m = some i → s.debtIndex.get m a = some j →
    0 < s.ledger.reserved d a → C (s.ledger.reserved d a) i j

/-- What is owed fits a balance. -/
def FitsBalance (principal marketIndex accountIndex : Nat) : Prop :=
  0 < accountIndex ∧ principal * marketIndex / accountIndex ≤ u128Max

/-- The computation fits: the principal scaled by the inner value of the index of the market into
    128 bits, and what is owed into 64 bits, also after it was rounded up. -/
def FitsComputation (principal marketIndex accountIndex : Nat) : Prop :=
  principal * marketIndex ≤ u128Max ∧ principal * marketIndex < 2 ^ 64 * accountIndex ∧
    (Fixed.RoundedDown (principal * marketIndex) Fixed.div accountIndex ∨
      2 * (principal * marketIndex * Fixed.div) + accountIndex ≤
        2 * (2 ^ 64 * Fixed.div * accountIndex))

omit [DecidableEq X] in
/-- `borrow_balance_current` returns exactly when its computation fits. -/
theorem Ordered.returns_iff {config : MarketConfig A X} {a : A} (h : Ordered s)
    (hmarket : s.markets.lookup m = some config) (hfits : OfDebt FitsBalance s m a) :
    (∃ owed, borrowBalanceCurrent m a s = (.ok owed, s)) ↔ OfDebt FitsComputation s m a := by
  obtain ⟨i, d, hi, hd⟩ := h.indexed hmarket
  cases hj : s.debtIndex.get m a with
  | none =>
      refine iff_of_true ⟨some 0, ?_⟩ fun _ _ _ _ _ hj' => ?_
      · have hdebt :
            (Call.ofOption (s.debtMarkets m) (err .marketDoesNotExist) : LendingCall A X F X) s =
            (.ok d, s) := Call.ofOption_ok.mpr ⟨hd, rfl⟩
        rw [borrowBalanceCurrent, Call.get_bind, Call.bind_of_ok hdebt, hj]
        exact Call.pure_ok.mpr ⟨rfl, rfl⟩
      · rw [hj] at hj'
        cases hj'
  | some j =>
      rcases Nat.eq_zero_or_pos (s.ledger.reserved d a) with hzero | hprincipal
      · refine iff_of_true ⟨none, ?_⟩ fun d' _ _ hd' _ _ hpos => ?_
        · rw [borrowBalanceCurrent_eq hd hi hj, hzero]
          rfl
        · obtain rfl := Option.some.inj (hd.symm.trans hd')
          exact absurd hzero hpos.ne'
      · have hdebt : ∀ C : Nat → Nat → Nat → Prop, OfDebt C s m a ↔
            C (s.ledger.reserved d a) i j := by
          intro C
          constructor
          · intro hC
            exact hC d i j hd hi hj hprincipal
          · intro hC d' i' j' hd' hi' hj' _
            obtain rfl := Option.some.inj (hd.symm.trans hd')
            obtain rfl := Option.some.inj (hi.symm.trans hi')
            obtain rfl := Option.some.inj (hj.symm.trans hj')
            exact hC
        obtain ⟨hpos, -⟩ := (hdebt FitsBalance).mp hfits
        obtain ⟨i', hi', hle⟩ := h.below hj
        obtain rfl := Option.some.inj (hi.symm.trans hi')
        rw [hdebt FitsComputation, FitsComputation, ← debtOf_lt_iff hpos,
          borrowBalanceCurrent_eq hd hi hj,
          borrowFromPrincipal_eq hprincipal (h.one_le hi) hpos hle]
        have hbound : ∀ n, n < 2 ^ 64 ↔ n ≤ u64Max := fun _ => Nat.lt_succ_iff
        rw [hbound]
        split
        next hcomputed => exact iff_of_true ⟨_, rfl⟩ hcomputed
        next hcomputed =>
          refine iff_of_false ?_ hcomputed
          rintro ⟨_, hok⟩
          cases hok

/-- **Debts never freeze** all along a run exactly when, wherever a debt fits a
    balance, its computation fits. -/
theorem debts_never_freeze_iff (cfg : Config A X F) (ledger : Ledger A X) (factory : F) (now : Nat)
    (ops : List (Op A X)) :
    Throughout (step cfg) (fun s => ∀ m config a, s.markets.lookup m = some config →
      OfDebt FitsBalance s m a →
        ∃ owed, borrowBalanceCurrent m a s = (.ok owed, s)) (State.genesis ledger factory now) ops ↔
      Throughout (step cfg) (fun s => ∀ m config a, s.markets.lookup m = some config →
        OfDebt FitsBalance s m a →
        OfDebt FitsComputation s m a) (State.genesis ledger factory now) ops := by
  refine throughout_congr (I := Ordered) (fun h hstep => (h.step hstep).1) (fun h => ?_)
    (Ordered.genesis ledger factory now)
  -- State by state and position by position, as all that is asked of the run is its order of
  -- indexes.
  refine forall_congr' fun m => forall_congr' fun config => forall_congr' fun a =>
      forall_congr' fun hmarket =>
    forall_congr' fun hfits => h.returns_iff hmarket hfits

/-- A unit of asset `2` has twelve decimals, and asset `1` none. -/
def decimalOracle : Oracle Nat :=
  { sampleOracle fun _ => 1 with getPrice := fun x n => .ok (if x = 2 then n / 10 ^ 12 else n) }

/-- A new market gets a hundred million of its borrow asset. -/
def wealthySample : Config Nat Nat Nat := { sample with oracleMarketCreationStake := 10 ^ 20 }

def wealthyLedger : Ledger Nat Nat :=
  Ledger.ofList [(0, 1, 100), (0, 7, 100), (1, 1, 10 ^ 9), (2, 7, 10 ^ 21)]

/-- Account `1` borrows twenty million of asset `2`, which takes more than 64 bits. -/
def frozenOps : List (Op Nat Nat) :=
  [.createMarket ⟨0, decimalOracle⟩ (.signed 7) ⟨sampleInput, sampleInput_valid⟩,
    .depositCollateral (.signed 1) 1 (5 * 10 ^ 7), .initializeBlock 1,
    .borrow ⟨1, decimalOracle⟩ (.signed 1) 1 (2 * 10 ^ 19)]

/-- **A debt is frozen**: it fits a balance, but cannot be computed. -/
theorem debt_frozen :
    ∃ s config, run (step wealthySample) (State.genesis wealthyLedger 100 0) frozenOps = some s ∧
    s.markets.lookup 1 = some config ∧ OfDebt FitsBalance s 1 1 ∧
    ¬ ∃ owed, borrowBalanceCurrent 1 1 s = (.ok owed, s) := by
  have hview : (run (step wealthySample) (State.genesis wealthyLedger 100 0) frozenOps).map
      (fun s => (((s.markets.lookup 1).isSome, s.debtMarkets 1, s.borrowIndex 1),
        s.debtIndex.get 1 1, s.ledger.reserved 101 1, (borrowBalanceCurrent 1 1 s).1.toOption)) =
      some ((true, some 101, some 1000000003170979198), some 1000000003170979198, 2 * 10 ^ 19,
        none) := by
    decide +kernel
  obtain ⟨s, hrun, hs⟩ := Option.map_eq_some_iff.mp hview
  simp only [Prod.mk.injEq] at hs
  obtain ⟨⟨hmarket, hd, hi⟩, hj, hreserved, hfails⟩ := hs
  obtain ⟨config, hmarket⟩ := Option.isSome_iff_exists.mp hmarket
  refine ⟨s, config, hrun, hmarket, fun d i j hd' hi' hj' _ => ?_, ?_⟩
  · obtain rfl := Option.some.inj (hd.symm.trans hd')
    obtain rfl := Option.some.inj (hi.symm.trans hi')
    obtain rfl := Option.some.inj (hj.symm.trans hj')
    rw [hreserved]
    exact ⟨by decide, by decide⟩
  · rintro ⟨owed, howed⟩
    rw [howed] at hfails
    cases hfails

end Lending
end Composable
