import Composable.Lending.Coverage
import Composable.Lending.Positions
import Composable.Support.Payment

/-!
# `Lending.Repayments` — what a repayment moves

A repayment releases at most the principal of its beneficiary, and the payer pays only what is
released: the interest on top is burnt from the market and never paid for. And what is released
carries its interest with it, so that the debt falls by more than what is paid; by all of it, when
no interest is left on the market.

So the amount moves, and the debt falls by it, only where it is at most the principal and the part
that is repaid has next to no interest (`repays_in_full_iff`).
-/

namespace Composable
namespace Lending

variable {A X F : Type} [DecidableEq A] [DecidableEq X]
variable {cfg : Config A X F} {s s' : State A X F} {m amount : Nat} {d x : X}
  {payer beneficiary : A} {u : Unit}

/-- The rent that comes back when a step closes a borrow. -/
def State.rentBack (s s' : State A X F) (m : Nat) (a : A) : Nat :=
  if s'.debtIndex.get m a = none then (s.borrowRent.get m a).getD 0 else 0

/-- The amount has moved from the payer to the market, rents apart, and the debt has
    fallen by it, up to one unit. -/
structure RepaysInFull (cfg : Config A X F) (s s' : State A X F) (m : Nat) (x : X)
    (payer beneficiary : A) (amount : Nat) : Prop where
  moved : s'.ledger.balance x =
    Payment.apply ⟨cfg.vault.nativeAsset, cfg.accountId m, beneficiary, s.rentBack s' m beneficiary⟩
      (Payment.apply ⟨x, payer, cfg.accountId m, amount⟩ s.ledger.balance) x
  fallen : ∃ before after, borrowBalanceCurrent m beneficiary s = (.ok before, s) ∧
    borrowBalanceCurrent m beneficiary s' = (.ok after, s') ∧
      after.getD 0 + amount ≤ before.getD 0 + 1 ∧
      before.getD 0 ≤ after.getD 0 + amount + 1

/-- What is repaid is principal, next to free of interest. Without interest on the market
    it is all that is owed. -/
def AtPar (b : DebtBook A scaling) (a : A) (amount : Nat) : Prop :=
  amount ≤ b.principal a ∧
    if b.interest = 0 then b.owed a ≤ amount + 1
    else b.interestOn a (b.principal a) ≤ b.interestOn a (b.principal a - amount) + 1

instance (b : DebtBook A scaling) (a : A) (amount : Nat) : Decidable (AtPar b a amount) :=
  inferInstanceAs (Decidable (_ ∧ ite _ _ _))

/-! ## What moves -/

/-- Burning debt tokens does not touch other assets. -/
theorem balance_burntLedger {b : A} {interest principal : Nat} {l : Ledger A X} (hx : x ≠ d) :
    (burntLedger d b beneficiary interest principal l).balance x = l.balance x := by
  funext c
  rw [burntLedger, Ledger.balance_burn_of_ne_asset hx, Ledger.balance_unlock,
    Ledger.balance_burn_of_ne_asset hx]

/-- The rent that comes back is a payment of the market. -/
theorem closeBorrow_balance {t : State A X F} (hbeneficiary : cfg.accountId m ≠ beneficiary)
    (h : closeBorrow cfg m beneficiary t = (.ok u, s')) :
    s'.debtIndex.get m beneficiary = none ∧ s'.ledger.balance = Payment.apply
      ⟨cfg.vault.nativeAsset, cfg.accountId m, beneficiary, (t.borrowRent.get m beneficiary).getD 0⟩
        t.ledger.balance ∧
      (t.borrowRent.get m beneficiary).getD 0 ≤
        t.ledger.balance cfg.vault.nativeAsset (cfg.accountId m) := by
  obtain ⟨hpaid, rfl⟩ := closeBorrow_ok h
  have hindex : (t.debtIndex.remove m beneficiary).get m beneficiary = none := by
    rw [StorageDoubleMap.get_remove, if_pos ⟨rfl, rfl⟩]
  refine ⟨hindex, ?_⟩
  rw [State.ledger_withLedger, State.rentPaid]
  cases hrent : t.borrowRent.get m beneficiary with
  | none => exact ⟨Payment.apply_zero.symm, Nat.zero_le _⟩
  | some rent =>
      have hfunded := cfg.vault.currency.funded_of_transfer (hpaid rent hrent) hbeneficiary
      exact ⟨balance_move fun _ => hfunded, hfunded.trans (Nat.le_add_right _ _)⟩

/-- What has moved is the part of the amount that is principal; and the market had
    the rent that comes back. -/
theorem balance_repaid (hr : Registered cfg s) (h : Separated cfg s) (hd : s.debtMarkets m = some d)
    {config : MarketConfig A X} {vault : Vault.VaultInfo A X}
    (hmarket : s.markets.lookup m = some config)
    (hvault : s.vault.vaults config.borrow = some vault)
    (hrepay : repayBorrowInternal cfg m payer beneficiary (some amount) s = (.ok u, s')) :
    let paid : Sheet A X := Payment.apply
      ⟨vault.assetId, payer, cfg.accountId m, min amount (s.ledger.reserved d beneficiary)⟩
        s.ledger.balance
    s'.ledger.balance vault.assetId =
      Payment.apply ⟨cfg.vault.nativeAsset, cfg.accountId m, beneficiary,
        s.rentBack s' m beneficiary⟩ paid
        vault.assetId ∧
      (vault.assetId = cfg.vault.nativeAsset →
        s.rentBack s' m beneficiary ≤ paid vault.assetId (cfg.accountId m)) := by
  intro paid
  have hasset : vault.assetId ≠ d := fun heq => (h.asset hmarket hvault).2 m (heq ▸ hd)
  rcases repay_ok hrepay with ⟨hnone, rfl⟩ | ⟨config', vault', owed, hrepaid, hfunded, hcases⟩
  · obtain ⟨hindex, hprincipal⟩ := borrowBalanceCurrent_none hd hnone
    have hrent : s'.rentBack s' m beneficiary = 0 := if_neg (Option.isSome_iff_ne_none.mp hindex)
    have hpaid : paid = s'.ledger.balance := by
      show Payment.apply ⟨_, _, _, min amount (s'.ledger.reserved d beneficiary)⟩ _ = _
      rw [hprincipal, Nat.min_zero, Payment.apply_zero]
    rw [hrent, Payment.apply_zero, hpaid]
    exact ⟨rfl, fun _ => Nat.zero_le _⟩
  · obtain rfl := Option.some.inj (hmarket.symm.trans hrepaid.market_eq)
    obtain rfl := Option.some.inj (hvault.symm.trans hrepaid.vault_eq)
    have huser := hrepaid.user hr
    have hindex : (s.debtIndex.get m beneficiary).isSome = true := by
      rw [hr.dated]
      exact hrepaid.active
    have hpaid :
        (s.repaid cfg vault.assetId m payer beneficiary amount).ledger.balance vault.assetId =
        paid vault.assetId := by
      rw [State.debtAsset_eq hd, h.balance_debt hd huser] at hfunded
      rw [State.repaid, State.ledger_withLedger, State.debtAsset_eq hd, h.balance_debt hd huser,
        repaidLedger_eq, balance_move fun hne => hfunded hne]
      exact Payment.apply_congr (balance_burntLedger hasset)
    rcases hcases with ⟨-, rfl⟩ | ⟨-, hclose⟩
    · have hrent :
          s.rentBack (s.repaid cfg vault.assetId m payer beneficiary amount) m beneficiary = 0 :=
        if_neg (Option.isSome_iff_ne_none.mp hindex)
      rw [hrent, Payment.apply_zero, hpaid]
      exact ⟨rfl, fun _ => Nat.zero_le _⟩
    · obtain ⟨hclosed, hbalance, hle⟩ := closeBorrow_balance (huser m).symm hclose
      have hrent : s.rentBack s' m beneficiary = (s.borrowRent.get m beneficiary).getD 0 :=
        if_pos hclosed
      rw [hrent, hbalance]
      refine ⟨Payment.apply_congr hpaid, fun hnative => ?_⟩
      rw [← hnative] at hle
      rw [← hpaid]
      exact hle

/-- **The amount moves** exactly if it is at most the principal. -/
theorem moved_iff {sheet : Sheet A X} {native : X} {b : A} {rent part : Nat} (hpayer : payer ≠ b)
    (hbeneficiary : b ≠ beneficiary) (hpart : part ≤ amount)
    (hrent : x = native → rent ≤ Payment.apply ⟨x, payer, b, part⟩ sheet x b) :
    Payment.apply ⟨native, b, beneficiary, rent⟩ (Payment.apply ⟨x, payer, b, part⟩ sheet) x =
      Payment.apply ⟨native, b, beneficiary, rent⟩ (Payment.apply ⟨x, payer, b, amount⟩ sheet) x ↔
        part = amount := by
  constructor
  · intro heq
    have hat := congrFun heq b
    have hsender : ∀ sheet : Sheet A X, Payment.apply ⟨native, b, beneficiary, rent⟩ sheet x b =
        sheet x b - if x = native then rent else 0 := fun sheet => Payment.apply_sender hbeneficiary
    have hrecipient : ∀ n, Payment.apply ⟨x, payer, b, n⟩ sheet x b = sheet x b + n := fun n =>
      Payment.apply_recipient hpayer
    rw [hsender, hsender, hrecipient, hrecipient] at hat
    rw [hrecipient] at hrent
    split at hat
    next hnative =>
      have hle := hrent hnative
      omega
    next => omega
  · rintro rfl
    rfl

/-! ## What is owed -/

omit [DecidableEq X] in
/-- A debt that can be computed can be computed for a smaller principal. -/
theorem borrowBalanceCurrent_mono {owed : Option Nat} (h : Ordered s) (h' : Ordered s')
    (hd : s.debtMarkets m = some d)
    (hd' : s'.debtMarkets m = some d) (hi : s'.borrowIndex m = s.borrowIndex m)
    (hj : s'.debtIndex.get m beneficiary = s.debtIndex.get m beneficiary)
    (hle : s'.ledger.reserved d beneficiary ≤ s.ledger.reserved d beneficiary)
    (howed : borrowBalanceCurrent m beneficiary s = (.ok owed, s)) :
    ∃ after, borrowBalanceCurrent m beneficiary s' = (.ok after, s') := by
  obtain ⟨-, d', hd'', ⟨hnone, rfl⟩ | ⟨i, j, hindex, hstart, hfrom⟩⟩ :=
    borrowBalanceCurrent_ok.mp howed
  · exact ⟨some 0, borrowBalanceCurrent_ok.mpr ⟨rfl, d, hd', .inl ⟨hj.trans hnone, rfl⟩⟩⟩
  · obtain rfl := Option.some.inj (hd.symm.trans hd'')
    rcases Nat.eq_zero_or_pos (s'.ledger.reserved d beneficiary) with hzero | hpos
    · refine ⟨none, borrowBalanceCurrent_ok.mpr ⟨rfl, d, hd',
        .inr ⟨i, j, hi.trans hindex, hj.trans hstart, ?_⟩⟩⟩
      exact borrowFromPrincipal_none.mpr hzero
    · have hprincipal : 0 < s.ledger.reserved d beneficiary := hpos.trans_le hle
      cases owed with
      | none => exact absurd (borrowFromPrincipal_none.mp hfrom) hprincipal.ne'
      | some owed =>
          obtain ⟨i', hi', hstarted, htotal, hquotient, -⟩ :=
            (h.owed_iff hd hstart hprincipal).mp howed
          refine ⟨_, (h'.owed_iff hd' (hj.trans hstart) hpos).mpr ⟨i', hi.trans hi', hstarted,
            ?_, ?_, rfl⟩⟩
          · exact (Nat.mul_le_mul_right _ hle).trans htotal
          · exact (debtOf_mono_principal hle).trans hquotient

/-- The debt of a beneficiary without a principal stays nothing. Else it becomes that of the
    principal left, or nothing when no interest is left on the market. -/
theorem owed_repaid (hr : Registered cfg s) (h : Separated cfg s) (hordered : Ordered s)
    (hd : s.debtMarkets m = some d)
    (hrepay : repayBorrowInternal cfg m payer beneficiary (some amount) s = (.ok u, s')) :
    (s.debtIndex.get m beneficiary).isSome = true ∧
    ∃ before after, borrowBalanceCurrent m beneficiary s = (.ok before, s) ∧
      borrowBalanceCurrent m beneficiary s' = (.ok after, s') ∧
      (((s.book cfg m d).principal beneficiary = 0 ∧ before.getD 0 = 0 ∧ after.getD 0 = 0) ∨
        ∃ j, (s.book cfg m d).start beneficiary = some j ∧ 0 < j ∧ j ≤ (s.book cfg m d).index ∧
          amount ≤ before.getD 0 ∧ before.getD 0 = (s.book cfg m d).owed beneficiary ∧
          after.getD 0 = if (s.book cfg m d).interest -
            (amount - (s.book cfg m d).principal beneficiary) = 0 then 0
            else ((s.book cfg m d).repay beneficiary amount).owed beneficiary) := by
  have hordered' : Ordered s' := (hordered.after_repay hrepay).1
  rcases repay_ok hrepay with ⟨hnone, rfl⟩ | ⟨config, vault, owed, hrepaid, -, hcases⟩
  · obtain ⟨hindex, hprincipal⟩ := borrowBalanceCurrent_none hd hnone
    exact ⟨hindex, none, none, hnone, hnone, .inl ⟨hprincipal, rfl, rfl⟩⟩
  · have huser := hrepaid.user hr
    have hbalance := h.balance_debt hd huser
    have hasset : d ≠ vault.assetId :=
      fun heq => (h.asset hrepaid.market_eq hrepaid.vault_eq).2 m (heq ▸ hd)
    have hinterest := hrepaid.interest
    rw [State.debtAsset_eq hd, hbalance] at hinterest
    have hbook : (s.repaid cfg vault.assetId m payer beneficiary amount).book cfg m d =
        (s.book cfg m d).repay beneficiary amount := book_repaid hd hasset huser hbalance hinterest
    have hleft : s.interestLeft cfg m beneficiary amount =
        (s.book cfg m d).interest - (amount - (s.book cfg m d).principal beneficiary) := by
      rw [State.interestLeft, State.debtAsset_eq hd, hbalance]
      rfl
    have hindex : (s.debtIndex.get m beneficiary).isSome = true := by
      rw [hr.dated]
      exact hrepaid.active
    obtain ⟨j, hj⟩ := Option.isSome_iff_exists.mp hindex
    obtain ⟨i, hi, hpos, -⟩ := (hordered.owed_iff hd hj (hrepaid.principal_pos hd)).mp hrepaid.owed_eq
    have hle : j ≤ (s.book cfg m d).index := by
      obtain ⟨i', hi', hle⟩ := hordered.below hj
      show j ≤ (s.borrowIndex m).getD 0
      rwa [hi']
    have hbefore : owed = (s.book cfg m d).owed beneficiary := owed_book hordered hd hrepaid.owed_eq
    rcases hcases with ⟨hne, rfl⟩ | ⟨hzero, hclose⟩
    · have hreserved :
          (s.repaid cfg vault.assetId m payer beneficiary amount).ledger.reserved d beneficiary ≤
          s.ledger.reserved d beneficiary := by
        rw [State.repaid, State.ledger_withLedger, reserved_repaidLedger]
        exact Nat.sub_le _ _
      obtain ⟨after, hafter⟩ :=
        borrowBalanceCurrent_mono hordered hordered' hd hd rfl rfl hreserved hrepaid.owed_eq
      refine ⟨hindex, some owed, after, hrepaid.owed_eq, hafter,
        .inr ⟨j, hj, hpos, hle, hrepaid.le_owed, hbefore, ?_⟩⟩
      rw [← hleft, if_neg hne, ← hbook]
      exact owed_position hordered' hd hafter
    · have hclosed := (closeBorrow_balance (huser m).symm hclose).1
      have hdebts : s'.debtMarkets m = some d := by
        obtain ⟨-, rfl⟩ := closeBorrow_ok hclose
        exact hd
      have hafter : borrowBalanceCurrent m beneficiary s' = (.ok (some 0), s') :=
        borrowBalanceCurrent_ok.mpr ⟨rfl, d, hdebts, .inl ⟨hclosed, rfl⟩⟩
      refine ⟨hindex, some owed, some 0, hrepaid.owed_eq, hafter,
        .inr ⟨j, hj, hpos, hle, hrepaid.le_owed, hbefore, ?_⟩⟩
      rw [← hleft, if_pos hzero]
      rfl

/-- **The debt falls by what is repaid**, when that is principal, exactly if next to no
    interest falls with it. -/
theorem fallen_iff {b : DebtBook A scaling} {a : A} {j before after : Nat} (hj : b.start a = some j)
    (hpos : 0 < j)
    (hle : j ≤ b.index) (hamount : amount ≤ before) (hbefore : before = b.owed a)
    (hpart : amount ≤ b.principal a)
    (hafter : after = if b.interest - (amount - b.principal a) = 0 then 0
      else (b.repay a amount).owed a) :
    after + amount ≤ before + 1 ∧ before ≤ after + amount + 1 ↔
      if b.interest = 0 then b.owed a ≤ amount + 1
      else b.interestOn a (b.principal a) ≤ b.interestOn a (b.principal a - amount) + 1 := by
  have hwhole : b.owed a = b.principal a + b.interestOn a (b.principal a) :=
    DebtBook.owed_eq hj hpos hle
  have hrest : (b.repay a amount).owed a = b.principal a - amount +
      b.interestOn a (b.principal a - amount) :=
    DebtBook.owed_repay hj hpos hle
  have hmono : b.interestOn a (b.principal a - amount) ≤ b.interestOn a (b.principal a) := by
    apply DebtBook.interestOn_mono
    · intro k hk
      obtain rfl := Option.some.inj (hj.symm.trans hk)
      exact hle
    · exact Nat.sub_le _ _
  rw [Nat.sub_eq_zero_of_le hpart, Nat.sub_zero] at hafter
  split
  next hzero =>
    rw [if_pos hzero] at hafter
    omega
  next hne =>
    rw [if_neg hne] at hafter
    omega

/-! ## Repayments of any amount -/

/-- To repay without an amount is to repay what is reported to be owed. -/
theorem repayBorrowInternal_some {amount? : Option Nat}
    (h : repayBorrowInternal cfg m payer beneficiary amount? s = (.ok u, s')) :
    repayBorrowInternal cfg m payer beneficiary (some (amount?.getD (s.reported m beneficiary))) s =
      (.ok u, s') := by
  cases amount? with
  | some amount => exact h
  | none =>
      simp only [repayBorrowInternal, Call.bind_ok, getMarket_ok] at h ⊢
      obtain ⟨config, _, ⟨hmarket, rfl⟩, owed?, t, howed, h⟩ := h
      obtain rfl := borrowBalanceCurrent_reads.ok howed
      refine ⟨config, t, ⟨hmarket, rfl⟩, owed?, t, howed, ?_⟩
      cases owed? with
      | none => exact h
      | some owed =>
          have hreported : t.reported m beneficiary = owed := by
            rw [State.reported, howed]
            rfl
          rw [Option.getD_none, hreported]
          exact h

/-- **A repayment is in full** exactly where it is at par: in every state reached by users, the
    amount (all that is owed if none is given) moves from the payer to the market and the debt falls
    by it, up to one unit, if and only if it is at most the principal of the beneficiary and next to
    no interest has accrued on it. -/
theorem repays_in_full_iff (cfg : Config A X F) {ledger : Ledger A X} {factory : F}
    (hgenesis : Unissued cfg ledger factory) (now : Nat) {ops : List (Op A X)}
    (huser : ∀ op ∈ ops, op.ByUser cfg)
    (hrun : run (step cfg) (State.genesis ledger factory now) ops = some s)
    {config : MarketConfig A X}
    {vault : Vault.VaultInfo A X} (hmarket : s.markets.lookup m = some config)
    (hvault : s.vault.vaults config.borrow = some vault) (hd : s.debtMarkets m = some d)
    (hpayer : payer ≠ cfg.accountId m) {amount? : Option Nat}
    (hrepay : repayBorrowInternal cfg m payer beneficiary amount? s = (.ok u, s')) :
    RepaysInFull cfg s s' m vault.assetId payer beneficiary
      (amount?.getD (s.reported m beneficiary)) ↔
      AtPar (s.book cfg m d) beneficiary (amount?.getD (s.reported m beneficiary)) := by
  obtain ⟨hr, h⟩ := Separated.of_run hgenesis huser hrun
  have hordered : Ordered s := (Ordered.genesis ledger factory now).run hrun
  replace hrepay := repayBorrowInternal_some hrepay
  generalize amount?.getD (s.reported m beneficiary) = amount at hrepay ⊢
  obtain ⟨hbalance, hrent⟩ := balance_repaid hr h hd hmarket hvault hrepay
  obtain ⟨hindex, before, after, hbefore, hafter, hcases⟩ := owed_repaid hr h hordered hd hrepay
  have hbeneficiary : cfg.accountId m ≠ beneficiary := (hr.user_of_index hindex m).symm
  -- The money that moves is the smaller of the amount and the principal.
  have hmoved : s'.ledger.balance vault.assetId =
      Payment.apply ⟨cfg.vault.nativeAsset, cfg.accountId m, beneficiary, s.rentBack s' m beneficiary⟩
        (Payment.apply ⟨vault.assetId, payer, cfg.accountId m, amount⟩ s.ledger.balance)
          vault.assetId ↔
      amount ≤ (s.book cfg m d).principal beneficiary := by
    rw [hbalance, moved_iff hpayer hbeneficiary (Nat.min_le_left _ _) hrent]
    exact min_eq_left_iff
  -- Without an index nothing is owed before or after; otherwise the fall is that of the book.
  constructor
  · rintro ⟨hpaid, before', after', hbefore', hafter', hfallen⟩
    have hpart := hmoved.mp hpaid
    obtain rfl := Except.ok.inj (congrArg Prod.fst (hbefore.symm.trans hbefore'))
    obtain rfl := Except.ok.inj (congrArg Prod.fst (hafter.symm.trans hafter'))
    rcases hcases with ⟨hnothing, hzero, hzero'⟩ | ⟨j, hj, hpos, hle, hamount, howed, howed'⟩
    · have howed : (s.book cfg m d).owed beneficiary = 0 :=
        (owed_position hordered hd hbefore).symm.trans hzero
      refine ⟨hpart, ?_⟩
      rw [howed, hnothing, Nat.zero_sub]
      split
      next => exact Nat.zero_le _
      next => exact Nat.le_succ _
    · exact ⟨hpart, (fallen_iff hj hpos hle hamount howed hpart howed').mp hfallen⟩
  · rintro ⟨hpart, hpar⟩
    refine ⟨hmoved.mpr hpart, before, after, hbefore, hafter, ?_⟩
    rcases hcases with ⟨hnothing, hzero, hzero'⟩ | ⟨j, hj, hpos, hle, hamount, howed, howed'⟩
    · omega
    · exact (fallen_iff hj hpos hle hamount howed hpart howed').mpr hpar

/-- What is left of the calls of others when account `3` repays `amount?` for account `1`,
    a year after its borrow. -/
def sampleRepayment (amount? : Option Nat) : Option (State Nat Nat Nat × State Nat Nat Nat) :=
  (run (step sample) (State.genesis sampleLedger 100 0) settledOps.dropLast).bind fun s =>
    match repayBorrowInternal sample 1 3 1 amount? s with
    | (.ok _, s') => some (s, s')
    | (.error _, _) => none

theorem sampleRepayment_ok {amount? : Option Nat} {s s' : State Nat Nat Nat}
    (h : sampleRepayment amount? = some (s, s')) :
    run (step sample) (State.genesis sampleLedger 100 0) settledOps.dropLast = some s ∧
      repayBorrowInternal sample 1 3 1 amount? s = (.ok (), s') := by
  obtain ⟨t, hrun, hmatch⟩ := Option.bind_eq_some_iff.mp h
  split at hmatch
  next heq =>
    obtain ⟨rfl, rfl⟩ := hmatch
    exact ⟨hrun, heq⟩
  next => cases hmatch

theorem repays_in_full_sample : ∃ s s',
    run (step sample) (State.genesis sampleLedger 100 0) settledOps.dropLast = some s ∧
      repayBorrowInternal sample 1 3 1 (some 10) s = (.ok (), s') ∧
        RepaysInFull sample s s' 1 2 3 1 10 := by
  have hview : (sampleRepayment (some 10)).map (fun p => ((p.1.markets.lookup 1).map (·.borrow),
      (p.1.vault.vaults 1).map (·.assetId), p.1.debtMarkets 1,
      decide (AtPar (p.1.book sample 1 101) 1 10))) =
      some (some 1, some 2, some 101, true) := by decide +kernel
  obtain ⟨⟨s, s'⟩, hs, hview⟩ := Option.map_eq_some_iff.mp hview
  obtain ⟨hrun, hrepay⟩ := sampleRepayment_ok hs
  simp only [Prod.mk.injEq, decide_eq_true_eq, Option.map_eq_some_iff] at hview
  obtain ⟨⟨config, hmarket, hborrow⟩, ⟨vault, hvault, hasset⟩, hd, hpar⟩ := hview
  have huser : ∀ op ∈ settledOps.dropLast, op.ByUser sample := fun op hop =>
    settledOps_byUser op (List.mem_of_mem_dropLast hop)
  rw [← hborrow] at hvault
  rw [← hasset]
  exact ⟨s, s', hrun, hrepay,
    (repays_in_full_iff sample sampleLedger_unissued 0 huser hrun hmarket hvault hd
    (sample_user 3 (by decide) 1) hrepay).mpr hpar⟩

/-- **The interest is not paid**: account `1` owes `109`, and account `3`, who
    repays all of it, pays `100`. -/
theorem repays_short : ∃ s s',
    run (step sample) (State.genesis sampleLedger 100 0) settledOps.dropLast = some s ∧
      repayBorrowInternal sample 1 3 1 none s = (.ok (), s') ∧ s.reported 1 1 = 109 ∧
      ¬ RepaysInFull sample s s' 1 2 3 1 (s.reported 1 1) := by
  have hview : (sampleRepayment none).map
      (fun p => (p.1.reported 1 1, p.1.ledger.balance 2 3, p.2.ledger.balance 2 3)) =
      some (109, 1000, 900) := by decide +kernel
  obtain ⟨⟨s, s'⟩, hs, hview⟩ := Option.map_eq_some_iff.mp hview
  obtain ⟨hrun, hrepay⟩ := sampleRepayment_ok hs
  simp only [Prod.mk.injEq] at hview
  obtain ⟨hreported, hbefore, hafter⟩ := hview
  refine ⟨s, s', hrun, hrepay, hreported, fun hfull => ?_⟩
  have hpayer := congrFun hfull.moved 3
  rw [hafter, hreported] at hpayer
  simp [Payment.apply, hbefore, sample] at hpayer

end Lending
end Composable
