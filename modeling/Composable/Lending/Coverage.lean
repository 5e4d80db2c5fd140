import Composable.Lending.Books

/-!
# `Lending.Coverage` — whether the totals of a market cover the debts in it

The interest of a market is minted on the principals, but a debt is scaled by the borrow index,
which compounds. Two accruals in a row let a debt outgrow the totals, and then the last borrower
cannot repay: burning its interest underflows (`debts_uncovered`). Borrowing again can do the same,
since the two indexes are mixed in whole percent.

`KeepsCover` says when a step does neither. Then all borrowers together owe at most `total_borrows`
and `total_interest`, and what is reported can be repaid without an underflow (`debts_covered`).
-/

namespace Composable
namespace Lending

variable {A X F : Type} [DecidableEq A] [DecidableEq X]
variable {cfg : Config A X F} {s s' : State A X F} {m n now : Nat} {d : X} {a : A} {u : Unit}

/-- Interest is a share of the principals, rounded down, and so it is of every smaller principal. -/
theorem accruedIncrement_ok {rate deltaTime borrows interest : Nat}
    (h : accruedIncrement rate deltaTime borrows = .ok interest) :
    ∃ k, interest = borrows * k / Fixed.div ∧
      ∀ principal, principal ≤ borrows →
        accruedIncrement rate deltaTime principal = .ok (principal * k / Fixed.div) := by
  have hdiv : 0 < Fixed.div := by decide
  have hscale : ∀ n k, Fixed.quotient (n * Fixed.div) k Fixed.div = n * k := fun n k =>
    Fixed.quotient_eq hdiv (Nat.mul_right_comm _ _ _)
  simp only [accruedIncrement, exceptBind_ok] at h
  obtain ⟨overTime, htime, k, hk, total, htotal, increment, hincrement, hinterest⟩ := h
  obtain ⟨hborrows, rfl⟩ := Fixed.fromInteger_elim_ok.mp htotal
  obtain ⟨hproduct, rfl⟩ := Fixed.safeMul_ok.mp hincrement
  rw [hscale] at hproduct hinterest
  refine ⟨k, (Except.ok.inj hinterest).symm, fun principal hle => ?_⟩
  have hprincipal : principal * Fixed.div ≤ u128Max := (Nat.mul_le_mul_right _ hle).trans hborrows
  have hshare : principal * k ≤ u128Max := (Nat.mul_le_mul_right _ hle).trans hproduct
  simp only [accruedIncrement, exceptBind_ok]
  refine ⟨overTime, htime, k, hk, principal * Fixed.div,
    Fixed.fromInteger_elim_ok.mpr ⟨hprincipal, rfl⟩, principal * k, ?_, rfl⟩
  rw [Fixed.safeMul_ok, hscale]
  exact ⟨hshare, rfl⟩

/-! ## The condition -/

/-- No interest on interest: an accrual of market `m` raises no debt by more than the
    interest on its principal. -/
def AccruesSimply (cfg : Config A X F) (s : State A X F) (m now : Nat) : Prop :=
  ∀ d ∈ s.debtMarkets m, ∀ accrued ∈ (accrual cfg m now s).1.toOption, ∀ a ∈ (s.debtIndex m).keys,
    ((s.book cfg m d).accrue accrued.index accrued.interest).unpaid a ≤ (s.book cfg m d).unpaid a +
      (accruedIncrement accrued.rate (now - s.lastBlockTimestamp)
        (s.ledger.reserved d a)).toOption.getD 0

instance (cfg : Config A X F) (s : State A X F) (m now : Nat) :
    Decidable (AccruesSimply cfg s m now) :=
  inferInstanceAs (Decidable (∀ d ∈ s.debtMarkets m, ∀ accrued ∈ (accrual cfg m now s).1.toOption,
    ∀ a ∈ (s.debtIndex m).keys, _ ≤ _))

/-- The index that a borrow gives to its owner adds nothing to what it owes beyond its principal. -/
def BorrowsSimply (cfg : Config A X F) (s : State A X F) (m : Nat) (owner : A) (amount : Nat) :
    Prop :=
  ∀ d ∈ s.debtMarkets m, ∀ marketIndex ∈ s.borrowIndex m,
    ((s.book cfg m d).borrow owner amount (s.nextIndex cfg m owner amount marketIndex)).unpaid owner ≤
      (s.book cfg m d).unpaid owner

instance (cfg : Config A X F) (s : State A X F) (m : Nat) (owner : A) (amount : Nat) :
    Decidable (BorrowsSimply cfg s m owner amount) :=
  inferInstanceAs (Decidable (∀ d ∈ s.debtMarkets m, ∀ marketIndex ∈ s.borrowIndex m, _ ≤ _))

/-- The step lets no debt outgrow the totals of its market. -/
def KeepsCover (cfg : Config A X F) (s : State A X F) : Op A X → Prop
  | .borrow _ (.signed owner) m amount => BorrowsSimply cfg s m owner amount
  | .initializeBlock now => ∀ m ∈ s.markets.keys, AccruesSimply cfg s m now
  | _ => True

instance (cfg : Config A X F) (s : State A X F) : (op : Op A X) → Decidable (KeepsCover cfg s op)
  | .borrow _ (.signed owner) m amount =>
      inferInstanceAs (Decidable (BorrowsSimply cfg s m owner amount))
  | .initializeBlock now =>
      inferInstanceAs (Decidable (∀ m ∈ s.markets.keys, AccruesSimply cfg s m now))
  | .borrow _ .root _ _ | .borrow _ .none _ _ | .createMarket .. | .updateMarket ..
  | .depositCollateral ..
  | .withdrawCollateral .. | .repayBorrow .. | .liquidate .. => .isTrue trivial

/-! ## The cover -/

omit [DecidableEq X] in
/-- A debt is unpaid by its index. -/
theorem unpaid_of_none (h : s.debtIndex.get m a = none) {index n : Nat} :
    ((s.book cfg m d).accrue index n).unpaid a = 0 := by
  show (s.debtIndex.get m a).elim 0 _ - _ = 0
  rw [h]
  exact Nat.zero_sub _

omit [DecidableEq X] in
/-- An accrual keeps the cover, if no debt grows by more than its interest. -/
theorem covered_accrued {accrued : Accrual} (hb : Booked cfg s) (hd : s.debtMarkets m = some d)
    (haccrual : accrual cfg m now s = (.ok accrued, s)) (hsimple : AccruesSimply cfg s m now)
    (h : (s.book cfg m d).Covered) :
    ((s.book cfg m d).accrue accrued.index accrued.interest).Covered := by
  obtain ⟨-, borrows, cash, config, index, hborrows, -, -, -, -, -, -, -, hinterest⟩ :=
    accrual_ok.mp haccrual
  rw [hb.totalBorrows_eq hd, Prod.mk.injEq, Except.ok.injEq] at hborrows
  obtain ⟨hborrows, -⟩ := hborrows
  obtain ⟨k, htotal, hshare⟩ := accruedIncrement_ok hinterest
  have hbalanced := hb.balanced hd
  refine h.accrue (k := k) (d := Fixed.div) hbalanced ?_ fun a => ?_
  · show (∑ᶠ a, s.ledger.reserved d a) * k / Fixed.div ≤ accrued.interest
    rw [htotal, hborrows]
  · cases hj : s.debtIndex.get m a with
    | none =>
        rw [unpaid_of_none hj]
        exact Nat.zero_le _
    | some j =>
        have hmem : a ∈ (s.debtIndex m).keys :=
          AList.lookup_isSome.mp (Option.isSome_iff_exists.mpr ⟨j, hj⟩)
        have hprincipal : s.ledger.reserved d a ≤ borrows := by
          have hone := sum_le_finsum hbalanced.finite {a}
          rw [Finset.sum_singleton] at hone
          exact hone.trans_eq hborrows
        have hgrowth := hsimple d hd accrued (by rw [haccrual]; rfl) a hmem
        rw [hshare _ hprincipal] at hgrowth
        exact hgrowth

/-- The storage is in order, and what all borrowers of a market owe together is covered by its
    totals. -/
structure Covers (cfg : Config A X F) (s : State A X F) : Prop where
  booked : Booked cfg s
  ordered : Ordered s
  covered : ∀ {m d}, s.debtMarkets m = some d → (s.book cfg m d).Covered

namespace Covers

/-- **Every step by a user that adds no interest on interest keeps the debts covered.** -/
theorem step {op : Op A X} (h : Covers cfg s) (huser : op.ByUser cfg) (hkeeps : KeepsCover cfg s op)
    (hstep : Lending.step cfg s op = some s') : Covers cfg s' := by
  obtain ⟨hb, hordered, hcovered⟩ := h
  obtain ⟨hr, hs, hissued, -⟩ := id hb
  refine ⟨hb.step huser hstep, (hordered.step hstep).1, fun {m d} hd => ?_⟩
  rcases (step_debtMarkets hr hs hissued huser hstep).2 hd with hold | ⟨-, hempty⟩
  · have hstored := hissued.stored hold
    have hbook := hcovered hold
    have hrepay : ∀ {payer beneficiary : A} {amount owed : Nat} {config vault},
        Repaid cfg s m payer beneficiary amount config vault owed →
        ((s.book cfg m d).repay beneficiary amount).Covered := by
      intro payer beneficiary amount owed config vault hrepaid
      refine hbook.repay (fun j hj => ?_) ?_
      · obtain ⟨i, hi, hle⟩ := hordered.below hj
        show j ≤ (s.borrowIndex m).getD 0
        rwa [hi]
      · exact hrepaid.le_owed.trans_eq (owed_book hordered hold hrepaid.owed_eq)
    have heffect := step_book hr hs huser hstored hstep hold
    generalize s'.book cfg m d = book' at heffect
    cases heffect with
    | same _ _ => exact hbook
    | borrowed hindex => exact hbook.borrow (hkeeps d hold _ hindex)
    | repaid hrepaid _ => exact hrepay hrepaid
    | closed hrepaid _ => exact (hrepay hrepaid).close
    | accrued haccrual _ =>
        have hmem : m ∈ s.markets.keys := AList.lookup_isSome.mp hstored
        exact covered_accrued hb hold haccrual (hkeeps m hmem) hbook
  · exact hempty.covered

omit [DecidableEq X] in
theorem genesis {ledger : Ledger A X} {factory : F} (h : Unissued cfg ledger factory)
    (hissuance : ∀ x, ¬ cfg.vault.currencyFactory.inUse factory x → ledger.issuance x = 0)
    (now : Nat) : Covers cfg (State.genesis ledger factory now) :=
  ⟨.genesis h hissuance now, .genesis ledger factory now, nofun⟩

theorem run {ops : List (Op A X)} (h : Covers cfg s) (huser : ∀ op ∈ ops, op.ByUser cfg)
    (hkeeps : Along (Lending.step cfg) (KeepsCover cfg) s ops)
    (hrun : Composable.run (Lending.step cfg) s ops = some s') : Covers cfg s' :=
  run_invariant (I := Covers cfg) (fun h hop hstep => h.step hop.1 hop.2 hstep) h
    (hkeeps.and_forall huser) hrun

end Covers

/-! ## What is reported -/

/-- What is reported of a debt; nothing if there is none, or if it cannot be computed. -/
def State.reported (s : State A X F) (m : Nat) (a : A) : Nat :=
  (borrowBalanceCurrent m a s).1.toOption.join.getD 0

omit [DecidableEq X] in
theorem reported_le (h : Ordered s) (hd : s.debtMarkets m = some d) :
    s.reported m a ≤ (s.book cfg m d).owed a := by
  unfold State.reported
  cases hreport : (borrowBalanceCurrent m a s).1.toOption with
  | none => exact Nat.zero_le _
  | some owed? =>
      cases owed? with
      | none => exact Nat.zero_le _
      | some owed => exact (owed_book h hd (borrowBalanceCurrent_reads.ok_of_toOption hreport)).le

section Underflow

omit [DecidableEq A] [DecidableEq X] in
/-- Ledgers do not underflow. -/
theorem onLedger_avoids {α : Type} {x : Call (Ledger A X) TokenError α} :
    (onLedger .token x : LendingCall A X F α).Avoids (.arithmetic .underflow) s := .zoom nofun

omit [DecidableEq A] [DecidableEq X] in
theorem getMarket_avoids : (getMarket m : LendingCall A X F _).Avoids (.arithmetic .underflow) s :=
  .get_bind (.ofOption nofun)

omit [DecidableEq A] [DecidableEq X] in
theorem assetId_avoids : (assetId m : LendingCall A X F X).Avoids (.arithmetic .underflow) s := by
  refine .bind (.zoom fun e h => ?_) fun _ _ _ => .pure _
  have hvault :
      (Vault.vaultInfo m : Vault.VaultCall A X F _).Avoids (.arithmetic .underflow) s.vault :=
    .get_bind (.ofOption nofun)
  intro heq
  cases e with
  | arithmetic e =>
      obtain rfl := DispatchError.arithmetic.inj heq
      exact hvault h
  | _ => cases heq

omit [DecidableEq A] [DecidableEq X] in
theorem borrowFromPrincipal_error {principal marketIndex accountIndex : Nat} {e : ArithmeticError}
    (h : borrowFromPrincipal principal marketIndex accountIndex = .error e) : e = .overflow := by
  unfold borrowFromPrincipal at h
  split at h
  next => cases h
  next =>
    have hmapped : ∀ {α : Type} {r : Except ArithmeticError α},
        (r.mapError fun _ => ArithmeticError.overflow) = .error e → e = .overflow := by
      intro α r hr
      cases r with
      | error _ => exact (Except.error.inj hr).symm
      | ok _ => cases hr
    rcases exceptBind_error.mp h with hstart | ⟨_, -, h⟩
    · exact hmapped hstart
    rcases exceptBind_error.mp h with hbalance | ⟨balance, -, h⟩
    · exact hmapped hbalance
    rcases exceptBind_error.mp h with hamount | ⟨_, -, h⟩
    · cases hfits : Fixed.mulInt balance 1 u64Max with
      | none =>
          rw [hfits] at hamount
          exact (Except.error.inj hamount).symm
      | some _ =>
          rw [hfits] at hamount
          cases hamount
    · cases h

omit [DecidableEq X] in
theorem borrowBalanceCurrent_avoids : (borrowBalanceCurrent m a : LendingCall A X F _).Avoids
    (.arithmetic .underflow) s := by
  refine .get_bind (.bind (.ofOption nofun) fun d _ _ => ?_)
  cases s.debtIndex.get m a with
  | none => exact .pure _
  | some j =>
      refine .bind (.get_bind (.ofOption nofun)) fun i _ _ => .ofExcept fun h => ?_
      cases hfound : borrowFromPrincipal (s.ledger.reserved d a) i j with
      | ok owed =>
          rw [hfound] at h
          cases h
      | error e =>
          rw [hfound, borrowFromPrincipal_error hfound] at h
          cases h

/-- The only underflow of a repayment is in the interest of the market. -/
theorem repay_avoids {payer beneficiary : A} {amount : Nat}
    (hinterest : ∀ owed, borrowBalanceCurrent m beneficiary s = (.ok (some owed), s) →
      amount ≤ owed → 0 < amount → amount - s.ledger.balance (s.debtAsset cfg m) beneficiary ≤
        s.ledger.balance (s.debtAsset cfg m) (cfg.accountId m)) :
    (repayBorrowInternal cfg m payer beneficiary (some amount)).Avoids
      (.arithmetic .underflow) s := by
  refine .bind getMarket_avoids fun config t hconfig => ?_
  obtain rfl := getMarket_reads.ok hconfig
  refine .bind borrowBalanceCurrent_avoids fun owed? t howed => ?_
  obtain rfl := borrowBalanceCurrent_reads.ok howed
  cases owed? with
  | none => exact .pure ()
  | some owed =>
      refine .bind assetId_avoids fun borrowAsset t hasset => ?_
      obtain rfl := assetId_reads.ok hasset
      refine .bind (.get_bind (.bind (.ofOption nofun) fun _ _ _ => .bind (.ensure nofun) fun _ _ _ =>
        .bind (.ensure nofun) fun _ _ _ => .bind (.ensure nofun) fun _ _ _ =>
            .bind (.ensure nofun) fun _ _ _ =>
          .ensure nofun)) fun _ t hcan => .get_bind ?_
      obtain ⟨rfl, -, hpos, hle⟩ := canRepayBorrow_ok hcan
      refine .bind (.get_bind ?_) fun r _ _ => .bind onLedger_avoids fun _ _ _ =>
          .bind onLedger_avoids fun _ _ _ =>
        .bind onLedger_avoids fun _ _ _ => .when (.bind (.modify _) fun _ t _ => .get_bind ?_)
      · split
        next => exact .pure _
        next =>
          refine .bind (.ofExcept ?_) fun _ _ _ => .bind onLedger_avoids fun _ _ _ => .pure _
          have hfits := hinterest owed howed hle hpos
          simp [Fixed.checkedSub, hfits, Except.mapError]
      · cases t.borrowRent.get m beneficiary with
        | none => exact .pure ()
        | some rent => exact onLedger_avoids

end Underflow

/-- Where debts are covered, nobody's repayment underflows. -/
theorem Covers.repay_avoids {origin : RawOrigin A} {config : MarketConfig A X} {amount : Nat}
    (h : Covers cfg s) (hmarket : s.markets.lookup m = some config) :
    (repayBorrow cfg origin m a amount).Avoids (.arithmetic .underflow) s := by
  obtain ⟨d, hd⟩ := (h.booked.registered.listed hmarket).debt
  have hsigned : (ensureSigned origin : LendingCall A X F A).Avoids (.arithmetic .underflow) s := by
    cases origin with
    | signed who => exact .pure who
    | _ => exact .fail nofun
  refine .transactional (.bind hsigned fun who t hwho => ?_)
  obtain ⟨-, rfl⟩ := ensureSigned_ok.mp hwho
  refine Lending.repay_avoids fun owed howed hle hpos => ?_
  have hbook : owed = (t.book cfg m d).owed a := owed_book h.ordered hd howed
  -- Markets have no debts of their own.
  have hindex : (t.debtIndex.get m a).isSome = true := by
    by_contra hnone
    rw [Option.not_isSome_iff_eq_none] at hnone
    rw [show (t.book cfg m d).owed a = 0 by simp [DebtBook.owed, State.book, hnone]] at hbook
    omega
  have huser : ∀ k, a ≠ cfg.accountId k := h.booked.registered.user_of_index hindex
  rw [State.debtAsset_eq hd, h.booked.separated.balance_debt hd huser]
  calc amount - t.ledger.reserved d a
      ≤ (t.book cfg m d).owed a - t.ledger.reserved d a := Nat.sub_le_sub_right (hle.trans_eq hbook) _
    _ ≤ t.ledger.balance d (cfg.accountId m) := (h.covered hd).unpaid_le a

/-- **Debts and totals agree** in every state reached by users whose steps add no
    interest on interest: all together owe at most `total_borrows` and `total_interest`,
    and no repayment underflows. -/
theorem debts_covered (cfg : Config A X F) {ledger : Ledger A X} {factory : F}
    (hgenesis : Unissued cfg ledger factory)
    (hissuance : ∀ x, ¬ cfg.vault.currencyFactory.inUse factory x → ledger.issuance x = 0) (now : Nat)
    {ops : List (Op A X)} (huser : ∀ op ∈ ops, op.ByUser cfg)
    (hkeeps : Along (step cfg) (KeepsCover cfg) (State.genesis ledger factory now) ops)
    (hrun : run (step cfg) (State.genesis ledger factory now) ops = some s) {m : Nat}
    {config : MarketConfig A X} (hmarket : s.markets.lookup m = some config) :
    ∃ borrows interest, totalBorrows cfg m s = (.ok borrows, s) ∧
      totalInterest cfg m s = (.ok interest, s) ∧
      (∀ accounts : Finset A, ∑ a ∈ accounts, s.reported m a ≤ borrows + interest) ∧
      ∀ origin a amount, (repayBorrow cfg origin m a amount s).1 ≠
        .error (.arithmetic .underflow) := by
  have hstart : Covers cfg (State.genesis ledger factory now) := .genesis hgenesis hissuance now
  have h : Covers cfg s := hstart.run huser hkeeps hrun
  obtain ⟨d, hd⟩ := (h.booked.registered.listed hmarket).debt
  have hbalanced := h.booked.balanced hd
  refine ⟨∑ᶠ a, s.ledger.reserved d a, s.ledger.balance d (cfg.accountId m),
    h.booked.totalBorrows_eq hd, ?_,
    fun accounts => ?_, fun origin a amount => h.repay_avoids hmarket⟩
  · rw [totalInterest, Call.get_bind, State.debtAsset_eq hd]
    rfl
  -- What is reported is cut to units, and the debts of the book together are covered by what was
  -- issued.
  · calc ∑ a ∈ accounts, s.reported m a
        ≤ ∑ a ∈ accounts, (s.book cfg m d).owed a :=
          Finset.sum_le_sum fun a _ => reported_le h.ordered hd
      _ ≤ (s.book cfg m d).issued := (h.covered hd).sum_owed_le hbalanced accounts
      _ = ∑ᶠ a, s.ledger.reserved d a + s.ledger.balance d (cfg.accountId m) := by
          rw [hbalanced.issued, Nat.add_comm]
          rfl

theorem debts_covered_sample : ∃ s,
    run (step sample) (State.genesis sampleLedger 100 0) settledOps = some s ∧
      totalBorrows sample 1 s = (.ok 50, s) ∧ totalInterest sample 1 s = (.ok 10, s) ∧
      (∀ accounts : Finset Nat, ∑ a ∈ accounts, s.reported 1 a ≤ 60) ∧
      ∀ origin a amount, (repayBorrow sample origin 1 a amount s).1 ≠
        .error (.arithmetic .underflow) := by
  have hkeeps :
      Along (step sample) (KeepsCover sample) (State.genesis sampleLedger 100 0) settledOps := by
    decide +kernel
  have hview : (run (step sample) (State.genesis sampleLedger 100 0) settledOps).map
      (fun s => ((s.markets.lookup 1).isSome, (totalBorrows sample 1 s).1.toOption,
        (totalInterest sample 1 s).1.toOption)) = some (true, some 50, some 10) := by decide +kernel
  obtain ⟨s, hrun, hs⟩ := Option.map_eq_some_iff.mp hview
  simp only [Prod.mk.injEq] at hs
  obtain ⟨hstored, hborrows, hinterest⟩ := hs
  obtain ⟨config, hmarket⟩ := Option.isSome_iff_exists.mp hstored
  obtain ⟨borrows, interest, hborrows', hinterest', hcovered, hrepay⟩ :=
    debts_covered sample sampleLedger_unissued
    sampleLedger_issuance 0 settledOps_byUser hkeeps hrun hmarket
  rw [hborrows'] at hborrows
  rw [hinterest'] at hinterest
  obtain rfl : borrows = 50 := Option.some.inj hborrows
  obtain rfl : interest = 10 := Option.some.inj hinterest
  exact ⟨s, hrun, hborrows', hinterest', hcovered, hrepay⟩

/-! ## Interest on interest -/

/-- Account `1` is the only borrower, and interest accrues twice. -/
def compoundOps : List (Op Nat Nat) :=
  [.createMarket ⟨0, sampleOracle fun _ => 1⟩ (.signed 7) ⟨sampleInput, sampleInput_valid⟩,
    .depositCollateral (.signed 1) 1 900, .initializeBlock 1,
    .borrow ⟨1, sampleOracle fun _ => 1⟩ (.signed 1) 1 100,
      .initializeBlock (1 + 10 * secondsPerYearNaive),
    .initializeBlock (1 + 20 * secondsPerYearNaive)]

/-- **A debt outgrows its market.** The only borrower owes `399` where the totals are
    `300`, far more than a unit for each of the two accruals, and a repayment of what
    is reported underflows. -/
theorem debts_uncovered : ∃ s,
    run (step sample) (State.genesis sampleLedger 100 0) compoundOps = some s ∧
      totalBorrows sample 1 s = (.ok 100, s) ∧ totalInterest sample 1 s = (.ok 200, s) ∧
      borrowBalanceCurrent 1 1 s = (.ok (some 399), s) ∧ 100 + 200 + 1 * 2 < 399 ∧
      399 ≤ s.ledger.free 2 3 ∧
      (repayBorrow sample (.signed 3) 1 1 399 s).1 = .error (.arithmetic .underflow) := by
  have hview : (run (step sample) (State.genesis sampleLedger 100 0) compoundOps).map
      (fun s => (((totalBorrows sample 1 s).1.toOption, (totalInterest sample 1 s).1.toOption),
        (borrowBalanceCurrent 1 1 s).1.toOption, decide (399 ≤ s.ledger.free 2 3),
        match (repayBorrow sample (.signed 3) 1 1 399 s).1 with
        | .error e => some e
        | .ok _ => none)) =
      some ((some 100, some 200), some (some 399), true, some (.arithmetic .underflow)) := by
        decide +kernel
  obtain ⟨s, hrun, hs⟩ := Option.map_eq_some_iff.mp hview
  simp only [Prod.mk.injEq] at hs
  obtain ⟨⟨hborrows, hinterest⟩, howed, hfunds, hrepay⟩ := hs
  have hborrows' : totalBorrows sample 1 s = (.ok 100, s) :=
    totalBorrows_reads.ok_of_toOption hborrows
  have hinterest' : totalInterest sample 1 s = (.ok 200, s) := by
    have hget : totalInterest sample 1 s =
      (.ok (s.ledger.balance (s.debtAsset sample 1) (sample.accountId 1)), s) := rfl
    rw [hget] at hinterest ⊢
    rw [Option.some.inj hinterest]
  refine ⟨s, hrun, hborrows', hinterest', borrowBalanceCurrent_reads.ok_of_toOption howed, by decide,
    of_decide_eq_true hfunds, ?_⟩
  cases hresult : (repayBorrow sample (.signed 3) 1 1 399 s).1 with
  | error e =>
      rw [hresult] at hrepay
      rw [Option.some.inj hrepay]
  | ok _ =>
      rw [hresult] at hrepay
      cases hrepay

end Lending
end Composable
