import Composable.Lending.Assets
import Composable.Lending.Indexes

/-!
# `Lending.Debts` — who owes what is recorded

The principal of a borrower is what it has on hold of the market's debt token. An account with a
principal but without a positive index would owe nothing. The code drops the index when a repayment
leaves no interest on the market's account, which is the interest of all borrowers
(`debt_forgotten`); runs in which no partial repayment meets a market without interest keep every
debt recorded (`debts_stay_recorded`).
-/

namespace Composable
namespace Lending

variable {A X F : Type} [DecidableEq A] [DecidableEq X]
variable {cfg : Config A X F} {s s' : State A X F} {m : Nat}

/-! ## Records -/

/-- Whoever has a principal on hold has a positive index, and no index is above that of its
    market. -/
structure Recorded (s : State A X F) : Prop where
  index : ∀ {m d}, s.debtMarkets m = some d → ∃ i, s.borrowIndex m = some i ∧ Fixed.div ≤ i ∧
    ∀ a j, s.debtIndex.get m a = some j → j ≤ i
  recorded : ∀ {m d a}, s.debtMarkets m = some d → 0 < s.ledger.reserved d a →
    ∃ j, s.debtIndex.get m a = some j ∧ 0 < j

structure Sound (cfg : Config A X F) (s : State A X F) : Prop where
  separated : Separated cfg s
  recorded : Recorded s

/-- What each step has to meet, in the state before it: a repayment of a part of the principal is
    made while there is interest on the market, and nobody at the smallest positive index borrows
    less than a hundredth of its debt. -/
def Tidy (cfg : Config A X F) (s : State A X F) : Op A X → Prop
  | .repayBorrow _ market beneficiary amount =>
      0 < amount ∧ amount < s.ledger.balance (s.debtAsset cfg market) beneficiary →
        0 < s.ledger.balance (s.debtAsset cfg market) (cfg.accountId market)
  | .borrow _ (.signed owner) market amount =>
      ¬ (s.debtIndex.get market owner = some 1 ∧ 0 < amount ∧
        100 * amount < s.ledger.balance (s.debtAsset cfg market) owner + amount)
  | _ => True

instance (cfg : Config A X F) (s : State A X F) : (op : Op A X) → Decidable (Tidy cfg s op)
  | .repayBorrow _ _ _ _ => inferInstanceAs (Decidable (_ ∧ _ → _))
  | .borrow _ (.signed _) _ _ => inferInstanceAs (Decidable (¬ _))
  | .borrow _ .root _ _ | .borrow _ .none _ _ | .createMarket .. | .updateMarket ..
  | .depositCollateral ..
  | .withdrawCollateral .. | .liquidate .. | .initializeBlock .. => inferInstanceAs (Decidable True)

omit [DecidableEq X] in
theorem Recorded.of_quiet (h : Recorded s) (hquiet : Quiet cfg s s') : Recorded s' where
  index := by
    rw [hquiet.debtMarkets, hquiet.debtIndex, hquiet.borrowIndex]
    exact h.index
  recorded := by
    intro n d a hd hpos
    rw [hquiet.debtMarkets] at hd
    rw [(hquiet.agree d (not_live_of_debt hd)).2] at hpos
    rw [hquiet.debtIndex]
    exact h.recorded hd hpos

/-! ## Borrowing and repaying -/

omit [DecidableEq X] in
/-- A borrow stores an index that is positive with the debt, and not above that of the market. -/
theorem Sound.nextIndex_bounds {d : X} {owner : A} {amount marketIndex : Nat} (h : Sound cfg s)
    (hd : s.debtMarkets m = some d) (howner : ∀ n, owner ≠ cfg.accountId n)
    (htidy : ¬ (s.debtIndex.get m owner = some 1 ∧ 0 < amount ∧
      100 * amount < s.ledger.balance (s.debtAsset cfg m) owner + amount))
    (hindex : s.borrowIndex m = some marketIndex) :
    s.nextIndex cfg m owner amount marketIndex ≤ marketIndex ∧
      (0 < s.ledger.reserved d owner + amount → 0 < s.nextIndex cfg m owner amount marketIndex) := by
  obtain ⟨i, hi, hdiv, hbelow⟩ := h.recorded.index hd
  obtain rfl := Option.some.inj (hindex.symm.trans hi)
  rw [State.debtAsset_eq hd, h.separated.balance_debt hd howner] at htidy
  rw [State.nextIndex, State.debtAsset_eq hd, h.separated.balance_debt hd howner]
  constructor
  · apply updatedIndex_le
    cases hget : s.debtIndex.get m owner with
    | none => exact Nat.zero_le _
    | some j => exact hbelow owner j hget
  · intro hpos
    apply updatedIndex_pos hdiv hpos
    · intro hexisting
      obtain ⟨j, hj, hjpos⟩ := h.recorded.recorded hd hexisting
      rwa [hj, Option.getD_some]
    · rintro ⟨hone, hrest⟩
      cases hget : s.debtIndex.get m owner with
      | none =>
          rw [hget] at hone
          cases hone
      | some j =>
          rw [hget, Option.getD_some] at hone
          exact htidy ⟨by rw [hget, hone], hrest⟩

/-- A borrow records the principal it adds. -/
theorem Sound.borrowed {config : MarketConfig A X} {vault : Vault.VaultInfo A X} {d : X}
    {env : Env X} {owner : A}
    {amount marketIndex : Nat} (h : Sound cfg s) (hd : s.debtMarkets m = some d)
    (howner : ∀ n, owner ≠ cfg.accountId n)
    (htidy : Tidy cfg s (.borrow env (.signed owner) m amount))
    (hb : Borrowed cfg s m owner amount config vault marketIndex) :
    Recorded (s.borrowed cfg vault.assetId m owner amount
      (s.nextIndex cfg m owner amount marketIndex)) := by
  obtain ⟨hle, hpos⟩ := h.nextIndex_bounds hd howner htidy hb.index_eq
  generalize s.nextIndex cfg m owner amount marketIndex = index at hle hpos
  have hget : ∀ n a, (s.borrowed cfg vault.assetId m owner amount index).debtIndex.get n a =
      if n = m ∧ a = owner then some index else s.debtIndex.get n a :=
        fun n a => StorageDoubleMap.get_put
  refine ⟨fun {n e} he => ?_, fun {n e a} he hpositive => ?_⟩
  · obtain ⟨i, hi, hdiv, hbelow⟩ := h.recorded.index he
    refine ⟨i, hi, hdiv, fun a j hj => ?_⟩
    rw [hget] at hj
    split at hj
    next hself =>
      obtain rfl := Option.some.inj hj
      obtain rfl := Option.some.inj (hb.index_eq.symm.trans (hself.1 ▸ hi))
      exact hle
    next => exact hbelow a j hj
  · rw [hget]
    rw [State.borrowed, State.ledger_withLedger, reserved_borrowedLedger,
      State.debtAsset_eq hd] at hpositive
    by_cases hself : n = m ∧ a = owner
    · obtain ⟨rfl, rfl⟩ := hself
      obtain rfl := Option.some.inj (hd.symm.trans he)
      rw [if_pos ⟨rfl, rfl⟩] at hpositive ⊢
      exact ⟨index, rfl, hpos hpositive⟩
    · rw [if_neg hself]
      have hother : ¬ (e = d ∧ a = owner) := fun heq =>
        hself ⟨h.separated.distinct (heq.1 ▸ he) hd, heq.2⟩
      rw [if_neg hother] at hpositive
      exact h.recorded.recorded he hpositive

omit [DecidableEq X] in
/-- The records of a borrow may go when nothing is on hold. -/
theorem Recorded.closed {d : X} {a : A} (h : Recorded s) (hd : s.debtMarkets m = some d)
    (hzero : s.ledger.reserved d a = 0) : Recorded (s.closed m a) := by
  have hget : ∀ n c, (s.closed m a).debtIndex.get n c =
      if n = m ∧ c = a then none else s.debtIndex.get n c := fun n c => StorageDoubleMap.get_remove
  refine ⟨fun {n e} he => ?_, fun {n e c} he hpositive => ?_⟩
  · obtain ⟨i, hi, hdiv, hbelow⟩ := h.index he
    refine ⟨i, hi, hdiv, fun c j hj => ?_⟩
    rw [hget] at hj
    split at hj
    next => cases hj
    next => exact hbelow c j hj
  · rw [hget]
    split
    next hself =>
      -- Nothing is on hold there.
      obtain ⟨rfl, rfl⟩ := hself
      obtain rfl := Option.some.inj (hd.symm.trans he)
      exact absurd hzero hpositive.ne'
    next => exact h.recorded he hpositive

/-- A repayment, up to closing the borrow. -/
theorem Recorded.repaid {asset : X} {payer beneficiary : A} {amount : Nat} (h : Recorded s) :
    Recorded (s.repaid cfg asset m payer beneficiary amount) := by
  refine ⟨h.index, fun {n e a} he hpositive => ?_⟩
  have hle :
      (s.repaid cfg asset m payer beneficiary amount).ledger.reserved e a ≤ s.ledger.reserved e a :=
    Nat.sub_le _ _
  exact h.recorded he (hpositive.trans_le hle)

/-- When a tidy repayment leaves no interest, the principal was repaid completely. -/
theorem reserved_repaid_eq_zero {config : MarketConfig A X} {vault : Vault.VaultInfo A X} {d : X}
    {payer beneficiary : A} {amount owed : Nat} (hd : s.debtMarkets m = some d)
    (hr : Repaid cfg s m payer beneficiary amount config vault owed)
    (htidy : Tidy cfg s (.repayBorrow (.signed payer) m beneficiary amount))
    (hleft : s.interestLeft cfg m beneficiary amount = 0) :
    (s.repaid cfg vault.assetId m payer beneficiary amount).ledger.reserved d beneficiary = 0 := by
  have hfull : s.ledger.balance (s.debtAsset cfg m) beneficiary ≤ amount := by
    by_contra hpart
    have hpart' := Nat.lt_of_not_le hpart
    have hinterest := htidy ⟨hr.pos, hpart'⟩
    rw [State.interestLeft, Nat.sub_eq_zero_of_le hpart'.le, Nat.sub_zero] at hleft
    exact hinterest.ne' hleft
  rw [State.repaid, State.ledger_withLedger, reserved_repaidLedger, State.debtAsset_eq hd,
    if_pos ⟨rfl, rfl⟩]
  rw [State.debtAsset_eq hd] at hfull
  rw [Nat.min_eq_right hfull]
  exact Nat.sub_eq_zero_of_le (Nat.le_add_left _ _)

/-! ## Blocks and markets -/

/-- The index of a market grows above those of its accounts. -/
theorem Recorded.accrued {index index' amount : Nat} (h : Recorded s)
    (hindex : s.borrowIndex m = some index)
    (hle : index ≤ index') : Recorded (s.accrued cfg m index' amount) := by
  refine ⟨fun {n e} he => ?_, h.recorded⟩
  obtain ⟨i, hi, hdiv, hbelow⟩ := h.index he
  by_cases hn : n = m
  · subst hn
    obtain rfl := Option.some.inj (hindex.symm.trans hi)
    exact ⟨index', Function.update_self .., hdiv.trans hle, fun a j hj => (hbelow a j hj).trans hle⟩
  · exact ⟨i, (Function.update_of_ne hn ..).trans hi, hdiv, hbelow⟩

theorem Recorded.after_initializeBlock {now : Nat} {u : Unit} (h : Recorded s)
    (hblock : initializeBlock cfg now s = (.ok u, s')) : Recorded s' := by
  refine initializeBlock_invariant (I := Recorded) (fun {s s' m u} hs hm => ?_)
    (fun hs => ⟨hs.index, hs.recorded⟩)
    h hblock
  obtain ⟨config, index, index', amount, v, -, hindex, hle, hfunds, rfl⟩ := initializeMarket_ok hm
  have haccrued : Recorded (s.accrued cfg m index' amount) := hs.accrued hindex hle
  refine ⟨haccrued.index, fun {n d a} hd hpos => ?_⟩
  have hpos' : 0 < v.ledger.reserved d a := hpos
  rw [hfunds.reserved] at hpos'
  exact haccrued.recorded hd hpos'

/-- Nobody has any of the new debt token. -/
theorem Sound.created {manager : A} {input : CreateInput X} {lpToken debtAsset : X}
    {factory factory' : F} {poolSize : Nat} (hr : Registered cfg s) (h : Sound cfg s)
    (hc : Created cfg s manager input lpToken debtAsset factory factory' poolSize) :
    Recorded (s.created cfg manager input lpToken debtAsset factory factory' poolSize) := by
  refine ⟨fun {n d} hd => ?_, fun {n d a} hd hpos => ?_⟩
  · rcases debt_created.mp hd with ⟨rfl, -⟩ | ⟨hn, hold⟩
    · refine ⟨Fixed.div, Function.update_self .., Nat.le_refl _, fun a j hj => ?_⟩
      have hnone : (s.debtIndex (s.lendingCount + 1)).lookup a = some j := hj
      rw [(hr.blank (Nat.lt_succ_self _)).debtIndex, AList.lookup_empty] at hnone
      cases hnone
    · obtain ⟨i, hi, hdiv, hbelow⟩ := h.recorded.index hold
      exact ⟨i, (Function.update_of_ne hn ..).trans hi, hdiv, hbelow⟩
  · have hpos' : 0 < s.ledger.reserved d a := hpos
    rcases debt_created.mp hd with ⟨-, rfl⟩ | ⟨-, hold⟩
    · rw [h.separated.unheld hc.fresh] at hpos'
      exact absurd hpos' (Nat.lt_irrefl 0)
    · exact h.recorded.recorded hold hpos'

/-! ## Runs -/

/-- **Every tidy step by a user keeps the debts recorded.** -/
theorem Sound.step {op : Op A X} (hr : Registered cfg s) (h : Sound cfg s) (huser : op.ByUser cfg)
    (htidy : Tidy cfg s op) (hstep : step cfg s op = some s') : Sound cfg s' := by
  obtain ⟨hseparated, heffect⟩ := step_debts hr h.separated huser hstep
  refine ⟨hseparated, ?_⟩
  cases heffect with
  | quiet hquiet => exact h.recorded.of_quiet hquiet
  | created hc => exact h.created hr hc
  | updated _ => exact ⟨h.recorded.index, h.recorded.recorded⟩
  | @borrowed _ owner _ _ _ _ _ _ hb hquiet =>
      obtain ⟨d, hd⟩ := (hr.listed hb.market_eq).debt
      exact (h.borrowed hd (huser owner rfl) htidy hb).of_quiet hquiet
  | repaid _ _ => exact h.recorded.repaid
  | closed hrepaid hleft hquiet =>
      obtain ⟨d, hd⟩ := (hr.listed hrepaid.market_eq).debt
      have hzero := reserved_repaid_eq_zero hd hrepaid htidy hleft
      exact (h.recorded.repaid.closed hd hzero).of_quiet hquiet
  | initialized hblock => exact h.recorded.after_initializeBlock hblock

omit [DecidableEq X] in
theorem Sound.genesis {ledger : Ledger A X} {factory : F} (h : Unissued cfg ledger factory)
    (now : Nat) : Sound cfg (State.genesis ledger factory now) :=
  ⟨.genesis h now, nofun, nofun⟩

/-- The debt of `a` on market `m` is recorded: a positive index and the time of the borrow, from
    which `borrow_balance_current` finds at least the principal, unless what is owed overflows. -/
def Owes (s : State A X F) (m : Nat) (a : A) (principal : Nat) : Prop :=
  ∃ marketIndex accountIndex, s.borrowIndex m = some marketIndex ∧
    s.debtIndex.get m a = some accountIndex ∧ 0 < accountIndex ∧
    (s.borrowTimestamp.get m a).isSome = true ∧
    principal ≤ debtOf principal marketIndex accountIndex ∧
    borrowBalanceCurrent m a s =
      (if principal * marketIndex ≤ u128Max ∧ debtOf principal marketIndex accountIndex ≤ u64Max then
        .ok (some (debtOf principal marketIndex accountIndex))
      else .error (.arithmetic .overflow), s)

omit [DecidableEq X] in
theorem Sound.owes (hr : Registered cfg s) (h : Sound cfg s) {d : X} {a : A}
    (hd : s.debtMarkets m = some d) (hprincipal : 0 < s.ledger.reserved d a) :
    Owes s m a (s.ledger.reserved d a) := by
  obtain ⟨marketIndex, hmarket, hdiv, hbelow⟩ := h.recorded.index hd
  obtain ⟨accountIndex, haccount, hpos⟩ := h.recorded.recorded hd hprincipal
  have hle : accountIndex ≤ marketIndex := hbelow a accountIndex haccount
  refine ⟨marketIndex, accountIndex, hmarket, haccount, hpos, ?_, ?_, ?_⟩
  · rw [← hr.dated, haccount, Option.isSome_some]
  · exact principal_le_debtOf hpos hle
  · rw [borrowBalanceCurrent_eq hd hmarket haccount, borrowFromPrincipal_eq hprincipal hdiv hpos hle]
    split
    · rfl
    · rfl

/-- Every tidy run keeps the register and the records. -/
theorem Sound.run {ledger : Ledger A X} {factory : F} (hgenesis : Unissued cfg ledger factory)
    {now : Nat} {ops : List (Op A X)} (huser : ∀ op ∈ ops, op.ByUser cfg)
    (htidy : Along (Lending.step cfg) (Tidy cfg) (State.genesis ledger factory now) ops)
    (hrun : Composable.run (Lending.step cfg) (State.genesis ledger factory now) ops = some s) :
    Registered cfg s ∧ Sound cfg s := by
  refine run_invariant (I := fun s => Registered cfg s ∧ Sound cfg s) ?_
    ⟨.genesis ledger factory now, .genesis hgenesis now⟩ (htidy.and_forall huser) hrun
  rintro s op s' ⟨hr, h⟩ ⟨hby, ht⟩ hstep
  exact ⟨hr.step hby hstep, h.step hr hby ht hstep⟩

/-- **Debts stay recorded.** In every state reached by tidy steps, every account with a principal on
    hold is known to owe at least that; and a tidy repayment from there that leaves its beneficiary
    without an index or without a time leaves it without a principal. -/
theorem debts_stay_recorded (cfg : Config A X F) {ledger : Ledger A X} {factory : F}
    (hgenesis : Unissued cfg ledger factory) (now : Nat) {ops : List (Op A X)}
    (huser : ∀ op ∈ ops, op.ByUser cfg)
    (htidy : Along (step cfg) (Tidy cfg) (State.genesis ledger factory now) ops)
    (hrun : run (step cfg) (State.genesis ledger factory now) ops = some s) :
    (∀ m d a, s.debtMarkets m = some d → 0 < s.ledger.reserved d a →
      Owes s m a (s.ledger.reserved d a)) ∧
    (∀ origin m d beneficiary amount s',
      (Op.repayBorrow origin m beneficiary amount : Op A X).ByUser cfg →
      Tidy cfg s (.repayBorrow origin m beneficiary amount) →
      step cfg s (.repayBorrow origin m beneficiary amount) = some s' → s'.debtMarkets m = some d →
      (s'.debtIndex.get m beneficiary = none ∨ s'.borrowTimestamp.get m beneficiary = none) →
      s'.ledger.reserved d beneficiary = 0) := by
  obtain ⟨hr, h⟩ := Sound.run hgenesis huser htidy hrun
  refine ⟨fun m d a => h.owes hr, fun origin m d beneficiary amount s' hby ht hstep hd hgone => ?_⟩
  -- A principal that is still on hold would be owed, and so have both records.
  by_contra hne
  have howes := (h.step hr hby ht hstep).owes (hr.step hby hstep) hd (Nat.pos_of_ne_zero hne)
  obtain ⟨_, _, -, hindex, -, htime, -⟩ := howes
  rcases hgone with hgone | hgone
  · rw [hgone] at hindex
    cases hindex
  · rw [hgone] at htime
    cases htime

/-- Account `1` borrows against its collateral and repays a part when interest has accrued. -/
def repaidOps : List (Op Nat Nat) :=
  [.createMarket ⟨0, sampleOracle fun _ => 1⟩ (.signed 7) ⟨sampleInput, sampleInput_valid⟩,
    .depositCollateral (.signed 1) 1 900, .initializeBlock 1,
    .borrow ⟨1, sampleOracle fun _ => 1⟩ (.signed 1) 1 100,
      .initializeBlock (1 + secondsPerYearNaive),
    .repayBorrow (.signed 1) 1 1 40]

theorem repaidOps_byUser : ∀ op ∈ repaidOps, op.ByUser sample := by
  simp [repaidOps, Op.ByUser, Op.signer, sample_user]

theorem debts_stay_recorded_sample :
    ∃ s, run (step sample) (State.genesis sampleLedger 100 0) repaidOps =
    some s ∧ s.ledger.reserved 101 1 = 60 ∧ Owes s 1 1 60 := by
  have hview : (run (step sample) (State.genesis sampleLedger 100 0) repaidOps).map
      (fun s => (s.debtMarkets 1, s.ledger.reserved 101 1)) = some (some 101, 60) := by decide +kernel
  obtain ⟨s, hrun, hs⟩ := Option.map_eq_some_iff.mp hview
  obtain ⟨hd, hreserved⟩ := Prod.mk.inj hs
  have htidy : Along (step sample) (Tidy sample) (State.genesis sampleLedger 100 0) repaidOps := by
    decide +kernel
  have howes :=
    (debts_stay_recorded sample sampleLedger_unissued 0 repaidOps_byUser htidy hrun).1 1 101 1 hd
    (by rw [hreserved]; decide)
  exact ⟨s, hrun, hreserved, hreserved ▸ howes⟩

/-- Account `1` repays one of a hundred before any interest has accrued. -/
def forgottenOps : List (Op Nat Nat) :=
  [.createMarket ⟨0, sampleOracle fun _ => 1⟩ (.signed 7) ⟨sampleInput, sampleInput_valid⟩,
    .depositCollateral (.signed 1) 1 900, .initializeBlock 1,
    .borrow ⟨1, sampleOracle fun _ => 1⟩ (.signed 1) 1 100, .initializeBlock 2,
      .repayBorrow (.signed 1) 1 1 1]

/-- **A debt is forgotten**: 99 of the principal is on hold, without an index, and nothing is
    owed. -/
theorem debt_forgotten :
    ∃ s, run (step sample) (State.genesis sampleLedger 100 0) forgottenOps = some s ∧
    s.debtMarkets 1 = some 101 ∧ s.ledger.reserved 101 1 = 99 ∧ s.debtIndex.get 1 1 = none ∧
    s.borrowTimestamp.get 1 1 = none ∧ (borrowBalanceCurrent 1 1 s).1.toOption = some (some 0) := by
  have hview : (run (step sample) (State.genesis sampleLedger 100 0) forgottenOps).map
      (fun s => (s.debtMarkets 1, s.ledger.reserved 101 1, s.debtIndex.get 1 1,
        s.borrowTimestamp.get 1 1,
        (borrowBalanceCurrent 1 1 s).1.toOption)) =
          some (some 101, 99, none, none, some (some 0)) := by
    decide +kernel
  obtain ⟨s, hrun, hs⟩ := Option.map_eq_some_iff.mp hview
  simp only [Prod.mk.injEq] at hs
  exact ⟨s, hrun, hs⟩

end Lending
end Composable
