import Composable.Oracle.Stake

/-!
# `Oracle.Reserve` — what stands behind a stake

The books say what is staked and what is declared to be withdrawn, and that much should be
reserved on the account of the signer. A payout slashes the account without a look at the books:
it takes the free balance first and then what is reserved. `stake_reserved` says that the books
are covered in every state of a run exactly when every account with something on the books can pay
its slashes from what is not stake.

Nothing restores a cover that is lost within a block, so the exact condition of a block is that of
its turns, and that of a turn is that of its payouts (`end_iff_along`, twice).
-/

namespace Composable
namespace Oracle

variable {A X : Type} [DecidableEq A] [DecidableEq X]
variable {cfg : Config A X} {s s' : State A X} {op : Op A X} {x : X}
variable {recorded : A → Nat} {controllers : A → Option A} {l : Ledger A Unit} {info : AssetInfo}
variable {price block : Nat} {ps : List (PrePrice A)} {w : A}

/-- What is on the books is reserved. -/
def Covers (recorded : A → Nat) (l : Ledger A Unit) : Prop := ∀ w, recorded w ≤ l.reserved () w

/-- The books of a state are covered. -/
def Covered (s : State A X) : Prop := ∀ w, s.stakeOf w + s.declaredOf w ≤ s.ledger.reserved () w

/-! ## Payouts -/

/-- If the answer is slashed, its account has nothing on the books or can pay
    from what is not stake. -/
def SlashCovered (cfg : Config A X) (recorded : A → Nat) (price : Nat) (info : AssetInfo)
    (l : Ledger A Unit) (answer : PrePrice A) : Prop :=
  cfg.accuracy answer.price price < info.threshold →
    recorded answer.who = 0 ∨
      info.slash ≤ l.free () answer.who + (l.reserved () answer.who - recorded answer.who)

/-- A payout, as a step. -/
def payout (cfg : Config A X) (controllers : A → Option A) (price : Nat) (info : AssetInfo)
    (l : Ledger A Unit) (answer : PrePrice A) : Option (Ledger A Unit) :=
  some (cfg.paidOut controllers price info l answer)

section Payouts

omit [DecidableEq X]

/-- A payout takes from what is reserved exactly when it slashes more than is free. -/
theorem reserved_paidOut (answer : PrePrice A) :
    (cfg.paidOut controllers price info l answer).reserved () w =
      l.reserved () w - if cfg.accuracy answer.price price < info.threshold ∧ w = answer.who then
        info.slash - l.free () w else 0 := by
  unfold Config.paidOut
  by_cases hslashed : cfg.accuracy answer.price price < info.threshold
  · rw [if_pos hslashed, Ledger.reserved_slash]
    by_cases hw : w = answer.who
    · subst hw
      simp [hslashed]
    · simp [hw]
  · have hother : ¬ (cfg.accuracy answer.price price < info.threshold ∧ w = answer.who) :=
      fun hc => hslashed hc.1
    rw [if_neg hslashed, if_neg hother, Nat.sub_zero]
    dsimp only
    split
    · rfl
    · rfl

/-- A payout keeps the books covered exactly when its slash is. -/
theorem covers_paidOut (h : Covers recorded l) (answer : PrePrice A) :
    Covers recorded (cfg.paidOut controllers price info l answer) ↔
      SlashCovered cfg recorded price info l answer := by
  constructor
  · intro hcovers hslashed
    have hwho := hcovers answer.who
    rw [reserved_paidOut, if_pos ⟨hslashed, rfl⟩] at hwho
    have hbefore := h answer.who
    omega
  · intro hslash w
    have hbefore := h w
    rw [reserved_paidOut]
    by_cases hw : cfg.accuracy answer.price price < info.threshold ∧ w = answer.who
    · rw [if_pos hw]
      obtain ⟨hslashed, rfl⟩ := hw
      rcases hslash hslashed with hzero | henough
      · omega
      · omega
    · rw [if_neg hw]
      exact hbefore

/-- What is not covered stays so. -/
theorem Covers.of_paidOut {answer : PrePrice A}
    (h : Covers recorded (cfg.paidOut controllers price info l answer)) :
    Covers recorded l := by
  intro w
  have hafter := h w
  rw [reserved_paidOut] at hafter
  omega

/-- All payouts of a turn. -/
theorem covers_payouts (h : Covers recorded l) (ps : List (PrePrice A)) :
    Covers recorded (ps.foldl (cfg.paidOut controllers price info) l) ↔
      Along (payout cfg controllers price info) (SlashCovered cfg recorded price info) l ps := by
  refine end_iff_along (P := Covers recorded) (fun hcovers hslash hpaid => ?_)
    (fun hcovers hslash hpaid => ?_)
    (fun hlost hpaid => ?_) h (run_total _ l ps)
  · obtain rfl := Option.some.inj hpaid
    exact (covers_paidOut hcovers _).mpr hslash
  · obtain rfl := Option.some.inj hpaid
    exact fun hkept => hslash ((covers_paidOut hcovers _).mp hkept)
  · obtain rfl := Option.some.inj hpaid
    exact fun hkept => hlost hkept.of_paidOut

theorem Covers.of_payouts (h : Covers recorded (ps.foldl (cfg.paidOut controllers price info) l)) :
    Covers recorded l := by
  induction ps generalizing l with
  | nil => exact h
  | cons answer ps ih => exact (ih h).of_paidOut

end Payouts

/-! ## Turns -/

/-- The slashes of the turn of an asset, if it pays out, are covered. -/
def TurnCovered (cfg : Config A X) (block : Nat) (s : State A X) (x : X) : Prop :=
  ∀ info price history, PaysOut cfg block s x info price history →
    Along (payout cfg s.signerToController price info)
      (SlashCovered cfg s.recordedOf price info) s.ledger
      (cfg.kept info block (s.answers x))

/-- What a turn does to the balances. -/
theorem Turn.ledger (h : Turn cfg block x s s') :
    (s'.ledger = s.ledger ∧ ∀ info price history, ¬ PaysOut cfg block s x info price history) ∨
      ∃ info price history, PaysOut cfg block s x info price history ∧
        s'.ledger = (cfg.kept info block (s.answers x)).foldl
          (cfg.paidOut s.signerToController price info)
          s.ledger := by
  cases h with
  | idle hfew =>
      refine .inl ⟨rfl, fun info price history hpays => ?_⟩
      exact Nat.not_lt_of_le hpays.enough (hfew info hpays.info_eq)
  | @unstored info hinfo _ hlong =>
      refine .inl ⟨rfl, fun info' price history hpays => ?_⟩
      obtain rfl := Option.some.inj (hinfo.symm.trans hpays.info_eq)
      exact Nat.not_lt_of_le hpays.fits hlong
  | @pruned info hinfo _ hfew =>
      refine .inl ⟨rfl, fun info' price history hpays => ?_⟩
      obtain rfl := Option.some.inj (hinfo.symm.trans hpays.info_eq)
      rcases hfew with hfew | hnone
      · exact Nat.not_lt_of_le hpays.still hfew
      · exact absurd (hpays.price_eq.symm.trans (getMedianPrice_eq_none.mpr hnone))
          (Option.some_ne_none price)
  | @unrecorded info price e hinfo _ hprice hhistory _ =>
      refine .inl ⟨rfl, fun info' price' history hpays => ?_⟩
      obtain rfl := Option.some.inj (hinfo.symm.trans hpays.info_eq)
      obtain rfl := Option.some.inj (hprice.symm.trans hpays.price_eq)
      exact absurd (hhistory.symm.trans hpays.history_eq) nofun
  | paid hpays => exact .inr ⟨_, _, _, hpays, rfl⟩

/-- A turn keeps the books covered exactly when its slashes are. -/
theorem Turn.covered (h : Turn cfg block x s s') (hs : Covered s) :
    Covered s' ↔ TurnCovered cfg block s x := by
  have hbooks : ∀ w, s'.recordedOf w = s.recordedOf w := fun w => recordedOf_of_stakes h.frame.1
  have hcovered : Covered s' ↔ Covers s.recordedOf s'.ledger := forall_congr' fun w => by
    rw [← hbooks]
    exact Iff.rfl
  have hbefore : Covers s.recordedOf s.ledger := hs
  rw [hcovered]
  rcases h.ledger with ⟨hledger, hnot⟩ | ⟨info, price, history, hpays, hledger⟩
  · rw [hledger]
    exact iff_of_true hs fun info price history hpays => absurd hpays (hnot info price history)
  · rw [hledger, covers_payouts hbefore]
    constructor
    · intro halong info' price' history' hpays'
      obtain rfl := Option.some.inj (hpays.info_eq.symm.trans hpays'.info_eq)
      obtain rfl := Option.some.inj (hpays.price_eq.symm.trans hpays'.price_eq)
      exact halong
    · intro hturn
      exact hturn info price history hpays

/-- What is not covered before a turn is not covered after it. -/
theorem Turn.of_covered (h : Turn cfg block x s s') (hs' : Covered s') : Covered s := by
  have hcovers : Covers s.recordedOf s'.ledger := fun w =>
    (recordedOf_of_stakes h.frame.1 : s'.recordedOf w = s.recordedOf w) ▸ hs' w
  rcases h.ledger with ⟨hledger, -⟩ | ⟨info, price, history, -, hledger⟩
  · rw [hledger] at hcovers
    exact hcovers
  · rw [hledger] at hcovers
    exact hcovers.of_payouts

/-! ## Blocks -/

/-- The slashes of the block that starts, if it does, are covered. -/
def SlashesCovered (cfg : Config A X) (s : State A X) : Op A X → Prop
  | .initializeBlock =>
      Returns cfg s .initializeBlock →
        Along (turn cfg (s.block + 1)) (TurnCovered cfg (s.block + 1)) s.nextBlock (cfg.assets s)
  | _ => True

/-- The start of a block keeps the books covered exactly when its slashes are. -/
theorem initializeBlock_covered {u : Unit} (h : initializeBlock cfg s = (.ok u, s'))
    (hs : Covered s) :
    Covered s' ↔ Along (turn cfg (s.block + 1)) (TurnCovered cfg (s.block + 1)) s.nextBlock
      (cfg.assets s) := by
  obtain ⟨-, hrun⟩ := initializeBlock_ok.mp h
  have hnext : Covered s.nextBlock := hs
  refine end_iff_along (P := Covered) (fun hcovered hturn hstep => ?_)
    (fun hcovered hturn hstep => ?_)
    (fun hlost hstep => ?_) hnext hrun
  · exact ((turn_cases hstep).covered hcovered).mpr hturn
  · exact fun hkept => hturn (((turn_cases hstep).covered hcovered).mp hkept)
  · exact fun hkept => hlost ((turn_cases hstep).of_covered hkept)

/-! ## Steps and runs -/

section Steps

variable {who signer : A} {stake : Nat} {withdrawal : Withdraw}

omit [DecidableEq X]

/-- A stake is reserved when it is added. -/
theorem Covered.staked (h : Covered s) : Covered (s.staked who signer stake) := by
  intro w
  have hbefore := h w
  have hreserved : (s.staked who signer stake).ledger.reserved () w =
      s.ledger.reserved () w + if w = signer then stake else 0 := by
    simp [State.staked]
  have hdeclared : (s.staked who signer stake).declaredOf w = s.declaredOf w := rfl
  rw [stakeOf_staked, hreserved, hdeclared]
  omega

theorem Covered.declare (h : Covered s) (hstake : s.oracleStake signer = some withdrawal.stake) :
    Covered (s.declare signer withdrawal) := by
  intro w
  have hbefore := h w
  have hledger : (s.declare signer withdrawal).ledger = s.ledger := rfl
  rw [stakeOf_declare, declaredOf_declare, hledger]
  by_cases hw : w = signer
  · subst hw
    rw [State.stakeOf, hstake, Option.getD_some] at hbefore
    rw [if_pos rfl, if_pos rfl]
    omega
  · rw [if_neg hw, if_neg hw]
    exact hbefore

/-- A withdrawal releases what was declared. -/
theorem Covered.withdraw (h : Covered s) (hdue : Withdrawable s who signer withdrawal) :
    Covered (s.withdraw signer withdrawal.stake) := by
  intro w
  have hbefore := h w
  have hreserved : (s.withdraw signer withdrawal.stake).ledger.reserved () w =
      s.ledger.reserved () w - if w = signer then withdrawal.stake else 0 := by
    simp [State.withdraw]
  have hstake : (s.withdraw signer withdrawal.stake).stakeOf w = s.stakeOf w := rfl
  rw [declaredOf_withdraw, hreserved, hstake]
  by_cases hw : w = signer
  · subst hw
    rw [hdue.declaredOf_eq] at hbefore
    rw [if_pos rfl, if_pos rfl]
    omega
  · rw [if_neg hw, if_neg hw]
    exact hbefore

end Steps

/-- **One step.** -/
theorem Covered.step (h : Covered s) (hop : SlashesCovered cfg s op)
    (hstep : step cfg s op = some s') : Covered s' := by
  rcases step_cases hstep with ⟨hreturns, heffect⟩ | ⟨-, hresidue⟩
  · cases heffect with
    | signerSet _ _ => exact h.staked
    | stakeAdded _ => exact h.staked
    | stakeRemoved _ hstake => exact h.declare hstake
    | reclaimed hdue _ => exact h.withdraw hdue
    | elsewhere => exact fun w => Nat.le_trans (h w) (Nat.le_max_left _ _)
    | started hcall => exact (initializeBlock_covered hcall h).mpr (hop hreturns)
    | assetSet _ _ _ => exact h
    | submitted _ _ _ _ => exact h
  · cases hresidue with
    | clean => exact h
    | unreserved _ _ _ => exact h
    | unpaid hdue _ => exact h.withdraw hdue

/-- A block with a slash that is not covered leaves the books uncovered. -/
theorem step_uncovers (h : Covered s) (hop : ¬ SlashesCovered cfg s op) :
    ∃ s', step cfg s op = some s' ∧ ¬ Covered s' := by
  cases op with
  | initializeBlock =>
      obtain ⟨hreturns, hslashes⟩ : Returns cfg s .initializeBlock ∧
          ¬ Along (turn cfg (s.block + 1)) (TurnCovered cfg (s.block + 1)) s.nextBlock
            (cfg.assets s) := by
        simpa [SlashesCovered] using hop
      obtain ⟨t, ht⟩ := returns_iff.mp hreturns
      refine ⟨t, Call.success_eq_some.mpr ⟨(), ht⟩, fun hcovered => ?_⟩
      exact hslashes ((initializeBlock_covered ht h).mp hcovered)
  | _ => exact absurd trivial hop

/-- **Stakes are covered exactly when slashes are**: in every state of a run what is staked and
    declared to be withdrawn for a signer is reserved on its account, exactly when every account
    that is slashed has nothing on the books or can pay from what is not stake. -/
theorem stake_reserved (cfg : Config A X) (ledger : Ledger A Unit) (ops : List (Op A X)) :
    Throughout (step cfg) (fun s => ∀ w, s.stakeOf w + s.declaredOf w ≤ s.ledger.reserved () w)
        (State.genesis ledger) ops ↔
      Along (step cfg) (SlashesCovered cfg) (State.genesis ledger) ops :=
  throughout_iff_along (I := Covered) (P := Covered) (fun h => h)
    (fun h hop hstep => h.step hop hstep)
    step_uncovers fun _ => Nat.zero_le _

/-- Three signers with a stake of one answer for an asset with a slash of five;
    that of signer `2` is off. -/
def slashOps : List (Op Nat Nat) :=
  [.addAssetAndInfo .root 0 ⟨80, 3, 5, 5, 0, 5⟩, .setSigner (.signed 1) 2, .setSigner (.signed 3) 4,
      .setSigner (.signed 5) 6] ++ List.replicate 6 .initializeBlock ++
    [.submitPrice (.signed 2) 10 0, .submitPrice (.signed 4) 100 0, .submitPrice (.signed 6) 100 0,
      .initializeBlock]

/-- **A stake is not covered**: signer `2` keeps its stake on the books, and nothing is reserved. -/
theorem stake_uncovered : ¬ ∀ (ops : List (Op Nat Nat)) s' w,
    run (step sample) (State.genesis sampleLedger) ops = some s' →
      s'.stakeOf w + s'.declaredOf w ≤ s'.ledger.reserved () w := by
  intro hall
  have hview : (run (step sample) (State.genesis sampleLedger) slashOps).map
      (fun s' : State Nat Nat => (s'.stakeOf 2, s'.ledger.reserved () 2)) = some (1, 0) := by
    decide +kernel
  obtain ⟨s', hrun, hs'⟩ := Option.map_eq_some_iff.mp hview
  obtain ⟨hstake, hreserved⟩ := Prod.mk.inj hs'
  have hcovered := hall slashOps s' 2 hrun
  omega

end Oracle
end Composable
