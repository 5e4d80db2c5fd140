import Composable.Oracle.Effect
import Composable.Support.Tally

/-!
# `Oracle.Stake` — what becomes of a stake

What is deposited for a signer is staked, then declared to be withdrawn, then reclaimed. There is
one slot for declared withdrawals, and a second one overwrites the first; and a withdrawal is taken
off the books before it is paid. `stake_conserved` says that nothing else is ever lost: a run keeps
the deposits of a signer on the books, or has paid them back, exactly when no stake is taken out
while another withdrawal is declared and every withdrawal that is due can be paid.
-/

namespace Composable
namespace Oracle

variable {A X : Type} [DecidableEq A] [DecidableEq X]
variable {cfg : Config A X} {s s' : State A X} {op : Op A X}
variable {who signer w : A} {stake : Nat} {withdrawal : Withdraw}

/-! ## The books of a signer -/

section Books

omit [DecidableEq X]

theorem stakeOf_staked :
    (s.staked who signer stake).stakeOf w = s.stakeOf w + if w = signer then stake else 0 := by
  unfold State.staked
  by_cases hw : w = signer
  · subst hw
    simp [State.stakeOf]
  · simp [State.stakeOf, hw]

theorem stakeOf_declare :
    (s.declare signer withdrawal).stakeOf w = if w = signer then 0 else s.stakeOf w := by
  unfold State.declare
  by_cases hw : w = signer
  · subst hw
    simp [State.stakeOf]
  · simp [State.stakeOf, hw]

theorem declaredOf_declare :
    (s.declare signer withdrawal).declaredOf w = if w = signer then withdrawal.stake
      else s.declaredOf w := by
  unfold State.declare
  by_cases hw : w = signer
  · subst hw
    simp [State.declaredOf]
  · simp [State.declaredOf, hw]

theorem declaredOf_withdraw :
    (s.withdraw signer stake).declaredOf w = if w = signer then 0 else s.declaredOf w := by
  unfold State.withdraw
  by_cases hw : w = signer
  · subst hw
    simp [State.declaredOf]
  · simp [State.declaredOf, hw]

theorem declaredWithdraws_declare : (s.declare signer withdrawal).declaredWithdraws =
    Function.update s.declaredWithdraws signer (some withdrawal) := rfl

theorem declaredWithdraws_withdraw :
    (s.withdraw signer stake).declaredWithdraws = Function.update s.declaredWithdraws signer none :=
  rfl

omit [DecidableEq A] in
theorem Withdrawable.declaredOf_eq (h : Withdrawable s who signer withdrawal) :
    s.declaredOf signer = withdrawal.stake := by
  rw [State.declaredOf, h.declared, Option.elim_some]

end Books

/-- What the books have for a signer. -/
def State.recordedOf (s : State A X) (w : A) : Nat := s.stakeOf w + s.declaredOf w

omit [DecidableEq A] [DecidableEq X] in
/-- The books only depend on the stakes. -/
theorem recordedOf_of_stakes (h : s'.stakes = s.stakes) : s'.recordedOf w = s.recordedOf w := by
  have hstake : s'.oracleStake = s.oracleStake := congrArg Stakes.oracleStake h
  have hdeclared : s'.declaredWithdraws = s.declaredWithdraws := congrArg Stakes.declaredWithdraws h
  rw [State.recordedOf, State.stakeOf, State.declaredOf, hstake, hdeclared]
  rfl

/-! ## What is deposited and reclaimed -/

/-- An amount that a controller deposits for a signer. -/
structure Deposit (A : Type) where
  signer : A
  controller : A
  amount : Nat
deriving DecidableEq

/-- What an operation deposits, if it returns. -/
def Config.deposit (cfg : Config A X) (s : State A X) : Op A X → Option (Deposit A)
  | .setSigner (.signed who) signer => some ⟨signer, who, cfg.minStake⟩
  | .addStake (.signed who) stake => (s.controllerToSigner who).map fun signer => ⟨signer, who, stake⟩
  | _ => none

/-- What it deposits for a signer. -/
def deposited (cfg : Config A X) (w : A) (s : State A X) (op : Op A X) : Nat :=
  if Returns cfg s op then (cfg.deposit s op).elim 0 fun d => if d.signer = w then
    d.amount else 0 else 0

/-- The signer whose withdrawal an operation reclaims, if it returns. -/
def State.reclaims (s : State A X) : Op A X → Option A
  | .reclaimStake (.signed who) => s.controllerToSigner who
  | _ => none

/-- What it pays back of the deposits for a signer. -/
def reclaimed (cfg : Config A X) (w : A) (s : State A X) (op : Op A X) : Nat :=
  if Returns cfg s op ∧ s.reclaims op = some w then s.declaredOf w else 0

section Amounts

theorem deposited_none (h : cfg.deposit s op = none) : deposited cfg w s op = 0 := by
  unfold deposited
  rw [h]
  exact ite_self 0

theorem deposited_some (hreturns : Returns cfg s op)
    (h : cfg.deposit s op = some ⟨signer, who, stake⟩) :
    deposited cfg w s op = if w = signer then stake else 0 := by
  unfold deposited
  rw [if_pos hreturns, h, Option.elim_some]
  simp only [eq_comm]

theorem deposited_of_fails (h : ¬ Returns cfg s op) : deposited cfg w s op = 0 := if_neg h

theorem reclaimed_none (h : s.reclaims op = none) : reclaimed cfg w s op = 0 := by
  refine if_neg fun hc => ?_
  rw [h] at hc
  cases hc.2

theorem reclaimed_some (hreturns : Returns cfg s op) (h : s.reclaims op = some signer) :
    reclaimed cfg w s op = if w = signer then s.declaredOf w else 0 := by
  unfold reclaimed
  simp only [h, Option.some.injEq, hreturns, true_and, eq_comm]

theorem reclaimed_of_fails (h : ¬ Returns cfg s op) : reclaimed cfg w s op = 0 :=
  if_neg fun hc => h hc.1

end Amounts

/-- No stake is taken out while a withdrawal of the signer is declared, and every withdrawal
    that is due can be paid. -/
def KeepsStake (cfg : Config A X) (w : A) (s : State A X) : Op A X → Prop
  | .removeStake (.signed who) =>
      Returns cfg s (.removeStake (.signed who)) → s.controllerToSigner who = some w →
        s.declaredOf w = 0
  | .reclaimStake (.signed who) =>
      ∀ withdrawal, Withdrawable s who w withdrawal →
        withdrawal.stake = 0 ∨ cfg.payRefused s who w withdrawal.stake = none
  | _ => True

/-- **One step.** The books change by what is deposited and reclaimed. -/
theorem step_balanced (hop : KeepsStake cfg w s op) (hstep : step cfg s op = some s') :
    s.recordedOf w + deposited cfg w s op = s'.recordedOf w + reclaimed cfg w s op := by
  rcases step_cases hstep with ⟨hreturns, heffect⟩ | ⟨hfails, hresidue⟩
  · cases heffect with
    | @signerSet who signer hwho hsigner =>
        rw [deposited_some hreturns rfl, reclaimed_none rfl]
        show _ = (s.staked who signer cfg.minStake).stakeOf w + s.declaredOf w + 0
        rw [stakeOf_staked, State.recordedOf]
        omega
    | @stakeAdded who signer stake hsigner =>
        have hdeposit :
            cfg.deposit s (.addStake (.signed who) stake) = some ⟨signer, who, stake⟩ := by
          rw [Config.deposit, hsigner, Option.map_some]
        rw [deposited_some hreturns hdeposit, reclaimed_none rfl]
        show _ = (s.staked who signer stake).stakeOf w + s.declaredOf w + 0
        rw [stakeOf_staked, State.recordedOf]
        omega
    | @stakeRemoved who signer stake hsigner hstake =>
        rw [deposited_none rfl, reclaimed_none rfl, State.recordedOf, State.recordedOf,
          stakeOf_declare, declaredOf_declare]
        by_cases hw : w = signer
        · subst hw
          have hfree : s.declaredOf w = 0 := hop hreturns hsigner
          have hall : s.stakeOf w = stake := by rw [State.stakeOf, hstake, Option.getD_some]
          rw [if_pos rfl, if_pos rfl, hfree, hall, Nat.add_comm stake]
        · rw [if_neg hw, if_neg hw]
    | @reclaimed who signer withdrawal h hpaid =>
        rw [deposited_none rfl, reclaimed_some hreturns h.signer_eq]
        show _ = s.stakeOf w + (s.withdraw signer withdrawal.stake).declaredOf w + _
        rw [declaredOf_withdraw, State.recordedOf]
        split_ifs
        · rfl
        · rfl
    | started h =>
        rw [deposited_none rfl, reclaimed_none rfl, recordedOf_of_stakes (initializeBlock_frame h).1]
    | assetSet _ _ _ => rw [deposited_none rfl, reclaimed_none rfl]; rfl
    | submitted _ _ _ _ => rw [deposited_none rfl, reclaimed_none rfl]; rfl
    | elsewhere => rw [deposited_none rfl, reclaimed_none rfl]; rfl
  · rw [deposited_of_fails hfails, reclaimed_of_fails hfails]
    cases hresidue with
    | clean => rfl
    | unreserved _ _ _ => rfl
    | @unpaid who signer withdrawal h hrefused =>
        show _ = s.stakeOf w + (s.withdraw signer withdrawal.stake).declaredOf w + 0
        rw [declaredOf_withdraw, State.recordedOf]
        by_cases hw : w = signer
        · subst hw
          rcases hop withdrawal h with hzero | hpaid
          · rw [h.declaredOf_eq, hzero, if_pos rfl]
          · exact absurd hpaid hrefused
        · rw [if_neg hw]

/-- A step that does not keep the stake loses some of it. -/
theorem step_unbalanced (hop : ¬ KeepsStake cfg w s op) : ∃ s', step cfg s op = some s' ∧
    s.recordedOf w + deposited cfg w s op ≠ s'.recordedOf w + reclaimed cfg w s op := by
  cases op with
  | removeStake origin =>
      cases origin with
      | signed who =>
          obtain ⟨hreturns, hwho, hfree⟩ : Returns cfg s (.removeStake (.signed who)) ∧
              s.controllerToSigner who = some w ∧ s.declaredOf w ≠ 0 := by
            simpa [KeepsStake] using hop
          obtain ⟨t, hstep⟩ : ∃ t, step cfg s (.removeStake (.signed who)) = some t := ⟨_, rfl⟩
          refine ⟨t, hstep, fun hbalanced => ?_⟩
          rcases step_cases hstep with ⟨-, heffect⟩ | ⟨hfails, -⟩
          · cases heffect with
            | @stakeRemoved _ signer stake hsigner hstake =>
                obtain rfl := Option.some.inj (hwho.symm.trans hsigner)
                have hall : s.stakeOf w = stake := by rw [State.stakeOf, hstake, Option.getD_some]
                rw [deposited_none rfl, reclaimed_none rfl, State.recordedOf, State.recordedOf,
                  stakeOf_declare, declaredOf_declare, if_pos rfl, if_pos rfl, hall] at hbalanced
                dsimp only at hbalanced
                omega
          · exact hfails hreturns
      | root => exact absurd trivial hop
      | none => exact absurd trivial hop
  | reclaimStake origin =>
      cases origin with
      | signed who =>
          obtain ⟨withdrawal, h, hpositive, hrefused⟩ :
              ∃ withdrawal, Withdrawable s who w withdrawal ∧
              withdrawal.stake ≠ 0 ∧ cfg.payRefused s who w withdrawal.stake ≠ none := by
            simpa [KeepsStake] using hop
          obtain ⟨hfails, hstep⟩ := step_unpaid h hrefused
          refine ⟨_, hstep, fun hbalanced => ?_⟩
          rw [deposited_of_fails hfails, reclaimed_of_fails hfails, State.recordedOf,
            State.recordedOf, declaredOf_withdraw, if_pos rfl, h.declaredOf_eq] at hbalanced
          have hsame : (s.withdraw w withdrawal.stake).stakeOf w = s.stakeOf w := rfl
          omega
      | root => exact absurd trivial hop
      | none => exact absurd trivial hop
  | _ => exact absurd trivial hop

/-- **Stake is conserved exactly when** no stake is taken out while a withdrawal of the signer is
    declared, and every withdrawal that is due can be paid: then all that was deposited for the
    signer is staked, declared to be withdrawn or reclaimed, after every part of the run. -/
theorem stake_conserved (cfg : Config A X) (ledger : Ledger A Unit) (ops : List (Op A X)) (w : A) :
    (∀ part, part <+: ops → ∀ s', run (step cfg) (State.genesis ledger) part = some s' →
      tally (step cfg) (deposited cfg w) (State.genesis ledger) part =
        s'.stakeOf w + s'.declaredOf w + tally (step cfg) (reclaimed cfg w)
          (State.genesis ledger) part) ↔
      Along (step cfg) (KeepsStake cfg w) (State.genesis ledger) ops := by
  -- A step that meets its condition balances, and one that does not never does.
  rw [← balanced_iff_along (P := fun s : State A X => s.recordedOf w) (f := deposited cfg w)
    (g := reclaimed cfg w) step_balanced step_unbalanced]
  have hnone : (State.genesis ledger : State A X).recordedOf w = 0 := rfl
  unfold Balanced
  simp only [hnone, Nat.zero_add]
  exact Iff.rfl

/-- Account `1` stakes for signer `2`, takes the stake out, stakes again and
    takes that out as well. -/
def overwriteOps : List (Op Nat Nat) :=
  [.setSigner (.signed 1) 2, .removeStake (.signed 1), .addStake (.signed 1) 5,
    .removeStake (.signed 1)]

/-- **Stake is lost**: the second withdrawal overwrites the first one. -/
theorem stake_lost : ¬ ∀ ops : List (Op Nat Nat), (∀ op ∈ ops, op.OnStake) → ∀ s' w,
    run (step sample) (State.genesis sampleLedger) ops = some s' →
      tally (step sample) (deposited sample w) (State.genesis sampleLedger) ops =
        s'.stakeOf w + s'.declaredOf w + tally (step sample) (reclaimed sample w)
          (State.genesis sampleLedger) ops := by
  intro hall
  have hview : (run (step sample) (State.genesis sampleLedger) overwriteOps).map
      (fun s' : State Nat Nat => (s'.stakeOf 2, s'.declaredOf 2)) = some (0, 5) := by
    decide +kernel
  obtain ⟨s', hrun, hs'⟩ := Option.map_eq_some_iff.mp hview
  obtain ⟨hstake, hdeclared⟩ := Prod.mk.inj hs'
  have hbalanced := hall overwriteOps (by decide) s' 2 hrun
  have hdeposited :
      tally (step sample) (deposited sample 2) (State.genesis sampleLedger) overwriteOps = 6 := by
    decide +kernel
  have hreclaimed :
      tally (step sample) (reclaimed sample 2) (State.genesis sampleLedger) overwriteOps = 0 := by
    decide +kernel
  omega

end Oracle
end Composable
