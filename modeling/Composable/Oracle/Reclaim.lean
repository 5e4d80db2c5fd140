import Composable.Oracle.Reserve
import Composable.Vesting.Model

/-!
# `Oracle.Reclaim` — a reclaim that fails halfway

`reclaim_stake` takes the withdrawal off the books and releases its stake before it transfers it,
and nothing is rolled back. A transfer that is refused then leaves the stake free on the account of
the signer, and no withdrawal to try again with. Every earlier check comes before the first write,
so this is the only way (`reclaim_all_or_nothing`).

With existential deposits and locks the transfer is refused when what the signer had
reserved was slashed, when it is locked, or when the controller does not reach the
existential deposit (`Payable`).
-/

namespace Composable
namespace Oracle

open Vesting (lockable)

variable {A X : Type} [DecidableEq A] [DecidableEq X]
variable {cfg : Config A X} {s s' : State A X} {origin : RawOrigin A} {who signer : A} {stake : Nat}

/-- The withdrawals, the balances and both maps are as they were. -/
structure Kept (s s' : State A X) : Prop where
  declared : s'.declaredWithdraws = s.declaredWithdraws
  reserved : ∀ w, s'.ledger.reserved () w = s.ledger.reserved () w
  free : ∀ w, s'.ledger.free () w = s.ledger.free () w
  signers : s'.controllerToSigner = s.controllerToSigner
  controllers : s'.signerToController = s.signerToController

omit [DecidableEq A] [DecidableEq X] in
theorem Kept.refl (s : State A X) : Kept s s := ⟨rfl, fun _ => rfl, fun _ => rfl, rfl, rfl⟩

omit [DecidableEq X] in
/-- A withdrawal that was taken off the books is missed. -/
theorem not_kept_withdraw {withdrawal : Withdraw}
    (hdeclared : s.declaredWithdraws signer = some withdrawal) :
    ¬ Kept s (s.withdraw signer stake) := by
  intro hkept
  have hgone : (s.withdraw signer stake).declaredWithdraws signer = none := Function.update_self ..
  rw [hkept.declared, hdeclared] at hgone
  cases hgone

/-- A reclaim that fails did nothing. -/
def AllOrNothing (cfg : Config A X) (s : State A X) (origin : RawOrigin A) : Prop :=
  ∀ e s', reclaimStake cfg origin s = (.error e, s') → Kept s s'

/-- The transfer of a withdrawal that is due is not refused. -/
def DuePaid (cfg : Config A X) (s : State A X) (origin : RawOrigin A) : Prop :=
  ∀ who signer withdrawal, origin = .signed who → Withdrawable s who signer withdrawal →
    cfg.payRefused s who signer withdrawal.stake = none

omit [DecidableEq X] in
/-- A reclaim that fails did nothing exactly when what is due can be paid. -/
theorem allOrNothing_iff : AllOrNothing cfg s origin ↔ DuePaid cfg s origin := by
  constructor
  · rintro hall who signer withdrawal rfl hdue
    by_contra hrefused
    have hreclaim : Call.Outcome _ _ (reclaimStake cfg (.signed who) s) :=
      reclaimStake_of_withdrawable hdue
    rcases hcall : reclaimStake cfg (.signed who) s with ⟨e | u, t⟩
    · rw [hcall] at hreclaim
      obtain ⟨-, -, rfl⟩ := hreclaim
      exact not_kept_withdraw hdue.declared (hall e _ hcall)
    · rw [hcall] at hreclaim
      exact hrefused hreclaim.1
  · intro hpaid e s' hcall
    by_cases hdue : ∃ who signer withdrawal, origin = .signed who ∧
      Withdrawable s who signer withdrawal
    · obtain ⟨who, signer, withdrawal, rfl, hdue⟩ := hdue
      have hreclaim : Call.Outcome _ _ (reclaimStake cfg (.signed who) s) :=
        reclaimStake_of_withdrawable hdue
      rw [hcall] at hreclaim
      exact absurd (hpaid who signer withdrawal rfl hdue) hreclaim.1
    · have hreclaim : Call.Outcome _ _ (reclaimStake cfg origin s) :=
        reclaimStake_of_not_due fun who signer withdrawal horigin h =>
          hdue ⟨who, signer, withdrawal, horigin, h⟩
      rw [hcall] at hreclaim
      obtain rfl := hreclaim
      exact Kept.refl _

/-! ## Existential deposits and locks -/

/-- What is not nothing, and not for the signer itself, is still there when its reservation is
released, can leave the account of the signer, and makes an account of the controller's. -/
def Payable (ed : Unit → Nat) (locks : Vesting.Locks A Unit) (l : Ledger A Unit) (who signer : A)
    (stake : Nat) : Prop :=
  stake = 0 ∨ signer = who ∨
    (stake + locks () signer ≤ l.free () signer + min stake (l.reserved () signer) ∧
      ed () ≤ l.balance () who + stake)

omit [DecidableEq X] in
/-- A currency with existential deposits and locks pays exactly that. -/
theorem payRefused_eq_none {ed : Unit → Nat} {locks : Vesting.Locks A Unit}
    (hcurrency : cfg.currency = lockable (Currency.existential ed) locks) :
    cfg.payRefused s who signer stake = none ↔ Payable ed locks s.ledger who signer stake := by
  unfold Config.payRefused Payable
  rw [hcurrency]
  show (if stake ≠ 0 ∧ signer ≠ who ∧ _ then some TokenError.frozen
    else Currency.existentialTransfer ed _ () _ _ _ _) =
    none ↔ _
  simp only [Ledger.free_unlock, and_self, if_true]
  by_cases hnothing : stake = 0 ∨ signer = who
  · have hpass : ¬ (stake ≠ 0 ∧ signer ≠ who ∧
        s.ledger.free () signer + min stake (s.ledger.reserved () signer) <
          stake + locks () signer) := by
      rintro ⟨hstake, hwho, -⟩
      exact hnothing.elim hstake hwho
    rw [if_neg hpass, Currency.existentialTransfer_none]
    exact iff_of_true (hnothing.imp_right .inl) (hnothing.imp_right .inl)
  · obtain ⟨hstake, hwho⟩ := not_or.mp hnothing
    split
    · rename_i hfrozen
      refine iff_of_false (Option.some_ne_none _) ?_
      simp only [hstake, hwho, false_or]
      exact fun h => absurd h.1 (Nat.not_le.mpr hfrozen.2.2)
    · rename_i hpass
      have hleave : stake + locks () signer ≤ s.ledger.free () signer +
          min stake (s.ledger.reserved () signer) :=
        Nat.not_lt.mp fun hlt => hpass ⟨hstake, hwho, hlt⟩
      rw [Currency.existentialTransfer_none]
      simp only [hstake, hwho, false_or, Ledger.free_unlock, and_self, if_true,
        Ledger.balance_unlock, hleave, true_and, Bool.false_eq_true, false_implies, and_true]
      exact and_iff_right (Nat.le_of_add_right_le hleave)

omit [DecidableEq X] in
/-- **A reclaim is all or nothing exactly when what is due can be paid**, from what is left of the
reservation and may leave the account. -/
theorem reclaim_all_or_nothing (cfg : Config A X) (s : State A X) (origin : RawOrigin A) :
    (AllOrNothing cfg s origin ↔ DuePaid cfg s origin) ∧
    ∀ (ed : Unit → Nat) (locks : Vesting.Locks A Unit),
      cfg.currency = lockable (Currency.existential ed) locks →
        (AllOrNothing cfg s origin ↔ ∀ who signer withdrawal, origin = .signed who →
          Withdrawable s who signer withdrawal →
            Payable ed locks s.ledger who signer withdrawal.stake) := by
  refine ⟨allOrNothing_iff, fun ed locks hcurrency => allOrNothing_iff.trans ?_⟩
  simp only [DuePaid, payRefused_eq_none hcurrency]

/-- The withdrawal of signer `2` is declared after its stake was slashed, and due. -/
def slashedReclaimOps : List (Op Nat Nat) :=
  slashOps ++ [.removeStake (.signed 1), .initializeBlock, .initializeBlock]

/-- **Signer `2` was slashed**: its controller cannot reclaim the stake, and
    the withdrawal is gone. -/
theorem reclaim_loses_withdrawal : ¬ ∀ (ops : List (Op Nat Nat)) s origin,
    run (step sample) (State.genesis sampleLedger) ops = some s → AllOrNothing sample s origin := by
  intro hall
  have hview : (run (step sample) (State.genesis sampleLedger) slashedReclaimOps).map
      (fun s : State Nat Nat => ((reclaimStake sample (.signed 1) s).1.toBool, s.declaredWithdraws 2,
        (reclaimStake sample (.signed 1) s).2.declaredWithdraws 2)) =
          some (false, some ⟨1, 8⟩, none) := by
    decide +kernel
  obtain ⟨s, hrun, hs⟩ := Option.map_eq_some_iff.mp hview
  simp only [Prod.mk.injEq] at hs
  obtain ⟨hfails, hbefore, hafter⟩ := hs
  rcases hcall : reclaimStake sample (.signed 1) s with ⟨e | u, t⟩
  · have hkept := hall slashedReclaimOps s (.signed 1) hrun e t hcall
    rw [hcall, hkept.declared, hbefore] at hafter
    cases hafter
  · rw [hcall] at hfails
    cases hfails

end Oracle
end Composable
