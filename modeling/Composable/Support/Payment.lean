import Composable.Support.Ledger

/-!
# `Support.Payment` — payments on a balance sheet

A balance sheet says how much each account has of each asset, without the distinction between free
and reserved. A payment is refused if its sender does not have it or its recipient would be left
below the existential deposit, and a sender that is left with too little dies (`dies`); `settle`
makes payments one after the other and stops at the first that is refused.

`pay_balance` connects the sheet to the ledger: as long as what a sender has is
free, the ledger with existential deposits accepts a transfer exactly when the sheet
does, and reaps the same accounts.
-/

namespace Composable

variable {A X : Type} [DecidableEq A] [DecidableEq X]

/-- Total balances, by asset. -/
abbrev Sheet (A X : Type) : Type := X → A → Nat

structure Payment (A X : Type) where
  asset : X
  sender : A
  recipient : A
  amount : Nat

namespace Payment

/-- The sheet after the payment. -/
def apply (p : Payment A X) (sheet : Sheet A X) : Sheet A X := fun y c =>
  if p.sender = p.recipient then sheet y c
  else sheet y c - (if y = p.asset ∧ c = p.sender then p.amount else 0) +
    (if y = p.asset ∧ c = p.recipient then p.amount else 0)

/-- A payment raises the balance of its recipient. -/
theorem apply_recipient {p : Payment A X} {sheet : Sheet A X} (h : p.sender ≠ p.recipient) :
    p.apply sheet p.asset p.recipient = sheet p.asset p.recipient + p.amount := by
  simp [apply, h, h.symm]

/-- It takes nothing but its asset from its sender. -/
theorem apply_sender {p : Payment A X} {sheet : Sheet A X} {y : X} (h : p.sender ≠ p.recipient) :
    p.apply sheet y p.sender = sheet y p.sender - if y = p.asset then p.amount else 0 := by
  simp [apply, h]

/-- What becomes of an asset depends on nothing else. -/
theorem apply_congr {p : Payment A X} {sheet sheet' : Sheet A X} {y : X} (h : sheet y = sheet' y) :
    p.apply sheet y = p.apply sheet' y := by
  funext c
  simp only [apply, h]

/-- Nothing is paid. -/
theorem apply_zero {x : X} {a b : A} {sheet : Sheet A X} : apply ⟨x, a, b, 0⟩ sheet = sheet := by
  funext y c
  simp [apply]

/-- The payment is made between accounts that are not one, and costs the sender its life. -/
def Kills (dies : X → Nat → Bool) (p : Payment A X) (sheet : Sheet A X) : Prop :=
  p.amount ≠ 0 ∧ p.sender ≠ p.recipient ∧ dies p.asset (p.apply sheet p.asset p.sender) = true

instance (dies : X → Nat → Bool) (p : Payment A X) (sheet : Sheet A X) :
    Decidable (p.Kills dies sheet) :=
  inferInstanceAs (Decidable (_ ∧ _ ∧ _))

/-- The sheet after the payment, from which the sender has gone if it died. -/
def make (dies : X → Nat → Bool) (p : Payment A X) (sheet : Sheet A X) : Sheet A X := fun y c =>
  if p.Kills dies sheet ∧ y = p.asset ∧ c = p.sender then 0 else p.apply sheet y c

/-- The sender does not have the payment, or it would leave the recipient below
    the existential deposit. -/
def Refused (ed : X → Nat) (p : Payment A X) (sheet : Sheet A X) : Prop :=
  p.amount ≠ 0 ∧ p.sender ≠ p.recipient ∧
    (sheet p.asset p.sender < p.amount ∨ sheet p.asset p.recipient + p.amount < ed p.asset)

instance (ed : X → Nat) (p : Payment A X) (sheet : Sheet A X) : Decidable (p.Refused ed sheet) :=
  inferInstanceAs (Decidable (_ ∧ _ ∧ (_ ∨ _)))

def pay (ed : X → Nat) (dies : X → Nat → Bool) (p : Payment A X) (sheet : Sheet A X) :
    Option (Sheet A X) :=
  if p.Refused ed sheet then none else some (p.make dies sheet)

end Payment

/-- Make the payments in order. -/
def settle (ed : X → Nat) (dies : X → Nat → Bool) :
    Sheet A X → List (Payment A X) → Option (Sheet A X)
  | sheet, [] => some sheet
  | sheet, p :: payments => (p.pay ed dies sheet).bind fun sheet' => settle ed dies sheet' payments

variable {ed : X → Nat} {dies : X → Nat → Bool} {sheet : Sheet A X}

@[simp] theorem settle_nil : settle ed dies sheet [] = some sheet := rfl

theorem settle_cons {p : Payment A X} {payments : List (Payment A X)} :
    settle ed dies sheet (p :: payments) =
    (p.pay ed dies sheet).bind fun sheet' => settle ed dies sheet' payments := rfl

theorem settle_append {payments payments' : List (Payment A X)} :
    settle ed dies sheet (payments ++ payments') =
      (settle ed dies sheet payments).bind fun sheet' => settle ed dies sheet' payments' := by
  induction payments generalizing sheet with
  | nil => rfl
  | cons p payments ih =>
      rw [List.cons_append, settle_cons, settle_cons, Option.bind_assoc]
      congr 1
      funext sheet'
      exact ih

/-- The sheet of a ledger after a funded transfer. -/
theorem balance_move {l : Ledger A X} {x : X} {a b : A} {n : Nat} (h : a ≠ b → n ≤ l.free x a) :
    (l.move x a b n).balance = Payment.apply ⟨x, a, b, n⟩ l.balance := by
  funext y c
  simp only [Ledger.balance, Ledger.free_move, Ledger.reserved_move, Payment.apply]
  by_cases hab : a = b
  · simp only [if_pos hab]
  · have hn := h hab
    by_cases hfrom : y = x ∧ c = a
    · obtain ⟨rfl, rfl⟩ := hfrom
      simp only [hab, if_false, and_self, if_true, and_false]
      omega
    · simp only [hab, hfrom, if_false]
      omega

/-- The sheet of a ledger after a funded transfer that its sender need not survive. -/
theorem balance_paid {l : Ledger A X} {x : X} {a b : A} {n : Nat} (h : a ≠ b → n ≤ l.free x a) :
    ((Currency.reaping ed (Currency.byBalance dies)).paid x a b n false l).balance =
      Payment.make dies ⟨x, a, b, n⟩ l.balance := by
  have hkills : Payment.Kills dies ⟨x, a, b, n⟩ l.balance ↔ n ≠ 0 ∧ a ≠ b ∧
      dies x ((l.move x a b n).balance x a) = true := by
    unfold Payment.Kills
    rw [← balance_move h]
  funext y c
  unfold Payment.make Currency.paid
  rw [← balance_move h]
  by_cases htrivial : n = 0 ∨ a = b
  · rw [if_pos (.inr htrivial), if_neg]
    rintro ⟨hkilled, -⟩
    exact htrivial.elim (hkills.mp hkilled).1 (hkills.mp hkilled).2.1
  · rw [if_neg (not_or.mpr ⟨Bool.false_ne_true, htrivial⟩)]
    show Ledger.balance (if dies x ((l.move x a b n).balance x a) = true then _ else _) y c = _
    by_cases hdead : dies x ((l.move x a b n).balance x a) = true
    · have hkilled := hkills.mpr ⟨(not_or.mp htrivial).1, (not_or.mp htrivial).2, hdead⟩
      rw [if_pos hdead, Ledger.balance_sweep]
      exact if_congr ⟨fun hyc => ⟨hkilled, hyc⟩, fun hyc => hyc.2⟩ rfl rfl
    · rw [if_neg hdead, if_neg fun hkilled => hdead (hkills.mp hkilled.1).2.2]

/-- **A transfer** of a sender whose balance is free, as far as it is needed, is accepted by the
    ledger exactly when the sheet takes the payment, and has the same effect. -/
theorem pay_balance {l : Ledger A X} {x : X} {a b : A} {n : Nat} {sheet : Sheet A X}
    (h : a ≠ b → n ≤ l.balance x a → n ≤ l.free x a) :
    Payment.pay ed dies ⟨x, a, b, n⟩ l.balance = some sheet ↔
      Currency.existentialTransfer ed l x a b n false = none ∧
        ((Currency.reaping ed (Currency.byBalance dies)).paid x a b n false l).balance = sheet := by
  have hiff : Payment.Refused ed ⟨x, a, b, n⟩ l.balance ↔
      ¬ Currency.existentialTransfer ed l x a b n false = none := by
    unfold Payment.Refused
    rw [Currency.existentialTransfer_none]
    simp only [ne_eq, Bool.false_eq_true, false_implies, and_true, not_or, not_and_or, Nat.not_le]
    refine and_congr_right fun _ => and_congr_right fun hab => or_congr_left ?_
    have hfree : l.free x a ≤ l.balance x a := Nat.le_add_right _ _
    exact ⟨Nat.lt_of_le_of_lt hfree, fun hlt => Nat.lt_of_not_le fun hle =>
      Nat.not_le_of_lt hlt (h hab hle)⟩
  unfold Payment.pay
  by_cases hrefused : Payment.Refused ed ⟨x, a, b, n⟩ l.balance
  · rw [if_pos hrefused]
    simp [hiff.mp hrefused]
  · have haccepted := not_not.mp (mt hiff.mpr hrefused)
    have hfunded : a ≠ b → n ≤ l.free x a :=
      (Currency.existential ed).funded_of_transfer
        (show Currency.existentialTransfer ed l x a b n false = none from haccepted)
    have hpaid : ((Currency.reaping ed (Currency.byBalance dies)).paid x a b n false l).balance =
      _ := balance_paid hfunded
    rw [if_neg hrefused, Option.some.injEq, hpaid]
    simp [haccepted]

end Composable
