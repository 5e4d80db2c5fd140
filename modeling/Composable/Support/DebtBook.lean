import Mathlib.Algebra.BigOperators.Finprod
import Mathlib.Algebra.Order.BigOperators.Group.Finset
import Mathlib.Algebra.Order.Ring.Nat

/-!
# `Support.DebtBook` — debts kept by an index

A book of debts has a principal for every account, and one pot for the interest of all. It issues a
token for both: what is issued is the interest and the principals (`Balanced`).

What an account owes is not its share of the pot. It is the principal scaled by an index that grows
with every accrual, over the index at which the account borrowed; how the scaled value is rounded is
up to the implementation (`Scaling`). So the pot may hold less than what is owed beyond the
principals; `Covered` says that it does not, for any accounts that may repay. Repaying keeps the
book covered. Borrowing keeps it covered if the new index of the borrower adds nothing to what it
owes, and an accrual does if nobody's debt grows by more than interest on its principal.
-/

namespace Composable

/-- Two quantities that differ at one account have sums that differ by what they are there. -/
theorem finsum_of_eq_off {A : Type} {f g : A → Nat} {a : A} (hf : (Function.support f).Finite)
    (h : ∀ b, b ≠ a → g b = f b) :
    (Function.support g).Finite ∧ ∑ᶠ b, g b + f a = ∑ᶠ b, f b + g a := by
  classical
  have hfinite : (Function.support g).Finite := by
    apply (hf.insert a).subset
    intro b hb
    by_cases hba : b = a
    · exact .inl hba
    · right
      rwa [Function.mem_support, ← h b hba]
  refine ⟨hfinite, ?_⟩
  -- Both sums are over the accounts of `f`, and `a`.
  let all : Finset A := insert a hf.toFinset
  have hall : a ∈ all := Finset.mem_insert_self _ _
  have hsum : ∀ k : A → Nat, (∀ b, b ≠ a → k b = f b) → ∑ᶠ b, k b = k a + ∑ b ∈ all.erase a, f b := by
    intro k hk
    have hsub : Function.support k ⊆ all := by
      intro b hb
      by_cases hba : b = a
      · exact hba ▸ hall
      · apply Finset.mem_insert_of_mem
        rwa [Set.Finite.mem_toFinset, Function.mem_support, ← hk b hba]
    rw [finsum_eq_sum_of_support_subset k hsub, ← Finset.add_sum_erase all k hall]
    congr 1
    exact Finset.sum_congr rfl fun b hb => hk b (Finset.ne_of_mem_erase hb)
  rw [hsum g h, hsum f fun _ _ => rfl]
  omega

/-- The shares of some accounts in a sum over all. -/
theorem sum_le_finsum {A : Type} {f : A → Nat} (hf : (Function.support f).Finite)
    (accounts : Finset A) : ∑ a ∈ accounts, f a ≤ ∑ᶠ a, f a := by
  classical
  have hsub : Function.support f ⊆ (accounts ∪ hf.toFinset : Finset A) := by
    intro a ha
    simp only [Finset.coe_union, Set.Finite.coe_toFinset, Set.mem_union]
    exact .inr ha
  rw [finsum_eq_sum_of_support_subset f hsub]
  exact Finset.sum_le_sum_of_subset Finset.subset_union_left

/-- A principal scaled by the index `i` over the index `j`, somehow rounded. -/
structure Scaling where
  scale : (principal i j : Nat) → Nat
  scale_zero : ∀ i j, scale 0 i j = 0
  scale_mono : ∀ {p q i j}, q ≤ p → scale q i j ≤ scale p i j
  /-- An index that has grown takes nothing off. -/
  le_scale : ∀ {p i j}, 0 < j → j ≤ i → p ≤ scale p i j
  /-- A smaller principal has less interest, at the same indexes. -/
  scale_sub_le : ∀ {p q i j}, q ≤ p → j ≤ i → scale q i j - q ≤ scale p i j - p

/-- Debts by account, and the interest of all. -/
@[ext]
structure DebtBook (A : Type) (S : Scaling) where
  principal : A → Nat
  /-- The index at which an account borrowed; without one it owes nothing. -/
  start : A → Option Nat
  index : Nat
  interest : Nat
  issued : Nat

namespace DebtBook

variable {A : Type} [DecidableEq A] {S : Scaling}

/-- What an account owes. -/
def owed (b : DebtBook A S) (a : A) : Nat :=
  (b.start a).elim 0 fun j => S.scale (b.principal a) b.index j

/-- What it owes beyond its principal. -/
def unpaid (b : DebtBook A S) (a : A) : Nat := b.owed a - b.principal a

/-- The interest on a principal `p` at the indexes of `a`. -/
def interestOn (b : DebtBook A S) (a : A) (p : Nat) : Nat :=
  (b.start a).elim 0 fun j => S.scale p b.index j - p

/-! ## Operations -/

/-- `a` borrows `n`, and gets the index `j`. -/
def borrow (b : DebtBook A S) (a : A) (n j : Nat) : DebtBook A S :=
  { b with
    principal := Function.update b.principal a (b.principal a + n)
    start := Function.update b.start a (some j)
    issued := b.issued + n }

/-- `a` repays `n`: its principal, and beyond that the interest. -/
def repay (b : DebtBook A S) (a : A) (n : Nat) : DebtBook A S :=
  { b with
    principal := Function.update b.principal a (b.principal a - n)
    interest := b.interest - (n - b.principal a)
    issued := b.issued - n }

/-- The index of `a` goes. -/
def close (b : DebtBook A S) (a : A) : DebtBook A S :=
  { b with start := Function.update b.start a none }

/-- Interest accrues. -/
def accrue (b : DebtBook A S) (index n : Nat) : DebtBook A S :=
  { b with index := index, interest := b.interest + n, issued := b.issued + n }

/-! ## Balance -/

/-- What is issued is the interest and the principals. -/
structure Balanced (b : DebtBook A S) : Prop where
  finite : (Function.support b.principal).Finite
  issued : b.issued = b.interest + ∑ᶠ a, b.principal a

/-- Nobody has borrowed, and nothing has accrued. -/
structure Empty (b : DebtBook A S) : Prop where
  principal : ∀ a, b.principal a = 0
  interest : b.interest = 0
  issued : b.issued = 0

variable {b : DebtBook A S} {a : A} {n j index : Nat}

omit [DecidableEq A] in
theorem Empty.balanced (h : b.Empty) : b.Balanced := by
  refine ⟨?_, ?_⟩
  · rw [show b.principal = fun _ => 0 from funext h.principal, Function.support_fun_zero]
    exact Set.finite_empty
  · rw [h.issued, h.interest, finsum_eq_zero_of_forall_eq_zero h.principal, Nat.add_zero]

theorem Balanced.borrow (h : b.Balanced) : (b.borrow a n j).Balanced := by
  have hoff := finsum_of_eq_off (g := (b.borrow a n j).principal) (a := a) h.finite
    fun c hc => Function.update_of_ne hc ..
  have hself : (b.borrow a n j).principal a = b.principal a + n := Function.update_self ..
  refine ⟨hoff.1, ?_⟩
  show b.issued + n = b.interest + ∑ᶠ a, _
  have hsum := hoff.2
  have hissued := h.issued
  omega

/-- A repayment beyond the principal must be covered by the interest. -/
theorem Balanced.repay (h : b.Balanced) (hn : n - b.principal a ≤ b.interest) :
    (b.repay a n).Balanced := by
  have hoff := finsum_of_eq_off (g := (b.repay a n).principal) (a := a) h.finite
    fun c hc => Function.update_of_ne hc ..
  have hself : (b.repay a n).principal a = b.principal a - n := Function.update_self ..
  refine ⟨hoff.1, ?_⟩
  show b.issued - n = b.interest - (n - b.principal a) + ∑ᶠ a, _
  have hsum := hoff.2
  have hissued := h.issued
  omega

omit [DecidableEq A] in
theorem Balanced.accrue (h : b.Balanced) : (b.accrue index n).Balanced := by
  refine ⟨h.finite, ?_⟩
  show b.issued + n = b.interest + n + ∑ᶠ a, b.principal a
  rw [h.issued]
  omega

theorem Balanced.close (h : b.Balanced) : (b.close a).Balanced := ⟨h.finite, h.issued⟩

/-! ## What is owed -/

/-- A borrow changes the debt of its owner only. -/
theorem owed_borrow_of_ne {c : A} (hc : c ≠ a) : (b.borrow a n j).owed c = b.owed c := by
  simp [owed, borrow, hc]

/-- A repayment raises no debt. -/
theorem owed_repay_le (c : A) : (b.repay a n).owed c ≤ b.owed c := by
  unfold owed repay
  cases b.start c with
  | none => exact Nat.le_refl 0
  | some j =>
      refine S.scale_mono ?_
      by_cases hc : c = a
      · subst hc
        simp
      · simp [hc]

/-- Nor does closing a borrow. -/
theorem owed_close_le (c : A) : (b.close a).owed c ≤ b.owed c := by
  unfold owed close
  by_cases hc : c = a
  · subst hc
    simp
  · simp [hc]

omit [DecidableEq A] in
/-- What is owed at a positive index is the principal and the interest on it. -/
theorem owed_eq {j : Nat} (hj : b.start a = some j) (hpos : 0 < j) (hle : j ≤ b.index) :
    b.owed a = b.principal a + b.interestOn a (b.principal a) := by
  have hprincipal : b.principal a ≤ S.scale (b.principal a) b.index j := S.le_scale hpos hle
  simp only [owed, interestOn, hj, Option.elim_some]
  omega

/-- After a repayment it is the principal that is left, and the interest on that. -/
theorem owed_repay {j : Nat} (hj : b.start a = some j) (hpos : 0 < j) (hle : j ≤ b.index) :
    (b.repay a n).owed a = b.principal a - n + b.interestOn a (b.principal a - n) := by
  have hself : (b.repay a n).principal a = b.principal a - n := Function.update_self ..
  have howed := owed_eq (b := b.repay a n) hj hpos hle
  rw [hself] at howed
  exact howed

omit [DecidableEq A] in
/-- Nothing is owed for no principal. -/
theorem owed_eq_zero (h : b.principal a = 0) : b.owed a = 0 := by
  unfold owed
  rw [h]
  cases b.start a with
  | none => rfl
  | some j => exact S.scale_zero _ _

/-! ## Cover -/

/-- The interest covers what any accounts owe beyond their principals. -/
def Covered (b : DebtBook A S) : Prop :=
  ∀ accounts : Finset A, ∑ a ∈ accounts, b.unpaid a ≤ b.interest

omit [DecidableEq A] in
theorem Empty.covered (h : b.Empty) : b.Covered := by
  intro accounts
  have hunpaid : ∀ a ∈ accounts, b.unpaid a = 0 := by
    intro a _
    rw [unpaid, owed_eq_zero (h.principal a), Nat.zero_sub]
  rw [Finset.sum_eq_zero hunpaid]
  exact Nat.zero_le _

omit [DecidableEq A] in
theorem Covered.unpaid_le (h : b.Covered) (a : A) : b.unpaid a ≤ b.interest := by
  have hone := h {a}
  rwa [Finset.sum_singleton] at hone

omit [DecidableEq A] in
/-- All together owe at most the principals and the interest. -/
theorem Covered.sum_owed_le (h : b.Covered) (hb : b.Balanced) (accounts : Finset A) :
    ∑ a ∈ accounts, b.owed a ≤ b.issued := by
  calc ∑ a ∈ accounts, b.owed a
      ≤ ∑ a ∈ accounts, (b.unpaid a + b.principal a) := Finset.sum_le_sum fun _ _ => le_tsub_add
    _ = ∑ a ∈ accounts, b.unpaid a + ∑ a ∈ accounts, b.principal a := Finset.sum_add_distrib
    _ ≤ b.interest + ∑ᶠ a, b.principal a :=
      Nat.add_le_add (h accounts) (sum_le_finsum hb.finite accounts)
    _ = b.issued := hb.issued.symm

omit [DecidableEq A] in
theorem Covered.of_le {b' : DebtBook A S} (h : b.Covered) (hunpaid : ∀ a, b'.unpaid a ≤ b.unpaid a)
    (hinterest : b.interest ≤ b'.interest) : b'.Covered := fun accounts =>
  (Finset.sum_le_sum fun a _ => hunpaid a).trans ((h accounts).trans hinterest)

theorem unpaid_borrow_of_ne {c : A} (hc : c ≠ a) : (b.borrow a n j).unpaid c = b.unpaid c := by
  simp [unpaid, owed, borrow, hc]

theorem unpaid_repay_of_ne {c : A} (hc : c ≠ a) : (b.repay a n).unpaid c = b.unpaid c := by
  simp [unpaid, owed, repay, hc]

/-- A borrow whose new index adds nothing to what its owner owes beyond the principal. -/
theorem Covered.borrow (h : b.Covered) (ha : (b.borrow a n j).unpaid a ≤ b.unpaid a) :
    (b.borrow a n j).Covered := by
  refine h.of_le (fun c => ?_) (Nat.le_refl b.interest)
  by_cases hc : c = a
  · rw [hc]
    exact ha
  · rw [unpaid_borrow_of_ne hc]

theorem Covered.close (h : b.Covered) : (b.close a).Covered := by
  refine h.of_le (fun c => ?_) (Nat.le_refl b.interest)
  by_cases hc : c = a
  · simp [unpaid, owed, DebtBook.close, hc]
  · simp [unpaid, owed, DebtBook.close, hc]

omit [DecidableEq A] in
/-- A larger principal has no less interest. -/
theorem interestOn_mono {p q : Nat} (hstart : ∀ j, b.start a = some j → j ≤ b.index) (hqp : q ≤ p) :
    b.interestOn a q ≤ b.interestOn a p := by
  unfold interestOn
  cases hj : b.start a with
  | none => exact Nat.le_refl 0
  | some j => exact S.scale_sub_le hqp (hstart j hj)

/-- Whoever repays at most what it owes takes no more interest than its own. -/
theorem Covered.repay (h : b.Covered) (hstart : ∀ j, b.start a = some j → j ≤ b.index)
    (hn : n ≤ b.owed a) : (b.repay a n).Covered := by
  by_cases hpart : n ≤ b.principal a
  · refine h.of_le (fun c => ?_) ?_
    · by_cases hc : c = a
      · subst hc
        unfold unpaid owed DebtBook.repay
        cases hj : b.start c with
        | none => simp
        | some j =>
            simp only [Option.elim_some, Function.update_self]
            exact S.scale_sub_le (Nat.sub_le _ _) (hstart j hj)
      · rw [unpaid_repay_of_ne hc]
    · show b.interest ≤ b.interest - (n - b.principal a)
      rw [Nat.sub_eq_zero_of_le hpart, Nat.sub_zero]
  · -- Nothing is left of the principal, so nothing is owed any more.
    have hself : (b.repay a n).unpaid a = 0 := by
      have hzero : b.principal a - n = 0 := Nat.sub_eq_zero_of_le (Nat.le_of_not_le hpart)
      unfold unpaid owed DebtBook.repay
      cases b.start a with
      | none => simp
      | some j => simp [hzero, S.scale_zero]
    have hown : n - b.principal a ≤ b.unpaid a := Nat.sub_le_sub_right hn _
    intro accounts
    have hothers : ∑ c ∈ accounts, (b.repay a n).unpaid c ≤ ∑ c ∈ accounts.erase a, b.unpaid c := by
      rw [← Finset.sum_erase accounts hself]
      exact Finset.sum_le_sum fun c hc => (unpaid_repay_of_ne (Finset.ne_of_mem_erase hc)).le
    have hall := h (insert a (accounts.erase a))
    rw [Finset.sum_insert (Finset.notMem_erase a accounts)] at hall
    show _ ≤ b.interest - (n - b.principal a)
    omega

omit [DecidableEq A] in
/-- Shares rounded down. -/
theorem sum_div_le (accounts : Finset A) (f : A → Nat) (k d : Nat) :
    ∑ a ∈ accounts, f a * k / d ≤ (∑ a ∈ accounts, f a) * k / d := by
  rcases Nat.eq_zero_or_pos d with rfl | hd
  · simp
  · rw [Nat.le_div_iff_mul_le hd, Finset.sum_mul, Finset.sum_mul]
    exact Finset.sum_le_sum fun a _ => Nat.div_mul_le_self _ _

omit [DecidableEq A] in
/-- An accrual that mints interest on the principals at a rate of `k / d`, and by which nobody's
    debt grows by more than the interest on its own principal. -/
theorem Covered.accrue {k d : Nat} (h : b.Covered) (hb : b.Balanced)
    (hn : (∑ᶠ a, b.principal a) * k / d ≤ n)
    (hgrowth : ∀ a, (b.accrue index n).unpaid a ≤ b.unpaid a + b.principal a * k / d) :
    (b.accrue index n).Covered := by
  intro accounts
  calc ∑ a ∈ accounts, (b.accrue index n).unpaid a
      ≤ ∑ a ∈ accounts, (b.unpaid a + b.principal a * k / d) := Finset.sum_le_sum fun a _ => hgrowth a
    _ = ∑ a ∈ accounts, b.unpaid a + ∑ a ∈ accounts, b.principal a * k / d := Finset.sum_add_distrib
    _ ≤ b.interest + (∑ a ∈ accounts, b.principal a) * k / d :=
        Nat.add_le_add (h accounts) (sum_div_le accounts b.principal k d)
    _ ≤ b.interest + (∑ᶠ a, b.principal a) * k / d :=
        Nat.add_le_add_left
          (Nat.div_le_div_right (Nat.mul_le_mul_right _ (sum_le_finsum hb.finite accounts))) _
    _ ≤ b.interest + n := Nat.add_le_add_left hn _

end DebtBook
end Composable
