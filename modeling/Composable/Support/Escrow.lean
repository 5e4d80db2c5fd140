import Mathlib.Algebra.BigOperators.Group.Finset.Basic
import Mathlib.Algebra.Order.BigOperators.Group.Finset
import Mathlib.Algebra.Order.Ring.Nat

/-!
# `Support.Escrow` — reserves that cover what is owed

Accounts have something in reserve, and obligations are kept under keys: under a key it is known
what is owed to which account. The reserve covers them (`Covers`) if for every account it is at
least what is owed to it under any keys together, and `spare`, what was reserved or taken out of the
obligations and is in nobody's book at the moment.

The rules follow an obligation through its life: `hold` and `record` put it into the book, `take`
and `release` get it out. Nothing has to be known about how many keys there are.
-/

namespace Composable

variable {K A : Type} [DecidableEq K] [DecidableEq A]

/-- The reserves cover the obligations and what is spare. -/
def Covers (reserve : A → Nat) (owed : K → A → Nat) (spare : A → Nat) : Prop :=
  ∀ a, ∀ keys : Finset K, (∑ k ∈ keys, owed k a) + spare a ≤ reserve a

/-- `n` for one account. -/
def only (who : A) (n : Nat) : A → Nat := fun a => if a = who then n else 0

omit [DecidableEq A] in
/-- Under the other keys nothing changes. -/
theorem sum_erase_update (owed : K → A → Nat) (k : K) (v : A → Nat) (keys : Finset K) (a : A) :
    ∑ k' ∈ keys.erase k, Function.update owed k v k' a = ∑ k' ∈ keys.erase k, owed k' a := by
  apply Finset.sum_congr rfl
  intro k' hk'
  rw [Function.update_of_ne (Finset.ne_of_mem_erase hk')]

namespace Covers

variable {reserve reserve' : A → Nat} {owed owed' : K → A → Nat} {spare spare' : A → Nat} {k : K}
  {v : A → Nat}

omit [DecidableEq K] [DecidableEq A] in
/-- More in reserve, and less owed or spare. -/
theorem mono (h : Covers reserve owed spare) (hreserve : ∀ a, reserve a ≤ reserve' a)
    (howed : ∀ k a, owed' k a ≤ owed k a)
    (hspare : ∀ a, spare' a ≤ spare a) : Covers reserve' owed' spare' := by
  intro a keys
  have hsum : ∑ k ∈ keys, owed' k a ≤ ∑ k ∈ keys, owed k a := Finset.sum_le_sum fun k _ => howed k a
  have hle := h a keys
  have hr := hreserve a
  have hs := hspare a
  omega

omit [DecidableEq K] [DecidableEq A] in
/-- What is owed under one key is there. -/
theorem owed_le (h : Covers reserve owed spare) (k : K) (a : A) : owed k a + spare a ≤ reserve a := by
  have hone := h a {k}
  rwa [Finset.sum_singleton] at hone

omit [DecidableEq A] in
/-- **Recording**: what is spare is owed under a key, in place of what was. -/
theorem record (h : Covers reserve owed fun a => spare a + v a) :
    Covers reserve (Function.update owed k v) spare := by
  intro a keys
  have hrest := sum_erase_update owed k v keys a
  have hle := h a (keys.erase k)
  simp only at hle
  by_cases hk : k ∈ keys
  · rw [← Finset.add_sum_erase keys _ hk, hrest, Function.update_self]
    omega
  · rw [← Finset.erase_eq_of_notMem hk, hrest]
    omega

omit [DecidableEq A] in
/-- **Taking**: what was owed under a key is spare. -/
theorem take (h : Covers reserve owed spare) (hv : ∀ a, v a ≤ owed k a) :
    Covers reserve (Function.update owed k fun _ => 0) fun a => spare a + v a := by
  intro a keys
  have hrest := sum_erase_update owed k (fun _ => 0) keys a
  have hall := h a (insert k (keys.erase k))
  rw [Finset.sum_insert (Finset.notMem_erase k keys)] at hall
  have hva := hv a
  show _ + (spare a + v a) ≤ reserve a
  by_cases hk : k ∈ keys
  · rw [← Finset.add_sum_erase keys _ hk, hrest, Function.update_self]
    omega
  · rw [← Finset.erase_eq_of_notMem hk, hrest]
    omega

omit [DecidableEq K] in
/-- **Holding**: what one account reserves is spare. -/
theorem hold (h : Covers reserve owed spare) (who : A) (n : Nat) :
    Covers (fun a => reserve a + only who n a) owed fun a => spare a + only who n a := by
  intro a keys
  have hle := h a keys
  show _ + (spare a + only who n a) ≤ reserve a + only who n a
  omega

omit [DecidableEq K] in
/-- **Releasing**: what is spare leaves the reserve. -/
theorem release (who : A) (n : Nat) (h : Covers reserve owed fun a => spare a + only who n a) :
    Covers (fun a => reserve a - only who n a) owed spare := by
  intro a keys
  have hle := h a keys
  simp only at hle ⊢
  omega

end Covers

end Composable
