import Mathlib.Algebra.BigOperators.Group.List.Basic
import Mathlib.Algebra.Order.Ring.Nat
import Mathlib.Data.List.Sort
import Mathlib.Order.Basic

/-!
# `Support.Allotment` — a stock handed out best first

Claims on a stock are served one after the other, each with what it wants as far as the stock
lasts (`allot`). `BestFirst` says what it means to serve the claims by descending key, ties in
the order they came in: nothing is said about how it is done. `bestFirst_allot` is the
algorithm that sorts the claims first.
-/

namespace Composable

variable {α κ : Type} {want : α → Nat}

/-- Serve the claims in order from `left`: each with what it is given. -/
def allot (want : α → Nat) : List α → Nat → List (α × Nat)
  | [], _ => []
  | a :: as, left => (a, min (want a) left) :: allot want as (left - min (want a) left)

theorem allot_fst (as : List α) (left : Nat) : (allot want as left).map Prod.fst = as := by
  induction as generalizing left with
  | nil => rfl
  | cons a as ih => exact congrArg (a :: ·) (ih _)

/-- All that is given out is what is wanted, as far as the stock lasts. -/
theorem allot_total (as : List α) (left : Nat) :
    ((allot want as left).map Prod.snd).sum = min left (as.map want).sum := by
  induction as generalizing left with
  | nil => simp [allot]
  | cons a as ih =>
      simp only [allot, List.map_cons, List.sum_cons, ih]
      omega

/-- Each claim is served from what the earlier ones left. -/
theorem allot_split {as : List α} {left : Nat} {earlier later : List (α × Nat)} {f : α × Nat}
    (h : allot want as left = earlier ++ f :: later) :
    f.2 = min (want f.1) (left - (earlier.map Prod.snd).sum) := by
  induction earlier generalizing as left with
  | nil =>
      cases as with
      | nil => cases h
      | cons a as =>
          obtain ⟨rfl, -⟩ := List.cons.inj h
          simp
  | cons e earlier ih =>
      cases as with
      | nil => cases h
      | cons a as =>
          obtain ⟨rfl, hrest⟩ := List.cons.inj h
          rw [ih hrest, List.map_cons, List.sum_cons, Nat.sub_sub]

section Sorted

variable [LinearOrder κ] {key : α → κ}

/-- The claims `as` served from `stock` by descending key: every claim once, ties in the order they
    came in, each with what it wants or what the earlier ones left. -/
structure BestFirst (key : α → κ) (want : α → Nat) (as : List α) (stock : Nat)
    (served : List (α × Nat)) : Prop where
  perm : (served.map Prod.fst).Perm as
  descending : (served.map Prod.fst).Pairwise fun a b => key b ≤ key a
  stable : ∀ k, ((served.map Prod.fst).filter fun a => key a = k) = as.filter fun a => key a = k
  given : ∀ {earlier f later}, served = earlier ++ f :: later →
    f.2 = min (want f.1) (stock - (earlier.map Prod.snd).sum)
  total : (served.map Prod.snd).sum = min stock (as.map want).sum

/-- Sorting by insertion keeps the claims of one key in order. -/
theorem insertionSort_filter (as : List α) (k : κ) :
    ((as.insertionSort fun a b => key b ≤ key a).filter fun a => key a = k) = as.filter fun a =>
      key a = k := by
  have hperm : ((as.insertionSort fun a b => key b ≤ key a).filter fun a => key a = k).Perm
      (as.filter fun a => key a = k) := (List.perm_insertionSort _ as).filter _
  -- The claims of one key are sorted among themselves, so they are still there in the same order.
  have hties : (as.filter fun a => key a = k).Pairwise fun a b => key b ≤ key a := by
    refine List.pairwise_iff_forall_sublist.mpr fun {a b} hab => ?_
    have ha := hab.subset (List.mem_cons_self ..)
    have hb := hab.subset (List.mem_cons_of_mem _ (List.mem_singleton_self b))
    simp only [List.mem_filter, decide_eq_true_eq] at ha hb
    rw [ha.2, hb.2]
  have hsub :=
    (List.sublist_insertionSort hties List.filter_sublist).filter fun a => decide (key a = k)
  rw [List.filter_filter] at hsub
  simp only [Bool.and_self] at hsub
  exact (hsub.eq_of_length hperm.length_eq.symm).symm

/-- **Sorting the claims and serving them in order serves them best first.** -/
theorem bestFirst_allot (as : List α) (stock : Nat) :
    BestFirst key want as stock (allot want (as.insertionSort fun a b => key b ≤ key a) stock) where
  perm := by
    rw [allot_fst]
    exact List.perm_insertionSort _ as
  descending := by
    have htotal : Std.Total fun a b : α => key b ≤ key a := ⟨fun a b => le_total (key b) (key a)⟩
    have htrans : IsTrans α fun a b => key b ≤ key a := ⟨fun _ _ _ hab hbc => hbc.trans hab⟩
    rw [allot_fst]
    exact List.pairwise_insertionSort _ as
  stable := fun k => by
    rw [allot_fst]
    exact insertionSort_filter as k
  given := allot_split
  total := by
    rw [allot_total, ((List.perm_insertionSort _ as).map want).sum_eq]

end Sorted

end Composable
