import Mathlib.Algebra.Order.Ring.Nat
import Mathlib.Order.Monotone.Basic

/-!
# `Support.Drift` — a level that every turn moves

A level is moved by one input after the other (`drift`). Two runs are compared turn by turn where
the moves are monotone (`drift_le_drift`), and what a turn does from one level onwards bounds
what many of them do: a move that rises by `δ` from there rises by `δ` for each turn until it
meets the `cap` (`drift_rises`), and one that does not sink by more than `δ` sinks by no more
than `δ` for each turn (`drift_sinks`).
-/

namespace Composable

/-- The level after the inputs. -/
def drift {ι α : Type} (move : ι → α → α) (x : α) (inputs : List ι) : α :=
  inputs.foldl (fun x i => move i x) x

section Moves

variable {ι α : Type} {move : ι → α → α} {x : α} {is : List ι}

@[simp] theorem drift_nil : drift move x [] = x := rfl

@[simp] theorem drift_cons {i : ι} : drift move x (i :: is) = drift move (move i x) is := rfl

/-- What every move leaves true of the level is true in the end. -/
theorem drift_induction {P : α → Prop} (hmove : ∀ i ∈ is, ∀ x, P x → P (move i x)) (hx : P x) :
    P (drift move x is) := by
  induction is generalizing x with
  | nil => exact hx
  | cons i is ih =>
      rw [drift_cons]
      apply ih (fun k hk => hmove k (List.mem_cons_of_mem _ hk))
      exact hmove i List.mem_cons_self x hx

/-- A level that no input moves stays. -/
theorem drift_eq_of_fixed (hfixed : ∀ i ∈ is, move i x = x) : drift move x is = x := by
  apply drift_induction (P := fun y => y = x) _ rfl
  rintro i hi _ rfl
  exact hfixed i hi

end Moves

section Order

variable {ι κ α : Type} [Preorder α] {move : ι → α → α} {other : κ → α → α} {x y : α}

/-- Where every move of one run is at most the other run's, and that one's moves are
    monotone, it stays below. The moves are compared at the levels that `P` allows, and the
    first run keeps to them. -/
theorem drift_le_drift {P : α → Prop} {is : List ι} {js : List κ}
    (hmove : List.Forall₂ (fun i j => ∀ x, P x → move i x ≤ other j x ∧ P (move i x)) is js)
    (hmono : ∀ j ∈ js, Monotone (other j)) (hx : P x) (hle : x ≤ y) :
    drift move x is ≤ drift other y js := by
  induction hmove generalizing x y with
  | nil => exact hle
  | @cons i j is js hij _ ih =>
      simp only [drift_cons]
      obtain ⟨hmoved, hkept⟩ := hij x hx
      apply ih (fun k hk => hmono k (List.mem_cons_of_mem _ hk)) hkept
      calc move i x
          ≤ other j x := hmoved
        _ ≤ other j y := hmono j List.mem_cons_self hle

/-- The inputs compared with as many of the same. -/
theorem drift_le_replicate {P : α → Prop} {is : List ι} {j : κ}
    (hmove : ∀ i ∈ is, ∀ x, P x → move i x ≤ other j x ∧ P (move i x)) (hmono : Monotone (other j))
    (hx : P x) : drift move x is ≤ drift other x (List.replicate is.length j) := by
  refine drift_le_drift ?_ (fun k hk => ?_) hx le_rfl
  · induction is with
    | nil => exact .nil
    | cons i is ih =>
        exact .cons (hmove i List.mem_cons_self) (ih fun k hk => hmove k (List.mem_cons_of_mem _ hk))
  · obtain rfl := List.eq_of_mem_replicate hk
    exact hmono

/-- Monotone moves keep the order of two levels. -/
theorem drift_mono {is : List ι} (hmono : ∀ i ∈ is, Monotone (move i)) (hle : x ≤ y) :
    drift move x is ≤ drift move y is := by
  induction is generalizing x y with
  | nil => exact hle
  | cons i is ih =>
      simp only [drift_cons]
      exact ih (fun k hk => hmono k (List.mem_cons_of_mem _ hk)) (hmono i List.mem_cons_self hle)

end Order

section Linear

variable {ι : Type} {move : ι → Nat → Nat} {x δ cap : Nat} {is : List ι}

/-- A rise of `δ` a turn, for every level from the first on. -/
theorem drift_rises (hrise : ∀ i ∈ is, ∀ y, x ≤ y → min cap (y + δ) ≤ move i y) (hcap : x ≤ cap) :
    min cap (x + is.length * δ) ≤ drift move x is := by
  -- The statement for any level that the run has got to.
  suffices h : ∀ y, x ≤ y → min cap (y + is.length * δ) ≤ drift move y is from h x le_rfl
  induction is with
  | nil =>
      intro y _
      simp
  | cons i is ih =>
      intro y hy
      rw [drift_cons, List.length_cons, Nat.add_mul, Nat.one_mul]
      have hturn : min cap (y + δ) ≤ move i y := hrise i List.mem_cons_self y hy
      have hrest := ih (fun k hk => hrise k (List.mem_cons_of_mem _ hk)) (move i y) (by omega)
      omega

/-- A fall of at most `δ` a turn: from the first level or below by `δ`, and from above it, where
    only an earlier turn can have led, not past twice `δ` under it. -/
theorem drift_sinks (hbelow : ∀ i ∈ is, ∀ y, y ≤ x → y - δ ≤ move i y)
    (habove : ∀ i ∈ is, ∀ y, x ≤ y → x - 2 * δ ≤ move i y) : x - is.length * δ ≤ drift move x is := by
  -- After `k` turns the level has lost at most `k` times `δ`; none but the first starts at `x`.
  suffices h : ∀ k y, x - k * δ ≤ y → (y ≤ x ∨ 1 ≤ k) → x - (is.length + k) * δ ≤ drift move y is by
    simpa using h 0 x (Nat.sub_le _ _) (.inl le_rfl)
  induction is with
  | nil =>
      intro k y hy _
      simpa using hy
  | cons i is ih =>
      intro k y hy hturns
      rw [drift_cons, List.length_cons, Nat.add_right_comm, Nat.add_assoc]
      apply ih (fun i hi => hbelow i (List.mem_cons_of_mem _ hi))
        (fun i hi => habove i (List.mem_cons_of_mem _ hi))
      · rw [Nat.add_mul, Nat.one_mul]
        rcases Nat.le_total y x with hle | hle
        · have hturn := hbelow i List.mem_cons_self y hle
          omega
        · rcases Nat.eq_zero_or_pos k with rfl | hk
          · obtain rfl : y = x := Nat.le_antisymm (hturns.resolve_right (by omega)) hle
            have hturn := hbelow i List.mem_cons_self y le_rfl
            omega
          · have hturn := habove i List.mem_cons_self y hle
            have htwo : 2 * δ ≤ k * δ + δ := by
              have hone : 1 * δ ≤ k * δ := Nat.mul_le_mul_right δ hk
              omega
            omega
      · exact .inr (by omega)

end Linear

end Composable
