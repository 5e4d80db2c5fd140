import Composable.Support.Run
import Mathlib.Algebra.Order.Ring.Nat

/-!
# `Support.Tally` — what a run adds up to

`tally f` sums a quantity `f` of every operation of a run, taken in the state the operation starts
from: the amount it pays if it is accepted there, and nothing otherwise. Totals over the history of
a system are tallies, so they need no place in its state.

`run_balanced` is the rule for conservation: when every step keeps `P` in balance with what
comes in and what goes out, so does every run. `balanced_iff_along` adds that a run is in
balance at every point exactly when all its steps are, and `tally_invariant` relates one tally
to the state it was reached in.
-/

namespace Composable

variable {σ ο : Type} {step : σ → ο → Option σ} {f g : σ → ο → Nat} {P : σ → Nat}
variable {C : σ → ο → Prop} {I : σ → Prop}

/-- The sum of `f` over the operations of a run. -/
def tally (step : σ → ο → Option σ) (f : σ → ο → Nat) : σ → List ο → Nat
  | _, [] => 0
  | s, o :: os => f s o + (step s o).elim 0 fun s' => tally step f s' os

@[simp] theorem tally_nil (s : σ) : tally step f s [] = 0 := rfl

theorem tally_cons {s s' : σ} {o : ο} {os : List ο} (h : step s o = some s') :
    tally step f s (o :: os) = f s o + tally step f s' os := by
  rw [tally, h, Option.elim_some]

theorem tally_add (s : σ) (os : List ο) :
    tally step (fun s o => f s o + g s o) s os = tally step f s os + tally step g s os := by
  induction os generalizing s with
  | nil => rfl
  | cons o os ih =>
      cases h : step s o with
      | none => simp [tally, h]
      | some t =>
          rw [tally_cons h, tally_cons h, tally_cons h, ih t]
          omega

/-- Operations that change nothing, each adding nothing there, add up to nothing. -/
theorem tally_of_idle {s : σ} {os : List ο} (hidle : ∀ o ∈ os, ∀ s', step s o = some s' → s' = s)
    (hzero : ∀ o ∈ os, f s o = 0) : tally step f s os = 0 := by
  induction os with
  | nil => rfl
  | cons o os ih =>
      have hrest := ih (fun o' ho' => hidle o' (List.mem_cons_of_mem o ho'))
        fun o' ho' => hzero o' (List.mem_cons_of_mem o ho')
      rw [tally, hzero o List.mem_cons_self, Nat.zero_add]
      cases h : step s o with
      | none => rfl
      | some t => rwa [hidle o List.mem_cons_self t h]

/-- What only the operation `o` adds, the same every time, adds up to a multiple of it. -/
theorem tally_count [DecidableEq ο] {o : ο} {n : Nat}
    (hinv : ∀ {s p s'}, I s → step s p = some s' → I s')
    (hterm : ∀ {s p s'}, I s → step s p = some s' → f s p = if p = o then n else 0) :
    ∀ {s : σ} {os : List ο} {s' : σ}, I s → run step s os = some s' →
      tally step f s os = os.count o * n := by
  intro s os
  induction os generalizing s with
  | nil =>
      intro s' _ _
      rw [tally_nil, List.count_nil, Nat.zero_mul]
  | cons p os ih =>
      intro s' hI hrun
      obtain ⟨t, ht, hrun'⟩ := run_cons.mp hrun
      rw [tally_cons ht, hterm hI ht, ih (hinv hI ht) hrun', List.count_cons, Nat.add_mul]
      by_cases hp : p = o
      · simp [hp, Nat.add_comm]
      · simp [hp]

/-- **Balance rule.** When every step keeps `P`, what comes in and what goes out in balance, so does
    every run. -/
theorem run_balanced (hinv : ∀ {s o s'}, I s → C s o → step s o = some s' → I s')
    (hstep : ∀ {s o s'}, I s → C s o → step s o = some s' → P s + f s o = P s' + g s o) :
    ∀ {s : σ} {os : List ο} {s' : σ}, I s → Along step C s os → run step s os = some s' →
      P s + tally step f s os = P s' + tally step g s os := by
  intro s os
  induction os generalizing s with
  | nil =>
      intro s' _ _ hrun
      rw [Option.some.inj hrun, tally_nil, tally_nil]
  | cons o os ih =>
      intro s' hI hC hrun
      obtain ⟨t, ht, hrun'⟩ := run_cons.mp hrun
      have hrest := ih (hinv hI hC.1 ht) (hC.2 t ht) hrun'
      have hfirst := hstep hI hC.1 ht
      rw [tally_cons ht, tally_cons ht]
      omega

/-- What has come in and gone out is in balance with `P` after every part of the run. -/
def Balanced (step : σ → ο → Option σ) (P : σ → Nat) (f g : σ → ο → Nat) (s : σ) (os : List ο) :
    Prop :=
  ∀ part, part <+: os → ∀ s', run step s part = some s' →
    P s + tally step f s part = P s' + tally step g s part

theorem Balanced.tail {s t : σ} {o : ο} {os : List ο} (h : Balanced step P f g s (o :: os))
    (ht : step s o = some t) : P s + f s o = P t + g s o ∧ Balanced step P f g t os := by
  have hfirst : P s + f s o = P t + g s o := by
    have hone := h [o] ⟨os, rfl⟩ t (run_cons.mpr ⟨t, ht, rfl⟩)
    rwa [tally_cons ht, tally_cons ht, tally_nil, tally_nil, Nat.add_zero, Nat.add_zero] at hone
  refine ⟨hfirst, fun part hpart s' hrun => ?_⟩
  have hmore := h (o :: part) (List.cons_prefix_cons.mpr ⟨rfl, hpart⟩) s' (run_cons.mpr ⟨t, ht, hrun⟩)
  rw [tally_cons ht, tally_cons ht] at hmore
  omega

/-- **Exact balance rule.** When the steps in balance are those that meet `C`, a run is in balance
    after each of its parts exactly when all its steps meet it. -/
theorem balanced_iff_along (hkeeps : ∀ {s o s'}, C s o → step s o = some s' →
    P s + f s o = P s' + g s o)
    (hfails : ∀ {s o}, ¬ C s o → ∃ s', step s o = some s' ∧ P s + f s o ≠ P s' + g s o) :
    ∀ {s : σ} {os : List ο}, Balanced step P f g s os ↔ Along step C s os := by
  intro s os
  induction os generalizing s with
  | nil =>
      refine iff_of_true (fun part hpart s' hrun => ?_) trivial
      rw [List.prefix_nil.mp hpart] at hrun ⊢
      rw [Option.some.inj hrun, tally_nil, tally_nil]
  | cons o os ih =>
      constructor
      · intro hbalanced
        have hC : C s o := by
          by_contra hC
          obtain ⟨t, ht, hlost⟩ := hfails hC
          exact hlost (hbalanced.tail ht).1
        exact ⟨hC, fun t ht => ih.mp (hbalanced.tail ht).2⟩
      · rintro ⟨hC, hrest⟩ part hpart s' hrun
        cases part with
        | nil => rw [Option.some.inj hrun, tally_nil, tally_nil]
        | cons o' part =>
            obtain ⟨rfl, hpart'⟩ := List.cons_prefix_cons.mp hpart
            obtain ⟨t, ht, hrun'⟩ := run_cons.mp hrun
            have hlater := ih.mpr (hrest t ht) part hpart' s' hrun'
            have hfirst := hkeeps hC ht
            rw [tally_cons ht, tally_cons ht]
            omega

/-- What a step keeps of the state and of the tally so far, a run keeps. -/
theorem tally_invariant {J : σ → Nat → Prop}
    (hstep : ∀ {s o s' n}, J s n → C s o → step s o = some s' → J s' (n + f s o)) :
    ∀ {s : σ} {os : List ο} {s' : σ} {n : Nat}, J s n → Along step C s os → run step s os = some s' →
      J s' (n + tally step f s os) := by
  intro s os
  induction os generalizing s with
  | nil =>
      intro s' n hJ _ hrun
      rw [← Option.some.inj hrun]
      exact hJ
  | cons o os ih =>
      intro s' n hJ hC hrun
      obtain ⟨t, ht, hrun'⟩ := run_cons.mp hrun
      rw [tally_cons ht, ← Nat.add_assoc]
      exact ih (hstep hJ hC.1 ht) (hC.2 t ht) hrun'

/-- The same for a family of tallies. -/
theorem tallies_invariant {ι : Type} {f : ι → σ → ο → Nat} {J : σ → (ι → Nat) → Prop}
    (hstep : ∀ {s o s' n}, J s n → C s o → step s o = some s' → J s' fun i => n i + f i s o) :
    ∀ {s : σ} {os : List ο} {s' : σ} {n : ι → Nat}, J s n → Along step C s os →
      run step s os = some s' →
      J s' fun i => n i + tally step (f i) s os := by
  intro s os
  induction os generalizing s with
  | nil =>
      intro s' n hJ _ hrun
      rw [← Option.some.inj hrun]
      exact hJ
  | cons o os ih =>
      intro s' n hJ hC hrun
      obtain ⟨t, ht, hrun'⟩ := run_cons.mp hrun
      have hlast := ih (hstep hJ hC.1 ht) (hC.2 t ht) hrun'
      simpa only [tally_cons ht, Nat.add_assoc] using hlast

end Composable
