import Mathlib.Data.List.Basic

/-!
# `Support.Schedule` — values that change at once or later

A value is replaced at once, or a replacement is scheduled, which takes effect in a later
block unless another one is scheduled before that. `holder` reads off the changes, oldest
first, what the value is in a block.

A record that is brought up to date only when it is used holds the value and at most one scheduled
replacement. `holder_set` and `holder_schedule` are what its correctness rests on: until the newest
replacement takes effect, the value is the one there was when it was scheduled.
-/

namespace Composable

/-- A change of a value: at once, or scheduled in block `at_` with a delay. -/
inductive Change (α : Type) where
  | set (value : α)
  | schedule (at_ delay : Nat) (value : α)
deriving DecidableEq

variable {α : Type}

namespace Change

def value : Change α → α
  | .set value => value
  | .schedule _ _ value => value

/-- The block in which a change was scheduled. -/
def scheduledAt : Change α → Option Nat
  | .set _ => none
  | .schedule at_ _ _ => some at_

/-- In block `n` the change has taken effect, and none of the `later` ones was scheduled before it
    did; `effective` is the block in which a scheduled change takes effect. -/
def InForce (effective : Nat → Nat → Nat) (n : Nat) (later : List (Change α)) : Change α → Prop
  | .set _ => True
  | .schedule at_ delay _ =>
      effective at_ delay ≤ n ∧ ∀ c ∈ later, ∀ b ∈ c.scheduledAt, effective at_ delay ≤ b

instance (effective : Nat → Nat → Nat) (n : Nat) (later : List (Change α)) :
    (c : Change α) → Decidable (c.InForce effective n later)
  | .set _ => inferInstanceAs (Decidable True)
  | .schedule _ _ _ => inferInstanceAs (Decidable (_ ∧ ∀ c ∈ later, ∀ b ∈ c.scheduledAt, _ ≤ b))

end Change

/-- The value in block `n`: that of the last change in force. -/
def holder (effective : Nat → Nat → Nat) (n : Nat) : List (Change α) → Option α
  | [] => none
  | c :: later =>
      (holder effective n later).or (if c.InForce effective n later then some c.value else none)

variable {effective : Nat → Nat → Nat} {n at_ delay : Nat} {v : α} {changes : List (Change α)}

/-- What is set holds at once. -/
theorem holder_set : holder effective n (changes ++ [.set v]) = some v := by
  induction changes with
  | nil => rfl
  | cons c changes ih => rw [List.cons_append, holder, ih, Option.some_or]

/-- A change scheduled in block `at_` leaves those in force that have taken effect by then. -/
theorem Change.inForce_schedule {c : Change α} (hle : at_ ≤ n) :
    c.InForce effective n (changes ++ [.schedule at_ delay v]) ↔ c.InForce effective at_ changes := by
  cases c with
  | set value => exact Iff.rfl
  | schedule b d value =>
      simp only [InForce, List.mem_append, List.mem_singleton, scheduledAt]
      constructor
      · rintro ⟨-, hlater⟩
        exact ⟨hlater _ (.inr rfl) at_ rfl, fun c hc => hlater c (.inl hc)⟩
      · rintro ⟨hdue, hlater⟩
        refine ⟨Nat.le_trans hdue hle, fun c hc => ?_⟩
        rcases hc with hc | rfl
        · exact hlater c hc
        · intro b' hb'
          exact Option.some.inj hb' ▸ hdue

/-- **A scheduled value** holds from the block in which it takes effect; until then the value is
    what it was when it was scheduled. -/
theorem holder_schedule (hle : at_ ≤ n) : holder effective n (changes ++ [.schedule at_ delay v]) =
    if effective at_ delay ≤ n then some v else holder effective at_ changes := by
  induction changes with
  | nil => simp [holder, Change.InForce, Change.value]
  | cons c changes ih =>
      rw [List.cons_append, holder, ih]
      by_cases hdue : effective at_ delay ≤ n
      · rw [if_pos hdue, if_pos hdue, Option.some_or]
      · rw [if_neg hdue, if_neg hdue, if_congr (Change.inForce_schedule hle) rfl rfl, holder]

/-- Once a value was set there is one. -/
theorem holder_of_set (h : .set v ∈ changes) : ∃ w, holder effective n changes = some w := by
  induction changes with
  | nil => cases h
  | cons c changes ih =>
      rw [holder]
      rcases List.mem_cons.mp h with hhead | htail
      · cases hlater : holder effective n changes with
        | none => exact ⟨v, by rw [← hhead]; rfl⟩
        | some w => exact ⟨w, rfl⟩
      · obtain ⟨w, hw⟩ := ih htail
        exact ⟨w, by rw [hw, Option.some_or]⟩

end Composable
