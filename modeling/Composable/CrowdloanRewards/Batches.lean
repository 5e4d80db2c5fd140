import Composable.CrowdloanRewards.Payouts

/-!
# `CrowdloanRewards.Batches` — populating more than once

`populate` is documented to add rewards and to be callable several times. It removes all that was
there first, so the last call decides (`populate_again`), and calls in batches leave what one call
would have exactly when the last batch has all remote accounts of the earlier one (`batches_iff`).

Within one call the last entry of a remote account wins (`lookup_insertRewards`), and the totals are
computed from what is stored then, so duplicates count once.
-/

namespace Composable
namespace CrowdloanRewards

variable {A R X : Type} [DecidableEq R] {remote : RemoteAccount R}
variable {rewards a b : List (RemoteAccount R × Nat × Nat)}

/-! ## One call -/

/-- The reward that the last entry of a remote account gives it. -/
def lastReward (rewards : List (RemoteAccount R × Nat × Nat)) (remote : RemoteAccount R) :
    Option Reward :=
  (rewards.reverse.find? fun e => e.1 = remote).map fun e => ⟨e.2.1, 0, e.2.2⟩

/-- **The last entry of a remote account wins.** -/
theorem lookup_insertRewards (rewards : List (RemoteAccount R × Nat × Nat))
    (remote : RemoteAccount R) :
    (insertRewards rewards).lookup remote = lastReward rewards remote := by
  unfold insertRewards lastReward
  rw [← List.foldr_reverse]
  induction rewards.reverse with
  | nil => rfl
  | cons e rest ih =>
      rw [List.foldr_cons, List.find?_cons]
      by_cases hself : e.1 = remote
      · simp [hself]
      · simp only [hself, decide_false]
        rw [AList.lookup_insert_ne (Ne.symm hself), ih]

/-- Later entries come before earlier ones. -/
theorem lastReward_append :
    lastReward (a ++ b) remote = (lastReward b remote).or (lastReward a remote) := by
  unfold lastReward
  rw [List.reverse_append, List.find?_append, Option.map_or]

theorem lastReward_isSome :
    (lastReward rewards remote).isSome = true ↔ ∃ e ∈ rewards, e.1 = remote := by
  unfold lastReward
  simp

/-- Nothing of the earlier list is left exactly when all of its remote accounts are in the later
    one. -/
theorem insertRewards_append_iff :
    (∀ remote, (insertRewards b).lookup remote = (insertRewards (a ++ b)).lookup remote) ↔
      ∀ e ∈ a, ∃ e' ∈ b, e'.1 = e.1 := by
  simp only [lookup_insertRewards, lastReward_append]
  constructor
  · intro h e he
    have hearlier : (lastReward a e.1).isSome = true := lastReward_isSome.mpr ⟨e, he, rfl⟩
    apply lastReward_isSome.mp
    rw [h e.1, Option.isSome_or, hearlier, Bool.or_true]
  · intro h remote
    cases hlater : lastReward b remote with
    | some reward => rfl
    | none =>
        rw [Option.none_or, eq_comm, ← Option.not_isSome_iff_eq_none, lastReward_isSome]
        rintro ⟨e, he, rfl⟩
        obtain ⟨e', he', hsame⟩ := h e he
        have hsome : (lastReward b e.1).isSome = true := lastReward_isSome.mpr ⟨e', he', hsame⟩
        rw [hlater] at hsome
        cases hsome

/-! ## Several calls -/

variable {cfg : Config A R X} {origin : RawOrigin A} {s : State A R X}

/-- What a call that is not refused stores. -/
def State.populated (s : State A R X) (rewards : List (RemoteAccount R × Nat × Nat)) : State A R X :=
  { s with
    rewards := insertRewards rewards
    totalRewards := sumTotals (insertRewards rewards)
    totalContributors := min (insertRewards rewards).entries.length (2 ^ 32 - 1) }

/-- The call is by the admin, and the vesting has not started. -/
def Populates (cfg : Config A R X) (origin : RawOrigin A) (s : State A R X) : Prop :=
  cfg.adminOrigin origin = true ∧ s.vestingBlockStart = none

theorem dispatch_populate (rewards : List (RemoteAccount R × Nat × Nat)) :
    (Populates cfg origin s → dispatch (populate cfg origin rewards) s = s.populated rewards) ∧
      (¬ Populates cfg origin s → dispatch (populate cfg origin rewards) s = s) := by
  have houtcome : Call.Outcome (fun _ t => Populates cfg origin s ∧ t = s.populated rewards)
      (fun _ t => ¬ Populates cfg origin s ∧ t = s) (populate cfg origin rewards s) := by
    simp only [populate, ensureAdmin, doPopulate, Call.outcome_transactional, Call.outcome_bind,
      Call.outcome_ensure, Call.get_bind, Call.outcome_modify]
    refine ⟨fun hadmin => ⟨fun hnone => ⟨⟨hadmin, hnone⟩, rfl⟩,
      fun hstarted => ⟨fun h => hstarted h.2, ?_⟩⟩, fun hnot => ⟨fun h => hnot h.1, ?_⟩⟩
    · trivial
    · trivial
  unfold dispatch
  rcases hcall : populate cfg origin rewards s with ⟨e | u, t⟩
  · rw [hcall] at houtcome
    obtain ⟨hnot, rfl⟩ := houtcome
    refine ⟨fun h => absurd h hnot, fun _ => ?_⟩
    cases e <;> rfl
  · rw [hcall] at houtcome
    obtain ⟨hpopulates, rfl⟩ := houtcome
    exact ⟨fun _ => rfl, fun h => absurd hpopulates h⟩

/-- What stays from a call for another one: nothing. -/
theorem populate_again (hpopulates : Populates cfg origin s) :
    dispatch (populate cfg origin b) (dispatch (populate cfg origin a) s) = s.populated b := by
  have hstill : Populates cfg origin (s.populated a) := hpopulates
  rw [(dispatch_populate a).1 hpopulates, (dispatch_populate b).1 hstill]
  rfl

/-- The two states hold the same rewards and the same totals of them. -/
structure SameRewards (s s' : State A R X) : Prop where
  lookup : ∀ remote, s.rewards.lookup remote = s'.rewards.lookup remote
  totalRewards : s.totalRewards = s'.totalRewards
  totalContributors : s.totalContributors = s'.totalContributors

/-- The totals are those of what is stored. -/
theorem sameRewards_populated :
    SameRewards (s.populated a) (s.populated b) ↔
      ∀ remote, (insertRewards a).lookup remote = (insertRewards b).lookup remote := by
  constructor
  · intro h
    exact h.lookup
  · intro h
    refine ⟨h, ?_, ?_⟩
    · show sumTotals (insertRewards a) = sumTotals (insertRewards b)
      rw [sumTotals_eq, sumTotals_eq, rewardSum, rewardSum, StorageMap.total_eq_of_lookup h]
    · show min _ _ = min _ _
      rw [(StorageMap.entries_perm h).length_eq]

/-- **Populating in batches is populating at once exactly when the last batch names all remote
    accounts again** (or no call populates). A single call stores the last entry of each remote
    account, with the saturating sum and the number of what is stored. -/
theorem batches_iff (cfg : Config A R X) (origin : RawOrigin A) (s : State A R X)
    (a b : List (RemoteAccount R × Nat × Nat)) :
    (SameRewards (dispatch (populate cfg origin b) (dispatch (populate cfg origin a) s))
        (dispatch (populate cfg origin (a ++ b)) s) ↔
      (Populates cfg origin s → ∀ e ∈ a, ∃ e' ∈ b, e'.1 = e.1)) ∧
    (Populates cfg origin s → ∃ s', dispatch (populate cfg origin a) s = s' ∧
      (∀ remote, s'.rewards.lookup remote = lastReward a remote) ∧
      s'.totalRewards = Fixed.saturated (rewardSum s'.rewards) ∧
      s'.totalContributors = min s'.rewards.entries.length (2 ^ 32 - 1)) := by
  constructor
  -- If no call populates, both sides are the state before.
  · by_cases hpopulates : Populates cfg origin s
    · rw [populate_again hpopulates, (dispatch_populate (a ++ b)).1 hpopulates, sameRewards_populated,
        insertRewards_append_iff]
      exact ⟨fun h _ => h, fun h => h hpopulates⟩
    · rw [(dispatch_populate a).2 hpopulates, (dispatch_populate b).2 hpopulates,
        (dispatch_populate (a ++ b)).2 hpopulates]
      exact ⟨fun _ h => absurd h hpopulates, fun _ => ⟨fun _ => rfl, rfl, rfl⟩⟩
  · intro hpopulates
    exact ⟨_, (dispatch_populate a).1 hpopulates, lookup_insertRewards a, sumTotals_eq _, rfl⟩

/-- The reward of the first batch is gone after the second. -/
theorem batches_lose :
    ¬ ∀ (s : State Nat Nat Nat) (a b : List (RemoteAccount Nat × Nat × Nat)),
      SameRewards (dispatch (populate sample .root b) (dispatch (populate sample .root a) s))
        (dispatch (populate sample .root (a ++ b)) s) := by
  intro h
  have hsame :=
    (h (State.genesis Ledger.empty) [(.relayChain 1, 100, 40)] [(.relayChain 2, 50, 10)]).totalRewards
  revert hsame
  decide

end CrowdloanRewards
end Composable
