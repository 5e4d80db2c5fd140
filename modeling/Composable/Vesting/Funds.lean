import Composable.Vesting.Claims

/-!
# `Vesting.Funds` — money under the lock

A lock is meant to be over money that is there. Genesis and an update ask for it: the free balance
has to cover the totals. A vested transfer does not ask, because the transfer brings the new total
along, and it does unless it is one to oneself; then the lock grows and the balance does not
(`vestedTransfer_covered_iff`).

An update asks for a sum that wraps around. So the lock that it writes is the sum of
the totals exactly when that is a balance (`update_locks_total_iff`); and nothing is
written at all for a sum of zero.
-/

namespace Composable
namespace Vesting

open VestingSchedule

variable {A X : Type} [DecidableEq A] [DecidableEq X] {s s' : State A X} {now : Nat}
  {source dest who : A} {asset : X}
variable {schedule : VestingSchedule} {u : Unit}

/-! ## Vested transfers -/

theorem setLock_locks {cfg : Config A X} {amount : Nat}
    (h : setLock cfg asset who amount s = (.ok u, s')) :
    s'.locks asset who = if amount = 0 then s.locks asset who else amount := by
  rw [setLock_writes h]
  by_cases hzero : amount = 0
  · simp [hzero]
  · simp [hzero]

/-- The lock after a vested transfer is over what was locked and the new total. -/
theorem vestedTransfer_locks {cfg : Config A X}
    (h : vestedTransfer cfg now asset source dest schedule s = (.ok u, s')) :
    s'.ledger = s.ledger.move asset source dest schedule.total ∧
      s'.locks asset dest = if s.lockedAt now dest asset + schedule.total = 0 then s.locks asset dest
        else s.lockedAt now dest asset + schedule.total := by
  simp only [vestedTransfer, Call.transactional_ok, Call.bind_ok, Call.ensure_ok, Call.get_bind,
    Call.modify_ok] at h
  obtain ⟨amount, t₀, hvalid, locked, t, hlocked, _, _, ⟨-, rfl⟩, _, _, htransfer, _, t', hlock, _,
    _, ⟨-, rfl⟩, rfl⟩ := h
  obtain ⟨hsame, -, htotal, -⟩ := ensureValidVestingSchedule_ok hvalid
  obtain rfl : s = t₀ := hsame.symm
  have hamount : schedule.total = amount := by rw [VestingSchedule.total, htotal, Option.getD_some]
  obtain ⟨result, hretained⟩ :
      ∃ result, retainLocked now 0 (s.vestingSchedules dest asset) = some result := by
    simp only [lockedBalance, Call.get_bind, Call.bind_ok, Call.ofOption_ok] at hlocked
    obtain ⟨result, _, ⟨hresult, -⟩, -⟩ := hlocked
    exact ⟨result, hresult⟩
  rw [lockedBalance_retained hretained] at hlocked
  cases hlocked
  obtain rfl := transfer_ok htransfer
  refine ⟨?_, ?_⟩
  · rw [hamount]
    exact (setLock_ok hlock).1
  · rw [hamount]
    have hwritten := setLock_locks hlock
    exact hwritten

/-- **Money for the new lock.** Where the free balance of the recipient covered the lock, it covers
    the new one after a vested transfer exactly if there is none, or it covered what is locked and,
    in a transfer to oneself, the new total as well. Where the lock covers what is locked, only a
    transfer to oneself can lack the money. -/
theorem vestedTransfer_covered_iff (cfg : Config A X)
    (hcovers : s.locks asset dest ≤ s.ledger.free asset dest)
    (h : vestedTransfer cfg now asset source dest schedule s = (.ok u, s')) :
    (s'.locks asset dest ≤ s'.ledger.free asset dest ↔
      s.lockedAt now dest asset + schedule.total = 0 ∨
        s.lockedAt now dest asset + (if source = dest then schedule.total else 0) ≤
          s.ledger.free asset dest) ∧
      (s.lockedAt now dest asset ≤ s.locks asset dest →
        (s'.locks asset dest ≤ s'.ledger.free asset dest ↔
          source ≠ dest ∨ s.lockedAt now dest asset + schedule.total ≤
            s.ledger.free asset dest)) := by
  obtain ⟨hledger, hlock⟩ := vestedTransfer_locks h
  have hfree : s'.ledger.free asset dest =
      s.ledger.free asset dest + if source = dest then 0 else schedule.total := by
    rw [hledger]
    split
    next hself => rw [hself, Ledger.move_self, Nat.add_zero]
    next hother => exact Ledger.free_move_to hother
  rw [hfree, hlock]
  -- To oneself nothing is moved, and yet the lock grows.
  by_cases hself : source = dest
  · simp only [hself, if_true, ne_eq, not_true_eq_false, false_or]
    split <;> omega
  · simp only [hself, if_false, ne_eq, not_false_eq_true, true_or, iff_true]
    split <;> omega

/-- Account `2` vests sixty for account `1`. -/
theorem vestedTransfer_covered_sample :
    ∃ s', vestedTransfer sample 0 0 2 1 ⟨0, 10, 2, 30⟩
        { vestedSample with ledger := Ledger.ofList [(0, 1, 100), (0, 2, 100)] } = (.ok (), s') ∧
      s'.locks 0 1 ≤ s'.ledger.free 0 1 := by
  have hcall : ∃ s', vestedTransfer sample 0 0 2 1 ⟨0, 10, 2, 30⟩
      { vestedSample with ledger := Ledger.ofList [(0, 1, 100), (0, 2, 100)] } = (.ok (), s') :=
        ⟨_, rfl⟩
  obtain ⟨s', hs'⟩ := hcall
  have hcovered := (vestedTransfer_covered_iff sample (by decide) hs').2
  exact ⟨s', hs', (hcovered (by decide)).mpr (.inl (by decide))⟩

/-- Account `1`, with a hundred under a lock of a hundred, vests sixty for itself: the lock is
    over a hundred and sixty. -/
theorem vestedTransfer_overlocks :
    vestedSample.locks 0 1 ≤ vestedSample.ledger.free 0 1 ∧
      ∃ s', vestedTransfer sample 0 0 1 1 ⟨0, 10, 2, 30⟩ vestedSample = (.ok (), s') ∧
        s'.ledger.free 0 1 = 100 ∧ s'.locks 0 1 = 160 := by
  exact ⟨by decide, _, rfl, by decide, by decide⟩

/-! ## Updates -/

/-- The totals together, of schedules that are valid. -/
theorem totalSum_eq {schedules : List VestingSchedule} {maxBlockNumber : Nat}
    (h : ∀ v ∈ schedules, v.Valid maxBlockNumber) :
    totalSum schedules = (schedules.map fun v => v.perPeriod * v.periodCount).sum := by
  rw [totalSum]
  congr 1
  exact List.map_congr_left fun v hv => (totalAmount_eq_some (h v hv).total).2.1

/-- An update with schedules stores them, when all are valid, and locks their wrapped sum. -/
theorem doUpdateVestingSchedules_ok {cfg : PalletConfig A X} {schedules : List VestingSchedule}
    (hne : schedules ≠ []) (h : doUpdateVestingSchedules cfg who asset schedules s = (.ok u, s')) :
    (∀ v ∈ schedules, v.Valid cfg.maxBlockNumber) ∧ s'.ledger = s.ledger ∧
      totalSum schedules % 2 ^ 128 ≤ s.ledger.free asset who ∧
      s'.locks asset who =
        if totalSum schedules % 2 ^ 128 = 0 then
          s.locks asset who else totalSum schedules % 2 ^ 128 := by
  simp only [doUpdateVestingSchedules, Call.bind_ok, Call.ensure_ok, if_neg hne, Call.get_bind,
    Call.modify_ok] at h
  obtain ⟨_, t₀, ⟨-, hsame⟩, total, t, htotal, _, t₁, ⟨hle, hsame'⟩, _, t', hlock, rfl⟩ := h
  obtain rfl : s = t₀ := hsame.symm
  obtain rfl : t = t₁ := hsame'.symm
  have hsum : Call.Outcome (fun total t => (∀ v ∈ schedules, v.Valid cfg.maxBlockNumber) ∧
      total = totalSum schedules % 2 ^ 128 ∧ t = s) (fun _ _ => True)
        (totalAmounts cfg 0 schedules s) := by
    refine totalAmounts_outcome (by decide) (fun hvalid => ⟨hvalid, ?_, rfl⟩) fun _ => trivial
    rw [Nat.zero_add]
  obtain ⟨hvalid, rfl, hread⟩ := (Call.outcome_iff.mp hsum).1 total t htotal
  obtain rfl : s = t := hread.symm
  refine ⟨hvalid, ?_, hle, ?_⟩
  · exact (setLock_ok hlock).1
  · have hwritten := setLock_locks hlock
    exact hwritten

/-- **An update locks the true total** exactly when the totals of its schedules are a balance
    together; and a total of zero only where no lock was. -/
theorem update_locks_total_iff (cfg : PalletConfig A X) {schedules : List VestingSchedule}
    (hne : schedules ≠ []) (hbalance : s.ledger.free asset who < 2 ^ 128)
    (h : doUpdateVestingSchedules cfg who asset schedules s = (.ok u, s')) :
    (s'.locks asset who = (schedules.map fun v => v.perPeriod * v.periodCount).sum ∧
        (schedules.map fun v => v.perPeriod * v.periodCount).sum ≤ s'.ledger.free asset who) ↔
      (schedules.map fun v => v.perPeriod * v.periodCount).sum < 2 ^ 128 ∧
        ((schedules.map fun v => v.perPeriod * v.periodCount).sum = 0 → s.locks asset who = 0) := by
  obtain ⟨hvalid, hledger, hle, hlock⟩ := doUpdateVestingSchedules_ok hne h
  rw [hledger, hlock, ← totalSum_eq hvalid]
  constructor
  -- The funds of the account bound the lock, so a sum that wrapped is not the total.
  · rintro ⟨heq, hfunded⟩
    have hfits : totalSum schedules < 2 ^ 128 := by omega
    refine ⟨hfits, fun hzero => ?_⟩
    rw [Nat.mod_eq_of_lt hfits, if_pos hzero, hzero] at heq
    exact heq
  · rintro ⟨hfits, hold⟩
    rw [Nat.mod_eq_of_lt hfits] at hle ⊢
    refine ⟨?_, hle⟩
    split
    next hzero => rw [hzero, hold hzero]
    next => rfl

/-- Two schedules of twenty each, for an account with a hundred. -/
theorem update_locks_total_sample :
    ∃ s', doUpdateVestingSchedules palletSample 1 0
      [⟨0, 10, 2, 10⟩, ⟨5, 10, 4, 5⟩] vestedSample = (.ok (), s') ∧
      s'.locks 0 1 = 40 := by
  obtain ⟨s', hs'⟩ :
      ∃ s', doUpdateVestingSchedules palletSample 1 0 [⟨0, 10, 2, 10⟩, ⟨5, 10, 4, 5⟩] vestedSample =
      (.ok (), s') := ⟨_, rfl⟩
  have hlocks :=
    (update_locks_total_iff palletSample (by decide) (by decide) hs').mpr ⟨by decide, by decide⟩
  exact ⟨s', hs', hlocks.1⟩

/-- Two schedules of half of all balances, and one of ten: ten is locked. -/
theorem update_wraps :
    ∃ s', doUpdateVestingSchedules palletSample 1 0
      [⟨0, 1, 1, 2 ^ 127⟩, ⟨0, 1, 1, 2 ^ 127⟩, ⟨0, 1, 1, 10⟩]
        vestedSample = (.ok (), s') ∧
      s'.locks 0 1 = 10 ∧ s'.ledger.free 0 1 = 100 ∧
      ¬ ([⟨0, 1, 1, 2 ^ 127⟩, ⟨0, 1, 1, 2 ^ 127⟩, ⟨0, 1, 1, 10⟩].map
        fun v : VestingSchedule => v.perPeriod * v.periodCount).sum ≤ s'.ledger.free 0 1 :=
  ⟨_, rfl, by decide, by decide, by decide⟩

end Vesting
end Composable
