import Composable.Vesting.Pallet
import Mathlib.Algebra.BigOperators.Group.List.Basic
import Mathlib.Algebra.Order.BigOperators.Group.List

/-!
# `Vesting.Locks` — the lock covers what is unvested

The lock of an account is written from sums that are computed in four places: over totals in genesis
and in an update, over locked amounts in a claim, over both in a transfer. In between the schedules
decay with the block number while the lock stays. `Covered` is what all of this keeps: stored
schedules are valid, and the lock is at least what they lock now.

A locked amount only falls (`locked_antitone`), and is never above the total of its schedule, so a
lock that covered the totals covers the locked amounts of all later blocks. `lockedBalance_eq`
computes the one loop of the pallet; no `expect` in it can fail on valid schedules.
-/

namespace Composable
namespace Vesting

/-! ## Valid schedules -/

namespace VestingSchedule

/-- What `ensure_valid_vesting_schedule` ensures. -/
structure Valid (maxBlockNumber : Nat) (v : VestingSchedule) : Prop where
  period : v.period ≠ 0
  periodCount : v.periodCount ≠ 0
  ends : (v.end? maxBlockNumber).isSome = true
  total : v.totalAmount.isSome = true

/-- The locked amount at a time, of a schedule on which `locked_amount` does not panic. -/
def locked (v : VestingSchedule) (time : Nat) : Nat := (v.lockedAmount time).getD 0

/-- The total amount of a schedule for which it can be computed. -/
def total (v : VestingSchedule) : Nat := v.totalAmount.getD 0

variable {v : VestingSchedule} {t t' maxBlockNumber : Nat}

theorem totalAmount_eq_some (h : v.totalAmount.isSome = true) :
    v.totalAmount = some v.total ∧ v.total = v.perPeriod * v.periodCount ∧ v.total ≤ u128Max := by
  by_cases hfits : v.perPeriod * v.periodCount ≤ u128Max
  · simp [total, totalAmount, totalAmountIn, hfits]
  · simp [totalAmount, totalAmountIn, hfits] at h

/-- On a valid schedule no `expect` fails. -/
theorem lockedAmount_eq_some (h : v.Valid maxBlockNumber) :
    v.lockedAmount t = some (v.locked t) ∧
      v.locked t = v.perPeriod * (v.periodCount - (t - v.start) / v.period) := by
  obtain ⟨-, htotal, hfits⟩ := totalAmount_eq_some h.total
  have hle : v.perPeriod * (v.periodCount - (t - v.start) / v.period) ≤ u128Max := by
    apply Nat.le_trans (Nat.mul_le_mul_left _ (Nat.sub_le _ _))
    rw [← htotal]
    exact hfits
  simp [locked, lockedAmount, h.period, hle]

/-- What is locked only falls. -/
theorem locked_antitone (h : v.Valid maxBlockNumber) (ht : t ≤ t') : v.locked t' ≤ v.locked t := by
  rw [(lockedAmount_eq_some h).2, (lockedAmount_eq_some h).2]
  apply Nat.mul_le_mul_left
  apply Nat.sub_le_sub_left
  apply Nat.div_le_div_right
  omega

theorem locked_le_total (h : v.Valid maxBlockNumber) : v.locked t ≤ v.total := by
  rw [(lockedAmount_eq_some h).2, (totalAmount_eq_some h.total).2.1]
  apply Nat.mul_le_mul_left
  apply Nat.sub_le

end VestingSchedule

open VestingSchedule

/-- What the schedules lock together. -/
def lockedSum (now : Nat) (schedules : List VestingSchedule) : Nat :=
  (schedules.map fun v => v.locked now).sum

/-- The totals of the schedules together. -/
def totalSum (schedules : List VestingSchedule) : Nat := (schedules.map VestingSchedule.total).sum

section Sums

variable {schedules rest : List VestingSchedule} {now now' start maxBlockNumber : Nat}
  {v : VestingSchedule}

@[simp] theorem lockedSum_nil : lockedSum now [] = 0 := rfl

@[simp] theorem lockedSum_cons : lockedSum now (v :: rest) = v.locked now + lockedSum now rest := by
  simp [lockedSum]

@[simp] theorem lockedSum_append {more : List VestingSchedule} :
    lockedSum now (schedules ++ more) = lockedSum now schedules + lockedSum now more := by
  simp [lockedSum]

@[simp] theorem totalSum_nil : totalSum [] = 0 := rfl

@[simp] theorem totalSum_cons : totalSum (v :: rest) = v.total + totalSum rest := by
  simp [totalSum]

@[simp] theorem totalSum_append {more : List VestingSchedule} :
    totalSum (schedules ++ more) = totalSum schedules + totalSum more := by
  simp [totalSum]

theorem lockedSum_antitone (h : ∀ v ∈ schedules, v.Valid maxBlockNumber) (hle : now ≤ now') :
    lockedSum now' schedules ≤ lockedSum now schedules :=
  List.sum_le_sum fun v hv => locked_antitone (h v hv) hle

theorem lockedSum_le_totalSum (h : ∀ v ∈ schedules, v.Valid maxBlockNumber) :
    lockedSum now schedules ≤ totalSum schedules :=
  List.sum_le_sum fun v hv => locked_le_total (h v hv)

/-- The schedules of which something is locked. -/
def lockedOnly (now : Nat) (schedules : List VestingSchedule) : List VestingSchedule :=
  schedules.filter fun v => v.locked now ≠ 0

/-- Those that are over lock nothing. -/
theorem lockedSum_lockedOnly :
    lockedSum now (lockedOnly now schedules) = lockedSum now schedules := by
  induction schedules with
  | nil => rfl
  | cons v rest ih =>
      by_cases hzero : v.locked now = 0
      · simpa [lockedOnly, hzero] using ih
      · simpa [lockedOnly, hzero] using ih

theorem totalSum_lockedOnly : totalSum (lockedOnly now schedules) ≤ totalSum schedules := by
  induction schedules with
  | nil => exact Nat.le_refl _
  | cons v rest ih =>
      by_cases hzero : v.locked now = 0
      · simp only [lockedOnly, hzero, ne_eq, not_true_eq_false, decide_false, Bool.false_eq_true,
          not_false_eq_true, List.filter_cons_of_neg, totalSum_cons] at ih ⊢
        omega
      · simpa [lockedOnly, hzero] using ih

theorem lockedOnly_eq_nil (h : lockedSum now schedules = 0) : lockedOnly now schedules = [] := by
  induction schedules with
  | nil => rfl
  | cons v rest ih =>
      rw [lockedSum_cons] at h
      have hzero : v.locked now = 0 := by omega
      simpa [lockedOnly, hzero] using ih (by omega)

/-- The loop of `locked_balance` on valid schedules: the sum, and the schedules that go on. -/
theorem retainLocked_eq (h : ∀ v ∈ schedules, v.Valid maxBlockNumber)
    (hfits : start + lockedSum now schedules ≤ u128Max) :
    retainLocked now start schedules = some (start + lockedSum now schedules,
      lockedOnly now schedules) := by
  induction schedules generalizing start with
  | nil => simp [retainLocked, lockedOnly]
  | cons v rest ih =>
      rw [lockedSum_cons, ← Nat.add_assoc] at hfits
      have hv := (lockedAmount_eq_some (t := now) (h v List.mem_cons_self)).1
      have hsum : Fixed.saturated (start + v.locked now) = start + v.locked now := by
        unfold Fixed.saturated
        omega
      have hrest := ih (fun w hw => h w (List.mem_cons_of_mem _ hw)) hfits
      simp only [retainLocked, hv, hsum, hrest, Option.bind_eq_bind, Option.bind_some, lockedSum_cons,
        Nat.add_assoc]
      by_cases hzero : v.locked now = 0
      · simp [lockedOnly, hzero]
      · simp [lockedOnly, hzero]

end Sums

/-! ## The invariant -/

variable {A X : Type} {cfg : PalletConfig A X} {s s' : State A X} {now now' : Nat} {who : A}
  {asset : X}

/-- The totals of an account's schedules are a balance together. -/
def TotalsFit (s : State A X) : Prop := ∀ a x, totalSum (s.vestingSchedules a x) ≤ u128Max

/-- Stored schedules are valid, and the lock covers what they lock. -/
structure Covered (cfg : PalletConfig A X) (now : Nat) (s : State A X) : Prop where
  valid : ∀ a x, ∀ v ∈ s.vestingSchedules a x, v.Valid cfg.maxBlockNumber
  covered : ∀ a x, lockedSum now (s.vestingSchedules a x) ≤ s.locks x a

theorem Covered.empty (ledger : Ledger A X) : Covered cfg now (State.empty ledger) where
  valid _ _ := nofun
  covered _ _ := Nat.zero_le _

/-- Time goes by. -/
theorem Covered.later (h : Covered cfg now s) (hle : now ≤ now') : Covered cfg now' s where
  valid := h.valid
  covered a x := (lockedSum_antitone (h.valid a x) hle).trans (h.covered a x)

theorem Covered.ledger (h : Covered cfg now s) (ledger : Ledger A X) :
    Covered cfg now { s with ledger := ledger } := ⟨h.valid, h.covered⟩

theorem Covered.lockedSum_le (h : Covered cfg now s) (hfits : TotalsFit s) (a : A) (x : X) :
    lockedSum now (s.vestingSchedules a x) ≤ u128Max :=
  (lockedSum_le_totalSum (h.valid a x)).trans (hfits a x)

/-- Only the schedules and the lock of one account in one asset change. -/
theorem Covered.change (h : Covered cfg now s) (who : A) (asset : X)
    (hothers : ∀ a x, ¬ (a = who ∧ x = asset) →
      s'.vestingSchedules a x = s.vestingSchedules a x ∧ s'.locks x a = s.locks x a)
    (hvalid : ∀ v ∈ s'.vestingSchedules who asset, v.Valid cfg.maxBlockNumber)
    (hcovered : lockedSum now (s'.vestingSchedules who asset) ≤ s'.locks asset who) :
    Covered cfg now s' where
  valid a x := by
    by_cases hself : a = who ∧ x = asset
    · obtain ⟨rfl, rfl⟩ := hself
      exact hvalid
    · rw [(hothers a x hself).1]
      exact h.valid a x
  covered a x := by
    by_cases hself : a = who ∧ x = asset
    · obtain ⟨rfl, rfl⟩ := hself
      exact hcovered
    · rw [(hothers a x hself).1, (hothers a x hself).2]
      exact h.covered a x

/-! ## The building blocks -/

section Blocks

variable [DecidableEq A] [DecidableEq X] {amount : Nat} {P : Unit → State A X → Prop}
  {Q : DispatchError Error → State A X → Prop}

/-- The lock of one account in one asset is written. -/
def State.putLock (s : State A X) (asset : X) (who : A) (amount : Nat) : State A X :=
  { s with locks := fun x a => if x = asset ∧ a = who then amount else s.locks x a }

theorem setLock_outcome (hset : P () (if amount = 0 then s else s.putLock asset who amount))
    (herr : ∀ e, Q e s) : Call.Outcome P Q (setLock cfg.toConfig asset who amount s) := by
  simp only [setLock, Call.get_bind]
  cases cfg.lockRefused s.ledger s.locks asset who amount with
  | some e => exact herr _
  | none =>
      by_cases hzero : amount = 0
      · simp only [hzero, if_true] at hset
        simp only [Call.when, hzero, ne_eq, not_true_eq_false, if_false]
        exact hset
      · simp only [hzero, if_false] at hset
        simp only [Call.when, hzero, ne_eq, not_false_eq_true, if_true]
        exact hset

theorem removeLock_outcome (hremove : P () (s.putLock asset who 0)) (herr : ∀ e, Q e s) :
    Call.Outcome P Q (removeLock cfg asset who s) := by
  simp only [removeLock, Call.get_bind]
  cases cfg.removeRefused s.ledger s.locks asset who with
  | some e => exact herr _
  | none => exact hremove

omit [DecidableEq A] [DecidableEq X] in
theorem ensureValidVestingSchedule_outcome {schedule : VestingSchedule} {P : Nat → State A X → Prop}
    (hok : schedule.Valid cfg.maxBlockNumber → P schedule.total s) (herr : ∀ e, Q e s) :
    Call.Outcome P Q (ensureValidVestingSchedule cfg.toConfig schedule s) := by
  simp only [ensureValidVestingSchedule, Call.outcome_bind, Call.outcome_ensure,
    Call.outcome_ofOption, Call.outcome_pure]
  refine ⟨fun hperiod =>
    ⟨fun hcount => ⟨fun hend => ⟨fun total htotal => ⟨fun _ => ?_, fun _ => herr _⟩,
    fun _ => herr _⟩, fun _ => herr _⟩, fun _ => herr _⟩, fun _ => herr _⟩
  have hsome : schedule.totalAmount.isSome = true := by simp [htotal]
  have hP := hok ⟨hperiod, hcount, hend, hsome⟩
  simpa [VestingSchedule.total, htotal] using hP

omit [DecidableEq A] [DecidableEq X] in
/-- The totals of a list are added up modulo the size of a balance, once all are found valid. -/
theorem totalAmounts_outcome {schedules : List VestingSchedule} {acc : Nat}
    {P : Nat → State A X → Prop} (hacc : acc < 2 ^ 128)
    (hok : (∀ v ∈ schedules, v.Valid cfg.maxBlockNumber) → P ((acc + totalSum schedules) % 2 ^ 128) s)
    (herr : ∀ e, Q e s) : Call.Outcome P Q (totalAmounts cfg acc schedules s) := by
  induction schedules generalizing acc with
  | nil =>
      have hP := hok nofun
      rw [totalSum_nil, Nat.add_zero, Nat.mod_eq_of_lt hacc] at hP
      exact hP
  | cons v rest ih =>
      rw [totalAmounts, Call.outcome_bind]
      refine ensureValidVestingSchedule_outcome (fun hv => ?_) herr
      refine ih (Nat.mod_lt _ (by decide)) fun hrest => ?_
      have hP := hok fun w hw => (List.mem_cons.mp hw).elim (fun heq => heq ▸ hv) (hrest w)
      rwa [totalSum_cons, ← Nat.add_assoc, ← Nat.mod_add_mod] at hP

/-- **`lockedBalance` computes what the stored schedules lock**, and keeps those that still do. -/
theorem lockedBalance_eq (h : Covered cfg now s) (hfits : TotalsFit s) :
    lockedBalance now who asset s =
      (.ok (lockedSum now (s.vestingSchedules who asset)),
        s.putSchedules who asset (lockedOnly now (s.vestingSchedules who asset))) := by
  have hsum : 0 + lockedSum now (s.vestingSchedules who asset) ≤ u128Max := by
    rw [Nat.zero_add]
    exact h.lockedSum_le hfits who asset
  have hkept : (if lockedSum now (s.vestingSchedules who asset) = 0 then []
      else lockedOnly now (s.vestingSchedules who asset)) =
        lockedOnly now (s.vestingSchedules who asset) := by
    split
    · rw [lockedOnly_eq_nil ‹_›]
    · rfl
  simp only [lockedBalance, Call.get_bind, retainLocked_eq (h.valid who asset) hsum, Nat.zero_add,
    Call.ofOption]
  show (Except.ok _, _) = _
  simp only [hkept, State.putSchedules]

/-- Dropping the schedules that are over changes nothing that is covered. -/
theorem Covered.lockedOnly (h : Covered cfg now s) (who : A) (asset : X) :
    Covered cfg now (s.putSchedules who asset (lockedOnly now (s.vestingSchedules who asset))) := by
  refine h.change who asset (fun a x hne => ⟨if_neg hne, rfl⟩) ?_ ?_
  · simp only [State.putSchedules, and_self, if_true]
    intro v hv
    exact h.valid who asset v (List.mem_filter.mp hv).1
  · simp only [State.putSchedules, and_self, if_true, lockedSum_lockedOnly]
    exact h.covered who asset

/-- Dropping schedules frees room for others. -/
theorem TotalsFit.lockedOnly (h : TotalsFit s) (now : Nat) (who : A) (asset : X) :
    TotalsFit (s.putSchedules who asset (lockedOnly now (s.vestingSchedules who asset))) := by
  intro a x
  simp only [State.putSchedules]
  split
  · exact totalSum_lockedOnly.trans (h who asset)
  · exact h a x

/-! ## The calls -/

/-- Both outcomes of a call keep the locks in order. -/
abbrev KeepsCovered (cfg : PalletConfig A X) (now : Nat) {α : Type}
    (r : Except (DispatchError Error) α × State A X) : Prop :=
  Call.Outcome (fun _ s' => TotalsFit s' → Covered cfg now s')
    (fun e s' => e = .panic ∨ (TotalsFit s' → Covered cfg now s')) r

/-- After a claim the lock is exactly what is locked. -/
theorem doClaim_outcome (h : Covered cfg now s) (hfits : TotalsFit s) :
    Call.Outcome (fun _ s' => (Covered cfg now s' ∧ TotalsFit s') ∧
        s'.locks asset who = lockedSum now (s'.vestingSchedules who asset))
      (fun _ s' => Covered cfg now s' ∧ TotalsFit s') (doClaim cfg now who asset s) := by
  have hkept := h.lockedOnly who asset
  have hfits' := hfits.lockedOnly now who asset
  rw [doClaim, Call.bind_of_ok (lockedBalance_eq h hfits)]
  by_cases hzero : lockedSum now (s.vestingSchedules who asset) = 0
  · -- Nothing is locked any more: no schedule is left, and the lock goes.
    rw [if_pos hzero, lockedOnly_eq_nil hzero]
    rw [lockedOnly_eq_nil hzero] at hkept hfits'
    have hsame :
        (s.putSchedules who asset []).putSchedules who asset [] = s.putSchedules who asset [] := by
      simp only [State.putSchedules, State.mk.injEq, true_and]
      funext a x
      split <;> rfl
    simp only [Call.outcome_bind, Call.outcome_modify, hsame, Call.outcome_pure]
    apply removeLock_outcome
    · refine ⟨⟨hkept.change who asset (fun a x hne => ⟨rfl, if_neg fun hself => hne hself.symm⟩) ?_
        ?_, hfits'⟩, ?_⟩
      · simp [State.putLock, State.putSchedules]
      · simp [State.putLock, State.putSchedules]
      · simp [State.putLock, State.putSchedules]
    · exact fun _ => ⟨hkept, hfits'⟩
  · rw [if_neg hzero]
    simp only [Call.outcome_bind, Call.outcome_pure]
    apply setLock_outcome
    · rw [if_neg hzero]
      refine ⟨⟨hkept.change who asset (fun a x hne => ⟨rfl, if_neg fun hself => hne hself.symm⟩) ?_
        ?_, hfits'⟩, ?_⟩
      · exact hkept.valid who asset
      · simp [State.putLock, State.putSchedules, lockedSum_lockedOnly]
      · simp [State.putLock, State.putSchedules, lockedSum_lockedOnly]
    · exact fun _ => ⟨hkept, hfits'⟩

/-- The new schedule locks at most its total, by which the lock has grown. -/
theorem Covered.vested (h : Covered cfg now s) {schedule : VestingSchedule} {amount : Nat}
    (hvalid : schedule.Valid cfg.maxBlockNumber)
    (hamount : amount = lockedSum now (s.vestingSchedules who asset) + schedule.total)
    (hlock : s' = if amount = 0 then s else s.putLock asset who amount) :
    Covered cfg now { s' with
      vestingSchedules := fun a x =>
        if a = who ∧ x = asset then
          s'.vestingSchedules a x ++ [schedule] else s'.vestingSchedules a x } := by
  have hle : schedule.locked now ≤ schedule.total := locked_le_total hvalid
  have hschedules : s'.vestingSchedules = s.vestingSchedules := by
    rw [hlock]
    split <;> rfl
  refine h.change who asset (fun a x hne => ⟨?_, ?_⟩) ?_ ?_
  · simp only [hne, if_false, hschedules]
  · have hne' : ¬ (x = asset ∧ a = who) := fun hself => hne hself.symm
    rw [hlock]
    split <;> simp [State.putLock, hne']
  · simp only [and_self, if_true, hschedules]
    intro v hv
    rcases List.mem_append.mp hv with hold | hnew
    · exact h.valid who asset v hold
    · rw [List.mem_singleton.mp hnew]
      exact hvalid
  · simp only [and_self, if_true, lockedSum_append, lockedSum_cons, lockedSum_nil, hlock]
    split
    · omega
    · simp only [State.putLock, and_self, if_true]
      omega

theorem vestedTransfer_keeps (h : Covered cfg now s) (hfits : TotalsFit s) (source dest : A)
    (schedule : VestingSchedule) :
    KeepsCovered cfg now (vestedTransfer cfg.toConfig now asset source dest schedule s) := by
  unfold KeepsCovered
  rw [vestedTransfer, Call.outcome_transactional, Call.outcome_bind]
  refine ensureValidVestingSchedule_outcome (fun hvalid => ?_) fun _ => .inr fun _ => h
  have hkept := h.lockedOnly dest asset
  rw [Call.bind_of_ok (lockedBalance_eq h hfits)]
  simp only [Call.outcome_bind, Call.outcome_ensure, transfer, Call.get_bind, Call.outcome_zoom,
    Currency.transfer_outcome]
  refine ⟨fun _ => ⟨fun _ => ?_, fun _ _ => .inr fun _ => h⟩, fun _ => .inr fun _ => h⟩
  apply setLock_outcome
  · simp only [Call.outcome_modify]
    refine ⟨fun _ _ => ?_, fun _ => .inr fun _ => h⟩
    refine Covered.vested (hkept.ledger _) hvalid ?_ rfl
    simp [State.putSchedules, lockedSum_lockedOnly]
  · exact fun _ => .inr fun _ => h

/-- New schedules under a lock over all their totals. -/
theorem Covered.replaced (h : Covered cfg now s) {schedules : List VestingSchedule} {total : Nat}
    (hvalid : ∀ v ∈ schedules, v.Valid cfg.maxBlockNumber) (htotal : total = totalSum schedules)
    (hlock : s' = if total = 0 then s else s.putLock asset who total) :
    Covered cfg now (s'.putSchedules who asset schedules) := by
  have hle : lockedSum now schedules ≤ totalSum schedules := lockedSum_le_totalSum hvalid
  refine h.change who asset (fun a x hne => ⟨?_, ?_⟩) ?_ ?_
  · rw [hlock]
    split <;> simp [State.putLock, State.putSchedules, hne]
  · have hne' : ¬ (x = asset ∧ a = who) := fun hself => hne hself.symm
    rw [hlock]
    split <;> simp [State.putLock, State.putSchedules, hne']
  · simp only [State.putSchedules, and_self, if_true]
    exact hvalid
  · simp only [State.putSchedules, and_self, if_true, hlock]
    split
    · omega
    · simp only [State.putLock, and_self, if_true]
      omega

/-- A sum of totals that is a balance did not wrap. -/
theorem totalSum_of_fits {schedules : List VestingSchedule}
    (h : TotalsFit (s.putSchedules who asset schedules)) :
    (0 + totalSum schedules) % 2 ^ 128 = totalSum schedules := by
  have hle := h who asset
  simp only [State.putSchedules, and_self, if_true, u128Max] at hle
  omega

theorem doUpdateVestingSchedules_keeps (h : Covered cfg now s) (schedules : List VestingSchedule) :
    KeepsCovered cfg now (doUpdateVestingSchedules cfg who asset schedules s) := by
  have herr : ∀ e : DispatchError Error, e = .panic ∨ (TotalsFit s → Covered cfg now s) :=
    fun _ => .inr fun _ => h
  simp only [KeepsCovered, doUpdateVestingSchedules, Call.outcome_bind, Call.outcome_ensure]
  refine ⟨fun _ => ?_, fun _ => herr _⟩
  by_cases hnil : schedules = []
  · rw [if_pos hnil]
    have hgone : Covered cfg now (s.putSchedules who asset []) :=
      h.replaced (fun _ hv => absurd hv List.not_mem_nil) (rfl : 0 = totalSum []) rfl
    simp only [Call.outcome_bind, Call.outcome_modify]
    apply removeLock_outcome
    · intro _
      refine hgone.change who asset (fun a x hne => ⟨rfl, if_neg fun hself => hne hself.symm⟩) ?_ ?_
      · exact hgone.valid who asset
      · simp [State.putLock, State.putSchedules]
    · exact fun _ => .inr fun _ => hgone
  · rw [if_neg hnil, Call.outcome_bind]
    refine totalAmounts_outcome (by decide) (fun hvalid => ?_) herr
    simp only [Call.get_bind, Call.outcome_bind, Call.outcome_ensure]
    refine ⟨fun _ => setLock_outcome ?_ herr, fun _ => herr _⟩
    rw [Call.outcome_modify]
    intro hfits
    refine h.replaced hvalid ?_ rfl
    exact totalSum_of_fits hfits

theorem buildItem_keeps (h : Covered cfg now s) (item : ScheduledItem A X) :
    KeepsCovered cfg now (buildItem cfg item s) := by
  have herr : ∀ e : DispatchError Error, e = .panic ∨ (TotalsFit s → Covered cfg now s) :=
    fun _ => .inr fun _ => h
  simp only [KeepsCovered, buildItem, Call.get_bind, Call.outcome_bind, Call.outcome_ensure]
  refine ⟨fun _ => totalAmounts_outcome (by decide) (fun hvalid => ?_) herr, fun _ => .inl trivial⟩
  refine ⟨fun _ => setLock_outcome ?_ herr, fun _ => .inl trivial⟩
  rw [Call.outcome_modify]
  intro hfits
  refine h.replaced hvalid ?_ rfl
  exact totalSum_of_fits hfits

/-! ## Genesis -/

/-- The build only adds schedules. -/
theorem totalSum_buildItem {item : ScheduledItem A X} {u : Unit}
    (h : buildItem cfg item s = (.ok u, s')) (a : A)
    (x : X) : totalSum (s.vestingSchedules a x) ≤ totalSum (s'.vestingSchedules a x) := by
  have hpush : totalSum (s.vestingSchedules a x) ≤ totalSum (if a = item.who ∧ x = item.asset then
      s.vestingSchedules item.who item.asset ++ [item.schedule] else s.vestingSchedules a x) := by
    split
    next hself =>
      rw [hself.1, hself.2, totalSum_append]
      exact Nat.le_add_right _ _
    next => exact Nat.le_refl _
  have hadds : Call.Outcome
      (fun _ s' => totalSum (s.vestingSchedules a x) ≤ totalSum (s'.vestingSchedules a x))
        (fun _ _ => True)
      (buildItem cfg item s) := by
    simp only [buildItem, Call.get_bind, Call.outcome_bind, Call.outcome_ensure,
      implies_true, and_true]
    refine fun _ => totalAmounts_outcome (by decide) (fun _ => ?_) fun _ => trivial
    refine fun _ => setLock_outcome ?_ fun _ => trivial
    rw [Call.outcome_modify]
    split
    · exact hpush
    · exact hpush
  exact (Call.outcome_iff.mp hadds).1 u s' h

theorem totalSum_genesisBuild {vesting : List (ScheduledItem A X)} {u : Unit}
    (h : genesisBuild cfg vesting s = (.ok u, s')) (a : A) (x : X) :
    totalSum (s.vestingSchedules a x) ≤ totalSum (s'.vestingSchedules a x) := by
  induction vesting generalizing s with
  | nil =>
      obtain ⟨-, rfl⟩ := Call.pure_ok.mp h
      exact Nat.le_refl _
  | cons item rest ih =>
      obtain ⟨_, t, hitem, hrest⟩ := Call.bind_ok.mp h
      exact (totalSum_buildItem hitem a x).trans (ih hrest)

/-- **Genesis locks what it schedules.** -/
theorem Covered.genesisBuild {vesting : List (ScheduledItem A X)} {u : Unit} (h : Covered cfg now s)
    (hfits : TotalsFit s') (hbuild : genesisBuild cfg vesting s = (.ok u, s')) :
    Covered cfg now s' := by
  induction vesting generalizing s with
  | nil =>
      obtain ⟨-, rfl⟩ := Call.pure_ok.mp hbuild
      exact h
  | cons item rest ih =>
      obtain ⟨_, t, hitem, hrest⟩ := Call.bind_ok.mp hbuild
      -- The totals after this item are below those at the end, which fit.
      have ht : TotalsFit t := fun a x => (totalSum_genesisBuild hrest a x).trans (hfits a x)
      exact ih ((Call.outcome_iff.mp (buildItem_keeps h item)).1 _ t hitem ht) hrest

/-! ## Runs -/

omit [DecidableEq A] [DecidableEq X] in
/-- A call that keeps the locks in order, behind a check of its origin or its accounts. -/
theorem Covered.dispatch {α : Type} {x : VestingCall A X α} (h : Covered cfg now s)
    (hcall : KeepsCovered cfg now (x s)) (hfits : TotalsFit (dispatch x s)) :
    Covered cfg now (dispatch x s) := by
  refine dispatch_of_outcome (I := fun s' => TotalsFit s' → Covered cfg now s') (fun _ => h)
    hcall hfits

theorem doClaim_keeps (h : Covered cfg now s) (hfits : TotalsFit s) :
    KeepsCovered cfg now (doClaim cfg now who asset s) := by
  obtain ⟨hok, herr⟩ := Call.outcome_iff.mp (doClaim_outcome h hfits)
  exact Call.outcome_iff.mpr ⟨fun _ _ hs' _ => (hok _ _ hs').1.1,
    fun _ _ hs' => .inr fun _ => (herr _ _ hs').1⟩

/-- **Every step keeps the locks in order**, as long as the totals fit. -/
theorem Covered.step {c c' : Chain A X} {op : Op A X} (h : Covered cfg c.now c.pallet)
    (hfits : TotalsFit c.pallet)
    (hfits' : TotalsFit c'.pallet) (hstep : step cfg c op = some c') :
    Covered cfg c'.now c'.pallet := by
  have herr : ∀ e : DispatchError Error, e = .panic ∨
      (TotalsFit c.pallet → Covered cfg c.now c.pallet) :=
    fun _ => .inr fun _ => h
  cases op with
  | claim origin asset =>
      obtain rfl := Option.some.inj hstep
      refine h.dispatch ?_ hfits'
      simp only [KeepsCovered, claim, Call.outcome_bind, ensureSigned_outcome, Call.outcome_pure]
      exact ⟨fun who _ => doClaim_keeps h hfits, fun _ => herr _⟩
  | claimFor origin dest asset =>
      obtain rfl := Option.some.inj hstep
      refine h.dispatch ?_ hfits'
      simp only [KeepsCovered, claimFor, Call.outcome_bind, ensureSigned_outcome,
        Call.outcome_ofOption, Call.outcome_pure]
      exact ⟨fun _ _ => ⟨fun who _ => doClaim_keeps h hfits, fun _ => herr _⟩, fun _ => herr _⟩
  | vestedTransfer origin dest asset schedule =>
      obtain rfl := Option.some.inj hstep
      refine h.dispatch ?_ hfits'
      simp only [KeepsCovered, vestedTransferExtrinsic, Call.outcome_bind, Call.outcome_ofOption]
      exact ⟨fun source _ => ⟨fun dest _ => vestedTransfer_keeps h hfits source dest schedule,
        fun _ => herr _⟩, fun _ => herr _⟩
  | updateVestingSchedules origin who asset schedules =>
      obtain rfl := Option.some.inj hstep
      refine h.dispatch ?_ hfits'
      simp only [KeepsCovered, updateVestingSchedules, Call.outcome_bind, ensureRoot_outcome,
        Call.outcome_ofOption]
      exact ⟨fun _ => ⟨fun account _ => doUpdateVestingSchedules_keeps h schedules,
        fun _ => herr _⟩, fun _ => herr _⟩
  | elsewhere ledger =>
      obtain rfl := Option.some.inj hstep
      exact h.ledger ledger
  | block now =>
      obtain ⟨hle, hc'⟩ := Option.ite_none_right_eq_some.mp hstep
      obtain rfl := Option.some.inj hc'
      exact h.later hle

/-- What holds of the locks in a state of the chain. -/
structure LocksCover (cfg : PalletConfig A X) (c : Chain A X) : Prop where
  valid : ∀ a x, ∀ v ∈ c.pallet.vestingSchedules a x, v.Valid cfg.maxBlockNumber
  covered : ∀ a x, lockedSum c.now (c.pallet.vestingSchedules a x) ≤ c.pallet.locks x a
  /-- Right after a claim the lock is what is locked. -/
  claimed : ∀ who asset s', claim cfg c.now (.signed who) asset c.pallet = (.ok (), s') →
    s'.locks asset who = lockedSum c.now (s'.vestingSchedules who asset)
  claimedFor :
    ∀ origin who asset s', claimFor cfg c.now origin (some who) asset c.pallet = (.ok (), s') →
    s'.locks asset who = lockedSum c.now (s'.vestingSchedules who asset)
  /-- No `expect` of `locked_amount` fails, at any time. -/
  computable : ∀ a x, ∀ v ∈ c.pallet.vestingSchedules a x, ∀ t, (v.lockedAmount t).isSome = true
  /-- Nor does a claim, when the currency does not panic. -/
  noPanic : (∀ l locks x a n, cfg.lockRefused l locks x a n ≠ some .panic) →
    (∀ l locks x a, cfg.removeRefused l locks x a ≠ some .panic) →
    ∀ who asset, (doClaim cfg c.now who asset).Avoids .panic c.pallet

theorem doClaim_avoids_panic (h : Covered cfg now s) (hfits : TotalsFit s)
    (hset : ∀ l locks x a n, cfg.lockRefused l locks x a n ≠ some .panic)
    (hremove : ∀ l locks x a, cfg.removeRefused l locks x a ≠ some .panic) (who : A) (asset : X) :
    (doClaim cfg now who asset).Avoids .panic s := by
  have hmap : ∀ e : DispatchError Empty, e ≠ .panic →
      (e.map Empty.elim : DispatchError Error) ≠ .panic := by
    intro e he
    cases e with
    | panic => exact absurd rfl he
    | module e => exact e.elim
    | _ => exact nofun
  unfold doClaim
  refine .bind ?_ fun locked t _ => ?_
  · rw [Call.Avoids, lockedBalance_eq h hfits]
    exact nofun
  · split
    · refine .bind (.modify _) fun _ t _ => .bind (.get_bind ?_) fun _ _ _ => .pure _
      cases hrefused : cfg.removeRefused t.ledger t.locks asset who with
      | none => exact .modify _
      | some e => exact .fail (hmap e fun he => hremove _ _ _ _ (he ▸ hrefused))
    · refine .bind (.get_bind ?_) fun _ _ _ => .pure _
      cases hrefused : cfg.lockRefused t.ledger t.locks asset who locked with
      | none => exact .when (.modify _)
      | some e => exact .fail (hmap e fun he => hset _ _ _ _ _ (he ▸ hrefused))

theorem Covered.locksCover {c : Chain A X} (h : Covered cfg c.now c.pallet)
    (hfits : TotalsFit c.pallet) : LocksCover cfg c where
  valid := h.valid
  covered := h.covered
  claimed who asset s' hclaim := by
    simp only [claim, Call.bind_ok, ensureSigned_ok, Call.pure_ok] at hclaim
    obtain ⟨_, _, ⟨hwho, rfl⟩, locked, _, hdo, -, rfl⟩ := hclaim
    cases hwho
    exact ((Call.outcome_iff.mp (doClaim_outcome h hfits)).1 locked _ hdo).2
  claimedFor origin who asset s' hclaim := by
    simp only [claimFor, Call.bind_ok, ensureSigned_ok, Call.ofOption_ok, Call.pure_ok] at hclaim
    obtain ⟨_, _, ⟨-, rfl⟩, _, _, ⟨hwho, rfl⟩, locked, _, hdo, -, rfl⟩ := hclaim
    obtain rfl := Option.some.inj hwho
    exact ((Call.outcome_iff.mp (doClaim_outcome h hfits)).1 locked _ hdo).2
  computable a x v hv t := by
    rw [(lockedAmount_eq_some (h.valid a x v hv)).1]
    rfl
  noPanic hset hremove := doClaim_avoids_panic h hfits hset hremove

/-- **Vesting locks always cover what is unvested**: after any calls at any blocks, from any
    genesis that builds, as long as the totals of the schedules of an account in an asset
    are a balance together. -/
theorem locks_cover (cfg : PalletConfig A X) (ledger : Ledger A X)
    (vesting : List (ScheduledItem A X))
    (hgenesis : genesisBuild cfg vesting (State.empty ledger) = (.ok (), s)) (ops : List (Op A X))
    {c : Chain A X} (hfits : Throughout (step cfg) (fun c => TotalsFit c.pallet) ⟨s, now⟩ ops)
    (hrun : run (step cfg) ⟨s, now⟩ ops = some c) : LocksCover cfg c := by
  have hstart : Covered cfg now s ∧ TotalsFit s :=
    ⟨Covered.genesisBuild (.empty ledger) hfits.head hgenesis, hfits.head⟩
  have hend : Covered cfg c.now c.pallet ∧ TotalsFit c.pallet := by
    refine run_invariant (I := fun c => Covered cfg c.now c.pallet ∧
      TotalsFit c.pallet) ?_ hstart hfits.along hrun
    intro c op c' h hop hstep
    exact ⟨h.1.step h.2 (hop c' hstep) hstep, hop c' hstep⟩
  exact hend.1.locksCover hend.2

end Blocks

/-- The sample with a vested transfer for every signer. -/
def palletSample : PalletConfig Nat Nat :=
  { sample with
    vestedTransferOrigin := fun origin => match origin with
      | .signed account => some account
      | _ => none
    removeRefused := fun _ _ _ _ => none }

/-- Account `1` has asset `0` on a schedule from genesis, and claims after the first of two
    periods. -/
def sampleItem : ScheduledItem Nat Nat := ⟨0, 1, ⟨0, 10, 2, 50⟩⟩

/-- The storage that the genesis of this item builds. -/
def vestedSample : State Nat Nat :=
  ((State.empty (Ledger.ofList [(0, 1, 100)])).putLock 0 1 100).putSchedules 1 0 [sampleItem.schedule]

theorem totalsFit_vestedSample : TotalsFit vestedSample := by
  intro a x
  simp only [vestedSample, State.putSchedules]
  split
  · decide
  · exact Nat.zero_le _

/-- A claim keeps the totals of the sample a balance. -/
theorem totalsFit_claimSample :
    TotalsFit (dispatch (claim palletSample 10 (.signed 1) 0) vestedSample) := by
  have hgenesis : genesisBuild palletSample [sampleItem] (State.empty (Ledger.ofList [(0, 1, 100)])) =
      (.ok (), vestedSample) := rfl
  have hstart : Covered palletSample 0 vestedSample :=
    .genesisBuild (.empty _) totalsFit_vestedSample hgenesis
  refine dispatch_of_outcome totalsFit_vestedSample ?_
  simp only [claim, Call.outcome_bind, ensureSigned_outcome, Call.outcome_pure]
  refine ⟨fun who _ => ?_, fun hnone => absurd rfl (hnone 1)⟩
  obtain ⟨hok, herr⟩ :=
    Call.outcome_iff.mp (doClaim_outcome (hstart.later (Nat.zero_le 10)) totalsFit_vestedSample)
  exact Call.outcome_iff.mpr ⟨fun _ _ hs' => (hok _ _ hs').1.2, fun _ _ hs' => .inr (herr _ _ hs').2⟩

theorem locks_cover_sample : ∃ c,
    run (step palletSample) ⟨vestedSample, 0⟩ [.block 10, .claim (.signed 1) 0] = some c ∧
      LocksCover palletSample c := by
  have hgenesis : genesisBuild palletSample [sampleItem] (State.empty (Ledger.ofList [(0, 1, 100)])) =
      (.ok (), vestedSample) := rfl
  have hfits : Throughout (step palletSample) (fun c => TotalsFit c.pallet) ⟨vestedSample, 0⟩
      [.block 10, .claim (.signed 1) 0] := by
    refine ⟨totalsFit_vestedSample, fun c hc => ?_⟩
    obtain rfl := Option.some.inj hc
    refine ⟨totalsFit_vestedSample, fun c hc => ?_⟩
    obtain rfl := Option.some.inj hc
    exact totalsFit_claimSample
  exact ⟨_, rfl, locks_cover palletSample _ _ hgenesis _ hfits rfl⟩

end Vesting
end Composable
