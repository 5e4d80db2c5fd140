import Composable.Support.Fixed
import Composable.Traits.Currency

/-!
# `Vesting.Model` — vested transfers

Embeds the vested transfer of `frame/vesting/src/lib.rs`, with the schedules of
`frame/composable-traits/src/vesting.rs`. A transfer goes through at once, and what is not vested
is locked on the account of the recipient: for each asset one lock, under the id of the pallet,
over the sum of its schedules.

What the currency refuses depends on the locks, so it is a family of currencies. Blocks count up to
`maxBlockNumber`, balances up to `u128::MAX`. Events and weights are left out.
-/

namespace Composable
namespace Vesting

/-! ## Schedules -/

/-- `perPeriod` is granted every `period` blocks after `start`, `periodCount` times. -/
structure VestingSchedule where
  start : Nat
  period : Nat
  periodCount : Nat
  perPeriod : Nat
deriving DecidableEq, Repr

namespace VestingSchedule

/-- The end of all periods, `none` if calculation overflows. -/
def end? (v : VestingSchedule) (maxBlockNumber : Nat) : Option Nat :=
  if v.period * v.periodCount ≤ maxBlockNumber ∧
    v.period * v.periodCount + v.start ≤ maxBlockNumber then
    some (v.period * v.periodCount + v.start)
  else none

/-- All locked amount in balances up to `maxBalance`, `none` if calculation overflows. -/
def totalAmountIn (maxBalance : Nat) (v : VestingSchedule) : Option Nat :=
  if v.perPeriod * v.periodCount ≤ maxBalance then some (v.perPeriod * v.periodCount) else none

/-- All locked amount in the balances of the pallet, which are `u128`. -/
def totalAmount (v : VestingSchedule) : Option Nat := v.totalAmountIn u128Max

/-- The locked amount at a time; `none` is a panic, on a schedule that is not valid. The conversion
    of the quotient to `u32` is left to `lockedAmountIn`: no count of periods exceeds it
    (`lockedAmountIn_u128Max`). -/
def lockedAmount (v : VestingSchedule) (time : Nat) : Option Nat :=
  if v.period = 0 then none
  else
    let full := (time - v.start) / v.period
    let unrealized := v.periodCount - full
    if v.perPeriod * unrealized ≤ u128Max then some (v.perPeriod * unrealized) else none

/-- All is locked at the start. -/
theorem lockedAmount_start {v : VestingSchedule} (h : v.period ≠ 0) :
    v.lockedAmount v.start = v.totalAmount := by
  simp [lockedAmount, totalAmount, totalAmountIn, h]

end VestingSchedule

/-! ## The pallet -/

inductive Error where
  | zeroVestingPeriod
  | zeroVestingPeriodCount
  | insufficientBalanceToLock
  | tooManyVestingSchedules
  | amountLow
  | maxVestingSchedulesExceeded
deriving DecidableEq, Repr

/-- The lock of the pallet, by asset and account; an account without one is not locked. -/
abbrev Locks (A X : Type) : Type := X → A → Nat

structure Config (A X : Type) where
  /-- The currency under the locks of the pallet. -/
  currency : Locks A X → Currency A X
  /-- Its operations take their amounts and nothing else. -/
  currency_exact : ∀ locks, (currency locks).Exact
  /-- What `set_lock` refuses, and with which error. -/
  lockRefused : Ledger A X → Locks A X → X → A → Nat → Option (DispatchError Empty)
  minVestedTransfer : Nat
  maxVestingSchedules : Nat
  maxBlockNumber : Nat

attribute [instance] Config.currency_exact

structure State (A X : Type) where
  ledger : Ledger A X
  locks : Locks A X
  /-- The schedules of an account in an asset; without any the entry is not stored. -/
  vestingSchedules : A → X → List VestingSchedule

/-- A call of the pallet. -/
abbrev VestingCall (A X α : Type) : Type := Call (State A X) (DispatchError Error) α

variable {A X : Type} [DecidableEq A] [DecidableEq X] (cfg : Config A X)

/-- Returns the total, if the schedule is valid. -/
def ensureValidVestingSchedule (schedule : VestingSchedule) : VestingCall A X Nat := do
  Call.ensure (schedule.period ≠ 0) (.module .zeroVestingPeriod)
  Call.ensure (schedule.periodCount ≠ 0) (.module .zeroVestingPeriodCount)
  Call.ensure ((schedule.end? cfg.maxBlockNumber).isSome = true) (.arithmetic .overflow)
  let total ← Call.ofOption schedule.totalAmount (.arithmetic .overflow)
  Call.ensure (cfg.minVestedTransfer ≤ total) (.module .amountLow)
  pure total

/-- The loop of `locked_balance`: add up what is locked, and retain the
    schedules of which something is. -/
def retainLocked (now : Nat) : Nat → List VestingSchedule → Option (Nat × List VestingSchedule)
  | total, [] => some (total, [])
  | total, schedule :: rest => do
      let amount ← schedule.lockedAmount now
      let (total', kept) ← retainLocked now (Fixed.saturated (total + amount)) rest
      pure (total', if amount = 0 then kept else schedule :: kept)

/-- What is locked at block `now`. -/
def lockedBalance (now : Nat) (who : A) (asset : X) : VestingCall A X Nat := do
  let s ← Call.get
  let (total, kept) ← Call.ofOption (retainLocked now 0 (s.vestingSchedules who asset)) .panic
  Call.modify fun s => { s with
    vestingSchedules := fun a x =>
      if a = who ∧ x = asset then (if total = 0 then [] else kept) else s.vestingSchedules a x }
  pure total

/-- `set_lock` under the id of the pallet; nothing happens for an amount of zero. -/
def setLock (asset : X) (who : A) (amount : Nat) : VestingCall A X Unit := do
  let s ← Call.get
  match cfg.lockRefused s.ledger s.locks asset who amount with
  | some e => Call.fail (e.map Empty.elim)
  | none => Call.when (amount ≠ 0) (Call.modify fun s => { s with
      locks := fun x a => if x = asset ∧ a = who then amount else s.locks x a })

/-- A transfer in the currency under the locks. -/
def transfer (asset : X) (source dest : A) (amount : Nat) : VestingCall A X Unit := do
  let s ← Call.get
  Call.zoom State.ledger (fun l s => { s with ledger := l }) .token
    ((cfg.currency s.locks).transfer asset source dest amount false)

/-- `VestedTransfer::vested_transfer`, at block `now`. -/
def vestedTransfer (now : Nat) (asset : X) (source dest : A) (schedule : VestingSchedule) :
    VestingCall A X Unit :=
  Call.transactional do
    let scheduleAmount ← ensureValidVestingSchedule cfg schedule
    let locked ← lockedBalance now dest asset
    Call.ensure (locked + scheduleAmount ≤ u128Max) (.arithmetic .overflow)
    transfer cfg asset source dest scheduleAmount
    setLock cfg asset dest (locked + scheduleAmount)
    let s ← Call.get
    Call.ensure ((s.vestingSchedules dest asset).length < cfg.maxVestingSchedules)
      (.module .maxVestingSchedulesExceeded)
    Call.modify fun s => { s with
      vestingSchedules := fun a x =>
        if a = dest ∧
          x = asset then s.vestingSchedules a x ++ [schedule] else s.vestingSchedules a x }

/-! ## What a vested transfer does -/

variable {cfg} {s s' : State A X} {now : Nat} {asset : X} {source dest who : A}
  {schedule : VestingSchedule} {u : Unit}

section Valid

omit [DecidableEq A] [DecidableEq X]

theorem ensureValidVestingSchedule_ok {amount : Nat}
    (h : ensureValidVestingSchedule cfg schedule s = (.ok amount, s')) :
    s' = s ∧ schedule.period ≠ 0 ∧ schedule.totalAmount = some amount ∧
      cfg.minVestedTransfer ≤ amount := by
  simp only [ensureValidVestingSchedule, Call.bind_ok, Call.ensure_ok, Call.ofOption_ok,
    Call.pure_ok, and_assoc, exists_and_left, exists_eq_left, exists_const] at h
  obtain ⟨hperiod, -, -, total, htotal, hmin, rfl, rfl⟩ := h
  exact ⟨rfl, hperiod, htotal, hmin⟩

end Valid

theorem retainLocked_pos {schedules kept : List VestingSchedule} {start total : Nat}
    (h : retainLocked now start schedules = some (total, kept)) (hstart : start ≠ 0) : total ≠ 0 := by
  induction schedules generalizing start kept with
  | nil =>
      cases h
      exact hstart
  | cons v rest ih =>
      simp only [retainLocked, Option.bind_eq_bind, Option.bind_eq_some_iff] at h
      obtain ⟨amount, -, ⟨total', kept'⟩, hrest, hkept⟩ := h
      cases hkept
      apply ih hrest
      have hmax : u128Max ≠ 0 := by decide
      rw [Fixed.saturated]
      omega

/-- No schedule of which something is locked is dropped. -/
theorem mem_retainLocked {v : VestingSchedule} {schedules kept : List VestingSchedule}
    {start total : Nat}
    (h : retainLocked now start schedules = some (total, kept)) (hv : v ∈ schedules)
    (hlocked : v.lockedAmount now ≠ some 0) : total ≠ 0 ∧ v ∈ kept := by
  induction schedules generalizing start kept with
  | nil => cases hv
  | cons w rest ih =>
      simp only [retainLocked, Option.bind_eq_bind, Option.bind_eq_some_iff] at h
      obtain ⟨amount, hamount, ⟨total', kept'⟩, hrest, hkept⟩ := h
      cases hkept
      rcases List.mem_cons.mp hv with rfl | hv
      · have hpos : amount ≠ 0 := fun hzero => hlocked (hzero ▸ hamount)
        have hmax : u128Max ≠ 0 := by decide
        refine ⟨retainLocked_pos hrest (by rw [Fixed.saturated]; omega), ?_⟩
        rw [if_neg hpos]
        exact List.mem_cons_self
      · obtain ⟨htotal, hmem⟩ := ih hrest hv
        refine ⟨htotal, ?_⟩
        split
        · exact hmem
        · exact List.mem_cons_of_mem _ hmem

theorem lockedBalance_ok {locked : Nat} (h : lockedBalance now who asset s = (.ok locked, s')) :
    s'.ledger = s.ledger ∧ s'.locks = s.locks ∧
      (∀ v ∈ s.vestingSchedules who asset, v.lockedAmount now ≠ some 0 →
        v ∈ s'.vestingSchedules who asset) ∧
      ∀ a x, ¬ (a = who ∧ x = asset) → s'.vestingSchedules a x = s.vestingSchedules a x := by
  simp only [lockedBalance, Call.get_bind, Call.bind_ok, Call.ofOption_ok, Call.modify_ok,
    Call.pure_ok] at h
  obtain ⟨⟨total, kept⟩, _, ⟨hretained, rfl⟩, _, _, rfl, -, rfl⟩ := h
  refine ⟨rfl, rfl, fun v hv hlocked => ?_, fun a x hne => if_neg hne⟩
  obtain ⟨hpos, hkept⟩ := mem_retainLocked hretained hv hlocked
  simp only [and_self, if_true, hpos, if_false]
  exact hkept

theorem transfer_ok {amount : Nat} (h : transfer cfg asset source dest amount s = (.ok u, s')) :
    s' = { s with ledger := s.ledger.move asset source dest amount } := by
  simp only [transfer, Call.get_bind, Call.zoom_ok, Currency.transfer_ok] at h
  obtain ⟨_, ⟨-, rfl⟩, rfl⟩ := h
  rfl

/-- Only the lock is written, and only for an amount. -/
theorem setLock_writes {amount : Nat} (h : setLock cfg asset who amount s = (.ok u, s')) :
    s' = { s with
      locks := fun x a => if amount ≠ 0 ∧ x = asset ∧ a = who then amount else s.locks x a } := by
  simp only [setLock, Call.get_bind] at h
  cases hrefused : cfg.lockRefused s.ledger s.locks asset who amount with
  | some e =>
      simp only [hrefused] at h
      exact absurd h Call.fail_ok
  | none =>
      simp only [hrefused] at h
      rcases Call.when_ok.mp h with ⟨hsome, hlock⟩ | ⟨hzero, rfl⟩
      · simp only [Call.modify_ok.mp hlock, hsome, not_false_eq_true, ne_eq, true_and]
      · simp only [hzero, false_and, if_false]

theorem setLock_ok {amount : Nat} (h : setLock cfg asset who amount s = (.ok u, s')) :
    s'.ledger = s.ledger ∧ s'.vestingSchedules = s.vestingSchedules := by
  rw [setLock_writes h]
  exact ⟨rfl, rfl⟩

/-- **A vested transfer** moves the total of its schedule at once, and adds the schedule to those of
    the recipient. Schedules of which something is locked stay. -/
theorem vestedTransfer_ok (h : vestedTransfer cfg now asset source dest schedule s = (.ok u, s')) :
    (∃ amount, schedule.period ≠ 0 ∧ schedule.totalAmount = some amount ∧
      cfg.minVestedTransfer ≤ amount ∧
      s'.ledger = s.ledger.move asset source dest amount) ∧
        schedule ∈ s'.vestingSchedules dest asset ∧
      ∀ a x v, v ∈ s.vestingSchedules a x → v.lockedAmount now ≠ some 0 →
        v ∈ s'.vestingSchedules a x := by
  simp only [vestedTransfer, Call.transactional_ok, Call.bind_ok, Call.ensure_ok, Call.get_bind,
    Call.modify_ok] at h
  obtain ⟨amount, _, hvalid, locked, t, hlocked, _, _, ⟨-, rfl⟩, _, _, htransfer, _, t', hlock, _,
    _, ⟨-, rfl⟩, rfl⟩ := h
  obtain ⟨rfl, hperiod, htotal, hmin⟩ := ensureValidVestingSchedule_ok hvalid
  obtain ⟨hledger, -, hkept, hothers⟩ := lockedBalance_ok hlocked
  obtain rfl := transfer_ok htransfer
  obtain ⟨hledger', hschedules⟩ := setLock_ok hlock
  refine ⟨⟨amount, hperiod, htotal, hmin, ?_⟩, ?_, fun a x v hv hsome => ?_⟩
  · rw [hledger', hledger]
  · simp only [and_self, if_true, List.mem_append, List.mem_singleton, or_true]
  · simp only [hschedules]
    split
    next hself =>
      obtain ⟨rfl, rfl⟩ := hself
      exact List.mem_append_left _ (hkept v hv hsome)
    next hother =>
      rw [hothers a x hother]
      exact hv

/-! ## A small currency with locks -/

/-- A currency in which what is locked does not leave an account. -/
def lockable (C : Currency A X) (locks : Locks A X) : Currency A X where
  transferRefused l x a b n k :=
    if n ≠ 0 ∧ a ≠ b ∧ l.free x a < n + locks x a then some .frozen else C.transferRefused l x a b n k
  mintRefused := C.mintRefused
  burnRefused l x a n :=
    if n ≠ 0 ∧ l.free x a < n + locks x a then some .frozen else C.burnRefused l x a n
  holdRefused l x a n :=
    if n ≠ 0 ∧ l.free x a < n + locks x a then some .frozen else C.holdRefused l x a n
  withdrawRefused l x a n :=
    if n ≠ 0 ∧ l.free x a < n + locks x a then some .frozen else C.withdrawRefused l x a n
  depositRefused := C.depositRefused
  reducible l x a k := min (l.free x a - locks x a) (C.reducible l x a k)
  reaps := C.reaps
  funded_of_transfer := by
    intro l x a b n k h
    split at h
    · cases h
    · exact C.funded_of_transfer h
  funded_of_burn := by
    intro l x a n h
    split at h
    · cases h
    · exact C.funded_of_burn h
  funded_of_hold := by
    intro l x a n h
    split at h
    · cases h
    · exact C.funded_of_hold h
  reducible_le := (Nat.min_le_right _ _).trans C.reducible_le

instance lockable_exact {C : Currency A X} [h : C.Exact] {locks : Locks A X} :
    (lockable C locks).Exact := ⟨h.spares⟩

/-- Accounts and assets are numbers, and the existential deposit of every asset is one. -/
def sample : Config Nat Nat where
  currency := lockable (Currency.existential fun _ => 1)
  currency_exact _ := inferInstance
  lockRefused _ _ _ _ _ := none
  minVestedTransfer := 10
  maxVestingSchedules := 5
  maxBlockNumber := 2 ^ 32 - 1

end Vesting
end Composable
