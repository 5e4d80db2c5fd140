import Composable.Mosaic.Custody

/-!
# `Mosaic.Timelock` — when minted funds can be claimed

All that is minted for an account and asset goes into one pending entry with one lock, and every
mint replaces the lock of the entry by its own. `locks_honoured` says that funds are claimed after
the lock they were minted with as long as no mint brings the lock of the entry forward; the run
`earlyOps` mints a little with no lock time and takes out everything.
-/

namespace Composable
namespace Mosaic

variable {A X N R : Type} [DecidableEq A] [DecidableEq X] [DecidableEq N] [DecidableEq R]
variable {cfg : Config A X} {s s' : State A X N R} {op : Op A X N R} {a : A} {x : X}

/-- Something is pending for the account. -/
def Pending (a : A) (x : X) (s : State A X N R) : Prop :=
  (s.incomingTransactions.get a x).isSome = true

/-- A mint onto a pending entry does not bring its lock forward. -/
def KeepsLock (cfg : Config A X) (a : A) (x : X) (s : State A X N R) : Op A X N R → Prop
  | .timelockedMint origin n r to_ amount lockTime =>
      Returns cfg s (.timelockedMint origin n r to_ amount lockTime) → to_ = a →
        s.remoteToLocalAsset.get r n = some x → ∀ tx ∈ s.incomingTransactions.get a x,
          tx.2 ≤ min (s.block + lockTime) cfg.maxBlock
  | _ => True

instance (cfg : Config A X) (a : A) (x : X) (s : State A X N R) :
    (op : Op A X N R) → Decidable (KeepsLock cfg a x s op)
  | .timelockedMint origin n r to_ amount lockTime =>
      inferInstanceAs (Decidable (Returns cfg s (.timelockedMint origin n r to_ amount lockTime) →
        to_ = a → s.remoteToLocalAsset.get r n = some x → ∀ tx ∈ s.incomingTransactions.get a x,
          tx.2 ≤ min (s.block + lockTime) cfg.maxBlock))
  | .setRelayer _ _ | .rotateRelayer _ _ _ | .setNetwork _ _ _ | .setBudget _ _ _ _
  | .setTimelockDuration _ _
  | .updateAssetMapping _ _ _ _ | .transferTo _ _ _ _ _ | .acceptTransfer _ _ _ _ _
  | .claimStaleTo _ _ _
  | .rescindTimelockedMint _ _ _ _ _ | .claimTo _ _ _ | .nextBlock => .isTrue trivial

instance (a : A) (x : X) (s : State A X N R) : Decidable (Pending a x s) :=
  inferInstanceAs (Decidable (_ = true))

/-- The entry is locked at least until the block `until_`. -/
def LockedUntil (cfg : Config A X) (a : A) (x : X) (until_ : Nat) (s : State A X N R) : Prop :=
  s.block ≤ cfg.maxBlock ∧ ∃ balance lock, s.incomingTransactions.get a x = some (balance, lock) ∧
    min until_ cfg.maxBlock ≤ lock

section Step

variable {until_ : Nat} {m : StorageDoubleMap A X (Nat × Nat)}

omit [DecidableEq A] [DecidableEq N] [DecidableEq R] in
/-- Nothing happens to the entry. -/
theorem LockedUntil.of_get (h : LockedUntil cfg a x until_ s) (hblock : s'.block ≤ cfg.maxBlock)
    (hget : s'.incomingTransactions.get a x = s.incomingTransactions.get a x) :
    LockedUntil cfg a x until_ s' := by
  obtain ⟨-, balance, lock, hlock, hle⟩ := h
  exact ⟨hblock, balance, lock, hget.trans hlock, hle⟩

/-- **A step that leaves something pending and does not bring the lock forward keeps it.** -/
theorem LockedUntil.step (h : LockedUntil cfg a x until_ s) (hkeeps : KeepsLock cfg a x s op)
    (hpending : Pending a x s') (hstep : step cfg s op = some s') :
    LockedUntil cfg a x until_ s' := by
  obtain ⟨hblock, balance, lock, hget, hle⟩ := h
  have hsame : LockedUntil cfg a x until_ s := ⟨hblock, balance, lock, hget, hle⟩
  cases step_effect hstep with
  | @minted origin n r to_ amount lockTime _ hcall =>
      have hreturns : Returns cfg s (.timelockedMint origin n r to_ amount lockTime) :=
        returns_iff.mpr ⟨_, hcall⟩
      obtain ⟨y, info, hy, -, -, -, rfl⟩ := timelockedMint_ok hcall
      by_cases hay : a = to_ ∧ x = y
      · obtain ⟨rfl, rfl⟩ := hay
        have hlater := hkeeps hreturns rfl hy (balance, lock) hget
        refine ⟨hblock, Fixed.saturated (pendingIn s.incomingTransactions a x + amount),
          min (s.block + lockTime) cfg.maxBlock, ?_, Nat.le_trans hle hlater⟩
        rw [State.minted, StorageDoubleMap.get_put, if_pos ⟨rfl, rfl⟩]
      · refine hsame.of_get hblock ?_
        rw [State.minted, StorageDoubleMap.get_put, if_neg hay]
  | @rescinded origin n r b amount _ hcall =>
      obtain ⟨y, balance', lock', -, htx, -, rfl⟩ := rescindTimelockedMint_ok hcall
      by_cases hay : a = b ∧ x = y
      · obtain ⟨rfl, rfl⟩ := hay
        obtain ⟨rfl, rfl⟩ := Prod.mk.inj (Option.some.inj (hget.symm.trans htx))
        unfold Pending at hpending
        -- An entry that is still there was rescinded in part, which leaves its lock alone.
        by_cases hwiped : balance = amount
        · simp only [if_pos hwiped, StorageDoubleMap.get_remove, and_self, if_true] at hpending
          cases hpending
        · refine ⟨hblock, balance - amount, lock, ?_, hle⟩
          simp only [if_neg hwiped, StorageDoubleMap.get_put, and_self, if_true]
      · refine hsame.of_get hblock ?_
        show StorageDoubleMap.get (if balance' = amount then _ else _) a x = _
        split
        · rw [StorageDoubleMap.get_remove, if_neg hay]
        · rw [StorageDoubleMap.get_put, if_neg hay]
  | claimed hcall =>
      obtain ⟨caller, balance', lock', rfl, -, -, -, rfl⟩ := claimTo_ok hcall
      rename_i y to_
      by_cases hay : a = caller ∧ x = y
      · unfold Pending at hpending
        rw [StorageDoubleMap.get_remove, if_pos hay] at hpending
        cases hpending
      · refine hsame.of_get hblock ?_
        rw [StorageDoubleMap.get_remove, if_neg hay]
  | advanced hlt => exact ⟨hlt, balance, lock, hget, hle⟩
  | sent hcall =>
      obtain ⟨_, _, -, -, rfl⟩ := transferTo_ok hcall
      exact hsame
  | accepted hcall =>
      obtain ⟨_, _, _, -, -, -, -, rfl⟩ := acceptTransfer_ok hcall
      exact hsame
  | returned hcall =>
      obtain ⟨_, _, _, -, -, -, -, rfl⟩ := claimStaleTo_ok hcall
      exact hsame
  | @mapped _ y n remote _ =>
      obtain ⟨toRemote, toLocal, hmapped⟩ := mapAsset_eq s y n remote
      rw [hmapped]
      exact hsame
  | failed _ => exact hsame
  | governed _ _ _ _ => exact hsame
  | budgeted => exact hsame

end Step

/-! ## Runs -/

/-- **Time locks are honoured as long as no mint brings the lock of the entry forward**: what a mint
    put into the pending entry is paid out, if it is still there, after its own lock. -/
theorem locks_honoured {ledger : Ledger A X} {before between : List (Op A X N R)}
    {s₁ s₂ s₃ : State A X N R}
    {origin : RawOrigin A} {n : N} {r : R} {amount lockTime : Nat} {to_ : A}
    (hbefore : run (step cfg) (State.genesis ledger) before = some s)
    (hasset : s.remoteToLocalAsset.get r n = some x)
    (hmint : timelockedMint cfg origin n r a amount lockTime s = (.ok (), s₁))
    (hbetween : run (step cfg) s₁ between = some s₂)
    (hpending : Throughout (step cfg) (Pending a x) s₁ between)
    (hkeeps : Along (step cfg) (KeepsLock cfg a x) s₁ between)
    (hclaim : claimTo cfg (.signed a) x to_ s₂ = (.ok (), s₃)) :
    s.block + lockTime < s₂.block := by
  have hblock : s.block ≤ cfg.maxBlock :=
    run_invariant (C := fun _ _ => True) (I := fun s : State A X N R => s.block ≤ cfg.maxBlock)
      (fun hs _ hstep => by
        have hpass := step_block hstep
        omega) (Nat.zero_le _) (along_true _ _) hbefore
  obtain ⟨y, info, hy, -, -, -, rfl⟩ := timelockedMint_ok hmint
  obtain rfl : x = y := Option.some.inj (hasset.symm.trans hy)
  have hlocked :
      LockedUntil cfg a x (s.block + lockTime) (s.minted cfg x info a amount lockTime) := by
    refine ⟨hblock, Fixed.saturated (pendingIn s.incomingTransactions a x + amount),
      min (s.block + lockTime) cfg.maxBlock, ?_, Nat.le_refl _⟩
    rw [State.minted, StorageDoubleMap.get_put, if_pos ⟨rfl, rfl⟩]
  obtain ⟨hlast, balance, lock, hget, hle⟩ := run_invariant
    (I := LockedUntil cfg a x (s.block + lockTime))
    (fun hs hop hstep => hs.step hop.1 (hop.2 _ hstep) hstep) hlocked
      (hkeeps.and hpending.along) hbetween
  obtain ⟨caller, balance', lock', hcaller, htx, hunlocked, -, -⟩ := claimTo_ok hclaim
  obtain rfl := RawOrigin.signed.inj hcaller
  obtain ⟨rfl, rfl⟩ := Prod.mk.inj (Option.some.inj (hget.symm.trans htx))
  -- A lock at the last block is never passed, so the lock was not cut off there.
  omega

/-- A later mint with a longer lock, and the blocks until it is over. -/
def lockedOps : List (Op Nat Nat Nat Nat) :=
  .timelockedMint (.signed 4) 9 50 1 20 4 :: List.replicate 5 .nextBlock

/-- What a mint for account `1`, some operations after it and a claim come to. -/
structure LockView where
  minted : Bool
  asset : Option Nat
  mintBlock : Nat
  staysPending : Bool
  keepsLock : Bool
  claimed : Option (Bool × Nat)
deriving DecidableEq

def lockView (amount lockTime : Nat) (between : List (Op Nat Nat Nat Nat))
    (s : State Nat Nat Nat Nat) : LockView :=
  let result := timelockedMint sample (.signed 4) 9 50 1 amount lockTime s
  { minted := result.1.toBool
    asset := s.remoteToLocalAsset.get 50 9
    mintBlock := s.block
    staysPending := decide (Throughout (step sample) (Pending 1 1) result.2 between)
    keepsLock := decide (Along (step sample) (KeepsLock sample 1 1) result.2 between)
    claimed := (run (step sample) result.2 between).map fun s₂ =>
      ((claimTo sample (.signed 1) 1 1 s₂).1.toBool, s₂.block) }

theorem lockView_run {amount lockTime b b₂ : Nat} {between : List (Op Nat Nat Nat Nat)} {keeps : Bool}
    (h : (run (step sample) (State.genesis Ledger.empty) bridgeOps).map
      (lockView amount lockTime between) =
      some ⟨true, some 1, b, true, keeps, some (true, b₂)⟩) :
    ∃ s s₁ s₂ s₃, run (step sample) (State.genesis Ledger.empty) bridgeOps = some s ∧
      s.remoteToLocalAsset.get 50 9 = some 1 ∧
      timelockedMint sample (.signed 4) 9 50 1 amount lockTime s = (.ok (), s₁) ∧
      run (step sample) s₁ between = some s₂ ∧ Throughout (step sample) (Pending 1 1) s₁ between ∧
      (keeps = true → Along (step sample) (KeepsLock sample 1 1) s₁ between) ∧
      claimTo sample (.signed 1) 1 1 s₂ = (.ok (), s₃) ∧ s.block = b ∧ s₂.block = b₂ := by
  obtain ⟨s, hs, hview⟩ := Option.map_eq_some_iff.mp h
  simp only [lockView, LockView.mk.injEq, decide_eq_true_eq] at hview
  obtain ⟨hminted, hasset, hb, hpending, hkeeps, hlater⟩ := hview
  rcases hmint : timelockedMint sample (.signed 4) 9 50 1 amount lockTime s with ⟨e | u, s₁⟩
  · rw [hmint] at hminted
    cases hminted
  · rw [hmint] at hpending hkeeps hlater
    obtain ⟨s₂, hs₂, hclaim⟩ := Option.map_eq_some_iff.mp hlater
    obtain ⟨hclaimed, hb₂⟩ := Prod.mk.inj hclaim
    rcases hpaid : claimTo sample (.signed 1) 1 1 s₂ with ⟨e | v, s₃⟩
    · rw [hpaid] at hclaimed
      cases hclaimed
    · refine ⟨s, s₁, s₂, s₃, hs, hasset, hmint, hs₂, hpending, fun hk => ?_, hpaid, hb, hb₂⟩
      exact of_decide_eq_true (hkeeps.trans hk)

theorem locks_honoured_sample : ∃ (s s₁ s₂ s₃ : State Nat Nat Nat Nat),
    run (step sample) (State.genesis Ledger.empty) bridgeOps = some s ∧
      timelockedMint sample (.signed 4) 9 50 1 100 3 s = (.ok (), s₁) ∧
      run (step sample) s₁ lockedOps = some s₂ ∧ claimTo sample (.signed 1) 1 1 s₂ = (.ok (), s₃) ∧
      s.block + 3 < s₂.block := by
  have hview :
      (run (step sample) (State.genesis Ledger.empty) bridgeOps).map (lockView 100 3 lockedOps) =
      some ⟨true, some 1, 0, true, true, some (true, 5)⟩ := by
    decide +kernel
  obtain ⟨s, s₁, s₂, s₃, hs, hasset, hmint, hs₂, hpending, hkeeps, hclaim, -, -⟩ := lockView_run hview
  exact ⟨s, s₁, s₂, s₃, hs, hmint, hs₂, hclaim,
    locks_honoured hs hasset hmint hs₂ hpending (hkeeps rfl) hclaim⟩

/-- One more is minted without a lock, and a block passes. -/
def earlyOps : List (Op Nat Nat Nat Nat) := [.timelockedMint (.signed 4) 9 50 1 1 0, .nextBlock]

/-- **A lock is evaded**: a hundred locked for a hundred blocks is paid out after one. -/
theorem locks_evaded : ¬ ∀ (before between : List (Op Nat Nat Nat Nat)) s s₁ s₂ s₃,
    run (step sample) (State.genesis Ledger.empty) before = some s →
    s.remoteToLocalAsset.get 50 9 = some 1 →
    timelockedMint sample (.signed 4) 9 50 1 100 100 s = (.ok (), s₁) →
    run (step sample) s₁ between = some s₂ → Throughout (step sample) (Pending 1 1) s₁ between →
    claimTo sample (.signed 1) 1 1 s₂ = (.ok (), s₃) → s.block + 100 < s₂.block := by
  intro hall
  have hview :
      (run (step sample) (State.genesis Ledger.empty) bridgeOps).map (lockView 100 100 earlyOps) =
      some ⟨true, some 1, 0, true, false, some (true, 1)⟩ := by
    decide +kernel
  obtain ⟨s, s₁, s₂, s₃, hs, hasset, hmint, hs₂, hpending, -, hclaim, hb, hb₂⟩ := lockView_run hview
  have hlate := hall bridgeOps earlyOps s s₁ s₂ s₃ hs hasset hmint hs₂ hpending hclaim
  omega

end Mosaic
end Composable
