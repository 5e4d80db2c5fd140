import Composable.Mosaic.Budget
import Composable.Support.Bucket

/-!
# `Mosaic.Refusals` — when the relayer is refused for its budget

`Mosaic.Budget` bounds what the relayer mints. Here is the other direction: a mint of an asset is
refused for the budget **only** where it would have broken the bound in some window of blocks up to
now (`mint_refused_iff`). The pallet keeps one number and one block for an asset and nothing of its
history; that they are enough is the theorem on leaky buckets of `Support.Bucket`, with the penalty
as the level and the budget as the brim.

`full_recovery_period` of `decay.rs` is the time after which all of the budget can be minted again
(`recovered_iff`). No call of the pallet uses it.
-/

namespace Composable
namespace Mosaic

variable {A X N R : Type} [DecidableEq A] [DecidableEq X] [DecidableEq N] [DecidableEq R]
variable {cfg : Config A X} {s s' : State A X N R} {op : Op A X N R} {x : X} {B f : Nat}

/-- What an operation mints of an asset at the block `start` or later. -/
def mintedSince (cfg : Config A X) (x : X) (start : Nat) (s : State A X N R) (op : Op A X N R) :
    Nat :=
  if start ≤ s.block then mintedOf cfg x s op else 0

/-- The asset has the budget `B`, decaying by `f`, or none yet, and nothing of it is spent. -/
def Unspent (x : X) (B f : Nat) (s : State A X N R) : Prop :=
  ∀ info, s.assetsInfo x = some info → info.HasBudget B f ∧ info.penalty = 0 ∧
    info.lastMintBlock ≤ s.block

/-! ## The penalty as a bucket -/

section Penalty

variable {info : AssetInfo} {block amount : Nat}

def AssetInfo.bucket (info : AssetInfo) : Bucket := ⟨info.penalty, info.lastMintBlock⟩

/-- A decay that overflows leaves nothing, and neither would one without a bound. -/
theorem AssetInfo.HasBudget.decayed_eq (h : info.HasBudget B f) :
    info.decayed block = info.bucket.drained f block := by
  have hpenalty := h.penalty_le
  show (info.penaltyDecayer.checkedDecay _ _ _).getD 0 =
    info.penalty - f * (block - info.lastMintBlock)
  rw [h.penaltyDecayer, BudgetPenaltyDecayer.checkedDecay, Nat.mul_comm f]
  split
  · rfl
  · rw [Option.getD_none]
    omega

theorem AssetInfo.HasBudget.bucket_minted (h : info.HasBudget B f) (hB : B ≤ u128Max)
    (hfits : amount ≤ info.budget - info.decayed block) :
    (info.minted block amount).bucket = info.bucket.pour f block amount := by
  show Bucket.mk (info.minted block amount).penalty block =
    ⟨info.bucket.drained f block + amount, block⟩
  rw [h.penalty_minted hB hfits, h.decayed_eq]

/-- A penalty within the budget stays within it. -/
theorem AssetInfo.HasBudget.minted_le (h : info.HasBudget B f) (hB : B ≤ u128Max)
    (hle : info.penalty ≤ B)
    (hfits : amount ≤ info.budget - info.decayed block) : (info.minted block amount).penalty ≤ B := by
  have hdecayed := h.decayed_le block
  rw [h.penalty_minted hB hfits]
  rw [h.budget] at hfits
  omega

end Penalty

/-! ## Steps -/

/-- What a step that leaves the budget alone does to the asset. -/
inductive BudgetTurn (cfg : Config A X) (x : X) (B f : Nat) (s : State A X N R) (op : Op A X N R)
    (s' : State A X N R) : Prop
  | idle (hsame : s'.assetsInfo x = s.assetsInfo x) (hblock : s.block ≤ s'.block)
      (hnone : mintedOf cfg x s op = 0)
  | budgeted (hinfo : s'.assetsInfo x = some (Mosaic.budgeted s.block B (.linear f) (s.assetsInfo x)))
      (hblock : s'.block = s.block) (hnone : mintedOf cfg x s op = 0)
  | minted {info : AssetInfo} {amount : Nat} (hinfo : s.assetsInfo x = some info)
      (hfits : amount ≤ info.budget - info.decayed s.block)
      (hnew : s'.assetsInfo x = some (info.minted s.block amount))
      (hblock : s'.block = s.block) (hminted : mintedOf cfg x s op = amount)

theorem budgetTurn (hop : op.KeepsBudget x B f) (hstep : step cfg s op = some s') :
    BudgetTurn cfg x B f s op s' := by
  have hblock : s.block ≤ s'.block := by
    have hpass := step_block hstep
    omega
  cases step_effect hstep with
  | @minted origin n r to_ amount lockTime _ hcall =>
      have hreturns : Returns cfg s (.timelockedMint origin n r to_ amount lockTime) :=
        returns_iff.mpr ⟨_, hcall⟩
      obtain ⟨y, info, hy, hinfo, hfits, -, rfl⟩ := timelockedMint_ok hcall
      by_cases hxy : x = y
      · subst hxy
        exact .minted hinfo hfits (Function.update_self ..) rfl (if_pos ⟨hreturns, hy⟩)
      · refine .idle (Function.update_of_ne hxy ..) hblock (if_neg fun hc => ?_)
        exact hxy (Option.some.inj (hc.2.symm.trans hy))
  | @budgeted origin y amount decay =>
      by_cases hxy : x = y
      · subst hxy
        obtain ⟨rfl, rfl⟩ := hop rfl
        exact .budgeted (Function.update_self ..) rfl rfl
      · exact .idle (Function.update_of_ne hxy ..) hblock rfl
  | failed hfails =>
      refine .idle rfl hblock ?_
      cases op <;> first | rfl | exact if_neg fun hc => hfails hc.1
  | governed hgoverns _ _ _ =>
      refine .idle rfl hblock ?_
      cases op <;> first | exact absurd hgoverns not_false | rfl
  | advanced _ => exact .idle rfl hblock rfl
  | @mapped _ y n remote _ =>
      obtain ⟨toRemote, toLocal, hmapped⟩ := mapAsset_eq s y n remote
      refine .idle ?_ hblock rfl
      rw [hmapped]
  | sent hcall =>
      obtain ⟨_, _, -, -, rfl⟩ := transferTo_ok hcall
      exact .idle rfl hblock rfl
  | accepted hcall =>
      obtain ⟨_, _, _, -, -, -, -, rfl⟩ := acceptTransfer_ok hcall
      exact .idle rfl hblock rfl
  | returned hcall =>
      obtain ⟨_, _, _, -, -, -, -, rfl⟩ := claimStaleTo_ok hcall
      exact .idle rfl hblock rfl
  | rescinded hcall =>
      obtain ⟨_, _, _, -, -, -, rfl⟩ := rescindTimelockedMint_ok hcall
      exact .idle rfl hblock rfl
  | claimed hcall =>
      obtain ⟨_, _, _, -, -, -, -, rfl⟩ := claimTo_ok hcall
      exact .idle rfl hblock rfl

/-- The penalty of the asset meters what was minted of it. -/
structure Metered (x : X) (B f : Nat) (s : State A X N R) (total : Nat → Nat) : Prop where
  unset : s.assetsInfo x = none → ∀ start, total start = 0
  hasBudget : ∀ info, s.assetsInfo x = some info → info.HasBudget B f
  within : ∀ info, s.assetsInfo x = some info → info.penalty ≤ B ∧ info.lastMintBlock ≤ s.block
  meters : ∀ info, s.assetsInfo x = some info → info.bucket.Meters f total

omit [DecidableEq A] [DecidableEq X] [DecidableEq N] [DecidableEq R] in
theorem Unspent.metered (h : Unspent x B f s) : Metered x B f s fun _ => 0 where
  unset _ _ := rfl
  hasBudget info hinfo := (h info hinfo).1
  within info hinfo := by
    obtain ⟨-, hzero, hpast⟩ := h info hinfo
    exact ⟨hzero ▸ Nat.zero_le B, hpast⟩
  meters info hinfo := .nothing (h info hinfo).2.1 fun _ => rfl

/-- **Every step keeps the meter right.** -/
theorem Metered.step (hB : B ≤ u128Max) {total : Nat → Nat} (h : Metered x B f s total)
    (hop : op.KeepsBudget x B f) (hstep : step cfg s op = some s') :
    Metered x B f s' fun start => total start + mintedSince cfg x start s op := by
  have hidle : mintedOf cfg x s op = 0 →
      (fun start => total start + mintedSince cfg x start s op) = total := by
    intro hnone
    funext start
    rw [mintedSince, hnone, ite_self, Nat.add_zero]
  cases budgetTurn hop hstep with
  | idle hsame hblock hnone =>
      rw [hidle hnone]
      constructor
      · rw [hsame]
        exact h.unset
      · rw [hsame]
        exact h.hasBudget
      · rw [hsame]
        intro info hinfo
        exact ⟨(h.within info hinfo).1, (h.within info hinfo).2.trans hblock⟩
      · rw [hsame]
        exact h.meters
  | budgeted hinfo hblock hnone =>
      rw [hidle hnone]
      -- The new budget is the old one; a first budget comes with a penalty of nothing.
      cases hold : s.assetsInfo x with
      | none =>
          rw [hold] at hinfo
          refine ⟨fun hunset => ?_, fun info hsome => ?_, fun info hsome => ?_, fun info hsome => ?_⟩
          · rw [hinfo] at hunset
            cases hunset
          · obtain rfl := Option.some.inj (hinfo.symm.trans hsome)
            exact ⟨rfl, rfl, Nat.zero_le _⟩
          · obtain rfl := Option.some.inj (hinfo.symm.trans hsome)
            exact ⟨Nat.zero_le _, hblock.symm.le⟩
          · obtain rfl := Option.some.inj (hinfo.symm.trans hsome)
            exact .nothing rfl (h.unset hold)
      | some old =>
          rw [hold] at hinfo
          refine ⟨fun hunset => ?_, fun info hsome => ?_, fun info hsome => ?_, fun info hsome => ?_⟩
          · rw [hinfo] at hunset
            cases hunset
          · obtain rfl := Option.some.inj (hinfo.symm.trans hsome)
            exact ⟨rfl, rfl, (h.hasBudget old hold).penalty_le⟩
          · obtain rfl := Option.some.inj (hinfo.symm.trans hsome)
            exact ⟨(h.within old hold).1, (h.within old hold).2.trans hblock.symm.le⟩
          · obtain rfl := Option.some.inj (hinfo.symm.trans hsome)
            exact h.meters old hold
  | @minted old amount hinfo hfits hnew hblock hminted =>
      have hbudget := h.hasBudget old hinfo
      obtain ⟨hle, hpast⟩ := h.within old hinfo
      have hsum : (fun start => total start + mintedSince cfg x start s op) =
          fun start => total start + if start ≤ s.block then amount else 0 := by
        funext start
        rw [mintedSince, hminted]
      rw [hsum]
      refine ⟨fun hunset => ?_, fun info hsome => ?_, fun info hsome => ?_, fun info hsome => ?_⟩
      · rw [hnew] at hunset
        cases hunset
      · obtain rfl := Option.some.inj (hnew.symm.trans hsome)
        exact hbudget.minted
      · obtain rfl := Option.some.inj (hnew.symm.trans hsome)
        exact ⟨hbudget.minted_le hB hle hfits, hblock.symm.le⟩
      · obtain rfl := Option.some.inj (hnew.symm.trans hsome)
        rw [hbudget.bucket_minted hB hfits]
        exact (h.meters old hinfo).pour hpast

/-- The meter is right in every state of a run. -/
theorem Unspent.run (hB : B ≤ u128Max) (h : Unspent x B f s) {ops : List (Op A X N R)}
    (hkeeps : ∀ op ∈ ops, op.KeepsBudget x B f) (hrun : run (step cfg) s ops = some s') :
    Metered x B f s' fun start => tally (step cfg) (mintedSince cfg x start) s ops := by
  have halong : Along (step cfg) (fun _ op => op.KeepsBudget x B f ∧ True) s ops :=
    (along_true _ _).and_forall hkeeps
  have hlast := tallies_invariant (f := mintedSince cfg x) (J := Metered x B f)
    (fun h hop hstep => h.step hB hop.1 hstep) h.metered halong hrun
  simpa only [Nat.zero_add] using hlast

/-! ## Refusals -/

section Refusals

variable {a : A} {n : N} {r : R} {to_ : A} {amount lockTime : Nat} {info : AssetInfo}

omit [DecidableEq X] [DecidableEq N] [DecidableEq R] in
/-- The current relayer passes the check. -/
theorem ensureRelayer_of_account (hrelayer : (relayerAccountId s).1 = .ok a) :
    ∃ relayer, ensureRelayer (.signed a) s = (.ok (relayer, s.block), s) := by
  have hsigned : (ensureSigned (.signed a) : MosaicCall A X N R A) s = (.ok a, s) := rfl
  cases hstale : s.relayer with
  | none =>
      rw [relayerAccountId, Call.get_bind, hstale] at hrelayer
      cases hrelayer
  | some stale =>
      have hstored : (Call.ofOption s.relayer (err .relayerNotSet) : MosaicCall A X N R _) s =
          (.ok stale, s) :=
        Call.ofOption_ok.mpr ⟨hstale, rfl⟩
      rw [relayerAccountId, Call.get_bind, Call.bind_of_ok hstored] at hrelayer
      have hcurrent : (stale.update s.block).current = a := Except.ok.inj hrelayer
      refine ⟨stale.update s.block, ?_⟩
      rw [ensureRelayer, Call.bind_of_ok hsigned, Call.get_bind, Call.bind_of_ok hstored,
        Call.bind_of_ok (Call.ensure_ok (u := ()) |>.mpr ⟨hcurrent, rfl⟩)]
      rfl

omit [DecidableEq R] in
/-- The relayer is refused for the budget where the amount does not fit into it, and nowhere
    else. -/
theorem timelockedMint_refused (hrelayer : (relayerAccountId s).1 = .ok a)
    (hmapped : s.remoteToLocalAsset.get r n = some x) (hinfo : s.assetsInfo x = some info) :
    (timelockedMint cfg (.signed a) n r to_ amount lockTime s).1 = .error (err .insufficientBudget) ↔
      ¬ amount ≤ info.budget - info.decayed s.block := by
  obtain ⟨relayer, hensured⟩ := ensureRelayer_of_account hrelayer
  have hlocal : getLocalMapping r n s = (.ok x, s) := getLocalMapping_ok.mpr ⟨hmapped, rfl⟩
  have hstored : (Call.ofOption (s.assetsInfo x) (err .unsupportedAsset) : MosaicCall A X N R _) s =
      (.ok info, s) :=
    Call.ofOption_ok.mpr ⟨hinfo, rfl⟩
  rw [timelockedMint, Call.bind_of_ok hensured]
  dsimp only
  rw [Call.bind_of_ok hlocal, Call.get_bind, Call.bind_of_ok hstored]
  by_cases hfits : amount ≤ info.budget - info.decayed s.block
  · -- What comes after the check fails with an error of the ledger or not at all.
    refine iff_of_false ?_ (not_not.mpr hfits)
    rw [Call.bind_of_ok (Call.ensure_ok (u := ()) |>.mpr ⟨hfits, rfl⟩)]
    refine Call.Avoids.bind (.zoom fun e _ h => ?_) fun _ _ _ => Call.Avoids.modify _
    cases h
  · refine iff_of_true ?_ hfits
    have hfails :
        (Call.ensure (amount ≤ info.budget - info.decayed s.block) (err .insufficientBudget) :
        MosaicCall A X N R Unit) s = (.error (err .insufficientBudget), s) := by
      rw [Call.ensure, if_neg hfits]
      rfl
    rw [Call.bind_of_error hfails]

/-- **The relayer is refused exactly where a window is full**: after a run that leaves the budget
    `B` and its decay `f` alone, a mint by the relayer is refused for the budget exactly when some
    window of blocks up to now has no room for it, of which one from the block `start` on has
    `B + f * (block - start)`. -/
theorem mint_refused_iff (cfg : Config A X) (hB : B ≤ u128Max) (hunspent : Unspent x B f s)
    {ops : List (Op A X N R)}
    (hkeeps : ∀ op ∈ ops, op.KeepsBudget x B f) (hrun : run (step cfg) s ops = some s')
    (hrelayer : (relayerAccountId s').1 = .ok a) (hmapped : s'.remoteToLocalAsset.get r n = some x)
    (hinfo : s'.assetsInfo x = some info) :
    (timelockedMint cfg (.signed a) n r to_ amount lockTime s').1 = .error (err .insufficientBudget) ↔
      ∃ start, start ≤ s'.block ∧
        B + f * (s'.block - start) < tally (step cfg) (mintedSince cfg x start) s ops + amount := by
  have hmetered := hunspent.run hB hkeeps hrun
  have hbudget := hmetered.hasBudget info hinfo
  obtain ⟨hle, hpast⟩ := hmetered.within info hinfo
  -- What is left of the budget is the room left in the bucket of the mints since it was set.
  have hfits : amount ≤ info.budget - info.decayed s'.block ↔
      info.bucket.drained f s'.block + amount ≤ B := by
    have hdrained : info.bucket.drained f s'.block ≤ info.penalty := Bucket.drained_le
    rw [hbudget.budget, hbudget.decayed_eq]
    omega
  rw [timelockedMint_refused hrelayer hmapped hinfo, hfits,
    (hmetered.meters info hinfo).fits_iff hpast]
  constructor
  · intro hfull
    by_contra hroom
    refine hfull fun start hstart => Nat.le_of_not_lt fun hlt => hroom ⟨start, hstart, hlt⟩
  · rintro ⟨start, hstart, hlt⟩ hroom
    exact Nat.not_le.mpr hlt (hroom start hstart)

/-- A mint of all of the budget, ten blocks of decay, and a mint of one unit more
    than they made room for. -/
def refusedOps : List (Op Nat Nat Nat Nat) :=
  bridgeOps ++ [.timelockedMint (.signed 4) 9 50 1 1000 0] ++ List.replicate 10 .nextBlock

theorem mint_refused_iff_sample :
    ∃ s', run (step sample) (State.genesis Ledger.empty) refusedOps = some s' ∧
    (timelockedMint sample (.signed 4) 9 50 2 101 0 s').1 = .error (err .insufficientBudget) ∧
    ∃ start, start ≤ s'.block ∧ 1000 + 10 * (s'.block - start) <
      tally (step sample) (mintedSince sample 1 start) (State.genesis Ledger.empty)
        refusedOps + 101 := by
  obtain ⟨s', hrun, hrelayer, hmapped, hinfo, hrefused⟩ :
      ∃ s', run (step sample) (State.genesis Ledger.empty)
      refusedOps = some s' ∧ (relayerAccountId s').1 = .ok 4 ∧
        s'.remoteToLocalAsset.get 50 9 = some 1 ∧
        s'.assetsInfo 1 = some ⟨0, 1000, 1000, .linear 10⟩ ∧
        (timelockedMint sample (.signed 4) 9 50 2 101 0 s').1 = .error (err .insufficientBudget) :=
    ⟨_, rfl, by decide +kernel⟩
  have hkeeps : ∀ op ∈ refusedOps, op.KeepsBudget 1 1000 10 := by
    simp [refusedOps, bridgeOps, Op.KeepsBudget]
  have hunspent : Unspent 1 1000 10 (State.genesis Ledger.empty : State Nat Nat Nat Nat) := by
    intro info hinfo
    cases hinfo
  exact ⟨s', hrun, hrefused,
    (mint_refused_iff sample (by decide) hunspent hkeeps hrun hrelayer hmapped hinfo).mp hrefused⟩

end Refusals

/-! ## Recovery -/

/-- `full_recovery_period`: the blocks until the amount has decayed, if there are that many. -/
def BudgetPenaltyDecayer.fullRecoveryPeriod (maxBlock : Nat) :
    BudgetPenaltyDecayer → (amount : Nat) → Option Nat
  | .linear factor, amount =>
      if factor = 0 then none
      else
        let fullPeriod := amount / factor
        if fullPeriod ≤ maxBlock then
          if fullPeriod + 1 ≤ maxBlock then some (fullPeriod + 1) else none
        else none

theorem BudgetPenaltyDecayer.fullRecoveryPeriod_eq {maxBlock amount period : Nat}
    (h : (BudgetPenaltyDecayer.linear f).fullRecoveryPeriod maxBlock amount = some period) :
    0 < f ∧ period = amount / f + 1 := by
  simp only [BudgetPenaltyDecayer.fullRecoveryPeriod, Option.ite_none_left_eq_some,
    Option.ite_none_right_eq_some, Option.some.injEq] at h
  obtain ⟨hf, -, -, rfl⟩ := h
  exact ⟨Nat.pos_of_ne_zero hf, rfl⟩

section Recovery

variable {a : A} {n : N} {r : R} {to_ : A} {lockTime maxBlock period : Nat} {info : AssetInfo}

/-- What is left of a penalty, from the block on that the state is at. -/
def Decaying (x : X) (B f : Nat) (penalty : Bucket) (s : State A X N R) : Prop :=
  penalty.last ≤ s.block ∧ ∃ info, s.assetsInfo x = some info ∧ info.HasBudget B f ∧
    info.lastMintBlock ≤ s.block ∧
    ∀ later, s.block ≤ later → info.decayed later = penalty.drained f later

/-- A step that mints nothing of the asset leaves its penalty to decay. -/
theorem Decaying.step (hB : B ≤ u128Max) {penalty : Bucket} (h : Decaying x B f penalty s)
    (hop : op.KeepsBudget x B f) (hnone : mintedOf cfg x s op = 0) (hstep : step cfg s op = some s') :
    Decaying x B f penalty s' := by
  obtain ⟨hlast, info, hinfo, hbudget, hpast, hdecays⟩ := h
  cases budgetTurn hop hstep with
  | idle hsame hblock _ =>
      refine ⟨hlast.trans hblock, info, hsame.trans hinfo, hbudget, hpast.trans hblock,
        fun later hlater => ?_⟩
      exact hdecays later (hblock.trans hlater)
  | budgeted hnew hblock _ =>
      refine ⟨hlast.trans hblock.symm.le, _, hnew, ?_, ?_⟩
      · rw [hinfo]
        exact ⟨rfl, rfl, hbudget.penalty_le⟩
      · rw [hinfo, hblock]
        refine ⟨hpast, fun later hlater => ?_⟩
        rw [← hdecays later hlater, AssetInfo.decayed, AssetInfo.decayed, hbudget.penaltyDecayer]
        rfl
  | @minted old amount hold hfits hnew hblock hminted =>
      obtain rfl := Option.some.inj (hinfo.symm.trans hold)
      obtain rfl : amount = 0 := hminted.symm.trans hnone
      refine ⟨hlast.trans hblock.symm.le, _, hnew, hbudget.minted, hblock.symm.le,
        fun later hlater => ?_⟩
      rw [hblock] at hlater
      rw [hbudget.minted.decayed_eq, hbudget.bucket_minted hB hfits,
        Bucket.drained_pour_zero hpast hlater, ← hbudget.decayed_eq]
      exact hdecays later hlater

/-- **The recovery period is right to the block.** After a run without a mint of the asset, the
    relayer can mint all of its budget once `full_recovery_period` of the penalty has gone by since
    the last mint, and more than one block before that it cannot. -/
theorem recovered_iff (cfg : Config A X) (hB : B ≤ u128Max) (hinfo : s.assetsInfo x = some info)
    (hbudget : info.HasBudget B f) (hpast : info.lastMintBlock ≤ s.block)
    (hperiod : info.penaltyDecayer.fullRecoveryPeriod maxBlock info.penalty = some period)
    {ops : List (Op A X N R)}
    (hkeeps : ∀ op ∈ ops, op.KeepsBudget x B f)
    (hnone : Along (step cfg) (fun s op => mintedOf cfg x s op = 0) s ops)
    (hrun : run (step cfg) s ops = some s') (hrelayer : (relayerAccountId s').1 = .ok a)
    (hmapped : s'.remoteToLocalAsset.get r n = some x) :
    (info.lastMintBlock + period ≤ s'.block → ∀ amount, amount ≤ B →
      (timelockedMint cfg (.signed a) n r to_ amount lockTime s').1 ≠
        .error (err .insufficientBudget)) ∧
    (s'.block + 1 < info.lastMintBlock + period → 0 < B →
      (timelockedMint cfg (.signed a) n r to_ B lockTime s').1 =
        .error (err .insufficientBudget)) := by
  have hfirst : Decaying x B f info.bucket s :=
    ⟨hpast, info, hinfo, hbudget, hpast, fun later _ => hbudget.decayed_eq⟩
  have hlast : Decaying x B f info.bucket s' :=
    run_invariant (fun h hop hstep => Decaying.step hB h hop.1 hop.2 hstep) hfirst
      (hnone.and_forall hkeeps) hrun
  obtain ⟨hsince, info', hinfo', hbudget', -, hdecays⟩ := hlast
  have hsince' : info.lastMintBlock ≤ s'.block := hsince
  have hleft : info'.decayed s'.block = info.penalty - f * (s'.block - info.lastMintBlock) :=
    hdecays _ le_rfl
  rw [hbudget.penaltyDecayer] at hperiod
  obtain ⟨hf, rfl⟩ := BudgetPenaltyDecayer.fullRecoveryPeriod_eq hperiod
  have hless := Nat.div_mul_le_self info.penalty f
  have hmore := Nat.lt_mul_div_succ info.penalty hf
  generalize info.penalty / f = full at *
  constructor
  · intro hlate amount hle
    -- After a block more than the period, the whole penalty has decayed.
    have hgone : f * (full + 1) ≤ f * (s'.block - info.lastMintBlock) :=
      Nat.mul_le_mul_left f (by omega)
    rw [Ne, timelockedMint_refused hrelayer hmapped hinfo', not_not, hbudget'.budget, hleft]
    omega
  · intro hearly hpos
    -- Before that, something of it is left, and the whole budget does not fit.
    have hstill : f * (s'.block - info.lastMintBlock + 1) ≤ f * full :=
      Nat.mul_le_mul_left f (by omega)
    rw [Nat.mul_add, Nat.mul_one, Nat.mul_comm f full] at hstill
    rw [timelockedMint_refused hrelayer hmapped hinfo', hbudget'.budget, hleft]
    omega

/-- The states after a mint of fifty, and four and six blocks later. -/
def recoveryTrip : Option (State Nat Nat Nat Nat × State Nat Nat Nat Nat × State Nat Nat Nat Nat) :=
  (run (step sample) (State.genesis Ledger.empty)
    (bridgeOps ++ [.timelockedMint (.signed 4) 9 50 1 50 0])).bind fun s =>
      (run (step sample) s (List.replicate 4 .nextBlock)).bind fun early =>
        (run (step sample) s (List.replicate 6 .nextBlock)).map fun late => (s, early, late)

/-- A mint of fifty takes five blocks to recover from, and one to spare. -/
theorem recovered_iff_sample : ∃ s early late, recoveryTrip = some (s, early, late) ∧
    (timelockedMint sample (.signed 4) 9 50 2 1000 0 early).1 = .error (err .insufficientBudget) ∧
    (timelockedMint sample (.signed 4) 9 50 2 1000 0 late).1 ≠ .error (err .insufficientBudget) := by
  obtain ⟨⟨s, early, late⟩, htrip, hview⟩ := Option.map_eq_some_iff.mp
    (show recoveryTrip.map (fun trip => decide
        (trip.1.assetsInfo 1 = some ⟨0, 1000, 50, .linear 10⟩ ∧ trip.1.block = 0 ∧
          trip.2.1.block = 4 ∧
          trip.2.2.block = 6 ∧ (relayerAccountId trip.2.1).1 = .ok 4 ∧
          (relayerAccountId trip.2.2).1 = .ok 4 ∧
          trip.2.1.remoteToLocalAsset.get 50 9 = some 1 ∧
          trip.2.2.remoteToLocalAsset.get 50 9 = some 1 ∧
          Along (step sample) (fun s op => mintedOf sample 1 s op = 0) trip.1
            (List.replicate 4 .nextBlock) ∧
          Along (step sample) (fun s op => mintedOf sample 1 s op = 0) trip.1
            (List.replicate 6 .nextBlock))) =
      some true by decide +kernel)
  obtain ⟨hinfo, hs0, hearly0, hlate0, hrelayer, hrelayer', hmapped, hmapped', hnone, hnone'⟩ :=
    of_decide_eq_true hview
  obtain ⟨_, -, h⟩ := Option.bind_eq_some_iff.mp htrip
  obtain ⟨_, hearly, h⟩ := Option.bind_eq_some_iff.mp h
  obtain ⟨_, hlate, h⟩ := Option.map_eq_some_iff.mp h
  cases h
  have hbudget : AssetInfo.HasBudget ⟨0, 1000, 50, .linear 10⟩ 1000 10 := ⟨rfl, rfl, by decide⟩
  have hperiod :
      (BudgetPenaltyDecayer.linear 10).fullRecoveryPeriod sample.maxBlock 50 = some 6 := by decide
  have hkeeps : ∀ count, ∀ op ∈ List.replicate count (.nextBlock : Op Nat Nat Nat Nat),
      op.KeepsBudget 1 1000 10 := by
    intro count op hop
    rw [List.eq_of_mem_replicate hop]
    trivial
  refine ⟨s, early, late, htrip, ?_, ?_⟩
  · apply (recovered_iff sample (by decide) hinfo hbudget (Nat.zero_le _) hperiod
      (hkeeps 4) hnone hearly hrelayer hmapped).2
    · rw [hearly0]
      decide
    · decide
  · apply (recovered_iff sample (by decide) hinfo hbudget (Nat.zero_le _) hperiod
      (hkeeps 6) hnone' hlate hrelayer' hmapped').1
    · exact hlate0.symm.le
    · exact le_rfl

end Recovery

end Mosaic
end Composable
