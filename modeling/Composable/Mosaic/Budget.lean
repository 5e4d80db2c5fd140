import Composable.Mosaic.Custody

/-!
# `Mosaic.Budget` — how much the relayer can mint

Every mint adds its amount to a penalty, the penalty decays by a constant factor per block, and a
mint must fit into what the penalty leaves of the budget. The penalty is stored with the block of
the last mint and decayed when the next one comes.

The penalty is a potential: what was minted since the block `start` is at most the penalty at
the last mint and all decay since `start` (`WithinBudget`). With a penalty of at most the
budget `B` and a factor `f`, no more than `B + f * (stop - start)` is minted in the blocks from
`start` to `stop` (`budget_limits`). An overflowing decay sets the penalty to nothing, which is
what the decay would have done.
-/

namespace Composable
namespace Mosaic

variable {A X N R : Type} [DecidableEq A] [DecidableEq X] [DecidableEq N] [DecidableEq R]
variable {cfg : Config A X} {s s' : State A X N R} {op : Op A X N R} {x : X}
  {B f start stop total : Nat}

/-- What the operation mints of an asset, for whomever. -/
def mintedOf (cfg : Config A X) (x : X) (s : State A X N R) : Op A X N R → Nat
  | .timelockedMint origin n r to_ amount lockTime =>
      if Returns cfg s (.timelockedMint origin n r to_ amount lockTime) ∧
        s.remoteToLocalAsset.get r n = some x then amount else 0
  | _ => 0

/-- What it mints in a window of blocks. -/
def mintedDuring (cfg : Config A X) (x : X) (start stop : Nat) (s : State A X N R)
    (op : Op A X N R) : Nat :=
  if start ≤ s.block ∧ s.block ≤ stop then mintedOf cfg x s op else 0

/-- The budget of the asset and its decay stay what they are. -/
def Op.KeepsBudget (x : X) (B f : Nat) : Op A X N R → Prop
  | .setBudget _ y amount decay => y = x → amount = B ∧ decay = .linear f
  | _ => True

/-- The asset has the budget `B`, and a penalty that decays by `f`. -/
structure AssetInfo.HasBudget (info : AssetInfo) (B f : Nat) : Prop where
  budget : info.budget = B
  penaltyDecayer : info.penaltyDecayer = .linear f
  penalty_le : info.penalty ≤ u128Max

/-! ## The penalty -/

section Penalty

variable {info : AssetInfo} {block amount : Nat}

/-- The penalty goes down by at most the factor per block. -/
theorem AssetInfo.HasBudget.penalty_le_decayed (h : info.HasBudget B f) (block : Nat) :
    info.penalty ≤ info.decayed block + f * (block - info.lastMintBlock) := by
  have hpenalty := h.penalty_le
  rw [AssetInfo.decayed, h.penaltyDecayer, BudgetPenaltyDecayer.checkedDecay, Nat.mul_comm f]
  split
  · rw [Option.getD_some]
    omega
  · rw [Option.getD_none]
    omega

theorem AssetInfo.HasBudget.decayed_le (h : info.HasBudget B f) (block : Nat) :
    info.decayed block ≤ info.penalty := by
  rw [AssetInfo.decayed, h.penaltyDecayer, BudgetPenaltyDecayer.checkedDecay]
  split
  · exact Nat.sub_le _ _
  · exact Nat.zero_le _

theorem AssetInfo.HasBudget.minted (h : info.HasBudget B f) :
    (info.minted block amount).HasBudget B f where
  budget := h.budget
  penaltyDecayer := h.penaltyDecayer
  penalty_le := Nat.min_le_right _ _

/-- A mint that fits into the budget adds its amount to the penalty. -/
theorem AssetInfo.HasBudget.penalty_minted (h : info.HasBudget B f) (hB : B ≤ u128Max)
    (hfits : amount ≤ info.budget - info.decayed block) :
    (info.minted block amount).penalty = info.decayed block + amount := by
  have hdecayed := h.decayed_le block
  have hpenalty := h.penalty_le
  have hbudget := h.budget
  show min (info.decayed block + amount) u128Max = _
  exact Nat.min_eq_left (by omega)

/-- The potential: nothing was minted, or the last mint was in the window and what was minted is
    covered by the penalty it left and the decay since the start. -/
def Covered (B f start total block : Nat) (info : AssetInfo) : Prop :=
  total = 0 ∨ start ≤ info.lastMintBlock ∧ info.lastMintBlock ≤ block ∧ info.penalty ≤ B ∧
    total ≤ info.penalty + f * (info.lastMintBlock - start)

/-- A mint at a block of the window keeps it. -/
theorem Covered.mint (h : Covered B f start total block info) (hbudget : info.HasBudget B f)
    (hB : B ≤ u128Max) (hstart : start ≤ block) (hfits : amount ≤ info.budget - info.decayed block) :
    Covered B f start (total + amount) block (info.minted block amount) := by
  have hpenalty := hbudget.penalty_minted hB hfits
  have hlast : (info.minted block amount).lastMintBlock = block := rfl
  have hdecayed := hbudget.decayed_le block
  have hdecay := hbudget.penalty_le_decayed block
  rw [hbudget.budget] at hfits
  by_cases hzero : total + amount = 0
  · exact .inl hzero
  right
  rw [hlast, hpenalty]
  rcases h with rfl | ⟨hlate, hpast, hle, htotal⟩
  · refine ⟨hstart, Nat.le_refl _, by omega, by omega⟩
  · -- The decay since the start is that until the last mint and that since then.
    have hsplit : f * (block - start) = f * (block - info.lastMintBlock) +
        f * (info.lastMintBlock - start) := by
      rw [← Nat.mul_add]
      congr 1
      omega
    refine ⟨hstart, Nat.le_refl _, by omega, by omega⟩

/-- What is covered at a block of the window is within the bound. -/
theorem Covered.le (h : Covered B f start total block info) (hstop : block ≤ stop) :
    total ≤ B + f * (stop - start) := by
  rcases h with rfl | ⟨hlate, hpast, hle, htotal⟩
  · exact Nat.zero_le _
  · have hdecay : f * (info.lastMintBlock - start) ≤ f * (stop - start) :=
      Nat.mul_le_mul_left f (by omega)
    omega

end Penalty

/-! ## Steps -/

/-- The invariant of a run, with the amount minted in the window so far. -/
structure WithinBudget (x : X) (B f start stop : Nat) (s : State A X N R) (total : Nat) : Prop where
  le : total ≤ B + f * (stop - start)
  hasBudget : ∀ info, s.assetsInfo x = some info → info.HasBudget B f
  covered : s.block ≤ stop → total = 0 ∨ ∃ info, s.assetsInfo x = some info ∧
    Covered B f start total s.block info

section Step

variable {origin : RawOrigin A} {n : N} {r : R} {to_ : A} {amount lockTime : Nat}

omit [DecidableEq A] [DecidableEq X] [DecidableEq N] [DecidableEq R] in
/-- Nothing happens to the asset, whatever happens to the block number. -/
theorem WithinBudget.of_same (h : WithinBudget x B f start stop s total)
    (hinfo : s'.assetsInfo x = s.assetsInfo x) (hblock : s.block ≤ s'.block) :
    WithinBudget x B f start stop s' total where
  le := h.le
  hasBudget info hsome := h.hasBudget info (hinfo ▸ hsome)
  covered hstop := by
    rcases h.covered (Nat.le_trans hblock hstop) with hzero | ⟨info, hsome, hcovered⟩
    · exact .inl hzero
    · refine .inr ⟨info, hinfo.trans hsome, ?_⟩
      rcases hcovered with hzero | ⟨hlate, hpast, hrest⟩
      · exact .inl hzero
      · exact .inr ⟨hlate, Nat.le_trans hpast hblock, hrest⟩

omit [DecidableEq A] [DecidableEq N] [DecidableEq R] in
/-- Setting the budget of the asset to what it is. -/
theorem WithinBudget.budgeted (h : WithinBudget x B f start stop s total) :
    WithinBudget x B f start stop
      { s with
        assetsInfo := Function.update s.assetsInfo x
          (some (Mosaic.budgeted s.block B (.linear f) (s.assetsInfo x))) } total where
  le := h.le
  hasBudget info hsome := by
    have hnew : Function.update s.assetsInfo x
        (some (Mosaic.budgeted s.block B (.linear f) (s.assetsInfo x))) x = some info := hsome
    rw [Function.update_self] at hnew
    obtain rfl := Option.some.inj hnew
    cases hold : s.assetsInfo x with
    | none => exact ⟨rfl, rfl, Nat.zero_le _⟩
    | some info => exact ⟨rfl, rfl, (h.hasBudget info hold).penalty_le⟩
  covered hstop := by
    rcases h.covered hstop with hzero | ⟨info, hsome, hcovered⟩
    · exact .inl hzero
    · refine .inr ⟨_, Function.update_self .., ?_⟩
      rw [hsome]
      exact hcovered

omit [DecidableEq N] [DecidableEq R] in
/-- A mint of the asset, in the window or outside. -/
theorem WithinBudget.minted (hB : B ≤ u128Max) (h : WithinBudget x B f start stop s total)
    {info : AssetInfo}
    (hinfo : s.assetsInfo x = some info) (hfits : amount ≤ info.budget - info.decayed s.block) :
    WithinBudget x B f start stop (s.minted cfg x info to_ amount lockTime)
      (total + if start ≤ s.block ∧ s.block ≤ stop then amount else 0) := by
  have hnew :
      (s.minted cfg x info to_ amount lockTime).assetsInfo x = some (info.minted s.block amount) :=
    Function.update_self ..
  have hbudget := h.hasBudget info hinfo
  -- In the window the mint is covered, and before it nothing has been counted yet.
  have hcovered : s.block ≤ stop →
      Covered B f start (total + if start ≤ s.block ∧ s.block ≤ stop then amount else 0) s.block
        (info.minted s.block amount) := by
    intro hstop
    have hold : Covered B f start total s.block info := by
      rcases h.covered hstop with hzero | ⟨info', hsome, hcovered⟩
      · exact .inl hzero
      · obtain rfl := Option.some.inj (hinfo.symm.trans hsome)
        exact hcovered
    by_cases hstart : start ≤ s.block
    · rw [if_pos ⟨hstart, hstop⟩]
      exact hold.mint hbudget hB hstart hfits
    · rw [if_neg fun hwindow => hstart hwindow.1, Nat.add_zero]
      rcases hold with hzero | ⟨hlate, hpast, -⟩
      · exact .inl hzero
      · omega
  refine ⟨?_, fun info' hsome => ?_, fun hstop => .inr ⟨_, hnew, hcovered hstop⟩⟩
  · by_cases hstop : s.block ≤ stop
    · exact (hcovered hstop).le hstop
    · rw [if_neg fun hwindow => hstop hwindow.2]
      exact h.le
  · obtain rfl := Option.some.inj (hnew.symm.trans hsome)
    exact hbudget.minted

/-- **A step that does not change the budget keeps what was minted within it.** -/
theorem WithinBudget.step (hB : B ≤ u128Max) (h : WithinBudget x B f start stop s total)
    (hop : op.KeepsBudget x B f) (hstep : step cfg s op = some s') :
    WithinBudget x B f start stop s' (total + mintedDuring cfg x start stop s op) := by
  have hblock : s.block ≤ s'.block := by
    have hpass := step_block hstep
    omega
  have hnone : mintedOf cfg x s op = 0 → s'.assetsInfo x = s.assetsInfo x →
      WithinBudget x B f start stop s' (total + mintedDuring cfg x start stop s op) := by
    intro hzero hsame
    have hduring : mintedDuring cfg x start stop s op = 0 := by
      rw [mintedDuring, hzero, ite_self]
    rw [hduring, Nat.add_zero]
    exact h.of_same hsame hblock
  cases step_effect hstep with
  | @minted origin n r to_ amount lockTime _ hcall =>
      have hreturns : Returns cfg s (.timelockedMint origin n r to_ amount lockTime) :=
        returns_iff.mpr ⟨_, hcall⟩
      obtain ⟨y, info, hy, hinfo, hfits, -, rfl⟩ := timelockedMint_ok hcall
      by_cases hxy : x = y
      · subst hxy
        have hminted : mintedOf cfg x s (.timelockedMint origin n r to_ amount lockTime) = amount :=
          if_pos ⟨hreturns, hy⟩
        rw [mintedDuring, hminted]
        exact h.minted hB hinfo hfits
      · refine hnone (if_neg fun hc => ?_) (Function.update_of_ne hxy ..)
        exact hxy (Option.some.inj (hc.2.symm.trans hy))
  | @budgeted origin y amount decay =>
      by_cases hxy : x = y
      · subst hxy
        obtain ⟨rfl, rfl⟩ := hop rfl
        have hduring : mintedDuring cfg x start stop s
          (.setBudget origin x amount (.linear f)) = 0 := ite_self 0
        rw [hduring, Nat.add_zero]
        exact h.budgeted
      · exact hnone rfl (Function.update_of_ne hxy ..)
  | failed hfails =>
      refine hnone ?_ rfl
      cases op <;> first | rfl | exact if_neg fun hc => hfails hc.1
  | governed hgoverns _ _ _ =>
      refine hnone ?_ rfl
      cases op <;> first | exact absurd hgoverns not_false | rfl
  | advanced _ => exact hnone rfl rfl
  | @mapped _ y n remote _ =>
      obtain ⟨toRemote, toLocal, hmapped⟩ := mapAsset_eq s y n remote
      exact hnone rfl (by rw [hmapped])
  | sent hcall =>
      obtain ⟨_, _, -, -, rfl⟩ := transferTo_ok hcall
      exact hnone rfl rfl
  | accepted hcall =>
      obtain ⟨_, _, _, -, -, -, -, rfl⟩ := acceptTransfer_ok hcall
      exact hnone rfl rfl
  | returned hcall =>
      obtain ⟨_, _, _, -, -, -, -, rfl⟩ := claimStaleTo_ok hcall
      exact hnone rfl rfl
  | rescinded hcall =>
      obtain ⟨_, _, _, -, -, -, rfl⟩ := rescindTimelockedMint_ok hcall
      exact hnone rfl rfl
  | claimed hcall =>
      obtain ⟨_, _, _, -, -, -, -, rfl⟩ := claimTo_ok hcall
      exact hnone rfl rfl

end Step

/-! ## Runs -/

/-- **The budget limits the relayer**: in the blocks from `start` to `stop` of a run that leaves the
    budget of an asset alone, at most the budget and the decay over these blocks is minted of it. -/
theorem budget_limits (cfg : Config A X) (hB : B ≤ u128Max)
    (hinfo : ∀ info, s.assetsInfo x = some info → info.HasBudget B f) {ops : List (Op A X N R)}
    (hkeeps : ∀ op ∈ ops, op.KeepsBudget x B f) (start stop : Nat) :
    tally (step cfg) (mintedDuring cfg x start stop) s ops ≤ B + f * (stop - start) := by
  have hfirst : WithinBudget x B f start stop s 0 := ⟨Nat.zero_le _, hinfo, fun _ => .inl rfl⟩
  have halong : Along (step cfg) (fun _ op => op.KeepsBudget x B f ∧ True) s ops :=
    (along_true _ _).and_forall hkeeps
  obtain ⟨s', hrun⟩ := run_returns cfg s ops
  -- What is left of the budget in the window bounds what may still be minted in it.
  have hlast :=
    tally_invariant (f := mintedDuring cfg x start stop) (J := WithinBudget x B f start stop)
    (fun h hop hstep => h.step hB hop.1 hstep) hfirst halong hrun
  have hle := hlast.le
  rwa [Nat.zero_add] at hle

/-- The relayer mints all of a budget of a thousand, and again what ten blocks of
    decay have made room for. -/
def budgetOps : List (Op Nat Nat Nat Nat) :=
  bridgeOps ++ [.timelockedMint (.signed 4) 9 50 1 1000 0] ++ List.replicate 10 .nextBlock ++
    [.timelockedMint (.signed 4) 9 50 2 101 0, .timelockedMint (.signed 4) 9 50 2 100 0]

theorem budget_limits_sample :
    tally (step sample) (mintedDuring sample 1 0 10) (State.genesis Ledger.empty) budgetOps = 1100 ∧
      tally (step sample) (mintedDuring sample 1 0 10) (State.genesis Ledger.empty) budgetOps ≤
        1000 + 10 * (10 - 0) := by
  have hkeeps : ∀ op ∈ budgetOps, op.KeepsBudget 1 1000 10 := by
    simp [budgetOps, bridgeOps, Op.KeepsBudget]
  exact ⟨by decide +kernel, budget_limits sample (by decide) (fun _ hinfo => by cases hinfo)
    hkeeps 0 10⟩

end Mosaic
end Composable
