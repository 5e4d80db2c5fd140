import Composable.CrowdloanRewards.Payouts

/-!
# `CrowdloanRewards.Vesting` — what should have been claimed by when

What should have been claimed of a reward grows from the upfront payment to the total
(`vested_mono`): windows, saturation and division are all monotone, and the last step is to
the total. So what was claimed at some block is never more than what should have been
claimed later, and the unchecked subtraction of `amount_available_to_claim_for` does not go
below zero (`Kept`). Vesting windows are asked to be of some length, and the conversion to
balances to take no period to zero.
-/

namespace Composable
namespace CrowdloanRewards

/-! ## One reward -/

section Vested

variable {A R X : Type} {cfg : Config A R X} {reward : Reward} {point point' amount amount' : Nat}

/-- What is paid upfront of a reward. -/
def upfrontPayment (cfg : Config A R X) (reward : Reward) : Nat :=
  Fixed.mulFloor perbill cfg.initialPayment reward.total

/-- The divisions are by something. -/
structure Divides (cfg : Config A R X) : Prop where
  vestingStep : cfg.vestingStep ≠ 0
  convert : ∀ n, cfg.convert n = 0 → n = 0

/-- What has vested by a point of the period that runs. -/
def vestedAt (cfg : Config A R X) (reward : Reward) (point : Nat) : Nat :=
  Fixed.saturated (upfrontPayment cfg reward +
    Fixed.saturated ((reward.total - upfrontPayment cfg reward) * cfg.convert
      (point - point % cfg.vestingStep)) /
      cfg.convert reward.vestingPeriod)

/-- All of it at the end of the period, and before that what has vested. -/
theorem vested_eq (h : Divides cfg) (reward : Reward) (point : Nat) :
    vested cfg reward point =
      some (if reward.vestingPeriod ≤ point then reward.total else vestedAt cfg reward point) := by
  unfold vested
  by_cases hover : reward.vestingPeriod ≤ point
  · rw [if_pos hover, if_pos hover]
  · have hperiod : cfg.convert reward.vestingPeriod ≠ 0 := by
      intro hzero
      have hnone := h.convert _ hzero
      omega
    rw [if_neg hover, if_neg hover, if_neg h.vestingStep, if_neg hperiod]
    rfl

/-- A later point is in a later window. -/
theorem window_mono (step : Nat) (h : point ≤ point') :
    point - point % step ≤ point' - point' % step := by
  have hpoint : point - point % step = step * (point / step) := by
    have hsplit := Nat.div_add_mod point step
    omega
  have hpoint' : point' - point' % step = step * (point' / step) := by
    have hsplit := Nat.div_add_mod point' step
    omega
  rw [hpoint, hpoint']
  exact Nat.mul_le_mul_left _ (Nat.div_le_div_right h)

theorem vestedAt_mono (cfg : Config A R X) (reward : Reward) (h : point ≤ point') :
    vestedAt cfg reward point ≤ vestedAt cfg reward point' := by
  have hwindow : cfg.convert (point - point % cfg.vestingStep) ≤
      cfg.convert (point' - point' % cfg.vestingStep) :=
    cfg.convert_mono (window_mono _ h)
  unfold vestedAt Fixed.saturated
  apply min_le_min_right
  apply Nat.add_le_add_left
  apply Nat.div_le_div_right
  apply min_le_min_right
  exact Nat.mul_le_mul_left _ hwindow

/-- **More should have been claimed later.** -/
theorem vested_mono (h : Divides cfg) (hle : point ≤ point')
    (hamount : vested cfg reward point = some amount)
    (hamount' : vested cfg reward point' = some amount') : amount ≤ amount' := by
  have hbound : amount ≤ reward.total := vested_le hamount
  rw [vested_eq h] at hamount hamount'
  obtain rfl := Option.some.inj hamount
  obtain rfl := Option.some.inj hamount'
  by_cases hover : reward.vestingPeriod ≤ point'
  · rw [if_pos hover]
    exact hbound
  · have hrunning : ¬ reward.vestingPeriod ≤ point := by omega
    rw [if_neg hover, if_neg hrunning]
    exact vestedAt_mono cfg reward hle

/-- The upfront payment should have been claimed from the start on. -/
theorem upfrontPayment_le_vested (h : Divides cfg) (hbalance : reward.total ≤ u128Max)
    (hamount : vested cfg reward point = some amount) : upfrontPayment cfg reward ≤ amount := by
  have hupfront : upfrontPayment cfg reward ≤ reward.total := upfrontPayment_le cfg reward
  rw [vested_eq h] at hamount
  obtain rfl := Option.some.inj hamount
  split
  · exact hupfront
  · unfold vestedAt Fixed.saturated
    apply le_min
    · exact Nat.le_add_right _ _
    · exact hupfront.trans hbalance

end Vested

variable {A R X : Type} [DecidableEq A] [DecidableEq R] [DecidableEq X]

/-- Returns the amount available to claim for the specified account. The subtraction is unchecked;
    one that goes below zero is a panic here. -/
def amountAvailableToClaimFor (cfg : Config A R X) (now : Nat) (account : A) :
    CrowdloanCall A R X Nat := do
  let s ← Call.get
  let association ← Call.ofOption (s.associations account) (.module .notAssociated)
  let reward ← Call.ofOption (s.rewards.lookup association) (.module .nothingToClaim)
  let shouldHave ← shouldHaveClaimed cfg now reward
  Call.ensure (reward.claimed ≤ shouldHave) .panic
  pure (shouldHave - reward.claimed)

variable {cfg : Config A R X} {s s' : State A R X} {now now' : Nat} {account : A}
  {remote : RemoteAccount R}
variable {reward : Reward} {c c' : Chain A R X}

omit [DecidableEq A] [DecidableEq R] [DecidableEq X] in
theorem shouldHaveClaimed_eq {start amount : Nat} (hstart : s.vestingBlockStart = some start)
    (hamount : vested cfg reward (now - start) = some amount) :
    shouldHaveClaimed cfg now reward s = (.ok amount, s) := by
  unfold shouldHaveClaimed
  rw [Call.get_bind, hstart, Call.bind_of_ok (Call.ofOption_ok.mpr ⟨rfl, rfl⟩), hamount]
  rfl

/-! ## What was claimed should have been claimed -/

/-- Of a reward no more is claimed than should have been; nothing before the start. Who is
    associated is with a remote account that has a reward, and after the start. -/
structure Kept (cfg : Config A R X) (c : Chain A R X) : Prop where
  unstarted : c.pallet.vestingBlockStart = none → (∀ account, c.pallet.associations account = none) ∧
    ∀ remote reward, c.pallet.rewards.lookup remote = some reward → reward.claimed = 0
  claimed : ∀ start remote reward amount, c.pallet.vestingBlockStart = some start →
    c.pallet.rewards.lookup remote = some reward → vested cfg reward (c.now - start) = some amount →
    reward.claimed ≤ amount
  associated : ∀ account remote, c.pallet.associations account = some remote →
    ∃ reward, c.pallet.rewards.lookup remote = some reward

omit [DecidableEq A] [DecidableEq X] in
theorem Kept.genesis (ledger : Ledger A X) (now : Nat) : Kept cfg ⟨State.genesis ledger, now⟩ where
  unstarted _ := ⟨fun _ => rfl, fun _ _ h => by simp [State.genesis] at h⟩
  claimed := nofun
  associated := nofun

omit [DecidableEq A] [DecidableEq X] in
/-- Time goes by. -/
theorem Kept.later (hdivides : Divides cfg) (h : Kept cfg c) (hle : c.now ≤ now) :
    Kept cfg { c with now := now } where
  unstarted := h.unstarted
  claimed start remote reward amount hstart hreward hamount := by
    have hbefore := vested_eq hdivides reward (c.now - start)
    have hclaimed := h.claimed start remote reward _ hstart hreward hbefore
    refine hclaimed.trans (vested_mono hdivides ?_ hbefore hamount)
    exact Nat.sub_le_sub_right hle start
  associated := h.associated

omit [DecidableEq A] [DecidableEq X] in
/-- The vesting starts, and nothing is claimed yet. -/
theorem Kept.started (h : Kept cfg c) (hnone : c.pallet.vestingBlockStart = none) (start : Nat) :
    Kept cfg { c with pallet := { c.pallet with vestingBlockStart := some start } } where
  unstarted := nofun
  claimed _ remote reward amount _ hreward _ := by
    rw [(h.unstarted hnone).2 remote reward hreward]
    exact Nat.zero_le _
  associated := h.associated

omit [DecidableEq A] [DecidableEq X] in
/-- New rewards before the start. -/
theorem Kept.populated (h : Kept cfg c) (hnone : c.pallet.vestingBlockStart = none)
    (rewards : List (RemoteAccount R × Nat × Nat)) (total contributors : Nat) :
    Kept cfg { c with pallet := { c.pallet with
      rewards := insertRewards rewards
      totalRewards := total
      totalContributors := contributors } } where
  unstarted _ := ⟨(h.unstarted hnone).1, fun _ _ hreward => claimed_insertRewards hreward⟩
  claimed _ _ _ _ hstart := absurd (hnone.symm.trans hstart) nofun
  associated account _ hremote := absurd (((h.unstarted hnone).1 account).symm.trans hremote) nofun

/-- **A claim** brings what is claimed of one reward to what should have been. -/
theorem Kept.pays {amount : Nat} (h : Kept cfg c)
    (hclaim : doClaim cfg c.now remote account c.pallet = (.ok amount, s')) :
    Kept cfg { c with pallet := s' } ∧ s'.associations = c.pallet.associations ∧
      s'.vestingBlockStart ≠ none ∧ ∃ reward, s'.rewards.lookup remote = some reward := by
  obtain ⟨reward, start, should, hreward, hstart, hshould, hpos, -, -, rfl⟩ := doClaim_ok.mp hclaim
  refine ⟨⟨fun hnone => ?_, fun start' r w amount' hstart' hw hamount' => ?_, fun a r hr => ?_⟩,
    rfl, ?_, ?_⟩
  · exact absurd (hstart.symm.trans hnone) nofun
  · obtain rfl : start = start' := Option.some.inj (hstart.symm.trans hstart')
    rcases StorageMap.lookup_insert_some.mp hw with ⟨-, rfl⟩ | ⟨-, hold⟩
    · -- what vests of a reward does not depend on what is claimed of it
      have hsame : vested cfg reward (c.now - start) = some amount' := hamount'
      obtain rfl : should = amount' := Option.some.inj (hshould.symm.trans hsame)
      show Fixed.saturated (should - reward.claimed + reward.claimed) ≤ should
      unfold Fixed.saturated
      omega
    · exact h.claimed start r w amount' hstart hold hamount'
  · obtain ⟨w, hw⟩ := h.associated a r hr
    by_cases hself : r = remote
    · rw [hself]
      exact ⟨_, AList.lookup_insert _⟩
    · exact ⟨w, (AList.lookup_insert_ne hself).trans hw⟩
  · show c.pallet.vestingBlockStart ≠ none
    rw [hstart]
    exact nofun
  · exact ⟨_, AList.lookup_insert _⟩

omit [DecidableEq A] [DecidableEq X] in
theorem Kept.initialized (h : Kept cfg c) (origin : RawOrigin A) (start : Nat) :
    Kept cfg { c with pallet := dispatch (initializeAt cfg origin start) c.pallet } := by
  rcases initializeAt_cases cfg origin start c.pallet with hsame | ⟨hnone, hdone⟩
  · rw [hsame]
    exact h
  · rw [hdone]
    exact h.started hnone start

/-- **Step lemma.** -/
theorem Kept.step (hdivides : Divides cfg) (h : Kept cfg c) {op : Op A R}
    (hstep : step cfg c op = some c') : Kept cfg c' := by
  cases op with
  | initializeNow origin =>
      obtain rfl := Option.some.inj hstep
      exact h.initialized origin c.now
  | initializeAt origin start =>
      obtain rfl := Option.some.inj hstep
      exact h.initialized origin start
  | populate origin rewards =>
      obtain rfl := Option.some.inj hstep
      rcases populate_cases cfg origin rewards c.pallet with hsame | ⟨hnone, contributors, hdone⟩
      · rw [hsame]
        exact h
      · rw [hdone]
        exact h.populated hnone rewards _ contributors
  | associate origin account proof =>
      obtain rfl := Option.some.inj hstep
      rcases associate_cases cfg c.now origin account proof c.pallet with
        ⟨amount, remote, t, -, hclaim, hdone⟩ | ⟨-, hsame⟩
      · obtain ⟨hkept, -, hstarted, reward, hreward⟩ := h.pays hclaim
        rw [hdone]
        refine ⟨fun hnone => absurd hnone hstarted, hkept.claimed, fun a r hr => ?_⟩
        simp only at hr
        split at hr
        · obtain rfl := Option.some.inj hr
          exact ⟨reward, hreward⟩
        · exact hkept.associated a r hr
      · rw [hsame]
        exact h
  | claim origin =>
      obtain rfl := Option.some.inj hstep
      rcases claim_cases cfg c.now origin c.pallet with
        ⟨account, amount, remote, rfl, -, hclaim⟩ | ⟨-, hsame⟩
      · exact (h.pays hclaim).1
      · rw [hsame]
        exact h
  | block now =>
      obtain ⟨hle, hc'⟩ := Option.ite_none_right_eq_some.mp hstep
      obtain rfl := Option.some.inj hc'
      exact h.later hdivides hle

/-! ## All runs -/

/-- A claim for an associated account is one of the account it is associated with. -/
theorem claim_signed (hremote : s.associations account = some remote) :
    (claim cfg now (.signed account) s).1 = (doClaim cfg now remote account s).1 := by
  unfold claim
  rw [Call.transactional_fst, Call.bind_of_ok (ensureSigned_ok.mpr ⟨rfl, rfl⟩),
    Call.get_bind, hremote, Call.bind_of_ok (Call.ofOption_ok.mpr ⟨rfl, rfl⟩)]

/-- What is left to claim is refused if it is nothing, and minted otherwise. -/
theorem doClaim_result {should : Nat} (hreward : s.rewards.lookup remote = some reward)
    (hcalled : shouldHaveClaimed cfg now reward s = (.ok should, s)) :
    (doClaim cfg now remote account s).1 =
      if should - reward.claimed = 0 then .error (.module .nothingToClaim)
      else match cfg.currency.mintRefused s.ledger cfg.native account (should - reward.claimed) with
        | some e => .error (.token e)
        | none => .ok (should - reward.claimed) := by
  rw [doClaim, Call.get_bind, hreward, Call.bind_of_ok (Call.ofOption_ok.mpr ⟨rfl, rfl⟩),
    Call.bind_of_ok hcalled]
  by_cases hzero : should - reward.claimed = 0
  · have hnothing : (Call.ensure (0 < should - reward.claimed) (.module .nothingToClaim) :
        CrowdloanCall A R X Unit) s = (.error (.module .nothingToClaim), s) := by
      rw [Call.ensure, if_neg (by omega)]
      rfl
    rw [if_pos hzero, Call.bind_of_error hnothing]
  · have hsome : (Call.ensure (0 < should - reward.claimed) (.module .nothingToClaim) :
        CrowdloanCall A R X Unit) s = (.ok (), s) :=
      Call.ensure_ok.mpr ⟨by omega, rfl⟩
    rw [if_neg hzero, Call.bind_of_ok hsome]
    cases hmint : cfg.currency.mintRefused s.ledger cfg.native account (should - reward.claimed) with
    | some e =>
        have hrefused : (Call.zoom State.ledger (fun l s => { s with ledger := l }) .token
            (cfg.currency.mintInto cfg.native account (should - reward.claimed)) :
                CrowdloanCall A R X Unit) s =
              (.error (.token e), s) := by
          rw [Call.zoom, Currency.mintInto, Currency.commit, hmint]
        rw [Call.bind_of_error hrefused]
    | none =>
        have hminted : (Call.zoom State.ledger (fun l s => { s with ledger := l }) .token
            (cfg.currency.mintInto cfg.native account (should - reward.claimed)) :
                CrowdloanCall A R X Unit) s =
              (.ok (),
                { s with ledger := s.ledger.mint cfg.native account (should - reward.claimed) }) := by
          rw [Call.zoom, Currency.mintInto, Currency.commit, hmint]
        rw [Call.bind_of_ok hminted]
        rfl

/-- In a state that is kept in order, an account that is associated is told what its claim would
    pay: nothing, or what the ledger then refuses to mint or mints. -/
theorem Kept.available (hdivides : Divides cfg) (h : Kept cfg c)
    (hremote : c.pallet.associations account = some remote) :
    ∃ n, amountAvailableToClaimFor cfg c.now account c.pallet = (.ok n, c.pallet) ∧
      (claim cfg c.now (.signed account) c.pallet).1 =
        if n = 0 then .error (.module .nothingToClaim)
        else match cfg.currency.mintRefused c.pallet.ledger cfg.native account n with
          | some e => .error (.token e)
          | none => .ok n := by
  obtain ⟨reward, hreward⟩ := h.associated account remote hremote
  -- The account could only be associated after the start.
  obtain ⟨start, hstart⟩ : ∃ start, c.pallet.vestingBlockStart = some start := by
    rw [← Option.ne_none_iff_exists']
    intro hnone
    rw [(h.unstarted hnone).1 account] at hremote
    cases hremote
  obtain ⟨should, hshould⟩ : ∃ should, vested cfg reward (c.now - start) = some should :=
    ⟨_, vested_eq hdivides _ _⟩
  have hclaimed : reward.claimed ≤ should :=
    h.claimed start remote reward should hstart hreward hshould
  have hcalled := shouldHaveClaimed_eq hstart hshould
  refine ⟨should - reward.claimed, ?_, (claim_signed hremote).trans (doClaim_result hreward hcalled)⟩
  have hsafe : (Call.ensure (reward.claimed ≤ should) .panic : CrowdloanCall A R X Unit) c.pallet =
      (.ok (), c.pallet) :=
    Call.ensure_ok.mpr ⟨hclaimed, rfl⟩
  unfold amountAvailableToClaimFor
  rw [Call.get_bind, hremote, Call.bind_of_ok (Call.ofOption_ok.mpr ⟨rfl, rfl⟩), hreward,
    Call.bind_of_ok (Call.ofOption_ok.mpr ⟨rfl, rfl⟩), Call.bind_of_ok hcalled, Call.bind_of_ok hsafe]
  rfl

/-- **Crowdloan vesting is monotone and bounded**: what should have been claimed after the start
    lies between the upfront payment and the total, does not fall, and is the total from the end
    of the period on. So in any state that is reached, an account that is associated is told
    what its claim would pay. -/
theorem vesting_monotone (hdivides : Divides cfg) :
    (∀ (s : State A R X) reward start block block', s.vestingBlockStart = some start →
      reward.total ≤ u128Max →
      start ≤ block → block ≤ block' → ∃ amount amount',
        shouldHaveClaimed cfg block reward s = (.ok amount, s) ∧
        shouldHaveClaimed cfg block' reward s = (.ok amount', s) ∧ amount ≤ amount' ∧
        upfrontPayment cfg reward ≤ amount ∧ amount' ≤ reward.total ∧
        (start + reward.vestingPeriod ≤ block → amount = reward.total)) ∧
      ∀ (ledger : Ledger A X) now (ops : List (Op A R)) c account remote,
        run (step cfg) ⟨State.genesis ledger, now⟩ ops = some c →
          c.pallet.associations account = some remote →
        ∃ n, amountAvailableToClaimFor cfg c.now account c.pallet = (.ok n, c.pallet) ∧
          (claim cfg c.now (.signed account) c.pallet).1 =
            if n = 0 then .error (.module .nothingToClaim)
            else match cfg.currency.mintRefused c.pallet.ledger cfg.native account n with
              | some e => .error (.token e)
              | none => .ok n := by
  constructor
  · intro s reward start block block' hstart hbalance hafter hle
    -- The amount at a block is the upfront payment and a whole number of steps.
    have hamount := vested_eq hdivides reward (block - start)
    have hamount' := vested_eq hdivides reward (block' - start)
    refine ⟨_, _, shouldHaveClaimed_eq hstart hamount, shouldHaveClaimed_eq hstart hamount',
      vested_mono hdivides (Nat.sub_le_sub_right hle start) hamount hamount',
      upfrontPayment_le_vested hdivides hbalance hamount, vested_le hamount', fun hover => ?_⟩
    have hend : reward.vestingPeriod ≤ block - start := by omega
    rw [if_pos hend]
  · intro ledger now ops c account remote hrun hremote
    -- What was claimed is never beyond what is due, and time only adds to that.
    have hkept : Kept cfg c :=
      run_invariant (I := Kept cfg) (fun h _ hstep => h.step hdivides hstep) (.genesis ledger now)
        (along_true _ ops)
        hrun
    exact hkept.available hdivides hremote

/-- Of `100` at least the upfront half should have been claimed by block `11`, and all by block
    `40`; and account `7` can claim at block `20` what is available to it. -/
theorem vesting_monotone_sample :
    (∃ amount, shouldHaveClaimed sample 11 ⟨100, 0, 40⟩ { State.genesis Ledger.empty with
      vestingBlockStart := some 0 } =
        (.ok amount, { State.genesis Ledger.empty with vestingBlockStart := some 0 }) ∧
          50 ≤ amount ∧ amount ≤ 100) ∧
      (shouldHaveClaimed sample 40 ⟨100, 0, 40⟩ { State.genesis Ledger.empty with
        vestingBlockStart := some 0 }).1 =
        .ok 100 ∧
      ∃ c n, run (step sample) ⟨State.genesis Ledger.empty, 0⟩ (rewardOps.take 4) = some c ∧
        amountAvailableToClaimFor sample c.now 7 c.pallet = (.ok n, c.pallet) ∧
        (claim sample c.now (.signed 7) c.pallet).1 =
          if n = 0 then .error (.module .nothingToClaim)
          else match sample.currency.mintRefused c.pallet.ledger sample.native 7 n with
            | some e => .error (.token e)
            | none => .ok n := by
  obtain ⟨hvests, hclaims⟩ := vesting_monotone (⟨by decide, fun _ h => h⟩ : Divides sample)
  refine ⟨?_, ?_, ?_⟩
  · obtain ⟨amount, amount', hcalled, -, hle, hupfront, htotal, -⟩ :=
      hvests { State.genesis Ledger.empty with vestingBlockStart := some 0 } ⟨100, 0, 40⟩ 0 11 40
        rfl (by decide)
        (by decide) (by decide)
    exact ⟨amount, hcalled, hupfront, hle.trans htotal⟩
  · obtain ⟨amount, amount', hcalled, -, -, -, -, hover⟩ :=
      hvests { State.genesis Ledger.empty with vestingBlockStart := some 0 } ⟨100, 0, 40⟩ 0 40 40
        rfl (by decide)
        (by decide) (by decide)
    rw [hcalled, hover (by decide)]
  · have hview : (run (step sample) ⟨State.genesis Ledger.empty, 0⟩ (rewardOps.take 4)).map
        (fun c => c.pallet.associations 7) = some (some (.relayChain 1)) := by
      decide +kernel
    obtain ⟨c, hrun, hremote⟩ := Option.map_eq_some_iff.mp hview
    obtain ⟨n, havailable, hclaim⟩ :=
      hclaims Ledger.empty 0 (rewardOps.take 4) c 7 (.relayChain 1) hrun hremote
    exact ⟨c, n, hrun, havailable, hclaim⟩

end CrowdloanRewards
end Composable
