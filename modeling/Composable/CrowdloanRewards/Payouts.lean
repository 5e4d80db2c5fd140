import Composable.CrowdloanRewards.Model

/-!
# `CrowdloanRewards.Payouts` — rewards are never overpaid

What a remote account should have claimed is at most its total (`vested_le`), and a claim pays the
difference to what it has claimed already, through whatever local account it comes. `Accounted` ties
the counter of claimed rewards to the rewards and to the payments that were made: no sum saturates,
since every payment is minted and the issuance of the currency is a balance.
-/

namespace Composable
namespace CrowdloanRewards

/-! ## What is vested -/

section Vested

variable {A R X : Type} {cfg : Config A R X} {reward : Reward} {vestingPoint amount : Nat}

theorem upfrontPayment_le (cfg : Config A R X) (reward : Reward) :
    Fixed.mulFloor perbill cfg.initialPayment reward.total ≤ reward.total := by
  unfold Fixed.mulFloor
  apply Nat.div_le_of_le_mul
  rw [Nat.mul_comm perbill]
  exact Nat.mul_le_mul_left _ cfg.initialPayment_le

/-- Never more than the total should have been claimed. -/
theorem vested_le (h : vested cfg reward vestingPoint = some amount) : amount ≤ reward.total := by
  have hupfront := upfrontPayment_le cfg reward
  unfold vested at h
  split at h
  · exact Nat.le_of_eq (Option.some.inj h).symm
  next hrunning =>
    split at h
    · cases h
    · split at h
      · cases h
      next hperiod =>
        rw [← Option.some.inj h]
        generalize Fixed.mulFloor perbill cfg.initialPayment reward.total = upfront at *
        -- The window is within the period, so at most all of the rest is vested.
        have hwindow : cfg.convert (vestingPoint - vestingPoint % cfg.vestingStep) ≤
            cfg.convert reward.vestingPeriod := by
          apply cfg.convert_mono
          omega
        have hrest : Fixed.saturated ((reward.total - upfront) *
            cfg.convert (vestingPoint - vestingPoint % cfg.vestingStep)) / cfg.convert
              reward.vestingPeriod ≤
              reward.total - upfront := by
          apply Nat.div_le_of_le_mul
          apply Nat.le_trans (Nat.min_le_left _ _)
          rw [Nat.mul_comm]
          exact Nat.mul_le_mul_right _ hwindow
        apply Nat.le_trans (Nat.min_le_left _ _)
        omega

end Vested

/-! ## Populated rewards -/

section Populate

variable {R : Type} [DecidableEq R] {rewards : List (RemoteAccount R × Nat × Nat)}

/-- Nothing is claimed of a reward that was just inserted. -/
theorem claimed_insertRewards {remote : RemoteAccount R} {reward : Reward}
    (h : (insertRewards rewards).lookup remote = some reward) : reward.claimed = 0 := by
  unfold insertRewards at h
  suffices hall :
      ∀ (l : List (RemoteAccount R × Nat × Nat)) (m : StorageMap (RemoteAccount R) Reward),
      (∀ r w, m.lookup r = some w → w.claimed = 0) →
        ∀ r w, (l.foldl (fun m e => m.insert e.1 ⟨e.2.1, 0, e.2.2⟩) m).lookup r = some w →
          w.claimed = 0 from
    hall rewards ∅ (fun r w hw => by simp at hw) remote reward h
  intro l
  induction l with
  | nil => exact fun m hm => hm
  | cons e rest ih =>
      intro m hm
      apply ih
      intro r w hw
      rcases StorageMap.lookup_insert_some.mp hw with ⟨-, rfl⟩ | ⟨-, hold⟩
      · rfl
      · exact hm r w hold

end Populate

/-- Adding up with a cap is adding up, and then capping. -/
theorem foldl_saturated {α : Type} (f : α → Nat) (l : List α) (start : Nat) :
    l.foldl (fun total e => Fixed.saturated (total + f e)) (Fixed.saturated start) =
      Fixed.saturated (start + (l.map f).sum) := by
  induction l generalizing start with
  | nil => simp
  | cons e rest ih =>
      have hhead : Fixed.saturated (Fixed.saturated start + f e) = Fixed.saturated (start + f e) := by
        unfold Fixed.saturated
        omega
      rw [List.foldl_cons, hhead, ih, List.map_cons, List.sum_cons, Nat.add_assoc]

/-! ## The accounts of the pallet -/

variable {A R X : Type} [DecidableEq A] [DecidableEq R] [DecidableEq X]

/-- What was claimed of all rewards. -/
def claimedSum (rewards : StorageMap (RemoteAccount R) Reward) : Nat :=
  StorageMap.total (fun _ reward => reward.claimed) rewards

/-- What all rewards amount to. -/
def rewardSum (rewards : StorageMap (RemoteAccount R) Reward) : Nat :=
  StorageMap.total (fun _ reward => reward.total) rewards

omit [DecidableEq R] in
theorem sumTotals_eq (rewards : StorageMap (RemoteAccount R) Reward) :
    sumTotals rewards = Fixed.saturated (rewardSum rewards) := by
  have h :=
    foldl_saturated (fun e : Sigma fun _ : RemoteAccount R => Reward => e.2.total) rewards.entries 0
  rw [Nat.zero_add] at h
  exact h

/-- The payment that a call makes, if it returns: who gets how much. -/
def payment (cfg : Config A R X) (c : Chain A R X) : Op A R → Option (A × Nat)
  | .associate origin account proof =>
      (associate cfg c.now origin account proof c.pallet).1.toOption.map fun amount =>
        (account, amount)
  | .claim (.signed account) =>
      (claim cfg c.now (.signed account) c.pallet).1.toOption.map fun amount => (account, amount)
  | _ => none

/-- The ledger after some payments. -/
def paidOut (cfg : Config A R X) (l : Ledger A X) (payments : List (A × Nat)) : Ledger A X :=
  payments.foldl (fun l p => l.mint cfg.native p.1 p.2) l

/-- All payments together. -/
def paymentSum (payments : List (A × Nat)) : Nat := (payments.map Prod.snd).sum

/-- What ties the rewards, the counters, the payments and the ledger together. -/
structure Accounted (cfg : Config A R X) (ledger : Ledger A X) (c : Chain A R X)
    (payments : List (A × Nat)) : Prop where
  within : ∀ {remote reward}, c.pallet.rewards.lookup remote = some reward →
    reward.claimed ≤ reward.total
  claimed_eq : c.pallet.claimedRewards = claimedSum c.pallet.rewards
  total_eq : c.pallet.totalRewards = Fixed.saturated (rewardSum c.pallet.rewards)
  paid_eq : paymentSum payments = c.pallet.claimedRewards
  fits : c.pallet.claimedRewards ≤ u128Max
  ledger_eq : c.pallet.ledger = paidOut cfg ledger payments
  /-- Nothing is claimed before the start. -/
  unstarted : c.pallet.vestingBlockStart = none → c.pallet.claimedRewards = 0

variable {cfg : Config A R X} {ledger : Ledger A X} {c : Chain A R X} {payments : List (A × Nat)}

theorem Accounted.genesis (now : Nat) : Accounted cfg ledger ⟨State.genesis ledger, now⟩ [] where
  within h := by simp [State.genesis] at h
  claimed_eq := rfl
  total_eq := rfl
  paid_eq := rfl
  fits := Nat.zero_le _
  ledger_eq := rfl
  unstarted _ := rfl

omit [DecidableEq R] in
/-- Every payment is in the issuance. -/
theorem issuance_paidOut (cfg : Config A R X) (l : Ledger A X) (payments : List (A × Nat)) :
    (paidOut cfg l payments).issuance cfg.native = l.issuance cfg.native + paymentSum payments := by
  induction payments generalizing l with
  | nil => rfl
  | cons p rest ih =>
      have hrest := ih (l.mint cfg.native p.1 p.2)
      simp only [Ledger.issuance_mint, if_true] at hrest
      show (paidOut cfg (l.mint cfg.native p.1 p.2) rest).issuance cfg.native = _
      rw [hrest]
      simp only [paymentSum, List.map_cons, List.sum_cons]
      omega

/-- What a claim that returned has checked and done. -/
theorem doClaim_ok {now : Nat} {remote : RemoteAccount R} {account : A} {s s' : State A R X}
    {amount : Nat} : doClaim cfg now remote account s = (.ok amount, s') ↔
      ∃ reward start should, s.rewards.lookup remote = some reward ∧
        s.vestingBlockStart = some start ∧
        vested cfg reward (now - start) = some should ∧ 0 < should - reward.claimed ∧
        cfg.currency.mintRefused s.ledger cfg.native account (should - reward.claimed) = none ∧
        amount = should - reward.claimed ∧
        s' = { s with
          ledger := s.ledger.mint cfg.native account (should - reward.claimed)
          rewards := s.rewards.insert remote
            { reward with claimed := Fixed.saturated (should - reward.claimed + reward.claimed) }
          claimedRewards := Fixed.saturated (s.claimedRewards + (should - reward.claimed)) } := by
  simp only [doClaim, shouldHaveClaimed, Call.get_bind, Call.bind_ok, Call.ofOption_ok,
    Call.ensure_ok, Call.zoom_ok, Currency.mintInto_ok, Call.modify_ok, Call.pure_ok, State.putReward]
  constructor
  · rintro ⟨reward, _, ⟨hreward, rfl⟩, should, _, ⟨start, _, ⟨hstart, rfl⟩, hshould, rfl⟩, _, _, ⟨hpos, rfl⟩, _, _,
      ⟨_, ⟨hmint, rfl⟩, rfl⟩, _, _, rfl, rfl, rfl⟩
    exact ⟨reward, start, should, hreward, hstart, hshould, hpos, hmint, rfl, rfl⟩
  · rintro ⟨reward, start, should, hreward, hstart, hshould, hpos, hmint, rfl, rfl⟩
    exact ⟨reward, s, ⟨hreward, rfl⟩, should, s, ⟨start, s, ⟨hstart, rfl⟩, hshould, rfl⟩, (), s,
      ⟨hpos, rfl⟩, (), _, ⟨_, ⟨hmint, rfl⟩, rfl⟩, (), _, rfl, rfl, rfl⟩

/-! ## Steps -/

/-- An accepted mint leaves the issuance a balance. -/
def MintsWithin (cfg : Config A R X) : Prop :=
  ∀ l a n, cfg.currency.mintRefused l cfg.native a n = none → l.issuance cfg.native + n ≤ u128Max

/-- **A claim moves its amount in every account at once**: the reward, the counter, the
    payments and the ledger. -/
theorem Accounted.claimed (hmint : MintsWithin cfg) (h : Accounted cfg ledger c payments)
    {remote : RemoteAccount R} {account : A} {s' : State A R X} {amount : Nat}
    (hclaim : doClaim cfg c.now remote account c.pallet = (.ok amount, s')) :
    Accounted cfg ledger { c with pallet := s' } (payments ++ [(account, amount)]) := by
  obtain ⟨reward, start, should, hreward, hstart, hshould, hpos, haccepted, rfl, rfl⟩ :=
    doClaim_ok.mp hclaim
  have hvested : should ≤ reward.total := vested_le hshould
  -- What has been paid is in the issuance, so nothing saturates.
  have hissuance := hmint _ _ _ haccepted
  rw [h.ledger_eq, issuance_paidOut, h.paid_eq] at hissuance
  have hshare : reward.claimed ≤ claimedSum c.pallet.rewards :=
    StorageMap.le_total (f := fun _ w => w.claimed) hreward
  have hclaimed := h.claimed_eq
  have hreward' : Fixed.saturated (should - reward.claimed + reward.claimed) = should := by
    unfold Fixed.saturated
    omega
  have hcounter : Fixed.saturated (c.pallet.claimedRewards + (should - reward.claimed)) =
      c.pallet.claimedRewards + (should - reward.claimed) := by
    unfold Fixed.saturated
    omega
  simp only [hreward', hcounter]
  refine ⟨fun {r w} hw => ?_, ?_, ?_, ?_, ?_, ?_, fun hnone => ?_⟩
  · rcases StorageMap.lookup_insert_some.mp hw with ⟨-, rfl⟩ | ⟨-, hold⟩
    · exact hvested
    · exact h.within hold
  · have hinsert :=
      StorageMap.total_insert (f := fun _ (w : Reward) => w.claimed) (m := c.pallet.rewards)
        (k := remote)
      (v := { reward with claimed := should })
    rw [StorageMap.share_of_lookup hreward] at hinsert
    unfold claimedSum at *
    simp only at hinsert ⊢
    omega
  · have hinsert :=
      StorageMap.total_insert (f := fun _ (w : Reward) => w.total) (m := c.pallet.rewards)
        (k := remote)
      (v := { reward with claimed := should })
    rw [StorageMap.share_of_lookup hreward] at hinsert
    have hsame : rewardSum (c.pallet.rewards.insert remote { reward with claimed := should }) =
        rewardSum c.pallet.rewards := Nat.add_right_cancel hinsert
    simp only [hsame]
    exact h.total_eq
  · have hpaid := h.paid_eq
    simp only [paymentSum, List.map_append, List.sum_append, List.map_cons, List.map_nil,
      List.sum_cons, List.sum_nil] at hpaid ⊢
    omega
  · simp only
    omega
  · simp only [paidOut, List.foldl_append, List.foldl_cons, List.foldl_nil, h.ledger_eq]
  · exact absurd (hstart.symm.trans hnone) nofun

/-- New rewards before the start: nothing is claimed of them. -/
theorem Accounted.populated (h : Accounted cfg ledger c payments)
    (hstart : c.pallet.vestingBlockStart = none)
    (rewards : List (RemoteAccount R × Nat × Nat)) (contributors : Nat) :
    Accounted cfg ledger { c with pallet := { c.pallet with
      rewards := insertRewards rewards
      totalRewards := sumTotals (insertRewards rewards)
      totalContributors := contributors } } payments where
  within hw := by
    rw [claimed_insertRewards hw]
    exact Nat.zero_le _
  claimed_eq := by
    have hzero : claimedSum (insertRewards rewards) = 0 := by
      have hcongr : claimedSum (insertRewards rewards) =
          StorageMap.total (fun _ _ => 0) (insertRewards rewards) := by
        apply StorageMap.total_congr
        intro e he
        exact claimed_insertRewards (AList.mem_lookup_iff.mpr he)
      rw [hcongr]
      simp [StorageMap.total]
    simp only [hzero]
    exact h.unstarted hstart
  total_eq := sumTotals_eq _
  paid_eq := h.paid_eq
  fits := h.fits
  ledger_eq := h.ledger_eq
  unstarted := h.unstarted

theorem Accounted.started (h : Accounted cfg ledger c payments) (start : Nat) :
    Accounted cfg ledger { c with pallet := { c.pallet with vestingBlockStart := some start } }
      payments :=
  ⟨h.within, h.claimed_eq, h.total_eq, h.paid_eq, h.fits, h.ledger_eq, nofun⟩

omit [DecidableEq A] [DecidableEq R] [DecidableEq X] in
theorem getRemoteAccount_reads (account : A) (proof : Proof R) :
    (getRemoteAccount cfg account proof).Reads := by
  cases proof with
  | ethereum signature => exact .bind (.ofOption _ _) fun _ => .pure _
  | relayChain relayAccount signature => exact .bind (.ensure _ _) fun _ => .pure _

omit [DecidableEq A] [DecidableEq R] [DecidableEq X] in
/-- Initialisation happens once, and starts the vesting. -/
theorem initializeAt_cases (cfg : Config A R X) (origin : RawOrigin A) (start : Nat)
    (s : State A R X) :
    dispatch (initializeAt cfg origin start) s = s ∨ s.vestingBlockStart = none ∧
      dispatch (initializeAt cfg origin start) s = { s with vestingBlockStart := some start } := by
  rcases dispatch_transactional (do
      ensureAdmin cfg origin
      let s ← Call.get
      Call.ensure (s.vestingBlockStart = none) (.module .alreadyInitialized)
      doInitialize start) s with hsame | ⟨_, hok⟩
  · exact .inl hsame
  · simp only [ensureAdmin, doInitialize, Call.bind_ok, Call.get_bind, Call.ensure_ok,
      Call.modify_ok] at hok
    obtain ⟨_, _, ⟨-, rfl⟩, _, _, ⟨hnone, rfl⟩, hdone⟩ := hok
    exact .inr ⟨hnone, hdone⟩

omit [DecidableEq A] [DecidableEq X] in
/-- Rewards are replaced as long as the vesting has not started. -/
theorem populate_cases (cfg : Config A R X) (origin : RawOrigin A)
    (rewards : List (RemoteAccount R × Nat × Nat)) (s : State A R X) :
    dispatch (populate cfg origin rewards) s = s ∨
      s.vestingBlockStart = none ∧ ∃ contributors, dispatch (populate cfg origin rewards) s = { s with
        rewards := insertRewards rewards
        totalRewards := sumTotals (insertRewards rewards)
        totalContributors := contributors } := by
  rcases dispatch_transactional (do
      ensureAdmin cfg origin
      doPopulate rewards) s with hsame | ⟨_, hok⟩
  · exact .inl hsame
  · simp only [ensureAdmin, doPopulate, Call.bind_ok, Call.get_bind, Call.ensure_ok,
      Call.modify_ok] at hok
    obtain ⟨_, _, ⟨-, rfl⟩, _, _, ⟨hstart, rfl⟩, hdone⟩ := hok
    exact .inr ⟨hstart, _, hdone⟩

/-- An association that returns is a claim for the remote account that signed, and its entry. -/
theorem associate_cases (cfg : Config A R X) (now : Nat) (origin : RawOrigin A) (account : A)
    (proof : Proof R) (s : State A R X) :
    (∃ amount remote t, (associate cfg now origin account proof s).1.toOption = some amount ∧
      doClaim cfg now remote account s = (.ok amount, t) ∧
      dispatch (associate cfg now origin account proof) s = { t with
        associations := fun a => if a = account then some remote else t.associations a }) ∨
    (associate cfg now origin account proof s).1.toOption = none ∧
      dispatch (associate cfg now origin account proof) s = s := by
  rcases transactional_toOption (do
      ensureNone origin
      doAssociate cfg now account proof) s with ⟨amount, hpaid, hok⟩ | hfailed
  · simp only [ensureNone, doAssociate, Call.bind_ok, Call.get_bind, Call.ofOption_ok, Call.ensure_ok,
      Call.modify_ok, Call.pure_ok] at hok
    obtain ⟨_, _, ⟨-, rfl⟩, start, _, ⟨-, rfl⟩, _, _, ⟨-, rfl⟩, remote, t, hremote, _, _, ⟨-, rfl⟩,
      claimed, t', hclaim, _, _, rfl, rfl, hdone⟩ := hok
    obtain rfl := (getRemoteAccount_reads account proof).ok hremote
    exact .inl ⟨amount, remote, t', hpaid, hclaim, hdone⟩
  · exact .inr hfailed

/-- A claim is one for the remote account that the signer is associated with. -/
theorem claim_cases (cfg : Config A R X) (now : Nat) (origin : RawOrigin A) (s : State A R X) :
    (∃ account amount remote, origin = .signed account ∧
      (claim cfg now origin s).1.toOption = some amount ∧
      doClaim cfg now remote account s = (.ok amount, dispatch (claim cfg now origin) s)) ∨
    (claim cfg now origin s).1.toOption = none ∧ dispatch (claim cfg now origin) s = s := by
  rcases transactional_toOption (do
      let rewardAccount ← ensureSigned origin
      let s ← Call.get
      let remote ← Call.ofOption (s.associations rewardAccount) (.module .notAssociated)
      doClaim cfg now remote rewardAccount) s with ⟨amount, hpaid, hok⟩ | hfailed
  · simp only [Call.bind_ok, ensureSigned_ok, Call.get_bind, Call.ofOption_ok] at hok
    obtain ⟨account, _, ⟨hsigner, rfl⟩, remote, _, ⟨-, rfl⟩, hclaim⟩ := hok
    exact .inl ⟨account, amount, remote, hsigner, hpaid, hclaim⟩
  · exact .inr hfailed

/-- **Every step keeps the accounts.** -/
theorem Accounted.step (hmint : MintsWithin cfg) (h : Accounted cfg ledger c payments) {op : Op A R}
    {c' : Chain A R X} (hstep : step cfg c op = some c') :
    Accounted cfg ledger c' (payments ++ (payment cfg c op).toList) := by
  cases op with
  | initializeNow origin =>
      obtain rfl := Option.some.inj hstep
      simp only [payment, Option.toList_none, List.append_nil]
      rcases initializeAt_cases cfg origin c.now c.pallet with hsame | ⟨-, hdone⟩
      · rw [initializeNow, hsame]
        exact h
      · rw [initializeNow, hdone]
        exact h.started c.now
  | initializeAt origin start =>
      obtain rfl := Option.some.inj hstep
      simp only [payment, Option.toList_none, List.append_nil]
      rcases initializeAt_cases cfg origin start c.pallet with hsame | ⟨-, hdone⟩
      · rw [hsame]
        exact h
      · rw [hdone]
        exact h.started start
  | populate origin rewards =>
      obtain rfl := Option.some.inj hstep
      simp only [payment, Option.toList_none, List.append_nil]
      rcases populate_cases cfg origin rewards c.pallet with hsame | ⟨hstart, contributors, hdone⟩
      · rw [hsame]
        exact h
      · rw [hdone]
        exact h.populated hstart rewards contributors
  | associate origin account proof =>
      obtain rfl := Option.some.inj hstep
      rcases associate_cases cfg c.now origin account proof c.pallet with
        ⟨amount, remote, t, hpaid, hclaim, hdone⟩ | ⟨hpaid, hsame⟩
      · simp only [payment, hpaid, Option.map_some, Option.toList_some, hdone]
        have hclaimed := h.claimed hmint hclaim
        exact ⟨hclaimed.within, hclaimed.claimed_eq, hclaimed.total_eq, hclaimed.paid_eq,
          hclaimed.fits, hclaimed.ledger_eq, hclaimed.unstarted⟩
      · simp only [payment, hpaid, Option.map_none, Option.toList_none, List.append_nil, hsame]
        exact h
  | claim origin =>
      obtain rfl := Option.some.inj hstep
      rcases claim_cases cfg c.now origin c.pallet with
        ⟨account, amount, remote, rfl, hpaid, hclaim⟩ | ⟨hpaid, hsame⟩
      · simp only [payment, hpaid, Option.map_some, Option.toList_some]
        exact h.claimed hmint hclaim
      · have hnone : payment cfg c (.claim origin) = none := by
          cases origin with
          | signed account => simp only [payment, hpaid, Option.map_none]
          | _ => rfl
        simp only [hnone, Option.toList_none, List.append_nil, hsame]
        exact h
  | block now =>
      obtain ⟨hle, hc'⟩ := Option.ite_none_right_eq_some.mp hstep
      obtain rfl := Option.some.inj hc'
      simp only [payment, Option.toList_none, List.append_nil]
      exact ⟨h.within, h.claimed_eq, h.total_eq, h.paid_eq, h.fits, h.ledger_eq, h.unstarted⟩

/-! ## Runs -/

/-- What is meant by rewards that are not overpaid, after some payments out of a ledger. -/
structure NotOverpaid (cfg : Config A R X) (ledger : Ledger A X) (s : State A R X)
    (payments : List (A × Nat)) : Prop where
  within : ∀ remote reward, s.rewards.lookup remote = some reward → reward.claimed ≤ reward.total
  claimed_eq : s.claimedRewards = claimedSum s.rewards
  paid_eq : paymentSum payments = s.claimedRewards
  ledger_eq : s.ledger = paidOut cfg ledger payments
  bounded : s.claimedRewards ≤ s.totalRewards

omit [DecidableEq R] in
theorem claimedSum_le_rewardSum {rewards : StorageMap (RemoteAccount R) Reward}
    (h : ∀ e ∈ rewards.entries, e.2.claimed ≤ e.2.total) : claimedSum rewards ≤ rewardSum rewards :=
  StorageMap.total_le_total h

/-- **Crowdloan rewards are never overpaid**, in any run of the pallet over any contributors. -/
theorem never_overpaid (hmint : MintsWithin cfg) (ledger : Ledger A X) (now : Nat)
    (ops : List (Op A R)) (hrun : run (step cfg) ⟨State.genesis ledger, now⟩ ops = some c) :
    NotOverpaid cfg ledger c.pallet
      (history (step cfg) (payment cfg) ⟨State.genesis ledger, now⟩ ops) := by
  have h : Accounted cfg ledger c
      ([] ++ history (step cfg) (payment cfg) ⟨State.genesis ledger, now⟩ ops) := by
    refine history_collect (J := Accounted cfg ledger) ?_ (.genesis now) (along_true _ ops) hrun
    intro c op c' found h _ hstep
    exact h.step hmint hstep
  rw [List.nil_append] at h
  refine ⟨fun _ _ => h.within, h.claimed_eq, h.paid_eq, h.ledger_eq, ?_⟩
  -- No reward is claimed beyond its total, so the sums compare as well.
  have hsum : claimedSum c.pallet.rewards ≤ rewardSum c.pallet.rewards := by
    apply claimedSum_le_rewardSum
    intro e he
    exact h.within (AList.mem_lookup_iff.mpr he)
  have hclaimed := h.claimed_eq
  have hfits := h.fits
  rw [h.total_eq]
  unfold Fixed.saturated
  omega

/-- The remote account `1` has a reward of `100`, of which account `7` gets the upfront half. After
    half of the period `7` claims, and account `8` is associated as well at its end. -/
def rewardOps : List (Op Nat Nat) :=
  [.populate .root [(.relayChain 1, 100, 40), (.ethereum ⟨Vector.replicate 20 0⟩, 50, 10)],
    .initializeNow .root,
    .associate .none 7 (.relayChain 1 (.ed25519 (Vector.replicate 64 0))), .block 20,
    .claim (.signed 7), .block 40,
    .associate .none 8 (.relayChain 1 (.ed25519 (Vector.replicate 64 0)))]

theorem never_overpaid_sample :
    ∃ c, run (step sample) ⟨State.genesis Ledger.empty, 0⟩ rewardOps = some c ∧
      NotOverpaid sample Ledger.empty c.pallet
        (history (step sample) (payment sample) ⟨State.genesis Ledger.empty, 0⟩ rewardOps) := by
  have hsome : (run (step sample) ⟨State.genesis Ledger.empty, 0⟩ rewardOps).isSome = true := by
    decide +kernel
  obtain ⟨c, hc⟩ := Option.isSome_iff_exists.mp hsome
  refine ⟨c, hc, never_overpaid ?_ _ _ _ hc⟩
  intro l a n haccepted
  exact Currency.le_of_cappedIssuance haccepted

/-- The three payments are the upfront half, a half of the rest, and what is left. -/
example : (history (step sample) (payment sample) ⟨State.genesis Ledger.empty, 0⟩ rewardOps) =
    [(7, 50), (7, 25), (8, 25)] := by
  decide +kernel

end CrowdloanRewards
end Composable
