import Composable.BondedFinance.Model
import Composable.Support.Tally

/-!
# `BondedFinance.Rewards` — bond rewards are distributed exactly

A purchase takes its share of what is left of the reward, rounded, so rounding moves along
from purchase to purchase. The last one takes all contracts that are left, and with them all
that is left of the reward: shares, remainder and refund always add up to the reward of the
offer (`rewards_distributed`).
-/

namespace Composable
namespace BondedFinance

variable {A X : Type} [DecidableEq A] [DecidableEq X]
variable {cfg : Config A X} {s s' : State A X} {now offerId nbOfBonds share : Nat} {source : A}
  {keepAlive : Bool}
variable {u : Unit}

/-! ## Runs -/

/-- What happens to an offer, and what other pallets do to the ledger and to vesting in between. -/
inductive Op (A X : Type) where
  | bond (now : Nat) (origin : RawOrigin A) (offerId nbOfBonds : Nat) (keepAlive : Bool)
  | cancel (origin : RawOrigin A) (offerId : Nat)
  | elsewhere (vesting : Vesting.State A X)

def step (cfg : Config A X) (s : State A X) : Op A X → Option (State A X)
  | .bond now origin offerId nbOfBonds keepAlive =>
      some (dispatch (bond cfg now origin offerId nbOfBonds keepAlive) s)
  | .cancel origin offerId => some (dispatch (cancel cfg origin offerId) s)
  | .elsewhere vesting => some { s with vesting := vesting }

/-- The share of the reward of an offer that an operation vests to a bonder. -/
def shareVested (cfg : Config A X) (offerId : Nat) (s : State A X) : Op A X → Nat
  | .bond now (.signed source) id nbOfBonds keepAlive =>
      if id = offerId then (doBond cfg now id source nbOfBonds keepAlive s).1.toOption.getD 0 else 0
  | _ => 0

/-- What is left of the reward of an offer. -/
def State.rewardLeft (s : State A X) (offerId : Nat) : Nat :=
  (s.bondOffers offerId).elim 0 fun o => o.2.reward.amount

/-- The reward that an operation pays back to the issuer of an offer. -/
def rewardRefunded (cfg : Config A X) (offerId : Nat) (s : State A X) : Op A X → Nat
  | .cancel origin id =>
      if id = offerId ∧ (cancel cfg origin id s).1.toBool = true then s.rewardLeft offerId else 0
  | _ => 0

/-! ## Calls -/

/-- The storage after a transfer. -/
def State.paid (s : State A X) (asset : X) (source dest : A) (amount : Nat) : State A X :=
  { s with vesting := { s.vesting with ledger := s.vesting.ledger.move asset source dest amount } }

/-- The currency, under the locks that are in place, does not refuse the transfer. -/
def Accepts (cfg : Config A X) (s : State A X) (asset : X) (source dest : A) (amount : Nat)
    (keepAlive : Bool) : Prop :=
  (cfg.vesting.currency s.vesting.locks).transferRefused s.vesting.ledger asset source dest amount
    keepAlive = none

theorem transfer_returns_iff {asset : X} {dest : A} {amount : Nat} :
    transfer cfg asset source dest amount keepAlive s = (.ok u, s') ↔
      Accepts cfg s asset source dest amount keepAlive ∧ s' = s.paid asset source dest amount := by
  simp only [transfer, Call.get_bind, Call.zoom_ok, Currency.transfer_ok]
  constructor
  · rintro ⟨_, ⟨haccepts, rfl⟩, rfl⟩
    exact ⟨haccepts, rfl⟩
  · rintro ⟨haccepts, rfl⟩
    exact ⟨_, ⟨haccepts, rfl⟩, rfl⟩

theorem vest_ok {asset : X} {dest : A} {period amount : Nat}
    (h : vest cfg now asset source dest period amount s = (.ok u, s')) :
    ∃ v, Vesting.vestedTransfer cfg.vesting now asset source dest ⟨now, period, 1, amount⟩
      s.vesting = (.ok u, v) ∧
      s' = { s with vesting := v } := by
  simp only [vest, Call.zoom_ok] at h
  exact h

/-- A purchase of `nbOfBonds` contracts of `offer`, that gets a share of its reward. -/
structure Bonded (s : State A X) (offerId nbOfBonds share : Nat) (issuer : A)
    (offer : BondOffer A X) : Prop where
  offer_eq : s.bondOffers offerId = some (issuer, offer)
  pos : 0 < nbOfBonds
  le : nbOfBonds ≤ offer.nbOfBonds
  share_eq : share = Fixed.quotient nbOfBonds offer.reward.amount offer.nbOfBonds

/-- The ledger once the value and the share of a purchase have changed hands. -/
def tradedLedger (cfg : Config A X) (l : Ledger A X) (offerId nbOfBonds share : Nat) (source : A)
    (offer : BondOffer A X) : Ledger A X :=
  let value := nbOfBonds * offer.bondPrice
  let l :=
    (l.move offer.asset source offer.beneficiary value).move offer.reward.asset
      (cfg.accountId offerId) source share
  match offer.maturity with
  | .finite _ => l.move offer.asset offer.beneficiary source value
  | .infinite => l

/-- The ledger after a purchase: the last one sends the stake back to the issuer. -/
def bondedLedger (cfg : Config A X) (l : Ledger A X) (offerId nbOfBonds share : Nat)
    (source issuer : A) (offer : BondOffer A X) : Ledger A X :=
  let l := tradedLedger cfg l offerId nbOfBonds share source offer
  if (offer.sold nbOfBonds share).completed = true then
    l.move cfg.nativeAsset (cfg.accountId offerId) issuer cfg.stake
  else l

/-- What follows once the value is vested: the stake goes back with the last contracts. -/
theorem bondRest_ok {issuer : A} {offer : BondOffer A X} {rewardShare : Nat}
    (h : (do
      Call.ensure (rewardShare ≤ offer.reward.amount) .panic
      Call.when ((offer.sold nbOfBonds rewardShare).completed = true)
        (transfer cfg cfg.nativeAsset (cfg.accountId offerId) issuer cfg.stake false)
      Call.modify fun s => { s with
        bondOffers :=
          Function.update s.bondOffers offerId (some (issuer, offer.sold nbOfBonds rewardShare)) }
      pure rewardShare : BondCall A X Nat) s = (.ok share, s')) :
    share = rewardShare ∧ s'.vesting.vestingSchedules = s.vesting.vestingSchedules ∧
      s'.vesting.ledger = (if (offer.sold nbOfBonds rewardShare).completed = true then
        s.vesting.ledger.move cfg.nativeAsset (cfg.accountId offerId) issuer cfg.stake
          else s.vesting.ledger) ∧
      s'.bondOffers = Function.update s.bondOffers offerId
        (some (issuer, offer.sold nbOfBonds rewardShare)) := by
  simp only [Call.bind_ok, Call.ensure_ok, Call.modify_ok, Call.pure_ok] at h
  obtain ⟨_, _, ⟨-, rfl⟩, _, t, hstake, _, _, rfl, rfl, rfl⟩ := h
  rcases Call.when_ok.mp hstake with ⟨hlast, hpaid⟩ | ⟨hmore, rfl⟩
  · obtain ⟨-, rfl⟩ := transfer_returns_iff.mp hpaid
    exact ⟨rfl, rfl, (if_pos hlast).symm, rfl⟩
  · exact ⟨rfl, rfl, (if_neg hmore).symm, rfl⟩

/-- A schedule of one period is worth what it pays in it. -/
theorem totalAmount_once {start period perPeriod amount : Nat}
    (h : (⟨start, period, 1, perPeriod⟩ : Vesting.VestingSchedule).totalAmount = some amount) :
    perPeriod = amount := by
  simp only [Vesting.VestingSchedule.totalAmount, Vesting.VestingSchedule.totalAmountIn,
    Nat.mul_one] at h
  split at h
  · exact Option.some.inj h
  · cases h

/-- **A purchase** takes its share of what is left of the reward, and vests it to the bonder. -/
theorem doBond_ok (h : doBond cfg now offerId source nbOfBonds keepAlive s = (.ok share, s')) :
    ∃ issuer offer, Bonded s offerId nbOfBonds share issuer offer ∧
      (0 < share → ⟨now, offer.reward.maturity, 1, share⟩ ∈
        s'.vesting.vestingSchedules source offer.reward.asset) ∧
      s'.vesting.ledger = bondedLedger cfg s.vesting.ledger offerId nbOfBonds share source
        issuer offer ∧
      s'.bondOffers = Function.update s.bondOffers offerId
        (some (issuer, offer.sold nbOfBonds share)) := by
  simp only [doBond, getOffer, Call.transactional_ok, Call.bind_ok, Call.get_bind, Call.ofOption_ok,
    Call.ensure_ok, Call.ofExcept_ok] at h
  obtain ⟨⟨issuer, offer⟩, _, ⟨hoffer, rfl⟩, _, _, ⟨-, rfl⟩, _, _, ⟨⟨hpos, hle⟩, rfl⟩, _, _,
    ⟨-, rfl⟩, rewardShare, _, ⟨hshare, rfl⟩, _, t, hpaid, _, t', hvested, h⟩ := h
  obtain ⟨-, rfl⟩ := transfer_returns_iff.mp hpaid
  obtain ⟨v, hv, rfl⟩ := vest_ok hvested
  obtain ⟨⟨amount, hperiod, htotal, -, hshared⟩, hschedule, -⟩ := Vesting.vestedTransfer_ok hv
  obtain rfl := totalAmount_once htotal
  have hdivisor : 0 < offer.nbOfBonds := hpos.trans_le hle
  have hrounded : rewardShare = Fixed.quotient nbOfBonds offer.reward.amount offer.nbOfBonds := by
    cases hcomputed : Fixed.multiplyByRational nbOfBonds offer.reward.amount offer.nbOfBonds with
    | error e =>
        rw [hcomputed] at hshare
        cases hshare
    | ok r =>
        rw [hcomputed] at hshare
        obtain rfl := Except.ok.inj hshare
        exact ((Fixed.multiplyByRational_ok hdivisor).mp hcomputed).2
  -- All of the share is locked in this block, so the second transfer keeps its schedule.
  have hlocked : 0 < rewardShare →
      (⟨now, offer.reward.maturity, 1, rewardShare⟩ : Vesting.VestingSchedule).lockedAmount
        now ≠ some 0 := by
    intro hshare' hzero
    have hstart := Vesting.VestingSchedule.lockedAmount_start hperiod
    simp only at hstart
    rw [hstart] at hzero
    simp only [Vesting.VestingSchedule.totalAmount, Vesting.VestingSchedule.totalAmountIn,
      Nat.mul_one] at hzero
    split at hzero
    · exact hshare'.ne' (Option.some.inj hzero)
    · cases hzero
  cases hmaturity : offer.maturity with
  | finite returnIn =>
      simp only [hmaturity] at h
      obtain ⟨_, t, hreturned, hrest⟩ := Call.bind_ok.mp h
      obtain ⟨v', hv', rfl⟩ := vest_ok hreturned
      obtain ⟨⟨amount, -, htotal', -, hgiven⟩, -, hkept⟩ := Vesting.vestedTransfer_ok hv'
      obtain rfl := totalAmount_once htotal'
      obtain ⟨rfl, hschedules, hledger, hoffers⟩ := bondRest_ok hrest
      refine ⟨issuer, offer, ⟨hoffer, hpos, hle, hrounded⟩, fun hpos' => ?_, ?_, hoffers⟩
      · rw [hschedules]
        exact hkept _ _ _ hschedule (hlocked hpos')
      · simp only [bondedLedger, tradedLedger, hmaturity]
        rw [hledger, hgiven, hshared]
        rfl
  | infinite =>
      simp only [hmaturity] at h
      obtain ⟨rfl, hschedules, hledger, hoffers⟩ := bondRest_ok h
      refine ⟨issuer, offer, ⟨hoffer, hpos, hle, hrounded⟩, fun _ => ?_, ?_, hoffers⟩
      · rw [hschedules]
        exact hschedule
      · simp only [bondedLedger, tradedLedger, hmaturity]
        rw [hledger, hshared]
        rfl

/-- All that `cancel` checks before it returns. -/
structure Cancellable (cfg : Config A X) (s : State A X) (origin : RawOrigin A) (offerId : Nat)
    (issuer : A) (offer : BondOffer A X) : Prop where
  offer_eq : s.bondOffers offerId = some (issuer, offer)
  allowed : cfg.isAdmin origin = true ∨ origin = .signed issuer
  staked : Accepts cfg s cfg.nativeAsset (cfg.accountId offerId) issuer cfg.stake false
  rewarded : Accepts cfg (s.paid cfg.nativeAsset (cfg.accountId offerId) issuer cfg.stake)
    offer.reward.asset
    (cfg.accountId offerId) issuer offer.reward.amount false

/-- **A cancellation** pays back the stake and all that is left of the reward, and removes the
    offer. -/
theorem cancel_returns_iff {origin : RawOrigin A} : cancel cfg origin offerId s = (.ok u, s') ↔
    ∃ issuer offer, Cancellable cfg s origin offerId issuer offer ∧
      s' = { (s.paid cfg.nativeAsset (cfg.accountId offerId) issuer cfg.stake).paid offer.reward.asset
          (cfg.accountId offerId) issuer offer.reward.amount with
        bondOffers := Function.update s.bondOffers offerId none } := by
  simp only [cancel, getOffer, Call.transactional_ok, Call.bind_ok, Call.get_bind, Call.ofOption_ok,
    Call.ensure_ok, Call.modify_ok, transfer_returns_iff]
  constructor
  · rintro ⟨⟨issuer, offer⟩, _, ⟨hoffer, rfl⟩, _, _, ⟨hallowed, rfl⟩, _, _, ⟨hstaked, rfl⟩, _, _, ⟨hrewarded, rfl⟩, rfl⟩
    exact ⟨issuer, offer, ⟨hoffer, hallowed, hstaked, hrewarded⟩, rfl⟩
  · rintro ⟨issuer, offer, h, rfl⟩
    exact ⟨(issuer, offer), _, ⟨h.offer_eq, rfl⟩, (), _, ⟨h.allowed, rfl⟩, (), _,
      ⟨h.staked, rfl⟩, (), _, ⟨h.rewarded, rfl⟩, rfl⟩

omit [DecidableEq A] [DecidableEq X] in
/-- An extrinsic around a transactional call for the signer returned what the call
    does, or changed nothing. -/
theorem dispatch_signed (f : A → BondCall A X Nat) (origin : RawOrigin A) (s : State A X) :
    let extrinsic : BondCall A X Unit := do
      let source ← ensureSigned origin
      let _ ← Call.transactional (f source)
    (∃ source a, origin = .signed source ∧
      Call.transactional (f source) s = (.ok a, dispatch extrinsic s)) ∨
      (∀ source, origin = .signed source → (Call.transactional (f source) s).1.toOption = none) ∧
        dispatch extrinsic s = s := by
  intro extrinsic
  cases origin with
  | root => exact .inr ⟨nofun, rfl⟩
  | none => exact .inr ⟨nofun, rfl⟩
  | signed source =>
      rcases hcall : Call.transactional (f source) s with ⟨e | a, t⟩
      · right
        obtain rfl : t = s := Call.transactional_error hcall
        have hfailed : extrinsic t = (.error e, t) := by
          show Call.bind (Call.transactional (f source)) _ t = _
          rw [Call.bind, hcall]
        refine ⟨fun source' horigin => ?_, ?_⟩
        · cases horigin
          rw [hcall]
          rfl
        · rw [dispatch, hfailed]
          cases e <;> rfl
      · left
        have hreturned : extrinsic s = (.ok (), t) := Call.bind_of_ok hcall
        refine ⟨source, a, rfl, ?_⟩
        rw [dispatch, hreturned]
        exact hcall

/-- The extrinsic `bond` returned with a share vested, or changed nothing. -/
theorem dispatch_bond (cfg : Config A X) (now : Nat) (origin : RawOrigin A) (offerId nbOfBonds : Nat)
    (keepAlive : Bool) (s : State A X) :
    (∃ source share, origin = .signed source ∧ doBond cfg now offerId source nbOfBonds keepAlive s =
        (.ok share, dispatch (bond cfg now origin offerId nbOfBonds keepAlive) s)) ∨
      (∀ source, origin = .signed source →
        (doBond cfg now offerId source nbOfBonds keepAlive s).1.toOption = none) ∧
        dispatch (bond cfg now origin offerId nbOfBonds keepAlive) s = s :=
  dispatch_signed _ origin s

/-- The extrinsic `offer` returned with the id of the offer, or changed nothing. -/
theorem dispatch_offer (cfg : Config A X) (origin : RawOrigin A) (offer : BondOffer A X)
    (keepAlive : Bool) (s : State A X) :
    (∃ source id, origin = .signed source ∧ doOffer cfg source offer keepAlive s =
        (.ok id, dispatch (BondedFinance.offer cfg origin offer keepAlive) s)) ∨
      (∀ source, origin = .signed source → (doOffer cfg source offer keepAlive s).1.toOption = none) ∧
        dispatch (BondedFinance.offer cfg origin offer keepAlive) s = s :=
  dispatch_signed _ origin s

/-- The extrinsic `cancel` returned, or changed nothing. -/
theorem dispatch_cancel (cfg : Config A X) (origin : RawOrigin A) (offerId : Nat) (s : State A X) :
    ((cancel cfg origin offerId s).1.toBool = true ∧
        ∃ u, cancel cfg origin offerId s = (.ok u, dispatch (cancel cfg origin offerId) s)) ∨
      (cancel cfg origin offerId s).1.toBool = false ∧
        dispatch (cancel cfg origin offerId) s = s := by
  obtain ⟨body, hbody⟩ : ∃ body, cancel cfg origin offerId = Call.transactional body := ⟨_, rfl⟩
  rw [hbody]
  rcases transactional_cases body s with ⟨hreturned, u, hok⟩ | hfailed
  · exact .inl ⟨hreturned, u, Call.transactional_ok.mpr hok⟩
  · exact .inr hfailed

/-! ## Steps -/

/-- What is left of a completed offer is nothing. -/
def Exhausted (offerId : Nat) (s : State A X) : Prop :=
  ∀ issuer offer, s.bondOffers offerId = some (issuer, offer) → offer.nbOfBonds = 0 →
    offer.reward.amount = 0

omit [DecidableEq A] [DecidableEq X] in
theorem rewardLeft_eq {issuer : A} {offer : BondOffer A X}
    (h : s.bondOffers offerId = some (issuer, offer)) :
    s.rewardLeft offerId = offer.reward.amount := by
  rw [State.rewardLeft, h]
  rfl

namespace Bonded

variable {issuer : A} {offer : BondOffer A X}

omit [DecidableEq A] [DecidableEq X] in
/-- A share is never more than what is left. -/
theorem share_le (h : Bonded s offerId nbOfBonds share issuer offer) :
    share ≤ offer.reward.amount := by
  rw [h.share_eq]
  apply Fixed.quotient_le
  rw [Nat.mul_comm]
  exact Nat.mul_le_mul_left _ h.le

omit [DecidableEq A] [DecidableEq X] in
/-- Whoever takes all contracts that are left takes all that is left of the reward. -/
theorem share_of_last (h : Bonded s offerId nbOfBonds share issuer offer)
    (hlast : (offer.sold nbOfBonds share).nbOfBonds = 0) :
    (offer.sold nbOfBonds share).reward.amount = 0 := by
  have hall : nbOfBonds = offer.nbOfBonds := Nat.le_antisymm h.le (Nat.sub_eq_zero_iff_le.mp hlast)
  show offer.reward.amount - share = 0
  rw [h.share_eq, hall, Fixed.quotient_self (hall ▸ h.pos), Nat.sub_self]

end Bonded

omit [DecidableEq A] [DecidableEq X] in
/-- Calls for other offers leave an offer alone. -/
theorem Exhausted.of_other {n : Nat} {o : Option (A × BondOffer A X)} (h : Exhausted offerId s)
    (hne : offerId ≠ n) (hoffers : s'.bondOffers = Function.update s.bondOffers n o) :
    Exhausted offerId s' ∧ s.rewardLeft offerId = s'.rewardLeft offerId := by
  have hkept : s'.bondOffers offerId = s.bondOffers offerId := by
    rw [hoffers, Function.update_of_ne hne]
  unfold Exhausted State.rewardLeft
  rw [hkept]
  exact ⟨h, rfl⟩

theorem bond_reward {n : Nat} {origin : RawOrigin A} (h : Exhausted offerId s)
    (hstep : dispatch (bond cfg now origin n nbOfBonds keepAlive) s = s') :
    Exhausted offerId s' ∧
      s.rewardLeft offerId = s'.rewardLeft offerId +
        shareVested cfg offerId s (.bond now origin n nbOfBonds keepAlive) := by
  rcases dispatch_bond cfg now origin n nbOfBonds keepAlive s with
    ⟨source, share, rfl, hcall⟩ | ⟨hfailed, hsame⟩
  · rw [hstep] at hcall
    obtain ⟨issuer, offer, hbonded, -, -, hoffers⟩ := doBond_ok hcall
    by_cases hn : n = offerId
    · subst hn
      have hleft : s'.bondOffers n = some (issuer, offer.sold nbOfBonds share) := by
        rw [hoffers, Function.update_self]
      have hshare :
          shareVested cfg n s (.bond now (.signed source) n nbOfBonds keepAlive) = share := by
        rw [shareVested, if_pos rfl, hcall]
        rfl
      refine ⟨fun issuer' offer' hoffer' hzero => ?_, ?_⟩
      · rw [hleft] at hoffer'
        cases hoffer'
        exact hbonded.share_of_last hzero
      · rw [rewardLeft_eq hbonded.offer_eq, rewardLeft_eq hleft, hshare]
        exact (Nat.sub_add_cancel hbonded.share_le).symm
    · rw [shareVested, if_neg hn, Nat.add_zero]
      exact h.of_other (Ne.symm hn) hoffers
  · obtain rfl : s = s' := hsame.symm.trans hstep
    refine ⟨h, ?_⟩
    have hnothing : shareVested cfg offerId s (.bond now origin n nbOfBonds keepAlive) = 0 := by
      cases origin with
      | signed source =>
          rw [shareVested, hfailed source rfl]
          split <;> rfl
      | _ => rfl
    rw [hnothing, Nat.add_zero]

theorem cancel_reward {n : Nat} {origin : RawOrigin A} (h : Exhausted offerId s)
    (hstep : dispatch (cancel cfg origin n) s = s') :
    Exhausted offerId s' ∧
      s.rewardLeft offerId = s'.rewardLeft offerId +
        rewardRefunded cfg offerId s (.cancel origin n) := by
  rcases dispatch_cancel cfg origin n s with ⟨hreturned, u, hcall⟩ | ⟨hfailed, hidle⟩
  · rw [hstep] at hcall
    obtain ⟨issuer, offer, -, rfl⟩ := cancel_returns_iff.mp hcall
    by_cases hn : n = offerId
    · subst hn
      have hgone : Function.update s.bondOffers n none n = none := Function.update_self ..
      refine ⟨fun issuer' offer' hoffer' => ?_, ?_⟩
      · exact nomatch hgone.symm.trans hoffer'
      · rw [rewardRefunded, if_pos ⟨rfl, hreturned⟩]
        simp [State.rewardLeft]
    · rw [rewardRefunded, if_neg fun hself => hn hself.1, Nat.add_zero]
      exact h.of_other (Ne.symm hn) rfl
  · obtain rfl : s = s' := hidle.symm.trans hstep
    refine ⟨h, ?_⟩
    have hnothing : rewardRefunded cfg offerId s (.cancel origin n) = 0 := by
      refine if_neg fun hself => ?_
      rw [hfailed] at hself
      cases hself.2
    rw [hnothing, Nat.add_zero]

/-- **Every step** keeps the reward of an offer in balance with what is vested and refunded, and
    leaves nothing of the reward of a completed offer. -/
theorem step_reward {op : Op A X} (h : Exhausted offerId s) (hstep : step cfg s op = some s') :
    Exhausted offerId s' ∧
      s.rewardLeft offerId = s'.rewardLeft offerId +
        (shareVested cfg offerId s op + rewardRefunded cfg offerId s op) := by
  cases op with
  | bond now origin n nbOfBonds keepAlive => exact bond_reward h (Option.some.inj hstep)
  | cancel origin n =>
      rw [show shareVested cfg offerId s (.cancel origin n) = 0 from rfl, Nat.zero_add]
      exact cancel_reward h (Option.some.inj hstep)
  | elsewhere vesting =>
      obtain rfl := Option.some.inj hstep
      exact ⟨h, rfl⟩

/-! ## Runs from an offer -/

/-- **An offer** gets the next id, and its account the stake and the reward. -/
theorem doOffer_ok {offer : BondOffer A X}
    (h : doOffer cfg source offer keepAlive s = (.ok offerId, s')) :
    offer.valid cfg.vesting.minVestedTransfer cfg.minReward = true ∧
      offerId = min (s.bondOfferCount + 1) cfg.maxBondOfferId ∧
      s' = { (s.paid cfg.nativeAsset source (cfg.accountId offerId) cfg.stake).paid
        offer.reward.asset source (cfg.accountId offerId) offer.reward.amount with
        bondOfferCount := offerId
        bondOffers := Function.update s.bondOffers offerId (some (source, offer)) } := by
  simp only [doOffer, Call.transactional_ok, Call.bind_ok, Call.ensure_ok, Call.modify_ok,
    Call.get_bind, Call.pure_ok, transfer_returns_iff] at h
  obtain ⟨_, _, ⟨hvalid, rfl⟩, _, _, rfl, _, _, ⟨-, rfl⟩, _, _, ⟨-, rfl⟩, _, _, rfl, rfl, rfl⟩ := h
  exact ⟨hvalid, rfl, rfl⟩

omit [DecidableEq A] [DecidableEq X] in
theorem BondOffer.nbOfBonds_ne_zero {offer : BondOffer A X} {minTransfer minReward : Nat}
    (h : offer.valid minTransfer minReward = true) : offer.nbOfBonds ≠ 0 := by
  intro hzero
  simp [BondOffer.valid, hzero] at h

/-- **Bond rewards are fully and exactly distributed.** After an offer and any purchases and
    cancellations, by any accounts: the shares vested, what is left and what was refunded add up to
    the reward of the offer; a completed offer has no reward left; each share that a purchase
    returns is vested to the bonder; and a cancellation pays back what is left, with the stake. -/
theorem rewards_distributed (cfg : Config A X) {s₀ : State A X} {offer : BondOffer A X}
    {ops : List (Op A X)}
    (hoffer : doOffer cfg source offer keepAlive s₀ = (.ok offerId, s))
    (hrun : run (step cfg) s ops = some s') :
    offer.reward.amount = s'.rewardLeft offerId + (tally (step cfg) (shareVested cfg offerId) s ops +
        tally (step cfg) (rewardRefunded cfg offerId) s ops) ∧
      Exhausted offerId s' ∧
      (∀ now bonder nbOfBonds keepAlive share t,
        doBond cfg now offerId bonder nbOfBonds keepAlive s' = (.ok share, t) → ∃ issuer left,
          s'.bondOffers offerId = some (issuer, left) ∧
          (0 < share → ⟨now, left.reward.maturity, 1, share⟩ ∈
            t.vesting.vestingSchedules bonder left.reward.asset)) ∧
      ∀ origin t, cancel cfg origin offerId s' = (.ok (), t) → ∃ issuer left,
        s'.bondOffers offerId = some (issuer, left) ∧ t.bondOffers offerId = none ∧
        t.vesting.ledger =
          (s'.vesting.ledger.move cfg.nativeAsset (cfg.accountId offerId) issuer cfg.stake).move
          left.reward.asset (cfg.accountId offerId) issuer (s'.rewardLeft offerId) := by
  obtain ⟨hvalid, -, hs⟩ := doOffer_ok hoffer
  have hstored : s.bondOffers offerId = some (source, offer) := by
    rw [hs]
    exact Function.update_self ..
  have hstart : Exhausted offerId s := by
    intro issuer left hleft hzero
    rw [hstored] at hleft
    cases hleft
    exact absurd hzero (BondOffer.nbOfBonds_ne_zero hvalid)
  -- Along the run, what was the reward is what is left of it and what was vested or refunded.
  have hbalance := tally_invariant
    (J := fun t n => Exhausted offerId t ∧ offer.reward.amount = t.rewardLeft offerId + n)
    (f := fun t op => shareVested cfg offerId t op + rewardRefunded cfg offerId t op)
    (fun {t op t' n} h _ hstep => ?_) (n := 0) ⟨hstart, (rewardLeft_eq hstored).symm⟩
      (along_true s ops) hrun
  · obtain ⟨hexhausted, hsum⟩ := hbalance
    rw [Nat.zero_add, tally_add] at hsum
    refine ⟨hsum, hexhausted, fun now bonder nbOfBonds keepAlive share t hbond => ?_,
      fun origin t hcancel => ?_⟩
    · obtain ⟨issuer, left, hbonded, hvested, -⟩ := doBond_ok hbond
      exact ⟨issuer, left, hbonded.offer_eq, hvested⟩
    · obtain ⟨issuer, left, hcancellable, rfl⟩ := cancel_returns_iff.mp hcancel
      refine ⟨issuer, left, hcancellable.offer_eq, Function.update_self .., ?_⟩
      rw [rewardLeft_eq hcancellable.offer_eq]
      rfl
  · obtain ⟨hexhausted, hsum⟩ := h
    obtain ⟨hexhausted', hstep'⟩ := step_reward hexhausted hstep
    refine ⟨hexhausted', ?_⟩
    omega

/-- Accounts `3` and `4` buy a contract each, of three, and the issuer cancels the rest. -/
def sampleOps : List (Op Nat Nat) :=
  [.bond 3 (.signed 3) 1 1 false, .bond 4 (.signed 4) 1 1 true, .cancel (.signed 1) 1]

theorem rewards_distributed_sample :
    ∃ s s', doOffer sample 1 sampleOffer false State.sample = (.ok 1, s) ∧
    run (step sample) s sampleOps = some s' ∧
    tally (step sample) (shareVested sample 1) s sampleOps = 66 ∧
      tally (step sample) (rewardRefunded sample 1) s sampleOps = 34 := by
  have hview : ((doOffer sample 1 sampleOffer false State.sample).1.toOption,
      (run (step sample) (doOffer sample 1 sampleOffer false State.sample).2 sampleOps).map
        (fun s => s.rewardLeft 1),
      tally (step sample) (shareVested sample 1) (doOffer sample 1 sampleOffer false State.sample).2
        sampleOps) =
      (some 1, some 0, 66) := by decide +kernel
  simp only [Prod.mk.injEq] at hview
  obtain ⟨hid, hrun, hshares⟩ := hview
  obtain ⟨s', hrun, hleft⟩ := Option.map_eq_some_iff.mp hrun
  have hoffer := Call.ok_of_toOption hid
  obtain ⟨hsum, -⟩ := rewards_distributed sample hoffer hrun
  have hreward : sampleOffer.reward.amount = 100 := rfl
  rw [hreward, hleft, hshares] at hsum
  exact ⟨_, s', hoffer, hrun, hshares, by omega⟩

end BondedFinance
end Composable
