import Composable.BondedFinance.Stakes

/-!
# `BondedFinance.Purchases` — every purchase can be served

An offer is checked once, on its initial numbers. Each purchase then changes what is left of the
reward and of the contracts, with rounding in between, and multiplies and subtracts without a check.
What is checked in the beginning stays true of what is left (`Serviceable`): a purchase may take a
little more than its exact share, but never so much that the contracts that are left have less than
a whole number of units each that they had before (`Bonded.whole_le`).

So no purchase fails for a vested amount that is too low, and no unchecked operation overflows or
underflows. As an exact fraction the reward for each contract that is left can fall
(`reward_per_contract_falls`).
-/

namespace Composable
namespace BondedFinance

variable {A X : Type} [DecidableEq A] [DecidableEq X]
variable {cfg : Config A X} {s s' : State A X} {now offerId nbOfBonds share : Nat} {source issuer : A}
variable {keepAlive : Bool} {offer : BondOffer A X}

/-! ## What is left of an offer -/

/-- What `valid` says of the numbers of an offer: each contract is worth a vested transfer, in its
    price and in its part of the reward, and the total price is a balance. -/
structure Serviceable (minTransfer : Nat) (offer : BondOffer A X) : Prop where
  price : minTransfer ≤ offer.bondPrice
  total : offer.nbOfBonds * offer.bondPrice ≤ u128Max
  reward : minTransfer * offer.nbOfBonds ≤ offer.reward.amount

omit [DecidableEq A] [DecidableEq X] in
theorem Serviceable.of_valid {minTransfer minReward : Nat}
    (h : offer.valid minTransfer minReward = true) : Serviceable minTransfer offer := by
  have hsome : offer.nbOfBonds ≠ 0 := BondOffer.nbOfBonds_ne_zero h
  simp only [BondOffer.valid, Bool.and_eq_true, decide_eq_true_eq, if_neg hsome] at h
  obtain ⟨⟨⟨⟨-, hprice⟩, -⟩, -, hreward⟩, htotal⟩ := h
  refine ⟨hprice, ?_, ?_⟩
  · unfold BondOffer.totalPrice at htotal
    cases hchecked : Fixed.checked (offer.nbOfBonds * offer.bondPrice) with
    | error e =>
        rw [hchecked] at htotal
        cases htotal
    | ok n =>
        obtain ⟨hfits, -⟩ := Fixed.checked_ok.mp hchecked
        exact hfits
  · exact (Nat.le_div_iff_mul_le (by omega)).mp hreward

namespace Bonded

omit [DecidableEq A] [DecidableEq X] in
/-- Units that each contract has before a purchase are left to each contract after it. -/
theorem units_left {units : Nat} (h : Bonded s offerId nbOfBonds share issuer offer)
    (hunits : units * offer.nbOfBonds ≤ offer.reward.amount) :
    units * (offer.sold nbOfBonds share).nbOfBonds ≤ (offer.sold nbOfBonds share).reward.amount := by
  show units * (offer.nbOfBonds - nbOfBonds) ≤ offer.reward.amount - share
  have hkept : units * (offer.nbOfBonds - nbOfBonds) ≤ offer.reward.amount :=
    (Nat.mul_le_mul_left _ (Nat.sub_le _ _)).trans hunits
  suffices hshare : share ≤ offer.reward.amount - units * (offer.nbOfBonds - nbOfBonds) by omega
  rw [h.share_eq]
  apply Fixed.quotient_le
  rw [Nat.sub_mul]
  apply Nat.le_sub_of_add_le
  obtain ⟨rest, hrest⟩ := Nat.exists_eq_add_of_le h.le
  have hsub : offer.nbOfBonds - nbOfBonds = rest := by omega
  calc nbOfBonds * offer.reward.amount + units * (offer.nbOfBonds - nbOfBonds) * offer.nbOfBonds
      = nbOfBonds * offer.reward.amount + units * offer.nbOfBonds * rest := by
        rw [hsub, Nat.mul_right_comm]
    _ ≤ nbOfBonds * offer.reward.amount + offer.reward.amount * rest :=
        Nat.add_le_add_left (Nat.mul_le_mul_right _ hunits) _
    _ = offer.reward.amount * offer.nbOfBonds := by rw [hrest]; ring

omit [DecidableEq A] [DecidableEq X] in
/-- The whole units of reward for each contract that is left do not become fewer. -/
theorem whole_le (h : Bonded s offerId nbOfBonds share issuer offer)
    (hleft : 0 < (offer.sold nbOfBonds share).nbOfBonds) :
    offer.reward.amount / offer.nbOfBonds ≤
      (offer.sold nbOfBonds share).reward.amount / (offer.sold nbOfBonds share).nbOfBonds :=
  (Nat.le_div_iff_mul_le hleft).mpr (h.units_left (Nat.div_mul_le_self _ _))

omit [DecidableEq A] [DecidableEq X] in
/-- What is left can be served again. -/
theorem serviceable {minTransfer : Nat} (h : Bonded s offerId nbOfBonds share issuer offer)
    (hoffer : Serviceable minTransfer offer) :
    Serviceable minTransfer (offer.sold nbOfBonds share) where
  price := hoffer.price
  total := (Nat.mul_le_mul_right _ (Nat.sub_le _ _)).trans hoffer.total
  reward := h.units_left hoffer.reward

end Bonded

omit [DecidableEq A] [DecidableEq X] in
/-- Every share is worth a vested transfer. -/
theorem Serviceable.le_share {minTransfer : Nat} (h : Serviceable minTransfer offer)
    (hpos : 0 < nbOfBonds) (hle : nbOfBonds ≤ offer.nbOfBonds) :
    minTransfer ≤ Fixed.quotient nbOfBonds offer.reward.amount offer.nbOfBonds := by
  apply Fixed.le_quotient (hpos.trans_le hle)
  calc minTransfer * offer.nbOfBonds ≤ offer.reward.amount := h.reward
    _ ≤ nbOfBonds * offer.reward.amount := Nat.le_mul_of_pos_left _ hpos

/-! ## Vested amounts that are not too low -/

/-- The vesting pallet finds an amount too low only if it is below the least one. -/
theorem vestedTransfer_avoids_amountLow {v : Vesting.State A X} {cfg : Vesting.Config A X}
    {asset : X} {dest : A} {schedule : Vesting.VestingSchedule}
    (h : ∀ total, schedule.totalAmount = some total → cfg.minVestedTransfer ≤ total) :
    (Vesting.vestedTransfer cfg now asset source dest schedule).Avoids (.module .amountLow) v := by
  unfold Vesting.vestedTransfer Vesting.ensureValidVestingSchedule
  refine .transactional (.bind ?_ fun amount t _ => .bind ?_ fun locked t _ =>
      .bind (.ensure nofun) fun _ t _ =>
    .bind ?_ fun _ t _ => .bind ?_ fun _ t _ =>
      .get_bind (.bind (.ensure nofun) fun _ t _ => .modify _))
  · -- the check of the amount is the last one, and it passes
    refine .bind (.ensure nofun) fun _ t _ => .bind (.ensure nofun) fun _ t _ =>
        .bind (.ensure nofun) fun _ t _ =>
      .bind (.ofOption nofun) fun total t htotal => ?_
    have hmin : cfg.minVestedTransfer ≤ total := h total (Call.ofOption_ok.mp htotal).1
    rw [Call.ensure, if_pos hmin]
    exact .pure total
  · exact .get_bind (.bind (.ofOption nofun) fun _ t _ => .bind (.modify _) fun _ t _ => .pure _)
  · exact .get_bind (.zoom fun _ _ => nofun)
  · refine .get_bind ?_
    cases cfg.lockRefused t.ledger t.locks asset dest (locked + amount) with
    | none => exact .when (.modify _)
    | some e =>
        refine .fail ?_
        cases e with
        | module e => exact e.elim
        | _ => exact nofun

theorem vest_avoids_amountLow {asset : X} {dest : A} {period amount : Nat}
    (h : cfg.vesting.minVestedTransfer ≤ amount) :
    (vest cfg now asset source dest period amount).Avoids (.module (.vesting .amountLow)) s := by
  refine .zoom fun e he heq => ?_
  have havoids :
      (Vesting.vestedTransfer cfg.vesting now asset source dest ⟨now, period, 1, amount⟩).Avoids
      (.module .amountLow) s.vesting := by
    refine vestedTransfer_avoids_amountLow fun total htotal => ?_
    rw [← totalAmount_once htotal]
    exact h
  cases e with
  | module e =>
      cases heq
      exact havoids he
  | _ => cases heq

theorem transfer_avoids {asset : X} {dest : A} {amount : Nat} {e : PalletError} :
    (transfer cfg asset source dest amount keepAlive).Avoids (.module e) s :=
  .get_bind (.zoom fun _ _ => nofun)

/-- **A purchase is not refused for a low amount**, if what is left of the offer can be served. -/
theorem doBond_avoids_amountLow (hoffer : s.bondOffers offerId = some (issuer, offer))
    (hserve : Serviceable cfg.vesting.minVestedTransfer offer) :
    (doBond cfg now offerId source nbOfBonds keepAlive).Avoids (.module (.vesting .amountLow)) s := by
  unfold doBond getOffer
  refine .transactional (.bind (.get_bind (.ofOption nofun)) fun stored t hstored => ?_)
  obtain ⟨heq, hsame⟩ := Call.ofOption_ok.mp hstored
  obtain rfl : (issuer, offer) = stored := Option.some.inj (hoffer.symm.trans heq)
  refine .bind (.ensure nofun) fun _ t _ => .bind (.ensure nofun) fun _ t hnumber => ?_
  obtain ⟨⟨hpos, hle⟩, -⟩ := Call.ensure_ok.mp hnumber
  refine .bind (.ensure nofun) fun _ t _ => .bind (.ofExcept ?_) fun rewardShare t hshare =>
    .bind transfer_avoids fun _ t _ => .bind (vest_avoids_amountLow ?_) fun _ t _ => ?_
  · cases Fixed.multiplyByRational nbOfBonds offer.reward.amount offer.nbOfBonds <;> exact nofun
  · obtain ⟨hcomputed, -⟩ := Call.ofExcept_ok.mp hshare
    rw [((Fixed.multiplyByRational_ok (hpos.trans_le hle)).mp (exceptMapError_ok.mp hcomputed)).2]
    exact hserve.le_share hpos hle
  · have hrest : ∀ t, (do
        Call.ensure (rewardShare ≤ offer.reward.amount) .panic
        Call.when ((offer.sold nbOfBonds rewardShare).completed = true)
          (transfer cfg cfg.nativeAsset (cfg.accountId offerId) issuer cfg.stake false)
        Call.modify fun s => { s with
          bondOffers :=
            Function.update s.bondOffers offerId (some (issuer, offer.sold nbOfBonds rewardShare)) }
        pure rewardShare : BondCall A X Nat).Avoids (.module (.vesting .amountLow)) t := fun t =>
      .bind (.ensure nofun) fun _ t _ => .bind (.when transfer_avoids) fun _ t _ =>
          .bind (.modify _) fun _ t _ =>
        .pure _
    cases offer.maturity with
    | finite returnIn =>
        refine .bind (vest_avoids_amountLow ?_) fun _ t _ => hrest t
        calc cfg.vesting.minVestedTransfer ≤ offer.bondPrice := hserve.price
          _ ≤ nbOfBonds * offer.bondPrice := Nat.le_mul_of_pos_left _ hpos
    | infinite => exact hrest t

/-! ## All runs -/

/-- What is left of every offer can be served. -/
def AllServiceable (cfg : Config A X) (s : State A X) : Prop :=
  ∀ n issuer offer, s.bondOffers n = some (issuer, offer) →
    Serviceable cfg.vesting.minVestedTransfer offer

omit [DecidableEq A] [DecidableEq X] in
/-- An entry is written. -/
theorem AllServiceable.update {n : Nat} {entry : Option (A × BondOffer A X)}
    (h : AllServiceable cfg s) (hoffers : s'.bondOffers = Function.update s.bondOffers n entry)
    (hentry : ∀ issuer offer, entry = some (issuer, offer) →
      Serviceable cfg.vesting.minVestedTransfer offer) :
    AllServiceable cfg s' := by
  intro m issuer offer hoffer
  rw [hoffers, Function.update_apply] at hoffer
  split at hoffer
  · exact hentry issuer offer hoffer
  · exact h m issuer offer hoffer

/-- **Step lemma.** -/
theorem AllServiceable.step {e : Event A X} (h : AllServiceable cfg s)
    (hstep : lifecycle cfg s e = some s') : AllServiceable cfg s' := by
  cases e with
  | offer origin offer keepAlive =>
      obtain rfl := Option.some.inj hstep
      rcases dispatch_offer cfg origin offer keepAlive s with ⟨source, id, -, hcall⟩ | ⟨-, hsame⟩
      · obtain ⟨hvalid, -, hs'⟩ := doOffer_ok hcall
        refine h.update (congrArg State.bondOffers hs') fun issuer stored hstored => ?_
        cases hstored
        exact .of_valid hvalid
      · rw [hsame]
        exact h
  | on op =>
      cases op with
      | bond now origin n nbOfBonds keepAlive =>
          obtain rfl := Option.some.inj hstep
          rcases dispatch_bond cfg now origin n nbOfBonds keepAlive s with
            ⟨source, share, -, hcall⟩ | ⟨-, hsame⟩
          · obtain ⟨issuer, offer, hbonded, -, -, hoffers⟩ := doBond_ok hcall
            refine h.update hoffers fun issuer' left hleft => ?_
            cases hleft
            exact hbonded.serviceable (h n issuer offer hbonded.offer_eq)
          · rw [hsame]
            exact h
      | cancel origin n =>
          obtain rfl := Option.some.inj hstep
          rcases dispatch_cancel cfg origin n s with ⟨-, u, hcall⟩ | ⟨-, hsame⟩
          · obtain ⟨issuer, offer, -, hs'⟩ := cancel_returns_iff.mp hcall
            exact h.update (congrArg State.bondOffers hs') nofun
          · rw [hsame]
            exact h
      | elsewhere vesting =>
          obtain rfl := Option.some.inj hstep
          exact h

/-- **Every purchase can be served.** After any offers, purchases and cancellations by anybody: of
    an offer that is stored, any number of contracts up to those left can be bought without an
    amount being too low for a vested transfer; the unchecked product is a balance, the unchecked
    differences do not go below zero, the share is worth a vested transfer, and the whole units of
    reward for each contract that is left do not become fewer. -/
theorem purchases_serviceable (cfg : Config A X) {s₀ : State A X} {events : List (Event A X)}
    (hstart : ∀ n, s₀.bondOffers n = none) (hrun : run (lifecycle cfg) s₀ events = some s)
    (hoffer : s.bondOffers offerId = some (issuer, offer)) (hpos : 0 < nbOfBonds)
    (hle : nbOfBonds ≤ offer.nbOfBonds) : (∀ now source keepAlive,
        (doBond cfg now offerId source nbOfBonds keepAlive).Avoids (.module (.vesting .amountLow)) s ∧
        ∀ share t, doBond cfg now offerId source nbOfBonds keepAlive s = (.ok share, t) →
          share = Fixed.quotient nbOfBonds offer.reward.amount offer.nbOfBonds ∧
          t.bondOffers offerId = some (issuer, offer.sold nbOfBonds share) ∧
          (0 < (offer.sold nbOfBonds share).nbOfBonds → offer.reward.amount / offer.nbOfBonds ≤
            (offer.sold nbOfBonds share).reward.amount / (offer.sold nbOfBonds share).nbOfBonds)) ∧
      nbOfBonds * offer.bondPrice ≤ u128Max ∧
      Fixed.quotient nbOfBonds offer.reward.amount offer.nbOfBonds ≤ offer.reward.amount ∧
      cfg.vesting.minVestedTransfer ≤ Fixed.quotient nbOfBonds offer.reward.amount
        offer.nbOfBonds := by
  have hall : AllServiceable cfg s := by
    refine run_invariant (I := AllServiceable cfg) (fun h _ hstep => h.step hstep) ?_
      (along_true _ events) hrun
    intro n issuer offer hnone
    rw [hstart n] at hnone
    cases hnone
  have hserve : Serviceable cfg.vesting.minVestedTransfer offer := hall offerId issuer offer hoffer
  -- What a purchase takes and leaves is settled before it is made.
  have hbonded : Bonded s offerId nbOfBonds
    (Fixed.quotient nbOfBonds offer.reward.amount offer.nbOfBonds) issuer
      offer := ⟨hoffer, hpos, hle, rfl⟩
  refine ⟨fun now source keepAlive => ⟨doBond_avoids_amountLow hoffer hserve,
    fun share t hcall => ?_⟩, ?_, hbonded.share_le, hserve.le_share hpos hle⟩
  · obtain ⟨issuer', offer', hbought, -, -, hoffers⟩ := doBond_ok hcall
    cases hoffer.symm.trans hbought.offer_eq
    refine ⟨hbought.share_eq, ?_, hbought.whole_le⟩
    rw [hoffers, Function.update_self]
  · exact (Nat.mul_le_mul_right _ hle).trans hserve.total

/-- An offer of three contracts for a reward of a hundred, of which one is sold: two
    are left, for sixty-seven. -/
theorem purchases_serviceable_sample :
    ∃ s, run (lifecycle sample) State.sample
        [.offer (.signed 1) sampleOffer false, .on (.bond 0 (.signed 3) 1 1 false)] = some s ∧
      sample.vesting.minVestedTransfer ≤ Fixed.quotient 1 67 2 := by
  obtain ⟨s, hrun, hoffer⟩ : ∃ s, run (lifecycle sample) State.sample
      [.offer (.signed 1) sampleOffer false, .on (.bond 0 (.signed 3) 1 1 false)] = some s ∧
      s.bondOffers 1 = some (1, sampleOffer.sold 1 33) := ⟨_, rfl, by decide +kernel⟩
  have hserviceable :=
    purchases_serviceable sample (fun _ => rfl) hrun hoffer (by decide : 0 < 1) (by decide)
  exact ⟨s, hrun, hserviceable.2.2.2⟩

/-- `2 ^ 33 + 1` contracts at a price of `20` of asset `1`, for a reward of
    `10 ^ 30` of asset `2`. -/
def largeOffer : BondOffer Nat Nat :=
  ⟨2, 1, 20, 2 ^ 33 + 1, .finite 5, ⟨2, 10 ^ 30, 7⟩⟩

/-- Account `1` can pay the reward, and account `3` half of the contracts. -/
def State.large : State Nat Nat :=
  { State.sample with vesting :=
      ⟨Ledger.ofList [(0, 1, 500), (2, 1, 2 * 10 ^ 30), (1, 3, 10 ^ 12)], fun _ _ => 0,
        fun _ _ => []⟩ }

/-- Half of them are bought, and the share of the reward is rounded up. -/
theorem reward_per_contract_falls :
    ¬ ∀ s share t, run (lifecycle sample) State.large [.offer (.signed 1) largeOffer false] = some s →
      doBond sample 0 1 3 (2 ^ 32) false s = (.ok share, t) →
      largeOffer.reward.amount * (largeOffer.sold (2 ^ 32) share).nbOfBonds ≤
        (largeOffer.sold (2 ^ 32) share).reward.amount * largeOffer.nbOfBonds := by
  intro h
  have hbought : (run (lifecycle sample) State.large [.offer (.signed 1) largeOffer false]).map
      (fun s => (doBond sample 0 1 3 (2 ^ 32) false s).1) =
        some (.ok 499999999941792339093308856351) := by
    decide +kernel
  obtain ⟨s, hrun, hshare⟩ := Option.map_eq_some_iff.mp hbought
  exact absurd (h s _ _ hrun (Prod.ext hshare rfl)) (by decide +kernel)

end BondedFinance
end Composable
