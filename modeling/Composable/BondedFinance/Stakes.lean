import Composable.BondedFinance.Rewards

/-!
# `BondedFinance.Stakes` — the stake of an offer

The stake lies on the account of the offer, with the reward, until the last contracts are bought
or the offer is cancelled; either sends it back to the issuer. A completed offer stays in
storage, and `cancel` does not ask whether contracts are left: whoever may cancel a completed
offer is refused only by the ledger, for want of funds. Its account has funds again when bonds
are paid to it, so the stake is returned exactly once exactly as long as no such cancellation is
accepted (`stake_returned_once_iff`), and no more than what strayed onto the account can be taken
this way (`refundedAgain_le_strayed`).
-/

namespace Composable
namespace BondedFinance

variable {A X : Type} [DecidableEq A] [DecidableEq X]
variable {cfg : Config A X} {s s' : State A X} {now n m nbOfBonds share : Nat} {source issuer : A}
  {keepAlive : Bool}

/-! ## The life of offers -/

/-- A call on the pallet, or what other pallets do to the ledger and to vesting in between. -/
inductive Event (A X : Type) where
  | offer (origin : RawOrigin A) (offer : BondOffer A X) (keepAlive : Bool)
  | on (op : Op A X)

def lifecycle (cfg : Config A X) (s : State A X) : Event A X → Option (State A X)
  | .offer origin offer keepAlive =>
      some (dispatch (BondedFinance.offer cfg origin offer keepAlive) s)
  | .on op => step cfg s op

/-- There is an offer `n`, and contracts of it are left. -/
def State.Open (s : State A X) (n : Nat) : Prop :=
  ∃ issuer left, s.bondOffers n = some (issuer, left) ∧ 0 < left.nbOfBonds

/-- The native funds on the account of the offer `n`. -/
def held (cfg : Config A X) (n : Nat) (s : State A X) : Nat :=
  s.vesting.ledger.free cfg.nativeAsset (cfg.accountId n)

/-- What of the reward is in the native asset, and on the same balance as the stake. -/
def nativeReward (cfg : Config A X) (offer : BondOffer A X) : Nat :=
  if cfg.nativeAsset = offer.reward.asset then offer.reward.amount else 0

/-- The stake that an event sends back to the issuer of the offer `n`: the purchase of all contracts
    that are left does, and a cancellation. -/
def stakeReturned (cfg : Config A X) (n : Nat) (s : State A X) : Event A X → Nat
  | .on (.bond now (.signed source) id nbOfBonds keepAlive) =>
      if id = n ∧ (doBond cfg now id source nbOfBonds keepAlive s).1.toBool = true ∧
          ((s.bondOffers n).any fun o => o.2.nbOfBonds == nbOfBonds) = true then cfg.stake else 0
  | .on (.cancel origin id) =>
      if id = n ∧ (cancel cfg origin id s).1.toBool = true then cfg.stake else 0
  | _ => 0

/-- The pallet, with what has been returned of the stake of the offer `n` so far. -/
def tracked (cfg : Config A X) (n : Nat) (t : State A X × Nat) (e : Event A X) :
    Option (State A X × Nat) :=
  (lifecycle cfg t.1 e).map fun s' => (s', t.2 + stakeReturned cfg n t.1 e)

/-- While contracts are left the stake is on the account, and nothing of it has been returned;
    afterwards it has been returned once. -/
structure StakeKept (cfg : Config A X) (n : Nat) (t : State A X × Nat) : Prop where
  running : t.1.Open n → t.2 = 0 ∧ cfg.stake ≤ held cfg n t.1
  ended : ¬ t.1.Open n → t.2 = cfg.stake

/-- The account of the offer `n` signs nothing and other pallets leave its native funds alone, and
    no later offer gets the id `n` again: ids saturate. Calls name ids of their type. -/
def Undisturbed (cfg : Config A X) (n : Nat) (s : State A X) : Event A X → Prop
  | .offer origin _ _ =>
      origin ≠ .signed (cfg.accountId n) ∧ min (s.bondOfferCount + 1) cfg.maxBondOfferId ≠ n
  | .on (.bond _ origin id _ _) => id ≤ cfg.maxBondOfferId ∧ origin ≠ .signed (cfg.accountId n)
  | .on (.cancel _ id) => id ≤ cfg.maxBondOfferId
  | .on (.elsewhere vesting) => vesting.ledger.free cfg.nativeAsset (cfg.accountId n) = held cfg n s

/-- The event cancels the offer `n` after its last contract was sold, and the ledger accepts it. -/
def RefundedAgain (cfg : Config A X) (n : Nat) (s : State A X) : Event A X → Prop
  | .on (.cancel origin id) => id = n ∧ 0 < cfg.stake ∧ ∃ issuer left, left.completed = true ∧
      Cancellable cfg s origin n issuer left
  | _ => False

/-! ## The funds of an account -/

/-- What a purchase pays to the account of the offer `n` as a beneficiary. -/
def credited (cfg : Config A X) (n nbOfBonds : Nat) (offer : BondOffer A X) : Nat :=
  if cfg.nativeAsset = offer.asset ∧ cfg.accountId n = offer.beneficiary then
    nbOfBonds * offer.bondPrice else 0

/-- What a purchase of a share takes from the account of the offer `n`. -/
def debited (cfg : Config A X) (n m share : Nat) (offer : BondOffer A X) : Nat :=
  if cfg.nativeAsset = offer.reward.asset ∧ n = m then share else 0

/-- A purchase moves the share, and what it pays to the account stays there only if the
    bond is never returned. -/
theorem free_tradedLedger {l : Ledger A X} {offer : BondOffer A X} (hn : n ≤ cfg.maxBondOfferId)
    (hm : m ≤ cfg.maxBondOfferId) (hsource : source ≠ cfg.accountId n) :
    (tradedLedger cfg l m nbOfBonds share source offer).free cfg.nativeAsset (cfg.accountId n) =
      l.free cfg.nativeAsset (cfg.accountId n) + credited cfg n nbOfBonds offer -
        debited cfg n m share offer -
        (if offer.maturity = .infinite then 0 else credited cfg n nbOfBonds offer) := by
  have haccount : cfg.accountId n = cfg.accountId m ↔ n = m := cfg.accountId_injective.eq_iff hn hm
  unfold tradedLedger credited debited
  cases hmaturity : offer.maturity with
  | finite returnIn =>
      simp only [reduceCtorEq, if_false]
      rw [Ledger.free_move_of_ne_dest hsource.symm, Ledger.free_move_of_ne_dest hsource.symm,
        Ledger.free_move_of_ne_source hsource.symm]
      simp only [haccount]
  | infinite =>
      simp only [if_true, Nat.sub_zero]
      rw [Ledger.free_move_of_ne_dest hsource.symm, Ledger.free_move_of_ne_source hsource.symm]
      simp only [haccount]

omit [DecidableEq A] [DecidableEq X] in
theorem BondOffer.completed_iff {offer : BondOffer A X} :
    offer.completed = true ↔ offer.nbOfBonds = 0 := by
  simp [BondOffer.completed]

omit [DecidableEq A] in
/-- What a purchase takes of a native reward is no longer left. -/
theorem nativeReward_sold (cfg : Config A X) (n : Nat) {offer : BondOffer A X}
    (h : Bonded s n nbOfBonds share issuer offer) :
    nativeReward cfg (offer.sold nbOfBonds share) + debited cfg n n share offer =
      nativeReward cfg offer := by
  have hasset : (offer.sold nbOfBonds share).reward.asset = offer.reward.asset := rfl
  unfold nativeReward debited
  rw [hasset]
  by_cases hnative : cfg.nativeAsset = offer.reward.asset
  · rw [if_pos hnative, if_pos hnative, if_pos ⟨hnative, rfl⟩]
    exact Nat.sub_add_cancel h.share_le
  · rw [if_neg hnative, if_neg hnative, if_neg fun hboth => hnative hboth.1]

/-- A purchase takes from the account of the offer `n` no more than the share and, with the
    last contracts, the stake. -/
theorem held_bonded (l : Ledger A X) (nbOfBonds share : Nat) (issuer : A) (offer : BondOffer A X)
    (hn : n ≤ cfg.maxBondOfferId) (hm : m ≤ cfg.maxBondOfferId) (hsource : source ≠ cfg.accountId n) :
    l.free cfg.nativeAsset (cfg.accountId n) ≤
      (bondedLedger cfg l m nbOfBonds share source issuer offer).free cfg.nativeAsset
        (cfg.accountId n) +
        debited cfg n m share offer +
        (if n = m ∧ (offer.sold nbOfBonds share).completed = true then cfg.stake else 0) := by
  have haccount : cfg.accountId n = cfg.accountId m ↔ n = m := cfg.accountId_injective.eq_iff hn hm
  have htraded : l.free cfg.nativeAsset (cfg.accountId n) ≤
      (tradedLedger cfg l m nbOfBonds share source offer).free cfg.nativeAsset (cfg.accountId n) +
        debited cfg n m share offer := by
    rw [free_tradedLedger hn hm hsource]
    split_ifs <;> omega
  unfold bondedLedger
  by_cases hlast : (offer.sold nbOfBonds share).completed = true
  · have hstake := Ledger.le_free_move (l := tradedLedger cfg l m nbOfBonds share source offer)
      (x := cfg.nativeAsset) (y := cfg.nativeAsset) (a := cfg.accountId m) (b := issuer)
        (c := cfg.accountId n)
      (n := cfg.stake)
    simp only [haccount, true_and] at hstake
    simp only [hlast, and_true, if_true]
    omega
  · rw [if_neg hlast, if_neg fun hboth => hlast hboth.2]
    exact htraded

/-! ## Steps -/

/-- The invariant of an offer: with the stake, what is left of a native reward is on the account. -/
structure Staked (cfg : Config A X) (n : Nat) (t : State A X × Nat) : Prop where
  inRange : n ≤ cfg.maxBondOfferId
  exhausted : Exhausted n t.1
  running : ∀ issuer left, t.1.bondOffers n = some (issuer, left) → 0 < left.nbOfBonds →
    t.2 = 0 ∧ cfg.stake + nativeReward cfg left ≤ held cfg n t.1
  ended : ¬ t.1.Open n → t.2 = cfg.stake

namespace Staked

variable {paid paid' : Nat} {t : State A X × Nat}

omit [DecidableEq A] in
theorem kept (h : Staked cfg n t) : StakeKept cfg n t := by
  refine ⟨?_, h.ended⟩
  rintro ⟨issuer, left, hoffer, hpos⟩
  obtain ⟨hpaid, hheld⟩ := h.running issuer left hoffer hpos
  exact ⟨hpaid, by omega⟩

omit [DecidableEq A] [DecidableEq X] in
theorem not_open_of_completed {left : BondOffer A X} (hoffer : s.bondOffers n = some (issuer, left))
    (hcompleted : left.completed = true) : ¬ s.Open n := by
  rintro ⟨issuer', left', hleft', hpos⟩
  obtain ⟨-, rfl⟩ := Prod.mk.inj (Option.some.inj (hoffer.symm.trans hleft'))
  exact hpos.ne' (BondOffer.completed_iff.mp hcompleted)

omit [DecidableEq A] in
/-- An event that leaves the offer alone and takes nothing from its account keeps the invariant. -/
theorem of_same (h : Staked cfg n (s, paid)) (hoffer : s'.bondOffers n = s.bondOffers n)
    (hheld : held cfg n s ≤ held cfg n s') : Staked cfg n (s', paid) := by
  refine ⟨h.inRange, ?_, fun issuer left hleft hpos => ?_, fun hopen => h.ended ?_⟩
  · unfold Exhausted
    rw [hoffer]
    exact h.exhausted
  · obtain ⟨hpaid, hle⟩ := h.running issuer left (hoffer ▸ hleft) hpos
    exact ⟨hpaid, hle.trans hheld⟩
  · unfold State.Open at hopen ⊢
    rwa [hoffer] at hopen

/-- A later offer has an account of its own. -/
theorem offered {origin : RawOrigin A} {offer : BondOffer A X} (h : Staked cfg n (s, paid))
    (hsigner : origin ≠ .signed (cfg.accountId n))
    (hid : min (s.bondOfferCount + 1) cfg.maxBondOfferId ≠ n) :
    Staked cfg n (dispatch (BondedFinance.offer cfg origin offer keepAlive) s, paid) := by
  rcases dispatch_offer cfg origin offer keepAlive s with ⟨source, id, rfl, hcall⟩ | ⟨-, hsame⟩
  · obtain ⟨-, hnext, hs'⟩ := doOffer_ok hcall
    have hne : n ≠ id := fun heq => hid (heq ▸ hnext.symm)
    have hsource : cfg.accountId n ≠ source := fun heq => hsigner (heq ▸ rfl)
    rw [hs']
    refine h.of_same (Function.update_of_ne hne ..) ?_
    exact (Ledger.le_free_move_of_ne hsource).trans (Ledger.le_free_move_of_ne hsource)
  · rw [hsame]
    exact h

/-- A purchase of other contracts takes nothing from the account of the offer. -/
theorem bonded_other {share : Nat} {offer : BondOffer A X} (h : Staked cfg n (s, paid))
    (hm : m ≤ cfg.maxBondOfferId) (hsource : source ≠ cfg.accountId n) (hne : n ≠ m)
    (hledger : s'.vesting.ledger = bondedLedger cfg s.vesting.ledger m nbOfBonds share source
      issuer offer)
    (hoffers : s'.bondOffers = Function.update s.bondOffers m
      (some (issuer, offer.sold nbOfBonds share))) :
    Staked cfg n (s', paid) := by
  refine h.of_same (by rw [hoffers, Function.update_of_ne hne]) ?_
  have hheld := held_bonded s.vesting.ledger nbOfBonds share issuer offer h.inRange hm hsource
  rw [debited, if_neg fun hboth => hne hboth.2, if_neg fun hboth => hne hboth.1] at hheld
  rw [held, held, hledger]
  exact hheld

/-- A purchase takes its share, and with the last contracts the stake. -/
theorem bonded_own {share : Nat} {offer : BondOffer A X} (h : Staked cfg n (s, paid))
    (hsource : source ≠ cfg.accountId n) (hbonded : Bonded s n nbOfBonds share issuer offer)
    (hledger : s'.vesting.ledger = bondedLedger cfg s.vesting.ledger n nbOfBonds share source
      issuer offer)
    (hoffers : s'.bondOffers = Function.update s.bondOffers n
      (some (issuer, offer.sold nbOfBonds share))) :
    Staked cfg n (s', paid + if offer.nbOfBonds = nbOfBonds then cfg.stake else 0) := by
  have hleft : s'.bondOffers n = some (issuer, offer.sold nbOfBonds share) := by
    rw [hoffers, Function.update_self]
  obtain ⟨hpaid, hstaked⟩ := h.running issuer offer hbonded.offer_eq (hbonded.pos.trans_le hbonded.le)
  replace hpaid : paid = 0 := hpaid
  have hcontracts : (offer.sold nbOfBonds share).nbOfBonds = offer.nbOfBonds - nbOfBonds := rfl
  have hle := hbonded.le
  refine ⟨h.inRange, fun issuer' left hleft' hzero => ?_, fun issuer' left hleft' hpos => ?_,
    fun hopen => ?_⟩
  · obtain ⟨rfl, rfl⟩ := Prod.mk.inj (Option.some.inj (hleft.symm.trans hleft'))
    exact hbonded.share_of_last hzero
  · obtain ⟨rfl, rfl⟩ := Prod.mk.inj (Option.some.inj (hleft.symm.trans hleft'))
    have hheld :=
      held_bonded s.vesting.ledger nbOfBonds share issuer offer h.inRange h.inRange hsource
    have hmore : (offer.sold nbOfBonds share).completed ≠ true := by
      rw [Ne, BondOffer.completed_iff]
      omega
    have hreward := nativeReward_sold cfg n hbonded
    rw [if_neg fun hboth => hmore hboth.2, ← hledger, Nat.add_zero] at hheld
    refine ⟨?_, ?_⟩
    · show paid + (if offer.nbOfBonds = nbOfBonds then cfg.stake else 0) = 0
      rw [if_neg (by omega), hpaid]
    · show cfg.stake + _ ≤ s'.vesting.ledger.free cfg.nativeAsset (cfg.accountId n)
      replace hstaked : cfg.stake + nativeReward cfg offer ≤
        s.vesting.ledger.free cfg.nativeAsset (cfg.accountId n) := hstaked
      omega
  · have hlast : offer.nbOfBonds = nbOfBonds := by
      by_contra hmore
      exact hopen ⟨issuer, _, hleft, by omega⟩
    show paid + (if offer.nbOfBonds = nbOfBonds then cfg.stake else 0) = cfg.stake
    rw [if_pos hlast, hpaid, Nat.zero_add]

theorem bonded {origin : RawOrigin A} (h : Staked cfg n (s, paid)) (hid : m ≤ cfg.maxBondOfferId)
    (hsigner : origin ≠ .signed (cfg.accountId n)) :
    Staked cfg n (dispatch (bond cfg now origin m nbOfBonds keepAlive) s,
      paid + stakeReturned cfg n s (.on (.bond now origin m nbOfBonds keepAlive))) := by
  rcases dispatch_bond cfg now origin m nbOfBonds keepAlive s with
    ⟨source, share, rfl, hcall⟩ | ⟨hfailed, hsame⟩
  · have hsource : source ≠ cfg.accountId n := fun heq => hsigner (heq ▸ rfl)
    obtain ⟨issuer, offer, hbonded, -, hledger, hoffers⟩ := doBond_ok hcall
    by_cases hm : m = n
    · subst hm
      have hreturned :
          stakeReturned cfg m s (.on (.bond now (.signed source) m nbOfBonds keepAlive)) =
          if offer.nbOfBonds = nbOfBonds then cfg.stake else 0 := by
        simp [stakeReturned, hcall, hbonded.offer_eq, Except.toBool]
      rw [hreturned]
      exact h.bonded_own hsource hbonded hledger hoffers
    · rw [stakeReturned, if_neg fun hall => hm hall.1, Nat.add_zero]
      exact h.bonded_other hid hsource (Ne.symm hm) hledger hoffers
  · have hnothing : stakeReturned cfg n s (.on (.bond now origin m nbOfBonds keepAlive)) = 0 := by
      cases origin with
      | signed source =>
          have hnone := hfailed source rfl
          refine if_neg fun hall => ?_
          cases hr : (doBond cfg now m source nbOfBonds keepAlive s).1 with
          | error e =>
              rw [hr] at hall
              cases hall.2.1
          | ok share =>
              rw [hr] at hnone
              cases hnone
      | _ => rfl
    rw [hsame, hnothing, Nat.add_zero]
    exact h

/-- A cancellation sends the stake back, once when the ledger refuses to cancel completed offers. -/
theorem cancelled {origin : RawOrigin A} (h : Staked cfg n (s, paid)) (hid : m ≤ cfg.maxBondOfferId)
    (hnot : ¬ RefundedAgain cfg n s (.on (.cancel origin m))) :
    Staked cfg n (dispatch (cancel cfg origin m) s,
      paid + stakeReturned cfg n s (.on (.cancel origin m))) := by
  rcases dispatch_cancel cfg origin m s with ⟨hreturned, u, hcall⟩ | ⟨hfailed, hsame⟩
  · obtain ⟨issuer, left, hcancellable, hs'⟩ := cancel_returns_iff.mp hcall
    rw [hs']
    by_cases hm : m = n
    · subst hm
      rw [stakeReturned, if_pos ⟨rfl, hreturned⟩]
      have hgone : Function.update s.bondOffers m none m = none := Function.update_self ..
      have hclosed : ∀ issuer left, Function.update s.bondOffers m none m ≠ some (issuer, left) := by
        intro issuer left heq
        exact nomatch hgone.symm.trans heq
      refine ⟨h.inRange, fun issuer left hleft => absurd hleft (hclosed _ _),
        fun issuer left hleft => absurd hleft (hclosed _ _), fun _ => ?_⟩
      show paid + cfg.stake = cfg.stake
      by_cases hpos : 0 < left.nbOfBonds
      · obtain ⟨hpaid, -⟩ := h.running issuer left hcancellable.offer_eq hpos
        rw [show paid = 0 from hpaid, Nat.zero_add]
      · -- A completed offer is cancelled only when there is no stake.
        have hcompleted : left.completed = true :=
          BondOffer.completed_iff.mpr (Nat.eq_zero_of_not_pos hpos)
        have hzero : cfg.stake = 0 := by
          by_contra hstake
          exact hnot ⟨rfl, Nat.pos_of_ne_zero hstake, issuer, left, hcompleted, hcancellable⟩
        have hpaid : paid = cfg.stake :=
          h.ended (not_open_of_completed hcancellable.offer_eq hcompleted)
        omega
    · rw [stakeReturned, if_neg fun hall => hm hall.1, Nat.add_zero]
      have haccount : cfg.accountId n ≠ cfg.accountId m := fun heq =>
        hm (cfg.accountId_injective h.inRange hid heq).symm
      refine h.of_same (Function.update_of_ne (Ne.symm hm) ..) ?_
      exact (Ledger.le_free_move_of_ne haccount).trans (Ledger.le_free_move_of_ne haccount)
  · rw [hsame, stakeReturned, if_neg fun hall => by simp [hfailed] at hall, Nat.add_zero]
    exact h

/-- **Every event** that neither disturbs the offer nor refunds it again keeps the invariant. -/
theorem step {t t' : State A X × Nat} {e : Event A X} (h : Staked cfg n t)
    (hundisturbed : Undisturbed cfg n t.1 e)
    (hnot : ¬ RefundedAgain cfg n t.1 e) (hstep : tracked cfg n t e = some t') : Staked cfg n t' := by
  obtain ⟨s, paid⟩ := t
  obtain ⟨s', hs', rfl⟩ := Option.map_eq_some_iff.mp hstep
  cases e with
  | offer origin offer keepAlive =>
      obtain rfl := Option.some.inj hs'
      exact h.offered hundisturbed.1 hundisturbed.2
  | on op =>
      cases op with
      | bond now origin m nbOfBonds keepAlive =>
          obtain rfl := Option.some.inj hs'
          exact h.bonded hundisturbed.1 hundisturbed.2
      | cancel origin m =>
          obtain rfl := Option.some.inj hs'
          exact h.cancelled hundisturbed hnot
      | elsewhere vesting =>
          obtain rfl := Option.some.inj hs'
          exact h.of_same rfl hundisturbed.ge

/-- A completed offer that is refunded again has been paid its stake twice. -/
theorem lost {t : State A X × Nat} {e : Event A X} (h : Staked cfg n t)
    (hagain : RefundedAgain cfg n t.1 e) :
    ∃ t', tracked cfg n t e = some t' ∧ ¬ StakeKept cfg n t' := by
  obtain ⟨s, paid⟩ := t
  cases e with
  | offer => exact hagain.elim
  | on op =>
      cases op with
      | cancel origin m =>
          obtain ⟨rfl, hstake, issuer, left, hcompleted, hcancellable⟩ := hagain
          have hcall : cancel cfg origin m s = (.ok (), _) :=
            cancel_returns_iff.mpr ⟨issuer, left, hcancellable, rfl⟩
          have hpaid : paid = cfg.stake :=
            h.ended (not_open_of_completed hcancellable.offer_eq hcompleted)
          have hreturned : stakeReturned cfg m s (.on (.cancel origin m)) = cfg.stake := by
            rw [stakeReturned, hcall]
            exact if_pos ⟨rfl, rfl⟩
          refine ⟨_, rfl, fun hkept => ?_⟩
          have hclosed : ¬ (dispatch (cancel cfg origin m) s).Open m := by
            rintro ⟨issuer', left', hleft', -⟩
            rw [dispatch, hcall] at hleft'
            cases (Function.update_self m none s.bondOffers).symm.trans hleft'
          have htwice : paid + stakeReturned cfg m s (.on (.cancel origin m)) = cfg.stake :=
            hkept.ended hclosed
          omega
      | _ => exact hagain.elim

end Staked

/-! ## Runs -/

/-- When the event cancels the offer `n` after its last contract was sold, it takes
    nothing from the account. -/
def CancelsNothing (cfg : Config A X) (n : Nat) (s : State A X) : Event A X → Prop
  | .on (.cancel origin id) =>
      id = n → ∀ issuer left, s.bondOffers n = some (issuer, left) → left.completed = true →
      ∀ x, (dispatch (cancel cfg origin n) s).vesting.ledger.free x (cfg.accountId n) =
        s.vesting.ledger.free x (cfg.accountId n)
  | _ => True

theorem Staked.cancelsNothing {t : State A X × Nat} {e : Event A X} (h : Staked cfg n t)
    (hnot : ¬ RefundedAgain cfg n t.1 e) : CancelsNothing cfg n t.1 e := by
  cases e with
  | offer origin offer keepAlive => trivial
  | on op =>
      cases op with
      | cancel origin m =>
          rintro rfl issuer left hleft hcompleted x
          rcases dispatch_cancel cfg origin m t.1 with ⟨-, u, hcall⟩ | ⟨-, hsame⟩
          · obtain ⟨issuer', left', hcancellable, hs'⟩ := cancel_returns_iff.mp hcall
            obtain ⟨rfl, rfl⟩ :=
              Prod.mk.inj (Option.some.inj (hleft.symm.trans hcancellable.offer_eq))
            have hstake : cfg.stake = 0 := by
              by_contra hpos
              exact hnot ⟨rfl, Nat.pos_of_ne_zero hpos, issuer, left, hcompleted, hcancellable⟩
            have hreward : left.reward.amount = 0 :=
              h.exhausted issuer left hleft (BondOffer.completed_iff.mp hcompleted)
            rw [hs']
            simp only [State.paid, hstake, hreward, Ledger.move_zero]
          · rw [hsame]
      | _ => trivial

/-- An offer starts with its stake and its reward on the account. -/
theorem Staked.of_doOffer {offer : BondOffer A X} {s₀ : State A X}
    (hsource : source ≠ cfg.accountId n)
    (hoffer : doOffer cfg source offer keepAlive s₀ = (.ok n, s)) : Staked cfg n (s, 0) := by
  obtain ⟨hvalid, hid, hs⟩ := doOffer_ok hoffer
  have hbonds : offer.nbOfBonds ≠ 0 := BondOffer.nbOfBonds_ne_zero hvalid
  have hstored : s.bondOffers n = some (source, offer) := by
    rw [hs]
    exact Function.update_self ..
  refine ⟨hid ▸ Nat.min_le_right _ _, fun issuer left hleft hzero => ?_,
    fun issuer left hleft _ => ⟨rfl, ?_⟩, fun hopen => ?_⟩
  · obtain ⟨-, rfl⟩ := Prod.mk.inj (Option.some.inj (hstored.symm.trans hleft))
    exact absurd hzero hbonds
  · obtain ⟨-, rfl⟩ := Prod.mk.inj (Option.some.inj (hstored.symm.trans hleft))
    rw [held, hs]
    simp only [State.paid]
    rw [Ledger.free_move_of_ne_source hsource.symm, Ledger.free_move_of_ne_source hsource.symm,
      nativeReward]
    simp only [and_true, if_true]
    omega
  · exact absurd ⟨source, offer, hstored, Nat.pos_of_ne_zero hbonds⟩ hopen

/-- What has been returned does not matter to a condition on the pallet. -/
theorem along_tracked (C : State A X → Event A X → Prop) {events : List (Event A X)} :
    Along (tracked cfg n) (fun t e => C t.1 e) (s, 0) events ↔ Along (lifecycle cfg) C s events :=
  @along_recorded _ _ (lifecycle cfg) Nat C (fun s paid e => paid + stakeReturned cfg n s e)
    s 0 events

/-- **The stake is held while the offer is open, and returned exactly once, exactly as long as the
    offer is not refunded again.** After an offer, and along every run of offers, purchases and
    cancellations by other accounts: in every state the stake is on the account while contracts are
    left, and has been returned once when none are; and no cancellation of the completed offer takes
    anything from the account. -/
theorem stake_returned_once_iff (cfg : Config A X) {s₀ : State A X} {offer : BondOffer A X}
    {events : List (Event A X)}
    (hoffer : doOffer cfg source offer keepAlive s₀ = (.ok n, s)) (hsource : source ≠ cfg.accountId n)
    (hevents : Along (lifecycle cfg) (Undisturbed cfg n) s events) :
    (Throughout (tracked cfg n) (StakeKept cfg n) (s, 0) events ∧
        Along (lifecycle cfg) (CancelsNothing cfg n) s events) ↔
      Along (lifecycle cfg) (fun s e => ¬ RefundedAgain cfg n s e) s events := by
  have hstart : Staked cfg n (s, 0) := Staked.of_doOffer hsource hoffer
  have hevents' : Along (tracked cfg n) (fun t e => Undisturbed cfg n t.1 e) (s, 0) events :=
    (along_tracked (Undisturbed cfg n)).mpr hevents
  -- The payments that are counted beside the state have no influence on it.
  have hkept : Throughout (tracked cfg n) (StakeKept cfg n) (s, 0) events ↔
      Along (tracked cfg n) (fun t e => ¬ RefundedAgain cfg n t.1 e) (s, 0) events := by
    refine throughout_iff_along_of (I := Staked cfg n) (fun h => h.kept) ?_ ?_ hstart hevents'
    · intro t e t' h hundisturbed hnot hstep
      exact h.step hundisturbed hnot hstep
    · intro t e h _ hagain
      exact h.lost (not_not.mp hagain)
  have hrecorded : Along (tracked cfg n) (fun t e => ¬ RefundedAgain cfg n t.1 e) (s, 0) events ↔
      Along (lifecycle cfg) (fun s e => ¬ RefundedAgain cfg n s e) s events :=
    along_tracked fun s e => ¬ RefundedAgain cfg n s e
  rw [hkept, hrecorded]
  -- That nothing else is cancelled then follows from the condition.
  refine ⟨And.left, fun hnot => ⟨hnot, ?_⟩⟩
  refine (along_tracked (CancelsNothing cfg n)).mp (along_of_invariant (I := Staked cfg n)
    (C := fun t e => Undisturbed cfg n t.1 e ∧ ¬ RefundedAgain cfg n t.1 e)
    (D := fun t e => CancelsNothing cfg n t.1 e) ?_ ?_ hstart (hevents'.and (hrecorded.mpr hnot)))
  · intro t e t' h hC hstep
    exact h.step hC.1 hC.2 hstep
  · intro t e h hC
    exact h.cancelsNothing hC.2

/-! ## Where the funds come from -/

/-- What an event leaves on the account of the offer `n` for good: a native bond that is paid
    to it and never returned. -/
def strayed (cfg : Config A X) (n : Nat) (s : State A X) : Event A X → Nat
  | .on (.bond now (.signed source) id nbOfBonds keepAlive) =>
      if (doBond cfg now id source nbOfBonds keepAlive s).1.toBool = true then
        (s.bondOffers id).elim 0 fun o => if o.2.maturity = .infinite then
          credited cfg n nbOfBonds o.2 else 0
      else 0
  | _ => 0

/-- On the account are at most the stake and the reward of an offer that is open, the `prior`
    funds and the `stray` ones. -/
structure Funded (cfg : Config A X) (n prior stray : Nat) (s : State A X) : Prop where
  issuers : ∀ m issuer left, s.bondOffers m = some (issuer, left) → issuer ≠ cfg.accountId n
  bound : ∀ issuer left, s.bondOffers n = some (issuer, left) → held cfg n s ≤
    prior + stray + if 0 < left.nbOfBonds then cfg.stake + nativeReward cfg left else 0

/-- A purchase leaves no more on the account than what it cannot return. -/
theorem bonded_held (l : Ledger A X) (nbOfBonds share : Nat) (offer : BondOffer A X)
    (hn : n ≤ cfg.maxBondOfferId)
    (hm : m ≤ cfg.maxBondOfferId) (hsource : source ≠ cfg.accountId n)
    (hissuer : issuer ≠ cfg.accountId n) (hfunds : debited cfg n m share offer +
        (if n = m ∧ (offer.sold nbOfBonds share).completed = true then cfg.stake else 0) ≤
      l.free cfg.nativeAsset (cfg.accountId n)) :
    (bondedLedger cfg l m nbOfBonds share source issuer offer).free cfg.nativeAsset
      (cfg.accountId n) +
        debited cfg n m share offer + (if n = m ∧
          (offer.sold nbOfBonds share).completed = true then cfg.stake else 0) ≤
      l.free cfg.nativeAsset (cfg.accountId n) +
        (if offer.maturity = .infinite then credited cfg n nbOfBonds offer else 0) := by
  have haccount : cfg.accountId n = cfg.accountId m ↔ n = m := cfg.accountId_injective.eq_iff hn hm
  have htraded :
      (tradedLedger cfg l m nbOfBonds share source offer).free cfg.nativeAsset (cfg.accountId n) +
      debited cfg n m share offer = l.free cfg.nativeAsset (cfg.accountId n) +
        (if offer.maturity = .infinite then credited cfg n nbOfBonds offer else 0) := by
    rw [free_tradedLedger hn hm hsource]
    split_ifs <;> omega
  unfold bondedLedger
  generalize (if offer.maturity = .infinite then credited cfg n nbOfBonds offer else 0) =
    stray at htraded ⊢
  by_cases hlast : (offer.sold nbOfBonds share).completed = true
  · simp only [hlast, and_true, if_true] at hfunds ⊢
    rw [Ledger.free_move_of_ne_dest hissuer.symm]
    simp only [haccount, true_and]
    omega
  · rw [if_neg hlast, if_neg fun hboth => hlast hboth.2]
    exact htraded.le

namespace Funded

variable {prior stray paid : Nat}

omit [DecidableEq A] in
/-- An event that leaves the offers alone and brings `k` to the account at most. -/
theorem of_same {k : Nat} (h : Funded cfg n prior stray s)
    (hissuers : ∀ m issuer left, s'.bondOffers m = some (issuer, left) → issuer ≠ cfg.accountId n)
    (hoffer : s'.bondOffers n = s.bondOffers n) (hheld : held cfg n s' ≤ held cfg n s + k) :
    Funded cfg n prior (stray + k) s' := by
  refine ⟨hissuers, fun issuer left hleft => ?_⟩
  have hbound := h.bound issuer left (hoffer ▸ hleft)
  omega

omit [DecidableEq A] [DecidableEq X] in
/-- Writing one offer, of another issuer than the account. -/
theorem issuers_update {o : Option (A × BondOffer A X)}
    (h : ∀ m issuer left, s.bondOffers m = some (issuer, left) → issuer ≠ cfg.accountId n)
    (ho : ∀ issuer left, o = some (issuer, left) → issuer ≠ cfg.accountId n) :
    ∀ k issuer left, Function.update s.bondOffers m o k = some (issuer, left) →
      issuer ≠ cfg.accountId n := by
  intro k issuer left hleft
  rw [Function.update_apply] at hleft
  split at hleft
  · exact ho issuer left hleft
  · exact h k issuer left hleft

theorem bonded {origin : RawOrigin A} (h : Funded cfg n prior stray s)
    (hstaked : Staked cfg n (s, paid))
    (hid : m ≤ cfg.maxBondOfferId)    (hsigner : origin ≠ .signed (cfg.accountId n)) :
    Funded cfg n prior (stray + strayed cfg n s (.on (.bond now origin m nbOfBonds keepAlive)))
      (dispatch (bond cfg now origin m nbOfBonds keepAlive) s) := by
  rcases dispatch_bond cfg now origin m nbOfBonds keepAlive s with
    ⟨source, share, rfl, hcall⟩ | ⟨hfailed, hsame⟩
  · have hsource : source ≠ cfg.accountId n := fun heq => hsigner (heq ▸ rfl)
    obtain ⟨issuer, offer, hbonded, -, hledger, hoffers⟩ := doBond_ok hcall
    have hissuer : issuer ≠ cfg.accountId n := h.issuers m issuer offer hbonded.offer_eq
    have hstray : strayed cfg n s (.on (.bond now (.signed source) m nbOfBonds keepAlive)) =
        if offer.maturity = .infinite then credited cfg n nbOfBonds offer else 0 := by
      simp [strayed, hcall, hbonded.offer_eq, Except.toBool]
    have hissuers :=
      issuers_update (m := m) (o := some (issuer, offer.sold nbOfBonds share)) h.issuers
      fun issuer' left heq => by
        obtain ⟨rfl, -⟩ := Prod.mk.inj (Option.some.inj heq)
        exact hissuer
    rw [hstray]
    by_cases hm : n = m
    · subst hm
      obtain ⟨-, hstake⟩ :=
        hstaked.running issuer offer hbonded.offer_eq (hbonded.pos.trans_le hbonded.le)
      replace hstake : cfg.stake + nativeReward cfg offer ≤ held cfg n s := hstake
      have hreward := nativeReward_sold cfg n hbonded
      have hbound := h.bound issuer offer hbonded.offer_eq
      rw [if_pos (hbonded.pos.trans_le hbonded.le)] at hbound
      have hheld :=
        bonded_held s.vesting.ledger nbOfBonds share offer hstaked.inRange hid hsource hissuer (by
          unfold held at hstake
          split_ifs <;> omega)
      rw [← hledger] at hheld
      refine ⟨hoffers ▸ hissuers, fun issuer' left hleft => ?_⟩
      rw [hoffers, Function.update_self] at hleft
      obtain ⟨rfl, rfl⟩ := Prod.mk.inj (Option.some.inj hleft)
      unfold held at hbound ⊢
      by_cases hlast : (offer.sold nbOfBonds share).nbOfBonds = 0
      · have hnone : nativeReward cfg (offer.sold nbOfBonds share) = 0 := by
          simp [nativeReward, hbonded.share_of_last hlast]
        rw [if_pos ⟨rfl, BondOffer.completed_iff.mpr hlast⟩] at hheld
        rw [if_neg (show ¬ 0 < (offer.sold nbOfBonds share).nbOfBonds by omega)]
        omega
      · rw [if_neg fun hboth => hlast (BondOffer.completed_iff.mp hboth.2)] at hheld
        rw [if_pos (Nat.pos_of_ne_zero hlast)]
        omega
    · have hheld :=
        bonded_held s.vesting.ledger nbOfBonds share offer hstaked.inRange hid hsource hissuer (by
          rw [debited, if_neg fun hboth => hm hboth.2, if_neg fun hboth => hm hboth.1]
          exact Nat.zero_le _)
      refine h.of_same (hoffers ▸ hissuers) (by rw [hoffers, Function.update_of_ne hm]) ?_
      rw [held, hledger]
      exact (Nat.le_add_right _ _).trans ((Nat.le_add_right _ _).trans hheld)
  · rw [hsame]
    refine h.of_same h.issuers rfl (Nat.le_add_right _ _)

/-- **Every event** leaves on the account at most what strays there. -/
theorem step {e : Event A X} (h : Funded cfg n prior stray s) (hstaked : Staked cfg n (s, paid))
    (hundisturbed : Undisturbed cfg n s e) (hstep : lifecycle cfg s e = some s') :
    Funded cfg n prior (stray + strayed cfg n s e) s' := by
  cases e with
  | offer origin offer keepAlive =>
      obtain rfl := Option.some.inj hstep
      rcases dispatch_offer cfg origin offer keepAlive s with ⟨source, id, rfl, hcall⟩ | ⟨-, hsame⟩
      · obtain ⟨-, hnext, hs'⟩ := doOffer_ok hcall
        have hne : n ≠ id := fun heq => hundisturbed.2 (heq ▸ hnext.symm)
        have hsource : source ≠ cfg.accountId n := fun heq => hundisturbed.1 (heq ▸ rfl)
        have haccount : cfg.accountId n ≠ cfg.accountId id := fun heq =>
          hne (cfg.accountId_injective hstaked.inRange (hnext ▸ Nat.min_le_right _ _) heq)
        rw [hs']
        refine h.of_same (issuers_update h.issuers fun issuer left heq => ?_)
          (Function.update_of_ne hne ..) ?_
        · obtain ⟨rfl, -⟩ := Prod.mk.inj (Option.some.inj heq)
          exact hsource
        · simp only [held, State.paid]
          rw [Ledger.free_move_of_ne_dest haccount, Ledger.free_move_of_ne_dest haccount]
          omega
      · rw [hsame]
        exact h.of_same h.issuers rfl (Nat.le_add_right _ _)
  | on op =>
      cases op with
      | bond now origin m nbOfBonds keepAlive =>
          obtain rfl := Option.some.inj hstep
          exact h.bonded hstaked hundisturbed.1 hundisturbed.2
      | cancel origin m =>
          obtain rfl := Option.some.inj hstep
          rcases dispatch_cancel cfg origin m s with ⟨-, u, hcall⟩ | ⟨-, hsame⟩
          · obtain ⟨issuer, left, hcancellable, hs'⟩ := cancel_returns_iff.mp hcall
            have hissuers := issuers_update (m := m) (o := none) h.issuers nofun
            have hissuer : cfg.accountId n ≠ issuer :=
              (h.issuers m issuer left hcancellable.offer_eq).symm
            rw [hs']
            by_cases hm : n = m
            · subst hm
              refine ⟨hissuers, fun issuer' left' hleft' => ?_⟩
              exact nomatch (Function.update_self n none s.bondOffers).symm.trans hleft'
            · refine h.of_same hissuers (Function.update_of_ne hm ..) ?_
              simp only [held, State.paid]
              rw [Ledger.free_move_of_ne_dest hissuer, Ledger.free_move_of_ne_dest hissuer]
              omega
          · rw [hsame]
            exact h.of_same h.issuers rfl (Nat.le_add_right _ _)
      | elsewhere vesting =>
          obtain rfl := Option.some.inj hstep
          exact h.of_same h.issuers rfl (Nat.le_add_right_of_le hundisturbed.le)

theorem of_doOffer {offer : BondOffer A X} {s₀ : State A X} (hsource : source ≠ cfg.accountId n)
    (hissuers : ∀ m issuer left, s₀.bondOffers m = some (issuer, left) → issuer ≠ cfg.accountId n)
    (hoffer : doOffer cfg source offer keepAlive s₀ = (.ok n, s)) :
    Funded cfg n (held cfg n s₀) 0 s := by
  obtain ⟨hvalid, -, hs⟩ := doOffer_ok hoffer
  rw [hs]
  refine ⟨issuers_update hissuers fun issuer left heq => ?_, fun issuer left hleft => ?_⟩
  · obtain ⟨rfl, -⟩ := Prod.mk.inj (Option.some.inj heq)
    exact hsource
  · replace hleft :
        Function.update s₀.bondOffers n (some (source, offer)) n = some (issuer, left) := hleft
    rw [Function.update_self] at hleft
    obtain ⟨-, rfl⟩ := Prod.mk.inj (Option.some.inj hleft)
    rw [if_pos (Nat.pos_of_ne_zero (BondOffer.nbOfBonds_ne_zero hvalid))]
    simp only [held, State.paid]
    rw [Ledger.free_move_of_ne_source hsource.symm, Ledger.free_move_of_ne_source hsource.symm,
      nativeReward]
    simp only [and_true, if_true]
    omega

end Funded

/-- **The stake is taken again only out of bonds that were paid to the account of the offer**, or
    out of funds that were there before it: together they cover the stake. -/
theorem refundedAgain_le_strayed (cfg : Config A X) {s₀ : State A X} {offer : BondOffer A X}
    {events : List (Event A X)}
    {e : Event A X} (hissuers : ∀ m issuer left, s₀.bondOffers m = some (issuer, left) →
      issuer ≠ cfg.accountId n)
    (hoffer : doOffer cfg source offer keepAlive s₀ = (.ok n, s)) (hsource : source ≠ cfg.accountId n)
    (hevents : Along (lifecycle cfg) (fun s e => Undisturbed cfg n s e ∧
      ¬ RefundedAgain cfg n s e) s events)
    (hrun : run (lifecycle cfg) s events = some s') (hagain : RefundedAgain cfg n s' e) :
    cfg.stake ≤ held cfg n s₀ + tally (lifecycle cfg) (strayed cfg n) s events := by
  have hkeeps :
      ∀ {t e t' stray}, ((∃ paid, Staked cfg n (t, paid)) ∧ Funded cfg n (held cfg n s₀) stray t) →
      (Undisturbed cfg n t e ∧ ¬ RefundedAgain cfg n t e) → lifecycle cfg t e = some t' →
      (∃ paid, Staked cfg n (t', paid)) ∧
        Funded cfg n (held cfg n s₀) (stray + strayed cfg n t e) t' := by
    rintro t e t' stray ⟨⟨paid, hstaked⟩, hfunded⟩ hC hstep
    refine ⟨⟨_, hstaked.step hC.1 hC.2 (Option.map_eq_some_iff.mpr ⟨t', hstep, rfl⟩)⟩, ?_⟩
    exact hfunded.step hstaked hC.1 hstep
  have hstart : (∃ paid, Staked cfg n (s, paid)) ∧ Funded cfg n (held cfg n s₀) 0 s :=
    ⟨⟨0, Staked.of_doOffer hsource hoffer⟩, Funded.of_doOffer hsource hissuers hoffer⟩
  obtain ⟨-, hfunded⟩ := tally_invariant
    (J := fun t stray => (∃ paid, Staked cfg n (t, paid)) ∧ Funded cfg n (held cfg n s₀) stray t)
    hkeeps hstart hevents hrun
  match e, hagain with
  | .on (.cancel origin m), ⟨hm, hstake, issuer, left, hcompleted, hcancellable⟩ =>
      have hbound := hfunded.bound issuer left hcancellable.offer_eq
      have hpaid := (cfg.vesting.currency s'.vesting.locks).funded_of_transfer hcancellable.staked
        (hfunded.issuers n issuer left hcancellable.offer_eq).symm
      rw [if_neg (by simp [BondOffer.completed_iff.mp hcompleted]), Nat.add_zero,
        Nat.zero_add] at hbound
      exact hpaid.trans hbound

/-- Accounts `3` and `4` buy all contracts, which sends the stake back, and the issuer
    cancels the completed offer. -/
def completionEvents : List (Event Nat Nat) :=
  [.on (.bond 3 (.signed 3) 1 1 false), .on (.bond 4 (.signed 4) 1 2 true)]

theorem completionEvents_undisturbed (s : State Nat Nat) :
    Along (lifecycle sample) (Undisturbed sample 1) s completionEvents :=
  ⟨by simp [Undisturbed, sample], fun _ _ => ⟨by simp [Undisturbed, sample], fun _ _ => trivial⟩⟩

/-- The offer of the issuer, up to the completion. -/
theorem completionEvents_run : ∃ s s', doOffer sample 1 sampleOffer false State.sample = (.ok 1, s) ∧
    run (lifecycle sample) s completionEvents = some s' ∧
    tally (lifecycle sample) (strayed sample 1) s completionEvents = 0 := by
  have hview : ((doOffer sample 1 sampleOffer false State.sample).1.toOption,
      (run (lifecycle sample) (doOffer sample 1 sampleOffer false State.sample).2
      completionEvents).isSome,
      tally (lifecycle sample) (strayed sample 1)
        (doOffer sample 1 sampleOffer false State.sample).2 completionEvents) =
      (some 1, true, 0) := by decide +kernel
  simp only [Prod.mk.injEq] at hview
  obtain ⟨hid, hrun, hstray⟩ := hview
  obtain ⟨s', hrun⟩ := Option.isSome_iff_exists.mp hrun
  exact ⟨_, s', Call.ok_of_toOption hid, hrun, hstray⟩

/-- Nothing has strayed onto the account, so the ledger refuses the cancellation. -/
theorem completionEvents_not_again {s s' : State Nat Nat} {origin : RawOrigin Nat}
    (hoffer : doOffer sample 1 sampleOffer false State.sample = (.ok 1, s))
    (hrun : run (lifecycle sample) s completionEvents = some s')
    (hstray : tally (lifecycle sample) (strayed sample 1) s completionEvents = 0) :
    ¬ RefundedAgain sample 1 s' (.on (.cancel origin 1)) := by
  intro hagain
  have hle := refundedAgain_le_strayed sample (by simp [State.sample]) hoffer (by decide)
    ((completionEvents_undisturbed s).and ⟨id, fun _ _ => ⟨id, fun _ _ => trivial⟩⟩) hrun hagain
  rw [hstray] at hle
  revert hle
  decide

/-- The stake is kept, and returned once, when the issuer cancels the completed offer in vain. -/
theorem stake_returned_once_sample :
    ∃ s, doOffer sample 1 sampleOffer false State.sample = (.ok 1, s) ∧
    Throughout (tracked sample 1) (StakeKept sample 1) (s, 0)
      (completionEvents ++ [.on (.cancel (.signed 1) 1)]) := by
  obtain ⟨s, s', hoffer, hrun, hstray⟩ := completionEvents_run
  refine ⟨s, hoffer, ((stake_returned_once_iff sample hoffer (by decide) ?_).mpr ?_).1⟩
  · exact along_append.mpr ⟨completionEvents_undisturbed s,
      fun _ _ => ⟨by simp [Undisturbed, sample], fun _ _ => trivial⟩⟩
  · refine along_append.mpr ⟨⟨id, fun _ _ => ⟨id, fun _ _ => trivial⟩⟩,
      fun t ht => ⟨?_, fun _ _ => trivial⟩⟩
    obtain rfl : s' = t := Option.some.inj (hrun.symm.trans ht)
    exact completionEvents_not_again hoffer hrun hstray

/-- Three contracts at a price of `60` of the native asset, paid to the account of the offer
    itself. -/
def strayOffer : BondOffer Nat Nat :=
  ⟨1001, 0, 60, 3, .infinite, ⟨2, 100, 7⟩⟩

def State.stray : State Nat Nat :=
  { State.sample with vesting :=
      { State.sample.vesting with ledger := Ledger.ofList [(0, 1, 500), (2, 1, 200), (0, 3, 500)] } }

/-- Account `3` buys all contracts, which sends the stake back, and the issuer
    cancels the completed offer. -/
def strayEvents : List (Event Nat Nat) :=
  [.on (.bond 3 (.signed 3) 1 3 false), .on (.cancel (.signed 1) 1)]

/-- The issuer gets the stake a second time, out of what account `3` has paid for the contracts. -/
theorem stake_returned_once_fails :
    ¬ ∀ (offer : BondOffer Nat Nat) (events : List (Event Nat Nat)) (s : State Nat Nat),
      doOffer sample 1 offer false State.stray = (.ok 1, s) →
      Along (lifecycle sample) (Undisturbed sample 1) s events →
      Throughout (tracked sample 1) (StakeKept sample 1) (s, 0) events := by
  intro h
  have hview : ((doOffer sample 1 strayOffer false State.stray).1.toOption,
      (run (tracked sample 1) ((doOffer sample 1 strayOffer false State.stray).2, 0) strayEvents).map
        fun t => ((t.1.bondOffers 1).isSome, t.2)) = (some 1, some (false, 200)) := by decide +kernel
  simp only [Prod.mk.injEq] at hview
  obtain ⟨hid, hrun⟩ := hview
  obtain ⟨⟨s', paid⟩, hrun, hend⟩ := Option.map_eq_some_iff.mp hrun
  obtain ⟨hgone, hpaid⟩ := Prod.mk.inj hend
  have hundisturbed : Along (lifecycle sample) (Undisturbed sample 1)
      (doOffer sample 1 strayOffer false State.stray).2 strayEvents :=
    ⟨by simp [Undisturbed, sample], fun _ _ => ⟨by simp [Undisturbed, sample], fun _ _ => trivial⟩⟩
  have hkept : StakeKept sample 1 (s', paid) :=
    (h strayOffer strayEvents _ (Call.ok_of_toOption hid) hundisturbed).of_run hrun
  have hclosed : ¬ s'.Open 1 := by
    rintro ⟨issuer, left, hleft, -⟩
    rw [hleft] at hgone
    cases hgone
  have honce : paid = sample.stake := hkept.ended hclosed
  exact absurd (honce.symm.trans hpaid) (by decide)

end BondedFinance
end Composable
