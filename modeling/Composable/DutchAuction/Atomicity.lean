import Composable.DutchAuction.Reservations

/-!
# `DutchAuction.Atomicity` — orders that are refused

Neither `ask` nor `liquidate` is transactional, so what they wrote before the step that fails stays.
`ask` takes an order id and the deposit before it reserves what is sold; `liquidate` releases what
is sold before it pays the deposit back.

`State.refused` is all a refused `ask` leaves. It is `Charged` if it leaves a deposit with the
treasury and no order. A removed order that is not refunded stays stored with nothing behind it,
unless nothing was reserved for it (`KeepsLocked`).
-/

namespace Composable
namespace DutchAuction

variable {A X : Type} [DecidableEq A] [DecidableEq X]
variable {cfg : Config A X} {s s' : State A X} {l : Ledger A X} {who : A} {order : Sell X} {now : Nat}
variable {configuration : TimeReleaseFunction} {origin : RawOrigin A} {id : Nat}

/-! ## Refused orders -/

/-- The seller can pay the deposit. -/
def DepositPaid (cfg : Config A X) (l : Ledger A X) (who : A) : Prop :=
  cfg.currency.transferRefused l cfg.nativeAsset who cfg.treasury cfg.orderDeposit true = none

instance (cfg : Config A X) (l : Ledger A X) (who : A) : Decidable (DepositPaid cfg l who) :=
  inferInstanceAs (Decidable (_ = _))

/-- The deposit paid, what is sold can be reserved. -/
def BaseHeld (cfg : Config A X) (l : Ledger A X) (who : A) (order : Sell X) : Prop :=
  cfg.currency.holdRefused (l.move cfg.nativeAsset who cfg.treasury cfg.orderDeposit)
    order.pair.base who
    order.take.amount = none

instance (cfg : Config A X) (l : Ledger A X) (who : A) (order : Sell X) :
    Decidable (BaseHeld cfg l who order) :=
  inferInstanceAs (Decidable (_ = _))

/-- An `ask` of the order succeeds. -/
def Accepted (cfg : Config A X) (l : Ledger A X) (who : A) (order : Sell X) : Prop :=
  order.isValid = true ∧ DepositPaid cfg l who ∧ BaseHeld cfg l who order

instance (cfg : Config A X) (l : Ledger A X) (who : A) (order : Sell X) :
    Decidable (Accepted cfg l who order) :=
  inferInstanceAs (Decidable (_ ∧ _ ∧ _))

/-- An `ask` of the order takes a deposit and fails. -/
def Charged (cfg : Config A X) (l : Ledger A X) (who : A) (order : Sell X) : Prop :=
  order.isValid = true ∧ DepositPaid cfg l who ∧ ¬ BaseHeld cfg l who order ∧ who ≠ cfg.treasury ∧
    cfg.orderDeposit ≠ 0

instance (cfg : Config A X) (l : Ledger A X) (who : A) (order : Sell X) :
    Decidable (Charged cfg l who order) :=
  inferInstanceAs (Decidable (_ ∧ _ ∧ _ ∧ _ ∧ _))

/-- The storage after an `ask` that was refused. -/
def State.refused (s : State A X) (cfg : Config A X) (who : A) (order : Sell X) : State A X :=
  if order.isValid = true then
    { s with
      ledger := if DepositPaid cfg s.ledger who
        then s.ledger.move cfg.nativeAsset who cfg.treasury cfg.orderDeposit else s.ledger
      ordersIndex := nextOrderId s.ordersIndex }
  else s

theorem ask_accepted (h : Accepted cfg s.ledger who order) : ask cfg now who order configuration s =
    (.ok (nextOrderId s.ordersIndex), s.asked cfg now who order configuration) :=
  askExtrinsic_ok.mpr ⟨who, rfl, h.1, h.2.1, h.2.2, rfl, rfl⟩

theorem ask_refused (h : ¬ Accepted cfg s.ledger who order) :
    ∃ e, e ≠ .panic ∧ ask cfg now who order configuration s =
      (.error e, s.refused cfg who order) := by
  have hask : Call.Outcome (fun _ _ => Accepted cfg s.ledger who order)
      (fun e t => e ≠ .panic ∧ t = s.refused cfg who order)
        (ask cfg now who order configuration s) := by
    simp only [ask, Call.outcome_bind, Call.outcome_ensure, Call.outcome_modify,
      Call.get_bind, onLedger, Call.outcome_zoom, Currency.transfer_keepAlive_outcome,
      Currency.hold_outcome, Call.outcome_pure]
    refine ⟨fun hvalid => ⟨fun hpaid => ⟨fun hheld => ⟨hvalid, hpaid, hheld⟩, fun _ _ => ?_⟩,
      fun e he => ?_⟩, fun hinvalid => ?_⟩
    · have hpaid' : DepositPaid cfg s.ledger who := hpaid
      refine ⟨fun hpanic => ?_, by rw [State.refused, if_pos hvalid, if_pos hpaid']⟩
      cases hpanic
    · have hunpaid : ¬ DepositPaid cfg s.ledger who := by
        rw [DepositPaid, he]
        exact Option.some_ne_none e
      refine ⟨fun hpanic => ?_, by rw [State.refused, if_pos hvalid, if_neg hunpaid]⟩
      cases hpanic
    · refine ⟨fun hpanic => ?_, by rw [State.refused, if_neg hinvalid]⟩
      cases hpanic
  rcases hcall : ask cfg now who order configuration s with ⟨e | id, t⟩
  · rw [hcall] at hask
    obtain ⟨hpanic, rfl⟩ := hask
    exact ⟨e, hpanic, rfl⟩
  · rw [hcall] at hask
    exact absurd hask h

theorem sellOrders_refused : (s.refused cfg who order).sellOrders = s.sellOrders := by
  unfold State.refused
  split <;> rfl

/-- What a refused `ask` leaves in the ledger. -/
theorem ledger_refused (h : ¬ Accepted cfg s.ledger who order) :
    (Charged cfg s.ledger who order ∧ (s.refused cfg who order).ledger =
        s.ledger.move cfg.nativeAsset who cfg.treasury cfg.orderDeposit) ∨
      (¬ Charged cfg s.ledger who order ∧ (s.refused cfg who order).ledger = s.ledger) := by
  unfold State.refused
  by_cases hvalid : order.isValid = true
  · rw [if_pos hvalid]
    by_cases hpaid : DepositPaid cfg s.ledger who
    · have hheld : ¬ BaseHeld cfg s.ledger who order := fun hheld => h ⟨hvalid, hpaid, hheld⟩
      simp only [if_pos hpaid, Ledger.move_eq_self_iff]
      by_cases hmoves : who = cfg.treasury ∨ cfg.orderDeposit = 0
      · refine .inr ⟨fun hcharged => ?_, hmoves⟩
        exact hmoves.elim hcharged.2.2.2.1 hcharged.2.2.2.2
      · rw [not_or] at hmoves
        exact .inl ⟨⟨hvalid, hpaid, hheld, hmoves.1, hmoves.2⟩, trivial⟩
    · exact .inr ⟨fun hcharged => hpaid hcharged.2.1, if_neg hpaid⟩
  · rw [if_neg hvalid]
    exact .inr ⟨fun hcharged => hvalid hcharged.1, rfl⟩

/-- An order id was left to hand out, or none was taken. -/
theorem nextOrderId_eq_self_iff {n : Nat} : nextOrderId n = n ↔ n = u128Max := by
  unfold nextOrderId Fixed.saturated
  omega

/-- A refused `ask` leaves everything as it was: it is invalid, or the ids have run out
    and no deposit is taken. -/
theorem refused_eq_self_iff (h : ¬ Accepted cfg s.ledger who order) : s.refused cfg who order = s ↔
    order.isValid = false ∨ (s.ordersIndex = u128Max ∧ ¬ Charged cfg s.ledger who order) := by
  by_cases hvalid : order.isValid = true
  · have hledger := ledger_refused h
    have hindex : (s.refused cfg who order).ordersIndex = nextOrderId s.ordersIndex := by
      rw [State.refused, if_pos hvalid]
    have hvalid' : order.isValid ≠ false :=
      fun hinvalid => absurd (hvalid.symm.trans hinvalid) (by decide)
    rw [or_iff_right hvalid']
    constructor
    · intro hsame
      rw [hsame] at hledger hindex
      refine ⟨nextOrderId_eq_self_iff.mp hindex.symm, fun hcharged => ?_⟩
      rcases hledger with ⟨-, hmoved⟩ | ⟨hfree, -⟩
      · exact (Ledger.move_eq_self_iff.mp hmoved.symm).elim hcharged.2.2.2.1 hcharged.2.2.2.2
      · exact hfree hcharged
    · rintro ⟨hfull, hfree⟩
      obtain ⟨-, hsame⟩ := hledger.resolve_left fun hcharged => hfree hcharged.1
      have hparts : s.refused cfg who order = { s with
          ledger := (s.refused cfg who order).ledger
          ordersIndex := (s.refused cfg who order).ordersIndex } := by
        rw [State.refused, if_pos hvalid]
      rw [hparts, hsame, hindex, nextOrderId_eq_self_iff.mpr hfull]
  · refine iff_of_true ?_ (.inl (Bool.eq_false_iff.mpr hvalid))
    rw [State.refused, if_neg hvalid]

/-- **When `ask` is atomic**: the order is invalid or accepted, or the ids have run out
    and no deposit is taken. -/
theorem ask_atomic : (ask cfg now who order configuration).Atomic s ↔ order.isValid = false ∨
    Accepted cfg s.ledger who order ∨
      (s.ordersIndex = u128Max ∧ ¬ Charged cfg s.ledger who order) := by
  by_cases haccepted : Accepted cfg s.ledger who order
  · refine iff_of_true (fun e t hcall => ?_) (.inr (.inl haccepted))
    rw [ask_accepted haccepted] at hcall
    cases hcall
  · obtain ⟨e, -, hcall⟩ : ∃ e, e ≠ .panic ∧
      ask cfg now who order configuration s = (.error e, s.refused cfg who order) :=
        ask_refused haccepted
    rw [or_iff_right haccepted, ← refused_eq_self_iff haccepted]
    unfold Call.Atomic
    rw [hcall]
    constructor
    · exact fun h => h e _ rfl
    · rintro h e' t ht
      rw [← (Prod.mk.inj ht).2, h]

/-- The extrinsic asks on behalf of who signed it. -/
theorem askExtrinsic_atomic : (askExtrinsic cfg now origin order configuration).Atomic s ↔
    ∀ who, origin = .signed who → (ask cfg now who order configuration).Atomic s := by
  have hsigner : (ensureSigned origin : AuctionCall A X A).Reads := by
    intro s
    cases origin <;> rfl
  rw [askExtrinsic, Call.atomic_bind hsigner]
  simp only [ensureSigned_ok, and_true]

/-! ## Orders that are not refunded -/

/-- Whoever removes an order is refunded, or nothing was reserved for it. -/
def KeepsLocked (cfg : Config A X) (s : State A X) (origin : RawOrigin A) (id : Nat) : Prop :=
  ∀ order ∈ s.sellOrders.lookup id, origin = .signed order.fromTo → RefundRefused cfg s order →
    order.order.take.amount = 0 ∨ s.ledger.reserved order.order.pair.base order.fromTo = 0

instance (cfg : Config A X) (s : State A X) (origin : RawOrigin A) (id : Nat) :
    Decidable (KeepsLocked cfg s origin id) := inferInstanceAs (Decidable (∀ order ∈ _, _ → _ → _))

/-- A removal that is not refunded has released what was reserved. -/
theorem liquidate_unrefunded {order : SellOrder A X} (horder : s.sellOrders.lookup id = some order)
    (hrefused : RefundRefused cfg s order) :
    ∃ e, liquidate cfg (.signed order.fromTo) id s =
      (.error e, { s with ledger := s.unlocked order }) := by
  obtain ⟨e, he⟩ := Option.ne_none_iff_exists'.mp hrefused
  refine ⟨.token e, ?_⟩
  have hrefund : cfg.currency.transfer cfg.nativeAsset cfg.treasury order.fromTo order.deposit true
      (s.unlocked order) = (.error e, s.unlocked order) := by
    rw [Currency.transfer, Currency.commit, he]
  have hsigner :
      (ensureSigned (.signed order.fromTo) : AuctionCall A X A) s = (.ok order.fromTo, s) := rfl
  have hstored : (Call.ofOption (s.sellOrders.lookup id) (err .orderNotFound) : AuctionCall A X _) s =
      (.ok order, s) := Call.ofOption_ok.mpr ⟨horder, rfl⟩
  have howned : (Call.ensure (order.fromTo = order.fromTo) .badOrigin : AuctionCall A X Unit) s =
      (.ok (), s) :=
    Call.ensure_ok.mpr ⟨rfl, rfl⟩
  have hreleased :
      (onLedger .token (Currency.unreserve order.order.pair.base order.fromTo
        order.order.take.amount) :
      AuctionCall A X Unit) s = (.ok (), { s with ledger := s.unlocked order }) := rfl
  rw [liquidate, Call.bind_of_ok hsigner, Call.get_bind, Call.bind_of_ok hstored,
    Call.bind_of_ok howned, Call.bind_of_ok hreleased]
  show Call.bind _ _ _ = _
  unfold Call.bind onLedger Call.zoom
  rw [hrefund]

/-- **When `liquidate` is atomic.** -/
theorem liquidate_atomic : (liquidate cfg origin id).Atomic s ↔ KeepsLocked cfg s origin id := by
  constructor
  · rintro h order horder rfl hrefused
    obtain ⟨e, hcall⟩ := liquidate_unrefunded horder hrefused
    exact Ledger.unlock_eq_self_iff.mp (congrArg State.ledger (h e _ hcall))
  · intro h e t hcall
    rcases (Call.outcome_iff.mp liquidate_error).2 e t hcall with
      hsame | ⟨order, horder, hsigner, hrefused, rfl⟩
    · exact hsame
    · have hunlocked : s.unlocked order = s.ledger :=
        Ledger.unlock_eq_self_iff.mpr (h order horder hsigner hrefused)
      rw [hunlocked]

/-! ## Reserved orders -/

/-- An order id is left to hand out, a removal keeps what is locked, and a finalised
    order is sold completely. -/
def Careful (cfg : Config A X) (s : State A X) : Op A X → Prop
  | .liquidate origin id => KeepsLocked cfg s origin id
  | op => Orderly cfg s op

instance (cfg : Config A X) (s : State A X) : (op : Op A X) → Decidable (Careful cfg s op)
  | .ask now origin order curve =>
      inferInstanceAs (Decidable (Orderly cfg s (.ask now origin order curve)))
  | .take now origin id take => inferInstanceAs (Decidable (Orderly cfg s (.take now origin id take)))
  | .liquidate origin id => inferInstanceAs (Decidable (KeepsLocked cfg s origin id))
  | .finalize => inferInstanceAs (Decidable (Orderly cfg s .finalize))

theorem Careful.step {op : Op A X} (hbooked : Booked s) (h : Reserved s) (hcareful : Careful cfg s op)
    (hstep : step cfg s op = some s') : Reserved s' := by
  cases op with
  | liquidate origin id =>
      by_cases horderly : Orderly cfg s (.liquidate origin id)
      · exact Reserved.step hbooked h horderly hstep
      · -- The order is not refunded, and the call left everything as it was.
        unfold Orderly at horderly
        push Not at horderly
        obtain ⟨order, horder, rfl, hrefused⟩ := horderly
        obtain ⟨e, hcall⟩ := liquidate_unrefunded horder hrefused
        have hsame : ({ s with ledger := s.unlocked order } : State A X) = s :=
          liquidate_atomic.mpr hcareful e _ hcall
        cases Option.some.inj hstep
        rw [dispatch, hcall, hsame]
        cases e <;> exact h
  | ask now origin order curve =>
      have horderly : Orderly cfg s (.ask now origin order curve) := hcareful
      exact Reserved.step hbooked h horderly hstep
  | take now origin id take =>
      have horderly : Orderly cfg s (.take now origin id take) := hcareful
      exact Reserved.step hbooked h horderly hstep
  | finalize =>
      have horderly : Orderly cfg s .finalize := hcareful
      exact Reserved.step hbooked h horderly hstep

/-- Along careful runs every stored order has its amount reserved. -/
theorem reserved_of_careful (ledger : Ledger A X) {ops : List (Op A X)}
    (hcareful : Along (step cfg) (Careful cfg) (State.genesis ledger) ops)
    (hrun : run (step cfg) (State.genesis ledger) ops = some s) : Reserved s := by
  have hgenesis : Booked (State.genesis ledger) ∧ Reserved (State.genesis ledger) :=
    ⟨Booked.genesis ledger, fun _ _ => Nat.zero_le _⟩
  refine (run_invariant (I := fun s => Booked s ∧ Reserved s) (fun h hc hstep => ?_) hgenesis
    hcareful hrun).2
  exact ⟨h.1.step hstep, Careful.step h.1 h.2 hc hstep⟩

end DutchAuction
end Composable
