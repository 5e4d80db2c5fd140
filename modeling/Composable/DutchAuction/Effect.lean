import Composable.DutchAuction.Fills
import Composable.Support.Run

/-!
# `DutchAuction.Effect` — what a call of the auction does

The auction as a system: the three extrinsics and the end of a block (`Op`, `step`). `Effect` says
once what each can do to the storage, failures included; the invariants of runs are read off it.
-/

namespace Composable
namespace DutchAuction

variable {A X : Type} [DecidableEq A] [DecidableEq X]

/-! ## The system -/

/-- The extrinsics of the pallet, with the time they run at, and the end of a block. -/
inductive Op (A X : Type) where
  | ask (now : Nat) (origin : RawOrigin A) (order : Sell X) (configuration : TimeReleaseFunction)
  | take (now : Nat) (origin : RawOrigin A) (orderId : Nat) (take : Take)
  | liquidate (origin : RawOrigin A) (orderId : Nat)
  | finalize

/-- One operation; a block whose finalisation panics does not exist. -/
def step (cfg : Config A X) (s : State A X) : Op A X → Option (State A X)
  | .ask now origin order configuration =>
      some (dispatch (askExtrinsic cfg now origin order configuration) s)
  | .take now origin orderId take => some (dispatch (takeExtrinsic cfg now origin orderId take) s)
  | .liquidate origin orderId => some (dispatch (liquidate cfg origin orderId) s)
  | .finalize => Call.success (onFinalize cfg) s

/-- The account that signs an operation. -/
def Op.signer : Op A X → Option A
  | .ask _ (.signed a) _ _ | .take _ (.signed a) _ _ | .liquidate (.signed a) _ => some a
  | _ => none

/-- Nothing is for sale yet; the accounts hold whatever they hold. -/
def State.genesis (ledger : Ledger A X) : State A X := ⟨ledger, 0, ∅, ∅⟩

variable {cfg : Config A X} {s s' : State A X}

/-! ## The extrinsics -/

/-- The storage after a successful `ask` of `who`. -/
def State.asked (s : State A X) (cfg : Config A X) (now : Nat) (who : A) (order : Sell X)
    (configuration : TimeReleaseFunction) : State A X :=
  { s with
    ledger :=
      (s.ledger.move cfg.nativeAsset who cfg.treasury cfg.orderDeposit).lock order.pair.base who
      order.take.amount
    ordersIndex := nextOrderId s.ordersIndex
    sellOrders := s.sellOrders.insert (nextOrderId s.ordersIndex)
      ⟨who, order, configuration, now, cfg.orderDeposit⟩ }

/-- The storage after a successful `take` of `who` on `order`. -/
def State.taken (s : State A X) (order : SellOrder A X) (who : A) (id : Nat) (take : Take) :
    State A X :=
  { s with
    ledger := s.ledger.lock order.order.pair.quote who (take.quote take.amount)
    takes := s.takes.insert id (s.takes.getD id [] ++ [⟨who, take⟩]) }

/-- A take that waits was there before, or is the new one. -/
theorem State.mem_taken {s : State A X} {order : SellOrder A X} {who : A} {id id' : Nat} {take : Take}
    {takes : List (TakeOrder A)} {t : TakeOrder A}
    (h : (s.taken order who id take).takes.lookup id' = some takes)
    (ht : t ∈ takes) :
    (∃ old, s.takes.lookup id' = some old ∧ t ∈ old) ∨ (id' = id ∧ t = ⟨who, take⟩) := by
  rcases StorageMap.lookup_insert_some.mp h with ⟨rfl, rfl⟩ | ⟨-, hold⟩
  · rcases List.mem_append.mp ht with hold | hnew
    · exact .inl (StorageMap.mem_getD.mp hold)
    · exact .inr ⟨rfl, List.mem_singleton.mp hnew⟩
  · exact .inl ⟨takes, hold, ht⟩

/-- The ledger after the base asset of `order` was released. -/
def State.unlocked (s : State A X) (order : SellOrder A X) : Ledger A X :=
  s.ledger.unlock order.order.pair.base order.fromTo order.order.take.amount

/-- The storage after a successful `liquidate` of `order`. -/
def State.liquidated (s : State A X) (cfg : Config A X) (order : SellOrder A X) (id : Nat) :
    State A X :=
  { s with
    ledger := (s.unlocked order).move cfg.nativeAsset cfg.treasury order.fromTo order.deposit
    sellOrders := s.sellOrders.erase id }

/-- The deposit of `order` is not paid back. -/
def RefundRefused (cfg : Config A X) (s : State A X) (order : SellOrder A X) : Prop :=
  cfg.currency.transferRefused (s.unlocked order) cfg.nativeAsset cfg.treasury order.fromTo
    order.deposit
    true ≠ none

instance (cfg : Config A X) (s : State A X) (order : SellOrder A X) :
    Decidable (RefundRefused cfg s order) := inferInstanceAs (Decidable (¬ _))

theorem askExtrinsic_ok {now id : Nat} {origin : RawOrigin A} {order : Sell X}
    {configuration : TimeReleaseFunction} :
    askExtrinsic cfg now origin order configuration s = (.ok id, s') ↔ ∃ who,
      origin = .signed who ∧ order.isValid = true ∧
      cfg.currency.transferRefused s.ledger cfg.nativeAsset who cfg.treasury cfg.orderDeposit
        true = none ∧
      cfg.currency.holdRefused (s.ledger.move cfg.nativeAsset who cfg.treasury cfg.orderDeposit)
        order.pair.base who order.take.amount = none ∧
      id = nextOrderId s.ordersIndex ∧ s' = s.asked cfg now who order configuration := by
  simp only [askExtrinsic, ask, Call.bind_ok, ensureSigned_ok, Call.ensure_ok, Call.modify_ok,
    Call.get_bind, onLedger_ok, Currency.transfer_keepAlive_ok, Currency.hold_ok, Call.pure_ok,
    and_assoc, exists_and_left, exists_eq_left, exists_const]
  exact Iff.rfl

/-- A failed `ask` has at most taken an order id and the deposit. -/
structure AskFailed (cfg : Config A X) (s : State A X) (origin : RawOrigin A) (s' : State A X) :
    Prop where
  sellOrders : s'.sellOrders = s.sellOrders
  takes : s'.takes = s.takes
  ordersIndex : s'.ordersIndex = s.ordersIndex ∨ s'.ordersIndex = nextOrderId s.ordersIndex
  ledger : s'.ledger = s.ledger ∨ ∃ who, origin = .signed who ∧
    cfg.currency.transferRefused s.ledger cfg.nativeAsset who cfg.treasury cfg.orderDeposit
      true = none ∧
    s'.ledger = s.ledger.move cfg.nativeAsset who cfg.treasury cfg.orderDeposit

theorem askExtrinsic_error {now : Nat} {origin : RawOrigin A} {order : Sell X}
    {configuration : TimeReleaseFunction} :
    Call.Outcome (fun _ _ => True) (fun _ => AskFailed cfg s origin)
      (askExtrinsic cfg now origin order configuration s) := by
  simp only [askExtrinsic, ask, Call.outcome_bind, ensureSigned_outcome, Call.outcome_ensure,
    Call.outcome_modify, Call.get_bind, onLedger, Call.outcome_zoom,
    Currency.transfer_keepAlive_outcome, Currency.hold_outcome, Call.outcome_pure]
  refine ⟨fun who hwho => ⟨fun _ => ⟨fun hpay => ⟨fun _ => trivial, fun _ _ => ?_⟩, fun _ _ => ?_⟩,
    fun _ => ?_⟩, fun _ => ?_⟩
  · exact ⟨rfl, rfl, .inr rfl, .inr ⟨who, hwho, hpay, rfl⟩⟩
  · exact ⟨rfl, rfl, .inr rfl, .inl rfl⟩
  · exact ⟨rfl, rfl, .inl rfl, .inl rfl⟩
  · exact ⟨rfl, rfl, .inl rfl, .inl rfl⟩

/-- What `ask` does on behalf of `who`, as other pallets call it. -/
theorem ask_outcome {now : Nat} {who : A} {order : Sell X} {configuration : TimeReleaseFunction} :
    Call.Outcome
      (fun _ t => order.isValid = true ∧
        cfg.currency.transferRefused s.ledger cfg.nativeAsset who cfg.treasury cfg.orderDeposit
          true = none ∧
        cfg.currency.holdRefused (s.ledger.move cfg.nativeAsset who cfg.treasury cfg.orderDeposit)
          order.pair.base who order.take.amount = none ∧
        t = s.asked cfg now who order configuration)
      (fun _ => AskFailed cfg s (.signed who)) (ask cfg now who order configuration s) := by
  refine Call.outcome_iff.mpr ⟨fun id t h => ?_, fun e t h => ?_⟩
  · obtain ⟨_, hwho, hvalid, hpaid, hheld, -, hs'⟩ :=
      askExtrinsic_ok.mp (show askExtrinsic cfg now (.signed who) order configuration s =
        (.ok id, t) from h)
    obtain rfl := RawOrigin.signed.inj hwho
    exact ⟨hvalid, hpaid, hheld, hs'⟩
  · exact (Call.outcome_iff.mp askExtrinsic_error).2 e t
      (show askExtrinsic cfg now (.signed who) order configuration s = (.error e, t) from h)

omit [DecidableEq A] [DecidableEq X] in
theorem arithmetic_ok {r : Except ArithmeticError Nat} {n : Nat} :
    (arithmetic r : AuctionCall A X Nat) s = (.ok n, s') ↔ r = .ok n ∧ s' = s := by
  rw [arithmetic, Call.ofExcept_ok, exceptMapError_ok]

theorem takeExtrinsic_ok {now id : Nat} {origin : RawOrigin A} {take : Take} {u : Unit}
    (h : takeExtrinsic cfg now origin id take s = (.ok u, s')) : ∃ who order,
      origin = .signed who ∧ take.isValid = true ∧ s.sellOrders.lookup id = some order ∧
      order.order.take.limit ≤ take.limit ∧ take.quote take.amount ≤ u128Max ∧
      cfg.currency.holdRefused s.ledger order.order.pair.quote who (take.quote take.amount) = none ∧
      s' = s.taken order who id take := by
  simp only [takeExtrinsic, DutchAuction.take, Call.bind_ok, ensureSigned_ok, Call.ensure_ok,
    Call.get_bind, Call.ofOption_ok, arithmetic_ok, Take.quoteLimitAmount, quoteAmount_ok,
    onLedger_ok, Currency.hold_ok, Call.modify_ok, and_assoc, exists_and_left, exists_eq_left,
    exists_const] at h
  obtain ⟨who, rfl, hvalid, order, horder, hlimit, -, _, -, hquote, hhold, rfl⟩ := h
  exact ⟨who, order, rfl, hvalid, horder, hlimit, hquote, hhold, rfl⟩

/-- A failed `take` changes nothing. -/
theorem takeExtrinsic_error {now id : Nat} {origin : RawOrigin A} {take : Take} :
    Call.Outcome (fun _ _ => True) (fun _ t => t = s) (takeExtrinsic cfg now origin id take s) := by
  simp only [takeExtrinsic, DutchAuction.take, Call.outcome_bind, ensureSigned_outcome,
    Call.outcome_ensure, Call.get_bind, Call.outcome_ofOption, arithmetic,
    Call.outcome_ofExcept, onLedger, Call.outcome_zoom, Currency.hold_outcome, Call.outcome_modify,
    implies_true, and_self]

theorem liquidate_ok {origin : RawOrigin A} {id : Nat} {u : Unit} :
    liquidate cfg origin id s = (.ok u, s') ↔ ∃ order, s.sellOrders.lookup id = some order ∧
      origin = .signed order.fromTo ∧ ¬ RefundRefused cfg s order ∧
        s' = s.liquidated cfg order id := by
  simp only [liquidate, Call.bind_ok, ensureSigned_ok, Call.get_bind, Call.ofOption_ok,
    Call.ensure_ok, onLedger_ok, Currency.unreserve_ok, Currency.transfer_keepAlive_ok,
    Call.modify_ok, RefundRefused, not_not, and_assoc, exists_and_left, exists_eq_left, exists_const]
  constructor
  · rintro ⟨_, rfl, order, horder, rfl, hrefund, rfl⟩
    exact ⟨order, horder, rfl, hrefund, rfl⟩
  · rintro ⟨order, horder, rfl, hrefund, rfl⟩
    exact ⟨_, rfl, order, horder, rfl, hrefund, rfl⟩

/-- A failed `liquidate` has released the base asset if only the deposit was not paid back. -/
theorem liquidate_error {origin : RawOrigin A} {id : Nat} :
    Call.Outcome (fun _ _ => True)
      (fun _ t => t = s ∨ ∃ order, s.sellOrders.lookup id = some order ∧
        origin = .signed order.fromTo ∧
        RefundRefused cfg s order ∧ t = { s with ledger := s.unlocked order })
      (liquidate cfg origin id s) := by
  simp only [liquidate, Call.outcome_bind, ensureSigned_outcome, Call.get_bind, Call.outcome_ofOption,
    Call.outcome_ensure, onLedger, Call.outcome_zoom, Currency.unreserve_outcome,
    Currency.transfer_keepAlive_outcome, Call.outcome_modify, implies_true, true_and]
  refine ⟨fun who hwho => ⟨fun order horder => ⟨fun hown e he => .inr ?_, fun _ => .inl trivial⟩,
    fun _ => .inl trivial⟩, fun _ => .inl trivial⟩
  subst hown
  exact ⟨order, horder, hwho,
    by rw [RefundRefused, State.unlocked, he]; exact Option.some_ne_none e, rfl⟩

/-! ## Effects -/

/-- What an operation does to the storage. -/
inductive Effect (cfg : Config A X) (s : State A X) : Op A X → State A X → Prop where
  | askFailed {now origin order configuration s'} (h : AskFailed cfg s origin s')
      (hfail : ∀ id t, askExtrinsic cfg now origin order configuration s ≠ (.ok id, t)) :
      Effect cfg s (.ask now origin order configuration) s'
  | asked {now who order configuration} (hvalid : order.isValid = true)
      (hpaid : cfg.currency.transferRefused s.ledger cfg.nativeAsset who cfg.treasury cfg.orderDeposit
        true = none)
      (hheld : cfg.currency.holdRefused
        (s.ledger.move cfg.nativeAsset who cfg.treasury cfg.orderDeposit) order.pair.base who
        order.take.amount = none) :
      Effect cfg s (.ask now (.signed who) order configuration)
        (s.asked cfg now who order configuration)
  | takeFailed {now origin id take}
      (hfail : ∀ u t, takeExtrinsic cfg now origin id take s ≠ (.ok u, t)) :
      Effect cfg s (.take now origin id take) s
  | taken {now who id take order}
      (hok : takeExtrinsic cfg now (.signed who) id take s = (.ok (), s.taken order who id take))
      (horder : s.sellOrders.lookup id = some order) (hlimit : order.order.take.limit ≤ take.limit)
      (hquote : take.quote take.amount ≤ u128Max)
      (hheld : cfg.currency.holdRefused s.ledger order.order.pair.quote who (take.quote take.amount) =
        none) :
      Effect cfg s (.take now (.signed who) id take) (s.taken order who id take)
  | liquidateFailed {origin id} : Effect cfg s (.liquidate origin id) s
  | unlocked {id order} (horder : s.sellOrders.lookup id = some order)
      (hrefused : RefundRefused cfg s order) :
      Effect cfg s (.liquidate (.signed order.fromTo) id) { s with ledger := s.unlocked order }
  | liquidated {id order} (horder : s.sellOrders.lookup id = some order)
      (hrefund : ¬ RefundRefused cfg s order) :
      Effect cfg s (.liquidate (.signed order.fromTo) id) (s.liquidated cfg order id)
  | finalized {sales s'} (h : onFinalize cfg s = (.ok sales, s')) : Effect cfg s .finalize s'

/-- **Every step is one of the effects.** -/
theorem step_effect {op : Op A X} (h : step cfg s op = some s') : Effect cfg s op s' := by
  cases op with
  | ask now origin order configuration =>
      cases Option.some.inj h
      rcases dispatch_cases (askExtrinsic cfg now origin order configuration) s with
        ⟨id, hok⟩ | ⟨hfail, hidle | ⟨e, herror⟩⟩
      · obtain ⟨who, rfl, hvalid, hpaid, hheld, -, hs'⟩ := askExtrinsic_ok.mp hok
        rw [hs']
        exact .asked hvalid hpaid hheld
      · rw [hidle]
        exact .askFailed ⟨rfl, rfl, .inl rfl, .inl rfl⟩ hfail
      · exact .askFailed ((Call.outcome_iff.mp askExtrinsic_error).2 _ _ herror) hfail
  | take now origin id take =>
      cases Option.some.inj h
      rcases dispatch_cases (takeExtrinsic cfg now origin id take) s with
        ⟨_, hok⟩ | ⟨hfail, hidle | ⟨e, herror⟩⟩
      · obtain ⟨who, order, rfl, -, horder, hlimit, hquote, hheld, hs'⟩ := takeExtrinsic_ok hok
        rw [hs'] at hok ⊢
        exact .taken hok horder hlimit hquote hheld
      · rw [hidle]
        exact .takeFailed hfail
      · rw [(Call.outcome_iff.mp takeExtrinsic_error).2 _ _ herror]
        exact .takeFailed hfail
  | liquidate origin id =>
      cases Option.some.inj h
      rcases dispatch_cases (liquidate cfg origin id) s with ⟨_, hok⟩ | ⟨-, hidle | ⟨e, herror⟩⟩
      · obtain ⟨order, horder, rfl, hrefund, hs'⟩ := liquidate_ok.mp hok
        rw [hs']
        exact .liquidated horder hrefund
      · rw [hidle]
        exact .liquidateFailed
      · rcases (Call.outcome_iff.mp liquidate_error).2 _ _ herror with
          hidle | ⟨order, horder, rfl, hrefused, hs'⟩
        · rw [hidle]
          exact .liquidateFailed
        · rw [hs']
          exact .unlocked horder hrefused
  | finalize =>
      obtain ⟨sales, hok⟩ := Call.success_eq_some.mp h
      exact .finalized hok

end DutchAuction
end Composable
