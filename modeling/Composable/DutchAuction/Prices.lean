import Composable.DutchAuction.Effect

/-!
# `DutchAuction.Prices` — the price of an auction and the takes it accepts

The price of an order starts at its limit and only falls (`price_le_limit`). `take` computes
the current price and drops it again: what it compares with the bid is the limit of the
order, whatever time has passed.

So no bid below the current price is accepted, but a bid between the price and the limit is refused
as well. The price decides exactly about the other bids (`price_governs_takes_iff`).
-/

namespace Composable
namespace DutchAuction

variable {A X : Type} {initialPrice duration p : Nat} {f : TimeReleaseFunction}

/-! ## The price falls -/

/-- `cut` is a `Permill`, at most one. -/
def TimeReleaseFunction.Valid : TimeReleaseFunction → Prop
  | .linearDecrease _ => True
  | .stairstepExponentialDecrease _ cut => cut ≤ Fixed.permill

instance : (f : TimeReleaseFunction) → Decidable f.Valid
  | .linearDecrease _ => inferInstanceAs (Decidable True)
  | .stairstepExponentialDecrease _ cut => inferInstanceAs (Decidable (cut ≤ Fixed.permill))

/-- The price of an order at a time. -/
def SellOrder.price (order : SellOrder A X) (now : Nat) : Except ArithmeticError Nat :=
  order.configuration.price order.order.take.limit (now - order.addedAt)

/-- Before the end of a linear auction, the price is what is left of the time, of the limit. -/
theorem linearDecrease_ok {total : Nat} (hleft : duration < total)
    (h : TimeReleaseFunction.price initialPrice duration (.linearDecrease total) = .ok p) :
    p = Fixed.quotient (initialPrice * (total - duration)) Fixed.div (total * Fixed.div) := by
  have hdiv : 0 < Fixed.div := by decide
  simp only [TimeReleaseFunction.price, if_neg (Nat.not_le.mpr hleft), exceptBind_ok,
    Fixed.fromInteger_elim_ok, Fixed.safeMul_ok, Fixed.safeDiv_ok] at h
  obtain ⟨_, ⟨-, rfl⟩, _, ⟨-, rfl⟩, _, ⟨-, rfl⟩, -, -, rfl⟩ := h
  rw [Fixed.quotient_eq hdiv (Nat.mul_assoc ..).symm]

/-- **The price never rises above the limit it starts from.** -/
theorem price_le (hvalid : f.Valid) (h : f.price initialPrice duration = .ok p) :
    p ≤ initialPrice := by
  cases f with
  | linearDecrease total =>
      by_cases hend : total ≤ duration
      · rw [TimeReleaseFunction.price, if_pos hend] at h
        cases h
        exact Nat.zero_le _
      · rw [linearDecrease_ok (Nat.not_le.mp hend) h]
        refine Fixed.quotient_le ?_
        rw [Nat.mul_assoc]
        exact Nat.mul_le_mul_left _ (Nat.mul_le_mul_right _ (Nat.sub_le _ _))
  | stairstepExponentialDecrease step cut =>
      by_cases hstep : step = 0
      · rw [TimeReleaseFunction.price, if_pos hstep] at h
        cases h
      · rw [TimeReleaseFunction.price, if_neg hstep] at h
        obtain ⟨-, rfl⟩ := Fixed.safeMul_ok.mp h
        have hcut : Fixed.permillPow cut (duration / step) ≤ Fixed.permill :=
          Fixed.perThingPow_le hvalid
        have hmultiplier :
            Fixed.permillPow cut (duration / step) * (Fixed.div / Fixed.permill) ≤ Fixed.div :=
          (Nat.mul_le_mul_right _ hcut).trans (Nat.mul_div_le _ _)
        exact Fixed.quotient_le (Nat.mul_le_mul_left _ hmultiplier)

/-! ## What `take` compares -/

variable [DecidableEq A] [DecidableEq X]
variable {cfg : Config A X} {s s' : State A X} {now id : Nat} {who : A} {order : SellOrder A X}
  {take : Take}

/-- The order is there, the parameters are valid and the bid is funded; what is left is the
    price. -/
structure Fundable (cfg : Config A X) (s : State A X) (now : Nat) (who : A) (id : Nat) (take : Take)
    (order : SellOrder A X) : Prop where
  stored : s.sellOrders.lookup id = some order
  valid : take.isValid = true
  added : order.addedAt ≤ now
  quotes : take.quote take.amount ≤ u128Max
  funds : cfg.currency.holdRefused s.ledger order.order.pair.quote who (take.quote take.amount) = none

/-- A funded take is accepted at the limit of the order, if the price can be computed. -/
theorem take_accepted_iff (h : Fundable cfg s now who id take order) :
    (∃ s', DutchAuction.take cfg now who id take s = (.ok (), s')) ↔
      order.order.take.limit ≤ take.limit ∧ ∃ p, order.price now = .ok p := by
  simp only [DutchAuction.take, Call.bind_ok, Call.ensure_ok, Call.get_bind, Call.ofOption_ok,
    arithmetic_ok, Take.quoteLimitAmount, quoteAmount_ok, onLedger_ok, Currency.hold_ok,
    Call.modify_ok]
  constructor
  · rintro ⟨_, _, _, ⟨-, rfl⟩, order', _, ⟨hstored, rfl⟩, _, _, ⟨hlimit, rfl⟩, _, _, ⟨-, rfl⟩, p, _, ⟨hprice, rfl⟩, -⟩
    obtain rfl := Option.some.inj (h.stored.symm.trans hstored)
    exact ⟨hlimit, p, hprice⟩
  · rintro ⟨hlimit, p, hprice⟩
    exact ⟨_, (), _, ⟨h.valid, rfl⟩, order, _, ⟨h.stored, rfl⟩, (), _, ⟨hlimit, rfl⟩, (), _,
      ⟨h.added, rfl⟩, p, _,
      ⟨hprice, rfl⟩, _, _, ⟨⟨h.quotes, rfl⟩, rfl⟩, (), _, ⟨_, ⟨h.funds, rfl⟩, rfl⟩, rfl⟩

/-- **When the price governs takes.** Acceptance and the current price agree exactly if there is no
    price, or the bid is on the same side of the price as of the limit. The price of a valid
    function is at most the limit: it governs all bids but those from the price up to the limit, and
    no bid below it is accepted. -/
theorem price_governs_takes_iff (cfg : Config A X) {s : State A X} {now id : Nat} {who : A}
    {take : Take} {order : SellOrder A X} (h : Fundable cfg s now who id take order) :
    (((∃ s', DutchAuction.take cfg now who id take s = (.ok (), s')) ↔
        ∃ p, order.price now = .ok p ∧ p ≤ take.limit) ↔
      ∀ p, order.price now = .ok p → max p order.order.take.limit ≤ take.limit ∨
        take.limit < min p order.order.take.limit) ∧
    (order.configuration.Valid →
      (((∃ s', DutchAuction.take cfg now who id take s = (.ok (), s')) ↔
          ∃ p, order.price now = .ok p ∧ p ≤ take.limit) ↔
        ∀ p, order.price now = .ok p → order.order.take.limit ≤ take.limit ∨ take.limit < p) ∧
      ∀ p, order.price now = .ok p → take.limit < p →
        ∀ s', DutchAuction.take cfg now who id take s ≠ (.ok (), s')) := by
  -- What decides is the limit of the order, whatever the price function says.
  have hgoverns : ((∃ s', DutchAuction.take cfg now who id take s = (.ok (), s')) ↔
        ∃ p, order.price now = .ok p ∧ p ≤ take.limit) ↔
      ∀ p, order.price now = .ok p → (order.order.take.limit ≤ take.limit ↔ p ≤ take.limit) := by
    rw [take_accepted_iff h]
    cases hprice : order.price now with
    | error e => simp
    | ok p => simp
  refine ⟨hgoverns.trans (forall_congr' fun p => imp_congr_right fun _ => ?_), fun hvalid => ⟨?_, ?_⟩⟩
  · omega
  · refine hgoverns.trans (forall_congr' fun p => imp_congr_right fun hprice => ?_)
    have hle : p ≤ order.order.take.limit := price_le hvalid hprice
    omega
  -- A valid price is at most the limit of the order, so a bid below the price is below both.
  · intro p hprice hbid s' hok
    have hle : p ≤ order.order.take.limit := price_le hvalid hprice
    have hlimit := ((take_accepted_iff h).mp ⟨s', hok⟩).1
    omega

/-! ## Halfway through an auction -/

/-- At half the time a bid of four units at the limit is accepted, as the price says. -/
theorem price_governs_takes_sample : ∃ s s', run (step (sample 0)) (State.genesis sampleLedger)
      [.ask 0 (.signed 1) sampleSell sampleCurve] = some s ∧
    DutchAuction.take (sample 0) 50 2 1 ⟨4, Fixed.div⟩ s = (.ok (), s') := by
  have hview : (run (step (sample 0)) (State.genesis sampleLedger)
      [.ask 0 (.signed 1) sampleSell sampleCurve]).map (fun s => decide (
        s.sellOrders.lookup 1 = some ⟨1, sampleSell, sampleCurve, 0, 1⟩ ∧
        (sample 0).currency.holdRefused s.ledger 2 2 4 = none)) = some true := by
    decide +kernel
  obtain ⟨s, hrun, hs⟩ := Option.map_eq_some_iff.mp hview
  obtain ⟨hstored, hfunds⟩ := of_decide_eq_true hs
  have hprice : SellOrder.price (⟨1, sampleSell, sampleCurve, 0, 1⟩ : SellOrder Nat Nat) 50 =
      .ok (Fixed.div / 2) := by
    decide +kernel
  have hgoverns := (price_governs_takes_iff (sample 0)
    (⟨hstored, by decide, by decide, by decide, hfunds⟩ : Fundable (sample 0) s 50 2 1 ⟨4,
      Fixed.div⟩ _)).2 trivial
  have haccepted :=
    (hgoverns.1.mpr fun p _ => .inl (by decide)).mpr ⟨Fixed.div / 2, hprice, by decide⟩
  obtain ⟨s', hok⟩ := haccepted
  exact ⟨s, s', hrun, hok⟩

/-- **Three quarters of the limit are refused when the price is half of it.** -/
theorem bid_over_price_refused : ∃ s, run (step (sample 0)) (State.genesis sampleLedger)
      [.ask 0 (.signed 1) sampleSell sampleCurve] = some s ∧
    s.sellOrders.lookup 1 = some ⟨1, sampleSell, sampleCurve, 0, 1⟩ ∧
    SellOrder.price (⟨1, sampleSell, sampleCurve, 0, 1⟩ : SellOrder Nat Nat) 50 =
      .ok (Fixed.div / 2) ∧
    (sample 0).currency.holdRefused s.ledger 2 2 3 = none ∧
    DutchAuction.take (sample 0) 50 2 1 ⟨4, 3 * Fixed.div / 4⟩ s =
      (.error (err .takeLimitDoesNotSatisfiesOrder), s) :=
  ⟨_, rfl, by decide +kernel, by decide +kernel, by decide +kernel, rfl⟩

end DutchAuction
end Composable
