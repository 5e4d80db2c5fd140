import Composable.DutchAuction.Reservations

/-!
# `DutchAuction.Matching` — who gets what of an order

The end of a block carries out the fills of every lot, best first (`onFinalize_iff`). Here the fills
are read as payments: the seller delivers what is filled, and the taker pays for it at the taker's
own limit (`block_matched_best_first`). What an account has free afterwards follows for blocks whose
payments cost their senders nothing else.
-/

namespace Composable
namespace DutchAuction

variable {A X : Type} [DecidableEq A] [DecidableEq X]
variable {cfg : Config A X} {s s' t : State A X} {l l' : Ledger A X} {pair : CurrencyPair X}
  {seller : A}
variable {takes : List (TakeOrder A)} {left left' id : Nat} {ids : List Nat} {x : X} {a : A}

/-! ## Payments -/

/-- What `a` pays in `x` for a fill: the seller the base asset, the taker what it
    costs at the taker's limit. -/
def paidFor (pair : CurrencyPair X) (seller : A) (x : X) (a : A) (f : TakeOrder A × Nat) : Nat :=
  (if x = pair.base ∧ a = seller then f.2 else 0) +
    if x = pair.quote ∧ a = f.1.fromTo then f.1.take.quote f.2 else 0

/-- What `a` receives in `x` for a fill. -/
def receivedFor (pair : CurrencyPair X) (seller : A) (x : X) (a : A) (f : TakeOrder A × Nat) : Nat :=
  (if x = pair.base ∧ a = f.1.fromTo then f.2 else 0) +
    if x = pair.quote ∧ a = seller then f.1.take.quote f.2 else 0

/-- What `a` pays in `x` for the lots of the orders `ids`. -/
def State.paid (s : State A X) (ids : List Nat) (x : X) (a : A) : Nat :=
  (ids.map fun id => (s.lot id).elim 0 fun lot =>
    (lot.fills.map (paidFor lot.order.order.pair lot.order.fromTo x a)).sum).sum

/-- What `a` receives in `x` for the lots of the orders `ids`. -/
def State.received (s : State A X) (ids : List Nat) (x : X) (a : A) : Nat :=
  (ids.map fun id => (s.lot id).elim 0 fun lot =>
    (lot.fills.map (receivedFor lot.order.order.pair lot.order.fromTo x a)).sum).sum

/-- Both sides of an exchange pay and receive. -/
theorem balance_filled_add {t : TakeOrder A} {n : Nat}
    (h : Exchangeable cfg pair.base seller n pair.quote t.fromTo (t.take.quote n) l)
    (hspares : ExchangeSpares cfg pair.base seller n pair.quote t.fromTo (t.take.quote n) l) :
    (filled cfg pair seller t n l).balance x a + paidFor pair seller x a (t, n) =
      l.balance x a + receivedFor pair seller x a (t, n) := by
  obtain ⟨hbase, hquote⟩ := h
  obtain ⟨hspared, hspared'⟩ := hspares
  have hfirst := Ledger.balance_move_add (x := x) (c := a) (cfg.currency.funded_of_transfer hbase)
  have hsecond := Ledger.balance_move_add (x := x) (c := a) (cfg.currency.funded_of_transfer hquote)
  rw [← Currency.paid_of_spares (k := false) hspared, Ledger.balance_unlock,
    Ledger.balance_unlock] at hfirst
  rw [← Currency.paid_of_spares (k := false) hspared'] at hsecond
  rw [filled, Ledger.balance_unlock, exchanged]
  simp only [paidFor, receivedFor, deliver] at hfirst hsecond ⊢
  omega

theorem balance_matched (h : Exchanges cfg pair seller takes left l)
    (hspares : Spares cfg pair seller takes left l) :
    (matched cfg pair seller (fills takes left) l).balance x a +
        ((fills takes left).map (paidFor pair seller x a)).sum =
      l.balance x a + ((fills takes left).map (receivedFor pair seller x a)).sum := by
  induction takes generalizing left l with
  | nil => rfl
  | cons t takes ih =>
      obtain ⟨hex, hrest⟩ := h
      have htail := ih hrest hspares.2
      have hhead : (filled cfg pair seller t (min t.take.amount left) l).balance x a +
          paidFor pair seller x a (t, min t.take.amount left) =
            l.balance x a + receivedFor pair seller x a (t, min t.take.amount left) := by
        rcases Nat.eq_zero_or_pos left with rfl | hpos
        · -- Nothing is left to exchange.
          simp only [Nat.min_zero, filled_zero, Ledger.balance_unlock, paidFor, receivedFor,
            quote_zero, ite_self]
        · exact balance_filled_add (hex hpos) hspares.1
      simp only [fills, allot, matched, List.foldl_cons, List.map_cons, List.sum_cons] at htail ⊢
      omega

theorem balance_matched_lots (h : s.Exchanges cfg ids l) (hspares : s.Spares cfg ids l) :
    (s.matched cfg ids l).balance x a + s.paid ids x a = l.balance x a + s.received ids x a := by
  induction ids generalizing l with
  | nil => rfl
  | cons id ids ih =>
      obtain ⟨hfirst, hrest⟩ := h
      have htail := ih hrest hspares.2
      have hhead : ((s.lot id).elim l fun lot => lot.matched cfg l).balance x a +
          ((s.lot id).elim 0 fun lot =>
            (lot.fills.map (paidFor lot.order.order.pair lot.order.fromTo x a)).sum) =
          l.balance x a + (s.lot id).elim 0 fun lot =>
            (lot.fills.map (receivedFor lot.order.order.pair lot.order.fromTo x a)).sum := by
        cases hlot : s.lot id with
        | none => rfl
        | some lot => exact balance_matched (hfirst lot hlot) (hspares.1 lot hlot)
      simp only [State.matched, State.paid, State.received, List.foldl_cons, List.map_cons,
        List.sum_cons] at htail ⊢
      omega

/-! ## The end of a block -/

omit [DecidableEq A] [DecidableEq X] in
/-- What was bid in reachable states is representable. -/
theorem Booked.bids_fit (h : Booked s) :
    ∀ id ∈ ids, ∀ lot ∈ s.lot id, ∀ t ∈ lot.takes, t.bid ≤ u128Max :=
  fun _ _ _ hlot => h.bids (lot_eq_some.mp hlot).1

/-- **A block matches every order best first.** It ends if its transfers succeed. The takes of each
    order are then filled by descending limit, ties as they arrived, each with what it wants or what
    is left; together they get the order's amount or all they want. The fills are carried out in
    that order, each for what it costs at the taker's own limit, rounded down while the product fits
    and to the nearest beyond. If that costs nobody anything else, nothing that was bid or sold is
    reserved any more: what an account had reserved is free, less what it pays for what it gets,
    which for takes that get nothing is nothing. -/
theorem block_matched_best_first (cfg : Config A X) :
    (∀ ledger ops s, run (step cfg) (State.genesis ledger) ops = some s →
      s.Exchanges cfg (cfg.iteration s.takes.keys) s.ledger →
        ∃ sales s', onFinalize cfg s = (.ok sales, s')) ∧
    ∀ s sales s', onFinalize cfg s = (.ok sales, s') →
      (∀ id lot, s.lot id = some lot →
        BestFirst (fun t => t.take.limit) (fun t => t.take.amount) lot.takes
          lot.order.order.take.amount lot.fills ∧
          (id, min lot.order.order.take.amount (demand lot.takes)) ∈ sales ∧
          (∀ earlier f later, lot.fills = earlier ++ f :: later →
            lot.order.order.take.amount ≤ (earlier.map Prod.snd).sum → f.2 = 0 ∧
              f.1.take.quote f.2 = 0) ∧
          ∀ f ∈ lot.fills, f.1.take.quote f.2 = if f.2 * f.1.take.limit ≤ u128Max then
            f.2 * f.1.take.limit / Fixed.div else Rounding.nearest (f.2 * f.1.take.limit) Fixed.div) ∧
      s'.ledger = s.matched cfg (cfg.iteration s.takes.keys) s.ledger ∧
      (s.Spares cfg (cfg.iteration s.takes.keys) s.ledger →
        (∀ x a, s'.ledger.reserved x a =
          s.ledger.reserved x a - ((cfg.iteration s.takes.keys).map (s.released x a)).sum) ∧
        ∀ x a, s'.ledger.free x a + s.paid (cfg.iteration s.takes.keys) x a =
          s.ledger.free x a + (s.ledger.reserved x a - s'.ledger.reserved x a) +
            s.received (cfg.iteration s.takes.keys) x a) := by
  constructor
  · intro ledger ops s hrun hex
    have hbooked : Booked s :=
      run_invariant (fun h _ hstep => h.step hstep) (Booked.genesis ledger) (along_true _ _) hrun
    exact ⟨_, _, onFinalize_iff.mpr ⟨hbooked.bids_fit, hex, rfl, rfl⟩⟩
  · intro s sales s' hok
    obtain ⟨-, hex, hsales, rfl⟩ := onFinalize_iff.mp hok
    refine ⟨fun id lot hlot => ?_, rfl, fun hspares => ?_⟩
    -- The fills of an order are the allotment of its sorted takes.
    · have hbest : BestFirst (fun t => t.take.limit) (fun t => t.take.amount) lot.takes
        lot.order.order.take.amount
          lot.fills := bestFirst_allot _ _
      refine ⟨hbest, ?_, fun earlier f later hsplit hgone => ?_, fun f _ => ?_⟩
      · rw [hsales]
        refine List.mem_map.mpr ⟨id, ?_, by rw [State.sold, hlot]; rfl⟩
        have htakes : s.takes.lookup id = some lot.takes := (lot_eq_some.mp hlot).1
        exact (cfg.iteration_perm _).mem_iff.mpr (AList.lookup_isSome.mp (by rw [htakes]; rfl))
      · have hnothing : f.2 = 0 := by
          rw [hbest.given hsplit, Nat.sub_eq_zero_of_le hgone, Nat.min_zero]
        exact ⟨hnothing, by rw [hnothing, quote_zero]⟩
      · rfl
    · have hreserved : ∀ x a, (s.blockFinalized cfg).ledger.reserved x a =
          s.ledger.reserved x a - ((cfg.iteration s.takes.keys).map (s.released x a)).sum :=
            fun x a =>
        (reserved_lots cfg s s.ledger _ x a).resolve_right fun h => h.1 hspares
      refine ⟨hreserved, fun x a => ?_⟩
      -- What the payments move is known of total balances; less what stays reserved, of free ones.
      have hbalance :
          (s.blockFinalized cfg).ledger.balance x a + s.paid (cfg.iteration s.takes.keys) x a =
          s.ledger.balance x a + s.received (cfg.iteration s.takes.keys) x a :=
            balance_matched_lots hex hspares
      rw [Ledger.balance, Ledger.balance] at hbalance
      have hle := hreserved x a
      omega

/-- Account `2` outbids itself: five at the limit, then eight at twice the limit. -/
def outbidOps : List (Op Nat Nat) :=
  [.ask 0 (.signed 1) sampleSell sampleCurve, .take 0 (.signed 2) 1 ⟨5, Fixed.div⟩,
    .take 0 (.signed 2) 1 ⟨8, 2 * Fixed.div⟩]

/-- The eight are filled and two of the five: eighteen of the twenty-one that
    were reserved are paid. -/
theorem block_matched_best_first_sample : ∃ s sales s',
    run (step (sample 0)) (State.genesis sampleLedger) outbidOps = some s ∧
      onFinalize (sample 0) s = (.ok sales, s') ∧ (1, 10) ∈ sales ∧
      (s.lot 1).map Lot.fills = some [(⟨2, ⟨8, 2 * Fixed.div⟩⟩, 8), (⟨2, ⟨5, Fixed.div⟩⟩, 2)] ∧
      s.ledger.reserved 2 2 = 21 ∧ s'.ledger.reserved 2 2 = 0 ∧
      s'.ledger.free 2 2 + 18 = s.ledger.free 2 2 + 21 := by
  have hview : (run (step (sample 0)) (State.genesis sampleLedger) outbidOps).map (fun s => decide (
      s.Exchanges (sample 0) ((sample 0).iteration s.takes.keys) s.ledger ∧
      s.Spares (sample 0) ((sample 0).iteration s.takes.keys) s.ledger ∧ s.ledger.reserved 2 2 = 21 ∧
      (((sample 0).iteration s.takes.keys).map (s.released 2 2)).sum = 21 ∧
      s.paid ((sample 0).iteration s.takes.keys) 2 2 = 18 ∧
      s.received ((sample 0).iteration s.takes.keys) 2 2 = 0 ∧
      (s.lot 1).map (fun lot => (lot.order.order.take.amount, demand lot.takes, lot.fills)) =
        some (10, 13, [(⟨2, ⟨8, 2 * Fixed.div⟩⟩, 8), (⟨2, ⟨5, Fixed.div⟩⟩, 2)]))) = some true := by
    decide +kernel
  obtain ⟨s, hrun, hs⟩ := Option.map_eq_some_iff.mp hview
  obtain ⟨hex, hspares, hheld, hreleased, hpaid, hreceived, hlot⟩ := of_decide_eq_true hs
  obtain ⟨hreturns, hmatched⟩ := block_matched_best_first (sample 0)
  obtain ⟨sales, s', hok⟩ := hreturns sampleLedger outbidOps s hrun hex
  obtain ⟨hlots, -, hbalances⟩ := hmatched s sales s' hok
  obtain ⟨hreserved, hfree⟩ := hbalances hspares
  obtain ⟨lot, hsome, hview⟩ := Option.map_eq_some_iff.mp hlot
  simp only [Prod.mk.injEq] at hview
  obtain ⟨hamount, hdemand, hfills⟩ := hview
  have hsold := (hlots 1 lot hsome).2.1
  rw [hamount, hdemand] at hsold
  have hleft : s'.ledger.reserved 2 2 = 0 := by
    rw [hreserved, hheld, hreleased]
  have htaker := hfree 2 2
  rw [hpaid, hreceived, hheld, hleft] at htaker
  exact ⟨s, sales, s', hrun, hok, hsold, by rw [hsome, Option.map_some, hfills], hheld, hleft, htaker⟩

/-- Account `2` takes all of `10 ^ 21 + 1` at a price of `1.6`. -/
def largeOps : List (Op Nat Nat) :=
  [.ask 0 (.signed 1) ⟨⟨1, 2⟩, ⟨10 ^ 21 + 1, 16 * 10 ^ 17⟩⟩ sampleCurve,
    .take 0 (.signed 2) 1 ⟨10 ^ 21 + 1, 16 * 10 ^ 17⟩]

/-- The product has more than 128 bits, and the taker pays the unit that is left of it in full. -/
theorem taker_pays_rounded_up : ∃ s sales s',
    run (step (sample 0))
      (State.genesis (Ledger.ofList [(0, 1, 10), (1, 1, 10 ^ 22), (2, 2, 10 ^ 22)])) largeOps =
        some s ∧ onFinalize (sample 0) s = (.ok sales, s') ∧
      (s.lot 1).map Lot.fills = some [(⟨2, ⟨10 ^ 21 + 1, 16 * 10 ^ 17⟩⟩, 10 ^ 21 + 1)] ∧
      s'.ledger.balance 2 2 + 1600000000000000000002 = s.ledger.balance 2 2 ∧
      (10 ^ 21 + 1) * (16 * 10 ^ 17) / Fixed.div = 1600000000000000000001 := by
  obtain ⟨⟨s, sales, s'⟩, hrun, hview⟩ := Option.map_eq_some_iff.mp
    (show ((run (step (sample 0))
        (State.genesis (Ledger.ofList [(0, 1, 10), (1, 1, 10 ^ 22), (2, 2, 10 ^ 22)]))
        largeOps).bind fun s => (onFinalize (sample 0) s).1.toOption.map fun sales =>
          (s, sales, (onFinalize (sample 0) s).2)).map (fun t => decide
        ((t.1.lot 1).map Lot.fills = some [(⟨2, ⟨10 ^ 21 + 1, 16 * 10 ^ 17⟩⟩, 10 ^ 21 + 1)] ∧
          t.2.2.ledger.balance 2 2 + 1600000000000000000002 = t.1.ledger.balance 2 2)) =
            some true by decide +kernel)
  obtain ⟨t, hreached, hsales⟩ := Option.bind_eq_some_iff.mp hrun
  obtain ⟨_, hok, heq⟩ := Option.map_eq_some_iff.mp hsales
  cases heq
  obtain ⟨hfills, hpaid⟩ := of_decide_eq_true hview
  refine ⟨s, sales, _, hreached, ?_, hfills, hpaid, by decide⟩
  rcases hend : onFinalize (sample 0) s with ⟨e | _, s'⟩
  · rw [hend] at hok
    cases hok
  · rw [hend] at hok
    cases hok
    rfl

end DutchAuction
end Composable
