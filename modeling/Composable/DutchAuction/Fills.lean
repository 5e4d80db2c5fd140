import Composable.DutchAuction.Model
import Composable.Support.Allotment

/-!
# `DutchAuction.Fills` — what the end of a block does

A `Lot` is a stored order with the takes that wait for it. The takes of a lot are claims on its
amount, served best first: by descending limit, ties in the order they arrived (`Lot.fills`).
Serving a take of `n` pays `n` of the base asset to the taker and what that costs at the
taker's own limit to the seller, and releases the rest of the bid (`filled`); a take that comes
to nothing has its bid released.

`onFinalize_iff` says that the end of a block carries out the fills of every lot in order, in the
state it starts from, and that it returns exactly if their transfers succeed. `onFinalize_ok` reads
off how much of each lot is sold and whose reservations are given up for it. The payments of a block
need not keep their senders alive, so reservations can go with an account that dies of one; a block
that `Spares` everybody has no such payment.
-/

namespace Composable
namespace DutchAuction

variable {A X : Type} [DecidableEq A] [DecidableEq X]

/-! ## Lots -/

/-- What the taker of `t` reserves for it. -/
def TakeOrder.bid (t : TakeOrder A) : Nat := t.take.quote t.take.amount

/-- What the takes want of the base asset. -/
def demand (takes : List (TakeOrder A)) : Nat := (takes.map fun t => t.take.amount).sum

/-- What account `a` has reserved for its own among the takes. -/
def bids (takes : List (TakeOrder A)) (a : A) : Nat :=
  (takes.map fun t => if t.fromTo = a then t.bid else 0).sum

/-- A stored order and the takes waiting for it. -/
structure Lot (A X : Type) where
  order : SellOrder A X
  takes : List (TakeOrder A)

namespace Lot

variable (lot : Lot A X)

/-- What is sold of the lot at the end of the block. -/
def sold : Nat := min lot.order.order.take.amount (demand lot.takes)

/-- Everything that was offered is taken. -/
def Cleared : Prop := lot.order.order.take.amount ≤ demand lot.takes

instance : Decidable lot.Cleared := inferInstanceAs (Decidable (_ ≤ _))

/-- What account `a` has reserved in asset `x` for takes of the lot. -/
def owed (x : X) (a : A) : Nat := if lot.order.order.pair.quote = x then bids lot.takes a else 0

/-- What account `a` gives up in asset `x` as the seller of the lot. -/
def given (x : X) (a : A) : Nat :=
  if lot.order.order.pair.base = x ∧ lot.order.fromTo = a then lot.sold else 0

end Lot

/-- The lot of an order id, if the order is stored and has takes. -/
def State.lot (s : State A X) (id : Nat) : Option (Lot A X) :=
  match s.takes.lookup id, s.sellOrders.lookup id with
  | some takes, some order => some ⟨order, takes⟩
  | _, _ => none

/-- What is sold of order `id` at the end of the block. -/
def State.sold (s : State A X) (id : Nat) : Nat := (s.lot id).elim 0 Lot.sold

/-- Order `id` is removed at the end of the block. -/
def State.clears (s : State A X) (id : Nat) : Bool := (s.lot id).any fun lot => lot.Cleared

/-- What is released of account `a` in asset `x` for order `id` at the end of the block. -/
def State.released (s : State A X) (x : X) (a : A) (id : Nat) : Nat :=
  (s.lot id).elim 0 fun lot => lot.owed x a + lot.given x a

omit [DecidableEq A] in
theorem demand_perm {takes takes' : List (TakeOrder A)} (h : takes.Perm takes') :
    demand takes = demand takes' := (h.map _).sum_eq

theorem bids_perm {takes takes' : List (TakeOrder A)} (h : takes.Perm takes') (a : A) :
    bids takes a = bids takes' a := (h.map _).sum_eq

omit [DecidableEq A] in
theorem sortTakes_perm (takes : List (TakeOrder A)) : (sortTakes takes).Perm takes :=
  List.perm_insertionSort _ _

omit [DecidableEq A] in
/-- A part of a take never costs more than all of it. -/
theorem quote_le_bid (t : TakeOrder A) {n : Nat} (h : n ≤ t.take.amount) : t.take.quote n ≤ t.bid :=
  Fixed.quotient_mono (Nat.mul_le_mul_right _ h)

theorem quoteAmount_ok {t : Take} {n q : Nat} :
    t.quoteAmount n = .ok q ↔ t.quote n ≤ u128Max ∧ q = t.quote n :=
  Fixed.multiplyByRational_ok (by decide)

/-- What each of the takes gets of what is left of an order. -/
abbrev fills (takes : List (TakeOrder A)) (left : Nat) : List (TakeOrder A × Nat) :=
  allot (fun t => t.take.amount) takes left

/-- The fills of a lot, the best take first. -/
def Lot.fills (lot : Lot A X) : List (TakeOrder A × Nat) :=
  DutchAuction.fills (sortTakes lot.takes) lot.order.order.take.amount

/-! ## One exchange -/

variable {cfg : Config A X} {s s' t : State A X} {l l' : Ledger A X} {pair : CurrencyPair X}
  {seller : A}
variable {takes : List (TakeOrder A)} {left left' id n : Nat} {ids : List Nat}
  {sales : List (Nat × Nat)} {x : X} {a c : A}

omit [DecidableEq A] [DecidableEq X] in
theorem onLedger_ok {f : TokenError → DispatchError Error} {α : Type}
    {x : Call (Ledger A X) TokenError α}
    {a : α} :
    onLedger f x s = (.ok a, s') ↔ ∃ l, x s.ledger = (.ok a, l) ∧ s' = { s with ledger := l } :=
  Call.zoom_ok

omit [DecidableEq A] [DecidableEq X] in
theorem expect_ok {r : Except ArithmeticError Nat} {n : Nat} :
    (expect r : AuctionCall A X Nat) s = (.ok n, s') ↔ r = .ok n ∧ s' = s := by
  rw [expect, Call.ofExcept_ok, exceptMapError_ok]

/-- The ledger after the first transfer of an exchange, of which everything that is to be
    exchanged was released. -/
def deliver (cfg : Config A X) (base : X) (seller : A) (takeAmount : Nat) (quote : X) (taker : A)
    (quoteAmount : Nat) (l : Ledger A X) : Ledger A X :=
  cfg.currency.paid base seller taker takeAmount false
    ((l.unlock base seller takeAmount).unlock quote taker quoteAmount)

/-- The ledger after an exchange. -/
def exchanged (cfg : Config A X) (base : X) (seller : A) (takeAmount : Nat) (quote : X) (taker : A)
    (quoteAmount : Nat) (l : Ledger A X) : Ledger A X :=
  cfg.currency.paid quote taker seller quoteAmount false
    (deliver cfg base seller takeAmount quote taker quoteAmount l)

/-- Both transfers of an exchange are accepted. -/
def Exchangeable (cfg : Config A X) (base : X) (seller : A) (takeAmount : Nat) (quote : X) (taker : A)
    (quoteAmount : Nat) (l : Ledger A X) : Prop :=
  cfg.currency.transferRefused ((l.unlock base seller takeAmount).unlock quote taker quoteAmount)
    base seller taker
      takeAmount false = none ∧
    cfg.currency.transferRefused (deliver cfg base seller takeAmount quote taker quoteAmount l)
      quote taker seller
      quoteAmount false = none

/-- Both transfers of an exchange cost their sender their amount and nothing else. -/
def ExchangeSpares (cfg : Config A X) (base : X) (seller : A) (takeAmount : Nat) (quote : X)
    (taker : A) (quoteAmount : Nat) (l : Ledger A X) : Prop :=
  cfg.currency.Spares ((l.unlock base seller takeAmount).unlock quote taker quoteAmount) base seller
    taker takeAmount ∧
    cfg.currency.Spares (deliver cfg base seller takeAmount quote taker quoteAmount l) quote taker
      seller quoteAmount

theorem exchangeReserved_ok {base quote : X} {seller taker : A} {m n : Nat} {u : Unit} :
    exchangeReserved cfg base seller m quote taker n s = (.ok u, s') ↔
      Exchangeable cfg base seller m quote taker n s.ledger ∧
        s' = { s with ledger := exchanged cfg base seller m quote taker n s.ledger } := by
  simp only [exchangeReserved, Call.bind_ok, onLedger_ok, Currency.unreserve_ok,
    Currency.transfer_paid]
  constructor
  · rintro ⟨_, _, ⟨_, rfl, rfl⟩, _, _, ⟨_, rfl, rfl⟩, _, _, ⟨_, ⟨h, rfl⟩, rfl⟩, _, ⟨h', rfl⟩, rfl⟩
    exact ⟨⟨h, h'⟩, rfl⟩
  · rintro ⟨⟨h, h'⟩, rfl⟩
    exact ⟨(), _, ⟨_, rfl, rfl⟩, (), _, ⟨_, rfl, rfl⟩, (), _, ⟨_, ⟨h, rfl⟩, rfl⟩, _, ⟨h', rfl⟩, rfl⟩

/-- The ledger after one take was filled with `n` of the base asset. -/
def filled (cfg : Config A X) (pair : CurrencyPair X) (seller : A) (t : TakeOrder A) (n : Nat)
    (l : Ledger A X) : Ledger A X :=
  (exchanged cfg pair.base seller n pair.quote t.fromTo (t.take.quote n) l).unlock pair.quote t.fromTo
    (t.bid - t.take.quote n)

/-- Nothing is paid for nothing. -/
theorem quote_zero (t : Take) : t.quote 0 = 0 := Fixed.zero_quotient

/-- A take that gets nothing has its bid released. -/
theorem filled_zero (t : TakeOrder A) :
    filled cfg pair seller t 0 l = l.unlock pair.quote t.fromTo t.bid := by
  simp only [filled, exchanged, deliver, quote_zero, Ledger.unlock_zero, Currency.paid_zero,
    Nat.sub_zero]

/-- An exchange takes what is exchanged off the reservations; an account that
    dies of it has none left. -/
theorem reserved_exchanged (cfg : Config A X) (base quote : X) (seller taker : A) (m n : Nat)
    (l : Ledger A X) (x : X) (a : A) :
    (exchanged cfg base seller m quote taker n l).reserved x a =
        ((l.unlock base seller m).unlock quote taker n).reserved x a ∨
      (¬ ExchangeSpares cfg base seller m quote taker n l ∧
        (exchanged cfg base seller m quote taker n l).reserved x a = 0) := by
  unfold ExchangeSpares
  rcases cfg.currency.reserved_paid (l := deliver cfg base seller m quote taker n l) x a with
    hback | ⟨hnot, hback⟩
  · rcases cfg.currency.reserved_paid (l := (l.unlock base seller m).unlock quote taker n) x a with
      hpaid | ⟨hnot, hpaid⟩
    · exact .inl (hback.trans hpaid)
    · exact .inr ⟨fun hspares => hnot hspares.1, hback.trans hpaid⟩
  · exact .inr ⟨fun hspares => hnot hspares.2, hback⟩

/-- The reservations after a fill: the whole bid of the taker and the amount sold
    of the seller are gone. -/
theorem reserved_filled (cfg : Config A X) (pair : CurrencyPair X) (seller : A)
    {t : TakeOrder A} {n : Nat} (hn : t.take.quote n ≤ t.bid) (l : Ledger A X) (x : X) (a : A) :
    (filled cfg pair seller t n l).reserved x a = l.reserved x a -
        ((if pair.quote = x ∧ t.fromTo = a then t.bid else 0) + if pair.base = x ∧
          seller = a then n else 0) ∨
      (¬ ExchangeSpares cfg pair.base seller n pair.quote t.fromTo (t.take.quote n) l ∧
        (filled cfg pair seller t n l).reserved x a = 0) := by
  rw [filled, Ledger.reserved_unlock]
  rcases reserved_exchanged cfg pair.base pair.quote seller t.fromTo n (t.take.quote n) l x a with
    hkept | ⟨hnot, hnone⟩
  · rw [hkept]
    refine .inl ?_
    simp only [Ledger.reserved_unlock, eq_comm (a := x), eq_comm (a := a)]
    split_ifs <;> omega
  · exact .inr ⟨hnot, by rw [hnone, Nat.zero_sub]⟩

/-- Filling a take leaves the balances of everybody else alone. -/
theorem balance_filled_of_ne {t : TakeOrder A} (hseller : c ≠ seller) (htaker : c ≠ t.fromTo) :
    (filled cfg pair seller t n l).balance x c = l.balance x c := by
  rw [filled, Ledger.balance_unlock, exchanged, Currency.balance_paid_of_ne htaker hseller, deliver,
    Currency.balance_paid_of_ne hseller htaker, Ledger.balance_unlock, Ledger.balance_unlock]

/-! ## The takes of one order -/

/-- One turn of the loop: nothing is left of the order and the bid is released, or the take is
    filled with what it wants or what is left. -/
theorem fillTakes_cons {pair : CurrencyPair X} {seller : A} {t : TakeOrder A}
    {takes : List (TakeOrder A)} {left left' : Nat} :
    fillTakes cfg pair seller (t :: takes) left s = (.ok left', s') ↔ t.bid ≤ u128Max ∧
      ((left = 0 ∧ fillTakes cfg pair seller takes 0
          { s with ledger := s.ledger.unlock pair.quote t.fromTo t.bid } = (.ok left', s')) ∨
        (0 < left ∧
          Exchangeable cfg pair.base seller (min t.take.amount left) pair.quote t.fromTo
            (t.take.quote (min t.take.amount left)) s.ledger ∧
          fillTakes cfg pair seller takes (left - min t.take.amount left)
            { s with ledger := filled cfg pair seller t (min t.take.amount left) s.ledger } =
              (.ok left', s'))) := by
  have hreal : t.take.quote (min t.take.amount left) ≤ t.bid := quote_le_bid t (Nat.min_le_left _ _)
  by_cases hleft : left = 0
  · subst hleft
    simp only [fillTakes, Call.bind_ok, expect_ok, Take.quoteLimitAmount, quoteAmount_ok, if_true,
      onLedger_ok, Currency.unreserve_ok, true_and, Nat.lt_irrefl, false_and, or_false]
    constructor
    · rintro ⟨_, _, ⟨⟨hbid, rfl⟩, rfl⟩, _, _, ⟨_, rfl, rfl⟩, h⟩
      exact ⟨hbid, h⟩
    · rintro ⟨hbid, h⟩
      exact ⟨_, _, ⟨⟨hbid, rfl⟩, rfl⟩, (), _, ⟨_, rfl, rfl⟩, h⟩
  · have hpos : 0 < left := Nat.pos_of_ne_zero hleft
    simp only [fillTakes, Call.bind_ok, expect_ok, Take.quoteLimitAmount, quoteAmount_ok,
      hleft, if_false, exchangeReserved_ok, Call.when_ok, onLedger_ok, Currency.unreserve_ok,
      false_and, false_or, hpos, true_and]
    -- The rest of the bid is released only if there is one; releasing nothing changes nothing.
    constructor
    · rintro ⟨_, _, ⟨⟨hbid, rfl⟩, rfl⟩, _, _, ⟨⟨-, rfl⟩, rfl⟩, _, _, ⟨hex, rfl⟩, _, _, hrest, h⟩
      refine ⟨hbid, hex, ?_⟩
      rcases hrest with ⟨-, _, rfl, rfl⟩ | ⟨hno, rfl⟩
      · exact h
      · have hzero : t.bid - t.take.quote (min t.take.amount left) = 0 :=
          Nat.sub_eq_zero_of_le (Nat.le_of_not_lt hno)
        rw [filled, hzero, Ledger.unlock_zero]
        exact h
    · rintro ⟨hbid, hex, h⟩
      refine ⟨_, _, ⟨⟨hbid, rfl⟩, rfl⟩, _, _, ⟨⟨hreal.trans hbid, rfl⟩, rfl⟩, (), _, ⟨hex, rfl⟩,
        (), _, ?_, h⟩
      by_cases hlt : t.take.quote (min t.take.amount left) < t.bid
      · exact .inl ⟨hlt, _, rfl, rfl⟩
      · have hzero : t.bid - t.take.quote (min t.take.amount left) = 0 :=
          Nat.sub_eq_zero_of_le (Nat.le_of_not_lt hlt)
        refine .inr ⟨hlt, ?_⟩
        rw [filled, hzero, Ledger.unlock_zero]

/-- The ledger after fills, in order. -/
def matched (cfg : Config A X) (pair : CurrencyPair X) (seller : A) (fs : List (TakeOrder A × Nat))
    (l : Ledger A X) : Ledger A X :=
  fs.foldl (fun l f => filled cfg pair seller f.1 f.2 l) l

/-- The transfers of the takes succeed, as long as something is left to exchange. -/
def Exchanges (cfg : Config A X) (pair : CurrencyPair X) (seller : A) :
    List (TakeOrder A) → Nat → Ledger A X → Prop
  | [], _, _ => True
  | t :: takes, left, l =>
      (0 < left → Exchangeable cfg pair.base seller (min t.take.amount left) pair.quote t.fromTo
        (t.take.quote (min t.take.amount left)) l) ∧
      Exchanges cfg pair seller takes (left - min t.take.amount left)
        (filled cfg pair seller t (min t.take.amount left) l)

instance {base quote : X} {seller taker : A} {m n : Nat} {l : Ledger A X} :
    Decidable (Exchangeable cfg base seller m quote taker n l) :=
  inferInstanceAs (Decidable (_ = none ∧ _ = none))

instance Exchanges.decidable (cfg : Config A X) (pair : CurrencyPair X) (seller : A) :
    (takes : List (TakeOrder A)) → (left : Nat) → (l : Ledger A X) →
      Decidable (Exchanges cfg pair seller takes left l)
  | [], _, _ => .isTrue trivial
  | t :: takes, left, l =>
      have := Exchanges.decidable cfg pair seller takes (left - min t.take.amount left)
        (filled cfg pair seller t (min t.take.amount left) l)
      inferInstanceAs (Decidable ((_ → _) ∧ _))

/-- The exchanges of the takes spare everybody. -/
def Spares (cfg : Config A X) (pair : CurrencyPair X) (seller : A) :
    List (TakeOrder A) → Nat → Ledger A X → Prop
  | [], _, _ => True
  | t :: takes, left, l =>
      ExchangeSpares cfg pair.base seller (min t.take.amount left) pair.quote t.fromTo
        (t.take.quote (min t.take.amount left)) l ∧
      Spares cfg pair seller takes (left - min t.take.amount left)
        (filled cfg pair seller t (min t.take.amount left) l)

instance {base quote : X} {seller taker : A} {m n : Nat} {l : Ledger A X} :
    Decidable (ExchangeSpares cfg base seller m quote taker n l) :=
  inferInstanceAs (Decidable (_ ∧ _))

instance Spares.decidable (cfg : Config A X) (pair : CurrencyPair X) (seller : A) :
    (takes : List (TakeOrder A)) → (left : Nat) → (l : Ledger A X) →
      Decidable (Spares cfg pair seller takes left l)
  | [], _, _ => .isTrue trivial
  | t :: takes, left, l =>
      have := Spares.decidable cfg pair seller takes (left - min t.take.amount left)
        (filled cfg pair seller t (min t.take.amount left) l)
      inferInstanceAs (Decidable (_ ∧ _))

/-- **The takes of one order** are filled exactly if their transfers succeed; the order loses what
    they want, as far as it lasts. -/
theorem fillTakes_iff : fillTakes cfg pair seller takes left s = (.ok left', s') ↔
    (∀ t ∈ takes, t.bid ≤ u128Max) ∧ Exchanges cfg pair seller takes left s.ledger ∧
      left' = left - demand takes ∧
      s' = { s with ledger := matched cfg pair seller (fills takes left) s.ledger } := by
  induction takes generalizing left s with
  | nil =>
      rw [fillTakes, Call.pure_ok]
      simp only [List.not_mem_nil, false_implies, implies_true, true_and, Exchanges, demand,
        List.map_nil, List.sum_nil, Nat.sub_zero, allot, matched, List.foldl_nil]
  | cons t takes ih =>
      have hdemand : demand (t :: takes) = t.take.amount + demand takes := rfl
      have hleft : left - demand (t :: takes) = left - min t.take.amount left - demand takes := by
        omega
      simp only [fillTakes_cons, ih, List.forall_mem_cons, Exchanges, hleft, allot, matched,
        List.foldl_cons]
      rcases Nat.eq_zero_or_pos left with rfl | hpos
      · simp only [true_and, Nat.lt_irrefl, false_and, or_false, false_implies, Nat.min_zero,
          Nat.sub_zero, filled_zero, and_assoc]
      · simp only [hpos, hpos.ne', false_and, false_or, true_and, true_implies]
        tauto

theorem bids_cons {t : TakeOrder A} {takes : List (TakeOrder A)} {a : A} :
    bids (t :: takes) a = (if t.fromTo = a then t.bid else 0) + bids takes a := rfl

variable (cfg l pair seller takes left x a) in
/-- Every bid and what was sold are no longer reserved, and nothing is of an account that died. -/
theorem reserved_matched :
    (matched cfg pair seller (fills takes left) l).reserved x a = l.reserved x a -
      ((if pair.quote = x then bids takes a else 0) +
        if pair.base = x ∧ seller = a then min left (demand takes) else 0) ∨
    (¬ Spares cfg pair seller takes left l ∧
      (matched cfg pair seller (fills takes left) l).reserved x a = 0) := by
  induction takes generalizing left l with
  | nil => simp [fills, allot, matched, bids, demand]
  | cons t takes ih =>
      have hdemand : demand (t :: takes) = t.take.amount + demand takes := rfl
      rw [bids_cons, hdemand]
      unfold Spares
      simp only [fills, allot, matched, List.foldl_cons]
      rcases ih (filled cfg pair seller t (min t.take.amount left) l)
        (left - min t.take.amount left) with htail | ⟨hnot, hnone⟩
      · rcases reserved_filled cfg pair seller (quote_le_bid t (Nat.min_le_left t.take.amount left))
          l x a with hhead | ⟨hnot, hnone⟩
        · refine .inl (htail.trans ?_)
          rw [hhead]
          simp only [ite_and]
          split_ifs <;> omega
        · exact .inr ⟨fun h => hnot h.1, htail.trans (by rw [hnone, Nat.zero_sub])⟩
      · exact .inr ⟨fun h => hnot h.2, hnone⟩

/-- Nobody is concerned but the seller and the takers. -/
theorem balance_matched_of_ne (hseller : c ≠ seller) (htakers : ∀ t ∈ takes, c ≠ t.fromTo) :
    (matched cfg pair seller (fills takes left) l).balance x c = l.balance x c := by
  induction takes generalizing left l with
  | nil => rfl
  | cons t takes ih =>
      simp only [fills, allot, matched, List.foldl_cons] at ih ⊢
      rw [ih fun t' ht' => htakers t' (List.mem_cons_of_mem t ht'),
        balance_filled_of_ne hseller (htakers t List.mem_cons_self)]

/-! ## The lots of a block -/

/-- The ledger after the fills of a lot. -/
def Lot.matched (cfg : Config A X) (lot : Lot A X) (l : Ledger A X) : Ledger A X :=
  DutchAuction.matched cfg lot.order.order.pair lot.order.fromTo lot.fills l

/-- The transfers of a lot succeed. -/
def Lot.Exchanges (cfg : Config A X) (lot : Lot A X) (l : Ledger A X) : Prop :=
  DutchAuction.Exchanges cfg lot.order.order.pair lot.order.fromTo (sortTakes lot.takes)
    lot.order.order.take.amount l

/-- The transfers of a lot spare everybody. -/
def Lot.Spares (cfg : Config A X) (lot : Lot A X) (l : Ledger A X) : Prop :=
  DutchAuction.Spares cfg lot.order.order.pair lot.order.fromTo (sortTakes lot.takes)
    lot.order.order.take.amount l

/-- The ledger after the lots of the orders `ids`. -/
def State.matched (cfg : Config A X) (s : State A X) (ids : List Nat) (l : Ledger A X) : Ledger A X :=
  ids.foldl (fun l id => (s.lot id).elim l fun lot => lot.matched cfg l) l

/-- The transfers of the lots of the orders `ids` succeed. -/
def State.Exchanges (cfg : Config A X) (s : State A X) : List Nat → Ledger A X → Prop
  | [], _ => True
  | id :: ids, l => (∀ lot ∈ s.lot id, lot.Exchanges cfg l) ∧
      State.Exchanges cfg s ids ((s.lot id).elim l fun lot => lot.matched cfg l)

/-- The transfers of the lots of the orders `ids` spare everybody. -/
def State.Spares (cfg : Config A X) (s : State A X) : List Nat → Ledger A X → Prop
  | [], _ => True
  | id :: ids, l => (∀ lot ∈ s.lot id, lot.Spares cfg l) ∧
      State.Spares cfg s ids ((s.lot id).elim l fun lot => lot.matched cfg l)

instance (lot : Lot A X) (l : Ledger A X) : Decidable (lot.Exchanges cfg l) :=
  inferInstanceAs (Decidable (DutchAuction.Exchanges ..))

instance (lot : Lot A X) (l : Ledger A X) : Decidable (lot.Spares cfg l) :=
  inferInstanceAs (Decidable (DutchAuction.Spares ..))

instance State.Exchanges.decidable (cfg : Config A X) (s : State A X) :
    (ids : List Nat) → (l : Ledger A X) → Decidable (s.Exchanges cfg ids l)
  | [], _ => .isTrue trivial
  | id :: ids, l =>
      have := State.Exchanges.decidable cfg s ids ((s.lot id).elim l fun lot => lot.matched cfg l)
      inferInstanceAs (Decidable ((∀ lot ∈ s.lot id, _) ∧ _))

instance State.Spares.decidable (cfg : Config A X) (s : State A X) :
    (ids : List Nat) → (l : Ledger A X) → Decidable (s.Spares cfg ids l)
  | [], _ => .isTrue trivial
  | id :: ids, l =>
      have := State.Spares.decidable cfg s ids ((s.lot id).elim l fun lot => lot.matched cfg l)
      inferInstanceAs (Decidable ((∀ lot ∈ s.lot id, _) ∧ _))

theorem matched_congr (h : ∀ id ∈ ids, t.lot id = s.lot id) :
    t.matched cfg ids l = s.matched cfg ids l := by
  unfold State.matched
  refine List.foldl_ext _ _ _ fun l' id hid => ?_
  rw [h id hid]

theorem exchanges_congr (h : ∀ id ∈ ids, t.lot id = s.lot id) :
    t.Exchanges cfg ids l ↔ s.Exchanges cfg ids l := by
  induction ids generalizing l with
  | nil => exact Iff.rfl
  | cons id ids ih =>
      unfold State.Exchanges
      rw [h id List.mem_cons_self, ih fun i hi => h i (List.mem_cons_of_mem _ hi)]

theorem reserved_lot (lot : Lot A X) (l : Ledger A X) :
    (lot.matched cfg l).reserved x a = l.reserved x a - (lot.owed x a + lot.given x a) ∨
      (¬ lot.Spares cfg l ∧ (lot.matched cfg l).reserved x a = 0) := by
  have h := reserved_matched cfg l lot.order.order.pair lot.order.fromTo (sortTakes lot.takes)
    lot.order.order.take.amount x a
  rwa [demand_perm (sortTakes_perm lot.takes), bids_perm (sortTakes_perm lot.takes)] at h

variable (cfg s l ids x a) in
/-- **What a block leaves reserved**: what its lots owe and sell is not, and nothing is
    of an account that died. -/
theorem reserved_lots :
    (s.matched cfg ids l).reserved x a = l.reserved x a - (ids.map (s.released x a)).sum ∨
    (¬ s.Spares cfg ids l ∧ (s.matched cfg ids l).reserved x a = 0) := by
  induction ids generalizing l with
  | nil => exact .inl rfl
  | cons id ids ih =>
      unfold State.Spares
      simp only [State.matched, List.foldl_cons, List.map_cons, List.sum_cons] at ih ⊢
      have hhead : ((s.lot id).elim l fun lot => lot.matched cfg l).reserved x a =
          l.reserved x a - s.released x a id ∨
          (¬ (∀ lot ∈ s.lot id, lot.Spares cfg l) ∧
            ((s.lot id).elim l fun lot => lot.matched cfg l).reserved x a = 0) := by
        unfold State.released
        cases s.lot id with
        | none => exact .inl rfl
        | some lot =>
            refine (reserved_lot lot l).imp_right fun hdied => ⟨fun hspares => ?_, hdied.2⟩
            exact hdied.1 (hspares lot rfl)
      rcases ih (l := (s.lot id).elim l fun lot => lot.matched cfg l) with htail | ⟨hnot, hnone⟩
      · rcases hhead with hhead | ⟨hnot, hnone⟩
        · exact .inl (htail.trans (by rw [hhead, Nat.sub_sub]))
        · exact .inr ⟨fun h => hnot h.1, htail.trans (by rw [hnone, Nat.zero_sub])⟩
      · exact .inr ⟨fun h => hnot h.2, hnone⟩

/-! ## The end of a block -/

/-- Without a lot there is nothing to do. -/
theorem finalizeOrder_of_lot_none {id : Nat} (h : s.lot id = none) :
    finalizeOrder cfg id s = (.ok 0, s) := by
  unfold State.lot at h
  simp only [finalizeOrder, Call.get_bind]
  cases htakes : s.takes.lookup id with
  | none => rfl
  | some takes =>
      cases horder : s.sellOrders.lookup id with
      | none => rfl
      | some order => simp [htakes, horder] at h

omit [DecidableEq A] [DecidableEq X] in
theorem lot_eq_some {id : Nat} {lot : Lot A X} : s.lot id = some lot ↔
    s.takes.lookup id = some lot.takes ∧ s.sellOrders.lookup id = some lot.order := by
  unfold State.lot
  obtain ⟨order, takes⟩ := lot
  cases s.takes.lookup id <;> cases s.sellOrders.lookup id <;> simp [and_comm]

/-- The takes of a lot are filled, and the order is removed when nothing is left of it. -/
theorem finalizeOrder_of_lot {id n : Nat} {lot : Lot A X} (h : s.lot id = some lot) :
    finalizeOrder cfg id s = (.ok n, s') ↔ ∃ left t,
      fillTakes cfg lot.order.order.pair lot.order.fromTo (sortTakes lot.takes)
        lot.order.order.take.amount s = (.ok left, t) ∧
      n = lot.order.order.take.amount - left ∧
      s' = if left = 0 then { t with sellOrders := t.sellOrders.erase id } else t := by
  obtain ⟨htakes, horder⟩ := lot_eq_some.mp h
  simp only [finalizeOrder, Call.get_bind, htakes, horder, Call.bind_ok, Call.when_ok, Call.modify_ok,
    Call.pure_ok]
  constructor
  · rintro ⟨left, t, hfill, _, _, ⟨h0, rfl⟩ | ⟨h0, rfl⟩, rfl, rfl⟩
    · exact ⟨left, t, hfill, rfl, (if_pos h0).symm⟩
    · exact ⟨left, _, hfill, rfl, (if_neg h0).symm⟩
  · rintro ⟨left, t, hfill, rfl, rfl⟩
    refine ⟨left, t, hfill, (), _, ?_, rfl, rfl⟩
    by_cases h0 : left = 0
    · exact .inl ⟨h0, if_pos h0⟩
    · exact .inr ⟨h0, if_neg h0⟩

/-- The storage after order `id` was finalised. -/
def State.orderFinalized (cfg : Config A X) (s : State A X) (id : Nat) : State A X :=
  { s with
    ledger := (s.lot id).elim s.ledger fun lot => lot.matched cfg s.ledger
    sellOrders := if s.clears id then s.sellOrders.erase id else s.sellOrders }

/-- **One order** is finalised exactly if the transfers of its lot succeed. -/
theorem finalizeOrder_iff : finalizeOrder cfg id s = (.ok n, s') ↔
    (∀ lot ∈ s.lot id, (∀ t ∈ lot.takes, t.bid ≤ u128Max) ∧ lot.Exchanges cfg s.ledger) ∧
      n = s.sold id ∧ s' = s.orderFinalized cfg id := by
  unfold State.sold State.orderFinalized State.clears
  cases hlot : s.lot id with
  | none =>
      rw [finalizeOrder_of_lot_none hlot, Prod.mk.injEq, Except.ok.injEq]
      simp only [Option.mem_def, reduceCtorEq, false_implies, implies_true, true_and,
        Option.elim_none, Option.any_none, Bool.false_eq_true, if_false]
      exact and_congr eq_comm eq_comm
  | some lot =>
      have hperm := sortTakes_perm lot.takes
      have hcleared : lot.order.order.take.amount - demand lot.takes = 0 ↔ lot.Cleared :=
        Nat.sub_eq_zero_iff_le
      have hsold : lot.order.order.take.amount - (lot.order.order.take.amount - demand lot.takes) =
          lot.sold := by
        unfold Lot.sold
        omega
      simp only [finalizeOrder_of_lot hlot, fillTakes_iff, Option.mem_some_iff, forall_eq',
        Option.elim_some, Option.any_some, decide_eq_true_eq, hperm.mem_iff, demand_perm hperm]
      constructor
      · rintro ⟨left, t, ⟨hbids, hex, rfl, rfl⟩, rfl, rfl⟩
        refine ⟨⟨hbids, hex⟩, hsold, ?_⟩
        by_cases h0 : lot.Cleared
        · rw [if_pos (hcleared.mpr h0), if_pos h0]
          rfl
        · rw [if_neg (mt hcleared.mp h0), if_neg h0]
          rfl
      · rintro ⟨⟨hbids, hex⟩, rfl, rfl⟩
        refine ⟨_, _, ⟨hbids, hex, rfl, rfl⟩, hsold.symm, ?_⟩
        by_cases h0 : lot.Cleared
        · rw [if_pos (hcleared.mpr h0), if_pos h0]
          rfl
        · rw [if_neg (mt hcleared.mp h0), if_neg h0]
          rfl

omit [DecidableEq A] [DecidableEq X] in
/-- Removing order `id` does not touch the other orders. -/
theorem lookup_removed_of_ne {id' : Nat} (h : id' ≠ id) (clears : Bool)
    (orders : StorageMap Nat (SellOrder A X)) :
    (if clears then orders.erase id else orders).lookup id' = orders.lookup id' := by
  split
  · exact AList.lookup_erase_ne h
  · rfl

theorem lot_orderFinalized_of_ne {id' : Nat} (h : id' ≠ id) :
    (s.orderFinalized cfg id).lot id' = s.lot id' := by
  unfold State.lot State.orderFinalized
  simp only [lookup_removed_of_ne h]

/-- The orders that are left of `orders` when those of `ids` that clear are removed. -/
def State.remaining (s : State A X) (ids : List Nat) (orders : StorageMap Nat (SellOrder A X)) :
    StorageMap Nat (SellOrder A X) :=
  ids.foldl (fun orders id => if s.clears id then orders.erase id else orders) orders

section Remaining

variable {orders : StorageMap Nat (SellOrder A X)}

omit [DecidableEq A] [DecidableEq X] in
theorem lookup_remaining : (s.remaining ids orders).lookup id =
    if id ∈ ids ∧ s.clears id = true then none else orders.lookup id := by
  induction ids generalizing orders with
  | nil => simp [State.remaining]
  | cons i ids ih =>
      simp only [State.remaining, List.foldl_cons] at ih ⊢
      rw [ih]
      by_cases heq : id = i
      · subst heq
        by_cases hclears : s.clears id = true
        · simp [hclears]
        · simp [hclears]
      · simp only [lookup_removed_of_ne heq, List.mem_cons, heq, false_or]

omit [DecidableEq A] [DecidableEq X] in
variable (s orders) in
/-- What was counted of the orders that clear is gone. -/
theorem total_remaining (f : Nat → SellOrder A X → Nat) (hids : ids.Nodup) :
    StorageMap.total f (s.remaining ids orders) +
      (ids.map fun id => if s.clears id then StorageMap.share f orders id else 0).sum =
        StorageMap.total f orders := by
  induction ids generalizing orders with
  | nil => rfl
  | cons i ids ih =>
      obtain ⟨hi, hids⟩ := List.nodup_cons.mp hids
      have htail := ih (if s.clears i then orders.erase i else orders) hids
      have hshare : (ids.map fun id => if s.clears id then
            StorageMap.share f (if s.clears i then orders.erase i else orders) id else 0) =
          ids.map fun id => if s.clears id then StorageMap.share f orders id else 0 := by
        apply List.map_congr_left
        intro id hid
        have hne : id ≠ i := fun heq => hi (heq ▸ hid)
        rw [StorageMap.share, lookup_removed_of_ne hne, StorageMap.share]
      have hhead : StorageMap.total f (if s.clears i then orders.erase i else orders) +
          (if s.clears i then StorageMap.share f orders i else 0) = StorageMap.total f orders := by
        split
        · exact StorageMap.total_erase
        · rfl
      simp only [State.remaining, List.foldl_cons, List.map_cons, List.sum_cons] at htail ⊢
      rw [hshare] at htail
      omega

end Remaining

/-- **The loop over the orders** returns exactly if the transfers of all lots succeed, and sells
    each lot as it was at the start of the loop. -/
theorem finalizeOrders_iff (hids : ids.Nodup) : finalizeOrders cfg ids s = (.ok sales, s') ↔
    (∀ id ∈ ids, ∀ lot ∈ s.lot id, ∀ t ∈ lot.takes, t.bid ≤ u128Max) ∧ s.Exchanges cfg ids s.ledger ∧
      sales = ids.map (fun id => (id, s.sold id)) ∧
      s' = { s with
        ledger := s.matched cfg ids s.ledger, sellOrders := s.remaining ids s.sellOrders } := by
  induction ids generalizing s sales with
  | nil => simp [finalizeOrders, Call.pure_ok, State.Exchanges, State.matched, State.remaining]
  | cons id ids ih =>
      obtain ⟨hid, hids⟩ := List.nodup_cons.mp hids
      -- After the first order the others are as they were.
      have hlot : ∀ i ∈ ids, (s.orderFinalized cfg id).lot i = s.lot i := fun i hi =>
        lot_orderFinalized_of_ne fun heq : i = id => hid (heq ▸ hi)
      have hsold : ids.map (fun i => (i, (s.orderFinalized cfg id).sold i)) = ids.map fun i =>
          (i, s.sold i) := by
        apply List.map_congr_left
        intro i hi
        rw [State.sold, hlot i hi, State.sold]
      have hremaining :
          ∀ orders, (s.orderFinalized cfg id).remaining ids orders = s.remaining ids orders := by
        intro orders
        unfold State.remaining
        refine List.foldl_ext _ _ _ fun orders i hi => ?_
        rw [State.clears, hlot i hi, State.clears]
      have hbids :
          (∀ i ∈ ids, ∀ lot ∈ (s.orderFinalized cfg id).lot i, ∀ t ∈ lot.takes, t.bid ≤ u128Max) ↔
          ∀ i ∈ ids, ∀ lot ∈ s.lot i, ∀ t ∈ lot.takes, t.bid ≤ u128Max :=
        forall_congr' fun i => imp_congr_right fun hi => by rw [hlot i hi]
      have hstate : { s with
            ledger := s.matched cfg (id :: ids) s.ledger
            sellOrders := s.remaining (id :: ids) s.sellOrders } =
          { s.orderFinalized cfg id with
            ledger := (s.orderFinalized cfg id).matched cfg ids (s.orderFinalized cfg id).ledger
            sellOrders :=
              (s.orderFinalized cfg id).remaining ids (s.orderFinalized cfg id).sellOrders } := by
        rw [matched_congr hlot, hremaining]
        rfl
      simp only [finalizeOrders, Call.bind_ok, Call.pure_ok, finalizeOrder_iff,
        List.forall_mem_cons, State.Exchanges, List.map_cons]
      constructor
      · rintro ⟨_, _, ⟨hfirst, rfl, rfl⟩, sales', _, hloop, rfl, rfl⟩
        obtain ⟨hrest, hex, rfl, rfl⟩ := (ih hids).mp hloop
        rw [hbids] at hrest
        rw [exchanges_congr hlot] at hex
        exact ⟨⟨fun lot hl => (hfirst lot hl).1, hrest⟩, ⟨fun lot hl => (hfirst lot hl).2, hex⟩,
          by rw [hsold], hstate.symm⟩
      · rintro ⟨⟨hbid, hrest⟩, ⟨hfirst, hex⟩, rfl, hs'⟩
        have hloop :=
          (ih hids).mpr ⟨hbids.mpr hrest, (exchanges_congr hlot).mpr hex, rfl, hs'.trans hstate⟩
        exact ⟨_, _, ⟨fun lot hl => ⟨hbid lot hl, hfirst lot hl⟩, rfl, rfl⟩, _, _, hloop,
          by rw [hsold], rfl⟩

/-- The storage after a block. -/
def State.blockFinalized (cfg : Config A X) (s : State A X) : State A X :=
  { s with
    ledger := s.matched cfg (cfg.iteration s.takes.keys) s.ledger
    sellOrders := s.remaining (cfg.iteration s.takes.keys) s.sellOrders
    takes := ∅ }

omit [DecidableEq A] [DecidableEq X] in
theorem iteration_nodup (cfg : Config A X) (s : State A X) : (cfg.iteration s.takes.keys).Nodup :=
  (cfg.iteration_perm _).nodup_iff.mpr s.takes.keys_nodup

/-- **What the end of a block does**: the lots are sold and no takes remain. -/
theorem onFinalize_iff : onFinalize cfg s = (.ok sales, s') ↔
    (∀ id ∈ cfg.iteration s.takes.keys, ∀ lot ∈ s.lot id, ∀ t ∈ lot.takes, t.bid ≤ u128Max) ∧
      s.Exchanges cfg (cfg.iteration s.takes.keys) s.ledger ∧
      sales = (cfg.iteration s.takes.keys).map (fun id => (id, s.sold id)) ∧
      s' = s.blockFinalized cfg := by
  simp only [onFinalize, Call.get_bind, Call.bind_ok, Call.modify_ok, Call.pure_ok,
    finalizeOrders_iff (iteration_nodup cfg s)]
  constructor
  · rintro ⟨_, _, ⟨hbids, hex, rfl, rfl⟩, _, _, rfl, rfl, rfl⟩
    exact ⟨hbids, hex, rfl, rfl⟩
  · rintro ⟨hbids, hex, rfl, rfl⟩
    exact ⟨_, _, ⟨hbids, hex, rfl, rfl⟩, (), _, rfl, rfl, rfl⟩

/-- What remains of the orders after a block: an order that clears has takes. -/
theorem lookup_blockFinalized : (s.blockFinalized cfg).sellOrders.lookup id =
    if s.clears id = true then none else s.sellOrders.lookup id := by
  refine lookup_remaining.trans (if_congr ⟨And.right, fun hclears => ⟨?_, hclears⟩⟩ rfl rfl)
  refine (cfg.iteration_perm _).mem_iff.mpr ?_
  by_contra hnot
  rw [State.clears, State.lot, AList.lookup_eq_none.mpr hnot] at hclears
  cases hclears

/-! ## Bystanders -/

/-- `c` neither sells the lot nor bids for it. -/
def Lot.Without (lot : Lot A X) (c : A) : Prop := c ≠ lot.order.fromTo ∧ ∀ t ∈ lot.takes, c ≠ t.fromTo

theorem balance_lots_of_without (h : ∀ id ∈ ids, ∀ lot, s.lot id = some lot → lot.Without c) :
    (s.matched cfg ids l).balance x c = l.balance x c := by
  induction ids generalizing l with
  | nil => rfl
  | cons id ids ih =>
      simp only [State.matched, List.foldl_cons] at ih ⊢
      rw [ih fun i hi => h i (List.mem_cons_of_mem id hi)]
      cases hlot : s.lot id with
      | none => rfl
      | some lot =>
          obtain ⟨hseller, htakers⟩ := h id List.mem_cons_self lot hlot
          exact balance_matched_of_ne hseller fun t ht =>
            htakers t ((sortTakes_perm lot.takes).mem_iff.mp ht)

/-- **The end of a block leaves bystanders alone.** -/
theorem onFinalize_balance (hlots : ∀ id lot, s.lot id = some lot → lot.Without c)
    (h : onFinalize cfg s = (.ok sales, s')) : s'.ledger.balance x c = s.ledger.balance x c := by
  obtain ⟨-, -, -, rfl⟩ := onFinalize_iff.mp h
  exact balance_lots_of_without fun id _ => hlots id

end DutchAuction
end Composable
