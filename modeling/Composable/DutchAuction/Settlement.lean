import Composable.DutchAuction.Reservations
import Composable.Support.Payment

/-!
# `DutchAuction.Settlement` — when a block can be finalised

The `expect` calls of `on_finalize` rest on the reservations made beforehand, and those are enough
as far as funds go. They say nothing about the existential deposit of the account that receives a
payment, nor of the one that makes it: the payments need not keep their senders alive, and a sender
that is left with too little dies with what it has reserved for later ones. Over a ledger with
existential deposits the end of a block is therefore a settlement: the payments of all lots in
order (`payments`), made on the total balances. `finalize_returns_iff` says that `on_finalize`
returns exactly when they settle.
-/

namespace Composable
namespace DutchAuction

variable {A X : Type} [DecidableEq A] [DecidableEq X]
variable {cfg : Config A X} {s s' : State A X} {ed : X → Nat} {dies : X → Nat → Bool} {l : Ledger A X}
variable {pair : CurrencyPair X} {seller : A} {takes : List (TakeOrder A)} {left : Nat}
  {sheet : Sheet A X}

/-! ## The payments of a block -/

/-- The payments for `takes` of an order of which `left` is for sale. -/
def plan (pair : CurrencyPair X) (seller : A) : List (TakeOrder A) → Nat → List (Payment A X)
  | [], _ => []
  | t :: takes, left =>
      if left = 0 then plan pair seller takes 0
      else
        ⟨pair.base, seller, t.fromTo, min t.take.amount left⟩ ::
        ⟨pair.quote, t.fromTo, seller, t.take.quote (min t.take.amount left)⟩ ::
          plan pair seller takes (left - min t.take.amount left)

def Lot.payments (lot : Lot A X) : List (Payment A X) :=
  plan lot.order.order.pair lot.order.fromTo (sortTakes lot.takes) lot.order.order.take.amount

/-- The payments for the orders `ids`. -/
def State.payments (s : State A X) (ids : List Nat) : List (Payment A X) :=
  ids.flatMap fun id => (s.lot id).elim [] Lot.payments

/-- The payments of the block settle on the balances before it. -/
def Settles (cfg : Config A X) (ed : X → Nat) (dies : X → Nat → Bool) (s : State A X) : Prop :=
  (settle ed dies s.ledger.balance (s.payments (cfg.iteration s.takes.keys))).isSome = true

instance (cfg : Config A X) (ed : X → Nat) (dies : X → Nat → Bool) (s : State A X) :
    Decidable (Settles cfg ed dies s) :=
  inferInstanceAs (Decidable (_ = true))

/-! ## One exchange -/

/-- So much of the account is reserved, or nothing is. Both ways what it needs of its balance is
    free once it is released. -/
def Backs (l : Ledger A X) (x : X) (a : A) (n : Nat) : Prop := n ≤ l.reserved x a ∨ l.reserved x a = 0

omit [DecidableEq A] [DecidableEq X] in
theorem Backs.mono {x : X} {a : A} {m n : Nat} (h : Backs l x a n) (hle : m ≤ n) : Backs l x a m :=
  h.imp_left hle.trans

/-- The two payments of an exchange whose amounts are reserved are accepted exactly when the
    exchange is, with the same balances afterwards. -/
theorem settle_exchange (hcfg : cfg.currency = Currency.reaping ed (Currency.byBalance dies))
    {base quote : X}
    {taker : A} {m n : Nat} {payments : List (Payment A X)} (hbase : Backs l base seller m)
    (hquote : Backs l quote taker n) :
    settle ed dies l.balance (⟨base, seller, taker, m⟩ :: ⟨quote, taker, seller, n⟩ :: payments) =
      some sheet ↔
      Exchangeable cfg base seller m quote taker n l ∧
        settle ed dies (exchanged cfg base seller m quote taker n l).balance payments =
          some sheet := by
  have hunlocked : ((l.unlock base seller m).unlock quote taker n).balance = l.balance := by
    funext y c
    rw [Ledger.balance_unlock, Ledger.balance_unlock]
  have hfirst :
      seller ≠ taker → m ≤ ((l.unlock base seller m).unlock quote taker n).balance base seller →
      m ≤ ((l.unlock base seller m).unlock quote taker n).free base seller := by
    intro hne
    simp only [Ledger.balance, Ledger.free_unlock, Ledger.reserved_unlock, and_self, if_true, hne,
      and_false, if_false]
    rcases hbase with hbase | hnone <;> omega
  have hsecond :
      taker ≠ seller → n ≤ (deliver cfg base seller m quote taker n l).balance quote taker →
      n ≤ (deliver cfg base seller m quote taker n l).free quote taker := by
    intro hne
    have hkept :=
      cfg.currency.le_free_paid_of_ne (l := (l.unlock base seller m).unlock quote taker n) (x := base)
      (b := taker) (n := m) (k := false) (y := quote) hne
    have hreserved :=
      cfg.currency.reserved_paid (l := (l.unlock base seller m).unlock quote taker n) (x := base)
      (a := seller) (b := taker) (n := m) (k := false) quote taker
    simp only [Ledger.balance, deliver, Ledger.free_unlock, Ledger.reserved_unlock, and_self,
      if_true, hne, and_false, if_false] at hkept hreserved ⊢
    rcases hquote with hquote | hnone <;> omega
  rw [← hunlocked, settle_cons]
  simp only [settle_cons, Option.bind_eq_some_iff, pay_balance hfirst]
  unfold Exchangeable exchanged deliver at *
  rw [hcfg] at *
  constructor
  · rintro ⟨_, ⟨hpay, rfl⟩, _, hback, hrest⟩
    obtain ⟨hpay', rfl⟩ := (pay_balance hsecond).mp hback
    exact ⟨⟨hpay, hpay'⟩, hrest⟩
  · rintro ⟨⟨hpay, hpay'⟩, hrest⟩
    exact ⟨_, ⟨hpay, rfl⟩, _, (pay_balance hsecond).mpr ⟨hpay', rfl⟩, hrest⟩

/-- Filling a take also releases the rest of the bid, which no balance shows. -/
theorem balance_filled {t : TakeOrder A} {n : Nat} : (filled cfg pair seller t n l).balance =
    (exchanged cfg pair.base seller n pair.quote t.fromTo (t.take.quote n) l).balance := by
  funext y c
  exact Ledger.balance_unlock _ _ _ _ _ _

/-! ## The loops -/

/-- What the takes of an order, of which `left` is for sale, need to be reserved. -/
def need (pair : CurrencyPair X) (seller : A) (takes : List (TakeOrder A)) (left : Nat)
    (x : X) (a : A) : Nat :=
  (if pair.quote = x then bids takes a else 0) +
    if pair.base = x ∧ seller = a then min left (demand takes) else 0

/-- **The takes of one order** are filled exactly when their payments settle. The invariant of the
    loop is that what the remaining takes need is reserved, but for accounts that have died. -/
theorem exchanges_settle (hcfg : cfg.currency = Currency.reaping ed (Currency.byBalance dies))
    (hneed : ∀ x a, Backs l x a (need pair seller takes left x a)) :
    (Exchanges cfg pair seller takes left l ∧
      (matched cfg pair seller (fills takes left) l).balance = sheet) ↔
      settle ed dies l.balance (plan pair seller takes left) = some sheet := by
  induction takes generalizing left l with
  | nil => simp [Exchanges, fills, allot, matched, plan, settle_nil]
  | cons t takes ih =>
      have hdemand : demand (t :: takes) = t.take.amount + demand takes := rfl
      simp only [need, bids_cons, hdemand] at hneed
      simp only [Exchanges, fills, allot, matched, List.foldl_cons, plan] at ih ⊢
      have hreal : t.take.quote (min t.take.amount left) ≤ t.bid :=
        quote_le_bid t (Nat.min_le_left _ _)
      have hneed' : ∀ x a, Backs (filled cfg pair seller t (min t.take.amount left) l) x a
          (need pair seller takes (left - min t.take.amount left) x a) := by
        intro x a
        rcases reserved_filled cfg pair seller hreal l x a with hkept | ⟨-, hnone⟩
        · unfold Backs
          rw [hkept, need]
          refine (hneed x a).imp (fun hxa => ?_) fun hxa => by rw [hxa, Nat.zero_sub]
          simp only [ite_and] at hxa ⊢
          split_ifs at hxa ⊢ <;> omega
        · exact .inr hnone
      by_cases hleft : left = 0
      · subst hleft
        have hbalance : (filled cfg pair seller t 0 l).balance = l.balance := by
          rw [filled_zero]
          funext y c
          exact Ledger.balance_unlock _ _ _ _ _ _
        simp only [Nat.min_zero, Nat.sub_zero, Nat.lt_irrefl, false_implies, true_and,
          if_true] at hneed' ⊢
        rw [ih hneed', hbalance]
      · have hpos : 0 < left := Nat.pos_of_ne_zero hleft
        have hbase : Backs l pair.base seller (min t.take.amount left) := by
          refine (hneed pair.base seller).mono ?_
          rw [if_pos (And.intro rfl rfl)]
          omega
        have hquote : Backs l pair.quote t.fromTo (t.take.quote (min t.take.amount left)) := by
          refine (hneed pair.quote t.fromTo).mono ?_
          rw [if_pos rfl, if_pos rfl]
          omega
        rw [if_neg hleft, settle_exchange hcfg hbase hquote, ← balance_filled, ← ih hneed']
        simp only [hpos, true_implies, and_assoc]

/-- **The lots of a block** are exchanged exactly when their payments settle. -/
theorem lots_settle (hcfg : cfg.currency = Currency.reaping ed (Currency.byBalance dies))
    {ids : List Nat} (hneed : ∀ x a, Backs l x a (ids.map (s.released x a)).sum) :
    (s.Exchanges cfg ids l ∧ (s.matched cfg ids l).balance = sheet) ↔
      settle ed dies l.balance (s.payments ids) = some sheet := by
  induction ids generalizing l with
  | nil => simp [State.Exchanges, State.matched, State.payments, settle_nil]
  | cons id ids ih =>
      simp only [List.map_cons, List.sum_cons] at hneed
      have hpayments : s.payments (id :: ids) = (s.lot id).elim [] Lot.payments ++ s.payments ids :=
        rfl
      rw [hpayments, settle_append, Option.bind_eq_some_iff]
      simp only [State.Exchanges, State.matched, List.foldl_cons] at ih ⊢
      cases hlot : s.lot id with
      | none =>
          have hneed' : ∀ x a, Backs l x a (ids.map (s.released x a)).sum := fun x a =>
            (hneed x a).mono (Nat.le_add_left _ _)
          simp [settle_nil, ih hneed']
      | some lot =>
          have hreleased : ∀ x a, s.released x a id = lot.owed x a + lot.given x a := fun x a => by
            rw [State.released, hlot, Option.elim_some]
          simp only [hreleased] at hneed
          have hperm := sortTakes_perm lot.takes
          have hlotNeed :
              ∀ x a, Backs l x a (need lot.order.order.pair lot.order.fromTo (sortTakes lot.takes)
              lot.order.order.take.amount x a) := by
            intro x a
            rw [need, bids_perm hperm, demand_perm hperm]
            exact (hneed x a).mono (Nat.le_add_right _ _)
          have hneed' : ∀ x a, Backs (lot.matched cfg l) x a (ids.map (s.released x a)).sum := by
            intro x a
            rcases reserved_lot lot l with hkept | ⟨-, hnone⟩
            · unfold Backs
              rw [hkept]
              exact (hneed x a).imp (fun hxa => by omega) fun hxa => by rw [hxa, Nat.zero_sub]
            · exact .inr hnone
          have hhead : ∀ sheet', (lot.Exchanges cfg l ∧ (lot.matched cfg l).balance = sheet') ↔
              settle ed dies l.balance lot.payments = some sheet' :=
                fun sheet' => exchanges_settle hcfg hlotNeed
          simp only [Option.mem_some_iff, forall_eq', Option.elim_some, ← hhead, and_assoc, ih hneed']
          constructor
          · rintro ⟨hex, hrest⟩
            exact ⟨_, hex, rfl, hrest⟩
          · rintro ⟨_, hex, rfl, hrest⟩
            exact ⟨hex, hrest⟩

/-! ## The end of a block -/

/-- What a block releases is reserved: the bids, and of each order at most what it offers. -/
theorem Reserved.covers (h : Reserved s) (x : X) (a : A) :
    ((cfg.iteration s.takes.keys).map (s.released x a)).sum ≤ s.ledger.reserved x a := by
  have hperm := cfg.iteration_perm s.takes.keys
  have hreleased : ∀ id ∈ s.takes.keys, s.released x a id ≤
      StorageMap.share (waiting s.sellOrders x a) s.takes id +
        StorageMap.share (offer x a) s.sellOrders id := by
    intro id hid
    rw [share_waiting hid, State.released]
    cases hlot : s.lot id with
    | none => exact Nat.zero_le _
    | some lot =>
        rw [StorageMap.share_of_lookup (lot_eq_some.mp hlot).2]
        refine Nat.add_le_add_left ?_ _
        unfold Lot.given offer
        split
        · exact Nat.min_le_left _ _
        · exact Nat.le_refl _
  calc ((cfg.iteration s.takes.keys).map (s.released x a)).sum
      = (s.takes.keys.map (s.released x a)).sum := (hperm.map _).sum_eq
    _ ≤ (s.takes.keys.map fun id => StorageMap.share (waiting s.sellOrders x a) s.takes id +
          StorageMap.share (offer x a) s.sellOrders id).sum := List.sum_le_sum hreleased
    _ = pending s x a + (s.takes.keys.map (StorageMap.share (offer x a) s.sellOrders)).sum := by
        rw [List.sum_map_add, pending, StorageMap.total_eq_sum_share (List.Perm.refl _)]
    _ ≤ pending s x a + offered s x a :=
        Nat.add_le_add_left (StorageMap.sum_share_le_total s.takes.keys_nodup) _
    _ ≤ s.ledger.reserved x a := by
        rw [Nat.add_comm]
        exact h x a

/-- **A block is finalised exactly when its payments settle.** Over a ledger with existential
    deposits, in which accounts die that are left with too little, in every state that an orderly
    run reaches, `on_finalize` returns if and only if no sender of a payment has lost what it needs
    by then and none of the payments would leave the recipient below the existential deposit. -/
theorem finalize_returns_iff (cfg : Config A X) (ed : X → Nat) (dies : X → Nat → Bool)
    (hcfg : cfg.currency = Currency.reaping ed (Currency.byBalance dies)) (ledger : Ledger A X)
    {ops : List (Op A X)}
    {s : State A X} (hops : Along (step cfg) (Orderly cfg) (State.genesis ledger) ops)
    (hrun : run (step cfg) (State.genesis ledger) ops = some s) :
    (∃ sales s', onFinalize cfg s = (.ok sales, s')) ↔ Settles cfg ed dies s := by
  have hinv : Booked s ∧ Reserved s :=
    run_invariant (I := fun s => Booked s ∧ Reserved s)
      (fun h horderly hstep => ⟨h.1.step hstep, Reserved.step h.1 h.2 horderly hstep⟩)
      ⟨Booked.genesis ledger, fun _ _ => Nat.zero_le _⟩ hops hrun
  -- What is reserved covers the fills, so that what is left to refuse a payment are the total
  -- balances.
  have hsettles :
      ∀ sheet, _ ↔ settle ed dies s.ledger.balance (s.payments (cfg.iteration s.takes.keys)) =
      some sheet := fun sheet => lots_settle hcfg fun x a => .inl (hinv.2.covers x a)
  rw [Settles, Option.isSome_iff_exists]
  simp only [onFinalize_iff, ← hsettles]
  -- The bids of stored takes fit a balance, which `onFinalize` asks as well.
  constructor
  · rintro ⟨_, _, -, hex, -, -⟩
    exact ⟨_, hex, rfl⟩
  · rintro ⟨_, hex, -⟩
    exact ⟨_, _, fun id _ lot hlot => hinv.1.bids (lot_eq_some.mp hlot).1, hex, rfl, rfl⟩

/-- The sample market over a ledger in which accounts below the existential deposit die. -/
def reapingSample (ed : Nat → Nat) : Config Nat Nat :=
  { sample ed with currency := Currency.reaping ed (Currency.byBalance (Currency.belowDeposit ed)) }

/-- Half of an order is taken; account `1` is paid five of asset `2`, of which it needs no deposit,
    and keeps ninety-five of asset `1`. -/
theorem finalize_returns_sample : ∃ s, run (step (reapingSample fun x => if x = 1 then 5 else 0))
      (State.genesis sampleLedger) halfTakenOps = some s ∧
    ∃ sales s', onFinalize (reapingSample fun x => if x = 1 then 5 else 0) s = (.ok sales, s') := by
  have hview :
      (run (step (reapingSample fun x => if x = 1 then 5 else 0)) (State.genesis sampleLedger)
      halfTakenOps).map (fun s => decide (Settles (reapingSample fun x => if x = 1 then 5 else 0)
        (fun x => if x = 1 then 5 else 0) (Currency.belowDeposit fun x => if x = 1 then 5 else 0)
          s)) = some true := by
    decide +kernel
  obtain ⟨s, hs, hsettles⟩ := Option.map_eq_some_iff.mp hview
  have hops : Along (step (reapingSample fun x => if x = 1 then 5 else 0))
      (Orderly (reapingSample fun x => if x = 1 then 5 else 0)) (State.genesis sampleLedger)
        halfTakenOps := by
    decide +kernel
  exact ⟨s, hs, (finalize_returns_iff _ _ _ rfl sampleLedger hops hs).mpr
    (of_decide_eq_true hsettles)⟩

/-- With an existential deposit of a hundred the payment of five is refused, and the block with
    it. -/
theorem finalize_panics :
    ¬ ∀ ops s, run (step (reapingSample fun x => if x = 2 then 100 else 0))
      (State.genesis sampleLedger) ops =
        some s →
      ∃ sales s', onFinalize (reapingSample fun x => if x = 2 then 100 else 0) s =
        (.ok sales, s') := by
  intro h
  have hview :
      (run (step (reapingSample fun x => if x = 2 then 100 else 0)) (State.genesis sampleLedger)
      halfTakenOps).map
      (fun s => decide ((onFinalize (reapingSample fun x => if x = 2 then 100 else 0) s).1 =
        .error .panic)) =
      some true := by
    decide +kernel
  obtain ⟨s, hs, hpanic⟩ := Option.map_eq_some_iff.mp hview
  obtain ⟨sales, s', hok⟩ := h halfTakenOps s hs
  rw [decide_eq_true_eq, hok] at hpanic
  cases hpanic

end DutchAuction
end Composable
