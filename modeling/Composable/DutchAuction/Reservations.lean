import Composable.DutchAuction.Effect

/-!
# `DutchAuction.Reservations` — what the ledger reserves for the auction

The auction keeps no balances of its own: what is for sale is reserved on the seller and what
is bid is reserved on the takers. `Reserved` is the invariant behind both (the reserved
balance of every account covers the orders it offers and the takes it is waiting with), and
`Booked` the bookkeeping of ids.

The code does not write a partly sold order back, and it releases the base asset before it pays the
deposit back. `Orderly` names the steps that stay clear of this, and orderly runs keep `Reserved`
(`Reserved.step`).
-/

namespace Composable
namespace DutchAuction

variable {A X : Type} [DecidableEq A] [DecidableEq X]
variable {cfg : Config A X} {s s' : State A X} {op : Op A X} {x : X} {a : A}

/-! ## Bookkeeping of ids -/

/-- Order ids were handed out by the index, and what is bid fits into a balance. -/
structure Booked (s : State A X) : Prop where
  index : s.ordersIndex ≤ u128Max
  orders : ∀ {id order}, s.sellOrders.lookup id = some order → id ≤ s.ordersIndex
  takes : ∀ {id takes}, s.takes.lookup id = some takes → id ≤ s.ordersIndex
  bids : ∀ {id takes}, s.takes.lookup id = some takes → ∀ t ∈ takes, t.bid ≤ u128Max

omit [DecidableEq A] [DecidableEq X] in
theorem Booked.genesis (ledger : Ledger A X) : Booked (State.genesis ledger) :=
  ⟨Nat.zero_le _, nofun, nofun, nofun⟩

theorem le_nextOrderId {id : Nat} (h : id ≤ u128Max) : id ≤ nextOrderId id :=
  Nat.le_min.mpr ⟨Nat.le_succ id, h⟩

theorem nextOrderId_of_lt {id : Nat} (h : id < u128Max) : nextOrderId id = id + 1 :=
  Nat.min_eq_left h

omit [DecidableEq A] [DecidableEq X] in
/-- Fewer orders and the same takes under a larger index are still booked. -/
theorem Booked.of_old (h : Booked s) (hindex : s.ordersIndex ≤ s'.ordersIndex)
    (hmax : s'.ordersIndex ≤ u128Max)
    (horders : ∀ {id order}, s'.sellOrders.lookup id = some order → id ≤ s'.ordersIndex)
    (htakes : s'.takes = s.takes) : Booked s' where
  index := hmax
  orders := horders
  takes := fun hid => (h.takes (htakes ▸ hid)).trans hindex
  bids := fun hid => h.bids (htakes ▸ hid)

/-- Every step keeps the books. -/
theorem Booked.step (h : Booked s) (hstep : step cfg s op = some s') : Booked s' := by
  cases step_effect hstep with
  | askFailed hfailed =>
      have hindex : s.ordersIndex ≤ s'.ordersIndex ∧ s'.ordersIndex ≤ u128Max := by
        rcases hfailed.ordersIndex with heq | heq
        · exact ⟨heq.ge, heq ▸ h.index⟩
        · exact ⟨heq ▸ le_nextOrderId h.index, heq ▸ Nat.min_le_right _ _⟩
      refine h.of_old hindex.1 hindex.2 (fun hid => ?_) hfailed.takes
      rw [hfailed.sellOrders] at hid
      exact (h.orders hid).trans hindex.1
  | asked =>
      refine h.of_old (le_nextOrderId h.index) (Nat.min_le_right _ _) (fun {id _} hid => ?_) rfl
      rcases StorageMap.lookup_insert_some.mp hid with ⟨heq, -⟩ | ⟨-, hold⟩
      · exact heq.le
      · exact (h.orders hold).trans (le_nextOrderId h.index)
  | takeFailed => exact h
  | @taken _ who id take order _ horder _ hquote =>
      refine ⟨h.index, h.orders, fun {id' takes} hid => ?_, fun {id' takes} hid t ht => ?_⟩
      · rcases StorageMap.lookup_insert_some.mp hid with ⟨heq, -⟩ | ⟨-, hold⟩
        · exact heq.le.trans (h.orders horder)
        · exact h.takes hold
      · rcases State.mem_taken hid ht with ⟨old, hold, hwaiting⟩ | ⟨-, rfl⟩
        · exact h.bids hold t hwaiting
        · exact hquote
  | liquidateFailed => exact h
  | unlocked => exact ⟨h.index, h.orders, h.takes, h.bids⟩
  | @liquidated id order horder =>
      exact h.of_old (Nat.le_refl _) h.index
        (fun hid => h.orders (StorageMap.lookup_erase_some.mp hid).2) rfl
  | finalized hok =>
      obtain ⟨-, -, -, rfl⟩ := onFinalize_iff.mp hok
      refine ⟨h.index, fun {id _} hid => ?_, nofun, nofun⟩
      rw [lookup_blockFinalized] at hid
      split at hid
      · cases hid
      · exact h.orders hid

/-! ## Reservations -/

/-- What `a` offers of `x` by an order. -/
def offer (x : X) (a : A) (_ : Nat) (order : SellOrder A X) : Nat :=
  if order.order.pair.base = x ∧ order.fromTo = a then order.order.take.amount else 0

/-- What `a` waits with in `x` for the takes of an order, if it is still stored. -/
def waiting (orders : StorageMap Nat (SellOrder A X)) (x : X) (a : A) (id : Nat)
    (takes : List (TakeOrder A)) : Nat :=
  (orders.lookup id).elim 0 fun order => (Lot.mk order takes).owed x a

/-- What `a` offers of `x` by all its orders. -/
def offered (s : State A X) (x : X) (a : A) : Nat := StorageMap.total (offer x a) s.sellOrders

/-- What `a` has reserved in `x` for the takes of stored orders. -/
def pending (s : State A X) (x : X) (a : A) : Nat :=
  StorageMap.total (waiting s.sellOrders x a) s.takes

/-- The reserved balances cover what is offered and what is bid. -/
def Reserved (s : State A X) : Prop :=
  ∀ x a, offered s x a + pending s x a ≤ s.ledger.reserved x a

/-- Steps that stay clear of what the code gets wrong: an order id is left to hand out, an order
    that its owner removes gets its deposit back, and an order with takes is sold completely,
    without a payment that costs its sender more than it pays. -/
def Orderly (cfg : Config A X) (s : State A X) : Op A X → Prop
  | .ask _ _ _ _ => s.ordersIndex < u128Max
  | .take _ _ _ _ => True
  | .liquidate origin id => ∀ order ∈ s.sellOrders.lookup id,
      origin = .signed order.fromTo → ¬ RefundRefused cfg s order
  | .finalize => (∀ id ∈ s.takes.keys, ∀ lot ∈ s.lot id, lot.Cleared) ∧
      s.Spares cfg (cfg.iteration s.takes.keys) s.ledger

instance (cfg : Config A X) (s : State A X) : (op : Op A X) → Decidable (Orderly cfg s op)
  | .ask _ _ _ _ => inferInstanceAs (Decidable (_ < _))
  | .take _ _ _ _ => inferInstanceAs (Decidable True)
  | .liquidate _ _ => inferInstanceAs (Decidable (∀ order ∈ _, _ → ¬ _))
  | .finalize =>
      inferInstanceAs (Decidable ((∀ id ∈ s.takes.keys, ∀ lot ∈ s.lot id, lot.Cleared) ∧ _))

/-- A new order under a fresh id adds its offer. -/
theorem offered_asked {now : Nat} {who : A} {order : Sell X} {configuration : TimeReleaseFunction}
    (h : s.sellOrders.lookup (nextOrderId s.ordersIndex) = none) :
    offered (s.asked cfg now who order configuration) x a =
      offered s x a + if order.pair.base = x ∧ who = a then order.take.amount else 0 := by
  have htotal := StorageMap.total_insert (f := offer x a) (m := s.sellOrders)
    (k := nextOrderId s.ordersIndex) (v := ⟨who, order, configuration, now, cfg.orderDeposit⟩)
  rw [StorageMap.share_of_lookup_none h, Nat.add_zero] at htotal
  exact htotal

/-- A new order under an id without takes leaves the pending takes alone. -/
theorem pending_asked {now : Nat} {who : A} {order : Sell X} {configuration : TimeReleaseFunction}
    (h : s.takes.lookup (nextOrderId s.ordersIndex) = none) :
    pending (s.asked cfg now who order configuration) x a = pending s x a := by
  apply StorageMap.total_congr
  intro e he
  have hne : e.1 ≠ nextOrderId s.ordersIndex := by
    intro heq
    have hsome : s.takes.lookup e.1 = some e.2 := AList.mem_lookup_iff.mpr he
    rw [heq, h] at hsome
    cases hsome
  unfold waiting
  rw [show (s.asked cfg now who order configuration).sellOrders.lookup e.1 =
    s.sellOrders.lookup e.1 from AList.lookup_insert_ne hne]

theorem bids_append {takes : List (TakeOrder A)} {t : TakeOrder A} :
    bids (takes ++ [t]) a = bids takes a + if t.fromTo = a then t.bid else 0 := by
  simp [bids]

/-- A take adds its bid to what is pending. -/
theorem pending_taken {who : A} {id : Nat} {take : Take} {order : SellOrder A X}
    (h : s.sellOrders.lookup id = some order) :
    pending (s.taken order who id take) x a = pending s x a +
      if order.order.pair.quote = x ∧ who = a then take.quote take.amount else 0 := by
  have htotal := StorageMap.total_insert (f := waiting s.sellOrders x a) (m := s.takes) (k := id)
    (v := s.takes.getD id [] ++ [⟨who, take⟩])
  have hshare : StorageMap.share (waiting s.sellOrders x a) s.takes id =
      waiting s.sellOrders x a id (s.takes.getD id []) := by
    unfold StorageMap.share StorageMap.getD
    cases s.takes.lookup id with
    | none => simp [waiting, h, Lot.owed, bids]
    | some takes => rfl
  have hnew : waiting s.sellOrders x a id (s.takes.getD id [] ++ [⟨who, take⟩]) =
      waiting s.sellOrders x a id (s.takes.getD id []) +
        if order.order.pair.quote = x ∧ who = a then take.quote take.amount else 0 := by
    simp only [waiting, h, Option.elim_some, Lot.owed, bids_append, TakeOrder.bid, ite_and]
    split_ifs <;> rfl
  rw [hshare, hnew] at htotal
  show StorageMap.total (waiting s.sellOrders x a)
    (s.takes.insert id (s.takes.getD id [] ++ [⟨who, take⟩])) = _
  unfold pending
  omega

/-- Removing an order takes its offer out. -/
theorem offered_liquidated {id : Nat} {order : SellOrder A X}
    (h : s.sellOrders.lookup id = some order) :
    offered (s.liquidated cfg order id) x a + offer x a id order = offered s x a := by
  rw [← StorageMap.share_of_lookup (f := offer x a) h]
  exact StorageMap.total_erase

/-- Removing an order forgets the takes that wait for it. -/
theorem pending_liquidated_le {id : Nat} {order : SellOrder A X} :
    pending (s.liquidated cfg order id) x a ≤ pending s x a := by
  apply StorageMap.total_le_total
  intro e _
  unfold waiting
  by_cases heq : e.1 = id
  · rw [show (s.liquidated cfg order id).sellOrders.lookup e.1 = none from heq ▸
      AList.lookup_erase _ _]
    exact Nat.zero_le _
  · rw [show (s.liquidated cfg order id).sellOrders.lookup e.1 = s.sellOrders.lookup e.1 from
      AList.lookup_erase_ne heq]

/-- The share of an order in what is pending is what is owed for its lot. -/
theorem share_waiting {id : Nat} (hid : id ∈ s.takes.keys) :
    StorageMap.share (waiting s.sellOrders x a) s.takes id = (s.lot id).elim 0 fun lot =>
      lot.owed x a := by
  obtain ⟨takes, htakes⟩ := Option.isSome_iff_exists.mp (AList.lookup_isSome.mpr hid)
  rw [StorageMap.share_of_lookup htakes, waiting, State.lot, htakes]
  cases s.sellOrders.lookup id <;> rfl

/-- A lot that is sold completely releases what was bid for it and what was offered. -/
theorem released_of_cleared {id : Nat} (hid : id ∈ s.takes.keys)
    (h : ∀ lot ∈ s.lot id, lot.Cleared) :
    s.released x a id = StorageMap.share (waiting s.sellOrders x a) s.takes id +
      if s.clears id then StorageMap.share (offer x a) s.sellOrders id else 0 := by
  rw [share_waiting hid, State.released, State.clears]
  cases hlot : s.lot id with
  | none => rfl
  | some lot =>
      have hcleared : lot.Cleared := h lot hlot
      have hsold : lot.sold = lot.order.order.take.amount := Nat.min_eq_left hcleared
      rw [StorageMap.share_of_lookup (lot_eq_some.mp hlot).2]
      simp only [Option.elim_some, Option.any_some, hcleared, decide_true, if_true, Lot.given,
        hsold, offer]

/-- **Reservations survive every orderly step.** -/
theorem Reserved.step (hbooked : Booked s) (h : Reserved s) (horderly : Orderly cfg s op)
    (hstep : step cfg s op = some s') : Reserved s' := by
  intro x a
  have hxa := h x a
  cases step_effect hstep with
  | askFailed hfailed =>
      have hreserved : s'.ledger.reserved = s.ledger.reserved := by
        rcases hfailed.ledger with heq | ⟨_, _, _, heq⟩ <;> rw [heq]
        rfl
      rw [offered, pending, hfailed.sellOrders, hfailed.takes, hreserved]
      exact hxa
  | @asked now who order configuration =>
      have hnext : nextOrderId s.ordersIndex = s.ordersIndex + 1 := nextOrderId_of_lt horderly
      have hfresh : ∀ {id}, id = nextOrderId s.ordersIndex → ¬ id ≤ s.ordersIndex := by omega
      have horder : s.sellOrders.lookup (nextOrderId s.ordersIndex) = none := by
        by_contra hne
        obtain ⟨order, horder⟩ := Option.ne_none_iff_exists'.mp hne
        exact hfresh rfl (hbooked.orders horder)
      have htakes : s.takes.lookup (nextOrderId s.ordersIndex) = none := by
        by_contra hne
        obtain ⟨takes, htakes⟩ := Option.ne_none_iff_exists'.mp hne
        exact hfresh rfl (hbooked.takes htakes)
      rw [offered_asked horder, pending_asked htakes]
      simp only [State.asked, Ledger.reserved_lock, Ledger.reserved_move, eq_comm (a := x),
        eq_comm (a := a)]
      omega
  | takeFailed => exact hxa
  | @taken _ who id take order hok horder =>
      have hoffered : offered (s.taken order who id take) x a = offered s x a := rfl
      rw [pending_taken horder, hoffered]
      simp only [State.taken, Ledger.reserved_lock, eq_comm (a := x), eq_comm (a := a)]
      omega
  | liquidateFailed => exact hxa
  | unlocked horder hrefused => exact absurd hrefused (horderly _ horder rfl)
  | @liquidated id order horder hrefund =>
      have hoffered : offered (s.liquidated cfg order id) x a + offer x a id order = offered s x a :=
        offered_liquidated horder
      have hpending : pending (s.liquidated cfg order id) x a ≤ pending s x a := pending_liquidated_le
      have hreserved : (s.liquidated cfg order id).ledger.reserved x a =
          s.ledger.reserved x a - offer x a id order := by
        simp only [State.liquidated, State.unlocked, Ledger.reserved_move,
          Ledger.reserved_unlock, offer, eq_comm (a := x), eq_comm (a := a)]
      omega
  | finalized hok =>
      obtain ⟨-, -, -, rfl⟩ := onFinalize_iff.mp hok
      have hperm := cfg.iteration_perm s.takes.keys
      have hpending : pending s x a = _ := StorageMap.total_eq_sum_share hperm
      have hoffered := total_remaining s s.sellOrders (offer x a) (iteration_nodup cfg s)
      have hreserved :=
        (reserved_lots cfg s s.ledger (cfg.iteration s.takes.keys) x a).resolve_right fun h =>
          h.1 horderly.2
      have hreleased : (cfg.iteration s.takes.keys).map (s.released x a) =
          (cfg.iteration s.takes.keys).map fun id =>
            StorageMap.share (waiting s.sellOrders x a) s.takes id +
              if s.clears id then StorageMap.share (offer x a) s.sellOrders id else 0 := by
        apply List.map_congr_left
        intro id hid
        exact released_of_cleared (hperm.mem_iff.mp hid) (horderly.1 id (hperm.mem_iff.mp hid))
      rw [hreleased, List.sum_map_add, ← hpending] at hreserved
      show StorageMap.total (offer x a) (s.remaining _ s.sellOrders) + 0 ≤
        (s.matched cfg _ s.ledger).reserved x a
      unfold offered at hxa
      omega

/-! ## The takes of a block

The takes of a block are released at its end, unless their order is gone by then. The pledges of a
block are recorded beside the storage: what the `take` calls that returned have reserved. -/

/-- The pledges after an operation; a new block starts without any. -/
def pledge (cfg : Config A X) (s : State A X) (pledged : X → A → Nat) : Op A X → X → A → Nat
  | .take now (.signed who) id take =>
      match takeExtrinsic cfg now (.signed who) id take s, s.sellOrders.lookup id with
      | (.ok _, _), some order => fun x a =>
          pledged x a + if order.order.pair.quote = x ∧ who = a then take.quote take.amount else 0
      | _, _ => pledged
  | .finalize => fun _ _ => 0
  | _ => pledged

/-- A step of the storage with the pledges beside it. -/
def pledgedStep (cfg : Config A X) (t : State A X × (X → A → Nat)) (op : Op A X) :
    Option (State A X × (X → A → Nat)) :=
  (step cfg t.1 op).map fun s' => (s', pledge cfg t.1 t.2 op)

/-- No take loses its order: an order with takes is not removed by its owner, and an order
    id is left to hand out. -/
def KeepsTakes (cfg : Config A X) (s : State A X) : Op A X → Prop
  | .ask _ _ _ _ => s.ordersIndex < u128Max
  | .liquidate origin id => ∀ order ∈ s.sellOrders.lookup id,
      origin = .signed order.fromTo → ¬ RefundRefused cfg s order → s.takes.lookup id = none
  | _ => True

instance (cfg : Config A X) (s : State A X) : (op : Op A X) → Decidable (KeepsTakes cfg s op)
  | .ask _ _ _ _ => inferInstanceAs (Decidable (_ < _))
  | .take _ _ _ _ => inferInstanceAs (Decidable True)
  | .liquidate _ _ => inferInstanceAs (Decidable (∀ order ∈ _, _ → ¬ _ → _))
  | .finalize => inferInstanceAs (Decidable True)

/-- What account `a` gives up in `x` as a seller at the end of the block. -/
def State.given (s : State A X) (x : X) (a : A) : Nat :=
  (s.takes.keys.map fun id => (s.lot id).elim 0 fun lot => lot.given x a).sum

/-- Without takes an order can go. -/
theorem pending_liquidated {id : Nat} {order : SellOrder A X} (h : s.takes.lookup id = none) :
    pending (s.liquidated cfg order id) x a = pending s x a := by
  apply StorageMap.total_congr
  intro e he
  have hne : e.1 ≠ id := by
    intro heq
    have hsome : s.takes.lookup e.1 = some e.2 := AList.mem_lookup_iff.mpr he
    rw [heq, h] at hsome
    cases hsome
  unfold waiting
  rw [show (s.liquidated cfg order id).sellOrders.lookup e.1 = s.sellOrders.lookup e.1 from
    AList.lookup_erase_ne hne]

/-- The books are kept, and what is pending is what was pledged. -/
def Pledged (t : State A X × (X → A → Nat)) : Prop := Booked t.1 ∧ ∀ x a, pending t.1 x a = t.2 x a

/-- A failed `take` pledges nothing. -/
theorem pledge_of_failed {now id : Nat} {origin : RawOrigin A} {take : Take} {pledged : X → A → Nat}
    (hfail : ∀ u t, takeExtrinsic cfg now origin id take s ≠ (.ok u, t)) :
    pledge cfg s pledged (.take now origin id take) = pledged := by
  cases origin with
  | signed who =>
      rcases hcall : takeExtrinsic cfg now (.signed who) id take s with ⟨e | u, t⟩
      · simp only [pledge, hcall]
      · exact absurd hcall (hfail u t)
  | root => rfl
  | none => rfl

theorem Pledged.step {t t' : State A X × (X → A → Nat)} (h : Pledged t)
    (hkeeps : KeepsTakes cfg t.1 op) (hstep : pledgedStep cfg t op = some t') : Pledged t' := by
  obtain ⟨s, pledged⟩ := t
  obtain ⟨hbooked, hpending⟩ := h
  obtain ⟨s', hs', rfl⟩ := Option.map_eq_some_iff.mp hstep
  refine ⟨hbooked.step hs', fun x a => ?_⟩
  simp only at hpending hkeeps ⊢
  cases step_effect hs' with
  | askFailed hfailed =>
      rw [pending, hfailed.sellOrders, hfailed.takes]
      exact hpending x a
  | asked =>
      have hnext : nextOrderId s.ordersIndex = s.ordersIndex + 1 := nextOrderId_of_lt hkeeps
      have htakes : s.takes.lookup (nextOrderId s.ordersIndex) = none := by
        by_contra hne
        obtain ⟨takes, htakes⟩ := Option.ne_none_iff_exists'.mp hne
        have hle := hbooked.takes htakes
        simp only at hle
        omega
      rw [pending_asked htakes]
      exact hpending x a
  | @takeFailed now origin id take hfail =>
      rw [pledge_of_failed hfail]
      exact hpending x a
  | taken hok horder =>
      rw [pending_taken horder, hpending]
      simp only [pledge, hok, horder]
  | liquidateFailed => exact hpending x a
  | unlocked => exact hpending x a
  | liquidated horder hrefund =>
      rw [pending_liquidated (hkeeps _ horder rfl hrefund)]
      exact hpending x a
  | finalized hok =>
      obtain ⟨-, -, -, rfl⟩ := onFinalize_iff.mp hok
      rfl

/-- **Every take of a block is released at its end.** From any reachable state between two blocks,
    if no take of the block loses its order before the end, the takes are gone afterwards and of
    each account neither what it pledged for takes nor what it sold is reserved any more; nor is
    anything else that was, if the account died of a payment. -/
theorem block_releases_takes (cfg : Config A X) (ledger : Ledger A X) {past block : List (Op A X)}
    {s₀ s' : State A X} {t : State A X × (X → A → Nat)} {sales : List (Nat × Nat)}
    (hpast : run (step cfg) (State.genesis ledger) past = some s₀) (hstart : s₀.takes = ∅)
    (hblock : Along (pledgedStep cfg) (fun t => KeepsTakes cfg t.1) (s₀, fun _ _ => 0) block)
    (hrun : run (pledgedStep cfg) (s₀, fun _ _ => 0) block = some t)
    (hend : onFinalize cfg t.1 = (.ok sales, s')) :
    s'.takes = ∅ ∧
      (∀ x a, s'.ledger.reserved x a ≤ t.1.ledger.reserved x a - (t.2 x a + t.1.given x a)) ∧
      (t.1.Spares cfg (cfg.iteration t.1.takes.keys) t.1.ledger → ∀ x a, s'.ledger.reserved x a =
        t.1.ledger.reserved x a - (t.2 x a + t.1.given x a)) := by
  have hbooked : Booked s₀ :=
    run_invariant (C := fun _ _ => True) (fun h _ hstep => h.step hstep) (Booked.genesis ledger)
      (along_true _ _) hpast
  have hnone : ∀ x a, pending s₀ x a = 0 := fun x a => by
    rw [pending, hstart]
    rfl
  have hpledged : Pledged t :=
    run_invariant (fun h hkeeps hstep => h.step hkeeps hstep) ⟨hbooked, hnone⟩ hblock hrun
  obtain ⟨-, -, -, rfl⟩ := onFinalize_iff.mp hend
  have hperm := cfg.iteration_perm t.1.takes.keys
  -- What the orders release of an account is what it pledged in this block, and what it was given
  -- by asking.
  have hsum : ∀ x a, ((cfg.iteration t.1.takes.keys).map (t.1.released x a)).sum =
      t.2 x a + t.1.given x a := by
    intro x a
    rw [← hpledged.2 x a, (hperm.map _).sum_eq, pending,
      StorageMap.total_eq_sum_share (List.Perm.refl _), State.given, ← List.sum_map_add]
    congr 1
    apply List.map_congr_left
    intro id hid
    rw [share_waiting hid, State.released]
    cases t.1.lot id <;> rfl
  have hreserved := reserved_lots cfg t.1 t.1.ledger (cfg.iteration t.1.takes.keys)
  simp only [hsum] at hreserved
  -- Where a payment costs its sender more, nothing is left reserved.
  refine ⟨rfl, fun x a => ?_, fun hspares x a => (hreserved x a).resolve_right fun h => h.1 hspares⟩
  rcases hreserved x a with hkept | ⟨-, hnone⟩
  · exact hkept.le
  · exact hnone.le.trans (Nat.zero_le _)

/-- Half of an order is taken. -/
def halfTakenOps : List (Op Nat Nat) :=
  [.ask 0 (.signed 1) sampleSell sampleCurve, .take 0 (.signed 2) 1 ⟨5, Fixed.div⟩]

/-- The five that account `2` has pledged are not reserved after the block. -/
theorem block_releases_takes_sample :
    ∃ t sales s', run (pledgedStep (sample 0)) (State.genesis sampleLedger, fun _ _ => 0)
      halfTakenOps =
        some t ∧ onFinalize (sample 0) t.1 = (.ok sales, s') ∧
      t.2 2 2 = 5 ∧ t.1.ledger.reserved 2 2 = 5 ∧ s'.ledger.reserved 2 2 = 0 := by
  have hview :
      (run (pledgedStep (sample 0)) (State.genesis sampleLedger, fun _ _ => 0) halfTakenOps).map
      (fun t => (t.2 2 2, t.1.ledger.reserved 2 2, t.1.given 2 2,
        decide (t.1.Spares (sample 0) ((sample 0).iteration t.1.takes.keys) t.1.ledger),
        ((onFinalize (sample 0) t.1).1.toOption).isSome)) = some (5, 5, 0, true, true) := by
    decide +kernel
  obtain ⟨t, ht, hview⟩ := Option.map_eq_some_iff.mp hview
  simp only [Prod.mk.injEq, decide_eq_true_eq] at hview
  obtain ⟨hpledged, hreserved, hgiven, hspares, hok⟩ := hview
  rcases hend : onFinalize (sample 0) t.1 with ⟨e | sales, s'⟩
  · simp [hend, Except.toOption] at hok
  · have hblock : Along (pledgedStep (sample 0)) (fun t => KeepsTakes (sample 0) t.1)
        (State.genesis sampleLedger, fun _ _ => 0) halfTakenOps := by
      decide +kernel
    have hpast : run (step (sample 0)) (State.genesis sampleLedger) [] =
        some (State.genesis sampleLedger) := rfl
    have hfinal :=
      (block_releases_takes (sample 0) sampleLedger hpast rfl hblock ht hend).2.2 hspares 2 2
    rw [hpledged, hreserved, hgiven] at hfinal
    exact ⟨t, sales, s', ht, hend, hpledged, hreserved, hfinal⟩

/-- If the owner removes the order in the same block, the five stay reserved for good. -/
theorem block_keeps_take_reserved :
    ¬ ∀ block t sales s', run (pledgedStep (sample 0)) (State.genesis sampleLedger,
      fun _ _ => 0) block =
        some t → onFinalize (sample 0) t.1 = (.ok sales, s') →
      s'.takes = ∅ ∧ ∀ x a, s'.ledger.reserved x a =
        t.1.ledger.reserved x a - (t.2 x a + t.1.given x a) := by
  intro h
  have hview : (run (pledgedStep (sample 0)) (State.genesis sampleLedger, fun _ _ => 0)
      (halfTakenOps ++ [.liquidate (.signed 1) 1])).map
      (fun t => (t.2 2 2, t.1.ledger.reserved 2 2,
        (onFinalize (sample 0) t.1).1.toOption.map fun _ =>
          (onFinalize (sample 0) t.1).2.ledger.reserved 2 2)) = some (5, 5, some 5) := by
    decide +kernel
  obtain ⟨t, ht, hview⟩ := Option.map_eq_some_iff.mp hview
  simp only [Prod.mk.injEq] at hview
  obtain ⟨hpledged, hreserved, hend⟩ := hview
  rcases hcall : onFinalize (sample 0) t.1 with ⟨e | sales, s'⟩
  · simp [hcall, Except.toOption] at hend
  · have hfinal := (h _ t sales s' ht hcall).2 2 2
    simp [hcall, Except.toOption] at hend
    omega

end DutchAuction
end Composable
