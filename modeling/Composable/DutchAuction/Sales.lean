import Composable.DutchAuction.Reservations

/-!
# `DutchAuction.Sales` — what is sold of an order in its life

The storage does not remember what an order started with nor what was sold of it. A `History` does:
it is recorded from what the calls return, and `never_oversells` compares the two over whole runs.

`on_finalize` works on a decoded copy of the order and never stores what is left of it, so an order
that is sold in part can be sold again in full. In an orderly run no stored order has been sold in
part (`Accounted.unsold`), which is what keeps the books of `liquidate` right as well.
-/

namespace Composable
namespace DutchAuction

variable {A X : Type} [DecidableEq A] [DecidableEq X]
variable {cfg : Config A X} {op : Op A X}

/-! ## Histories -/

/-- For each order id, the amount it was asked for and the amount sold of it so far. -/
structure History where
  asked : Nat → Nat
  sold : Nat → Nat

namespace History

def empty : History := ⟨fun _ => 0, fun _ => 0⟩

/-- Order `id` was added. -/
def ask (h : History) (id amount : Nat) : History :=
  { h with asked := Function.update h.asked id amount }

/-- What the end of a block reports as sold. -/
def sell (h : History) (sales : List (Nat × Nat)) : History :=
  { h with sold := fun id => h.sold id + (sales.map fun sale => if sale.1 = id then sale.2
    else 0).sum }

/-- The history after an operation. -/
def record (cfg : Config A X) (s : State A X) (h : History) : Op A X → History
  | .ask now origin order configuration =>
      match askExtrinsic cfg now origin order configuration s with
      | (.ok id, _) => h.ask id order.take.amount
      | _ => h
  | .finalize =>
      match onFinalize cfg s with
      | (.ok sales, _) => h.sell sales
      | _ => h
  | _ => h

end History

/-- A step of the storage with the history beside it. -/
def recordedStep (cfg : Config A X) (t : State A X × History) (op : Op A X) :
    Option (State A X × History) :=
  (step cfg t.1 op).map fun s' => (s', t.2.record cfg t.1 op)

omit [DecidableEq A] [DecidableEq X] in
/-- A block sells of each order what its lot says. -/
theorem sell_sold {s : State A X} {h : History} {ids : List Nat} (hids : ids.Nodup)
    (hnone : ∀ id, id ∉ ids → s.sold id = 0) (id : Nat) :
    (h.sell (ids.map fun id => (id, s.sold id))).sold id = h.sold id + s.sold id := by
  show h.sold id + _ = _
  rw [List.map_map]
  congr 1
  have hsingle := List.sum_map_eq_nsmul_single (l := ids) id
    (fun i => if i = id then s.sold i else 0) (fun i hi _ => if_neg hi)
  refine hsingle.trans ?_
  rw [if_pos rfl]
  by_cases hmem : id ∈ ids
  · rw [List.count_eq_one_of_mem hids hmem, one_nsmul]
  · rw [hnone id hmem, nsmul_zero]

omit [DecidableEq A] [DecidableEq X] in
/-- An order without takes is not sold. -/
theorem sold_of_not_mem {s : State A X} {id : Nat} (h : id ∉ s.takes.keys) : s.sold id = 0 := by
  have htakes : s.takes.lookup id = none := AList.lookup_eq_none.mpr h
  rw [State.sold, State.lot, htakes]
  rfl

/-- The end of a block records what is sold of every lot. -/
theorem record_sold {s s' : State A X} {hist : History} {sales : List (Nat × Nat)}
    (h : onFinalize cfg s = (.ok sales, s')) (id : Nat) :
    (hist.record cfg s .finalize).sold id = hist.sold id + s.sold id := by
  obtain ⟨-, -, hsales, -⟩ := onFinalize_iff.mp h
  have hperm := cfg.iteration_perm s.takes.keys
  simp only [History.record, h, hsales]
  exact sell_sold (hperm.nodup_iff.mpr s.takes.keys_nodup)
    (fun i hi => sold_of_not_mem fun hmem => hi (hperm.mem_iff.mpr hmem)) id

/-- **What is recorded as sold is what is delivered**: the fills of the lot, which the end of the
    block carries out on the ledger. -/
theorem record_sold_fills {s s' : State A X} {hist : History} {sales : List (Nat × Nat)}
    (h : onFinalize cfg s = (.ok sales, s')) :
    s'.ledger = s.matched cfg (cfg.iteration s.takes.keys) s.ledger ∧
      ∀ id, (hist.record cfg s .finalize).sold id =
        hist.sold id + (s.lot id).elim 0 fun lot => (lot.fills.map Prod.snd).sum := by
  obtain ⟨-, -, -, rfl⟩ := onFinalize_iff.mp h
  refine ⟨rfl, fun id => ?_⟩
  rw [record_sold h, State.sold]
  congr 1
  cases s.lot id with
  | none => rfl
  | some lot =>
      have htotal : (lot.fills.map Prod.snd).sum =
          min lot.order.order.take.amount (demand (sortTakes lot.takes)) :=
        allot_total _ _
      exact (htotal.trans (congrArg _ (demand_perm (sortTakes_perm lot.takes)))).symm

/-! ## The accounts of an orderly run -/

/-- Nothing is oversold, and a stored order has its first amount and is unsold. -/
structure Accounted (t : State A X × History) : Prop where
  booked : Booked t.1
  reserved : Reserved t.1
  sold_le : ∀ id, t.2.sold id ≤ t.2.asked id
  unsold : ∀ {id order}, t.1.sellOrders.lookup id = some order →
    t.2.asked id = order.order.take.amount ∧ t.2.sold id = 0
  fresh : ∀ {id}, t.1.ordersIndex < id → t.2.sold id = 0

theorem Accounted.genesis (ledger : Ledger A X) :
    Accounted (State.genesis ledger, History.empty) where
  booked := Booked.genesis ledger
  reserved := fun _ _ => Nat.zero_le _
  sold_le := fun _ => Nat.le_refl _
  unsold := nofun
  fresh := fun _ => rfl

/-- An order that is not sold keeps its account; a cleared one is sold for what it was asked for. -/
theorem Accounted.sold_block {s : State A X} {h : History} (hacc : Accounted (s, h))
    (hcleared : ∀ id ∈ s.takes.keys, ∀ lot ∈ s.lot id, lot.Cleared) (id : Nat) :
    (id ∈ s.takes.keys ∧ s.clears id = true ∧ h.sold id + s.sold id = h.asked id) ∨
      s.sold id = 0 := by
  unfold State.clears State.sold
  cases hlot : s.lot id with
  | none => exact .inr rfl
  | some lot =>
      obtain ⟨htakes, horder⟩ := lot_eq_some.mp hlot
      have hmem : id ∈ s.takes.keys := AList.lookup_isSome.mp (by rw [htakes]; rfl)
      have hlotCleared : lot.Cleared := hcleared id hmem lot hlot
      obtain ⟨hasked, hsold⟩ := hacc.unsold horder
      refine .inl ⟨hmem, by simpa using hlotCleared, ?_⟩
      rw [hsold, hasked, Nat.zero_add]
      exact Nat.min_eq_left hlotCleared

/-- A new order has an account of its own. -/
theorem Accounted.asked {s : State A X} {hist : History} (h : Accounted (s, hist))
    (hleft : s.ordersIndex < u128Max)
    {now : Nat} {who : A} {order : Sell X} {configuration : TimeReleaseFunction}
    (hbooked : Booked (s.asked cfg now who order configuration))
    (hreserved : Reserved (s.asked cfg now who order configuration)) :
    Accounted (s.asked cfg now who order configuration,
      hist.ask (nextOrderId s.ordersIndex) order.take.amount) := by
  have hnext : nextOrderId s.ordersIndex = s.ordersIndex + 1 := nextOrderId_of_lt hleft
  have hunsold : hist.sold (nextOrderId s.ordersIndex) = 0 := h.fresh (by simp only; omega)
  refine ⟨hbooked, hreserved, fun id => ?_, fun {id order'} hid => ?_, fun {id} hid => ?_⟩
  · simp only [History.ask]
    by_cases heq : id = nextOrderId s.ordersIndex
    · rw [heq, hunsold]
      exact Nat.zero_le _
    · rw [Function.update_of_ne heq]
      exact h.sold_le id
  · simp only [History.ask]
    rcases StorageMap.lookup_insert_some.mp hid with ⟨rfl, rfl⟩ | ⟨hne, hold⟩
    · rw [Function.update_self]
      exact ⟨rfl, hunsold⟩
    · rw [Function.update_of_ne hne]
      exact h.unsold hold
  · exact h.fresh (Nat.lt_of_le_of_lt (le_nextOrderId h.booked.index) hid)

/-- The end of a block adds what is sold to the accounts. -/
theorem Accounted.finalized {s s' : State A X} {hist : History} (h : Accounted (s, hist))
    (hcleared : ∀ id ∈ s.takes.keys, ∀ lot ∈ s.lot id, lot.Cleared) {sales : List (Nat × Nat)}
    (hok : onFinalize cfg s = (.ok sales, s')) (hbooked : Booked s') (hreserved : Reserved s') :
    Accounted (s', hist.record cfg s .finalize) := by
  obtain ⟨-, -, hsales, rfl⟩ := onFinalize_iff.mp hok
  have hsold : ∀ id, (hist.record cfg s .finalize).sold id = hist.sold id + s.sold id :=
    record_sold hok
  have hasked : (hist.record cfg s .finalize).asked = hist.asked := by
    simp only [History.record, hok]
    rfl
  refine ⟨hbooked, hreserved, fun id => ?_, fun {id order} hid => ?_, fun {id} hid => ?_⟩
  · simp only [hsold, hasked]
    rcases h.sold_block hcleared id with ⟨-, -, heq⟩ | hzero
    · exact heq.le
    · rw [hzero]
      exact h.sold_le id
  · simp only [hsold, hasked]
    have hlookup := lookup_blockFinalized.symm.trans hid
    rcases h.sold_block hcleared id with ⟨-, hclears, -⟩ | hzero
    · rw [if_pos hclears] at hlookup
      cases hlookup
    · rw [hzero]
      split at hlookup
      · cases hlookup
      · exact h.unsold hlookup
  · simp only [hsold]
    rw [h.fresh hid, Nat.zero_add]
    refine sold_of_not_mem fun hmem => ?_
    obtain ⟨takes, htakes⟩ := Option.isSome_iff_exists.mp (AList.lookup_isSome.mpr hmem)
    exact absurd (h.booked.takes htakes) (Nat.not_le.mpr hid)

/-- **Orderly steps keep the accounts.** -/
theorem Accounted.step {t t' : State A X × History} (h : Accounted t) (horderly : Orderly cfg t.1 op)
    (hstep : recordedStep cfg t op = some t') : Accounted t' := by
  obtain ⟨s, hist⟩ := t
  obtain ⟨s', hs', rfl⟩ := Option.map_eq_some_iff.mp hstep
  have hbooked : Booked s' := h.booked.step hs'
  have hreserved : Reserved s' := Reserved.step h.booked h.reserved horderly hs'
  cases step_effect hs' with
  | @askFailed now origin order configuration _ hfailed hfail =>
      have hrecord : hist.record cfg s (.ask now origin order configuration) = hist := by
        rcases hcall : askExtrinsic cfg now origin order configuration s with ⟨e | id, t⟩
        · simp only [History.record, hcall]
        · exact absurd hcall (hfail id t)
      have hindex : s.ordersIndex ≤ s'.ordersIndex := by
        rcases hfailed.ordersIndex with heq | heq
        · exact heq.ge
        · exact heq ▸ le_nextOrderId h.booked.index
      rw [hrecord]
      exact ⟨hbooked, hreserved, h.sold_le, fun hid => h.unsold (hfailed.sellOrders ▸ hid),
        fun hid => h.fresh (Nat.lt_of_le_of_lt hindex hid)⟩
  | @asked now who order configuration hvalid hpaid hheld =>
      have hrecord : hist.record cfg s (.ask now (.signed who) order configuration) =
          hist.ask (nextOrderId s.ordersIndex) order.take.amount := by
        simp only [History.record, askExtrinsic_ok.mpr ⟨who, rfl, hvalid, hpaid, hheld, rfl, rfl⟩]
      rw [hrecord]
      exact h.asked horderly hbooked hreserved
  | takeFailed => exact ⟨hbooked, hreserved, h.sold_le, h.unsold, h.fresh⟩
  | taken => exact ⟨hbooked, hreserved, h.sold_le, h.unsold, h.fresh⟩
  | liquidateFailed => exact ⟨hbooked, hreserved, h.sold_le, h.unsold, h.fresh⟩
  | unlocked => exact ⟨hbooked, hreserved, h.sold_le, h.unsold, h.fresh⟩
  | @liquidated id =>
      exact ⟨hbooked, hreserved, h.sold_le,
        fun hid => h.unsold (StorageMap.lookup_erase_some.mp hid).2, h.fresh⟩
  | finalized hok => exact h.finalized horderly.1 hok hbooked hreserved

/-! ## Whole runs -/

/-- **The auction never oversells.** Over every orderly run no order is sold for more than it was
    asked for, and its owner gets back by `liquidate` exactly what was not sold. -/
theorem never_oversells (cfg : Config A X) (ledger : Ledger A X) {ops : List (Op A X)}
    {t : State A X × History}
    (hops : Along (recordedStep cfg) (fun t => Orderly cfg t.1) (State.genesis ledger,
      History.empty) ops)
    (hrun : run (recordedStep cfg) (State.genesis ledger, History.empty) ops = some t) :
    (∀ id, t.2.sold id ≤ t.2.asked id) ∧
      ∀ origin id s', liquidate cfg origin id t.1 = (.ok (), s') →
        ∃ order, t.1.sellOrders.lookup id = some order ∧ origin = .signed order.fromTo ∧
          ∀ x a, t.1.ledger.reserved x a = s'.ledger.reserved x a +
            if x = order.order.pair.base ∧
              a = order.fromTo then t.2.asked id - t.2.sold id else 0 := by
  have hacc : Accounted t :=
    run_invariant (fun h horderly hstep => h.step horderly hstep) (Accounted.genesis ledger) hops hrun
  refine ⟨hacc.sold_le, fun origin id s' hok => ?_⟩
  obtain ⟨order, horder, rfl, -, rfl⟩ := liquidate_ok.mp hok
  refine ⟨order, horder, rfl, fun x a => ?_⟩
  obtain ⟨hasked, hsold⟩ := hacc.unsold horder
  simp only [State.liquidated, State.unlocked, Ledger.reserved_move, Ledger.reserved_unlock,
    hasked, hsold, Nat.sub_zero]
  split
  next hxa =>
    obtain ⟨rfl, rfl⟩ := hxa
    -- The order is covered by what its owner has reserved.
    have hoffer : order.order.take.amount ≤ offered t.1 order.order.pair.base order.fromTo := by
      have hle := StorageMap.le_total (f := offer order.order.pair.base order.fromTo) horder
      rwa [offer, if_pos ⟨rfl, rfl⟩] at hle
    have hcovered := hacc.reserved order.order.pair.base order.fromTo
    omega
  next => omega

/-- An order is sold completely in one block. -/
def soldOutOps : List (Op Nat Nat) :=
  [.ask 0 (.signed 1) sampleSell sampleCurve, .take 0 (.signed 2) 1 ⟨12, Fixed.div⟩, .finalize]

theorem never_oversells_sample :
    ∃ t, run (recordedStep (sample 0)) (State.genesis sampleLedger, History.empty) soldOutOps =
      some t ∧
      t.2.sold 1 = 10 ∧ t.2.sold 1 ≤ t.2.asked 1 := by
  have hview :
      (run (recordedStep (sample 0)) (State.genesis sampleLedger, History.empty) soldOutOps).map
      (fun t => t.2.sold 1) = some 10 := by
    decide +kernel
  obtain ⟨t, ht, hsold⟩ := Option.map_eq_some_iff.mp hview
  have hops : Along (recordedStep (sample 0)) (fun t => Orderly (sample 0) t.1)
      (State.genesis sampleLedger, History.empty) soldOutOps := by
    decide +kernel
  exact ⟨t, ht, hsold, (never_oversells (sample 0) sampleLedger hops ht).1 1⟩

/-- Six of ten are taken in a first block, and six again in a second one. -/
def twiceTakenOps : List (Op Nat Nat) :=
  [.ask 0 (.signed 1) sampleSell sampleCurve, .take 0 (.signed 2) 1 ⟨6, Fixed.div⟩, .finalize,
    .take 0 (.signed 2) 1 ⟨6, Fixed.div⟩, .finalize]

/-- Twelve are then sold of an order for ten, and the order is still there. -/
theorem oversells :
    ¬ ∀ ops t, run (recordedStep (sample 0)) (State.genesis sampleLedger, History.empty) ops =
      some t →
      ∀ id, t.2.sold id ≤ t.2.asked id := by
  intro h
  have hview : (run (recordedStep (sample 0)) (State.genesis sampleLedger, History.empty)
      twiceTakenOps).map (fun t => (t.2.asked 1, t.2.sold 1, t.1.ledger.free 1 2)) =
      some (10, 12, 12) := by
    decide +kernel
  obtain ⟨t, ht, hview⟩ := Option.map_eq_some_iff.mp hview
  simp only [Prod.mk.injEq] at hview
  have hle := h twiceTakenOps t ht 1
  omega

end DutchAuction
end Composable
