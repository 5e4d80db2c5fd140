import Composable.DutchAuction.Sales

/-!
# `DutchAuction.Deposits` — the deposits of the stored orders

The seller pays a deposit for the order it stores, and the deposits of all orders are pooled in the
account of the pallet. `liquidate` pays the deposit back; `on_finalize` removes a completely filled
order and forgets that it had one.

Whatever the calls do, the account covers the deposits of the stored orders (`Guarded`): every
call that pays out of it removes an order. What is missing is on the other side,
`returnsDeposits_iff` says at which steps.
-/

namespace Composable
namespace DutchAuction

variable {A X : Type} [DecidableEq A] [DecidableEq X]
variable {cfg : Config A X} {s s' : State A X} {op : Op A X}

/-- The deposits of the stored orders. -/
def deposits (s : State A X) : Nat := StorageMap.total (fun _ order => order.deposit) s.sellOrders

/-- What the account of the pallet holds of the native asset. -/
def held (cfg : Config A X) (s : State A X) : Nat := s.ledger.balance cfg.nativeAsset cfg.treasury

/-! ## Orders that leave -/

/-- The sum of `g` over the orders of `s` that are no longer stored in `s'`. -/
def leaving (g : SellOrder A X → Nat) (s s' : State A X) : Nat :=
  StorageMap.total (fun id order => if s'.sellOrders.lookup id = some order then 0 else g order)
    s.sellOrders

/-- The deposits of the orders that leave. -/
def departed (s s' : State A X) : Nat := leaving SellOrder.deposit s s'

/-- The deposits of the orders of `a` that leave. -/
def departedOf (a : A) (s s' : State A X) : Nat :=
  leaving (fun order => if order.fromTo = a then order.deposit else 0) s s'

variable {g : SellOrder A X → Nat}

theorem leaving_eq_zero : leaving g s s' = 0 ↔
    ∀ id order, s.sellOrders.lookup id = some order → s'.sellOrders.lookup id ≠ some order →
      g order = 0 := by
  constructor
  · intro hzero id order horder hleft
    have hle := StorageMap.le_total
      (f := fun id order => if s'.sellOrders.lookup id = some order then 0 else g order) horder
    rw [if_neg hleft] at hle
    exact Nat.le_zero.mp (hle.trans hzero.le)
  · intro h
    apply StorageMap.total_eq_zero
    intro e he
    by_cases hstays : s'.sellOrders.lookup e.1 = some e.2
    · exact if_pos hstays
    · rw [if_neg hstays]
      exact h e.1 e.2 (AList.mem_lookup_iff.mpr he) hstays

theorem leaving_of_same (h : s'.sellOrders = s.sellOrders) : leaving g s s' = 0 := by
  rw [leaving_eq_zero, h]
  intro id order horder hleft
  exact absurd horder hleft

/-- An order that is removed leaves alone. -/
theorem leaving_liquidated {id : Nat} {order : SellOrder A X}
    (h : s.sellOrders.lookup id = some order) :
    leaving g s (s.liquidated cfg order id) = g order := by
  unfold leaving
  rw [← StorageMap.total_erase (k := id), StorageMap.share_of_lookup h, StorageMap.total_eq_zero,
    Nat.zero_add]
  · rw [if_neg]
    intro hstays
    rw [show (s.liquidated cfg order id).sellOrders.lookup id = none from AList.lookup_erase _
      _] at hstays
    cases hstays
  · intro e he
    exact if_pos (AList.mem_lookup_iff.mpr he)

/-! ## The account covers the deposits -/

/-- The pallet's account does not trade, and it holds the deposits of the stored orders. -/
structure Guarded (cfg : Config A X) (s : State A X) : Prop where
  sellers : ∀ {id order}, s.sellOrders.lookup id = some order → order.fromTo ≠ cfg.treasury
  takers : ∀ {id takes}, s.takes.lookup id = some takes → ∀ t ∈ takes, t.fromTo ≠ cfg.treasury
  covered : deposits s ≤ held cfg s

omit [DecidableEq A] [DecidableEq X] in
theorem Guarded.genesis (ledger : Ledger A X) : Guarded cfg (State.genesis ledger) :=
  ⟨nofun, nofun, Nat.zero_le _⟩

/-- The end of a block does not concern the account. -/
theorem Guarded.held_finalized (h : Guarded cfg s) {sales : List (Nat × Nat)}
    (hok : onFinalize cfg s = (.ok sales, s')) : held cfg s' = held cfg s := by
  apply onFinalize_balance ?_ hok
  intro id lot hlot
  obtain ⟨htakes, horder⟩ := lot_eq_some.mp hlot
  exact ⟨(h.sellers horder).symm, fun t ht => (h.takers htakes t ht).symm⟩

/-- The account pays the deposit of the order that is removed. -/
theorem Guarded.held_liquidated (h : Guarded cfg s) {id : Nat} {order : SellOrder A X}
    (horder : s.sellOrders.lookup id = some order) (hrefund : ¬ RefundRefused cfg s order) :
    held cfg s = held cfg (s.liquidated cfg order id) + order.deposit := by
  have hne : cfg.treasury ≠ order.fromTo := (h.sellers horder).symm
  have hfree : order.deposit ≤ (s.unlocked order).free cfg.nativeAsset cfg.treasury :=
    cfg.currency.funded_of_transfer (not_not.mp hrefund) hne
  have hbalance : (s.unlocked order).balance cfg.nativeAsset cfg.treasury = held cfg s :=
    Ledger.balance_unlock ..
  have hpaid : held cfg (s.liquidated cfg order id) = held cfg s - order.deposit := by
    rw [← hbalance]
    exact Ledger.balance_move_from hne hfree
  have hle : order.deposit ≤ held cfg s := hbalance ▸ hfree.trans (Nat.le_add_right _ _)
  omega

/-- The account gets the deposit of the order that is added. -/
theorem held_asked {now : Nat} {who : A} {order : Sell X} {configuration : TimeReleaseFunction}
    (h : who ≠ cfg.treasury) :
    held cfg (s.asked cfg now who order configuration) = held cfg s + cfg.orderDeposit := by
  show Ledger.balance (Ledger.lock ..) _ _ = _
  rw [Ledger.balance_lock_of_ne h.symm, Ledger.balance_move_to h]
  rfl

theorem deposits_asked_le {now : Nat} {who : A} {order : Sell X}
    {configuration : TimeReleaseFunction} :
    deposits (s.asked cfg now who order configuration) ≤ deposits s + cfg.orderDeposit := by
  have htotal := StorageMap.total_insert (f := fun _ order => order.deposit) (m := s.sellOrders)
    (k := nextOrderId s.ordersIndex) (v := ⟨who, order, configuration, now, cfg.orderDeposit⟩)
  exact (Nat.le_add_right _ _).trans htotal.le

/-- Nobody signs for the account, so a call that fails takes nothing from it. -/
theorem held_of_failed {origin : RawOrigin A} (h : AskFailed cfg s origin s')
    (hsigner : origin ≠ .signed cfg.treasury) : held cfg s ≤ held cfg s' := by
  unfold held
  rcases h.ledger with heq | ⟨who, rfl, -, heq⟩
  · rw [heq]
  · rw [heq]
    exact Ledger.le_balance_move_of_ne fun hwho => hsigner (hwho ▸ rfl)

/-- **The account stays guarded**, unless it signs itself. -/
theorem Guarded.step (h : Guarded cfg s) (hsigner : op.signer ≠ some cfg.treasury)
    (hstep : step cfg s op = some s') : Guarded cfg s' := by
  cases step_effect hstep with
  | @askFailed now origin order configuration _ hfailed =>
      have hsigned : origin ≠ .signed cfg.treasury := by
        rintro rfl
        exact hsigner rfl
      refine ⟨fun hid => h.sellers (hfailed.sellOrders ▸ hid),
        fun hid => h.takers (hfailed.takes ▸ hid), ?_⟩
      rw [deposits, hfailed.sellOrders]
      exact h.covered.trans (held_of_failed hfailed hsigned)
  | @asked now who order configuration =>
      have hwho : who ≠ cfg.treasury := fun heq => hsigner (congrArg some heq)
      refine ⟨fun {id old} hid => ?_, h.takers, ?_⟩
      · rcases StorageMap.lookup_insert_some.mp hid with ⟨-, rfl⟩ | ⟨-, hold⟩
        · exact hwho
        · exact h.sellers hold
      · rw [held_asked hwho]
        exact deposits_asked_le.trans (Nat.add_le_add_right h.covered _)
  | takeFailed => exact h
  | @taken now who id take order hok horder _ _ hheld =>
      have hwho : who ≠ cfg.treasury := fun heq => hsigner (congrArg some heq)
      refine ⟨h.sellers, fun {id' takes} hid t ht => ?_, ?_⟩
      · rcases State.mem_taken hid ht with ⟨old, hold, hwaiting⟩ | ⟨-, rfl⟩
        · exact h.takers hold t hwaiting
        · exact hwho
      · show deposits s ≤ Ledger.balance (Ledger.lock ..) _ _
        rw [Ledger.balance_lock_of_ne hwho.symm]
        exact h.covered
  | liquidateFailed => exact h
  | unlocked =>
      refine ⟨h.sellers, h.takers, ?_⟩
      show deposits s ≤ Ledger.balance (State.unlocked ..) _ _
      rw [State.unlocked, Ledger.balance_unlock]
      exact h.covered
  | @liquidated id order horder hrefund =>
      refine ⟨fun hid => h.sellers (StorageMap.lookup_erase_some.mp hid).2, h.takers, ?_⟩
      · have hpaid := h.held_liquidated horder hrefund
        have htotal : deposits (s.liquidated cfg order id) + order.deposit = deposits s := by
          rw [← StorageMap.share_of_lookup (f := fun _ order => order.deposit) horder]
          exact StorageMap.total_erase
        have hcovered := h.covered
        omega
  | finalized hok =>
      have hheld := h.held_finalized hok
      obtain ⟨-, -, -, rfl⟩ := onFinalize_iff.mp hok
      refine ⟨fun {id _} hid => ?_, fun hnone => ?_, ?_⟩
      · have hlookup := lookup_blockFinalized.symm.trans hid
        split at hlookup
        · cases hlookup
        · exact h.sellers hlookup
      · cases hnone
      · have htotal :=
          total_remaining s s.sellOrders (fun _ order => order.deposit) (iteration_nodup cfg s)
        have hcovered := h.covered
        show StorageMap.total (fun _ order => order.deposit) (s.remaining _ s.sellOrders) ≤ _
        unfold deposits at hcovered
        omega

/-! ## Deposits that come back -/

/-- The deposits of the orders that leave by `op` are paid back. A new order makes no order leave.
    At the end of a block the sellers are paid for what they sold as well, so there it is the
    account that is looked at. -/
def ReturnsDeposits (cfg : Config A X) (s : State A X) (op : Op A X) (s' : State A X) : Prop :=
  match op with
  | .ask _ _ _ _ => departed s s' = 0
  | .finalize => held cfg s = held cfg s' + departed s s'
  | .take _ _ _ _ | .liquidate _ _ => held cfg s = held cfg s' + departed s s' ∧
      ∀ a, a ≠ cfg.treasury → s'.ledger.balance cfg.nativeAsset a =
        s.ledger.balance cfg.nativeAsset a + departedOf a s s'

/-- The orders that an operation takes out of the storage without looking at their deposit: what is
    sold completely in a block and, once the ids are used up, the order that has the last id. -/
def Drops (cfg : Config A X) (s : State A X) : Op A X → Nat → SellOrder A X → Prop
  | .ask now (.signed who) order configuration, id, old => id = nextOrderId s.ordersIndex ∧
      order.isValid = true ∧
      cfg.currency.transferRefused s.ledger cfg.nativeAsset who cfg.treasury cfg.orderDeposit
        true = none ∧
      cfg.currency.holdRefused (s.ledger.move cfg.nativeAsset who cfg.treasury cfg.orderDeposit)
        order.pair.base who order.take.amount = none ∧
      old ≠ ⟨who, order, configuration, now, cfg.orderDeposit⟩
  | .finalize, id, _ => s.clears id = true
  | _, _, _ => False

/-- No order with a deposit is dropped. -/
def KeepsDeposits (cfg : Config A X) (s : State A X) (op : Op A X) : Prop :=
  ∀ id order, s.sellOrders.lookup id = some order → Drops cfg s op id order → order.deposit = 0

/-- When the orders and the native balances stay, there is nothing to pay back. -/
theorem paid_of_same (horders : s'.sellOrders = s.sellOrders)
    (hbalance : ∀ a, s'.ledger.balance cfg.nativeAsset a = s.ledger.balance cfg.nativeAsset a) :
    held cfg s = held cfg s' + departed s s' ∧ ∀ a, a ≠ cfg.treasury →
      s'.ledger.balance cfg.nativeAsset a =
      s.ledger.balance cfg.nativeAsset a + departedOf a s s' := by
  constructor
  · rw [departed, leaving_of_same horders]
    exact (hbalance _).symm
  · intro a _
    rw [departedOf, leaving_of_same horders]
    exact hbalance a

/-- The order that its owner removes is paid back. -/
theorem Guarded.paid_liquidated (h : Guarded cfg s) {id : Nat} {order : SellOrder A X}
    (horder : s.sellOrders.lookup id = some order) (hrefund : ¬ RefundRefused cfg s order) :
    ReturnsDeposits cfg s (.liquidate (.signed order.fromTo) id) (s.liquidated cfg order id) := by
  refine ⟨?_, fun a ha => ?_⟩
  · rw [departed, leaving_liquidated horder]
    exact h.held_liquidated horder hrefund
  · rw [departedOf, leaving_liquidated horder]
    have hbalance :
        (s.unlocked order).balance cfg.nativeAsset a = s.ledger.balance cfg.nativeAsset a :=
      Ledger.balance_unlock ..
    rw [← hbalance]
    by_cases hown : order.fromTo = a
    · subst hown
      rw [if_pos rfl]
      exact Ledger.balance_move_to ha.symm
    · rw [if_neg hown]
      exact Ledger.balance_move_of_ne ha (Ne.symm hown)

/-- What a new order takes out of the storage. -/
theorem dropped_asked {now id : Nat} {who : A} {order : Sell X} {configuration : TimeReleaseFunction}
    {old : SellOrder A X} (hold : s.sellOrders.lookup id = some old) :
    (s.asked cfg now who order configuration).sellOrders.lookup id ≠ some old ↔
      id = nextOrderId s.ordersIndex ∧ old ≠ ⟨who, order, configuration, now, cfg.orderDeposit⟩ := by
  by_cases heq : id = nextOrderId s.ordersIndex
  · subst heq
    simp only [State.asked, AList.lookup_insert, ne_eq, Option.some.injEq, true_and,
      eq_comm (a := old)]
  · simp [State.asked, AList.lookup_insert_ne heq, hold, heq]

/-- The end of a block takes out what is sold completely. -/
theorem dropped_finalized {sales : List (Nat × Nat)} (hok : onFinalize cfg s = (.ok sales, s'))
    {id : Nat} {order : SellOrder A X} (horder : s.sellOrders.lookup id = some order) :
    s'.sellOrders.lookup id ≠ some order ↔ s.clears id = true := by
  obtain ⟨-, -, -, rfl⟩ := onFinalize_iff.mp hok
  rw [lookup_blockFinalized, horder]
  constructor
  · intro hleft
    by_contra hstays
    exact hleft (if_neg hstays)
  · intro hclears
    rw [if_pos hclears]
    exact (Option.some_ne_none order).symm

/-- **A step returns the deposits of the orders that leave exactly when it drops none.** -/
theorem returnsDeposits_iff (h : Guarded cfg s) (hstep : step cfg s op = some s') :
    ReturnsDeposits cfg s op s' ↔ KeepsDeposits cfg s op := by
  cases step_effect hstep with
  | @askFailed now origin order configuration _ hfailed hfail =>
      refine iff_of_true (leaving_of_same hfailed.sellOrders) fun id old _ hdrops => ?_
      cases origin with
      | signed who =>
          obtain ⟨-, hvalid, hpaid, hheld, -⟩ := hdrops
          exact absurd (askExtrinsic_ok.mpr ⟨who, rfl, hvalid, hpaid, hheld, rfl, rfl⟩) (hfail _ _)
      | root => exact False.elim hdrops
      | none => exact False.elim hdrops
  | @asked now who order configuration hvalid hpaid hheld =>
      show departed _ _ = 0 ↔ _
      rw [departed, leaving_eq_zero]
      refine forall_congr' fun id => forall_congr' fun old => imp_congr_right fun hold => ?_
      rw [dropped_asked hold]
      simp only [Drops, hvalid, hpaid, hheld, true_and]
  | takeFailed =>
      exact iff_of_true (paid_of_same rfl fun _ => rfl) fun _ _ _ hdrops => False.elim hdrops
  | taken hok horder _ _ hheld =>
      refine iff_of_true (paid_of_same rfl fun a => ?_) fun _ _ _ hdrops => False.elim hdrops
      exact Ledger.balance_lock (cfg.currency.funded_of_hold hheld)
  | liquidateFailed =>
      exact iff_of_true (paid_of_same rfl fun _ => rfl) fun _ _ _ hdrops => False.elim hdrops
  | unlocked =>
      refine iff_of_true (paid_of_same rfl fun a => ?_) fun _ _ _ hdrops => False.elim hdrops
      exact Ledger.balance_unlock ..
  | liquidated horder hrefund =>
      exact iff_of_true (h.paid_liquidated horder hrefund) fun _ _ _ hdrops => False.elim hdrops
  | finalized hok =>
      show held cfg s = held cfg s' + departed s s' ↔ _
      have hzero : held cfg s = held cfg s' + departed s s' ↔ departed s s' = 0 := by
        rw [h.held_finalized hok]
        omega
      rw [hzero, departed, leaving_eq_zero]
      refine forall_congr' fun id => forall_congr' fun order => imp_congr_right fun horder => ?_
      rw [dropped_finalized hok horder]
      exact Iff.rfl

/-! ## Whole runs -/

/-- **Deposits come back.** In every run in which the pallet's account does not sign, the account
    covers the deposits of the stored orders all along; and every order that leaves gets its deposit
    back, exactly when no order with a deposit is sold completely or overwritten. -/
theorem deposits_returned_iff (cfg : Config A X) (ledger : Ledger A X) {ops : List (Op A X)}
    (hsigners : ∀ op ∈ ops, op.signer ≠ some cfg.treasury)
    (hrun : run (step cfg) (State.genesis ledger) ops = some s') :
    Throughout (step cfg) (fun s => deposits s ≤ held cfg s) (State.genesis ledger) ops ∧
      (Along (step cfg) (fun s op => ∀ s', step cfg s op = some s' → ReturnsDeposits cfg s op s')
          (State.genesis ledger) ops ↔
        Along (step cfg) (KeepsDeposits cfg) (State.genesis ledger) ops) := by
  have hops : Along (step cfg) (fun _ op => op.signer ≠ some cfg.treasury ∧
      True) (State.genesis ledger) ops :=
    Along.and_forall (along_true _ _) hsigners
  have hinv : ∀ {s : State A X} {op : Op A X} {s' : State A X}, Guarded cfg s →
      (op.signer ≠ some cfg.treasury ∧ True) → step cfg s op = some s' → Guarded cfg s' :=
    fun h hsigner hstep => h.step hsigner.1 hstep
  constructor
  · exact throughout_of_invariant hinv (fun h => h.covered) (Guarded.genesis ledger) hops
  -- The steps of the run are determined, so that one says of each what it did.
  · refine along_iff_of_run hinv (fun {s op s'} h _ hstep => ?_) (Guarded.genesis ledger) hops hrun
    rw [← returnsDeposits_iff h hstep]
    constructor
    · intro hreturns
      exact hreturns s' hstep
    · intro hreturns t ht
      exact Option.some.inj (hstep.symm.trans ht) ▸ hreturns

/-- An order that its owner removes in the block it was added in. -/
def withdrawnOps : List (Op Nat Nat) :=
  [.ask 0 (.signed 1) sampleSell sampleCurve, .liquidate (.signed 1) 1]

theorem deposits_returned_sample :
    (∃ s', run (step (sample 0)) (State.genesis sampleLedger) withdrawnOps = some s' ∧
      s'.ledger.balance 0 1 = sampleLedger.balance 0 1) ∧
    Along (step (sample 0)) (fun s op => ∀ s', step (sample 0) s op = some s' →
      ReturnsDeposits (sample 0) s op s')
      (State.genesis sampleLedger) withdrawnOps := by
  have hview : (run (step (sample 0)) (State.genesis sampleLedger) withdrawnOps).map
      (fun s => s.ledger.balance 0 1) = some (sampleLedger.balance 0 1) := by
    decide +kernel
  obtain ⟨s', hrun, hbalance⟩ := Option.map_eq_some_iff.mp hview
  refine ⟨⟨s', hrun, hbalance⟩,
    (deposits_returned_iff (sample 0) sampleLedger (by decide) hrun).2.mpr ?_⟩
  refine ⟨fun id order horder => ?_,
    fun t _ => ⟨fun _ _ _ hdrops => False.elim hdrops, fun _ _ => trivial⟩⟩
  cases horder

/-- All of an order is taken. -/
def takenOps : List (Op Nat Nat) :=
  [.ask 0 (.signed 1) sampleSell sampleCurve, .take 0 (.signed 2) 1 ⟨12, Fixed.div⟩]

/-- At the end of the block the order leaves, and its deposit of one stays. -/
theorem deposits_returned_fails :
    ¬ ∀ (ops : List (Op Nat Nat)) s', (∀ op ∈ ops, op.signer ≠ some (sample 0).treasury) →
      run (step (sample 0)) (State.genesis sampleLedger) ops = some s' →
      Along (step (sample 0)) (fun s op => ∀ s', step (sample 0) s op = some s' →
        ReturnsDeposits (sample 0) s op s')
        (State.genesis sampleLedger) ops := by
  intro h
  have hview : (run (step (sample 0)) (State.genesis sampleLedger) takenOps).bind (fun s =>
      (step (sample 0) s .finalize).map fun s' =>
        (held (sample 0) s, held (sample 0) s', departed s s')) =
      some (11, 11, 1) := by
    decide +kernel
  obtain ⟨s, hs, hview⟩ := Option.bind_eq_some_iff.mp hview
  obtain ⟨s', hs', hview⟩ := Option.map_eq_some_iff.mp hview
  simp only [Prod.mk.injEq] at hview
  obtain ⟨hbefore, hafter, hdeparted⟩ := hview
  have hrun :
      run (step (sample 0)) (State.genesis sampleLedger) (takenOps ++ [.finalize]) = some s' :=
    run_append.mpr ⟨s, hs, run_cons.mpr ⟨s', hs', rfl⟩⟩
  have hlast := (along_append.mp (h (takenOps ++ [.finalize]) s' (by decide) hrun)).2 s hs
  have hreturns : held (sample 0) s = held (sample 0) s' + departed s s' := hlast.1 s' hs'
  omega

end DutchAuction
end Composable
