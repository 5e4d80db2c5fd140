import Composable.DutchAuction.Atomicity
import Composable.Liquidations.Model

/-!
# `Liquidations.Atomicity` — what an order costs that is offered several times

The engine offers an order to one auction after the other and goes on when one refuses it. What the
refused `ask` has written stays, so an account that can pay the deposit but has too little to sell
pays for every attempt: `ask` takes the deposit before it reserves the base asset.

`PaidOnce` is what falling through strategies should come to, and `auctions_atomic_iff` says when it
does: if no auction is reached, or the order is not one that the auction charges for and refuses.
-/

namespace Composable
namespace Liquidations

open DutchAuction (Sell TimeReleaseFunction Accepted Charged Careful KeepsLocked Reserved)

variable {A X : Type} [DecidableEq A] [DecidableEq X]
variable {cfg : Config A X} {now : Nat} {fromTo : A} {order : Sell X} {s t : DutchAuction.State A X}
  {ids : List Nat}

/-! ## Strategies in turn -/

/-- An auction comes before any strategy that is not implemented. -/
def reachesAuction (cfg : Config A X) : List Nat → Bool
  | [] => false
  | id :: rest =>
      match cfg.strategies id with
      | some (.dutchAuction _) => true
      | some _ => false
      | none => reachesAuction cfg rest

/-- The strategies that `liquidate` tries. -/
def Config.tried (cfg : Config A X) (configuration : List Nat) : List Nat :=
  if configuration.isEmpty then [cfg.defaultStrategyIndex] else configuration

/-- A refused `ask` leaves the rest to the strategies that follow. -/
theorem ask_orElse {configuration : TimeReleaseFunction} {y : LiquidationCall A X Nat}
    (h : ¬ Accepted cfg.auction s.ledger fromTo order) :
    Call.orElse (DutchAuction.ask cfg.auction now fromTo order configuration) y s =
      y (s.refused cfg.auction fromTo order) := by
  obtain ⟨e, hpanic, hcall⟩ :
      ∃ e, e ≠ .panic ∧ DutchAuction.ask cfg.auction now fromTo order configuration s =
    (.error e, s.refused cfg.auction fromTo order) := DutchAuction.ask_refused h
  unfold Call.orElse
  rw [hcall]
  cases e with
  | panic => exact absurd rfl hpanic
  | _ => rfl

theorem tryStrategies_unreached (h : reachesAuction cfg ids = false) :
    ∃ e, tryStrategies cfg now fromTo order ids s = (.error e, s) := by
  induction ids with
  | nil => exact ⟨_, rfl⟩
  | cons id rest ih =>
      unfold reachesAuction at h
      unfold tryStrategies
      cases hstrategy : cfg.strategies id with
      | none =>
          rw [hstrategy] at h
          exact ih h
      | some strategy =>
          rw [hstrategy] at h
          cases strategy with
          | dutchAuction configuration => cases h
          | _ => exact ⟨_, rfl⟩

/-- The first auction refuses the order, and others are left. -/
theorem tryStrategies_refused (hreach : reachesAuction cfg ids = true)
    (h : ¬ Accepted cfg.auction s.ledger fromTo order) :
    ∃ rest, tryStrategies cfg now fromTo order ids s =
      tryStrategies cfg now fromTo order rest (s.refused cfg.auction fromTo order) := by
  induction ids with
  | nil => cases hreach
  | cons id rest ih =>
      unfold reachesAuction at hreach
      rw [tryStrategies]
      cases hstrategy : cfg.strategies id with
      | none =>
          rw [hstrategy] at hreach
          exact ih hreach
      | some strategy =>
          rw [hstrategy] at hreach
          cases strategy with
          | dutchAuction configuration => exact ⟨rest, ask_orElse h⟩
          | _ => cases hreach

/-! ## Orders that are paid for once -/

/-- One order is stored for one deposit; or the account keeps what it had. -/
def PaidOnce (cfg : Config A X) (now : Nat) (fromTo : A) (order : Sell X) (s : DutchAuction.State A X)
    (x : LiquidationCall A X Nat) : Prop :=
  Call.Outcome
    (fun id t => t.ledger = (s.ledger.move cfg.auction.nativeAsset fromTo cfg.auction.treasury
        cfg.auction.orderDeposit).lock order.pair.base fromTo order.take.amount ∧
      ∃ configuration, t.sellOrders =
        s.sellOrders.insert id ⟨fromTo, order, configuration, now, cfg.auction.orderDeposit⟩)
    (fun _ t => t.ledger = s.ledger ∧ t.sellOrders = s.sellOrders) (x s)

/-- Strategies fail with what refusals keep, and what holds of an order that is
    stored then holds in the end. -/
theorem tryStrategies_rule {I : DutchAuction.State A X → Prop}
    {P : Nat → DutchAuction.State A X → Prop}
    (hstored : ∀ t configuration, I t → Accepted cfg.auction t.ledger fromTo order →
      P (DutchAuction.nextOrderId t.ordersIndex) (t.asked cfg.auction now fromTo order configuration))
    (hrefused : ∀ t, I t → ¬ Accepted cfg.auction t.ledger fromTo order →
      I (t.refused cfg.auction fromTo order))
    (h : I t) : Call.Outcome P (fun _ t' => I t') (tryStrategies cfg now fromTo order ids t) := by
  refine tryStrategies_outcome (fun configuration t ht => ?_) h
  by_cases haccepted : Accepted cfg.auction t.ledger fromTo order
  · rw [DutchAuction.ask_accepted haccepted]
    exact hstored t configuration ht haccepted
  · obtain ⟨e, -, hcall⟩ :
        ∃ e, e ≠ .panic ∧ DutchAuction.ask cfg.auction now fromTo order configuration t =
      (.error e, t.refused cfg.auction fromTo order) := DutchAuction.ask_refused haccepted
    rw [hcall]
    exact hrefused t ht haccepted

/-- As long as refusals are free, the ledger and the orders are those of the first attempt. -/
theorem tryStrategies_free (hfree : ¬ Charged cfg.auction s.ledger fromTo order) :
    PaidOnce cfg now fromTo order s (tryStrategies cfg now fromTo order ids) := by
  refine tryStrategies_rule (fun t configuration h _ => ?_) (fun t h haccepted => ?_) ⟨rfl, rfl⟩
  · obtain ⟨hledger, horders⟩ := h
    refine ⟨?_, configuration, ?_⟩
    · rw [DutchAuction.State.asked, hledger]
    · rw [DutchAuction.State.asked, horders]
  · obtain ⟨hledger, horders⟩ := h
    obtain ⟨hcharged, -⟩ | ⟨-, hsame⟩ := DutchAuction.ledger_refused haccepted
    · rw [hledger] at hcharged
      exact absurd hcharged hfree
    · exact ⟨hsame.trans hledger, DutchAuction.sellOrders_refused.trans horders⟩

/-- The treasury never pays back: it has what it had, and another deposit if the order was
    stored. -/
theorem tryStrategies_treasury {n : Nat} (hseller : fromTo ≠ cfg.auction.treasury)
    (hn : n ≤ t.ledger.free cfg.auction.nativeAsset cfg.auction.treasury) :
    Call.Outcome
      (fun _ t' => n + cfg.auction.orderDeposit ≤
        t'.ledger.free cfg.auction.nativeAsset cfg.auction.treasury)
      (fun _ t' => n ≤ t'.ledger.free cfg.auction.nativeAsset cfg.auction.treasury)
      (tryStrategies cfg now fromTo order ids t) := by
  refine tryStrategies_rule (fun t configuration hn _ => ?_) (fun t hn haccepted => ?_) hn
  · show _ ≤ (Ledger.lock _ _ _ _).free _ _
    rw [Ledger.free_lock, if_neg fun h => hseller h.2.symm, Nat.sub_zero, Ledger.free_move_to hseller]
    exact Nat.add_le_add_right hn _
  · obtain ⟨-, hmoved⟩ | ⟨-, hsame⟩ := DutchAuction.ledger_refused haccepted
    · rw [hmoved, Ledger.free_move_to hseller]
      exact hn.trans (Nat.le_add_right _ _)
    · rw [hsame]
      exact hn

/-- **When an order is paid for once**: no auction is reached, or the order is not
    charged for and refused. -/
theorem paidOnce_iff {configuration : List Nat} :
    PaidOnce cfg now fromTo order s (liquidate cfg now fromTo order configuration) ↔
      (reachesAuction cfg (cfg.tried configuration) = true →
        ¬ Charged cfg.auction s.ledger fromTo order) := by
  show Call.Outcome _ _ (tryStrategies cfg now fromTo order (cfg.tried configuration) s) ↔ _
  constructor
  · intro hpaid hreach hcharged
    have hrefused : ¬ Accepted cfg.auction s.ledger fromTo order := fun h => hcharged.2.2.1 h.2.2
    obtain ⟨rest, hrest⟩ : ∃ rest, tryStrategies cfg now fromTo order (cfg.tried configuration) s =
      tryStrategies cfg now fromTo order rest (s.refused cfg.auction fromTo order) :=
        tryStrategies_refused hreach hrefused
    obtain ⟨-, hmoved⟩ := (DutchAuction.ledger_refused hrefused).resolve_right fun h => h.1 hcharged
    obtain ⟨-, -, -, hseller, hdeposit⟩ := hcharged
    -- One deposit is with the treasury before the others are tried; one more would be
    -- there had they succeeded.
    have htreasury : Call.Outcome _ _ (tryStrategies cfg now fromTo order rest
      (s.refused cfg.auction fromTo order)) := tryStrategies_treasury hseller (Nat.le_refl _)
    rw [hmoved, Ledger.free_move_to hseller, ← hrest] at htreasury
    rcases hcall : tryStrategies cfg now fromTo order (cfg.tried configuration) s with ⟨e | id, t⟩
    · rw [hcall] at hpaid htreasury
      have hsame : t.ledger = s.ledger := hpaid.1
      change _ ≤ t.ledger.free _ _ at htreasury
      rw [hsame] at htreasury
      omega
    · rw [hcall] at hpaid htreasury
      have hstored : t.ledger = _ := hpaid.1
      change _ ≤ t.ledger.free _ _ at htreasury
      rw [hstored, Ledger.free_lock, if_neg fun h => hseller h.2.symm, Nat.sub_zero,
        Ledger.free_move_to hseller] at htreasury
      omega
  · intro h
    by_cases hreach : reachesAuction cfg (cfg.tried configuration) = true
    · exact tryStrategies_free (h hreach)
    · obtain ⟨e, hcall⟩ :
          ∃ e, tryStrategies cfg now fromTo order (cfg.tried configuration) s = (.error e, s) :=
        tryStrategies_unreached (Bool.eq_false_iff.mpr hreach)
      rw [hcall]
      exact ⟨rfl, rfl⟩

/-! ## Orders that fail -/

/-- **When orders fail without a trace.** `ask` does if the order is invalid or accepted, or the ids
    have run out and no deposit is taken; `liquidate` of the auction if the owner is refunded or
    nothing was reserved. An order that is offered to several strategies is paid for once if no
    auction is reached, or the order is not charged for and refused. Along runs whose removals keep
    what is locked, whose orders find an id and whose finalised orders are sold completely, every
    stored order has its amount reserved. -/
theorem auctions_atomic_iff (cfg : Config A X) (s : DutchAuction.State A X) :
    (∀ now who order configuration,
      (DutchAuction.ask cfg.auction now who order configuration).Atomic s ↔
      order.isValid = false ∨ Accepted cfg.auction s.ledger who order ∨
        (s.ordersIndex = u128Max ∧ ¬ Charged cfg.auction s.ledger who order)) ∧
    (∀ now origin order configuration,
      (DutchAuction.askExtrinsic cfg.auction now origin order configuration).Atomic s ↔
        ∀ who, origin = .signed who → order.isValid = false ∨
          Accepted cfg.auction s.ledger who order ∨
          (s.ordersIndex = u128Max ∧ ¬ Charged cfg.auction s.ledger who order)) ∧
    (∀ origin id, (DutchAuction.liquidate cfg.auction origin id).Atomic s ↔
      KeepsLocked cfg.auction s origin id) ∧
    (∀ now fromTo order configuration,
      PaidOnce cfg now fromTo order s (liquidate cfg now fromTo order configuration) ↔
        (reachesAuction cfg (cfg.tried configuration) = true →
          ¬ Charged cfg.auction s.ledger fromTo order)) ∧
    ∀ ledger ops, Along (DutchAuction.step cfg.auction) (Careful cfg.auction) (.genesis ledger) ops →
      run (DutchAuction.step cfg.auction) (.genesis ledger) ops = some s → Reserved s := by
  refine ⟨fun now who order configuration => DutchAuction.ask_atomic,
    fun now origin order configuration => ?_,
    fun origin id => DutchAuction.liquidate_atomic, fun now fromTo order configuration =>
      paidOnce_iff,
    fun ledger ops hcareful hrun => DutchAuction.reserved_of_careful ledger hcareful hrun⟩
  -- The extrinsic is the call of the signer.
  rw [DutchAuction.askExtrinsic_atomic]
  exact forall_congr' fun who => imp_congr_right fun _ => DutchAuction.ask_atomic

/-- Two auctions, the first of which is the default. -/
def sampleEngine : Config Nat Nat where
  auction := DutchAuction.sample 0
  strategies id := if id = 1 ∨ id = 2 then some (.dutchAuction DutchAuction.sampleCurve) else none
  defaultStrategyIndex := 1

theorem auctions_atomic_sample : ∃ s, run (DutchAuction.step sampleEngine.auction)
      (.genesis DutchAuction.sampleLedger)
      [.ask 0 (.signed 1) DutchAuction.sampleSell DutchAuction.sampleCurve] =
        some s ∧ Reserved s ∧
      (DutchAuction.askExtrinsic sampleEngine.auction 0 (.signed 1) DutchAuction.sampleSell
        DutchAuction.sampleCurve).Atomic s ∧
      (DutchAuction.liquidate sampleEngine.auction (.signed 1) 1).Atomic s ∧
      PaidOnce sampleEngine 0 1 DutchAuction.sampleSell s
        (liquidate sampleEngine 0 1 DutchAuction.sampleSell [1, 2]) := by
  have hview : (run (DutchAuction.step sampleEngine.auction) (.genesis DutchAuction.sampleLedger)
      [.ask 0 (.signed 1) DutchAuction.sampleSell DutchAuction.sampleCurve]).map (fun s =>
        decide (Accepted sampleEngine.auction s.ledger 1 DutchAuction.sampleSell ∧
          KeepsLocked sampleEngine.auction s (.signed 1) 1)) = some true := by
    decide +kernel
  obtain ⟨s, hrun, hs⟩ := Option.map_eq_some_iff.mp hview
  obtain ⟨haccepted, hkeeps⟩ := of_decide_eq_true hs
  have hcareful : Along (DutchAuction.step sampleEngine.auction) (Careful sampleEngine.auction)
      (.genesis DutchAuction.sampleLedger)
      [.ask 0 (.signed 1) DutchAuction.sampleSell DutchAuction.sampleCurve] := by
    decide +kernel
  obtain ⟨-, hask, hliquidate, hpaid, hreserved⟩ := auctions_atomic_iff sampleEngine s
  refine ⟨s, hrun, hreserved _ _ hcareful hrun, (hask 0 _ _ _).mpr ?_, (hliquidate _ _).mpr hkeeps,
    (hpaid 0 1 DutchAuction.sampleSell [1, 2]).mpr fun _ hcharged => hcharged.2.2.1 haccepted.2.2⟩
  intro who hwho
  obtain rfl := RawOrigin.signed.inj hwho
  exact .inr (.inl haccepted)

/-- **Account `1` pays twice for an order that is never stored**: it has `100` to sell, not
    `1000`. -/
theorem refused_orders_cost : ∃ s t,
    DutchAuction.ask sampleEngine.auction 0 1 ⟨⟨1, 2⟩, ⟨1000, Fixed.div⟩⟩ DutchAuction.sampleCurve
      (.genesis DutchAuction.sampleLedger) = (.error (.token .noFunds), s) ∧
    s.ordersIndex = 1 ∧ s.ledger.free 0 1 = 9 ∧
    liquidate sampleEngine 0 1 ⟨⟨1, 2⟩, ⟨1000, Fixed.div⟩⟩
      [1, 2] (.genesis DutchAuction.sampleLedger) =
      (.error (.module .noLiquidationEngineFound), t) ∧
    t.sellOrders.lookup 1 = none ∧ t.ledger.free 0 1 = 8 ∧ DutchAuction.sampleLedger.free 0 1 = 10 :=
  ⟨_, _, rfl, rfl, rfl, rfl, rfl, rfl, rfl⟩

end Liquidations
end Composable
