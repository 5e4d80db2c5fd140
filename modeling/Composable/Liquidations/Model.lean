import Composable.DutchAuction.Effect

/-!
# `Liquidations.Model` — the liquidation engine

Embeds `frame/liquidations/src/lib.rs`: an order to liquidate a position is offered to the
configured strategies in turn, of which only auctions are implemented. The strategies are those of
genesis, since `add_liquidation_strategy` always fails. A strategy that fails leaves what it wrote.
-/

namespace Composable
namespace Liquidations

open DutchAuction (Sell TimeReleaseFunction AuctionCall)

inductive LiquidationStrategyConfiguration where
  | dutchAuction (configuration : TimeReleaseFunction)
  | uniswapV2 (slippage : Nat)
  | xcmDex (parachainId : Nat)
deriving DecidableEq, Repr

inductive Error where
  | noLiquidationEngineFound
deriving DecidableEq, Repr

structure Config (A X : Type) where
  auction : DutchAuction.Config A X
  strategies : Nat → Option LiquidationStrategyConfiguration
  defaultStrategyIndex : Nat

variable {A X : Type} [DecidableEq A] [DecidableEq X] (cfg : Config A X)

/-- A call of the engine, which acts on the auction. -/
abbrev LiquidationCall (A X α : Type) : Type :=
  Call (DutchAuction.State A X) (DispatchError Error) α

/-- The loop over the strategies: the order goes to the first auction that takes it. -/
def tryStrategies (now : Nat) (fromTo : A) (order : Sell X) : List Nat → LiquidationCall A X Nat
  | [] => Call.fail (.module .noLiquidationEngineFound)
  | id :: rest =>
      match cfg.strategies id with
      | some (.dutchAuction configuration) =>
          Call.orElse (DutchAuction.ask cfg.auction now fromTo order configuration)
            (tryStrategies now fromTo order rest)
      | some _ => Call.fail (.other "as for now, only auction liquidators implemented")
      | none => tryStrategies now fromTo order rest

/-- `Liquidation::liquidate`. -/
def liquidate (now : Nat) (fromTo : A) (order : Sell X) (configuration : List Nat) :
    LiquidationCall A X Nat :=
  tryStrategies cfg now fromTo order
    (if configuration.isEmpty then [cfg.defaultStrategyIndex] else configuration)

variable {cfg} {now : Nat} {fromTo : A} {order : Sell X} {s : DutchAuction.State A X}

/-- A liquidation fails with what an `ask` that fails keeps, and returns with what
    one that returns leaves. -/
theorem tryStrategies_outcome {I : DutchAuction.State A X → Prop}
    {P : Nat → DutchAuction.State A X → Prop}
    (hask : ∀ configuration s, I s → Call.Outcome P (fun _ => I)
      (DutchAuction.ask cfg.auction now fromTo order configuration s))
    {ids : List Nat} (hs : I s) :
    Call.Outcome P (fun _ => I) (tryStrategies cfg now fromTo order ids s) := by
  induction ids generalizing s with
  | nil => exact hs
  | cons id rest ih =>
      unfold tryStrategies
      cases cfg.strategies id with
      | none => exact ih hs
      | some strategy =>
          cases strategy with
          | dutchAuction configuration =>
              exact Call.outcome_orElse (hask configuration s hs) (fun _ ht => ht) fun _ ht => ih ht
          | _ => exact hs

/-- What every `ask` of an order keeps, whether it returns or fails, its liquidation keeps. -/
theorem liquidate_outcome {I : DutchAuction.State A X → Prop} {configuration : List Nat}
    (hask : ∀ configuration s, I s → Call.Outcome (fun _ => I) (fun _ => I)
      (DutchAuction.ask cfg.auction now fromTo order configuration s)) (hs : I s) :
    Call.Outcome (fun _ => I) (fun _ => I) (liquidate cfg now fromTo order configuration s) :=
  tryStrategies_outcome hask hs

/-- The same for a liquidation that found a strategy. -/
theorem liquidate_invariant {I : DutchAuction.State A X → Prop} {configuration : List Nat} {id : Nat}
    {s' : DutchAuction.State A X} (h : liquidate cfg now fromTo order configuration s = (.ok id, s'))
    (hask : ∀ configuration s, I s → Call.Outcome (fun _ => I) (fun _ => I)
      (DutchAuction.ask cfg.auction now fromTo order configuration s)) (hs : I s) : I s' :=
  (Call.outcome_iff.mp (liquidate_outcome hask hs)).1 id s' h

/-- A loop over the strategies that returns has put the order's amount on hold, once: what a failed
    `ask` wrote is a transfer. -/
theorem tryStrategies_sells {ids : List Nat} {reserved : X → A → Nat}
    (hs : s.ledger.reserved = reserved) :
    Call.Outcome (fun _ t => 0 < order.take.amount ∧ ∀ x c, t.ledger.reserved x c =
        reserved x c + if x = order.pair.base ∧ c = fromTo then order.take.amount else 0)
      (fun _ t => t.ledger.reserved = reserved) (tryStrategies cfg now fromTo order ids s) := by
  refine tryStrategies_outcome (fun configuration s hs => ?_) hs
  refine Call.outcome_iff.mpr ⟨fun _ t ht => ?_, fun _ t ht => ?_⟩
  · obtain ⟨hvalid, -, -, rfl⟩ := (Call.outcome_iff.mp DutchAuction.ask_outcome).1 _ _ ht
    have hpos : 0 < order.take.amount := by
      simp only [Sell.isValid, DutchAuction.Take.isValid, Bool.and_eq_true,
        decide_eq_true_eq] at hvalid
      exact hvalid.1
    refine ⟨hpos, fun x c => ?_⟩
    rw [← hs]
    rfl
  · obtain ⟨-, -, -, hsame | ⟨_, -, -, hmoved⟩⟩ :=
      (Call.outcome_iff.mp DutchAuction.ask_outcome).2 _ _ ht
    · rw [hsame, hs]
    · rw [hmoved, ← hs]
      rfl

/-- A liquidation that returns puts the amount of the order on hold. -/
theorem liquidate_sells {configuration : List Nat} {id : Nat} {s' : DutchAuction.State A X}
    (h : liquidate cfg now fromTo order configuration s = (.ok id, s')) :
    0 < order.take.amount ∧ ∀ x c, s'.ledger.reserved x c =
      s.ledger.reserved x c + if x = order.pair.base ∧ c = fromTo then order.take.amount else 0 :=
  (Call.outcome_iff.mp (tryStrategies_sells rfl)).1 id s' h

/-- **The same order again** goes to the same auction, if the deposit and the hold are accepted. -/
theorem tryStrategies_again {ids : List Nat} {id : Nat} {s' t : DutchAuction.State A X}
    (h : tryStrategies cfg now fromTo order ids s = (.ok id, s')) (hvalid : order.isValid = true)
    (hpaid : cfg.auction.currency.transferRefused t.ledger cfg.auction.nativeAsset fromTo
      cfg.auction.treasury cfg.auction.orderDeposit true = none)
    (hheld : cfg.auction.currency.holdRefused (t.ledger.move cfg.auction.nativeAsset fromTo
      cfg.auction.treasury cfg.auction.orderDeposit) order.pair.base fromTo order.take.amount =
        none) :
    ∃ id' configuration, tryStrategies cfg now fromTo order ids t =
      (.ok id', t.asked cfg.auction now fromTo order configuration) := by
  induction ids with
  | nil => cases h
  | cons id₀ rest ih =>
      unfold tryStrategies at h ⊢
      cases hstrategy : cfg.strategies id₀ with
      | none =>
          rw [hstrategy] at h
          exact ih h
      | some strategy =>
          rw [hstrategy] at h
          cases strategy with
          | dutchAuction configuration =>
              have hask : DutchAuction.askExtrinsic cfg.auction now (.signed fromTo) order
                  configuration t = (.ok _, _) :=
                DutchAuction.askExtrinsic_ok.mpr ⟨fromTo, rfl, hvalid, hpaid, hheld, rfl, rfl⟩
              exact ⟨_, configuration, Call.orElse_of_ok hask⟩
          | uniswapV2 slippage => cases h
          | xcmDex parachainId => cases h

/-- The same for a liquidation. -/
theorem liquidate_again {configuration : List Nat} {id : Nat} {s' t : DutchAuction.State A X}
    (h : liquidate cfg now fromTo order configuration s = (.ok id, s'))
    (hpaid : cfg.auction.currency.transferRefused t.ledger cfg.auction.nativeAsset fromTo
      cfg.auction.treasury cfg.auction.orderDeposit true = none)
    (hheld : cfg.auction.currency.holdRefused (t.ledger.move cfg.auction.nativeAsset fromTo
      cfg.auction.treasury cfg.auction.orderDeposit) order.pair.base fromTo order.take.amount =
        none) :
    ∃ id' curve, liquidate cfg now fromTo order configuration t =
      (.ok id', t.asked cfg.auction now fromTo order curve) := by
  refine tryStrategies_again h ?_ hpaid hheld
  refine (Call.outcome_iff.mp (tryStrategies_outcome (I := fun _ => True)
    (P := fun _ _ => order.isValid = true) (fun configuration t _ => ?_) trivial)).1 id s' h
  exact Call.outcome_iff.mpr ⟨fun _ _ hask =>
    ((Call.outcome_iff.mp DutchAuction.ask_outcome).1 _ _ hask).1, fun _ _ _ => trivial⟩

/-- What an order costs the account it is for, in asset `x`: what it offers, and the deposit. -/
def orderCost (cfg : Config A X) (order : Sell X) (x : X) : Nat :=
  (if x = order.pair.base then order.take.amount else 0) + if x = cfg.auction.nativeAsset then
    cfg.auction.orderDeposit else 0

/-- An `ask` takes the deposit, and what is offered; one that fails gives nothing to the account. -/
theorem ask_costs [cfg.auction.currency.Exact] {configuration : TimeReleaseFunction} {x : X}
    (hself : fromTo ≠ cfg.auction.treasury) :
    Call.Outcome (fun _ t => t.ledger.free x fromTo + orderCost cfg order x ≤ s.ledger.free x fromTo)
      (fun _ t => t.ledger.free x fromTo ≤ s.ledger.free x fromTo)
      (DutchAuction.ask cfg.auction now fromTo order configuration s) := by
  have hpaid : ∀ {l : Ledger A X} {n : Nat}, n ≤ l.free cfg.auction.nativeAsset fromTo →
      (l.move cfg.auction.nativeAsset fromTo cfg.auction.treasury n).free x fromTo +
        (if x = cfg.auction.nativeAsset then n else 0) = l.free x fromTo := by
    intro l n hle
    rw [Ledger.free_move_of_ne_dest hself]
    simp only [and_true]
    split
    next heq =>
      subst heq
      exact Nat.sub_add_cancel hle
    next => rfl
  refine Call.outcome_iff.mpr ⟨fun id t h => ?_, fun e t h => ?_⟩
  · obtain ⟨-, htransfer, hhold, rfl⟩ := (Call.outcome_iff.mp DutchAuction.ask_outcome).1 id t h
    have hdeposit := hpaid (cfg.auction.currency.funded_of_transfer htransfer hself)
    have hoffer := cfg.auction.currency.funded_of_hold hhold
    rw [DutchAuction.State.asked, Ledger.free_lock, orderCost]
    simp only [and_true]
    split
    next heq =>
      rw [← heq] at hoffer
      omega
    next => omega
  · obtain ⟨-, -, -, hsame | ⟨who, hwho, htransfer, hmoved⟩⟩ :=
      (Call.outcome_iff.mp DutchAuction.ask_outcome).2 e t h
    · rw [hsame]
    · obtain rfl := RawOrigin.signed.inj hwho
      rw [hmoved]
      exact Nat.le_of_add_right_le
        (hpaid (cfg.auction.currency.funded_of_transfer htransfer hself)).le

/-- **A liquidation costs** at least what it offers and one deposit. -/
theorem liquidate_costs [cfg.auction.currency.Exact] {configuration : List Nat} {id : Nat} {x : X}
    {s' : DutchAuction.State A X} (hself : fromTo ≠ cfg.auction.treasury)
    (h : liquidate cfg now fromTo order configuration s = (.ok id, s')) :
    s'.ledger.free x fromTo + orderCost cfg order x ≤ s.ledger.free x fromTo := by
  refine (Call.outcome_iff.mp
    (tryStrategies_outcome (I := fun t => t.ledger.free x fromTo ≤ s.ledger.free x fromTo)
    (P := fun _ t => t.ledger.free x fromTo + orderCost cfg order x ≤ s.ledger.free x fromTo)
    (fun configuration t ht => ?_) (Nat.le_refl _))).1 id s' h
  have hask : Call.Outcome (fun _ u => u.ledger.free x fromTo + orderCost cfg order x ≤
    t.ledger.free x fromTo)
      (fun _ u => u.ledger.free x fromTo ≤ t.ledger.free x fromTo)
      (DutchAuction.ask cfg.auction now fromTo order configuration t) := ask_costs hself
  obtain ⟨hok, herror⟩ := Call.outcome_iff.mp hask
  exact Call.outcome_iff.mpr ⟨fun _ _ hcall => (hok _ _ hcall).trans ht,
    fun _ _ hcall => (herror _ _ hcall).trans ht⟩

end Liquidations
end Composable
