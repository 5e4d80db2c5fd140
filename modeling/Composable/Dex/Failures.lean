import Composable.Dex.Routes

/-!
# `Dex.Failures` — trades that stop half-way

The exchange of one pool is all or nothing. The trades of the router are not: they exchange hop by
hop, and what the hops before a refused one have moved stays moved.

A hop pays the pool and takes from it (`Hop`), and a pool that has been traded with has more of its
quote asset or less of its base asset than before, whatever comes after (`Drifts`). So a trade that
fails leaves all balances alone exactly if it is refused before anything has moved: by the first
pool of the route, or after hops that exchanged nothing for nothing (`trades_atomic_iff`).
-/

namespace Composable
namespace Dex

open DutchAuction (CurrencyPair)

variable {A X F : Type} [DecidableEq A] [DecidableEq X]

/-! ## Hops -/

/-- What one exchange moves: the amount to the pool, a fee from there to the owner of the
    pool, and what is paid out. -/
structure Hop (A X : Type) where
  account : A
  owner : A
  quote : X
  base : X
  feeAsset : X
  amount : Nat
  fee : Nat
  out : Nat

namespace Hop

def paid (hop : Hop A X) (who : A) (l : Ledger A X) : Ledger A X :=
  l.move hop.quote who hop.account hop.amount

def charged (hop : Hop A X) (who : A) (l : Ledger A X) : Ledger A X :=
  (hop.paid who l).move hop.feeAsset hop.account hop.owner hop.fee

/-- The ledger after all three transfers. -/
def settled (hop : Hop A X) (who : A) (l : Ledger A X) : Ledger A X :=
  (hop.charged who l).move hop.base hop.account who hop.out

/-- The ledger refuses none of the transfers. -/
structure Accepted (cfg : Config A X F) (who : A) (hop : Hop A X) (l : Ledger A X) : Prop where
  paid : cfg.assets.transferRefused l hop.quote who hop.account hop.amount true = none
  charged :
    cfg.assets.transferRefused (hop.paid who l) hop.feeAsset hop.account hop.owner hop.fee
      false = none
  settled :
    cfg.assets.transferRefused (hop.charged who l) hop.base hop.account who hop.out false = none

end Hop

variable (cfg : Config A X F)

/-- The exchange of a node for an amount, if the pool is there and can price it. The fees of a
    StableSwap pool are of what is paid out, those of a constant-product pool of what is paid in. -/
def hopOf (s : State A X F) (q : Nat) : DexRouteNode → Option (Hop A X)
  | .curve poolId => do
      let pool ← s.curvePools poolId
      let (base, quote, lpFee, protocolFee) ← (Curve.doComputeSwap cfg poolId pool.pair q true
        s).1.toOption
      if lpFee + protocolFee ≤ u128Max then
        some ⟨cfg.curveAccount poolId, pool.owner, pool.pair.quote, pool.pair.base, pool.pair.base,
          quote, protocolFee, base⟩
      else none
  | .uniswap poolId => do
      let pool ← s.uniswapPools poolId
      let (base, quote, lpFee, ownerFee) ← (Uniswap.doComputeSwap cfg poolId pool.pair q true
        s).1.toOption
      if lpFee + ownerFee ≤ u128Max ∧ quote + (lpFee + ownerFee) ≤ u128Max then
        some ⟨cfg.uniswapAccount poolId, pool.owner, pool.pair.quote, pool.pair.base, pool.pair.quote,
          quote + (lpFee + ownerFee), ownerFee, base⟩
      else none

variable {cfg} {s s' t : State A X F} {who : A} {q n out : Nat} {l : Ledger A X} {hop : Hop A X}
variable {node : DexRouteNode} {route : List DexRouteNode} {pair : CurrencyPair X} {poolId : Nat}

omit [DecidableEq A] in
theorem Curve.doComputeSwap_reads : (Curve.doComputeSwap cfg poolId pair q true).Reads :=
  .bind (.bind .get fun _ => .ofOption _ _) fun _ => .bind Curve.getExchangeValue_reads fun _ =>
    .bind (.ofExcept _) fun _ => .pure _

omit [DecidableEq A] [DecidableEq X] in
theorem Uniswap.doComputeSwap_reads : (Uniswap.doComputeSwap cfg poolId pair q true).Reads :=
  .bind (.bind .get fun _ => .ofOption _ _) fun _ => .bind .get fun _ => .bind (.ofExcept _) fun _ =>
    .bind (.ofExcept _) fun _ => .bind (.ofExcept _) fun _ => .bind (.ensure _ _) fun _ => .pure _

omit [DecidableEq X] in
theorem samePair_refl (pair : CurrencyPair X) : samePair pair pair := .inl ⟨rfl, rfl⟩

/-- **An exchange of a node** goes through exactly if it can be priced and its
    transfers are accepted. -/
theorem nodeExchange_ok_iff :
    nodeExchange cfg who node q s = (.ok out, s') ↔
      ∃ hop, hopOf cfg s q node = some hop ∧ hop.Accepted cfg who s.ledger ∧ out = hop.out ∧
        s' = s.withLedger (hop.settled who s.ledger) := by
  cases node with
  | curve poolId =>
      simp only [nodeExchange, Curve.currencyPair, Curve.exchange, Call.transactional_ok,
        Call.bind_ok, Curve.doComputeSwap_reads.bind_ok, Curve.getPool_ok, Call.ensure_ok,
        transfer_ok, arithmetic_ok, Fixed.checked_ok, Call.pure_ok, exists_and_left,
        exists_and_right, exists_eq_left, exists_const, and_assoc]
      constructor
      · rintro ⟨_, t, ⟨pool, hpool, rfl, rfl⟩, pool', hpool', -, ⟨base, quote, lpFee, protocolFee⟩, hswap, -, hpaid,
          hfee, hsent, hfees, -, rfl, rfl⟩
        obtain rfl := Option.some.inj (hpool.symm.trans hpool')
        refine ⟨⟨cfg.curveAccount poolId, pool.owner, pool.pair.quote, pool.pair.base,
          pool.pair.base, quote, protocolFee, out⟩, ?_, ⟨hpaid, hfee, hsent⟩, rfl, rfl⟩
        simp only [hopOf, hpool, hswap, Option.bind_eq_bind, Option.bind_some, if_pos hfees]
      · rintro ⟨hop, hhop, haccepted, rfl, rfl⟩
        simp only [hopOf, Option.bind_eq_bind, Option.bind_eq_some_iff, Option.ite_none_right_eq_some,
          Option.some.injEq] at hhop
        obtain ⟨pool, hpool, ⟨base, quote, lpFee, protocolFee⟩, hswap, hfees, rfl⟩ := hhop
        exact ⟨_, s, ⟨pool, hpool, rfl, rfl⟩, pool, hpool, samePair_refl _, _, hswap, Nat.zero_le _,
          haccepted.paid, haccepted.charged, haccepted.settled, hfees, ⟨_, rfl⟩, rfl, rfl⟩
  | uniswap poolId =>
      simp only [nodeExchange, Uniswap.currencyPair, Uniswap.exchange, Call.transactional_ok,
        Call.bind_ok, Uniswap.doComputeSwap_reads.bind_ok, Uniswap.getPool_ok, Call.ensure_ok,
        transfer_ok, arithmetic_ok, Fixed.checked_ok, Call.pure_ok, exists_and_left, exists_eq_left,
        exists_const, and_assoc]
      constructor
      · rintro ⟨_, t, ⟨pool, hpool, rfl, rfl⟩, pool', hpool', -, ⟨base, quote, lpFee, ownerFee⟩, hswap, hfees, hfits, -,
          hpaid, hfee, hsent, rfl, rfl⟩
        obtain rfl := Option.some.inj (hpool.symm.trans hpool')
        refine ⟨⟨cfg.uniswapAccount poolId, pool.owner, pool.pair.quote, pool.pair.base,
          pool.pair.quote,
          quote + (lpFee + ownerFee), ownerFee, out⟩, ?_, ⟨hpaid, hfee, hsent⟩, rfl, rfl⟩
        have hfit := And.intro hfees hfits
        simp only [hopOf, hpool, hswap, Option.bind_eq_bind, Option.bind_some, if_pos hfit]
      · rintro ⟨hop, hhop, haccepted, rfl, rfl⟩
        simp only [hopOf, Option.bind_eq_bind, Option.bind_eq_some_iff, Option.ite_none_right_eq_some,
          Option.some.injEq] at hhop
        obtain ⟨pool, hpool, ⟨base, quote, lpFee, ownerFee⟩, hswap, ⟨hfees, hfits⟩, rfl⟩ := hhop
        exact ⟨_, s, ⟨pool, hpool, rfl, rfl⟩, pool, hpool, samePair_refl _, _, hswap, hfees, hfits,
          Nat.zero_le _, haccepted.paid, haccepted.charged, haccepted.settled, rfl, rfl⟩

/-! ## Pools -/

def nodeAccount (cfg : Config A X F) : DexRouteNode → A
  | .curve poolId => cfg.curveAccount poolId
  | .uniswap poolId => cfg.uniswapAccount poolId

def nodeOwner (s : State A X F) : DexRouteNode → Option A
  | .curve poolId => (s.curvePools poolId).map StableSwapPoolInfo.owner
  | .uniswap poolId => (s.uniswapPools poolId).map ConstantProductPoolInfo.owner

/-- The account is not that of a pool, and so one that can sign. -/
def Outside (cfg : Config A X F) (a : A) : Prop := ∀ node, nodeAccount cfg node ≠ a

/-- Pools exchange two different assets, their owners are outside, and their ids are in
    the range of their types. -/
structure Proper (cfg : Config A X F) (s : State A X F) : Prop where
  within : ∀ node {pair}, nodePair s node = some pair → node.poolId ≤ cfg.maxPoolId
  pair_ne : ∀ node {pair}, nodePair s node = some pair → pair.base ≠ pair.quote
  owner : ∀ node {owner}, nodeOwner s node = some owner → Outside cfg owner

omit [DecidableEq A] [DecidableEq X] in
theorem Proper.genesis (ledger : Ledger A X) (factory : F) :
    Proper cfg (State.genesis ledger factory) := by
  constructor <;> intro node <;> cases node <;> exact nofun

omit [DecidableEq A] [DecidableEq X] in
theorem nodeExists_of_pair (h : nodePair s node = some pair) : nodeExists s node = true := by
  cases node with
  | curve poolId => exact (Option.isSome_map.symm.trans (Option.isSome_of_eq_some h))
  | uniswap poolId => exact (Option.isSome_map.symm.trans (Option.isSome_of_eq_some h))

omit [DecidableEq A] [DecidableEq X] in
theorem LedgerOnly.nodePair (h : LedgerOnly s s') : nodePair s' node = nodePair s node := by
  rw [h]
  cases node <;> rfl

omit [DecidableEq A] [DecidableEq X] in
theorem LedgerOnly.proper (h : LedgerOnly s s') (hs : Proper cfg s) : Proper cfg s' := by
  rw [h]
  refine ⟨fun node {pair} hpair => hs.within node (show Dex.nodePair s node = some pair from ?_),
    fun node {pair} hpair => hs.pair_ne node ?_, fun node {owner} howner => hs.owner node ?_⟩
  · cases node <;> exact hpair
  · cases node <;> exact hpair
  · cases node <;> exact howner

/-- What is known of the exchange of a node: a fee in the quote asset is less than the amount. -/
structure Hop.At (cfg : Config A X F) (s : State A X F) (q : Nat) (node : DexRouteNode)
    (hop : Hop A X) : Prop where
  account : hop.account = nodeAccount cfg node
  pair : nodePair s node = some ⟨hop.base, hop.quote⟩
  owner : nodeOwner s node = some hop.owner
  amount : hop.amount = q
  fee : hop.feeAsset = hop.base ∨ hop.feeAsset = hop.quote ∧ hop.fee < hop.amount

omit [DecidableEq A] in
theorem hopOf_at (h : hopOf cfg s q node = some hop) : hop.At cfg s q node := by
  cases node with
  | curve poolId =>
      simp only [hopOf, Option.bind_eq_bind, Option.bind_eq_some_iff, Option.ite_none_right_eq_some,
        Option.some.injEq] at h
      obtain ⟨pool, hpool, ⟨base, quote, lpFee, protocolFee⟩, hswap, -, rfl⟩ := h
      obtain ⟨_, value, -, -, -, -, -, rfl, -⟩ :=
        Curve.doComputeSwap_ok (Curve.doComputeSwap_reads.ok_of_toOption hswap)
      refine ⟨rfl, ?_, ?_, rfl, .inl rfl⟩
      · simp only [nodePair, hpool, Option.map_some]
      · simp only [nodeOwner, hpool, Option.map_some]
  | uniswap poolId =>
      simp only [hopOf, Option.bind_eq_bind, Option.bind_eq_some_iff, Option.ite_none_right_eq_some,
        Option.some.injEq] at h
      obtain ⟨pool, hpool, ⟨base, quote, lpFee, ownerFee⟩, hswap, -, rfl⟩ := h
      obtain ⟨_, -, -, -, hamount, -, ⟨-, hnet⟩, -⟩ :=
        Uniswap.doComputeSwap_ok (Uniswap.doComputeSwap_reads.ok_of_toOption hswap)
      refine ⟨rfl, ?_, ?_, hamount, .inr ⟨rfl, ?_⟩⟩
      · simp only [nodePair, hpool, Option.map_some]
      · simp only [nodeOwner, hpool, Option.map_some]
      · show ownerFee < quote + (lpFee + ownerFee)
        omega

/-- What a hop does to the account of a pool, its own or another one. -/
theorem Hop.balance_settled {x : X} {c : A} (h : hop.Accepted cfg who l) (hwho : c ≠ who)
    (howner : c ≠ hop.owner) :
    (hop.settled who l).balance x c + ((if x = hop.feeAsset ∧ c = hop.account then hop.fee else 0) +
        if x = hop.base ∧ c = hop.account then hop.out else 0) =
      l.balance x c + if x = hop.quote ∧ c = hop.account then hop.amount else 0 := by
  have hpaid := Ledger.balance_move_add (x := x) (c := c) (cfg.assets.funded_of_transfer h.paid)
  have hcharged := Ledger.balance_move_add (x := x) (c := c) (cfg.assets.funded_of_transfer h.charged)
  have hsettled := Ledger.balance_move_add (x := x) (c := c) (cfg.assets.funded_of_transfer h.settled)
  have hquote : ¬ (x = hop.quote ∧ c = who) := fun heq => hwho heq.2
  have hbase : ¬ (x = hop.base ∧ c = who) := fun heq => hwho heq.2
  have hfee : ¬ (x = hop.feeAsset ∧ c = hop.owner) := fun heq => howner heq.2
  rw [if_neg hquote] at hpaid
  rw [if_neg hfee] at hcharged
  rw [if_neg hbase] at hsettled
  unfold Hop.settled Hop.charged Hop.paid at *
  omega

/-- The hop moves nothing. -/
def Hop.Idle (hop : Hop A X) : Prop := hop.amount = 0 ∧ hop.fee = 0 ∧ hop.out = 0

theorem Hop.Idle.settled (h : hop.Idle) : hop.settled who l = l := by
  obtain ⟨hamount, hfee, hout⟩ := h
  rw [Hop.settled, Hop.charged, Hop.paid, hamount, hfee, hout, Ledger.move_zero, Ledger.move_zero,
    Ledger.move_zero]

/-- The pool of a hop keeps something of the quote asset or loses something of the base
    asset, or the hop is idle. -/
theorem Hop.settled_account (hat : hop.At cfg s q node) (hne : hop.base ≠ hop.quote)
    (h : hop.Accepted cfg who l) (hwho : hop.account ≠ who) (howner : hop.account ≠ hop.owner) :
    ∃ kept lost, (hop.settled who l).balance hop.quote hop.account =
      l.balance hop.quote hop.account + kept ∧
      (hop.settled who l).balance hop.base hop.account + lost = l.balance hop.base hop.account ∧
      (kept = 0 → lost = 0 → hop.Idle) := by
  have hquote := Hop.balance_settled (x := hop.quote) h hwho howner
  have hbase := Hop.balance_settled (x := hop.base) h hwho howner
  simp only [hne, hne.symm, and_true, if_true, if_false, Nat.add_zero] at hquote hbase
  rcases hat.fee with hfee | ⟨hfee, hlt⟩
  -- The fee is of what is paid out, and the pool keeps the whole amount.
  · simp only [hfee, hne.symm, if_true, if_false, Nat.add_zero] at hquote hbase
    exact ⟨hop.amount, hop.fee + hop.out, hquote, hbase,
      fun hkept hlost => ⟨hkept, by omega, by omega⟩⟩
  -- The fee is of the amount, and the pool keeps the rest, which is not nothing.
  · simp only [hfee, hne, if_true, if_false, Nat.zero_add] at hquote hbase
    exact ⟨hop.amount - hop.fee, hop.out, by omega, hbase, fun hkept hlost => by omega⟩

/-- Only balances have changed, and pools have no less of their quote asset than before and no
    more of their base asset. -/
structure Drifts (cfg : Config A X F) (s t : State A X F) : Prop where
  only : LedgerOnly s t
  quote : ∀ {node pair}, nodePair s node = some pair →
    s.ledger.balance pair.quote (nodeAccount cfg node) ≤
      t.ledger.balance pair.quote (nodeAccount cfg node)
  base : ∀ {node pair}, nodePair s node = some pair →
    t.ledger.balance pair.base (nodeAccount cfg node) ≤
      s.ledger.balance pair.base (nodeAccount cfg node)

omit [DecidableEq A] [DecidableEq X] in
theorem Drifts.refl (s : State A X F) : Drifts cfg s s :=
  ⟨.refl s, fun _ => Nat.le_refl _, fun _ => Nat.le_refl _⟩

omit [DecidableEq A] [DecidableEq X] in
theorem Drifts.trans (h : Drifts cfg s t) (h' : Drifts cfg t s') : Drifts cfg s s' := by
  refine ⟨h.only.trans h'.only, fun hpair => ?_, fun hpair => ?_⟩
  · exact (h.quote hpair).trans (h'.quote (h.only.nodePair.trans hpair))
  · exact (h'.base (h.only.nodePair.trans hpair)).trans (h.base hpair)

section Outsiders

variable (haccounts : Set.InjOn (nodeAccount cfg) {node | node.poolId ≤ cfg.maxPoolId})
  (hwho : Outside cfg who)
include haccounts hwho

/-- **A hop drifts.** -/
theorem Hop.drifts (hs : Proper cfg s) (hat : hop.At cfg s q node)
    (h : hop.Accepted cfg who s.ledger) :
    Drifts cfg s (s.withLedger (hop.settled who s.ledger)) := by
  have howner := hs.owner node hat.owner
  have hne := hs.pair_ne node hat.pair
  have hother : ∀ {node' pair}, nodePair s node' = some pair → node' ≠ node →
      ∀ x, (hop.settled who s.ledger).balance x (nodeAccount cfg node') =
      s.ledger.balance x (nodeAccount cfg node') := by
    intro node' pair hpair hnode x
    have hbalance := Hop.balance_settled (x := x) h (hwho node') (howner node')
    have haccount : nodeAccount cfg node' ≠ hop.account := fun heq =>
      hnode (haccounts (hs.within node' hpair) (hs.within node hat.pair) (heq.trans hat.account))
    simpa only [haccount, and_false, if_false, Nat.add_zero] using hbalance
  obtain ⟨kept, lost, hkept, hlost, -⟩ :=
    Hop.settled_account hat hne h (hat.account ▸ hwho node) (hat.account ▸ howner node)
  rw [hat.account] at hkept hlost
  refine ⟨rfl, fun {node' pair} hpair => ?_, fun {node' pair} hpair => ?_⟩
  · by_cases hnode : node' = node
    · subst hnode
      obtain rfl := Option.some.inj (hat.pair.symm.trans hpair)
      exact Nat.le.intro hkept.symm
    · exact (hother hpair hnode _).ge
  · by_cases hnode : node' = node
    · subst hnode
      obtain rfl := Option.some.inj (hat.pair.symm.trans hpair)
      exact Nat.le.intro hlost
    · exact (hother hpair hnode _).le

theorem nodeExchange_drifts (hs : Proper cfg s) (h : nodeExchange cfg who node q s = (.ok out, s')) :
    Drifts cfg s s' := by
  obtain ⟨hop, hhop, haccepted, -, rfl⟩ := nodeExchange_ok_iff.mp h
  exact Hop.drifts haccounts hwho hs (hopOf_at hhop) haccepted

/-- **What a route leaves**, also when it fails half-way. By induction on the route. -/
theorem exchangeAlong_drifts (hs : Proper cfg s) :
    Call.Outcome (fun _ => Drifts cfg s) (fun _ => Drifts cfg s)
      (exchangeAlong cfg who route q n s) := by
  induction route generalizing s q n with
  | nil => exact .refl s
  | cons node route ih =>
      rw [exchangeAlong, Call.outcome_bind]
      refine Call.outcome_iff.mpr ⟨fun dy t ht => ?_, fun e t ht => ?_⟩
      · have hdrift := nodeExchange_drifts haccounts hwho hs ht
        exact (ih (hdrift.only.proper hs)).imp (fun _ _ h => hdrift.trans h) fun _ _ h =>
          hdrift.trans h
      · rw [nodeExchange_atomic cfg who node q s e t ht]
        exact .refl s

end Outsiders

/-! ## Routes -/

/-- All hops of the route are accepted, each with what the one before has paid out. -/
def Settles (cfg : Config A X F) (who : A) : List DexRouteNode → Nat → State A X F → Prop
  | [], _, _ => True
  | node :: route, q, s => ∃ hop, hopOf cfg s q node = some hop ∧ hop.Accepted cfg who s.ledger ∧
      Settles cfg who route hop.out (s.withLedger (hop.settled who s.ledger))

/-- A hop is refused, and those before it are idle. -/
def RefusedAtOnce (cfg : Config A X F) (who : A) (s : State A X F) : List DexRouteNode → Nat → Prop
  | [], _ => False
  | node :: route, q => (∀ hop, hopOf cfg s q node = some hop → ¬ hop.Accepted cfg who s.ledger) ∨
      ∃ hop, hopOf cfg s q node = some hop ∧ hop.Accepted cfg who s.ledger ∧ hop.Idle ∧
        RefusedAtOnce cfg who s route 0

/-- All of the hops are accepted, or one is refused before anything has moved. -/
def NeverHalfway (cfg : Config A X F) (who : A) (route : List DexRouteNode) (q : Nat)
    (s : State A X F) : Prop :=
  Settles cfg who route q s ∨ RefusedAtOnce cfg who s route q

/-- If the call fails, the balances of the caller and of all pools are as before. -/
def AllOrNothing (cfg : Config A X F) (who : A) (x : DexCall A X F Nat) (s : State A X F) : Prop :=
  ∀ e s', x s = (.error e, s') → (∀ y, s'.ledger.balance y who = s.ledger.balance y who) ∧
    ∀ node, nodeExists s node = true → ∀ y,
      s'.ledger.balance y (nodeAccount cfg node) = s.ledger.balance y (nodeAccount cfg node)

omit [DecidableEq A] [DecidableEq X] in
theorem allOrNothing_of_atomic {x : DexCall A X F Nat} (h : x.Atomic s) :
    AllOrNothing cfg who x s := by
  intro e s' hx
  rw [h e s' hx]
  exact ⟨fun y => rfl, fun node _ y => rfl⟩

omit [DecidableEq A] [DecidableEq X] in
theorem allOrNothing_of_error {x : DexCall A X F Nat} {e : DispatchError Error}
    (h : x s = (.error e, s)) : AllOrNothing cfg who x s :=
  allOrNothing_of_atomic fun _ _ hfail => (congrArg Prod.snd (h.symm.trans hfail)).symm

omit [DecidableEq A] [DecidableEq X] in
theorem allOrNothing_congr {x y : DexCall A X F Nat} (h : x s = y s) :
    AllOrNothing cfg who x s ↔ AllOrNothing cfg who y s := by
  rw [AllOrNothing, h, AllOrNothing]

/-- A route goes through exactly if it settles. -/
theorem exchangeAlong_ok_iff :
    (∃ out s', exchangeAlong cfg who route q n s = (.ok out, s')) ↔ Settles cfg who route q s := by
  induction route generalizing s q n with
  | nil => exact iff_of_true ⟨n, s, rfl⟩ trivial
  | cons node route ih =>
      simp only [exchangeAlong, Call.bind_ok, nodeExchange_ok_iff]
      constructor
      · rintro ⟨out, s', dy, t, ⟨hop, hhop, haccepted, rfl, rfl⟩, hrest⟩
        exact ⟨hop, hhop, haccepted, ih.mp ⟨out, s', hrest⟩⟩
      · rintro ⟨hop, hhop, haccepted, hrest⟩
        obtain ⟨out, s', hrest⟩ := ih.mpr hrest
        exact ⟨out, s', hop.out, _, ⟨hop, hhop, haccepted, rfl, rfl⟩, hrest⟩

/-- A trade that is refused at once changes nothing. -/
theorem RefusedAtOnce.atomic (h : RefusedAtOnce cfg who s route q) :
    (exchangeAlong cfg who route q n).Atomic s := by
  induction route generalizing q n with
  | nil => exact h.elim
  | cons node route ih =>
      intro e s' hfail
      rw [exchangeAlong] at hfail
      rcases hhop : nodeExchange cfg who node q s with ⟨e' | dy, t⟩
      · rw [Call.bind_of_error hhop] at hfail
        obtain ⟨-, rfl⟩ := Prod.mk.inj hfail
        exact nodeExchange_atomic cfg who node q s e' t hhop
      · rw [Call.bind_of_ok hhop] at hfail
        obtain ⟨hop, hfound, haccepted, rfl, rfl⟩ := nodeExchange_ok_iff.mp hhop
        rcases h with hrefused | ⟨hop', hfound', -, hidle, hrest⟩
        · exact absurd haccepted (hrefused hop hfound)
        · obtain rfl := Option.some.inj (hfound.symm.trans hfound')
          rw [hidle.settled, hidle.2.2] at hfail
          exact ih hrest e s' hfail

theorem NeverHalfway.allOrNothing (h : NeverHalfway cfg who route q s) :
    AllOrNothing cfg who (exchangeAlong cfg who route q n) s := by
  rcases h with hsettles | hrefused
  · obtain ⟨out, t, hok⟩ := exchangeAlong_ok_iff (n := n).mpr hsettles
    intro e s' hfail
    cases hok.symm.trans hfail
  · exact allOrNothing_of_atomic hrefused.atomic

section Outsiders

variable (haccounts : Set.InjOn (nodeAccount cfg) {node | node.poolId ≤ cfg.maxPoolId})
  (hwho : Outside cfg who)
include haccounts hwho

/-- **A trade that fails** with the balances of all pools as before was refused at
    once. By induction on the route: the pool of the first hop never gives back what it
    got, so the hop was idle. -/
theorem refusedAtOnce_of_back {e : DispatchError Error} (hs : Proper cfg s)
    (hfail : exchangeAlong cfg who route q n s = (.error e, t))
    (hback : ∀ node, nodeExists s node = true → ∀ y,
      t.ledger.balance y (nodeAccount cfg node) = s.ledger.balance y (nodeAccount cfg node)) :
    RefusedAtOnce cfg who s route q := by
  induction route generalizing q n with
  | nil => cases hfail
  | cons node route ih =>
      rw [exchangeAlong] at hfail
      rcases hhop : nodeExchange cfg who node q s with ⟨e' | dy, u⟩
      · refine .inl fun hop hfound haccepted => ?_
        have hok := nodeExchange_ok_iff.mpr ⟨hop, hfound, haccepted, rfl, rfl⟩
        cases hhop.symm.trans hok
      · rw [Call.bind_of_ok hhop] at hfail
        obtain ⟨hop, hfound, haccepted, rfl, rfl⟩ := nodeExchange_ok_iff.mp hhop
        have hat := hopOf_at hfound
        have hfirst := nodeExchange_drifts haccounts hwho hs hhop
        have hrest :=
          (Call.outcome_iff.mp (exchangeAlong_drifts haccounts hwho (hfirst.only.proper hs))).2 e t
            hfail
        obtain ⟨kept, lost, hkept, hlost, hnone⟩ :=
          Hop.settled_account hat (hs.pair_ne node hat.pair) haccepted
          (hat.account ▸ hwho node) (hat.account ▸ hs.owner node hat.owner node)
        -- The rest of the route drifts on, so what the hop moved would still be missing.
        have hidle : hop.Idle := by
          rw [hat.account] at hkept hlost
          have hquote : (hop.settled who s.ledger).balance hop.quote (nodeAccount cfg node) ≤
              t.ledger.balance hop.quote (nodeAccount cfg node) :=
                hrest.quote (hfirst.only.nodePair.trans hat.pair)
          have hbase : t.ledger.balance hop.base (nodeAccount cfg node) ≤
              (hop.settled who s.ledger).balance hop.base (nodeAccount cfg node) :=
            hrest.base (hfirst.only.nodePair.trans hat.pair)
          rw [hback node (nodeExists_of_pair hat.pair)] at hquote hbase
          exact hnone (by omega) (by omega)
        refine .inr ⟨hop, hfound, haccepted, hidle, ih (n := 0) ?_⟩
        rw [hidle.settled, hidle.2.2] at hfail
        exact hfail

/-- **A trade along a route** is all or nothing exactly if it never stops half-way. -/
theorem exchangeAlong_allOrNothing_iff (hs : Proper cfg s) :
    AllOrNothing cfg who (exchangeAlong cfg who route q n) s ↔ NeverHalfway cfg who route q s := by
  refine ⟨fun hatomic => ?_, NeverHalfway.allOrNothing⟩
  rcases htrade : exchangeAlong cfg who route q n s with ⟨e | out, t⟩
  · exact .inr (refusedAtOnce_of_back haccounts hwho hs htrade (hatomic e t htrade).2)
  · exact .inl (exchangeAlong_ok_iff.mp ⟨out, t, htrade⟩)

theorem exchange_allOrNothing_iff (hs : Proper cfg s) :
    AllOrNothing cfg who (exchange cfg who pair n) s ↔
      ∀ route, getRoute s pair = some route → NeverHalfway cfg who route n s := by
  rcases hroute : getRoute s pair with _ | route
  · have hnone : exchange cfg who pair n s = (.error (.module (.router .noRouteFound)), s) := by
      rw [exchange, Call.get_bind, hroute]
      rfl
    refine iff_of_true (allOrNothing_of_error hnone) ?_
    intro route hroute'
    cases hroute'
  · have hsome : exchange cfg who pair n s = exchangeAlong cfg who route n 0 s := by
      rw [exchange, Call.get_bind, hroute]
      rfl
    rw [allOrNothing_congr hsome, exchangeAlong_allOrNothing_iff haccounts hwho hs]
    exact ⟨fun h route' heq => Option.some.inj heq ▸ h, fun h => h route rfl⟩

theorem buy_allOrNothing_iff (hs : Proper cfg s) :
    AllOrNothing cfg who (buy cfg who pair n) s ↔
      ∀ route dx, getRoute s pair = some route → valueAlong cfg route.reverse n 0 s = (.ok dx, s) →
        NeverHalfway cfg who route dx s := by
  rcases hroute : getRoute s pair with _ | route
  · have hnone : buy cfg who pair n s = (.error (.module (.router .noRouteFound)), s) := by
      rw [buy, Call.get_bind, hroute]
      rfl
    refine iff_of_true (allOrNothing_of_error hnone) ?_
    intro route dx hroute'
    cases hroute'
  · have hsome : buy cfg who pair n s =
        (valueAlong cfg route.reverse n 0 >>= fun dx => buyAlong cfg who route dx) s := by
      rw [buy, Call.get_bind, hroute]
      rfl
    rcases hvalue : valueAlong cfg route.reverse n 0 s with ⟨e | dx, t⟩
    · obtain rfl := valueAlong_reads.error hvalue
      rw [Call.bind_of_error hvalue] at hsome
      refine iff_of_true (allOrNothing_of_error hsome) fun route' dx heq hok => ?_
      obtain rfl := Option.some.inj heq
      cases hvalue.symm.trans hok
    · obtain rfl := valueAlong_reads.ok hvalue
      rw [Call.bind_of_ok hvalue, buyAlong_eq] at hsome
      rw [allOrNothing_congr hsome, exchangeAlong_allOrNothing_iff haccounts hwho hs]
      refine ⟨fun h route' dx' heq hok => ?_, fun h => h route dx rfl hvalue⟩
      obtain rfl := Option.some.inj heq
      obtain rfl := Except.ok.inj (congrArg Prod.fst (hvalue.symm.trans hok))
      exact h

end Outsiders

/-! ## All runs -/

def Op.signer : Op cfg → Option A
  | .createCurve who _ _ _ _ | .createUniswap who _ _ _ | .exchange who _ _ | .sell who _ _
  | .buy who _ _ => some who
  | .updateRoute _ _ => none

omit [DecidableEq A] [DecidableEq X] in
/-- Another pool joins. -/
theorem Proper.join (h : Proper cfg s) (new : DexRouteNode) (hid : new.poolId ≤ cfg.maxPoolId)
    (hne : pair.base ≠ pair.quote) (hwho : Outside cfg who)
    (hnew : nodePair s' new = some pair ∧ nodeOwner s' new = some who)
    (hold : ∀ node, node ≠ new → nodePair s' node = nodePair s node ∧
      nodeOwner s' node = nodeOwner s node) :
    Proper cfg s' := by
  refine ⟨fun node {found} hfound => ?_, fun node {found} hfound => ?_, fun node {owner} hfound => ?_⟩
  · by_cases hnode : node = new
    · exact hnode ▸ hid
    · exact h.within node ((hold node hnode).1.symm.trans hfound)
  · by_cases hnode : node = new
    · subst hnode
      obtain rfl := Option.some.inj (hnew.1.symm.trans hfound)
      exact hne
    · exact h.pair_ne node ((hold node hnode).1.symm.trans hfound)
  · by_cases hnode : node = new
    · subst hnode
      obtain rfl := Option.some.inj (hnew.2.symm.trans hfound)
      exact hwho
    · exact h.owner node ((hold node hnode).2.symm.trans hfound)

omit [DecidableEq A] in
theorem Proper.createCurve {amp fee protocolFee id : Nat} (h : Proper cfg s) (hwho : Outside cfg who)
    (hok : Curve.doCreatePool cfg who pair amp fee protocolFee s = (.ok id, s')) : Proper cfg s' := by
  obtain ⟨hpair, -, hcount, lpToken, factory, -, rfl⟩ := Curve.doCreatePool_ok hok
  refine h.join (.curve s.curvePoolCount) hcount.le hpair hwho ⟨?_, ?_⟩ fun node hnode => ?_
  · simp only [nodePair, Function.update_self, Option.map_some]
  · simp only [nodeOwner, Function.update_self, Option.map_some]
  · cases node with
    | curve poolId =>
        have hid : poolId ≠ s.curvePoolCount := fun heq => hnode (heq ▸ rfl)
        simp only [nodePair, nodeOwner, Function.update_of_ne hid, and_self]
    | uniswap poolId => exact ⟨rfl, rfl⟩

omit [DecidableEq A] in
theorem Proper.createUniswap {fee ownerFee id : Nat} (h : Proper cfg s) (hwho : Outside cfg who)
    (hok : Uniswap.doCreatePool cfg who pair fee ownerFee s = (.ok id, s')) : Proper cfg s' := by
  obtain ⟨hpair, -, hcount, lpToken, factory, -, rfl⟩ := Uniswap.doCreatePool_ok hok
  refine h.join (.uniswap s.uniswapPoolCount) hcount.le hpair hwho ⟨?_, ?_⟩ fun node hnode => ?_
  · simp only [nodePair, Function.update_self, Option.map_some]
  · simp only [nodeOwner, Function.update_self, Option.map_some]
  · cases node with
    | curve poolId => exact ⟨rfl, rfl⟩
    | uniswap poolId =>
        have hid : poolId ≠ s.uniswapPoolCount := fun heq => hnode (heq ▸ rfl)
        simp only [nodePair, nodeOwner, Function.update_of_ne hid, and_self]

omit [DecidableEq A] [DecidableEq X] in
theorem proper_of_created {x : DexCall A X F Nat} (hs : Proper cfg s)
    (hok : ∀ id t, x s = (.ok id, t) → Proper cfg t)
    (herror : ∀ e t, x s = (.error e, t) → t = s) : Proper cfg (dispatch x s) :=
  dispatch_of_outcome hs (Call.outcome_iff.mpr ⟨hok, fun e t ht => .inr (herror e t ht ▸ hs)⟩)

omit [DecidableEq A] in
theorem Proper.updateRoute {update : Option (Route cfg)} (h : Proper cfg s) :
    Proper cfg (dispatch (updateRoute cfg pair update) s) := by
  have hset : ∀ stored, Proper cfg (s.setRoute pair stored) := by
    intro stored
    refine ⟨fun node {found} hfound => h.within node (show nodePair s node = some found from ?_),
      fun node {found} hfound => h.pair_ne node ?_, fun node {owner} hfound => h.owner node ?_⟩
    · cases node <;> exact hfound
    · cases node <;> exact hfound
    · cases node <;> exact hfound
  cases update with
  | none => exact hset none
  | some route =>
      refine dispatch_of_outcome h
        ((doUpdateRoute_outcome s pair route).imp (fun _ t ht => ?_) fun _ t ht => .inr ?_)
      · exact ht.2 ▸ hset (some route.val)
      · exact ht.2 ▸ h

/-- **Step lemma.** -/
theorem Proper.step {op : Op cfg} (h : Proper cfg s)
    (hsigner : ∀ a, op.signer = some a → Outside cfg a)
    (hstep : step cfg s op = some s') : Proper cfg s' := by
  cases op with
  | createCurve who pair amp fee protocolFee =>
      obtain rfl := Option.some.inj hstep
      exact proper_of_created h (fun _ _ => h.createCurve (hsigner who rfl)) fun _ _ =>
        Call.transactional_error
  | createUniswap who pair fee ownerFee =>
      obtain rfl := Option.some.inj hstep
      exact proper_of_created h (fun _ _ => h.createUniswap (hsigner who rfl)) fun _ _ =>
        Call.transactional_error
  | updateRoute pair update =>
      obtain rfl := Option.some.inj hstep
      exact h.updateRoute
  | exchange who pair dx | sell who pair amount =>
      obtain rfl := Option.some.inj hstep
      exact (exchange_only s who pair _).proper h
  | buy who pair amount =>
      obtain rfl := Option.some.inj hstep
      exact (buy_only s who pair amount).proper h

/-- **Trades of the router**: in a run of any calls that no account of a pool signs, pools stay
    proper. From there, a trade leaves the balances of the caller and of all pools alone whenever it
    fails exactly if it never stops half-way; for a purchase, with the amount it computes first. -/
theorem trades_atomic_iff (cfg : Config A X F)
    (haccounts : Set.InjOn (nodeAccount cfg) {node | node.poolId ≤ cfg.maxPoolId}) :
    (∀ ledger factory (ops : List (Op cfg)) s, (∀ op ∈ ops, ∀ a, op.signer = some a → Outside cfg a) →
      run (step cfg) (State.genesis ledger factory) ops = some s → Proper cfg s) ∧
    ∀ s who pair n, Proper cfg s → Outside cfg who →
      (AllOrNothing cfg who (exchange cfg who pair n) s ↔
        ∀ route, getRoute s pair = some route → NeverHalfway cfg who route n s) ∧
      (AllOrNothing cfg who (sell cfg who pair n) s ↔
        ∀ route, getRoute s pair = some route → NeverHalfway cfg who route n s) ∧
      (AllOrNothing cfg who (buy cfg who pair n) s ↔
        ∀ route dx, getRoute s pair = some route → valueAlong cfg route.reverse n 0 s = (.ok dx, s) →
          NeverHalfway cfg who route dx s) := by
  refine ⟨fun ledger factory ops s hsigners hrun => ?_, fun s who pair n hs hwho => ⟨?_, ?_, ?_⟩⟩
  -- The state of the pools is sound in every run by others than the pools themselves.
  · have hops : Along (step cfg) (fun _ op => (∀ a, op.signer = some a → Outside cfg a) ∧ True)
        (State.genesis ledger factory) ops := Along.and_forall (along_true _ _) hsigners
    exact run_invariant (fun hs hop hstep => hs.step hop.1 hstep) (.genesis ledger factory) hops hrun
  · exact exchange_allOrNothing_iff haccounts hwho hs
  · exact exchange_allOrNothing_iff haccounts hwho hs
  · exact buy_allOrNothing_iff haccounts hwho hs

/-- The sample with all accounts of pools apart. -/
def apart : Config Nat Nat Nat :=
  { sample with
    curveAccount := fun n => 2001 + 2 * n
    uniswapAccount := fun n => 2000 + 2 * n }

/-- The first pool is deep and the second one is shallow. -/
def shallowLedger : Ledger Nat Nat :=
  Ledger.ofList [(1, 2000, 1000000), (2, 2000, 1000000), (1, 2002, 1000), (3, 2002, 2), (1, 8, 10),
    (2, 8, 10000)]

/-- Two pools in a row, the first with an owner fee of a tenth. -/
def shallowOps : List (Op apart) :=
  [.createUniswap 9 ⟨1, 2⟩ 0 100000, .createUniswap 9 ⟨3, 1⟩ 0 0,
    .updateRoute ⟨3, 2⟩ (some ⟨[.uniswap 0, .uniswap 1], by decide⟩)]

theorem outside_apart {a : Nat} (h : a < 2000) : Outside apart a := by
  intro node heq
  cases node with
  | curve poolId =>
      change 2001 + 2 * poolId = a at heq
      omega
  | uniswap poolId =>
      change 2000 + 2 * poolId = a at heq
      omega

theorem injective_apart : Set.InjOn (nodeAccount apart) {node | node.poolId ≤ apart.maxPoolId} := by
  intro node _ node' _ heq
  cases node <;> cases node' <;> simp only [nodeAccount, apart] at heq <;>
    first | omega | congr 1; omega

theorem trades_atomic_sample :
    ∃ s, run (step apart) (State.genesis shallowLedger 7) shallowOps = some s ∧ Proper apart s ∧
      ¬ NeverHalfway apart 8 [.uniswap 0, .uniswap 1] 1000 s := by
  have hview : ∃ s, run (step apart) (State.genesis shallowLedger 7) shallowOps = some s ∧
      getRoute s ⟨3, 2⟩ = some [.uniswap 0, .uniswap 1] ∧
      ∃ e s', exchange apart 8 ⟨3, 2⟩ 1000 s = (.error e, s') ∧
      s'.ledger.balance 2 8 ≠ s.ledger.balance 2 8 :=
    ⟨_, rfl, by decide, _, _, rfl, by decide⟩
  obtain ⟨s, hrun, hroute, e, s', hfail, hpaid⟩ := hview
  have hsigners : ∀ op ∈ shallowOps, ∀ a, op.signer = some a → Outside apart a := by
    intro op hop a ha
    simp only [shallowOps, List.mem_cons, List.not_mem_nil, or_false] at hop
    rcases hop with rfl | rfl | rfl
    · exact Option.some.inj ha ▸ outside_apart (by decide)
    · exact Option.some.inj ha ▸ outside_apart (by decide)
    · cases ha
  obtain ⟨hproper, hiff⟩ := trades_atomic_iff apart injective_apart
  have hs := hproper shallowLedger 7 shallowOps s hsigners hrun
  refine ⟨s, hrun, hs, fun hnever => ?_⟩
  have hatomic := (hiff s 8 ⟨3, 2⟩ 1000 hs (outside_apart (by decide))).1.mpr fun route heq =>
    Option.some.inj (hroute.symm.trans heq) ▸ hnever
  exact hpaid ((hatomic e s' hfail).1 2)

/-- The second hop would pay out nothing and fails, and the account is left with the asset in
    between, whether it sells the asset `2` or buys the asset `3`. -/
theorem trades_stop_halfway :
    ∃ s, run (step apart) (State.genesis shallowLedger 7) shallowOps = some s ∧
      getRoute s ⟨3, 2⟩ = some [.uniswap 0, .uniswap 1] ∧
      (∃ s', exchange apart 8 ⟨3, 2⟩ 1000 s = (.error (.module (.uniswap .invalidAmount)), s') ∧
        s'.ledger.balance 2 8 = 9000 ∧ s'.ledger.balance 1 8 = 909) ∧
      ¬ AllOrNothing apart 8 (exchange apart 8 ⟨3, 2⟩ 1000) s ∧
      ¬ AllOrNothing apart 8 (sell apart 8 ⟨3, 2⟩ 1000) s ∧
      ¬ AllOrNothing apart 8 (buy apart 8 ⟨3, 2⟩ 1) s := by
  refine ⟨_, rfl, by decide, ⟨_, rfl, by decide, by decide⟩, fun h => ?_, fun h => ?_, fun h => ?_⟩
  · exact absurd ((h _ _ rfl).1 2) (by decide)
  · exact absurd ((h _ _ rfl).1 2) (by decide)
  · exact absurd ((h _ _ rfl).1 2) (by decide)

end Dex
end Composable
