import Composable.Support.Call
import Composable.Support.Run
import Composable.TransactionFee.Multiplier
import Mathlib.Logic.Function.Basic

/-!
# `TransactionFee.Charges` — who pays for a transaction, and what is handed on

Embeds `frame/transaction-fee/src/lib.rs`: the fee of a transaction is withdrawn before it is
dispatched, and what it did not use of it is paid back afterwards. The native currency, the
exchange and the handler of the fees are parameters; `DispatchInfo`, `PostDispatchInfo`,
`InclusionFee` and `FeeDetails` are those of `frame-support` and `pallet-transaction-payment`,
with what is computed from them.

* `charge_exact`: the tip is handed on in full whatever is paid back, and the rest is the fee that
  was used; what was withdrawn can always be settled.
* `charges_add_up`: over any run nothing of the fees is lost between the accounts and the handler.
* `withdrawFee_iff`: an account that cannot pay in the native currency pays by a
  swap, which is never too small.
-/

namespace Composable
namespace TransactionFee

/-! ## Data model -/

inductive Pays where
  | yes
  | no
deriving DecidableEq, Repr

structure DispatchInfo where
  weight : Nat
  dispatchClass : DispatchClass
  paysFee : Pays
deriving DecidableEq, Repr

structure PostDispatchInfo where
  actualWeight : Option Nat
  paysFee : Pays
deriving DecidableEq, Repr

/-- `calc_actual_weight`. -/
def PostDispatchInfo.calcActualWeight (post : PostDispatchInfo) (info : DispatchInfo) : Nat :=
  post.actualWeight.elim info.weight fun weight => min weight info.weight

/-- `pays_fee`. -/
def PostDispatchInfo.pays (post : PostDispatchInfo) (info : DispatchInfo) : Pays :=
  if info.paysFee = .no ∨ post.paysFee = .no then .no else .yes

structure InclusionFee where
  baseFee : Nat
  lenFee : Nat
  adjustedWeightFee : Nat

/-- `inclusion_fee`. -/
def InclusionFee.total (fee : InclusionFee) : Nat :=
  Fixed.saturated (Fixed.saturated (fee.baseFee + fee.lenFee) + fee.adjustedWeightFee)

structure FeeDetails where
  inclusionFee : Option InclusionFee
  tip : Nat

/-- `final_fee`. -/
def FeeDetails.finalFee (details : FeeDetails) : Nat :=
  Fixed.saturated ((details.inclusionFee.elim 0 InclusionFee.total) + details.tip)

inductive WithdrawReasons where
  | transactionPayment
  | transactionPaymentAndTip
deriving DecidableEq, Repr

inductive Invalid where
  | payment
deriving DecidableEq, Repr

/-- `NativeCurrency`, on balances `B`; `withdraw` is the one that keeps the account alive. -/
structure NativeCurrency (A B : Type) where
  minimumBalance : Nat
  totalBalance : B → A → Nat
  freeBalance : B → A → Nat
  ensureCanWithdraw : B → A → Nat → WithdrawReasons → Nat → Bool
  withdraw : B → A → Nat → WithdrawReasons → Option B
  depositIntoExisting : B → A → Nat → Option B

/-- `C` are the ids of currencies, `K` the calls. -/
structure Config (A B C K : Type) where
  adjustment : TargetedFeeAdjustment
  /-- `BlockLength` of the normal class. -/
  maxLength : Nat
  transactionByteFee : Nat
  /-- `WeightToFee`, as its polynomial is computed. -/
  polynomial : Nat → Nat
  native : NativeCurrency A B
  /-- `CurrencyId::LAYR`. -/
  layr : C
  /-- `Dex::exchange`. -/
  exchange : C → A → C → A → Nat → Nat → B → Option B
  /-- `OnChargeTransaction`, for a fee and a tip. -/
  onUnbalanceds : Nat → Nat → B → B
  dispatchInfo : K → DispatchInfo
  dispatch : A → K → B → PostDispatchInfo × B

/-- What `OnChargeTransaction` was handed for a transaction. -/
structure Handed (A : Type) where
  who : A
  fee : Nat
  tip : Nat
deriving DecidableEq, Repr

/-- The balances, and all that was handed on so far. -/
structure State (A B : Type) where
  nextFeeMultiplier : Nat
  balances : B
  handed : List (Handed A)

structure ChargeTransactionFee (C : Type) where
  tip : Nat
  slippage : Nat
  assetId : Option C
deriving DecidableEq, Repr

abbrev FeeCall (A B : Type) (α : Type) : Type := Call (State A B) Invalid α

variable {A B C K : Type} (cfg : Config A B C K)

/-! ## Fees -/

def weightToFee (weight : Nat) : Nat := cfg.polynomial (min weight cfg.adjustment.weights.maxBlock)

def computeFeeRaw (multiplier len weight tip : Nat) (paysFee : Pays)
    (dispatchClass : DispatchClass) : FeeDetails :=
  match paysFee with
  | .yes =>
      { inclusionFee := some
          { baseFee := weightToFee cfg (cfg.adjustment.weights.baseExtrinsic dispatchClass)
            lenFee := Fixed.saturated (cfg.transactionByteFee * len)
            adjustedWeightFee := Fixed.saturatingMulInt multiplier (weightToFee cfg weight) }
        tip := tip }
  | .no => { inclusionFee := none, tip := tip }

/-- `compute_fee`; the length is cast to `u32`. -/
def computeFee (multiplier len : Nat) (info : DispatchInfo) (tip : Nat) : Nat :=
  (computeFeeRaw cfg multiplier (len % 2 ^ 32) info.weight tip info.paysFee
    info.dispatchClass).finalFee

def computeActualFee (multiplier len : Nat) (info : DispatchInfo) (post : PostDispatchInfo)
    (tip : Nat) : Nat :=
  (computeFeeRaw cfg multiplier (len % 2 ^ 32) (post.calcActualWeight info) tip (post.pays info)
    info.dispatchClass).finalFee

/-! ## Before the dispatch -/

/-- `native_is_enough`. -/
def nativeIsEnough (b : B) (who : A) (fee : Nat) (reason : WithdrawReasons) : Bool :=
  decide (Fixed.saturated (fee + cfg.native.minimumBalance) ≤ cfg.native.totalBalance b who) &&
    (decide (fee ≤ cfg.native.freeBalance b who) &&
      cfg.native.ensureCanWithdraw b who fee reason (cfg.native.freeBalance b who - fee))

/-- The amount that a swap has to bring: the fee, and what is missing of the existential deposit. -/
def swapAmount (b : B) (who : A) (fee : Nat) : Nat :=
  Fixed.saturated (fee + (cfg.native.minimumBalance - cfg.native.totalBalance b who))

def canPayFee (who : A) (fee : Nat) (reason : WithdrawReasons) (slippage : Nat) (assetId : Option C) :
    FeeCall A B Unit := do
  let s ← Call.get
  if nativeIsEnough cfg s.balances who fee reason = true then pure ()
  else match assetId with
    | some asset => do
        let balances ← Call.ofOption
          (cfg.exchange asset who cfg.layr who (swapAmount cfg s.balances who fee) slippage
            s.balances) .payment
        Call.modify fun s => { s with balances := balances }
    | none => Call.fail .payment

def ChargeTransactionFee.reason (ext : ChargeTransactionFee C) : WithdrawReasons :=
  if ext.tip = 0 then .transactionPayment else .transactionPaymentAndTip

/-- `withdraw_fee`, with the value of the imbalance. -/
def withdrawFee (ext : ChargeTransactionFee C) (who : A) (info : DispatchInfo) (len : Nat) :
    FeeCall A B (Nat × Option Nat) := do
  let s ← Call.get
  let fee := computeFee cfg s.nextFeeMultiplier len info ext.tip
  if fee = 0 then pure (fee, none)
  else do
    canPayFee cfg who fee ext.reason ext.slippage ext.assetId
    let s ← Call.get
    let balances ← Call.ofOption (cfg.native.withdraw s.balances who fee ext.reason) .payment
    Call.modify fun s => { s with balances := balances }
    pure (fee, some fee)

def priority (len : Nat) (info : DispatchInfo) (finalFee : Nat) : Nat :=
  let weightSaturation := cfg.adjustment.weights.maxBlock / max info.weight 1
  let lenSaturation := cfg.maxLength / max len 1
  min (Fixed.saturated (finalFee * min weightSaturation lenSaturation)) u64Max

/-- `validate`, with the priority of the transaction. -/
def validate (ext : ChargeTransactionFee C) (who : A) (info : DispatchInfo) (len : Nat) :
    FeeCall A B Nat := do
  let (fee, _) ← withdrawFee cfg ext who info len
  pure (priority cfg len info fee)

/-- The type `Pre`. -/
structure Pre (A : Type) where
  tip : Nat
  who : A
  imbalance : Option Nat
  fee : Nat

def preDispatch (ext : ChargeTransactionFee C) (who : A) (info : DispatchInfo) (len : Nat) :
    FeeCall A B (Pre A) := do
  let (fee, imbalance) ← withdrawFee cfg ext who info len
  pure ⟨ext.tip, who, imbalance, fee⟩

/-! ## After the dispatch -/

/-- The tip that can be split off a payment, and the rest. -/
def handOver (who : A) (payment tip : Nat) : FeeCall A B Unit :=
  Call.modify fun s => { s with
    balances := cfg.onUnbalanceds (payment - tip) (min payment tip) s.balances
    handed := s.handed ++ [⟨who, payment - tip, min payment tip⟩] }

def postDispatch (pre : Pre A) (info : DispatchInfo) (post : PostDispatchInfo) (len : Nat) :
    FeeCall A B Unit := do
  match pre.imbalance with
  | none => pure ()
  | some paid => do
      let s ← Call.get
      let actualFee := computeActualFee cfg s.nextFeeMultiplier len info post pre.tip
      let refund := pre.fee - actualFee
      match cfg.native.depositIntoExisting s.balances pre.who refund with
      | some balances => do
          Call.modify fun s => { s with balances := balances }
          Call.ensure (refund ≤ paid) .payment
          handOver cfg pre.who (paid - refund) pre.tip
      | none => handOver cfg pre.who paid pre.tip

/-! ## Runs -/

inductive Op (A C K : Type) where
  /-- A transaction of a block. -/
  | transaction (who : A) (ext : ChargeTransactionFee C) (call : K) (len : Nat)
  /-- The end of a block, in which the normal class has this weight. -/
  | onFinalize (blockWeight : Nat)

/-- A transaction in a block: one whose fee cannot be withdrawn is not in any. -/
def apply (who : A) (ext : ChargeTransactionFee C) (call : K) (len : Nat) : FeeCall A B Unit := do
  let pre ← preDispatch cfg ext who (cfg.dispatchInfo call) len
  let s ← Call.get
  let (post, balances) := cfg.dispatch who call s.balances
  Call.modify fun s => { s with balances := balances }
  postDispatch cfg pre (cfg.dispatchInfo call) post len

def step (s : State A B) : Op A C K → Option (State A B)
  | .transaction who ext call len => (apply cfg who ext call len).success s
  | .onFinalize blockWeight =>
      some { s with nextFeeMultiplier := cfg.adjustment.convert blockWeight s.nextFeeMultiplier }

/-! ## What a fee consists of -/

section Fees

variable {cfg} {multiplier len tip : Nat} {info : DispatchInfo} {post : PostDispatchInfo}

/-- The tip is part of the fee, whatever the rest is. -/
theorem FeeDetails.tip_le {details : FeeDetails} (h : details.tip ≤ u128Max) :
    details.tip ≤ details.finalFee :=
  Nat.le_min.mpr ⟨Nat.le_add_left _ _, h⟩

@[simp] theorem computeFeeRaw_tip {weight : Nat} {paysFee : Pays} {dispatchClass : DispatchClass} :
    (computeFeeRaw cfg multiplier len weight tip paysFee dispatchClass).tip = tip := by
  cases paysFee with
  | yes => rfl
  | no => rfl

theorem tip_le_computeFee (h : tip ≤ u128Max) : tip ≤ computeFee cfg multiplier len info tip := by
  refine le_trans (le_of_eq computeFeeRaw_tip.symm) (FeeDetails.tip_le ?_)
  rwa [computeFeeRaw_tip]

theorem tip_le_computeActualFee (h : tip ≤ u128Max) :
    tip ≤ computeActualFee cfg multiplier len info post tip := by
  refine le_trans (le_of_eq computeFeeRaw_tip.symm) (FeeDetails.tip_le ?_)
  rwa [computeFeeRaw_tip]

end Fees

/-! ## One transaction -/

section Transaction

variable {cfg} {s s' : State A B} {who : A} {ext : ChargeTransactionFee C} {call : K} {len : Nat}
  {info : DispatchInfo}

/-- Whether the fee is paid from the balance there is, or by a swap first. -/
inductive Funded (cfg : Config A B C K) (ext : ChargeTransactionFee C) (who : A) (fee : Nat)
    (b : B) : B → Prop
  | native (henough : nativeIsEnough cfg b who fee ext.reason = true) : Funded cfg ext who fee b b
  | swapped {asset : C} {b' : B} (hshort : nativeIsEnough cfg b who fee ext.reason = false)
      (hasset : ext.assetId = some asset)
      (hswap : cfg.exchange asset who cfg.layr who (swapAmount cfg b who fee) ext.slippage b =
        some b') :
      Funded cfg ext who fee b b'

theorem canPayFee_ok {fee : Nat} {u : Unit} :
    canPayFee cfg who fee ext.reason ext.slippage ext.assetId s = (.ok u, s') ↔
      ∃ b, Funded cfg ext who fee s.balances b ∧ s' = { s with balances := b } := by
  rw [canPayFee, Call.get_bind]
  by_cases henough : nativeIsEnough cfg s.balances who fee ext.reason = true
  · rw [if_pos henough, Call.pure_ok]
    constructor
    · rintro ⟨-, rfl⟩
      exact ⟨s'.balances, .native henough, rfl⟩
    · rintro ⟨b, hfunded, rfl⟩
      cases hfunded with
      | native => exact ⟨rfl, rfl⟩
      | swapped hshort => rw [hshort] at henough; cases henough
  · have hshort : nativeIsEnough cfg s.balances who fee ext.reason = false :=
      Bool.eq_false_of_not_eq_true henough
    rw [if_neg henough]
    cases hasset : ext.assetId with
    | none =>
        refine iff_of_false Call.fail_ok ?_
        rintro ⟨b, hfunded, -⟩
        cases hfunded with
        | native h => exact henough h
        | swapped _ h => rw [hasset] at h; cases h
    | some asset =>
        simp only [Call.bind_ok, Call.ofOption_ok, Call.modify_ok]
        constructor
        · rintro ⟨b, t, ⟨hswap, rfl⟩, rfl⟩
          exact ⟨b, .swapped hshort hasset hswap, rfl⟩
        · rintro ⟨b, hfunded, rfl⟩
          cases hfunded with
          | native h => exact absurd h henough
          | swapped _ h hswap =>
              obtain rfl := Option.some.inj (hasset.symm.trans h)
              exact ⟨b, s, ⟨hswap, rfl⟩, rfl⟩

/-- The fee is withdrawn from balances that fund it. -/
theorem withdrawFee_ok {r : Nat × Option Nat} :
    withdrawFee cfg ext who info len s = (.ok r, s') ↔
      computeFee cfg s.nextFeeMultiplier len info ext.tip = 0 ∧ r = (0, none) ∧ s' = s ∨
      ∃ fee b b', computeFee cfg s.nextFeeMultiplier len info ext.tip = fee ∧ 0 < fee ∧
        Funded cfg ext who fee s.balances b ∧ cfg.native.withdraw b who fee ext.reason = some b' ∧
        r = (fee, some fee) ∧ s' = { s with balances := b' } := by
  rw [withdrawFee, Call.get_bind]
  by_cases hzero : computeFee cfg s.nextFeeMultiplier len info ext.tip = 0
  · rw [if_pos hzero, Call.pure_ok, hzero]
    simp
  · have hpos : 0 < computeFee cfg s.nextFeeMultiplier len info ext.tip := Nat.pos_of_ne_zero hzero
    rw [if_neg hzero]
    simp only [Call.bind_ok, canPayFee_ok, Call.get_ok, Call.ofOption_ok, Call.modify_ok,
      Call.pure_ok, hzero, false_and, false_or]
    constructor
    · rintro ⟨_, _, ⟨b, hfunded, rfl⟩, _, _, ⟨rfl, rfl⟩, b', _, ⟨hwithdraw, rfl⟩, _, _, rfl, hr, rfl⟩
      exact ⟨_, b, b', rfl, hpos, hfunded, hwithdraw, hr, rfl⟩
    · rintro ⟨_, b, b', rfl, -, hfunded, hwithdraw, hr, rfl⟩
      exact ⟨(), _, ⟨b, hfunded, rfl⟩, _, _, ⟨rfl, rfl⟩, b', _, ⟨hwithdraw, rfl⟩, (), _, rfl, hr, rfl⟩

/-- What of a refund is paid back: all of it, or nothing to an account that is no more. -/
inductive Refunded (cfg : Config A B C K) (who : A) (refund : Nat) (b : B) : B → Nat → Prop
  | paid {b' : B} (hdeposit : cfg.native.depositIntoExisting b who refund = some b') :
      Refunded cfg who refund b b' refund
  | refused (hdeposit : cfg.native.depositIntoExisting b who refund = none) :
      Refunded cfg who refund b b 0

/-- What a transaction in a block does, from the fee to what is handed on. -/
inductive Charged (cfg : Config A B C K) (s : State A B) (who : A) (ext : ChargeTransactionFee C)
    (call : K) (len : Nat) : State A B → Prop
  | free {post : PostDispatchInfo} {b : B}
      (hfee : computeFee cfg s.nextFeeMultiplier len (cfg.dispatchInfo call) ext.tip = 0)
      (hdispatch : cfg.dispatch who call s.balances = (post, b)) :
      Charged cfg s who ext call len { s with balances := b }
  | settled {post : PostDispatchInfo} {b b₁ b₂ b₃ : B} {fee refund : Nat}
      (hfee : computeFee cfg s.nextFeeMultiplier len (cfg.dispatchInfo call) ext.tip = fee)
        (hpos : 0 < fee)
      (hfunded : Funded cfg ext who fee s.balances b)
      (hwithdraw : cfg.native.withdraw b who fee ext.reason = some b₁)
      (hdispatch : cfg.dispatch who call b₁ = (post, b₂))
      (hrefund : Refunded cfg who
        (fee - computeActualFee cfg s.nextFeeMultiplier len (cfg.dispatchInfo call) post ext.tip) b₂
          b₃ refund) :
      Charged cfg s who ext call len
        { s with
          balances := cfg.onUnbalanceds (fee - refund - ext.tip) (min (fee - refund) ext.tip) b₃
          handed := s.handed ++ [⟨who, fee - refund - ext.tip, min (fee - refund) ext.tip⟩] }

/-- Paying back never fails: a refund is at most what was paid. -/
theorem postDispatch_ok {fee : Nat} {post : PostDispatchInfo} {u : Unit} :
    postDispatch cfg ⟨ext.tip, who, some fee, fee⟩ info post len s = (.ok u, s') ↔
      ∃ b refund,
        Refunded cfg who (fee - computeActualFee cfg s.nextFeeMultiplier len info post ext.tip)
          s.balances b refund ∧
        s' = { s with
          balances := cfg.onUnbalanceds (fee - refund - ext.tip) (min (fee - refund) ext.tip) b
          handed := s.handed ++ [⟨who, fee - refund - ext.tip, min (fee - refund) ext.tip⟩] } := by
  simp only [postDispatch]
  rw [Call.get_bind]
  cases hdeposit : cfg.native.depositIntoExisting s.balances who
      (fee - computeActualFee cfg s.nextFeeMultiplier len info post ext.tip) with
  | none =>
      simp only [handOver, Call.modify_ok]
      constructor
      · rintro rfl
        exact ⟨_, 0, .refused hdeposit, rfl⟩
      · rintro ⟨b, refund, hrefund, rfl⟩
        cases hrefund with
        | paid h => rw [hdeposit] at h; cases h
        | refused => rfl
  | some b' =>
      simp only [handOver, Call.bind_ok, Call.modify_ok, Call.ensure_ok]
      constructor
      · rintro ⟨_, _, rfl, _, _, ⟨-, rfl⟩, rfl⟩
        exact ⟨b', _, .paid hdeposit, rfl⟩
      · rintro ⟨b, refund, hrefund, rfl⟩
        cases hrefund with
        | paid h =>
            obtain rfl := Option.some.inj (hdeposit.symm.trans h)
            exact ⟨(), _, rfl, (), _, ⟨Nat.sub_le _ _, rfl⟩, rfl⟩
        | refused h => rw [hdeposit] at h; cases h

theorem apply_bind_ok {u : Unit} :
    apply cfg who ext call len s = (.ok u, s') ↔
      ∃ fee imbalance t post b, withdrawFee cfg ext who (cfg.dispatchInfo call) len s =
        (.ok (fee, imbalance), t) ∧
        cfg.dispatch who call t.balances = (post, b) ∧
        postDispatch cfg ⟨ext.tip, who, imbalance, fee⟩ (cfg.dispatchInfo call) post len
          { t with balances := b } =
          (.ok u, s') := by
  simp only [apply, preDispatch, Call.bind_ok, Call.pure_ok, Call.get_ok]
  constructor
  · rintro ⟨_, _, ⟨⟨fee, imbalance⟩, t, hwithdrawn, rfl, rfl⟩, _, _, ⟨rfl, rfl⟩, _, _, hmodify, hpost⟩
    obtain rfl := Call.modify_ok.mp hmodify
    exact ⟨fee, imbalance, _, _, _, hwithdrawn, rfl, hpost⟩
  · rintro ⟨fee, imbalance, t, post, b, hwithdrawn, hdispatch, hpost⟩
    obtain rfl : (cfg.dispatch who call t.balances).1 = post := congrArg Prod.fst hdispatch
    obtain rfl : (cfg.dispatch who call t.balances).2 = b := congrArg Prod.snd hdispatch
    exact ⟨_, t, ⟨⟨fee, imbalance⟩, t, hwithdrawn, rfl, rfl⟩, _, _, ⟨rfl, rfl⟩, (), _, rfl, hpost⟩

/-- A transaction is in a block if its fee can be withdrawn, and then it is charged. -/
theorem apply_ok {u : Unit} :
    apply cfg who ext call len s = (.ok u, s') ↔ Charged cfg s who ext call len s' := by
  simp only [apply_bind_ok, withdrawFee_ok]
  constructor
  · rintro ⟨fee, imbalance, t, post, b, hwithdrawn, hdispatch, hpost⟩
    rcases hwithdrawn with ⟨hfree, hr, rfl⟩ | ⟨_, b₀, b₁, hfee, hpos, hfunded, hwithdraw, hr, rfl⟩
    · obtain ⟨rfl, rfl⟩ := Prod.mk.inj hr
      obtain ⟨-, rfl⟩ := Call.pure_ok.mp hpost
      exact .free hfree hdispatch
    · obtain ⟨rfl, rfl⟩ := Prod.mk.inj hr
      obtain ⟨b₃, refund, hrefund, rfl⟩ := postDispatch_ok.mp hpost
      exact .settled hfee hpos hfunded hwithdraw hdispatch hrefund
  · intro h
    cases h with
    | free hfree hdispatch => exact ⟨0, none, s, _, _, .inl ⟨hfree, rfl, rfl⟩, hdispatch, rfl⟩
    | settled hfee hpos hfunded hwithdraw hdispatch hrefund =>
        refine ⟨_, _, _, _, _, .inr ⟨_, _, _, hfee, hpos, hfunded, hwithdraw, rfl, rfl⟩,
          hdispatch, ?_⟩
        exact postDispatch_ok.mpr ⟨_, _, hrefund, rfl⟩

theorem step_transaction :
    step cfg s (.transaction who ext call len) = some s' ↔ Charged cfg s who ext call len s' := by
  rw [← apply_ok (u := ()), step, Call.success_eq_some]
  exact ⟨fun ⟨_, h⟩ => h, fun h => ⟨(), h⟩⟩

/-- What the account is charged for a call that used `actual` of the fee, with the
    balances after the call. -/
def charge (cfg : Config A B C K) (who : A) (fee actual : Nat) (b : B) : Nat :=
  if (cfg.native.depositIntoExisting b who (fee - actual)).isSome = true then min fee actual else fee

theorem Refunded.charge_eq {fee actual refund : Nat} {b b' : B}
    (h : Refunded cfg who (fee - actual) b b' refund) :
    charge cfg who fee actual b = fee - refund := by
  unfold charge
  cases h with
  | paid hdeposit =>
      simp only [hdeposit, Option.isSome_some, if_true]
      omega
  | refused hdeposit => simp [hdeposit]

/-- Whatever the call did, and whatever the chain is by then, the settlement of
    what was withdrawn returns. -/
def Settles (cfg : Config A B C K) (pre : Pre A) (info : DispatchInfo) (len : Nat) : Prop :=
  ∀ post t, ∃ t', postDispatch cfg pre info post len t = (.ok (), t')

theorem preDispatch_settles {pre : Pre A}
    (hpre : preDispatch cfg ext who info len s = (.ok pre, s')) : Settles cfg pre info len := by
  intro post t
  simp only [preDispatch, Call.bind_ok, Call.pure_ok, withdrawFee_ok] at hpre
  obtain ⟨_, _, hwithdrawn, rfl, rfl⟩ := hpre
  rcases hwithdrawn with ⟨-, rfl, rfl⟩ | ⟨fee, -, -, -, -, -, -, rfl, -⟩
  · exact ⟨t, rfl⟩
  · cases hdeposit : cfg.native.depositIntoExisting t.balances who
        (fee - computeActualFee cfg t.nextFeeMultiplier len info post ext.tip) with
    | none => exact ⟨_, postDispatch_ok.mpr ⟨_, _, .refused hdeposit, rfl⟩⟩
    | some b => exact ⟨_, postDispatch_ok.mpr ⟨_, _, .paid hdeposit, rfl⟩⟩

/-- A transaction without a fee hands nothing on. Any other hands on the tip in full, and as fee the
    rest of the charge: what was used of the fee, or all of it if the account was no more. -/
def HandsOn (cfg : Config A B C K) (s : State A B) (who : A) (ext : ChargeTransactionFee C)
    (call : K) (len : Nat) (s' : State A B) : Prop :=
  let fee := computeFee cfg s.nextFeeMultiplier len (cfg.dispatchInfo call) ext.tip
  fee = 0 ∧ s'.handed = s.handed ∨
    ∃ b b₁ b₂ post,
      let actual := computeActualFee cfg s.nextFeeMultiplier len (cfg.dispatchInfo call) post ext.tip
      Funded cfg ext who fee s.balances b ∧ cfg.native.withdraw b who fee ext.reason = some b₁ ∧
        cfg.dispatch who call b₁ = (post, b₂) ∧ ext.tip ≤ charge cfg who fee actual b₂ ∧
        s'.handed = s.handed ++ [⟨who, charge cfg who fee actual b₂ - ext.tip, ext.tip⟩]

/-- **What is handed on is exact**, for every transaction in a block, and nothing that was
    withdrawn fails to be settled. -/
theorem charge_exact (htip : ext.tip ≤ u128Max) :
    (∀ pre t, preDispatch cfg ext who (cfg.dispatchInfo call) len s = (.ok pre, t) →
        Settles cfg pre (cfg.dispatchInfo call) len) ∧
      ∀ s', step cfg s (.transaction who ext call len) = some s' →
        HandsOn cfg s who ext call len s' := by
  refine ⟨fun pre t hpre => preDispatch_settles hpre, fun s' hstep => ?_⟩
  cases step_transaction.mp hstep with
  | free hfree => exact .inl ⟨hfree, rfl⟩
  | @settled post b b₁ b₂ b₃ fee refund hfee hpos hfunded hwithdraw hdispatch hrefund =>
      refine .inr ⟨b, b₁, b₂, post, ?_⟩
      -- The tip is within the fee and within what is kept of it, so the split takes it whole.
      have hcharge := hrefund.charge_eq
      have hle : ext.tip ≤ fee := hfee ▸ tip_le_computeFee htip
      have hactual : ext.tip ≤ computeActualFee cfg s.nextFeeMultiplier len (cfg.dispatchInfo call)
          post ext.tip :=
        tip_le_computeActualFee htip
      have hkept : ext.tip ≤ fee - refund := by
        rw [← hcharge, charge]
        split
        · omega
        · exact hle
      rw [hfee, Nat.min_eq_right hkept]
      refine ⟨hfunded, hwithdraw, hdispatch, ?_, ?_⟩
      · rwa [hcharge]
      · rw [hcharge]

/-- The weights of the blocks that end in a run. -/
def Op.blockWeight : Op A C K → Option Nat
  | .onFinalize blockWeight => some blockWeight
  | .transaction .. => none

/-- Transactions do not touch the multiplier: that of a run is the one after its blocks. -/
theorem nextFeeMultiplier_run {ops : List (Op A C K)} (hrun : run (step cfg) s ops = some s') :
    s'.nextFeeMultiplier = finalized cfg.adjustment s.nextFeeMultiplier
      (ops.filterMap Op.blockWeight) := by
  induction ops generalizing s with
  | nil =>
      obtain rfl := Option.some.inj hrun
      rfl
  | cons op ops ih =>
      obtain ⟨t, hstep, hrest⟩ := run_cons.mp hrun
      rw [ih hrest]
      cases op with
      | onFinalize blockWeight =>
          obtain rfl := Option.some.inj hstep
          rfl
      | transaction who ext call len =>
          have hsame : t.nextFeeMultiplier = s.nextFeeMultiplier := by
            cases step_transaction.mp hstep with
            | free => rfl
            | settled => rfl
          rw [hsame]
          rfl

/-! ## Whether the fee can be paid -/

/-- What the documentation of `Currency::withdraw` and of the exchange says: a withdrawal that keeps
    the account alive goes through where the balance is free and the minimum is left, and an
    exchange brings the amount that it is for. -/
structure Documented (cfg : Config A B C K) : Prop where
  withdraws : ∀ {b : B} {who : A} {fee : Nat} {reason : WithdrawReasons}, 0 < fee →
    ((cfg.native.withdraw b who fee reason).isSome = true ↔ fee ≤ cfg.native.freeBalance b who ∧
      cfg.native.ensureCanWithdraw b who fee reason (cfg.native.freeBalance b who - fee) = true ∧
      fee + cfg.native.minimumBalance ≤ cfg.native.totalBalance b who)
  exchanged : ∀ {asset : C} {who : A} {amount slippage : Nat} {b b' : B}, asset ≠ cfg.layr →
    cfg.exchange asset who cfg.layr who amount slippage b = some b' →
      cfg.native.freeBalance b who + amount ≤ cfg.native.freeBalance b' who ∧
        cfg.native.totalBalance b who + amount ≤ cfg.native.totalBalance b' who

theorem nativeIsEnough_iff {fee : Nat} {reason : WithdrawReasons} {b : B} (hpos : 0 < fee)
    (hfits : fee + cfg.native.minimumBalance ≤ u128Max) (h : Documented cfg) :
    nativeIsEnough cfg b who fee reason = true ↔
      (cfg.native.withdraw b who fee reason).isSome = true := by
  rw [h.withdraws hpos]
  simp only [nativeIsEnough, Bool.and_eq_true, decide_eq_true_eq, Fixed.saturated_eq hfits]
  constructor
  · rintro ⟨htotal, hfree, hcan⟩
    exact ⟨hfree, hcan, htotal⟩
  · rintro ⟨hfree, hcan, htotal⟩
    exact ⟨htotal, hfree, hcan⟩

/-- After the swap the fee is there, and the minimum on top of it. -/
theorem Documented.withdraws_swapped (h : Documented cfg) {asset : C} {fee : Nat} {b b' : B}
    (hpos : 0 < fee) (hasset : asset ≠ cfg.layr)
    (hfits : fee + cfg.native.minimumBalance ≤ u128Max)
    (hswap : cfg.exchange asset who cfg.layr who (swapAmount cfg b who fee) ext.slippage b =
      some b') :
    (cfg.native.withdraw b' who fee ext.reason).isSome = true ↔
      cfg.native.ensureCanWithdraw b' who fee ext.reason
        (cfg.native.freeBalance b' who - fee) = true := by
  obtain ⟨hfree, htotal⟩ := h.exchanged hasset hswap
  have hamount : swapAmount cfg b who fee =
      fee + (cfg.native.minimumBalance - cfg.native.totalBalance b who) :=
    Fixed.saturated_eq ((Nat.add_le_add_left (Nat.sub_le _ _) _).trans hfits)
  rw [h.withdraws hpos]
  constructor
  · rintro ⟨-, hcan, -⟩
    exact hcan
  · intro hcan
    exact ⟨by omega, hcan, by omega⟩

/-- **The swap is never too small.** The fee can be withdrawn exactly if there is none, if
    the balance there is pays it, or if the swap of the asset named goes through and no
    lock is on what it brings. -/
theorem withdrawFee_iff (h : Documented cfg) (hasset : ext.assetId ≠ some cfg.layr) {fee : Nat}
    (hfee : computeFee cfg s.nextFeeMultiplier len info ext.tip = fee)
    (hfits : fee + cfg.native.minimumBalance ≤ u128Max) :
    (∃ r s', withdrawFee cfg ext who info len s = (.ok r, s')) ↔
      fee = 0 ∨ (cfg.native.withdraw s.balances who fee ext.reason).isSome = true ∨
        ∃ asset b, ext.assetId = some asset ∧
          cfg.exchange asset who cfg.layr who (swapAmount cfg s.balances who fee) ext.slippage
            s.balances = some b ∧
          cfg.native.ensureCanWithdraw b who fee ext.reason
            (cfg.native.freeBalance b who - fee) = true := by
  have hnamed : ∀ {asset : C}, ext.assetId = some asset → asset ≠ cfg.layr := by
    rintro asset hsome rfl
    exact hasset hsome
  simp only [withdrawFee_ok, hfee]
  constructor
  · rintro ⟨r, s', ⟨hzero, -⟩ | ⟨_, b, b', rfl, hpos, hfunded, hwithdraw, -⟩⟩
    · exact .inl hzero
    · have hwithdrawn : (cfg.native.withdraw b who fee ext.reason).isSome = true := by
        rw [hwithdraw]; rfl
      cases hfunded with
      | native => exact .inr (.inl hwithdrawn)
      | swapped _ hsome hswap =>
          exact .inr (.inr ⟨_, b, hsome, hswap,
            (h.withdraws_swapped hpos (hnamed hsome) hfits hswap).mp hwithdrawn⟩)
  · intro hcases
    rcases Nat.eq_zero_or_pos fee with hzero | hpos
    · exact ⟨_, _, .inl ⟨hzero, rfl, rfl⟩⟩
    -- It is enough that some balances fund the fee and it can be withdrawn from them.
    suffices hb : ∃ b, Funded cfg ext who fee s.balances b ∧
        (cfg.native.withdraw b who fee ext.reason).isSome = true by
      obtain ⟨b, hfunded, hwithdrawn⟩ := hb
      obtain ⟨b', hwithdraw⟩ := Option.isSome_iff_exists.mp hwithdrawn
      exact ⟨_, _, .inr ⟨fee, b, b', rfl, hpos, hfunded, hwithdraw, rfl, rfl⟩⟩
    rcases hcases with hzero | hwithdrawn | ⟨asset, b, hsome, hswap, hcan⟩
    · exact absurd hzero hpos.ne'
    · exact ⟨_, .native ((nativeIsEnough_iff hpos hfits h).mpr hwithdrawn), hwithdrawn⟩
    · by_cases henough : nativeIsEnough cfg s.balances who fee ext.reason = true
      · exact ⟨_, .native henough, (nativeIsEnough_iff hpos hfits h).mp henough⟩
      · exact ⟨b, .swapped (Bool.eq_false_of_not_eq_true henough) hsome hswap,
          (h.withdraws_swapped hpos (hnamed hsome) hfits hswap).mpr hcan⟩

end Transaction

/-! ## Conservation -/

section Conservation

variable {cfg} {issuance : B → Nat} {burns : Nat → Nat → Nat} {s s' : State A B} {op : Op A C K}

/-- How the parameters act on the issuance of the native currency: withdrawing and paying back
    change it by the amount, swaps and calls only move it, and of what the handler gets it burns
    some and puts back the rest. -/
structure Conserves (cfg : Config A B C K) (issuance : B → Nat) (burns : Nat → Nat → Nat) : Prop where
  withdraw : ∀ {b b' : B} {who : A} {fee : Nat} {reason : WithdrawReasons},
    cfg.native.withdraw b who fee reason = some b' → issuance b' + fee = issuance b
  depositIntoExisting : ∀ {b b' : B} {who : A} {amount : Nat},
    cfg.native.depositIntoExisting b who amount = some b' → issuance b' = issuance b + amount
  exchange : ∀ {b b' : B} {asset : C} {who : A} {amount slippage : Nat},
    cfg.exchange asset who cfg.layr who amount slippage b = some b' → issuance b' = issuance b
  dispatch : ∀ {b b' : B} {who : A} {call : K} {post : PostDispatchInfo},
    cfg.dispatch who call b = (post, b') → issuance b' = issuance b
  onUnbalanceds : ∀ {b : B} {fee tip : Nat},
    issuance (cfg.onUnbalanceds fee tip b) + burns fee tip = issuance b + (fee + tip)

/-- What the handler burnt of all it was handed. -/
def State.burnt (s : State A B) (burns : Nat → Nat → Nat) : Nat :=
  (s.handed.map fun h => burns h.fee h.tip).sum

theorem Conserves.funded (h : Conserves cfg issuance burns) {ext : ChargeTransactionFee C} {who : A}
    {fee : Nat} {b b' : B} (hfunded : Funded cfg ext who fee b b') : issuance b' = issuance b := by
  cases hfunded with
  | native => rfl
  | swapped _ _ hswap => exact h.exchange hswap

theorem Conserves.refunded (h : Conserves cfg issuance burns) {who : A} {amount refund : Nat}
    {b b' : B}
    (hrefund : Refunded cfg who amount b b' refund) :
    issuance b' = issuance b + refund ∧ refund ≤ amount := by
  cases hrefund with
  | paid hdeposit => exact ⟨h.depositIntoExisting hdeposit, le_rfl⟩
  | refused => exact ⟨rfl, Nat.zero_le _⟩

theorem Conserves.step (h : Conserves cfg issuance burns) (hstep : step cfg s op = some s') :
    issuance s'.balances + s'.burnt burns = issuance s.balances + s.burnt burns := by
  cases op with
  | onFinalize blockWeight =>
      obtain rfl := Option.some.inj hstep
      rfl
  | transaction who ext call len =>
      cases step_transaction.mp hstep with
      | free _ hdispatch =>
          rw [h.dispatch hdispatch]
          rfl
      | @settled post b b₁ b₂ b₃ fee refund hfee hpos hfunded hwithdraw hdispatch hrefund =>
          have hwithdrawn := h.withdraw hwithdraw
          obtain ⟨hpaid, hle⟩ := h.refunded hrefund
          have hhanded :
              issuance (cfg.onUnbalanceds (fee - refund - ext.tip) (min (fee - refund) ext.tip) b₃) +
              burns (fee - refund - ext.tip) (min (fee - refund) ext.tip) =
                issuance b₃ + (fee - refund - ext.tip + min (fee - refund) ext.tip) := h.onUnbalanceds
          rw [h.dispatch hdispatch] at hpaid
          rw [h.funded hfunded] at hwithdrawn
          simp only [State.burnt, List.map_append, List.sum_append, List.map_cons, List.map_nil,
            List.sum_cons, List.sum_nil]
          omega

/-- **Fees are neither lost nor made.** Over any run the native currency shrinks by exactly what the
    handler burns of the fees and tips it is handed. -/
theorem charges_add_up (h : Conserves cfg issuance burns) {ops : List (Op A C K)}
    (hrun : run (step cfg) s ops = some s') :
    issuance s'.balances + s'.burnt burns = issuance s.balances + s.burnt burns := by
  -- What is issued and what was burnt add up to the same after every operation.
  have hkept : ∀ {t : State A B} {op : Op A C K} {t' : State A B},
      issuance t.balances + t.burnt burns = issuance s.balances + s.burnt burns → True →
        TransactionFee.step cfg t op = some t' →
        issuance t'.balances + t'.burnt burns = issuance s.balances + s.burnt burns := by
    intro t op t' ht _ hstep
    exact (h.step hstep).trans ht
  exact run_invariant hkept rfl (along_true s ops) hrun

end Conservation

/-! ## A sample -/

/-- Native balances and the balances of another currency, of the accounts 1 to 3; 3 is the
    exchange. -/
structure Accounts where
  native : Nat → Nat
  other : Nat → Nat

def Accounts.issuance (b : Accounts) : Nat := b.native 1 + b.native 2 + b.native 3

/-- A currency with the minimum balance 1, of the accounts 1 to 3. -/
def sampleNative : NativeCurrency Nat Accounts where
  minimumBalance := 1
  totalBalance := fun b who => b.native who
  freeBalance := fun b who => b.native who
  ensureCanWithdraw := fun _ who _ _ _ => decide (0 < who ∧ who ≤ 3)
  withdraw := fun b who fee _ =>
    if 0 < who ∧ who ≤ 3 ∧ fee + 1 ≤ b.native who then
      some { b with native := Function.update b.native who (b.native who - fee) }
    else none
  depositIntoExisting := fun b who amount =>
    if 0 < who ∧ who ≤ 3 ∧ 0 < b.native who then
      some { b with native := Function.update b.native who (b.native who + amount) }
    else none

/-- The exchange gives one for one, and half of what the handler gets is burnt. -/
def sampleConfig : Config Nat Accounts Nat Nat where
  adjustment := sampleAdjustment
  maxLength := 1000
  transactionByteFee := 1
  polynomial := fun weight => weight / 1000000
  native := sampleNative
  layr := 0
  exchange := fun _ who _ _ amount _ b =>
    if 0 < who ∧ who < 3 ∧ amount ≤ b.other who ∧ amount ≤ b.native 3 then
      some ⟨Function.update (Function.update b.native who (b.native who + amount)) 3
        (b.native 3 - amount), Function.update b.other who (b.other who - amount)⟩
    else none
  onUnbalanceds :=
    fun fee tip b => { b with native := Function.update b.native 2 (b.native 2 + (fee + tip) / 2) }
  dispatchInfo := fun call => ⟨call * 1000000, .normal, .yes⟩
  dispatch := fun _ call b => (⟨some (call * 500000), .yes⟩, b)

def sampleAccounts : Accounts :=
  ⟨fun who => if who = 1 then 1000 else if who = 3 then 5000 else 1, fun _ => 5000⟩

def sampleState : State Nat Accounts := ⟨nextFeeMultiplierOnEmpty, sampleAccounts, []⟩

/-- Account 1 pays from its balance, account 2 by a swap, and a block ends between the two. -/
def sampleOps : List (Op Nat Nat Nat) :=
  [.transaction 1 ⟨7, 0, none⟩ 200 20, .onFinalize 0, .transaction 2 ⟨0, 0, some 1⟩ 200 20]

theorem sample_documented : Documented sampleConfig where
  withdraws := by
    intro b who fee reason _
    show (if _ then _ else _ : Option Accounts).isSome = true ↔ fee ≤ b.native who ∧ decide _ = true ∧
      fee + 1 ≤ b.native who
    rw [decide_eq_true_eq]
    split
    next hok =>
      refine iff_of_true rfl ⟨by omega, ⟨hok.1, hok.2.1⟩, hok.2.2⟩
    next hno =>
      refine iff_of_false (by simp) ?_
      rintro ⟨-, hwho, htotal⟩
      exact hno ⟨hwho.1, hwho.2, htotal⟩
  exchanged := by
    intro asset who amount slippage b b' _ hswap
    obtain ⟨hok, hb⟩ := Option.ite_none_right_eq_some.mp hswap
    obtain rfl := Option.some.inj hb
    have hwho : who ≠ 3 := by omega
    have hbrought : b.native who + amount ≤
        Function.update (Function.update b.native who (b.native who + amount)) 3
          (b.native 3 - amount) who := by
      simp [hwho]
    exact ⟨hbrought, hbrought⟩

theorem Accounts.issuance_update (b : Accounts) (balance : Nat) {who : Nat}
    (hwho : 0 < who ∧ who ≤ 3) :
    Accounts.issuance { b with native := Function.update b.native who balance } + b.native who =
      b.issuance + balance := by
  obtain rfl | rfl | rfl : who = 1 ∨ who = 2 ∨ who = 3 := by omega
  · simp [Accounts.issuance]
    omega
  · simp [Accounts.issuance]
    omega
  · simp [Accounts.issuance]
    omega

theorem sample_conserves :
    Conserves sampleConfig Accounts.issuance fun fee tip => fee + tip - (fee + tip) / 2 where
  withdraw := by
    intro b b' who fee reason h
    obtain ⟨hok, hb⟩ := Option.ite_none_right_eq_some.mp h
    obtain rfl := Option.some.inj hb
    have hchanged := Accounts.issuance_update b (b.native who - fee) ⟨hok.1, hok.2.1⟩
    omega
  depositIntoExisting := by
    intro b b' who amount h
    obtain ⟨hok, hb⟩ := Option.ite_none_right_eq_some.mp h
    obtain rfl := Option.some.inj hb
    have hchanged := Accounts.issuance_update b (b.native who + amount) ⟨hok.1, hok.2.1⟩
    omega
  exchange := by
    intro b b' asset who amount slippage h
    obtain ⟨hok, hb⟩ := Option.ite_none_right_eq_some.mp h
    obtain rfl := Option.some.inj hb
    have hbought := Accounts.issuance_update b (b.native who + amount) ⟨hok.1, by omega⟩
    have hsold :=
      Accounts.issuance_update { b with
        native := Function.update b.native who (b.native who + amount) }
      (b.native 3 - amount) (show 0 < 3 ∧ 3 ≤ 3 by decide)
    have hwho : (3 : Nat) ≠ who := by omega
    simp only [Function.update_of_ne hwho] at hsold
    show Accounts.issuance ⟨_, _⟩ = _
    have hother :
        ∀ native other, Accounts.issuance ⟨native, other⟩ = Accounts.issuance ⟨native, b.other⟩ :=
      fun _ _ => rfl
    rw [hother]
    omega
  dispatch := by
    intro b b' who call post h
    exact congrArg Accounts.issuance (Prod.mk.inj h).2.symm
  onUnbalanceds := by
    intro b fee tip
    have hchanged :=
      Accounts.issuance_update b (b.native 2 + (fee + tip) / 2) (show 0 < 2 ∧ 2 ≤ 3 by decide)
    show Accounts.issuance { b with
      native := Function.update b.native 2 (b.native 2 + (fee + tip) / 2) } + _ = _
    omega

/-- Account 1 pays from its balance. -/
theorem charge_exact_sample :
    ∃ s', step sampleConfig sampleState (.transaction 1 ⟨7, 0, none⟩ 200 20) = some s' ∧
    HandsOn sampleConfig sampleState 1 ⟨7, 0, none⟩ 200 20 s' := by
  have hsome : (step sampleConfig sampleState (.transaction 1 ⟨7, 0, none⟩ 200 20)).isSome =
    true := by decide +kernel
  obtain ⟨s', hstep⟩ := Option.isSome_iff_exists.mp hsome
  exact ⟨s', hstep, (charge_exact (by decide)).2 s' hstep⟩

/-- Account 2 has the minimum balance only, and pays by a swap. -/
theorem withdrawFee_iff_sample :
    ∃ r s', withdrawFee sampleConfig ⟨0, 0, some 1⟩ 2 (sampleConfig.dispatchInfo 200) 20
      sampleState = (.ok r, s') := by
  have hfee : computeFee sampleConfig sampleState.nextFeeMultiplier 20
      (sampleConfig.dispatchInfo 200) 0 = 345 := by
    decide +kernel
  have hswap :
      (sampleConfig.exchange 1 2 sampleConfig.layr 2 (swapAmount sampleConfig sampleAccounts 2 345) 0
      sampleAccounts).isSome = true := by decide +kernel
  obtain ⟨b, hb⟩ := Option.isSome_iff_exists.mp hswap
  exact (withdrawFee_iff sample_documented (by decide) hfee (by decide)).mpr
    (.inr (.inr ⟨1, b, rfl, hb, rfl⟩))

/-- Half of what the handler gets is burnt. -/
theorem charges_add_up_sample : ∃ s', run (step sampleConfig) sampleState sampleOps = some s' ∧
    s'.balances.issuance + s'.burnt (fun fee tip => fee + tip - (fee + tip) / 2) = 6001 := by
  have hsome : (run (step sampleConfig) sampleState sampleOps).isSome = true := by decide +kernel
  obtain ⟨s', hrun⟩ := Option.isSome_iff_exists.mp hsome
  exact ⟨s', hrun, charges_add_up sample_conserves hrun⟩

end TransactionFee
end Composable
