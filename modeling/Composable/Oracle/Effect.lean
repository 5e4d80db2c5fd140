import Composable.Oracle.Aggregation

/-!
# `Oracle.Effect` — what an operation does to the oracle

An oracle run is a list of operations: the extrinsics, the start of a block, and whatever
happens elsewhere to the ledger. `Effect` says what an operation that returned did, and
`Residue` what one that failed left behind, since nothing is rolled back: a stake that was
transferred but could not be reserved, or a withdrawal that is gone although it could not be
paid. `step_cases` says that there is nothing else.
-/

namespace Composable
namespace Oracle

/-- An operation on the oracle. -/
inductive Op (A X : Type) where
  | addAssetAndInfo (origin : RawOrigin A) (assetId : X) (info : AssetInfo)
  | setSigner (origin : RawOrigin A) (signer : A)
  | addStake (origin : RawOrigin A) (stake : Nat)
  | removeStake (origin : RawOrigin A)
  | reclaimStake (origin : RawOrigin A)
  | submitPrice (origin : RawOrigin A) (price : Nat) (assetId : X)
  /-- Anything outside of the pallet; it takes nothing out of a reservation. -/
  | elsewhere (ledger : Ledger A Unit)
  | initializeBlock

variable {A X : Type}

/-- The operations on stakes, and the blocks that pass between them. -/
def Op.OnStake : Op A X → Prop
  | .setSigner _ _ | .addStake _ _ | .removeStake _ | .reclaimStake _ | .initializeBlock => True
  | _ => False

instance : DecidablePred (Op.OnStake : Op A X → Prop)
  | .setSigner _ _ | .addStake _ _ | .removeStake _ | .reclaimStake _
  | .initializeBlock => .isTrue trivial
  | .addAssetAndInfo _ _ _ | .submitPrice _ _ _ | .elsewhere _ => .isFalse id

variable [DecidableEq A] [DecidableEq X]

/-- The ledger after something else happened to it. -/
def elsewhere (old new : Ledger A Unit) : Ledger A Unit :=
  { new with reserved := fun x a => max (old.reserved x a) (new.reserved x a) }

/-- The call behind an operation. -/
def invoke (cfg : Config A X) : Op A X → OracleCall A X Unit
  | .addAssetAndInfo origin assetId info => addAssetAndInfo cfg origin assetId info
  | .setSigner origin signer => setSigner cfg origin signer
  | .addStake origin stake => addStake cfg origin stake
  | .removeStake origin => removeStake cfg origin
  | .reclaimStake origin => reclaimStake cfg origin
  | .submitPrice origin price assetId => submitPrice cfg origin price assetId
  | .elsewhere ledger => Call.modify fun s => { s with ledger := elsewhere s.ledger ledger }
  | .initializeBlock => initializeBlock cfg

/-- The storage after one operation, whether it returned or failed; a block whose
    start panics does not exist. -/
def step (cfg : Config A X) (s : State A X) : Op A X → Option (State A X)
  | .initializeBlock => Call.success (initializeBlock cfg) s
  | op => some (dispatch (invoke cfg op) s)

/-- The operation returns in this state. -/
def Returns (cfg : Config A X) (s : State A X) (op : Op A X) : Prop :=
  (invoke cfg op s).1.toBool = true

instance (cfg : Config A X) (s : State A X) (op : Op A X) : Decidable (Returns cfg s op) :=
  inferInstanceAs (Decidable (_ = true))

/-- The storage before any asset or stake. -/
def State.genesis (ledger : Ledger A Unit) : State A X where
  ledger := ledger
  block := 0
  assetsCount := 0
  signerToController := fun _ => none
  controllerToSigner := fun _ => none
  declaredWithdraws := fun _ => none
  oracleStake := fun _ => none
  answerInTransit := fun _ => none
  prices := fun _ => none
  priceHistory := fun _ => []
  prePrices := ∅
  assetsInfo := ∅

variable {cfg : Config A X} {s s' : State A X} {op : Op A X} {x : X} {info : AssetInfo}
variable {who signer : A} {stake : Nat} {u : Unit}

/-! ## Stakes -/

/-- What is staked for a signer. -/
def State.stakeOf (s : State A X) (w : A) : Nat := (s.oracleStake w).getD 0

/-- What was declared to be withdrawn for a signer. -/
def State.declaredOf (s : State A X) (w : A) : Nat := (s.declaredWithdraws w).elim 0 Withdraw.stake

/-- More was staked for a signer. -/
def State.staked (s : State A X) (who signer : A) (stake : Nat) : State A X :=
  { s with
    ledger := (s.ledger.move () who signer stake).lock () signer stake
    oracleStake := Function.update s.oracleStake signer (some (s.stakeOf signer + stake)) }

/-- A controller and a signer were tied together. -/
def State.pair (s : State A X) (who signer : A) : State A X :=
  { s with
    controllerToSigner := Function.update s.controllerToSigner who (some signer)
    signerToController := Function.update s.signerToController signer (some who) }

def State.unpair (s : State A X) (who signer : A) : State A X :=
  { s with
    controllerToSigner := Function.update s.controllerToSigner who none
    signerToController := Function.update s.signerToController signer none }

/-- The stake of a signer was declared to be withdrawn. -/
def State.declare (s : State A X) (signer : A) (withdrawal : Withdraw) : State A X :=
  { s with
    oracleStake := Function.update s.oracleStake signer none
    declaredWithdraws := Function.update s.declaredWithdraws signer (some withdrawal) }

/-- A declared withdrawal was taken off the books, and its stake is no longer reserved. -/
def State.withdraw (s : State A X) (signer : A) (stake : Nat) : State A X :=
  { s with
    ledger := s.ledger.unlock () signer stake
    declaredWithdraws := Function.update s.declaredWithdraws signer none }

/-- It was paid as well, and the controller and the signer were separated. -/
def State.reclaim (s : State A X) (who signer : A) (stake : Nat) : State A X :=
  ({ s.withdraw signer stake with
    ledger :=
      (s.ledger.unlock () signer stake).move () signer who stake } : State A X).unpair who signer

/-- A controller can withdraw this stake of its signer now. -/
structure Withdrawable (s : State A X) (who signer : A) (withdrawal : Withdraw) : Prop where
  signer_eq : s.controllerToSigner who = some signer
  declared : s.declaredWithdraws signer = some withdrawal
  unlocked : withdrawal.unlockBlock < s.block

/-- What the ledger says to paying a withdrawal. -/
def Config.payRefused (cfg : Config A X) (s : State A X) (who signer : A) (stake : Nat) :
    Option TokenError :=
  cfg.currency.transferRefused (s.ledger.unlock () signer stake) () signer who stake false

/-! ## Effects -/

/-- What an operation that returned did. -/
inductive Effect (cfg : Config A X) (s : State A X) : Op A X → State A X → Prop where
  | assetSet {origin : RawOrigin A} {x : X} {info : AssetInfo} (count : Nat)
      (hmin : 0 < info.minAnswers)
      (hmax : info.minAnswers ≤ info.maxAnswers) :
      Effect cfg s (.addAssetAndInfo origin x info)
        { s with assetsCount := count, assetsInfo := s.assetsInfo.insert x info }
  | signerSet {who signer : A} (hwho : s.controllerToSigner who = none)
      (hsigner : s.signerToController signer = none) :
      Effect cfg s (.setSigner (.signed who) signer)
        ((s.staked who signer cfg.minStake).pair who signer)
  | stakeAdded {who signer : A} {stake : Nat} (hsigner : s.controllerToSigner who = some signer) :
      Effect cfg s (.addStake (.signed who) stake) (s.staked who signer stake)
  | stakeRemoved {who signer : A} {stake : Nat} (hsigner : s.controllerToSigner who = some signer)
      (hstake : s.oracleStake signer = some stake) :
      Effect cfg s (.removeStake (.signed who)) (s.declare signer ⟨stake, s.block + cfg.stakeLock⟩)
  | reclaimed {who signer : A} {withdrawal : Withdraw} (h : Withdrawable s who signer withdrawal)
      (hpaid : cfg.payRefused s who signer withdrawal.stake = none) :
      Effect cfg s (.reclaimStake (.signed who)) (s.reclaim who signer withdrawal.stake)
  | submitted {who : A} {price : Nat} {x : X} {info : AssetInfo}
      (hinfo : s.assetsInfo.lookup x = some info)
      (hstake : Fixed.saturated (cfg.minStake + s.transitOf who) ≤ s.stakeOf who)
      (hnew : ∀ p ∈ s.answers x, p.who ≠ who) (hfits : (s.answers x).length < cfg.maxPrePrices) :
      Effect cfg s (.submitPrice (.signed who) price x)
        (({ s with prePrices := s.prePrices.insert x (s.answers x ++ [⟨price, s.block, who⟩]) } :
          State A X).addTransit who info.slash)
  | elsewhere {ledger : Ledger A Unit} :
      Effect cfg s (.elsewhere ledger) { s with ledger := Oracle.elsewhere s.ledger ledger }
  | started {t : State A X} (h : initializeBlock cfg s = (.ok (), t)) :
      Effect cfg s .initializeBlock t

/-- What an operation that failed left behind. -/
inductive Residue (cfg : Config A X) (s : State A X) : Op A X → State A X → Prop where
  | clean {op : Op A X} : Residue cfg s op s
  /-- The stake was transferred to the signer and could not be reserved. -/
  | unreserved {op : Op A X} (who signer : A) (stake : Nat) :
      Residue cfg s op { s with ledger := s.ledger.move () who signer stake }
  /-- The withdrawal is off the books and could not be paid. -/
  | unpaid {who signer : A} {withdrawal : Withdraw} (h : Withdrawable s who signer withdrawal)
      (hrefused : cfg.payRefused s who signer withdrawal.stake ≠ none) :
      Residue cfg s (.reclaimStake (.signed who)) (s.withdraw signer withdrawal.stake)

section Outcomes

variable {origin : RawOrigin A} {P : Unit → State A X → Prop}
  {Q : DispatchError Error → State A X → Prop}

omit [DecidableEq X] in
theorem doAddStake_outcome (hstaked : P () (s.staked who signer stake)) (hclean : ∀ e, Q e s)
    (hmoved : ∀ e, Q e { s with ledger := s.ledger.move () who signer stake }) :
    Call.Outcome P Q (doAddStake cfg who signer stake s) := by
  simp only [doAddStake, Call.get_bind, Call.outcome_bind, Call.outcome_ensure, onLedger_outcome,
    Currency.transfer_outcome, Currency.hold_outcome, Call.outcome_modify]
  exact ⟨fun _ => ⟨fun _ => ⟨fun _ => hstaked, fun e _ => hmoved _⟩, fun e _ => hclean _⟩,
    fun _ => hclean _⟩

theorem addAssetAndInfo_outcome :
    Call.Outcome (fun _ => Effect cfg s (.addAssetAndInfo origin x info))
    (fun _ => Residue cfg s (.addAssetAndInfo origin x info))
      (addAssetAndInfo cfg origin x info s) := by
  simp only [addAssetAndInfo, validateInfo, Call.get_bind, Call.outcome_bind, Call.outcome_ensure,
    Call.outcome_modify]
  have hclean : Residue cfg s (.addAssetAndInfo origin x info) s := .clean
  refine ⟨fun _ =>
    ⟨fun hmin => ⟨fun _ => ⟨fun _ => ⟨fun _ => ⟨fun hmax => ⟨fun _ => ?_, fun _ => hclean⟩,
    fun _ => hclean⟩, fun _ => hclean⟩, fun _ => hclean⟩, fun _ => hclean⟩, fun _ => hclean⟩,
      fun _ => hclean⟩
  exact .assetSet _ hmin hmax

theorem setSigner_outcome : Call.Outcome (fun _ => Effect cfg s (.setSigner origin signer))
    (fun _ => Residue cfg s (.setSigner origin signer)) (setSigner cfg origin signer s) := by
  simp only [setSigner, Call.outcome_bind, ensureSigned_outcome, Call.get_bind, Call.outcome_ensure,
    Call.outcome_modify]
  have hclean : Residue cfg s (.setSigner origin signer) s := .clean
  refine ⟨?_, fun _ => hclean⟩
  rintro who rfl
  refine ⟨fun hwho => ⟨fun hsigner => ?_, fun _ => hclean⟩, fun _ => hclean⟩
  exact doAddStake_outcome (.signerSet hwho hsigner) (fun _ => hclean) fun _ => .unreserved _ _ _

theorem addStake_outcome : Call.Outcome (fun _ => Effect cfg s (.addStake origin stake))
    (fun _ => Residue cfg s (.addStake origin stake)) (addStake cfg origin stake s) := by
  simp only [addStake, Call.outcome_bind, ensureSigned_outcome, Call.get_bind, Call.outcome_ofOption]
  have hclean : Residue cfg s (.addStake origin stake) s := .clean
  refine ⟨?_, fun _ => hclean⟩
  rintro who rfl
  refine ⟨fun signer hsigner => ?_, fun _ => hclean⟩
  exact doAddStake_outcome (.stakeAdded hsigner) (fun _ => hclean) fun _ => .unreserved _ _ _

theorem removeStake_outcome : Call.Outcome (fun _ => Effect cfg s (.removeStake origin))
    (fun _ => Residue cfg s (.removeStake origin)) (removeStake cfg origin s) := by
  simp only [removeStake, Call.outcome_bind, ensureSigned_outcome, Call.get_bind,
    Call.outcome_ofOption, Call.outcome_ensure, Call.outcome_modify]
  have hclean : Residue cfg s (.removeStake origin) s := .clean
  refine ⟨?_, fun _ => hclean⟩
  rintro who rfl
  exact ⟨fun signer hsigner =>
    ⟨fun _ => ⟨fun stake hstake => .stakeRemoved hsigner hstake, fun _ => hclean⟩,
    fun _ => hclean⟩, fun _ => hclean⟩

omit [DecidableEq X] in
/-- A withdrawal that is due is paid, or taken off the books without. -/
theorem reclaimStake_of_withdrawable {withdrawal : Withdraw}
    (h : Withdrawable s who signer withdrawal) : Call.Outcome
      (fun _ t => cfg.payRefused s who signer withdrawal.stake = none ∧
        t = s.reclaim who signer withdrawal.stake)
      (fun e t => cfg.payRefused s who signer withdrawal.stake ≠ none ∧ e = err .transferError ∧
        t = s.withdraw signer withdrawal.stake)
      (reclaimStake cfg (.signed who) s) := by
  simp only [reclaimStake, Call.outcome_bind, ensureSigned_outcome, Call.get_bind,
    Call.outcome_ofOption, Call.outcome_ensure, Call.outcome_modify, onLedger_outcome,
    Currency.unreserve_outcome, Call.outcome_attempt, Currency.transfer_outcome]
  refine ⟨fun who' hwho => ?_, fun hnot => absurd rfl (hnot who)⟩
  obtain rfl := RawOrigin.signed.inj hwho
  rw [h.signer_eq]
  refine ⟨fun signer' hsigner => ?_, fun hnone => absurd hnone (Option.some_ne_none signer)⟩
  obtain rfl := Option.some.inj hsigner
  rw [h.declared]
  refine ⟨fun withdrawal' hdeclared => ?_, fun hnone => absurd hnone (Option.some_ne_none withdrawal)⟩
  obtain rfl := Option.some.inj hdeclared
  refine ⟨fun _ => ⟨fun hpaid => ?_, fun e hrefused => ?_⟩, fun hlocked => absurd h.unlocked hlocked⟩
  · exact ⟨fun _ => ⟨hpaid, rfl⟩, fun hne => absurd trivial hne⟩
  · refine ⟨fun hok => ?_, fun _ => ⟨fun hok => ?_, fun _ => ⟨fun hnone => ?_, trivial, rfl⟩⟩⟩
    · cases hok
    · cases hok
    · exact absurd (hrefused.symm.trans hnone) (Option.some_ne_none e)

omit [DecidableEq X] in
/-- What is not due is not touched. -/
theorem reclaimStake_of_not_due
    (hnot : ∀ who signer withdrawal, origin = .signed who → ¬ Withdrawable s who signer withdrawal) :
    Call.Outcome (fun _ _ => False) (fun _ t => t = s) (reclaimStake cfg origin s) := by
  simp only [reclaimStake, Call.outcome_bind, ensureSigned_outcome, Call.get_bind,
    Call.outcome_ofOption, Call.outcome_ensure]
  refine ⟨?_, fun _ => trivial⟩
  rintro who rfl
  refine ⟨fun signer hsigner => ⟨fun withdrawal hdeclared => ⟨fun hunlocked => ?_, fun _ => trivial⟩,
    fun _ => trivial⟩, fun _ => trivial⟩
  exact absurd ⟨hsigner, hdeclared, hunlocked⟩ (hnot who signer withdrawal rfl)

theorem reclaimStake_outcome : Call.Outcome (fun _ => Effect cfg s (.reclaimStake origin))
    (fun _ => Residue cfg s (.reclaimStake origin)) (reclaimStake cfg origin s) := by
  by_cases hdue : ∃ who signer withdrawal, origin = .signed who ∧ Withdrawable s who signer withdrawal
  · obtain ⟨who, signer, withdrawal, rfl, h⟩ := hdue
    have hreclaim : Call.Outcome _ _ (reclaimStake cfg (.signed who) s) :=
      reclaimStake_of_withdrawable h
    obtain ⟨hok, herror⟩ := Call.outcome_iff.mp hreclaim
    refine Call.outcome_iff.mpr ⟨fun u t hcall => ?_, fun e t hcall => ?_⟩
    · obtain ⟨hpaid, rfl⟩ := hok u t hcall
      exact .reclaimed h hpaid
    · obtain ⟨hrefused, -, rfl⟩ := herror e t hcall
      exact .unpaid h hrefused
  · have hreclaim : Call.Outcome _ _ (reclaimStake cfg origin s) :=
      reclaimStake_of_not_due fun who signer withdrawal horigin h =>
        hdue ⟨who, signer, withdrawal, horigin, h⟩
    obtain ⟨hok, herror⟩ := Call.outcome_iff.mp hreclaim
    refine Call.outcome_iff.mpr ⟨fun u t hcall => (hok u t hcall).elim, fun e t hcall => ?_⟩
    obtain rfl := herror e t hcall
    exact .clean

omit [DecidableEq A] in
theorem isRequested_reads : (isRequested cfg x : OracleCall A X Bool).Reads := by
  refine Call.Reads.get.bind fun s => ?_
  cases s.assetsInfo.lookup x with
  | none => exact Call.Reads.pure _
  | some info => exact (Call.Reads.ensure _ _).bind fun _ => Call.Reads.pure _

theorem submitPrice_outcome {price : Nat} :
    Call.Outcome (fun _ => Effect cfg s (.submitPrice origin price x))
    (fun _ => Residue cfg s (.submitPrice origin price x)) (submitPrice cfg origin price x s) := by
  simp only [submitPrice, Call.outcome_bind, ensureSigned_outcome, Call.get_bind]
  have hclean : Residue cfg s (.submitPrice origin price x) s := .clean
  refine ⟨?_, fun _ => hclean⟩
  rintro who rfl
  refine Call.outcome_iff.mpr ⟨fun requested t hrequested => ?_, fun e t hfailed => ?_⟩
  · obtain rfl := isRequested_reads.ok hrequested
    simp only [Call.outcome_ensure, Call.outcome_ofOption, Call.outcome_modify]
    refine ⟨fun _ =>
      ⟨fun hstake => ⟨fun info hinfo => ⟨fun _ => ⟨fun hnew => ⟨fun hfits => ?_, fun _ => hclean⟩,
      fun _ => hclean⟩, fun _ => hclean⟩, fun _ => hclean⟩, fun _ => hclean⟩, fun _ => hclean⟩
    exact .submitted hinfo hstake hnew hfits
  · obtain rfl := isRequested_reads.error hfailed
    exact hclean

end Outcomes

theorem returns_iff : Returns cfg s op ↔ ∃ t, invoke cfg op s = (.ok (), t) := by
  unfold Returns
  rcases invoke cfg op s with ⟨e | u, t⟩
  · simp [Except.toBool]
  · simp [Except.toBool]

/-- What an extrinsic that returned or failed did, from what its call does. -/
theorem dispatch_residue {call : OracleCall A X Unit} (hcall : invoke cfg op = call)
    (h : Call.Outcome (fun _ => Effect cfg s op) (fun _ => Residue cfg s op) (call s)) :
    Returns cfg s op ∧ Effect cfg s op (dispatch call s) ∨
      ¬ Returns cfg s op ∧ Residue cfg s op (dispatch call s) := by
  subst hcall
  rcases dispatch_cases (invoke cfg op) s with ⟨u, hok⟩ | ⟨hfail, hleft⟩
  · exact .inl ⟨returns_iff.mpr ⟨_, hok⟩, (Call.outcome_iff.mp h).1 u _ hok⟩
  · right
    refine ⟨fun hreturns => ?_, ?_⟩
    · obtain ⟨t, ht⟩ := returns_iff.mp hreturns
      exact hfail () t ht
    · rcases hleft with hs | ⟨e, he⟩
      · rw [hs]
        exact .clean
      · exact (Call.outcome_iff.mp h).2 e _ he

/-- **A step returned or failed**, and did nothing but what its effect or residue says. -/
theorem step_cases (h : step cfg s op = some s') :
    Returns cfg s op ∧ Effect cfg s op s' ∨ ¬ Returns cfg s op ∧ Residue cfg s op s' := by
  cases op with
  | initializeBlock =>
      obtain ⟨u, hu⟩ := Call.success_eq_some.mp h
      exact .inl ⟨returns_iff.mpr ⟨s', hu⟩, .started hu⟩
  | elsewhere ledger =>
      obtain rfl := Option.some.inj h
      exact .inl ⟨returns_iff.mpr ⟨_, rfl⟩, .elsewhere⟩
  | addAssetAndInfo origin x info =>
      obtain rfl := Option.some.inj h
      exact dispatch_residue rfl addAssetAndInfo_outcome
  | setSigner origin signer =>
      obtain rfl := Option.some.inj h
      exact dispatch_residue rfl setSigner_outcome
  | addStake origin stake =>
      obtain rfl := Option.some.inj h
      exact dispatch_residue rfl addStake_outcome
  | removeStake origin =>
      obtain rfl := Option.some.inj h
      exact dispatch_residue rfl removeStake_outcome
  | reclaimStake origin =>
      obtain rfl := Option.some.inj h
      exact dispatch_residue rfl reclaimStake_outcome
  | submitPrice origin price x =>
      obtain rfl := Option.some.inj h
      exact dispatch_residue rfl submitPrice_outcome

/-- Reclaiming a withdrawal that is due returns exactly when it can be paid. -/
theorem step_of_withdrawable {withdrawal : Withdraw} (h : Withdrawable s who signer withdrawal)
    (hstep : step cfg s (.reclaimStake (.signed who)) = some s') :
    cfg.payRefused s who signer withdrawal.stake = none ∧ s' = s.reclaim who signer withdrawal.stake ∨
      ¬ Returns cfg s (.reclaimStake (.signed who)) ∧
        cfg.payRefused s who signer withdrawal.stake ≠ none ∧
          s' = s.withdraw signer withdrawal.stake := by
  obtain rfl := Option.some.inj hstep
  have hcall : Call.Outcome _ _ (reclaimStake cfg (.signed who) s) := reclaimStake_of_withdrawable h
  show _ ∧ dispatch (reclaimStake cfg (.signed who)) s = _ ∨ _ ∧ _ ∧
    dispatch (reclaimStake cfg (.signed who)) s = _
  unfold dispatch
  rcases hresult : reclaimStake cfg (.signed who) s with ⟨e | u, t⟩
  · right
    rw [hresult] at hcall
    obtain ⟨hrefused, rfl, rfl⟩ := hcall
    refine ⟨fun hreturns => ?_, hrefused, rfl⟩
    obtain ⟨t, ht⟩ := returns_iff.mp hreturns
    exact absurd (hresult.symm.trans ht) (by simp)
  · left
    rw [hresult] at hcall
    exact hcall

/-- A withdrawal that cannot be paid is taken off the books all the same. -/
theorem step_unpaid {withdrawal : Withdraw} (h : Withdrawable s who signer withdrawal)
    (hrefused : cfg.payRefused s who signer withdrawal.stake ≠ none) :
    ¬ Returns cfg s (.reclaimStake (.signed who)) ∧
      step cfg s (.reclaimStake (.signed who)) = some (s.withdraw signer withdrawal.stake) := by
  obtain ⟨t, hstep⟩ : ∃ t, step cfg s (.reclaimStake (.signed who)) = some t := ⟨_, rfl⟩
  rcases step_of_withdrawable h hstep with ⟨hpaid, -⟩ | ⟨hfails, -, rfl⟩
  · exact absurd hpaid hrefused
  · exact ⟨hfails, hstep⟩

end Oracle
end Composable
