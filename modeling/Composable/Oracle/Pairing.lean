import Composable.Oracle.Stake

/-!
# `Oracle.Pairing` — who a stake belongs to

A controller and its signer point to each other, and what is staked for a signer was deposited by
its controller. The storage does not remember who deposited what; `Deposits` does.
`reclaim_stake` separates the two although there can be a new stake by then, and a stake left
behind has no controller until somebody else sets the signer. `stakes_owned` says that this is
the only way to lose a stake to others.
-/

namespace Composable
namespace Oracle

variable {A X : Type} [DecidableEq A] [DecidableEq X]
variable {cfg : Config A X} {s s' : State A X} {op : Op A X} {who signer w c : A} {stake : Nat}

/-! ## The deposits on the books -/

/-- For each signer, the deposits its stake consists of, and those of its declared withdrawal. -/
structure Deposits (A : Type) where
  staked : A → List (Deposit A)
  declared : A → List (Deposit A)

namespace Deposits

def empty : Deposits A := ⟨fun _ => [], fun _ => []⟩

def add (d : Deposits A) (deposit : Deposit A) : Deposits A :=
  { d with staked := Function.update d.staked deposit.signer (deposit :: d.staked deposit.signer) }

/-- The stake of a signer is declared to be withdrawn; what was declared before is forgotten. -/
def declare (d : Deposits A) (signer : A) : Deposits A where
  staked := Function.update d.staked signer []
  declared := Function.update d.declared signer (d.staked signer)

/-- The declared withdrawal of a signer is taken off the books. -/
def withdraw (d : Deposits A) (signer : A) : Deposits A :=
  { d with declared := Function.update d.declared signer [] }

/-- The deposits after an operation. -/
def record (cfg : Config A X) (s : State A X) (d : Deposits A) (op : Op A X) : Deposits A :=
  match op with
  | .removeStake (.signed who) =>
      (s.controllerToSigner who).elim d fun signer => if Returns cfg s op then d.declare signer else d
  | .reclaimStake (.signed who) =>
      (s.controllerToSigner who).elim d fun signer =>
        -- The withdrawal is gone whether it is paid or not.
        if (s.declaredWithdraws signer).any fun withdrawal => withdrawal.unlockBlock < s.block then
          d.withdraw signer
        else d
  | op => (cfg.deposit s op).elim d fun deposit => if Returns cfg s op then d.add deposit else d

end Deposits

/-- A step of the storage with the deposits beside it. -/
def recordedStep (cfg : Config A X) (t : State A X × Deposits A) (op : Op A X) :
    Option (State A X × Deposits A) :=
  (step cfg t.1 op).map fun s' => (s', t.2.record cfg t.1 op)

/-- What the deposits come to. -/
def worth (deposits : List (Deposit A)) : Nat := (deposits.map Deposit.amount).sum

/-- All that was deposited is of this controller. -/
def OwnedBy (c : A) (deposits : List (Deposit A)) : Prop :=
  ∀ deposit ∈ deposits, deposit.amount ≠ 0 → deposit.controller = c

/-- Controllers and signers point to each other, and the controller of a stake is who deposited
    it. -/
structure Owned (s : State A X) (d : Deposits A) : Prop where
  paired : ∀ c w, s.controllerToSigner c = some w ↔ s.signerToController w = some c
  worth_staked : ∀ w, worth (d.staked w) = s.stakeOf w
  worth_declared : ∀ w, worth (d.declared w) = s.declaredOf w
  owner : ∀ w, s.stakeOf w ≠ 0 ∨ (s.declaredWithdraws w).isSome = true →
    ∃ c, s.signerToController w = some c ∧ OwnedBy c (d.staked w) ∧ OwnedBy c (d.declared w)

/-- Who takes a stake out, or reclaims it, is who deposited it. -/
def OnlyDepositors (s : State A X) (d : Deposits A) : Prop :=
  ∀ who w, s.controllerToSigner who = some w → OwnedBy who (d.staked w) ∧ OwnedBy who (d.declared w)

/-! ## What keeps a stake with its depositor -/

section Steps

variable {d : Deposits A}

omit [DecidableEq A] in
theorem OwnedBy.of_worth {deposits : List (Deposit A)} (h : worth deposits = 0) :
    OwnedBy c deposits := by
  intro deposit hmem hpositive
  refine absurd (List.sum_eq_zero_iff.mp h deposit.amount ?_) hpositive
  exact List.mem_map_of_mem hmem

omit [DecidableEq A] in
theorem OwnedBy.cons {deposits : List (Deposit A)} (h : OwnedBy c deposits) (signer : A) (n : Nat) :
    OwnedBy c (⟨signer, c, n⟩ :: deposits) := by
  intro deposit hmem hpositive
  rcases List.mem_cons.mp hmem with rfl | hold
  · rfl
  · exact h deposit hold hpositive

omit [DecidableEq A] [DecidableEq X] in
/-- A signer without a controller has no stake. -/
theorem Owned.free (h : Owned s d) (hnone : s.signerToController w = none) :
    s.stakeOf w = 0 ∧ s.declaredWithdraws w = none := by
  by_contra hsome
  have hstake : s.stakeOf w ≠ 0 ∨ (s.declaredWithdraws w).isSome = true := by
    by_cases hzero : s.stakeOf w = 0
    · right
      exact Option.isSome_iff_ne_none.mpr fun hdeclared => hsome ⟨hzero, hdeclared⟩
    · exact .inl hzero
  obtain ⟨c, hc, -⟩ := h.owner w hstake
  rw [hnone] at hc
  cases hc

omit [DecidableEq A] [DecidableEq X] in
/-- All that is on the books of a signer was deposited by its controller. -/
theorem Owned.ownedBy (h : Owned s d) (hc : s.signerToController w = some c) :
    OwnedBy c (d.staked w) ∧ OwnedBy c (d.declared w) := by
  by_cases hstake : s.stakeOf w ≠ 0 ∨ (s.declaredWithdraws w).isSome = true
  · obtain ⟨c', hc', hall⟩ := h.owner w hstake
    obtain rfl := Option.some.inj (hc.symm.trans hc')
    exact hall
  · rw [not_or, not_not, Bool.not_eq_true, Option.isSome_eq_false_iff,
      Option.isNone_iff_eq_none] at hstake
    refine ⟨.of_worth ((h.worth_staked w).trans hstake.1), .of_worth ((h.worth_declared w).trans ?_)⟩
    rw [State.declaredOf, hstake.2, Option.elim_none]

omit [DecidableEq A] [DecidableEq X] in
theorem Owned.onlyDepositors (h : Owned s d) : OnlyDepositors s d :=
  fun who w hsigner => h.ownedBy ((h.paired who w).mp hsigner)

omit [DecidableEq A] [DecidableEq X] in
/-- Only the stakes matter. -/
theorem Owned.of_stakes (h : Owned s d) (hs : s'.stakes = s.stakes) : Owned s' d := by
  have hcontroller : s'.signerToController = s.signerToController :=
    congrArg Stakes.signerToController hs
  have hsigner : s'.controllerToSigner = s.controllerToSigner := congrArg Stakes.controllerToSigner hs
  have hdeclared : s'.declaredWithdraws = s.declaredWithdraws := congrArg Stakes.declaredWithdraws hs
  have hstake : s'.oracleStake = s.oracleStake := congrArg Stakes.oracleStake hs
  have hstakeOf : s'.stakeOf = s.stakeOf := by
    unfold State.stakeOf
    rw [hstake]
  have hdeclaredOf : s'.declaredOf = s.declaredOf := by
    unfold State.declaredOf
    rw [hdeclared]
  refine ⟨?_, ?_, ?_, ?_⟩
  · rw [hcontroller, hsigner]
    exact h.paired
  · rw [hstakeOf]
    exact h.worth_staked
  · rw [hdeclaredOf]
    exact h.worth_declared
  · rw [hstakeOf, hdeclared, hcontroller]
    exact h.owner

omit [DecidableEq X] in
/-- A controller and a signer that are both free are tied together. -/
theorem Owned.pair (h : Owned s d) (hwho : s.controllerToSigner who = none)
    (hsigner : s.signerToController signer = none) : Owned (s.pair who signer) d where
  paired c w := by
    show Function.update s.controllerToSigner who (some signer) c = some w ↔
      Function.update s.signerToController signer (some who) w = some c
    by_cases hc : c = who
    · subst hc
      by_cases hw : w = signer
      · subst hw
        rw [Function.update_self, Function.update_self]
        exact iff_of_true rfl rfl
      · rw [Function.update_self, Function.update_of_ne hw, Option.some.injEq, ← h.paired, hwho]
        exact iff_of_false (fun heq => hw heq.symm) nofun
    · rw [Function.update_of_ne hc]
      by_cases hw : w = signer
      · subst hw
        rw [Function.update_self, Option.some.injEq, h.paired, hsigner]
        exact iff_of_false nofun fun heq => hc heq.symm
      · rw [Function.update_of_ne hw]
        exact h.paired c w
  worth_staked := h.worth_staked
  worth_declared := h.worth_declared
  owner w hstake := by
    obtain ⟨c, hc, hall⟩ := h.owner w hstake
    have hw : w ≠ signer := by
      rintro rfl
      rw [hsigner] at hc
      cases hc
    exact ⟨c, (Function.update_of_ne hw ..).trans hc, hall⟩

omit [DecidableEq X] in
/-- More is staked by the controller. -/
theorem Owned.staked (h : Owned s d) (hsigner : s.signerToController signer = some who) :
    Owned (s.staked who signer stake) (d.add ⟨signer, who, stake⟩) where
  paired := h.paired
  worth_staked w := by
    show worth (Function.update d.staked signer (_ :: d.staked signer) w) = _
    rw [stakeOf_staked]
    by_cases hw : w = signer
    · subst hw
      rw [Function.update_self, if_pos rfl, ← h.worth_staked, worth, List.map_cons, List.sum_cons,
        Nat.add_comm]
      rfl
    · rw [Function.update_of_ne hw, if_neg hw]
      exact h.worth_staked w
  worth_declared := h.worth_declared
  owner w hstake := by
    by_cases hw : w = signer
    · subst hw
      obtain ⟨hstaked, hdeclared⟩ := h.ownedBy hsigner
      refine ⟨who, hsigner, ?_, hdeclared⟩
      show OwnedBy who (Function.update d.staked w (_ :: d.staked w) w)
      rw [Function.update_self]
      exact hstaked.cons w stake
    · rw [stakeOf_staked, if_neg hw, Nat.add_zero] at hstake
      obtain ⟨c, hc, hstaked, hdeclared⟩ := h.owner w hstake
      refine ⟨c, hc, ?_, hdeclared⟩
      show OwnedBy c (Function.update d.staked signer _ w)
      rw [Function.update_of_ne hw]
      exact hstaked

omit [DecidableEq X] in
/-- The stake is declared to be withdrawn. -/
theorem Owned.declare (h : Owned s d) (hsigner : s.signerToController signer = some who)
    (hstake : s.oracleStake signer = some stake) (unlockBlock : Nat) :
    Owned (s.declare signer ⟨stake, unlockBlock⟩) (d.declare signer) where
  paired := h.paired
  worth_staked w := by
    show worth (Function.update d.staked signer [] w) = _
    rw [stakeOf_declare]
    by_cases hw : w = signer
    · subst hw
      rw [Function.update_self, if_pos rfl]
      rfl
    · rw [Function.update_of_ne hw, if_neg hw]
      exact h.worth_staked w
  worth_declared w := by
    show worth (Function.update d.declared signer (d.staked signer) w) = _
    rw [declaredOf_declare]
    by_cases hw : w = signer
    · subst hw
      rw [Function.update_self, if_pos rfl, h.worth_staked, State.stakeOf, hstake, Option.getD_some]
    · rw [Function.update_of_ne hw, if_neg hw]
      exact h.worth_declared w
  owner w hsome := by
    show ∃ c, s.signerToController w = some c ∧ OwnedBy c (Function.update d.staked signer [] w) ∧
      OwnedBy c (Function.update d.declared signer (d.staked signer) w)
    by_cases hw : w = signer
    · subst hw
      refine ⟨who, hsigner, ?_, ?_⟩
      · rw [Function.update_self]
        exact .of_worth rfl
      · rw [Function.update_self]
        exact (h.ownedBy hsigner).1
    · rw [Function.update_of_ne hw, Function.update_of_ne hw]
      refine h.owner w ?_
      rw [stakeOf_declare, if_neg hw] at hsome
      refine hsome.imp_right fun hdeclared => ?_
      rwa [declaredWithdraws_declare, Function.update_of_ne hw] at hdeclared

omit [DecidableEq X] in
/-- A declared withdrawal is taken off the books. -/
theorem Owned.withdraw (h : Owned s d) (signer : A) (stake : Nat) :
    Owned (s.withdraw signer stake) (d.withdraw signer) where
  paired := h.paired
  worth_staked := h.worth_staked
  worth_declared w := by
    show worth (Function.update d.declared signer [] w) = _
    rw [declaredOf_withdraw]
    by_cases hw : w = signer
    · subst hw
      rw [Function.update_self, if_pos rfl]
      rfl
    · rw [Function.update_of_ne hw, if_neg hw]
      exact h.worth_declared w
  owner w hsome := by
    show ∃ c, s.signerToController w = some c ∧ OwnedBy c (d.staked w) ∧
      OwnedBy c (Function.update d.declared signer [] w)
    by_cases hw : w = signer
    · subst hw
      have hstake : s.stakeOf w ≠ 0 := by
        rcases hsome with hstake | hdeclared
        · exact hstake
        · rw [declaredWithdraws_withdraw, Function.update_self] at hdeclared
          cases hdeclared
      obtain ⟨c, hc, hstaked, -⟩ := h.owner w (.inl hstake)
      rw [Function.update_self]
      exact ⟨c, hc, hstaked, .of_worth rfl⟩
    · rw [Function.update_of_ne hw]
      refine h.owner w (hsome.imp_right fun hdeclared => ?_)
      rwa [declaredWithdraws_withdraw, Function.update_of_ne hw] at hdeclared

omit [DecidableEq X] in
/-- A controller is separated from a signer without a stake. -/
theorem Owned.unpair (h : Owned s d) (hwho : s.controllerToSigner who = some signer)
    (hstake : s.stakeOf signer = 0) (hdeclared : s.declaredWithdraws signer = none) :
    Owned (s.unpair who signer) d where
  paired c w := by
    show Function.update s.controllerToSigner who none c = some w ↔
      Function.update s.signerToController signer none w = some c
    have hsigner := (h.paired who signer).mp hwho
    by_cases hc : c = who
    · subst hc
      rw [Function.update_self]
      by_cases hw : w = signer
      · subst hw
        rw [Function.update_self]
        exact iff_of_false nofun nofun
      · rw [Function.update_of_ne hw, ← h.paired, hwho, Option.some.injEq]
        exact iff_of_false nofun fun heq => hw heq.symm
    · rw [Function.update_of_ne hc]
      by_cases hw : w = signer
      · subst hw
        rw [Function.update_self, h.paired, hsigner, Option.some.injEq]
        exact iff_of_false (fun heq => hc heq.symm) nofun
      · rw [Function.update_of_ne hw]
        exact h.paired c w
  worth_staked := h.worth_staked
  worth_declared := h.worth_declared
  owner w hsome := by
    have hw : w ≠ signer := by
      rintro rfl
      rcases hsome with hpositive | hdeclared'
      · exact hpositive hstake
      · rw [State.unpair, hdeclared] at hdeclared'
        cases hdeclared'
    obtain ⟨c, hc, hall⟩ := h.owner w hsome
    exact ⟨c, (Function.update_of_ne hw ..).trans hc, hall⟩

/-! ## Steps and runs -/

/-- A withdrawal is paid only when there is no other stake. -/
def ReclaimsAll (cfg : Config A X) (s : State A X) : Op A X → Prop
  | .reclaimStake (.signed who) =>
      ∀ signer withdrawal, Withdrawable s who signer withdrawal →
        cfg.payRefused s who signer withdrawal.stake = none → s.stakeOf signer = 0
  | _ => True

/-- What becomes of the deposits when a withdrawal is due. -/
theorem record_of_withdrawable {withdrawal : Withdraw} (h : Withdrawable s who signer withdrawal) :
    d.record cfg s (.reclaimStake (.signed who)) = d.withdraw signer := by
  unfold Deposits.record
  simp only [h.signer_eq, Option.elim_some, h.declared, Option.any_some, h.unlocked,
    decide_true, if_true]

/-- An operation that fails changes nothing else. -/
theorem record_of_fails (hfails : ¬ Returns cfg s op)
    (hdue : ¬ ∃ who signer withdrawal, op = .reclaimStake (.signed who) ∧
      Withdrawable s who signer withdrawal) :
    d.record cfg s op = d := by
  have hconst {β : Type} (o : Option β) : o.elim d (fun _ => d) = d := by cases o <;> rfl
  unfold Deposits.record
  split
  · simp only [if_neg hfails]
    exact hconst _
  · rename_i who
    cases hsigner : s.controllerToSigner who with
    | none => rfl
    | some signer =>
        rw [Option.elim_some]
        refine if_neg fun hunlocked => ?_
        obtain ⟨withdrawal, hdeclared, hlt⟩ := (Option.any_eq_true _ _).mp hunlocked
        exact hdue ⟨who, signer, withdrawal, rfl, hsigner, hdeclared, of_decide_eq_true hlt⟩
  · simp only [if_neg hfails]
    exact hconst _

/-- **One step.** -/
theorem Owned.step (h : Owned s d) (hop : ReclaimsAll cfg s op) (hstep : step cfg s op = some s') :
    Owned s' (d.record cfg s op) := by
  by_cases hdue : ∃ who signer withdrawal, op = .reclaimStake (.signed who) ∧
      Withdrawable s who signer withdrawal
  · obtain ⟨who, signer, withdrawal, rfl, hdue⟩ := hdue
    rw [record_of_withdrawable hdue]
    have hwithdrawn : Owned (s.withdraw signer withdrawal.stake) (d.withdraw signer) := h.withdraw _ _
    rcases step_of_withdrawable hdue hstep with ⟨hpaid, rfl⟩ | ⟨-, -, rfl⟩
    · have hfree : (s.withdraw signer withdrawal.stake).declaredWithdraws signer = none :=
        Function.update_self ..
      exact (hwithdrawn.unpair hdue.signer_eq (hop _ _ hdue hpaid) hfree).of_stakes rfl
    · exact hwithdrawn
  · rcases step_cases hstep with ⟨hreturns, heffect⟩ | ⟨hfails, hresidue⟩
    · cases heffect with
      | @signerSet who signer hwho hsigner =>
          have hrecord : d.record cfg s (.setSigner (.signed who) signer) =
              d.add ⟨signer, who, cfg.minStake⟩ := by
            simp only [Deposits.record, Config.deposit, Option.elim_some, if_pos hreturns]
          rw [hrecord]
          exact ((h.pair hwho hsigner).staked (Function.update_self ..)).of_stakes rfl
      | @stakeAdded who signer stake hsigner =>
          have hrecord :
              d.record cfg s (.addStake (.signed who) stake) = d.add ⟨signer, who, stake⟩ := by
            simp only [Deposits.record, Config.deposit, hsigner, Option.map_some, Option.elim_some,
              if_pos hreturns]
          rw [hrecord]
          exact h.staked ((h.paired _ _).mp hsigner)
      | @stakeRemoved who signer stake hsigner hstake =>
          have hrecord : d.record cfg s (.removeStake (.signed who)) = d.declare signer := by
            simp only [Deposits.record, hsigner, Option.elim_some, if_pos hreturns]
          rw [hrecord]
          exact h.declare ((h.paired _ _).mp hsigner) hstake _
      | reclaimed hwithdrawable _ => exact absurd ⟨_, _, _, rfl, hwithdrawable⟩ hdue
      | assetSet _ _ _ => exact h.of_stakes rfl
      | submitted _ _ _ _ => exact h.of_stakes rfl
      | elsewhere => exact h.of_stakes rfl
      | started hcall => exact h.of_stakes (initializeBlock_frame hcall).1
    · rw [record_of_fails hfails hdue]
      cases hresidue with
      | clean => exact h
      | unreserved _ _ _ => exact h.of_stakes rfl
      | unpaid hwithdrawable _ => exact absurd ⟨_, _, _, rfl, hwithdrawable⟩ hdue

/-- A step that pays a withdrawal and leaves another stake behind leaves it without a controller. -/
theorem step_abandons (hop : ¬ ReclaimsAll cfg s op) :
    ∃ s', step cfg s op = some s' ∧ ∀ d', ¬ Owned s' d' := by
  cases op with
  | reclaimStake origin =>
      cases origin with
      | signed who =>
          obtain ⟨signer, withdrawal, hdue, hpaid, hleft⟩ : ∃ signer withdrawal,
              Withdrawable s who signer withdrawal ∧
                cfg.payRefused s who signer withdrawal.stake = none ∧
                s.stakeOf signer ≠ 0 := by
            simpa [ReclaimsAll] using hop
          obtain ⟨t, hstep⟩ : ∃ t, step cfg s (.reclaimStake (.signed who)) = some t := ⟨_, rfl⟩
          refine ⟨t, hstep, fun d' howned => ?_⟩
          rcases step_of_withdrawable hdue hstep with ⟨-, rfl⟩ | ⟨-, hrefused, -⟩
          · obtain ⟨c, hc, -⟩ := howned.owner signer (.inl hleft)
            have hnone : (s.reclaim who signer withdrawal.stake).signerToController signer = none :=
              Function.update_self ..
            rw [hnone] at hc
            cases hc
          · exact hrefused hpaid
      | root => exact absurd trivial hop
      | none => exact absurd trivial hop
  | _ => exact absurd trivial hop

end Steps

/-- **Stakes stay with their controllers exactly when** a withdrawal is paid only when the signer
    has no other stake: then in every state of the run controllers and signers point to each other,
    the controller of a signer with a stake or a declared withdrawal is who deposited it, and
    nobody else can take it out. -/
theorem stakes_owned (cfg : Config A X) (ledger : Ledger A Unit) (ops : List (Op A X)) :
    Throughout (recordedStep cfg) (fun t => Owned t.1 t.2 ∧ OnlyDepositors t.1 t.2)
        (State.genesis ledger, Deposits.empty) ops ↔
      Along (step cfg) (ReclaimsAll cfg) (State.genesis ledger) ops := by
  have hgenesis : Owned (State.genesis ledger : State A X) Deposits.empty := by
    refine ⟨fun _ _ => iff_of_false nofun nofun, fun _ => rfl, fun _ => rfl, fun w hsome => ?_⟩
    rcases hsome with hstake | hdeclared
    · exact absurd rfl hstake
    · cases hdeclared
  have hrecorded : Along (recordedStep cfg) (fun t op => ReclaimsAll cfg t.1 op)
      (State.genesis ledger, Deposits.empty) ops ↔
        Along (step cfg) (ReclaimsAll cfg) (State.genesis ledger) ops := along_recorded
  -- The deposits that are recorded beside the state have no influence on it.
  rw [← hrecorded]
  refine throughout_iff_along (I := fun t : State A X × Deposits A => Owned t.1 t.2)
    (fun h => ⟨h, h.onlyDepositors⟩) (fun h hop hstep => ?_) (fun h hop => ?_) hgenesis
  · obtain ⟨s', hs', rfl⟩ := Option.map_eq_some_iff.mp hstep
    exact h.step hop hs'
  · obtain ⟨s', hs', hlost⟩ := step_abandons hop
    exact ⟨_, Option.map_eq_some_iff.mpr ⟨s', hs', rfl⟩, fun hboth => hlost _ hboth.1⟩

/-- Account `1` stakes for signer `2`, takes the stake out, stakes again and
    reclaims the first stake. -/
def abandonOps : List (Op Nat Nat) :=
  [.setSigner (.signed 1) 2, .removeStake (.signed 1), .addStake (.signed 1) 5, .initializeBlock,
    .initializeBlock, .reclaimStake (.signed 1)]

/-- **A stake is abandoned**: signer `2` has a stake of five and no controller. -/
theorem stake_abandoned : ¬ ∀ ops : List (Op Nat Nat), (∀ op ∈ ops, op.OnStake) → ∀ s' w,
    run (step sample) (State.genesis sampleLedger) ops = some s' →
      s'.stakeOf w ≠ 0 ∨ (s'.declaredWithdraws w).isSome = true →
        ∃ c, s'.signerToController w = some c := by
  intro hall
  have hview : (run (step sample) (State.genesis sampleLedger) abandonOps).map
      (fun s' : State Nat Nat => (s'.stakeOf 2, s'.signerToController 2)) = some (5, none) := by
    decide +kernel
  obtain ⟨s', hrun, hs'⟩ := Option.map_eq_some_iff.mp hview
  obtain ⟨hstake, hnone⟩ := Prod.mk.inj hs'
  have hpositive : s'.stakeOf 2 ≠ 0 := by
    rw [hstake]
    decide
  obtain ⟨c, hc⟩ := hall abandonOps (by decide) s' 2 hrun (.inl hpositive)
  rw [hnone] at hc
  cases hc

end Oracle
end Composable
