import Composable.CrowdloanRewards.Payouts

/-!
# `CrowdloanRewards.Validation` — the filter on free transactions

`associate` is an unsigned call without fees, so `validate_unsigned` of
`frame/crowdloan-rewards/src/lib.rs` decides what gets into a block. It repeats the checks of
`do_associate`: the start of the vesting, the association, the proof and the reward. It does not ask
whether anything is left to claim, which the dispatch does; what passes the filter dispatches
exactly when something is (`validated_associates_iff`).
-/

namespace Composable
namespace CrowdloanRewards

/-! ## `validate_unsigned` -/

inductive ValidityError where
  | invalidProof
  | noReward
  | alreadyAssociated
  | notClaimableYet
deriving DecidableEq, Repr

inductive InvalidTransaction where
  | custom (error : ValidityError)
  /-- The call of the transaction is not expected. -/
  | call
deriving DecidableEq, Repr

/-- A transaction that may enter the pool, with the tag that no other
    transaction there may provide. -/
structure ValidTransaction (R : Type) where
  tagPrefix : String
  provides : RemoteAccount R
deriving DecidableEq

/-- What an unsigned transaction calls. -/
inductive UnsignedCall (A R : Type) where
  | associate (rewardAccount : A) (proof : Proof R)
  | other

variable {A R X : Type} [DecidableEq R] (cfg : Config A R X)

def validateUnsigned (now : Nat) :
    UnsignedCall A R → Call (State A R X) InvalidTransaction (ValidTransaction R)
  | .associate rewardAccount proof => do
      let s ← Call.get
      let start ← Call.ofOption s.vestingBlockStart (.custom .notClaimableYet)
      Call.ensure (start ≤ now) (.custom .notClaimableYet)
      Call.ensure (s.associations rewardAccount = none) (.custom .alreadyAssociated)
      let remote ← Call.zoom id (fun s _ => s) (fun _ => .custom .invalidProof)
        (getRemoteAccount cfg rewardAccount proof)
      let reward ← Call.ofOption (s.rewards.lookup remote) (.custom .noReward)
      Call.ensure (reward.total ≠ 0) (.custom .noReward)
      pure ⟨"CrowdloanRewardsAssociationCheck", remote⟩
  | .other => Call.fail .call

/-! ## The filter and the dispatch -/

variable {cfg} {now start : Nat} {s s' : State A R X} {account : A} {proof : Proof R}
  {remote : RemoteAccount R}
variable {reward : Reward}

/-- All that the filter checks of an association. -/
structure Validated (cfg : Config A R X) (now : Nat) (s : State A R X) (account : A)
    (proof : Proof R) (start : Nat) (remote : RemoteAccount R) (reward : Reward) : Prop where
  started : s.vestingBlockStart = some start
  enabled : start ≤ now
  unassociated : s.associations account = none
  proven : getRemoteAccount cfg account proof s = (.ok remote, s)
  reward_eq : s.rewards.lookup remote = some reward
  nonzero : reward.total ≠ 0

/-- **The filter** accepts exactly what passes its checks, and changes nothing. -/
theorem validateUnsigned_ok {valid : ValidTransaction R} :
    validateUnsigned cfg now (.associate account proof) s = (.ok valid, s') ↔
      (∃ start remote reward, Validated cfg now s account proof start remote reward ∧
        valid = ⟨"CrowdloanRewardsAssociationCheck", remote⟩) ∧ s' = s := by
  simp only [validateUnsigned, Call.get_bind, Call.bind_ok, Call.ofOption_ok, Call.ensure_ok,
    Call.zoom_ok, Call.pure_ok, id_eq]
  constructor
  · rintro ⟨start, _, ⟨hstart, rfl⟩, _, _, ⟨henabled, rfl⟩, _, _, ⟨hassociation, rfl⟩, remote, _, ⟨_, hproof, rfl⟩,
      reward, _, ⟨hreward, rfl⟩, _, _, ⟨hnonzero, rfl⟩, rfl, rfl⟩
    obtain rfl := (getRemoteAccount_reads account proof).ok hproof
    exact ⟨⟨start, remote, reward, ⟨hstart, henabled, hassociation, hproof, hreward, hnonzero⟩,
      rfl⟩, rfl⟩
  · rintro ⟨⟨start, remote, reward, h, rfl⟩, rfl⟩
    exact ⟨start, s', ⟨h.started, rfl⟩, (), s', ⟨h.enabled, rfl⟩, (), s', ⟨h.unassociated, rfl⟩,
      remote, s',
      ⟨s', h.proven, rfl⟩, reward, s', ⟨h.reward_eq, rfl⟩, (), s', ⟨h.nonzero, rfl⟩, rfl, rfl⟩

/-- Something is left to claim of the reward, and the ledger mints it. -/
def Claimable (cfg : Config A R X) (now : Nat) (s : State A R X) (account : A) (start : Nat)
    (reward : Reward) : Prop :=
  ∃ should, vested cfg reward (now - start) = some should ∧ reward.claimed < should ∧
    cfg.currency.mintRefused s.ledger cfg.native account (should - reward.claimed) = none

variable [DecidableEq A] [DecidableEq X]

/-- An association that passed the filter returns when its reward is claimable. -/
theorem Validated.associates_iff (h : Validated cfg now s account proof start remote reward) :
    (∃ amount t, doAssociate cfg now account proof s = (.ok amount, t)) ↔
      Claimable cfg now s account start reward := by
  simp only [doAssociate, Call.get_bind, Call.bind_ok, Call.ofOption_ok, Call.ensure_ok,
    Call.modify_ok, Call.pure_ok]
  constructor
  · rintro ⟨_, _, start', _, ⟨hstart, rfl⟩, _, _, ⟨-, rfl⟩, remote', _, hproof, _, _, ⟨-, rfl⟩, claimed, _, hclaim, -⟩
    obtain ⟨rfl, rfl⟩ : remote' = remote ∧ _ := by
      have hsame := h.proven.symm.trans hproof
      exact ⟨(Except.ok.inj (congrArg Prod.fst hsame)).symm, congrArg Prod.snd hsame⟩
    obtain ⟨reward', start'', should, hreward, hstart', hshould, hpos, hmint, -, -⟩ :=
      doClaim_ok.mp hclaim
    obtain rfl : reward = reward' := Option.some.inj (h.reward_eq.symm.trans hreward)
    obtain rfl : start = start'' := Option.some.inj (h.started.symm.trans hstart')
    exact ⟨should, hshould, Nat.lt_of_sub_pos hpos, hmint⟩
  · rintro ⟨should, hshould, hclaimed, hmint⟩
    have hclaim := doClaim_ok.mpr
      ⟨reward, start, should, h.reward_eq, h.started, hshould, Nat.sub_pos_of_lt hclaimed,
        hmint, rfl, rfl⟩
    exact ⟨_, _, start, s, ⟨h.started, rfl⟩, (), s, ⟨h.enabled, rfl⟩, remote, s, h.proven, (), s,
      ⟨h.unassociated, rfl⟩, _, _, hclaim, (), _, rfl, rfl, rfl⟩

/-- **A free association that passes the filter dispatches exactly when something is left to claim**
    of the reward of the account that signed it. -/
theorem validated_associates_iff (cfg : Config A R X) (now : Nat) (s : State A R X) (account : A)
    (proof : Proof R) :
    ((∃ valid t, validateUnsigned cfg now (.associate account proof) s = (.ok valid, t)) →
        ∃ amount t, doAssociate cfg now account proof s = (.ok amount, t)) ↔
      ∀ start remote reward, Validated cfg now s account proof start remote reward →
        Claimable cfg now s account start reward := by
  constructor
  · intro hdispatches start remote reward h
    exact h.associates_iff.mp
      (hdispatches ⟨_, s, validateUnsigned_ok.mpr ⟨⟨start, remote, reward, h, rfl⟩, rfl⟩⟩)
  -- The pool has made the checks of the call, but for the claim itself.
  · rintro hclaimable ⟨valid, t, hvalid⟩
    obtain ⟨⟨start, remote, reward, h, -⟩, -⟩ := validateUnsigned_ok.mp hvalid
    exact h.associates_iff.mpr (hclaimable start remote reward h)

/-- Account `7` has claimed all of the reward of the remote account `1`. -/
def exhaustedOps : List (Op Nat Nat) :=
  [.populate .root [(.relayChain 1, 100, 40)], .initializeNow .root,
    .associate .none 7 (.relayChain 1 (.ed25519 (Vector.replicate 64 0))), .block 40,
    .claim (.signed 7)]

/-- Account `8` has a valid proof as well: its association passes the filter, but
    there is nothing to claim. -/
theorem validated_associates_fails :
    ¬ ∀ (ops : List (Op Nat Nat)) (c : Chain Nat Nat Nat) (account : Nat) (proof : Proof Nat),
      run (step sample) ⟨State.genesis Ledger.empty, 0⟩ ops = some c →
      (∃ valid t, validateUnsigned sample c.now (.associate account proof) c.pallet =
        (.ok valid, t)) →
        ∃ amount t, doAssociate sample c.now account proof c.pallet = (.ok amount, t) := by
  intro h
  have hview : (run (step sample) ⟨State.genesis Ledger.empty, 0⟩ exhaustedOps).map (fun c =>
      ((validateUnsigned sample c.now
        (.associate 8 (.relayChain 1 (.ed25519 (Vector.replicate 64 0)))) c.pallet).1.toBool,
        (doAssociate sample c.now 8 (.relayChain 1 (.ed25519 (Vector.replicate 64 0))) c.pallet).1)) =
      some (true, .error (.module .nothingToClaim)) := by
    decide +kernel
  obtain ⟨c, hc, hends⟩ := Option.map_eq_some_iff.mp hview
  obtain ⟨hvalid, hfailed⟩ := Prod.mk.inj hends
  obtain ⟨amount, t, hreturned⟩ := h exhaustedOps c 8 _ hc (by
    rcases hcall : validateUnsigned sample c.now _ c.pallet with ⟨e | valid, t⟩
    · rw [hcall] at hvalid
      cases hvalid
    · exact ⟨valid, t, rfl⟩)
  rw [hreturned] at hfailed
  cases hfailed

end CrowdloanRewards
end Composable
