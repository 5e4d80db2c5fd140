import Composable.Support.Run
import Composable.Support.SortedVec
import Composable.Support.StorageMap
import Composable.Traits.Currency
import Mathlib.Data.Nat.Sqrt

/-!
# `Democracy.Model` — voting, delegation and referenda of the democracy pallet

`frame/democracy/src`: the votes of an account are kept per asset (`VotingOf`), referenda by
index alone (`ReferendumInfoOf`), and the tally of a referendum is adjusted with every vote
and every delegation. Embedded are `vote.rs`, `conviction.rs`, `types.rs`,
`vote_threshold.rs`, the calls that touch votes, and `begin_block`. The queues of proposals,
preimages and the scheduler are not: what they hand over (a referendum to launch, what an
approved proposal dispatches) comes in with the operation.

No call but `blacklist` is transactional: what a failed call has written stays.

## Contents
- **Votes**: `Conviction`, `AccountVote`, `PriorLock`, `Voting`, `Tally`, `VoteThreshold`.
- **Storage** and the calls of `lib.rs`, under their names.
- **Blocks**: the loop of `begin_block` in steps, because an approved proposal without delay is
  dispatched in the middle of it.
-/

namespace Composable
namespace Democracy

/-! ## Votes -/

structure Delegations where
  votes : Nat
  capital : Nat
deriving DecidableEq, Repr

namespace Delegations

/-- `Default`. -/
def zero : Delegations := ⟨0, 0⟩

def saturatingAdd (max : Nat) (d o : Delegations) : Delegations :=
  ⟨min (d.votes + o.votes) max, min (d.capital + o.capital) max⟩

def saturatingSub (d o : Delegations) : Delegations := ⟨d.votes - o.votes, d.capital - o.capital⟩

end Delegations

inductive Conviction where
  | none
  | locked1x
  | locked2x
  | locked3x
  | locked4x
  | locked5x
  | locked6x
deriving DecidableEq, Repr

namespace Conviction

/-- `u8::from`. -/
def toNat : Conviction → Nat
  | .none => 0
  | .locked1x => 1
  | .locked2x => 2
  | .locked3x => 3
  | .locked4x => 4
  | .locked5x => 5
  | .locked6x => 6

def lockPeriods : Conviction → Nat
  | .none => 0
  | .locked1x => 1
  | .locked2x => 2
  | .locked3x => 4
  | .locked4x => 8
  | .locked5x => 16
  | .locked6x => 32

/-- The votes of a voter of the given balance. -/
def votes (max : Nat) (c : Conviction) (capital : Nat) : Delegations :=
  match c with
  | .none => ⟨capital / 10, capital⟩
  | c => ⟨if capital * c.toNat ≤ max then capital * c.toNat else max, capital⟩

end Conviction

structure Vote where
  aye : Bool
  conviction : Conviction
deriving DecidableEq, Repr

inductive AccountVote where
  | standard (vote : Vote) (balance : Nat)
  | split (aye nay : Nat)
deriving DecidableEq, Repr

namespace AccountVote

/-- The lock periods and the balance that stay locked, if the referendum passed iff `approved`. -/
def lockedIf (v : AccountVote) (approved : Bool) : Option (Nat × Nat) :=
  match v with
  | .standard vote balance =>
      if vote.aye = approved then some (vote.conviction.lockPeriods, balance) else none
  | .split .. => none

/-- The total balance involved. -/
def balance (max : Nat) : AccountVote → Nat
  | .standard _ balance => balance
  | .split aye nay => min (aye + nay) max

def asStandard : AccountVote → Option Bool
  | .standard vote _ => some vote.aye
  | .split .. => none

end AccountVote

/-- A lock for some now-forgotten reason. -/
structure PriorLock where
  till : Nat
  amount : Nat
deriving DecidableEq, Repr

namespace PriorLock

/-- `Default`. -/
def zero : PriorLock := ⟨0, 0⟩

def accumulate (p : PriorLock) (till amount : Nat) : PriorLock :=
  ⟨max p.till till, max p.amount amount⟩

def rejig (p : PriorLock) (now : Nat) : PriorLock := if p.till ≤ now then zero else p

end PriorLock

/-- What an account is doing in an asset. -/
inductive Voting (A : Type) where
  | direct (votes : List (Nat × AccountVote)) (delegations : Delegations) (prior : PriorLock)
  | delegating (balance : Nat) (target : A) (conviction : Conviction) (delegations : Delegations)
      (prior : PriorLock)
deriving DecidableEq, Repr

namespace Voting

variable {A : Type}

/-- `Default`. -/
def idle : Voting A := .direct [] .zero .zero

def rejig (now : Nat) : Voting A → Voting A
  | .direct votes delegations prior => .direct votes delegations (prior.rejig now)
  | .delegating balance target conviction delegations prior =>
      .delegating balance target conviction delegations (prior.rejig now)

/-- The amount that must be locked due to voting. -/
def lockedBalance (max : Nat) : Voting A → Nat
  | .direct votes _ prior => votes.foldl (fun a v => Nat.max a (v.2.balance max)) prior.amount
  | .delegating balance .. => balance

def votes : Voting A → List (Nat × AccountVote)
  | .direct votes .. => votes
  | .delegating .. => []

def delegations : Voting A → Delegations
  | .direct _ delegations _ => delegations
  | .delegating _ _ _ delegations _ => delegations

def prior : Voting A → PriorLock
  | .direct _ _ prior => prior
  | .delegating _ _ _ _ prior => prior

/-- The same, with other delegations. -/
def setDelegations (d : Delegations) : Voting A → Voting A
  | .direct votes _ prior => .direct votes d prior
  | .delegating balance target conviction _ prior => .delegating balance target conviction d prior

end Voting

/-! ## Tallies -/

structure Tally where
  ayes : Nat
  nays : Nat
  turnout : Nat
deriving DecidableEq, Repr

namespace Tally

/-- `Default`. -/
def zero : Tally := ⟨0, 0, 0⟩

def checkedAdd (max n m : Nat) : Option Nat := if n + m ≤ max then some (n + m) else none

def checkedSub (n m : Nat) : Option Nat := if m ≤ n then some (n - m) else none

/-- Add the vote of an account. -/
def add (max : Nat) (t : Tally) : AccountVote → Option Tally
  | .standard vote balance => do
      let d := vote.conviction.votes max balance
      let turnout ← checkedAdd max t.turnout d.capital
      if vote.aye then do
        let ayes ← checkedAdd max t.ayes d.votes
        pure ⟨ayes, t.nays, turnout⟩
      else do
        let nays ← checkedAdd max t.nays d.votes
        pure ⟨t.ayes, nays, turnout⟩
  | .split aye nay => do
      let aye := Conviction.none.votes max aye
      let nay := Conviction.none.votes max nay
      let turnout ← checkedAdd max t.turnout aye.capital
      let turnout ← checkedAdd max turnout nay.capital
      let ayes ← checkedAdd max t.ayes aye.votes
      let nays ← checkedAdd max t.nays nay.votes
      pure ⟨ayes, nays, turnout⟩

/-- Remove the vote of an account. -/
def remove (max : Nat) (t : Tally) : AccountVote → Option Tally
  | .standard vote balance => do
      let d := vote.conviction.votes max balance
      let turnout ← checkedSub t.turnout d.capital
      if vote.aye then do
        let ayes ← checkedSub t.ayes d.votes
        pure ⟨ayes, t.nays, turnout⟩
      else do
        let nays ← checkedSub t.nays d.votes
        pure ⟨t.ayes, nays, turnout⟩
  | .split aye nay => do
      let aye := Conviction.none.votes max aye
      let nay := Conviction.none.votes max nay
      let turnout ← checkedSub t.turnout aye.capital
      let turnout ← checkedSub turnout nay.capital
      let ayes ← checkedSub t.ayes aye.votes
      let nays ← checkedSub t.nays nay.votes
      pure ⟨ayes, nays, turnout⟩

/-- Increment by delegations. -/
def increase (max : Nat) (t : Tally) (approve : Bool) (d : Delegations) : Tally :=
  if approve then ⟨min (t.ayes + d.votes) max, t.nays, min (t.turnout + d.capital) max⟩
  else ⟨t.ayes, min (t.nays + d.votes) max, min (t.turnout + d.capital) max⟩

/-- Decrement by delegations. -/
def reduce (t : Tally) (approve : Bool) (d : Delegations) : Tally :=
  if approve then ⟨t.ayes - d.votes, t.nays, t.turnout - d.capital⟩
  else ⟨t.ayes, t.nays - d.votes, t.turnout - d.capital⟩

/-- A vote goes in: `add`, and for a standard vote `increase` by what is delegated to the voter. -/
def enter (max : Nat) (t : Tally) (vote : AccountVote) (d : Delegations) : Option Tally := do
  let t ← t.add max vote
  match vote.asStandard with
  | some approve => pure (t.increase max approve d)
  | none => pure t

/-- A vote goes out: `remove`, and for a standard vote `reduce`. -/
def retract (max : Nat) (t : Tally) (vote : AccountVote) (d : Delegations) : Option Tally := do
  let t ← t.remove max vote
  match vote.asStandard with
  | some approve => pure (t.reduce approve d)
  | none => pure t

end Tally

inductive VoteThreshold where
  | superMajorityApprove
  | superMajorityAgainst
  | simpleMajority
deriving DecidableEq, Repr

/-- `n1 / d1 < n2 / d2`, by continued fractions. A division by zero panics. -/
def compareRationals (n1 d1 n2 d2 : Nat) : Option Bool :=
  if d1 = 0 ∨ d2 = 0 then none
  else if n1 / d1 < n2 / d2 then some true
  else if n2 / d2 < n1 / d1 then some false
  else if n2 % d2 = 0 then some false
  else if n1 % d1 = 0 then some true
  else compareRationals d2 (n2 % d2) d1 (n1 % d1)
termination_by d1 + d2
decreasing_by
  have h1 : n1 % d1 < d1 := Nat.mod_lt _ (by omega)
  have h2 : n2 % d2 < d2 := Nat.mod_lt _ (by omega)
  omega

/-- `Approved::approved`. -/
def VoteThreshold.approved (threshold : VoteThreshold) (tally : Tally) (electorate : Nat) :
    Option Bool :=
  if tally.turnout.sqrt = 0 then some false
  else match threshold with
    | .superMajorityApprove =>
        compareRationals tally.nays tally.turnout.sqrt tally.ayes electorate.sqrt
    | .superMajorityAgainst =>
        compareRationals tally.nays electorate.sqrt tally.ayes tally.turnout.sqrt
    | .simpleMajority => some (decide (tally.nays < tally.ayes))

/-! ## Storage -/

structure ProposalId (X H : Type) where
  hash : H
  asset : X
deriving DecidableEq, Repr

structure ReferendumStatus (X H : Type) where
  end_ : Nat
  proposalId : ProposalId X H
  threshold : VoteThreshold
  delay : Nat
  tally : Tally
deriving DecidableEq, Repr

inductive ReferendumInfo (X H : Type) where
  | ongoing (status : ReferendumStatus X H)
  | finished (approved : Bool) (end_ : Nat)
deriving DecidableEq, Repr

/-- `Error<T>`, as far as these calls return it. -/
inductive Error where
  | referendumInvalid
  | insufficientFunds
  | maxVotesReached
  | alreadyDelegating
  | notVoter
  | noPermission
  | nonsense
  | votesExist
  | notDelegating
  | alreadyCanceled
deriving DecidableEq, Repr

structure Config (A X : Type) where
  /-- The largest `Balance`. -/
  balanceMax : Nat
  /-- How many block numbers there are; their arithmetic wraps. -/
  blockNumbers : Nat
  launchPeriod : Nat
  votingPeriod : Nat
  enactmentPeriod : Nat
  voteLockingPeriod : Nat
  maxVotes : Nat
  cancellationOrigin : RawOrigin A → Bool
  blacklistOrigin : RawOrigin A → Bool
  /-- What `extend_lock`, `set_lock` and `remove_lock` refuse, and with which error. -/
  extendRefused : Ledger A X → (X → A → Nat) → X → A → Nat → Option (DispatchError Empty)
  setRefused : Ledger A X → (X → A → Nat) → X → A → Nat → Option (DispatchError Empty)
  removeRefused : Ledger A X → (X → A → Nat) → X → A → Option (DispatchError Empty)

structure State (A X H : Type) [DecidableEq A] [DecidableEq X] where
  ledger : Ledger A X
  /-- The locks under the id of the pallet. -/
  locks : X → A → Nat
  votingOf : StorageMap (A × X) (Voting A)
  referendumInfoOf : Nat → Option (ReferendumInfo X H)
  referendumCount : Nat
  lowestUnbaked : Nat
  cancellations : ProposalId X H → Bool

/-- `UnvoteScope`. -/
inductive UnvoteScope where
  | any
  | onlyExpired
deriving DecidableEq, Repr

variable {A X H : Type} [DecidableEq A] [DecidableEq X]

namespace State

variable (s : State A X H)

/-- `VotingOf::get`. -/
def voting (key : A × X) : Voting A := s.votingOf.getD key .idle

def putVoting (key : A × X) (voting : Voting A) : State A X H :=
  { s with votingOf := s.votingOf.insert key voting }

def putInfo (index : Nat) (info : Option (ReferendumInfo X H)) : State A X H :=
  { s with referendumInfoOf := Function.update s.referendumInfoOf index info }

def putLock (asset : X) (who : A) (amount : Nat) : State A X H :=
  { s with locks := fun x a => if x = asset ∧ a = who then amount else s.locks x a }

end State

/-- A call of the pallet. -/
abbrev DemocracyCall (A X H α : Type) [DecidableEq A] [DecidableEq X] : Type :=
  Call (State A X H) (DispatchError Error) α

variable (cfg : Config A X)

/-- The block at which a lock taken for `periods` from block `n` on is over. -/
def Config.unlockAt (n periods : Nat) : Nat :=
  (n + cfg.voteLockingPeriod * periods) % cfg.blockNumbers

/-! ## The currency -/

/-- An operation on the locks, unless the currency refuses it. -/
def unlessRefused (refused : Option (DispatchError Empty)) (f : State A X H → State A X H) :
    DemocracyCall A X H Unit :=
  match refused with
  | some e => Call.fail (e.map Empty.elim)
  | none => Call.modify f

/-- `extend_lock`. -/
def extendLock (asset : X) (who : A) (amount : Nat) : DemocracyCall A X H Unit := do
  let s ← Call.get
  unlessRefused (cfg.extendRefused s.ledger s.locks asset who amount) fun s =>
    s.putLock asset who (max (s.locks asset who) amount)

/-- `set_lock`, of an amount that is not zero. -/
def setLock (asset : X) (who : A) (amount : Nat) : DemocracyCall A X H Unit := do
  let s ← Call.get
  unlessRefused (cfg.setRefused s.ledger s.locks asset who amount) fun s => s.putLock asset who amount

/-- `remove_lock`. -/
def removeLock (asset : X) (who : A) : DemocracyCall A X H Unit := do
  let s ← Call.get
  unlessRefused (cfg.removeRefused s.ledger s.locks asset who) fun s => s.putLock asset who 0

/-! ## Voting -/

/-- `VotingOf::try_mutate`: the new value is stored when the closure returns. -/
def tryMutateVoting {α : Type} (key : A × X) (f : Voting A → DemocracyCall A X H (α × Voting A)) :
    DemocracyCall A X H α := do
  let s ← Call.get
  let (a, voting) ← f (s.voting key)
  Call.modify fun s => s.putVoting key voting
  pure a

def referendumStatus (refIndex : Nat) : DemocracyCall A X H (ReferendumStatus X H) := do
  let s ← Call.get
  let info ← Call.ofOption (s.referendumInfoOf refIndex) (.module .referendumInvalid)
  match info with
  | .ongoing status => pure status
  | .finished .. => Call.fail (.module .referendumInvalid)

/-- The votes with the new one, and the tally without the one it replaces. -/
def replaceVote (refIndex : Nat) (vote : AccountVote) (votes : List (Nat × AccountVote))
    (delegations : Delegations)
    (tally : Tally) : Except (DispatchError Error) (List (Nat × AccountVote) × Tally) :=
  match SortedVec.binarySearchByKey Prod.fst refIndex votes with
  | .ok i =>
      match votes[i]? with
      | none => .error .panic
      | some (_, old) =>
          -- Shouldn't be possible to fail, but we handle it gracefully.
          match tally.retract cfg.balanceMax old delegations with
          | none => .error (.arithmetic .underflow)
          | some tally => .ok (votes.set i (refIndex, vote), tally)
  | .error i =>
      if votes.length % 2 ^ 32 ≤ cfg.maxVotes then .ok (votes.insertIdx i (refIndex, vote), tally)
      else .error (.module .maxVotesReached)

/-- The closure of `try_vote`. -/
def recordVote (refIndex : Nat) (vote : AccountVote) (tally : Tally) :
    Voting A → DemocracyCall A X H (Tally × Voting A)
  | .direct votes delegations prior => do
      let (votes, tally) ← Call.ofExcept (replaceVote cfg refIndex vote votes delegations tally)
      -- Shouldn't be possible to fail, but we handle it gracefully.
      let tally ← Call.ofOption (tally.enter cfg.balanceMax vote delegations) (.arithmetic .overflow)
      pure (tally, .direct votes delegations prior)
  | .delegating .. => Call.fail (.module .alreadyDelegating)

/-- Actually enact a vote, if legit. -/
def tryVote (who : A) (refIndex : Nat) (vote : AccountVote) : DemocracyCall A X H Unit := do
  let status ← referendumStatus refIndex
  let s ← Call.get
  Call.ensure (vote.balance cfg.balanceMax ≤ s.ledger.free status.proposalId.asset who)
    (.module .insufficientFunds)
  let tally ← tryMutateVoting (who, status.proposalId.asset)
    (recordVote cfg refIndex vote status.tally)
  extendLock cfg status.proposalId.asset who (vote.balance cfg.balanceMax)
  Call.modify fun s => s.putInfo refIndex (some (.ongoing { status with tally := tally }))

/-- What becomes of the prior lock, and of the tally, when a vote on a referendum is removed. -/
def settleVote (now : Nat) (refIndex : Nat) (scope : UnvoteScope) (vote : AccountVote)
    (delegations : Delegations)
    (prior : PriorLock) : Option (ReferendumInfo X H) → DemocracyCall A X H PriorLock
  | some (.ongoing status) => do
      Call.ensure (scope = .any) (.module .noPermission)
      -- Shouldn't be possible to fail, but we handle it gracefully.
      let tally ← Call.ofOption (status.tally.retract cfg.balanceMax vote delegations)
        (.arithmetic .underflow)
      Call.modify fun s => s.putInfo refIndex (some (.ongoing { status with tally := tally }))
      pure prior
  | some (.finished approved end_) =>
      match vote.lockedIf approved with
      | some (lockPeriods, balance) =>
          if now < cfg.unlockAt end_ lockPeriods then do
            Call.ensure (scope = .any) (.module .noPermission)
            pure (prior.accumulate (cfg.unlockAt end_ lockPeriods) balance)
          else pure prior
      | none => pure prior
  -- Referendum was cancelled.
  | none => pure prior

/-- The closure of `try_remove_vote`. An account that delegates has no votes, and that is no
    error. -/
def unrecordVote (now : Nat) (refIndex : Nat) (scope : UnvoteScope)
    (info : Option (ReferendumInfo X H)) : Voting A → DemocracyCall A X H (Unit × Voting A)
  | .direct votes delegations prior => do
      let i ← Call.ofOption (SortedVec.binarySearchByKey Prod.fst refIndex votes).toOption
        (.module .notVoter)
      let vote ← Call.ofOption votes[i]? (.module .notVoter)
      let prior ← settleVote cfg now refIndex scope vote.2 delegations prior info
      pure ((), .direct (votes.eraseIdx i) delegations prior)
  | voting => pure ((), voting)

/-- Remove the account's vote for the given referendum if possible. -/
def tryRemoveVote (now : Nat) (who : A) (asset : X) (refIndex : Nat) (scope : UnvoteScope) :
    DemocracyCall A X H Unit := do
  let s ← Call.get
  tryMutateVoting (who, asset) (unrecordVote cfg now refIndex scope (s.referendumInfoOf refIndex))

/-! ## Delegation -/

/-- Change the tally of a referendum, if it is ongoing. -/
def mapTally (f : Tally → Tally) : Option (ReferendumInfo X H) → Option (ReferendumInfo X H)
  | some (.ongoing status) => some (.ongoing { status with tally := f status.tally })
  | info => info

/-- The loop over the votes of an account: the tally of every ongoing referendum with
    a standard vote changes. -/
def adjustTallies (change : Tally → Bool → Tally) :
    List (Nat × AccountVote) → (Nat → Option (ReferendumInfo X H)) → Nat → Option (ReferendumInfo X H)
  | [], infos => infos
  | (refIndex, vote) :: rest, infos =>
      adjustTallies change rest
        (match vote.asStandard with
        | some aye =>
            Function.update infos refIndex (mapTally (fun t => change t aye) (infos refIndex))
        | none => infos)

/-- The storage after the delegations of an account and the tallies under its votes have changed. -/
def State.upstream (delegate : Delegations → Delegations) (change : Tally → Bool → Tally) (who : A)
    (asset : X) (s : State A X H) : State A X H :=
  let voting := s.voting (who, asset)
  { s.putVoting (who, asset) (voting.setDelegations (delegate voting.delegations)) with
    referendumInfoOf := adjustTallies change voting.votes s.referendumInfoOf }

/-- Returns the number of votes of the account. We don't support second level delegating. -/
def changeUpstream (delegate : Delegations → Delegations) (change : Tally → Bool → Tally) (who : A)
    (asset : X) : DemocracyCall A X H Nat := do
  let s ← Call.get
  Call.modify (State.upstream delegate change who asset)
  match s.voting (who, asset) with
  | .delegating .. => pure 1
  | .direct votes .. => pure votes.length

def increaseUpstreamDelegation (who : A) (asset : X) (amount : Delegations) :
    DemocracyCall A X H Nat :=
  changeUpstream (fun d => d.saturatingAdd cfg.balanceMax amount)
    (fun t aye => t.increase cfg.balanceMax aye amount)
    who asset

def reduceUpstreamDelegation (who : A) (asset : X) (amount : Delegations) : DemocracyCall A X H Nat :=
  changeUpstream (fun d => d.saturatingSub amount) (fun t aye => t.reduce aye amount) who asset

/-- The first part of the closure of `try_delegate`: what the account was doing before is left, and
    its delegations and its prior lock stay. -/
def leaveVoting (asset : X) : Voting A → DemocracyCall A X H (Delegations × PriorLock)
  | .delegating balance target conviction delegations prior => do
      -- remove any delegation votes to our current target.
      let _ ← reduceUpstreamDelegation target asset (conviction.votes cfg.balanceMax balance)
      pure (delegations, prior)
  | .direct votes delegations prior => do
      -- here we just ensure that we're currently idling with no votes recorded.
      Call.ensure (votes = []) (.module .votesExist)
      pure (delegations, prior)

/-- Attempt to delegate `balance` times `conviction` of voting power from `who` to `target`. -/
def tryDelegate (who target : A) (asset : X) (conviction : Conviction) (balance : Nat) :
    DemocracyCall A X H Nat := do
  Call.ensure (who ≠ target) (.module .nonsense)
  let s ← Call.get
  Call.ensure (balance ≤ s.ledger.free asset who) (.module .insufficientFunds)
  tryMutateVoting (who, asset) fun old => do
    let (delegations, prior) ← leaveVoting cfg asset old
    let votes ← increaseUpstreamDelegation cfg target asset (conviction.votes cfg.balanceMax balance)
    extendLock cfg asset who balance
    pure (votes, .delegating balance target conviction delegations prior)

/-- The closure of `try_undelegate`. -/
def endDelegation (now : Nat) (asset : X) : Voting A → DemocracyCall A X H (Nat × Voting A)
  | .delegating balance target conviction delegations prior => do
      -- remove any delegation votes to our current target.
      let votes ← reduceUpstreamDelegation target asset (conviction.votes cfg.balanceMax balance)
      pure (votes, .direct [] delegations
        (prior.accumulate (cfg.unlockAt now conviction.lockPeriods) balance))
  | .direct .. => Call.fail (.module .notDelegating)

/-- Attempt to end the current delegation. -/
def tryUndelegate (now : Nat) (who : A) (asset : X) : DemocracyCall A X H Nat :=
  tryMutateVoting (who, asset) (endDelegation cfg now asset)

/-- Rejig the lock on an account. It will never get more stringent but may be reduced. -/
def updateLock (now : Nat) (who : A) (asset : X) : DemocracyCall A X H Unit := do
  let s ← Call.get
  let voting := (s.voting (who, asset)).rejig now
  Call.modify fun s => s.putVoting (who, asset) voting
  if voting.lockedBalance cfg.balanceMax = 0 then removeLock cfg asset who
  else setLock cfg asset who (voting.lockedBalance cfg.balanceMax)

/-! ## Referenda -/

/-- Start a referendum. The index is a `u32`. -/
def injectReferendum (end_ : Nat) (proposalId : ProposalId X H) (threshold : VoteThreshold)
    (delay : Nat) (s : State A X H) : State A X H :=
  { s.putInfo s.referendumCount (some (.ongoing ⟨end_, proposalId, threshold, delay, .zero⟩)) with
    referendumCount := (s.referendumCount + 1) % 2 ^ 32 }

/-- Remove a referendum. -/
def internalCancelReferendum (refIndex : Nat) : DemocracyCall A X H Unit :=
  Call.modify fun s => s.putInfo refIndex none

variable [DecidableEq H]

def emergencyCancel (origin : RawOrigin A) (refIndex : Nat) : DemocracyCall A X H Unit := do
  Call.ensure (cfg.cancellationOrigin origin = true) .badOrigin
  let status ← referendumStatus refIndex
  let s ← Call.get
  Call.ensure (s.cancellations status.proposalId = false) (.module .alreadyCanceled)
  Call.modify fun s =>
    { s with cancellations := Function.update s.cancellations status.proposalId true }
  internalCancelReferendum refIndex

def cancelReferendum (origin : RawOrigin A) (refIndex : Nat) : DemocracyCall A X H Unit := do
  ensureRoot origin
  internalCancelReferendum refIndex

/-- `queue` is what becomes of the deposits of a queued proposal with this id. -/
def blacklist (origin : RawOrigin A) (id : ProposalId X H) (queue : Except (DispatchError Error) Unit)
    (refIndex : Option Nat) : DemocracyCall A X H Unit :=
  Call.transactional do
    Call.ensure (cfg.blacklistOrigin origin = true) .badOrigin
    Call.ofExcept queue
    let s ← Call.get
    -- Remove the referendum, if it's there.
    match refIndex with
    | none => pure ()
    | some refIndex =>
        match s.referendumInfoOf refIndex with
        | some (.ongoing status) =>
            Call.when (status.proposalId = id) (internalCancelReferendum refIndex)
        | _ => pure ()

/-! ## Calls -/

/-- The calls that touch votes and referenda; `start` is `fast_track` with the proposal
    it takes from the queue. -/
inductive Extrinsic (A X H : Type) where
  | vote (origin : RawOrigin A) (refIndex : Nat) (vote : AccountVote)
  | removeVote (origin : RawOrigin A) (asset : X) (index : Nat)
  | removeOtherVote (origin : RawOrigin A) (target : A) (asset : X) (index : Nat)
  | delegate (origin : RawOrigin A) (target : A) (asset : X) (conviction : Conviction) (balance : Nat)
  | undelegate (origin : RawOrigin A) (asset : X)
  | unlock (origin : RawOrigin A) (target : A) (asset : X)
  | start (votingPeriod : Nat) (proposalId : ProposalId X H) (threshold : VoteThreshold) (delay : Nat)
  | cancelReferendum (origin : RawOrigin A) (refIndex : Nat)
  | emergencyCancel (origin : RawOrigin A) (refIndex : Nat)
  | blacklist (origin : RawOrigin A) (id : ProposalId X H) (queue : Except (DispatchError Error) Unit)
      (refIndex : Option Nat)

/-- The body of a call at block `now`. -/
def extrinsicBody (now : Nat) : Extrinsic A X H → DemocracyCall A X H Unit
  | .vote origin refIndex vote => do
      let who ← ensureSigned origin
      tryVote cfg who refIndex vote
  | .removeVote origin asset index => do
      let who ← ensureSigned origin
      tryRemoveVote cfg now who asset index .any
  | .removeOtherVote origin target asset index => do
      let who ← ensureSigned origin
      tryRemoveVote cfg now target asset index (if target = who then .any else .onlyExpired)
  | .delegate origin target asset conviction balance => do
      let who ← ensureSigned origin
      let _ ← tryDelegate cfg who target asset conviction balance
  | .undelegate origin asset => do
      let who ← ensureSigned origin
      let _ ← tryUndelegate cfg now who asset
  | .unlock origin target asset => do
      let _ ← ensureSigned origin
      updateLock cfg now target asset
  | .start votingPeriod proposalId threshold delay =>
      Call.modify (injectReferendum ((now + votingPeriod) % cfg.blockNumbers) proposalId
        threshold delay)
  | .cancelReferendum origin refIndex => cancelReferendum origin refIndex
  | .emergencyCancel origin refIndex => emergencyCancel cfg origin refIndex
  | .blacklist origin id queue refIndex => blacklist cfg origin id queue refIndex

/-! ## Blocks -/

/-- Where the chain stands in a block. `last` is the `ReferendumCount` at the
    start of `begin_block`. -/
inductive Phase (X H : Type) where
  /-- The block is open, and the pallet has not begun it. The scheduler may dispatch. -/
  | opened
  /-- The loop over the maturing referenda. -/
  | maturing (last : Nat) (rest : List (Nat × ReferendumStatus X H))
  /-- `bake_referendum` has decided one; without delay its proposal is dispatched here. -/
  | enacting (last : Nat) (index : Nat) (status : ReferendumStatus X H) (approved : Bool)
      (rest : List (Nat × ReferendumStatus X H))
  /-- The pallet has begun the block, and extrinsics are dispatched. -/
  | begun
deriving DecidableEq

/-- Whether calls are dispatched. -/
def Phase.dispatches : Phase X H → Bool
  | .opened => true
  | .maturing .. => false
  | .enacting _ _ status approved _ => approved && decide (status.delay = 0)
  | .begun => true

structure Chain (A X H : Type) [DecidableEq A] [DecidableEq X] where
  pallet : State A X H
  now : Nat
  phase : Phase X H

/-- `elsewhere` is what other pallets do to the ledger; `begin` starts `begin_block` with what
    `launch_next` takes from the queues, `bake` and `finish` are the two halves of a turn of its
    loop, and `close` its end. -/
inductive Op (A X H : Type) where
  | call (extrinsic : Extrinsic A X H)
  | elsewhere (ledger : Ledger A X)
  | block
  | begin (launched : Option (ProposalId X H × VoteThreshold))
  | bake
  | finish
  | close

/-- `maturing_referenda_at_inner`. -/
def maturingReferendaAtInner (s : State A X H) (n next last : Nat) :
    List (Nat × ReferendumStatus X H) :=
  (List.range' next (last - next)).filterMap fun i =>
    match s.referendumInfoOf i with
    | some (.ongoing status) => if status.end_ = n then some (i, status) else none
    | _ => none

/-- The loop that moves `LowestUnbaked` on. -/
def advance (infos : Nat → Option (ReferendumInfo X H)) (last : Nat) : Nat → Nat → Nat
  | 0, lowest => lowest
  | fuel + 1, lowest =>
      if lowest < last then
        match infos lowest with
        | some (.ongoing _) => lowest
        | _ => advance infos last fuel (lowest + 1)
      else lowest

/-- `launch_next`, with the referendum that the queues hand over. -/
def launchNext (now : Nat) (launched : Option (ProposalId X H × VoteThreshold)) (s : State A X H) :
    State A X H :=
  match launched with
  | none => s
  | some (proposalId, threshold) =>
      injectReferendum ((now + cfg.votingPeriod) % cfg.blockNumbers) proposalId threshold
        cfg.enactmentPeriod s

/-- The start of `begin_block`. A launch period of zero panics. -/
def beginBlock (c : Chain A X H) (launched : Option (ProposalId X H × VoteThreshold)) :
    Option (Chain A X H) :=
  if cfg.launchPeriod = 0 then none
  else
    let s := if c.now % cfg.launchPeriod = 0 then launchNext cfg c.now launched c.pallet else c.pallet
    some { c with
      pallet := s
      phase := .maturing c.pallet.referendumCount
        (maturingReferendaAtInner s c.now c.pallet.lowestUnbaked c.pallet.referendumCount) }

/-- `bake_referendum`, up to the dispatch of the proposal. -/
def bakeReferendum (c : Chain A X H) : Option (Chain A X H) :=
  match c.phase with
  | .maturing last ((index, status) :: rest) => do
      let approved ← status.threshold.approved status.tally
        (c.pallet.ledger.issuance status.proposalId.asset)
      pure { c with phase := .enacting last index status approved rest }
  | _ => none

/-- The rest of a turn: the referendum is finished. -/
def finishReferendum (c : Chain A X H) : Option (Chain A X H) :=
  match c.phase with
  | .enacting last index _ approved rest =>
      some { c with
        pallet := c.pallet.putInfo index (some (.finished approved c.now))
        phase := .maturing last rest }
  | _ => none

/-- The end of `begin_block`. -/
def closeBlock (c : Chain A X H) : Option (Chain A X H) :=
  match c.phase with
  | .maturing last [] =>
      some { c with
        pallet := { c.pallet with
          lowestUnbaked := advance c.pallet.referendumInfoOf last (last - c.pallet.lowestUnbaked)
            c.pallet.lowestUnbaked }
        phase := .begun }
  | _ => none

def step (c : Chain A X H) : Op A X H → Option (Chain A X H)
  | .call extrinsic =>
      if c.phase.dispatches then
        some { c with pallet := dispatch (extrinsicBody cfg c.now extrinsic) c.pallet } else none
  | .elsewhere ledger => some { c with pallet := { c.pallet with ledger := ledger } }
  | .block =>
      match c.phase with
      | .begun =>
          if c.now + 1 < cfg.blockNumbers then
            some { c with now := c.now + 1, phase := .opened } else none
      | _ => none
  | .begin launched =>
      match c.phase with
      | .opened => beginBlock cfg c launched
      | _ => none
  | .bake => bakeReferendum c
  | .finish => finishReferendum c
  | .close => closeBlock c

omit [DecidableEq H] in
/-- The chain before its first block. -/
def Chain.genesis (ledger : Ledger A X) : Chain A X H :=
  ⟨⟨ledger, fun _ _ => 0, ∅, fun _ => none, 0, 0, fun _ => false⟩, 0, .begun⟩

/-! ## A small chain -/

/-- Accounts, assets and hashes are numbers. Locks are over two blocks after their
    start, for each lock period. -/
def sample : Config Nat Nat where
  balanceMax := 2 ^ 128 - 1
  blockNumbers := 2 ^ 32
  launchPeriod := 5
  votingPeriod := 1
  enactmentPeriod := 2
  voteLockingPeriod := 2
  maxVotes := 100
  cancellationOrigin origin := decide (origin = .root)
  blacklistOrigin origin := decide (origin = .root)
  extendRefused _ _ _ _ _ := none
  setRefused _ _ _ _ _ := none
  removeRefused _ _ _ _ := none

/-- Everybody has a thousand of every asset. -/
def sampleGenesis : Chain Nat Nat Nat :=
  Chain.genesis ⟨fun _ _ => 1000, fun _ _ => 0, fun _ => 100000⟩

end Democracy
end Composable
