import Composable.Democracy.Model

/-!
# `Democracy.Queues` — where referenda come from

The queues of `frame/democracy/src/lib.rs` before `Democracy.Model`: proposals of the public with
their deposits, the next external proposal, vetoes and the blacklist. The native currency holds the
deposits and may refuse what it is asked to do.

`launch_next` is not transactional: a refund that is refused leaves the proposal out of
the queue without a referendum.
-/

namespace Composable
namespace Democracy

/-! ## Storage -/

/-- `Error<T>`, as far as the calls of the queues return it. -/
inductive QueueError where
  | valueLow
  | proposalMissing
  | duplicateProposal
  | proposalBlacklisted
  | notSimpleMajority
  | invalidHash
  | noProposal
  | alreadyVetoed
  | instantNotAllowed
  | wrongUpperBound
  | tooManyProposals
  | noneWaiting
deriving DecidableEq, Repr

structure QueueConfig (A X : Type) extends Config A X where
  native : X
  treasury : A
  minimumDeposit : Nat
  maxProposals : Nat
  cooloffPeriod : Nat
  fastTrackVotingPeriod : Nat
  instantAllowed : Bool
  externalOrigin : RawOrigin A → Bool
  externalMajorityOrigin : RawOrigin A → Bool
  externalDefaultOrigin : RawOrigin A → Bool
  fastTrackOrigin : RawOrigin A → Bool
  instantOrigin : RawOrigin A → Bool
  cancelProposalOrigin : RawOrigin A → Bool
  /-- The account that vetoes. -/
  vetoOrigin : RawOrigin A → Option A
  /-- What `hold`, `release` and `transfer_held` of the native currency refuse,
      and with which error. -/
  holdRefused : Ledger A X → A → Nat → Option (DispatchError Empty)
  releaseRefused : Ledger A X → A → Nat → Option (DispatchError Empty)
  transferHeldRefused : Ledger A X → A → Nat → Option (DispatchError Empty)

structure Queues (A X H : Type) where
  publicPropCount : Nat
  publicProps : List (Nat × ProposalId X H × A)
  depositOf : Nat → Option (List A × Nat)
  lastTabledWasExternal : Bool
  nextExternal : Option (ProposalId X H × VoteThreshold)
  /-- Until when a proposal may not be resubmitted, and who vetoed it. -/
  blacklist : ProposalId X H → Option (Nat × List A)

/-- The pallet with its queues. -/
structure Board (A X H : Type) [DecidableEq A] [DecidableEq X] where
  pallet : State A X H
  queues : Queues A X H

abbrev QueueCall (A X H α : Type) [DecidableEq A] [DecidableEq X] : Type :=
  Call (Board A X H) (DispatchError QueueError) α

variable {A X H : Type} [LinearOrder A] [DecidableEq X] [DecidableEq H] (cfg : QueueConfig A X)

def modifyQueues (f : Queues A X H → Queues A X H) : QueueCall A X H Unit :=
  Call.modify fun s => { s with queues := f s.queues }

/-! ## Deposits -/

/-- An operation of the native currency, unless it is refused. -/
def onNative (refused : Ledger A X → Option (DispatchError Empty))
    (effect : Ledger A X → Ledger A X) : QueueCall A X H Unit := do
  let s ← Call.get
  match refused s.pallet.ledger with
  | some e => Call.fail (e.map Empty.elim)
  | none =>
      Call.modify fun s => { s with pallet := { s.pallet with ledger := effect s.pallet.ledger } }

def holdDeposit (who : A) (amount : Nat) : QueueCall A X H Unit :=
  onNative (fun l => cfg.holdRefused l who amount) (Ledger.lock cfg.native who amount)

/-- `release`, with best effort. -/
def releaseDeposit (who : A) (amount : Nat) : QueueCall A X H Unit :=
  onNative (fun l => cfg.releaseRefused l who amount) (Ledger.unlock cfg.native who amount)

/-- `transfer_held` to the free balance of the treasury, with best effort. -/
def slashDeposit (who : A) (amount : Nat) : QueueCall A X H Unit :=
  onNative (fun l => cfg.transferHeldRefused l who amount) fun l =>
    (l.unlock cfg.native who amount).move cfg.native who cfg.treasury
      (min amount (l.reserved cfg.native who))

/-- The deposits of a proposal that is removed go to the treasury. -/
def slashDeposits (propIndex : Nat) : QueueCall A X H Unit := do
  let s ← Call.get
  match s.queues.depositOf propIndex with
  | none => pure ()
  | some (whos, amount) => do
      modifyQueues fun q => { q with depositOf := Function.update q.depositOf propIndex none }
      Call.forEach whos fun who => slashDeposit cfg who amount

/-! ## Calls -/

/-- The check of `propose` and `external_propose`. -/
def ensureNotBlacklisted (now : Nat) (id : ProposalId X H) : QueueCall A X H Unit := do
  let s ← Call.get
  match s.queues.blacklist id with
  | none => pure ()
  | some (till, _) => Call.ensure (till ≤ now) (.module .proposalBlacklisted)

def propose (now : Nat) (origin : RawOrigin A) (id : ProposalId X H) (value : Nat) :
    QueueCall A X H Unit := do
  let who ← ensureSigned origin
  Call.ensure (cfg.minimumDeposit ≤ value) (.module .valueLow)
  let s ← Call.get
  Call.ensure (s.queues.publicProps.length % 2 ^ 32 < cfg.maxProposals) (.module .tooManyProposals)
  ensureNotBlacklisted now id
  holdDeposit cfg who value
  modifyQueues fun q => { q with
    publicPropCount := (s.queues.publicPropCount + 1) % 2 ^ 32
    depositOf := Function.update q.depositOf s.queues.publicPropCount (some ([who], value))
    publicProps := q.publicProps ++ [(s.queues.publicPropCount, id, who)] }

def second (origin : RawOrigin A) (proposal secondsUpperBound : Nat) : QueueCall A X H Unit := do
  let who ← ensureSigned origin
  let s ← Call.get
  let (whos, amount) ← Call.ofOption (s.queues.depositOf proposal) (.module .proposalMissing)
  Call.ensure (whos.length ≤ secondsUpperBound) (.module .wrongUpperBound)
  holdDeposit cfg who amount
  modifyQueues fun q =>
    { q with depositOf := Function.update q.depositOf proposal (some (whos ++ [who], amount)) }

def externalPropose (now : Nat) (origin : RawOrigin A) (id : ProposalId X H) :
    QueueCall A X H Unit := do
  Call.ensure (cfg.externalOrigin origin = true) .badOrigin
  let s ← Call.get
  Call.ensure (s.queues.nextExternal.isNone = true) (.module .duplicateProposal)
  ensureNotBlacklisted now id
  modifyQueues fun q => { q with nextExternal := some (id, .superMajorityApprove) }

/-- Blacklisting has no effect on this, and it replaces what is scheduled. -/
def putExternal (allowed : Bool) (id : ProposalId X H) (threshold : VoteThreshold) :
    QueueCall A X H Unit := do
  Call.ensure (allowed = true) .badOrigin
  modifyQueues fun q => { q with nextExternal := some (id, threshold) }

def externalProposeMajority (origin : RawOrigin A) (id : ProposalId X H) : QueueCall A X H Unit :=
  putExternal (cfg.externalMajorityOrigin origin) id .simpleMajority

def externalProposeDefault (origin : RawOrigin A) (id : ProposalId X H) : QueueCall A X H Unit :=
  putExternal (cfg.externalDefaultOrigin origin) id .superMajorityAgainst

/-- The hash of the waiting proposal is compared, and the asset is the caller's. -/
def fastTrack (now : Nat) (origin : RawOrigin A) (id : ProposalId X H) (votingPeriod delay : Nat) :
    QueueCall A X H Unit := do
  Call.when (votingPeriod < cfg.fastTrackVotingPeriod ∨ cfg.fastTrackOrigin origin = false) do
    Call.ensure (cfg.instantOrigin origin = true) .badOrigin
    Call.ensure (cfg.instantAllowed = true) (.module .instantNotAllowed)
  let s ← Call.get
  let (waiting, threshold) ← Call.ofOption s.queues.nextExternal (.module .proposalMissing)
  Call.ensure (threshold ≠ .superMajorityApprove) (.module .notSimpleMajority)
  Call.ensure (id.hash = waiting.hash) (.module .invalidHash)
  modifyQueues fun q => { q with nextExternal := none }
  Call.modify fun s => { s with
    pallet := injectReferendum ((now + votingPeriod) % cfg.blockNumbers) id threshold delay s.pallet }

def vetoExternal (now : Nat) (origin : RawOrigin A) (id : ProposalId X H) : QueueCall A X H Unit := do
  let who ← Call.ofOption (cfg.vetoOrigin origin) .badOrigin
  let s ← Call.get
  let (waiting, _) ← Call.ofOption s.queues.nextExternal (.module .noProposal)
  Call.ensure (id = waiting) (.module .proposalMissing)
  let existingVetoers := ((s.queues.blacklist id).map Prod.snd).getD []
  match SortedVec.binarySearchByKey (fun a : A => a) who existingVetoers with
  | .ok _ => Call.fail (.module .alreadyVetoed)
  | .error insertPosition =>
      modifyQueues fun q => { q with
        blacklist := Function.update q.blacklist id
          (some ((now + cfg.cooloffPeriod) % cfg.blockNumbers,
            existingVetoers.insertIdx insertPosition who))
        nextExternal := none }

/-- Remove the queued proposal, if it's there. -/
def removeQueued (id : ProposalId X H) : QueueCall A X H Unit := do
  let s ← Call.get
  match s.queues.publicProps.find? fun p => p.2.1 = id with
  | none => pure ()
  | some (propIndex, _, _) => do
      slashDeposits cfg propIndex
      modifyQueues fun q => { q with publicProps := q.publicProps.eraseP fun p => p.2.1 = id }

/-- Remove the external queued referendum, if it's there. -/
def removeExternal (id : ProposalId X H) : QueueCall A X H Unit := do
  let s ← Call.get
  Call.when (s.queues.nextExternal.map Prod.fst = some id) do
    modifyQueues fun q => { q with nextExternal := none }

/-- Remove the referendum, if it's there. -/
def removeReferendum (id : ProposalId X H) (refIndex : Option Nat) : QueueCall A X H Unit := do
  let s ← Call.get
  match refIndex with
  | none => pure ()
  | some refIndex =>
      match s.pallet.referendumInfoOf refIndex with
      | some (.ongoing status) =>
          Call.when (status.proposalId = id) do
            Call.modify fun s => { s with pallet := s.pallet.putInfo refIndex none }
      | _ => pure ()

/-- `Democracy.blacklist`, with what it does to the queues. -/
def blacklistProposal (origin : RawOrigin A) (id : ProposalId X H) (refIndex : Option Nat) :
    QueueCall A X H Unit :=
  Call.transactional do
    Call.ensure (cfg.blacklistOrigin origin = true) .badOrigin
    modifyQueues fun q =>
      { q with blacklist := Function.update q.blacklist id (some (cfg.blockNumbers - 1, [])) }
    removeQueued cfg id
    removeExternal id
    removeReferendum id refIndex

def cancelProposal (origin : RawOrigin A) (propIndex : Nat) : QueueCall A X H Unit := do
  Call.ensure (cfg.cancelProposalOrigin origin = true) .badOrigin
  modifyQueues fun q => { q with publicProps := q.publicProps.filter fun p => p.1 ≠ propIndex }
  slashDeposits cfg propIndex

/-! ## Launching -/

/-- `backing_for`, and zero for a proposal without deposits. -/
def backingFor (q : Queues A X H) (propIndex : Nat) : Nat :=
  match q.depositOf propIndex with
  | none => 0
  | some (whos, amount) => amount * whos.length % (cfg.balanceMax + 1)

/-- `max_by_key`: of the elements with the largest key the last, with its index. -/
def maxByKey {α : Type} (key : α → Nat) (l : List α) : Option (α × Nat) :=
  l.zipIdx.foldl (fun best e =>
    match best with
    | none => some e
    | some b => if key b.1 ≤ key e.1 then some e else some b) none

/-- `swap_remove`: the last element takes the place of the removed one. -/
def swapRemove {α : Type} (l : List α) (i : Nat) : List α :=
  match l.getLast? with
  | none => l
  | some last => (l.set i last).dropLast

/-- Table the waiting external proposal for a vote, if there is one. -/
def launchExternal (now : Nat) : QueueCall A X H Unit := do
  let s ← Call.get
  let (proposal, threshold) ← Call.ofOption s.queues.nextExternal (.module .noneWaiting)
  modifyQueues fun q => { q with nextExternal := none, lastTabledWasExternal := true }
  Call.modify fun s => { s with
    pallet :=
      injectReferendum ((now + cfg.votingPeriod) % cfg.blockNumbers) proposal threshold
        cfg.enactmentPeriod
      s.pallet }

/-- Table the waiting public proposal with the highest backing for a vote. -/
def launchPublic (now : Nat) : QueueCall A X H Unit := do
  let s ← Call.get
  let ((propIndex, proposal, _), winnerIndex) ←
    Call.ofOption (maxByKey (fun p => backingFor cfg s.queues p.1) s.queues.publicProps)
      (.module .noneWaiting)
  modifyQueues fun q => { q with publicProps := swapRemove q.publicProps winnerIndex }
  match s.queues.depositOf propIndex with
  | none => pure ()
  | some (depositors, deposit) => do
      modifyQueues fun q => { q with depositOf := Function.update q.depositOf propIndex none }
      -- refund depositors
      Call.forEach depositors fun d => releaseDeposit cfg d deposit
      Call.modify fun s => { s with
        pallet :=
          injectReferendum ((now + cfg.votingPeriod) % cfg.blockNumbers) proposal
            .superMajorityApprove
          cfg.enactmentPeriod s.pallet }

/-- Table the next waiting proposal for a vote. -/
def launchWaiting (now : Nat) : QueueCall A X H Unit := do
  let s ← Call.get
  modifyQueues fun q => { q with lastTabledWasExternal := false }
  if s.queues.lastTabledWasExternal then Call.orElse (launchPublic cfg now) (launchExternal cfg now)
  else Call.orElse (launchExternal cfg now) (launchPublic cfg now)

/-! ## Runs -/

inductive QueueExtrinsic (A X H : Type) where
  | propose (origin : RawOrigin A) (id : ProposalId X H) (value : Nat)
  | second (origin : RawOrigin A) (proposal secondsUpperBound : Nat)
  | externalPropose (origin : RawOrigin A) (id : ProposalId X H)
  | externalProposeMajority (origin : RawOrigin A) (id : ProposalId X H)
  | externalProposeDefault (origin : RawOrigin A) (id : ProposalId X H)
  | fastTrack (origin : RawOrigin A) (id : ProposalId X H) (votingPeriod delay : Nat)
  | vetoExternal (origin : RawOrigin A) (id : ProposalId X H)
  | blacklist (origin : RawOrigin A) (id : ProposalId X H) (refIndex : Option Nat)
  | cancelProposal (origin : RawOrigin A) (propIndex : Nat)
deriving DecidableEq

/-- The body of a call at block `now`. -/
def queueBody (now : Nat) : QueueExtrinsic A X H → QueueCall A X H Unit
  | .propose origin id value => propose cfg now origin id value
  | .second origin proposal secondsUpperBound => second cfg origin proposal secondsUpperBound
  | .externalPropose origin id => externalPropose cfg now origin id
  | .externalProposeMajority origin id => externalProposeMajority cfg origin id
  | .externalProposeDefault origin id => externalProposeDefault cfg origin id
  | .fastTrack origin id votingPeriod delay => fastTrack cfg now origin id votingPeriod delay
  | .vetoExternal origin id => vetoExternal cfg now origin id
  | .blacklist origin id refIndex => blacklistProposal cfg origin id refIndex
  | .cancelProposal origin propIndex => cancelProposal cfg origin propIndex

structure QueueChain (A X H : Type) [DecidableEq A] [DecidableEq X] where
  chain : Chain A X H
  queues : Queues A X H

def QueueChain.board (c : QueueChain A X H) : Board A X H := ⟨c.chain.pallet, c.queues⟩

/-- `begin` starts `begin_block`, and `rest` is what the queues have no part in. -/
inductive QueueOp (A X H : Type) where
  | call (extrinsic : QueueExtrinsic A X H)
  | begin
  | rest (op : Op A X H)

/-- The queues have no part in it. -/
def Op.isRest : Op A X H → Bool
  | .call (.start ..) | .call (.blacklist ..) | .begin _ => false
  | _ => true

/-- The start of `begin_block`. Errors of `launch_next` are ignored, and what it has written
    stays. -/
def beginQueues (c : QueueChain A X H) : Option (QueueChain A X H) :=
  if cfg.launchPeriod = 0 then none
  else
    let s :=
      if c.chain.now % cfg.launchPeriod = 0 then
        dispatch (launchWaiting cfg c.chain.now) c.board else c.board
    some {
      chain := { c.chain with
        pallet := s.pallet
        phase := .maturing c.chain.pallet.referendumCount
          (maturingReferendaAtInner s.pallet c.chain.now c.chain.pallet.lowestUnbaked
            c.chain.pallet.referendumCount) }
      queues := s.queues }

def queueStep (c : QueueChain A X H) : QueueOp A X H → Option (QueueChain A X H)
  | .call extrinsic =>
      if c.chain.phase.dispatches then
        let s := dispatch (queueBody cfg c.chain.now extrinsic) c.board
        some ⟨{ c.chain with pallet := s.pallet }, s.queues⟩
      else none
  | .begin =>
      match c.chain.phase with
      | .opened => beginQueues cfg c
      | _ => none
  | .rest op =>
      if op.isRest then (step cfg.toConfig c.chain op).map fun chain =>
        { c with chain := chain } else none

omit [LinearOrder A] [DecidableEq X] [DecidableEq H] in
/-- Empty queues. -/
def Queues.empty : Queues A X H := ⟨0, [], fun _ => none, false, none, fun _ => none⟩

omit [DecidableEq H] in
/-- The chain before its first block. -/
def QueueChain.genesis (ledger : Ledger A X) : QueueChain A X H := ⟨Chain.genesis ledger, .empty⟩

/-! ## A small chain -/

/-- Root may do everything, and any account may veto. -/
def queueSample : QueueConfig Nat Nat where
  toConfig := { sample with launchPeriod := 1 }
  native := 0
  treasury := 100
  minimumDeposit := 1
  maxProposals := 10
  cooloffPeriod := 5
  fastTrackVotingPeriod := 3
  instantAllowed := false
  externalOrigin origin := decide (origin = .root)
  externalMajorityOrigin origin := decide (origin = .root)
  externalDefaultOrigin origin := decide (origin = .root)
  fastTrackOrigin origin := decide (origin = .root)
  instantOrigin _ := false
  cancelProposalOrigin origin := decide (origin = .root)
  vetoOrigin origin :=
    match origin with
    | .signed who => some who
    | _ => none
  holdRefused l who amount := if l.free 0 who < amount then some (.token .noFunds) else none
  releaseRefused _ _ _ := none
  transferHeldRefused _ _ _ := none

end Democracy
end Composable
