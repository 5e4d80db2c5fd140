import Composable.Democracy.Model

/-!
# `Democracy.Effect` — what a call of the democracy pallet does

`Turn` says once what each call can do to the storage, failures included, and `dispatch_turn`
that it does nothing else; locks and tallies are read off it. Two of its cases are failures
that leave something behind: a lock that is refused when the vote, or the delegation
upstream, has been written already.

Before it stand the updates of the storage, one lemma for each part they touch. `voteOn` is the vote
that an account has recorded on a referendum; the loop over the votes of an account changes the
tallies of the referenda it has voted on and no others (`adjustTallies_apply`).
-/

namespace Composable
namespace Democracy

open SortedVec

variable {A X H : Type} [DecidableEq A] [DecidableEq X]

/-! ## Recorded votes -/

/-- The vote recorded on a referendum. -/
def voteOn (r : Nat) (votes : List (Nat × AccountVote)) : Option AccountVote :=
  (votes.find? fun v => v.1 = r).map Prod.snd

section VoteOn

variable {r r' i : Nat} {v vote : AccountVote} {votes : List (Nat × AccountVote)}

theorem voteOn_cons : voteOn r ((r', v) :: votes) = if r' = r then some v else voteOn r votes := by
  unfold voteOn
  by_cases h : r' = r <;> simp [h]

theorem mem_of_voteOn (h : voteOn r votes = some v) : (r, v) ∈ votes := by
  obtain ⟨w, hw, rfl⟩ := Option.map_eq_some_iff.mp h
  have hkey : w.1 = r := by simpa using List.find?_some hw
  rw [← hkey]
  exact List.mem_of_find?_eq_some hw

theorem voteOn_eq_some (hsorted : Sorted Prod.fst votes) :
    voteOn r votes = some v ↔ (r, v) ∈ votes := by
  refine ⟨mem_of_voteOn, fun hmem => ?_⟩
  cases h : voteOn r votes with
  | none =>
      have hnone := List.find?_eq_none.mp (Option.map_eq_none_iff.mp h) (r, v) hmem
      simp at hnone
  | some w =>
      have hpair : (r, w) = (r, v) := hsorted.inj (mem_of_voteOn h) hmem rfl
      rw [(Prod.mk.inj hpair).2]

theorem voteOn_eq_none (h : ∀ v ∈ votes, v.1 ≠ r) : voteOn r votes = none := by
  cases hvote : voteOn r votes with
  | none => rfl
  | some w => exact absurd rfl (h _ (mem_of_voteOn hvote))

/-- Lists with the same votes on `r`. -/
theorem voteOn_congr {votes' : List (Nat × AccountVote)} (hsorted : Sorted Prod.fst votes)
    (hsorted' : Sorted Prod.fst votes') (h : ∀ v, (r, v) ∈ votes' ↔ (r, v) ∈ votes) :
    voteOn r votes' = voteOn r votes := by
  ext v
  rw [voteOn_eq_some hsorted, voteOn_eq_some hsorted', h]

/-- **Removal.** -/
theorem voteOn_eraseIdx (hsorted : Sorted Prod.fst votes)
    (hi : binarySearchByKey Prod.fst r votes = .ok i) :
    voteOn r' (votes.eraseIdx i) = if r' = r then none else voteOn r' votes := by
  obtain ⟨hsorted', hmem⟩ := hsorted.eraseIdx hi
  split
  next h =>
    apply voteOn_eq_none
    intro w hw
    rw [h]
    exact ((hmem w).mp hw).2
  next h =>
    apply voteOn_congr hsorted hsorted'
    intro w
    rw [hmem]
    exact and_iff_left h

end VoteOn

/-! ## Updates of the storage -/

namespace State

variable (s : State A X H) (key key' : A × X) (voting : Voting A)

theorem voting_putVoting :
    (s.putVoting key voting).voting key' = if key' = key then voting else s.voting key' := by
  unfold State.voting putVoting StorageMap.getD
  split
  next h => rw [h, AList.lookup_insert, Option.getD_some]
  next h => rw [AList.lookup_insert_ne h]

@[simp] theorem voting_putInfo (r : Nat) (info : Option (ReferendumInfo X H)) :
    (s.putInfo r info).voting key = s.voting key := rfl

@[simp] theorem voting_putLock (x : X) (a : A) (n : Nat) :
    (s.putLock x a n).voting key = s.voting key := rfl

@[simp] theorem votingOf_putVoting :
    (s.putVoting key voting).votingOf = s.votingOf.insert key voting := rfl

@[simp] theorem votingOf_putInfo (r : Nat) (info : Option (ReferendumInfo X H)) :
    (s.putInfo r info).votingOf = s.votingOf := rfl

theorem info_putInfo (r r' : Nat) (info : Option (ReferendumInfo X H)) :
    (s.putInfo r info).referendumInfoOf r' = if r' = r then info else s.referendumInfoOf r' :=
  Function.update_apply ..

theorem locks_putLock (x y : X) (a b : A) (n : Nat) :
    (s.putLock x a n).locks y b = if y = x ∧ b = a then n else s.locks y b := rfl

@[simp] theorem locks_putVoting : (s.putVoting key voting).locks = s.locks := rfl

@[simp] theorem locks_putInfo (r : Nat) (info : Option (ReferendumInfo X H)) :
    (s.putInfo r info).locks = s.locks := rfl

end State

theorem voting_putVoting_self {s : State A X H} {key : A × X} {voting : Voting A} :
    (s.putVoting key voting).voting key = voting := by
  rw [State.voting_putVoting, if_pos rfl]

omit [DecidableEq A] in
@[simp] theorem Voting.votes_setDelegations (v : Voting A) (d : Delegations) :
    (v.setDelegations d).votes = v.votes := by
  cases v <;> rfl

omit [DecidableEq A] in
@[simp] theorem Voting.prior_setDelegations (v : Voting A) (d : Delegations) :
    (v.setDelegations d).prior = v.prior := by
  cases v <;> rfl

omit [DecidableEq A] in
@[simp] theorem Voting.delegations_setDelegations (v : Voting A) (d : Delegations) :
    (v.setDelegations d).delegations = d := by
  cases v <;> rfl

omit [DecidableEq A] in
@[simp] theorem Voting.votes_rejig (v : Voting A) (now : Nat) : (v.rejig now).votes = v.votes := by
  cases v <;> rfl

omit [DecidableEq A] in
@[simp] theorem Voting.prior_rejig (v : Voting A) (now : Nat) :
    (v.rejig now).prior = v.prior.rejig now := by
  cases v <;> rfl

section Upstream

variable {delegate : Delegations → Delegations} {change : Tally → Bool → Tally} {who : A} {asset : X}
variable {s : State A X H} {votes : List (Nat × AccountVote)}
  {infos : Nat → Option (ReferendumInfo X H)} {r : Nat}

/-- What the loop over votes makes of a referendum with this vote on it. -/
def adjusted (change : Tally → Bool → Tally) (vote : Option AccountVote)
    (info : Option (ReferendumInfo X H)) : Option (ReferendumInfo X H) :=
  match vote.bind AccountVote.asStandard with
  | some aye => mapTally (fun t => change t aye) info
  | none => info

omit [DecidableEq X] in
theorem adjustTallies_of_forall_ne (h : ∀ v ∈ votes, v.1 ≠ r) :
    adjustTallies change votes infos r = infos r := by
  induction votes generalizing infos with
  | nil => rfl
  | cons v rest ih =>
      have hv : r ≠ v.1 := (h v List.mem_cons_self).symm
      rw [adjustTallies, ih fun w hw => h w (List.mem_cons_of_mem _ hw)]
      cases v.2.asStandard with
      | none => rfl
      | some aye => exact Function.update_of_ne hv _ _

omit [DecidableEq X] in
/-- **The loop over votes** changes every referendum once. -/
theorem adjustTallies_apply (hsorted : Sorted Prod.fst votes) :
    adjustTallies change votes infos r = adjusted change (voteOn r votes) (infos r) := by
  induction votes generalizing infos with
  | nil => rfl
  | cons v rest ih =>
      obtain ⟨i, vote⟩ := v
      obtain ⟨hfirst, hrest⟩ := List.pairwise_cons.mp hsorted
      rw [voteOn_cons, adjustTallies]
      by_cases hi : i = r
      · -- the rest of the loop does not come back to this referendum
        subst hi
        rw [if_pos rfl, adjustTallies_of_forall_ne fun w hw => (hfirst w hw).ne', adjusted,
          Option.bind_some]
        cases vote.asStandard with
        | none => rfl
        | some aye => exact Function.update_self ..
      · rw [if_neg hi, ih hrest]
        cases vote.asStandard with
        | none => rfl
        | some aye => exact congrArg _ (Function.update_of_ne (Ne.symm hi) _ _)

theorem voting_upstream (key : A × X) : (s.upstream delegate change who asset).voting key =
    if key = (who, asset) then (s.voting key).setDelegations (delegate (s.voting key).delegations)
    else s.voting key := by
  show ((s.putVoting _ _).voting key) = _
  rw [State.voting_putVoting]
  split
  next h => rw [h]
  next => rfl

/-- Votes and prior locks stay when delegations change. -/
@[simp] theorem votes_upstream (key : A × X) :
    ((s.upstream delegate change who asset).voting key).votes = (s.voting key).votes := by
  rw [voting_upstream]
  split <;> simp

theorem info_upstream (hsorted : Sorted Prod.fst (s.voting (who, asset)).votes) :
    (s.upstream delegate change who asset).referendumInfoOf r =
      adjusted change (voteOn r (s.voting (who, asset)).votes) (s.referendumInfoOf r) :=
  adjustTallies_apply hsorted

@[simp] theorem locks_upstream : (s.upstream delegate change who asset).locks = s.locks := rfl

@[simp] theorem ledger_upstream : (s.upstream delegate change who asset).ledger = s.ledger := rfl

end Upstream

/-! ## The effects of the calls -/

variable (cfg : Config A X)

/-- The prior lock after a vote on a finished referendum was removed. -/
def settledPrior (now : Nat) (vote : AccountVote) (approved : Bool) (end_ : Nat)
    (prior : PriorLock) : PriorLock :=
  match vote.lockedIf approved with
  | some (lockPeriods, balance) =>
      if now < cfg.unlockAt end_ lockPeriods then
        prior.accumulate (cfg.unlockAt end_ lockPeriods) balance else prior
  | none => prior

/-- The storage once a delegation is taken off its target. -/
def State.reduced (s : State A X H) (target : A) (asset : X) (amount : Delegations) : State A X H :=
  s.upstream (fun d => d.saturatingSub amount) (fun t aye => t.reduce aye amount) target asset

/-- The storage once a delegation is put on its target. -/
def State.increased (s : State A X H) (target : A) (asset : X) (amount : Delegations) : State A X H :=
  s.upstream (fun d => d.saturatingAdd cfg.balanceMax amount)
    (fun t aye => t.increase cfg.balanceMax aye amount)
    target asset

/-- What an account did before it delegates: it was idle, or it delegates already and
    is taken off its target. -/
inductive Leaves (s : State A X H) (asset : X) :
    Voting A → Delegations → PriorLock → State A X H → Prop where
  | idle {delegations prior} : Leaves s asset (.direct [] delegations prior) delegations prior s
  | again {balance target conviction delegations prior} :
      Leaves s asset (.delegating balance target conviction delegations prior) delegations prior
        (s.reduced target asset (conviction.votes cfg.balanceMax balance))

/-- Whose vote a call removes. -/
def Extrinsic.removes : Extrinsic A X H → Option (A × X × Nat)
  | .removeVote (.signed who) asset index => some (who, asset, index)
  | .removeOtherVote (.signed _) target asset index => some (target, asset, index)
  | _ => none

/-- Whether a call starts a referendum. -/
def Extrinsic.starts : Extrinsic A X H → Bool
  | .start .. => true
  | _ => false

/-- The referendum that a call may cancel. -/
def Extrinsic.cancels : Extrinsic A X H → Option Nat
  | .cancelReferendum _ r => some r
  | .emergencyCancel _ r => some r
  | .blacklist _ _ _ r => r
  | _ => none

/-- Whether `try_vote` comes to record a vote: who delegates has none, and there
    is no room for too many. -/
def Voting.takesVote (r : Nat) : Voting A → Bool
  | .direct votes .. => (voteOn r votes).isSome || decide (votes.length % 2 ^ 32 ≤ cfg.maxVotes)
  | .delegating .. => false

/-- The lock that a call has the currency extend: asset, account and amount. The vote or the
    delegation is written by then. -/
def lockAsked (s : State A X H) : Extrinsic A X H → Option (X × A × Nat)
  | .vote (.signed who) r vote =>
      match s.referendumInfoOf r with
      | some (.ongoing status) =>
          if vote.balance cfg.balanceMax ≤ s.ledger.free status.proposalId.asset who ∧
              (s.voting (who, status.proposalId.asset)).takesVote cfg r = true then
            some (status.proposalId.asset, who, vote.balance cfg.balanceMax)
          else none
      | _ => none
  | .delegate (.signed who) target asset _ balance =>
      if who ≠ target ∧ balance ≤ s.ledger.free asset who ∧ (s.voting (who, asset)).votes = [] then
        some (asset, who, balance)
      else none
  | _ => none

/-- What a call does at block `now`. -/
inductive Turn (now : Nat) (s : State A X H) : Extrinsic A X H → State A X H → Prop where
  | same {e} : Turn now s e s
  | voted {who r vote status votes votes' delegations prior tally tally'}
      (hinfo : s.referendumInfoOf r = some (.ongoing status))
      (hfunds : vote.balance cfg.balanceMax ≤ s.ledger.free status.proposalId.asset who)
      (hvoting : s.voting (who, status.proposalId.asset) = .direct votes delegations prior)
      (hreplace : replaceVote cfg r vote votes delegations status.tally = .ok (votes', tally))
      (henter : tally.enter cfg.balanceMax vote delegations = some tally')
      (haccept : cfg.extendRefused s.ledger s.locks status.proposalId.asset who
        (vote.balance cfg.balanceMax) = none) :
      Turn now s (.vote (.signed who) r vote)
        (((s.putVoting (who, status.proposalId.asset) (.direct votes' delegations prior)).putLock
          status.proposalId.asset who
          (max (s.locks status.proposalId.asset who) (vote.balance cfg.balanceMax))).putInfo r
          (some (.ongoing { status with tally := tally' })))
  | voteRefused {who r vote status votes votes' delegations prior tally e}
      (hinfo : s.referendumInfoOf r = some (.ongoing status))
      (hfunds : vote.balance cfg.balanceMax ≤ s.ledger.free status.proposalId.asset who)
      (hvoting : s.voting (who, status.proposalId.asset) = .direct votes delegations prior)
      (hreplace : replaceVote cfg r vote votes delegations status.tally = .ok (votes', tally))
      (hrefuse : cfg.extendRefused s.ledger s.locks status.proposalId.asset who
        (vote.balance cfg.balanceMax) = some e) :
      Turn now s (.vote (.signed who) r vote)
        (s.putVoting (who, status.proposalId.asset) (.direct votes' delegations prior))
  | removedOngoing {e target asset r i vote status votes delegations prior tally}
      (he : e.removes = some (target, asset, r))
      (hvoting : s.voting (target, asset) = .direct votes delegations prior)
      (hi : binarySearchByKey Prod.fst r votes = .ok i) (hvote : votes[i]? = some (r, vote))
      (hinfo : s.referendumInfoOf r = some (.ongoing status))
      (hretract : status.tally.retract cfg.balanceMax vote delegations = some tally) :
      Turn now s e ((s.putInfo r (some (.ongoing { status with tally := tally }))).putVoting
        (target, asset) (.direct (votes.eraseIdx i) delegations prior))
  | removedFinished {e target asset r i vote approved end_ votes delegations prior}
      (he : e.removes = some (target, asset, r))
      (hvoting : s.voting (target, asset) = .direct votes delegations prior)
      (hi : binarySearchByKey Prod.fst r votes = .ok i) (hvote : votes[i]? = some (r, vote))
      (hinfo : s.referendumInfoOf r = some (.finished approved end_)) :
      Turn now s e (s.putVoting (target, asset)
        (.direct (votes.eraseIdx i) delegations (settledPrior cfg now vote approved end_ prior)))
  | removedCancelled {e target asset r i vote votes delegations prior}
      (he : e.removes = some (target, asset, r))
      (hvoting : s.voting (target, asset) = .direct votes delegations prior)
      (hi : binarySearchByKey Prod.fst r votes = .ok i) (hvote : votes[i]? = some (r, vote))
      (hinfo : s.referendumInfoOf r = none) :
      Turn now s e (s.putVoting (target, asset) (.direct (votes.eraseIdx i) delegations prior))
  | removedNothing {e target asset r} (he : e.removes = some (target, asset, r)) :
      Turn now s e (s.putVoting (target, asset) (s.voting (target, asset)))
  | delegated {who target asset conviction balance delegations prior t} (hne : who ≠ target)
      (hfunds : balance ≤ s.ledger.free asset who)
      (hleaves : Leaves cfg s asset (s.voting (who, asset)) delegations prior t)
      (haccept : cfg.extendRefused s.ledger s.locks asset who balance = none) :
      Turn now s (.delegate (.signed who) target asset conviction balance)
        (((t.increased cfg target asset (conviction.votes cfg.balanceMax balance)).putLock asset who
          (max (s.locks asset who) balance)).putVoting (who, asset)
          (.delegating balance target conviction delegations prior))
  | delegateRefused {who target asset conviction balance delegations prior t e} (hne : who ≠ target)
      (hfunds : balance ≤ s.ledger.free asset who)
      (hleaves : Leaves cfg s asset (s.voting (who, asset)) delegations prior t)
      (hrefuse : cfg.extendRefused s.ledger s.locks asset who balance = some e) :
      Turn now s (.delegate (.signed who) target asset conviction balance)
        (t.increased cfg target asset (conviction.votes cfg.balanceMax balance))
  | undelegated {who target asset conviction balance delegations prior}
      (hvoting : s.voting (who, asset) = .delegating balance target conviction delegations prior) :
      Turn now s (.undelegate (.signed who) asset)
        ((s.reduced target asset (conviction.votes cfg.balanceMax balance)).putVoting (who, asset)
          (.direct [] delegations
            (prior.accumulate (cfg.unlockAt now conviction.lockPeriods) balance)))
  | unlocked {origin target asset} :
      Turn now s (.unlock origin target asset)
        ((s.putVoting (target, asset) ((s.voting (target, asset)).rejig now)).putLock asset target
          (((s.voting (target, asset)).rejig now).lockedBalance cfg.balanceMax))
  | unlockRefused {origin target asset} :
      Turn now s (.unlock origin target asset)
        (s.putVoting (target, asset) ((s.voting (target, asset)).rejig now))
  | started {votingPeriod proposalId threshold delay} :
      Turn now s (.start votingPeriod proposalId threshold delay)
        (injectReferendum ((now + votingPeriod) % cfg.blockNumbers) proposalId threshold delay s)
  | cancelled {e r cancellations} (he : e.cancels = some r) :
      Turn now s e ({ s with cancellations := cancellations }.putInfo r none)

/-! ## Nothing else happens -/

section Outcomes

variable {cfg} {s : State A X H} {now : Nat} {α : Type}

theorem unlessRefused_outcome {P : Unit → State A X H → Prop}
    {Q : DispatchError Error → State A X H → Prop}
    {refused : Option (DispatchError Empty)} {f : State A X H → State A X H} :
    Call.Outcome P Q (unlessRefused refused f s) ↔
      (refused = none → P () (f s)) ∧ ∀ e, refused = some e → Q (e.map Empty.elim) s := by
  cases refused with
  | none => simp [unlessRefused]
  | some e => simp [unlessRefused]

theorem referendumStatus_outcome {r : Nat} {P : ReferendumStatus X H → State A X H → Prop}
    {Q : DispatchError Error → State A X H → Prop}
    (hok : ∀ status, s.referendumInfoOf r = some (.ongoing status) → P status s)
    (herror : ∀ e, Q e s) : Call.Outcome P Q ((referendumStatus r : DemocracyCall A X H _) s) := by
  simp only [referendumStatus, Call.get_bind, Call.outcome_bind, Call.outcome_ofOption]
  refine ⟨fun info hinfo => ?_, fun _ => herror _⟩
  cases info with
  | ongoing status => exact hok status hinfo
  | finished approved end_ => exact herror _

theorem tryMutateVoting_outcome {key : A × X} {f : Voting A → DemocracyCall A X H (α × Voting A)}
    {P : α → State A X H → Prop} {Q : DispatchError Error → State A X H → Prop} :
    Call.Outcome P Q (tryMutateVoting key f s) ↔
      Call.Outcome (fun p t => P p.1 (t.putVoting key p.2)) Q (f (s.voting key) s) := by
  simp only [tryMutateVoting, Call.get_bind, Call.outcome_bind]
  exact Iff.rfl

theorem changeUpstream_outcome {delegate : Delegations → Delegations}
    {change : Tally → Bool → Tally} {who : A}
    {asset : X} {P : Nat → State A X H → Prop} {Q : DispatchError Error → State A X H → Prop}
    (h : ∀ n, P n (s.upstream delegate change who asset)) :
    Call.Outcome P Q (changeUpstream delegate change who asset s) := by
  simp only [changeUpstream, Call.get_bind, Call.outcome_bind, Call.outcome_modify]
  cases s.voting (who, asset) with
  | direct votes delegations prior => exact h _
  | delegating balance target conviction delegations prior => exact h _

/-- All that the call does is a turn. -/
def IsTurn (cfg : Config A X) (now : Nat) (s : State A X H) (e : Extrinsic A X H)
    (x : DemocracyCall A X H α) : Prop :=
  Call.Outcome (fun _ => Turn cfg now s e) (fun error t => error = .panic ∨ Turn cfg now s e t) (x s)

theorem tryVote_turn {who : A} {r : Nat} {vote : AccountVote} :
    IsTurn cfg now s (.vote (.signed who) r vote) (tryVote cfg who r vote) := by
  simp only [IsTurn, tryVote, Call.outcome_bind]
  refine referendumStatus_outcome (fun status hinfo => ?_) fun _ => .inr .same
  simp only [Call.outcome_ensure, tryMutateVoting_outcome]
  refine ⟨fun hfunds => ?_, fun _ => .inr .same⟩
  cases hvoting : s.voting (who, status.proposalId.asset) with
  | delegating balance target conviction delegations prior => exact .inr .same
  | direct votes delegations prior =>
      simp only [recordVote, Call.outcome_bind, Call.outcome_ofExcept, Call.outcome_ofOption,
        Call.outcome_pure]
      refine ⟨fun replaced hreplace => ⟨fun tally henter => ?_, fun _ => .inr .same⟩,
        fun _ _ => .inr .same⟩
      -- the vote is written; now the lock may be refused
      simp only [extendLock, Call.get_bind, unlessRefused_outcome, Call.outcome_modify]
      exact ⟨fun haccept => .voted hinfo hfunds hvoting hreplace henter haccept,
        fun e hrefuse => .inr (.voteRefused hinfo hfunds hvoting hreplace hrefuse)⟩

theorem settleFinished_outcome {r end_ : Nat} {scope : UnvoteScope} {vote : AccountVote}
    {delegations : Delegations}
    {prior : PriorLock} {approved : Bool} {P : PriorLock → State A X H → Prop}
    {Q : DispatchError Error → State A X H → Prop}
    (hok : P (settledPrior cfg now vote approved end_ prior) s) (herror : ∀ e, Q e s) :
    Call.Outcome P Q (settleVote cfg now r scope vote delegations prior
      (some (.finished approved end_)) s) := by
  unfold settledPrior at hok
  simp only [settleVote]
  cases hlocked : vote.lockedIf approved with
  | none =>
      rw [hlocked] at hok
      exact hok
  | some locked =>
      simp only [hlocked] at hok
      by_cases hnow : now < cfg.unlockAt end_ locked.1
      · simp only [hnow, if_true, Call.outcome_bind, Call.outcome_ensure]
        rw [if_pos hnow] at hok
        exact ⟨fun _ => hok, fun _ => herror _⟩
      · simp only [hnow, if_false]
        rw [if_neg hnow] at hok
        exact hok

theorem tryRemoveVote_turn {e : Extrinsic A X H} {target : A} {asset : X} {r : Nat}
    {scope : UnvoteScope} (he : e.removes = some (target, asset, r)) :
    IsTurn cfg now s e (tryRemoveVote cfg now target asset r scope) := by
  simp only [IsTurn, tryRemoveVote, Call.get_bind, tryMutateVoting_outcome]
  cases hvoting : s.voting (target, asset) with
  | delegating balance target' conviction delegations prior =>
      show Turn cfg now s e (s.putVoting (target, asset) _)
      rw [← hvoting]
      exact .removedNothing he
  | direct votes delegations prior =>
      simp only [unrecordVote, Call.outcome_bind, Call.outcome_ofOption]
      refine ⟨fun i hi => ⟨fun vote hvote => ?_, fun _ => .inr .same⟩, fun _ => .inr .same⟩
      replace hi : binarySearchByKey Prod.fst r votes = .ok i := by
        cases hsearch : binarySearchByKey Prod.fst r votes with
        | error j => simp [hsearch, Except.toOption] at hi
        | ok j =>
            rw [hsearch] at hi
            rw [Option.some.inj hi]
      obtain ⟨found, hfound, hkey⟩ := binarySearch_ok hi
      obtain rfl : found = vote := Option.some.inj (hfound.symm.trans hvote)
      obtain ⟨index, vote⟩ := found
      obtain rfl : index = r := hkey
      cases hinfo : s.referendumInfoOf index with
      | none => exact .removedCancelled he hvoting hi hvote hinfo
      | some info =>
          cases info with
          | ongoing status =>
              simp only [settleVote, Call.outcome_bind, Call.outcome_ensure, Call.outcome_ofOption]
              refine ⟨fun _ => ⟨fun tally hretract => ?_, fun _ => .inr .same⟩, fun _ => .inr .same⟩
              exact .removedOngoing he hvoting hi hvote hinfo hretract
          | finished approved end_ =>
              refine settleFinished_outcome ?_ fun _ => .inr .same
              exact .removedFinished he hvoting hi hvote hinfo

theorem leaveVoting_outcome {asset : X} {voting : Voting A}
    {P : Delegations × PriorLock → State A X H → Prop}
    {Q : DispatchError Error → State A X H → Prop}
    (hok : ∀ delegations prior t, Leaves cfg s asset voting delegations prior t →
      P (delegations, prior) t)
    (herror : ∀ e, Q e s) : Call.Outcome P Q (leaveVoting cfg asset voting s) := by
  cases voting with
  | delegating balance target conviction delegations prior =>
      simp only [leaveVoting, Call.outcome_bind]
      apply changeUpstream_outcome
      intro n
      exact hok _ _ _ .again
  | direct votes delegations prior =>
      simp only [leaveVoting, Call.outcome_bind, Call.outcome_ensure]
      refine ⟨?_, fun _ => herror _⟩
      rintro rfl
      exact hok _ _ _ .idle

theorem Leaves.count {asset : X} {voting : Voting A} {delegations : Delegations} {prior : PriorLock}
    {t : State A X H} (h : Leaves cfg s asset voting delegations prior t) :
    t.referendumCount = s.referendumCount := by
  cases h <;> rfl

/-- Leaving touches neither balances nor locks. -/
theorem Leaves.untouched {asset : X} {voting : Voting A} {delegations : Delegations}
    {prior : PriorLock}
    {t : State A X H} (h : Leaves cfg s asset voting delegations prior t) :
    t.ledger = s.ledger ∧ t.locks = s.locks := by
  cases h <;> exact ⟨rfl, rfl⟩

/-- Who begins to delegate has no votes, and keeps the prior lock. -/
theorem Leaves.leaves_votes {asset : X} {voting : Voting A} {delegations : Delegations}
    {prior : PriorLock}
    {t : State A X H} (h : Leaves cfg s asset voting delegations prior t) :
    voting.votes = [] ∧ voting.prior = prior := by
  cases h <;> exact ⟨rfl, rfl⟩

theorem tryDelegate_turn {who target : A} {asset : X} {conviction : Conviction} {balance : Nat} :
    IsTurn cfg now s (.delegate (.signed who) target asset conviction balance)
      (tryDelegate cfg who target asset conviction balance) := by
  simp only [IsTurn, tryDelegate, Call.outcome_bind, Call.get_bind, Call.outcome_ensure,
    tryMutateVoting_outcome]
  refine ⟨fun hne => ⟨fun hfunds => ?_, fun _ => .inr .same⟩, fun _ => .inr .same⟩
  refine leaveVoting_outcome (fun delegations prior t hleaves => ?_) fun _ => .inr .same
  -- what the currency is asked about is what it was before the call
  obtain ⟨hledger, hlocks⟩ := hleaves.untouched
  simp only [increaseUpstreamDelegation]
  refine changeUpstream_outcome fun n => ?_
  simp only [extendLock, Call.get_bind, unlessRefused_outcome, ledger_upstream, locks_upstream,
    hledger, hlocks]
  exact ⟨fun haccept => .delegated hne hfunds hleaves haccept,
    fun e hrefuse => .inr (.delegateRefused hne hfunds hleaves hrefuse)⟩

theorem tryUndelegate_turn {who : A} {asset : X} :
    IsTurn cfg now s (.undelegate (.signed who) asset) (tryUndelegate cfg now who asset) := by
  simp only [IsTurn, tryUndelegate, tryMutateVoting_outcome]
  cases hvoting : s.voting (who, asset) with
  | direct votes delegations prior => exact .inr .same
  | delegating balance target conviction delegations prior =>
      simp only [endDelegation, Call.outcome_bind, reduceUpstreamDelegation]
      refine changeUpstream_outcome fun n => ?_
      exact .undelegated hvoting

theorem updateLock_turn {origin : RawOrigin A} {target : A} {asset : X} :
    IsTurn cfg now s (.unlock origin target asset) (updateLock cfg now target asset) := by
  simp only [IsTurn, updateLock, Call.get_bind, Call.outcome_bind, Call.outcome_modify]
  split
  next hzero =>
    -- removing a lock is setting it to nothing
    simp only [removeLock, Call.get_bind, unlessRefused_outcome]
    refine ⟨fun _ => ?_, fun _ _ => .inr .unlockRefused⟩
    rw [← hzero]
    exact .unlocked
  next =>
    simp only [setLock, Call.get_bind, unlessRefused_outcome]
    exact ⟨fun _ => .unlocked, fun _ _ => .inr .unlockRefused⟩

variable [DecidableEq H]

/-- **What a call does**, whether it returns or fails. -/
theorem dispatch_turn (e : Extrinsic A X H) :
    Turn cfg now s e (dispatch (extrinsicBody cfg now e) s) := by
  apply dispatch_of_outcome .same
  cases e with
  | vote origin r vote =>
      simp only [extrinsicBody, Call.outcome_bind, ensureSigned_outcome]
      refine ⟨?_, fun _ => .inr .same⟩
      rintro who rfl
      exact tryVote_turn
  | removeVote origin asset index =>
      simp only [extrinsicBody, Call.outcome_bind, ensureSigned_outcome]
      refine ⟨?_, fun _ => .inr .same⟩
      rintro who rfl
      exact tryRemoveVote_turn rfl
  | removeOtherVote origin target asset index =>
      simp only [extrinsicBody, Call.outcome_bind, ensureSigned_outcome]
      refine ⟨?_, fun _ => .inr .same⟩
      rintro who rfl
      exact tryRemoveVote_turn rfl
  | delegate origin target asset conviction balance =>
      simp only [extrinsicBody, Call.outcome_bind, ensureSigned_outcome]
      refine ⟨?_, fun _ => .inr .same⟩
      rintro who rfl
      exact tryDelegate_turn
  | undelegate origin asset =>
      simp only [extrinsicBody, Call.outcome_bind, ensureSigned_outcome]
      refine ⟨?_, fun _ => .inr .same⟩
      rintro who rfl
      exact tryUndelegate_turn
  | unlock origin target asset =>
      simp only [extrinsicBody, Call.outcome_bind, ensureSigned_outcome]
      exact ⟨fun _ _ => updateLock_turn, fun _ => .inr .same⟩
  | start votingPeriod proposalId threshold delay => exact .started
  | cancelReferendum origin r =>
      simp only [extrinsicBody, cancelReferendum, Call.outcome_bind, ensureRoot_outcome]
      exact ⟨fun _ => .cancelled rfl, fun _ => .inr .same⟩
  | emergencyCancel origin r =>
      simp only [extrinsicBody, emergencyCancel, Call.outcome_bind, Call.outcome_ensure]
      refine ⟨fun _ => ?_, fun _ => .inr .same⟩
      refine referendumStatus_outcome (fun status _ => ?_) fun _ => .inr .same
      exact And.intro (fun _ => Turn.cancelled rfl) fun _ => .inr .same
  | blacklist origin id queue r =>
      simp only [extrinsicBody, blacklist, Call.outcome_transactional, Call.outcome_bind,
        Call.outcome_ensure, Call.outcome_ofExcept, Call.get_bind]
      refine ⟨fun _ => ⟨fun _ _ => ?_, fun _ _ => .inr .same⟩, fun _ => .inr .same⟩
      cases r with
      | none => exact Turn.same
      | some r =>
          cases hinfo : s.referendumInfoOf r with
          | none =>
              simp only [hinfo]
              exact Turn.same
          | some info =>
              simp only [hinfo]
              cases info with
              | finished approved end_ => exact Turn.same
              | ongoing status =>
                  by_cases hid : status.proposalId = id
                  · simp only [Call.when, hid, if_true]
                    exact Turn.cancelled rfl
                  · simp only [Call.when, hid, if_false]
                    exact Turn.same

end Outcomes

/-! ## Records -/

section Replace

variable {cfg} {r : Nat} {vote : AccountVote} {votes votes' : List (Nat × AccountVote)}
  {delegations : Delegations}
variable {tally tally' : Tally}

omit [DecidableEq A] [DecidableEq X] in
/-- **A vote replaces** the one on the same referendum, which is taken out of the tally. -/
theorem replaceVote_ok (hsorted : Sorted Prod.fst votes)
    (h : replaceVote cfg r vote votes delegations tally = .ok (votes', tally')) :
    Sorted Prod.fst votes' ∧ (∀ w, w ∈ votes' ↔ w = (r, vote) ∨ (w ∈ votes ∧ w.1 ≠ r)) ∧
      match voteOn r votes with
      | some old => tally.retract cfg.balanceMax old delegations = some tally'
      | none => tally' = tally := by
  unfold replaceVote at h
  cases hsearch : binarySearchByKey Prod.fst r votes with
  | ok i =>
      rw [hsearch] at h
      obtain ⟨⟨index, old⟩, hold, hkey⟩ := binarySearch_ok hsearch
      obtain rfl : index = r := hkey
      have hon : voteOn index votes = some old :=
        (voteOn_eq_some hsorted).mpr (List.mem_of_getElem? hold)
      simp only [hold] at h
      rw [hon]
      obtain ⟨hsorted', hmem⟩ := hsorted.set (a := (index, vote)) hsearch
      cases hretract : tally.retract cfg.balanceMax old delegations with
      | none => simp [hretract] at h
      | some tally'' =>
          simp only [hretract, Except.ok.injEq, Prod.mk.injEq] at h
          obtain ⟨rfl, rfl⟩ := h
          exact ⟨hsorted', hmem, hretract⟩
  | error i =>
      simp only [hsearch] at h
      have hne : ∀ w ∈ votes, w.1 ≠ r := fun w hw => hsorted.key_ne_of_error hsearch hw
      rw [voteOn_eq_none hne]
      obtain ⟨hsorted', hmem⟩ := hsorted.insertIdx (a := (r, vote)) hsearch
      split at h
      · simp only [Except.ok.injEq, Prod.mk.injEq] at h
        obtain ⟨rfl, rfl⟩ := h
        refine ⟨hsorted', fun w => ?_, rfl⟩
        rw [hmem]
        exact or_congr_right ⟨fun hw => ⟨hw, hne w hw⟩, fun hw => hw.1⟩
      · cases h

omit [DecidableEq A] [DecidableEq X] in
theorem takesVote_of_replaceVote {r : Nat} {vote : AccountVote}
    {votes votes' : List (Nat × AccountVote)}
    {delegations : Delegations} {prior : PriorLock} {tally tally' : Tally}
    (hsorted : Sorted Prod.fst votes)
    (h : replaceVote cfg r vote votes delegations tally = .ok (votes', tally')) :
    (Voting.direct votes delegations prior : Voting A).takesVote cfg r = true := by
  unfold replaceVote at h
  rw [Voting.takesVote, Bool.or_eq_true, decide_eq_true_eq]
  cases hsearch : binarySearchByKey Prod.fst r votes with
  | ok i =>
      left
      obtain ⟨⟨index, old⟩, hold, hkey⟩ := binarySearch_ok hsearch
      obtain rfl : index = r := hkey
      rw [(voteOn_eq_some hsorted).mpr (List.mem_of_getElem? hold)]
      rfl
  | error i =>
      right
      simp only [hsearch] at h
      split at h
      next hroom => exact hroom
      next => cases h

end Replace

section Asked

variable {cfg} {s : State A X H} {who : A}

theorem lockAsked_vote {r : Nat} {vote : AccountVote} {status : ReferendumStatus X H}
    (hinfo : s.referendumInfoOf r = some (.ongoing status))
    (hfunds : vote.balance cfg.balanceMax ≤ s.ledger.free status.proposalId.asset who)
    (htakes : (s.voting (who, status.proposalId.asset)).takesVote cfg r = true) :
    lockAsked cfg s (.vote (.signed who) r vote) =
      some (status.proposalId.asset, who, vote.balance cfg.balanceMax) := by
  simp only [lockAsked, hinfo]
  exact if_pos ⟨hfunds, htakes⟩

theorem lockAsked_delegate {target : A} {asset : X} {conviction : Conviction} {balance : Nat}
    (hne : who ≠ target)
    (hfunds : balance ≤ s.ledger.free asset who) (hvotes : (s.voting (who, asset)).votes = []) :
    lockAsked cfg s (.delegate (.signed who) target asset conviction balance) =
      some (asset, who, balance) :=
  if_pos ⟨hne, hfunds, hvotes⟩

end Asked

/-- The records fit together: votes are sorted by referendum and on referenda that were started, and
    nobody delegates to themselves. -/
structure Recorded (s : State A X H) : Prop where
  sorted : ∀ key, Sorted Prod.fst (s.voting key).votes
  counted : ∀ key, ∀ v ∈ (s.voting key).votes, v.1 < s.referendumCount
  running : ∀ r, s.referendumInfoOf r ≠ none → r < s.referendumCount
  apart : ∀ {a x balance target conviction delegations prior},
    s.voting (a, x) = .delegating balance target conviction delegations prior → a ≠ target

namespace Recorded

variable {cfg} {s s' t : State A X H} {now : Nat} {e : Extrinsic A X H}

theorem putVoting (h : Recorded s) {key : A × X} {voting : Voting A}
    (hsorted : Sorted Prod.fst voting.votes)
    (hcounted : ∀ v ∈ voting.votes, v.1 < s.referendumCount)
    (hapart : ∀ balance target conviction delegations prior,
      voting = .delegating balance target conviction delegations prior → key.1 ≠ target) :
    Recorded (s.putVoting key voting) where
  sorted key' := by
    rw [State.voting_putVoting]
    split
    · exact hsorted
    · exact h.sorted key'
  counted key' := by
    rw [State.voting_putVoting]
    split
    · exact hcounted
    · exact h.counted key'
  running := h.running
  apart {a x balance target conviction delegations prior} hvoting := by
    rw [State.voting_putVoting] at hvoting
    split at hvoting
    next hkey =>
      subst hkey
      exact hapart _ _ _ _ _ hvoting
    · exact h.apart hvoting

theorem putInfo (h : Recorded s) {r : Nat} {info : Option (ReferendumInfo X H)}
    (hr : info ≠ none → r < s.referendumCount) : Recorded (s.putInfo r info) where
  sorted := h.sorted
  counted := h.counted
  running r' hr' := by
    rw [State.info_putInfo] at hr'
    split at hr'
    next heq =>
      rw [heq]
      exact hr hr'
    · exact h.running r' hr'
  apart := h.apart

/-- It is about records and referenda alone. -/
theorem of_same (h : Recorded s) (hvoting : s'.votingOf = s.votingOf)
    (hinfos : s'.referendumInfoOf = s.referendumInfoOf)
    (hcount : s'.referendumCount = s.referendumCount) : Recorded s' := by
  have hsame : ∀ key, s'.voting key = s.voting key := by
    intro key
    rw [State.voting, hvoting, State.voting]
  constructor
  · intro key
    rw [hsame]
    exact h.sorted key
  · intro key
    rw [hsame, hcount]
    exact h.counted key
  · intro r hr
    rw [hinfos] at hr
    rw [hcount]
    exact h.running r hr
  · intro a x balance target conviction delegations prior hdelegating
    rw [hsame] at hdelegating
    exact h.apart hdelegating

theorem putLock (h : Recorded s) {x : X} {a : A} {n : Nat} : Recorded (s.putLock x a n) :=
  h.of_same rfl rfl rfl

theorem upstream (h : Recorded s) {delegate : Delegations → Delegations}
    {change : Tally → Bool → Tally} {who : A}
    {asset : X} : Recorded (s.upstream delegate change who asset) where
  sorted key := by
    rw [votes_upstream]
    exact h.sorted key
  counted key := by
    rw [votes_upstream]
    exact h.counted key
  running r hr := by
    rw [info_upstream (h.sorted _)] at hr
    apply h.running r
    intro hnone
    apply hr
    rw [hnone, adjusted]
    split <;> rfl
  apart {a x balance target conviction delegations prior} hvoting := by
    rw [voting_upstream] at hvoting
    split at hvoting
    · -- the record has other delegations, and the same target
      cases hold : s.voting (a, x) with
      | direct votes delegations' prior' => simp [hold, Voting.setDelegations] at hvoting
      | delegating balance' target' conviction' delegations' prior' =>
          have hne : a ≠ target' := h.apart hold
          simp only [hold, Voting.setDelegations, Voting.delegating.injEq] at hvoting
          exact hvoting.2.1 ▸ hne
    · exact h.apart hvoting

theorem inject (h : Recorded s) (hcount : s.referendumCount + 1 < 2 ^ 32) {end_ delay : Nat}
    {proposalId : ProposalId X H} {threshold : VoteThreshold} :
    Recorded (injectReferendum end_ proposalId threshold delay s) := by
  have hnext : (injectReferendum end_ proposalId threshold delay s).referendumCount =
      s.referendumCount + 1 :=
    Nat.mod_eq_of_lt hcount
  refine ⟨h.sorted, fun key v hv => ?_, fun r hr => ?_, h.apart⟩
  · rw [hnext]
    exact Nat.lt_succ_of_lt (h.counted key v hv)
  · rw [hnext]
    replace hr : (s.putInfo s.referendumCount _).referendumInfoOf r ≠ none := hr
    rw [State.info_putInfo] at hr
    split at hr
    next heq =>
      rw [heq]
      exact Nat.lt_succ_self _
    · exact Nat.lt_succ_of_lt (h.running r hr)

theorem leaves (h : Recorded s) {asset : X} {voting : Voting A} {delegations : Delegations}
    {prior : PriorLock} (hleaves : Leaves cfg s asset voting delegations prior t) : Recorded t := by
  cases hleaves with
  | idle => exact h
  | again => exact h.upstream

section Votes

variable {key : A × X} {votes votes' : List (Nat × AccountVote)} {delegations : Delegations}
  {prior prior' : PriorLock}
variable {r i : Nat}

/-- An account that votes. -/
theorem putDirect (h : Recorded s) (hsorted : Sorted Prod.fst votes)
    (hcounted : ∀ v ∈ votes, v.1 < s.referendumCount) :
    Recorded (s.putVoting key (.direct votes delegations prior)) := by
  refine h.putVoting hsorted hcounted ?_
  rintro _ _ _ _ _ ⟨⟩

/-- With a vote replaced, or a new one. -/
theorem replaced (h : Recorded s) (hvoting : s.voting key = .direct votes delegations prior)
    {vote : AccountVote}
    {tally tally' : Tally}
    (hreplace : replaceVote cfg r vote votes delegations tally = .ok (votes', tally'))
    (hr : s.referendumInfoOf r ≠ none) :
    Recorded (s.putVoting key (.direct votes' delegations prior)) := by
  have hsorted := h.sorted key
  have hcounted := h.counted key
  rw [hvoting] at hsorted hcounted
  obtain ⟨hsorted', hmem, -⟩ := replaceVote_ok hsorted hreplace
  refine h.putDirect hsorted' fun v hv => ?_
  rcases (hmem v).mp hv with rfl | ⟨hv, -⟩
  · exact h.running _ hr
  · exact hcounted v hv

/-- With a vote less. -/
theorem erased (h : Recorded s) (hvoting : s.voting key = .direct votes delegations prior)
    (hi : binarySearchByKey Prod.fst r votes = .ok i) :
    Recorded (s.putVoting key (.direct (votes.eraseIdx i) delegations prior')) := by
  have hsorted := h.sorted key
  have hcounted := h.counted key
  rw [hvoting] at hsorted hcounted
  obtain ⟨hsorted', hmem⟩ := hsorted.eraseIdx hi
  exact h.putDirect hsorted' fun v hv => hcounted v ((hmem v).mp hv).1

theorem rejigged (h : Recorded s) : Recorded (s.putVoting key ((s.voting key).rejig now)) := by
  refine h.putVoting ?_ ?_ ?_
  · rw [Voting.votes_rejig]
    exact h.sorted key
  · rw [Voting.votes_rejig]
    exact h.counted key
  · intro balance target conviction delegations prior hvoting
    cases hold : s.voting key with
    | direct votes delegations' prior' => simp [hold, Voting.rejig] at hvoting
    | delegating balance' target' conviction' delegations' prior' =>
        simp only [hold, Voting.rejig, Voting.delegating.injEq] at hvoting
        exact hvoting.2.1 ▸ h.apart hold

end Votes

/-- **Records** fit together after every call. -/
theorem turn (h : Recorded s) (hcount : e.starts = true → s.referendumCount + 1 < 2 ^ 32)
    (hturn : Turn cfg now s e s') : Recorded s' := by
  cases hturn with
  | same => exact h
  | voted hinfo hfunds hvoting hreplace henter haccept =>
      have hsome := Option.ne_none_iff_exists'.mpr ⟨_, hinfo⟩
      exact ((h.replaced hvoting hreplace hsome).putLock).putInfo fun _ => h.running _ hsome
  | voteRefused hinfo hfunds hvoting hreplace hrefuse =>
      exact h.replaced hvoting hreplace (Option.ne_none_iff_exists'.mpr ⟨_, hinfo⟩)
  | removedOngoing he hvoting hi hvote hinfo hretract =>
      have hsome := Option.ne_none_iff_exists'.mpr ⟨_, hinfo⟩
      exact (h.putInfo fun _ => h.running _ hsome).erased hvoting hi
  | removedFinished he hvoting hi hvote hinfo => exact h.erased hvoting hi
  | removedCancelled he hvoting hi hvote hinfo => exact h.erased hvoting hi
  | removedNothing he =>
      exact h.putVoting (h.sorted _) (h.counted _) fun _ _ _ _ _ hvoting => h.apart hvoting
  | delegated hne hfunds hleaves haccept =>
      refine ((h.leaves hleaves).upstream.putLock).putVoting .nil nofun ?_
      rintro _ _ _ _ _ ⟨⟩
      exact hne
  | delegateRefused hne hfunds hleaves hrefuse => exact (h.leaves hleaves).upstream
  | undelegated hvoting => exact h.upstream.putDirect .nil nofun
  | unlocked => exact h.rejigged.putLock
  | unlockRefused => exact h.rejigged
  | started => exact h.inject (hcount rfl)
  | cancelled he =>
      rename_i r cancellations
      have hsame : Recorded { s with cancellations := cancellations } := h.of_same rfl rfl rfl
      exact hsame.putInfo fun hne => absurd rfl hne

end Recorded

/-! ## Referenda -/

/-- The same referendum, up to its tally. -/
def Retallied (info info' : Option (ReferendumInfo X H)) : Prop := ∃ f, info' = mapTally f info

namespace Retallied

variable {cfg} {s t : State A X H} {info info' info'' : Option (ReferendumInfo X H)}

omit [DecidableEq X] in
protected theorem refl (info : Option (ReferendumInfo X H)) : Retallied info info := by
  refine ⟨id, ?_⟩
  unfold mapTally
  split <;> rfl

omit [DecidableEq X] in
protected theorem trans (h : Retallied info info') (h' : Retallied info' info'') :
    Retallied info info'' := by
  obtain ⟨f, rfl⟩ := h
  obtain ⟨g, rfl⟩ := h'
  refine ⟨g ∘ f, ?_⟩
  cases info with
  | none => rfl
  | some info => cases info <;> rfl

omit [DecidableEq X] in
/-- What has finished, or was cancelled, is what it was. -/
theorem eq_of_not_ongoing (h : Retallied info info')
    (hinfo : ∀ status, info ≠ some (.ongoing status)) : info' = info := by
  obtain ⟨f, rfl⟩ := h
  unfold mapTally
  split
  next status => exact absurd rfl (hinfo status)
  next => rfl

omit [DecidableEq X] in
theorem adjusted (change : Tally → Bool → Tally) (vote : Option AccountVote) :
    Retallied info (adjusted change vote info) := by
  unfold Democracy.adjusted
  split
  · exact ⟨_, rfl⟩
  · exact .refl info

theorem putInfo {r r' : Nat} {status : ReferendumStatus X H} (tally : Tally)
    (hinfo : s.referendumInfoOf r = some (.ongoing status)) :
    Retallied (s.referendumInfoOf r')
      ((s.putInfo r (some (.ongoing { status with tally := tally }))).referendumInfoOf r') := by
  rw [State.info_putInfo]
  split
  next heq =>
    subst heq
    exact ⟨fun _ => tally, by rw [hinfo, mapTally]⟩
  next => exact .refl _

theorem upstream (h : Recorded s) {delegate : Delegations → Delegations}
    {change : Tally → Bool → Tally} {who : A} {asset : X} (r : Nat) :
    Retallied (s.referendumInfoOf r) ((s.upstream delegate change who asset).referendumInfoOf r) := by
  rw [info_upstream (h.sorted _)]
  exact .adjusted ..

theorem reduced (h : Recorded s) {target : A} {asset : X} {amount : Delegations} (r : Nat) :
    Retallied (s.referendumInfoOf r) ((s.reduced target asset amount).referendumInfoOf r) :=
  .upstream h r

theorem leaves (h : Recorded s) {asset : X} {voting : Voting A} {delegations : Delegations}
    {prior : PriorLock} (hleaves : Leaves cfg s asset voting delegations prior t) (r : Nat) :
    Retallied (s.referendumInfoOf r) (t.referendumInfoOf r) := by
  cases hleaves with
  | idle => exact .refl _
  | again => exact .reduced h r

theorem increased (h : Recorded s) {target : A} {asset : X} {amount : Delegations} (r : Nat) :
    Retallied (s.referendumInfoOf r) ((s.increased cfg target asset amount).referendumInfoOf r) :=
  .upstream h r

end Retallied

/-- **What a call does to referenda**: the tally of an ongoing one may change, a new one may start,
    and one may be cancelled. None is finished. -/
theorem Turn.info {cfg} {s s' : State A X H} {now : Nat} {e : Extrinsic A X H} (h : Recorded s)
    (hturn : Turn cfg now s e s') (r : Nat) :
    Retallied (s.referendumInfoOf r) (s'.referendumInfoOf r) ∨
      (e.starts = true ∧ r = s.referendumCount ∧
        ∃ status, s'.referendumInfoOf r = some (.ongoing status)) ∨
      (e.cancels = some r ∧ s'.referendumInfoOf r = none) := by
  cases hturn with
  | voted hinfo hfunds hvoting hreplace henter haccept => exact .inl (.putInfo (s := s) _ hinfo)
  | removedOngoing he hvoting hi hvote hinfo hretract => exact .inl (.putInfo _ hinfo)
  | delegated hne hfunds hleaves haccept =>
      exact .inl ((Retallied.leaves h hleaves r).trans (.increased (h.leaves hleaves) r))
  | delegateRefused hne hfunds hleaves hrefuse =>
      exact .inl ((Retallied.leaves h hleaves r).trans (.increased (h.leaves hleaves) r))
  | undelegated hvoting => exact .inl (.reduced h r)
  | started =>
      by_cases hr : r = s.referendumCount
      · exact .inr (.inl ⟨rfl, hr, _, (State.info_putInfo ..).trans (if_pos hr)⟩)
      · left
        show Retallied _ ((s.putInfo _ _).referendumInfoOf r)
        rw [State.info_putInfo, if_neg hr]
        exact .refl _
  | cancelled he =>
      rename_i index cancellations
      rw [State.info_putInfo]
      split
      next hr => exact .inr (.inr ⟨hr ▸ he, rfl⟩)
      next => exact .inl (.refl _)
  | _ => exact .inl (.refl _)

theorem Turn.count_le {cfg} {s s' : State A X H} {now : Nat} {e : Extrinsic A X H}
    (hcount : e.starts = true → s.referendumCount + 1 < 2 ^ 32) (hturn : Turn cfg now s e s') :
    s.referendumCount ≤ s'.referendumCount := by
  cases hturn with
  | started =>
      show s.referendumCount ≤ (s.referendumCount + 1) % 2 ^ 32
      have hlt := hcount rfl
      omega
  | delegated hne hfunds hleaves haccept => exact hleaves.count.ge
  | delegateRefused hne hfunds hleaves hrefuse => exact hleaves.count.ge
  | _ => exact Nat.le_refl _

/-! ## Blocks -/

/-- The referenda still to be finished in this block. -/
def Phase.pending : Phase X H → List Nat
  | .maturing _ rest => rest.map Prod.fst
  | .enacting _ index _ _ rest => index :: rest.map Prod.fst
  | _ => []

section Blocks

variable {cfg} {c d : Chain A X H}

theorem mem_maturing {s : State A X H} {n next last r : Nat} {status : ReferendumStatus X H}
    (h : (r, status) ∈ maturingReferendaAtInner s n next last) :
    r < last ∧ s.referendumInfoOf r = some (.ongoing status) := by
  obtain ⟨i, hi, hmature⟩ := List.mem_filterMap.mp h
  have hlast : i < last := by
    have hrange := List.mem_range'_1.mp hi
    omega
  split at hmature
  next status' hinfo =>
    simp only [Option.ite_none_right_eq_some, Option.some.injEq, Prod.mk.injEq] at hmature
    obtain ⟨-, rfl, rfl⟩ := hmature
    exact ⟨hlast, hinfo⟩
  next => cases hmature

/-- Where `begin_block` starts its loop, over the referenda of `s` that mature. -/
def Chain.looping (c : Chain A X H) (s : State A X H) : Chain A X H :=
  ⟨s, c.now, .maturing c.pallet.referendumCount
    (maturingReferendaAtInner s c.now c.pallet.lowestUnbaked c.pallet.referendumCount)⟩

theorem pending_looping {s : State A X H} {r : Nat} (hr : r ∈ (c.looping s).phase.pending) :
    r < c.pallet.referendumCount ∧ ∃ status, s.referendumInfoOf r = some (.ongoing status) := by
  obtain ⟨⟨r, status⟩, hmature, rfl⟩ := List.mem_map.mp hr
  obtain ⟨hlt, hinfo⟩ := mem_maturing hmature
  exact ⟨hlt, status, hinfo⟩

/-- What a step of the chain does. -/
inductive Advances (cfg : Config A X) (c : Chain A X H) : Op A X H → Chain A X H → Prop where
  | call {e s'} (hturn : Turn cfg c.now c.pallet e s') :
      Advances cfg c (.call e) { c with pallet := s' }
  | elsewhere {ledger} :
      Advances cfg c (.elsewhere ledger) { c with pallet := { c.pallet with ledger := ledger } }
  | block : Advances cfg c .block { c with now := c.now + 1, phase := .opened }
  | begin {launched} : Advances cfg c (.begin launched) (c.looping c.pallet)
  | launch {launched end_ proposalId threshold delay} (hsome : launched.isSome = true) :
      Advances cfg c (.begin launched)
        (c.looping (injectReferendum end_ proposalId threshold delay c.pallet))
  | bake {last index status approved rest}
      (hphase : c.phase = .maturing last ((index, status) :: rest)) :
      Advances cfg c .bake { c with phase := .enacting last index status approved rest }
  | finish {last index status approved rest}
      (hphase : c.phase = .enacting last index status approved rest) :
      Advances cfg c .finish
        { c with
          pallet := c.pallet.putInfo index (some (.finished approved c.now)), phase :=
            .maturing last rest }
  | close {lowest} : Advances cfg c .close
      { c with pallet := { c.pallet with lowestUnbaked := lowest }, phase := .begun }

/-- At the start of a block a referendum may be launched. -/
theorem beginBlock_advances {launched : Option (ProposalId X H × VoteThreshold)}
    (hstep : beginBlock cfg c launched = some d) : Advances cfg c (.begin launched) d := by
  unfold beginBlock at hstep
  split at hstep
  next => cases hstep
  next =>
    cases hstep
    split
    next =>
      cases launched with
      | none => exact .begin
      | some proposal => exact .launch rfl
    next => exact .begin

/-- **What a step does**, operation by operation. -/
theorem step_advances [DecidableEq H] {op : Op A X H} (hstep : step cfg c op = some d) :
    Advances cfg c op d := by
  cases op with
  | call e =>
      simp only [step, Option.ite_none_right_eq_some, Option.some.injEq] at hstep
      obtain ⟨-, rfl⟩ := hstep
      exact .call (dispatch_turn e)
  | elsewhere ledger =>
      cases hstep
      exact .elsewhere
  | block =>
      simp only [step] at hstep
      split at hstep
      next =>
        simp only [Option.ite_none_right_eq_some, Option.some.injEq] at hstep
        obtain ⟨-, rfl⟩ := hstep
        exact .block
      next => cases hstep
  | begin launched =>
      simp only [step] at hstep
      split at hstep
      next => exact beginBlock_advances hstep
      next => cases hstep
  | bake =>
      simp only [step, bakeReferendum] at hstep
      split at hstep
      next hphase =>
        simp only [Option.bind_eq_bind, Option.bind_eq_some_iff] at hstep
        obtain ⟨approved, -, hd⟩ := hstep
        cases hd
        exact .bake hphase
      next => cases hstep
  | finish =>
      simp only [step, finishReferendum] at hstep
      split at hstep
      next hphase =>
        cases hstep
        exact .finish hphase
      next => cases hstep
  | close =>
      simp only [step, closeBlock] at hstep
      split at hstep
      next =>
        cases hstep
        exact .close
      next => cases hstep

end Blocks

end Democracy
end Composable
