import Composable.Democracy.Effect

/-!
# `Democracy.Locks` — conviction locks

What a winning vote or a delegation that has ended obliges an account to keep locked is remembered
in one of two places: the vote is still recorded, or it went into the prior lock of the account.
`Owes` says so, and it carries over from call to call until the lock is over (`Moves.owes`). The
lock itself is at least what is remembered (`Within`); it is recomputed only by `unlock`.

Both fail in one case each. An account that delegates anew drops what its last delegation obliges
it to: `try_delegate` keeps the prior lock but does not accumulate the delegation into it, as
`try_undelegate` does. And while an account delegates, `locked_balance` counts the delegation
alone, not the prior lock, so that `unlock` lowers the lock. A vote whose lock is refused is
recorded without the lock. `Honours` leaves these steps out, and those whose block arithmetic wraps
around (`conviction_locks_kept`).
-/

namespace Composable
namespace Democracy

open SortedVec

variable {A X H : Type} [DecidableEq A] [DecidableEq X]

/-! ## What is locked -/

/-- The balance of a delegation. -/
def Voting.delegated : Voting A → Nat
  | .direct .. => 0
  | .delegating balance .. => balance

/-- The lock `n` covers every vote, the prior lock and the delegation. -/
structure Voting.Within (max : Nat) (v : Voting A) (n : Nat) : Prop where
  votes : ∀ w ∈ v.votes, w.2.balance max ≤ n
  prior : v.prior.amount ≤ n
  delegated : v.delegated ≤ n

section Within

variable {max n n' : Nat} {v : Voting A}

omit [DecidableEq A]

theorem Voting.Within.setDelegations (h : v.Within max n) (d : Delegations) :
    (v.setDelegations d).Within max n := by
  cases v <;> exact ⟨h.votes, h.prior, h.delegated⟩

theorem PriorLock.amount_rejig_le (p : PriorLock) (now : Nat) : (p.rejig now).amount ≤ p.amount := by
  unfold PriorLock.rejig
  split
  · exact Nat.zero_le _
  · exact Nat.le_refl _

theorem Voting.Within.rejig (h : v.Within max n) (now : Nat) : (v.rejig now).Within max n := by
  cases v <;> exact ⟨h.votes, (PriorLock.amount_rejig_le _ now).trans h.prior, h.delegated⟩

theorem foldl_max_le (max : Nat) (votes : List (Nat × AccountVote)) (init : Nat) :
    init ≤ votes.foldl (fun a v => Nat.max a (v.2.balance max)) init ∧
      ∀ w ∈ votes, w.2.balance max ≤ votes.foldl (fun a v => Nat.max a (v.2.balance max)) init := by
  induction votes generalizing init with
  | nil => exact ⟨Nat.le_refl _, nofun⟩
  | cons v rest ih =>
      obtain ⟨hinit, hrest⟩ := ih (Nat.max init (v.2.balance max))
      refine ⟨(Nat.le_max_left _ _).trans hinit, fun w hw => ?_⟩
      rcases List.mem_cons.mp hw with rfl | hw
      · exact (Nat.le_max_right _ _).trans hinit
      · exact hrest w hw

/-- Whether the prior lock counts when the lock is recomputed: not while the account delegates. -/
def Voting.covers (now : Nat) : Voting A → Bool
  | .direct .. => true
  | .delegating balance _ _ _ prior => decide ((prior.rejig now).amount ≤ balance)

/-- **The recomputed lock** covers everything, if the prior lock of a
    delegation does not exceed it. -/
theorem Voting.within_lockedBalance {now : Nat} (h : v.covers now = true) :
    (v.rejig now).Within max ((v.rejig now).lockedBalance max) := by
  cases v with
  | direct votes delegations prior =>
      obtain ⟨hprior, hvotes⟩ := foldl_max_le max votes (prior.rejig now).amount
      exact ⟨hvotes, hprior, Nat.zero_le _⟩
  | delegating balance target conviction delegations prior =>
      exact ⟨nofun, of_decide_eq_true h, Nat.le_refl _⟩

end Within

/-! ## One account -/

variable (cfg : Config A X)

/-- The prior lock once a vote on this referendum is removed. -/
def settledBy (now : Nat) (vote : AccountVote) (prior : PriorLock) :
    Option (ReferendumInfo X H) → PriorLock
  | some (.finished approved end_) => settledPrior cfg now vote approved end_ prior
  | _ => prior

/-- The end of the lock that a winning vote takes does not wrap around. -/
def endFits (vote : AccountVote) : Option (ReferendumInfo X H) → Bool
  | some (.finished approved end_) =>
      match vote.lockedIf approved with
      | some (lockPeriods, _) =>
          decide (end_ + cfg.voteLockingPeriod * lockPeriods < cfg.blockNumbers)
      | none => true
  | _ => true

/-- How the record and the lock of an account in an asset change in a call. -/
inductive Moves (now : Nat) (infos : Nat → Option (ReferendumInfo X H)) :
    Voting A → Nat → Voting A → Nat → Prop where
  | stays {v d n} : Moves now infos v n (v.setDelegations d) n
  | votes {votes votes' delegations prior r vote n} (hunfinished : ∀ approved end_,
      infos r ≠ some (.finished approved end_))
      (hmem : ∀ w, w ∈ votes' ↔ w = (r, vote) ∨ (w ∈ votes ∧ w.1 ≠ r)) :
      Moves now infos (.direct votes delegations prior) n (.direct votes' delegations prior)
        (max n (vote.balance cfg.balanceMax))
  | removes {votes votes' delegations prior r vote n} (hsorted : Sorted Prod.fst votes)
      (hvote : (r, vote) ∈ votes)
      (hmem : ∀ w, w ∈ votes' ↔ w ∈ votes ∧ w.1 ≠ r) (hfits : endFits cfg vote (infos r) = true) :
      Moves now infos (.direct votes delegations prior) n
        (.direct votes' delegations (settledBy cfg now vote prior (infos r))) n
  | delegates {v balance target conviction delegations prior n} (hvotes : v.votes = [])
      (hprior : v.prior = prior) :
      Moves now infos v n (.delegating balance target conviction delegations prior) (max n balance)
  | undelegates {balance target conviction delegations prior n till} :
      Moves now infos (.delegating balance target conviction delegations prior) n
        (.direct [] delegations (prior.accumulate till balance)) n
  | unlocks {v n} (hcovers : v.covers now = true) :
      Moves now infos v n (v.rejig now) ((v.rejig now).lockedBalance cfg.balanceMax)
  | rejigs {v n} : Moves now infos v n (v.rejig now) n

/-- An account owes a lock of `amount` until `till`: for a vote on a finished referendum that is
    still recorded, or for its prior lock. -/
def Voting.Owes (infos : Nat → Option (ReferendumInfo X H)) (v : Voting A) (till amount : Nat) :
    Prop :=
  (∃ r vote balance end_, (r, AccountVote.standard vote balance) ∈ v.votes ∧
    infos r = some (.finished vote.aye end_) ∧
    till ≤ end_ + cfg.voteLockingPeriod * vote.conviction.lockPeriods ∧ amount ≤ balance) ∨
  (till ≤ v.prior.till ∧ amount ≤ v.prior.amount)

section Moves

variable {cfg} {now n n' till amount : Nat} {infos infos' : Nat → Option (ReferendumInfo X H)}
  {v v' : Voting A}
variable {vote : AccountVote} {prior : PriorLock}

omit [DecidableEq A] [DecidableEq X]

theorem Voting.Owes.le (h : v.Owes cfg infos till amount) (hwithin : v.Within cfg.balanceMax n) :
    amount ≤ n := by
  rcases h with ⟨r, vote, balance, end_, hvote, -, -, hle⟩ | ⟨-, hle⟩
  · exact hle.trans (hwithin.votes _ hvote)
  · exact hle.trans hwithin.prior

theorem AccountVote.lockedIf_eq_some {approved : Bool} {lockPeriods balance max : Nat}
    (h : vote.lockedIf approved = some (lockPeriods, balance)) : balance = vote.balance max := by
  cases vote with
  | standard vote balance' =>
      simp only [AccountVote.lockedIf, Option.ite_none_right_eq_some, Option.some.injEq,
        Prod.mk.injEq] at h
      exact h.2.2.symm
  | split aye nay => cases h

/-- Settling a vote makes the prior lock no smaller, and no larger than the vote. -/
theorem settledBy_le (cfg : Config A X) (now : Nat) (vote : AccountVote) (prior : PriorLock)
    (info : Option (ReferendumInfo X H)) :
    prior.till ≤ (settledBy cfg now vote prior info).till ∧
      prior.amount ≤ (settledBy cfg now vote prior info).amount ∧
      (settledBy cfg now vote prior info).amount ≤
        max prior.amount (vote.balance cfg.balanceMax) := by
  have hsame : prior.till ≤ prior.till ∧ prior.amount ≤ prior.amount ∧
      prior.amount ≤ max prior.amount (vote.balance cfg.balanceMax) :=
    ⟨Nat.le_refl _, Nat.le_refl _, Nat.le_max_left _ _⟩
  unfold settledBy settledPrior
  split
  next approved end_ =>
    cases hlocked : vote.lockedIf approved with
    | none => exact hsame
    | some locked =>
        obtain ⟨lockPeriods, balance⟩ := locked
        simp only
        split
        · rw [← AccountVote.lockedIf_eq_some hlocked]
          exact ⟨Nat.le_max_left _ _, Nat.le_max_left _ _, Nat.le_refl _⟩
        · exact hsame
  next => exact hsame

/-- The lock of a winning vote that is removed before its end goes into the prior lock. -/
theorem le_settledBy (prior : PriorLock) {vote : Vote} {balance end_ : Nat}
    (hfits : endFits cfg (.standard vote balance)
      (some (.finished vote.aye end_) : Option (ReferendumInfo X H)) = true)
    (hnow : now < end_ + cfg.voteLockingPeriod * vote.conviction.lockPeriods) :
    end_ + cfg.voteLockingPeriod * vote.conviction.lockPeriods ≤
        (settledBy cfg now (.standard vote balance) prior
          (some (.finished vote.aye end_) : Option (ReferendumInfo X H))).till ∧
      balance ≤ (settledBy cfg now (.standard vote balance) prior
        (some (.finished vote.aye end_) : Option (ReferendumInfo X H))).amount := by
  simp only [endFits, AccountVote.lockedIf, if_true, decide_eq_true_eq] at hfits
  have hunlock : cfg.unlockAt end_ vote.conviction.lockPeriods =
      end_ + cfg.voteLockingPeriod * vote.conviction.lockPeriods := Nat.mod_eq_of_lt hfits
  simp only [settledBy, settledPrior, AccountVote.lockedIf, if_true, hunlock, hnow]
  exact ⟨Nat.le_max_right _ _, Nat.le_max_right _ _⟩

/-- **The lock keeps up** with what is remembered. -/
theorem Moves.within (h : Moves cfg now infos v n v' n') (hwithin : v.Within cfg.balanceMax n) :
    v'.Within cfg.balanceMax n' := by
  cases h with
  | stays => exact hwithin.setDelegations _
  | votes hunfinished hmem =>
      refine ⟨fun w hw => ?_, hwithin.prior.trans (Nat.le_max_left _ _), Nat.zero_le _⟩
      rcases (hmem w).mp hw with rfl | ⟨hw, -⟩
      · exact Nat.le_max_right _ _
      · exact (hwithin.votes w hw).trans (Nat.le_max_left _ _)
  | removes hsorted hvote hmem hfits =>
      refine ⟨fun w hw => hwithin.votes w ((hmem w).mp hw).1, ?_, Nat.zero_le _⟩
      exact (settledBy_le ..).2.2.trans (Nat.max_le.mpr ⟨hwithin.prior, hwithin.votes _ hvote⟩)
  | delegates hvotes hprior =>
      refine ⟨nofun, ?_, Nat.le_max_right _ _⟩
      rw [← hprior]
      exact hwithin.prior.trans (Nat.le_max_left _ _)
  | undelegates => exact ⟨nofun, Nat.max_le.mpr ⟨hwithin.prior, hwithin.delegated⟩, Nat.zero_le _⟩
  | unlocks hcovers => exact Voting.within_lockedBalance hcovers
  | rejigs => exact hwithin.rejig now

theorem Voting.Owes.rejig (h : v.Owes cfg infos till amount) (hnow : now < till) :
    (v.rejig now).Owes cfg infos till amount := by
  unfold Voting.Owes at h ⊢
  rw [Voting.votes_rejig, Voting.prior_rejig]
  refine h.imp_right ?_
  rintro ⟨htill, hle⟩
  -- the prior lock is not over yet
  rw [PriorLock.rejig, if_neg (by omega)]
  exact ⟨htill, hle⟩

/-- **What is owed stays remembered** until its end. -/
theorem Moves.owes (h : Moves cfg now infos v n v' n') (hnow : now < till)
    (howes : v.Owes cfg infos till amount) : v'.Owes cfg infos till amount := by
  cases h with
  | stays =>
      unfold Voting.Owes at howes ⊢
      rw [Voting.votes_setDelegations, Voting.prior_setDelegations]
      exact howes
  | votes hunfinished hmem =>
      refine howes.imp_left ?_
      rintro ⟨r, vote, balance, end_, hvote, hinfo, hrest⟩
      have hne : r ≠ _ := fun heq => hunfinished _ _ (heq ▸ hinfo)
      exact ⟨r, vote, balance, end_, (hmem _).mpr (.inr ⟨hvote, hne⟩), hinfo, hrest⟩
  | removes hsorted hvote' hmem hfits =>
      rename_i votes votes' delegations prior r' vote'
      rcases howes with ⟨r, vote, balance, end_, hvote, hinfo, htill, hle⟩ | ⟨htill, hle⟩
      · by_cases hr : r = r'
        · -- this very vote is removed: it goes into the prior lock
          subst hr
          have hpair : (r, vote') = (r, AccountVote.standard vote balance) :=
            hsorted.inj hvote' hvote rfl
          obtain rfl := (Prod.mk.inj hpair).2
          rw [hinfo] at hfits
          obtain ⟨htill', hle'⟩ := le_settledBy prior hfits (hnow.trans_le htill)
          right
          show till ≤ (settledBy cfg now _ prior (infos r)).till ∧
            amount ≤ (settledBy cfg now _ prior (infos r)).amount
          rw [hinfo]
          exact ⟨htill.trans htill', hle.trans hle'⟩
        · exact .inl ⟨r, vote, balance, end_, (hmem _).mpr ⟨hvote, hr⟩, hinfo, htill, hle⟩
      · obtain ⟨htill', hle', -⟩ := settledBy_le cfg now vote' prior (infos r')
        exact .inr ⟨htill.trans htill', hle.trans hle'⟩
  | delegates hvotes hprior =>
      rcases howes with ⟨r, vote, balance, end_, hvote, -⟩ | howes
      · rw [hvotes] at hvote
        cases hvote
      · rw [hprior] at howes
        exact .inr howes
  | undelegates =>
      rcases howes with ⟨r, vote, balance, end_, hvote, -⟩ | ⟨htill, hle⟩
      · cases hvote
      · exact .inr ⟨htill.trans (Nat.le_max_left _ _), hle.trans (Nat.le_max_left _ _)⟩
  | unlocks hcovers => exact howes.rejig hnow
  | rejigs => exact howes.rejig hnow

/-- Referenda that have finished stay finished. -/
theorem Voting.Owes.mono (howes : v.Owes cfg infos till amount)
    (hinfos : ∀ r approved end_, infos r = some (.finished approved end_) →
      infos' r = some (.finished approved end_)) :
    v.Owes cfg infos' till amount := by
  refine howes.imp_left ?_
  rintro ⟨r, vote, balance, end_, hvote, hinfo, hrest⟩
  exact ⟨r, vote, balance, end_, hvote, hinfos _ _ _ hinfo, hrest⟩

end Moves

/-- The same record, up to the delegations. -/
def Voting.Alike (v v' : Voting A) : Prop := ∃ d, v' = v.setDelegations d

omit [DecidableEq A] in
protected theorem Voting.Alike.refl (v : Voting A) : v.Alike v := by
  refine ⟨v.delegations, ?_⟩
  cases v <;> rfl

omit [DecidableEq A] in
protected theorem Voting.Alike.trans {v v' v'' : Voting A} (h : v.Alike v') (h' : v'.Alike v'') :
    v.Alike v'' := by
  obtain ⟨d, rfl⟩ := h
  obtain ⟨d', rfl⟩ := h'
  refine ⟨d', ?_⟩
  cases v <;> rfl

/-! ## Calls -/

/-- Whether nothing of a delegation stays locked when it ends. -/
def Voting.leavable : Voting A → Bool
  | .direct .. => true
  | .delegating balance _ conviction _ _ =>
      decide (balance = 0 ∨ cfg.voteLockingPeriod * conviction.lockPeriods = 0)

/-- The end of the lock of a delegation that ends now does not wrap around. -/
def Voting.endFits (now : Nat) : Voting A → Bool
  | .direct .. => true
  | .delegating _ _ conviction _ _ =>
      decide (now + cfg.voteLockingPeriod * conviction.lockPeriods < cfg.blockNumbers)

/-- The same for the vote of an account on a referendum. -/
def State.endFits (s : State A X H) (key : A × X) (r : Nat) : Bool :=
  match voteOn r (s.voting key).votes with
  | some vote => Democracy.endFits cfg vote (s.referendumInfoOf r)
  | none => true

/-- The call honours conviction locks: no lock of a vote is refused, nobody delegates anew out of
    a delegation of which something stays locked, and no lock of a delegating account is
    recomputed under its prior lock. -/
def HonoursCall (now : Nat) (s : State A X H) : Extrinsic A X H → Prop
  | .vote origin r vote => ∀ lock ∈ lockAsked cfg s (.vote origin r vote),
      cfg.extendRefused s.ledger s.locks lock.1 lock.2.1 lock.2.2 = none
  | .removeVote (.signed who) asset r => s.endFits cfg (who, asset) r = true
  | .removeOtherVote (.signed _) target asset r => s.endFits cfg (target, asset) r = true
  | .delegate (.signed who) target asset _ balance =>
      who ≠ target → balance ≤ s.ledger.free asset who → (s.voting (who, asset)).leavable cfg = true
  | .undelegate (.signed who) asset => (s.voting (who, asset)).endFits cfg now = true
  | .unlock _ target asset => (s.voting (target, asset)).covers now = true
  | _ => True

section Turns

variable {cfg} {s s' t : State A X H} {now : Nat} {e : Extrinsic A X H}

theorem alike_upstream {delegate : Delegations → Delegations} {change : Tally → Bool → Tally}
    {who : A} {asset : X}
    (key : A × X) : (s.voting key).Alike ((s.upstream delegate change who asset).voting key) := by
  rw [voting_upstream]
  split
  · exact ⟨_, rfl⟩
  · exact .refl _

theorem alike_increased {target : A} {asset : X} {amount : Delegations} (key : A × X) :
    (s.voting key).Alike ((s.increased cfg target asset amount).voting key) :=
  alike_upstream key

theorem alike_reduced {target : A} {asset : X} {amount : Delegations} (key : A × X) :
    (s.voting key).Alike ((s.reduced target asset amount).voting key) :=
  alike_upstream key

theorem Leaves.alike {asset : X} {voting : Voting A} {delegations : Delegations} {prior : PriorLock}
    (h : Leaves cfg s asset voting delegations prior t) (key : A × X) :
    (s.voting key).Alike (t.voting key) := by
  cases h with
  | idle => exact .refl _
  | again => exact alike_upstream key

theorem alike_putVoting_of_ne {key key' : A × X} {voting : Voting A} (h : key' ≠ key) :
    (s.voting key').Alike ((s.putVoting key voting).voting key') := by
  rw [State.voting_putVoting, if_neg h]
  exact .refl _

theorem locks_putLock_self {x : X} {a : A} {n : Nat} : (s.putLock x a n).locks x a = n := by
  rw [State.locks_putLock, if_pos ⟨rfl, rfl⟩]

/-- Only the account whose record is written moves; the delegations of others may change. -/
theorem Moves.put (who : A) (asset : X)
    (hothers : ∀ key, key ≠ (who, asset) → (s.voting key).Alike (s'.voting key))
    (hlocks : ∀ a x, ¬ (x = asset ∧ a = who) → s'.locks x a = s.locks x a)
    (hself : Moves cfg now s.referendumInfoOf (s.voting (who, asset)) (s.locks asset who)
      (s'.voting (who, asset)) (s'.locks asset who)) (a : A) (x : X) :
    Moves cfg now s.referendumInfoOf (s.voting (a, x)) (s.locks x a) (s'.voting (a, x))
      (s'.locks x a) := by
  by_cases h : x = asset ∧ a = who
  · obtain ⟨rfl, rfl⟩ := h
    exact hself
  · have hne : (a, x) ≠ (who, asset) := fun heq => h ⟨(Prod.mk.inj heq).2, (Prod.mk.inj heq).1⟩
    obtain ⟨d, hd⟩ := hothers _ hne
    rw [hd, hlocks a x h]
    exact .stays

/-- Nobody moves. -/
theorem Moves.same (hvotings : ∀ key, (s.voting key).Alike (s'.voting key))
    (hlocks : s'.locks = s.locks) (a : A) (x : X) :
    Moves cfg now s.referendumInfoOf (s.voting (a, x)) (s.locks x a) (s'.voting (a, x))
      (s'.locks x a) := by
  obtain ⟨d, hd⟩ := hvotings (a, x)
  rw [hd, hlocks]
  exact .stays

/-- A record is written, and the locks stay. -/
theorem Moves.record (who : A) (asset : X) {v : Voting A}
    (hvoting : ∀ key, s'.voting key = (s.putVoting (who, asset) v).voting key)
    (hlocks : s'.locks = s.locks)
    (hself : Moves cfg now s.referendumInfoOf (s.voting (who, asset)) (s.locks asset who) v
      (s.locks asset who)) :
    ∀ a x, Moves cfg now s.referendumInfoOf (s.voting (a, x)) (s.locks x a) (s'.voting (a, x))
      (s'.locks x a) := by
  apply Moves.put who asset
  · intro key hne
    rw [hvoting]
    exact alike_putVoting_of_ne hne
  · intro a x _
    rw [hlocks]
  · rw [hvoting, voting_putVoting_self, hlocks]
    exact hself

/-- What the call that removes a vote honours. -/
theorem HonoursCall.endFits {target : A} {asset : X} {r : Nat} (h : HonoursCall cfg now s e)
    (he : e.removes = some (target, asset, r)) : s.endFits cfg (target, asset) r = true := by
  unfold Extrinsic.removes at he
  split at he
  · cases he
    exact h
  · cases he
    exact h
  · cases he

/-- A vote is removed. -/
theorem Moves.erase {target : A} {asset : X} {r i : Nat} {vote : AccountVote}
    {votes : List (Nat × AccountVote)}
    {delegations : Delegations} {prior : PriorLock} {info : Option (ReferendumInfo X H)}
    (hrecorded : Recorded s)
    (h : HonoursCall cfg now s e) (he : e.removes = some (target, asset, r))
    (hvoting : s.voting (target, asset) = .direct votes delegations prior)
    (hi : binarySearchByKey Prod.fst r votes = .ok i) (hvote : votes[i]? = some (r, vote))
    (hinfo : s.referendumInfoOf r = info) :
    Moves cfg now s.referendumInfoOf (s.voting (target, asset)) (s.locks asset target)
      (.direct (votes.eraseIdx i) delegations (settledBy cfg now vote prior info))
        (s.locks asset target) := by
  subst hinfo
  have hsorted := hrecorded.sorted (target, asset)
  have hfits := h.endFits he
  unfold State.endFits at hfits
  rw [hvoting] at hsorted hfits ⊢
  have hmem : (r, vote) ∈ votes := List.mem_of_getElem? hvote
  have hon : voteOn r votes = some vote := (voteOn_eq_some hsorted).mpr hmem
  simp only [Voting.votes, hon] at hfits
  exact .removes hsorted hmem (hsorted.eraseIdx hi).2 hfits

/-- **Every account moves** as it may. -/
theorem Turn.moves (hrecorded : Recorded s) (h : HonoursCall cfg now s e)
    (hturn : Turn cfg now s e s') :
    ∀ a x, Moves cfg now s.referendumInfoOf (s.voting (a, x)) (s.locks x a) (s'.voting (a, x))
      (s'.locks x a) := by
  cases hturn with
  | same => exact .same (fun _ => .refl _) rfl
  | voted hinfo hfunds hvoting hreplace henter haccept =>
      rename_i who r vote status votes votes' delegations prior tally tally'
      have hsorted := hrecorded.sorted (who, status.proposalId.asset)
      rw [hvoting] at hsorted
      obtain ⟨-, hmem, -⟩ := replaceVote_ok hsorted hreplace
      apply Moves.put who status.proposalId.asset
      · intro key hne
        exact alike_putVoting_of_ne hne
      · intro a x hne
        exact if_neg hne
      · rw [hvoting, State.voting_putInfo, State.voting_putLock, voting_putVoting_self,
          State.locks_putInfo, locks_putLock_self]
        exact .votes (by simp [hinfo]) hmem
  | voteRefused hinfo hfunds hvoting hreplace hrefuse =>
      rename_i who r vote status votes votes' delegations prior tally refusal
      -- the lock of an honouring call is not refused
      have hsorted := hrecorded.sorted (who, status.proposalId.asset)
      rw [hvoting] at hsorted
      have htakes : (s.voting (who, status.proposalId.asset)).takesVote cfg r = true :=
        hvoting ▸ takesVote_of_replaceVote hsorted hreplace
      exact absurd (hrefuse.symm.trans (h _ (lockAsked_vote hinfo hfunds htakes))) nofun
  | removedOngoing he hvoting hi hvote hinfo hretract =>
      exact .record _ _ (fun _ => rfl) rfl (.erase hrecorded h he hvoting hi hvote hinfo)
  | removedFinished he hvoting hi hvote hinfo =>
      exact .record _ _ (fun _ => rfl) rfl (.erase hrecorded h he hvoting hi hvote hinfo)
  | removedCancelled he hvoting hi hvote hinfo =>
      exact .record _ _ (fun _ => rfl) rfl (.erase hrecorded h he hvoting hi hvote hinfo)
  | removedNothing he =>
      refine .same (fun key => ?_) rfl
      rw [State.voting_putVoting]
      split
      next hkey =>
        rw [hkey]
        exact .refl _
      next => exact .refl _
  | delegated hne hfunds hleaves haccept =>
      rename_i who target asset conviction balance delegations prior t
      obtain ⟨hvotes, hprior⟩ := hleaves.leaves_votes
      obtain ⟨-, hlocks⟩ := hleaves.untouched
      apply Moves.put who asset
      · intro key hkey
        rw [State.voting_putVoting, if_neg hkey]
        exact (hleaves.alike key).trans (alike_increased key)
      · intro a x hkey
        show (if x = asset ∧ a = who then _ else t.locks x a) = s.locks x a
        rw [if_neg hkey, hlocks]
      · rw [voting_putVoting_self, State.locks_putVoting, locks_putLock_self]
        exact .delegates hvotes hprior
  | delegateRefused hne hfunds hleaves hrefuse =>
      exact .same (fun key => (hleaves.alike key).trans (alike_increased key)) hleaves.untouched.2
  | undelegated hvoting =>
      rename_i who target asset conviction balance delegations prior
      apply Moves.put who asset
      · intro key hkey
        rw [State.voting_putVoting, if_neg hkey]
        exact alike_reduced key
      · intro a x hkey
        rfl
      · rw [voting_putVoting_self, hvoting]
        exact .undelegates
  | unlocked =>
      rename_i origin target asset
      apply Moves.put target asset
      · intro key hkey
        exact alike_putVoting_of_ne hkey
      · intro a x hkey
        exact if_neg hkey
      · rw [State.voting_putLock, voting_putVoting_self, locks_putLock_self]
        exact .unlocks h
  | unlockRefused => exact .record _ _ (fun _ => rfl) rfl .rejigs
  | started => exact .same (fun _ => .refl _) rfl
  | cancelled he => exact .same (fun _ => .refl _) rfl

/-- What has finished stays so, and what has not is not finished by a call. -/
theorem Turn.finished_iff (hrecorded : Recorded s) (hcancel : e.cancels = none)
    (hturn : Turn cfg now s e s') {r end_ : Nat} {approved : Bool} :
    s'.referendumInfoOf r = some (.finished approved end_) ↔
      s.referendumInfoOf r = some (.finished approved end_) := by
  rcases hturn.info hrecorded r with h | ⟨-, hr, status, hstatus⟩ | ⟨hcancels, -⟩
  · constructor
    · intro hfinished
      cases hinfo : s.referendumInfoOf r with
      | none =>
          rw [h.eq_of_not_ongoing (by simp [hinfo]), hinfo] at hfinished
          exact hfinished
      | some info =>
          obtain ⟨f, hf⟩ := h
          cases info with
          | ongoing status => simp [hf, hinfo, mapTally] at hfinished
          | finished approved' end_' =>
              rw [hf, hinfo, mapTally] at hfinished
              · exact hfinished
              · intro _ hongoing
                cases hongoing
    · intro hfinished
      rw [h.eq_of_not_ongoing (by simp [hfinished]), hfinished]
  · -- a referendum that is started is new
    rw [hstatus]
    constructor
    · intro hongoing
      cases hongoing
    · intro hfinished
      have hlt := hrecorded.running r (by simp [hfinished])
      omega
  · rw [hcancel] at hcancels
    cases hcancels

end Turns

/-! ## Blocks -/

/-- The referendum that an operation may cancel. -/
def Op.cancels : Op A X H → Option Nat
  | .call e => e.cancels
  | _ => none

/-- The operation honours conviction locks. No referendum is cancelled, and no
    index of one comes again. -/
def Honours (c : Chain A X H) : Op A X H → Prop
  | .call e =>
      (Op.call e).cancels = none ∧ (e.starts = true → c.pallet.referendumCount + 1 < 2 ^ 32) ∧
        HonoursCall cfg c.now c.pallet e
  | .begin launched => launched.isSome = true → c.pallet.referendumCount + 1 < 2 ^ 32
  | _ => True

/-- The invariant: records fit together, locks cover them, and what is still to be
    finished has not finished. -/
structure Sound (c : Chain A X H) : Prop where
  recorded : Recorded c.pallet
  within : ∀ a x, (c.pallet.voting (a, x)).Within cfg.balanceMax (c.pallet.locks x a)
  nodup : c.phase.pending.Nodup
  pending : ∀ r ∈ c.phase.pending, r < c.pallet.referendumCount ∧
    ∀ approved end_, c.pallet.referendumInfoOf r ≠ some (.finished approved end_)

/-- What a step carries over: time goes on, referenda stay finished, and
    accounts move as they may. -/
structure Follows (c d : Chain A X H) : Prop where
  now : c.now ≤ d.now
  finished : ∀ r approved end_, c.pallet.referendumInfoOf r = some (.finished approved end_) →
    d.pallet.referendumInfoOf r = some (.finished approved end_)
  moves :
    ∀ a x, Moves cfg c.now c.pallet.referendumInfoOf (c.pallet.voting (a, x)) (c.pallet.locks x a)
    (d.pallet.voting (a, x)) (d.pallet.locks x a)

section Blocks

variable {cfg} {c d : Chain A X H} {op : Op A X H}

theorem Sound.genesis (ledger : Ledger A X) : Sound cfg (Chain.genesis ledger : Chain A X H) where
  recorded := ⟨fun _ => .nil, nofun, fun _ hr => absurd rfl hr, nofun⟩
  within _ _ := ⟨nofun, Nat.le_refl _, Nat.le_refl _⟩
  nodup := .nil
  pending := nofun

theorem nodup_maturing {s : State A X H} {n next last : Nat} :
    ((maturingReferendaAtInner s n next last).map Prod.fst).Nodup := by
  rw [List.Nodup, List.pairwise_map, maturingReferendaAtInner, List.pairwise_filterMap]
  refine List.Pairwise.imp (fun hne b hb b' hb' => ?_) List.nodup_range'
  -- What a referendum contributes is listed under its own index.
  split at hb
  · split at hb'
    · obtain rfl := Option.some.inj (Option.ite_none_right_eq_some.mp hb).2
      obtain rfl := Option.some.inj (Option.ite_none_right_eq_some.mp hb').2
      exact hne
    · cases hb'
  · cases hb

/-- Steps at which nobody moves. -/
theorem Follows.of_same (hnow : c.now ≤ d.now) (hvoting : d.pallet.votingOf = c.pallet.votingOf)
    (hlocks : d.pallet.locks = c.pallet.locks)
    (hfinished : ∀ r approved end_, c.pallet.referendumInfoOf r = some (.finished approved end_) →
      d.pallet.referendumInfoOf r = some (.finished approved end_)) : Follows cfg c d := by
  refine ⟨hnow, hfinished, .same (fun key => ?_) hlocks⟩
  rw [State.voting, State.voting, hvoting]
  exact .refl _

theorem Sound.call (h : Sound cfg c) {e : Extrinsic A X H} {s' : State A X H}
    (hcancel : e.cancels = none)
    (hcount : e.starts = true → c.pallet.referendumCount + 1 < 2 ^ 32)
    (hcall : HonoursCall cfg c.now c.pallet e) (hturn : Turn cfg c.now c.pallet e s') :
    Sound cfg { c with pallet := s' } ∧ Follows cfg c { c with pallet := s' } := by
  have hmoves := hturn.moves h.recorded hcall
  refine ⟨⟨h.recorded.turn hcount hturn, fun a x => (hmoves a x).within (h.within a x), h.nodup,
    fun r hr => ?_⟩,
    Nat.le_refl _, fun r approved end_ => (hturn.finished_iff h.recorded hcancel).mpr, hmoves⟩
  obtain ⟨hlt, hunfinished⟩ := h.pending r hr
  refine ⟨hlt.trans_le (hturn.count_le hcount), fun approved end_ hfinished => ?_⟩
  exact hunfinished approved end_ ((hturn.finished_iff h.recorded hcancel).mp hfinished)

theorem unfinished_looping {s : State A X H} {r : Nat} (hr : r ∈ (c.looping s).phase.pending) :
    r < c.pallet.referendumCount ∧ ∀ approved end_,
      s.referendumInfoOf r ≠ some (.finished approved end_) := by
  obtain ⟨hlt, status, hinfo⟩ := pending_looping hr
  exact ⟨hlt, fun approved end_ => by simp [hinfo]⟩

theorem Sound.launch (h : Sound cfg c) (hlt : c.pallet.referendumCount + 1 < 2 ^ 32)
    {end_ delay : Nat} {proposalId : ProposalId X H} {threshold : VoteThreshold} :
    Sound cfg (c.looping (injectReferendum end_ proposalId threshold delay c.pallet)) ∧
      Follows cfg c (c.looping (injectReferendum end_ proposalId threshold delay c.pallet)) := by
  have hnext : (c.pallet.referendumCount + 1) % 2 ^ 32 = c.pallet.referendumCount + 1 :=
    Nat.mod_eq_of_lt hlt
  refine ⟨⟨h.recorded.inject hlt, h.within, nodup_maturing, fun r hr => ?_⟩,
    .of_same (Nat.le_refl _) rfl rfl fun r approved end_ hinfo => ?_⟩
  · obtain ⟨hr, hunfinished⟩ := unfinished_looping hr
    refine ⟨?_, hunfinished⟩
    show r < (c.pallet.referendumCount + 1) % 2 ^ 32
    rw [hnext]
    exact Nat.lt_succ_of_lt hr
  · have hne : r ≠ c.pallet.referendumCount := (h.recorded.running r (by simp [hinfo])).ne
    exact (Function.update_of_ne hne _ _).trans hinfo

/-- The next referendum is finished: it is not among the others, nor has it finished yet. -/
theorem Sound.finish {last index : Nat} {status : ReferendumStatus X H} {approved : Bool}
    {rest : List (Nat × ReferendumStatus X H)} (h : Sound cfg c)
    (hphase : c.phase = .enacting last index status approved rest) :
    Sound cfg { c with
      pallet :=
    c.pallet.putInfo index (some (.finished approved c.now)), phase := .maturing last rest } ∧
    Follows cfg c { c with
      pallet := c.pallet.putInfo index (some (.finished approved c.now)), phase :=
        .maturing last rest } := by
  have hnodup := h.nodup
  have hpending := h.pending
  rw [hphase] at hnodup hpending
  obtain ⟨hindex, hunfinished⟩ := hpending index List.mem_cons_self
  obtain ⟨hnew, hrest⟩ := List.nodup_cons.mp hnodup
  refine ⟨⟨h.recorded.putInfo fun _ => hindex, h.within, hrest, fun r hr => ?_⟩,
    .of_same (Nat.le_refl _) rfl rfl fun r approved' end_ hinfo => ?_⟩
  · have hne : r ≠ index := fun heq => hnew (heq ▸ hr)
    rw [State.info_putInfo, if_neg hne]
    exact hpending r (List.mem_cons_of_mem _ hr)
  · have hne : r ≠ index := fun heq => hunfinished _ _ (heq ▸ hinfo)
    rw [State.info_putInfo, if_neg hne]
    exact hinfo

theorem step_sound [DecidableEq H] (h : Sound cfg c) (hop : Honours cfg c op)
    (hstep : step cfg c op = some d) : Sound cfg d ∧ Follows cfg c d := by
  cases step_advances hstep with
  | call hturn =>
      obtain ⟨hcancel, hcount, hcall⟩ := hop
      exact h.call hcancel hcount hcall hturn
  | elsewhere =>
      refine ⟨⟨h.recorded.of_same rfl rfl rfl, h.within, h.nodup, h.pending⟩, ?_⟩
      exact .of_same (Nat.le_refl _) rfl rfl fun _ _ _ hinfo => hinfo
  | block =>
      exact ⟨⟨h.recorded, h.within, .nil, nofun⟩,
        .of_same (Nat.le_succ _) rfl rfl fun _ _ _ hinfo => hinfo⟩
  | begin =>
      refine ⟨⟨h.recorded, h.within, nodup_maturing, fun r hr => unfinished_looping hr⟩, ?_⟩
      exact .of_same (Nat.le_refl _) rfl rfl fun _ _ _ hinfo => hinfo
  | launch hsome => exact h.launch (hop hsome)
  | bake hphase =>
      have hnodup := h.nodup
      have hpending := h.pending
      rw [hphase] at hnodup hpending
      exact ⟨⟨h.recorded, h.within, hnodup, hpending⟩,
        .of_same (Nat.le_refl _) rfl rfl fun _ _ _ hinfo => hinfo⟩
  | finish hphase => exact h.finish hphase
  | close =>
      refine ⟨⟨h.recorded.of_same rfl rfl rfl, h.within, .nil, nofun⟩, ?_⟩
      exact .of_same (Nat.le_refl _) rfl rfl fun _ _ _ hinfo => hinfo

end Blocks

/-! ## Conviction locks are honoured -/

/-- A step obliges an account to keep `amount` of an asset locked until `till`: the account voted
    with the winning side of a referendum that finishes, or its delegation ends. -/
inductive Obliges [DecidableEq H] (c : Chain A X H) (op : Op A X H) (d : Chain A X H) :
    A → X → Nat → Nat → Prop where
  | won {a r status vote balance end_} (hongoing : c.pallet.referendumInfoOf r =
      some (.ongoing status))
      (hfinished : d.pallet.referendumInfoOf r = some (.finished vote.aye end_))
      (hvote : (r, .standard vote balance) ∈ (d.pallet.voting (a, status.proposalId.asset)).votes) :
      Obliges c op d a status.proposalId.asset balance
        (end_ + cfg.voteLockingPeriod * vote.conviction.lockPeriods)
  | undelegated {a x balance target conviction delegations prior}
      (hop : op = .call (.undelegate (.signed a) x))
      (hvoting : c.pallet.voting (a, x) = .delegating balance target conviction delegations prior)
      (hreturns : extrinsicBody cfg c.now (.undelegate (.signed a) x) c.pallet = (.ok (), d.pallet)) :
      Obliges c op d a x balance (c.now + cfg.voteLockingPeriod * conviction.lockPeriods)
  | delegatedAnew {a x balance target conviction delegations prior target' conviction' balance'}
      (hop : op = .call (.delegate (.signed a) target' x conviction' balance'))
      (hvoting : c.pallet.voting (a, x) = .delegating balance target conviction delegations prior)
      (hreturns : extrinsicBody cfg c.now (.delegate (.signed a) target' x conviction' balance')
        c.pallet = (.ok (), d.pallet)) :
      Obliges c op d a x balance (c.now + cfg.voteLockingPeriod * conviction.lockPeriods)

section Runs

variable [DecidableEq H] {cfg} {c d e : Chain A X H} {op : Op A X H} {a : A} {x : X}
  {amount till : Nat}

/-- `undelegate` puts the delegation into the prior lock. -/
theorem undelegate_ok {s s' : State A X H} {now balance : Nat} {target : A} {conviction : Conviction}
    {delegations : Delegations} {prior : PriorLock}
    (hvoting : s.voting (a, x) = .delegating balance target conviction delegations prior)
    (h : extrinsicBody cfg now (.undelegate (.signed a) x) s = (.ok (), s')) :
    s'.voting (a, x) =
      .direct
        [] delegations (prior.accumulate (cfg.unlockAt now conviction.lockPeriods) balance) := by
  have houtcome : Call.Outcome (fun _ t => t.voting (a, x) =
      .direct [] delegations (prior.accumulate (cfg.unlockAt now conviction.lockPeriods) balance))
      (fun _ _ => True) (extrinsicBody cfg now (.undelegate (.signed a) x) s) := by
    simp only [extrinsicBody, Call.outcome_bind, ensureSigned_outcome, tryUndelegate,
      tryMutateVoting_outcome]
    refine ⟨?_, fun _ => trivial⟩
    rintro a' ⟨⟩
    simp only [hvoting, endDelegation, Call.outcome_bind, reduceUpstreamDelegation]
    refine changeUpstream_outcome fun n => ?_
    exact voting_putVoting_self
  exact (Call.outcome_iff.mp houtcome).1 () s' h

/-- A delegation that returned was not to oneself, and of what there was. -/
theorem delegate_ok {s s' : State A X H} {now balance : Nat} {target : A} {conviction : Conviction}
    (h : extrinsicBody cfg now (.delegate (.signed a) target x conviction balance) s = (.ok (), s')) :
    a ≠ target ∧ balance ≤ s.ledger.free x a := by
  simp only [extrinsicBody, Call.bind_ok, ensureSigned_ok, RawOrigin.signed.injEq] at h
  obtain ⟨a', t, ⟨rfl, rfl⟩, n, t', hdelegate, -⟩ := h
  simp only [tryDelegate, Call.bind_ok, Call.ensure_ok, Call.get_ok] at hdelegate
  obtain ⟨-, _, ⟨hne, rfl⟩, _, _, ⟨rfl, rfl⟩, -, _, ⟨hfunds, rfl⟩, -⟩ := hdelegate
  exact ⟨hne, hfunds⟩

/-- What a step obliges to is remembered after it, or there is nothing to be locked. -/
theorem Obliges.owes (h : Obliges cfg c op d a x amount till) (hop : Honours cfg c op) :
    (d.pallet.voting (a, x)).Owes cfg d.pallet.referendumInfoOf till amount ∨ amount = 0 ∨
      till ≤ c.now := by
  cases h with
  | won hongoing hfinished hvote =>
      exact .inl (.inl ⟨_, _, _, _, hvote, hfinished, Nat.le_refl _, Nat.le_refl _⟩)
  | undelegated heq hvoting hreturns =>
      rename_i balance target conviction delegations prior
      subst heq
      obtain ⟨-, -, hfits⟩ := hop
      replace hfits : (c.pallet.voting (a, x)).endFits cfg c.now = true := hfits
      rw [hvoting] at hfits
      have hunlock : cfg.unlockAt c.now conviction.lockPeriods =
          c.now + cfg.voteLockingPeriod * conviction.lockPeriods :=
            Nat.mod_eq_of_lt (of_decide_eq_true hfits)
      left
      rw [undelegate_ok hvoting hreturns, hunlock]
      exact .inr ⟨Nat.le_max_right _ _, Nat.le_max_right _ _⟩
  | delegatedAnew heq hvoting hreturns =>
      -- nothing of the delegation that is left stays locked
      subst heq
      obtain ⟨-, -, hcall⟩ := hop
      obtain ⟨hne, hfunds⟩ := delegate_ok hreturns
      have hleavable := hcall hne hfunds
      rw [hvoting] at hleavable
      right
      rcases of_decide_eq_true hleavable with hzero | hzero
      · exact .inl hzero
      · right
        rw [hzero, Nat.add_zero]

/-- What is owed stays so along a run. -/
theorem run_owes {ops : List (Op A X H)} (hsound : Sound cfg c)
    (hops : Along (step cfg) (Honours cfg) c ops) (hrun : run (step cfg) c ops = some d) :
    Sound cfg d ∧ c.now ≤ d.now ∧ (d.now < till →
      (c.pallet.voting (a, x)).Owes cfg c.pallet.referendumInfoOf till amount →
      (d.pallet.voting (a, x)).Owes cfg d.pallet.referendumInfoOf till amount) := by
  have hrelated := run_related (C := Honours cfg) (I := Sound cfg)
    (R := fun c d : Chain A X H => c.now ≤ d.now ∧ (d.now < till →
      (c.pallet.voting (a, x)).Owes cfg c.pallet.referendumInfoOf till amount →
      (d.pallet.voting (a, x)).Owes cfg d.pallet.referendumInfoOf till amount))
    (fun c => ⟨Nat.le_refl _, fun _ howes => howes⟩)
    (fun h h' => ⟨h.1.trans h'.1, fun hnow howes => h'.2 hnow (h.2 (h'.1.trans_lt hnow) howes)⟩)
    (fun hs hop hstep => by
      obtain ⟨hsound', hfollows⟩ := step_sound hs hop hstep
      refine ⟨hsound', hfollows.now, fun hnow howes => ?_⟩
      exact ((hfollows.moves a x).owes (hfollows.now.trans_lt hnow) howes).mono hfollows.finished)
    hsound hops hrun
  exact ⟨run_invariant (fun hs hop hstep => (step_sound hs hop hstep).1) hsound hops hrun, hrelated⟩

/-- **Conviction locks are honoured** in every run whose steps all honour them: what a step obliges
    an account to is locked at every later block before its end. -/
theorem conviction_locks_kept {ledger : Ledger A X} {before after : List (Op A X H)}
    (hops : Along (step cfg) (Honours cfg) (Chain.genesis ledger) (before ++ op :: after))
    (hbefore : run (step cfg) (Chain.genesis ledger) before = some c) (hstep : step cfg c op = some d)
    (hafter : run (step cfg) d after = some e) (hobliges : Obliges cfg c op d a x amount till)
    (hnow : e.now < till) : amount ≤ e.pallet.locks x a := by
  obtain ⟨hopsBefore, hrest⟩ := along_append.mp hops
  obtain ⟨hop, hopsAfter⟩ := hrest c hbefore
  have hsound : Sound cfg c :=
    run_invariant (fun hs hop hstep => (step_sound hs hop hstep).1) (.genesis ledger)
    hopsBefore hbefore
  obtain ⟨hsound', hfollows⟩ := step_sound hsound hop hstep
  -- After the step the lock is owed, and what is owed is remembered until its time has come.
  obtain ⟨hlast, hle, howes⟩ := run_owes hsound' (hopsAfter d hstep) hafter
  -- It is remembered by the vote, it is nothing, or its time was up by then.
  rcases hobliges.owes hop with hremembered | hzero | htill
  · exact (howes hnow hremembered).le (hlast.within a x)
  · rw [hzero]
    exact Nat.zero_le _
  · have hnow' := hfollows.now
    omega

end Runs

/-! ## A vote that wins, and a delegation that is forgotten -/

instance HonoursCall.decidable (now : Nat) (s : State A X H) :
    (e : Extrinsic A X H) → Decidable (HonoursCall cfg now s e)
  | .vote origin r vote =>
      inferInstanceAs (Decidable (∀ lock ∈ lockAsked cfg s (.vote origin r vote),
        cfg.extendRefused s.ledger s.locks lock.1 lock.2.1 lock.2.2 = none))
  | .removeVote (.signed who) asset r =>
      inferInstanceAs (Decidable (s.endFits cfg (who, asset) r = true))
  | .removeVote .root _ _ => .isTrue trivial
  | .removeVote .none _ _ => .isTrue trivial
  | .removeOtherVote (.signed _) target asset r =>
      inferInstanceAs (Decidable (s.endFits cfg (target, asset) r = true))
  | .removeOtherVote .root _ _ _ => .isTrue trivial
  | .removeOtherVote .none _ _ _ => .isTrue trivial
  | .delegate (.signed who) target asset _ balance =>
      inferInstanceAs (Decidable (who ≠ target → balance ≤ s.ledger.free asset who →
        (s.voting (who, asset)).leavable cfg = true))
  | .delegate .root _ _ _ _ => .isTrue trivial
  | .delegate .none _ _ _ _ => .isTrue trivial
  | .undelegate (.signed who) asset =>
      inferInstanceAs (Decidable ((s.voting (who, asset)).endFits cfg now = true))
  | .undelegate .root _ => .isTrue trivial
  | .undelegate .none _ => .isTrue trivial
  | .unlock _ target asset =>
      inferInstanceAs (Decidable ((s.voting (target, asset)).covers now = true))
  | .start .. => .isTrue trivial
  | .cancelReferendum .. => .isTrue trivial
  | .emergencyCancel .. => .isTrue trivial
  | .blacklist .. => .isTrue trivial

instance Honours.decidable (c : Chain A X H) : (op : Op A X H) → Decidable (Honours cfg c op)
  | .call e =>
      inferInstanceAs (Decidable ((Op.call e).cancels = none ∧
        (e.starts = true → c.pallet.referendumCount + 1 < 2 ^ 32) ∧ HonoursCall cfg c.now c.pallet e))
  | .begin launched =>
      inferInstanceAs (Decidable (launched.isSome = true → c.pallet.referendumCount + 1 < 2 ^ 32))
  | .elsewhere _ => .isTrue trivial
  | .block => .isTrue trivial
  | .bake => .isTrue trivial
  | .finish => .isTrue trivial
  | .close => .isTrue trivial

/-- Account `1` votes with a hundred and the conviction of one lock period on referendum `0`. -/
def voteOps : List (Op Nat Nat Nat) :=
  [.call (.start 1 ⟨7, 0⟩ .simpleMajority 0),
    .call (.vote (.signed 1) 0 (.standard ⟨true, .locked1x⟩ 100)), .block,
    .begin none, .bake]

/-- It has won, removes its vote, and somebody has its lock recomputed. -/
def wonOps : List (Op Nat Nat Nat) :=
  [.close, .call (.removeVote (.signed 1) 0 0), .call (.unlock (.signed 3) 1 0)]

/-- The hundred stay locked until block `3`. -/
theorem conviction_locks_kept_sample : ∃ c d e, run (step sample) sampleGenesis voteOps = some c ∧
    step sample c .finish = some d ∧ run (step sample) d wonOps = some e ∧ e.now = 1 ∧
      100 ≤ e.pallet.locks 0 1 := by
  have hc : (run (step sample) sampleGenesis voteOps).map (fun c => c.pallet.referendumInfoOf 0) =
      some (some (.ongoing ⟨1, ⟨7, 0⟩, .simpleMajority, 0, ⟨100, 0, 100⟩⟩)) := by
    decide +kernel
  obtain ⟨c, hc, hongoing⟩ := Option.map_eq_some_iff.mp hc
  have hd : ((run (step sample) sampleGenesis voteOps).bind fun c => step sample c .finish).map
      (fun d => (d.pallet.referendumInfoOf 0, (d.pallet.voting (1, 0)).votes)) =
        some (some (.finished true 1), [(0, .standard ⟨true, .locked1x⟩ 100)]) := by
    decide +kernel
  rw [hc, Option.bind_some] at hd
  obtain ⟨d, hd, hview⟩ := Option.map_eq_some_iff.mp hd
  obtain ⟨hfinished, hvotes⟩ := Prod.mk.inj hview
  have he : ((run (step sample) sampleGenesis (voteOps ++ [.finish])).bind fun d =>
    run (step sample) d wonOps).map
      Chain.now = some 1 := by
    decide +kernel
  rw [run_append.mpr ⟨c, hc, run_cons.mpr ⟨d, hd, rfl⟩⟩, Option.bind_some] at he
  obtain ⟨e, he, hnow⟩ := Option.map_eq_some_iff.mp he
  have hvote : (0, AccountVote.standard ⟨true, .locked1x⟩ 100) ∈ (d.pallet.voting (1, 0)).votes := by
    rw [hvotes]
    exact List.mem_singleton_self _
  have hobliges : Obliges sample c .finish d 1 0 100 3 := .won hongoing hfinished hvote
  have hlater : e.now < 3 := by
    rw [hnow]
    decide
  exact ⟨c, d, e, hc, hd, he, hnow,
    conviction_locks_kept (by decide +kernel) hc hd he hobliges hlater⟩

/-- Account `1` delegates a hundred for thirty-two lock periods. -/
def delegateOps : List (Op Nat Nat Nat) := [.call (.delegate (.signed 1) 2 0 .locked6x 100)]

/-- It delegates anew: one, without conviction. -/
def delegateAnew : Extrinsic Nat Nat Nat := .delegate (.signed 1) 2 0 .none 1

/-- The hundred are forgotten, and go when the lock is recomputed. -/
theorem conviction_locks_kept_fails :
    ¬ ∀ (before after : List (Op Nat Nat Nat)) (op : Op Nat Nat Nat) (c d e : Chain Nat Nat Nat) (a x amount till : Nat),
      (∀ o ∈ before ++ op :: after, o.cancels = none) →
        run (step sample) sampleGenesis before = some c →
        step sample c op = some d → run (step sample) d after = some e →
          Obliges sample c op d a x amount till →
          e.now < till → amount ≤ e.pallet.locks x a := by
  intro h
  have hc : (run (step sample) sampleGenesis delegateOps).map
      (fun c => (c.now, c.pallet.voting (1, 0),
        (extrinsicBody sample c.now delegateAnew c.pallet).1.toOption)) =
        some (0, .delegating 100 2 .locked6x .zero .zero, some ()) := by
    decide +kernel
  obtain ⟨c, hc, hview⟩ := Option.map_eq_some_iff.mp hc
  simp only [Prod.mk.injEq] at hview
  obtain ⟨hnow, hvoting, hreturns⟩ := hview
  have hlater : ((run (step sample) sampleGenesis (delegateOps ++ [.call delegateAnew])).bind fun d =>
      run (step sample) d [.call (.unlock (.signed 3) 1 0)]).map
        (fun e => (e.now, e.pallet.locks 0 1)) =
        some (0, 1) := by
    decide +kernel
  obtain ⟨e, he, hview⟩ := Option.map_eq_some_iff.mp hlater
  obtain ⟨d, hd, he⟩ := Option.bind_eq_some_iff.mp he
  obtain ⟨c', hc', hd⟩ := run_append.mp hd
  obtain rfl := Option.some.inj (hc.symm.trans hc')
  obtain ⟨d', hstep, hnil⟩ := run_cons.mp hd
  obtain rfl := Option.some.inj hnil
  have hpallet : d'.pallet = dispatch (extrinsicBody sample c.now delegateAnew) c.pallet := by
    have hdispatch := hstep
    simp only [step, Option.ite_none_right_eq_some, Option.some.injEq] at hdispatch
    rw [← hdispatch.2]
  have hobliges : Obliges sample c (.call delegateAnew) d' 1 0 100 (c.now + 64) := by
    refine .delegatedAnew rfl hvoting ?_
    rw [hpallet]
    exact dispatch_of_toOption hreturns
  obtain ⟨hzero, hlock⟩ := Prod.mk.inj hview
  have hkept :=
    h delegateOps [.call (.unlock (.signed 3) 1 0)] (.call delegateAnew) c d' e 1 0 100 (c.now + 64)
    (by decide) hc hstep he hobliges (by omega)
  rw [hlock] at hkept
  exact absurd hkept (by decide)

end Democracy
end Composable
