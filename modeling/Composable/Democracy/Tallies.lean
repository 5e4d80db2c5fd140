import Composable.Democracy.Effect

/-!
# `Democracy.Tallies` — tallies are sums of votes

The tally of an ongoing referendum is adjusted by votes and by delegations far from it. It equals
what a recount over all records would give, and what an account has delegated to it is what the
accounts that delegate to it have put there (`Exact`).

A tally has three parts, and a vote or a delegation weighs something in each. `Tally.retract` and
`Tally.enter` take a weight out and put it in, as long as nothing is cut off; that it is not follows
from the sums themselves, which fit the balance type. A record is written either with the votes it
had, so that no sum changes, or with a tally that is changed to match (`Counted.write`).

What breaks it is a lock that the currency refuses: `try_vote` has written the vote, and
`try_delegate` the delegations upstream, when `extend_lock` is called, and neither call is
transactional (`tallies_exact`).
-/

namespace Composable
namespace Democracy

open SortedVec

variable {A X H : Type} [DecidableEq A] [DecidableEq X]

/-! ## Parts of a tally -/

inductive Part where
  | ayes
  | nays
  | turnout
deriving DecidableEq, Repr

def Tally.part (t : Tally) : Part → Nat
  | .ayes => t.ayes
  | .nays => t.nays
  | .turnout => t.turnout

/-- What delegations weigh in the tally of a referendum that their target has voted on. -/
def Delegations.part (aye : Bool) (d : Delegations) : Part → Nat
  | .ayes => if aye then d.votes else 0
  | .nays => if aye then 0 else d.votes
  | .turnout => d.capital

/-- What a vote weighs by itself. -/
def AccountVote.part (max : Nat) : AccountVote → Part → Nat
  | .standard vote balance, p => (vote.conviction.votes max balance).part vote.aye p
  | .split aye nay, p =>
      (Conviction.none.votes max aye).part true p + (Conviction.none.votes max nay).part false p

/-- What a vote weighs with the delegations of the voter: they count for standard votes. -/
def AccountVote.weight (max : Nat) (d : Delegations) (v : AccountVote) (p : Part) : Nat :=
  v.part max p + match v.asStandard with
    | some aye => d.part aye p
    | none => 0

section Parts

variable {max n m k : Nat} {t t' : Tally} {v : AccountVote} {d d' : Delegations} {aye : Bool}
  {p : Part}

@[simp] theorem Tally.part_zero : Tally.zero.part p = 0 := by
  cases p <;> rfl

theorem Tally.checkedAdd_eq_some : Tally.checkedAdd max n m = some k ↔ n + m ≤ max ∧ k = n + m := by
  unfold Tally.checkedAdd
  rw [Option.ite_none_right_eq_some, Option.some.injEq, eq_comm (a := n + m)]

theorem Tally.checkedSub_eq_some : Tally.checkedSub n m = some k ↔ m ≤ n ∧ k = n - m := by
  unfold Tally.checkedSub
  rw [Option.ite_none_right_eq_some, Option.some.injEq, eq_comm (a := n - m)]

theorem Tally.add_part (h : t.add max v = some t') : t'.part p = t.part p + v.part max p := by
  cases v with
  | standard vote balance =>
      obtain ⟨aye, conviction⟩ := vote
      cases aye <;>
        simp only [Tally.add, Option.bind_eq_bind, Option.bind_eq_some_iff,
          Tally.checkedAdd_eq_some, if_true, Bool.false_eq_true, if_false, Option.pure_def,
          Option.some.injEq] at h <;>
        obtain ⟨_, ⟨-, rfl⟩, _, ⟨-, rfl⟩, rfl⟩ := h <;>
        cases p <;> simp [Tally.part, AccountVote.part, Delegations.part]
  | split aye nay =>
      simp only [Tally.add, Option.bind_eq_bind, Option.bind_eq_some_iff, Tally.checkedAdd_eq_some,
        Option.pure_def, Option.some.injEq] at h
      obtain ⟨_, ⟨-, rfl⟩, _, ⟨-, rfl⟩, _, ⟨-, rfl⟩, _, ⟨-, rfl⟩, rfl⟩ := h
      cases p <;> simp [Tally.part, AccountVote.part, Delegations.part, Nat.add_assoc]

theorem Tally.remove_part (h : t.remove max v = some t') : t'.part p + v.part max p = t.part p := by
  cases v with
  | standard vote balance =>
      obtain ⟨aye, conviction⟩ := vote
      cases aye <;>
        simp only [Tally.remove, Option.bind_eq_bind, Option.bind_eq_some_iff,
          Tally.checkedSub_eq_some, if_true, Bool.false_eq_true, if_false, Option.pure_def,
          Option.some.injEq] at h <;>
        obtain ⟨_, ⟨hturnout, rfl⟩, _, ⟨hvotes, rfl⟩, rfl⟩ := h <;>
        cases p <;> simp [Tally.part, AccountVote.part, Delegations.part, Nat.sub_add_cancel, *]
  | split aye nay =>
      simp only [Tally.remove, Option.bind_eq_bind, Option.bind_eq_some_iff,
        Tally.checkedSub_eq_some, Option.pure_def, Option.some.injEq] at h
      obtain ⟨_, ⟨haye, rfl⟩, _, ⟨hnay, rfl⟩, _, ⟨hayes, rfl⟩, _, ⟨hnays, rfl⟩, rfl⟩ := h
      cases p <;> simp only [Tally.part, AccountVote.part, Delegations.part, if_true,
        Bool.false_eq_true, if_false] <;> omega

theorem Tally.increase_part (hfits : t.part p + d.part aye p ≤ max) :
    (t.increase max aye d).part p = t.part p + d.part aye p := by
  cases p <;> cases aye <;> simp [Tally.part, Delegations.part, Tally.increase] at hfits ⊢ <;> omega

theorem Tally.reduce_part : (t.reduce aye d).part p = t.part p - d.part aye p := by
  cases p <;> cases aye <;> simp [Tally.part, Delegations.part, Tally.reduce]

/-- **A vote goes in** with its weight. -/
theorem Tally.enter_part (h : t.enter max v d = some t') (hfits : t.part p + v.weight max d p ≤ max) :
    t'.part p = t.part p + v.weight max d p := by
  unfold AccountVote.weight at hfits ⊢
  simp only [Tally.enter, Option.bind_eq_bind, Option.bind_eq_some_iff] at h
  obtain ⟨u, hadd, h⟩ := h
  have hu : u.part p = t.part p + v.part max p := Tally.add_part hadd
  cases hstandard : v.asStandard with
  | none =>
      simp only [hstandard, Option.pure_def, Option.some.injEq] at h hfits ⊢
      rw [← h, hu, Nat.add_zero]
  | some aye =>
      simp only [hstandard, Option.pure_def, Option.some.injEq] at h hfits ⊢
      rw [← h, Tally.increase_part (by omega), hu, Nat.add_assoc]

/-- **A vote goes out** with its weight, if the tally has it. -/
theorem Tally.retract_part (h : t.retract max v d = some t') (hle : v.weight max d p ≤ t.part p) :
    t'.part p + v.weight max d p = t.part p := by
  unfold AccountVote.weight at hle ⊢
  simp only [Tally.retract, Option.bind_eq_bind, Option.bind_eq_some_iff] at h
  obtain ⟨u, hremove, h⟩ := h
  have hu : u.part p + v.part max p = t.part p := Tally.remove_part hremove
  cases hstandard : v.asStandard with
  | none =>
      simp only [hstandard, Option.pure_def, Option.some.injEq] at h hle ⊢
      rw [← h]
      omega
  | some aye =>
      simp only [hstandard, Option.pure_def, Option.some.injEq] at h hle ⊢
      rw [← h, Tally.reduce_part]
      omega

end Parts

/-! ## Recounts -/

/-- What the record of an account weighs in the tally of a referendum. -/
def Voting.weight (max r : Nat) (p : Part) (v : Voting A) : Nat :=
  match voteOn r v.votes with
  | some vote => vote.weight max v.delegations p
  | none => 0

/-- What an account delegates to `a`. -/
def Voting.delegatesTo (max : Nat) (a : A) : Voting A → Delegations
  | .direct .. => .zero
  | .delegating balance target conviction _ _ =>
      if target = a then conviction.votes max balance else .zero

/-- The share of a record in the tally of a referendum on `x`. -/
def ballot (max : Nat) (x : X) (r : Nat) (p : Part) (key : A × X) (v : Voting A) : Nat :=
  if key.2 = x then v.weight max r p else 0

/-- The share of a record in what is delegated to `a` in `x`; `g` is the votes or the capital. -/
def entrusted (max : Nat) (g : Delegations → Nat) (a : A) (x : X) (key : A × X) (v : Voting A) :
    Nat :=
  if key.2 = x then g (v.delegatesTo max a) else 0

/-- The sum of all votes on a referendum that are recorded under `x`. -/
def State.recount (max : Nat) (x : X) (r : Nat) (p : Part) (s : State A X H) : Nat :=
  StorageMap.total (ballot max x r p) s.votingOf

def State.delegated (max : Nat) (g : Delegations → Nat) (a : A) (x : X) (s : State A X H) : Nat :=
  StorageMap.total (entrusted max g a x) s.votingOf

/-- The sum of what the accounts that delegate to `a` in `x` put there. -/
def State.delegatedTo (max : Nat) (a : A) (x : X) (s : State A X H) : Delegations :=
  ⟨s.delegated max Delegations.votes a x, s.delegated max Delegations.capital a x⟩

/-- Tallies of ongoing referenda are recounts, and votes on them are recorded under their asset. -/
structure Counted (max : Nat) (s : State A X H) : Prop where
  tally : ∀ {r status}, s.referendumInfoOf r = some (.ongoing status) →
    ∀ p, status.tally.part p = s.recount max status.proposalId.asset r p
  elsewhere : ∀ {r status}, s.referendumInfoOf r = some (.ongoing status) →
    ∀ {a x vote}, (r, vote) ∈ (s.voting (a, x)).votes → x = status.proposalId.asset

/-- Delegations are recounts too. -/
structure Exact (max : Nat) (s : State A X H) : Prop where
  counted : Counted max s
  delegations : ∀ a x, (s.voting (a, x)).delegations = s.delegatedTo max a x

/-- The sums are balances. -/
structure Fits (max : Nat) (s : State A X H) : Prop where
  tally : ∀ {r status}, s.referendumInfoOf r = some (.ongoing status) →
    ∀ p, s.recount max status.proposalId.asset r p ≤ max
  delegations : ∀ a x, s.delegated max Delegations.votes a x ≤ max ∧
    s.delegated max Delegations.capital a x ≤ max

/-- The two amounts of a delegation. -/
inductive Component : (Delegations → Nat) → Prop where
  | votes : Component Delegations.votes
  | capital : Component Delegations.capital

section Recounts

variable {max r : Nat} {p : Part} {x : X} {a : A} {key : A × X} {v v' : Voting A} {s s' : State A X H}
variable {g : Delegations → Nat} {d m : Delegations}

namespace Component

theorem zero (hg : Component g) : g .zero = 0 := by
  cases hg <;> rfl

theorem add (hg : Component g) : g (d.saturatingAdd max m) = min (g d + g m) max := by
  cases hg <;> rfl

theorem sub (hg : Component g) : g (d.saturatingSub m) = g d - g m := by
  cases hg <;> rfl

end Component

omit [DecidableEq A] in
/-- Records with the same vote and the same delegations. -/
theorem Voting.weight_congr (hvotes : voteOn r v'.votes = voteOn r v.votes)
    (hd : v'.delegations = v.delegations) : v'.weight max r p = v.weight max r p := by
  unfold Voting.weight
  rw [hvotes, hd]

omit [DecidableEq A] in
theorem Voting.weight_of_none (h : voteOn r v.votes = none) : v.weight max r p = 0 := by
  rw [Voting.weight, h]

omit [DecidableEq A] in
theorem Voting.weight_of_some {vote : AccountVote} (h : voteOn r v.votes = some vote) :
    v.weight max r p = vote.weight max v.delegations p := by
  rw [Voting.weight, h]

omit [DecidableEq A] in
theorem ballot_idle : ballot max x r p key (.idle : Voting A) = 0 := by
  unfold ballot
  rw [Voting.weight_of_none rfl, ite_self]

theorem entrusted_direct (hg : Component g) {votes : List (Nat × AccountVote)} {prior : PriorLock} :
    entrusted max g a x key (.direct votes d prior) = 0 := by
  unfold entrusted
  rw [Voting.delegatesTo, hg.zero, ite_self]

/-- What an account delegates is with its target, in the asset. -/
theorem entrusted_delegating (hg : Component g) {who target : A} {asset : X} {balance : Nat}
    {conviction : Conviction} {prior : PriorLock} :
    entrusted max g a x (who, asset) (.delegating balance target conviction d prior) =
      if (a, x) = (target, asset) then g (conviction.votes max balance) else 0 := by
  simp only [entrusted, Voting.delegatesTo, Prod.mk.injEq, eq_comm (a := a), eq_comm (a := x)]
  by_cases hx : asset = x
  · by_cases ha : target = a <;> simp [hx, ha, hg.zero]
  · simp [hx]

/-- **A record is written**: the sum changes by its share. -/
theorem State.recount_insert (key : A × X) (h : s'.votingOf = s.votingOf.insert key v) :
    s'.recount max x r p + ballot max x r p key (s.voting key) =
      s.recount max x r p + ballot max x r p key v := by
  unfold State.recount
  rw [h]
  exact StorageMap.total_insert_getD ballot_idle

theorem State.ballot_le_recount : ballot max x r p key (s.voting key) ≤ s.recount max x r p :=
  StorageMap.getD_le_total ballot_idle

/-- Nobody has voted. -/
theorem State.recount_eq_zero (h : ∀ key, voteOn r (s.voting key).votes = none) :
    s.recount max x r p = 0 := by
  apply StorageMap.total_eq_zero
  intro e he
  have hvoting : s.voting e.1 = e.2 := by
    rw [State.voting, StorageMap.getD, AList.mem_lookup_iff.mpr he, Option.getD_some]
  unfold ballot
  rw [← hvoting, Voting.weight_of_none (h e.1), ite_self]

theorem State.delegated_insert (key : A × X) (hg : Component g)
    (h : s'.votingOf = s.votingOf.insert key v) :
    s'.delegated max g a x + entrusted max g a x key (s.voting key) =
      s.delegated max g a x + entrusted max g a x key v := by
  unfold State.delegated
  rw [h]
  exact StorageMap.total_insert_getD (entrusted_direct hg)

theorem State.entrusted_le_delegated (hg : Component g) :
    entrusted max g a x key (s.voting key) ≤ s.delegated max g a x :=
  StorageMap.getD_le_total (entrusted_direct hg)

theorem State.eq_delegatedTo (h : ∀ g, Component g → g d = s.delegated max g a x) :
    d = s.delegatedTo max a x := by
  rw [State.delegatedTo, ← h _ .votes, ← h _ .capital]

theorem Exact.component (h : Exact max s) (hg : Component g) (a : A) (x : X) :
    g (s.voting (a, x)).delegations = s.delegated max g a x := by
  rw [h.delegations]
  cases hg <;> rfl

theorem Fits.of_same (h : Fits max s) (hvoting : s'.votingOf = s.votingOf)
    (hinfos : s'.referendumInfoOf = s.referendumInfoOf) : Fits max s' := by
  constructor
  · intro r status hinfo p
    rw [hinfos] at hinfo
    rw [State.recount, hvoting]
    exact h.tally hinfo p
  · intro a x
    rw [State.delegated, State.delegated, hvoting]
    exact h.delegations a x

theorem Fits.component (h : Fits max s) (hg : Component g) (a : A) (x : X) :
    s.delegated max g a x ≤ max := by
  cases hg with
  | votes => exact (h.delegations a x).1
  | capital => exact (h.delegations a x).2

end Recounts

/-! ## Writing records -/

section Writing

variable {max r : Nat} {p : Part} {x : X} {a : A} {key : A × X} {v v' : Voting A} {s s' : State A X H}
variable {status status' : ReferendumStatus X H}

/-- The tally of an ongoing referendum has followed the record that is written under `key`. -/
structure Keeps (max : Nat) (s : State A X H) (key : A × X) (v : Voting A) (r : Nat)
    (status' status : ReferendumStatus X H) : Prop where
  ongoing : s.referendumInfoOf r = some (.ongoing status)
  same : status'.proposalId = status.proposalId
  tally : ∀ p, status'.tally.part p + ballot max status.proposalId.asset r p key (s.voting key) =
    status.tally.part p + ballot max status.proposalId.asset r p key v
  elsewhere : ∀ {vote}, (r, vote) ∈ v.votes → key.2 = status.proposalId.asset

omit [DecidableEq A] in
theorem ballot_congr (hvotes : voteOn r v'.votes = voteOn r v.votes)
    (hd : v'.delegations = v.delegations) : ballot max x r p key v' = ballot max x r p key v := by
  unfold ballot
  rw [Voting.weight_congr hvotes hd]

/-- **Tallies stay recounts** when a record is written, if every tally follows. -/
theorem Counted.write (key : A × X) (h : Counted max s)
    (hvoting : s'.votingOf = s.votingOf.insert key v)
    (hkeeps : ∀ r status', s'.referendumInfoOf r = some (.ongoing status') →
      ∃ status, Keeps max s key v r status' status) :
    Counted max s' where
  tally {r status'} hinfo p := by
    obtain ⟨status, hstatus, hsame, htally, -⟩ := hkeeps r status' hinfo
    have hrecount : s'.recount max status.proposalId.asset r p + _ = _ :=
      State.recount_insert key hvoting
    have hold : status.tally.part p = _ := h.tally hstatus p
    have hnew := htally p
    -- the recount and the tally change by the same two shares
    rw [hsame]
    omega
  elsewhere {r status'} hinfo {a x vote} hvote := by
    obtain ⟨status, hstatus, hsame, -, helsewhere⟩ := hkeeps r status' hinfo
    have hput : s'.voting (a, x) = (s.putVoting key v).voting (a, x) := by
      rw [State.voting, hvoting]
      rfl
    rw [hput, State.voting_putVoting] at hvote
    rw [hsame]
    split at hvote
    next hkey =>
      subst hkey
      exact helsewhere hvote
    next => exact h.elsewhere hstatus hvote

theorem State.recount_rewrite (h : s'.votingOf = s.votingOf.insert key v)
    (hvotes : v.votes = (s.voting key).votes)
    (hd : v.delegations = (s.voting key).delegations) :
    s'.recount max x r p = s.recount max x r p := by
  have hinsert : s'.recount max x r p + ballot max x r p key (s.voting key) = _ :=
    State.recount_insert key h
  have hballot : ballot max x r p key v = ballot max x r p key (s.voting key) :=
    ballot_congr (by rw [hvotes]) hd
  rw [hballot] at hinsert
  exact Nat.add_right_cancel hinsert

/-- A record with the same votes and the same delegations. -/
theorem Counted.rewrite (h : Counted max s) (hvotes : v.votes = (s.voting key).votes)
    (hd : v.delegations = (s.voting key).delegations) : Counted max (s.putVoting key v) := by
  apply h.write key (State.votingOf_putVoting ..)
  intro r status hinfo
  refine ⟨status, hinfo, rfl, fun p => ?_, fun {vote} hvote => ?_⟩
  · rw [ballot_congr (by rw [hvotes]) hd]
  · rw [hvotes] at hvote
    exact h.elsewhere hinfo hvote

/-- A record that differs in the vote on one referendum, whose tally follows. -/
theorem Counted.revote {tally : Tally} {who : A} (h : Counted max s)
    (hinfo : s.referendumInfoOf r = some (.ongoing status))
    (hkey : key = (who, status.proposalId.asset)) (hvoting : s'.votingOf = s.votingOf.insert key v)
    (hinfos : s'.referendumInfoOf =
      (s.putInfo r (some (.ongoing { status with tally := tally }))).referendumInfoOf)
    (hd : v.delegations = (s.voting key).delegations)
    (hothers : ∀ r', r' ≠ r → voteOn r' v.votes = voteOn r' (s.voting key).votes)
    (hmem : ∀ r' vote, r' ≠ r → (r', vote) ∈ v.votes → (r', vote) ∈ (s.voting key).votes)
    (htally : ∀ p, tally.part p + (s.voting key).weight max r p =
      status.tally.part p + v.weight max r p) :
    Counted max s' := by
  apply h.write key hvoting
  intro r' status' hinfo'
  rw [hinfos, State.info_putInfo] at hinfo'
  split at hinfo'
  next heq =>
    subst heq
    cases hinfo'
    -- the account votes under the asset of the referendum, so its ballot is what its record weighs
    refine ⟨status, hinfo, rfl, fun p => ?_, fun _ => ?_⟩
    · unfold ballot
      rw [hkey, if_pos rfl, if_pos rfl, ← hkey]
      exact htally p
    · rw [hkey]
  next hne =>
    refine ⟨status', hinfo', rfl, fun p => ?_, fun {vote} hvote => ?_⟩
    · rw [ballot_congr (hothers r' hne) hd]
    · exact h.elsewhere hinfo' (hmem r' vote hne hvote)

/-- A record without the vote on a referendum that is not ongoing. -/
theorem Counted.forget (h : Counted max s)
    (hinfo : ∀ status, s.referendumInfoOf r ≠ some (.ongoing status))
    (hd : v.delegations = (s.voting key).delegations)
    (hothers : ∀ r', r' ≠ r → voteOn r' v.votes = voteOn r' (s.voting key).votes)
    (hmem : ∀ vote, vote ∈ v.votes → vote ∈ (s.voting key).votes) :
    Counted max (s.putVoting key v) := by
  apply h.write key (State.votingOf_putVoting ..)
  intro r' status' hinfo'
  have hne : r' ≠ r := fun heq => hinfo status' (heq ▸ hinfo')
  refine ⟨status', hinfo', rfl, fun p => ?_, fun {vote} hvote => ?_⟩
  · rw [ballot_congr (hothers r' hne) hd]
  · exact h.elsewhere hinfo' (hmem _ hvote)

/-- The same records, and no ongoing referendum that was not there. -/
theorem Counted.of_infos (h : Counted max s) (hvoting : s'.votingOf = s.votingOf)
    (hinfos : ∀ r status, s'.referendumInfoOf r = some (.ongoing status) →
      s.referendumInfoOf r = some (.ongoing status)) : Counted max s' where
  tally {r status} hinfo p := by
    rw [h.tally (hinfos r status hinfo) p, State.recount, State.recount, hvoting]
  elsewhere {r status} hinfo {a x vote} hvote := by
    rw [State.voting, hvoting] at hvote
    exact h.elsewhere (hinfos r status hinfo) hvote

/-- Nobody has voted on a referendum that starts. -/
theorem Counted.inject (h : Counted max s) (hrecorded : Recorded s) {end_ delay : Nat}
    {proposalId : ProposalId X H}
    {threshold : VoteThreshold} :
    Counted max (injectReferendum end_ proposalId threshold delay s) := by
  have hinfos : (injectReferendum end_ proposalId threshold delay s).referendumInfoOf =
      (s.putInfo s.referendumCount
        (some (.ongoing ⟨end_, proposalId, threshold, delay, .zero⟩))).referendumInfoOf := rfl
  have hnone : ∀ key, ∀ v ∈ (s.voting key).votes, v.1 ≠ s.referendumCount :=
    fun key v hv => (hrecorded.counted key v hv).ne
  constructor
  · intro r status hinfo p
    rw [hinfos, State.info_putInfo] at hinfo
    split at hinfo
    next heq =>
      subst heq
      cases hinfo
      -- votes are on referenda that were started before
      rw [Tally.part_zero]
      exact (State.recount_eq_zero fun key => voteOn_eq_none (hnone key)).symm
    next => exact h.tally hinfo p
  · intro r status hinfo a x vote hvote
    rw [hinfos, State.info_putInfo] at hinfo
    split at hinfo
    next heq => exact absurd heq (hnone _ _ hvote)
    next => exact h.elsewhere hinfo hvote

end Writing

/-! ## Writing delegations -/

section Upstream

variable {max r : Nat} {p : Part} {x : X} {a who target : A} {asset : X} {d m : Delegations}
  {aye : Bool}
variable {s : State A X H} {vote : AccountVote} {status status' : ReferendumStatus X H}
variable {delegate : Delegations → Delegations} {change : Tally → Bool → Tally}

theorem AccountVote.weight_of_standard (h : vote.asStandard = some aye) :
    vote.weight max d p = vote.part max p + d.part aye p := by
  rw [AccountVote.weight, h]

theorem AccountVote.weight_of_split (h : vote.asStandard = none) :
    vote.weight max d p = vote.part max p := by
  rw [AccountVote.weight, h, Nat.add_zero]

theorem Delegations.part_le (h : ∀ g, Component g → g m ≤ g d) : m.part aye p ≤ d.part aye p := by
  have hvotes := h _ .votes
  have hcapital := h _ .capital
  cases p <;> cases aye <;> simp [Delegations.part, hvotes, hcapital]

theorem Delegations.sub_part : (d.saturatingSub m).part aye p = d.part aye p - m.part aye p := by
  cases p <;> cases aye <;> simp [Delegations.part, Delegations.saturatingSub]

theorem Delegations.add_part (h : ∀ g, Component g → g d + g m ≤ max) :
    (d.saturatingAdd max m).part aye p = d.part aye p + m.part aye p := by
  have hvotes := h _ .votes
  have hcapital := h _ .capital
  cases p <;> cases aye <;> simp [Delegations.part, Delegations.saturatingAdd, hvotes, hcapital]

omit [DecidableEq X] in
theorem mapTally_eq_ongoing {f : Tally → Tally} {info : Option (ReferendumInfo X H)} :
    mapTally f info = some (.ongoing status') ↔
      ∃ status, info = some (.ongoing status) ∧
        status' = { status with tally := f status.tally } := by
  constructor
  · intro h
    unfold mapTally at h
    split at h
    next status =>
      cases h
      exact ⟨status, rfl, rfl⟩
    next hnot => exact absurd h (hnot status')
  · rintro ⟨status, rfl, rfl⟩
    rfl

/-- The ballot of an account that has voted, whatever is delegated to it. -/
theorem Counted.ballot_vote (h : Counted max s) (hrecorded : Recorded s)
    (hinfo : s.referendumInfoOf r = some (.ongoing status))
    (hvote : voteOn r (s.voting (who, asset)).votes = some vote) {v : Voting A}
    (hv : v.votes = (s.voting (who, asset)).votes) (p : Part) :
    ballot max status.proposalId.asset r p (who, asset) v = vote.weight max v.delegations p := by
  have hasset : asset = status.proposalId.asset :=
    h.elsewhere hinfo ((voteOn_eq_some (hrecorded.sorted _)).mp hvote)
  unfold ballot
  rw [if_pos hasset, Voting.weight_of_some]
  rw [hv]
  exact hvote

/-- **Tallies stay recounts** when delegations change, if those of standard votes follow. -/
theorem Counted.upstream (h : Counted max s) (hrecorded : Recorded s)
    (hchange : ∀ {r status vote aye}, s.referendumInfoOf r = some (.ongoing status) →
      voteOn r (s.voting (who, asset)).votes = some vote → vote.asStandard = some aye →
        ∀ p, (change status.tally aye).part p + (s.voting (who, asset)).delegations.part aye p =
          status.tally.part p + (delegate (s.voting (who, asset)).delegations).part aye p) :
    Counted max (s.upstream delegate change who asset) := by
  apply h.write (who, asset) rfl
  intro r status' hinfo
  rw [info_upstream (hrecorded.sorted _)] at hinfo
  cases hvote : voteOn r (s.voting (who, asset)).votes with
  | none =>
      -- no vote of the account, no change
      rw [hvote] at hinfo
      refine ⟨status', hinfo, rfl, fun p => ?_, fun {vote} hmem => ?_⟩
      · unfold ballot
        rw [Voting.weight_of_none hvote, Voting.weight_of_none]
        rw [Voting.votes_setDelegations]
        exact hvote
      · rw [Voting.votes_setDelegations] at hmem
        exact h.elsewhere hinfo hmem
  | some vote =>
      have hvotes :=
        Voting.votes_setDelegations (s.voting (who, asset))
          (delegate (s.voting (who, asset)).delegations)
      have hasset : ∀ {status}, s.referendumInfoOf r = some (.ongoing status) →
          asset = status.proposalId.asset :=
        fun hstatus => h.elsewhere hstatus ((voteOn_eq_some (hrecorded.sorted _)).mp hvote)
      rw [hvote, adjusted, Option.bind_some] at hinfo
      cases hstandard : vote.asStandard with
      | none =>
          -- delegations do not count for a split vote
          rw [hstandard] at hinfo
          refine ⟨status', hinfo, rfl, fun p => ?_, fun _ => hasset hinfo⟩
          rw [h.ballot_vote hrecorded hinfo hvote rfl, h.ballot_vote hrecorded hinfo hvote hvotes,
            AccountVote.weight_of_split hstandard, AccountVote.weight_of_split hstandard]
      | some aye =>
          rw [hstandard] at hinfo
          obtain ⟨status, hstatus, rfl⟩ := mapTally_eq_ongoing.mp hinfo
          refine ⟨status, hstatus, rfl, fun p => ?_, fun _ => hasset hstatus⟩
          have hfollows := hchange hstatus hvote hstandard p
          rw [h.ballot_vote hrecorded hstatus hvote rfl, h.ballot_vote hrecorded hstatus hvote hvotes,
            AccountVote.weight_of_standard hstandard, AccountVote.weight_of_standard hstandard,
            Voting.delegations_setDelegations]
          simp only
          -- the vote by itself weighs what it did
          omega

/-- **A delegation is taken off** tallies that count it. -/
theorem Counted.reduced (h : Counted max s) (hrecorded : Recorded s)
    (hle : ∀ g, Component g → g m ≤ g (s.voting (target, asset)).delegations) :
    Counted max (s.reduced target asset m) := by
  apply h.upstream hrecorded
  intro r status vote aye hinfo hvote hstandard p
  have hm : m.part aye p ≤ (s.voting (target, asset)).delegations.part aye p :=
    Delegations.part_le hle
  have htally : (s.voting (target, asset)).delegations.part aye p ≤ status.tally.part p := by
    have hballot := h.ballot_vote hrecorded hinfo hvote rfl p
    rw [AccountVote.weight_of_standard hstandard] at hballot
    have hrecount : ballot max status.proposalId.asset r p (target, asset) _ ≤ _ :=
      State.ballot_le_recount (s := s)
    rw [h.tally hinfo]
    omega
  -- neither subtraction is cut off
  rw [Tally.reduce_part, Delegations.sub_part]
  omega

/-- **A delegation is put on** tallies that have room for it. -/
theorem Counted.increased {cfg : Config A X} (h : Counted cfg.balanceMax s) (hrecorded : Recorded s)
    (hroom : ∀ g, Component g → g (s.voting (target, asset)).delegations + g m ≤ cfg.balanceMax)
    (hfits : ∀ {r status}, (s.increased cfg target asset m).referendumInfoOf r =
      some (.ongoing status) →
      ∀ p, (s.increased cfg target asset m).recount cfg.balanceMax status.proposalId.asset r p ≤
        cfg.balanceMax) :
    Counted cfg.balanceMax (s.increased cfg target asset m) := by
  apply h.upstream hrecorded
  intro r status vote aye hinfo hvote hstandard p
  have hadd :
      ((s.voting (target, asset)).delegations.saturatingAdd cfg.balanceMax m).part aye p = _ :=
    Delegations.add_part hroom
  have hinfo' : (s.increased cfg target asset m).referendumInfoOf r =
      some (.ongoing { status with tally := status.tally.increase cfg.balanceMax aye m }) := by
    rw [State.increased, info_upstream (hrecorded.sorted _), hvote, adjusted, Option.bind_some,
      hstandard]
    exact mapTally_eq_ongoing.mpr ⟨status, hinfo, rfl⟩
  -- the recount afterwards has the delegation in it
  have hrecount :
      (s.increased cfg target asset m).recount cfg.balanceMax status.proposalId.asset r p + _ = _ :=
    State.recount_insert (target, asset) rfl
  rw [h.ballot_vote hrecorded hinfo hvote rfl,
    h.ballot_vote hrecorded hinfo hvote (Voting.votes_setDelegations ..),
    AccountVote.weight_of_standard hstandard, AccountVote.weight_of_standard hstandard,
    Voting.delegations_setDelegations, ← h.tally hinfo] at hrecount
  have hbound := hfits hinfo' p
  simp only at hbound
  rw [hadd] at hrecount ⊢
  rw [Tally.increase_part (by omega)]
  omega

end Upstream

/-! ## Delegating elsewhere -/

section Leaving

variable {cfg : Config A X} {x y : X} {a who target : A} {asset : X} {g : Delegations → Nat}
  {m : Delegations}
variable {s t u : State A X H} {v : Voting A} {delegations : Delegations} {prior : PriorLock}

omit [DecidableEq X] in
@[simp] theorem Voting.delegatesTo_setDelegations {max : Nat} {d : Delegations} :
    (v.setDelegations d).delegatesTo max a = v.delegatesTo max a := by
  cases v <;> rfl

theorem State.delegated_upstream {max : Nat} (hg : Component g) {delegate : Delegations → Delegations}
    {change : Tally → Bool → Tally} :
    (s.upstream delegate change target asset).delegated max g a x = s.delegated max g a x := by
  have hinsert : (s.upstream delegate change target asset).delegated max g a x + _ = _ :=
    State.delegated_insert (target, asset) hg rfl
  unfold entrusted at hinsert
  rw [Voting.delegatesTo_setDelegations] at hinsert
  exact Nat.add_right_cancel hinsert

/-- What an account delegates is with its target. -/
theorem Exact.le_delegations (h : Exact cfg.balanceMax s) (hg : Component g) {balance : Nat}
    {conviction : Conviction}
    (hvoting : s.voting (who, asset) = .delegating balance target conviction delegations prior) :
    g (conviction.votes cfg.balanceMax balance) ≤ g (s.voting (target, asset)).delegations := by
  have hle : entrusted cfg.balanceMax g target asset (who, asset) _ ≤ _ :=
    State.entrusted_le_delegated (s := s) hg
  rw [hvoting, entrusted_delegating hg, if_pos rfl] at hle
  rw [h.component hg]
  exact hle

namespace Leaves

/-- The record itself is not touched: nobody delegates to themselves. -/
theorem voting_self (hrecorded : Recorded s)
    (hleaves : Leaves cfg s asset (s.voting (who, asset)) delegations prior t) :
    t.voting (who, asset) = s.voting (who, asset) ∧
      (s.voting (who, asset)).delegations = delegations := by
  generalize hv : s.voting (who, asset) = v at hleaves
  cases hleaves with
  | idle => exact ⟨hv, rfl⟩
  | again =>
      rename_i balance target conviction
      have hne : who ≠ target := hrecorded.apart hv
      refine ⟨?_, rfl⟩
      rw [State.reduced, voting_upstream, if_neg fun heq => hne (Prod.mk.inj heq).1]
      exact hv

theorem delegated (hg : Component g) (hleaves : Leaves cfg s asset v delegations prior t) :
    t.delegated cfg.balanceMax g a x = s.delegated cfg.balanceMax g a x := by
  cases hleaves with
  | idle => rfl
  | again => exact State.delegated_upstream hg

theorem counted (h : Exact cfg.balanceMax s) (hrecorded : Recorded s)
    (hleaves : Leaves cfg s asset (s.voting (who, asset)) delegations prior t) :
    Counted cfg.balanceMax t := by
  generalize hv : s.voting (who, asset) = v at hleaves
  cases hleaves with
  | idle => exact h.counted
  | again => exact h.counted.reduced hrecorded fun g hg => h.le_delegations hg hv

/-- **What was delegated is taken off**, at its target. -/
theorem taken_off (h : Exact cfg.balanceMax s) (hg : Component g)
    (hleaves : Leaves cfg s asset (s.voting (who, asset)) delegations prior t) :
    g (t.voting (a, x)).delegations + entrusted cfg.balanceMax g a x (who, asset)
      (s.voting (who, asset)) =
      g (s.voting (a, x)).delegations := by
  generalize hv : s.voting (who, asset) = v at hleaves
  cases hleaves with
  | idle => rw [entrusted_direct hg, Nat.add_zero]
  | again =>
      rename_i balance target conviction
      have hle := h.le_delegations hg hv
      rw [State.reduced, voting_upstream, entrusted_delegating hg]
      split
      next hkey =>
        rw [hkey, Voting.delegations_setDelegations, hg.sub]
        exact Nat.sub_add_cancel hle
      next => rw [Nat.add_zero]

/-- The sums once the new record is written. -/
theorem delegated_put (h : Exact cfg.balanceMax s) (hrecorded : Recorded s) (hg : Component g)
    (hleaves : Leaves cfg s asset (s.voting (who, asset)) delegations prior t)
    (hu : u.delegated cfg.balanceMax g a x = t.delegated cfg.balanceMax g a x)
    (hself : u.voting (who, asset) = t.voting (who, asset)) :
    (u.putVoting (who, asset) v).delegated cfg.balanceMax g a x =
      g (t.voting (a, x)).delegations + entrusted cfg.balanceMax g a x (who, asset) v := by
  have hinsert : (u.putVoting (who, asset) v).delegated cfg.balanceMax g a x + _ = _ :=
    State.delegated_insert (who, asset) hg (State.votingOf_putVoting ..)
  have hoff := hleaves.taken_off h hg (a := a) (x := x)
  rw [hself, (hleaves.voting_self hrecorded).1, hu, hleaves.delegated hg, ← h.component hg] at hinsert
  omega

/-- **Delegations stay recounts** when a record is written whose delegation is upstream already. -/
theorem delegations_put (h : Exact cfg.balanceMax s) (hrecorded : Recorded s)
    (hleaves : Leaves cfg s asset (s.voting (who, asset)) delegations prior t)
    (hu : ∀ g, Component g → ∀ a x, u.delegated cfg.balanceMax g a x =
      t.delegated cfg.balanceMax g a x)
    (hself : u.voting (who, asset) = t.voting (who, asset)) (hv : v.delegations = delegations)
    (hgain : ∀ g, Component g → ∀ a x, g (u.voting (a, x)).delegations =
      g (t.voting (a, x)).delegations + entrusted cfg.balanceMax g a x (who, asset) v) (a :
        A) (x : X) :
    ((u.putVoting (who, asset) v).voting (a, x)).delegations =
      (u.putVoting (who, asset) v).delegatedTo cfg.balanceMax a x := by
  apply State.eq_delegatedTo
  intro g hg
  have hkept :
      ((u.putVoting (who, asset) v).voting (a, x)).delegations = (u.voting (a, x)).delegations := by
    rw [State.voting_putVoting]
    split
    next hkey =>
      obtain ⟨hvoting, hdelegations⟩ := hleaves.voting_self hrecorded
      rw [hkey, hself, hvoting, hv, hdelegations]
    next => rfl
  rw [hleaves.delegated_put h hrecorded hg (hu g hg a x) hself, hkept]
  exact hgain g hg a x

end Leaves

end Leaving

/-! ## Calls -/

section Turns

variable {cfg : Config A X} {r i : Nat} {p : Part} {who : A} {asset : X} {s s' t : State A X H}
  {v : Voting A}
variable {status : ReferendumStatus X H} {votes votes' : List (Nat × AccountVote)}
  {vote : AccountVote}
variable {delegations : Delegations} {prior : PriorLock} {tally : Tally}

omit [DecidableEq A] [DecidableEq X] in
theorem voteOn_replaced (hsorted : Sorted Prod.fst votes) {tally' : Tally}
    (h : replaceVote cfg r vote votes delegations tally = .ok (votes', tally')) (r' : Nat) :
    voteOn r' votes' = if r' = r then some vote else voteOn r' votes := by
  obtain ⟨hsorted', hmem, -⟩ := replaceVote_ok hsorted h
  split
  next heq =>
    rw [voteOn_eq_some hsorted', heq, hmem]
    exact .inl rfl
  next hne =>
    apply voteOn_congr hsorted hsorted'
    intro w
    rw [hmem]
    constructor
    · rintro (heq | ⟨hw, -⟩)
      · exact absurd (Prod.mk.inj heq).1 hne
      · exact hw
    · exact fun hw => .inr ⟨hw, hne⟩

/-- The tally has what the record of an account weighs in it. -/
theorem Counted.weight_le {max : Nat} (h : Counted max s)
    (hinfo : s.referendumInfoOf r = some (.ongoing status)) (who : A) (p : Part) :
    (s.voting (who, status.proposalId.asset)).weight max r p ≤ status.tally.part p := by
  have hle : ballot max status.proposalId.asset r p (who, status.proposalId.asset) _ ≤ _ :=
    State.ballot_le_recount (s := s)
  rw [ballot, if_pos rfl] at hle
  rw [h.tally hinfo]
  exact hle

theorem Recorded.sorted_votes (h : Recorded s)
    (hvoting : s.voting (who, asset) = .direct votes delegations prior) :
    Sorted Prod.fst votes := by
  have hsorted := h.sorted (who, asset)
  rw [hvoting] at hsorted
  exact hsorted

/-- The vote that is replaced is out of the tally. -/
theorem Counted.replaced_part (h : Counted cfg.balanceMax s) (hrecorded : Recorded s)
    (hinfo : s.referendumInfoOf r = some (.ongoing status))
    (hvoting : s.voting (who, status.proposalId.asset) = .direct votes delegations prior)
    (hreplace : replaceVote cfg r vote votes delegations status.tally = .ok (votes', tally))
    (p : Part) :
    tally.part p + (s.voting (who, status.proposalId.asset)).weight cfg.balanceMax r p =
      status.tally.part p := by
  have hle := h.weight_le hinfo who p
  have hsorted : Sorted Prod.fst votes := hrecorded.sorted_votes hvoting
  rw [hvoting] at hle ⊢
  obtain ⟨-, -, hold⟩ := replaceVote_ok hsorted hreplace
  cases hvote : voteOn r votes with
  | none =>
      rw [hvote] at hold
      rw [Voting.weight_of_none hvote, hold, Nat.add_zero]
  | some old =>
      rw [hvote] at hold
      rw [Voting.weight_of_some hvote] at hle ⊢
      exact Tally.retract_part hold hle

/-- Records of which only the votes differ. -/
theorem Exact.delegations_write {max : Nat} (h : Exact max s) {key : A × X}
    (hvoting : s'.votingOf = s.votingOf.insert key v)
    (hd : v.delegations = (s.voting key).delegations)
    (hto : ∀ a, v.delegatesTo max a = (s.voting key).delegatesTo max a) (a : A) (x : X) :
    (s'.voting (a, x)).delegations = s'.delegatedTo max a x := by
  apply State.eq_delegatedTo
  intro g hg
  have hinsert : s'.delegated max g a x + entrusted max g a x key _ = _ :=
    State.delegated_insert key hg hvoting
  have hput : (s'.voting (a, x)).delegations = (s.voting (a, x)).delegations := by
    rw [State.voting, hvoting]
    show ((s.putVoting key v).voting (a, x)).delegations = _
    rw [State.voting_putVoting]
    split
    next hkey => rw [hkey, hd]
    next => rfl
  unfold entrusted at hinsert
  rw [hto] at hinsert
  rw [hput, h.component hg]
  exact (Nat.add_right_cancel hinsert).symm

theorem direct_delegations {key : A × X} {prior' : PriorLock}
    (hvoting : s.voting key = .direct votes delegations prior) :
    (Voting.direct votes' delegations prior' : Voting A).delegations =
      (s.voting key).delegations := by
  rw [hvoting]
  rfl

theorem Exact.delegations_direct {max : Nat} (h : Exact max s) {key : A × X} {prior' : PriorLock}
    (hvoting : s.voting key = .direct votes delegations prior)
    (hvotingOf : s'.votingOf = s.votingOf.insert key (.direct votes' delegations prior'))
    (a : A) (x : X) : (s'.voting (a, x)).delegations = s'.delegatedTo max a x := by
  apply h.delegations_write hvotingOf (direct_delegations hvoting)
  intro a
  rw [hvoting]
  rfl

/-- **A vote** is recorded and counted. -/
theorem Exact.voted (h : Exact cfg.balanceMax s) (hrecorded : Recorded s)
    (hinfo : s.referendumInfoOf r = some (.ongoing status))
    (hvoting : s.voting (who, status.proposalId.asset) = .direct votes delegations prior)
    (hreplace : replaceVote cfg r vote votes delegations status.tally = .ok (votes', tally))
    {tally' : Tally} (henter : tally.enter cfg.balanceMax vote delegations = some tally')
    (hvotingOf : s'.votingOf = s.votingOf.insert (who, status.proposalId.asset)
      (.direct votes' delegations prior))
    (hinfos : s'.referendumInfoOf =
      (s.putInfo r (some (.ongoing { status with tally := tally' }))).referendumInfoOf)
    (hfits : Fits cfg.balanceMax s') : Exact cfg.balanceMax s' := by
  have hsorted : Sorted Prod.fst votes := hrecorded.sorted_votes hvoting
  obtain ⟨-, hmem, -⟩ := replaceVote_ok hsorted hreplace
  have hon := voteOn_replaced hsorted hreplace
  have hweight : ∀ p, (Voting.direct votes' delegations prior : Voting A).weight cfg.balanceMax r p =
      vote.weight cfg.balanceMax delegations p := by
    intro p
    exact Voting.weight_of_some ((hon r).trans (if_pos rfl))
  have hinfo' : s'.referendumInfoOf r = some (.ongoing { status with tally := tally' }) := by
    rw [hinfos, State.info_putInfo, if_pos rfl]
  constructor
  · apply h.counted.revote hinfo rfl hvotingOf hinfos (direct_delegations hvoting)
    · intro r' hne
      rw [hvoting]
      exact (hon r').trans (if_neg hne)
    · intro r' vote' hne hvote'
      rw [hvoting]
      rcases (hmem _).mp hvote' with heq | ⟨hold, -⟩
      · exact absurd (Prod.mk.inj heq).1 hne
      · exact hold
    · intro p
      have hout := h.counted.replaced_part hrecorded hinfo hvoting hreplace p
      -- the recount afterwards bounds what goes in
      have hbound := hfits.tally hinfo' p
      have hrecount : s'.recount cfg.balanceMax status.proposalId.asset r p + _ = _ :=
        State.recount_insert (who, status.proposalId.asset) hvotingOf
      simp only [ballot, if_true] at hrecount hbound
      rw [hweight, ← h.counted.tally hinfo] at hrecount
      rw [hweight, Tally.enter_part henter (by omega)]
      omega
  · exact h.delegations_direct hvoting hvotingOf

/-- **A vote is removed** from an ongoing referendum, and from its tally. -/
theorem Exact.unvoted (h : Exact cfg.balanceMax s) (hrecorded : Recorded s)
    (hvoting : s.voting (who, asset) = .direct votes delegations prior)
    (hi : binarySearchByKey Prod.fst r votes = .ok i) (hvote : votes[i]? = some (r, vote))
    (hinfo : s.referendumInfoOf r = some (.ongoing status))
    (hretract : status.tally.retract cfg.balanceMax vote delegations = some tally) :
    Exact cfg.balanceMax ((s.putInfo r (some (.ongoing { status with tally := tally }))).putVoting
      (who, asset) (.direct (votes.eraseIdx i) delegations prior)) := by
  have hsorted : Sorted Prod.fst votes := hrecorded.sorted_votes hvoting
  have hrest : ∀ r', voteOn r' (votes.eraseIdx i) = if r' = r then none else voteOn r' votes :=
    fun _ => voteOn_eraseIdx hsorted hi
  have hmem : (r, vote) ∈ votes := List.mem_of_getElem? hvote
  -- whatever asset the call names, a vote that it finds is under the asset of the referendum
  have hasset : asset = status.proposalId.asset := by
    apply h.counted.elsewhere hinfo
    rw [hvoting]
    exact hmem
  subst hasset
  constructor
  · refine Counted.revote (v := .direct (votes.eraseIdx i) delegations prior) h.counted hinfo
      rfl rfl rfl
      (direct_delegations hvoting) ?_ ?_ ?_
    · intro r' hne
      rw [hvoting]
      exact (hrest r').trans (if_neg hne)
    · intro r' vote' hne hvote'
      rw [hvoting]
      exact List.mem_of_mem_eraseIdx hvote'
    · intro p
      have hle := h.counted.weight_le hinfo who p
      rw [hvoting, Voting.weight_of_some ((voteOn_eq_some hsorted).mpr hmem)] at hle ⊢
      rw [Voting.weight_of_none ((hrest r).trans (if_pos rfl)), Nat.add_zero]
      exact Tally.retract_part hretract hle
  · exact h.delegations_direct hvoting (State.votingOf_putVoting ..)

/-- A vote is removed from a referendum that has finished or was cancelled. -/
theorem Exact.forgot (h : Exact cfg.balanceMax s) (hrecorded : Recorded s)
    (hvoting : s.voting (who, asset) = .direct votes delegations prior)
    (hi : binarySearchByKey Prod.fst r votes = .ok i)
    (hinfo : ∀ status, s.referendumInfoOf r ≠ some (.ongoing status)) {prior' : PriorLock} :
    Exact cfg.balanceMax
      (s.putVoting (who, asset) (.direct (votes.eraseIdx i) delegations prior')) := by
  have hsorted : Sorted Prod.fst votes := hrecorded.sorted_votes hvoting
  constructor
  · apply h.counted.forget hinfo (direct_delegations hvoting)
    · intro r' hne
      rw [hvoting]
      exact (voteOn_eraseIdx hsorted hi).trans (if_neg hne)
    · intro vote' hvote'
      rw [hvoting]
      exact List.mem_of_mem_eraseIdx hvote'
  · exact h.delegations_direct hvoting (State.votingOf_putVoting ..)

/-- A record with the same votes and delegations. -/
theorem Exact.rewrite {max : Nat} {key : A × X} (h : Exact max s)
    (hvotes : v.votes = (s.voting key).votes) (hd : v.delegations = (s.voting key).delegations)
    (hto : ∀ a, v.delegatesTo max a = (s.voting key).delegatesTo max a) :
    Exact max (s.putVoting key v) :=
  ⟨h.counted.rewrite hvotes hd, h.delegations_write (State.votingOf_putVoting ..) hd hto⟩

theorem Exact.of_infos {max : Nat} (h : Exact max s) (hvoting : s'.votingOf = s.votingOf)
    (hinfos : ∀ r status, s'.referendumInfoOf r = some (.ongoing status) →
      s.referendumInfoOf r = some (.ongoing status)) : Exact max s' := by
  refine ⟨h.counted.of_infos hvoting hinfos, fun a x => ?_⟩
  unfold State.delegatedTo State.delegated
  rw [State.voting, hvoting]
  exact h.delegations a x

theorem Exact.inject {max : Nat} (h : Exact max s) (hrecorded : Recorded s) {end_ delay : Nat}
    {proposalId : ProposalId X H} {threshold : VoteThreshold} :
    Exact max (injectReferendum end_ proposalId threshold delay s) :=
  ⟨h.counted.inject hrecorded, h.delegations⟩

/-- **A delegation ends.** -/
theorem Exact.undelegated (h : Exact cfg.balanceMax s) (hrecorded : Recorded s) {target : A}
    {balance : Nat}
    {conviction : Conviction}
    (hvoting : s.voting (who, asset) = .delegating balance target conviction delegations prior)
    {prior' : PriorLock} :
    Exact cfg.balanceMax
      ((s.reduced target asset (conviction.votes cfg.balanceMax balance)).putVoting (who, asset)
      (.direct [] delegations prior')) := by
  have hleaves : Leaves cfg s asset (s.voting (who, asset)) delegations prior
      (s.reduced target asset (conviction.votes cfg.balanceMax balance)) := by
    rw [hvoting]
    exact .again
  obtain ⟨hself, hdelegations⟩ := hleaves.voting_self hrecorded
  constructor
  · apply (hleaves.counted h hrecorded).rewrite
    · rw [hself, hvoting]
      rfl
    · rw [hself]
      exact hdelegations.symm
  · apply hleaves.delegations_put h hrecorded (fun _ _ _ _ => rfl) rfl rfl
    intro g hg a x
    rw [entrusted_direct hg, Nat.add_zero]

section Delegating

variable {target : A} {balance amount : Nat} {conviction : Conviction}

/-- The target has the delegation on top of what it had. -/
theorem gain_increased {g : Delegations → Nat} {m : Delegations} (hg : Component g)
    (hroom : g (t.voting (target, asset)).delegations + g m ≤ cfg.balanceMax) (a : A) (x : X) :
    g ((t.increased cfg target asset m).voting (a, x)).delegations =
      g (t.voting (a, x)).delegations + if (a, x) = (target, asset) then g m else 0 := by
  rw [State.increased, voting_upstream]
  split
  next hkey =>
    rw [hkey, Voting.delegations_setDelegations, hg.add]
    exact Nat.min_eq_left hroom
  next => rw [Nat.add_zero]

theorem delegated_increased {g : Delegations → Nat} (hg : Component g) {m : Delegations}
    (a : A) (x : X) :
    (t.increased cfg target asset m).delegated cfg.balanceMax g a x =
      t.delegated cfg.balanceMax g a x :=
  State.delegated_upstream hg

/-- Nothing happens to the record of the account that delegates. -/
theorem voting_increased {m : Delegations} (hne : who ≠ target) :
    (t.increased cfg target asset m).voting (who, asset) = t.voting (who, asset) := by
  rw [State.increased, voting_upstream, if_neg fun heq => hne (Prod.mk.inj heq).1]

/-- The sums afterwards bound what is delegated. -/
theorem Leaves.room (h : Exact cfg.balanceMax s) (hrecorded : Recorded s) (hne : who ≠ target)
    (hleaves : Leaves cfg s asset (s.voting (who, asset)) delegations prior t)
    (hfits : Fits cfg.balanceMax
      ((t.increased cfg target asset (conviction.votes cfg.balanceMax balance)).putVoting
      (who, asset) (.delegating balance target conviction delegations prior))) {g : Delegations →
        Nat} (hg : Component g) :
    g (t.voting (target, asset)).delegations + g (conviction.votes cfg.balanceMax balance) ≤
      cfg.balanceMax := by
  have hbound := hfits.component hg target asset
  rw [hleaves.delegated_put h hrecorded hg (delegated_increased hg target asset)
    (voting_increased hne), entrusted_delegating hg, if_pos rfl] at hbound
  exact hbound

/-- **A delegation begins**, or goes to another target. -/
theorem Exact.delegated (h : Exact cfg.balanceMax s) (hrecorded : Recorded s) (hne : who ≠ target)
    (hleaves : Leaves cfg s asset (s.voting (who, asset)) delegations prior t)
    (hfits : Fits cfg.balanceMax
      ((t.increased cfg target asset (conviction.votes cfg.balanceMax balance)).putVoting
      (who, asset) (.delegating balance target conviction delegations prior))) :
    Exact cfg.balanceMax
      ((t.increased cfg target asset (conviction.votes cfg.balanceMax balance)).putVoting
      (who, asset) (.delegating balance target conviction delegations prior)) := by
  obtain ⟨hself, hdelegations⟩ := hleaves.voting_self hrecorded
  have hvoting :
      (t.increased cfg target asset (conviction.votes cfg.balanceMax balance)).voting (who, asset) =
      s.voting (who, asset) := (voting_increased hne).trans hself
  -- the account has no votes, before and after
  have hvotes : (Voting.delegating balance target conviction delegations prior).votes =
      ((t.increased cfg target asset (conviction.votes cfg.balanceMax balance)).voting (who,
        asset)).votes := by
    rw [hvoting, hleaves.leaves_votes.1]
    rfl
  have hd : (Voting.delegating balance target conviction delegations prior).delegations =
      ((t.increased cfg target asset (conviction.votes cfg.balanceMax balance)).voting (who,
        asset)).delegations := by
    rw [hvoting, hdelegations]
    rfl
  have hroom : ∀ g, Component g → g (t.voting (target, asset)).delegations + _ ≤ cfg.balanceMax :=
    fun g hg => hleaves.room h hrecorded hne hfits hg
  constructor
  · refine Counted.rewrite ?_ hvotes hd
    apply (hleaves.counted h hrecorded).increased (hrecorded.leaves hleaves) hroom
    intro r status hinfo p
    rw [← State.recount_rewrite (State.votingOf_putVoting ..) hvotes hd]
    exact hfits.tally hinfo p
  · apply hleaves.delegations_put h hrecorded (fun g hg => delegated_increased hg)
      (voting_increased hne) rfl
    intro g hg a x
    rw [gain_increased hg (hroom g hg), entrusted_delegating hg]

end Delegating

/-- The prior lock does not count. -/
theorem Exact.rejigged {max now : Nat} {key : A × X} (h : Exact max s) :
    Exact max (s.putVoting key ((s.voting key).rejig now)) := by
  apply h.rewrite (Voting.votes_rejig ..)
  · cases s.voting key <;> rfl
  · intro a
    cases s.voting key <;> rfl

/-- A referendum is finished or cancelled. -/
theorem Exact.putInfo {max : Nat} (h : Exact max s) {info : Option (ReferendumInfo X H)}
    (hinfo : ∀ status, info ≠ some (.ongoing status)) : Exact max (s.putInfo r info) := by
  apply h.of_infos (State.votingOf_putInfo ..)
  intro r' status hstatus
  rw [State.info_putInfo] at hstatus
  split at hstatus
  · exact absurd hstatus (hinfo status)
  · exact hstatus

end Turns

/-! ## Runs -/

variable (cfg : Config A X)

/-- The currency does not refuse the lock, and no index of a referendum comes again. -/
def Unrefused (c : Chain A X H) : Op A X H → Prop
  | .call e =>
      (∀ lock ∈ lockAsked cfg c.pallet e,
        cfg.extendRefused c.pallet.ledger c.pallet.locks lock.1 lock.2.1 lock.2.2 = none) ∧
        (e.starts = true → c.pallet.referendumCount + 1 < 2 ^ 32)
  | .begin launched => launched.isSome = true → c.pallet.referendumCount + 1 < 2 ^ 32
  | _ => True

instance Unrefused.decidable (c : Chain A X H) : (op : Op A X H) → Decidable (Unrefused cfg c op)
  | .call e =>
      inferInstanceAs (Decidable ((∀ lock ∈ lockAsked cfg c.pallet e,
        cfg.extendRefused c.pallet.ledger c.pallet.locks lock.1 lock.2.1 lock.2.2 = none) ∧
          (e.starts = true → c.pallet.referendumCount + 1 < 2 ^ 32)))
  | .begin launched =>
      inferInstanceAs (Decidable (launched.isSome = true → c.pallet.referendumCount + 1 < 2 ^ 32))
  | .elsewhere _ => .isTrue trivial
  | .block => .isTrue trivial
  | .bake => .isTrue trivial
  | .finish => .isTrue trivial
  | .close => .isTrue trivial

/-- The invariant: records fit together, sums are exact, and what is still to
    be finished was started. -/
structure Tallied (c : Chain A X H) : Prop where
  recorded : Recorded c.pallet
  exact_sums : Exact cfg.balanceMax c.pallet
  pending : ∀ r ∈ c.phase.pending, r < c.pallet.referendumCount

section Runs

variable {cfg} {c d : Chain A X H} {op : Op A X H} {s s' : State A X H} {e : Extrinsic A X H}
  {now : Nat}

/-- **Sums stay exact** in a call, as long as they fit. -/
theorem Turn.exact_sums (h : Exact cfg.balanceMax s) (hrecorded : Recorded s)
    (hfits : Fits cfg.balanceMax s')
    (hlock : ∀ lock ∈ lockAsked cfg s e,
      cfg.extendRefused s.ledger s.locks lock.1 lock.2.1 lock.2.2 = none)
    (hturn : Turn cfg now s e s') : Exact cfg.balanceMax s' := by
  cases hturn with
  | same => exact h
  | voted hinfo hfunds hvoting hreplace henter haccept =>
      exact h.voted hrecorded hinfo hvoting hreplace henter rfl rfl hfits
  | voteRefused hinfo hfunds hvoting hreplace hrefuse =>
      -- the currency would have refused
      have hasked := lockAsked_vote hinfo hfunds (by
        rw [hvoting]
        exact takesVote_of_replaceVote (hrecorded.sorted_votes hvoting) hreplace)
      exact absurd (hrefuse.symm.trans (hlock _ hasked)) nofun
  | removedOngoing he hvoting hi hvote hinfo hretract =>
      exact h.unvoted hrecorded hvoting hi hvote hinfo hretract
  | removedFinished he hvoting hi hvote hinfo => exact h.forgot hrecorded hvoting hi (by simp [hinfo])
  | removedCancelled he hvoting hi hvote hinfo =>
      exact h.forgot hrecorded hvoting hi (by simp [hinfo])
  | removedNothing he => exact h.rewrite rfl rfl fun _ => rfl
  | delegated hne hfunds hleaves haccept =>
      have hexact := h.delegated hrecorded hne hleaves (hfits.of_same rfl rfl)
      exact hexact.of_infos rfl fun _ _ hinfo => hinfo
  | delegateRefused hne hfunds hleaves hrefuse =>
      rename_i who target asset conviction balance delegations prior t refused
      have hasked : lockAsked cfg s (.delegate (.signed who) target asset conviction balance) = _ :=
        lockAsked_delegate hne hfunds hleaves.leaves_votes.1
      exact absurd (hrefuse.symm.trans (hlock _ hasked)) nofun
  | undelegated hvoting => exact h.undelegated hrecorded hvoting
  | unlocked => exact h.rejigged.of_infos rfl fun _ _ hinfo => hinfo
  | unlockRefused => exact h.rejigged
  | started => exact h.inject hrecorded
  | cancelled he =>
      rename_i r cancellations
      have hsame : Exact cfg.balanceMax { s with cancellations := cancellations } :=
        h.of_infos rfl fun _ _ hinfo => hinfo
      exact hsame.putInfo nofun

theorem Tallied.genesis (ledger : Ledger A X) : Tallied cfg (Chain.genesis ledger : Chain A X H) where
  recorded := ⟨fun _ => .nil, nofun, fun _ hr => absurd rfl hr, nofun⟩
  exact_sums := ⟨⟨nofun, nofun⟩, fun _ _ => rfl⟩
  pending := nofun

theorem Tallied.call (h : Tallied cfg c) {e : Extrinsic A X H} {s' : State A X H}
    (hop : Unrefused cfg c (.call e))
    (hfits : Fits cfg.balanceMax s') (hturn : Turn cfg c.now c.pallet e s') :
    Tallied cfg { c with pallet := s' } := by
  obtain ⟨hlock, hcount⟩ := hop
  constructor
  · exact h.recorded.turn hcount hturn
  · exact hturn.exact_sums h.exact_sums h.recorded hfits hlock
  · intro r hr
    exact (h.pending r hr).trans_le (hturn.count_le hcount)

theorem Tallied.launch (h : Tallied cfg c) (hlt : c.pallet.referendumCount + 1 < 2 ^ 32)
    {end_ delay : Nat} {proposalId : ProposalId X H} {threshold : VoteThreshold} :
    Tallied cfg (c.looping (injectReferendum end_ proposalId threshold delay c.pallet)) := by
  constructor
  · exact h.recorded.inject hlt
  · exact h.exact_sums.inject h.recorded
  · intro r hr
    show r < (c.pallet.referendumCount + 1) % 2 ^ 32
    rw [Nat.mod_eq_of_lt hlt]
    exact Nat.lt_succ_of_lt (pending_looping hr).1

theorem step_tallied [DecidableEq H] (h : Tallied cfg c) (hop : Unrefused cfg c op)
    (hfits : Fits cfg.balanceMax d.pallet) (hstep : step cfg c op = some d) : Tallied cfg d := by
  cases step_advances hstep with
  | call hturn => exact h.call hop hfits hturn
  | elsewhere =>
      refine ⟨h.recorded.of_same rfl rfl rfl, ?_, h.pending⟩
      exact h.exact_sums.of_infos rfl fun _ _ hinfo => hinfo
  | block => exact ⟨h.recorded, h.exact_sums, nofun⟩
  | begin => exact ⟨h.recorded, h.exact_sums, fun r hr => (pending_looping hr).1⟩
  | launch hsome => exact h.launch (hop hsome)
  | bake hphase =>
      have hpending := h.pending
      rw [hphase] at hpending
      exact ⟨h.recorded, h.exact_sums, hpending⟩
  | finish hphase =>
      have hpending := h.pending
      rw [hphase] at hpending
      refine ⟨h.recorded.putInfo fun _ => hpending _ List.mem_cons_self,
        h.exact_sums.putInfo nofun, ?_⟩
      intro r hr
      exact hpending r (List.mem_cons_of_mem _ hr)
  | close =>
      refine ⟨h.recorded.of_same rfl rfl rfl, ?_, nofun⟩
      exact h.exact_sums.of_infos rfl fun _ _ hinfo => hinfo

/-- **Tallies are exact**, and so are delegations, at the end of every run in which the sums fit the
    balance type and no lock is refused that a vote or a delegation asks for. -/
theorem tallies_exact [DecidableEq H] {ledger : Ledger A X} {ops : List (Op A X H)}
    (hops : Along (step cfg) (Unrefused cfg) (Chain.genesis ledger) ops)
    (hfits : Throughout (step cfg) (fun c => Fits cfg.balanceMax c.pallet) (Chain.genesis ledger) ops)
    (hrun : run (step cfg) (Chain.genesis ledger) ops = some c) : Exact cfg.balanceMax c.pallet := by
  have hsteps := hops.and hfits.along
  have htallied : Tallied cfg c := by
    refine run_invariant ?_ (.genesis ledger) hsteps hrun
    intro c op d h hop hstep
    exact step_tallied h hop.1 (hop.2 d hstep) hstep
  exact htallied.exact_sums

end Runs

/-! ## Votes that are counted, and one that is not -/

/-- More than a record weighs in any sum. -/
def Voting.bound (max : Nat) : Voting A → Nat
  | .direct votes delegations _ =>
      (votes.map fun v => v.2.part max .ayes + v.2.part max .nays + v.2.part max .turnout).sum +
        (delegations.votes + delegations.capital)
  | .delegating balance _ conviction _ _ =>
      (conviction.votes max balance).votes + (conviction.votes max balance).capital

def State.bound (max : Nat) (s : State A X H) : Nat :=
  StorageMap.total (fun _ v => v.bound max) s.votingOf

section Bound

variable {max r : Nat} {p : Part} {x : X} {a : A} {key : A × X} {v : Voting A} {s : State A X H}
variable {g : Delegations → Nat}

omit [DecidableEq A] in
theorem Voting.weight_le_bound : v.weight max r p ≤ v.bound max := by
  cases hvote : voteOn r v.votes with
  | none =>
      rw [Voting.weight_of_none hvote]
      exact Nat.zero_le _
  | some vote =>
      cases v with
      | delegating balance target conviction delegations prior => cases hvote
      | direct votes delegations prior =>
          rw [Voting.weight_of_some hvote, Voting.bound]
          have hmem : (r, vote) ∈ votes := mem_of_voteOn hvote
          have hsum := List.single_le_sum (fun _ _ => Nat.zero_le _) _
            (List.mem_map_of_mem (f := fun v => v.2.part max .ayes + v.2.part max .nays +
              v.2.part max .turnout) hmem)
          have hpart : vote.part max p ≤ vote.part max .ayes + vote.part max .nays +
              vote.part max .turnout := by
            cases p <;> omega
          have hdelegations :
              ∀ aye, delegations.part aye p ≤ delegations.votes + delegations.capital := by
            intro aye
            cases p <;> cases aye <;> simp [Delegations.part]
          unfold AccountVote.weight
          split
          next aye haye => exact Nat.add_le_add (hpart.trans hsum) (hdelegations aye)
          next =>
            rw [Nat.add_zero]
            exact (hpart.trans hsum).trans (Nat.le_add_right _ _)

theorem Voting.delegatesTo_le_bound (hg : Component g) : g (v.delegatesTo max a) ≤ v.bound max := by
  cases v with
  | direct votes delegations prior =>
      rw [Voting.delegatesTo, hg.zero]
      exact Nat.zero_le _
  | delegating balance target conviction delegations prior =>
      rw [Voting.delegatesTo, Voting.bound]
      split
      next => cases hg <;> omega
      next =>
        rw [hg.zero]
        exact Nat.zero_le _

/-- All that is recorded together fits, so every sum does. -/
theorem Fits.of_bound (h : s.bound max ≤ max) : Fits max s := by
  have hentrusted : ∀ g, Component g → ∀ a x, s.delegated max g a x ≤ max := by
    intro g hg a x
    refine le_trans (StorageMap.total_le_total fun e _ => ?_) h
    unfold entrusted
    split
    · exact Voting.delegatesTo_le_bound hg
    · exact Nat.zero_le _
  constructor
  · intro r status hinfo p
    refine le_trans (StorageMap.total_le_total fun e _ => ?_) h
    unfold ballot
    split
    · exact Voting.weight_le_bound
    · exact Nat.zero_le _
  · intro a x
    exact ⟨hentrusted _ .votes a x, hentrusted _ .capital a x⟩

end Bound

/-- Account `2` votes with ten and the delegations of account `1`; account `3` votes against, and
    takes its vote back under the wrong asset. -/
def countOps : List (Op Nat Nat Nat) :=
  [.call (.start 5 ⟨7, 0⟩ .simpleMajority 0), .call (.delegate (.signed 1) 2 0 .locked2x 100),
    .call (.vote (.signed 2) 0 (.standard ⟨true, .locked1x⟩ 10)),
    .call (.vote (.signed 3) 0 (.standard ⟨false, .none⟩ 50)), .call (.removeVote (.signed 3) 1 0)]

/-- The tally is the sum of both votes. -/
theorem tallies_exact_sample : ∃ c, run (step sample) sampleGenesis countOps = some c ∧
    c.pallet.referendumInfoOf 0 = some (.ongoing ⟨5, ⟨7, 0⟩, .simpleMajority, 0, ⟨210, 5, 160⟩⟩) ∧
      Exact sample.balanceMax c.pallet := by
  have hc : (run (step sample) sampleGenesis countOps).map (fun c => c.pallet.referendumInfoOf 0) =
      some (some (.ongoing ⟨5, ⟨7, 0⟩, .simpleMajority, 0, ⟨210, 5, 160⟩⟩)) := by
    decide +kernel
  obtain ⟨c, hc, hinfo⟩ := Option.map_eq_some_iff.mp hc
  have hbound : Throughout (step sample) (fun c => c.pallet.bound sample.balanceMax ≤
    sample.balanceMax) sampleGenesis
      countOps := by
    decide +kernel
  exact ⟨c, hc, hinfo, tallies_exact (by decide +kernel) (hbound.imp fun _ => Fits.of_bound) hc⟩

/-- A currency in which account `1` has no room for another lock. -/
def refusing : Config Nat Nat :=
  { sample with
    launchPeriod := 1
    extendRefused := fun _ _ _ who _ => if who = 1 then some (.other "MaxLocksExceeded") else none }

/-- A block starts a referendum, and account `1` votes. -/
def refusedOps : List (Op Nat Nat Nat) :=
  [.block, .begin (some (⟨7, 0⟩, .simpleMajority)), .close,
    .call (.vote (.signed 1) 0 (.standard ⟨true, .locked1x⟩ 100))]

/-- The vote is recorded, and the tally does not have it. -/
theorem tallies_exact_fails :
    ¬ ∀ (ops : List (Op Nat Nat Nat)) (c : Chain Nat Nat Nat),
      Throughout (step refusing) (fun c => Fits refusing.balanceMax c.pallet) sampleGenesis ops →
        run (step refusing) sampleGenesis ops = some c → Exact refusing.balanceMax c.pallet := by
  intro h
  have hc : (run (step refusing) sampleGenesis refusedOps).map (fun c =>
      (c.pallet.referendumInfoOf 0, c.pallet.recount refusing.balanceMax 0 0 .ayes)) =
        some (some (.ongoing ⟨2, ⟨7, 0⟩, .simpleMajority, 2, ⟨0, 0, 0⟩⟩), 100) := by
    decide +kernel
  obtain ⟨c, hc, hview⟩ := Option.map_eq_some_iff.mp hc
  obtain ⟨hinfo, hrecount⟩ := Prod.mk.inj hview
  have hbound :
      Throughout (step refusing) (fun c => c.pallet.bound refusing.balanceMax ≤ refusing.balanceMax)
      sampleGenesis refusedOps := by
    decide +kernel
  have hexact := h refusedOps c (hbound.imp fun _ => Fits.of_bound) hc
  -- no ayes in the tally, a hundred in the records
  have htally := hexact.counted.tally hinfo .ayes
  simp only [hrecount] at htally
  cases htally

end Democracy
end Composable
