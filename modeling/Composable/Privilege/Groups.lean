import Composable.Support.Run
import Composable.Support.SortedVec
import Composable.Support.StorageMap

/-!
# `Privilege.Groups` — privileges of accounts and of groups

Embeds `frame/privilege/src/lib.rs`: accounts hold privileges, which are sets of bits, and groups
hold one too. An account joins a group only while it holds the privilege of the group, and losing a
privilege is meant to take it out of every group that enforces it. Events are left out.

`Sound` is that purpose: members hold the privilege of their group, and member lists are sorted.
Every call keeps it but one. Revoking looks for the groups whose privilege *contains* what is
revoked, and a group that has only some of the revoked bits keeps a member that lost them. So the
groups are sound all along a run exactly when each revocation takes, of the privilege of every group
that the account is in, either bits that the group has or none of its bits (`groups_sound_iff`).
-/

namespace Composable
namespace Privileges

/-! ## Privileges -/

/-- `bitflags!`. -/
structure Privilege where
  bits : BitVec 32
deriving DecidableEq, Repr

namespace Privilege

def empty : Privilege := ⟨0#32⟩

def isEmpty (self : Privilege) : Bool := self.bits == 0#32

def contains (self other : Privilege) : Bool := self.bits &&& other.bits == other.bits

def insert (self other : Privilege) : Privilege := ⟨self.bits ||| other.bits⟩

def remove (self other : Privilege) : Privilege := ⟨self.bits &&& ~~~other.bits⟩

/-- The bit is set. -/
def Has (p : Privilege) (i : Nat) : Prop := p.bits.getLsbD i = true

/-- No bit is set in both. -/
def Apart (p q : Privilege) : Prop := p.bits &&& q.bits = 0#32

instance (p q : Privilege) : Decidable (p.Apart q) := inferInstanceAs (Decidable (_ = _))

variable {p q r : Privilege} {i : Nat}

theorem contains_iff : p.contains q = true ↔ ∀ i, q.Has i → p.Has i := by
  unfold contains Has
  rw [beq_iff_eq]
  constructor
  · intro h i hi
    rw [← h, BitVec.getLsbD_and, Bool.and_eq_true] at hi
    exact hi.1
  · intro h
    apply BitVec.eq_of_getLsbD_eq
    intro i _
    rw [BitVec.getLsbD_and]
    cases hq : q.bits.getLsbD i with
    | false => exact Bool.and_false _
    | true => rw [h i hq, Bool.and_true]

theorem has_insert : (p.insert q).Has i ↔ p.Has i ∨ q.Has i := by
  simp [Has, insert]

theorem has_remove : (p.remove q).Has i ↔ p.Has i ∧ ¬ q.Has i := by
  unfold Has remove
  rw [BitVec.getLsbD_and, BitVec.getLsbD_not, Bool.and_eq_true, Bool.and_eq_true, decide_eq_true_eq,
    Bool.not_eq_true', Bool.not_eq_true]
  exact ⟨fun h => ⟨h.1, h.2.2⟩, fun h => ⟨h.1, BitVec.lt_of_getLsbD h.1, h.2⟩⟩

theorem not_has_of_isEmpty (h : p.isEmpty = true) : ¬ p.Has i := by
  simp only [isEmpty, beq_iff_eq] at h
  simp [Has, h]

theorem apart_iff : p.Apart q ↔ ∀ i, p.Has i → ¬ q.Has i := by
  unfold Apart Has
  constructor
  · intro h i hp hq
    have hboth : (p.bits &&& q.bits).getLsbD i = true := by
      rw [BitVec.getLsbD_and, hp, hq, Bool.and_self]
    rw [h] at hboth
    simp at hboth
  · intro h
    apply BitVec.eq_of_getLsbD_eq
    intro i _
    rw [BitVec.getLsbD_and, BitVec.getLsbD_zero]
    cases hp : p.bits.getLsbD i with
    | false => rfl
    | true => rw [Bool.true_and, Bool.eq_false_iff.mpr (h i hp)]

end Privilege

/-! ## The pallet -/

inductive PrivilegeError where
  | tooManyGroup
  | tooManyMember
  | groupNotFound
  | groupPrivilegeNotHeld
  | notGroupMember
  | alreadyGroupMember
deriving DecidableEq, Repr

structure Config (G : Type) where
  /-- `WrappingNext` of the group ids. -/
  next : G → G
  maxGroup : Nat
  maxMember : Nat

structure State (A G : Type) where
  accountPrivileges : A → Option Privilege
  groupPrivileges : StorageMap G Privilege
  groupMembers : G → Option (List A)
  groupId : G
  groupCount : Nat

abbrev PrivilegeCall (A G : Type) (α : Type) : Type :=
  Call (State A G) (DispatchError PrivilegeError) α

variable {A G : Type} [LinearOrder A] [DecidableEq G] (cfg : Config G)

namespace State

/-- Nobody holds a privilege, and there are no groups. -/
def genesis (start : G) : State A G := ⟨fun _ => none, ∅, fun _ => none, start, 0⟩

/-- `AccountPrivileges::get`. -/
def privileges (s : State A G) (a : A) : Privilege := (s.accountPrivileges a).getD .empty

/-- `GroupMembers::get`. -/
def members (s : State A G) (g : G) : List A := (s.groupMembers g).getD []

def setPrivileges (s : State A G) (a : A) (p : Privilege) : State A G :=
  { s with accountPrivileges := Function.update s.accountPrivileges a (some p) }

def setMembers (s : State A G) (g : G) (members : List A) : State A G :=
  { s with groupMembers := Function.update s.groupMembers g (some members) }

end State

/-! ### Accounts -/

def hasPrivilege (s : State A G) (a : A) (p : Privilege) : Bool :=
  (s.accountPrivileges a).elim false fun held => held.contains p

def promote (a : A) (p : Privilege) : PrivilegeCall A G Unit :=
  Call.modify fun s =>
    s.setPrivileges a (if (s.privileges a).contains p then s.privileges a
      else (s.privileges a).insert p)

/-- `MutatePrivilegeGroup::revoke`. -/
def groupRevoke (g : G) (a : A) : PrivilegeCall A G Unit := do
  let s ← Call.get
  match SortedVec.binarySearchByKey id a (s.members g) with
  | .error _ => Call.fail (.module .notGroupMember)
  | .ok index => Call.modify fun s => s.setMembers g ((s.members g).eraseIdx index)

/-- The groups whose privilege contains `p`. -/
def groupsWith (s : State A G) (p : Privilege) : List G :=
  (s.groupPrivileges.entries.filter fun e => e.2.contains p).map Sigma.fst

/-- `MutatePrivilege::revoke`: the account leaves the groups first, and errors
    of leaving are ignored. -/
def revoke (a : A) (p : Privilege) : PrivilegeCall A G Unit := do
  let s ← Call.get
  if (s.privileges a).isEmpty then Call.modify fun s => s.setPrivileges a (s.privileges a)
  else do
    Call.forEach (groupsWith s p) fun g => Call.orElse (groupRevoke g a) (pure ())
    Call.modify fun s => s.setPrivileges a ((s.privileges a).remove p)

/-! ### Groups -/

/-- `MutatePrivilegeGroup::promote`. -/
def groupPromote (g : G) (a : A) : PrivilegeCall A G Unit := do
  let s ← Call.get
  let privilege ← Call.ofOption (s.groupPrivileges.lookup g) (.module .groupNotFound)
  Call.ensure (hasPrivilege s a privilege = true) (.module .groupPrivilegeNotHeld)
  match SortedVec.binarySearchByKey id a (s.members g) with
  | .ok _ => Call.fail (.module .alreadyGroupMember)
  | .error index => do
      Call.ensure ((s.members g).length < cfg.maxMember) (.module .tooManyMember)
      Call.modify fun s => s.setMembers g ((s.members g).insertIdx index a)

/-- `MutatePrivilegeGroup::create`. The new id is stored only when all members could join, but what
    was written for it until then stays. -/
def create (group : List A) (p : Privilege) : PrivilegeCall A G G := do
  let s ← Call.get
  Call.ensure (s.groupCount < cfg.maxGroup) (.module .tooManyGroup)
  let groupId := cfg.next s.groupId
  Call.modify fun s => { s with groupCount := s.groupCount + 1 }
  Call.modify fun s => { s with groupPrivileges := s.groupPrivileges.insert groupId p }
  Call.modify fun s => s.setMembers groupId []
  Call.forEach group (groupPromote cfg groupId)
  Call.modify fun s => { s with groupId := groupId }
  pure groupId

/-- One less, of 32 bits. There are no overflow checks in a release. -/
def wrappingPred (n : Nat) : Nat := if n = 0 then 2 ^ 32 - 1 else n - 1

/-- `MutatePrivilegeGroup::delete`. The counter is decreased without a check. -/
def delete (g : G) : PrivilegeCall A G Unit := do
  Call.modify fun s => { s with groupCount := wrappingPred s.groupCount }
  Call.modify fun s => { s with groupPrivileges := s.groupPrivileges.erase g }
  Call.modify fun s => { s with groupMembers := Function.update s.groupMembers g none }

/-! ## Runs -/

inductive Op (A G : Type) where
  | promote (a : A) (p : Privilege)
  | revoke (a : A) (p : Privilege)
  | create (group : List A) (p : Privilege)
  | delete (g : G)
  | groupPromote (g : G) (a : A)
  | groupRevoke (g : G) (a : A)
deriving DecidableEq

def step (s : State A G) : Op A G → Option (State A G)
  | .promote a p => some (dispatch (promote a p) s)
  | .revoke a p => some (dispatch (revoke a p) s)
  | .create group p => some (dispatch (create cfg group p) s)
  | .delete g => some (dispatch (delete g) s)
  | .groupPromote g a => some (dispatch (groupPromote cfg g a) s)
  | .groupRevoke g a => some (dispatch (groupRevoke g a) s)

/-- Members hold the privilege of their group, and member lists are sorted, without duplicates. -/
structure Sound (s : State A G) : Prop where
  sorted : ∀ g members, s.groupMembers g = some members → SortedVec.Sorted id members
  held : ∀ g p, s.groupPrivileges.lookup g = some p →
    ∀ a ∈ s.members g, (s.privileges a).contains p = true

/-- A revocation takes bits that the group has, or none of its bits, of every group
    that the account is in. -/
def RevokesWhole (s : State A G) : Op A G → Prop
  | .revoke a r =>
      ∀ g p, s.groupPrivileges.lookup g = some p → a ∈ s.members g → p.contains r = true ∨ p.Apart r
  | _ => True

variable {cfg} {s s' : State A G} {g g' : G} {a b : A} {p r : Privilege}

/-! ## Reading what was written -/

omit [DecidableEq G] in
theorem privileges_setPrivileges :
    (s.setPrivileges a p).privileges b = if b = a then p else s.privileges b := by
  simp only [State.privileges, State.setPrivileges, Function.update_apply]
  split <;> rfl

omit [LinearOrder A] in
theorem members_setMembers {members : List A} :
    (s.setMembers g members).members g' = if g' = g then members else s.members g' := by
  simp only [State.members, State.setMembers, Function.update_apply]
  split <;> rfl

theorem Sound.sorted_members (h : Sound s) (g : G) : SortedVec.Sorted id (s.members g) := by
  unfold State.members
  cases hg : s.groupMembers g with
  | none => exact List.Pairwise.nil
  | some members => exact h.sorted g members hg

omit [LinearOrder A] [DecidableEq G] in
/-- What the account holds is what `has_privilege` looks at. -/
theorem contains_of_hasPrivilege (h : hasPrivilege s a p = true) :
    (s.privileges a).contains p = true := by
  unfold hasPrivilege at h
  unfold State.privileges
  cases ha : s.accountPrivileges a with
  | none => simp [ha] at h
  | some held => simpa [ha] using h

/-! ## Calls that keep the groups sound -/

/-- Member lists change, and nothing else. -/
theorem Sound.setMembers {members : List A} (h : Sound s) (hsorted : SortedVec.Sorted id members)
    (hheld : ∀ p, s.groupPrivileges.lookup g = some p →
      ∀ b ∈ members, (s.privileges b).contains p = true) :
    Sound (s.setMembers g members) := by
  constructor
  · intro g' members' hg'
    simp only [State.setMembers, Function.update_apply] at hg'
    split at hg'
    · rw [← Option.some.inj hg']
      exact hsorted
    · exact h.sorted g' members' hg'
  · intro g' p hp b hb
    rw [members_setMembers] at hb
    split at hb
    next heq => exact hheld p (heq ▸ hp) b hb
    next => exact h.held g' p hp b hb

/-- Privileges of an account change to some that still contain those of its groups. -/
theorem Sound.setPrivileges (h : Sound s)
    (hheld : ∀ g p, s.groupPrivileges.lookup g = some p → a ∈ s.members g → r.contains p = true) :
    Sound (s.setPrivileges a r) := by
  refine ⟨h.sorted, fun g p hp b hb => ?_⟩
  rw [privileges_setPrivileges]
  split
  next heq => exact hheld g p hp (heq ▸ hb)
  next => exact h.held g p hp b hb

/-- Leaving a group: the account is no longer in it, and nothing else changes. -/
theorem groupRevoke_outcome (h : Sound s) :
    Call.Outcome (fun _ s' => ∃ members, s' = s.setMembers g members ∧ SortedVec.Sorted id members ∧
      ∀ b, b ∈ members ↔ b ∈ s.members g ∧ b ≠ a) (fun e s' => s' = s ∧ a ∉ s.members g ∧
        e ≠ .panic) (groupRevoke g a s) := by
  rw [groupRevoke, Call.get_bind]
  cases hsearch : SortedVec.binarySearchByKey id a (s.members g) with
  | error index =>
      refine ⟨rfl, fun ha => ?_, nofun⟩
      exact (h.sorted_members g).key_ne_of_error hsearch ha rfl
  | ok index =>
      obtain ⟨hsorted, hmem⟩ := (h.sorted_members g).eraseIdx hsearch
      exact ⟨_, rfl, hsorted, hmem⟩

theorem Sound.left {members : List A} (h : Sound s) (hsorted : SortedVec.Sorted id members)
    (hmem : ∀ b, b ∈ members ↔ b ∈ s.members g ∧ b ≠ a) : Sound (s.setMembers g members) :=
  h.setMembers hsorted fun p hp b hb => h.held g p hp b ((hmem b).mp hb).1

/-- Joining a group takes its privilege. -/
theorem Sound.groupPromote (h : Sound s) :
    Call.Outcome (fun _ => Sound) (fun e s' => e = .panic ∨ Sound s') (groupPromote cfg g a s) := by
  rw [Privileges.groupPromote, Call.get_bind]
  simp only [Call.outcome_bind, Call.outcome_ofOption, Call.outcome_ensure]
  refine ⟨fun p hp => ⟨fun hprivilege => ?_, fun _ => .inr h⟩, fun _ => .inr h⟩
  cases hsearch : SortedVec.binarySearchByKey id a (s.members g) with
  | ok index => exact .inr h
  | error index =>
      obtain ⟨hsorted, hmem⟩ := (h.sorted_members g).insertIdx (a := a) hsearch
      simp only [Call.outcome_bind, Call.outcome_ensure, Call.outcome_modify]
      refine ⟨fun _ => h.setMembers hsorted fun q hq b hb => ?_, fun _ => .inr h⟩
      rcases (hmem b).mp hb with rfl | hb
      · rw [← Option.some.inj (hp.symm.trans hq)]
        exact contains_of_hasPrivilege hprivilege
      · exact h.held g q hq b hb

/-- A new group starts without members, in place of one with its id that there may have been. -/
theorem Sound.started (h : Sound s) :
    Sound (State.setMembers { s with
      groupCount := s.groupCount + 1
      groupPrivileges := s.groupPrivileges.insert g p } g []) := by
  constructor
  · intro g' members hg'
    simp only [State.setMembers, Function.update_apply] at hg'
    split at hg'
    · rw [← Option.some.inj hg']
      exact List.Pairwise.nil
    · exact h.sorted g' members hg'
  · intro g' q hq b hb
    rw [members_setMembers] at hb
    split at hb
    · cases hb
    next hne =>
      have hold : s.groupPrivileges.lookup g' = some q := by
        rw [← hq]
        exact (AList.lookup_insert_ne hne).symm
      exact h.held g' q hold b hb

theorem Sound.create {group : List A} (h : Sound s) :
    Call.Outcome (fun _ => Sound) (fun e s' => e = .panic ∨ Sound s') (create cfg group p s) := by
  rw [Privileges.create, Call.get_bind]
  simp only [Call.outcome_bind, Call.outcome_ensure, Call.outcome_modify]
  refine ⟨fun _ => ?_, fun _ => .inr h⟩
  have hjoined : Call.Outcome (fun _ => Sound) (fun e s' => e = .panic ∨ Sound s')
      (Call.forEach group (Privileges.groupPromote cfg (cfg.next s.groupId)) _) :=
    Call.outcome_forEach (fun _ _ _ ht => ht.groupPromote)
      (h.started (g := cfg.next s.groupId) (p := p))
  obtain ⟨hok, herror⟩ := Call.outcome_iff.mp hjoined
  refine Call.outcome_iff.mpr ⟨fun u t ht => ?_, herror⟩
  have hsound : Sound t := hok u t ht
  exact ⟨hsound.sorted, hsound.held⟩

/-- Groups that are gone have no members. -/
theorem Sound.delete (h : Sound s) :
    Call.Outcome (fun _ => Sound) (fun e s' => e = .panic ∨ Sound s') (delete g s) := by
  simp only [Privileges.delete, Call.outcome_bind, Call.outcome_modify]
  refine ⟨fun g' members hg' => ?_, fun g' p hp b hb => ?_⟩
  · simp only [Function.update_apply] at hg'
    split at hg'
    · cases hg'
    · exact h.sorted g' members hg'
  · simp only [State.members, Function.update_apply] at hb
    split at hb
    · cases hb
    next hne =>
      rw [AList.lookup_erase_ne hne] at hp
      exact h.held g' p hp b hb

/-! ## Revoking -/

/-- The account has left the listed groups, and nothing else has changed. -/
structure Left (a : A) (gs : List G) (s s' : State A G) : Prop where
  accounts : s'.accountPrivileges = s.accountPrivileges
  groups : s'.groupPrivileges = s.groupPrivileges
  members : ∀ g b, b ∈ s'.members g ↔ b ∈ s.members g ∧ ¬ (g ∈ gs ∧ b = a)

/-- One turn of the loop never fails. -/
theorem leave_group (h : Sound s) (g : G) (a : A) :
    ∃ s', Call.orElse (groupRevoke g a) (pure () : PrivilegeCall A G Unit) s = (.ok (), s') ∧
      Sound s' ∧ Left a [g] s s' := by
  have hrevoke := groupRevoke_outcome (g := g) (a := a) h
  unfold Call.orElse
  rcases hcall : groupRevoke g a s with ⟨e | u, t⟩
  · rw [hcall] at hrevoke
    obtain ⟨rfl, hnot, hpanic⟩ := hrevoke
    refine ⟨t, ?_, h, rfl, rfl, fun g' b => ⟨fun hb => ⟨hb, ?_⟩, And.left⟩⟩
    · cases e with
      | panic => exact absurd rfl hpanic
      | _ => rfl
    · rintro ⟨hg, rfl⟩
      exact hnot (List.mem_singleton.mp hg ▸ hb)
  · rw [hcall] at hrevoke
    obtain ⟨members, rfl, hsorted, hmem⟩ := hrevoke
    refine ⟨_, rfl, h.left hsorted hmem, rfl, rfl, fun g' b => ?_⟩
    rw [members_setMembers, List.mem_singleton]
    split
    next heq => rw [hmem, heq]; simp
    next hne => simp [hne]

theorem leave_groups (h : Sound s) (gs : List G) (a : A) :
    ∃ s',
      Call.forEach gs (fun g => Call.orElse (groupRevoke g a) (pure () : PrivilegeCall A G Unit))
        s = (.ok (), s') ∧
      Sound s' ∧ Left a gs s s' := by
  induction gs generalizing s with
  | nil => exact ⟨s, rfl, h, rfl, rfl, fun g b => by simp⟩
  | cons g gs ih =>
      obtain ⟨t, ht, htsound, hfirst⟩ := leave_group h g a
      obtain ⟨s', hs', hsound, hrest⟩ := ih htsound
      refine ⟨s', (Call.bind_of_ok ht).trans hs', hsound, hrest.accounts.trans hfirst.accounts,
        hrest.groups.trans hfirst.groups, fun g' b => ?_⟩
      rw [hrest.members, hfirst.members, List.mem_singleton, List.mem_cons]
      tauto

omit [LinearOrder A] in
theorem mem_groupsWith :
    g ∈ groupsWith s r ↔ ∃ p, s.groupPrivileges.lookup g = some p ∧ p.contains r = true := by
  simp only [groupsWith, List.mem_map, List.mem_filter]
  constructor
  · rintro ⟨e, ⟨he, hcontains⟩, rfl⟩
    exact ⟨e.2, AList.mem_lookup_iff.mpr he, hcontains⟩
  · rintro ⟨p, hp, hcontains⟩
    exact ⟨⟨g, p⟩, ⟨AList.mem_lookup_iff.mp hp, hcontains⟩, rfl⟩

/-- **Revoking** never fails, and it leaves the groups sound exactly when it takes of each group of
    the account bits that the group has, or none of its bits. -/
theorem revoke_sound_iff (h : Sound s) (a : A) (r : Privilege) :
    ∃ s', revoke a r s = (.ok (), s') ∧ (Sound s' ↔ RevokesWhole s (.revoke a r)) := by
  rw [revoke, Call.get_bind]
  by_cases hempty : (s.privileges a).isEmpty = true
  · refine ⟨s.setPrivileges a (s.privileges a), by rw [if_pos hempty]; rfl, ?_⟩
    refine iff_of_true (h.setPrivileges fun g p hp ha => h.held g p hp a ha) fun g p hp ha => .inr ?_
    refine Privilege.apart_iff.mpr fun i hi => ?_
    exact absurd (Privilege.contains_iff.mp (h.held g p hp a ha) i hi)
      (Privilege.not_has_of_isEmpty hempty)
  · obtain ⟨t, hloop, ht, hleft⟩ := leave_groups h (groupsWith s r) a
    rw [if_neg hempty]
    refine ⟨t.setPrivileges a ((t.privileges a).remove r), (Call.bind_of_ok hloop).trans rfl, ?_⟩
    constructor
    · intro hsound g p hp ha
      by_cases hcontains : p.contains r = true
      · exact .inl hcontains
      · -- the account stays in the group, so what is left of its privilege contains that of the group
        right
        have hstays : a ∈ t.members g := by
          refine (hleft.members g a).mpr ⟨ha, fun hg => hcontains ?_⟩
          obtain ⟨q, hq, hqr⟩ := mem_groupsWith.mp hg.1
          rwa [Option.some.inj (hp.symm.trans hq)]
        have hkept := hsound.held g p (hleft.groups ▸ hp) a hstays
        rw [privileges_setPrivileges, if_pos rfl] at hkept
        exact Privilege.apart_iff.mpr fun i hi =>
          (Privilege.has_remove.mp (Privilege.contains_iff.mp hkept i hi)).2
    · intro hwhole
      refine ht.setPrivileges fun g p hp ha => ?_
      obtain ⟨hmember, hnot⟩ := (hleft.members g a).mp ha
      rw [hleft.groups] at hp
      have hapart : p.Apart r := by
        rcases hwhole g p hp hmember with hcontains | hapart
        · exact absurd ⟨mem_groupsWith.mpr ⟨p, hp, hcontains⟩, rfl⟩ hnot
        · exact hapart
      refine Privilege.contains_iff.mpr fun i hi =>
        Privilege.has_remove.mpr ⟨?_, Privilege.apart_iff.mp hapart i hi⟩
      exact Privilege.contains_iff.mp (ht.held g p (hleft.groups ▸ hp) a ha) i hi

/-! ## All runs -/

theorem Sound.genesis (start : G) : Sound (State.genesis start : State A G) where
  sorted := nofun
  held := nofun

/-- **Step lemma.** -/
theorem Sound.step {op : Op A G} (h : Sound s) (hwhole : RevokesWhole s op)
    (hstep : step cfg s op = some s') : Sound s' := by
  cases op with
  | promote a p =>
      obtain rfl := Option.some.inj hstep
      refine h.setPrivileges fun g q hq ha => ?_
      have hheld := Privilege.contains_iff.mp (h.held g q hq a ha)
      refine Privilege.contains_iff.mpr fun i hi => ?_
      split
      · exact hheld i hi
      · exact Privilege.has_insert.mpr (.inl (hheld i hi))
  | revoke a r =>
      obtain ⟨t, ht, hiff⟩ := revoke_sound_iff h a r
      obtain rfl := Option.some.inj hstep
      rw [dispatch, ht]
      exact hiff.mpr hwhole
  | create group p =>
      obtain rfl := Option.some.inj hstep
      exact dispatch_of_outcome h h.create
  | delete g =>
      obtain rfl := Option.some.inj hstep
      exact dispatch_of_outcome h h.delete
  | groupPromote g a =>
      obtain rfl := Option.some.inj hstep
      exact dispatch_of_outcome h h.groupPromote
  | groupRevoke g a =>
      obtain rfl := Option.some.inj hstep
      apply dispatch_of_outcome h
      obtain ⟨hok, herror⟩ := Call.outcome_iff.mp (groupRevoke_outcome (g := g) (a := a) h)
      refine Call.outcome_iff.mpr ⟨fun u t ht => ?_, fun e t ht => .inr ((herror e t ht).1 ▸ h)⟩
      obtain ⟨members, rfl, hsorted, hmem⟩ := hok u t ht
      exact h.left hsorted hmem

/-- **Every member holds the privilege of its group**, and member lists are sorted without
    duplicates, all along a run exactly when each revocation takes of each group of the account bits
    that the group has, or none of its bits. -/
theorem groups_sound_iff (cfg : Config G) (start : G) (ops : List (Op A G)) :
    Throughout (step cfg) Sound (State.genesis start) ops ↔
      Along (step cfg) RevokesWhole (State.genesis start) ops := by
  refine throughout_iff_along id (fun h hwhole hstep => h.step hwhole hstep)
    (fun {s op} h hwhole => ?_) (.genesis start)
  -- Only a revocation is held to a condition, and it is exact.
  cases op with
  | revoke a r =>
      obtain ⟨t, ht, hiff⟩ := revoke_sound_iff h a r
      refine ⟨t, ?_, fun hsound => hwhole (hiff.mp hsound)⟩
      rw [step, dispatch, ht]
  | _ => exact absurd trivial hwhole

/-- An account with two bits loses both, and stays in the group that needs one of them. -/
theorem revoke_leaves_member :
    ∃ s, run (step (A := Nat) ⟨(· + 1), 10, 10⟩) (State.genesis 0)
        [.promote 1 ⟨3#32⟩, .create [1] ⟨1#32⟩, .revoke 1 ⟨3#32⟩] = some s ∧
      s.groupPrivileges.lookup 1 = some ⟨1#32⟩ ∧ 1 ∈ s.members 1 ∧
        (s.privileges 1).contains ⟨1#32⟩ = false ∧ ¬ Sound s := by
  refine ⟨_, rfl, by decide, by decide, by decide, fun hsound => ?_⟩
  have hheld := hsound.held 1 ⟨1#32⟩ (by decide) 1 (by decide)
  exact absurd hheld (by decide)

end Privileges
end Composable
