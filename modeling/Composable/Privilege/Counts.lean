import Composable.Privilege.Groups

/-!
# `Privilege.Counts` — the number of groups

The counter of groups is meant to be their number (`Counted`), and a refused creation to leave no
trace (`RefusesWhole`). Neither is so in general. A member that cannot join refuses the creation of
a group that is then already stored and counted, under an id that the next creation takes again; and
`delete` counts down for an unknown group too, from zero to the largest number.

`groups_counted_iff` says which runs keep the books: those in which each creation is
refused by the limit or finds an unused id and members who can all join (`Admissible`), and
each deletion finds its group.
-/

namespace Composable
namespace Privileges

variable {A G : Type} [LinearOrder A] [DecidableEq G] {cfg : Config G}
variable {s s' : State A G} {g : G} {a : A} {p : Privilege} {group : List A}

/-- The counter is the number of groups. -/
def Counted (s : State A G) : Prop := s.groupCount = s.groupPrivileges.keys.length

/-- What is stored of groups. -/
structure SameGroups (s s' : State A G) : Prop where
  groupCount : s'.groupCount = s.groupCount
  groupId : s'.groupId = s.groupId
  groupPrivileges : s'.groupPrivileges = s.groupPrivileges
  groupMembers : s'.groupMembers = s.groupMembers

/-- A creation that is refused changes nothing. -/
def RefusesWhole (cfg : Config G) (s : State A G) : Op A G → Prop
  | .create group p => ∀ e s', create cfg group p s = (.error e, s') → SameGroups s s'
  | _ => True

/-- The members can all join a new group. -/
structure Admissible (cfg : Config G) (s : State A G) (group : List A) (p : Privilege) : Prop where
  nodup : group.Nodup
  held : ∀ a ∈ group, hasPrivilege s a p = true
  fits : group.length ≤ cfg.maxMember

/-- A creation is refused by the limit or is of a new group whose members can join, and a
    deletion is of a group. -/
def Orderly (cfg : Config G) (s : State A G) : Op A G → Prop
  | .create group p =>
      cfg.maxGroup ≤ s.groupCount ∨
        (Admissible cfg s group p ∧ cfg.next s.groupId ∉ s.groupPrivileges)
  | .delete g => g ∈ s.groupPrivileges
  | _ => True

/-! ## Joining -/

/-- The members can all join the group as it is. -/
structure Joins (cfg : Config G) (s : State A G) (g : G) (group : List A) (p : Privilege) : Prop where
  nodup : group.Nodup
  held : ∀ a ∈ group, hasPrivilege s a p = true
  others : ∀ a ∈ group, a ∉ s.members g
  fits : group ≠ [] → (s.members g).length + group.length ≤ cfg.maxMember

/-- Groups are not created or deleted. -/
structure SameCount (s s' : State A G) : Prop where
  groupCount : s'.groupCount = s.groupCount
  groupPrivileges : s'.groupPrivileges = s.groupPrivileges

omit [LinearOrder A] [DecidableEq G] in
theorem SameCount.refl (s : State A G) : SameCount s s := ⟨rfl, rfl⟩

omit [LinearOrder A] [DecidableEq G] in
theorem SameCount.trans {t : State A G} (h : SameCount s t) (h' : SameCount t s') : SameCount s s' :=
  ⟨h'.groupCount.trans h.groupCount, h'.groupPrivileges.trans h.groupPrivileges⟩

omit [LinearOrder A] in
theorem SameCount.setMembers {members : List A} (h : SameCount s s') :
    SameCount s (s'.setMembers g members) :=
  ⟨h.groupCount, h.groupPrivileges⟩

/-- **One member** joins if it holds the privilege, is not there yet and there is room. -/
theorem groupPromote_outcome (cfg : Config G) (a : A) (hp : s.groupPrivileges.lookup g = some p)
    (hsorted : SortedVec.Sorted id (s.members g)) :
    Call.Outcome
      (fun _ s' => (hasPrivilege s a p = true ∧ a ∉ s.members g ∧
        (s.members g).length < cfg.maxMember) ∧
        ∃ members, s' = s.setMembers g members ∧ SortedVec.Sorted id members ∧
          (∀ b, b ∈ members ↔ b = a ∨ b ∈ s.members g) ∧ members.length = (s.members g).length + 1)
      (fun _ s' => s' = s ∧
        ¬ (hasPrivilege s a p = true ∧ a ∉ s.members g ∧ (s.members g).length < cfg.maxMember))
      (groupPromote cfg g a s) := by
  rw [groupPromote, Call.get_bind, hp]
  simp only [Call.outcome_bind, Call.outcome_ofOption, Call.outcome_ensure]
  refine ⟨fun q hq => ?_, fun hnone => absurd hnone (Option.some_ne_none p)⟩
  obtain rfl := Option.some.inj hq
  refine ⟨fun hheld => ?_, fun hnot => ⟨trivial, fun h => hnot h.1⟩⟩
  cases hsearch : SortedVec.binarySearchByKey id a (s.members g) with
  | ok index =>
      obtain ⟨b, hb, hkey⟩ := SortedVec.binarySearch_ok hsearch
      obtain rfl : b = a := hkey
      exact ⟨rfl, fun h => h.2.1 (List.mem_of_getElem? hb)⟩
  -- The search fails, so the member is new and goes where it belongs in the order.
  | error index =>
      have hnew : a ∉ s.members g := fun ha => hsorted.key_ne_of_error hsearch ha rfl
      have hindex := (hsorted.binarySearch_error hsearch).1
      obtain ⟨hsorted', hmem⟩ := hsorted.insertIdx (a := a) hsearch
      simp only [Call.outcome_bind, Call.outcome_ensure, Call.outcome_modify]
      refine ⟨fun hroom => ⟨⟨hheld, hnew, hroom⟩, _, rfl, hsorted', hmem, ?_⟩, fun hfull => ?_⟩
      · exact List.length_insertIdx_of_le_length hindex a
      · exact ⟨trivial, fun h => hfull h.2.2⟩

omit [LinearOrder A] in
/-- The first of the members joins, and the others join the group with it. -/
theorem joins_cons {members : List A} (hheld : hasPrivilege s a p = true) (hnew : a ∉ s.members g)
    (hroom : (s.members g).length < cfg.maxMember) (hmem : ∀ b, b ∈ members ↔ b = a ∨ b ∈ s.members g)
    (hlength : members.length = (s.members g).length + 1) :
    Joins cfg s g (a :: group) p ↔ Joins cfg (s.setMembers g members) g group p := by
  have hmembers : (s.setMembers g members).members g = members := by
    rw [members_setMembers, if_pos rfl]
  constructor
  · intro h
    obtain ⟨hfirst, hnodup⟩ := List.nodup_cons.mp h.nodup
    refine ⟨hnodup, fun b hb => ?_, fun b hb hthere => ?_, fun _ => ?_⟩
    · exact h.held b (List.mem_cons_of_mem a hb)
    · rw [hmembers, hmem] at hthere
      rcases hthere with rfl | hthere
      · exact hfirst hb
      · exact h.others b (List.mem_cons_of_mem a hb) hthere
    · have hfits := h.fits (List.cons_ne_nil a group)
      rw [List.length_cons] at hfits
      rw [hmembers]
      omega
  · intro h
    refine ⟨List.nodup_cons.mpr ⟨fun ha => ?_, h.nodup⟩, fun b hb => ?_, fun b hb hthere => ?_,
      fun _ => ?_⟩
    · refine h.others a ha ?_
      rw [hmembers, hmem]
      exact .inl rfl
    · rcases List.mem_cons.mp hb with rfl | hb
      · exact hheld
      · exact h.held b hb
    · rcases List.mem_cons.mp hb with rfl | hb
      · exact hnew hthere
      · refine h.others b hb ?_
        rw [hmembers, hmem]
        exact .inr hthere
    · rw [List.length_cons]
      by_cases hrest : group = []
      · rw [hrest, List.length_nil]
        omega
      · have hfits := h.fits hrest
        rw [hmembers] at hfits
        omega

/-- **All members** join, or one of them cannot; the number of groups stays in either case. -/
theorem join_outcome (cfg : Config G) (group : List A) (hp : s.groupPrivileges.lookup g = some p)
    (hsorted : SortedVec.Sorted id (s.members g)) :
    Call.Outcome (fun _ s' => Joins cfg s g group p ∧ SameCount s s')
      (fun _ s' => ¬ Joins cfg s g group p ∧ SameCount s s')
        (Call.forEach group (groupPromote cfg g) s) := by
  induction group generalizing s with
  | nil => exact ⟨⟨List.nodup_nil, nofun, nofun, absurd rfl⟩, .refl s⟩
  | cons a rest ih =>
      show Call.Outcome _ _
        ((groupPromote cfg g a >>= fun _ => Call.forEach rest (groupPromote cfg g)) s)
      rw [Call.outcome_bind]
      refine (groupPromote_outcome cfg a hp hsorted).imp (fun _ t ht => ?_) fun _ t ht => ?_
      · obtain ⟨⟨hheld, hnew, hroom⟩, members, rfl, hsorted', hmem, hlength⟩ := ht
        have hmembers : (s.setMembers g members).members g = members := by
          rw [members_setMembers, if_pos rfl]
        have hsame : SameCount s (s.setMembers g members) := .setMembers (.refl s)
        rw [joins_cons hheld hnew hroom hmem hlength]
        refine (ih (s := s.setMembers g members) hp (hmembers.symm ▸ hsorted')).imp
          (fun _ s' hs' => ?_)
          fun _ s' hs' => ?_
        · exact ⟨hs'.1, hsame.trans hs'.2⟩
        · exact ⟨hs'.1, hsame.trans hs'.2⟩
      · obtain ⟨rfl, hcannot⟩ := ht
        refine ⟨fun h => hcannot ⟨h.held a List.mem_cons_self, h.others a List.mem_cons_self, ?_⟩,
          .refl t⟩
        have hfits := h.fits (List.cons_ne_nil a rest)
        rw [List.length_cons] at hfits
        omega

/-! ## Calls -/

/-- **Creating a group**: refused by the limit, or counted and stored whether its
    members can join or not. -/
theorem create_outcome (cfg : Config G) (s : State A G) (group : List A) (p : Privilege) :
    Call.Outcome
      (fun _ s' => s.groupCount < cfg.maxGroup ∧ Admissible cfg s group p ∧
        s'.groupCount = s.groupCount + 1 ∧
        s'.groupPrivileges = s.groupPrivileges.insert (cfg.next s.groupId) p)
      (fun _ s' => (cfg.maxGroup ≤ s.groupCount ∧ s' = s) ∨
        (s.groupCount < cfg.maxGroup ∧ ¬ Admissible cfg s group p ∧ s'.groupCount = s.groupCount + 1))
      (create cfg group p s) := by
  rw [create, Call.get_bind]
  simp only [Call.outcome_bind, Call.outcome_ensure, Call.outcome_modify]
  refine ⟨fun hlimit => ?_, fun hlimit => .inl ⟨Nat.not_lt.mp hlimit, trivial⟩⟩
  set started : State A G := State.setMembers { s with
    groupCount := s.groupCount + 1
    groupPrivileges := s.groupPrivileges.insert (cfg.next s.groupId) p } (cfg.next s.groupId) []
  have hmembers : started.members (cfg.next s.groupId) = [] := by
    rw [members_setMembers, if_pos rfl]
  have hiff : Joins cfg started (cfg.next s.groupId) group p ↔ Admissible cfg s group p := by
    constructor
    · intro h
      refine ⟨h.nodup, h.held, ?_⟩
      by_cases hnone : group = []
      · rw [hnone]
        exact Nat.zero_le _
      · have hfits := h.fits hnone
        rwa [hmembers, List.length_nil, Nat.zero_add] at hfits
    · intro h
      refine ⟨h.nodup, h.held, fun a _ ha => ?_, fun _ => ?_⟩
      · rw [hmembers] at ha
        cases ha
      · rw [hmembers, List.length_nil, Nat.zero_add]
        exact h.fits
  have hstored : started.groupPrivileges.lookup (cfg.next s.groupId) = some p := AList.lookup_insert _
  have hsorted : SortedVec.Sorted id (started.members (cfg.next s.groupId)) := by
    rw [hmembers]
    exact List.Pairwise.nil
  refine (join_outcome cfg group hstored hsorted).imp (fun _ t ht => ?_) fun _ t ht => .inr ?_
  · obtain ⟨hjoins, hsame⟩ := ht
    exact ⟨hlimit, hiff.mp hjoins, hsame.groupCount, hsame.groupPrivileges⟩
  · obtain ⟨hnot, hsame⟩ := ht
    exact ⟨hlimit, fun h => hnot (hiff.mpr h), hsame.groupCount⟩

/-- The call neither creates nor deletes groups, whether it returns or not. -/
def KeepsCount {α : Type} (x : PrivilegeCall A G α) : Prop :=
  ∀ s₀ s, SameCount s₀ s → Call.Outcome (fun _ => SameCount s₀) (fun _ => SameCount s₀) (x s)

theorem keepsCount_groupPromote (g : G) (a : A) : KeepsCount (groupPromote cfg g a) := by
  intro s₀ s h
  rw [groupPromote, Call.get_bind]
  simp only [Call.outcome_bind, Call.outcome_ofOption, Call.outcome_ensure]
  refine ⟨fun p _ => ⟨fun _ => ?_, fun _ => h⟩, fun _ => h⟩
  cases SortedVec.binarySearchByKey id a (s.members g) with
  | ok index => exact h
  | error index =>
      simp only [Call.outcome_bind, Call.outcome_ensure, Call.outcome_modify]
      exact ⟨fun _ => h.setMembers, fun _ => h⟩

theorem keepsCount_groupRevoke (g : G) (a : A) :
    KeepsCount (groupRevoke g a : PrivilegeCall A G Unit) := by
  intro s₀ s h
  rw [groupRevoke, Call.get_bind]
  cases SortedVec.binarySearchByKey id a (s.members g) with
  | error index => exact h
  | ok index => exact h.setMembers

theorem keepsCount_revoke (a : A) (r : Privilege) :
    KeepsCount (revoke a r : PrivilegeCall A G Unit) := by
  intro s₀ s h
  rw [revoke, Call.get_bind]
  split
  · exact ⟨h.groupCount, h.groupPrivileges⟩
  · rw [Call.outcome_bind]
    have hleft : Call.Outcome (fun _ => SameCount s₀) (fun _ => SameCount s₀)
        ((Call.forEach (groupsWith s r) fun g => Call.orElse (groupRevoke g a) (pure ()) :
          PrivilegeCall A G Unit) s) := by
      refine Call.outcome_forEach (fun g _ t ht => ?_) h
      exact Call.outcome_orElse (keepsCount_groupRevoke g a s₀ t ht) (fun _ ht' => ht') fun _ ht' =>
        ht'
    exact hleft.imp (fun _ _ ht => ⟨ht.groupCount, ht.groupPrivileges⟩) fun _ _ ht => ht

omit [LinearOrder A] [DecidableEq G] in
theorem KeepsCount.dispatch {α : Type} {x : PrivilegeCall A G α} (h : KeepsCount x) (s : State A G) :
    SameCount s (dispatch x s) := by
  exact dispatch_of_outcome (.refl s) ((h s s (.refl s)).imp (fun _ _ ht => ht) fun _ _ ht => .inr ht)

omit [LinearOrder A] [DecidableEq G] in
theorem Counted.same (h : Counted s) (hsame : SameCount s s') : Counted s' := by
  rw [Counted, hsame.groupCount, hsame.groupPrivileges]
  exact h

/-! ## Steps -/

omit [LinearOrder A] in
/-- A group is new exactly when it makes one more. -/
theorem counted_insert_iff (h : Counted s) :
    s.groupCount + 1 = (s.groupPrivileges.insert g p).keys.length ↔ g ∉ s.groupPrivileges := by
  rw [AList.keys_insert, List.length_cons, List.length_erase, ← h]
  by_cases hg : g ∈ s.groupPrivileges.keys
  · have hpos : 0 < s.groupPrivileges.keys.length := List.length_pos_of_mem hg
    have hcount : s.groupCount = s.groupPrivileges.keys.length := h
    rw [if_pos hg]
    exact iff_of_false (by omega) (not_not_intro hg)
  · rw [if_neg hg]
    exact iff_of_true rfl hg

omit [LinearOrder A] in
/-- A deletion takes a group away exactly when there is one. -/
theorem counted_delete_iff (h : Counted s) :
    Counted (dispatch (delete g) s) ↔ g ∈ s.groupPrivileges := by
  show wrappingPred s.groupCount = (s.groupPrivileges.erase g).keys.length ↔ _
  have hcount : s.groupCount = s.groupPrivileges.keys.length := h
  rw [AList.keys_erase, List.length_erase, wrappingPred]
  by_cases hg : g ∈ s.groupPrivileges.keys
  · have hpos : 0 < s.groupPrivileges.keys.length := List.length_pos_of_mem hg
    rw [if_pos hg, if_neg (by omega)]
    exact iff_of_true (by omega) hg
  · rw [if_neg hg]
    refine iff_of_false ?_ hg
    split <;> omega

/-- A creation that is refused by the limit only. -/
theorem Orderly.refused {e : DispatchError PrivilegeError} (h : Orderly cfg s (.create group p))
    (hcall : create cfg group p s = (.error e, s')) : s' = s := by
  have houtcome := create_outcome cfg s group p
  rw [hcall] at houtcome
  rcases houtcome with ⟨-, hsame⟩ | ⟨hlimit, hnot, -⟩
  · exact hsame
  · rcases h with hfull | ⟨hadmissible, -⟩
    · omega
    · exact absurd hadmissible hnot

theorem Orderly.refusesWhole {op : Op A G} (h : Orderly cfg s op) : RefusesWhole cfg s op := by
  cases op with
  | create group p =>
      intro e t ht
      obtain rfl : t = s := h.refused ht
      exact ⟨rfl, rfl, rfl, rfl⟩
  | _ => trivial

/-- **Step lemma.** -/
theorem Counted.step {op : Op A G} (h : Counted s) (horderly : Orderly cfg s op)
    (hstep : step cfg s op = some s') : Counted s' := by
  cases op with
  | create group p =>
      obtain rfl := Option.some.inj hstep
      apply dispatch_of_outcome h
      obtain ⟨hcreated, -⟩ := Call.outcome_iff.mp (create_outcome cfg s group p)
      refine Call.outcome_iff.mpr ⟨fun u t ht => ?_, fun e t ht => .inr ?_⟩
      · obtain ⟨hlimit, -, hcount, hstored⟩ := hcreated u t ht
        -- An orderly creation that the limit does not refuse is of a new group.
        rcases horderly with hfull | ⟨-, hnew⟩
        · omega
        · rw [Counted, hcount, hstored]
          exact (counted_insert_iff h).mpr hnew
      · rw [horderly.refused ht]
        exact h
  | delete g =>
      obtain rfl := Option.some.inj hstep
      exact (counted_delete_iff h).mpr horderly
  | promote a p =>
      obtain rfl := Option.some.inj hstep
      exact h
  | revoke a r =>
      obtain rfl := Option.some.inj hstep
      exact h.same ((keepsCount_revoke a r).dispatch s)
  | groupPromote g a =>
      obtain rfl := Option.some.inj hstep
      exact h.same ((keepsCount_groupPromote g a).dispatch s)
  | groupRevoke g a =>
      obtain rfl := Option.some.inj hstep
      exact h.same ((keepsCount_groupRevoke g a).dispatch s)

/-- What else a creation or a deletion does shows in the count. -/
theorem miscounted {op : Op A G} (h : Counted s) (hwhole : RefusesWhole cfg s op)
    (hnot : ¬ Orderly cfg s op) : ∃ s', step cfg s op = some s' ∧ ¬ Counted s' := by
  cases op with
  | create group p =>
      refine ⟨_, rfl, ?_⟩
      obtain ⟨hlimit, hrest⟩ := not_or.mp hnot
      obtain ⟨hcreated, hrefused⟩ := Call.outcome_iff.mp (create_outcome cfg s group p)
      rcases hcall : create cfg group p s with ⟨e | u, t⟩
      · -- counted although refused
        have hsame := (hwhole e t hcall).groupCount
        rcases hrefused e t hcall with ⟨hfull, -⟩ | ⟨-, -, hcount⟩
        · exact absurd hfull hlimit
        · omega
      · obtain ⟨-, hadmissible, hcount, hstored⟩ := hcreated u t hcall
        have hdispatch : dispatch (create cfg group p) s = t := by
          rw [dispatch, hcall]
        rw [hdispatch, Counted, hcount, hstored, counted_insert_iff h]
        exact fun hnew => hrest ⟨hadmissible, hnew⟩
  | delete g => exact ⟨_, rfl, fun hcounted => hnot ((counted_delete_iff h).mp hcounted)⟩
  | _ => exact absurd trivial hnot

/-- **The counter is the number of groups all along a run, and refused creations change nothing**,
    exactly when each creation is refused by the limit or is of a new group whose members can join,
    and each deletion is of a group that there is. -/
theorem groups_counted_iff (cfg : Config G) (start : G) (ops : List (Op A G)) :
    (Throughout (step cfg) Counted (State.genesis start) ops ∧
        Along (step cfg) (RefusesWhole cfg) (State.genesis start) ops) ↔
      Along (step cfg) (Orderly cfg) (State.genesis start) ops := by
  have hgenesis : Counted (State.genesis start : State A G) := rfl
  constructor
  · rintro ⟨hcounted, hwhole⟩
    exact (throughout_iff_along_of id (fun h _ horderly hstep => h.step horderly hstep)
      (fun h hwhole hnot => miscounted h hwhole hnot) hgenesis hwhole).mp hcounted
  -- Conversely each condition on a step gives both what it counts and what it refuses.
  · intro horderly
    refine ⟨throughout_of_invariant (fun h horderly hstep => h.step horderly hstep) id hgenesis
      horderly, ?_⟩
    exact along_of_invariant (fun h horderly hstep => h.step horderly hstep)
      (fun _ horderly => horderly.refusesWhole)
      hgenesis horderly

/-- Without any group the deletion of one leaves the largest number of groups, and a group whose
    only member does not hold the privilege is counted although it is refused. -/
theorem groups_miscounted :
    (∃ s, run (step (A := Nat) ⟨(· + 1), 10, 10⟩) (State.genesis 0) [.delete 7] = some s ∧
      s.groupCount = 4294967295 ∧ s.groupPrivileges.keys = [] ∧ ¬ Counted s) ∧
    ¬ Along (step (A := Nat) ⟨(· + 1), 10, 10⟩) (RefusesWhole ⟨(· + 1), 10, 10⟩) (State.genesis 0)
      [.create [1] ⟨1#32⟩] := by
  constructor
  · exact ⟨_, rfl, rfl, rfl, by unfold Counted; decide⟩
  · rintro ⟨hwhole, -⟩
    have hcount := (hwhole _ _ rfl).groupCount
    exact absurd hcount (by decide)

end Privileges
end Composable
