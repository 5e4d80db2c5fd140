import Composable.Support.Run
import Composable.Traits.Currency
import Mathlib.Logic.Function.Basic

/-!
# `AssetsRegistry.Mappings` — local and foreign assets

Embeds `frame/assets-registry/src/lib.rs`: a local asset is mapped to a foreign one once the local
and the foreign admin have both approved the pair, in either order. A pair that one of them has
approved is a candidate, with the status saying who. The admin origins are `EnsureLocalAdmin` and
`EnsureForeignAdmin`; events are left out.

What an approval can do is listed once (`Turn`): it opens a candidate, changes nothing, or closes it
with a mapping. So a status is evidence of one approval, and a mapping of both (`Approved.step`),
and as neither side of a new mapping has one yet, the two maps stay inverse (`Inverse.step`).
-/

namespace Composable
namespace AssetsRegistry

inductive CandidateStatus where
  | localAdminApproved
  | foreignAdminApproved
deriving DecidableEq, Repr

structure ForeignMetadata where
  decimals : Nat
deriving DecidableEq, Repr

inductive RegistryError where
  | onlyAllowedForAdmins
  | localAssetIdAlreadyUsed
  | foreignAssetIdAlreadyUsed
  | localAssetIdNotFound
deriving DecidableEq, Repr

structure State (A L F : Type) where
  localAdmin : Option A
  foreignAdmin : Option A
  localToForeign : L → Option F
  foreignToLocal : F → Option L
  assetsMappingCandidates : L × F → Option CandidateStatus
  foreignAssetMetadata : L → Option ForeignMetadata

abbrev RegistryCall (A L F : Type) (α : Type) : Type :=
  Call (State A L F) (DispatchError RegistryError) α

variable {A L F : Type} [DecidableEq A] [DecidableEq L] [DecidableEq F]
  (updateAdminOrigin : RawOrigin A → Bool)

namespace State

/-- `set_location`. -/
def setLocation (s : State A L F) (l : L) (f : F) : State A L F :=
  { s with
    localToForeign := Function.update s.localToForeign l (some f)
    foreignToLocal := Function.update s.foreignToLocal f (some l) }

def setCandidate (s : State A L F) (pair : L × F) (status : Option CandidateStatus) : State A L F :=
  { s with assetsMappingCandidates := Function.update s.assetsMappingCandidates pair status }

end State

structure GenesisConfig (A L F : Type) where
  localAdmin : Option A
  foreignAdmin : Option A
  assetPairs : List (L × F)

def GenesisConfig.build (genesis : GenesisConfig A L F) : State A L F :=
  genesis.assetPairs.foldl (fun s p => s.setLocation p.1 p.2)
    ⟨genesis.localAdmin, genesis.foreignAdmin, fun _ => none, fun _ => none, fun _ => none,
      fun _ => none⟩

/-! ## Extrinsics -/

def setLocalAdmin (origin : RawOrigin A) (admin : A) : RegistryCall A L F Unit := do
  Call.ensure (updateAdminOrigin origin = true) .badOrigin
  Call.modify fun s => { s with localAdmin := some admin }

def setForeignAdmin (origin : RawOrigin A) (admin : A) : RegistryCall A L F Unit := do
  Call.ensure (updateAdminOrigin origin = true) .badOrigin
  Call.modify fun s => { s with foreignAdmin := some admin }

/-- `EnsureLocalAdmin` and `EnsureForeignAdmin`: the origin is signed by the admin that is
    stored. -/
def ensureAdmin (admin : Option A) (origin : RawOrigin A) : Bool :=
  match origin, admin with
  | .signed who, some admin => who = admin
  | _, _ => false

def ensureAdminsOnly (origin : RawOrigin A) : RegistryCall A L F Unit := do
  let s ← Call.get
  Call.ensure (ensureAdmin s.localAdmin origin = true ∨ ensureAdmin s.foreignAdmin origin = true)
    (.module .onlyAllowedForAdmins)

def approveCandidate (who : A) (l : L) (f : F) : RegistryCall A L F Unit := do
  let s ← Call.get
  match s.assetsMappingCandidates (l, f) with
  | none =>
      if some who = s.localAdmin then
        Call.modify fun s => s.setCandidate (l, f) (some .localAdminApproved)
      else Call.modify fun s => s.setCandidate (l, f) (some .foreignAdminApproved)
  | some .localAdminApproved =>
      Call.when (some who = s.foreignAdmin) do
        Call.modify fun s => s.setLocation l f
        Call.modify fun s => s.setCandidate (l, f) none
  | some .foreignAdminApproved =>
      Call.when (some who = s.localAdmin) do
        Call.modify fun s => s.setLocation l f
        Call.modify fun s => s.setCandidate (l, f) none

def approveAssetsMappingCandidate (origin : RawOrigin A) (l : L) (f : F) :
    RegistryCall A L F Unit := do
  let who ← ensureSigned origin
  ensureAdminsOnly origin
  let s ← Call.get
  Call.ensure (s.localToForeign l = none) (.module .localAssetIdAlreadyUsed)
  Call.ensure (s.foreignToLocal f = none) (.module .foreignAssetIdAlreadyUsed)
  approveCandidate who l f

def setMetadata (origin : RawOrigin A) (l : L) (metadata : ForeignMetadata) :
    RegistryCall A L F Unit := do
  let _ ← ensureSigned origin
  ensureAdminsOnly origin
  let s ← Call.get
  Call.ensure (s.localToForeign l ≠ none) (.module .localAssetIdNotFound)
  Call.modify fun s =>
    { s with foreignAssetMetadata := Function.update s.foreignAssetMetadata l (some metadata) }

/-! ## Runs -/

inductive Op (A L F : Type) where
  | setLocalAdmin (origin : RawOrigin A) (admin : A)
  | setForeignAdmin (origin : RawOrigin A) (admin : A)
  | approve (origin : RawOrigin A) (l : L) (f : F)
  | setMetadata (origin : RawOrigin A) (l : L) (metadata : ForeignMetadata)
deriving DecidableEq

def step (s : State A L F) : Op A L F → Option (State A L F)
  | .setLocalAdmin origin admin => some (dispatch (setLocalAdmin updateAdminOrigin origin admin) s)
  | .setForeignAdmin origin admin =>
      some (dispatch (setForeignAdmin updateAdminOrigin origin admin) s)
  | .approve origin l f => some (dispatch (approveAssetsMappingCandidate origin l f) s)
  | .setMetadata origin l metadata => some (dispatch (setMetadata origin l metadata) s)

/-- The admin whose approval a status records. -/
def State.admin (s : State A L F) : CandidateStatus → Option A
  | .localAdminApproved => s.localAdmin
  | .foreignAdminApproved => s.foreignAdmin

/-- The pair that a call approves, if it goes through and is signed by the admin of that side. -/
def approvedBy (side : CandidateStatus) (s : State A L F) : Op A L F → Option (L × F)
  | .approve (.signed who) l f =>
      if s.admin side = some who ∧
        (approveAssetsMappingCandidate (.signed who) l f s).1.toBool = true then some (l, f)
      else none
  | _ => none

/-! ## What an approval does -/

def CandidateStatus.other : CandidateStatus → CandidateStatus
  | .localAdminApproved => .foreignAdminApproved
  | .foreignAdminApproved => .localAdminApproved

/-- What can come of an approval by `who`. -/
inductive Turn (s : State A L F) (who : A) (l : L) (f : F) : State A L F → Prop
  | opened (side : CandidateStatus) (hnone : s.assetsMappingCandidates (l, f) = none)
      (hwho : s.admin side = some who) :
      Turn s who l f (s.setCandidate (l, f) (some side))
  | kept : Turn s who l f s
  | mapped (side : CandidateStatus) (hside : s.assetsMappingCandidates (l, f) = some side)
      (hwho : s.admin side.other = some who) :
          Turn s who l f ((s.setLocation l f).setCandidate (l, f) none)

variable {s s' : State A L F} {who : A} {l l' : L} {f f' : F} {side : CandidateStatus}
  {origin : RawOrigin A}

omit [DecidableEq L] [DecidableEq F] in
theorem ensureAdmin_iff {admin : Option A} :
    ensureAdmin admin (.signed who) = true ↔ admin = some who := by
  cases admin with
  | none => simp [ensureAdmin]
  | some a =>
      simp only [ensureAdmin, decide_eq_true_eq, Option.some.injEq]
      exact eq_comm

/-- A candidate is decided by the admins. -/
theorem approveCandidate_turn (hadmin : s.localAdmin = some who ∨ s.foreignAdmin = some who) :
    ∃ s', approveCandidate who l f s = (.ok (), s') ∧ Turn s who l f s' := by
  rw [approveCandidate, Call.get_bind]
  cases hstatus : s.assetsMappingCandidates (l, f) with
  | none =>
      by_cases hlocal : some who = s.localAdmin
      · exact ⟨_, if_pos hlocal ▸ rfl, .opened .localAdminApproved hstatus hlocal.symm⟩
      · have hforeign : s.foreignAdmin = some who := hadmin.resolve_left fun h => hlocal h.symm
        exact ⟨_, by simp only [if_neg hlocal]; rfl, .opened .foreignAdminApproved hstatus hforeign⟩
  | some side =>
      cases side with
      | localAdminApproved =>
          by_cases hforeign : some who = s.foreignAdmin
          · exact ⟨_, by simp only [Call.when, if_pos hforeign]; rfl, .mapped _ hstatus hforeign.symm⟩
          · exact ⟨s, by simp only [Call.when, if_neg hforeign]; rfl, .kept⟩
      | foreignAdminApproved =>
          by_cases hlocal : some who = s.localAdmin
          · exact ⟨_, by simp only [Call.when, if_pos hlocal]; rfl, .mapped _ hstatus hlocal.symm⟩
          · exact ⟨s, by simp only [Call.when, if_neg hlocal]; rfl, .kept⟩

/-- **An approval** that goes through is of assets that are not mapped yet, and is a turn of their
    candidate. One that fails changes nothing. -/
theorem approve_outcome (s : State A L F) (origin : RawOrigin A) (l : L) (f : F) :
    Call.Outcome (fun _ s' => ∃ who, origin = .signed who ∧ s.localToForeign l = none ∧
      s.foreignToLocal f = none ∧
      Turn s who l f s') (fun _ s' => s' = s) (approveAssetsMappingCandidate origin l f s) := by
  simp only [approveAssetsMappingCandidate, ensureAdminsOnly, Call.outcome_bind,
    ensureSigned_outcome, Call.get_bind, Call.outcome_ensure]
  refine ⟨?_, fun _ => trivial⟩
  rintro who rfl
  refine ⟨fun hadmin => ⟨fun hlocal => ⟨fun hforeign => ?_, fun _ => trivial⟩, fun _ => trivial⟩,
    fun _ => trivial⟩
  rw [ensureAdmin_iff, ensureAdmin_iff] at hadmin
  obtain ⟨s', hcall, hturn⟩ := approveCandidate_turn (l := l) (f := f) hadmin
  rw [hcall]
  exact ⟨who, rfl, hlocal, hforeign, hturn⟩

omit [DecidableEq F] in
theorem setMetadata_outcome (s : State A L F) (origin : RawOrigin A) (l : L)
    (metadata : ForeignMetadata) : Call.Outcome (fun _ s' => s.localToForeign l ≠ none ∧
      s' = { s with
        foreignAssetMetadata := Function.update s.foreignAssetMetadata l (some metadata) })
      (fun _ s' => s' = s) (setMetadata origin l metadata s) := by
  simp only [setMetadata, ensureAdminsOnly, Call.outcome_bind, ensureSigned_outcome, Call.get_bind,
    Call.outcome_ensure, Call.outcome_modify]
  refine ⟨fun _ _ => ⟨fun _ => ⟨fun hmapped => ⟨hmapped, trivial⟩, fun _ => trivial⟩,
    fun _ => trivial⟩, fun _ => trivial⟩

/-! ## What a step does -/

/-- The mappings and their candidates stay. -/
def Same (s s' : State A L F) : Prop :=
  s'.localToForeign = s.localToForeign ∧ s'.foreignToLocal = s.foreignToLocal ∧
    s'.assetsMappingCandidates = s.assetsMappingCandidates

/-- **Step inversion.** Mappings and candidates stay, or an approval goes through. -/
theorem step_cases {op : Op A L F} (hstep : step updateAdminOrigin s op = some s') :
    Same s s' ∨ ∃ who l f, op = .approve (.signed who) l f ∧
      (approveAssetsMappingCandidate (.signed who) l f s).1.toBool = true ∧
      s.localToForeign l = none ∧
      s.foreignToLocal f = none ∧ Turn s who l f s' := by
  cases op with
  | setLocalAdmin origin admin =>
      obtain rfl := Option.some.inj hstep
      left
      apply dispatch_of_outcome (I := Same s) ⟨rfl, rfl, rfl⟩
      simp only [setLocalAdmin, Call.outcome_bind, Call.outcome_ensure, Call.outcome_modify]
      exact ⟨fun _ => ⟨rfl, rfl, rfl⟩, fun _ => .inr ⟨rfl, rfl, rfl⟩⟩
  | setForeignAdmin origin admin =>
      obtain rfl := Option.some.inj hstep
      left
      apply dispatch_of_outcome (I := Same s) ⟨rfl, rfl, rfl⟩
      simp only [setForeignAdmin, Call.outcome_bind, Call.outcome_ensure, Call.outcome_modify]
      exact ⟨fun _ => ⟨rfl, rfl, rfl⟩, fun _ => .inr ⟨rfl, rfl, rfl⟩⟩
  | setMetadata origin l metadata =>
      obtain rfl := Option.some.inj hstep
      left
      apply dispatch_of_outcome (I := Same s) ⟨rfl, rfl, rfl⟩
      obtain ⟨hok, herror⟩ := Call.outcome_iff.mp (setMetadata_outcome s origin l metadata)
      refine Call.outcome_iff.mpr ⟨fun u t ht => ?_, fun e t ht => .inr ?_⟩
      · rw [(hok u t ht).2]
        exact ⟨rfl, rfl, rfl⟩
      · rw [herror e t ht]
        exact ⟨rfl, rfl, rfl⟩
  | approve origin l f =>
      obtain rfl := Option.some.inj hstep
      have houtcome := approve_outcome s origin l f
      unfold dispatch
      rcases hcall : approveAssetsMappingCandidate origin l f s with ⟨e | u, t⟩
      · rw [hcall] at houtcome
        obtain rfl : t = s := houtcome
        left
        cases e <;> exact ⟨rfl, rfl, rfl⟩
      · rw [hcall] at houtcome
        obtain ⟨who, rfl, hlocal, hforeign, hturn⟩ := houtcome
        exact .inr ⟨who, l, f, rfl, by rw [hcall]; rfl, hlocal, hforeign, hturn⟩

/-! ## The two maps are inverse -/

/-- `LocalToForeign` and `ForeignToLocal` are mutually inverse. -/
def Inverse (s : State A L F) : Prop :=
  ∀ l f, s.localToForeign l = some f ↔ s.foreignToLocal f = some l

omit [DecidableEq A] in
/-- A mapping between sides that have none keeps the maps inverse. -/
theorem Inverse.setLocation (h : Inverse s) (hlocal : s.localToForeign l = none)
    (hforeign : s.foreignToLocal f = none) : Inverse (s.setLocation l f) := by
  intro l' f'
  simp only [State.setLocation, Function.update_apply]
  by_cases hl : l' = l <;> by_cases hf : f' = f
  · simp [hl, hf]
  · rw [if_pos hl, if_neg hf, ← h]
    refine iff_of_false (fun heq => hf (Option.some.inj heq).symm) ?_
    rw [hl, hlocal]
    exact nofun
  · rw [if_neg hl, if_pos hf, h]
    refine iff_of_false ?_ fun heq => hl (Option.some.inj heq).symm
    rw [hf, hforeign]
    exact nofun
  · rw [if_neg hl, if_neg hf]
    exact h l' f'

/-- **Step lemma.** -/
theorem Inverse.step {op : Op A L F} (h : Inverse s)
    (hstep : step updateAdminOrigin s op = some s') : Inverse s' := by
  rcases step_cases updateAdminOrigin hstep with
    ⟨hlocals, hforeigns, -⟩ | ⟨who, l, f, -, -, hlocal, hforeign, hturn⟩
  · intro l f
    rw [hlocals, hforeigns]
    exact h l f
  · cases hturn with
    | opened => exact h
    | kept => exact h
    | mapped => exact h.setLocation hlocal hforeign

/-! ## Both sides have approved -/

/-- Of the pairs that the admin of one side has approved so far: a status is evidence of an approval
    of its side, and a mapping of one of either side. -/
structure Approved (side : CandidateStatus) (s : State A L F) (approved : List (L × F)) : Prop where
  candidate : ∀ pair, s.assetsMappingCandidates pair = some side → pair ∈ approved
  mapped : ∀ l f, s.localToForeign l = some f → (l, f) ∈ approved

variable {approved : List (L × F)}

omit [DecidableEq A] [DecidableEq L] [DecidableEq F] in
theorem Approved.mono {pairs : List (L × F)} (h : Approved side s approved) :
    Approved side s (approved ++ pairs) :=
  ⟨fun pair hpair => List.mem_append_left _ (h.candidate pair hpair),
    fun l f hmapped => List.mem_append_left _ (h.mapped l f hmapped)⟩

theorem CandidateStatus.eq_other_of_ne {side side' : CandidateStatus} (h : side ≠ side') :
    side = side'.other := by
  cases side <;> cases side' <;> first | rfl | exact absurd rfl h

omit [DecidableEq A] in
/-- A turn after which the pair is approved by the side. -/
theorem Approved.turn (h : Approved side s approved) (hturn : Turn s who l f s')
    (hwho : s.admin side = some who → (l, f) ∈ approved) : Approved side s' approved := by
  cases hturn with
  | opened side' hnone hadmin =>
      refine ⟨fun pair hpair => ?_, h.mapped⟩
      simp only [State.setCandidate, Function.update_apply] at hpair
      split at hpair
      next heq =>
        rw [heq]
        exact hwho (Option.some.inj hpair ▸ hadmin)
      next => exact h.candidate pair hpair
  | kept => exact h
  | mapped side' hside hadmin =>
      -- one side approved the candidate, and the other one approves it now
      have hboth : (l, f) ∈ approved := by
        by_cases heq : side = side'
        · exact h.candidate (l, f) (heq ▸ hside)
        · exact hwho (CandidateStatus.eq_other_of_ne heq ▸ hadmin)
      refine ⟨fun pair hpair => ?_, fun l' f' hmapped => ?_⟩
      · simp only [State.setCandidate, Function.update_apply] at hpair
        split at hpair
        · cases hpair
        · exact h.candidate pair hpair
      · simp only [State.setCandidate, State.setLocation, Function.update_apply] at hmapped
        split at hmapped
        next heq =>
          rw [heq, ← Option.some.inj hmapped]
          exact hboth
        next => exact h.mapped l' f' hmapped

/-- **Step lemma.** -/
theorem Approved.step {op : Op A L F} (h : Approved side s approved)
    (hstep : step updateAdminOrigin s op = some s') :
    Approved side s' (approved ++ (approvedBy side s op).toList) := by
  rcases step_cases updateAdminOrigin hstep with
    ⟨hlocals, -, hcandidates⟩ | ⟨who, l, f, rfl, hok, -, -, hturn⟩
  · refine Approved.mono ⟨fun pair hpair => ?_, fun l f hmapped => ?_⟩
    · exact h.candidate pair (hcandidates ▸ hpair)
    · exact h.mapped l f (hlocals ▸ hmapped)
  · refine h.mono.turn hturn fun hadmin => ?_
    rw [approvedBy, if_pos ⟨hadmin, hok⟩]
    exact List.mem_append_right _ (List.mem_singleton_self _)

/-- **Mappings are mutually inverse and doubly approved**: whatever the admins and others do, in any
    order, a local asset is mapped to a foreign one exactly when the foreign one is mapped to it,
    and only if an account that was the local admin at that moment, and one that was the foreign
    admin, have approved that pair. -/
theorem mappings_approved (localAdmin foreignAdmin : Option A) {ops : List (Op A L F)}
    (hrun : run (step updateAdminOrigin) (GenesisConfig.build ⟨localAdmin, foreignAdmin, []⟩) ops =
      some s) :
    (∀ l f, s.localToForeign l = some f ↔ s.foreignToLocal f = some l) ∧
      ∀ l f, s.localToForeign l = some f → ∀ side,
        (l, f) ∈ history (step updateAdminOrigin) (approvedBy side)
        (GenesisConfig.build ⟨localAdmin, foreignAdmin, []⟩) ops := by
  refine ⟨?_, fun l f hmapped side => ?_⟩
  · have hstart : Inverse (GenesisConfig.build ⟨localAdmin, foreignAdmin, []⟩ : State A L F) :=
      fun l f => ⟨nofun, nofun⟩
    exact run_invariant (fun h _ hstep => Inverse.step updateAdminOrigin h hstep) hstart
      (along_true _ _) hrun
  · have hstart : Approved side (GenesisConfig.build ⟨localAdmin, foreignAdmin, []⟩ : State A L F)
      [] := ⟨nofun, nofun⟩
    have hend :=
      history_collect (fun h _ hstep => Approved.step updateAdminOrigin h hstep) hstart
        (along_true _ _) hrun
    exact hend.mapped l f hmapped

/-- The foreign admin approves first, and the local admin is replaced before it does. -/
theorem mappings_approved_in_turn :
    ((7, 9) : Nat × Nat) ∈ history (step (A := Nat) fun origin => decide (origin = .root))
      (approvedBy .localAdminApproved) (GenesisConfig.build ⟨some 1, some 2, []⟩)
      [.approve (.signed 2) 7 9, .setLocalAdmin .root 3, .approve (.signed 3) 7 9] := by
  have hrun : ∃ s, run (step (A := Nat) fun origin => decide (origin = .root))
      (GenesisConfig.build ⟨some 1, some 2, []⟩)
      [.approve (.signed 2) 7 9, .setLocalAdmin .root 3, .approve (.signed 3) 7 9] = some s ∧
        s.localToForeign 7 = some 9 := ⟨_, rfl, by decide⟩
  obtain ⟨s, hs, hmapped⟩ := hrun
  exact (mappings_approved _ (some 1) (some 2) hs).2 7 9 hmapped .localAdminApproved

end AssetsRegistry
end Composable
