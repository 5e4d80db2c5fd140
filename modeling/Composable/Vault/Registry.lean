import Composable.Vault.Effect

/-!
# `Vault.Registry` — the vaults and the index of their LP tokens

`LpTokensToVaults` is the reverse index of the LP tokens of `Vaults`. Seen from the registry a step
keeps it, rewrites one vault without touching its tokens, adds a vault under a fresh token, or
deletes one (`RegistryChange`).

`Registered` is the invariant of every run: vaults stay below the counter, and their LP tokens are
in use and pairwise different. The index itself is exact only as long as no deletion removes another
key than the one that was written (`lpIndexExact_iff`).
-/

namespace Composable
namespace Vault

variable {A X F : Type} [DecidableEq A] [DecidableEq X]

/-! ## Changes of the registry -/

/-- What a step does to the vaults, the index, the counter and the factory. -/
inductive RegistryChange (cfg : Config A X F) (s : State A X F) :
    Op A X → State A X F → Prop where
  | kept {op s'} (hvaults : s'.vaults = s.vaults) (hindex : s'.lpTokensToVaults = s.lpTokensToVaults)
      (hcount : s'.vaultCount = s.vaultCount) (hfactory : s'.factory = s.factory) :
      RegistryChange cfg s op s'
  | updated {op s' id vault vault'} (hvault : s.vaults id = some vault)
      (hvaults : s'.vaults = Function.update s.vaults id (some vault'))
      (hasset : vault'.assetId = vault.assetId) (hlp : vault'.lpTokenId = vault.lpTokenId)
      (hindex : s'.lpTokensToVaults = s.lpTokensToVaults)
      (hcount : s'.vaultCount = s.vaultCount) (hfactory : s'.factory = s.factory) :
      RegistryChange cfg s op s'
  | added {op s'} (vault : VaultInfo A X)
      (hfresh : cfg.currencyFactory.create s.factory .lpTokens = .ok (vault.lpTokenId, s'.factory))
      (hvaults : s'.vaults = Function.update s.vaults (s.vaultCount + 1) (some vault))
      (hindex : s'.lpTokensToVaults =
        Function.update s.lpTokensToVaults vault.lpTokenId (some (s.vaultCount + 1)))
      (hcount : s'.vaultCount = s.vaultCount + 1) (hbound : s.vaultCount < u64Max) :
      RegistryChange cfg s op s'
  | removed {now origin id address s' vault reward}
      (hdeletable : Deletable cfg s now origin id address vault reward)
      (hvaults : s'.vaults = Function.update s.vaults id none)
      (hindex : s'.lpTokensToVaults = Function.update s.lpTokensToVaults vault.assetId none)
      (hcount : s'.vaultCount = s.vaultCount) (hfactory : s'.factory = s.factory) :
      RegistryChange cfg s (.deleteTombstoned now origin id address) s'

theorem Effect.registry {cfg : Config A X F} {s s' : State A X F} {op : Op A X}
    (h : Effect cfg s op s') : RegistryChange cfg s op s' := by
  cases h with
  | created deposit rent hcount hsum hlp =>
      exact .added ⟨_, _, _, deposit, .default⟩ hlp rfl rfl rfl hcount
  | evicted hevictable => exact .updated hevictable.vault_eq rfl rfl rfl rfl rfl rfl
  | charged reward hvault hverdict => exact .updated hvault rfl rfl rfl rfl rfl rfl
  | surcharged deposit hvault => exact .updated hvault rfl rfl rfl rfl rfl rfl
  | stopped hvault => exact .updated hvault rfl rfl rfl rfl rfl rfl
  | started hvault => exact .updated hvault rfl rfl rfl rfl rfl rfl
  | deleted hdeletable => exact .removed hdeletable rfl rfl rfl rfl
  | _ => exact .kept rfl rfl rfl rfl

/-! ## LP tokens are in use and different -/

/-- The invariant of the registry in every run. -/
structure Registered (cfg : Config A X F) (s : State A X F) : Prop where
  within : s.vaultCount ≤ u64Max
  counted : ∀ {id vault}, s.vaults id = some vault → id ≤ s.vaultCount
  inUse : ∀ {id vault}, s.vaults id = some vault →
    cfg.currencyFactory.inUse s.factory vault.lpTokenId
  distinct : ∀ {id id' vault vault'}, s.vaults id = some vault → s.vaults id' = some vault' →
    vault.lpTokenId = vault'.lpTokenId → id = id'

variable {cfg : Config A X F} {s s' : State A X F} {op : Op A X}

omit [DecidableEq A] [DecidableEq X] in
/-- A registry in which every vault comes from an old vault of the same id and LP token. -/
theorem Registered.of_old (h : Registered cfg s) (hcount : s'.vaultCount = s.vaultCount)
    (hfactory : s'.factory = s.factory)
    (hold : ∀ {id vault'}, s'.vaults id = some vault' →
      ∃ vault, s.vaults id = some vault ∧ vault'.lpTokenId = vault.lpTokenId) :
    Registered cfg s' where
  within := hcount ▸ h.within
  counted hvault := by
    obtain ⟨_, hv, _⟩ := hold hvault
    exact hcount ▸ h.counted hv
  inUse hvault := by
    obtain ⟨_, hv, hlp⟩ := hold hvault
    rw [hlp, hfactory]
    exact h.inUse hv
  distinct hvault hvault' heq := by
    obtain ⟨_, hv, hlp⟩ := hold hvault
    obtain ⟨_, hv', hlp'⟩ := hold hvault'
    exact h.distinct hv hv' (hlp ▸ hlp' ▸ heq)

omit [DecidableEq A] [DecidableEq X] in
/-- Adding a vault under a fresh token keeps the tokens in use and different. -/
theorem Registered.add {vault : VaultInfo A X} (h : Registered cfg s)
    (hfresh : cfg.currencyFactory.create s.factory .lpTokens = .ok (vault.lpTokenId, s'.factory))
    (hvaults : s'.vaults = Function.update s.vaults (s.vaultCount + 1) (some vault))
    (hcount : s'.vaultCount = s.vaultCount + 1) (hbound : s.vaultCount < u64Max) :
    Registered cfg s' := by
  have hcases : ∀ {id v}, s'.vaults id = some v →
      (id = s.vaultCount + 1 ∧ v = vault) ∨ s.vaults id = some v := by
    intro id v hv
    rw [hvaults, Function.update_apply] at hv
    split at hv
    · exact .inl ⟨‹_›, (Option.some.inj hv).symm⟩
    · exact .inr hv
  -- An old vault cannot have the new token, since the factory had not handed it out yet.
  have hne : ∀ {id v}, s.vaults id = some v → v.lpTokenId ≠ vault.lpTokenId := by
    intro id v hv heq
    exact cfg.currencyFactory.fresh hfresh (heq ▸ h.inUse hv)
  refine ⟨hcount ▸ hbound, fun hv => ?_, fun hv => ?_, fun hv hv' heq => ?_⟩
  · rw [hcount]
    rcases hcases hv with ⟨rfl, -⟩ | hold
    · exact Nat.le_refl _
    · exact Nat.le_succ_of_le (h.counted hold)
  · rw [cfg.currencyFactory.inUse_create hfresh]
    rcases hcases hv with ⟨-, rfl⟩ | hold
    · exact .inl rfl
    · exact .inr (h.inUse hold)
  · rcases hcases hv with ⟨rfl, rfl⟩ | hold <;> rcases hcases hv' with ⟨rfl, rfl⟩ | hold'
    · rfl
    · exact absurd heq.symm (hne hold')
    · exact absurd heq (hne hold)
    · exact h.distinct hold hold' heq

/-- **Every step keeps the registry invariant.** -/
theorem Registered.step (h : Registered cfg s) (hstep : step cfg s op = some s') :
    Registered cfg s' := by
  cases (step_effect hstep).registry with
  | kept hvaults _ hcount hfactory =>
      exact h.of_old hcount hfactory fun hv => ⟨_, hvaults ▸ hv, rfl⟩
  | @updated _ _ id vault vault' hvault hvaults _ hlp _ hcount hfactory =>
      refine h.of_old hcount hfactory fun hv => ?_
      rw [hvaults, Function.update_apply] at hv
      split at hv
      · rename_i hid
        obtain rfl := Option.some.inj hv
        exact ⟨vault, hid ▸ hvault, hlp⟩
      · exact ⟨_, hv, rfl⟩
  | added vault hfresh hvaults _ hcount hbound => exact h.add hfresh hvaults hcount hbound
  | removed _ hvaults _ hcount hfactory =>
      refine h.of_old hcount hfactory fun hv => ?_
      rw [hvaults, Function.update_apply] at hv
      split at hv
      · cases hv
      · exact ⟨_, hv, rfl⟩

/-- The storage before the first vault, over any ledger and factory. -/
def State.genesis (ledger : Ledger A X) (factory : F) : State A X F where
  ledger := ledger
  factory := factory
  vaultCount := 0
  vaults := fun _ => none
  lpTokensToVaults := fun _ => none
  capitalStructure := fun _ => ∅

omit [DecidableEq A] [DecidableEq X] in
theorem Registered.genesis (ledger : Ledger A X) (factory : F) :
    Registered cfg (State.genesis ledger factory) :=
  ⟨Nat.zero_le _, nofun, nofun, nofun⟩

omit [DecidableEq A] [DecidableEq X] in
/-- Ids of vaults are of 64 bits. -/
theorem Registered.id_le (h : Registered cfg s) {id : Nat} {vault : VaultInfo A X}
    (hvault : s.vaults id = some vault) : id ≤ u64Max := (h.counted hvault).trans h.within

omit [DecidableEq A] [DecidableEq X] in
/-- Different vaults have different accounts. -/
theorem Registered.accountId_ne (h : Registered cfg s) {id id' : Nat} {vault vault' : VaultInfo A X}
    (hvault : s.vaults id = some vault) (hvault' : s.vaults id' = some vault') (hne : id' ≠ id) :
    cfg.accountId id ≠ cfg.accountId id' := fun heq =>
  hne (cfg.accountId_injective (h.id_le hvault) (h.id_le hvault') heq).symm

theorem Registered.of_run (ledger : Ledger A X) (factory : F) {ops : List (Op A X)}
    (hrun : run (Vault.step cfg) (State.genesis ledger factory) ops = some s) : Registered cfg s :=
  run_invariant (C := fun _ _ => True) (fun h _ hstep => h.step hstep)
    (Registered.genesis ledger factory)
    (along_true _ _) hrun

/-! ## Exactness of the index -/

/-- `LpTokensToVaults` lists the LP token of every vault, and nothing else. -/
def LpIndexExact (s : State A X F) : Prop :=
  ∀ token id, s.lpTokensToVaults token = some id ↔
    ∃ vault, s.vaults id = some vault ∧ vault.lpTokenId = token

/-- The deletions that erase the key under which the vault was indexed: those of a vault whose
    underlying asset is its own LP token. -/
def DeletesOwnKey (cfg : Config A X F) (s : State A X F) : Op A X → Prop
  | .deleteTombstoned now origin id address =>
      ∀ vault reward, Deletable cfg s now origin id address vault reward →
        vault.assetId = vault.lpTokenId
  | _ => True

omit [DecidableEq A] in
/-- Deleting the vault together with its own key keeps the index exact. -/
theorem LpIndexExact.remove {id : Nat} {vault : VaultInfo A X} (h : LpIndexExact s)
    (hvault : s.vaults id = some vault)
    (hvaults : s'.vaults = Function.update s.vaults id none)
    (hindex : s'.lpTokensToVaults = Function.update s.lpTokensToVaults vault.lpTokenId none) :
    LpIndexExact s' := by
  intro token id'
  rw [hvaults, hindex]
  simp only [Function.update_apply]
  by_cases htoken : token = vault.lpTokenId
  · -- The erased key: the only vault with this token is the deleted one.
    subst htoken
    simp only [if_true, reduceCtorEq, false_iff]
    rintro ⟨v, hv, hlp⟩
    split at hv
    · cases hv
    · rename_i hne
      have h₁ := (h vault.lpTokenId id').mpr ⟨v, hv, hlp⟩
      have h₂ := (h vault.lpTokenId id).mpr ⟨vault, hvault, rfl⟩
      exact hne (Option.some.inj (h₁.symm.trans h₂))
  · rw [if_neg htoken, h token id']
    constructor
    · rintro ⟨v, hv, hlp⟩
      refine ⟨v, ?_, hlp⟩
      rw [if_neg]
      · exact hv
      · rintro rfl
        exact htoken (Option.some.inj (hvault.symm.trans hv) ▸ hlp.symm)
    · rintro ⟨v, hv, hlp⟩
      split at hv
      · cases hv
      · exact ⟨v, hv, hlp⟩

/-- A step whose deletion, if any, erases the vault's own key keeps the index exact. -/
theorem LpIndexExact.step (hreg : Registered cfg s) (h : LpIndexExact s)
    (hop : DeletesOwnKey cfg s op) (hstep : step cfg s op = some s') : LpIndexExact s' := by
  cases (step_effect hstep).registry with
  | kept hvaults hindex _ _ =>
      intro token id
      rw [hvaults, hindex]
      exact h token id
  | @updated _ _ id vault vault' hvault hvaults _ hlp hindex _ _ =>
      intro token id'
      rw [hvaults, hindex, h token id']
      simp only [Function.update_apply]
      by_cases hid : id' = id
      · subst hid
        simp [hvault, hlp]
      · simp [hid]
  | added vault hfresh hvaults hindex _ =>
      intro token id
      rw [hvaults, hindex]
      simp only [Function.update_apply]
      by_cases htoken : token = vault.lpTokenId
      · -- The fresh token belongs to the new vault and to no old one.
        subst htoken
        rw [if_pos rfl]
        constructor
        · intro hid
          obtain rfl := Option.some.inj hid
          exact ⟨vault, by simp, rfl⟩
        · rintro ⟨v, hv, hlp⟩
          split at hv
          · exact congrArg some (Eq.symm ‹_›)
          · exact absurd (hlp ▸ hreg.inUse hv) (cfg.currencyFactory.fresh hfresh)
      · rw [if_neg htoken, h token id]
        constructor
        · rintro ⟨v, hv, hlp⟩
          have hne : id ≠ s.vaultCount + 1 := by
            have := hreg.counted hv
            omega
          exact ⟨v, by rw [if_neg hne]; exact hv, hlp⟩
        · rintro ⟨v, hv, hlp⟩
          split at hv
          · obtain rfl := Option.some.inj hv
            exact absurd hlp.symm htoken
          · exact ⟨v, hv, hlp⟩
  | removed hdeletable hvaults hindex _ _ =>
      rw [hop _ _ hdeletable] at hindex
      exact h.remove hdeletable.vault_eq hvaults hindex

/-- Deleting a vault over another asset leaves its own key behind. -/
theorem not_lpIndexExact_of_delete {now : Nat} {origin : RawOrigin A} {id : Nat} {address : Option A}
    {vault : VaultInfo A X} {reward : A} (h : LpIndexExact s)
    (hdeletable : Deletable cfg s now origin id address vault reward)
    (hne : vault.assetId ≠ vault.lpTokenId) :
    ∃ s', Vault.step cfg s (.deleteTombstoned now origin id address) = some s' ∧
      ¬ LpIndexExact s' := by
  have hcall : deleteTombstoned cfg now origin id address s = (.ok (), _) :=
    deleteTombstoned_ok.mpr ⟨vault, reward, hdeletable, rfl⟩
  refine ⟨_, rfl, fun hexact => ?_⟩
  simp only [dispatch, hcall] at hexact
  -- The key is still there, but the vault is not.
  have hkey := (h vault.lpTokenId id).mpr ⟨vault, hdeletable.vault_eq, rfl⟩
  have hstale := (hexact vault.lpTokenId id).mp (by
    show Function.update s.lpTokensToVaults vault.assetId none vault.lpTokenId = some id
    rw [Function.update_of_ne hne.symm]
    exact hkey)
  obtain ⟨v, hv, -⟩ := hstale
  have hgone : Function.update s.vaults id none id = some v := hv
  rw [Function.update_self] at hgone
  cases hgone

omit [DecidableEq A] [DecidableEq X] in
theorem LpIndexExact.genesis (ledger : Ledger A X) (factory : F) :
    LpIndexExact (State.genesis ledger factory) := by
  intro token id
  exact ⟨nofun, nofun⟩

/-- **The LP index is exact all along a run exactly when every deletion erases the key of its own
    vault**: when every vault that is deleted is one over its own LP token. -/
theorem lpIndexExact_iff (cfg : Config A X F) (ledger : Ledger A X) (factory : F)
    (ops : List (Op A X)) : Throughout (step cfg) LpIndexExact (State.genesis ledger factory) ops ↔
      Along (step cfg) (DeletesOwnKey cfg) (State.genesis ledger factory) ops := by
  refine throughout_iff_along (I := fun s => Registered cfg s ∧ LpIndexExact s) (fun h => h.2)
    (fun h hop hstep => ⟨h.1.step hstep, h.2.step h.1 hop hstep⟩) (fun {s op} h hop => ?_)
    ⟨Registered.genesis ledger factory, LpIndexExact.genesis ledger factory⟩
  -- Only a deletion is held to a condition.
  cases op with
  | deleteTombstoned now origin id address =>
      simp only [DeletesOwnKey, not_forall] at hop
      obtain ⟨vault, reward, hdeletable, hne⟩ := hop
      exact not_lpIndexExact_of_delete h.2 hdeletable hne
  | _ => exact absurd trivial hop

/-- A vault over asset `1` is created, evicted for want of rent and deleted: the entry of its LP
    token `100` is still there. -/
def deletionOps : List (Op Nat Nat) :=
  [.create 0 (.signed 7) sampleVault 15, .claimSurcharge 10 (.signed 7) 1 none,
    .deleteTombstoned 20 (.signed 7) 1 none]

/-- The genesis in which account `7` can pay for vaults. -/
def sampleGenesis : State Nat Nat Nat :=
  State.genesis (Ledger.ofList [(0, 7, 500), (1, 7, 500)]) 100

theorem lpIndexExact_fails :
    ¬ ∀ ops s, run (step sample) sampleGenesis ops = some s → LpIndexExact s := by
  intro h
  have hrun : (run (step sample) sampleGenesis deletionOps).map
      (fun s => (s.lpTokensToVaults 100, (s.vaults 1).isSome)) = some (some 1, false) := by
    decide +kernel
  obtain ⟨s, hs, hview⟩ := Option.map_eq_some_iff.mp hrun
  simp only [Prod.mk.injEq] at hview
  obtain ⟨vault, hvault, -⟩ := (h deletionOps s hs 100 1).mp hview.1
  simp [hvault] at hview

end Vault
end Composable
