import Composable.Vault.Registry

/-!
# `Vault.Tombstone` — how long a vault stays tombstoned

A tombstoned vault can be deleted once it has been tombstoned for `tombstoneDuration` blocks. The
block it was tombstoned in is kept in the deposit, and the deposit is what `claimSurcharge`
rewrites: nothing is left of a tombstoned vault to charge, so every claim in a later block evicts it
once more and writes the block of the claim. The vault stays deletable on time exactly as long as no
such claim goes through (`deletable_on_time_iff`).

`VaultMove` is what one operation does to one vault.
-/

namespace Composable
namespace Vault

variable {A X F : Type} [DecidableEq A] [DecidableEq X]
/-! ## One vault under one operation -/

/-- What an operation does to the vault `id`. -/
inductive VaultMove (cfg : Config A X F) (s : State A X F) (id : Nat) :
    Op A X → State A X F → Prop where
  | kept {op s'} (hkept : s'.vaults id = s.vaults id) : VaultMove cfg s id op s'
  | created {op s'} (hid : id = s.vaultCount + 1) (vault : VaultInfo A X)
      (hvault : s'.vaults id = some vault) (hcaps : vault.capabilities = .default) :
          VaultMove cfg s id op s'
  | evicted {now origin address s' vault reward}
      (hevictable : Evictable cfg s now origin id address vault reward)
      (hvault : s'.vaults id =
        some { vault with
          deposit := .rent 0 now, capabilities := vault.capabilities.setTombstoned }) :
      VaultMove cfg s id (.claimSurcharge now origin id address) s'
  | charged {now origin address s' vault remaining payable} (hold : s.vaults id = some vault)
      (hverdict : evaluateEviction cfg now vault.deposit = .charge remaining payable)
      (hvault : s'.vaults id = some { vault with deposit := .rent remaining now }) :
      VaultMove cfg s id (.claimSurcharge now origin id address) s'
  | surcharged {now origin amount s' vault} (vault' : VaultInfo A X) (hold : s.vaults id = some vault)
      (hvault : s'.vaults id = some vault')
        (hcaps : vault'.capabilities = vault.capabilities.untombstone) :
      VaultMove cfg s id (.addSurcharge now origin id amount) s'
  | switched {op s' vault} (capabilities : Capabilities) (hold : s.vaults id = some vault)
      (hvault : s'.vaults id = some { vault with capabilities := capabilities })
      (htomb : capabilities.isTombstoned = vault.capabilities.isTombstoned) : VaultMove cfg s id op s'
  | deleted {op s'} (hvault : s'.vaults id = none) : VaultMove cfg s id op s'

variable {cfg : Config A X F} {s s' : State A X F} {op : Op A X}

omit [DecidableEq A] [DecidableEq X] in
/-- A step that writes another vault leaves this one. -/
theorem VaultMove.of_ne {id id' : Nat} {vault : Option (VaultInfo A X)} (hne : id ≠ id')
    (hvaults : s'.vaults = Function.update s.vaults id' vault) : VaultMove cfg s id op s' :=
  .kept (by rw [hvaults, Function.update_of_ne hne])

/-- **What a step does to one vault.** -/
theorem step_vaultMove (id : Nat) (hstep : step cfg s op = some s') : VaultMove cfg s id op s' := by
  cases step_effect hstep with
  | created deposit rent hcount hsum hlp =>
      by_cases hid : id = s.vaultCount + 1
      · subst hid
        exact .created rfl _ (Function.update_self ..) rfl
      · exact .of_ne hid rfl
  | @evicted _ _ id' _ _ _ hevictable =>
      by_cases hid : id = id'
      · subst hid
        exact .evicted hevictable (Function.update_self ..)
      · exact .of_ne hid rfl
  | @charged _ _ id' _ _ _ _ reward hvault hverdict =>
      by_cases hid : id = id'
      · subst hid
        exact .charged hvault hverdict (Function.update_self ..)
      · exact .of_ne hid rfl
  | @surcharged _ _ id' _ _ deposit hvault =>
      by_cases hid : id = id'
      · subst hid
        exact .surcharged _ hvault (Function.update_self ..) rfl
      · exact .of_ne hid rfl
  | @stopped id' _ hvault =>
      by_cases hid : id = id'
      · subst hid
        exact .switched _ hvault (Function.update_self ..) rfl
      · exact .of_ne hid rfl
  | @started id' _ hvault =>
      by_cases hid : id = id'
      · subst hid
        exact .switched _ hvault (Function.update_self ..) rfl
      · exact .of_ne hid rfl
  | @deleted _ _ id' _ _ _ hdeletable =>
      by_cases hid : id = id'
      · subst hid
        exact .deleted (Function.update_self ..)
      · exact .of_ne hid rfl
  | _ => exact .kept rfl

/-! ## The clock -/

/-- The block an operation is in, where it reads the block number. -/
def Op.block : Op A X → Option Nat
  | .create now _ _ _ => some now
  | .claimSurcharge now _ _ _ => some now
  | .addSurcharge now _ _ _ => some now
  | .deleteTombstoned now _ _ _ => some now
  | _ => none

/-- The block number never goes back. -/
def Chronological (ops : List (Op A X)) : Prop := (ops.filterMap Op.block).Pairwise (· ≤ ·)

instance (ops : List (Op A X)) : Decidable (Chronological ops) :=
  inferInstanceAs (Decidable (List.Pairwise _ _))

/-- There is a vault under `id`, and it is tombstoned. -/
def Tombstoned (s : State A X F) (id : Nat) : Prop :=
  ∃ vault, s.vaults id = some vault ∧ vault.capabilities.isTombstoned = true

/-- The operation makes `id` a tombstoned vault, in block `b`. -/
structure Tombstones (cfg : Config A X F) (id b : Nat) (s : State A X F) (op : Op A X)
    (s' : State A X F) : Prop where
  step_eq : step cfg s op = some s'
  block : op.block = some b
  before : ¬ Tombstoned s id
  after : Tombstoned s' id

/-- The vault `id` is deletable from block `start` on: no deletion is refused for coming too
    early. -/
def DeletableFrom (cfg : Config A X F) (id start : Nat) (s : State A X F) : Prop :=
  ∀ now origin address, start ≤ now →
    (deleteTombstoned cfg now origin id address).Avoids (err .tombstoneDurationNotExceeded) s

/-- The operation adds no surcharge to the vault `id`. -/
def NoSurcharge (id : Nat) : Op A X → Prop
  | .addSurcharge _ _ id' _ => id' ≠ id
  | _ => True

/-- The operation does not evict the vault `id`, unless the clock makes no difference. -/
def NotReclaimed (cfg : Config A X F) (id : Nat) (s : State A X F) : Op A X → Prop
  | .claimSurcharge now origin id' address =>
      id' = id → 0 < cfg.tombstoneDuration → ∀ vault reward,
        ¬ Evictable cfg s now origin id address vault reward
  | _ => True

/-! ## The record of a tombstone -/

/-- The vault `id`, if it still exists, is tombstoned and has its clock at `b`. -/
structure OnRecord (cfg : Config A X F) (id b : Nat) (s : State A X F) : Prop where
  known : id ≤ s.vaultCount
  record : ∀ vault, s.vaults id = some vault → vault.capabilities.isTombstoned = true ∧
    ∃ at_, vault.deposit = .rent 0 at_ ∧ (at_ = b ∨ cfg.tombstoneDuration = 0)

theorem vaultCount_le_of_step (hstep : step cfg s op = some s') : s.vaultCount ≤ s'.vaultCount := by
  cases (step_effect hstep).registry with
  | added vault hfresh hvaults hindex hcount =>
      rw [hcount]
      exact Nat.le_succ _
  | kept _ _ hcount _ => exact hcount.ge
  | updated _ _ _ _ _ hcount _ => exact hcount.ge
  | removed _ _ _ hcount _ => exact hcount.ge

omit [DecidableEq A] [DecidableEq X] in
/-- A vault with nothing left is never charged. -/
theorem evaluateEviction_empty {now at_ remaining payable : Nat} :
    evaluateEviction cfg now (.rent 0 at_) ≠ .charge remaining payable := by
  simp only [evaluateEviction, Nat.zero_le, if_true]
  split <;> nofun

/-- **A tombstone puts its block on record.** -/
theorem Tombstones.onRecord {id b : Nat} (h : Tombstones cfg id b s op s') (hreg : Registered cfg s) :
    OnRecord cfg id b s' := by
  obtain ⟨vault, hvault, htomb⟩ := h.after
  have hbefore : ∀ old, s.vaults id = some old → old.capabilities.isTombstoned = false := by
    intro old hold
    rw [← Bool.not_eq_true]
    exact fun htrue => h.before ⟨old, hold, htrue⟩
  refine ⟨?_, fun v hv => ?_⟩
  · exact (hreg.step h.step_eq).counted hvault
  obtain rfl : vault = v := Option.some.inj (hvault.symm.trans hv)
  refine ⟨htomb, ?_⟩
  have hblock := h.block
  cases step_vaultMove id h.step_eq with
  | kept hkept => exact absurd htomb (by simp [hbefore vault (hkept ▸ hvault)])
  | created hid v hv hcaps =>
      obtain rfl := Option.some.inj (hvault.symm.trans hv)
      simp [hcaps, Capabilities.default, Capabilities.isTombstoned] at htomb
  | evicted hevictable hv =>
      obtain rfl := Option.some.inj (hvault.symm.trans hv)
      exact ⟨_, rfl, .inl (Option.some.inj hblock)⟩
  | charged hold hverdict hv =>
      obtain rfl := Option.some.inj (hvault.symm.trans hv)
      exact absurd htomb (by simp [hbefore _ hold])
  | surcharged v hold hv hcaps =>
      obtain rfl := Option.some.inj (hvault.symm.trans hv)
      simp [hcaps, Capabilities.untombstone, Capabilities.isTombstoned] at htomb
  | switched capabilities hold hv hsame =>
      obtain rfl := Option.some.inj (hvault.symm.trans hv)
      exact absurd htomb (by simp [hsame, hbefore _ hold])
  | deleted hv => simp [hv] at hvault

/-- **A step keeps the record**, when it neither adds a surcharge nor evicts the vault again. -/
theorem OnRecord.step {id b : Nat} (h : OnRecord cfg id b s) (hsur : NoSurcharge id op)
    (hnot : NotReclaimed cfg id s op) (hstep : step cfg s op = some s') : OnRecord cfg id b s' := by
  refine ⟨h.known.trans (vaultCount_le_of_step hstep), fun vault hvault => ?_⟩
  cases step_vaultMove id hstep with
  | kept hkept => exact h.record vault (hkept ▸ hvault)
  | created hid v hv hcaps => exact absurd h.known (by omega)
  | evicted hevictable hv =>
      obtain rfl := Option.some.inj (hvault.symm.trans hv)
      refine ⟨rfl, _, rfl, .inr ?_⟩
      -- A vault that can still be evicted has no clock to keep.
      by_contra hpos
      exact hnot rfl (Nat.pos_of_ne_zero hpos) _ _ hevictable
  | charged hold hverdict hv =>
      obtain ⟨-, at_, hdeposit, -⟩ := h.record _ hold
      rw [hdeposit] at hverdict
      exact absurd hverdict evaluateEviction_empty
  | surcharged v hold hv hcaps => exact absurd rfl hsur
  | switched capabilities hold hv hsame =>
      obtain rfl := Option.some.inj (hvault.symm.trans hv)
      obtain ⟨htomb, hrecord⟩ := h.record _ hold
      exact ⟨hsame.trans htomb, hrecord⟩
  | deleted hv => simp [hv] at hvault

/-- A vault on record is deletable on time. -/
theorem OnRecord.deletable {id b : Nat} (h : OnRecord cfg id b s) :
    DeletableFrom cfg id (b + cfg.tombstoneDuration) s := by
  intro now origin address hnow
  unfold deleteTombstoned
  refine .bind (.ofOption nofun) fun reward t ht => ?_
  obtain ⟨-, rfl⟩ := Call.ofOption_ok.mp ht
  refine .bind (.get_bind (.ofOption nofun)) fun vault t ht => ?_
  obtain ⟨hvault, rfl⟩ := vaultInfo_ok.mp ht
  have hexpired : evaluateDeletion cfg now vault.deposit = true := by
    obtain ⟨-, at_, hdeposit, hclock⟩ := h.record vault hvault
    rw [hdeposit]
    simp only [evaluateDeletion, decide_eq_true_eq]
    omega
  refine .bind (.ensure nofun) fun _ t _ => .bind ?_ fun _ t _ => ?_
  · rw [hexpired]
    simp only [Call.ensure, if_true]
    exact .pure ()
  · refine .get_bind (.bind (.zoom fun e _ => nofun) fun _ _ _ => .modify _)

omit [DecidableEq A] [DecidableEq X] in
/-- An eviction comes after the block on record. -/
theorem lt_of_evict {now amount at_ : Nat}
    (h : evaluateEviction cfg now (.rent amount at_) = .evict) : at_ < now := by
  by_contra hle
  simp [evaluateEviction, not_lt.mp hle] at h

/-- A deletion of a tombstoned vault within the duration is refused. -/
theorem deleteTombstoned_early {id now at_ amount : Nat} {reward : A} {vault : VaultInfo A X}
    (hvault : s.vaults id = some vault) (htomb : vault.capabilities.isTombstoned = true)
    (hdeposit : vault.deposit = .rent amount at_) (hearly : now - at_ < cfg.tombstoneDuration) :
    (deleteTombstoned cfg now (.signed reward) id none s).1 =
      .error (err .tombstoneDurationNotExceeded) := by
  have hnot : evaluateDeletion cfg now vault.deposit = false := by
    simp [hdeposit, evaluateDeletion, hearly]
  refine Call.error_of_outcome ?_
  simp only [deleteTombstoned, rewardAddress, Call.outcome_bind, Call.outcome_ofOption,
    vaultInfo_outcome, Call.outcome_ensure]
  simp [hvault, htomb, hnot]

/-- **A claim that evicts the vault again puts the deletion off.** -/
theorem not_deletableFrom_of_reclaim {id b now : Nat} {origin : RawOrigin A} {address : Option A}
    {vault : VaultInfo A X} {reward : A} (h : OnRecord cfg id b s) (hpos : 0 < cfg.tombstoneDuration)
    (hevictable : Evictable cfg s now origin id address vault reward)
    (hvault : s'.vaults id =
      some { vault with deposit := .rent 0 now, capabilities := vault.capabilities.setTombstoned }) :
    ¬ DeletableFrom cfg id (b + cfg.tombstoneDuration) s' := by
  intro hdeletable
  obtain ⟨-, at_, hdeposit, hclock⟩ := h.record vault hevictable.vault_eq
  have hlater : at_ < now := lt_of_evict (hdeposit ▸ hevictable.verdict)
  -- The first block at which the vault should be deletable, or the block of
  -- the claim if that is later.
  have hearly : max now (b + cfg.tombstoneDuration) - now < cfg.tombstoneDuration := by
    omega
  exact hdeletable _ (.signed reward) none (le_max_right _ _)
    (deleteTombstoned_early hvault rfl rfl hearly)

/-- A claim that passes its checks evicts. -/
theorem claimSurcharge_evicts {now id : Nat} {origin : RawOrigin A} {address : Option A}
    {vault : VaultInfo A X} {reward : A} (h : Evictable cfg s now origin id address vault reward) :
    claimSurcharge cfg now origin id address s =
      (.ok (), State.putVault { s with ledger := evictedLedger cfg s id reward } id
        { vault with deposit := .rent 0 now, capabilities := vault.capabilities.setTombstoned }) := by
  simp only [claimSurcharge, Call.bind_ok, Call.ofOption_ok, vaultInfo_ok, h.claimed,
    Option.some.injEq]
  refine ⟨_, _, ⟨rfl, rfl⟩, _, _, ⟨h.vault_eq, rfl⟩, ?_⟩
  simp only [h.verdict, Call.get_bind, Call.bind_ok, onLedger_ok, Currency.transfer_ok,
    Call.modify_ok]
  exact ⟨(), _, ⟨_, ⟨h.paid, rfl⟩, rfl⟩, rfl⟩

/-- A step that evicts the vault again leaves it in a state in which it is not deletable on time. -/
theorem OnRecord.lost {id b : Nat} (h : OnRecord cfg id b s) (hlost : ¬ NotReclaimed cfg id s op) :
    ∃ s', Vault.step cfg s op = some s' ∧ ¬ DeletableFrom cfg id (b + cfg.tombstoneDuration) s' := by
  cases op with
  | claimSurcharge now origin id' address =>
      simp only [NotReclaimed] at hlost
      push Not at hlost
      obtain ⟨rfl, hpos, vault, reward, hevictable⟩ := hlost
      refine ⟨_, rfl, not_deletableFrom_of_reclaim h hpos hevictable ?_⟩
      show (dispatch (claimSurcharge cfg now origin id' address) s).vaults id' = _
      rw [dispatch, claimSurcharge_evicts hevictable]
      exact Function.update_self ..
  | _ => exact absurd trivial hlost

/-- **A tombstoned vault stays deletable on time exactly as long as no claim evicts it again**:
    after any run in which an operation of block `b` tombstones the vault, and along every run after
    it without a surcharge for the vault. -/
theorem deletable_on_time_iff (cfg : Config A X F) (ledger : Ledger A X) (factory : F)
    {before after : List (Op A X)}
    {t : State A X F} {id b : Nat}
    (hbefore : run (step cfg) (State.genesis ledger factory) before = some s)
    (htomb : Tombstones cfg id b s op t) (hafter : ∀ op ∈ after, NoSurcharge id op) :
    Throughout (step cfg) (DeletableFrom cfg id (b + cfg.tombstoneDuration)) t after ↔
      Along (step cfg) (NotReclaimed cfg id) t after := by
  have hreg : Registered cfg s := Registered.of_run ledger factory hbefore
  have hsur : Along (step cfg) (fun _ op => NoSurcharge id op ∧ True) t after :=
    Along.and_forall (along_true t after) hafter
  -- What is on record is the block of the first eviction; a later one that overwrites it loses it
  -- for good.
  refine throughout_iff_along_of (I := OnRecord cfg id b) (fun h => h.deletable) ?_ ?_
    (htomb.onRecord hreg) hsur
  · intro s op s' h hop hnot hstep
    exact h.step hop.1 hnot hstep
  · intro s op h _ hlost
    exact h.lost hlost

/-- A vault is created in block `0` and tombstoned in block `10`. -/
def tombstoneOp : Op Nat Nat := .claimSurcharge 10 (.signed 7) 1 none

def tombstoneCreation : List (Op Nat Nat) := [.create 0 (.signed 7) sampleVault 15]

theorem tombstoneOp_tombstones : ∃ s t, run (step sample) sampleGenesis tombstoneCreation = some s ∧
    Tombstones sample 1 10 s tombstoneOp t := by
  have hview : (run (step sample) sampleGenesis tombstoneCreation).bind (fun s =>
      (step sample s tombstoneOp).map fun t => ((s.vaults 1).map fun v => v.capabilities.isTombstoned,
        (t.vaults 1).map fun v => v.capabilities.isTombstoned)) = some (some false, some true) := by
    decide +kernel
  obtain ⟨s, hs, hview⟩ := Option.bind_eq_some_iff.mp hview
  obtain ⟨t, ht, hview⟩ := Option.map_eq_some_iff.mp hview
  obtain ⟨hbefore, hafter⟩ := Prod.mk.inj hview
  refine ⟨s, t, hs, ht, rfl, ?_, Option.map_eq_some_iff.mp hafter⟩
  rintro ⟨vault, hvault, htomb⟩
  rw [hvault, Option.map_some, htomb] at hbefore
  cases hbefore

/-- A claim in the block of the tombstone changes nothing: the vault is
    deletable from block `15` on. -/
theorem deletable_on_time_sample : ∃ t, Tombstoned t 1 ∧
    Throughout (step sample) (DeletableFrom sample 1 15) t
      [.claimSurcharge 10 (.signed 8) 1 none] := by
  obtain ⟨s, t, hs, htomb⟩ := tombstoneOp_tombstones
  have hrecord : OnRecord sample 1 10 t := htomb.onRecord (Registered.of_run _ _ hs)
  refine ⟨t, htomb.after, (deletable_on_time_iff sample _ _ hs htomb ?_).mpr ⟨?_, fun _ _ => trivial⟩⟩
  · intro op hop
    rw [List.mem_singleton.mp hop]
    trivial
  · intro _ _ vault reward hevictable
    obtain ⟨-, at_, hdeposit, rfl | hzero⟩ := hrecord.record vault hevictable.vault_eq
    · exact absurd (lt_of_evict (hdeposit ▸ hevictable.verdict)) (lt_irrefl _)
    · cases hzero

/-- Somebody else claims in block `14`, and the deletion is refused in block `15`. -/
theorem deletable_on_time_fails :
    ¬ ∀ (before after : List (Op Nat Nat)) op (s t u : State Nat Nat Nat) id b now origin address,
      Chronological (before ++ op :: after ++ [.deleteTombstoned now origin id address]) →
      run (step sample) sampleGenesis before = some s → Tombstones sample id b s op t →
      (∀ op ∈ after, NoSurcharge id op) → run (step sample) t after = some u →
      b + sample.tombstoneDuration ≤ now →
      (deleteTombstoned sample now origin id address).Avoids
        (err .tombstoneDurationNotExceeded) u := by
  intro h
  obtain ⟨s, t, hs, htomb⟩ := tombstoneOp_tombstones
  have hview : (run (step sample) sampleGenesis
      (tombstoneCreation ++ [tombstoneOp, .claimSurcharge 14 (.signed 8) 1 none])).map
        (fun u => (deleteTombstoned sample 15 (.signed 9) 1 none u).1) =
      some (.error (err .tombstoneDurationNotExceeded)) := by
    decide +kernel
  obtain ⟨u, hu, hrefused⟩ := Option.map_eq_some_iff.mp hview
  obtain ⟨s', hs', hrest⟩ := run_append.mp hu
  obtain rfl : s = s' := Option.some.inj (hs.symm.trans hs')
  obtain ⟨t', ht', hclaim⟩ := run_cons.mp hrest
  obtain rfl : t = t' := Option.some.inj (htomb.step_eq.symm.trans ht')
  refine h tombstoneCreation [.claimSurcharge 14 (.signed 8) 1 none] tombstoneOp s t u 1 10 15
    (.signed 9) none
    (by decide) hs htomb ?_ hclaim (by decide) hrefused
  intro op hop
  rw [List.mem_singleton.mp hop]
  trivial

end Vault
end Composable
