import Composable.Vault.Registry

/-!
# `Vault.Deletion` — tombstoned vaults and the claims on them

A vault is deleted from its rent and the block number alone. Nothing is lost by that when only empty
vaults are tombstoned: a tombstoned vault takes no deposits, so the LP tokens that were not issued
when it was evicted are not issued when it is deleted (`TombstonedEmpty`). `claimSurcharge` does not
look at the issuance, and the run `dispossessionOps` deletes a vault that owes everything it has.
-/

namespace Composable
namespace Vault

variable {A X F : Type} [DecidableEq A] [DecidableEq X]
variable {cfg : Config A X F} {s s' : State A X F} {op : Op A X}

/-- No LP token of a tombstoned vault is issued. -/
def TombstonedEmpty (s : State A X F) : Prop :=
  ∀ id vault, s.vaults id = some vault → vault.capabilities.isTombstoned = true →
    s.ledger.issuance vault.lpTokenId = 0

/-- Only empty vaults are tombstoned: an eviction finds no LP token issued. -/
def EvictsEmpty (cfg : Config A X F) (s : State A X F) : Op A X → Prop
  | .claimSurcharge now origin id address =>
      ∀ vault reward, Evictable cfg s now origin id address vault reward →
        s.ledger.issuance vault.lpTokenId = 0
  | _ => True

omit [DecidableEq A] [DecidableEq X] in
/-- A step that issues nothing and whose tombstoned vaults were tombstoned before, or are empty. -/
theorem TombstonedEmpty.of_old (h : TombstonedEmpty s)
    (hissuance : ∀ x, s'.ledger.issuance x ≤ s.ledger.issuance x)
    (hold : ∀ {id vault'}, s'.vaults id = some vault' → vault'.capabilities.isTombstoned = true →
      s.ledger.issuance vault'.lpTokenId = 0 ∨ ∃ vault, s.vaults id = some vault ∧
        vault.capabilities.isTombstoned = true ∧ vault'.lpTokenId = vault.lpTokenId) :
    TombstonedEmpty s' := by
  intro id vault' hvault htomb
  have hzero : s.ledger.issuance vault'.lpTokenId = 0 := by
    rcases hold hvault htomb with hzero | ⟨vault, hv, ht, hlp⟩
    · exact hzero
    · rw [hlp]
      exact h id vault hv ht
  exact Nat.le_zero.mp (hzero ▸ hissuance vault'.lpTokenId)

omit [DecidableEq A] [DecidableEq X] in
/-- Rewriting one vault, where the new capabilities are tombstoned only if the old ones were. -/
theorem TombstonedEmpty.putVault {id : Nat} {vault vault' : VaultInfo A X} {l : Ledger A X}
    (h : TombstonedEmpty s) (hvault : s.vaults id = some vault)
    (hissuance : ∀ x, l.issuance x ≤ s.ledger.issuance x)
    (hlp : vault'.lpTokenId = vault.lpTokenId)
    (htomb : vault'.capabilities.isTombstoned = true →
      s.ledger.issuance vault.lpTokenId = 0 ∨ vault.capabilities.isTombstoned = true) :
    TombstonedEmpty (State.putVault { s with ledger := l } id vault') := by
  refine h.of_old hissuance fun {id' v} hv ht => ?_
  replace hv : Function.update s.vaults id (some vault') id' = some v := hv
  rw [Function.update_apply] at hv
  split at hv
  · rename_i hid
    obtain rfl := Option.some.inj hv
    rcases htomb ht with hzero | hold
    · exact .inl (hlp ▸ hzero)
    · exact .inr ⟨vault, hid ▸ hvault, hold, hlp⟩
  · exact .inr ⟨v, hv, ht, rfl⟩

/-- A deposit mints the LP token of a vault that is not tombstoned, and of no other. -/
theorem TombstonedEmpty.deposited {sender : A} {id amount lp : Nat} {vault : VaultInfo A X}
    (hreg : Registered cfg s) (h : TombstonedEmpty s) (hvault : s.vaults id = some vault)
    (hallowed : vault.capabilities.depositsAllowed = true) :
    TombstonedEmpty { s with ledger := depositedLedger cfg s.ledger id vault sender amount lp } := by
  intro id' vault' hvault' htomb
  have hne : vault'.lpTokenId ≠ vault.lpTokenId := by
    intro heq
    obtain rfl := hreg.distinct hvault' hvault heq
    obtain rfl := Option.some.inj (hvault'.symm.trans hvault)
    have ht : vault'.capabilities.tombstoned = true := htomb
    simp [Capabilities.depositsAllowed, Capabilities.isInactive, ht] at hallowed
  show s.ledger.issuance vault'.lpTokenId + (if vault'.lpTokenId = vault.lpTokenId then lp else 0) = 0
  rw [if_neg hne]
  exact h id' vault' hvault' htomb

/-- **A step that evicts only empty vaults keeps tombstoned vaults empty.** -/
theorem TombstonedEmpty.step (hreg : Registered cfg s) (h : TombstonedEmpty s)
    (hop : EvictsEmpty cfg s op) (hstep : step cfg s op = some s') : TombstonedEmpty s' := by
  cases step_effect hstep with
  | created deposit rent hcount hsum hlp =>
      refine h.of_old (fun _ => Nat.le_refl _) fun {id v} hv ht => ?_
      replace hv : Function.update s.vaults (s.vaultCount + 1) (some _) id = some v := hv
      rw [Function.update_apply] at hv
      split at hv
      · -- The new vault starts with every capability.
        obtain rfl := Option.some.inj hv
        cases ht
      · exact .inr ⟨v, hv, ht, rfl⟩
  | deposited hdeposited =>
      exact TombstonedEmpty.deposited hreg h hdeposited.vault_eq hdeposited.allowed
  | withdrawn hwithdrawn =>
      exact h.of_old (fun _ => Nat.sub_le _ _) fun hv ht => .inr ⟨_, hv, ht, rfl⟩
  | unpaid hmin hvault hworth hburnt hrefused =>
      exact h.of_old (fun _ => Nat.sub_le _ _) fun hv ht => .inr ⟨_, hv, ht, rfl⟩
  | evicted hevictable =>
      exact h.putVault hevictable.vault_eq (fun _ => Nat.le_refl _) rfl
        fun _ => .inl (hop _ _ hevictable)
  | charged reward hvault hverdict =>
      exact h.putVault hvault (fun _ => Nat.le_refl _) rfl fun ht => .inr ht
  | surcharged deposit hvault =>
      exact h.putVault hvault (fun _ => Nat.le_refl _) rfl fun ht => nomatch ht
  | stopped hvault => exact h.putVault hvault (fun _ => Nat.le_refl _) rfl fun ht => .inr ht
  | started hvault => exact h.putVault hvault (fun _ => Nat.le_refl _) rfl fun ht => .inr ht
  | deleted hdeletable =>
      refine h.of_old (fun _ => Nat.le_refl _) fun {id v} hv ht => ?_
      replace hv : Function.update s.vaults _ none id = some v := hv
      rw [Function.update_apply] at hv
      split at hv
      · cases hv
      · exact .inr ⟨v, hv, ht, rfl⟩
  | _ => exact h.of_old (fun _ => Nat.le_refl _) fun hv ht => .inr ⟨_, hv, ht, rfl⟩

/-- **When evictions find their vault empty, no deletion takes anything from LP holders**: in every
    state of such a run, a deletion that succeeds is of a vault without issued LP tokens or without
    assets. -/
theorem deleteTombstoned_owes_nothing (ledger : Ledger A X) (factory : F) (ops : List (Op A X))
    (hops : Along (step cfg) (EvictsEmpty cfg) (State.genesis ledger factory) ops)
    (hrun : run (step cfg) (State.genesis ledger factory) ops = some s)
    {now : Nat} {origin : RawOrigin A} {id : Nat} {address : Option A}
    (hdelete : deleteTombstoned cfg now origin id address s = (.ok (), s')) :
    ∃ vault, s.vaults id = some vault ∧
      (s.ledger.issuance vault.lpTokenId = 0 ∨ assets cfg s id vault = 0) := by
  have hinv : Registered cfg s ∧ TombstonedEmpty s := by
    refine run_invariant (I := fun s => Registered cfg s ∧ TombstonedEmpty s)
      (fun h hop hstep => ⟨h.1.step hstep, TombstonedEmpty.step h.1 h.2 hop hstep⟩)
      ⟨Registered.genesis ledger factory, fun _ _ h => nomatch h⟩ hops hrun
  -- What is deleted is tombstoned, and so was empty when it became so.
  obtain ⟨vault, reward, hdeletable, -⟩ := deleteTombstoned_ok.mp hdelete
  exact ⟨vault, hdeletable.vault_eq, .inl (hinv.2 id vault hdeletable.vault_eq hdeletable.tombstoned)⟩

/-- An empty vault is created and evicted. -/
def emptyEvictionOps : List (Op Nat Nat) :=
  [.create 0 (.signed 7) sampleVault 15, .claimSurcharge 10 (.signed 7) 1 none]

theorem emptyEvictionOps_along :
    Along (step sample) (EvictsEmpty sample) sampleGenesis emptyEvictionOps := by
  refine ⟨trivial, fun s hs => ⟨fun vault reward h => ?_, fun _ _ => trivial⟩⟩
  have hview : ((step sample sampleGenesis (.create 0 (.signed 7) sampleVault 15)).bind fun s =>
      (s.vaults 1).map fun v => s.ledger.issuance v.lpTokenId) = some 0 := by
    decide +kernel
  simpa [Option.mem_def.mp hs, h.vault_eq] using hview

/-- The evicted vault can be deleted, and nothing of it was issued. -/
theorem deleteTombstoned_owes_nothing_sample :
    ∃ s s', run (step sample) sampleGenesis emptyEvictionOps = some s ∧
      deleteTombstoned sample 20 (.signed 7) 1 none s = (.ok (), s') ∧
      ∃ vault, s.vaults 1 = some vault ∧
        (s.ledger.issuance vault.lpTokenId = 0 ∨ assets sample s 1 vault = 0) := by
  have hview : (run (step sample) sampleGenesis emptyEvictionOps).map
      (fun s => (deleteTombstoned sample 20 (.signed 7) 1 none s).1.toBool) = some true := by
    decide +kernel
  obtain ⟨s, hs, hok⟩ := Option.map_eq_some_iff.mp hview
  rcases hcall : deleteTombstoned sample 20 (.signed 7) 1 none s with ⟨_ | u, s'⟩
  · rw [hcall] at hok
    cases hok
  · exact ⟨s, s', hs, hcall, deleteTombstoned_owes_nothing _ _ _ emptyEvictionOps_along hs hcall⟩

/-- A vault with a deposit of `100` is evicted and deleted: its LP tokens are issued and its assets
    are there, but nobody can withdraw them any more. -/
def dispossessionOps : List (Op Nat Nat) :=
  [.create 0 (.signed 7) sampleVault 15, .deposit (.signed 7) 1 100,
    .claimSurcharge 10 (.signed 7) 1 none]

theorem deleteTombstoned_owes_something :
    ¬ ∀ ops s now origin id address s', run (step sample) sampleGenesis ops = some s →
      deleteTombstoned sample now origin id address s = (.ok (), s') →
      ∃ vault, s.vaults id = some vault ∧
        (s.ledger.issuance vault.lpTokenId = 0 ∨ assets sample s id vault = 0) := by
  intro h
  have hview : (run (step sample) sampleGenesis dispossessionOps).map
      (fun s => ((deleteTombstoned sample 20 (.signed 7) 1 none s).1.toBool,
        (s.vaults 1).map fun v => (s.ledger.issuance v.lpTokenId, assets sample s 1 v))) =
      some (true, some (100, 100)) := by
    decide +kernel
  obtain ⟨s, hs, hok⟩ := Option.map_eq_some_iff.mp hview
  simp only [Prod.mk.injEq] at hok
  rcases hcall : deleteTombstoned sample 20 (.signed 7) 1 none s with ⟨_ | u, s'⟩
  · rw [hcall] at hok
    exact nomatch hok.1
  · obtain ⟨vault, hvault, hzero⟩ := h _ s 20 _ 1 _ s' hs hcall
    rw [hvault, Option.map_some, Option.some.injEq, Prod.mk.injEq] at hok
    omega

end Vault
end Composable
