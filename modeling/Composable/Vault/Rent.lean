import Composable.Vault.Registry

/-!
# `Vault.Rent` — rent records and rent accounts

A vault on rent records what is left of its deposit, and the money lies in the rent account derived
from its id. `Rented` is the invariant of the four calls that touch either: record and balance
agree, and the rent accounts of vaults to come are empty.

It holds as long as no rent account takes part in a call (`KeepsOut`). `claimSurcharge` pays the
reward to whatever address an unsigned call names; when that is the rent account itself, the
transfer does nothing and the record is lowered all the same (`rents_match_money_fails`).

Charging often is charging once: rent is linear in the blocks passed, so a split of the time leaves
the record that a single charge leaves (`ChargedOnce`).
-/

namespace Composable
namespace Vault

variable {A X F : Type} [DecidableEq A] [DecidableEq X]

/-! ## The invariant -/

/-- What is expected of the configuration: rent accounts are different from each other and from the
    accounts of the deletion rewards, nothing is locked in them, and the existential deposit is a
    balance. -/
structure RentAccounts (cfg : Config A X F) : Prop where
  distinct : Set.InjOn cfg.rentAccount (Set.Iic u64Max)
  apart : ∀ id id', cfg.deletionRewardAccount id ≠ cfg.rentAccount id'
  unlocked : ∀ l id, l.reserved cfg.nativeAsset (cfg.rentAccount id) = 0 →
    cfg.currency.reducible l cfg.nativeAsset (cfg.rentAccount id) false =
      l.free cfg.nativeAsset (cfg.rentAccount id)
  deposit_le : cfg.existentialDeposit ≤ u128Max

/-- Native currency in the rent account of a vault. -/
def rentBalance (cfg : Config A X F) (l : Ledger A X) (id : Nat) : Nat :=
  l.balance cfg.nativeAsset (cfg.rentAccount id)

/-- Every vault on rent has its recorded amount in its rent account. -/
def RentMatches (cfg : Config A X F) (s : State A X F) : Prop :=
  ∀ id vault amount at_, s.vaults id = some vault → vault.deposit = .rent amount at_ →
    rentBalance cfg s.ledger id = amount

/-- The invariant of the calls on rent. -/
structure Rented (cfg : Config A X F) (s : State A X F) : Prop where
  within : s.vaultCount ≤ u64Max
  counted : ∀ {id vault}, s.vaults id = some vault → id ≤ s.vaultCount
  future : ∀ {id}, s.vaultCount < id → id ≤ u64Max → rentBalance cfg s.ledger id = 0
  unreserved : ∀ id, s.ledger.reserved cfg.nativeAsset (cfg.rentAccount id) = 0
  paid : RentMatches cfg s
  bounded : ∀ {id vault amount at_}, s.vaults id = some vault → vault.deposit = .rent amount at_ →
    amount ≤ cfg.existentialDeposit

/-- The calls on rent. -/
def OnRent : Op A X → Prop
  | .create .. => True
  | .claimSurcharge .. => True
  | .addSurcharge .. => True
  | .deleteTombstoned .. => True
  | _ => False

/-- No rent account takes part in the call: none signs it, none receives its reward. -/
def KeepsOut (cfg : Config A X F) : Op A X → Prop
  | .create _ origin _ _ => ∀ id, origin ≠ .signed (cfg.rentAccount id)
  | .addSurcharge _ origin _ _ => ∀ id, origin ≠ .signed (cfg.rentAccount id)
  | .claimSurcharge _ origin _ address =>
      ∀ id, rewardAddress origin address ≠ some (cfg.rentAccount id)
  | .deleteTombstoned _ origin _ address =>
      ∀ id, rewardAddress origin address ≠ some (cfg.rentAccount id)
  | _ => True

variable {cfg : Config A X F} {s s' : State A X F} {l : Ledger A X}

omit [DecidableEq A] [DecidableEq X] in
theorem Rented.genesis {ledger : Ledger A X} {factory : F}
    (hempty : ∀ id, ledger.balance cfg.nativeAsset (cfg.rentAccount id) = 0) :
    Rented cfg (State.genesis ledger factory) where
  within := Nat.zero_le _
  counted := nofun
  future _ _ := hempty _
  unreserved id := by
    have h := hempty id
    unfold Ledger.balance at h
    exact Nat.eq_zero_of_add_eq_zero_left h
  paid := nofun
  bounded := nofun

omit [DecidableEq A] [DecidableEq X] in
/-- A state in which every vault is an old one with an untouched rent account, or one whose record
    was checked. -/
theorem Rented.of_old (h : Rented cfg s) (hcount : s.vaultCount ≤ s'.vaultCount)
    (hwithin : s'.vaultCount ≤ u64Max) (hreserved : s'.ledger.reserved = s.ledger.reserved)
    (hfuture : ∀ id, s'.vaultCount < id → id ≤ u64Max →
      rentBalance cfg s'.ledger id = rentBalance cfg s.ledger id)
    (hold : ∀ {id vault}, s'.vaults id = some vault →
      (s.vaults id = some vault ∧ rentBalance cfg s'.ledger id = rentBalance cfg s.ledger id) ∨
        (id ≤ s'.vaultCount ∧ ∀ amount at_, vault.deposit = .rent amount at_ →
          rentBalance cfg s'.ledger id = amount ∧ amount ≤ cfg.existentialDeposit)) :
    Rented cfg s' where
  within := hwithin
  counted hvault := by
    rcases hold hvault with ⟨hv, _⟩ | ⟨hle, _⟩
    · exact (h.counted hv).trans hcount
    · exact hle
  future hid hle := by
    rw [hfuture _ hid hle]
    exact h.future (Nat.lt_of_le_of_lt hcount hid) hle
  unreserved id := by
    rw [hreserved]
    exact h.unreserved id
  paid id vault amount at_ hvault hdeposit := by
    rcases hold hvault with ⟨hv, hsame⟩ | ⟨_, hnew⟩
    · rw [hsame]
      exact h.paid id vault amount at_ hv hdeposit
    · exact (hnew amount at_ hdeposit).1
  bounded hvault hdeposit := by
    rcases hold hvault with ⟨hv, _⟩ | ⟨_, hnew⟩
    · exact h.bounded hv hdeposit
    · exact (hnew _ _ hdeposit).2

omit [DecidableEq A] [DecidableEq X] in
/-- Rewriting one vault, when the other rent accounts keep what they have. -/
theorem Rented.put (h : Rented cfg s) {id : Nat} {vault vault' : VaultInfo A X}
    (hvault : s.vaults id = some vault) (hreserved : l.reserved = s.ledger.reserved)
    (hothers : ∀ id', id' ≤ u64Max → id' ≠ id → rentBalance cfg l id' = rentBalance cfg s.ledger id')
    (hdeposit : ∀ amount at_, vault'.deposit = .rent amount at_ →
      rentBalance cfg l id = amount ∧ amount ≤ cfg.existentialDeposit) :
    Rented cfg (State.putVault { s with ledger := l } id vault') := by
  have hcounted := h.counted hvault
  refine h.of_old (Nat.le_refl _) h.within hreserved (fun id' hid' hle => ?_) fun {id' v} hv => ?_
  · refine hothers id' hle ?_
    rintro rfl
    exact absurd hcounted (Nat.not_le.mpr hid')
  · replace hv : Function.update s.vaults id (some vault') id' = some v := hv
    rw [Function.update_apply] at hv
    split at hv
    · rename_i hid
      subst hid
      obtain rfl := Option.some.inj hv
      exact .inr ⟨hcounted, hdeposit⟩
    · exact .inl ⟨hv, hothers id' ((h.counted hv).trans h.within) ‹_›⟩

omit [DecidableEq A] [DecidableEq X] in
/-- Ids of vaults are of 64 bits. -/
theorem Rented.id_le (h : Rented cfg s) {id : Nat} {vault : VaultInfo A X}
    (hvault : s.vaults id = some vault) : id ≤ u64Max := (h.counted hvault).trans h.within

/-! ## What the transfers do to rent accounts -/

/-- A transfer between other accounts. -/
theorem rentBalance_move_of_ne {a b : A} {n id : Nat} (ha : a ≠ cfg.rentAccount id)
    (hb : b ≠ cfg.rentAccount id) :
    rentBalance cfg (l.move cfg.nativeAsset a b n) id = rentBalance cfg l id :=
  Ledger.balance_move_of_ne ha.symm hb.symm

/-- Money for one vault does not reach the rent account of another. -/
theorem rentBalance_deposit_of_ne (hcfg : RentAccounts cfg) {a : A} {n id id' : Nat}
    (ha : ∀ id, a ≠ cfg.rentAccount id) (hle : id ≤ u64Max) (hle' : id' ≤ u64Max) (hid : id' ≠ id) :
    rentBalance cfg (l.move cfg.nativeAsset a (cfg.rentAccount id) n) id' =
      rentBalance cfg l id' :=
  rentBalance_move_of_ne (ha id') fun heq => hid (hcfg.distinct hle hle' heq).symm

/-- A reward out of one rent account leaves the others alone. -/
theorem rentBalance_reward_of_ne (hcfg : RentAccounts cfg) {b : A} {n id id' : Nat}
    (hb : ∀ id, b ≠ cfg.rentAccount id) (hle : id ≤ u64Max) (hle' : id' ≤ u64Max) (hid : id' ≠ id) :
    rentBalance cfg (l.move cfg.nativeAsset (cfg.rentAccount id) b n) id' =
      rentBalance cfg l id' :=
  rentBalance_move_of_ne (fun heq => hid (hcfg.distinct hle hle' heq).symm) (hb id')

/-- The reward leaves the rent account it is paid from. -/
theorem rentBalance_reward {b : A} {n id : Nat} (hb : b ≠ cfg.rentAccount id)
    (hn : n ≤ l.free cfg.nativeAsset (cfg.rentAccount id)) :
    rentBalance cfg (l.move cfg.nativeAsset (cfg.rentAccount id) b n) id =
      rentBalance cfg l id - n :=
  Ledger.balance_move_from hb.symm hn

/-! ## The calls -/

/-- Both outcomes of a call keep the rent accounts in order. -/
abbrev KeepsRent (cfg : Config A X F) {α : Type}
    (r : Except (DispatchError Error) α × State A X F) : Prop :=
  Call.Outcome (fun _ => Rented cfg) (fun e t => e = .panic ∨ Rented cfg t) r

/-- A vault is created with the rent it starts from. -/
theorem Rented.created (hcfg : RentAccounts cfg) (h : Rented cfg s) {now : Nat} {sender : A}
    {config : VaultConfig A X} {amount : Nat} {lpTokenId : X} {factory : F}
    (hsender : ∀ id, sender ≠ cfg.rentAccount id) (hbound : s.vaultCount < u64Max) :
    Rented cfg { s.addVault lpTokenId factory (depositFromBalance cfg now amount) config with
      ledger := (s.ledger.move cfg.nativeAsset sender
          (cfg.deletionRewardAccount (s.vaultCount + 1)) cfg.creationDeposit).move cfg.nativeAsset
        sender (cfg.rentAccount (s.vaultCount + 1)) amount } := by
  -- The deletion reward reaches no rent account.
  have hfirst : ∀ id, rentBalance cfg (s.ledger.move cfg.nativeAsset sender
      (cfg.deletionRewardAccount (s.vaultCount + 1)) cfg.creationDeposit) id =
        rentBalance cfg s.ledger id := by
    intro id
    exact rentBalance_move_of_ne (hsender id) (hcfg.apart _ id)
  have hothers : ∀ id, id ≤ u64Max → id ≠ s.vaultCount + 1 → rentBalance cfg
      ((s.ledger.move cfg.nativeAsset sender (cfg.deletionRewardAccount (s.vaultCount + 1))
        cfg.creationDeposit).move
        cfg.nativeAsset sender (cfg.rentAccount (s.vaultCount + 1)) amount) id =
          rentBalance cfg s.ledger id := by
    intro id hle hid
    exact (rentBalance_deposit_of_ne hcfg hsender hbound hle hid).trans (hfirst id)
  refine h.of_old (Nat.le_succ _) hbound rfl (fun id hid hle => hothers id hle (Nat.ne_of_gt hid))
    fun {id v} hv => ?_
  replace hv : Function.update s.vaults (s.vaultCount + 1) (some _) id = some v := hv
  rw [Function.update_apply] at hv
  split at hv
  · rename_i hid
    subst hid
    obtain rfl := Option.some.inj hv
    refine .inr ⟨Nat.le_refl _, fun amount' at_ hdeposit => ?_⟩
    replace hdeposit : depositFromBalance cfg now amount = .rent amount' at_ := hdeposit
    unfold depositFromBalance at hdeposit
    split at hdeposit
    · cases hdeposit
    · -- The rent account was empty, since its vault is new.
      cases hdeposit
      have hempty := h.future (Nat.lt_succ_self s.vaultCount) hbound
      refine ⟨?_, Nat.le_of_not_lt ‹_›⟩
      refine (Ledger.balance_move_to (hsender _)).trans ?_
      have hzero := (hfirst (s.vaultCount + 1)).trans hempty
      unfold rentBalance at hzero
      rw [hzero, Nat.zero_add]
  · exact .inl ⟨hv, hothers id (h.id_le hv) ‹_›⟩

theorem createExtrinsic_keeps (hcfg : RentAccounts cfg) (h : Rented cfg s) {now : Nat}
    {origin : RawOrigin A} {config : VaultConfig A X} {amount : Nat}
    (hout : ∀ id, origin ≠ .signed (cfg.rentAccount id)) :
    KeepsRent cfg (createExtrinsic cfg now origin config amount s) := by
  simp only [KeepsRent, createExtrinsic, create, doCreateVault, Call.outcome_transactional,
    Call.outcome_bind, ensureSigned_outcome, Call.outcome_ensure, Call.get_bind,
    Call.outcome_ofOption]
  refine ⟨fun sender hsender => ?_, fun _ => .inr h⟩
  refine ⟨fun _ => ⟨fun _ => ⟨fun hbound => ?_, fun _ => .inr h⟩, fun _ => .inr h⟩, fun _ => .inr h⟩
  refine ⟨fun _ _ => ⟨fun _ => ?_, fun _ => .inr h⟩, fun _ => .inr h⟩
  cases cfg.currencyFactory.create s.factory .lpTokens with
  | error e => exact .inr h
  | ok r =>
      simp only [Call.outcome_bind, Call.outcome_modify, Call.outcome_pure, onLedger_outcome,
        Currency.transfer_outcome]
      refine ⟨fun _ => ⟨fun _ => ?_, fun _ _ => .inr h⟩, fun _ _ => .inr h⟩
      refine h.created hcfg (fun id heq => ?_) hbound
      exact hout id (heq ▸ hsender)

theorem claimSurcharge_keeps (hcfg : RentAccounts cfg) (h : Rented cfg s) {now : Nat}
    {origin : RawOrigin A} {id : Nat} {address : Option A}
    (hout : ∀ id, rewardAddress origin address ≠ some (cfg.rentAccount id)) :
    KeepsRent cfg (claimSurcharge cfg now origin id address s) := by
  simp only [KeepsRent, claimSurcharge, Call.outcome_bind, Call.outcome_ofOption, vaultInfo_outcome]
  refine ⟨fun reward hreward => ⟨fun vault hvault => ?_, fun _ => .inr h⟩, fun _ => .inr h⟩
  have hne : ∀ id, reward ≠ cfg.rentAccount id := by
    intro id heq
    exact hout id (heq ▸ hreward)
  cases hverdict : evaluateEviction cfg now vault.deposit with
  | exempt => exact h
  | evict =>
      simp only [Call.get_bind, Call.outcome_bind, onLedger_outcome, Currency.transfer_outcome,
        Call.outcome_modify]
      refine ⟨fun _ => ?_, fun _ _ => .inr h⟩
      refine h.put hvault rfl (fun id' hle hid' =>
        rentBalance_reward_of_ne hcfg hne (h.id_le hvault) hle hid') ?_
      intro amount at_ hdeposit
      cases hdeposit
      -- All that is there is paid out.
      have hall := hcfg.unlocked s.ledger id (h.unreserved id)
      rw [rentBalance_reward (hne id) (Nat.le_of_eq hall), hall]
      refine ⟨?_, Nat.zero_le _⟩
      unfold rentBalance Ledger.balance
      rw [h.unreserved id]
      omega
  | charge remaining payable =>
      simp only [Call.outcome_bind, onLedger_outcome, Currency.transfer_outcome, Call.outcome_modify]
      refine ⟨fun hpaid => ?_, fun _ _ => .inr h⟩
      refine h.put hvault rfl (fun id' hle hid' =>
        rentBalance_reward_of_ne hcfg hne (h.id_le hvault) hle hid') ?_
      intro amount at_ hdeposit
      cases hdeposit
      have hfunded := cfg.currency.funded_of_transfer hpaid (hne id).symm
      rw [rentBalance_reward (hne id) hfunded]
      cases hold : vault.deposit with
      | existential =>
          rw [hold] at hverdict
          cases hverdict
      | rent current since =>
          rw [h.paid id vault current since hvault hold]
          have hle := h.bounded hvault hold
          rw [hold] at hverdict
          simp only [evaluateEviction] at hverdict
          split at hverdict
          · cases hverdict
          · split at hverdict <;> cases hverdict
            exact ⟨rfl, (Nat.sub_le _ _).trans hle⟩

theorem addSurcharge_keeps (hcfg : RentAccounts cfg) (h : Rented cfg s) {now : Nat}
    {origin : RawOrigin A} {id amount : Nat} (hout : ∀ id, origin ≠ .signed (cfg.rentAccount id)) :
    KeepsRent cfg (addSurcharge cfg now origin id amount s) := by
  simp only [KeepsRent, addSurcharge, Call.outcome_bind, ensureSigned_outcome, Call.outcome_ensure,
    vaultInfo_outcome]
  refine ⟨fun sender hsender => ⟨fun _ => ⟨fun vault hvault => ?_, fun _ => .inr h⟩,
    fun _ => .inr h⟩, fun _ => .inr h⟩
  have hne : ∀ id, sender ≠ cfg.rentAccount id := by
    intro id heq
    exact hout id (heq ▸ hsender)
  cases hold : vault.deposit with
  | existential => exact .inr h
  | rent current since =>
      simp only [Call.outcome_bind, onLedger_outcome, Currency.transfer_outcome, Call.outcome_ensure,
        Call.outcome_modify]
      refine ⟨fun _ => ⟨fun _ => ?_, fun _ => .inl trivial⟩, fun _ _ => .inr h⟩
      refine h.put hvault rfl (fun id' hle hid' =>
        rentBalance_deposit_of_ne hcfg hne (h.id_le hvault) hle hid') ?_
      intro amount' at_ hdeposit
      replace hdeposit : depositFromBalance cfg now (amount + current) = .rent amount' at_ := hdeposit
      unfold depositFromBalance at hdeposit
      split at hdeposit
      · cases hdeposit
      · cases hdeposit
        refine ⟨?_, Nat.le_of_not_lt ‹_›⟩
        refine (Ledger.balance_move_to (hne id)).trans ?_
        have hcurrent := h.paid id vault current since hvault hold
        unfold rentBalance at hcurrent
        rw [hcurrent, Nat.add_comm]

theorem deleteTombstoned_keeps (hcfg : RentAccounts cfg) (h : Rented cfg s) {now : Nat}
    {origin : RawOrigin A} {id : Nat} {address : Option A}
    (hout : ∀ id, rewardAddress origin address ≠ some (cfg.rentAccount id)) :
    KeepsRent cfg (deleteTombstoned cfg now origin id address s) := by
  simp only [KeepsRent, deleteTombstoned, Call.outcome_bind, Call.outcome_ofOption, vaultInfo_outcome,
    Call.outcome_ensure, Call.get_bind, onLedger_outcome, Currency.transfer_outcome,
    Call.outcome_modify]
  refine ⟨fun reward hreward => ⟨fun vault hvault => ?_, fun _ => .inr h⟩, fun _ => .inr h⟩
  refine ⟨fun _ => ⟨fun _ => ⟨fun _ => ?_, fun _ _ => .inr h⟩, fun _ => .inr h⟩, fun _ => .inr h⟩
  have hsame : ∀ id', rentBalance cfg (s.ledger.move cfg.nativeAsset
      (cfg.deletionRewardAccount id) reward (deletionReward cfg s id)) id' =
        rentBalance cfg s.ledger id' := by
    intro id'
    exact rentBalance_move_of_ne (hcfg.apart id id') fun heq => hout id' (heq ▸ hreward)
  refine h.of_old (Nat.le_refl _) h.within rfl (fun id' _ _ => hsame id') fun {id' v} hv => ?_
  replace hv : Function.update s.vaults id none id' = some v := hv
  rw [Function.update_apply] at hv
  split at hv
  · cases hv
  · exact .inl ⟨hv, hsame id'⟩

/-- **A call in which no rent account takes part keeps records and balances equal.** -/
theorem Rented.step (hcfg : RentAccounts cfg) (h : Rented cfg s) {op : Op A X}
    (hop : OnRent op ∧ KeepsOut cfg op) (hstep : step cfg s op = some s') : Rented cfg s' := by
  obtain ⟨hon, hout⟩ := hop
  cases op with
  | create now origin config amount =>
      exact Option.some.inj hstep ▸ dispatch_of_outcome h (createExtrinsic_keeps hcfg h hout)
  | claimSurcharge now origin id address =>
      exact Option.some.inj hstep ▸ dispatch_of_outcome h (claimSurcharge_keeps hcfg h hout)
  | addSurcharge now origin id amount =>
      exact Option.some.inj hstep ▸ dispatch_of_outcome h (addSurcharge_keeps hcfg h hout)
  | deleteTombstoned now origin id address =>
      exact Option.some.inj hstep ▸ dispatch_of_outcome h (deleteTombstoned_keeps hcfg h hout)
  | _ => exact absurd hon id

theorem Rented.run (hcfg : RentAccounts cfg) (h : Rented cfg s) {ops : List (Op A X)}
    (hops : ∀ op ∈ ops, OnRent op ∧ KeepsOut cfg op)
    (hrun : Composable.run (Vault.step cfg) s ops = some s') : Rented cfg s' := by
  refine run_invariant (C := fun _ op => (OnRent op ∧ KeepsOut cfg op) ∧
    True) (I := Rented cfg) ?_ h ?_ hrun
  · intro s op s' h hop hstep
    exact h.step hcfg hop.1 hstep
  · exact (along_true s ops).and_forall hops

/-! ## Charging often is charging once -/

/-- A claim on the surcharge of a vault. -/
structure Claim (A : Type) where
  now : Nat
  origin : RawOrigin A
  address : Option A

/-- A claim that goes through and does not evict the vault. -/
def charge (cfg : Config A X F) (id : Nat) (s : State A X F) (c : Claim A) :
    Option (State A X F) := do
  let vault ← s.vaults id
  if evaluateEviction cfg c.now vault.deposit = .evict then none
  else Call.success (claimSurcharge cfg c.now c.origin id c.address) s

/-- A single charge at the block `now` takes `s` to `s'`, as far as the vault
    and its rent account go. -/
def ChargedOnce (cfg : Config A X F) (id now : Nat) (vault : VaultInfo A X) (s s' : State A X F) :
    Prop :=
  match evaluateEviction cfg now vault.deposit with
  | .exempt => s'.vaults id = some vault ∧ rentBalance cfg s'.ledger id = rentBalance cfg s.ledger id
  | .charge remaining payable =>
      s'.vaults id = some { vault with deposit := .rent remaining now } ∧
        rentBalance cfg s'.ledger id + payable = rentBalance cfg s.ledger id
  | .evict => False

/-- However the time up to a block is split into charges of a vault, in the end they are one charge
    at that block, and the vault can be evicted at the same blocks as before. Block numbers are
    those of the runtimes, of 32 bits. -/
def SplitsEvenly (cfg : Config A X F) (s : State A X F) : Prop :=
  ∀ id vault c rest s', s.vaults id = some vault →
    (∀ d ∈ c :: rest, d.now < 2 ^ 32 ∧
      ∀ id, rewardAddress d.origin d.address ≠ some (cfg.rentAccount id)) →
    ((c :: rest).map Claim.now).Pairwise (· ≤ ·) →
    run (charge cfg id) s (c :: rest) = some s' →
      ChargedOnce cfg id ((rest.map Claim.now).getLastD c.now) vault s s' ∧
        ∀ vault', s'.vaults id = some vault' → ∀ m < 2 ^ 32,
          (evaluateEviction cfg m vault.deposit = .evict ↔
            evaluateEviction cfg m vault'.deposit = .evict)

omit [DecidableEq A] [DecidableEq X] in
/-- Nothing saturates for amounts and block numbers that fit. -/
theorem evaluateEviction_rent {now amount at_ : Nat} (hnow : now < 2 ^ 32)
    (hamount : amount ≤ u128Max) : evaluateEviction cfg now (.rent amount at_) =
      if now ≤ at_ then .exempt
      else if amount ≤ cfg.rentPerBlock * (now - at_) then .evict
      else .charge (amount - cfg.rentPerBlock * (now - at_)) (cfg.rentPerBlock * (now - at_)) := by
  have hblocks : min (now - at_) (2 ^ 32 - 1) = now - at_ := by omega
  simp only [evaluateEviction, hblocks, Fixed.saturated]
  generalize cfg.rentPerBlock * (now - at_) = due
  split
  · rfl
  · by_cases hdue : amount ≤ due
    · rw [if_pos (le_min hdue hamount), if_pos hdue]
    · have hmin : min due u128Max = due := by omega
      rw [hmin]

omit [DecidableEq A] [DecidableEq X] in
theorem evict_rent_iff {now amount at_ : Nat} (hnow : now < 2 ^ 32) (hamount : amount ≤ u128Max) :
    evaluateEviction cfg now (.rent amount at_) = .evict ↔
      at_ < now ∧ amount ≤ cfg.rentPerBlock * (now - at_) := by
  rw [evaluateEviction_rent hnow hamount]
  by_cases hearly : now ≤ at_
  · simp [hearly]
  · by_cases hfull :
        amount ≤ cfg.rentPerBlock * (now - at_) <;> simp [hearly, hfull, Nat.lt_of_not_le hearly]

omit [DecidableEq A] [DecidableEq X] in
/-- Rent is linear: what is due at `t'` is what was due at `t`, and what the
    blocks since then cost. -/
theorem rent_split (cfg : Config A X F) {at_ t t' : Nat} (h : at_ ≤ t) (h' : t ≤ t') :
    cfg.rentPerBlock * (t' - at_) = cfg.rentPerBlock * (t - at_) + cfg.rentPerBlock * (t' - t) := by
  rw [← Nat.mul_add]
  congr 1
  omega

/-- The successful claim, by its verdict. -/
theorem charge_chargedOnce {id : Nat} {vault : VaultInfo A X} {c : Claim A}
    (hvault : s.vaults id = some vault)
    (hout : ∀ id, rewardAddress c.origin c.address ≠ some (cfg.rentAccount id))
    (hcharge : charge cfg id s c = some s') : ChargedOnce cfg id c.now vault s s' := by
  simp only [charge, hvault, Option.bind_eq_bind, Option.bind_some,
    Option.ite_none_left_eq_some] at hcharge
  obtain ⟨hverdict, hcall⟩ := hcharge
  obtain ⟨u, hok⟩ := Call.success_eq_some.mp hcall
  simp only [claimSurcharge, Call.bind_ok, Call.ofOption_ok, vaultInfo_ok] at hok
  obtain ⟨reward, _, ⟨hreward, rfl⟩, v, _, ⟨hv, rfl⟩, hok⟩ := hok
  obtain rfl : vault = v := Option.some.inj (hvault.symm.trans hv)
  unfold ChargedOnce
  cases hcase : evaluateEviction cfg c.now vault.deposit with
  | evict => exact hverdict hcase
  | exempt =>
      simp only [hcase, Call.pure_ok] at hok
      obtain ⟨_, rfl⟩ := hok
      exact ⟨hvault, rfl⟩
  | charge remaining payable =>
      simp only [hcase, Call.bind_ok, onLedger_ok, Currency.transfer_ok, Call.modify_ok] at hok
      obtain ⟨_, _, ⟨_, ⟨hpaid, rfl⟩, rfl⟩, rfl⟩ := hok
      have hne : reward ≠ cfg.rentAccount id := by
        intro heq
        exact hout id (heq ▸ hreward)
      have hfunded := cfg.currency.funded_of_transfer hpaid hne.symm
      refine ⟨Function.update_self .., ?_⟩
      refine (congrArg (· + payable) (rentBalance_reward hne hfunded)).trans ?_
      refine Nat.sub_add_cancel (hfunded.trans ?_)
      exact Nat.le_add_right _ _

omit [DecidableEq A] [DecidableEq X] in
/-- A charge after a charge is one charge at the later block. -/
theorem ChargedOnce.trans {id t t' : Nat} {vault : VaultInfo A X} {s₁ : State A X F}
    (hamount : ∀ amount at_, vault.deposit = .rent amount at_ → amount ≤ u128Max)
    (hle : t ≤ t') (hlt : t' < 2 ^ 32) (h : ChargedOnce cfg id t vault s s₁)
    (hnext : ∀ vault₁, s₁.vaults id = some vault₁ → ChargedOnce cfg id t' vault₁ s₁ s') :
    ChargedOnce cfg id t' vault s s' := by
  cases hdeposit : vault.deposit with
  | existential =>
      simp only [ChargedOnce, hdeposit, evaluateEviction] at h
      have hrest := hnext vault h.1
      simp only [ChargedOnce, hdeposit, evaluateEviction] at hrest ⊢
      exact ⟨hrest.1, hrest.2.trans h.2⟩
  | rent amount at_ =>
      have hbound := hamount amount at_ hdeposit
      simp only [ChargedOnce, hdeposit,
        evaluateEviction_rent (Nat.lt_of_le_of_lt hle hlt) hbound] at h
      by_cases hfirst : t ≤ at_
      · -- The first claim came too early to charge anything.
        rw [if_pos hfirst] at h
        have hrest := hnext vault h.1
        unfold ChargedOnce at hrest ⊢
        rw [← h.2]
        exact hrest
      · rw [if_neg hfirst] at h
        by_cases hfull : amount ≤ cfg.rentPerBlock * (t - at_)
        · rw [if_pos hfull] at h
          exact h.elim
        · rw [if_neg hfull] at h
          have hrest := hnext _ h.1
          have hsplit := rent_split cfg (Nat.le_of_not_le hfirst) hle
          have hrem : amount - cfg.rentPerBlock * (t - at_) ≤ u128Max := (Nat.sub_le _ _).trans hbound
          simp only [ChargedOnce, hdeposit, evaluateEviction_rent hlt hrem,
            evaluateEviction_rent hlt hbound]
            at hrest ⊢
          rw [if_neg (by omega : ¬ t' ≤ at_), hsplit]
          have hbalance := h.2
          revert hbalance hrest
          generalize cfg.rentPerBlock * (t - at_) = paid at *
          by_cases hsame : t' ≤ t
          · obtain rfl := Nat.le_antisymm hle hsame
            simp only [Nat.le_refl, if_true, Nat.sub_self, Nat.mul_zero, Nat.add_zero]
            rw [if_neg hfull]
            intro hrest hbalance
            exact ⟨hrest.1, hrest.2 ▸ hbalance⟩
          · rw [if_neg hsame]
            generalize cfg.rentPerBlock * (t' - t) = due at *
            by_cases hevict : amount - paid ≤ due
            · rw [if_pos hevict]
              exact fun hrest _ => hrest.elim
            · rw [if_neg hevict, if_neg (by omega)]
              simp only [Nat.sub_add_eq]
              intro hrest hbalance
              exact ⟨hrest.1, by omega⟩

/-- Charges one after the other are one charge at the last block. -/
theorem ChargedOnce.run {id t : Nat} {vault : VaultInfo A X} {s₁ : State A X F}
    {claims : List (Claim A)}
    (hamount : ∀ amount at_, vault.deposit = .rent amount at_ → amount ≤ u128Max)
    (hclaims : ∀ d ∈ claims, d.now < 2 ^ 32 ∧
      ∀ id, rewardAddress d.origin d.address ≠ some (cfg.rentAccount id))
    (hsorted : (t :: claims.map Claim.now).Pairwise (· ≤ ·)) (h : ChargedOnce cfg id t vault s s₁)
    (hrun : Composable.run (charge cfg id) s₁ claims = some s') :
    ChargedOnce cfg id ((claims.map Claim.now).getLastD t) vault s s' := by
  induction claims generalizing t s₁ with
  | nil => exact Option.some.inj hrun ▸ h
  | cons c rest ih =>
      obtain ⟨s₂, hcharge, hrest⟩ := run_cons.mp hrun
      obtain ⟨hnow, hout⟩ := hclaims c List.mem_cons_self
      rw [List.map_cons, List.pairwise_cons] at hsorted
      have hle : t ≤ c.now := hsorted.1 c.now List.mem_cons_self
      rw [List.map_cons, List.getLastD_cons]
      refine ih (fun d hd => hclaims d (List.mem_cons_of_mem _ hd)) hsorted.2 ?_ hrest
      exact h.trans hamount hle hnow fun vault₁ hvault₁ => charge_chargedOnce hvault₁ hout hcharge

omit [DecidableEq A] [DecidableEq X] in
/-- A charge leaves the blocks at which the vault can be evicted as they were. -/
theorem ChargedOnce.evict_iff {id t m : Nat} {vault vault' : VaultInfo A X}
    (hamount : ∀ amount at_, vault.deposit = .rent amount at_ → amount ≤ u128Max) (ht : t < 2 ^ 32)
    (hm : m < 2 ^ 32) (h : ChargedOnce cfg id t vault s s') (hvault' : s'.vaults id = some vault') :
    evaluateEviction cfg m vault.deposit = .evict ↔
      evaluateEviction cfg m vault'.deposit = .evict := by
  cases hdeposit : vault.deposit with
  | existential =>
      simp only [ChargedOnce, hdeposit, evaluateEviction] at h
      obtain rfl := Option.some.inj (hvault'.symm.trans h.1)
      rw [hdeposit]
  | rent amount at_ =>
      have hbound := hamount amount at_ hdeposit
      simp only [ChargedOnce, hdeposit, evaluateEviction_rent ht hbound] at h
      by_cases hearly : t ≤ at_
      · rw [if_pos hearly] at h
        obtain rfl := Option.some.inj (hvault'.symm.trans h.1)
        rw [hdeposit]
      · rw [if_neg hearly] at h
        by_cases hfull : amount ≤ cfg.rentPerBlock * (t - at_)
        · rw [if_pos hfull] at h
          exact h.elim
        · rw [if_neg hfull] at h
          obtain rfl := Option.some.inj (hvault'.symm.trans h.1)
          have hrem : amount - cfg.rentPerBlock * (t - at_) ≤ u128Max := (Nat.sub_le _ _).trans hbound
          rw [evict_rent_iff hm hbound, evict_rent_iff hm hrem]
          rcases Nat.lt_or_ge t m with hlater | hbefore
          · have hsplit := rent_split cfg (Nat.le_of_not_le hearly) (Nat.le_of_lt hlater)
            omega
          · -- Up to the charge itself the deposit was enough.
            have hless : cfg.rentPerBlock * (m - at_) ≤ cfg.rentPerBlock * (t - at_) :=
              Nat.mul_le_mul_left _ (Nat.sub_le_sub_right hbefore _)
            omega

theorem Rented.splitsEvenly (hcfg : RentAccounts cfg) (h : Rented cfg s) : SplitsEvenly cfg s := by
  intro id vault c rest s' hvault hclaims hsorted hrun
  have hamount : ∀ amount at_, vault.deposit = .rent amount at_ → amount ≤ u128Max := by
    intro amount at_ hdeposit
    exact (h.bounded hvault hdeposit).trans hcfg.deposit_le
  obtain ⟨s₁, hcharge, hrest⟩ := run_cons.mp hrun
  have hfirst := charge_chargedOnce hvault (hclaims c List.mem_cons_self).2 hcharge
  have hall :=
    ChargedOnce.run hamount (fun d hd => hclaims d (List.mem_cons_of_mem _ hd)) hsorted hfirst hrest
  refine ⟨hall, fun vault' hvault' m hm => hall.evict_iff hamount ?_ hm hvault'⟩
  -- The last block is one of the claims'.
  have hmem : (rest.map Claim.now).getLastD c.now ∈ (c :: rest).map Claim.now := by
    rw [List.map_cons]
    exact List.getLastD_mem_cons
  obtain ⟨d, hd, hnow⟩ := List.mem_map.mp hmem
  exact hnow ▸ (hclaims d hd).1

/-- **Rent records match the money**: when no rent account takes part in a call, every vault on rent
    has the recorded amount in its rent account in every state reached, and splitting the time of a
    charge changes neither what is charged nor when the vault can be evicted. -/
theorem rents_match_money (hcfg : RentAccounts cfg) (ledger : Ledger A X) (factory : F)
    (hempty : ∀ id, ledger.balance cfg.nativeAsset (cfg.rentAccount id) = 0) (ops : List (Op A X))
    (hops : ∀ op ∈ ops, OnRent op ∧ KeepsOut cfg op)
    (hrun : run (step cfg) (State.genesis ledger factory) ops = some s) :
    RentMatches cfg s ∧ SplitsEvenly cfg s := by
  have h := (Rented.genesis hempty).run hcfg hops hrun
  exact ⟨h.paid, h.splitsEvenly hcfg⟩

/-- The sample with rent accounts on even numbers and the accounts of deletion rewards on odd
    ones. -/
def rentSample : Config Nat Nat Nat :=
  { sample with
    rentAccount := fun n => 2000 + 2 * n
    deletionRewardAccount := fun n => 2001 + 2 * n }

theorem rentSample_rentAccounts : RentAccounts rentSample where
  distinct := by
    intro m _ n _ h
    change 2000 + 2 * m = 2000 + 2 * n at h
    omega
  apart := fun m n (h : 2001 + 2 * m = 2000 + 2 * n) => by omega
  unlocked _ _ _ := rfl
  deposit_le := by decide

/-- Vault `1` is created on a rent of `5`, pays for three blocks in two claims and is topped up. -/
def rentOps : List (Op Nat Nat) :=
  [.create 0 (.signed 7) sampleVault 15, .claimSurcharge 1 (.signed 8) 1 none,
    .claimSurcharge 3 .none 1 (some 8), .addSurcharge 4 (.signed 7) 1 10]

theorem rents_match_money_sample : ∃ s, run (step rentSample) sampleGenesis rentOps = some s ∧
    RentMatches rentSample s ∧ SplitsEvenly rentSample s := by
  have hsome : (run (step rentSample) sampleGenesis rentOps).isSome = true := by
    decide +kernel
  obtain ⟨s, hs⟩ := Option.isSome_iff_exists.mp hsome
  -- The accounts that take part have small numbers, and rent accounts large ones.
  have hlarge : ∀ id, 2000 ≤ rentSample.rentAccount id := fun id => Nat.le_add_right 2000 (2 * id)
  refine ⟨s, hs, rents_match_money rentSample_rentAccounts _ _ ?_ _ ?_ hs⟩
  · intro id
    have hid := hlarge id
    have h7 : (7 : Nat) ≠ rentSample.rentAccount id := by omega
    show ((Ledger.ofList [(0, 7, 500), (1, 7, 500)] : Ledger Nat Nat).free 0
      (rentSample.rentAccount id)) + 0 = 0
    simp [Ledger.ofList, h7]
  · intro op hop
    simp only [rentOps, List.mem_cons, List.not_mem_nil, or_false] at hop
    rcases hop with rfl | rfl | rfl | rfl <;> refine ⟨trivial, fun id heq => ?_⟩ <;>
    · have hid := hlarge id
      simp only [rewardAddress, RawOrigin.signed.injEq, Option.some.injEq] at heq
      omega

/-- Vault `1` is created on a rent of `5`, and an unsigned claim names its rent account, `2002`, as
    the receiver of the reward. -/
def selfRewardOps : List (Op Nat Nat) :=
  [.create 0 (.signed 7) sampleVault 15, .claimSurcharge 2 .none 1 (some 2002)]

theorem rents_match_money_fails :
    ¬ ∀ ops s, (∀ op ∈ ops, OnRent op) → run (step rentSample) sampleGenesis ops = some s →
      RentMatches rentSample s ∧ SplitsEvenly rentSample s := by
  intro h
  have hview : (run (step rentSample) sampleGenesis selfRewardOps).map
      (fun s => ((s.vaults 1).map VaultInfo.deposit, rentBalance rentSample s.ledger 1)) =
        some (some (.rent 3 2), 5) := by
    decide +kernel
  obtain ⟨s, hs, hpair⟩ := Option.map_eq_some_iff.mp hview
  obtain ⟨hrecord, hmoney⟩ := Prod.mk.inj hpair
  obtain ⟨vault, hvault, hdeposit⟩ := Option.map_eq_some_iff.mp hrecord
  have hops : ∀ op ∈ selfRewardOps, OnRent op := by
    intro op hop
    simp only [selfRewardOps, List.mem_cons, List.not_mem_nil, or_false] at hop
    rcases hop with rfl | rfl <;> trivial
  -- The record was lowered to `3`, but the transfer to itself has left `5` where they were.
  have hmatches := (h selfRewardOps s hops hs).1 1 vault 3 2 hvault hdeposit
  rw [hmoney] at hmatches
  cases hmatches

end Vault
end Composable
