import Composable.Mosaic.Model
import Composable.Support.Run

/-!
# `Mosaic.Effect` — what one operation of the bridge can do

The extrinsics and the passing of blocks as one system. A call of the pallet that fails has
written nothing, whether it is transactional or not (`step_cases`), so a step is described by
what its call does when it returns: `transferTo_ok`, `acceptTransfer_ok`, `claimStaleTo_ok`,
`timelockedMint_ok`, `rescindTimelockedMint_ok` and `claimTo_ok` for the calls that move
funds, and `updateAssetMapping_ok`.
-/

namespace Composable
namespace Mosaic

/-! ## The system -/

/-- An extrinsic, or the next block. -/
inductive Op (A X N R : Type) where
  | setRelayer (origin : RawOrigin A) (relayer : A)
  | rotateRelayer (origin : RawOrigin A) (new : A) (ttl : Nat)
  | setNetwork (origin : RawOrigin A) (networkId : N) (info : NetworkInfo)
  | setBudget (origin : RawOrigin A) (assetId : X) (amount : Nat) (decay : BudgetPenaltyDecayer)
  | setTimelockDuration (origin : RawOrigin A) (period : Nat)
  | updateAssetMapping (origin : RawOrigin A) (assetId : X) (networkId : N) (remoteAssetId : Option R)
  | transferTo (origin : RawOrigin A) (networkId : N) (assetId : X) (amount : Nat) (keepAlive : Bool)
  | acceptTransfer (origin : RawOrigin A) (from_ : A) (networkId : N) (remoteAssetId : R)
      (amount : Nat)
  | claimStaleTo (origin : RawOrigin A) (assetId : X) (to_ : A)
  | timelockedMint (origin : RawOrigin A) (networkId : N) (remoteAssetId : R) (to_ : A)
      (amount lockTime : Nat)
  | rescindTimelockedMint (origin : RawOrigin A) (networkId : N) (remoteAssetId : R) (account : A)
      (untrustedAmount : Nat)
  | claimTo (origin : RawOrigin A) (assetId : X) (to_ : A)
  | nextBlock

variable {A X N R : Type} [DecidableEq A] [DecidableEq X] [DecidableEq N] [DecidableEq R]

/-- The call behind an operation. There is no block after the last one. -/
def invoke (cfg : Config A X) : Op A X N R → MosaicCall A X N R Unit
  | .setRelayer origin relayer => setRelayer cfg origin relayer
  | .rotateRelayer origin new ttl => rotateRelayer cfg origin new ttl
  | .setNetwork origin networkId info => setNetwork origin networkId info
  | .setBudget origin assetId amount decay => setBudget cfg origin assetId amount decay
  | .setTimelockDuration origin period => setTimelockDuration cfg origin period
  | .updateAssetMapping origin assetId networkId remoteAssetId =>
      updateAssetMapping cfg origin assetId networkId remoteAssetId
  | .transferTo origin networkId assetId amount keepAlive =>
      transferTo cfg origin networkId assetId amount keepAlive
  | .acceptTransfer origin from_ networkId remoteAssetId amount =>
      acceptTransfer cfg origin from_ networkId remoteAssetId amount
  | .claimStaleTo origin assetId to_ => claimStaleTo cfg origin assetId to_
  | .timelockedMint origin networkId remoteAssetId to_ amount lockTime =>
      timelockedMint cfg origin networkId remoteAssetId to_ amount lockTime
  | .rescindTimelockedMint origin networkId remoteAssetId account untrustedAmount =>
      rescindTimelockedMint cfg origin networkId remoteAssetId account untrustedAmount
  | .claimTo origin assetId to_ => claimTo cfg origin assetId to_
  | .nextBlock => do
      let s ← Call.get
      Call.ensure (s.block < cfg.maxBlock) .panic
      Call.modify fun s => { s with block := s.block + 1 }

/-- The storage after one operation, whether it returned or failed. -/
def step (cfg : Config A X) (s : State A X N R) (op : Op A X N R) : Option (State A X N R) :=
  some (dispatch (invoke cfg op) s)

/-- The operation returns in this state. -/
def Returns (cfg : Config A X) (s : State A X N R) (op : Op A X N R) : Prop :=
  (invoke cfg op s).1.toBool = true

instance (cfg : Config A X) (s : State A X N R) (op : Op A X N R) : Decidable (Returns cfg s op) :=
  inferInstanceAs (Decidable (_ = true))

/-- The storage before any configuration. -/
def State.genesis (ledger : Ledger A X) : State A X N R where
  ledger := ledger
  block := 0
  relayer := none
  assetsInfo := fun _ => none
  networkInfos := fun _ => none
  timeLockPeriod := none
  nonce := 0
  outgoingTransactions := fun _ => ∅
  incomingTransactions := fun _ => ∅
  localToRemoteAsset := fun _ => ∅
  remoteToLocalAsset := fun _ => ∅

variable {cfg : Config A X} {s s' : State A X N R} {op : Op A X N R}

/-! ## Building blocks -/

section Blocks

variable {Q : DispatchError Error → State A X N R → Prop} {origin : RawOrigin A}

omit [DecidableEq A] [DecidableEq X] [DecidableEq N] [DecidableEq R] in
@[simp] theorem onLedger_ok {α : Type} {x : Call (Ledger A X) TokenError α} {a : α} :
    (onLedger x : MosaicCall A X N R α) s = (.ok a, s') ↔
      ∃ l, x s.ledger = (.ok a, l) ∧ s' = { s with ledger := l } := Call.zoom_ok

omit [DecidableEq A] [DecidableEq X] [DecidableEq N] [DecidableEq R] in
@[simp] theorem onLedger_outcome {α : Type} {x : Call (Ledger A X) TokenError α}
    {P : α → State A X N R → Prop} :
    Call.Outcome P Q (onLedger x s) ↔
      Call.Outcome (fun a l => P a { s with ledger := l })
        (fun e l => Q (.token e) { s with ledger := l })
        (x s.ledger) := Call.outcome_zoom

omit [DecidableEq X] [DecidableEq N] [DecidableEq R] in
theorem ensureRelayer_reads : (ensureRelayer origin : MosaicCall A X N R _).Reads := by
  refine Call.Reads.bind (fun s => ?_) fun acc => Call.Reads.get.bind fun s =>
    (Call.Reads.ofOption _ _).bind fun _ => (Call.Reads.ensure _ _).bind fun _ => Call.Reads.pure _
  cases origin <;> rfl

omit [DecidableEq A] [DecidableEq X] [DecidableEq R] in
@[simp] theorem getLocalMapping_ok {r : R} {n : N} {x : X} :
    getLocalMapping r n s = (.ok x, s') ↔ s.remoteToLocalAsset.get r n = some x ∧ s' = s := by
  simp only [getLocalMapping, Call.get_bind, Call.ofOption_ok]

end Blocks

/-! ## Calls that return -/

section Returned

variable {origin : RawOrigin A} {n : N} {x : X} {r : R} {a : A} {amount : Nat} {u : Unit}

/-- What is pending for an account, in one direction. -/
def pendingIn (m : StorageDoubleMap A X (Nat × Nat)) (a : A) (x : X) : Nat :=
  ((m.get a x).map Prod.fst).getD 0

omit [DecidableEq R] in
/-- All that `transferTo` does when it returns. -/
theorem transferTo_ok {keepAlive : Bool}
    (h : transferTo cfg origin n x amount keepAlive s = (.ok u, s')) :
    ∃ caller lockUntil, origin = .signed caller ∧
      cfg.currency.transferRefused s.ledger x caller (cfg.outgoing caller) amount keepAlive = none ∧
      s' = { s with
        ledger := cfg.currency.paid x caller (cfg.outgoing caller) amount keepAlive s.ledger
        outgoingTransactions := s.outgoingTransactions.put caller x
          (amount + pendingIn s.outgoingTransactions caller x, lockUntil)
        nonce := (s.nonce + 1) % 2 ^ 128 } := by
  simp only [transferTo, Call.transactional_ok, Call.bind_ok, ensureSigned_ok, Call.get_bind,
    Call.ensure_ok, getRemoteMapping, Call.ofOption_ok, onLedger_ok, Currency.transfer_paid,
    generateId, Call.modify_ok, and_assoc, exists_and_left, exists_eq_left, exists_const] at h
  obtain ⟨caller, rfl, -, _, -, _, -, -, -, hpaid, -, -, rfl⟩ := h
  exact ⟨caller, _, rfl, hpaid, rfl⟩

omit [DecidableEq R] in
theorem acceptTransfer_ok {from_ : A}
    (h : acceptTransfer cfg origin from_ n r amount s = (.ok u, s')) :
    ∃ x balance lock, s.remoteToLocalAsset.get r n = some x ∧
      s.outgoingTransactions.get from_ x = some (balance, lock) ∧ amount ≤ balance ∧
      cfg.currency.burnRefused s.ledger x (cfg.outgoing from_) amount = none ∧
      s' = { s with
        ledger := cfg.currency.burnt x (cfg.outgoing from_) amount s.ledger
        outgoingTransactions :=
          if amount = balance then s.outgoingTransactions.remove from_ x
          else s.outgoingTransactions.put from_ x (balance - amount, lock) } := by
  simp only [acceptTransfer, Call.transactional_ok, Call.bind_ok, getLocalMapping_ok, Call.get_bind,
    Call.ofOption_ok, Call.ensure_ok, onLedger_ok, Currency.burnFrom_burnt, Call.modify_ok] at h
  obtain ⟨_, _, hrelayer, x, _, ⟨hx, rfl⟩, ⟨balance, lock⟩, _, ⟨htx, rfl⟩, _, _, ⟨hle, rfl⟩, _, _,
    ⟨_, ⟨hburnt, rfl⟩, rfl⟩, rfl⟩ := h
  obtain rfl := ensureRelayer_reads.ok hrelayer
  exact ⟨x, balance, lock, hx, htx, hle, hburnt, rfl⟩

omit [DecidableEq N] [DecidableEq R] in
theorem claimStaleTo_ok {to_ : A} (h : claimStaleTo cfg origin x to_ s = (.ok u, s')) :
    ∃ caller balance lock, origin = .signed caller ∧
      s.outgoingTransactions.get caller x = some (balance, lock) ∧ lock < s.block ∧
      cfg.currency.transferRefused s.ledger x (cfg.outgoing caller) to_ balance false = none ∧
      s' = { s with
        ledger := cfg.currency.paid x (cfg.outgoing caller) to_ balance false s.ledger
        outgoingTransactions := s.outgoingTransactions.remove caller x } := by
  simp only [claimStaleTo, Call.transactional_ok, Call.bind_ok, ensureSigned_ok, Call.get_bind,
    Call.ofOption_ok, Call.ensure_ok, onLedger_ok, Currency.transfer_paid, Call.modify_ok] at h
  obtain ⟨caller, _, ⟨rfl, rfl⟩, ⟨balance, lock⟩, _, ⟨htx, rfl⟩, _, _, ⟨hlock, rfl⟩, _, _,
    ⟨_, ⟨hpaid, rfl⟩, rfl⟩, rfl⟩ := h
  exact ⟨caller, balance, lock, rfl, htx, hlock, hpaid, rfl⟩

/-- The storage after a mint. -/
def State.minted (s : State A X N R) (cfg : Config A X) (x : X) (info : AssetInfo) (to_ : A)
    (amount lockTime : Nat) : State A X N R :=
  { s with
    ledger := s.ledger.mint x (cfg.incoming to_) amount
    incomingTransactions := s.incomingTransactions.put to_ x
      (Fixed.saturated (pendingIn s.incomingTransactions to_ x + amount),
        min (s.block + lockTime) cfg.maxBlock)
    assetsInfo := Function.update s.assetsInfo x (some (info.minted s.block amount)) }

omit [DecidableEq R] in
theorem timelockedMint_ok {to_ : A} {lockTime : Nat}
    (h : timelockedMint cfg origin n r to_ amount lockTime s = (.ok u, s')) :
    ∃ x info, s.remoteToLocalAsset.get r n = some x ∧ s.assetsInfo x = some info ∧
      amount ≤ info.budget - info.decayed s.block ∧
      cfg.currency.mintRefused s.ledger x (cfg.incoming to_) amount = none ∧
      s' = s.minted cfg x info to_ amount lockTime := by
  simp only [timelockedMint, ensureRelayer, Call.bind_ok, ensureSigned_ok, getLocalMapping_ok,
    Call.get_bind, Call.ofOption_ok, Call.ensure_ok, Call.pure_ok, onLedger_ok,
    Currency.mintInto_ok, Call.modify_ok, and_assoc, exists_and_left, exists_eq_left,
    exists_const] at h
  obtain ⟨_, _, ⟨_, -, _, -, -, rfl, rfl⟩, x, hx, info, hinfo, hbudget, hminted, rfl⟩ := h
  exact ⟨x, info, hx, hinfo, hbudget, hminted, rfl⟩

omit [DecidableEq R] in
theorem rescindTimelockedMint_ok (h : rescindTimelockedMint cfg origin n r a amount s = (.ok u, s')) :
    ∃ x balance lock, s.remoteToLocalAsset.get r n = some x ∧
      s.incomingTransactions.get a x = some (balance, lock) ∧
      cfg.currency.burnRefused s.ledger x (cfg.incoming a) amount = none ∧
      s' = { s with
        ledger := cfg.currency.burnt x (cfg.incoming a) amount s.ledger
        incomingTransactions :=
          if balance = amount then s.incomingTransactions.remove a x
          else s.incomingTransactions.put a x (balance - amount, lock) } := by
  simp only [rescindTimelockedMint, Call.transactional_ok, Call.bind_ok, getLocalMapping_ok,
    Call.get_bind, Call.ofOption_ok, onLedger_ok, Currency.burnFrom_burnt, Call.modify_ok] at h
  obtain ⟨_, _, hrelayer, x, _, ⟨hx, rfl⟩, ⟨balance, lock⟩, _, ⟨htx, rfl⟩, _, _,
    ⟨_, ⟨hburnt, rfl⟩, rfl⟩, rfl⟩ := h
  obtain rfl := ensureRelayer_reads.ok hrelayer
  exact ⟨x, balance, lock, hx, htx, hburnt, rfl⟩

omit [DecidableEq N] [DecidableEq R] in
theorem claimTo_ok {to_ : A} (h : claimTo cfg origin x to_ s = (.ok u, s')) :
    ∃ caller balance lock, origin = .signed caller ∧
      s.incomingTransactions.get caller x = some (balance, lock) ∧ lock < s.block ∧
      cfg.currency.transferRefused s.ledger x (cfg.incoming caller) to_ balance false = none ∧
      s' = { s with
        ledger := cfg.currency.paid x (cfg.incoming caller) to_ balance false s.ledger
        incomingTransactions := s.incomingTransactions.remove caller x } := by
  simp only [claimTo, Call.bind_ok, ensureSigned_ok, Call.get_bind, Call.ofOption_ok, Call.ensure_ok,
    onLedger_ok, Currency.transfer_paid, Call.modify_ok] at h
  obtain ⟨caller, _, ⟨rfl, rfl⟩, ⟨balance, lock⟩, _, ⟨htx, rfl⟩, _, _, ⟨hlock, rfl⟩, _, _,
    ⟨_, ⟨hpaid, rfl⟩, rfl⟩, rfl⟩ := h
  exact ⟨caller, balance, lock, rfl, htx, hlock, hpaid, rfl⟩

omit [DecidableEq A] in
theorem updateAssetMapping_ok {remote : Option R} :
    updateAssetMapping cfg origin x n remote s = (.ok u, s') ↔
      cfg.controlOrigin origin = true ∧ (s.networkInfos n).isSome = true ∧
        s' = s.mapAsset x n remote := by
  simp only [updateAssetMapping, ensureControl, Call.bind_ok, Call.ensure_ok, Call.get_bind,
    Call.ofOption_ok, Call.modify_ok]
  constructor
  · rintro ⟨_, _, ⟨horigin, rfl⟩, info, _, ⟨hinfo, rfl⟩, rfl⟩
    exact ⟨horigin, hinfo ▸ rfl, rfl⟩
  · rintro ⟨horigin, hsome, rfl⟩
    obtain ⟨info, hinfo⟩ := Option.isSome_iff_exists.mp hsome
    exact ⟨(), s, ⟨horigin, rfl⟩, info, s, ⟨hinfo, rfl⟩, rfl⟩

omit [DecidableEq A] in
/-- Mapping an asset touches the two maps only. -/
theorem mapAsset_eq (s : State A X N R) (x : X) (n : N) (remote : Option R) : ∃ toRemote toLocal,
    s.mapAsset x n remote =
      { s with localToRemoteAsset := toRemote, remoteToLocalAsset := toLocal } := by
  unfold State.mapAsset
  split
  · exact ⟨_, _, rfl⟩
  · exact ⟨_, _, rfl⟩
  · exact ⟨_, _, rfl⟩
  · exact ⟨_, _, rfl⟩

end Returned

/-! ## Every step is an effect -/

/-- A call that fails has written nothing. -/
theorem invoke_clean : Call.Outcome (fun _ _ => True) (fun _ t => t = s) (invoke cfg op s) := by
  have hrelayer : ∀ {origin : RawOrigin A} {P : RelayerConfig A × Nat → State A X N R → Prop},
      (∀ r, P r s) → Call.Outcome P (fun _ t => t = s) (ensureRelayer origin s) := by
    intro origin P hP
    refine Call.outcome_iff.mpr ⟨fun r t h => ?_, fun e t h => ?_⟩
    · exact ensureRelayer_reads.ok h ▸ hP r
    · have hreads : (ensureRelayer origin s).2 = s := ensureRelayer_reads s
      rw [h] at hreads
      exact hreads
  cases op with
  | setRelayer origin relayer => simp [invoke, setRelayer, ensureControl]
  | rotateRelayer origin new ttl =>
      simp only [invoke, rotateRelayer, Call.outcome_bind, Call.outcome_ensure]
      exact ⟨fun _ => hrelayer fun _ => trivial, fun _ => trivial⟩
  | setNetwork origin networkId info =>
      simp only [invoke, setNetwork, Call.outcome_bind]
      exact hrelayer fun _ => trivial
  | setTimelockDuration origin period => simp [invoke, setTimelockDuration, ensureControl]
  | updateAssetMapping origin assetId networkId remote =>
      simp [invoke, updateAssetMapping, ensureControl]
  | timelockedMint origin networkId remote to_ amount lockTime =>
      simp only [invoke, timelockedMint, Call.outcome_bind]
      refine hrelayer fun r => ?_
      simp only [getLocalMapping, Call.get_bind, Call.outcome_ofOption, Call.outcome_ensure,
        onLedger_outcome, Currency.mintInto_outcome, Call.outcome_modify]
      exact ⟨fun x _ => ⟨fun info _ => ⟨fun _ => ⟨fun _ => trivial, fun _ _ => rfl⟩, fun _ => rfl⟩,
        fun _ => rfl⟩, fun _ => trivial⟩
  | claimTo origin assetId to_ =>
      simp only [invoke, claimTo, Call.outcome_bind, ensureSigned_outcome, Call.get_bind,
        Call.outcome_ofOption, Call.outcome_ensure, onLedger_outcome,
        Currency.transfer_paid_outcome, Call.outcome_modify]
      exact ⟨fun a _ =>
        ⟨fun tx _ => ⟨fun _ => ⟨fun _ => trivial, fun _ _ => trivial⟩, fun _ => trivial⟩,
        fun _ => trivial⟩, fun _ => trivial⟩
  | nextBlock => simp [invoke]
  | _ =>
      refine Call.outcome_transactional.mpr ?_
      exact Call.outcome_iff.mpr ⟨fun _ _ _ => trivial, fun _ _ _ => rfl⟩

theorem returns_iff : Returns cfg s op ↔ ∃ t, invoke cfg op s = (.ok (), t) := by
  unfold Returns
  rcases invoke cfg op s with ⟨e | u, t⟩
  · simp [Except.toBool]
  · simp [Except.toBool]

/-- **A step returned, or failed and changed nothing.** -/
theorem step_cases (h : step cfg s op = some s') :
    invoke cfg op s = (.ok (), s') ∨ ¬ Returns cfg s op ∧ s' = s := by
  obtain rfl := Option.some.inj h
  rcases dispatch_cases (invoke cfg op) s with ⟨u, hok⟩ | ⟨hfail, hwritten⟩
  · exact .inl hok
  · right
    refine ⟨fun hreturns => ?_, ?_⟩
    · obtain ⟨t, ht⟩ := returns_iff.mp hreturns
      exact hfail () t ht
    · rcases hwritten with hs | ⟨e, he⟩
      · exact hs
      · exact (Call.outcome_iff.mp invoke_clean).2 e _ he

/-- No operation is impossible. -/
theorem run_returns (cfg : Config A X) (s : State A X N R) (ops : List (Op A X N R)) :
    ∃ s', run (step cfg) s ops = some s' := by
  induction ops generalizing s with
  | nil => exact ⟨s, rfl⟩
  | cons op ops ih =>
      obtain ⟨s', hs'⟩ := ih (dispatch (invoke cfg op) s)
      exact ⟨s', run_cons.mpr ⟨_, rfl, hs'⟩⟩

/-- The operations that touch neither funds nor assets. -/
def Op.Governs : Op A X N R → Prop
  | .setRelayer _ _ | .rotateRelayer _ _ _ | .setNetwork _ _ _ | .setTimelockDuration _ _ => True
  | _ => False

/-- What such an operation leaves alone. -/
theorem governs_ok (hop : op.Governs) (h : invoke cfg op s = (.ok (), s')) :
    ∃ relayer networks period, s' =
      { s with relayer := relayer, networkInfos := networks, timeLockPeriod := period } := by
  cases op with
  | setRelayer origin relayer =>
      simp only [invoke, setRelayer, ensureControl, Call.bind_ok, Call.ensure_ok, Call.modify_ok] at h
      obtain ⟨_, _, ⟨-, rfl⟩, rfl⟩ := h
      exact ⟨_, _, _, rfl⟩
  | rotateRelayer origin new ttl =>
      simp only [invoke, rotateRelayer, Call.bind_ok, Call.ensure_ok, Call.modify_ok] at h
      obtain ⟨_, _, ⟨-, rfl⟩, _, _, hrelayer, rfl⟩ := h
      obtain rfl := ensureRelayer_reads.ok hrelayer
      exact ⟨_, _, _, rfl⟩
  | setNetwork origin networkId info =>
      simp only [invoke, setNetwork, Call.bind_ok, Call.modify_ok] at h
      obtain ⟨_, _, hrelayer, rfl⟩ := h
      obtain rfl := ensureRelayer_reads.ok hrelayer
      exact ⟨_, _, _, rfl⟩
  | setTimelockDuration origin period =>
      simp only [invoke, setTimelockDuration, ensureControl, Call.bind_ok, Call.ensure_ok,
        Call.modify_ok] at h
      obtain ⟨_, _, ⟨-, rfl⟩, _, _, ⟨-, rfl⟩, rfl⟩ := h
      exact ⟨_, _, _, rfl⟩
  | _ => exact absurd hop not_false

/-- Everything an operation can do to the storage. -/
inductive Effect (cfg : Config A X) (s : State A X N R) : Op A X N R → State A X N R → Prop where
  | failed {o : Op A X N R} (h : ¬ Returns cfg s o) : Effect cfg s o s
  | governed {o : Op A X N R} (hop : o.Governs) (relayer : Option (RelayerConfig A)) (networks : N →
      Option NetworkInfo)
      (period : Option Nat) :
      Effect cfg s o { s with relayer := relayer, networkInfos := networks, timeLockPeriod := period }
  | advanced (h : s.block < cfg.maxBlock) : Effect cfg s .nextBlock { s with block := s.block + 1 }
  | budgeted {origin x amount decay} : Effect cfg s (.setBudget origin x amount decay)
      { s with
        assetsInfo := Function.update s.assetsInfo x
          (some (Mosaic.budgeted s.block amount decay (s.assetsInfo x))) }
  | mapped {origin x n remote} (h : updateAssetMapping cfg origin x n remote s =
      (.ok (), s.mapAsset x n remote)) :
      Effect cfg s (.updateAssetMapping origin x n remote) (s.mapAsset x n remote)
  | sent {origin n x amount keepAlive t} (h : transferTo cfg origin n x amount keepAlive s =
      (.ok (), t)) :
      Effect cfg s (.transferTo origin n x amount keepAlive) t
  | accepted {origin from_ n r amount t} (h : acceptTransfer cfg origin from_ n r amount s =
      (.ok (), t)) :
      Effect cfg s (.acceptTransfer origin from_ n r amount) t
  | returned {origin x to_ t} (h : claimStaleTo cfg origin x to_ s = (.ok (), t)) :
      Effect cfg s (.claimStaleTo origin x to_) t
  | minted {origin n r to_ amount lockTime t}
      (h : timelockedMint cfg origin n r to_ amount lockTime s = (.ok (), t)) :
      Effect cfg s (.timelockedMint origin n r to_ amount lockTime) t
  | rescinded {origin n r a amount t} (h : rescindTimelockedMint cfg origin n r a amount s =
      (.ok (), t)) :
      Effect cfg s (.rescindTimelockedMint origin n r a amount) t
  | claimed {origin x to_ t} (h : claimTo cfg origin x to_ s = (.ok (), t)) :
      Effect cfg s (.claimTo origin x to_) t

/-- **Every step is one of the effects.** -/
theorem step_effect (h : step cfg s op = some s') : Effect cfg s op s' := by
  rcases step_cases h with hok | ⟨hfail, rfl⟩
  · by_cases hgoverns : op.Governs
    · obtain ⟨relayer, networks, period, rfl⟩ := governs_ok hgoverns hok
      exact .governed hgoverns relayer networks period
    · cases op with
      | setRelayer _ _ => exact absurd trivial hgoverns
      | rotateRelayer _ _ _ => exact absurd trivial hgoverns
      | setNetwork _ _ _ => exact absurd trivial hgoverns
      | setTimelockDuration _ _ => exact absurd trivial hgoverns
      | setBudget origin x amount decay =>
          simp only [invoke, setBudget, Call.transactional_ok, ensureControl, Call.bind_ok,
            Call.ensure_ok, Call.modify_ok] at hok
          obtain ⟨_, _, ⟨-, rfl⟩, rfl⟩ := hok
          exact .budgeted
      | updateAssetMapping origin x n remote =>
          have hmapped := (updateAssetMapping_ok.mp hok).2.2
          subst hmapped
          exact .mapped hok
      | transferTo origin n x amount keepAlive => exact .sent hok
      | acceptTransfer origin from_ n r amount => exact .accepted hok
      | claimStaleTo origin x to_ => exact .returned hok
      | timelockedMint origin n r to_ amount lockTime => exact .minted hok
      | rescindTimelockedMint origin n r a amount => exact .rescinded hok
      | claimTo origin x to_ => exact .claimed hok
      | nextBlock =>
          simp only [invoke, Call.get_bind, Call.bind_ok, Call.ensure_ok, Call.modify_ok] at hok
          obtain ⟨_, _, ⟨hlt, rfl⟩, rfl⟩ := hok
          exact .advanced hlt
  · exact .failed hfail

/-- The operations on funds and assets leave the relayer alone, and blocks only pass. -/
theorem step_frame (h : step cfg s op = some s') : (¬ op.Governs → s'.relayer = s.relayer) ∧
    (s'.block = s.block ∨ s.block < cfg.maxBlock ∧ s'.block = s.block + 1) := by
  cases step_effect h with
  | advanced hlt => exact ⟨fun _ => rfl, .inr ⟨hlt, rfl⟩⟩
  | sent hcall =>
      obtain ⟨_, _, -, -, rfl⟩ := transferTo_ok hcall
      exact ⟨fun _ => rfl, .inl rfl⟩
  | accepted hcall =>
      obtain ⟨_, _, _, -, -, -, -, rfl⟩ := acceptTransfer_ok hcall
      exact ⟨fun _ => rfl, .inl rfl⟩
  | returned hcall =>
      obtain ⟨_, _, _, -, -, -, -, rfl⟩ := claimStaleTo_ok hcall
      exact ⟨fun _ => rfl, .inl rfl⟩
  | minted hcall =>
      obtain ⟨_, _, -, -, -, -, rfl⟩ := timelockedMint_ok hcall
      exact ⟨fun _ => rfl, .inl rfl⟩
  | rescinded hcall =>
      obtain ⟨_, _, _, -, -, -, rfl⟩ := rescindTimelockedMint_ok hcall
      exact ⟨fun _ => rfl, .inl rfl⟩
  | claimed hcall =>
      obtain ⟨_, _, _, -, -, -, -, rfl⟩ := claimTo_ok hcall
      exact ⟨fun _ => rfl, .inl rfl⟩
  | @mapped _ y n remote _ =>
      obtain ⟨toRemote, toLocal, hmapped⟩ := mapAsset_eq s y n remote
      rw [hmapped]
      exact ⟨fun _ => rfl, .inl rfl⟩
  | failed _ => exact ⟨fun _ => rfl, .inl rfl⟩
  | governed hop _ _ _ => exact ⟨fun hnot => absurd hop hnot, .inl rfl⟩
  | budgeted => exact ⟨fun _ => rfl, .inl rfl⟩

theorem step_block (h : step cfg s op = some s') :
    s'.block = s.block ∨ s.block < cfg.maxBlock ∧ s'.block = s.block + 1 := (step_frame h).2

end Mosaic
end Composable
