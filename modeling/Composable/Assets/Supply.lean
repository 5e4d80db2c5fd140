import Composable.Support.Run
import Composable.Traits.Currency
import Mathlib.Logic.Function.Basic

/-!
# `Assets.Supply` — the assets pallet and the governance registry

Embeds the extrinsics of `frame/assets/src/lib.rs` and `frame/governance-registry/src/lib.rs`. Root
registers for an asset the account that governs it, or root itself, and minting and burning asks the
registry. The native asset is in a currency of its own. Events and weights are left out.

`permitted_iff` says whom `ensure_admin_or_governance` lets pass. Where root is registered it lets
every signed account pass, although root is the highest privilege level. So supplies are guarded all
along a run exactly when no signed account other than an admin mints or burns an asset that is
registered to root (`supply_guarded_iff`).
-/

namespace Composable
namespace Assets

/-! ## Data model -/

/-- `SignedRawOrigin`. -/
inductive SignedRawOrigin (A : Type) where
  | root
  | signed (account : A)
deriving DecidableEq, Repr

inductive Error where
  | badOrigin
  | cannotSetNewCurrencyToRegistry
deriving DecidableEq, Repr

/-- `S` are the sources that accounts are looked up by. -/
structure Config (A X F S : Type) where
  nativeAssetId : X
  generateCurrencyId : CurrencyFactory F X
  nativeCurrency : Currency A X
  multiCurrency : Currency A X
  /-- The operations of both take their amounts and nothing else. -/
  nativeCurrency_exact : nativeCurrency.Exact
  multiCurrency_exact : multiCurrency.Exact
  lookup : S → Option A
  adminOrigin : RawOrigin A → Bool

structure State (A X F : Type) where
  ledger : Ledger A X
  factory : F
  originsByAssetId : X → Option (SignedRawOrigin A)

abbrev AssetsCall (A X F : Type) (α : Type) : Type := Call (State A X F) (DispatchError Error) α

variable {A X F S : Type} [DecidableEq A] [DecidableEq X] (cfg : Config A X F S)

/-- The currency that an asset is in. -/
def Config.currency (x : X) : Currency A X :=
  if x = cfg.nativeAssetId then cfg.nativeCurrency else cfg.multiCurrency

attribute [instance] Config.nativeCurrency_exact Config.multiCurrency_exact

instance Config.currency_exact (x : X) : (cfg.currency x).Exact := by
  unfold Config.currency
  split <;> infer_instance

def onLedger {α : Type} (x : Call (Ledger A X) TokenError α) : AssetsCall A X F α :=
  Call.zoom State.ledger (fun l s => { s with ledger := l }) .token x

def lookup (source : S) : AssetsCall A X F A := Call.ofOption (cfg.lookup source) .cannotLookup

/-! ## The governance registry -/

def State.register (s : State A X F) (x : X) (value : Option (SignedRawOrigin A)) : State A X F :=
  { s with originsByAssetId := Function.update s.originsByAssetId x value }

def set (origin : RawOrigin A) (x : X) (value : A) : AssetsCall A X F Unit := do
  ensureRoot origin
  Call.modify fun s => s.register x (some (.signed value))

def grantRoot (origin : RawOrigin A) (x : X) : AssetsCall A X F Unit := do
  ensureRoot origin
  Call.modify fun s => s.register x (some .root)

def remove (origin : RawOrigin A) (x : X) : AssetsCall A X F Unit := do
  ensureRoot origin
  Call.modify fun s => s.register x none

/-! ## Transfers -/

def transfer (origin : RawOrigin A) (x : X) (dest : S) (amount : Nat) (keepAlive : Bool) :
    AssetsCall A X F Unit := do
  let src ← ensureSigned origin
  let dest ← lookup cfg dest
  onLedger ((cfg.currency x).transfer x src dest amount keepAlive)

def transferNative (origin : RawOrigin A) (dest : S) (value : Nat) (keepAlive : Bool) :
    AssetsCall A X F Unit := do
  let src ← ensureSigned origin
  let dest ← lookup cfg dest
  onLedger (cfg.nativeCurrency.transfer cfg.nativeAssetId src dest value keepAlive)

def forceTransfer (origin : RawOrigin A) (x : X) (source dest : S) (value : Nat) (keepAlive : Bool) :
    AssetsCall A X F Unit := do
  ensureRoot origin
  let source ← lookup cfg source
  let dest ← lookup cfg dest
  onLedger ((cfg.currency x).transfer x source dest value keepAlive)

def forceTransferNative (origin : RawOrigin A) (source dest : S) (value : Nat) (keepAlive : Bool) :
    AssetsCall A X F Unit := do
  ensureRoot origin
  let source ← lookup cfg source
  let dest ← lookup cfg dest
  onLedger (cfg.nativeCurrency.transfer cfg.nativeAssetId source dest value keepAlive)

def transferAll (origin : RawOrigin A) (x : X) (dest : S) (keepAlive : Bool) :
    AssetsCall A X F Unit := do
  let transactor ← ensureSigned origin
  let s ← Call.get
  let reducible := (cfg.currency x).reducible s.ledger x transactor keepAlive
  let dest ← lookup cfg dest
  onLedger ((cfg.currency x).transfer x transactor dest reducible keepAlive)

def transferAllNative (origin : RawOrigin A) (dest : S) (keepAlive : Bool) :
    AssetsCall A X F Unit := do
  let transactor ← ensureSigned origin
  let s ← Call.get
  let reducible := cfg.nativeCurrency.reducible s.ledger cfg.nativeAssetId transactor keepAlive
  let dest ← lookup cfg dest
  onLedger (cfg.nativeCurrency.transfer cfg.nativeAssetId transactor dest reducible keepAlive)

/-! ## Supply -/

/-- `GenerateCurrencyId::create`. -/
def generate (id : RangeId) : AssetsCall A X F X := do
  let s ← Call.get
  let (x, factory) ← Call.ofExcept
    ((cfg.generateCurrencyId.create s.factory id).mapError (DispatchError.map Empty.elim))
  Call.modify fun s => { s with factory := factory }
  pure x

def mintInitialize (origin : RawOrigin A) (amount : Nat) (dest : S) : AssetsCall A X F Unit := do
  ensureRoot origin
  let id ← generate cfg .tokens
  let dest ← lookup cfg dest
  onLedger ((cfg.currency id).mintInto id dest amount)

def mintInitializeWithGovernance (origin : RawOrigin A) (amount : Nat) (governanceOrigin dest : S) :
    AssetsCall A X F Unit := do
  ensureRoot origin
  let id ← generate cfg .tokens
  let governanceOrigin ← lookup cfg governanceOrigin
  Call.modify fun s => s.register id (some (.signed governanceOrigin))
  let dest ← lookup cfg dest
  onLedger ((cfg.currency id).mintInto id dest amount)

def ensureAdminOrGovernance (origin : RawOrigin A) (x : X) : AssetsCall A X F Unit := do
  let s ← Call.get
  if cfg.adminOrigin origin then pure ()
  else match origin with
    | .signed account =>
        match s.originsByAssetId x with
        | some .root => pure ()
        | some (.signed acc) => Call.ensure (acc = account) (.module .badOrigin)
        | none => Call.fail (.module .badOrigin)
    | .root => pure ()
    | .none => Call.fail (.module .badOrigin)

def mintInto (origin : RawOrigin A) (x : X) (dest : S) (amount : Nat) : AssetsCall A X F Unit := do
  ensureAdminOrGovernance cfg origin x
  let dest ← lookup cfg dest
  onLedger ((cfg.currency x).mintInto x dest amount)

def burnFrom (origin : RawOrigin A) (x : X) (dest : S) (amount : Nat) : AssetsCall A X F Unit := do
  ensureAdminOrGovernance cfg origin x
  let dest ← lookup cfg dest
  onLedger ((cfg.currency x).burnFrom x dest amount)

/-! ## Runs -/

inductive Op (A X S : Type) where
  | set (origin : RawOrigin A) (x : X) (value : A)
  | grantRoot (origin : RawOrigin A) (x : X)
  | remove (origin : RawOrigin A) (x : X)
  | transfer (origin : RawOrigin A) (x : X) (dest : S) (amount : Nat) (keepAlive : Bool)
  | transferNative (origin : RawOrigin A) (dest : S) (value : Nat) (keepAlive : Bool)
  | forceTransfer (origin : RawOrigin A) (x : X) (source dest : S) (value : Nat) (keepAlive : Bool)
  | forceTransferNative (origin : RawOrigin A) (source dest : S) (value : Nat) (keepAlive : Bool)
  | transferAll (origin : RawOrigin A) (x : X) (dest : S) (keepAlive : Bool)
  | transferAllNative (origin : RawOrigin A) (dest : S) (keepAlive : Bool)
  | mintInitialize (origin : RawOrigin A) (amount : Nat) (dest : S)
  | mintInitializeWithGovernance (origin : RawOrigin A) (amount : Nat) (governanceOrigin dest : S)
  | mintInto (origin : RawOrigin A) (x : X) (dest : S) (amount : Nat)
  | burnFrom (origin : RawOrigin A) (x : X) (dest : S) (amount : Nat)
deriving DecidableEq

def Op.call : Op A X S → AssetsCall A X F Unit
  | .set origin x value => Assets.set origin x value
  | .grantRoot origin x => Assets.grantRoot origin x
  | .remove origin x => Assets.remove origin x
  | .transfer origin x dest amount keepAlive => Assets.transfer cfg origin x dest amount keepAlive
  | .transferNative origin dest value keepAlive =>
      Assets.transferNative cfg origin dest value keepAlive
  | .forceTransfer origin x source dest value keepAlive =>
      Assets.forceTransfer cfg origin x source dest value keepAlive
  | .forceTransferNative origin source dest value keepAlive =>
      Assets.forceTransferNative cfg origin source dest value keepAlive
  | .transferAll origin x dest keepAlive => Assets.transferAll cfg origin x dest keepAlive
  | .transferAllNative origin dest keepAlive => Assets.transferAllNative cfg origin dest keepAlive
  | .mintInitialize origin amount dest => Assets.mintInitialize cfg origin amount dest
  | .mintInitializeWithGovernance origin amount governanceOrigin dest =>
      Assets.mintInitializeWithGovernance cfg origin amount governanceOrigin dest
  | .mintInto origin x dest amount => Assets.mintInto cfg origin x dest amount
  | .burnFrom origin x dest amount => Assets.burnFrom cfg origin x dest amount

def step (s : State A X F) (op : Op A X S) : Option (State A X F) := some (dispatch (op.call cfg) s)

def Op.origin : Op A X S → RawOrigin A
  | .set origin .. | .grantRoot origin .. | .remove origin .. | .transfer origin ..
  | .transferNative origin ..
  | .forceTransfer origin .. | .forceTransferNative origin .. | .transferAll origin ..
  | .transferAllNative origin ..
  | .mintInitialize origin .. | .mintInitializeWithGovernance origin .. | .mintInto origin ..
  | .burnFrom origin .. => origin

/-- The asset that the call mints or burns. -/
def Op.supply : Op A X S → Option X
  | .mintInto _ x _ _ | .burnFrom _ x _ _ => some x
  | _ => none

def Succeeds (s : State A X F) (op : Op A X S) : Prop := (op.call cfg s).1.toBool = true

/-- Apart from the origin there is nothing against minting or burning: the destination is known,
    and the currency does it. -/
def Accepts (s : State A X F) : Op A X S → Prop
  | .mintInto _ x dest amount =>
      ∃ d, cfg.lookup dest = some d ∧ (cfg.currency x).mintRefused s.ledger x d amount = none
  | .burnFrom _ x dest amount =>
      ∃ d, cfg.lookup dest = some d ∧ (cfg.currency x).burnRefused s.ledger x d amount = none
  | _ => False

/-- The account passes as an admin, or is registered for the asset. -/
def Governs (s : State A X F) (a : A) (x : X) : Prop :=
  cfg.adminOrigin (.signed a) = true ∨ s.originsByAssetId x = some (.signed a)

/-- Who changes the supply of an asset governs it, or is root. -/
structure Guarded (s : State A X F) (op : Op A X S) : Prop where
  signed : ∀ a x, op.origin = .signed a → op.supply = some x → Succeeds cfg s op → Governs cfg s a x
  changed : ∀ s' x, step cfg s op = some s' → s'.ledger.issuance x ≠ s.ledger.issuance x →
    op.origin = .root ∨ cfg.adminOrigin op.origin = true ∨ ∃ a, op.origin = .signed a ∧
      Governs cfg s a x

/-- Nobody but an admin mints or burns, by a signed call that would go through,
    what is registered to root. -/
def RootApart (s : State A X F) (op : Op A X S) : Prop :=
  ∀ a x, op.origin = .signed a → op.supply = some x → s.originsByAssetId x = some .root →
    cfg.adminOrigin (.signed a) = true ∨ ¬ Accepts cfg s op

variable {cfg} {s s' : State A X F} {origin : RawOrigin A} {x : X} {op : Op A X S} {dest : S}
  {u : Unit}

/-! ## Who may change a supply -/

/-- The origins that `ensure_admin_or_governance` lets pass. -/
def Permitted (cfg : Config A X F S) (s : State A X F) (origin : RawOrigin A) (x : X) : Prop :=
  cfg.adminOrigin origin = true ∨ origin = .root ∨
    ∃ a, origin = .signed a ∧
      (s.originsByAssetId x = some .root ∨ s.originsByAssetId x = some (.signed a))

omit [DecidableEq X] in
theorem permitted_iff :
    ensureAdminOrGovernance cfg origin x s = (.ok u, s') ↔ Permitted cfg s origin x ∧ s' = s := by
  rw [ensureAdminOrGovernance, Call.get_bind]
  by_cases hadmin : cfg.adminOrigin origin = true
  · rw [if_pos hadmin, Call.pure_ok]
    exact ⟨fun h => ⟨.inl hadmin, h.2⟩, fun h => ⟨rfl, h.2⟩⟩
  · rw [if_neg hadmin]
    cases origin with
    | root => simp [Permitted]
    | none => simp [Permitted, hadmin]
    | signed a =>
        cases hregistered : s.originsByAssetId x with
        | none => simp [Permitted, hadmin, hregistered]
        | some value =>
            cases value with
            | root => simp [Permitted, hregistered]
            | signed acc => simp [Permitted, hadmin, hregistered]

omit [DecidableEq X] in
theorem ensureAdminOrGovernance_reads : (ensureAdminOrGovernance cfg origin x).Reads := by
  refine .bind .get fun s => ?_
  split
  · exact .pure ()
  · split
    · split
      · exact .pure ()
      · exact .ensure _ _
      · exact .fail _
    · exact .pure ()
    · exact .fail _

section Change

variable {refused : A → Ledger A X → Option TokenError} {effect : A → Ledger A X → Ledger A X}

omit [DecidableEq X] in
/-- `mint_into` and `burn_from`: a change of the ledger, after the origin was checked
    and the destination found. -/
theorem change_ok :
    (do
      ensureAdminOrGovernance cfg origin x
      let dest ← lookup cfg dest
      onLedger (Currency.commit (refused dest) (effect dest)) :
          AssetsCall A X F Unit) s = (.ok u, s') ↔
      Permitted cfg s origin x ∧ ∃ d, cfg.lookup dest = some d ∧ refused d s.ledger = none ∧
        s' = { s with ledger := effect d s.ledger } := by
  simp only [Call.bind_ok, permitted_iff, lookup, Call.ofOption_ok, onLedger, Call.zoom_ok,
    Currency.commit_ok]
  constructor
  · rintro ⟨_, t, ⟨hpermitted, rfl⟩, d, t', ⟨hd, rfl⟩, l, ⟨hrefused, rfl⟩, rfl⟩
    exact ⟨hpermitted, d, hd, hrefused, rfl⟩
  · rintro ⟨hpermitted, d, hd, hrefused, rfl⟩
    exact ⟨(), s, ⟨hpermitted, rfl⟩, d, s, ⟨hd, rfl⟩, _, ⟨hrefused, rfl⟩, rfl⟩

omit [DecidableEq X] in
/-- When a change goes through. -/
theorem change_returns_iff :
    (∃ s', (do
      ensureAdminOrGovernance cfg origin x
      let dest ← lookup cfg dest
      onLedger (Currency.commit (refused dest) (effect dest)) :
          AssetsCall A X F Unit) s = (.ok u, s')) ↔
      Permitted cfg s origin x ∧ ∃ d, cfg.lookup dest = some d ∧ refused d s.ledger = none := by
  constructor
  · rintro ⟨s', hcall⟩
    obtain ⟨hpermitted, d, hd, hrefused, -⟩ := change_ok.mp hcall
    exact ⟨hpermitted, d, hd, hrefused⟩
  · rintro ⟨hpermitted, d, hd, hrefused⟩
    exact ⟨_, change_ok.mpr ⟨hpermitted, d, hd, hrefused, rfl⟩⟩

omit [DecidableEq X] in
/-- One that fails changes nothing. -/
theorem change_error :
    Call.Outcome (fun _ _ => True) (fun _ t => t = s) ((do
      ensureAdminOrGovernance cfg origin x
      let dest ← lookup cfg dest
      onLedger (Currency.commit (refused dest) (effect dest)) : AssetsCall A X F Unit) s) := by
  rw [Call.outcome_bind]
  refine Call.outcome_iff.mpr ⟨fun _ t ht => ?_, fun e t ht => ensureAdminOrGovernance_reads.error ht⟩
  obtain rfl := ensureAdminOrGovernance_reads.ok ht
  simp [lookup, onLedger, Currency.commit_outcome]

end Change

/-- Whether a call that mints or burns goes through. -/
theorem succeeds_iff (h : op.supply = some x) :
    Succeeds cfg s op ↔ Permitted cfg s op.origin x ∧ Accepts cfg s op := by
  have hok : Succeeds cfg s op ↔ ∃ s', op.call cfg s = (.ok (), s') := by
    unfold Succeeds
    rcases op.call cfg s with ⟨e | u, t⟩
    · simp [Except.toBool]
    · simp [Except.toBool]
  rw [hok]
  cases op with
  | mintInto origin y dest amount =>
      obtain rfl := Option.some.inj h
      exact change_returns_iff
  | burnFrom origin y dest amount =>
      obtain rfl := Option.some.inj h
      exact change_returns_iff
  | _ => cases h

/-! ## What changes a supply -/

/-- The issuance of the asset is the same. -/
def Keeps (x : X) (s s' : State A X F) : Prop := s'.ledger.issuance x = s.ledger.issuance x

/-- Minting or burning another asset, or not at all. -/
theorem change_keeps {refused : A → Ledger A X → Option TokenError}
    {effect : A → Ledger A X → Ledger A X} {y : X}
    (heffect : ∀ d, y ≠ x → (effect d s.ledger).issuance x = s.ledger.issuance x)
    (hnot : y = x → ¬ (Permitted cfg s origin y ∧ ∃ d, cfg.lookup dest = some d ∧
      refused d s.ledger = none)) :
    Call.Outcome (fun _ => Keeps x s) (fun _ => Keeps x s) ((do
      ensureAdminOrGovernance cfg origin y
      let dest ← lookup cfg dest
      onLedger (Currency.commit (refused dest) (effect dest)) : AssetsCall A X F Unit) s) := by
  refine Call.outcome_iff.mpr ⟨fun u t ht => ?_, fun e t ht => ?_⟩
  · obtain ⟨hpermitted, d, hd, hrefused, rfl⟩ := change_ok.mp ht
    by_cases hy : y = x
    · exact absurd ⟨hpermitted, d, hd, hrefused⟩ (hnot hy)
    · exact heffect d hy
  · rw [(Call.outcome_iff.mp change_error).2 e t ht]
    exact rfl

/-- A call that is not made by root, and does not mint or burn the asset. -/
theorem call_keeps (hroot : op.origin ≠ .root) (hnot : op.supply = some x → ¬ Succeeds cfg s op) :
    Call.Outcome (fun _ => Keeps x s) (fun _ => Keeps x s) (op.call cfg s) := by
  cases op with
  | set | grantRoot | remove =>
      simp only [Op.call, set, grantRoot, remove, Call.outcome_bind, ensureRoot_outcome]
      exact ⟨fun h => absurd h hroot, fun _ => rfl⟩
  | mintInitialize | mintInitializeWithGovernance =>
      simp only [Op.call, mintInitialize, mintInitializeWithGovernance, Call.outcome_bind,
        ensureRoot_outcome]
      exact ⟨fun h => absurd h hroot, fun _ => rfl⟩
  | forceTransfer | forceTransferNative =>
      simp only [Op.call, forceTransfer, forceTransferNative, Call.outcome_bind, ensureRoot_outcome]
      exact ⟨fun h => absurd h hroot, fun _ => rfl⟩
  | transfer | transferNative | transferAll | transferAllNative =>
      simp [Op.call, transfer, transferNative, transferAll, transferAllNative, lookup,
        onLedger, Keeps]
  | mintInto origin y dest amount =>
      refine change_keeps (fun d hy => by simp [hy.symm]) fun hy hboth => ?_
      exact hnot (congrArg some hy) ((succeeds_iff rfl).mpr hboth)
  | burnFrom origin y dest amount =>
      refine change_keeps (fun d hy => by simp [hy.symm]) fun hy hboth => ?_
      exact hnot (congrArg some hy) ((succeeds_iff rfl).mpr hboth)

/-- **Step inversion.** A supply changes when root initialises an asset, or when the
    asset is minted or burned. -/
theorem changed_cases (hstep : step cfg s op = some s')
    (hchanged : s'.ledger.issuance x ≠ s.ledger.issuance x) :
    op.origin = .root ∨ op.supply = some x ∧ Succeeds cfg s op := by
  obtain rfl := Option.some.inj hstep
  by_contra hnot
  obtain ⟨hroot, hsupply⟩ := not_or.mp hnot
  have hkeeps := call_keeps hroot fun hx hsucceeds => hsupply ⟨hx, hsucceeds⟩
  refine hchanged (dispatch_of_outcome (I := Keeps x s) rfl ?_)
  exact Call.outcome_iff.mpr ⟨(Call.outcome_iff.mp hkeeps).1,
    fun e t ht => .inr ((Call.outcome_iff.mp hkeeps).2 e t ht)⟩

/-! ## Supplies are guarded -/

omit [DecidableEq A] [DecidableEq X] in
/-- A signed call that goes through where root is not registered is by an account
    that governs the asset. -/
theorem governs_of_permitted {a : A} (h : Permitted cfg s (.signed a) x)
    (hroot : s.originsByAssetId x = some .root → cfg.adminOrigin (.signed a) = true) :
    Governs cfg s a x := by
  rcases h with hadmin | hno | ⟨b, hb, hregistered | hregistered⟩
  · exact .inl hadmin
  · cases hno
  · exact .inl (hroot hregistered)
  · obtain rfl := RawOrigin.signed.inj hb
    exact .inr hregistered

/-- **Step lemma.** -/
theorem guarded_iff : Guarded cfg s op ↔ RootApart cfg s op := by
  constructor
  · intro h a x horigin hsupply hroot
    by_cases haccepts : Accepts cfg s op
    · have hpermitted : Permitted cfg s op.origin x := .inr (.inr ⟨a, horigin, .inl hroot⟩)
      rcases h.signed a x horigin hsupply ((succeeds_iff hsupply).mpr ⟨hpermitted, haccepts⟩) with
        hadmin | hregistered
      · exact .inl hadmin
      · cases hroot.symm.trans hregistered
    · exact .inr haccepts
  · intro h
    have hsigned : ∀ a x, op.origin = .signed a → op.supply = some x → Succeeds cfg s op →
        Governs cfg s a x := by
      intro a x horigin hsupply hsucceeds
      obtain ⟨hpermitted, haccepts⟩ := (succeeds_iff hsupply).mp hsucceeds
      rw [horigin] at hpermitted
      refine governs_of_permitted hpermitted fun hroot => ?_
      exact (h a x horigin hsupply hroot).resolve_right fun hnot => hnot haccepts
    refine ⟨hsigned, fun s' x hstep hchanged => ?_⟩
    rcases changed_cases hstep hchanged with hroot | ⟨hsupply, hsucceeds⟩
    · exact .inl hroot
    · rcases ((succeeds_iff hsupply).mp hsucceeds).1 with hadmin | hroot | ⟨a, horigin, -⟩
      · exact .inr (.inl hadmin)
      · exact .inl hroot
      · exact .inr (.inr ⟨a, horigin, hsigned a x horigin hsupply hsucceeds⟩)

/-- **Who changes a supply governs the asset, or is root**: in a run of any calls to the two
    pallets, each signed call that mints or burns an asset is by an admin or by the account
    that is registered for it, exactly when no signed account other than an admin mints or
    burns what is registered to root. -/
theorem supply_guarded_iff (cfg : Config A X F S) (s : State A X F) (ops : List (Op A X S)) :
    Along (step cfg) (Guarded cfg) s ops ↔ Along (step cfg) (RootApart cfg) s ops :=
  along_congr fun _ _ => guarded_iff

/-- Accounts and assets are numbers, `0` is the native asset, and root is the only admin. -/
def sample : Config Nat Nat Nat Nat where
  nativeAssetId := 0
  generateCurrencyId := CurrencyFactory.counter
  nativeCurrency := Currency.existential fun _ => 1
  multiCurrency := Currency.existential fun _ => 1
  nativeCurrency_exact := inferInstance
  multiCurrency_exact := inferInstance
  lookup := some
  adminOrigin origin := decide (origin = .root)

/-- Root is granted asset `5`, and account `7`, which nobody has registered, mints it. -/
theorem mint_by_anyone :
    ∃ s, run (step sample) ⟨Ledger.empty, 6, fun _ => none⟩ [.grantRoot .root 5] = some s ∧
      s.originsByAssetId 5 = some .root ∧ ¬ Guarded sample s (.mintInto (.signed 7) 5 7 100) := by
  refine ⟨_, rfl, by decide, fun hguarded => ?_⟩
  rcases hguarded.signed 7 5 rfl rfl (by unfold Succeeds; decide) with hadmin | hregistered
  · exact absurd hadmin (by decide)
  · exact absurd hregistered (by decide)

end Assets
end Composable
