import Composable.Assets.Supply
import Composable.Democracy.Queues

/-!
# `Democracy.Enactment` — enacting what has passed

Embeds `do_enact_proposal` of `frame/democracy/src/lib.rs` with the preimages and the governance
registry that it reads. What a proposal does when it is dispatched is not known, and the native
currency may refuse to release a deposit. The index of the referendum only occurs in events.

A passed proposal is enacted with the origin that the registry has for its asset. By the time the
registry is asked the preimage has been taken and its deposit released, and nothing is rolled back:
where there is no origin, the proposal is lost. `enactment_kept_iff` says when it is not.
-/

namespace Composable
namespace Democracy

/-! ## Storage -/

inductive PreimageStatus (A : Type) where
  /-- The preimage is imminently needed at the argument. -/
  | missing (expiry : Nat)
  | available (data : List UInt8) (provider : A) (deposit since : Nat) (expiry : Option Nat)
deriving DecidableEq, Repr

inductive EnactError where
  | preimageMissing
  | preimageInvalid
  /-- The error of the governance registry. -/
  | noneError
deriving DecidableEq, Repr

structure EnactState (A X H : Type) [DecidableEq A] [DecidableEq X] where
  board : Board A X H
  preimages : ProposalId X H → Option (PreimageStatus A)
  originsByAssetId : X → Option (Assets.SignedRawOrigin A)

structure EnactConfig (A X H P : Type) [DecidableEq A] [DecidableEq X] extends QueueConfig A X where
  /-- `T::Proposal::decode`. -/
  decode : List UInt8 → Option P
  /-- What dispatching a proposal leaves, whether it succeeds or not. -/
  dispatchProposal : P → RawOrigin A → EnactState A X H → EnactState A X H

abbrev EnactCall (A X H α : Type) [DecidableEq A] [DecidableEq X] : Type :=
  Call (EnactState A X H) (DispatchError EnactError) α

variable {A X H P : Type} [DecidableEq A] [DecidableEq X] [DecidableEq H] (cfg : EnactConfig A X H P)

namespace EnactState

def ledger (s : EnactState A X H) : Ledger A X := s.board.pallet.ledger

def mapLedger (f : Ledger A X → Ledger A X) (s : EnactState A X H) : EnactState A X H :=
  { s with board := { s.board with
    pallet := { s.board.pallet with ledger := f s.board.pallet.ledger } } }

def register (x : X) (value : Option (Assets.SignedRawOrigin A)) (s : EnactState A X H) :
    EnactState A X H :=
  { s with originsByAssetId := Function.update s.originsByAssetId x value }

end EnactState

/-- `SignedRawOrigin::into`. -/
def toRawOrigin : Assets.SignedRawOrigin A → RawOrigin A
  | .root => .root
  | .signed account => .signed account

/-! ## Enacting -/

/-- An operation of the native currency, unless it is refused. -/
def payNative (refused : Option (DispatchError Empty)) (effect : Ledger A X → Ledger A X) :
    EnactCall A X H Unit :=
  match refused with
  | some e => Call.fail (e.map Empty.elim)
  | none => Call.modify (EnactState.mapLedger effect)

/-- `GovernanceRegistry::get`. -/
def governanceOrigin (x : X) : EnactCall A X H (Assets.SignedRawOrigin A) := do
  let s ← Call.get
  Call.ofOption (s.originsByAssetId x) (.module .noneError)

/-- `do_enact_proposal` up to the dispatch: the proposal and the origin that it is dispatched
    with. -/
def takeProposal (proposalId : ProposalId X H) : EnactCall A X H (P × RawOrigin A) := do
  let s ← Call.get
  Call.modify fun s => { s with preimages := Function.update s.preimages proposalId none }
  match s.preimages proposalId with
  | some (.available data provider deposit _ _) =>
      match cfg.decode data with
      | some proposal => do
          payNative (cfg.releaseRefused s.ledger provider deposit)
            (Ledger.unlock cfg.native provider deposit)
          let signedRawOrigin ← governanceOrigin proposalId.asset
          pure (proposal, toRawOrigin signedRawOrigin)
      | none => do
          payNative (cfg.transferHeldRefused s.ledger provider deposit) fun l =>
            (l.unlock cfg.native provider deposit).move cfg.native provider cfg.treasury
              (min deposit (l.reserved cfg.native provider))
          Call.fail (.module .preimageInvalid)
  | _ => Call.fail (.module .preimageMissing)

def doEnactProposal (proposalId : ProposalId X H) : EnactCall A X H Unit := do
  let (proposal, rawOrigin) ← takeProposal cfg proposalId
  Call.modify (cfg.dispatchProposal proposal rawOrigin)

/-! ## What is kept -/

variable {cfg} {id : ProposalId X H} {s s' : EnactState A X H} {data : List UInt8} {provider : A}
  {deposit since : Nat}
variable {expiry : Option Nat} {proposal : P}

/-- A decodable preimage is there. -/
structure Ready (cfg : EnactConfig A X H P) (id : ProposalId X H) (s : EnactState A X H)
    (data : List UInt8) (provider : A) (deposit : Nat) (proposal : P) : Prop where
  available : ∃ since expiry, s.preimages id = some (.available data provider deposit since expiry)
  decoded : cfg.decode data = some proposal

/-- A proposal that is ready and is not dispatched keeps its preimage, and all that is held; and an
    available preimage is taken exactly when its proposal is dispatched or cannot be decoded. -/
structure KeepsProposal (cfg : EnactConfig A X H P) (id : ProposalId X H) (s : EnactState A X H) :
    Prop where
  kept : ∀ data provider deposit proposal, Ready cfg id s data provider deposit proposal →
    ∀ e s', doEnactProposal cfg id s = (.error e, s') →
      s'.preimages id = s.preimages id ∧ s'.ledger.reserved cfg.native = s.ledger.reserved cfg.native
  taken : ∀ data provider deposit since expiry,
    s.preimages id = some (.available data provider deposit since expiry) →
    ((takeProposal cfg id s).2.preimages id = none ↔
      (∃ call, (takeProposal cfg id s).1 = .ok call) ∨ cfg.decode data = none)

/-- The deposit can be released, and there is an origin for the asset. -/
def Enactable (cfg : EnactConfig A X H P) (id : ProposalId X H) (s : EnactState A X H) : Prop :=
  ∀ data provider deposit proposal, Ready cfg id s data provider deposit proposal →
    cfg.releaseRefused s.ledger provider deposit = none ∧ (s.originsByAssetId id.asset).isSome = true

/-- The preimage is taken in any case. -/
theorem takeProposal_takes (cfg : EnactConfig A X H P) (id : ProposalId X H) (s : EnactState A X H) :
    (takeProposal cfg id s).2.preimages id = none := by
  have hpaid :
      ∀ (refused : Option (DispatchError Empty)) (effect : Ledger A X → Ledger A X) (t : EnactState A X H),
      Call.Outcome (fun _ t' => t'.preimages = t.preimages) (fun _ t' => t'.preimages = t.preimages)
        (payNative refused effect t) := by
    intro refused effect t
    cases refused with
    | none => exact rfl
    | some e => exact rfl
  have houtcome : Call.Outcome (fun _ t => t.preimages id = none) (fun _ t => t.preimages id = none)
      (takeProposal cfg id s) := by
    rw [takeProposal, Call.get_bind, Call.outcome_bind, Call.outcome_modify]
    rcases s.preimages id with _ | ⟨expiry⟩ | ⟨data, provider, deposit, since, expiry⟩
    · exact Function.update_self ..
    · exact Function.update_self ..
    · simp only
      cases cfg.decode data with
      | none =>
          refine Call.Outcome.bind ((hpaid _ _ _).imp (fun _ _ h => h) fun _ t ht => ?_)
            fun _ t ht => ?_
          · rw [ht]
            exact Function.update_self ..
          · show t.preimages id = none
            rw [ht]
            exact Function.update_self ..
      | some proposal =>
          refine Call.Outcome.bind ((hpaid _ _ _).imp (fun _ _ h => h) fun _ t ht => ?_)
            fun _ t ht => ?_
          · rw [ht]
            exact Function.update_self ..
          · have htaken : t.preimages id = none := by
              rw [ht]
              exact Function.update_self ..
            rw [governanceOrigin]
            simp only [Call.outcome_bind, Call.get_bind, Call.outcome_ofOption, Call.outcome_pure]
            exact ⟨fun _ _ => htaken, fun _ => htaken⟩
  rcases hcall : takeProposal cfg id s with ⟨e | call, t⟩
  · rw [hcall] at houtcome
    exact houtcome
  · rw [hcall] at houtcome
    exact houtcome

/-- **What is ready is dispatched** exactly if its deposit can be released and there is
    an origin for its asset. -/
theorem takeProposal_ready (h : Ready cfg id s data provider deposit proposal) :
    Call.Outcome
      (fun call _ => cfg.releaseRefused s.ledger provider deposit = none ∧
        ∃ origin, s.originsByAssetId id.asset = some origin ∧ call = (proposal, toRawOrigin origin))
      (fun _ _ => ¬ (cfg.releaseRefused s.ledger provider deposit = none ∧
        (s.originsByAssetId id.asset).isSome = true))
      (takeProposal cfg id s) := by
  obtain ⟨since, expiry, havailable⟩ := h.available
  rw [takeProposal, Call.get_bind, Call.outcome_bind, Call.outcome_modify, havailable]
  simp only [h.decoded]
  cases hrefused : cfg.releaseRefused s.ledger provider deposit with
  | some e =>
      rintro ⟨hnone, -⟩
      cases hnone
  | none =>
      rw [payNative, governanceOrigin]
      simp only [Call.outcome_bind, Call.outcome_modify, Call.get_bind, Call.outcome_ofOption,
        Call.outcome_pure]
      refine ⟨fun origin horigin => ⟨trivial, origin, horigin, rfl⟩, fun hnone => ?_⟩
      rintro ⟨-, hsome⟩
      have hnone' : s.originsByAssetId id.asset = none := hnone
      rw [hnone'] at hsome
      cases hsome

/-- **A passed proposal is not lost** exactly if it is not ready, or can be enacted at once. -/
theorem enactment_kept_iff (cfg : EnactConfig A X H P) (id : ProposalId X H) (s : EnactState A X H) :
    KeepsProposal cfg id s ↔ Enactable cfg id s := by
  constructor
  · intro h data provider deposit proposal hready
    have houtcome := takeProposal_ready hready
    rcases hcall : takeProposal cfg id s with ⟨e | call, t⟩
    · obtain ⟨since, expiry, havailable⟩ := hready.available
      have hfailed : doEnactProposal cfg id s = (.error e, t) := Call.bind_of_error hcall
      have hkept := (h.kept data provider deposit proposal hready e t hfailed).1
      have htaken := takeProposal_takes cfg id s
      rw [hcall] at htaken
      rw [havailable] at hkept
      exact absurd (htaken.symm.trans hkept) nofun
    · rw [hcall] at houtcome
      obtain ⟨hreleased, origin, horigin, -⟩ := houtcome
      rw [horigin]
      exact ⟨hreleased, rfl⟩
  · intro h
    -- what is ready is dispatched
    have hdispatched :
        ∀ data provider deposit proposal, Ready cfg id s data provider deposit proposal →
        ∃ call t, takeProposal cfg id s = (.ok call, t) := by
      intro data provider deposit proposal hready
      have houtcome := takeProposal_ready hready
      rcases hcall : takeProposal cfg id s with ⟨e | call, t⟩
      · rw [hcall] at houtcome
        exact absurd (h data provider deposit proposal hready) houtcome
      · exact ⟨call, t, rfl⟩
    constructor
    · intro data provider deposit proposal hready e s' hfailed
      obtain ⟨call, t, hcall⟩ := hdispatched data provider deposit proposal hready
      rw [doEnactProposal, Call.bind_of_ok hcall] at hfailed
      cases hfailed
    · intro data provider deposit since expiry havailable
      refine iff_of_true (takeProposal_takes cfg id s) ?_
      cases hdecode : cfg.decode data with
      | none => exact .inr rfl
      | some proposal =>
          obtain ⟨call, t, hcall⟩ :=
            hdispatched data provider deposit proposal ⟨⟨since, expiry, havailable⟩, hdecode⟩
          rw [hcall]
          exact .inl ⟨call, rfl⟩

/-! ## A small chain -/

/-- Proposals are bytes, and they do nothing. -/
def enactSample : EnactConfig Nat Nat Nat UInt8 where
  toQueueConfig := queueSample
  decode data := data.head?
  dispatchProposal _ _ s := s

/-- There is a preimage with a deposit of ten, and no origin is registered. -/
def enactSampleState : EnactState Nat Nat Nat where
  board := ⟨{ sampleGenesis.pallet with ledger := sampleGenesis.pallet.ledger.lock 0 1 10 }, .empty⟩
  preimages := Function.update (fun _ => none) ⟨7, 1⟩ (some (.available [3] 1 10 0 none))
  originsByAssetId _ := none

/-- Without an origin the preimage and its deposit are gone, and registering one comes too late. -/
theorem enactment_loses :
    ∃ s', doEnactProposal enactSample ⟨7, 1⟩ enactSampleState = (.error (.module .noneError), s') ∧
      s'.preimages ⟨7, 1⟩ = none ∧ enactSampleState.ledger.reserved 0 1 = 10 ∧
      s'.ledger.reserved 0 1 = 0 ∧
      (doEnactProposal enactSample ⟨7, 1⟩ (s'.register 1 (some .root))).1 =
        .error (.module .preimageMissing) ∧
      ¬ KeepsProposal enactSample ⟨7, 1⟩ enactSampleState := by
  refine ⟨_, rfl, rfl, rfl, rfl, rfl, fun h => ?_⟩
  have hkept := (h.kept [3] 1 10 3 ⟨⟨0, none, rfl⟩, rfl⟩ _ _ rfl).1
  cases hkept

end Democracy
end Composable
