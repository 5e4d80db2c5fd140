import Composable.Democracy.Encoding

/-!
# `Democracy.Preimages` — the preimages of proposals

Embeds what `frame/democracy/src/lib.rs` does with preimages: noting one with a deposit, or without
when it is imminently needed, reaping one that has expired, the mark that `bake_referendum` leaves
on the preimage of what has passed, and the call that enacts it. Votes, referenda and queues are the
other modules of the pallet; the scheduler is a caller of `enact_proposal`, and what an enacted
proposal does are further calls.

The preimage that a passed referendum has marked with its block cannot be reaped before that block
is over (`imminent_kept`), whoever has noted it and whoever else's referendum is about it.

## Contents
- **Calls** and the chain with them.
- **Turns** (`PreimageTurn`): all that a step can do to the preimages.
- **What is imminent is kept**, over runs.
-/

namespace Composable
namespace Democracy

/-! ## Storage -/

/-- `Error<T>`, as far as the calls on preimages return it, and the error of
    the governance registry. -/
inductive PreimageError where
  | duplicatePreimage
  | notImminent
  | preimageMissing
  | preimageInvalid
  | wrongUpperBound
  | tooEarly
  | imminent
  | noneError
deriving DecidableEq, Repr

def EnactError.toPreimageError : EnactError → PreimageError
  | .preimageMissing => .preimageMissing
  | .preimageInvalid => .preimageInvalid
  | .noneError => .noneError

def PeekError.toPreimageError : PeekError → PreimageError
  | .notImminent => .notImminent
  | .duplicatePreimage => .duplicatePreimage
  | .preimageMissing => .preimageMissing

structure PreimageConfig (A X H P : Type) [DecidableEq A]
    [DecidableEq X] extends EnactConfig A X H P where
  /-- `T::Hashing::hash`. -/
  hash : List UInt8 → H
  preimageByteDeposit : Nat
  /-- The account that provides a preimage with an operational extrinsic. -/
  operationalPreimageOrigin : RawOrigin A → Option A
  /-- What a `transfer_held` that is held in full refuses, from whom and to whom. -/
  collectRefused : Ledger A X → A → A → Nat → Option (DispatchError Empty)

abbrev PreimageCall (A X H α : Type) [DecidableEq A] [DecidableEq X] : Type :=
  Call (EnactState A X H) (DispatchError PreimageError) α

def PreimageStatus.toMissingExpiry {A : Type} : PreimageStatus A → Option Nat
  | .missing expiry => some expiry
  | .available .. => none

/-- The provider, the deposit, and since when and until when an available preimage is kept. -/
def PreimageStatus.asAvailable {A : Type} : PreimageStatus A → Option (A × Nat × Nat × Option Nat)
  | .missing _ => none
  | .available _ provider deposit since expiry => some (provider, deposit, since, expiry)

variable {A X H P : Type} [LinearOrder A] [DecidableEq X] [DecidableEq H]

def EnactState.putPreimage (id : ProposalId X H) (status : Option (PreimageStatus A))
    (s : EnactState A X H) : EnactState A X H :=
  { s with preimages := Function.update s.preimages id status }

variable (cfg : PreimageConfig A X H P)

/-! ## Calls -/

/-- A call with the errors of enacting. -/
def fromEnact {α : Type} (x : EnactCall A X H α) : PreimageCall A X H α :=
  Call.zoom (fun s => s) (fun s _ => s) (DispatchError.map EnactError.toPreimageError) x

/-- What the first bytes of a stored preimage tell (`peeks_agree`). -/
def peeked {α : Type} (answer : Except PeekError α) : PreimageCall A X H α :=
  Call.ofExcept (answer.mapError fun e => .module e.toPreimageError)

/-- The deposit for a preimage, by its bytes. -/
def PreimageConfig.depositFor (data : List UInt8) : Nat :=
  min (data.length % 2 ^ 32 * cfg.preimageByteDeposit) cfg.balanceMax

def notePreimageInner (now : Nat) (who : A) (encodedProposal : List UInt8) (asset : X) :
    PreimageCall A X H Unit := do
  let s ← Call.get
  let id : ProposalId X H := ⟨cfg.hash encodedProposal, asset⟩
  Call.ensure ((s.preimages id).isNone = true) (.module .duplicatePreimage)
  let deposit := cfg.depositFor encodedProposal
  fromEnact (payNative (cfg.holdRefused s.ledger who deposit) (Ledger.lock cfg.native who deposit))
  Call.modify (EnactState.putPreimage id (some (.available encodedProposal who deposit now none)))

def noteImminentPreimageInner (now : Nat) (who : A) (encodedProposal : List UInt8) (asset : X) :
    PreimageCall A X H Unit := do
  let s ← Call.get
  let id : ProposalId X H := ⟨cfg.hash encodedProposal, asset⟩
  peeked (PreimageStatus.checkMissing (s.preimages id))
  let status ← Call.ofOption (s.preimages id) (.module .notImminent)
  let expiry ← Call.ofOption status.toMissingExpiry (.module .duplicatePreimage)
  Call.modify (EnactState.putPreimage id (some (.available encodedProposal who 0 now (some expiry))))

/-- `transfer_held` to the free balance of another account, without best
    effort. An error is dropped. -/
def collectDeposit (provider who : A) (deposit : Nat) (s : EnactState A X H) : EnactState A X H :=
  if s.ledger.reserved cfg.native provider < deposit ∨
    (cfg.collectRefused s.ledger provider who deposit).isSome = true then s
  else s.mapLedger fun l => (l.unlock cfg.native provider deposit).move cfg.native provider
    who deposit

def reapPreimage (now : Nat) (origin : RawOrigin A) (id : ProposalId X H)
    (proposalLenUpperBound : Nat) : PreimageCall A X H Unit := do
  let who ← ensureSigned origin
  let s ← Call.get
  let len ← peeked (PreimageStatus.dataLen (s.preimages id))
  Call.ensure (len ≤ proposalLenUpperBound) (.module .wrongUpperBound)
  let (provider, deposit, since, expiry) ←
    Call.ofOption ((s.preimages id).bind PreimageStatus.asAvailable) (.module .preimageMissing)
  let additional := if who = provider then 0 else cfg.enactmentPeriod
  Call.ensure ((since + cfg.votingPeriod + additional) % cfg.blockNumbers ≤ now) (.module .tooEarly)
  Call.ensure (∀ e ∈ expiry, e < now) (.module .imminent)
  Call.modify fun s => (collectDeposit cfg provider who deposit s).putPreimage id none

inductive PreimageExtrinsic (A X H : Type) where
  | notePreimage (origin : RawOrigin A) (encodedProposal : List UInt8) (asset : X)
  | notePreimageOperational (origin : RawOrigin A) (encodedProposal : List UInt8) (asset : X)
  | noteImminentPreimage (origin : RawOrigin A) (encodedProposal : List UInt8) (asset : X)
  | noteImminentPreimageOperational (origin : RawOrigin A) (encodedProposal : List UInt8) (asset : X)
  | reapPreimage (origin : RawOrigin A) (id : ProposalId X H) (proposalLenUpperBound : Nat)
  | enactProposal (origin : RawOrigin A) (id : ProposalId X H)

/-- The body of a call at block `now`. What an enacted proposal does are calls of their own. -/
def preimageBody (now : Nat) : PreimageExtrinsic A X H → PreimageCall A X H Unit
  | .notePreimage origin encodedProposal asset => do
      let who ← ensureSigned origin
      notePreimageInner cfg now who encodedProposal asset
  | .notePreimageOperational origin encodedProposal asset => do
      let who ← Call.ofOption (cfg.operationalPreimageOrigin origin) .badOrigin
      notePreimageInner cfg now who encodedProposal asset
  | .noteImminentPreimage origin encodedProposal asset => do
      let who ← ensureSigned origin
      noteImminentPreimageInner cfg now who encodedProposal asset
  | .noteImminentPreimageOperational origin encodedProposal asset => do
      let who ← Call.ofOption (cfg.operationalPreimageOrigin origin) .badOrigin
      noteImminentPreimageInner cfg now who encodedProposal asset
  | .reapPreimage origin id proposalLenUpperBound =>
      reapPreimage cfg now origin id proposalLenUpperBound
  | .enactProposal origin id => do
      ensureRoot origin
      let _ ← fromEnact (takeProposal cfg.toEnactConfig id)
      pure ()

/-! ## The chain -/

structure ArchiveChain (A X H : Type) [DecidableEq A] [DecidableEq X] where
  board : QueueChain A X H
  preimages : ProposalId X H → Option (PreimageStatus A)
  originsByAssetId : X → Option (Assets.SignedRawOrigin A)

namespace ArchiveChain

variable (c : ArchiveChain A X H)

/-- What the calls on preimages work on. -/
def state : EnactState A X H := ⟨c.board.board, c.preimages, c.originsByAssetId⟩

def put (s : EnactState A X H) : ArchiveChain A X H where
  board := ⟨{ c.board.chain with pallet := s.board.pallet }, s.board.queues⟩
  preimages := s.preimages
  originsByAssetId := s.originsByAssetId

def now : Nat := c.board.chain.now

end ArchiveChain

/-- `queue` is an operation of the rest of the pallet, and `register` one of
    the governance registry. -/
inductive ArchiveOp (A X H : Type) where
  | queue (op : QueueOp A X H)
  | call (extrinsic : PreimageExtrinsic A X H)
  | register (asset : X) (value : Option (Assets.SignedRawOrigin A))

/-- The mark of `bake_referendum`: the preimage is needed at `till`. -/
def PreimageStatus.mark (till : Nat) : Option (PreimageStatus A) → PreimageStatus A
  | some (.available data provider deposit since _) =>
      .available data provider deposit since (some till)
  | _ => .missing till

/-- What the referendum that is baked next marks, if it passes and is enacted with a delay. -/
def marked (c : Chain A X H) : Option (ProposalId X H × Nat) :=
  match c.phase with
  | .maturing _ ((_, status) :: _) =>
      if status.threshold.approved status.tally (c.pallet.ledger.issuance status.proposalId.asset) =
          some true ∧
          status.delay ≠ 0 then
        some (status.proposalId, (c.now + status.delay) % cfg.blockNumbers)
      else none
  | _ => none

/-- What an operation of the rest of the pallet marks. -/
def markedBy (c : Chain A X H) : QueueOp A X H → Option (ProposalId X H × Nat)
  | .rest .bake => marked cfg c
  | _ => none

def markPreimages (mark : Option (ProposalId X H × Nat))
    (preimages : ProposalId X H → Option (PreimageStatus A)) :
    ProposalId X H → Option (PreimageStatus A) :=
  match mark with
  | some (id, till) => Function.update preimages id (some (PreimageStatus.mark till (preimages id)))
  | none => preimages

def archiveStep (c : ArchiveChain A X H) : ArchiveOp A X H → Option (ArchiveChain A X H)
  | .queue op =>
      (queueStep cfg.toQueueConfig c.board op).map fun board =>
        { c with
          board := board, preimages := markPreimages (markedBy cfg c.board.chain op) c.preimages }
  | .call extrinsic =>
      if c.board.chain.phase.dispatches then
        some (c.put (dispatch (preimageBody cfg c.now extrinsic) c.state)) else none
  | .register asset value =>
      some { c with originsByAssetId := Function.update c.originsByAssetId asset value }

/-- The chain before its first block. -/
def ArchiveChain.genesis (ledger : Ledger A X) : ArchiveChain A X H :=
  ⟨QueueChain.genesis ledger, fun _ => none, fun _ => none⟩

/-! ## What a call can do -/

variable {cfg} {now : Nat} {id : ProposalId X H} {s s' : EnactState A X H}

/-- What is left of the state when a proposal was taken to be enacted. -/
inductive Taken (cfg : EnactConfig A X H P) (id : ProposalId X H) (s : EnactState A X H) :
    EnactState A X H → Prop
  | nothing (hstored : (s.preimages id).bind PreimageStatus.asAvailable = none) :
      Taken cfg id s (s.putPreimage id none)
  | refunded {data provider deposit since expiry}
      (hstored : s.preimages id = some (.available data provider deposit since expiry))
      (hdecode : (cfg.decode data).isSome = true)
        (hreleased : cfg.releaseRefused s.ledger provider deposit = none) :
      Taken cfg id s ((s.putPreimage id none).mapLedger (Ledger.unlock cfg.native provider deposit))
  | slashed {data provider deposit since expiry}
      (hstored : s.preimages id = some (.available data provider deposit since expiry))
        (hdecode : cfg.decode data = none)
      (htransferred : cfg.transferHeldRefused s.ledger provider deposit = none) :
      Taken cfg id s ((s.putPreimage id none).mapLedger fun l =>
        (l.unlock cfg.native provider deposit).move cfg.native provider cfg.treasury
          (min deposit (l.reserved cfg.native provider)))
  | unreleased {data provider deposit since expiry}
      (hstored : s.preimages id = some (.available data provider deposit since expiry))
      (hdecode : (cfg.decode data).isSome = true)
      (hrefused : (cfg.releaseRefused s.ledger provider deposit).isSome = true) :
          Taken cfg id s (s.putPreimage id none)
  | unslashed {data provider deposit since expiry}
      (hstored : s.preimages id = some (.available data provider deposit since expiry))
        (hdecode : cfg.decode data = none)
      (hrefused : (cfg.transferHeldRefused s.ledger provider deposit).isSome = true) :
      Taken cfg id s (s.putPreimage id none)

theorem takeProposal_taken (cfg : EnactConfig A X H P) (id : ProposalId X H) (s : EnactState A X H) :
    Call.Outcome (fun _ => Taken cfg id s) (fun _ => Taken cfg id s) (takeProposal cfg id s) := by
  rw [takeProposal, Call.get_bind, Call.outcome_bind, Call.outcome_modify]
  rcases hstored : s.preimages id with _ | ⟨expiry⟩ | ⟨data, provider, deposit, since, expiry⟩
  · exact .nothing (by rw [hstored]; rfl)
  · exact .nothing (by rw [hstored]; rfl)
  · simp only
    cases hdecode : cfg.decode data with
    | none =>
        simp only [payNative]
        cases htransferred : cfg.transferHeldRefused s.ledger provider deposit with
        | some e => exact .unslashed hstored hdecode (by rw [htransferred]; rfl)
        | none => exact .slashed hstored hdecode htransferred
    | some proposal =>
        simp only [payNative]
        cases hreleased : cfg.releaseRefused s.ledger provider deposit with
        | some e => exact .unreleased hstored (by rw [hdecode]; rfl) (by rw [hreleased]; rfl)
        | none =>
            have hrefunded : Taken cfg id s
                ((s.putPreimage id none).mapLedger (Ledger.unlock cfg.native provider deposit)) :=
              .refunded hstored (by rw [hdecode]; rfl) hreleased
            simp only [governanceOrigin, Call.outcome_bind, Call.outcome_modify, Call.get_bind,
              Call.outcome_ofOption, Call.outcome_pure]
            exact ⟨fun _ _ => hrefunded, fun _ => hrefunded⟩

/-- All that a call at block `now` can do. -/
inductive PreimageTurn (cfg : PreimageConfig A X H P) (now : Nat) (s : EnactState A X H) :
    PreimageExtrinsic A X H → EnactState A X H → Prop
  | same {e} : PreimageTurn cfg now s e s
  | noted {e} (who : A) (data : List UInt8) (asset : X)
      (hnew : s.preimages ⟨cfg.hash data, asset⟩ = none)
      (hheld : cfg.holdRefused s.ledger who (cfg.depositFor data) = none) :
      PreimageTurn cfg now s e
        ((s.mapLedger (Ledger.lock cfg.native who (cfg.depositFor data))).putPreimage
        ⟨cfg.hash data, asset⟩ (some (.available data who (cfg.depositFor data) now none)))
  | notedImminent {e} (who : A) (data : List UInt8) (asset : X) (expiry : Nat)
      (hmissing : s.preimages ⟨cfg.hash data, asset⟩ = some (.missing expiry)) :
      PreimageTurn cfg now s e
        (s.putPreimage ⟨cfg.hash data, asset⟩ (some (.available data who 0 now (some expiry))))
  | reaped {id : ProposalId X H} {bound data provider deposit since expiry} (who : A)
      (hstored : s.preimages id = some (.available data provider deposit since expiry))
      (hdue : (since + cfg.votingPeriod + if who = provider then 0 else cfg.enactmentPeriod) %
        cfg.blockNumbers ≤ now)
      (hexpired : ∀ e ∈ expiry, e < now) :
      PreimageTurn cfg now s (.reapPreimage (.signed who) id bound)
        ((collectDeposit cfg provider who deposit s).putPreimage id none)
  | enacted {id : ProposalId X H} {t : EnactState A X H} (htaken : Taken cfg.toEnactConfig id s t) :
      PreimageTurn cfg now s (.enactProposal .root id) t

omit [DecidableEq H] in
/-- The currency is asked, and does it or does nothing. -/
theorem payNative_outcome {P : Unit → EnactState A X H → Prop}
    {Q : DispatchError PreimageError → EnactState A X H → Prop}
    {refused : Option (DispatchError Empty)} {effect : Ledger A X → Ledger A X}
    (hP : refused = none → P () (s.mapLedger effect)) (hQ : ∀ e, Q e s) :
    Call.Outcome P Q (fromEnact (payNative refused effect) s) := by
  rw [fromEnact, Call.outcome_zoom]
  cases refused with
  | none => exact hP rfl
  | some e => exact hQ _

theorem notePreimageInner_turn {e : PreimageExtrinsic A X H} (who : A) (data : List UInt8)
    (asset : X) :
    Call.Outcome (fun _ => PreimageTurn cfg now s e) (fun _ => PreimageTurn cfg now s e)
      (notePreimageInner cfg now who data asset s) := by
  rw [notePreimageInner, Call.get_bind, Call.outcome_bind, Call.outcome_ensure]
  refine ⟨fun hnew => ?_, fun _ => .same⟩
  rw [Call.outcome_bind]
  refine payNative_outcome (fun hheld => ?_) fun _ => .same
  rw [Call.outcome_modify]
  exact .noted who data asset (Option.isNone_iff_eq_none.mp hnew) hheld

theorem noteImminentPreimageInner_turn {e : PreimageExtrinsic A X H} (who : A) (data : List UInt8)
    (asset : X) :
    Call.Outcome (fun _ => PreimageTurn cfg now s e) (fun _ => PreimageTurn cfg now s e)
      (noteImminentPreimageInner cfg now who data asset s) := by
  rw [noteImminentPreimageInner, Call.get_bind]
  simp only [peeked, Call.outcome_bind, Call.outcome_ofExcept, Call.outcome_ofOption,
    Call.outcome_modify]
  refine ⟨fun _ _ => ⟨fun status hstatus => ⟨fun expiry hexpiry => ?_, fun _ => .same⟩,
    fun _ => .same⟩, fun _ _ => .same⟩
  cases status with
  | missing till =>
      obtain rfl := Option.some.inj hexpiry
      exact .notedImminent who data asset till hstatus
  | available => cases hexpiry

theorem reapPreimage_turn (origin : RawOrigin A) (bound : Nat) :
    Call.Outcome (fun _ => PreimageTurn cfg now s (.reapPreimage origin id bound))
      (fun _ => PreimageTurn cfg now s (.reapPreimage origin id bound))
        (reapPreimage cfg now origin id bound s) := by
  rw [reapPreimage]
  simp only [peeked, Call.outcome_bind, ensureSigned_outcome, Call.get_bind, Call.outcome_ofExcept,
    Call.outcome_ensure, Call.outcome_ofOption, Call.outcome_modify]
  refine ⟨fun who horigin =>
    ⟨fun len _ => ⟨fun _ => ⟨fun kept hkept => ?_, fun _ => .same⟩, fun _ => .same⟩,
    fun _ _ => .same⟩, fun _ => .same⟩
  obtain ⟨provider, deposit, since, expiry⟩ := kept
  refine ⟨fun hdue => ⟨fun hexpired => ?_, fun _ => .same⟩, fun _ => .same⟩
  obtain ⟨status, hstored, havailable⟩ := Option.bind_eq_some_iff.mp hkept
  cases status with
  | missing till => cases havailable
  | available data provider' deposit' since' expiry' =>
      obtain ⟨rfl, rfl, rfl, rfl⟩ : provider' = provider ∧ deposit' = deposit ∧ since' = since ∧
          expiry' = expiry := by
        simpa [PreimageStatus.asAvailable] using havailable
      rw [horigin]
      exact .reaped who hstored hdue hexpired

/-- **A call** does one of these, whether it returns or fails. -/
theorem preimageBody_turn (e : PreimageExtrinsic A X H) (s : EnactState A X H) :
    Call.Outcome (fun _ => PreimageTurn cfg now s e) (fun _ => PreimageTurn cfg now s e)
      (preimageBody cfg now e s) := by
  cases e with
  | notePreimage origin data asset =>
      rw [preimageBody, Call.outcome_bind, ensureSigned_outcome]
      exact ⟨fun who _ => notePreimageInner_turn who data asset, fun _ => .same⟩
  | notePreimageOperational origin data asset =>
      rw [preimageBody, Call.outcome_bind, Call.outcome_ofOption]
      exact ⟨fun who _ => notePreimageInner_turn who data asset, fun _ => .same⟩
  | noteImminentPreimage origin data asset =>
      rw [preimageBody, Call.outcome_bind, ensureSigned_outcome]
      exact ⟨fun who _ => noteImminentPreimageInner_turn who data asset, fun _ => .same⟩
  | noteImminentPreimageOperational origin data asset =>
      rw [preimageBody, Call.outcome_bind, Call.outcome_ofOption]
      exact ⟨fun who _ => noteImminentPreimageInner_turn who data asset, fun _ => .same⟩
  | reapPreimage origin id bound => exact reapPreimage_turn origin bound
  | enactProposal origin id =>
      rw [preimageBody, Call.outcome_bind, ensureRoot_outcome]
      refine ⟨fun hroot => ?_, fun _ => .same⟩
      rw [hroot, Call.outcome_bind, fromEnact, Call.outcome_zoom]
      exact (takeProposal_taken cfg.toEnactConfig id s).imp (fun _ _ htaken => .enacted htaken)
          fun _ _ htaken =>
        .enacted htaken

theorem dispatch_preimageTurn (e : PreimageExtrinsic A X H) (s : EnactState A X H) :
    PreimageTurn cfg now s e (dispatch (preimageBody cfg now e) s) :=
  dispatch_of_outcome .same ((preimageBody_turn e s).imp (fun _ _ h => h) fun _ _ h => .inr h)

/-! ## What a step can do -/

variable {c c' d : ArchiveChain A X H} {op : ArchiveOp A X H} {ops : List (ArchiveOp A X H)}
  {till : Nat}
variable {data : List UInt8} {provider : A} {deposit since : Nat} {expiry : Option Nat}

/-- The three kinds of operations. -/
inductive Archived (cfg : PreimageConfig A X H P) (c : ArchiveChain A X H) :
    ArchiveOp A X H → ArchiveChain A X H → Prop
  | queue {op board} (hstep : queueStep cfg.toQueueConfig c.board op = some board) :
      Archived cfg c (.queue op)
        { c with
          board := board, preimages := markPreimages (markedBy cfg c.board.chain op) c.preimages }
  | call {e} {s : EnactState A X H} (hturn : PreimageTurn cfg c.now c.state e s) :
      Archived cfg c (.call e) (c.put s)
  | register (asset value) :
      Archived cfg c (.register asset value) { c with
        originsByAssetId := Function.update c.originsByAssetId asset value }

theorem archiveStep_archived (hstep : archiveStep cfg c op = some c') : Archived cfg c op c' := by
  cases op with
  | queue op =>
      obtain ⟨board, hboard, rfl⟩ := Option.map_eq_some_iff.mp hstep
      exact .queue hboard
  | call e =>
      simp only [archiveStep] at hstep
      split at hstep
      · obtain rfl := Option.some.inj hstep
        exact .call (dispatch_preimageTurn e c.state)
      · cases hstep
  | register asset value =>
      obtain rfl := Option.some.inj hstep
      exact .register asset value

@[simp] theorem putPreimage_self {status : Option (PreimageStatus A)} :
    (s.putPreimage id status).preimages id = status :=
  Function.update_self ..

theorem putPreimage_ne {id' : ProposalId X H} {status : Option (PreimageStatus A)} (h : id' ≠ id) :
    (s.putPreimage id status).preimages id' = s.preimages id' := Function.update_of_ne h ..

omit [DecidableEq H] in
@[simp] theorem mapLedger_preimages {f : Ledger A X → Ledger A X} :
    (s.mapLedger f).preimages = s.preimages := rfl

omit [DecidableEq H] in
theorem collectDeposit_preimages {who : A} :
    (collectDeposit cfg provider who deposit s).preimages = s.preimages := by
  unfold collectDeposit
  split <;> rfl

/-- A taken preimage is gone, and the others are not touched. -/
theorem Taken.preimages {cfg : EnactConfig A X H P} {t : EnactState A X H} (h : Taken cfg id s t) :
    t.preimages = Function.update s.preimages id none := by
  cases h with
  | nothing => rfl
  | refunded => rfl
  | slashed => rfl
  | unreleased => rfl
  | unslashed => rfl

omit [LinearOrder A] in
theorem markPreimages_cases (mark : Option (ProposalId X H × Nat))
    (preimages : ProposalId X H → Option (PreimageStatus A)) (id : ProposalId X H) :
    markPreimages mark preimages id = preimages id ∨
      ∃ till, mark = some (id, till) ∧
        markPreimages mark preimages id = some (PreimageStatus.mark till (preimages id)) := by
  rcases mark with _ | ⟨marked, till⟩
  · exact .inl rfl
  · by_cases hid : id = marked
    · subst hid
      exact .inr ⟨till, rfl, Function.update_self ..⟩
    · exact .inl (Function.update_of_ne hid ..)

/-! ## What is imminent is kept -/

/-- The preimage is kept, or waited for, until the block `till` is over. -/
def Needed (till : Nat) (status : Option (PreimageStatus A)) : Prop :=
  ∃ t, till ≤ t ∧ (status = some (.missing t) ∨
    ∃ data provider deposit since, status = some (.available data provider deposit since (some t)))

/-- The block `till` is not over, nothing else is enacted with the preimage, and no other referendum
    needs it for a shorter time. -/
def KeepsImminent (cfg : PreimageConfig A X H P) (id : ProposalId X H) (till : Nat)
    (c : ArchiveChain A X H) (op : ArchiveOp A X H) : Prop :=
  c.now ≤ till ∧ (∀ origin, op ≠ .call (.enactProposal origin id)) ∧
    ∀ op' t, op = .queue op' → markedBy cfg c.board.chain op' = some (id, t) → till ≤ t

/-- Once it is there it stays as it is, but for its mark. -/
def SameData (status status' : Option (PreimageStatus A)) : Prop :=
  ∀ data provider deposit since expiry,
    status = some (.available data provider deposit since expiry) →
    ∃ expiry', status' = some (.available data provider deposit since expiry')

omit [LinearOrder A] [DecidableEq X] [DecidableEq H] in
theorem SameData.refl (status : Option (PreimageStatus A)) : SameData status status :=
  fun _ _ _ _ expiry h => ⟨expiry, h⟩

omit [LinearOrder A] [DecidableEq X] [DecidableEq H] in
theorem SameData.trans {status status' status'' : Option (PreimageStatus A)}
    (h : SameData status status') (h' : SameData status' status'') : SameData status status'' := by
  intro data provider deposit since expiry hstatus
  obtain ⟨expiry', hstatus'⟩ := h data provider deposit since expiry hstatus
  exact h' data provider deposit since expiry' hstatus'

omit [LinearOrder A] [DecidableEq X] [DecidableEq H] in
/-- A mark changes nothing else. -/
theorem mark_needed {status : Option (PreimageStatus A)} {t : Nat} (hle : till ≤ t) :
    Needed till (some (PreimageStatus.mark t status)) ∧
      SameData status (some (PreimageStatus.mark t status)) := by
  rcases status with _ | ⟨t'⟩ | ⟨data, provider, deposit, since, expiry⟩
  · refine ⟨⟨t, hle, .inl rfl⟩, ?_⟩
    intro _ _ _ _ _ h
    cases h
  · refine ⟨⟨t, hle, .inl rfl⟩, ?_⟩
    intro _ _ _ _ _ h
    cases h
  · refine ⟨⟨t, hle, .inr ⟨data, provider, deposit, since, rfl⟩⟩, ?_⟩
    intro _ _ _ _ _ h
    cases h
    exact ⟨some t, rfl⟩

/-- What a call at a block that is not over leaves of a needed preimage, if it does not enact it. -/
theorem Needed.turn {now : Nat} {e : PreimageExtrinsic A X H} (h : Needed till (s.preimages id))
    (hnow : now ≤ till)
    (hother : ∀ origin, e ≠ .enactProposal origin id) (hturn : PreimageTurn cfg now s e s') :
    Needed till (s'.preimages id) ∧ SameData (s.preimages id) (s'.preimages id) := by
  obtain ⟨t, ht, hstatus⟩ := h
  have hkept : ∀ {status}, status = s.preimages id → Needed till status ∧
      SameData (s.preimages id) status := by
    rintro _ rfl
    exact ⟨⟨t, ht, hstatus⟩, .refl _⟩
  cases hturn with
  | same => exact hkept rfl
  | noted who data asset hnew =>
      apply hkept
      apply putPreimage_ne
      rintro rfl
      rw [hnew] at hstatus
      rcases hstatus with hstatus | ⟨_, _, _, _, hstatus⟩ <;> cases hstatus
  | notedImminent who data asset expiry hmissing =>
      by_cases hid : id = ⟨cfg.hash data, asset⟩
      · subst hid
        rw [hmissing] at hstatus
        obtain hstatus | ⟨_, _, _, _, hstatus⟩ := hstatus
        · cases hstatus
          rw [putPreimage_self]
          refine ⟨⟨t, ht, .inr ⟨data, who, 0, now, rfl⟩⟩, ?_⟩
          intro _ _ _ _ _ havailable
          rw [hmissing] at havailable
          cases havailable
        · cases hstatus
      · exact hkept (putPreimage_ne hid)
  | reaped who hstored hdue hexpired =>
      rename_i id' bound data provider deposit since expiry
      apply hkept
      have hne : id ≠ id' := by
        rintro rfl
        -- the mark is not over, so it is too early
        rw [hstored] at hstatus
        obtain hstatus | ⟨_, _, _, _, hstatus⟩ := hstatus
        · cases hstatus
        · cases hstatus
          have hover := hexpired t rfl
          omega
      rw [putPreimage_ne hne, collectDeposit_preimages]
  | enacted htaken =>
      rename_i id'
      apply hkept
      have hne : id ≠ id' := by
        rintro rfl
        exact hother _ rfl
      rw [htaken.preimages, Function.update_of_ne hne]

theorem Needed.step (h : Needed till (c.preimages id)) (hop : KeepsImminent cfg id till c op)
    (hstep : archiveStep cfg c op = some c') :
    Needed till (c'.preimages id) ∧ SameData (c.preimages id) (c'.preimages id) := by
  obtain ⟨hnow, hother, hmarks⟩ := hop
  cases archiveStep_archived hstep with
  | queue hqueue =>
      rename_i op board
      show Needed till (markPreimages _ _ id) ∧ SameData _ (markPreimages _ _ id)
      rcases markPreimages_cases (markedBy cfg c.board.chain op) c.preimages id with
        hsame | ⟨t, hmark, hmarked⟩
      · rw [hsame]
        exact ⟨h, .refl _⟩
      · rw [hmarked]
        exact mark_needed (hmarks op t rfl hmark)
  | call hturn =>
      exact Needed.turn (s := c.state) h hnow (fun origin he => hother origin (he ▸ rfl)) hturn
  | register => exact ⟨h, .refl _⟩

/-- **What is imminent is kept**: from a state in which a preimage is needed until `till`, as long
    as that block is not over, it stays needed, and once it is there it stays. -/
theorem Needed.run (h : Needed till (c.preimages id))
    (hops : Along (archiveStep cfg) (KeepsImminent cfg id till) c ops)
    (hrun : run (archiveStep cfg) c ops = some c') :
    Needed till (c'.preimages id) ∧ SameData (c.preimages id) (c'.preimages id) := by
  have hneeded := run_invariant (I := fun c => Needed till (c.preimages id))
    (fun h hop hstep => (Needed.step h hop hstep).1) h hops hrun
  refine ⟨hneeded, ?_⟩
  exact run_related (I := fun c => Needed till (c.preimages id))
    (R := fun c c' => SameData (c.preimages id) (c'.preimages id)) (fun c => .refl _) SameData.trans
    (fun h hop hstep => Needed.step h hop hstep) h hops hrun

/-- What is decodable, can be released and has an origin is dispatched. -/
theorem takeProposal_dispatches {cfg : EnactConfig A X H P} {proposal : P}
    {origin : Assets.SignedRawOrigin A}
    (hstored : s.preimages id = some (.available data provider deposit since expiry))
    (hdecode : cfg.decode data = some proposal)
    (hreleased : cfg.releaseRefused s.ledger provider deposit = none)
    (horigin : s.originsByAssetId id.asset = some origin) :
    (takeProposal cfg id s).1 = .ok (proposal, toRawOrigin origin) := by
  have houtcome := takeProposal_ready ⟨⟨since, expiry, hstored⟩, hdecode⟩
  rcases hcall : takeProposal cfg id s with ⟨e | call, t⟩
  · rw [hcall] at houtcome
    refine absurd ⟨hreleased, ?_⟩ houtcome
    rw [horigin]
    rfl
  · rw [hcall] at houtcome
    obtain ⟨-, origin', horigin', rfl⟩ := houtcome
    rw [Option.some.inj (horigin.symm.trans horigin')]

/-- Whoever has the data of a missing preimage may note it. -/
theorem noteImminent_missing {who : A} {t : Nat} (hmissing : s.preimages id = some (.missing t))
    (hdata : cfg.hash data = id.hash) :
    (dispatch (preimageBody cfg now (.noteImminentPreimage (.signed who) data id.asset))
      s).preimages id =
      some (.available data who 0 now (some t)) := by
  have hid : (⟨cfg.hash data, id.asset⟩ : ProposalId X H) = id := by rw [hdata]
  have hcall : preimageBody cfg now (.noteImminentPreimage (.signed who) data id.asset) s =
      (.ok (), s.putPreimage id (some (.available data who 0 now (some t)))) := by
    simp [preimageBody, noteImminentPreimageInner, peeked, hid, hmissing, PreimageStatus.checkMissing,
      PreimageStatus.toMissingExpiry, Except.mapError]
  rw [dispatch, hcall]
  exact putPreimage_self

/-- **What has passed can be enacted.** From the block in which a referendum with a delay passes
    until the block it is to be enacted in is over, its preimage stays if it was there, and if it
    was not anybody may note it without a deposit; and in all that time it is dispatched when it is
    enacted, if it decodes, its deposit can be released and there is an origin for its asset. -/
theorem passed_enactable (hmark : marked cfg c.board.chain = some (id, till))
    (hbake : archiveStep cfg c (.queue (.rest .bake)) = some d)
    (hops : Along (archiveStep cfg) (KeepsImminent cfg id till) d ops)
    (hrun : run (archiveStep cfg) d ops = some c') :
    (∀ data provider deposit since expiry,
      c.preimages id = some (.available data provider deposit since expiry) →
        ∃ expiry', c'.preimages id = some (.available data provider deposit since expiry')) ∧
      ((∃ data provider deposit since expiry,
        c'.preimages id = some (.available data provider deposit since expiry)) ∨
        ∀ who data now, cfg.hash data = id.hash → ∃ t, till ≤ t ∧
          (dispatch (preimageBody cfg now (.noteImminentPreimage (.signed who) data id.asset))
            c'.state).preimages id =
            some (.available data who 0 now (some t))) ∧
      ∀ data provider deposit since expiry proposal origin,
        c'.preimages id = some (.available data provider deposit since expiry) →
          cfg.decode data = some proposal →
          cfg.releaseRefused c'.state.ledger provider deposit = none →
            c'.originsByAssetId id.asset = some origin →
            (takeProposal cfg.toEnactConfig id c'.state).1 = .ok (proposal, toRawOrigin origin) := by
  have hmarked : d.preimages id = some (PreimageStatus.mark till (c.preimages id)) := by
    obtain ⟨board, -, rfl⟩ := Option.map_eq_some_iff.mp hbake
    show markPreimages (marked cfg c.board.chain) c.preimages id = _
    rw [hmark]
    exact Function.update_self ..
  obtain ⟨hneeded, hsame⟩ : Needed till (d.preimages id) ∧
      SameData (c.preimages id) (d.preimages id) := by
    rw [hmarked]
    exact mark_needed (le_refl till)
  obtain ⟨⟨t, ht, hstatus⟩, hkept⟩ := hneeded.run hops hrun
  refine ⟨hsame.trans hkept, ?_, ?_⟩
  -- A preimage that is needed is missing or available, and stays so until the block it is due.
  · rcases hstatus with hmissing | ⟨data, provider, deposit, since, havailable⟩
    · right
      intro who data now hdata
      exact ⟨t, ht, noteImminent_missing (s := c'.state) hmissing hdata⟩
    · exact .inl ⟨data, provider, deposit, since, some t, havailable⟩
  · intro data provider deposit since expiry proposal origin hstored hdecode hreleased horigin
    exact takeProposal_dispatches (s := c'.state) hstored hdecode hreleased horigin

/-! ## What is dispatched was voted on -/

/-- Every preimage has the hash that it is stored under. -/
def Hashed (cfg : PreimageConfig A X H P) (preimages : ProposalId X H → Option (PreimageStatus A)) :
    Prop :=
  ∀ id data provider deposit since expiry,
    preimages id = some (.available data provider deposit since expiry) →
    cfg.hash data = id.hash

theorem Hashed.update {preimages : ProposalId X H → Option (PreimageStatus A)}
    {status : Option (PreimageStatus A)}
    (h : Hashed cfg preimages) (hstatus : ∀ data provider deposit since expiry,
      status = some (.available data provider deposit since expiry) → cfg.hash data = id.hash) :
    Hashed cfg (Function.update preimages id status) := by
  intro id' data provider deposit since expiry hstored
  by_cases hid : id' = id
  · subst hid
    rw [Function.update_self] at hstored
    exact hstatus _ _ _ _ _ hstored
  · rw [Function.update_of_ne hid] at hstored
    exact h _ _ _ _ _ _ hstored

theorem Hashed.turn {e : PreimageExtrinsic A X H} (h : Hashed cfg s.preimages)
    (hturn : PreimageTurn cfg now s e s') : Hashed cfg s'.preimages := by
  cases hturn with
  | same => exact h
  | noted who data asset =>
      show Hashed cfg (Function.update s.preimages _ _)
      refine h.update ?_
      intro _ _ _ _ _ hstored
      cases hstored
      rfl
  | notedImminent who data asset expiry hmissing =>
      refine h.update ?_
      intro _ _ _ _ _ hstored
      cases hstored
      rfl
  | reaped who hstored =>
      show Hashed cfg (Function.update (collectDeposit _ _ _ _ _).preimages _ none)
      rw [collectDeposit_preimages]
      refine h.update ?_
      intro _ _ _ _ _ hstored
      cases hstored
  | enacted htaken =>
      rw [htaken.preimages]
      refine h.update ?_
      intro _ _ _ _ _ hstored
      cases hstored

theorem Hashed.step (h : Hashed cfg c.preimages) (hstep : archiveStep cfg c op = some c') :
    Hashed cfg c'.preimages := by
  cases archiveStep_archived hstep with
  | queue hqueue =>
      rename_i op board
      show Hashed cfg (markPreimages (markedBy cfg c.board.chain op) c.preimages)
      rcases markedBy cfg c.board.chain op with _ | ⟨marked, till⟩
      · exact h
      · refine h.update ?_
        intro data provider deposit since expiry hstored
        -- a mark changes nothing but when the preimage expires
        rcases hstatus : c.preimages marked with
          _ | ⟨t⟩ | ⟨data', provider', deposit', since', expiry'⟩
        · rw [hstatus] at hstored
          cases hstored
        · rw [hstatus] at hstored
          cases hstored
        · rw [hstatus] at hstored
          cases hstored
          exact h _ _ _ _ _ _ hstatus
  | call hturn => exact Hashed.turn (s := c.state) h hturn
  | register => exact h

/-- What is dispatched was stored, decodes, and has an origin. -/
theorem takeProposal_ok {cfg : EnactConfig A X H P} {proposal : P} {origin : RawOrigin A}
    (h : takeProposal cfg id s = (.ok (proposal, origin), s')) :
    ∃ data provider deposit since expiry registered,
      s.preimages id = some (.available data provider deposit since expiry) ∧
        cfg.decode data = some proposal ∧
        s.originsByAssetId id.asset = some registered ∧ origin = toRawOrigin registered := by
  have hcall := h
  rw [takeProposal, Call.get_bind, Call.bind_ok] at h
  obtain ⟨u, t, -, h⟩ := h
  rcases hstored : s.preimages id with _ | ⟨t'⟩ | ⟨data, provider, deposit, since, expiry⟩
  · rw [hstored] at h
    exact absurd h Call.fail_ok
  · rw [hstored] at h
    exact absurd h Call.fail_ok
  · rw [hstored] at h
    simp only at h
    cases hdecode : cfg.decode data with
    | none =>
        rw [hdecode] at h
        obtain ⟨_, _, -, hfail⟩ := Call.bind_ok.mp h
        exact absurd hfail Call.fail_ok
    | some decoded =>
        have hready : Ready cfg id s data provider deposit decoded :=
          ⟨⟨since, expiry, hstored⟩, hdecode⟩
        have houtcome := takeProposal_ready hready
        rw [hcall] at houtcome
        obtain ⟨-, registered, hregistered, hpair⟩ := houtcome
        obtain ⟨rfl, rfl⟩ := Prod.mk.inj hpair
        exact ⟨data, provider, deposit, since, expiry, registered, rfl, hdecode, hregistered, rfl⟩

/-- **What is dispatched was voted on.** After every run, whenever a proposal is enacted what is
    dispatched is decoded from data with the hash of its proposal id, with the origin registered for
    its asset, and it is not there to be enacted again. -/
theorem dispatched_was_hashed {ledger : Ledger A X} {proposal : P} {origin : RawOrigin A}
    (hrun : run (archiveStep cfg) (ArchiveChain.genesis ledger) ops = some c)
    (hok : takeProposal cfg.toEnactConfig id c.state = (.ok (proposal, origin), s')) :
    (∃ data, cfg.hash data = id.hash ∧ cfg.decode data = some proposal) ∧
      (∃ registered, c.originsByAssetId id.asset = some registered ∧
        origin = toRawOrigin registered) ∧
      s'.preimages id = none := by
  have hhashed : Hashed cfg c.preimages := by
    refine run_invariant (C := fun _ _ => True) (I := fun c => Hashed cfg c.preimages)
      (fun h _ hstep => h.step hstep) ?_
      (along_true _ _) hrun
    intro _ _ _ _ _ _ hstored
    cases hstored
  -- What is dispatched is what was decoded, and leaves the store with that.
  have htakes := takeProposal_takes cfg.toEnactConfig id c.state
  rw [hok] at htakes
  obtain ⟨data, provider, deposit, since, expiry, registered, hstored, hdecode, hregistered, rfl⟩ :=
    takeProposal_ok hok
  exact ⟨⟨data, hhashed _ _ _ _ _ _ hstored, hdecode⟩, ⟨registered, hregistered, rfl⟩, htakes⟩

/-! ## A small chain -/

/-- The hash of a preimage is its first byte. -/
def preimageSample : PreimageConfig Nat Nat Nat UInt8 where
  toEnactConfig := enactSample
  hash data := (data.headD 0).toNat
  preimageByteDeposit := 10
  operationalPreimageOrigin _ := none
  collectRefused _ _ _ _ := none

/-- A referendum is about to be baked at block zero, and its preimage has been noted. -/
def passedSample : ArchiveChain Nat Nat Nat where
  board :=
    ⟨{ sampleGenesis with
      phase := .maturing 1 [(0, ⟨0, ⟨3, 1⟩, .simpleMajority, 2, ⟨10, 5, 15⟩⟩)] }, .empty⟩
  preimages := Function.update (fun _ => none) ⟨3, 1⟩ (some (.available [3] 1 10 0 none))
  originsByAssetId _ := none

/-- The block goes on, account `2` notes another preimage, and the next block begins. -/
def imminentOps : List (ArchiveOp Nat Nat Nat) :=
  [.register 1 (some .root), .queue (.rest .finish), .queue (.rest .close),
    .call (.notePreimage (.signed 2) [4] 1), .queue (.rest .block), .queue .begin]

theorem passed_enactable_sample :
    ∃ d c', archiveStep preimageSample passedSample (.queue (.rest .bake)) = some d ∧
    run (archiveStep preimageSample) d imminentOps = some c' ∧
      ∃ expiry', c'.preimages ⟨3, 1⟩ = some (.available [3] 1 10 0 expiry') := by
  have hmark : marked preimageSample passedSample.board.chain = some (⟨3, 1⟩, 2) := by decide +kernel
  have htrip : (archiveStep preimageSample passedSample (.queue (.rest .bake))).map (fun d =>
      decide (Along (archiveStep preimageSample) (fun c _ => c.now ≤ 2) d imminentOps) &&
        (run (archiveStep preimageSample) d imminentOps).isSome) = some true := by
    decide +kernel
  obtain ⟨d, hbake, hview⟩ := Option.map_eq_some_iff.mp htrip
  obtain ⟨hnow, hruns⟩ := Bool.and_eq_true_iff.mp hview
  obtain ⟨c', hrun⟩ := Option.isSome_iff_exists.mp hruns
  have hothers : ∀ op ∈ imminentOps, (∀ origin, op ≠ .call (.enactProposal origin ⟨3, 1⟩)) ∧
      op ≠ .queue (.rest .bake) := by
    simp [imminentOps]
  have hops :
      Along (archiveStep preimageSample) (KeepsImminent preimageSample ⟨3, 1⟩ 2) d imminentOps := by
    refine along_of_invariant (I := fun _ => True) (fun _ _ _ => trivial) ?_ trivial
      ((of_decide_eq_true hnow).and_forall hothers)
    rintro c op - ⟨⟨henact, hbakes⟩, hnow⟩
    refine ⟨hnow, henact, ?_⟩
    rintro (_ | _ | op') t rfl hmarked
    · cases hmarked
    · cases hmarked
    · cases op' <;> first | cases hmarked | exact absurd rfl hbakes
  exact ⟨d, c', hbake, hrun, (passed_enactable hmark hbake hops hrun).1 _ _ _ _ _ rfl⟩

theorem dispatched_was_hashed_sample :
    ∃ c s', run (archiveStep preimageSample) (ArchiveChain.genesis sampleGenesis.pallet.ledger)
    [.register 1 (some .root), .call (.notePreimage (.signed 1) [3] 1)] = some c ∧
      takeProposal preimageSample.toEnactConfig ⟨3, 1⟩ c.state = (.ok (3, .root), s') ∧
        s'.preimages ⟨3, 1⟩ = none := by
  have hc :
      ∃ c s', run (archiveStep preimageSample) (ArchiveChain.genesis sampleGenesis.pallet.ledger)
      [.register 1 (some .root), .call (.notePreimage (.signed 1) [3] 1)] = some c ∧
        takeProposal preimageSample.toEnactConfig ⟨3, 1⟩ c.state = (.ok (3, .root), s') :=
          ⟨_, _, rfl, rfl⟩
  obtain ⟨c, s', hrun, hok⟩ := hc
  exact ⟨c, s', hrun, hok, (dispatched_was_hashed hrun hok).2.2⟩

end Democracy
end Composable
