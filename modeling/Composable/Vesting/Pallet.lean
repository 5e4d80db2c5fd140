import Composable.Support.Run
import Composable.Vesting.Model

/-!
# `Vesting.Pallet` — genesis and the calls of the vesting pallet

The rest of `frame/vesting/src/lib.rs` around the vested transfer of `Vesting.Model`: the genesis
build, the extrinsics `claim`, `claim_for`, `vested_transfer` and `update_vesting_schedules`, and
runs of them over the blocks. Only the vested transfer is transactional, so a claim whose lock is
refused has dropped the schedules that are over.

The sum of the totals in genesis and in an update is an unchecked `+` and wraps. Accounts in calls
are looked up already; `none` is an address that could not be.
-/

namespace Composable
namespace Vesting

/-- The pallet's configuration beyond the vested transfer. -/
structure PalletConfig (A X : Type) extends Config A X where
  vestedTransferOrigin : RawOrigin A → Option A
  /-- What `remove_lock` refuses, and with which error. -/
  removeRefused : Ledger A X → Locks A X → X → A → Option (DispatchError Empty)

variable {A X : Type} [DecidableEq A] [DecidableEq X] (cfg : PalletConfig A X)

/-- Store the schedules of an account in an asset; without any the entry goes. -/
def State.putSchedules (s : State A X) (who : A) (asset : X) (schedules : List VestingSchedule) :
    State A X :=
  { s with
    vestingSchedules := fun a x => if a = who ∧ x = asset then schedules else s.vestingSchedules a x }

/-- `remove_lock` under the id of the pallet. -/
def removeLock (asset : X) (who : A) : VestingCall A X Unit := do
  let s ← Call.get
  match cfg.removeRefused s.ledger s.locks asset who with
  | some e => Call.fail (e.map Empty.elim)
  | none =>
      Call.modify fun s =>
        { s with locks := fun x a => if x = asset ∧ a = who then 0 else s.locks x a }

/-- The totals of valid schedules together, added up from `acc`. -/
def totalAmounts : Nat → List VestingSchedule → VestingCall A X Nat
  | acc, [] => pure acc
  | acc, schedule :: rest => do
      let amount ← ensureValidVestingSchedule cfg.toConfig schedule
      totalAmounts ((acc + amount) % 2 ^ 128) rest

/-! ## Genesis -/

structure ScheduledItem (A X : Type) where
  asset : X
  who : A
  schedule : VestingSchedule

/-- One turn of the genesis build. Every failure of it is a panic. -/
def buildItem (item : ScheduledItem A X) : VestingCall A X Unit := do
  let s ← Call.get
  let schedules := s.vestingSchedules item.who item.asset
  Call.ensure (schedules.length < cfg.maxVestingSchedules) .panic
  let total ← totalAmounts cfg 0 (schedules ++ [item.schedule])
  Call.ensure (total ≤ s.ledger.free item.asset item.who) .panic
  setLock cfg.toConfig item.asset item.who total
  Call.modify fun s => s.putSchedules item.who item.asset (schedules ++ [item.schedule])

def genesisBuild (vesting : List (ScheduledItem A X)) : VestingCall A X Unit :=
  Call.forEach vesting (buildItem cfg)

/-- The storage before the genesis build. -/
def State.empty (ledger : Ledger A X) : State A X := ⟨ledger, fun _ _ => 0, fun _ _ => []⟩

/-! ## Calls -/

def doClaim (now : Nat) (who : A) (asset : X) : VestingCall A X Nat := do
  let locked ← lockedBalance now who asset
  if locked = 0 then do
    -- cleanup the storage and unlock the fund
    Call.modify fun s => s.putSchedules who asset []
    removeLock cfg asset who
    pure locked
  else do
    setLock cfg.toConfig asset who locked
    pure locked

def doUpdateVestingSchedules (who : A) (asset : X) (schedules : List VestingSchedule) :
    VestingCall A X Unit := do
  Call.ensure (schedules.length ≤ cfg.maxVestingSchedules) (.module .maxVestingSchedulesExceeded)
  if schedules = [] then do
    Call.modify fun s => s.putSchedules who asset []
    removeLock cfg asset who
  else do
    let total ← totalAmounts cfg 0 schedules
    let s ← Call.get
    Call.ensure (total ≤ s.ledger.free asset who) (.module .insufficientBalanceToLock)
    setLock cfg.toConfig asset who total
    Call.modify fun s => s.putSchedules who asset schedules

def claim (now : Nat) (origin : RawOrigin A) (asset : X) : VestingCall A X Unit := do
  let who ← ensureSigned origin
  let _ ← doClaim cfg now who asset

def claimFor (now : Nat) (origin : RawOrigin A) (dest : Option A) (asset : X) :
    VestingCall A X Unit := do
  let _ ← ensureSigned origin
  let who ← Call.ofOption dest .cannotLookup
  let _ ← doClaim cfg now who asset

def vestedTransferExtrinsic (now : Nat) (origin : RawOrigin A) (dest : Option A) (asset : X)
    (schedule : VestingSchedule) : VestingCall A X Unit := do
  let source ← Call.ofOption (cfg.vestedTransferOrigin origin) .badOrigin
  let dest ← Call.ofOption dest .cannotLookup
  vestedTransfer cfg.toConfig now asset source dest schedule

def updateVestingSchedules (origin : RawOrigin A) (who : Option A) (asset : X)
    (vestingSchedules : List VestingSchedule) : VestingCall A X Unit := do
  ensureRoot origin
  let account ← Call.ofOption who .cannotLookup
  doUpdateVestingSchedules cfg account asset vestingSchedules

/-! ## Runs -/

/-- The calls; `elsewhere` is what other pallets do to the ledger, and `block` the
    start of a later block. -/
inductive Op (A X : Type) where
  | claim (origin : RawOrigin A) (asset : X)
  | claimFor (origin : RawOrigin A) (dest : Option A) (asset : X)
  | vestedTransfer (origin : RawOrigin A) (dest : Option A) (asset : X) (schedule : VestingSchedule)
  | updateVestingSchedules (origin : RawOrigin A) (who : Option A) (asset : X)
      (schedules : List VestingSchedule)
  | elsewhere (ledger : Ledger A X)
  | block (now : Nat)

/-- The storage at a block. -/
structure Chain (A X : Type) where
  pallet : State A X
  now : Nat

def step (c : Chain A X) : Op A X → Option (Chain A X)
  | .claim origin asset => some { c with pallet := dispatch (claim cfg c.now origin asset) c.pallet }
  | .claimFor origin dest asset =>
      some { c with pallet := dispatch (claimFor cfg c.now origin dest asset) c.pallet }
  | .vestedTransfer origin dest asset schedule =>
      some { c with
        pallet := dispatch (vestedTransferExtrinsic cfg c.now origin dest asset schedule) c.pallet }
  | .updateVestingSchedules origin who asset schedules =>
      some { c with
        pallet := dispatch (updateVestingSchedules cfg origin who asset schedules) c.pallet }
  | .elsewhere ledger => some { c with pallet := { c.pallet with ledger := ledger } }
  | .block now => if c.now ≤ now then some { c with now := now } else none

end Vesting
end Composable
