import Composable.Support.Fixed
import Composable.Support.Run
import Composable.Support.StorageMap
import Composable.Traits.Currency
import Mathlib.Order.Monotone.Defs

/-!
# `CrowdloanRewards.Model` — the crowdloan rewards pallet

Embeds `frame/crowdloan-rewards/src/{lib,models}.rs`: the rewards of remote accounts (of the relay
chain or Ethereum), the vesting from the block at which the pallet was initialised, the association
of local accounts by a signature over their id, and the payments.

Hashing, signature recovery and verification, and the encoding of accounts are parameters; the
messages that are signed are built as the pallet builds them. All calls are transactional. Balances
saturate at `u128::MAX` where the source does, a division by zero is a panic. Events and weights are
left out; a call returns the amount that its `Claimed` event carries.
-/

namespace Composable
namespace CrowdloanRewards

/-! ## Data model (`models.rs`) -/

structure Reward where
  total : Nat
  claimed : Nat
  vestingPeriod : Nat
deriving DecidableEq, Repr

abbrev Bytes : Type := List UInt8

structure EcdsaSignature where
  bytes : Vector UInt8 65
deriving DecidableEq

inductive MultiSignature where
  | ed25519 (bytes : Vector UInt8 64)
  | sr25519 (bytes : Vector UInt8 64)
  | ecdsa (bytes : Vector UInt8 65)
deriving DecidableEq

inductive Proof (R : Type) where
  | relayChain (account : R) (signature : MultiSignature)
  | ethereum (signature : EcdsaSignature)
deriving DecidableEq

structure EthereumAddress where
  bytes : Vector UInt8 20
deriving DecidableEq

inductive RemoteAccount (R : Type) where
  | relayChain (account : R)
  | ethereum (address : EthereumAddress)
deriving DecidableEq

inductive Error where
  | notInitialized
  | alreadyInitialized
  | invalidProof
  | invalidClaim
  | nothingToClaim
  | notAssociated
  | alreadyAssociated
  | notClaimableYet
deriving DecidableEq, Repr

/-- `Perbill::ACCURACY`. -/
def perbill : Nat := 10 ^ 9

/-- The constants of the pallet, the currency it mints in, and the cryptography it relies on. -/
structure Config (A R X : Type) where
  currency : Currency A X
  /-- Its operations take their amounts and nothing else. -/
  currency_exact : currency.Exact
  native : X
  adminOrigin : RawOrigin A → Bool
  /-- A conversion from block numbers to balances. -/
  convert : Nat → Nat
  convert_mono : Monotone convert
  /-- The upfront liquidity unlocked at first claim, in parts of `10 ^ 9`. -/
  initialPayment : Nat
  initialPayment_le : initialPayment ≤ perbill
  /-- The number of blocks a fragment of the reward is vested. -/
  vestingStep : Nat
  /-- The arbitrary prefix used for the proof. -/
  proofPrefix : Bytes
  encode : A → Bytes
  keccak256 : Bytes → Vector UInt8 32
  secp256k1EcdsaRecover : EcdsaSignature → Vector UInt8 32 → Option Bytes
  verify : MultiSignature → Bytes → R → Bool

attribute [instance] Config.currency_exact

/-- The pallet's storage, with the ledger it mints in. -/
structure State (A R X : Type) where
  ledger : Ledger A X
  rewards : StorageMap (RemoteAccount R) Reward
  totalRewards : Nat
  claimedRewards : Nat
  totalContributors : Nat
  vestingBlockStart : Option Nat
  associations : A → Option (RemoteAccount R)

/-- A call of the pallet. -/
abbrev CrowdloanCall (A R X α : Type) : Type := Call (State A R X) (DispatchError Error) α

variable {A R X : Type} [DecidableEq A] [DecidableEq R] [DecidableEq X]

/-! ## Proofs -/

/-- One hexadecimal digit. -/
def hexDigit (n : UInt8) : UInt8 := if n < 10 then 48 + n else 87 + n

/-- `hex::encode`. -/
def hexEncode (bytes : Bytes) : Bytes := bytes.flatMap fun b => [hexDigit (b / 16), hexDigit (b % 16)]

/-- The decimal digits of a length, nothing for zero. -/
def lengthDigits (n : Nat) : Bytes :=
  if n = 0 then [] else lengthDigits (n / 10) ++ [48 + UInt8.ofNat (n % 10)]

/-- The bytes of an ASCII text. -/
def ascii (text : String) : Bytes := text.toList.map fun c => UInt8.ofNat c.toNat

/-- The message that `eth_sign` would generate. -/
def ethereumSignableMessage (proofPrefix msg : Bytes) : Bytes :=
  25 :: ascii "Ethereum Signed Message:\n" ++ lengthDigits (proofPrefix.length + msg.length) ++ proofPrefix ++ msg

variable (cfg : Config A R X)

/-- Recover the address that signed. -/
def ethereumRecover (msg : Bytes) (signature : EcdsaSignature) : Option EthereumAddress := do
  let key ← cfg.secp256k1EcdsaRecover signature
    (cfg.keccak256 (ethereumSignableMessage cfg.proofPrefix msg))
  pure ⟨(cfg.keccak256 key).drop 12⟩

/-- Verify that the proof is valid for the given account. -/
def verifyRelay (rewardAccount : A) (relayAccount : R) (signature : MultiSignature) : Bool :=
  cfg.verify signature
    (ascii "<Bytes>" ++ cfg.proofPrefix ++ hexEncode (cfg.encode rewardAccount) ++ ascii "</Bytes>") relayAccount

def getRemoteAccount (rewardAccount : A) : Proof R → CrowdloanCall A R X (RemoteAccount R)
  | .ethereum signature => do
      let address ← Call.ofOption
        (ethereumRecover cfg (hexEncode (cfg.encode rewardAccount)) signature)
        (.module .invalidProof)
      pure (.ethereum address)
  | .relayChain relayAccount signature => do
      Call.ensure (verifyRelay cfg rewardAccount relayAccount signature = true)
        (.module .invalidProof)
      pure (.relayChain relayAccount)

/-! ## Rewards -/

/-- What should have been claimed of a reward `vestingPoint` blocks after the start;
    `none` is a division by zero. -/
def vested (reward : Reward) (vestingPoint : Nat) : Option Nat :=
  let upfrontPayment := Fixed.mulFloor perbill cfg.initialPayment reward.total
  -- If the user is claiming when the period is over, he should probably have
  -- already claimed everything.
  if reward.vestingPeriod ≤ vestingPoint then some reward.total
  else if cfg.vestingStep = 0 then none
  else
    -- Current window, rounded to previous window.
    let vestingWindow := vestingPoint - vestingPoint % cfg.vestingStep
    let vestedReward := reward.total - upfrontPayment
    if cfg.convert reward.vestingPeriod = 0 then none
    else some (Fixed.saturated (upfrontPayment +
      Fixed.saturated (vestedReward * cfg.convert vestingWindow) / cfg.convert reward.vestingPeriod))

def shouldHaveClaimed (now : Nat) (reward : Reward) : CrowdloanCall A R X Nat := do
  let s ← Call.get
  let start ← Call.ofOption s.vestingBlockStart (.module .notInitialized)
  Call.ofOption (vested cfg reward (now - start)) .panic

/-- Write the reward of one remote account. -/
def State.putReward (s : State A R X) (remote : RemoteAccount R) (reward : Reward) : State A R X :=
  { s with rewards := s.rewards.insert remote reward }

/-- Do claim the reward for a given remote account, rewarding the `rewardAccount`. -/
def doClaim (now : Nat) (remote : RemoteAccount R) (rewardAccount : A) : CrowdloanCall A R X Nat := do
  let s ← Call.get
  let reward ← Call.ofOption (s.rewards.lookup remote) (.module .invalidProof)
  let shouldHave ← shouldHaveClaimed cfg now reward
  let availableToClaim := shouldHave - reward.claimed
  Call.ensure (0 < availableToClaim) (.module .nothingToClaim)
  Call.zoom State.ledger (fun l s => { s with ledger := l }) .token
    (cfg.currency.mintInto cfg.native rewardAccount availableToClaim)
  Call.modify fun s =>
    { s.putReward remote { reward with
        claimed := Fixed.saturated (availableToClaim + reward.claimed) } with
      claimedRewards := Fixed.saturated (s.claimedRewards + availableToClaim) }
  pure availableToClaim

def doAssociate (now : Nat) (rewardAccount : A) (proof : Proof R) : CrowdloanCall A R X Nat := do
  let s ← Call.get
  let start ← Call.ofOption s.vestingBlockStart (.module .notInitialized)
  Call.ensure (start ≤ now) (.module .notClaimableYet)
  let remote ← getRemoteAccount cfg rewardAccount proof
  Call.ensure (s.associations rewardAccount = none) (.module .alreadyAssociated)
  let claimed ← doClaim cfg now remote rewardAccount
  Call.modify fun s => { s with
    associations := fun a => if a = rewardAccount then some remote else s.associations a }
  pure claimed

/-- The rewards after the given ones were inserted, a later one in the place of an earlier. -/
def insertRewards (rewards : List (RemoteAccount R × Nat × Nat)) :
    StorageMap (RemoteAccount R) Reward :=
  rewards.foldl (fun m e => m.insert e.1 ⟨e.2.1, 0, e.2.2⟩) ∅

/-- The totals of all rewards, as far as they are a balance together. -/
def sumTotals (rewards : StorageMap (RemoteAccount R) Reward) : Nat :=
  rewards.entries.foldl (fun total e => Fixed.saturated (total + e.2.total)) 0

def doPopulate (rewards : List (RemoteAccount R × Nat × Nat)) : CrowdloanCall A R X Unit := do
  let s ← Call.get
  Call.ensure (s.vestingBlockStart = none) (.module .alreadyInitialized)
  -- What was there is removed first.
  Call.modify fun s => { s with
    rewards := insertRewards rewards
    totalRewards := sumTotals (insertRewards rewards)
    totalContributors := min (insertRewards rewards).entries.length (2 ^ 32 - 1) }

def doInitialize (start : Nat) : CrowdloanCall A R X Unit :=
  Call.modify fun s => { s with vestingBlockStart := some start }

/-! ## Calls -/

/-- `AdminOrigin::ensure_origin`. -/
def ensureAdmin (origin : RawOrigin A) : CrowdloanCall A R X Unit :=
  Call.ensure (cfg.adminOrigin origin = true) .badOrigin

/-- `ensure_none`. -/
def ensureNone (origin : RawOrigin A) : CrowdloanCall A R X Unit :=
  Call.ensure (origin = .none) .badOrigin

/-- Initialize the pallet at the given block. -/
def initializeAt (origin : RawOrigin A) (start : Nat) : CrowdloanCall A R X Unit :=
  Call.transactional do
    ensureAdmin cfg origin
    let s ← Call.get
    Call.ensure (s.vestingBlockStart = none) (.module .alreadyInitialized)
    doInitialize start

/-- Initialize the pallet at the current block. -/
def initializeNow (now : Nat) (origin : RawOrigin A) : CrowdloanCall A R X Unit :=
  initializeAt cfg origin now

def populate (origin : RawOrigin A) (rewards : List (RemoteAccount R × Nat × Nat)) :
    CrowdloanCall A R X Unit :=
  Call.transactional do
    ensureAdmin cfg origin
    doPopulate rewards

/-- Associate a reward account. This also claims the first reward. -/
def associate (now : Nat) (origin : RawOrigin A) (rewardAccount : A) (proof : Proof R) :
    CrowdloanCall A R X Nat :=
  Call.transactional do
    ensureNone origin
    doAssociate cfg now rewardAccount proof

/-- Claim a reward from the associated reward account. -/
def claim (now : Nat) (origin : RawOrigin A) : CrowdloanCall A R X Nat :=
  Call.transactional do
    let rewardAccount ← ensureSigned origin
    let s ← Call.get
    let remote ← Call.ofOption (s.associations rewardAccount) (.module .notAssociated)
    doClaim cfg now remote rewardAccount

/-! ## Runs -/

inductive Op (A R : Type) where
  | initializeNow (origin : RawOrigin A)
  | initializeAt (origin : RawOrigin A) (start : Nat)
  | populate (origin : RawOrigin A) (rewards : List (RemoteAccount R × Nat × Nat))
  | associate (origin : RawOrigin A) (rewardAccount : A) (proof : Proof R)
  | claim (origin : RawOrigin A)
  | block (now : Nat)

/-- The storage at a block. -/
structure Chain (A R X : Type) where
  pallet : State A R X
  now : Nat

/-- The chain after one operation, whether it returned or failed. -/
def step (c : Chain A R X) : Op A R → Option (Chain A R X)
  | .initializeNow origin =>
      some { c with pallet := dispatch (initializeNow cfg c.now origin) c.pallet }
  | .initializeAt origin start =>
      some { c with pallet := dispatch (initializeAt cfg origin start) c.pallet }
  | .populate origin rewards =>
      some { c with pallet := dispatch (populate cfg origin rewards) c.pallet }
  | .associate origin account proof =>
      some { c with pallet := dispatch (associate cfg c.now origin account proof) c.pallet }
  | .claim origin => some { c with pallet := dispatch (claim cfg c.now origin) c.pallet }
  | .block now => if c.now ≤ now then some { c with now := now } else none

/-- The storage before the first reward. -/
def State.genesis (ledger : Ledger A X) : State A R X where
  ledger := ledger
  rewards := ∅
  totalRewards := 0
  claimedRewards := 0
  totalContributors := 0
  vestingBlockStart := none
  associations := fun _ => none

/-! ## A concrete configuration -/

/-- Accounts and assets are numbers; half is paid upfront and the rest in steps of ten blocks.
    A signature that begins with zero is one by whoever is claimed to have signed, and
    recovers a key of no bytes. -/
def sample : Config Nat Nat Nat where
  currency := (Currency.existential fun _ => 1).cappedIssuance u128Max
  currency_exact := inferInstance
  native := 0
  adminOrigin origin := origin = .root
  convert n := n
  convert_mono := monotone_id
  initialPayment := 5 * 10 ^ 8
  initialPayment_le := by decide
  vestingStep := 10
  proofPrefix := ascii "picasso-"
  encode n := [UInt8.ofNat n]
  keccak256 _ := Vector.replicate 32 0
  secp256k1EcdsaRecover signature _ := if signature.bytes.get 0 = 0 then some [] else none
  verify signature _ _ := match signature with
    | .ed25519 bytes => bytes.get 0 = 0
    | .sr25519 bytes => bytes.get 0 = 0
    | .ecdsa bytes => bytes.get 0 = 0

end CrowdloanRewards
end Composable
