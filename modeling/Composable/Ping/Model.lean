import Composable.Support.Maintains
import Composable.Support.StorageMap
import Composable.Support.Transport
import Composable.Traits.Currency

/-!
# `Ping.Model` — the chain that pings its siblings

Embeds `frame/ping/src/lib.rs`. At the end of every block a chain pings its targets, each with a
sequence number of its own, and a chain that is pinged pongs. A pong is recognised by the number of
the ping, which the chain keeps with the block it was sent in until the pong arrives.

`XcmSender` is a parameter of the operation it is called in: whether a message is handed over
is up to the transport, so it may depend on the receiver and the message. Events are kept with
the block they were deposited in.
-/

namespace Composable
namespace Ping

/-! ## Bounded vectors -/

/-- `BoundedVec<α, bound>`. -/
structure BoundedVec (α : Type) (bound : Nat) where
  inner : List α
  bounded : inner.length ≤ bound
deriving DecidableEq

namespace BoundedVec

variable {α : Type} {bound : Nat}

theorem empty_bounded : ([] : List α).length ≤ bound := Nat.zero_le bound

/-- `Default`, which is what a killed value is. -/
def empty : BoundedVec α bound := ⟨[], empty_bounded⟩

/-- `TryFrom<Vec<α>>`. -/
def tryFrom (l : List α) : Option (BoundedVec α bound) :=
  if h : l.length ≤ bound then some ⟨l, h⟩ else none

theorem push_bounded {l : List α} (h : l.length < bound) (a : α) : (l ++ [a]).length ≤ bound := by
  rw [List.length_append]
  exact h

def tryPush (v : BoundedVec α bound) (a : α) : Option (BoundedVec α bound) :=
  if h : v.inner.length < bound then some ⟨v.inner ++ [a], push_bounded h a⟩ else none

theorem swapRemove_bounded {l : List α} (h : l.length ≤ bound) (i : Nat) (a : α) :
    (l.set i a).dropLast.length ≤ bound := by
  rw [List.length_dropLast, List.length_set]
  omega

/-- `swap_remove`: the last element takes the place of the one at `i`. -/
def swapRemove (v : BoundedVec α bound) (i : Nat) : BoundedVec α bound :=
  match v.inner.getLast? with
  | none => v
  | some last => ⟨(v.inner.set i last).dropLast, swapRemove_bounded v.bounded i last⟩

theorem retain_bounded {l : List α} (h : l.length ≤ bound) (f : α → Bool) :
    (l.filter f).length ≤ bound :=
  (List.length_filter_le f l).trans h

def retain (v : BoundedVec α bound) (f : α → Bool) : BoundedVec α bound :=
  ⟨v.inner.filter f, retain_bounded v.bounded f⟩

@[simp] theorem tryFrom_eq_some {l : List α} {v : BoundedVec α bound} :
    tryFrom l = some v ↔ v.inner = l := by
  obtain ⟨inner, h⟩ := v
  unfold tryFrom
  split
  · simp [eq_comm]
  · rename_i hlong
    simp only [reduceCtorEq, false_iff]
    rintro rfl
    exact hlong h

@[simp] theorem tryPush_eq_some {v w : BoundedVec α bound} {a : α} :
    v.tryPush a = some w ↔ v.inner.length < bound ∧ w.inner = v.inner ++ [a] := by
  obtain ⟨inner, h⟩ := w
  unfold tryPush
  split
  · rename_i hroom
    simp [hroom, eq_comm]
  · rename_i hfull
    simp [hfull]

end BoundedVec

/-! ## Storage -/

abbrev Payload : Type := List UInt8

/-- `Call::ping` and `Call::pong`, which the `Transact` of the message runs at the receiver. -/
inductive Message where
  | ping (seq : Nat) (payload : Payload)
  | pong (seq : Nat) (payload : Payload)
deriving DecidableEq, Repr

/-- `E` are the errors of `send_xcm`. -/
inductive Event (P E : Type) where
  | pingSent (para : P) (seq : Nat) (payload : Payload)
  | pinged (para : P) (seq : Nat) (payload : Payload)
  | pongSent (para : P) (seq : Nat) (payload : Payload)
  | ponged (para : P) (seq : Nat) (payload : Payload) (elapsed : Nat)
  | errorSendingPing (e : E) (para : P) (seq : Nat) (payload : Payload)
  | errorSendingPong (e : E) (para : P) (seq : Nat) (payload : Payload)
  | unknownPong (para : P) (seq : Nat) (payload : Payload)
deriving DecidableEq, Repr

inductive Error where
  | maxPayload
  | maxTargets
deriving DecidableEq, Repr

structure Config where
  maxTargets : Nat
  maxPayload : Nat

/-- The pallet's storage, the block number, the events deposited so far with their blocks, and what
    is handed over to the transport in the operation that is going on. -/
structure State (cfg : Config) (P E : Type) where
  targets : BoundedVec (P × BoundedVec UInt8 cfg.maxPayload) cfg.maxTargets
  pingCount : Nat
  pings : StorageMap Nat Nat
  blockNumber : Nat
  events : List (Nat × Event P E)
  outbox : List (P × Message)

/-- The origins that the calls tell apart: those of the chain itself and those
    of `cumulus_pallet_xcm`. -/
inductive Origin (P A : Type) where
  | system (origin : RawOrigin A)
  | relay
  | siblingParachain (para : P)
deriving DecidableEq, Repr

variable {cfg : Config} {P A E : Type} [DecidableEq P]

abbrev PingCall (cfg : Config) (P E α : Type) : Type := Call (State cfg P E) (DispatchError Error) α

/-- `ensure_root` of the runtime's origin. -/
def ensureRootOrigin (origin : Origin P A) : PingCall cfg P E Unit :=
  match origin with
  | .system raw => ensureRoot raw
  | _ => Call.fail .badOrigin

/-- `ensure_sibling_para`. -/
def ensureSiblingPara (origin : Origin P A) : PingCall cfg P E P :=
  match origin with
  | .siblingParachain para => pure para
  | _ => Call.fail .badOrigin

def State.deposit (s : State cfg P E) (event : Event P E) : State cfg P E :=
  { s with events := s.events ++ [(s.blockNumber, event)] }

def depositEvent (event : Event P E) : PingCall cfg P E Unit := Call.modify fun s => s.deposit event

/-- `T::XcmSender::send_xcm`: what is not refused is handed over. -/
def sendXcm (send : P → Message → Except E Unit) (para : P) (message : Message) :
    PingCall cfg P E (Except E Unit) := do
  if (send para message).toBool then
    Call.modify fun s => { s with outbox := s.outbox ++ [(para, message)] }
  pure (send para message)

/-! ## The hook -/

/-- The body of `PingCount::mutate`; without overflow checks the addition of `u32` wraps. -/
def nextSeq : PingCall cfg P E Nat := do
  Call.modify fun s => { s with pingCount := (s.pingCount + 1) % 2 ^ 32 }
  let s ← Call.get
  pure s.pingCount

/-- One turn of the loop of `on_finalize`. -/
def pingTarget (send : P → Message → Except E Unit) (n : Nat)
    (target : P × BoundedVec UInt8 cfg.maxPayload) : PingCall cfg P E Unit := do
  let (para, payload) := target
  let seq ← nextSeq
  match ← sendXcm send para (.ping seq payload.inner) with
  | .ok () =>
      Call.modify fun s => { s with pings := s.pings.insert seq n }
      depositEvent (.pingSent para seq payload.inner)
  | .error e => depositEvent (.errorSendingPing e para seq payload.inner)

def onFinalize (send : P → Message → Except E Unit) (n : Nat) : PingCall cfg P E Unit := do
  let s ← Call.get
  Call.forEach s.targets.inner (pingTarget send n)

/-! ## Calls -/

/-- The closure that `start` and `start_many` give to `Targets`. -/
def pushTarget (target : P × BoundedVec UInt8 cfg.maxPayload) : PingCall cfg P E Unit := do
  let s ← Call.get
  let targets ← Call.ofOption (s.targets.tryPush target) (.module .maxTargets)
  Call.modify fun s => { s with targets }

def start (origin : Origin P A) (para : P) (payload : Payload) : PingCall cfg P E Unit := do
  ensureRootOrigin origin
  let payload ← Call.ofOption (BoundedVec.tryFrom payload) (.module .maxPayload)
  pushTarget (para, payload)

def startMany (origin : Origin P A) (para : P) (count : Nat) (payload : Payload) :
    PingCall cfg P E Unit := do
  ensureRootOrigin origin
  let payload ← Call.ofOption (BoundedVec.tryFrom payload) (.module .maxPayload)
  Call.forEach (List.range count) fun _ => pushTarget (para, payload)

/-- Only the first target with this chain is removed. -/
def stop (origin : Origin P A) (para : P) : PingCall cfg P E Unit := do
  ensureRootOrigin origin
  Call.modify fun s => { s with
    targets := match s.targets.inner.findIdx? fun target => target.1 == para with
      | some p => s.targets.swapRemove p
      | none => s.targets }

def stopAll (origin : Origin P A) (maybePara : Option P) : PingCall cfg P E Unit := do
  ensureRootOrigin origin
  match maybePara with
  | some para =>
      Call.modify fun s => { s with targets := s.targets.retain fun target => target.1 != para }
  | none => Call.modify fun s => { s with targets := .empty }

def ping (send : P → Message → Except E Unit) (origin : Origin P A) (seq : Nat) (payload : Payload) :
    PingCall cfg P E Unit := do
  let para ← ensureSiblingPara origin
  depositEvent (.pinged para seq payload)
  match ← sendXcm send para (.pong seq payload) with
  | .ok () => depositEvent (.pongSent para seq payload)
  | .error e => depositEvent (.errorSendingPong e para seq payload)

/-- `Pings::take(seq)`, and the event it decides. The sender is not compared with
    the target of the ping. -/
def pong (origin : Origin P A) (seq : Nat) (payload : Payload) : PingCall cfg P E Unit := do
  let para ← ensureSiblingPara origin
  let s ← Call.get
  Call.modify fun s => { s with pings := s.pings.erase seq }
  match s.pings.lookup seq with
  | some sentAt => depositEvent (.ponged para seq payload (s.blockNumber - sentAt))
  | none => depositEvent (.unknownPong para seq payload)

/-! ## The protocol -/

/-- What a chain does by itself: its extrinsics, and the end of a block with
    which the next one starts. -/
inductive Operation (P A E : Type) where
  | start (origin : RawOrigin A) (para : P) (payload : Payload)
  | startMany (origin : RawOrigin A) (para : P) (count : Nat) (payload : Payload)
  | stop (origin : RawOrigin A) (para : P)
  | stopAll (origin : RawOrigin A) (maybePara : Option P)
  | ping (send : P → Message → Except E Unit) (origin : RawOrigin A) (seq : Nat) (payload : Payload)
  | pong (origin : RawOrigin A) (seq : Nat) (payload : Payload)
  | finalize (send : P → Message → Except E Unit)

def Operation.exec (s : State cfg P E) : Operation P A E → State cfg P E
  | .start origin para payload => dispatch (Ping.start (.system origin) para payload) s
  | .startMany origin para count payload =>
      dispatch (Ping.startMany (.system origin) para count payload) s
  | .stop origin para => dispatch (Ping.stop (.system origin) para) s
  | .stopAll origin maybePara => dispatch (Ping.stopAll (.system origin) maybePara) s
  | .ping send origin seq payload => dispatch (Ping.ping send (.system origin) seq payload) s
  | .pong origin seq payload => dispatch (Ping.pong (.system origin) seq payload) s
  | .finalize send =>
      let finalized := dispatch (onFinalize send s.blockNumber) s
      { finalized with blockNumber := finalized.blockNumber + 1 }

/-- A message is dispatched with its sender as the origin. -/
def Message.exec (para : P) (send : P → Message → Except E Unit) (s : State cfg P E) :
    Message → State cfg P E
  | .ping seq payload =>
      dispatch (Ping.ping send (.siblingParachain para : Origin P Empty) seq payload) s
  | .pong seq payload => dispatch (Ping.pong (.siblingParachain para : Origin P Empty) seq payload) s

/-- Run an operation with an empty outbox, and hand over what is in it afterwards. -/
def handOver (exec : State cfg P E → State cfg P E) (s : State cfg P E) :
    State cfg P E × List (P × Message) :=
  let s' := exec { s with outbox := [] }
  (s', s'.outbox)

variable (cfg P A E) in
/-- Chains that run the pallet. -/
def protocol : Transport.Protocol P Message (State cfg P E) (Operation P A E) (P → Message →
    Except E Unit) where
  act _ o := handOver fun s => o.exec s
  receive _ para message send := handOver fun s => message.exec para send s

end Ping
end Composable
