import Composable.Ping.Model

/-!
# `Ping.Answers` — what becomes of a ping

The chains of a network ping each other in any order and lose any of their messages; some of them
may not run the pallet at all and send their siblings what they like.

Between two chains that do run it every ping is accounted for (`pings_accounted`): it was answered,
it or its pong is on the way or lost, or the pong was refused.

What an operation and a message do is said once, by `Own` and `Received`; the
invariants are checked against these.
-/

namespace Composable
namespace Ping

open Transport (Network Packet)

variable {cfg : Config} {P A E : Type}

/-! ## What the chains do -/

/-- What a chain can do by itself in one go. -/
inductive Own (s : State cfg P E) : State cfg P E → Prop where
  | targets (targets : BoundedVec (P × BoundedVec UInt8 cfg.maxPayload) cfg.maxTargets) :
      Own s { s with targets }
  | sent (para : P) (payload : Payload) :
      Own s ({ s with
        pingCount := (s.pingCount + 1) % 2 ^ 32
        outbox := s.outbox ++ [(para, Message.ping ((s.pingCount + 1) % 2 ^ 32) payload)]
        pings := s.pings.insert ((s.pingCount + 1) % 2 ^ 32) s.blockNumber }.deposit
          (.pingSent para ((s.pingCount + 1) % 2 ^ 32) payload))
  | refused (e : E) (para : P) (payload : Payload) :
      Own s ({ s with pingCount := (s.pingCount + 1) % 2 ^ 32 }.deposit
        (.errorSendingPing e para ((s.pingCount + 1) % 2 ^ 32) payload))
  | nextBlock : Own s { s with blockNumber := s.blockNumber + 1 }

/-- What a chain does with a message of another. -/
inductive Received (para : P) (s : State cfg P E) : Message → State cfg P E → Prop where
  | sent (seq : Nat) (payload : Payload) :
      Received para s (.ping seq payload)
        ({ s.deposit (.pinged para seq payload) with
          outbox := s.outbox ++ [(para, Message.pong seq payload)] }.deposit
          (.pongSent para seq payload))
  | refused (e : E) (seq : Nat) (payload : Payload) :
      Received para s (.ping seq payload)
        ((s.deposit (.pinged para seq payload)).deposit (.errorSendingPong e para seq payload))
  | ponged (seq : Nat) (payload : Payload) (sentAt : Nat) (h : s.pings.lookup seq = some sentAt) :
      Received para s (.pong seq payload)
        ({ s with pings := s.pings.erase seq }.deposit
          (.ponged para seq payload (s.blockNumber - sentAt)))
  | unknown (seq : Nat) (payload : Payload) (h : s.pings.lookup seq = none) :
      Received para s (.pong seq payload)
        ({ s with pings := s.pings.erase seq }.deposit (.unknownPong para seq payload))

section Calls

variable {I : State cfg P E → Prop} {s : State cfg P E} {send : P → Message → Except E Unit}

theorem ensureRootOrigin_maintains (origin : Origin P A) :
    (ensureRootOrigin origin : PingCall cfg P E Unit).Maintains I := by
  apply Call.Maintains.reads
  intro s
  cases origin with
  | system raw => cases raw <;> rfl
  | _ => rfl

theorem pushTarget_maintains (hI : ∀ {s t}, Own s t → I s → I t)
    (target : P × BoundedVec UInt8 cfg.maxPayload) :
    (pushTarget target : PingCall cfg P E Unit).Maintains I :=
  .bind .get fun _ => .bind (.ofOption _ _) fun targets => .modify fun _ h => hI (.targets targets) h

theorem sendXcm_ok {para : P} {message : Message} (h : send para message = .ok ()) :
    (sendXcm send para message : PingCall cfg P E _) s =
      (.ok (.ok ()), { s with outbox := s.outbox ++ [(para, message)] }) := by
  simp only [sendXcm, h]
  rfl

theorem sendXcm_error {para : P} {message : Message} {e : E} (h : send para message = .error e) :
    (sendXcm send para message : PingCall cfg P E _) s = (.ok (.error e), s) := by
  simp only [sendXcm, h]
  rfl

theorem nextSeq_ok : (nextSeq : PingCall cfg P E Nat) s =
    (.ok ((s.pingCount + 1) % 2 ^ 32), { s with pingCount := (s.pingCount + 1) % 2 ^ 32 }) := rfl

/-- A turn of the hook: the ping was sent or refused, with the next number. -/
theorem pingTarget_own (send : P → Message → Except E Unit)
    (target : P × BoundedVec UInt8 cfg.maxPayload) :
    Call.Outcome (fun _ t => Own s t ∧ t.blockNumber = s.blockNumber) (fun _ _ => False)
      (pingTarget send s.blockNumber target s) := by
  obtain ⟨para, payload⟩ := target
  rw [pingTarget, Call.bind_of_ok nextSeq_ok]
  rcases hsend : send para (.ping ((s.pingCount + 1) % 2 ^ 32) payload.inner) with e | ⟨⟩
  · rw [Call.bind_of_ok (sendXcm_error hsend)]
    exact ⟨.refused e para payload.inner, rfl⟩
  · rw [Call.bind_of_ok (sendXcm_ok hsend)]
    exact ⟨.sent para payload.inner, rfl⟩

theorem onFinalize_own (hI : ∀ {s t}, Own s t → I s → I t) (h : I s) :
    Call.Outcome (fun _ => I) (fun _ _ => False) (onFinalize send s.blockNumber s) := by
  have hloop : Call.Outcome (fun _ t => I t ∧ t.blockNumber = s.blockNumber) (fun _ _ => False)
      (onFinalize send s.blockNumber s) := by
    rw [onFinalize, Call.get_bind]
    refine Call.outcome_forEach (fun target _ t ht => ?_) ⟨h, rfl⟩
    have hturn : Call.Outcome _ _ (pingTarget send t.blockNumber target t) :=
      pingTarget_own send target
    rw [ht.2] at hturn
    exact hturn.imp (fun _ u hu => ⟨hI hu.1 ht.1, hu.2⟩) fun _ _ hfalse => hfalse
  exact hloop.imp (fun _ t ht => ht.1) fun _ _ hfalse => hfalse

/-- **What a chain does by itself** keeps what each thing it can do keeps. -/
theorem exec_own [DecidableEq P] (hI : ∀ {s t}, Own s t → I s → I t) (o : Operation P A E)
    (h : I s) : I (o.exec s) := by
  have hpush : ∀ target : P × BoundedVec UInt8 cfg.maxPayload,
      (pushTarget target : PingCall cfg P E Unit).Maintains I :=
        fun target => pushTarget_maintains hI target
  have hroot : ∀ origin : RawOrigin A,
      (ensureRootOrigin (.system origin : Origin P A) : PingCall cfg P E Unit).Maintains I :=
    fun origin => ensureRootOrigin_maintains _
  cases o with
  | start origin para payload =>
      refine Call.Maintains.dispatch (.bind (hroot origin) fun _ =>
        .bind (.ofOption _ _) fun payload => ?_) h
      exact hpush (para, payload)
  | startMany origin para count payload =>
      refine Call.Maintains.dispatch (.bind (hroot origin) fun _ =>
        .bind (.ofOption _ _) fun payload => ?_) h
      exact .forEach fun _ _ => hpush (para, payload)
  | stop origin para =>
      refine Call.Maintains.dispatch (.bind (hroot origin) fun _ => .modify fun s hs => ?_) h
      exact hI (.targets _) hs
  | stopAll origin maybePara =>
      refine Call.Maintains.dispatch (.bind (hroot origin) fun _ => ?_) h
      cases maybePara with
      | some para => exact .modify fun s hs => hI (.targets _) hs
      | none => exact .modify fun s hs => hI (.targets _) hs
  | ping send origin seq payload => exact h
  | pong origin seq payload => exact h
  | finalize send =>
      have hfinalized : I (dispatch (onFinalize send s.blockNumber) s) :=
        dispatch_of_outcome h ((onFinalize_own hI h).imp (fun _ _ ht => ht) fun _ _ hfalse =>
          hfalse.elim)
      exact hI .nextBlock hfinalized

/-- **What a chain does with a message.** -/
theorem exec_received (para : P) (send : P → Message → Except E Unit) (message : Message)
    (s : State cfg P E) : Received para s message (message.exec para send s) := by
  cases message with
  | ping seq payload =>
      rcases hsend : send para (.pong seq payload) with e | ⟨⟩
      · have hcall : Ping.ping send (.siblingParachain para : Origin P Empty) seq payload s =
            (.ok (), (s.deposit (.pinged para seq payload)).deposit
              (.errorSendingPong e para seq payload)) := by
          rw [Ping.ping, Call.bind_of_ok (show ensureSiblingPara _ s = (.ok para, s) from rfl),
            Call.bind_of_ok (show depositEvent _ s =
              (.ok (), s.deposit (.pinged para seq payload)) from rfl),
            Call.bind_of_ok (sendXcm_error hsend)]
          rfl
        rw [Message.exec, dispatch, hcall]
        exact .refused e seq payload
      · have hcall : Ping.ping send (.siblingParachain para : Origin P Empty) seq payload s =
            (.ok (), { s.deposit (.pinged para seq payload) with
              outbox :=
                s.outbox ++ [(para, Message.pong seq payload)] }.deposit
                  (.pongSent para seq payload)) := by
          rw [Ping.ping, Call.bind_of_ok (show ensureSiblingPara _ s = (.ok para, s) from rfl),
            Call.bind_of_ok (show depositEvent _ s =
              (.ok (), s.deposit (.pinged para seq payload)) from rfl),
            Call.bind_of_ok (sendXcm_ok hsend)]
          rfl
        rw [Message.exec, dispatch, hcall]
        exact .sent seq payload
  | pong seq payload =>
      cases hlookup : s.pings.lookup seq with
      | none =>
          have hcall : Ping.pong (.siblingParachain para : Origin P Empty) seq payload s =
              (.ok (), { s with pings := s.pings.erase seq }.deposit
                (.unknownPong para seq payload)) := by
            rw [Ping.pong, Call.bind_of_ok (show ensureSiblingPara _ s = (.ok para, s) from rfl),
              Call.get_bind, hlookup]
            rfl
          rw [Message.exec, dispatch, hcall]
          exact .unknown seq payload hlookup
      | some sentAt =>
          have hcall : Ping.pong (.siblingParachain para : Origin P Empty) seq payload s =
              (.ok (), { s with pings := s.pings.erase seq }.deposit
                (.ponged para seq payload (s.blockNumber - sentAt))) := by
            rw [Ping.pong, Call.bind_of_ok (show ensureSiblingPara _ s = (.ok para, s) from rfl),
              Call.get_bind, hlookup]
            rfl
          rw [Message.exec, dispatch, hcall]
          exact .ponged seq payload sentAt hlookup

end Calls

/-! ## What the events say -/

inductive Kind where
  | pingSent
  | pinged
  | pongSent
  | ponged
  | errorSendingPing
  | errorSendingPong
  | unknownPong
deriving DecidableEq, Repr

/-- What an event says, the other chain, the number and the payload. -/
def Event.about : Event P E → Kind × P × Nat × Payload
  | .pingSent para seq payload => (.pingSent, para, seq, payload)
  | .pinged para seq payload => (.pinged, para, seq, payload)
  | .pongSent para seq payload => (.pongSent, para, seq, payload)
  | .ponged para seq payload _ => (.ponged, para, seq, payload)
  | .errorSendingPing _ para seq payload => (.errorSendingPing, para, seq, payload)
  | .errorSendingPong _ para seq payload => (.errorSendingPong, para, seq, payload)
  | .unknownPong para seq payload => (.unknownPong, para, seq, payload)

abbrev Log (P E : Type) : Type := List (Nat × Event P E)

variable [DecidableEq P]

/-- How often this was said. -/
def said (kind : Kind) (para : P) (seq : Nat) (payload : Payload) (log : Log P E) : Nat :=
  log.countP fun e => e.2.about = (kind, para, seq, payload)

omit [DecidableEq P] in
/-- How often this was said of a number, whatever the chain and the payload. -/
def saidOf (kind : Kind) (seq : Nat) (log : Log P E) : Nat :=
  log.countP fun e => e.2.about.1 = kind ∧ e.2.about.2.2.1 = seq

omit [DecidableEq P] in
/-- The pings that were sent or refused. -/
def attempts (log : Log P E) : Nat :=
  log.countP fun e => e.2.about.1 = .pingSent ∨ e.2.about.1 = .errorSendingPing

/-- The messages to a chain that were handed over. -/
def sent (para : P) (message : Message) (log : Log P E) : Nat :=
  match message with
  | .ping seq payload => said .pingSent para seq payload log
  | .pong seq payload => said .pongSent para seq payload log

/-- The messages of a chain that arrived. -/
def got (para : P) (message : Message) (log : Log P E) : Nat :=
  match message with
  | .ping seq payload => said .pinged para seq payload log
  | .pong seq payload => said .ponged para seq payload log + said .unknownPong para seq payload log

section Log

variable {log : Log P E} {e : Nat × Event P E} {kind : Kind} {para : P} {seq : Nat}
  {payload : Payload} {message : Message}

@[simp] theorem said_append {log' : Log P E} : said kind para seq payload (log ++ log') =
    said kind para seq payload log + said kind para seq payload log' := List.countP_append

@[simp] theorem said_cons : said kind para seq payload (e :: log) =
    said kind para seq payload log + if e.2.about = (kind, para, seq, payload) then 1 else 0 := by
  simp [said, List.countP_cons]

@[simp] theorem said_nil : said kind para seq payload ([] : Log P E) = 0 := rfl

omit [DecidableEq P] in
@[simp] theorem saidOf_append {log' : Log P E} :
    saidOf kind seq (log ++ log') = saidOf kind seq log + saidOf kind seq log' := List.countP_append

omit [DecidableEq P] in
@[simp] theorem saidOf_cons : saidOf kind seq (e :: log) =
    saidOf kind seq log + if e.2.about.1 = kind ∧ e.2.about.2.2.1 = seq then 1 else 0 := by
  simp [saidOf, List.countP_cons]

omit [DecidableEq P] in
@[simp] theorem saidOf_nil : saidOf kind seq ([] : Log P E) = 0 := rfl

omit [DecidableEq P] in
@[simp] theorem attempts_append {log' : Log P E} :
    attempts (log ++ log') = attempts log + attempts log' :=
  List.countP_append

omit [DecidableEq P] in
@[simp] theorem attempts_cons : attempts (e :: log) =
    attempts log + if e.2.about.1 = .pingSent ∨ e.2.about.1 = .errorSendingPing then 1 else 0 := by
  simp [attempts, List.countP_cons]

omit [DecidableEq P] in
@[simp] theorem attempts_nil : attempts ([] : Log P E) = 0 := rfl

/-- What is said of a number is said to a chain with a payload. -/
theorem said_le_saidOf : said kind para seq payload log ≤ saidOf kind seq log := by
  refine List.countP_mono_left fun e _ he => ?_
  simp only [decide_eq_true_eq] at he ⊢
  rw [he]
  exact ⟨rfl, rfl⟩

end Log

/-! ## The events book the messages -/

/-- Since `log` the events tell what was handed over, and nothing arrived. -/
def Booked (log : Log P E) (s : State cfg P E) : Prop :=
  ∀ d m, sent d m s.events = sent d m log + s.outbox.count (d, m) ∧ got d m s.events = got d m log

theorem booked_own {log : Log P E} {s t : State cfg P E} (h : Own s t) (hbooked : Booked log s) :
    Booked log t := by
  intro d m
  obtain ⟨hsent, hgot⟩ := hbooked d m
  cases h with
  | targets targets => exact ⟨hsent, hgot⟩
  | nextBlock => exact ⟨hsent, hgot⟩
  | refused e para payload =>
      cases m <;> simpa [sent, got, State.deposit, Event.about] using And.intro hsent hgot
  | sent para payload =>
      cases m with
      | ping seq' payload' =>
          refine ⟨?_, by simpa [got, State.deposit, Event.about] using hgot⟩
          simp only [sent, State.deposit, Event.about, said_append, said_cons, said_nil,
            List.count_append, List.count_singleton] at hsent ⊢
          simp [hsent, Nat.add_assoc]
      | pong seq' payload' =>
          simpa [sent, got, State.deposit, Event.about, List.count_append] using And.intro hsent hgot

/-- A message that arrived is booked, with the answer. -/
theorem received_books {c : P} {b : Message} {s t : State cfg P E} (h : Received c s b t)
    (hempty : s.outbox = []) (d : P) (m : Message) :
    sent d m t.events = sent d m s.events + t.outbox.count (d, m) ∧
      got d m t.events = got d m s.events + if c = d ∧ b = m then 1 else 0 := by
  cases h with
  | sent seq payload =>
      cases m <;> simp [sent, got, State.deposit, Event.about, hempty, List.count_singleton]
  | refused e seq payload => cases m <;> simp [sent, got, State.deposit, Event.about, hempty]
  | ponged seq payload sentAt h =>
      cases m <;> simp [sent, got, State.deposit, Event.about, hempty, Nat.add_right_comm]
  | unknown seq payload h =>
      cases m <;> simp [sent, got, State.deposit, Event.about, hempty, Nat.add_assoc]

variable (cfg P A E) in
theorem protocol_books :
    Transport.Books (protocol cfg P A E) (fun d m s => sent d m s.events) fun c m s =>
      got c m s.events := by
  have hown : ∀ (o : Operation P A E) (s : State cfg P E),
      Booked s.events (o.exec { s with outbox := [] }) := by
    intro o s
    exact exec_own (fun h => booked_own h) o fun d m => ⟨rfl, rfl⟩
  exact {
    act_sent := fun _ o s d m => (hown o s d m).1
    act_got := fun _ o s d m => (hown o s d m).2
    receive_sent :=
      fun _ c b send s d m =>
        (received_books (exec_received c send b { s with outbox := [] }) rfl d m).1
    receive_got :=
      fun _ c b send s d m =>
        (received_books (exec_received c send b { s with outbox := [] }) rfl d m).2 }

/-! ## Every ping is accounted for -/

/-- Every ping that arrived was answered, or the answer was refused. -/
def Answered (s : State cfg P E) : Prop :=
  ∀ para seq payload, said .pinged para seq payload s.events =
  said .pongSent para seq payload s.events + said .errorSendingPong para seq payload s.events

theorem answered_own {s t : State cfg P E} (h : Own s t) (hanswered : Answered s) : Answered t := by
  intro para seq payload
  cases h <;> simpa [State.deposit, Event.about] using hanswered para seq payload

theorem answered_received {c : P} {b : Message} {s t : State cfg P E} (h : Received c s b t)
    (hanswered : Answered s) : Answered t := by
  intro para seq payload
  have hbefore := hanswered para seq payload
  cases h with
  | sent seq' payload' => simp [State.deposit, Event.about, hbefore, Nat.add_right_comm]
  | refused e seq' payload' => simp [State.deposit, Event.about, hbefore, Nat.add_assoc]
  | ponged seq' payload' sentAt h => simpa [State.deposit, Event.about] using hbefore
  | unknown seq' payload' h => simpa [State.deposit, Event.about] using hbefore

/-- Nothing was pinged yet. -/
structure Genesis (net : Network P Message (State cfg P E)) : Prop where
  pingCount : ∀ p, (net.node p).pingCount = 0
  pings : ∀ p, (net.node p).pings = ∅
  events : ∀ p, (net.node p).events = []
  flight : net.flight = []
  lost : net.lost = []

variable {honest : P → Prop} [DecidablePred honest] {net net' : Network P Message (State cfg P E)}
  {run : List (Transport.Event P Message (Operation P A E) (P → Message → Except E Unit))}

/-- **What the turns of a chain keep, every chain keeps.** -/
theorem chains_run {I : State cfg P E → Prop} (hempty : ∀ {s}, I s → I { s with outbox := [] })
    (hown : ∀ {s t}, Own s t → I s → I t) (hreceived : ∀ {c b s t}, Received c s b t → I s → I t)
    (hI : ∀ p, I (net.node p))
    (hrun : Composable.run (Transport.step (protocol cfg P A E) honest) net run = some net')
    (p : P) : I (net'.node p) := by
  refine Transport.nodes_run (I := fun _ => I) (fun {_ o s} h => ?_)
    (fun {_ c b send s} h => ?_) hI hrun p
  · exact exec_own hown o (hempty h)
  · exact hreceived (exec_received c send b _) (hempty h)

theorem answered_run (hgenesis : Genesis net)
    (hrun : Composable.run (Transport.step (protocol cfg P A E) honest) net run = some net') (p : P) :
    Answered (net'.node p) := by
  refine chains_run (fun h => h) answered_own answered_received (fun p para seq payload => ?_) hrun p
  rw [hgenesis.events]
  rfl

omit [DecidablePred honest] in
theorem balanced_genesis (hgenesis : Genesis net) :
    Transport.Balanced honest (fun d m (s : State cfg P E) => sent d m s.events)
      (fun c m s => got c m s.events) net := by
  rintro ⟨source, dest, body⟩ -
  show sent dest body (net.node source).events = got source body (net.node dest).events + _ + _
  rw [hgenesis.events, hgenesis.events, hgenesis.flight, hgenesis.lost]
  cases body <;> rfl

/-- What was lost or is in flight of a ping and of its pong. -/
def underway (a b : P) (seq : Nat) (payload : Payload) (net : Network P Message (State cfg P E)) :
    Nat :=
  net.flight.count ⟨a, b, .ping seq payload⟩ + net.lost.count ⟨a, b, .ping seq payload⟩ +
    (net.flight.count ⟨b, a, .pong seq payload⟩ + net.lost.count ⟨b, a, .pong seq payload⟩)

omit [DecidablePred honest] in
/-- Between two chains that keep their books, whatever the others do. -/
theorem accounted_of_balanced {a b : P} {seq : Nat} {payload : Payload}
    (hbalanced : Transport.Balanced honest (fun d m (s : State cfg P E) => sent d m s.events)
      (fun c m s => got c m s.events) net) (hanswered :
      Answered (net.node b)) (ha : honest a) (hb : honest b) :
    said .pingSent b seq payload (net.node a).events =
      said .ponged b seq payload (net.node a).events + said .unknownPong b seq payload
        (net.node a).events +
        said .errorSendingPong a seq payload (net.node b).events + underway a b seq payload net := by
  have hping : said .pingSent b seq payload (net.node a).events =
    said .pinged a seq payload (net.node b).events +
      net.flight.count ⟨a, b, .ping seq payload⟩ + net.lost.count ⟨a, b, .ping seq payload⟩ :=
    hbalanced ⟨a, b, .ping seq payload⟩ ha
  have hpong : said .pongSent a seq payload (net.node b).events =
    said .ponged b seq payload (net.node a).events +
      said .unknownPong b seq payload (net.node a).events +
        net.flight.count ⟨b, a, .pong seq payload⟩ +
        net.lost.count ⟨b, a, .pong seq payload⟩ := hbalanced ⟨b, a, .pong seq payload⟩ hb
  have hanswer := hanswered a seq payload
  unfold underway
  omega

/-- **Every ping is accounted for.** In every run of the network, whatever is lost, refused or
    delivered late and whatever chains that do not run the pallet send: of the pings that a chain
    sent another with a number and a payload, as many were answered, or could not be, are on the way
    or were lost, the ping or its pong. -/
theorem pings_accounted (hgenesis : Genesis net)
    (hrun : Composable.run (Transport.step (protocol cfg P A E) honest) net run = some net')
    {a b : P} (ha : honest a) (hb : honest b) (seq : Nat) (payload : Payload) :
    said .pingSent b seq payload (net'.node a).events =
      said .ponged b seq payload (net'.node a).events + said .unknownPong b seq payload
        (net'.node a).events +
        said .errorSendingPong a seq payload (net'.node b).events + underway a b seq payload net' :=
  accounted_of_balanced (Transport.balanced_run (protocol_books cfg P A E)
    (balanced_genesis hgenesis) hrun)
    (answered_run hgenesis hrun b) ha hb

/-! A chain that is told to ping its sibling, twice in a block: one pong comes back, the other ping
is on its way; and the same with a chain that pongs what it was not pinged. -/

def sampleConfig : Config := ⟨2, 4⟩

def sampleNetwork : Network Nat Message (State sampleConfig Nat Unit) :=
  ⟨fun _ => ⟨.empty, 0, ∅, 1, [], []⟩, [], []⟩

theorem sample_genesis : Genesis sampleNetwork := ⟨fun _ => rfl, fun _ => rfl, fun _ => rfl, rfl, rfl⟩

def sampleSend : Nat → Message → Except Unit Unit := fun _ _ => .ok ()

def samplePing :
    List (Transport.Event Nat Message (Operation Nat Unit Unit) (Nat → Message → Except Unit Unit)) :=
  [.act 0 (.startMany .root 1 2 [7]), .act 0 (.finalize sampleSend),
    .deliver ⟨0, 1, .ping 1 [7]⟩ sampleSend,
    .act 0 (.finalize fun _ _ => .error ()), .deliver ⟨1, 0, .pong 1 [7]⟩ sampleSend]

def sampleForged :
    List (Transport.Event Nat Message (Operation Nat Unit Unit) (Nat → Message → Except Unit Unit)) :=
  .forge ⟨2, 0, .pong 2 [9]⟩ :: samplePing ++ [.deliver ⟨2, 0, .pong 2 [9]⟩ sampleSend,
    .lose ⟨0, 1, .ping 2 [7]⟩]

theorem pings_accounted_sample :
    ∃ net', Composable.run (Transport.step (protocol sampleConfig Nat Unit Unit) (· ≠ 2))
    sampleNetwork sampleForged = some net' ∧ said .pingSent 1 2 [7] (net'.node 0).events =
      said .ponged 1 2 [7] (net'.node 0).events + said .unknownPong 1 2 [7] (net'.node 0).events +
        said .errorSendingPong 0 2 [7] (net'.node 1).events + underway 0 1 2 [7] net' := by
  obtain ⟨net', hrun⟩ := Option.isSome_iff_exists.mp (show (Composable.run (Transport.step
    (protocol sampleConfig Nat Unit Unit) (· ≠ 2)) sampleNetwork sampleForged).isSome =
      true from by decide +kernel)
  exact ⟨net', hrun, pings_accounted sample_genesis hrun (by decide) (by decide) 2 [7]⟩

end Ping
end Composable
