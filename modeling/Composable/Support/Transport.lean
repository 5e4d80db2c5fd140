import Composable.Support.Run
import Mathlib.Data.List.Basic
import Mathlib.Logic.Function.Basic

/-!
# `Support.Transport` — nodes that send each other messages

A network has a node for each party, the messages in flight between them and those that were lost.
The messages in flight are delivered in any order, and any of them may be lost. Parties that are not
honest put messages of their own in flight, under their own names.

A protocol books its messages if a node can tell from its state how often it sent a message to a
party and how often it got one from it (`Books`). The delivery rule is `balanced_run`: what an
honest party sent to another was got by it, is in flight or was lost, each message once. `nodes_run`
is the invariant rule for what every node keeps by itself.
-/

namespace Composable
namespace Transport

variable {P M σ ο ω : Type}

/-- A message from one party to another. -/
structure Packet (P M : Type) where
  source : P
  dest : P
  body : M
deriving DecidableEq, Repr

structure Network (P M σ : Type) where
  node : P → σ
  flight : List (Packet P M)
  lost : List (Packet P M)

/-- What a node does in an operation of its own, and with a message of another party: its next
    state, and what it sends to whom. `ω` is what its surroundings decide meanwhile. -/
structure Protocol (P M σ ο ω : Type) where
  act : P → ο → σ → σ × List (P × M)
  receive : P → P → M → ω → σ → σ × List (P × M)

inductive Event (P M ο ω : Type) where
  | act (p : P) (o : ο)
  | deliver (packet : Packet P M) (w : ω)
  | lose (packet : Packet P M)
  | forge (packet : Packet P M)

/-- What a node sends, as packets. -/
def posted (p : P) (out : List (P × M)) : List (Packet P M) := out.map fun m => ⟨p, m.1, m.2⟩

/-- A node is done with a turn. -/
def Network.turn [DecidableEq P] (net : Network P M σ) (p : P) (flight : List (Packet P M))
    (r : σ × List (P × M)) : Network P M σ where
  node := Function.update net.node p r.1
  flight := flight ++ posted p r.2
  lost := net.lost

variable [DecidableEq P] [DecidableEq M] (proto : Protocol P M σ ο ω) (honest : P → Prop)
  [DecidablePred honest]

/-- One event. Only what is in flight is delivered or lost, and nobody sends under the
    name of an honest party. -/
def step (net : Network P M σ) : Event P M ο ω → Option (Network P M σ)
  | .act p o => some (net.turn p net.flight (proto.act p o (net.node p)))
  | .deliver packet w =>
      if packet ∈ net.flight then
        some (net.turn packet.dest (net.flight.erase packet)
          (proto.receive packet.dest packet.source packet.body w (net.node packet.dest)))
      else none
  | .lose packet =>
      if packet ∈ net.flight then
        some { net with flight := net.flight.erase packet, lost := packet :: net.lost }
      else none
  | .forge packet =>
      if honest packet.source then none else some { net with flight := packet :: net.flight }

/-! ## What can happen in one event -/

variable {proto honest} {net net' : Network P M σ} {event : Event P M ο ω}

/-- An event, and what it did. -/
inductive Happened (proto : Protocol P M σ ο ω) (honest : P → Prop) (net : Network P M σ) :
    Event P M ο ω → Network P M σ → Prop where
  | act (p : P) (o : ο) :
      Happened proto honest net (.act p o) (net.turn p net.flight (proto.act p o (net.node p)))
  | deliver (packet : Packet P M) (w : ω) (h : packet ∈ net.flight) :
      Happened proto honest net (.deliver packet w) (net.turn packet.dest (net.flight.erase packet)
        (proto.receive packet.dest packet.source packet.body w (net.node packet.dest)))
  | lose (packet : Packet P M) (h : packet ∈ net.flight) : Happened proto honest net (.lose packet)
      { net with flight := net.flight.erase packet, lost := packet :: net.lost }
  | forge (packet : Packet P M) (h : ¬ honest packet.source) :
      Happened proto honest net (.forge packet) { net with flight := packet :: net.flight }

theorem step_happened (h : step proto honest net event = some net') :
    Happened proto honest net event net' := by
  cases event with
  | act p o =>
      cases h
      exact .act p o
  | deliver packet w =>
      obtain ⟨hflight, hnet⟩ := Option.ite_none_right_eq_some.mp h
      cases hnet
      exact .deliver packet w hflight
  | lose packet =>
      obtain ⟨hflight, hnet⟩ := Option.ite_none_right_eq_some.mp h
      cases hnet
      exact .lose packet hflight
  | forge packet =>
      obtain ⟨hforged, hnet⟩ := Option.ite_none_left_eq_some.mp h
      cases hnet
      exact .forge packet hforged

/-! ## What every node keeps -/

omit [DecidableEq M] in
theorem turn_node {p q : P} {flight : List (Packet P M)} {r : σ × List (P × M)} :
    (net.turn p flight r).node q = if q = p then r.1 else net.node q := Function.update_apply ..

/-- **Node rule.** What the turns of a node keep, every node keeps in every run. -/
theorem nodes_run {I : P → σ → Prop} (hact : ∀ {p o s}, I p s → I p (proto.act p o s).1)
    (hreceive : ∀ {p c m w s}, I p s → I p (proto.receive p c m w s).1)
    {events : List (Event P M ο ω)}
    (hI : ∀ p, I p (net.node p)) (hrun : run (step proto honest) net events = some net') (p : P) :
    I p (net'.node p) := by
  have hturn : ∀ {net : Network P M σ} {q flight r}, (∀ p, I p (net.node p)) → I q r.1 →
      ∀ p, I p ((net.turn q flight r).node p) := by
    intro net q flight r hnodes hq p
    rw [turn_node]
    split
    · rename_i hp
      exact hp ▸ hq
    · exact hnodes p
  have hstep : ∀ {net event net'}, (∀ p, I p (net.node p)) → True →
      step proto honest net event = some net' →
      ∀ p, I p (net'.node p) := by
    intro net event net' hnodes _ h
    cases step_happened h with
    | act q o => exact hturn hnodes (hact (hnodes q))
    | deliver packet w hflight => exact hturn hnodes (hreceive (hnodes packet.dest))
    | lose packet hflight => exact hnodes
    | forge packet hforged => exact hnodes
  exact run_invariant (C := fun _ _ => True) hstep hI (along_true _ _) hrun p

/-! ## What was sent, and where it is -/

/-- The nodes count what they send to each party and what they get from it. -/
structure Books (proto : Protocol P M σ ο ω) (sent got : P → M → σ → Nat) : Prop where
  act_sent : ∀ p o s d m, sent d m (proto.act p o s).1 = sent d m s + (proto.act p o s).2.count (d, m)
  act_got : ∀ p o s c m, got c m (proto.act p o s).1 = got c m s
  receive_sent : ∀ p c b w s d m,
    sent d m (proto.receive p c b w s).1 = sent d m s + (proto.receive p c b w s).2.count (d, m)
  receive_got : ∀ p c b w s d m,
    got d m (proto.receive p c b w s).1 = got d m s + if c = d ∧ b = m then 1 else 0

/-- What an honest party sent was got, is in flight or was lost. -/
def Balanced (honest : P → Prop) (sent got : P → M → σ → Nat) (net : Network P M σ) : Prop :=
  ∀ packet : Packet P M, honest packet.source →
    sent packet.dest packet.body (net.node packet.source) =
    got packet.source packet.body (net.node packet.dest) + net.flight.count packet +
      net.lost.count packet

variable {sent got : P → M → σ → Nat} {p : P} {flight : List (Packet P M)} {r : σ × List (P × M)}

theorem count_posted (out : List (P × M)) (packet : Packet P M) :
    (posted p out).count packet = if packet.source = p then out.count (packet.dest, packet.body)
      else 0 := by
  obtain ⟨source, dest, body⟩ := packet
  induction out with
  | nil => simp [posted]
  | cons m out ih =>
      obtain ⟨d, b⟩ := m
      rw [posted, List.map_cons, List.count_cons, List.count_cons, ← posted, ih]
      by_cases hsource : source = p
      · simp [hsource]
      · simp [hsource, Ne.symm hsource]

/-- What a turn sends is booked by its node and by no other. -/
theorem sent_turn (hsent : ∀ d m, sent d m r.1 = sent d m (net.node p) + r.2.count (d, m))
    (packet : Packet P M) :
    sent packet.dest packet.body ((net.turn p flight r).node packet.source) =
      sent packet.dest packet.body (net.node packet.source) + (posted p r.2).count packet := by
  rw [count_posted, turn_node]
  split
  · rename_i hp
    rw [hsent, hp]
  · rfl

/-- Taking a message out of the flight. -/
theorem count_erase_add {arrived packet : Packet P M} (h : arrived ∈ net.flight) :
    (net.flight.erase arrived).count packet + (if packet = arrived then 1 else 0) =
      net.flight.count packet := by
  by_cases heq : packet = arrived
  · subst heq
    have hpos : 0 < net.flight.count packet := List.count_pos_iff.mpr h
    rw [List.count_erase_self, if_pos rfl]
    omega
  · rw [List.count_erase_of_ne heq, if_neg heq, Nat.add_zero]

/-- One event keeps the balance. -/
theorem balanced_step (hbooks : Books proto sent got) (h : Balanced honest sent got net)
    (hstep : step proto honest net event = some net') : Balanced honest sent got net' := by
  intro packet hhonest
  have hbefore := h packet hhonest
  cases step_happened hstep with
  | act p o =>
      have hgot : got packet.source packet.body
          ((net.turn p net.flight (proto.act p o (net.node p))).node packet.dest) =
          got packet.source packet.body (net.node packet.dest) := by
        rw [turn_node]
        split
        · rename_i hp
          rw [hbooks.act_got, hp]
        · rfl
      rw [sent_turn (hbooks.act_sent p o _) packet, hgot, hbefore]
      show _ = _ + (net.flight ++ posted p _).count packet + net.lost.count packet
      rw [List.count_append]
      omega
  | deliver arrived w hflight =>
      have hgot : got packet.source packet.body ((net.turn arrived.dest (net.flight.erase arrived)
          (proto.receive arrived.dest arrived.source arrived.body w (net.node arrived.dest))).node
            packet.dest) =
          got packet.source packet.body (net.node packet.dest) + if packet = arrived then 1
            else 0 := by
        rw [turn_node]
        split
        · rename_i hp
          rw [hbooks.receive_got, hp]
          refine congrArg _ (if_congr ⟨fun heq => ?_, fun heq => by simp [heq]⟩ rfl rfl)
          cases packet
          cases arrived
          simp_all
        · rename_i hp
          rw [if_neg fun heq => hp (congrArg Packet.dest heq), Nat.add_zero]
      have herase :
          (net.flight.erase arrived).count packet + (if packet = arrived then 1 else 0) = _ :=
        count_erase_add hflight
      rw [sent_turn (hbooks.receive_sent arrived.dest arrived.source arrived.body w _) packet,
        hgot, hbefore]
      show _ = _ + (net.flight.erase arrived ++ posted arrived.dest _).count packet +
        net.lost.count packet
      rw [List.count_append]
      omega
  | lose gone hflight =>
      have herase : (net.flight.erase gone).count packet + (if packet = gone then 1 else 0) = _ :=
        count_erase_add hflight
      show sent packet.dest packet.body (net.node packet.source) =
        got packet.source packet.body (net.node packet.dest) +
        (net.flight.erase gone).count packet + (gone :: net.lost).count packet
      rw [List.count_cons, hbefore, show (gone == packet) = decide (packet = gone) from by
        rw [beq_eq_decide, decide_eq_decide, eq_comm]]
      simp only [decide_eq_true_eq]
      omega
  | forge forged hforged =>
      have hne : forged ≠ packet := by
        rintro rfl
        exact hforged hhonest
      show sent packet.dest packet.body (net.node packet.source) =
        got packet.source packet.body (net.node packet.dest) +
        (forged :: net.flight).count packet + net.lost.count packet
      rw [List.count_cons_of_ne hne, hbefore]

/-- **Delivery rule.** In every run, what an honest party sent to another was got by it,
    is in flight or was lost. -/
theorem balanced_run (hbooks : Books proto sent got) {events : List (Event P M ο ω)}
    (h : Balanced honest sent got net) (hrun : run (step proto honest) net events = some net') :
    Balanced honest sent got net' :=
  run_invariant (C := fun _ _ => True) (fun h _ hstep => balanced_step hbooks h hstep) h
    (along_true _ _) hrun

end Transport
end Composable
