import Composable.Ping.Answers

/-!
# `Ping.Recognition` — which ping a pong answers

A pong names a number, and the chain takes it for the answer to the ping that it sent last with this
number. Whatever its siblings send it, a chain counts no ping as answered twice (`answered_once`),
and the time it tells is that since a ping with this number was sent. When all chains run the
pallet, a pong is taken for the answer to the very ping it answers (`pongs_recognised`), as long as
the `u32` that counts the pings has not come round.
-/

namespace Composable
namespace Ping

open Transport (Network Packet)

variable {cfg : Config} {P A E : Type}

/-! ## What a chain knows of its pings -/

/-- Whether a ping is waiting for its pong, as a number. -/
def State.open (seq : Nat) (s : State cfg P E) : Nat := (s.pings.lookup seq).isSome.toNat

/-- The blocks that the chain keeps and the times that it tells are those of its pings. -/
structure Timed (s : State cfg P E) : Prop where
  past : ∀ e ∈ s.events, e.1 ≤ s.blockNumber
  waiting : ∀ {seq n}, s.pings.lookup seq = some n →
    ∃ para payload, (n, .pingSent para seq payload) ∈ s.events
  elapsed : ∀ {block para seq payload elapsed}, (block, .ponged para seq payload elapsed) ∈ s.events →
    ∃ n para' payload', (n, .pingSent para' seq payload') ∈ s.events ∧ n + elapsed = block

/-- Of each number, no more pings were answered than sent. -/
def AnsweredOnce (s : State cfg P E) : Prop :=
  ∀ seq, saidOf .ponged seq s.events + s.open seq ≤ saidOf .pingSent seq s.events

/-- As long as the count of the pings has not come round. -/
structure Numbered (s : State cfg P E) : Prop where
  pingCount : s.pingCount = attempts s.events
  once : ∀ seq, saidOf .pingSent seq s.events ≤ if seq ≤ attempts s.events then 1 else 0
  exact_ : ∀ seq, saidOf .pingSent seq s.events = saidOf .ponged seq s.events + s.open seq

/-- What a chain keeps whatever it receives. -/
structure Sound (s : State cfg P E) : Prop where
  timed : Timed s
  answered : AnsweredOnce s
  numbered : attempts s.events < 2 ^ 32 → Numbered s

variable {s t : State cfg P E} {seq n : Nat}

theorem open_insert {pings : StorageMap Nat Nat} {c : Nat} :
    (((pings.insert c n).lookup seq).isSome.toNat) = if seq = c then 1
      else (pings.lookup seq).isSome.toNat := by
  by_cases hseq : seq = c
  · subst hseq
    rw [AList.lookup_insert, if_pos rfl]
    rfl
  · rw [AList.lookup_insert_ne hseq, if_neg hseq]

theorem open_erase {pings : StorageMap Nat Nat} {c : Nat} :
    (((pings.erase c).lookup seq).isSome.toNat) = if seq = c then 0
      else (pings.lookup seq).isSome.toNat := by
  by_cases hseq : seq = c
  · subst hseq
    rw [AList.lookup_erase, if_pos rfl]
    rfl
  · rw [AList.lookup_erase_ne hseq, if_neg hseq]

/-! ### Times -/

theorem timed_deposit {event : Event P E} (htimed : Timed s)
    (helapsed : ∀ para seq payload elapsed, event = .ponged para seq payload elapsed →
      ∃ n para' payload', (n, .pingSent para' seq payload') ∈ s.events ∧
        n + elapsed = s.blockNumber) :
    Timed (s.deposit event) where
  past e he := by
    rcases List.mem_append.mp he with hold | hnew
    · exact htimed.past e hold
    · rw [List.mem_singleton.mp hnew]
      exact Nat.le_refl s.blockNumber
  waiting h := by
    obtain ⟨para, payload, hmem⟩ := htimed.waiting h
    exact ⟨para, payload, List.mem_append_left _ hmem⟩
  elapsed he := by
    rcases List.mem_append.mp he with hold | hnew
    · obtain ⟨n, para', payload', hmem, hn⟩ := htimed.elapsed hold
      exact ⟨n, para', payload', List.mem_append_left _ hmem, hn⟩
    · obtain ⟨hblock, hevent⟩ := Prod.mk.inj (List.mem_singleton.mp hnew)
      obtain ⟨n, para', payload', hmem, hn⟩ := helapsed _ _ _ _ hevent.symm
      exact ⟨n, para', payload', List.mem_append_left _ hmem, hblock ▸ hn⟩

theorem timed_own (h : Own s t) (htimed : Timed s) : Timed t := by
  cases h with
  | targets targets => exact ⟨htimed.past, htimed.waiting, htimed.elapsed⟩
  | nextBlock =>
      exact ⟨fun e he => (htimed.past e he).trans (Nat.le_succ _), htimed.waiting, htimed.elapsed⟩
  | refused e para payload =>
      have hcounted : Timed { s with pingCount := (s.pingCount + 1) % 2 ^ 32 } :=
        ⟨htimed.past, htimed.waiting, htimed.elapsed⟩
      exact timed_deposit hcounted fun _ _ _ _ h => by cases h
  | sent para payload =>
      have hsent : Timed (s.deposit (.pingSent para ((s.pingCount + 1) % 2 ^ 32) payload)) :=
        timed_deposit htimed fun _ _ _ _ h => by cases h
      refine ⟨hsent.past, fun {seq n} hwaiting => ?_, hsent.elapsed⟩
      rcases StorageMap.lookup_insert_some.mp hwaiting with ⟨rfl, rfl⟩ | ⟨-, hold⟩
      · exact ⟨para, payload, List.mem_append_right _ (List.mem_singleton.mpr rfl)⟩
      · exact hsent.waiting hold

theorem timed_received {c : P} {b : Message} (h : Received c s b t) (htimed : Timed s) : Timed t := by
  cases h with
  | sent seq payload =>
      have hpinged : Timed (s.deposit (.pinged c seq payload)) :=
        timed_deposit htimed fun _ _ _ _ h => by cases h
      have hposted : Timed { s.deposit (.pinged c seq payload) with
          outbox :=
            s.outbox ++ [(c, Message.pong seq payload)] } :=
              ⟨hpinged.past, hpinged.waiting, hpinged.elapsed⟩
      exact timed_deposit hposted fun _ _ _ _ h => by cases h
  | refused e seq payload =>
      have hpinged : Timed (s.deposit (.pinged c seq payload)) :=
        timed_deposit htimed fun _ _ _ _ h => by cases h
      exact timed_deposit hpinged fun _ _ _ _ h => by cases h
  | ponged seq payload sentAt hlookup =>
      have herased : Timed { s with pings := s.pings.erase seq } :=
        ⟨htimed.past, fun h => htimed.waiting (StorageMap.lookup_erase_some.mp h).2, htimed.elapsed⟩
      refine timed_deposit herased fun _ _ _ _ h => ?_
      cases h
      -- the block of the ping is not after this one, so that the subtraction does not saturate
      obtain ⟨para, payload', hmem⟩ := htimed.waiting hlookup
      exact ⟨sentAt, para, payload', hmem, Nat.add_sub_cancel' (htimed.past _ hmem)⟩
  | unknown seq payload hlookup =>
      have herased : Timed { s with pings := s.pings.erase seq } :=
        ⟨htimed.past, fun h => htimed.waiting (StorageMap.lookup_erase_some.mp h).2, htimed.elapsed⟩
      exact timed_deposit herased fun _ _ _ _ h => by cases h

/-! ### Numbers -/

theorem answeredOnce_own (h : Own s t) (hs : AnsweredOnce s) : AnsweredOnce t := by
  intro seq
  have hbefore := hs seq
  unfold State.open at *
  cases h with
  | targets targets => exact hbefore
  | nextBlock => exact hbefore
  | refused e para payload => simpa [State.deposit, Event.about] using hbefore
  | sent para payload =>
      simp only [State.deposit, Event.about, saidOf_append, saidOf_cons, saidOf_nil, open_insert]
      simp only [true_and, reduceCtorEq, false_and, if_false, eq_comm (a := seq)]
      split <;> omega

/-- An answer closes its ping. -/
theorem received_closes {c : P} {b : Message} (h : Received c s b t) (seq : Nat) :
    attempts t.events = attempts s.events ∧
      saidOf .pingSent seq t.events = saidOf .pingSent seq s.events ∧
      saidOf .ponged seq t.events + t.open seq = saidOf .ponged seq s.events + s.open seq ∧
      t.pingCount = s.pingCount := by
  unfold State.open
  cases h with
  | sent seq' payload => simp [State.deposit, Event.about]
  | refused e seq' payload => simp [State.deposit, Event.about]
  | ponged seq' payload sentAt hlookup =>
      refine ⟨by simp [State.deposit, Event.about], by simp [State.deposit, Event.about], ?_, rfl⟩
      simp only [State.deposit, Event.about, saidOf_append, saidOf_cons, saidOf_nil, open_erase]
      by_cases hseq : seq = seq'
      · subst hseq
        simp [hlookup]
      · simp [hseq, Ne.symm hseq]
  | unknown seq' payload hlookup =>
      refine ⟨by simp [State.deposit, Event.about], by simp [State.deposit, Event.about], ?_, rfl⟩
      simp only [State.deposit, Event.about, saidOf_append, saidOf_cons, saidOf_nil, open_erase]
      by_cases hseq : seq = seq'
      · subst hseq
        simp [hlookup]
      · simp [hseq]

/-- The next ping has a new number. -/
theorem numbered_own (h : Own s t) (hs : attempts s.events < 2 ^ 32 → Numbered s)
    (hbound : attempts t.events < 2 ^ 32) : Numbered t := by
  cases h with
  | targets targets => exact ⟨(hs hbound).pingCount, (hs hbound).once, (hs hbound).exact_⟩
  | nextBlock => exact ⟨(hs hbound).pingCount, (hs hbound).once, (hs hbound).exact_⟩
  | refused e para payload =>
      have hroom : attempts s.events + 1 < 2 ^ 32 := by
        simpa [State.deposit, Event.about] using hbound
      obtain ⟨hcount, honce, hexact⟩ := hs (Nat.lt_of_succ_lt hroom)
      have hnext : (s.pingCount + 1) % 2 ^ 32 = attempts s.events + 1 := by
        rw [hcount, Nat.mod_eq_of_lt hroom]
      refine ⟨by simpa [State.deposit, Event.about] using hnext, fun seq => ?_, fun seq => ?_⟩
      · have hbefore := honce seq
        simp only [State.deposit, Event.about, saidOf_append, saidOf_cons, saidOf_nil,
          attempts_append, attempts_cons, attempts_nil, reduceCtorEq, false_and, or_true,
          if_true, if_false]
        split at hbefore <;> split <;> omega
      · simpa [State.deposit, Event.about, State.open] using hexact seq
  | sent para payload =>
      have hroom : attempts s.events + 1 < 2 ^ 32 := by
        simpa [State.deposit, Event.about] using hbound
      obtain ⟨hcount, honce, hexact⟩ := hs (Nat.lt_of_succ_lt hroom)
      have hnext : (s.pingCount + 1) % 2 ^ 32 = attempts s.events + 1 := by
        rw [hcount, Nat.mod_eq_of_lt hroom]
      rw [hnext]
      refine ⟨by simp [State.deposit, Event.about], fun seq => ?_, fun seq => ?_⟩
      · have hbefore := honce seq
        simp only [State.deposit, Event.about, saidOf_append, saidOf_cons, saidOf_nil,
          attempts_append, attempts_cons,
          attempts_nil, true_and, true_or, if_true, eq_comm (b := seq)]
        split at hbefore <;> split <;> split <;> omega
      · have hbefore := hexact seq
        have hfresh := honce seq
        unfold State.open at *
        simp only [State.deposit, Event.about, saidOf_append, saidOf_cons, saidOf_nil, open_insert,
          true_and, reduceCtorEq, false_and, if_false, eq_comm (b := seq)]
        split at hfresh <;> split <;> omega

theorem sound_own (h : Own s t) (hs : Sound s) : Sound t :=
  ⟨timed_own h hs.timed, answeredOnce_own h hs.answered, numbered_own h hs.numbered⟩

theorem sound_received {c : P} {b : Message} (h : Received c s b t) (hs : Sound s) : Sound t := by
  refine ⟨timed_received h hs.timed, fun seq => ?_, fun hbound => ?_⟩
  · obtain ⟨-, hsent, hanswered, -⟩ := received_closes h seq
    rw [hsent, hanswered]
    exact hs.answered seq
  · obtain ⟨hattempts, -, -, hcount⟩ := received_closes h 0
    rw [hattempts] at hbound
    obtain ⟨hcount', honce, hexact⟩ := hs.numbered hbound
    refine ⟨by rw [hcount, hattempts, hcount'], fun seq => ?_, fun seq => ?_⟩
    · rw [(received_closes h seq).2.1, hattempts]
      exact honce seq
    · rw [(received_closes h seq).2.1, (received_closes h seq).2.2.1]
      exact hexact seq

theorem sound_outbox {outbox : List (P × Message)} (h : Sound s) : Sound { s with outbox } :=
  ⟨⟨h.timed.past, h.timed.waiting, h.timed.elapsed⟩, h.answered, fun hbound =>
    ⟨(h.numbered hbound).pingCount, (h.numbered hbound).once, (h.numbered hbound).exact_⟩⟩

/-! ## Whatever the siblings send -/

variable [DecidableEq P] {honest : P → Prop} [DecidablePred honest]
  {net net' : Network P Message (State cfg P E)}
  {run : List (Transport.Event P Message (Operation P A E) (P → Message → Except E Unit))}

omit [DecidableEq P] in
theorem sound_genesis (hgenesis : Genesis net) (p : P) : Sound (net.node p) := by
  have hevents := hgenesis.events p
  have hpings := hgenesis.pings p
  have hopen : ∀ seq, (net.node p).open seq = 0 := by
    intro seq
    rw [State.open, hpings]
    rfl
  refine ⟨⟨?_, ?_, ?_⟩, fun seq => ?_, fun _ => ⟨?_, fun seq => ?_, fun seq => ?_⟩⟩
  · simp [hevents]
  · intro seq n h
    rw [hpings, AList.lookup_empty] at h
    cases h
  · simp [hevents]
  · simp [hevents, hopen]
  · rw [hgenesis.pingCount, hevents]
    rfl
  · simp [hevents]
  · simp [hevents, hopen]

theorem sound_run (hgenesis : Genesis net)
    (hrun : Composable.run (Transport.step (protocol cfg P A E) honest) net run = some net') (p : P) :
    Sound (net'.node p) :=
  chains_run sound_outbox sound_own sound_received (sound_genesis hgenesis) hrun p

/-- **No ping is answered twice.** In every run, whatever its siblings send it, a chain tells of no
    more answers to pings with a number than it sent pings with it, and what waits for a pong was
    sent and not answered; exactly that, until the count of its pings comes round. The time it tells
    of an answer is that since the block it sent a ping with this number in. -/
theorem answered_once (hgenesis : Genesis net)
    (hrun : Composable.run (Transport.step (protocol cfg P A E) honest) net run = some net') (p : P)
    (seq : Nat) : let s := net'.node p
    saidOf .ponged seq s.events + s.open seq ≤ saidOf .pingSent seq s.events ∧
      (attempts s.events < 2 ^ 32 →
        saidOf .ponged seq s.events + s.open seq = saidOf .pingSent seq s.events ∧
          saidOf .pingSent seq s.events ≤ 1) ∧
      ∀ block para payload elapsed, (block, .ponged para seq payload elapsed) ∈ s.events →
        ∃ para' payload', (block - elapsed, .pingSent para' seq payload') ∈ s.events ∧
          elapsed ≤ block := by
  have hsound := sound_run hgenesis hrun p
  refine ⟨hsound.answered seq, fun hbound => ⟨((hsound.numbered hbound).exact_ seq).symm, ?_⟩, ?_⟩
  -- A number within the counter was given out once at most.
  · have honce := (hsound.numbered hbound).once seq
    split at honce <;> omega
  · intro block para payload elapsed hmem
    obtain ⟨n, para', payload', hsent, rfl⟩ := hsound.timed.elapsed hmem
    exact ⟨para', payload', by rwa [Nat.add_sub_cancel], Nat.le_add_left ..⟩

theorem answered_once_sample :
    ∃ net', Composable.run (Transport.step (protocol sampleConfig Nat Unit Unit) (· ≠ 2))
    sampleNetwork sampleForged = some net' ∧
      saidOf .ponged 1 (net'.node 0).events + (net'.node 0).open 1 ≤
        saidOf .pingSent 1 (net'.node 0).events := by
  obtain ⟨net', hrun⟩ := Option.isSome_iff_exists.mp (show (Composable.run (Transport.step
    (protocol sampleConfig Nat Unit Unit) (· ≠ 2)) sampleNetwork sampleForged).isSome =
      true from by decide +kernel)
  exact ⟨net', hrun, (answered_once sample_genesis hrun 0 1).1⟩

/-! ## When all chains run the pallet -/

/-- Every pong was that of the ping it was taken for. -/
structure Recognised (s : State cfg P E) : Prop where
  known : ∀ para seq payload, said .unknownPong para seq payload s.events = 0
  own : ∀ {block para seq payload elapsed}, (block, .ponged para seq payload elapsed) ∈ s.events →
    ∃ n, (n, .pingSent para seq payload) ∈ s.events ∧ n + elapsed = block

omit [DecidableEq P] in
/-- What was said of a number only once was said only once. -/
theorem eq_of_saidOf {kind : Kind} {log : Log P E} {x y : Nat × Event P E}
    (h : saidOf kind seq log ≤ 1) (hx : x ∈ log)
    (hy : y ∈ log) (hxk : x.2.about.1 = kind ∧ x.2.about.2.2.1 = seq)
    (hyk : y.2.about.1 = kind ∧ y.2.about.2.2.1 = seq) : x = y := by
  have hx' : x ∈ log.filter fun e => e.2.about.1 = kind ∧ e.2.about.2.2.1 = seq :=
    List.mem_filter.mpr ⟨hx, decide_eq_true hxk⟩
  have hy' : y ∈ log.filter fun e => e.2.about.1 = kind ∧ e.2.about.2.2.1 = seq :=
    List.mem_filter.mpr ⟨hy, decide_eq_true hyk⟩
  rw [saidOf, List.countP_eq_length_filter] at h
  obtain ⟨z, hz⟩ := List.length_eq_one_iff.mp (le_antisymm h (List.length_pos_of_mem hx'))
  rw [hz, List.mem_singleton] at hx' hy'
  rw [hx', hy']

omit [DecidableEq P] in
theorem about_pingSent {event : Event P E} {para : P} {payload : Payload} :
    event.about = (.pingSent, para, seq, payload) ↔ event = .pingSent para seq payload := by
  cases event <;> simp [Event.about]

theorem said_pos {kind : Kind} {log : Log P E} {para : P} {payload : Payload} :
    0 < said kind para seq payload log ↔ ∃ e ∈ log, e.2.about = (kind, para, seq, payload) := by
  simp [said, List.countP_pos_iff]

theorem recognised_deposit {event : Event P E} (h : Recognised s)
    (hunknown : event.about.1 ≠ .unknownPong)
    (hponged : ∀ para seq payload elapsed, event = .ponged para seq payload elapsed →
      ∃ n, (n, .pingSent para seq payload) ∈ s.events ∧ n + elapsed = s.blockNumber) : Recognised
        (s.deposit event) where
  known para seq payload := by
    have hne : event.about ≠ (.unknownPong, para, seq, payload) :=
      fun heq => hunknown (congrArg Prod.fst heq)
    simp [State.deposit, h.known, hne]
  own hmem := by
    rcases List.mem_append.mp hmem with hold | hnew
    · obtain ⟨n, hsent, hn⟩ := h.own hold
      exact ⟨n, List.mem_append_left _ hsent, hn⟩
    · obtain ⟨hblock, hevent⟩ := Prod.mk.inj (List.mem_singleton.mp hnew)
      obtain ⟨n, hsent, hn⟩ := hponged _ _ _ _ hevent.symm
      exact ⟨n, List.mem_append_left _ hsent, hblock ▸ hn⟩

theorem recognised_own (h : Own s t) (hs : attempts s.events < 2 ^ 32 → Recognised s)
    (hbound : attempts t.events < 2 ^ 32) : Recognised t := by
  cases h with
  | targets targets => exact ⟨(hs hbound).known, (hs hbound).own⟩
  | nextBlock => exact ⟨(hs hbound).known, (hs hbound).own⟩
  | refused e para payload =>
      have hroom : attempts s.events < 2 ^ 32 := by
        simp only [State.deposit, attempts_append] at hbound
        omega
      have hcounted : Recognised { s with pingCount := (s.pingCount + 1) % 2 ^ 32 } :=
        ⟨(hs hroom).known, (hs hroom).own⟩
      exact recognised_deposit hcounted (fun h => by cases h) fun _ _ _ _ h => by cases h
  | sent para payload =>
      have hroom : attempts s.events < 2 ^ 32 := by
        simp only [State.deposit, attempts_append] at hbound
        omega
      have hsent := recognised_deposit (hs hroom)
        (show (Event.pingSent para ((s.pingCount + 1) % 2 ^ 32) payload).about.1 ≠
          .unknownPong from fun h => by cases h)
        fun _ _ _ _ h => by cases h
      exact ⟨hsent.known, hsent.own⟩

/-- What holds of a network of chains that all run the pallet. -/
structure Faithful (net : Network P Message (State cfg P E)) : Prop where
  balanced : Transport.Balanced (fun _ => True) (fun d m (s : State cfg P E) => sent d m s.events)
    (fun c m s => got c m s.events) net
  answered : ∀ p, Answered (net.node p)
  sound : ∀ p, Sound (net.node p)
  recognised : ∀ p, attempts (net.node p).events < 2 ^ 32 → Recognised (net.node p)

/-- **A pong on its way has a ping that waits for it**, to the chain it comes
    from and with its payload. -/
theorem Faithful.waiting (h : Faithful net) {a c : P} {payload : Payload}
    (hbound : attempts (net.node a).events < 2 ^ 32)
    (hflight : (⟨c, a, .pong seq payload⟩ : Packet P Message) ∈ net.flight) :
    ∃ n, (net.node a).pings.lookup seq = some n ∧
      (n, .pingSent c seq payload) ∈ (net.node a).events := by
  have haccounted : said .pingSent c seq payload (net.node a).events = _ :=
    accounted_of_balanced h.balanced (h.answered c) trivial trivial
  have hpos : 0 < net.flight.count ⟨c, a, .pong seq payload⟩ := List.count_pos_iff.mpr hflight
  have hnumbered := (h.sound a).numbered hbound
  have honce : saidOf .pingSent seq (net.node a).events ≤ 1 := by
    have := hnumbered.once seq
    split at this <;> omega
  have hle : said .pingSent c seq payload (net.node a).events ≤ _ := said_le_saidOf
  unfold underway at haccounted
  obtain ⟨⟨n, e⟩, hsent, he⟩ :=
    said_pos.mp (show 0 < said .pingSent c seq payload (net.node a).events by omega)
  obtain rfl := about_pingSent.mp he
  -- no answer to this number was told, for it would be one to the same ping
  have hnone : saidOf .ponged seq (net.node a).events = 0 := by
    by_contra hne
    obtain ⟨⟨block, e⟩, hponged, he⟩ := List.countP_pos_iff.mp (Nat.pos_of_ne_zero hne)
    simp only [decide_eq_true_eq] at he
    cases e with
    | ponged d seq' payload' elapsed =>
        obtain rfl : seq = seq' := he.2.symm
        obtain ⟨m, hsent', -⟩ := (h.recognised a hbound).own hponged
        have hsame := eq_of_saidOf honce hsent hsent' ⟨rfl, rfl⟩ ⟨rfl, rfl⟩
        cases hsame
        have hagain : 0 < said .ponged c seq payload (net.node a).events :=
          said_pos.mpr ⟨_, hponged, rfl⟩
        omega
    | _ => cases he.1
  have hopen : (net.node a).open seq = 1 := by
    have hexact := hnumbered.exact_ seq
    omega
  obtain ⟨n', hlookup⟩ : ∃ n', (net.node a).pings.lookup seq = some n' := by
    rw [State.open] at hopen
    exact Option.isSome_iff_exists.mp (by simpa using hopen)
  obtain ⟨para, payload', hwaiting⟩ := (h.sound a).timed.waiting hlookup
  have hsame := eq_of_saidOf honce hsent hwaiting ⟨rfl, rfl⟩ ⟨rfl, rfl⟩
  cases hsame
  exact ⟨n, hlookup, hsent⟩

/-- A message that arrives is recognised, if it is a pong. -/
theorem recognised_received {c : P} {b : Message} (h : Received c s b t) (hs : Recognised s)
    (hpong : ∀ seq payload, b = .pong seq payload →
      ∃ n, s.pings.lookup seq = some n ∧ (n, .pingSent c seq payload) ∈ s.events ∧
        n ≤ s.blockNumber) : Recognised t := by
  cases h with
  | sent seq payload =>
      have hpinged : Recognised (s.deposit (.pinged c seq payload)) :=
        recognised_deposit hs (fun h => by cases h) fun _ _ _ _ h => by cases h
      have hposted : Recognised { s.deposit (.pinged c seq payload) with
          outbox := s.outbox ++ [(c, Message.pong seq payload)] } := ⟨hpinged.known, hpinged.own⟩
      exact recognised_deposit hposted (fun h => by cases h) fun _ _ _ _ h => by cases h
  | refused e seq payload =>
      have hpinged : Recognised (s.deposit (.pinged c seq payload)) :=
        recognised_deposit hs (fun h => by cases h) fun _ _ _ _ h => by cases h
      exact recognised_deposit hpinged (fun h => by cases h) fun _ _ _ _ h => by cases h
  | ponged seq payload sentAt hlookup =>
      obtain ⟨n, hn, hsent, hle⟩ := hpong seq payload rfl
      obtain rfl : n = sentAt := Option.some.inj (hn.symm.trans hlookup)
      have herased : Recognised { s with pings := s.pings.erase seq } := ⟨hs.known, hs.own⟩
      refine recognised_deposit herased (fun h => by cases h) fun _ _ _ _ h => ?_
      cases h
      exact ⟨n, hsent, Nat.add_sub_cancel' hle⟩
  | unknown seq payload hlookup =>
      obtain ⟨n, hn, -⟩ := hpong seq payload rfl
      rw [hlookup] at hn
      cases hn

/-- What a turn of a chain leaves of the network. -/
theorem Faithful.turn {p : P} {flight : List (Packet P Message)}
    {r : State cfg P E × List (P × Message)}
    (h : Faithful net)
    (hbalanced : Transport.Balanced (fun _ => True) (fun d m (s : State cfg P E) => sent d m s.events)
      (fun c m s => got c m s.events) (net.turn p flight r))
    (hr : Answered r.1 ∧ Sound r.1 ∧ (attempts r.1.events < 2 ^ 32 → Recognised r.1)) :
    Faithful (net.turn p flight r) := by
  refine ⟨hbalanced, fun q => ?_, fun q => ?_, fun q => ?_⟩
  all_goals
    rw [Transport.turn_node]
    split
  · exact hr.1
  · exact h.answered q
  · exact hr.2.1
  · exact h.sound q
  · exact hr.2.2
  · exact h.recognised q

theorem faithful_step
    {event : Transport.Event P Message (Operation P A E) (P → Message → Except E Unit)}
    (h : Faithful net)
    (hstep : Transport.step (protocol cfg P A E) (fun _ => True) net event = some net') :
    Faithful net' := by
  have hbalanced := Transport.balanced_step (protocol_books cfg P A E) h.balanced hstep
  cases Transport.step_happened hstep with
  | act p o =>
      refine h.turn hbalanced ⟨exec_own answered_own o (h.answered p), ?_, ?_⟩
      · have hempty : Sound { net.node p with outbox := [] } := sound_outbox (h.sound p)
        exact exec_own sound_own o hempty
      · have hempty : attempts (net.node p).events < 2 ^ 32 →
            Recognised { net.node p with outbox := [] } :=
          fun hbound => ⟨(h.recognised p hbound).known, (h.recognised p hbound).own⟩
        exact exec_own (I := fun s => attempts s.events < 2 ^ 32 →
          Recognised s) recognised_own o hempty
  | deliver packet send hflight =>
      have hreceived :=
        exec_received packet.source send packet.body { net.node packet.dest with outbox := [] }
      refine h.turn hbalanced ⟨answered_received hreceived (h.answered packet.dest),
        sound_received hreceived (sound_outbox (h.sound packet.dest)), fun hbound => ?_⟩
      have hbefore : attempts (net.node packet.dest).events < 2 ^ 32 :=
        (received_closes hreceived 0).1 ▸ hbound
      have hs := h.recognised packet.dest hbefore
      refine recognised_received hreceived ⟨hs.known, hs.own⟩ fun seq payload hbody => ?_
      obtain ⟨source, dest, body⟩ := packet
      obtain rfl : body = .pong seq payload := hbody
      obtain ⟨n, hlookup, hsent⟩ := h.waiting hbefore hflight
      exact ⟨n, hlookup, hsent, (h.sound dest).timed.past _ hsent⟩
  | lose packet hflight => exact ⟨hbalanced, h.answered, h.sound, h.recognised⟩
  | forge packet hforged => exact absurd trivial hforged

theorem faithful_genesis (hgenesis : Genesis net) : Faithful net := by
  refine ⟨balanced_genesis hgenesis, fun p para seq payload => ?_,
    fun p => sound_genesis hgenesis p, fun p _ => ⟨?_, ?_⟩⟩
  · rw [hgenesis.events]
    rfl
  · intro para seq payload
    rw [hgenesis.events]
    rfl
  · intro block para seq payload elapsed hmem
    rw [hgenesis.events] at hmem
    cases hmem

/-- **Every pong is recognised.** In every run of a network of chains that all run the pallet, as
    long as the count of the pings of a chain has not come round: it knows every pong that it gets,
    and takes it for the answer to a ping that it sent to the very chain the pong comes from, with
    its payload, and tells the blocks since then. What still waits for a pong is on the way or was
    lost, the ping or its pong, or the pong was refused. -/
theorem pongs_recognised (hgenesis : Genesis net)
    (hrun : Composable.run (Transport.step (protocol cfg P A E) fun _ => True) net run = some net')
    (p : P) (hbound : attempts (net'.node p).events < 2 ^ 32) :
    let s := net'.node p
    (∀ para seq payload, said .unknownPong para seq payload s.events = 0) ∧
      (∀ block para seq payload elapsed, (block, .ponged para seq payload elapsed) ∈ s.events →
        elapsed ≤ block ∧ (block - elapsed, .pingSent para seq payload) ∈ s.events) ∧
      ∀ seq n, s.pings.lookup seq = some n → ∃ para payload,
        (n, .pingSent para seq payload) ∈ s.events ∧
        0 < said .errorSendingPong p seq payload (net'.node para).events +
          underway p para seq payload net' := by
  have h : Faithful net' :=
    run_invariant (C := fun _ _ => True) (fun h _ hstep => faithful_step h hstep)
    (faithful_genesis hgenesis) (along_true _ _) hrun
  have hrecognised := h.recognised p hbound
  refine ⟨hrecognised.known, fun block para seq payload elapsed hmem => ?_, fun seq n hlookup => ?_⟩
  · obtain ⟨n, hsent, rfl⟩ := hrecognised.own hmem
    exact ⟨Nat.le_add_left .., by rwa [Nat.add_sub_cancel]⟩
  · obtain ⟨para, payload, hsent⟩ := (h.sound p).timed.waiting hlookup
    refine ⟨para, payload, hsent, ?_⟩
    -- A ping that is still open was not answered: one was sent of it, and as many are accounted
    -- for.
    have hnumbered := (h.sound p).numbered hbound
    have honce : saidOf .pingSent seq (net'.node p).events ≤ 1 := by
      have := hnumbered.once seq
      split at this <;> omega
    have hexact := hnumbered.exact_ seq
    have hopen : (net'.node p).open seq = 1 := by simp [State.open, hlookup]
    have hsaid : 0 < said .pingSent para seq payload (net'.node p).events :=
      said_pos.mpr ⟨_, hsent, rfl⟩
    have hponged : said .ponged para seq payload (net'.node p).events ≤ _ := said_le_saidOf
    have hknown := hrecognised.known para seq payload
    have haccounted : said .pingSent para seq payload (net'.node p).events = _ :=
      accounted_of_balanced h.balanced (h.answered para) trivial trivial
    omega

theorem pongs_recognised_sample :
    ∃ net', Composable.run (Transport.step (protocol sampleConfig Nat Unit Unit) fun _ => True)
    sampleNetwork samplePing = some net' ∧ ∃ para payload, (net'.node 0).pings.lookup 2 = some 1 ∧
      (1, .pingSent para 2 payload) ∈ (net'.node 0).events ∧
      0 < said .errorSendingPong 0 2 payload (net'.node para).events +
        underway 0 para 2 payload net' := by
  have hrun : ∃ net', Composable.run (Transport.step (protocol sampleConfig Nat Unit Unit) fun _ =>
    True) sampleNetwork
      samplePing = some net' ∧ attempts (net'.node 0).events < 2 ^ 32 ∧
        (net'.node 0).pings.lookup 2 = some 1 :=
    ⟨_, rfl, by decide +kernel, by decide +kernel⟩
  obtain ⟨net', hrun, hbound, hlookup⟩ := hrun
  obtain ⟨para, payload, hsent, hunderway⟩ :=
    (pongs_recognised sample_genesis hrun 0 hbound).2.2 2 1 hlookup
  exact ⟨net', hrun, para, payload, hlookup, hsent, hunderway⟩

end Ping
end Composable
