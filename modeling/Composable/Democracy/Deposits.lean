import Composable.Democracy.Effect
import Composable.Democracy.Preimages
import Composable.Support.Escrow
import Composable.Support.Maintains

/-!
# `Democracy.Deposits` — every deposit is backed

The pallet holds deposits of the native currency for proposals, one from the proposer and from
everyone who seconds, and for preimages. The currency knows one reserved balance for each
account, and the pallet releases what its own books say. In every run the reserved balance of
an account is at least what all its deposits add up to (`deposits_backed`), so what is
released is the whole deposit: the assertions of `do_enact_proposal`, `reap_preimage`,
`cancel_proposal` and `blacklist` hold.

A refund that is refused leaves the pallet's book before it leaves the currency's, and nothing is
rolled back; it is the reserve that is larger then.
-/

namespace Composable
namespace Democracy

variable {A X H P : Type} [LinearOrder A] [DecidableEq X] [DecidableEq H]

/-! ## What is owed -/

/-- What a proposal or a preimage owes to an account. -/
def owed (queues : Queues A X H) (preimages : ProposalId X H → Option (PreimageStatus A)) :
    Nat ⊕ ProposalId X H → A → Nat
  | .inl proposal, a =>
      match queues.depositOf proposal with
      | some (whos, amount) => whos.count a * amount
      | none => 0
  | .inr id, a =>
      match preimages id with
      | some (.available _ provider deposit _ _) => only provider deposit a
      | _ => 0

/-- The reserved balances cover what is owed, and `spare`. -/
def Backed (cfg : QueueConfig A X) (preimages : ProposalId X H → Option (PreimageStatus A))
    (spare : A → Nat) (s : Board A X H) : Prop :=
  Covers (s.pallet.ledger.reserved cfg.native) (owed s.queues preimages) spare

variable {cfg : QueueConfig A X} {preimages : ProposalId X H → Option (PreimageStatus A)}
  {spare : A → Nat}
variable {s t : Board A X H} {now : Nat}

/-- A proposal of which the deposits change. -/
theorem owed_update (q : Queues A X H) (proposal : Nat) (deposits : Option (List A × Nat)) :
    owed { q with depositOf := Function.update q.depositOf proposal deposits } preimages =
      Function.update (owed q preimages) (.inl proposal) fun a =>
        match deposits with
        | some (whos, amount) => whos.count a * amount
        | none => 0 := by
  funext key a
  rcases key with i | id
  · by_cases hi : i = proposal
    · subst hi
      simp [owed]
    · have hne : (Sum.inl i : Nat ⊕ ProposalId X H) ≠ .inl proposal := fun h => hi (Sum.inl.inj h)
      rw [Function.update_of_ne hne]
      simp [owed, hi]
  · have hne : (Sum.inr id : Nat ⊕ ProposalId X H) ≠ .inl proposal := by
      intro h
      cases h
    rw [Function.update_of_ne hne]
    rfl

/-- A preimage that changes. -/
theorem owed_putPreimage (q : Queues A X H) (id : ProposalId X H)
    (status : Option (PreimageStatus A)) :
    owed q (Function.update preimages id status) =
      Function.update (owed q preimages) (.inr id) fun a =>
        match status with
        | some (.available _ provider deposit _ _) => only provider deposit a
        | _ => 0 := by
  funext key a
  rcases key with i | id'
  · have hne : (Sum.inl i : Nat ⊕ ProposalId X H) ≠ .inr id := by
      intro h
      cases h
    rw [Function.update_of_ne hne]
    rfl
  · by_cases hid : id' = id
    · subst hid
      simp [owed]
    · have hne : (Sum.inr id' : Nat ⊕ ProposalId X H) ≠ .inr id := fun h => hid (Sum.inr.inj h)
      rw [Function.update_of_ne hne]
      simp [owed, hid]

/-! ## The currency -/

omit [DecidableEq H] in
/-- What is held is spare. -/
theorem holdDeposit_backed (who : A) (n : Nat) (h : Backed cfg preimages spare s) :
    Call.Outcome (fun _ t => Backed cfg preimages (fun a => spare a + only who n a) t ∧
      t.queues = s.queues)
      (fun _ t => t = s) (holdDeposit cfg who n s) := by
  rw [holdDeposit, onNative, Call.get_bind]
  cases cfg.holdRefused s.pallet.ledger who n with
  | some e => exact rfl
  | none =>
      refine ⟨?_, rfl⟩
      refine (Covers.hold h who n).mono (fun a => ?_) (fun _ _ => le_rfl) fun _ => le_rfl
      simp [only]

omit [DecidableEq H] in
/-- What is spare is released. -/
theorem releaseDeposit_backed (who : A) (n : Nat)
    (h : Backed cfg preimages (fun a => spare a + only who n a) s) :
    Call.Outcome (fun _ => Backed cfg preimages spare) (fun _ => Backed cfg preimages spare)
      (releaseDeposit cfg who n s) := by
  rw [releaseDeposit, onNative, Call.get_bind]
  cases cfg.releaseRefused s.pallet.ledger who n with
  | some e => exact h.mono (fun _ => le_rfl) (fun _ _ => le_rfl) fun _ => Nat.le_add_right _ _
  | none =>
      refine (Covers.release who n h).mono (fun a => ?_) (fun _ _ => le_rfl) fun _ => le_rfl
      simp [only]

omit [DecidableEq H] in
/-- What is spare is slashed. -/
theorem slashDeposit_backed (who : A) (n : Nat)
    (h : Backed cfg preimages (fun a => spare a + only who n a) s) :
    Call.Outcome (fun _ => Backed cfg preimages spare) (fun _ => Backed cfg preimages spare)
      (slashDeposit cfg who n s) := by
  rw [slashDeposit, onNative, Call.get_bind]
  cases cfg.transferHeldRefused s.pallet.ledger who n with
  | some e => exact h.mono (fun _ => le_rfl) (fun _ _ => le_rfl) fun _ => Nat.le_add_right _ _
  | none =>
      refine (Covers.release who n h).mono (fun a => ?_) (fun _ _ => le_rfl) fun _ => le_rfl
      simp [only]

omit [DecidableEq X] [DecidableEq H] in
theorem count_cons_mul (who : A) (whos : List A) (n : Nat) (a : A) :
    (who :: whos).count a * n = whos.count a * n + only who n a := by
  rw [List.count_cons, Nat.add_mul, only]
  by_cases ha : a = who
  · subst ha
    simp
  · simp [ha, Ne.symm ha]

omit [DecidableEq H] in
/-- All that a proposal owed is paid out, or the first refusal ends it. -/
theorem forEach_backed {pay : A → QueueCall A X H Unit} {n : Nat}
    (hpay : ∀ who spare s, Backed cfg preimages (fun a => spare a + only who n a) s →
      Call.Outcome (fun _ => Backed cfg preimages spare) (fun _ => Backed cfg preimages spare)
        (pay who s))
    {whos : List A} (h : Backed cfg preimages (fun a => spare a + whos.count a * n) s) :
    Call.Outcome (fun _ => Backed cfg preimages spare) (fun _ => Backed cfg preimages spare)
      (Call.forEach whos pay s) := by
  induction whos generalizing s with
  | nil =>
      refine Covers.mono h (fun _ => le_rfl) (fun _ _ => le_rfl) fun a => ?_
      simp
  | cons who whos ih =>
      show Call.Outcome _ _ ((pay who >>= fun _ => Call.forEach whos pay) s)
      have hfirst :
          Backed cfg preimages (fun a => (spare a + whos.count a * n) + only who n a) s := by
        refine h.mono (fun _ => le_rfl) (fun _ _ => le_rfl) fun a => ?_
        simp only [count_cons_mul]
        omega
      refine Call.Outcome.bind ((hpay who _ s hfirst).imp (fun _ _ ht => ht) fun _ t ht => ?_)
        fun _ t ht => ih ht
      exact ht.mono (fun _ => le_rfl) (fun _ _ => le_rfl) fun _ => Nat.le_add_right _ _

/-! ## The books -/

/-- A proposal that is removed from the book leaves its deposits spare. -/
theorem Backed.forget {proposal : Nat} {whos : List A} {amount : Nat}
    (h : Backed cfg preimages spare s)
    (hstored : s.queues.depositOf proposal = some (whos, amount)) :
    Backed cfg preimages (fun a => spare a + whos.count a * amount)
      { s with queues := { s.queues with
        depositOf := Function.update s.queues.depositOf proposal none } } := by
  show Covers _ (owed _ preimages) _
  rw [owed_update]
  apply Covers.take h
  intro a
  simp [owed, hstored]

/-- What is spare is recorded for a proposal. -/
theorem Backed.record {n : Nat} {whos : List A} {amount : Nat}
    (h : Backed cfg preimages (fun a => spare a + whos.count a * amount) s) :
    Backed cfg preimages spare
      { s with queues := { s.queues with
          depositOf := Function.update s.queues.depositOf n (some (whos, amount)) } } := by
  show Covers _ (owed _ preimages) _
  rw [owed_update]
  exact Covers.record h

omit [DecidableEq H] in
/-- What else is done to the queues and the referenda does not matter. -/
theorem Backed.congr (h : Backed cfg preimages spare s)
    (hledger : t.pallet.ledger = s.pallet.ledger)
    (hdeposits : t.queues.depositOf = s.queues.depositOf) : Backed cfg preimages spare t := by
  have howed : owed t.queues preimages = owed s.queues preimages := by
    funext key a
    rcases key with i | id
    · simp only [owed, hdeposits]
    · rfl
  show Covers _ _ _
  rw [hledger, howed]
  exact h

/-! ## Calls on the queues -/

omit [LinearOrder A] in
theorem maintains_ensureSigned {σ ε : Type} {I : σ → Prop} {origin : RawOrigin A} :
    (ensureSigned origin : Call σ (DispatchError ε) A).Maintains I := by
  intro s h
  rw [ensureSigned_outcome]
  exact ⟨fun _ _ => h, fun _ => h⟩

omit [DecidableEq H] in
theorem maintains_modifyQueues {f : Queues A X H → Queues A X H}
    (hf : ∀ q, (f q).depositOf = q.depositOf) :
    (modifyQueues f : QueueCall A X H Unit).Maintains (Backed cfg preimages spare) :=
  .modify fun s h => Backed.congr h rfl (hf s.queues)

omit [DecidableEq H] in
theorem maintains_inject {end_ delay : Nat} {id : ProposalId X H} {threshold : VoteThreshold} :
    (Call.modify fun s : Board A X H =>
      { s with pallet := injectReferendum end_ id threshold delay s.pallet } :
      QueueCall A X H Unit).Maintains (Backed cfg preimages spare) :=
  .modify fun _ h => Backed.congr h rfl rfl

omit [DecidableEq H] in
theorem maintains_ensureNotBlacklisted {id : ProposalId X H} :
    (ensureNotBlacklisted now id : QueueCall A X H Unit).Maintains (Backed cfg preimages spare) := by
  refine .get_bind fun s h => ?_
  rcases s.queues.blacklist id with _ | ⟨till, vetoers⟩
  · exact h
  · exact Call.Maintains.ensure _ _ s h

theorem maintains_propose {origin : RawOrigin A} {id : ProposalId X H} {value : Nat} :
    (propose cfg now origin id value).Maintains (Backed cfg preimages spare) := by
  refine .bind (maintains_ensureSigned) fun who => ?_
  refine .bind (.ensure _ _) fun _ => ?_
  refine .get_bind fun s h => ?_
  refine (Call.Maintains.ensure _ _ s h).bind fun _ t ht => ?_
  refine (maintains_ensureNotBlacklisted t ht).bind fun _ t ht => ?_
  refine ((holdDeposit_backed who value ht).imp (fun _ _ ht => ht.1) fun _ _ ht' => ht' ▸ ht).bind
    fun _ t ht => ?_
  have hspare : Backed cfg preimages (fun a => spare a + [who].count a * value) t := by
    refine ht.mono (fun _ => le_rfl) (fun _ _ => le_rfl) fun a => ?_
    rw [count_cons_mul]
    simp
  exact Backed.congr hspare.record rfl rfl

theorem maintains_second {origin : RawOrigin A} {proposal secondsUpperBound : Nat} :
    (second cfg origin proposal secondsUpperBound : QueueCall A X H Unit).Maintains
      (Backed cfg preimages spare) := by
  refine .bind maintains_ensureSigned fun who => ?_
  refine .get_bind fun s h => ?_
  rw [Call.outcome_bind, Call.outcome_ofOption]
  refine ⟨fun deposits hstored => ?_, fun _ => h⟩
  obtain ⟨whos, amount⟩ := deposits
  rw [Call.outcome_bind, Call.outcome_ensure]
  refine ⟨fun _ => ?_, fun _ => h⟩
  refine ((holdDeposit_backed who amount h).imp (fun _ _ ht => ht) fun _ _ ht => ht ▸ h).bind
    fun _ t ht => ?_
  obtain ⟨hbacked, hqueues⟩ := ht
  -- the new deposit joins those that are taken out of the book
  have htaken := Backed.forget hbacked (hqueues ▸ hstored)
  have hspare : Backed cfg preimages (fun a => spare a + (whos ++ [who]).count a * amount)
      { t with queues := { t.queues with
        depositOf := Function.update t.queues.depositOf proposal none } } := by
    refine htaken.mono (fun _ => le_rfl) (fun _ _ => le_rfl) fun a => ?_
    have hsum := count_cons_mul who [] amount a
    rw [List.count_append, Nat.add_mul]
    simp only [List.count_nil, Nat.zero_mul] at hsum
    omega
  have hrecorded := Backed.record (n := proposal) hspare
  refine Backed.congr hrecorded rfl ?_
  simp

theorem maintains_slashDeposits {proposal : Nat} :
    (slashDeposits cfg proposal : QueueCall A X H Unit).Maintains (Backed cfg preimages spare) := by
  refine .get_bind fun s h => ?_
  rcases hstored : s.queues.depositOf proposal with _ | ⟨whos, amount⟩
  · exact h
  · exact forEach_backed (fun who _ _ hs => slashDeposit_backed who amount hs)
      (Backed.forget h hstored)

theorem maintains_launchPublic :
    (launchPublic cfg now : QueueCall A X H Unit).Maintains (Backed cfg preimages spare) := by
  refine .get_bind fun s h => ?_
  simp only [modifyQueues, Call.outcome_bind, Call.outcome_ofOption, Call.outcome_modify]
  refine ⟨fun winner _ => ?_, fun _ => h⟩
  obtain ⟨⟨proposal, id, proposer⟩, winnerIndex⟩ := winner
  simp only
  rcases hstored : s.queues.depositOf proposal with _ | ⟨depositors, deposit⟩
  · exact Backed.congr h rfl rfl
  · have hspare := Backed.forget h hstored
    simp only [Call.outcome_bind, Call.outcome_modify]
    refine Call.Outcome.imp (P := fun _ => Backed cfg preimages spare)
      (Q := fun _ => Backed cfg preimages spare) ?_
      (fun _ t ht => Backed.congr ht rfl rfl) fun _ _ ht => ht
    exact forEach_backed (fun who _ _ hs => releaseDeposit_backed who deposit hs)
      (Backed.congr hspare rfl rfl)

omit [DecidableEq H] in
theorem maintains_launchExternal :
    (launchExternal cfg now : QueueCall A X H Unit).Maintains (Backed cfg preimages spare) := by
  refine .bind .get fun s => ?_
  refine .bind (.ofOption _ _) fun waiting => ?_
  obtain ⟨id, threshold⟩ := waiting
  exact .bind (maintains_modifyQueues fun _ => rfl) fun _ => maintains_inject

theorem maintains_launchWaiting :
    (launchWaiting cfg now : QueueCall A X H Unit).Maintains (Backed cfg preimages spare) := by
  refine .bind .get fun s => ?_
  refine .bind (maintains_modifyQueues fun _ => rfl) fun _ => ?_
  split
  · exact .orElse maintains_launchPublic maintains_launchExternal
  · exact .orElse maintains_launchExternal maintains_launchPublic

theorem maintains_removeQueued {id : ProposalId X H} :
    (removeQueued cfg id).Maintains (Backed cfg preimages spare) := by
  refine .get_bind fun s h => ?_
  generalize List.find? _ s.queues.publicProps = found
  rcases found with _ | ⟨proposal, id', proposer⟩
  · exact h
  · refine Call.Maintains.bind maintains_slashDeposits (fun _ => ?_) s h
    exact maintains_modifyQueues fun _ => rfl

theorem maintains_removeReferendum {id : ProposalId X H} {refIndex : Option Nat} :
    (removeReferendum id refIndex : QueueCall A X H Unit).Maintains (Backed cfg preimages spare) := by
  refine .get_bind fun s h => ?_
  cases refIndex with
  | none => exact h
  | some refIndex =>
      simp only
      rcases s.pallet.referendumInfoOf refIndex with _ | ⟨status⟩ | ⟨approved, end_⟩
      · exact h
      · refine Call.Maintains.when (c := status.proposalId = id) (.modify fun t ht => ?_) s h
        exact Backed.congr ht rfl rfl
      · exact h

/-- **A call on the queues** keeps every deposit backed, whether it returns or fails. -/
theorem maintains_queueBody (e : QueueExtrinsic A X H) :
    (queueBody cfg now e).Maintains (Backed cfg preimages spare) := by
  cases e with
  | propose origin id value => exact maintains_propose
  | second origin proposal secondsUpperBound => exact maintains_second
  | externalPropose origin id =>
      refine .bind (.ensure _ _) fun _ => .bind .get fun s => .bind (.ensure _ _) fun _ => ?_
      exact .bind maintains_ensureNotBlacklisted fun _ => maintains_modifyQueues fun _ => rfl
  | externalProposeMajority origin id =>
      exact .bind (.ensure _ _) fun _ => maintains_modifyQueues fun _ => rfl
  | externalProposeDefault origin id =>
      exact .bind (.ensure _ _) fun _ => maintains_modifyQueues fun _ => rfl
  | fastTrack origin id votingPeriod delay =>
      refine .bind (.when (.bind (.ensure _ _) fun _ => .ensure _ _)) fun _ => .bind .get fun s => ?_
      refine .bind (.ofOption _ _) fun waiting => ?_
      obtain ⟨id', threshold⟩ := waiting
      refine .bind (.ensure _ _) fun _ => .bind (.ensure _ _) fun _ => ?_
      exact .bind (maintains_modifyQueues fun _ => rfl) fun _ => maintains_inject
  | vetoExternal origin id =>
      refine .bind (.ofOption _ _) fun who => .bind .get fun s =>
        .bind (.ofOption _ _) fun waiting => ?_
      obtain ⟨id', threshold⟩ := waiting
      refine .bind (.ensure _ _) fun _ => ?_
      simp only
      split
      · exact .fail _
      · exact maintains_modifyQueues fun _ => rfl
  | blacklist origin id refIndex =>
      refine .transactional fun s h => ?_
      refine Call.Outcome.imp (P := fun _ => Backed cfg preimages spare)
        (Q := fun _ => Backed cfg preimages spare) ?_
        (fun _ _ ht => ht) fun _ _ _ => trivial
      refine Call.Maintains.bind (.ensure _ _) (fun _ => ?_) s h
      refine .bind (maintains_modifyQueues fun _ => rfl) fun _ =>
        .bind maintains_removeQueued fun _ => ?_
      refine .bind ?_ fun _ => maintains_removeReferendum
      exact .bind .get fun s => .when (maintains_modifyQueues fun _ => rfl)
  | cancelProposal origin propIndex =>
      exact .bind (.ensure _ _) fun _ => .bind (maintains_modifyQueues fun _ => rfl) fun _ =>
        maintains_slashDeposits

/-! ## Steps -/

variable {pcfg : PreimageConfig A X H P} {c c' : ArchiveChain A X H} {id : ProposalId X H}
variable {data : List UInt8} {provider : A} {deposit since : Nat} {expiry : Option Nat}

omit [DecidableEq H] in
/-- Votes and referenda leave the balances alone. -/
theorem Turn.ledger {cfg : Config A X} {s s' : State A X H} {e : Extrinsic A X H}
    (h : Turn cfg now s e s') : s'.ledger = s.ledger := by
  cases h with
  | delegated hne hfunds hleaves => exact hleaves.untouched.1
  | delegateRefused hne hfunds hleaves => exact hleaves.untouched.1
  | _ => rfl

/-- So does the rest of the pallet, but for what happens elsewhere. -/
theorem step_ledger {cfg : Config A X} {c d : Chain A X H} {op : Op A X H}
    (hop : ∀ ledger, op ≠ .elsewhere ledger)
    (hstep : step cfg c op = some d) : d.pallet.ledger = c.pallet.ledger := by
  cases step_advances hstep with
  | call hturn => exact hturn.ledger
  | elsewhere => exact absurd rfl (hop _)
  | _ => rfl

/-- What other pallets hold of the native currency, beside the chain. -/
abbrev DepositChain (A X H : Type) [DecidableEq A] [DecidableEq X] : Type :=
  ArchiveChain A X H × (A → Nat)

/-- `elsewhere` is what other pallets do to the ledger, and what they hold after it. -/
inductive DepositOp (A X H : Type) where
  | pallet (op : ArchiveOp A X H)
  | elsewhere (ledger : Ledger A X) (held : A → Nat)

/-- The operation is one of the pallet. -/
def ArchiveOp.isPallet : ArchiveOp A X H → Bool
  | .queue (.rest (.elsewhere _)) => false
  | _ => true

def depositStep (cfg : PreimageConfig A X H P) (c : DepositChain A X H) :
    DepositOp A X H → Option (DepositChain A X H)
  | .pallet op => if op.isPallet then (archiveStep cfg c.1 op).map fun d => (d, c.2) else none
  | .elsewhere ledger held =>
      (archiveStep cfg c.1 (.queue (.rest (.elsewhere ledger)))).map fun d => (d, held)

def ArchiveChain.ledger (c : ArchiveChain A X H) : Ledger A X := c.board.chain.pallet.ledger

/-- Other pallets hold and release for themselves: the reserved balance of an account changes by
    what they hold of it more or less. -/
def HoldsApart (cfg : PreimageConfig A X H P) (c : DepositChain A X H) : DepositOp A X H → Prop
  | .pallet _ => True
  | .elsewhere ledger held => ∀ a,
      ledger.reserved cfg.native a + c.2 a = c.1.ledger.reserved cfg.native a + held a

/-- The deposits of the pallet are backed beside what others hold. -/
def DepositsBacked (cfg : PreimageConfig A X H P) (c : DepositChain A X H) : Prop :=
  Backed cfg.toQueueConfig c.1.preimages c.2 c.1.board.board

/-- The rest of the pallet keeps every deposit backed. -/
theorem queueStep_backed {c c' : QueueChain A X H} {op : QueueOp A X H}
    (h : Backed cfg preimages spare c.board)
    (hop : ∀ ledger, op ≠ .rest (.elsewhere ledger)) (hstep : queueStep cfg c op = some c') :
    Backed cfg preimages spare c'.board := by
  cases op with
  | call e =>
      simp only [queueStep] at hstep
      split at hstep
      · obtain rfl := Option.some.inj hstep
        exact (maintains_queueBody e).dispatch h
      · cases hstep
  | begin =>
      simp only [queueStep] at hstep
      split at hstep
      · simp only [beginQueues] at hstep
        split at hstep
        · cases hstep
        · obtain rfl := Option.some.inj hstep
          split
          · exact maintains_launchWaiting.dispatch h
          · exact h
      · cases hstep
  | rest op =>
      simp only [queueStep] at hstep
      split at hstep
      · obtain ⟨chain, hchain, rfl⟩ := Option.map_eq_some_iff.mp hstep
        have hledger := step_ledger (fun ledger hop' => hop ledger (congrArg _ hop')) hchain
        exact Backed.congr h hledger rfl
      · cases hstep

/-- A preimage that is removed leaves its deposit spare. -/
theorem Backed.forgetPreimage (h : Backed cfg preimages spare s)
    (hstored : preimages id = some (.available data provider deposit since expiry)) :
    Backed cfg (Function.update preimages id none)
      (fun a => spare a + only provider deposit a) s := by
  show Covers _ (owed _ _) _
  rw [owed_putPreimage]
  apply Covers.take h
  intro a
  simp [owed, hstored]

/-- What is spare is recorded for a preimage. -/
theorem Backed.recordPreimage
    (h : Backed cfg preimages (fun a => spare a + only provider deposit a) s) :
    Backed cfg (Function.update preimages id (some (.available data provider deposit since expiry)))
      spare s := by
  show Covers _ (owed _ _) _
  rw [owed_putPreimage]
  exact Covers.record h

/-- Nothing is owed for what is not available. -/
theorem Backed.dropPreimage (h : Backed cfg preimages spare s) :
    Backed cfg (Function.update preimages id none) spare s := by
  show Covers _ (owed _ _) _
  rw [owed_putPreimage]
  exact Covers.record h

omit [DecidableEq H] in
/-- A deposit that is spare leaves the reserve. -/
theorem Backed.unlock (h : Backed cfg preimages (fun a => spare a + only provider deposit a) s)
    (hledger : t.pallet.ledger.reserved cfg.native =
      (s.pallet.ledger.unlock cfg.native provider deposit).reserved cfg.native)
    (hqueues : t.queues = s.queues) : Backed cfg preimages spare t := by
  show Covers _ (owed t.queues _) _
  rw [hledger, hqueues]
  refine (Covers.release provider deposit h).mono (fun a => ?_) (fun _ _ => le_rfl) fun _ => le_rfl
  simp [only]

/-- **A call on preimages** keeps every deposit backed. -/
theorem PreimageTurn.backed {s s' : EnactState A X H} {e : PreimageExtrinsic A X H}
    (h : Backed pcfg.toQueueConfig s.preimages spare s.board) (hturn : PreimageTurn pcfg now s e s') :
    Backed pcfg.toQueueConfig s'.preimages spare s'.board := by
  have hless : ∀ {preimages : ProposalId X H → Option (PreimageStatus A)} {v : A → Nat},
      Backed pcfg.toQueueConfig preimages (fun a => spare a + v a) s.board →
        Backed pcfg.toQueueConfig preimages spare s.board := by
    intro preimages v hv
    exact hv.mono (fun _ => le_rfl) (fun _ _ => le_rfl) fun _ => Nat.le_add_right _ _
  cases hturn with
  | same => exact h
  | noted who data asset hnew hheld =>
      show Backed _ (Function.update s.preimages _ _) _ _
      apply Backed.recordPreimage
      refine (Covers.hold h who (pcfg.depositFor data)).mono (fun a => ?_) (fun _ _ => le_rfl)
        fun _ => le_rfl
      show _ ≤ (s.board.pallet.ledger.lock pcfg.native who _).reserved pcfg.native a
      simp [only]
  | notedImminent who data asset expiry hmissing =>
      show Backed _ (Function.update s.preimages _ _) _ _
      apply Backed.recordPreimage
      refine h.mono (fun _ => le_rfl) (fun _ _ => le_rfl) fun a => ?_
      simp [only]
  | reaped who hstored hdue hexpired =>
      have hspare := Backed.forgetPreimage h hstored
      unfold collectDeposit
      split
      · exact hless hspare
      · exact Backed.unlock hspare rfl rfl
  | enacted htaken =>
      cases htaken with
      | nothing hnone => exact Backed.dropPreimage h
      | refunded hstored => exact Backed.unlock (Backed.forgetPreimage h hstored) rfl rfl
      | slashed hstored => exact Backed.unlock (Backed.forgetPreimage h hstored) rfl rfl
      | unreleased hstored => exact hless (Backed.forgetPreimage h hstored)
      | unslashed hstored => exact hless (Backed.forgetPreimage h hstored)

/-- A mark owes nothing. -/
theorem owed_markPreimages (q : Queues A X H) (mark : Option (ProposalId X H × Nat)) :
    owed q (markPreimages mark preimages) = owed q preimages := by
  rcases mark with _ | ⟨id, till⟩
  · rfl
  · show owed q (Function.update preimages id _) = _
    rw [owed_putPreimage]
    apply Function.update_eq_self_iff.mpr
    funext a
    rcases hstored : preimages id with _ | ⟨t⟩ | ⟨data, provider, deposit, since, expiry⟩ <;>
      simp [owed, PreimageStatus.mark, hstored]

/-- **A step** keeps the deposits of the pallet backed beside what others hold. -/
theorem depositStep_backed {c c' : DepositChain A X H} {op : DepositOp A X H}
    (h : DepositsBacked pcfg c)
    (hop : HoldsApart pcfg c op) (hstep : depositStep pcfg c op = some c') :
    DepositsBacked pcfg c' := by
  obtain ⟨c, held⟩ := c
  cases op with
  | pallet op =>
      simp only [depositStep] at hstep
      split at hstep
      next hpallet =>
        obtain ⟨d, hd, rfl⟩ := Option.map_eq_some_iff.mp hstep
        cases archiveStep_archived hd with
        | queue hqueue =>
            rename_i op board
            have hother : ∀ ledger, op ≠ .rest (.elsewhere ledger) := by
              rintro ledger rfl
              cases hpallet
            have hboard := queueStep_backed h hother hqueue
            show Covers _ (owed _ (markPreimages _ _)) _
            rw [owed_markPreimages]
            exact hboard
        | call hturn => exact PreimageTurn.backed (s := c.state) h hturn
        | register => exact h
      next => cases hstep
  | elsewhere ledger held' =>
      simp only [depositStep] at hstep
      obtain ⟨d, hd, rfl⟩ := Option.map_eq_some_iff.mp hstep
      obtain @⟨_, board, hqueue⟩ := archiveStep_archived hd
      simp only [queueStep, Op.isRest, if_true] at hqueue
      obtain ⟨chain, hchain, rfl⟩ := Option.map_eq_some_iff.mp hqueue
      cases hchain
      intro a keys
      have hle : (∑ k ∈ keys, owed c.board.queues c.preimages k a) + held a ≤
        c.ledger.reserved pcfg.native a := h a keys
      have hapart : ledger.reserved pcfg.native a + held a = c.ledger.reserved pcfg.native a +
        held' a := hop a
      show (∑ k ∈ keys, owed c.board.queues c.preimages k a) + held' a ≤ ledger.reserved pcfg.native a
      omega

theorem run_backed {ledger : Ledger A X} {held : A → Nat} {ops : List (DepositOp A X H)}
    {c : DepositChain A X H} (hheld : ∀ a, held a ≤ ledger.reserved pcfg.native a)
    (hops : Along (depositStep pcfg) (HoldsApart pcfg) (ArchiveChain.genesis ledger, held) ops)
    (hrun : run (depositStep pcfg) (ArchiveChain.genesis ledger, held) ops = some c) :
    DepositsBacked pcfg c := by
  have hstart : DepositsBacked pcfg (ArchiveChain.genesis ledger, held) := by
    intro a keys
    have hzero : ∑ k ∈ keys, owed (A := A) Queues.empty (fun _ => none) k a = 0 := by
      apply Finset.sum_eq_zero
      intro k _
      cases k <;> rfl
    show (∑ k ∈ keys, owed Queues.empty (fun _ => none) k a) + held a ≤ ledger.reserved pcfg.native a
    rw [hzero, Nat.zero_add]
    exact hheld a
  have hstep : ∀ {c : DepositChain A X H} {op c'}, DepositsBacked pcfg c → HoldsApart pcfg c op →
      depositStep pcfg c op = some c' → DepositsBacked pcfg c' := depositStep_backed
  exact run_invariant hstep hstart hops hrun

/-- **Every deposit is backed.** After every run from a chain in which others hold no more than
    is reserved, and in which they hold and release for themselves: all that the pallet holds
    for an account, for any proposals and any preimages together, is in its reserved balance
    beside what others hold. -/
theorem deposits_backed {ledger : Ledger A X} {held : A → Nat} {ops : List (DepositOp A X H)}
    {c : DepositChain A X H} (hheld : ∀ a, held a ≤ ledger.reserved pcfg.native a)
    (hops : Along (depositStep pcfg) (HoldsApart pcfg) (ArchiveChain.genesis ledger, held) ops)
    (hrun : run (depositStep pcfg) (ArchiveChain.genesis ledger, held) ops = some c) (a : A)
    (keys : Finset (Nat ⊕ ProposalId X H)) :
    (∑ k ∈ keys, owed c.1.board.queues c.1.preimages k a) + c.2 a ≤
      c.1.ledger.reserved pcfg.native a :=
  run_backed hheld hops hrun a keys

/-! ## What becomes of a deposit -/

/-- It is reaped when it is due, and its deposit collected. -/
def Reaped (cfg : PreimageConfig A X H P) (id : ProposalId X H) (provider : A) (deposit since : Nat)
    (expiry : Option Nat) (c c' : ArchiveChain A X H) (op : ArchiveOp A X H) : Prop :=
  ∃ who bound, op = .call (.reapPreimage (.signed who) id bound) ∧
    (since + cfg.votingPeriod + if who = provider then 0 else cfg.enactmentPeriod) %
      cfg.blockNumbers ≤ c.now ∧
    (∀ e ∈ expiry, e < c.now) ∧
    c'.ledger = if (cfg.collectRefused c.ledger provider who deposit).isSome = true then c.ledger
      else (c.ledger.unlock cfg.native provider deposit).move cfg.native provider who deposit

/-- It is enacted, and its deposit released, or given to the treasury if it does not decode,
    unless that is refused. -/
def Enacted (cfg : PreimageConfig A X H P) (id : ProposalId X H) (data : List UInt8) (provider : A)
    (deposit : Nat) (c c' : ArchiveChain A X H) (op : ArchiveOp A X H) : Prop :=
  op = .call (.enactProposal .root id) ∧
    ((cfg.decode data).isSome = true ∧ c'.ledger =
        (if (cfg.releaseRefused c.ledger provider deposit).isSome = true then c.ledger
          else c.ledger.unlock cfg.native provider deposit) ∨
      cfg.decode data = none ∧ c'.ledger =
        if (cfg.transferHeldRefused c.ledger provider deposit).isSome = true then c.ledger
        else (c.ledger.unlock cfg.native provider deposit).move cfg.native provider
          cfg.treasury deposit)

omit [DecidableEq H] in
/-- A deposit that is all there is collected, unless that is refused. -/
theorem collectDeposit_ledger {s : EnactState A X H} {who : A}
    (hheld : deposit ≤ s.ledger.reserved pcfg.native provider) :
    (collectDeposit pcfg provider who deposit s).ledger =
      if (pcfg.collectRefused s.ledger provider who deposit).isSome = true then s.ledger
      else (s.ledger.unlock pcfg.native provider deposit).move pcfg.native provider who deposit := by
  unfold collectDeposit
  simp only [Nat.not_lt.mpr hheld, false_or]
  split <;> rfl

/-- A call that makes an available preimage disappear has reaped or enacted it. -/
theorem gone_of_turn {c : ArchiveChain A X H} {e : PreimageExtrinsic A X H} {s : EnactState A X H}
    (hdeposit : deposit ≤ c.ledger.reserved pcfg.native provider)
    (hstored : c.preimages id = some (.available data provider deposit since expiry))
    (hturn : PreimageTurn pcfg c.now c.state e s) (hgone : s.preimages id = none) :
    Reaped pcfg id provider deposit since expiry c (c.put s) (.call e) ∨
      Enacted pcfg id data provider deposit c (c.put s) (.call e) := by
  have hstays : s.preimages id ≠ c.state.preimages id := by
    intro hsame
    have hkept : c.preimages id = none := hsame.symm.trans hgone
    rw [hstored] at hkept
    cases hkept
  cases hturn with
  | same => exact absurd rfl hstays
  | noted who data' asset hnew =>
      by_cases hid : id = ⟨pcfg.hash data', asset⟩
      · subst hid
        rw [putPreimage_self] at hgone
        cases hgone
      · exact absurd (putPreimage_ne hid) hstays
  | notedImminent who data' asset till hmissing =>
      by_cases hid : id = ⟨pcfg.hash data', asset⟩
      · subst hid
        rw [putPreimage_self] at hgone
        cases hgone
      · exact absurd (putPreimage_ne hid) hstays
  | reaped who hreaped hdue hexpired =>
      rename_i id' bound data' provider' deposit' since' expiry'
      by_cases hid : id = id'
      · subst hid
        have hsame : c.state.preimages id = some (.available data provider deposit since expiry) :=
          hstored
        rw [hsame] at hreaped
        cases hreaped
        refine .inl ⟨who, bound, rfl, hdue, hexpired, ?_⟩
        exact collectDeposit_ledger hdeposit
      · refine absurd ?_ hstays
        rw [putPreimage_ne hid, collectDeposit_preimages]
  | enacted htaken =>
      rename_i id'
      by_cases hid : id = id'
      · subst hid
        refine .inr ⟨rfl, ?_⟩
        have hsame : c.state.preimages id = some (.available data provider deposit since expiry) :=
          hstored
        cases htaken with
        | nothing hnone =>
            rw [hsame] at hnone
            cases hnone
        | refunded htook hdecode hreleased =>
            rw [hsame] at htook
            cases htook
            refine .inl ⟨hdecode, (if_neg ?_).symm⟩
            exact Option.not_isSome_iff_eq_none.mpr hreleased
        | slashed htook hdecode htransferred =>
            rw [hsame] at htook
            cases htook
            refine .inr ⟨hdecode,
              Eq.trans ?_ (if_neg (Option.not_isSome_iff_eq_none.mpr htransferred)).symm⟩
            have hall : min deposit (c.ledger.reserved pcfg.native provider) = deposit :=
              Nat.min_eq_left hdeposit
            show (c.ledger.unlock pcfg.native provider deposit).move pcfg.native provider
              pcfg.treasury
              (min deposit (c.ledger.reserved pcfg.native provider)) = _
            rw [hall]
        | unreleased htook hdecode hrefused =>
            rw [hsame] at htook
            cases htook
            exact .inl ⟨hdecode, (if_pos hrefused).symm⟩
        | unslashed htook hdecode hrefused =>
            rw [hsame] at htook
            cases htook
            exact .inr ⟨hdecode, (if_pos hrefused).symm⟩
      · refine absurd ?_ hstays
        rw [htaken.preimages, Function.update_of_ne hid]

/-- **What becomes of a deposit.** In every state of such a run the deposit of a preimage is all
    there, and the preimage only disappears by being reaped when it is due or by being enacted; the
    whole deposit then goes to who reaps it, back to who provided it, or to the treasury, unless
    the currency refuses that. -/
theorem preimage_settled {ledger : Ledger A X} {held : A → Nat} {ops : List (DepositOp A X H)}
    {c : DepositChain A X H}
    {c' : ArchiveChain A X H} {op : ArchiveOp A X H}
    (hheld : ∀ a, held a ≤ ledger.reserved pcfg.native a)
    (hops : Along (depositStep pcfg) (HoldsApart pcfg) (ArchiveChain.genesis ledger, held) ops)
    (hrun : run (depositStep pcfg) (ArchiveChain.genesis ledger, held) ops = some c)
    (hstored : c.1.preimages id = some (.available data provider deposit since expiry))
    (hstep : archiveStep pcfg c.1 op = some c') (hgone : c'.preimages id = none) :
    deposit ≤ c.1.ledger.reserved pcfg.native provider ∧
      (Reaped pcfg id provider deposit since expiry c.1 c' op ∨
        Enacted pcfg id data provider deposit c.1 c' op) := by
  have hdeposit : deposit ≤ c.1.ledger.reserved pcfg.native provider := by
    have howed := Covers.owed_le (run_backed hheld hops hrun) (.inr id) provider
    have hone : owed c.1.board.queues c.1.preimages (.inr id) provider = deposit := by
      simp [owed, hstored, only]
    have hle : deposit + c.2 provider ≤ c.1.ledger.reserved pcfg.native provider := hone ▸ howed
    omega
  refine ⟨hdeposit, ?_⟩
  -- The step changed the status, so a queue operation that keeps or marks it is excluded.
  have hstays : c'.preimages id ≠ c.1.preimages id := by
    rw [hgone, hstored]
    intro h
    cases h
  cases archiveStep_archived hstep with
  | queue hqueue =>
      rename_i op board
      rcases markPreimages_cases (markedBy pcfg c.1.board.chain op) c.1.preimages id with
        hsame | ⟨t, -, hmarked⟩
      · exact absurd hsame hstays
      · have hnone : markPreimages (markedBy pcfg c.1.board.chain op) c.1.preimages id = none := hgone
        rw [hmarked] at hnone
        cases hnone
  | call hturn => exact gone_of_turn hdeposit hstored hturn hgone
  | register => exact absurd rfl hstays

/-! ## A small chain -/

/-- Account `1` notes a preimage, and proposes. -/
def depositOps : List (DepositOp Nat Nat Nat) :=
  [.pallet (.call (.notePreimage (.signed 1) [3] 1)),
    .pallet (.queue (.call (.propose (.signed 1) ⟨7, 1⟩ 5)))]

theorem depositOps_apart (c : DepositChain Nat Nat Nat) :
    Along (depositStep preimageSample) (HoldsApart preimageSample) c depositOps :=
  ⟨trivial, fun _ _ => ⟨trivial, fun _ _ => trivial⟩⟩

theorem deposits_backed_sample : ∃ c, run (depositStep preimageSample)
    (ArchiveChain.genesis sampleGenesis.pallet.ledger, fun _ => 0) depositOps = some c ∧
      (∑ k ∈ {.inl 0, .inr ⟨3, 1⟩}, owed c.1.board.queues c.1.preimages k 1) + c.2 1 ≤
        c.1.ledger.reserved 0 1 := by
  have hc : (run (depositStep preimageSample)
      (ArchiveChain.genesis sampleGenesis.pallet.ledger, fun _ => 0) depositOps).isSome = true := by
    decide +kernel
  obtain ⟨c, hc⟩ := Option.isSome_iff_exists.mp hc
  exact ⟨c, hc, deposits_backed (fun _ => Nat.zero_le _) (depositOps_apart _) hc 1 _⟩

/-- Without an origin nothing is dispatched, and the deposit is released. -/
theorem preimage_settled_sample : ∃ c c', run (depositStep preimageSample)
    (ArchiveChain.genesis sampleGenesis.pallet.ledger, fun _ => 0) depositOps = some c ∧
      archiveStep preimageSample c.1 (.call (.enactProposal .root ⟨3, 1⟩)) = some c' ∧
        10 ≤ c.1.ledger.reserved 0 1 := by
  have hc : ∃ c c', run (depositStep preimageSample)
      (ArchiveChain.genesis sampleGenesis.pallet.ledger, fun _ => 0) depositOps = some c ∧
        archiveStep preimageSample c.1 (.call (.enactProposal .root ⟨3, 1⟩)) = some c' ∧
          c.1.preimages ⟨3, 1⟩ = some (.available [3] 1 10 0 none) ∧ c'.preimages ⟨3, 1⟩ = none :=
    ⟨_, _, rfl, rfl, rfl, rfl⟩
  obtain ⟨c, c', hrun, hstep, hstored, hgone⟩ := hc
  exact ⟨c, c', hrun, hstep,
    (preimage_settled (fun _ => Nat.zero_le _) (depositOps_apart _) hrun hstored hstep hgone).1⟩

end Democracy
end Composable
