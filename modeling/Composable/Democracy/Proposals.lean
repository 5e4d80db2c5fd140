import Composable.Democracy.Queues

/-!
# `Democracy.Proposals` — referenda are about what was proposed

A proposal is a hash together with an asset, and a referendum is meant to be about one that was made
before, and has not been vetoed since (`Standing`). What is launched from the queues is.
`fast_track` compares the hash alone and takes the asset from its caller, so what it starts was
proposed as long as the caller names the asset of the waiting proposal (`referenda_proposed`). A
veto is of the external proposal: one of the public with the same hash and asset stays in its queue.

`Effect` says what a step can do to the queues; that all in the queues was
proposed (`Tracked`) follows from it.
-/

namespace Composable
namespace Democracy

variable {A X H : Type} [LinearOrder A] [DecidableEq X]

/-! ## What was proposed -/

inductive Queue where
  | external
  | publicProps
deriving DecidableEq, Repr

inductive Event (X H : Type) where
  | proposed (queue : Queue) (id : ProposalId X H)
  | vetoed (id : ProposalId X H)
  | started (queue : Queue) (id : ProposalId X H)
deriving DecidableEq, Repr

/-- The proposal of the referendum that was injected between the two states. -/
def injected (s s' : State A X H) : Option (ProposalId X H) :=
  if s'.referendumCount = s.referendumCount then none
  else match s'.referendumInfoOf s.referendumCount with
    | some (.ongoing status) => some status.proposalId
    | _ => none

/-- What a call that returns has done. -/
def callEvent (s s' : Board A X H) : QueueExtrinsic A X H → Option (Event X H)
  | .propose _ id _ => some (.proposed .publicProps id)
  | .externalPropose _ id | .externalProposeMajority _ id | .externalProposeDefault _ id =>
      some (.proposed .external id)
  | .vetoExternal _ id => some (.vetoed id)
  | .fastTrack .. => (injected s.pallet s'.pallet).map (.started .external)
  | _ => none

/-- The proposal was made through the queue, and has not been vetoed since. -/
def Standing (queue : Queue) (id : ProposalId X H) (events : List (Event X H)) : Prop :=
  ∃ before after, events = before ++ .proposed queue id :: after ∧ .vetoed id ∉ after

/-- What `fast_track` checks of its call and of the waiting proposal: no more
    of the id than its hash. -/
structure FastTracks (cfg : QueueConfig A X) (origin : RawOrigin A) (id : ProposalId X H)
    (votingPeriod : Nat) (waiting : ProposalId X H × VoteThreshold) : Prop where
  allowed : votingPeriod < cfg.fastTrackVotingPeriod ∨ cfg.fastTrackOrigin origin = false →
    cfg.instantOrigin origin = true ∧ cfg.instantAllowed = true
  majority : waiting.2 ≠ .superMajorityApprove
  hash_eq : id.hash = waiting.1.hash

/-- A `fast_track` that passes its checks names the asset of the waiting proposal, too. -/
def NamesAsset (cfg : QueueConfig A X) (c : QueueChain A X H) : QueueOp A X H → Prop
  | .call (.fastTrack origin id votingPeriod _) => ∀ waiting, c.queues.nextExternal = some waiting →
      FastTracks cfg origin id votingPeriod waiting → id.asset = waiting.1.asset
  | _ => True

/-- A veto is of no proposal that waits among those of the public, too. -/
def VetoesApart (c : QueueChain A X H) : QueueOp A X H → Prop
  | .call (.vetoExternal _ id) => ∀ p ∈ c.queues.publicProps, p.2.1 ≠ id
  | _ => True

/-! ## What a step does to the queues -/

variable {cfg : QueueConfig A X} {q q' : Queues A X H} {s s' : Board A X H}
  {c c' : QueueChain A X H} {now : Nat}
variable {id : ProposalId X H}

/-- Nothing is added to the queues. -/
structure Shrinks (q q' : Queues A X H) : Prop where
  external : q'.nextExternal = q.nextExternal ∨ q'.nextExternal = none
  publicProps : q'.publicProps ⊆ q.publicProps

omit [LinearOrder A] [DecidableEq X] in
theorem Shrinks.refl (q : Queues A X H) : Shrinks q q := ⟨.inl rfl, List.Subset.refl _⟩

omit [LinearOrder A] [DecidableEq X] in
theorem Shrinks.of_some (h : Shrinks q q') {waiting : ProposalId X H × VoteThreshold}
    (hwaiting : q'.nextExternal = some waiting) : q.nextExternal = some waiting := by
  rcases h.external with hsame | hnone
  · exact hsame.symm.trans hwaiting
  · rw [hnone] at hwaiting
    cases hwaiting

omit [LinearOrder A] [DecidableEq X] in
theorem Shrinks.trans {q'' : Queues A X H} (h : Shrinks q q') (h' : Shrinks q' q'') :
    Shrinks q q'' := by
  refine ⟨?_, List.Subset.trans h'.publicProps h.publicProps⟩
  rcases h'.external with hsame | hnone
  · rw [hsame]
    exact h.external
  · exact .inr hnone

/-- What can become of the queues, and the event of it. -/
inductive Effect (q q' : Queues A X H) : Option (Event X H) → Prop
  | kept (hshrinks : Shrinks q q') : Effect q q' none
  | external (id : ProposalId X H) (threshold : VoteThreshold)
      (hnext : q'.nextExternal = some (id, threshold))
      (hprops : q'.publicProps = q.publicProps) : Effect q q' (some (.proposed .external id))
  | publicProps (id : ProposalId X H) (hnext : q'.nextExternal = q.nextExternal)
      (hprops : ∀ p ∈ q'.publicProps, p ∈ q.publicProps ∨ p.2.1 = id) :
          Effect q q' (some (.proposed .publicProps id))
  | vetoed (id : ProposalId X H) (hnext : q'.nextExternal = none)
      (hprops : q'.publicProps = q.publicProps) :
      Effect q q' (some (.vetoed id))
  | startedExternal (waiting : ProposalId X H × VoteThreshold)
      (hwaiting : q.nextExternal = some waiting)
      (hshrinks : Shrinks q q') : Effect q q' (some (.started .external waiting.1))
  | startedPublic (p : Nat × ProposalId X H × A) (hp : p ∈ q.publicProps) (hshrinks : Shrinks q q') :
      Effect q q' (some (.started .publicProps p.2.1))

/-! ### Injecting -/

theorem injected_of_count_eq {s s' : State A X H} (h : s'.referendumCount = s.referendumCount) :
    injected s s' = none := if_pos h

/-- What is injected is found where the counter was. -/
theorem injected_injectReferendum {s t : State A X H} (h : t.referendumCount = s.referendumCount)
    (end_ : Nat) (id : ProposalId X H) (threshold : VoteThreshold) (delay : Nat) :
    injected s (injectReferendum end_ id threshold delay t) = some id := by
  have hcount : (injectReferendum end_ id threshold delay t).referendumCount ≠ s.referendumCount := by
    show (t.referendumCount + 1) % 2 ^ 32 ≠ s.referendumCount
    omega
  have hinfo : (injectReferendum end_ id threshold delay t).referendumInfoOf s.referendumCount =
      some (.ongoing ⟨end_, id, threshold, delay, .zero⟩) := by
    rw [← h]
    exact Function.update_self ..
  rw [injected, if_neg hcount, hinfo]

/-! ### Deposits -/

/-- The queues and the referenda are not touched. -/
structure LedgerOnly (s s' : Board A X H) : Prop where
  queues : s'.queues = s.queues
  count : s'.pallet.referendumCount = s.pallet.referendumCount

theorem onNative_outcome (refused : Ledger A X → Option (DispatchError Empty))
    (effect : Ledger A X → Ledger A X) (s : Board A X H) :
    Call.Outcome (fun _ => LedgerOnly s) (fun _ => LedgerOnly s)
      ((onNative refused effect : QueueCall A X H Unit) s) := by
  rw [onNative, Call.get_bind]
  cases refused s.pallet.ledger with
  | some e => exact ⟨rfl, rfl⟩
  | none => exact ⟨rfl, rfl⟩

theorem holdDeposit_outcome (cfg : QueueConfig A X) (who : A) (amount : Nat) (s : Board A X H) :
    Call.Outcome (fun _ => LedgerOnly s) (fun _ => LedgerOnly s) (holdDeposit cfg who amount s) :=
  onNative_outcome _ _ s

theorem forEach_onNative_outcome {β : Type} (l : List β)
    {refused : β → Ledger A X → Option (DispatchError Empty)}
    {effect : β → Ledger A X → Ledger A X} :
    Call.Outcome (fun _ => LedgerOnly s) (fun _ => LedgerOnly s)
      ((Call.forEach l fun b => onNative (refused b) (effect b) : QueueCall A X H Unit) s) := by
  refine Call.outcome_forEach (fun b _ t ht => ?_) ⟨rfl, rfl⟩
  refine (onNative_outcome (refused b) (effect b) t).imp (fun _ t' ht' => ?_) fun _ t' ht' => ?_
  · exact ⟨ht'.queues.trans ht.queues, ht'.count.trans ht.count⟩
  · exact ⟨ht'.queues.trans ht.queues, ht'.count.trans ht.count⟩

theorem slashDeposits_outcome (cfg : QueueConfig A X) (propIndex : Nat) :
    Call.Outcome
      (fun _ t => t.queues.nextExternal = s.queues.nextExternal ∧
        t.queues.publicProps = s.queues.publicProps)
      (fun _ t => t.queues.nextExternal = s.queues.nextExternal ∧
        t.queues.publicProps = s.queues.publicProps)
      (slashDeposits cfg propIndex s) := by
  rw [slashDeposits, Call.get_bind]
  rcases s.queues.depositOf propIndex with _ | ⟨whos, amount⟩
  · exact ⟨rfl, rfl⟩
  · simp only [modifyQueues, Call.outcome_bind, Call.outcome_modify]
    refine (forEach_onNative_outcome (A := A) (X := X) (H := H) whos).imp (fun _ t ht => ?_)
      fun _ t ht => ?_
    · rw [ht.queues]
      exact ⟨rfl, rfl⟩
    · rw [ht.queues]
      exact ⟨rfl, rfl⟩

/-! ### Launching -/

section Lists

variable {α : Type} {key : α → Nat} {l : List α} {a : α} {i : Nat}

/-- A fold that keeps what it has or takes what it sees ends with something that it saw. -/
theorem mem_of_foldl {β : Type} {f : Option β → β → Option β}
    (hf : ∀ best b c, f best b = some c → c = b ∨ best = some c) {es : List β}
    {best : Option β} {c : β} (h : es.foldl f best = some c) : best = some c ∨ c ∈ es := by
  induction es generalizing best with
  | nil => exact .inl h
  | cons b es ih =>
      rcases ih h with hbest | hmem
      · rcases hf best b c hbest with rfl | hbest
        · exact .inr List.mem_cons_self
        · exact .inl hbest
      · exact .inr (List.mem_cons_of_mem b hmem)

/-- The winner is in the queue. -/
theorem mem_of_maxByKey (h : maxByKey key l = some (a, i)) : a ∈ l := by
  have hmem : none = some (a, i) ∨ (a, i) ∈ l.zipIdx := by
    refine mem_of_foldl ?_ h
    intro best b c hc
    cases best with
    | none => exact .inl (Option.some.inj hc).symm
    | some best =>
        simp only at hc
        split at hc
        · exact .inl (Option.some.inj hc).symm
        · exact .inr hc
  rcases hmem with hnone | hmem
  · cases hnone
  · exact List.fst_mem_of_mem_zipIdx hmem

theorem swapRemove_subset : swapRemove l i ⊆ l := by
  unfold swapRemove
  cases hlast : l.getLast? with
  | none => exact List.Subset.refl l
  | some last =>
      intro b hb
      have hset : b ∈ l.set i last := List.dropLast_subset _ hb
      rcases List.mem_or_eq_of_mem_set hset with hb | rfl
      · exact hb
      · exact List.mem_of_getLast? hlast

end Lists

/-- What `launch_external` does. -/
theorem launchExternal_outcome (cfg : QueueConfig A X) (now : Nat) :
    Call.Outcome (fun _ t => ∃ waiting, s.queues.nextExternal = some waiting ∧
        t.queues = { s.queues with nextExternal := none, lastTabledWasExternal := true } ∧
        ∀ s₀ : State A X H, s.pallet.referendumCount = s₀.referendumCount →
          injected s₀ t.pallet = some waiting.1)
      (fun _ t => t = s) (launchExternal cfg now s) := by
  rw [launchExternal, Call.get_bind]
  simp only [modifyQueues, Call.outcome_bind, Call.outcome_ofOption, Call.outcome_modify]
  refine ⟨fun waiting hwaiting => ⟨waiting, hwaiting, trivial, fun s₀ hcount => ?_⟩, fun _ => trivial⟩
  exact injected_injectReferendum hcount _ _ _ _

/-- What `launch_public` does. If a refund is refused the proposal is gone. -/
theorem launchPublic_outcome (cfg : QueueConfig A X) (now : Nat) :
    Call.Outcome (fun _ t => Shrinks s.queues t.queues ∧
        t.queues.lastTabledWasExternal = s.queues.lastTabledWasExternal ∧
        ∀ s₀ : State A X H, s.pallet.referendumCount = s₀.referendumCount →
          injected s₀ t.pallet = none ∨ ∃ p ∈ s.queues.publicProps, injected s₀ t.pallet = some p.2.1)
      (fun _ t => Shrinks s.queues t.queues ∧
        t.queues.lastTabledWasExternal = s.queues.lastTabledWasExternal ∧
        t.pallet.referendumCount = s.pallet.referendumCount) (launchPublic cfg now s) := by
  rw [launchPublic, Call.get_bind]
  simp only [modifyQueues, Call.outcome_bind, Call.outcome_ofOption, Call.outcome_modify]
  refine ⟨fun winner hwinner => ?_, fun _ => ⟨.refl _, trivial, trivial⟩⟩
  obtain ⟨⟨propIndex, proposal, proposer⟩, winnerIndex⟩ := winner
  have hp : (propIndex, proposal, proposer) ∈ s.queues.publicProps := mem_of_maxByKey hwinner
  have hsubset : swapRemove s.queues.publicProps winnerIndex ⊆ s.queues.publicProps :=
    swapRemove_subset
  simp only
  rcases s.queues.depositOf propIndex with _ | ⟨depositors, deposit⟩
  · exact ⟨⟨.inl rfl, hsubset⟩, rfl, fun s₀ hcount => .inl (injected_of_count_eq hcount)⟩
  · simp only [Call.outcome_bind, Call.outcome_modify]
    refine (forEach_onNative_outcome (A := A) (X := X) (H := H) depositors).imp
      (fun _ t hrefunded => ?_)
      fun _ t hrefunded => ?_
    · refine ⟨?_, ?_, fun s₀ hcount => .inr ⟨_, hp, ?_⟩⟩
      · rw [hrefunded.queues]
        exact ⟨.inl rfl, hsubset⟩
      · rw [hrefunded.queues]
      · exact injected_injectReferendum (hrefunded.count.trans hcount) _ _ _ _
    · refine ⟨?_, ?_, hrefunded.count⟩
      · rw [hrefunded.queues]
        exact ⟨.inl rfl, hsubset⟩
      · rw [hrefunded.queues]

/-- The queue that `LastTabledWasExternal` names. -/
def Queues.lastTabled (q : Queues A X H) : Queue :=
  if q.lastTabledWasExternal then .external else .publicProps

/-- What is launched comes from the queue that `LastTabledWasExternal` names after it. -/
def Launched (s s' : Board A X H) : Prop :=
  Effect s.queues s'.queues ((injected s.pallet s'.pallet).map (.started s'.queues.lastTabled))

theorem launched_self : Launched s s := by
  rw [Launched, injected_of_count_eq rfl]
  exact .kept (.refl _)

/-- The first launch has failed, or none was tried yet. -/
structure Unlaunched (s t : Board A X H) : Prop where
  shrinks : Shrinks s.queues t.queues
  last : t.queues.lastTabledWasExternal = false
  count : t.pallet.referendumCount = s.pallet.referendumCount

theorem Unlaunched.launched {t : Board A X H} (h : Unlaunched s t) : Launched s t := by
  rw [Launched, injected_of_count_eq h.count]
  exact .kept h.shrinks

theorem Unlaunched.external {t : Board A X H} (h : Unlaunched s t) (cfg : QueueConfig A X)
    (now : Nat) :
    Call.Outcome (fun _ => Launched s) (fun _ => Unlaunched s) (launchExternal cfg now t) := by
  refine (launchExternal_outcome (s := t) cfg now).imp (fun _ s' hs' => ?_) fun _ s' hs' => hs' ▸ h
  obtain ⟨waiting, hwaiting, hqueues, hinjected⟩ := hs'
  rw [Launched, hinjected s.pallet h.count, hqueues]
  exact .startedExternal waiting (h.shrinks.of_some hwaiting) ⟨.inr rfl, h.shrinks.publicProps⟩

theorem Unlaunched.publicProps {t : Board A X H} (h : Unlaunched s t) (cfg : QueueConfig A X)
    (now : Nat) :
    Call.Outcome (fun _ => Launched s) (fun _ => Unlaunched s) (launchPublic cfg now t) := by
  refine (launchPublic_outcome (s := t) cfg now).imp (fun _ s' hs' => ?_) fun _ s' hs' => ?_
  · obtain ⟨hshrinks, hlast, hinjected⟩ := hs'
    have hqueue : s'.queues.lastTabled = .publicProps := by
      rw [Queues.lastTabled, hlast, h.last]
      rfl
    have hboth := h.shrinks.trans hshrinks
    rw [Launched, hqueue]
    rcases hinjected s.pallet h.count with hnone | ⟨p, hp, hsome⟩
    · rw [hnone]
      exact .kept hboth
    · rw [hsome]
      exact .startedPublic p (h.shrinks.publicProps hp) hboth
  · obtain ⟨hshrinks, hlast, hcount⟩ := hs'
    exact ⟨h.shrinks.trans hshrinks, hlast.trans h.last, hcount.trans h.count⟩

/-- **Launching** from one queue or from the other. -/
theorem launchWaiting_outcome (cfg : QueueConfig A X) (now : Nat) (s : Board A X H) :
    Call.Outcome (fun _ => Launched s) (fun _ => Launched s) (launchWaiting cfg now s) := by
  have hstart : Unlaunched s { s with queues := { s.queues with lastTabledWasExternal := false } } :=
    ⟨⟨.inl rfl, List.Subset.refl _⟩, rfl, rfl⟩
  have hsecond : ∀ {x : QueueCall A X H Unit} {t},
      Call.Outcome (fun _ => Launched s) (fun _ => Unlaunched s) (x t) →
      Call.Outcome (fun _ => Launched s) (fun _ => Launched s) (x t) := by
    intro x t h
    exact h.imp (fun _ _ hs' => hs') fun _ _ hs' => hs'.launched
  rw [launchWaiting, Call.get_bind]
  simp only [modifyQueues, Call.outcome_bind, Call.outcome_modify]
  split
  · exact Call.outcome_orElse (hstart.publicProps cfg now) (fun t ht => ht.launched) fun t ht =>
      hsecond (ht.external cfg now)
  · exact Call.outcome_orElse (hstart.external cfg now) (fun t ht => ht.launched) fun t ht =>
      hsecond (ht.publicProps cfg now)

/-! ### Calls -/

variable [DecidableEq H]

omit [DecidableEq H] in
theorem ensureNotBlacklisted_outcome {P : Unit → Board A X H → Prop}
    {Q : DispatchError QueueError → Board A X H → Prop} (hP : P () s) (hQ : ∀ e, Q e s) :
    Call.Outcome P Q (ensureNotBlacklisted now id s) := by
  rw [ensureNotBlacklisted, Call.get_bind]
  rcases s.queues.blacklist id with _ | ⟨till, vetoers⟩
  · exact hP
  · rw [Call.outcome_ensure]
    exact ⟨fun _ => hP, fun _ => hQ _⟩

omit [DecidableEq H] in
theorem propose_outcome (cfg : QueueConfig A X) (origin : RawOrigin A) (value : Nat) :
    Call.Outcome (fun _ t => Effect s.queues t.queues (some (.proposed .publicProps id)))
      (fun _ t => Shrinks s.queues t.queues) (propose cfg now origin id value s) := by
  rw [propose]
  simp only [Call.outcome_bind, ensureSigned_outcome, Call.outcome_ensure, Call.get_bind]
  refine ⟨fun who _ => ⟨fun _ => ⟨fun _ => ?_, fun _ => .refl _⟩, fun _ => .refl _⟩, fun _ => .refl _⟩
  refine ensureNotBlacklisted_outcome ?_ fun _ => .refl _
  refine (holdDeposit_outcome cfg who value s).imp (fun _ t hheld => ?_) fun _ t hheld => ?_
  · simp only [modifyQueues, Call.outcome_modify, hheld.queues]
    refine .publicProps id rfl fun p hp => ?_
    rcases List.mem_append.mp hp with hp | hp
    · exact .inl hp
    · rw [List.mem_singleton.mp hp]
      exact .inr rfl
  · rw [hheld.queues]
    exact .refl _

omit [DecidableEq H] in
theorem second_outcome (cfg : QueueConfig A X) (origin : RawOrigin A)
    (proposal secondsUpperBound : Nat) :
    Call.Outcome (fun _ t => Shrinks s.queues t.queues) (fun _ t => Shrinks s.queues t.queues)
      (second cfg origin proposal secondsUpperBound s) := by
  rw [second]
  simp only [Call.outcome_bind, ensureSigned_outcome, Call.outcome_ofOption, Call.outcome_ensure,
    Call.get_bind]
  refine ⟨fun who _ => ⟨fun deposit _ => ⟨fun _ => ?_, fun _ => .refl _⟩, fun _ => .refl _⟩,
    fun _ => .refl _⟩
  refine (holdDeposit_outcome cfg who deposit.2 s).imp (fun _ t hheld => ?_) fun _ t hheld => ?_
  · simp only [modifyQueues, Call.outcome_modify, hheld.queues]
    exact ⟨.inl rfl, List.Subset.refl _⟩
  · rw [hheld.queues]
    exact .refl _

omit [DecidableEq H] in
theorem externalPropose_outcome (cfg : QueueConfig A X) (origin : RawOrigin A) :
    Call.Outcome (fun _ t => Effect s.queues t.queues (some (.proposed .external id)))
      (fun _ t => Shrinks s.queues t.queues) (externalPropose cfg now origin id s) := by
  rw [externalPropose]
  simp only [Call.outcome_bind, Call.outcome_ensure, Call.get_bind]
  refine ⟨fun _ => ⟨fun _ => ?_, fun _ => .refl _⟩, fun _ => .refl _⟩
  refine ensureNotBlacklisted_outcome ?_ fun _ => .refl _
  exact .external id .superMajorityApprove rfl rfl

omit [DecidableEq H] in
theorem putExternal_outcome (allowed : Bool) (threshold : VoteThreshold) :
    Call.Outcome (fun _ t => Effect s.queues t.queues (some (.proposed .external id)))
      (fun _ t => Shrinks s.queues t.queues) (putExternal allowed id threshold s) := by
  rw [putExternal]
  simp only [modifyQueues, Call.outcome_bind, Call.outcome_ensure, Call.outcome_modify]
  exact ⟨fun _ => .external id threshold rfl rfl, fun _ => .refl _⟩

/-- The asset of what is started is the caller's; here it is that of the waiting proposal. -/
theorem fastTrack_outcome (cfg : QueueConfig A X) (origin : RawOrigin A) (votingPeriod delay : Nat)
    (hnames : ∀ waiting, s.queues.nextExternal = some waiting →
      FastTracks cfg origin id votingPeriod waiting →
      id.asset = waiting.1.asset) :
    Call.Outcome (fun _ t => Effect s.queues t.queues
      ((injected s.pallet t.pallet).map (.started .external)))
      (fun _ t => Shrinks s.queues t.queues) (fastTrack cfg now origin id votingPeriod delay s) := by
  have hchecks : Call.Outcome
      (fun _ t => t = s ∧
        (votingPeriod < cfg.fastTrackVotingPeriod ∨ cfg.fastTrackOrigin origin = false →
        cfg.instantOrigin origin = true ∧ cfg.instantAllowed = true)) (fun _ t =>
          Shrinks s.queues t.queues)
      (Call.when (votingPeriod < cfg.fastTrackVotingPeriod ∨ cfg.fastTrackOrigin origin = false) (do
        Call.ensure (cfg.instantOrigin origin = true) .badOrigin
        Call.ensure (cfg.instantAllowed = true) (.module .instantNotAllowed) :
            QueueCall A X H Unit) s) := by
    rw [Call.when]
    split
    · simp only [Call.outcome_bind, Call.outcome_ensure]
      exact ⟨fun horigin => ⟨fun hallowed => ⟨trivial, fun _ => ⟨horigin, hallowed⟩⟩,
        fun _ => .refl _⟩, fun _ => .refl _⟩
    next hnot => exact ⟨rfl, fun hneeded => absurd hneeded hnot⟩
  rw [fastTrack]
  refine hchecks.bind ?_
  rintro _ t ⟨rfl, hallowed⟩
  simp only [modifyQueues, Call.get_bind, Call.outcome_bind, Call.outcome_ofOption,
    Call.outcome_ensure, Call.outcome_modify]
  refine ⟨fun waiting hwaiting => ⟨fun hmajority => ⟨fun hhash => ?_, fun _ => .refl _⟩,
    fun _ => .refl _⟩, fun _ => .refl _⟩
  have hid : id = waiting.1 := by
    have hasset := hnames waiting hwaiting ⟨hallowed, hmajority, hhash⟩
    obtain ⟨⟨hash, asset⟩, threshold⟩ := waiting
    obtain ⟨hash', asset'⟩ := id
    simp only at hhash hasset
    rw [hhash, hasset]
  rw [injected_injectReferendum rfl, hid]
  exact .startedExternal waiting hwaiting ⟨.inr rfl, List.Subset.refl _⟩

theorem vetoExternal_outcome (cfg : QueueConfig A X) (origin : RawOrigin A) :
    Call.Outcome (fun _ t => Effect s.queues t.queues (some (.vetoed id)))
      (fun _ t => Shrinks s.queues t.queues) (vetoExternal cfg now origin id s) := by
  rw [vetoExternal]
  simp only [Call.outcome_bind, Call.outcome_ofOption, Call.outcome_ensure, Call.get_bind]
  refine ⟨fun who _ => ⟨fun waiting _ => ⟨fun _ => ?_, fun _ => .refl _⟩, fun _ => .refl _⟩,
    fun _ => .refl _⟩
  cases SortedVec.binarySearchByKey (fun a : A => a) who
    (((s.queues.blacklist id).map Prod.snd).getD []) with
  | ok index => exact .refl _
  | error insertPosition => exact .vetoed id rfl rfl

theorem removeQueued_outcome (cfg : QueueConfig A X) :
    Call.Outcome (fun _ t => Shrinks s.queues t.queues) (fun _ _ => True)
      (removeQueued cfg id s) := by
  rw [removeQueued, Call.get_bind]
  generalize List.find? _ s.queues.publicProps = found
  rcases found with _ | ⟨propIndex, p⟩
  · exact .refl _
  · rw [Call.outcome_bind]
    refine (slashDeposits_outcome cfg propIndex).imp (fun u t ht => ?_) fun _ _ _ => trivial
    obtain ⟨hnext, hprops⟩ := ht
    refine ⟨.inl hnext, ?_⟩
    show t.queues.publicProps.eraseP _ ⊆ _
    rw [hprops]
    exact List.eraseP_subset

theorem removeExternal_outcome :
    Call.Outcome (fun _ t => Shrinks s.queues t.queues) (fun _ _ => True) (removeExternal id s) := by
  rw [removeExternal, Call.get_bind, Call.when]
  split
  · exact ⟨.inr rfl, List.Subset.refl _⟩
  · exact .refl _

theorem removeReferendum_outcome (refIndex : Option Nat) :
    Call.Outcome (fun _ t => Shrinks s.queues t.queues) (fun _ _ => True)
      (removeReferendum id refIndex s) := by
  rw [removeReferendum, Call.get_bind]
  cases refIndex with
  | none => exact .refl _
  | some refIndex =>
      simp only
      rcases s.pallet.referendumInfoOf refIndex with _ | ⟨status⟩ | ⟨approved, end_⟩
      · exact .refl _
      · simp only [Call.when]
        split
        · exact .refl _
        · exact .refl _
      · exact .refl _

theorem blacklistProposal_outcome (cfg : QueueConfig A X) (origin : RawOrigin A)
    (refIndex : Option Nat) :
    Call.Outcome (fun _ t => Shrinks s.queues t.queues) (fun _ t => Shrinks s.queues t.queues)
      (blacklistProposal cfg origin id refIndex s) := by
  rw [blacklistProposal, Call.outcome_transactional]
  have hbody : Call.Outcome (fun _ t => Shrinks s.queues t.queues) (fun _ _ => True) ((do
      Call.ensure (cfg.blacklistOrigin origin = true) .badOrigin
      modifyQueues fun q =>
        { q with blacklist := Function.update q.blacklist id (some (cfg.blockNumbers - 1, [])) }
      removeQueued cfg id
      removeExternal id
      removeReferendum id refIndex : QueueCall A X H Unit) s) := by
    rw [Call.outcome_bind, Call.outcome_ensure]
    refine ⟨fun _ => ?_, fun _ => trivial⟩
    rw [modifyQueues, Call.outcome_bind, Call.outcome_modify]
    refine (removeQueued_outcome cfg).bind fun _ t ht => ?_
    refine removeExternal_outcome.bind fun _ t' ht' => ?_
    refine (removeReferendum_outcome refIndex).imp (fun _ t'' ht'' => ?_) fun _ _ h => h
    have hstart : Shrinks s.queues t.queues := ⟨ht.external, ht.publicProps⟩
    exact (hstart.trans ht').trans ht''
  exact hbody.imp (fun _ _ h => h) fun _ _ _ => .refl _

omit [DecidableEq H] in
theorem cancelProposal_outcome (cfg : QueueConfig A X) (origin : RawOrigin A) (propIndex : Nat) :
    Call.Outcome (fun _ t => Shrinks s.queues t.queues) (fun _ t => Shrinks s.queues t.queues)
      (cancelProposal cfg origin propIndex s) := by
  rw [cancelProposal]
  simp only [modifyQueues, Call.outcome_bind, Call.outcome_ensure, Call.outcome_modify]
  refine ⟨fun _ => ?_, fun _ => .refl _⟩
  refine (slashDeposits_outcome (s := { s with
    queues :=
      { s.queues with publicProps := s.queues.publicProps.filter fun p => p.1 ≠ propIndex } }) cfg
      propIndex).imp (fun _ t ht => ?_) fun _ t ht => ?_
  · obtain ⟨hnext, hprops⟩ := ht
    exact ⟨.inl hnext, hprops ▸ List.filter_sublist.subset⟩
  · obtain ⟨hnext, hprops⟩ := ht
    exact ⟨.inl hnext, hprops ▸ List.filter_sublist.subset⟩

/-- **Calls** that return do to the queues what their event says, and calls
    that fail only take away. -/
theorem queueBody_outcome (cfg : QueueConfig A X) {e : QueueExtrinsic A X H}
    (hnames : ∀ origin id votingPeriod delay, e = .fastTrack origin id votingPeriod delay →
      ∀ waiting, s.queues.nextExternal = some waiting →
        FastTracks cfg origin id votingPeriod waiting →
        id.asset = waiting.1.asset) :
    Call.Outcome (fun _ t => Effect s.queues t.queues (callEvent s t e))
      (fun _ t => Shrinks s.queues t.queues)
      (queueBody cfg now e s) := by
  cases e with
  | propose origin id value => exact propose_outcome cfg origin value
  | second origin proposal secondsUpperBound =>
      exact (second_outcome cfg origin proposal secondsUpperBound).imp (fun _ _ h => .kept h)
        fun _ _ h => h
  | externalPropose origin id => exact externalPropose_outcome cfg origin
  | externalProposeMajority origin id => exact putExternal_outcome _ _
  | externalProposeDefault origin id => exact putExternal_outcome _ _
  | fastTrack origin id votingPeriod delay =>
      exact fastTrack_outcome cfg origin votingPeriod delay (hnames origin id votingPeriod delay rfl)
  | vetoExternal origin id => exact vetoExternal_outcome cfg origin
  | blacklist origin id refIndex =>
      exact (blacklistProposal_outcome cfg origin refIndex).imp (fun _ _ h => .kept h) fun _ _ h => h
  | cancelProposal origin propIndex =>
      exact (cancelProposal_outcome cfg origin propIndex).imp (fun _ _ h => .kept h) fun _ _ h => h

/-! ### Steps -/

/-- What a step has done. What `begin_block` launches is from the queue that was tabled last. -/
def stepEvent (cfg : QueueConfig A X) (c c' : QueueChain A X H) : QueueOp A X H → Option (Event X H)
  | .call extrinsic =>
      if (queueBody cfg c.chain.now extrinsic c.board).1.toBool then
        callEvent c.board c'.board extrinsic else none
  | .begin => (injected c.chain.pallet c'.chain.pallet).map (.started c'.queues.lastTabled)
  | .rest _ => none

def event (cfg : QueueConfig A X) (c : QueueChain A X H) (op : QueueOp A X H) : Option (Event X H) :=
  (queueStep cfg c op).bind fun c' => stepEvent cfg c c' op

omit [DecidableEq H] in
/-- What a dispatched call does to the queues. -/
theorem dispatch_effect {x : QueueCall A X H Unit} {e : QueueExtrinsic A X H}
    (h : Call.Outcome (fun _ t => Effect s.queues t.queues (callEvent s t e))
      (fun _ t => Shrinks s.queues t.queues) (x s)) :
    Effect s.queues (dispatch x s).queues (if (x s).1.toBool then callEvent s (dispatch x s) e
      else none) := by
  unfold dispatch
  rcases hx : x s with ⟨e | u, t⟩
  · rw [hx] at h
    cases e with
    | panic => exact .kept (.refl _)
    | _ => exact .kept h
  · rw [hx] at h
    exact h

omit [DecidableEq H] in
theorem dispatch_launched {x : QueueCall A X H Unit}
    (h : Call.Outcome (fun _ => Launched s) (fun _ => Launched s) (x s)) :
    Launched s (dispatch x s) :=
  dispatch_of_outcome launched_self (h.imp (fun _ _ h => h) fun _ _ h => .inr h)

/-- **A step** does to the queues what its event says. -/
theorem queueStep_effect {op : QueueOp A X H} (hnames : NamesAsset cfg c op)
    (hstep : queueStep cfg c op = some c') : Effect c.queues c'.queues (event cfg c op) := by
  rw [event, hstep, Option.bind_some]
  cases op with
  | call extrinsic =>
      simp only [queueStep] at hstep
      split at hstep
      · obtain rfl := Option.some.inj hstep
        refine dispatch_effect
          (queueBody_outcome (s := c.board) cfg fun origin id votingPeriod delay he => ?_)
        rw [he] at hnames
        exact hnames
      · cases hstep
  | begin =>
      simp only [queueStep] at hstep
      split at hstep
      · simp only [beginQueues] at hstep
        split at hstep
        · cases hstep
        · obtain rfl := Option.some.inj hstep
          split
          · exact dispatch_launched (launchWaiting_outcome cfg c.chain.now c.board)
          · exact launched_self (s := c.board)
      · cases hstep
  | rest op =>
      simp only [queueStep] at hstep
      split at hstep
      · obtain ⟨chain, -, rfl⟩ := Option.map_eq_some_iff.mp hstep
        exact .kept (.refl _)
      · cases hstep

/-! ## All runs -/

/-- A notion of having been proposed: by the proposal itself, and from then on as
    long as there is no veto. -/
structure Tracks (K : Queue → ProposalId X H → List (Event X H) → Prop) : Prop where
  new : ∀ queue id events, K queue id (events ++ [.proposed queue id])
  later : ∀ {queue id events e}, K queue id events → e ≠ .vetoed id → K queue id (events ++ [e])

omit [DecidableEq X] [DecidableEq H] in
theorem tracks_standing : Tracks (Standing : Queue → ProposalId X H → List (Event X H) → Prop) where
  new _ _ events := ⟨events, [], rfl, List.not_mem_nil⟩
  later := by
    rintro queue id _ e ⟨before, after, rfl, hnot⟩ hne
    refine ⟨before, after ++ [e], by simp, ?_⟩
    rw [List.mem_append, List.mem_singleton]
    rintro (hveto | hveto)
    · exact hnot hveto
    · exact hne hveto.symm

/-- Proposed, and if externally not vetoed since. -/
def Proposed (queue : Queue) (id : ProposalId X H) (events : List (Event X H)) : Prop :=
  .proposed queue id ∈ events ∧ (queue = .external → Standing .external id events)

omit [DecidableEq X] [DecidableEq H] in
theorem tracks_proposed : Tracks (Proposed : Queue → ProposalId X H → List (Event X H) → Prop) where
  new queue id events := by
    refine ⟨List.mem_append_right _ (List.mem_singleton.mpr rfl), ?_⟩
    rintro rfl
    exact tracks_standing.new _ id events
  later h hne := ⟨List.mem_append_left _ h.1, fun hqueue => tracks_standing.later (h.2 hqueue) hne⟩

/-- What waits has been proposed, and what was started had been then. -/
structure Tracked (K : Queue → ProposalId X H → List (Event X H) → Prop) (q : Queues A X H)
    (events : List (Event X H)) : Prop where
  external : ∀ waiting, q.nextExternal = some waiting → K .external waiting.1 events
  publicProps : ∀ p ∈ q.publicProps, K .publicProps p.2.1 events
  started : ∀ before queue id after, events = before ++ .started queue id :: after → K queue id before

/-- The last of a list is what is looked for, or comes after it. -/
theorem append_singleton_split {α : Type} {l before after : List α} {a x : α}
    (h : l ++ [a] = before ++ x :: after) :
    (before = l ∧ x = a) ∨ ∃ after', l = before ++ x :: after' := by
  rcases List.eq_nil_or_concat after with rfl | ⟨after', b, rfl⟩
  · obtain ⟨hl, hlast⟩ := List.append_inj' h rfl
    exact .inl ⟨hl.symm, (List.cons.inj hlast).1.symm⟩
  · right
    have hsplit : l ++ [a] = (before ++ x :: after') ++ [b] := by
      rw [h, List.concat_eq_append, List.append_assoc, List.cons_append]
    exact ⟨after', (List.append_inj' hsplit rfl).1⟩

omit [LinearOrder A] [DecidableEq X] [DecidableEq H] in
/-- One more event: what was started before still had been proposed, and so has what is started
    now. -/
theorem Tracked.started_append {K : Queue → ProposalId X H → List (Event X H) → Prop}
    {events : List (Event X H)}
    {e : Event X H} (h : Tracked K q events)
    (hlast : ∀ queue id, e = .started queue id → K queue id events)
    (before : List (Event X H)) (queue : Queue) (id : ProposalId X H) (after : List (Event X H))
    (hsplit : events ++ [e] = before ++ .started queue id :: after) : K queue id before := by
  rcases append_singleton_split hsplit with ⟨rfl, heq⟩ | ⟨after', hbefore⟩
  · exact hlast queue id heq.symm
  · exact h.started before queue id after' hbefore

omit [LinearOrder A] [DecidableEq X] [DecidableEq H] in
/-- **Step lemma.** A veto is the only event after which a proposal need not stand any more. -/
theorem Tracked.step {K : Queue → ProposalId X H → List (Event X H) → Prop} (hK : Tracks K)
    {events : List (Event X H)}
    {e : Option (Event X H)} (h : Tracked K q events) (heffect : Effect q q' e)
    (hveto : ∀ id, e = some (.vetoed id) → ∀ p ∈ q.publicProps, p.2.1 = id →
      K .publicProps id (events ++ [.vetoed id])) :
    Tracked K q' (events ++ e.toList) := by
  cases heffect with
  | kept hshrinks =>
      rw [Option.toList_none, List.append_nil]
      exact ⟨fun waiting hwaiting => h.external waiting (hshrinks.of_some hwaiting),
        fun p hp => h.publicProps p (hshrinks.publicProps hp), h.started⟩
  | external id threshold hnext hprops =>
      refine ⟨fun waiting hwaiting => ?_, fun p hp => ?_, h.started_append nofun⟩
      · rw [← Option.some.inj (hnext.symm.trans hwaiting)]
        exact hK.new .external id events
      · exact hK.later (h.publicProps p (hprops ▸ hp)) nofun
  | publicProps id hnext hprops =>
      refine ⟨fun waiting hwaiting => ?_, fun p hp => ?_, h.started_append nofun⟩
      · exact hK.later (h.external waiting (hnext.symm.trans hwaiting)) nofun
      · rcases hprops p hp with hold | rfl
        · exact hK.later (h.publicProps p hold) nofun
        · exact hK.new .publicProps p.2.1 events
  | vetoed id hnext hprops =>
      refine ⟨fun waiting hwaiting => ?_, fun p hp => ?_, h.started_append nofun⟩
      · rw [hnext] at hwaiting
        cases hwaiting
      · rw [hprops] at hp
        by_cases hsame : p.2.1 = id
        -- The veto is of the external proposal, and this one waits in the other
        -- queue under the same id.
        · rw [hsame]
          exact hveto id rfl p hp hsame
        · exact hK.later (h.publicProps p hp) fun heq => hsame (Event.vetoed.inj heq).symm
  | startedExternal waiting hwaiting hshrinks =>
      refine ⟨fun next hnext => ?_, fun p hp => ?_, h.started_append fun queue id heq => ?_⟩
      · exact hK.later (h.external next (hshrinks.of_some hnext)) nofun
      · exact hK.later (h.publicProps p (hshrinks.publicProps hp)) nofun
      · obtain ⟨rfl, rfl⟩ := Event.started.inj heq
        exact h.external waiting hwaiting
  | startedPublic p hp hshrinks =>
      refine ⟨fun next hnext => ?_, fun p' hp' => ?_, h.started_append fun queue id heq => ?_⟩
      · exact hK.later (h.external next (hshrinks.of_some hnext)) nofun
      · exact hK.later (h.publicProps p' (hshrinks.publicProps hp')) nofun
      · obtain ⟨rfl, rfl⟩ := Event.started.inj heq
        exact h.publicProps p hp

/-- Vetoes are seen as events. -/
theorem veto_of_event {op : QueueOp A X H} (h : event cfg c op = some (.vetoed id)) :
    ∃ origin, op = .call (.vetoExternal origin id) := by
  obtain ⟨c', -, hevent⟩ := Option.bind_eq_some_iff.mp h
  cases op with
  | call extrinsic =>
      simp only [stepEvent] at hevent
      split at hevent
      · cases extrinsic with
        | vetoExternal origin id' =>
            obtain rfl := Event.vetoed.inj (Option.some.inj hevent)
            exact ⟨origin, rfl⟩
        | fastTrack origin id' votingPeriod delay =>
            obtain ⟨started, -, hstarted⟩ := Option.map_eq_some_iff.mp hevent
            cases hstarted
        | _ => cases hevent
      · cases hevent
  | begin =>
      obtain ⟨started, -, hstarted⟩ := Option.map_eq_some_iff.mp hevent
      cases hstarted
  | rest op => cases hevent

omit [LinearOrder A] [DecidableEq X] [DecidableEq H] in
theorem Tracked.genesis (K : Queue → ProposalId X H → List (Event X H) → Prop) :
    Tracked K (Queues.empty : Queues A X H) [] where
  external := nofun
  publicProps := nofun
  started before queue id after h := by
    cases before <;> cases h

/-- **Run lemma.** -/
theorem tracked_run {K : Queue → ProposalId X H → List (Event X H) → Prop} (hK : Tracks K)
    {ledger : Ledger A X} {ops : List (QueueOp A X H)} {C : QueueChain A X H → QueueOp A X H → Prop}
    (hC : ∀ {c op}, C c op → NamesAsset cfg c op)
    (hveto : ∀ {c : QueueChain A X H} {origin id}, C c (.call (.vetoExternal origin id)) → ∀ events,
      Tracked K c.queues events → ∀ p ∈ c.queues.publicProps, p.2.1 = id →
        K .publicProps id (events ++ [.vetoed id]))
    (halong : Along (queueStep cfg) C (QueueChain.genesis ledger) ops)
    (hrun : run (queueStep cfg) (QueueChain.genesis ledger) ops = some c) :
    Tracked K c.queues (history (queueStep cfg) (event cfg) (QueueChain.genesis ledger) ops) := by
  have hcollect := history_collect (f := event cfg)
    (J := fun (c : QueueChain A X H) events => Tracked K c.queues events)
    (fun {c op c' events} h hCop hstep => ?_) (Tracked.genesis K) halong hrun
  · rwa [List.nil_append] at hcollect
  · refine h.step hK (queueStep_effect (hC hCop) hstep) fun id hevent p hp hsame => ?_
    obtain ⟨origin, rfl⟩ := veto_of_event hevent
    exact hveto hCop events h p hp hsame

/-- **A referendum is about what was proposed**, when each `fast_track` that passes its checks names
    the asset of the waiting proposal: it was proposed through the queue that it comes from, an
    external one has not been vetoed since, and one of the public has not either when no veto is of
    a proposal that waits among those of the public, too. -/
theorem referenda_proposed {cfg : QueueConfig A X} {ledger : Ledger A X} {ops : List (QueueOp A X H)}
    {c : QueueChain A X H} (hrun : run (queueStep cfg) (QueueChain.genesis ledger) ops = some c)
    (hnames : Along (queueStep cfg) (NamesAsset cfg) (QueueChain.genesis ledger) ops)
    {before after : List (Event X H)} {queue : Queue} {id : ProposalId X H}
    (hstarted : history (queueStep cfg) (event cfg) (QueueChain.genesis ledger) ops =
      before ++ .started queue id :: after) :
    (.proposed queue id ∈ before ∧ (queue = .external → Standing .external id before)) ∧
      (Along (queueStep cfg) VetoesApart (QueueChain.genesis ledger) ops →
        Standing queue id before) := by
  constructor
  -- Proposals that wait were made before; a referendum is started from one of them.
  · have htracked :=
      tracked_run tracks_proposed (fun h => h) (fun _ events h p hp hsame => ?_) hnames hrun
    · exact htracked.started before queue id after hstarted
    · exact ⟨List.mem_append_left _ (hsame ▸ (h.publicProps p hp).1), nofun⟩
  · intro hvetoes
    -- Without vetoes the proposal that was tracked still stands.
    have htracked := tracked_run tracks_standing (fun h => h.1) (fun h events _ p hp hsame => ?_)
      (hnames.and hvetoes) hrun
    · exact htracked.started before queue id after hstarted
    · exact absurd hsame (h.2 p hp)

/-- The waiting proposal, tracked with its own asset. -/
theorem referenda_proposed_sample :
    Standing .external ⟨7, 1⟩ [Event.proposed .external (⟨7, 1⟩ : ProposalId Nat Nat)] := by
  have halong : Along (queueStep queueSample) (NamesAsset queueSample)
      (QueueChain.genesis sampleGenesis.pallet.ledger)
      [.call (.externalProposeMajority .root ⟨7, 1⟩), .call (.fastTrack .root ⟨7, 1⟩ 10 2)] := by
    refine ⟨trivial, fun c hc => ⟨?_, fun _ _ => trivial⟩⟩
    obtain rfl : _ = c := Option.some.inj hc
    rintro waiting hwaiting -
    cases hwaiting
    rfl
  have hstarted : history (queueStep queueSample) (event queueSample)
    (QueueChain.genesis sampleGenesis.pallet.ledger)
      [.call (.externalProposeMajority .root ⟨7, 1⟩), .call (.fastTrack .root ⟨7, 1⟩ 10 2)] =
        [.proposed .external ⟨7, 1⟩] ++ .started .external ⟨7, 1⟩ :: [] := rfl
  exact (referenda_proposed rfl halong hstarted).1.2 rfl

/-- A majority-carries proposal is about asset 1, and the referendum that it is tracked to is about
    asset 2. A proposal of the public is launched although it was vetoed as an external one. -/
theorem referenda_unproposed :
    ¬ (∀ ops c before id after,
        run (queueStep queueSample) (QueueChain.genesis sampleGenesis.pallet.ledger) ops = some c →
        history (queueStep queueSample) (event queueSample)
          (QueueChain.genesis sampleGenesis.pallet.ledger) ops =
          before ++ .started .external (id : ProposalId Nat Nat) :: after →
            Standing .external id before) ∧
      history (queueStep queueSample) (event queueSample)
        (QueueChain.genesis sampleGenesis.pallet.ledger)
        [.call (.propose (.signed 1) ⟨7, 1⟩ 10), .call (.externalProposeMajority .root ⟨7, 1⟩),
          .call (.vetoExternal (.signed 9) ⟨7, 1⟩), .rest .block, .begin] =
        [.proposed .publicProps ⟨7, 1⟩, .proposed .external ⟨7, 1⟩, .vetoed ⟨7, 1⟩,
          .started .publicProps ⟨7, (1 : Nat)⟩] := by
  constructor
  · intro h
    obtain ⟨before, after, hsplit, -⟩ := h
      [.call (.externalProposeMajority .root ⟨7, 1⟩), .call (.fastTrack .root ⟨7, 2⟩ 10 2)] _
      [.proposed .external ⟨7, 1⟩] ⟨7, 2⟩ [] rfl rfl
    have hmem : Event.proposed .external ⟨7, 2⟩ ∈
        [Event.proposed .external (⟨7, 1⟩ : ProposalId Nat Nat)] := by
      rw [hsplit]
      exact List.mem_append_right _ List.mem_cons_self
    exact absurd hmem (by decide)
  · rfl

end Democracy
end Composable
