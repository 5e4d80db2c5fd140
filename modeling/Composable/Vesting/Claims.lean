import Composable.Vesting.Locks

/-!
# `Vesting.Claims` — claiming early

A claim drops the schedules that are over and writes what the others lock. A schedule that is over
stays over (`locked_antitone`), so what an early claim drops a later one would have dropped as well:
the schedules that a claim leaves depend on the block of the last claim alone
(`lockedOnly_lockedOnly`), and so does the lock that it writes.

`Claimed` is what any claims leave of an account's schedules in an asset, as seen from every later
block. Nothing is asked about how large the totals are together: the loop of `locked_balance`
saturates, and so does the law.
-/

namespace Composable
namespace Vesting

open VestingSchedule

/-! ## What a claim retains -/

section Retained

variable {schedules kept : List VestingSchedule} {now t t' start total maxBlockNumber : Nat}

/-- The loop of `locked_balance`, when it does not panic: the saturating sum, and
    the schedules that go on. -/
theorem retainLocked_some (h : retainLocked now start schedules = some (total, kept))
    (hstart : start ≤ u128Max) :
    total = Fixed.saturated (start + lockedSum now schedules) ∧ kept = lockedOnly now schedules := by
  induction schedules generalizing start kept with
  | nil =>
      cases h
      refine ⟨?_, rfl⟩
      rw [lockedSum_nil, Nat.add_zero, Fixed.saturated, Nat.min_eq_left hstart]
  | cons v rest ih =>
      simp only [retainLocked, Option.bind_eq_bind, Option.bind_eq_some_iff] at h
      obtain ⟨amount, hamount, ⟨total', kept'⟩, hrest, hkept⟩ := h
      cases hkept
      obtain ⟨htotal, rfl⟩ := ih hrest (Nat.min_le_right _ _)
      have hlocked : v.locked now = amount := by rw [locked, hamount, Option.getD_some]
      refine ⟨?_, ?_⟩
      · rw [htotal, lockedSum_cons, hlocked]
        unfold Fixed.saturated
        omega
      · by_cases hzero : amount = 0
        · simp [lockedOnly, hlocked, hzero]
        · simp [lockedOnly, hlocked, hzero]

/-- On valid schedules it does not panic. -/
theorem retainLocked_isSome (h : ∀ v ∈ schedules, v.Valid maxBlockNumber) (now start : Nat) :
    ∃ result, retainLocked now start schedules = some result := by
  induction schedules generalizing start with
  | nil => exact ⟨_, rfl⟩
  | cons v rest ih =>
      have hv := (lockedAmount_eq_some (t := now) (h v List.mem_cons_self)).1
      obtain ⟨⟨total, kept⟩, hrest⟩ := ih (fun w hw => h w (List.mem_cons_of_mem v hw))
        (Fixed.saturated (start + v.locked now))
      refine ⟨(total, if v.locked now = 0 then kept else v :: kept), ?_⟩
      simp only [retainLocked, hv, hrest, Option.bind_eq_bind, Option.bind_some]
      rfl

/-- What is over stays over. -/
theorem lockedOnly_lockedOnly (h : ∀ v ∈ schedules, v.Valid maxBlockNumber) (hle : t ≤ t') :
    lockedOnly t' (lockedOnly t schedules) = lockedOnly t' schedules := by
  rw [lockedOnly, lockedOnly, List.filter_filter, lockedOnly]
  apply List.filter_congr
  intro v hv
  have hantitone : v.locked t' ≤ v.locked t := locked_antitone (h v hv) hle
  by_cases hzero : v.locked t' = 0
  · simp [hzero]
  · have hbefore : v.locked t ≠ 0 := by omega
    simp [hzero, hbefore]

/-- What is locked is decided by the schedules that go on. -/
theorem lockedSum_congr {others : List VestingSchedule}
    (h : lockedOnly now others = lockedOnly now schedules) :
    lockedSum now others = lockedSum now schedules := by
  rw [← lockedSum_lockedOnly, h, lockedSum_lockedOnly]

end Retained

variable {A X : Type} [DecidableEq A] [DecidableEq X] {cfg : PalletConfig A X} {s s' : State A X}
variable {now now' : Nat} {who a : A} {asset x : X}

/-! ## One claim -/

/-- What the schedules of an account in an asset lock, as far as a balance goes. -/
def State.lockedAt (s : State A X) (now : Nat) (who : A) (asset : X) : Nat :=
  Fixed.saturated (lockedSum now (s.vestingSchedules who asset))

/-- The schedules that are over are dropped. -/
def State.pruned (s : State A X) (now : Nat) (who : A) (asset : X) : State A X :=
  s.putSchedules who asset (lockedOnly now (s.vestingSchedules who asset))

@[simp] theorem ledger_pruned : (s.pruned now who asset).ledger = s.ledger := rfl

@[simp] theorem locks_pruned : (s.pruned now who asset).locks = s.locks := rfl

/-- What refuses a claim, and with which error. -/
def claimRefused (cfg : PalletConfig A X) (now : Nat) (who : A) (asset : X) (s : State A X) :
    Option (DispatchError Empty) :=
  if s.lockedAt now who asset = 0 then cfg.removeRefused s.ledger s.locks asset who
  else cfg.lockRefused s.ledger s.locks asset who (s.lockedAt now who asset)

omit [DecidableEq A] [DecidableEq X] in
theorem lockedAt_eq_zero_iff :
    s.lockedAt now who asset = 0 ↔ lockedSum now (s.vestingSchedules who asset) = 0 := by
  have hmax : u128Max ≠ 0 := by decide
  unfold State.lockedAt Fixed.saturated
  omega

theorem removeLock_eq :
    removeLock cfg asset who s =
      match cfg.removeRefused s.ledger s.locks asset who with
      | some e => (.error (e.map Empty.elim), s)
      | none => (.ok (), s.putLock asset who 0) := by
  simp only [removeLock, Call.get_bind]
  cases cfg.removeRefused s.ledger s.locks asset who <;> rfl

theorem setLock_eq {amount : Nat} (h : amount ≠ 0) :
    setLock cfg.toConfig asset who amount s =
      match cfg.lockRefused s.ledger s.locks asset who amount with
      | some e => (.error (e.map Empty.elim), s)
      | none => (.ok (), s.putLock asset who amount) := by
  simp only [setLock, Call.get_bind, Call.when, h, ne_eq, not_false_eq_true, if_true]
  cases cfg.lockRefused s.ledger s.locks asset who amount <;> rfl

/-- `locked_balance`, when it does not panic. -/
theorem lockedBalance_retained {result : Nat × List VestingSchedule}
    (h : retainLocked now 0 (s.vestingSchedules who asset) = some result) :
    lockedBalance now who asset s = (.ok (s.lockedAt now who asset), s.pruned now who asset) := by
  obtain ⟨total, kept⟩ := result
  obtain ⟨htotal, rfl⟩ := retainLocked_some h (Nat.zero_le _)
  rw [Nat.zero_add] at htotal
  have hlockedAt : s.lockedAt now who asset = total := htotal.symm
  have hkept : (if total = 0 then [] else lockedOnly now (s.vestingSchedules who asset)) =
      lockedOnly now (s.vestingSchedules who asset) := by
    split
    next hzero => rw [lockedOnly_eq_nil (lockedAt_eq_zero_iff.mp (hlockedAt.trans hzero))]
    next => rfl
  simp only [lockedBalance, Call.get_bind, h, Call.ofOption]
  show (Except.ok _, _) = _
  simp only [hkept, State.pruned, State.putSchedules, hlockedAt]

/-- **A claim** drops the schedules that are over, and unless the currency refuses
    it writes what is locked. -/
theorem doClaim_eq (hvalid : ∀ v ∈ s.vestingSchedules who asset, v.Valid cfg.maxBlockNumber) :
    doClaim cfg now who asset s =
      match claimRefused cfg now who asset s with
      | some e => (.error (e.map Empty.elim), s.pruned now who asset)
      | none => (.ok (s.lockedAt now who asset),
          (s.pruned now who asset).putLock asset who (s.lockedAt now who asset)) := by
  obtain ⟨result, hretained⟩ := retainLocked_isSome hvalid now 0
  rw [doClaim, Call.bind_of_ok (lockedBalance_retained hretained), claimRefused]
  generalize hlockedAt : s.lockedAt now who asset = total
  by_cases hzero : total = 0
  · -- nothing is locked any more: no schedule is left, and the entry goes once more
    have hnil : lockedOnly now (s.vestingSchedules who asset) = [] :=
      lockedOnly_eq_nil (lockedAt_eq_zero_iff.mp (hlockedAt.trans hzero))
    have hsame : (s.pruned now who asset).putSchedules who asset [] = s.pruned now who asset := by
      simp only [State.pruned, hnil, State.putSchedules, State.mk.injEq, true_and]
      funext a x
      split <;> rfl
    rw [if_pos hzero, if_pos hzero, hzero]
    show Call.bind (removeLock cfg asset who) (fun _ => pure 0)
      ((s.pruned now who asset).putSchedules who asset []) = _
    rw [hsame, Call.bind, removeLock_eq, ledger_pruned, locks_pruned]
    cases cfg.removeRefused s.ledger s.locks asset who with
    | some e => rfl
    | none => rfl
  · rw [if_neg hzero, if_neg hzero]
    show Call.bind (setLock cfg.toConfig asset who total) (fun _ => pure total)
      (s.pruned now who asset) = _
    rw [Call.bind, setLock_eq hzero, ledger_pruned, locks_pruned]
    cases cfg.lockRefused s.ledger s.locks asset who total with
    | some e => rfl
    | none => rfl

/-- A claim of something else leaves the schedules and the lock alone. -/
theorem doClaim_others (hne : ¬ (who = a ∧ asset = x)) {r : Except (DispatchError Error) Nat}
    (h : doClaim cfg now a x s = (r, s')) :
    s'.ledger = s.ledger ∧ s'.vestingSchedules who asset = s.vestingSchedules who asset ∧
      s'.locks asset who = s.locks asset who := by
  have hne' : ¬ (asset = x ∧ who = a) := fun hself => hne hself.symm
  -- all that is written is written for the other account, or in the other asset
  have hwrites : Call.Outcome
      (fun _ s' => s'.ledger = s.ledger ∧
        s'.vestingSchedules who asset = s.vestingSchedules who asset ∧
        s'.locks asset who = s.locks asset who)
      (fun _ s' => s'.ledger = s.ledger ∧
        s'.vestingSchedules who asset = s.vestingSchedules who asset ∧
        s'.locks asset who = s.locks asset who) (doClaim cfg now a x s) := by
    simp only [doClaim, lockedBalance, Call.get_bind, Call.outcome_bind, Call.outcome_ofOption,
      Call.outcome_modify, Call.outcome_pure]
    refine ⟨fun _ _ => ?_, fun _ => ⟨trivial, trivial, trivial⟩⟩
    split
    · simp only [Call.outcome_bind, Call.outcome_modify, Call.outcome_pure]
      apply removeLock_outcome
      · simp [State.putLock, State.putSchedules, hne, hne']
      · exact fun _ => ⟨rfl, by simp [State.putSchedules, hne], rfl⟩
    · simp only [Call.outcome_bind, Call.outcome_pure]
      apply setLock_outcome
      · split
        · exact ⟨rfl, if_neg hne, rfl⟩
        · exact ⟨rfl, if_neg hne, if_neg hne'⟩
      · exact fun _ => ⟨rfl, if_neg hne, rfl⟩
  rw [h] at hwrites
  cases r <;> exact hwrites

/-! ## Claims before -/

/-- What claims leave of an account's schedules in an asset: as seen from now on they are the same,
    and a lock under which something is locked is still there. -/
structure Claimed (cfg : PalletConfig A X) (now : Nat) (who : A) (asset : X) (s s' : State A X) :
    Prop where
  ledger : s'.ledger = s.ledger
  valid : ∀ v ∈ s'.vestingSchedules who asset, v.Valid cfg.maxBlockNumber
  schedules : ∀ t, now ≤ t → lockedOnly t (s'.vestingSchedules who asset) =
    lockedOnly t (s.vestingSchedules who asset)
  lock : lockedSum now (s.vestingSchedules who asset) ≠ 0 → s.locks asset who ≠ 0 →
    s'.locks asset who ≠ 0

omit [DecidableEq A] [DecidableEq X] in
theorem Claimed.refl (hvalid : ∀ v ∈ s.vestingSchedules who asset, v.Valid cfg.maxBlockNumber) :
    Claimed cfg now who asset s s := ⟨rfl, hvalid, fun _ _ => rfl, fun _ h => h⟩

omit [DecidableEq A] [DecidableEq X] in
/-- Time goes by. -/
theorem Claimed.later (h : Claimed cfg now who asset s s') (hle : now ≤ now') :
    Claimed cfg now' who asset s s' where
  ledger := h.ledger
  valid := h.valid
  schedules t ht := h.schedules t (hle.trans ht)
  lock hlocked := by
    apply h.lock
    rw [← lockedSum_congr (h.schedules now (Nat.le_refl _))]
    rw [← lockedSum_congr (h.schedules now' hle)] at hlocked
    have hfalls := lockedSum_antitone h.valid hle
    omega

/-- One more claim, which may be refused. -/
theorem Claimed.claim (h : Claimed cfg now who asset s s') :
    Claimed cfg now who asset s (doClaim cfg now a x s').2 := by
  by_cases hself : who = a ∧ asset = x
  · obtain ⟨rfl, rfl⟩ := hself
    have hpruned : ∀ {t : State A X}, t.ledger = s'.ledger →
        t.vestingSchedules who asset = lockedOnly now (s'.vestingSchedules who asset) →
        (lockedSum now (s.vestingSchedules who asset) ≠ 0 → s.locks asset who ≠ 0 →
          t.locks asset who ≠ 0) →
        Claimed cfg now who asset s t := by
      intro t hledger hschedules hlock
      refine ⟨hledger.trans h.ledger, fun v hv => ?_, fun t' ht' => ?_, hlock⟩
      · rw [hschedules] at hv
        exact h.valid v (List.mem_filter.mp hv).1
      · rw [hschedules, lockedOnly_lockedOnly h.valid ht', h.schedules t' ht']
    rw [doClaim_eq h.valid]
    cases claimRefused cfg now who asset s' with
    | some e =>
        refine hpruned rfl ?_ h.lock
        exact if_pos ⟨rfl, rfl⟩
    | none =>
        refine hpruned rfl ?_ fun hlocked _ => ?_
        · exact if_pos ⟨rfl, rfl⟩
        · show (if asset = asset ∧ who = who then _ else _) ≠ 0
          rw [if_pos ⟨rfl, rfl⟩, Ne, lockedAt_eq_zero_iff,
            lockedSum_congr (h.schedules now (Nat.le_refl _))]
          exact hlocked
  · obtain ⟨hledger, hschedules, hlock⟩ := doClaim_others hself (Prod.mk.eta (p := _)).symm
    refine ⟨hledger.trans h.ledger, ?_, ?_, ?_⟩
    · rw [hschedules]
      exact h.valid
    · rw [hschedules]
      exact h.schedules
    · rw [hlock]
      exact h.lock

/-- A claim, or the start of a later block. -/
def Op.Claims : Op A X → Prop
  | .claim .. | .claimFor .. | .block _ => True
  | _ => False

omit [DecidableEq A] [DecidableEq X] in
/-- An extrinsic that fails before it claims, or claims. -/
theorem Claimed.dispatch {c : VestingCall A X Unit} (h : Claimed cfg now who asset s s')
    (hcall : Call.Outcome (fun _ => Claimed cfg now who asset s)
      (fun _ => Claimed cfg now who asset s) (c s')) :
    Claimed cfg now who asset s (dispatch c s') := by
  obtain ⟨hok, herr⟩ := Call.outcome_iff.mp hcall
  exact dispatch_of_outcome h (Call.outcome_iff.mpr ⟨hok, fun e t ht => .inr (herr e t ht)⟩)

theorem Claimed.doClaim_outcome (h : Claimed cfg now who asset s s') (a : A) (x : X) :
    Call.Outcome (fun _ => Claimed cfg now who asset s) (fun _ => Claimed cfg now who asset s)
      (doClaim cfg now a x s') := by
  have hclaim := h.claim (a := a) (x := x)
  refine Call.outcome_iff.mpr ⟨fun n t ht => ?_, fun e t ht => ?_⟩ <;>
  · rw [ht] at hclaim
    exact hclaim

/-- **Step lemma.** -/
theorem Claimed.step {c c' : Chain A X} {op : Op A X} (h : Claimed cfg c.now who asset s c.pallet)
    (hop : op.Claims)
    (hstep : step cfg c op = some c') : Claimed cfg c'.now who asset s c'.pallet := by
  cases op with
  | claim origin y =>
      obtain rfl := Option.some.inj hstep
      refine h.dispatch ?_
      simp only [Vesting.claim, Call.outcome_bind, ensureSigned_outcome, Call.outcome_pure]
      exact ⟨fun b _ => h.doClaim_outcome b y, fun _ => h⟩
  | claimFor origin dest y =>
      obtain rfl := Option.some.inj hstep
      refine h.dispatch ?_
      simp only [claimFor, Call.outcome_bind, ensureSigned_outcome, Call.outcome_ofOption,
        Call.outcome_pure]
      exact ⟨fun _ _ => ⟨fun b _ => h.doClaim_outcome b y, fun _ => h⟩, fun _ => h⟩
  | block t =>
      obtain ⟨hle, hc'⟩ := Option.ite_none_right_eq_some.mp hstep
      obtain rfl := Option.some.inj hc'
      exact h.later hle
  | vestedTransfer | updateVestingSchedules | elsewhere => exact hop.elim

/-! ## The law -/

/-- What the currency refuses depends on whether there is a lock to replace,
    and not on what is in it. -/
structure BlindToAmounts (cfg : PalletConfig A X) : Prop where
  set : ∀ {l locks locks' y b n}, locks y b ≠ 0 → locks' y b ≠ 0 →
    cfg.lockRefused l locks y b n = cfg.lockRefused l locks' y b n
  remove : ∀ {l locks locks' y b}, cfg.removeRefused l locks y b = cfg.removeRefused l locks' y b

/-- A claim that returned leaves the schedules that go on, and what they lock. -/
theorem doClaim_ok {n : Nat} (hvalid : ∀ v ∈ s.vestingSchedules who asset, v.Valid cfg.maxBlockNumber)
    (h : doClaim cfg now who asset s = (.ok n, s')) :
    n = s.lockedAt now who asset ∧ s' = (s.pruned now who asset).putLock asset who n := by
  rw [doClaim_eq hvalid] at h
  cases hrefused : claimRefused cfg now who asset s with
  | some e =>
      rw [hrefused] at h
      cases h
  | none =>
      rw [hrefused] at h
      cases h
      exact ⟨rfl, rfl⟩

/-- Whether it returns or not, it drops the schedules that are over. -/
theorem doClaim_schedules (hvalid : ∀ v ∈ s.vestingSchedules who asset, v.Valid cfg.maxBlockNumber) :
    (doClaim cfg now who asset s).2.vestingSchedules who asset =
      lockedOnly now (s.vestingSchedules who asset) := by
  rw [doClaim_eq hvalid]
  cases claimRefused cfg now who asset s with
  | some e => exact if_pos ⟨rfl, rfl⟩
  | none => exact if_pos ⟨rfl, rfl⟩

/-- **A second claim in the same block changes nothing.** -/
theorem doClaim_again {n : Nat}
    (hvalid : ∀ v ∈ s.vestingSchedules who asset, v.Valid cfg.maxBlockNumber)
    (h : doClaim cfg now who asset s = (.ok n, s')) : (doClaim cfg now who asset s').2 = s' := by
  obtain ⟨rfl, rfl⟩ := doClaim_ok hvalid h
  have hschedules :
      ((s.pruned now who asset).putLock asset who (s.lockedAt now who asset)).vestingSchedules
        who asset =
      lockedOnly now (s.vestingSchedules who asset) := if_pos ⟨rfl, rfl⟩
  have hagain : lockedOnly now (lockedOnly now (s.vestingSchedules who asset)) =
      lockedOnly now (s.vestingSchedules who asset) := lockedOnly_lockedOnly hvalid (Nat.le_refl _)
  have hsame :
      ((s.pruned now who asset).putLock asset who (s.lockedAt now who asset)).pruned now who asset =
      (s.pruned now who asset).putLock asset who (s.lockedAt now who asset) := by
    rw [State.pruned, hschedules, hagain]
    simp only [State.putSchedules, State.putLock, State.pruned, State.mk.injEq, true_and]
    funext a x
    split <;> rfl
  have hlockedAt : ((s.pruned now who asset).putLock asset who (s.lockedAt now who asset)).lockedAt
      now who asset =
      s.lockedAt now who asset := by
    rw [State.lockedAt, hschedules, lockedSum_lockedOnly, State.lockedAt]
  rw [doClaim_eq, hsame, hlockedAt]
  · cases claimRefused cfg now who asset _ with
    | some e => rfl
    | none =>
        simp only [State.putLock, State.mk.injEq, true_and, and_true]
        funext x a
        split <;> rfl
  · rw [hschedules]
    exact fun v hv => hvalid v (List.mem_filter.mp hv).1

/-- **Claiming early does not change what is claimed later.** After any claims by anybody, over any
    blocks, a claim leaves the schedules that it would have left without them, and if both return
    the same lock. It returns when it would have without them, over a currency that is blind to the
    amounts of locks; and a second claim in the same block changes nothing. -/
theorem early_claims (cfg : PalletConfig A X) {ops : List (Op A X)} {c : Chain A X} {t : Nat}
    (hvalid : ∀ v ∈ s.vestingSchedules who asset, v.Valid cfg.maxBlockNumber)
    (hops : ∀ op ∈ ops, op.Claims) (hrun : run (step cfg) ⟨s, t⟩ ops = some c) :
    (doClaim cfg c.now who asset c.pallet).2.vestingSchedules who asset =
        (doClaim cfg c.now who asset s).2.vestingSchedules who asset ∧
      (∀ n n' s₁ s₂, doClaim cfg c.now who asset s = (.ok n, s₁) →
        doClaim cfg c.now who asset c.pallet = (.ok n', s₂) → n' = n ∧
          s₂.locks asset who = s₁.locks asset who) ∧
      (BlindToAmounts cfg → (lockedSum c.now (s.vestingSchedules who asset) ≠ 0 →
        s.locks asset who ≠ 0) →
        (doClaim cfg c.now who asset c.pallet).1 = (doClaim cfg c.now who asset s).1) ∧
      ∀ n s₂, doClaim cfg c.now who asset c.pallet = (.ok n, s₂) →
        (doClaim cfg c.now who asset s₂).2 = s₂ := by
  have hclaims : Along (step cfg) (fun _ op => op.Claims ∧ True) ⟨s, t⟩ ops :=
    (along_true _ ops).and_forall hops
  have hend : Claimed cfg c.now who asset s c.pallet := by
    refine run_invariant (I := fun c => Claimed cfg c.now who asset s c.pallet) ?_ (.refl hvalid)
      hclaims hrun
    exact fun h hop hstep => h.step hop.1 hstep
  have hschedules := hend.schedules c.now (Nat.le_refl _)
  have hlockedAt : c.pallet.lockedAt c.now who asset = s.lockedAt c.now who asset := by
    rw [State.lockedAt, lockedSum_congr hschedules, State.lockedAt]
  refine ⟨?_, fun n n' s₁ s₂ hdirect hlate => ?_, fun hblind hlock => ?_,
    fun n s₂ hlate => doClaim_again hend.valid hlate⟩
  · rw [doClaim_schedules hend.valid, doClaim_schedules hvalid, hschedules]
  · obtain ⟨rfl, rfl⟩ := doClaim_ok hvalid hdirect
    obtain ⟨rfl, rfl⟩ := doClaim_ok hend.valid hlate
    refine ⟨hlockedAt, ?_⟩
    simp only [State.putLock, and_self, if_true, hlockedAt]
  -- The same amount stays locked, so either both remove the lock or both set it.
  · have hrefused :
        claimRefused cfg c.now who asset c.pallet = claimRefused cfg c.now who asset s := by
      unfold claimRefused
      rw [hlockedAt, hend.ledger]
      split
      next => exact hblind.remove
      next hsome =>
        have hlocked : lockedSum c.now (s.vestingSchedules who asset) ≠ 0 := fun hzero =>
          hsome (lockedAt_eq_zero_iff.mpr hzero)
        exact hblind.set (hend.lock hlocked (hlock hlocked)) (hlock hlocked)
    rw [doClaim_eq hend.valid, doClaim_eq hvalid, hrefused, hlockedAt]
    cases claimRefused cfg c.now who asset s <;> rfl

/-- The owner claims after the first of two periods, and another account for it after that. -/
theorem early_claims_sample : ∃ c,
    run (step palletSample) ⟨vestedSample, 0⟩ [.block 10, .claim (.signed 1) 0, .block 15,
      .claimFor (.signed 2) (some 1) 0, .block 20] = some c ∧
    (doClaim palletSample c.now 1 0 c.pallet).1 =
      (doClaim palletSample c.now 1 0 vestedSample).1 := by
  have hvalid : ∀ v ∈ vestedSample.vestingSchedules 1 0, v.Valid palletSample.maxBlockNumber := by
    intro v hv
    rw [List.mem_singleton.mp hv]
    exact ⟨by decide, by decide, by decide, by decide⟩
  obtain ⟨c, hc⟩ :
      ∃ c, run (step palletSample) ⟨vestedSample, 0⟩ [.block 10, .claim (.signed 1) 0, .block 15,
      .claimFor (.signed 2) (some 1) 0, .block 20] = some c := ⟨_, rfl⟩
  refine ⟨c, hc, (early_claims palletSample hvalid ?_ hc).2.2.1 ⟨fun _ _ => rfl, rfl⟩
    fun _ => by decide⟩
  intro op hop
  simp only [List.mem_cons, List.not_mem_nil, or_false] at hop
  rcases hop with rfl | rfl | rfl | rfl | rfl <;> trivial

end Vesting
end Composable
