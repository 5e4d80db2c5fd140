import Composable.Oracle.Transit
import Mathlib.Data.List.DropRight

/-!
# `Oracle.History` — the prices an asset has had

Aggregation stores the current price of an asset and a bounded history. What the asset
has been priced at is recorded beside the storage, one observation for each block that
started with a new price (`observe`).

`Recorded` is the invariant between the two: the current price is the last observation, and the
history is the last `maxHistory` of them. The history therefore ends with the current price.
-/

namespace Composable
namespace Oracle

variable {A X : Type} [DecidableEq A] [DecidableEq X]
variable {cfg : Config A X} {s s' : State A X} {op : Op A X} {x y : X} {block price : Nat}
  {xs : List X}

/-! ## Observations -/

/-- The observations after an operation that left `s'`: a block may start with a price of its
    own. -/
def observe (seen : X → List Price) (s' : State A X) : Op A X → X → List Price
  | .initializeBlock => fun x => seen x ++ (s'.prices x).toList.filter fun p => p.block = s'.block
  | _ => seen

/-- A step of the storage with the observations beside it. -/
def observedStep (cfg : Config A X) (t : State A X × (X → List Price)) (op : Op A X) :
    Option (State A X × (X → List Price)) :=
  (step cfg t.1 op).map fun s' => (s', observe t.2 s' op)

/-- The prices of an asset are as they were. -/
def SamePrices (s s' : State A X) (y : X) : Prop :=
  s'.prices y = s.prices y ∧ s'.priceHistory y = s.priceHistory y

/-- The asset was priced, and its history took the price. -/
def GotPrice (cfg : Config A X) (block : Nat) (s s' : State A X) (y : X) : Prop :=
  ∃ price, s'.prices y = some ⟨price, block⟩ ∧
    cfg.pushHistory (s.priceHistory y) ⟨price, block⟩ = .ok (s'.priceHistory y)

/-! ## Turns -/

/-- The turn of an asset prices that asset or none. -/
theorem Turn.prices (hsound : Sound cfg s) (h : Turn cfg block x s s') :
    (∀ y, y ≠ x → SamePrices s s' y) ∧ (SamePrices s s' x ∨ GotPrice cfg block s s' x) := by
  cases h with
  | idle _ => exact ⟨fun _ _ => ⟨rfl, rfl⟩, .inl ⟨rfl, rfl⟩⟩
  | unstored _ _ _ => exact ⟨fun _ _ => ⟨rfl, rfl⟩, .inl ⟨rfl, rfl⟩⟩
  | pruned _ _ _ => exact ⟨fun _ _ => ⟨rfl, rfl⟩, .inl ⟨rfl, rfl⟩⟩
  | unrecorded _ _ _ hhistory hpanic =>
      exact absurd (pushHistory_error (hsound.history x) hhistory) hpanic
  | @paid info price history h =>
      have hprices : (((s.pruned cfg block x info).priced x ⟨price, block⟩ history).paidOut cfg
          (cfg.kept info block (s.answers x)) price info).prices =
            Function.update s.prices x (some ⟨price, block⟩) := rfl
      have hhistory : (((s.pruned cfg block x info).priced x ⟨price, block⟩ history).paidOut cfg
          (cfg.kept info block (s.answers x)) price info).priceHistory =
            Function.update s.priceHistory x history := rfl
      refine ⟨fun y hy => ⟨?_, ?_⟩, .inr ⟨price, ?_, ?_⟩⟩
      · rw [hprices, Function.update_of_ne hy]
      · rw [hhistory, Function.update_of_ne hy]
      · rw [hprices, Function.update_self]
      · rw [hhistory, Function.update_self]
        exact h.history_eq

/-- A run of turns over distinct assets prices each of them once at most. -/
theorem turns_price (hxs : xs.Nodup) (hsound : Sound cfg s)
    (hrun : run (turn cfg block) s xs = some s') :
    (∀ y, y ∉ xs → SamePrices s s' y) ∧ ∀ y, SamePrices s s' y ∨ GotPrice cfg block s s' y := by
  induction xs generalizing s with
  | nil =>
      obtain rfl := Option.some.inj hrun
      exact ⟨fun _ _ => ⟨rfl, rfl⟩, fun _ => .inl ⟨rfl, rfl⟩⟩
  | cons x xs ih =>
      obtain ⟨t, hturn, hrest⟩ := run_cons.mp hrun
      obtain ⟨hx, hxs⟩ := List.nodup_cons.mp hxs
      obtain ⟨hothers, hself⟩ := (turn_cases hturn).prices hsound
      obtain ⟨hleft, hpriced⟩ := ih hxs (hsound.turn (turn_cases hturn)) hrest
      refine ⟨fun y hy => ?_, fun y => ?_⟩
      · obtain ⟨hne, hnot⟩ := not_or.mp (mt List.mem_cons.mpr hy)
        have hsame : SamePrices t s' y := hleft y hnot
        exact ⟨hsame.1.trans (hothers y hne).1, hsame.2.trans (hothers y hne).2⟩
      · unfold SamePrices GotPrice at *
        by_cases hy : y = x
        · -- Its own turn is over.
          subst hy
          rw [(hleft y hx).1, (hleft y hx).2]
          exact hself
        · rw [← (hothers y hy).1, ← (hothers y hy).2]
          exact hpriced y

/-! ## What is kept of the observations -/

omit [DecidableEq A] [DecidableEq X] in
/-- The history takes a price and drops what is too old. -/
theorem pushHistory_rtake {seen history : List Price} (hblock : block ≠ 0)
    (h : cfg.pushHistory (seen.rtake cfg.maxHistory) ⟨price, block⟩ = .ok history) :
    history = (seen ++ [Price.mk price block]).rtake cfg.maxHistory := by
  unfold Config.pushHistory at h
  generalize cfg.maxHistory = n at h
  cases n with
  | zero =>
      rw [List.rtake_zero, if_pos ⟨Nat.le_refl 0, rfl⟩] at h
      cases h
  | succ n =>
      have hlength : (seen.rtake (n + 1)).length = min seen.length (n + 1) := by
        rw [List.rtake, List.length_drop]
        omega
      have hkept : (if n + 1 ≤ (seen.rtake (n + 1)).length then (seen.rtake (n + 1)).tail
          else seen.rtake (n + 1)) = seen.rtake n := by
        rw [hlength]
        unfold List.rtake
        split
        · rw [List.tail_drop]
          congr 1
          omega
        · congr 1
          omega
      split at h
      · cases h
      · simp only [hkept] at h
        split at h
        · rw [List.rtake_concat_succ]
          exact (Except.ok.inj h).symm
        · cases h

/-- The storage has the last observation as the price and the last ones as the history. -/
structure Recorded (cfg : Config A X) (t : State A X × (X → List Price)) : Prop where
  sound : Sound cfg t.1
  current : ∀ x, t.1.prices x = (t.2 x).getLast?
  history : ∀ x, t.1.priceHistory x = (t.2 x).rtake cfg.maxHistory
  past : ∀ x, ∀ p ∈ t.1.prices x, p.block ≤ t.1.block

omit [DecidableEq A] in
theorem Recorded.genesis (ledger : Ledger A Unit) :
    Recorded cfg ((State.genesis ledger, fun _ => []) : State A X × (X → List Price)) where
  sound := Sound.genesis ledger
  current := fun _ => rfl
  history := fun _ => (List.rtake_nil _).symm
  past := nofun

/-- Only the start of a block touches prices. -/
theorem step_prices (hop : op ≠ .initializeBlock) (hstep : step cfg s op = some s') :
    s'.prices = s.prices ∧ s'.priceHistory = s.priceHistory ∧ s'.block = s.block := by
  rcases step_cases hstep with ⟨-, heffect⟩ | ⟨-, hresidue⟩
  · cases heffect with
    | started _ => exact absurd rfl hop
    | _ => exact ⟨rfl, rfl, rfl⟩
  · cases hresidue with
    | _ => exact ⟨rfl, rfl, rfl⟩

omit [DecidableEq A] [DecidableEq X] in
theorem observe_of_ne {seen : X → List Price} (hop : op ≠ .initializeBlock) :
    observe seen s' op = seen := by
  cases op with
  | initializeBlock => exact absurd rfl hop
  | _ => rfl

/-- A block starts with the old price and nothing to observe, or with a new one. -/
theorem initializeBlock_observes {seen : X → List Price} {u : Unit} (hsound : Sound cfg s)
    (hpast : ∀ p ∈ s.prices x, p.block ≤ s.block) (hcall : initializeBlock cfg s = (.ok u, s')) :
    (SamePrices s s' x ∧ observe seen s' (.initializeBlock : Op A X) x = seen x) ∨
      ∃ price, s'.prices x = some ⟨price, s'.block⟩ ∧
        cfg.pushHistory (s.priceHistory x) ⟨price, s'.block⟩ = .ok (s'.priceHistory x) ∧
        observe seen s' (.initializeBlock : Op A X) x = seen x ++ [⟨price, s'.block⟩] := by
  obtain ⟨-, -, hblock⟩ := initializeBlock_frame hcall
  obtain ⟨-, hrun⟩ := initializeBlock_ok.mp hcall
  have hnodup : (cfg.assets s).Nodup := (cfg.iteration_perm _).nodup_iff.mpr s.assetsInfo.keys_nodup
  have hfirst : Sound cfg s.nextBlock := hsound.of_same rfl rfl rfl
  have hobserve : observe seen s' (.initializeBlock : Op A X) x =
      seen x ++ (s'.prices x).toList.filter fun p => p.block = s'.block := rfl
  rw [hobserve]
  rcases (turns_price hnodup hfirst hrun).2 x with hsame | ⟨price, hprice, hpushed⟩
  · refine .inl ⟨hsame, ?_⟩
    have hold : s'.prices x = s.prices x := hsame.1
    rw [hold]
    cases hcurrent : s.prices x with
    | none => exact List.append_nil _
    | some p =>
        -- An old price is from an earlier block.
        have hearlier : p.block ≤ s.block := hpast p hcurrent
        have hne : p.block ≠ s'.block := by omega
        rw [Option.toList_some, List.filter_cons_of_neg (by simpa using hne), List.filter_nil,
          List.append_nil]
  · rw [← hblock] at hprice hpushed
    refine .inr ⟨price, hprice, hpushed, ?_⟩
    rw [hprice, Option.toList_some, List.filter_cons_of_pos (by simp), List.filter_nil]

/-- A step leaves an asset as it was or observes a new price of it. -/
theorem observedStep_cases {t t' : State A X × (X → List Price)} (h : Recorded cfg t)
    (hstep : observedStep cfg t op = some t') (x : X) :
    t.1.block ≤ t'.1.block ∧ ((SamePrices t.1 t'.1 x ∧ t'.2 x = t.2 x) ∨
      ∃ price, t.1.block < t'.1.block ∧ t'.1.prices x = some ⟨price, t'.1.block⟩ ∧
        cfg.pushHistory (t.1.priceHistory x) ⟨price, t'.1.block⟩ = .ok (t'.1.priceHistory x) ∧
        t'.2 x = t.2 x ++ [⟨price, t'.1.block⟩]) := by
  obtain ⟨s, seen⟩ := t
  obtain ⟨s', hs', rfl⟩ := Option.map_eq_some_iff.mp hstep
  by_cases hop : op = .initializeBlock
  · subst hop
    obtain ⟨u, hcall⟩ := Call.success_eq_some.mp hs'
    obtain ⟨-, -, hblock⟩ := initializeBlock_frame hcall
    refine ⟨(Nat.le_succ _).trans (Nat.le_of_eq hblock.symm), ?_⟩
    rcases initializeBlock_observes h.sound (h.past x) hcall with hsame | ⟨price, hnew⟩
    · exact .inl hsame
    · exact .inr ⟨price, (Nat.lt_succ_self _).trans_eq hblock.symm, hnew⟩
  · obtain ⟨hprices, hkept, hblock⟩ := step_prices hop hs'
    exact ⟨Nat.le_of_eq hblock.symm,
      .inl ⟨⟨congrFun hprices x, congrFun hkept x⟩, congrFun (observe_of_ne hop) x⟩⟩

/-- **One step.** -/
theorem Recorded.step {t t' : State A X × (X → List Price)} (h : Recorded cfg t)
    (hstep : observedStep cfg t op = some t') : Recorded cfg t' := by
  have hcases := observedStep_cases h hstep
  have hsound : Sound cfg t'.1 := by
    obtain ⟨s', hs', rfl⟩ := Option.map_eq_some_iff.mp hstep
    exact h.sound.step hs'
  refine ⟨hsound, fun x => ?_, fun x => ?_, fun x p hp => ?_⟩
  · rcases (hcases x).2 with ⟨hsame, hseen⟩ | ⟨price, -, hprice, -, hseen⟩
    · rw [hseen, hsame.1]
      exact h.current x
    · rw [hseen, hprice, List.getLast?_concat]
  · rcases (hcases x).2 with ⟨hsame, hseen⟩ | ⟨price, hlater, -, hpushed, hseen⟩
    · rw [hseen, hsame.2]
      exact h.history x
    · rw [h.history x] at hpushed
      rw [hseen]
      exact pushHistory_rtake (Nat.ne_zero_of_lt hlater) hpushed
  · obtain ⟨hblock, ⟨hsame, -⟩ | ⟨price, -, hprice, -⟩⟩ := hcases x
    · have hold : p ∈ t.1.prices x := hsame.1 ▸ hp
      exact (h.past x p hold).trans hblock
    · obtain rfl := Option.some.inj ((Option.mem_def.mp hp).symm.trans hprice)
      exact Nat.le_refl _

/-- **In every state reached**, the storage has the last observations. -/
theorem recorded_of_run {ledger : Ledger A Unit} {ops : List (Op A X)}
    {t : State A X × (X → List Price)}
    (hrun : run (observedStep cfg) (State.genesis ledger, fun _ => []) ops = some t) :
    Recorded cfg t :=
  run_invariant (C := fun _ _ => True) (fun h _ hstep => h.step hstep) (Recorded.genesis ledger)
    (along_true _ _) hrun

/-! ## Histories in the order of the blocks -/

/-- An operation after some blocks were skipped. -/
def laterStep (cfg : Config A X) (t : State A X × (X → List Price)) (later : Nat × Op A X) :
    Option (State A X × (X → List Price)) :=
  observedStep cfg ({ t.1 with block := t.1.block + later.1 }, t.2) later.2

/-- The observations are recorded, and each is from a later block than those before it. -/
structure Sequenced (cfg : Config A X) (t : State A X × (X → List Price)) : Prop where
  recorded : Recorded cfg t
  increasing : ∀ x, (t.2 x).Pairwise fun p q => p.block < q.block
  past : ∀ x, ∀ p ∈ t.2 x, p.block ≤ t.1.block

omit [DecidableEq A] in
/-- Nothing is observed in a block that is skipped. -/
theorem Sequenced.skip {t : State A X × (X → List Price)} (h : Sequenced cfg t) (n : Nat) :
    Sequenced cfg ({ t.1 with block := t.1.block + n }, t.2) where
  recorded :=
    { sound := h.recorded.sound.of_same rfl rfl rfl
      current := h.recorded.current
      history := h.recorded.history
      past := fun x p hp => Nat.le_add_right_of_le (h.recorded.past x p hp) }
  increasing := h.increasing
  past x p hp := Nat.le_add_right_of_le (h.past x p hp)

/-- **One step.** -/
theorem Sequenced.step {t t' : State A X × (X → List Price)} (h : Sequenced cfg t)
    (hstep : observedStep cfg t op = some t') : Sequenced cfg t' := by
  have hcases := observedStep_cases h.recorded hstep
  refine ⟨h.recorded.step hstep, fun x => ?_, fun x p hp => ?_⟩
  · rcases (hcases x).2 with ⟨-, hseen⟩ | ⟨price, hlater, -, -, hseen⟩
    · rw [hseen]
      exact h.increasing x
    · rw [hseen]
      refine List.pairwise_append.mpr ⟨h.increasing x, List.pairwise_singleton _ _,
        fun p hp q hq => ?_⟩
      obtain rfl := List.mem_singleton.mp hq
      exact (h.past x p hp).trans_lt hlater
  · obtain ⟨hblock, ⟨-, hseen⟩ | ⟨price, -, -, -, hseen⟩⟩ := hcases x
    · rw [hseen] at hp
      exact (h.past x p hp).trans hblock
    · rw [hseen] at hp
      rcases List.mem_append.mp hp with hold | hnew
      · exact (h.past x p hold).trans hblock
      · obtain rfl := List.mem_singleton.mp hnew
        exact Nat.le_refl _

/-- With room for any price at all, nothing is lost of an update. -/
theorem updatePrice_succeeds (hroom : 0 < cfg.maxHistory) (hsound : Sound cfg s) (x : X)
    (info : AssetInfo)
    (block : Nat) (ps : List (PrePrice A)) :
    ∃ s', updatePrice cfg x info block ps s = (.ok (), s') := by
  have hreturns :
      Call.Outcome (fun _ _ => True) (fun _ _ => False) (updatePrice cfg x info block ps s) := by
    unfold updatePrice
    split
    · cases getMedianPrice ps with
      | none => trivial
      | some price =>
          simp only [Call.outcome_bind, Call.outcome_modify, Call.get_bind, Call.outcome_ofExcept]
          refine ⟨fun history _ => ?_, fun e herror => ?_⟩
          · rw [handlePayout_eq]
            trivial
          · have hfull : ¬ (cfg.maxHistory ≤ (s.priceHistory x).length ∧ s.priceHistory x = []) := by
              rintro ⟨hlong, hnone⟩
              rw [hnone] at hlong
              exact Nat.not_lt.mpr hlong hroom
            obtain ⟨history, hpushed⟩ := pushHistory_takes (hsound.history x) hfull ⟨price, block⟩
            cases hpushed.symm.trans herror
    · trivial
  rcases hcall : updatePrice cfg x info block ps s with ⟨e | u, t⟩
  · rw [hcall] at hreturns
    exact hreturns.elim
  · exact ⟨t, rfl⟩

/-- The history of an asset is well-formed: bounded, in the order of the blocks, the latest prices
without a gap, and up to the current price; and no update of it is lost. -/
structure WellFormed (cfg : Config A X) (t : State A X × (X → List Price)) (x : X) : Prop where
  bounded : (t.1.priceHistory x).length ≤ cfg.maxHistory
  increasing : (t.1.priceHistory x).Pairwise fun p q => p.block < q.block
  latest : t.1.priceHistory x = (t.2 x).rtake cfg.maxHistory
  current : (t.1.priceHistory x).getLast? = t.1.prices x
  /-- Not in the turns of the next block either, whichever that is. -/
  updates : ∀ block xs s, t.1.block < block →
    run (turn cfg block) { t.1 with block := block } xs = some s →
    ∀ info ps, ∃ s', updatePrice cfg x info block ps s = (.ok (), s')

/-- **Histories are well-formed** in every state that is reached, whichever blocks are skipped. -/
theorem history_wellFormed {ledger : Ledger A Unit} {ops : List (Nat × Op A X)}
    {t : State A X × (X → List Price)}
    (hroom : 0 < cfg.maxHistory)
    (hrun : run (laterStep cfg) (State.genesis ledger, fun _ => []) ops = some t)
    (x : X) : WellFormed cfg t x := by
  have hfirst : Sequenced cfg ((State.genesis ledger, fun _ => []) : State A X × (X → List Price)) :=
    ⟨Recorded.genesis ledger, fun _ => List.Pairwise.nil, nofun⟩
  have hsequenced : Sequenced cfg t :=
    run_invariant (C := fun _ _ => True) (fun h _ hstep => (h.skip _).step hstep) hfirst
      (along_true _ _) hrun
  have hlatest := hsequenced.recorded.history x
  refine ⟨hsequenced.recorded.sound.history x, ?_, hlatest, ?_, fun block xs s _ hturns info ps => ?_⟩
  · rw [hlatest]
    exact (hsequenced.increasing x).sublist (List.drop_sublist _ _)
  · rw [hlatest, hsequenced.recorded.current x]
    -- The history keeps the last prices, and the one that is current is the last of them all.
    obtain ⟨n, hn⟩ := Nat.exists_eq_add_of_lt hroom
    rw [hn, Nat.zero_add]
    rcases List.eq_nil_or_concat' (t.2 x) with hnone | ⟨seen, p, hseen⟩
    · rw [hnone, List.rtake_nil]
    · rw [hseen, List.rtake_concat_succ, List.getLast?_concat, List.getLast?_concat]
  · have hsound : Sound cfg { t.1 with block := block } :=
      hsequenced.recorded.sound.of_same rfl rfl rfl
    exact updatePrice_succeeds hroom (hsound.turns hturns) x info block ps

/-- A signer answers twice, each time after some blocks were skipped. -/
def historyOps : List (Nat × Op Nat Nat) :=
  [(0, .addAssetAndInfo .root 0 ⟨80, 1, 5, 5, 0, 5⟩), (0, .setSigner (.signed 1) 2),
    (6, .submitPrice (.signed 2) 100 0), (0, .initializeBlock), (8, .submitPrice (.signed 2) 90 0),
    (0, .initializeBlock)]

theorem history_wellFormed_sample : ∃ t,
    run (laterStep sample) (State.genesis sampleLedger, fun _ => []) historyOps = some t ∧
      t.1.priceHistory 0 = [⟨100, 7⟩, ⟨90, 16⟩] ∧ WellFormed sample t 0 := by
  have hview : (run (laterStep sample) (State.genesis sampleLedger, fun _ => []) historyOps).map
      (fun t : State Nat Nat × (Nat → List Price) => t.1.priceHistory 0) =
        some [⟨100, 7⟩, ⟨90, 16⟩] := by
    decide +kernel
  obtain ⟨t, hrun, hhistory⟩ := Option.map_eq_some_iff.mp hview
  exact ⟨t, hrun, hhistory, history_wellFormed (by decide) hrun 0⟩

end Oracle
end Composable
