import Composable.Oracle.Transit

/-!
# `Oracle.Pruning` — which answers are stale

`prune_old_pre_prices` looks for the first answer that is not stale and splits the list there.
That takes the stale answers and no others because answers are appended as they come in, with the
number of the block, and what is left of a list keeps its order (`Ordered`). A lower
`max_answers` only cuts the list.
-/

namespace Composable
namespace Oracle

/-! ## Sorted lists -/

section Sorted

variable {α : Type} {key : α → Nat} {l : List α}

/-- What is below a bound comes first in a sorted list. -/
theorem takeWhile_lt_eq_filter (h : l.Pairwise fun a b => key a ≤ key b) (bound : Nat) :
    (l.takeWhile fun a => key a < bound) = l.filter fun a => key a < bound := by
  induction l with
  | nil => rfl
  | cons a l ih =>
      obtain ⟨hfirst, hrest⟩ := List.pairwise_cons.mp h
      by_cases ha : key a < bound
      · rw [List.takeWhile_cons_of_pos (by simpa using ha),
          List.filter_cons_of_pos (by simpa using ha), ih hrest]
      · rw [List.takeWhile_cons_of_neg (by simpa using ha),
          List.filter_cons_of_neg (by simpa using ha), eq_comm, List.filter_eq_nil_iff]
        intro b hb
        rw [decide_eq_true_eq]
        exact fun hlt => ha ((hfirst b hb).trans_lt hlt)

/-- The others come after it. -/
theorem dropWhile_lt_eq_filter (h : l.Pairwise fun a b => key a ≤ key b) (bound : Nat) :
    (l.dropWhile fun a => key a < bound) = l.filter fun a => ¬ key a < bound := by
  induction l with
  | nil => rfl
  | cons a l ih =>
      obtain ⟨hfirst, hrest⟩ := List.pairwise_cons.mp h
      by_cases ha : key a < bound
      · rw [List.dropWhile_cons_of_pos (by simpa using ha),
          List.filter_cons_of_neg (by simpa using ha), ih hrest]
      · rw [List.dropWhile_cons_of_neg (by simpa using ha), eq_comm, List.filter_eq_self]
        intro b hb
        rw [decide_eq_true_eq]
        rcases List.mem_cons.mp hb with rfl | hb
        · exact ha
        · exact fun hlt => ha ((hfirst b hb).trans_lt hlt)

end Sorted

variable {A X : Type} [DecidableEq A] [DecidableEq X]
variable {cfg : Config A X} {s s' t : State A X} {op : Op A X} {x y : X} {info : AssetInfo}
  {block : Nat}
variable {ps : List (PrePrice A)} {xs : List X}

/-! ## The order of the answers -/

/-- Answers wait in the order of their blocks, none from a later one. -/
structure Ordered (s : State A X) : Prop where
  sorted : ∀ x, (s.answers x).Pairwise fun p q => p.block ≤ q.block
  past : ∀ x, ∀ p ∈ s.answers x, p.block ≤ s.block

omit [DecidableEq A] in
theorem Ordered.genesis (ledger : Ledger A Unit) : Ordered (State.genesis ledger : State A X) where
  sorted := fun _ => List.Pairwise.nil
  past := nofun

omit [DecidableEq A] in
/-- Answers that go away leave the others in order. -/
theorem Ordered.of_sublist (h : Ordered s) (hblock : s.block ≤ s'.block)
    (hanswers : ∀ y, (s'.answers y).Sublist (s.answers y)) : Ordered s' where
  sorted y := (h.sorted y).sublist (hanswers y)
  past y p hp := (h.past y p ((hanswers y).subset hp)).trans hblock

omit [DecidableEq A] in
theorem Ordered.of_same (h : Ordered s) (hblock : s.block ≤ s'.block)
    (hprices : s'.prePrices = s.prePrices) : Ordered s' := by
  refine h.of_sublist hblock fun y => ?_
  rw [State.answers, hprices]
  exact List.Sublist.refl _

theorem Ordered.turn (h : Ordered s) (hturn : Turn cfg block x s s') : Ordered s' :=
  h.of_sublist hturn.frame.2.2.ge hturn.answers

/-- A new answer is from the current block. -/
theorem Ordered.submit (h : Ordered s) (who : A) (price slash : Nat) :
    Ordered (s.submit x ⟨price, s.block, who⟩ slash) := by
  have hanswers : ∀ y, (s.submit x ⟨price, s.block, who⟩ slash).answers y =
      if y = x then s.answers x ++ [⟨price, s.block, who⟩] else s.answers y :=
        fun y => answers_insert s.prePrices
  refine ⟨fun y => ?_, fun y p hp => ?_⟩
  · rw [hanswers]
    split
    · refine List.pairwise_append.mpr ⟨h.sorted x, List.pairwise_singleton _ _, fun p hp q hq => ?_⟩
      obtain rfl := List.mem_singleton.mp hq
      exact h.past x p hp
    · exact h.sorted y
  · rw [hanswers] at hp
    split at hp
    · rcases List.mem_append.mp hp with hold | hnew
      · exact h.past x p hold
      · obtain rfl := List.mem_singleton.mp hnew
        exact Nat.le_refl _
    · exact h.past y p hp

/-- The turns of a block, all of them or the first few. -/
theorem Ordered.turns (h : Ordered s) (hrun : run (Oracle.turn cfg block) s xs = some t) :
    Ordered t :=
  run_invariant (C := fun _ _ => True) (fun hordered _ hturn => hordered.turn (turn_cases hturn)) h
    (along_true _ _) hrun

/-- **One step.** -/
theorem Ordered.step (h : Ordered s) (hstep : step cfg s op = some s') : Ordered s' := by
  rcases step_cases hstep with ⟨-, heffect⟩ | ⟨-, hresidue⟩
  · cases heffect with
    | submitted _ _ _ _ => exact h.submit _ _ _
    | started hcall =>
        have hfirst : Ordered s.nextBlock := h.of_same (Nat.le_succ _) rfl
        exact hfirst.turns (initializeBlock_ok.mp hcall).2
    | assetSet _ _ _ => exact h.of_same (Nat.le_refl _) rfl
    | signerSet _ _ => exact h.of_same (Nat.le_refl _) rfl
    | stakeAdded _ => exact h.of_same (Nat.le_refl _) rfl
    | stakeRemoved _ _ => exact h.of_same (Nat.le_refl _) rfl
    | reclaimed _ _ => exact h.of_same (Nat.le_refl _) rfl
    | elsewhere => exact h.of_same (Nat.le_refl _) rfl
  · cases hresidue with
    | clean => exact h
    | unreserved _ _ _ => exact h.of_same (Nat.le_refl _) rfl
    | unpaid _ _ => exact h.of_same (Nat.le_refl _) rfl

/-! ## Pruning -/

/-- The answers older than the staleness threshold, … -/
def Config.staleAnswers (cfg : Config A X) (block : Nat) (ps : List (PrePrice A)) :
    List (PrePrice A) :=
  ps.filter fun p => p.block < cfg.staleBlock block

/-- … and all the others. -/
def Config.freshAnswers (cfg : Config A X) (block : Nat) (ps : List (PrePrice A)) :
    List (PrePrice A) :=
  ps.filter fun p => ¬ p.block < cfg.staleBlock block

/-- The waiting answers of an asset are in order, of one account each, and are pruned
exactly: the stale ones are those that are too old, and of the others the first ones are
kept, as many as there may be. -/
structure PrunedExactly (cfg : Config A X) (s : State A X) (x : X) : Prop where
  sorted : (s.answers x).Pairwise fun p q => p.block ≤ q.block
  distinct : ((s.answers x).map PrePrice.who).Nodup
  pruned : ∀ info block (t : State A X), ∃ t', pruneOldPrePrices cfg info (s.answers x) block t =
    (.ok (cfg.staleAnswers block (s.answers x),
      (cfg.freshAnswers block (s.answers x)).take info.maxAnswers), t')
  /-- Only what is beyond the most answers there can be is lost. -/
  complete : ∀ (info : AssetInfo) block, cfg.staleAnswers block (s.answers x) ++
    ((cfg.freshAnswers block (s.answers x)).take info.maxAnswers ++
      (cfg.freshAnswers block (s.answers x)).drop info.maxAnswers) = s.answers x

theorem prunedExactly (hsound : Sound cfg s) (hordered : Ordered s) (x : X) :
    PrunedExactly cfg s x := by
  have hstale (block : Nat) : ((s.answers x).takeWhile fun p => p.block < cfg.staleBlock block) =
      cfg.staleAnswers block (s.answers x) := takeWhile_lt_eq_filter (hordered.sorted x) _
  have hfresh (block : Nat) : ((s.answers x).dropWhile fun p => p.block < cfg.staleBlock block) =
      cfg.freshAnswers block (s.answers x) := dropWhile_lt_eq_filter (hordered.sorted x) _
  refine ⟨hordered.sorted x, hsound.nodup x, fun info block t => ?_, fun info block => ?_⟩
  · rw [← hstale, ← hfresh]
    exact ⟨_, pruneOldPrePrices_eq t⟩
  · rw [List.take_append_drop, ← hstale, ← hfresh]
    exact List.takeWhile_append_dropWhile

/-- **Answers are pruned exactly** in every state that is reached, between blocks and
    after any turns of one. -/
theorem pruned_exactly {ledger : Ledger A Unit} {ops : List (Op A X)}
    (hrun : run (step cfg) (State.genesis ledger) ops = some s) (x : X) :
    PrunedExactly cfg s x ∧ ∀ xs t, run (turn cfg (s.block + 1)) s.nextBlock xs = some t →
      PrunedExactly cfg t x := by
  have hfirst : Sound cfg (State.genesis ledger : State A X) ∧
      Ordered (State.genesis ledger : State A X) :=
    ⟨Sound.genesis ledger, Ordered.genesis ledger⟩
  obtain ⟨hsound, hordered⟩ :=
    run_invariant (C := fun _ _ => True) (I := fun t => Sound cfg t ∧ Ordered t)
    (fun ht _ hstep => ⟨ht.1.step hstep, ht.2.step hstep⟩) hfirst (along_true _ _) hrun
  refine ⟨prunedExactly hsound hordered x, fun xs t hturns => ?_⟩
  -- The turns of a block start from a state with the same records and one block later.
  have hnext : Sound cfg s.nextBlock := hsound.of_same rfl rfl rfl
  have hnextOrdered : Ordered s.nextBlock := hordered.of_same (Nat.le_succ _) rfl
  exact prunedExactly (hnext.turns hturns) (hnextOrdered.turns hturns) x

/-- Two signers answer in different blocks, and then one answer is to be the most there can be. -/
def loweredOps : List (Op Nat Nat) :=
  [.addAssetAndInfo .root 0 ⟨80, 3, 5, 5, 0, 5⟩, .setSigner (.signed 1) 2,
    .setSigner (.signed 3) 4] ++
    List.replicate 6 .initializeBlock ++
    [.submitPrice (.signed 2) 10 0, .initializeBlock, .submitPrice (.signed 4) 100 0,
      .addAssetAndInfo .root 0 ⟨80, 1, 1, 5, 0, 5⟩]

theorem pruned_exactly_sample :
    ∃ s, run (step sample) (State.genesis sampleLedger) loweredOps = some s ∧
    s.answers 0 = [⟨10, 6, 2⟩, ⟨100, 7, 4⟩] ∧ PrunedExactly sample s 0 := by
  have hview : (run (step sample) (State.genesis sampleLedger) loweredOps).map
      (fun s : State Nat Nat => s.answers 0) = some [⟨10, 6, 2⟩, ⟨100, 7, 4⟩] := by
    decide +kernel
  obtain ⟨s, hrun, hanswers⟩ := Option.map_eq_some_iff.mp hview
  exact ⟨s, hrun, hanswers, (pruned_exactly hrun 0).1⟩

end Oracle
end Composable
