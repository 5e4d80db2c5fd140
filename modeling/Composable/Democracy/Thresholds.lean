import Composable.Democracy.Model

/-!
# `Democracy.Thresholds` — when a referendum is approved

The thresholds of `frame/democracy/src/vote_threshold.rs`, which are in `Democracy.Model`.

`compare_rationals` compares two fractions by their continued fractions, so that nothing overflows.
It decides exactly the cross-multiplied inequality (`compareRationals_eq`), and with it the three
thresholds become inequalities between the parts of a tally and the two square roots (`Passes`).
From these follow how the thresholds are ordered (`thresholds_ordered`) and what one more vote can
do to an outcome (`outcome_of_vote`).

A turn of the loop of `begin_block` divides by zero where there are votes and no issuance. Such a
block is not finished, and neither is any after it (`halts`).
-/

namespace Composable
namespace Democracy

/-! ## Comparing fractions -/

/-- Fractions with the same integral part compare as their rests do. -/
theorem mul_lt_mul_iff_of_div_eq {n1 d1 n2 d2 : Nat} (h : n1 / d1 = n2 / d2) :
    n1 * d2 < n2 * d1 ↔ n1 % d1 * d2 < n2 % d2 * d1 := by
  have h1 : n1 * d2 = d1 * (n1 / d1) * d2 + n1 % d1 * d2 := by
    rw [← Nat.add_mul, Nat.div_add_mod]
  have h2 : n2 * d1 = d1 * (n1 / d1) * d2 + n2 % d2 * d1 := by
    rw [h, Nat.mul_assoc, Nat.mul_comm d1, ← Nat.add_mul, Nat.mul_comm (n2 / d2), Nat.div_add_mod]
  rw [h1, h2]
  exact Nat.add_lt_add_iff_left

/-- A smaller integral part makes a smaller fraction. -/
theorem mul_lt_mul_of_div_lt {n1 d1 n2 d2 : Nat} (hd1 : 0 < d1) (h : n1 / d1 < n2 / d2) :
    n1 * d2 < n2 * d1 := by
  have h1 : n1 < (n1 / d1 + 1) * d1 := Nat.lt_mul_of_div_lt (Nat.lt_succ_self _) hd1
  have h2 : (n1 / d1 + 1) * d2 ≤ n2 := (Nat.mul_le_mul_right d2 h).trans (Nat.div_mul_le_self n2 d2)
  have hd2 : 0 < d2 := by
    apply Nat.pos_of_ne_zero
    rintro rfl
    simp at h
  calc n1 * d2 < (n1 / d1 + 1) * d1 * d2 := Nat.mul_lt_mul_of_pos_right h1 hd2
    _ = (n1 / d1 + 1) * d2 * d1 := Nat.mul_right_comm _ _ _
    _ ≤ n2 * d1 := Nat.mul_le_mul_right d1 h2

/-- **The continued fractions decide** the comparison of two fractions. -/
theorem compareRationals_eq {n1 d1 n2 d2 : Nat} (hd1 : 0 < d1) (hd2 : 0 < d2) :
    compareRationals n1 d1 n2 d2 = some (decide (n1 * d2 < n2 * d1)) := by
  induction n1, d1, n2, d2 using compareRationals.induct with
  | case1 n1 d1 n2 d2 hzero => omega
  | case2 n1 d1 n2 d2 hzero hlt =>
      rw [compareRationals, if_neg hzero, if_pos hlt, decide_eq_true (mul_lt_mul_of_div_lt hd1 hlt)]
  | case3 n1 d1 n2 d2 hzero hle hlt =>
      have hnot : ¬ n1 * d2 < n2 * d1 := (mul_lt_mul_of_div_lt hd2 hlt).asymm
      rw [compareRationals, if_neg hzero, if_neg hle, if_pos hlt, decide_eq_false hnot]
  | case4 n1 d1 n2 d2 hzero hle hge hr2 =>
      have hq : n1 / d1 = n2 / d2 := by omega
      rw [compareRationals, if_neg hzero, if_neg hle, if_neg hge, if_pos hr2]
      simp [mul_lt_mul_iff_of_div_eq hq, hr2]
  | case5 n1 d1 n2 d2 hzero hle hge hr2 hr1 =>
      have hq : n1 / d1 = n2 / d2 := by omega
      have hpos : 0 < n2 % d2 * d1 := Nat.mul_pos (Nat.pos_of_ne_zero hr2) hd1
      rw [compareRationals, if_neg hzero, if_neg hle, if_neg hge, if_neg hr2, if_pos hr1]
      simp [mul_lt_mul_iff_of_div_eq hq, hr1, Nat.pos_of_ne_zero hr2, hd1]
  | case6 n1 d1 n2 d2 hzero hle hge hr2 hr1 ih =>
      -- the rests are compared by their inverses, which turns the two fractions round
      have hq : n1 / d1 = n2 / d2 := by omega
      rw [compareRationals, if_neg hzero, if_neg hle, if_neg hge, if_neg hr2, if_neg hr1,
        ih (Nat.pos_of_ne_zero hr2) (Nat.pos_of_ne_zero hr1)]
      rw [Nat.mul_comm d2, Nat.mul_comm d1]
      exact congrArg some (decide_eq_decide.mpr (mul_lt_mul_iff_of_div_eq hq).symm)

/-! ## The thresholds -/

/-- What the nays and the ayes are multiplied with. -/
def VoteThreshold.weights (threshold : VoteThreshold) (turnout electorate : Nat) : Nat × Nat :=
  match threshold with
  | .superMajorityApprove => (electorate.sqrt, turnout.sqrt)
  | .superMajorityAgainst => (turnout.sqrt, electorate.sqrt)
  | .simpleMajority => (1, 1)

/-- Somebody has voted, and the ayes outweigh the nays. -/
def Passes (threshold : VoteThreshold) (tally : Tally) (electorate : Nat) : Prop :=
  0 < tally.turnout ∧
    tally.nays * (threshold.weights tally.turnout electorate).1 <
      tally.ayes * (threshold.weights tally.turnout electorate).2

instance (threshold : VoteThreshold) (tally : Tally) (electorate : Nat) :
    Decidable (Passes threshold tally electorate) :=
  inferInstanceAs (Decidable (_ ∧ _))

/-- There are votes and there is no issuance to set them against. -/
def DividesByZero (threshold : VoteThreshold) (tally : Tally) (electorate : Nat) : Prop :=
  0 < tally.turnout ∧ electorate = 0 ∧ threshold ≠ .simpleMajority

instance (threshold : VoteThreshold) (tally : Tally) (electorate : Nat) :
    Decidable (DividesByZero threshold tally electorate) :=
  inferInstanceAs (Decidable (_ ∧ _))

variable {threshold : VoteThreshold} {t t' : Tally} {electorate : Nat}

/-- **The outcome of a tally**: `approved` answers the inequality of its threshold, and panics
    when it divides by zero. -/
theorem approved_eq (threshold : VoteThreshold) (tally : Tally) (electorate : Nat) :
    threshold.approved tally electorate =
      if DividesByZero threshold tally electorate then
        none else some (decide (Passes threshold tally electorate)) := by
  unfold VoteThreshold.approved
  by_cases hturnout : tally.turnout = 0
  · have hnot : ¬ DividesByZero threshold tally electorate := fun h => h.1.ne' hturnout
    have hfails : ¬ Passes threshold tally electorate := fun h => h.1.ne' hturnout
    rw [if_pos (by simp [hturnout]), if_neg hnot, decide_eq_false hfails]
  · have hpos : 0 < tally.turnout := Nat.pos_of_ne_zero hturnout
    have hsqrt : 0 < tally.turnout.sqrt := Nat.sqrt_pos.mpr hpos
    rw [if_neg hsqrt.ne']
    -- With a turnout, `sqrt_electorate` is zero only in an electorate of nobody.
    by_cases helectorate : electorate = 0
    · subst helectorate
      cases threshold with
      | superMajorityApprove =>
          rw [if_pos ⟨hpos, rfl, by decide⟩]
          simp [compareRationals]
      | superMajorityAgainst =>
          rw [if_pos ⟨hpos, rfl, by decide⟩]
          simp [compareRationals]
      | simpleMajority =>
          rw [if_neg fun h => h.2.2 rfl]
          simp [Passes, VoteThreshold.weights, hpos]
    · have hnot : ¬ DividesByZero threshold tally electorate := fun h => helectorate h.2.1
      have hsqrt' : 0 < electorate.sqrt := Nat.sqrt_pos.mpr (Nat.pos_of_ne_zero helectorate)
      rw [if_neg hnot]
      cases threshold with
      | superMajorityApprove =>
          simp only [compareRationals_eq hsqrt hsqrt', Passes, VoteThreshold.weights, hpos, true_and]
      | superMajorityAgainst =>
          simp only [compareRationals_eq hsqrt' hsqrt, Passes, VoteThreshold.weights, hpos, true_and]
      | simpleMajority => simp [Passes, VoteThreshold.weights, hpos]

/-- **The thresholds are ordered**: as long as no more has voted than there is, a supermajority of
    approvals is a simple majority, and a simple majority is not a supermajority of rejects. -/
theorem thresholds_ordered (hturnout : t.turnout ≤ electorate) :
    (Passes .superMajorityApprove t electorate → Passes .simpleMajority t electorate) ∧
      (Passes .simpleMajority t electorate → Passes .superMajorityAgainst t electorate) := by
  have hle : t.turnout.sqrt ≤ electorate.sqrt := Nat.sqrt_le_sqrt hturnout
  constructor
  · rintro ⟨hpos, hlt⟩
    refine ⟨hpos, ?_⟩
    simp only [VoteThreshold.weights, Nat.mul_one] at hlt ⊢
    have hlt' : t.nays * t.turnout.sqrt < t.ayes * t.turnout.sqrt :=
      (Nat.mul_le_mul_left _ hle).trans_lt hlt
    exact Nat.lt_of_mul_lt_mul_right hlt'
  · rintro ⟨hpos, hlt⟩
    refine ⟨hpos, ?_⟩
    simp only [VoteThreshold.weights, Nat.mul_one] at hlt ⊢
    have hsqrt : 0 < electorate.sqrt := Nat.sqrt_pos.mpr (hpos.trans_le hturnout)
    calc t.nays * t.turnout.sqrt ≤ t.nays * electorate.sqrt := Nat.mul_le_mul_left _ hle
      _ < t.ayes * electorate.sqrt := Nat.mul_lt_mul_of_pos_right hlt hsqrt

/-! ## One more vote -/

/-- A tally with more ayes and fewer nays. -/
theorem Passes.mono (hayes : t.ayes ≤ t'.ayes) (hnays : t'.nays ≤ t.nays) (hpos : 0 < t'.turnout)
    (hweights : (threshold.weights t'.turnout electorate).1 ≤
      (threshold.weights t.turnout electorate).1 ∧
      (threshold.weights t.turnout electorate).2 ≤ (threshold.weights t'.turnout electorate).2)
    (h : Passes threshold t electorate) : Passes threshold t' electorate :=
  ⟨hpos, ((Nat.mul_le_mul hnays hweights.1).trans_lt h.2).trans_le (Nat.mul_le_mul hayes hweights.2)⟩

variable {max : Nat} {vote : AccountVote} {d : Delegations}

theorem checkedAdd_le {n m k : Nat} (h : Tally.checkedAdd max n m = some k) : n ≤ k ∧ k ≤ max := by
  unfold Tally.checkedAdd at h
  split at h
  · obtain rfl := Option.some.inj h
    omega
  · cases h

/-- A standard vote counts on its side, and as turnout. -/
theorem Tally.enter_standard {approve : Bool} (hvote : vote.asStandard = some approve)
    (h : t.enter max vote d = some t') :
    t.turnout ≤ t'.turnout ∧ (if approve then t.ayes ≤ t'.ayes ∧
      t'.nays = t.nays else t.nays ≤ t'.nays ∧ t'.ayes = t.ayes) := by
  cases vote with
  | split aye nay => cases hvote
  | standard vote balance =>
      obtain rfl := Option.some.inj hvote
      simp only [Tally.enter, Tally.add, AccountVote.asStandard, Option.bind_eq_bind,
        Option.bind_eq_some_iff] at h
      obtain ⟨u, ⟨turnout, hturnout, hu⟩, h⟩ := h
      obtain rfl := Option.some.inj h
      obtain ⟨hle, hmax⟩ := checkedAdd_le hturnout
      cases haye : vote.aye with
      | true =>
          simp only [haye, if_true, Option.bind_eq_some_iff] at hu
          obtain ⟨ayes, hayes, hu⟩ := hu
          obtain rfl := Option.some.inj hu
          obtain ⟨hle', hmax'⟩ := checkedAdd_le hayes
          refine ⟨?_, ?_, rfl⟩
          · show t.turnout ≤ min (turnout + d.capital) max
            omega
          · show t.ayes ≤ min (ayes + d.votes) max
            omega
      | false =>
          simp only [haye, Bool.false_eq_true, if_false, Option.bind_eq_some_iff] at hu
          obtain ⟨nays, hnays, hu⟩ := hu
          obtain rfl := Option.some.inj hu
          obtain ⟨hle', hmax'⟩ := checkedAdd_le hnays
          refine ⟨?_, ?_, rfl⟩
          · show t.turnout ≤ min (turnout + d.capital) max
            omega
          · show t.nays ≤ min (nays + d.votes) max
            omega

/-- **One more vote.** An aye, whatever is delegated to the voter, does not defeat what passes by a
    simple majority or a supermajority of approvals; a nay does not carry what fails by a simple
    majority or a supermajority of rejects. The third threshold of each may turn, because its bar
    moves with the turnout. Ayes without a turnout fail by the check for zero alone, which the
    turnout of a nay lifts. -/
theorem outcome_of_vote (h : t.enter max vote d = some t') :
    (vote.asStandard = some true → threshold ≠ .superMajorityAgainst → Passes threshold t electorate →
        Passes threshold t' electorate) ∧
      (vote.asStandard = some false → threshold ≠ .superMajorityApprove →
        (t.turnout = 0 → t.ayes = 0) →
        Passes threshold t' electorate → Passes threshold t electorate) := by
  constructor
  · intro haye hthreshold hpasses
    obtain ⟨hturnout, hayes, hnays⟩ := Tally.enter_standard haye h
    refine hpasses.mono hayes hnays.le (hpasses.1.trans_le hturnout) ?_
    cases threshold with
    | superMajorityApprove => exact ⟨le_rfl, Nat.sqrt_le_sqrt hturnout⟩
    | superMajorityAgainst => exact absurd rfl hthreshold
    | simpleMajority => exact ⟨le_rfl, le_rfl⟩
  · intro hnay hthreshold hbacked hpasses
    obtain ⟨hturnout, hside⟩ := Tally.enter_standard hnay h
    obtain ⟨hnays, hayes⟩ : t.nays ≤ t'.nays ∧ t'.ayes = t.ayes := hside
    -- Without a turnout there are no ayes either, and a nay adds none.
    have hpos : 0 < t.turnout := by
      refine Nat.pos_of_ne_zero fun hzero => ?_
      have hlt := hpasses.2
      rw [hayes, hbacked hzero, Nat.zero_mul] at hlt
      exact absurd hlt (Nat.not_lt_zero _)
    refine hpasses.mono hayes.le hnays hpos ?_
    cases threshold with
    | superMajorityApprove => exact absurd rfl hthreshold
    | superMajorityAgainst => exact ⟨Nat.sqrt_le_sqrt hturnout, le_rfl⟩
    | simpleMajority => exact ⟨le_rfl, le_rfl⟩

/-- Ayes without a turnout. -/
example : Tally.enter 1000 ⟨5, 0, 0⟩ (.standard ⟨false, .locked1x⟩ 1) .zero = some ⟨5, 1, 1⟩ ∧
    ¬ Passes .simpleMajority ⟨5, 0, 0⟩ 361 ∧ Passes .simpleMajority ⟨5, 1, 1⟩ 361 := by
  decide +kernel

/-- Under a supermajority against, an aye without conviction counts little and
    raises the bar: it defeats. -/
example : Tally.enter 1000 ⟨10, 20, 99⟩ (.standard ⟨true, .none⟩ 9) .zero = some ⟨10, 20, 108⟩ ∧
    Passes .superMajorityAgainst ⟨10, 20, 99⟩ 361 ∧
      ¬ Passes .superMajorityAgainst ⟨10, 20, 108⟩ 361 := by
  decide +kernel

theorem thresholds_ordered_sample : Passes .superMajorityAgainst ⟨100, 50, 150⟩ 210 :=
  (thresholds_ordered (by decide)).2 ((thresholds_ordered (by decide)).1 (by decide +kernel))

/-- An aye on what passes, and a nay on an empty tally. -/
theorem outcome_of_vote_sample : Passes .superMajorityApprove ⟨120, 50, 170⟩ 210 ∧
    (Passes .simpleMajority ⟨0, 1, 1⟩ 210 → Passes .simpleMajority ⟨0, 0, 0⟩ 210) := by
  have haye : Tally.enter 1000 ⟨100, 50, 150⟩ (.standard ⟨true, .locked1x⟩ 20) .zero =
    some ⟨120, 50, 170⟩ := rfl
  have hnay : Tally.enter 1000 ⟨0, 0, 0⟩ (.standard ⟨false, .locked1x⟩ 1) .zero = some ⟨0, 1, 1⟩ :=
    rfl
  exact ⟨(outcome_of_vote haye).1 rfl (by decide) (by decide +kernel),
    (outcome_of_vote hnay).2 rfl (by decide) fun _ => rfl⟩

/-! ## Blocks that are not finished -/

variable {A X H : Type} [DecidableEq A] [DecidableEq X] [DecidableEq H] {cfg : Config A X}
  {c c' : Chain A X H}
variable {last index : Nat} {status : ReferendumStatus X H} {rest : List (Nat × ReferendumStatus X H)}

omit [DecidableEq H] in
/-- **A turn of `begin_block`** decides by the inequality, or panics. -/
theorem bakeReferendum_eq (hphase : c.phase = .maturing last ((index, status) :: rest)) :
    bakeReferendum c =
      if DividesByZero status.threshold status.tally
        (c.pallet.ledger.issuance status.proposalId.asset) then none
      else
        let passes :=
      Passes status.threshold status.tally (c.pallet.ledger.issuance status.proposalId.asset)
        some { c with phase := .enacting last index status (decide passes) rest } := by
  rw [bakeReferendum, hphase]
  simp only [approved_eq]
  split <;> rfl

/-- A referendum with votes is about to be baked, and its asset has no issuance. -/
structure Stuck (last index : Nat) (status : ReferendumStatus X H)
    (rest : List (Nat × ReferendumStatus X H)) (c : Chain A X H) : Prop where
  phase : c.phase = .maturing last ((index, status) :: rest)
  turnout : 0 < status.tally.turnout
  issuance : c.pallet.ledger.issuance status.proposalId.asset = 0
  threshold : status.threshold ≠ .simpleMajority

/-- The asset of the referendum is not issued elsewhere. -/
def Unissued (status : ReferendumStatus X H) (_ : Chain A X H) : Op A X H → Prop
  | .elsewhere ledger => ledger.issuance status.proposalId.asset = 0
  | _ => True

theorem Stuck.step {op : Op A X H} (h : Stuck last index status rest c) (hop : Unissued status c op)
    (hstep : step cfg c op = some c') : Stuck last index status rest c' ∧ c'.now = c.now := by
  cases op with
  | elsewhere ledger =>
      obtain rfl := Option.some.inj hstep
      exact ⟨⟨h.phase, h.turnout, hop, h.threshold⟩, rfl⟩
  | call e =>
      simp only [Democracy.step, h.phase, Phase.dispatches] at hstep
      cases hstep
  | block =>
      simp only [Democracy.step, h.phase] at hstep
      cases hstep
  | begin launched =>
      simp only [Democracy.step, h.phase] at hstep
      cases hstep
  | bake =>
      have hzero : DividesByZero status.threshold status.tally
          (c.pallet.ledger.issuance status.proposalId.asset) :=
        ⟨h.turnout, h.issuance, h.threshold⟩
      simp only [Democracy.step, bakeReferendum_eq h.phase, if_pos hzero] at hstep
      cases hstep
  | finish =>
      simp only [Democracy.step, finishReferendum, h.phase] at hstep
      cases hstep
  | close =>
      simp only [Democracy.step, closeBlock, h.phase] at hstep
      cases hstep

/-- **The chain halts.** Once a referendum with votes on an asset without issuance
    matures, and needs or forbids a supermajority, its block is not finished in any run in
    which the asset is not issued. -/
theorem halts {ops : List (Op A X H)} (h : Stuck last index status rest c)
    (hops : Along (step cfg) (Unissued status) c ops) (hrun : run (step cfg) c ops = some c') :
    c'.phase = c.phase ∧ c'.now = c.now := by
  have hstuck : Stuck last index status rest c' :=
    run_invariant (I := Stuck last index status rest) (fun h hop hstep => (h.step hop hstep).1)
      h hops hrun
  refine ⟨hstuck.phase.trans h.phase.symm, ?_⟩
  -- No operation on a stuck chain reaches the turn that would move its block.
  exact (run_related (I := Stuck last index status rest)
    (R := fun c c' : Chain A X H => c.now = c'.now) (fun _ => rfl)
    Eq.trans (fun h hop hstep => ⟨(h.step hop hstep).1, (h.step hop hstep).2.symm⟩) h hops hrun).symm

/-- Account `1` votes with ten on a referendum of asset `1`. All of the asset is burnt, and
    the referendum matures. -/
def stuckOps : List (Op Nat Nat Nat) :=
  [.call (.start 1 ⟨3, 1⟩ .superMajorityApprove 2),
    .call (.vote (.signed 1) 0 (.standard ⟨true, .locked1x⟩ 10)),
    .elsewhere .empty, .block, .begin none]

theorem halts_sample : ∃ c c', run (step sample) sampleGenesis stuckOps = some c ∧
    run (step sample) c [.elsewhere .empty] = some c' ∧ c'.phase = c.phase ∧ c'.now = c.now := by
  have hc : (run (step sample) sampleGenesis stuckOps).map
      (fun c => (c.phase, c.pallet.ledger.issuance 1)) =
        some (.maturing 1 [(0, ⟨1, ⟨3, 1⟩, .superMajorityApprove, 2, ⟨10, 0, 10⟩⟩)], 0) := by
    decide +kernel
  obtain ⟨c, hc, hview⟩ := Option.map_eq_some_iff.mp hc
  obtain ⟨hphase, hissuance⟩ := Prod.mk.inj hview
  have h : Stuck 1 0 ⟨1, ⟨3, 1⟩, .superMajorityApprove, 2, ⟨10, 0, 10⟩⟩ [] c :=
    ⟨hphase, by decide, hissuance, by decide⟩
  have hops : Along (step sample) (Unissued ⟨1, ⟨3, 1⟩, .superMajorityApprove, 2, ⟨10, 0, 10⟩⟩) c
      [.elsewhere .empty] := ⟨rfl, fun _ _ => trivial⟩
  exact ⟨c, _, hc, rfl, halts h hops rfl⟩

end Democracy
end Composable
