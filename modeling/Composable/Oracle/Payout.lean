import Composable.Oracle.Aggregation

/-!
# `Oracle.Payout` — who is rewarded and who is slashed

`handle_payout` measures every answer by the fraction of the price that its distance leaves,
in percent, and slashes what is below the threshold. The fraction is that of zero by zero
when the price is zero, and that is no percent: then an answer of exactly the price is
slashed like any other (`payout_iff`).

The fraction is approximated (`Config.fromRational`). What is used of it is that it grows with the
numerator and is exact for none and for all of one (`Rounds`).
-/

namespace Composable
namespace Oracle

variable {A X : Type} [DecidableEq A]
variable {cfg : Config A X} {s : State A X} {controllers : A → Option A} {l : Ledger A Unit}
  {info : AssetInfo}
variable {price n m : Nat} {answer : PrePrice A} {answers : List (PrePrice A)}

/-! ## Fractions -/

/-- What `PerThing::from_rational` says of its rounding. -/
structure Rounds (fraction : Nat → Nat → Nat) : Prop where
  mono : ∀ {p p' : Nat} (q : Nat), p ≤ p' → fraction p q ≤ fraction p' q
  all : ∀ {q : Nat}, 0 < q → fraction q q = 100
  none : ∀ q : Nat, fraction 0 q = 0

/-- Reducing both numbers first does. -/
theorem rounds_percentFromRational : Rounds Fixed.percentFromRational where
  mono _ hle := Fixed.perThingFromRational_mono hle
  all hpos := Fixed.perThingFromRational_self (by decide) hpos
  none _ := Fixed.zero_perThingFromRational

/-! ## Verdicts -/

/-- How far a number is from the price. -/
def distance (price n : Nat) : Nat := (n - price) + (price - n)

omit [DecidableEq A] in
/-- On either side it is the distance that counts. -/
theorem accuracy_eq : cfg.accuracy n price = cfg.fromRational (price - distance price n) price := by
  unfold Config.accuracy distance
  split
  · have hbelow : price - ((n - price) + (price - n)) = n := by omega
    rw [hbelow]
  · have habove : price - ((n - price) + (price - n)) = price - (n - price) := by omega
    rw [habove]

omit [DecidableEq A] in
theorem accuracy_antitone (hrounds : Rounds cfg.fromRational)
    (h : distance price m ≤ distance price n) : cfg.accuracy n price ≤ cfg.accuracy m price := by
  rw [accuracy_eq, accuracy_eq]
  exact hrounds.mono price (Nat.sub_le_sub_left h price)

omit [DecidableEq A] in
/-- The price itself is as accurate as can be, unless it is zero. -/
theorem accuracy_self (hrounds : Rounds cfg.fromRational) :
    cfg.accuracy price price = if price = 0 then 0 else 100 := by
  have hdistance : price - distance price price = price := by
    unfold distance
    omega
  rw [accuracy_eq, hdistance]
  split
  · rename_i hzero
    rw [hzero]
    exact hrounds.none 0
  · rename_i hpositive
    exact hrounds.all (Nat.pos_of_ne_zero hpositive)

inductive Verdict where
  | rewarded
  | slashed
deriving DecidableEq

/-- What becomes of an answer. -/
def Config.verdict (cfg : Config A X) (price : Nat) (info : AssetInfo) (answer : PrePrice A) :
    Verdict :=
  if cfg.accuracy answer.price price < info.threshold then .slashed else .rewarded

omit [DecidableEq A] in
theorem rewarded_iff : cfg.verdict price info answer = .rewarded ↔
    info.threshold ≤ cfg.accuracy answer.price price := by
  unfold Config.verdict
  split
  · rename_i hslashed
    exact ⟨nofun, fun h => absurd hslashed (Nat.not_lt.mpr h)⟩
  · rename_i hrewarded
    exact ⟨fun _ => Nat.not_lt.mp hrewarded, fun _ => rfl⟩

/-- The answers and their verdicts, one for each: an account is slashed, or its controller gets the
reward if the ledger takes it. -/
def Config.settle (cfg : Config A X) (controllers : A → Option A) (info : AssetInfo)
    (l : Ledger A Unit) (settled : PrePrice A × Verdict) : Ledger A Unit :=
  match settled.2 with
  | .slashed => l.slash () settled.1.who info.slash
  | .rewarded =>
      let controller := (controllers settled.1.who).getD settled.1.who
      if cfg.currency.mintRefused l () controller info.reward = none then
        l.mint () controller info.reward
      else l

theorem settle_verdict (l : Ledger A Unit) (answer : PrePrice A) :
    cfg.settle controllers info l (answer, cfg.verdict price info answer) =
      cfg.paidOut controllers price info l answer := by
  unfold Config.settle Config.paidOut Config.verdict
  by_cases hslashed : cfg.accuracy answer.price price < info.threshold
  · simp only [if_pos hslashed]
  · simp only [if_neg hslashed]

/-- A payout settles each answer once, with its verdict. -/
theorem foldl_settle (answers : List (PrePrice A)) (l : Ledger A Unit) :
    (answers.map fun answer => (answer, cfg.verdict price info answer)).foldl
      (cfg.settle controllers info) l =
      answers.foldl (cfg.paidOut controllers price info) l := by
  induction answers generalizing l with
  | nil => rfl
  | cons answer answers ih =>
      rw [List.map_cons, List.foldl_cons, List.foldl_cons, settle_verdict]
      exact ih _

/-! ## Only deviation is punished -/

/-- A payout of the answers with these verdicts punishes deviation only. -/
structure PunishesDeviation (cfg : Config A X) (price : Nat) (info : AssetInfo)
    (answers : List (PrePrice A)) (verdict : PrePrice A → Verdict) : Prop where
  /-- Each answer is settled once, and nothing else happens to the ledger. -/
  once : ∀ s : State A X, handlePayout cfg answers price info s =
    (.ok (), { s.removeTransits (answers.map PrePrice.who) info.slash with
      ledger := (answers.map fun answer => (answer, verdict answer)).foldl
        (cfg.settle s.signerToController info) s.ledger })
  equal : ∀ answer ∈ answers, answer.price = price → verdict answer = .rewarded
  /-- On one side, who is not farther away is not worse off. -/
  monotone : ∀ answer ∈ answers, ∀ nearer ∈ answers,
    (answer.price ≤ price ∧ nearer.price ≤ price) ∨ (price ≤ answer.price ∧ price ≤ nearer.price) →
      distance price nearer.price ≤ distance price answer.price →
        verdict answer = .rewarded → verdict nearer = .rewarded

/-- **A payout punishes deviation only exactly when the price is positive**, or there is no
threshold, or no answer is zero. -/
theorem payout_iff (hrounds : Rounds cfg.fromRational) (hthreshold : info.threshold ≤ 100) :
    PunishesDeviation cfg price info answers (cfg.verdict price info) ↔
      price ≠ 0 ∨ info.threshold = 0 ∨ ∀ answer ∈ answers, answer.price ≠ 0 := by
  constructor
  · intro hpunishes
    by_contra hno
    -- An answer of zero to a price of zero has an accuracy of zero, and is slashed.
    obtain ⟨hzero, hpositive, hanswer⟩ : price = 0 ∧ info.threshold ≠ 0 ∧
        ∃ answer ∈ answers, answer.price = 0 := by
      push Not at hno
      exact hno
    obtain ⟨answer, hanswer, hprice⟩ := hanswer
    have hrewarded := rewarded_iff.mp (hpunishes.equal answer hanswer (hprice.trans hzero.symm))
    rw [hprice, hzero, accuracy_self hrounds, if_pos rfl] at hrewarded
    exact hpositive (Nat.le_zero.mp hrewarded)
  · intro hcondition
    refine ⟨fun s => ?_, fun answer hanswer hequal => ?_,
      fun answer _ nearer _ _ hnearer hrewarded => ?_⟩
    · rw [foldl_settle]
      exact handlePayout_eq s answers
    · rw [rewarded_iff, hequal, accuracy_self hrounds]
      split
      · rename_i hzero
        -- An answer that equals the price has full accuracy, unless both are zero.
        rcases hcondition with hpositive | hnothing | hnone
        · exact absurd hzero hpositive
        · exact hnothing.le
        · exact absurd (hequal.trans hzero) (hnone answer hanswer)
      · exact hthreshold
    · exact rewarded_iff.mpr ((rewarded_iff.mp hrewarded).trans (accuracy_antitone hrounds hnearer))

/-- The threshold of `sample` assets. -/
def strict : AssetInfo := ⟨80, 1, 5, 5, 5, 5⟩

theorem payout_sample : PunishesDeviation sample 100 strict [⟨100, 1, 1⟩, ⟨85, 1, 3⟩, ⟨130, 1, 5⟩]
    (sample.verdict 100 strict) :=
  (payout_iff rounds_percentFromRational (by decide)).mpr (.inl (by decide))

/-- **An answer of nothing, when the price is nothing**, is slashed. -/
theorem payout_at_zero :
    ¬ ∀ (cfg : Config Nat Nat) (price : Nat) (info : AssetInfo) (answers : List (PrePrice Nat)),
    Rounds cfg.fromRational → info.threshold ≤ 100 →
      PunishesDeviation cfg price info answers (cfg.verdict price info) := by
  intro hall
  have hpunishes := hall sample 0 strict [⟨0, 1, 1⟩] rounds_percentFromRational (by decide)
  exact absurd (hpunishes.equal _ (List.mem_singleton.mpr rfl) rfl) (by decide)

end Oracle
end Composable
