import Composable.Lending.Interest

/-!
# `Lending.Curves` — the rates of valid interest models

A valid jump model goes from its base rate to its jump rate up to the target, and from there to its
full rate. Each leg is a straight line that the fixed-point operations round twice (`leg`), which
never leaves the two rates and never falls; at a target of nothing, or of everything, one of the
legs is a point that is never divided by.

The double exponent model is a fold over its coefficients that squares the utilization at every
step. With coefficients that sum up to a hundred no intermediate value overflows
(`checkedBorrowRate_eq`), and the fold is monotone in the state it starts from.
-/

namespace Composable
namespace Lending

/-! ## Jump models -/

/-- The share of `span` after `share` of `whole`: the product and the quotient are rounded down. -/
def leg (span share whole : Nat) : Nat := span * share / 100 * 100 / whole

theorem leg_le (span : Nat) {share whole : Nat} (h : share ≤ whole) :
    leg span share whole ≤ span := by
  rcases Nat.eq_zero_or_pos whole with rfl | hwhole
  · rw [leg, Nat.div_zero]
    exact Nat.zero_le _
  · refine Nat.div_le_of_le_mul ?_
    calc span * share / 100 * 100 ≤ span * share := Nat.div_mul_le_self _ _
      _ ≤ span * whole := Nat.mul_le_mul_left _ h
      _ = whole * span := Nat.mul_comm _ _

theorem leg_mono {span share share' whole : Nat} (h : share ≤ share') :
    leg span share whole ≤ leg span share' whole :=
  Nat.div_le_div_right (Nat.mul_le_mul_right _ (Nat.div_le_div_right (Nat.mul_le_mul_left _ h)))

namespace JumpModel

variable {m : JumpModel} {utilization utilization' : Nat}

theorem ok_bind {α β : Type} {ε : Type} (a : α) (f : α → Option β) :
    (Except.ok a : Except ε α).toOption.bind f = f a := rfl

theorem interpolate_def {upper lower share whole : Nat} :
    interpolate upper lower share whole = (Fixed.checkedSub upper lower).toOption.bind fun span =>
      (Fixed.safeDiv (Fixed.saturatingMul span (Fixed.ofPercent share))
        (Fixed.ofPercent whole)).toOption.bind
        fun part => (Fixed.safeAdd part lower).toOption := rfl

/-- Up to one, a product by a percentage fits 128 bits, and is rounded down. -/
theorem quotient_ofPercent {n p : Nat} (hn : n ≤ Fixed.div) (hp : p ≤ 100) :
    Fixed.quotient n (Fixed.ofPercent p) Fixed.div = n * p / 100 := by
  have hfits : n * Fixed.ofPercent p ≤ u128Max := by
    calc n * Fixed.ofPercent p ≤ Fixed.div * Fixed.ofPercent 100 :=
          Nat.mul_le_mul hn (Nat.mul_le_mul_right _ hp)
      _ ≤ u128Max := by decide
  rw [Fixed.quotient_eq_div hfits, Fixed.mul_ofPercent]

/-- And so is a quotient by one. -/
theorem quotient_of_percent {n p : Nat} (hn : n ≤ Fixed.div) :
    Fixed.quotient n Fixed.div (Fixed.ofPercent p) = n * 100 / p := by
  have hfits : n * Fixed.div ≤ u128Max := (Nat.mul_le_mul_right _ hn).trans (by decide)
  rw [Fixed.quotient_eq_div hfits, Fixed.div_ofPercent]

/-- Up to one, the operations of a leg neither overflow nor saturate. -/
theorem interpolate_eq {upper lower share whole : Nat} (hle : lower ≤ upper)
    (hupper : upper ≤ Fixed.div)
    (hpercent : share ≤ 100) (hshare : share ≤ whole) (hwhole : 0 < whole) :
    interpolate upper lower share whole = some (lower + leg (upper - lower) share whole) := by
  have hmax : Fixed.div ≤ u128Max := by decide
  have hspan : upper - lower ≤ Fixed.div := (Nat.sub_le _ _).trans hupper
  have hpart_le : (upper - lower) * share / 100 ≤ Fixed.div := by
    refine Nat.div_le_of_le_mul ?_
    calc (upper - lower) * share ≤ Fixed.div * 100 := Nat.mul_le_mul hspan hpercent
      _ = 100 * Fixed.div := Nat.mul_comm _ _
  have hscaled : Fixed.saturatingMul (upper - lower) (Fixed.ofPercent share) =
      (upper - lower) * share / 100 := by
    rw [Fixed.saturatingMul, quotient_ofPercent hspan hpercent]
    exact Fixed.saturated_eq (hpart_le.trans hmax)
  have hpart : Fixed.safeDiv ((upper - lower) * share / 100) (Fixed.ofPercent whole) =
      .ok (leg (upper - lower) share whole) := by
    have hquotient := quotient_of_percent (p := whole) hpart_le
    refine Fixed.safeDiv_ok.mpr ⟨Nat.mul_pos hwhole (show 0 < Fixed.div / 100 by decide), ?_,
      hquotient.symm⟩
    rw [hquotient]
    exact (leg_le _ hshare).trans (hspan.trans hmax)
  have hsum : Fixed.safeAdd (leg (upper - lower) share whole) lower =
      .ok (lower + leg (upper - lower) share whole) := by
    have hfits : leg (upper - lower) share whole + lower ≤ u128Max := by
      have hleg := leg_le (upper - lower) hshare
      omega
    exact Fixed.checked_ok.mpr ⟨hfits, Nat.add_comm _ _⟩
  have hdifference : Fixed.checkedSub upper lower = .ok (upper - lower) :=
    Fixed.checkedSub_ok.mpr ⟨hle, rfl⟩
  rw [interpolate_def, hdifference, ok_bind, hscaled, hpart, ok_bind, hsum]
  rfl

/-- The two legs of a jump model. -/
def rate (m : JumpModel) (utilization : Nat) : Nat :=
  if utilization < m.targetUtilization then
    m.baseRate + leg (m.jumpRate - m.baseRate) utilization m.targetUtilization
  else
    m.jumpRate + leg (m.fullRate - m.jumpRate) (utilization - m.targetUtilization)
      (100 - m.targetUtilization)

theorem getBorrowRate_eq (h : m.Valid) (hpercent : utilization ≤ 100) :
    m.getBorrowRate utilization = some (m.rate utilization) := by
  obtain ⟨-, hjump, hfull, hbase_jump, hjump_full⟩ := h
  unfold getBorrowRate rate
  by_cases hbelow : utilization < m.targetUtilization
  · rw [if_pos hbelow, if_pos hbelow]
    exact interpolate_eq hbase_jump (hjump.trans (by decide)) hpercent hbelow.le (by omega)
  · rw [if_neg hbelow, if_neg hbelow]
    by_cases hequal : utilization = m.targetUtilization
    · rw [if_pos hequal, hequal, Nat.sub_self]
      simp [leg]
    · rw [if_neg hequal]
      exact interpolate_eq hjump_full (hfull.trans (by decide)) (by omega) (by omega) (by omega)

theorem rate_le_jump (h : m.Valid) (hbelow : utilization < m.targetUtilization) :
    m.rate utilization ≤ m.jumpRate := by
  rw [rate, if_pos hbelow]
  have hleg := leg_le (m.jumpRate - m.baseRate) hbelow.le
  have hle := h.2.2.2.1
  omega

theorem jump_le_rate (habove : ¬ utilization < m.targetUtilization) :
    m.jumpRate ≤ m.rate utilization := by
  rw [rate, if_neg habove]
  exact Nat.le_add_right _ _

theorem baseRate_le_rate (h : m.Valid) : m.baseRate ≤ m.rate utilization := by
  by_cases hbelow : utilization < m.targetUtilization
  · rw [rate, if_pos hbelow]
    exact Nat.le_add_right _ _
  · exact h.2.2.2.1.trans (jump_le_rate hbelow)

theorem rate_le_fullRate (h : m.Valid) (hpercent : utilization ≤ 100) :
    m.rate utilization ≤ m.fullRate := by
  by_cases hbelow : utilization < m.targetUtilization
  · exact (rate_le_jump h hbelow).trans h.2.2.2.2
  · rw [rate, if_neg hbelow]
    have hleg := leg_le (m.fullRate - m.jumpRate)
      (Nat.sub_le_sub_right hpercent m.targetUtilization)
    have hle := h.2.2.2.2
    omega

/-- A jump model never falls, and not at its kink either. -/
theorem rate_mono (h : m.Valid) (hle : utilization ≤ utilization') :
    m.rate utilization ≤ m.rate utilization' := by
  by_cases hbelow' : utilization' < m.targetUtilization
  · rw [rate, rate, if_pos hbelow', if_pos (hle.trans_lt hbelow')]
    exact Nat.add_le_add_left (leg_mono hle) _
  · by_cases hbelow : utilization < m.targetUtilization
    · exact (rate_le_jump h hbelow).trans (jump_le_rate hbelow')
    · rw [rate, rate, if_neg hbelow, if_neg hbelow']
      exact Nat.add_le_add_left (leg_mono (Nat.sub_le_sub_right hle _)) _

end JumpModel

/-! ## Double exponent models -/

namespace DoubleExponentModel

variable {m : DoubleExponentModel} {acc acc' : Nat × Nat} {coefficients : List Nat} {c : Nat}
variable {utilization utilization' : Nat}

/-- One more term, with the overflows of the operators of `FixedU128`, which are panics. -/
def checkedTerm (acc : Nat × Nat) (coefficient : Nat) : Except ArithmeticError (Nat × Nat) := do
  let polynomial ← Fixed.safeMul acc.2 acc.2
  let term ← Fixed.safeMul (Fixed.ofInteger coefficient) polynomial
  let rate ← Fixed.safeAdd acc.1 term
  pure (rate, polynomial)

/-- `get_borrow_rate` with the overflows of the operators of `FixedU128`. -/
def checkedBorrowRate (m : DoubleExponentModel) (utilization : Nat) : Except ArithmeticError Nat := do
  let start := (Fixed.ofInteger (m.coefficients.headD 0), Fixed.ofPercent utilization)
  let result ← m.coefficients.tail.foldlM checkedTerm start
  Fixed.safeDiv result.1 (Fixed.ofInteger 100)

/-- A coefficient is a byte. -/
theorem ofInteger_byte (hc : c < 256) : Fixed.ofInteger c = c * Fixed.div :=
  Fixed.ofInteger_eq ((Nat.mul_le_mul_right _ hc.le).trans (by decide))

/-- The powers of the utilization stay up to one, and a term is at most its coefficient. -/
theorem addTerm_le (hc : c < 256) (hacc : acc.2 ≤ Fixed.div) :
    (addTerm acc c).1 ≤ acc.1 + c * Fixed.div ∧ (addTerm acc c).2 ≤ Fixed.div := by
  have hsquare : Fixed.quotient acc.2 acc.2 Fixed.div ≤ Fixed.div :=
    Fixed.quotient_le (Nat.mul_le_mul hacc hacc)
  refine ⟨Nat.add_le_add_left ?_ _, hsquare⟩
  rw [ofInteger_byte hc]
  exact Fixed.quotient_le (Nat.mul_le_mul_left _ hsquare)

theorem addTerm_mono (h : acc ≤ acc') : addTerm acc c ≤ addTerm acc' c := by
  have hsquare : Fixed.quotient acc.2 acc.2 Fixed.div ≤ Fixed.quotient acc'.2 acc'.2 Fixed.div :=
    Fixed.quotient_mono (Nat.mul_le_mul h.2 h.2)
  exact ⟨Nat.add_le_add h.1 (Fixed.quotient_mono (Nat.mul_le_mul_left _ hsquare)), hsquare⟩

/-- **The fold is monotone** in what it starts from. -/
theorem foldl_addTerm_mono (h : acc ≤ acc') :
    coefficients.foldl addTerm acc ≤ coefficients.foldl addTerm acc' := by
  induction coefficients generalizing acc acc' with
  | nil => exact h
  | cons c rest ih => exact ih (addTerm_mono h)

/-- Terms are only added. -/
theorem le_foldl_addTerm (acc : Nat × Nat) (coefficients : List Nat) :
    acc.1 ≤ (coefficients.foldl addTerm acc).1 := by
  induction coefficients generalizing acc with
  | nil => exact Nat.le_refl _
  | cons c rest ih =>
      calc acc.1 ≤ (addTerm acc c).1 := Nat.le_add_right _ _
        _ ≤ (rest.foldl addTerm (addTerm acc c)).1 := ih (addTerm acc c)

/-- They add up to at most the coefficients. -/
theorem foldl_addTerm_le (hbytes : ∀ c ∈ coefficients, c < 256) (hacc : acc.2 ≤ Fixed.div) :
    (coefficients.foldl addTerm acc).1 ≤ acc.1 + coefficients.sum * Fixed.div := by
  induction coefficients generalizing acc with
  | nil => exact Nat.le_add_right _ _
  | cons c rest ih =>
      obtain ⟨hterm, hpower⟩ := addTerm_le (hbytes c List.mem_cons_self) hacc
      calc (rest.foldl addTerm (addTerm acc c)).1
          ≤ (addTerm acc c).1 + rest.sum * Fixed.div :=
            ih (fun d hd => hbytes d (List.mem_cons_of_mem _ hd)) hpower
        _ ≤ acc.1 + c * Fixed.div + rest.sum * Fixed.div := Nat.add_le_add_right hterm _
        _ = acc.1 + (c :: rest).sum * Fixed.div := by rw [List.sum_cons, Nat.add_mul, Nat.add_assoc]

/-- Nothing overflows on the way. -/
theorem foldlM_checkedTerm (hbytes : ∀ c ∈ coefficients, c < 256) (hacc : acc.2 ≤ Fixed.div)
    (hfits : acc.1 + coefficients.sum * Fixed.div ≤ u128Max) :
    coefficients.foldlM checkedTerm acc = .ok (coefficients.foldl addTerm acc) := by
  induction coefficients generalizing acc with
  | nil => rfl
  | cons c rest ih =>
      have hmax : Fixed.div ≤ u128Max := by decide
      have hc := hbytes c List.mem_cons_self
      obtain ⟨hterm, hpower⟩ := addTerm_le hc hacc
      have hsum : acc.1 + c * Fixed.div + rest.sum * Fixed.div ≤ u128Max := by
        rw [List.sum_cons, Nat.add_mul, ← Nat.add_assoc] at hfits
        exact hfits
      have hrate : (addTerm acc c).1 ≤ u128Max := hterm.trans ((Nat.le_add_right _ _).trans hsum)
      have hone : checkedTerm acc c = .ok (addTerm acc c) := by
        refine exceptBind_ok.mpr ⟨_, Fixed.safeMul_ok.mpr ⟨hpower.trans hmax, rfl⟩, ?_⟩
        refine exceptBind_ok.mpr ⟨_,
          Fixed.safeMul_ok.mpr ⟨(Nat.le_add_left _ acc.1).trans hrate, rfl⟩, ?_⟩
        exact exceptBind_ok.mpr ⟨_, Fixed.checked_ok.mpr ⟨hrate, rfl⟩, rfl⟩
      refine exceptBind_ok.mpr ⟨_, hone,
        ih (fun d hd => hbytes d (List.mem_cons_of_mem _ hd)) hpower ?_⟩
      exact (Nat.add_le_add_right hterm _).trans hsum

/-- The first coefficient and the rest make up the whole. -/
theorem Valid.head_add_tail (h : m.Valid) :
    m.coefficients.headD 0 + m.coefficients.tail.sum = 100 := by
  obtain ⟨-, hsum⟩ := h
  rw [← hsum]
  cases m.coefficients with
  | nil => rfl
  | cons c rest => exact (List.sum_cons).symm

theorem Valid.head_lt (h : m.Valid) : m.coefficients.headD 0 < 256 := by
  have hsum := h.head_add_tail
  omega

theorem Valid.tail_lt (h : m.Valid) : ∀ c ∈ m.coefficients.tail, c < 256 := fun c hc =>
  h.1.2 c (List.mem_of_mem_tail hc)

theorem ofPercent_le_div (h : utilization ≤ 100) : Fixed.ofPercent utilization ≤ Fixed.div :=
  (Nat.mul_le_mul_right _ h).trans (by decide)

/-- The sum of all terms. -/
def total (m : DoubleExponentModel) (utilization : Nat) : Nat :=
  (m.coefficients.tail.foldl addTerm (Fixed.ofInteger (m.coefficients.headD 0),
    Fixed.ofPercent utilization)).1

theorem total_le (h : m.Valid) (hpercent : utilization ≤ 100) :
    m.total utilization ≤ 100 * Fixed.div := by
  calc m.total utilization
      ≤ Fixed.ofInteger (m.coefficients.headD 0) + m.coefficients.tail.sum * Fixed.div :=
        foldl_addTerm_le h.tail_lt (ofPercent_le_div hpercent)
    _ = (m.coefficients.headD 0 + m.coefficients.tail.sum) * Fixed.div := by
        rw [ofInteger_byte h.head_lt, Nat.add_mul]
    _ = 100 * Fixed.div := by rw [h.head_add_tail]

/-- The sum is divided in 128 bits. -/
theorem getBorrowRate_eq (h : m.Valid) (hpercent : utilization ≤ 100) :
    m.getBorrowRate utilization = m.total utilization / 100 := by
  have hhundred : Fixed.ofInteger 100 = 100 * Fixed.div := Fixed.ofInteger_eq (by decide)
  have hfits : m.total utilization * Fixed.div ≤ u128Max :=
    (Nat.mul_le_mul_right _ (total_le h hpercent)).trans (by decide)
  show Fixed.quotient (m.total utilization) Fixed.div (Fixed.ofInteger 100) = _
  rw [Fixed.quotient_eq_div hfits, hhundred]
  exact Nat.mul_div_mul_right _ _ (by decide)

/-- **Nothing overflows** in a valid model. -/
theorem checkedBorrowRate_eq (h : m.Valid) (hpercent : utilization ≤ 100) :
    m.checkedBorrowRate utilization = .ok (m.getBorrowRate utilization) := by
  have hfits :
      Fixed.ofInteger (m.coefficients.headD 0) + m.coefficients.tail.sum * Fixed.div ≤ u128Max := by
    rw [ofInteger_byte h.head_lt, ← Nat.add_mul, h.head_add_tail]
    decide
  refine exceptBind_ok.mpr ⟨_, foldlM_checkedTerm h.tail_lt (ofPercent_le_div hpercent) hfits,
    Fixed.safeDiv_ok.mpr ⟨by decide, ?_, rfl⟩⟩
  show m.getBorrowRate utilization ≤ u128Max
  rw [getBorrowRate_eq h hpercent]
  exact (Nat.div_le_self _ _).trans ((total_le h hpercent).trans (by decide))

theorem getBorrowRate_le (h : m.Valid) (hpercent : utilization ≤ 100) :
    m.getBorrowRate utilization ≤ Fixed.div := by
  rw [getBorrowRate_eq h hpercent]
  exact Nat.div_le_of_le_mul (total_le h hpercent)

theorem le_getBorrowRate (h : m.Valid) (hpercent : utilization ≤ 100) :
    Fixed.ofPercent (m.coefficients.headD 0) ≤ m.getBorrowRate utilization := by
  rw [getBorrowRate_eq h hpercent, Nat.le_div_iff_mul_le (by decide)]
  have hdiv : Fixed.div / 100 * 100 = Fixed.div := by decide
  calc Fixed.ofPercent (m.coefficients.headD 0) * 100
      = Fixed.ofInteger (m.coefficients.headD 0) := by
        rw [ofInteger_byte h.head_lt, Fixed.ofPercent, Nat.mul_assoc, hdiv]
    _ ≤ m.total utilization := le_foldl_addTerm (_, _) _

theorem getBorrowRate_mono (hle : utilization ≤ utilization') :
    m.getBorrowRate utilization ≤ m.getBorrowRate utilization' := by
  have hstart :
      ((Fixed.ofInteger (m.coefficients.headD 0), Fixed.ofPercent utilization) : Nat × Nat) ≤
      (Fixed.ofInteger (m.coefficients.headD 0), Fixed.ofPercent utilization') :=
    ⟨Nat.le_refl _, Nat.mul_le_mul_right _ hle⟩
  exact Fixed.quotient_mono (Nat.mul_le_mul_right _ (foldl_addTerm_mono hstart).1)

end DoubleExponentModel

/-! ## Sane rates -/

/-- **Valid models give sane rates.** A valid jump model always has a rate, from its base rate to
    its full rate, and a valid double exponent model one from its first coefficient to one, without
    an overflow on the way. Neither falls with the utilization. -/
theorem rates_sane :
    (∀ m : JumpModel, m.Valid → ∀ utilization ≤ 100, ∃ rate,
      m.getBorrowRate utilization = some rate ∧ m.baseRate ≤ rate ∧ rate ≤ m.fullRate ∧
        ∀ utilization', utilization ≤ utilization' → utilization' ≤ 100 →
          ∃ rate', m.getBorrowRate utilization' = some rate' ∧ rate ≤ rate') ∧
    (∀ m : DoubleExponentModel, m.Valid → ∀ utilization ≤ 100,
      m.checkedBorrowRate utilization = .ok (m.getBorrowRate utilization) ∧
        m.getBorrowRate utilization ≤ Fixed.div ∧
        Fixed.ofPercent (m.coefficients.headD 0) ≤ m.getBorrowRate utilization ∧
          ∀ utilization', utilization ≤ utilization' → utilization' ≤ 100 →
            m.getBorrowRate utilization ≤ m.getBorrowRate utilization') := by
  refine ⟨fun m h utilization hpercent => ?_, fun m h utilization hpercent => ?_⟩
  -- The jump model computes without an error, so its rate is that of the exact formula.
  · refine ⟨m.rate utilization, JumpModel.getBorrowRate_eq h hpercent, JumpModel.baseRate_le_rate h,
      JumpModel.rate_le_fullRate h hpercent, fun utilization' hle hpercent' => ?_⟩
    exact ⟨m.rate utilization', JumpModel.getBorrowRate_eq h hpercent', JumpModel.rate_mono h hle⟩
  · exact ⟨DoubleExponentModel.checkedBorrowRate_eq h hpercent,
      DoubleExponentModel.getBorrowRate_le h hpercent,
      DoubleExponentModel.le_getBorrowRate h hpercent, fun _ hle _ =>
        DoubleExponentModel.getBorrowRate_mono hle⟩

/-- From two percent over ten to thirty-two, with the kink at eighty. -/
def sampleJump : JumpModel := ⟨Fixed.div * 2 / 100, Fixed.div * 10 / 100, Fixed.div * 32 / 100, 80⟩

/-- Ten percent, ten more of the square of the utilization, and eighty of its fourth power. -/
def sampleCoefficients : DoubleExponentModel := ⟨[10, 10, 80, 0, 0, 0, 0, 0, 0, 0, 0, 0, 0, 0, 0, 0]⟩

theorem rates_sane_sample :
    (∃ rate, sampleJump.getBorrowRate 79 = some rate ∧ sampleJump.baseRate ≤ rate ∧
      rate ≤ sampleJump.fullRate ∧
      ∃ rate', sampleJump.getBorrowRate 81 = some rate' ∧ rate ≤ rate') ∧
    sampleCoefficients.getBorrowRate 79 ≤ Fixed.div ∧
      Fixed.ofPercent 10 ≤ sampleCoefficients.getBorrowRate 79 ∧
        sampleCoefficients.getBorrowRate 79 ≤ sampleCoefficients.getBorrowRate 81 := by
  have hjump : sampleJump.Valid := by
    unfold JumpModel.Valid
    decide
  have hcoefficients : sampleCoefficients.Valid := by
    unfold DoubleExponentModel.Valid DoubleExponentModel.WellFormed
    decide
  obtain ⟨rate, hrate, hbase, hfull, hmono⟩ := rates_sane.1 sampleJump hjump 79 (by decide)
  obtain ⟨-, hone, hfirst, hmono'⟩ := rates_sane.2 sampleCoefficients hcoefficients 79 (by decide)
  exact ⟨⟨rate, hrate, hbase, hfull, hmono 81 (by decide) (by decide)⟩, hone, hfirst,
    hmono' 81 (by decide) (by decide)⟩

end Lending
end Composable
