import Composable.Lending.Books
import Composable.Lending.Validity

/-!
# `Lending.Rates` — the rates of a model with memory

`get_borrow_rate` takes its model by mutable reference: a PID controller carries an error,
an integral term and a rate from call to call. An accrual asks a copy of the stored model
and never writes it back, so all accruals ask the same model, the one the market was created
with (`stateful_rates_iff`). The second rate is already another one than a model with memory
would give (`rate_forgotten`).

What the copy forgets are three terms (`forgotten`): how far the last call moved the rate, the
integral over the earlier errors, and the last error, from which the derivative is taken. The rates
are those of a model with memory exactly where these terms cancel, or where the rate is cut off at
zero or at the bound with them and without.
-/

namespace Composable
namespace Lending

/-- What one model value answers, carrying its terms from call to call. -/
def InterestRateModel.answers :
    InterestRateModel → List Nat → List (Except (DispatchError Empty) (Option Nat))
  | _, [] => []
  | model, utilization :: rest =>
      (getBorrowRate utilization model).1 :: answers (getBorrowRate utilization model).2 rest

/-! ## The controller -/

/-- The product of two signed fixed-point numbers, without the bound. -/
def signedProduct (a b : Int) : Int := a.sign * b.sign * Fixed.quotient a.natAbs b.natAbs Fixed.div

/-- A signed 128-bit integer. -/
def FitsSigned (n : Int) : Prop := i128Min ≤ n ∧ n ≤ i128Max

instance (n : Int) : Decidable (FitsSigned n) := inferInstanceAs (Decidable (_ ∧ _))

theorem checkedSigned_eq {n k : Int} : checkedSigned n = some k ↔ FitsSigned n ∧ n = k := by
  unfold checkedSigned
  split
  next h => exact ⟨fun heq => ⟨h, Option.some.inj heq⟩, fun heq => congrArg some heq.2⟩
  next h => exact ⟨nofun, fun heq => absurd heq.1 h⟩

theorem signedMul_eq {a b k : Int} :
    signedMul a b = some k ↔ FitsSigned (signedProduct a b) ∧ signedProduct a b = k :=
  checkedSigned_eq

namespace DynamicPIDControllerModel

variable {m : DynamicPIDControllerModel} {integral last e : Int}

/-- `et = uo - ut`, for a utilisation in percent. -/
def error (m : DynamicPIDControllerModel) (utilization : Nat) : Int :=
  toSigned m.targetUtilization - toSigned (Fixed.ofPercent utilization)

/-- `ut = pt + it + dt` for the error `e`, with the integral term and the error of the last call. -/
def control (m : DynamicPIDControllerModel) (integral last e : Int) : Int :=
  signedProduct m.proportionalParameter e + (integral + signedProduct m.integralParameter e) +
    signedProduct m.derivativeParameter (e - last)

/-- Nothing overflows on the way. -/
def Fits (m : DynamicPIDControllerModel) (integral last e : Int) : Prop :=
  (∀ n ∈ [signedProduct m.proportionalParameter e, signedProduct m.integralParameter e,
      integral + signedProduct m.integralParameter e, e - last,
      signedProduct m.derivativeParameter (e - last),
      signedProduct m.proportionalParameter e + (integral + signedProduct m.integralParameter e),
      m.control integral last e], FitsSigned n) ∧
    i128Min < m.control integral last e

instance (m : DynamicPIDControllerModel) (integral last e : Int) :
    Decidable (m.Fits integral last e) :=
  inferInstanceAs (Decidable (_ ∧ _))

/-- A call answers the moved rate, and keeps its three terms. -/
theorem getOutputUtilizationRatio_ok {m' : DynamicPIDControllerModel} {utilization rate : Nat} :
    getOutputUtilizationRatio (Fixed.ofPercent utilization) m = (.ok rate, m') ↔
      m.Fits m.previousIntegralTerm m.previousErrorValue (m.error utilization) ∧
      rate = adjusted m.previousInterestRate
        (m.control m.previousIntegralTerm m.previousErrorValue (m.error utilization)) ∧
      m' = { m with
        previousIntegralTerm :=
      m.previousIntegralTerm + signedProduct m.integralParameter (m.error utilization)
        previousErrorValue := m.error utilization
        previousInterestRate := rate } := by
  simp only [getOutputUtilizationRatio, Call.get_bind, Call.bind_ok, Call.ofOption_ok,
    Call.modify_ok, Call.ensure_ok, Call.pure_ok, signedMul_eq, checkedSigned_eq, and_assoc,
    exists_and_left, exists_eq_left', exists_eq_left, exists_const]
  simp only [Fits, List.forall_mem_cons, List.not_mem_nil, false_implies, implies_true, true_and,
    and_assoc, control, error]
  -- The model keeps the rate that is answered.
  constructor
  · rintro ⟨hpt, hincrement, hit, hchange, hdt, hsum, hut, hnegated, rfl, rfl⟩
    exact ⟨hpt, hincrement, hit, hchange, hdt, hsum, hut, hnegated, rfl, rfl⟩
  · rintro ⟨hpt, hincrement, hit, hchange, hdt, hsum, hut, hnegated, rfl, rfl⟩
    exact ⟨hpt, hincrement, hit, hchange, hdt, hsum, hut, hnegated, rfl, rfl⟩

/-- The rate stays between zero and the bound. -/
theorem adjusted_eq {rate : Nat} (ut : Int) (h : rate ≤ u128Max) :
    (adjusted rate ut : Int) = max 0 (min (rate + ut) u128Max) := by
  unfold adjusted Fixed.saturated
  generalize u128Max = bound at *
  split <;> omega

/-! ### What the stored model forgets -/

/-- The rate that the stored model answers to the error `e`. -/
def rateAt (m : DynamicPIDControllerModel) (e : Int) : Nat :=
  adjusted m.previousInterestRate (m.control m.previousIntegralTerm m.previousErrorValue e)

/-- What it lacks at the error `e`, if the terms of calls before were carried: the
    move of the rate by the last one, the integral `grown` over all, and the
    derivative from the error of the last. -/
def forgotten (m : DynamicPIDControllerModel) (grown last e : Int) : Int :=
  (m.rateAt last - m.previousInterestRate) + grown +
    (signedProduct m.derivativeParameter (e - last) - signedProduct m.derivativeParameter
      (e - m.previousErrorValue))

/-- What it lacks cancels, or the rate is cut off at zero or at the bound with it and without. -/
def Indifferent (m : DynamicPIDControllerModel) (grown last e : Int) : Prop :=
  let rate : Int := m.previousInterestRate + m.control m.previousIntegralTerm m.previousErrorValue e
  m.forgotten grown last e = 0 ∨
    (rate ≤ 0 ∧ rate + m.forgotten grown last e ≤ 0) ∨
      (u128Max ≤ rate ∧ u128Max ≤ rate + m.forgotten grown last e)

instance (m : DynamicPIDControllerModel) (grown last e : Int) :
    Decidable (m.Indifferent grown last e) :=
  inferInstanceAs (Decidable (_ ∨ _ ∨ _))

/-- So it is at each of the utilisations that follow calls with the error `last` at the
    end, and nothing overflows. -/
def ForgetsNothing (m : DynamicPIDControllerModel) (grown last : Int) : List Nat → Prop
  | [] => True
  | utilization :: rest =>
      let e := m.error utilization
      m.Fits (m.previousIntegralTerm + grown) last e ∧ m.Indifferent grown last e ∧
        m.ForgetsNothing (grown + signedProduct m.integralParameter e) e rest

/-- The first of the utilisations has no calls before it. -/
def Indistinct (m : DynamicPIDControllerModel) : List Nat → Prop
  | [] => True
  | utilization :: rest =>
      m.ForgetsNothing (signedProduct m.integralParameter (m.error utilization))
        (m.error utilization) rest

/-- The model after calls that were carried. -/
def carried (m : DynamicPIDControllerModel) (grown last : Int) : DynamicPIDControllerModel :=
  { m with
    previousIntegralTerm := m.previousIntegralTerm + grown
    previousErrorValue := last
    previousInterestRate := m.rateAt last }

variable (m e) in
theorem rateAt_le (h : m.previousInterestRate ≤ u128Max) : m.rateAt e ≤ u128Max := by
  have hrate := adjusted_eq (m.control m.previousIntegralTerm m.previousErrorValue e) h
  have hle : (m.rateAt e : Int) ≤ u128Max := by
    rw [rateAt, hrate]
    exact max_le (Int.natCast_nonneg _) (min_le_right _ _)
  exact_mod_cast hle

/-- The carried model moves the rate by as much as the stored one exactly where
    nothing makes a difference. -/
theorem indifferent_iff {grown : Int} (h : m.previousInterestRate ≤ u128Max) :
    adjusted (m.rateAt last) (m.control (m.previousIntegralTerm + grown) last e) = m.rateAt e ↔
      m.Indifferent grown last e := by
  have hcarried :=
    adjusted_eq (m.control (m.previousIntegralTerm + grown) last e) (rateAt_le m last h)
  have hstored := adjusted_eq (m.control m.previousIntegralTerm m.previousErrorValue e) h
  have hmoved : (m.rateAt last + m.control (m.previousIntegralTerm + grown) last e : Int) =
      m.previousInterestRate + m.control m.previousIntegralTerm m.previousErrorValue e +
        m.forgotten grown last e := by
    unfold forgotten control
    ring
  rw [hmoved] at hcarried
  rw [← Int.ofNat_inj, hcarried, rateAt, hstored, Indifferent]
  generalize (m.previousInterestRate + m.control m.previousIntegralTerm m.previousErrorValue
    e : Int) = rate
  generalize m.forgotten grown last e = lacking
  have hbound : (0 : Int) < u128Max := by decide
  generalize (u128Max : Int) = bound at *
  omega

end DynamicPIDControllerModel

section Answers

open DynamicPIDControllerModel

variable {m : DynamicPIDControllerModel} {utilization rate : Nat} {grown last : Int}

/-- What a controller answers, and what it keeps. -/
theorem getBorrowRate_controller {model : InterestRateModel} :
    InterestRateModel.getBorrowRate utilization (.dynamicPIDController m) = (.ok (some rate), model) ↔
      m.Fits m.previousIntegralTerm m.previousErrorValue (m.error utilization) ∧
      rate = adjusted m.previousInterestRate
        (m.control m.previousIntegralTerm m.previousErrorValue (m.error utilization)) ∧
      model = .dynamicPIDController { m with
        previousIntegralTerm :=
      m.previousIntegralTerm + signedProduct m.integralParameter (m.error utilization)
        previousErrorValue := m.error utilization
        previousInterestRate := rate } := by
  simp only [InterestRateModel.getBorrowRate]
  constructor
  · intro h
    split at h
    next rate' m' hcall =>
      simp only [Prod.mk.injEq, Except.ok.injEq, Option.some.injEq] at h
      obtain ⟨rfl, rfl⟩ := h
      obtain ⟨hfits, hrate, rfl⟩ := getOutputUtilizationRatio_ok.mp hcall
      exact ⟨hfits, hrate, rfl⟩
    next => cases h
    next => cases h
  · rintro ⟨hfits, hrate, rfl⟩
    rw [getOutputUtilizationRatio_ok.mpr ⟨hfits, hrate, rfl⟩]

/-- The stored model answers the rate of the error. -/
theorem stored_rate (h : (InterestRateModel.getBorrowRate utilization (.dynamicPIDController m)).1 =
    .ok (some rate)) :
    rate = m.rateAt (m.error utilization) := (getBorrowRate_controller.mp (Prod.ext h rfl)).2.1

/-- The carried model answers the same exactly where nothing makes a difference. -/
theorem getBorrowRate_carried (hbound : m.previousInterestRate ≤ u128Max) :
    (InterestRateModel.getBorrowRate utilization (.dynamicPIDController (m.carried grown last))).1 =
        .ok (some (m.rateAt (m.error utilization))) ↔
      m.Fits (m.previousIntegralTerm + grown) last (m.error utilization) ∧
        m.Indifferent grown last (m.error utilization) := by
  constructor
  · intro h
    obtain ⟨hfits, hrate, -⟩ := getBorrowRate_controller.mp (Prod.ext h rfl)
    exact ⟨hfits, (indifferent_iff hbound).mp hrate.symm⟩
  · rintro ⟨hfits, hindifferent⟩
    have hrate := ((indifferent_iff hbound).mpr hindifferent).symm
    exact congrArg Prod.fst (getBorrowRate_controller.mpr ⟨hfits, hrate, rfl⟩)

/-- And it goes on carrying. -/
theorem carried_next (h : (InterestRateModel.getBorrowRate utilization
      (.dynamicPIDController (m.carried grown last))).1 =
        .ok (some (m.rateAt (m.error utilization)))) :
    (InterestRateModel.getBorrowRate utilization (.dynamicPIDController (m.carried grown last))).2 =
      .dynamicPIDController
        (m.carried (grown + signedProduct m.integralParameter (m.error utilization))
          (m.error utilization)) := by
  obtain ⟨-, -, hmodel⟩ := getBorrowRate_controller.mp (Prod.ext h rfl)
  exact hmodel.trans (congrArg (fun integral => InterestRateModel.dynamicPIDController { m with
    previousIntegralTerm := integral
    previousErrorValue := m.error utilization
    previousInterestRate := m.rateAt (m.error utilization) }) (Int.add_assoc ..))

/-- **Carried terms make no difference** exactly where nothing is forgotten. The induction is on the
    utilisations; the terms of the calls before are in the carried model. -/
theorem answers_carried (hbound : m.previousInterestRate ≤ u128Max) {utilizations : List Nat}
    (hstored : ∀ utilization ∈ utilizations, ∃ rate,
      (InterestRateModel.getBorrowRate utilization (.dynamicPIDController m)).1 = .ok (some rate)) :
    utilizations.map (fun utilization =>
      (InterestRateModel.getBorrowRate utilization (.dynamicPIDController m)).1) =
        (InterestRateModel.dynamicPIDController (m.carried grown last)).answers utilizations ↔
      m.ForgetsNothing grown last utilizations := by
  induction utilizations generalizing grown last with
  | nil => exact iff_of_true rfl trivial
  | cons utilization rest ih =>
      obtain ⟨rate, hrate⟩ := hstored utilization (List.mem_cons_self ..)
      have hrest : ∀ grown last,
          rest.map (fun utilization =>
              (InterestRateModel.getBorrowRate utilization (.dynamicPIDController m)).1) =
              (InterestRateModel.dynamicPIDController (m.carried grown last)).answers rest ↔
            m.ForgetsNothing grown last rest :=
              fun _ _ => ih fun u hu => hstored u (List.mem_cons_of_mem _ hu)
      obtain rfl := stored_rate hrate
      rw [List.map_cons, InterestRateModel.answers, List.cons.injEq, hrate]
      constructor
      · rintro ⟨hanswer, htail⟩
        obtain ⟨hfits, hindifferent⟩ := (getBorrowRate_carried hbound).mp hanswer.symm
        rw [carried_next hanswer.symm] at htail
        exact ⟨hfits, hindifferent, (hrest _ _).mp htail⟩
      · rintro ⟨hfits, hindifferent, htail⟩
        have hanswer := (getBorrowRate_carried hbound).mpr ⟨hfits, hindifferent⟩
        rw [hanswer, carried_next hanswer]
        exact ⟨rfl, (hrest _ _).mpr htail⟩

/-- The first call carries nothing. -/
theorem answers_iff (hbound : m.previousInterestRate ≤ u128Max) {utilizations : List Nat}
    (hstored : ∀ utilization ∈ utilizations, ∃ rate,
      (InterestRateModel.getBorrowRate utilization (.dynamicPIDController m)).1 = .ok (some rate)) :
    utilizations.map (fun utilization =>
      (InterestRateModel.getBorrowRate utilization (.dynamicPIDController m)).1) =
        (InterestRateModel.dynamicPIDController m).answers utilizations ↔
          m.Indistinct utilizations := by
  cases utilizations with
  | nil => exact iff_of_true rfl trivial
  | cons utilization rest =>
      obtain ⟨rate, hrate⟩ := hstored utilization (List.mem_cons_self ..)
      obtain ⟨-, -, hmodel⟩ := getBorrowRate_controller.mp (Prod.ext hrate rfl)
      obtain rfl := stored_rate hrate
      have hcarried : (InterestRateModel.getBorrowRate utilization (.dynamicPIDController m)).2 =
        .dynamicPIDController
          (m.carried (signedProduct m.integralParameter (m.error utilization))
            (m.error utilization)) := hmodel
      rw [List.map_cons, InterestRateModel.answers, List.cons.injEq, and_iff_right rfl, hcarried,
        answers_carried hbound fun u hu => hstored u (List.mem_cons_of_mem _ hu)]
      rfl

end Answers

variable {A X F : Type} [DecidableEq A] [DecidableEq X]
variable {cfg : Config A X F} {s s' : State A X F} {m now : Nat}

/-- The accrual of market `m` in a block start that is kept. -/
def blockAccrual (cfg : Config A X F) (m : Nat) (s : State A X F) : Op A X → Option Accrual
  | .initializeBlock now =>
      if (run (turn cfg now) s (cfg.iteration s.markets.keys)).isSome = true then
        (accrual cfg m now s).1.toOption
      else none
  | _ => none

omit [DecidableEq A] [DecidableEq X] in
/-- An accrual asks the stored model. -/
theorem accrual_rate {config : MarketConfig A X} {a : Accrual}
    (hmarket : s.markets.lookup m = some config) (h : accrual cfg m now s = (.ok a, s')) :
    (config.interestRateModel.getBorrowRate a.utilization).1 = .ok (some a.rate) := by
  obtain ⟨-, _, _, config', _, -, -, hmarket', -, -, -, hrate, -⟩ := accrual_ok.mp h
  rw [hmarket] at hmarket'
  obtain rfl := Option.some.inj hmarket'
  exact hrate

/-- The accrual of a kept block start. -/
theorem blockAccrual_eq {op : Op A X} {a : Accrual} (h : blockAccrual cfg m s op = some a) :
    ∃ now t, op = .initializeBlock now ∧
      run (turn cfg now) s (cfg.iteration s.markets.keys) = some t ∧
      accrual cfg m now s = (.ok a, s) := by
  cases op with
  | initializeBlock now =>
      simp only [blockAccrual, Option.ite_none_right_eq_some] at h
      obtain ⟨hkept, hcomputed⟩ := h
      obtain ⟨t, ht⟩ := Option.isSome_iff_exists.mp hkept
      exact ⟨now, t, rfl, ht, accrual_reads.ok_of_toOption hcomputed⟩
  | _ => cases h

/-- Its index is the one that is stored after the block start. -/
theorem blockAccrual_stored {config : MarketConfig A X} {op : Op A X} {a : Accrual}
    (hr : Registered cfg s)
    (h : Separated cfg s) (hmarket : s.markets.lookup m = some config)
    (haccrual : blockAccrual cfg m s op = some a)
    (hstep : step cfg s op = some s') : s'.borrowIndex m = some a.index := by
  obtain ⟨now, t, rfl, hrun, hcomputed⟩ := blockAccrual_eq haccrual
  obtain ⟨_, hblock⟩ := Call.success_eq_some.mp hstep
  rcases initializeBlock_ok hblock with ⟨hnone, -⟩ | ⟨t', hrun', rfl⟩
  · rw [hrun] at hnone
    cases hnone
  · obtain ⟨a', r, r', hstart, hown, -, -, hturn, hafter⟩ :=
      initializeBlock_accrual hr h hmarket hrun'
    -- The turn of the market computes what the first storage of the block does.
    obtain rfl := Call.ok_inj hcomputed hstart
    obtain ⟨_, a'', v, -, hown', -, rfl⟩ := initializeMarket_turn hturn
    obtain rfl := Call.ok_inj hown hown'
    show t'.borrowIndex m = some a.index
    rw [hafter.index]
    exact Function.update_self ..

/-! ## Runs -/

/-- The storage is in order, and market `m` has the configuration `config`. -/
structure Configured (cfg : Config A X F) (m : Nat) (config : MarketConfig A X) (s : State A X F) :
    Prop where
  registered : Registered cfg s
  separated : Separated cfg s
  market : s.markets.lookup m = some config

theorem Configured.step {config : MarketConfig A X} {op : Op A X} (h : Configured cfg m config s)
    (huser : op.ByUser cfg) (hkeeps : op.KeepsConfig m) (hstep : Lending.step cfg s op = some s') :
    Configured cfg m config s' :=
  ⟨h.registered.step huser hstep, (step_debts h.registered h.separated huser hstep).1,
    lookup_kept h.registered hkeeps hstep h.market⟩

/-- **Stateful rates** are applied exactly when they are not stateful: the accruals of a market,
    along a run by users without a new configuration for it, apply what the stored model
    answers. So they apply what one model value answers, carrying its terms, exactly when at
    each but the first what the stored model has forgotten cancels, or the rate is cut off
    either way, and nothing overflows. -/
theorem stateful_rates_iff (cfg : Config A X F) {ledger : Ledger A X} {factory : F}
    (hgenesis : Unissued cfg ledger factory) (start : Nat) {past ops : List (Op A X)}
    (hpast : ∀ op ∈ past, op.ByUser cfg)
    (hrun : run (step cfg) (State.genesis ledger factory start) past = some s)
    (huser : ∀ op ∈ ops, op.ByUser cfg) (hkeeps : ∀ op ∈ ops, op.KeepsConfig m)
    {config : MarketConfig A X}
    {model : DynamicPIDControllerModel} (hmarket : s.markets.lookup m = some config)
    (hmodel : config.interestRateModel = .dynamicPIDController model)
    (hbound : model.previousInterestRate ≤ u128Max) :
    (∀ a ∈ history (step cfg) (blockAccrual cfg m) s ops,
      (config.interestRateModel.getBorrowRate a.utilization).1 = .ok (some a.rate)) ∧
    Along (step cfg) (fun t op => ∀ a t', blockAccrual cfg m t op = some a → step cfg t op = some t' →
      t'.borrowIndex m = some a.index) s ops ∧
    ((history (step cfg) (blockAccrual cfg m) s ops).map (fun a => .ok (some a.rate)) =
        (InterestRateModel.dynamicPIDController model).answers
          ((history (step cfg) (blockAccrual cfg m) s ops).map Accrual.utilization) ↔
      model.Indistinct ((history (step cfg) (blockAccrual cfg m) s ops).map
        Accrual.utilization)) := by
  have hinit : Registered cfg s ∧ Separated cfg s := Separated.of_run hgenesis hpast hrun
  have hstart : Configured cfg m config s := ⟨hinit.1, hinit.2, hmarket⟩
  have hall : Along (step cfg) (fun _ op => op.ByUser cfg ∧ op.KeepsConfig m ∧ True) s ops :=
    ((along_true s ops).and_forall hkeeps).and_forall huser
  have hstored : ∀ a ∈ history (step cfg) (blockAccrual cfg m) s ops,
      (config.interestRateModel.getBorrowRate a.utilization).1 = .ok (some a.rate) := by
    refine history_invariant (I := Configured cfg m config)
      (fun h hop hstep => h.step hop.1 hop.2.1 hstep)
      (fun h _ haccrual => ?_) hstart hall
    obtain ⟨now, _, -, -, hcomputed⟩ := blockAccrual_eq haccrual
    exact accrual_rate h.market hcomputed
  refine ⟨hstored, ?_, ?_⟩
  · refine along_of_invariant (I := Configured cfg m config)
      (fun h hop hstep => h.step hop.1 hop.2.1 hstep)
      (fun h _ a t' haccrual hstep => ?_) hstart hall
    exact blockAccrual_stored h.registered h.separated h.market haccrual hstep
  · rw [hmodel] at hstored
    -- The rates are what the stored model answers to each utilisation.
    have hrates : (history (step cfg) (blockAccrual cfg m) s ops).map (fun a => .ok (some a.rate)) =
        ((history (step cfg) (blockAccrual cfg m) s ops).map Accrual.utilization).map
            fun utilization =>
          (InterestRateModel.getBorrowRate utilization (.dynamicPIDController model)).1 := by
      rw [List.map_map]
      exact List.map_congr_left fun a ha => (hstored a ha).symm
    rw [hrates]
    refine answers_iff hbound fun utilization hutilization => ?_
    obtain ⟨a, ha, rfl⟩ := List.mem_map.mp hutilization
    exact ⟨a.rate, hstored a ha⟩

/-- A controller with a rate of ten percent at first. -/
def pidModel (targetUtilization : Nat) : DynamicPIDControllerModel :=
  ⟨Fixed.div / 10, Fixed.div / 10, 0, 0, 0, Fixed.div / 10, targetUtilization⟩

def pidInput (targetUtilization : Nat) : CreateInput Nat :=
  { sampleInput with
    updatable :=
      { sampleInput.updatable with
        interestRateModel := .dynamicPIDController (pidModel targetUtilization) } }

theorem pidInput_valid {targetUtilization : Nat} (h : targetUtilization ≤ Fixed.div) :
    (pidInput targetUtilization).Valid where
  collateralFactor := sampleInput_valid.collateralFactor
  interestRateModel := ⟨h, rfl, rfl⟩
  pair := sampleInput_valid.pair

def pidPast (targetUtilization : Nat) (h : targetUtilization ≤ Fixed.div) : List (Op Nat Nat) :=
  [.createMarket ⟨0, sampleOracle fun _ => 1⟩ (.signed 7) ⟨pidInput targetUtilization,
    pidInput_valid h⟩]

/-- Two blocks start. -/
def pidBlocks : List (Op Nat Nat) := [.initializeBlock 1, .initializeBlock 2]

theorem pidPast_byUser {targetUtilization : Nat} (h : targetUtilization ≤ Fixed.div) :
    ∀ op ∈ pidPast targetUtilization h, op.ByUser sample := by
  simp [pidPast, Op.ByUser, Op.signer, sample_user]

/-- Nobody borrows, and that is what the controller aims at: it has nothing to forget. -/
theorem stateful_rates_iff_sample : ∃ s,
    run (step sample) (State.genesis sampleLedger 100 0) (pidPast 0 (by decide)) = some s ∧
      (history (step sample) (blockAccrual sample 1) s pidBlocks).map Accrual.utilization = [0, 0] ∧
      (history (step sample) (blockAccrual sample 1) s pidBlocks).map (fun a => .ok (some a.rate)) =
        (InterestRateModel.dynamicPIDController (pidModel 0)).answers [0, 0] := by
  have hview : (run (step sample) (State.genesis sampleLedger 100 0) (pidPast 0 (by decide))).map
      (fun s => ((s.markets.lookup 1).map MarketConfig.interestRateModel,
        (history (step sample) (blockAccrual sample 1) s pidBlocks).map Accrual.utilization)) =
      some (some (.dynamicPIDController (pidModel 0)), [0, 0]) := by decide +kernel
  obtain ⟨s, hrun, hs⟩ := Option.map_eq_some_iff.mp hview
  simp only [Prod.mk.injEq] at hs
  obtain ⟨hmarket, hutilizations⟩ := hs
  obtain ⟨config, hmarket, hmodel⟩ := Option.map_eq_some_iff.mp hmarket
  have huser : ∀ op ∈ pidBlocks, op.ByUser sample := by simp [pidBlocks, Op.ByUser, Op.signer]
  have hkeeps : ∀ op ∈ pidBlocks, op.KeepsConfig 1 := by simp [pidBlocks, Op.KeepsConfig]
  have hbound : (pidModel 0).previousInterestRate ≤ u128Max := by decide
  have hindistinct : (pidModel 0).Indistinct [0, 0] := ⟨by decide +kernel, by decide +kernel, trivial⟩
  obtain ⟨-, -, hiff⟩ :=
    stateful_rates_iff sample sampleLedger_unissued 0 (pidPast_byUser (by decide)) hrun huser hkeeps
    hmarket hmodel hbound
  rw [hutilizations] at hiff
  exact ⟨s, hrun, hutilizations, hiff.mpr hindistinct⟩

/-- **A rate is forgotten.** Nobody borrows in two blocks, and the controller aims at eighty
    percent. The second accrual applies `0.26` again, where the controller has gone on to `0.5`. -/
theorem rate_forgotten : ∃ s config,
    run (step sample) (State.genesis sampleLedger 100 0)
      (pidPast (8 * Fixed.div / 10) (by decide)) = some s ∧
    s.markets.lookup 1 = some config ∧
    config.interestRateModel = .dynamicPIDController (pidModel (8 * Fixed.div / 10)) ∧
    (history (step sample) (blockAccrual sample 1) s pidBlocks).map
        (fun a => .ok (some a.rate)) ≠
      (InterestRateModel.dynamicPIDController (pidModel (8 * Fixed.div / 10))).answers
        ((history (step sample) (blockAccrual sample 1) s pidBlocks).map
          Accrual.utilization) := by
  have hview :
      (run (step sample) (State.genesis sampleLedger 100 0)
        (pidPast (8 * Fixed.div / 10) (by decide))).map
      (fun s => ((s.markets.lookup 1).map MarketConfig.interestRateModel,
        (history (step sample) (blockAccrual sample 1) s pidBlocks).map
          fun a => (a.utilization, a.rate))) =
      some (some (.dynamicPIDController (pidModel (8 * Fixed.div / 10))),
        [(0, 26 * Fixed.div / 100), (0, 26 * Fixed.div / 100)]) := by decide +kernel
  have hcarried : ((InterestRateModel.dynamicPIDController (pidModel (8 * Fixed.div / 10))).answers
      [0, 0]).map Except.toOption =
      [some (some (26 * Fixed.div / 100)), some (some (Fixed.div / 2))] := by decide +kernel
  obtain ⟨s, hrun, hs⟩ := Option.map_eq_some_iff.mp hview
  simp only [Prod.mk.injEq] at hs
  obtain ⟨hmarket, hhistory⟩ := hs
  obtain ⟨config, hmarket, hmodel⟩ := Option.map_eq_some_iff.mp hmarket
  refine ⟨s, config, hrun, hmarket, hmodel, fun hsame => ?_⟩
  have hutilizations := congrArg (List.map Prod.fst) hhistory
  have hrates := congrArg (List.map fun p : Nat × Nat => some (some p.2)) hhistory
  simp only [List.map_map, List.map_cons, List.map_nil] at hutilizations hrates
  rw [show (Accrual.utilization : Accrual → Nat) = Prod.fst ∘ fun a =>
    (a.utilization, a.rate) from rfl, hutilizations] at hsame
  have hforgotten := congrArg (List.map Except.toOption) hsame
  rw [hcarried, List.map_map] at hforgotten
  exact absurd (hrates.symm.trans hforgotten) (by decide)

end Lending
end Composable
