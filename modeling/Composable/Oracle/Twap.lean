import Composable.Oracle.History

/-!
# `Oracle.Twap` — the weighted average of prices

Embeds `get_twap` of `frame/oracle/src/lib.rs`. The last weight is that of the current price and the
others are those of the end of the history, which is meant not to have the current price in it. It
has: the current price is weighed twice, and the oldest of the observations that were asked for not
at all (`twap_weighs_once_iff`).

The products are unchecked. A build that checks for overflows traps, any other one goes on with what
is left of the product in 128 bits; the average is modelled for both.
-/

namespace Composable
namespace Oracle

variable {A X : Type}

/-! ## The average -/

/-- `price_values_sum`. -/
def priceValuesSum (priceValues : List Nat) : Nat :=
  priceValues.foldl (fun acc b => Fixed.saturated (acc + b)) 0

/-- `a * b`, in a build that checks for overflows or in one that does not. -/
def uncheckedMul (checks : Bool) (a b : Nat) : OracleCall A X Nat :=
  if a * b ≤ u128Max then pure (a * b)
  else if checks then Call.fail .panic
  else pure (a * b % 2 ^ 128)

/-- The weighted prices from the `i`-th weight on; `n` is the number of all weights. -/
def weightPrices (checks : Bool) (historicalPrices : List Price) (n : Nat) :
    List Nat → Nat → OracleCall A X (List Nat)
  | [], _ => pure []
  | weight :: weights, i => do
      Call.ensure (n ≤ historicalPrices.length) .panic
      let p ← Call.ofOption historicalPrices[historicalPrices.length - n + i]? .panic
      let product ← uncheckedMul checks weight p.price
      let weighted ← weightPrices checks historicalPrices n weights (i + 1)
      pure (product / 100 :: weighted)

/-- What follows the checks of `get_twap`, with the last weight apart. -/
def weightedAverage (checks : Bool) (historicalPrices : List Price) (currentPrice : Price)
    (priceWeights : List Nat) (lastWeight : Nat) : OracleCall A X Nat := do
  let weightedPrices ← weightPrices checks historicalPrices priceWeights.length priceWeights 0
  let product ← uncheckedMul checks lastWeight currentPrice.price
  let average := priceValuesSum (weightedPrices ++ [product / 100])
  Call.ensure (average ≠ 0) (err .arithmeticError)
  pure average

def getTwap (checks : Bool) (assetId : X) (priceWeights : List Nat) : OracleCall A X Nat := do
  let s ← Call.get
  Call.ensure (priceWeights.length ≤ (s.priceHistory assetId).length + 1) (err .depthTooLarge)
  Call.ensure (priceValuesSum priceWeights = 100) (err .mustSumTo100)
  let lastWeight := priceWeights.getLast?.getD 0
  Call.ensure (lastWeight ≠ 0) (err .arithmeticError)
  weightedAverage checks (s.priceHistory assetId) ((s.prices assetId).getD ⟨0, 0⟩)
    priceWeights.dropLast lastWeight

variable {checks : Bool} {s s' : State A X} {x : X} {ws : List Nat} {ps : List Price} {w : Nat}

/-! ## Weights -/

/-- The sum of the weighed prices, over unbounded integers. -/
def weigh (ws : List Nat) (ps : List Price) : Nat :=
  (List.zipWith (fun w p => w * p.price / 100) ws ps).sum

/-- The same in 128 bits. -/
def weighWrapped (ws : List Nat) (ps : List Price) : Nat :=
  (List.zipWith (fun w p => w * p.price % 2 ^ 128 / 100) ws ps).sum

/-- No product of a weight and its price overflows. -/
def Fits (ws : List Nat) (ps : List Price) : Prop := ∀ e ∈ ws.zip ps, e.1 * e.2.price ≤ u128Max

instance (ws : List Nat) (ps : List Price) : Decidable (Fits ws ps) :=
  inferInstanceAs (Decidable (∀ e ∈ _, _))

/-- What 128 bits lose of the products. -/
def lost (ws : List Nat) (ps : List Price) : Nat :=
  (List.zipWith (fun w p => w * p.price / 100 - w * p.price % 2 ^ 128 / 100) ws ps).sum

@[simp] theorem weigh_cons {p : Price} :
    weigh (w :: ws) (p :: ps) = w * p.price / 100 + weigh ws ps := rfl

@[simp] theorem weighWrapped_cons {p : Price} :
    weighWrapped (w :: ws) (p :: ps) = w * p.price % 2 ^ 128 / 100 + weighWrapped ws ps := rfl

@[simp] theorem lost_cons {p : Price} :
    lost (w :: ws) (p :: ps) = w * p.price / 100 - w * p.price % 2 ^ 128 / 100 + lost ws ps := rfl

@[simp] theorem fits_cons {p : Price} :
    Fits (w :: ws) (p :: ps) ↔ w * p.price ≤ u128Max ∧ Fits ws ps :=
  List.forall_mem_cons

theorem weighWrapped_add_lost (ws : List Nat) (ps : List Price) :
    weighWrapped ws ps + lost ws ps = weigh ws ps := by
  induction ws generalizing ps with
  | nil => rfl
  | cons w ws ih =>
      cases ps with
      | nil => rfl
      | cons p ps =>
          have htail := ih ps
          have hle : w * p.price % 2 ^ 128 / 100 ≤ w * p.price / 100 :=
            Nat.div_le_div_right (Nat.mod_le _ _)
          rw [weighWrapped_cons, lost_cons, weigh_cons]
          omega

theorem weighWrapped_le : weighWrapped ws ps ≤ weigh ws ps :=
  Nat.le.intro (weighWrapped_add_lost ws ps)

/-- A weighed price is at most its weight times the largest one. -/
theorem weigh_mul_le {m : Nat} (h : ∀ p ∈ ps, p.price ≤ m) : weigh ws ps * 100 ≤ ws.sum * m := by
  induction ws generalizing ps with
  | nil => simp [weigh]
  | cons w ws ih =>
      cases ps with
      | nil => simp [weigh]
      | cons p ps =>
          obtain ⟨hp, hrest⟩ := List.forall_mem_cons.mp h
          have hhead : w * p.price / 100 * 100 ≤ w * m :=
            (Nat.div_mul_le_self _ _).trans (Nat.mul_le_mul_left w hp)
          rw [weigh_cons, List.sum_cons, Nat.add_mul, Nat.add_mul]
          exact Nat.add_le_add hhead (ih hrest)

/-- No average is larger than the largest price. -/
theorem weigh_le {m : Nat} (hsum : ws.sum = 100) (h : ∀ p ∈ ps, p.price ≤ m) : weigh ws ps ≤ m := by
  have hle : weigh ws ps * 100 ≤ ws.sum * m := weigh_mul_le h
  rw [hsum] at hle
  omega

/-- What is weighed in 128 bits is at most a hundredth of them for each unit of weight. -/
theorem weighWrapped_le_mul (ws : List Nat) (ps : List Price) :
    weighWrapped ws ps ≤ ws.sum * (u128Max / 100) := by
  induction ws generalizing ps with
  | nil => exact Nat.zero_le _
  | cons w ws ih =>
      cases ps with
      | nil => exact Nat.zero_le _
      | cons p ps =>
          have hhead : w * p.price % 2 ^ 128 / 100 ≤ w * (u128Max / 100) := by
            rcases Nat.eq_zero_or_pos w with rfl | hpos
            · simp
            · have hone : u128Max / 100 ≤ w * (u128Max / 100) := Nat.le_mul_of_pos_left _ hpos
              have hmod : w * p.price % 2 ^ 128 ≤ u128Max :=
                Nat.le_pred_of_lt (Nat.mod_lt _ (by decide))
              exact (Nat.div_le_div_right hmod).trans hone
          rw [weighWrapped_cons, List.sum_cons, Nat.add_mul]
          exact Nat.add_le_add hhead (ih ps)

/-- In 128 bits, an average fits. -/
theorem weighWrapped_fits (hsum : ws.sum ≤ 100) : weighWrapped ws ps ≤ u128Max := by
  refine (weighWrapped_le_mul ws ps).trans ((Nat.mul_le_mul_right _ hsum).trans ?_)
  exact Nat.mul_div_le _ _

theorem priceValuesSum_eq (values : List Nat) :
    priceValuesSum values = Fixed.saturated values.sum := by
  have hfold : ∀ (values : List Nat) acc, acc ≤ u128Max →
      values.foldl (fun acc b => Fixed.saturated (acc + b)) acc =
        Fixed.saturated (acc + values.sum) := by
    intro values
    induction values with
    | nil => exact fun acc hacc => (Nat.min_eq_left hacc).symm
    | cons b values ih =>
        intro acc hacc
        have hle : Fixed.saturated (acc + b) ≤ u128Max := Nat.min_le_right _ _
        rw [List.foldl_cons, ih _ hle, List.sum_cons]
        unfold Fixed.saturated
        omega
  rw [priceValuesSum, hfold values 0 (Nat.zero_le _), Nat.zero_add]

/-- The last weight is weighed with the last price. -/
theorem weigh_concat {p : Price} (h : ws.length = ps.length) :
    weigh (ws ++ [w]) (ps ++ [p]) = weigh ws ps + w * p.price / 100 := by
  unfold weigh
  rw [List.zipWith_append h, List.sum_append]
  rfl

theorem weighWrapped_concat {p : Price} (h : ws.length = ps.length) :
    weighWrapped (ws ++ [w]) (ps ++ [p]) = weighWrapped ws ps + w * p.price % 2 ^ 128 / 100 := by
  unfold weighWrapped
  rw [List.zipWith_append h, List.sum_append]
  rfl

theorem fits_concat {p : Price} (h : ws.length = ps.length) :
    Fits (ws ++ [w]) (ps ++ [p]) ↔ Fits ws ps ∧ w * p.price ≤ u128Max := by
  unfold Fits
  rw [List.zip_append h]
  simp [or_imp, forall_and]

/-! ## What the average is -/

theorem uncheckedMul_ok {a b m : Nat} :
    (uncheckedMul checks a b : OracleCall A X Nat) s = (.ok m, s') ↔
    (checks = true → a * b ≤ u128Max) ∧ m = a * b % 2 ^ 128 ∧ s' = s := by
  unfold uncheckedMul
  by_cases hfits : a * b ≤ u128Max
  · have hmod : a * b % 2 ^ 128 = a * b := Nat.mod_eq_of_lt (Nat.lt_of_le_of_lt hfits (by decide))
    rw [if_pos hfits, Call.pure_ok, hmod]
    exact ⟨fun h => ⟨fun _ => hfits, h⟩, And.right⟩
  · rw [if_neg hfits]
    cases checks with
    | true => exact ⟨nofun, fun h => absurd (h.1 rfl) hfits⟩
    | false => exact Call.pure_ok.trans ⟨fun h => ⟨nofun, h⟩, And.right⟩

/-- The loop over the weights weighs the end of the history, and no index is out of range. -/
theorem weightPrices_ok {n i : Nat} {vs : List Nat} (hn : n ≤ ps.length) (hi : i + ws.length = n) :
    (weightPrices checks ps n ws i : OracleCall A X (List Nat)) s = (.ok vs, s') ↔
      (checks = true → Fits ws (ps.drop (ps.length - n + i))) ∧
        vs = List.zipWith (fun w p => w * p.price % 2 ^ 128 / 100) ws
          (ps.drop (ps.length - n + i)) ∧ s' = s := by
  induction ws generalizing i vs s s' with
  | nil =>
      rw [weightPrices, Call.pure_ok, List.zipWith_nil_left]
      exact ⟨fun h => ⟨fun _ => nofun, h⟩, And.right⟩
  | cons w ws ih =>
      rw [List.length_cons] at hi
      have hindex : ps.length - n + i < ps.length := by omega
      obtain ⟨p, hp⟩ : ∃ p, ps[ps.length - n + i]? = some p := ⟨_, List.getElem?_eq_getElem hindex⟩
      have hdrop : ps.drop (ps.length - n + i) = p :: ps.drop (ps.length - n + (i + 1)) := by
        rw [List.drop_eq_getElem_cons hindex, ← Option.some.inj
          ((List.getElem?_eq_getElem hindex).symm.trans hp)]
        rfl
      have hstep : i + 1 + ws.length = n := by omega
      have hrest (vs : List Nat) (t t' : State A X) :
          (weightPrices checks ps n ws (i + 1) : OracleCall A X (List Nat)) t = (.ok vs, t') ↔ _ :=
        ih hstep
      simp only [weightPrices, Call.bind_ok, Call.ensure_ok, Call.ofOption_ok, uncheckedMul_ok,
        hrest, Call.pure_ok, hdrop, hp, Option.some.injEq, fits_cons, List.zipWith_cons_cons]
      constructor
      · rintro ⟨_, _, ⟨-, rfl⟩, _, _, ⟨rfl, rfl⟩, _, _, ⟨hfits, rfl, rfl⟩, _, _, ⟨hall, rfl, rfl⟩, rfl, rfl⟩
        exact ⟨fun hchecks => ⟨hfits hchecks, hall hchecks⟩, rfl, rfl⟩
      · rintro ⟨hall, rfl, rfl⟩
        exact ⟨(), _, ⟨hn, rfl⟩, p, _, ⟨rfl, rfl⟩, _, _,
          ⟨fun hchecks => (hall hchecks).1, rfl, rfl⟩, _, _,
          ⟨fun hchecks => (hall hchecks).2, rfl, rfl⟩, rfl, rfl⟩

/-- The prices that `n` weights are for: the end of the history and the current price. -/
def State.weighed (s : State A X) (x : X) (n : Nat) : List Price :=
  (s.priceHistory x).rtake (n - 1) ++ [(s.prices x).getD ⟨0, 0⟩]

theorem length_rtake {n : Nat} (h : n ≤ ps.length) : (ps.rtake n).length = n := by
  rw [List.rtake, List.length_drop]
  omega

theorem weightedAverage_ok {current : Price} {v : Nat} (hdepth : ws.length ≤ ps.length)
    (hsum : ws.sum + w ≤ 100) :
    (weightedAverage checks ps current ws w : OracleCall A X Nat) s = (.ok v, s') ↔
      (checks = true → Fits (ws ++ [w]) (ps.rtake ws.length ++ [current])) ∧
        v = weighWrapped (ws ++ [w]) (ps.rtake ws.length ++ [current]) ∧ v ≠ 0 ∧ s' = s := by
  have hlength : ws.length = (ps.rtake ws.length).length := (length_rtake hdepth).symm
  have htotal : (ws ++ [w]).sum ≤ 100 := by
    rw [List.sum_append, List.sum_singleton]
    exact hsum
  have hfits : weighWrapped (ws ++ [w]) (ps.rtake ws.length ++ [current]) ≤ u128Max :=
    weighWrapped_fits htotal
  rw [weighWrapped_concat hlength] at hfits
  rw [fits_concat hlength, weighWrapped_concat hlength]
  have hloop (vs : List Nat) (t t' : State A X) :
      (weightPrices checks ps ws.length ws 0 : OracleCall A X (List Nat)) t = (.ok vs, t') ↔ _ :=
    weightPrices_ok hdepth (Nat.zero_add _)
  have haverage : priceValuesSum
      (List.zipWith (fun w p => w * p.price % 2 ^ 128 / 100) ws (ps.rtake ws.length) ++
      [w * current.price % 2 ^ 128 / 100]) =
        weighWrapped ws (ps.rtake ws.length) + w * current.price % 2 ^ 128 / 100 := by
    rw [priceValuesSum_eq, List.sum_append, List.sum_singleton]
    exact Nat.min_eq_left hfits
  simp only [weightedAverage, Call.bind_ok, hloop, uncheckedMul_ok, Call.ensure_ok, Call.pure_ok]
  rw [Nat.add_zero]
  change (∃ _ _, ((_ → Fits ws (ps.rtake ws.length)) ∧ _ = List.zipWith _ ws (ps.rtake ws.length) ∧
    _) ∧ _) ↔ _
  constructor
  · rintro ⟨_, _, ⟨hall, rfl, rfl⟩, _, _, ⟨hlast, rfl, rfl⟩, _, _, ⟨hne, rfl⟩, rfl, rfl⟩
    rw [haverage] at hne ⊢
    exact ⟨fun hchecks => ⟨hall hchecks, hlast hchecks⟩, rfl, hne, rfl⟩
  · rintro ⟨hall, rfl, hne, rfl⟩
    rw [← haverage] at hne ⊢
    exact ⟨_, _, ⟨fun hchecks => (hall hchecks).1, rfl, rfl⟩, _, _,
      ⟨fun hchecks => (hall hchecks).2, rfl, rfl⟩, (), _, ⟨hne, rfl⟩, rfl, rfl⟩

/-- **The call**: it weighs the end of the history and the current price. -/
theorem getTwap_ok {v : Nat} : getTwap checks x (ws ++ [w]) s = (.ok v, s') ↔
    ws.length ≤ (s.priceHistory x).length ∧ ws.sum + w = 100 ∧ w ≠ 0 ∧
      (checks = true → Fits (ws ++ [w]) (s.weighed x (ws ++ [w]).length)) ∧
      v = weighWrapped (ws ++ [w]) (s.weighed x (ws ++ [w]).length) ∧ v ≠ 0 ∧ s' = s := by
  have hlength : (ws ++ [w]).length = ws.length + 1 := List.length_append
  have hsum : priceValuesSum (ws ++ [w]) = 100 ↔ ws.sum + w = 100 := by
    rw [priceValuesSum_eq, List.sum_append, List.sum_singleton]
    have hmax : 100 < u128Max := by decide
    unfold Fixed.saturated
    omega
  unfold getTwap State.weighed
  simp only [Call.bind_ok, Call.get_ok, Call.ensure_ok, hsum, hlength, Nat.add_le_add_iff_right,
    List.getLast?_concat, Option.getD_some, List.dropLast_concat, Nat.add_sub_cancel]
  constructor
  · rintro ⟨_, _, ⟨rfl, rfl⟩, _, _, ⟨hdepth, rfl⟩, _, _, ⟨htotal, rfl⟩, _, _, ⟨hne, rfl⟩, haverage⟩
    exact ⟨hdepth, htotal, hne, (weightedAverage_ok hdepth (Nat.le_of_eq htotal)).mp haverage⟩
  · rintro ⟨hdepth, htotal, hne, haverage⟩
    exact ⟨s, s, ⟨rfl, rfl⟩, (), s, ⟨hdepth, rfl⟩, (), s, ⟨htotal, rfl⟩, (), s, ⟨hne, rfl⟩,
      (weightedAverage_ok hdepth (Nat.le_of_eq htotal)).mpr haverage⟩

/-- Without weights there is no last one. -/
theorem getTwap_nil {v : Nat} : ¬ getTwap checks x [] s = (.ok v, s') := by
  intro h
  simp only [getTwap, Call.bind_ok, Call.get_ok, Call.ensure_ok] at h
  obtain ⟨_, _, -, _, _, -, _, _, ⟨htotal, -⟩, -⟩ := h
  exact absurd htotal (by decide)

/-! ## Traps -/

theorem uncheckedMul_avoids {a b : Nat} (h : checks = true → a * b ≤ u128Max) :
    (uncheckedMul checks a b : OracleCall A X Nat).Avoids .panic s := by
  unfold uncheckedMul
  split
  · exact .pure _
  · rename_i hlarge
    split
    · rename_i hchecks
      exact absurd (h hchecks) hlarge
    · exact .pure _

/-- Products that fit leave nothing to trap on. -/
theorem weightPrices_avoids {n i : Nat} (hn : n ≤ ps.length) (hi : i + ws.length = n)
    (h : checks = true → Fits ws (ps.drop (ps.length - n + i))) :
    (weightPrices checks ps n ws i : OracleCall A X (List Nat)).Avoids .panic s := by
  induction ws generalizing i s with
  | nil => exact .pure _
  | cons w ws ih =>
      rw [List.length_cons] at hi
      have hindex : ps.length - n + i < ps.length := by omega
      have hdrop := List.drop_eq_getElem_cons hindex
      have hstep : i + 1 + ws.length = n := by omega
      rw [hdrop] at h
      rw [weightPrices, List.getElem?_eq_getElem hindex, Call.ensure, if_pos hn]
      refine .bind (.pure _) fun _ t _ => .bind (.pure _) fun p t hp => ?_
      obtain rfl : p = ps[ps.length - n + i] := (Call.pure_ok.mp hp).1
      refine .bind (uncheckedMul_avoids fun hchecks => (fits_cons.mp (h hchecks)).1) fun _ t _ => ?_
      exact .bind (ih hstep fun hchecks => (fits_cons.mp (h hchecks)).2) fun _ t _ => .pure _

theorem weightedAverage_avoids {current : Price} (hdepth : ws.length ≤ ps.length)
    (h : checks = true → Fits (ws ++ [w]) (ps.rtake ws.length ++ [current])) :
    (weightedAverage checks ps current ws w : OracleCall A X Nat).Avoids .panic s := by
  rw [fits_concat (length_rtake hdepth).symm] at h
  have hloop : (weightPrices checks ps ws.length ws 0 : OracleCall A X (List Nat)).Avoids .panic s :=
    weightPrices_avoids hdepth (Nat.zero_add _) fun hchecks => (h hchecks).1
  refine .bind hloop fun _ t _ =>
    .bind (uncheckedMul_avoids fun hchecks => (h hchecks).2) fun _ t' _ => ?_
  exact .bind (.ensure nofun) fun _ t'' _ => .pure _

/-- **No index is out of range**: what traps is a product that overflows, in a
    build that checks for it. -/
theorem getTwap_avoids (h : checks = true → Fits ws (s.weighed x ws.length)) :
    (getTwap checks x ws).Avoids .panic s := by
  unfold getTwap
  refine Call.Avoids.get_bind ?_
  refine .bind (.ensure nofun) fun _ t hdepth => ?_
  refine .bind (.ensure nofun) fun _ t' htotal => ?_
  refine .bind (.ensure nofun) fun _ t'' _ => ?_
  replace hdepth := (Call.ensure_ok.mp hdepth).1
  replace htotal := (Call.ensure_ok.mp htotal).1
  rcases List.eq_nil_or_concat' ws with rfl | ⟨init, w, rfl⟩
  · exact absurd htotal (by decide)
  · have hlength : (init ++ [w]).length = init.length + 1 := List.length_append
    unfold State.weighed at h
    rw [hlength, Nat.add_sub_cancel] at h
    rw [List.getLast?_concat, List.dropLast_concat]
    rw [hlength] at hdepth
    exact weightedAverage_avoids (Nat.le_of_succ_le_succ hdepth) h

/-! ## What is asked of it -/

/-- The last weight is weighed with the last observation and the others with
    those before it, once each. -/
def WeighsOnce (seen : List Price) (ws : List Nat) (v : Nat) : Prop :=
  ∃ older earlier current, seen = older ++ earlier ++ [current] ∧ earlier.length + 1 = ws.length ∧
    v = weigh ws (earlier ++ [current])

/-- The stored prices, which end with the current one, outweigh those before the
    current one by what is lost. -/
def ShiftLost (seen : List Price) (ws : List Nat) : Prop :=
  weigh ws.dropLast (seen.rtake (ws.length - 1)) =
    weigh ws.dropLast (seen.dropLast.rtake (ws.length - 1)) +
      lost ws (seen.rtake (ws.length - 1) ++ seen.getLast?.toList)

/-- The observations before the last one are weighed once when there are enough of them. -/
theorem weighsOnce_iff {seen : List Price} {p : Price} {v : Nat} :
    WeighsOnce (seen ++ [p]) (ws ++ [w]) v ↔
    ws.length ≤ seen.length ∧ v = weigh ws (seen.rtake ws.length) + w * p.price / 100 := by
  constructor
  · rintro ⟨older, earlier, current, hseen, hlength, rfl⟩
    obtain ⟨rfl, hcurrent⟩ := List.append_inj' hseen rfl
    obtain rfl := List.singleton_inj.mp hcurrent
    rw [List.length_append, List.length_singleton, Nat.add_right_cancel_iff] at hlength
    have hrtake : (older ++ earlier).rtake ws.length = earlier := by
      rw [List.rtake, List.length_append, hlength, Nat.add_sub_cancel, List.drop_left]
    rw [hrtake, List.length_append, hlength]
    exact ⟨Nat.le_add_left _ _, weigh_concat hlength.symm⟩
  · rintro ⟨henough, rfl⟩
    have hlength := length_rtake henough
    refine ⟨seen.take (seen.length - ws.length), seen.rtake ws.length, p, ?_, ?_,
      (weigh_concat hlength.symm).symm⟩
    · rw [List.rtake, List.take_append_drop]
    · rw [hlength, List.length_append, List.length_singleton]

/-- The window that ends with the current price is as good as the one before it when
    the shift goes unnoticed. -/
theorem weighsOnce_of_window {seen : List Price} {p : Price} {v : Nat}
    (hwindow : ws.length ≤ (seen ++ [p]).length)
    (hv : v = weighWrapped (ws ++ [w]) ((seen ++ [p]).rtake ws.length ++ [p])) :
    WeighsOnce (seen ++ [p]) (ws ++ [w]) v ↔
      (ws ++ [w]).length ≤ (seen ++ [p]).length ∧ ShiftLost (seen ++ [p]) (ws ++ [w]) := by
  have hlength : ws.length = ((seen ++ [p]).rtake ws.length).length := (length_rtake hwindow).symm
  have htotal := weighWrapped_add_lost (ws ++ [w]) ((seen ++ [p]).rtake ws.length ++ [p])
  rw [weigh_concat hlength, ← hv] at htotal
  have hlengths : (ws ++ [w]).length ≤ (seen ++ [p]).length ↔ ws.length ≤ seen.length := by
    simp only [List.length_append, List.length_singleton, Nat.add_le_add_iff_right]
  have hws : (ws ++ [w]).length - 1 = ws.length := by
    rw [List.length_append, List.length_singleton, Nat.add_sub_cancel]
  unfold ShiftLost
  rw [weighsOnce_iff, hlengths, hws, List.dropLast_concat, List.dropLast_concat, List.getLast?_concat,
    Option.toList_some]
  refine and_congr_right fun _ => ?_
  omega

/-- What is taken from the history is what would be taken from all observations. -/
theorem rtake_rtake {n m : Nat} (h : n ≤ (ps.rtake m).length) :
    (ps.rtake m).rtake n = ps.rtake n := by
  rw [List.rtake, List.length_drop] at h
  unfold List.rtake
  rw [List.drop_drop, List.length_drop]
  congr 1
  omega

/-- **Each observation is weighed once exactly when the shift of the history goes unnoticed.**
The history ends with the current price, so the weights before the last one are those of a window
that is one observation late. -/
theorem twap_weighs_once_iff [DecidableEq A] [DecidableEq X] {cfg : Config A X}
    {ledger : Ledger A Unit} {ops : List (Op A X)} {t : State A X × (X → List Price)}
    (hrun : run (observedStep cfg) (State.genesis ledger, fun _ => []) ops = some t)
    (checks : Bool) (x : X) (ws : List Nat) :
    (∀ v s', getTwap checks x ws t.1 = (.ok v, s') →
      (WeighsOnce (t.2 x) ws v ↔ ws.length ≤ (t.2 x).length ∧ ShiftLost (t.2 x) ws) ∧
        (checks = true → Fits ws (t.1.weighed x ws.length)) ∧
        ∀ m, (∀ p ∈ t.1.weighed x ws.length, p.price ≤ m) → v ≤ m) ∧
      ((getTwap checks x ws t.1).1 = .error .panic → checks = true ∧
        ¬ Fits ws (t.1.weighed x ws.length)) := by
  obtain ⟨-, hcurrent, hhistory, -⟩ := recorded_of_run hrun
  obtain ⟨s, seen⟩ := t
  -- The storage in terms of what was observed: the last price, and a window of history.
  replace hcurrent : s.prices x = (seen x).getLast? := hcurrent x
  replace hhistory : s.priceHistory x = (seen x).rtake cfg.maxHistory := hhistory x
  refine ⟨fun v s' hcall => ?_, fun hpanic => ?_⟩
  · rcases List.eq_nil_or_concat' ws with rfl | ⟨init, w, rfl⟩
    · exact absurd hcall getTwap_nil
    · obtain ⟨hdepth, htotal, hne, hfits, hv, hpositive, -⟩ := getTwap_ok.mp hcall
      have hsum : (init ++ [w]).sum = 100 := by
        rw [List.sum_append, List.sum_singleton]
        exact htotal
      refine ⟨?_, hfits, fun m hm => ?_⟩
      · rcases List.eq_nil_or_concat' (seen x) with hnone | ⟨past, p, hseen⟩
        · -- Nothing was observed, and there is a weight.
          show WeighsOnce (seen x) _ v ↔ _ ≤ (seen x).length ∧ _
          rw [hnone]
          refine iff_of_false ?_ fun h => absurd h.1 (by simp)
          rintro ⟨older, earlier, current, hnil, -⟩
          exact absurd hnil (by simp)
        · show WeighsOnce (seen x) _ v ↔ _ ≤ (seen x).length ∧ ShiftLost (seen x) _
          rw [hseen, List.getLast?_concat] at hcurrent
          rw [hhistory] at hdepth
          have hwindow : init.length ≤ (seen x).length :=
            hdepth.trans (by rw [List.rtake, List.length_drop]; omega)
          have hlength : (init ++ [w]).length - 1 = init.length := by
            rw [List.length_append, List.length_singleton, Nat.add_sub_cancel]
          rw [State.weighed, hlength, hcurrent, hhistory, rtake_rtake hdepth, Option.getD_some] at hv
          rw [hseen] at hwindow hv ⊢
          exact weighsOnce_of_window hwindow hv
      · rw [hv]
        exact weighWrapped_le.trans (weigh_le hsum hm)
  · by_contra hnot
    exact getTwap_avoids (fun hchecks => by_contra fun hlarge => hnot ⟨hchecks, hlarge⟩) hpanic

/-- The first asset is priced at a hundred, and then at two hundred. -/
def pricedOps (second : Nat) : List (Op Nat Nat) :=
  assetOps ++ [.submitPrice (.signed 2) 100 0] ++ List.replicate 7 .initializeBlock ++
    [.submitPrice (.signed 2) second 0, .initializeBlock]

theorem twap_weighs_once_sample :
    ∃ t s', run (observedStep sample) (State.genesis sampleLedger, fun _ => [])
    (pricedOps 100) = some t ∧ getTwap true 0 [50, 50] t.1 = (.ok 100, s') ∧ WeighsOnce (t.2 0)
    [50, 50] 100 := by
  have hview :
      (run (observedStep sample) (State.genesis sampleLedger, fun _ => []) (pricedOps 100)).map
      (fun t : State Nat Nat × (Nat → List Price) =>
        (t.2 0, (getTwap true 0 [50, 50] t.1).1.toOption)) =
        some ([⟨100, 7⟩, ⟨100, 14⟩], some 100) := by
    decide +kernel
  obtain ⟨t, hrun, ht⟩ := Option.map_eq_some_iff.mp hview
  obtain ⟨hseen, hcall⟩ := Prod.mk.inj ht
  have haverage := Call.ok_of_toOption hcall
  refine ⟨t, _, hrun, haverage,
    (((twap_weighs_once_iff hrun true 0 [50, 50]).1 100 _ haverage).1).mpr ?_⟩
  rw [hseen]
  refine ⟨by decide, ?_⟩
  unfold ShiftLost
  decide +kernel

/-- **The current price is weighed twice**: of a hundred and two hundred it makes two hundred. -/
theorem twap_counts_current_twice : ¬ ∀ ops : List (Op Nat Nat), ∀ t,
    run (observedStep sample) (State.genesis sampleLedger, fun _ => []) ops = some t → ∀ x ws v s',
      getTwap false x ws t.1 = (.ok v, s') → WeighsOnce (t.2 x) ws v := by
  intro hall
  have hview :
      (run (observedStep sample) (State.genesis sampleLedger, fun _ => []) (pricedOps 200)).map
      (fun t : State Nat Nat × (Nat → List Price) =>
        (t.2 0, (getTwap false 0 [50, 50] t.1).1.toOption)) =
        some ([⟨100, 7⟩, ⟨200, 14⟩], some 200) := by
    decide +kernel
  obtain ⟨t, hrun, ht⟩ := Option.map_eq_some_iff.mp hview
  obtain ⟨hseen, hcall⟩ := Prod.mk.inj ht
  have honce := hall (pricedOps 200) t hrun 0 [50, 50] 200 _ (Call.ok_of_toOption hcall)
  rw [hseen] at honce
  obtain ⟨-, hvalue⟩ :=
    weighsOnce_iff.mp (show WeighsOnce ([⟨100, 7⟩] ++ [⟨200, 14⟩]) ([50] ++ [50]) 200 from honce)
  exact absurd hvalue (by decide)

end Oracle
end Composable
