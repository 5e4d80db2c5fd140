import Composable.Oracle.Model
import Mathlib.Data.List.GetD

/-!
# `Oracle.Median` — the price in the middle

`get_median_price` sorts the submitted prices and takes the one in the middle, or the mean of the
two there. The two are added first, in 128 bits: a sum over these saturates, and the mean is then
`2 ^ 127 - 1` whatever the prices are. `median_iff` says that nothing else can go wrong.
-/

namespace Composable
namespace Oracle

variable {A : Type} {ps qs : List (PrePrice A)} {n : Nat}

/-! ## The sorted prices -/

/-- The prices in ascending order. -/
def sortedPrices (ps : List (PrePrice A)) : List Nat := (ps.map PrePrice.price).insertionSort (· ≤ ·)

theorem length_sortedPrices : (sortedPrices ps).length = ps.length := by
  rw [sortedPrices, List.length_insertionSort, List.length_map]

/-- The order of submission does not matter. -/
theorem sortedPrices_of_perm (h : qs.Perm ps) : sortedPrices qs = sortedPrices ps := by
  have hperm : (sortedPrices qs).Perm (sortedPrices ps) :=
    (List.perm_insertionSort _ _).trans ((h.map _).trans (List.perm_insertionSort _ _).symm)
  exact hperm.eq_of_pairwise' (List.pairwise_insertionSort _ _) (List.pairwise_insertionSort _ _)

/-- Each of them was submitted. -/
theorem submitted_of_lt {i : Nat} (hi : i < ps.length) :
    ∃ p ∈ ps, p.price = (sortedPrices ps).getD i 0 := by
  have hlt : i < (sortedPrices ps).length := length_sortedPrices.symm ▸ hi
  have hmem : (sortedPrices ps).getD i 0 ∈ sortedPrices ps := by
    rw [List.getD_eq_getElem _ _ hlt]
    exact List.getElem_mem hlt
  exact List.mem_map.mp ((List.perm_insertionSort _ _).mem_iff.mp hmem)

theorem sortedPrices_mono {i j : Nat} (hij : i ≤ j) (hj : j < ps.length) :
    (sortedPrices ps).getD i 0 ≤ (sortedPrices ps).getD j 0 := by
  have hlt : j < (sortedPrices ps).length := length_sortedPrices.symm ▸ hj
  rw [List.getD_eq_getElem _ _ (hij.trans_lt hlt), List.getD_eq_getElem _ _ hlt]
  rcases hij.eq_or_lt with rfl | hlt'
  · exact Nat.le_refl _
  · exact List.pairwise_iff_getElem.mp (List.pairwise_insertionSort (· ≤ ·) _) i j _ hlt hlt'

/-! ## The middle -/

/-- The last price of the lower half, … -/
def lowerMiddle (ps : List (PrePrice A)) : Nat := (sortedPrices ps).getD (ps.length / 2 - 1) 0

/-- … and the first one after it. -/
def upperMiddle (ps : List (PrePrice A)) : Nat := (sortedPrices ps).getD (ps.length / 2) 0

/-- The median of the prices, in unbounded integers. -/
def median (ps : List (PrePrice A)) : Nat :=
  if ps.length % 2 = 0 then (lowerMiddle ps + upperMiddle ps) / 2 else upperMiddle ps

theorem getMedianPrice_eq (hsome : ps ≠ []) : getMedianPrice ps =
    some (if ps.length % 2 = 0 then Fixed.saturated (lowerMiddle ps + upperMiddle ps) / 2
      else upperMiddle ps) := by
  have hlength : ((ps.map PrePrice.price).insertionSort (· ≤ ·)).length = ps.length :=
    length_sortedPrices
  have hpos : ps.length ≠ 0 := fun h => hsome (List.length_eq_zero_iff.mp h)
  unfold getMedianPrice
  simp only [hlength, if_neg hpos]
  split <;> rfl

/-- The median lies between two of the prices. -/
theorem median_between (hsome : ps ≠ []) :
    (∃ p ∈ ps, p.price ≤ median ps) ∧ ∃ p ∈ ps, median ps ≤ p.price := by
  have hpos : 0 < ps.length := List.length_pos_iff.mpr hsome
  have hmid : ps.length / 2 < ps.length := Nat.div_lt_self hpos (by decide)
  have hordered : lowerMiddle ps ≤ upperMiddle ps := sortedPrices_mono (Nat.sub_le _ _) hmid
  obtain ⟨low, hlow, hlowPrice⟩ := submitted_of_lt ((Nat.sub_le _ 1).trans_lt hmid)
  obtain ⟨high, hhigh, hhighPrice⟩ := submitted_of_lt hmid
  change low.price = lowerMiddle ps at hlowPrice
  change high.price = upperMiddle ps at hhighPrice
  unfold median
  split
  · exact ⟨⟨low, hlow, by omega⟩, high, hhigh, by omega⟩
  · exact ⟨⟨high, hhigh, hhighPrice.le⟩, high, hhigh, hhighPrice.ge⟩

/-- Half of a saturated sum is half of the sum if nothing was cut off: the largest number is odd. -/
theorem saturated_half_iff : Fixed.saturated n / 2 = n / 2 ↔ n ≤ u128Max := by
  unfold Fixed.saturated u128Max
  omega

/-! ## The aggregated price -/

/-- The price that every order of the answers gives is their median, and not outside of them. -/
structure IsMedian (ps : List (PrePrice A)) (price : Nat) : Prop where
  permuted : ∀ qs, qs.Perm ps → getMedianPrice qs = some price
  middle : price = median ps
  above : ∃ p ∈ ps, p.price ≤ price
  below : ∃ p ∈ ps, price ≤ p.price

/-- The order of the answers does not matter for what the code returns either. -/
theorem getMedianPrice_of_perm (h : qs.Perm ps) : getMedianPrice qs = getMedianPrice ps := by
  have hsorted : (qs.map PrePrice.price).insertionSort (· ≤ ·) =
      (ps.map PrePrice.price).insertionSort (· ≤ ·) :=
    sortedPrices_of_perm h
  unfold getMedianPrice
  rw [hsorted]

/-- **The aggregated price is the median exactly when the two prices in the middle can be
    added.** -/
theorem median_iff (hsome : ps ≠ []) : (∃ price, IsMedian ps price) ↔
    ps.length % 2 = 1 ∨ lowerMiddle ps + upperMiddle ps ≤ u128Max := by
  have hreturned := getMedianPrice_eq hsome
  constructor
  -- Of an odd number there is no mean to saturate.
  · rintro ⟨price, hpermuted, hmiddle, -, -⟩
    rcases Nat.mod_two_eq_zero_or_one ps.length with heven | hodd
    · refine .inr (saturated_half_iff.mp ?_)
      rw [hpermuted ps (List.Perm.refl ps), if_pos heven, hmiddle, median, if_pos heven,
        Option.some.injEq] at hreturned
      exact hreturned.symm
    · exact .inl hodd
  · intro hfits
    have hmedian : getMedianPrice ps = some (median ps) := by
      rw [hreturned, median]
      split
      · rename_i heven
        have hsum : lowerMiddle ps + upperMiddle ps ≤ u128Max := hfits.resolve_left (by omega)
        rw [saturated_half_iff.mpr hsum]
      · rfl
    obtain ⟨habove, hbelow⟩ := median_between hsome
    exact ⟨median ps, fun qs hperm => (getMedianPrice_of_perm hperm).trans hmedian, rfl,
      habove, hbelow⟩

/-- Four answers, out of order. -/
theorem median_sample :
    ∃ price, IsMedian [⟨7, 1, 0⟩, ⟨3, 1, 1⟩, ⟨10, 1, 2⟩, (⟨4, 1, 3⟩ : PrePrice Nat)] price :=
  (median_iff (List.cons_ne_nil _ _)).mpr (.inr (by decide))

/-- **Two answers of the largest price** give half of it, which is less than both. -/
theorem median_of_largest : ¬ ∀ ps : List (PrePrice Nat), ps ≠ [] → (∀ p ∈ ps, p.price ≤ u128Max) →
    ∃ price, IsMedian ps price := by
  intro hall
  have hprices : ∀ p ∈ [⟨u128Max, 1, 0⟩, (⟨u128Max, 1, 1⟩ : PrePrice Nat)], p.price ≤ u128Max := by
    decide
  obtain ⟨price, hmedian⟩ := hall _ (List.cons_ne_nil _ _) hprices
  have hreturned : some (2 ^ 127 - 1) = some price := hmedian.permuted _ (List.Perm.refl _)
  obtain ⟨p, hp, hle⟩ := hmedian.above
  have hlargest : ∀ p ∈ [⟨u128Max, 1, 0⟩, (⟨u128Max, 1, 1⟩ : PrePrice Nat)],
    ¬ p.price ≤ 2 ^ 127 - 1 := by decide
  exact hlargest p hp (Option.some.inj hreturned ▸ hle)

end Oracle
end Composable
