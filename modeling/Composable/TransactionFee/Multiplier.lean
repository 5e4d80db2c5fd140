import Composable.Support.Drift
import Composable.Support.Fixed

/-!
# `TransactionFee.Multiplier` — the multiplier of weight fees from block to block

Embeds `frame/transaction-fee/src/fee_adjustment.rs` and the hooks of
`frame/transaction-fee/src/lib.rs`. At the end of a block the multiplier of the next
one is computed from its weight: heavier than the target and it rises, lighter and it
sinks, each in proportion to itself.

* `multiplier_bounds` is the bound that the documentation of `TargetedFeeAdjustment` states for
  `k` blocks, of any weights, with the rounding of fixed-point numbers: an empty chain and a
  congested one are the extremes.
* `recovers_iff`: the assertion of `integrity_test` is exactly what it is for. It computes one
  block; the multiplier comes back from the minimum to any level under such traffic if and only
  if that one block raises it.
-/

namespace Composable
namespace TransactionFee

/-! ## Weights -/

inductive DispatchClass where
  | normal
  | operational
  | mandatory
deriving DecidableEq, Repr

/-- `Perquintill::ACCURACY`. -/
def perquintill : Nat := 10 ^ 18

structure Perquintill where
  parts : Nat
  parts_le : parts ≤ perquintill

/-- `BlockWeights`: what of it the fees read. -/
structure BlockWeights where
  maxBlock : Nat
  /-- `max_total` of the normal class. -/
  maxTotal : Option Nat
  baseExtrinsic : DispatchClass → Nat

/-- The block as far as normal transactions can fill it. -/
def BlockWeights.normalMaxWeight (w : BlockWeights) : Nat := w.maxTotal.getD w.maxBlock

/-! ## The adjustment -/

/-- `TargetedFeeAdjustment<T, S, V, M>`. -/
structure TargetedFeeAdjustment where
  weights : BlockWeights
  target : Perquintill
  variability : Nat
  minMultiplier : Nat

namespace TargetedFeeAdjustment

variable (adj : TargetedFeeAdjustment)

def targetWeight : Nat := Fixed.mulNearest perquintill adj.target.parts adj.weights.normalMaxWeight

/-- The two terms, for a deviation `diff` from the target: `v * diff` and `(v * diff) ^ 2 / 2`. -/
def firstTerm (diff : Nat) : Nat := Fixed.saturatingMul adj.variability diff

def secondTerm (diff : Nat) : Nat :=
  let vSquared2 :=
    Fixed.quotient (Fixed.saturatingMul adj.variability adj.variability) Fixed.div (Fixed.ofInteger 2)
  Fixed.saturatingMul vSquared2 (Fixed.saturatingMul diff diff)

def deviation (diffAbs : Nat) : Nat :=
  Fixed.saturatingFromRational diffAbs (max adj.weights.normalMaxWeight 1)

/-- `convert`, where `blockWeight` is the weight of the normal class in the block. -/
def convert (blockWeight previous : Nat) : Nat :=
  let previous := max previous adj.minMultiplier
  let blockWeight := min blockWeight adj.weights.normalMaxWeight
  let diffAbs := max blockWeight adj.targetWeight - min blockWeight adj.targetWeight
  let diff := adj.deviation diffAbs
  if adj.targetWeight ≤ blockWeight then
    let excess :=
      Fixed.saturatingMul (Fixed.saturated (adj.firstTerm diff + adj.secondTerm diff)) previous
    max (Fixed.saturated (previous + excess)) adj.minMultiplier
  else
    let negative := Fixed.saturatingMul (adj.firstTerm diff - adj.secondTerm diff) previous
    max (previous - negative) adj.minMultiplier

/-- `integrity_test`, which sets `target` and one percent of it as the weight of the block. -/
def integrityTest : Prop :=
  adj.weights.maxBlock * Fixed.div ≤ u128Max ∧ adj.weights.maxTotal.isSome = true ∧
    (adj.targetWeight / 100 = 0 ∨
      adj.minMultiplier < adj.convert (adj.targetWeight + adj.targetWeight / 100) adj.minMultiplier)

end TargetedFeeAdjustment

/-- `NextFeeMultiplierOnEmpty`. -/
def nextFeeMultiplierOnEmpty : Nat := Fixed.ofInteger 1

/-- The multiplier after blocks of these weights: `on_finalize` of each. -/
def finalized (adj : TargetedFeeAdjustment) (multiplier : Nat) (weights : List Nat) : Nat :=
  drift adj.convert multiplier weights

/-! ## One block -/

namespace TargetedFeeAdjustment

variable {adj : TargetedFeeAdjustment} {weight weight' previous previous' : Nat}

/-- What a block of at least the target weight adds, and at most what a lighter one takes. -/
def excess (adj : TargetedFeeAdjustment) (weight previous : Nat) : Nat :=
  let diff := adj.deviation (min weight adj.weights.normalMaxWeight - adj.targetWeight)
  Fixed.saturatingMul (Fixed.saturated (adj.firstTerm diff + adj.secondTerm diff)) previous

/-- `v * s'`: what an empty block takes, but for the second term. -/
def shrink (adj : TargetedFeeAdjustment) (previous : Nat) : Nat :=
  Fixed.saturatingMul (adj.firstTerm (adj.deviation adj.targetWeight)) previous

/-- `v * (1 - s')`: what a full block adds, but for the second term. -/
def growth (adj : TargetedFeeAdjustment) (previous : Nat) : Nat :=
  Fixed.saturatingMul
    (adj.firstTerm (adj.deviation (adj.weights.normalMaxWeight - adj.targetWeight))) previous

theorem targetWeight_le : adj.targetWeight ≤ adj.weights.normalMaxWeight :=
  Fixed.mulNearest_le adj.target.parts_le

theorem deviation_mono {m n : Nat} (h : m ≤ n) : adj.deviation m ≤ adj.deviation n :=
  Fixed.saturated_mono (Fixed.quotient_mono (Nat.mul_le_mul_right _ h))

theorem firstTerm_mono {m n : Nat} (h : m ≤ n) : adj.firstTerm m ≤ adj.firstTerm n :=
  Fixed.saturatingMul_mono le_rfl h

theorem secondTerm_mono {m n : Nat} (h : m ≤ n) : adj.secondTerm m ≤ adj.secondTerm n :=
  Fixed.saturatingMul_mono le_rfl (Fixed.saturatingMul_mono h h)

theorem excess_mono (hweight : weight ≤ weight') (hprevious : previous ≤ previous') :
    adj.excess weight previous ≤ adj.excess weight' previous' := by
  have hdiff : adj.deviation (min weight adj.weights.normalMaxWeight - adj.targetWeight) ≤
      adj.deviation (min weight' adj.weights.normalMaxWeight - adj.targetWeight) := by
    apply deviation_mono
    omega
  apply Fixed.saturatingMul_mono _ hprevious
  exact Fixed.saturated_mono (Nat.add_le_add (firstTerm_mono hdiff) (secondTerm_mono hdiff))

/-- A block of the target weight adds nothing. -/
theorem excess_targetWeight : adj.excess adj.targetWeight previous = 0 := by
  have hdiff : adj.deviation 0 = 0 := by simp [deviation, Fixed.saturatingFromRational]
  simp [excess, Nat.min_eq_left targetWeight_le, hdiff, firstTerm, secondTerm]

/-- A block of at least the target weight. -/
theorem convert_of_le (h : adj.targetWeight ≤ weight) (previous : Nat) :
    adj.convert weight previous =
      max (Fixed.saturated (max previous adj.minMultiplier +
        adj.excess weight (max previous adj.minMultiplier)))
        adj.minMultiplier := by
  have hle : adj.targetWeight ≤ min weight adj.weights.normalMaxWeight :=
    Nat.le_min.mpr ⟨h, targetWeight_le⟩
  simp only [convert, excess, if_pos hle, Nat.max_eq_left hle, Nat.min_eq_right hle]

/-- A block under the target weight. -/
theorem convert_of_lt (h : weight < adj.targetWeight) (previous : Nat) :
    ∃ cut, cut ≤ adj.firstTerm (adj.deviation adj.targetWeight) ∧
      adj.convert weight previous =
        max (max previous adj.minMultiplier - Fixed.saturatingMul cut
          (max previous adj.minMultiplier))
          adj.minMultiplier := by
  have hlt : min weight adj.weights.normalMaxWeight < adj.targetWeight :=
    (Nat.min_le_left _ _).trans_lt h
  refine ⟨adj.firstTerm (adj.deviation (adj.targetWeight - min weight adj.weights.normalMaxWeight)) -
    adj.secondTerm (adj.deviation (adj.targetWeight - min weight adj.weights.normalMaxWeight)), ?_,
      ?_⟩
  · apply (Nat.sub_le _ _).trans
    exact firstTerm_mono (deviation_mono (Nat.sub_le _ _))
  · simp only [convert, if_neg (Nat.not_le.mpr hlt), Nat.max_eq_right hlt.le, Nat.min_eq_left hlt.le]

/-- The multiplier is never under the minimum after a block. -/
theorem minMultiplier_le_convert : adj.minMultiplier ≤ adj.convert weight previous := by
  unfold convert
  dsimp only
  split
  · exact Nat.le_max_right _ _
  · exact Nat.le_max_right _ _

/-- Blocks of the same weight keep the order of two multipliers, if they are not under the
    target. -/
theorem convert_mono (h : adj.targetWeight ≤ weight) : Monotone (adj.convert weight) := by
  intro previous previous' hle
  rw [convert_of_le h, convert_of_le h]
  have hprevious : max previous adj.minMultiplier ≤ max previous' adj.minMultiplier :=
    max_le_max_right _ hle
  apply max_le_max_right
  exact Fixed.saturated_mono (Nat.add_le_add hprevious (excess_mono le_rfl hprevious))

/-- The multipliers that a fixed-point number holds; one that `convert` starts from
    is at least the minimum. -/
def Representable (adj : TargetedFeeAdjustment) (m : Nat) : Prop := m ≤ max u128Max adj.minMultiplier

/-- No block adds more than a full one. -/
theorem convert_le_full (hprevious : adj.Representable previous) (weight : Nat) :
    adj.convert weight previous ≤ adj.convert adj.weights.normalMaxWeight previous ∧
      adj.Representable (adj.convert weight previous) := by
  have hlevel := hprevious
  unfold Representable at hprevious ⊢
  rw [convert_of_le (targetWeight_le : adj.targetWeight ≤ adj.weights.normalMaxWeight)]
  rcases Nat.lt_or_ge weight adj.targetWeight with hlt | hge
  · obtain ⟨cut, -, hconvert⟩ := convert_of_lt hlt previous
    rw [hconvert]
    unfold Fixed.saturated
    omega
  · rw [convert_of_le hge]
    have hexcess : adj.excess weight (max previous adj.minMultiplier) ≤
        adj.excess adj.weights.normalMaxWeight (max previous adj.minMultiplier) := by
      -- The weight counts only as far as the block can be filled.
      have hmin :
          adj.excess (min weight adj.weights.normalMaxWeight) (max previous adj.minMultiplier) ≤
          adj.excess adj.weights.normalMaxWeight (max previous adj.minMultiplier) :=
        excess_mono (Nat.min_le_right _ _) le_rfl
      simpa only [excess, Nat.min_assoc, Nat.min_self] using hmin
    exact ⟨max_le_max_right _ (Fixed.saturated_mono (Nat.add_le_add_left hexcess _)),
      max_le_max_right _ Fixed.saturated_le⟩

/-- A block takes no more than an empty one could, from a multiplier that is not above. -/
theorem sub_shrink_le_convert {m : Nat} (hm : m ≤ u128Max) (weight : Nat) (hle : previous ≤ m) :
    previous - adj.shrink m ≤ adj.convert weight previous := by
  rcases Nat.lt_or_ge weight adj.targetWeight with hlt | hge
  · obtain ⟨cut, hcut, hconvert⟩ := convert_of_lt hlt previous
    rw [hconvert]
    rcases Nat.le_total previous adj.minMultiplier with hmin | hmin
    · exact (Nat.sub_le _ _).trans (hmin.trans (Nat.le_max_right _ _))
    · rw [Nat.max_eq_left hmin]
      apply le_max_of_le_left
      exact Nat.sub_le_sub_left (Fixed.saturatingMul_mono hcut hle) _
  · rw [convert_of_le hge]
    apply le_max_of_le_left
    refine (Nat.sub_le _ _).trans (Nat.le_min.mpr ⟨?_, hle.trans hm⟩)
    omega

/-- A cut that leaves the multiplier `m` something leaves a greater one as much, up to the unit by
    which the rounding of a product beyond 128 bits can differ. -/
theorem sub_cut_le {share cut m n : Nat} (hm : m ≤ u128Max) (hcut : cut ≤ share) (hle : m ≤ n) :
    m - 2 * Fixed.saturatingMul share m ≤ n - Fixed.saturatingMul cut n := by
  have hdiv : 0 < Fixed.div := by decide
  have htaken : Fixed.saturatingMul cut n ≤ Fixed.quotient cut n Fixed.div := Nat.min_le_left _ _
  rcases Nat.lt_or_ge Fixed.div share with hwhole | hpart
  · -- More than all of it is taken.
    have hall : m ≤ Fixed.saturatingMul share m := by
      refine Nat.le_min.mpr ⟨Fixed.le_quotient hdiv ?_, hm⟩
      rw [Nat.mul_comm]
      exact Nat.mul_le_mul_right _ hwhole.le
    omega
  · have hkept : Fixed.saturatingMul share m = Fixed.quotient share m Fixed.div := by
      apply Fixed.saturated_eq
      refine (Fixed.quotient_le ?_).trans hm
      rw [Nat.mul_comm m]
      exact Nat.mul_le_mul_right _ hpart
    have hbound := Fixed.lt_quotient_add_one_mul (a := share) (b := m) hdiv
    rw [hkept]
    generalize Fixed.quotient share m Fixed.div = kept at hbound ⊢
    obtain ⟨rest, rfl⟩ := Nat.exists_eq_add_of_le hle
    have hcutm : cut * m ≤ share * m := Nat.mul_le_mul_right _ hcut
    have hrest : cut * rest ≤ Fixed.div * rest := Nat.mul_le_mul_right _ (hcut.trans hpart)
    have hsum : cut * (m + rest) = cut * m + cut * rest := Nat.mul_add _ _ _
    have hswap : Fixed.div * rest = rest * Fixed.div := Nat.mul_comm _ _
    rcases Nat.eq_zero_or_pos kept with rfl | hpos
    · suffices hexact : Fixed.quotient cut (m + rest) Fixed.div ≤ rest by omega
      by_cases hfits : cut * (m + rest) ≤ u128Max
      · rw [Fixed.quotient_eq_div hfits]
        apply Nat.le_of_lt_succ
        rw [Nat.div_lt_iff_lt_mul hdiv, Nat.succ_mul]
        omega
      · apply Fixed.quotient_le
        rcases Nat.eq_zero_or_pos m with rfl | hmpos
        · omega
        · -- The cut is of less than all, and there is much to take it of.
          have hless : cut + 1 ≤ Fixed.div := by
            have hshare : share * 1 ≤ share * m := Nat.mul_le_mul_left _ hmpos
            omega
          have hroom : (cut + 1) * rest ≤ Fixed.div * rest := Nat.mul_le_mul_right _ hless
          have hlarge : Fixed.div ≤ rest := by
            by_contra hsmall
            apply hfits
            have hproduct : cut * rest ≤ Fixed.div * Fixed.div := Nat.mul_le_mul (by omega) (by omega)
            have hbits : Fixed.div * Fixed.div + Fixed.div ≤ u128Max := by decide
            omega
          rw [Nat.add_mul, Nat.one_mul] at hroom
          omega
    · suffices hclose : Fixed.quotient cut (m + rest) Fixed.div ≤ kept + 1 + rest by omega
      apply Fixed.quotient_le
      rw [Nat.add_mul]
      omega

/-- From a multiplier that is above, it takes it no further down than twice that from there. -/
theorem shrunk_le_convert {m : Nat} (hm : m ≤ u128Max) (weight : Nat) (hle : m ≤ previous) :
    m - 2 * adj.shrink m ≤ adj.convert weight previous := by
  rcases Nat.lt_or_ge weight adj.targetWeight with hlt | hge
  · obtain ⟨cut, hcut, hconvert⟩ := convert_of_lt hlt previous
    rw [hconvert]
    apply le_max_of_le_left
    exact sub_cut_le hm hcut (hle.trans (Nat.le_max_left _ _))
  · rw [convert_of_le hge]
    apply le_max_of_le_left
    refine (Nat.sub_le _ _).trans (Nat.le_min.mpr ⟨?_, hm⟩)
    omega

/-- A full block adds what the documentation says, or the multiplier is as great as it gets. -/
theorem growth_le_convert {m : Nat} (hle : m ≤ previous) :
    min u128Max (previous + adj.growth m) ≤ adj.convert adj.weights.normalMaxWeight previous := by
  rw [convert_of_le targetWeight_le]
  apply le_max_of_le_left
  have hgrowth :
      adj.growth m ≤ adj.excess adj.weights.normalMaxWeight (max previous adj.minMultiplier) := by
    unfold growth excess
    rw [Nat.min_self]
    apply Fixed.saturatingMul_mono _ (hle.trans (Nat.le_max_left _ _))
    exact Nat.le_min.mpr ⟨Nat.le_add_right _ _, Fixed.saturatingMul_le⟩
  unfold Fixed.saturated
  omega

end TargetedFeeAdjustment

/-! ## Many blocks -/

section Blocks

variable {adj : TargetedFeeAdjustment} {m : Nat}

/-- **The bound of the documentation.** In `k` blocks of any weights the multiplier loses at most
    `k` times what an empty block takes, and gains at most what `k` full blocks add, which is `k`
    times what one adds to it at first or more. -/
theorem multiplier_bounds (hm : m ≤ u128Max) (weights : List Nat) :
    m - weights.length * adj.shrink m ≤ finalized adj m weights ∧
      finalized adj m weights ≤ finalized adj m
        (List.replicate weights.length adj.weights.normalMaxWeight) ∧
      min u128Max (m + weights.length * adj.growth m) ≤
        finalized adj m (List.replicate weights.length adj.weights.normalMaxWeight) := by
  refine ⟨?_, ?_, ?_⟩
  -- From below, by the fall of an empty block; from above, by the rise of a full one.
  · apply drift_sinks
    · intro weight _ previous hle
      exact TargetedFeeAdjustment.sub_shrink_le_convert hm weight hle
    · intro weight _ previous hle
      exact TargetedFeeAdjustment.shrunk_le_convert hm weight hle
  · apply drift_le_replicate (P := adj.Representable)
    · intro weight _ previous hprevious
      exact TargetedFeeAdjustment.convert_le_full hprevious weight
    · exact TargetedFeeAdjustment.convert_mono TargetedFeeAdjustment.targetWeight_le
    · exact hm.trans (Nat.le_max_left _ _)
  · have hfull :
        min u128Max (m + (List.replicate weights.length adj.weights.normalMaxWeight).length *
          adj.growth m) ≤
        finalized adj m (List.replicate weights.length adj.weights.normalMaxWeight) := by
      apply drift_rises _ hm
      intro weight hweight previous hle
      obtain rfl := List.eq_of_mem_replicate hweight
      exact TargetedFeeAdjustment.growth_le_convert hle
    rwa [List.length_replicate] at hfull

/-- Enough blocks of such a weight or more bring any multiplier to any level. -/
def Recovers (adj : TargetedFeeAdjustment) (weight : Nat) : Prop :=
  ∀ m level, level ≤ u128Max → ∃ k, ∀ weights : List Nat, k ≤ weights.length →
    (∀ w ∈ weights, weight ≤ w) →
    level ≤ finalized adj m weights

/-- Where the multiplier recovers, one block raises it from the minimum. -/
theorem recovers_iff_raised (hmin : adj.minMultiplier < u128Max) :
    Recovers adj (adj.targetWeight + adj.targetWeight / 100) ↔
      adj.minMultiplier < adj.convert (adj.targetWeight + adj.targetWeight / 100)
        adj.minMultiplier := by
  have hweight : adj.targetWeight ≤ adj.targetWeight + adj.targetWeight / 100 := Nat.le_add_right _ _
  constructor
  · intro hrecovers
    obtain ⟨k, hk⟩ := hrecovers adj.minMultiplier (adj.minMultiplier + 1) hmin
    by_contra hstuck
    -- A block that does not raise it leaves it at the minimum, and so do any number of them.
    have hfixed : adj.convert (adj.targetWeight + adj.targetWeight / 100) adj.minMultiplier =
        adj.minMultiplier :=
      Nat.le_antisymm (Nat.not_lt.mp hstuck) TargetedFeeAdjustment.minMultiplier_le_convert
    have hreached :=
      hk (List.replicate k (adj.targetWeight + adj.targetWeight / 100)) (by simp) (by simp)
    unfold finalized at hreached
    rw [drift_eq_of_fixed] at hreached
    · omega
    · intro weight hmem
      rw [List.eq_of_mem_replicate hmem, hfixed]
  · intro hraised m level hlevel
    have hpos : 0 < adj.excess (adj.targetWeight + adj.targetWeight / 100) adj.minMultiplier := by
      rw [TargetedFeeAdjustment.convert_of_le hweight, Nat.max_self] at hraised
      by_contra hzero
      rw [Nat.eq_zero_of_not_pos hzero, Nat.add_zero, Fixed.saturated_eq hmin.le,
        Nat.max_self] at hraised
      exact Nat.lt_irrefl _ hraised
    refine ⟨level, fun weights hlength hweights => ?_⟩
    have hrises : min u128Max (0 + weights.length * 1) ≤ drift adj.convert 0 weights := by
      apply drift_rises _ (Nat.zero_le _)
      intro weight hmem previous _
      rw [TargetedFeeAdjustment.convert_of_le (hweight.trans (hweights weight hmem))]
      have hmore : adj.excess (adj.targetWeight + adj.targetWeight / 100) adj.minMultiplier ≤
          adj.excess weight (max previous adj.minMultiplier) :=
        TargetedFeeAdjustment.excess_mono (hweights weight hmem) (Nat.le_max_right _ _)
      apply le_max_of_le_left
      exact le_min ((Nat.min_le_right _ _).trans (by omega)) (Nat.min_le_left _ _)
    calc level
        ≤ min u128Max (0 + weights.length * 1) := Nat.le_min.mpr ⟨hlevel, by omega⟩
      _ ≤ drift adj.convert 0 weights := hrises
      _ ≤ finalized adj m weights := by
          apply drift_mono _ (Nat.zero_le _)
          intro weight hmem
          exact TargetedFeeAdjustment.convert_mono (hweight.trans (hweights weight hmem))

/-- **The integrity test is exact**, where it tests anything: the multiplier comes back from
    the minimum to any level under blocks that are one percent heavier than the target if and
    only if the test passes. A target of which one percent is nothing passes as well, and there
    the multiplier does not. -/
theorem recovers_iff (hmin : adj.minMultiplier < u128Max) (hblock : adj.weights.maxBlock ≤ u64Max)
    (htotal : adj.weights.maxTotal.isSome = true) :
    Recovers adj (adj.targetWeight + adj.targetWeight / 100) ↔ 0 < adj.targetWeight / 100 ∧
      adj.integrityTest := by
  have hfits : adj.weights.maxBlock * Fixed.div ≤ u128Max :=
    (Nat.mul_le_mul_right _ hblock).trans (by decide)
  rw [recovers_iff_raised hmin]
  constructor
  · intro hraised
    refine ⟨Nat.pos_of_ne_zero fun hzero => ?_, hfits, htotal, .inr hraised⟩
    rw [hzero, Nat.add_zero, TargetedFeeAdjustment.convert_of_le le_rfl,
      TargetedFeeAdjustment.excess_targetWeight, Nat.max_self, Nat.add_zero,
      Fixed.saturated_eq hmin.le, Nat.max_self] at hraised
    exact Nat.lt_irrefl _ hraised
  · rintro ⟨hpos, -, -, hzero | hraised⟩
    · exact absurd hzero hpos.ne'
    · exact hraised

end Blocks

/-! ## A sample -/

/-- A quarter of the normal class as target. -/
def sampleAdjustment : TargetedFeeAdjustment where
  weights := ⟨2000000000000, some 1500000000000, fun _ => 125000000⟩
  target := ⟨250000000000000000, by decide⟩
  variability := 30000000000000
  minMultiplier := 1000000000

/-- An empty block, one of the target weight and a full one, from the multiplier one. -/
theorem multiplier_bounds_sample :
    Fixed.ofInteger 1 - 3 * sampleAdjustment.shrink (Fixed.ofInteger 1) ≤
        finalized sampleAdjustment (Fixed.ofInteger 1) [0, 375000000000, 2000000000000] ∧
      finalized sampleAdjustment (Fixed.ofInteger 1) [0, 375000000000, 2000000000000] ≤
        finalized sampleAdjustment (Fixed.ofInteger 1) (List.replicate 3 1500000000000) ∧
      min u128Max (Fixed.ofInteger 1 + 3 * sampleAdjustment.growth (Fixed.ofInteger 1)) ≤
        finalized sampleAdjustment (Fixed.ofInteger 1) (List.replicate 3 1500000000000) :=
  multiplier_bounds (by decide) [0, 375000000000, 2000000000000]

theorem recovers_iff_sample :
    Recovers sampleAdjustment (sampleAdjustment.targetWeight + sampleAdjustment.targetWeight / 100) :=
  (recovers_iff (by decide) (by decide) (by decide)).mpr
    ⟨by decide +kernel, by decide +kernel, by decide +kernel, .inr (by decide +kernel)⟩

end TransactionFee
end Composable
