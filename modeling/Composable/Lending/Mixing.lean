import Composable.Lending.Positions

/-!
# `Lending.Mixing` — what a borrow adds to a debt

A borrow gives its owner the mean of the index of the market and of its own, weighted by the shares
of the amount and of the principal in whole percent. A debt is the principal times a ratio of
indexes, so the right weights would be those of the debts, and the arithmetic mean of two different
indexes takes something off the debt (`excess`). Shares in whole percent lose up to a few percent of
the index, and add as much to the debt (`lost`).

`AddsUp` says of the principal, the two indexes, the debt and the amount that the two cancel up to
one unit: then, and only then, the debt grows by the amount (`borrow_adds_iff`). A first borrow has
no principal, and there neither is anything lost nor does the mean take anything off.
-/

namespace Composable
namespace Lending

/-! ## Means -/

/-- What an index loses if it is weighted by `k` out of `total` in whole percent, times `total`. -/
def lostShare (index k total : Nat) : Int :=
  index * k - total * Fixed.quotient index (Fixed.ofPercent (Fixed.percentFromRational k total))
    Fixed.div

/-- What a borrow starts from: the principal on hold, what is owed of it, the two
    indexes, and the amount. -/
structure Borrowing where
  principal : Nat
  owed : Nat
  accountIndex : Nat
  marketIndex : Nat
  amount : Nat

namespace Borrowing

/-- The principal afterwards. -/
def total (b : Borrowing) : Nat := b.principal + b.amount

/-- The exact mean of the indexes, times `total`. -/
def weighted (b : Borrowing) : Int := b.marketIndex * b.amount + b.accountIndex * b.principal

/-- What both indexes lose, weighted in whole percent. -/
def lost (b : Borrowing) : Int :=
  lostShare b.marketIndex b.amount b.total + lostShare b.accountIndex b.principal b.total

/-- What the exact mean exceeds the index by at which `total` is worth the debt and
    the amount, times both. -/
def excess (b : Borrowing) : Int :=
  (b.owed + b.amount) * b.weighted - b.total * b.total * b.marketIndex

/-- A unit of debt, by what is left of the mean. -/
def unit (b : Borrowing) : Int := b.weighted - b.lost

/-- What the lost shares add to the debt, less what the mean takes off. -/
def drift (b : Borrowing) : Int := (b.owed + b.amount) * b.lost - b.excess

/-- The drift is below `k` units; by half a unit of `10 ^ -18`, where debts are
    rounded to the nearest. -/
def DriftsBelow (b : Borrowing) (k : Int) : Prop :=
  b.drift < k * b.unit ∧
    (b.total * b.marketIndex * Fixed.div ≤ u128Max ∨ b.unit < 2 ^ 32 * b.total ∨
      2 * Fixed.div * b.drift + b.unit ≤ 2 * Fixed.div * (k * b.unit))

instance (b : Borrowing) (k : Int) : Decidable (b.DriftsBelow k) :=
  inferInstanceAs (Decidable (_ ∧ _))

/-- What is lost and what is taken off cancel up to one unit, and the debt can be computed. -/
def AddsUp (b : Borrowing) : Prop :=
  b.total = 0 ∨ b.total * b.marketIndex ≤ u128Max ∧ b.DriftsBelow (2 ^ 64 - (b.owed + b.amount)) ∧
    b.DriftsBelow 2 ∧ ¬ b.DriftsBelow (-1)

instance (b : Borrowing) : Decidable b.AddsUp := inferInstanceAs (Decidable (_ ∨ _ ∧ _ ∧ _ ∧ _))

/-- The index that the code mixes. -/
def mixed (b : Borrowing) : Nat := updatedIndex b.marketIndex b.amount b.principal b.accountIndex

variable {b : Borrowing}

theorem unit_eq (b : Borrowing) : b.unit = b.total * b.mixed := by
  unfold unit weighted lost lostShare mixed updatedIndex total
  push_cast
  ring

theorem drift_eq (b : Borrowing) :
    b.drift = b.total * (b.total * b.marketIndex - (b.owed + b.amount) * b.mixed) := by
  have hmean : b.weighted = b.lost + b.total * b.mixed := by
    rw [← b.unit_eq, unit, add_sub_cancel]
  rw [drift, excess, hmean]
  ring

/-- A bound on the drift is one on the debt. -/
theorem driftsBelow_iff {n : Nat} {k : Int} (htotal : 0 < b.total) (hmixed : 0 < b.mixed)
    (hn : (n : Int) = b.owed + b.amount + k) :
    b.DriftsBelow k ↔ debtOf b.total b.marketIndex b.mixed < n := by
  have hpos : (0 : Int) < b.total := Int.natCast_pos.mpr htotal
  obtain rfl : k = n - (b.owed + b.amount) := by omega
  rw [debtOf_lt_iff hmixed, DriftsBelow, b.drift_eq, b.unit_eq]
  generalize b.total = total at hpos ⊢
  generalize b.mixed = mixed at ⊢
  have hunits : (total * (total * b.marketIndex - (b.owed + b.amount) * mixed) : Int) <
      (n - (b.owed + b.amount)) * (total * mixed) ↔ total * b.marketIndex < n * mixed := by
    rw [← sub_pos, show ((n - (b.owed + b.amount)) * (total * mixed) -
      total * (total * b.marketIndex - (b.owed + b.amount) * mixed) : Int) =
        total * (n * mixed - total * b.marketIndex) by ring, mul_pos_iff_of_pos_left hpos, sub_pos]
    norm_cast
  have hlimb : (total * mixed : Int) < 2 ^ 32 * total ↔ mixed < 2 ^ 32 := by
    rw [mul_comm (2 ^ 32 : Int), mul_lt_mul_iff_right₀ hpos]
    norm_cast
  have hhalf : (2 * Fixed.div * (total * (total * b.marketIndex - (b.owed + b.amount) * mixed)) +
      total * mixed : Int) ≤
      2 * Fixed.div * ((n - (b.owed + b.amount)) * (total * mixed)) ↔
        2 * (total * b.marketIndex * Fixed.div) + mixed ≤ 2 * (n * Fixed.div * mixed) := by
    rw [← sub_nonneg, show (2 * Fixed.div * ((n - (b.owed + b.amount)) * (total * mixed)) -
      (2 * Fixed.div * (total * (total * b.marketIndex - (b.owed + b.amount) * mixed)) +
        total * mixed) : Int) =
        total * (2 * (n * Fixed.div * mixed) - (2 * (total * b.marketIndex * Fixed.div) + mixed)) by
          ring,
      mul_nonneg_iff_of_pos_left hpos, sub_nonneg]
    norm_cast
  rw [hunits, hlimb, hhalf, Fixed.RoundedDown, or_assoc]

/-- Without an index the whole total is drift. -/
theorem mixed_pos (h : b.DriftsBelow 2) : 0 < b.mixed := by
  apply Nat.pos_of_ne_zero
  intro hzero
  have hdrift := h.1
  rw [b.drift_eq, b.unit_eq, hzero] at hdrift
  have hproduct : (0 : Int) ≤ b.total * (b.total * b.marketIndex) := by exact_mod_cast Nat.zero_le _
  simp only [Nat.cast_zero, mul_zero, sub_zero] at hdrift
  omega

/-- The debt is within one unit of the sum, and within 64 bits, exactly where
    the drift is within one. -/
theorem adds_iff (htotal : 0 < b.total) (hmixed : 0 < b.mixed) :
    debtOf b.total b.marketIndex b.mixed ≤ u64Max ∧
      debtOf b.total b.marketIndex b.mixed ≤ b.owed + b.amount + 1 ∧
      b.owed + b.amount ≤ debtOf b.total b.marketIndex b.mixed + 1 ↔
    b.DriftsBelow (2 ^ 64 - (b.owed + b.amount)) ∧ b.DriftsBelow 2 ∧ ¬ b.DriftsBelow (-1) := by
  have hwidth : b.DriftsBelow (2 ^ 64 - (b.owed + b.amount)) ↔
      debtOf b.total b.marketIndex b.mixed < 2 ^ 64 :=
    driftsBelow_iff htotal hmixed (by push_cast; ring)
  have hupper : b.DriftsBelow 2 ↔ debtOf b.total b.marketIndex b.mixed < b.owed + b.amount + 2 :=
    driftsBelow_iff htotal hmixed (by push_cast; ring)
  have hlower :
      b.DriftsBelow (-1) ↔ debtOf b.total b.marketIndex b.mixed + 1 < b.owed + b.amount := by
    rcases Nat.eq_zero_or_pos (b.owed + b.amount) with hnothing | hpos
    · -- There is nothing that the total could be too small for.
      refine iff_of_false (fun h => ?_) (by omega)
      have hdrift := h.1
      have hproduct : (0 : Int) ≤ b.total * (b.total * b.marketIndex) := by
        exact_mod_cast Nat.zero_le _
      have hunit : (0 : Int) ≤ b.total * b.mixed := by exact_mod_cast Nat.zero_le _
      rw [b.drift_eq, b.unit_eq,
        show (b.owed + b.amount : Int) = 0 by exact_mod_cast hnothing] at hdrift
      simp only [zero_mul, sub_zero] at hdrift
      omega
    · have hbelow := driftsBelow_iff (n := b.owed + b.amount - 1) (k := -1) htotal hmixed (by omega)
      rw [hbelow]
      omega
  rw [hwidth, hupper, hlower]
  unfold u64Max
  omega

end Borrowing

/-! ## Borrowing -/

variable {A X F : Type} [DecidableEq A] [DecidableEq X]
variable {cfg : Config A X F} {s s' : State A X F} {env : Env X} {m amount : Nat} {d : X}
  {owner : A} {u : Unit}

/-- What a borrow of `owner` in market `m`, whose debt token is `d`, starts from. -/
def State.borrowing (s : State A X F) (cfg : Config A X F) (m : Nat) (d : X) (owner : A)
    (amount : Nat) : Borrowing where
  principal := (s.book cfg m d).principal owner
  owed := (s.book cfg m d).owed owner
  accountIndex := ((s.book cfg m d).start owner).getD 0
  marketIndex := (s.book cfg m d).index
  amount := amount

/-- The book after a borrow that went through: the principal grows, and the
    index is the mixed one. -/
theorem borrow_book (h : Separated cfg s) (hd : s.debtMarkets m = some d)
    (howner : ∀ n, owner ≠ cfg.accountId n)
    (hborrow : borrowInternal cfg env m owner amount s = (.ok u, s')) :
    s'.debtMarkets m = some d ∧ s.borrowIndex m = some (s.book cfg m d).index ∧
      s'.book cfg m d = (s.book cfg m d).borrow owner amount
        (s.borrowing cfg m d owner amount).mixed := by
  obtain ⟨config, vault, marketIndex, hb, hrent⟩ := borrow_ok hborrow
  have hasset : d ≠ vault.assetId := fun heq => (h.asset hb.market_eq hb.vault_eq).2 m (heq ▸ hd)
  have hindex :
      s.nextIndex cfg m owner amount marketIndex = (s.borrowing cfg m d owner amount).mixed := by
    rw [State.nextIndex, State.debtAsset_eq hd, h.balance_debt hd howner, State.borrowing,
      Borrowing.mixed, State.book, hb.index_eq, Option.getD_some]
  have hmarket : s.borrowIndex m = some (s.book cfg m d).index := by
    rw [State.book, hb.index_eq, Option.getD_some]
  rw [← hindex]
  generalize s.nextIndex cfg m owner amount marketIndex = index at hrent ⊢
  have hborrowed : Separated cfg (s.borrowed cfg vault.assetId m owner amount index) :=
    h.borrowed hd hb
  have hbook : (s.borrowed cfg vault.assetId m owner amount index).book cfg m d =
      (s.book cfg m d).borrow owner amount index := book_borrowed hd hasset howner
  rcases payRent_ok hrent with ⟨-, -, rfl⟩ | ⟨-, rfl⟩
  · exact ⟨hd, hmarket, (book_quiet hborrowed.quiet_rented hd).trans hbook⟩
  · exact ⟨hd, hmarket, hbook⟩

/-- The debt has grown by the amount, up to one unit. -/
def Adds (s s' : State A X F) (m : Nat) (owner : A) (amount : Nat) : Prop :=
  ∃ before after, borrowBalanceCurrent m owner s = (.ok before, s) ∧
    borrowBalanceCurrent m owner s' = (.ok after, s') ∧
    after.getD 0 ≤ before.getD 0 + amount + 1 ∧ before.getD 0 + amount ≤ after.getD 0 + 1

section AfterBorrow

variable (h : Separated cfg s) (hordered : Ordered s) (hd : s.debtMarkets m = some d)
  (howner : ∀ n, owner ≠ cfg.accountId n) (hborrow : borrowInternal cfg env m owner amount s =
    (.ok u, s'))
include h hd howner hborrow

/-- The owner's index after a borrow, and what is on hold of its debt. -/
theorem position_borrowed :
    s'.debtIndex.get m owner = some (s.borrowing cfg m d owner amount).mixed ∧
      s'.ledger.reserved d owner = (s.borrowing cfg m d owner amount).total := by
  obtain ⟨-, -, hbook⟩ := borrow_book h hd howner hborrow
  constructor
  · show (s'.book cfg m d).start owner = _
    rw [hbook]
    exact Function.update_self ..
  · show (s'.book cfg m d).principal owner = _
    rw [hbook]
    exact Function.update_self ..

include hordered

/-- After a borrow nothing is owed exactly if nothing was, and nothing was borrowed. -/
theorem none_after_borrow :
    borrowBalanceCurrent m owner s' = (.ok none, s') ↔
      (s.borrowing cfg m d owner amount).total = 0 := by
  obtain ⟨-, hindexes⟩ := hordered.after_borrow hborrow
  obtain ⟨hd', hindex, -⟩ := borrow_book h hd howner hborrow
  obtain ⟨hstart, hprincipal⟩ := position_borrowed h hd howner hborrow
  rw [← hprincipal]
  constructor
  · exact fun hnone => (borrowBalanceCurrent_none hd' hnone).2
  · intro hzero
    exact borrowBalanceCurrent_ok.mpr
      ⟨rfl, d, hd', .inr ⟨_, _, hindexes ▸ hindex, hstart, borrowFromPrincipal_none.mpr hzero⟩⟩

/-- Else it is the new principal, scaled by the mixed index. -/
theorem owed_after_borrow (owed : Nat) (hpos : 0 < (s.borrowing cfg m d owner amount).total) :
    let b := s.borrowing cfg m d owner amount
    borrowBalanceCurrent m owner s' = (.ok (some owed), s') ↔ 0 < b.mixed ∧
      b.total * b.marketIndex ≤ u128Max ∧
      debtOf b.total b.marketIndex b.mixed ≤ u64Max ∧
      owed = debtOf b.total b.marketIndex b.mixed := by
  obtain ⟨hordered', hindexes⟩ := hordered.after_borrow hborrow
  obtain ⟨hd', hindex, -⟩ := borrow_book h hd howner hborrow
  obtain ⟨hstart, hprincipal⟩ := position_borrowed h hd howner hborrow
  rw [← hprincipal] at hpos
  have hreport : borrowBalanceCurrent m owner s' = (.ok (some owed), s') ↔ _ :=
    hordered'.owed_iff hd' hstart hpos
  simp only [hprincipal] at hreport
  constructor
  · intro howed
    obtain ⟨i, hi, hfound⟩ := hreport.mp howed
    obtain rfl := Option.some.inj ((hindexes ▸ hindex).symm.trans hi)
    exact hfound
  · intro hfound
    exact hreport.mpr ⟨_, hindexes ▸ hindex, hfound⟩

end AfterBorrow

/-- Account `1` has borrowed `150`, at an index of one, and borrows again a block later. -/
def againOps : List (Op Nat Nat) :=
  pledgedOps ++ [.borrow ⟨1, parOracle⟩ (.signed 1) 1 150, .initializeBlock 2]

theorem againOps_byUser : ∀ op ∈ againOps, op.ByUser sample := by
  simp [againOps, pledgedOps, Op.ByUser, Op.signer, sample_user]

/-- The storage before and after it borrows `amount`. -/
def sampleBorrow (amount : Nat) : Option (State Nat Nat Nat × State Nat Nat Nat) :=
  (run (step sample) (State.genesis sampleLedger 100 0) againOps).bind fun s =>
    match borrowInternal sample ⟨2, parOracle⟩ 1 1 amount s with
    | (.ok _, s') => some (s, s')
    | (.error _, _) => none

theorem sampleBorrow_ok {s s' : State Nat Nat Nat} (h : sampleBorrow amount = some (s, s')) :
    run (step sample) (State.genesis sampleLedger 100 0) againOps = some s ∧
      borrowInternal sample ⟨2, parOracle⟩ 1 1 amount s = (.ok (), s') := by
  obtain ⟨t, hrun, hmatch⟩ := Option.bind_eq_some_iff.mp h
  split at hmatch
  next heq =>
    obtain ⟨rfl, rfl⟩ := hmatch
    exact ⟨hrun, heq⟩
  next => cases hmatch

end Lending
end Composable
