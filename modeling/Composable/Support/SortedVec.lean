import Mathlib.Data.List.Pairwise
import Mathlib.Data.List.InsertIdx
import Mathlib.Order.Lattice
import Mathlib.Order.Nat

/-!
# `Support.SortedVec` — vectors kept sorted by binary search

A vector that is edited only where a binary search says stays sorted by its keys, and no key occurs
twice. `binarySearchByKey` is the halving loop: it finds the index of the key, or the index at which
the key belongs. `search_ok` and `search_error` say what the loop has found; `Sorted.insertIdx`,
`Sorted.eraseIdx` and `Sorted.set` are the three edits.

A vector that may hold a key more than once is `NonDecreasing`. An insertion at the index of the
search, found or not, keeps it so (`NonDecreasing.insertIdx`).
-/

namespace Composable
namespace SortedVec

variable {α κ : Type} [LinearOrder κ]

/-- The loop over `left..right`. An error is the index at which the key belongs. -/
def search (key : α → κ) (k : κ) (l : List α) : Nat → Nat → Nat → Except Nat Nat
  | 0, left, _ => .error left
  | fuel + 1, left, right =>
      if left < right then
        let mid := left + (right - left) / 2
        match l[mid]? with
        | none => .error left
        | some a =>
            if key a < k then search key k l fuel (mid + 1) right
            else if k < key a then search key k l fuel left mid
            else .ok mid
      else .error left

/-- `binary_search_by_key`. -/
def binarySearchByKey (key : α → κ) (k : κ) (l : List α) : Except Nat Nat :=
  search key k l l.length 0 l.length

/-- Sorted by the keys, without duplicates. -/
def Sorted (key : α → κ) (l : List α) : Prop := l.Pairwise fun a b => key a < key b

/-- Sorted by the keys. -/
def NonDecreasing (key : α → κ) (l : List α) : Prop := l.Pairwise fun a b => key a ≤ key b

variable {key : α → κ} {k : κ} {l : List α} {a b : α} {i j : Nat}

theorem Sorted.lt (h : Sorted key l) (hi : l[i]? = some a) (hj : l[j]? = some b) (hij : i < j) :
    key a < key b := by
  obtain ⟨hi', rfl⟩ := List.getElem?_eq_some_iff.mp hi
  obtain ⟨hj', rfl⟩ := List.getElem?_eq_some_iff.mp hj
  exact List.pairwise_iff_getElem.mp h i j hi' hj' hij

theorem Sorted.nonDecreasing (h : Sorted key l) : NonDecreasing key l := h.imp le_of_lt

theorem NonDecreasing.le (h : NonDecreasing key l) (hi : l[i]? = some a) (hj : l[j]? = some b)
    (hij : i ≤ j) : key a ≤ key b := by
  rcases hij.lt_or_eq with hij | rfl
  · obtain ⟨hi', rfl⟩ := List.getElem?_eq_some_iff.mp hi
    obtain ⟨hj', rfl⟩ := List.getElem?_eq_some_iff.mp hj
    exact List.pairwise_iff_getElem.mp h i j hi' hj' hij
  · rw [Option.some.inj (hi.symm.trans hj)]

/-- Elements with one key are one element. -/
theorem Sorted.eq_of_key (h : Sorted key l) (hi : l[i]? = some a) (hj : l[j]? = some b)
    (hkey : key a = key b) : i = j := by
  rcases lt_trichotomy i j with hij | hij | hij
  · exact absurd hkey (h.lt hi hj hij).ne
  · exact hij
  · exact absurd hkey (h.lt hj hi hij).ne'

theorem Sorted.inj (h : Sorted key l) (ha : a ∈ l) (hb : b ∈ l) (hkey : key a = key b) : a = b := by
  obtain ⟨i, hi⟩ := List.mem_iff_getElem?.mp ha
  obtain ⟨j, hj⟩ := List.mem_iff_getElem?.mp hb
  rw [h.eq_of_key hi hj hkey] at hi
  exact Option.some.inj (hi.symm.trans hj)

/-! ## What the search finds -/

/-- **Found**: the element at the index has the key. -/
theorem search_ok {fuel left right : Nat} (h : search key k l fuel left right = .ok i) :
    ∃ a, l[i]? = some a ∧ key a = k := by
  induction fuel generalizing left right with
  | zero => cases h
  | succ fuel ih =>
      simp only [search] at h
      split at h
      · split at h
        · cases h
        next a ha =>
          split at h
          · exact ih h
          · split at h
            · exact ih h
            next hlow hhigh =>
              rw [← Except.ok.inj h]
              exact ⟨a, ha, le_antisymm (not_lt.mp hhigh) (not_lt.mp hlow)⟩
      · cases h

/-- **Not found**: what is left of the index has a smaller key, and what is right of it a
    greater one. Around the part still to be searched this holds from the start (`hleft`,
    `hright`), and halving keeps it. -/
theorem search_error {fuel left right : Nat} (hsorted : NonDecreasing key l)
    (hfuel : right - left ≤ fuel)
    (hbound : left ≤ right) (hlength : right ≤ l.length)
    (hleft : ∀ j a, j < left → l[j]? = some a → key a < k)
    (hright : ∀ j a, right ≤ j → l[j]? = some a → k < key a)
    (h : search key k l fuel left right = .error i) :
    (∀ j a, j < i → l[j]? = some a → key a < k) ∧ ∀ j a, i ≤ j → l[j]? = some a → k < key a := by
  induction fuel generalizing left right with
  | zero =>
      obtain rfl : left = right := by omega
      rw [← Except.error.inj h]
      exact ⟨hleft, hright⟩
  | succ fuel ih =>
      simp only [search] at h
      split at h
      next hlt =>
        have hmid : left + (right - left) / 2 < right := by omega
        split at h
        next hnone => exact absurd (List.getElem?_eq_none_iff.mp hnone) (by omega)
        next a ha =>
          split at h
          next hlow =>
            refine ih (by omega) (by omega) hlength (fun j b hj hb => ?_) hright h
            exact (hsorted.le hb ha (Nat.lt_succ_iff.mp hj)).trans_lt hlow
          next hlow =>
            split at h
            next hhigh =>
              refine ih (by omega) (by omega) (by omega) hleft (fun j b hj hb => ?_) h
              exact hhigh.trans_le (hsorted.le ha hb hj)
            next => cases h
      next hge =>
        obtain rfl : left = right := by omega
        rw [← Except.error.inj h]
        exact ⟨hleft, hright⟩

/-- An index for a key that is not found is within the vector or right behind it, sorted or not. -/
theorem search_error_le {fuel left right : Nat} (hleft : left ≤ l.length) (hright : right ≤ l.length)
    (h : search key k l fuel left right = .error i) : i ≤ l.length := by
  induction fuel generalizing left right with
  | zero => rwa [← Except.error.inj h]
  | succ fuel ih =>
      simp only [search] at h
      split at h
      next hlt =>
        have hmid : left + (right - left) / 2 < right := by omega
        split at h
        · rwa [← Except.error.inj h]
        next a ha =>
          split at h
          · exact ih (by omega) hright h
          · split at h
            · exact ih hleft (by omega) h
            · cases h
      · rwa [← Except.error.inj h]

theorem binarySearch_ok (h : binarySearchByKey key k l = .ok i) : ∃ a, l[i]? = some a ∧ key a = k :=
  search_ok h

theorem binarySearch_error_le (h : binarySearchByKey key k l = .error i) : i ≤ l.length :=
  search_error_le (Nat.zero_le _) (Nat.le_refl _) h

theorem NonDecreasing.binarySearch_error (hsorted : NonDecreasing key l)
    (h : binarySearchByKey key k l = .error i) :
    (∀ j a, j < i → l[j]? = some a → key a < k) ∧ ∀ j a, i ≤ j → l[j]? = some a → k < key a :=
  search_error hsorted (Nat.le_refl _) (Nat.zero_le _) (Nat.le_refl _)
    (fun _ _ hj => absurd hj (Nat.not_lt_zero _))
    (fun _ _ hj ha => absurd (List.getElem?_eq_some_iff.mp ha).1 (Nat.not_lt.mpr hj)) h

theorem Sorted.binarySearch_error (hsorted : Sorted key l)
    (h : binarySearchByKey key k l = .error i) :
    i ≤ l.length ∧ (∀ j a, j < i → l[j]? = some a → key a < k) ∧ ∀ j a, i ≤ j → l[j]? = some a →
      k < key a :=
  ⟨binarySearch_error_le h, hsorted.nonDecreasing.binarySearch_error h⟩

/-- A key that is not found is not there. -/
theorem Sorted.key_ne_of_error (hsorted : Sorted key l) (h : binarySearchByKey key k l = .error i)
    (ha : a ∈ l) : key a ≠ k := by
  obtain ⟨-, hlow, hhigh⟩ := hsorted.binarySearch_error h
  obtain ⟨j, hj⟩ := List.mem_iff_getElem?.mp ha
  rcases Nat.lt_or_ge j i with hji | hji
  · exact (hlow j a hji hj).ne
  · exact (hhigh j a hji hj).ne'

/-! ## Edits -/

/-- Inserting between what is related to the new element on either side. -/
theorem pairwise_insertIdx {R : α → α → Prop} (h : l.Pairwise R)
    (hlow : ∀ j b, j < i → l[j]? = some b → R b a)
    (hhigh : ∀ j b, i ≤ j → l[j]? = some b → R a b) : (l.insertIdx i a).Pairwise R := by
  induction l generalizing i with
  | nil => cases i <;> simp
  | cons c l ih =>
      cases i with
      | zero =>
          rw [List.insertIdx_zero]
          refine .cons (fun b hb => ?_) h
          obtain ⟨j, hj⟩ := List.mem_iff_getElem?.mp hb
          exact hhigh j b (Nat.zero_le j) hj
      | succ i =>
          obtain ⟨hc, hl⟩ := List.pairwise_cons.mp h
          rw [List.insertIdx_succ_cons]
          refine .cons (fun b hb => ?_) (ih hl (fun j b hj => hlow (j + 1) b (by omega)) fun j b hj =>
            hhigh (j + 1) b (by omega))
          rcases List.eq_or_mem_of_mem_insertIdx hb with rfl | hb
          · exact hlow 0 c (Nat.succ_pos i) rfl
          · exact hc b hb

/-- **Insertion** where the key belongs. -/
theorem Sorted.insertIdx (hsorted : Sorted key l) (h : binarySearchByKey key (key a) l = .error i) :
    Sorted key (l.insertIdx i a) ∧ ∀ b, b ∈ l.insertIdx i a ↔ b = a ∨ b ∈ l := by
  obtain ⟨hi, hlow, hhigh⟩ := hsorted.binarySearch_error h
  exact ⟨pairwise_insertIdx hsorted hlow hhigh, fun b => List.mem_insertIdx hi⟩

/-- The index of a search, whether the key was found there or belongs there. -/
def foundOrAt : Except Nat Nat → Nat
  | .ok i => i
  | .error i => i

/-- An insertion at the index of the search adds the element, sorted or not. -/
theorem perm_insertIdx_search (a : α) :
    (l.insertIdx (foundOrAt (binarySearchByKey key k l)) a).Perm (a :: l) := by
  apply List.perm_insertIdx
  cases h : binarySearchByKey key k l with
  | error i => exact binarySearch_error_le h
  | ok i =>
      obtain ⟨b, hb, -⟩ := binarySearch_ok h
      exact (List.getElem?_eq_some_iff.mp hb).1.le

/-- **Insertion** next to an element with the same key, or where the key belongs. -/
theorem NonDecreasing.insertIdx (hsorted : NonDecreasing key l) :
    NonDecreasing key (l.insertIdx (foundOrAt (binarySearchByKey key (key a) l)) a) := by
  cases h : binarySearchByKey key (key a) l with
  | error i =>
      obtain ⟨hlow, hhigh⟩ := hsorted.binarySearch_error h
      exact pairwise_insertIdx hsorted (fun j b hj hb => (hlow j b hj hb).le) fun j b hj hb =>
        (hhigh j b hj hb).le
  | ok i =>
      obtain ⟨b, hb, hkey⟩ := binarySearch_ok h
      apply pairwise_insertIdx hsorted
      · intro j c hj hc
        exact hkey ▸ hsorted.le hc hb (Nat.le_of_lt hj)
      · intro j c hj hc
        exact hkey ▸ hsorted.le hb hc hj

/-- **Removal** of the key that was found. -/
theorem Sorted.eraseIdx (hsorted : Sorted key l) (h : binarySearchByKey key k l = .ok i) :
    Sorted key (l.eraseIdx i) ∧ ∀ b, b ∈ l.eraseIdx i ↔ b ∈ l ∧ key b ≠ k := by
  obtain ⟨a, ha, rfl⟩ := binarySearch_ok h
  refine ⟨hsorted.sublist (List.eraseIdx_sublist l i), fun b => ?_⟩
  rw [List.mem_eraseIdx_iff_getElem?]
  constructor
  · rintro ⟨j, hne, hj⟩
    exact ⟨List.mem_of_getElem? hj, fun hkey => hne (hsorted.eq_of_key hj ha hkey)⟩
  · rintro ⟨hb, hkey⟩
    obtain ⟨j, hj⟩ := List.mem_iff_getElem?.mp hb
    refine ⟨j, ?_, hj⟩
    rintro rfl
    exact hkey (congrArg key (Option.some.inj (hj.symm.trans ha)))

/-- **Replacement** of the element that was found by one with the same key. -/
theorem Sorted.set (hsorted : Sorted key l) (h : binarySearchByKey key (key a) l = .ok i) :
    Sorted key (l.set i a) ∧ ∀ b, b ∈ l.set i a ↔ b = a ∨ (b ∈ l ∧ key b ≠ key a) := by
  obtain ⟨c, hc, hkey⟩ := binarySearch_ok h
  obtain ⟨hi, rfl⟩ := List.getElem?_eq_some_iff.mp hc
  constructor
  · have hkeys : (l.set i a).map key = l.map key := by
      rw [List.map_set, ← hkey, ← List.getElem_map key (h := by simpa using hi),
        List.set_getElem_self]
    rw [Sorted, ← List.pairwise_map, hkeys, List.pairwise_map]
    exact hsorted
  · intro b
    rw [List.mem_iff_getElem?]
    simp only [List.getElem?_set]
    constructor
    · rintro ⟨j, hj⟩
      split at hj
      · rw [Option.some.injEq] at hj
        exact .inl hj.symm
      next hne =>
        refine .inr ⟨List.mem_of_getElem? hj, fun hb => hne ?_⟩
        exact hsorted.eq_of_key hc hj (hkey.trans hb.symm)
    · rintro (rfl | ⟨hb, hne⟩)
      · exact ⟨i, by simp [hi]⟩
      · obtain ⟨j, hj⟩ := List.mem_iff_getElem?.mp hb
        refine ⟨j, ?_⟩
        rw [if_neg]
        · exact hj
        · rintro rfl
          exact hne (by rw [← hkey, Option.some.inj (hj.symm.trans hc)])

end SortedVec
end Composable
