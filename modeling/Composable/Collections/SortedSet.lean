import Composable.Collections.BoundedSortedVec
import Mathlib.Data.Finset.Sort
import Mathlib.Data.Multiset.Sort

/-!
# `Collections.SortedSet` — sorted vectors and sorted sets

Embeds `SortedVec` and `SortedSet` of
`frame/composable-support/src/collections/vec/sorted/mod.rs`. Elements that compare equal are one
here: what `Ord` does not tell apart, the operations do not either.

A sorted vector holds a multiset (`SortedVec.vec_refines`), and a sorted set a finite set, where an
index is the number of smaller elements (`set_refines`), both in order. Deserialisation checks the
order of what it reads and not that it is without duplicates, so `Op.Distinct` is what a set asks
of it (`strict_iff`). The closure of `dedup_by_key` may change what it is called with, so
`VecOp.Pure` is what a vector asks of it.
-/

namespace Composable
namespace Collections

open Composable.SortedVec (binarySearchByKey foundOrAt Sorted NonDecreasing)

variable {T : Type} [LinearOrder T]

/-! ## Sorted vectors -/

/-- `core::ops::Bound`, for the ranges of `drain`. -/
inductive Bound where
  | included (n : Nat)
  | excluded (n : Nat)
  | unbounded
deriving DecidableEq, Repr

/-- `slice::range`: the start and the end of a range, or a panic. -/
def range (start end_ : Bound) (len : Nat) : Option (Nat × Nat) :=
  let i := match start with
    | .included n => n
    | .excluded n => n + 1
    | .unbounded => 0
  let j := match end_ with
    | .included n => n + 1
    | .excluded n => n
    | .unbounded => len
  if i ≤ j ∧ j ≤ len then some (i, j) else none

/-- `sort_unstable`. -/
def sortUnstable (l : List T) : List T := l.mergeSort (· ≤ ·)

namespace SortedVec

/-- The index at which the element was put. -/
def insert (element : T) (l : List T) : Nat × List T :=
  let insertAt := foundOrAt (binarySearchByKey id element l)
  (insertAt, l.insertIdx insertAt element)

def appendUnchecked (t : T) (l : List T) : Nat × List T :=
  let l' := l ++ [t]
  (l'.length - 1, l')

/-- The element comes back if it does not belong at the end. -/
def append (t : T) (l : List T) : Except T Nat × List T :=
  match l.getLast? with
  | some last =>
      if last ≤ t then
        let (idx, l') := appendUnchecked t l
        (.ok idx, l')
      else (.error t, l)
  | none =>
      let (idx, l') := insert t l
      (.ok idx, l')

def fromUnsorted (vec : List T) : List T := sortUnstable vec

def findOrInsert (element : T) (l : List T) : Except Nat Nat × List T :=
  match binarySearchByKey id element l with
  | .ok i => (.ok i, l)
  | .error insertAt => (.error insertAt, l.insertIdx insertAt element)

def removeItem (item : T) (l : List T) : Option T × List T :=
  match binarySearchByKey id item l with
  | .ok removeAt => (l[removeAt]?, l.eraseIdx removeAt)
  | .error _ => (none, l)

/-- `none` is a panic: the index is out of bounds. -/
def remove (index : Nat) (l : List T) : Option (T × List T) :=
  l[index]?.map fun a => (a, l.eraseIdx index)

def pop (l : List T) : Option T × List T := (l.getLast?, l.dropLast)

/-- The rest of a vector behind the element that was kept last. -/
def dedupFrom (kept : T) : List T → List T
  | [] => [kept]
  | a :: l => if a = kept then dedupFrom kept l else kept :: dedupFrom a l

/-- `Vec::dedup`: of equal neighbours the first is kept. -/
def dedup : List T → List T
  | [] => []
  | a :: l => dedupFrom a l

/-- The closure of `dedup_by_key` is called with the next element and then with the one that was
    kept last, may change both, and is here given the number of calls that went before. -/
def dedupByKeyFrom {K : Type} [DecidableEq K] (key : Nat → T → T × K) (calls : Nat) (kept : T) :
    List T → List T
  | [] => [kept]
  | a :: l =>
      let (a', next) := key calls a
      let (kept', last) := key (calls + 1) kept
      if next = last then dedupByKeyFrom key (calls + 2) kept' l
        else kept' :: dedupByKeyFrom key (calls + 2) a' l

def dedupByKey {K : Type} [DecidableEq K] (key : Nat → T → T × K) : List T → List T
  | [] => []
  | a :: l => dedupByKeyFrom key 0 a l

/-- What is drained, and what stays. `none` is a panic. -/
def drain (start end_ : Bound) (l : List T) : Option (List T × List T) :=
  (range start end_ l.length).map fun (i, j) => ((l.take j).drop i, l.take i ++ l.drop j)

def mutate (f : List T → List T) (l : List T) : List T := sortUnstable (f l)

def extend (iter : List T) (l : List T) : List T :=
  iter.foldl (fun l t => match append t l with
    | (.ok _, l') => l'
    | (.error t, l') => (insert t l').2) l

/-- `parse_vec`, and the same check of `Decode`. -/
def parseVec (v : List T) : Except String (List T) :=
  if BoundedSortedVec.isSorted id v then .ok v else .error "input sequence is not sorted"

end SortedVec

/-! ## Sorted sets -/

namespace SortedSet

def fromUnsorted (vec : List T) : List T := SortedVec.dedup (SortedVec.fromUnsorted vec)

def insert (element : T) (l : List T) : Nat × List T :=
  SortedVec.insert element (SortedVec.removeItem element l).2

def mutate (f : List T → List T) (l : List T) : List T := SortedVec.dedup (SortedVec.mutate f l)

def extend (iter : List T) (l : List T) : List T := iter.foldl (fun l t => (insert t l).2) l

end SortedSet

/-! ## Operations, side by side -/

/-- What vectors and sets have in common. The closure of `retain` is a predicate. -/
inductive Op (T : Type) where
  | new
  | fromUnsorted (vec : List T)
  | insert (element : T)
  | findOrInsert (element : T)
  | removeItem (item : T)
  | remove (index : Nat)
  | pop
  | clear
  | drain (start end_ : Bound)
  | retain (f : T → Bool)
  | mutate (f : List T → List T)
  | extend (iter : List T)
  | deserialize (v : List T)

inductive Result (T : Type) where
  | unit
  | index (i : Nat)
  | found (r : Except Nat Nat)
  | item (o : Option T)
  | items (l : List T)
  | refused (message : String)

def SortedSet.execute (l : List T) : Op T → Option (List T × Result T)
  | .new => some ([], .unit)
  | .fromUnsorted vec => some (SortedSet.fromUnsorted vec, .unit)
  | .insert element => some ((SortedSet.insert element l).2, .index (SortedSet.insert element l).1)
  | .findOrInsert element =>
      some ((SortedVec.findOrInsert element l).2, .found (SortedVec.findOrInsert element l).1)
  | .removeItem item => some ((SortedVec.removeItem item l).2, .item (SortedVec.removeItem item l).1)
  | .remove index => (SortedVec.remove index l).map fun (a, l') => (l', .item (some a))
  | .pop => some ((SortedVec.pop l).2, .item (SortedVec.pop l).1)
  | .clear => some ([], .unit)
  | .drain start end_ => (SortedVec.drain start end_ l).map fun (drained, l') => (l', .items drained)
  | .retain f => some (l.filter f, .unit)
  | .mutate f => some (SortedSet.mutate f l, .unit)
  | .extend iter => some (SortedSet.extend iter l, .unit)
  | .deserialize v =>
      match SortedVec.parseVec v with
      | .ok l' => some (l', .unit)
      | .error message => some (l, .refused message)

/-! ### The abstract set -/

namespace FiniteSet

/-- The number of smaller elements. -/
def rank (s : Finset T) (a : T) : Nat := (s.filter (· < a)).card

/-- The element with `i` smaller ones. -/
def nth (s : Finset T) (i : Nat) : Option T := (s.sort).find? fun a => rank s a = i

def greatest (s : Finset T) : Option T := if h : s.Nonempty then some (s.max' h) else none

/-- The elements that have from `i` to below `j` smaller ones. -/
def between (s : Finset T) (i j : Nat) : Finset T := s.filter fun a => i ≤ rank s a ∧ rank s a < j

def execute (s : Finset T) : Op T → Option (Finset T × Result T)
  | .new => some (∅, .unit)
  | .fromUnsorted vec => some (vec.toFinset, .unit)
  | .insert a => some (Insert.insert a s, .index (rank s a))
  | .findOrInsert a =>
      some (Insert.insert a s, .found (if a ∈ s then .ok (rank s a) else .error (rank s a)))
  | .removeItem a => some (s.erase a, .item (if a ∈ s then some a else none))
  | .remove i => (nth s i).map fun a => (s.erase a, .item (some a))
  | .pop => some ((greatest s).elim s s.erase, .item (greatest s))
  | .clear => some (∅, .unit)
  | .drain start end_ => (range start end_ s.card).map fun (i, j) =>
      (s \ between s i j, .items ((between s i j).sort))
  | .retain f => some (s.filter fun a => f a, .unit)
  | .mutate f => some ((f (s.sort)).toFinset, .unit)
  | .extend iter => some (s ∪ iter.toFinset, .unit)
  | .deserialize v =>
      if v.Pairwise (· ≤ ·) then some (v.toFinset, .unit) else some (s, .refused "input sequence is not sorted")

end FiniteSet

/-! ### The vector and its multiset -/

/-- What vectors have beside it. `K` is what the closure of `dedup_by_key` tells apart. -/
inductive VecOp (T K : Type) where
  | common (op : Op T)
  | append (t : T)
  | dedup
  | dedupByKey (key : Nat → T → T × K)

variable {K : Type} [DecidableEq K]

def SortedVec.step (l : List T) : VecOp T K → Option (List T)
  | .common .new => some []
  | .common (.fromUnsorted vec) => some (fromUnsorted vec)
  | .common (.insert element) => some (insert element l).2
  | .common (.findOrInsert element) => some (findOrInsert element l).2
  | .common (.removeItem item) => some (removeItem item l).2
  | .common (.remove index) => (remove index l).map Prod.snd
  | .common .pop => some (pop l).2
  | .common .clear => some []
  | .common (.drain start end_) => (drain start end_ l).map Prod.snd
  | .common (.retain f) => some (l.filter f)
  | .common (.mutate f) => some (mutate f l)
  | .common (.extend iter) => some (extend iter l)
  | .common (.deserialize v) =>
      match parseVec v with
      | .ok l' => some l'
      | .error _ => some l
  | .append t => some (append t l).2
  | .dedup => some (dedup l)
  | .dedupByKey key => some (dedupByKey key l)

/-- What becomes of the multiset. Where the code goes by indices, they are those
    of the elements in order. -/
def SortedVec.spec (m : Multiset T) : VecOp T K → Option (Multiset T)
  | .common .new => some 0
  | .common (.fromUnsorted vec) => some vec
  | .common (.insert a) => some (a ::ₘ m)
  | .common (.findOrInsert a) => some (if a ∈ m then m else a ::ₘ m)
  | .common (.removeItem a) => some (m.erase a)
  | .common (.remove i) => m.sort[i]?.map m.erase
  | .common .pop => some (m.sort.getLast?.elim m m.erase)
  | .common .clear => some 0
  | .common (.drain start end_) =>
      (range start end_ m.card).map fun (i, j) => m - ((m.sort.take j).drop i : List T)
  | .common (.retain f) => some (m.filter fun a => f a)
  | .common (.mutate f) => some (f m.sort)
  | .common (.extend iter) => some (m + iter)
  | .common (.deserialize v) => some (if v.Pairwise (· ≤ ·) then v else m)
  | .append a => some (if ∀ b ∈ m, b ≤ a then a ::ₘ m else m)
  | .dedup => some m.dedup
  | .dedupByKey key => some (dedupByKey key m.sort)

/-- The closure leaves the elements as they are. -/
def VecOp.Pure : VecOp T K → Prop
  | .dedupByKey key => ∀ calls a, (key calls a).1 = a
  | _ => True

/-! ## Order -/

/-- In order, without duplicates. -/
abbrev Strict (l : List T) : Prop := Sorted id l

variable {l l' : List T} {a b : T} {i j : Nat}

theorem Strict.nodup (h : Strict l) : l.Nodup := h.imp ne_of_lt

theorem Strict.sort_toFinset (h : Strict l) : l.toFinset.sort = l :=
  (List.toFinset_sort _ h.nodup).mpr h.nonDecreasing

theorem strict_of_nonDecreasing (h : NonDecreasing id l) (hnodup : l.Nodup) : Strict l :=
  h.imp₂ (fun _ _ hle hne => lt_of_le_of_ne hle hne) hnodup

omit [LinearOrder T] in
/-- The elements that are smaller are those to the left of an index. -/
theorem countP_split {p : T → Bool} (hi : i ≤ l.length) (hleft : ∀ j b, j < i → l[j]? = some b → p b)
    (hright : ∀ j b, i ≤ j → l[j]? = some b → ¬ p b) : l.countP p = i := by
  have htake : (l.take i).countP p = i := by
    rw [List.countP_eq_length.mpr, List.length_take, min_eq_left hi]
    intro b hb
    obtain ⟨j, hj⟩ := List.mem_iff_getElem?.mp hb
    rw [List.getElem?_take] at hj
    split at hj
    · exact hleft j b ‹_› hj
    · cases hj
  have hdrop : (l.drop i).countP p = 0 := by
    rw [List.countP_eq_zero]
    intro b hb
    obtain ⟨j, hj⟩ := List.mem_iff_getElem?.mp hb
    rw [List.getElem?_drop] at hj
    exact hright (i + j) b (Nat.le_add_right i j) hj
  calc l.countP p = (l.take i ++ l.drop i).countP p := by rw [List.take_append_drop]
    _ = i := by rw [List.countP_append, htake, hdrop, Nat.add_zero]

theorem Strict.rank_eq (h : Strict l) (a : T) : FiniteSet.rank l.toFinset a = l.countP (· < a) := by
  have hfilter : l.toFinset.filter (· < a) = (l.filter (· < a)).toFinset := by
    ext b
    simp
  rw [FiniteSet.rank, hfilter, List.toFinset_card_of_nodup (h.nodup.filter _),
    List.countP_eq_length_filter]

/-- **The rank of an element is its index.** -/
theorem Strict.getElem?_eq_some (h : Strict l) :
    l[i]? = some a ↔ a ∈ l ∧ FiniteSet.rank l.toFinset a = i := by
  have hindex : ∀ {i}, l[i]? = some a → FiniteSet.rank l.toFinset a = i := by
    intro i hi
    rw [h.rank_eq]
    refine countP_split (List.getElem?_eq_some_iff.mp hi).1.le (fun j b hj hb => ?_)
      fun j b hj hb => ?_
    · exact decide_eq_true (h.lt hb hi hj)
    · simpa using h.nonDecreasing.le hi hb hj
  constructor
  · intro hi
    exact ⟨List.mem_of_getElem? hi, hindex hi⟩
  · rintro ⟨ha, rfl⟩
    obtain ⟨j, hj⟩ := List.mem_iff_getElem?.mp ha
    rwa [hindex hj]

theorem Strict.nth_eq (h : Strict l) : FiniteSet.nth l.toFinset i = l[i]? := by
  rw [FiniteSet.nth, h.sort_toFinset]
  cases hi : l[i]? with
  | none =>
      refine List.find?_eq_none.mpr fun a ha hrank => ?_
      have hget := h.getElem?_eq_some.mpr ⟨ha, of_decide_eq_true hrank⟩
      rw [hi] at hget
      cases hget
  | some a =>
      obtain ⟨ha, hrank⟩ := h.getElem?_eq_some.mp hi
      cases hfind : l.find? fun b => FiniteSet.rank l.toFinset b = i with
      | none => exact absurd (decide_eq_true hrank) (List.find?_eq_none.mp hfind a ha)
      | some b =>
          have hb : FiniteSet.rank l.toFinset b = i := by simpa using List.find?_some hfind
          rw [← hi, h.getElem?_eq_some.mpr ⟨List.mem_of_find?_eq_some hfind, hb⟩]

theorem Strict.greatest_eq (h : Strict l) : FiniteSet.greatest l.toFinset = l.getLast? := by
  unfold FiniteSet.greatest
  cases hlast : l.getLast? with
  | none =>
      rw [List.getLast?_eq_none_iff] at hlast
      subst hlast
      simp
  | some a =>
      rw [List.getLast?_eq_getElem?] at hlast
      have ha := List.mem_of_getElem? hlast
      have hne : l.toFinset.Nonempty := ⟨a, List.mem_toFinset.mpr ha⟩
      rw [dif_pos hne, Option.some.injEq]
      refine le_antisymm (Finset.max'_le _ _ _ fun b hb => ?_)
        (Finset.le_max' _ _ (List.mem_toFinset.mpr ha))
      obtain ⟨j, hj⟩ := List.mem_iff_getElem?.mp (List.mem_toFinset.mp hb)
      have hlt := (List.getElem?_eq_some_iff.mp hj).1
      exact h.nonDecreasing.le hj hlast (by omega)

/-- Where the search for an element ends: at its rank, whether it is there or not. -/
theorem Strict.search (h : Strict l) (a : T) :
    binarySearchByKey id a l =
      if a ∈ l then .ok (FiniteSet.rank l.toFinset a) else .error (FiniteSet.rank l.toFinset a) := by
  cases hsearch : binarySearchByKey id a l with
  | ok i =>
      obtain ⟨b, hb, hkey⟩ := Composable.SortedVec.binarySearch_ok hsearch
      obtain rfl : b = a := hkey
      obtain ⟨hmem, hrank⟩ := h.getElem?_eq_some.mp hb
      rw [if_pos hmem]
      exact congrArg _ hrank.symm
  | error i =>
      obtain ⟨hi, hlow, hhigh⟩ := h.binarySearch_error hsearch
      rw [if_neg fun ha => h.key_ne_of_error hsearch ha rfl, h.rank_eq, countP_split hi]
      · exact fun j b hj hb => decide_eq_true (hlow j b hj hb)
      · exact fun j b hj hb => by simpa using (hhigh j b hj hb).le

/-! ## Sorting -/

theorem sortUnstable_perm (l : List T) : (sortUnstable l).Perm l := List.mergeSort_perm ..

theorem sortUnstable_nonDecreasing (l : List T) : NonDecreasing id (sortUnstable l) := by
  have hsorted : (sortUnstable l).Pairwise fun a b => decide (a ≤ b) = true :=
    List.pairwise_mergeSort (fun a b c => by simpa using le_trans)
      (fun a b => by simpa using le_total a b) l
  exact hsorted.imp fun hab => of_decide_eq_true hab

namespace SortedVec

/-- Behind an element that is kept, what is in order loses its repetitions. -/
theorem dedupFrom_strict (h : NonDecreasing id (a :: l)) :
    Strict (dedupFrom a l) ∧ (dedupFrom a l).toFinset = Insert.insert a l.toFinset := by
  induction l generalizing a with
  | nil => exact ⟨List.pairwise_singleton .., by simp [dedupFrom]⟩
  | cons b l ih =>
      obtain ⟨ha, hl⟩ := List.pairwise_cons.mp h
      rw [dedupFrom]
      split
      · rename_i heq
        subst heq
        obtain ⟨hstrict, hset⟩ := ih hl
        exact ⟨hstrict, by rw [hset]; simp⟩
      · rename_i hne
        obtain ⟨hstrict, hset⟩ := ih hl
        refine ⟨List.pairwise_cons.mpr ⟨fun c hc => ?_, hstrict⟩,
          by rw [List.toFinset_cons, hset, List.toFinset_cons]⟩
        -- what is kept behind `a` is `b` or greater
        have hab : a < b := lt_of_le_of_ne (ha b List.mem_cons_self) (Ne.symm hne)
        have hc' : c ∈ Insert.insert b l.toFinset := hset ▸ List.mem_toFinset.mpr hc
        rcases Finset.mem_insert.mp hc' with rfl | hc'
        · exact hab
        · exact hab.trans_le ((List.pairwise_cons.mp hl).1 c (List.mem_toFinset.mp hc'))

theorem dedup_strict (h : NonDecreasing id l) :
    Strict (dedup l) ∧ (dedup l).toFinset = l.toFinset := by
  cases l with
  | nil => exact ⟨.nil, rfl⟩
  | cons a l =>
      rw [List.toFinset_cons]
      exact dedupFrom_strict h

theorem insert_perm (a : T) (l : List T) : (insert a l).2.Perm (a :: l) :=
  Composable.SortedVec.perm_insertIdx_search a

theorem insert_nonDecreasing (h : NonDecreasing id l) (a : T) : NonDecreasing id (insert a l).2 :=
  Composable.SortedVec.NonDecreasing.insertIdx h

/-- An item that is there is taken out. -/
theorem removeItem_strict (h : Strict l) (a : T) : Strict (removeItem a l).2 ∧
    (removeItem a l).2.toFinset = l.toFinset.erase a ∧ (removeItem a l).1 = if a ∈ l then some a
      else none := by
  unfold removeItem
  cases hsearch : binarySearchByKey id a l with
  | error i =>
      have hnew : a ∉ l := fun ha => h.key_ne_of_error hsearch ha rfl
      exact ⟨h, (Finset.erase_eq_of_notMem (by simpa using hnew)).symm, by rw [if_neg hnew]⟩
  | ok i =>
      obtain ⟨b, hb, hkey⟩ := Composable.SortedVec.binarySearch_ok hsearch
      obtain rfl : b = a := hkey
      obtain ⟨hstrict, hmem⟩ := h.eraseIdx hsearch
      refine ⟨hstrict, ?_, ?_⟩
      · ext c
        rw [List.mem_toFinset, hmem, Finset.mem_erase, List.mem_toFinset]
        exact and_comm
      · rw [if_pos (List.mem_of_getElem? hb)]
        exact hb

/-- Putting an element in that is not there. -/
theorem insert_strict (h : Strict l) (hnew : a ∉ l) : Strict (insert a l).2 ∧
    (insert a l).2.toFinset = Insert.insert a l.toFinset ∧
      (insert a l).1 = FiniteSet.rank l.toFinset a := by
  have hsearch : binarySearchByKey id (id a) l = .error (FiniteSet.rank l.toFinset a) :=
    (h.search a).trans (if_neg hnew)
  have hat : (insert a l).1 = FiniteSet.rank l.toFinset a := congrArg foundOrAt hsearch
  obtain ⟨hstrict, hmem⟩ := Composable.SortedVec.Sorted.insertIdx h hsearch
  have hinsert : (insert a l).2 = l.insertIdx (FiniteSet.rank l.toFinset a) a :=
    congrArg (l.insertIdx · a) hat
  refine ⟨hinsert ▸ hstrict, ?_, hat⟩
  ext c
  rw [hinsert, List.mem_toFinset, hmem, Finset.mem_insert, List.mem_toFinset]

theorem findOrInsert_strict (h : Strict l) (a : T) : Strict (findOrInsert a l).2 ∧
    (findOrInsert a l).2.toFinset = Insert.insert a l.toFinset ∧ (findOrInsert a l).1 =
      if a ∈ l then .ok (FiniteSet.rank l.toFinset a) else .error (FiniteSet.rank l.toFinset a) := by
  have hsearch := h.search a
  unfold findOrInsert
  by_cases ha : a ∈ l
  · rw [if_pos ha] at hsearch ⊢
    rw [hsearch]
    exact ⟨h, (Finset.insert_eq_of_mem (List.mem_toFinset.mpr ha)).symm, rfl⟩
  · rw [if_neg ha] at hsearch ⊢
    rw [hsearch]
    obtain ⟨hstrict, hmem⟩ := Composable.SortedVec.Sorted.insertIdx h hsearch
    refine ⟨hstrict, ?_, rfl⟩
    ext c
    rw [List.mem_toFinset, hmem, Finset.mem_insert, List.mem_toFinset]

end SortedVec

namespace SortedSet

theorem insert_strict (h : Strict l) (a : T) : Strict (insert a l).2 ∧
    (insert a l).2.toFinset = Insert.insert a l.toFinset ∧
      (insert a l).1 = FiniteSet.rank l.toFinset a := by
  obtain ⟨hremoved, hset, -⟩ := SortedVec.removeItem_strict h a
  have hgone : a ∉ (SortedVec.removeItem a l).2 := by
    rw [← List.mem_toFinset, hset]
    exact Finset.notMem_erase a _
  obtain ⟨hstrict, hinserted, hat⟩ := SortedVec.insert_strict hremoved hgone
  have hback : Insert.insert a (l.toFinset.erase a) = Insert.insert a l.toFinset := by
    ext c
    by_cases hc : c = a
    · simp [hc]
    · simp [hc]
  refine ⟨hstrict, by rw [insert, hinserted, hset, hback], ?_⟩
  rw [insert, hat, hset, FiniteSet.rank, FiniteSet.rank, Finset.filter_erase,
    Finset.erase_eq_of_notMem]
  simp

theorem extend_strict (h : Strict l) (iter : List T) :
    Strict (extend iter l) ∧ (extend iter l).toFinset = l.toFinset ∪ iter.toFinset := by
  induction iter generalizing l with
  | nil => exact ⟨h, by simp [extend]⟩
  | cons a iter ih =>
      obtain ⟨hstrict, hset, -⟩ := insert_strict h a
      obtain ⟨hrest, hunion⟩ := ih hstrict
      refine ⟨hrest, ?_⟩
      rw [extend, List.foldl_cons, ← extend, hunion, hset, List.toFinset_cons, Finset.insert_union,
        Finset.union_insert]

theorem fromUnsorted_strict (vec : List T) :
    Strict (fromUnsorted vec) ∧ (fromUnsorted vec).toFinset = vec.toFinset := by
  obtain ⟨hstrict, hset⟩ := SortedVec.dedup_strict (sortUnstable_nonDecreasing vec)
  exact ⟨hstrict, hset.trans (List.toFinset_eq_of_perm _ _ (sortUnstable_perm vec))⟩

end SortedSet

/-! ## A set and its vector, side by side -/

/-- Both come to a panic, or to the same result and to a vector in order that holds the set. -/
inductive Agree : Option (List T × Result T) → Option (Finset T × Result T) → Prop where
  | panic : Agree none none
  | done (l : List T) (r : Result T) (h : Strict l) : Agree (some (l, r)) (some (l.toFinset, r))

theorem Agree.of_eq {s : Finset T} {r r' : Result T} (h : Strict l) (hset : l.toFinset = s)
    (hr : r = r') : Agree (some (l, r)) (some (s, r')) := by
  subst hset hr
  exact .done l r h

/-- What a set asks of the vector that it is read from. -/
def Op.Distinct : Op T → Prop
  | .deserialize v => v.Pairwise (· ≤ ·) → v.Nodup
  | _ => True

theorem mem_slice (h : Strict l) : a ∈ (l.take j).drop i ↔
    a ∈ l ∧ i ≤ FiniteSet.rank l.toFinset a ∧ FiniteSet.rank l.toFinset a < j := by
  rw [List.mem_iff_getElem?]
  constructor
  · rintro ⟨k, hk⟩
    rw [List.getElem?_drop, List.getElem?_take] at hk
    split at hk
    · rename_i hlt
      obtain ⟨ha, hrank⟩ := h.getElem?_eq_some.mp hk
      exact ⟨ha, by omega, by omega⟩
    · cases hk
  · rintro ⟨ha, hi, hj⟩
    refine ⟨FiniteSet.rank l.toFinset a - i, ?_⟩
    rw [List.getElem?_drop, List.getElem?_take, if_pos (by omega), Nat.add_sub_cancel' hi]
    exact h.getElem?_eq_some.mpr ⟨ha, rfl⟩

theorem remove_agrees (h : Strict l) :
    Agree (SortedSet.execute l (.remove i)) (FiniteSet.execute l.toFinset (.remove i)) := by
  rw [SortedSet.execute, FiniteSet.execute, SortedVec.remove, h.nth_eq]
  cases hi : l[i]? with
  | none => exact .panic
  | some a =>
      obtain ⟨ha, hrank⟩ := h.getElem?_eq_some.mp hi
      have hsearch : binarySearchByKey id a l = .ok i := by rw [h.search, if_pos ha, hrank]
      obtain ⟨hstrict, hmem⟩ := h.eraseIdx hsearch
      refine .of_eq hstrict ?_ rfl
      ext c
      rw [List.mem_toFinset, hmem, Finset.mem_erase, List.mem_toFinset]
      exact and_comm

theorem pop_agrees (h : Strict l) :
    Agree (SortedSet.execute l .pop) (FiniteSet.execute l.toFinset .pop) := by
  rw [SortedSet.execute, FiniteSet.execute, SortedVec.pop, h.greatest_eq]
  cases hlast : l.getLast? with
  | none =>
      rw [List.getLast?_eq_none_iff] at hlast
      subst hlast
      exact .done [] _ h
  | some a =>
      obtain ⟨rest, rfl⟩ := List.getLast?_eq_some_iff.mp hlast
      have hnew : a ∉ rest :=
        fun ha => (List.nodup_append.mp h.nodup).2.2 a ha a (List.mem_singleton_self a) rfl
      refine .of_eq (h.sublist (List.dropLast_sublist _)) ?_ rfl
      ext c
      rw [List.dropLast_concat, Option.elim_some, Finset.mem_erase, List.mem_toFinset,
        List.mem_toFinset, List.mem_append, List.mem_singleton]
      constructor
      · intro hc
        exact ⟨fun heq => hnew (heq ▸ hc), .inl hc⟩
      · rintro ⟨hne, hc⟩
        exact hc.resolve_right hne

theorem drain_agrees {start end_ : Bound} (h : Strict l) :
    Agree (SortedSet.execute l (.drain start end_))
      (FiniteSet.execute l.toFinset (.drain start end_)) := by
  rw [SortedSet.execute, FiniteSet.execute, SortedVec.drain, List.toFinset_card_of_nodup h.nodup]
  cases hrange : range start end_ l.length with
  | none => exact .panic
  | some bounds =>
      obtain ⟨i, j⟩ := bounds
      obtain ⟨hij, hj⟩ : i ≤ j ∧ j ≤ l.length := by
        obtain ⟨hbounds, heq⟩ := Option.ite_none_right_eq_some.mp hrange
        cases heq
        exact hbounds
      have hslice : ((l.take j).drop i).toFinset = FiniteSet.between l.toFinset i j := by
        ext a
        rw [List.mem_toFinset, mem_slice h, FiniteSet.between, Finset.mem_filter, List.mem_toFinset]
      have hdrained : Strict ((l.take j).drop i) :=
        h.sublist ((List.drop_sublist ..).trans (List.take_sublist ..))
      have hrest : (l.take i ++ l.drop j).Sublist l := by
        have hdrop : (l.drop j).Sublist (l.drop i) := List.drop_sublist_drop_left l hij
        calc (l.take i ++ l.drop j).Sublist (l.take i ++ l.drop i) :=
          (List.Sublist.refl _).append hdrop
          _ = l := List.take_append_drop i l
      refine .of_eq (h.sublist hrest) ?_ (by rw [← hslice, hdrained.sort_toFinset])
      ext a
      have htake : a ∈ l.take i ↔ a ∈ l ∧ FiniteSet.rank l.toFinset a < i := by
        simpa using mem_slice (i := 0) (j := i) (a := a) h
      have hdrop : a ∈ l.drop j ↔ a ∈ l ∧ j ≤ FiniteSet.rank l.toFinset a := by
        have hlt : a ∈ l → FiniteSet.rank l.toFinset a < l.length := fun ha =>
          (List.getElem?_eq_some_iff.mp (h.getElem?_eq_some.mpr ⟨ha, rfl⟩)).1
        have hall := mem_slice (i := j) (j := l.length) (a := a) h
        rw [List.take_length] at hall
        rw [hall]
        exact ⟨fun ⟨ha, hle, _⟩ => ⟨ha, hle⟩, fun ⟨ha, hle⟩ => ⟨ha, hle, hlt ha⟩⟩
      rw [List.mem_toFinset, List.mem_append, htake, hdrop, Finset.mem_sdiff, FiniteSet.between,
        Finset.mem_filter, List.mem_toFinset]
      constructor
      · rintro (⟨ha, hlt⟩ | ⟨ha, hle⟩)
        · exact ⟨ha, fun ⟨_, hi, _⟩ => by omega⟩
        · exact ⟨ha, fun ⟨_, _, hlt⟩ => by omega⟩
      · rintro ⟨ha, hout⟩
        by_cases hlt : FiniteSet.rank l.toFinset a < i
        · exact .inl ⟨ha, hlt⟩
        · refine .inr ⟨ha, ?_⟩
          by_contra hle
          exact hout ⟨ha, by omega, by omega⟩

/-- **Step lemma.** An operation does to the vector what it does to the set. -/
theorem execute_agrees (h : Strict l) {op : Op T} (hop : op.Distinct) :
    Agree (SortedSet.execute l op) (FiniteSet.execute l.toFinset op) := by
  cases op with
  | new => exact .done [] .unit .nil
  | clear => exact .done [] .unit .nil
  | fromUnsorted vec =>
      obtain ⟨hstrict, hset⟩ := SortedSet.fromUnsorted_strict vec
      exact .of_eq hstrict hset rfl
  | insert a =>
      obtain ⟨hstrict, hset, hat⟩ := SortedSet.insert_strict h a
      exact .of_eq hstrict hset (congrArg _ hat)
  | findOrInsert a =>
      obtain ⟨hstrict, hset, hfound⟩ := SortedVec.findOrInsert_strict h a
      exact .of_eq hstrict hset (by simp only [hfound, List.mem_toFinset])
  | removeItem a =>
      obtain ⟨hstrict, hset, hitem⟩ := SortedVec.removeItem_strict h a
      exact .of_eq hstrict hset (by simp only [hitem, List.mem_toFinset])
  | remove index => exact remove_agrees h
  | pop => exact pop_agrees h
  | drain start end_ => exact drain_agrees h
  | retain f => exact .of_eq (h.sublist List.filter_sublist) (by ext; simp) rfl
  | mutate f =>
      obtain ⟨hstrict, hset⟩ := SortedSet.fromUnsorted_strict (f l)
      refine .of_eq (l := SortedSet.mutate f l) hstrict ?_ rfl
      rw [h.sort_toFinset]
      exact hset
  | extend iter =>
      obtain ⟨hstrict, hset⟩ := SortedSet.extend_strict h iter
      exact .of_eq hstrict hset rfl
  | deserialize v =>
      have hsorted : BoundedSortedVec.isSorted id v = true ↔ v.Pairwise (· ≤ ·) :=
        BoundedSortedVec.isSorted_iff
      rw [SortedSet.execute, FiniteSet.execute, SortedVec.parseVec]
      by_cases hv : v.Pairwise (· ≤ ·)
      · rw [if_pos hv, if_pos (hsorted.mpr hv)]
        exact .done v .unit (strict_of_nonDecreasing hv (hop hv))
      · rw [if_neg hv, if_neg fun h => hv (hsorted.mp h)]
        exact .done l _ h

/-- What the operations of a run return, and where they end. -/
def trace {σ ο ρ : Type} (execute : σ → ο → Option (σ × ρ)) : σ → List ο → Option (σ × List ρ)
  | s, [] => some (s, [])
  | s, o :: os =>
      (execute s o).bind fun (s', r) => (trace execute s' os).map fun (s'', rs) => (s'', r :: rs)

/-- **A sorted set is a finite set.** As long as what is deserialised has no duplicates, the
    operations return what those of the set return, where an index is the number of smaller
    elements, panic where they do, and leave the elements of the set in order. -/
theorem set_refines {ops : List (Op T)} (hops : ∀ op ∈ ops, op.Distinct) (s : Finset T) :
    trace SortedSet.execute s.sort ops = (trace FiniteSet.execute s ops).map fun (s', rs) =>
      (s'.sort, rs) := by
  induction ops generalizing s with
  | nil => rfl
  | cons op ops ih =>
      have hsort : s.sort.Pairwise (· ≤ ·) := s.pairwise_sort _
      have hstrict : Strict s.sort := strict_of_nonDecreasing hsort (s.sort_nodup _)
      -- One operation agrees with the one on the set of the members, and the list stays in strict
      -- order.
      have hagree := execute_agrees hstrict (hops op List.mem_cons_self)
      rw [Finset.sort_toFinset] at hagree
      rw [trace, trace]
      generalize SortedSet.execute s.sort op = x at hagree
      generalize FiniteSet.execute s op = y at hagree
      cases hagree with
      | panic => rfl
      | done l r hl =>
          have hrest := ih (fun op' hop' => hops op' (List.mem_cons_of_mem op hop')) l.toFinset
          rw [hl.sort_toFinset] at hrest
          show (trace SortedSet.execute l ops).map _ =
            ((trace FiniteSet.execute l.toFinset ops).map _).map _
          rw [hrest, Option.map_map, Option.map_map]
          rfl

theorem set_refines_sample : trace SortedSet.execute (∅ : Finset Nat).sort
    [.insert 5, .deserialize [1, 3, 4], .findOrInsert 2, .drain (.included 1) .unbounded] =
      (trace FiniteSet.execute ∅ [.insert 5, .deserialize [1, 3, 4], .findOrInsert 2,
        .drain (.included 1) .unbounded]).map
        fun (s', rs) => (s'.sort, rs) :=
  set_refines (by simp [Op.Distinct]) ∅

def SortedSet.step (l : List T) (op : Op T) : Option (List T) := (SortedSet.execute l op).map Prod.fst

/-- **A sorted set has no duplicates**, whatever is done, exactly when what is deserialised has
    none. -/
theorem strict_iff (ops : List (Op T)) :
    Throughout SortedSet.step Strict [] ops ↔
      Along SortedSet.step (fun _ op => op.Distinct) ([] : List T) ops := by
  refine throughout_iff_along (I := Strict) (fun h => h) (fun {l op l'} h hop hstep => ?_)
    (fun {l op} h hop => ?_) .nil
  · obtain ⟨⟨l', r⟩, hexecute, rfl⟩ := Option.map_eq_some_iff.mp hstep
    have hagree := execute_agrees h hop
    rw [hexecute] at hagree
    generalize FiniteSet.execute l.toFinset op = y at hagree
    cases hagree with
    | done _ _ hstrict => exact hstrict
  -- Only a decoded vector may bring a duplicate in: its order is checked, its members are not.
  · cases op with
    | deserialize v =>
        obtain ⟨hsorted, hdup⟩ := Classical.not_imp.mp hop
        have hchecked : BoundedSortedVec.isSorted id v = true :=
          BoundedSortedVec.isSorted_iff.mpr hsorted
        refine ⟨v, ?_, fun hstrict => hdup (Strict.nodup hstrict)⟩
        rw [SortedSet.step, SortedSet.execute, SortedVec.parseVec, if_pos hchecked]
        rfl
    | _ => exact absurd trivial hop

/-! ## A vector and its multiset, side by side -/

namespace SortedVec

theorem sort_coe (h : NonDecreasing id l) : (l : Multiset T).sort = l := by
  have hsorted : l.Pairwise (· ≤ ·) := h
  exact (Multiset.coe_eq_coe.mp (Multiset.sort_eq ..)).eq_of_pairwise'
    (Multiset.pairwise_sort ..) hsorted

/-- Both panic, or they come to a vector in order that holds the multiset. -/
inductive Alongside : Option (List T) → Option (Multiset T) → Prop where
  | panic : Alongside none none
  | done (l : List T) (h : NonDecreasing id l) : Alongside (some l) (some l)

theorem Alongside.of_perm {m : Multiset T} (h : NonDecreasing id l) (hm : (l : Multiset T) = m) :
    Alongside (some l) (some m) := by
  subst hm
  exact .done l h

/-- What a search does not find is not there. -/
theorem notMem_of_error (h : NonDecreasing id l) (hsearch : binarySearchByKey id a l = .error i) :
    a ∉ l := by
  intro ha
  obtain ⟨hlow, hhigh⟩ := h.binarySearch_error hsearch
  obtain ⟨j, hj⟩ := List.mem_iff_getElem?.mp ha
  rcases Nat.lt_or_ge j i with hji | hji
  · exact lt_irrefl a (hlow j a hji hj)
  · exact lt_irrefl a (hhigh j a hji hj)

theorem coe_eraseIdx (hi : l[i]? = some a) :
    ((l.eraseIdx i : List T) : Multiset T) = (l : Multiset T).erase a := by
  obtain ⟨hlt, rfl⟩ := List.getElem?_eq_some_iff.mp hi
  rw [Multiset.coe_erase, Multiset.coe_eq_coe]
  refine List.Perm.cons_inv (a := l[i]) ?_
  exact (List.getElem_cons_eraseIdx_perm hlt).trans (List.perm_cons_erase (List.getElem_mem hlt))

/-- What belongs at the end is not smaller than the last element, and so than none. -/
theorem append_eq (h : NonDecreasing id l) (a : T) :
    append a l = if ∀ b ∈ l, b ≤ a then (.ok l.length, l ++ [a]) else (.error a, l) := by
  unfold append
  cases hlast : l.getLast? with
  | none =>
      rw [List.getLast?_eq_none_iff] at hlast
      subst hlast
      simp [insert, foundOrAt, binarySearchByKey, Composable.SortedVec.search]
  | some last =>
      obtain ⟨rest, rfl⟩ := List.getLast?_eq_some_iff.mp hlast
      have hle : ∀ b ∈ rest, b ≤ last :=
        fun b hb => (List.pairwise_append.mp h).2.2 b hb last (List.mem_singleton_self _)
      have hall : (∀ b ∈ rest ++ [last], b ≤ a) ↔ last ≤ a := by
        constructor
        · intro hall
          exact hall last (List.mem_append_right _ (List.mem_singleton_self last))
        · intro hroom b hb
          rcases List.mem_append.mp hb with hb | hb
          · exact (hle b hb).trans hroom
          · exact List.mem_singleton.mp hb ▸ hroom
      simp only [hall]
      split
      · simp [appendUnchecked]
      · rfl

theorem nonDecreasing_concat (h : NonDecreasing id l) (hall : ∀ b ∈ l, b ≤ a) :
    NonDecreasing id (l ++ [a]) :=
  List.pairwise_append.mpr ⟨h, List.pairwise_singleton ..,
    fun b hb _ hc => List.mem_singleton.mp hc ▸ hall b hb⟩

/-- Appending what belongs at the end and inserting the rest. -/
theorem extend_perm (h : NonDecreasing id l) (iter : List T) :
    NonDecreasing id (extend iter l) ∧ (extend iter l).Perm (l ++ iter) := by
  induction iter generalizing l with
  | nil => exact ⟨h, by simp [extend]⟩
  | cons a iter ih =>
      have happend := append_eq h a
      rw [extend, List.foldl_cons, ← extend, happend]
      by_cases hall : ∀ b ∈ l, b ≤ a
      · rw [if_pos hall]
        obtain ⟨hrest, hperm⟩ := ih (nonDecreasing_concat h hall)
        exact ⟨hrest, by simpa using hperm⟩
      · rw [if_neg hall]
        obtain ⟨hrest, hperm⟩ := ih (insert_nonDecreasing h a)
        exact ⟨hrest, hperm.trans (((insert_perm a l).append_right iter).trans List.perm_middle.symm)⟩

theorem findOrInsert_alongside (h : NonDecreasing id l) (a : T) :
    Alongside (some (findOrInsert a l).2) (some (if a ∈ l then l else a ::ₘ (l : Multiset T))) := by
  unfold findOrInsert
  cases hsearch : binarySearchByKey id a l with
  | ok i =>
      obtain ⟨b, hb, hkey⟩ := Composable.SortedVec.binarySearch_ok hsearch
      obtain rfl : b = a := hkey
      rw [if_pos (List.mem_of_getElem? hb)]
      exact .done l h
  | error i =>
      have hat : foundOrAt (binarySearchByKey id (id a) l) = i := congrArg foundOrAt hsearch
      rw [if_neg (notMem_of_error h hsearch)]
      have hinsert : l.insertIdx i a = (insert a l).2 := congrArg (l.insertIdx · a) hat.symm
      show Alongside (some (l.insertIdx i a)) _
      rw [hinsert]
      exact .of_perm (insert_nonDecreasing h a) (Multiset.coe_eq_coe.mpr (insert_perm a l))

theorem removeItem_alongside (h : NonDecreasing id l) (a : T) :
    Alongside (some (removeItem a l).2) (some ((l : Multiset T).erase a)) := by
  unfold removeItem
  cases hsearch : binarySearchByKey id a l with
  | ok i =>
      obtain ⟨b, hb, hkey⟩ := Composable.SortedVec.binarySearch_ok hsearch
      obtain rfl : b = a := hkey
      exact .of_perm (h.sublist (List.eraseIdx_sublist ..)) (coe_eraseIdx hb)
  | error i => exact .of_perm h (Multiset.erase_of_notMem (notMem_of_error h hsearch)).symm

theorem pop_alongside (h : NonDecreasing id l) :
    Alongside (some (pop l).2) (some (l.getLast?.elim (l : Multiset T) (l : Multiset T).erase)) := by
  unfold pop
  cases hlast : l.getLast? with
  | none =>
      rw [List.getLast?_eq_none_iff] at hlast
      subst hlast
      exact .done _ h
  | some a =>
      obtain ⟨rest, rfl⟩ := List.getLast?_eq_some_iff.mp hlast
      refine .of_perm (h.sublist (List.dropLast_sublist _)) ?_
      rw [List.dropLast_concat, Option.elim_some, ← Multiset.coe_add,
        Multiset.coe_singleton, add_comm, Multiset.singleton_add, Multiset.erase_cons_head]

theorem drain_alongside {start end_ : Bound} (h : NonDecreasing id l) :
    Alongside ((drain start end_ l).map Prod.snd)
      ((range start end_ l.length).map fun (i, j) =>
        (l : Multiset T) - ((l.take j).drop i : List T)) := by
  unfold drain
  cases hrange : range start end_ l.length with
  | none => exact .panic
  | some bounds =>
      obtain ⟨i, j⟩ := bounds
      obtain ⟨hij, -⟩ : i ≤ j ∧ j ≤ l.length := by
        obtain ⟨hbounds, heq⟩ := Option.ite_none_right_eq_some.mp hrange
        cases heq
        exact hbounds
      have hsplit : l = l.take i ++ (l.take j).drop i ++ l.drop j := by
        have htake : l.take i = (l.take j).take i := by rw [List.take_take, min_eq_left hij]
        rw [htake, List.take_append_drop, List.take_append_drop]
      have hcoe :
          (l : Multiset T) = (l.take i ++ l.drop j : List T) + ((l.take j).drop i : List T) := by
        conv_lhs => rw [hsplit]
        simp only [← Multiset.coe_add]
        exact add_right_comm ..
      have hsub : (l.take i ++ l.drop j).Sublist l := by
        conv_rhs => rw [hsplit]
        exact (List.sublist_append_left ..).append (List.Sublist.refl _)
      refine .of_perm (h.sublist hsub) ?_
      show ((l.take i ++ l.drop j : List T) : Multiset T) =
        (l : Multiset T) - ((l.take j).drop i : List T)
      rw [hcoe, add_tsub_cancel_right]

omit [LinearOrder T] in
theorem dedupByKeyFrom_sublist {key : Nat → T → T × K} (hpure : ∀ calls a, (key calls a).1 = a)
    (calls : Nat) (a : T) (l : List T) : (dedupByKeyFrom key calls a l).Sublist (a :: l) := by
  induction l generalizing calls a with
  | nil => exact .refl _
  | cons b l ih =>
      have hstep :
          dedupByKeyFrom key calls a (b :: l) = if (key calls b).2 = (key (calls + 1) a).2 then
          dedupByKeyFrom key (calls + 2) (key (calls + 1) a).1 l
          else (key (calls + 1) a).1 :: dedupByKeyFrom key (calls + 2) (key calls b).1 l := rfl
      rw [hstep, hpure, hpure]
      split
      · exact (ih (calls + 2) a).trans ((List.sublist_cons_self b l).cons_cons a)
      · exact (ih (calls + 2) b).cons_cons a

/-- **Step lemma.** An operation does to the vector what it does to the multiset. -/
theorem step_alongside (h : NonDecreasing id l) {op : VecOp T K} (hop : op.Pure) :
    Alongside (step l op) (spec (l : Multiset T) op) := by
  have hsort := sort_coe h
  cases op with
  | append a =>
      rw [step, spec, append_eq h]
      by_cases hall : ∀ b ∈ l, b ≤ a
      · rw [if_pos hall, if_pos (by simpa using hall)]
        exact .of_perm (nonDecreasing_concat h hall)
          (Multiset.coe_eq_coe.mpr (List.perm_append_singleton a l))
      · rw [if_neg hall, if_neg (by simpa using hall)]
        exact .done l h
  | dedup =>
      obtain ⟨hstrict, hset⟩ := dedup_strict h
      refine .of_perm hstrict.nonDecreasing ?_
      calc ((dedup l : List T) : Multiset T) = (dedup l).toFinset.val := by
            rw [List.toFinset_val, hstrict.nodup.dedup]
        _ = l.toFinset.val := by rw [hset]
        _ = (l : Multiset T).dedup := by rw [List.toFinset_val, Multiset.coe_dedup]
  | dedupByKey key =>
      rw [step, spec, hsort]
      cases l with
      | nil => exact .done [] .nil
      | cons a l => exact .done _ (h.sublist (dedupByKeyFrom_sublist hop 0 a l))
  | common op =>
      cases op with
      | new => exact .done [] .nil
      | clear => exact .done [] .nil
      | fromUnsorted vec =>
          exact .of_perm (sortUnstable_nonDecreasing vec)
            (Multiset.coe_eq_coe.mpr (sortUnstable_perm vec))
      | insert a =>
          exact .of_perm (insert_nonDecreasing h a) (Multiset.coe_eq_coe.mpr (insert_perm a l))
      | findOrInsert a => exact findOrInsert_alongside h a
      | removeItem a => exact removeItem_alongside h a
      | remove index =>
          rw [step, spec, hsort, remove]
          cases hi : l[index]? with
          | none => exact .panic
          | some a => exact .of_perm (h.sublist (List.eraseIdx_sublist ..)) (coe_eraseIdx hi)
      | pop =>
          rw [step, spec, hsort]
          exact pop_alongside h
      | drain start end_ =>
          rw [step, spec, hsort]
          exact drain_alongside h
      | retain f => exact .of_perm (h.sublist List.filter_sublist) (by simp)
      | mutate f =>
          rw [step, spec, hsort]
          exact .of_perm (sortUnstable_nonDecreasing (f l))
            (Multiset.coe_eq_coe.mpr (sortUnstable_perm (f l)))
      | extend iter =>
          obtain ⟨hsorted, hperm⟩ := extend_perm h iter
          exact .of_perm hsorted (Multiset.coe_eq_coe.mpr hperm)
      | deserialize v =>
          have hsorted : BoundedSortedVec.isSorted id v = true ↔ v.Pairwise (· ≤ ·) :=
            BoundedSortedVec.isSorted_iff
          rw [step, spec, parseVec]
          by_cases hv : v.Pairwise (· ≤ ·)
          · rw [if_pos hv, if_pos (hsorted.mpr hv)]
            exact .done v hv
          · rw [if_neg hv, if_neg fun h => hv (hsorted.mp h)]
            exact .done l h

/-- **A sorted vector is a multiset.** As long as the closures of `dedup_by_key` leave the elements
    as they are, every run panics where the multiset says so, and otherwise comes to the elements
    of the multiset in order. -/
theorem vec_refines {ops : List (VecOp T K)} (hops : ∀ op ∈ ops, op.Pure) (m : Multiset T) :
    run step m.sort ops = (run spec m ops).map fun m' => m'.sort := by
  induction ops generalizing m with
  | nil => rfl
  | cons op ops ih =>
      have hsort : m.sort.Pairwise (· ≤ ·) := m.pairwise_sort _
      -- One operation agrees with the one on the multiset, and the list stays in order.
      have hside := step_alongside hsort (hops op List.mem_cons_self)
      rw [Multiset.sort_eq] at hside
      rw [run, run]
      generalize step m.sort op = x at hside
      generalize spec m op = y at hside
      cases hside with
      | panic => rfl
      | done l hl =>
          have hrest := ih (fun op' hop' => hops op' (List.mem_cons_of_mem op hop')) (l : Multiset T)
          rw [sort_coe hl] at hrest
          exact hrest

theorem vec_refines_sample : run step (0 : Multiset Nat).sort
    [.common (.extend [3, 1, 2]), .append 2, .dedupByKey fun _ a => (a, a % 2)] =
      (run spec 0 [.common (.extend [3, 1, 2]), .append 2, .dedupByKey fun _ a => (a, a % 2)]).map
        fun m' => m'.sort :=
  vec_refines (by simp [VecOp.Pure]) 0

end SortedVec

end Collections
end Composable
