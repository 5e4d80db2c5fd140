import Composable.Support.Fixed
import Composable.Support.Run
import Composable.Support.Scale
import Composable.Support.SortedVec

/-!
# `Collections.BoundedSortedVec` — sorted vectors with a bound

Embeds `BoundedSortedVec` of `frame/composable-support/src/collections/vec/bounded/sorted_vec.rs`
with what it uses of `SortedVec` (`collections/vec/sorted/mod.rs`): elements may compare equal and
still differ, so their order is that of their keys, and the bound is a `u32`. The codec of the
elements is whatever theirs is.

Three ways lead to a value: the empty one, a vector that is short enough, and a decoded vector,
which is checked for its length and its order. `Kept` is what the operations preserve (`Kept.step`),
and what a round trip through the storage rests on (`decode_encode`). The second way only checks the
length, so `proper_iff` names the vectors that it must be given.
-/

namespace Composable
namespace BoundedSortedVec

open Scale SortedVec

variable {T κ : Type} [LinearOrder κ]

/-! ## Operations -/

/-- `SortedVec::insert`: the index of an equal element that was found, or the one
    where the element belongs. -/
def insert (key : T → κ) (element : T) (l : List T) : List T :=
  l.insertIdx (foundOrAt (binarySearchByKey key (key element) l)) element

/-- The body of `try_insert` and `try_push`; the error is the element. -/
def tryAdd (key : T → κ) (bound : UInt32) (element : T) : Call (List T) T Unit := do
  let l ← Call.get
  Call.ensure (l.length < bound.toNat) element
  Call.modify (insert key element)

def tryInsert (key : T → κ) (bound : UInt32) (element : T) : Call (List T) T Unit :=
  tryAdd key bound element

def tryPush (key : T → κ) (bound : UInt32) (element : T) : Call (List T) T Unit :=
  tryAdd key bound element

/-- `none` is a panic: the index is out of bounds. -/
def remove (index : Nat) (l : List T) : Option (T × List T) :=
  l[index]?.map fun element => (element, l.eraseIdx index)

/-- `f` may depend on the elements it was called with before. -/
def retain (f : List T → T → Bool) : List T → List T → List T
  | _, [] => []
  | seen, a :: l => if f seen a then a :: retain f (seen ++ [a]) l else retain f (seen ++ [a]) l

/-! ## Constructors -/

def default : List T := []

/-- `TryFrom<Vec<T>>`. -/
def tryFrom (bound : UInt32) (t : List T) : Except Unit (List T) :=
  if t.length ≤ bound.toNat then .ok t else .error ()

/-- Every element is compared with the next one. -/
def isSorted (key : T → κ) : List T → Bool
  | [] => true
  | [_] => true
  | a :: b :: l => decide (key a ≤ key b) && isSorted key (b :: l)

def encode (item : Codec T) (l : List T) : List UInt8 := encodeList item l

def decode (key : T → κ) (item : Codec T) (bound : UInt32) : Decoder (List T) := fun input => do
  let (inner, rest) ← decodeList item input
  if bound.toNat < inner.length then .error "BoundedSortedVec exceeds its limit"
  else if isSorted key inner = false then .error "input is not sorted"
  else .ok (inner, rest)

/-! ## What every operation keeps -/

/-- In order, and within the bound. -/
structure Kept (key : T → κ) (bound : UInt32) (l : List T) : Prop where
  sorted : NonDecreasing key l
  bounded : l.length ≤ bound.toNat

/-- The element was added, or it comes back and nothing has changed. -/
def Added (element : T) (l : List T) : Except T Unit × List T → Prop
  | (.ok _, l') => l'.Perm (element :: l)
  | (.error e, l') => e = element ∧ l' = l

variable {key : T → κ} {item : Codec T} {bound : UInt32} {l l' : List T} {element : T}

theorem isSorted_iff : isSorted key l = true ↔ NonDecreasing key l := by
  induction l with
  | nil => simp [isSorted, NonDecreasing]
  | cons a l ih =>
      cases l with
      | nil => simp [isSorted, NonDecreasing]
      | cons b l =>
          simp only [isSorted, Bool.and_eq_true, decide_eq_true_eq, ih, NonDecreasing,
            List.pairwise_cons (a := a)]
          refine and_congr_left fun h => ⟨fun hab c hc => ?_, fun h => h b List.mem_cons_self⟩
          rcases List.mem_cons.mp hc with rfl | hc
          · exact hab
          · exact hab.trans ((List.pairwise_cons.mp h).1 c hc)

theorem perm_insert (element : T) (l : List T) : (insert key element l).Perm (element :: l) :=
  perm_insertIdx_search element

/-- A vector that is full is left as it is. -/
theorem tryAdd_eq : tryAdd key bound element l =
    if l.length < bound.toNat then (.ok (), insert key element l) else (.error element, l) := by
  rw [tryAdd, Call.get_bind]
  by_cases hroom : l.length < bound.toNat
  · rw [if_pos hroom, Call.ensure, if_pos hroom]
    rfl
  · rw [if_neg hroom, Call.ensure, if_neg hroom]
    rfl

theorem added_tryAdd (element : T) (l : List T) : Added element l (tryAdd key bound element l) := by
  rw [tryAdd_eq]
  split
  · exact perm_insert element l
  · exact ⟨rfl, rfl⟩

theorem Kept.tryAdd (h : Kept key bound l) (element : T) :
    Kept key bound (tryAdd key bound element l).2 := by
  rw [tryAdd_eq]
  split
  next hroom =>
    refine ⟨h.sorted.insertIdx, ?_⟩
    rw [(perm_insert element l).length_eq]
    exact hroom
  · exact h

theorem Kept.sublist (h : Kept key bound l) (hsub : l'.Sublist l) : Kept key bound l' :=
  ⟨h.sorted.sublist hsub, hsub.length_le.trans h.bounded⟩

theorem retain_sublist (f : List T → T → Bool) (seen l : List T) : (retain f seen l).Sublist l := by
  induction l generalizing seen with
  | nil => exact .slnil
  | cons a l ih =>
      rw [retain]
      split
      · exact (ih _).cons_cons a
      · exact (ih _).cons a

/-! ## Round trips -/

/-- A decoded value was checked. -/
theorem Kept.of_decode {input rest : List UInt8} (h : decode key item bound input = .ok (l, rest)) :
    Kept key bound l := by
  simp only [decode, exceptBind_ok, Prod.exists] at h
  obtain ⟨inner, rest', -, h⟩ := h
  split at h
  · cases h
  next hbound =>
    split at h
    · cases h
    next hsorted =>
      obtain ⟨rfl, -⟩ := Prod.mk.inj (Except.ok.inj h)
      exact ⟨isSorted_iff.mp (Bool.eq_true_of_not_eq_false hsorted), Nat.not_lt.mp hbound⟩

/-- **What the storage gives back**: the value, if it is in order; otherwise nothing. -/
theorem decode_encode (hbound : l.length ≤ bound.toNat) (rest : List UInt8) :
    decode key item bound (encode item l ++ rest) =
      if isSorted key l = false then .error "input is not sorted" else .ok (l, rest) := by
  have hlength : l.length < 2 ^ 32 := hbound.trans_lt bound.toNat_lt
  rw [decode, encode, decodeList_encodeList item hlength]
  show (if _ then _ else _) = _
  rw [if_neg (Nat.not_lt.mpr hbound)]

theorem Kept.roundTrip (h : Kept key bound l) (rest : List UInt8) :
    decode key item bound (encode item l ++ rest) = .ok (l, rest) := by
  rw [decode_encode h.bounded, if_neg]
  rw [isSorted_iff.mpr h.sorted]
  exact Bool.noConfusion

/-! ## Runs -/

/-- A way to a value, or an operation on the value there is. -/
inductive Op (T : Type) where
  | default
  | tryFrom (t : List T)
  | decode (input : List UInt8)
  | tryInsert (element : T)
  | tryPush (element : T)
  | remove (index : Nat)
  | retain (f : List T → T → Bool)

/-- A constructor that fails leaves the value there is. -/
def step (key : T → κ) (item : Codec T) (bound : UInt32) (l : List T) : Op T → Option (List T)
  | .default => some default
  | .tryFrom t =>
      match tryFrom bound t with
      | .ok l' => some l'
      | .error _ => some l
  | .decode input =>
      match decode key item bound input with
      | .ok (l', _) => some l'
      | .error _ => some l
  | .tryInsert element => some (tryInsert key bound element l).2
  | .tryPush element => some (tryPush key bound element l).2
  | .remove index => (remove index l).map Prod.snd
  | .retain f => some (retain f [] l)

/-- A vector that `TryFrom` accepts is in order. -/
def Op.Ordered (key : T → κ) (bound : UInt32) : Op T → Prop
  | .tryFrom t => t.length ≤ bound.toNat → NonDecreasing key t
  | _ => True

/-- **Step lemma.** -/
theorem Kept.step {op : Op T} (h : Kept key bound l) (hop : op.Ordered key bound)
    (hstep : step key item bound l op = some l') : Kept key bound l' := by
  cases op with
  | default =>
      obtain rfl := Option.some.inj hstep
      exact h.sublist (List.nil_sublist l)
  | tryFrom t =>
      simp only [BoundedSortedVec.step, tryFrom] at hstep
      by_cases hbound : t.length ≤ bound.toNat
      · rw [if_pos hbound] at hstep
        obtain rfl := Option.some.inj hstep
        exact ⟨hop hbound, hbound⟩
      · rw [if_neg hbound] at hstep
        exact Option.some.inj hstep ▸ h
  | decode input =>
      simp only [BoundedSortedVec.step] at hstep
      split at hstep
      next hdecode => exact Option.some.inj hstep ▸ Kept.of_decode hdecode
      · exact Option.some.inj hstep ▸ h
  | tryInsert element => exact Option.some.inj hstep ▸ h.tryAdd element
  | tryPush element => exact Option.some.inj hstep ▸ h.tryAdd element
  | remove index =>
      simp only [BoundedSortedVec.step, remove, Option.map_map, Option.map_eq_some_iff] at hstep
      obtain ⟨a, -, rfl⟩ := hstep
      exact h.sublist (List.eraseIdx_sublist l index)
  | retain f =>
      obtain rfl := Option.some.inj hstep
      exact h.sublist (retain_sublist f [] l)

/-- What a value promises. -/
structure Proper (key : T → κ) (item : Codec T) (bound : UInt32) (l : List T) : Prop where
  sorted : NonDecreasing key l
  bounded : l.length ≤ bound.toNat
  inserts : ∀ element, Added element l (tryInsert key bound element l)
  pushes : ∀ element, Added element l (tryPush key bound element l)
  roundTrip : ∀ rest, decode key item bound (encode item l ++ rest) = .ok (l, rest)

theorem Kept.proper (h : Kept key bound l) : Proper key item bound l where
  sorted := h.sorted
  bounded := h.bounded
  inserts element := added_tryAdd element l
  pushes element := added_tryAdd element l
  roundTrip := h.roundTrip

/-- **Bounded and sorted, whatever is done**, exactly when the vectors that are turned
    into a value, and are short enough for that, are in order: `TryFrom` does not check
    what the decoder checks. -/
theorem proper_iff (key : T → κ) (item : Codec T) (bound : UInt32) (ops : List (Op T)) :
    Throughout (step key item bound) (Proper key item bound) default ops ↔
      Along (step key item bound) (fun _ op => op.Ordered key bound) default ops := by
  have hstart : Kept key bound (default : List T) := ⟨.nil, Nat.zero_le _⟩
  refine throughout_iff_along (fun h => h.proper) (fun h hop hstep => h.step hop hstep) ?_ hstart
  intro l op _ hop
  -- Only `try_from` is held to a condition.
  cases op with
  | tryFrom t =>
      obtain ⟨hbound, hunsorted⟩ := Classical.not_imp.mp hop
      refine ⟨t, ?_, fun h => hunsorted h.sorted⟩
      simp only [step, tryFrom, if_pos hbound]
  | _ => exact absurd trivial hop

/-- A vector out of order becomes a value, which does not survive the storage. -/
theorem tryFrom_unsorted : tryFrom 4 [2, 1] = .ok [2, 1] ∧ ¬ NonDecreasing UInt8.toNat [2, 1] ∧
    decode UInt8.toNat byte 4 (encode byte [2, 1]) = .error "input is not sorted" := by
  refine ⟨rfl, ?_, ?_⟩
  · rw [← isSorted_iff]
    decide
  · rw [← List.append_nil (encode byte [2, 1]), decode_encode (by decide)]
    decide

end BoundedSortedVec
end Composable
