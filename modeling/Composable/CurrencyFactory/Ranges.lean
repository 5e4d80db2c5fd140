import Composable.Support.Fixed
import Composable.Support.Run
import Composable.Traits.Currency
import Mathlib.Data.List.Pairwise

/-!
# `CurrencyFactory.Ranges` — the currency factory

Embeds `frame/currency-factory/src/{ranges,lib}.rs`: asset ids are handed out from ranges, each with
a cursor of its own. Three ranges are there from the start, and more are appended behind the last
one. Ids are 128-bit numbers; events and weights are left out.

A range starts right behind the end of the one before it, so `Chained` says at once that cursors
stay within their ranges and that the ranges are disjoint. What lies between the start of a range
and its cursor has been handed out (`InUse`), and a request hands out one more
(`WellFormed.increment`). So no id is handed out twice (`ids_unique`), and the chained ranges are a
factory in the sense that other pallets rely on (`factory`).
-/

namespace Composable
namespace CurrencyRanges

/-! ## Ranges -/

structure Range where
  current : Nat
  end_ : Nat
deriving DecidableEq, Repr

namespace Range

def lpTokens : Range := ⟨100000000001, 200000000000⟩

def tokens : Range := ⟨200000000001, 300000000000⟩

def foreignAssets : Range := ⟨300000000001, 400000000000⟩

def new (at_ : Nat) : Option Nat → Except (DispatchError Empty) Range
  | some end_ =>
      if Fixed.saturated (at_ + end_) < 100000000 then .error (.other "range does not have the minimum length")
      else .ok ⟨at_, end_⟩
  | none => .ok ⟨at_, Fixed.saturated (100000000000 + at_)⟩

/-- The id under the cursor, and the range behind it. -/
def increment (range : Range) : Except (DispatchError Empty) (Nat × Range) :=
  if range.current = range.end_ then .error (.other "range exhausted")
  else .ok (range.current, { range with current := Fixed.saturated (range.current + 1) })

end Range

/-- `MaxRanges`. -/
def maxRanges : Nat := 256

abbrev Ranges : Type := List Range

namespace Ranges

/-- `none` is the error: the range overlaps the last one, or there are too many. -/
def add (ranges : Ranges) (range : Range) : Option Ranges :=
  if ∃ last ∈ ranges.getLast?, range.current ≤ last.end_ then none
  else if ranges.length < maxRanges then some (ranges ++ [range])
  else none

def new : Ranges := [.lpTokens, .tokens, .foreignAssets]

/-- The end of the last range. -/
def end_ (ranges : Ranges) : Nat := ranges.getLast?.elim 0 Range.end_

def append (ranges : Ranges) (length : Nat) : Except (DispatchError Empty) Ranges := do
  let start ← (Fixed.checked (ranges.end_ + 1)).mapError .arithmetic
  let end_ ← (Fixed.checked (start + length)).mapError .arithmetic
  let range ← Range.new start (some end_)
  match ranges.add range with
  | some ranges => .ok ranges
  | none => .error (.arithmetic .overflow)

def increment (ranges : Ranges) (id : RangeId) : Except (DispatchError Empty) (Nat × Ranges) :=
  match ranges[id.inner]? with
  | none => .error (.other "range not found")
  | some range => do
      let (next, range) ← range.increment
      pure (next, ranges.set id.inner range)

end Ranges

/-! ## The pallet -/

/-- A call of the pallet; the ranges are all of its storage. -/
abbrev RangesCall (α : Type) : Type := Call Ranges (DispatchError Empty) α

variable {A : Type} (isAddOrigin : RawOrigin A → Bool)

/-- The extrinsic `add_range`. -/
def addRange (origin : RawOrigin A) (length : Nat) : RangesCall Unit := do
  Call.ensure (isAddOrigin origin = true) .badOrigin
  let ranges ← Call.get
  let ranges ← Call.ofExcept (ranges.append length)
  Call.modify fun _ => ranges

/-- `CurrencyFactory::create`. -/
def create (id : RangeId) : RangesCall Nat := do
  let ranges ← Call.get
  let (next, ranges) ← Call.ofExcept (ranges.increment id)
  Call.modify fun _ => ranges
  pure next

/-! ## Chained ranges -/

/-- Behind `base` come the ranges, each right behind the end of the one before it,
    with its cursor in between. -/
def Chained (base : Nat) : Ranges → Prop
  | [] => True
  | range :: rest =>
      base < range.current ∧ range.current ≤ range.end_ ∧ range.end_ ≤ u128Max ∧
        Chained range.end_ rest

/-- The half-open intervals of the ranges. -/
def bounds (base : Nat) : Ranges → List (Nat × Nat)
  | [] => []
  | range :: rest => (base + 1, range.end_) :: bounds range.end_ rest

/-- The id was handed out: it lies between the start of a range and its cursor. -/
def InUse (base : Nat) : Ranges → Nat → Prop
  | [], _ => False
  | range :: rest, x => (base < x ∧ x < range.current) ∨ InUse range.end_ rest x

/-- The end of the last range, or `base` without any. -/
def lastEnd (base : Nat) (ranges : Ranges) : Nat := ranges.getLast?.elim base Range.end_

/-- The range with its cursor one further. -/
def Range.next (range : Range) : Range := { range with current := range.current + 1 }

variable {ranges ranges' : Ranges} {range : Range} {base i x : Nat}

theorem lastEnd_cons : lastEnd base (range :: ranges) = lastEnd range.end_ ranges := by
  cases ranges with
  | nil => rfl
  | cons first rest =>
      rw [lastEnd, lastEnd, List.getLast?_cons_cons]
      rfl

theorem Chained.of_mem (h : Chained base ranges) (hmem : range ∈ ranges) :
    base < range.current ∧ range.current ≤ range.end_ ∧ range.end_ ≤ u128Max := by
  induction ranges generalizing base with
  | nil => cases hmem
  | cons first rest ih =>
      obtain ⟨hbase, hcursor, hmax, hrest⟩ := h
      rcases List.mem_cons.mp hmem with rfl | hmem
      · exact ⟨hbase, hcursor, hmax⟩
      · have hrange := ih hrest hmem
        omega

/-- Chained ranges are ordered and disjoint. -/
theorem Chained.ordered (h : Chained base ranges) :
    ranges.Pairwise fun r r' => r.end_ < r'.current := by
  induction ranges generalizing base with
  | nil => exact .nil
  | cons first rest ih => exact .cons (fun r hr => (h.2.2.2.of_mem hr).1) (ih h.2.2.2)

/-- So are the intervals that they were given. -/
theorem Chained.bounds_ordered (h : Chained base ranges) :
    (∀ b ∈ bounds base ranges, base < b.1) ∧ (bounds base ranges).Pairwise fun b b' =>
      b.2 < b'.1 := by
  induction ranges generalizing base with
  | nil => exact ⟨nofun, .nil⟩
  | cons first rest ih =>
      obtain ⟨hbase, hcursor, -, hrest⟩ := h
      obtain ⟨hbehind, hpairwise⟩ := ih hrest
      refine ⟨fun b hb => ?_, .cons hbehind hpairwise⟩
      rcases List.mem_cons.mp hb with rfl | hb
      · exact Nat.lt_succ_self base
      · have hlow := hbehind b hb
        omega

theorem lt_of_inUse (h : Chained base ranges) (hx : InUse base ranges x) : base < x := by
  induction ranges generalizing base with
  | nil => exact hx.elim
  | cons first rest ih =>
      obtain ⟨hbase, hcursor, -, hrest⟩ := h
      rcases hx with ⟨hx, -⟩ | hx
      · exact hx
      · have hend := ih hrest hx
        omega

/-! ## Moving one cursor -/

/-- The id under the cursor of a range that is not exhausted is within its bounds,
    and was not handed out. -/
theorem Chained.cursor (h : Chained base ranges) (hget : ranges[i]? = some range)
    (hne : range.current ≠ range.end_) : ¬ InUse base ranges range.current ∧
      ∃ b, (bounds base ranges)[i]? = some b ∧ b.1 ≤ range.current ∧ range.current < b.2 := by
  induction ranges generalizing base i with
  | nil => cases hget
  | cons first rest ih =>
      obtain ⟨hbase, hcursor, -, hrest⟩ := h
      cases i with
      | zero =>
          obtain rfl : first = range := Option.some.inj hget
          refine ⟨?_, _, rfl, hbase, Nat.lt_of_le_of_ne hcursor hne⟩
          rintro (⟨-, hlt⟩ | hlater)
          · exact Nat.lt_irrefl _ hlt
          · have hend := lt_of_inUse hrest hlater
            omega
      | succ i =>
          obtain ⟨hfresh, b, hb, hlow, hhigh⟩ := ih hrest hget
          have hbehind : first.end_ < range.current := (hrest.of_mem (List.mem_of_getElem? hget)).1
          refine ⟨?_, b, hb, hlow, hhigh⟩
          rintro (⟨-, hlt⟩ | hlater)
          · omega
          · exact hfresh hlater

/-- Moving the cursor hands out that id, and keeps the ranges chained. -/
theorem Chained.set (h : Chained base ranges) (hget : ranges[i]? = some range)
    (hne : range.current ≠ range.end_) :
    Chained base (ranges.set i range.next) ∧
      bounds base (ranges.set i range.next) = bounds base ranges ∧
      ∀ x, InUse base (ranges.set i range.next) x ↔ x = range.current ∨ InUse base ranges x := by
  induction ranges generalizing base i with
  | nil => cases hget
  | cons first rest ih =>
      obtain ⟨hbase, hcursor, hmax, hrest⟩ := h
      cases i with
      | zero =>
          obtain rfl : first = range := Option.some.inj hget
          have hroom : first.current < first.end_ := Nat.lt_of_le_of_ne hcursor hne
          refine ⟨⟨Nat.lt_succ_of_lt hbase, hroom, hmax, hrest⟩, rfl, fun x => ?_⟩
          show (base < x ∧ x < first.current + 1) ∨ InUse first.end_ rest x ↔
            x = first.current ∨ (base < x ∧ x < first.current) ∨ InUse first.end_ rest x
          rw [← or_assoc]
          refine or_congr ?_ Iff.rfl
          omega
      | succ i =>
          obtain ⟨hchained, hbounds, huse⟩ := ih hrest hget
          refine ⟨⟨hbase, hcursor, hmax, hchained⟩, congrArg (List.cons _) hbounds, fun x => ?_⟩
          show _ ∨ InUse first.end_ (rest.set i range.next) x ↔ _ ∨ _ ∨ InUse first.end_ rest x
          rw [huse x, or_left_comm]

/-! ## A new range behind the last -/

/-- A range that starts behind the last one keeps the ranges chained, and
    nothing of it was handed out. -/
theorem Chained.append_range (h : Chained base ranges)
    (hstart : range.current = lastEnd base ranges + 1)
    (hend : range.current ≤ range.end_) (hmax : range.end_ ≤ u128Max) :
    Chained base (ranges ++ [range]) ∧
      bounds base (ranges ++ [range]) = bounds base ranges ++ [(range.current, range.end_)] ∧
      ∀ x, InUse base (ranges ++ [range]) x ↔ InUse base ranges x := by
  induction ranges generalizing base with
  | nil =>
      have hfirst : range.current = base + 1 := hstart
      refine ⟨⟨by omega, hend, hmax, trivial⟩, by rw [hfirst]; rfl, fun x => ?_⟩
      refine iff_of_false (fun hx => ?_) id
      rcases hx with ⟨hlow, hhigh⟩ | hx
      · omega
      · exact hx
  | cons first rest ih =>
      obtain ⟨hbase, hcursor, hfirst, hrest⟩ := h
      rw [lastEnd_cons] at hstart
      obtain ⟨hchained, hbounds, huse⟩ := ih hrest hstart
      refine ⟨⟨hbase, hcursor, hfirst, hchained⟩, congrArg (List.cons _) hbounds, fun x => ?_⟩
      exact or_congr Iff.rfl (huse x)

/-! ## The ranges of the pallet -/

/-- The number before the first id. -/
def firstBase : Nat := 100000000000

/-- The ranges of the pallet: there are some, and they are chained. -/
structure WellFormed (ranges : Ranges) : Prop where
  nonempty : ranges ≠ []
  chained : Chained firstBase ranges

theorem WellFormed.new : WellFormed .new := by
  refine ⟨nofun, ?_⟩
  simp [Ranges.new, Chained, Range.lpTokens, Range.tokens, Range.foreignAssets, firstBase, u128Max]

theorem WellFormed.end_eq (h : WellFormed ranges) : ranges.end_ = lastEnd firstBase ranges := by
  cases ranges with
  | nil => exact absurd rfl h.nonempty
  | cons first rest =>
      obtain ⟨last, hlast⟩ := Option.isSome_iff_exists.mp (List.getLast?_isSome.mpr h.nonempty)
      rw [Ranges.end_, lastEnd, hlast]
      rfl

theorem Range.new_ok {at_ end_ : Nat} : Range.new at_ (some end_) = .ok range ↔
    100000000 ≤ Fixed.saturated (at_ + end_) ∧ range = ⟨at_, end_⟩ := by
  rw [Range.new]
  split
  next hshort => exact ⟨nofun, fun h => absurd hshort (Nat.not_lt.mpr h.1)⟩
  next hlong => rw [Except.ok.injEq, eq_comm, and_iff_right (Nat.not_lt.mp hlong)]

/-- A range right behind the last one does not overlap it. -/
theorem add_behind (hbehind : range.current = ranges.end_ + 1) :
    ranges.add range = some ranges' ↔ ranges.length < maxRanges ∧ ranges' = ranges ++ [range] := by
  have hapart : ¬ ∃ last ∈ ranges.getLast?, range.current ≤ last.end_ := by
    rintro ⟨last, hlast, hle⟩
    rw [hbehind, Ranges.end_, Option.mem_def.mp hlast, Option.elim_some] at hle
    omega
  rw [Ranges.add, if_neg hapart, Option.ite_none_right_eq_some, Option.some.injEq,
    eq_comm (a := ranges')]

/-- What `append` checks, and the range it adds. -/
theorem append_ok {length : Nat} : ranges.append length = .ok ranges' ↔
    ranges.end_ + 1 + length ≤ u128Max ∧
      100000000 ≤ Fixed.saturated (ranges.end_ + 1 + (ranges.end_ + 1 + length)) ∧
      ranges.length < maxRanges ∧
      ranges' = ranges ++ [⟨ranges.end_ + 1, ranges.end_ + 1 + length⟩] := by
  simp only [Ranges.append, exceptBind_ok, exceptMapError_ok, Fixed.checked_ok, Range.new_ok]
  constructor
  · rintro ⟨start, ⟨-, rfl⟩, end_, ⟨hmax, rfl⟩, range, ⟨hlong, rfl⟩, happend⟩
    split at happend
    next added hadd =>
      obtain ⟨hroom, rfl⟩ := (add_behind rfl).mp hadd
      exact ⟨hmax, hlong, hroom, (Except.ok.inj happend).symm⟩
    next => cases happend
  · rintro ⟨hmax, hlong, hroom, rfl⟩
    refine ⟨_, ⟨by omega, rfl⟩, _, ⟨hmax, rfl⟩, _, ⟨hlong, rfl⟩, ?_⟩
    rw [(add_behind rfl).mpr ⟨hroom, rfl⟩]

/-- A range that fits behind the last one keeps the ranges well-formed, and
    nothing of it was handed out. -/
theorem WellFormed.behind {length : Nat} (h : WellFormed ranges)
    (hmax : ranges.end_ + 1 + length ≤ u128Max) :
    WellFormed (ranges ++ [⟨ranges.end_ + 1, ranges.end_ + 1 + length⟩]) ∧
      bounds firstBase (ranges ++ [⟨ranges.end_ + 1, ranges.end_ + 1 + length⟩]) =
        bounds firstBase ranges ++ [(ranges.end_ + 1, ranges.end_ + 1 + length)] ∧
      ∀ x, InUse firstBase (ranges ++ [⟨ranges.end_ + 1, ranges.end_ + 1 + length⟩]) x ↔
        InUse firstBase ranges x := by
  have hstart : (⟨ranges.end_ + 1, ranges.end_ + 1 + length⟩ : Range).current =
      lastEnd firstBase ranges + 1 := by
    rw [← h.end_eq]
  obtain ⟨hchained, hbounds, huse⟩ := h.chained.append_range hstart (Nat.le_add_right _ length) hmax
  exact ⟨⟨by simp, hchained⟩, hbounds, huse⟩

/-- Appending keeps the ranges well-formed, and adds an interval behind those there are. -/
theorem WellFormed.append {length : Nat} (h : WellFormed ranges)
    (happend : ranges.append length = .ok ranges') :
    WellFormed ranges' ∧ (∀ x, InUse firstBase ranges' x ↔ InUse firstBase ranges x) ∧
      bounds firstBase ranges <+: bounds firstBase ranges' := by
  obtain ⟨hmax, -, -, rfl⟩ := append_ok.mp happend
  obtain ⟨hwell, hbounds, huse⟩ := h.behind hmax
  exact ⟨hwell, huse, hbounds ▸ List.prefix_append _ _⟩

/-- A request moves the cursor of its range. -/
theorem increment_ok {id : RangeId} : ranges.increment id = .ok (x, ranges') ↔
    ∃ range range', ranges[id.inner]? = some range ∧ range.increment = .ok (x, range') ∧
      ranges' = ranges.set id.inner range' := by
  unfold Ranges.increment
  cases hget : ranges[id.inner]? with
  | none => simp
  | some range =>
      simp only [exceptBind_ok, Prod.exists, Option.some.injEq, exists_and_left, exists_eq_left']
      constructor
      · rintro ⟨next, range', hnext, hset⟩
        obtain ⟨rfl, rfl⟩ := Prod.mk.inj (Except.ok.inj hset)
        exact ⟨range', hnext, rfl⟩
      · rintro ⟨range', hnext, rfl⟩
        exact ⟨x, range', hnext, rfl⟩

/-- **A request** hands out an id within the bounds of its range that was not handed out before. -/
theorem WellFormed.increment {id : RangeId} (h : WellFormed ranges)
    (hincrement : ranges.increment id = .ok (x, ranges')) :
    WellFormed ranges' ∧ bounds firstBase ranges' = bounds firstBase ranges ∧
      ¬ InUse firstBase ranges x ∧
      (∀ y, InUse firstBase ranges' y ↔ y = x ∨ InUse firstBase ranges y) ∧
      ∃ b, (bounds firstBase ranges)[id.inner]? = some b ∧ b.1 ≤ x ∧ x < b.2 := by
  obtain ⟨range, range', hget, hnext, rfl⟩ := increment_ok.mp hincrement
  unfold Range.increment at hnext
  split at hnext
  · cases hnext
  next hne =>
    obtain ⟨rfl, rfl⟩ := Prod.mk.inj (Except.ok.inj hnext)
    obtain ⟨-, hcursor, hmax⟩ := h.chained.of_mem (List.mem_of_getElem? hget)
    have hexact : Fixed.saturated (range.current + 1) = range.current + 1 := by
      rw [Fixed.saturated]
      omega
    obtain ⟨hfresh, hbounds⟩ := h.chained.cursor hget hne
    obtain ⟨hchained, hkept, huse⟩ := h.chained.set hget hne
    rw [hexact]
    exact ⟨⟨by simpa using h.nonempty, hchained⟩, hkept, hfresh, huse, hbounds⟩

/-! ## Runs -/

/-- A request that is refused leaves the ranges. -/
theorem create_eq {id : RangeId} : create id ranges =
    match ranges.increment id with
    | .ok (x, ranges') => (.ok x, ranges')
    | .error e => (.error e, ranges) := by
  rw [create, Call.get_bind]
  show Call.bind (Call.ofExcept (ranges.increment id)) _ ranges = _
  rw [Call.bind, Call.ofExcept]
  cases ranges.increment id with
  | error e => rfl
  | ok answer => rfl

theorem dispatch_create {id : RangeId} : dispatch (create id) ranges =
    match ranges.increment id with
    | .ok (_, ranges') => ranges'
    | .error _ => ranges := by
  rw [dispatch, create_eq]
  cases ranges.increment id with
  | error e => cases e <;> rfl
  | ok answer => rfl

theorem addRange_eq {origin : RawOrigin A} {length : Nat} :
    addRange isAddOrigin origin length ranges =
    if isAddOrigin origin = true then
      match ranges.append length with
      | .ok ranges' => (.ok (), ranges')
      | .error e => (.error e, ranges)
    else (.error .badOrigin, ranges) := by
  rw [addRange, Call.ensure]
  split
  · show Call.bind (Call.ofExcept (ranges.append length)) _ ranges = _
    rw [Call.bind, Call.ofExcept]
    cases ranges.append length with
    | error e => rfl
    | ok ranges' => rfl
  · rfl

theorem dispatch_addRange {origin : RawOrigin A} {length : Nat} :
    dispatch (addRange isAddOrigin origin length) ranges =
    if isAddOrigin origin = true then
      match ranges.append length with
      | .ok ranges' => ranges'
      | .error _ => ranges
    else ranges := by
  rw [dispatch, addRange_eq]
  by_cases horigin : isAddOrigin origin = true
  · rw [if_pos horigin, if_pos horigin]
    cases ranges.append length with
    | error e => cases e <;> rfl
    | ok ranges' => rfl
  · rw [if_neg horigin, if_neg horigin]

/-- A call of the pallet: the extrinsic, or a request of another pallet. -/
inductive Op (A : Type) where
  | addRange (origin : RawOrigin A) (length : Nat)
  | create (id : RangeId)
deriving DecidableEq

def step (ranges : Ranges) : Op A → Option Ranges
  | .addRange origin length => some (dispatch (addRange isAddOrigin origin length) ranges)
  | .create id => some (dispatch (create id) ranges)

/-- The id that a request was answered with, and the range that it was made to. -/
def handedOut (ranges : Ranges) : Op A → Option (RangeId × Nat)
  | .addRange _ _ => none
  | .create id => (create id ranges).1.toOption.map fun x => (id, x)

/-- The id of a request lies within the bounds of its range. -/
def Within (ranges : Ranges) (request : RangeId × Nat) : Prop :=
  ∃ b, (bounds firstBase ranges)[request.1.inner]? = some b ∧ b.1 ≤ request.2 ∧ request.2 < b.2

/-- Of the ids handed out so far: they are in use, lie within the bounds of
    their ranges, and differ. -/
structure Accounted (ranges : Ranges) (handed : List (RangeId × Nat)) : Prop where
  wellFormed : WellFormed ranges
  inUse : ∀ request ∈ handed, InUse firstBase ranges request.2
  within : ∀ request ∈ handed, Within ranges request
  nodup : (handed.map Prod.snd).Nodup

variable {handed : List (RangeId × Nat)}

/-- More ranges behind those there are change nothing for an id. -/
theorem Within.mono {request : RangeId × Nat} (h : Within ranges request)
    (hbounds : bounds firstBase ranges <+: bounds firstBase ranges') : Within ranges' request := by
  obtain ⟨b, hb, hx⟩ := h
  obtain ⟨later, hlater⟩ := hbounds
  obtain ⟨hi, -⟩ := List.getElem?_eq_some_iff.mp hb
  refine ⟨b, ?_, hx⟩
  rw [← hlater, List.getElem?_append_left hi]
  exact hb

theorem Accounted.append {length : Nat} (h : Accounted ranges handed)
    (happend : ranges.append length = .ok ranges') : Accounted ranges' handed := by
  obtain ⟨hwell, huse, hbounds⟩ := h.wellFormed.append happend
  exact ⟨hwell, fun r hr => (huse r.2).mpr (h.inUse r hr),
    fun r hr => (h.within r hr).mono hbounds, h.nodup⟩

theorem Accounted.increment {id : RangeId} (h : Accounted ranges handed)
    (hincrement : ranges.increment id = .ok (x, ranges')) :
    Accounted ranges' (handed ++ [(id, x)]) := by
  obtain ⟨hwell, hbounds, hfresh, huse, hwithin⟩ := h.wellFormed.increment hincrement
  refine ⟨hwell, fun r hr => (huse r.2).mpr ?_, fun r hr => ?_, ?_⟩
  · rcases List.mem_append.mp hr with hr | hr
    · exact .inr (h.inUse r hr)
    · rw [List.mem_singleton.mp hr]
      exact .inl rfl
  · rcases List.mem_append.mp hr with hr | hr
    · refine (h.within r hr).mono ?_
      rw [hbounds]
    · rw [List.mem_singleton.mp hr, Within, hbounds]
      exact hwithin
  · rw [List.map_append, List.nodup_append]
    refine ⟨h.nodup, List.nodup_singleton x, fun y hy z hz => ?_⟩
    obtain ⟨r, hr, rfl⟩ := List.mem_map.mp hy
    rintro rfl
    have hx : r.2 = x := List.mem_singleton.mp hz
    exact hfresh (hx ▸ h.inUse r hr)

/-- **Step lemma.** A call that fails leaves the ranges, and hands out nothing. -/
theorem Accounted.step {op : Op A} (h : Accounted ranges handed)
    (hstep : step isAddOrigin ranges op = some ranges') :
    Accounted ranges' (handed ++ (handedOut ranges op).toList) := by
  cases op with
  | addRange origin length =>
      obtain rfl := Option.some.inj hstep
      rw [handedOut, Option.toList_none, List.append_nil, dispatch_addRange]
      split
      · cases happend : ranges.append length with
        | error e => exact h
        | ok added => exact h.append happend
      · exact h
  | create id =>
      obtain rfl := Option.some.inj hstep
      rw [handedOut, dispatch_create, create_eq]
      cases hincrement : ranges.increment id with
      | error e =>
          show Accounted ranges (handed ++ [])
          rw [List.append_nil]
          exact h
      | ok answer => exact h.increment hincrement

/-- **No id is handed out twice**: whatever ranges are added and requests made, the ids that were
    handed out differ, each lies within the bounds of the range it was requested from, and the
    ranges, with the cursors in them, stay ordered and disjoint. -/
theorem ids_unique {ops : List (Op A)} (hrun : run (step isAddOrigin) .new ops = some ranges) :
    ((history (step isAddOrigin) handedOut .new ops).map Prod.snd).Nodup ∧
      (∀ request ∈ history (step isAddOrigin) handedOut .new ops, Within ranges request) ∧
      ranges.Pairwise (fun r r' => r.end_ < r'.current) ∧ (∀ r ∈ ranges, r.current ≤ r.end_) ∧
      (bounds firstBase ranges).Pairwise fun b b' => b.2 < b'.1 := by
  have hstart : Accounted .new [] := ⟨.new, nofun, nofun, .nil⟩
  have hend :=
    history_collect (fun h _ hstep => h.step isAddOrigin hstep) hstart (along_true _ _) hrun
  rw [List.nil_append] at hend
  have hchained := hend.wellFormed.chained
  exact ⟨hend.nodup, hend.within, hchained.ordered, fun r hr => (hchained.of_mem hr).2.1,
    hchained.bounds_ordered.2⟩

/-- Requests to two ranges, with a range added in between. -/
theorem ids_unique_of_requests :
    ((history (step (A := Nat) fun _ => true) handedOut .new
      [.create .lpTokens, .addRange .root 5, .create .lpTokens, .create ⟨3⟩]).map
        Prod.snd).Nodup := by
  have hrun : run (step (A := Nat) fun _ => true) .new
      [.create .lpTokens, .addRange .root 5, .create .lpTokens, .create ⟨3⟩] =
        some [⟨100000000003, 200000000000⟩, .tokens, .foreignAssets,
          ⟨400000000002, 400000000006⟩] := by decide
  exact (ids_unique _ hrun).1

/-- The ranges of the pallet are a factory as other pallets need it. -/
def factory : CurrencyFactory {ranges : Ranges // WellFormed ranges} Nat where
  create ranges id :=
    match h : ranges.val.increment id with
    | .ok (x, ranges') => .ok (x, ⟨ranges', (ranges.property.increment h).1⟩)
    | .error e => .error e
  inUse ranges x := InUse firstBase ranges.val x
  fresh := by
    intro ranges id x ranges' h
    split at h
    next y left hincrement =>
      cases h
      exact (ranges.property.increment hincrement).2.2.1
    next => cases h
  inUse_create := by
    intro ranges id x ranges' y h
    split at h
    next z left hincrement =>
      cases h
      exact (ranges.property.increment hincrement).2.2.2.1 y
    next => cases h

end CurrencyRanges
end Composable
