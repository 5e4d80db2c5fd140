import Composable.CurrencyFactory.Ranges

/-!
# `CurrencyFactory.Lengths` — the ids of a range, and how many they are

A range is half-open: it is exhausted when its cursor is at its end, so `Range.ids` are the ids it
is still to hand out. A request takes the first of them (`create_of_get`), and whatever else is
called in between, requests to one range are answered with its ids from first to last and with
nothing after that (`answers_eq_take`).

A range that is added is to offer `minimumLength` ids. `Range::new` compares the sum of its two
ends with that number instead of their difference, and behind the ranges that are there from the
start the sum is always greater (`WellFormed.append_ok_iff`). So a new range offers as many ids
as it is asked to, however few.
-/

namespace Composable
namespace CurrencyRanges

/-- The ids that a range is still to hand out, first to last. -/
def Range.ids (range : Range) : List Nat := List.range' range.current (range.end_ - range.current)

/-- The range after `n` requests to it. -/
def Range.after (range : Range) (n : Nat) : Range :=
  { range with current := range.current + min n (range.end_ - range.current) }

/-- The ids that a new range is to offer at least. -/
def minimumLength : Nat := 100000000

/-- Behind the last range there are enough ids for one of this length, and there
    are not too many ranges. -/
def Room (ranges : Ranges) (length : Nat) : Prop :=
  ranges.end_ + 1 + length ≤ u128Max ∧ ranges.length < maxRanges

instance (ranges : Ranges) (length : Nat) : Decidable (Room ranges length) :=
  inferInstanceAs (Decidable (_ ∧ _))

/-- The intervals of the ranges have the minimum length. -/
def AllLong (ranges : Ranges) : Prop := ∀ b ∈ bounds firstBase ranges, minimumLength ≤ b.2 - b.1

variable {A : Type} {isAddOrigin : RawOrigin A → Bool} {ranges ranges' : Ranges} {range : Range}
  {id : RangeId} {length : Nat} {op : Op A}

/-! ## Lengths -/

theorem WellFormed.base_lt_end (h : WellFormed ranges) : firstBase < ranges.end_ := by
  obtain ⟨last, hlast⟩ := Option.isSome_iff_exists.mp (List.getLast?_isSome.mpr h.nonempty)
  obtain ⟨hbase, hcursor, -⟩ := h.chained.of_mem (List.mem_of_getLast? hlast)
  rw [Ranges.end_, hlast, Option.elim_some]
  exact hbase.trans_le hcursor

/-- **The check of the length never fires**: any length goes for which there is room. -/
theorem WellFormed.append_ok_iff (h : WellFormed ranges) : ranges.append length = .ok ranges' ↔
    Room ranges length ∧ ranges' = ranges ++ [⟨ranges.end_ + 1, ranges.end_ + 1 + length⟩] := by
  have hsum : 100000000 ≤ Fixed.saturated (ranges.end_ + 1 + (ranges.end_ + 1 + length)) := by
    have hbase := h.base_lt_end
    simp only [firstBase, Fixed.saturated, u128Max] at hbase ⊢
    omega
  rw [append_ok, and_iff_right hsum, Room, and_assoc]

/-- So `append` adds long ranges only exactly when it is not asked for a short one. -/
theorem WellFormed.append_long_iff (h : WellFormed ranges) :
    (∀ ranges', ranges.append length = .ok ranges' →
        ∃ range, ranges' = ranges ++ [range] ∧ minimumLength ≤ range.ids.length) ↔
      (Room ranges length → minimumLength ≤ length) := by
  have hids : (⟨ranges.end_ + 1, ranges.end_ + 1 + length⟩ : Range).ids.length = length := by
    simp [Range.ids]
  constructor
  · intro hlong hroom
    obtain ⟨range, hadded, hlength⟩ := hlong _ (h.append_ok_iff.mpr ⟨hroom, rfl⟩)
    rw [← List.singleton_inj.mp (List.append_cancel_left hadded), hids] at hlength
    exact hlength
  · intro hlong ranges' happend
    obtain ⟨hroom, hadded⟩ := h.append_ok_iff.mp happend
    exact ⟨_, hadded, hids.symm ▸ hlong hroom⟩

/-- A range that could not be added leaves the ranges. -/
theorem addRange_error {origin : RawOrigin A} {e : DispatchError Empty}
    (herror : addRange isAddOrigin origin length ranges = (.error e, ranges')) :
    ranges' = ranges := by
  rw [addRange_eq] at herror
  split at herror
  · cases happend : ranges.append length with
    | error e' =>
        rw [happend] at herror
        exact (Prod.mk.inj herror).2.symm
    | ok added =>
        rw [happend] at herror
        cases herror
  · exact (Prod.mk.inj herror).2.symm

/-- The length of the range that is added: the origin may add one, and there is room for it. -/
def Op.added (isAddOrigin : RawOrigin A → Bool) (ranges : Ranges) : Op A → Option Nat
  | .addRange origin length =>
      if isAddOrigin origin = true ∧ Room ranges length then some length else none
  | .create _ => none

/-- **What a step does to the intervals**: there is one more for a range that is added. -/
theorem WellFormed.step_bounds (h : WellFormed ranges)
    (hstep : step isAddOrigin ranges op = some ranges') :
    WellFormed ranges' ∧ bounds firstBase ranges' = bounds firstBase ranges ++
      (op.added isAddOrigin ranges).toList.map fun length =>
        (ranges.end_ + 1, ranges.end_ + 1 + length) := by
  cases op with
  | addRange origin length =>
      obtain rfl := Option.some.inj hstep
      rw [dispatch_addRange, Op.added]
      by_cases horigin : isAddOrigin origin = true
      · rw [if_pos horigin]
        cases happend : ranges.append length with
        | ok added =>
            obtain ⟨hroom, rfl⟩ := h.append_ok_iff.mp happend
            obtain ⟨hwell, hbounds, -⟩ := h.behind hroom.1
            rw [if_pos ⟨horigin, hroom⟩]
            exact ⟨hwell, hbounds⟩
        | error e =>
            have hfull : ¬ (isAddOrigin origin = true ∧ Room ranges length) := by
              rintro ⟨-, hroom⟩
              rw [h.append_ok_iff.mpr ⟨hroom, rfl⟩] at happend
              cases happend
            rw [if_neg hfull]
            exact ⟨h, (List.append_nil _).symm⟩
      · rw [if_neg horigin, if_neg fun hadds => horigin hadds.1]
        exact ⟨h, (List.append_nil _).symm⟩
  | create id =>
      obtain rfl := Option.some.inj hstep
      rw [dispatch_create]
      show _ ∧ _ = bounds firstBase ranges ++ []
      rw [List.append_nil]
      cases hincrement : ranges.increment id with
      | ok answer =>
          obtain ⟨hwell, hbounds, -⟩ := h.increment hincrement
          exact ⟨hwell, hbounds⟩
      | error e => exact ⟨h, rfl⟩

/-- A range that is added has the minimum length. -/
def Op.Long (isAddOrigin : RawOrigin A → Bool) (ranges : Ranges) (op : Op A) : Prop :=
  ∀ length ∈ op.added isAddOrigin ranges, minimumLength ≤ length

theorem AllLong.new : AllLong .new := by
  unfold AllLong
  decide

/-- So a step keeps the intervals long exactly when it adds a long one. -/
theorem WellFormed.step_allLong (h : WellFormed ranges) (hlong : AllLong ranges)
    (hstep : step isAddOrigin ranges op = some ranges') :
    AllLong ranges' ↔ op.Long isAddOrigin ranges := by
  obtain ⟨-, hbounds⟩ := h.step_bounds hstep
  simp only [AllLong, hbounds, List.mem_append, List.mem_map, Option.mem_toList]
  constructor
  · intro hall length hlength
    have hlast := hall _ (.inr ⟨length, hlength, rfl⟩)
    simpa using hlast
  · rintro hop b (hb | ⟨length, hlength, rfl⟩)
    · exact hlong b hb
    · simpa using hop length hlength

/-- **All ranges have the minimum length** all along exactly when every range
    that is added was asked to. -/
theorem allLong_iff (ops : List (Op A)) : Throughout (step isAddOrigin) AllLong .new ops ↔
    Along (step isAddOrigin) (Op.Long isAddOrigin) .new ops := by
  refine throughout_iff_along (I := fun ranges => WellFormed ranges ∧ AllLong ranges) (fun h => h.2)
    ?_ ?_ ⟨.new, .new⟩
  · intro ranges op ranges' h hop hstep
    exact ⟨(h.1.step_bounds hstep).1, (h.1.step_allLong h.2 hstep).mpr hop⟩
  · intro ranges op h hop
    have hstep : ∃ ranges', step isAddOrigin ranges op = some ranges' := by
      cases op <;> exact ⟨_, rfl⟩
    obtain ⟨ranges', hstep⟩ := hstep
    exact ⟨ranges', hstep, fun hlong => hop ((h.1.step_allLong h.2 hstep).mp hlong)⟩

/-! ## Requests to one range -/

@[simp] theorem Range.after_zero : range.after 0 = range := by simp [Range.after]

theorem Range.after_after (m n : Nat) : (range.after m).after n = range.after (m + n) := by
  simp only [Range.after, Range.mk.injEq, and_true]
  omega

/-- The first ids are the first one and those after it. -/
theorem Range.take_ids (range : Range) (n : Nat) :
    range.ids.take (n + 1) = range.ids.head?.toList ++ (range.after 1).ids.take n := by
  simp only [Range.ids, Range.after]
  cases hleft : range.end_ - range.current with
  | zero => simp [hleft]
  | succ m =>
      have hnext : range.end_ - (range.current + 1) = m := by omega
      simp [List.range'_succ, hnext]

theorem Range.increment_eq (hcursor : range.current ≤ range.end_) (hmax : range.end_ ≤ u128Max) :
    range.increment = match range.ids.head? with
      | some x => .ok (x, range.after 1)
      | none => .error (.other "range exhausted") := by
  unfold Range.increment Range.ids
  split
  next hexhausted => simp [hexhausted]
  next hne =>
    obtain ⟨n, hn⟩ : ∃ n, range.end_ - range.current = n + 1 :=
      ⟨range.end_ - range.current - 1, by omega⟩
    have hexact : Fixed.saturated (range.current + 1) = range.current + 1 := by
      rw [Fixed.saturated]
      omega
    simp [Range.after, hn, List.range'_succ, hexact]

/-- **What a request does**: it is answered with the first id of its range, if there is one. -/
theorem WellFormed.create_of_get (h : WellFormed ranges) (hget : ranges[id.inner]? = some range) :
    (create id ranges).1.toOption = range.ids.head? ∧
      (dispatch (create id) ranges)[id.inner]? = some (range.after 1) := by
  obtain ⟨-, hcursor, hmax⟩ := h.chained.of_mem (List.mem_of_getElem? hget)
  have hnext := Range.increment_eq hcursor hmax
  have hlength : id.inner < ranges.length := (List.getElem?_eq_some_iff.mp hget).1
  rw [dispatch_create, create_eq]
  cases hfirst : range.ids.head? with
  | some x =>
      rw [hfirst] at hnext
      rw [increment_ok.mpr ⟨range, range.after 1, hget, hnext, rfl⟩]
      exact ⟨rfl, List.getElem?_set_self hlength⟩
  | none =>
      -- Nothing is left, so the range after the request is the range.
      have hleft : range.end_ - range.current = 0 := by simpa [Range.ids] using hfirst
      have hsame : range.after 1 = range := by simp [Range.after, hleft]
      rw [hfirst] at hnext
      cases hincrement : ranges.increment id with
      | ok answer =>
          obtain ⟨range', _, hget', hnext', -⟩ := increment_ok.mp hincrement
          rw [← Option.some.inj (hget.symm.trans hget'), hnext] at hnext'
          cases hnext'
      | error e =>
          rw [hsame]
          exact ⟨rfl, hget⟩

/-- A request to another range does not touch this one. -/
theorem create_frame {id' : RangeId} (hne : id' ≠ id) :
    (dispatch (create id') ranges)[id.inner]? = ranges[id.inner]? := by
  have hinner : id'.inner ≠ id.inner := fun heq => hne (congrArg RangeId.mk heq)
  rw [dispatch_create]
  cases hincrement : ranges.increment id' with
  | error e => rfl
  | ok answer =>
      obtain ⟨_, range', -, -, hset⟩ := increment_ok.mp hincrement
      show answer.2[id.inner]? = ranges[id.inner]?
      rw [hset]
      exact List.getElem?_set_ne hinner

/-- Nor does a new range. -/
theorem addRange_frame {origin : RawOrigin A} (hget : ranges[id.inner]? = some range) :
    (dispatch (addRange isAddOrigin origin length) ranges)[id.inner]? = some range := by
  have hlength : id.inner < ranges.length := (List.getElem?_eq_some_iff.mp hget).1
  rw [dispatch_addRange]
  split
  · cases happend : ranges.append length with
    | error e => exact hget
    | ok added =>
        obtain ⟨-, -, -, rfl⟩ := append_ok.mp happend
        exact (List.getElem?_append_left hlength).trans hget
  · exact hget

/-- The call is a request to this range. -/
def Op.requests (id : RangeId) : Op A → Bool
  | .addRange _ _ => false
  | .create id' => decide (id' = id)

/-- The id with which a request to this range is answered. -/
def answer (id : RangeId) (ranges : Ranges) (op : Op A) : Option Nat :=
  (handedOut ranges op).bind fun request => if request.1 = id then some request.2 else none

/-- The answers to the requests to a range, in a run from these ranges. -/
def answers (isAddOrigin : RawOrigin A → Bool) (id : RangeId) (ranges : Ranges)
    (ops : List (Op A)) : List Nat :=
  history (step isAddOrigin) (answer id) ranges ops

/-- **Step lemma.** A request to the range takes its first id, and any other call leaves it. -/
theorem WellFormed.step_range (h : WellFormed ranges) (hget : ranges[id.inner]? = some range)
    (hstep : step isAddOrigin ranges op = some ranges') :
    if op.requests id = true then answer id ranges op = range.ids.head? ∧
      ranges'[id.inner]? = some (range.after 1)
    else answer id ranges op = none ∧ ranges'[id.inner]? = some range := by
  cases op with
  | addRange origin length =>
      obtain rfl := Option.some.inj hstep
      exact ⟨rfl, addRange_frame hget⟩
  | create id' =>
      obtain rfl := Option.some.inj hstep
      by_cases hid : id' = id
      · subst hid
        obtain ⟨hanswer, hafter⟩ := h.create_of_get hget
        simp only [Op.requests, decide_true, if_true, answer, handedOut, hanswer]
        refine ⟨?_, hafter⟩
        cases range.ids.head? with
        | none => rfl
        | some x => simp
      · simp only [Op.requests, hid, decide_false, Bool.false_eq_true, if_false, answer, handedOut]
        refine ⟨?_, (create_frame hid).trans hget⟩
        cases (create id' ranges).1.toOption with
        | none => rfl
        | some x => simp [hid]

/-- **Requests to a range are answered with its ids from first to last**, and with nothing once they
    are used up, whatever else is called in between. -/
theorem WellFormed.answers_eq_take (h : WellFormed ranges) (hget : ranges[id.inner]? = some range)
    {ops : List (Op A)} (hrun : run (step isAddOrigin) ranges ops = some ranges') :
    answers isAddOrigin id ranges ops = range.ids.take (ops.countP (Op.requests id)) ∧
      ranges'[id.inner]? = some (range.after (ops.countP (Op.requests id))) := by
  induction ops generalizing ranges range with
  | nil =>
      obtain rfl := Option.some.inj hrun
      rw [List.countP_nil, Range.after_zero]
      exact ⟨rfl, hget⟩
  | cons op ops ih =>
      obtain ⟨t, ht, hrest⟩ := run_cons.mp hrun
      have hwell : WellFormed t := (h.step_bounds ht).1
      have hturn := h.step_range hget ht
      rw [answers, history, ht, Option.elim_some, List.countP_cons]
      split at hturn
      next hrequest =>
        obtain ⟨hanswer, hafter⟩ := hturn
        obtain ⟨hanswers, hend⟩ := ih hwell hafter hrest
        rw [answers] at hanswers
        rw [hanswer, hanswers, if_pos hrequest, range.take_ids, hend, Range.after_after, Nat.add_comm]
        exact ⟨rfl, rfl⟩
      next hrequest =>
        obtain ⟨hanswer, hsame⟩ := hturn
        rw [hanswer, Option.toList_none, List.nil_append, if_neg hrequest, Nat.add_zero]
        exact ih hwell hsame hrest

/-- After as many requests as there were ids, none is left. -/
theorem Range.ids_after {n : Nat} (h : range.ids.length ≤ n) : (range.after n).ids = [] := by
  simp only [Range.ids, List.length_range', Range.after, List.range'_eq_nil_iff] at h ⊢
  omega

/-- In whatever runs from these ranges, requests to a range get its ids from first to last, and fail
    after that; its cursor moves with them, and with nothing else. -/
def HandsOut (isAddOrigin : RawOrigin A → Bool) (ranges : Ranges) : Prop :=
  ∀ (id : RangeId) (range : Range), ranges[id.inner]? = some range →
    ∀ (ops : List (Op A)) (ranges' : Ranges), run (step isAddOrigin) ranges ops = some ranges' →
      answers isAddOrigin id ranges ops = range.ids.take (ops.countP (Op.requests id)) ∧
        ranges'[id.inner]? = some (range.after (ops.countP (Op.requests id))) ∧
        (range.ids.length ≤ ops.countP (Op.requests id) →
          ∃ e, create id ranges' = (.error e, ranges'))

theorem WellFormed.handsOut (h : WellFormed ranges) : HandsOut isAddOrigin ranges := by
  intro id range hget ops ranges' hrun
  obtain ⟨hanswers, hend⟩ := h.answers_eq_take hget hrun
  refine ⟨hanswers, hend, fun hlength => ?_⟩
  have hwell : WellFormed ranges' :=
    run_invariant (fun h _ hstep => (h.step_bounds hstep).1) h (along_true _ _) hrun
  have hnone : (create id ranges').1.toOption = none := by
    rw [(hwell.create_of_get hend).1, Range.ids_after hlength]
    rfl
  rw [create_eq] at hnone ⊢
  cases hincrement : ranges'.increment id with
  | error e => exact ⟨e, rfl⟩
  | ok answer =>
      rw [hincrement] at hnone
      cases hnone

/-- **Every added range has the minimum length, exactly when it was asked to**, in all runs and in
    every state they reach: there is no other check. A range that cannot be added leaves the ranges,
    and each hands out its ids. -/
theorem minimum_length {ops : List (Op A)} (hrun : run (step isAddOrigin) .new ops = some ranges) :
    (Throughout (step isAddOrigin) AllLong .new ops ↔
      Along (step isAddOrigin) (Op.Long isAddOrigin) .new ops) ∧
      (∀ length, (∀ ranges', ranges.append length = .ok ranges' →
          ∃ range, ranges' = ranges ++ [range] ∧ minimumLength ≤ range.ids.length) ↔
        (Room ranges length → minimumLength ≤ length)) ∧
      (∀ origin length e ranges', addRange isAddOrigin origin length ranges = (.error e, ranges') →
        ranges' = ranges) ∧
      HandsOut isAddOrigin ranges := by
  have hwell : WellFormed ranges :=
    run_invariant (fun h _ hstep => (h.step_bounds hstep).1) .new (along_true _ _) hrun
  -- Of a range that is well formed, the length is the difference of its ends and one.
  refine ⟨allLong_iff ops, fun length => hwell.append_long_iff, ?_, hwell.handsOut⟩
  intro origin length e ranges' herror
  exact addRange_error herror

/-- With a range of five ids added and one of them requested. -/
theorem minimum_length_of_five :
    HandsOut (A := Nat) (fun _ => true)
      [.lpTokens, .tokens, .foreignAssets, ⟨400000000002, 400000000006⟩] := by
  have hrun : run (step (A := Nat) fun _ => true) .new [.addRange .root 5, .create ⟨3⟩] =
      some [.lpTokens, .tokens, .foreignAssets, ⟨400000000002, 400000000006⟩] := by decide
  exact (minimum_length hrun).2.2.2

/-- A range of five ids can be added. -/
theorem addRange_short : addRange (A := Nat) (fun _ => true) .root 5 .new =
      (.ok (), [.lpTokens, .tokens, .foreignAssets, ⟨400000000001, 400000000006⟩]) ∧
    (⟨400000000001, 400000000006⟩ : Range).ids.length = 5 ∧ 5 < minimumLength :=
  ⟨rfl, rfl, by decide⟩

end CurrencyRanges
end Composable
