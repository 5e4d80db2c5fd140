import Mathlib.Data.List.AList
import Mathlib.Algebra.BigOperators.Group.List.Basic
import Mathlib.Algebra.Order.BigOperators.Group.List
import Mathlib.Algebra.Order.Ring.Nat

/-!
# `Support.StorageMap` — finite storage maps and sums over them

A storage map that the code iterates over is an association list without duplicate keys. `total`
adds up a quantity over all entries; `total_insert` and `total_erase` say how one write changes it,
which is all that the accounting invariants need.
-/

namespace Composable

/-- A finite map from keys `K` to values `V`. -/
abbrev StorageMap (K V : Type) : Type := AList fun _ : K => V

namespace StorageMap

variable {K V : Type} [DecidableEq K]

/-- `ValueQuery`: the stored value, or the default of the type. -/
def getD (m : StorageMap K V) (k : K) (default : V) : V := (m.lookup k).getD default

/-- The sum of `f` over all entries. -/
def total (f : K → V → Nat) (m : StorageMap K V) : Nat := (m.entries.map fun e => f e.1 e.2).sum

theorem lookup_insert_some {m : StorageMap K V} {k k' : K} {v v' : V} :
    (m.insert k v).lookup k' = some v' ↔ (k' = k ∧ v' = v) ∨ (k' ≠ k ∧ m.lookup k' = some v') := by
  by_cases hk : k' = k
  · subst hk
    rw [AList.lookup_insert, Option.some_inj]
    simp [eq_comm (a := v)]
  · simp [AList.lookup_insert_ne hk, hk]

theorem lookup_erase_some {m : StorageMap K V} {k k' : K} {v : V} :
    (m.erase k).lookup k' = some v ↔ k' ≠ k ∧ m.lookup k' = some v := by
  by_cases hk : k' = k
  · subst hk
    simp
  · simp [AList.lookup_erase_ne hk, hk]

/-- What is in the list of a key is in a stored one. -/
theorem mem_getD {α : Type} {m : StorageMap K (List α)} {k : K} {x : α} :
    x ∈ m.getD k [] ↔ ∃ l, m.lookup k = some l ∧ x ∈ l := by
  unfold getD
  cases m.lookup k <;> simp

/-- The share of one key in a total. -/
def share (f : K → V → Nat) (m : StorageMap K V) (k : K) : Nat := (m.lookup k).elim 0 (f k)

variable {f g : K → V → Nat} {m : StorageMap K V} {k : K} {v : V}

omit [DecidableEq K] in
@[simp] theorem total_empty : total f (∅ : StorageMap K V) = 0 := rfl

theorem share_of_lookup (h : m.lookup k = some v) : share f m k = f k v := by
  rw [share, h]
  rfl

theorem share_of_lookup_none (h : m.lookup k = none) : share f m k = 0 := by
  rw [share, h]
  rfl

/-- Erasing the first entry of a key takes exactly that entry out of a sum. -/
theorem sum_kerase (l : List (Sigma fun _ : K => V)) :
    ((l.kerase k).map fun e => f e.1 e.2).sum + (l.dlookup k).elim 0 (f k) =
      (l.map fun e => f e.1 e.2).sum := by
  induction l with
  | nil => rfl
  | cons e l ih =>
      obtain ⟨k', v⟩ := e
      by_cases h : k = k'
      · subst h
        simp [Nat.add_comm]
      · rw [List.kerase_cons_ne h, List.dlookup_cons_ne l _ h]
        simp only [List.map_cons, List.sum_cons]
        omega

/-- **Removal** takes the share of the key out of a total. -/
theorem total_erase : total f (m.erase k) + share f m k = total f m := sum_kerase m.entries

/-- **Insertion** replaces the share of the key. -/
theorem total_insert : total f (m.insert k v) + share f m k = total f m + f k v := by
  have h : total f (m.insert k v) = f k v + total f (m.erase k) := by
    rw [total, AList.entries_insert, List.map_cons, List.sum_cons]
    rfl
  rw [h, Nat.add_assoc, total_erase, Nat.add_comm]

theorem share_le_total : share f m k ≤ total f m := by
  rw [← total_erase (k := k)]
  exact Nat.le_add_left _ _

theorem le_total (h : m.lookup k = some v) : f k v ≤ total f m :=
  share_of_lookup (f := f) h ▸ share_le_total

theorem share_erase_ne {k' : K} (h : k' ≠ k) : share f (m.erase k) k' = share f m k' := by
  rw [share, AList.lookup_erase_ne h, share]

omit [DecidableEq K] in
/-- A total is monotone in what it adds up. -/
theorem total_le_total (h : ∀ e ∈ m.entries, f e.1 e.2 ≤ g e.1 e.2) : total f m ≤ total g m :=
  List.sum_le_sum h

omit [DecidableEq K] in
theorem total_congr (h : ∀ e ∈ m.entries, f e.1 e.2 = g e.1 e.2) : total f m = total g m := by
  rw [total, List.map_congr_left h, total]

/-- Maps that store the same have the same entries, in some order. -/
theorem entries_perm {m' : StorageMap K V} (h : ∀ k, m.lookup k = m'.lookup k) :
    m.entries.Perm m'.entries := by
  refine List.lookup_ext m.nodupKeys m'.nodupKeys fun k v => ?_
  show v ∈ m.lookup k ↔ v ∈ m'.lookup k
  rw [h k]

theorem total_eq_of_lookup {m' : StorageMap K V} (h : ∀ k, m.lookup k = m'.lookup k) :
    total f m = total f m' :=
  ((entries_perm h).map _).sum_eq

omit [DecidableEq K] in
theorem total_eq_zero (h : ∀ e ∈ m.entries, f e.1 e.2 = 0) : total f m = 0 := by
  rw [total_congr (g := fun _ _ => 0) h]
  simp [total]

section Default

variable {d : V} (hd : f k d = 0)
include hd

/-- What is not stored has the share of the default. -/
theorem share_eq_getD : share f m k = f k (m.getD k d) := by
  cases h : m.lookup k with
  | none => rw [share_of_lookup_none h, getD, h, Option.getD_none, hd]
  | some v => rw [share_of_lookup h, getD, h, Option.getD_some]

/-- **Insertion**, where a default is stored for the other keys. -/
theorem total_insert_getD : total f (m.insert k v) + f k (m.getD k d) = total f m + f k v := by
  rw [← share_eq_getD hd]
  exact total_insert

theorem getD_le_total : f k (m.getD k d) ≤ total f m := by
  rw [← share_eq_getD hd]
  exact share_le_total

end Default

/-- Two quantities that differ at one key have totals that differ by its shares. -/
theorem total_of_eq_off (h : ∀ k', k' ≠ k → ∀ v, g k' v = f k' v) :
    total g m + share f m k = total f m + share g m k := by
  have hrest : total g (m.erase k) = total f (m.erase k) := by
    apply total_congr
    intro e he
    apply h
    intro heq
    have hmem : e.1 ∈ m.erase k := List.mem_keys_of_mem he
    exact (AList.mem_erase.mp hmem).1 heq
  have hf : total f (m.erase k) + share f m k = total f m := total_erase
  have hg : total g (m.erase k) + share g m k = total g m := total_erase
  omega

/-- A total is the sum of the shares of the keys, in whatever order they are listed. -/
theorem total_eq_sum_share {keys : List K} (h : keys.Perm m.keys) :
    total f m = (keys.map (share f m)).sum := by
  rw [(h.map (share f m)).sum_eq, AList.keys, List.keys, List.map_map, total]
  congr 1
  apply List.map_congr_left
  intro e he
  exact (share_of_lookup (AList.mem_lookup_iff.mpr he)).symm

/-- The shares of different keys add up to at most the total. -/
theorem sum_share_le_total {keys : List K} (h : keys.Nodup) :
    (keys.map (share f m)).sum ≤ total f m := by
  induction keys generalizing m with
  | nil => exact Nat.zero_le _
  | cons k keys ih =>
      obtain ⟨hk, hkeys⟩ := List.nodup_cons.mp h
      have hrest : keys.map (share f m) = keys.map (share f (m.erase k)) := by
        apply List.map_congr_left
        intro k' hk'
        have hne : k' ≠ k := fun heq => hk (heq ▸ hk')
        exact (share_erase_ne hne).symm
      rw [List.map_cons, List.sum_cons, hrest, ← total_erase (k := k), Nat.add_comm]
      exact Nat.add_le_add_right (ih hkeys) _

end StorageMap

/-! ## Double maps -/

/-- A finite map for every first key. -/
abbrev StorageDoubleMap (K L V : Type) : Type := K → StorageMap L V

namespace StorageDoubleMap

variable {K L V : Type} [DecidableEq K] [DecidableEq L]

def get (m : StorageDoubleMap K L V) (k : K) (l : L) : Option V := (m k).lookup l

def put (m : StorageDoubleMap K L V) (k : K) (l : L) (v : V) : StorageDoubleMap K L V :=
  Function.update m k ((m k).insert l v)

def remove (m : StorageDoubleMap K L V) (k : K) (l : L) : StorageDoubleMap K L V :=
  Function.update m k ((m k).erase l)

variable {m : StorageDoubleMap K L V} {k k' : K} {l l' : L} {v : V}

theorem get_put : (m.put k l v).get k' l' = if k' = k ∧ l' = l then some v else m.get k' l' := by
  unfold put get
  by_cases hk : k' = k
  · subst hk
    rw [Function.update_self]
    by_cases hl : l' = l
    · rw [hl, if_pos ⟨rfl, rfl⟩, AList.lookup_insert]
    · rw [if_neg fun h => hl h.2, AList.lookup_insert_ne hl]
  · rw [Function.update_of_ne hk, if_neg fun h => hk h.1]

theorem get_remove : (m.remove k l).get k' l' = if k' = k ∧ l' = l then none else m.get k' l' := by
  unfold remove get
  by_cases hk : k' = k
  · subst hk
    rw [Function.update_self]
    by_cases hl : l' = l
    · rw [hl, if_pos ⟨rfl, rfl⟩, AList.lookup_erase]
    · rw [if_neg fun h => hl h.2, AList.lookup_erase_ne hl]
  · rw [Function.update_of_ne hk, if_neg fun h => hk h.1]

theorem isSome_get_put :
    ((m.put k l v).get k' l').isSome = (decide (k' = k ∧ l' = l) || (m.get k' l').isSome) := by
  rw [get_put]
  by_cases h : k' = k ∧ l' = l
  · simp [h]
  · simp [h]

theorem isSome_get_remove :
    ((m.remove k l).get k' l').isSome = (!decide (k' = k ∧ l' = l) && (m.get k' l').isSome) := by
  rw [get_remove]
  by_cases h : k' = k ∧ l' = l
  · simp [h]
  · simp [h]

theorem put_self : m.put k l v k = (m k).insert l v := Function.update_self ..

theorem put_of_ne (h : k' ≠ k) : m.put k l v k' = m k' := Function.update_of_ne h ..

theorem remove_of_ne (h : k' ≠ k) : m.remove k l k' = m k' := Function.update_of_ne h ..

end StorageDoubleMap
end Composable
