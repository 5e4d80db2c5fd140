import Composable.Support.Ledger

/-!
# `Traits.Currency` — origins and the currency factory

The interfaces of `frame/composable-traits/src/currency.rs` that several pallets are generic over,
and the origin of a dispatch.
-/

namespace Composable

/-- `frame_system::RawOrigin`. -/
inductive RawOrigin (A : Type) where
  | root
  | signed (account : A)
  | none
deriving DecidableEq, Repr

/-- `ensure_signed`. -/
def ensureSigned {σ ε A : Type} (origin : RawOrigin A) : Call σ (DispatchError ε) A :=
  match origin with
  | .signed account => pure account
  | _ => Call.fail .badOrigin

/-- `ensure_root`. -/
def ensureRoot {σ ε A : Type} (origin : RawOrigin A) : Call σ (DispatchError ε) Unit :=
  match origin with
  | .root => pure ()
  | _ => Call.fail .badOrigin

@[simp] theorem ensureSigned_ok {σ ε A : Type} {origin : RawOrigin A} {a : A} {s s' : σ} :
    (ensureSigned origin : Call σ (DispatchError ε) A) s = (.ok a, s') ↔
      origin = .signed a ∧ s' = s := by
  cases origin with
  | signed b =>
      rw [RawOrigin.signed.injEq, eq_comm (a := b)]
      exact Call.pure_ok
  | _ => simp [ensureSigned]

@[simp] theorem ensureSigned_outcome {σ ε A : Type} {origin : RawOrigin A} {s : σ}
    {P : A → σ → Prop} {Q : DispatchError ε → σ → Prop} :
    Call.Outcome P Q ((ensureSigned origin : Call σ (DispatchError ε) A) s) ↔
      (∀ a, origin = .signed a → P a s) ∧ ((∀ a, origin ≠ .signed a) → Q .badOrigin s) := by
  cases origin with
  | signed b =>
      simp only [RawOrigin.signed.injEq, forall_eq']
      exact ⟨fun h => ⟨h, fun hne => absurd rfl (hne b)⟩, fun h => h.1⟩
  | root => simp [ensureSigned]
  | none => simp [ensureSigned]

@[simp] theorem ensureRoot_outcome {σ ε A : Type} {origin : RawOrigin A} {s : σ}
    {P : Unit → σ → Prop} {Q : DispatchError ε → σ → Prop} :
    Call.Outcome P Q ((ensureRoot origin : Call σ (DispatchError ε) Unit) s) ↔
      (origin = .root → P () s) ∧ (origin ≠ .root → Q .badOrigin s) := by
  cases origin with
  | root =>
      simp only [true_implies, ne_eq, not_true_eq_false, false_implies, and_true]
      exact Iff.rfl
  | signed b => simp [ensureRoot]
  | none => simp [ensureRoot]

/-- `RangeId`, the asset id ranges. -/
structure RangeId where
  inner : Nat
deriving DecidableEq, Repr

def RangeId.lpTokens : RangeId := ⟨0⟩

def RangeId.tokens : RangeId := ⟨1⟩

def RangeId.foreignAssets : RangeId := ⟨2⟩

/-- Creates a new asset: the implementor ensures that a new id is created and collisions are
    avoided. `inUse` are the ids that exist already. -/
structure CurrencyFactory (F X : Type) where
  create : F → RangeId → Except (DispatchError Empty) (X × F)
  inUse : F → X → Prop
  fresh : ∀ {f r x f'}, create f r = .ok (x, f') → ¬ inUse f x
  inUse_create : ∀ {f r x f' y}, create f r = .ok (x, f') → (inUse f' y ↔ y = x ∨ inUse f y)

/-- A factory that counts: the ids below the counter are in use. -/
def CurrencyFactory.counter : CurrencyFactory Nat Nat where
  create n _ := .ok (n, n + 1)
  inUse n x := x < n
  fresh := by
    intro f r x f' h
    cases h
    exact Nat.lt_irrefl _
  inUse_create := by
    intro f r x f' y h
    cases h
    exact ⟨fun hy => (Nat.lt_succ_iff_lt_or_eq.mp hy).symm,
      fun hy => hy.elim (fun h => h ▸ Nat.lt_succ_self _) fun h => Nat.lt_succ_of_lt h⟩

end Composable
