import Mathlib.Logic.Basic
import Mathlib.Tactic.TypeStar

/-!
# `Support.Call` — fallible calls on a storage

A runtime call reads and writes a storage `σ` and returns a value or an error. Unlike a state monad
over `Except`, a call that fails keeps the writes it made before the failure: whether they are
undone is the business of `transactional` and `dispatch`.

## Contents
- **The monad** `Call σ ε`, with the primitives the pallets are written in (`get`, `modify`,
  `ensure`, `ofOption`, `when`) and `zoom`, which runs a call of one storage inside a larger one.
- **Inversion** (`bind_ok`, `ensure_ok`, …): what a call that returned must have done. `simp` with
  these takes a whole `do` block apart; with `exists_and_left` and `exists_eq_left` beside them, the
  storages between two lines that only check something go away.
- **Outcomes** (`Outcome`, `outcome_bind`, …): what holds of the storage after a call, whether it
  returned or failed.
- **Atomic calls** (`atomic_bind`, …): calls that leave the storage as it was if they fail.
- **Errors avoided** (`Avoids.bind`, …): an error that a call cannot fail with.
-/

namespace Composable

/-- A fallible call on a storage `σ`; the storage is returned on failure too. -/
def Call (σ ε α : Type) : Type := σ → Except ε α × σ

namespace Call

variable {σ τ ε ε' α β : Type}

/-! ## The monad -/

protected def pure (a : α) : Call σ ε α := fun s => (.ok a, s)

protected def bind (x : Call σ ε α) (f : α → Call σ ε β) : Call σ ε β := fun s =>
  match x s with
  | (.ok a, s') => f a s'
  | (.error e, s') => (.error e, s')

instance : Monad (Call σ ε) where
  pure := Call.pure
  bind := Call.bind

/-- The current storage. -/
def get : Call σ ε σ := fun s => (.ok s, s)

/-- Write to the storage. -/
def modify (f : σ → σ) : Call σ ε Unit := fun s => (.ok (), f s)

def fail (e : ε) : Call σ ε α := fun s => (.error e, s)

/-- `ensure!(c, e)`. -/
def ensure (c : Prop) [Decidable c] (e : ε) : Call σ ε Unit := if c then Call.pure () else fail e

/-- `o.ok_or(e)?`. -/
def ofOption (o : Option α) (e : ε) : Call σ ε α :=
  match o with
  | some a => Call.pure a
  | none => fail e

/-- `r?` on a result that was computed without touching the storage. -/
def ofExcept (r : Except ε α) : Call σ ε α := fun s => (r, s)

/-- `if c { x }`. -/
def when (c : Prop) [Decidable c] (x : Call σ ε Unit) : Call σ ε Unit :=
  if c then x else Call.pure ()

/-- Run a call of the storage `σ` on the part of `τ` that `view` reads and `put` writes, translating
    its errors. -/
def zoom (view : τ → σ) (put : σ → τ → τ) (err : ε → ε') (x : Call σ ε α) : Call τ ε' α := fun t =>
  match x (view t) with
  | (.ok a, s) => (.ok a, put s t)
  | (.error e, s) => (.error (err e), put s t)

/-- `#[transactional]`: the writes of a failed call are undone. -/
def transactional (x : Call σ ε α) : Call σ ε α := fun s =>
  match x s with
  | (.ok a, s') => (.ok a, s')
  | (.error e, _) => (.error e, s)

/-- `for a in l { f a }`: the calls run in order and stop at the first failure. -/
def forEach (l : List β) (f : β → Call σ ε Unit) : Call σ ε Unit :=
  match l with
  | [] => Call.pure ()
  | b :: rest => Call.bind (f b) fun _ => forEach rest f

/-- The storage after a call that must return. -/
def success (x : Call σ ε α) (s : σ) : Option σ :=
  match x s with
  | (.ok _, s') => some s'
  | (.error _, _) => none

/-! ## Inversion of a call that returned -/

variable {s s' t t' : σ} {a b : α}

@[simp] theorem pure_ok : (pure a : Call σ ε α) s = (.ok b, s') ↔ b = a ∧ s' = s := by
  show ((Except.ok a, s) : Except ε α × σ) = _ ↔ _
  rw [Prod.mk.injEq, Except.ok.injEq]
  exact and_congr eq_comm eq_comm

@[simp] theorem bind_ok {x : Call σ ε α} {f : α → Call σ ε β} {b : β} :
    (x >>= f) s = (.ok b, s') ↔ ∃ a t, x s = (.ok a, t) ∧ f a t = (.ok b, s') := by
  show Call.bind x f s = _ ↔ _
  unfold Call.bind
  rcases x s with ⟨_ | a, t⟩
  · simp
  · constructor
    · intro h
      exact ⟨a, t, rfl, h⟩
    · rintro ⟨_, _, hx, hf⟩
      cases hx
      exact hf

@[simp] theorem get_ok : (get : Call σ ε σ) s = (.ok t, s') ↔ t = s ∧ s' = s := by
  rw [get, Prod.mk.injEq, Except.ok.injEq]
  exact and_congr eq_comm eq_comm

/-- Once the first call returned, the rest follows. -/
theorem bind_of_ok {x : Call σ ε α} {f : α → Call σ ε β} (h : x s = (.ok a, s')) :
    (x >>= f) s = f a s' := by
  show Call.bind x f s = _
  rw [Call.bind, h]

/-- If the first call failed, the whole fails with its error. -/
theorem bind_of_error {x : Call σ ε α} {f : α → Call σ ε β} {e : ε} (h : x s = (.error e, s')) :
    (x >>= f) s = (.error e, s') := by
  show Call.bind x f s = _
  rw [Call.bind, h]

/-- Reading the storage first only names it. -/
@[simp] theorem get_bind {f : σ → Call σ ε β} : ((get : Call σ ε σ) >>= f) s = f s s := rfl

@[simp] theorem modify_ok {f : σ → σ} {u : Unit} :
    (modify f : Call σ ε Unit) s = (.ok u, s') ↔ s' = f s := by
  rw [modify, Prod.mk.injEq]
  exact ⟨fun h => h.2.symm, fun h => ⟨rfl, h.symm⟩⟩

@[simp] theorem fail_ok {e : ε} : ¬ (fail e : Call σ ε α) s = (.ok a, s') := by
  simp [fail]

@[simp] theorem ensure_ok {c : Prop} [Decidable c] {e : ε} {u : Unit} :
    (ensure c e : Call σ ε Unit) s = (.ok u, s') ↔ c ∧ s' = s := by
  unfold ensure
  split
  · exact ⟨fun h => ⟨‹c›, (pure_ok.mp h).2⟩, fun h => pure_ok.mpr ⟨rfl, h.2⟩⟩
  · exact ⟨fun h => absurd h fail_ok, fun h => absurd h.1 ‹¬c›⟩

@[simp] theorem ofOption_ok {o : Option α} {e : ε} :
    (ofOption o e : Call σ ε α) s = (.ok a, s') ↔ o = some a ∧ s' = s := by
  cases o with
  | none => exact ⟨fun h => absurd h fail_ok, fun h => absurd h.1 (by simp)⟩
  | some b =>
      rw [Option.some.injEq, eq_comm (a := b)]
      exact pure_ok

@[simp] theorem ofExcept_ok {r : Except ε α} :
    (ofExcept r : Call σ ε α) s = (.ok a, s') ↔ r = .ok a ∧ s' = s := by
  rw [ofExcept, Prod.mk.injEq, eq_comm (a := s)]

@[simp] theorem when_ok {c : Prop} [Decidable c] {x : Call σ ε Unit} {u : Unit} :
    (when c x) s = (.ok u, s') ↔ (c ∧ x s = (.ok u, s')) ∨ (¬c ∧ s' = s) := by
  unfold when
  split
  · simp [*]
  · simp only [‹¬c›, false_and, not_false_eq_true, true_and, false_or]
    exact ⟨fun h => (pure_ok.mp h).2, fun h => pure_ok.mpr ⟨rfl, h⟩⟩

@[simp] theorem zoom_ok {view : τ → σ} {put : σ → τ → τ} {err : ε → ε'} {x : Call σ ε α} {t t' : τ} :
    zoom view put err x t = (.ok a, t') ↔ ∃ s', x (view t) = (.ok a, s') ∧ t' = put s' t := by
  unfold zoom
  rcases x (view t) with ⟨_ | b, s⟩
  · simp
  · simp only [Prod.mk.injEq, Except.ok.injEq]
    exact ⟨fun h => ⟨s, ⟨h.1, rfl⟩, h.2.symm⟩, fun ⟨_, h, h'⟩ => ⟨h.1, h.2 ▸ h'.symm⟩⟩

theorem success_eq_some {x : Call σ ε α} : success x s = some s' ↔ ∃ a, x s = (.ok a, s') := by
  unfold success
  rcases x s with ⟨_ | b, t⟩ <;> simp

@[simp] theorem transactional_ok {x : Call σ ε α} :
    transactional x s = (.ok a, s') ↔ x s = (.ok a, s') := by
  unfold transactional
  rcases x s with ⟨_ | b, t⟩ <;> simp

/-- A call returns one value. -/
theorem ok_inj {x : Call σ ε α} {b : α} {t : σ} (h : x s = (.ok a, s')) (h' : x s = (.ok b, t)) :
    a = b :=
  Except.ok.inj (congrArg Prod.fst (h.symm.trans h'))

/-- What a call returned. -/
theorem ok_of_toOption {x : Call σ ε α} (h : (x s).1.toOption = some a) : x s = (.ok a, (x s).2) := by
  rcases hx : x s with ⟨e | b, t⟩
  · rw [hx] at h
    cases h
  · rw [hx] at h
    rw [Option.some.inj h]

/-- What a call returns is not rolled back. -/
theorem transactional_fst (x : Call σ ε α) (s : σ) : (transactional x s).1 = (x s).1 := by
  unfold transactional
  rcases x s with ⟨_ | a, t⟩ <;> rfl

theorem transactional_error {x : Call σ ε α} {e : ε} (h : transactional x s = (.error e, s')) :
    s' = s := by
  unfold transactional at h
  rcases hx : x s with ⟨e' | a, t⟩
  · rw [hx] at h
    exact (congrArg Prod.snd h).symm
  · rw [hx] at h
    cases h

/-! ## What holds after a call -/

/-- After the call, `P` holds of the value and the storage if it returned, and `Q` of the error and
    the storage if it failed. -/
def Outcome (P : α → σ → Prop) (Q : ε → σ → Prop) : Except ε α × σ → Prop
  | (.ok a, s) => P a s
  | (.error e, s) => Q e s

variable {P : α → σ → Prop} {Q : ε → σ → Prop}

theorem outcome_iff {x : Call σ ε α} :
    Outcome P Q (x s) ↔
      (∀ a s', x s = (.ok a, s') → P a s') ∧ (∀ e s', x s = (.error e, s') → Q e s') := by
  rcases x s with ⟨e | a, t⟩
  · simp only [Outcome, Prod.mk.injEq, reduceCtorEq, false_and, false_implies, implies_true, true_and,
      and_imp, Except.error.injEq]
    exact ⟨fun h _ _ he ht => he ▸ ht ▸ h, fun h => h e t rfl rfl⟩
  · simp only [Outcome, Prod.mk.injEq, reduceCtorEq, false_and, false_implies, implies_true, and_true,
      Except.ok.injEq, and_imp]
    exact ⟨fun h _ _ ha ht => ha ▸ ht ▸ h, fun h => h a t rfl rfl⟩

theorem Outcome.imp {P' : α → σ → Prop} {Q' : ε → σ → Prop} {r : Except ε α × σ} (h : Outcome P Q r)
    (hP : ∀ a t, P a t → P' a t) (hQ : ∀ e t, Q e t → Q' e t) : Outcome P' Q' r := by
  rcases r with ⟨e | a, t⟩
  · exact hQ e t h
  · exact hP a t h

/-- A call that can only fail with `e` has failed with `e`. -/
theorem error_of_outcome {x : Call σ ε α} {e : ε}
    (h : Outcome (fun _ _ => False) (fun e' _ => e' = e) (x s)) : (x s).1 = .error e := by
  rcases hx : x s with ⟨e' | a, t⟩
  · rw [hx] at h
    exact congrArg Except.error h
  · rw [hx] at h
    exact h.elim

@[simp] theorem outcome_pure : Outcome P Q ((pure a : Call σ ε α) s) ↔ P a s := Iff.rfl

@[simp] theorem outcome_bind {x : Call σ ε α} {f : α → Call σ ε β} {P : β → σ → Prop} :
    Outcome P Q ((x >>= f) s) ↔ Outcome (fun a t => Outcome P Q (f a t)) Q (x s) := by
  show Outcome P Q (Call.bind x f s) ↔ _
  unfold Call.bind
  rcases x s with ⟨_ | a, t⟩ <;> exact Iff.rfl

/-- A call does what it does and then what follows it. -/
theorem Outcome.bind {x : Call σ ε α} {f : α → Call σ ε β} {R : α → σ → Prop} {P : β → σ → Prop}
    (hx : Outcome R Q (x s)) (hf : ∀ a t, R a t → Outcome P Q (f a t)) :
    Outcome P Q ((x >>= f) s) := by
  rw [outcome_bind]
  exact hx.imp hf fun _ _ h => h

@[simp] theorem outcome_modify {f : σ → σ} {P : Unit → σ → Prop} :
    Outcome P Q ((modify f : Call σ ε Unit) s) ↔ P () (f s) := Iff.rfl

@[simp] theorem outcome_fail {e : ε} : Outcome P Q ((fail e : Call σ ε α) s) ↔ Q e s := Iff.rfl

@[simp] theorem outcome_ensure {c : Prop} [Decidable c] {e : ε} {P : Unit → σ → Prop} :
    Outcome P Q ((ensure c e : Call σ ε Unit) s) ↔ (c → P () s) ∧ (¬c → Q e s) := by
  unfold ensure
  by_cases h : c
  · simp only [h, if_true, true_implies, not_true_eq_false, false_implies, and_true]
    exact outcome_pure
  · simp only [h, if_false, false_implies, not_false_eq_true, true_implies, true_and]
    exact outcome_fail

@[simp] theorem outcome_ofOption {o : Option α} {e : ε} :
    Outcome P Q ((ofOption o e : Call σ ε α) s) ↔ (∀ a, o = some a → P a s) ∧ (o = none → Q e s) := by
  cases o with
  | none => simp [ofOption]
  | some b =>
      simp only [ofOption, Option.some.injEq, forall_eq', reduceCtorEq, false_implies, and_true]
      exact outcome_pure

@[simp] theorem outcome_ofExcept {r : Except ε α} :
    Outcome P Q ((ofExcept r : Call σ ε α) s) ↔
      (∀ a, r = .ok a → P a s) ∧ (∀ e, r = .error e → Q e s) := by
  cases r with
  | error e => simp [ofExcept, Outcome]
  | ok b => simp [ofExcept, Outcome]

@[simp] theorem outcome_zoom {view : τ → σ} {put : σ → τ → τ} {err : ε → ε'} {x : Call σ ε α} {t : τ}
    {P : α → τ → Prop} {Q : ε' → τ → Prop} :
    Outcome P Q (zoom view put err x t) ↔
      Outcome (fun a s => P a (put s t)) (fun e s => Q (err e) (put s t)) (x (view t)) := by
  unfold zoom
  rcases x (view t) with ⟨_ | b, s⟩ <;> exact Iff.rfl

@[simp] theorem outcome_transactional {x : Call σ ε α} :
    Outcome P Q (transactional x s) ↔ Outcome P (fun e _ => Q e s) (x s) := by
  unfold transactional
  rcases x s with ⟨_ | b, t⟩ <;> exact Iff.rfl

/-- What every turn of a loop keeps, the loop keeps. -/
theorem outcome_forEach {l : List β} {f : β → Call σ ε Unit} {I : σ → Prop}
    (hstep : ∀ b ∈ l, ∀ s, I s → Outcome (fun _ => I) Q (f b s)) (hs : I s) :
    Outcome (fun _ => I) Q (forEach l f s) := by
  induction l generalizing s with
  | nil => exact hs
  | cons b rest ih =>
      show Outcome _ _ ((f b >>= fun _ => forEach rest f) s)
      rw [outcome_bind]
      have hb := outcome_iff.mp (hstep b List.mem_cons_self s hs)
      refine outcome_iff.mpr ⟨fun _ t ht => ?_, hb.2⟩
      exact ih (fun b' hb' => hstep b' (List.mem_cons_of_mem _ hb')) (hb.1 _ t ht)

/-- What every turn of a loop that returns keeps, the loop keeps. -/
theorem forEach_invariant {l : List β} {f : β → Call σ ε Unit} {I : σ → Prop} {u : Unit}
    (hstep : ∀ b ∈ l, ∀ {s s' u}, I s → f b s = (.ok u, s') → I s')
    (hs : I s) (h : forEach l f s = (.ok u, s')) : I s' := by
  have hloop : Outcome (fun _ => I) (fun _ _ => True) (forEach l f s) :=
    outcome_forEach (fun b hb t ht => outcome_iff.mpr ⟨fun _ _ => hstep b hb ht,
      fun _ _ _ => trivial⟩) hs
  exact (outcome_iff.mp hloop).1 u s' h

/-! ## Calls that only read -/

/-- The call leaves the storage as it was, whether it returns or fails. -/
def Reads (x : Call σ ε α) : Prop := ∀ s, (x s).2 = s

namespace Reads

theorem ok {x : Call σ ε α} (h : x.Reads) (hx : x s = (.ok a, s')) : s' = s := by
  have hs := h s
  rwa [hx] at hs

/-- What a query answered. -/
theorem ok_of_toOption {x : Call σ ε α} (h : x.Reads) (hx : (x s).1.toOption = some a) :
    x s = (.ok a, s) := by
  rw [Call.ok_of_toOption hx, h s]

theorem error {x : Call σ ε α} {e : ε} (h : x.Reads) (hx : x s = (.error e, s')) : s' = s := by
  have hs := h s
  rwa [hx] at hs

/-- After a query the call goes on from the same storage. -/
theorem bind_ok {x : Call σ ε α} {f : α → Call σ ε β} {b : β} (h : x.Reads) :
    (x >>= f) s = (.ok b, s') ↔ ∃ a, (x s).1.toOption = some a ∧ f a s = (.ok b, s') := by
  rw [Call.bind_ok]
  constructor
  · rintro ⟨a, t, hx, hf⟩
    obtain rfl := h.ok hx
    exact ⟨a, by rw [hx]; rfl, hf⟩
  · rintro ⟨a, hx, hf⟩
    exact ⟨a, s, h.ok_of_toOption hx, hf⟩

protected theorem pure (a : α) : (pure a : Call σ ε α).Reads := fun _ => rfl

protected theorem get : (get : Call σ ε σ).Reads := fun _ => rfl

protected theorem fail (e : ε) : (fail e : Call σ ε α).Reads := fun _ => rfl

protected theorem ofExcept (r : Except ε α) : (ofExcept r : Call σ ε α).Reads := fun _ => rfl

protected theorem ofOption (o : Option α) (e : ε) : (ofOption o e : Call σ ε α).Reads := by
  intro s
  cases o <;> rfl

protected theorem ensure (c : Prop) [Decidable c] (e : ε) : (ensure c e : Call σ ε Unit).Reads := by
  intro s
  unfold ensure
  split <;> rfl

protected theorem when {c : Prop} [Decidable c] {x : Call σ ε Unit} (h : x.Reads) :
    (when c x).Reads := by
  intro s
  unfold when
  split
  · exact h s
  · rfl

protected theorem bind {x : Call σ ε α} {f : α → Call σ ε β} (hx : x.Reads) (hf : ∀ a, (f a).Reads) :
    (x >>= f).Reads := by
  intro s
  show (Call.bind x f s).2 = s
  have hs := hx s
  unfold Call.bind
  rcases hcall : x s with ⟨e | a, t⟩
  · rw [hcall] at hs
    exact hs
  · rw [hcall] at hs
    exact (hf a t).trans hs

protected theorem forEach {l : List β} {f : β → Call σ ε Unit} (h : ∀ b, (f b).Reads) :
    (forEach l f).Reads := by
  induction l with
  | nil => exact .pure ()
  | cons b rest ih => exact .bind (h b) fun _ => ih

protected theorem zoom {view : τ → σ} {put : σ → τ → τ} {err : ε → ε'} {x : Call σ ε α}
    (hput : ∀ t, put (view t) t = t) (hx : x.Reads) : (zoom view put err x).Reads := by
  intro t
  have hs := hx (view t)
  unfold zoom
  rcases hcall : x (view t) with ⟨e | a, s⟩ <;>
  · rw [hcall] at hs
    change put s t = t
    rw [show s = view t from hs, hput]

end Reads

/-! ## Calls that fail without a trace -/

/-- From the storage `s`, the call leaves the storage as it was if it fails. -/
def Atomic (x : Call σ ε α) (s : σ) : Prop := ∀ e s', x s = (.error e, s') → s' = s

/-- After a query, what follows it has to be atomic for its answer. -/
theorem atomic_bind {x : Call σ ε α} {f : α → Call σ ε β} (hx : x.Reads) :
    (x >>= f).Atomic s ↔ ∀ a, x s = (.ok a, s) → (f a).Atomic s := by
  have hs := hx s
  show (Call.bind x f).Atomic s ↔ _
  unfold Atomic Call.bind
  rcases hcall : x s with ⟨e | a, t⟩
  · rw [hcall] at hs
    simp only [Prod.mk.injEq, reduceCtorEq, false_and, false_implies, implies_true, iff_true, and_imp]
    rintro _ _ - rfl
    exact hs
  · rw [hcall] at hs
    obtain rfl : t = s := hs
    simp only [Prod.mk.injEq, Except.ok.injEq, and_true, forall_eq']

theorem atomic_ensure_bind {c : Prop} [Decidable c] {e : ε} {f : Unit → Call σ ε β} :
    ((ensure c e : Call σ ε Unit) >>= f).Atomic s ↔ (c → (f ()).Atomic s) := by
  rw [atomic_bind (.ensure c e)]
  simp only [ensure_ok, and_true]
  exact ⟨fun h hc => h () hc, fun h _ hc => h hc⟩

theorem atomic_get_bind {f : σ → Call σ ε β} :
    ((get : Call σ ε σ) >>= f).Atomic s ↔ (f s).Atomic s := Iff.rfl

/-! ## Calls that avoid an error -/

/-- The call does not fail with `e` from the storage `s`. -/
def Avoids (x : Call σ ε α) (e : ε) (s : σ) : Prop := (x s).1 ≠ .error e

namespace Avoids

variable {e e' : ε}

protected theorem pure (a : α) : (pure a : Call σ ε α).Avoids e s := nofun

protected theorem modify (f : σ → σ) : (modify f : Call σ ε Unit).Avoids e s := nofun

protected theorem fail (h : e' ≠ e) : (fail e' : Call σ ε α).Avoids e s :=
  fun heq => h (Except.error.inj heq)

protected theorem ofExcept {r : Except ε α} (h : r ≠ .error e) :
    (ofExcept r : Call σ ε α).Avoids e s := h

protected theorem ofOption {o : Option α} (h : e' ≠ e) : (ofOption o e' : Call σ ε α).Avoids e s := by
  cases o with
  | none => exact .fail h
  | some a => exact .pure a

protected theorem ensure {c : Prop} [Decidable c] (h : e' ≠ e) :
    (ensure c e' : Call σ ε Unit).Avoids e s := by
  unfold ensure
  split
  · exact .pure ()
  · exact .fail h

protected theorem when {c : Prop} [Decidable c] {x : Call σ ε Unit} (h : x.Avoids e s) :
    (when c x).Avoids e s := by
  unfold when
  split
  · exact h
  · exact .pure ()

/-- What the first call returns may be used for the second. -/
protected theorem bind {x : Call σ ε α} {f : α → Call σ ε β} (hx : x.Avoids e s)
    (hf : ∀ a t, x s = (.ok a, t) → (f a).Avoids e t) : (x >>= f).Avoids e s := by
  show (Call.bind x f s).1 ≠ .error e
  unfold Avoids at hx
  unfold Call.bind
  rcases hcall : x s with ⟨e' | a, t⟩
  · rw [hcall] at hx
    exact fun heq => hx (congrArg _ (Except.error.inj heq))
  · exact hf a t hcall

/-- If a query does not fail with the error, what follows it does. -/
theorem bind_error {x : Call σ ε α} {f : α → Call σ ε β} (hreads : x.Reads) (hx : x.Avoids e s)
    (h : ((x >>= f) s).1 = .error e) : ∃ a, x s = (.ok a, s) ∧ (f a s).1 = .error e := by
  rcases hcall : x s with ⟨e' | a, t⟩
  · rw [bind_of_error hcall] at h
    exact absurd (by rw [hcall]; exact congrArg _ (Except.error.inj h)) hx
  · obtain rfl := hreads.ok hcall
    rw [bind_of_ok hcall] at h
    exact ⟨a, rfl, h⟩

protected theorem get_bind {f : σ → Call σ ε β} (h : (f s).Avoids e s) :
    ((get : Call σ ε σ) >>= f).Avoids e s := h

/-- An error of the part is translated to another one. -/
protected theorem zoom {view : τ → σ} {put : σ → τ → τ} {err : ε → ε'} {x : Call σ ε α}
    {e : ε'} {t : τ}
    (h : ∀ e', (x (view t)).1 = .error e' → err e' ≠ e) : (zoom view put err x).Avoids e t := by
  unfold Avoids zoom
  rcases hcall : x (view t) with ⟨e' | a, s⟩
  · exact fun heq => h e' (by rw [hcall]) (Except.error.inj heq)
  · exact nofun

protected theorem transactional {x : Call σ ε α} (h : x.Avoids e s) :
    (transactional x).Avoids e s := by
  unfold Avoids transactional at *
  rcases hcall : x s with ⟨e' | a, t⟩
  · rw [hcall] at h
    exact h
  · exact nofun

end Avoids

end Call

/-! ## Errors of a dispatch -/

/-- Reasons for which the asset ledger refuses an operation. -/
inductive TokenError where
  | noFunds
  | wouldDie
  | belowMinimum
  | cannotCreate
  | unknownAsset
  | frozen
  | unsupported
  | overflow
deriving DecidableEq, Repr

/-- `ArithmeticError`. -/
inductive ArithmeticError where
  | underflow
  | overflow
  | divisionByZero
deriving DecidableEq, Repr

/-- `DispatchError` of a pallet with error type `ε`. A panic (`expect`, `unwrap`, an index out of
    range, an arithmetic trap) is an outcome of its own. -/
inductive DispatchError (ε : Type) where
  | other (message : String)
  | cannotLookup
  | badOrigin
  | module (error : ε)
  | token (error : TokenError)
  | arithmetic (error : ArithmeticError)
  | panic
deriving DecidableEq, Repr

/-- The same error, with the pallet's own errors embedded in a larger type. -/
def DispatchError.map {ε ε' : Type} (f : ε → ε') : DispatchError ε → DispatchError ε'
  | .other message => .other message
  | .cannotLookup => .cannotLookup
  | .badOrigin => .badOrigin
  | .module e => .module (f e)
  | .token e => .token e
  | .arithmetic e => .arithmetic e
  | .panic => .panic

/-- Run `x`, and if it fails without a panic run `y` on what it left. -/
def Call.orElse {σ ε ε' α : Type} (x : Call σ (DispatchError ε) α) (y : Call σ (DispatchError ε') α) :
    Call σ (DispatchError ε') α := fun s =>
  match x s with
  | (.ok a, s') => (.ok a, s')
  | (.error .panic, s') => (.error .panic, s')
  | (.error _, s') => y s'

theorem Call.orElse_of_ok {σ ε ε' α : Type} {x : Call σ (DispatchError ε) α}
    {y : Call σ (DispatchError ε') α} {s s' : σ} {a : α} (h : x s = (.ok a, s')) :
    Call.orElse x y s = (.ok a, s') := by
  rw [Call.orElse, h]

/-- What `x` leaves when it fails is where `y` starts, unless `x` panicked. -/
theorem Call.outcome_orElse {σ ε ε' α : Type} {x : Call σ (DispatchError ε) α}
    {y : Call σ (DispatchError ε') α} {s : σ} {I : σ → Prop} {P : α → σ → Prop}
    {Q : DispatchError ε' → σ → Prop} (hx : Outcome P (fun _ => I) (x s))
    (hpanic : ∀ t, I t → Q .panic t) (hy : ∀ t, I t → Outcome P Q (y t)) :
    Outcome P Q (Call.orElse x y s) := by
  unfold Call.orElse
  rcases hcall : x s with ⟨e | a, t⟩
  · rw [hcall] at hx
    cases e with
    | panic => exact hpanic t hx
    | _ => exact hy t hx
  · rw [hcall] at hx
    exact hx

/-- Errors are ignored: the call returned, or failed without a panic. -/
theorem Call.orElse_pure_ok {σ ε : Type} {x : Call σ (DispatchError ε) Unit} {s s' : σ} {u : Unit}
    (h : Call.orElse x (pure () : Call σ (DispatchError ε) Unit) s = (.ok u, s')) :
    x s = (.ok (), s') ∨ ∃ e, e ≠ .panic ∧ x s = (.error e, s') := by
  unfold Call.orElse at h
  rcases hcall : x s with ⟨e | a, t⟩
  · rw [hcall] at h
    right
    have hpanic : e ≠ .panic := by
      rintro rfl
      cases h
    have hleft : s' = t := by
      cases e with
      | panic => exact absurd rfl hpanic
      | _ => exact (Call.pure_ok.mp h).2
    exact ⟨e, hpanic, by rw [hleft]⟩
  · rw [hcall] at h
    left
    rw [(Prod.mk.inj h).2]

/-- Run `x` and return its error, if it has one, as a value. A panic is not caught. -/
def Call.attempt {σ ε α : Type} (x : Call σ (DispatchError ε) α) :
    Call σ (DispatchError ε) (Option (DispatchError ε)) := fun s =>
  match x s with
  | (.ok _, s') => (.ok none, s')
  | (.error .panic, s') => (.error .panic, s')
  | (.error e, s') => (.ok (some e), s')

theorem Call.outcome_attempt {σ ε α : Type} {x : Call σ (DispatchError ε) α} {s : σ}
    {P : Option (DispatchError ε) → σ → Prop} {Q : DispatchError ε → σ → Prop} :
    Outcome P Q (Call.attempt x s) ↔
      Outcome (fun _ => P none) (fun e t => (e = .panic → Q .panic t) ∧
        (e ≠ .panic → P (some e) t)) (x s) := by
  unfold Call.attempt
  rcases x s with ⟨e | a, t⟩
  · cases e <;> simp [Outcome]
  · exact Iff.rfl

theorem Call.attempt_ok {σ ε α : Type} {x : Call σ (DispatchError ε) α} {s s' : σ}
    (h : Call.attempt x s = (.ok none, s')) : ∃ a, x s = (.ok a, s') := by
  unfold Call.attempt at h
  rcases hx : x s with ⟨e | a, t⟩
  · rw [hx] at h
    cases e <;> cases h
  · rw [hx] at h
    cases h
    exact ⟨a, rfl⟩

/-- The storage after an extrinsic: a panic aborts it without a trace, any other error
    keeps what was written. -/
def dispatch {σ ε α : Type} (x : Call σ (DispatchError ε) α) (s : σ) : σ :=
  match x s with
  | (.error .panic, _) => s
  | (_, s') => s'

/-- After an extrinsic that returned or failed without a panic, what its call guarantees holds. -/
theorem dispatch_of_outcome {σ ε α : Type} {x : Call σ (DispatchError ε) α} {s : σ} {I : σ → Prop}
    (hs : I s) (h : Call.Outcome (fun _ => I) (fun e t => e = .panic ∨ I t) (x s)) :
    I (dispatch x s) := by
  unfold dispatch
  split
  · exact hs
  · rename_i r t hr hx
    rw [hx] at h
    cases r with
    | ok a => exact h
    | error e => exact h.resolve_left fun he => hr (congrArg Except.error he)

/-- An extrinsic that returned leaves what its call wrote. -/
theorem dispatch_of_toOption {σ ε α : Type} {x : Call σ (DispatchError ε) α} {s : σ} {a : α}
    (h : (x s).1.toOption = some a) : x s = (.ok a, dispatch x s) := by
  have hok := Call.ok_of_toOption h
  have hdispatch : dispatch x s = (x s).2 := by
    rw [dispatch, hok]
  rw [hdispatch]
  exact hok

/-- A transactional extrinsic returned a value, or returned none and changed nothing. -/
theorem transactional_toOption {σ ε α : Type} (x : Call σ (DispatchError ε) α) (s : σ) :
    (∃ a, (Call.transactional x s).1.toOption = some a ∧
      x s = (.ok a, dispatch (Call.transactional x) s)) ∨
      ((Call.transactional x s).1.toOption = none ∧ dispatch (Call.transactional x) s = s) := by
  unfold dispatch Call.transactional
  rcases hx : x s with ⟨e | a, t⟩
  · right
    cases e <;> exact ⟨rfl, rfl⟩
  · left
    exact ⟨a, rfl, rfl⟩

/-- A transactional extrinsic returned, or changed nothing. -/
theorem dispatch_transactional {σ ε α : Type} (x : Call σ (DispatchError ε) α) (s : σ) :
    dispatch (Call.transactional x) s = s ∨
      ∃ a, x s = (.ok a, dispatch (Call.transactional x) s) := by
  rcases transactional_toOption x s with ⟨a, -, hx⟩ | ⟨-, hsame⟩
  · exact .inr ⟨a, hx⟩
  · exact .inl hsame

/-- Whether a transactional extrinsic returned tells whether it is rolled back. -/
theorem transactional_cases {σ ε α : Type} (x : Call σ (DispatchError ε) α) (s : σ) :
    ((Call.transactional x s).1.toBool = true ∧
      ∃ a, x s = (.ok a, dispatch (Call.transactional x) s)) ∨
      ((Call.transactional x s).1.toBool = false ∧ dispatch (Call.transactional x) s = s) := by
  unfold dispatch Call.transactional
  rcases hx : x s with ⟨e | a, t⟩
  · right
    cases e <;> exact ⟨rfl, rfl⟩
  · left
    exact ⟨rfl, a, rfl⟩

/-- An extrinsic returned; or it failed, leaving what it had written, or nothing if it panicked. -/
theorem dispatch_cases {σ ε α : Type} (x : Call σ (DispatchError ε) α) (s : σ) :
    (∃ a, x s = (.ok a, dispatch x s)) ∨
      (∀ a t, x s ≠ (.ok a, t)) ∧ (dispatch x s = s ∨ ∃ e, x s = (.error e, dispatch x s)) := by
  unfold dispatch
  rcases hx : x s with ⟨e | a, t⟩
  · right
    refine ⟨nofun, ?_⟩
    cases e with
    | panic => exact .inl rfl
    | _ => exact .inr ⟨_, rfl⟩
  · exact .inl ⟨a, rfl⟩

end Composable
