import Composable.Support.Ledger

/-!
# `Support.Relation` — calls on related storages

Two runs of a call on storages that look the same to it give the same answer and leave storages that
look the same again. `Call.Related R` says so of one pair of storages, for two calls that need not
be equal: what a call has read of its storage is in the text of what follows. The rules go through a
`do` block line by line; `Reads.answer_bind` does the same for a call that only reads.
-/

namespace Composable
namespace Call

variable {σ ρ ε ε' α β : Type} {R : σ → σ → Prop} {s t : σ}

/-- The calls answer the same, and leave related storages. -/
def Related (R : σ → σ → Prop) (x y : Call σ ε α) (s t : σ) : Prop :=
  (y t).1 = (x s).1 ∧ R (x s).2 (y t).2

/-- What the first call returns, the second returns. -/
theorem Related.ok {x y : Call σ ε α} {a : α} {s' : σ} (h : Related R x y s t)
    (hx : x s = (.ok a, s')) : ∃ t', y t = (.ok a, t') ∧ R s' t' := by
  obtain ⟨hanswer, hrest⟩ := h
  rw [hx] at hanswer hrest
  exact ⟨(y t).2, Prod.ext hanswer rfl, hrest⟩

theorem related_pure {a : α} (h : R s t) : Related (ε := ε) R (pure a) (pure a) s t := ⟨rfl, h⟩

theorem related_fail {e : ε} (h : R s t) : Related (α := α) R (fail e) (fail e) s t := ⟨rfl, h⟩

theorem related_ofExcept {r r' : Except ε α} (heq : r' = r) (h : R s t) :
    Related R (ofExcept r) (ofExcept r') s t := ⟨heq, h⟩

theorem related_ofOption {o o' : Option α} {e : ε} (heq : o' = o) (h : R s t) :
    Related R (ofOption o e) (ofOption o' e) s t := by
  subst heq
  cases o' with
  | none => exact related_fail h
  | some a => exact related_pure h

theorem related_ensure {c c' : Prop} [Decidable c] [Decidable c'] {e : ε} (hiff : c' ↔ c)
    (h : R s t) : Related R (ensure c e) (ensure c' e) s t := by
  unfold ensure
  by_cases hc : c
  · rw [if_pos hc, if_pos (hiff.mpr hc)]
    exact related_pure h
  · rw [if_neg hc, if_neg fun hc' => hc (hiff.mp hc')]
    exact related_fail h

theorem related_modify {f g : σ → σ} (h : R (f s) (g t)) :
    Related (ε := ε) R (modify f) (modify g) s t := ⟨rfl, h⟩

theorem related_bind {x y : Call σ ε α} {f g : α → Call σ ε β} (hfirst : Related R x y s t)
    (hrest : ∀ a s' t', R s' t' → Related R (f a) (g a) s' t') :
    Related R (x >>= f) (y >>= g) s t := by
  obtain ⟨hanswer, hafter⟩ := hfirst
  show Related R (Call.bind x f) (Call.bind y g) s t
  unfold Related Call.bind
  rcases hx : x s with
    ⟨e | a, s'⟩ <;> rcases hy : y t with ⟨e' | b, t'⟩ <;> rw [hx, hy] at hanswer hafter
  · obtain rfl := Except.error.inj hanswer
    exact ⟨rfl, hafter⟩
  · cases hanswer
  · cases hanswer
  · obtain rfl := Except.ok.inj hanswer
    exact hrest b s' t' hafter

theorem related_get {f g : σ → Call σ ε β} (h : Related R (f s) (g t) s t) :
    Related R (get >>= f) (get >>= g) s t := h

/-- Calls of a part of the storage. -/
theorem related_zoom {view : σ → ρ} {put : ρ → σ → σ} {err : ε → ε'} {Q : ρ → ρ → Prop}
    {x y : Call ρ ε α}
    (h : Related Q x y (view s) (view t)) (hput : ∀ r r', Q r r' → R (put r s) (put r' t)) :
    Related R (zoom view put err x) (zoom view put err y) s t := by
  obtain ⟨hanswer, hafter⟩ := h
  unfold Related zoom
  rcases hx : x (view s) with ⟨e | a, r⟩ <;> rcases hy : y (view t) with ⟨e' | b, r'⟩ <;>
    rw [hx, hy] at hanswer hafter
  · obtain rfl := Except.error.inj hanswer
    exact ⟨rfl, hput _ _ hafter⟩
  · cases hanswer
  · cases hanswer
  · obtain rfl := Except.ok.inj hanswer
    exact ⟨rfl, hput _ _ hafter⟩

end Call

namespace Ledger

variable {A X : Type} {a b c : A} {l l' l'' : Ledger A X} {x : X} {n : Nat}

/-- The account has the same of every asset. -/
def SameAt (a : A) (l l' : Ledger A X) : Prop :=
  ∀ x, l'.free x a = l.free x a ∧ l'.reserved x a = l.reserved x a

theorem SameAt.refl (a : A) (l : Ledger A X) : SameAt a l l := fun _ => ⟨rfl, rfl⟩

theorem SameAt.trans (h : SameAt a l l') (h' : SameAt a l' l'') : SameAt a l l'' := fun x =>
  ⟨(h' x).1.trans (h x).1, (h' x).2.trans (h x).2⟩

theorem SameAt.symm (h : SameAt a l l') : SameAt a l' l := fun x => ⟨(h x).1.symm, (h x).2.symm⟩

theorem SameAt.balance (h : SameAt a l l') (x : X) : l'.balance x a = l.balance x a := by
  rw [Ledger.balance, (h x).1, (h x).2, Ledger.balance]

variable [DecidableEq A] [DecidableEq X]

/-- The same transfer on both ledgers. -/
theorem SameAt.move (h : SameAt c l l') : SameAt c (l.move x a b n) (l'.move x a b n) := by
  intro y
  rw [free_move, free_move, (h y).1]
  exact ⟨rfl, (h y).2⟩

theorem SameAt.mint (h : SameAt c l l') : SameAt c (l.mint x a n) (l'.mint x a n) := by
  intro y
  rw [free_mint, free_mint, (h y).1]
  exact ⟨rfl, (h y).2⟩

/-- A transfer between others. -/
theorem sameAt_move (ha : c ≠ a) (hb : c ≠ b) : SameAt c l (l.move x a b n) := by
  intro y
  simp [free_move, ha, hb]

theorem sameAt_mint (ha : c ≠ a) : SameAt c l (l.mint x a n) := by
  intro y
  simp [ha]

end Ledger

namespace Currency

variable {A X : Type} {C : Currency A X} {l l' : Ledger A X}

/-- A ledger operation that is refused on both ledgers, or on none. -/
theorem related_commit {Q : Ledger A X → Ledger A X → Prop}
    {refused refused' : Ledger A X → Option TokenError}
    {effect effect' : Ledger A X → Ledger A X} (hrefused : refused' l' = refused l) (h : Q l l')
    (heffect : Q (effect l) (effect' l')) :
    Call.Related Q (commit refused effect) (commit refused' effect') l l' := by
  unfold Call.Related commit
  rw [hrefused]
  cases refused l with
  | none => exact ⟨rfl, heffect⟩
  | some e => exact ⟨rfl, h⟩

/-- Whether an operation is refused depends on the accounts that take part in it, and for new
    tokens on their issuance. -/
structure Parties (C : Currency A X) : Prop where
  transfer : ∀ {l l' : Ledger A X} {x a b n k}, Ledger.SameAt a l l' → Ledger.SameAt b l l' →
    C.transferRefused l' x a b n k = C.transferRefused l x a b n k
  mint : ∀ {l l' : Ledger A X} {x a n}, Ledger.SameAt a l l' → l'.issuance x = l.issuance x →
    C.mintRefused l' x a n = C.mintRefused l x a n
  reducible : ∀ {l l' : Ledger A X} {x a k}, Ledger.SameAt a l l' →
    C.reducible l' x a k = C.reducible l x a k

/-- Existential deposits depend on the parties only. -/
theorem existential_parties [DecidableEq A] (ed : X → Nat) :
    (existential ed : Currency A X).Parties where
  transfer := by
    intro l l' x a b n k ha hb
    show existentialTransfer ed l' x a b n k = existentialTransfer ed l x a b n k
    rw [existentialTransfer, (ha x).1, ha.balance, hb.balance, existentialTransfer]
  mint := by
    intro l l' x a n ha _
    show existentialDeposit ed l' x a n = existentialDeposit ed l x a n
    rw [existentialDeposit, ha.balance, existentialDeposit]
  reducible := by
    intro l l' x a k ha
    show (if k = true then l'.free x a - (ed x - l'.reserved x a) else l'.free x a) = _
    rw [(ha x).1, (ha x).2]
    rfl

end Currency
end Composable
