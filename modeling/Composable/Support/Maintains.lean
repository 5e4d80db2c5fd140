import Composable.Support.Call

/-!
# `Support.Maintains` — calls that maintain an invariant

A call maintains an invariant of the storage if it holds after the call whenever it
held before, whether the call returned or failed. The rules take a `do` block apart:
only the writes have to be looked at.
-/

namespace Composable
namespace Call

variable {σ ε α β : Type} {I : σ → Prop}

/-- The invariant holds after the call, if it held before. -/
def Maintains (I : σ → Prop) (x : Call σ ε α) : Prop :=
  ∀ s, I s → Outcome (fun _ => I) (fun _ => I) (x s)

namespace Maintains

protected theorem get : (get : Call σ ε σ).Maintains I := fun _ h => h

protected theorem fail (e : ε) : (fail e : Call σ ε α).Maintains I := fun _ h => h

protected theorem modify {f : σ → σ} (hf : ∀ s, I s → I (f s)) :
    (modify f : Call σ ε Unit).Maintains I := hf

/-- What only reads maintains everything. -/
protected theorem reads {x : Call σ ε α} (hx : x.Reads) : x.Maintains I := by
  intro s h
  rcases hcall : x s with ⟨e | a, t⟩
  · obtain rfl := hx.error hcall
    exact h
  · obtain rfl := hx.ok hcall
    exact h

protected theorem bind {x : Call σ ε α} {f : α → Call σ ε β} (hx : x.Maintains I)
    (hf : ∀ a, (f a).Maintains I) : (x >>= f).Maintains I := by
  intro s h
  exact (hx s h).bind fun a t ht => hf a t ht

/-- The storage that was read is the one that is worked on. -/
protected theorem get_bind {f : σ → Call σ ε β}
    (hf : ∀ s, I s → Outcome (fun _ => I) (fun _ => I) (f s s)) :
    ((get : Call σ ε σ) >>= f).Maintains I := hf

protected theorem ensure (c : Prop) [Decidable c] (e : ε) :
    (ensure c e : Call σ ε Unit).Maintains I :=
  .reads (.ensure c e)

protected theorem ofOption (o : Option α) (e : ε) : (ofOption o e : Call σ ε α).Maintains I :=
  .reads (.ofOption o e)

protected theorem when {c : Prop} [Decidable c] {x : Call σ ε Unit} (hx : x.Maintains I) :
    (when c x).Maintains I := by
  intro s h
  unfold when
  split
  · exact hx s h
  · exact h

protected theorem forEach {l : List β} {f : β → Call σ ε Unit} (hf : ∀ b ∈ l, (f b).Maintains I) :
    (forEach l f).Maintains I :=
  fun _ h => outcome_forEach hf h

/-- What a failed call has written is undone. -/
protected theorem transactional {x : Call σ ε α}
    (hx : ∀ s, I s → Outcome (fun _ => I) (fun _ _ => True) (x s)) :
    (transactional x).Maintains I := by
  intro s h
  rw [outcome_transactional]
  exact (hx s h).imp (fun _ _ ht => ht) fun _ _ _ => h

protected theorem orElse {ε' : Type} {x : Call σ (DispatchError ε) α}
    {y : Call σ (DispatchError ε') α} (hx : x.Maintains I)
    (hy : y.Maintains I) : (orElse x y).Maintains I :=
  fun s h => outcome_orElse (hx s h) (fun _ ht => ht) hy

protected theorem dispatch {x : Call σ (DispatchError ε) α} {s : σ} (hx : x.Maintains I) (h : I s) :
    I (dispatch x s) :=
  dispatch_of_outcome h ((hx s h).imp (fun _ _ ht => ht) fun _ _ ht => .inr ht)

end Maintains

end Call
end Composable
