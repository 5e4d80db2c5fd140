import Composable.Support.Call
import Mathlib.Data.List.Nodup
import Mathlib.Order.Basic

/-!
# `Support.Run` — runs of a partial step function

A system is a step function `step : σ → ο → Option σ` over operations `ο`; `none` means that the
operation cannot happen (a block that cannot be finalised). `run` folds it over a list of operations
and `Along` says that a condition on the operation and the state before it holds at every step.

The rules the safety proofs use are `run_invariant` (an invariant of the steps is an invariant of
the runs), `run_related` (a transitive relation between neighbours relates the two ends) and
`throughout_iff_along` (a property holds all along a run exactly when every step meets a condition),
with `end_iff_along` for a property that once lost is not found again. `history` lists what is found
in the operations of a run, and `history_collect` relates it to the state at its end. A loop of
calls that returns is a run as well (`forEach_run`), so the rules serve loops too; `run_meets` finds
one turn of a loop over distinct keys, and `Independent` turns do what they would do alone.
-/

namespace Composable

variable {σ ο : Type} {step : σ → ο → Option σ}

/-- Run the operations in order. -/
def run (step : σ → ο → Option σ) : σ → List ο → Option σ
  | s, [] => some s
  | s, o :: os => (step s o).bind fun s' => run step s' os

/-- `C` holds of every operation of the run in the state it starts from. -/
def Along (step : σ → ο → Option σ) (C : σ → ο → Prop) : σ → List ο → Prop
  | _, [] => True
  | s, o :: os => C s o ∧ ∀ s', s' ∈ step s o → Along step C s' os

instance Along.decidable (step : σ → ο → Option σ) (C : σ → ο → Prop) [∀ s o, Decidable (C s o)] :
    (s : σ) → (os : List ο) → Decidable (Along step C s os)
  | _, [] => .isTrue trivial
  | s, o :: os =>
      match h : step s o with
      | none =>
          decidable_of_iff (C s o) ⟨fun hc => ⟨hc, fun s' hs' => by simp [h] at hs'⟩, fun hc => hc.1⟩
      | some t =>
          have := Along.decidable step C t os
          decidable_of_iff (C s o ∧ Along step C t os)
            ⟨fun hc => ⟨hc.1, fun s' hs' => by
              rw [h, Option.mem_some_iff] at hs'
              exact hs' ▸ hc.2⟩, fun hc => ⟨hc.1, hc.2 t (by simp [h])⟩⟩

/-- `P` holds in every state of the run. -/
def Throughout (step : σ → ο → Option σ) (P : σ → Prop) : σ → List ο → Prop
  | s, [] => P s
  | s, o :: os => P s ∧ ∀ s', s' ∈ step s o → Throughout step P s' os

instance Throughout.decidable (step : σ → ο → Option σ) (P : σ → Prop) [∀ s, Decidable (P s)] :
    (s : σ) → (os : List ο) → Decidable (Throughout step P s os)
  | s, [] => inferInstanceAs (Decidable (P s))
  | s, o :: os =>
      match h : step s o with
      | none =>
          decidable_of_iff (P s) ⟨fun hP => ⟨hP, fun s' hs' => by simp [h] at hs'⟩, fun hP => hP.1⟩
      | some t =>
          have := Throughout.decidable step P t os
          decidable_of_iff (P s ∧ Throughout step P t os)
            ⟨fun hP => ⟨hP.1, fun s' hs' => by
              rw [h, Option.mem_some_iff] at hs'
              exact hs' ▸ hP.2⟩, fun hP => ⟨hP.1, hP.2 t (by simp [h])⟩⟩

theorem Throughout.head {P : σ → Prop} {s : σ} {os : List ο} (h : Throughout step P s os) : P s := by
  cases os with
  | nil => exact h
  | cons o os => exact h.1

theorem Throughout.imp {P Q : σ → Prop} (hPQ : ∀ s, P s → Q s) {s : σ} {os : List ο}
    (h : Throughout step P s os) : Throughout step Q s os := by
  induction os generalizing s with
  | nil => exact hPQ s h
  | cons o os ih => exact ⟨hPQ s h.1, fun s' hs' => ih (h.2 s' hs')⟩

@[simp] theorem run_nil (s : σ) : run step s [] = some s := rfl

theorem run_cons {s s' : σ} {o : ο} {os : List ο} :
    run step s (o :: os) = some s' ↔ ∃ t, step s o = some t ∧ run step t os = some s' := by
  simp [run, Option.bind_eq_some_iff]

theorem run_append {s s' : σ} {os os' : List ο} :
    run step s (os ++ os') = some s' ↔ ∃ t, run step s os = some t ∧ run step t os' = some s' := by
  induction os generalizing s with
  | nil => simp
  | cons o os ih =>
      rw [List.cons_append]
      simp only [run_cons, ih]
      constructor
      · rintro ⟨t, ht, t', ht', hrest⟩
        exact ⟨t', ⟨t, ht, ht'⟩, hrest⟩
      · rintro ⟨t', ⟨t, ht, ht'⟩, hrest⟩
        exact ⟨t, ht, t', ht', hrest⟩

/-- **Meeting rule.** A run over distinct operations comes to each of them once,
    between runs of others. -/
theorem run_meets {s s' : σ} {o : ο} {os : List ο} (hnodup : os.Nodup) (hmem : o ∈ os)
    (h : run step s os = some s') :
    ∃ before after t t', run step s before = some t ∧ step t o = some t' ∧
      run step t' after = some s' ∧
      (∀ o' ∈ before, o' ∈ os ∧ o' ≠ o) ∧ ∀ o' ∈ after, o' ∈ os ∧ o' ≠ o := by
  obtain ⟨before, after, rfl⟩ := List.append_of_mem hmem
  obtain ⟨t, hbefore, hrest⟩ := run_append.mp h
  obtain ⟨t', ho, hafter⟩ := run_cons.mp hrest
  have hnot := (List.nodup_middle.mp hnodup).notMem
  refine ⟨before, after, t, t', hbefore, ho, hafter, fun o' ho' => ⟨by simp [ho'], ?_⟩,
    fun o' ho' => ⟨by simp [ho'], ?_⟩⟩
  · rintro rfl
    exact hnot (List.mem_append_left _ ho')
  · rintro rfl
    exact hnot (List.mem_append_right _ ho')

/-- A run of a total step is a fold. -/
theorem run_total (f : σ → ο → σ) (s : σ) (os : List ο) :
    run (fun s o => some (f s o)) s os = some (os.foldl f s) := by
  induction os generalizing s with
  | nil => rfl
  | cons o os ih => exact ih (f s o)

theorem along_true (s : σ) (os : List ο) : Along step (fun _ _ => True) s os := by
  induction os generalizing s with
  | nil => trivial
  | cons o os ih => exact ⟨trivial, fun s' _ => ih s'⟩

/-- Conditions that say the same of every step. -/
theorem along_congr {C D : σ → ο → Prop} (h : ∀ s o, C s o ↔ D s o) {s : σ} {os : List ο} :
    Along step C s os ↔ Along step D s os := by
  induction os generalizing s with
  | nil => exact Iff.rfl
  | cons o os ih => exact and_congr (h s o) (forall_congr' fun t => imp_congr_right fun _ => ih)

theorem along_append {C : σ → ο → Prop} {s : σ} {os os' : List ο} :
    Along step C s (os ++ os') ↔ Along step C s os ∧ ∀ t, run step s os = some t →
      Along step C t os' := by
  induction os generalizing s with
  | nil => simp [Along]
  | cons o os ih =>
      rw [List.cons_append]
      simp only [Along, run_cons, ih]
      constructor
      · rintro ⟨hC, hrest⟩
        refine ⟨⟨hC, fun t ht => (hrest t ht).1⟩, ?_⟩
        rintro t ⟨u, hu, ht⟩
        exact (hrest u hu).2 t ht
      · rintro ⟨⟨hC, hos⟩, hrest⟩
        exact ⟨hC, fun u hu => ⟨hos u hu, fun t ht => hrest t ⟨u, hu, ht⟩⟩⟩

/-- A condition on the operations alone can be added to one along the run. -/
theorem Along.and_forall {C : σ → ο → Prop} {P : ο → Prop} {s : σ} {os : List ο}
    (h : Along step C s os) (hP : ∀ o ∈ os, P o) : Along step (fun s o => P o ∧ C s o) s os := by
  induction os generalizing s with
  | nil => trivial
  | cons o os ih =>
      refine ⟨⟨hP o List.mem_cons_self, h.1⟩, fun s' hs' => ?_⟩
      exact ih (h.2 s' hs') fun o' ho' => hP o' (List.mem_cons_of_mem o ho')

theorem Along.and {C D : σ → ο → Prop} {s : σ} {os : List ο} (hC : Along step C s os)
    (hD : Along step D s os) : Along step (fun s o => C s o ∧ D s o) s os := by
  induction os generalizing s with
  | nil => trivial
  | cons o os ih => exact ⟨⟨hC.1, hD.1⟩, fun s' hs' => ih (hC.2 s' hs') (hD.2 s' hs')⟩

/-- What holds throughout a run holds at its end. -/
theorem Throughout.of_run {P : σ → Prop} {s s' : σ} {os : List ο} (h : Throughout step P s os)
    (hrun : run step s os = some s') : P s' := by
  induction os generalizing s with
  | nil => exact Option.some.inj hrun ▸ h
  | cons o os ih =>
      obtain ⟨t, ht, hrun'⟩ := run_cons.mp hrun
      exact ih (h.2 t ht) hrun'

/-- What holds throughout a run holds after each of its steps. -/
theorem Throughout.along {P : σ → Prop} {s : σ} {os : List ο} (h : Throughout step P s os) :
    Along step (fun s o => ∀ s', step s o = some s' → P s') s os := by
  induction os generalizing s with
  | nil => trivial
  | cons o os ih => exact ⟨fun s' hs' => (h.2 s' hs').head, fun s' hs' => ih (h.2 s' hs')⟩

/-- **Invariant rule.** What every step meeting `C` preserves holds at the end of every run whose
    steps all meet it. -/
theorem run_invariant {C : σ → ο → Prop} {I : σ → Prop}
    (hstep : ∀ {s o s'}, I s → C s o → step s o = some s' → I s') :
    ∀ {s : σ} {os : List ο} {s' : σ}, I s → Along step C s os → run step s os = some s' → I s' := by
  intro s os
  induction os generalizing s with
  | nil =>
      intro s' hI _ hrun
      exact Option.some.inj hrun ▸ hI
  | cons o os ih =>
      intro s' hI hC hrun
      obtain ⟨t, ht, hrun'⟩ := run_cons.mp hrun
      exact ih (hstep hI hC.1 ht) (hC.2 t ht) hrun'

/-- What holds of every step meeting `C` from an invariant state holds along the run. -/
theorem along_of_invariant {C D : σ → ο → Prop} {I : σ → Prop}
    (hinv : ∀ {s o s'}, I s → C s o → step s o = some s' → I s') (hD : ∀ {s o}, I s → C s o → D s o) :
    ∀ {s : σ} {os : List ο}, I s → Along step C s os → Along step D s os := by
  intro s os
  induction os generalizing s with
  | nil => exact fun _ _ => trivial
  | cons o os ih =>
      intro hI hC
      exact ⟨hD hI hC.1, fun t ht => ih (hinv hI hC.1 ht) (hC.2 t ht)⟩

/-- Two conditions that the steps from invariant states meet alike are met along the same runs. -/
theorem along_iff_of_run {C D E : σ → ο → Prop} {I : σ → Prop}
    (hinv : ∀ {s o s'}, I s → C s o → step s o = some s' → I s')
    (hiff : ∀ {s o s'}, I s → C s o → step s o = some s' → (D s o ↔ E s o)) :
    ∀ {s : σ} {os : List ο} {s' : σ}, I s → Along step C s os → run step s os = some s' →
      (Along step D s os ↔ Along step E s os) := by
  intro s os
  induction os generalizing s with
  | nil =>
      intro s' _ _ _
      exact Iff.rfl
  | cons o os ih =>
      intro s' hI hC hrun
      obtain ⟨t, ht, hrun'⟩ := run_cons.mp hrun
      refine and_congr (hiff hI hC.1 ht) (forall_congr' fun u => imp_congr_right fun hu => ?_)
      obtain rfl : t = u := Option.some.inj (ht.symm.trans hu)
      exact ih (hinv hI hC.1 ht) (hC.2 t ht) hrun'

/-- An invariant of the steps meeting `C` holds throughout a run whose steps all meet it. -/
theorem throughout_of_invariant {C : σ → ο → Prop} {I P : σ → Prop}
    (hinv : ∀ {s o s'}, I s → C s o → step s o = some s' → I s') (hP : ∀ {s}, I s → P s) :
    ∀ {s : σ} {os : List ο}, I s → Along step C s os → Throughout step P s os := by
  intro s os
  induction os generalizing s with
  | nil => exact fun hI _ => hP hI
  | cons o os ih =>
      intro hI hC
      exact ⟨hP hI, fun t ht => ih (hinv hI hC.1 ht) (hC.2 t ht)⟩

/-- **Relation rule.** A reflexive and transitive relation that every step from an `I`-state
    respects relates the two ends of a run. -/
theorem run_related {C : σ → ο → Prop} {I : σ → Prop} {R : σ → σ → Prop}
    (hrefl : ∀ s, R s s) (htrans : ∀ {s t u}, R s t → R t u → R s u)
    (hstep : ∀ {s o s'}, I s → C s o → step s o = some s' → I s' ∧ R s s') :
    ∀ {s : σ} {os : List ο} {s' : σ}, I s → Along step C s os → run step s os = some s' → R s s' := by
  intro s os
  induction os generalizing s with
  | nil =>
      intro s' _ _ hrun
      exact Option.some.inj hrun ▸ hrefl s
  | cons o os ih =>
      intro s' hI hC hrun
      obtain ⟨t, ht, hrun'⟩ := run_cons.mp hrun
      obtain ⟨hIt, hR⟩ := hstep hI hC.1 ht
      exact htrans hR (ih hIt (hC.2 t ht) hrun')

/-- **Meeting rule, with a relation.** When a relation holds around every operation but `o`, it
    relates the ends of a run over distinct operations to the states around `o`. -/
theorem run_meets_related {I : σ → Prop} {R : σ → σ → Prop} {s s' : σ} {o : ο} {os : List ο}
    (hrefl : ∀ s, R s s) (htrans : ∀ {s t u}, R s t → R t u → R s u)
    (hkeeps : ∀ {s o s'}, I s → step s o = some s' → I s')
    (hother : ∀ {s o' s'}, I s → o' ∈ os → o' ≠ o → step s o' = some s' → R s s')
    (hnodup : os.Nodup) (hmem : o ∈ os) (hI : I s) (h : run step s os = some s') :
    ∃ t t', I t ∧ R s t ∧ step t o = some t' ∧ R t' s' := by
  obtain ⟨before, after, t, t', hbefore, ho, hafter, hothers, hlater⟩ := run_meets hnodup hmem h
  have hstep : ∀ {s o' s'}, I s → ((o' ∈ os ∧ o' ≠ o) ∧ True) → step s o' = some s' → I s' ∧
      R s s' := by
    intro s o' s' hI hC hturn
    exact ⟨hkeeps hI hturn, hother hI hC.1.1 hC.1.2 hturn⟩
  have hbefore' : Along step _ s before := Along.and_forall (along_true s before) hothers
  have hafter' : Along step _ t' after := Along.and_forall (along_true t' after) hlater
  have ht : I t := run_invariant (fun hI hC hturn => (hstep hI hC hturn).1) hI hbefore' hbefore
  refine ⟨t, t', ht, ?_, ho, ?_⟩
  · exact run_related hrefl htrans hstep hI hbefore' hbefore
  · exact run_related hrefl htrans hstep (hkeeps ht ho) hafter' hafter

/-- **Exact condition rule, for some runs.** Along the runs whose steps meet `D`: in an invariant
    state whose successors satisfy `P` exactly when the step meets `C`, a run satisfies `P`
    throughout exactly when all its steps meet `C`. -/
theorem throughout_iff_along_of {C D : σ → ο → Prop} {I P : σ → Prop} (hP : ∀ {s}, I s → P s)
    (hstep : ∀ {s o s'}, I s → D s o → C s o → step s o = some s' → I s')
    (hfail : ∀ {s o}, I s → D s o → ¬ C s o → ∃ s', step s o = some s' ∧ ¬ P s') :
    ∀ {s : σ} {os : List ο}, I s → Along step D s os →
      (Throughout step P s os ↔ Along step C s os) := by
  intro s os
  induction os generalizing s with
  | nil =>
      intro hI _
      exact iff_of_true (hP hI) trivial
  | cons o os ih =>
      intro hI hD
      constructor
      · rintro ⟨_, hrest⟩
        have hC : C s o := by
          by_contra hC
          obtain ⟨s', hs', hP'⟩ := hfail hI hD.1 hC
          exact hP' (hrest s' hs').head
        exact ⟨hC, fun s' hs' => (ih (hstep hI hD.1 hC hs') (hD.2 s' hs')).mp (hrest s' hs')⟩
      · rintro ⟨hC, hrest⟩
        exact ⟨hP hI, fun s' hs' => (ih (hstep hI hD.1 hC hs') (hD.2 s' hs')).mpr (hrest s' hs')⟩

/-- **Exact condition rule.** In an invariant state whose successors satisfy `P` exactly when the
    step meets `C`, a run satisfies `P` throughout exactly when all its steps meet `C`. -/
theorem throughout_iff_along {C : σ → ο → Prop} {I P : σ → Prop} (hP : ∀ {s}, I s → P s)
    (hstep : ∀ {s o s'}, I s → C s o → step s o = some s' → I s')
    (hfail : ∀ {s o}, I s → ¬ C s o → ∃ s', step s o = some s' ∧ ¬ P s') {s : σ} {os : List ο}
    (hI : I s) : Throughout step P s os ↔ Along step C s os :=
  throughout_iff_along_of hP (fun hI _ => hstep hI) (fun hI _ => hfail hI) hI (along_true s os)

/-- In invariant states one property may be replaced by another. -/
theorem throughout_congr {I P Q : σ → Prop} (hI : ∀ {s o s'}, I s → step s o = some s' → I s')
    (h : ∀ {s}, I s → (P s ↔ Q s)) :
    ∀ {s : σ} {os : List ο}, I s → (Throughout step P s os ↔ Throughout step Q s os) := by
  intro s os
  induction os generalizing s with
  | nil =>
      intro hs
      exact h hs
  | cons o os ih =>
      intro hs
      refine and_congr (h hs) (forall_congr' fun s' => forall_congr' fun hs' => ?_)
      exact ih (hI hs hs')

/-- **Exact end rule.** When `P` is kept by the steps that meet `C`, lost by the others and never
    found again, a run from a `P`-state ends in one exactly when all its steps meet `C`. -/
theorem end_iff_along {C : σ → ο → Prop} {P : σ → Prop}
    (hkeeps : ∀ {s o s'}, P s → C s o → step s o = some s' → P s')
    (hloses : ∀ {s o s'}, P s → ¬ C s o → step s o = some s' → ¬ P s')
    (hlost : ∀ {s o s'}, ¬ P s → step s o = some s' → ¬ P s') :
    ∀ {s : σ} {os : List ο} {s' : σ}, P s → run step s os = some s' → (P s' ↔ Along step C s os) := by
  intro s os
  induction os generalizing s with
  | nil =>
      intro s' hP hrun
      exact iff_of_true (Option.some.inj hrun ▸ hP) trivial
  | cons o os ih =>
      intro s' hP hrun
      obtain ⟨t, ht, hrun'⟩ := run_cons.mp hrun
      by_cases hC : C s o
      · rw [ih (hkeeps hP hC ht) hrun']
        exact ⟨fun hrest => ⟨hC, fun t' ht' => Option.some.inj (ht.symm.trans ht') ▸ hrest⟩,
          fun h => h.2 t ht⟩
      · refine iff_of_false (fun hP' => ?_) fun h => hC h.1
        refine run_invariant (C := fun _ _ => True) (I := fun t => ¬ P t)
          (fun hnot _ hstep => hlost hnot hstep)
          (hloses hP hC ht) (along_true _ _) hrun' hP'

/-- What is kept beside the state does not matter to a condition on the state. -/
theorem along_recorded {δ : Type} {C : σ → ο → Prop} {record : σ → δ → ο → δ} {s : σ} {d : δ}
    {os : List ο} :
    Along (fun (t : σ × δ) o => (step t.1 o).map fun s' => (s', record t.1 t.2 o))
      (fun t o => C t.1 o) (s, d) os ↔
      Along step C s os := by
  induction os generalizing s d with
  | nil => exact Iff.rfl
  | cons o os ih =>
      refine and_congr Iff.rfl ⟨fun h s' hs' => ?_, fun h t ht => ?_⟩
      · exact ih.mp (h (s', record s d o) (Option.map_eq_some_iff.mpr ⟨s', hs', rfl⟩))
      · obtain ⟨s', hs', rfl⟩ := Option.map_eq_some_iff.mp ht
        exact ih.mpr (h s' hs')

/-! ## Histories -/

/-- What `f` finds in the operations of a run, in order. -/
def history {β : Type} (step : σ → ο → Option σ) (f : σ → ο → Option β) : σ → List ο → List β
  | _, [] => []
  | s, o :: os => (f s o).toList ++ (step s o).elim [] fun s' => history step f s' os

/-- What holds of all that is found in invariant states holds all along the history. -/
theorem history_invariant {β : Type} {f : σ → ο → Option β} {C : σ → ο → Prop} {I : σ → Prop}
    {P : β → Prop}
    (hinv : ∀ {s o s'}, I s → C s o → step s o = some s' → I s')
    (hP : ∀ {s o b}, I s → C s o → f s o = some b → P b) :
    ∀ {s : σ} {os : List ο}, I s → Along step C s os → ∀ b ∈ history step f s os, P b := by
  intro s os
  induction os generalizing s with
  | nil => exact fun _ _ _ hb => absurd hb List.not_mem_nil
  | cons o os ih =>
      intro hI hC b hb
      rcases List.mem_append.mp hb with hfirst | hrest
      · exact hP hI hC.1 (Option.mem_toList.mp hfirst)
      · cases hs : step s o with
        | none =>
            rw [hs] at hrest
            exact absurd hrest List.not_mem_nil
        | some t =>
            rw [hs] at hrest
            exact ih (hinv hI hC.1 hs) (hC.2 t hs) b hrest

/-- **Collecting rule.** What a step keeps of the state and of what was found so far, a run
    keeps. -/
theorem history_collect {β : Type} {f : σ → ο → Option β} {C : σ → ο → Prop} {J : σ → List β → Prop}
    (hstep : ∀ {s o s' found}, J s found → C s o → step s o = some s' →
      J s' (found ++ (f s o).toList)) :
    ∀ {s : σ} {os : List ο} {s' : σ} {found : List β}, J s found → Along step C s os →
      run step s os = some s' →
      J s' (found ++ history step f s os) := by
  intro s os
  induction os generalizing s with
  | nil =>
      intro s' found hJ _ hrun
      rw [history, List.append_nil, ← Option.some.inj hrun]
      exact hJ
  | cons o os ih =>
      intro s' found hJ hC hrun
      obtain ⟨t, ht, hrun'⟩ := run_cons.mp hrun
      rw [history, ht, Option.elim_some, ← List.append_assoc]
      exact ih (hstep hJ hC.1 ht) (hC.2 t ht) hrun'

/-! ## Steps that do not interfere -/

/-- Every operation acts on a part of its own: `R o` relates the states that `o` does not tell
    apart, other operations stay within it, and on related states `o` goes through alike. `P` are
    the operations, and `I` the states, that this is about. -/
structure Independent (step : σ → ο → Option σ) (I : σ → Prop) (P : ο → Prop)
    (R : ο → σ → σ → Prop) : Prop where
  equiv : ∀ o, Equivalence (R o)
  keeps : ∀ {s o s'}, I s → step s o = some s' → I s'
  frame : ∀ {s o s' o'}, I s → P o' → o ≠ o' → step s o = some s' → R o' s s'
  congr : ∀ {s t o s'}, I s → P o → R o s t → step s o = some s' →
    ∃ t', step t o = some t' ∧ R o s' t'

namespace Independent

variable {I : σ → Prop} {P : ο → Prop} {R : ο → σ → σ → Prop} {s s' : σ} {o : ο} {os : List ο}

/-- Operations that go through alone go through one after the other. -/
theorem run_of_alone (h : Independent step I P R) (hP : ∀ o ∈ os, P o) (hnodup : os.Nodup) (hI : I s)
    (halone : ∀ o ∈ os, ∃ t, step s o = some t) : ∃ s', run step s os = some s' := by
  induction os generalizing s with
  | nil => exact ⟨s, rfl⟩
  | cons o os ih =>
      obtain ⟨hnew, hnodup'⟩ := List.nodup_cons.mp hnodup
      obtain ⟨t, ht⟩ := halone o List.mem_cons_self
      have hrest : ∀ o' ∈ os, ∃ u, step t o' = some u := by
        intro o' ho'
        have hP' : P o' := hP o' (List.mem_cons_of_mem o ho')
        have hne : o ≠ o' := fun heq => hnew (heq ▸ ho')
        have hsame : R o' s t := h.frame hI hP' hne ht
        obtain ⟨u, hu⟩ := halone o' (List.mem_cons_of_mem o ho')
        obtain ⟨u', hu', -⟩ := h.congr hI hP' hsame hu
        exact ⟨u', hu'⟩
      obtain ⟨s', hs'⟩ :=
        ih (fun o' ho' => hP o' (List.mem_cons_of_mem o ho')) hnodup' (h.keeps hI ht) hrest
      exact ⟨s', run_cons.mpr ⟨t, ht, hs'⟩⟩

/-- **Independence rule.** In a run over distinct operations each of them goes through as it would
    alone, and leaves its part as it would. -/
theorem alone_of_run (h : Independent step I P R) (hP : ∀ o ∈ os, P o) (hnodup : os.Nodup) (hI : I s)
    (hrun : run step s os = some s') (ho : o ∈ os) : ∃ t, step s o = some t ∧ R o t s' := by
  obtain ⟨t, t', ht, hsame, hturn, hend⟩ :=
    run_meets_related (h.equiv o).refl (h.equiv o).trans h.keeps
    (fun hI _ hne hstep => h.frame hI (hP o ho) hne hstep) hnodup ho hI hrun
  obtain ⟨u, hu, hu'⟩ := h.congr ht (hP o ho) ((h.equiv o).symm hsame) hturn
  exact ⟨u, hu, (h.equiv o).trans ((h.equiv o).symm hu') hend⟩

end Independent

/-- **A loop is a run** of its body. -/
theorem forEach_run {ε : Type} {l : List ο} {f : ο → Call σ ε Unit} {s s' : σ} {u : Unit} :
    Call.forEach l f s = (.ok u, s') ↔ run (fun s o => Call.success (f o) s) s l = some s' := by
  induction l generalizing s with
  | nil =>
      rw [run_nil, Option.some.injEq, eq_comm (a := s)]
      exact ⟨fun h => (Call.pure_ok.mp h).2, fun h => Call.pure_ok.mpr ⟨rfl, h⟩⟩
  | cons o l ih =>
      show (f o >>= fun _ => Call.forEach l f) s = _ ↔ _
      simp only [Call.bind_ok, run_cons, Call.success_eq_some, ih]
      constructor
      · rintro ⟨a, t, ho, hl⟩
        exact ⟨t, ⟨a, ho⟩, hl⟩
      · rintro ⟨t, ⟨a, ho⟩, hl⟩
        exact ⟨a, t, ho, hl⟩

end Composable
