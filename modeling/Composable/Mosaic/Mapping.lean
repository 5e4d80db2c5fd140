import Composable.Mosaic.Effect

/-!
# `Mosaic.Mapping` — local and remote asset ids

`LocalToRemoteAsset` and `RemoteToLocalAsset` are meant to be two views of one table. `mapAsset`
looks at what is stored under the local id, and cleans up after it; it does not look at what is
stored under the remote id. So the two maps stay inverse to each other exactly as long as no update
takes a remote id that belongs to another asset (`mapping_iff`).
-/

namespace Composable
namespace Mosaic

variable {A X N R : Type} [DecidableEq A] [DecidableEq X] [DecidableEq N] [DecidableEq R]
variable {cfg : Config A X} {s s' : State A X N R} {op : Op A X N R}

/-- On every network a local asset has a remote id exactly when that id has the asset. -/
def Paired (s : State A X N R) : Prop :=
  ∀ x n r, s.localToRemoteAsset.get x n = some r ↔ s.remoteToLocalAsset.get r n = some x

/-- An update to a remote id finds it free, or already belonging to the same asset. -/
def TakesOwnId (cfg : Config A X) (s : State A X N R) : Op A X N R → Prop
  | .updateAssetMapping origin x n (some r) => cfg.controlOrigin origin = true →
      (s.networkInfos n).isSome = true → ∀ y, s.remoteToLocalAsset.get r n = some y → y = x
  | _ => True

/-- No other operation touches the maps. -/
theorem Effect.maps (h : Effect cfg s op s') :
    (s'.localToRemoteAsset = s.localToRemoteAsset ∧ s'.remoteToLocalAsset = s.remoteToLocalAsset) ∨
      ∃ origin x n remote, op = .updateAssetMapping origin x n remote ∧
        updateAssetMapping cfg origin x n remote s = (.ok (), s') := by
  cases h with
  | mapped h => exact .inr ⟨_, _, _, _, rfl, h⟩
  | sent h =>
      obtain ⟨_, _, -, -, rfl⟩ := transferTo_ok h
      exact .inl ⟨rfl, rfl⟩
  | accepted h =>
      obtain ⟨_, _, _, -, -, -, -, rfl⟩ := acceptTransfer_ok h
      exact .inl ⟨rfl, rfl⟩
  | returned h =>
      obtain ⟨_, _, _, -, -, -, -, rfl⟩ := claimStaleTo_ok h
      exact .inl ⟨rfl, rfl⟩
  | minted h =>
      obtain ⟨_, _, -, -, -, -, rfl⟩ := timelockedMint_ok h
      exact .inl ⟨rfl, rfl⟩
  | rescinded h =>
      obtain ⟨_, _, _, -, -, -, rfl⟩ := rescindTimelockedMint_ok h
      exact .inl ⟨rfl, rfl⟩
  | claimed h =>
      obtain ⟨_, _, _, -, -, -, -, rfl⟩ := claimTo_ok h
      exact .inl ⟨rfl, rfl⟩
  | _ => exact .inl ⟨rfl, rfl⟩

section Maps

variable {x : X} {n : N} {r : R}

omit [DecidableEq A] in
/-- Removing a mapping keeps the pairs. -/
theorem Paired.unmap (h : Paired s) : Paired (s.mapAsset x n none) := by
  unfold State.mapAsset
  cases hx : s.localToRemoteAsset.get x n with
  | none => exact h
  | some old =>
      have hold := (h x n old).mp hx
      intro y m q
      have hy := h y m q
      simp only [StorageDoubleMap.get_remove]
      grind

omit [DecidableEq A] in
/-- Mapping an asset to an id that is free or its own keeps the pairs. -/
theorem Paired.map (h : Paired s) (hfree : ∀ y, s.remoteToLocalAsset.get r n = some y → y = x) :
    Paired (s.mapAsset x n (some r)) := by
  unfold State.mapAsset
  cases hx : s.localToRemoteAsset.get x n with
  | none =>
      intro y m q
      have hy := h y m q
      have hr := h y n r
      simp only [StorageDoubleMap.get_put]
      grind
  | some old =>
      have hold := (h x n old).mp hx
      intro y m q
      have hy := h y m q
      have hr := h y n r
      simp only [StorageDoubleMap.get_put, StorageDoubleMap.get_remove]
      grind

omit [DecidableEq A] in
/-- Taking the id of another asset leaves that asset mapped to it. -/
theorem Paired.map_taken {y : X} (h : Paired s) (hy : s.remoteToLocalAsset.get r n = some y)
    (hne : y ≠ x) : ¬ Paired (s.mapAsset x n (some r)) := by
  have hlocal := (h y n r).mpr hy
  intro hpaired
  have hback := hpaired y n r
  unfold State.mapAsset at hback
  cases hx : s.localToRemoteAsset.get x n with
  | none =>
      rw [hx] at hback
      simp [StorageDoubleMap.get_put, hne, hlocal, hne.symm] at hback
  | some old =>
      rw [hx] at hback
      simp [StorageDoubleMap.get_put, hne, hlocal, hne.symm] at hback

end Maps

/-! ## Runs -/

theorem Paired.step (hs : Paired s) (hop : TakesOwnId cfg s op) (hstep : step cfg s op = some s') :
    Paired s' := by
  rcases (step_effect hstep).maps with ⟨hlocal, hremote⟩ | ⟨origin, x, n, remote, rfl, hcall⟩
  · intro x n r
    rw [hlocal, hremote]
    exact hs x n r
  · obtain ⟨horigin, hnetwork, rfl⟩ := updateAssetMapping_ok.mp hcall
    cases remote with
    | none => exact hs.unmap
    | some r => exact hs.map (hop horigin hnetwork)

/-- Taking the id of another asset breaks the pairs. -/
theorem unpaired (hs : Paired s) (hop : ¬ TakesOwnId cfg s op) :
    ∃ s', step cfg s op = some s' ∧ ¬ Paired s' := by
  cases op with
  | updateAssetMapping origin x n remote =>
      cases remote with
      | none => exact absurd trivial hop
      | some r =>
          simp only [TakesOwnId, not_forall] at hop
          obtain ⟨horigin, hnetwork, y, hy, hne⟩ := hop
          have hcall : invoke cfg (.updateAssetMapping origin x n (some r)) s = (.ok (), _) :=
            updateAssetMapping_ok.mpr ⟨horigin, hnetwork, rfl⟩
          refine ⟨_, rfl, ?_⟩
          rw [dispatch, hcall]
          exact hs.map_taken hy hne
  | _ => exact absurd trivial hop

/-- **The two maps are inverse to each other all along a run exactly when no update takes a remote
    id that belongs to another asset.** -/
theorem mapping_iff (cfg : Config A X) (ledger : Ledger A X) (ops : List (Op A X N R)) :
    Throughout (step cfg) Paired (State.genesis ledger) ops ↔
      Along (step cfg) (TakesOwnId cfg) (State.genesis ledger) ops :=
  throughout_iff_along (I := Paired) id Paired.step unpaired fun _ _ _ => ⟨nofun, nofun⟩

/-- Assets `1` and `2` are both mapped to the remote id `50` of network `9`. -/
def mappingOps : List (Op Nat Nat Nat Nat) :=
  [.setRelayer .root 4, .setNetwork (.signed 4) 9 ⟨true, 1000⟩,
    .updateAssetMapping .root 1 9 (some 50), .updateAssetMapping .root 2 9 (some 50)]

theorem mapping_not_inverse :
    ¬ ∀ (ops : List (Op Nat Nat Nat Nat)) (s : State Nat Nat Nat Nat),
      run (step sample) (State.genesis Ledger.empty) ops = some s → Paired s := by
  intro h
  have hrun : (run (step sample) (State.genesis Ledger.empty) mappingOps).map
      (fun s => (s.localToRemoteAsset.get 1 9, s.remoteToLocalAsset.get 50 9)) =
        some (some 50, some 2) := by
    decide +kernel
  obtain ⟨s, hs, hview⟩ := Option.map_eq_some_iff.mp hrun
  obtain ⟨hlocal, hremote⟩ := Prod.mk.inj hview
  have hback := (h mappingOps s hs 1 9 50).mp hlocal
  rw [hremote] at hback
  cases hback

end Mosaic
end Composable
