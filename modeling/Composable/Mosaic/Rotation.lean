import Composable.Mosaic.Effect
import Composable.Support.Schedule

/-!
# `Mosaic.Rotation` — who the relayer is

The stored configuration is brought up to date when it is used, and written back only by a
rotation. The changes that the calls asked for say, in every block, who the relayer should
be (`holder`); `Tracked` relates the two, and `rotation_exact` says that exactly this
account passes `ensure_relayer`.

A rotation takes effect `ttl` blocks after the call, but no later than in the last block there is
(`Config.effective`).
-/

namespace Composable
namespace Mosaic

variable {A X N R : Type} [DecidableEq A] [DecidableEq X] [DecidableEq N] [DecidableEq R]
variable {cfg : Config A X} {s s' : State A X N R} {op : Op A X N R} {changes : List (Change A)}

/-- The block in which a rotation takes effect: `current_block.saturating_add(ttl)`. -/
def Config.effective (cfg : Config A X) (block ttl : Nat) : Nat := min (block + ttl) cfg.maxBlock

/-- What an operation that returns changes about the relayer. -/
def relayerChange (cfg : Config A X) (s : State A X N R) (op : Op A X N R) : Option (Change A) :=
  match op with
  | .setRelayer _ relayer => if Returns cfg s op then some (.set relayer) else none
  | .rotateRelayer _ new ttl => if Returns cfg s op then some (.schedule s.block ttl new) else none
  | _ => none

/-- The account passes `ensure_relayer`. -/
def Passes (a : A) (s : State A X N R) : Prop := (ensureRelayer (.signed a) s).1.toBool = true

instance (a : A) (s : State A X N R) : Decidable (Passes a s) :=
  inferInstanceAs (Decidable (_ = true))

/-- The account that the stored configuration stands for in block `n`. -/
def State.relayerAt (s : State A X N R) (n : Nat) : Option A :=
  s.relayer.map fun stale => (stale.update n).current

/-! ## The calls -/

omit [DecidableEq X] [DecidableEq N] [DecidableEq R] in
theorem ensureRelayer_ok {origin : RawOrigin A} {relayer : RelayerConfig A} {block : Nat} :
    ensureRelayer origin s = (.ok (relayer, block), s') ↔ ∃ acc stale, origin = .signed acc ∧
      s.relayer = some stale ∧ (stale.update s.block).current = acc ∧ relayer = stale.update s.block ∧
      block = s.block ∧ s' = s := by
  simp only [ensureRelayer, Call.bind_ok, ensureSigned_ok, Call.get_bind, Call.ofOption_ok,
    Call.ensure_ok, Call.pure_ok, Prod.mk.injEq]
  constructor
  · rintro ⟨acc, _, ⟨rfl, rfl⟩, stale, _, ⟨hstale, rfl⟩, _, _, ⟨hcurrent, rfl⟩, ⟨rfl, rfl⟩, rfl⟩
    exact ⟨acc, stale, rfl, hstale, hcurrent, rfl, rfl, rfl⟩
  · rintro ⟨acc, stale, rfl, hstale, hcurrent, rfl, rfl, rfl⟩
    exact ⟨acc, _, ⟨rfl, rfl⟩, stale, _, ⟨hstale, rfl⟩, (), _, ⟨hcurrent, rfl⟩, ⟨rfl, rfl⟩, rfl⟩

omit [DecidableEq X] [DecidableEq N] [DecidableEq R] in
/-- The one account that passes is the one the configuration stands for. -/
theorem passes_iff {a : A} : Passes a s ↔ s.relayerAt s.block = some a := by
  have hok : Passes a s ↔ ∃ r t, ensureRelayer (.signed a) s = (.ok r, t) := by
    unfold Passes
    rcases ensureRelayer (.signed a) s with ⟨e | r, t⟩
    · simp [Except.toBool]
    · simp [Except.toBool]
  rw [hok, State.relayerAt, Option.map_eq_some_iff]
  constructor
  · rintro ⟨⟨relayer, block⟩, t, h⟩
    obtain ⟨acc, stale, hacc, hstale, hcurrent, -⟩ := ensureRelayer_ok.mp h
    obtain rfl := RawOrigin.signed.inj hacc
    exact ⟨stale, hstale, hcurrent⟩
  · rintro ⟨stale, hstale, hcurrent⟩
    exact ⟨_, _, ensureRelayer_ok.mpr ⟨a, stale, rfl, hstale, hcurrent, rfl, rfl, rfl⟩⟩

omit [DecidableEq X] [DecidableEq N] [DecidableEq R] in
theorem rotateRelayer_ok {origin : RawOrigin A} {new : A} {ttl : Nat} {u : Unit}
    (h : rotateRelayer cfg origin new ttl s = (.ok u, s')) : cfg.minimumTTL < ttl ∧ ∃ stale,
      s.relayer = some stale ∧
      s' = { s with
        relayer := some ((stale.update s.block).rotate new (cfg.effective s.block ttl)) } := by
  simp only [rotateRelayer, Call.bind_ok, Call.ensure_ok, Call.modify_ok] at h
  obtain ⟨_, _, ⟨hlong, rfl⟩, ⟨relayer, block⟩, _, hrelayer, rfl⟩ := h
  obtain ⟨acc, stale, -, hstale, -, rfl, rfl, rfl⟩ := ensureRelayer_ok.mp hrelayer
  exact ⟨hlong, stale, hstale, rfl⟩

/-! ## The record follows the changes -/

/-- From the current block on the configuration stands for the holder, and every
    rotation was announced in time. -/
structure Tracked (cfg : Config A X) (s : State A X N R) (changes : List (Change A)) : Prop where
  relayer : ∀ n, s.block ≤ n → s.relayerAt n = holder cfg.effective n changes
  long : ∀ {block ttl account}, .schedule block ttl account ∈ changes → cfg.minimumTTL < ttl

omit [DecidableEq A] [DecidableEq X] [DecidableEq N] [DecidableEq R] in
theorem Tracked.genesis (ledger : Ledger A X) :
    Tracked cfg (State.genesis ledger : State A X N R) [] :=
  ⟨fun _ _ => rfl, nofun⟩

omit [DecidableEq A] [DecidableEq X] [DecidableEq N] [DecidableEq R] in
/-- The new relayer is the relayer. -/
theorem Tracked.set (h : Tracked cfg s changes) (a : A) :
    Tracked cfg { s with relayer := some (.new a) } (changes ++ [.set a]) where
  relayer := by
    intro n _
    rw [holder_set]
    rfl
  long := by
    intro block ttl account hmem
    simp only [List.mem_append, List.mem_singleton, reduceCtorEq, or_false] at hmem
    exact h.long hmem

omit [DecidableEq A] [DecidableEq X] [DecidableEq N] [DecidableEq R] in
/-- A rotation brings the configuration up to date and schedules the new account. -/
theorem Tracked.rotate (h : Tracked cfg s changes) {stale : RelayerConfig A}
    (hstale : s.relayer = some stale) {ttl : Nat} (hlong : cfg.minimumTTL < ttl) (new : A) :
    Tracked cfg { s with
      relayer := some ((stale.update s.block).rotate new (cfg.effective s.block ttl)) }
      (changes ++ [.schedule s.block ttl new]) where
  relayer := by
    intro n hn
    have hcurrent : holder cfg.effective s.block changes = some (stale.update s.block).current := by
      rw [← h.relayer s.block (Nat.le_refl _), State.relayerAt, hstale]
      rfl
    rw [holder_schedule hn, hcurrent]
    simp only [State.relayerAt, RelayerConfig.rotate, RelayerConfig.update, RelayerConfig.rejig,
      Option.map_some]
    split <;> rfl
  long := by
    intro block ttl' account hmem
    rcases List.mem_append.mp hmem with hold | hnew
    · exact h.long hold
    · cases List.mem_singleton.mp hnew
      exact hlong

omit [DecidableEq A] [DecidableEq X] [DecidableEq N] [DecidableEq R] in
/-- While nobody touches the relayer, time passes. -/
theorem Tracked.of_same (h : Tracked cfg s changes) (hrelayer : s'.relayer = s.relayer)
    (hblock : s.block ≤ s'.block) : Tracked cfg s' changes where
  relayer := by
    intro n hn
    rw [State.relayerAt, hrelayer]
    exact h.relayer n (hblock.trans hn)
  long := h.long

/-- **The record follows every step.** -/
theorem Tracked.step (h : Tracked cfg s changes) (hstep : step cfg s op = some s') :
    Tracked cfg s' (changes ++ (relayerChange cfg s op).toList) := by
  have hblock : s.block ≤ s'.block := by
    have hpass := step_block hstep
    omega
  rcases step_cases hstep with hok | ⟨hfail, hsame⟩
  · have hreturns : Returns cfg s op := returns_iff.mpr ⟨s', hok⟩
    cases op with
    | setRelayer origin relayer =>
        simp only [relayerChange, if_pos hreturns, Option.toList_some]
        simp only [invoke, setRelayer, ensureControl, Call.bind_ok, Call.ensure_ok,
          Call.modify_ok] at hok
        obtain ⟨_, _, ⟨-, rfl⟩, rfl⟩ := hok
        exact h.set relayer
    | rotateRelayer origin new ttl =>
        simp only [relayerChange, if_pos hreturns, Option.toList_some]
        obtain ⟨hlong, stale, hstale, rfl⟩ := rotateRelayer_ok hok
        exact h.rotate hstale hlong new
    | setNetwork origin networkId info =>
        simp only [invoke, setNetwork, Call.bind_ok, Call.modify_ok] at hok
        obtain ⟨_, _, hrelayer, rfl⟩ := hok
        obtain rfl := ensureRelayer_reads.ok hrelayer
        show Tracked cfg _ (changes ++ [])
        rw [List.append_nil]
        exact h.of_same rfl hblock
    | setTimelockDuration origin period =>
        simp only [invoke, setTimelockDuration, ensureControl, Call.bind_ok, Call.ensure_ok,
          Call.modify_ok] at hok
        obtain ⟨_, _, ⟨-, rfl⟩, _, _, ⟨-, rfl⟩, rfl⟩ := hok
        show Tracked cfg _ (changes ++ [])
        rw [List.append_nil]
        exact h.of_same rfl hblock
    | _ =>
        show Tracked cfg _ (changes ++ [])
        rw [List.append_nil]
        exact h.of_same ((step_frame hstep).1 not_false) hblock
  · have hnone : relayerChange cfg s op = none := by
      cases op with
      | setRelayer origin relayer => exact if_neg hfail
      | rotateRelayer origin new ttl => exact if_neg hfail
      | _ => rfl
    rw [hnone, hsame, Option.toList_none, List.append_nil]
    exact h

/-! ## Whole runs -/

/-- **The relayer rotates exactly when it was asked to.** After every run, in every later block
    without further calls, an account passes `ensure_relayer` exactly if the changes up to now make
    it the relayer; once a relayer was set exactly one account passes; and a rotation takes effect
    more than `MinimumTTL` blocks after the call, or in the last block there is. -/
theorem rotation_exact (cfg : Config A X) (ledger : Ledger A X) {ops : List (Op A X N R)}
    (hrun : run (step cfg) (State.genesis ledger) ops = some s) :
    let changes := history (step cfg) (relayerChange cfg) (State.genesis ledger) ops
    (∀ n, s.block ≤ n → (∀ a, Passes a { s with block := n } ↔
      holder cfg.effective n changes = some a) ∧
      ((∃ a, .set a ∈ changes) → ∃! a, Passes a { s with block := n })) ∧
    ∀ block ttl a, .schedule block ttl a ∈ changes →
      block + cfg.minimumTTL < cfg.effective block ttl ∨ cfg.effective block ttl = cfg.maxBlock := by
  intro changes
  have htracked : Tracked cfg s ([] ++ changes) :=
    history_collect (fun h _ hstep => h.step hstep) (Tracked.genesis ledger) (along_true _ _) hrun
  rw [List.nil_append] at htracked
  -- Who passes later on is settled by the changes up to now: the relayer record is their history in
  -- short.
  have hpasses : ∀ n, s.block ≤ n → ∀ a, Passes a { s with block := n } ↔
      holder cfg.effective n changes = some a := by
    intro n hn a
    rw [passes_iff, ← htracked.relayer n hn]
    exact Iff.rfl
  refine ⟨fun n hn => ⟨hpasses n hn, ?_⟩, ?_⟩
  · rintro ⟨a, ha⟩
    obtain ⟨b, hb⟩ : ∃ b, holder cfg.effective n changes = some b := holder_of_set ha
    refine ⟨b, (hpasses n hn b).mpr hb, fun c hc => ?_⟩
    exact Option.some.inj (((hpasses n hn c).mp hc).symm.trans hb)
  · intro block ttl a hmem
    -- A rotation was accepted only with a lifetime that is long enough.
    have hlong := htracked.long hmem
    unfold Config.effective
    omega

/-- Account `4` hands over to account `5`, for eleven blocks later. -/
def handoverOps : List (Op Nat Nat Nat Nat) :=
  [.setRelayer .root 4, .nextBlock, .rotateRelayer (.signed 4) 5 11]

theorem rotation_exact_sample :
    ∃ s, run (step sample) (State.genesis Ledger.empty) handoverOps = some s ∧
      Passes 4 { s with block := 11 } ∧ Passes 5 { s with block := 12 } := by
  have hview :
      (run (step sample) (State.genesis Ledger.empty) handoverOps).map State.block = some 1 := by
    decide +kernel
  have hchanges :
      history (step sample) (relayerChange sample) (State.genesis Ledger.empty) handoverOps =
      [.set 4, .schedule 1 11 5] := by
    decide +kernel
  obtain ⟨s, hs, hblock⟩ := Option.map_eq_some_iff.mp hview
  obtain ⟨hexact, -⟩ := rotation_exact sample Ledger.empty hs
  rw [hchanges] at hexact
  refine ⟨s, hs, ((hexact 11 (by omega)).1 4).mpr ?_, ((hexact 12 (by omega)).1 5).mpr ?_⟩
  · decide
  · decide

/-- A rotation with the longest `ttl` that a block number can be, called in block one. -/
def longHandoverOps : List (Op Nat Nat Nat Nat) :=
  [.setRelayer .root 4, .nextBlock, .rotateRelayer (.signed 4) 5 (2 ^ 32 - 1)]

/-- It takes effect one block before its `ttl` is over, in the last block. -/
theorem rotation_early :
    ¬ ∀ (ops : List (Op Nat Nat Nat Nat)) s,
      run (step sample) (State.genesis Ledger.empty) ops = some s →
      ∀ n, s.block ≤ n → n ≤ sample.maxBlock → ∀ a, Passes a { s with block := n } ↔
        holder (fun block ttl => block + ttl) n
          (history (step sample) (relayerChange sample) (State.genesis Ledger.empty) ops) =
            some a := by
  intro h
  have hview : (run (step sample) (State.genesis Ledger.empty) longHandoverOps).map (fun s =>
      (s.block, decide (Passes 4 { s with block := 2 ^ 32 - 1 }))) = some (1, false) := by
    decide +kernel
  have hchanges :
      history (step sample) (relayerChange sample) (State.genesis Ledger.empty) longHandoverOps =
      [.set 4, .schedule 1 (2 ^ 32 - 1) 5] := by
    decide +kernel
  obtain ⟨s, hs, hview⟩ := Option.map_eq_some_iff.mp hview
  obtain ⟨hblock, hpasses⟩ := Prod.mk.inj hview
  refine of_decide_eq_false hpasses
    ((h longHandoverOps s hs (2 ^ 32 - 1) (by omega) (Nat.le_refl _) 4).mpr ?_)
  rw [hchanges]
  decide

end Mosaic
end Composable
