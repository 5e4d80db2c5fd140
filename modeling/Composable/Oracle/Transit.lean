import Composable.Oracle.Effect

/-!
# `Oracle.Transit` — the slashes in transit

While an answer waits, the slash of its asset is in transit for its submitter, and a
submitter needs stake for all that is in transit. So an account should have as much in
transit as its waiting answers can cost it.

Submitting adds the slash. It leaves transit when the answer is paid out, but pruning takes it out
of transit for the first fresh answer instead of the stale ones, and when there are too many answers
for the last ones, as many as are kept, instead of those that are cut. What is taken out twice does
not show in an account that has nothing else in transit, since the subtraction stops at zero.
`transit_exact` says that the two agree as long as this saves every turn (`ExactTurn`).
-/

namespace Composable
namespace Oracle

variable {A X : Type} [DecidableEq A] [DecidableEq X]
variable {cfg : Config A X} {s s' : State A X} {op : Op A X} {x : X} {info : AssetInfo} {block : Nat}
variable {ps : List (PrePrice A)} {who w : A}

/-! ## Waiting answers -/

/-- The slash of an asset. -/
def State.slashOf (s : State A X) (x : X) : Nat := (s.assetsInfo.lookup x).elim 0 AssetInfo.slash

/-- How many of the answers an account submitted. -/
def answersOf (w : A) (ps : List (PrePrice A)) : Nat := (ps.map PrePrice.who).count w

/-- What the answers of an account for one asset can cost it. -/
def State.pendingFor (s : State A X) (w : A) (x : X) (ps : List (PrePrice A)) : Nat :=
  s.slashOf x * answersOf w ps

/-- What all its waiting answers can cost it. -/
def State.pending (s : State A X) (w : A) : Nat := s.prePrices.total (s.pendingFor w)

/-- Nobody answers twice, the lists are as long as they may be, and the assets have valid
    parameters. -/
structure Sound (cfg : Config A X) (s : State A X) : Prop where
  nodup : ∀ x, ((s.answers x).map PrePrice.who).Nodup
  fits : ∀ x, (s.answers x).length ≤ cfg.maxPrePrices
  known : ∀ x, s.assetsInfo.lookup x = none → s.answers x = []
  valid : ∀ x info, s.assetsInfo.lookup x = some info → 0 < info.minAnswers ∧
    info.minAnswers ≤ info.maxAnswers
  history : ∀ x, (s.priceHistory x).length ≤ cfg.maxHistory

/-- What is in transit is what the waiting answers can cost. -/
def Exact (s : State A X) : Prop := ∀ w, s.transitOf w = s.pending w

section Lists

omit [DecidableEq A] in
theorem answers_insert {y : X} (m : StorageMap X (List (PrePrice A))) :
    StorageMap.getD (m.insert x ps) y [] = if y = x then ps else m.getD y [] := by
  unfold StorageMap.getD
  by_cases hy : y = x
  · subst hy
    rw [AList.lookup_insert, if_pos rfl, Option.getD_some]
  · rw [AList.lookup_insert_ne hy, if_neg hy]

omit [DecidableEq A] in
theorem answers_erase {y : X} (m : StorageMap X (List (PrePrice A))) :
    StorageMap.getD (m.erase x) y [] = if y = x then [] else m.getD y [] := by
  unfold StorageMap.getD
  by_cases hy : y = x
  · subst hy
    rw [AList.lookup_erase, if_pos rfl, Option.getD_none]
  · rw [AList.lookup_erase_ne hy, if_neg hy]

/-- The part of an asset in what is pending. -/
theorem share_pending :
    StorageMap.share (s.pendingFor w) s.prePrices x = s.pendingFor w x (s.answers x) := by
  unfold State.answers StorageMap.getD
  cases h : s.prePrices.lookup x with
  | none =>
      rw [StorageMap.share_of_lookup_none h]
      rfl
  | some ps => exact StorageMap.share_of_lookup h

omit [DecidableEq X] in
theorem pendingFor_congr [DecidableEq X] (hinfo : s'.assetsInfo = s.assetsInfo) :
    s'.pendingFor w = s.pendingFor w := by
  funext x ps
  rw [State.pendingFor, State.slashOf, hinfo]
  rfl

/-- The answers of one asset are replaced. -/
theorem pending_insert (hinfo : s'.assetsInfo = s.assetsInfo)
    (hprices : s'.prePrices = s.prePrices.insert x ps) :
    s'.pending w + s.pendingFor w x (s.answers x) = s.pending w + s.pendingFor w x ps := by
  rw [State.pending, pendingFor_congr hinfo, hprices, ← share_pending]
  exact StorageMap.total_insert

/-- The answers of one asset are replaced and then removed. -/
theorem pending_erase (hinfo : s'.assetsInfo = s.assetsInfo)
    (hprices : s'.prePrices = (s.prePrices.insert x ps).erase x) :
    s'.pending w + s.pendingFor w x (s.answers x) = s.pending w := by
  have herased := StorageMap.total_erase (f := s.pendingFor w) (m := s.prePrices.insert x ps) (k := x)
  rw [StorageMap.share_of_lookup (AList.lookup_insert s.prePrices)] at herased
  have hinserted :
      StorageMap.total (s.pendingFor w) (s.prePrices.insert x ps) + s.pendingFor w x (s.answers x) =
      s.pending w + s.pendingFor w x ps := by
    rw [← share_pending]
    exact StorageMap.total_insert
  rw [State.pending, pendingFor_congr hinfo, hprices]
  omega

end Lists

/-! ## Turns -/

/-- The accounts whose answers wait for an asset. -/
def State.submitters (s : State A X) (x : X) : List A := (s.answers x).map PrePrice.who

/-- In the turn of an asset with enough answers and something to slash, the first answer is
    fresh, there are at most twice as many answers as are kept, and the accounts for which the
    slash leaves transit twice, the first one and those among the kept and the last ones, have
    nothing else in transit. -/
def ExactTurn (cfg : Config A X) (block : Nat) (s : State A X) (x : X) : Prop :=
  ∀ info ∈ s.assetsInfo.lookup x, info.minAnswers ≤ (s.answers x).length → info.slash ≠ 0 →
    (∀ p ∈ (s.answers x).head?, cfg.staleBlock block ≤ p.block ∧ s.transitOf p.who = info.slash) ∧
      (s.answers x).length ≤ 2 * info.maxAnswers ∧
        (info.maxAnswers < (s.answers x).length → ∀ w ∈ (s.submitters x).take info.maxAnswers,
          w ∈ (s.submitters x).drop ((s.answers x).length - info.maxAnswers) →
            s.transitOf w = info.slash)

section Turns

omit [DecidableEq A] [DecidableEq X] in
theorem pushHistory_ok {history history' : List Price} {price : Price}
    (h : history.length ≤ cfg.maxHistory)
    (hok : cfg.pushHistory history price = .ok history') : history'.length ≤ cfg.maxHistory := by
  unfold Config.pushHistory at hok
  split at hok
  · cases hok
  · dsimp only at hok
    have hkept : (if cfg.maxHistory ≤ history.length then history.tail else history).length ≤
        cfg.maxHistory := by
      split
      · rw [List.length_tail]
        omega
      · exact h
    generalize (if cfg.maxHistory ≤ history.length then history.tail else history) = kept at hok hkept
    split at hok
    · cases hok
      exact hkept
    · split at hok
      · cases hok
        rw [List.length_append]
        exact ‹kept.length < cfg.maxHistory›
      · cases hok

omit [DecidableEq A] [DecidableEq X] in
/-- The history always takes a price, … -/
theorem pushHistory_takes {history : List Price} (h : history.length ≤ cfg.maxHistory)
    (hroom : ¬ (cfg.maxHistory ≤ history.length ∧ history = [])) (price : Price) :
    ∃ history', cfg.pushHistory history price = .ok history' := by
  have hkept : (if cfg.maxHistory ≤ history.length then history.tail else history).length <
      cfg.maxHistory := by
    split
    · rename_i hfull
      have hne : history ≠ [] := fun hnil => hroom ⟨hfull, hnil⟩
      have hpos : 0 < history.length := List.length_pos_iff.mpr hne
      rw [List.length_tail]
      omega
    · omega
  unfold Config.pushHistory
  simp only [if_neg hroom, if_pos hkept]
  split
  · exact ⟨_, rfl⟩
  · exact ⟨_, rfl⟩

omit [DecidableEq A] [DecidableEq X] in
/-- … unless there is no room for any. -/
theorem pushHistory_error {history : List Price} {price : Price} {e : DispatchError Error}
    (h : history.length ≤ cfg.maxHistory) (herror : cfg.pushHistory history price = .error e) :
    e = .panic := by
  by_cases hroom : cfg.maxHistory ≤ history.length ∧ history = []
  · unfold Config.pushHistory at herror
    rw [if_pos hroom] at herror
    exact (Except.error.inj herror).symm
  · obtain ⟨history', hok⟩ := pushHistory_takes h hroom price
    rw [hok] at herror
    cases herror

omit [DecidableEq A] [DecidableEq X] in
/-- If the first answer is fresh, all are kept for now. -/
theorem fresh_eq {p : PrePrice A} (hp : ps.head? = some p) (hfresh : cfg.staleBlock block ≤ p.block) :
    cfg.fresh block ps = ps := by
  obtain ⟨rest, rfl⟩ := List.head?_eq_some_iff.mp hp
  rw [Config.fresh, List.dropWhile_cons_of_neg]
  rw [decide_eq_true_eq]
  exact Nat.not_lt_of_le hfresh

omit [DecidableEq X] in
/-- Of the first `n` and the last `n` in a list of at most `2 * n` accounts, one is
    in both or counts once. -/
theorem count_take_drop {whos : List A} {n : Nat} (hnodup : whos.Nodup) (hlong : n < whos.length)
    (hlen : whos.length ≤ 2 * n) (hw : w ∈ whos) :
    (w ∈ whos.take n ∧ w ∈ whos.drop (whos.length - n)) ∨
      (whos.drop (whos.length - n)).count w + (whos.take n).count w = 1 := by
  have hsplit : (whos.take n).count w + (whos.drop n).count w = 1 := by
    rw [← List.count_append, List.take_append_drop]
    exact List.count_eq_one_of_mem hnodup hw
  -- The end of the list is in the last `n`.
  have hlast : (whos.drop n).count w ≤ (whos.drop (whos.length - n)).count w := by
    have hdrop : whos.drop n = (whos.drop (whos.length - n)).drop (n - (whos.length - n)) := by
      rw [List.drop_drop]
      congr 1
      omega
    rw [hdrop]
    exact (List.drop_sublist _ _).count_le w
  have hone : (whos.drop (whos.length - n)).count w ≤ 1 :=
    List.nodup_iff_count_le_one.mp (hnodup.sublist (List.drop_sublist _ _)) w
  by_cases htake : w ∈ whos.take n
  · by_cases hdrop : w ∈ whos.drop (whos.length - n)
    · exact .inl ⟨htake, hdrop⟩
    · right
      have hzero := List.count_eq_zero_of_not_mem hdrop
      omega
  · right
    have hzero := List.count_eq_zero_of_not_mem htake
    omega

omit [DecidableEq X] in
/-- The accounts for which the slash leaves transit in a turn that pays out. -/
theorem count_unpriced_kept {p : PrePrice A} (hp : ps.head? = some p)
    (hfresh : cfg.staleBlock block ≤ p.block) :
    (cfg.unpriced info block ps ++ (cfg.kept info block ps).map PrePrice.who).count w =
      (if p.who = w then 1 else 0) +
        ((if info.maxAnswers < ps.length then
            ((ps.map PrePrice.who).drop (ps.length - info.maxAnswers)).count w else 0) +
          ((ps.map PrePrice.who).take info.maxAnswers).count w) := by
  have hfirst : [p.who].count w = if p.who = w then 1 else 0 := by
    rw [List.count_singleton]
    simp only [beq_iff_eq]
  rw [Config.unpriced, Config.kept, fresh_eq hp hfresh, hp, List.map_take, List.count_append,
    List.map_append, List.count_append, Option.toList_some, List.map_singleton, hfirst, Nat.add_assoc]
  congr 2
  split
  · rw [List.map_drop]
  · rfl

omit [DecidableEq A] in
theorem exists_first (hsound : Sound cfg s) (hinfo : s.assetsInfo.lookup x = some info)
    (henough : info.minAnswers ≤ (s.answers x).length) : ∃ p, (s.answers x).head? = some p := by
  cases hanswers : s.answers x with
  | nil =>
      have hpos := (hsound.valid x info hinfo).1
      rw [hanswers] at henough
      exact absurd henough (Nat.not_le_of_lt hpos)
  | cons p rest => exact ⟨p, rfl⟩

omit [DecidableEq A] in
/-- When nothing is stale, there are still enough answers after pruning. -/
theorem kept_enough (hsound : Sound cfg s) (hturn : ExactTurn cfg block s x)
    (hinfo : s.assetsInfo.lookup x = some info) (henough : info.minAnswers ≤ (s.answers x).length)
    (hslash : info.slash ≠ 0) : info.minAnswers ≤ (cfg.kept info block (s.answers x)).length := by
  obtain ⟨p, hp⟩ := exists_first hsound hinfo henough
  obtain ⟨hhead, -, -⟩ := hturn info hinfo henough hslash
  have hvalid := hsound.valid x info hinfo
  rw [Config.kept, fresh_eq hp (hhead p hp).1, List.length_take]
  omega

/-- **The turn of an asset that pays out** takes from every account what its answer can cost. -/
theorem transit_paid (hsound : Sound cfg s) (hturn : ExactTurn cfg block s x)
    (hinfo : s.assetsInfo.lookup x = some info) (henough : info.minAnswers ≤ (s.answers x).length)
    (w : A) : s.transitOf w - info.slash * (cfg.unpriced info block (s.answers x) ++
      (cfg.kept info block (s.answers x)).map PrePrice.who).count w =
        s.transitOf w - info.slash * answersOf w (s.answers x) := by
  by_cases hslash : info.slash = 0
  · rw [hslash, Nat.zero_mul, Nat.zero_mul]
  obtain ⟨hhead, hlen, htwice⟩ := hturn info hinfo henough hslash
  have hnodup : (s.submitters x).Nodup := hsound.nodup x
  obtain ⟨p, hp⟩ := exists_first hsound hinfo henough
  obtain ⟨hfresh, hfirst⟩ := hhead p hp
  have hwho : p.who ∈ s.submitters x := List.mem_map_of_mem (List.mem_of_head? hp)
  have hlength : (s.submitters x).length = (s.answers x).length := List.length_map _
  rw [count_unpriced_kept hp hfresh]
  change _ - info.slash * (_ + ((if _ then ((s.submitters x).drop _).count w else 0) +
    ((s.submitters x).take _).count w)) = _ - info.slash * (s.submitters x).count w
  by_cases hw : w ∈ s.submitters x
  · rw [List.count_eq_one_of_mem hnodup hw, Nat.mul_one]
    have hcount : ∀ n, n = (if p.who = w then 1 else 0) +
        ((if info.maxAnswers < (s.answers x).length then
            ((s.submitters x).drop ((s.answers x).length - info.maxAnswers)).count w else 0) +
          ((s.submitters x).take info.maxAnswers).count w) →
        n = 1 ∨ 0 < n ∧ s.transitOf w = info.slash := by
      rintro n rfl
      by_cases hpw : p.who = w
      · right
        rw [if_pos hpw, ← hpw]
        exact ⟨Nat.add_pos_left Nat.one_pos _, hfirst⟩
      · rw [if_neg hpw, Nat.zero_add]
        by_cases hmany : info.maxAnswers < (s.answers x).length
        · rw [if_pos hmany]
          rw [← hlength] at hmany hlen htwice ⊢
          rcases count_take_drop hnodup hmany hlen hw with ⟨htake, hdrop⟩ | hone
          · right
            exact ⟨Nat.add_pos_right _ (List.count_pos_iff.mpr htake), htwice hmany w htake hdrop⟩
          · exact .inl hone
        · left
          rw [if_neg hmany, Nat.zero_add, List.take_of_length_le (hlength ▸ Nat.le_of_not_lt hmany)]
          exact List.count_eq_one_of_mem hnodup hw
    rcases hcount _ rfl with hone | ⟨hpos, hall⟩
    · rw [hone, Nat.mul_one]
    · -- An account with nothing else in transit cannot lose too much.
      rw [hall, Nat.sub_self]
      exact Nat.sub_eq_zero_of_le (Nat.le_mul_of_pos_right _ hpos)
  · have hne : p.who ≠ w := fun heq => hw (heq ▸ hwho)
    have hdrop : ((s.submitters x).drop ((s.answers x).length - info.maxAnswers)).count w = 0 :=
      List.count_eq_zero_of_not_mem fun hmem => hw (List.mem_of_mem_drop hmem)
    have htake : ((s.submitters x).take info.maxAnswers).count w = 0 :=
      List.count_eq_zero_of_not_mem fun hmem => hw (List.mem_of_mem_take hmem)
    rw [if_neg hne, hdrop, htake, List.count_eq_zero_of_not_mem hw, ite_self]

omit [DecidableEq A] in
theorem Sound.genesis (ledger : Ledger A Unit) : Sound cfg (State.genesis ledger : State A X) :=
  ⟨fun _ => List.nodup_nil, fun _ => Nat.zero_le _, fun _ _ => rfl, nofun, fun _ => Nat.zero_le _⟩

omit [DecidableEq A] in
/-- Answers that go away, and a history of the right length, keep the state sound. -/
theorem Sound.of_sublist (h : Sound cfg s) (hinfo : s'.assetsInfo = s.assetsInfo)
    (hhistory : ∀ y, (s'.priceHistory y).length ≤ cfg.maxHistory)
    (hanswers : ∀ y, (s'.answers y).Sublist (s.answers y)) : Sound cfg s' where
  nodup y := (h.nodup y).sublist ((hanswers y).map PrePrice.who)
  fits y := Nat.le_trans (hanswers y).length_le (h.fits y)
  known y hnone := by
    rw [hinfo] at hnone
    have hempty := h.known y hnone
    have hsub := hanswers y
    rw [hempty] at hsub
    exact List.sublist_nil.mp hsub
  valid y info hsome := h.valid y info (hinfo ▸ hsome)
  history := hhistory

omit [DecidableEq A] [DecidableEq X] in
theorem kept_sublist : (cfg.kept info block ps).Sublist ps :=
  (List.take_sublist _ _).trans (List.dropWhile_sublist _)

/-- A turn may take answers away, and nothing else. -/
theorem Turn.answers (h : Turn cfg block x s s') (y : X) : (s'.answers y).Sublist (s.answers y) := by
  have hpruned : ∀ info, ((s.pruned cfg block x info).answers y).Sublist (s.answers y) := by
    intro info
    show (StorageMap.getD (s.prePrices.insert x (cfg.kept info block (s.answers x))) y []).Sublist _
    rw [answers_insert]
    split
    · rename_i hy
      rw [hy]
      exact kept_sublist
    · exact List.Sublist.refl _
  cases h with
  | idle _ => exact List.Sublist.refl _
  | unstored _ _ _ => exact List.Sublist.refl _
  | @pruned info _ _ _ => exact hpruned info
  | @unrecorded info _ _ _ _ _ _ _ => exact hpruned info
  | @paid info price history hpays =>
      show (StorageMap.getD ((s.pruned cfg block x info).prePrices.erase x) y []).Sublist _
      rw [answers_erase]
      split
      · exact List.nil_sublist _
      · exact hpruned info

theorem Sound.turn (h : Sound cfg s) (hturn : Turn cfg block x s s') : Sound cfg s' := by
  have hanswers := hturn.answers
  cases hturn with
  | idle _ => exact h
  | unstored _ _ _ => exact h.of_sublist rfl h.history hanswers
  | pruned _ _ _ => exact h.of_sublist rfl h.history hanswers
  | unrecorded _ _ _ _ _ => exact h.of_sublist rfl h.history hanswers
  | @paid info price history hpays =>
      refine h.of_sublist ?_ (fun y => ?_) hanswers
      · rw [State.assetsInfo_paidOut, State.assetsInfo_priced, State.assetsInfo_pruned]
      · show (Function.update s.priceHistory x history y).length ≤ _
        by_cases hy : y = x
        · subst hy
          rw [Function.update_self]
          exact pushHistory_ok (h.history y) hpays.history_eq
        · rw [Function.update_of_ne hy]
          exact h.history y

/-- The turns of a block, all of them or the first few. -/
theorem Sound.turns {xs : List X} (h : Sound cfg s)
    (hrun : run (Oracle.turn cfg block) s xs = some s') : Sound cfg s' :=
  run_invariant (C := fun _ _ => True) (fun hsound _ hturn => hsound.turn (turn_cases hturn)) h
    (along_true _ _) hrun

omit [DecidableEq A] in
theorem slashOf_eq (hinfo : s.assetsInfo.lookup x = some info) : s.slashOf x = info.slash := by
  rw [State.slashOf, hinfo, Option.elim_some]

/-- **A turn that takes no slash out of transit twice** keeps the amounts in transit exact. -/
theorem Exact.turn (hexact : Exact s) (hsound : Sound cfg s) (hop : ExactTurn cfg block s x)
    (hturn : Turn cfg block x s s') : Exact s' := by
  cases hturn with
  | idle _ => exact hexact
  | @unstored info _ _ hlong =>
      have hkept : (cfg.kept info block (s.answers x)).Sublist (s.answers x) := kept_sublist
      exact absurd hlong (Nat.not_lt_of_le (Nat.le_trans hkept.length_le (hsound.fits x)))
  | @pruned info hinfo henough hfew =>
      have hzero : info.slash = 0 := by
        by_contra hslash
        have hstill := kept_enough hsound hop hinfo henough hslash
        rcases hfew with hfew | hnone
        · exact Nat.not_lt_of_le hstill hfew
        · rw [hnone] at hstill
          exact absurd hstill (Nat.not_le_of_lt (hsound.valid x info hinfo).1)
      intro w
      have hpending : (s.pruned cfg block x info).pending w + s.pendingFor w x (s.answers x) =
          s.pending w + s.pendingFor w x (cfg.kept info block (s.answers x)) := pending_insert rfl rfl
      have htransit : (s.pruned cfg block x info).transitOf w =
          s.transitOf w - info.slash * (cfg.unpriced info block (s.answers x)).count w :=
            transitOf_removeTransits
      rw [State.pendingFor, State.pendingFor, slashOf_eq hinfo, hzero, Nat.zero_mul,
        Nat.zero_mul] at hpending
      rw [htransit, hzero, Nat.zero_mul, Nat.sub_zero, hexact w]
      exact hpending.symm
  | unrecorded _ _ _ hhistory hpanic =>
      exact absurd (pushHistory_error (hsound.history x) hhistory) hpanic
  | @paid info price history hpays =>
      intro w
      have hpending : (((s.pruned cfg block x info).priced x ⟨price, block⟩ history).paidOut cfg
          (cfg.kept info block (s.answers x)) price info).pending w +
            s.pendingFor w x (s.answers x) = s.pending w := by
        refine pending_erase ?_ rfl
        rw [State.assetsInfo_paidOut, State.assetsInfo_priced, State.assetsInfo_pruned]
      have htransit : (((s.pruned cfg block x info).priced x ⟨price, block⟩ history).paidOut cfg
          (cfg.kept info block (s.answers x)) price info).transitOf w =
            s.transitOf w - info.slash * (cfg.unpriced info block (s.answers x)).count w -
              info.slash * ((cfg.kept info block (s.answers x)).map PrePrice.who).count w := by
        have hpaid (t : State A X) (ps : List (PrePrice A)) :
            (t.paidOut cfg ps price info).transitOf w =
            t.transitOf w - info.slash * (ps.map PrePrice.who).count w := transitOf_removeTransits
        have hpruned : (s.pruned cfg block x info).transitOf w =
            s.transitOf w - info.slash * (cfg.unpriced info block (s.answers x)).count w :=
              transitOf_removeTransits
        rw [hpaid, ← hpruned]
        rfl
      rw [htransit, Nat.sub_sub, ← Nat.mul_add, ← List.count_append,
        transit_paid hsound hop hpays.info_eq hpays.enough, hexact w]
      rw [State.pendingFor, slashOf_eq hpays.info_eq] at hpending
      omega

end Turns

/-! ## Steps -/

/-- The slash of an asset stays what it is. -/
def KeepsSlash (cfg : Config A X) (s : State A X) : Op A X → Prop
  | .addAssetAndInfo origin x info =>
      Returns cfg s (.addAssetAndInfo origin x info) → ∀ old ∈ s.assetsInfo.lookup x,
        old.slash = info.slash
  | _ => True

/-- The turns of a block are exact, and what a submitter has in transit does not overflow. -/
def ExactStep (cfg : Config A X) (s : State A X) : Op A X → Prop
  | .submitPrice (.signed who) price x =>
      Returns cfg s (.submitPrice (.signed who) price x) → s.transitOf who + s.slashOf x ≤ u128Max
  | .initializeBlock =>
      Along (turn cfg (s.block + 1)) (ExactTurn cfg (s.block + 1)) s.nextBlock (cfg.assets s)
  | _ => True

section Steps

omit [DecidableEq A] in
/-- Nothing happens to the answers and the assets. -/
theorem Sound.of_same (h : Sound cfg s) (hinfo : s'.assetsInfo = s.assetsInfo)
    (hhistory : s'.priceHistory = s.priceHistory) (hprices : s'.prePrices = s.prePrices) :
    Sound cfg s' := by
  refine h.of_sublist hinfo (fun y => hhistory ▸ h.history y) fun y => ?_
  rw [State.answers, hprices]
  exact List.Sublist.refl _

theorem Exact.of_same (h : Exact s) (hinfo : s'.assetsInfo = s.assetsInfo)
    (htransit : s'.answerInTransit = s.answerInTransit) (hprices : s'.prePrices = s.prePrices) :
    Exact s' := by
  intro w
  rw [State.transitOf, htransit, State.pending, pendingFor_congr hinfo, hprices]
  exact h w

/-- One more answer waits for an asset. -/
def State.submit (s : State A X) (x : X) (p : PrePrice A) (slash : Nat) : State A X :=
  ({ s with prePrices := s.prePrices.insert x (s.answers x ++ [p]) } : State A X).addTransit
    p.who slash

variable {p : PrePrice A}

theorem Sound.submit (h : Sound cfg s) (hinfo : s.assetsInfo.lookup x = some info)
    (hnew : ∀ q ∈ s.answers x, q.who ≠ p.who) (hfits : (s.answers x).length < cfg.maxPrePrices)
    (n : Nat) : Sound cfg (s.submit x p n) := by
  have hanswers : ∀ y, (s.submit x p n).answers y = if y = x then s.answers x ++ [p]
      else s.answers y :=
    fun y => answers_insert s.prePrices
  refine ⟨fun y => ?_, fun y => ?_, fun y hnone => ?_, h.valid, h.history⟩
  · rw [hanswers]
    split
    · rw [List.map_append, List.map_singleton]
      refine List.Nodup.append (h.nodup x) (List.nodup_singleton _) fun w hw hwho => ?_
      obtain ⟨q, hq, rfl⟩ := List.mem_map.mp hw
      exact hnew q hq (List.mem_singleton.mp hwho)
    · exact h.nodup y
  · rw [hanswers]
    split
    · rw [List.length_append]
      exact hfits
    · exact h.fits y
  · rw [hanswers, if_neg]
    · exact h.known y hnone
    · rintro rfl
      exact absurd (hinfo.symm.trans hnone) (Option.some_ne_none info)

theorem Exact.submit (h : Exact s) (hinfo : s.assetsInfo.lookup x = some info)
    (hfits : s.transitOf p.who + info.slash ≤ u128Max) : Exact (s.submit x p info.slash) := by
  intro w
  have hpending : (s.submit x p info.slash).pending w + s.pendingFor w x (s.answers x) =
      s.pending w + s.pendingFor w x (s.answers x ++ [p]) := pending_insert rfl rfl
  have hmore : answersOf w (s.answers x ++ [p]) = answersOf w (s.answers x) + if p.who = w then 1
      else 0 := by
    rw [answersOf, List.map_append, List.count_append, List.map_singleton, List.count_singleton]
    simp only [beq_iff_eq]
    rfl
  have htransit : (s.submit x p info.slash).transitOf w =
      Function.update s.transitOf p.who (Fixed.saturated (s.transitOf p.who + info.slash)) w :=
    congrFun transitOf_addTransit w
  rw [State.pendingFor, State.pendingFor, slashOf_eq hinfo, hmore, Nat.mul_add] at hpending
  rw [htransit]
  by_cases hw : p.who = w
  · subst hw
    rw [if_pos rfl, ← h p.who] at hpending
    rw [Function.update_self, Fixed.saturated, Nat.min_eq_left hfits]
    omega
  · rw [if_neg hw, ← h w] at hpending
    rw [Function.update_of_ne (Ne.symm hw)]
    omega

omit [DecidableEq A] in
theorem Sound.setAsset (h : Sound cfg s) (count : Nat) (hmin : 0 < info.minAnswers)
    (hmax : info.minAnswers ≤ info.maxAnswers) :
    Sound cfg { s with assetsCount := count, assetsInfo := s.assetsInfo.insert x info } := by
  refine ⟨h.nodup, h.fits, fun y hnone => h.known y ?_, fun y info' hsome => ?_, h.history⟩
  · by_cases hy : y = x
    · subst hy
      rw [AList.lookup_insert] at hnone
      cases hnone
    · rwa [AList.lookup_insert_ne hy] at hnone
  · rcases StorageMap.lookup_insert_some.mp hsome with ⟨-, rfl⟩ | ⟨-, hold⟩
    · exact ⟨hmin, hmax⟩
    · exact h.valid y info' hold

/-- A new asset has no answers, and an old one keeps its slash. -/
theorem Exact.setAsset (h : Exact s) (hsound : Sound cfg s) (count : Nat)
    (hslash : ∀ old ∈ s.assetsInfo.lookup x, old.slash = info.slash) :
    Exact { s with assetsCount := count, assetsInfo := s.assetsInfo.insert x info } := by
  intro w
  refine (h w).trans (StorageMap.total_congr fun e he => ?_)
  have hstored : s.answers e.1 = e.2 := by
    rw [State.answers, StorageMap.getD, AList.mem_lookup_iff.mpr he, Option.getD_some]
  rw [State.pendingFor, State.pendingFor, State.slashOf, State.slashOf]
  by_cases hx : e.1 = x
  · rw [hx, AList.lookup_insert, Option.elim_some]
    cases hold : s.assetsInfo.lookup x with
    | none =>
        have hempty : e.2 = [] := by
          rw [← hstored, hx]
          exact hsound.known x hold
        rw [hempty]
        rfl
    | some old => rw [Option.elim_some, hslash old hold]
  · rw [AList.lookup_insert_ne hx]

/-- **One step.** -/
theorem Sound.step (h : Sound cfg s) (hstep : step cfg s op = some s') : Sound cfg s' := by
  rcases step_cases hstep with ⟨-, heffect⟩ | ⟨-, hresidue⟩
  · cases heffect with
    | assetSet count hmin hmax => exact h.setAsset count hmin hmax
    | submitted hinfo _ hnew hfits => exact h.submit hinfo hnew hfits _
    | started hcall =>
        have hfirst : Sound cfg s.nextBlock := h.of_same rfl rfl rfl
        exact hfirst.turns (initializeBlock_ok.mp hcall).2
    | signerSet _ _ => exact h.of_same rfl rfl rfl
    | stakeAdded _ => exact h.of_same rfl rfl rfl
    | stakeRemoved _ _ => exact h.of_same rfl rfl rfl
    | reclaimed _ _ => exact h.of_same rfl rfl rfl
    | elsewhere => exact h.of_same rfl rfl rfl
  · cases hresidue with
    | clean => exact h
    | unreserved _ _ _ => exact h.of_same rfl rfl rfl
    | unpaid _ _ => exact h.of_same rfl rfl rfl

/-- **One step.** -/
theorem Exact.step (h : Exact s) (hsound : Sound cfg s) (hkeeps : KeepsSlash cfg s op)
    (hop : ExactStep cfg s op) (hstep : step cfg s op = some s') : Exact s' := by
  rcases step_cases hstep with ⟨hreturns, heffect⟩ | ⟨-, hresidue⟩
  · cases heffect with
    | assetSet count _ _ => exact h.setAsset hsound count (hkeeps hreturns)
    | submitted hinfo _ _ _ =>
        refine h.submit hinfo ?_
        rw [← slashOf_eq hinfo]
        exact hop hreturns
    | started hcall =>
        obtain ⟨-, hrun⟩ := initializeBlock_ok.mp hcall
        have hfirst : Sound cfg s.nextBlock ∧ Exact s.nextBlock :=
          ⟨hsound.of_same rfl rfl rfl, h.of_same rfl rfl rfl⟩
        exact (run_invariant (I := fun t => Sound cfg t ∧ Exact t)
          (fun ht hexact hturn => ⟨ht.1.turn (turn_cases hturn),
            ht.2.turn ht.1 hexact (turn_cases hturn)⟩)
          hfirst hop hrun).2
    | signerSet _ _ => exact h.of_same rfl rfl rfl
    | stakeAdded _ => exact h.of_same rfl rfl rfl
    | stakeRemoved _ _ => exact h.of_same rfl rfl rfl
    | reclaimed _ _ => exact h.of_same rfl rfl rfl
    | elsewhere => exact h.of_same rfl rfl rfl
  · cases hresidue with
    | clean => exact h
    | unreserved _ _ _ => exact h.of_same rfl rfl rfl
    | unpaid _ _ => exact h.of_same rfl rfl rfl

end Steps

/-! ## Runs -/

/-- **Transit is exact as long as the turns are**: what an account has in transit is what
    its waiting answers can cost it, in every state that is reached with the slash of
    every asset fixed once set. -/
theorem transit_exact {ledger : Ledger A Unit} {ops : List (Op A X)}
    (hkeeps : Along (step cfg) (KeepsSlash cfg) (State.genesis ledger) ops)
    (hexact : Along (step cfg) (ExactStep cfg) (State.genesis ledger) ops)
    (hrun : run (step cfg) (State.genesis ledger) ops = some s') (w : A) :
    s'.transitOf w = s'.pending w := by
  have hfirst : Sound cfg (State.genesis ledger : State A X) ∧
      Exact (State.genesis ledger : State A X) :=
    ⟨Sound.genesis ledger, fun _ => rfl⟩
  -- `Exact` is kept by steps from sound states, which every state of the run is.
  exact (run_invariant (I := fun t => Sound cfg t ∧ Exact t)
    (fun ht hop hstep => ⟨ht.1.step hstep, ht.2.step ht.1 hop.1 hop.2 hstep⟩) hfirst
      (hkeeps.and hexact) hrun).2 w

instance ExactTurn.decidable (cfg : Config A X) (block : Nat) (s : State A X) (x : X) :
    Decidable (ExactTurn cfg block s x) :=
  inferInstanceAs (Decidable (∀ info ∈ s.assetsInfo.lookup x, _ → _ → _ ∧ _ ∧ (_ → ∀ w ∈ _, _ → _)))

instance ExactStep.decidable (cfg : Config A X) (s : State A X) :
    (op : Op A X) → Decidable (ExactStep cfg s op)
  | .submitPrice (.signed who) price x =>
      inferInstanceAs (Decidable (Returns cfg s (.submitPrice (.signed who) price x) → _))
  | .initializeBlock =>
      Along.decidable (turn cfg (s.block + 1)) (ExactTurn cfg (s.block + 1)) s.nextBlock _
  | .submitPrice .root _ _ | .submitPrice .none _ _ => .isTrue trivial
  | .addAssetAndInfo _ _ _ | .setSigner _ _ | .addStake _ _ | .removeStake _ | .reclaimStake _
  | .elsewhere _ =>
      .isTrue trivial

instance KeepsSlash.decidable (cfg : Config A X) (s : State A X) :
    (op : Op A X) → Decidable (KeepsSlash cfg s op)
  | .addAssetAndInfo origin x info =>
      inferInstanceAs (Decidable (Returns cfg s (.addAssetAndInfo origin x info) →
        ∀ old ∈ s.assetsInfo.lookup x, _))
  | .setSigner _ _ | .addStake _ _ | .removeStake _ | .reclaimStake _ | .submitPrice _ _ _
  | .elsewhere _
  | .initializeBlock => .isTrue trivial

/-- Two assets with a slash of five, and a signer `2` that can answer. -/
def assetOps : List (Op Nat Nat) :=
  [.addAssetAndInfo .root 0 ⟨80, 1, 5, 5, 0, 5⟩, .addAssetAndInfo .root 1 ⟨80, 2, 5, 5, 0, 5⟩,
      .setSigner (.signed 1) 2, .addStake (.signed 1) 20] ++ List.replicate 6 .initializeBlock

/-- It answers for the first asset, is paid, and later answers for both. -/
def answerOps : List (Op Nat Nat) :=
  assetOps ++ [.submitPrice (.signed 2) 100 0] ++ List.replicate 7 .initializeBlock ++
    [.submitPrice (.signed 2) 100 0, .submitPrice (.signed 2) 100 1]

theorem transit_exact_sample :
    ∃ s', run (step sample) (State.genesis sampleLedger) answerOps = some s' ∧
    s'.transitOf 2 = 10 ∧ s'.transitOf 2 = s'.pending 2 := by
  have hview : (run (step sample) (State.genesis sampleLedger) answerOps).map
      (fun s' : State Nat Nat => s'.transitOf 2) = some 10 := by
    decide +kernel
  obtain ⟨s', hrun, htransit⟩ := Option.map_eq_some_iff.mp hview
  exact ⟨s', hrun, htransit, transit_exact (by decide +kernel) (by decide +kernel) hrun 2⟩

/-- It answers for both assets, and the first one is paid out while the other waits. -/
def doubleOps : List (Op Nat Nat) :=
  assetOps ++ [.submitPrice (.signed 2) 100 0, .submitPrice (.signed 2) 100 1, .initializeBlock]

/-- **Transit is lost**: the slash of the answer that is paid out leaves transit twice. -/
theorem transit_lost : ¬ ∀ ops : List (Op Nat Nat),
    Along (step sample) (KeepsSlash sample) (State.genesis sampleLedger) ops → ∀ s' w,
      run (step sample) (State.genesis sampleLedger) ops = some s' →
        s'.transitOf w = s'.pending w := by
  intro hall
  have hview : (run (step sample) (State.genesis sampleLedger) doubleOps).map
      (fun s' : State Nat Nat => (s'.transitOf 2, s'.pending 2)) = some (0, 5) := by
    decide +kernel
  obtain ⟨s', hrun, hs'⟩ := Option.map_eq_some_iff.mp hview
  obtain ⟨htransit, hpending⟩ := Prod.mk.inj hs'
  have hexact := hall doubleOps (by decide +kernel) s' 2 hrun
  omega

end Oracle
end Composable
