import Composable.Oracle.Model
import Composable.Support.Run

/-!
# `Oracle.Aggregation` — what happens to an asset at the start of a block

`on_initialize` takes the assets in turn. Of an asset with enough answers the stale ones are
dropped, the others are cut to the most there can be, and if there are still enough of them the
median becomes the price and every answer is paid out.

`Turn` lists what one turn can do, with the exact storage it leaves, and `updateAsset_turn` says
that there is nothing else. Along the way the slash of an asset is taken out of transit for some
accounts: for those in `Config.unpriced` while pruning, and for the paid ones. Which accounts these
should have been is the subject of `Oracle.Transit`.
-/

namespace Composable
namespace Oracle

variable {A X : Type} [DecidableEq A] [DecidableEq X]
variable {cfg : Config A X} {s s' t : State A X} {x : X} {info : AssetInfo} {block price slash : Nat}
variable {w : A} {whos : List A} {ps : List (PrePrice A)} {u : Unit}

/-! ## Building blocks -/

omit [DecidableEq A] [DecidableEq X] in
@[simp] theorem onLedger_ok {α : Type} {call : Call (Ledger A Unit) TokenError α} {a : α} :
    (onLedger call : OracleCall A X α) s = (.ok a, s') ↔
      ∃ l, call s.ledger = (.ok a, l) ∧ s' = { s with ledger := l } := Call.zoom_ok

omit [DecidableEq A] [DecidableEq X] in
@[simp] theorem onLedger_outcome {α : Type} {call : Call (Ledger A Unit) TokenError α}
    {P : α → State A X → Prop} {Q : DispatchError Error → State A X → Prop} :
    Call.Outcome P Q (onLedger call s) ↔
      Call.Outcome (fun a l => P a { s with ledger := l })
        (fun e l => Q (.token e) { s with ledger := l })
        (call s.ledger) := Call.outcome_zoom

/-- What is in transit for an account. -/
def State.transitOf (s : State A X) (w : A) : Nat := (s.answerInTransit w).getD 0

/-- The answers that wait for an asset. -/
def State.answers (s : State A X) (x : X) : List (PrePrice A) := s.prePrices.getD x []

omit [DecidableEq X] in
theorem transitOf_removeTransit :
    (s.removeTransit w slash).transitOf = Function.update s.transitOf w (s.transitOf w - slash) := by
  funext v
  unfold State.transitOf State.removeTransit
  by_cases hv : v = w
  · subst hv
    simp
  · simp [hv]

omit [DecidableEq X] in
theorem transitOf_addTransit :
    (s.addTransit w slash).transitOf =
      Function.update s.transitOf w (Fixed.saturated (s.transitOf w + slash)) := by
  funext v
  unfold State.transitOf State.addTransit
  by_cases hv : v = w
  · subst hv
    simp
  · simp [hv]

/-- The slash leaves transit once for every account in the list. -/
def State.removeTransits (s : State A X) (whos : List A) (slash : Nat) : State A X :=
  { s with
    answerInTransit := whos.foldl
      (fun transit w => Function.update transit w (some ((transit w).getD 0 - slash)))
        s.answerInTransit }

omit [DecidableEq X] in
theorem removeTransits_cons :
    s.removeTransits (w :: whos) slash = (s.removeTransit w slash).removeTransits whos slash := rfl

omit [DecidableEq X] in
theorem removeTransits_append {whos' : List A} :
    s.removeTransits (whos ++ whos') slash = (s.removeTransits whos slash).removeTransits whos'
      slash := by
  unfold State.removeTransits
  rw [List.foldl_append]

omit [DecidableEq X] in
theorem transitOf_removeTransits :
    (s.removeTransits whos slash).transitOf w = s.transitOf w - slash * whos.count w := by
  induction whos generalizing s with
  | nil => rfl
  | cons v whos ih =>
      rw [removeTransits_cons, ih, transitOf_removeTransit, List.count_cons]
      by_cases hv : v = w
      · subst hv
        rw [Function.update_self, beq_self_eq_true, if_pos rfl, Nat.sub_sub, Nat.mul_add, Nat.mul_one,
          Nat.add_comm slash]
      · rw [Function.update_of_ne (Ne.symm hv), beq_false_of_ne hv, if_neg Bool.false_ne_true,
          Nat.add_zero]

omit [DecidableEq X] in
theorem forEach_removePriceInTransit (s : State A X) (ps : List (PrePrice A)) :
    Call.forEach ps (fun p => removePriceInTransit p.who info) s =
      (.ok (), s.removeTransits (ps.map PrePrice.who) info.slash) := by
  induction ps generalizing s with
  | nil => rfl
  | cons p ps ih => exact ih (s.removeTransit p.who info.slash)

/-! ## Pruning -/

/-- The answers from the first fresh one on. -/
def Config.fresh (cfg : Config A X) (block : Nat) (ps : List (PrePrice A)) : List (PrePrice A) :=
  ps.dropWhile fun p => p.block < cfg.staleBlock block

/-- The answers that are kept. -/
def Config.kept (cfg : Config A X) (info : AssetInfo) (block : Nat) (ps : List (PrePrice A)) :
    List (PrePrice A) :=
  (cfg.fresh block ps).take info.maxAnswers

/-- The accounts for which pruning takes the slash out of transit: that of the first fresh answer,
    and if there are too many answers those of the last ones, as many as are kept. -/
def Config.unpriced (cfg : Config A X) (info : AssetInfo) (block : Nat) (ps : List (PrePrice A)) :
    List A :=
  let fresh := cfg.fresh block ps
  (fresh.head?.toList ++
    if info.maxAnswers < fresh.length then
      fresh.drop (fresh.length - info.maxAnswers) else []).map PrePrice.who

omit [DecidableEq X] in
/-- Pruning always returns. -/
theorem pruneOldPrePrices_eq (s : State A X) : pruneOldPrePrices cfg info ps block s =
    (.ok (ps.takeWhile fun p => p.block < cfg.staleBlock block, cfg.kept info block ps),
      s.removeTransits (cfg.unpriced info block ps) info.slash) := by
  unfold pruneOldPrePrices Config.kept Config.unpriced Config.fresh
  generalize (ps.dropWhile fun p => decide (p.block < cfg.staleBlock block)) = fresh
  let first := s.removeTransits (fresh.head?.toList.map PrePrice.who) info.slash
  refine (Call.bind_of_ok (?_ : _ = (Except.ok (), first))).trans ?_
  · cases fresh with
    | nil => rfl
    | cons first rest => rfl
  by_cases hmany : info.maxAnswers < fresh.length
  · simp only [if_pos hmany]
    rw [Call.bind_of_ok (forEach_removePriceInTransit _ _), List.map_append, removeTransits_append]
    rfl
  · simp only [if_neg hmany, List.append_nil]
    rw [List.take_of_length_le (Nat.le_of_not_lt hmany)]
    rfl

/-! ## Payout -/

/-- What paying out one answer does to the balances. -/
def Config.paidOut (cfg : Config A X) (controllers : A → Option A) (price : Nat) (info : AssetInfo)
    (l : Ledger A Unit) (answer : PrePrice A) : Ledger A Unit :=
  if cfg.accuracy answer.price price < info.threshold then l.slash () answer.who info.slash
  else
    let controller := (controllers answer.who).getD answer.who
    if cfg.currency.mintRefused l () controller info.reward = none then
      l.mint () controller info.reward
    else l

omit [DecidableEq X] in
/-- A reward is deposited if the ledger accepts it. -/
theorem orElse_mintInto (s : State A X) (a : A) (n : Nat) :
    Call.orElse (onLedger (cfg.currency.mintInto () a n) : OracleCall A X Unit)
      (pure () : OracleCall A X Unit) s =
      (.ok (), { s with
        ledger := if cfg.currency.mintRefused s.ledger () a n = none then s.ledger.mint () a n
          else s.ledger }) := by
  unfold Call.orElse onLedger Call.zoom Currency.mintInto Currency.commit
  cases hrefused : cfg.currency.mintRefused s.ledger () a n with
  | none =>
      rw [if_pos rfl]
      simp only [hrefused]
  | some e =>
      rw [if_neg (Option.some_ne_none e)]
      simp only [hrefused]
      rfl

omit [DecidableEq X] in
/-- Paying out one answer always returns. -/
theorem payAnswer_eq (s : State A X) (answer : PrePrice A) : payAnswer cfg price info answer s =
    (.ok (), { s.removeTransit answer.who info.slash with
      ledger := cfg.paidOut s.signerToController price info s.ledger answer }) := by
  unfold payAnswer Config.paidOut
  rw [Call.get_bind]
  by_cases hslashed : cfg.accuracy answer.price price < info.threshold
  · simp only [if_pos hslashed]
    rfl
  · simp only [if_neg hslashed]
    rw [Call.bind_of_ok (orElse_mintInto s _ _)]
    rfl

omit [DecidableEq X] in
/-- So does the payout. -/
theorem handlePayout_eq (s : State A X) (ps : List (PrePrice A)) :
    handlePayout cfg ps price info s =
      (.ok (), { s.removeTransits (ps.map PrePrice.who) info.slash with
        ledger := ps.foldl (cfg.paidOut s.signerToController price info) s.ledger }) := by
  unfold handlePayout
  induction ps generalizing s with
  | nil => rfl
  | cons answer ps ih =>
      show (payAnswer cfg price info answer >>= fun _ => Call.forEach ps (payAnswer cfg price info))
        s = _
      rw [Call.bind_of_ok (payAnswer_eq s answer), ih]
      rfl

/-! ## Turns -/

omit [DecidableEq A] [DecidableEq X] in
/-- There is a median as soon as there is an answer. -/
theorem getMedianPrice_eq_none : getMedianPrice ps = none ↔ ps = [] := by
  unfold getMedianPrice
  simp only [List.length_insertionSort, List.length_map, List.length_eq_zero_iff]
  constructor
  · intro h
    by_contra hne
    rw [if_neg hne] at h
    split at h <;> cases h
  · intro h
    rw [if_pos h]

/-- The storage after the answers of an asset were pruned. -/
def State.pruned (s : State A X) (cfg : Config A X) (block : Nat) (x : X) (info : AssetInfo) :
    State A X :=
  { s.removeTransits (cfg.unpriced info block (s.answers x)) info.slash with
    prePrices := s.prePrices.insert x (cfg.kept info block (s.answers x)) }

/-- The storage after an asset got a price, before the payout. -/
def State.priced (s : State A X) (x : X) (price : Price) (history : List Price) : State A X :=
  { s with
    prices := Function.update s.prices x (some price)
    priceHistory := Function.update s.priceHistory x history
    prePrices := s.prePrices.erase x }

/-- The storage after the payout. -/
def State.paidOut (s : State A X) (cfg : Config A X) (ps : List (PrePrice A)) (price : Nat)
    (info : AssetInfo) : State A X :=
  { s.removeTransits (ps.map PrePrice.who) info.slash with
    ledger := ps.foldl (cfg.paidOut s.signerToController price info) s.ledger }

section Fields

variable {ps : List (PrePrice A)} {history : List Price} {p : Price} {n : Nat}

@[simp] theorem State.assetsInfo_pruned : (s.pruned cfg block x info).assetsInfo = s.assetsInfo := rfl

omit [DecidableEq A] in
@[simp] theorem State.assetsInfo_priced : (s.priced x p history).assetsInfo = s.assetsInfo := rfl

omit [DecidableEq X] in
@[simp] theorem State.assetsInfo_paidOut : (s.paidOut cfg ps n info).assetsInfo = s.assetsInfo := rfl

end Fields

/-- The asset gets a price in its turn, and its answers are paid out. -/
structure PaysOut (cfg : Config A X) (block : Nat) (s : State A X) (x : X) (info : AssetInfo)
    (price : Nat) (history : List Price) : Prop where
  info_eq : s.assetsInfo.lookup x = some info
  enough : info.minAnswers ≤ (s.answers x).length
  fits : (cfg.kept info block (s.answers x)).length ≤ cfg.maxPrePrices
  still : info.minAnswers ≤ (cfg.kept info block (s.answers x)).length
  price_eq : getMedianPrice (cfg.kept info block (s.answers x)) = some price
  history_eq : cfg.pushHistory (s.priceHistory x) ⟨price, block⟩ = .ok history

/-- What the turn of an asset can do: there are not enough answers; what is left after
    pruning does not fit, or is not enough; the history does not take the new price; or
    everything goes through. -/
inductive Turn (cfg : Config A X) (block : Nat) (x : X) (s : State A X) : State A X → Prop where
  | idle (h : ∀ info', s.assetsInfo.lookup x = some info' → (s.answers x).length < info'.minAnswers) :
      Turn cfg block x s s
  | unstored {info : AssetInfo} (hinfo : s.assetsInfo.lookup x = some info)
      (henough : info.minAnswers ≤ (s.answers x).length)
      (hlong : cfg.maxPrePrices < (cfg.kept info block (s.answers x)).length) :
      Turn cfg block x s (s.removeTransits (cfg.unpriced info block (s.answers x)) info.slash)
  | pruned {info : AssetInfo} (hinfo : s.assetsInfo.lookup x = some info)
      (henough : info.minAnswers ≤ (s.answers x).length)
      (hfew : (cfg.kept info block (s.answers x)).length < info.minAnswers ∨
        cfg.kept info block (s.answers x) = []) :
      Turn cfg block x s (s.pruned cfg block x info)
  | unrecorded {info : AssetInfo} {price : Nat} {e : DispatchError Error}
      (hinfo : s.assetsInfo.lookup x = some info) (henough : info.minAnswers ≤ (s.answers x).length)
      (hprice : getMedianPrice (cfg.kept info block (s.answers x)) = some price)
      (hhistory : cfg.pushHistory (s.priceHistory x) ⟨price, block⟩ = .error e)
        (hpanic : e ≠ .panic) :
      Turn cfg block x s { s.pruned cfg block x info with
        prices := Function.update s.prices x (some ⟨price, block⟩) }
  | paid {info : AssetInfo} {price : Nat} {history : List Price}
      (h : PaysOut cfg block s x info price history) :
      Turn cfg block x s (((s.pruned cfg block x info).priced x ⟨price, block⟩ history).paidOut cfg
        (cfg.kept info block (s.answers x)) price info)

/-- The two halves of a turn, whether they fail or not. -/
theorem updatePrice_turn (hinfo : s.assetsInfo.lookup x = some info) :
    Call.Outcome (fun _ => Turn cfg block x s) (fun e t => e ≠ .panic → Turn cfg block x s t)
      ((updatePrePrices cfg x info block >>= fun ps => updatePrice cfg x info block ps) s) := by
  rw [Call.outcome_bind]
  unfold updatePrePrices
  rw [Call.get_bind]
  have hanswers : s.prePrices.getD x [] = s.answers x := rfl
  rw [hanswers]
  by_cases henough : info.minAnswers ≤ (s.answers x).length
  · simp only [if_pos henough]
    rw [Call.bind_of_ok (pruneOldPrePrices_eq s)]
    simp only [Call.outcome_bind, Call.outcome_ensure, Call.outcome_modify, Call.outcome_pure]
    refine ⟨fun hfits => ?_, fun hlong _ => .unstored hinfo henough (Nat.lt_of_not_le hlong)⟩
    show Call.Outcome _ _ (updatePrice cfg x info block (cfg.kept info block (s.answers x))
      (s.pruned cfg block x info))
    unfold updatePrice
    by_cases hstill : info.minAnswers ≤ (cfg.kept info block (s.answers x)).length
    · rw [if_pos hstill]
      cases hprice : getMedianPrice (cfg.kept info block (s.answers x)) with
      | none =>
          rw [Call.outcome_pure]
          exact .pruned hinfo henough (.inr (getMedianPrice_eq_none.mp hprice))
      | some price =>
          simp only [Call.outcome_bind, Call.outcome_modify, Call.get_bind, Call.outcome_ofExcept]
          refine ⟨fun history hhistory => ?_, fun e hhistory hpanic => ?_⟩
          · show Call.Outcome _ _ (handlePayout cfg (cfg.kept info block (s.answers x)) price info
              ((s.pruned cfg block x info).priced x ⟨price, block⟩ history))
            rw [handlePayout_eq]
            exact .paid ⟨hinfo, henough, hfits, hstill, hprice, hhistory⟩
          · exact .unrecorded hinfo henough hprice hhistory hpanic
    · rw [if_neg hstill, Call.outcome_pure]
      exact .pruned hinfo henough (.inl (Nat.lt_of_not_le hstill))
  · simp only [if_neg henough]
    rw [Call.outcome_pure]
    have hidle : Turn cfg block x s s := by
      refine .idle fun info' hinfo' => ?_
      obtain rfl := Option.some.inj (hinfo.symm.trans hinfo')
      exact Nat.lt_of_not_le henough
    unfold updatePrice
    split
    · exact hidle
    · exact hidle

/-- **A turn is one of these.** -/
theorem updateAsset_turn (h : updateAsset cfg block x s = (.ok u, s')) : Turn cfg block x s s' := by
  unfold updateAsset at h
  rw [Call.get_bind] at h
  cases hinfo : s.assetsInfo.lookup x with
  | none =>
      rw [hinfo] at h
      rw [(Call.pure_ok.mp h).2]
      exact .idle fun info hsome => absurd (hinfo.symm.trans hsome) (by simp)
  | some info =>
      rw [hinfo] at h
      have hturn :
          Call.Outcome (fun _ => Turn cfg block x s) (fun e t => e ≠ .panic → Turn cfg block x s t)
          ((updatePrePrices cfg x info block >>= fun ps => updatePrice cfg x info block ps) s) :=
        updatePrice_turn hinfo
      rcases Call.orElse_pure_ok h with hok | ⟨e, hpanic, herror⟩
      · exact (Call.outcome_iff.mp hturn).1 () s' hok
      · exact (Call.outcome_iff.mp hturn).2 e s' herror hpanic

/-! ## Blocks -/

/-- The turn of an asset, as a step. -/
def turn (cfg : Config A X) (block : Nat) (s : State A X) (x : X) : Option (State A X) :=
  Call.success (updateAsset cfg block x) s

theorem turn_cases (h : turn cfg block s x = some s') : Turn cfg block x s s' := by
  obtain ⟨u, hu⟩ := Call.success_eq_some.mp h
  exact updateAsset_turn hu

/-- The storage when the turns of a block begin. -/
def State.nextBlock (s : State A X) : State A X := { s with block := s.block + 1 }

/-- The assets in the order of their turns. -/
def Config.assets (cfg : Config A X) (s : State A X) : List X := cfg.iteration s.assetsInfo.keys

/-- **The start of a block is a run of turns.** -/
theorem initializeBlock_ok : initializeBlock cfg s = (.ok u, s') ↔
    s.block < cfg.maxBlock ∧ run (turn cfg (s.block + 1)) s.nextBlock (cfg.assets s) = some s' := by
  unfold initializeBlock updatePrices
  simp only [Call.get_bind, Call.bind_ok, Call.ensure_ok, Call.modify_ok]
  constructor
  · rintro ⟨_, _, ⟨hlt, rfl⟩, _, _, rfl, hloop⟩
    exact ⟨hlt, forEach_run.mp hloop⟩
  · rintro ⟨hlt, hrun⟩
    exact ⟨(), s, ⟨hlt, rfl⟩, (), s.nextBlock, rfl, forEach_run.mpr hrun⟩

/-- Who stakes for whom, and how much. -/
structure Stakes (A : Type) where
  signerToController : A → Option A
  controllerToSigner : A → Option A
  declaredWithdraws : A → Option Withdraw
  oracleStake : A → Option Nat

def State.stakes (s : State A X) : Stakes A :=
  ⟨s.signerToController, s.controllerToSigner, s.declaredWithdraws, s.oracleStake⟩

/-- A turn leaves the stakes, the assets and the block number alone. -/
theorem Turn.frame (h : Turn cfg block x s s') :
    s'.stakes = s.stakes ∧ s'.assetsInfo = s.assetsInfo ∧ s'.block = s.block := by
  cases h with
  | idle _ => exact ⟨rfl, rfl, rfl⟩
  | unstored _ _ _ => exact ⟨rfl, rfl, rfl⟩
  | pruned _ _ _ => exact ⟨rfl, rfl, rfl⟩
  | unrecorded _ _ _ _ _ => exact ⟨rfl, rfl, rfl⟩
  | @paid info price history _ =>
      have hpaid (t : State A X) (ps : List (PrePrice A)) :
          (t.paidOut cfg ps price info).stakes = t.stakes ∧
          (t.paidOut cfg ps price info).assetsInfo = t.assetsInfo ∧
            (t.paidOut cfg ps price info).block = t.block := ⟨rfl, rfl, rfl⟩
      exact hpaid _ _

/-- So does the start of a block, but for the block number. -/
theorem initializeBlock_frame (h : initializeBlock cfg s = (.ok u, s')) :
    s'.stakes = s.stakes ∧ s'.assetsInfo = s.assetsInfo ∧ s'.block = s.block + 1 := by
  obtain ⟨-, hrun⟩ := initializeBlock_ok.mp h
  refine run_invariant (C := fun _ _ => True)
    (I := fun t => t.stakes = s.stakes ∧ t.assetsInfo = s.assetsInfo ∧ t.block = s.block + 1)
    (fun ht _ hturn => ?_) ⟨rfl, rfl, rfl⟩ (along_true _ _) hrun
  obtain ⟨hstakes, hinfo, hblock⟩ := (turn_cases hturn).frame
  exact ⟨hstakes.trans ht.1, hinfo.trans ht.2.1, hblock.trans ht.2.2⟩

end Oracle
end Composable
