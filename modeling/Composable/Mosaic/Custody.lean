import Composable.Mosaic.Effect
import Composable.Support.Tally

/-!
# `Mosaic.Custody` — funds in flight

Funds on their way in or out sit in a custody account until they are claimed, rescinded,
accepted or returned, and the pallet keeps one pending amount per account and asset. As long as
custody accounts are different and nobody pays into them from outside, the custody account holds
exactly what is pending, and what is pending is what came in less what went out:
`incoming_conserved` and `outgoing_conserved`.

The pending amount is the only witness of what the custody account holds: a rescind of more than is
pending saturates the record, but the ledger refuses to burn what is not there and the call is
rolled back. A ledger may burn more than it is told, though, when what is left is too little to keep
the account; the record of the pallet does not follow it then (`incoming_not_held`).
-/

namespace Composable
namespace Mosaic

variable {A X N R : Type} [DecidableEq A] [DecidableEq X] [DecidableEq N] [DecidableEq R]
variable {cfg : Config A X} {users : Set A} {s s' : State A X N R} {op : Op A X N R}

/-! ## Pending amounts -/

section Pending

variable {m : StorageDoubleMap A X (Nat × Nat)} {a b : A} {x y : X} {amount lock : Nat}

theorem pendingIn_put : pendingIn (m.put a x (amount, lock)) b y =
    if b = a ∧ y = x then amount else pendingIn m b y := by
  rw [pendingIn, StorageDoubleMap.get_put]
  split
  · rfl
  · rfl

theorem pendingIn_remove :
    pendingIn (m.remove a x) b y = if b = a ∧ y = x then 0 else pendingIn m b y := by
  rw [pendingIn, StorageDoubleMap.get_remove]
  split
  · rfl
  · rfl

omit [DecidableEq A] in
theorem pendingIn_of_get (h : m.get a x = some (amount, lock)) : pendingIn m a x = amount := by
  rw [pendingIn, h]
  rfl

/-- Taking `amount` out of a pending entry, which goes when nothing is left. -/
theorem pendingIn_taken {balance : Nat} :
    pendingIn (if amount = balance then m.remove a x else m.put a x (balance - amount, lock)) b y =
      if b = a ∧ y = x then balance - amount else pendingIn m b y := by
  split
  · rename_i h
    rw [pendingIn_remove, h, Nat.sub_self]
  · rw [pendingIn_put]

end Pending

/-! ## Totals -/

/-- What the operation mints for `a`. -/
def mintedFor (cfg : Config A X) (a : A) (x : X) (s : State A X N R) : Op A X N R → Nat
  | .timelockedMint origin n r to_ amount lockTime =>
      if Returns cfg s (.timelockedMint origin n r to_ amount lockTime) ∧ to_ = a ∧
        s.remoteToLocalAsset.get r n = some x then amount else 0
  | _ => 0

/-- What the operation pays out to `a` of what was minted. -/
def claimedBy (cfg : Config A X) (a : A) (x : X) (s : State A X N R) : Op A X N R → Nat
  | .claimTo origin y to_ =>
      if Returns cfg s (.claimTo origin y to_) ∧ origin = .signed a ∧ y = x then
        pendingIn s.incomingTransactions a x
      else 0
  | _ => 0

/-- What the operation burns of what was minted for `a`. -/
def rescindedFrom (cfg : Config A X) (a : A) (x : X) (s : State A X N R) : Op A X N R → Nat
  | .rescindTimelockedMint origin n r account amount =>
      if Returns cfg s (.rescindTimelockedMint origin n r account amount) ∧ account = a ∧
        s.remoteToLocalAsset.get r n = some x then amount else 0
  | _ => 0

/-- What the operation sends for `a` to another chain. -/
def sentBy (cfg : Config A X) (a : A) (x : X) (s : State A X N R) : Op A X N R → Nat
  | .transferTo origin n y amount keepAlive =>
      if Returns cfg s (.transferTo origin n y amount keepAlive) ∧ origin = .signed a ∧
        y = x then amount
      else 0
  | _ => 0

/-- What the operation burns of what `a` has sent. -/
def acceptedFrom (cfg : Config A X) (a : A) (x : X) (s : State A X N R) : Op A X N R → Nat
  | .acceptTransfer origin from_ n r amount =>
      if Returns cfg s (.acceptTransfer origin from_ n r amount) ∧ from_ = a ∧
        s.remoteToLocalAsset.get r n = some x then amount else 0
  | _ => 0

/-- What the operation returns to `a` of what it has sent. -/
def returnedTo (cfg : Config A X) (a : A) (x : X) (s : State A X N R) : Op A X N R → Nat
  | .claimStaleTo origin y to_ =>
      if Returns cfg s (.claimStaleTo origin y to_) ∧ origin = .signed a ∧ y = x then
        pendingIn s.outgoingTransactions a x
      else 0
  | _ => 0

/-! ## Custody accounts -/

/-- The custody accounts of different users and directions are different. -/
def Distinct (cfg : Config A X) (users : Set A) : Prop :=
  ∀ {k k' a a'}, a ∈ users → a' ∈ users → cfg.subAccountId k a = cfg.subAccountId k' a' →
    k = k' ∧ a = a'

/-- The user whose pending amounts an operation is about. -/
def Op.user : Op A X N R → Option A
  | .transferTo (.signed a) _ _ _ _ | .claimStaleTo (.signed a) _ _
  | .claimTo (.signed a) _ _ => some a
  | .acceptTransfer _ a _ _ _ | .timelockedMint _ _ _ a _ _
  | .rescindTimelockedMint _ _ _ a _ => some a
  | _ => none

/-- The operation is about one of the users, if any. -/
def Op.Of (users : Set A) (op : Op A X N R) : Prop := ∀ a, op.user = some a → a ∈ users

/-- The operation is not signed by a custody account, for which there is no key. -/
def Op.ByUser (cfg : Config A X) (users : Set A) : Op A X N R → Prop
  | .transferTo origin _ _ _ _ =>
      ∀ who, origin = .signed who → ∀ k, ∀ a ∈ users, who ≠ cfg.subAccountId k a
  | _ => True

/-- The operation does not pay to a custody account. -/
def Op.PaysUser (cfg : Config A X) (users : Set A) : Op A X N R → Prop
  | .claimTo _ _ to_ | .claimStaleTo _ _ to_ => ∀ k, ∀ a ∈ users, to_ ≠ cfg.subAccountId k a
  | _ => True

/-- Custody accounts are left to the pallet. -/
def Op.Clean (cfg : Config A X) (users : Set A) (op : Op A X N R) : Prop :=
  op.Of users ∧ op.ByUser cfg users ∧ op.PaysUser cfg users

/-- A burn from a custody account of the direction destroys what it is told to and nothing else. -/
def Op.BurnsExactly (cfg : Config A X) (k : TransactionType) (s : State A X N R) : Op A X N R → Prop
  | .rescindTimelockedMint _ n r a amount => k = .incoming → ∀ x ∈ s.remoteToLocalAsset.get r n,
      cfg.currency.SparesBurnt s.ledger x (cfg.incoming a) amount
  | .acceptTransfer _ a n r amount => k = .outgoing → ∀ x ∈ s.remoteToLocalAsset.get r n,
      cfg.currency.SparesBurnt s.ledger x (cfg.outgoing a) amount
  | _ => True

instance (cfg : Config A X) (k : TransactionType) (s : State A X N R) :
    (op : Op A X N R) → Decidable (op.BurnsExactly cfg k s)
  | .rescindTimelockedMint _ _ _ _ _ | .acceptTransfer _ _ _ _ _ =>
      inferInstanceAs (Decidable (_ → ∀ x ∈ _, Currency.SparesBurnt _ _ _ _ _))
  | .setRelayer _ _ | .rotateRelayer _ _ _ | .setNetwork _ _ _ | .setBudget _ _ _ _
  | .setTimelockDuration _ _
  | .updateAssetMapping _ _ _ _ | .transferTo _ _ _ _ _ | .claimStaleTo _ _ _
  | .timelockedMint _ _ _ _ _ _
  | .claimTo _ _ _ | .nextBlock => inferInstanceAs (Decidable True)

/-- The custody accounts of one direction hold what is pending. -/
def Holds (cfg : Config A X) (users : Set A) (k : TransactionType) (l : Ledger A X)
    (m : StorageDoubleMap A X (Nat × Nat)) : Prop :=
  ∀ a ∈ users, ∀ x, l.balance x (cfg.subAccountId k a) = pendingIn m a x

/-- Balances fit into 128 bits: the ledger refuses to mint beyond them. -/
def Capped (cfg : Config A X) : Prop :=
  ∀ {l x a n}, cfg.currency.mintRefused l x a n = none → l.balance x a + n ≤ u128Max

section Holds

variable {k : TransactionType} {l l' : Ledger A X} {m : StorageDoubleMap A X (Nat × Nat)}
  {a b c : A} {x : X}
variable {amount balance lock n : Nat} {keepAlive : Bool}

/-- Only the custody account and the pending amount of `b` in `x` change, and they stay equal. -/
theorem Holds.update (h : Holds cfg users k l m) {m' : StorageDoubleMap A X (Nat × Nat)}
    (hpending : ∀ a y, pendingIn m' a y = if a = b ∧ y = x then n else pendingIn m a y)
    (hchanged : l'.balance x (cfg.subAccountId k b) = n)
    (hkept : ∀ a ∈ users, ∀ y, ¬ (a = b ∧ y = x) →
      l'.balance y (cfg.subAccountId k a) = l.balance y (cfg.subAccountId k a)) :
    Holds cfg users k l' m' := by
  intro a ha y
  rw [hpending]
  by_cases hay : a = b ∧ y = x
  · rw [if_pos hay, hay.1, hay.2, hchanged]
  · rw [if_neg hay, hkept a ha y hay, h a ha y]

/-- Another custody account, or the same one in another asset. -/
theorem Distinct.other (hd : Distinct cfg users) (ha : a ∈ users) (hb : b ∈ users) {y : X}
    (hay : ¬ (a = b ∧ y = x)) : y ≠ x ∨ cfg.subAccountId k a ≠ cfg.subAccountId k b := by
  by_contra hsame
  obtain ⟨hyx, heq⟩ := not_or.mp hsame
  exact hay ⟨(hd ha hb (not_not.mp heq)).2, not_not.mp hyx⟩

/-- Minting into a custody account, and adding the amount to what is pending. -/
theorem Holds.mint (hd : Distinct cfg users) (hb : b ∈ users) (h : Holds cfg users k l m) :
    Holds cfg users k (l.mint x (cfg.subAccountId k b) amount)
      (m.put b x (pendingIn m b x + amount, lock)) := by
  refine h.update (fun _ _ => pendingIn_put) ?_ fun a ha y hay => ?_
  · rw [Ledger.balance_mint, if_pos ⟨rfl, rfl⟩, h b hb x]
  · rcases hd.other ha hb hay with hyx | hne
    · exact Ledger.balance_mint_of_ne_asset hyx
    · exact Ledger.balance_mint_of_ne hne

/-- Paying into a custody account, and adding the amount to what is pending. -/
theorem Holds.receive (hd : Distinct cfg users) (hb : b ∈ users) (h : Holds cfg users k l m)
    (hc : ∀ a ∈ users, c ≠ cfg.subAccountId k a) :
    Holds cfg users k (cfg.currency.paid x c (cfg.subAccountId k b) amount keepAlive l)
      (m.put b x (amount + pendingIn m b x, lock)) := by
  refine h.update (fun _ _ => pendingIn_put) ?_ fun a ha y hay => ?_
  · rw [Currency.balance_paid_of_ne_sender (hc b hb).symm, Ledger.balance_move_to (hc b hb),
      h b hb x, Nat.add_comm]
  · rw [Currency.balance_paid_of_ne_sender (hc a ha).symm]
    rcases hd.other ha hb hay with hyx | hne
    · exact Ledger.balance_move_of_ne_asset hyx
    · exact Ledger.balance_move_of_ne (hc a ha).symm hne

/-- Burning from a custody account what is pending, or a part of it. -/
theorem Holds.burn (hd : Distinct cfg users) (hb : b ∈ users) (h : Holds cfg users k l m)
    (htx : m.get b x = some (balance, lock)) (hfunded : amount ≤ l.free x (cfg.subAccountId k b))
    (hexact : cfg.currency.SparesBurnt l x (cfg.subAccountId k b) amount) :
    amount ≤ balance ∧ Holds cfg users k (cfg.currency.burnt x (cfg.subAccountId k b) amount l)
      (if amount = balance then m.remove b x else m.put b x (balance - amount, lock)) := by
  have hheld : l.balance x (cfg.subAccountId k b) = balance := (h b hb x).trans (pendingIn_of_get htx)
  have hle : amount ≤ balance := by
    rw [← hheld]
    exact Nat.le_trans hfunded (Nat.le_add_right _ _)
  refine ⟨hle, h.update (fun _ _ => pendingIn_taken) ?_ fun a ha y hay => ?_⟩
  · have hburnt := Ledger.balance_burn_add (y := x) (c := cfg.subAccountId k b) hfunded
    rw [if_pos ⟨rfl, rfl⟩] at hburnt
    rw [Currency.burnt_of_spares hexact]
    omega
  · rw [Currency.burnt_of_spares hexact]
    rcases hd.other ha hb hay with hyx | hne
    · exact Ledger.balance_burn_of_ne_asset hyx
    · exact Ledger.balance_burn_of_ne hne

/-- Paying all that is pending out of a custody account, which may die of it. -/
theorem Holds.pay (hd : Distinct cfg users) (hb : b ∈ users) (h : Holds cfg users k l m)
    (htx : m.get b x = some (balance, lock)) (hfunded : balance ≤ l.free x (cfg.subAccountId k b))
    (hc : ∀ a ∈ users, c ≠ cfg.subAccountId k a) :
    Holds cfg users k (cfg.currency.paid x (cfg.subAccountId k b) c balance false l)
      (m.remove b x) := by
  have hheld : l.balance x (cfg.subAccountId k b) = balance := (h b hb x).trans (pendingIn_of_get htx)
  have hnone : (l.move x (cfg.subAccountId k b) c balance).balance x (cfg.subAccountId k b) = 0 := by
    rw [Ledger.balance_move_from (hc b hb).symm hfunded, hheld, Nat.sub_self]
  rw [Currency.paid_of_spares (.inr (.inr (.inr hnone)))]
  refine h.update (fun _ _ => pendingIn_remove) hnone fun a ha y hay => ?_
  rcases hd.other ha hb hay with hyx | hne
  · exact Ledger.balance_move_of_ne_asset hyx
  · exact Ledger.balance_move_of_ne hne (hc a ha).symm

end Holds

/-! ## Calls that fail move nothing -/

section Failed

variable {a : A} {x : X} (h : ¬ Returns cfg s op)

include h

theorem mintedFor_failed : mintedFor cfg a x s op = 0 := by
  cases op <;> first | rfl | exact if_neg fun hc => h hc.1

theorem claimedBy_failed : claimedBy cfg a x s op = 0 := by
  cases op <;> first | rfl | exact if_neg fun hc => h hc.1

theorem rescindedFrom_failed : rescindedFrom cfg a x s op = 0 := by
  cases op <;> first | rfl | exact if_neg fun hc => h hc.1

theorem sentBy_failed : sentBy cfg a x s op = 0 := by
  cases op <;> first | rfl | exact if_neg fun hc => h hc.1

theorem acceptedFrom_failed : acceptedFrom cfg a x s op = 0 := by
  cases op <;> first | rfl | exact if_neg fun hc => h hc.1

theorem returnedTo_failed : returnedTo cfg a x s op = 0 := by
  cases op <;> first | rfl | exact if_neg fun hc => h hc.1

end Failed

/-! ## Incoming funds -/

/-- The custody accounts for incoming transfers hold what is pending. -/
def IncomingHeld (cfg : Config A X) (users : Set A) (s : State A X N R) : Prop :=
  Holds cfg users .incoming s.ledger s.incomingTransactions

/-- One step keeps these accounts exact, and the pending amounts in balance with what is
    minted, claimed and rescinded. -/
structure IncomingStep (cfg : Config A X) (users : Set A) (s : State A X N R) (op : Op A X N R)
    (s' : State A X N R) : Prop where
  held : IncomingHeld cfg users s'
  balanced : ∀ a x, pendingIn s.incomingTransactions a x + mintedFor cfg a x s op =
    pendingIn s'.incomingTransactions a x + (claimedBy cfg a x s op + rescindedFrom cfg a x s op)

section Incoming

variable {origin : RawOrigin A} {n : N} {r : R} {x : X} {b to_ : A} {amount lockTime : Nat}

theorem IncomingHeld.mint (hd : Distinct cfg users) (hcap : Capped cfg)
    (hs : IncomingHeld cfg users s)
    (hto : to_ ∈ users) (h : timelockedMint cfg origin n r to_ amount lockTime s = (.ok (), s')) :
    IncomingStep cfg users s (.timelockedMint origin n r to_ amount lockTime) s' := by
  have hreturns : Returns cfg s (.timelockedMint origin n r to_ amount lockTime) :=
    returns_iff.mpr ⟨_, h⟩
  obtain ⟨y, info, hy, -, -, hminted, rfl⟩ := timelockedMint_ok h
  -- The balance is what is pending, so the sum on the record does not saturate either.
  have hfits : pendingIn s.incomingTransactions to_ y + amount ≤ u128Max := by
    rw [← hs to_ hto y]
    exact hcap hminted
  have hrecord : (s.minted cfg y info to_ amount lockTime).incomingTransactions =
      s.incomingTransactions.put to_ y
        (pendingIn s.incomingTransactions to_ y + amount, min (s.block + lockTime) cfg.maxBlock) := by
    rw [State.minted, Fixed.saturated, Nat.min_eq_left hfits]
  constructor
  · rw [IncomingHeld, hrecord]
    exact Holds.mint hd hto hs
  · intro a x
    rw [hrecord, pendingIn_put]
    simp only [mintedFor, claimedBy, rescindedFrom, hreturns, hy, Option.some.injEq, true_and]
    by_cases hax : a = to_ ∧ x = y
    · obtain ⟨rfl, rfl⟩ := hax
      rw [if_pos ⟨rfl, rfl⟩, if_pos ⟨rfl, rfl⟩]
      omega
    · rw [if_neg hax, if_neg fun hc => hax ⟨hc.1.symm, hc.2.symm⟩]

theorem IncomingHeld.rescind (hd : Distinct cfg users) (hs : IncomingHeld cfg users s)
    (hb : b ∈ users)
    (hexact : (Op.rescindTimelockedMint origin n r b amount : Op A X N R).BurnsExactly cfg
      .incoming s)
    (h : rescindTimelockedMint cfg origin n r b amount s = (.ok (), s')) :
    IncomingStep cfg users s (.rescindTimelockedMint origin n r b amount) s' := by
  have hreturns : Returns cfg s (.rescindTimelockedMint origin n r b amount) := returns_iff.mpr ⟨_, h⟩
  obtain ⟨y, balance, lock, hy, htx, hburnt, rfl⟩ := rescindTimelockedMint_ok h
  have hbalance : pendingIn s.incomingTransactions b y = balance := pendingIn_of_get htx
  -- What is burnt was held, and what was held is what was pending.
  obtain ⟨hle, hheld⟩ :=
    Holds.burn hd hb hs htx (cfg.currency.funded_of_burn hburnt).1 (hexact rfl y hy)
  simp only [eq_comm (a := amount)] at hheld
  refine ⟨hheld, fun a x => ?_⟩
  simp only [eq_comm (a := balance), pendingIn_taken]
  simp only [mintedFor, claimedBy, rescindedFrom, hreturns, hy, Option.some.injEq, true_and]
  by_cases hax : a = b ∧ x = y
  · obtain ⟨rfl, rfl⟩ := hax
    rw [if_pos ⟨rfl, rfl⟩, if_pos ⟨rfl, rfl⟩, hbalance]
    omega
  · rw [if_neg hax, if_neg fun hc => hax ⟨hc.1.symm, hc.2.symm⟩]

theorem IncomingHeld.claim (hd : Distinct cfg users) (hs : IncomingHeld cfg users s)
    (hclean : (Op.claimTo origin x to_ : Op A X N R).Clean cfg users)
    (h : claimTo cfg origin x to_ s = (.ok (), s')) :
    IncomingStep cfg users s (.claimTo origin x to_) s' := by
  have hreturns : Returns cfg s (.claimTo origin x to_) := returns_iff.mpr ⟨_, h⟩
  obtain ⟨caller, balance, lock, rfl, htx, -, hpaid, rfl⟩ := claimTo_ok h
  have hbalance : pendingIn s.incomingTransactions caller x = balance := pendingIn_of_get htx
  have hcaller : caller ∈ users := hclean.1 caller rfl
  refine ⟨Holds.pay hd hcaller hs htx
    (cfg.currency.funded_of_transfer hpaid (hclean.2.2 _ caller hcaller).symm)
    (hclean.2.2 _), fun a y => ?_⟩
  rw [pendingIn_remove]
  simp only [mintedFor, claimedBy, rescindedFrom, hreturns, RawOrigin.signed.injEq, true_and]
  by_cases hay : a = caller ∧ y = x
  · obtain ⟨rfl, rfl⟩ := hay
    rw [if_pos ⟨rfl, rfl⟩, if_pos ⟨rfl, rfl⟩]
    omega
  · rw [if_neg hay, if_neg fun hc => hay ⟨hc.1.symm, hc.2.symm⟩]

end Incoming

/-- **One step keeps incoming funds in balance.** -/
theorem incomingStep (hd : Distinct cfg users) (hcap : Capped cfg) (hs : IncomingHeld cfg users s)
    (hclean : op.Clean cfg users) (hexact : op.BurnsExactly cfg .incoming s)
    (hstep : step cfg s op = some s') : IncomingStep cfg users s op s' := by
  have hother :
      ∀ a ∈ users, ∀ b ∈ users, cfg.subAccountId .incoming a ≠ cfg.subAccountId .outgoing b := by
    intro a ha b hb heq
    cases (hd ha hb heq).1
  cases step_effect hstep with
  | failed h =>
      refine ⟨hs, fun a x => ?_⟩
      rw [mintedFor_failed h, claimedBy_failed h, rescindedFrom_failed h]
  | minted h => exact hs.mint hd hcap (hclean.1 _ rfl) h
  | rescinded h => exact hs.rescind hd (hclean.1 _ rfl) hexact h
  | claimed h => exact hs.claim hd hclean h
  | sent h =>
      obtain ⟨caller, lock, rfl, -, rfl⟩ := transferTo_ok h
      refine ⟨fun a ha x => ?_, fun a x => rfl⟩
      rw [← hs a ha x]
      exact Currency.balance_paid_of_ne (hclean.2.1 caller rfl _ a ha).symm
        (hother a ha caller (hclean.1 caller rfl))
  | @accepted _ b _ _ _ _ h =>
      obtain ⟨y, balance, lock, -, -, -, -, rfl⟩ := acceptTransfer_ok h
      refine ⟨fun a ha x => ?_, fun a x => rfl⟩
      rw [← hs a ha x]
      exact Currency.balance_burnt_of_ne (hother a ha b (hclean.1 b rfl))
  | returned h =>
      obtain ⟨caller, balance, lock, rfl, -, -, -, rfl⟩ := claimStaleTo_ok h
      refine ⟨fun a ha x => ?_, fun a x => rfl⟩
      rw [← hs a ha x]
      exact Currency.balance_paid_of_ne (hother a ha caller (hclean.1 caller rfl))
        (hclean.2.2 _ a ha).symm
  | @mapped _ x n remote _ =>
      obtain ⟨toRemote, toLocal, hmapped⟩ := mapAsset_eq s x n remote
      rw [hmapped]
      exact ⟨hs, fun a x => rfl⟩
  | governed hop relayer networks period =>
      refine ⟨hs, fun a x => ?_⟩
      cases op <;> first | exact absurd hop not_false | rfl
  | advanced h => exact ⟨hs, fun a x => rfl⟩
  | budgeted => exact ⟨hs, fun a x => rfl⟩

/-- **Incoming funds are conserved**: what was minted for an account has been claimed,
    rescinded or is pending, and the custody account holds what is pending, as long as no
    rescind burns more than it is told. -/
theorem incoming_conserved (hd : Distinct cfg users) (hcap : Capped cfg) {ledger : Ledger A X}
    (hempty : ∀ a ∈ users, ∀ x, ledger.balance x (cfg.incoming a) = 0) {ops : List (Op A X N R)}
    (hclean : ∀ op ∈ ops, op.Clean cfg users)
    (hexact : Along (step cfg) (fun s op => op.BurnsExactly cfg .incoming s)
      (State.genesis ledger) ops)
    (hrun : run (step cfg) (State.genesis ledger) ops = some s) {a : A} (ha : a ∈ users) (x : X) :
    tally (step cfg) (mintedFor cfg a x) (State.genesis ledger) ops =
        tally (step cfg) (claimedBy cfg a x) (State.genesis ledger) ops +
          tally (step cfg) (rescindedFrom cfg a x) (State.genesis ledger) ops +
          pendingIn s.incomingTransactions a x ∧
      s.ledger.balance x (cfg.incoming a) = pendingIn s.incomingTransactions a x := by
  have hgenesis : IncomingHeld cfg users (State.genesis ledger : State A X N R) := hempty
  have halong := hexact.and_forall hclean
  have hinv : ∀ {s op s'}, IncomingHeld cfg users (s : State A X N R) →
      op.Clean cfg users ∧ op.BurnsExactly cfg .incoming s → step cfg s op = some s' →
        IncomingHeld cfg users s' :=
    fun hs hop hstep => (incomingStep hd hcap hs hop.1 hop.2 hstep).held
  -- What is minted is pending, until it is claimed or rescinded.
  have hbalanced : pendingIn (State.genesis ledger : State A X N R).incomingTransactions a x +
      tally (step cfg) (mintedFor cfg a x) (State.genesis ledger) ops =
        pendingIn s.incomingTransactions a x +
      tally (step cfg) (fun s op => claimedBy cfg a x s op + rescindedFrom cfg a x s op)
        (State.genesis ledger) ops :=
    run_balanced (P := fun s => pendingIn s.incomingTransactions a x) hinv
      (fun hs hop hstep => (incomingStep hd hcap hs hop.1 hop.2 hstep).balanced a x) hgenesis
        halong hrun
  rw [tally_add] at hbalanced
  have hpending : pendingIn (State.genesis ledger : State A X N R).incomingTransactions a x = 0 := rfl
  refine ⟨?_, run_invariant hinv hgenesis halong hrun a ha x⟩
  omega

/-- The accounts below a thousand are users; none of them is a custody account. -/
theorem sample_distinct : Distinct sample (Set.Iio 1000) := by
  intro k k' a a' _ _ heq
  cases k <;> cases k' <;> simp only [sample] at heq <;> first | exact ⟨rfl, by omega⟩ | omega

/-- Account `4` relays, and asset `1` is mapped to the remote id `50` of network `9`. -/
def bridgeOps : List (Op Nat Nat Nat Nat) :=
  [.setRelayer .root 4, .setNetwork (.signed 4) 9 ⟨true, 1000⟩,
    .updateAssetMapping .root 1 9 (some 50), .setBudget .root 1 1000 (.linear 10)]

/-- Two mints for account `1`, of which a part is rescinded. -/
def mintOps : List (Op Nat Nat Nat Nat) :=
  bridgeOps ++ [.timelockedMint (.signed 4) 9 50 1 100 5, .timelockedMint (.signed 4) 9 50 1 50 5,
    .rescindTimelockedMint (.signed 4) 9 50 1 30, .rescindTimelockedMint (.signed 4) 9 50 1 500]

/-- A hundred and twenty are left, which are more than the deposit of ten. -/
theorem incoming_conserved_sample : ∃ s,
    run (step sampleReaping) (State.genesis Ledger.empty) mintOps = some s ∧
      tally (step sampleReaping) (mintedFor sampleReaping 1 1) (State.genesis Ledger.empty)
        mintOps = 150 ∧
      tally (step sampleReaping) (mintedFor sampleReaping 1 1) (State.genesis Ledger.empty) mintOps =
        tally (step sampleReaping) (claimedBy sampleReaping 1 1)
          (State.genesis Ledger.empty) mintOps +
          tally (step sampleReaping) (rescindedFrom sampleReaping 1 1)
            (State.genesis Ledger.empty) mintOps +
          pendingIn s.incomingTransactions 1 1 ∧
      s.ledger.balance 1 (sampleReaping.incoming 1) = pendingIn s.incomingTransactions 1 1 := by
  have hminted : tally (step sampleReaping) (mintedFor sampleReaping 1 1)
      (State.genesis Ledger.empty) mintOps = 150 := by
    decide +kernel
  have hclean : ∀ op ∈ mintOps, op.Clean sampleReaping (Set.Iio 1000) := by
    simp [mintOps, bridgeOps, Op.Clean, Op.Of, Op.user, Op.ByUser, Op.PaysUser]
  have hexact : Along (step sampleReaping) (fun s op => op.BurnsExactly sampleReaping .incoming s)
      (State.genesis Ledger.empty) mintOps := by
    decide +kernel
  have hreturns : (run (step sampleReaping) (State.genesis Ledger.empty) mintOps).isSome =
    true := by decide +kernel
  obtain ⟨s, hs⟩ := Option.isSome_iff_exists.mp hreturns
  have hdistinct : Distinct sampleReaping (Set.Iio 1000) := sample_distinct
  have hcapped : Capped sampleReaping := Currency.le_of_capped
  exact ⟨s, hs, hminted, incoming_conserved hdistinct hcapped (fun _ _ _ => rfl) hclean hexact hs
    (Set.mem_Iio.mpr (by decide)) 1⟩

/-- All but five of a hundred are rescinded. -/
def dustOps : List (Op Nat Nat Nat Nat) :=
  bridgeOps ++ [.timelockedMint (.signed 4) 9 50 1 100 5,
    .rescindTimelockedMint (.signed 4) 9 50 1 95]

/-- The five are too little for the custody account to stay alive: they are pending, and gone. -/
theorem incoming_not_held : ¬ ∀ (ops : List (Op Nat Nat Nat Nat)) s,
    (∀ op ∈ ops, op.Clean sampleReaping (Set.Iio 1000)) →
    run (step sampleReaping) (State.genesis Ledger.empty) ops = some s → ∀ a ∈ Set.Iio 1000, ∀ x,
      tally (step sampleReaping) (mintedFor sampleReaping a x) (State.genesis Ledger.empty) ops =
          tally (step sampleReaping) (claimedBy sampleReaping a x) (State.genesis Ledger.empty) ops +
            tally (step sampleReaping) (rescindedFrom sampleReaping a x)
              (State.genesis Ledger.empty) ops +
            pendingIn s.incomingTransactions a x ∧
        s.ledger.balance x (sampleReaping.incoming a) = pendingIn s.incomingTransactions a x := by
  intro h
  have hview : (run (step sampleReaping) (State.genesis Ledger.empty) dustOps).map
      (fun s => (s.ledger.balance 1 (sampleReaping.incoming 1),
        pendingIn s.incomingTransactions 1 1)) =
      some (0, 5) := by
    decide +kernel
  have hclean : ∀ op ∈ dustOps, op.Clean sampleReaping (Set.Iio 1000) := by
    simp [dustOps, bridgeOps, Op.Clean, Op.Of, Op.user, Op.ByUser, Op.PaysUser]
  obtain ⟨s, hrun, hs⟩ := Option.map_eq_some_iff.mp hview
  obtain ⟨hbalance, hpending⟩ := Prod.mk.inj hs
  have hheld := (h dustOps s hclean hrun 1 (Set.mem_Iio.mpr (by decide)) 1).2
  rw [hbalance, hpending] at hheld
  cases hheld

/-! ## Outgoing funds -/

/-- The custody accounts for outgoing transfers hold what is pending. -/
def OutgoingHeld (cfg : Config A X) (users : Set A) (s : State A X N R) : Prop :=
  Holds cfg users .outgoing s.ledger s.outgoingTransactions

/-- One step keeps these accounts exact, and the pending amounts in balance with what is
    sent, accepted and returned. -/
structure OutgoingStep (cfg : Config A X) (users : Set A) (s : State A X N R) (op : Op A X N R)
    (s' : State A X N R) : Prop where
  held : OutgoingHeld cfg users s'
  balanced : ∀ a x, pendingIn s.outgoingTransactions a x + sentBy cfg a x s op =
    pendingIn s'.outgoingTransactions a x + (acceptedFrom cfg a x s op + returnedTo cfg a x s op)

section Outgoing

variable {origin : RawOrigin A} {n : N} {r : R} {x : X} {b to_ : A} {amount : Nat} {keepAlive : Bool}

theorem OutgoingHeld.send (hd : Distinct cfg users) (hs : OutgoingHeld cfg users s)
    (hclean : (Op.transferTo origin n x amount keepAlive : Op A X N R).Clean cfg users)
    (h : transferTo cfg origin n x amount keepAlive s = (.ok (), s')) :
    OutgoingStep cfg users s (.transferTo origin n x amount keepAlive) s' := by
  have hreturns : Returns cfg s (.transferTo origin n x amount keepAlive) := returns_iff.mpr ⟨_, h⟩
  obtain ⟨caller, lock, rfl, -, rfl⟩ := transferTo_ok h
  refine ⟨Holds.receive hd (hclean.1 caller rfl) hs (hclean.2.1 caller rfl _), fun a y => ?_⟩
  rw [pendingIn_put]
  simp only [sentBy, acceptedFrom, returnedTo, hreturns, RawOrigin.signed.injEq, true_and]
  by_cases hay : a = caller ∧ y = x
  · obtain ⟨rfl, rfl⟩ := hay
    rw [if_pos ⟨rfl, rfl⟩, if_pos ⟨rfl, rfl⟩]
    omega
  · rw [if_neg hay, if_neg fun hc => hay ⟨hc.1.symm, hc.2.symm⟩]

theorem OutgoingHeld.accept (hd : Distinct cfg users) (hs : OutgoingHeld cfg users s) (hb : b ∈ users)
    (hexact : (Op.acceptTransfer origin b n r amount : Op A X N R).BurnsExactly cfg .outgoing s)
    (h : acceptTransfer cfg origin b n r amount s = (.ok (), s')) :
    OutgoingStep cfg users s (.acceptTransfer origin b n r amount) s' := by
  have hreturns : Returns cfg s (.acceptTransfer origin b n r amount) := returns_iff.mpr ⟨_, h⟩
  obtain ⟨y, balance, lock, hy, htx, hle, hburnt, rfl⟩ := acceptTransfer_ok h
  have hbalance : pendingIn s.outgoingTransactions b y = balance := pendingIn_of_get htx
  refine ⟨(Holds.burn hd hb hs htx (cfg.currency.funded_of_burn hburnt).1 (hexact rfl y hy)).2,
    fun a x => ?_⟩
  rw [pendingIn_taken]
  simp only [sentBy, acceptedFrom, returnedTo, hreturns, hy, Option.some.injEq, true_and]
  by_cases hax : a = b ∧ x = y
  · obtain ⟨rfl, rfl⟩ := hax
    rw [if_pos ⟨rfl, rfl⟩, if_pos ⟨rfl, rfl⟩, hbalance]
    omega
  · rw [if_neg hax, if_neg fun hc => hax ⟨hc.1.symm, hc.2.symm⟩]

theorem OutgoingHeld.claim (hd : Distinct cfg users) (hs : OutgoingHeld cfg users s)
    (hclean : (Op.claimStaleTo origin x to_ : Op A X N R).Clean cfg users)
    (h : claimStaleTo cfg origin x to_ s = (.ok (), s')) :
    OutgoingStep cfg users s (.claimStaleTo origin x to_) s' := by
  have hreturns : Returns cfg s (.claimStaleTo origin x to_) := returns_iff.mpr ⟨_, h⟩
  obtain ⟨caller, balance, lock, rfl, htx, -, hpaid, rfl⟩ := claimStaleTo_ok h
  have hbalance : pendingIn s.outgoingTransactions caller x = balance := pendingIn_of_get htx
  have hcaller : caller ∈ users := hclean.1 caller rfl
  refine ⟨Holds.pay hd hcaller hs htx
    (cfg.currency.funded_of_transfer hpaid (hclean.2.2 _ caller hcaller).symm)
    (hclean.2.2 _), fun a y => ?_⟩
  rw [pendingIn_remove]
  simp only [sentBy, acceptedFrom, returnedTo, hreturns, RawOrigin.signed.injEq, true_and]
  by_cases hay : a = caller ∧ y = x
  · obtain ⟨rfl, rfl⟩ := hay
    rw [if_pos ⟨rfl, rfl⟩, if_pos ⟨rfl, rfl⟩]
    omega
  · rw [if_neg hay, if_neg fun hc => hay ⟨hc.1.symm, hc.2.symm⟩]

end Outgoing

/-- **One step keeps outgoing funds in balance.** -/
theorem outgoingStep (hd : Distinct cfg users) (hs : OutgoingHeld cfg users s)
    (hclean : op.Clean cfg users)
    (hexact : op.BurnsExactly cfg .outgoing s) (hstep : step cfg s op = some s') :
    OutgoingStep cfg users s op s' := by
  have hother :
      ∀ a ∈ users, ∀ b ∈ users, cfg.subAccountId .outgoing a ≠ cfg.subAccountId .incoming b := by
    intro a ha b hb heq
    cases (hd ha hb heq).1
  cases step_effect hstep with
  | failed h =>
      refine ⟨hs, fun a x => ?_⟩
      rw [sentBy_failed h, acceptedFrom_failed h, returnedTo_failed h]
  | sent h => exact hs.send hd hclean h
  | accepted h => exact hs.accept hd (hclean.1 _ rfl) hexact h
  | returned h => exact hs.claim hd hclean h
  | @minted _ _ _ b _ _ _ h =>
      obtain ⟨y, info, -, -, -, -, rfl⟩ := timelockedMint_ok h
      refine ⟨fun a ha x => ?_, fun a x => rfl⟩
      exact (Ledger.balance_mint_of_ne (hother a ha b (hclean.1 b rfl))).trans (hs a ha x)
  | @rescinded _ _ _ b _ _ h =>
      obtain ⟨y, balance, lock, -, -, -, rfl⟩ := rescindTimelockedMint_ok h
      refine ⟨fun a ha x => ?_, fun a x => rfl⟩
      exact (Currency.balance_burnt_of_ne (hother a ha b (hclean.1 b rfl))).trans (hs a ha x)
  | claimed h =>
      obtain ⟨caller, balance, lock, rfl, -, -, -, rfl⟩ := claimTo_ok h
      refine ⟨fun a ha x => ?_, fun a x => rfl⟩
      exact (Currency.balance_paid_of_ne (hother a ha caller (hclean.1 caller rfl))
        (hclean.2.2 _ a ha).symm).trans
        (hs a ha x)
  | @mapped _ x n remote _ =>
      obtain ⟨toRemote, toLocal, hmapped⟩ := mapAsset_eq s x n remote
      rw [hmapped]
      exact ⟨hs, fun a x => rfl⟩
  | governed hop relayer networks period =>
      refine ⟨hs, fun a x => ?_⟩
      cases op <;> first | exact absurd hop not_false | rfl
  | advanced h => exact ⟨hs, fun a x => rfl⟩
  | budgeted => exact ⟨hs, fun a x => rfl⟩

/-- **Outgoing funds are conserved**: what an account has sent was accepted, was returned or
    is pending, and the custody account holds what is pending, as long as nothing is burnt
    beyond what is accepted. -/
theorem outgoing_conserved (hd : Distinct cfg users) {ledger : Ledger A X}
    (hempty : ∀ a ∈ users, ∀ x, ledger.balance x (cfg.outgoing a) = 0) {ops : List (Op A X N R)}
    (hclean : ∀ op ∈ ops, op.Clean cfg users)
    (hexact : Along (step cfg) (fun s op => op.BurnsExactly cfg .outgoing s)
      (State.genesis ledger) ops)
    (hrun : run (step cfg) (State.genesis ledger) ops = some s) {a : A} (ha : a ∈ users) (x : X) :
    tally (step cfg) (sentBy cfg a x) (State.genesis ledger) ops =
        tally (step cfg) (acceptedFrom cfg a x) (State.genesis ledger) ops +
          tally (step cfg) (returnedTo cfg a x) (State.genesis ledger) ops +
          pendingIn s.outgoingTransactions a x ∧
      s.ledger.balance x (cfg.outgoing a) = pendingIn s.outgoingTransactions a x := by
  have hgenesis : OutgoingHeld cfg users (State.genesis ledger : State A X N R) := hempty
  have halong := hexact.and_forall hclean
  have hinv : ∀ {s op s'}, OutgoingHeld cfg users (s : State A X N R) →
      op.Clean cfg users ∧ op.BurnsExactly cfg .outgoing s → step cfg s op = some s' →
        OutgoingHeld cfg users s' :=
    fun hs hop hstep => (outgoingStep hd hs hop.1 hop.2 hstep).held
  -- What is sent is pending, until it is accepted or returned.
  have hbalanced : pendingIn (State.genesis ledger : State A X N R).outgoingTransactions a x +
      tally (step cfg) (sentBy cfg a x) (State.genesis ledger) ops =
        pendingIn s.outgoingTransactions a x +
      tally (step cfg) (fun s op => acceptedFrom cfg a x s op + returnedTo cfg a x s op)
        (State.genesis ledger) ops :=
    run_balanced (P := fun s => pendingIn s.outgoingTransactions a x) hinv
      (fun hs hop hstep => (outgoingStep hd hs hop.1 hop.2 hstep).balanced a x) hgenesis halong hrun
  rw [tally_add] at hbalanced
  have hpending : pendingIn (State.genesis ledger : State A X N R).outgoingTransactions a x = 0 := rfl
  refine ⟨?_, run_invariant hinv hgenesis halong hrun a ha x⟩
  omega

/-- Account `1` sends a hundred of asset `1`, of which the relayer accepts a part. -/
def sendOps : List (Op Nat Nat Nat Nat) :=
  bridgeOps ++ [.transferTo (.signed 1) 9 1 100 true, .acceptTransfer (.signed 4) 1 9 50 40]

/-- A ledger in which account `1` has asset `1`. -/
def sendLedger : Ledger Nat Nat := Ledger.ofList [(1, 1, 500)]

theorem balance_sendLedger {a : Nat} (h : a ≠ 1) (x : Nat) : sendLedger.balance x a = 0 := by
  simp [sendLedger, Ledger.balance, Ledger.ofList, h.symm]

/-- Account `1` is no custody account. -/
theorem sample_user (k : TransactionType) (a : Nat) : 1 ≠ sample.subAccountId k a := by
  cases k <;> simp only [sample] <;> omega

/-- Sixty are left, which are more than the deposit of ten. -/
theorem outgoing_conserved_sample : ∃ s,
    run (step sampleReaping) (State.genesis sendLedger) sendOps = some s ∧
      tally (step sampleReaping) (sentBy sampleReaping 1 1) (State.genesis sendLedger) sendOps = 100 ∧
      tally (step sampleReaping) (sentBy sampleReaping 1 1) (State.genesis sendLedger) sendOps =
        tally (step sampleReaping) (acceptedFrom sampleReaping 1 1)
          (State.genesis sendLedger) sendOps +
          tally (step sampleReaping) (returnedTo sampleReaping 1 1)
            (State.genesis sendLedger) sendOps +
          pendingIn s.outgoingTransactions 1 1 ∧
      s.ledger.balance 1 (sampleReaping.outgoing 1) = pendingIn s.outgoingTransactions 1 1 := by
  have hsent : tally (step sampleReaping) (sentBy sampleReaping 1 1) (State.genesis sendLedger)
      sendOps = 100 := by
    decide +kernel
  have hclean : ∀ op ∈ sendOps, op.Clean sampleReaping (Set.Iio 1000) := by
    simp [sendOps, bridgeOps, Op.Clean, Op.Of, Op.user, Op.ByUser, Op.PaysUser]
    exact fun k a _ => sample_user k a
  have hempty : ∀ a ∈ Set.Iio 1000, ∀ x, sendLedger.balance x (sampleReaping.outgoing a) = 0 :=
    fun a _ x =>
    balance_sendLedger (sample_user .outgoing a).symm x
  have hexact : Along (step sampleReaping) (fun s op => op.BurnsExactly sampleReaping .outgoing s)
      (State.genesis sendLedger) sendOps := by
    decide +kernel
  have hreturns : (run (step sampleReaping) (State.genesis sendLedger) sendOps).isSome = true := by
    decide +kernel
  obtain ⟨s, hs⟩ := Option.isSome_iff_exists.mp hreturns
  have hdistinct : Distinct sampleReaping (Set.Iio 1000) := sample_distinct
  exact ⟨s, hs, hsent, outgoing_conserved hdistinct hempty hclean hexact hs
    (Set.mem_Iio.mpr (by decide)) 1⟩

/-- Account `1` claims its stale transfer back into its own custody account `1003`. -/
def staleOps : List (Op Nat Nat Nat Nat) :=
  bridgeOps ++ [.transferTo (.signed 1) 9 1 100 true] ++ List.replicate 21 .nextBlock ++
    [.claimStaleTo (.signed 1) 1 1003]

/-- A stale claim that pays into the custody account leaves funds there for
    which nothing is pending. -/
theorem outgoing_not_held : ¬ ∀ (ops : List (Op Nat Nat Nat Nat)) s,
    (∀ op ∈ ops, op.Of (Set.Iio 1000) ∧ op.ByUser sample (Set.Iio 1000)) →
    run (step sample) (State.genesis sendLedger) ops = some s → ∀ a ∈ Set.Iio 1000, ∀ x,
      tally (step sample) (sentBy sample a x) (State.genesis sendLedger) ops =
          tally (step sample) (acceptedFrom sample a x) (State.genesis sendLedger) ops +
            tally (step sample) (returnedTo sample a x) (State.genesis sendLedger) ops +
            pendingIn s.outgoingTransactions a x ∧
        s.ledger.balance x (sample.outgoing a) = pendingIn s.outgoingTransactions a x := by
  intro h
  have hview : (run (step sample) (State.genesis sendLedger) staleOps).map
      (fun s => (s.ledger.balance 1 (sample.outgoing 1), pendingIn s.outgoingTransactions 1 1)) =
      some (100, 0) := by
    decide +kernel
  have huser : ∀ op ∈ staleOps, op.Of (Set.Iio 1000) ∧ op.ByUser sample (Set.Iio 1000) := by
    simp [staleOps, bridgeOps, Op.Of, Op.user, Op.ByUser, sample_user]
  obtain ⟨s, hrun, hs⟩ := Option.map_eq_some_iff.mp hview
  obtain ⟨hbalance, hpending⟩ := Prod.mk.inj hs
  have hheld := (h staleOps s huser hrun 1 (Set.mem_Iio.mpr (by decide)) 1).2
  rw [hbalance, hpending] at hheld
  cases hheld

end Mosaic
end Composable
