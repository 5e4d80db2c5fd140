import Composable.Support.Call
import Mathlib.Order.Basic
import Mathlib.Tactic.SplitIfs

/-!
# `Support.Ledger` — a multi-asset ledger with holds

Balances of accounts `A` in assets `X`, each split into a free and a reserved part, and the issuance
of every asset. The native currency is one of the assets.

Whether an operation is accepted belongs to the ledger's implementation (existential deposits,
locks, unknown assets), so a `Currency` is a family of refusals together with the laws every
implementation keeps: an accepted operation was funded. A transfer that need not keep its sender
alive, and a burn, may also end the life of the account they take from, when they leave it too
little: what is left then goes too. Which accounts an implementation `reaps` so is its own affair;
one that reaps none is `Exact`, and its operations take their amounts and nothing else.

`Currency.existential` is the exact implementation with one existential deposit per asset, and
`Currency.reaping` the same one with accounts that die.
-/

namespace Composable

/-- Free and reserved balances, and issuance, by asset. -/
structure Ledger (A X : Type) where
  free : X → A → Nat
  reserved : X → A → Nat
  issuance : X → Nat

namespace Ledger

variable {A X : Type} [DecidableEq A] [DecidableEq X]

/-- The empty ledger. -/
def empty : Ledger A X := ⟨fun _ _ => 0, fun _ _ => 0, fun _ => 0⟩

/-- A ledger in which the listed accounts hold the listed free amounts, by asset. -/
def ofList (entries : List (X × A × Nat)) : Ledger A X where
  free x a := (entries.filter fun e => e.1 = x ∧ e.2.1 = a).foldl (fun n e => n + e.2.2) 0
  reserved := fun _ _ => 0
  issuance x := (entries.filter fun e => e.1 = x).foldl (fun n e => n + e.2.2) 0

/-- `fungibles::Inspect::balance`: free and reserved together. -/
def balance (l : Ledger A X) (x : X) (a : A) : Nat := l.free x a + l.reserved x a

/-! ## Effects -/

/-- Move `n` of the free balance from `a` to `b`; nothing happens between an account and itself. -/
def move (x : X) (a b : A) (n : Nat) (l : Ledger A X) : Ledger A X :=
  { l with
    free := fun y c =>
      if a = b then l.free y c
      else l.free y c - (if y = x ∧ c = a then n else 0) + (if y = x ∧ c = b then n else 0) }

/-- Create `n` for `a`. -/
def mint (x : X) (a : A) (n : Nat) (l : Ledger A X) : Ledger A X :=
  { l with
    free := fun y c => l.free y c + (if y = x ∧ c = a then n else 0)
    issuance := fun y => l.issuance y + (if y = x then n else 0) }

/-- Destroy `n` of the free balance of `a`. -/
def burn (x : X) (a : A) (n : Nat) (l : Ledger A X) : Ledger A X :=
  { l with
    free := fun y c => l.free y c - (if y = x ∧ c = a then n else 0)
    issuance := fun y => l.issuance y - (if y = x then n else 0) }

/-- Move `n` of `a` from free to reserved. -/
def lock (x : X) (a : A) (n : Nat) (l : Ledger A X) : Ledger A X :=
  { l with
    free := fun y c => l.free y c - (if y = x ∧ c = a then n else 0)
    reserved := fun y c => l.reserved y c + (if y = x ∧ c = a then n else 0) }

/-- Move up to `n` of `a` from reserved to free. -/
def unlock (x : X) (a : A) (n : Nat) (l : Ledger A X) : Ledger A X :=
  { l with
    free := fun y c => l.free y c + (if y = x ∧ c = a then min n (l.reserved x a) else 0)
    reserved := fun y c => l.reserved y c - (if y = x ∧ c = a then n else 0) }

/-- Destroy up to `n` of `a`: of the free balance, and when that runs out of the reserved one. -/
def slash (x : X) (a : A) (n : Nat) (l : Ledger A X) : Ledger A X where
  free y c := l.free y c - (if y = x ∧ c = a then n else 0)
  reserved y c := l.reserved y c - (if y = x ∧ c = a then n - l.free x a else 0)
  issuance y := l.issuance y - (if y = x then min n (l.balance x a) else 0)

/-- The account `a` dies in the asset `x`, and what it has left leaves the ledger. -/
def sweep (x : X) (a : A) (l : Ledger A X) : Ledger A X where
  free y c := if y = x ∧ c = a then 0 else l.free y c
  reserved y c := if y = x ∧ c = a then 0 else l.reserved y c
  issuance y := l.issuance y - (if y = x then l.balance x a else 0)

section Fields

variable (l : Ledger A X) (x y : X) (a b c : A) (n : Nat)

theorem free_move : (l.move x a b n).free y c =
    if a = b then l.free y c
    else l.free y c - (if y = x ∧ c = a then n else 0) + (if y = x ∧ c = b then n else 0) := rfl

@[simp] theorem reserved_move : (l.move x a b n).reserved = l.reserved := rfl

@[simp] theorem issuance_move : (l.move x a b n).issuance = l.issuance := rfl

@[simp] theorem free_mint : (l.mint x a n).free y c =
    l.free y c + (if y = x ∧ c = a then n else 0) := rfl

@[simp] theorem reserved_mint : (l.mint x a n).reserved = l.reserved := rfl

@[simp] theorem issuance_mint : (l.mint x a n).issuance y =
    l.issuance y + (if y = x then n else 0) := rfl

@[simp] theorem free_burn : (l.burn x a n).free y c =
    l.free y c - (if y = x ∧ c = a then n else 0) := rfl

@[simp] theorem reserved_burn : (l.burn x a n).reserved = l.reserved := rfl

@[simp] theorem issuance_burn : (l.burn x a n).issuance y =
    l.issuance y - (if y = x then n else 0) := rfl

@[simp] theorem free_lock : (l.lock x a n).free y c =
    l.free y c - (if y = x ∧ c = a then n else 0) := rfl

@[simp] theorem reserved_lock : (l.lock x a n).reserved y c =
    l.reserved y c + (if y = x ∧ c = a then n else 0) := rfl

@[simp] theorem issuance_lock : (l.lock x a n).issuance = l.issuance := rfl

@[simp] theorem free_unlock : (l.unlock x a n).free y c =
    l.free y c + (if y = x ∧ c = a then min n (l.reserved x a) else 0) := rfl

@[simp] theorem reserved_unlock : (l.unlock x a n).reserved y c =
    l.reserved y c - (if y = x ∧ c = a then n else 0) := rfl

@[simp] theorem issuance_unlock : (l.unlock x a n).issuance = l.issuance := rfl

@[simp] theorem free_sweep : (l.sweep x a).free y c = if y = x ∧ c = a then 0 else l.free y c := rfl

@[simp] theorem reserved_sweep :
    (l.sweep x a).reserved y c = if y = x ∧ c = a then 0 else l.reserved y c := rfl

/-- An account that dies has nothing left. -/
theorem balance_sweep : (l.sweep x a).balance y c = if y = x ∧ c = a then 0 else l.balance y c := by
  show (if _ then 0 else _) + (if _ then 0 else _) = _
  split_ifs <;> rfl

@[simp] theorem reserved_slash : (l.slash x a n).reserved y c =
    l.reserved y c - (if y = x ∧ c = a then n - l.free x a else 0) := rfl

/-- Releasing nothing changes nothing. -/
theorem unlock_zero : l.unlock x a 0 = l := by
  simp [unlock]

/-- Burning nothing changes nothing. -/
theorem burn_zero : l.burn x a 0 = l := by
  simp [burn]

/-- Transferring nothing changes nothing. -/
theorem move_zero : l.move x a b 0 = l := by
  simp [move]

/-- So does a transfer to oneself. -/
theorem move_self : l.move x a a n = l := by
  simp [move]

/-- Releasing a reservation leaves the balance alone. -/
@[simp] theorem balance_unlock : (l.unlock x a n).balance y c = l.balance y c := by
  simp only [balance, free_unlock, reserved_unlock]
  split_ifs with h
  · obtain ⟨rfl, rfl⟩ := h
    omega
  · rfl

end Fields

section Balances

variable {l : Ledger A X} {x y : X} {a b c : A} {n : Nat}

/-- An account that is not the sender only gains. -/
theorem free_move_of_ne_source (ha : c ≠ a) :
    (l.move x a b n).free y c = l.free y c + (if y = x ∧ c = b then n else 0) := by
  rw [free_move]
  split_ifs <;> simp_all

/-- The recipient has what it had and what is paid to it. -/
theorem free_move_to (h : a ≠ b) : (l.move x a b n).free x b = l.free x b + n := by
  rw [free_move_of_ne_source h.symm, if_pos ⟨rfl, rfl⟩]

theorem le_free_move_of_ne (ha : c ≠ a) : l.free y c ≤ (l.move x a b n).free y c := by
  rw [free_move_of_ne_source ha]
  exact Nat.le_add_right _ _

/-- An account that is not the recipient only loses. -/
theorem free_move_of_ne_dest (hb : c ≠ b) :
    (l.move x a b n).free y c = l.free y c - (if y = x ∧ c = a then n else 0) := by
  rw [free_move]
  split_ifs <;> simp_all

/-- A transfer takes from nobody but the sender, and from the sender at most its amount. -/
theorem le_free_move : l.free y c ≤ (l.move x a b n).free y c + (if y = x ∧ c = a then n else 0) := by
  rw [free_move]
  split_ifs <;> omega

/-- A transfer between other accounts leaves a balance alone. -/
theorem balance_move_of_ne (ha : c ≠ a) (hb : c ≠ b) :
    (l.move x a b n).balance y c = l.balance y c := by
  simp [balance, free_move, ha, hb]

/-- Nothing leaves with an account that has nothing. -/
theorem sweep_of_nothing (h : l.balance x a = 0) : l.sweep x a = l := by
  obtain ⟨hfree, hreserved⟩ := Nat.add_eq_zero_iff.mp h
  obtain ⟨free, reserved, issuance⟩ := l
  unfold sweep
  congr 1
  · funext y c
    split_ifs with hyc
    · rw [hyc.1, hyc.2]
      exact hfree.symm
    · rfl
  · funext y c
    split_ifs with hyc
    · rw [hyc.1, hyc.2]
      exact hreserved.symm
    · rfl
  · funext y
    rw [h, ite_self, Nat.sub_zero]

theorem balance_move_to (h : a ≠ b) : (l.move x a b n).balance x b = l.balance x b + n := by
  simp only [balance, free_move, reserved_move, h, h.symm, and_false, if_false, and_self, if_true]
  omega

theorem balance_move_from (h : a ≠ b) (hn : n ≤ l.free x a) :
    (l.move x a b n).balance x a = l.balance x a - n := by
  simp only [balance, free_move, reserved_move, h, and_false, if_false, and_self, if_true]
  omega

/-- A funded transfer takes from one balance what it adds to the other. -/
theorem balance_move_add (h : a ≠ b → n ≤ l.free y a) :
    (l.move y a b n).balance x c + (if x = y ∧ c = a then n else 0) =
      l.balance x c + if x = y ∧ c = b then n else 0 := by
  by_cases hab : a = b
  · rw [hab, move_self]
  · have hn := h hab
    simp only [balance, free_move, if_neg hab, reserved_move]
    split_ifs with hfrom hto hto
    · exact absurd (hfrom.2.symm.trans hto.2) hab
    · rw [hfrom.1, hfrom.2]
      omega
    · omega
    · omega

/-- A transfer takes at most its amount from any account. -/
theorem le_balance_move : l.balance y c ≤ (l.move x a b n).balance y c + n := by
  simp only [balance, free_move, reserved_move]
  split_ifs <;> omega

/-- It takes nothing from an account that does not pay it. -/
theorem le_balance_move_of_ne (h : c ≠ a) : l.balance y c ≤ (l.move x a b n).balance y c := by
  simp only [balance, free_move, reserved_move, h, and_false, if_false]
  split_ifs <;> omega

theorem balance_mint_of_ne (h : c ≠ a) : (l.mint x a n).balance y c = l.balance y c := by
  simp [balance, h]

theorem balance_mint_of_ne_asset (h : y ≠ x) : (l.mint x a n).balance y c = l.balance y c := by
  simp [balance, h]

theorem balance_burn_of_ne (h : c ≠ a) : (l.burn x a n).balance y c = l.balance y c := by
  simp [balance, h]

theorem balance_move_of_ne_asset (h : y ≠ x) : (l.move x a b n).balance y c = l.balance y c := by
  simp [balance, free_move, h]

theorem balance_burn_of_ne_asset (h : y ≠ x) : (l.burn x a n).balance y c = l.balance y c := by
  simp [balance, h]

theorem balance_mint :
    (l.mint x a n).balance y c = l.balance y c + if y = x ∧ c = a then n else 0 := by
  rw [balance, free_mint, reserved_mint, Nat.add_right_comm]
  rfl

/-- A funded burn takes what it destroys. -/
theorem balance_burn_add (hn : n ≤ l.free x a) :
    (l.burn x a n).balance y c + (if y = x ∧ c = a then n else 0) = l.balance y c := by
  simp only [balance, free_burn, reserved_burn]
  split_ifs with h
  · obtain ⟨rfl, rfl⟩ := h
    omega
  · rfl

/-- Reserving what is free leaves the balance alone. -/
theorem balance_lock (hn : n ≤ l.free x a) : (l.lock x a n).balance y c = l.balance y c := by
  simp only [balance, free_lock, reserved_lock]
  split_ifs with h
  · obtain ⟨rfl, rfl⟩ := h
    omega
  · rfl

theorem balance_lock_of_ne (h : c ≠ a) : (l.lock x a n).balance y c = l.balance y c := by
  simp [balance, h]

/-- A transfer changes nothing exactly if it moves nothing between two accounts. -/
theorem move_eq_self_iff : l.move x a b n = l ↔ a = b ∨ n = 0 := by
  constructor
  · intro h
    by_cases hab : a = b
    · exact .inl hab
    · have hfree : (l.move x a b n).free x b = l.free x b := by rw [h]
      rw [free_move_to hab] at hfree
      exact .inr (by omega)
  · rintro (rfl | rfl)
    · exact move_self ..
    · exact move_zero ..

theorem unlock_eq_self_iff : l.unlock x a n = l ↔ n = 0 ∨ l.reserved x a = 0 := by
  constructor
  · intro h
    have hreserved : (l.unlock x a n).reserved x a = l.reserved x a := by rw [h]
    simp only [reserved_unlock, and_self, if_true] at hreserved
    omega
  · intro h
    have hmin : min n (l.reserved x a) = 0 := by omega
    have hreserved : ∀ y c, l.reserved y c - (if y = x ∧ c = a then n else 0) = l.reserved y c := by
      intro y c
      split_ifs with hyc
      · rw [hyc.1, hyc.2]
        omega
      · exact Nat.sub_zero _
    simp [unlock, hmin, hreserved]

end Balances

/-! ## Ledgers that agree on some assets -/

/-- The balances of the assets in `P` are the same. -/
def AgreeOn (P : X → Prop) (l l' : Ledger A X) : Prop :=
  ∀ x, P x → l'.free x = l.free x ∧ l'.reserved x = l.reserved x

section AgreeOn

variable {P : X → Prop} {l l' l'' : Ledger A X} {x : X} {a b : A} {n : Nat}

omit [DecidableEq A] [DecidableEq X] in
theorem AgreeOn.refl (l : Ledger A X) : AgreeOn P l l := fun _ _ => ⟨rfl, rfl⟩

omit [DecidableEq A] [DecidableEq X] in
theorem AgreeOn.trans (h : AgreeOn P l l') (h' : AgreeOn P l' l'') : AgreeOn P l l'' := fun x hx =>
  ⟨(h' x hx).1.trans (h x hx).1, (h' x hx).2.trans (h x hx).2⟩

/-- A transfer leaves the other assets alone. -/
theorem agreeOn_move (h : ¬ P x) : AgreeOn P l (l.move x a b n) := by
  intro y hy
  have hne : y ≠ x := fun heq => h (heq ▸ hy)
  refine ⟨?_, rfl⟩
  funext c
  simp [free_move, hne]

theorem agreeOn_lock (h : ¬ P x) : AgreeOn P l (l.lock x a n) := by
  intro y hy
  have hne : y ≠ x := fun heq => h (heq ▸ hy)
  constructor <;> funext c <;> simp [hne]

/-- A transfer of nothing, too. -/
theorem agreeOn_move_of_zero (h : P x → n = 0) : AgreeOn P l (l.move x a b n) := by
  by_cases hx : P x
  · rw [h hx, move_zero]
    exact .refl l
  · exact agreeOn_move hx

end AgreeOn

end Ledger

/-! ## Implementations -/

/-- What an implementation of the ledger refuses, and with which error; `none` accepts. -/
structure Currency (A X : Type) where
  transferRefused : Ledger A X → X → A → A → Nat → Bool → Option TokenError
  mintRefused : Ledger A X → X → A → Nat → Option TokenError
  burnRefused : Ledger A X → X → A → Nat → Option TokenError
  holdRefused : Ledger A X → X → A → Nat → Option TokenError
  withdrawRefused : Ledger A X → X → A → Nat → Option TokenError
  depositRefused : Ledger A X → X → A → Nat → Option TokenError
  /-- `reducible_balance`: what may leave an account, with or without keeping it alive. -/
  reducible : Ledger A X → X → A → Bool → Nat
  /-- Whether an account that is left with so much, free and reserved, dies. -/
  reaps : X → Nat → Nat → Bool
  funded_of_transfer : ∀ {l x a b n k}, transferRefused l x a b n k = none → a ≠ b → n ≤ l.free x a
  funded_of_burn : ∀ {l x a n}, burnRefused l x a n = none → n ≤ l.free x a ∧ n ≤ l.issuance x
  funded_of_hold : ∀ {l x a n}, holdRefused l x a n = none → n ≤ l.free x a
  reducible_le : ∀ {l x a k}, reducible l x a k ≤ l.free x a

namespace Currency

variable {A X : Type} [DecidableEq A] [DecidableEq X] (C : Currency A X)

/-- Accept or refuse, and on acceptance apply the effect. -/
def commit (refused : Ledger A X → Option TokenError) (effect : Ledger A X → Ledger A X) :
    Call (Ledger A X) TokenError Unit := fun l =>
  match refused l with
  | some e => (.error e, l)
  | none => (.ok (), effect l)

/-- The account dies if what it has left is too little. -/
def reap (x : X) (a : A) (l : Ledger A X) : Ledger A X :=
  if C.reaps x (l.free x a) (l.reserved x a) = true then l.sweep x a else l

/-- The ledger after an accepted transfer: nothing, or one to oneself, touches no account. -/
def paid (x : X) (a b : A) (n : Nat) (keepAlive : Bool) (l : Ledger A X) : Ledger A X :=
  if keepAlive = true ∨ n = 0 ∨ a = b then l.move x a b n else C.reap x a (l.move x a b n)

/-- The ledger after an accepted burn, which destroys at least its amount. -/
def burnt (x : X) (a : A) (n : Nat) (l : Ledger A X) : Ledger A X :=
  if n = 0 then l.burn x a n else C.reap x a (l.burn x a n)

/-- `transfer(x, a, b, n, keep_alive)`. -/
def transfer (x : X) (a b : A) (n : Nat) (keepAlive : Bool) : Call (Ledger A X) TokenError Unit :=
  commit (fun l => C.transferRefused l x a b n keepAlive) (C.paid x a b n keepAlive)

def mintInto (x : X) (a : A) (n : Nat) : Call (Ledger A X) TokenError Unit :=
  commit (fun l => C.mintRefused l x a n) (Ledger.mint x a n)

def burnFrom (x : X) (a : A) (n : Nat) : Call (Ledger A X) TokenError Unit :=
  commit (fun l => C.burnRefused l x a n) (C.burnt x a n)

/-- `hold`, and `reserve` of the other interface. -/
def hold (x : X) (a : A) (n : Nat) : Call (Ledger A X) TokenError Unit :=
  commit (fun l => C.holdRefused l x a n) (Ledger.lock x a n)

/-- `unreserve`: releases what it can and never fails. -/
def unreserve (x : X) (a : A) (n : Nat) : Call (Ledger A X) TokenError Unit :=
  Call.modify (Ledger.unlock x a n)

/-- `slash`: takes what it can and never fails. -/
def slash (x : X) (a : A) (n : Nat) : Call (Ledger A X) TokenError Unit :=
  Call.modify (Ledger.slash x a n)

/-- `release`: the amount released; without best effort all of it must be on hold. -/
def release (x : X) (a : A) (n : Nat) (bestEffort : Bool) : Call (Ledger A X) TokenError Nat := do
  let l ← Call.get
  Call.ensure (bestEffort = true ∨ n ≤ l.reserved x a) TokenError.noFunds
  Call.modify (Ledger.unlock x a n)
  pure (min n (l.reserved x a))

/-- `can_withdraw(..).into_result()`. -/
def canWithdraw (x : X) (a : A) (n : Nat) (l : Ledger A X) : Bool :=
  (C.withdrawRefused l x a n).isNone

/-- `can_deposit(..) == DepositConsequence::Success`. -/
def canDeposit (x : X) (a : A) (n : Nat) (l : Ledger A X) : Bool :=
  (C.depositRefused l x a n).isNone

/-- The account does not die, or has nothing to lose by it. -/
def Settled (l : Ledger A X) (x : X) (a : A) : Prop :=
  C.reaps x (l.free x a) (l.reserved x a) = false ∨ l.balance x a = 0

instance (l : Ledger A X) (x : X) (a : A) : Decidable (C.Settled l x a) :=
  inferInstanceAs (Decidable (_ ∨ _))

/-- A transfer costs its sender its amount and nothing else. -/
def Spares (l : Ledger A X) (x : X) (a b : A) (n : Nat) : Prop :=
  n = 0 ∨ a = b ∨ C.Settled (l.move x a b n) x a

instance (l : Ledger A X) (x : X) (a b : A) (n : Nat) : Decidable (C.Spares l x a b n) :=
  inferInstanceAs (Decidable (_ ∨ _ ∨ _))

/-- A burn costs the account its amount and nothing else. -/
def SparesBurnt (l : Ledger A X) (x : X) (a : A) (n : Nat) : Prop :=
  n = 0 ∨ C.Settled (l.burn x a n) x a

instance (l : Ledger A X) (x : X) (a : A) (n : Nat) : Decidable (C.SparesBurnt l x a n) :=
  inferInstanceAs (Decidable (_ ∨ _))

/-- No account of the currency dies: its operations take their amounts and nothing else. -/
class Exact (C : Currency A X) : Prop where
  spares : ∀ x free reserved, C.reaps x free reserved = false

/-- A currency that does what an account can fund: it holds such amounts, and moves them in asset
    `x` between accounts that are left with `spare`. -/
structure Accommodates (x : X) (spare : Nat) : Prop where
  moves : ∀ {l a b n k}, n = 0 ∨ n + spare ≤ l.free x a ∧ spare ≤ l.balance x b →
    C.transferRefused l x a b n k = none
  holds : ∀ {l y a n}, n ≤ l.free y a → C.holdRefused l y a n = none

/-! ## What an accepted operation did -/

variable {C} {l l' : Ledger A X} {x : X} {a b : A} {n : Nat} {k : Bool} {u : Unit}
variable {refused : Ledger A X → Option TokenError} {effect : Ledger A X → Ledger A X}

omit [DecidableEq A] [DecidableEq X] in
theorem settled_of_exact [C.Exact] : C.Settled l x a := .inl (Exact.spares x _ _)

theorem reap_of_settled (h : C.Settled l x a) : C.reap x a l = l := by
  unfold reap
  split_ifs with hdies
  · rcases h with hlives | hnothing
    · exact absurd hdies (by simp [hlives])
    · exact Ledger.sweep_of_nothing hnothing
  · rfl

/-- **A transfer that spares its sender** moves its amount and nothing else. -/
theorem paid_of_spares (h : C.Spares l x a b n) : C.paid x a b n k l = l.move x a b n := by
  unfold paid
  split_ifs with htrivial
  · rfl
  · obtain ⟨-, hn, hab⟩ := not_or.mp htrivial |>.imp_right not_or.mp
    exact reap_of_settled ((h.resolve_left hn).resolve_left hab)

/-- **A burn that spares the account** destroys its amount and nothing else. -/
theorem burnt_of_spares (h : C.SparesBurnt l x a n) : C.burnt x a n l = l.burn x a n := by
  unfold burnt
  split_ifs with hn
  · rfl
  · exact reap_of_settled (h.resolve_left hn)

theorem spares_of_exact [C.Exact] : C.Spares l x a b n := .inr (.inr settled_of_exact)

theorem sparesBurnt_of_exact [C.Exact] : C.SparesBurnt l x a n := .inr settled_of_exact

theorem paid_zero : C.paid x a b 0 k l = l := (paid_of_spares (.inl rfl)).trans (Ledger.move_zero ..)

/-- What is on hold stays so, or goes with its account. -/
theorem reserved_paid (y : X) (c : A) : (C.paid x a b n k l).reserved y c = l.reserved y c ∨
    (¬ C.Spares l x a b n ∧ (C.paid x a b n k l).reserved y c = 0) := by
  by_cases hspares : C.Spares l x a b n
  · rw [paid_of_spares hspares]
    exact .inl rfl
  · unfold paid reap
    split_ifs with htrivial hdies
    · exact .inl rfl
    · rw [Ledger.reserved_sweep]
      split_ifs
      · exact .inr ⟨hspares, rfl⟩
      · exact .inl rfl
    · exact .inl rfl

/-- Only the sender has less afterwards. -/
theorem le_free_paid_of_ne {y : X} {c : A} (hc : c ≠ a) :
    l.free y c ≤ (C.paid x a b n k l).free y c := by
  unfold paid reap
  split_ifs
  · exact Ledger.le_free_move_of_ne hc
  · rw [Ledger.free_sweep, if_neg fun h => hc h.2]
    exact Ledger.le_free_move_of_ne hc
  · exact Ledger.le_free_move_of_ne hc

/-- Only the sender can die. -/
theorem balance_paid_of_ne_sender {y : X} {c : A} (ha : c ≠ a) :
    (C.paid x a b n k l).balance y c = (l.move x a b n).balance y c := by
  unfold paid reap
  split_ifs
  · rfl
  · rw [Ledger.balance_sweep, if_neg fun h => ha h.2]
  · rfl

/-- A burn touches nobody else. -/
theorem balance_burnt_of_ne {y : X} {c : A} (ha : c ≠ a) :
    (C.burnt x a n l).balance y c = l.balance y c := by
  unfold burnt reap
  split_ifs
  · exact Ledger.balance_burn_of_ne ha
  · rw [Ledger.balance_sweep, if_neg fun h => ha h.2, Ledger.balance_burn_of_ne ha]
  · exact Ledger.balance_burn_of_ne ha

/-- Nobody but the sender and the recipient is touched. -/
theorem balance_paid_of_ne {y : X} {c : A} (ha : c ≠ a) (hb : c ≠ b) :
    (C.paid x a b n k l).balance y c = l.balance y c :=
  (balance_paid_of_ne_sender ha).trans (Ledger.balance_move_of_ne ha hb)

@[simp] theorem paid_exact [C.Exact] : C.paid x a b n k l = l.move x a b n :=
  paid_of_spares spares_of_exact

@[simp] theorem burnt_exact [C.Exact] : C.burnt x a n l = l.burn x a n :=
  burnt_of_spares sparesBurnt_of_exact

@[simp] theorem paid_keepAlive : C.paid x a b n true l = l.move x a b n := by
  simp [paid]

omit [DecidableEq A] [DecidableEq X] in
theorem commit_ok :
    commit refused effect l = (.ok u, l') ↔ refused l = none ∧ l' = effect l := by
  unfold commit
  cases refused l with
  | none =>
      simp only [Prod.mk.injEq, true_and]
      exact eq_comm
  | some e => simp

omit [DecidableEq A] [DecidableEq X] in
theorem commit_outcome {P : Unit → Ledger A X → Prop} {Q : TokenError → Ledger A X → Prop} :
    Call.Outcome P Q (commit refused effect l) ↔
      (refused l = none → P () (effect l)) ∧ (∀ e, refused l = some e → Q e l) := by
  unfold commit
  cases refused l with
  | none => simp [Call.Outcome]
  | some e => simp [Call.Outcome]

theorem transfer_paid : C.transfer x a b n k l = (.ok u, l') ↔
    C.transferRefused l x a b n k = none ∧ l' = C.paid x a b n k l := commit_ok

/-- A transfer that keeps its sender alive is exact. -/
@[simp] theorem transfer_keepAlive_ok : C.transfer x a b n true l = (.ok u, l') ↔
    C.transferRefused l x a b n true = none ∧ l' = l.move x a b n := by
  rw [transfer_paid, paid_keepAlive]

@[simp] theorem transfer_ok [C.Exact] : C.transfer x a b n k l = (.ok u, l') ↔
    C.transferRefused l x a b n k = none ∧ l' = l.move x a b n := by
  rw [transfer_paid, paid_exact]

@[simp] theorem mintInto_ok : C.mintInto x a n l = (.ok u, l') ↔
    C.mintRefused l x a n = none ∧ l' = l.mint x a n := commit_ok

theorem burnFrom_burnt : C.burnFrom x a n l = (.ok u, l') ↔
    C.burnRefused l x a n = none ∧ l' = C.burnt x a n l := commit_ok

@[simp] theorem burnFrom_ok [C.Exact] : C.burnFrom x a n l = (.ok u, l') ↔
    C.burnRefused l x a n = none ∧ l' = l.burn x a n := by
  rw [burnFrom_burnt, burnt_exact]

@[simp] theorem hold_ok : C.hold x a n l = (.ok u, l') ↔
    C.holdRefused l x a n = none ∧ l' = l.lock x a n := commit_ok

@[simp] theorem unreserve_ok : unreserve x a n l = (.ok u, l') ↔ l' = l.unlock x a n :=
  Call.modify_ok

@[simp] theorem release_ok {m : Nat} : release x a n k l = (.ok m, l') ↔
    (k = true ∨ n ≤ l.reserved x a) ∧ m = min n (l.reserved x a) ∧ l' = l.unlock x a n := by
  simp [release, and_assoc]

variable {P : Unit → Ledger A X → Prop} {Q : TokenError → Ledger A X → Prop}

theorem transfer_paid_outcome : Call.Outcome P Q (C.transfer x a b n k l) ↔
    (C.transferRefused l x a b n k = none → P () (C.paid x a b n k l)) ∧
      (∀ e, C.transferRefused l x a b n k = some e → Q e l) := commit_outcome

@[simp] theorem transfer_keepAlive_outcome : Call.Outcome P Q (C.transfer x a b n true l) ↔
    (C.transferRefused l x a b n true = none → P () (l.move x a b n)) ∧
      (∀ e, C.transferRefused l x a b n true = some e → Q e l) := by
  rw [transfer_paid_outcome, paid_keepAlive]

@[simp] theorem transfer_outcome [C.Exact] : Call.Outcome P Q (C.transfer x a b n k l) ↔
    (C.transferRefused l x a b n k = none → P () (l.move x a b n)) ∧
      (∀ e, C.transferRefused l x a b n k = some e → Q e l) := by
  rw [transfer_paid_outcome, paid_exact]

@[simp] theorem mintInto_outcome : Call.Outcome P Q (C.mintInto x a n l) ↔
    (C.mintRefused l x a n = none → P () (l.mint x a n)) ∧
      (∀ e, C.mintRefused l x a n = some e → Q e l) := commit_outcome

theorem burnFrom_burnt_outcome : Call.Outcome P Q (C.burnFrom x a n l) ↔
    (C.burnRefused l x a n = none → P () (C.burnt x a n l)) ∧
      (∀ e, C.burnRefused l x a n = some e → Q e l) := commit_outcome

@[simp] theorem burnFrom_outcome [C.Exact] : Call.Outcome P Q (C.burnFrom x a n l) ↔
    (C.burnRefused l x a n = none → P () (l.burn x a n)) ∧
      (∀ e, C.burnRefused l x a n = some e → Q e l) := by
  rw [burnFrom_burnt_outcome, burnt_exact]

@[simp] theorem hold_outcome : Call.Outcome P Q (C.hold x a n l) ↔
    (C.holdRefused l x a n = none → P () (l.lock x a n)) ∧
      (∀ e, C.holdRefused l x a n = some e → Q e l) := commit_outcome

@[simp] theorem unreserve_outcome : Call.Outcome P Q (unreserve x a n l) ↔ P () (l.unlock x a n) :=
  Iff.rfl

/-! ## Existential deposits -/

variable (ed : X → Nat)

/-- A transfer needs the funds, a destination that ends up with an existential deposit, and with
    `keep_alive` a source that keeps one. Nothing, or a transfer to oneself, always passes. -/
def existentialTransfer (l : Ledger A X) (x : X) (a b : A) (n : Nat) (keepAlive : Bool) :
    Option TokenError :=
  if n = 0 ∨ a = b then none
  else if l.free x a < n then some .noFunds
  else if l.balance x b + n < ed x then some .belowMinimum
  else if keepAlive = true ∧ l.balance x a - n < ed x then some .wouldDie
  else none

/-- A new balance must reach the existential deposit. -/
def existentialDeposit (l : Ledger A X) (x : X) (a : A) (n : Nat) : Option TokenError :=
  if n = 0 then none
  else if l.balance x a + n < ed x then some .belowMinimum
  else none

/-- The free balance, and the issuance, must cover what is taken. -/
def existentialWithdraw (l : Ledger A X) (x : X) (a : A) (n : Nat) : Option TokenError :=
  if l.free x a < n ∨ l.issuance x < n then some .noFunds else none

/-- The implementation with existential deposits and nothing else; no account dies. -/
def existential : Currency A X where
  transferRefused := existentialTransfer ed
  mintRefused := existentialDeposit ed
  burnRefused := existentialWithdraw
  holdRefused l x a n := if l.free x a < n then some .noFunds else none
  withdrawRefused := existentialWithdraw
  depositRefused := existentialDeposit ed
  reducible l x a keepAlive :=
    if keepAlive = true then l.free x a - (ed x - l.reserved x a) else l.free x a
  reaps _ _ _ := false
  funded_of_transfer := by
    intro l x a b n k h hab
    unfold existentialTransfer at h
    split at h
    · rename_i h0
      rcases h0 with rfl | h0
      · exact Nat.zero_le _
      · exact absurd h0 hab
    · split at h
      · cases h
      · exact Nat.le_of_not_lt ‹_›
  funded_of_burn := by
    intro l x a n h
    unfold existentialWithdraw at h
    split at h
    · cases h
    · rename_i h0
      exact ⟨Nat.le_of_not_lt fun hlt => h0 (.inl hlt), Nat.le_of_not_lt fun hlt => h0 (.inr hlt)⟩
  funded_of_hold := by
    intro l x a n h
    split at h
    · cases h
    · exact Nat.le_of_not_lt ‹_›
  reducible_le := by
    intro l x a k
    split
    · exact Nat.sub_le _ _
    · exact Nat.le_refl _

instance existential_exact : (existential ed : Currency A X).Exact := ⟨fun _ _ _ => rfl⟩

omit [DecidableEq X] in
theorem existential_accommodates {x : X} :
    (existential ed : Currency A X).Accommodates x (ed x) where
  moves := by
    intro l a b n k hmoved
    have hfree : l.free x a ≤ l.balance x a := Nat.le_add_right _ _
    show existentialTransfer ed l x a b n k = none
    rcases hmoved with hn | ⟨hfunded, halive⟩
    · exact if_pos (.inl hn)
    · rw [existentialTransfer, if_neg (by omega : ¬ l.free x a < n),
        if_neg (by omega : ¬ l.balance x b + n < ed x),
        if_neg (by omega : ¬ (k = true ∧ l.balance x a - n < ed x)), ite_self]
  holds h := if_neg (Nat.not_lt.mpr h)

/-- The same implementation, in which the accounts that `reaps` says die. -/
def reaping (reaps : X → Nat → Nat → Bool) : Currency A X := { existential ed with reaps := reaps }

/-- Whether an account dies is a matter of its total balance. -/
def byBalance (dies : X → Nat → Bool) (x : X) (free reserved : Nat) : Bool := dies x (free + reserved)

/-- The balance is less than the existential deposit. -/
def belowDeposit (x : X) (balance : Nat) : Bool := balance < ed x

section Existential

variable {ed : X → Nat}

/-- A transfer that moves anything leaves its sender the existential deposit. -/
def KeepsAlive (ed : X → Nat) (l : Ledger A X) (x : X) (a b : A) (n : Nat) : Prop :=
  n = 0 ∨ a = b ∨ ed x ≤ l.balance x a - n

instance (ed : X → Nat) (l : Ledger A X) (x : X) (a b : A) (n : Nat) :
    Decidable (KeepsAlive ed l x a b n) :=
  inferInstanceAs (Decidable (_ ∨ _ ∨ _))

omit [DecidableEq X] in
/-- A transfer is accepted if it moves nothing, or is funded, reaches the existential deposit of its
    recipient and leaves that of its sender where it has to. -/
theorem existentialTransfer_none : existentialTransfer ed l x a b n k = none ↔
    n = 0 ∨ a = b ∨
      (n ≤ l.free x a ∧ ed x ≤ l.balance x b + n ∧ (k = true → ed x ≤ l.balance x a - n)) := by
  unfold existentialTransfer
  by_cases hnothing : n = 0 ∨ a = b
  · rw [if_pos hnothing]
    exact iff_of_true rfl (hnothing.imp_right .inl)
  · obtain ⟨hn, hab⟩ := not_or.mp hnothing
    rw [if_neg hnothing]
    split_ifs with hfunds hdest hdies
    · simp only [hn, hab, false_or, false_iff]
      exact fun h => Nat.not_le_of_lt hfunds h.1
    · simp only [hn, hab, false_or, false_iff]
      exact fun h => Nat.not_le_of_lt hdest h.2.1
    · simp only [hn, hab, false_or, false_iff]
      exact fun h => Nat.not_le_of_lt hdies.2 (h.2.2 hdies.1)
    · refine iff_of_true rfl
        (.inr (.inr ⟨Nat.le_of_not_lt hfunds, Nat.le_of_not_lt hdest, fun hk => ?_⟩))
      exact Nat.le_of_not_lt fun hlt => hdies ⟨hk, hlt⟩

omit [DecidableEq A] [DecidableEq X] in
/-- A deposit is accepted if it is nothing or reaches the existential deposit. -/
theorem existentialDeposit_none : existentialDeposit ed l x a n = none ↔
    n = 0 ∨ ed x ≤ l.balance x a + n := by
  unfold existentialDeposit
  split_ifs with hn hbelow
  · exact iff_of_true rfl (.inl hn)
  · exact iff_of_false (by simp) (not_or.mpr ⟨hn, Nat.not_le_of_lt hbelow⟩)
  · exact iff_of_true rfl (.inr (Nat.le_of_not_lt hbelow))

omit [DecidableEq A] [DecidableEq X] in
/-- A withdrawal is accepted if it is funded. -/
theorem existentialWithdraw_none : existentialWithdraw l x a n = none ↔
    n ≤ l.free x a ∧ n ≤ l.issuance x := by
  unfold existentialWithdraw
  split_ifs with h
  · refine iff_of_false (by simp) fun hboth => ?_
    exact h.elim (Nat.not_lt_of_le hboth.1) (Nat.not_lt_of_le hboth.2)
  · obtain ⟨hfree, hissued⟩ := not_or.mp h
    exact iff_of_true rfl ⟨Nat.le_of_not_lt hfree, Nat.le_of_not_lt hissued⟩

omit [DecidableEq X] in
/-- **What `can_withdraw` and `can_deposit` leave open** of a transfer that keeps its
    sender alive is just that. -/
theorem transfer_of_checked (hwithdraw : (existential ed : Currency A X).canWithdraw x a n l = true)
    (hdeposit : (existential ed : Currency A X).canDeposit x b n l = true) :
    (existential ed : Currency A X).transferRefused l x a b n true = none ↔
      KeepsAlive ed l x a b n := by
  have hfunds := (existentialWithdraw_none.mp (Option.isNone_iff_eq_none.mp hwithdraw)).1
  have hdest := existentialDeposit_none.mp (Option.isNone_iff_eq_none.mp hdeposit)
  refine existentialTransfer_none.trans (or_congr_right' fun hn => or_congr_right ?_)
  simp only [hfunds, hdest.resolve_left hn, true_and, true_implies]

end Existential

/-- The same implementation, with a largest balance. -/
def capped (C : Currency A X) (limit : Nat) : Currency A X :=
  { C with
    mintRefused := fun l x a n =>
      if limit < l.balance x a + n then some .overflow else C.mintRefused l x a n }

/-- The same implementation, with a largest issuance. -/
def cappedIssuance (C : Currency A X) (limit : Nat) : Currency A X :=
  { C with
    mintRefused := fun l x a n =>
      if limit < l.issuance x + n then some .overflow else C.mintRefused l x a n }

omit [DecidableEq A] [DecidableEq X] in
instance capped_exact {C : Currency A X} [h : C.Exact] {limit : Nat} : (C.capped limit).Exact :=
  ⟨h.spares⟩

omit [DecidableEq A] [DecidableEq X] in
instance cappedIssuance_exact {C : Currency A X} [h : C.Exact] {limit : Nat} :
    (C.cappedIssuance limit).Exact :=
  ⟨h.spares⟩

omit [DecidableEq A] [DecidableEq X] in
theorem le_of_cappedIssuance {C : Currency A X} {limit : Nat}
    (h : (C.cappedIssuance limit).mintRefused l x a n = none) : l.issuance x + n ≤ limit := by
  have hcapped :
      (if limit < l.issuance x + n then some .overflow else C.mintRefused l x a n) = none := h
  split at hcapped
  · cases hcapped
  · exact Nat.le_of_not_lt ‹_›

omit [DecidableEq A] [DecidableEq X] in
theorem le_of_capped {C : Currency A X} {limit : Nat}
    (h : (C.capped limit).mintRefused l x a n = none) : l.balance x a + n ≤ limit := by
  have hcapped :
      (if limit < l.balance x a + n then some .overflow else C.mintRefused l x a n) = none := h
  split at hcapped
  · cases hcapped
  · exact Nat.le_of_not_lt ‹_›

end Currency

end Composable
