import Composable.Support.Scale

/-!
# `Mosaic.SubAccount` — custody accounts of the bridge

Embeds `SubAccount::to_id` and `sub_account_id` of `frame/mosaic/src/lib.rs` for 32-byte account
ids. Funds of a transfer in flight sit in `subAccountId` of its `SubAccount`, so two different
`SubAccount`s with one id share one custody account.

The derived id is 32 bytes long, and the pallet prefix, the 16-byte kind tag and the two length
bytes use up 30 of them: `subAccountId_eq_iff` computes exactly what is left of the account.
-/

namespace Composable
namespace Mosaic

open Scale

/-! ## Data model -/

/-- `AccountId32`. -/
structure AccountId where
  bytes : List UInt8
  length_bytes : bytes.length = 32
deriving DecidableEq

/-- `frame_support::PalletId`: eight raw bytes. -/
structure PalletId where
  bytes : List UInt8
  length_bytes : bytes.length = 8
deriving DecidableEq

inductive TransactionType where
  | incoming
  | outgoing
deriving DecidableEq, Repr

/-- User incoming/outgoing accounts, that hold the funds for transactions to happen. -/
structure SubAccount where
  transactionType : TransactionType
  accountId : AccountId
deriving DecidableEq

/-! ## Derivation of the custody account -/

/-- The ASCII bytes of a literal such as `b"incoming________"`. -/
def ascii (text : List Char) : List UInt8 := text.map fun c => UInt8.ofNat c.toNat

/-- The 16-byte tag of a transfer direction. -/
def TransactionType.tag : TransactionType → List UInt8
  | .incoming =>
      ascii ['i', 'n', 'c', 'o', 'm', 'i', 'n', 'g', '_', '_', '_', '_', '_', '_', '_', '_']
  | .outgoing =>
      ascii ['o', 'u', 't', 'g', 'o', 'i', 'n', 'g', '_', '_', '_', '_', '_', '_', '_', '_']

/-- `SubAccount::to_id`: an array of two byte vectors. -/
def SubAccount.toId (sub : SubAccount) : List (List UInt8) :=
  [sub.transactionType.tag, sub.accountId.bytes]

/-- A fixed-size array of byte vectors has no length of its own: its elements are concatenated. -/
def encodeArray (vectors : List (List UInt8)) : List UInt8 := vectors.flatMap encodeVec

/-- `into_sub_account`: the type id `modl`, the pallet id and the encoded sub id, decoded as an
    `AccountId32` from a `TrailingZeroInput`. -/
def PalletId.intoSubAccount (pallet : PalletId) (sub : List (List UInt8)) : AccountId where
  bytes := padTo 32 (ascii ['m', 'o', 'd', 'l'] ++ pallet.bytes ++ encodeArray sub)
  length_bytes := length_padTo 32 _

/-- AccountId of the pallet, used to store all funds before actually moving them. -/
def subAccountId (pallet : PalletId) (sub : SubAccount) : AccountId :=
  pallet.intoSubAccount sub.toId

/-! ## What survives the truncation -/

@[simp] theorem TransactionType.length_tag (kind : TransactionType) : kind.tag.length = 16 := by
  cases kind <;> rfl

theorem TransactionType.tag_injective {k l : TransactionType} (h : k.tag = l.tag) : k = l := by
  cases k <;> cases l <;> first | rfl | exact absurd h (by decide)

/-- The bytes in front of the account: type id, pallet id, and the tag and account lengths. -/
def header (pallet : PalletId) : List UInt8 :=
  ascii ['m', 'o', 'd', 'l'] ++ pallet.bytes ++ compact 16

theorem length_header (pallet : PalletId) : (header pallet).length = 13 := by
  simp [header, ascii, compact, pallet.length_bytes]

/-- The derived id is the header, the tag, the length byte of the account and the account, cut to
    32 bytes. -/
theorem bytes_subAccountId (pallet : PalletId) (sub : SubAccount) :
    (subAccountId pallet sub).bytes = padTo 32 (header pallet ++
      (sub.transactionType.tag ++ (compact 32 ++ sub.accountId.bytes))) := by
  simp [subAccountId, PalletId.intoSubAccount, SubAccount.toId, encodeArray, encodeVec, header,
    sub.accountId.length_bytes, List.append_assoc]

/-- The 19 bytes behind the header are the tag, one length byte and two bytes of the account. -/
theorem take_payload (sub : SubAccount) :
    (sub.transactionType.tag ++ (compact 32 ++ sub.accountId.bytes)).take 19 =
      sub.transactionType.tag ++ (compact 32 ++ sub.accountId.bytes.take 2) := by
  have hlen : (compact 32).length = 1 := rfl
  rw [List.take_append, List.take_append, TransactionType.length_tag, hlen,
    List.take_of_length_le (by simp), List.take_of_length_le (by simp [hlen])]

/-- **Custody accounts coincide exactly when the direction and the first two account bytes do.** -/
theorem subAccountId_eq_iff (pallet : PalletId) (s t : SubAccount) :
    subAccountId pallet s = subAccountId pallet t ↔
      s.transactionType = t.transactionType ∧
        s.accountId.bytes.take 2 = t.accountId.bytes.take 2 := by
  have hlen : ∀ sub : SubAccount,
      32 ≤ (header pallet).length +
        (sub.transactionType.tag ++ (compact 32 ++ sub.accountId.bytes)).length := by
    intro sub
    simp [length_header, sub.accountId.length_bytes, compact]
  have hbytes : subAccountId pallet s = subAccountId pallet t ↔
      (subAccountId pallet s).bytes = (subAccountId pallet t).bytes :=
    ⟨congrArg _, fun h => by
      cases hs : subAccountId pallet s
      cases ht : subAccountId pallet t
      simpa [hs, ht] using h⟩
  rw [hbytes, bytes_subAccountId, bytes_subAccountId, padTo_append_eq_iff (hlen s) (hlen t),
    length_header, take_payload, take_payload]
  constructor
  · intro h
    obtain ⟨htag, hrest⟩ := List.append_inj h (by simp)
    exact ⟨TransactionType.tag_injective htag, List.append_cancel_left hrest⟩
  · rintro ⟨hkind, hbytes⟩
    rw [hkind, hbytes]

/-! ## Separate custody -/

/-- **When two users' custody accounts are kept apart**: different `SubAccount`s get different ids
    if and only if they differ in the direction or in one of the first two bytes of the account. -/
theorem subAccountId_separates_iff (pallet : PalletId) (s t : SubAccount) :
    (s ≠ t → subAccountId pallet s ≠ subAccountId pallet t) ↔
      (s = t ∨ s.transactionType ≠ t.transactionType ∨
        s.accountId.bytes.take 2 ≠ t.accountId.bytes.take 2) := by
  rw [Ne, Ne, subAccountId_eq_iff]
  tauto

/-- The pallet id of the runtime, `plmosaic`. -/
def mosaicId : PalletId := ⟨ascii ['p', 'l', 'm', 'o', 's', 'a', 'i', 'c'], rfl⟩

/-- An account of 31 zero bytes behind which one byte varies. -/
def lastByte (b : UInt8) : AccountId := ⟨List.replicate 31 0 ++ [b], rfl⟩

/-- Two accounts that differ in their last byte share the outgoing custody account. -/
theorem subAccountId_collision :
    ¬ ∀ s t : SubAccount, s ≠ t → subAccountId mosaicId s ≠ subAccountId mosaicId t := by
  intro h
  exact h ⟨.outgoing, lastByte 1⟩ ⟨.outgoing, lastByte 2⟩ (by decide) (by decide)

end Mosaic
end Composable
