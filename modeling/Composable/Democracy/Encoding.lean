import Composable.Democracy.Enactment
import Composable.Support.Scale

/-!
# `Democracy.Encoding` — what the pallet encodes and reads by hand

A `Vote` is one byte (`frame/democracy/src/vote.rs`): its conviction, and the highest bit for an
aye. `AccountVote` is encoded as derived, around that byte. Every vote whose balances fit is read
back, and nothing is read that is not the encoding of what it is read as (`accountVote_decode_iff`).

Three functions of `frame/democracy/src/lib.rs` look at the first bytes of a stored value without
decoding it. They answer what a look at the whole value would (`peeks_agree`).
-/

namespace Composable
namespace Democracy

open Scale

/-! ## Votes -/

/-- `TryFrom<u8>`. -/
def Conviction.tryFrom : UInt8 → Option Conviction
  | 0 => some .none
  | 1 => some .locked1x
  | 2 => some .locked2x
  | 3 => some .locked3x
  | 4 => some .locked4x
  | 5 => some .locked5x
  | 6 => some .locked6x
  | _ => Option.none

/-- `Encode`: the byte that is pushed. -/
def Vote.encode (v : Vote) : UInt8 :=
  UInt8.ofNat v.conviction.toNat ||| if v.aye then 0b10000000 else 0

def Vote.decode : Decoder Vote
  | [] => .error "Not enough data to fill buffer"
  | b :: input =>
      match Conviction.tryFrom (b &&& 0b01111111) with
      | some conviction => .ok (⟨decide (b &&& 0b10000000 = 0b10000000), conviction⟩, input)
      | none => .error "Invalid conviction"

/-- A `Balance` has 128 bits. -/
def AccountVote.encode : AccountVote → List UInt8
  | .standard vote balance => 0 :: vote.encode :: leBytes 16 balance
  | .split aye nay => 1 :: (leBytes 16 aye ++ leBytes 16 nay)

def AccountVote.decode : Decoder AccountVote
  | [] => .error "Not enough data to fill buffer"
  | b :: input =>
      if b = 0 then do
        let (vote, input) ← Vote.decode input
        let (balance, rest) ← decodeUint 16 input
        pure (.standard vote balance, rest)
      else if b = 1 then do
        let (aye, input) ← decodeUint 16 input
        let (nay, rest) ← decodeUint 16 input
        pure (.split aye nay, rest)
      else .error "Could not decode `AccountVote`, variant doesn't exist"

/-- The balances of a vote are balances. -/
def AccountVote.Fits : AccountVote → Prop
  | .standard _ balance => balance < 2 ^ 128
  | .split aye nay => aye < 2 ^ 128 ∧ nay < 2 ^ 128

/-- The byte of a vote has its two parts in different bits. -/
theorem Vote.decode_encode (v : Vote) (rest : List UInt8) :
    Vote.decode (v.encode :: rest) = .ok (v, rest) := by
  obtain ⟨aye, conviction⟩ := v
  cases aye <;> cases conviction <;> rfl

/-- The parts of a byte that a vote is read from. -/
theorem Vote.encode_of_parts (b : UInt8) :
    ∀ conviction, Conviction.tryFrom (b &&& 0b01111111) = some conviction →
      Vote.encode ⟨decide (b &&& 0b10000000 = 0b10000000), conviction⟩ = b := by
  have hbytes : ∀ x : BitVec 8, ∀ conviction ∈ Conviction.tryFrom (UInt8.ofBitVec x &&& 0b01111111),
      Vote.encode ⟨decide (UInt8.ofBitVec x &&& 0b10000000 = 0b10000000), conviction⟩ =
        UInt8.ofBitVec x := by
    decide +kernel
  exact fun conviction h => hbytes b.toBitVec conviction h

/-- **A vote has one byte.** -/
theorem Vote.decode_eq_ok {v : Vote} {input rest : List UInt8} :
    Vote.decode input = .ok (v, rest) ↔ input = v.encode :: rest := by
  constructor
  · intro h
    cases input with
    | nil => cases h
    | cons b input =>
        cases hconviction : Conviction.tryFrom (b &&& 0b01111111) with
        | none =>
            simp only [Vote.decode, hconviction] at h
            cases h
        | some conviction =>
            simp only [Vote.decode, hconviction] at h
            obtain ⟨rfl, rfl⟩ := Prod.mk.inj (Except.ok.inj h)
            rw [Vote.encode_of_parts b conviction hconviction]
  · rintro rfl
    exact Vote.decode_encode v rest

/-- A decoder that reads one thing and then another. -/
theorem decode_bind {α β : Type} {first : Except String α} {next : α → Except String β} {b : β} :
    first >>= next = .ok b ↔ ∃ a, first = .ok a ∧ next a = .ok b := by
  cases first with
  | error e =>
      constructor
      · intro h
        cases h
      · rintro ⟨a, h, -⟩
        cases h
  | ok a =>
      constructor
      · intro h
        exact ⟨a, rfl, h⟩
      · rintro ⟨a', h, hnext⟩
        cases h
        exact hnext

/-- **The stored form of a vote**: exactly the encodings of the votes whose balances fit are read,
    each as what it encodes, and what follows is left. -/
theorem accountVote_decode_iff {v : AccountVote} {input rest : List UInt8} :
    AccountVote.decode input = .ok (v, rest) ↔ v.Fits ∧ input = v.encode ++ rest := by
  constructor
  · intro h
    cases input with
    | nil => cases h
    | cons b input =>
        rw [AccountVote.decode] at h
        -- The first byte says which of the two kinds of vote follows.
        split at h
        next hb =>
          obtain ⟨⟨vote, input'⟩, hvote, h⟩ := decode_bind.mp h
          obtain ⟨⟨balance, rest'⟩, hbalance, h⟩ := decode_bind.mp h
          obtain ⟨rfl, rfl⟩ := Prod.mk.inj (Except.ok.inj h)
          obtain rfl := Vote.decode_eq_ok.mp hvote
          obtain ⟨hlt, rfl⟩ := decodeUint_eq_ok.mp hbalance
          exact ⟨hlt, by rw [hb]; rfl⟩
        next =>
          split at h
          next hb =>
            obtain ⟨⟨aye, input'⟩, haye, h⟩ := decode_bind.mp h
            obtain ⟨⟨nay, rest'⟩, hnay, h⟩ := decode_bind.mp h
            obtain ⟨rfl, rfl⟩ := Prod.mk.inj (Except.ok.inj h)
            obtain ⟨hlt, rfl⟩ := decodeUint_eq_ok.mp haye
            obtain ⟨hlt', rfl⟩ := decodeUint_eq_ok.mp hnay
            refine ⟨⟨hlt, hlt'⟩, ?_⟩
            rw [hb, AccountVote.encode, List.cons_append, List.append_assoc]
          next => cases h
  · rintro ⟨hfits, rfl⟩
    cases v with
    | standard vote balance =>
        refine decode_bind.mpr ⟨(vote, leBytes 16 balance ++ rest), Vote.decode_encode vote _, ?_⟩
        exact decode_bind.mpr ⟨(balance, rest), decodeUint_eq_ok.mpr ⟨hfits, rfl⟩, rfl⟩
    | split aye nay =>
        have haye : decodeUint 16 (leBytes 16 aye ++ (leBytes 16 nay ++ rest)) =
            .ok (aye, leBytes 16 nay ++ rest) :=
          decodeUint_eq_ok.mpr ⟨hfits.1, rfl⟩
        show AccountVote.decode (1 :: (leBytes 16 aye ++ leBytes 16 nay ++ rest)) = _
        rw [List.append_assoc]
        refine decode_bind.mpr ⟨_, haye, ?_⟩
        exact decode_bind.mpr ⟨(nay, rest), decodeUint_eq_ok.mpr ⟨hfits.2, rfl⟩, rfl⟩

/-! ## A look at a stored value -/

variable {A X H : Type}

/-- `Option<BlockNumber>`. -/
def encodeExpiry : Option Nat → List UInt8
  | none => [0]
  | some expiry => 1 :: leBytes 4 expiry

/-- `PreimageStatus`, encoded as derived. -/
def PreimageStatus.encode (account : A → List UInt8) : PreimageStatus A → List UInt8
  | .missing expiry => 0 :: leBytes 4 expiry
  | .available data provider deposit since expiry =>
      1 :: (encodeVec data ++ (account provider ++ leBytes 16 deposit ++ leBytes 4 since ++
        encodeExpiry expiry))

/-- A value of `DepositOf`: the depositors and what each has deposited. -/
def encodeDepositOf (account : Codec A) (value : List A × Nat) : List UInt8 :=
  encodeList account value.1 ++ leBytes 16 value.2

inductive PeekError where
  | notImminent
  | duplicatePreimage
  | preimageMissing
deriving DecidableEq, Repr

/-- The first byte tells the variant. -/
def checkPreImageIsMissing (stored : Option (List UInt8)) : Except PeekError Unit :=
  match peek 1 stored with
  | none => .error .notImminent
  | some [] => .error .notImminent
  | some (b :: _) =>
      if b = 0 then .ok () else if b = 1 then .error .duplicatePreimage else .error .notImminent

/-- One byte for the variant, and at most five for the length of the data. -/
def preImageDataLen (stored : Option (List UInt8)) : Except PeekError Nat :=
  match peek 6 stored with
  | none => .error .preimageMissing
  | some [] => .error .preimageMissing
  | some (b :: input) =>
      if b = 1 then ((decodeCompact input).map Prod.fst).mapError fun _ => .preimageMissing
      else .error .preimageMissing

/-- `decode_compact_u32_at`, as `len_of_deposit_of` calls it. -/
def decodeCompactU32At (stored : Option (List UInt8)) : Option Nat :=
  (peek 5 stored).bind fun input => ((decodeCompact input).map Prod.fst).toOption

/-- The data of a preimage has a length of 32 bits. -/
def PreimageStatus.Fits : PreimageStatus A → Prop
  | .missing _ => True
  | .available data .. => data.length < 2 ^ 32

/-- What `check_pre_image_is_missing` finds in the whole value. -/
def PreimageStatus.checkMissing : Option (PreimageStatus A) → Except PeekError Unit
  | none => .error .notImminent
  | some (.missing _) => .ok ()
  | some (.available ..) => .error .duplicatePreimage

/-- What `pre_image_data_len` finds in the whole value. -/
def PreimageStatus.dataLen : Option (PreimageStatus A) → Except PeekError Nat
  | some (.available data ..) => .ok data.length
  | _ => .error .preimageMissing

/-- **The first bytes tell what the whole value does**: the variant and the length of the data of a
    stored preimage, and the number of the depositors of a stored deposit. -/
theorem peeks_agree (account : Codec A) (status : Option (PreimageStatus A))
    (deposit : Option (List A × Nat))
    (hstatus : ∀ s ∈ status, s.Fits) (hdeposit : ∀ d ∈ deposit, d.1.length < 2 ^ 32) :
    checkPreImageIsMissing (status.map (PreimageStatus.encode account.encode)) =
      PreimageStatus.checkMissing status ∧
      preImageDataLen (status.map (PreimageStatus.encode account.encode)) =
        PreimageStatus.dataLen status ∧
      decodeCompactU32At (deposit.map (encodeDepositOf account)) = deposit.map fun d =>
        d.1.length := by
  refine ⟨?_, ?_, ?_⟩
  · rcases status with _ | ⟨expiry⟩ | ⟨data, provider, amount, since, expiry⟩
    · rfl
    · rfl
    · rfl
  · rcases status with _ | ⟨expiry⟩ | ⟨data, provider, amount, since, expiry⟩
    · rfl
    · rfl
    · have hlength := decodeCompact_take (hstatus _ rfl)
        (data ++ (account.encode provider ++ leBytes 16 amount ++ leBytes 4 since ++
          encodeExpiry expiry))
      rw [← List.append_assoc] at hlength
      show ((decodeCompact ((encodeVec data ++ _).take 5)).map Prod.fst).mapError _ = _
      rw [encodeVec, hlength]
      rfl
  · cases deposit with
    | none => rfl
    | some d =>
        -- Only the length is read, of the first five bytes.
        have hlength :=
          decodeCompact_take (hdeposit d rfl) (d.1.flatMap account.encode ++ leBytes 16 d.2)
        rw [← List.append_assoc] at hlength
        show ((decodeCompact ((encodeList account d.1 ++ leBytes 16 d.2).take 5)).map
          Prod.fst).toOption = some d.1.length
        rw [encodeList, hlength]
        rfl

/-- A preimage of three bytes, and a proposal with two depositors. -/
theorem peeks_agree_three :
    preImageDataLen
      (some (PreimageStatus.encode byte.encode (.available [1, 2, 3] 9 10 0 (some 4)))) = .ok 3 ∧
      decodeCompactU32At (some (encodeDepositOf byte ([7, 8], 5))) = some 2 := by
  have h := peeks_agree byte (some (.available [1, 2, 3] 9 10 0 (some 4))) (some ([7, 8], 5))
    (by simp [PreimageStatus.Fits]) (by simp)
  exact ⟨h.2.1, h.2.2⟩

end Democracy
end Composable
