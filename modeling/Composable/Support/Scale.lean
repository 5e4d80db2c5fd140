import Mathlib.Algebra.Order.Ring.Nat
import Mathlib.Data.List.Basic
import Mathlib.Data.List.TakeDrop

/-!
# `Support.Scale` — SCALE byte encodings and fixed-size decoding

Byte-string side of the runtime: the compact length prefix of a `Vec`, the encodings of a byte
vector and of a vector of any elements, and `TrailingZeroInput`, the reader that decodes a fixed
number of bytes and reads zeros once its input is exhausted. Nothing here names a pallet.

There are three general facts. `padTo_append_eq_iff` says which bytes of a payload survive when a
common prefix is followed by the payload and the result is cut to a fixed size;
`decodeList_encodeList` says that a vector is read back when its elements are; `decodeUint_eq_ok`
says that a number of a fixed width has one encoding.
-/

namespace Composable
namespace Scale

/-- The `k` little-endian bytes of `n`. -/
def leBytes : Nat → Nat → List UInt8
  | 0,     _ => []
  | k + 1, n => UInt8.ofNat (n % 256) :: leBytes k (n / 256)

@[simp] theorem length_leBytes (k n : Nat) : (leBytes k n).length = k := by
  induction k generalizing n with
  | zero => rfl
  | succ k ih => simp [leBytes, ih]

/-- `Compact<u32>`: one, two or four bytes tagged in the two low bits, and the five-byte form for
    the rest of the 32-bit range. -/
def compact (n : Nat) : List UInt8 :=
  if n < 2 ^ 6 then leBytes 1 (n * 4)
  else if n < 2 ^ 14 then leBytes 2 (n * 4 + 1)
  else if n < 2 ^ 30 then leBytes 4 (n * 4 + 2)
  else 3 :: leBytes 4 n

/-- A `Vec<u8>`: its compact length followed by its bytes. -/
def encodeVec (bytes : List UInt8) : List UInt8 := compact bytes.length ++ bytes

/-- Decoding `size` raw bytes from a `TrailingZeroInput`: the input is cut at `size`, or padded with
    zeros up to it. -/
def padTo (size : Nat) (bytes : List UInt8) : List UInt8 :=
  (bytes ++ List.replicate size 0).take size

@[simp] theorem length_padTo (size : Nat) (bytes : List UInt8) :
    (padTo size bytes).length = size := by
  simp [padTo]

/-- Input that is long enough is cut, and no padding is read. -/
theorem padTo_eq_take {size : Nat} {bytes : List UInt8} (h : size ≤ bytes.length) :
    padTo size bytes = bytes.take size := by
  rw [padTo, List.take_append_of_le_length h]

/-- **What truncation keeps.** Behind a common prefix, two payloads that both reach past the cut
    decode to the same value exactly when they agree on the bytes left over by the prefix. -/
theorem padTo_append_eq_iff {size : Nat} {common left right : List UInt8}
    (hl : size ≤ common.length + left.length) (hr : size ≤ common.length + right.length) :
    padTo size (common ++ left) = padTo size (common ++ right) ↔
      left.take (size - common.length) = right.take (size - common.length) := by
  rw [padTo_eq_take (by simpa using hl), padTo_eq_take (by simpa using hr), List.take_append,
    List.take_append]
  exact List.append_right_inj _

/-! ## Decoding -/

/-- A decoder takes what it needs from the front of its input; an error is a description. -/
abbrev Decoder (α : Type) : Type := List UInt8 → Except String (α × List UInt8)

/-- An encoding, with a decoder that reads it back whatever follows it. -/
structure Codec (α : Type) where
  encode : α → List UInt8
  decode : Decoder α
  decode_encode : ∀ a rest, decode (encode a ++ rest) = .ok (a, rest)

/-- The number with these little-endian bytes. -/
def ofLeBytes : List UInt8 → Nat
  | [] => 0
  | b :: bytes => b.toNat + 256 * ofLeBytes bytes

/-- The next `k` bytes. -/
def readBytes (k : Nat) : Decoder (List UInt8) := fun input =>
  if k ≤ input.length then .ok (input.take k, input.drop k) else .error "Not enough data to fill buffer"

/-- The number in the bytes `front` and the next `k`, without its tag; it has
    to need that many bytes. -/
def readCompact (front : List UInt8) (k tag low high : Nat) : Decoder Nat := fun input => do
  let (bytes, rest) ← readBytes k input
  let n := ofLeBytes (front ++ bytes) / tag
  if low ≤ n ∧ n < high then .ok (n, rest) else .error "out of range decoding Compact<u32>"

/-- A `Compact<u32>` by the tag in the low bits of its first byte. -/
def decodeCompact : Decoder Nat
  | [] => .error "Not enough data to fill buffer"
  | b :: input =>
      match b.toNat % 4 with
      | 0 => .ok (b.toNat / 4, input)
      | 1 => readCompact [b] 1 4 (2 ^ 6) (2 ^ 14) input
      | 2 => readCompact [b] 3 4 (2 ^ 14) (2 ^ 30) input
      | _ =>
          if b.toNat / 4 = 0 then readCompact [] 4 1 (2 ^ 30) (2 ^ 32) input
          else .error "out of range decoding Compact<u32>"

/-- A `Vec`: its compact length followed by its elements. -/
def encodeList {α : Type} (item : Codec α) (l : List α) : List UInt8 :=
  compact l.length ++ l.flatMap item.encode

/-- The next `n` elements. -/
def decodeItems {α : Type} (item : Codec α) : Nat → Decoder (List α)
  | 0, input => .ok ([], input)
  | n + 1, input => do
      let (a, rest) ← item.decode input
      let (l, rest) ← decodeItems item n rest
      pure (a :: l, rest)

def decodeList {α : Type} (item : Codec α) : Decoder (List α) := fun input => do
  let (n, rest) ← decodeCompact input
  decodeItems item n rest

/-- A byte is encoded as itself. -/
def byte : Codec UInt8 where
  encode b := [b]
  decode
    | [] => .error "Not enough data to fill buffer"
    | b :: rest => .ok (b, rest)
  decode_encode _ _ := rfl

/-! ## Round trips -/

theorem ofLeBytes_leBytes {k n : Nat} (h : n < 256 ^ k) : ofLeBytes (leBytes k n) = n := by
  induction k generalizing n with
  | zero =>
      have hn : n = 0 := by simpa using h
      simp [leBytes, ofLeBytes, hn]
  | succ k ih =>
      have hrest : n / 256 < 256 ^ k := by
        rw [Nat.div_lt_iff_lt_mul (by decide), ← Nat.pow_succ]
        exact h
      have hbyte : (UInt8.ofNat (n % 256)).toNat = n % 256 := by simp
      rw [leBytes, ofLeBytes, ih hrest, hbyte]
      omega

/-- Bytes that are there are read. -/
theorem readBytes_append (bytes rest : List UInt8) :
    readBytes bytes.length (bytes ++ rest) = .ok (bytes, rest) := by
  simp [readBytes]

theorem readCompact_append {front bytes rest : List UInt8} {k tag low high n : Nat}
    (hk : bytes.length = k)
    (hn : ofLeBytes (front ++ bytes) / tag = n) (hlow : low ≤ n) (hhigh : n < high) :
    readCompact front k tag low high (bytes ++ rest) = .ok (n, rest) := by
  subst hk
  rw [readCompact, readBytes_append]
  show (if _ then _ else _) = _
  rw [hn, if_pos ⟨hlow, hhigh⟩]

/-- The form with a tag: the first byte has it in its low bits, and `k` more follow. -/
theorem readCompact_tagged {n tag k low high : Nat} (htag : tag < 4)
    (hfits : n * 4 + tag < 256 ^ (k + 1)) (hlow : low ≤ n) (hhigh : n < high) (rest : List UInt8) :
    readCompact [UInt8.ofNat ((n * 4 + tag) % 256)] k 4 low high
      (leBytes k ((n * 4 + tag) / 256) ++ rest) =
      .ok (n, rest) := by
  apply readCompact_append (length_leBytes k _) _ hlow hhigh
  show ofLeBytes (leBytes (k + 1) (n * 4 + tag)) / 4 = n
  rw [ofLeBytes_leBytes hfits]
  omega

/-- **Compact numbers are read back**, in each of their four forms. -/
theorem decodeCompact_compact {n : Nat} (h : n < 2 ^ 32) (rest : List UInt8) :
    decodeCompact (compact n ++ rest) = .ok (n, rest) := by
  unfold compact
  split
  next hone =>
    -- The single byte of a small number is the number with the tag 0.
    have hbyte : (UInt8.ofNat (n * 4 % 256)).toNat = n * 4 := by
      simp
      omega
    show decodeCompact (UInt8.ofNat (n * 4 % 256) :: rest) = _
    have htag : n * 4 % 4 = 0 := by omega
    have hn : n * 4 / 4 = n := by omega
    simp only [decodeCompact, hbyte, htag, hn]
  next hone =>
    split
    next htwo =>
      have htag : (UInt8.ofNat ((n * 4 + 1) % 256)).toNat % 4 = 1 := by simp
      show decodeCompact
        (UInt8.ofNat ((n * 4 + 1) % 256) :: (leBytes 1 ((n * 4 + 1) / 256) ++ rest)) = _
      simp only [decodeCompact, htag]
      exact readCompact_tagged (by decide) (by omega) (by omega) htwo rest
    next htwo =>
      split
      next hfour =>
        have htag : (UInt8.ofNat ((n * 4 + 2) % 256)).toNat % 4 = 2 := by simp
        show decodeCompact
          (UInt8.ofNat ((n * 4 + 2) % 256) :: (leBytes 3 ((n * 4 + 2) / 256) ++ rest)) = _
        simp only [decodeCompact, htag]
        exact readCompact_tagged (by decide) (by omega) (by omega) hfour rest
      next hfour =>
        show readCompact [] 4 1 (2 ^ 30) (2 ^ 32) (leBytes 4 n ++ rest) = _
        apply readCompact_append (length_leBytes 4 n) _ (by omega) h
        rw [List.nil_append, ofLeBytes_leBytes (by omega), Nat.div_one]

theorem decodeItems_flatMap {α : Type} (item : Codec α) (l : List α) (rest : List UInt8) :
    decodeItems item l.length (l.flatMap item.encode ++ rest) = .ok (l, rest) := by
  induction l with
  | nil => rfl
  | cons a l ih =>
      rw [List.length_cons, List.flatMap_cons, List.append_assoc, decodeItems, item.decode_encode]
      show (decodeItems item l.length (l.flatMap item.encode ++ rest) >>= _) = _
      rw [ih]
      rfl

/-- **Vectors are read back**, whatever follows them. -/
theorem decodeList_encodeList {α : Type} (item : Codec α) {l : List α} (h : l.length < 2 ^ 32)
    (rest : List UInt8) : decodeList item (encodeList item l ++ rest) = .ok (l, rest) := by
  rw [decodeList, encodeList, List.append_assoc, decodeCompact_compact h]
  exact decodeItems_flatMap item l rest

/-! ## Numbers of a fixed width -/

/-- A number of `k` bytes. -/
def decodeUint (k : Nat) : Decoder Nat := fun input => do
  let (bytes, rest) ← readBytes k input
  pure (ofLeBytes bytes, rest)

theorem ofLeBytes_lt (bytes : List UInt8) : ofLeBytes bytes < 256 ^ bytes.length := by
  induction bytes with
  | nil => simp [ofLeBytes]
  | cons b bytes ih =>
      have hb : b.toNat < 256 := b.toNat_lt
      rw [ofLeBytes, List.length_cons, Nat.pow_succ]
      omega

theorem leBytes_ofLeBytes (bytes : List UInt8) : leBytes bytes.length (ofLeBytes bytes) = bytes := by
  induction bytes with
  | nil => rfl
  | cons b bytes ih =>
      have hb : b.toNat < 256 := b.toNat_lt
      have hlow : (b.toNat + 256 * ofLeBytes bytes) % 256 = b.toNat := by omega
      have hhigh : (b.toNat + 256 * ofLeBytes bytes) / 256 = ofLeBytes bytes := by omega
      rw [List.length_cons, ofLeBytes, leBytes, hlow, hhigh, ih]
      simp

theorem readBytes_eq_ok {k : Nat} {input bytes rest : List UInt8} :
    readBytes k input = .ok (bytes, rest) ↔ bytes.length = k ∧ input = bytes ++ rest := by
  constructor
  · intro h
    unfold readBytes at h
    split at h
    next hle =>
      obtain ⟨rfl, rfl⟩ := Prod.mk.inj (Except.ok.inj h)
      exact ⟨List.length_take_of_le hle, (List.take_append_drop k input).symm⟩
    next => cases h
  · rintro ⟨rfl, rfl⟩
    exact readBytes_append bytes rest

/-- **A number has one encoding** of its width, and nothing else is read as it. -/
theorem decodeUint_eq_ok {k n : Nat} {input rest : List UInt8} :
    decodeUint k input = .ok (n, rest) ↔ n < 256 ^ k ∧ input = leBytes k n ++ rest := by
  constructor
  · intro h
    cases hread : readBytes k input with
    | error e =>
        rw [decodeUint, hread] at h
        cases h
    | ok p =>
        rw [decodeUint, hread] at h
        obtain ⟨rfl, rfl⟩ := Prod.mk.inj (Except.ok.inj h)
        obtain ⟨rfl, rfl⟩ := readBytes_eq_ok.mp hread
        exact ⟨ofLeBytes_lt p.1, by rw [leBytes_ofLeBytes]⟩
  · rintro ⟨hlt, rfl⟩
    have hread : readBytes k (leBytes k n ++ rest) = .ok (leBytes k n, rest) :=
      readBytes_eq_ok.mpr ⟨length_leBytes k n, rfl⟩
    rw [decodeUint, hread]
    show Except.ok (ofLeBytes (leBytes k n), rest) = _
    rw [ofLeBytes_leBytes hlt]

/-! ## Peeking -/

/-- `storage::read` into a buffer of `size` bytes, cut at the end of the value. -/
def peek (size : Nat) (value : Option (List UInt8)) : Option (List UInt8) :=
  value.map fun bytes => bytes.take size

theorem length_compact_le (n : Nat) : (compact n).length ≤ 5 := by
  unfold compact
  repeat' split
  all_goals simp

/-- The length of a vector is found in the first five bytes. -/
theorem decodeCompact_take {n : Nat} (h : n < 2 ^ 32) (rest : List UInt8) :
    (decodeCompact ((compact n ++ rest).take 5)).map Prod.fst = .ok n := by
  rw [List.take_append, List.take_of_length_le (length_compact_le n), decodeCompact_compact h]
  rfl

end Scale
end Composable
