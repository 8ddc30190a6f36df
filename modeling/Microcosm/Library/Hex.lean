import Mathlib.Data.List.Basic

/-!
# Hex encoding of bytes

Go's `encoding/hex`: `EncodeToString` writes each byte as two lowercase hex digits, high
nibble first; `DecodeString` reads pairs of digits of either case, and fails on the first
character that is not a digit (`InvalidByteError`) or, after the pairs, on a lone last
digit (`ErrLength`). Strings are lists of characters, of which only ASCII ones are digits.

Decoding what was encoded gives the bytes back (`decodeString_encodeToString`), and what is
encoded is made of digits only, so that it holds no separator a caller splits on.
-/

namespace Hex

/-- The errors of `hex.DecodeString`. -/
inductive Error
  /-- `InvalidByteError`: a character that is not a hex digit. -/
  | invalidByte (c : Char)
  /-- `ErrLength`: an odd number of digits. -/
  | errLength
  deriving DecidableEq, Repr

/-- The lowercase digit of a nibble. -/
def hexDigit (n : Nat) : Char :=
  if n < 10 then Char.ofNat (48 + n) else Char.ofNat (87 + n)

/-- `hex.EncodeToString`. -/
def encodeToString (bs : List UInt8) : List Char :=
  bs.flatMap fun b => [hexDigit (b.toNat / 16), hexDigit (b.toNat % 16)]

/-- The value of a digit of either case, from `reverseHexTable`. -/
def fromHexChar (c : Char) : Option Nat :=
  if '0' ≤ c ∧ c ≤ '9' then some (c.toNat - 48)
  else if 'a' ≤ c ∧ c ≤ 'f' then some (c.toNat - 87)
  else if 'A' ≤ c ∧ c ≤ 'F' then some (c.toNat - 55)
  else none

/-- `hex.DecodeString`: the pairs in order, the first digit of a pair checked before the
second, and a lone last digit checked before the length is reported. -/
def decodeString : List Char → Except Error (List UInt8)
  | [] => .ok []
  | [p] =>
      match fromHexChar p with
      | none => .error (.invalidByte p)
      | some _ => .error .errLength
  | p :: q :: rest =>
      match fromHexChar p, fromHexChar q with
      | none, _ => .error (.invalidByte p)
      | some _, none => .error (.invalidByte q)
      | some a, some b => (decodeString rest).map (UInt8.ofNat (a * 16 + b) :: ·)

-- Many proofs below unfold this definition, and Lean elaborates them in parallel: the empty
-- section generates its equation lemmas here, once, so that the proofs do not all wait on it.
-- The simp set outside the section is unchanged.
section
attribute [local simp] decodeString
end

example : encodeToString [0x2f, 0xa0] = "2fa0".toList := by decide
example : decodeString "2FA0".toList = .ok [0x2f, 0xa0] := by decide
example : decodeString "2fx0".toList = .error (.invalidByte 'x') := by decide

theorem fromHexChar_hexDigit : ∀ n < 16, fromHexChar (hexDigit n) = some n := by
  decide

theorem hexDigit_ne : ∀ n < 16, hexDigit n ≠ '/' ∧ hexDigit n ≠ '.' := by
  decide

@[simp] theorem encodeToString_nil : encodeToString [] = [] := rfl

theorem encodeToString_cons (b : UInt8) (bs : List UInt8) :
    encodeToString (b :: bs) =
      hexDigit (b.toNat / 16) :: hexDigit (b.toNat % 16) :: encodeToString bs := rfl

theorem encodeToString_eq_nil {bs : List UInt8} : encodeToString bs = [] ↔ bs = [] := by
  cases bs with
  | nil => simp
  | cons b bs => simp [encodeToString_cons]

/-- Every character of an encoding is a digit of some nibble. -/
theorem mem_encodeToString {bs : List UInt8} {c : Char} (h : c ∈ encodeToString bs) :
    ∃ n < 16, c = hexDigit n := by
  induction bs with
  | nil => cases h
  | cons b bs ih =>
      have hb : b.toNat < 256 := UInt8.toNat_lt_size b
      rw [encodeToString_cons] at h
      rcases List.mem_cons.1 h with rfl | h
      · exact ⟨_, by omega, rfl⟩
      rcases List.mem_cons.1 h with rfl | h
      · exact ⟨_, by omega, rfl⟩
      exact ih h

theorem slash_not_mem_encodeToString (bs : List UInt8) : '/' ∉ encodeToString bs := by
  intro h
  obtain ⟨n, hn, he⟩ := mem_encodeToString h
  exact (hexDigit_ne n hn).1 he.symm

theorem dot_not_mem_encodeToString (bs : List UInt8) : '.' ∉ encodeToString bs := by
  intro h
  obtain ⟨n, hn, he⟩ := mem_encodeToString h
  exact (hexDigit_ne n hn).2 he.symm

/-- The two digits of a byte give the byte back. -/
theorem ofNat_digits (b : UInt8) : UInt8.ofNat (b.toNat / 16 * 16 + b.toNat % 16) = b := by
  rw [show b.toNat / 16 * 16 + b.toNat % 16 = b.toNat by omega]
  exact UInt8.ofNat_toNat

/-- Decoding an encoding gives the bytes back. -/
theorem decodeString_encodeToString (bs : List UInt8) :
    decodeString (encodeToString bs) = .ok bs := by
  induction bs with
  | nil => rfl
  | cons b bs ih =>
      have hb : b.toNat < 256 := UInt8.toNat_lt_size b
      rw [encodeToString_cons, decodeString,
        fromHexChar_hexDigit _ (by omega), fromHexChar_hexDigit _ (by omega)]
      simp only [ih, ofNat_digits]
      rfl

end Hex
