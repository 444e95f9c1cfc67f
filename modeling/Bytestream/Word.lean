import Bytestream.Bytes

/-!
Words of a whole number of bytes and their two byte forms. Least significant byte first, the bytes
of a number are its digits in base 256; most significant first is the same list reversed.
-/

namespace Bytestream

/-- A word of `width` bytes. -/
abbrev Word (width : Nat) := BitVec (8 * width)

/-- Which end of a word comes first. -/
inductive ByteOrder where
  | little
  | big
deriving DecidableEq, Inhabited

namespace ByteOrder

/-- The number of a byte order. -/
def number : ByteOrder → Nat
  | little => 0
  | big => 1

/-- The byte order with this number, if there is one. -/
def ofNumber? : Nat → Option ByteOrder
  | 0 => some little
  | 1 => some big
  | _ => none

/-- The name of a byte order as text shows it. -/
def name : ByteOrder → String
  | little => "Little"
  | big => "Big"

end ByteOrder

namespace Bytes

/-- The `width` lowest digits of a number in base 256, the lowest first. -/
def digits : Nat → Nat → Bytes
  | 0, _ => []
  | width + 1, n => UInt8.ofNat n :: digits width (n / 256)

/-- The number whose digits in base 256 these are, the lowest first. -/
def number : Bytes → Nat
  | [] => 0
  | byte :: rest => byte.toNat + 256 * number rest

@[simp] theorem length_digits (width n : Nat) : (digits width n).length = width := by
  induction width generalizing n with
  | zero => rfl
  | succ width ih => simp [digits, ih]

/-- Digits keep a number up to the digits that were dropped, which a word of that width has no
place for. -/
theorem ofNat_number_digits (width n : Nat) :
    BitVec.ofNat (8 * width) (number (digits width n)) = BitVec.ofNat (8 * width) n := by
  have hRemainder (n : Nat) : number (digits width n) = n % 256 ^ width := by
    induction width generalizing n with
    | zero => simp [digits, number, Nat.mod_one]
    | succ width ih =>
        simp only [digits, number, ih, UInt8.toNat_ofNat', Nat.pow_succ, Nat.mul_comm _ 256]
        exact (Nat.mod_mul ..).symm
  apply BitVec.eq_of_toNat_eq
  simp [hRemainder, Nat.pow_mul]

/-- A word of as many bytes has a place for every digit. -/
theorem toNat_ofNat_number (bytes : Bytes) :
    (BitVec.ofNat (8 * bytes.length) (number bytes)).toNat = number bytes := by
  have hBound : number bytes < 256 ^ bytes.length := by
    induction bytes with
    | nil => simp [number]
    | cons byte rest ih =>
        have hByte := byte.toNat_lt
        simp only [number, List.length_cons, Nat.pow_succ]
        omega
  rw [BitVec.toNat_ofNat, Nat.pow_mul]
  exact Nat.mod_eq_of_lt hBound

/-- Every byte string is the digits of its number. -/
theorem digits_number (bytes : Bytes) : digits bytes.length (number bytes) = bytes := by
  induction bytes with
  | nil => rfl
  | cons byte rest ih =>
      have hByte := byte.toNat_lt
      have hQuotient : (byte.toNat + 256 * number rest) / 256 = number rest := by omega
      simp only [number, List.length_cons, digits, hQuotient, ih, List.cons.injEq, and_true]
      apply UInt8.toNat_inj.mp
      simp only [UInt8.toNat_ofNat']
      omega

end Bytes

namespace Word

/-- The bytes of a word in the given order. -/
def bytes {width : Nat} (order : ByteOrder) (word : Word width) : Bytes :=
  match order with
  | .little => Bytes.digits width word.toNat
  | .big => (Bytes.digits width word.toNat).reverse

/-- The word whose bytes these are. Bytes past the width are dropped, missing ones are zero at the
most significant end. -/
def ofBytes (order : ByteOrder) (width : Nat) (bytes : Bytes) : Word width :=
  match order with
  | .little => BitVec.ofNat (8 * width) (Bytes.number bytes)
  | .big => BitVec.ofNat (8 * width) (Bytes.number bytes.reverse)

@[simp] theorem length_bytes {width : Nat} (order : ByteOrder) (word : Word width) :
    (bytes order word).length = width := by
  cases order <;> simp [bytes]

/-- Decoding undoes encoding under the same order. -/
theorem ofBytes_bytes {width : Nat} (order : ByteOrder) (word : Word width) :
    ofBytes order width (bytes order word) = word := by
  cases order <;> simp [ofBytes, bytes, Bytes.ofNat_number_digits]

/-- Encoding undoes decoding of exactly as many bytes as the word has. -/
theorem bytes_ofBytes {width : Nat} (order : ByteOrder) {form : Bytes}
    (hLength : form.length = width) : bytes order (ofBytes order width form) = form := by
  subst hLength
  cases order with
  | little => simp only [ofBytes, bytes, Bytes.toNat_ofNat_number, Bytes.digits_number]
  | big =>
      have hNumber := Bytes.toNat_ofNat_number form.reverse
      have hDigits := Bytes.digits_number form.reverse
      rw [List.length_reverse] at hNumber hDigits
      simp only [ofBytes, bytes, hNumber, hDigits, List.reverse_reverse]

end Word

end Bytestream
