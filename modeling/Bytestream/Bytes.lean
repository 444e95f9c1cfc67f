import Bytestream.Text.Hex

/-!
Byte strings: cutting a piece out of one, writing a piece over one, and the text of one in
hexadecimal digits.
-/

namespace Bytestream

/-- A finite string of bytes. -/
abbrev Bytes := List UInt8

namespace Bytes

/-- The `size` bytes that start at `first`, none unless all of them exist. -/
def slice? (bytes : Bytes) (first size : Nat) : Option Bytes :=
  if first + size ≤ bytes.length then some ((bytes.drop first).take size) else none

/-- Writes `piece` over the bytes that start at `first`. Bytes of the piece past the end of the
old string extend it, and a gap before it stays closed. -/
def overwrite (bytes : Bytes) (first : Nat) (piece : Bytes) : Bytes :=
  bytes.take first ++ piece ++ bytes.drop (first + piece.length)

/-- Appends zeros up to `length` bytes. A string that is already that long is unchanged. -/
def zeroExtend (bytes : Bytes) (length : Nat) : Bytes :=
  bytes ++ List.replicate (length - bytes.length) 0

/-- What a storage of these bytes holds after a piece was written at `position`: zeros fill a gap
before the piece, and writing nothing changes nothing. -/
def store (bytes : Bytes) (position : Nat) (piece : Bytes) : Bytes :=
  if piece.isEmpty then bytes else (bytes.zeroExtend position).overwrite position piece

/-- Two hexadecimal digits for each byte. -/
def toHex (bytes : Bytes) : String := String.join (bytes.map fun byte => Text.hex 2 byte.toNat)

/-- The bytes with these hexadecimal digits, two for each. -/
def ofHex? : List Char → Option Bytes
  | [] => some []
  | [_] => none
  | high :: low :: rest => do
      let byte := 16 * (← Text.hexDigit? high) + (← Text.hexDigit? low)
      return UInt8.ofNat byte :: (← ofHex? rest)

@[simp] theorem length_zeroExtend (bytes : Bytes) (length : Nat) :
    (bytes.zeroExtend length).length = max bytes.length length := by
  simp only [zeroExtend, List.length_append, List.length_replicate]
  omega

theorem length_of_slice? {bytes piece : Bytes} {first size : Nat}
    (hSlice : bytes.slice? first size = some piece) : piece.length = size := by
  simp only [slice?, Option.ite_none_right_eq_some, Option.some.injEq] at hSlice
  obtain ⟨hFits, rfl⟩ := hSlice
  simp only [List.length_take, List.length_drop]
  omega

/-- Overwriting inside the string keeps its length. -/
theorem length_overwrite {bytes piece : Bytes} {first : Nat}
    (hFits : first + piece.length ≤ bytes.length) :
    (bytes.overwrite first piece).length = bytes.length := by
  simp only [overwrite, List.length_append, List.length_take, List.length_drop]
  omega

/-- What was just written is what the same place holds. -/
theorem slice?_overwrite {bytes piece : Bytes} {first : Nat}
    (hFits : first + piece.length ≤ bytes.length) :
    (bytes.overwrite first piece).slice? first piece.length = some piece := by
  have hFirst : (bytes.take first).length = first := by
    simp only [List.length_take]; omega
  have hDrop : (bytes.overwrite first piece).drop first =
      piece ++ bytes.drop (first + piece.length) := by
    rw [overwrite, List.append_assoc, List.drop_left' hFirst]
  rw [slice?, length_overwrite hFits, if_pos hFits, hDrop, List.take_left]

end Bytes

end Bytestream
