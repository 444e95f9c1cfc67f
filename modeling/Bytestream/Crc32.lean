import Bytestream.Word

/-!
The cyclic redundancy check of IEEE 802.3: 32 bits, reflected, complemented at both ends. A sum can
start from the sum of the bytes that came before, so bytes may be summed piece by piece.
-/

namespace Bytestream.Crc32

/-- The generator polynomial, its coefficients reflected. -/
def polynomial : Word 4 := 0xEDB88320

/-- Shifts one bit out of the register, and reduces by the polynomial if that bit was set. -/
def shiftBit (register : Word 4) : Word 4 :=
  if register.getLsbD 0 then (register >>> 1) ^^^ polynomial else register >>> 1

/-- Takes `count` bits out of the register. -/
def shiftBits : Nat → Word 4 → Word 4
  | 0, register => register
  | count + 1, register => shiftBits count (shiftBit register)

/-- Feeds one byte to the register. -/
def feed (register : Word 4) (byte : UInt8) : Word 4 :=
  shiftBits 8 (register ^^^ BitVec.ofNat _ byte.toNat)

end Bytestream.Crc32

namespace Bytestream

/-- The checksum of `bytes`, continued from `seed`, the checksum of the bytes before them. -/
def crc32 (bytes : Bytes) (seed : Word 4) : Word 4 :=
  ~~~(bytes.foldl Crc32.feed (~~~seed))

@[simp] theorem crc32_nil (seed : Word 4) : crc32 [] seed = seed := by
  simp [crc32]

/-- Summing in pieces is summing at once. -/
theorem crc32_append (first second : Bytes) (seed : Word 4) :
    crc32 (first ++ second) seed = crc32 second (crc32 first seed) := by
  simp [crc32, List.foldl_append]

end Bytestream
