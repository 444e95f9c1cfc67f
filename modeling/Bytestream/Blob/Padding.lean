import Bytestream.Word

/-!
Padding up to a power of two, by masking the low bits of the negated length.
-/

namespace Bytestream.Blob

/-- A positive number with a single bit set. -/
def isPowerOfTwo (n : Nat) : Bool := n ≠ 0 && n &&& (n - 1) = 0

/-- How much brings a length to the next multiple of `alignment`, a power of two. -/
def padding (length alignment : Word 8) : Word 8 := -length &&& (alignment - 1)

end Bytestream.Blob
