import Bytestream.Position

/-!
The memory of the host. A buffer of some length can be reserved or not; what that depends on is
not up to the library.
-/

namespace Bytestream

/-- How much memory a host gives to one buffer. -/
class Memory where
  /-- The longest buffer that can be reserved. -/
  reservable : Nat
  /-- The length of every buffer is an offset. -/
  reservable_lt : reservable < offsetLimit

export Memory (reservable)

/-- A host that gives half a tebibyte. Programs run on it, and what is proved holds on any other. -/
instance Memory.host : Memory := ⟨0x8000000000, by decide⟩

end Bytestream
