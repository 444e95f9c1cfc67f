import Bytestream.Blob.ArrayRecord

/-!
Reading a finished blob. Positions count from its first byte, wherever the blob came to lie.
-/

namespace Bytestream.Blob

/-- The `size` bytes at `position`. -/
def read (blob : Bytes) (position size : Nat) : Except Error Bytes :=
  match blob.slice? position size with
  | some value => .ok value
  | none => .error .outOfBounds

/-- What the pointer stored at `position` refers to. -/
def follow (scalar : Scalar) (stride : Nat) (blob : Bytes) (position size : Nat) :
    Except Error (Option Bytes) := do
  let pointer : Pointer scalar stride ← Pointer.readAt blob position
  pointer.load blob position size

/-- The elements of the array record stored at `position`. -/
def array (countWidth : Nat) (scalar : Scalar) (stride : Nat) (blob : Bytes)
    (position size : Nat) : Except Error ElementRun := do
  let record : ArrayRecord countWidth scalar stride ← ArrayRecord.readAt blob position
  record.run blob position size

end Bytestream.Blob
