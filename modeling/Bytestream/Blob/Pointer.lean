import Bytestream.Action
import Bytestream.Blob.Offset
import Bytestream.Position
import Bytestream.Slice

/-!
Relative pointers: the distance from the pointer's own position to its target, in strides. What a
pointer means depends only on where its target lies from it, so that a blob may be moved whole.
-/

namespace Bytestream

/-- A pointer as it is stored: an offset in strides, or the offset that means null. -/
structure Pointer (scalar : Scalar) (stride : Nat) where
  stored : Word scalar.width
deriving DecidableEq

namespace Pointer

variable {scalar : Scalar} {stride : Nat}

/-- The pointer to nothing. -/
def null : Pointer scalar stride := ⟨scalar.ofInt scalar.nullOffset⟩

/-- The stored offset is the one that means null. -/
def isNull (pointer : Pointer scalar stride) : Bool := pointer = null

/-- The stored offset. -/
def offset (pointer : Pointer scalar stride) : Int := scalar.toInt pointer.stored

/-- The bytes of a stored pointer. -/
def size (scalar : Scalar) : Nat := scalar.width

/-- The pointer from `position` to `target`. A target that is no whole number of strides away, or
too many of them, is a fault of whoever laid out the blob. -/
def between (position target : Nat) : Except Fault (Pointer scalar stride) :=
  let distance : Int := target - position
  if distance % stride = 0 then
    let strides := distance / stride
    if scalar.leastOffset ≤ strides ∧ strides ≤ scalar.greatestOffset then
      .ok ⟨scalar.ofInt strides⟩
    else .error (.offsetOutOfRange strides scalar.leastOffset scalar.greatestOffset)
  else .error (.misalignedTarget target stride position)

/-- The pointer from `position` to `target`, none when there is no such pointer. -/
def between? (position target : Nat) : Option (Pointer scalar stride) :=
  let distance : Int := target - position
  if distance % stride = 0 then
    ((scalar.narrow? (distance / stride)).map Pointer.mk).filter fun pointer => !pointer.isNull
  else none

/-- The pointer from `position` to a target or to nothing. -/
def toTarget (position : Nat) : Option Nat → Except Fault (Pointer scalar stride)
  | some target => between position target
  | none => .ok null

/-- The position that a pointer at `position` leads to. Null leads nowhere, and so does damaged
data that points before the first or past the last position. -/
def target? (pointer : Pointer scalar stride) (position : Nat) : Option Nat :=
  if pointer.isNull then none else toPosition? (position + pointer.offset * stride)

/-- The pointer stored at `position`. -/
def readAt (blob : Bytes) (position : Nat) : Except Error (Pointer scalar stride) :=
  (blob.readAt .little scalar.width position).map fun (stored, _) => ⟨stored⟩

/-- Stores the pointer at `position`. -/
def writeAt (pointer : Pointer scalar stride) (blob : Bytes) (position : Nat) :
    Except Error Bytes :=
  (blob.writeAt .little position pointer.stored).map Prod.fst

/-- The `size` bytes that a pointer at `position` refers to, none if it leads nowhere. -/
def load (pointer : Pointer scalar stride) (blob : Bytes) (position size : Nat) :
    Except Error (Option Bytes) :=
  match pointer.target? position with
  | none => .ok none
  | some target =>
      match blob.slice? target size with
      | some referent => .ok (some referent)
      | none => .error .outOfBounds

/-- The pointer as text. -/
def describe (pointer : Pointer scalar stride) : String :=
  if pointer.isNull then "RelPtr(null)" else s!"RelPtr({pointer.offset} x {stride})"

end Pointer

end Bytestream
