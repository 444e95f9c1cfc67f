import Bytestream.Blob.ElementRun
import Bytestream.Blob.Pointer

/-!
Array records: a count followed by a pointer to the first element. The count is believed as far as
the blob goes; a run that would leave the blob is refused whole.
-/

namespace Bytestream

/-- A counted run of elements found through a pointer. -/
structure ArrayRecord (countWidth : Nat) (scalar : Scalar) (stride : Nat) where
  count : Word countWidth
  elements : Pointer scalar stride
deriving DecidableEq

namespace ArrayRecord

variable {countWidth : Nat} {scalar : Scalar} {stride : Nat}

/-- No elements, and a pointer to nothing. -/
def empty : ArrayRecord countWidth scalar stride := ⟨0, .null⟩

/-- The number of elements. -/
def length (record : ArrayRecord countWidth scalar stride) : Nat := record.count.toNat

/-- The bytes of a stored record. -/
def size (countWidth : Nat) (scalar : Scalar) : Nat := countWidth + scalar.width

/-- Where the pointer of a record at `position` lies. -/
def pointerPosition (countWidth position : Nat) : Nat := position + countWidth

/-- The record at `position` for `count` elements at `target`. A count that the record cannot hold
is a fault, and is found before a target that it cannot reach. -/
def between (position target count : Nat) :
    Except Fault (ArrayRecord countWidth scalar stride) :=
  match (Scalar.unsigned countWidth).narrow? count with
  | none => .error (.countTooLarge count countWidth)
  | some stored => (Pointer.between (pointerPosition countWidth position) target).map (⟨stored, ·⟩)

/-- The record stored at `position`. -/
def readAt (blob : Bytes) (position : Nat) :
    Except Error (ArrayRecord countWidth scalar stride) := do
  let (count, next) ← blob.readAt .little countWidth position
  return ⟨count, ← Pointer.readAt blob next⟩

/-- Stores the record at `position`, count first. Where only the count fits it stays stored. -/
def writeAt (record : ArrayRecord countWidth scalar stride) (position : Nat) :
    Action Error Bytes Unit := do
  let (blob, next) ← (← Action.state).writeAt .little position record.count
  Action.replace blob
  let blob ← record.elements.writeAt blob next
  Action.replace blob

/-- The first and the last position of the elements of a record at `position`, each of `size`
bytes. An array without elements is an empty range wherever its pointer leads. -/
def range? (record : ArrayRecord countWidth scalar stride) (position size : Nat) :
    Option (Nat × Nat) :=
  if record.length = 0 then some (0, 0)
  else do
    let first ← record.elements.target? (pointerPosition countWidth position)
    let last ← toPosition? (first + record.length * size)
    return (first, last)

/-- The elements of a record at `position`, each of `size` bytes. -/
def run (record : ArrayRecord countWidth scalar stride) (blob : Bytes) (position size : Nat) :
    Except Error ElementRun :=
  match record.range? position size with
  | none => .error .outOfBounds
  | some (first, last) =>
      match blob.slice? first (last - first) with
      | some bytes => .ok { bytes, size, remaining := record.length }
      | none => .error .outOfBounds

/-- The element at `index` of a record at `position`. -/
def get (record : ArrayRecord countWidth scalar stride) (blob : Bytes)
    (position size index : Nat) : Except Error Bytes :=
  if record.length ≤ index then .error .outOfBounds
  else
    match record.range? position size with
    | none => .error .outOfBounds
    | some (first, _) =>
        match blob.slice? (first + index * size) size with
        | some element => .ok element
        | none => .error .outOfBounds

/-- The record as text. -/
def describe (record : ArrayRecord countWidth scalar stride) : String :=
  Text.closedRecord "RelArray"
    [("count", toString record.length), ("elements", record.elements.describe)]

end ArrayRecord

end Bytestream
