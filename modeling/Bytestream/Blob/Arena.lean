import Bytestream.Blob.ArrayRecord
import Bytestream.Blob.Padding

/-!
Building a blob by appending. A record that refers to something further back is reserved first and
filled in once the position of its target is known.
-/

namespace Bytestream

/-- The layout of an element: its bytes, and the power of two that its position is a multiple of. -/
structure Element where
  size : Nat
  alignmentExponent : Nat
deriving DecidableEq

/-- What the position of an element is a multiple of. -/
def Element.alignment (element : Element) : Nat := 1 <<< element.alignmentExponent

/-- A step in building a blob. The state is the blob so far. -/
abbrev Arena (α : Type) := Action Stop Bytes α

namespace Arena

/-- Appends bytes. -/
def append (bytes : Bytes) : Arena Unit := Action.modify (· ++ bytes)

/-- Appends zeros, as long as the blob stays below the lengths that an offset can measure. -/
def appendZeros (count : Nat) : Arena Unit := do
  if (← Action.state).length + count < offsetLimit then append (List.replicate count 0)
  else Action.stop (.fault .blobTooLong)

/-- Appends zeros up to a multiple of a power of two. -/
def pad (alignment : Nat) : Arena Nat := do
  let length := (← Action.state).length
  let missing := (Blob.padding (BitVec.ofNat _ length) (BitVec.ofNat _ alignment)).toNat
  appendZeros missing
  return length + missing

/-- Appends zeros up to a multiple of `alignment` and yields the new length. -/
def align (alignment : Nat) : Arena Nat := do
  if Blob.isPowerOfTwo alignment then pad alignment
  else Action.stop (.fault (.alignmentNotPower alignment))

/-- Reserves `size` zeros at a multiple of `alignment` and yields their position. -/
def alloc (size alignment : Nat) : Arena Nat := do
  let position ← align alignment
  appendZeros size
  return position

/-- Appends elements at their alignment and yields the position of the first. -/
def pushAll (element : Element) (values : List Bytes) : Arena Nat := do
  let position ← pad element.alignment
  append values.flatten
  return position

/-- Appends one element and yields its position. -/
def push (element : Element) (value : Bytes) : Arena Nat := pushAll element [value]

/-- Overwrites a word. -/
def patch {width : Nat} (position : Nat) (word : Word width) : Arena Unit := do
  let (blob, _) ← (← Action.state).writeAt .little position word
  Action.replace blob

/-- Stores a pointer at `position` and yields it. -/
def writePointer (scalar : Scalar) (stride position : Nat) (target : Option Nat) :
    Arena (Pointer scalar stride) := do
  let pointer ← Pointer.toTarget position target
  let blob ← pointer.writeAt (← Action.state) position
  Action.replace blob
  return pointer

/-- Stores an array record at `position` and yields it. -/
def writeArray (countWidth : Nat) (scalar : Scalar) (stride position target count : Nat) :
    Arena (ArrayRecord countWidth scalar stride) := do
  let record ← ArrayRecord.between position target count
  (record.writeAt position).mapStop .error
  return record

end Arena

end Bytestream
