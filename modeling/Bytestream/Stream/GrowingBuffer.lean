import Bytestream.Bytes

/-!
The memory of a buffer that is read into until the data ends. Memory is made ahead of the data: a
buffer that is short of room at least doubles, so that the room made is in proportion to the data
held. A read is offered a bounded part of the spare room, which grows with a source that fills it.
-/

namespace Bytestream

/-- How much of a buffer's memory holds data, how much of it is spare, and the most that one read
is offered of the spare part. -/
structure GrowingBuffer where
  held : Nat
  spare : Nat
  limit : Nat
deriving DecidableEq

namespace GrowingBuffer

/-- The least capacity of a buffer that holds anything. -/
def leastCapacity : Nat := 8

/-- The least room a read is offered, and the size of a first read that only finds out whether
there is any data. -/
def leastRoom : Nat := 32

/-- The most room a read is offered before a read has filled as much. -/
def firstLimit : Nat := 8192

/-- The buffer without memory. -/
def empty : GrowingBuffer := ⟨0, 0, firstLimit⟩

/-- All of the memory. -/
def capacity (buffer : GrowingBuffer) : Nat := buffer.held + buffer.spare

/-- Makes room for `more` bytes. A buffer that has it stays as it is, any other at least doubles. -/
def reserve (buffer : GrowingBuffer) (more : Nat) : GrowingBuffer :=
  if more ≤ buffer.spare then buffer
  else
    let capacity := max (max (2 * buffer.capacity) leastCapacity) (buffer.held + more)
    { buffer with spare := capacity - buffer.held }

/-- Turns `count` bytes of the spare room into data. -/
def store (buffer : GrowingBuffer) (count : Nat) : GrowingBuffer :=
  { buffer with held := buffer.held + count, spare := buffer.spare - count }

/-- Doubles the limit once a read that was offered as much as it allows has filled its room. -/
def raiseLimit (buffer : GrowingBuffer) (offered count : Nat) : GrowingBuffer :=
  if buffer.limit ≤ offered ∧ count = offered then { buffer with limit := 2 * buffer.limit }
  else buffer

/-- The room for the next read, with the buffer that it lies in. What the reads before have left of
their room is offered again, with the bytes that are in it, if it is more than the least room or all
the room there is. Otherwise new room is made out of zeros. -/
def offer (buffer : GrowingBuffer) (left : Bytes) : GrowingBuffer × Bytes :=
  let buffer := buffer.reserve leastRoom
  let size := min buffer.spare buffer.limit
  if leastRoom < left.length ∨ size ≤ left.length then (buffer, left)
  else (buffer, List.replicate size 0)

/-- Reserving makes the room it is asked for. -/
theorem le_spare_reserve (buffer : GrowingBuffer) (more : Nat) :
    more ≤ (buffer.reserve more).spare := by
  unfold reserve
  split
  · assumption
  · simp only
    omega

/-- Reserving moves no data. -/
@[simp] theorem held_reserve (buffer : GrowingBuffer) (more : Nat) :
    (buffer.reserve more).held = buffer.held := by
  unfold reserve
  split <;> rfl

/-- Data comes out of the spare room, so the capacity stays. -/
theorem capacity_store (buffer : GrowingBuffer) {count : Nat} (hFits : count ≤ buffer.spare) :
    (buffer.store count).capacity = buffer.capacity := by
  simp only [capacity, store]
  omega

end GrowingBuffer

end Bytestream
