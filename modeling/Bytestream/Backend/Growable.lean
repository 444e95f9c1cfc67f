import Bytestream.Backend
import Bytestream.Backend.Cursor
import Bytestream.Memory

/-!
A byte vector that grows: writes and seeks past its end extend it with zeros, as far as memory can
be had.
-/

namespace Bytestream

/-- A vector and the position of the next transfer. -/
structure Growable extends Cursor

namespace Growable

/-- A vector at its start. -/
def ofBytes (bytes : Bytes) : Growable := ⟨Cursor.start bytes⟩

/-- Reads as much as is left. -/
def read (vector : Growable) (count : Nat) : Reply Growable Transfer :=
  let (transfer, cursor) := vector.toCursor.read count
  ⟨transfer, ⟨cursor⟩, []⟩

/-- A length that is held already, or for which memory can be reserved. -/
def canHold [Memory] (vector : Growable) (length : Nat) : Prop :=
  length ≤ vector.bytes.length ∨ length ≤ reservable

instance [Memory] (vector : Growable) (length : Nat) : Decidable (vector.canHold length) := by
  unfold canHold; infer_instance

/-- Writes all of the source, growing where it runs past the end. -/
def write [Memory] (vector : Growable) (source : Bytes) : Reply Growable Outcome :=
  let reached := vector.position + source.length
  if vector.canHold reached then
    have hFits : vector.position + source.length ≤ (vector.extend reached).bytes.length := by
      rw [Cursor.length_extend]; omega
    ⟨.done source.length, ⟨(vector.extend reached).put source hFits⟩, []⟩
  else ⟨.failed .allocationFailure, vector, []⟩

/-- Moves to any position, growing where it lies past the end. -/
def seek [Memory] (vector : Growable) (offset : Int) (origin : Origin) : Reply Growable Outcome :=
  match origin.resolve offset vector.position vector.bytes.length with
  | none => ⟨.failed .seekError, vector, []⟩
  | some target =>
      if vector.canHold target then
        have hInside : target ≤ (vector.extend target).bytes.length := by
          rw [Cursor.length_extend]; omega
        ⟨.done target, ⟨(vector.extend target).moveTo target hInside⟩, []⟩
      else ⟨.failed .allocationFailure, vector, []⟩

instance [Memory] : Backend Growable where
  kind := "vec"
  capabilities _ := { size := true, read := true, write := true, seek := true }
  size vector := ⟨.done vector.bytes.length, vector, []⟩
  read := read
  write := write
  seek vector window offset origin := (vector.seek offset origin).beside window

end Growable

end Bytestream
