import Bytestream.Backend
import Bytestream.Backend.Cursor

/-!
A writable memory region of fixed length.
-/

namespace Bytestream

/-- A region and the position of the next transfer, which never leaves it. -/
structure Region extends Cursor

namespace Region

/-- A region at its start. -/
def ofBytes (bytes : Bytes) : Region := ⟨Cursor.start bytes⟩

/-- Reads as much as is left. -/
def read (region : Region) (count : Nat) : Reply Region Transfer :=
  let (transfer, cursor) := region.toCursor.read count
  ⟨transfer, ⟨cursor⟩, []⟩

/-- Writes as much as there is room for. A region without any room refuses. -/
def write (region : Region) (source : Bytes) : Reply Region Outcome :=
  if region.rest.isEmpty then ⟨.failed .endOfStream, region, []⟩
  else
    let transfer := Transfer.copy region.rest.length source source.length
    have hFits : region.position + transfer.bytes.length ≤ region.bytes.length := by
      have := region.position_le
      simp only [transfer, Transfer.length_bytes_copy, Cursor.length_rest]
      omega
    ⟨transfer.outcome, ⟨region.toCursor.put transfer.bytes hFits⟩, []⟩

/-- Moves to any position from the start of the region up to its end. -/
def seek (region : Region) (offset : Int) (origin : Origin) : Reply Region Outcome :=
  match origin.resolve offset region.position region.bytes.length with
  | some target =>
      if hInside : target ≤ region.bytes.length then
        ⟨.done target, ⟨region.toCursor.moveTo target hInside⟩, []⟩
      else ⟨.failed .seekError, region, []⟩
  | none => ⟨.failed .seekError, region, []⟩

instance : Backend Region where
  kind := "rw-memory"
  capabilities _ := { size := true, read := true, write := true, seek := true }
  size region := ⟨.done region.bytes.length, region, []⟩
  read := read
  write := write
  seek region window offset origin := (region.seek offset origin).beside window

end Region

end Bytestream
