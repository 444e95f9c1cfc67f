import Bytestream.Bytes
import Bytestream.Outcome

/-!
Moving bytes into a room of limited size, the step that all plain backends share: as much as is
wanted, there, and fits is moved, and less than wanted is reported as the end of the data.
-/

namespace Bytestream

/-- The answer to a read: its outcome, and the bytes stored at the front of the destination. -/
structure Transfer where
  outcome : Outcome
  bytes : Bytes
deriving DecidableEq

namespace Transfer

/-- A transfer that stores nothing. -/
def none (outcome : Outcome) : Transfer := ⟨outcome, []⟩

/-- The destination after the transfer: bytes past the ones stored keep what they were. -/
def fill (transfer : Transfer) (destination : Bytes) : Bytes :=
  transfer.bytes.take destination.length ++ destination.drop transfer.bytes.length

/-- Moves up to `wanted` bytes from the front of `source` into a room of `room` bytes. -/
def copy (room : Nat) (source : Bytes) (wanted : Nat) : Transfer :=
  let moved := source.take (min wanted room)
  ⟨.report moved.length (if moved.length < wanted then .endOfStream else .success), moved⟩

@[simp] theorem length_bytes_copy (room : Nat) (source : Bytes) (wanted : Nat) :
    (copy room source wanted).bytes.length = min (min wanted room) source.length := by
  simp [copy]

/-- The destination keeps its length. -/
theorem length_fill {transfer : Transfer} {destination : Bytes}
    (hFits : transfer.bytes.length ≤ destination.length) :
    (transfer.fill destination).length = destination.length := by
  simp only [fill, List.length_append, List.length_take, List.length_drop]
  omega

end Transfer

end Bytestream
