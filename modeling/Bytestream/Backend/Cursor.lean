import Bytestream.Transfer

/-!
A byte string with a position in it. The position never lies past the end, so there is always a
rest to read from, if only an empty one.
-/

namespace Bytestream

/-- Bytes and the position of the next transfer. -/
structure Cursor where
  bytes : Bytes
  position : Nat
  position_le : position ≤ bytes.length

namespace Cursor

/-- The start of the bytes. -/
def start (bytes : Bytes) : Cursor := ⟨bytes, 0, Nat.zero_le _⟩

/-- The bytes from the position on. -/
def rest (cursor : Cursor) : Bytes := cursor.bytes.drop cursor.position

@[simp] theorem length_rest (cursor : Cursor) :
    cursor.rest.length = cursor.bytes.length - cursor.position := by
  simp [rest]

/-- Takes what is left of the next `count` bytes and moves past it. -/
def read (cursor : Cursor) (count : Nat) : Transfer × Cursor :=
  let transfer := Transfer.copy count cursor.rest count
  let after := {
    cursor with
    position := cursor.position + transfer.bytes.length
    position_le := by
      have := cursor.position_le
      simp only [transfer, Transfer.length_bytes_copy, length_rest]
      omega }
  (transfer, after)

/-- Writes a piece over the bytes at the position and moves past it. -/
def put (cursor : Cursor) (piece : Bytes)
    (hFits : cursor.position + piece.length ≤ cursor.bytes.length) : Cursor where
  bytes := cursor.bytes.overwrite cursor.position piece
  position := cursor.position + piece.length
  position_le := by rw [Bytes.length_overwrite hFits]; exact hFits

/-- Moves to a position. -/
def moveTo (cursor : Cursor) (target : Nat) (hInside : target ≤ cursor.bytes.length) : Cursor :=
  { cursor with position := target, position_le := hInside }

/-- Appends zeros up to `length` bytes. -/
def extend (cursor : Cursor) (length : Nat) : Cursor where
  bytes := cursor.bytes.zeroExtend length
  position := cursor.position
  position_le := by
    have := cursor.position_le
    rw [Bytes.length_zeroExtend]
    omega

@[simp] theorem length_extend (cursor : Cursor) (length : Nat) :
    (cursor.extend length).bytes.length = max cursor.bytes.length length := by
  simp [extend]

end Cursor

end Bytestream
