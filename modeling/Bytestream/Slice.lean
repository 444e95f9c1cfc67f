import Bytestream.Error
import Bytestream.Word

/-!
Words at an offset of a byte string. Reading or writing past the end is refused whole: neither the
bytes nor the offset change.
-/

namespace Bytestream.Bytes

/-- The word stored at `offset` and the offset after it. -/
def readAt (order : ByteOrder) (width : Nat) (bytes : Bytes) (offset : Nat) :
    Except Error (Word width × Nat) :=
  match bytes.slice? offset width with
  | some form => .ok (Word.ofBytes order width form, offset + width)
  | none => .error .outOfBounds

/-- The bytes with `word` stored at `offset`, and the offset after it. -/
def writeAt {width : Nat} (order : ByteOrder) (bytes : Bytes) (offset : Nat) (word : Word width) :
    Except Error (Bytes × Nat) :=
  if offset + width ≤ bytes.length then
    .ok (bytes.overwrite offset (Word.bytes order word), offset + width)
  else .error .outOfBounds

/-- Reading succeeds exactly when the whole word lies inside the bytes. -/
theorem readAt_isOk_iff (order : ByteOrder) (width : Nat) (bytes : Bytes) (offset : Nat) :
    (bytes.readAt order width offset).isOk = true ↔ offset + width ≤ bytes.length := by
  by_cases hFits : offset + width ≤ bytes.length <;>
    simp [readAt, slice?, hFits, Except.isOk, Except.toBool]

/-- A word that was written reads back from the same place under the same order. -/
theorem readAt_of_writeAt {width : Nat} {order : ByteOrder} {bytes written : Bytes}
    {offset next : Nat} {word : Word width}
    (hWrite : bytes.writeAt order offset word = .ok (written, next)) :
    written.readAt order width offset = .ok (word, next) := by
  simp only [writeAt] at hWrite
  split at hWrite
  · rename_i hFits
    cases hWrite
    have hSlice : (bytes.overwrite offset (Word.bytes order word)).slice? offset
        (Word.bytes order word).length = some (Word.bytes order word) :=
      slice?_overwrite (by simpa using hFits)
    rw [Word.length_bytes] at hSlice
    simp [readAt, hSlice, Word.ofBytes_bytes]
  · cases hWrite

end Bytestream.Bytes
