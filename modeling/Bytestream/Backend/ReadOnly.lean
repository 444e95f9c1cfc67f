import Bytestream.Backend

/-!
Read-only memory: all of it is the window from the start, so the window holds the position and a
refill never finds more.
-/

namespace Bytestream

/-- Bytes that are read in place. -/
structure ReadOnly where
  bytes : Bytes

namespace ReadOnly

/-- Moves the cursor to any place in the bytes or to their end. -/
def seek (source : ReadOnly) (window : Window) (offset : Int) (origin : Origin) :
    Reply (ReadOnly × Window) (Except Fault Outcome) :=
  match origin.resolve offset window.cursor source.bytes.length with
  | some target =>
      if hInside : target ≤ source.bytes.length then
        let moved : Window :=
          ⟨0, target, source.bytes.length, Nat.zero_le target, hInside⟩
        ⟨.ok (.done target), (source, moved), []⟩
      else ⟨.ok (.failed .seekError), (source, window), []⟩
  | none => ⟨.ok (.failed .seekError), (source, window), []⟩

instance : Backend ReadOnly where
  kind := "ro-memory"
  capabilities _ := { size := true, seek := true, bufferedRead := true }
  size source := ⟨.done source.bytes.length, source, []⟩
  seek := seek
  initialWindow source := .ok (Window.whole source.bytes.length)
  buffer source := source.bytes

/-- Maps the whole content of a file as read-only memory, none being the content of a file that
does not exist. Mapping an empty file maps nothing and is not logged. -/
def mapFile : Option Bytes → Except Error (ReadOnly × List Event)
  | none => .error (.file "NotFound")
  | some content =>
      .ok (⟨content⟩, if content.isEmpty then [] else [.mapped content.length])

end ReadOnly

end Bytestream
