import Bytestream.Backend

/-!
A source that hands out its data in pieces whose lengths follow a repeating pattern. Window indices
are positions in the data.
-/

namespace Bytestream

/-- Data, the pattern of positive piece lengths, and how many pieces have been handed out. -/
structure Pieces where
  bytes : Bytes
  pattern : List Nat
  taken : Nat := 0
  pattern_pos : ∀ length ∈ pattern, 0 < length

namespace Pieces

/-- A source that has handed out nothing yet. A pattern with a zero length is a fault. -/
def ofPattern (bytes : Bytes) (pattern : List Nat) : Except Fault Pieces :=
  if hPositive : ∀ length ∈ pattern, 0 < length then
    .ok { bytes, pattern, pattern_pos := hPositive }
  else .error .noPieceLength

/-- The length of the next piece, none for an empty pattern. -/
def nextLength? (source : Pieces) : Option Nat :=
  source.pattern[source.taken % source.pattern.length]?

/-- Moves to any place in the data and shows nothing of it yet. -/
def seek (source : Pieces) (window : Window) (offset : Int) (origin : Origin) :
    Reply (Pieces × Window) (Except Fault Outcome) :=
  match origin.resolve offset window.cursor source.bytes.length with
  | some target =>
      if target ≤ source.bytes.length then
        ⟨.ok (.done target), (source, Window.run target 0), []⟩
      else ⟨.ok (.failed .seekError), (source, window), []⟩
  | none => ⟨.ok (.failed .seekError), (source, window), []⟩

/-- Shows the next piece of what lies behind the window. -/
def refill (source : Pieces) (window : Window) :
    Reply (Pieces × Window) (Except Fault Code) :=
  let remaining := source.bytes.length - window.stop
  if remaining = 0 then ⟨.ok .endOfStream, (source, window), []⟩
  else
    match source.nextLength? with
    | none => ⟨.error .noPieceLength, (source, window), []⟩
    | some length =>
        ⟨.ok .success,
          ({ source with taken := source.taken + 1 }, Window.run window.stop (min length remaining)),
          []⟩

instance : Backend Pieces where
  kind := "chunked"
  capabilities _ := { size := true, seek := true, bufferedRead := true }
  size source := ⟨.done source.bytes.length, source, []⟩
  seek := seek
  buffer source := source.bytes
  refill := refill

end Pieces

end Bytestream
