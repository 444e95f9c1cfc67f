import Bytestream.Backend
import Bytestream.Backend.Source

/-!
A reader that pulls bytes from a source into a buffer of fixed capacity. The source always stands
past every unread byte of the window, so the position of the reader is that of the source less the
bytes still unread.
-/

namespace Bytestream

/-- A source and the buffer in front of it. -/
structure BufferedReader where
  source : Source
  buffer : Bytes

namespace BufferedReader

/-- The capacity of a reader that was not given one. -/
def defaultCapacity : Nat := 8 * 1024

/-- A reader whose buffer has `capacity` bytes, but at least one. -/
def ofSource (source : Source) (capacity : Nat) : BufferedReader :=
  ⟨source, List.replicate (max capacity 1) 0⟩

/-- The size of the buffer. -/
def capacity (reader : BufferedReader) : Nat := reader.buffer.length

/-- The reader as a record. -/
def describe (reader : BufferedReader) : String :=
  Text.openRecord "BufferedFileReader" [("capacity", toString reader.capacity)]

/-- The reason logged when a seek or a scheduled read of the source fails. -/
def failureReason : String := "source failure"

/-- The reason logged when a read of the source fails. -/
def readFailureReason (reader : BufferedReader) : String :=
  if reader.source.readable then failureReason else FileAccess.refusal

/-- Finds the length of the source by going to its end and back. Where a step fails, the steps
before it keep their effect. -/
def size (reader : BufferedReader) : Reply BufferedReader Outcome :=
  let refused (source : Source) : Reply BufferedReader Outcome :=
    ⟨.failed .unknownError, { reader with source }, [.sizeQueryFailed failureReason]⟩
  match reader.source.seek 0 .current with
  | (none, source) => refused source
  | (some position, source) =>
      match source.seek 0 .finish with
      | (none, source) => refused source
      | (some length, source) =>
          match source.seek position .start with
          | (none, source) => refused source
          | (some _, source) => ⟨.done length, { reader with source }, []⟩

/-- The offset that moves the source where the reader is asked to go: a relative offset counts from
the reader's position, which the unread bytes lie behind the source's. -/
def sourceOffset? (window : Window) (offset : Int) (origin : Origin) : Option Int :=
  match origin with
  | .current =>
      let shifted := offset - window.available
      if window.available < offsetLimit ∧ -offsetLimit ≤ shifted then some shifted else none
  | .start => if offset < 0 then none else some offset
  | .finish => some offset

/-- Moves the source and drops the window. A failed seek changes neither. -/
def seek (reader : BufferedReader) (window : Window) (offset : Int) (origin : Origin) :
    Reply (BufferedReader × Window) (Except Fault Outcome) :=
  match sourceOffset? window offset origin with
  | none => ⟨.ok (.failed .seekError), (reader, window), []⟩
  | some shifted =>
      match reader.source.seek shifted origin with
      | (some position, source) =>
          ⟨.ok (.done position), ({ reader with source }, Window.empty), []⟩
      | (none, source) => ⟨.ok (.failed .seekError), ({ reader with source }, window), []⟩

/-- Moves unread bytes to the front of the buffer and reads once into the room behind them. Only a
source that gives nothing while nothing is unread has ended. -/
def refill (reader : BufferedReader) (window : Window) :
    Reply (BufferedReader × Window) (Except Fault Code) :=
  if reader.capacity < window.stop then ⟨.error .outsideBuffer, (reader, window), []⟩
  else
    let unread := (reader.buffer.drop window.cursor).take window.available
    let rotated := reader.buffer.overwrite 0 unread
    match reader.source.read (reader.capacity - unread.length) with
    | (none, source) =>
        ⟨.ok .readError, (⟨source, rotated⟩, window), [.refillFailed reader.readFailureReason]⟩
    | (some added, source) =>
        if unread.isEmpty && added.isEmpty then
          ⟨.ok .endOfStream, (⟨source, rotated⟩, window), []⟩
        else
          let buffer := rotated.overwrite unread.length added
          ⟨.ok .success, (⟨source, buffer⟩, Window.whole (unread.length + added.length)), []⟩

instance : Backend BufferedReader where
  kind := "buffered-file"
  capabilities _ := { size := true, seek := true, bufferedRead := true }
  size := size
  seek := seek
  buffer reader := reader.buffer
  refill := refill

end BufferedReader

end Bytestream
