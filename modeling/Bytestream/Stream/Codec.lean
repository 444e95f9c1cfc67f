import Bytestream.Enumeration
import Bytestream.Stream

/-!
Words and enumerations on a stream. Each value is one read or one write, so a value is either
moved whole or the stream reports why not.
-/

namespace Bytestream.Stream

variable {β : Type} [Backend β]

/-- Writes a word in the given byte order. -/
def writeWord {width : Nat} (order : ByteOrder) (word : Word width) : Op β Outcome :=
  write (Word.bytes order word)

/-- Reads a word over `initial`, which stays unless the whole word was read. -/
def readWordInto {width : Nat} (order : ByteOrder) (initial : Word width) :
    Op β (Outcome × Word width) := do
  let transfer ← read width
  let complete := transfer.outcome.isDone && transfer.outcome.value = width
  let bytes := transfer.fill (List.replicate width 0)
  return (transfer.outcome, if complete then Word.ofBytes order width bytes else initial)

/-- Reads a word. -/
def readWord (order : ByteOrder) (width : Nat) : Attempt β (Word width) := do
  let transfer ← lift (read width)
  let count ← transfer.outcome.toExcept
  if count = width then
    return Word.ofBytes order width (transfer.fill (List.replicate width 0))
  else Action.stop (.error .endOfStream)

/-- Writes a word, and stops at a failure. -/
def putWord {width : Nat} (order : ByteOrder) (word : Word width) : Attempt β Unit := do
  let outcome ← lift (writeWord order word)
  let _ ← outcome.toExcept
  return ()

/-- Stops with an error of the data, which the stream keeps as its error state. -/
def reject {α : Type} (code : Code) (error : Error) : Attempt β α := do
  let _ ← lift (record code)
  Action.stop (.error error)

/-- Writes a member of an enumeration. -/
def writeMember {α : Type} (enumeration : Enumeration α) (order : ByteOrder) (member : α) :
    Op β Outcome :=
  writeWord order (enumeration.encode member)

/-- Reads a member of an enumeration. A number that belongs to none is invalid data. -/
def readMember {α : Type} (enumeration : Enumeration α) (order : ByteOrder) : Attempt β α := do
  let word ← readWord order enumeration.scalar.width
  match enumeration.decode word with
  | .ok member => return member
  | .error number =>
      reject .invalidData (.malformed (.unknownDiscriminant enumeration.name number))

end Bytestream.Stream
