import Bytestream.Stream
import Bytestream.Stream.GrowingBuffer

/-!
A stream as an ordinary byte handle: a transfer is a count or a failure, and a count of zero is the
end of the data. A transfer that moved anything is a success, whatever stopped it; the failure is
then kept by the stream and comes up in the next transfer.
-/

namespace Bytestream

/-- Why a handle operation failed. -/
inductive HandleFailure where
  /-- The stream failed with this code. -/
  | stream (code : Code)
  /-- The data ended inside an exact read. -/
  | endedEarly
  /-- A complete write could not go on. -/
  | stuck
deriving DecidableEq

namespace HandleFailure

/-- The kind of a failure, as handles name it. -/
def kind : HandleFailure → String
  | stream .endOfStream => "UnexpectedEof"
  | stream .allocationFailure => "OutOfMemory"
  | stream .seekError | stream .invalidData => "InvalidInput"
  | stream .invalidOperation => "Unsupported"
  | stream _ => "Other"
  | endedEarly => "UnexpectedEof"
  | stuck => "WriteZero"

/-- The text of a failure that came from the stream. -/
def message? : HandleFailure → Option String
  | stream code => some (Error.ofCode code).message
  | endedEarly | stuck => none

end HandleFailure

/-- Where a handle is moved to. -/
inductive HandleTarget where
  | fromStart (position : Nat)
  | fromCurrent (offset : Int)
  | fromEnd (offset : Int)

namespace Stream.Handle

variable {β : Type} [Backend β]

/-- One read into a destination, with the destination after it. The end of the data is a count of
zero. The count is the stream's own, so bytes may have been stored that it does not cover. -/
def read (destination : Bytes) : Op β (Except HandleFailure Nat × Bytes) := do
  let transfer ← Stream.read destination.length
  let outcome := transfer.outcome
  let after := transfer.fill destination
  if 0 < outcome.value then return (.ok outcome.value, after)
  else
    match outcome.code with
    | .success | .endOfStream => return (.ok 0, after)
    | code => return (.error (.stream code), after)

/-- One write. There is no end of data to write to, so that a full region is a failure. -/
def write (source : Bytes) : Op β (Except HandleFailure Nat) := do
  let outcome ← Stream.write source
  if 0 < outcome.value then return .ok outcome.value
  else
    match outcome.code with
    | .success => return .ok 0
    | code => return .error (.stream code)

/-- Streams keep nothing back, so there is nothing to flush. -/
def flush : Op β (Except HandleFailure Unit) := return .ok ()

/-- Moves the handle. A position that is no seek offset is refused without asking the stream. -/
def seek (target : HandleTarget) : Op β (Except HandleFailure Nat) := do
  let request? : Option (Int × Origin) :=
    match target with
    | .fromStart position => (toOffset? position).map (·, .start)
    | .fromCurrent offset => some (offset, .current)
    | .fromEnd offset => some (offset, .finish)
  match request? with
  | none => return .error (.stream .seekError)
  | some (offset, origin) =>
      let outcome ← Stream.seek offset origin
      if outcome.isDone then return .ok outcome.value
      else return .error (.stream outcome.code)

/-- Reads until the destination is full, in at most `rounds` reads, each into what the counts so
far have left of it. Every read that does not end the loop counts at least one byte. -/
def readFully (rounds : Nat) (destination : Bytes) :
    Op β (Except HandleFailure Unit × Bytes) := do
  match rounds, destination with
  | _, [] => return (.ok (), [])
  | 0, _ => return (.error .endedEarly, destination)
  | rounds + 1, _ =>
      let (result, after) ← read destination
      match result with
      | .error failure => return (.error failure, after)
      | .ok 0 => return (.error .endedEarly, after)
      | .ok count =>
          if after.length < count then Action.stop .outsideBuffer
          else
            let (result, rest) ← readFully rounds (after.drop count)
            return (result, after.take count ++ rest)

/-- Reads exactly as many bytes as the destination has. -/
def readExact (destination : Bytes) : Op β (Except HandleFailure Unit × Bytes) :=
  readFully destination.length destination

/-- Reads on into a growing buffer until the data ends, in at most `rounds` reads, and yields what
came before the end or the failure. The bytes of `left` are the room that the reads so far were
offered and did not count. -/
def readGrowing (rounds : Nat) (buffer : GrowingBuffer) (left : Bytes) :
    Op β (Except HandleFailure Unit × Bytes) := do
  match rounds with
  | 0 => return (.ok (), [])
  | rounds + 1 =>
      let (buffer, room) := buffer.offer left
      let (result, after) ← read room
      match result with
      | .error failure => return (.error failure, [])
      | .ok 0 => return (.ok (), [])
      | .ok count =>
          if after.length < count then Action.stop .outsideBuffer
          else
            let buffer := (buffer.store count).raiseLimit room.length count
            let (result, rest) ← readGrowing rounds buffer (after.drop count)
            return (result, after.take count ++ rest)

/-- Reads until the data ends. A trial into room of its own finds out whether there is any data
before the buffer is given memory, and its bytes become the start of the buffer. -/
def readToEnd (rounds : Nat) : Op β (Except HandleFailure Unit × Bytes) := do
  let (result, trial) ← read (List.replicate GrowingBuffer.leastRoom 0)
  match result with
  | .error failure => return (.error failure, [])
  | .ok 0 => return (.ok (), [])
  | .ok count =>
      if trial.length < count then Action.stop .outsideBuffer
      else
        let buffer := (GrowingBuffer.empty.reserve count).store count
        let (result, rest) ← readGrowing rounds buffer []
        return (result, trial.take count ++ rest)

/-- Writes until all of the source is written, in at most `rounds` writes. -/
def writeFully (rounds : Nat) (source : Bytes) : Op β (Except HandleFailure Unit) := do
  match rounds, source with
  | _, [] => return .ok ()
  | 0, _ => return .error .stuck
  | rounds + 1, source =>
      match ← write source with
      | .error failure => return .error failure
      | .ok 0 => return .error .stuck
      | .ok count =>
          if source.length < count then Action.stop .outsideBuffer
          else writeFully rounds (source.drop count)

/-- Writes all of the source. -/
def writeAll (source : Bytes) : Op β (Except HandleFailure Unit) := writeFully source.length source

end Stream.Handle

end Bytestream
