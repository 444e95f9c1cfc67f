import Bytestream.Backend
import Bytestream.Backend.FileAccess
import Bytestream.Backend.SystemCall

/-!
An open file: a byte array with a position that may lie past the end. Where a write starts past
the end, zeros fill the gap. Transfers are loops of system calls, and a schedule says what the next
calls do; once a schedule has run out, every call does as much as it can. Moves, queries of the size
and closing have no schedule: the system fails none of them. What such a failure would leave behind is
what a refused move or a write that fails at its first call leaves.
-/

namespace Bytestream

/-- An open file, the position of the next transfer, and the calls to come. -/
structure File where
  bytes : Bytes
  access : FileAccess := .readWrite
  position : Nat := 0
  reads : List SystemCall := []
  writes : List SystemCall := []

namespace File

/-- A file on a system that serves every call as far as it can. -/
def opened (bytes : Bytes) (access : FileAccess) (position : Nat) : File :=
  { bytes, access, position }

/-- The failure of a transfer in a direction that the file is not open for. -/
def refusal : SystemError := ⟨.other, FileAccess.refusal⟩

/-- The most bytes a file can have: its size has to be an offset. -/
def sizeLimit : Nat := offsetLimit - 1

/-- The failure of a write that starts where no file can have a byte. -/
def tooLarge : SystemError := ⟨.other, "File too large (os error 27)"⟩

/-- The code of a write that a call failed. -/
def writeCode : SystemErrorKind → Code
  | .writeZero => .endOfStream
  | .outOfMemory => .allocationFailure
  | .interrupted | .other => .unknownError

/-- One call that reads up to `count` bytes. -/
def readOnce (file : File) (count : Nat) : Except SystemError Bytes × File :=
  if file.access.canRead then
    let waiting := { file with reads := file.reads.tail }
    match SystemCall.allowance file.reads count with
    | .ok allowed =>
        let piece := (file.bytes.drop file.position).take allowed
        (.ok piece, { waiting with position := file.position + piece.length })
    | .error error => (.error error, waiting)
  else (.error refusal, file)

/-- One call that writes from the front of the source. No call writes past the largest size. -/
def writeOnce (file : File) (source : Bytes) : Except SystemError Bytes × File :=
  if !file.access.canWrite then (.error refusal, file)
  else if sizeLimit ≤ file.position then (.error tooLarge, file)
  else
    let waiting := { file with writes := file.writes.tail }
    match SystemCall.allowance file.writes source.length with
    | .ok allowed =>
        let piece := source.take (min allowed (sizeLimit - file.position))
        let bytes := file.bytes.store file.position piece
        (.ok piece, { waiting with bytes, position := file.position + piece.length })
    | .error error => (.error error, waiting)

/-- Reads until the count is reached, a call reads nothing, or one fails. Every call that does not
end the loop reads a byte or uses up an interruption. -/
def read (file : File) (count : Nat) : Reply File Transfer :=
  let call := fun (moved : Bytes) (file : File) => file.readOnce (count - moved.length)
  let done := moveAll call count (count + file.reads.length) [] file
  ⟨⟨.report done.moved.length (done.ending.code fun _ => .readError), done.moved⟩, done.state,
    done.ending.log (.fileReadFailed done.moved.length)⟩

/-- Writes until the source is written, a call writes nothing, or one fails. -/
def write (file : File) (source : Bytes) : Reply File Outcome :=
  let call := fun (moved : Bytes) (file : File) => file.writeOnce (source.drop moved.length)
  let done := moveAll call source.length (source.length + file.writes.length) [] file
  ⟨.report done.moved.length (done.ending.code writeCode), done.state,
    done.ending.log (.fileWriteFailed done.moved.length)⟩

/-- Moves to any position that is also an offset: those are what a file can have. -/
def seek (file : File) (offset : Int) (origin : Origin) : Reply File Outcome :=
  match origin.resolve offset file.position file.bytes.length with
  | some target =>
      if target < offsetLimit then ⟨.done target, { file with position := target }, []⟩
      else ⟨.failed .seekError, file, []⟩
  | none => ⟨.failed .seekError, file, []⟩

instance : Backend File where
  kind := "file"
  capabilities _ := { size := true, read := true, write := true, seek := true, close := true }
  size file := ⟨.done file.bytes.length, file, []⟩
  read := read
  write := write
  seek file window offset origin := (file.seek offset origin).beside window

end File

end Bytestream
