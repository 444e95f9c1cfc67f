import Bytestream.Crc32
import Bytestream.Chunk.Config
import Bytestream.Chunk.Header

/-!
Writing chunks, at once or piece by piece. A writer that does not know the payload size yet writes
a header of size zero, and seeks back to it once the payload is complete.
-/

namespace Bytestream.Chunk

variable {β : Type} [Backend β]

open Bytestream.Stream (Attempt lift)

/-- Writes bytes, and stops unless all of them were written. -/
def putBytes (bytes : Bytes) : Attempt β Unit := do
  let outcome ← lift (Stream.write bytes)
  let _ ← outcome.toExcept
  return ()

/-- Seeks to a position from the start, and stops at a failure. -/
def seekTo (position : Nat) : Attempt β Unit := do
  match toOffset? position with
  | none => Stream.reject .seekError .seekError
  | some offset =>
      let outcome ← lift (Stream.seek offset .start)
      let _ ← outcome.toExcept
      return ()

/-- Writes a whole chunk around a payload. -/
def write (typeId : Word 4) (version : Word 2) (payload : Bytes) (config : ChunkConfig) :
    Attempt β ChunkHeader := do
  let header : ChunkHeader := ⟨typeId, version, BitVec.ofNat _ payload.length⟩
  header.write config.order
  putBytes payload
  ChunkHeader.writeFooter config.order (crc32 payload config.seed)
  Action.emit (.chunkWritten typeId.toNat version.toNat payload.length)
  return header

end Bytestream.Chunk

namespace Bytestream

/-- A chunk being written: the header so far, the position it was written at, and the checksum of
the payload so far. -/
structure ChunkWriter where
  config : ChunkConfig
  header : ChunkHeader
  headerPosition : Nat
  sum : Word 4

namespace ChunkWriter

variable {β : Type} [Backend β]

open Bytestream.Stream (Attempt lift)

/-- The writer as a record. -/
def describe (writer : ChunkWriter) : String :=
  Text.openRecord "ChunkWriter"
    [("header", writer.header.describe), ("header_pos", toString writer.headerPosition)]

/-- Starts a chunk at the current position of a stream that can seek. -/
def begin (typeId : Word 4) (version : Word 2) (config : ChunkConfig) :
    Attempt β ChunkWriter := do
  if (← Action.state).capabilities.seek then
    let outcome ← lift Stream.position
    let headerPosition ← outcome.toExcept
    let header : ChunkHeader := ⟨typeId, version, 0⟩
    header.write config.order
    return { config, header, headerPosition, sum := config.seed }
  else Stream.reject .invalidOperation .invalidOperation

/-- Appends payload bytes. Bytes that could not be written are not counted. -/
def append (writer : ChunkWriter) (bytes : Bytes) : Attempt β ChunkWriter := do
  Chunk.putBytes bytes
  let dataSize := writer.header.dataSize + BitVec.ofNat _ bytes.length
  return {
    writer with
    header := { writer.header with dataSize }
    sum := crc32 bytes writer.sum }

/-- Appends pieces one by one. For each piece the error that kept it out, if any, and the payload
size after it; a piece that fails does not keep out those after it. -/
def appendEach (writer : ChunkWriter) :
    List Bytes → Stream.Op β (List (Option Error × Nat) × ChunkWriter)
  | [] => return ([], writer)
  | piece :: later => do
      let appended ← Action.attempt (writer.append piece)
      let (error, writer) := match appended with
        | .ok longer => (none, longer)
        | .error error => (some error, writer)
      let (entries, last) ← writer.appendEach later
      return ((error, writer.header.dataSize.toNat) :: entries, last)

/-- Writes the footer, then the size into the header, and returns to the end of the chunk. -/
def finish (writer : ChunkWriter) : Attempt β ChunkHeader := do
  let order := writer.config.order
  ChunkHeader.writeFooter order writer.sum
  let outcome ← lift Stream.position
  let stop ← outcome.toExcept
  Chunk.seekTo (writer.headerPosition + ChunkHeader.dataSizeOffset)
  Stream.putWord order writer.header.dataSize
  Chunk.seekTo stop
  let header := writer.header
  Action.emit (.chunkFinished header.typeId.toNat header.version.toNat header.dataSize.toNat)
  return header

end ChunkWriter

end Bytestream
