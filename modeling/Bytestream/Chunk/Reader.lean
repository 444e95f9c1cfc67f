import Bytestream.Backend.Growable
import Bytestream.Crc32
import Bytestream.Chunk.Config
import Bytestream.Chunk.Header

/-!
Reading chunks. Whatever is wrong with a chunk is kept by the stream as its error state, so that
nothing after a damaged chunk is taken for good by mistake.
-/

namespace Bytestream

/-- A chunk as it was read: its header, its payload and the checksum in its footer. -/
structure Chunk where
  header : ChunkHeader
  payload : Bytes
  checksum : Word 4
deriving DecidableEq

namespace Chunk

variable {β : Type} [Backend β]

open Bytestream.Stream (Attempt lift)

/-- Reads a header, and refuses one that declares more payload than the limit. -/
def readHeader (config : ChunkConfig) : Attempt β ChunkHeader := do
  let header ← ChunkHeader.read config.order
  let size := header.dataSize.toNat
  if config.maxDataSize < size then
    Stream.reject .invalidData
      (.malformed (.oversizedPayload header.typeId.toNat size config.maxDataSize))
  else
    Action.emit (.headerRead header.typeId.toNat header.version.toNat size)
    return header

/-- Takes `wanted` payload bytes straight off the window in at most `rounds` pieces, summing each
as it goes by. A window that was refilled is not empty, so as many rounds as bytes are wanted
always suffice. -/
def takePayload (rounds wanted : Nat) (sum : Word 4) : Attempt β (Bytes × Word 4) := do
  match rounds, wanted with
  | 0, _ | _, 0 => return ([], sum)
  | rounds + 1, wanted =>
      if (← Action.state).available = 0 then (← lift Stream.refill).toExcept
      let piece := (← lift Stream.unread).take wanted
      lift (Stream.consume piece.length)
      let (rest, sum) ← takePayload rounds (wanted - piece.length) (crc32 piece sum)
      return (piece ++ rest, sum)

/-- Reads `size` payload bytes with their checksum: through the window where there is one, and with
a single read otherwise. -/
def readPayload (size : Nat) (seed : Word 4) : Attempt β (Bytes × Word 4) := do
  if (← Action.state).capabilities.bufferedRead then
    let result ← takePayload size size seed
    Action.emit (.payloadBuffered size)
    return result
  else
    let transfer ← lift (Stream.read size)
    let _ ← transfer.outcome.toExcept
    let payload := transfer.fill (List.replicate size 0)
    return (payload, crc32 payload seed)

/-- Reads the payload and the footer after `header`, and compares the checksums if the settings
say so. -/
def readPayloadVerified [Memory] (header : ChunkHeader) (config : ChunkConfig) :
    Attempt β (Bytes × Word 4) := do
  let size := header.dataSize.toNat
  if reservable < size then Stream.reject .allocationFailure .allocationFailure
  else
    let (payload, computed) ← readPayload size config.seed
    let stored ← ChunkHeader.readFooter config.order
    if config.verify && computed ≠ stored then
      let _ ← lift (Stream.record .invalidData)
      Action.emit (.checksumDiffers header.typeId.toNat stored.toNat computed.toNat)
      Action.stop (.error (.checksumMismatch stored.toNat computed.toNat))
    else return (payload, stored)

/-- Reads one chunk. -/
def read [Memory] (config : ChunkConfig) : Attempt β Chunk := do
  let header ← readHeader config
  let (payload, checksum) ← readPayloadVerified header config
  return { header, payload, checksum }

/-- Seeks past the payload and the footer after `header`. -/
def skip (header : ChunkHeader) : Attempt β Unit := do
  match toOffset? (header.dataSize.toNat + ChunkHeader.footerSize) with
  | none => Stream.reject .seekError .seekError
  | some offset =>
      let outcome ← lift (Stream.seek offset .current)
      let _ ← outcome.toExcept
      return ()

/-- Reads chunks until one fails, at most `rounds` of them, and yields those that were read with
the error that ended them. -/
def readAll [Memory] (rounds : Nat) (config : ChunkConfig) :
    Stream.Op β (List Chunk × Option Error) := do
  match rounds with
  | 0 => return ([], none)
  | rounds + 1 =>
      match ← Action.attempt (read config) with
      | .error error => return ([], some error)
      | .ok chunk =>
          let (later, ended) ← readAll rounds config
          return (chunk :: later, ended)

end Chunk

end Bytestream
