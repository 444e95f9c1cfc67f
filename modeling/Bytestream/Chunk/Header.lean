import Bytestream.Stream.Codec
import Bytestream.Text.Record

/-!
The fixed fields around a payload: a header of identifier, version and payload size before it, and
a footer with the checksum after it.
-/

namespace Bytestream

/-- What comes before a payload. -/
structure ChunkHeader where
  typeId : Word 4
  version : Word 2
  dataSize : Word 8
deriving DecidableEq, Inhabited

namespace ChunkHeader

/-- The bytes of a header. -/
def size : Nat := 4 + 2 + 8

/-- The bytes of a footer. -/
def footerSize : Nat := 4

/-- Where the payload size lies inside a header. -/
def dataSizeOffset : Nat := 4 + 2

/-- The bytes of the whole chunk. -/
def chunkLength (header : ChunkHeader) : Nat := size + footerSize + header.dataSize.toNat

/-- The header as a record. -/
def describe (header : ChunkHeader) : String :=
  Text.closedRecord "ChunkHeader"
    [("type_id", toString header.typeId.toNat), ("version", toString header.version.toNat),
      ("data_size", toString header.dataSize.toNat)]

variable {β : Type} [Backend β]

/-- Reads the three fields in order, each with a read of its own. -/
def read (order : ByteOrder) : Stream.Attempt β ChunkHeader := do
  let typeId ← Stream.readWord order 4
  let version ← Stream.readWord order 2
  let dataSize ← Stream.readWord order 8
  return { typeId, version, dataSize }

/-- Writes the three fields in order, each with a write of its own. -/
def write (header : ChunkHeader) (order : ByteOrder) : Stream.Attempt β Unit := do
  Stream.putWord order header.typeId
  Stream.putWord order header.version
  Stream.putWord order header.dataSize

/-- Reads the checksum after a payload. -/
def readFooter (order : ByteOrder) : Stream.Attempt β (Word 4) := Stream.readWord order 4

/-- Writes the checksum after a payload. -/
def writeFooter (order : ByteOrder) (sum : Word 4) : Stream.Attempt β Unit :=
  Stream.putWord order sum

end ChunkHeader

end Bytestream
