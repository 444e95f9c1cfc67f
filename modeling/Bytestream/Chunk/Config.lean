import Bytestream.Word

/-!
How chunks are written and how warily they are read. Byte order and seed belong to the format and
have to be the same on both sides; the other two only concern the reader.
-/

namespace Bytestream

/-- The settings of chunk reading and writing. -/
structure ChunkConfig where
  /-- The byte order of every header and footer field. -/
  order : ByteOrder := .little
  /-- The checksum that payload checksums continue from. -/
  seed : Word 4 := 0
  /-- The largest payload that a reader accepts: one gibibyte unless set otherwise. -/
  maxDataSize : Nat := 0x40000000
  /-- Whether a reader compares the stored checksum with the payload. -/
  verify : Bool := true
deriving DecidableEq

namespace ChunkConfig

/-- The settings of formats whose fields are stored most significant byte first. -/
def bigEndian : ChunkConfig := { order := .big }

/-- Settings for recovery, under which a damaged payload is returned as it is. -/
def unchecked : ChunkConfig := { verify := false }

end ChunkConfig

end Bytestream
