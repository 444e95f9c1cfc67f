import Bytestream.Backend.FileAccess
import Bytestream.Bytes
import Bytestream.Seek

/-!
The byte source below a buffered reader. A source may be slow or unreliable: a schedule says what
its next reads and seeks do, and once a schedule has run out the source behaves well.
-/

namespace Bytestream

/-- What one read of a source does. -/
inductive SourceRead where
  /-- Gives at most so many bytes. -/
  | atMost (count : Nat)
  /-- Gives nothing and may be tried again. -/
  | interrupted
  /-- Fails. -/
  | failed
deriving DecidableEq

/-- Bytes with a position, and the schedules of the reads and seeks to come. -/
structure Source where
  bytes : Bytes
  position : Nat := 0
  /-- The first position that the source cannot be moved to. -/
  limit : Nat
  /-- Every read of a source that is not readable fails. -/
  readable : Bool := true
  reads : List SourceRead := []
  /-- Whether each seek to come succeeds. -/
  seeks : List Bool := []

namespace Source

/-- A source in memory, which has any 64-bit position. -/
def memory (bytes : Bytes) : Source := { bytes, limit := positionLimit }

/-- A source in a file, whose positions are also offsets. A file that is not open for reading can
still be moved in. -/
def file (access : FileAccess) (bytes : Bytes) : Source :=
  { bytes, limit := offsetLimit, readable := access.canRead }

/-- The bytes from the position on. -/
def rest (source : Source) : Bytes := source.bytes.drop source.position

/-- Takes up to `count` bytes. -/
def take (source : Source) (count : Nat) : Bytes × Source :=
  let taken := source.rest.take count
  (taken, { source with position := source.position + taken.length })

/-- One read for up to `count` bytes that tries again after every interruption, none when the
source fails. Interruptions come from the schedule, so finitely many precede the answer. -/
def read (source : Source) (count : Nat) : Option Bytes × Source :=
  if source.readable then
    match source.reads.dropWhile (· = .interrupted) with
    | [] => let (taken, after) := source.take count; (some taken, { after with reads := [] })
    | .atMost limit :: later =>
        let (taken, after) := source.take (min count limit)
        (some taken, { after with reads := later })
    | _ :: later => (none, { source with reads := later })
  else (none, source)

/-- Moves the source and gives its new position. A seek that fails leaves the source in place. -/
def seek (source : Source) (offset : Int) (origin : Origin) : Option Nat × Source :=
  let scheduled := source.seeks.headD true
  let waiting := { source with seeks := source.seeks.tail }
  match scheduled, origin.resolve offset source.position source.bytes.length with
  | true, some target =>
      if target < source.limit then (some target, { waiting with position := target })
      else (none, waiting)
  | _, _ => (none, waiting)

end Source

end Bytestream
