import Bytestream.Code
import Bytestream.Text.Hex

/-!
Recoverable errors, one constructor per cause, with their texts. Every error belongs to exactly
one outcome class, and every failing class has the error that stands for it alone.
-/

namespace Bytestream

/-- What made data unreadable although enough of it was there. -/
inductive Malformation where
  /-- A chunk header declares more payload than the reader accepts. -/
  | oversizedPayload (typeId size limit : Nat)
  /-- A stored number is none of the discriminants of an enumeration. -/
  | unknownDiscriminant (enumeration : String) (value : Int)
  /-- A cause found by a format built on top of this library. -/
  | reported (text : String)
deriving DecidableEq

/-- The text of a malformation, without the place where it was found. -/
def Malformation.message : Malformation → String
  | oversizedPayload typeId size limit =>
      s!"Chunk {Text.hex32 typeId} declares {size} payload bytes, limit is {limit}"
  | unknownDiscriminant enumeration value => s!"Unknown {enumeration} discriminant {value}"
  | reported text => text

/-- Why an operation was refused or did not complete. -/
inductive Error where
  | endOfStream
  | allocationFailure
  | readError
  | seekError
  | invalidData
  | invalidOperation
  | unknownError
  | malformed (cause : Malformation)
  | checksumMismatch (stored computed : Nat)
  | outOfBounds
  /-- A file could not be opened or mapped, with the reason that the system gave. -/
  | file (reason : String)
deriving DecidableEq

/-- A line of a file, as the place where malformed data was noticed. -/
structure Site where
  file : String
  line : Nat

namespace Error

/-- The outcome class of an error. -/
def code : Error → Code
  | endOfStream | outOfBounds => .endOfStream
  | allocationFailure => .allocationFailure
  | readError => .readError
  | seekError => .seekError
  | invalidData | malformed _ | checksumMismatch _ _ => .invalidData
  | invalidOperation => .invalidOperation
  | unknownError | file _ => .unknownError

/-- The text of an error. A malformation gives its own text alone. -/
def message : Error → String
  | endOfStream => "Reached the end of the stream"
  | allocationFailure => "Failed to allocate memory for a stream operation"
  | readError => "Failed to read from the stream"
  | seekError => "Invalid seek location"
  | invalidData => "Invalid data"
  | invalidOperation => "Operation not supported by this stream"
  | unknownError => "Unknown stream failure"
  | malformed cause => cause.message
  | checksumMismatch stored computed =>
      s!"Checksum mismatch - stored {Text.hex32 stored}, computed {Text.hex32 computed}"
  | outOfBounds => "Out of Bound read would have occurred!"
  | file reason => reason

/-- The text of an error noticed at `site`: malformed data is reported with the place. -/
def messageAt (site : Site) : Error → String
  | malformed cause => s!"Malformed - {site.file}:{site.line}: {cause.message}"
  | error => error.message

/-- The name of the cause. -/
def name : Error → String
  | endOfStream => "EndOfStream"
  | allocationFailure => "AllocationFailure"
  | readError => "ReadError"
  | seekError => "SeekError"
  | invalidData => "InvalidData"
  | invalidOperation => "InvalidOperation"
  | unknownError => "UnknownError"
  | malformed _ => "Malformed"
  | checksumMismatch _ _ => "ChecksumMismatch"
  | outOfBounds => "OutOfBounds"
  | file _ => "FileError"

/-- The error that stands for a code. Success has no error of its own, so it gives the
unclassified one. -/
def ofCode : Code → Error
  | .success => unknownError
  | .endOfStream => endOfStream
  | .allocationFailure => allocationFailure
  | .readError => readError
  | .seekError => seekError
  | .invalidData => invalidData
  | .invalidOperation => invalidOperation
  | .unknownError => unknownError

end Error

namespace Code

/-- The error of a failing code, none for success. -/
def error? (code : Code) : Option Error :=
  if code = success then none else some (Error.ofCode code)

/-- Success goes on, every other code stops with its error. -/
def toExcept (code : Code) : Except Error Unit :=
  match code.error? with
  | none => .ok ()
  | some error => .error error

/-- A failing code is the class of its own error. -/
theorem code_ofCode (code : Code) (hFails : code ≠ success) : (Error.ofCode code).code = code := by
  cases code <;> first | rfl | exact absurd rfl hFails

end Code

end Bytestream
