/-!
What an open file may be used for.
-/

namespace Bytestream

/-- The directions that a file is open for. -/
inductive FileAccess where
  | readWrite
  | readOnly
  | writeOnly
deriving DecidableEq, Inhabited

namespace FileAccess

/-- The file is open for reading. -/
def canRead (access : FileAccess) : Bool := access ≠ writeOnly

/-- The file is open for writing. -/
def canWrite (access : FileAccess) : Bool := access ≠ readOnly

/-- The reason that the system gives for a transfer in a direction the file is not open for. -/
def refusal : String := "Bad file descriptor (os error 9)"

end FileAccess

end Bytestream
