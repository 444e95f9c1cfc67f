/-!
Which operations a backend implements.
-/

namespace Bytestream

/-- The set of operations that a backend offers. A buffered read goes through a window on the
backend's own buffer. -/
structure Capabilities where
  size : Bool := false
  read : Bool := false
  write : Bool := false
  seek : Bool := false
  close : Bool := false
  bufferedRead : Bool := false
deriving DecidableEq, Inhabited

namespace Capabilities

/-- The members in order, each with its bit and its name. -/
def members (capabilities : Capabilities) : List (Bool × Nat × String) :=
  [(capabilities.size, 1, "SIZE"), (capabilities.read, 2, "READ"),
    (capabilities.write, 4, "WRITE"), (capabilities.seek, 8, "SEEK"),
    (capabilities.close, 16, "CLOSE"), (capabilities.bufferedRead, 32, "BUFFERED_READ")]

/-- The set as a number, one bit per member. -/
def bits (capabilities : Capabilities) : Nat :=
  capabilities.members.foldr (fun (present, bit, _) rest => if present then bit + rest else rest) 0

/-- The set that a number stands for. Bits above the sixth mean nothing. -/
def ofBits (bits : Nat) : Capabilities where
  size := bits.testBit 0
  read := bits.testBit 1
  write := bits.testBit 2
  seek := bits.testBit 3
  close := bits.testBit 4
  bufferedRead := bits.testBit 5

/-- The names of the members that are present, or `0x0` for the empty set. -/
def describe (capabilities : Capabilities) : String :=
  let present := capabilities.members.filterMap fun (present, _, name) =>
    if present then some name else none
  "Capabilities(" ++ (if present.isEmpty then "0x0" else " | ".intercalate present) ++ ")"

/-- Bytes can be read, either directly or through the window. -/
def canRead (capabilities : Capabilities) : Bool :=
  capabilities.read || capabilities.bufferedRead

end Capabilities

end Bytestream
