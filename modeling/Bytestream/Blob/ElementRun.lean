import Bytestream.Bytes
import Bytestream.Text.Record

/-!
A run of equally sized elements that are taken off one by one. The number of elements is counted
and not measured, so that elements without bytes are still there as often as they should be.
-/

namespace Bytestream

/-- The bytes of the elements not yet taken, and how many those are. -/
structure ElementRun where
  bytes : Bytes
  size : Nat
  remaining : Nat
deriving DecidableEq

namespace ElementRun

/-- The first element and the run of the others. -/
def next? (run : ElementRun) : Option (Bytes × ElementRun) :=
  match run.remaining with
  | 0 => none
  | remaining + 1 =>
      some (run.bytes.take run.size, { run with bytes := run.bytes.drop run.size, remaining })

/-- Up to `count` elements from the front, and the run of the others. -/
def take : Nat → ElementRun → List Bytes × ElementRun
  | 0, run => ([], run)
  | count + 1, run =>
      match run.next? with
      | none => ([], run)
      | some (element, rest) =>
          let (elements, rest) := rest.take count
          (element :: elements, rest)

/-- All elements. -/
def toList (run : ElementRun) : List Bytes := (run.take run.remaining).1

/-- The run as a record. -/
def describe (run : ElementRun) : String :=
  Text.closedRecord "RelArrayIter" [("remaining", toString run.remaining)]

end ElementRun

end Bytestream
