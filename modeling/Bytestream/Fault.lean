/-!
Faults: breaches of a contract between the parts of a program. No input data alone causes one, and
an operation that faults is not resumed.
-/

namespace Bytestream

/-- Which contract was breached. -/
inductive Fault where
  /-- A window was given a start after its end. -/
  | windowReversed (start stop : Nat)
  /-- A cursor was placed outside of its window. -/
  | cursorOutside (cursor start stop : Nat)
  /-- More bytes were consumed than the window had left. -/
  | overConsumed (count available : Nat)
  /-- A refill was asked for while bytes were unread. -/
  | refillUnexhausted (unread : Nat)
  /-- A backend reported a refill that added nothing. -/
  | refillEmpty (kind : String)
  /-- A backend reported a refill that ends past its own buffer. -/
  | refillPastBuffer (kind : String)
  /-- A pointer target is not a whole number of strides away. -/
  | misalignedTarget (target stride position : Nat)
  /-- A pointer target is too far away for the offset type. -/
  | offsetOutOfRange (offset least greatest : Int)
  /-- An array has more elements than its count can say. -/
  | countTooLarge (count width : Nat)
  /-- An alignment is not a power of two. -/
  | alignmentNotPower (alignment : Nat)
  /-- A blob would have grown to a length that no offset can measure. -/
  | blobTooLong
  /-- A cut was made past the end of a buffer. -/
  | outsideBuffer
  /-- A source was asked for pieces without a positive length to cut them at. -/
  | noPieceLength
deriving DecidableEq

/-- The text of a fault, for those that are reported in words. -/
def Fault.message? : Fault → Option String
  | windowReversed start stop => some s!"window start {start} past end {stop}"
  | cursorOutside cursor start stop =>
      some s!"cursor {cursor} outside of window [{start}, {stop}]"
  | overConsumed count available =>
      some s!"consumed {count} bytes with only {available} available"
  | refillUnexhausted unread =>
      some s!"refill requires an exhausted buffer, {unread} bytes unread"
  | refillEmpty kind => some s!"{kind} refill must produce at least one byte"
  | refillPastBuffer kind => some s!"{kind} refill window ends past its buffer"
  | misalignedTarget target stride position =>
      some (s!"Invalid pointer alignment, target {target} is not a multiple of {stride} " ++
        s!"bytes away from {position}")
  | offsetOutOfRange offset least greatest =>
      some (s!"Offset {offset} out of range [{least}, {greatest}], " ++
        "use a wider offset type or a larger stride")
  | countTooLarge count width =>
      some s!"Element count {count} does not fit a {width} byte count field"
  | alignmentNotPower alignment => some s!"Alignment {alignment} is not a power of two"
  | blobTooLong | outsideBuffer | noPieceLength => none

end Bytestream
