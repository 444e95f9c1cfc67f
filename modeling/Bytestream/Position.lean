/-!
Positions and offsets as 64-bit numbers. A sum of the two is formed exactly and checked afterwards,
so no target wraps around.
-/

namespace Bytestream

/-- The first number that is no position: positions have 64 bits. -/
def positionLimit : Nat := 0x10000000000000000

/-- The first number that is no offset: an offset has a sign and 63 bits. -/
def offsetLimit : Nat := 0x8000000000000000

/-- A sum as a position, none when it is negative or too large. -/
def toPosition? (sum : Int) : Option Nat :=
  if 0 ≤ sum ∧ sum < positionLimit then some sum.toNat else none

/-- A position as an offset, none when it is too large for one. -/
def toOffset? (position : Nat) : Option Int :=
  if position < offsetLimit then some position else none

/-- The positions are the sums in range, unchanged. -/
theorem toPosition?_eq_some_iff {sum : Int} {position : Nat} :
    toPosition? sum = some position ↔ sum = position ∧ position < positionLimit := by
  simp only [toPosition?, Option.ite_none_right_eq_some, Option.some.injEq]
  omega

end Bytestream
