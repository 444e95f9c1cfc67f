import Bytestream.Word

/-!
Fixed-width scalars: how wide one is, and how its word reads as a number.
-/

namespace Bytestream

/-- How the bits of a scalar are to be read. A floating-point scalar is carried as its bits and is
never converted. -/
inductive ScalarForm where
  | unsigned
  | signed
  | floating
deriving DecidableEq

/-- A scalar of `width` bytes. -/
structure Scalar where
  width : Nat
  form : ScalarForm
deriving DecidableEq

namespace Scalar

/-- The unsigned integer of `width` bytes. -/
def unsigned (width : Nat) : Scalar := ⟨width, .unsigned⟩

/-- The two's complement integer of `width` bytes. -/
def signed (width : Nat) : Scalar := ⟨width, .signed⟩

/-- The floating-point number of `width` bytes. -/
def floating (width : Nat) : Scalar := ⟨width, .floating⟩

/-- The integer that a word of this scalar stands for, its bits for a floating-point one. -/
def toInt (scalar : Scalar) (word : Word scalar.width) : Int :=
  match scalar.form with
  | .signed => word.toInt
  | .unsigned | .floating => word.toNat

/-- The word of an integer, which is reduced to the width of the scalar. -/
def ofInt (scalar : Scalar) (value : Int) : Word scalar.width := BitVec.ofInt _ value

/-- The smallest integer of the scalar. -/
def minimum (scalar : Scalar) : Int :=
  match scalar.form with
  | .signed => (BitVec.intMin (8 * scalar.width)).toInt
  | .unsigned | .floating => 0

/-- The largest integer of the scalar. -/
def maximum (scalar : Scalar) : Int :=
  match scalar.form with
  | .signed => (BitVec.intMax (8 * scalar.width)).toInt
  | .unsigned | .floating => (BitVec.allOnes (8 * scalar.width)).toNat

/-- The word of an integer that the scalar can hold, none for any other. -/
def narrow? (scalar : Scalar) (value : Int) : Option (Word scalar.width) :=
  if scalar.minimum ≤ value ∧ value ≤ scalar.maximum then some (scalar.ofInt value) else none

end Scalar

end Bytestream
