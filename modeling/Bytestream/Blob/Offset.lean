import Bytestream.Scalar

/-!
Stored offsets. One value of the scalar is given up to mean null: the smallest of a signed scalar,
so that the others reach equally far both ways, and the largest of an unsigned one.
-/

namespace Bytestream.Scalar

/-- The offset that means null. -/
def nullOffset (scalar : Scalar) : Int :=
  match scalar.form with
  | .signed => scalar.minimum
  | .unsigned | .floating => scalar.maximum

/-- The smallest offset that can be stored. -/
def leastOffset (scalar : Scalar) : Int :=
  match scalar.form with
  | .signed => scalar.minimum + 1
  | .unsigned | .floating => scalar.minimum

/-- The largest offset that can be stored. -/
def greatestOffset (scalar : Scalar) : Int :=
  match scalar.form with
  | .signed => scalar.maximum
  | .unsigned | .floating => scalar.maximum - 1

end Bytestream.Scalar
