import Bytestream.Code
import Bytestream.Scalar
import Bytestream.Seek

/-!
Enumerations that are stored as numbers: the scalar that holds the number, and the number of each
member. A stored number that belongs to no member cannot be decoded.
-/

namespace Bytestream

/-- How the members of `α` are stored, under the name that messages give the enumeration. -/
structure Enumeration (α : Type) where
  name : String
  scalar : Scalar
  discriminant : α → Int
  ofDiscriminant? : Int → Option α

namespace Enumeration

/-- The stored word of a member. -/
def encode {α : Type} (enumeration : Enumeration α) (member : α) : Word enumeration.scalar.width :=
  enumeration.scalar.ofInt (enumeration.discriminant member)

/-- The member that a stored word stands for, or the number that stands for none. -/
def decode {α : Type} (enumeration : Enumeration α) (word : Word enumeration.scalar.width) :
    Except Int α :=
  let number := enumeration.scalar.toInt word
  match enumeration.ofDiscriminant? number with
  | some member => .ok member
  | none => .error number

/-- An enumeration whose members are numbered by one unsigned byte. -/
def byte {α : Type} (name : String) (number : α → Nat) (ofNumber? : Nat → Option α) :
    Enumeration α where
  name := name
  scalar := .unsigned 1
  discriminant member := number member
  ofDiscriminant? value := if value < 0 then none else ofNumber? value.toNat

/-- The outcome codes. -/
def codes (name : String) : Enumeration Code := byte name Code.number Code.ofNumber?

/-- The seek origins. -/
def origins (name : String) : Enumeration Origin := byte name Origin.number Origin.ofNumber?

/-- The byte orders. -/
def byteOrders (name : String) : Enumeration ByteOrder :=
  byte name ByteOrder.number ByteOrder.ofNumber?

/-- An enumeration given by the list of its discriminants. -/
def listed (name : String) (scalar : Scalar) (members : List Int) : Enumeration Int where
  name := name
  scalar := scalar
  discriminant member := member
  ofDiscriminant? value := if value ∈ members then some value else none

end Enumeration

end Bytestream
