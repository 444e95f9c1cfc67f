import Bytestream.Position

/-!
Seek origins and how an offset resolves against one.
-/

namespace Bytestream

/-- What a seek offset is relative to. -/
inductive Origin where
  | start
  | current
  | finish
deriving DecidableEq, Inhabited

namespace Origin

/-- The number of an origin. -/
def number : Origin → Nat
  | start => 0
  | current => 1
  | finish => 2

/-- The origin with this number, if there is one. -/
def ofNumber? : Nat → Option Origin
  | 0 => some start
  | 1 => some current
  | 2 => some finish
  | _ => none

/-- The name of an origin as text shows it. -/
def name : Origin → String
  | start => "Begin"
  | current => "Current"
  | finish => "End"

/-- The position that offsets from this origin count from. -/
def base (origin : Origin) (current length : Nat) : Nat :=
  match origin with
  | .start => 0
  | .current => current
  | .finish => length

/-- The absolute position `offset` away from the origin, if there is one. -/
def resolve (origin : Origin) (offset : Int) (current length : Nat) : Option Nat :=
  toPosition? (origin.base current length + offset)

end Origin

end Bytestream
