/-!
The outcome classes of stream operations. Their numbers are part of the packed form of an outcome,
and their names are what logs and messages print.
-/

namespace Bytestream

/-- How a stream operation ended. -/
inductive Code where
  | success
  | endOfStream
  | allocationFailure
  | readError
  | seekError
  | invalidData
  | invalidOperation
  | unknownError
deriving DecidableEq, Inhabited

namespace Code

/-- The number of a code, below eight, so that three bits hold it. -/
def number : Code → Nat
  | success => 0
  | endOfStream => 1
  | allocationFailure => 2
  | readError => 3
  | seekError => 4
  | invalidData => 5
  | invalidOperation => 6
  | unknownError => 7

/-- The code with this number, if there is one. -/
def ofNumber? : Nat → Option Code
  | 0 => some success
  | 1 => some endOfStream
  | 2 => some allocationFailure
  | 3 => some readError
  | 4 => some seekError
  | 5 => some invalidData
  | 6 => some invalidOperation
  | 7 => some unknownError
  | _ => none

/-- The name of a code as text shows it. -/
def name : Code → String
  | success => "Success"
  | endOfStream => "EndOfStream"
  | allocationFailure => "AllocationFailure"
  | readError => "ReadError"
  | seekError => "SeekError"
  | invalidData => "InvalidData"
  | invalidOperation => "InvalidOperation"
  | unknownError => "UnknownError"

/-- Only `success` is free of failure. -/
def isSuccess (code : Code) : Bool := code = success

theorem number_lt (code : Code) : code.number < 8 := by cases code <;> decide

theorem ofNumber?_number (code : Code) : ofNumber? code.number = some code := by
  cases code <;> rfl

@[simp] theorem isSuccess_iff (code : Code) : code.isSuccess = true ↔ code = success := by
  simp [isSuccess]

end Code

end Bytestream
