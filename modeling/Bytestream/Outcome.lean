import Bytestream.Code
import Bytestream.Error
import Bytestream.Text.Record

/-!
The outcome of a stream operation: a magnitude (bytes moved, a size, a position) with a code. Both
share one 64-bit word, the code in its three low bits, so a magnitude keeps 61 bits.
-/

namespace Bytestream

/-- The first number that is no magnitude: magnitudes have 61 bits. -/
def magnitudeLimit : Nat := 0x2000000000000000

/-- A magnitude with the code that classifies it. -/
structure Outcome where
  value : Nat
  code : Code
  value_lt : value < magnitudeLimit
deriving DecidableEq

namespace Outcome

/-- Packs a magnitude with a code. The three highest bits of a 64-bit magnitude are lost. -/
def report (value : Nat) (code : Code) : Outcome :=
  ⟨value % magnitudeLimit, code, Nat.mod_lt _ (by decide)⟩

/-- A success of this magnitude. -/
def done (value : Nat) : Outcome := report value .success

/-- A failure of magnitude zero. -/
def failed (code : Code) : Outcome := report 0 code

instance : Inhabited Outcome := ⟨done 0⟩

/-- The same magnitude under another code. -/
def withCode (outcome : Outcome) (code : Code) : Outcome := { outcome with code }

/-- The packed 64-bit word. -/
def bits (outcome : Outcome) : Nat := outcome.value * 8 + outcome.code.number

/-- No failure. -/
def isDone (outcome : Outcome) : Bool := outcome.code.isSuccess

/-- The magnitude of a success, the error of a failure. -/
def toExcept (outcome : Outcome) : Except Error Nat :=
  match outcome.code.error? with
  | none => .ok outcome.value
  | some error => .error error

/-- The outcome as a record. -/
def describe (outcome : Outcome) : String :=
  Text.closedRecord "IoResult"
    [("value", toString outcome.value), ("code", outcome.code.name)]

/-- A magnitude that fits is kept. -/
theorem value_report {value : Nat} (code : Code) (hFits : value < magnitudeLimit) :
    (report value code).value = value := Nat.mod_eq_of_lt hFits

@[simp] theorem code_report (value : Nat) (code : Code) : (report value code).code = code := rfl

@[simp] theorem code_done (value : Nat) : (done value).code = .success := rfl

@[simp] theorem value_failed (code : Code) : (failed code).value = 0 := rfl

@[simp] theorem code_failed (code : Code) : (failed code).code = code := rfl

end Outcome

end Bytestream
