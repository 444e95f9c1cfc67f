import Bytestream.Code
import Bytestream.Fault
import Bytestream.Text.Record

/-!
The read window on a backend's buffer. Bytes from `start` to `cursor` have been consumed, bytes
from `cursor` to `stop` are still unread. The order of the three is part of the type, so an
operation that would break it is a fault and leaves no record behind.
-/

namespace Bytestream

/-- Three ordered indices into a buffer. -/
structure Window where
  start : Nat
  cursor : Nat
  stop : Nat
  start_le_cursor : start ≤ cursor
  cursor_le_stop : cursor ≤ stop
deriving DecidableEq

namespace Window

/-- The window over nothing. -/
def empty : Window := ⟨0, 0, 0, Nat.le_refl 0, Nat.le_refl 0⟩

instance : Inhabited Window := ⟨empty⟩

/-- The window over the first `length` bytes, all unread. -/
def whole (length : Nat) : Window := ⟨0, 0, length, Nat.le_refl 0, Nat.zero_le length⟩

/-- The window over `count` bytes from `start`, all unread. -/
def run (start count : Nat) : Window :=
  ⟨start, start, start + count, Nat.le_refl start, Nat.le_add_right start count⟩

/-- The window from `start` to `stop`, all unread. -/
def between (start stop : Nat) : Except Fault Window :=
  if hOrder : start ≤ stop then .ok ⟨start, start, stop, Nat.le_refl start, hOrder⟩
  else .error (.windowReversed start stop)

/-- How many bytes are unread. -/
def available (window : Window) : Nat := window.stop - window.cursor

/-- Nothing is unread. -/
def exhausted (window : Window) : Bool := window.cursor = window.stop

/-- Moves the cursor inside the window. -/
def setCursor (window : Window) (cursor : Nat) : Except Fault Window :=
  if hInside : window.start ≤ cursor ∧ cursor ≤ window.stop then
    .ok { window with cursor, start_le_cursor := hInside.1, cursor_le_stop := hInside.2 }
  else .error (.cursorOutside cursor window.start window.stop)

/-- Marks `count` bytes as read. -/
def consume (window : Window) (count : Nat) : Except Fault Window :=
  if hEnough : count ≤ window.available then
    .ok {
      window with
      cursor := window.cursor + count
      start_le_cursor := Nat.le_trans window.start_le_cursor (Nat.le_add_right _ _)
      cursor_le_stop := by
        have := window.cursor_le_stop
        simp only [available] at hEnough
        omega }
  else .error (.overConsumed count window.available)

/-- Marks everything as read. -/
def exhaust (window : Window) : Window where
  start := window.start
  cursor := window.stop
  stop := window.stop
  start_le_cursor := Nat.le_trans window.start_le_cursor window.cursor_le_stop
  cursor_le_stop := Nat.le_refl _

/-- The window record with the failure that a stream keeps beside it. -/
def describe (window : Window) (failure : Option Code) : String :=
  Text.closedRecord "BufferedIo"
    [("start", toString window.start), ("cursor", toString window.cursor),
      ("end", toString window.stop), ("failure", Text.optional (failure.map Code.name))]

@[simp] theorem available_whole (length : Nat) : (whole length).available = length := rfl

@[simp] theorem exhausted_exhaust (window : Window) : window.exhaust.exhausted = true := by
  simp [exhaust, exhausted]

theorem exhausted_iff (window : Window) : window.exhausted = true ↔ window.available = 0 := by
  have := window.cursor_le_stop
  simp only [exhausted, available, decide_eq_true_eq]
  omega

/-- Consuming succeeds exactly up to what is available. -/
theorem consume_isOk_iff (window : Window) (count : Nat) :
    (window.consume count).isOk = true ↔ count ≤ window.available := by
  by_cases hEnough : count ≤ window.available <;>
    simp [consume, hEnough, Except.isOk, Except.toBool]

end Window

end Bytestream
