import Bytestream.Backend

/-!
One open byte source or sink. A stream calls only what its backend offers, keeps the first failure
until it is reset, and serves reads through the backend's own buffer where the backend has one. A
refill that fails is final: from then on the window shows a few zeros that no read delivers.
-/

namespace Bytestream

/-- A backend with what the stream keeps beside it: the capabilities it had when it was opened, the
window, the code of a final refill failure, and the first failure since the last reset. -/
structure Stream (β : Type) where
  backend : β
  capabilities : Capabilities
  window : Window
  failure : Option Code := none
  errorState : Code := .success

namespace Stream

/-- An operation on a stream. Failures of data and of backends are among its values. -/
abbrev Op (β α : Type) := Action Fault (Stream β) α

/-- An operation on a stream that stops at the first error. -/
abbrev Attempt (β α : Type) := Action Stop (Stream β) α

/-- Uses an operation inside one that may stop at an error. -/
def lift {β α : Type} (operation : Op β α) : Attempt β α := operation.mapStop .fault

/-- What the window shows after a final failure. -/
def stub : Bytes := List.replicate 16 0

variable {β : Type} [Backend β]

/-- Opens a stream at the initial window of its backend. -/
def ofBackend (backend : β) : Except Fault (Stream β × List Event) := do
  let window ← Backend.initialWindow backend
  let capabilities := Backend.capabilities backend
  return ({ backend, capabilities, window }, [.opened (Backend.kind β) capabilities.describe])

/-- The buffer that the window indices refer to. -/
def shownBytes (stream : Stream β) : Bytes :=
  if stream.failure.isSome then stub else Backend.buffer stream.backend

/-- The stream as a record. -/
def describe (stream : Stream β) : String :=
  Text.closedRecord "Stream"
    [("backend", Text.quoted (Backend.kind β)),
      ("capabilities", stream.capabilities.describe),
      ("buffered", stream.window.describe stream.failure),
      ("error_state", stream.errorState.name)]

/-- Calls the backend. -/
def call {α : Type} (operation : β → Reply β α) : Op β α := fun stream =>
  let reply := operation stream.backend
  ⟨.ok reply.value, { stream with backend := reply.state }, reply.log⟩

/-- Calls the backend with the window. -/
def callOnWindow {α : Type} (operation : β → Window → Reply (β × Window) (Except Fault α)) :
    Op β α := fun stream =>
  let reply := operation stream.backend stream.window
  ⟨reply.value, { stream with backend := reply.state.1, window := reply.state.2 }, reply.log⟩

/-- Keeps a code as the error state unless an earlier failure is there, and yields what is kept. -/
def record (code : Code) : Op β Code := do
  let stream ← Action.state
  if stream.errorState.isSuccess then
    Action.modify ({ · with errorState := code })
    return code
  else return stream.errorState

/-- The outcome of a backend call as the stream reports it: under the error state. A success under
an earlier failure moved something and still counts for nothing. -/
def conclude (outcome : Outcome) : Op β Outcome := do
  let code ← record outcome.code
  if outcome.isDone && !code.isSuccess then return .failed code
  else return outcome.withCode code

/-- Refuses an operation that the backend does not offer. -/
def unsupported : Op β Outcome := do
  let _ ← record .invalidOperation
  return .failed .invalidOperation

/-- Puts the window on the stub. The first code to fail a stream is the one that stays. -/
def serveStub (code : Code) : Op β Unit := do
  let stream ← Action.state
  let kept := stream.failure.getD code
  Action.emit (.stubServed kept)
  Action.modify ({ · with failure := some kept, window := Window.whole stub.length })

/-- Clears the error state and yields what it was. A stream that failed for good stays failed: its
window is exhausted, so that the next read meets the failure again. -/
def resetErrorState : Op β Code := do
  let stream ← Action.state
  if stream.failure.isSome then Action.modify fun stream => { stream with window := stream.window.exhaust }
  Action.modify ({ · with errorState := .success })
  return stream.errorState

/-- The length of the data. -/
def size : Op β Outcome := do
  if (← Action.state).capabilities.size then conclude (← call Backend.size) else unsupported

/-- Writes all of the source. Writing nothing always succeeds. -/
def write (source : Bytes) : Op β Outcome := do
  if source.isEmpty then return .done 0
  else if (← Action.state).capabilities.write then
    conclude (← call (Backend.write · source))
  else unsupported

/-- Moves the position and yields the new one. After a final failure there is no position to move,
and the failure is reported again. -/
def seek (offset : Int) (origin : Origin) : Op β Outcome := do
  let stream ← Action.state
  if stream.capabilities.seek then
    match stream.failure with
    | some code =>
        serveStub code
        let _ ← record code
        return .failed code
    | none => conclude (← callOnWindow (Backend.seek · · offset origin))
  else unsupported

/-- The current position. -/
def position : Op β Outcome := seek 0 .current

/-- Closes the stream. A backend without anything to release always succeeds. -/
def close : Op β Code := do
  if (← Action.state).capabilities.close then
    let code ← call Backend.close
    Action.emit (.closed (Backend.kind β) code)
    return code
  else return .success

/-- How many bytes of the window are unread. -/
def available (stream : Stream β) : Nat := stream.window.available

/-- The first `count` unread bytes of the window. A window that ends past its buffer is a fault
once it is cut there. -/
def peek (count : Nat) : Op β Bytes := do
  let stream ← Action.state
  match stream.shownBytes.slice? stream.window.cursor count with
  | some piece => return piece
  | none => Action.stop .outsideBuffer

/-- All unread bytes of the window. -/
def unread : Op β Bytes := do peek (← Action.state).available

/-- Marks bytes of the window as read. -/
def consume (count : Nat) : Op β Unit := do
  let window ← (← Action.state).window.consume count
  Action.modify ({ · with window })

/-- Checks that a refill which reported success made bytes available inside the buffer. -/
def checkRefilled : Op β Unit := do
  let stream ← Action.state
  let window := stream.window
  if window.cursor ≠ window.start ∨ window.stop ≤ window.cursor then
    Action.stop (.refillEmpty (Backend.kind β))
  else if (Backend.buffer stream.backend).length < window.stop then
    Action.stop (.refillPastBuffer (Backend.kind β))
  else Action.emit (.refilled (Backend.kind β) window.available)

/-- Makes more bytes available in an exhausted window. The first failure is final and the backend
is not asked again. -/
def refill : Op β Code := do
  let stream ← Action.state
  if !stream.capabilities.bufferedRead then return (← unsupported).code
  else if !stream.window.exhausted then Action.stop (.refillUnexhausted stream.available)
  else
    match stream.failure with
    | some code =>
        serveStub code
        let _ ← record code
        return code
    | none =>
        let code ← callOnWindow Backend.refill
        if code.isSuccess then
          checkRefilled
          return code
        else
          Action.emit (.failedForGood (Backend.kind β) code)
          serveStub code
          record code

/-- Refills the window if nothing in it is unread. -/
def refillIfExhausted : Op β Unit := do
  if (← Action.state).window.exhausted then
    let _ ← refill

/-- Takes up to `count` bytes off the window. -/
def takePiece (count : Nat) : Op β Bytes := do
  let piece ← peek (min count (← Action.state).available)
  consume piece.length
  return piece

/-- Takes `wanted` bytes through the window in at most `rounds` pieces, and stops early once the
stream has failed. A window that was refilled is not empty, so as many rounds as bytes are wanted
always suffice. -/
def takeBuffered (rounds wanted : Nat) : Op β Bytes := do
  match rounds, wanted with
  | 0, _ | _, 0 => return []
  | rounds + 1, wanted =>
      refillIfExhausted
      if (← Action.state).errorState.isSuccess then
        let piece ← takePiece wanted
        return piece ++ (← takeBuffered rounds (wanted - piece.length))
      else return []

/-- Reads through the window. The outcome carries the error state of the stream. -/
def bufferedRead (count : Nat) : Op β Transfer := do
  if count = 0 then return .none (.done 0)
  else if (← Action.state).capabilities.bufferedRead then
    let bytes ← takeBuffered count count
    return ⟨.report bytes.length (← Action.state).errorState, bytes⟩
  else return .none (← unsupported)

/-- Reads exactly `count` bytes unless the stream ends or fails. Reading nothing always succeeds,
and a backend without a direct read is read through its window. -/
def read (count : Nat) : Op β Transfer := do
  if count = 0 then return .none (.done 0)
  else
    let capabilities := (← Action.state).capabilities
    if capabilities.read then
      let transfer ← call (Backend.read · count)
      return { transfer with outcome := ← conclude transfer.outcome }
    else if capabilities.bufferedRead then bufferedRead count
    else return .none (← unsupported)

end Stream

end Bytestream
