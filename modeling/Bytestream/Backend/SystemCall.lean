import Bytestream.Bytes
import Bytestream.Event

/-!
Transfers made of calls of the operating system. A call may move less than it is asked for, or
nothing, or fail. To move a given number of bytes is therefore a loop of calls, which makes an
interrupted call again and keeps what was moved before a call that moved nothing or failed.
-/

namespace Bytestream

/-- What kind of failure a call reports, as far as the kinds are told apart. -/
inductive SystemErrorKind where
  | interrupted
  | writeZero
  | outOfMemory
  | other
deriving DecidableEq

/-- The failure of a call, with the system's text for it. -/
structure SystemError where
  kind : SystemErrorKind
  reason : String
deriving DecidableEq

/-- What the system does in one call. -/
inductive SystemCall where
  /-- Moves at most so many bytes. -/
  | atMost (count : Nat)
  /-- Fails. -/
  | failed (error : SystemError)
deriving DecidableEq

namespace SystemCall

/-- How many of the bytes that the next call is asked for it may move, where `calls` are those to
come. Once they have run out, it is all of them. -/
def allowance (calls : List SystemCall) (asked : Nat) : Except SystemError Nat :=
  match calls with
  | [] => .ok asked
  | atMost count :: _ => .ok (min count asked)
  | failed error :: _ => .error error

end SystemCall

/-- How a loop of calls ended. -/
inductive LoopEnd where
  /-- Everything was moved. -/
  | complete
  /-- A call moved nothing. -/
  | empty
  /-- A call failed. -/
  | failed (error : SystemError)
deriving DecidableEq

namespace LoopEnd

/-- The code of a loop that ended so: a call that moved nothing stands for the end of the data. -/
def code (codeOf : SystemErrorKind → Code) : LoopEnd → Code
  | complete => .success
  | empty => .endOfStream
  | failed error => codeOf error.kind

/-- What is logged of the end: only a failure is. -/
def log (entry : String → Event) : LoopEnd → List Event
  | complete | empty => []
  | failed error => [entry error.reason]

end LoopEnd

/-- The bytes that a loop of calls has moved, how it ended, and the state that it left. -/
structure LoopResult (σ : Type) where
  moved : Bytes
  ending : LoopEnd
  state : σ

/-- Makes calls until `wanted` bytes are moved, in at most `rounds` calls. A call depends on the bytes
that were moved before it, and yields those that it moved itself. -/
def moveAll {σ : Type} (call : Bytes → σ → Except SystemError Bytes × σ) (wanted rounds : Nat)
    (moved : Bytes) (state : σ) : LoopResult σ :=
  match rounds with
  | 0 => ⟨moved, .complete, state⟩
  | rounds + 1 =>
      if moved.length < wanted then
        match call moved state with
        | (.ok [], after) => ⟨moved, .empty, after⟩
        | (.ok piece, after) => moveAll call wanted rounds (moved ++ piece) after
        | (.error error, after) =>
            if error.kind = .interrupted then moveAll call wanted rounds moved after
            else ⟨moved, .failed error, after⟩
      else ⟨moved, .complete, state⟩

end Bytestream
