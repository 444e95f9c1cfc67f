import Bytestream.Code
import Bytestream.Fault
import Bytestream.Text.Hex

/-!
What the library logs: one constructor per kind of entry, with its level and its text.
-/

namespace Bytestream

/-- How much a log entry matters. -/
inductive Level where
  | error
  | warn
  | debug
  | trace
deriving DecidableEq

/-- The name of a level as a log line starts with it. -/
def Level.name : Level → String
  | error => "ERROR"
  | warn => "WARN"
  | debug => "DEBUG"
  | trace => "TRACE"

/-- One log entry. -/
inductive Event where
  | opened (kind capabilities : String)
  | closed (kind : String) (code : Code)
  | refilled (kind : String) (count : Nat)
  | failedForGood (kind : String) (code : Code)
  | stubServed (code : Code)
  | mapped (count : Nat)
  | fileReadFailed (moved : Nat) (reason : String)
  | fileWriteFailed (moved : Nat) (reason : String)
  | sizeQueryFailed (reason : String)
  | refillFailed (reason : String)
  | chunkWritten (typeId version size : Nat)
  | chunkFinished (typeId version size : Nat)
  | headerRead (typeId version size : Nat)
  | payloadBuffered (size : Nat)
  | checksumDiffers (typeId stored computed : Nat)
  | faulted (message : String)
deriving DecidableEq

namespace Event

/-- The level of an entry. Only a fault is an error: failures of data and of backends are results
that the caller sees anyway. -/
def level : Event → Level
  | faulted _ => .error
  | failedForGood _ _ | checksumDiffers _ _ _ => .warn
  | refilled _ _ | stubServed _ | payloadBuffered _ => .trace
  | _ => .debug

/-- The text of an entry. -/
def text : Event → String
  | opened kind capabilities => s!"opened {kind} stream with capabilities {capabilities}"
  | closed kind code => s!"closed {kind} stream ({code.name})"
  | refilled kind count => s!"{kind} refilled {count} bytes"
  | failedForGood kind code => s!"{kind} stream failed permanently with {code.name}"
  | stubServed code => s!"buffered window serving failure stub ({code.name})"
  | mapped count => s!"mapped {count} bytes"
  | fileReadFailed moved reason => s!"file read failed after {moved} bytes: {reason}"
  | fileWriteFailed moved reason => s!"file write failed after {moved} bytes: {reason}"
  | sizeQueryFailed reason => s!"buffered file size query failed: {reason}"
  | refillFailed reason => s!"buffered file refill failed: {reason}"
  | chunkWritten typeId version size =>
      s!"wrote chunk {Text.hex32 typeId} v{version} ({size} bytes)"
  | chunkFinished typeId version size =>
      s!"finished chunk {Text.hex32 typeId} v{version} ({size} bytes)"
  | headerRead typeId version size =>
      s!"chunk {Text.hex32 typeId} v{version} with {size} payload bytes"
  | payloadBuffered size => s!"read {size} payload bytes through the buffered window"
  | checksumDiffers typeId stored computed =>
      s!"checksum mismatch in chunk {Text.hex32 typeId}: stored {Text.hex32 stored}, " ++
        s!"computed {Text.hex32 computed}"
  | faulted message => message

/-- The log line of an entry. -/
def line (event : Event) : String := event.level.name ++ " " ++ event.text

end Event

/-- The entry that a fault leaves in the log, none for one without a text. -/
def Fault.event? (fault : Fault) : Option Event := fault.message?.map Event.faulted

end Bytestream
