import Bytestream.Chunk.Reader
import Bytestream.Chunk.Writer
import Bytestream.Proofs.Result
import Bytestream.Stream.Handle

/-!
The ways to use a stream: its own operations, the calls of the codec and of the chunk layer on top
of it, and what it does as an ordinary byte handle. A stream can be used in any order, and whatever
one use came to, the next one meets the stream that it left.
-/

namespace Bytestream

/-- An operation of the stream itself that reports an outcome. -/
inductive Operation where
  | size
  | read (count : Nat)
  | bufferedRead (count : Nat)
  | write (source : Bytes)
  | seek (offset : Int) (origin : Origin)
  | position
  | refill

/-- Asks the stream for the operation. A refill moves no bytes, so that its code is all of its
outcome. -/
def Operation.perform {β : Type} [Backend β] : Operation → Stream.Op β Outcome
  | size => Stream.size
  | read count => do return (← Stream.read count).outcome
  | bufferedRead count => do return (← Stream.bufferedRead count).outcome
  | write source => Stream.write source
  | seek offset origin => Stream.seek offset origin
  | position => Stream.position
  | refill => do return .failed (← Stream.refill)

/-- A call of the codec or of the chunk layer, which stops at its first error. Words are as wide as
an outcome can count. -/
inductive Call : Type 1 where
  | readWord (order : ByteOrder) (width : Nat) (hWidth : width < magnitudeLimit)
  | writeWord {width : Nat} (order : ByteOrder) (word : Word width)
  | readMember {α : Type} (enumeration : Enumeration α) (order : ByteOrder)
      (hWidth : enumeration.scalar.width < magnitudeLimit)
  | writeMember {α : Type} (enumeration : Enumeration α) (order : ByteOrder) (member : α)
  | readFields (order : ByteOrder)
  | writeFields (header : ChunkHeader) (order : ByteOrder)
  | readFooter (order : ByteOrder)
  | writeFooter (order : ByteOrder) (sum : Word 4)
  | readHeader (config : ChunkConfig)
  | readPayload (header : ChunkHeader) (config : ChunkConfig)
  | readChunk (config : ChunkConfig)
  | skipChunk (header : ChunkHeader)
  | writeChunk (typeId : Word 4) (version : Word 2) (payload : Bytes) (config : ChunkConfig)
  | begin (typeId : Word 4) (version : Word 2) (config : ChunkConfig)
  | append (writer : ChunkWriter) (bytes : Bytes)
  | finish (writer : ChunkWriter)

/-- Makes the call. What it yields is left out. -/
def Call.perform [Memory] {β : Type} [Backend β] : Call → Stream.Attempt β Unit
  | readWord order width _ => do let _ ← Stream.readWord order width
  | writeWord order word => Stream.putWord order word
  | readMember enumeration order _ => do let _ ← Stream.readMember enumeration order
  | writeMember enumeration order member => Stream.putWord order (enumeration.encode member)
  | readFields order => do let _ ← ChunkHeader.read order
  | writeFields header order => header.write order
  | readFooter order => do let _ ← ChunkHeader.readFooter order
  | writeFooter order sum => ChunkHeader.writeFooter order sum
  | readHeader config => do let _ ← Chunk.readHeader config
  | readPayload header config => do let _ ← Chunk.readPayloadVerified header config
  | readChunk config => do let _ ← Chunk.read config
  | skipChunk header => Chunk.skip header
  | writeChunk typeId version payload config => do
      let _ ← Chunk.write typeId version payload config
  | begin typeId version config => do let _ ← ChunkWriter.begin typeId version config
  | append writer bytes => do let _ ← writer.append bytes
  | finish writer => do let _ ← writer.finish

/-- One use of a stream. -/
inductive Use : Type 1 where
  | operation (asked : Operation)
  | call (made : Call)
  | readWordInto {width : Nat} (order : ByteOrder) (initial : Word width)
  | unread
  | consume (count : Nat)
  | resetErrorState
  | close
  | handleRead (destination : Bytes)
  | handleWrite (source : Bytes)
  | handleSeek (target : HandleTarget)

namespace Use

/-- Uses the stream, and goes on whatever it comes to, short of a fault. -/
def perform [Memory] {β : Type} [Backend β] : Use → Stream.Op β Unit
  | operation asked => do let _ ← asked.perform
  | call made => do let _ ← Action.attempt made.perform
  | readWordInto order initial => do let _ ← Stream.readWordInto order initial
  | unread => do let _ ← Stream.unread
  | consume count => Stream.consume count
  | resetErrorState => do let _ ← Stream.resetErrorState
  | close => do let _ ← Stream.close
  | handleRead destination => do let _ ← Stream.Handle.read destination
  | handleWrite source => do let _ ← Stream.Handle.write source
  | handleSeek target => do let _ ← Stream.Handle.seek target

/-- What the user owes: only an exhausted window is refilled, and only available bytes are
consumed. -/
def Permitted {β : Type} : Use → Stream β → Prop
  | operation .refill, stream => stream.window.exhausted = true
  | consume count, stream => count ≤ stream.available
  | _, _ => True

end Use

namespace Stream

variable {β : Type} [Backend β] {backend : β} {window : Window}

/-- The stream on a backend as it is opened. -/
def opened (backend : β) (window : Window) : Stream β :=
  ⟨backend, Backend.capabilities backend, window, none, .success⟩

theorem ofBackend_of_window (hWindow : Backend.initialWindow backend = .ok window) :
    ∃ log, ofBackend backend = .ok (opened backend window, log) := by
  rw [ofBackend, hWindow]
  exact ⟨_, rfl⟩

end Stream

/-- The states that a stream comes to by uses that are allowed where they are made, wherever each of
them stops. -/
inductive Stream.Reachable [Memory] {β : Type} [Backend β] (allowed : Use → Stream β → Prop)
    (start : Stream β) : Stream β → Prop where
  | start : Reachable allowed start start
  | used {stream : Stream β} (use : Use) (hReached : Reachable allowed start stream)
      (hAllowed : allowed use stream) : Reachable allowed start (use.perform.result stream).2

/-- What holds at the start and is kept by every allowed use holds wherever the stream comes to. -/
theorem Stream.Reachable.invariant [Memory] {β : Type} [Backend β] {allowed : Use → Stream β → Prop}
    {start reached : Stream β} {good : Stream β → Prop}
    (hReached : start.Reachable allowed reached) (hStart : good start)
    (hKept : ∀ stream use, good stream → allowed use stream →
      good (use.perform.result stream).2) : good reached := by
  induction hReached with
  | start => exact hStart
  | used use hReached hAllowed ih => exact hKept _ use ih hAllowed

end Bytestream
